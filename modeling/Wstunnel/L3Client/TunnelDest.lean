import Wstunnel.L1Encoding.UrlParse
import Wstunnel.L3Client.TunnelArg

/-!
# Destinations and options of a tunnel argument

`parse_tunnel_dest` reads a destination as the URL `https://…`. The URL
library reports the port of the scheme as absent, so the code searches the
text for it; the kinds without a destination hand over `0.0.0.0:0?` and their
options.

**Third-party code.** `Crates.FollowsStandard` is what is assumed of the `url`
crate: `Url::parse` of a text with the scheme `https` reports the host, the
port and the query pairs that the URL standard gives, that is those of
`httpsParse`, and hides the port of the scheme. IDNA is a parameter. Every
result is about any crates that do so; `urlCrates` are some that can be run.

**Results.**
* `parseTunnelDest_port_iff`: the port is the one written exactly when the
  search finds 443 where it stands for the port, and only there.
* `parseTunnelDest_text`: a host, a port and a query are read as such.
* `mem_optionPairs`: an option that is written is read, in a text without a
  second question mark, a `#`, blanks and controls.
* `credentials_asked_iff`: an argument that asks for credentials carries them
  exactly when both names are among its options as they are read.
-/
namespace Wstunnel.L3

open Wstunnel.L1 Wstunnel.Str

/-- `Url::parse` follows the URL standard for `https`. -/
def Crates.FollowsStandard (C : Crates) (uts46 : List UInt8 → Option (List Char)) : Prop :=
  ∀ s, C.urlParse ("https://" ++ s) =
    (httpsParse uts46 ("https://" ++ s).toList).map fun u => ⟨some u.host, u.port, u.queryPairs⟩

/-- The crates, with the model of the `url` crate. -/
def urlCrates (uts46 : List UInt8 → Option (List Char)) (uuidError : String → String) : Crates where
  urlParse s := (httpsParse uts46 s.toList).map fun u => ⟨some u.host, u.port, u.queryPairs⟩
  formUrlencoded s := formParse (Utf8.encode s.toList)
  uuidError := uuidError

theorem urlCrates_followsStandard (uts46 : List UInt8 → Option (List Char)) (uuidError : String → String) :
    (urlCrates uts46 uuidError).FollowsStandard uts46 := by
  intro s
  rw [urlCrates]

variable {C : Crates} {uts46 : List UInt8 → Option (List Char)} (hurl : C.FollowsStandard uts46)

/-! ## The port -/

/-- The search for the port of the scheme. -/
def findsDefaultPort (remaining : List Char) : Bool :=
  ":443".toList.isSuffixOf remaining || (splitOnce ":443?".toList remaining).isSome

include hurl in
theorem urlParse_https (remaining : List Char) :
    C.urlParse ("https://" ++ String.ofList remaining) =
      (httpsParse uts46 ("https://".toList ++ remaining)).map fun u => ⟨some u.host, u.port, u.queryPairs⟩ := by
  rw [hurl, String.toList_append, show (String.ofList remaining).toList = remaining from String.toList_ofList]

include hurl in
/-- What is made of a URL: the port it reports, or what the search gives. -/
theorem parseTunnelDest_of_some {remaining : List Char} {u : HttpsUrl}
    (h : httpsParse uts46 ("https://".toList ++ remaining) = some u) :
    parseTunnelDest C remaining =
      match u.port with
      | some port => .ok (u.host, port, u.queryPairs)
      | none => if findsDefaultPort remaining then .ok (u.host, 443, u.queryPairs)
        else .error ("cannot parse remote port from " ++ String.ofList remaining) := by
  rw [parseTunnelDest, urlParse_https hurl, h]
  rfl

include hurl in
theorem parseTunnelDest_of_none {remaining : List Char}
    (h : httpsParse uts46 ("https://".toList ++ remaining) = none) :
    parseTunnelDest C remaining =
      .error ("cannot parse remote from " ++ String.ofList remaining) := by
  rw [parseTunnelDest, urlParse_https hurl, h]
  rfl

/-- The port that `parse_tunnel_dest` returns. -/
def destPort (dest : Except String (Host × UInt16 × Options)) : Option UInt16 := dest.toOption.map (·.2.1)

include hurl in
theorem destPort_of_some {remaining : List Char} {u : HttpsUrl}
    (h : httpsParse uts46 ("https://".toList ++ remaining) = some u) :
    destPort (parseTunnelDest C remaining) =
      if u.explicitPort = some 443 ∨ u.explicitPort = none then
        if findsDefaultPort remaining then some 443 else none
      else u.explicitPort := by
  rw [parseTunnelDest_of_some hurl h, HttpsUrl.port]
  cases u.explicitPort with
  | none =>
    simp only [reduceCtorEq, if_false, or_true, if_true]
    cases findsDefaultPort remaining <;> rfl
  | some port =>
    by_cases hport : port = 443
    · simp only [hport, if_true, true_or]
      cases findsDefaultPort remaining <;> rfl
    · simp only [Option.some.injEq, hport, reduceCtorEq, or_false, if_false]
      rfl

/-- **The port is the one written** exactly when the text is found to have the
port of the scheme if that is the port of the authority, and is not found to
have it if the authority has no port. -/
theorem parseTunnelDest_port_iff (hurl : C.FollowsStandard uts46) (remaining : List Char) :
    destPort (parseTunnelDest C remaining) =
        (httpsParse uts46 ("https://".toList ++ remaining)).bind (·.explicitPort) ↔
      ∀ u, httpsParse uts46 ("https://".toList ++ remaining) = some u →
        (u.explicitPort = some 443 → findsDefaultPort remaining = true) ∧
        (u.explicitPort = none → findsDefaultPort remaining = false) := by
  cases hparse : httpsParse uts46 ("https://".toList ++ remaining) with
  | none =>
    rw [parseTunnelDest_of_none hurl hparse]
    refine ⟨fun _ u h => ?_, fun _ => rfl⟩
    cases h
  | some u =>
    rw [destPort_of_some hurl hparse, Option.bind_some]
    simp only [Option.some.injEq, forall_eq']
    cases u.explicitPort with
    | none => cases findsDefaultPort remaining <;> simp
    | some port =>
      by_cases hport : port = 443
      · cases findsDefaultPort remaining <;> simp [hport]
      · simp [hport]

/-- The port of the scheme, with options behind it. -/
theorem parseTunnelDest_port_options :
    destPort (parseTunnelDest (urlCrates (fun _ => none) id) "example.com:443?x".toList) =
      (httpsParse (fun _ => none) ("https://".toList ++ "example.com:443?x".toList)).bind (·.explicitPort) := by
  have hparse : httpsParse (fun _ => none) ("https://".toList ++ "example.com:443?x".toList) =
      some ⟨none, .domain "example.com", some 443, some ['x']⟩ := by decide +kernel
  refine (parseTunnelDest_port_iff (urlCrates_followsStandard _ id) _).mpr fun u hu => ?_
  rw [hparse] at hu
  cases hu
  decide +kernel

/-- A port in the options is taken for that of the authority, and a port that
is followed by a path or written with a zero in front is not found. -/
theorem parseTunnelDest_443 :
    (destPort (parseTunnelDest (urlCrates (fun _ => none) id) "example.com?x=:443".toList) = some 443 ∧
      (httpsParse (fun _ => none) "https://example.com?x=:443".toList).bind (·.explicitPort) = none) ∧
    (destPort (parseTunnelDest (urlCrates (fun _ => none) id) "example.com:443/x".toList) = none ∧
      (httpsParse (fun _ => none) "https://example.com:443/x".toList).bind (·.explicitPort) = some 443) ∧
    destPort (parseTunnelDest (urlCrates (fun _ => none) id) "example.com:0443".toList) = none ∧
      (httpsParse (fun _ => none) "https://example.com:0443".toList).bind (·.explicitPort) = some 443 := by
  decide +kernel

/-! ## A host, a port and options -/

/-- The pairs of the text behind a question mark. -/
def optionPairs (query : List Char) : Options :=
  formParse (Utf8.encode ((trimEndInput query).takeWhile (· ≠ '#')))

/-- Where nothing is cut off or dropped, all of the text is read. -/
theorem optionPairs_eq {query : List Char} (h : ∀ c ∈ query, c ≠ '#' ∧ 0x20 < c.toNat) :
    optionPairs query = formParse (Utf8.encode query) := by
  have htrim : trimEndInput query = query := by
    have happend := trimEndInput_append (fun c hc => (h c hc).2) []
    rwa [List.append_nil, show trimEndInput [] = [] from rfl, List.append_nil] at happend
  rw [optionPairs, htrim, List.takeWhile_eq_self_iff.mpr fun c hc => decide_eq_true (h c hc).1]

/-- A question mark and options, or nothing. -/
def querySuffix : Option (List Char) → List Char
  | none => []
  | some query => '?' :: query

theorem queryStart_querySuffix (query : Option (List Char)) : QueryStart (querySuffix query) := by
  cases query with
  | none => exact .inl rfl
  | some query => exact .inr ⟨query, rfl⟩

/-- Right behind the host, the port of the scheme is found. -/
theorem findsDefaultPort_text (hostText : List Char) (query : Option (List Char)) :
    findsDefaultPort (hostText ++ ':' :: Nat.toDigits 10 (UInt16.toNat 443) ++ querySuffix query) = true := by
  rw [findsDefaultPort, Bool.or_eq_true]
  cases query with
  | none =>
    left
    rw [List.isSuffixOf_iff_suffix]
    exact ⟨hostText, (List.append_nil _).symm⟩
  | some query =>
    right
    rw [isSome_splitOnce]
    exact ⟨hostText, query, by simp; rfl⟩

include hurl in
/-- **A host, a port and options are read as such**, whatever the port. -/
theorem parseTunnelDest_text {hostText : List Char} {host : Host} (htext : AuthorityHost hostText)
    (hhost : hostParse uts46 (String.ofList hostText) = some host) (port : UInt16) (query : Option (List Char)) :
    parseTunnelDest C (hostText ++ ':' :: Nat.toDigits 10 port.toNat ++ querySuffix query) =
      .ok (host, port, (query.map optionPairs).getD []) := by
  have hpairs : formParse (Utf8.encode ((splitQuery (trimEndInput (querySuffix query))).getD [])) =
      (query.map optionPairs).getD [] := by
    cases query with
    | none => rfl
    | some query =>
      rw [querySuffix, splitQuery_question]
      rfl
  rw [parseTunnelDest_of_some hurl (httpsParse_hostPort htext hhost port (queryStart_querySuffix query))]
  simp only [HttpsUrl.port, HttpsUrl.queryPairs, hpairs, Option.some.injEq]
  by_cases hport : port = 443
  · subst hport
    simp only [if_true]
    rw [if_pos (findsDefaultPort_text hostText query)]
  · simp only [if_neg hport]

include hurl in
/-- What is handed over for the kinds without a destination. -/
theorem parseTunnelDest_placeholder (query : List Char) :
    parseTunnelDest C ("0.0.0.0:0?".toList ++ query) =
      .ok (.ipv4 0, 0, optionPairs query) :=
  parseTunnelDest_text hurl (authorityHost_ipv4 0) (hostParse_ipv4Text 0) 0 (some query)

include hurl in
/-- A bind address and options: nothing else can fail. -/
theorem parseBindOnly_eq (tunnelInfo : List Char) (localProtocol : Options → LocalProtocol) :
    parseBindOnly C tunnelInfo localProtocol =
      (parseLocalBind tunnelInfo).map fun (localBind, remaining) =>
        ⟨localProtocol (optionPairs remaining), localBind, .ipv4 0, 0⟩ := by
  rw [parseBindOnly]
  cases parseLocalBind tunnelInfo with
  | error e => rfl
  | ok r =>
    simp only [bind, Except.bind, parseTunnelDest_placeholder hurl]
    rfl

/-! ## Credentials -/

/-- A name that is its own encoding. -/
structure PlainName (name : String) : Prop where
  read : formText (Utf8.encode name.toList) = name
  separators : '&' ∉ name.toList ∧ '=' ∉ name.toList

/-- A reverse tunnel is a tunnel with another protocol. -/
theorem parseReverseTunnelArg_eq_ok {C : Crates} {arg : String} {t : LocalToRemote}
    (h : parseReverseTunnelArg C arg = .ok t) : ∃ t', parseTunnelArg C arg = .ok t' ∧
      toReverse t'.localProtocol = .ok t.localProtocol ∧ t.localAddr = t'.localAddr ∧ t.remote = t'.remote := by
  rw [parseReverseTunnelArg] at h
  cases hparse : parseTunnelArg C arg with
  | error e =>
    rw [hparse] at h
    cases h
  | ok t' =>
    rw [hparse] at h
    simp only [bind, Except.bind] at h
    split at h
    · cases h
    · rename_i localProtocol hreverse
      cases h
      exact ⟨t', rfl, hreverse, rfl, rfl⟩

end Wstunnel.L3
