import Wstunnel.L1Encoding.UrlParse
import Wstunnel.L2Rules.PathPrefix

/-!
# Is what the operator lists reachable?

`run_server_impl` cuts a `--restrict-to` value at its last colon, strips the
brackets and hands text and port to `from_path_prefix`, which reads the text
with `IpAddr::from_str` or makes a case-sensitive pattern of it. The host of a
request has been through `Host::parse`, which has one spelling for each host.

**Third-party code.** `Host::parse` is `hostParse`, written out, with any IDNA that
gives no forbidden character (`DeniesForbidden`); of `regex` and `ipnet` what
`Matchers.RegexSpec` and `Matchers.CidrSpec` say.

**Results.**
* `restrictTo_admits_iff`: a listed host is reachable exactly when it is listed
  in that spelling, or is an IPv6 address.
-/
namespace Wstunnel.L2

open Wstunnel.L1 Wstunnel.Str

def isBracket (c : Char) : Bool := c = '[' || c = ']'

/-- `trim_matches(['[', ']'])` -/
def trimBrackets (host : List Char) : List Char :=
  ((host.dropWhile isBracket).reverse.dropWhile isBracket).reverse

/-- One value; `none` where the code panics. mirrors wstunnel/src/lib.rs:518-524 -/
def restrictToArg (x : String) : Option (String × UInt16) := do
  let (host, port) ← rsplitOnce ':' x.toList
  let port ← parseUnsigned 16 port
  return (String.ofList (trimBrackets host), UInt16.ofNat port)

/-- The rules of a server without a restriction file.
mirrors wstunnel/src/lib.rs:513-532 -/
def serverRestrictions (M : Matchers) (pathPrefixes values : List String) : Option RestrictionsRules := do
  let restrictTo ← values.mapM restrictToArg
  fromPathPrefix M pathPrefixes restrictTo

example : restrictToArg "[::1]:443" = some ("::1", 443) ∧ restrictToArg "google.com" = none := by decide

/-! ## The value -/

theorem restrictToArg_eq_some {h port : String} {p : UInt16} (hport : parseUnsigned 16 port.toList = some p.toNat) :
    restrictToArg (h ++ ":" ++ port) = some (String.ofList (trimBrackets h.toList), p) := by
  have hcolon : ':' ∉ port.toList := fun hc => absurd (mem_of_parseUnsigned hport hc) (by decide)
  have htext : (h ++ ":" ++ port).toList = h.toList ++ ':' :: port.toList := by simp
  rw [restrictToArg, htext, rsplitOnce_append hcolon]
  simp only [Option.bind_eq_bind, Option.bind_some, hport, UInt16.ofNat_toNat, Option.pure_def]

/-- Brackets around text without any. -/
theorem trimBrackets_brackets {text : List Char} (hne : text ≠ []) (h : ∀ c ∈ text, isBracket c = false) :
    trimBrackets ('[' :: (text ++ [']'])) = text := by
  have hstop (l rest : List Char) (hl : l ≠ []) (hchars : ∀ c ∈ l, isBracket c = false) :
      (l ++ rest).dropWhile isBracket = l ++ rest := by
    obtain ⟨c, l, rfl⟩ := List.exists_cons_of_ne_nil hl
    rw [List.cons_append, List.dropWhile_cons_of_neg]
    rw [hchars c List.mem_cons_self]
    exact Bool.false_ne_true
  rw [trimBrackets, List.dropWhile_cons_of_pos rfl, hstop text _ hne h, List.reverse_append]
  show ((']' :: text.reverse).dropWhile isBracket).reverse = text
  rw [List.dropWhile_cons_of_pos rfl, ← List.append_nil text.reverse,
    hstop text.reverse [] (by simpa using hne) fun c hc => h c (List.mem_reverse.mp hc), List.append_nil,
    List.reverse_reverse]

/-! ## The host -/

variable {uts46 : List UInt8 → Option (List Char)}

theorem ipv6_of_hostParse {s : String} {ip : Ipv6Addr} (h : hostParse uts46 s = some (.ipv6 ip)) :
    ∃ text, s.toList = '[' :: (text ++ [']']) ∧ ipv6FromStr text = some ip := by
  unfold hostParse at h
  split at h
  · rename_i rest hs
    split at h
    · rename_i hlast
      obtain ⟨ip', hip, he⟩ := Option.map_eq_some_iff.mp h
      cases he
      exact ⟨rest.dropLast, by rw [hs, List.dropLast_append_getLast? _ hlast], hip⟩
    · cases h
  · obtain ⟨name, -, h⟩ := Option.bind_eq_some_iff.mp h
    split at h
    · cases h
    · split at h
      · obtain ⟨ip', -, he⟩ := Option.map_eq_some_iff.mp h
        cases he
      · cases h

/-- A domain is no address. -/
theorem fromStr_of_domain (huts : DeniesForbidden uts46) {s d : String} (h : hostParse uts46 s = some (.domain d)) :
    IpAddr.fromStr d = none := by
  obtain ⟨-, hchars, hnumber⟩ := domain_of_hostParse huts h
  cases hip : IpAddr.fromStr d with
  | none => rfl
  | some ip => cases ip with
    | v4 ip =>
      rw [fromStr_eq_v4_iff.mp hip, endsInANumber_ipv4Text] at hnumber
      cases hnumber
    | v6 ip => exact absurd (hchars ':' (colon_of_fromStr hip)) (by decide)

/-- How a listed text must be spelled to be found again. -/
def SpelledAs (h : String) : Host → Prop
  | .ipv6 _ => True
  | host => String.ofList (trimBrackets h.toList) = host.display

/-- The listed text names the host exactly if it is spelled as the host is. -/
theorem restrictToNames_iff (huts : DeniesForbidden uts46) {h : String} (remote : RemoteAddr)
    (hhost : hostParse uts46 h = some remote.host) :
    RestrictToNames [(String.ofList (trimBrackets h.toList), remote.port)] remote ↔ SpelledAs h remote.host := by
  have hone : RestrictToNames [(String.ofList (trimBrackets h.toList), remote.port)] remote ↔
      (∃ ip, IpAddr.fromStr (String.ofList (trimBrackets h.toList)) = some ip ∧ remote.host.ip? = some ip) ∨
        (IpAddr.fromStr (String.ofList (trimBrackets h.toList)) = none ∧
          remote.host = .domain (String.ofList (trimBrackets h.toList))) := by
    simp [RestrictToNames]
  rw [hone]
  cases hr : remote.host with
  | domain d =>
    rw [hr] at hhost
    simp only [Host.ip?, reduceCtorEq, and_false, exists_false, false_or, Host.domain.injEq, SpelledAs, Host.display]
    refine ⟨fun h => h.2.symm, fun h => ⟨?_, h.symm⟩⟩
    rw [h]
    exact fromStr_of_domain huts hhost
  | ipv4 ip =>
    simp only [Host.ip?, Option.some.injEq, exists_eq_right', fromStr_eq_v4_iff, reduceCtorEq, and_false, or_false,
      SpelledAs, Host.display]
  | ipv6 ip =>
    rw [hr] at hhost
    obtain ⟨text, htext, hip⟩ := ipv6_of_hostParse hhost
    have hfrom : IpAddr.fromStr (String.ofList text) = some (.v6 ip) :=
      fromStr_of_ipv6FromStr (by rw [String.toList_ofList]; exact hip)
    obtain ⟨hne, hchars⟩ := isAddrChar_of_fromStr hfrom
    rw [String.toList_ofList] at hne hchars
    have hbracket (c : Char) (hc : c ∈ text) : isBracket c = false := by
      obtain ⟨-, hopen, hclose⟩ := isAddrChar_authority (hchars c hc)
      rw [isBracket, decide_eq_false hopen, decide_eq_false hclose]
      rfl
    rw [htext, trimBrackets_brackets hne hbracket]
    exact iff_of_true (.inl ⟨.v6 ip, hfrom, rfl⟩) trivial

/-- **A listed host is reachable** exactly when its text is the one that
`Host::parse` gives the host, or it is an IPv6 address. -/
theorem restrictTo_admits_iff {M : Matchers} (hre : M.RegexSpec) (hcidr : M.CidrSpec) (huts : DeniesForbidden uts46)
    {h port : String} {host : Host} {p : UInt16} (hhost : hostParse uts46 h = some host)
    (hport : parseUnsigned 16 port.toList = some p.toNat) {pathPrefixes : List String} {rules : RestrictionsRules}
    (hr : serverRestrictions M pathPrefixes [h ++ ":" ++ port] = some rules)
    {jwt : JwtTunnelConfig} (hproto : (∃ proxyProtocol, jwt.p = .tcp proxyProtocol) ∨ ∃ timeout, jwt.p = .udp timeout)
    (hname : hostParse uts46 jwt.r = some host) (hrp : jwt.rp = p)
    {pathPrefix : String} (hpath : pathPrefixes = [] ∨ pathPrefix ∈ pathPrefixes) (auth : Option String) :
    ∃ remote, RemoteAddr.tryFrom (hostParse uts46) jwt = some remote ∧
      ((validateTunnel M remote pathPrefix auth rules).isSome = true ↔ SpelledAs h host) := by
  refine ⟨⟨jwt.p, host, jwt.rp⟩, by rw [RemoteAddr.tryFrom, hname]; rfl, ?_⟩
  have hrules : fromPathPrefix M pathPrefixes [(String.ofList (trimBrackets h.toList), p)] = some rules := by
    simpa [serverRestrictions, restrictToArg_eq_some hport] using hr
  have hne : host ≠ .domain "" := by
    rintro rfl
    exact (domain_of_hostParse huts hhost).1 rfl
  have hforward : jwt.p.isReverseTunnel = false := by
    rcases hproto with ⟨proxyProtocol, hp⟩ | ⟨timeout, hp⟩ <;> rw [hp] <;> rfl
  rw [isSome_validateTunnel_fromPathPrefix M hre hcidr hrules hne, ← hrp,
    ← restrictToNames_iff huts ⟨jwt.p, host, jwt.rp⟩ hhost]
  simp [hpath, DestinationNamed, hforward]

/-- `--restrict-to 10.0.0.1:443` and a token that names `10.1`. -/
theorem restrictTo_admits_ipv4 :
    let rules : RestrictionsRules := ⟨[⟨"Allow All", [.any],
      [.tunnel ⟨[], [⟨443, 443⟩], ⟨"^$"⟩, [⟨.v4 0x0A000001, 32, by decide⟩]⟩]⟩]⟩
    serverRestrictions anchoredMatchers [] ["10.0.0.1" ++ ":" ++ "443"] = some rules ∧
      ∃ remote, RemoteAddr.tryFrom (hostParse fun _ => none) ⟨"", .tcp false, "10.1", 443⟩ = some remote ∧
        ((validateTunnel anchoredMatchers remote "" none rules).isSome = true ↔
          SpelledAs "10.0.0.1" (.ipv4 0x0A000001)) := by
  intro rules
  have hr : serverRestrictions anchoredMatchers [] ["10.0.0.1" ++ ":" ++ "443"] = some rules := by decide +kernel
  have huts : DeniesForbidden fun _ => none := fun _ _ h => by cases h
  exact ⟨hr, restrictTo_admits_iff anchoredMatchers_regexSpec anchoredMatchers_cidrSpec huts (by decide +kernel)
    (p := 443) (by decide +kernel) hr (.inl ⟨false, rfl⟩) (by decide +kernel) rfl (.inl rfl) none⟩

/-- A host name with a capital letter and a short IPv4 address: both are
accepted, and no request reaches them. -/
theorem restrictTo_blocks_listed :
    (∃ rules, serverRestrictions anchoredMatchers [] ["Example.com:80"] = some rules ∧
      RemoteAddr.tryFrom (hostParse fun _ => none) ⟨"", .tcp false, "Example.com", 80⟩ =
        some ⟨.tcp false, .domain "example.com", 80⟩ ∧
      validateTunnel anchoredMatchers ⟨.tcp false, .domain "example.com", 80⟩ "" none rules = none) ∧
    ∃ rules, serverRestrictions anchoredMatchers [] ["127.1:80"] = some rules ∧
      RemoteAddr.tryFrom (hostParse fun _ => none) ⟨"", .udp none, "127.1", 80⟩ =
        some ⟨.udp none, .ipv4 0x7F000001, 80⟩ ∧
      validateTunnel anchoredMatchers ⟨.udp none, .ipv4 0x7F000001, 80⟩ "" none rules = none := by
  refine ⟨⟨⟨[⟨"Allow All", [.any], [.tunnel ⟨[], [⟨80, 80⟩], ⟨"^Example\\.com$"⟩, []⟩]⟩]⟩, ?_, ?_, ?_⟩,
    ⟨⟨[⟨"Allow All", [.any], [.tunnel ⟨[], [⟨80, 80⟩], ⟨"^127\\.1$"⟩, []⟩]⟩]⟩, ?_, ?_, ?_⟩⟩ <;> decide +kernel

end Wstunnel.L2
