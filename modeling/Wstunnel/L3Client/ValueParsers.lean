import Wstunnel.Core.Base64
import Wstunnel.Core.Panic
import Wstunnel.L3Client.TunnelArg
import Wstunnel.L3Client.UpgradeRequest

/-!
# The value parsers of the command line, with their panics

`clap` calls a parser on the text of each argument, and expects a value or an
error. The parsers slice texts at byte offsets, multiply parsed numbers and
unwrap conversions of the libraries, so a call may also panic.

**Third-party code.** `clap` is what calls the parsers, with any text. The conversions
of `http` are written out (`headerName`, `headerValue`); the `url` crate is the
parameter `Crates`, and no assumption on it is needed for a parser not to panic. A
debug build panics where a product overflows, a release build wraps.

**Results.**
* `parseDurationSec_total_iff`: a duration is read exactly, without a panic,
  unless the text is empty, ends in a character of several bytes, or names
  more seconds than fit into 64 bits.
* `returns_parseHttpHeaders_iff`: the name of a header must be a legal one.
* `parseTunnelArgChecked_eq`, `parseReverseTunnelArgChecked_eq`,
  `parseHttpCredentials_eq_ok`: the other parsers never panic.
-/
namespace Wstunnel.L3

open Wstunnel.L1 Wstunnel.Str Upgrade

/-! ## The parsers -/

/-- mirrors wstunnel/src/config.rs:445-463 -/
def parseDurationSec (overflowChecks : Bool) (arg : String) : Call (Except String Duration) := do
  let arg := arg.toList
  let last ← Call.unwrap (sliceFrom arg (max 0 (← sub64 overflowChecks (byteLen arg) 1)))
  let cut := do Call.unwrap (sliceTo arg (← sub64 overflowChecks (byteLen arg) 1))
  let (arg, multiplier) ← match String.ofList last with
    | "s" => do pure (← cut, 1)
    | "m" => do pure (← cut, 60)
    | "h" => do pure (← cut, 3600)
    | _ => pure (arg, 1)
  match parseUnsigned 64 arg with
  | none => return .error ("cannot parse duration of seconds from " ++ String.ofList arg)
  | some secs => return .ok ((← mul64 overflowChecks secs multiplier) * oneSecond)

/-- mirrors wstunnel/src/config.rs:735-754 -/
def parseHttpHeaders (arg : String) : Call (Except String (HeaderName × Bytes)) :=
  match splitOnce [':'] arg.toList with
  | none => return .error ("cannot parse http header from " ++ arg)
  | some (key, value) => match headerValue (Str.trim (String.ofList value)) with
    | none =>
      return .error ("cannot parse http header value from " ++ String.ofList value ++ " due to InvalidHeaderValue")
    | some header => return .ok (← Call.unwrap (headerName (String.ofList key)), header)

/-- mirrors wstunnel/src/config.rs:756-766 -/
def parseHttpCredentials (arg : String) : Except String Bytes :=
  let encoded := Base64.encode (Utf8.encode (Str.trim arg).toList)
  match headerValue ("Basic " ++ String.ofList encoded) with
  | none => .error ("cannot parse http credentials " ++ arg)
  | some header => .ok header

/-- `splitBind` with its slice and its unwrapped address.
mirrors wstunnel/src/config.rs:468-491 -/
def splitBindChecked (arg : List Char) : Call (Except String (IpAddr × List Char)) :=
  match arg with
  | '[' :: _ => match splitOnce [']'] arg with
    | none => return .error ("cannot parse IPv6 bind from " ++ String.ofList arg)
    | some (ipv6Str, remaining) => do
      match ipv6FromStr (← Call.unwrap (sliceFrom ipv6Str 1)) with
      | none => return .error ("cannot parse IPv6 bind from " ++ String.ofList ipv6Str)
      | some ipv6Addr => return .ok (.v6 ipv6Addr, remaining)
  | _ =>
    let (ipv4Str, remaining) := (splitOnce [':'] arg).getD (arg, [])
    match ipv4FromStr ipv4Str with
    | none => return .ok (.v4 (← Call.unwrap (ipv4FromStr "127.0.0.1".toList)), arg)
    | some ipv4Addr => return .ok (.v4 ipv4Addr, remaining)

/-- mirrors wstunnel/src/config.rs:465-504 -/
def parseLocalBindChecked (arg : List Char) : Call (Except String (SocketAddr × List Char)) := do
  match ← splitBindChecked arg with
  | .error e => return .error e
  | .ok (bind, remaining) =>
    let (portStr, remaining) := splitPort (remaining.dropWhile (· = ':'))
    match parseUnsigned 16 portStr with
    | none => return .error ("cannot parse bind port from " ++ String.ofList portStr)
    | some bindPort => return .ok (⟨bind, UInt16.ofNat bindPort⟩, remaining)

variable (C : Crates)

/-- A bind address, and what becomes of the rest. -/
def withLocalBind (tunnelInfo : List Char) (rest : SocketAddr → List Char → Except String LocalToRemote) :
    Call (Except String LocalToRemote) := do
  match ← parseLocalBindChecked tunnelInfo with
  | .error e => return .error e
  | .ok (localBind, remaining) => return rest localBind remaining

/-- A destination behind a bind address. -/
def destBehind (localProtocol : Options → LocalProtocol) (dest : List Char → List Char) (localBind : SocketAddr)
    (remaining : List Char) : Except String LocalToRemote := do
  let (destHost, destPort, options) ← parseTunnelDest C (dest remaining)
  return ⟨localProtocol options, localBind, destHost, destPort⟩

/-- The kinds that bind an address slice and unwrap to read it; the others do
neither. mirrors wstunnel/src/config.rs:541-691 -/
def parseTunnelArgChecked (arg : String) : Call (Except String LocalToRemote) :=
  let placeholder := ("0.0.0.0:0?".toList ++ ·)
  match splitOnce "://".toList arg.toList with
  | none => return parseTunnelArg C arg
  | some (proto, tunnelInfo) => match String.ofList proto with
    | "tcp" => withLocalBind tunnelInfo (destBehind C (fun options => .tcp (getProxyProtocol options)) id)
    | "udp" => withLocalBind tunnelInfo (destBehind C (fun options => .udp (getTimeout options)) id)
    | "http" => withLocalBind tunnelInfo (destBehind C (fun options =>
      .httpProxy (getTimeout options) (getCredentials options) (getProxyProtocol options)) placeholder)
    | "socks5" => withLocalBind tunnelInfo (destBehind C (fun options =>
      .socks5 (getTimeout options) (getCredentials options)) placeholder)
    | "tproxy+tcp" => withLocalBind tunnelInfo (destBehind C (fun _ => .tproxyTcp) placeholder)
    | "tproxy+udp" => withLocalBind tunnelInfo (destBehind C (fun options => .tproxyUdp (getTimeout options)) placeholder)
    | _ => return parseTunnelArg C arg

/-- mirrors wstunnel/src/config.rs:693-726 -/
def parseReverseTunnelArgChecked (arg : String) : Call (Except String LocalToRemote) := do
  match ← parseTunnelArgChecked C arg with
  | .error e => return .error e
  | .ok proto => match toReverse proto.localProtocol with
    | .error debug => return .error ("Cannot use " ++ debug ++ " as reverse tunnels " ++ arg)
    | .ok localProtocol => return .ok { proto with localProtocol }

/-! ## Durations -/

/-- The seconds that a suffix stands for. -/
def unitOf : Char → Option Nat
  | 's' => some 1
  | 'm' => some 60
  | 'h' => some 3600
  | _ => none

/-- The number of a duration, and its unit. -/
def durationParts (arg : List Char) : List Char × Nat :=
  match arg.getLast?.bind unitOf with
  | some unit => (arg.dropLast, unit)
  | none => (arg, 1)

/-- The seconds that are written. -/
def writtenSeconds (arg : List Char) : Option Nat :=
  (parseUnsigned 64 (durationParts arg).1).map (· * (durationParts arg).2)

theorem durationParts_concat (init : List Char) (c : Char) :
    durationParts (init ++ [c]) = match unitOf c with
      | some unit => (init, unit)
      | none => (init ++ [c], 1) := by
  rw [durationParts, List.getLast?_concat, Option.bind_some, List.dropLast_concat]

theorem sub64_byteLen_concat (overflowChecks : Bool) (init : List Char) {c : Char} (hc : c.utf8Size = 1) :
    sub64 overflowChecks (byteLen (init ++ [c])) 1 = .returns (byteLen init) := by
  have hlen : byteLen (init ++ [c]) = byteLen init + 1 := by
    rw [byteLen_append, byteLen_cons, hc]
    rfl
  rw [sub64, hlen, if_pos (by omega), Nat.add_sub_cancel]

/-- A last character of one byte can be cut off. -/
theorem parseDurationSec_concat {overflowChecks : Bool} {arg : String} {init : List Char} {c : Char}
    (harg : arg.toList = init ++ [c]) (hc : c.utf8Size = 1) :
    parseDurationSec overflowChecks arg =
      match parseUnsigned 64 (durationParts arg.toList).1 with
      | none => .returns (.error ("cannot parse duration of seconds from " ++
          String.ofList (durationParts arg.toList).1))
      | some secs => mul64 overflowChecks secs (durationParts arg.toList).2 >>= fun n => .returns (.ok (n * oneSecond)) := by
  have hsub : sub64 overflowChecks (byteLen arg.toList) 1 = .returns (byteLen init) :=
    harg ▸ sub64_byteLen_concat overflowChecks init hc
  have hlast : sliceFrom arg.toList (byteLen init) = some [c] := harg ▸ sliceFrom_append init [c]
  have hcut : sliceTo arg.toList (byteLen init) = some init := harg ▸ sliceTo_append init [c]
  simp only [parseDurationSec, hsub, Call.returns_bind, Nat.zero_max, hlast, hcut, Call.unwrap_some, Call.pure_eq]
  rw [harg, durationParts_concat]
  by_cases hs : c = 's'
  · subst hs
    rfl
  by_cases hm : c = 'm'
  · subst hm
    rfl
  by_cases hh : c = 'h'
  · subst hh
    rfl
  have hunit : unitOf c = none := by
    unfold unitOf
    split <;> simp_all
  have hother (unit : Char) (hne : c ≠ unit) : String.ofList [c] ≠ String.ofList [unit] := fun he =>
    hne (by simpa using congrArg String.toList he)
  rw [hunit]
  split
  · rename_i he
    exact absurd he (hother 's' hs)
  · rename_i he
    exact absurd he (hother 'm' hm)
  · rename_i he
    exact absurd he (hother 'h' hh)
  · rfl

/-- An empty text, and a last character of several bytes. -/
theorem parseDurationSec_panics {overflowChecks : Bool} {arg : String}
    (h : ∀ c, arg.toList.getLast? = some c → c.utf8Size ≠ 1) : parseDurationSec overflowChecks arg = .panics := by
  obtain hnil | ⟨init, c, harg⟩ := List.eq_nil_or_concat' arg.toList
  · cases overflowChecks with
    | true => simp [parseDurationSec, hnil, byteLen, sub64]
    | false =>
      -- the offset wraps around, far past the end
      simp [parseDurationSec, hnil, byteLen, sub64, sliceFrom]
  · have hsize : 1 < c.utf8Size := by
      have hpos := c.utf8Size_pos
      have hne := h c (by rw [harg, List.getLast?_concat])
      omega
    have hlen : byteLen arg.toList = byteLen init + c.utf8Size := by
      rw [harg, byteLen_append, byteLen_cons]
      rfl
    have hsub : sub64 overflowChecks (byteLen arg.toList) 1 = .returns (byteLen init + (c.utf8Size - 1)) := by
      rw [sub64, hlen, if_pos (by omega), Nat.add_sub_assoc (by omega)]
    have hslice : sliceFrom arg.toList (byteLen init + (c.utf8Size - 1)) = none :=
      harg ▸ sliceFrom_inside init [] (by omega) (by omega)
    simp only [parseDurationSec, hsub, Call.returns_bind, Nat.zero_max, hslice, Call.unwrap_none, Call.panics_bind]

theorem parseDurationSec_total_iff (overflowChecks : Bool) (arg : String) :
    (∃ r, parseDurationSec overflowChecks arg = .returns r ∧
        ∀ d, r = .ok d → (writtenSeconds arg.toList).map (· * oneSecond) = some d) ↔
      (∃ c, arg.toList.getLast? = some c ∧ c.utf8Size = 1) ∧
        ∀ n, writtenSeconds arg.toList = some n → n < 2 ^ 64 := by
  by_cases hlast : ∃ c, arg.toList.getLast? = some c ∧ c.utf8Size = 1
  · obtain ⟨c, hc, hsize⟩ := hlast
    obtain ⟨init, harg⟩ := List.getLast?_eq_some_iff.mp hc
    rw [parseDurationSec_concat harg hsize, writtenSeconds]
    cases parseUnsigned 64 (durationParts arg.toList).1 with
    | none => simp [hc, hsize]
    | some secs =>
      have hsecond : 0 < oneSecond := by decide
      simp only [Option.map_some, Option.some.injEq, forall_eq', ← mul64_eq_iff overflowChecks, hc, hsize,
        exists_eq_left', true_and]
      cases mul64 overflowChecks secs (durationParts arg.toList).2 with
      | panics => simp
      | returns n =>
        simp only [Call.returns_bind, Call.returns.injEq, exists_eq_left', Except.ok.injEq, forall_eq']
        exact ⟨fun h => (Nat.eq_of_mul_eq_mul_right hsecond h).symm, fun h => by rw [h]⟩
  · rw [parseDurationSec_panics fun c hc hsize => hlast ⟨c, hc, hsize⟩]
    simp [hlast]

/-! ## Headers and credentials -/

/-- **A header is read without a panic** exactly when its name is a legal one,
or there is an error about something else. -/
theorem returns_parseHttpHeaders_iff (arg : String) : (parseHttpHeaders arg).Returns ↔
    ∀ key value, splitOnce [':'] arg.toList = some (key, value) →
      (headerValue (Str.trim (String.ofList value))).isSome = true → (headerName (String.ofList key)).isSome = true := by
  unfold parseHttpHeaders
  split
  · rename_i hnone
    exact iff_of_true ⟨_, rfl⟩ fun key value h => by rw [hnone] at h; cases h
  · rename_i key value hsome
    have hone {P : List Char → List Char → Prop} :
        (∀ k v, splitOnce [':'] arg.toList = some (k, v) → P k v) ↔ P key value :=
      ⟨fun h => h key value hsome, fun h k v he => by rw [hsome] at he; cases he; exact h⟩
    rw [hone]
    cases headerValue (Str.trim (String.ofList value)) with
    | none => exact iff_of_true ⟨_, rfl⟩ fun h => by cases h
    | some header =>
      refine (Call.returns_map_iff (c := Call.unwrap (headerName (String.ofList key)))
        fun name => Except.ok (name, header)).trans ?_
      rw [Call.returns_unwrap_iff]
      simp

theorem visible_basic (bs : List UInt8) : Visible ("Basic " ++ String.ofList (Base64.encode bs)) := by
  have hdigit : ∀ n < 64, 32 ≤ (Base64.digit n).toNat ∧ (Base64.digit n).toNat < 127 := by decide
  intro c hc
  rw [String.toList_append] at hc
  rcases List.mem_append.mp hc with hc | hc
  · exact (by decide : Visible "Basic ") c hc
  · rw [String.toList_ofList] at hc
    rcases Base64.mem_encode hc with rfl | ⟨n, hn, rfl⟩
    · decide
    · exact hdigit n hn

/-- **Credentials never fail**: Base64 behind the scheme is a legal value. -/
theorem parseHttpCredentials_eq_ok (arg : String) : parseHttpCredentials arg =
    .ok (Utf8.encode ("Basic " ++ String.ofList (Base64.encode (Utf8.encode (Str.trim arg).toList))).toList) := by
  simp only [parseHttpCredentials, headerValue_of_visible (visible_basic _)]

/-! ## Tunnels -/

theorem splitBindChecked_eq (arg : List Char) : splitBindChecked arg = .returns (splitBind arg) := by
  unfold splitBindChecked splitBind
  split
  · rename_i cs
    cases hsplit : splitOnce [']'] ('[' :: cs) with
    | none => rfl
    | some p =>
      obtain ⟨ipv6Str, remaining⟩ := p
      obtain ⟨happend, -⟩ := splitOnce_eq_some hsplit
      -- the text in front of `]` begins with `[`
      cases ipv6Str with
      | nil => cases happend
      | cons c ipv6Str =>
        cases happend
        have hslice : sliceFrom ('[' :: ipv6Str) 1 = some ipv6Str :=
          (sliceFrom_cons '[' ipv6Str 0).trans (sliceFrom_append [] ipv6Str)
        simp only [hslice, Call.unwrap_some, Call.returns_bind, List.tail_cons]
        cases ipv6FromStr ipv6Str <;> rfl
  · rename_i hne
    simp only
    cases ipv4FromStr ((splitOnce [':'] arg).getD (arg, [])).1 with
    | none =>
      rw [show ipv4FromStr "127.0.0.1".toList = some 0x7F000001 by decide]
      rfl
    | some ip => rfl

theorem parseLocalBindChecked_eq (arg : List Char) : parseLocalBindChecked arg = .returns (parseLocalBind arg) := by
  rw [parseLocalBindChecked, splitBindChecked_eq, Call.returns_bind, parseLocalBind]
  cases splitBind arg with
  | error e => rfl
  | ok p =>
    simp only [bind, Except.bind]
    cases parseUnsigned 16 (splitPort (p.2.dropWhile (· = ':'))).1 <;> rfl

variable {C}

theorem withLocalBind_eq (tunnelInfo : List Char) (rest : SocketAddr → List Char → Except String LocalToRemote) :
    withLocalBind tunnelInfo rest = .returns (parseLocalBind tunnelInfo >>= fun p => rest p.1 p.2) := by
  rw [withLocalBind, parseLocalBindChecked_eq, Call.returns_bind]
  cases parseLocalBind tunnelInfo <;> rfl

theorem parseTunnelArgChecked_eq (arg : String) : parseTunnelArgChecked C arg = .returns (parseTunnelArg C arg) := by
  unfold parseTunnelArgChecked
  cases hsplit : splitOnce "://".toList arg.toList with
  | none => rfl
  | some p =>
    obtain ⟨proto, tunnelInfo⟩ := p
    simp only [withLocalBind_eq]
    split
    case h_7 => rfl
    all_goals
      rename_i hproto
      rw [parseTunnelArg, hsplit]
      simp only [hproto]
      rfl

theorem parseReverseTunnelArgChecked_eq (arg : String) :
    parseReverseTunnelArgChecked C arg = .returns (parseReverseTunnelArg C arg) := by
  rw [parseReverseTunnelArgChecked, parseTunnelArgChecked_eq, Call.returns_bind, parseReverseTunnelArg]
  cases parseTunnelArg C arg with
  | error e => rfl
  | ok proto =>
    simp only [bind, Except.bind]
    cases toReverse proto.localProtocol <;> rfl

/-- **Which texts the parsers take without a panic**, and which durations are
exact, with and without overflow checks. -/
theorem valueParsers_total_iff (overflowChecks : Bool) (C : Crates) (arg : String) :
    ((∃ r, parseDurationSec overflowChecks arg = .returns r ∧
        ∀ d, r = .ok d → (writtenSeconds arg.toList).map (· * oneSecond) = some d) ↔
      (∃ c, arg.toList.getLast? = some c ∧ c.utf8Size = 1) ∧
        ∀ n, writtenSeconds arg.toList = some n → n < 2 ^ 64) ∧
    ((parseHttpHeaders arg).Returns ↔ ∀ key value, splitOnce [':'] arg.toList = some (key, value) →
      (headerValue (Str.trim (String.ofList value))).isSome = true → (headerName (String.ofList key)).isSome = true) ∧
    (parseTunnelArgChecked C arg).Returns ∧ (parseReverseTunnelArgChecked C arg).Returns ∧
    ∃ header, parseHttpCredentials arg = .ok header :=
  ⟨parseDurationSec_total_iff overflowChecks arg, returns_parseHttpHeaders_iff arg, ⟨_, parseTunnelArgChecked_eq arg⟩,
    ⟨_, parseReverseTunnelArgChecked_eq arg⟩, ⟨_, parseHttpCredentials_eq_ok arg⟩⟩

/-- An empty duration, one that ends in `é`, one of too many minutes, and a
header name with a blank. -/
theorem valueParsers_panic :
    (parseDurationSec true "" = .panics ∧ parseDurationSec false "" = .panics) ∧
    (parseDurationSec true "5é" = .panics ∧ parseDurationSec false "5é" = .panics) ∧
    parseDurationSec true "18446744073709551615m" = .panics ∧
    parseDurationSec false "18446744073709551615m" = .returns (.ok (18446744073709551556 * oneSecond)) ∧
    parseHttpHeaders "X Y:z" = .panics := by
  decide +kernel

end Wstunnel.L3
