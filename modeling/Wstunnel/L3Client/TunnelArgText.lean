import Wstunnel.L3Client.TunnelDest

/-!
# Tunnel arguments, written and read

The documented syntax is `proto://[bind:]port:host:port?options`, without a
destination for the proxies, without a bind address for `stdio`, and with a
path in its place for `unix`. `render` writes a tunnel in it; the bind address
and a timeout of 30 seconds, which are the defaults, may be left out.

**Third-party code.** `Crates.FollowsStandard` is assumed of the `url` crate,
as in `TunnelDest`, and of IDNA that it gives no name with a forbidden
character (`DeniesForbidden`), which the crate checks.

**Results.**
* `parseLocalBind_bindText`: the bind address is read back, and is 127.0.0.1
  when it is left out.
* `parseTunnelArg_render`: so is all of the tunnel, and
  `parse_reverse_tunnel_arg` gives its reverse protocol.
-/
namespace Wstunnel.L3

open Wstunnel.L1 Wstunnel.Str

/-! ## Writing -/

/-- What to leave out. -/
structure ArgStyle where
  showBind : Bool
  showDefaultTimeout : Bool

def ipText : IpAddr → List Char
  | .v4 ip => (ipv4Text ip).toList
  | .v6 ip => '[' :: ((ipv6Text ip).toList ++ [']'])

def portText (port : UInt16) : List Char := Nat.toDigits 10 port.toNat

/-- `[bind:]port` -/
def bindText (style : ArgStyle) (addr : SocketAddr) : List Char :=
  (if style.showBind then ipText addr.ip ++ [':'] else []) ++ portText addr.port

/-- `host:port` -/
def destText (dest : Host × UInt16) : List Char := dest.1.display.toList ++ ':' :: portText dest.2

/-- No timeout is written as one of 0 seconds. -/
def timeoutOption (style : ArgStyle) (timeout : Option Duration) : List (String × Option String) :=
  if timeout = some (30 * oneSecond) ∧ style.showDefaultTimeout = false then []
  else [("timeout_sec", some (toString (timeout.getD 0 / oneSecond)))]

def credentialsOptions : Option Credentials → List (String × Option String)
  | none => []
  | some (login, password) => [("login", some login), ("password", some password)]

def proxyProtocolOption (proxyProtocol : Bool) : List (String × Option String) :=
  if proxyProtocol then [("proxy_protocol", none)] else []

def argOptions (style : ArgStyle) : LocalProtocol → List (String × Option String)
  | .tcp proxyProtocol | .stdio proxyProtocol | .unix _ proxyProtocol => proxyProtocolOption proxyProtocol
  | .udp timeout | .tproxyUdp timeout => timeoutOption style timeout
  | .socks5 timeout credentials => timeoutOption style timeout ++ credentialsOptions credentials
  | .httpProxy timeout credentials proxyProtocol =>
    timeoutOption style timeout ++ credentialsOptions credentials ++ proxyProtocolOption proxyProtocol
  | _ => []

/-- `?options`, or nothing. -/
def optionsText (options : List (String × Option String)) : List Char :=
  querySuffix (if options = [] then none else some (queryText options))

/-- The scheme, and what stands behind `://`. -/
def argParts (style : ArgStyle) (t : LocalToRemote) : String × List Char :=
  let bind := bindText style t.localAddr
  let dest := destText t.remote
  let options := optionsText (argOptions style t.localProtocol)
  match t.localProtocol with
  | .tcp _ => ("tcp", bind ++ ':' :: (dest ++ options))
  | .udp _ => ("udp", bind ++ ':' :: (dest ++ options))
  | .socks5 _ _ => ("socks5", bind ++ options)
  | .httpProxy _ _ _ => ("http", bind ++ options)
  | .unix path _ => ("unix", path.text.toList ++ ':' :: (dest ++ options))
  | .stdio _ => ("stdio", dest ++ options)
  | .tproxyTcp => ("tproxy+tcp", bind ++ options)
  | .tproxyUdp _ => ("tproxy+udp", bind ++ options)
  | _ => ("", [])

/-- A tunnel in the documented syntax. -/
def render (style : ArgStyle) (t : LocalToRemote) : String :=
  (argParts style t).1 ++ "://" ++ String.ofList (argParts style t).2

/-! ## Reading the bind address -/

/-- What may follow the port of a bind address. -/
def BindEnd (behind : List Char) : Prop := behind = [] ∨ ∃ c rest, behind = c :: rest ∧ (c = ':' ∨ c = '?')

/-- The address that is bound. -/
def boundAddr (style : ArgStyle) (addr : SocketAddr) : SocketAddr :=
  if style.showBind then addr else ⟨.v4 0x7F000001, addr.port⟩

theorem isDigit_of_mem_portText {port : UInt16} {c : Char} (h : c ∈ portText port) : c.isDigit = true :=
  isDigit_of_mem_decimal h

theorem ne_of_mem_portText {port : UInt16} {c : Char} (h : c ∈ portText port) : c ≠ '[' ∧ c ≠ ':' ∧ c ≠ '?' := by
  have hdigit := isDigit_of_mem_portText h
  refine ⟨?_, ?_, ?_⟩ <;> rintro rfl <;> exact absurd hdigit (by decide)

theorem exists_portText (port : UInt16) : ∃ c cs, portText port = c :: cs :=
  List.exists_cons_of_ne_nil Nat.toDigits_ne_nil

theorem splitPort_portText (port : UInt16) {behind : List Char} (h : BindEnd behind) :
    splitPort (portText port ++ behind) = (portText port, behind.tail) := by
  have hpass : ∀ c ∈ portText port, (c ≠ ':' && c ≠ '?') = true := fun c hc => by
    simp [ne_of_mem_portText hc]
  rw [splitPort, List.takeWhile_append_of_pos hpass, List.dropWhile_append_of_pos hpass]
  rcases h with rfl | ⟨c, rest, rfl, rfl | rfl⟩ <;> simp

/-- Behind the bind address: colons, and the port. -/
theorem parseLocalBind_of_splitBind {arg behind : List Char} (colons : List Char) {ip : IpAddr} {port : UInt16}
    (h : splitBind arg = .ok (ip, colons ++ (portText port ++ behind))) (hcolons : ∀ c ∈ colons, c = ':')
    (hbehind : BindEnd behind) : parseLocalBind arg = .ok (⟨ip, port⟩, behind.tail) := by
  have hdrop : (colons ++ (portText port ++ behind)).dropWhile (· = ':') = portText port ++ behind := by
    rw [List.dropWhile_append_of_pos fun c hc => decide_eq_true (hcolons c hc)]
    obtain ⟨c, cs, hport⟩ := exists_portText port
    have hc : c ≠ ':' := (ne_of_mem_portText (hport ▸ List.mem_cons_self : c ∈ portText port)).2.1
    rw [hport, List.cons_append, List.dropWhile_cons_of_neg (by simpa using hc)]
  have hparse : parseUnsigned 16 (portText port) = some port.toNat := parseUnsigned_toDigits port.toNat_lt
  simp only [parseLocalBind, h, bind, Except.bind, hdrop, splitPort_portText port hbehind, hparse,
    UInt16.ofNat_toNat]

theorem splitBind_of_ne {arg : List Char} (h : arg.head? ≠ some '[') :
    splitBind arg = match ipv4FromStr ((splitOnce [':'] arg).getD (arg, [])).1 with
      | none => .ok (.v4 0x7F000001, arg)
      | some ip => .ok (.v4 ip, ((splitOnce [':'] arg).getD (arg, [])).2) := by
  unfold splitBind
  split
  · exact absurd rfl h
  · rfl

theorem splitBind_v4 (ip : Ipv4Addr) (rest : List Char) :
    splitBind ((ipv4Text ip).toList ++ ':' :: rest) = .ok (.v4 ip, rest) := by
  have hchars {c : Char} (hc : c ∈ (ipv4Text ip).toList) : c ≠ '[' ∧ c ≠ ':' := by
    refine ⟨?_, ?_⟩ <;> rintro rfl <;> exact absurd (mem_ipv4Text hc) (by decide)
  rw [splitBind_of_ne, splitOnce_append fun hc => (hchars hc).2 rfl]
  · simp only [Option.getD_some, ipv4FromStr_ipv4Text]
  · cases htext : (ipv4Text ip).toList with
    | nil => simp
    | cons c cs =>
      have hc := (hchars (htext ▸ List.mem_cons_self : c ∈ (ipv4Text ip).toList)).1
      simpa using hc

theorem splitBind_v6 (ip : Ipv6Addr) (rest : List Char) :
    splitBind ('[' :: ((ipv6Text ip).toList ++ [']']) ++ rest) = .ok (.v6 ip, rest) := by
  have hbracket : ']' ∉ '[' :: (ipv6Text ip).toList := by
    rw [List.mem_cons, not_or]
    exact ⟨by decide, fun h => (isAddrChar_authority (isAddrChar_of_mem_ipv6Text h)).2.2 rfl⟩
  have htext : '[' :: ((ipv6Text ip).toList ++ [']']) ++ rest = '[' :: (ipv6Text ip).toList ++ ']' :: rest := by simp
  rw [htext, List.cons_append, splitBind, ← List.cons_append, splitOnce_append hbracket]
  simp only [List.tail_cons, ipv6FromStr_ipv6Text]

/-- A number without a dot behind it is no address. -/
theorem ipv4FromStr_portText (port : UInt16) {rest : List Char} (h : BindEnd rest) :
    ipv4FromStr (portText port ++ rest) = none := by
  have hdigits : NoDigit 10 rest := by
    rcases h with rfl | ⟨c, rest, rfl, rfl | rfl⟩ <;> intro d ds he <;> cases he <;> decide
  obtain ⟨ds, hread, -⟩ := readDigits_append (digitsVal_toDigits (by decide) (by decide) port.toNat) hdigits
  rw [ipv4FromStr, readIpv4Addr_eq_none]
  intro cs hcs
  rw [portText, hread] at hcs
  rcases h with rfl | ⟨c, rest, rfl, rfl | rfl⟩ <;> cases hcs

/-- What is in front of a colon begins as the whole does. -/
theorem BindEnd.of_splitOnce {behind : List Char} (h : BindEnd behind) {p : List Char × List Char}
    (hs : splitOnce [':'] behind = some p) : BindEnd p.1 := by
  obtain ⟨hp, -⟩ := splitOnce_eq_some hs
  cases hl : p.1 with
  | nil => exact .inl rfl
  | cons d ds =>
    rw [hl] at hp
    rcases h with rfl | ⟨c, rest, rfl, hc⟩
    · cases hp
    · cases hp
      exact .inr ⟨d, ds, rfl, hc⟩

/-- A port is no bind address. -/
theorem splitBind_portText (port : UInt16) {behind : List Char} (h : BindEnd behind) :
    splitBind (portText port ++ behind) = .ok (.v4 0x7F000001, portText port ++ behind) := by
  obtain ⟨c, cs, hport⟩ := exists_portText port
  have hhead : (portText port ++ behind).head? ≠ some '[' := by
    have hc := (ne_of_mem_portText (hport ▸ List.mem_cons_self : c ∈ portText port)).1
    rw [hport]
    simpa using hc
  have hcolon : ':' ∉ portText port := fun hc => (ne_of_mem_portText hc).2.1 rfl
  have hfirst : ∃ rest, BindEnd rest ∧
      ((splitOnce [':'] (portText port ++ behind)).getD (portText port ++ behind, [])).1 = portText port ++ rest := by
    rw [splitOnce_append_of_not_mem hcolon]
    cases hs : splitOnce [':'] behind with
    | none => exact ⟨behind, h, rfl⟩
    | some p => exact ⟨p.1, h.of_splitOnce hs, rfl⟩
  obtain ⟨rest, hrest, hfirst⟩ := hfirst
  rw [splitBind_of_ne hhead, hfirst, ipv4FromStr_portText port hrest]

theorem parseLocalBind_bindText (style : ArgStyle) (addr : SocketAddr) {behind : List Char} (h : BindEnd behind) :
    parseLocalBind (bindText style addr ++ behind) = .ok (boundAddr style addr, behind.tail) := by
  unfold bindText boundAddr
  cases style.showBind with
  | false => exact parseLocalBind_of_splitBind [] (splitBind_portText addr.port h) (by simp) h
  | true =>
    obtain ⟨ip | ip, port⟩ := addr
    · refine parseLocalBind_of_splitBind [] ?_ (by simp) h
      simp only [if_true, ipText, List.append_assoc]
      exact splitBind_v4 ip _
    · refine parseLocalBind_of_splitBind [':'] ?_ (by simp) h
      simp only [if_true, ipText, List.append_assoc]
      exact splitBind_v6 ip _

/-! ## Reading the destination and the options -/

variable {C : Crates} {uts46 : List UInt8 → Option (List Char)}

/-- The options as they are read: a name alone has the empty value. -/
def readOptions (options : List (String × Option String)) : Options := options.map fun o => (o.1, o.2.getD "")

theorem optionPairs_queryText {options : List (String × Option String)} (h : ∀ o ∈ options, o.1 ≠ "") :
    optionPairs (queryText options) = readOptions options := by
  have hchars (c : Char) (hc : c ∈ queryText options) : c ≠ '#' ∧ 0x20 < c.toNat :=
    have hrange := toNat_of_mem_queryText hc
    ⟨hrange.2.2, hrange.1⟩
  rw [optionPairs_eq hchars, encode_queryText, formParse_formQuery h]
  rfl

theorem optionPairs_optionsText {options : List (String × Option String)} (h : ∀ o ∈ options, o.1 ≠ "") :
    optionPairs (optionsText options).tail = readOptions options := by
  unfold optionsText
  split
  · rename_i hnil
    rw [hnil]
    rfl
  · exact optionPairs_queryText h

theorem bindEnd_optionsText (options : List (String × Option String)) : BindEnd (optionsText options) := by
  unfold optionsText
  split
  · exact .inl rfl
  · exact .inr ⟨'?', _, rfl, .inr rfl⟩

variable (hurl : C.FollowsStandard uts46) (huts : DeniesForbidden uts46)

variable {options : List (String × Option String)} (hoptions : ∀ o ∈ options, o.1 ≠ "")

include hurl huts hoptions in
theorem parseTunnelDest_destText {dest : Host × UInt16} (hdest : dest.1.Canonical uts46) :
    parseTunnelDest C (destText dest ++ optionsText options) =
      .ok (dest.1, dest.2, readOptions options) := by
  have hhost : hostParse uts46 (String.ofList dest.1.display.toList) = some dest.1 := by
    rw [String.ofList_toList]
    exact hostParse_display hdest
  have hpairs : ((if options = [] then none else some (queryText options)).map optionPairs).getD [] =
      readOptions options := by
    split
    · rename_i hnil
      rw [hnil]
      rfl
    · exact optionPairs_queryText hoptions
  rw [← hpairs]
  exact parseTunnelDest_text hurl (authorityHost_display huts hdest) hhost dest.2 _

include hurl huts hoptions in
theorem parseBindDest_text (style : ArgStyle) (addr : SocketAddr) {dest : Host × UInt16}
    (hdest : dest.1.Canonical uts46) (localProtocol : Options → LocalProtocol) :
    parseBindDest C (bindText style addr ++ ':' :: (destText dest ++ optionsText options))
      localProtocol = .ok ⟨localProtocol (readOptions options), boundAddr style addr, dest⟩ := by
  have hend : BindEnd (':' :: (destText dest ++ optionsText options)) := .inr ⟨':', _, rfl, .inl rfl⟩
  simp only [parseBindDest, parseLocalBind_bindText style addr hend, bind, Except.bind, List.tail_cons,
    parseTunnelDest_destText hurl huts hoptions hdest]
  rfl

include hurl hoptions in
theorem parseBindOnly_text (style : ArgStyle) (addr : SocketAddr) (localProtocol : Options → LocalProtocol) :
    parseBindOnly C (bindText style addr ++ optionsText options) localProtocol =
      .ok ⟨localProtocol (readOptions options), boundAddr style addr, .ipv4 0, 0⟩ := by
  rw [parseBindOnly_eq hurl, parseLocalBind_bindText style addr (bindEnd_optionsText options)]
  simp only [Except.map, optionPairs_optionsText hoptions]

/-! ## The values of the options -/

/-- No timeout, or a positive number of seconds that fits into 64 bits. -/
def WholeSeconds (timeout : Option Duration) : Prop :=
  ∀ d, timeout = some d → ∃ n, 0 < n ∧ n < 2 ^ 64 ∧ d = n * oneSecond

/-- The number of seconds fits, and stands for the timeout, as zero for none. -/
theorem WholeSeconds.seconds {timeout : Option Duration} (h : WholeSeconds timeout) :
    timeout.getD 0 / oneSecond < 2 ^ 64 ∧
      (if timeout.getD 0 / oneSecond = 0 then none else some (timeout.getD 0 / oneSecond * oneSecond)) = timeout := by
  cases timeout with
  | none => exact ⟨by decide, rfl⟩
  | some timeout =>
    obtain ⟨n, hpos, hlt, rfl⟩ := h timeout rfl
    rw [Option.getD_some, Nat.mul_div_cancel n (by decide : 0 < oneSecond), if_neg (Nat.ne_of_gt hpos)]
    exact ⟨hlt, rfl⟩

section Values

variable (style : ArgStyle) (timeout : Option Duration) (credentials : Option Credentials) (proxyProtocol : Bool)

/-- The options of a proxy; the other kinds have fewer. -/
def proxyOptions : List (String × Option String) :=
  timeoutOption style timeout ++ credentialsOptions credentials ++ proxyProtocolOption proxyProtocol

theorem proxyOptions_name : ∀ o ∈ proxyOptions style timeout credentials proxyProtocol, o.1 ≠ "" := by
  unfold proxyOptions timeoutOption
  rcases credentials with _ | ⟨login, password⟩ <;> cases proxyProtocol <;> split <;>
    simp [credentialsOptions, proxyProtocolOption]

theorem getProxyProtocol_proxyOptions :
    getProxyProtocol (readOptions (proxyOptions style timeout credentials proxyProtocol)) = proxyProtocol := by
  unfold proxyOptions timeoutOption
  rcases credentials with _ | ⟨login, password⟩ <;> cases proxyProtocol <;> split <;>
    simp [credentialsOptions, proxyProtocolOption, readOptions, getProxyProtocol, Options.get, List.lookup_cons]

theorem getCredentials_proxyOptions :
    getCredentials (readOptions (proxyOptions style timeout credentials proxyProtocol)) = credentials := by
  unfold proxyOptions timeoutOption
  rcases credentials with _ | ⟨login, password⟩ <;> cases proxyProtocol <;> split <;>
    simp [credentialsOptions, proxyProtocolOption, readOptions, getCredentials, Options.get, List.lookup_cons]

theorem get_timeout_proxyOptions :
    Options.get (readOptions (proxyOptions style timeout credentials proxyProtocol)) "timeout_sec" =
      if timeout = some (30 * oneSecond) ∧ style.showDefaultTimeout = false then none
      else some (toString (timeout.getD 0 / oneSecond)) := by
  unfold proxyOptions timeoutOption
  rcases credentials with _ | ⟨login, password⟩ <;> cases proxyProtocol <;> split <;>
    simp [credentialsOptions, proxyProtocolOption, readOptions, Options.get, List.lookup_cons]

theorem getTimeout_proxyOptions (h : WholeSeconds timeout) :
    getTimeout (readOptions (proxyOptions style timeout credentials proxyProtocol)) = timeout := by
  obtain ⟨hlt, hseconds⟩ := h.seconds
  rw [getTimeout, get_timeout_proxyOptions]
  by_cases hdefault : timeout = some (30 * oneSecond) ∧ style.showDefaultTimeout = false
  · rw [if_pos hdefault, hdefault.1]
    rfl
  · have hparse : parseUnsigned 64 (toString (timeout.getD 0 / oneSecond)).toList =
        some (timeout.getD 0 / oneSecond) := by
      rw [Nat.toString_eq_ofList_toDigits, String.toList_ofList]
      exact parseUnsigned_toDigits hlt
    rw [if_neg hdefault, Option.bind_some, hparse]
    exact hseconds

/-- A flag alone. -/
theorem proxyProtocolOption_eq : proxyProtocolOption proxyProtocol =
    proxyOptions ⟨true, false⟩ (some (30 * oneSecond)) none proxyProtocol := by
  simp [proxyOptions, timeoutOption, credentialsOptions]

/-- A timeout alone. -/
theorem timeoutOption_eq : timeoutOption style timeout = proxyOptions style timeout none false := by
  simp [proxyOptions, credentialsOptions, proxyProtocolOption]

/-- No flag. -/
theorem timeoutOption_append_eq : timeoutOption style timeout ++ credentialsOptions credentials =
    proxyOptions style timeout credentials false := by
  simp [proxyOptions, proxyProtocolOption]

end Values

/-! ## The tunnels of the command line -/

/-- The tunnels that the syntax describes. A kind without a bind address or
without a destination has the parser's placeholder there. -/
inductive Described (uts46 : List UInt8 → Option (List Char)) : LocalToRemote → Prop
  | tcp (proxyProtocol : Bool) (addr : SocketAddr) {dest : Host × UInt16} (hdest : dest.1.Canonical uts46) :
    Described uts46 ⟨.tcp proxyProtocol, addr, dest⟩
  | udp {timeout : Option Duration} (htimeout : WholeSeconds timeout) (addr : SocketAddr) {dest : Host × UInt16}
    (hdest : dest.1.Canonical uts46) : Described uts46 ⟨.udp timeout, addr, dest⟩
  | socks5 {timeout : Option Duration} (htimeout : WholeSeconds timeout) (credentials : Option Credentials)
    (addr : SocketAddr) : Described uts46 ⟨.socks5 timeout credentials, addr, .ipv4 0, 0⟩
  | http {timeout : Option Duration} (htimeout : WholeSeconds timeout) (credentials : Option Credentials)
    (proxyProtocol : Bool) (addr : SocketAddr) :
    Described uts46 ⟨.httpProxy timeout credentials proxyProtocol, addr, .ipv4 0, 0⟩
  | unix {path : PathBuf} (hpath : ':' ∉ path.text.toList) (proxyProtocol : Bool) {dest : Host × UInt16}
    (hdest : dest.1.Canonical uts46) : Described uts46 ⟨.unix path proxyProtocol, ⟨.v6 0, 0⟩, dest⟩
  | stdio (proxyProtocol : Bool) {dest : Host × UInt16} (hdest : dest.1.Canonical uts46) :
    Described uts46 ⟨.stdio proxyProtocol, ⟨.v4 0, 0⟩, dest⟩
  | tproxyTcp (addr : SocketAddr) : Described uts46 ⟨.tproxyTcp, addr, .ipv4 0, 0⟩
  | tproxyUdp {timeout : Option Duration} (htimeout : WholeSeconds timeout) (addr : SocketAddr) :
    Described uts46 ⟨.tproxyUdp timeout, addr, .ipv4 0, 0⟩

/-- The tunnel on 127.0.0.1, if it binds an address at all. -/
def onLocalhost (t : LocalToRemote) : LocalToRemote :=
  match t.localProtocol with
  | .unix _ _ | .stdio _ => t
  | _ => { t with localAddr := ⟨.v4 0x7F000001, t.localAddr.port⟩ }

/-- The tunnel that is read. -/
def bound (style : ArgStyle) (t : LocalToRemote) : LocalToRemote := if style.showBind then t else onLocalhost t

theorem bound_of_eq {style : ArgStyle} {t : LocalToRemote} (h : onLocalhost t = t) : bound style t = t := by
  rw [bound, h, ite_self]

theorem bound_of_addr {style : ArgStyle} {localProtocol : LocalProtocol} {addr : SocketAddr} {dest : Host × UInt16}
    (h : onLocalhost ⟨localProtocol, addr, dest⟩ = ⟨localProtocol, ⟨.v4 0x7F000001, addr.port⟩, dest⟩) :
    bound style ⟨localProtocol, addr, dest⟩ = ⟨localProtocol, boundAddr style addr, dest⟩ := by
  unfold bound boundAddr
  split
  · rfl
  · exact h

theorem splitOnce_render {style : ArgStyle} {t : LocalToRemote} (scheme : String) {info : List Char}
    (h : argParts style t = (scheme, info)) (hscheme : ':' ∉ scheme.toList) :
    splitOnce "://".toList (render style t).toList = some (scheme.toList, info) := by
  have htext : (render style t).toList = scheme.toList ++ ("://".toList ++ info) := by
    rw [render, h, String.toList_append, String.toList_append, List.append_assoc]
    congr 2
    exact String.toList_ofList
  rw [htext]
  exact splitOnce_append_pattern hscheme _

include hurl huts in
theorem parseTunnelArg_eq_bound (style : ArgStyle) {t : LocalToRemote} (h : Described uts46 t) :
    parseTunnelArg C (render style t) = .ok (bound style t) := by
  cases h with
  | tcp proxyProtocol addr hdest =>
    rw [parseTunnelArg, splitOnce_render "tcp" rfl (by decide)]
    show parseBindDest _ (bindText style addr ++ ':' :: (destText _ ++ optionsText (proxyProtocolOption _))) _ = _
    rw [proxyProtocolOption_eq, parseBindDest_text hurl huts (proxyOptions_name _ _ _ _) style addr hdest,
      getProxyProtocol_proxyOptions]
    rw [bound_of_addr rfl]
  | udp htimeout addr hdest =>
    rw [parseTunnelArg, splitOnce_render "udp" rfl (by decide)]
    show parseBindDest _ (bindText style addr ++ ':' :: (destText _ ++ optionsText (timeoutOption style _))) _ = _
    rw [timeoutOption_eq, parseBindDest_text hurl huts (proxyOptions_name _ _ _ _) style addr hdest,
      getTimeout_proxyOptions _ _ _ _ htimeout]
    rw [bound_of_addr rfl]
  | socks5 htimeout credentials addr =>
    rw [parseTunnelArg, splitOnce_render "socks5" rfl (by decide)]
    show parseBindOnly _ (bindText style addr ++ optionsText (timeoutOption style _ ++ credentialsOptions _)) _ = _
    rw [timeoutOption_append_eq, parseBindOnly_text hurl (proxyOptions_name _ _ _ _) style addr,
      getTimeout_proxyOptions _ _ _ _ htimeout, getCredentials_proxyOptions]
    rw [bound_of_addr rfl]
  | http htimeout credentials proxyProtocol addr =>
    rw [parseTunnelArg, splitOnce_render "http" rfl (by decide)]
    show parseBindOnly _ (bindText style addr ++ optionsText (proxyOptions style _ _ _)) _ = _
    rw [parseBindOnly_text hurl (proxyOptions_name _ _ _ _) style addr, getTimeout_proxyOptions _ _ _ _ htimeout,
      getCredentials_proxyOptions, getProxyProtocol_proxyOptions]
    rw [bound_of_addr rfl]
  | unix hpath proxyProtocol hdest =>
    rw [parseTunnelArg, splitOnce_render "unix" rfl (by decide)]
    simp only [String.ofList_toList, splitOnce_append hpath, argOptions]
    rw [proxyProtocolOption_eq]
    simp only [parseTunnelDest_destText hurl huts (proxyOptions_name _ _ _ _) hdest, bind, Except.bind,
      getProxyProtocol_proxyOptions]
    rw [bound_of_eq rfl]
    rfl
  | stdio proxyProtocol hdest =>
    rw [parseTunnelArg, splitOnce_render "stdio" rfl (by decide)]
    show (parseTunnelDest _ (destText _ ++ optionsText (proxyProtocolOption _))).bind _ = _
    rw [proxyProtocolOption_eq, parseTunnelDest_destText hurl huts (proxyOptions_name _ _ _ _) hdest]
    simp only [Except.bind, getProxyProtocol_proxyOptions]
    rw [bound_of_eq rfl]
    rfl
  | tproxyTcp addr =>
    rw [parseTunnelArg, splitOnce_render "tproxy+tcp" rfl (by decide)]
    show parseBindOnly _ (bindText style addr ++ optionsText []) _ = _
    rw [parseBindOnly_text hurl (by simp) style addr]
    rw [bound_of_addr rfl]
  | tproxyUdp htimeout addr =>
    rw [parseTunnelArg, splitOnce_render "tproxy+udp" rfl (by decide)]
    show parseBindOnly _ (bindText style addr ++ optionsText (timeoutOption style _)) _ = _
    rw [timeoutOption_eq, parseBindOnly_text hurl (proxyOptions_name _ _ _ _) style addr,
      getTimeout_proxyOptions _ _ _ _ htimeout]
    rw [bound_of_addr rfl]

/-! ## Reverse tunnels -/

/-- A protocol, and what it is called as a reverse tunnel. -/
inductive ReverseOf : LocalProtocol → LocalProtocol → Prop
  | tcp (proxyProtocol : Bool) : ReverseOf (.tcp proxyProtocol) .reverseTcp
  | udp (timeout : Option Duration) : ReverseOf (.udp timeout) (.reverseUdp timeout)
  | socks5 (timeout : Option Duration) (credentials : Option Credentials) :
    ReverseOf (.socks5 timeout credentials) (.reverseSocks5 timeout credentials)
  | http (timeout : Option Duration) (credentials : Option Credentials) (proxyProtocol : Bool) :
    ReverseOf (.httpProxy timeout credentials proxyProtocol) (.reverseHttpProxy timeout credentials)
  | unix (path : PathBuf) (proxyProtocol : Bool) : ReverseOf (.unix path proxyProtocol) (.reverseUnix path)

theorem toReverse_eq_ok_iff {localProtocol reversed : LocalProtocol} :
    toReverse localProtocol = .ok reversed ↔ ReverseOf localProtocol reversed := by
  refine ⟨fun h => ?_, fun h => ?_⟩
  · cases localProtocol <;> cases h <;> constructor
  · cases h <;> rfl

theorem parseReverseTunnelArg_eq_ok_iff {C : Crates} {arg : String} {t r : LocalToRemote}
    (h : parseTunnelArg C arg = .ok t) : parseReverseTunnelArg C arg = .ok r ↔
      ReverseOf t.localProtocol r.localProtocol ∧ r.localAddr = t.localAddr ∧ r.remote = t.remote := by
  rw [← toReverse_eq_ok_iff]
  refine ⟨fun hr => ?_, ?_⟩
  · obtain ⟨t', ht, hr⟩ := parseReverseTunnelArg_eq_ok hr
    rw [h] at ht
    cases ht
    exact hr
  · rintro ⟨hreverse, haddr, hremote⟩
    obtain ⟨localProtocol, localAddr, remote⟩ := r
    cases haddr
    cases hremote
    rw [parseReverseTunnelArg, h]
    simp only [bind, Except.bind, hreverse]

/-- **A tunnel that is written in the documented syntax is read back**, on
127.0.0.1 when the bind address is left out, and as the reverse tunnel of its
protocol when there is one. -/
theorem parseTunnelArg_render (hurl : C.FollowsStandard uts46) (huts : DeniesForbidden uts46) {t : LocalToRemote}
    (h : Described uts46 t) (style : ArgStyle) :
    parseTunnelArg C (render style t) =
        .ok (if style.showBind then t else onLocalhost t) ∧
      ∀ r, parseReverseTunnelArg C (render style t) = .ok r ↔
        ReverseOf t.localProtocol r.localProtocol ∧
          r.localAddr = (if style.showBind then t else onLocalhost t).localAddr ∧ r.remote = t.remote := by
  have hparse : parseTunnelArg C (render style t) = .ok (bound style t) :=
    parseTunnelArg_eq_bound hurl huts style h
  have hsame : (bound style t).localProtocol = t.localProtocol ∧ (bound style t).remote = t.remote := by
    unfold bound onLocalhost
    split
    · exact ⟨rfl, rfl⟩
    · split <;> exact ⟨rfl, rfl⟩
  refine ⟨hparse, fun r => ?_⟩
  rw [parseReverseTunnelArg_eq_ok_iff hparse, hsame.1, hsame.2]
  rfl

/-- `udp://53:[2001:db8::1]:443?timeout_sec=10` -/
theorem parseTunnelArg_render_udp :
    render ⟨false, true⟩ ⟨.udp (some (10 * oneSecond)), ⟨.v6 0, 53⟩, .ipv6 0x20010db8000000000000000000000001, 443⟩ =
        "udp://53:[2001:db8::1]:443?timeout_sec=10" ∧
      parseTunnelArg (urlCrates (fun _ => none) id) (render ⟨false, true⟩
        ⟨.udp (some (10 * oneSecond)), ⟨.v6 0, 53⟩, .ipv6 0x20010db8000000000000000000000001, 443⟩) =
      .ok ⟨.udp (some (10 * oneSecond)), ⟨.v4 0x7F000001, 53⟩, .ipv6 0x20010db8000000000000000000000001, 443⟩ := by
  have huts : DeniesForbidden fun _ => none := fun _ _ h => by cases h
  have htimeout : WholeSeconds (some (10 * oneSecond)) := fun d hd => by
    cases hd
    exact ⟨10, by decide, by decide, rfl⟩
  have h : Described (fun _ => none)
      ⟨.udp (some (10 * oneSecond)), ⟨.v6 0, 53⟩, .ipv6 0x20010db8000000000000000000000001, 443⟩ :=
    .udp htimeout _ trivial
  exact ⟨by decide +kernel, (parseTunnelArg_render (urlCrates_followsStandard _ id) huts h ⟨false, true⟩).1⟩

end Wstunnel.L3
