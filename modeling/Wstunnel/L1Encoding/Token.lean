import Wstunnel.Core.Base64
import Wstunnel.Core.Json
import Wstunnel.Core.Utf8
import Wstunnel.L1Encoding.Tunnel

/-!
# The token

How a `JwtTunnelConfig` travels: as JSON, by the `Serialize` and
`Deserialize` that serde derives for `LocalProtocol` and `JwtTunnelConfig`;
as base64 without padding; between the header and the signature of a JWT.
The server is set up not to look at the signature.

**Third-party code.** What `jsonwebtoken` adds (its header, the signature, what it asks
of a header and of registered claims such as `exp`) is the structure `Jwt`. Two of its
fields are assumptions: the library takes the header that it writes itself, and asks
nothing of claims without a registered name. `serde_json` is `Core.Json`, `base64`
without padding is `Core.Base64`.

**Results.**
* `readProtocol_toJson`, `readConfig_toJson`: the JSON forms are read back.
* `decode_signed`: so are tokens, with any signature.
-/
namespace Wstunnel.L1

open Json

/-! ## The JSON forms -/

/-- serde's form of a `Duration`. -/
def Duration.toJson (d : Duration) : Value :=
  .struct [("secs", .nat (d / 1000000000)), ("nanos", .nat (d % 1000000000))]

/-- A `Duration` has to fit its seconds, those carried over included. -/
def readDuration (v : Value) : Option Duration := do
  let field ← record true ["secs", "nanos"] v
  let secs ← required (readNat 64) (field "secs")
  let nanos ← required (readNat 32) (field "nanos")
  if secs + nanos / 1000000000 < 2 ^ 64 then some (secs * 1000000000 + nanos) else none

/-- A pair is an array of two. -/
def Credentials.toJson (c : Credentials) : Value :=
  .arr (.cons (.str c.1.toList) (.cons (.str c.2.toList) .nil))

def readCredentials : Value → Option Credentials
  | .arr (.cons user (.cons password .nil)) => do return (← readStr user, ← readStr password)
  | _ => none

def readPath (v : Value) : Option PathBuf := (readStr v).map PathBuf.mk

def timeoutField (timeout : Option Duration) : String × Value :=
  ("timeout", .ofOption Duration.toJson timeout)

def credentialsField (credentials : Option Credentials) : String × Value :=
  ("credentials", .ofOption Credentials.toJson credentials)

def proxyProtocolField (proxyProtocol : Bool) : String × Value := ("proxy_protocol", .bool proxyProtocol)

def pathField (path : PathBuf) : String × Value := ("path", .str path.text.toList)

/-- The variant and the fields of a protocol, as they are declared.
mirrors wstunnel/src/tunnel/mod.rs:16-63 -/
def LocalProtocol.toJson : LocalProtocol → Value
  | .tcp pp => .variant "Tcp" (some (.struct [proxyProtocolField pp]))
  | .udp t => .variant "Udp" (some (.struct [timeoutField t]))
  | .stdio pp => .variant "Stdio" (some (.struct [proxyProtocolField pp]))
  | .tunnelStdio pp t => .variant "TunnelStdio" (some (.struct [proxyProtocolField pp, timeoutField t]))
  | .socks5 t c => .variant "Socks5" (some (.struct [timeoutField t, credentialsField c]))
  | .tproxyTcp => .variant "TProxyTcp" none
  | .tproxyUdp t => .variant "TProxyUdp" (some (.struct [timeoutField t]))
  | .httpProxy t c pp =>
    .variant "HttpProxy" (some (.struct [timeoutField t, credentialsField c, proxyProtocolField pp]))
  | .reverseTcp => .variant "ReverseTcp" none
  | .reverseUdp t => .variant "ReverseUdp" (some (.struct [timeoutField t]))
  | .reverseSocks5 t c => .variant "ReverseSocks5" (some (.struct [timeoutField t, credentialsField c]))
  | .reverseHttpProxy t c => .variant "ReverseHttpProxy" (some (.struct [timeoutField t, credentialsField c]))
  | .reverseUnix p => .variant "ReverseUnix" (some (.struct [pathField p]))
  | .unix p pp => .variant "Unix" (some (.struct [pathField p, proxyProtocolField pp]))

/-- A variant without fields is its name, or its name with null. -/
def unitVariant (p : LocalProtocol) : Option Value → Option LocalProtocol
  | none | some .null => some p
  | some _ => none

/-- A variant with these fields. -/
def structVariant (names : List String) (content : Option Value)
    (make : (String → Option Value) → Option LocalProtocol) : Option LocalProtocol := do
  make (← record false names (← content))

def readTimeout (field : String → Option Value) : Option (Option Duration) :=
  optional readDuration (field "timeout")

def readCredentialsField (field : String → Option Value) : Option (Option Credentials) :=
  optional readCredentials (field "credentials")

def readProxyProtocol (field : String → Option Value) : Option Bool :=
  required readBool (field "proxy_protocol")

def readPathField (field : String → Option Value) : Option PathBuf := required readPath (field "path")

def readProtocol (v : Value) : Option LocalProtocol := do
  let (name, content) ← tagged v
  if name = "Tcp" then
    structVariant ["proxy_protocol"] content fun f => do return .tcp (← readProxyProtocol f)
  else if name = "Udp" then structVariant ["timeout"] content fun f => do return .udp (← readTimeout f)
  else if name = "Stdio" then
    structVariant ["proxy_protocol"] content fun f => do return .stdio (← readProxyProtocol f)
  else if name = "TunnelStdio" then
    structVariant ["proxy_protocol", "timeout"] content fun f => do
      return .tunnelStdio (← readProxyProtocol f) (← readTimeout f)
  else if name = "Socks5" then
    structVariant ["timeout", "credentials"] content fun f => do
      return .socks5 (← readTimeout f) (← readCredentialsField f)
  else if name = "TProxyTcp" then unitVariant .tproxyTcp content
  else if name = "TProxyUdp" then
    structVariant ["timeout"] content fun f => do return .tproxyUdp (← readTimeout f)
  else if name = "HttpProxy" then
    structVariant ["timeout", "credentials", "proxy_protocol"] content fun f => do
      return .httpProxy (← readTimeout f) (← readCredentialsField f) (← readProxyProtocol f)
  else if name = "ReverseTcp" then unitVariant .reverseTcp content
  else if name = "ReverseUdp" then
    structVariant ["timeout"] content fun f => do return .reverseUdp (← readTimeout f)
  else if name = "ReverseSocks5" then
    structVariant ["timeout", "credentials"] content fun f => do
      return .reverseSocks5 (← readTimeout f) (← readCredentialsField f)
  else if name = "ReverseHttpProxy" then
    structVariant ["timeout", "credentials"] content fun f => do
      return .reverseHttpProxy (← readTimeout f) (← readCredentialsField f)
  else if name = "ReverseUnix" then
    structVariant ["path"] content fun f => do return .reverseUnix (← readPathField f)
  else if name = "Unix" then
    structVariant ["path", "proxy_protocol"] content fun f => do
      return .unix (← readPathField f) (← readProxyProtocol f)
  else none

/-- mirrors wstunnel/src/tunnel/transport/jwt.rs:28-34 -/
def JwtTunnelConfig.toJson (cfg : JwtTunnelConfig) : Value :=
  .struct [("id", .str cfg.id.toList), ("p", cfg.p.toJson), ("r", .str cfg.r.toList), ("rp", .nat cfg.rp.toNat)]

def readConfig (v : Value) : Option JwtTunnelConfig := do
  let field ← record false ["id", "p", "r", "rp"] v
  let id ← required readStr (field "id")
  let p ← required readProtocol (field "p")
  let r ← required readStr (field "r")
  let rp ← required (readNat 16) (field "rp")
  return ⟨id, p, r, UInt16.ofNat rp⟩

/-! ### They are read back -/

/-- The time in a protocol. -/
def LocalProtocol.timeout? : LocalProtocol → Option Duration
  | .udp t | .tunnelStdio _ t | .socks5 t _ | .tproxyUdp t | .httpProxy t _ _ | .reverseUdp t
  | .reverseSocks5 t _ | .reverseHttpProxy t _ => t
  | _ => none

/-- A `Duration` as the source's type has them: at most `u64::MAX` seconds and
less than one more. -/
def Duration.Fits (d : Duration) : Prop := d < 2 ^ 64 * 1000000000

theorem readDuration_toJson {d : Nat} (h : Duration.Fits d) : readDuration (Duration.toJson d) = some d := by
  have hfits : d < 2 ^ 64 * 1000000000 := h
  have hsecs : d / 1000000000 < 2 ^ 64 := by omega
  have hnanos : d % 1000000000 < 2 ^ 32 := by omega
  have hsum : d / 1000000000 + d % 1000000000 / 1000000000 < 2 ^ 64 := by omega
  have hback : d / 1000000000 * 1000000000 + d % 1000000000 = d := by omega
  rw [readDuration, Duration.toJson, record_struct]
  · simp only [List.lookup_cons, Option.bind_eq_bind, Option.bind_some, required, BEq.rfl, String.reduceBEq,
      readNat_of_lt hsecs, readNat_of_lt hnanos, hback]
    exact if_pos hsum
  · rfl
  · decide

theorem readCredentials_toJson (c : Credentials) : readCredentials c.toJson = some c := by
  simp [Credentials.toJson, readCredentials, readStr]

theorem readTimeout_field {t : Option Duration} {field : String → Option Value}
    (h : ∀ d ∈ t, Duration.Fits d) (hf : field "timeout" = some (.ofOption Duration.toJson t)) :
    readTimeout field = some t := by
  rw [readTimeout, hf]
  exact optional_ofOption fun d hd => ⟨readDuration_toJson (h d hd), by simp [Duration.toJson, Value.struct]⟩

theorem readCredentialsField_field {c : Option Credentials} {field : String → Option Value}
    (hf : field "credentials" = some (.ofOption Credentials.toJson c)) : readCredentialsField field = some c := by
  rw [readCredentialsField, hf]
  exact optional_ofOption fun x _ => ⟨readCredentials_toJson x, by simp [Credentials.toJson]⟩

theorem readProxyProtocol_field {pp : Bool} {field : String → Option Value}
    (hf : field "proxy_protocol" = some (.bool pp)) : readProxyProtocol field = some pp := by
  rw [readProxyProtocol, hf]
  rfl

theorem readPathField_field {path : PathBuf} {field : String → Option Value}
    (hf : field "path" = some (.str path.text.toList)) : readPathField field = some path := by
  simp [readPathField, hf, required, readPath, readStr]

theorem structVariant_struct {names : List String} {fields : List (String × Value)}
    (make : (String → Option Value) → Option LocalProtocol) (hnames : fields.map Prod.fst = names)
    (h : names.Nodup) :
    structVariant names (some (.struct fields)) make = make fun name => fields.lookup name := by
  simp only [structVariant, Option.bind_eq_bind, Option.bind_some, record_struct false hnames h]

theorem readProtocol_toJson {p : LocalProtocol} (h : ∀ d ∈ p.timeout?, Duration.Fits d) :
    readProtocol p.toJson = some p := by
  cases p <;> simp only [LocalProtocol.toJson, readProtocol, tagged_variant, Option.bind_eq_bind, Option.bind_some,
    String.reduceEq, if_false, if_true]
  case tproxyTcp | reverseTcp => rfl
  case tcp | stdio =>
    rw [structVariant_struct _ (by rfl) (by decide), readProxyProtocol_field (by rfl)]
    rfl
  case udp | tproxyUdp | reverseUdp =>
    rw [structVariant_struct _ (by rfl) (by decide), readTimeout_field h (by rfl)]
    rfl
  case tunnelStdio =>
    rw [structVariant_struct _ (by rfl) (by decide), readProxyProtocol_field (by rfl), readTimeout_field h (by rfl)]
    rfl
  case socks5 | reverseSocks5 | reverseHttpProxy =>
    rw [structVariant_struct _ (by rfl) (by decide), readTimeout_field h (by rfl),
      readCredentialsField_field (by rfl)]
    rfl
  case httpProxy =>
    rw [structVariant_struct _ (by rfl) (by decide), readTimeout_field h (by rfl),
      readCredentialsField_field (by rfl), readProxyProtocol_field (by rfl)]
    rfl
  case reverseUnix =>
    rw [structVariant_struct _ (by rfl) (by decide), readPathField_field (by rfl)]
    rfl
  case unix =>
    rw [structVariant_struct _ (by rfl) (by decide), readPathField_field (by rfl), readProxyProtocol_field (by rfl)]
    rfl

theorem plain_toJson (p : LocalProtocol) : p.toJson.plain = true := by
  have htimeout (t : Option Duration) : (timeoutField t).2.plain = true := by
    cases t <;> simp [timeoutField, Value.ofOption, Value.plain, Duration.toJson, Value.struct]
  have hcredentials (c : Option Credentials) : (credentialsField c).2.plain = true := by
    cases c <;> simp [credentialsField, Value.ofOption, Value.plain, Credentials.toJson, Values.plain]
  cases p <;> simp [LocalProtocol.toJson, Value.struct, Value.plain, htimeout, hcredentials, proxyProtocolField,
    pathField]

theorem readConfig_toJson {cfg : JwtTunnelConfig} (h : ∀ d ∈ cfg.p.timeout?, Duration.Fits d) :
    readConfig cfg.toJson = some cfg := by
  have hport : cfg.rp.toNat < 2 ^ 16 := cfg.rp.toNat_lt
  rw [readConfig, JwtTunnelConfig.toJson, record_struct]
  · simp only [List.lookup_cons, Option.bind_eq_bind, Option.bind_some, required, BEq.rfl, String.reduceBEq,
      readProtocol_toJson h, readNat_of_lt hport, readStr, String.ofList_toList, UInt16.ofNat_toNat]
    rfl
  · rfl
  · decide

/-! ## The token itself -/

/-- What `jsonwebtoken` and its settings add: the header the client writes, its
signature, which headers the server takes, and what it asks of registered
claims. The claims of this program are not registered ones. -/
structure Jwt where
  header : List UInt8
  sign : List Char → List UInt8
  headerOk : List UInt8 → Bool
  validate : Value → Bool
  header_ok : headerOk header = true
  validate_config : ∀ cfg : JwtTunnelConfig, validate cfg.toJson = true

variable (J : Jwt)

/-- The signed part of a token. -/
def Jwt.message (cfg : JwtTunnelConfig) : List Char :=
  Base64Url.encode J.header ++ '.' :: Base64Url.encode (Utf8.encode cfg.toJson.text)

/-- `jsonwebtoken::encode`
mirrors wstunnel/src/tunnel/transport/jwt.rs:62-66 -/
def Jwt.encode (cfg : JwtTunnelConfig) : List Char :=
  J.message cfg ++ '.' :: Base64Url.encode (J.sign (J.message cfg))

/-- The claims in the middle part. -/
def Jwt.claims (payload : List Char) : Option JwtTunnelConfig := do
  let text ← Utf8.decode (← Base64Url.decode payload)
  let v ← Json.parse text
  let cfg ← readConfig v
  if J.validate v then some cfg else none

/-- `jwt_token_to_tunnel`: with `insecure_disable_signature_validation` the last
part is not looked at.
mirrors wstunnel/src/tunnel/transport/jwt.rs:21-26,68-72 -/
def Jwt.decode (token : List Char) : Option JwtTunnelConfig := do
  let (message, _signature) ← Str.rsplitOnce '.' token
  let (header, payload) ← Str.rsplitOnce '.' message
  if J.headerOk (← Base64Url.decode header) then J.claims payload else none

theorem claims_payload {cfg : JwtTunnelConfig} (h : ∀ d ∈ cfg.p.timeout?, Duration.Fits d) :
    J.claims (Base64Url.encode (Utf8.encode cfg.toJson.text)) = some cfg := by
  have hplain : cfg.toJson.plain = true := by
    simp [JwtTunnelConfig.toJson, Value.struct, Value.plain, plain_toJson]
  simp only [Jwt.claims, Base64Url.decode_encode, Utf8.decode_encode, Json.parse_text hplain,
    readConfig_toJson h, J.validate_config, Option.bind_eq_bind, Option.bind_some, if_true]

/-- A token is read back, with any signature. -/
theorem decode_signed {cfg : JwtTunnelConfig} (h : ∀ d ∈ cfg.p.timeout?, Duration.Fits d)
    {signature : List Char} (hs : '.' ∉ signature) :
    J.decode (J.message cfg ++ '.' :: signature) = some cfg := by
  have hpayload := Base64Url.dot_not_mem_encode (Utf8.encode cfg.toJson.text)
  simp only [Jwt.decode, Str.rsplitOnce_append hs, Jwt.message, Str.rsplitOnce_append hpayload,
    Base64Url.decode_encode, J.header_ok, Option.bind_eq_bind, Option.bind_some, if_true, claims_payload J h]

end Wstunnel.L1
