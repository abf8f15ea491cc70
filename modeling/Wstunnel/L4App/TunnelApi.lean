import Wstunnel.Core.Yaml
import Wstunnel.L3Server.Request
import Wstunnel.L4App.TunnelServer

/-!
# The answer of the tunnel server and its reader

`get_tunnel` of the tunnel server prints an entry as a few lines of YAML, and
`resolve_tunnel_over_http` of the server reads them. The host is printed
without quotes: the text of an IPv6 address that ends with `::` is no plain
scalar of the line.

**Third-party code.** The YAML reader of the server is the parameter
`Parsers.yamlEndpoint`; `YamlSpec` is what is assumed of `serde_yaml`: that it reads
block mappings of plain scalars as `Core.Yaml` does, and the fields as `serde` does.
`axum` hands the text to the client as it is; `Uuid::parse_str` is that of
`Core.Uuid`.

**Results.**
* `readEndpoint_getTunnel_iff`: the endpoint read back is that of the entry
  exactly when the text of the address does not end with a colon.
* `networkAddress_unreadable`: the pod has the address `fd00::`.
-/
namespace Wstunnel.L4.TunnelServer

open Wstunnel.L1 Wstunnel.L3

/-! ## The printed answer -/

/-- The text of `get_tunnel`.
mirrors tunnel-server/src/api.rs:24-30 -/
def TunnelEntry.body (entry : TunnelEntry) : String :=
  let body := "host: " ++ entry.host ++ "\nport: " ++ toString entry.port ++ "\n"
  let body := match entry.rateLimitUploadM with
    | some m => body ++ ("rate_limit_upload_m: " ++ toString m ++ "\n")
    | none => body
  match entry.rateLimitDownloadM with
  | some m => body ++ ("rate_limit_download_m: " ++ toString m ++ "\n")
  | none => body

structure Response where
  status : Nat
  contentType : Option String
  body : List UInt8
  deriving DecidableEq, Repr

/-- mirrors tunnel-server/src/api.rs:17-35 -/
def getTunnel (map : List (Uuid × TunnelEntry)) (uuid : Uuid) : Response :=
  match map.lookup uuid with
  | none => ⟨404, none, []⟩
  | some entry => ⟨200, some "text/yaml; charset=utf-8", Utf8.encode entry.body.toList⟩

/-! ## The reader -/

/-- The keys of `TunnelEndpointResponse`. -/
def hostKey : List Char := "host".toList
def portKey : List Char := "port".toList
def uploadKey : List Char := "rate_limit_upload_m".toList
def downloadKey : List Char := "rate_limit_download_m".toList
def legacyKey : List Char := "rate_limit_m".toList

def readU16 (text : List Char) : Option UInt16 := (Yaml.unsigned 16 text).map UInt16.ofNat

/-- An `Option<u16>`: absent, null, or a number. -/
def readOptional (fields : List Yaml.Field) (key : List Char) : Option (Option UInt16) :=
  match fields.lookup key with
  | none => some none
  | some text => if Yaml.isNull text then some none else (readU16 text).map some

/-- The derived `Deserialize`: a known field twice is an error, an unknown one
is skipped.
mirrors wstunnel/src/tunnel/server/tunnel_resolver.rs:22-29 -/
def deserializeEndpoint (fields : List Yaml.Field) : Option TunnelEndpointResponse := do
  let known := [hostKey, portKey, uploadKey, downloadKey, legacyKey]
  if known.any fun key => 1 < fields.countP fun f => f.1 = key then none
  let host ← fields.lookup hostKey
  let port ← (fields.lookup portKey).bind readU16
  let upload ← readOptional fields uploadKey
  let download ← readOptional fields downloadKey
  let legacy ← readOptional fields legacyKey
  return ⟨String.ofList host, port, upload, download, legacy⟩

/-- `serde_yaml` on documents of lines `key: text`. -/
def YamlSpec (W : Parsers) : Prop :=
  ∀ fields : List Yaml.Field, (∀ f ∈ fields, Yaml.Simple f) →
    W.yamlEndpoint (String.ofList (Yaml.render fields)) =
      (Yaml.readMapping (Yaml.render fields)).bind deserializeEndpoint

/-! ## What is printed is a mapping of plain texts -/

def limitField (key : List Char) (limit : Option Nat) : List Yaml.Field :=
  (limit.map fun m => (key, Nat.toDigits 10 m)).toList

/-- The fields that the text holds. -/
def TunnelEntry.fields (entry : TunnelEntry) : List Yaml.Field :=
  (hostKey, entry.host.toList) :: (portKey, Nat.toDigits 10 entry.port) ::
    (limitField uploadKey entry.rateLimitUploadM ++ limitField downloadKey entry.rateLimitDownloadM)

theorem toList_toString (n : Nat) : (toString n).toList = Nat.toDigits 10 n := by
  rw [show toString n = String.ofList (Nat.toDigits 10 n) from rfl, String.toList_ofList]

theorem body_eq_render (entry : TunnelEntry) : entry.body.toList = Yaml.render entry.fields := by
  have hhost : "host: ".toList = hostKey ++ [':', ' '] := rfl
  have hport : "\nport: ".toList = '\n' :: portKey ++ [':', ' '] := rfl
  have hup : "rate_limit_upload_m: ".toList = uploadKey ++ [':', ' '] := rfl
  have hdown : "rate_limit_download_m: ".toList = downloadKey ++ [':', ' '] := rfl
  have hnl : "\n".toList = ['\n'] := rfl
  unfold TunnelEntry.body TunnelEntry.fields
  cases entry.rateLimitUploadM <;> cases entry.rateLimitDownloadM <;>
    simp only [String.toList_append, hhost, hport, hup, hdown, hnl, toList_toString, Yaml.render,
      Yaml.Field.line, limitField, Option.map_some, Option.map_none, Option.toList_some, Option.toList_none,
      List.flatMap_cons, List.flatMap_nil, List.nil_append, List.append_nil, List.cons_append,
      List.append_assoc]

/-- A key is checked character by character. -/
theorem simpleKey {key : List Char} (hne : key ≠ [])
    (h : (key.all fun c => c.isLower || c = '_') = true) : key ≠ [] ∧ ∀ c ∈ key, c.isLower = true ∨ c = '_' := by
  refine ⟨hne, fun c hc => ?_⟩
  simpa using List.all_eq_true.mp h c hc

theorem simple_number {key : List Char} (n : Nat) (hkey : key ≠ [] ∧ ∀ c ∈ key, c.isLower = true ∨ c = '_') :
    Yaml.Simple (key, Nat.toDigits 10 n) := by
  refine ⟨hkey, Nat.toDigits_ne_nil, fun c hc => .inl ?_⟩
  have hdigit : c.isDigit = true := Nat.isDigit_of_mem_toDigits (by omega) (by omega) hc
  rw [Char.isAlphanum, hdigit, Bool.or_true]

theorem fields_simple {entry : TunnelEntry}
    (h : entry.host.toList ≠ [] ∧ ∀ c ∈ entry.host.toList, isAddrChar c = true) :
    ∀ f ∈ entry.fields, Yaml.Simple f := by
  have hlimit {key : List Char} {limit : Option Nat} {f : Yaml.Field}
      (hkey : key ≠ [] ∧ ∀ c ∈ key, c.isLower = true ∨ c = '_') (hf : f ∈ limitField key limit) :
      Yaml.Simple f := by
    obtain ⟨m, -, rfl⟩ := Option.map_eq_some_iff.mp (Option.mem_toList.mp hf)
    exact simple_number m hkey
  intro f hf
  rcases List.mem_cons.mp hf with rfl | hf
  · have hkey := simpleKey (show hostKey ≠ [] by decide) (by decide)
    refine ⟨hkey, h.1, fun c hc => ?_⟩
    have := h.2 c hc
    simp only [isAddrChar, Bool.or_eq_true, decide_eq_true_eq] at this
    rwa [or_assoc] at this
  rcases List.mem_cons.mp hf with rfl | hf
  · exact simple_number _ (simpleKey (by decide) (by decide))
  rcases List.mem_append.mp hf with hf | hf
  · exact hlimit (simpleKey (by decide) (by decide)) hf
  · exact hlimit (simpleKey (by decide) (by decide)) hf

/-- No number ends with a colon. -/
theorem fields_any_colon (entry : TunnelEntry) :
    entry.fields.any (fun f => f.2.getLast? = some ':') = decide (entry.host.toList.getLast? = some ':') := by
  have hnumber (n : Nat) : decide ((Nat.toDigits 10 n).getLast? = some ':') = false := by
    refine decide_eq_false fun h => ?_
    have hdigit := Nat.isDigit_of_mem_toDigits (by omega) (by omega) (List.mem_of_getLast? h)
    exact absurd hdigit (by decide)
  unfold TunnelEntry.fields limitField
  cases entry.rateLimitUploadM <;> cases entry.rateLimitDownloadM <;>
    simp only [List.any_cons, List.any_append, List.any_nil, Option.map_some, Option.map_none,
      Option.toList_some, Option.toList_none, hnumber, Bool.or_false]

theorem readU16_toDigits {n : Nat} (h : n < 2 ^ 16) : readU16 (Nat.toDigits 10 n) = some (.ofNat n) := by
  rw [readU16, Yaml.unsigned_toDigits h]
  rfl

theorem isNull_toDigits (n : Nat) : Yaml.isNull (Nat.toDigits 10 n) = false := by
  have hdigit {c : Char} (hc : c ∈ Nat.toDigits 10 n) : c.isDigit = true :=
    Nat.isDigit_of_mem_toDigits (by omega) (by omega) hc
  have hword {word : List Char} {c : Char} (hmem : c ∈ word) (hc : c.isDigit = false) :
      Nat.toDigits 10 n ≠ word := by
    rintro rfl
    cases hc.symm.trans (hdigit hmem)
  have hnull : ∀ word ∈ [['~'], "null".toList, "Null".toList, "NULL".toList], Nat.toDigits 10 n ≠ word := by
    intro word hmem
    simp only [List.mem_cons, List.not_mem_nil, or_false] at hmem
    rcases hmem with rfl | rfl | rfl | rfl <;> exact hword List.mem_cons_self rfl
  simp only [List.mem_cons, forall_eq_or_imp, List.not_mem_nil, false_imp_iff, implies_true, and_true] at hnull
  simp only [Yaml.isNull, Nat.toDigits_ne_nil, hnull, decide_false, Bool.or_false]

/-- The limits fit. -/
structure TunnelEntry.Bounded (entry : TunnelEntry) : Prop where
  port : entry.port < 2 ^ 16
  upload : ∀ m, entry.rateLimitUploadM = some m → m ≤ maxRateLimitM
  download : ∀ m, entry.rateLimitDownloadM = some m → m ≤ maxRateLimitM

theorem lookup_limitField (key key' : List Char) (limit : Option Nat) :
    (limitField key limit).lookup key' = if key' = key then limit.map (Nat.toDigits 10) else none := by
  cases limit with
  | none => simp [limitField]
  | some m =>
    by_cases h : key' = key
    · rw [if_pos h, h]
      exact List.lookup_cons_self
    · rw [if_neg h]
      exact AssocMap.lookup_cons_of_ne h

theorem lookup_fields {entry : TunnelEntry} {key : List Char} (hhost : key ≠ hostKey) (hport : key ≠ portKey) :
    entry.fields.lookup key = ((limitField uploadKey entry.rateLimitUploadM).lookup key).or
      ((limitField downloadKey entry.rateLimitDownloadM).lookup key) := by
  rw [TunnelEntry.fields, AssocMap.lookup_cons_of_ne hhost, AssocMap.lookup_cons_of_ne hport,
    List.lookup_append]

theorem readOptional_of_lookup {fields : List Yaml.Field} {key : List Char} {limit : Option Nat}
    (hlimit : ∀ m, limit = some m → m ≤ maxRateLimitM)
    (h : fields.lookup key = limit.map (Nat.toDigits 10)) :
    readOptional fields key = some (limit.map .ofNat) := by
  rw [readOptional, h]
  cases limit with
  | none => rfl
  | some m =>
    have hm : m < 2 ^ 16 := Nat.lt_of_le_of_lt (hlimit m rfl) (by decide)
    simp only [Option.map_some, isNull_toDigits, Bool.false_eq_true, if_false, readU16_toDigits hm]

theorem fields_once (entry : TunnelEntry) :
    ([hostKey, portKey, uploadKey, downloadKey, legacyKey].any fun key =>
      1 < entry.fields.countP fun f => f.1 = key) = false := by
  unfold TunnelEntry.fields limitField
  cases entry.rateLimitUploadM <;> cases entry.rateLimitDownloadM <;> rfl

theorem deserialize_fields {entry : TunnelEntry} (h : entry.Bounded) :
    deserializeEndpoint entry.fields = some ⟨entry.host, .ofNat entry.port,
      entry.rateLimitUploadM.map .ofNat, entry.rateLimitDownloadM.map .ofNat, none⟩ := by
  have hhost : entry.fields.lookup hostKey = some entry.host.toList := List.lookup_cons_self
  have hport : (entry.fields.lookup portKey).bind readU16 = some (.ofNat entry.port) := by
    rw [TunnelEntry.fields, AssocMap.lookup_cons_of_ne (by decide), List.lookup_cons_self]
    exact readU16_toDigits h.port
  have hup : readOptional entry.fields uploadKey = some (entry.rateLimitUploadM.map .ofNat) := by
    refine readOptional_of_lookup h.upload ?_
    rw [lookup_fields (by decide) (by decide), lookup_limitField, lookup_limitField, if_pos rfl,
      if_neg (by decide), Option.or_none]
  have hdown : readOptional entry.fields downloadKey = some (entry.rateLimitDownloadM.map .ofNat) := by
    refine readOptional_of_lookup h.download ?_
    rw [lookup_fields (by decide) (by decide), lookup_limitField, lookup_limitField, if_neg (by decide),
      if_pos rfl, Option.none_or]
  have hlegacy : readOptional entry.fields legacyKey = some none := by
    rw [readOptional, lookup_fields (by decide) (by decide), lookup_limitField, lookup_limitField,
      if_neg (by decide), if_neg (by decide)]
    rfl
  rw [deserializeEndpoint]
  simp only [fields_once, hhost, hport, hup, hdown, hlegacy]
  simp only [Bool.false_eq_true, if_false, Option.bind_eq_bind, Option.bind_some, String.ofList_toList]
  rfl

/-! ## Reading it back -/

theorem parseRateLimit_le {v : Option String} {m : Nat} (h : parseRateLimit v = some m) : m ≤ maxRateLimitM := by
  obtain ⟨n, -, rfl⟩ := Option.map_eq_some_iff.mp h
  exact Nat.min_le_right n _

/-- What `handle_pod_event` stores. -/
theorem tunnelEntry_bounded (annotations : Annotations) (podIp : String) :
    (tunnelEntry annotations podIp).Bounded := by
  have hor {a b : Option String} {m : Nat} (h : (parseRateLimit a).or (parseRateLimit b) = some m) :
      m ≤ maxRateLimitM := by
    rcases Option.or_eq_some_iff.mp h with h | ⟨-, h⟩
    · exact parseRateLimit_le h
    · exact parseRateLimit_le h
  refine ⟨?_, fun m => hor, fun m => hor⟩
  rw [tunnelEntry]
  cases h : (annotations.lookup annTunnelPort).bind fun v => Str.parseUnsigned 16 v.toList with
  | none => exact (by decide : defaultTunnelPort < 2 ^ 16)
  | some port =>
    obtain ⟨v, -, hv⟩ := Option.bind_eq_some_iff.mp h
    exact Str.lt_of_parseUnsigned hv

/-- The endpoint that an entry with the address `ip` stands for. -/
def TunnelEntry.endpoint (entry : TunnelEntry) (ip : IpAddr) : TunnelEndpoint where
  host := (toHostPort ⟨ip, .ofNat entry.port⟩).1
  port := .ofNat entry.port
  rateLimitUploadM := entry.rateLimitUploadM.map .ofNat
  rateLimitDownloadM := entry.rateLimitDownloadM.map .ofNat

theorem isWhitespace_of_isAddrChar {c : Char} (h : isAddrChar c = true) : Str.isWhitespace c = false := by
  have hrange : 46 ≤ c.toNat ∧ c.toNat < 0x80 := by
    simp only [isAddrChar, Bool.or_eq_true, decide_eq_true_eq] at h
    rcases h with (h | rfl) | rfl
    · have hrange := Str.isAlphanum_iff.mp h
      omega
    · decide
    · decide
  simp only [Str.isWhitespace, Bool.or_eq_false_iff, Bool.and_eq_false_iff, beq_eq_false_iff_ne,
    decide_eq_false_iff_not]
  omega

theorem parseHost_of_fromStr {host : String} {ip : IpAddr} (h : IpAddr.fromStr host = some ip) (port : UInt16) :
    parseHost host = some (toHostPort ⟨ip, port⟩).1 := by
  obtain ⟨hne, hchars⟩ := isAddrChar_of_fromStr h
  have htrim : Str.trim host = host :=
    Str.trim_of_noWhitespace fun c hc => isWhitespace_of_isAddrChar (hchars c hc)
  have hempty : host.isEmpty = false := by
    rw [← Bool.not_eq_true, String.isEmpty_iff]
    rintro rfl
    exact hne rfl
  rw [parseHost]
  simp only [htrim, hempty, h]
  cases ip <;> rfl

theorem capRate_of_le {limit : Option Nat} (h : ∀ m, limit = some m → m ≤ maxRateLimitM) :
    capRate (limit.map .ofNat) = limit.map .ofNat := by
  cases limit with
  | none => rfl
  | some m =>
    have hm : m ≤ 10 := h m rfl
    have hle : UInt16.ofNat m ≤ 10 := by
      rw [UInt16.le_iff_toNat_le, UInt16.toNat_ofNat']
      exact Nat.le_trans (Nat.mod_le _ _) hm
    exact congrArg some (if_pos hle)

/-- **The endpoint read from the answer of the tunnel server is that of the
entry, with its address, its port and its limits, exactly when the text of
the address does not end with a colon.** -/
theorem readEndpoint_getTunnel_iff (W : Parsers) (hW : YamlSpec W) (map : List (Uuid × TunnelEntry))
    (id : Uuid) (annotations : Annotations) (podIp : String) (ip : IpAddr)
    (hentry : map.lookup id = some (tunnelEntry annotations podIp))
    (hip : IpAddr.fromStr podIp = some ip) :
    readEndpoint W (getTunnel map id).body = some ((tunnelEntry annotations podIp).endpoint ip) ↔
      podIp.toList.getLast? ≠ some ':' := by
  have hbounded := tunnelEntry_bounded annotations podIp
  have hsimple : ∀ f ∈ (tunnelEntry annotations podIp).fields, Yaml.Simple f :=
    fields_simple (isAddrChar_of_fromStr hip)
  have hhost : (tunnelEntry annotations podIp).host = podIp := rfl
  generalize tunnelEntry annotations podIp = entry at *
  have hbody : (getTunnel map id).body = Utf8.encode (Yaml.render entry.fields) := by
    rw [getTunnel, hentry, ← body_eq_render]
  rw [hbody, readEndpoint, Utf8.decode_encode]
  simp only [Option.map_some, Option.getD_some]
  rw [hW _ hsimple, Yaml.readMapping_render hsimple, fields_any_colon, hhost]
  by_cases hcolon : podIp.toList.getLast? = some ':'
  · simp [hcolon]
  · refine iff_of_true ?_ hcolon
    rw [decide_eq_false hcolon, if_neg Bool.false_ne_true, Option.bind_some, deserialize_fields hbounded]
    simp only [hhost, Option.bind_eq_bind, Option.bind_some, parseHost_of_fromStr hip (.ofNat entry.port),
      Option.or_none, capRate_of_le hbounded.upload, capRate_of_le hbounded.download]
    rfl

/-- A server whose YAML reader is that of `Core.Yaml`. -/
def blockYaml : Parsers where
  jwtTokenToTunnel _ := none
  hostParse _ := none
  uuidParse _ := none
  uuidText _ := ""
  scheme _ := ""
  pushSegment _ _ := none
  isUri _ := false
  yamlEndpoint text := (Yaml.readMapping text.toList).bind deserializeEndpoint

theorem yamlSpec_blockYaml : YamlSpec blockYaml := by
  intro fields _
  simp only [blockYaml, String.toList_ofList]

/-- A pod with an upload limit of 5. -/
def limitedPod : Annotations := [(annTunnelPort, "2222"), (annTunnelRateLimitUpload, "5")]

theorem readEndpoint_getTunnel_pod :
    readEndpoint blockYaml (getTunnel [(1, tunnelEntry limitedPod "2001:db8::7")] 1).body =
      some ⟨.ipv6 0x20010db8000000000000000000000007, 2222, some 5, none⟩ :=
  (readEndpoint_getTunnel_iff blockYaml yamlSpec_blockYaml [(1, tunnelEntry limitedPod "2001:db8::7")] 1
    limitedPod "2001:db8::7" (.v6 0x20010db8000000000000000000000007) (by decide) (by decide)).mpr (by decide)

/-- `host: fd00::` is no entry of a mapping: the server cannot read the answer
for a pod with this address. -/
theorem networkAddress_unreadable :
    IpAddr.fromStr "fd00::" = some (.v6 0xfd000000000000000000000000000000) ∧
      (getTunnel [(1, tunnelEntry [] "fd00::")] 1).status = 200 ∧
      readEndpoint blockYaml (getTunnel [(1, tunnelEntry [] "fd00::")] 1).body = none := by
  decide +kernel

end Wstunnel.L4.TunnelServer
