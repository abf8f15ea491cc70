import Wstunnel.L1Encoding.HostParse
import Wstunnel.L3Client.TunnelArg
import Wstunnel.L3Server.Admission

/-!
# Tunnel ids, from the command line to the resolver

A tunnel id is checked by `Uuid::parse_str` on the client, sent as the text
of a domain, read as a host by the server, and read as a UUID again. The two
grammars overlap only in part.

**Third-party code.** `Conforms` is what is assumed of the crates of the server: that
`Host::parse` is `hostParse`, with any IDNA, and `Uuid::parse_str` that of `Core.Uuid`,
which the client uses as well. The token is taken after its decoding.

**Results.**
* `resolveRemote_token`: the resolver is asked for the UUID that is read from
  the token, and for nothing if none is.
* `tunnelId_decoded_iff`: that is the UUID of the command line, for every
  spelling that the client accepts except the one with `urn:uuid:` and 32
  digits without a letter (`urnId_refused`).
-/
namespace Wstunnel.L3

open Wstunnel.L1 Wstunnel.Str

/-! ## The UUID in a token -/

/-- The destination that is asked of the server for a `tunnel://` argument.
mirrors wstunnel/src/lib.rs:430-431, wstunnel/src/tunnel/listeners/tunnel_stdio.rs:53-74 -/
def tunnelStdioRemote (t : LocalToRemote) : Option RemoteAddr :=
  match t.localProtocol with
  | .tunnelStdio proxyProtocol timeout => some ⟨.tunnelStdio proxyProtocol timeout, t.remote.1, t.remote.2⟩
  | _ => none

variable (W : Parsers)

/-- The UUID that the server reads from a token.
mirrors wstunnel/src/tunnel/server/server.rs:131-152 -/
def decodedTunnelId (jwt : JwtTunnelConfig) : Option Uuid :=
  (RemoteAddr.tryFrom W.hostParse jwt).bind fun remote => match remote.host with
    | .domain tunnelId => W.uuidParse tunnelId
    | _ => none

variable (cfg : WsServerConfig) (w : World)

/-- What the server does for a UUID. -/
def resolveUuid (authorization : Option String) (proxyProtocol : Bool) (tunnelUuid : Uuid) :
    Trace Effect HttpResponse (RemoteAddr × Option RateInfo) := do
  let resolver ← Trace.ofOption badRequest cfg.tunnelResolver
  let endpoint ←
    ((resolveTunnelOverHttp W w.resolver resolver tunnelUuid authorization).mapLog
      Effect.resolverRequest).mapErr fun _ => badRequest
  return (⟨.tcp proxyProtocol, endpoint.host, endpoint.port⟩,
    some (tunnelUuid, endpoint.rateLimitUploadM, endpoint.rateLimitDownloadM))

/-- The server goes on with the UUID in the token, and refuses a token
without one. -/
theorem resolveRemote_token {jwt : JwtTunnelConfig} {remote : RemoteAddr} {proxyProtocol : Bool}
    {timeout : Option Duration} (hp : jwt.p = .tunnelStdio proxyProtocol timeout)
    (hremote : RemoteAddr.tryFrom W.hostParse jwt = some remote) (authorization : Option String) :
    resolveRemote W cfg w authorization remote =
      Trace.ofOption badRequest (decodedTunnelId W jwt) >>= resolveUuid W cfg w authorization proxyProtocol := by
  obtain ⟨host, hhost, rfl⟩ := Option.map_eq_some_iff.mp hremote
  rw [decodedTunnelId, hremote, Option.bind_some, resolveRemote, hp]
  cases host <;> rfl

/-! ## The spellings that survive -/

/-- The assumptions on the crates of the server. -/
structure Conforms (uts46 : List UInt8 → Option (List Char)) : Prop where
  hostParse : W.hostParse = L1.hostParse uts46
  uuidParse : ∀ text, W.uuidParse text = UuidText.parse text.toList

/-- Neither behind `urn:uuid:` nor digits only. -/
def Survives (text : String) : Prop := ¬ UuidText.urn <+: text.toList ∧ ∃ c ∈ text.toList, c.isDigit = false

instance (text : String) : Decidable (Survives text) :=
  haveI : Decidable (∃ c ∈ text.toList, c.isDigit = false) := List.decidableBEx _ _
  instDecidableAnd

variable {W} {uts46 : List UInt8 → Option (List Char)}

theorem decodedTunnelId_of_conforms (hW : Conforms W uts46) (jwt : JwtTunnelConfig) :
    decodedTunnelId W jwt = (L1.hostParse uts46 jwt.r).bind fun host => match host with
      | .domain tunnelId => UuidText.parse tunnelId.toList
      | _ => none := by
  rw [decodedTunnelId, RemoteAddr.tryFrom, hW.hostParse, Option.bind_map]
  refine Option.bind_congr fun host _ => ?_
  cases host with
  | domain text => exact hW.uuidParse text
  | ipv4 ip => rfl
  | ipv6 ip => rfl

/-- A colon is no character of a host name, the others of a UUID are. -/
theorem any_forbidden_of_uuid {s : List Char} {uuid : Uuid} (h : UuidText.parse s = some uuid) :
    s.any forbiddenDomainChar = true ↔ UuidText.urn <+: s := by
  have halphabet : UuidText.alphabet.all (fun c => !forbiddenDomainChar c && c ≠ 'u') = true := by decide
  obtain ⟨rest, rfl | rfl, hrest⟩ := UuidText.chars_of_parse h
  · have hchar (c : Char) (hc : c ∈ s) := List.all_eq_true.mp halphabet c (hrest c hc)
    refine iff_of_false (fun hany => ?_) (fun hpre => ?_)
    · obtain ⟨c, hc, hbad⟩ := List.any_eq_true.mp hany
      simpa [hbad] using hchar c hc
    · simpa using hchar 'u' (hpre.subset List.mem_cons_self)
  · refine iff_of_true ?_ (List.prefix_append _ _)
    rw [List.any_append]
    rfl

theorem decodedTunnelId_iff (hW : Conforms W uts46) {jwt : JwtTunnelConfig} {uuid : Uuid}
    (huuid : UuidText.parse jwt.r.toList = some uuid) :
    decodedTunnelId W jwt = some uuid ↔ Survives jwt.r := by
  have hne : jwt.r.toList ≠ [] := fun hnil => by
    rw [hnil] at huuid
    cases huuid
  rw [decodedTunnelId_of_conforms hW, hostParse_of_plain hne (UuidText.all_of_parse huuid (by decide)), Survives,
    ← any_forbidden_of_uuid huuid]
  by_cases hurn : jwt.r.toList.any forbiddenDomainChar = true
  · rw [if_pos hurn, Option.bind_none]
    exact iff_of_false (fun h => nomatch h) (fun h => h.1 hurn)
  · rw [if_neg hurn]
    by_cases hdigits : jwt.r.toList.all Char.isDigit = true
    · -- an address, or nothing
      rw [if_pos hdigits, Option.bind_map]
      refine iff_of_false (fun h => ?_) (fun ⟨_, c, hc, hbad⟩ => ?_)
      · obtain ⟨ip, -, hip⟩ := Option.bind_eq_some_iff.mp h
        cases hip
      · rw [List.all_eq_true.mp hdigits c hc] at hbad
        cases hbad
    · have hlower : UuidText.parse (String.ofList (jwt.r.toList.map Char.toLower)).toList = some uuid := by
        rw [String.toList_ofList]
        exact UuidText.parse_map_toLower huuid
      rw [if_neg hdigits, Option.bind_some]
      refine iff_of_true hlower ⟨hurn, ?_⟩
      simpa using hdigits

/-- **The server reads the UUID of the command line from the token exactly
when it is neither spelled with `urn:uuid:` nor with digits only.** -/
theorem tunnelId_decoded_iff (hW : Conforms W uts46) (C : Crates) (arg : String) (t : LocalToRemote)
    (hscheme : "tunnel://".toList <+: arg.toList) (harg : parseTunnelArg C arg = .ok t) (requestId : String) :
    ∃ uuid dest jwt, UuidText.parse (tunnelId arg).toList = some uuid ∧ tunnelStdioRemote t = some dest ∧
      JwtTunnelConfig.new requestId dest = some jwt ∧
      (decodedTunnelId W jwt = some uuid ↔ Survives (tunnelId arg)) := by
  obtain ⟨uuid, proxyProtocol, timeout, huuid, rfl⟩ := parseTunnelArg_tunnel hscheme harg
  refine ⟨uuid, _, _, huuid, rfl, rfl, ?_⟩
  exact decodedTunnelId_iff hW huuid

/-- A server with these host and UUID parsers. -/
def urlParsers : Parsers where
  jwtTokenToTunnel _ := none
  hostParse := L1.hostParse fun _ => none
  uuidParse text := UuidText.parse text.toList
  uuidText _ := ""
  scheme _ := ""
  pushSegment _ _ := none
  isUri _ := false
  yamlEndpoint _ := none

theorem conforms_urlParsers : Conforms urlParsers fun _ => none := ⟨rfl, fun _ => rfl⟩

def noOptions : Crates := ⟨fun _ => none, fun _ => [], fun _ => "invalid length"⟩

def idToken (text : String) : JwtTunnelConfig := ⟨"id", .tunnelStdio false (some (30 * oneSecond)), text, 0⟩

theorem tunnelId_decoded_braced : ∃ uuid dest jwt,
    UuidText.parse (tunnelId ("tunnel://" ++ "\x7b00000000-0000-0000-0000-00000000000A\x7d")).toList = some uuid ∧
      JwtTunnelConfig.new "id" dest = some jwt ∧ decodedTunnelId urlParsers jwt = some uuid := by
  obtain ⟨uuid, dest, jwt, huuid, -, hjwt, hiff⟩ := tunnelId_decoded_iff conforms_urlParsers noOptions
    ("tunnel://" ++ "\x7b00000000-0000-0000-0000-00000000000A\x7d") _ (by decide)
    (parseTunnelArg_of_uuid rfl) "id"
  exact ⟨uuid, dest, jwt, huuid, hjwt, hiff.mpr (by decide)⟩

/-- The server refuses an id behind `urn:uuid:`, in which it sees a colon, and
one of 32 digits, in which it sees a number that is no IPv4 address. -/
theorem urnId_refused :
    (∃ t dest jwt, parseTunnelArg noOptions ("tunnel://" ++ "urn:uuid:11111111-1111-1111-1111-111111111111") = .ok t ∧
      tunnelStdioRemote t = some dest ∧ JwtTunnelConfig.new "id" dest = some jwt ∧
      decodedTunnelId urlParsers jwt = none) ∧
    ∃ t dest jwt, parseTunnelArg noOptions ("tunnel://" ++ "11111111111111111111111111111111") = .ok t ∧
      tunnelStdioRemote t = some dest ∧ JwtTunnelConfig.new "id" dest = some jwt ∧
      decodedTunnelId urlParsers jwt = none := by
  refine ⟨⟨_, _, idToken _, parseTunnelArg_of_uuid rfl, rfl, rfl, ?_⟩,
    ⟨_, _, idToken _, parseTunnelArg_of_uuid rfl, rfl, rfl, ?_⟩⟩
  · decide
  · decide

end Wstunnel.L3
