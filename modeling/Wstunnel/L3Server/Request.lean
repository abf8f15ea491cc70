import Wstunnel.Core.Trace
import Wstunnel.Core.Utf8
import Wstunnel.L1Encoding.Tunnel

/-!
# The upgrade request and the tunnel resolver

What the server reads from an upgrade request before it decides anything:
the path prefix, the token (`Sec-WebSocket-Protocol` or `Cookie`), the
`Authorization` and `X-Forwarded-For` headers; and
`resolve_tunnel_over_http`, which asks a configured HTTP service for the
endpoint behind a UUID.

**Third-party code.** Token decoding, `url`, `uuid`, `http` and YAML are the parameter
`Parsers`, of which nothing is assumed here. A header is a name and its bytes; names
are compared without case by `http`. The HTTP exchange with the resolver is a function
from the request sent to the answer received, so a statement for every such function
is a statement for every answer.

**Results.** The functions here are used by `Admission`, `TunnelIds` and
`UpgradeRequest`, which prove what follows for a whole request.
-/
namespace Wstunnel.L3

open Wstunnel.L1

abbrev Bytes := List UInt8

abbrev Uuid := BitVec 128

/-- A `url::Url`, by its text. -/
structure Url where
  text : String
  deriving DecidableEq, Repr

/-- mirrors wstunnel/src/tunnel/server/tunnel_resolver.rs:22-29 -/
structure TunnelEndpointResponse where
  host : String
  port : UInt16
  rateLimitUploadM : Option UInt16
  rateLimitDownloadM : Option UInt16
  rateLimitM : Option UInt16
  deriving DecidableEq, Repr

/-- The functions of the `jsonwebtoken`, `url`, `uuid`, `http` and
`serde_yaml` crates that are used on a request. -/
structure Parsers where
  /-- `jwt_token_to_tunnel` -/
  jwtTokenToTunnel : String → Option JwtTunnelConfig
  /-- `Host::parse` -/
  hostParse : String → Option Host
  /-- `Uuid::parse_str` -/
  uuidParse : String → Option Uuid
  /-- `Uuid::to_string` -/
  uuidText : Uuid → String
  /-- `Url::scheme` -/
  scheme : Url → String
  /-- `Url::path_segments_mut` and `push`; `none` for a URL without path segments -/
  pushSegment : Url → String → Option Url
  /-- `Uri::from_str` succeeds -/
  isUri : String → Bool
  /-- `serde_yaml::from_str::<TunnelEndpointResponse>` -/
  yamlEndpoint : String → Option TunnelEndpointResponse

/-! ## Headers -/

/-- Header names are compared without case by `http`; the four read here. -/
inductive HeaderName where
  | secWebsocketProtocol | cookie | authorization | xForwardedFor
  | other (name : String)
  deriving DecidableEq, Repr

/-- A header map; a repeated name keeps its order. -/
abbrev HeaderMap := List (HeaderName × Bytes)

/-- `HeaderMap::get`: the first value. -/
def HeaderMap.get (h : HeaderMap) (name : HeaderName) : Option Bytes := h.lookup name

/-- `HeaderValue::to_str`: visible ASCII and tab only. -/
def headerToStr (value : Bytes) : Option String :=
  if value.all fun b => (32 ≤ b && b < 127) || b = 9 then
    some (String.ofList (value.map fun b => Char.ofNat b.toNat))
  else none

structure Request where
  path : String
  headers : HeaderMap
  deriving Repr

/-- mirrors wstunnel/src/tunnel/server/utils.rs:54-57 -/
def extractAuthorization (req : Request) : Option String :=
  (req.headers.get .authorization).bind headerToStr

/-- mirrors wstunnel/src/tunnel/server/utils.rs:59-68 -/
def extractXForwardedFor (req : Request) : Option (IpAddr × String) := do
  let value ← req.headers.get .xForwardedFor
  let text := (headerToStr value).getD ""
  let first := match Str.splitOnce [','] text.toList with
    | some (l, _) => String.ofList l
    | none => text
  let ip ← IpAddr.fromStr first
  return (ip, first)

/-- mirrors wstunnel/src/tunnel/server/utils.rs:84-91 -/
inductive PathPrefixErr where
  | badPathPrefix | badUpgradeRequest
  deriving DecidableEq, Repr

/-- mirrors wstunnel/src/tunnel/server/utils.rs:70-82 -/
def extractPathPrefix (path : String) : Except PathPrefixErr String :=
  match path.toList with
  | '/' :: rest => match Str.splitOnce ['/'] rest with
    | some (l, r) =>
      if "events".toList.isSuffixOf r then .ok (String.ofList l) else .error .badUpgradeRequest
    | none => .error .badUpgradeRequest
  | _ => .error .badPathPrefix

/-- The prefix is the first segment of a path that ends with `events`. -/
theorem extractPathPrefix_eq_ok {path l : String} : extractPathPrefix path = .ok l ↔
    ∃ r, path.toList = '/' :: (l.toList ++ '/' :: r) ∧ '/' ∉ l.toList ∧ "events".toList <:+ r := by
  unfold extractPathPrefix
  refine ⟨fun h => ?_, fun ⟨r, hpath, hslash, hevents⟩ => ?_⟩
  · split at h
    · rename_i rest hpath
      split at h
      · rename_i l' r hsplit
        split at h
        · rename_i hevents
          cases h
          obtain ⟨hrest, hslash⟩ := Str.splitOnce_eq_some hsplit
          rw [String.toList_ofList]
          exact ⟨r, by rw [hpath, hrest], hslash, List.isSuffixOf_iff_suffix.mp hevents⟩
        · cases h
      · cases h
    · cases h
  · simp only [hpath, Str.splitOnce_append hslash]
    rw [if_pos (List.isSuffixOf_iff_suffix.mpr hevents), String.ofList_toList]

/-- mirrors wstunnel/src/tunnel/transport/jwt.rs:11 -/
def jwtHeaderPrefix : String := "authorization.bearer."

/-- The text that `extract_tunnel_info` hands to the token decoder. -/
def tokenText (req : Request) : String :=
  let fromProtocol := ((req.headers.get .secWebsocketProtocol).bind headerToStr).bind fun header =>
    (Str.splitOnce jwtHeaderPrefix.toList header.toList).map fun (_, jwt) => String.ofList jwt
  (fromProtocol.or ((req.headers.get .cookie).bind headerToStr)).getD ""

variable (W : Parsers)

/-- mirrors wstunnel/src/tunnel/server/utils.rs:93-111 -/
def extractTunnelInfo (req : Request) : Option JwtTunnelConfig := W.jwtTokenToTunnel (tokenText req)

/-! ## The resolver -/

/-- mirrors wstunnel/src/tunnel/server/tunnel_resolver.rs:14-20 -/
structure TunnelEndpoint where
  host : Host
  port : UInt16
  rateLimitUploadM : Option UInt16
  rateLimitDownloadM : Option UInt16
  deriving DecidableEq, Repr

/-- The `GET` sent to the resolver. -/
structure ResolverRequest where
  uri : String
  authorization : Option String
  deriving DecidableEq, Repr

/-- The response; `none` when its body cannot be collected. -/
structure ResolverAnswer where
  status : Nat
  body : Option Bytes
  deriving DecidableEq, Repr

/-- What the resolver answers to each request; `none` when the exchange fails. -/
abbrev Resolver := ResolverRequest → Option ResolverAnswer

/-- mirrors wstunnel/src/tunnel/server/tunnel_resolver.rs:92-104 -/
def parseHost (host : String) : Option Host :=
  let host := Str.trim host
  if host.isEmpty then none
  else match IpAddr.fromStr host with
    | some (.v4 ip) => some (.ipv4 ip)
    | some (.v6 ip) => some (.ipv6 ip)
    | none => some (.domain host)

/-- `v.map(|n| n.min(10))` -/
def capRate (v : Option UInt16) : Option UInt16 := v.map (min · 10)

/-- The endpoint read from a response body. -/
def readEndpoint (body : Bytes) : Option TunnelEndpoint := do
  let payload := ((Utf8.decode body).map String.ofList).getD ""
  let parsed ← W.yamlEndpoint payload
  let host ← parseHost parsed.host
  return {
    host, port := parsed.port
    rateLimitUploadM := capRate (parsed.rateLimitUploadM.or parsed.rateLimitM)
    rateLimitDownloadM := capRate (parsed.rateLimitDownloadM.or parsed.rateLimitM) }

/-- The request for `id`, when one can be built. -/
def resolverRequest (base : Url) (id : Uuid) (authorization : Option String) :
    Option ResolverRequest := do
  if W.scheme base ≠ "http" then none
  let url ← W.pushSegment base (W.uuidText id)
  if !W.isUri url.text then none
  return ⟨url.text, authorization.filter (· ≠ "")⟩

/-- One effect, the request sent; every error ends in the same refusal.
mirrors wstunnel/src/tunnel/server/tunnel_resolver.rs:31-90 -/
def resolveTunnelOverHttp (resolver : Resolver) (base : Url) (id : Uuid)
    (authorization : Option String) : Trace ResolverRequest Unit TunnelEndpoint := do
  let req ← Trace.ofOption () (resolverRequest W base id authorization)
  Trace.emit req
  let resp ← Trace.ofOption () (resolver req)
  if !(200 ≤ resp.status && resp.status < 300) then Trace.fail ()
  let body ← Trace.ofOption () resp.body
  Trace.ofOption () (readEndpoint W body)

end Wstunnel.L3
