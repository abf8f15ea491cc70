import Wstunnel.L1Encoding.Net

/-!
# Tunnel requests: `LocalProtocol`, `RemoteAddr` and the token

The fourteen protocols of `tunnel/mod.rs` with all their fields, the
destination a request asks for, and `JwtTunnelConfig`, the payload of the
token that carries it from the client to the server.

**Third-party code.** Decoding the token is the `jsonwebtoken` crate's (with signature
validation turned off) and reading its host text is `url::Host::parse`; both are
parameters where they are used.

A `PathBuf` inside a `LocalProtocol` is always built from UTF-8 text: serde
deserialises it from a string, and the command line parser takes a `&str`.
`PathBuf` is therefore its text, and `to_str` on it succeeds.
-/
namespace Wstunnel.L1

/-- Nanoseconds. -/
abbrev Duration := Nat

abbrev Credentials := String × String

/-- A path made from UTF-8 text. -/
structure PathBuf where
  text : String
  deriving DecidableEq, Repr

def PathBuf.toStr (p : PathBuf) : Option String := some p.text

/-- mirrors wstunnel/src/tunnel/mod.rs:16-63 -/
inductive LocalProtocol where
  | tcp (proxyProtocol : Bool)
  | udp (timeout : Option Duration)
  | stdio (proxyProtocol : Bool)
  | tunnelStdio (proxyProtocol : Bool) (timeout : Option Duration)
  | socks5 (timeout : Option Duration) (credentials : Option Credentials)
  | tproxyTcp
  | tproxyUdp (timeout : Option Duration)
  | httpProxy (timeout : Option Duration) (credentials : Option Credentials) (proxyProtocol : Bool)
  | reverseTcp
  | reverseUdp (timeout : Option Duration)
  | reverseSocks5 (timeout : Option Duration) (credentials : Option Credentials)
  | reverseHttpProxy (timeout : Option Duration) (credentials : Option Credentials)
  | reverseUnix (path : PathBuf)
  | unix (path : PathBuf) (proxyProtocol : Bool)
  deriving DecidableEq, Repr

namespace LocalProtocol

/-- mirrors wstunnel/src/tunnel/mod.rs:66-75 -/
def isReverseTunnel : LocalProtocol → Bool
  | reverseTcp | reverseUdp _ | reverseSocks5 _ _ | reverseUnix _ | reverseHttpProxy _ _ => true
  | _ => false

/-- mirrors wstunnel/src/tunnel/mod.rs:77-79 -/
def isDynamicReverseTunnel : LocalProtocol → Bool
  | reverseSocks5 _ _ | reverseHttpProxy _ _ => true
  | _ => false

def isTunnelStdio : LocalProtocol → Bool
  | tunnelStdio _ _ => true
  | _ => false

end LocalProtocol

/-- mirrors wstunnel/src/tunnel/mod.rs:82-87 -/
structure RemoteAddr where
  protocol : LocalProtocol
  host : Host
  port : UInt16
  deriving DecidableEq, Repr

/-- mirrors wstunnel/src/tunnel/transport/jwt.rs:28-34 -/
structure JwtTunnelConfig where
  id : String
  p : LocalProtocol
  r : String
  rp : UInt16
  deriving DecidableEq, Repr

/-- The payload for a destination; `none` is `unreachable!`.
mirrors wstunnel/src/tunnel/transport/jwt.rs:36-60 -/
def JwtTunnelConfig.new (requestId : String) (dest : RemoteAddr) : Option JwtTunnelConfig :=
  match dest.protocol with
  | .tproxyTcp | .tproxyUdp _ | .stdio _ | .unix _ _ | .socks5 _ _ | .httpProxy _ _ _ => none
  | p => some ⟨requestId, p, dest.host.display, dest.port⟩

/-- `TryFrom<JwtTunnelConfig> for RemoteAddr`; `none` is `Host::parse`'s error.
mirrors wstunnel/src/tunnel/transport/jwt.rs:74-83 -/
def RemoteAddr.tryFrom (hostParse : String → Option Host) (jwt : JwtTunnelConfig) :
    Option RemoteAddr :=
  (hostParse jwt.r).map fun host => ⟨jwt.p, host, jwt.rp⟩

end Wstunnel.L1
