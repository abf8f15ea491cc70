import Wstunnel.L3Server.Request

/-!
# The client side of a reverse tunnel

`create_client_tunnels` gives each reverse tunnel a connector, and
`run_reverse_tunnel` loops: open a tunnel to the server, decode the `Cookie`
of its response into a destination, and ask the connector to connect. The
cookie is decoded for every protocol; what a connector does with it is the
connector's own affair, so which destination is dialled depends on the
wiring.

**Third-party code.** The decoder of the cookie and `Host::parse` are those of
`Parsers`, any functions. The responses of the server, and which attempts and dials
fail, are the input of a run.

**Results.**
* `staticTunnel_dials_iff`: a tunnel with a fixed destination dials nothing
  else over a run exactly when it is a udp tunnel, or every response of the run
  carries no decodable token or one that names the configured destination.
-/
namespace Wstunnel.L3

open Wstunnel.L1

/-! ## Connectors -/

/-- What a connector asks the network for. -/
inductive Dial where
  | tcp (host : Host) (port : UInt16)
  | udp (host : Host) (port : UInt16)
  deriving DecidableEq, Repr

def Dial.addr : Dial → Host × UInt16
  | .tcp host port | .udp host port => (host, port)

inductive Connector where
  | tcp (host : Host) (port : UInt16)
  | udp (host : Host) (port : UInt16)
  | socks5
  deriving DecidableEq, Repr

/-- mirrors wstunnel/src/tunnel/connectors/tcp.rs:42-50 -/
def connectTcpConnector (host : Host) (port : UInt16) (remote : Option RemoteAddr) : Dial :=
  match remote with
  | some remote => .tcp remote.host remote.port
  | none => .tcp host port

/-- mirrors wstunnel/src/tunnel/connectors/udp.rs:42-48 -/
def connectUdpConnector (host : Host) (port : UInt16) (_ : Option RemoteAddr) : Dial := .udp host port

/-- mirrors wstunnel/src/tunnel/connectors/sock5.rs:39-65 -/
def connectSocks5Connector (remote : Option RemoteAddr) : Except String Dial :=
  match remote with
  | none => .error "Missing remote destination for reverse socks5"
  | some remote => match remote.protocol with
    | .tcp _ => .ok (.tcp remote.host remote.port)
    | .udp _ => .ok (.udp remote.host remote.port)
    | _ => .error "Invalid protocol for reverse socks5"

/-- `TunnelConnector::connect`, up to the network. -/
def Connector.connect (c : Connector) (remote : Option RemoteAddr) : Except String Dial :=
  match c with
  | .tcp host port => .ok (connectTcpConnector host port remote)
  | .udp host port => .ok (connectUdpConnector host port remote)
  | .socks5 => connectSocks5Connector remote

/-- A tunnel of the command line. mirrors wstunnel/src/config.rs:420-424 -/
structure LocalToRemote where
  localProtocol : LocalProtocol
  localAddr : SocketAddr
  remote : Host × UInt16
  deriving DecidableEq, Repr

/-- The address asked of the server, and the connector of the tunnel; `none`
for a protocol that is not a reverse one, an error where the code panics.
mirrors wstunnel/src/lib.rs:204-331 -/
def reverseWiring (t : LocalToRemote) : Except String (Option (RemoteAddr × Connector)) :=
  let (host, port) := toHostPort t.localAddr
  match t.localProtocol with
  | .reverseTcp => .ok (some (⟨.reverseTcp, host, port⟩, .tcp t.remote.1 t.remote.2))
  | .reverseUdp timeout => .ok (some (⟨.reverseUdp timeout, host, port⟩, .udp t.remote.1 t.remote.2))
  | .reverseSocks5 timeout credentials =>
    .ok (some (⟨.reverseSocks5 timeout credentials, host, port⟩, .socks5))
  | .reverseHttpProxy timeout credentials =>
    .ok (some (⟨.reverseHttpProxy timeout credentials, host, port⟩, .tcp t.remote.1 t.remote.2))
  | .reverseUnix path =>
    .ok (some (⟨.reverseUnix path, host, port⟩, .tcp t.remote.1 t.remote.2))
  | .stdio _ | .tunnelStdio _ _ | .tproxyTcp | .tproxyUdp _ | .tcp _ | .udp _ | .socks5 _ _
  | .httpProxy _ _ _ => .ok none
  | .unix _ _ => .error "Invalid protocol for reverse tunnel"

/-! ## The loop -/

/-- What happens when the client opens a tunnel to the server: it fails, or
the server responds and then the dialled destination answers or not. -/
inductive Attempt where
  | refused
  | response (headers : HeaderMap) (dialled : Bool)
  deriving Repr

inductive ClientEffect where
  | request (remote : RemoteAddr)
  | sleep (delay : Duration)
  | dial (d : Dial)
  | noDestination (err : String)
  | propagate (d : Dial)
  deriving DecidableEq, Repr

variable (W : Parsers)

/-- The destination decoded from a response.
mirrors wstunnel/src/tunnel/client/client.rs:199-208 -/
def responseRemote (headers : HeaderMap) : Option RemoteAddr :=
  (((headers.get .cookie).bind headerToStr).bind W.jwtTokenToTunnel).map fun jwt =>
    ⟨jwt.p, (W.hostParse jwt.r).getD (.domain ""), jwt.rp⟩

/-- `Duration::from_secs(1)` -/
def oneSecond : Duration := 1000000000

/-- One round of the loop: the reconnect delay after it, and its effects. -/
def reverseRound (maxDelay : Duration) (remote : RemoteAddr) (connector : Connector)
    (delay : Duration) : Attempt → Duration × List ClientEffect
  | .refused => (min (delay * 2) maxDelay, [.request remote, .sleep delay])
  | .response headers dialled =>
    (oneSecond, .request remote :: match connector.connect (responseRemote W headers) with
      | .error err => [.noDestination err]
      | .ok d => if dialled then [.dial d, .propagate d] else [.dial d])

/-- mirrors wstunnel/src/tunnel/client/client.rs:138-231 -/
def runReverseTunnel (maxDelay : Duration) (remote : RemoteAddr) (connector : Connector) :
    Duration → List Attempt → List ClientEffect
  | _, [] => []
  | delay, attempt :: rest =>
    let (delay', effects) := reverseRound W maxDelay remote connector delay attempt
    effects ++ runReverseTunnel maxDelay remote connector delay' rest

/-- The run of one tunnel of the command line. -/
def runTunnel (maxDelay : Duration) (t : LocalToRemote) (attempts : List Attempt) :
    List ClientEffect :=
  match reverseWiring t with
  | .ok (some (remote, connector)) =>
    runReverseTunnel W maxDelay remote connector oneSecond attempts
  | _ => []

/-! ## Fixed destinations -/

/-- The reverse protocols whose destination is configured on the client. -/
inductive StaticReverse : LocalProtocol → Prop
  | tcp : StaticReverse .reverseTcp
  | udp (timeout : Option Duration) : StaticReverse (.reverseUdp timeout)
  | unix (path : PathBuf) : StaticReverse (.reverseUnix path)

/-- The response leaves the destination of `t` alone: `t` is a udp tunnel, or
the response has no token, or one that names that destination. -/
def LeavesDestination (t : LocalToRemote) (headers : HeaderMap) : Prop :=
  (∃ timeout, t.localProtocol = .reverseUdp timeout) ∨
    ∀ r, responseRemote W headers = some r → (r.host, r.port) = t.remote

theorem mem_dial_reverseRound {maxDelay delay : Duration} {remote : RemoteAddr}
    {connector : Connector} {attempt : Attempt} {d : Dial} :
    ClientEffect.dial d ∈ (reverseRound W maxDelay remote connector delay attempt).2 ↔
      ∃ headers dialled, attempt = .response headers dialled ∧
        connector.connect (responseRemote W headers) = .ok d := by
  cases attempt with
  | refused => simp [reverseRound]
  | response headers dialled =>
    cases hc : connector.connect (responseRemote W headers) with
    | error err => simp [reverseRound, hc]
    | ok d' =>
      cases dialled <;> simp [reverseRound, hc, eq_comm]

/-- The dials of a run are those of its responses, whatever the delays. -/
theorem mem_dial_runReverseTunnel {maxDelay : Duration} {remote : RemoteAddr}
    {connector : Connector} {d : Dial} : ∀ {attempts : List Attempt} {delay : Duration},
    ClientEffect.dial d ∈ runReverseTunnel W maxDelay remote connector delay attempts ↔
      ∃ headers dialled, Attempt.response headers dialled ∈ attempts ∧
        connector.connect (responseRemote W headers) = .ok d
  | [], _ => by simp [runReverseTunnel]
  | attempt :: rest, delay => by
    rw [runReverseTunnel]
    dsimp only
    rw [List.mem_append, mem_dial_reverseRound, mem_dial_runReverseTunnel]
    refine ⟨?_, ?_⟩
    · intro h
      rcases h with ⟨headers, dialled, rfl, hc⟩ | ⟨headers, dialled, hm, hc⟩
      · exact ⟨headers, dialled, by simp, hc⟩
      · exact ⟨headers, dialled, by simp [hm], hc⟩
    · intro ⟨headers, dialled, hm, hc⟩
      rcases List.mem_cons.mp hm with rfl | hm
      · exact .inl ⟨headers, dialled, rfl, hc⟩
      · exact .inr ⟨headers, dialled, hm, hc⟩

/-- A static tunnel always asks its connector for one destination: the
token's for the tcp connector, the configured one for udp. -/
theorem static_connect {t : LocalToRemote} (hs : StaticReverse t.localProtocol) :
    ∃ remote connector, reverseWiring t = .ok (some (remote, connector)) ∧
      ∀ headers, ∃ d, connector.connect (responseRemote W headers) = .ok d ∧
        (d.addr = t.remote ↔ LeavesDestination W t headers) := by
  obtain ⟨proto, addr, host, port⟩ := t
  have htcp (headers : HeaderMap) (hu : ∀ timeout, proto ≠ .reverseUdp timeout) :
      (connectTcpConnector host port (responseRemote W headers)).addr = (host, port) ↔
        LeavesDestination W ⟨proto, addr, host, port⟩ headers := by
    unfold LeavesDestination connectTcpConnector
    cases hr : responseRemote W headers with
    | none => simp [Dial.addr]
    | some r => simp [Dial.addr, hu]
  cases hs with
  | tcp => exact ⟨_, _, rfl, fun headers => ⟨_, rfl, htcp headers (by simp)⟩⟩
  | unix path => exact ⟨_, _, rfl, fun headers => ⟨_, rfl, htcp headers (by simp)⟩⟩
  | udp timeout => exact ⟨_, _, rfl, fun headers => ⟨_, rfl, fun _ => .inl ⟨timeout, rfl⟩, fun _ => rfl⟩⟩

/-- **Static reverse tunnels.** Over any run, a tunnel with a configured
destination dials only that destination if and only if every response of the
run leaves it alone. -/
theorem staticTunnel_dials_iff (maxDelay : Duration) {t : LocalToRemote}
    (hs : StaticReverse t.localProtocol) (attempts : List Attempt) :
    (∀ d, ClientEffect.dial d ∈ runTunnel W maxDelay t attempts → d.addr = t.remote) ↔
      ∀ headers dialled, Attempt.response headers dialled ∈ attempts →
        LeavesDestination W t headers := by
  obtain ⟨remote, connector, hw, hc⟩ := static_connect W hs
  unfold runTunnel
  rw [hw]
  dsimp only
  refine ⟨?_, ?_⟩
  · intro h headers dialled hm
    obtain ⟨d, hd, hiff⟩ := hc headers
    exact hiff.mp (h d ((mem_dial_runReverseTunnel W).mpr ⟨headers, dialled, hm, hd⟩))
  · intro h d hd
    obtain ⟨headers, dialled, hm, hd⟩ := (mem_dial_runReverseTunnel W).mp hd
    obtain ⟨d', hd', hiff⟩ := hc headers
    obtain rfl : d = d' := by rw [hd] at hd'; exact Except.ok.inj hd'
    exact hiff.mpr (h headers dialled hm)

/-- `-R tcp://0.0.0.0:8080:127.0.0.1:22`. -/
def sshTunnel : LocalToRemote := ⟨.reverseTcp, ⟨.v4 0, 8080⟩, .ipv4 0x7F000001, 22⟩

/-- Parsers that know one token, for port 80 of another machine. -/
def oneToken : Parsers where
  jwtTokenToTunnel text := if text = "e.t.s" then some ⟨"id", .tcp false, "10.0.0.5", 80⟩ else none
  hostParse text := (IpAddr.fromStr text).map fun
    | .v4 ip => .ipv4 ip
    | .v6 ip => .ipv6 ip
  uuidParse _ := none
  uuidText _ := ""
  scheme _ := "http"
  pushSegment _ _ := none
  isUri _ := false
  yamlEndpoint _ := none

/-- Responses without a cookie leave the destination alone. -/
theorem staticTunnel_dials_plainResponse :
    StaticReverse sshTunnel.localProtocol ∧
      ∀ d, ClientEffect.dial d ∈
        runTunnel oneToken oneSecond sshTunnel [.refused, .response [] true] →
          d.addr = (.ipv4 0x7F000001, 22) := by
  refine ⟨.tcp, (staticTunnel_dials_iff oneToken oneSecond .tcp _).mpr fun headers dialled hm => ?_⟩
  simp only [List.mem_cons, List.not_mem_nil, or_false, reduceCtorEq, false_or,
    Attempt.response.injEq] at hm
  obtain ⟨rfl, -⟩ := hm
  exact .inr fun r hr => by cases hr

/-- A cookie in the response sends the tcp tunnel elsewhere. -/
theorem sshTunnel_redirected :
    let headers : HeaderMap := [(.cookie, [0x65, 0x2E, 0x74, 0x2E, 0x73])]
    StaticReverse sshTunnel.localProtocol ∧
      ClientEffect.dial (.tcp (.ipv4 0x0A000005) 80) ∈
        runTunnel oneToken oneSecond sshTunnel [.response headers true] ∧
      (Dial.tcp (.ipv4 0x0A000005) 80).addr ≠ sshTunnel.remote := by
  exact ⟨.tcp, by decide, by decide⟩

end Wstunnel.L3
