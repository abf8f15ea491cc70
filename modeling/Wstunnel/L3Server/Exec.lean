import Wstunnel.L2Rules.PortMapping
import Wstunnel.L3Server.Request

/-!
# `exec_tunnel`: opening or binding the destination

The effects of `WsServer::exec_tunnel` in order: which socket is opened
towards which host and port, or which listening server is asked for at which
address.

**Third-party code.** What the network answers, whether `ppp` can build a header and
the hash of a unix path are the parameter `World`, of which nothing is assumed.

**Results.**
* `execTunnel_destination`: nothing is opened or bound but the destination
  it was given, and unsupported protocols open nothing.
* `execTunnel_boundPort_iff`: the port bound for a reverse tunnel is chosen
  by the entries that admit it exactly when no refusing entry maps the port
  first.
-/
namespace Wstunnel.L3

open Wstunnel.L1 Wstunnel.L2

/-- The part of `WsServerConfig` that a request depends on.
mirrors wstunnel/src/tunnel/server/server.rs:59-71 -/
structure WsServerConfig where
  httpProxy : Option Url
  remoteServerIdleTimeout : Duration
  tunnelResolver : Option Url
  deriving DecidableEq, Repr

/-- The listening server a reverse tunnel asks for. -/
inductive Listener where
  | tcp (localSrv : Host × UInt16)
  | udp (localSrv : Host × UInt16) (timeout : Option Duration)
  | socks5 (timeout : Option Duration) (credentials : Option Credentials)
  | httpProxy (timeout : Option Duration) (credentials : Option Credentials)
  | unix (path : PathBuf) (localSrv : Host × UInt16)
  deriving DecidableEq, Repr

/-- What a request does to the world. `execTunnel` marks the call itself. -/
inductive Effect where
  | resolverRequest (req : ResolverRequest)
  | execTunnel (restriction : RestrictionConfig) (remote : RemoteAddr) (client : SocketAddr)
  | connectUdp (host : Host) (port : UInt16) (timeout : Duration)
  | connectTcp (host : Host) (port : UInt16)
  | connectTcpViaProxy (proxy : Url) (host : Host) (port : UInt16)
  | runListeningServer (listener : Listener) (bind : SocketAddr) (idleTimeout : Duration)
  | proxyHeader (client localAddr : SocketAddr)
  deriving DecidableEq, Repr

/-- The reader and writer halves of an open connection. -/
structure Conn where
  id : Nat
  localAddr : Except String SocketAddr

/-- What the network answers, and the hash of `AHasher::default()`. -/
structure World where
  resolver : Resolver
  connect : Effect → Except String Conn
  /-- `ppp::v2::Builder::build` -/
  headerBuilds : SocketAddr → SocketAddr → Except String Unit
  accepted : Listener → SocketAddr → Except String (Conn × RemoteAddr)
  pathHash : PathBuf → UInt64

variable (cfg : WsServerConfig) (w : World)

/-- `Duration::from_secs(10)` -/
def tenSeconds : Duration := 10 * 1000000000

/-- Ask for a listening server at `bind` and wait for a connection on it. -/
def runListeningServer (listener : Listener) (bind : SocketAddr) :
    Trace Effect String (RemoteAddr × Conn) := do
  Trace.emit (.runListeningServer listener bind cfg.remoteServerIdleTimeout)
  let (conn, remote) ← Trace.ofExcept (w.accepted listener bind)
  return (remote, conn)

/-- The arms of the reverse protocols that bind an address: they differ in
the listener they create. -/
def execReverse (restriction : RestrictionConfig) (remote : RemoteAddr)
    (listener : Host × UInt16 → Listener) : Trace Effect String (RemoteAddr × Conn) := do
  let remotePort := findMappedPort remote.port restriction
  let localSrv := (remote.host, remotePort)
  let bind ← Trace.ofExcept (tryToSockAddr remote.host remotePort)
  runListeningServer cfg w (listener localSrv) bind

/-- The `Udp` arm. -/
def execUdp (remote : RemoteAddr) (timeout : Option Duration) :
    Trace Effect String (RemoteAddr × Conn) :=
  match cfg.httpProxy with
  | some _ => Trace.fail "UDP tunneling is not supported with HTTP proxy"
  | none => do
    let connect := Effect.connectUdp remote.host remote.port (timeout.getD tenSeconds)
    Trace.emit connect
    let conn ← Trace.ofExcept (w.connect connect)
    return (remote, conn)

/-- The `Tcp` arm; the result of writing the proxy-protocol header is ignored. -/
def execTcp (remote : RemoteAddr) (proxyProtocol : Bool) (client : SocketAddr) :
    Trace Effect String (RemoteAddr × Conn) := do
  let connect := match cfg.httpProxy with
    | none => Effect.connectTcp remote.host remote.port
    | some proxy => Effect.connectTcpViaProxy proxy remote.host remote.port
  Trace.emit connect
  let conn ← Trace.ofExcept (w.connect connect)
  if proxyProtocol then
    let localAddr ← Trace.ofExcept conn.localAddr
    Trace.ofExcept (w.headerBuilds client localAddr)
    Trace.emit (.proxyHeader client localAddr)
  return (remote, conn)

/-- The registry key of a unix socket: the hash of its path as an address. -/
def unixKey (path : PathBuf) : Host := .ipv6 (BitVec.ofNat 128 (w.pathHash path).toNat)

/-- mirrors wstunnel/src/tunnel/server/server.rs:209-374 (unix build) -/
def execTunnel (restriction : RestrictionConfig) (remote : RemoteAddr) (client : SocketAddr) :
    Trace Effect String (RemoteAddr × Conn) :=
  match remote.protocol with
  | .udp timeout => execUdp cfg w remote timeout
  | .tcp proxyProtocol => execTcp cfg w remote proxyProtocol client
  | .reverseTcp => execReverse cfg w restriction remote .tcp
  | .reverseUdp timeout => execReverse cfg w restriction remote (.udp · timeout)
  | .reverseSocks5 timeout credentials =>
    execReverse cfg w restriction remote fun _ => .socks5 timeout credentials
  | .reverseHttpProxy timeout credentials =>
    execReverse cfg w restriction remote fun _ => .httpProxy timeout credentials
  | .reverseUnix path => do
    let host := unixKey w path
    let bind ← Trace.ofExcept (tryToSockAddr host 0)
    runListeningServer cfg w (.unix path (host, 0)) bind
  | .stdio _ | .tunnelStdio _ _ | .socks5 _ _ | .tproxyTcp | .tproxyUdp _ | .httpProxy _ _ _
  | .unix _ _ => Trace.fail "Invalid upgrade request"

/-! ## What it opens -/

/-- `e` opens or binds the destination `remote` names (at the port its rule
maps it to), or writes the proxy header to it. -/
def Effect.Reaches (restriction : RestrictionConfig) (remote : RemoteAddr) : Effect → Prop
  | .connectUdp host port _ | .connectTcp host port | .connectTcpViaProxy _ host port =>
    remote.protocol.isReverseTunnel = false ∧ host = remote.host ∧ port = remote.port
  | .runListeningServer (.unix path _) _ _ => remote.protocol = .reverseUnix path
  | .runListeningServer _ bind _ => remote.protocol.isReverseTunnel = true ∧
    remote.host.ip? = some bind.ip ∧ bind.port = findMappedPort remote.port restriction
  | .proxyHeader _ _ => remote.protocol = .tcp true
  | .resolverRequest _ | .execTunnel _ _ _ => False

theorem runListeningServer_log (listener : Listener) (bind : SocketAddr) :
    (runListeningServer cfg w listener bind).log =
      [.runListeningServer listener bind cfg.remoteServerIdleTimeout] := by
  unfold runListeningServer
  rw [Trace.emit_bind]
  cases w.accepted listener bind <;> rfl

theorem tryToSockAddr_eq_ok {host : Host} {port : UInt16} {bind : SocketAddr}
    (h : tryToSockAddr host port = .ok bind) : host.ip? = some bind.ip ∧ bind.port = port := by
  cases host <;> simp only [tryToSockAddr, Except.ok.injEq, reduceCtorEq] at h <;> subst h <;>
    exact ⟨rfl, rfl⟩

theorem runListeningServer_reaches {restriction : RestrictionConfig} {remote : RemoteAddr}
    {listener : Listener} {bind : SocketAddr}
    (h : Effect.Reaches restriction remote
      (.runListeningServer listener bind cfg.remoteServerIdleTimeout)) :
    (runListeningServer cfg w listener bind).AllLog (·.Reaches restriction remote) := by
  intro e he
  rw [runListeningServer_log, List.mem_singleton] at he
  exact he ▸ h

theorem execReverse_reaches {restriction : RestrictionConfig} {remote : RemoteAddr}
    {listener : Host × UInt16 → Listener} (hrev : remote.protocol.isReverseTunnel = true)
    (hl : ∀ srv path srv', listener srv ≠ .unix path srv') :
    (execReverse cfg w restriction remote listener).AllLog (·.Reaches restriction remote) := by
  refine Trace.allLog_bind (Trace.allLog_of_log_nil (by simp)) fun bind hb => ?_
  rw [Trace.ofExcept_result] at hb
  obtain ⟨hip, hport⟩ := tryToSockAddr_eq_ok hb
  refine runListeningServer_reaches cfg w ?_
  cases hs : listener (remote.host, findMappedPort remote.port restriction) with
  | unix path srv => exact absurd hs (hl _ _ _)
  | _ => exact ⟨hrev, hip, hport⟩

theorem execUdp_reaches (restriction : RestrictionConfig) {remote : RemoteAddr}
    {timeout : Option Duration} (hp : remote.protocol = .udp timeout) :
    (execUdp cfg w remote timeout).AllLog (·.Reaches restriction remote) := by
  unfold execUdp
  split
  · exact Trace.allLog_of_log_nil rfl
  · refine Trace.allLog_bind (Trace.allLog_emit ⟨by rw [hp]; rfl, rfl, rfl⟩) fun _ _ => ?_
    exact Trace.allLog_bind (Trace.allLog_of_log_nil (by simp)) fun _ _ =>
      Trace.allLog_of_log_nil rfl

theorem execTcp_reaches (restriction : RestrictionConfig) {remote : RemoteAddr} {proxyProtocol : Bool}
    (hp : remote.protocol = .tcp proxyProtocol) (client : SocketAddr) :
    (execTcp cfg w remote proxyProtocol client).AllLog (·.Reaches restriction remote) := by
  have hfwd : remote.protocol.isReverseTunnel = false := by rw [hp]; rfl
  refine Trace.allLog_bind (Trace.allLog_emit ?_) fun _ _ =>
    Trace.allLog_bind (Trace.allLog_of_log_nil (by simp)) fun conn _ => ?_
  · cases cfg.httpProxy <;> exact ⟨hfwd, rfl, rfl⟩
  · cases proxyProtocol with
    | false => exact Trace.allLog_of_log_nil rfl
    | true =>
      refine Trace.allLog_bind (Trace.allLog_of_log_nil (by simp)) fun localAddr _ =>
        Trace.allLog_bind (Trace.allLog_of_log_nil (by simp)) fun _ _ =>
        Trace.allLog_bind (Trace.allLog_emit hp) fun _ _ => Trace.allLog_of_log_nil rfl

/-- `exec_tunnel` opens or binds nothing but the destination it is given. -/
theorem execTunnel_destination (restriction : RestrictionConfig) (remote : RemoteAddr)
    (client : SocketAddr) :
    (execTunnel cfg w restriction remote client).AllLog (·.Reaches restriction remote) := by
  unfold execTunnel
  split
  case h_1 timeout hp => exact execUdp_reaches cfg w restriction hp
  case h_2 pp hp => exact execTcp_reaches cfg w restriction hp client
  case h_3 hp => exact execReverse_reaches cfg w (by rw [hp]; rfl) (by simp)
  case h_4 hp => exact execReverse_reaches cfg w (by rw [hp]; rfl) (by simp)
  case h_5 hp => exact execReverse_reaches cfg w (by rw [hp]; rfl) (by simp)
  case h_6 hp => exact execReverse_reaches cfg w (by rw [hp]; rfl) (by simp)
  case h_7 path hp =>
    exact Trace.allLog_bind (Trace.allLog_of_log_nil (by simp)) fun bind _ =>
      runListeningServer_reaches cfg w hp
  all_goals exact Trace.allLog_of_log_nil rfl

/-! ## The port a reverse tunnel binds -/

def Effect.bindAddr? : Effect → Option SocketAddr
  | .runListeningServer _ bind _ => some bind
  | _ => none

/-- The addresses listening servers are asked for, in order. -/
def boundAddrs (log : List Effect) : List SocketAddr := log.filterMap Effect.bindAddr?

theorem execReverse_boundAddrs {remote : RemoteAddr} {ip : IpAddr} (hip : remote.host.ip? = some ip)
    (restriction : RestrictionConfig) (listener : Host × UInt16 → Listener) :
    boundAddrs (execReverse cfg w restriction remote listener).log =
      [⟨ip, findMappedPort remote.port restriction⟩] := by
  unfold execReverse
  rw [Trace.bind_of_ok (Trace.ofExcept_result _ |>.trans (tryToSockAddr_ip _ hip)), Trace.ofExcept_log,
    List.nil_append, runListeningServer_log]
  rfl

theorem execTunnel_boundAddrs {remote : RemoteAddr} {ip : IpAddr} (hip : remote.host.ip? = some ip)
    (hrev : remote.protocol.isReverseTunnel = true)
    (hu : ∀ path, remote.protocol ≠ .reverseUnix path) (restriction : RestrictionConfig)
    (client : SocketAddr) :
    boundAddrs (execTunnel cfg w restriction remote client).log =
      [⟨ip, findMappedPort remote.port restriction⟩] := by
  unfold execTunnel
  cases hp : remote.protocol with
  | reverseTcp | reverseUdp | reverseSocks5 | reverseHttpProxy =>
    exact execReverse_boundAddrs cfg w hip restriction _
  | reverseUnix path => exact absurd hp (hu path)
  | _ => rw [hp] at hrev; cases hrev

/-- An admitted reverse tunnel other than a unix one binds an IP address. -/
theorem ip_of_validateTunnel {M : Matchers} {remote : RemoteAddr} {pathPrefix : String}
    {auth : Option String} {rules : RestrictionsRules} {r : RestrictionConfig}
    (hv : validateTunnel M remote pathPrefix auth rules = some r)
    (hrev : remote.protocol.isReverseTunnel = true)
    (hu : ∀ path, remote.protocol ≠ .reverseUnix path) : ∃ ip, remote.host.ip? = some ip := by
  obtain ⟨_, _, _, hadm, _⟩ := (validateTunnel_eq_some M).mp hv
  obtain ⟨e, _, hallow⟩ := hadm.allowed
  cases e with
  | tunnel c =>
    have := ((c.isAllowed_iff M remote).mp hallow).1
    rw [hrev] at this; cases this
  | reverseTunnel c =>
    obtain ⟨-, -, -, ip, hip, -⟩ := (c.isAllowed_iff M hu).mp hallow
    exact ⟨ip, hip⟩

/-- **Bound port.** A reverse tunnel that `validate_tunnel` admits through `r`
binds one address, and the port of that address follows the mappings of the
entries that admit the tunnel exactly when every refusing entry that comes
to map the port agrees with them. -/
theorem execTunnel_boundPort_iff (M : Matchers) {remote : RemoteAddr} {pathPrefix : String}
    {auth : Option String} {rules : RestrictionsRules} {r : RestrictionConfig}
    (hv : validateTunnel M remote pathPrefix auth rules = some r)
    (hrev : remote.protocol.isReverseTunnel = true)
    (hu : ∀ path, remote.protocol ≠ .reverseUnix path) (client : SocketAddr) :
    (∃ addr, boundAddrs (execTunnel cfg w r remote client).log = [addr] ∧
      PortRule M remote r addr.port) ↔ RefusingAgree M remote r.allow := by
  obtain ⟨ip, hip⟩ := ip_of_validateTunnel hv hrev hu
  rw [execTunnel_boundAddrs cfg w hip hrev hu, ← portRule_iff]
  refine ⟨?_, ?_⟩
  · intro ⟨addr, haddr, hrule⟩
    obtain rfl := List.singleton_inj.mp haddr
    exact hrule
  · exact fun hrule => ⟨_, rfl, hrule⟩

/-- A rule whose first entry is for socks5 on the lan and maps port 10001,
and whose second admits any tcp tunnel on that port. -/
def socksThenTcp : RestrictionConfig where
  name := "lan"
  matchers := [.any]
  allow := [
    .reverseTunnel ⟨[.socks5], [], [(10001, 8080)], [lanNet], defaultHost⟩,
    .reverseTunnel ⟨[.tcp], [⟨10001, 10001⟩], [], defaultCidr, defaultHost⟩]

def tcpOn10001 : RemoteAddr := ⟨.reverseTcp, .ipv4 0x7F000001, 10001⟩

/-- A network where every call succeeds. -/
def quietWorld : World where
  resolver _ := none
  connect _ := .ok ⟨0, .ok ⟨.v4 0x7F000001, 50000⟩⟩
  headerBuilds _ _ := .ok ()
  accepted _ _ := .ok (⟨0, .ok ⟨.v4 0x7F000001, 50000⟩⟩, tcpOn10001)
  pathHash _ := 0

def plainConfig : WsServerConfig := ⟨none, 0, none⟩

/-- A rule with one tcp entry that maps the port it admits. -/
def tcpMapped : RestrictionConfig :=
  ⟨"tcp", [.any], [.reverseTunnel ⟨[.tcp], [], [(10001, 8080)], defaultCidr, defaultHost⟩]⟩

/-- With no refusing entry the mapping is the admitting entry's. -/
theorem execTunnel_boundPort_tcpMapped :
    validateTunnel anchoredMatchers tcpOn10001 "any" none ⟨[tcpMapped]⟩ = some tcpMapped ∧
      ∃ addr, boundAddrs (execTunnel plainConfig quietWorld tcpMapped tcpOn10001 ⟨.v4 0, 0⟩).log =
        [addr] ∧ PortRule anchoredMatchers tcpOn10001 tcpMapped addr.port := by
  have hv : validateTunnel anchoredMatchers tcpOn10001 "any" none ⟨[tcpMapped]⟩ = some tcpMapped := by
    decide
  refine ⟨hv, (execTunnel_boundPort_iff plainConfig quietWorld anchoredMatchers hv rfl
    (fun _ h => by cases h) ⟨.v4 0, 0⟩).mpr ?_⟩
  intro before e after t hl href hmap hb
  have hall : ∀ x ∈ tcpMapped.allow, x.isAllowed anchoredMatchers tcpOn10001 = true := by decide
  rw [hall e (by rw [hl]; simp)] at href
  cases href

/-- The tcp tunnel is admitted by the second entry and bound to the port the
first, which refuses it, maps. -/
theorem socksThenTcp_binds_8080 :
    validateTunnel anchoredMatchers tcpOn10001 "any" none ⟨[socksThenTcp]⟩ = some socksThenTcp ∧
      (∀ path, tcpOn10001.protocol ≠ .reverseUnix path) ∧
      boundAddrs (execTunnel plainConfig quietWorld socksThenTcp tcpOn10001
        ⟨.v4 0, 0⟩).log = [⟨.v4 0x7F000001, 8080⟩] ∧
      ¬ PortRule anchoredMatchers tcpOn10001 socksThenTcp 8080 := by
  refine ⟨by decide, fun _ => LocalProtocol.noConfusion, by decide, fun h => ?_⟩
  have := h.refused [.reverseTunnel ⟨[.tcp], [⟨10001, 10001⟩], [], defaultCidr, defaultHost⟩]
    ⟨.cons _ (.refl _), by decide⟩
  revert this
  decide

end Wstunnel.L3
