import Wstunnel.Core.AssocMap
import Wstunnel.Core.LTS
import Wstunnel.Core.Notify

/-!
# The shared UDP socket

`run_server` and `UdpStream` of `protocols/udp/server.rs`. Every stream reads
from the one socket of the server. Two `Notify` per stream decide whose turn
it is: the server peeks the sender of the next datagram, notifies that peer's
stream (or creates it) and waits until the stream says it has read.

The steps of the server, of every stream's `poll_read` and of every stream's
drop interleave, with datagrams arriving and watchdogs firing at any time. A
stream whose `poll_read` returned an error is only dropped.

**Third-party code.** `Notify` of `tokio` is that of `Core.Notify`. The socket keeps
its datagrams in the order of arrival: `peek_sender` shows the sender of the first
one without taking it, `recv_from` takes that one. Any of these may fail.

**Results.**
* `pollRead_own_peer`: every datagram a stream reads was sent by its peer.

The invariant (`Inv`) says that at most one stream has the turn: the one the
server waits for. Only that stream gets to the socket, and only while the
datagram at its head is from its peer.
-/
namespace Wstunnel.L5.Udp

/-- Where a stream is: `polling` to `signalling` are the points inside
`poll_read`, `pushed` and `disarmed` those inside the drop. -/
inductive StreamPc where
  | idle
  | polling
  | reading
  | rearm
  | enabling
  | signalling
  | errored
  | pushed
  | disarmed
  | gone
  deriving DecidableEq, Repr

/-- The stream will not be polled again. -/
def StreamPc.dead : StreamPc → Bool
  | .errored | .pushed | .disarmed | .gone => true
  | _ => false

/-- A stream with its `IoInner`. `pending_notification` is the `Notified` of
`hasDataToRead`; the `Notified` of `hasReadData` is the server's.
mirrors wstunnel/src/protocols/udp/server.rs:30-33 and 105-118 -/
structure Stream (A : Type) where
  peer : A
  dataReadBeforeDeadline : Bool
  hasDataToRead : Notify
  hasReadData : Notify
  pc : StreamPc
  deriving DecidableEq, Repr

/-- `UdpStream::new`, and the `notify_waiters` that follows it.
mirrors wstunnel/src/protocols/udp/server.rs:136-167 and 292 -/
def Stream.new {A : Type} (peer : A) : Stream A where
  peer := peer
  dataReadBeforeDeadline := false
  hasDataToRead := Notify.new.notified.notifyWaiters
  hasReadData := Notify.new
  pc := .idle

/-- Where the server's closure is. `yielded` is before its first line, with
the peer it was called with; `top` is the head of the loop. -/
inductive ServerPc (A : Type) where
  | yielded (peerWithData : Option A)
  | waitRead (io : Nat)
  | top
  | peek
  | found (peer : A)
  | signalled (io : Nat)
  | closed
  deriving DecidableEq, Repr

/-- `queue` is the socket's, with the sender of each datagram; `peers` maps
to the index of the stream; `reads` logs what each stream has read. -/
structure State (A B : Type) where
  queue : List (A × B)
  streams : List (Stream A)
  peers : List (A × Nat)
  keysToDelete : List A
  server : ServerPc A
  reads : List (Nat × A × B)
  deriving DecidableEq, Repr

inductive ServerLabel where
  | resume
  | wake
  | clean
  | peek
  | peekErr
  | dispatch (sendSocketOk : Bool)
  | wait
  | close
  deriving DecidableEq, Repr

inductive StreamLabel where
  | pollStart (tick : Bool)
  | pollNotified
  | recv
  | recvPending
  | recvErr
  | rearm
  | enable
  | signal
  | dropPush
  | dropDisarm
  | dropSignal
  deriving DecidableEq, Repr

inductive Label (A B : Type) where
  | arrive (peer : A) (payload : B)
  | server (l : ServerLabel)
  | stream (i : Nat) (l : StreamLabel)
  deriving DecidableEq, Repr

variable {A B : Type}

def State.updStream (s : State A B) (i : Nat) (f : Stream A → Stream A) : State A B :=
  { s with streams := s.streams.modify i f }

section Steps
variable [DecidableEq A]

/-- The closure of `run_server`. A server that is dropped or returns `None`
drops its `Notified` and the map.
mirrors wstunnel/src/protocols/udp/server.rs:86-99 and 260-298 -/
def serverStep (s : State A B) : ServerLabel → Option (State A B)
  | .resume => match s.server with
    | .yielded p => match p.bind fun a => s.peers.lookup a with
      | some io => some { s.updStream io fun st =>
          { st with hasReadData := st.hasReadData.notified } with server := .waitRead io }
      | none => some { s with server := .top }
    | _ => none
  | .wake => match s.server with
    | .waitRead io => (s.streams[io]?).map fun st =>
        if st.hasReadData.poll.1 then
          { s.updStream io fun st => { st with hasReadData := st.hasReadData.poll.2.drop } with
            server := .top }
        else s.updStream io fun st => { st with hasReadData := st.hasReadData.poll.2 }
    | _ => none
  | .clean =>
    if s.server = .top then
      some { s with
        peers := s.peers.filter fun e => !s.keysToDelete.contains e.1
        keysToDelete := []
        server := .peek }
    else none
  | .peek => match s.server, s.queue with
    | .peek, (a, _) :: _ => some { s with server := .found a }
    | _, _ => none
  | .peekErr => if s.server = .peek then some { s with server := .closed, peers := [] } else none
  | .dispatch sendSocketOk => match s.server with
    | .found a => match s.peers.lookup a with
      | some io => some { s.updStream io fun st =>
          { st with hasDataToRead := st.hasDataToRead.notifyOne } with server := .signalled io }
      | none =>
        if sendSocketOk then
          some { s with
            streams := s.streams ++ [Stream.new a]
            peers := AssocMap.insert s.peers a s.streams.length
            server := .yielded (some a) }
        else some { s with server := .closed, peers := [] }
    | _ => none
  | .wait => match s.server with
    | .signalled io => some { s.updStream io fun st =>
        { st with hasReadData := st.hasReadData.notified } with server := .waitRead io }
    | _ => none
  | .close => match s.server with
    | .closed => none
    | .waitRead io => some { s.updStream io fun st =>
        { st with hasReadData := st.hasReadData.drop } with server := .closed, peers := [] }
    | _ => some { s with server := .closed, peers := [] }

/-- A step of `poll_read` or of the drop of stream `i`. `tick`: the watchdog,
if there is one, is due. The key is pushed only while the server holds the
vector.
mirrors wstunnel/src/protocols/udp/server.rs:120-133 and 182-218 -/
def streamStep (cnxTimeout : Option Nat) (s : State A B) (i : Nat) (st : Stream A) :
    StreamLabel → Option (State A B)
  | .pollStart tick =>
    if st.pc = .idle ∧ (tick → cnxTimeout.isSome) then
      if tick ∧ !st.dataReadBeforeDeadline then
        some (s.updStream i fun st => { st with pc := .errored })
      else
        some (s.updStream i fun st =>
          { st with
            dataReadBeforeDeadline := st.dataReadBeforeDeadline && !tick
            pc := .polling })
    else none
  | .pollNotified =>
    if st.pc = .polling then
      if st.hasDataToRead.armed then
        if st.hasDataToRead.poll.1 then
          some (s.updStream i fun st =>
            { st with hasDataToRead := st.hasDataToRead.poll.2.drop, pc := .reading })
        else
          some (s.updStream i fun st =>
            { st with hasDataToRead := st.hasDataToRead.poll.2, pc := .idle })
      else some (s.updStream i fun st => { st with pc := .reading })
    else none
  | .recv => match st.pc, s.queue with
    | .reading, (a, b) :: rest =>
      some { s.updStream i fun st => { st with dataReadBeforeDeadline := true, pc := .rearm } with
        queue := rest
        reads := s.reads ++ [(i, a, b)] }
    | _, _ => none
  | .recvPending =>
    if st.pc = .reading then some (s.updStream i fun st => { st with pc := .idle }) else none
  | .recvErr =>
    if st.pc = .reading then some (s.updStream i fun st => { st with pc := .errored }) else none
  | .rearm =>
    if st.pc = .rearm then
      some (s.updStream i fun st =>
        { st with hasDataToRead := st.hasDataToRead.notified, pc := .enabling })
    else none
  | .enable =>
    if st.pc = .enabling then
      some (s.updStream i fun st =>
        { st with hasDataToRead := st.hasDataToRead.poll.2, pc := .signalling })
    else none
  | .signal =>
    if st.pc = .signalling then
      some (s.updStream i fun st =>
        { st with hasReadData := st.hasReadData.notifyOne, pc := .idle })
    else none
  | .dropPush =>
    if st.pc = .idle ∨ st.pc = .errored then
      some { s.updStream i fun st => { st with pc := .pushed } with
        keysToDelete := if s.server = .closed then s.keysToDelete else s.keysToDelete ++ [st.peer] }
    else none
  | .dropDisarm =>
    if st.pc = .pushed then
      some (s.updStream i fun st =>
        { st with hasDataToRead := st.hasDataToRead.drop, pc := .disarmed })
    else none
  | .dropSignal =>
    if st.pc = .disarmed then
      some (s.updStream i fun st =>
        { st with hasReadData := st.hasReadData.notifyOne, pc := .gone })
    else none

def step (cnxTimeout : Option Nat) (s : State A B) : Label A B → Option (State A B)
  | .arrive a b => some { s with queue := s.queue ++ [(a, b)] }
  | .server l => serverStep s l
  | .stream i l => (s.streams[i]?).bind fun st => streamStep cnxTimeout s i st l

/-- The state before the first poll of the server. -/
def start : State A B := ⟨[], [], [], [], .yielded none, []⟩

def udp (cnxTimeout : Option Nat) : LTS (State A B) (Label A B) :=
  LTS.ofFn (· = start) (step cnxTimeout)

/-! ## What a step can do -/

/-- A step of the server. Every invariant is proved over these cases. -/
inductive ServerMove (s : State A B) : ServerLabel → State A B → Prop where
  | resumeWait {p io} (hsrv : s.server = .yielded p) (hio : (p.bind fun a => s.peers.lookup a) = some io) :
      ServerMove s .resume { s.updStream io fun st =>
        { st with hasReadData := st.hasReadData.notified } with server := .waitRead io }
  | resumeTop {p} (hsrv : s.server = .yielded p) (hio : (p.bind fun a => s.peers.lookup a) = none) :
      ServerMove s .resume { s with server := .top }
  | woken {io st} (hsrv : s.server = .waitRead io) (hi : s.streams[io]? = some st)
      (hp : st.hasReadData.poll.1 = true) : ServerMove s .wake
        { s.updStream io fun st => { st with hasReadData := st.hasReadData.poll.2.drop } with
          server := .top }
  | asleep {io st} (hsrv : s.server = .waitRead io) (hi : s.streams[io]? = some st)
      (hp : st.hasReadData.poll.1 = false) : ServerMove s .wake
        (s.updStream io fun st => { st with hasReadData := st.hasReadData.poll.2 })
  | clean (hsrv : s.server = .top) : ServerMove s .clean { s with
      peers := s.peers.filter fun e => !s.keysToDelete.contains e.1
      keysToDelete := []
      server := .peek }
  | peek {a b rest} (hsrv : s.server = .peek) (hq : s.queue = (a, b) :: rest) :
      ServerMove s .peek { s with server := .found a }
  | peekErr (hsrv : s.server = .peek) : ServerMove s .peekErr { s with server := .closed, peers := [] }
  | notify {a io ok} (hsrv : s.server = .found a) (hio : s.peers.lookup a = some io) :
      ServerMove s (.dispatch ok) { s.updStream io fun st =>
        { st with hasDataToRead := st.hasDataToRead.notifyOne } with server := .signalled io }
  | create {a} (hsrv : s.server = .found a) (hn : s.peers.lookup a = none) :
      ServerMove s (.dispatch true) { s with
        streams := s.streams ++ [Stream.new a]
        peers := AssocMap.insert s.peers a s.streams.length
        server := .yielded (some a) }
  | noSocket {a} (hsrv : s.server = .found a) (hn : s.peers.lookup a = none) :
      ServerMove s (.dispatch false) { s with server := .closed, peers := [] }
  | wait {io} (hsrv : s.server = .signalled io) : ServerMove s .wait { s.updStream io fun st =>
      { st with hasReadData := st.hasReadData.notified } with server := .waitRead io }
  | closeWaiting {io} (hsrv : s.server = .waitRead io) : ServerMove s .close { s.updStream io fun st =>
      { st with hasReadData := st.hasReadData.drop } with server := .closed, peers := [] }
  | close (hsrv : s.server ≠ .closed) : ServerMove s .close { s with server := .closed, peers := [] }

theorem move_of_serverStep {s s' : State A B} {l : ServerLabel} (hs : serverStep s l = some s') :
    ServerMove s l s' := by
  cases l with
  | resume =>
    simp only [serverStep] at hs
    split at hs
    · rename_i p hsrv
      split at hs
      · rename_i io hio
        cases hs
        exact .resumeWait hsrv hio
      · rename_i hio
        cases hs
        exact .resumeTop hsrv hio
    · cases hs
  | wake =>
    simp only [serverStep] at hs
    split at hs
    · rename_i io hsrv
      obtain ⟨st, hi, rfl⟩ := Option.map_eq_some_iff.mp hs
      split
      · rename_i hp
        exact .woken hsrv hi hp
      · rename_i hp
        exact .asleep hsrv hi (eq_false_of_ne_true hp)
    · cases hs
  | clean =>
    simp only [serverStep, Option.ite_none_right_eq_some, Option.some.injEq] at hs
    obtain ⟨hsrv, rfl⟩ := hs
    exact .clean hsrv
  | peek =>
    simp only [serverStep] at hs
    split at hs
    · rename_i a b rest hsrv hq
      cases hs
      exact .peek hsrv hq
    · cases hs
  | peekErr =>
    simp only [serverStep, Option.ite_none_right_eq_some, Option.some.injEq] at hs
    obtain ⟨hsrv, rfl⟩ := hs
    exact .peekErr hsrv
  | dispatch sendSocketOk =>
    simp only [serverStep] at hs
    split at hs
    · rename_i a hsrv
      split at hs
      · rename_i io hio
        cases hs
        exact .notify hsrv hio
      · rename_i hn
        cases sendSocketOk <;> cases hs
        · exact .noSocket hsrv hn
        · exact .create hsrv hn
    · cases hs
  | wait =>
    simp only [serverStep] at hs
    split at hs
    · rename_i io hsrv
      cases hs
      exact .wait hsrv
    · cases hs
  | close =>
    simp only [serverStep] at hs
    split at hs
    · cases hs
    · rename_i io hsrv
      cases hs
      exact .closeWaiting hsrv
    · rename_i hne _
      cases hs
      exact .close hne

/-- A step of stream `i`, which is `st`. -/
inductive StreamMove (s : State A B) (i : Nat) (st : Stream A) : StreamLabel → State A B → Prop where
  | expired (hpc : st.pc = .idle) :
      StreamMove s i st (.pollStart true) (s.updStream i fun st => { st with pc := .errored })
  | pollStart {tick} (hpc : st.pc = .idle) : StreamMove s i st (.pollStart tick)
      (s.updStream i fun st => { st with
        dataReadBeforeDeadline := st.dataReadBeforeDeadline && !tick
        pc := .polling })
  | ready (hpc : st.pc = .polling) (harm : st.hasDataToRead.armed = true)
      (hp : st.hasDataToRead.poll.1 = true) : StreamMove s i st .pollNotified (s.updStream i fun st =>
        { st with hasDataToRead := st.hasDataToRead.poll.2.drop, pc := .reading })
  | pending (hpc : st.pc = .polling) (harm : st.hasDataToRead.armed = true)
      (hp : st.hasDataToRead.poll.1 = false) : StreamMove s i st .pollNotified (s.updStream i fun st =>
        { st with hasDataToRead := st.hasDataToRead.poll.2, pc := .idle })
  | disarmed (hpc : st.pc = .polling) (harm : st.hasDataToRead.armed = false) :
      StreamMove s i st .pollNotified (s.updStream i fun st => { st with pc := .reading })
  | recv {a b rest} (hpc : st.pc = .reading) (hq : s.queue = (a, b) :: rest) : StreamMove s i st .recv
      { s.updStream i fun st => { st with dataReadBeforeDeadline := true, pc := .rearm } with
        queue := rest
        reads := s.reads ++ [(i, a, b)] }
  | recvPending (hpc : st.pc = .reading) :
      StreamMove s i st .recvPending (s.updStream i fun st => { st with pc := .idle })
  | recvErr (hpc : st.pc = .reading) :
      StreamMove s i st .recvErr (s.updStream i fun st => { st with pc := .errored })
  | rearm (hpc : st.pc = .rearm) : StreamMove s i st .rearm (s.updStream i fun st =>
      { st with hasDataToRead := st.hasDataToRead.notified, pc := .enabling })
  | enable (hpc : st.pc = .enabling) : StreamMove s i st .enable (s.updStream i fun st =>
      { st with hasDataToRead := st.hasDataToRead.poll.2, pc := .signalling })
  | signal (hpc : st.pc = .signalling) : StreamMove s i st .signal (s.updStream i fun st =>
      { st with hasReadData := st.hasReadData.notifyOne, pc := .idle })
  | dropPush (hpc : st.pc = .idle ∨ st.pc = .errored) : StreamMove s i st .dropPush
      { s.updStream i fun st => { st with pc := .pushed } with
        keysToDelete := if s.server = .closed then s.keysToDelete else s.keysToDelete ++ [st.peer] }
  | dropDisarm (hpc : st.pc = .pushed) : StreamMove s i st .dropDisarm (s.updStream i fun st =>
      { st with hasDataToRead := st.hasDataToRead.drop, pc := .disarmed })
  | dropSignal (hpc : st.pc = .disarmed) : StreamMove s i st .dropSignal (s.updStream i fun st =>
      { st with hasReadData := st.hasReadData.notifyOne, pc := .gone })

theorem move_of_streamStep {cnxTimeout : Option Nat} {s s' : State A B} {i : Nat} {st : Stream A}
    {l : StreamLabel} (hs : streamStep cnxTimeout s i st l = some s') : StreamMove s i st l s' := by
  cases l with
  | pollStart tick =>
    simp only [streamStep] at hs
    split at hs
    · rename_i hpc
      split at hs
      · rename_i hdue
        cases hs
        rw [hdue.1]
        exact .expired hpc.1
      · cases hs
        exact .pollStart hpc.1
    · cases hs
  | pollNotified =>
    simp only [streamStep] at hs
    split at hs
    · rename_i hpc
      split at hs
      · rename_i harm
        split at hs
        · rename_i hp
          cases hs
          exact .ready hpc harm hp
        · rename_i hp
          cases hs
          exact .pending hpc harm (eq_false_of_ne_true hp)
      · rename_i harm
        cases hs
        exact .disarmed hpc (eq_false_of_ne_true harm)
    · cases hs
  | recv =>
    simp only [streamStep] at hs
    split at hs
    · rename_i hpc hq
      cases hs
      exact .recv hpc hq
    · cases hs
  | recvPending =>
    simp only [streamStep, Option.ite_none_right_eq_some, Option.some.injEq] at hs
    obtain ⟨hpc, rfl⟩ := hs
    exact .recvPending hpc
  | recvErr =>
    simp only [streamStep, Option.ite_none_right_eq_some, Option.some.injEq] at hs
    obtain ⟨hpc, rfl⟩ := hs
    exact .recvErr hpc
  | rearm =>
    simp only [streamStep, Option.ite_none_right_eq_some, Option.some.injEq] at hs
    obtain ⟨hpc, rfl⟩ := hs
    exact .rearm hpc
  | enable =>
    simp only [streamStep, Option.ite_none_right_eq_some, Option.some.injEq] at hs
    obtain ⟨hpc, rfl⟩ := hs
    exact .enable hpc
  | signal =>
    simp only [streamStep, Option.ite_none_right_eq_some, Option.some.injEq] at hs
    obtain ⟨hpc, rfl⟩ := hs
    exact .signal hpc
  | dropPush =>
    simp only [streamStep, Option.ite_none_right_eq_some, Option.some.injEq] at hs
    obtain ⟨hpc, rfl⟩ := hs
    exact .dropPush hpc
  | dropDisarm =>
    simp only [streamStep, Option.ite_none_right_eq_some, Option.some.injEq] at hs
    obtain ⟨hpc, rfl⟩ := hs
    exact .dropDisarm hpc
  | dropSignal =>
    simp only [streamStep, Option.ite_none_right_eq_some, Option.some.injEq] at hs
    obtain ⟨hpc, rfl⟩ := hs
    exact .dropSignal hpc

end Steps

/-! ## Whose turn it is -/

/-- The sender of the datagram at the head of the socket. -/
def State.head (s : State A B) : Option A := s.queue.head?.map (·.1)

/-- The stream the server has notified or created, and waits for. -/
def State.turn [DecidableEq A] (s : State A B) : Option Nat :=
  match s.server with
  | .yielded p => p.bind fun a => s.peers.lookup a
  | .signalled io | .waitRead io => some io
  | _ => none

def State.peerOf (s : State A B) (i : Nat) : Option A := (s.streams[i]?).map (·.peer)

/-- The stream gets to the socket: it is there, or its `Notified` is gone, or
the next poll of it completes. -/
def Stream.Authorised (st : Stream A) : Prop :=
  (st.pc = .idle ∨ st.pc = .polling) ∧ st.hasDataToRead.armed = true ∧
      st.hasDataToRead.signals = 1 ∨
    (st.pc = .idle ∨ st.pc = .polling ∨ st.pc = .reading) ∧ st.hasDataToRead.armed = false ∧
      st.hasDataToRead.signals = 0

/-- Inside `poll_read`, after the datagram was taken. -/
def Stream.HasRead (st : Stream A) : Prop :=
  st.hasDataToRead.signals = 0 ∧ (st.pc = .rearm ∨
    (st.pc = .enabling ∨ st.pc = .signalling) ∧ st.hasDataToRead.armed = true)

/-- What holds of stream `i`, given the stream that has the turn and the
sender at the head of the socket. -/
inductive StreamOk (turn : Option Nat) (head : Option A) (i : Nat) (st : Stream A) : Prop where
  | dead (h : st.pc.dead = true)
  | waiting (hpc : st.pc = .idle ∨ st.pc = .polling) (harmed : st.hasDataToRead.armed = true)
      (hdata : st.hasDataToRead.signals = 0)
      (hread : st.hasReadData.signals = 0 ∨ turn = some i ∧ st.hasReadData.signals = 1)
  | toRead (hturn : turn = some i) (hread : st.hasReadData.signals = 0)
      (hhead : head = some st.peer) (h : st.Authorised)
  | hasRead (hturn : turn = some i) (hread : st.hasReadData.signals = 0) (h : st.HasRead)

/-- A server that is gone has left the turn where it was. -/
structure Inv [DecidableEq A] (turn : Option Nat) (s : State A B) : Prop where
  streams : ∀ i st, s.streams[i]? = some st → StreamOk turn s.head i st
  turn : s.server ≠ .closed → turn = s.turn
  found : ∀ a, s.server = .found a → s.head = some a
  peers : ∀ e ∈ s.peers, s.peerOf e.2 = some e.1
  reads : ∀ r ∈ s.reads, s.peerOf r.1 = some r.2.1

/-- A stream that has not the turn relies on neither turn nor head. -/
theorem StreamOk.of_ne {turn turn' : Option Nat} {head head' : Option A} {i : Nat} {st : Stream A}
    (h : StreamOk turn head i st) (hne : turn ≠ some i) : StreamOk turn' head' i st := by
  cases h with
  | dead h => exact .dead h
  | waiting hpc harmed hdata hread =>
    exact .waiting hpc harmed hdata (hread.imp_right fun h => absurd h.1 hne)
  | toRead hturn => exact absurd hturn hne
  | hasRead hturn => exact absurd hturn hne

/-- The server touches only its own `Notified`, and no signal is added. -/
theorem StreamOk.readData {turn : Option Nat} {head : Option A} {i : Nat} {st : Stream A}
    (h : StreamOk turn head i st) {n : Notify} (hn : n.signals ≤ st.hasReadData.signals) :
    StreamOk turn head i { st with hasReadData := n } := by
  cases h with
  | dead h => exact .dead h
  | waiting hpc harmed hdata hread =>
    refine .waiting hpc harmed hdata ?_
    by_cases h0 : n.signals = 0
    · exact .inl h0
    · rcases hread with hread | ⟨hturn, hread⟩
      · omega
      · exact .inr ⟨hturn, show n.signals = 1 by omega⟩
  | toRead hturn hread hhead h => exact .toRead hturn (show n.signals = 0 by omega) hhead h
  | hasRead hturn hread h => exact .hasRead hturn (show n.signals = 0 by omega) h

theorem peerOf_updStream (s : State A B) {i : Nat} {f : Stream A → Stream A}
    (hf : ∀ st, (f st).peer = st.peer) (j : Nat) : (s.updStream i f).peerOf j = s.peerOf j := by
  simp only [State.peerOf, State.updStream, List.getElem?_modify, Option.map_eq_map, Option.map_map]
  congr 1
  funext st
  by_cases h : i = j
  · simp [h, hf]
  · simp [h]

/-- A step of one stream that leaves socket, server and map alone. -/
theorem inv_updStream [DecidableEq A] {turn : Option Nat} {s : State A B} {i : Nat}
    {f : Stream A → Stream A} (h : Inv turn s) (hf : ∀ st, (f st).peer = st.peer)
    (hok : ∀ st, s.streams[i]? = some st → StreamOk turn s.head i st →
      StreamOk turn s.head i (f st)) : Inv turn (s.updStream i f) where
  streams := LTS.forall_modify h.streams hok fun _ _ _ h => h
  turn := h.turn
  found := h.found
  peers e he := (peerOf_updStream s hf _).trans (h.peers e he)
  reads r hr := (peerOf_updStream s hf _).trans (h.reads r hr)

/-! ## Steps of a stream -/

section StreamSteps
variable {turn : Option Nat} {head : Option A} {i : Nat} {st : Stream A}

/-- Between polls, or before the poll of the `Notified`: the stream waits for
its turn or has it. -/
theorem StreamOk.between (h : StreamOk turn head i st) (hpc : st.pc = .idle ∨ st.pc = .polling) :
    (st.hasDataToRead.armed = true ∧ st.hasDataToRead.signals = 0 ∧
      (st.hasReadData.signals = 0 ∨ turn = some i ∧ st.hasReadData.signals = 1)) ∨
    (turn = some i ∧ st.hasReadData.signals = 0 ∧ head = some st.peer ∧
      (st.hasDataToRead.armed = true ∧ st.hasDataToRead.signals = 1 ∨
        st.hasDataToRead.armed = false ∧ st.hasDataToRead.signals = 0)) := by
  cases h with
  | dead h => rcases hpc with hpc | hpc <;> rw [hpc] at h <;> cases h
  | waiting _ harmed hdata hread => exact .inl ⟨harmed, hdata, hread⟩
  | toRead hturn hread hhead h =>
    exact .inr ⟨hturn, hread, hhead, h.imp (fun h => h.2) fun h => h.2⟩
  | hasRead _ _ h =>
    rcases h with ⟨-, h | ⟨h | h, -⟩⟩ <;> rw [h] at hpc <;> simp at hpc

/-- At the socket. -/
theorem StreamOk.reading (h : StreamOk turn head i st) (hpc : st.pc = .reading) :
    turn = some i ∧ st.hasReadData.signals = 0 ∧ head = some st.peer ∧
      st.hasDataToRead.armed = false ∧ st.hasDataToRead.signals = 0 := by
  cases h with
  | dead h => rw [hpc] at h; cases h
  | waiting h => rw [hpc] at h; simp at h
  | toRead hturn hread hhead h =>
    rcases h with ⟨h, -⟩ | ⟨-, h⟩
    · rw [hpc] at h; simp at h
    · exact ⟨hturn, hread, hhead, h⟩
  | hasRead _ _ h => rcases h with ⟨-, h | ⟨h | h, -⟩⟩ <;> rw [hpc] at h <;> cases h

/-- After the datagram was taken. -/
theorem StreamOk.afterRead (h : StreamOk turn head i st)
    (hpc : st.pc = .rearm ∨ st.pc = .enabling ∨ st.pc = .signalling) :
    turn = some i ∧ st.hasReadData.signals = 0 ∧ st.HasRead := by
  cases h with
  | dead h => rcases hpc with hpc | hpc | hpc <;> rw [hpc] at h <;> cases h
  | waiting h => rcases hpc with hpc | hpc | hpc <;> rw [hpc] at h <;> simp at h
  | toRead _ _ _ h =>
    rcases h with ⟨h, -⟩ | ⟨h, -⟩ <;> rcases hpc with hpc | hpc | hpc <;> rw [hpc] at h <;>
      simp at h
  | hasRead hturn hread h => exact ⟨hturn, hread, h⟩

/-- A poll starts and stops short of the `Notified`. -/
theorem StreamOk.move (h : StreamOk turn head i st) {pc : StreamPc} {read : Bool}
    (hpc : st.pc = .idle ∨ st.pc = .polling) (hpc' : pc = .idle ∨ pc = .polling) :
    StreamOk turn head i { st with dataReadBeforeDeadline := read, pc } := by
  rcases h.between hpc with ⟨harmed, hdata, hread⟩ | ⟨hturn, hread, hhead, h⟩
  · exact .waiting hpc' harmed hdata hread
  · refine .toRead hturn hread hhead ?_
    rcases h with h | h
    · exact .inl ⟨hpc', h⟩
    · exact .inr ⟨hpc'.imp_right .inl, h⟩

theorem StreamOk.pollReady (h : StreamOk turn head i st) (hpc : st.pc = .polling)
    (harm : st.hasDataToRead.armed = true) (hp : st.hasDataToRead.poll.1 = true) :
    StreamOk turn head i
      { st with hasDataToRead := st.hasDataToRead.poll.2.drop, pc := .reading } := by
  have hsig := Notify.poll_ready hp
  rcases h.between (.inr hpc) with ⟨-, hdata, -⟩ | ⟨hturn, hread, hhead, h⟩
  · omega
  · refine .toRead hturn hread hhead (.inr ⟨.inr (.inr rfl), Notify.armed_drop _, ?_⟩)
    rcases h with ⟨-, h1⟩ | ⟨harm', -⟩
    · exact Notify.signals_drop_poll hp (by omega)
    · rw [harm] at harm'; cases harm'

theorem StreamOk.pollPending (h : StreamOk turn head i st) (hpc : st.pc = .polling)
    (harm : st.hasDataToRead.armed = true) (hp : st.hasDataToRead.poll.1 = false) :
    StreamOk turn head i { st with hasDataToRead := st.hasDataToRead.poll.2, pc := .idle } := by
  have hsig := Notify.signals_poll_pending hp
  have harm₂ : st.hasDataToRead.poll.2.armed = true := (Notify.armed_poll _).trans harm
  rcases h.between (.inr hpc) with ⟨-, hdata, hread⟩ | ⟨hturn, hread, hhead, h⟩
  · exact .waiting (.inl rfl) harm₂ (hsig.trans hdata) hread
  · rcases h with ⟨-, h1⟩ | ⟨harm', -⟩
    · exact .toRead hturn hread hhead (.inl ⟨.inl rfl, harm₂, hsig.trans h1⟩)
    · rw [harm] at harm'; cases harm'

theorem StreamOk.pollDisarmed (h : StreamOk turn head i st) (hpc : st.pc = .polling)
    (harm : st.hasDataToRead.armed = false) : StreamOk turn head i { st with pc := .reading } := by
  rcases h.between (.inr hpc) with ⟨harm', -⟩ | ⟨hturn, hread, hhead, h⟩
  · rw [harm] at harm'; cases harm'
  · refine .toRead hturn hread hhead (.inr ⟨.inr (.inr rfl), harm, ?_⟩)
    rcases h with ⟨harm', -⟩ | ⟨-, h0⟩
    · rw [harm] at harm'; cases harm'
    · exact h0

theorem StreamOk.recvPending (h : StreamOk turn head i st) (hpc : st.pc = .reading) :
    StreamOk turn head i { st with pc := .idle } := by
  obtain ⟨hturn, hread, hhead, h⟩ := h.reading hpc
  exact .toRead hturn hread hhead (.inr ⟨.inl rfl, h⟩)

/-- The new `Notified` finds no permit: the only `notify_one` the turn came
with was consumed. -/
theorem StreamOk.rearm (h : StreamOk turn head i st) (hpc : st.pc = .rearm) :
    StreamOk turn head i
      { st with hasDataToRead := st.hasDataToRead.notified, pc := .enabling } := by
  obtain ⟨hturn, hread, hdata, -⟩ := h.afterRead (.inl hpc)
  have h0 : st.hasDataToRead.notified.signals = 0 := by
    have := Notify.signals_notified_le st.hasDataToRead
    omega
  exact .hasRead hturn hread ⟨h0, .inr ⟨.inl rfl, rfl⟩⟩

theorem StreamOk.enable (h : StreamOk turn head i st) (hpc : st.pc = .enabling) :
    StreamOk turn head i { st with hasDataToRead := st.hasDataToRead.poll.2, pc := .signalling } := by
  obtain ⟨hturn, hread, hdata, h⟩ := h.afterRead (.inr (.inl hpc))
  have harm : st.hasDataToRead.armed = true := by
    rcases h with h | ⟨-, h⟩
    · rw [hpc] at h; cases h
    · exact h
  have hp : st.hasDataToRead.poll.1 = false := by
    by_contra hp
    have := Notify.poll_ready (Bool.not_eq_false _ ▸ hp)
    omega
  exact .hasRead hturn hread ⟨(Notify.signals_poll_pending hp).trans hdata,
    .inr ⟨.inr rfl, (Notify.armed_poll _).trans harm⟩⟩

theorem StreamOk.signal (h : StreamOk turn head i st) (hpc : st.pc = .signalling) :
    StreamOk turn head i { st with hasReadData := st.hasReadData.notifyOne, pc := .idle } := by
  obtain ⟨hturn, hread, hdata, h⟩ := h.afterRead (.inr (.inr hpc))
  refine .waiting (.inl rfl) ?_ hdata (.inr ⟨hturn, Notify.signals_notifyOne hread⟩)
  rcases h with h | ⟨-, h⟩
  · rw [hpc] at h; cases h
  · exact h

end StreamSteps

variable [DecidableEq A]

/-- A stream takes the datagram at the head. It has the turn, so no other
relies on the head, and the sender is its peer. -/
theorem inv_recv {turn : Option Nat} {s : State A B} {i : Nat} {st : Stream A} {a : A} {b : B}
    {rest : List (A × B)} (h : Inv turn s) (hi : s.streams[i]? = some st) (hpc : st.pc = .reading)
    (hq : s.queue = (a, b) :: rest) :
    Inv turn { s.updStream i fun st => { st with dataReadBeforeDeadline := true, pc := .rearm } with
      queue := rest
      reads := s.reads ++ [(i, a, b)] } := by
  obtain ⟨hturn, hread, hhead, -, hdata⟩ := (h.streams i st hi).reading hpc
  have ha : a = st.peer := by
    rw [State.head, hq] at hhead
    exact Option.some.inj hhead
  have hpeer : ∀ j, (s.updStream i fun st =>
      { st with dataReadBeforeDeadline := true, pc := .rearm }).peerOf j = s.peerOf j :=
    peerOf_updStream s fun _ => rfl
  refine ⟨?_, ?_, ?_, ?_, ?_⟩
  · refine LTS.forall_modify h.streams (fun st' hi' _ => ?_) fun j _ hji h => ?_
    · obtain rfl := Option.some.inj (hi'.symm.trans hi)
      exact .hasRead hturn hread ⟨hdata, .inl rfl⟩
    · exact h.of_ne fun e => hji (Option.some.inj (e.symm.trans hturn))
  · exact h.turn
  · intro a' (hs : s.server = .found a')
    have := h.turn (by rw [hs]; simp)
    rw [State.turn, hs, hturn] at this
    cases this
  · exact fun e he => (hpeer _).trans (h.peers e he)
  · intro r hr
    rcases List.mem_append.mp hr with hr | hr
    · exact (hpeer _).trans (h.reads r hr)
    · obtain rfl := List.mem_singleton.mp hr
      refine (hpeer i).trans ?_
      rw [State.peerOf, hi, ha]
      rfl

theorem streamStep_inv {cnxTimeout : Option Nat} {turn : Option Nat} {s s' : State A B} {i : Nat}
    {st : Stream A} {l : StreamLabel} (h : Inv turn s) (hi : s.streams[i]? = some st)
    (hs : streamStep cnxTimeout s i st l = some s') : Inv turn s' := by
  -- a step that updates only this stream
  have upd : ∀ f : Stream A → Stream A, (∀ st, (f st).peer = st.peer) →
      (StreamOk turn s.head i st → StreamOk turn s.head i (f st)) → Inv turn (s.updStream i f) := by
    intro f hf hok
    refine inv_updStream h hf fun st' hi' => ?_
    obtain rfl := Option.some.inj (hi'.symm.trans hi)
    exact hok
  cases move_of_streamStep hs with
  | expired _ | recvErr _ | dropDisarm _ | dropSignal _ => exact upd _ (fun _ => rfl) fun _ => .dead rfl
  | pollStart hpc => exact upd _ (fun _ => rfl) fun h => h.move (.inl hpc) (.inr rfl)
  | ready hpc harm hp => exact upd _ (fun _ => rfl) fun h => h.pollReady hpc harm hp
  | pending hpc harm hp => exact upd _ (fun _ => rfl) fun h => h.pollPending hpc harm hp
  | disarmed hpc harm => exact upd _ (fun _ => rfl) fun h => h.pollDisarmed hpc harm
  | recv hpc hq => exact inv_recv h hi hpc hq
  | recvPending hpc => exact upd _ (fun _ => rfl) fun h => h.recvPending hpc
  | rearm hpc => exact upd _ (fun _ => rfl) fun h => h.rearm hpc
  | enable hpc => exact upd _ (fun _ => rfl) fun h => h.enable hpc
  | signal hpc => exact upd _ (fun _ => rfl) fun h => h.signal hpc
  | dropPush _ =>
    -- the invariant does not read the keys
    have h1 := upd (fun st => { st with pc := .pushed }) (fun _ => rfl) fun _ => .dead rfl
    exact ⟨h1.streams, h1.turn, h1.found, h1.peers, h1.reads⟩

/-! ## Steps of the server -/

theorem inv_start : Inv none (start : State A B) where
  streams := by simp [start]
  turn := by simp [start, State.turn]
  found := by simp [start]
  peers := by simp [start]
  reads := by simp [start]

theorem inv_arrive {turn : Option Nat} {s : State A B} (h : Inv turn s) (a : A) (b : B) :
    Inv turn { s with queue := s.queue ++ [(a, b)] } := by
  -- a datagram arrives behind the head somebody relies on
  have hhead : ∀ p, s.head = some p →
      ({ s with queue := s.queue ++ [(a, b)] } : State A B).head = some p := by
    intro p hp
    unfold State.head at hp ⊢
    cases hq : s.queue with
    | nil => rw [hq] at hp; cases hp
    | cons d ds => rw [hq] at hp; exact hp
  refine ⟨?_, ?_, ?_, ?_, ?_⟩
  · intro i st hi
    cases h.streams i st hi with
    | dead h => exact .dead h
    | waiting hpc harmed hdata hread => exact .waiting hpc harmed hdata hread
    | toRead hturn hread hh h => exact .toRead hturn hread (hhead _ hh) h
    | hasRead hturn hread h => exact .hasRead hturn hread h
  · exact h.turn
  · exact fun p hp => hhead p (h.found p hp)
  · exact h.peers
  · exact h.reads

/-- The server moves on without touching a stream; the turn stays. -/
theorem Inv.move {turn : Option Nat} {s : State A B} (h : Inv turn s) {pc : ServerPc A}
    {peers : List (A × Nat)} {k : List A} (hpeers : ∀ e ∈ peers, e ∈ s.peers)
    (hturn : pc ≠ .closed →
      turn = ({ s with server := pc, peers, keysToDelete := k } : State A B).turn)
    (hfound : ∀ a, pc = .found a → s.head = some a) :
    Inv turn { s with server := pc, peers, keysToDelete := k } where
  streams := h.streams
  turn := hturn
  found := hfound
  peers e he := h.peers e (hpeers e he)
  reads := h.reads

/-- The server drops everything. -/
theorem Inv.closed {turn : Option Nat} {s : State A B} (h : Inv turn s) :
    Inv turn { s with server := .closed, peers := [] } :=
  h.move (k := s.keysToDelete) (by simp) (by simp) (by simp)

/-- The server works on its `Notified` of stream `io`. -/
theorem Inv.readData {turn : Option Nat} {s : State A B} (h : Inv turn s) (io : Nat)
    {g : Notify → Notify} (hg : ∀ st, s.streams[io]? = some st →
      (g st.hasReadData).signals ≤ st.hasReadData.signals) :
    Inv turn (s.updStream io fun st => { st with hasReadData := g st.hasReadData }) :=
  inv_updStream h (fun _ => rfl) fun st hi hok => hok.readData (hg st hi)

theorem inv_waitRead {turn : Option Nat} {s : State A B} {io : Nat} (h : Inv turn s)
    (hopen : s.server ≠ .closed) (hturn : s.turn = some io) :
    Inv turn { s.updStream io fun st => { st with hasReadData := st.hasReadData.notified } with
      server := .waitRead io } :=
  (h.readData io fun st _ => st.hasReadData.signals_notified_le).move
    (fun _ he => he) (fun _ => (h.turn hopen).trans hturn) (by simp)

/-- The server is let through by a signal. The stream it waited for has
either read, or is gone: nobody has the turn. -/
theorem inv_wake {s : State A B} {io : Nat} {st : Stream A} (h : Inv (some io) s)
    (hi : s.streams[io]? = some st) (hp : st.hasReadData.poll.1 = true) :
    Inv none { s.updStream io fun st =>
      { st with hasReadData := st.hasReadData.poll.2.drop } with server := .top } := by
  have hsig := Notify.poll_ready hp
  have hpeer : ∀ j, (s.updStream io fun st =>
      { st with hasReadData := st.hasReadData.poll.2.drop }).peerOf j = s.peerOf j :=
    peerOf_updStream s fun _ => rfl
  refine ⟨?_, ?_, ?_, ?_, ?_⟩
  · refine LTS.forall_modify h.streams (fun st' hi' hok => ?_) fun j _ hji h => ?_
    · obtain rfl := Option.some.inj (hi'.symm.trans hi)
      cases hok with
      | dead h => exact .dead h
      | waiting hpc harmed hdata hread =>
        exact .waiting hpc harmed hdata (.inl (Notify.signals_drop_poll hp (by omega)))
      | toRead _ hread => omega
      | hasRead _ hread => omega
    · exact h.of_ne fun e => hji (Option.some.inj e).symm
  · exact fun _ => rfl
  · intro a ha
    cases ha
  · exact fun e he => (hpeer _).trans (h.peers e he)
  · exact fun r hr => (hpeer _).trans (h.reads r hr)

/-- The server notifies the stream of the sender at the head: the turn is its. -/
theorem inv_notify {s : State A B} {a : A} {io : Nat} (h : Inv none s) (hs : s.server = .found a)
    (hio : (a, io) ∈ s.peers) : Inv (some io) { s.updStream io fun st =>
      { st with hasDataToRead := st.hasDataToRead.notifyOne } with server := .signalled io } := by
  have hpeer : ∀ j, (s.updStream io fun st =>
      { st with hasDataToRead := st.hasDataToRead.notifyOne }).peerOf j = s.peerOf j :=
    peerOf_updStream s fun _ => rfl
  refine ⟨?_, ?_, ?_, ?_, ?_⟩
  · refine LTS.forall_modify h.streams (fun st hi hok => ?_) fun j _ _ h => h.of_ne (by simp)
    have hp : st.peer = a := by
      have := h.peers _ hio
      rw [State.peerOf, hi] at this
      exact Option.some.inj this
    cases hok with
    | dead h => exact .dead h
    | waiting hpc harmed hdata hread =>
      refine .toRead rfl ?_ ((h.found a hs).trans (congrArg some hp.symm))
        (.inl ⟨hpc, (Notify.armed_notifyOne _).trans harmed, Notify.signals_notifyOne hdata⟩)
      rcases hread with hread | ⟨hturn, -⟩
      · exact hread
      · cases hturn
    | toRead hturn => cases hturn
    | hasRead hturn => cases hturn
  · exact fun _ => rfl
  · intro a' ha
    cases ha
  · exact fun e he => (hpeer _).trans (h.peers e he)
  · exact fun r hr => (hpeer _).trans (h.reads r hr)

/-- The server creates the stream of the sender at the head, with the turn. -/
theorem inv_create {s : State A B} {a : A} (h : Inv none s) (hs : s.server = .found a) :
    Inv (some s.streams.length) { s with
      streams := s.streams ++ [Stream.new a]
      peers := AssocMap.insert s.peers a s.streams.length
      server := .yielded (some a) } := by
  have hold : ∀ j p, s.peerOf j = some p → (s.streams ++ [Stream.new a])[j]?.map (·.peer) = some p := by
    intro j p hp
    obtain ⟨st, hj, rfl⟩ := Option.map_eq_some_iff.mp hp
    have hlt := (List.getElem?_eq_some_iff.mp hj).1
    rw [List.getElem?_append_left hlt, hj]
    rfl
  refine ⟨?_, ?_, ?_, ?_, ?_⟩
  · intro i st hi
    simp only at hi
    by_cases hlt : i < s.streams.length
    · rw [List.getElem?_append_left hlt] at hi
      exact (h.streams i st hi).of_ne (by simp)
    · rw [List.getElem?_append_right (by omega), List.getElem?_singleton] at hi
      split at hi
      · cases hi
        obtain rfl : i = s.streams.length := by omega
        exact .toRead rfl rfl (h.found a hs) (.inl ⟨.inl rfl, rfl, rfl⟩)
      · cases hi
  · exact fun _ => (AssocMap.lookup_insert_self s.peers a s.streams.length).symm
  · intro a' ha
    cases ha
  · intro e he
    rcases AssocMap.mem_insert.mp he with rfl | he
    · simp [State.peerOf, Stream.new]
    · exact hold _ _ (h.peers e (AssocMap.mem_erase.mp he).1)
  · exact fun r hr => hold _ _ (h.reads r hr)

theorem serverStep_inv {turn : Option Nat} {s s' : State A B} {l : ServerLabel} (h : Inv turn s)
    (hs : serverStep s l = some s') : ∃ turn', Inv turn' s' := by
  -- where the server stands says whose turn it is
  have turnAt : ∀ pc, s.server = pc → pc ≠ .closed → turn = s.turn := fun pc hsrv hne =>
    h.turn (hsrv ▸ hne)
  cases move_of_serverStep hs with
  | resumeWait hsrv hio =>
    refine ⟨turn, inv_waitRead h (by simp [hsrv]) ?_⟩
    rw [State.turn, hsrv]
    exact hio
  | resumeTop hsrv hio =>
    refine ⟨turn, h.move (fun _ he => he) (fun _ => ?_) (by simp)⟩
    rw [turnAt _ hsrv (by simp), State.turn, hsrv]
    exact hio
  | @woken io st hsrv hi hp =>
    have hturn : turn = some io := by rw [turnAt _ hsrv (by simp), State.turn, hsrv]
    exact ⟨none, inv_wake (hturn ▸ h) hi hp⟩
  | @asleep io st hsrv hi hp =>
    refine ⟨turn, h.readData io (g := fun n => n.poll.2) fun st' hi' => ?_⟩
    obtain rfl := Option.some.inj (hi'.symm.trans hi)
    exact Nat.le_of_eq (Notify.signals_poll_pending hp)
  | clean hsrv =>
    refine ⟨turn, h.move (fun e he => (List.mem_filter.mp he).1) (fun _ => ?_) (by simp)⟩
    rw [turnAt _ hsrv (by simp), State.turn, hsrv]
    rfl
  | peek hsrv hq =>
    refine ⟨turn, h.move (fun _ he => he) (fun _ => ?_) fun a' ha => ?_⟩
    · rw [turnAt _ hsrv (by simp), State.turn, hsrv]
      rfl
    · cases ha
      rw [State.head, hq]
      rfl
  | notify hsrv hio =>
    have hturn : turn = none := by rw [turnAt _ hsrv (by simp), State.turn, hsrv]
    exact ⟨_, inv_notify (hturn ▸ h) hsrv (AssocMap.mem_of_lookup hio)⟩
  | create hsrv _ =>
    have hturn : turn = none := by rw [turnAt _ hsrv (by simp), State.turn, hsrv]
    exact ⟨_, inv_create (hturn ▸ h) hsrv⟩
  | wait hsrv => exact ⟨turn, inv_waitRead h (by simp [hsrv]) (by rw [State.turn, hsrv])⟩
  | closeWaiting _ => exact ⟨turn, (h.readData _ fun st _ => st.hasReadData.signals_drop_le).closed⟩
  | peekErr _ | noSocket _ _ | close _ => exact ⟨turn, h.closed⟩

theorem inv_inductive (cnxTimeout : Option Nat) :
    (udp cnxTimeout : LTS (State A B) (Label A B)).Inductive fun s => ∃ turn, Inv turn s where
  init s hs := ⟨none, by rw [show s = start from hs]; exact inv_start⟩
  step s l s' h hs := by
    obtain ⟨turn, h⟩ := h
    have hs : step cnxTimeout s l = some s' := hs
    cases l with
    | arrive a b => cases hs; exact ⟨turn, inv_arrive h a b⟩
    | server l => exact serverStep_inv h hs
    | stream i l =>
      obtain ⟨st, hi, hs⟩ := Option.bind_eq_some_iff.mp hs
      exact ⟨turn, streamStep_inv h hi hs⟩

/-- **Sender isolation.** However arrivals, server steps, polls, watchdogs and
drops interleave, every datagram a stream has read was sent by its own peer. -/
theorem pollRead_own_peer (cnxTimeout : Option Nat) (s : State A B)
    (h : (udp cnxTimeout).Reachable s) (i : Nat) (sender : A) (payload : B)
    (hr : (i, sender, payload) ∈ s.reads) :
    ∃ st, s.streams[i]? = some st ∧ st.peer = sender := by
  obtain ⟨turn, hinv⟩ := (inv_inductive cnxTimeout).reachable s h
  exact Option.map_eq_some_iff.mp (hinv.reads _ hr)

/-- A whole `poll_read` of stream `i`, from notified to read. -/
def readOnce (i : Nat) : List (Label Nat Nat) :=
  [.pollStart false, .pollNotified, .recv, .rearm, .enable, .signal].map (.stream i)

/-- Two peers interleaved: the third datagram is peer 1's again, while the
stream of peer 2 is being dropped. -/
def twoPeers : List (Label Nat Nat) :=
  [.arrive 1 10, .arrive 2 20, .server .resume, .server .clean, .server .peek,
    .server (.dispatch true)] ++ readOnce 0 ++
  [.server .resume, .server .wake, .server .clean, .server .peek, .server (.dispatch true)] ++
  readOnce 1 ++
  [.arrive 1 11, .stream 1 .dropPush, .server .resume, .server .wake, .server .clean,
    .stream 1 .dropDisarm, .server .peek, .server (.dispatch true), .stream 1 .dropSignal,
    .server .wait] ++ readOnce 0

theorem pollRead_twoPeers :
    ∃ s : State Nat Nat, (udp (some 30)).Reachable s ∧ (0, 1, 11) ∈ s.reads ∧
      ∃ st, s.streams[0]? = some st ∧ st.peer = 1 := by
  obtain ⟨s, hs, hr⟩ : ∃ s : State Nat Nat, LTS.exec (step (some 30)) start twoPeers = some s ∧
      (0, 1, 11) ∈ s.reads := ⟨_, rfl, by decide⟩
  have hreach : (udp (some 30)).Reachable s := ⟨start, twoPeers, rfl, LTS.run_ofFn.mpr hs⟩
  exact ⟨s, hreach, hr, pollRead_own_peer (some 30) s hreach 0 1 11 hr⟩

end Wstunnel.L5.Udp
