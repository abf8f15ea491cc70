import Mathlib.Data.List.Nodup
import Wstunnel.Core.LTS

/-!
# The transports of a client

A transport is a connection to the server, plain or with TLS. `hyper` speaks
HTTP over it until the upgrade; after that the frames of the tunnel go over the
same connection. What `hyper` had read too much comes back as a buffer, which
the read half hands out first.

**Third-party code.** That TLS and TCP deliver the bytes in order is part of `Socket`;
a read may be shorter than what is there. Of `hyper` it is assumed that it finds the
end of a head where the bytes behind it cannot move it (`HeadParser.stable`) and gives
back what it had read too much. What `bb8` does is described by the steps of the pool.

**Results.**
* `pollRead_refines`: a read half with a buffer is a connection on which the
  bytes of the buffer are still to be read.
* `upgrade_lossless`: however the bytes arrive and however they are asked for,
  the tunnel reads what came behind the head of the response, all of it and
  nothing else, and sees the end of the stream only behind the last byte.
* `transports_used_once`: transports come out of a pool. Over any interleaving
  `take().unwrap()` finds one, no transport is given to two tunnels, and none
  that was used goes back; the bound of the pool is on handshakes, not on tunnels.
-/
namespace Wstunnel.L3.TransportStream

abbrev Bytes := List UInt8

/-! ## The read half -/

/-- The receiving side of a connection: what arrived and was not read, and
whether the peer has closed. -/
structure Socket where
  arrived : Bytes
  closed : Bool
  deriving DecidableEq, Repr

inductive Polled where
  | pending
  | ready (data : Bytes)
  deriving DecidableEq, Repr

/-- A read into `remaining` bytes of buffer; the read may be shorter than what
is there, by `short`, but not empty. -/
def Socket.pollRead (s : Socket) (remaining short : Nat) : Polled × Socket :=
  if remaining = 0 then (.ready [], s)
  else if s.arrived = [] then (if s.closed then .ready [] else .pending, s)
  else
    let n := min remaining (short + 1)
    (.ready (s.arrived.take n), { s with arrived := s.arrived.drop n })

inductive Kind where
  | plain | tls | tlsSrv
  deriving DecidableEq, Repr

/-- mirrors wstunnel/src/tunnel/client/l4_transport_stream.rs:54-58 -/
structure ReadHalf where
  kind : Kind
  cnx : Socket
  readBuf : Bytes
  deriving DecidableEq, Repr

/-- mirrors wstunnel/src/tunnel/client/l4_transport_stream.rs:40-47 -/
def ReadHalf.from (h : ReadHalf) (readBuf : Bytes) : ReadHalf := { h with readBuf }

/-- mirrors wstunnel/src/tunnel/client/l4_transport_stream.rs:116-135 -/
def ReadHalf.pollRead (h : ReadHalf) (remaining short : Nat) : Polled × ReadHalf :=
  if h.readBuf = [] then
    let (polled, cnx) := h.cnx.pollRead remaining short
    (polled, { h with cnx })
  else
    let copyLen := min h.readBuf.length remaining
    (.ready (h.readBuf.take copyLen), { h with readBuf := h.readBuf.drop copyLen })

/-- The connection on which the buffer is still to be read. -/
def ReadHalf.whole (h : ReadHalf) : Socket := { h.cnx with arrived := h.readBuf ++ h.cnx.arrived }

/-- Every read of the half is one of that connection. -/
theorem pollRead_refines (h : ReadHalf) (remaining short : Nat) : ∃ short',
    h.whole.pollRead remaining short' =
      ((h.pollRead remaining short).1, (h.pollRead remaining short).2.whole) := by
  unfold ReadHalf.pollRead
  by_cases hbuf : h.readBuf = []
  · refine ⟨short, ?_⟩
    simp only [hbuf, if_true, ReadHalf.whole, List.nil_append]
  · rw [if_neg hbuf]
    have hpos : 0 < h.readBuf.length := List.length_pos_iff.mpr hbuf
    rcases Nat.eq_zero_or_pos remaining with rfl | hrem
    · exact ⟨0, by simp [Socket.pollRead, ReadHalf.whole]⟩
    · -- as short as the buffer is
      refine ⟨h.readBuf.length - 1, ?_⟩
      have hlen : min remaining (h.readBuf.length - 1 + 1) = min h.readBuf.length remaining := by omega
      have hle : min h.readBuf.length remaining ≤ h.readBuf.length := Nat.min_le_left _ _
      have hne : h.readBuf ++ h.cnx.arrived ≠ [] := by simp [hbuf]
      simp only [Socket.pollRead, ReadHalf.whole, Nat.pos_iff_ne_zero.mp hrem, hne, if_false, hlen,
        List.take_append_of_le_length hle, List.drop_append_of_le_length hle]

/-! ### What a read does to the bytes -/

def Polled.data : Polled → Bytes
  | .pending => []
  | .ready data => data

theorem Socket.data_pollRead (s : Socket) (remaining short : Nat) :
    (s.pollRead remaining short).1.data ++ (s.pollRead remaining short).2.arrived = s.arrived ∧
      (s.pollRead remaining short).2.closed = s.closed := by
  unfold Socket.pollRead
  split
  · exact ⟨rfl, rfl⟩
  split
  · cases s.closed <;> exact ⟨rfl, rfl⟩
  · exact ⟨List.take_append_drop _ _, rfl⟩

/-- A connection that has nothing to give has nothing left, and says so with
the end of the stream only after it was closed. -/
theorem Socket.arrived_of_data_nil (s : Socket) {remaining : Nat} (short : Nat) (hrem : 0 < remaining)
    (h : (s.pollRead remaining short).1.data = []) :
    s.arrived = [] ∧ ((s.pollRead remaining short).1 = .ready [] ↔ s.closed = true) := by
  unfold Socket.pollRead at h ⊢
  rw [if_neg (Nat.pos_iff_ne_zero.mp hrem)] at h ⊢
  by_cases harr : s.arrived = []
  · rw [if_pos harr]
    cases s.closed <;> simp [harr]
  · rw [if_neg harr] at h
    simp only [Polled.data, List.take_eq_nil_iff, harr, or_false] at h
    omega

theorem ReadHalf.data_pollRead (h : ReadHalf) (remaining short : Nat) :
    (h.pollRead remaining short).1.data ++ (h.pollRead remaining short).2.whole.arrived = h.whole.arrived ∧
      (h.pollRead remaining short).2.cnx.closed = h.cnx.closed := by
  obtain ⟨short', hw⟩ := pollRead_refines h remaining short
  have hsock := h.whole.data_pollRead remaining short'
  rw [hw] at hsock
  exact hsock

theorem ReadHalf.arrived_of_data_nil (h : ReadHalf) {remaining : Nat} (short : Nat) (hrem : 0 < remaining)
    (hnil : (h.pollRead remaining short).1.data = []) :
    h.whole.arrived = [] ∧ ((h.pollRead remaining short).1 = .ready [] ↔ h.cnx.closed = true) := by
  obtain ⟨short', hw⟩ := pollRead_refines h remaining short
  have hsock := h.whole.arrived_of_data_nil short' hrem
  rw [hw] at hsock
  exact hsock hnil

/-! ## The upgrade -/

/-- Where the head of a message ends, for `hyper`. Bytes behind the head do
not move its end. -/
structure HeadParser where
  headEnd : Bytes → Option Nat
  le_length : ∀ {buf n}, headEnd buf = some n → n ≤ buf.length
  stable : ∀ {buf n}, headEnd buf = some n → ∀ rest, headEnd (buf ++ rest) = some n

/-- What `hyper` reads from: on the server the accepted connection, on the
client a transport. -/
inductive Stream where
  | accepted (kind : Kind) (cnx : Socket)
  | transport (half : ReadHalf)
  deriving DecidableEq, Repr

/-- The read half after the upgrade.
mirrors wstunnel/src/tunnel/transport/websocket.rs:315-339 -/
def Stream.upgraded (readBuf : Bytes) : Stream → ReadHalf
  | .accepted kind cnx => ⟨kind, cnx, readBuf⟩
  | .transport half => half.from readBuf

/-- The accepted connection is read like a half without a buffer. -/
def Stream.half : Stream → ReadHalf
  | .accepted kind cnx => ⟨kind, cnx, []⟩
  | .transport half => half

def Stream.setHalf (half : ReadHalf) : Stream → Stream
  | .accepted kind _ => .accepted kind half.cnx
  | .transport _ => .transport half

/-- `buf`: what `hyper` has read; `read`: what the tunnel has read. -/
inductive Conn where
  | handshake (stream : Stream) (buf : Bytes)
  | tunnel (half : ReadHalf) (read : Bytes)
  deriving DecidableEq, Repr

def Conn.half : Conn → ReadHalf
  | .handshake stream _ => stream.half
  | .tunnel half _ => half

def Conn.setHalf (half : ReadHalf) : Conn → Conn
  | .handshake stream buf => .handshake (stream.setHalf half) buf
  | .tunnel _ read => .tunnel half read

/-- Add to what was read. -/
def Conn.push (data : Bytes) : Conn → Conn
  | .handshake stream buf => .handshake stream (buf ++ data)
  | .tunnel half read => .tunnel half (read ++ data)

/-- One read, by `hyper` or by the tunnel. -/
def Conn.poll (remaining short : Nat) (c : Conn) : Conn :=
  let (polled, half) := c.half.pollRead remaining short
  (c.setHalf half).push polled.data

/-- `received`: everything that ever arrived. -/
structure State where
  conn : Conn
  received : Bytes
  deriving DecidableEq, Repr

inductive Ev where
  | arrive (data : Bytes)
  | close
  | poll (remaining short : Nat)
  | upgrade
  deriving DecidableEq, Repr

variable (P : HeadParser)

def step (s : State) : Ev → Option State
  | .arrive data =>
    let half := s.conn.half
    if half.cnx.closed then none
    else some ⟨s.conn.setHalf { half with cnx.arrived := half.cnx.arrived ++ data }, s.received ++ data⟩
  | .close => some { s with conn := s.conn.setHalf { s.conn.half with cnx.closed := true } }
  | .poll remaining short => some { s with conn := s.conn.poll remaining short }
  | .upgrade => match s.conn with
    | .handshake stream buf => (P.headEnd buf).map fun n => { s with conn := .tunnel (stream.upgraded (buf.drop n)) [] }
    | .tunnel _ _ => none

/-- A connection that was just accepted, or opened by the client.
mirrors wstunnel/src/tunnel/client/cnx_pool.rs:57-62 -/
def Fresh (s : State) : Prop :=
  s.received = [] ∧ ∃ cnx : Socket, cnx.arrived = [] ∧
    ((∃ kind, s.conn = .handshake (.accepted kind cnx) []) ∨
      ∃ kind, s.conn = .handshake (.transport ⟨kind, cnx, []⟩) [])

def upgrading : LTS State Ev := LTS.ofFn Fresh (step P)

/-- Up to the upgrade nothing is in the buffer of the half, so that setting it
loses nothing; after it the head of what was received is gone. -/
def Inv (s : State) : Prop :=
  match s.conn with
  | .handshake stream buf => stream.half.readBuf = [] ∧ buf ++ stream.half.cnx.arrived = s.received
  | .tunnel half read => ∃ n, P.headEnd s.received = some n ∧ read ++ half.whole.arrived = s.received.drop n

theorem Stream.cnx_setHalf (half : ReadHalf) (stream : Stream) : (stream.setHalf half).half.cnx = half.cnx := by
  cases stream <;> rfl

theorem Stream.readBuf_setHalf {half : ReadHalf} (h : half.readBuf = []) (stream : Stream) :
    (stream.setHalf half).half.readBuf = [] := by
  cases stream with
  | accepted => rfl
  | transport => exact h

theorem Stream.arrived_upgraded (readBuf : Bytes) (stream : Stream) :
    (stream.upgraded readBuf).whole.arrived = readBuf ++ stream.half.cnx.arrived := by
  cases stream <;> rfl

theorem ReadHalf.arrived_whole {h : ReadHalf} (hbuf : h.readBuf = []) : h.whole.arrived = h.cnx.arrived := by
  rw [ReadHalf.whole, hbuf, List.nil_append]

theorem ReadHalf.readBuf_pollRead {h : ReadHalf} (hbuf : h.readBuf = []) (remaining short : Nat) :
    (h.pollRead remaining short).2.readBuf = [] := by
  rw [ReadHalf.pollRead, if_pos hbuf]
  exact hbuf

theorem inv_arrive {s : State} (h : Inv P s) (data : Bytes) :
    Inv P ⟨s.conn.setHalf { s.conn.half with cnx.arrived := s.conn.half.cnx.arrived ++ data }, s.received ++ data⟩ := by
  obtain ⟨conn, received⟩ := s
  cases conn with
  | handshake stream buf =>
    obtain ⟨hbuf, hrec⟩ := h
    refine ⟨Stream.readBuf_setHalf ?_ stream, ?_⟩
    · exact hbuf
    · rw [Stream.cnx_setHalf, ← List.append_assoc]
      exact congrArg (· ++ data) hrec
  | tunnel half read =>
    obtain ⟨n, hhead, hread⟩ := h
    refine ⟨n, P.stable hhead data, ?_⟩
    rw [List.drop_append_of_le_length (P.le_length hhead), ← hread]
    simp only [Conn.half, ReadHalf.whole, List.append_assoc]

theorem inv_close {s : State} (h : Inv P s) :
    Inv P { s with conn := s.conn.setHalf { s.conn.half with cnx.closed := true } } := by
  obtain ⟨conn, received⟩ := s
  cases conn with
  | handshake stream buf =>
    refine ⟨Stream.readBuf_setHalf ?_ stream, ?_⟩
    · exact h.1
    · rw [Stream.cnx_setHalf]
      exact h.2
  | tunnel half read => exact h

theorem inv_poll {s : State} (h : Inv P s) (remaining short : Nat) :
    Inv P { s with conn := s.conn.poll remaining short } := by
  obtain ⟨conn, received⟩ := s
  have hdata := (conn.half.data_pollRead remaining short).1
  cases conn with
  | handshake stream buf =>
    obtain ⟨hbuf, hrec⟩ := h
    have hbuf' := ReadHalf.readBuf_pollRead hbuf remaining short
    change Inv P ⟨.handshake (stream.setHalf (stream.half.pollRead remaining short).2)
      (buf ++ (stream.half.pollRead remaining short).1.data), received⟩
    refine ⟨Stream.readBuf_setHalf hbuf' stream, ?_⟩
    rw [Conn.half, ReadHalf.arrived_whole hbuf, ReadHalf.arrived_whole hbuf'] at hdata
    rw [Stream.cnx_setHalf, List.append_assoc, hdata, hrec]
  | tunnel half read =>
    obtain ⟨n, hhead, hread⟩ := h
    change Inv P ⟨.tunnel (half.pollRead remaining short).2 (read ++ (half.pollRead remaining short).1.data), received⟩
    refine ⟨n, hhead, ?_⟩
    rw [Conn.half] at hdata
    rw [List.append_assoc, hdata]
    exact hread

theorem inv_upgrade {stream : Stream} {buf received : Bytes} {n : Nat} (h : Inv P ⟨.handshake stream buf, received⟩)
    (hhead : P.headEnd buf = some n) : Inv P ⟨.tunnel (stream.upgraded (buf.drop n)) [], received⟩ := by
  obtain ⟨-, hrec⟩ := h
  refine ⟨n, ?_, ?_⟩
  · rw [← hrec]
    exact P.stable hhead _
  · rw [Stream.arrived_upgraded, ← hrec, List.drop_append_of_le_length (P.le_length hhead)]
    rfl

theorem inv_inductive : (upgrading P).Inductive (Inv P) where
  init := by
    rintro ⟨conn, received⟩ ⟨hrec, cnx, harr, ⟨kind, hconn⟩ | ⟨kind, hconn⟩⟩
    all_goals
      cases hrec
      cases hconn
      exact ⟨rfl, harr⟩
  step := by
    intro s ev s' h hs
    cases ev with
    | arrive data =>
      obtain ⟨-, hs⟩ := Option.ite_none_left_eq_some.mp hs
      cases hs
      exact inv_arrive P h data
    | close =>
      cases hs
      exact inv_close P h
    | poll remaining short =>
      cases hs
      exact inv_poll P h remaining short
    | upgrade =>
      obtain ⟨conn, received⟩ := s
      cases conn with
      | handshake stream buf =>
        obtain ⟨n, hhead, rfl⟩ := Option.map_eq_some_iff.mp hs
        exact inv_upgrade P h hhead
      | tunnel half read => cases hs

/-- **Nothing is lost or added at the upgrade.** What the tunnel has read and
what it can still read is what was received behind the head, however the bytes
were cut on the way and by the readers; a read that gives nothing means that
the tunnel has all of it, and is the end of the stream only when the peer has
closed. -/
theorem upgrade_lossless (s : State) (hr : (upgrading P).Reachable s) (half : ReadHalf) (read : Bytes)
    (hconn : s.conn = .tunnel half read) :
    ∃ n, P.headEnd s.received = some n ∧ read ++ half.whole.arrived = s.received.drop n ∧
      ∀ remaining short, 0 < remaining → (half.pollRead remaining short).1.data = [] →
        read = s.received.drop n ∧ ((half.pollRead remaining short).1 = .ready [] ↔ half.cnx.closed = true) := by
  have hinv := (inv_inductive P).reachable s hr
  obtain ⟨conn, received⟩ := s
  cases hconn
  obtain ⟨n, hhead, hread⟩ := hinv
  refine ⟨n, hhead, hread, fun remaining short hrem hnil => ?_⟩
  obtain ⟨harr, hend⟩ := half.arrived_of_data_nil short hrem hnil
  rw [harr, List.append_nil] at hread
  exact ⟨hread, hend⟩

/-- Behind the first blank line. -/
def blankLine : Bytes → Option Nat
  | [] => none
  | b :: rest => if [13, 10, 13, 10] <+: b :: rest then some 4 else (blankLine rest).map (· + 1)

theorem blankLine_stable {buf : Bytes} {n : Nat} (h : blankLine buf = some n) :
    4 ≤ n ∧ n ≤ buf.length ∧ ∀ rest, blankLine (buf ++ rest) = some n := by
  induction buf generalizing n with
  | nil => cases h
  | cons b buf ih =>
    rw [blankLine] at h
    split at h <;> rename_i hp
    · cases h
      refine ⟨Nat.le_refl 4, hp.length_le, fun rest => ?_⟩
      exact if_pos (hp.trans (List.prefix_append (b :: buf) rest))
    · obtain ⟨m, hm, rfl⟩ := Option.map_eq_some_iff.mp h
      obtain ⟨hfour, hle, hstable⟩ := ih hm
      refine ⟨by omega, Nat.succ_le_succ hle, fun rest => ?_⟩
      -- the blank line is further on, so four bytes are there to tell
      have hp' : ¬ [13, 10, 13, 10] <+: b :: (buf ++ rest) := by
        intro hpre
        refine hp (List.prefix_of_prefix_length_le hpre (List.prefix_append (b :: buf) rest) ?_)
        simp only [List.length_cons, List.length_nil]
        omega
      rw [List.cons_append, blankLine, if_neg hp', hstable rest, Option.map_some]

def blankLineHead : HeadParser where
  headEnd := blankLine
  le_length h := (blankLine_stable h).2.1
  stable h := (blankLine_stable h).2.2

/-- The response `H` and the first byte behind it arrive together. -/
def earlyFrame : List Ev := [.arrive [72, 13, 10], .poll 8 7, .arrive [13, 10, 1], .poll 8 7, .upgrade, .poll 4 0,
  .arrive [2], .poll 4 0, .close]

theorem upgrade_lossless_earlyFrame : ∃ s half read, (upgrading blankLineHead).Reachable s ∧
    s.conn = .tunnel half read ∧ read ++ half.whole.arrived = [1, 2] ∧
    (half.pollRead 4 0).1 = .ready [] ∧ half.cnx.closed = true := by
  have hfresh : Fresh ⟨.handshake (.transport ⟨.plain, ⟨[], false⟩, []⟩) [], []⟩ :=
    ⟨rfl, ⟨[], false⟩, rfl, .inr ⟨.plain, rfl⟩⟩
  have hr : (upgrading blankLineHead).Reachable ⟨.tunnel ⟨.plain, ⟨[], true⟩, []⟩ [1, 2], [72, 13, 10, 13, 10, 1, 2]⟩ :=
    ⟨_, earlyFrame, hfresh, LTS.run_ofFn.mpr (by decide)⟩
  obtain ⟨n, hn, hread, hend⟩ := upgrade_lossless blankLineHead _ hr _ _ rfl
  cases (show blankLine [72, 13, 10, 13, 10, 1, 2] = some 5 by decide).symm.trans hn
  exact ⟨_, _, _, hr, rfl, hread, (hend 4 0 (by decide) rfl).2.mpr rfl, rfl⟩

/-! ## The pool -/

/-- What the pool keeps is `Option<TransportStream>`; transports are numbered as
they are opened. -/
abbrev Slot := Option Nat

/-- mirrors wstunnel/src/tunnel/client/cnx_pool.rs:69-71 -/
def hasBroken (slot : Slot) : Bool := slot.isNone

/-- A call of `connect` that has a pooled connection: it still builds its
request, or it has taken the transport out. -/
inductive Pc where
  | building | taken
  deriving DecidableEq, Repr

structure Holder where
  tunnel : Nat
  slot : Slot
  pc : Pc
  deriving DecidableEq, Repr

/-- `opened`: how many transports were opened; `used`: who took which one, from
the first to the last. -/
structure Pool where
  idle : List Slot
  held : List Holder
  used : List (Nat × Nat)
  opened : Nat
  panicked : Bool
  deriving DecidableEq, Repr

def Pool.empty : Pool := ⟨[], [], [], 0, false⟩

/-- mirrors wstunnel/src/tunnel/client/client.rs:46 -/
def maxSize : Nat := 1000

inductive PoolEv where
  /-- the pool opens a connection, for a caller or to keep some idle -/
  | connect
  /-- `cnx_pool.get()`, which `is_valid` never refuses -/
  | get (tunnel : Nat)
  /-- `take().unwrap()` of the `i`-th holder -/
  | take (i : Nat)
  /-- the pooled connection of the `i`-th holder is dropped -/
  | drop (i : Nat)
  /-- an idle connection is too old -/
  | reap (i : Nat)
  deriving DecidableEq, Repr

/-- mirrors wstunnel/src/tunnel/client/cnx_pool.rs:32-71 and the calls in
wstunnel/src/tunnel/transport/websocket.rs:243-307, http2.rs:128-221 -/
def poolStep (s : Pool) : PoolEv → Option Pool
  | .connect =>
    if s.idle.length + s.held.length < maxSize then
      some { s with idle := s.idle ++ [some s.opened], opened := s.opened + 1 }
    else none
  | .get tunnel => match s.idle with
    | [] => none
    | slot :: idle => some { s with idle, held := s.held ++ [⟨tunnel, slot, .building⟩] }
  | .take i => match s.held[i]? with
    | some ⟨tunnel, some t, .building⟩ =>
      some { s with
        held := s.held.modify i fun h => { h with slot := none, pc := .taken }
        used := s.used ++ [(tunnel, t)] }
    | some ⟨_, none, .building⟩ => some { s with panicked := true }
    | _ => none
  | .drop i => match s.held[i]? with
    | some holder =>
      let idle := if hasBroken holder.slot then s.idle else s.idle ++ [holder.slot]
      some { s with idle, held := s.held.eraseIdx i }
    | none => none
  | .reap i => if i < s.idle.length then some { s with idle := s.idle.eraseIdx i } else none

def pool : LTS Pool PoolEv := LTS.ofFn (· = Pool.empty) poolStep

def holds (t : Nat) (slot : Slot) : Bool := slot = some t

/-- How many places have the transport `t`: the idle ones, the holders, and the
tunnels that ever took it. -/
def Pool.places (s : Pool) (t : Nat) : Nat :=
  s.idle.countP (holds t) + s.held.countP (fun h => holds t h.slot) + s.used.countP (·.2 = t)

structure PoolInv (s : Pool) : Prop where
  once : ∀ t, s.places t ≤ 1
  fresh : ∀ t, s.opened ≤ t → s.places t = 0
  idle : ∀ slot ∈ s.idle, slot.isSome = true
  building : ∀ h ∈ s.held, h.pc = .building → h.slot.isSome = true
  size : s.idle.length + s.held.length ≤ maxSize
  calm : s.panicked = false

/-- What a step does that opens no transport. -/
theorem PoolInv.of_places_le {s s' : Pool} (h : PoolInv s) (hplaces : ∀ t, s'.places t ≤ s.places t)
    (hopened : s'.opened = s.opened) (hidle : ∀ slot ∈ s'.idle, slot.isSome = true)
    (hbuilding : ∀ h ∈ s'.held, h.pc = .building → h.slot.isSome = true)
    (hsize : s'.idle.length + s'.held.length ≤ maxSize) (hcalm : s'.panicked = false) : PoolInv s' where
  once t := Nat.le_trans (hplaces t) (h.once t)
  fresh t ht := Nat.le_zero.mp (Nat.le_trans (hplaces t) (Nat.le_zero.mpr (h.fresh t (hopened ▸ ht))))
  idle := hidle
  building := hbuilding
  size := hsize
  calm := hcalm

theorem poolInv_connect {s : Pool} (h : PoolInv s) (hlt : s.idle.length + s.held.length < maxSize) :
    PoolInv { s with idle := s.idle ++ [some s.opened], opened := s.opened + 1 } := by
  have hplaces (t : Nat) : Pool.places { s with idle := s.idle ++ [some s.opened], opened := s.opened + 1 } t =
      s.places t + if s.opened = t then 1 else 0 := by
    simp only [Pool.places, List.countP_append, List.countP_singleton, holds, Option.some.injEq, decide_eq_true_eq]
    omega
  refine ⟨fun t => ?_, fun t ht => ?_, ?_, h.building, ?_, h.calm⟩
  · rw [hplaces]
    split <;> rename_i heq
    · exact Nat.le_of_eq (congrArg (· + 1) (h.fresh t (Nat.le_of_eq heq)))
    · exact h.once t
  · rw [hplaces, if_neg (Nat.ne_of_lt ht), h.fresh t (Nat.le_of_succ_le ht)]
  · intro slot hslot
    rcases List.mem_append.mp hslot with hslot | hslot
    · exact h.idle slot hslot
    · rw [List.mem_singleton.mp hslot]
      rfl
  · simp only [List.length_append, List.length_cons, List.length_nil]
    omega

theorem poolInv_get {s : Pool} (h : PoolInv s) {slot : Slot} {idle : List Slot} (hidle : s.idle = slot :: idle)
    (tunnel : Nat) : PoolInv { s with idle, held := s.held ++ [⟨tunnel, slot, .building⟩] } := by
  have hsome := h.idle
  have hsize := h.size
  rw [hidle] at hsome hsize
  refine h.of_places_le (fun t => ?_) rfl (fun slot' hs => hsome slot' (List.mem_cons_of_mem _ hs)) ?_ ?_ h.calm
  · simp only [Pool.places, hidle, List.countP_append, List.countP_cons, List.countP_nil]
    omega
  · intro holder hh _
    rcases List.mem_append.mp hh with hh | hh
    · exact h.building holder hh ‹_›
    · rw [List.mem_singleton.mp hh]
      exact hsome slot List.mem_cons_self
  · simp only [List.length_append, List.length_cons, List.length_nil] at hsize ⊢
    omega

theorem poolInv_take {s : Pool} (h : PoolInv s) {i tunnel t : Nat}
    (hi : s.held[i]? = some ⟨tunnel, some t, .building⟩) :
    PoolInv { s with
      held := s.held.modify i fun h => { h with slot := none, pc := .taken }
      used := s.used ++ [(tunnel, t)] } := by
  refine h.of_places_le (fun t' => ?_) rfl h.idle ?_ ?_ h.calm
  · have hcount := LTS.countP_modify (fun h : Holder => holds t' h.slot)
      (fun h => { h with slot := none, pc := .taken }) hi
    simp only [Pool.places, List.countP_append, List.countP_singleton, holds, decide_eq_true_eq, reduceCtorEq,
      decide_false, Bool.false_eq_true, if_false, Option.some.injEq] at hcount ⊢
    omega
  · -- the holder itself is no longer building
    intro holder hh
    obtain ⟨j, hj⟩ := List.mem_iff_getElem?.mp hh
    have hbuilding : ∀ (j : Nat) (a : Holder), s.held[j]? = some a → a.pc = .building → a.slot.isSome = true :=
      fun _ a ha => h.building a (List.mem_of_getElem? ha)
    exact LTS.forall_modify hbuilding (fun _ _ _ hpc => by cases hpc) (fun _ _ _ hok => hok) j holder hj
  · rw [List.length_modify]
    exact h.size

theorem poolInv_drop {s : Pool} (h : PoolInv s) {i : Nat} {holder : Holder} (hi : s.held[i]? = some holder) :
    PoolInv { s with
      idle := if hasBroken holder.slot then s.idle else s.idle ++ [holder.slot]
      held := s.held.eraseIdx i } := by
  have hlt : i < s.held.length := (List.getElem?_eq_some_iff.mp hi).1
  have hlen : (s.held.eraseIdx i).length + 1 = s.held.length := List.length_eraseIdx_add_one hlt
  refine h.of_places_le (fun t => ?_) rfl ?_ (fun a ha => h.building a (List.mem_of_mem_eraseIdx ha)) ?_ h.calm
  · have hcount := LTS.countP_eraseIdx (fun h : Holder => holds t h.slot) hi
    cases hslot : holder.slot with
    | none =>
      simp only [Pool.places, hasBroken, Option.isNone_none, if_true]
      omega
    | some t' =>
      simp only [Pool.places, hasBroken, Option.isNone_some, Bool.false_eq_true, if_false, List.countP_append,
        List.countP_singleton]
      rw [hslot] at hcount
      omega
  · intro slot hs
    cases hslot : holder.slot with
    | none => exact h.idle slot (by simpa [hasBroken, hslot] using hs)
    | some t =>
      have hs : slot ∈ s.idle ∨ slot = some t := by simpa [hasBroken, hslot] using hs
      rcases hs with hs | rfl
      · exact h.idle slot hs
      · rfl
  · have hsize := h.size
    cases hslot : holder.slot <;> simp [hasBroken] <;> omega

theorem poolInv_reap {s : Pool} (h : PoolInv s) {i : Nat} (hi : i < s.idle.length) :
    PoolInv { s with idle := s.idle.eraseIdx i } := by
  refine h.of_places_le (fun t => ?_) rfl (fun slot hs => h.idle slot (List.mem_of_mem_eraseIdx hs)) h.building ?_ h.calm
  · have hcount := LTS.countP_eraseIdx (holds t) (List.getElem?_eq_getElem hi)
    simp only [Pool.places]
    omega
  · have hsize := h.size
    have hlen : (s.idle.eraseIdx i).length + 1 = s.idle.length := List.length_eraseIdx_add_one hi
    simp only
    omega

theorem poolInv_inductive : pool.Inductive PoolInv where
  init := by
    rintro s rfl
    exact ⟨fun _ => Nat.zero_le 1, fun _ _ => rfl, by simp [Pool.empty], by simp [Pool.empty],
      by simp [Pool.empty], rfl⟩
  step := by
    intro s ev s' h hs
    cases ev with
    | connect =>
      obtain ⟨hlt, hs⟩ := Option.ite_none_right_eq_some.mp hs
      cases hs
      exact poolInv_connect h hlt
    | get tunnel =>
      simp only [pool, LTS.ofFn, poolStep] at hs
      split at hs <;> rename_i hidle <;> cases hs
      exact poolInv_get h hidle tunnel
    | take i =>
      simp only [pool, LTS.ofFn, poolStep] at hs
      split at hs
      · rename_i hi
        cases hs
        exact poolInv_take h hi
      · -- a holder that is building has a transport
        rename_i hi
        cases h.building _ (List.mem_of_getElem? hi) rfl
      · cases hs
    | drop i =>
      simp only [pool, LTS.ofFn, poolStep] at hs
      split at hs <;> rename_i hi <;> cases hs
      exact poolInv_drop h hi
    | reap i =>
      obtain ⟨hi, hs⟩ := Option.ite_none_right_eq_some.mp hs
      cases hs
      exact poolInv_reap h hi

/-- **A transport is used once.** Over any interleaving of the calls,
`take().unwrap()` never panics, no transport is taken twice, one that was taken
is neither idle nor held by a call, and no more than `maxSize` connections are
idle or held. -/
theorem transports_used_once (s : Pool) (hr : pool.Reachable s) :
    s.panicked = false ∧ (s.used.map Prod.snd).Nodup ∧
      (∀ u ∈ s.used, some u.2 ∉ s.idle ∧ ∀ h ∈ s.held, h.slot ≠ some u.2) ∧
      s.idle.length + s.held.length ≤ maxSize := by
  have h := poolInv_inductive.reachable s hr
  refine ⟨h.calm, ?_, ?_, h.size⟩
  · rw [List.nodup_iff_count_le_one]
    intro t
    have honce := h.once t
    have hcount : (s.used.map Prod.snd).count t = s.used.countP (·.2 = t) := by
      rw [List.count, List.countP_map]
      rfl
    rw [Pool.places] at honce
    omega
  · rintro ⟨tunnel, t⟩ hu
    have honce := h.once t
    have hused : 0 < s.used.countP (·.2 = t) := List.countP_pos_iff.mpr ⟨_, hu, by simp⟩
    rw [Pool.places] at honce
    refine ⟨fun hidle => ?_, fun holder hh hslot => ?_⟩
    · have hpos : 0 < s.idle.countP (holds t) := List.countP_pos_iff.mpr ⟨_, hidle, decide_eq_true rfl⟩
      omega
    · have hpos : 0 < s.held.countP (fun h => holds t h.slot) :=
        List.countP_pos_iff.mpr ⟨_, hh, decide_eq_true hslot⟩
      omega

/-- Two tunnels, the second of which cannot build its request and leaves its
connection to the third. -/
def threeTunnels : List PoolEv :=
  [.connect, .connect, .get 0, .get 1, .take 0, .drop 1, .drop 0, .get 2, .take 0, .drop 0]

theorem transports_used_once_threeTunnels : ∃ s, pool.Reachable s ∧ s.used = [(0, 0), (2, 1)] ∧
    s.idle = [] ∧ (s.used.map Prod.snd).Nodup := by
  have hr : pool.Reachable ⟨[], [], [(0, 0), (2, 1)], 2, false⟩ :=
    ⟨_, threeTunnels, rfl, LTS.run_ofFn.mpr (by decide)⟩
  exact ⟨_, hr, rfl, rfl, (transports_used_once _ hr).2.1⟩

end Wstunnel.L3.TransportStream
