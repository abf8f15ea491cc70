import Mathlib.Algebra.Group.Nat.Defs
import Mathlib.Tactic.Common

/-!
# `propagate_local_to_remote` and its two writers

The sender loop of `transport/io.rs` with the buffer that reading, framing,
clearing, growing and splitting share. Each `await` is a step of its own:
the branch the biased `select!` takes, `write_frame`, `flush`, the `send` of
the HTTP/2 body, each pending operation, the ping and the close frame. What
the local source, the network and the reader task do is the event.

A `select!` branch that is not taken drops its future: `read_buf` has then
read nothing, so a read is one event that completes.

**Third-party code.**
* `fastwebsockets` writes a frame or fails; a write that fails may have sent its
  frame all the same, and what masking leaves in the buffer are any bytes of the
  same length.
* `BytesMut` is its content and its capacity. What `reserve` makes of a capacity is
  a parameter (`Cfg.reserve`) of which nothing is assumed here; `Buffers` asks for
  `Cfg.ReserveSpec`.
* `mpsc::channel(10)` holds ten operations, in order. When a `Notified` completes is
  left to `Endpoint` and `Duplex`.

**Results.**
* `SenderMove`, `move_of_senderStep`: what a step can do. The invariants of the
  modules over this one are proved over these cases.
* `senderStep_owes`: a read is handed to the transport once, in its place, or its
  own write failed.
-/
namespace Wstunnel.L3.Link

abbrev Bytes := List UInt8

inductive Kind where
  | websocket | http2
  deriving DecidableEq, Repr

/-- `MAX_PACKET_LENGTH` -/
def maxPacketLength : Nat := 64 * 1024

/-- The parameters of a run; `reserve len cap n` is the capacity after
`BytesMut::reserve(n)`. -/
structure Cfg where
  kind : Kind
  pingEnabled : Bool
  reserve : Nat → Nat → Nat → Nat

/-- What the transport carries. -/
inductive Frame where
  | data (payload : Bytes)
  | ping
  | pong (payload : Bytes)
  | close
  deriving DecidableEq, Repr

/-- A frame the reader task queues for the writer. -/
inductive Op where
  | close
  | ping (payload : Bytes)
  | pong
  deriving DecidableEq, Repr

/-- `BytesMut`. -/
structure Buf where
  content : Bytes
  capacity : Nat
  deriving DecidableEq, Repr

/-- Where the loop waits. -/
inductive Pc where
  | select | write | flush | pendingOps | ping | close | ended
  deriving DecidableEq, Repr

/-- `notified`: the `Notified` future of the loop has completed.
`closeRequested`: the other end of `close_tx` is gone. -/
structure Sender where
  pc : Pc
  buf : Buf
  ops : List Op
  notified : Bool
  inFlightPing : Nat
  closeRequested : Bool
  deriving DecidableEq, Repr

inductive SenderEv where
  /-- the branch of pending operations -/
  | pending
  /-- `read_buf` returned these bytes, at least one -/
  | read (bytes : Bytes)
  /-- `read_buf` returned 0, or an error -/
  | readEnd
  | closed
  | tick
  /-- `write_frame`; a write that fails may still have sent its frame.
  `masked` is what framing leaves in the buffer. -/
  | writeFrame (ok sent : Bool) (masked : Bytes)
  | flush (ok : Bool)
  /-- `Sender::send` of the HTTP/2 body -/
  | sendData (ok : Bool)
  /-- the next `try_recv` and what follows from it -/
  | popOp (ok : Bool)
  | pingFrame (ok : Bool)
  | closeFrame (ok : Bool)
  | queueOp (op : Op)
  | notify
  | requestClose
  deriving DecidableEq, Repr

variable (cfg : Cfg)

/-- The slice `read_buf` may fill: a full `BytesMut` first grows by 64. -/
def Buf.room (b : Buf) : Nat :=
  if b.capacity ≤ b.content.length then 64 else b.capacity - b.content.length

/-- The buffer after a read. -/
def Buf.push (b : Buf) (bytes : Bytes) : Buf where
  content := b.content ++ bytes
  capacity := if b.capacity ≤ b.content.length then cfg.reserve b.content.length b.capacity 64
    else b.capacity

/-- `const _32_MB` -/
def maxBufferLength : Nat := 32 * 1024 * 1024

/-- The end of `WebsocketTunnelWrite::write`: clear, and grow a buffer that
the read had filled.
mirrors wstunnel/src/tunnel/transport/websocket.rs:81-98 -/
def Buf.clearAndGrow (b : Buf) : Buf where
  content := []
  capacity :=
    if b.capacity = b.content.length ∧ b.capacity < maxBufferLength then
      cfg.reserve 0 b.capacity (b.capacity + b.capacity / 4)
    else b.capacity

/-- The buffer that `split()` leaves, grown back to a packet.
mirrors wstunnel/src/tunnel/transport/http2.rs:88-101 -/
def Buf.splitAndGrow (b : Buf) : Buf where
  content := []
  capacity :=
    let rest := b.capacity - b.content.length
    if rest < maxPacketLength then cfg.reserve 0 rest maxPacketLength else rest

/-- `fetch_add` and `fetch_sub` on an `AtomicUsize`. -/
def wrapAdd (n : Nat) : Nat := (n + 1) % 2 ^ 64
def wrapSub (n : Nat) : Nat := (n + 2 ^ 64 - 1) % 2 ^ 64

/-- `select!` polls in order: another branch than the first is taken only
when the first is not ready. -/
def Sender.polls (s : Sender) : Bool := s.pc = .select && !s.notified

/-- The branch of the ping timer.
mirrors wstunnel/src/tunnel/transport/websocket.rs:103-120 and http2.rs:106-108 -/
def pingTick (s : Sender) : Sender :=
  match cfg.kind with
  | .http2 => s
  | .websocket =>
    let s' := { s with inFlightPing := wrapAdd s.inFlightPing }
    if 3 ≤ s.inFlightPing then { s' with pc := .ended } else { s' with pc := .ping }

/-- One round of `handle_pending_operations`.
mirrors wstunnel/src/tunnel/transport/websocket.rs:134-158 -/
def handleOp (s : Sender) (ok : Bool) : Sender × List Frame :=
  match s.ops with
  | [] => ({ s with pc := .select }, [])
  | .close :: ops =>
    if ok then ({ s with ops }, [.close]) else ({ s with ops, pc := .close }, [])
  | .ping payload :: ops =>
    if ok then ({ s with ops }, [.pong payload]) else ({ s with ops, pc := .close }, [])
  | .pong :: ops => ({ s with ops, inFlightPing := wrapSub s.inFlightPing }, [])

/-- One event of the sender and the frames it hands to the transport.
mirrors wstunnel/src/tunnel/transport/io.rs:98-172 -/
def senderStep (s : Sender) : SenderEv → Option (Sender × List Frame)
  | .pending =>
    if s.pc = .select ∧ s.notified then some ({ s with pc := .pendingOps, notified := false }, [])
    else none
  | .read bytes =>
    if s.polls ∧ bytes ≠ [] ∧ bytes.length ≤ s.buf.room then
      some ({ s with buf := s.buf.push cfg bytes, pc := .write }, [])
    else none
  | .readEnd => if s.polls then some ({ s with pc := .close }, []) else none
  | .closed => if s.polls ∧ s.closeRequested then some ({ s with pc := .close }, []) else none
  | .tick => if s.polls ∧ cfg.pingEnabled then some (pingTick cfg s, []) else none
  | .writeFrame ok sent masked =>
    if s.pc = .write ∧ cfg.kind = .websocket ∧ masked.length = s.buf.content.length then
      some ({ s with pc := if ok then .flush else .close, buf := { s.buf with content := masked } },
        if ok ∨ sent then [.data s.buf.content] else [])
    else none
  | .flush ok =>
    if s.pc = .flush then
      if ok then some ({ s with pc := .select, buf := s.buf.clearAndGrow cfg }, [])
      else some ({ s with pc := .close }, [])
    else none
  | .sendData ok =>
    if s.pc = .write ∧ cfg.kind = .http2 then
      some ({ s with pc := if ok then .select else .close, buf := s.buf.splitAndGrow cfg },
        if ok then [.data s.buf.content] else [])
    else none
  | .popOp ok => if s.pc = .pendingOps then some (handleOp s ok) else none
  | .pingFrame ok =>
    if s.pc = .ping then
      some ({ s with pc := if ok then .select else .ended }, if ok then [.ping] else [])
    else none
  | .closeFrame ok =>
    if s.pc = .close then
      some ({ s with pc := .ended }, if ok ∧ cfg.kind = .websocket then [.close] else [])
    else none
  | .queueOp op =>
    -- `mpsc::channel(10)`; the notifier of the HTTP/2 writer is never notified
    if cfg.kind = .websocket ∧ s.ops.length < 10 then some ({ s with ops := s.ops ++ [op] }, [])
    else none
  | .notify => if cfg.kind = .websocket then some ({ s with notified := true }, []) else none
  | .requestClose => some ({ s with closeRequested := true }, [])

/-- The loop at its start. -/
def Sender.start : Sender where
  pc := .select
  buf := ⟨[], match cfg.kind with
    | .websocket => maxPacketLength
    | .http2 => maxPacketLength * 20⟩
  ops := []
  notified := false
  inFlightPing := 0
  closeRequested := false

/-! ## What a step can do -/

/-- A step of the sender. Every invariant is proved over these cases. -/
inductive SenderMove (s : Sender) : SenderEv → Sender → List Frame → Prop where
  | pending (hp : s.pc = .select) :
      SenderMove s .pending { s with pc := .pendingOps, notified := false } []
  | read {bytes} (hp : s.pc = .select) :
      SenderMove s (.read bytes) { s with buf := s.buf.push cfg bytes, pc := .write } []
  | stop {ev} (hev : ev = .readEnd ∨ ev = .closed) (hp : s.pc = .select) :
      SenderMove s ev { s with pc := .close } []
  | tick (hp : s.pc = .select) : SenderMove s .tick (pingTick cfg s) []
  | writeFrame {ok sent masked} (hp : s.pc = .write) : SenderMove s (.writeFrame ok sent masked)
      { s with pc := if ok then .flush else .close, buf := { s.buf with content := masked } }
      (if ok ∨ sent then [.data s.buf.content] else [])
  | flushed (hp : s.pc = .flush) :
      SenderMove s (.flush true) { s with pc := .select, buf := s.buf.clearAndGrow cfg } []
  | flushErr (hp : s.pc = .flush) : SenderMove s (.flush false) { s with pc := .close } []
  | sendData {ok} (hp : s.pc = .write) (hk : cfg.kind = .http2) : SenderMove s (.sendData ok)
      { s with pc := if ok then .select else .close, buf := s.buf.splitAndGrow cfg }
      (if ok then [.data s.buf.content] else [])
  | popOp {ok} (hp : s.pc = .pendingOps) :
      SenderMove s (.popOp ok) (handleOp s ok).1 (handleOp s ok).2
  | pingFrame {ok} (hp : s.pc = .ping) : SenderMove s (.pingFrame ok)
      { s with pc := if ok then .select else .ended } (if ok then [.ping] else [])
  | closeFrame {ok} (hp : s.pc = .close) : SenderMove s (.closeFrame ok) { s with pc := .ended }
      (if ok ∧ cfg.kind = .websocket then [.close] else [])
  | queueOp {op} : SenderMove s (.queueOp op) { s with ops := s.ops ++ [op] } []
  | notify : SenderMove s .notify { s with notified := true } []
  | requestClose : SenderMove s .requestClose { s with closeRequested := true } []

theorem pc_of_polls {s : Sender} (h : s.polls = true) : s.pc = .select := by
  simp only [Sender.polls, Bool.and_eq_true, decide_eq_true_eq] at h
  exact h.1

theorem move_of_senderStep {s s' : Sender} {ev : SenderEv} {fs : List Frame}
    (hs : senderStep cfg s ev = some (s', fs)) : SenderMove cfg s ev s' fs := by
  cases ev with
  | pending =>
    simp only [senderStep, Option.ite_none_right_eq_some, Option.some.injEq, Prod.mk.injEq] at hs
    obtain ⟨⟨hp, -⟩, rfl, rfl⟩ := hs
    exact .pending hp
  | read _ =>
    simp only [senderStep, Option.ite_none_right_eq_some, Option.some.injEq, Prod.mk.injEq] at hs
    obtain ⟨⟨hp, -⟩, rfl, rfl⟩ := hs
    exact .read (pc_of_polls hp)
  | readEnd =>
    simp only [senderStep, Option.ite_none_right_eq_some, Option.some.injEq, Prod.mk.injEq] at hs
    obtain ⟨hp, rfl, rfl⟩ := hs
    exact .stop (.inl rfl) (pc_of_polls hp)
  | closed =>
    simp only [senderStep, Option.ite_none_right_eq_some, Option.some.injEq, Prod.mk.injEq] at hs
    obtain ⟨⟨hp, -⟩, rfl, rfl⟩ := hs
    exact .stop (.inr rfl) (pc_of_polls hp)
  | tick =>
    simp only [senderStep, Option.ite_none_right_eq_some, Option.some.injEq, Prod.mk.injEq] at hs
    obtain ⟨⟨hp, -⟩, rfl, rfl⟩ := hs
    exact .tick (pc_of_polls hp)
  | writeFrame _ _ _ =>
    simp only [senderStep, Option.ite_none_right_eq_some, Option.some.injEq, Prod.mk.injEq] at hs
    obtain ⟨⟨hp, -⟩, rfl, rfl⟩ := hs
    exact .writeFrame hp
  | flush ok =>
    cases ok <;> simp only [senderStep, Option.ite_none_right_eq_some, Option.some.injEq,
      Prod.mk.injEq, Bool.false_eq_true, ↓reduceIte] at hs
    · obtain ⟨hp, rfl, rfl⟩ := hs
      exact .flushErr hp
    · obtain ⟨hp, rfl, rfl⟩ := hs
      exact .flushed hp
  | sendData _ =>
    simp only [senderStep, Option.ite_none_right_eq_some, Option.some.injEq, Prod.mk.injEq] at hs
    obtain ⟨⟨hp, hk⟩, rfl, rfl⟩ := hs
    exact .sendData hp hk
  | popOp ok =>
    simp only [senderStep, Option.ite_none_right_eq_some, Option.some.injEq] at hs
    obtain ⟨hp, hs⟩ := hs
    have hmove : SenderMove cfg s (.popOp ok) _ _ := .popOp hp
    rwa [hs] at hmove
  | pingFrame _ =>
    simp only [senderStep, Option.ite_none_right_eq_some, Option.some.injEq, Prod.mk.injEq] at hs
    obtain ⟨hp, rfl, rfl⟩ := hs
    exact .pingFrame hp
  | closeFrame _ =>
    simp only [senderStep, Option.ite_none_right_eq_some, Option.some.injEq, Prod.mk.injEq] at hs
    obtain ⟨hp, rfl, rfl⟩ := hs
    exact .closeFrame hp
  | queueOp _ =>
    simp only [senderStep, Option.ite_none_right_eq_some, Option.some.injEq, Prod.mk.injEq] at hs
    obtain ⟨-, rfl, rfl⟩ := hs
    exact .queueOp
  | notify =>
    simp only [senderStep, Option.ite_none_right_eq_some, Option.some.injEq, Prod.mk.injEq] at hs
    obtain ⟨-, rfl, rfl⟩ := hs
    exact .notify
  | requestClose =>
    cases hs
    exact .requestClose

/-! ## What a step does to the bytes -/

/-- The data payloads among frames. -/
def payloads : List Frame → List Bytes
  | [] => []
  | .data p :: fs => p :: payloads fs
  | _ :: fs => payloads fs

@[simp] theorem payloads_append (fs gs : List Frame) : payloads (fs ++ gs) = payloads fs ++ payloads gs := by
  induction fs with
  | nil => rfl
  | cons f fs ih => cases f <;> simp [payloads, ih]

/-- Does this event end the write of a read with an error? -/
def SenderEv.failsWrite : SenderEv → Bool
  | .writeFrame ok _ _ | .flush ok | .sendData ok => !ok
  | _ => false

/-- The bytes of the read an event completes. -/
def SenderEv.readBytes : SenderEv → List Bytes
  | .read bytes => [bytes]
  | _ => []

/-- What the buffer holds of reads not yet handed over: nothing between two
writes, one read before its write, and after a failed write nothing that
will be sent. -/
def Owes (s : Sender) (failed : Bool) (owed : List Bytes) : Prop :=
  match s.pc with
  | .select | .pendingOps | .ping => owed = [] ∧ s.buf.content = []
  | .write => owed = [s.buf.content]
  | .flush => owed = []
  | .close | .ended => owed = [] ∨ (failed = true ∧ ∃ last, owed = [last])

variable {cfg} {s s' : Sender} {failed : Bool} {owed : List Bytes} {fs : List Frame}

/-- Between two writes nothing is owed and the buffer is empty. -/
theorem Owes.of_between (h : Owes s failed owed)
    (hpc : s.pc = .select ∨ s.pc = .pendingOps ∨ s.pc = .ping) :
    owed = [] ∧ s.buf.content = [] := by
  unfold Owes at h
  rcases hpc with hpc | hpc | hpc <;> rw [hpc] at h <;> exact h

theorem Owes.of_write (h : Owes s failed owed) (hpc : s.pc = .write) :
    owed = [s.buf.content] := by
  unfold Owes at h; rw [hpc] at h; exact h

theorem Owes.of_flush (h : Owes s failed owed) (hpc : s.pc = .flush) : owed = [] := by
  unfold Owes at h; rw [hpc] at h; exact h

/-- What is owed depends on the buffer and the point of the loop only. -/
theorem Owes.congr (h : Owes s failed owed) (hpc : s'.pc = s.pc) (hbuf : s'.buf = s.buf) :
    Owes s' (failed || false) owed := by
  unfold Owes at h ⊢
  rw [hpc, hbuf, Bool.or_false]
  exact h

/-- A frame of an operation carries no data, and the buffer is not touched. -/
theorem handleOp_owes {ok : Bool} (hpc : s.pc = .pendingOps) (h : Owes s failed owed)
    (hs : handleOp s ok = (s', fs)) : Owes s' failed owed ∧ payloads fs = [] := by
  obtain ⟨ho, hb⟩ := h.of_between (.inr (.inl hpc))
  unfold handleOp at hs
  split at hs
  · cases hs; exact ⟨⟨ho, hb⟩, rfl⟩
  · split at hs <;> cases hs
    · exact ⟨by simp only [Owes, hpc]; exact ⟨ho, hb⟩, rfl⟩
    · exact ⟨.inl ho, rfl⟩
  · split at hs <;> cases hs
    · exact ⟨by simp only [Owes, hpc]; exact ⟨ho, hb⟩, rfl⟩
    · exact ⟨.inl ho, rfl⟩
  · cases hs
    exact ⟨by simp only [Owes, hpc]; exact ⟨ho, hb⟩, rfl⟩

/-- **One step of the sender.** What was owed and what is read is what is
handed over now and what is owed afterwards, in this order; a read stays
unpaid only when its own write failed. -/
theorem senderStep_owes {ev : SenderEv} (hs : senderStep cfg s ev = some (s', fs))
    (h : Owes s failed owed) :
    ∃ owed', Owes s' (failed || ev.failsWrite) owed' ∧
      owed ++ ev.readBytes = payloads fs ++ owed' := by
  cases move_of_senderStep cfg hs with
  | pending hp =>
    obtain ⟨ho, hb⟩ := h.of_between (.inl hp)
    exact ⟨[], ⟨rfl, hb⟩, by simp [ho, SenderEv.readBytes, payloads]⟩
  | @read bytes hp =>
    obtain ⟨ho, hb⟩ := h.of_between (.inl hp)
    exact ⟨[bytes], by simp [Owes, Buf.push, hb], by simp [ho, SenderEv.readBytes, payloads]⟩
  | stop hev hp =>
    obtain ⟨ho, -⟩ := h.of_between (.inl hp)
    refine ⟨[], .inl rfl, ?_⟩
    rcases hev with rfl | rfl <;> simp [ho, SenderEv.readBytes, payloads]
  | tick hp =>
    obtain ⟨ho, hb⟩ := h.of_between (.inl hp)
    refine ⟨[], ?_, by simp [ho, SenderEv.readBytes, payloads]⟩
    unfold pingTick
    split
    · rw [ho] at h; simpa [SenderEv.failsWrite] using h
    · dsimp only
      split
      · exact .inl rfl
      · exact ⟨rfl, hb⟩
  | @writeFrame ok sent masked hp =>
    have ho := h.of_write hp
    cases ok with
    | true => exact ⟨[], rfl, by simp [ho, SenderEv.readBytes, payloads]⟩
    | false =>
      cases sent with
      | true => exact ⟨[], .inl rfl, by simp [ho, SenderEv.readBytes, payloads]⟩
      | false =>
        exact ⟨[s.buf.content], .inr ⟨by simp [SenderEv.failsWrite], _, rfl⟩,
          by simp [ho, SenderEv.readBytes, payloads]⟩
  | flushed hp => exact ⟨[], ⟨rfl, rfl⟩, by simp [h.of_flush hp, SenderEv.readBytes, payloads]⟩
  | flushErr hp => exact ⟨[], .inl rfl, by simp [h.of_flush hp, SenderEv.readBytes, payloads]⟩
  | @sendData ok hp _ =>
    have ho := h.of_write hp
    cases ok with
    | true => exact ⟨[], ⟨rfl, rfl⟩, by simp [ho, SenderEv.readBytes, payloads]⟩
    | false =>
      exact ⟨[s.buf.content], .inr ⟨by simp [SenderEv.failsWrite], _, rfl⟩,
        by simp [ho, SenderEv.readBytes, payloads]⟩
  | @popOp ok hp =>
    have hop : handleOp s ok = ((handleOp s ok).1, (handleOp s ok).2) := rfl
    obtain ⟨h', hpay⟩ := handleOp_owes hp h hop
    exact ⟨owed, by simpa [SenderEv.failsWrite] using h', by simp [hpay, SenderEv.readBytes]⟩
  | @pingFrame ok hp =>
    obtain ⟨ho, hb⟩ := h.of_between (.inr (.inr hp))
    cases ok with
    | true => exact ⟨[], ⟨rfl, hb⟩, by simp [ho, SenderEv.readBytes, payloads]⟩
    | false => exact ⟨[], .inl rfl, by simp [ho, SenderEv.readBytes, payloads]⟩
  | closeFrame hp =>
    refine ⟨owed, ?_, ?_⟩
    · unfold Owes at h ⊢; rw [hp] at h; simpa [SenderEv.failsWrite] using h
    · split <;> simp [SenderEv.readBytes, payloads]
  | queueOp | notify | requestClose =>
    exact ⟨owed, h.congr rfl rfl, by simp [SenderEv.readBytes, payloads]⟩

theorem Owes.start : Owes (Sender.start cfg) failed [] := ⟨rfl, rfl⟩

end Wstunnel.L3.Link
