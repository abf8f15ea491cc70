import Wstunnel.L3Transport.Endpoint

/-!
# Both directions of a tunnel

A tunnel is two `Link`s, one for each direction, and each side runs two
tasks: `propagate_local_to_remote` writes the link the side sends on,
`propagate_remote_to_local` reads the other. `Link` leaves open when the two
tasks of a side stop each other. Here they are wired as the source wires
them: an operation goes from the reader to the queue of its own writer and a
`notify_waiters` follows it; a reader that returns drops `close_rx`, which
the writer sees as `should_close`; a writer that returns drops `close_tx`
and the queue, which the reader sees in its `select!` and in its `send`.

The runs start when both writers wait in their `select!` (`Endpoint` has the
steps before that). The local sockets, the network and the timers may do
anything at any time.

**Third-party code.** As in `Link`. Of `tokio` it is assumed that the drop of one
half of a `oneshot` or `mpsc` channel is seen by the other half at some later step,
and not before.

**Results.**
* `directions_are_links`: each direction of a tunnel is a run of `link`, so
  both keep what is proved there.
* `peer_close_complete`: a WebSocket side that neither ends nor fails by
  itself leaves its loop only when everything the other side read has been
  delivered.

HTTP/2 is left out of `peer_close_complete` for a reason: dropping the
client's reader aborts the task that sends, with what is still queued.
-/
namespace Wstunnel.L3.Link

inductive Side where
  | client | server
  deriving DecidableEq, Repr

def Side.peer : Side → Side
  | .client => .server
  | .server => .client

@[simp] theorem Side.peer_peer (side : Side) : side.peer.peer = side := by cases side <;> rfl

@[simp] theorem Side.peer_ne (side : Side) : side.peer ≠ side := by cases side <;> decide

@[simp] theorem Side.ne_peer (side : Side) : side ≠ side.peer := (Side.peer_ne side).symm

theorem Side.eq_or_peer (a b : Side) : b = a ∨ b = a.peer := by cases a <;> cases b <;> decide

/-- The parameters of both ends. The pings of the two sides are set apart. -/
structure Setup where
  kind : Kind
  pingEnabled : Side → Bool
  reserve : Nat → Nat → Nat → Nat

def Setup.cfg (t : Setup) (side : Side) : Cfg := ⟨t.kind, t.pingEnabled side, t.reserve⟩

/-- `links side` is the direction in which `side` sends. `owesNotify side`:
the reader of this side has queued an operation and stands before its
`notify_waiters`. -/
structure Duplex where
  links : Side → State
  owesNotify : Side → Bool

namespace Duplex

def writer (d : Duplex) (side : Side) : Sender := (d.links side).sender

def reader (d : Duplex) (side : Side) : ReceiverPc := (d.links side.peer).receiver

def set (d : Duplex) (side : Side) (l : State) : Duplex :=
  { d with links := Function.update d.links side l }

def setOwes (d : Duplex) (side : Side) (b : Bool) : Duplex :=
  { d with owesNotify := Function.update d.owesNotify side b }

variable {d : Duplex} {side : Side} {l : State} {b : Bool}

@[simp] theorem links_set : (d.set side l).links side = l := Function.update_self ..

@[simp] theorem links_set_peer : (d.set side l).links side.peer = d.links side.peer :=
  Function.update_of_ne (Side.peer_ne side) ..

@[simp] theorem links_peer_set : (d.set side.peer l).links side = d.links side :=
  Function.update_of_ne (Side.ne_peer side) ..

@[simp] theorem owesNotify_set (other : Side) : (d.set side l).owesNotify other = d.owesNotify other := rfl

@[simp] theorem links_setOwes (other : Side) : (d.setOwes side b).links other = d.links other := rfl

@[simp] theorem owesNotify_setOwes : (d.setOwes side b).owesNotify side = b := Function.update_self ..

@[simp] theorem owesNotify_setOwes_peer :
    (d.setOwes side b).owesNotify side.peer = d.owesNotify side.peer :=
  Function.update_of_ne (Side.peer_ne side) ..

end Duplex

inductive DuplexEv where
  | writer (side : Side) (ev : SenderEv)
  | cut (side : Side) (i k : Nat)
  /-- a step of `copy` -/
  | copy (side : Side) (ev : Ev)
  /-- the `send` of an operation returns -/
  | sendOp (side : Side)
  /-- `notify_waiters` -/
  | notify (side : Side)
  /-- the reader has returned, `close_rx` is dropped -/
  | dropClose (side : Side)
  /-- the branch of `close_rx` -/
  | closeRx (side : Side)
  deriving DecidableEq, Repr

/-- Whose tasks take the step. -/
def DuplexEv.side : DuplexEv → Side
  | .writer side _ | .cut side _ _ | .copy side _ | .sendOp side | .notify side | .dropClose side
  | .closeRx side => side

/-- The events of a link that are steps of `copy`. -/
def Ev.ofCopy : Ev → Bool
  | .recv | .recvEnd | .skip | .deliver _ | .deliverErr => true
  | _ => false

variable (t : Setup)

/-- One link of the tunnel takes a step. -/
def Duplex.act (d : Duplex) (side : Side) (ev : Ev) : Option Duplex :=
  (step (t.cfg side) (d.links side) ev).map (d.set side)

/-- mirrors wstunnel/src/tunnel/client/client.rs:88-99 and
wstunnel/src/tunnel/server/handler_websocket.rs:63-75 (the two tasks),
wstunnel/src/tunnel/transport/io.rs:177-205 and websocket.rs:187-234 -/
def duplexStep (d : Duplex) : DuplexEv → Option Duplex
  | .writer side ev => if ev.isOwn ∨ ev = .pending then d.act t side (.sender ev) else none
  | .cut side i k => d.act t side (.cut i k)
  | .copy side ev => if ev.ofCopy ∧ d.owesNotify side = false then d.act t side.peer ev else none
  | .sendOp side => match d.reader side with
    | .sendingOp op =>
      if (d.writer side).pc = .ended then d.act t side.peer (.opSent false)
      else ((d.act t side (.sender (.queueOp op))).bind (·.act t side.peer (.opSent true))).map
        (·.setOwes side true)
    | _ => none
  | .notify side =>
    if d.owesNotify side then (d.act t side (.sender .notify)).map (·.setOwes side false) else none
  | .dropClose side =>
    if d.reader side = .ended ∧ d.owesNotify side = false ∧ (d.writer side).closeRequested = false then
      d.act t side (.sender .requestClose)
    else none
  | .closeRx side =>
    if (d.writer side).pc = .ended ∧ d.owesNotify side = false then d.act t side.peer .closeRx else none

def Duplex.start : Duplex := ⟨fun side => Link.start (t.cfg side), fun _ => false⟩

def duplex : LTS Duplex DuplexEv := LTS.ofFn (· = Duplex.start t) (duplexStep t)

/-! ## What a step can do -/

/-- A link after a step of its sender. -/
def State.sent (l : State) (ev : SenderEv) (sender : Sender) (frames : List Frame) : State :=
  { l with
    sender, wire := l.wire ++ frames
    reads := l.reads ++ ev.readBytes
    handed := l.handed ++ payloads frames
    writeFailed := l.writeFailed || ev.failsWrite }

/-- A step of a tunnel. Every invariant is proved over these cases. -/
inductive DuplexMove (d : Duplex) : DuplexEv → Duplex → Prop where
  | writer {side ev sender frames} (hev : ev.isOwn = true ∨ ev = .pending)
      (hs : senderStep (t.cfg side) (d.links side).sender ev = some (sender, frames)) :
      DuplexMove d (.writer side ev) (d.set side ((d.links side).sent ev sender frames))
  | cut {side i k} (hk : t.kind = .http2) : DuplexMove d (.cut side i k)
      (d.set side { d.links side with wire := cutFrame (d.links side).wire i k })
  | recv {side f fs} (hn : d.owesNotify side = false) (hr : (d.links side.peer).receiver = .copying)
      (hw : (d.links side.peer).wire = f :: fs) : DuplexMove d (.copy side .recv)
      (d.set side.peer { d.links side.peer with receiver := receive t.kind f, wire := fs })
  | recvEnd {side} (hn : d.owesNotify side = false) (hr : (d.links side.peer).receiver = .copying) :
      DuplexMove d (.copy side .recvEnd) (d.set side.peer { d.links side.peer with receiver := .ended })
  | skip {side} (hk : t.kind = .http2) :
      DuplexMove d (.copy side .skip) (d.set side.peer (d.links side.peer))
  | deliver {side k rest} (hn : d.owesNotify side = false)
      (hr : (d.links side.peer).receiver = .writing rest) (hk : k ≤ rest.length) :
      DuplexMove d (.copy side (.deliver k)) (d.set side.peer { d.links side.peer with
        delivered := (d.links side.peer).delivered ++ rest.take k
        receiver := if k = rest.length then .copying else .writing (rest.drop k) })
  | deliverErr {side rest} (hn : d.owesNotify side = false)
      (hr : (d.links side.peer).receiver = .writing rest) : DuplexMove d (.copy side .deliverErr)
      (d.set side.peer { d.links side.peer with receiver := .ended })
  | queued {side op} (hr : (d.links side.peer).receiver = .sendingOp op)
      (hw : (d.links side).sender.pc ≠ .ended) (hk : t.kind = .websocket)
      (hl : (d.links side).sender.ops.length < 10) : DuplexMove d (.sendOp side)
      (((d.set side ((d.links side).sent (.queueOp op)
          { (d.links side).sender with ops := (d.links side).sender.ops ++ [op] } [])).set side.peer
        { d.links side.peer with receiver := afterOp op true }).setOwes side true)
  | refused {side op} (hr : (d.links side.peer).receiver = .sendingOp op)
      (hw : (d.links side).sender.pc = .ended) : DuplexMove d (.sendOp side)
      (d.set side.peer { d.links side.peer with receiver := afterOp op false })
  | notify {side} (hn : d.owesNotify side = true) (hk : t.kind = .websocket) :
      DuplexMove d (.notify side) ((d.set side ((d.links side).sent .notify
        { (d.links side).sender with notified := true } [])).setOwes side false)
  | dropClose {side} (hn : d.owesNotify side = false) (hr : (d.links side.peer).receiver = .ended)
      (hc : (d.links side).sender.closeRequested = false) :
      DuplexMove d (.dropClose side) (d.set side ((d.links side).sent .requestClose
        { (d.links side).sender with closeRequested := true } []))
  | closeRx {side} (hn : d.owesNotify side = false) (hw : (d.links side).sender.pc = .ended)
      (hr : (d.links side.peer).receiver ≠ .ended) :
      DuplexMove d (.closeRx side) (d.set side.peer { d.links side.peer with receiver := .ended })

theorem act_eq_some {d d' : Duplex} {side : Side} {ev : Ev} :
    d.act t side ev = some d' ↔ ∃ l, step (t.cfg side) (d.links side) ev = some l ∧ d' = d.set side l := by
  simp only [Duplex.act, Option.map_eq_some_iff]
  exact ⟨fun ⟨l, h, e⟩ => ⟨l, h, e.symm⟩, fun ⟨l, h, e⟩ => ⟨l, h, e.symm⟩⟩

theorem act_sender {d d' : Duplex} {side : Side} {ev : SenderEv}
    (h : d.act t side (.sender ev) = some d') : ∃ sender frames,
      senderStep (t.cfg side) (d.links side).sender ev = some (sender, frames) ∧
        d' = d.set side ((d.links side).sent ev sender frames) := by
  obtain ⟨l, hs, rfl⟩ := (act_eq_some t).mp h
  simp only [step] at hs
  split at hs
  · cases hs
  · rename_i sender frames hstep
    cases hs
    exact ⟨sender, frames, hstep, rfl⟩

/-- The steps of `copy`. -/
theorem move_of_copy {d d' : Duplex} {side : Side} {ev : Ev} (hev : ev.ofCopy = true)
    (hn : d.owesNotify side = false) (h : d.act t side.peer ev = some d') :
    DuplexMove t d (.copy side ev) d' := by
  obtain ⟨l, hs, rfl⟩ := (act_eq_some t).mp h
  cases ev with
  | recv =>
    simp only [step] at hs
    split at hs
    · rename_i f fs hr hw; cases hs; exact .recv hn hr hw
    · cases hs
  | recvEnd =>
    simp only [step, Option.ite_none_right_eq_some, Option.some.injEq] at hs
    obtain ⟨hr, rfl⟩ := hs
    exact .recvEnd hn hr
  | skip =>
    simp only [step, Option.ite_none_right_eq_some, Option.some.injEq] at hs
    obtain ⟨⟨-, hk⟩, rfl⟩ := hs
    exact .skip hk
  | deliver k =>
    simp only [step] at hs
    split at hs
    · rename_i rest hr
      simp only [Option.ite_none_right_eq_some, Option.some.injEq] at hs
      obtain ⟨hk, rfl⟩ := hs
      exact .deliver hn hr hk
    · cases hs
  | deliverErr =>
    simp only [step] at hs
    split at hs
    · rename_i rest hr; cases hs; exact .deliverErr hn hr
    · cases hs
  | sender _ | cut _ _ | opSent _ | closeRx => cases hev

theorem move_of_sendOp {d d' : Duplex} {side : Side} (hs : duplexStep t d (.sendOp side) = some d') :
    DuplexMove t d (.sendOp side) d' := by
  simp only [duplexStep] at hs
  split at hs
  · rename_i op hr
    split at hs
    · rename_i hw
      obtain ⟨l, hl, rfl⟩ := (act_eq_some t).mp hs
      simp only [Duplex.reader] at hr
      simp only [step, hr, Option.some.injEq] at hl
      subst hl
      exact .refused hr hw
    · rename_i hw
      simp only [Option.map_eq_some_iff, Option.bind_eq_some_iff] at hs
      obtain ⟨d₂, ⟨d₁, h₁, h₂⟩, rfl⟩ := hs
      obtain ⟨sender, frames, hq, rfl⟩ := act_sender t h₁
      simp only [senderStep, Option.ite_none_right_eq_some, Option.some.injEq,
        Prod.mk.injEq] at hq
      obtain ⟨⟨hk, hl⟩, rfl, rfl⟩ := hq
      obtain ⟨l, hl₂, rfl⟩ := (act_eq_some t).mp h₂
      simp only [Duplex.reader] at hr
      simp only [step, Duplex.links_set_peer, hr, Option.some.injEq] at hl₂
      subst hl₂
      exact .queued hr hw hk hl
  · cases hs

theorem move_of_duplexStep {d d' : Duplex} {ev : DuplexEv} (hs : duplexStep t d ev = some d') :
    DuplexMove t d ev d' := by
  cases ev with
  | writer side ev =>
    simp only [duplexStep, Option.ite_none_right_eq_some] at hs
    obtain ⟨hev, hs⟩ := hs
    obtain ⟨sender, frames, hstep, rfl⟩ := act_sender t hs
    exact .writer hev hstep
  | cut side i k =>
    obtain ⟨l, hl, rfl⟩ := (act_eq_some t).mp hs
    simp only [step, Option.ite_none_right_eq_some, Option.some.injEq] at hl
    obtain ⟨hk, rfl⟩ := hl
    exact .cut hk
  | copy side ev =>
    simp only [duplexStep, Option.ite_none_right_eq_some] at hs
    exact move_of_copy t hs.1.1 hs.1.2 hs.2
  | sendOp side => exact move_of_sendOp t hs
  | notify side =>
    simp only [duplexStep, Option.ite_none_right_eq_some, Option.map_eq_some_iff] at hs
    obtain ⟨hn, d₁, h₁, rfl⟩ := hs
    obtain ⟨sender, frames, hq, rfl⟩ := act_sender t h₁
    simp only [senderStep, Option.ite_none_right_eq_some, Option.some.injEq,
      Prod.mk.injEq] at hq
    obtain ⟨hk, rfl, rfl⟩ := hq
    exact .notify hn hk
  | dropClose side =>
    simp only [duplexStep, Option.ite_none_right_eq_some] at hs
    obtain ⟨⟨hr, hn, hc⟩, hs⟩ := hs
    obtain ⟨sender, frames, hq, rfl⟩ := act_sender t hs
    cases hq
    exact .dropClose hn hr hc
  | closeRx side =>
    simp only [duplexStep, Option.ite_none_right_eq_some] at hs
    obtain ⟨⟨hw, hn⟩, hs⟩ := hs
    obtain ⟨l, hl, rfl⟩ := (act_eq_some t).mp hs
    simp only [step] at hl
    split at hl
    · cases hl
    · rename_i hr
      cases hl
      exact .closeRx hn hw hr

/-! ## Each direction is a link -/

variable {t} {d d' : Duplex}

/-- `P` holds of both links when steps of the links keep it. -/
theorem links_induct {P : Side → State → Prop}
    (hP : ∀ side l ev l', P side l → step (t.cfg side) l ev = some l' → P side l') {ev : DuplexEv}
    (h : ∀ side, P side (d.links side)) (hs : duplexStep t d ev = some d') :
    ∀ side, P side (d'.links side) := by
  have hact {d₁ d₂ : Duplex} {side : Side} {ev : Ev} (h₁ : ∀ side, P side (d₁.links side))
      (ha : d₁.act t side ev = some d₂) : ∀ side, P side (d₂.links side) := by
    obtain ⟨l, hl, rfl⟩ := (act_eq_some t).mp ha
    intro other
    rcases side.eq_or_peer other with rfl | rfl
    · rw [Duplex.links_set]; exact hP _ _ _ _ (h₁ _) hl
    · rw [Duplex.links_set_peer]; exact h₁ _
  cases ev with
  | writer side ev =>
    simp only [duplexStep, Option.ite_none_right_eq_some] at hs
    exact hact h hs.2
  | cut side i k => exact hact h hs
  | copy side ev =>
    simp only [duplexStep, Option.ite_none_right_eq_some] at hs
    exact hact h hs.2
  | sendOp side =>
    simp only [duplexStep] at hs
    split at hs
    · split at hs
      · exact hact h hs
      · simp only [Option.map_eq_some_iff, Option.bind_eq_some_iff] at hs
        obtain ⟨d₂, ⟨d₁, h₁, h₂⟩, rfl⟩ := hs
        intro other
        exact hact (hact h h₁) h₂ other
    · cases hs
  | notify side =>
    simp only [duplexStep, Option.ite_none_right_eq_some, Option.map_eq_some_iff] at hs
    obtain ⟨-, d₁, h₁, rfl⟩ := hs
    intro other
    exact hact h h₁ other
  | dropClose side | closeRx side =>
    simp only [duplexStep, Option.ite_none_right_eq_some] at hs
    exact hact h hs.2

theorem links_reachable (hr : (duplex t).Reachable d) (side : Side) :
    (link (t.cfg side)).Reachable (d.links side) := by
  have hind : (duplex t).Inductive fun d => ∀ side, (link (t.cfg side)).Reachable (d.links side) := {
    init := by rintro d rfl side; exact ⟨_, [], rfl, .nil _⟩
    step := fun _ _ _ h hs => links_induct (fun _ _ _ _ hl hstep => hl.step hstep) h hs }
  exact hind.reachable d hr side

/-- **Each direction is a link.** Whatever the two sides do, each direction
of a tunnel goes through a run of `link`: what is written to the local
socket of one side is a prefix of what the other side read, and every read
is handed over once. -/
theorem directions_are_links (t : Setup) (d : Duplex) (hr : (duplex t).Reachable d) (side : Side) :
    (link (t.cfg side)).Reachable (d.links side) ∧
      (d.links side).delivered <+: (d.links side).reads.flatten ∧ HandedOnce (d.links side) := by
  have hl := links_reachable hr side
  have h := (inv_inductive (t.cfg side)).reachable _ hl
  obtain ⟨owed, hreads, -⟩ := h.owed
  refine ⟨hl, ?_, handedOnce_of_inv h⟩
  rw [hreads, List.flatten_append]
  exact h.delivered.trans (List.prefix_append _ _)

/-- A WebSocket tunnel with pings on both sides. -/
def plainSetup : Setup := ⟨.websocket, fun _ => true, fun len _ n => len + n⟩

/-- The client sends two bytes and closes; the server's reader delivers them
and takes the Close. -/
def clientCloses : List DuplexEv :=
  [.writer .client (.read [1, 2]), .writer .client (.writeFrame true false [7, 7]),
    .writer .client (.flush true), .writer .client .readEnd, .copy .server .recv,
    .writer .client (.closeFrame true), .copy .server (.deliver 2), .copy .server .recv,
    .sendOp .server]

theorem directions_are_links_clientCloses : ∃ d, (duplex plainSetup).Reachable d ∧
    (d.links .client).delivered = [1, 2] ∧
    (d.links .client).delivered <+: (d.links .client).reads.flatten := by
  obtain ⟨d, hd, hdel⟩ : ∃ d, LTS.exec (duplexStep plainSetup) (Duplex.start plainSetup) clientCloses =
      some d ∧ (d.links .client).delivered = [1, 2] := ⟨_, rfl, by decide⟩
  have hr : (duplex plainSetup).Reachable d := ⟨_, clientCloses, rfl, LTS.run_ofFn.mpr hd⟩
  exact ⟨d, hr, hdel, (directions_are_links plainSetup d hr .client).2.1⟩

/-! ## The other side ends -/

/-- The events by which an `await` of the writer returns an error. -/
def SenderEv.fails : SenderEv → Bool
  | .writeFrame ok _ _ | .flush ok | .sendData ok | .popOp ok | .pingFrame ok => !ok
  | _ => false

/-- The runs in which `side` does not end by itself: its source stays open,
its awaits succeed and its pings are answered, what it receives can be
written, and its stream ends behind the last frame. Of the other side only
the writes have to succeed. -/
def steady (side : Side) (d : Duplex) : DuplexEv → Bool
  | .writer s ev =>
    if s = side then
      ev ≠ .readEnd && !ev.fails && (ev ≠ .tick || (d.writer side).inFlightPing < 3)
    else !ev.failsWrite
  | .copy s .recvEnd => s ≠ side || ((d.links side.peer).wire = [] && (d.writer side.peer).pc = .ended)
  | .copy s .deliverErr => s ≠ side
  | _ => true

/-- Where the Close frame of a link is. It is the last frame, and its writer
has returned. -/
inductive CloseAt (l : State) : Prop where
  | unsent (hw : Frame.close ∉ l.wire) (hr : l.receiver ≠ .sendingOp .close)
  | onWire {fs : List Frame} (hpc : l.sender.pc = .ended) (hw : l.wire = fs ++ [.close])
      (hfs : Frame.close ∉ fs) (hr : l.receiver ≠ .sendingOp .close)
  | received (hpc : l.sender.pc = .ended) (hw : l.wire = []) (hr : l.receiver = .sendingOp .close)

/-- The writer of a side has no reason to end. -/
structure Running (s : Sender) : Prop where
  close : s.pc ≠ .close
  ended : s.pc ≠ .ended
  asked : s.closeRequested = false
  ops : Op.close ∉ s.ops

theorem Running.queue {s : Sender} {op : Op} (h : Running s) (hop : op ≠ .close) :
    Running { s with ops := s.ops ++ [op] } :=
  { h with ops := by simp [h.ops, Ne.symm hop] }

/-- While the reader of a steady side runs, no Close of this side is under
way. `inbound` is the link the side reads, `outbound` the one it sends on. -/
structure Open (inbound outbound : State) : Prop where
  writer : Running outbound.sender
  wire : Frame.close ∉ outbound.wire
  answer : outbound.receiver ≠ .sendingOp .close
  peerOps : Op.close ∉ inbound.sender.ops
  closeAt : CloseAt inbound

/-- Everything is delivered and nothing will be added. -/
structure Complete (l : State) : Prop where
  writer : l.sender.pc = .ended
  reader : l.receiver = .ended
  delivered : l.delivered = l.reads.flatten

theorem handleOp_noClose {s : Sender} {ok : Bool} (hops : Op.close ∉ s.ops) :
    Op.close ∉ (handleOp s ok).1.ops ∧ Frame.close ∉ (handleOp s ok).2 := by
  unfold handleOp
  split
  · exact ⟨hops, by simp⟩
  · rename_i ops heq; simp [heq] at hops
  · rename_i p ops heq
    rw [heq, List.mem_cons, not_or] at hops
    split <;> exact ⟨hops.2, by simp⟩
  · rename_i ops heq
    rw [heq, List.mem_cons, not_or] at hops
    exact ⟨hops.2, by simp⟩

theorem handleOp_goesOn (s : Sender) :
    ((handleOp s true).1.pc = .select ∨ (handleOp s true).1.pc = s.pc) ∧
      (handleOp s true).1.closeRequested = s.closeRequested := by
  unfold handleOp
  split
  · exact ⟨.inl rfl, rfl⟩
  all_goals exact ⟨.inr rfl, rfl⟩

/-- A writer without a queued Close sends at most its own, and returns. -/
theorem writer_close {cfg : Cfg} {s s' : Sender} {ev : SenderEv} {fs : List Frame}
    (hev : ev.isOwn = true ∨ ev = .pending) (hops : Op.close ∉ s.ops)
    (hs : senderStep cfg s ev = some (s', fs)) :
    s.pc ≠ .ended ∧ Op.close ∉ s'.ops ∧
      (Frame.close ∉ fs ∨ (fs = [.close] ∧ s'.pc = .ended)) := by
  cases move_of_senderStep cfg hs with
  | pending hp | read hp | stop hev hp => rw [hp]; exact ⟨by decide, hops, .inl (by simp)⟩
  | flushed hp | flushErr hp => rw [hp]; exact ⟨by decide, hops, .inl (by simp)⟩
  | tick hp =>
    rw [hp]
    refine ⟨by decide, ?_, .inl (by simp)⟩
    unfold pingTick
    split
    · exact hops
    · dsimp only; split <;> exact hops
  | writeFrame hp | sendData hp _ | pingFrame hp =>
    rw [hp]
    exact ⟨by decide, hops, .inl (by split <;> simp)⟩
  | popOp hp =>
    rw [hp]
    exact ⟨by decide, (handleOp_noClose hops).1, .inl (handleOp_noClose hops).2⟩
  | closeFrame hp =>
    rw [hp]
    refine ⟨by decide, hops, ?_⟩
    split
    · exact .inr ⟨rfl, rfl⟩
    · exact .inl (by simp)
  | queueOp | notify | requestClose => simp [SenderEv.isOwn] at hev

/-- A step of the writer of a steady side. -/
theorem running_step {cfg : Cfg} {s s' : Sender} {ev : SenderEv} {fs : List Frame}
    (h : Running s) (hev : ev.isOwn = true ∨ ev = .pending) (hend : ev ≠ .readEnd)
    (hok : ev.fails = false) (hping : ev = .tick → s.inFlightPing < 3)
    (hs : senderStep cfg s ev = some (s', fs)) : Running s' ∧ Frame.close ∉ fs := by
  have hmove := move_of_senderStep cfg hs
  obtain ⟨-, hops, hfs⟩ := writer_close hev h.ops hs
  cases hmove with
  | pending hp | read hp => exact ⟨⟨by simp, by simp, h.asked, h.ops⟩, by simp⟩
  | stop hstop hp =>
    rcases hstop with rfl | rfl
    · exact absurd rfl hend
    · simp [senderStep, h.asked] at hs
  | tick hp =>
    refine ⟨?_, by simp⟩
    unfold pingTick
    split
    · exact h
    · have hlt := hping rfl
      dsimp only
      rw [if_neg (by omega)]
      exact ⟨by simp, by simp, h.asked, h.ops⟩
  | writeFrame hp | sendData hp _ | pingFrame hp =>
    simp only [SenderEv.fails, Bool.not_eq_eq_eq_not, Bool.not_false] at hok
    subst hok
    exact ⟨⟨by simp, by simp, h.asked, h.ops⟩, by simp⟩
  | flushed hp => exact ⟨⟨by simp, by simp, h.asked, h.ops⟩, by simp⟩
  | flushErr hp => simp [SenderEv.fails] at hok
  | @popOp ok hp =>
    simp only [SenderEv.fails, Bool.not_eq_eq_eq_not, Bool.not_false] at hok
    subst hok
    obtain ⟨hpc, hasked⟩ := handleOp_goesOn s
    have hne : (handleOp s true).1.pc ≠ .close ∧ (handleOp s true).1.pc ≠ .ended := by
      rcases hpc with hpc | hpc <;> rw [hpc] <;> simp [hp]
    exact ⟨⟨hne.1, hne.2, by rw [hasked, h.asked], hops⟩, (handleOp_noClose h.ops).2⟩
  | closeFrame hp => exact absurd hp h.close
  | queueOp | notify | requestClose => simp [SenderEv.isOwn] at hev

variable {side : Side} {inbound outbound l l' : State}

theorem CloseAt.congr (h : CloseAt l) (hpc : l'.sender.pc = l.sender.pc) (hw : l'.wire = l.wire)
    (hr : l.receiver ≠ .sendingOp .close) (hr' : l'.receiver ≠ .sendingOp .close) : CloseAt l' := by
  cases h with
  | unsent h₁ _ => exact .unsent (by rwa [hw]) hr'
  | onWire hp h₁ h₂ _ => exact .onWire (by rwa [hpc]) (by rwa [hw]) h₂ hr'
  | received _ _ h₁ => exact absurd h₁ hr

/-- The queue and the flags of the writer do not matter. -/
theorem CloseAt.silent {ev : SenderEv} {s : Sender} (h : CloseAt l) (hpc : s.pc = l.sender.pc) :
    CloseAt (l.sent ev s []) := by
  have hw : (l.sent ev s []).wire = l.wire := List.append_nil _
  cases h with
  | unsent h₁ hr => exact .unsent (by rwa [hw]) hr
  | onWire hp h₁ h₂ hr => exact .onWire (hpc.trans hp) (hw.trans h₁) h₂ hr
  | received hp h₁ hr => exact .received (hpc.trans hp) (hw.trans h₁) hr

theorem CloseAt.recv {f : Frame} {fs : List Frame} (h : CloseAt l) (hr : l.receiver = .copying)
    (hw : l.wire = f :: fs) : CloseAt { l with receiver := receive .websocket f, wire := fs } := by
  have hother (hf : f ≠ .close) : receive .websocket f ≠ .sendingOp .close := by
    cases f <;> simp_all [receive]
  cases h with
  | unsent h₁ _ =>
    rw [hw, List.mem_cons, not_or] at h₁
    exact .unsent h₁.2 (hother fun e => h₁.1 e.symm)
  | @onWire fs₀ hp h₁ h₂ _ =>
    rw [hw] at h₁
    cases fs₀ with
    | nil =>
      rw [List.nil_append, List.cons.injEq] at h₁
      obtain ⟨rfl, rfl⟩ := h₁
      exact .received hp rfl rfl
    | cons g gs =>
      rw [List.cons_append, List.cons.injEq] at h₁
      obtain ⟨rfl, rfl⟩ := h₁
      rw [List.mem_cons, not_or] at h₂
      exact .onWire hp rfl h₂.2 (hother fun e => h₂.1 e.symm)
  | received _ _ h₁ => rw [hr] at h₁; cases h₁

/-- The other side's writer takes a step. -/
theorem Open.peerWrites {cfg : Cfg} {ev : SenderEv} {sender : Sender} {frames : List Frame}
    (h : Open inbound outbound) (hev : ev.isOwn = true ∨ ev = .pending)
    (hs : senderStep cfg inbound.sender ev = some (sender, frames)) :
    Open (inbound.sent ev sender frames) outbound := by
  obtain ⟨hne, hops, hfs⟩ := writer_close hev h.peerOps hs
  refine { h with peerOps := hops, closeAt := ?_ }
  cases h.closeAt with
  | unsent hw hr =>
    rcases hfs with hfs | ⟨rfl, hp⟩
    · refine .unsent ?_ hr
      simp only [State.sent, List.mem_append, not_or]
      exact ⟨hw, hfs⟩
    · exact .onWire hp rfl hw hr
  | onWire hp => exact absurd hp hne
  | received hp => exact absurd hp hne

/-- A Close that has arrived means that nothing else is on its way. -/
theorem Complete.of_drained (h : Inv l) (hf : l.writeFailed = false) (hpc : l.sender.pc = .ended)
    (hw : l.wire = []) (hr : l.receiver ≠ .ended) (hrest : l.receiver.rest = []) :
    Complete { l with receiver := .ended } := by
  refine ⟨hpc, rfl, ?_⟩
  obtain ⟨owed, hreads, howes⟩ := h.owed
  have howed : owed = [] := by
    simp only [Owes, hpc, hf, Bool.false_eq_true, false_and, or_false] at howes
    exact howes
  have hflow := h.flow hr
  rw [hrest, hw] at hflow
  simp only [payloads, List.flatten_nil, List.append_nil] at hflow
  rw [hreads, howed, List.append_nil, hflow]

/-- The reader of `side` runs and no Close of it is under way, or it has
returned and everything is delivered. -/
structure Graceful (side : Side) (d : Duplex) : Prop where
  inv : ∀ s, Inv (d.links s)
  noFail : (d.links side.peer).writeFailed = false
  state : ((d.links side.peer).receiver ≠ .ended ∧ Open (d.links side.peer) (d.links side)) ∨
    Complete (d.links side.peer)

theorem noFail_step {ev : DuplexEv} (h : (d.links side.peer).writeFailed = false)
    (hst : steady side d ev = true) (hs : DuplexMove t d ev d') :
    (d'.links side.peer).writeFailed = false := by
  cases hs with
  | @writer s ev _ _ hev _ =>
    rcases side.eq_or_peer s with rfl | rfl
    · simpa using h
    · simp only [steady, Side.peer_ne, if_false, Bool.not_eq_eq_eq_not, Bool.not_true] at hst
      simp [State.sent, h, hst]
  | @cut s | @recv s | @recvEnd s | @skip s | @deliver s | @deliverErr s | @queued s | @refused s
    | @notify s | @dropClose s | @closeRx s =>
    rcases side.eq_or_peer s with rfl | rfl <;> simpa [State.sent, SenderEv.failsWrite] using h

theorem complete_step {ev : DuplexEv} (h : Complete (d.links side.peer)) (hs : DuplexMove t d ev d') :
    Complete (d'.links side.peer) := by
  cases hs with
  | @writer s ev sender frames hev hstep =>
    rcases side.eq_or_peer s with rfl | rfl
    · simpa using h
    · exfalso
      have hpc := h.writer
      cases move_of_senderStep _ hstep with
      | queueOp | notify | requestClose => simp [SenderEv.isOwn] at hev
      | _ => simp_all
  | @recv s _ _ _ hr | @recvEnd s _ hr | @deliver s _ _ _ hr | @deliverErr s _ _ hr | @refused s _ hr
    | @closeRx s _ _ hr =>
    rcases side.eq_or_peer s with rfl | rfl
    · exact absurd h.reader (by simp [hr])
    · simpa using h
  | @cut s =>
    rcases side.eq_or_peer s with rfl | rfl
    · simpa using h
    · simpa using ⟨h.writer, h.reader, h.delivered⟩
  | @skip s => rcases side.eq_or_peer s with rfl | rfl <;> simpa using h
  | @queued s op hr _ =>
    rcases side.eq_or_peer s with rfl | rfl
    · exact absurd h.reader (by simp [hr])
    · simpa [State.sent, SenderEv.readBytes, payloads] using ⟨h.writer, h.reader, h.delivered⟩
  | @notify s | @dropClose s =>
    rcases side.eq_or_peer s with rfl | rfl
    · simpa using h
    · simpa [State.sent, SenderEv.readBytes, payloads] using ⟨h.writer, h.reader, h.delivered⟩

/-- The other side takes a step, while the reader of a steady side runs. -/
theorem open_peer {ev : DuplexEv} (hk : t.kind = .websocket)
    (hr : (d.links ev.side).receiver ≠ .ended) (h : Open (d.links ev.side) (d.links ev.side.peer))
    (hs : DuplexMove t d ev d') :
    (d'.links ev.side).receiver ≠ .ended ∧ Open (d'.links ev.side) (d'.links ev.side.peer) := by
  cases hs <;> simp only [DuplexEv.side, Duplex.links_set, Duplex.links_set_peer,
    Duplex.links_peer_set, Duplex.links_setOwes] at hr h ⊢
  case writer hev hstep => exact ⟨hr, h.peerWrites hev hstep⟩
  case cut hc | skip hc => rw [hk] at hc; cases hc
  case recv f fs _ _ hw =>
    have hclose := h.wire
    rw [hw, List.mem_cons, not_or] at hclose
    have hrec : receive t.kind f ≠ .sendingOp .close := by
      rw [hk]; cases f <;> simp_all [receive]
    exact ⟨hr, { h with wire := hclose.2, answer := hrec }⟩
  case deliver k rest _ _ _ =>
    have hrec : (if k = rest.length then ReceiverPc.copying else .writing (rest.drop k)) ≠
        .sendingOp .close := by split <;> simp
    exact ⟨hr, { h with answer := hrec }⟩
  case recvEnd | deliverErr | closeRx => exact ⟨hr, { h with answer := by simp }⟩
  case refused op _ _ =>
    have hrec : afterOp op false ≠ .sendingOp .close := by cases op <;> simp [afterOp]
    exact ⟨hr, { h with answer := hrec }⟩
  case queued side op hop _ _ _ =>
    have hne : op ≠ .close := fun e => h.answer (by rw [hop, e])
    have hops : Op.close ∉ (d.links side).sender.ops ++ [op] := by simp [h.peerOps, hne.symm]
    have hrec : afterOp op true ≠ .sendingOp .close := by cases op <;> simp [afterOp]
    exact ⟨hr, { h with peerOps := hops, answer := hrec, closeAt := h.closeAt.silent rfl }⟩
  case notify | dropClose => exact ⟨hr, { h with closeAt := h.closeAt.silent rfl }⟩

/-- `side` takes a step, while its reader runs: it goes on, or it ends
behind the Close of the other side. -/
theorem open_own {ev : DuplexEv} (hk : t.kind = .websocket) (hinv : Inv (d.links ev.side.peer))
    (hf : (d.links ev.side.peer).writeFailed = false) (hst : steady ev.side d ev = true)
    (hr : (d.links ev.side.peer).receiver ≠ .ended) (h : Open (d.links ev.side.peer) (d.links ev.side))
    (hs : DuplexMove t d ev d') :
    ((d'.links ev.side.peer).receiver ≠ .ended ∧ Open (d'.links ev.side.peer) (d'.links ev.side)) ∨
      Complete (d'.links ev.side.peer) := by
  cases hs <;> simp only [DuplexEv.side, Duplex.links_set, Duplex.links_set_peer,
    Duplex.links_peer_set, Duplex.links_setOwes] at hinv hf hr h ⊢
  case writer ev sender frames hev hstep =>
    simp only [steady, DuplexEv.side, if_true, Bool.and_eq_true, decide_eq_true_eq,
      Bool.not_eq_true', Bool.or_eq_true, ne_eq] at hst
    obtain ⟨⟨hend, hok⟩, hping⟩ := hst
    obtain ⟨hrun, hfs⟩ := running_step h.writer hev hend hok
      (fun he => of_decide_eq_true (hping.resolve_left (· he))) hstep
    refine .inl ⟨hr, { h with writer := hrun, wire := ?_ }⟩
    simp only [State.sent, List.mem_append, not_or]
    exact ⟨h.wire, hfs⟩
  case cut hc | skip hc => rw [hk] at hc; cases hc
  case recv f fs _ hcopy hw =>
    rw [hk]
    have hrec : receive .websocket f ≠ .ended := by cases f <;> simp [receive]
    exact .inl ⟨hrec, { h with closeAt := h.closeAt.recv hcopy hw }⟩
  case recvEnd hcopy =>
    simp only [steady, DuplexEv.side, ne_eq, not_true_eq_false, decide_false, Bool.false_or,
      Bool.and_eq_true] at hst
    have hpc := of_decide_eq_true hst.2
    exact .inr (.of_drained hinv hf hpc (of_decide_eq_true hst.1) hr (by rw [hcopy]; rfl))
  case deliver k rest _ hw _ =>
    have hrec : (if k = rest.length then ReceiverPc.copying else .writing (rest.drop k)) ≠ .ended := by
      split <;> simp
    refine .inl ⟨hrec, { h with closeAt := h.closeAt.congr rfl rfl (by simp [hw]) ?_ }⟩
    dsimp only
    split <;> simp
  case deliverErr => simp [steady, DuplexEv.side] at hst
  case queued s op hop _ _ _ =>
    by_cases hop' : op = .close
    · subst hop'
      cases h.closeAt with
      | unsent _ hne | onWire _ _ _ hne => exact absurd hop hne
      | received hpc hw _ => exact .inr (.of_drained hinv hf hpc hw hr (by rw [hop]; rfl))
    · have hcopy : afterOp op true = .copying := by cases op <;> simp_all [afterOp]
      rw [hcopy]
      have hheld : (d.links s.peer).receiver ≠ .sendingOp .close := by rw [hop]; simpa using hop'
      exact .inl ⟨by simp, { h with
        writer := h.writer.queue hop'
        wire := by simpa [State.sent] using h.wire
        closeAt := h.closeAt.congr rfl rfl hheld (by simp) }⟩
  case refused hw => exact absurd hw h.writer.ended
  case notify =>
    have hw := h.writer
    exact .inl ⟨hr, { h with
      writer := ⟨hw.close, hw.ended, hw.asked, hw.ops⟩
      wire := by simpa [State.sent] using h.wire }⟩
  case dropClose hended _ => exact absurd hended hr
  case closeRx hw _ => exact absurd hw h.writer.ended

theorem graceful_step {ev : DuplexEv} (hk : t.kind = .websocket) (h : Graceful side d)
    (hst : steady side d ev = true) (hs : duplexStep t d ev = some d') : Graceful side d' := by
  have hm := move_of_duplexStep t hs
  refine ⟨links_induct (fun _ _ _ _ hl hstep => inv_step hl hstep) h.inv hs,
    noFail_step h.noFail hst hm, ?_⟩
  rcases h.state with ⟨hr, ho⟩ | hc
  · rcases side.eq_or_peer ev.side with he | he
    · subst he
      exact open_own hk (h.inv _) h.noFail hst hr ho hm
    · obtain rfl : ev.side.peer = side := by rw [he, Side.peer_peer]
      simp only [Side.peer_peer] at hr ho ⊢
      exact .inl (open_peer hk hr ho hm)
  · exact .inr (complete_step hc hm)

theorem graceful_inductive (hk : t.kind = .websocket) (side : Side) :
    ((duplex t).guard fun d ev => steady side d ev = true).Inductive (Graceful side) where
  init := by
    rintro d rfl
    refine ⟨fun s => inv_start, rfl, .inl ⟨by simp [Duplex.start, start], ?_⟩⟩
    exact ⟨⟨by simp [Duplex.start, start, Sender.start], by simp [Duplex.start, start, Sender.start], rfl,
      by simp [Duplex.start, start, Sender.start]⟩, by simp [Duplex.start, start],
      by simp [Duplex.start, start], by simp [Duplex.start, start, Sender.start],
      .unsent (by simp [Duplex.start, start]) (by simp [Duplex.start, start])⟩
  step _ _ _ h hs := graceful_step hk h hs.2 hs.1

/-- **A side that stops because the other one ended has everything.** In the
runs of a WebSocket tunnel in which `side` does not end by itself, its
reader returns only when the other side's writer has returned, and by then
it has written every byte that side ever read. -/
theorem peer_close_complete (t : Setup) (hk : t.kind = .websocket) (side : Side) (d : Duplex)
    (hr : ((duplex t).guard fun d ev => steady side d ev = true).Reachable d)
    (hend : d.reader side = .ended) :
    (d.writer side.peer).pc = .ended ∧
      (d.links side.peer).delivered = (d.links side.peer).reads.flatten := by
  rcases ((graceful_inductive hk side).reachable d hr).state with ⟨hne, -⟩ | hc
  · exact absurd hend hne
  · exact ⟨hc.writer, hc.delivered⟩

theorem peer_close_complete_clientCloses : ∃ d,
    ((duplex plainSetup).guard fun d ev => steady .server d ev = true).Reachable d ∧
    d.reader .server = .ended ∧ (d.links .client).delivered = [1, 2] ∧
    (d.links .client).delivered = (d.links .client).reads.flatten := by
  obtain ⟨d, hd, hend, hdel⟩ : ∃ d, LTS.exec
      (fun d ev => if steady .server d ev = true then duplexStep plainSetup d ev else none)
      (Duplex.start plainSetup) clientCloses = some d ∧ d.reader .server = .ended ∧
      (d.links .client).delivered = [1, 2] := ⟨_, rfl, rfl, by decide⟩
  have hr : ((duplex plainSetup).guard fun d ev => steady .server d ev = true).Reachable d :=
    ⟨_, clientCloses, rfl, LTS.run_guard_ofFn hd⟩
  exact ⟨d, hr, hend, hdel, (peer_close_complete plainSetup rfl .server d hr hend).2⟩

end Wstunnel.L3.Link
