import Wstunnel.Core.LTS
import Wstunnel.L3Transport.Sender

/-!
# One direction of a tunnel: sender, transport, receiver

The sender loop of one side, a transport that keeps frames in order and
loses none (and may cut an HTTP/2 payload in pieces), and
`propagate_remote_to_local` of the other side with the `copy` of the two
readers. The runs are all interleavings of their steps, with any read
sizes, control frames, errors and close signals; a close signal drops the
receiver's `copy` wherever it stands, also in the middle of a `write_all`.

**Third-party code.** TCP, TLS and the streams of `hyper` are the transport above:
order and completeness are assumed, as long as the connection lives. What
`fastwebsockets` and `hyper` hand to a reader are whole frames, or pieces of data
frames over HTTP/2. When reads, writes and the stream fail is left to the events.

**Results.**
* `bytes_delivered_in_order`: in every state of every run the bytes written to
  the destination are a prefix of the bytes read from the source, and every
  read has been handed to the transport once, in order, but for the last one
  while it is being written or when its own write failed and ended the loop.
-/
namespace Wstunnel.L3.Link

/-- Where the receiver waits: in `read_frame`, in `write_all` with bytes left
to write, or in the `send` of an operation to its own writer. -/
inductive ReceiverPc where
  | copying
  | writing (rest : Bytes)
  | sendingOp (op : Op)
  | ended
  deriving DecidableEq, Repr

/-- What the receiver still has to write of the frame it took. -/
def ReceiverPc.rest : ReceiverPc → Bytes
  | .writing rest => rest
  | _ => []

/-- `reads`, `handed` and `writeFailed` record what happened: the reads of
the source in order, the payloads handed to the transport, and whether a
write failed. -/
structure State where
  sender : Sender
  wire : List Frame
  receiver : ReceiverPc
  delivered : Bytes
  reads : List Bytes
  handed : List Bytes
  writeFailed : Bool
  deriving DecidableEq, Repr

inductive Ev where
  | sender (ev : SenderEv)
  /-- the HTTP/2 transport cuts the `i`-th frame after `k` bytes -/
  | cut (i k : Nat)
  | recv
  /-- the stream ends or fails -/
  | recvEnd
  /-- an HTTP/2 frame that is not data -/
  | skip
  /-- `k` more bytes accepted by the destination -/
  | deliver (k : Nat)
  | deliverErr
  | opSent (ok : Bool)
  | closeRx
  deriving DecidableEq, Repr

variable (cfg : Cfg)

/-- The first frame goes to the receiver.
mirrors wstunnel/src/tunnel/transport/websocket.rs:190-235 and http2.rs:47-72 -/
def receive (kind : Kind) : Frame → ReceiverPc
  | .data payload => .writing payload
  | .close => match kind with
    | .websocket => .sendingOp .close
    | .http2 => .copying
  | .ping => match kind with
    | .websocket => .sendingOp (.ping [])
    | .http2 => .copying
  | .pong _ => match kind with
    | .websocket => .sendingOp .pong
    | .http2 => .copying

/-- After the operation is queued: a close ends the loop, and so does a
queue that is gone. -/
def afterOp (op : Op) (ok : Bool) : ReceiverPc :=
  match op with
  | .close => .ended
  | _ => if ok then .copying else .ended

/-- Frame `i` cut in two after `k` bytes of payload. -/
def cutFrame : List Frame → Nat → Nat → List Frame
  | .data p :: fs, 0, k => .data (p.take k) :: .data (p.drop k) :: fs
  | f :: fs, i + 1, k => f :: cutFrame fs i k
  | fs, _, _ => fs

def step (s : State) : Ev → Option State
  | .sender ev => match senderStep cfg s.sender ev with
    | none => none
    | some (sender, frames) => some { s with
        sender, wire := s.wire ++ frames
        reads := s.reads ++ ev.readBytes
        handed := s.handed ++ payloads frames
        writeFailed := s.writeFailed || ev.failsWrite }
  | .cut i k => if cfg.kind = .http2 then some { s with wire := cutFrame s.wire i k } else none
  | .recv => match s.receiver, s.wire with
    | .copying, f :: fs => some { s with receiver := receive cfg.kind f, wire := fs }
    | _, _ => none
  | .recvEnd => if s.receiver = .copying then some { s with receiver := .ended } else none
  | .skip => if s.receiver = .copying ∧ cfg.kind = .http2 then some s else none
  | .deliver k => match s.receiver with
    | .writing rest =>
      if k ≤ rest.length then
        some { s with
          delivered := s.delivered ++ rest.take k
          receiver := if k = rest.length then .copying else .writing (rest.drop k) }
      else none
    | _ => none
  | .deliverErr => match s.receiver with
    | .writing _ => some { s with receiver := .ended }
    | _ => none
  | .opSent ok => match s.receiver with
    | .sendingOp op => some { s with receiver := afterOp op ok }
    | _ => none
  | .closeRx => if s.receiver = .ended then none else some { s with receiver := .ended }

/-- Both loops at their start, nothing in flight. -/
def start : State where
  sender := Sender.start cfg
  wire := []
  receiver := .copying
  delivered := []
  reads := []
  handed := []
  writeFailed := false

def link : LTS State Ev := LTS.ofFn (· = start cfg) (step cfg)

/-! ## The invariant -/

/-- `handed` and what the sender owes make up the reads; what was handed
over is delivered, in the receiver's hands or on the wire, as long as the
receiver runs. -/
structure Inv (s : State) : Prop where
  owed : ∃ owed, s.reads = s.handed ++ owed ∧ Owes s.sender s.writeFailed owed
  flow : s.receiver ≠ .ended →
    s.handed.flatten = s.delivered ++ s.receiver.rest ++ (payloads s.wire).flatten
  delivered : s.delivered <+: s.handed.flatten

theorem payloads_cutFrame : ∀ (fs : List Frame) (i k : Nat),
    (payloads (cutFrame fs i k)).flatten = (payloads fs).flatten
  | [], i, k => by cases i <;> rfl
  | .data p :: fs, 0, k => by simp [cutFrame, payloads, ← List.append_assoc]
  | .ping :: fs, 0, k | .pong _ :: fs, 0, k | .close :: fs, 0, k => rfl
  | f :: fs, i + 1, k => by
    have ih := payloads_cutFrame fs i k
    cases f <;> simp [cutFrame, payloads, ih]

theorem payloads_cons (f : Frame) (fs : List Frame) :
    payloads (f :: fs) = payloads [f] ++ payloads fs := by
  rw [← payloads_append]; rfl

/-- The frame taken off the wire is in the receiver's hands. -/
theorem receive_rest (kind : Kind) (f : Frame) : (receive kind f).rest = (payloads [f]).flatten := by
  cases f <;> cases kind <;> simp [receive, ReceiverPc.rest, payloads]

theorem afterOp_rest (op : Op) (ok : Bool) : (afterOp op ok).rest = [] := by
  cases op <;> cases ok <;> rfl

variable {cfg} {s s' : State}

theorem inv_start : Inv (start cfg) := by
  refine ⟨⟨[], rfl, Owes.start⟩, fun _ => rfl, List.prefix_rfl⟩

/-- The receiver stops: what it delivered stays a prefix. -/
theorem Inv.stop (h : Inv s) : Inv { s with receiver := .ended } :=
  ⟨h.owed, fun hne => absurd rfl hne, h.delivered⟩

theorem inv_sender {ev : SenderEv} {sender : Sender} {frames : List Frame} (h : Inv s)
    (hs : senderStep cfg s.sender ev = some (sender, frames)) :
    Inv { s with
      sender, wire := s.wire ++ frames, reads := s.reads ++ ev.readBytes
      handed := s.handed ++ payloads frames, writeFailed := s.writeFailed || ev.failsWrite } := by
  obtain ⟨owed, hreads, howes⟩ := h.owed
  obtain ⟨owed', howes', heq⟩ := senderStep_owes hs howes
  refine ⟨⟨owed', ?_, howes'⟩, fun hne => ?_, ?_⟩
  · calc s.reads ++ ev.readBytes
        = s.handed ++ (owed ++ ev.readBytes) := by rw [hreads, List.append_assoc]
      _ = s.handed ++ payloads frames ++ owed' := by rw [heq, List.append_assoc]
  · have hflow := h.flow hne
    simp only [List.flatten_append, payloads_append]
    rw [hflow]
    simp only [List.append_assoc]
  · rw [List.flatten_append]
    exact h.delivered.trans (List.prefix_append _ _)

theorem inv_recv {f : Frame} {fs : List Frame} (h : Inv s) (hr : s.receiver = .copying)
    (hw : s.wire = f :: fs) : Inv { s with receiver := receive cfg.kind f, wire := fs } := by
  have hflow := h.flow (by rw [hr]; exact ReceiverPc.noConfusion)
  refine ⟨h.owed, fun _ => ?_, h.delivered⟩
  rw [hr, hw, payloads_cons] at hflow
  dsimp only
  rw [hflow, receive_rest]
  simp [ReceiverPc.rest, List.flatten_append]

theorem inv_deliver {rest : Bytes} {k : Nat} (h : Inv s) (hr : s.receiver = .writing rest) :
    Inv { s with
      delivered := s.delivered ++ rest.take k
      receiver := if k = rest.length then .copying else .writing (rest.drop k) } := by
  have hflow := h.flow (by rw [hr]; exact ReceiverPc.noConfusion)
  rw [hr] at hflow
  have hrest : (if k = rest.length then ReceiverPc.copying else .writing (rest.drop k)).rest =
      rest.drop k := by
    split
    · rename_i he; simp [ReceiverPc.rest, he]
    · rfl
  have hflow' : s.handed.flatten =
      s.delivered ++ rest.take k ++ rest.drop k ++ (payloads s.wire).flatten := by
    rw [hflow, List.append_assoc s.delivered (rest.take k) (rest.drop k), List.take_append_drop]
    rfl
  refine ⟨h.owed, fun _ => ?_, ?_⟩
  · dsimp only; rw [hrest, hflow']
  · dsimp only
    rw [hflow', List.append_assoc (s.delivered ++ rest.take k)]
    exact List.prefix_append _ _

theorem inv_step {ev : Ev} (h : Inv s) (hs : step cfg s ev = some s') : Inv s' := by
  cases ev with
  | sender ev =>
    simp only [step] at hs
    split at hs
    · cases hs
    · rename_i sender frames hstep
      cases hs
      exact inv_sender h hstep
  | cut i k =>
    simp only [step] at hs
    split at hs
    · cases hs
      exact ⟨h.owed, fun hne => by dsimp only; rw [payloads_cutFrame]; exact h.flow hne, h.delivered⟩
    · cases hs
  | recv =>
    simp only [step] at hs
    split at hs
    · rename_i f fs hr hw; cases hs; exact inv_recv h hr hw
    · cases hs
  | recvEnd =>
    simp only [step] at hs
    split at hs
    · cases hs; exact h.stop
    · cases hs
  | skip =>
    simp only [step] at hs
    split at hs
    · cases hs; exact h
    · cases hs
  | deliver k =>
    simp only [step] at hs
    split at hs
    · rename_i rest hr
      split at hs
      · cases hs; exact inv_deliver h hr
      · cases hs
    · cases hs
  | deliverErr =>
    simp only [step] at hs
    split at hs
    · cases hs; exact h.stop
    · cases hs
  | opSent ok =>
    simp only [step] at hs
    split at hs
    · rename_i op hr
      cases hs
      have hflow := h.flow (by rw [hr]; exact ReceiverPc.noConfusion)
      rw [hr] at hflow
      exact ⟨h.owed, fun _ => by dsimp only; rw [afterOp_rest]; exact hflow, h.delivered⟩
    · cases hs
  | closeRx =>
    simp only [step] at hs
    split at hs
    · cases hs
    · cases hs; exact h.stop

theorem inv_inductive (cfg : Cfg) : (link cfg).Inductive Inv where
  init := by rintro s rfl; exact inv_start
  step _ _ _ h hs := inv_step h hs

/-! ## Integrity -/

/-- Every read was handed over once and in order, except the last one while
its write is under way, or when its write failed and the loop is over. -/
def HandedOnce (s : State) : Prop :=
  s.handed = s.reads ∨
    ∃ last, s.reads = s.handed ++ [last] ∧
      (s.sender.pc = .write ∨
        (s.writeFailed = true ∧ (s.sender.pc = .close ∨ s.sender.pc = .ended)))

theorem handedOnce_of_inv (h : Inv s) : HandedOnce s := by
  obtain ⟨owed, hreads, howes⟩ := h.owed
  have hpaid (ho : owed = []) : HandedOnce s := .inl (by rw [hreads, ho, List.append_nil])
  have hover (hpc : s.sender.pc = .close ∨ s.sender.pc = .ended)
      (ho : owed = [] ∨ (s.writeFailed = true ∧ ∃ last, owed = [last])) : HandedOnce s := by
    rcases ho with ho | ⟨hf, last, rfl⟩
    · exact hpaid ho
    · exact .inr ⟨last, hreads, .inr ⟨hf, hpc⟩⟩
  unfold Owes at howes
  split at howes
  · exact hpaid howes.1
  · exact hpaid howes.1
  · exact hpaid howes.1
  · rename_i hpc
    exact .inr ⟨_, by rw [hreads, howes], .inl hpc⟩
  · exact hpaid howes
  · rename_i hpc
    exact hover (.inl hpc) howes
  · rename_i hpc
    exact hover (.inr hpc) howes

/-- A read is taken only when all reads before it are handed over. -/
theorem handed_of_read {bytes : Bytes} (h : Inv s) (hs : step cfg s (.sender (.read bytes)) = some s') :
    s.handed = s.reads := by
  obtain ⟨owed, hreads, howes⟩ := h.owed
  simp only [step] at hs
  split at hs
  · cases hs
  · rename_i hstep
    cases move_of_senderStep cfg hstep with
    | read hp => rw [hreads, (howes.of_between (.inl hp)).1, List.append_nil]
    | stop hev _ => simp at hev

/-- **Byte-stream integrity.** In every state of every run, with either
transport, the bytes delivered are a prefix of the bytes read; each read was
handed to the transport exactly once and before any later read, unless its
own write failed and ended the loop. -/
theorem bytes_delivered_in_order (cfg : Cfg) (s : State) (hr : (link cfg).Reachable s) :
    s.delivered <+: s.reads.flatten ∧ HandedOnce s ∧
      ∀ bytes s', step cfg s (.sender (.read bytes)) = some s' → s.handed = s.reads := by
  have h := (inv_inductive cfg).reachable s hr
  refine ⟨?_, handedOnce_of_inv h, fun bytes s' hs => handed_of_read h hs⟩
  obtain ⟨owed, hreads, -⟩ := h.owed
  rw [hreads, List.flatten_append]
  exact h.delivered.trans (List.prefix_append _ _)

/-- A WebSocket link whose buffer grows to what is asked for. -/
def plainCfg : Cfg := ⟨.websocket, true, fun len _ n => len + n⟩

/-- Two reads, a ping between them, and the first two bytes of the second
delivered when the receiver is told to close. -/
def shortRun : List Ev :=
  [.sender (.read [1, 2]), .sender (.writeFrame true false [7, 7]), .sender (.flush true),
    .sender .tick, .sender (.pingFrame true), .recv, .deliver 2, .sender (.read [3, 4, 5]),
    .sender (.writeFrame true false [9, 9, 9]), .recv, .opSent true, .recv, .deliver 2, .closeRx]

theorem bytes_delivered_shortRun :
    ∃ s, (link plainCfg).Reachable s ∧ s.delivered = [1, 2, 3, 4] ∧
      s.delivered <+: s.reads.flatten ∧ HandedOnce s := by
  obtain ⟨s, hs, hd⟩ : ∃ s, LTS.exec (step plainCfg) (start plainCfg) shortRun = some s ∧
      s.delivered = [1, 2, 3, 4] := ⟨_, rfl, by decide⟩
  have hr : (link plainCfg).Reachable s := ⟨_, shortRun, rfl, LTS.run_ofFn.mpr hs⟩
  obtain ⟨h1, h2, -⟩ := bytes_delivered_in_order plainCfg s hr
  exact ⟨s, hr, hd, h1, h2⟩

end Wstunnel.L3.Link
