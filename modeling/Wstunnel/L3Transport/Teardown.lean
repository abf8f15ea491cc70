import Wstunnel.L3Transport.Duplex

/-!
# The end of a tunnel

The four tasks of a tunnel stop each other in three ways: a reader that
returns asks its writer to close, a writer that returns makes its reader
leave, and a side that has dropped both halves ends the stream of the other.

**What is assumed of the surroundings.** New input may come at any time and
then postpones the end: the `select!` of the writer prefers a readable local
socket to `should_close`. The bound is therefore about the steps without new
input (`quiet`). That the end comes needs the steps of `due`: local sockets
and the network accept what is written, and a stream whose two ends are
dropped is seen as ended.

**Results.**
* `weight_step`: every quiet step makes the tunnel lighter. Answers are paid
  for by the frames that ask for them.
* `teardown`: once one of the four tasks has returned, the others return
  too. There is a bounded number of quiet steps left, and as long as a task
  runs some task can go on.
-/
namespace Wstunnel.L3.Link

variable {t : Setup} {d d' : Duplex} {side : Side} {l : State}

/-! ## Teardown: the steps that are left -/

/-- The steps without new input: no bytes from a local source, no ping tick,
no frame split by the transport, and every write to a local socket takes
something. -/
def quiet (d : Duplex) : DuplexEv → Bool
  | .writer _ (.read _) | .writer _ .tick | .cut _ _ _ | .copy _ .skip => false
  | .copy side (.deliver k) => 0 < k || d.reader side = .writing []
  | _ => true

/-- The prices of what is in flight. A Ping costs what its Pong will cost and
more; a Close is paid for by the reader that ends with it. -/
def Frame.weight : Frame → Nat
  | .data payload => payload.length + 2
  | .ping => 12
  | .pong _ => 6
  | .close => 1

def Op.weight : Op → Nat
  | .close => 2
  | .ping _ => 7
  | .pong => 1

def Sender.pcWeight (s : Sender) : Nat :=
  match s.pc with
  | .ended => 0
  | .close => 2
  | .select => 3
  | .pendingOps | .flush => 4
  | .write => s.buf.content.length + 7
  | .ping => 16

def Sender.weight (s : Sender) : Nat :=
  s.pcWeight + LTS.total Op.weight s.ops + 2 * s.notified.toNat + (!s.closeRequested).toNat

def ReceiverPc.weight : ReceiverPc → Nat
  | .ended => 0
  | .copying | .sendingOp .close => 6
  | .writing rest => rest.length + 7
  | .sendingOp (.ping _) => 17
  | .sendingOp .pong => 11

def State.weight (l : State) : Nat :=
  l.sender.weight + LTS.total Frame.weight l.wire + l.receiver.weight

def Duplex.half (d : Duplex) (side : Side) : Nat :=
  (d.links side).weight + 3 * (d.owesNotify side).toNat

def Duplex.weight (d : Duplex) : Nat := d.half .client + d.half .server

theorem Duplex.weight_eq (d : Duplex) (side : Side) : d.weight = d.half side + d.half side.peer := by
  cases side
  · rfl
  · exact Nat.add_comm _ _

theorem handleOp_weight {s : Sender} {ok : Bool} (hp : s.pc = .pendingOps) :
    (handleOp s ok).1.weight + LTS.total Frame.weight (handleOp s ok).2 < s.weight := by
  unfold handleOp
  split
  · simp [Sender.weight, Sender.pcWeight, LTS.total, hp]
  all_goals
    rename_i heq
    try split
    all_goals
      simp only [Sender.weight, Sender.pcWeight, LTS.total, hp, heq, Op.weight, Frame.weight]
      omega

/-- A step of a writer costs more than the frames it hands over. -/
theorem senderStep_weight {cfg : Cfg} {s s' : Sender} {ev : SenderEv} {fs : List Frame}
    (hev : ev.isOwn = true ∨ ev = .pending) (hread : ∀ bytes, ev ≠ .read bytes) (htick : ev ≠ .tick)
    (hs : senderStep cfg s ev = some (s', fs)) :
    s'.weight + LTS.total Frame.weight fs < s.weight := by
  cases move_of_senderStep cfg hs with
  | pending hp =>
    simp only [senderStep, Option.ite_none_right_eq_some] at hs
    simp only [Sender.weight, Sender.pcWeight, LTS.total, hp, hs.1.2, Bool.toNat_true,
      Bool.toNat_false]
    omega
  | read => exact absurd rfl (hread _)
  | tick => exact absurd rfl htick
  | stop _ hp | flushed hp | flushErr hp => simp [Sender.weight, Sender.pcWeight, LTS.total, hp]
  | @writeFrame ok sent _ hp =>
    cases ok <;> cases sent <;> simp [Sender.weight, Sender.pcWeight, LTS.total, Frame.weight, hp] <;> omega
  | @sendData ok hp _ =>
    cases ok <;> simp [Sender.weight, Sender.pcWeight, LTS.total, Frame.weight, hp]
    omega
  | @pingFrame ok hp =>
    cases ok <;> simp [Sender.weight, Sender.pcWeight, LTS.total, Frame.weight, hp]
    omega
  | popOp hp => exact handleOp_weight hp
  | @closeFrame ok hp =>
    have hle : LTS.total Frame.weight (if ok ∧ cfg.kind = .websocket then [.close] else []) ≤ 1 := by
      split <;> simp [LTS.total, Frame.weight]
    simp only [Sender.weight, Sender.pcWeight, hp]
    omega
  | queueOp | notify | requestClose => simp [SenderEv.isOwn] at hev

@[simp] theorem Duplex.half_set : (d.set side l).half side = l.weight + 3 * (d.owesNotify side).toNat := by
  simp [Duplex.half]

@[simp] theorem Duplex.half_set_peer : (d.set side l).half side.peer = d.half side.peer := by
  simp [Duplex.half]

@[simp] theorem Duplex.half_peer_set : (d.set side.peer l).half side = d.half side := by
  simp [Duplex.half]

@[simp] theorem Duplex.half_setOwes {b : Bool} :
    (d.setOwes side b).half side = (d.links side).weight + 3 * b.toNat := by
  simp [Duplex.half]

@[simp] theorem Duplex.half_setOwes_peer {b : Bool} : (d.setOwes side b).half side.peer = d.half side.peer := by
  simp [Duplex.half]

/-- The reader's part of a step: the link it reads gets lighter. -/
theorem weight_peer_lt (hl : l.weight < (d.links side.peer).weight) :
    (d.set side.peer l).weight < d.weight := by
  have hhalf : d.half side.peer = (d.links side.peer).weight + 3 * (d.owesNotify side.peer).toNat := rfl
  rw [Duplex.weight_eq _ side, Duplex.weight_eq d side, Duplex.half_peer_set, Duplex.half_set]
  omega

/-- The writer's part of a step. -/
theorem weight_own_lt (hl : l.weight < (d.links side).weight) : (d.set side l).weight < d.weight := by
  have hhalf : d.half side = (d.links side).weight + 3 * (d.owesNotify side).toNat := rfl
  rw [Duplex.weight_eq _ side, Duplex.weight_eq d side, Duplex.half_set_peer, Duplex.half_set]
  omega

theorem receive_weight (kind : Kind) (f : Frame) : (receive kind f).weight < f.weight + 6 := by
  cases f <;> cases kind <;> simp [receive, ReceiverPc.weight, Frame.weight]

theorem afterOp_weight (op : Op) (ok : Bool) :
    (afterOp op ok).weight + op.weight + 3 < (ReceiverPc.sendingOp op).weight := by
  cases op <;> cases ok <;> simp [afterOp, ReceiverPc.weight, Op.weight]

theorem ReceiverPc.weight_pos {r : ReceiverPc} (h : r ≠ .ended) : 0 < r.weight := by
  cases r with
  | ended => exact absurd rfl h
  | sendingOp op => cases op <;> simp [ReceiverPc.weight]
  | _ => simp [ReceiverPc.weight]

/-- Every quiet step makes a tunnel lighter. -/
theorem weight_step {ev : DuplexEv} (hq : quiet d ev = true) (hs : DuplexMove t d ev d') :
    d'.weight < d.weight := by
  cases hs with
  | @writer side ev sender frames hev hstep =>
    have hlt := senderStep_weight hev (by rintro b rfl; simp [quiet] at hq)
      (by rintro rfl; simp [quiet] at hq) hstep
    refine weight_own_lt ?_
    simp only [State.weight, State.sent, LTS.total_append]
    omega
  | cut | skip => simp [quiet] at hq
  | @recv side f fs _ hr hw =>
    have hlt := receive_weight t.kind f
    have hcopy : ReceiverPc.copying.weight = 6 := rfl
    refine weight_peer_lt ?_
    simp only [State.weight, hr, hw, LTS.total]
    omega
  | @recvEnd _ _ hr | @deliverErr _ _ _ hr =>
    refine weight_peer_lt ?_
    simp [State.weight, hr, ReceiverPc.weight]
  | @deliver side k rest _ hr hk =>
    simp only [quiet, Duplex.reader, Bool.or_eq_true, decide_eq_true_eq, hr, ReceiverPc.writing.injEq] at hq
    refine weight_peer_lt ?_
    simp only [State.weight, hr]
    split
    · simp [ReceiverPc.weight]
    · have hk' : 0 < k ∧ k < rest.length := by
        rcases hq with hq | rfl
        · omega
        · simp_all
      simp only [ReceiverPc.weight, List.length_drop]
      omega
  | @queued side op hr hw hk hl =>
    -- what the reader pays is what the queue and the notification will cost
    have hlt := afterOp_weight op true
    rw [Duplex.weight_eq _ side, Duplex.weight_eq d side]
    simp only [Duplex.half_setOwes, Duplex.half_setOwes_peer, Duplex.links_peer_set, Duplex.links_set,
      Duplex.half_set, Duplex.owesNotify_set]
    simp only [Duplex.half, State.weight, State.sent, Sender.weight, Sender.pcWeight, LTS.total_concat,
      List.append_nil, hr, Bool.toNat_true]
    omega
  | @refused side op hr hw =>
    have hlt := afterOp_weight op false
    refine weight_peer_lt ?_
    simp only [State.weight, hr]
    omega
  | @notify side hn hk =>
    rw [Duplex.weight_eq _ side, Duplex.weight_eq d side]
    simp only [Duplex.half_setOwes, Duplex.half_setOwes_peer, Duplex.links_set, Duplex.half_set_peer]
    simp only [Duplex.half, State.weight, State.sent, Sender.weight, Sender.pcWeight, List.append_nil,
      hn, Bool.toNat_true, Bool.toNat_false]
    omega
  | @dropClose side hn hr hc =>
    refine weight_own_lt ?_
    simp [State.weight, State.sent, Sender.weight, Sender.pcWeight, hc]
  | @closeRx side hn hw hr =>
    have hpos := ReceiverPc.weight_pos hr
    have hended : ReceiverPc.ended.weight = 0 := rfl
    refine weight_peer_lt ?_
    simp only [State.weight]
    omega

/-! ## Teardown: no task is left waiting -/

/-- The quiet steps that the program and the network take by themselves: no
failure, and a stream ends when nothing is left on it and both tasks of the
other side have dropped their half. -/
def due (d : Duplex) (ev : DuplexEv) : Bool :=
  quiet d ev && match ev with
    | .writer _ .readEnd | .copy _ .deliverErr => false
    | .copy side .recvEnd => (d.links side.peer).wire = [] && (d.writer side.peer).pc = .ended &&
        d.reader side.peer = .ended
    | _ => true

/-- What the reader and the writer of a side may wait for. -/
structure Wired (kind : Kind) (reader : ReceiverPc) (writer : Sender) (owing : Bool) : Prop where
  owes : owing = true → kind = .websocket ∧ (reader = .copying ∨ reader = .ended)
  sending : ∀ op, reader = .sendingOp op → kind = .websocket
  queued : writer.ops ≠ [] → owing = true ∨ writer.notified = true ∨ writer.pc.attends = true

/-- Only `pending` and `notify` touch the flag. -/
theorem notified_of_own {cfg : Cfg} {s s' : Sender} {ev : SenderEv} {fs : List Frame}
    (hown : ev.isOwn = true) (hm : SenderMove cfg s ev s' fs) : s'.notified = s.notified := by
  cases hm with
  | pending | queueOp | notify | requestClose => cases hown
  | popOp hp =>
    unfold handleOp
    split
    · rfl
    · split <;> rfl
    · split <;> rfl
    · rfl
  | tick hp =>
    unfold pingTick
    split
    · rfl
    · dsimp only; split <;> rfl
  | _ => rfl

/-- A writer step keeps its queue attended. -/
theorem queued_writer {cfg : Cfg} {s s' : Sender} {ev : SenderEv} {fs : List Frame} {owes : Bool}
    (hev : ev.isOwn = true ∨ ev = .pending) (hs : senderStep cfg s ev = some (s', fs))
    (h : s.ops ≠ [] → owes = true ∨ s.notified = true ∨ s.pc.attends = true) (hops : s'.ops ≠ []) :
    owes = true ∨ s'.notified = true ∨ s'.pc.attends = true := by
  have hm := move_of_senderStep cfg hs
  rcases hev with hown | rfl
  · obtain ⟨hops', hatt⟩ := attends_of_own hown hm hops
    rw [notified_of_own hown hm]
    rcases h hops' with ho | hn | ha
    · exact .inl ho
    · exact .inr (.inl hn)
    · exact .inr (.inr (hatt ha))
  · cases hm with
    | pending => exact .inr (.inr rfl)
    | stop hev => simp at hev

/-- The tasks of the other side are left alone. -/
theorem frame_peer {ev : DuplexEv} (hs : DuplexMove t d ev d') :
    d'.reader ev.side.peer = d.reader ev.side.peer ∧ d'.writer ev.side.peer = d.writer ev.side.peer ∧
      d'.owesNotify ev.side.peer = d.owesNotify ev.side.peer := by
  cases hs <;> simp [DuplexEv.side, Duplex.reader, Duplex.writer, State.sent]

/-- A reader that owes nothing moves on without its writer. -/
theorem Wired.read {kind : Kind} {r r' : ReceiverPc} {w : Sender} {owing : Bool} (h : Wired kind r w owing)
    (hn : owing = false) (hr : ∀ op, r' = .sendingOp op → kind = .websocket) : Wired kind r' w owing :=
  ⟨fun ho => absurd (hn ▸ ho) Bool.false_ne_true, hr, h.queued⟩

theorem wired_own {ev : DuplexEv} (hs : DuplexMove t d ev d')
    (h : Wired t.kind (d.reader ev.side) (d.writer ev.side) (d.owesNotify ev.side)) :
    Wired t.kind (d'.reader ev.side) (d'.writer ev.side) (d'.owesNotify ev.side) := by
  cases hs <;> simp only [DuplexEv.side, Duplex.reader, Duplex.writer, Duplex.links_set,
    Duplex.links_set_peer, Duplex.links_peer_set, Duplex.links_setOwes, Duplex.owesNotify_set,
    Duplex.owesNotify_setOwes] at h ⊢
  case writer hev hstep => exact ⟨h.owes, h.sending, queued_writer hev hstep h.queued⟩
  case cut | skip => exact h
  case recv f _ hn _ _ =>
    refine h.read hn ?_
    intro op hop
    cases f <;> cases hk : t.kind <;> simp_all [receive]
  case recvEnd hn _ | deliverErr hn _ | closeRx hn _ _ => exact h.read hn (by simp)
  case deliver hn _ _ => exact h.read hn (by split <;> simp)
  case queued op hr _ hk _ =>
    have hnext : afterOp op true = .copying ∨ afterOp op true = .ended := by cases op <;> simp [afterOp]
    exact ⟨fun _ => ⟨hk, hnext⟩, fun _ _ => hk, fun _ => .inl rfl⟩
  case refused op hr _ =>
    have hk := h.sending op hr
    refine ⟨fun ho => absurd (h.owes ho).2 (by simp [hr]), fun _ _ => hk, h.queued⟩
  case notify hn hk => exact ⟨by simp, h.sending, fun _ => .inr (.inl rfl)⟩
  case dropClose => exact ⟨h.owes, h.sending, h.queued⟩

theorem wired_inductive (t : Setup) : (duplex t).Inductive fun d =>
    ∀ side, Wired t.kind (d.reader side) (d.writer side) (d.owesNotify side) where
  init := by
    rintro d rfl side
    exact ⟨by simp [Duplex.start], by simp [Duplex.start, Duplex.reader, start],
      by simp [Duplex.start, Duplex.writer, start, Sender.start]⟩
  step d ev d' h hs side := by
    have hm := move_of_duplexStep t hs
    rcases ev.side.eq_or_peer side with rfl | rfl
    · exact wired_own hm (h _)
    · obtain ⟨hr, hw, ho⟩ := frame_peer hm
      rw [hr, hw, ho]
      exact h _

/-- Some task goes on by itself. -/
def Duplex.CanGo (t : Setup) (d : Duplex) : Prop := ∃ ev d', due d ev = true ∧ duplexStep t d ev = some d'

theorem canGo_of_isSome (ev : DuplexEv) (hdue : due d ev = true) (hs : (duplexStep t d ev).isSome = true) :
    d.CanGo t := by
  obtain ⟨d', hd'⟩ := Option.isSome_iff_exists.mp hs
  exact ⟨ev, d', hdue, hd'⟩

theorem canGo_of_writer (side : Side) (ev : SenderEv) (hev : ev.isOwn = true ∨ ev = .pending)
    (hdue : due d (.writer side ev) = true)
    (hs : (senderStep (t.cfg side) (d.writer side) ev).isSome = true) : d.CanGo t := by
  obtain ⟨x, hx⟩ := Option.isSome_iff_exists.mp hs
  refine ⟨.writer side ev, d.set side ((d.links side).sent ev x.1 x.2), hdue, ?_⟩
  simp only [Duplex.writer] at hx
  simp only [duplexStep, hev, if_true, Duplex.act, step, hx]
  rfl

/-- Away from its `select!` a writer goes on by itself. -/
theorem canGo_of_writing (hpc : (d.writer side).pc ≠ .select) (hend : (d.writer side).pc ≠ .ended) :
    d.CanGo t := by
  cases hp : (d.writer side).pc with
  | select => exact absurd hp hpc
  | ended => exact absurd hp hend
  | write =>
    cases hk : t.kind with
    | websocket =>
      exact canGo_of_writer side (.writeFrame true false (d.writer side).buf.content) (.inl rfl) rfl
        (by simp [senderStep, hp, hk, Setup.cfg])
    | http2 =>
      exact canGo_of_writer side (.sendData true) (.inl rfl) rfl (by simp [senderStep, hp, hk, Setup.cfg])
  | flush => exact canGo_of_writer side (.flush true) (.inl rfl) rfl (by simp [senderStep, hp])
  | pendingOps => exact canGo_of_writer side (.popOp true) (.inl rfl) rfl (by simp [senderStep, hp])
  | ping => exact canGo_of_writer side (.pingFrame true) (.inl rfl) rfl (by simp [senderStep, hp])
  | close => exact canGo_of_writer side (.closeFrame true) (.inl rfl) rfl (by simp [senderStep, hp])

/-- A writer that has been notified, or asked to close, does not stay in its
`select!`. -/
theorem canGo_of_asked (hend : (d.writer side).pc ≠ .ended)
    (h : (d.writer side).notified = true ∨ (d.writer side).closeRequested = true) : d.CanGo t := by
  by_cases hp : (d.writer side).pc = .select
  · cases hn : (d.writer side).notified with
    | true => exact canGo_of_writer side .pending (.inr rfl) rfl (by simp [senderStep, hp, hn])
    | false =>
      have hc := h.resolve_left (by simp [hn])
      exact canGo_of_writer side .closed (.inl rfl) rfl (by simp [senderStep, Sender.polls, hp, hn, hc])
  · exact canGo_of_writing hp hend

/-- A reader that waits for its own queue, or has something to write, goes on,
or its writer does. -/
theorem canGo_of_reader (h : Wired t.kind (d.reader side) (d.writer side) (d.owesNotify side))
    (hcopy : d.reader side ≠ .copying) (hend : d.reader side ≠ .ended) : d.CanGo t := by
  have hn : d.owesNotify side = false := by
    cases ho : d.owesNotify side with
    | false => rfl
    | true => rcases (h.owes ho).2 with hr | hr <;> contradiction
  cases hr : d.reader side with
  | copying => exact absurd hr hcopy
  | ended => exact absurd hr hend
  | writing rest =>
    refine canGo_of_isSome (.copy side (.deliver rest.length)) ?_ ?_
    · have hlen : 0 < rest.length ∨ rest = [] := by cases rest <;> simp
      simpa [due, quiet, hr] using hlen
    · simp only [Duplex.reader] at hr
      simp [duplexStep, Ev.ofCopy, hn, Duplex.act, step, hr]
  | sendingOp op =>
    have hk := h.sending op hr
    by_cases hw : (d.writer side).pc = .ended
    · refine canGo_of_isSome (.sendOp side) rfl ?_
      simp only [duplexStep, hr, hw, if_true]
      simp only [Duplex.reader] at hr
      simp [Duplex.act, step, hr]
    · by_cases hl : (d.writer side).ops.length < 10
      · refine canGo_of_isSome (.sendOp side) rfl ?_
        simp only [duplexStep, hr, hw, if_false]
        simp only [Duplex.reader] at hr
        simp only [Duplex.writer] at hl
        simp [Duplex.act, step, hr, senderStep, hl, hk, Setup.cfg]
      · have hops : (d.writer side).ops ≠ [] := by
          rintro he; simp [he] at hl
        rcases h.queued hops with ho | hno | hatt
        · simp [hn] at ho
        · exact canGo_of_asked hw (.inl hno)
        · refine canGo_of_writing ?_ hw
          rintro hp; simp [hp, Pc.attends] at hatt

/-- Both tasks of a side have returned. -/
def Duplex.Over (d : Duplex) (side : Side) : Prop :=
  (d.writer side).pc = .ended ∧ d.reader side = .ended

theorem owes_of_stuck (h : Wired t.kind (d.reader side) (d.writer side) (d.owesNotify side))
    (hstuck : ¬ d.CanGo t) : d.owesNotify side = false := by
  cases ho : d.owesNotify side with
  | false => rfl
  | true =>
    refine absurd (canGo_of_isSome (.notify side) rfl ?_) hstuck
    simp [duplexStep, ho, Duplex.act, step, senderStep, (h.owes ho).1, Setup.cfg]

/-- When nothing goes on by itself, the two tasks of a side have both
returned or both wait. -/
theorem over_of_stuck (h : Wired t.kind (d.reader side) (d.writer side) (d.owesNotify side))
    (hstuck : ¬ d.CanGo t) (hend : (d.writer side).pc = .ended ∨ d.reader side = .ended) :
    d.Over side := by
  have hn := owes_of_stuck h hstuck
  rcases hend with hw | hr
  · refine ⟨hw, Classical.byContradiction fun hr => hstuck ?_⟩
    refine canGo_of_isSome (.closeRx side) rfl ?_
    simp only [Duplex.reader] at hr
    simp [duplexStep, hw, hn, Duplex.act, step, hr]
  · refine ⟨Classical.byContradiction fun hw => hstuck ?_, hr⟩
    cases hc : (d.writer side).closeRequested with
    | true => exact canGo_of_asked hw (.inr hc)
    | false =>
      refine canGo_of_isSome (.dropClose side) rfl ?_
      simp [duplexStep, hr, hn, hc, Duplex.act, step, senderStep]

/-- A reader whose peer is gone does not wait for ever. -/
theorem over_of_peer (h : Wired t.kind (d.reader side) (d.writer side) (d.owesNotify side))
    (hstuck : ¬ d.CanGo t) (hpeer : d.Over side.peer) : d.Over side := by
  refine over_of_stuck h hstuck (.inr (Classical.byContradiction fun hr => hstuck ?_))
  by_cases hcopy : d.reader side = .copying
  · have hn : d.owesNotify side = false := owes_of_stuck h hstuck
    cases hw : (d.links side.peer).wire with
    | nil =>
      refine canGo_of_isSome (.copy side .recvEnd) (by simp [due, quiet, hw, hpeer.1, hpeer.2]) ?_
      simp only [Duplex.reader] at hcopy
      simp [duplexStep, Ev.ofCopy, hn, Duplex.act, step, hcopy]
    | cons f fs =>
      refine canGo_of_isSome (.copy side .recv) rfl ?_
      simp only [Duplex.reader] at hcopy
      simp [duplexStep, Ev.ofCopy, hn, Duplex.act, step, hcopy, hw]
  · exact canGo_of_reader h hcopy hr

/-- A task that has returned stays so. -/
theorem halfEnded_step {ev : DuplexEv} (hs : DuplexMove t d ev d')
    (h : (d.writer side).pc = .ended ∨ d.reader side = .ended) :
    (d'.writer side).pc = .ended ∨ d'.reader side = .ended := by
  rcases ev.side.eq_or_peer side with rfl | rfl
  · rcases h with hw | hr
    · left
      cases hs <;> simp only [DuplexEv.side, Duplex.writer] at hw <;>
        simp only [DuplexEv.side, Duplex.writer, Duplex.links_set, Duplex.links_peer_set,
          Duplex.links_setOwes]
      all_goals try exact hw
      case writer hev hstep =>
        cases move_of_senderStep _ hstep with
        | queueOp | notify | requestClose => simp [SenderEv.isOwn] at hev
        | _ => simp_all
    · right
      cases hs <;> simp only [DuplexEv.side, Duplex.reader] at hr <;>
        simp only [DuplexEv.side, Duplex.reader, Duplex.links_set, Duplex.links_set_peer,
          Duplex.links_setOwes]
      all_goals first | exact hr | simp_all
  · obtain ⟨hr, hw, -⟩ := frame_peer hs
    rwa [hr, hw]

/-- **Teardown.** Once a task of either side has returned, there are at most
`d.weight` steps left without new input, and wherever such a run stands,
either some task goes on by itself or all four have returned. -/
theorem teardown (t : Setup) (d : Duplex) (hr : (duplex t).Reachable d) (side : Side)
    (hend : (d.writer side).pc = .ended ∨ d.reader side = .ended) (evs : List DuplexEv) (d' : Duplex)
    (hrun : ((duplex t).guard fun d ev => quiet d ev = true).Run d evs d') :
    evs.length ≤ d.weight ∧ (d'.CanGo t ∨ ∀ s, d'.Over s) := by
  have hwired := hrun.keeps (fun d₁ ev d₂ h hs => (wired_inductive t).step d₁ ev d₂ h hs.1)
    ((wired_inductive t).reachable d hr)
  have hend' := hrun.keeps (P := fun d => (d.writer side).pc = .ended ∨ d.reader side = .ended)
    (fun d₁ ev d₂ h hs => halfEnded_step (move_of_duplexStep t hs.1) h) hend
  refine ⟨hrun.length_le fun _ _ _ hs => weight_step hs.2 (move_of_duplexStep t hs.1), ?_⟩
  by_cases hgo : d'.CanGo t
  · exact .inl hgo
  · right
    have hover := over_of_stuck (hwired side) hgo hend'
    intro s
    rcases side.eq_or_peer s with rfl | rfl
    · exact hover
    · exact over_of_peer (hwired _) hgo (by rwa [Side.peer_peer])

/-- What is left to do after `clientCloses`. -/
def everybodyLeaves : List DuplexEv :=
  [.notify .server, .dropClose .server, .writer .server .pending, .closeRx .client,
    .dropClose .client, .writer .server (.popOp true), .writer .server (.popOp true),
    .writer .server .closed, .writer .server (.closeFrame false)]

theorem teardown_everybodyLeaves : ∃ d d', (duplex plainSetup).Reachable d ∧
    ((duplex plainSetup).guard fun d ev => quiet d ev = true).Run d everybodyLeaves d' ∧
    everybodyLeaves.length ≤ d.weight ∧ (d'.CanGo plainSetup ∨ ∀ s, d'.Over s) := by
  obtain ⟨d, hd, hend, d', hd'⟩ : ∃ d, LTS.exec (duplexStep plainSetup) (Duplex.start plainSetup)
      clientCloses = some d ∧ d.reader .server = .ended ∧
      ∃ d', LTS.exec (fun d ev => if quiet d ev = true then duplexStep plainSetup d ev else none) d
        everybodyLeaves = some d' := ⟨_, rfl, rfl, _, rfl⟩
  have hr : (duplex plainSetup).Reachable d := ⟨_, clientCloses, rfl, LTS.run_ofFn.mpr hd⟩
  have hrun : ((duplex plainSetup).guard fun d ev => quiet d ev = true).Run d everybodyLeaves d' :=
    LTS.run_guard_ofFn hd'
  exact ⟨d, d', hr, hrun, teardown plainSetup d hr .server (.inr hend) _ _ hrun⟩

end Wstunnel.L3.Link
