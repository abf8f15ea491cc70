import Wstunnel.Core.Notify
import Wstunnel.L3Transport.Buffers

/-!
# The two tasks of a WebSocket tunnel end

The writer task runs the loop of `Sender`; the reader task receives frames
and queues what the writer has to do about control frames. After each frame
it queues, the reader calls `notify_waiters`, which completes the `Notified`
of the writer if there is one and is forgotten otherwise. The writer makes
its first `Notified` when it first runs. Both tasks are spawned before.

**Third-party code.** `Notify` of `tokio` is that of `Core.Notify`:
`notify_waiters` completes the `Notified` that was made before it and leaves no
permit behind. The queue is an `mpsc::channel(10)`; a `send` fails once the writer
is gone. `fastwebsockets` may fail at any frame. Only `closes_at_the_end` asks more
of it: that it refuses every other frame after a Close.

**Results.**
* `sending_of_endpoint`: every step of the writer, and every effect of the
  reader on it, is a step of `sending`. What holds of all its runs, such as
  the bounds of the buffer, holds here.
* `parked_queue_empty`: in the runs in which the reader notifies nobody
  before the writer has run, the queue of a parked writer is empty.
  `notifiedTooEarly_parks` is a run in which a ping stays in the queue.
* `closes_at_the_end`: with a library that refuses frames after a Close, only
  Close frames follow a Close frame, and there are at most two.
* `one_close_frame`: there is at most one, and it is the last, when no Close
  is answered from the queue. `closeHandshake_sends_two`: a Close that is
  received is answered, and the writer sends its own afterwards.
-/
namespace Wstunnel.L3.Link

/-- Where the writer task is, outside of the loop that `Sender` follows. -/
inductive WriterPc where
  | spawned
  | running
  /-- the `Notified` has completed and is not replaced yet -/
  | rearm
  deriving DecidableEq, Repr

/-- Where the reader task waits. -/
inductive ReaderPc where
  | copying
  | sending (op : Op)
  | pushed (op : Op)
  | ended
  deriving DecidableEq, Repr

structure Endpoint where
  sender : Sender
  notify : Notify
  writer : WriterPc
  reader : ReaderPc
  sent : List Frame
  deriving DecidableEq, Repr

inductive EndpointEv where
  /-- the writer runs for the first time -/
  | startWriter
  /-- the writer polls its `Notified`, the first branch of the `select!` -/
  | poll
  /-- it replaces the completed `Notified` and begins to drain the queue -/
  | rearm
  | own (ev : SenderEv)
  /-- a control frame arrives; `op` is what it will queue -/
  | receive (op : Op)
  | push
  /-- `send` on a queue whose receiver is gone -/
  | refused
  | notifyWaiters
  /-- `copy` fails, or the writer is gone -/
  | stop
  deriving DecidableEq, Repr

/-- The events of the loop itself; the others come with the events above. -/
def SenderEv.isOwn : SenderEv → Bool
  | .pending | .queueOp _ | .notify | .requestClose => false
  | _ => true

/-- The branches of the `select!` that are polled after the `Notified`. -/
def SenderEv.behindNotified : SenderEv → Bool
  | .read _ | .readEnd | .closed | .tick => true
  | _ => false

/-- The `Notified` has been polled. -/
def Endpoint.asked (e : Endpoint) : Bool :=
  match e.notify.waiter with
  | .absent | .created _ => false
  | _ => true

variable (cfg : Cfg)

def Endpoint.start : Endpoint := ⟨.start cfg, .new, .spawned, .copying, []⟩

def Endpoint.advance (e : Endpoint) (ev : SenderEv) : Option Endpoint :=
  (sendStep cfg (e.sender, e.sent) ev).map fun x => { e with sender := x.1, sent := x.2 }

/-- The reader returns and drops `close_rx`. -/
def Endpoint.endReader (e : Endpoint) : Option Endpoint :=
  (e.advance cfg .requestClose).map fun e' => { e' with reader := .ended }

/-- mirrors wstunnel/src/tunnel/transport/io.rs:116-141 (the writer),
wstunnel/src/tunnel/transport/websocket.rs:186-238 and io.rs:177-205 (the reader) -/
def endpointStep (e : Endpoint) : EndpointEv → Option Endpoint
  | .startWriter =>
    if e.writer = .spawned then some { e with writer := .running, notify := e.notify.notified } else none
  | .poll =>
    if e.writer = .running ∧ e.sender.pc = .select then
      if e.notify.poll.1 then
        (e.advance cfg .notify).map fun e' => { e' with notify := e.notify.poll.2, writer := .rearm }
      else some { e with notify := e.notify.poll.2 }
    else none
  | .rearm =>
    if e.writer = .rearm then
      (e.advance cfg .pending).map fun e' => { e' with notify := e.notify.drop.notified, writer := .running }
    else none
  | .own ev =>
    if e.writer = .running ∧ ev.isOwn ∧ (ev.behindNotified → e.asked) then e.advance cfg ev else none
  | .receive op => if e.reader = .copying then some { e with reader := .sending op } else none
  | .push =>
    match e.reader with
    | .sending op =>
      if e.sender.pc = .ended then none
      else (e.advance cfg (.queueOp op)).map fun e' => { e' with reader := .pushed op }
    | _ => none
  | .refused =>
    match e.reader with
    | .sending op =>
      if e.sender.pc = .ended then
        -- the answer to a Close is sent with `let _ =`
        if op = .close then some { e with reader := .pushed op } else e.endReader cfg
      else none
    | _ => none
  | .notifyWaiters =>
    match e.reader with
    | .pushed op =>
      let e' := { e with notify := e.notify.notifyWaiters }
      if op = .close then e'.endReader cfg else some { e' with reader := .copying }
    | _ => none
  | .stop =>
    match e.reader with
    | .copying => e.endReader cfg
    | .sending _ => if e.sender.pc = .ended then e.endReader cfg else none
    | _ => none

def endpoint : LTS Endpoint EndpointEv := LTS.ofFn (· = Endpoint.start cfg) (endpointStep cfg)

/-! ## What a step can do -/

inductive EndpointMove (e : Endpoint) : EndpointEv → Endpoint → Prop where
  | startWriter (hw : e.writer = .spawned) :
      EndpointMove e .startWriter { e with writer := .running, notify := e.notify.notified }
  | pollReady (hp : e.sender.pc = .select) (hready : e.notify.poll.1 = true) :
      EndpointMove e .poll { e with
        sender := { e.sender with notified := true }, notify := e.notify.poll.2, writer := .rearm }
  | pollPending (hw : e.writer = .running) (hp : e.sender.pc = .select) (hready : e.notify.poll.1 = false) :
      EndpointMove e .poll { e with notify := e.notify.poll.2 }
  | rearm (hp : e.sender.pc = .select) : EndpointMove e .rearm { e with
      sender := { e.sender with pc := .pendingOps, notified := false }
      notify := e.notify.drop.notified, writer := .running }
  | own {ev s' fs} (hw : e.writer = .running) (hown : ev.isOwn = true)
      (hm : SenderMove cfg e.sender ev s' fs) :
      EndpointMove e (.own ev) { e with sender := s', sent := e.sent ++ fs }
  | receive {op} (hr : e.reader = .copying) : EndpointMove e (.receive op) { e with reader := .sending op }
  | push {op} (hr : e.reader = .sending op) : EndpointMove e .push { e with
      sender := { e.sender with ops := e.sender.ops ++ [op] }, reader := .pushed op }
  | unsent (hr : e.reader = .sending .close) : EndpointMove e .refused { e with reader := .pushed .close }
  | notifyWaiters {op} (hr : e.reader = .pushed op) (hop : op ≠ .close) :
      EndpointMove e .notifyWaiters { e with notify := e.notify.notifyWaiters, reader := .copying }
  | closed (hr : e.reader = .pushed .close) : EndpointMove e .notifyWaiters { e with
      sender := { e.sender with closeRequested := true }
      notify := e.notify.notifyWaiters, reader := .ended }
  | stop {l} (hl : l = .refused ∨ l = .stop) (hr : ∀ op, e.reader ≠ .pushed op)
      (hidle : e.reader = .copying ∨ e.sender.pc = .ended) :
      EndpointMove e l { e with sender := { e.sender with closeRequested := true }, reader := .ended }

variable {cfg}

theorem advance_eq_some {e e' : Endpoint} {ev : SenderEv} : e.advance cfg ev = some e' ↔
    ∃ s' fs, senderStep cfg e.sender ev = some (s', fs) ∧ e' = { e with sender := s', sent := e.sent ++ fs } := by
  simp only [Endpoint.advance, sendStep, Option.map_map, Option.map_eq_some_iff, Prod.exists,
    Function.comp_apply]
  exact exists₂_congr fun s' fs => and_congr_right fun _ => eq_comm

/-- An event of the loop that sends no frame. -/
theorem advance_silent {e e' : Endpoint} {ev : SenderEv} {s' : Sender} {p : Prop} [Decidable p]
    (hev : senderStep cfg e.sender ev = if p then some (s', []) else none) (h : e.advance cfg ev = some e') :
    p ∧ e' = { e with sender := s' } := by
  obtain ⟨s₁, fs, hstep, rfl⟩ := advance_eq_some.mp h
  rw [hev, Option.ite_none_right_eq_some] at hstep
  obtain ⟨hp, hs⟩ := hstep
  cases hs
  refine ⟨hp, ?_⟩
  rw [List.append_nil]

theorem endReader_eq (e : Endpoint) : e.endReader cfg =
    some { e with sender := { e.sender with closeRequested := true }, reader := .ended } := by
  simp [Endpoint.endReader, Endpoint.advance, sendStep, senderStep]

theorem move_of_endpointStep {e e' : Endpoint} {l : EndpointEv} (hs : endpointStep cfg e l = some e') :
    EndpointMove cfg e l e' := by
  cases l with
  | startWriter =>
    rw [endpointStep, Option.ite_none_right_eq_some] at hs
    obtain ⟨hw, hs⟩ := hs
    cases hs
    exact .startWriter hw
  | poll =>
    rw [endpointStep, Option.ite_none_right_eq_some] at hs
    obtain ⟨⟨hw, hp⟩, hs⟩ := hs
    split at hs
    · rename_i hready
      obtain ⟨e₁, h₁, rfl⟩ := Option.map_eq_some_iff.mp hs
      obtain ⟨-, rfl⟩ := advance_silent rfl h₁
      exact .pollReady hp hready
    · rename_i hready
      cases hs
      exact .pollPending hw hp (Bool.eq_false_iff.mpr hready)
  | rearm =>
    rw [endpointStep, Option.ite_none_right_eq_some] at hs
    obtain ⟨e₁, h₁, rfl⟩ := Option.map_eq_some_iff.mp hs.2
    obtain ⟨⟨hp, -⟩, rfl⟩ := advance_silent rfl h₁
    exact .rearm hp
  | own ev =>
    rw [endpointStep, Option.ite_none_right_eq_some] at hs
    obtain ⟨⟨hw, hown, -⟩, hs⟩ := hs
    obtain ⟨s', fs, hstep, rfl⟩ := advance_eq_some.mp hs
    exact .own hw hown (move_of_senderStep cfg hstep)
  | receive op =>
    rw [endpointStep, Option.ite_none_right_eq_some] at hs
    obtain ⟨hr, hs⟩ := hs
    cases hs
    exact .receive hr
  | push =>
    rw [endpointStep] at hs
    split at hs
    · rename_i op hr
      rw [Option.ite_none_left_eq_some] at hs
      obtain ⟨e₁, h₁, rfl⟩ := Option.map_eq_some_iff.mp hs.2
      obtain ⟨-, rfl⟩ := advance_silent rfl h₁
      exact .push hr
    · cases hs
  | refused =>
    rw [endpointStep] at hs
    split at hs
    · rename_i op hr
      rw [Option.ite_none_right_eq_some] at hs
      obtain ⟨hend, hs⟩ := hs
      split at hs
      · rename_i hop
        cases hs
        subst hop
        exact .unsent hr
      · rw [endReader_eq] at hs
        cases hs
        exact .stop (.inl rfl) (fun _ h => ReaderPc.noConfusion (hr.symm.trans h)) (.inr hend)
    · cases hs
  | notifyWaiters =>
    rw [endpointStep] at hs
    split at hs
    · rename_i op hr
      dsimp only at hs
      split at hs
      · rename_i hop
        rw [endReader_eq] at hs
        cases hs
        subst hop
        exact .closed hr
      · rename_i hop
        cases hs
        exact .notifyWaiters hr hop
    · cases hs
  | stop =>
    rw [endpointStep] at hs
    split at hs
    · rename_i hr
      rw [endReader_eq] at hs
      cases hs
      exact .stop (.inr rfl) (fun _ h => ReaderPc.noConfusion (hr.symm.trans h)) (.inl hr)
    · rename_i op hr
      rw [Option.ite_none_right_eq_some, endReader_eq] at hs
      obtain ⟨hend, hs⟩ := hs
      cases hs
      exact .stop (.inr rfl) (fun _ h => ReaderPc.noConfusion (hr.symm.trans h)) (.inr hend)
    · cases hs

theorem sends_of_advance {e e' : Endpoint} {ev : SenderEv} {f : Endpoint → Endpoint}
    (h : (e.advance cfg ev).map f = some e') (hf : ∀ e, (f e).sender = e.sender ∧ (f e).sent = e.sent) :
    ∃ ev, (sending cfg).step (e.sender, e.sent) ev (e'.sender, e'.sent) := by
  obtain ⟨e₁, h₁, rfl⟩ := Option.map_eq_some_iff.mp h
  obtain ⟨x, hx, rfl⟩ := Option.map_eq_some_iff.mp h₁
  refine ⟨ev, ?_⟩
  rw [(hf _).1, (hf _).2]
  exact hx

theorem sends_of_endReader {e e' : Endpoint} (h : e.endReader cfg = some e') :
    ∃ ev, (sending cfg).step (e.sender, e.sent) ev (e'.sender, e'.sent) := by
  rw [Endpoint.endReader] at h
  exact sends_of_advance h fun _ => ⟨rfl, rfl⟩

/-- Every step is one of the sender, or none. -/
theorem endpoint_sends {e e' : Endpoint} {l : EndpointEv} (hs : endpointStep cfg e l = some e') :
    (e'.sender, e'.sent) = (e.sender, e.sent) ∨
      ∃ ev, (sending cfg).step (e.sender, e.sent) ev (e'.sender, e'.sent) := by
  unfold endpointStep at hs
  split at hs
  · cases (Option.ite_none_right_eq_some.mp hs).2
    exact .inl rfl
  · have hs := (Option.ite_none_right_eq_some.mp hs).2
    split at hs
    · exact .inr (sends_of_advance hs fun _ => ⟨rfl, rfl⟩)
    · cases hs
      exact .inl rfl
  · exact .inr (sends_of_advance (Option.ite_none_right_eq_some.mp hs).2 fun _ => ⟨rfl, rfl⟩)
  · have hs := (Option.ite_none_right_eq_some.mp hs).2
    exact .inr (sends_of_advance (Option.map_id'.trans hs) fun _ => ⟨rfl, rfl⟩)
  · cases (Option.ite_none_right_eq_some.mp hs).2
    exact .inl rfl
  · split at hs
    · exact .inr (sends_of_advance (Option.ite_none_left_eq_some.mp hs).2 fun _ => ⟨rfl, rfl⟩)
    · cases hs
  · split at hs
    · have hs := (Option.ite_none_right_eq_some.mp hs).2
      split at hs
      · cases hs
        exact .inl rfl
      · exact .inr (sends_of_endReader hs)
    · cases hs
  · split at hs
    · dsimp only at hs
      split at hs
      · obtain ⟨ev, hev⟩ := sends_of_endReader hs
        exact .inr ⟨ev, hev⟩
      · cases hs
        exact .inl rfl
    · cases hs
  · split at hs
    · exact .inr (sends_of_endReader hs)
    · exact .inr (sends_of_endReader (Option.ite_none_right_eq_some.mp hs).2)
    · cases hs

/-- **The end of a tunnel runs its sender:** what it has reached and sent is
what the sender alone can reach and send. -/
theorem sending_of_endpoint {e : Endpoint} (hr : (endpoint cfg).Reachable e) :
    (sending cfg).Reachable (e.sender, e.sent) := by
  have hind : (endpoint cfg).Inductive fun e => (sending cfg).Reachable (e.sender, e.sent) := by
    refine ⟨?_, fun e l e' h hs => ?_⟩
    · rintro e rfl
      exact ⟨_, [], rfl, .nil _⟩
    · rcases endpoint_sends hs with heq | ⟨ev, hev⟩
      · rw [heq]
        exact h
      · exact h.step hev
  exact hind.reachable e hr

/-! ## Parked with an empty queue -/

/-- The reader notifies only once the writer has made its first `Notified`. -/
def Heard (e : Endpoint) (l : EndpointEv) : Prop := l = .notifyWaiters → e.writer ≠ .spawned

instance (e : Endpoint) (l : EndpointEv) : Decidable (Heard e l) := by
  unfold Heard
  infer_instance

/-- The writer waits in its `select!` and nothing has completed its `Notified`. -/
structure Endpoint.Parked (e : Endpoint) : Prop where
  select : e.sender.pc = .select
  waiting : e.notify.waiter = .waiting

/-- The points of the loop from which the queue is drained or dropped. -/
def Pc.attends : Pc → Bool
  | .pendingOps | .close | .ended => true
  | _ => false

/-- A frame in the queue is about to be announced, has been, or is being
drained. -/
structure Attended (e : Endpoint) : Prop where
  fresh : e.writer = .spawned → e.notify.waiter = .absent
  armed : e.writer ≠ .spawned → e.notify.armed = true
  queued : e.sender.ops ≠ [] → (∃ op, e.reader = .pushed op) ∨ e.notify.waiter.signal = 1 ∨
    e.sender.pc.attends = true

/-- The loop leaves its drain only with an empty queue. -/
theorem attends_handleOp {s : Sender} {ok : Bool} (hp : s.pc = .pendingOps)
    (h : (handleOp s ok).1.ops ≠ []) : (handleOp s ok).1.pc.attends = true := by
  unfold handleOp at h ⊢
  split at h
  · rename_i hops
    exact absurd hops h
  · split <;> simp [hp, Pc.attends]
  · split <;> simp [hp, Pc.attends]
  · simp [hp, Pc.attends]

theorem attends_of_own {s s' : Sender} {ev : SenderEv} {fs : List Frame} (hown : ev.isOwn = true)
    (hm : SenderMove cfg s ev s' fs) (hops : s'.ops ≠ []) :
    s.ops ≠ [] ∧ (s.pc.attends = true → s'.pc.attends = true) := by
  cases hm with
  | pending | queueOp | notify | requestClose => cases hown
  | popOp hp =>
    refine ⟨fun h => hops ?_, fun _ => attends_handleOp hp hops⟩
    simp [handleOp, h]
  | closeFrame hp => exact ⟨hops, fun _ => rfl⟩
  | tick hp =>
    rw [hp]
    refine ⟨fun h => hops ?_, fun h => absurd h Bool.false_ne_true⟩
    unfold pingTick
    split
    · exact h
    · dsimp only
      split <;> exact h
  | read hp | writeFrame hp | flushed hp | flushErr hp | sendData hp _ | pingFrame hp | stop _ hp =>
    rw [hp]
    exact ⟨hops, fun h => absurd h Bool.false_ne_true⟩

theorem attended_step {e e' : Endpoint} {l : EndpointEv} (h : Attended e) (hheard : Heard e l)
    (hm : EndpointMove cfg e l e') : Attended e' := by
  cases hm with
  | startWriter hw =>
    refine ⟨fun hs => (by cases hs), fun _ => rfl, fun hops => ?_⟩
    refine (h.queued hops).imp_right fun hq => .inr (hq.resolve_left fun hsignal => ?_)
    rw [h.fresh hw] at hsignal
    cases hsignal
  | pollReady hp hready =>
    have hdone := Notify.waiter_poll_ready hready
    refine ⟨fun hs => (by cases hs), fun _ => ?_, fun _ => .inr (.inl ?_)⟩
    · rw [Notify.armed, hdone]
      rfl
    · rw [hdone]
      rfl
  | pollPending hw hp hready =>
    refine ⟨fun hs => (by cases hw.symm.trans hs), fun hs => ?_, fun hops => ?_⟩
    · rw [Notify.armed_poll]
      exact h.armed hs
    · refine (h.queued hops).imp_right fun hq => .inr (hq.resolve_left fun hsignal => ?_)
      rw [Notify.signal_poll_pending hready] at hsignal
      cases hsignal
  | rearm hp => exact ⟨fun hs => (by cases hs), fun _ => rfl, fun _ => .inr (.inr rfl)⟩
  | own hw hown hm =>
    refine ⟨h.fresh, h.armed, fun hops => ?_⟩
    obtain ⟨hops, hattends⟩ := attends_of_own hown hm hops
    exact (h.queued hops).imp_right (Or.imp_right hattends)
  | receive hr =>
    refine ⟨h.fresh, h.armed, fun hops => (h.queued hops).imp_left ?_⟩
    rintro ⟨op, hop⟩
    cases hr.symm.trans hop
  | push hr => exact ⟨h.fresh, h.armed, fun _ => .inl ⟨_, rfl⟩⟩
  | unsent hr => exact ⟨h.fresh, h.armed, fun _ => .inl ⟨_, rfl⟩⟩
  | notifyWaiters hr hop | closed hr =>
    -- the writer has a `Notified`, and it is completed now
    have harmed := h.armed (hheard rfl)
    refine ⟨fun hs => absurd hs (hheard rfl), fun _ => ?_, fun _ => .inr (.inl ?_)⟩
    · rw [Notify.armed_notifyWaiters]
      exact harmed
    · exact Notify.signal_notifyWaiters harmed
  | stop hl hr _ =>
    refine ⟨h.fresh, h.armed, fun hops => (h.queued hops).imp_left ?_⟩
    rintro ⟨op, hop⟩
    exact absurd hop (hr op)

theorem attended_inductive : ((endpoint cfg).guard Heard).Inductive Attended where
  init := by
    rintro e rfl
    exact ⟨fun _ => rfl, fun h => absurd rfl h, fun h => absurd rfl h⟩
  step e l e' h hs := attended_step h hs.2 (move_of_endpointStep hs.1)

/-- **Control frames are not forgotten.** In every run in which the reader
notifies nobody before the writer has made its first `Notified`, the queue is
empty whenever the writer is parked and the reader is not between a push and
its `notify_waiters`. -/
theorem parked_queue_empty (cfg : Cfg) (e : Endpoint) (hr : ((endpoint cfg).guard Heard).Reachable e)
    (hparked : e.Parked) (hreader : ∀ op, e.reader ≠ .pushed op) : e.sender.ops = [] := by
  have h := attended_inductive.reachable e hr
  by_contra hops
  rcases h.queued hops with ⟨op, hop⟩ | hsignal | hattends
  · exact hreader op hop
  · rw [hparked.waiting] at hsignal
    cases hsignal
  · rw [hparked.select] at hattends
    cases hattends

/-- The writer runs, and then a ping comes, is answered and forgotten. -/
def pingAnswered : List EndpointEv :=
  [.startWriter, .poll, .receive (.ping [7]), .push, .notifyWaiters, .poll, .rearm, .own (.popOp true),
    .own (.popOp true), .poll]

theorem parked_queue_empty_pingAnswered : ∃ e, ((endpoint plainCfg).guard Heard).Reachable e ∧
    e.sent = [.pong [7]] ∧ e.sender.ops = [] := by
  obtain ⟨e, he, hsent, hselect, hwaiting, hcopying⟩ : ∃ e,
      LTS.exec (fun e l => if Heard e l then endpointStep plainCfg e l else none) (.start plainCfg)
        pingAnswered = some e ∧ e.sent = [.pong [7]] ∧ e.sender.pc = .select ∧
        e.notify.waiter = .waiting ∧ e.reader = .copying := ⟨_, rfl, rfl, rfl, rfl, rfl⟩
  have hr : ((endpoint plainCfg).guard Heard).Reachable e := ⟨_, _, rfl, LTS.run_guard_ofFn he⟩
  refine ⟨e, hr, hsent, parked_queue_empty plainCfg e hr ⟨hselect, hwaiting⟩ ?_⟩
  rw [hcopying]
  exact fun _ h => (nomatch h)

/-- The ping comes before the writer runs: the notification is lost, and the
writer parks with the ping in its queue. -/
theorem notifiedTooEarly_parks : ∃ e, (endpoint plainCfg).Reachable e ∧ e.Parked ∧ e.reader = .copying ∧
    e.sender.ops = [.ping [7]] :=
  ⟨_, ⟨_, [.receive (.ping [7]), .push, .notifyWaiters, .startWriter, .poll], rfl, LTS.run_ofFn.mpr rfl⟩,
    ⟨rfl, rfl⟩, rfl, rfl⟩

/-! ## Close frames -/

/-- What the library is assumed to do: it transmits every Close frame, and
refuses every other frame after one. -/
def WriteFrame (e : Endpoint) : EndpointEv → Prop
  | .own (.writeFrame ok sent _) => .close ∈ e.sent → ok = false ∧ sent = false
  | .own (.popOp ok) =>
    match e.sender.ops with
    | .close :: _ => ok = true
    | .ping _ :: _ => .close ∈ e.sent → ok = false
    | _ => True
  | .own (.pingFrame ok) => .close ∈ e.sent → ok = false
  | .own (.closeFrame ok) => ok = true
  | _ => True

instance (e : Endpoint) (l : EndpointEv) : Decidable (WriteFrame e l) := by
  unfold WriteFrame
  split
  · infer_instance
  · split <;> infer_instance
  all_goals infer_instance

/-- No Close is taken from the queue. -/
def Unanswered (e : Endpoint) : EndpointEv → Prop
  | .own (.popOp _) => e.sender.ops.head? ≠ some .close
  | _ => True

instance (e : Endpoint) (l : EndpointEv) : Decidable (Unanswered e l) := by
  unfold Unanswered
  split <;> infer_instance

/-- The Close frames are the last ones. -/
def Closing (sent : List Frame) (closes : Nat) : Prop :=
  ∃ fs, sent = fs ++ List.replicate closes .close ∧ .close ∉ fs

theorem Closing.frame {sent fs : List Frame} {closes : Nat} (h : Closing sent closes)
    (hfs : .close ∉ fs) (hopen : fs ≠ [] → .close ∉ sent) : Closing (sent ++ fs) closes := by
  by_cases hnil : fs = []
  · rw [hnil, List.append_nil]
    exact h
  · obtain ⟨fs₀, rfl, hfs₀⟩ := h
    have hclosed := hopen hnil
    cases closes with
    | zero =>
      refine ⟨fs₀ ++ fs, by simp, ?_⟩
      rw [List.mem_append]
      exact not_or.mpr ⟨hfs₀, hfs⟩
    | succ n => exact absurd (List.mem_append_right _ (by simp)) hclosed

theorem Closing.close {sent : List Frame} {closes : Nat} (h : Closing sent closes) :
    Closing (sent ++ [.close]) (closes + 1) := by
  obtain ⟨fs, rfl, hfs⟩ := h
  exact ⟨fs, by rw [List.append_assoc, ← List.replicate_succ'], hfs⟩

/-- The Close frames in the queue. -/
def Sender.closeOps (s : Sender) : Nat := s.ops.countP (· = .close)

/-- The Close frame the loop sends at its end, unless it has ended. -/
def Sender.ownClose (s : Sender) : Nat := if s.pc = .ended then 0 else 1

/-- The Close frames the reader may still queue: it ends with the first. -/
def ReaderPc.closes : ReaderPc → Nat
  | .copying | .sending _ => 1
  | .pushed op => if op = .close then 0 else 1
  | .ended => 0

/-- The Close frames an event takes from the queue. -/
def Sender.answers (s : Sender) : SenderEv → Nat
  | .popOp _ =>
    match s.ops with
    | .close :: _ => 1
    | _ => 0
  | _ => 0

/-- A step of the loop sends no Close but its own and those it takes from the
queue, and after a Close nothing else. -/
structure Closes (sent : List Frame) (closes answers : Nat) (s s' : Sender) (fs : List Frame) : Prop where
  closing : ∃ closes', Closing (sent ++ fs) closes' ∧ closes' + s'.ownClose ≤ closes + s.ownClose + answers
  queue : s'.closeOps + answers = s.closeOps

theorem Sender.ownClose_le (s : Sender) : s.ownClose ≤ 1 := by
  unfold Sender.ownClose
  split <;> decide

/-- A step that sends no Close. -/
theorem Closing.goOn {sent fs : List Frame} {closes : Nat} {s s' : Sender} (h : Closing sent closes)
    (hfs : .close ∉ fs) (hopen : fs ≠ [] → .close ∉ sent) (hp : s.pc ≠ .ended) (hops : s'.closeOps = s.closeOps) :
    Closes sent closes 0 s s' fs := by
  refine ⟨⟨closes, h.frame hfs hopen, ?_⟩, hops⟩
  have hown : s.ownClose = 1 := if_neg hp
  have := s'.ownClose_le
  omega

theorem closes_handleOp {e : Endpoint} {ok : Bool} {closes : Nat} (hp : e.sender.pc = .pendingOps)
    (hlib : WriteFrame e (.own (.popOp ok))) (h : Closing e.sent closes) :
    Closes e.sent closes (e.sender.answers (.popOp ok)) e.sender (handleOp e.sender ok).1
      (handleOp e.sender ok).2 := by
  have hne : e.sender.pc ≠ .ended := by simp [hp]
  cases hops : e.sender.ops with
  | nil =>
    simp only [handleOp, Sender.answers, hops]
    exact h.goOn List.not_mem_nil (absurd rfl) hne (by simp [Sender.closeOps, hops])
  | cons op ops =>
    cases op with
    | close =>
      simp only [WriteFrame, hops] at hlib
      simp only [handleOp, Sender.answers, hops, hlib, if_true]
      refine ⟨⟨closes + 1, h.close, ?_⟩, by simp [Sender.closeOps, hops]⟩
      exact Nat.le_of_eq (Nat.add_right_comm _ _ _)
    | ping payload =>
      have hcount : ops.countP (· = Op.close) = e.sender.closeOps := by simp [Sender.closeOps, hops]
      simp only [WriteFrame, hops] at hlib
      simp only [handleOp, Sender.answers, hops]
      split
      · rename_i hok
        refine h.goOn (by simp) (fun _ hclose => ?_) hne hcount
        cases hok.symm.trans (hlib hclose)
      · exact h.goOn List.not_mem_nil (absurd rfl) hne hcount
    | pong =>
      simp only [handleOp, Sender.answers, hops]
      exact h.goOn List.not_mem_nil (absurd rfl) hne (by simp [Sender.closeOps, hops])

theorem closes_own {e : Endpoint} {ev : SenderEv} {s' : Sender} {fs : List Frame} {closes : Nat}
    (hk : cfg.kind = .websocket) (hown : ev.isOwn = true) (hm : SenderMove cfg e.sender ev s' fs)
    (hlib : WriteFrame e (.own ev)) (h : Closing e.sent closes) :
    Closes e.sent closes (e.sender.answers ev) e.sender s' fs := by
  cases hm with
  | pending | queueOp | notify | requestClose => cases hown
  | sendData _ hk' => cases hk.symm.trans hk'
  | popOp hp => exact closes_handleOp hp hlib h
  | read hp | flushed hp | flushErr hp =>
    exact h.goOn List.not_mem_nil (absurd rfl) (by simp [hp]) rfl
  | stop hev hp =>
    rcases hev with rfl | rfl <;> exact h.goOn List.not_mem_nil (absurd rfl) (by simp [hp]) rfl
  | tick hp =>
    refine h.goOn List.not_mem_nil (absurd rfl) (by simp [hp]) ?_
    simp only [pingTick, hk]
    split <;> rfl
  | @writeFrame ok sent masked hp =>
    refine h.goOn (by split <;> simp) (fun hne hclose => hne ?_) (by simp [hp]) rfl
    obtain ⟨rfl, rfl⟩ := hlib hclose
    simp
  | @pingFrame ok hp =>
    refine h.goOn (by split <;> simp) (fun hne hclose => hne ?_) (by simp [hp]) rfl
    rw [hlib hclose]
    simp
  | @closeFrame ok hp =>
    rw [if_pos ⟨hlib, hk⟩]
    refine ⟨⟨closes + 1, h.close, ?_⟩, rfl⟩
    simp [Sender.ownClose, hp]

/-- The Close frames sent and those that may still come. -/
def CloseBudget (e : Endpoint) : Prop :=
  ∃ closes, Closing e.sent closes ∧
    closes + e.sender.ownClose + e.sender.closeOps + e.reader.closes ≤ 2

theorem closeBudget_step {e e' : Endpoint} {l : EndpointEv} (hk : cfg.kind = .websocket)
    (h : CloseBudget e) (hlib : WriteFrame e l) (hm : EndpointMove cfg e l e') : CloseBudget e' := by
  obtain ⟨closes, hclosing, hle⟩ := h
  cases hm with
  | own hw hown hm =>
    obtain ⟨⟨closes', hclosing', hle'⟩, hqueue⟩ := closes_own hk hown hm hlib hclosing
    refine ⟨closes', hclosing', ?_⟩
    dsimp only
    omega
  | startWriter _ | pollReady _ _ | pollPending _ _ _ => exact ⟨closes, hclosing, hle⟩
  | rearm hp =>
    have hown : e.sender.ownClose = 1 := by simp [Sender.ownClose, hp]
    rw [hown] at hle
    exact ⟨closes, hclosing, hle⟩
  | @push op hr =>
    refine ⟨closes, hclosing, ?_⟩
    rw [hr] at hle
    change closes + e.sender.ownClose + (e.sender.ops ++ [op]).countP (· = .close) + _ ≤ 2
    simp only [Sender.closeOps, List.countP_append, List.countP_singleton, ReaderPc.closes,
      decide_eq_true_eq] at hle ⊢
    split <;> omega
  | receive hr =>
    rw [hr] at hle
    exact ⟨closes, hclosing, hle⟩
  | notifyWaiters hr hop =>
    rw [hr, ReaderPc.closes, if_neg hop] at hle
    exact ⟨closes, hclosing, hle⟩
  | unsent _ | closed _ | stop _ _ _ => exact ⟨closes, hclosing, Nat.le_trans (Nat.le_add_right _ _) hle⟩

theorem closeBudget_inductive (hk : cfg.kind = .websocket) :
    ((endpoint cfg).guard WriteFrame).Inductive CloseBudget where
  init := by
    rintro e rfl
    exact ⟨0, ⟨[], rfl, List.not_mem_nil⟩, Nat.le_refl 2⟩
  step e l e' h hs := closeBudget_step hk h hs.2 (move_of_endpointStep hs.1)

/-- **Only Close frames follow a Close frame, and there are at most two.** -/
theorem closes_at_the_end (hk : cfg.kind = .websocket) {e : Endpoint}
    (hr : ((endpoint cfg).guard WriteFrame).Reachable e) :
    ∃ fs closes, e.sent = fs ++ List.replicate closes .close ∧ .close ∉ fs ∧ closes ≤ 2 := by
  obtain ⟨closes, ⟨fs, hsent, hfs⟩, hle⟩ := (closeBudget_inductive hk).reachable e hr
  exact ⟨fs, closes, hsent, hfs, by omega⟩

/-- The loop has sent no Close before its own. -/
def OwnCloseOnly (e : Endpoint) : Prop := ∃ closes, Closing e.sent closes ∧ closes + e.sender.ownClose ≤ 1

theorem ownCloseOnly_step {e e' : Endpoint} {l : EndpointEv} (hk : cfg.kind = .websocket)
    (h : OwnCloseOnly e) (hlib : WriteFrame e l) (hunanswered : Unanswered e l)
    (hm : EndpointMove cfg e l e') : OwnCloseOnly e' := by
  obtain ⟨closes, hclosing, hle⟩ := h
  cases hm with
  | @own ev _ _ hw hown hm =>
    obtain ⟨⟨closes', hclosing', hle'⟩, -⟩ := closes_own hk hown hm hlib hclosing
    refine ⟨closes', hclosing', ?_⟩
    have hnone : e.sender.answers ev = 0 := by
      unfold Sender.answers
      split
      · split
        · rename_i hops
          exact absurd (by rw [hops]; rfl) hunanswered
        · rfl
      · rfl
    dsimp only
    omega
  | rearm hp =>
    have hown : e.sender.ownClose = 1 := by simp [Sender.ownClose, hp]
    rw [hown] at hle
    exact ⟨closes, hclosing, hle⟩
  | startWriter _ | pollReady _ _ | pollPending _ _ _ => exact ⟨closes, hclosing, hle⟩
  | receive _ | push _ | unsent _ | notifyWaiters _ _ | closed _ | stop _ _ _ => exact ⟨closes, hclosing, hle⟩

/-- **At most one Close frame, and no frame after it,** in every run in which
no Close is taken from the queue, under the assumption on the library. -/
theorem one_close_frame (cfg : Cfg) (hk : cfg.kind = .websocket) (e : Endpoint)
    (hr : ((endpoint cfg).guard fun e l => WriteFrame e l ∧ Unanswered e l).Reachable e) :
    .close ∉ e.sent.dropLast := by
  have hind : ((endpoint cfg).guard fun e l => WriteFrame e l ∧ Unanswered e l).Inductive OwnCloseOnly := by
    refine ⟨?_, fun e l e' h hs => ownCloseOnly_step hk h hs.2.1 hs.2.2 (move_of_endpointStep hs.1)⟩
    rintro e rfl
    exact ⟨0, ⟨[], rfl, List.not_mem_nil⟩, Nat.le_refl 1⟩
  obtain ⟨closes, ⟨fs, hsent, hfs⟩, hle⟩ := hind.reachable e hr
  rw [hsent]
  match closes, hle with
  | 0, _ => exact fun h => hfs (by simpa using List.dropLast_subset _ h)
  | 1, _ => simpa using hfs
  | n + 2, hle => omega

/-- The local side ends: one Close frame. -/
theorem one_close_frame_localEnd : ∃ e,
    ((endpoint plainCfg).guard fun e l => WriteFrame e l ∧ Unanswered e l).Reachable e ∧
      e.sent = [.close] ∧ .close ∉ e.sent.dropLast := by
  obtain ⟨e, he, hsent⟩ : ∃ e, LTS.exec (fun e l => if WriteFrame e l ∧ Unanswered e l then
      endpointStep plainCfg e l else none) (.start plainCfg)
        [.startWriter, .poll, .own .readEnd, .own (.closeFrame true)] = some e ∧ e.sent = [.close] :=
    ⟨_, rfl, rfl⟩
  have hr : ((endpoint plainCfg).guard fun e l => WriteFrame e l ∧ Unanswered e l).Reachable e :=
    ⟨_, _, rfl, LTS.run_guard_ofFn he⟩
  exact ⟨e, hr, hsent, one_close_frame plainCfg rfl e hr⟩

/-- The peer closes: its Close is answered from the queue, the reader ends,
and so does the loop, with a Close frame of its own. -/
theorem closeHandshake_sends_two : ∃ e, ((endpoint plainCfg).guard WriteFrame).Reachable e ∧
    e.sent = [.close, .close] :=
  ⟨_, ⟨_, [.startWriter, .poll, .receive .close, .push, .notifyWaiters, .poll, .rearm, .own (.popOp true),
    .own (.popOp true), .poll, .own .closed, .own (.closeFrame true)], rfl, LTS.run_guard_ofFn rfl⟩, rfl⟩

end Wstunnel.L3.Link
