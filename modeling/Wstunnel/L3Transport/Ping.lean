import Wstunnel.Core.LTS
import Wstunnel.L3Transport.Endpoint

/-!
# Ping accounting of a WebSocket tunnel end

`in_flight_ping` is raised by every `ping()` and lowered by every Pong that
the writer takes from its queue, whoever asked for it. It is an unsigned
atomic, and a peer may send Pongs that answer nothing (RFC 6455 allows it).

Beside the two tasks (`Endpoint`), `Pings` counts the calls of `ping()`, the Ping
frames sent, the Pongs that the reader has received, those that it has queued and
those that the writer has handled. A Pong that is received and not yet queued is in
the reader's hands; it stays there while the queue is full.

**The peer and the scheduler (`Solicited`, a hypothesis about every step).** A Pong is
received only while some Ping sent has had none, and `ping()` is not called with three
in flight while a Pong that was received is not handled yet. Neither is kept by the
code: the first is up to the peer, the second to the order in which the two tasks run.

**Third-party code.** `fastwebsockets` may fail at any frame. What a failed write has
sent does not matter here: a Ping counts as sent when `write_frame` returns `Ok`.

**Results.**
* `ping_accounting`: in every such run the counter is at most the number of calls,
  and `ping()` fails only when three Pings sent are unanswered.
* `unsolicitedPong_closes_tunnel`: one Pong too many wraps the counter, and
  the first `ping()` fails.
-/
namespace Wstunnel.L3.Link

structure Pings where
  calls : Nat
  sent : Nat
  received : Nat
  queued : Nat
  handled : Nat
  deriving DecidableEq, Repr

/-- What an event of the writer loop adds. -/
def Pings.nextOwn (s : Sender) (ev : SenderEv) (h : Pings) : Pings :=
  match ev with
  | .tick => { h with calls := h.calls + 1 }
  | .pingFrame true => { h with sent := h.sent + 1 }
  | .queueOp .pong => { h with queued := h.queued + 1 }
  | .popOp _ => match s.ops with
    | .pong :: _ => { h with handled := h.handled + 1 }
    | _ => h
  | _ => h

def Pings.next (e : Endpoint) (l : EndpointEv) (h : Pings) : Pings :=
  match l with
  | .own ev => h.nextOwn e.sender ev
  | .receive .pong => { h with received := h.received + 1 }
  | .push => match e.reader with
    | .sending op => h.nextOwn e.sender (.queueOp op)
    | _ => h
  | _ => h

variable (cfg : Cfg)

def pinger : LTS (Endpoint × Pings) EndpointEv :=
  LTS.ofFn (· = (Endpoint.start cfg, ⟨0, 0, 0, 0, 0⟩)) (LTS.track (endpointStep cfg) Pings.next)

/-- A Pong answers a Ping that was sent, and a call that finds three in
flight overtakes no Pong, neither in the queue nor in the reader's hands. -/
def Solicited (x : Endpoint × Pings) : EndpointEv → Prop
  | .receive .pong => x.2.received < x.2.sent
  | .own .tick => 3 ≤ x.1.sender.inFlightPing → Op.pong ∉ x.1.sender.ops ∧ x.1.reader ≠ .sending .pong
  | _ => True

instance (x : Endpoint × Pings) (l : EndpointEv) : Decidable (Solicited x l) := by
  unfold Solicited
  split <;> infer_instance

/-! ## The writer -/

/-- The Pongs in a queue. -/
def pongs (ops : List Op) : Nat := ops.countP (· = .pong)

/-- The counter is the calls without the Pongs handled, every call but one
in progress has sent its Ping, and no Pong is unasked for. -/
structure Balanced (s : Sender) (h : Pings) : Prop where
  counter : s.inFlightPing + h.handled = h.calls
  bound : s.inFlightPing ≤ 4
  loop : s.pc ≠ .ended → s.inFlightPing ≤ 3
  sent : h.sent ≤ h.calls
  call : s.pc = .ping → h.calls = h.sent + 1
  all : s.pc ≠ .ping → s.pc ≠ .ended → h.calls = h.sent
  queue : h.queued = h.handled + pongs s.ops
  asked : h.queued ≤ h.sent

theorem balanced_start : Balanced (Sender.start cfg) ⟨0, 0, 0, 0, 0⟩ := by
  refine ⟨?_, ?_, ?_, ?_, ?_, ?_, ?_, ?_⟩ <;> simp [Sender.start, pongs]

theorem wrapAdd_eq {n : Nat} (h : n < 2 ^ 64 - 1) : wrapAdd n = n + 1 := by
  unfold wrapAdd
  omega

theorem wrapSub_eq {n : Nat} (h0 : 0 < n) (h : n < 2 ^ 64) : wrapSub n = n - 1 := by
  unfold wrapSub
  omega

/-- The loop goes on to a point other than `ping`, and the books with it. -/
theorem Balanced.goOn {s s' : Sender} {h : Pings} (hb : Balanced s h)
    (hcnt : s'.inFlightPing = s.inFlightPing) (hops : s'.ops = s.ops) (hpc : s.pc ≠ .ping)
    (hpc' : s.pc ≠ .ended) (hnew : s'.pc ≠ .ping) : Balanced s' h where
  counter := hcnt ▸ hb.counter
  bound := hcnt ▸ hb.bound
  loop _ := hcnt ▸ hb.loop hpc'
  sent := hb.sent
  call hp := absurd hp hnew
  all _ _ := hb.all hpc hpc'
  queue := hops ▸ hb.queue
  asked := hb.asked

/-- The loop stays where it is, and so do the books. -/
theorem Balanced.stay {s s' : Sender} {h : Pings} (hb : Balanced s h)
    (hcnt : s'.inFlightPing = s.inFlightPing) (hops : pongs s'.ops = pongs s.ops)
    (hpc : s'.pc = s.pc) : Balanced s' h where
  counter := hcnt ▸ hb.counter
  bound := hcnt ▸ hb.bound
  loop hp := hcnt ▸ hb.loop (hpc ▸ hp)
  sent := hb.sent
  call hp := hb.call (hpc ▸ hp)
  all hp hp' := hb.all (hpc ▸ hp) (hpc ▸ hp')
  queue := hops ▸ hb.queue
  asked := hb.asked

theorem pingTick_balanced {s : Sender} {h : Pings} (hk : cfg.kind = .websocket) (hb : Balanced s h)
    (hp : s.pc = .select) : Balanced (pingTick cfg s) { h with calls := h.calls + 1 } := by
  have hloop := hb.loop (by rw [hp]; simp)
  have hall := hb.all (by rw [hp]; simp) (by rw [hp]; simp)
  have hadd : wrapAdd s.inFlightPing = s.inFlightPing + 1 := wrapAdd_eq (by omega)
  have hcounter := hb.counter
  have hsent := hb.sent
  unfold pingTick
  simp only [hk, hadd]
  by_cases hfail : 3 ≤ s.inFlightPing
  · rw [if_pos hfail]
    refine ⟨?_, ?_, ?_, ?_, ?_, ?_, hb.queue, hb.asked⟩ <;> simp <;> omega
  · rw [if_neg hfail]
    refine ⟨?_, ?_, ?_, ?_, ?_, ?_, hb.queue, hb.asked⟩ <;> simp <;> omega

theorem handleOp_balanced {s : Sender} {h : Pings} (hb : Balanced s h) (hp : s.pc = .pendingOps)
    (ok : Bool) : Balanced (handleOp s ok).1 (h.nextOwn s (.popOp ok)) := by
  have hping : s.pc ≠ .ping := by rw [hp]; simp
  have hended : s.pc ≠ .ended := by rw [hp]; simp
  cases hops : s.ops with
  | nil =>
    simp only [handleOp, Pings.nextOwn, hops]
    exact hb.goOn rfl hops.symm hping hended (by simp)
  | cons op ops =>
    have hq := hb.queue
    rw [hops] at hq
    cases op with
    | close | ping _ =>
      have hsame : pongs ops = pongs s.ops := by simp [hops, pongs]
      have hpop : Balanced { s with ops } h := hb.stay rfl hsame rfl
      cases ok <;> simp only [handleOp, Pings.nextOwn, hops]
      · exact hpop.goOn rfl rfl hping hended (by simp)
      · exact hpop
    | pong =>
      -- the Pong answers a call, so the counter is not zero
      have hcount : pongs (.pong :: ops) = pongs ops + 1 := by simp [pongs]
      have hloop := hb.loop hended
      have hall := hb.all hping hended
      have hcounter := hb.counter
      have hasked := hb.asked
      have hsub : wrapSub s.inFlightPing = s.inFlightPing - 1 :=
        wrapSub_eq (by omega) (by omega)
      simp only [handleOp, Pings.nextOwn, hops, hsub]
      refine ⟨?_, ?_, ?_, hb.sent, fun hp' => absurd hp' hping, fun _ _ => hall, ?_, hb.asked⟩ <;>
        simp only <;> omega

/-- A Pong is queued. -/
theorem Balanced.queuePong {s : Sender} {h : Pings} (hb : Balanced s h) (hlt : h.queued < h.sent) :
    Balanced { s with ops := s.ops ++ [.pong] } { h with queued := h.queued + 1 } := by
  refine ⟨hb.counter, hb.bound, hb.loop, hb.sent, hb.call, hb.all, ?_, hlt⟩
  have hq := hb.queue
  simp only [pongs, List.countP_append, List.countP_cons, List.countP_nil, decide_true,
    ↓reduceIte] at hq ⊢
  omega

/-- A Ping is sent, or the loop ends over it. -/
theorem pingFrame_balanced {s : Sender} {h : Pings} (hb : Balanced s h) (hp : s.pc = .ping)
    (ok : Bool) :
    Balanced { s with pc := if ok then .select else .ended } (h.nextOwn s (.pingFrame ok)) := by
  have hcall := hb.call hp
  have hloop := hb.loop (by rw [hp]; simp)
  have hasked := hb.asked
  cases ok with
  | false =>
    exact ⟨hb.counter, hb.bound, fun _ => hloop, hb.sent, by simp, by simp, hb.queue, hb.asked⟩
  | true =>
    refine ⟨hb.counter, hb.bound, fun _ => hloop, ?_, by simp, fun _ _ => ?_, hb.queue, ?_⟩ <;>
      simp only [Pings.nextOwn] <;> omega

theorem senderMove_balanced {s s' : Sender} {frames : List Frame} {h : Pings} {ev : SenderEv}
    (hk : cfg.kind = .websocket) (hb : Balanced s h) (hown : ev.isOwn = true)
    (hm : SenderMove cfg s ev s' frames) : Balanced s' (h.nextOwn s ev) := by
  cases hm with
  | pending | queueOp | notify | requestClose => cases hown
  | read hp | flushed hp | flushErr hp | closeFrame hp =>
    exact hb.goOn rfl rfl (by rw [hp]; simp) (by rw [hp]; simp) (by simp)
  | stop hev hp =>
    have hgo : Balanced { s with pc := .close } h :=
      hb.goOn rfl rfl (by rw [hp]; simp) (by rw [hp]; simp) (by simp)
    rcases hev with rfl | rfl <;> exact hgo
  | @writeFrame ok _ _ hp =>
    exact hb.goOn rfl rfl (by rw [hp]; simp) (by rw [hp]; simp) (by cases ok <;> simp)
  | sendData _ hk' =>
    rw [hk] at hk'
    cases hk'
  | tick hp => exact pingTick_balanced cfg hk hb hp
  | @popOp ok hp => exact handleOp_balanced hb hp ok
  | @pingFrame ok hp => exact pingFrame_balanced hb hp ok

/-! ## Both tasks -/

/-- The Pong in the reader's hands. -/
def ReaderPc.pongs : ReaderPc → Nat
  | .sending .pong => 1
  | _ => 0

/-- The Pongs received are queued or in the reader's hands; it drops one only when the
writer has ended. -/
structure Accounted (e : Endpoint) (h : Pings) : Prop where
  writer : Balanced e.sender h
  hands : h.queued + e.reader.pongs ≤ h.received
  kept : e.sender.pc ≠ .ended → h.received = h.queued + e.reader.pongs
  asked : h.received ≤ h.sent

theorem accounted_start : Accounted (Endpoint.start cfg) ⟨0, 0, 0, 0, 0⟩ :=
  ⟨balanced_start cfg, Nat.le_refl 0, fun _ => rfl, Nat.le_refl 0⟩

/-- The loop has not ended when it takes a step, and queues nothing itself. -/
theorem nextOwn_of_own {s s' : Sender} {frames : List Frame} {ev : SenderEv} (hown : ev.isOwn = true)
    (hm : SenderMove cfg s ev s' frames) (h : Pings) :
    s.pc ≠ .ended ∧ (h.nextOwn s ev).queued = h.queued ∧ (h.nextOwn s ev).received = h.received ∧
      h.sent ≤ (h.nextOwn s ev).sent := by
  cases hm with
  | pending | queueOp | notify | requestClose => cases hown
  | read hp | flushed hp | flushErr hp | closeFrame hp | writeFrame hp | sendData hp _ | tick hp =>
    exact ⟨by simp [hp], rfl, rfl, Nat.le_refl _⟩
  | stop hev hp => rcases hev with rfl | rfl <;> exact ⟨by simp [hp], rfl, rfl, Nat.le_refl _⟩
  | @popOp ok hp =>
    simp only [Pings.nextOwn]
    split <;> exact ⟨by simp [hp], rfl, rfl, Nat.le_refl _⟩
  | @pingFrame ok hp =>
    cases ok
    · exact ⟨by simp [hp], rfl, rfl, Nat.le_refl _⟩
    · exact ⟨by simp [hp], rfl, rfl, Nat.le_succ _⟩

/-- The reader goes on without a Pong, and the writer with its books as they were. -/
theorem Accounted.goOn {e e' : Endpoint} {h : Pings} (ha : Accounted e h) (hw : Balanced e'.sender h)
    (hended : e.sender.pc = .ended → e'.sender.pc = .ended) (hr : e'.reader.pongs = e.reader.pongs) :
    Accounted e' h :=
  ⟨hw, hr ▸ ha.hands, fun hne => hr ▸ ha.kept fun hend => hne (hended hend), ha.asked⟩

theorem accounted_step {e e' : Endpoint} {h : Pings} {l : EndpointEv} (hk : cfg.kind = .websocket)
    (ha : Accounted e h) (hsol : Solicited (e, h) l) (hm : EndpointMove cfg e l e') :
    Accounted e' (h.next e l) := by
  cases hm with
  | startWriter _ | pollPending _ _ _ => exact ha.goOn ha.writer id rfl
  | pollReady hp _ => exact ha.goOn (ha.writer.stay rfl rfl rfl) id rfl
  | rearm hp =>
    refine ha.goOn (ha.writer.goOn rfl rfl (by simp [hp]) (by simp [hp]) (by simp)) (fun hend => ?_) rfl
    cases hp.symm.trans hend
  | own hw hown hm =>
    obtain ⟨hopen, hqueued, hreceived, hsent⟩ := nextOwn_of_own cfg hown hm h
    have hkept := ha.kept hopen
    refine ⟨senderMove_balanced cfg hk ha.writer hown hm, ?_, fun _ => ?_, ?_⟩ <;>
      simp only [Pings.next, hqueued, hreceived]
    · exact ha.hands
    · exact hkept
    · exact Nat.le_trans ha.asked hsent
  | @receive op hr =>
    have hnone : e.reader.pongs = 0 := by rw [hr]; rfl
    cases op with
    | close | ping _ => exact ha.goOn ha.writer id (by rw [hnone]; rfl)
    | pong =>
      have hkept := ha.kept
      have hhands := ha.hands
      rw [hnone] at hkept hhands
      exact ⟨{ ha.writer with }, Nat.succ_le_succ hhands, fun hopen => congrArg (· + 1) (hkept hopen), hsol⟩
  | @push op hr =>
    have hqueue := ha.writer.queue
    simp only [Pings.next, hr]
    cases op with
    | close | ping _ =>
      refine ha.goOn (ha.writer.stay rfl ?_ rfl) id (by rw [hr]; rfl)
      simp [pongs]
    | pong =>
      -- it was in the reader's hands, so it has been counted
      have hhands := ha.hands
      have hkept := ha.kept
      rw [hr] at hhands hkept
      exact ⟨ha.writer.queuePong (Nat.lt_of_lt_of_le hhands ha.asked), hhands, hkept, ha.asked⟩
  | unsent hr => exact ha.goOn ha.writer id (by rw [hr]; rfl)
  | notifyWaiters hr _ => exact ha.goOn ha.writer id (by rw [hr]; rfl)
  | closed hr => exact ha.goOn (ha.writer.stay rfl rfl rfl) id (by rw [hr]; rfl)
  | stop hl hr hidle =>
    have hnext : h.next e l = h := by rcases hl with rfl | rfl <;> rfl
    rw [hnext]
    refine ⟨ha.writer.stay rfl rfl rfl, Nat.le_trans (Nat.le_add_right _ _) ha.hands, fun hopen => ?_, ha.asked⟩
    rcases hidle with hcopying | hend
    · have hkept := ha.kept hopen
      rwa [hcopying] at hkept
    · exact absurd hend hopen

theorem accounted_inductive (hk : cfg.kind = .websocket) :
    ((pinger cfg).guard Solicited).Inductive fun x => Accounted x.1 x.2 where
  init x hx := by
    rw [show x = (Endpoint.start cfg, ⟨0, 0, 0, 0, 0⟩) from hx]
    exact accounted_start cfg
  step x l y ha hs := by
    obtain ⟨hs, hsol⟩ := hs
    obtain ⟨hstep, hh⟩ := LTS.track_eq_some.mp hs
    rw [hh]
    exact accounted_step cfg hk ha hsol (move_of_endpointStep hstep)

theorem pongs_eq_zero {ops : List Op} (h : Op.pong ∉ ops) : pongs ops = 0 := by
  rw [pongs, List.countP_eq_zero]
  intro op hop
  simp only [decide_eq_true_eq]
  intro he
  exact h (he ▸ hop)

/-- A call of `ping()` that ends the loop has found three in flight. -/
theorem three_of_tick_ended {e e' : Endpoint} (hs : endpointStep cfg e (.own .tick) = some e')
    (hk : cfg.kind = .websocket) (hend : e'.sender.pc = .ended) :
    e.sender.pc = .select ∧ 3 ≤ e.sender.inFlightPing := by
  rw [endpointStep, Option.ite_none_right_eq_some] at hs
  obtain ⟨s', fs, hstep, rfl⟩ := advance_eq_some.mp hs.2
  simp only [senderStep, Option.ite_none_right_eq_some, Option.some.injEq, Prod.mk.injEq] at hstep
  obtain ⟨⟨hp, -⟩, rfl, -⟩ := hstep
  refine ⟨pc_of_polls hp, Nat.le_of_not_lt fun hlt => ?_⟩
  have hping : (pingTick cfg e.sender).pc = .ping := by
    simp [pingTick, hk, Nat.not_le.mpr hlt]
  cases hping.symm.trans hend

/-- **Ping accounting.** In every run of a WebSocket tunnel end whose steps are
all `Solicited`, the counter never wraps below zero, and a call of `ping()`
fails for too many in flight only when at least three Pings sent have had no
Pong, not even one that is still in the reader's hands. -/
theorem ping_accounting (hk : cfg.kind = .websocket) (x : Endpoint × Pings)
    (hr : ((pinger cfg).guard Solicited).Reachable x) :
    x.1.sender.inFlightPing ≤ x.2.calls ∧
    ∀ y, ((pinger cfg).guard Solicited).step x (.own .tick) y → y.1.sender.pc = .ended →
      x.2.received + 3 ≤ x.2.sent := by
  have ha := (accounted_inductive cfg hk).reachable x hr
  have hcounter := ha.writer.counter
  refine ⟨by omega, fun y hy hend => ?_⟩
  obtain ⟨hs, hsol⟩ := hy
  obtain ⟨hstep, -⟩ := LTS.track_eq_some.mp hs
  obtain ⟨hp, h3⟩ := three_of_tick_ended cfg hstep hk hend
  have hall := ha.writer.all (by rw [hp]; simp) (by rw [hp]; simp)
  have hqueue := ha.writer.queue
  have hkept := ha.kept (by rw [hp]; simp)
  obtain ⟨hops, hreader⟩ := hsol h3
  have hhands : x.1.reader.pongs = 0 := by
    unfold ReaderPc.pongs
    split
    · rename_i hsending
      exact absurd hsending hreader
    · rfl
  rw [pongs_eq_zero hops] at hqueue
  omega

/-- A WebSocket tunnel with pings. -/
def wsConfig : Cfg := ⟨.websocket, true, fun _ cap n => cap + n⟩

/-- A Ping that is sent, and a Pong that is received and handled. -/
def pingPong : List EndpointEv :=
  [.startWriter, .poll, .own .tick, .own (.pingFrame true), .receive .pong, .push, .notifyWaiters, .poll, .rearm,
    .own (.popOp true), .own (.popOp true)]

/-- Three Pings without an answer, and a fourth call. -/
theorem ping_accounting_threeUnanswered :
    ∃ x y, ((pinger wsConfig).guard Solicited).Reachable x ∧
      ((pinger wsConfig).guard Solicited).step x (.own .tick) y ∧ y.1.sender.pc = .ended ∧
      x.1.sender.inFlightPing ≤ x.2.calls ∧ x.2.received + 3 ≤ x.2.sent := by
  obtain ⟨x, hs, y, hy, hsol, hend⟩ : ∃ x, LTS.exec (fun x l => if Solicited x l then
        LTS.track (endpointStep wsConfig) Pings.next x l else none)
        (Endpoint.start wsConfig, ⟨0, 0, 0, 0, 0⟩)
        (pingPong ++ [.poll, .own .tick, .own (.pingFrame true), .own .tick, .own (.pingFrame true), .own .tick,
          .own (.pingFrame true)]) = some x ∧
      ∃ y, LTS.track (endpointStep wsConfig) Pings.next x (.own .tick) = some y ∧ Solicited x (.own .tick) ∧
        y.1.sender.pc = .ended := ⟨_, rfl, _, rfl, by decide, by decide⟩
  have hr : ((pinger wsConfig).guard Solicited).Reachable x := ⟨_, _, rfl, LTS.run_guard_ofFn hs⟩
  obtain ⟨hle, hfail⟩ := ping_accounting wsConfig rfl x hr
  exact ⟨x, y, hr, ⟨hy, hsol⟩, hend, hle, hfail y ⟨hy, hsol⟩ hend⟩

/-- A Pong before any Ping: the counter wraps to its largest value, and the
first call of `ping()` ends the tunnel with nothing sent. -/
theorem unsolicitedPong_closes_tunnel :
    ∃ x y, (pinger wsConfig).Reachable x ∧ x.2.calls = 0 ∧ x.1.sender.inFlightPing = 2 ^ 64 - 1 ∧
      (pinger wsConfig).step x (.own .tick) y ∧ y.1.sender.pc = .ended ∧ y.2.sent = 0 := by
  obtain ⟨x, hs, hcalls, hcnt, y, hy, h⟩ : ∃ x,
      LTS.exec (LTS.track (endpointStep wsConfig) Pings.next) (Endpoint.start wsConfig, ⟨0, 0, 0, 0, 0⟩)
        [.startWriter, .poll, .receive .pong, .push, .notifyWaiters, .poll, .rearm, .own (.popOp true),
          .own (.popOp true), .poll] = some x ∧
      x.2.calls = 0 ∧ x.1.sender.inFlightPing = 2 ^ 64 - 1 ∧
      ∃ y, LTS.track (endpointStep wsConfig) Pings.next x (.own .tick) = some y ∧
        y.1.sender.pc = .ended ∧ y.2.sent = 0 := ⟨_, rfl, by decide, by decide, _, rfl, by decide⟩
  exact ⟨x, y, ⟨_, _, rfl, LTS.run_ofFn.mpr hs⟩, hcalls, hcnt, hy, h⟩

end Wstunnel.L3.Link
