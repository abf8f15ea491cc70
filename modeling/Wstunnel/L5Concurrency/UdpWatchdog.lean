import Wstunnel.Core.LTS

/-!
# The watchdog of a UDP stream

A UDP peer does not say goodbye, so the stream of a peer ends by itself when the
peer is silent. Both UDP servers do it the same way: an interval ticks with the
timeout as its period, `poll_read` looks whether it has ticked, and ends the
stream when nothing was read since the tick before.

Time passes in steps of any length; `poll_read` is called whenever the runtime
does so, and `deadline` is the next tick of the interval. A tick that nobody
looked at stays due, and the next one is a period after it, not a period after
the look.

**Third-party code.** `interval_at` of `tokio` with its default for missed ticks, as
just said. When `poll_read` is called is up to the runtime; the second result takes
how late that may be as a bound `δ`.

**Results.**
* `timeout_after_silence`: a stream that times out has read nothing for more than
  the timeout, however late the polls were.
* `silence_times_out`: when a tick is looked at within `δ`, less than a period, a
  stream that is open has read something within two timeouts and `δ`. What is
  written to the peer does not count.
-/
namespace Wstunnel.L5.UdpWatchdog

/-- `last` is when a datagram was read last, `timedOut` when the stream ended. -/
structure State where
  now : Nat
  deadline : Nat
  dataReadBeforeDeadline : Bool
  created : Nat
  last : Option Nat
  timedOut : Option Nat
  deriving DecidableEq, Repr

/-- `interval_at(now + timeout, timeout)`
mirrors wstunnel/src/protocols/udp/server.rs:153-155 and
wstunnel/src/protocols/socks5/udp_server.rs:149-151 -/
def new (timeout now : Nat) : State := ⟨now, now + timeout, false, now, none, none⟩

/-- `poll_tick` until it is pending; `fuel` bounds the ticks that can be due. -/
def drainTicks (timeout now : Nat) : Nat → Nat → Nat
  | 0, deadline => deadline
  | fuel + 1, deadline =>
    if deadline ≤ now then drainTicks timeout now fuel (deadline + timeout) else deadline

inductive Ev where
  | advance (n : Nat)
  /-- `poll_read`; `data`: a datagram of the peer is there -/
  | poll (data : Bool)
  | write
  deriving DecidableEq, Repr

/-- The rest of `poll_read`, behind the watchdog. -/
def State.recv (s : State) (data : Bool) : State :=
  if data then { s with dataReadBeforeDeadline := true, last := some s.now } else s

/-- mirrors wstunnel/src/protocols/udp/server.rs:183-218 and
wstunnel/src/protocols/socks5/udp_server.rs:177-212 -/
def State.pollRead (timeout : Nat) (s : State) (data : Bool) : State :=
  if s.deadline ≤ s.now then
    let deadline := s.deadline + timeout
    if s.dataReadBeforeDeadline = false then { s with deadline, timedOut := some s.now }
    else
      { s with
        deadline := drainTicks timeout s.now (s.now + 1 - deadline) deadline
        dataReadBeforeDeadline := false }.recv data
  else s.recv data

def step (timeout : Nat) (s : State) (ev : Ev) : Option State :=
  if s.timedOut.isSome then none
  else match ev with
    | .advance n => some { s with now := s.now + n }
    | .poll data => some (s.pollRead timeout data)
    | .write => some s

def watchdog (timeout : Nat) : LTS State Ev := LTS.ofFn (fun s => ∃ now, s = new timeout now) (step timeout)

/-! ## The ticks that are due -/

variable {timeout : Nat}

/-- No tick is left due, and the next one is at most a period away. -/
theorem drainTicks_spec (hpos : 0 < timeout) (now : Nat) : ∀ (fuel deadline : Nat), now + 1 - deadline ≤ fuel →
    now < drainTicks timeout now fuel deadline ∧ deadline ≤ drainTicks timeout now fuel deadline ∧
      (drainTicks timeout now fuel deadline = deadline ∨ drainTicks timeout now fuel deadline ≤ now + timeout)
  | 0, deadline, hfuel => by
    rw [drainTicks]
    omega
  | fuel + 1, deadline, hfuel => by
    rw [drainTicks]
    split
    · have ih := drainTicks_spec hpos now fuel (deadline + timeout) (by omega)
      omega
    · omega

/-- What a look at a tick that is due leaves, when the stream goes on. -/
def State.afterTick (timeout : Nat) (s : State) : State :=
  { s with
    deadline := drainTicks timeout s.now (s.now + 1 - (s.deadline + timeout)) (s.deadline + timeout)
    dataReadBeforeDeadline := false }

/-- What `poll_read` does: the stream ends, or it goes on with or without a
look at a tick. -/
theorem pollRead_cases (s : State) (data : Bool) :
    (s.deadline ≤ s.now ∧ s.dataReadBeforeDeadline = false ∧
      s.pollRead timeout data = { s with deadline := s.deadline + timeout, timedOut := some s.now }) ∨
    (s.deadline ≤ s.now ∧ s.dataReadBeforeDeadline = true ∧
      s.pollRead timeout data = (s.afterTick timeout).recv data) ∨
    (s.now < s.deadline ∧ s.pollRead timeout data = s.recv data) := by
  unfold State.pollRead
  by_cases hdue : s.deadline ≤ s.now
  · cases hflag : s.dataReadBeforeDeadline
    · exact .inl ⟨hdue, rfl, by rw [if_pos hdue, if_pos rfl]⟩
    · exact .inr (.inl ⟨hdue, rfl, by rw [if_pos hdue, if_neg Bool.noConfusion]; rfl⟩)
  · exact .inr (.inr ⟨Nat.lt_of_not_le hdue, if_neg hdue⟩)

/-! ## A timeout means silence -/

/-- The last sign of life. -/
def State.alive (s : State) : Nat := s.last.getD s.created

/-- Since the last read at most one tick was looked at: none when the flag is
set, and else the next tick is more than a period after the read. -/
structure Inv (timeout : Nat) (s : State) : Prop where
  read : s.dataReadBeforeDeadline = true → s.alive < s.deadline
  silent : s.timedOut = none → s.dataReadBeforeDeadline = false →
    s.alive + timeout < s.deadline ∨ s.last = none ∧ s.deadline = s.created + timeout
  ended : ∀ t, s.timedOut = some t → s.alive + timeout < t ∨ s.last = none ∧ s.created + timeout ≤ t

/-- Behind the watchdog the next tick is ahead. -/
theorem inv_recv {s : State} (h : Inv timeout s) (hopen : s.timedOut = none) (hahead : s.now < s.deadline)
    (data : Bool) : Inv timeout (s.recv data) := by
  cases data with
  | false => exact h
  | true =>
    refine ⟨fun _ => hahead, fun _ hflag => (by cases hflag), fun t ht => ?_⟩
    rw [show (s.recv true).timedOut = s.timedOut from rfl, hopen] at ht
    cases ht

theorem inv_afterTick (hpos : 0 < timeout) {s : State} (h : Inv timeout s) (hopen : s.timedOut = none)
    (hflag : s.dataReadBeforeDeadline = true) :
    Inv timeout (s.afterTick timeout) ∧ s.now < (s.afterTick timeout).deadline := by
  have hread := h.read hflag
  obtain ⟨hnow, hle, -⟩ := drainTicks_spec hpos s.now _ (s.deadline + timeout) (Nat.le_refl _)
  refine ⟨⟨fun hf => (by cases hf), fun _ _ => .inl ?_, fun t ht => ?_⟩, hnow⟩
  · simp only [State.alive, State.afterTick] at hread ⊢
    omega
  · rw [show (s.afterTick timeout).timedOut = s.timedOut from rfl, hopen] at ht
    cases ht

theorem inv_pollRead (hpos : 0 < timeout) {s : State} (h : Inv timeout s) (hopen : s.timedOut = none) (data : Bool) :
    Inv timeout (s.pollRead timeout data) := by
  rcases pollRead_cases s data with ⟨hdue, hflag, heq⟩ | ⟨hdue, hflag, heq⟩ | ⟨hahead, heq⟩
  · rw [heq]
    refine ⟨fun hf => ?_, fun hf => (by cases hf), fun t ht => ?_⟩
    · rw [hflag] at hf
      cases hf
    · cases ht
      rcases h.silent hopen hflag with hlt | ⟨hnone, hd⟩
      · exact .inl (Nat.lt_of_lt_of_le hlt hdue)
      · exact .inr ⟨hnone, hd ▸ hdue⟩
  · rw [heq]
    obtain ⟨hinv, hahead⟩ := inv_afterTick hpos h hopen hflag
    exact inv_recv hinv hopen hahead data
  · rw [heq]
    exact inv_recv h hopen hahead data

theorem inv_inductive (hpos : 0 < timeout) : (watchdog timeout).Inductive (Inv timeout) where
  init := by
    rintro s ⟨now, rfl⟩
    exact ⟨fun hf => (by cases hf), fun _ _ => .inr ⟨rfl, rfl⟩, fun t ht => (by cases ht)⟩
  step := by
    intro s ev s' h hs
    obtain ⟨hopen, hs⟩ := Option.ite_none_left_eq_some.mp hs
    have hopen : s.timedOut = none := Option.not_isSome_iff_eq_none.mp hopen
    cases ev <;> cases hs
    · exact ⟨h.read, h.silent, h.ended⟩
    · exact inv_pollRead hpos h hopen _
    · exact h

/-- **A stream that times out was silent.** When the timeout comes at `t`, the
last datagram was read more than `timeout` before, or none ever was and the
stream is at least that old. -/
theorem timeout_after_silence (hpos : 0 < timeout) (s : State) (hr : (watchdog timeout).Reachable s) (t : Nat)
    (ht : s.timedOut = some t) :
    (∀ r, s.last = some r → r + timeout < t) ∧ (s.last = none → s.created + timeout ≤ t) := by
  rcases ((inv_inductive hpos).reachable s hr).ended t ht with hlt | ⟨hnone, hle⟩
  · refine ⟨fun r hr => ?_, fun hnone => ?_⟩
    · rwa [State.alive, hr] at hlt
    · rw [State.alive, hnone] at hlt
      exact Nat.le_of_lt hlt
  · refine ⟨fun r hr => ?_, fun _ => hle⟩
    rw [hnone] at hr
    cases hr

/-- Read at 5, looked at the tick of 10 and at that of 20. -/
def oneRead : List Ev := [.advance 5, .poll true, .write, .advance 5, .poll false, .advance 10, .poll false]

theorem timeout_after_silence_oneRead : ∃ s, (watchdog 10).Reachable s ∧ s.timedOut = some 20 ∧ s.last = some 5 ∧
    5 + 10 < 20 := by
  have hr : (watchdog 10).Reachable ⟨20, 30, false, 0, some 5, some 20⟩ :=
    ⟨new 10 0, oneRead, ⟨0, rfl⟩, LTS.run_ofFn.mpr (by decide)⟩
  exact ⟨_, hr, rfl, rfl, (timeout_after_silence (by decide) _ hr 20 rfl).1 5 rfl⟩

/-! ## Silence means a timeout -/

/-- A tick is looked at within `δ`. -/
def prompt (δ : Nat) (s : State) : Ev → Bool
  | .advance n => s.now + n ≤ s.deadline + δ
  | _ => true

/-- With prompt looks the ticks stay within two periods of the last read. -/
structure Prompt (timeout δ : Nat) (s : State) : Prop where
  read : s.dataReadBeforeDeadline = true → s.deadline ≤ s.alive + timeout
  silent : s.deadline ≤ s.alive + 2 * timeout
  near : s.deadline ≤ s.now + timeout
  looked : s.now ≤ s.deadline + δ

theorem prompt_recv {δ : Nat} {s : State} (h : Prompt timeout δ s) (data : Bool) : Prompt timeout δ (s.recv data) := by
  have hnear := h.near
  cases data with
  | false => exact h
  | true =>
    refine ⟨fun _ => hnear, ?_, hnear, h.looked⟩
    simp only [State.recv, if_true, State.alive, Option.getD_some]
    omega

theorem prompt_afterTick {δ : Nat} (hδ : δ < timeout) {s : State} (h : Prompt timeout δ s)
    (hflag : s.dataReadBeforeDeadline = true) (hdue : s.deadline ≤ s.now) :
    Prompt timeout δ (s.afterTick timeout) := by
  have hpos : 0 < timeout := Nat.zero_lt_of_lt hδ
  obtain ⟨hnow, -, hnext⟩ := drainTicks_spec hpos s.now _ (s.deadline + timeout) (Nat.le_refl _)
  have hread := h.read hflag
  have hlooked := h.looked
  -- no second tick is due yet
  have hd : (s.afterTick timeout).deadline = s.deadline + timeout := by
    simp only [State.afterTick]
    rcases hnext with hnext | hnext
    · exact hnext
    · rw [show s.now + 1 - (s.deadline + timeout) = 0 by omega, drainTicks]
  refine ⟨fun hf => (by cases hf), ?_, ?_, ?_⟩ <;> rw [hd] <;> simp only [State.alive, State.afterTick] at hread ⊢ <;> omega

theorem prompt_inductive {δ : Nat} (hδ : δ < timeout) :
    ((watchdog timeout).guard fun s ev => prompt δ s ev = true).Inductive fun s =>
      s.timedOut = none → Prompt timeout δ s where
  init := by
    rintro s ⟨now, rfl⟩ -
    refine ⟨fun hf => (by cases hf), ?_, Nat.le_refl _, ?_⟩ <;> simp only [new, State.alive, Option.getD_none] <;> omega
  step := by
    rintro s ev s' h ⟨hs, hprompt⟩ hopen'
    obtain ⟨hopen, hs⟩ := Option.ite_none_left_eq_some.mp hs
    have h := h (Option.not_isSome_iff_eq_none.mp hopen)
    cases ev with
    | advance n =>
      cases hs
      exact ⟨h.read, h.silent, Nat.le_trans h.near (by dsimp only; omega), of_decide_eq_true hprompt⟩
    | poll data =>
      cases hs
      rcases pollRead_cases s data with ⟨-, -, heq⟩ | ⟨hdue, hflag, heq⟩ | ⟨-, heq⟩
      · rw [heq] at hopen'
        cases hopen'
      · rw [heq]
        exact prompt_recv (prompt_afterTick hδ h hflag hdue) data
      · rw [heq]
        exact prompt_recv h data
    | write =>
      cases hs
      exact h

/-- **A silent stream times out.** While the stream is open and its ticks are
looked at within `δ`, its last sign of life is at most two timeouts and `δ` ago,
whatever was written to the peer. -/
theorem silence_times_out {δ : Nat} (hδ : δ < timeout) (s : State)
    (hr : ((watchdog timeout).guard fun s ev => prompt δ s ev = true).Reachable s) (hopen : s.timedOut = none) :
    s.now ≤ s.last.getD s.created + 2 * timeout + δ := by
  have h := (prompt_inductive hδ).reachable s hr hopen
  exact Nat.le_trans h.looked (Nat.add_le_add_right h.silent δ)

theorem silence_times_out_written : ∃ s,
    ((watchdog 10).guard fun s ev => prompt 1 s ev = true).Reachable s ∧ s.timedOut = none ∧
    s.now = 21 ∧ s.now ≤ 5 + 2 * 10 + 1 := by
  obtain ⟨s, hs, hopen, hlast, hnow⟩ : ∃ s, LTS.exec (fun s ev => if prompt 1 s ev = true then step 10 s ev else none)
      (new 10 0) [.advance 5, .poll true, .advance 6, .poll false, .write, .advance 10] = some s ∧
      s.timedOut = none ∧ s.last = some 5 ∧ s.now = 21 := ⟨_, rfl, rfl, rfl, rfl⟩
  have hr : ((watchdog 10).guard fun s ev => prompt 1 s ev = true).Reachable s :=
    ⟨new 10 0, _, ⟨0, rfl⟩, LTS.run_guard_ofFn hs⟩
  have hle := silence_times_out (by decide) s hr hopen
  rw [hlast] at hle
  exact ⟨s, hr, hopen, hnow, hle⟩

end Wstunnel.L5.UdpWatchdog
