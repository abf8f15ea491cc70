import Mathlib.Tactic.Common

/-!
# A `Notify` with one waiter

Tokio's `Notify` holds at most one permit. `notify_one` wakes the waiting
`Notified`, or stores the permit; `notify_waiters` completes every `Notified`
that exists, polled or not, and stores nothing. A `Notified` waits from its
first poll (or `enable`) on. Here at most one `Notified` of a `Notify` exists
at a time, and its state is kept with the permit.

`Notify.signals` counts what would let a poll through: the permit and the
completion the `Notified` holds. A poll that completes had one
(`poll_ready`) and, where there was no second, leaves none once the
`Notified` is dropped (`signals_drop_poll`).
-/
namespace Wstunnel

/-- The state of the only `Notified` of a `Notify`. -/
inductive Waiter where
  | absent
  /-- not polled yet; whether `notify_waiters` has been called since -/
  | created (all : Bool)
  | waiting
  | notifiedOne
  | notifiedAll
  | done
  deriving DecidableEq, Repr

/-- The completion a `Notified` holds, apart from the permit. -/
def Waiter.signal : Waiter → Nat
  | .created true | .notifiedOne | .notifiedAll | .done => 1
  | _ => 0

structure Notify where
  permit : Bool
  waiter : Waiter
  deriving DecidableEq, Repr

namespace Notify

def new : Notify := ⟨false, .absent⟩

/-- `notify_one` -/
def notifyOne (n : Notify) : Notify :=
  if n.waiter = .waiting then { n with waiter := .notifiedOne } else { n with permit := true }

/-- `notify_waiters` -/
def notifyWaiters (n : Notify) : Notify :=
  match n.waiter with
  | .created _ => { n with waiter := .created true }
  | .waiting => { n with waiter := .notifiedAll }
  | _ => n

/-- `notified()` -/
def notified (n : Notify) : Notify := { n with waiter := .created false }

/-- `Notified::poll`, also `enable`: whether it has completed. -/
def poll (n : Notify) : Bool × Notify :=
  match n.waiter with
  | .absent => (false, n)
  | .created all =>
    if n.permit then (true, ⟨false, .done⟩)
    else if all then (true, { n with waiter := .done })
    else (false, { n with waiter := .waiting })
  | .waiting => (false, n)
  | .notifiedOne | .notifiedAll | .done => (true, { n with waiter := .done })

/-- Dropping the `Notified`: a `notify_one` it has not consumed becomes a permit. -/
def drop (n : Notify) : Notify :=
  if n.waiter = .notifiedOne then ⟨true, .absent⟩ else { n with waiter := .absent }

/-- A `Notified` exists. -/
def armed (n : Notify) : Bool := n.waiter != .absent

def signals (n : Notify) : Nat := n.permit.toNat + n.waiter.signal

@[simp] theorem armed_notifyOne (n : Notify) : n.notifyOne.armed = n.armed := by
  unfold notifyOne
  split
  · rename_i h
    rw [armed, armed, h]
    rfl
  · rfl

@[simp] theorem armed_drop (n : Notify) : n.drop.armed = false := by
  unfold drop
  split <;> rfl

theorem armed_poll (n : Notify) : n.poll.2.armed = n.armed := by
  obtain ⟨permit, waiter⟩ := n
  cases waiter with
  | created all => cases permit <;> cases all <;> rfl
  | _ => rfl

@[simp] theorem armed_notifyWaiters (n : Notify) : n.notifyWaiters.armed = n.armed := by
  obtain ⟨permit, waiter⟩ := n
  cases waiter <;> rfl

/-- Every `Notified` that exists is completed. -/
theorem signal_notifyWaiters {n : Notify} (h : n.armed = true) : n.notifyWaiters.waiter.signal = 1 := by
  obtain ⟨permit, waiter⟩ := n
  cases waiter with
  | absent => cases h
  | _ => rfl

theorem waiter_poll_ready {n : Notify} (h : n.poll.1 = true) : n.poll.2.waiter = .done := by
  obtain ⟨permit, waiter⟩ := n
  cases waiter with
  | created all => cases permit <;> cases all <;> simp_all [poll]
  | absent | waiting => cases h
  | _ => rfl

theorem signal_poll_pending {n : Notify} (h : n.poll.1 = false) : n.waiter.signal = 0 := by
  obtain ⟨permit, waiter⟩ := n
  cases waiter with
  | created all => cases permit <;> cases all <;> simp_all [poll, Waiter.signal]
  | absent | waiting => rfl
  | _ => cases h

theorem signals_notifyOne {n : Notify} (h : n.signals = 0) : n.notifyOne.signals = 1 := by
  obtain ⟨permit, waiter⟩ := n
  cases permit <;> cases waiter <;> simp_all [signals, notifyOne, Waiter.signal]

/-- Making a new `Notified` keeps the permit and nothing else. -/
theorem signals_notified_le (n : Notify) : n.notified.signals ≤ n.signals := by
  simp [signals, notified, Waiter.signal]

theorem signals_drop_le (n : Notify) : n.drop.signals ≤ n.signals := by
  obtain ⟨permit, waiter⟩ := n
  cases waiter <;> cases permit <;> simp [signals, drop, Waiter.signal]

theorem poll_ready {n : Notify} (h : n.poll.1 = true) : 1 ≤ n.signals := by
  obtain ⟨permit, waiter⟩ := n
  cases waiter with
  | created all => cases permit <;> cases all <;> simp_all [signals, poll, Waiter.signal]
  | _ => cases permit <;> simp_all [signals, poll, Waiter.signal]

theorem signals_poll_pending {n : Notify} (h : n.poll.1 = false) :
    n.poll.2.signals = n.signals := by
  obtain ⟨permit, waiter⟩ := n
  cases waiter with
  | created all => cases permit <;> cases all <;> simp_all [signals, poll, Waiter.signal]
  | _ => simp_all [poll]

/-- A completed poll uses its signal up. -/
theorem signals_drop_poll {n : Notify} (h : n.poll.1 = true) (h1 : n.signals ≤ 1) :
    n.poll.2.drop.signals = 0 := by
  obtain ⟨permit, waiter⟩ := n
  cases waiter with
  | created all => cases permit <;> cases all <;> simp_all [signals, poll, drop, Waiter.signal]
  | _ => cases permit <;> simp_all [signals, poll, drop, Waiter.signal]

end Notify

end Wstunnel
