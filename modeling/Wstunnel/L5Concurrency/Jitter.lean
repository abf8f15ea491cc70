import Wstunnel.Core.CasLoop

/-!
# The jitter of the rate limiter

`next_jitter_roll` is called by every poll of every rate-limited connection. The
state of the generator is one `AtomicU64` that all threads step with a weak
compare-and-exchange.

**Third-party code.** The exchange may fail without a reason, as a weak one may. All
accesses are relaxed; they are to one atomic, whose values have one order, and no
more than that is used.

**Results.**
* `rolls_handed_out_once`: the calls get the steps of the generator in the order
  of their exchanges, none twice and none left out, and a call starts over only
  because another one got through. The state is never 0, from which the
  generator would not come back.
-/
namespace Wstunnel.L5.Jitter

open Wstunnel.CasLoop

/-- mirrors wstunnel/src/tunnel/rate_limiter.rs:117-120 -/
def xorshift (x : BitVec 64) : BitVec 64 :=
  let x := x ^^^ (x <<< 13)
  let x := x ^^^ (x >>> 7)
  x ^^^ (x <<< 17)

/-- mirrors wstunnel/src/tunnel/rate_limiter.rs:22 -/
def seed : BitVec 64 := 0x9E3779B97F4A7C15

/-- `next_jitter_roll`, called by any number of threads; a call returns the lower
half of the state that it wrote.
mirrors wstunnel/src/tunnel/rate_limiter.rs:113-126 -/
def jitter : LTS (Threads (Cell (BitVec 64)) (Caller (BitVec 64))) (Threads.Label Empty Act) :=
  CasLoop.system xorshift seed

/-! ## The generator does not reach 0 -/

/-- A word that a shift does not change is 0, since shifting on leaves nothing. -/
theorem eq_zero_of_xor_shiftLeft {w k : Nat} {x : BitVec w} (hk : 0 < k) (h : x ^^^ (x <<< k) = 0#w) : x = 0#w := by
  have hfix : x = x <<< k := BitVec.xor_eq_zero_iff.mp h
  have hall (n : Nat) : x = x <<< (k * n) := by
    induction n with
    | zero => rw [Nat.mul_zero, BitVec.shiftLeft_zero]
    | succ n ih => rw [Nat.mul_succ, BitVec.shiftLeft_add, ← ih, ← hfix]
  rw [hall w]
  exact BitVec.shiftLeft_eq_zero (Nat.le_mul_of_pos_left w hk)

theorem eq_zero_of_xor_ushiftRight {w k : Nat} {x : BitVec w} (hk : 0 < k) (h : x ^^^ (x >>> k) = 0#w) : x = 0#w := by
  have hfix : x = x >>> k := BitVec.xor_eq_zero_iff.mp h
  have hall (n : Nat) : x = x >>> (k * n) := by
    induction n with
    | zero => rw [Nat.mul_zero, BitVec.ushiftRight_zero]
    | succ n ih => rw [Nat.mul_succ, BitVec.shiftRight_add, ← ih, ← hfix]
  rw [hall w]
  exact BitVec.ushiftRight_eq_zero (Nat.le_mul_of_pos_left w hk)

theorem xorshift_ne_zero {x : BitVec 64} (h : x ≠ 0) : xorshift x ≠ 0 := by
  intro hzero
  have hsecond := eq_zero_of_xor_shiftLeft (by decide) hzero
  have hfirst := eq_zero_of_xor_ushiftRight (by decide) hsecond
  exact h (eq_zero_of_xor_shiftLeft (by decide) hfirst)

theorem iterate_ne_zero (n : Nat) : xorshift^[n] seed ≠ 0 := by
  induction n with
  | zero => decide
  | succ n ih =>
    rw [Function.iterate_succ_apply']
    exact xorshift_ne_zero ih

/-! ## The calls -/

/-- **Every step of the generator is one call's.** Over any interleaving the
calls that returned did the updates `1` to `updates`, each of them once, and
got the state behind their update; a call whose exchange finds another value
than it read was overtaken; the state is not 0. -/
theorem rolls_handed_out_once (x : Threads (Cell (BitVec 64)) (Caller (BitVec 64))) (hr : jitter.Reachable x) :
    (x.threads.filterMap Caller.update?).Perm (List.range' 1 x.shared.updates) ∧
      (∀ y k, Caller.returned y k ∈ x.threads → y = xorshift^[k] seed) ∧
      (∀ cur seen, Caller.loop cur seen ∈ x.threads → x.shared.value ≠ cur → seen < x.shared.updates) ∧
      x.shared.value = xorshift^[x.shared.updates] seed ∧ x.shared.value ≠ 0 := by
  have h := CasLoop.orbit hr
  refine ⟨h.returned, fun y k hy => h.holds _ hy, fun cur seen hc hne => ?_, h.value, ?_⟩
  · exact seen_lt_of_ne h.value (h.holds _ hc) hne
  · rw [h.value]
    exact iterate_ne_zero _

/-- Two calls read the same state; the second one to exchange starts over. -/
def overtaken : List (Threads.Label Empty Act) :=
  [.thread 0 .load, .thread 0 .load, .thread 1 (.exchange false), .thread 2 (.exchange false), .thread 2 (.exchange false)]

theorem rolls_handed_out_once_overtaken : ∃ x, jitter.Reachable x ∧
    x.threads = [.source, .returned (xorshift seed) 1, .returned (xorshift (xorshift seed)) 2] ∧
    x.shared.value ≠ 0 := by
  have hr : jitter.Reachable ⟨⟨xorshift (xorshift seed), 2⟩,
      [.source, .returned (xorshift seed) 1, .returned (xorshift (xorshift seed)) 2]⟩ :=
    ⟨_, overtaken, rfl, LTS.run_ofFn.mpr (by decide)⟩
  exact ⟨_, hr, rfl, (rolls_handed_out_once _ hr).2.2.2.2⟩

end Wstunnel.L5.Jitter
