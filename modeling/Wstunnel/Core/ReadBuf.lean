import Mathlib.Tactic.Common

/-!
# `ReadBuf`

The buffer that tokio's `AsyncRead` reads into: memory of a fixed length, of
which the first `filled` bytes hold data and the first `initialized` bytes
may be looked at. Memory from `initialized` on has no defined content.

`take` lends a part of the unfilled memory as a buffer of its own, with both
marks at 0; `restore` is the outer buffer once the memory it lent has been
written to. The marks of the outer buffer do not move by that: `assumeInit`
and `setFilled` move them by hand.

`Extends`: what a reader may do to a buffer. `assumeInit_extends_iff` says
when the two calls bring the marks of a lent part back correctly.
-/
namespace Wstunnel

structure ReadBuf where
  bytes : List UInt8
  filled : Nat
  initialized : Nat
  deriving DecidableEq, Repr

namespace ReadBuf

def capacity (b : ReadBuf) : Nat := b.bytes.length

def remaining (b : ReadBuf) : Nat := b.capacity - b.filled

structure WellFormed (b : ReadBuf) : Prop where
  filled : b.filled ≤ b.initialized
  initialized : b.initialized ≤ b.capacity

/-- `take(n)`: the first `n` unfilled bytes, or all of them. -/
def take (b : ReadBuf) (n : Nat) : ReadBuf :=
  ⟨(b.bytes.drop b.filled).take (min b.remaining n), 0, 0⟩

/-- The memory of `b` after the part that was lent holds what `sub` says. -/
def restore (b sub : ReadBuf) : ReadBuf :=
  { b with bytes := b.bytes.take b.filled ++ sub.bytes ++ b.bytes.drop (b.filled + sub.capacity) }

/-- `assume_init(n)`: the `n` bytes after the filled ones. -/
def assumeInit (b : ReadBuf) (n : Nat) : ReadBuf :=
  { b with initialized := max b.initialized (b.filled + n) }

/-- `set_filled(n)`; `none` is its assertion. -/
def setFilled (b : ReadBuf) (n : Nat) : Option ReadBuf :=
  if n ≤ b.initialized then some { b with filled := n } else none

/-- `b'` is `b` after a reader produced `produced` bytes and wrote `written`
bytes after the filled ones. -/
structure Extends (b b' : ReadBuf) (produced written : Nat) : Prop where
  wellFormed : b'.WellFormed
  capacity : b'.capacity = b.capacity
  filled : b'.filled = b.filled + produced
  kept : b'.bytes.take b.filled = b.bytes.take b.filled
  marked : ∀ i, i < b'.initialized → i < b.initialized ∨ b.filled ≤ i ∧ i < b.filled + written

theorem Extends.refl {b : ReadBuf} (h : b.WellFormed) : b.Extends b 0 0 :=
  ⟨h, rfl, rfl, rfl, fun _ hi => .inl hi⟩

theorem capacity_take {b : ReadBuf} (h : b.WellFormed) (n : Nat) :
    (b.take n).capacity = min b.remaining n := by
  have hf := h.filled
  have hi := h.initialized
  simp only [capacity, remaining, take, List.length_take, List.length_drop] at *
  omega

theorem take_wellFormed (b : ReadBuf) (n : Nat) : (b.take n).WellFormed :=
  ⟨Nat.le_refl 0, Nat.zero_le _⟩

theorem capacity_restore {b sub : ReadBuf} (hfit : b.filled + sub.capacity ≤ b.capacity) :
    (b.restore sub).capacity = b.capacity := by
  simp only [capacity, restore, List.length_append, List.length_take, List.length_drop] at *
  omega

theorem take_filled_restore {b sub : ReadBuf} (hfit : b.filled + sub.capacity ≤ b.capacity) :
    (b.restore sub).bytes.take b.filled = b.bytes.take b.filled := by
  have hlen : (b.bytes.take b.filled).length = b.filled := by
    simp only [capacity, List.length_take] at *
    omega
  rw [restore, List.append_assoc]
  exact List.take_left' hlen

/-- The marks brought back by `assume_init(filled + k)` and
`set_filled(filled + k)`: correct exactly when the bytes that `assume_init`
counts from the filled mark on were all initialized or written. -/
theorem assumeInit_extends_iff {b sub : ReadBuf} (h : b.WellFormed) (hsub : sub.WellFormed)
    (hfit : b.filled + sub.capacity ≤ b.capacity) :
    ∃ b', ((b.restore sub).assumeInit (b.filled + sub.filled)).setFilled (b.filled + sub.filled) = some b' ∧
      (b.Extends b' sub.filled sub.initialized ↔
        2 * b.filled + sub.filled ≤ max b.initialized (b.filled + sub.initialized)) := by
  have hle : b.filled + sub.filled ≤ max b.initialized (b.filled + (b.filled + sub.filled)) := by omega
  refine ⟨_, if_pos hle, ?_⟩
  have hcap := capacity_restore hfit
  refine ⟨?_, ?_⟩
  · intro hext
    -- the last byte that `assume_init` marks
    by_contra hlt
    have hmark := hext.marked (2 * b.filled + sub.filled - 1)
    simp only [assumeInit, restore] at hmark
    omega
  · intro hroom
    have hb := h.initialized
    have hs := hsub.initialized
    refine ⟨⟨hle, Nat.le_trans ?_ (Nat.le_of_eq hcap.symm)⟩, hcap, rfl, take_filled_restore hfit, ?_⟩
    · simp only [assumeInit, restore]
      omega
    · intro i hi
      simp only [assumeInit, restore] at hi
      have hf := h.filled
      omega

end ReadBuf

end Wstunnel
