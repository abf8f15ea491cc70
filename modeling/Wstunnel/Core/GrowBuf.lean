import Mathlib.Data.List.Basic

/-!
# Buffers that grow when they are full

A buffer with a capacity, of which a reader fills the spare part: a read brings at
most as many bytes as there is room for, and a buffer without room is grown first.
How much it grows is up to an allocator, of which is assumed only that it gives
some room (`Growth`).

A read therefore never crosses a capacity of the buffer: it ends at or before the
next one. `Growth.upTo cap n` is the first capacity from `cap` on that is not below
`n`.

* `GrowBuf.upTo_read`: a read does not change which capacity comes next.
* `GrowBuf.length_le_upTo`: what is in the buffer after a read is at most the first
  capacity at or behind any point that the read has passed.
-/
namespace Wstunnel

/-- The capacity that a full buffer is given; there is room in it. -/
structure Growth where
  grow : Nat → Nat
  lt_grow : ∀ capacity, capacity < grow capacity

/-- The first capacity from `capacity` on that is not below `n`. -/
def Growth.upTo (G : Growth) (capacity n : Nat) : Nat :=
  if n ≤ capacity then capacity else G.upTo (G.grow capacity) n
termination_by n - capacity
decreasing_by
  have := G.lt_grow capacity
  omega

/-- What is in the buffer fits into its capacity. -/
structure GrowBuf where
  bytes : List UInt8
  capacity : Nat
  length_le : bytes.length ≤ capacity

namespace GrowBuf

def withCapacity (capacity : Nat) : GrowBuf := ⟨[], capacity, Nat.zero_le _⟩

variable (G : Growth) (b : GrowBuf)

/-- The capacity at the next read: a full buffer grows first. -/
def spare : Nat := if b.bytes.length = b.capacity then G.grow b.capacity else b.capacity

/-- The buffer after a read of `bytes`; `none` if there is no room for that many. -/
def read (bytes : List UInt8) : Option GrowBuf :=
  if h : b.bytes.length + bytes.length ≤ b.spare G then
    some ⟨b.bytes ++ bytes, b.spare G, by rw [List.length_append]; exact h⟩
  else none

end GrowBuf

/-! ## The next capacity -/

namespace Growth

variable (G : Growth) {capacity n : Nat}

theorem upTo_of_le (h : n ≤ capacity) : G.upTo capacity n = capacity := by
  rw [upTo, if_pos h]

theorem upTo_of_lt (h : capacity < n) : G.upTo capacity n = G.upTo (G.grow capacity) n := by
  rw [upTo, if_neg (Nat.not_le.mpr h)]

theorem le_upTo (capacity n : Nat) : capacity ≤ G.upTo capacity n := by
  fun_induction upTo G capacity n with
  | case1 => exact Nat.le_refl _
  | case2 capacity _ ih =>
    have := G.lt_grow capacity
    omega

end Growth

namespace GrowBuf

variable {G : Growth} {b b' : GrowBuf} {bytes : List UInt8}

theorem length_lt_spare : b.bytes.length < b.spare G := by
  have hle := b.length_le
  have hlt := G.lt_grow b.capacity
  unfold spare
  split <;> omega

theorem read_eq_some (h : b.read G bytes = some b') :
    b'.bytes = b.bytes ++ bytes ∧ b'.capacity = b.spare G := by
  unfold read at h
  split at h
  · cases h
    exact ⟨rfl, rfl⟩
  · cases h

/-- A read that fills the spare part, or takes all there is. -/
theorem exists_read_fill (G : Growth) (b : GrowBuf) (stream : List UInt8) :
    ∃ b', b.read G (stream.take (b.spare G - b.bytes.length)) = some b' ∧
      b'.bytes = (b.bytes ++ stream).take (b.spare G) ∧ b'.capacity = b.spare G := by
  have hroom := b.length_lt_spare (G := G)
  have hfits : b.bytes.length + (stream.take (b.spare G - b.bytes.length)).length ≤ b.spare G := by
    rw [List.length_take]
    omega
  refine ⟨_, dif_pos hfits, ?_, rfl⟩
  rw [List.take_append, List.take_of_length_le (Nat.le_of_lt hroom)]

/-- Behind what is in the buffer the next capacity is the same before and after it
grows. -/
theorem upTo_spare {n : Nat} (h : b.bytes.length < n) : G.upTo (b.spare G) n = G.upTo b.capacity n := by
  unfold spare
  split
  · rename_i hfull
    exact (G.upTo_of_lt (by omega)).symm
  · rfl

theorem upTo_read {n : Nat} (h : b.read G bytes = some b') (hn : b'.bytes.length < n) :
    G.upTo b'.capacity n = G.upTo b.capacity n := by
  obtain ⟨hbytes, hcapacity⟩ := read_eq_some h
  rw [hbytes, List.length_append] at hn
  rw [hcapacity, upTo_spare (by omega)]

theorem length_le_upTo {n : Nat} (h : b.read G bytes = some b') (hn : b.bytes.length < n) :
    b'.bytes.length ≤ G.upTo b.capacity n := by
  obtain ⟨-, hcapacity⟩ := read_eq_some h
  calc b'.bytes.length ≤ b'.capacity := b'.length_le
    _ ≤ G.upTo b'.capacity n := G.le_upTo _ _
    _ = G.upTo b.capacity n := by rw [hcapacity, upTo_spare hn]

end GrowBuf

end Wstunnel
