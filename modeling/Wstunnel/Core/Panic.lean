import Mathlib.Algebra.Group.Nat.Defs
import Mathlib.Data.List.Basic
import Mathlib.Tactic.Common

/-!
# Calls that may panic

What a call can do besides return: unwrap an empty option, slice a text at an
offset that is past its end or inside of a character, and overflow a machine
integer, which panics or wraps around by the build's overflow checks.

* `sliceFrom_append`, `sliceTo_append`: slices between two characters.
* `sliceFrom_inside`: a slice inside of a character.
-/
namespace Wstunnel

/-- How a call ends. -/
inductive Call (α : Type) where
  | returns (a : α)
  | panics
  deriving DecidableEq, Repr

namespace Call

variable {α β : Type}

protected def bind : Call α → (α → Call β) → Call β
  | returns a, f => f a
  | panics, _ => panics

instance : Monad Call where
  pure := returns
  bind := Call.bind

@[simp] theorem pure_eq (a : α) : (pure a : Call α) = returns a := rfl

@[simp] theorem returns_bind (a : α) (f : α → Call β) : returns a >>= f = f a := rfl

@[simp] theorem panics_bind (f : α → Call β) : panics >>= f = panics := rfl

/-- `Option::unwrap` -/
def unwrap : Option α → Call α
  | some a => returns a
  | none => panics

@[simp] theorem unwrap_some (a : α) : unwrap (some a) = returns a := rfl

@[simp] theorem unwrap_none : (unwrap none : Call α) = panics := rfl

/-- The call ends without a panic. -/
def Returns (c : Call α) : Prop := ∃ a, c = returns a

theorem returns_unwrap_iff {o : Option α} : (unwrap o).Returns ↔ o.isSome = true := by
  cases o with
  | none =>
    refine iff_of_false ?_ Bool.false_ne_true
    rintro ⟨a, h⟩
    cases h
  | some a => exact iff_of_true ⟨a, rfl⟩ rfl

theorem returns_map_iff {c : Call α} (f : α → β) : (c >>= fun a => returns (f a)).Returns ↔ c.Returns := by
  cases c with
  | panics =>
    refine iff_of_false ?_ ?_ <;> rintro ⟨a, h⟩ <;> cases h
  | returns a => exact iff_of_true ⟨f a, rfl⟩ ⟨a, rfl⟩

end Call

/-! ## Machine integers -/

/-- `a - b` of 64 bits. -/
def sub64 (overflowChecks : Bool) (a b : Nat) : Call Nat :=
  if b ≤ a then .returns (a - b) else if overflowChecks then .panics else .returns (a + 2 ^ 64 - b)

/-- `a * b` of 64 bits. -/
def mul64 (overflowChecks : Bool) (a b : Nat) : Call Nat :=
  if a * b < 2 ^ 64 then .returns (a * b) else if overflowChecks then .panics else .returns (a * b % 2 ^ 64)

/-- Whatever the checks, there is a result and it is the product exactly if
the product fits. -/
theorem mul64_eq_iff (overflowChecks : Bool) (a b : Nat) :
    mul64 overflowChecks a b = .returns (a * b) ↔ a * b < 2 ^ 64 := by
  unfold mul64
  split
  · rename_i h
    exact iff_of_true rfl h
  · rename_i h
    refine iff_of_false ?_ h
    have hmod := Nat.mod_lt (a * b) (by decide : 0 < 2 ^ 64)
    cases overflowChecks with
    | true => exact fun he => by cases he
    | false =>
      intro he
      have hval := Call.returns.inj he
      omega

/-! ## Slices -/

/-- `str::len` -/
def byteLen : List Char → Nat
  | [] => 0
  | c :: cs => c.utf8Size + byteLen cs

/-- `&s[n..]` -/
def sliceFrom : List Char → Nat → Option (List Char)
  | s, 0 => some s
  | [], _ + 1 => none
  | c :: cs, n + 1 => if c.utf8Size ≤ n + 1 then sliceFrom cs (n + 1 - c.utf8Size) else none

/-- `&s[..n]` -/
def sliceTo : List Char → Nat → Option (List Char)
  | _, 0 => some []
  | [], _ + 1 => none
  | c :: cs, n + 1 => if c.utf8Size ≤ n + 1 then (sliceTo cs (n + 1 - c.utf8Size)).map (c :: ·) else none

theorem byteLen_append (l r : List Char) : byteLen (l ++ r) = byteLen l + byteLen r := by
  induction l with
  | nil => simp [byteLen]
  | cons c l ih => rw [List.cons_append, byteLen, byteLen, ih, Nat.add_assoc]

theorem byteLen_cons (c : Char) (cs : List Char) : byteLen (c :: cs) = c.utf8Size + byteLen cs := rfl

/-- Past the first character. -/
theorem sliceFrom_cons (c : Char) (cs : List Char) (n : Nat) :
    sliceFrom (c :: cs) (c.utf8Size + n) = sliceFrom cs n := by
  obtain ⟨k, hk⟩ := Nat.exists_eq_succ_of_ne_zero (Nat.ne_of_gt c.utf8Size_pos)
  have hsize : c.utf8Size + n = k + n + 1 := by omega
  rw [hsize, sliceFrom, if_pos (by omega)]
  congr 1
  omega

theorem sliceTo_cons (c : Char) (cs : List Char) (n : Nat) :
    sliceTo (c :: cs) (c.utf8Size + n) = (sliceTo cs n).map (c :: ·) := by
  obtain ⟨k, hk⟩ := Nat.exists_eq_succ_of_ne_zero (Nat.ne_of_gt c.utf8Size_pos)
  have hsize : c.utf8Size + n = k + n + 1 := by omega
  rw [hsize, sliceTo, if_pos (by omega)]
  congr 2
  omega

theorem sliceFrom_add (l r : List Char) (n : Nat) : sliceFrom (l ++ r) (byteLen l + n) = sliceFrom r n := by
  induction l with
  | nil => simp [byteLen]
  | cons c l ih =>
    rw [byteLen_cons, Nat.add_assoc, List.cons_append, sliceFrom_cons, ih]

theorem sliceFrom_append (l r : List Char) : sliceFrom (l ++ r) (byteLen l) = some r := by
  have h := sliceFrom_add l r 0
  rwa [Nat.add_zero, show sliceFrom r 0 = some r by cases r <;> rfl] at h

theorem sliceTo_append (l r : List Char) : sliceTo (l ++ r) (byteLen l) = some l := by
  induction l with
  | nil => cases r <;> rfl
  | cons c l ih =>
    rw [byteLen_cons, List.cons_append, sliceTo_cons, ih]
    rfl

/-- Inside of a character. -/
theorem sliceFrom_inside (l r : List Char) {c : Char} {n : Nat} (hpos : 0 < n) (hlt : n < c.utf8Size) :
    sliceFrom (l ++ c :: r) (byteLen l + n) = none := by
  obtain ⟨k, rfl⟩ := Nat.exists_eq_succ_of_ne_zero (Nat.ne_of_gt hpos)
  rw [sliceFrom_add, sliceFrom, if_neg (by omega)]

example : sliceFrom "5€".toList 2 = none ∧ sliceFrom "5€".toList 4 = some [] ∧
    sliceFrom "5€".toList 5 = none := by decide

end Wstunnel
