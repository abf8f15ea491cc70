import Mathlib.Tactic.Common

/-!
# Streams of records

A stream is read by taking one record after the other off its front. When
what is taken does not depend on what follows (`Stable`), the records of a
stream that grows at its end are those read before and the new one
(`readAll_concat`). A stream that ends inside of a record, or with something that is
none, has no records at all: this is what a reader of the whole stream sees. For one
that reads while the stream arrives see `Core.Framing`.
-/
namespace Wstunnel.Records

variable {α R : Type} {next : List α → Option (R × List α)}

/-- At most `n` records, until the stream is used up. -/
def readUpTo (next : List α → Option (R × List α)) : Nat → List α → Option (List R)
  | _, [] => some []
  | 0, _ :: _ => none
  | n + 1, a :: as => (next (a :: as)).bind fun p => (readUpTo next n p.2).map (p.1 :: ·)

/-- The records of a whole stream; every record takes at least one element. -/
def readAll (next : List α → Option (R × List α)) (l : List α) : Option (List R) :=
  readUpTo next l.length l

def Stable (next : List α → Option (R × List α)) : Prop :=
  ∀ l r rest more, next l = some (r, rest) → next (l ++ more) = some (r, rest ++ more)

theorem readUpTo_mono {n m : Nat} {l : List α} {rs : List R} (h : readUpTo next n l = some rs)
    (hnm : n ≤ m) : readUpTo next m l = some rs := by
  induction n generalizing m l rs with
  | zero =>
    cases l with
    | nil => cases m <;> exact h
    | cons a as => cases h
  | succ n ih =>
    cases l with
    | nil => cases m <;> exact h
    | cons a as =>
      obtain ⟨m, rfl⟩ : ∃ k, m = k + 1 := ⟨m - 1, by omega⟩
      simp only [readUpTo, Option.bind_eq_some_iff, Option.map_eq_some_iff] at h ⊢
      obtain ⟨p, hp, rs', hrs', rfl⟩ := h
      exact ⟨p, hp, rs', ih hrs' (by omega), rfl⟩

theorem readUpTo_concat (hst : Stable next) {n : Nat} {l l' : List α} {rs : List R} {r : R}
    (h : readUpTo next n l = some rs) (hr : next l' = some (r, [])) (hne : l' ≠ []) :
    readUpTo next (n + 1) (l ++ l') = some (rs ++ [r]) := by
  induction n generalizing l rs with
  | zero =>
    cases l with
    | nil =>
      cases h
      obtain ⟨a, as, rfl⟩ := List.exists_cons_of_ne_nil hne
      simp [readUpTo, hr]
    | cons a as => cases h
  | succ n ih =>
    cases l with
    | nil =>
      cases h
      obtain ⟨a, as, rfl⟩ := List.exists_cons_of_ne_nil hne
      simp [readUpTo, hr]
    | cons a as =>
      simp only [readUpTo, Option.bind_eq_some_iff, Option.map_eq_some_iff] at h
      obtain ⟨⟨r₁, rest⟩, hp, rs', hrs', rfl⟩ := h
      have hrest := ih hrs'
      rw [List.cons_append, readUpTo, ← List.cons_append, hst _ _ _ _ hp, Option.bind_some, hrest]
      rfl

/-- One more record at the end. -/
theorem readAll_concat (hst : Stable next) {l l' : List α} {rs : List R} {r : R}
    (h : readAll next l = some rs) (hr : next l' = some (r, [])) (hne : l' ≠ []) :
    readAll next (l ++ l') = some (rs ++ [r]) := by
  have hlen : 0 < l'.length := List.length_pos_iff.mpr hne
  refine readUpTo_mono (readUpTo_concat hst h hr hne) ?_
  rw [List.length_append]
  omega

end Wstunnel.Records
