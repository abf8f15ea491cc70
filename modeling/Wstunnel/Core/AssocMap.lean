import Mathlib.Tactic.Common

/-!
# Maps as association lists

What a registry needs of a hash map: `List.lookup` for `get`, and here
`insert`, which replaces, and `erase`. The order of the entries means nothing, and
there is at most one for a key as long as the two operations are all that is used.

* `lookup_insert_self`, `lookup_insert_of_ne`, `lookup_erase_self`,
  `lookup_erase_of_ne`: what is found after an operation.
* `mem_insert`, `mem_erase`: the same for entries.
* `lookup_foldl_insert`: of many entries for a key the last one counts.
-/
namespace Wstunnel.AssocMap

variable {K V : Type} [DecidableEq K]

def erase (m : List (K × V)) (k : K) : List (K × V) := m.filter (·.1 ≠ k)

def insert (m : List (K × V)) (k : K) (v : V) : List (K × V) := (k, v) :: erase m k

theorem mem_of_lookup {m : List (K × V)} {k : K} {v : V} (h : m.lookup k = some v) :
    (k, v) ∈ m := by
  obtain ⟨l₁, l₂, rfl, -⟩ := List.lookup_eq_some_iff.mp h
  simp

theorem mem_erase {m : List (K × V)} {k : K} {e : K × V} : e ∈ erase m k ↔ e ∈ m ∧ e.1 ≠ k := by
  simp [erase]

theorem mem_insert {m : List (K × V)} {k : K} {v : V} {e : K × V} :
    e ∈ insert m k v ↔ e = (k, v) ∨ e ∈ erase m k := List.mem_cons

@[simp]
theorem lookup_insert_self (m : List (K × V)) (k : K) (v : V) :
    (insert m k v).lookup k = some v := by
  simp [insert]

theorem lookup_cons_of_ne {K V : Type} [BEq K] [LawfulBEq K] {m : List (K × V)} {k k' : K} {v : V} (h : k' ≠ k) :
    ((k, v) :: m).lookup k' = m.lookup k' := by
  rw [List.lookup_cons, beq_eq_false_iff_ne.mpr h]

theorem lookup_filter (m : List (K × V)) (p : K → Bool) (k : K) :
    (m.filter fun e => p e.1).lookup k = if p k then m.lookup k else none := by
  induction m with
  | nil => simp
  | cons e m ih =>
    obtain ⟨k₁, v⟩ := e
    by_cases hk : k = k₁
    · subst hk
      cases hp : p k with
      | true => simp [hp]
      | false => simpa [List.filter_cons, hp] using ih
    · rw [List.filter_cons, lookup_cons_of_ne hk]
      split
      · rw [lookup_cons_of_ne hk]
        exact ih
      · exact ih

@[simp]
theorem lookup_erase_self (m : List (K × V)) (k : K) : (erase m k).lookup k = none :=
  (lookup_filter m (· ≠ k) k).trans (by simp)

theorem lookup_erase_of_ne (m : List (K × V)) {k k' : K} (h : k' ≠ k) :
    (erase m k).lookup k' = m.lookup k' :=
  (lookup_filter m (· ≠ k) k').trans (by simp [h])

theorem lookup_insert_of_ne (m : List (K × V)) {k k' : K} (v : V) (h : k' ≠ k) :
    (insert m k v).lookup k' = m.lookup k' := by
  rw [insert, lookup_cons_of_ne h]
  exact lookup_erase_of_ne m h

/-- A map filled from a list: the last entry of a key is the one that stays. -/
theorem lookup_foldl_insert (es m : List (K × V)) (k : K) :
    (es.foldl (fun m e => insert m e.1 e.2) m).lookup k = (es.reverse ++ m).lookup k := by
  induction es generalizing m with
  | nil => rfl
  | cons e es ih =>
    obtain ⟨k₁, v⟩ := e
    have hinsert : (insert m k₁ v).lookup k = ((k₁, v) :: m).lookup k := by
      by_cases hk : k = k₁
      · subst hk
        simp
      · rw [lookup_insert_of_ne m v hk, lookup_cons_of_ne hk]
    rw [List.foldl_cons, ih, List.reverse_cons, List.append_assoc, List.singleton_append, List.lookup_append,
      List.lookup_append, hinsert]

theorem lookup_foldl_insert_eq_some {es : List (K × V)} {k : K} {v : V} :
    (es.foldl (fun m e => insert m e.1 e.2) []).lookup k = some v ↔
      ∃ before after, es = before ++ (k, v) :: after ∧ ∀ e ∈ after, e.1 ≠ k := by
  rw [lookup_foldl_insert, List.append_nil, List.lookup_eq_some_iff]
  refine ⟨?_, ?_⟩
  · rintro ⟨l₁, l₂, hes, hl₁⟩
    refine ⟨l₂.reverse, l₁.reverse, ?_, fun e he => ?_⟩
    · rw [← List.reverse_reverse es, hes, List.reverse_append, List.reverse_cons, List.append_assoc,
        List.singleton_append]
    · have hne := hl₁ e (List.mem_reverse.mp he)
      exact (bne_iff_ne.mp hne).symm
  · rintro ⟨before, after, rfl, hafter⟩
    refine ⟨after.reverse, before.reverse, by simp, fun e he => ?_⟩
    exact bne_iff_ne.mpr (hafter e (List.mem_reverse.mp he)).symm

end Wstunnel.AssocMap
