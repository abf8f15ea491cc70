import Mathlib.Data.List.Basic

/-!
# Results in sequence

Rust's `?` and `map_err`, bind and `Except.mapError`: when such a step returns and
when it fails. And `collect::<Result<Vec<_>, _>>`, `List.mapM` in `Except`: all the
values, or the first error.

* `bind_eq_ok`, `bind_eq_error`: a function of several steps is taken apart one step
  at a time, without unfolding it.
* `mapM_eq_ok`, `exists_of_mapM_error`: a list is collected when every element is, and
  an error is that of an element.
-/
namespace Wstunnel.Collect

variable {ε α β : Type} {f : α → Except ε β}

/-- Two steps with `?` return when both do. -/
theorem bind_eq_ok {x : Except ε α} {b : β} : x >>= f = .ok b ↔ ∃ a, x = .ok a ∧ f a = .ok b := by
  cases x <;> simp [bind, Except.bind]

theorem bind_eq_error {x : Except ε α} {e : ε} :
    x >>= f = .error e ↔ x = .error e ∨ ∃ a, x = .ok a ∧ f a = .error e := by
  cases x <;> simp [bind, Except.bind]

theorem mapError_eq_ok {ε' : Type} {g : ε → ε'} {x : Except ε α} {a : α} : x.mapError g = .ok a ↔ x = .ok a := by
  cases x <;> simp [Except.mapError]

theorem mapError_eq_error {ε' : Type} {g : ε → ε'} {x : Except ε α} {e' : ε'} :
    x.mapError g = .error e' ↔ ∃ e, x = .error e ∧ g e = e' := by
  cases x <;> simp [Except.mapError]

theorem mapM_eq_ok {l : List α} {l' : List β} : l.mapM f = .ok l' ↔ l.map f = l'.map .ok := by
  induction l generalizing l' with
  | nil => cases l' <;> simp [pure, Except.pure]
  | cons a l ih =>
    rw [List.mapM_cons, List.map_cons]
    cases f a with
    | error e => cases l' <;> simp [bind, Except.bind]
    | ok b =>
      cases hl : l.mapM f with
      | error e => cases l' <;> simp [bind, Except.bind, ← ih, hl]
      | ok bs => cases l' <;> simp [bind, Except.bind, pure, Except.pure, ← ih, hl]

theorem mem_of_mapM {l : List α} {l' : List β} (h : l.mapM f = .ok l') (b : β) :
    b ∈ l' ↔ ∃ a ∈ l, f a = .ok b := by
  have hmem : Except.ok b ∈ l'.map (Except.ok : β → Except ε β) ↔ b ∈ l' := by simp
  rw [← hmem, ← mapM_eq_ok.mp h, List.mem_map]

/-- The error is that of the first element that has one. -/
theorem exists_of_mapM_error {l : List α} {e : ε} (h : l.mapM f = .error e) :
    ∃ before a after, l = before ++ a :: after ∧ f a = .error e ∧ ∀ a' ∈ before, ∃ b, f a' = .ok b := by
  induction l with
  | nil => cases h
  | cons a l ih =>
    rw [List.mapM_cons] at h
    cases ha : f a with
    | error e' =>
      rw [ha] at h
      cases h
      exact ⟨[], a, l, rfl, ha, by simp⟩
    | ok b =>
      rw [ha] at h
      cases hl : l.mapM f with
      | ok bs => rw [hl] at h; cases h
      | error e' =>
        rw [hl] at h
        cases h
        obtain ⟨before, a', after, rfl, ha', hbefore⟩ := ih hl
        refine ⟨a :: before, a', after, rfl, ha', fun x hx => ?_⟩
        rcases List.mem_cons.mp hx with rfl | hx
        · exact ⟨b, ha⟩
        · exact hbefore x hx

end Wstunnel.Collect
