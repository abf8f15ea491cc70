import Mathlib.Data.List.Perm.Basic
import Mathlib.Tactic.Common

/-!
# Labelled transition systems

A concurrent program is given as a set of initial states and a labelled step
relation; an interleaving is a list of labels. This file holds what such
models share.

* `LTS.ofFn`: a system whose step is a partial function of state and label,
  so that a concrete interleaving can be evaluated (`LTS.exec`, `run_ofFn`).
* `LTS.Inductive`: an invariant given by its two obligations, and what it
  gives over runs and reachable states.
* `LTS.track`: a record of what happened, kept beside the state.
* `LTS.forall_modify`, `LTS.countP_modify`: one process of many takes a step.
* `LTS.guard`: the runs whose every step meets a condition `G` on the state
  before the step and the label. An invariant of `M.guard G` is a fact
  about exactly those runs.
-/
namespace Wstunnel

/-- A labelled transition system. -/
structure LTS (S L : Type) where
  init : S → Prop
  step : S → L → S → Prop

namespace LTS

variable {S L : Type} {M : LTS S L}

/-- `Run s ls s'`: taking the labels `ls` in order leads from `s` to `s'`. -/
inductive Run (M : LTS S L) : S → List L → S → Prop where
  | nil (s : S) : Run M s [] s
  | cons {s s' s'' : S} {l : L} {ls : List L} :
      M.step s l s' → Run M s' ls s'' → Run M s (l :: ls) s''

/-- Reachable by some run from some initial state. -/
def Reachable (M : LTS S L) (s : S) : Prop := ∃ s₀ ls, M.init s₀ ∧ M.Run s₀ ls s

theorem Run.single {a b : S} {l : L} (h : M.step a l b) : M.Run a [l] b := .cons h (.nil b)

theorem Run.trans {a b c : S} {ls ls' : List L} (h : M.Run a ls b) (h' : M.Run b ls' c) :
    M.Run a (ls ++ ls') c := by
  induction h with
  | nil => exact h'
  | cons hs _ ih => exact .cons hs (ih h')

/-- What every step keeps, a run keeps. -/
theorem Run.keeps {P : S → Prop} {a b : S} {ls : List L} (hr : M.Run a ls b)
    (hP : ∀ s l s', P s → M.step s l s' → P s') (ha : P a) : P b := by
  induction hr with
  | nil => exact ha
  | cons hs _ ih => exact ih (hP _ _ _ ha hs)

/-- When every step makes `μ` smaller, runs are bounded. -/
theorem Run.length_le {μ : S → Nat} {a b : S} {ls : List L} (hr : M.Run a ls b)
    (hμ : ∀ s l s', M.step s l s' → μ s' < μ s) : ls.length ≤ μ a := by
  induction hr with
  | nil => exact Nat.zero_le _
  | cons hs _ ih =>
    have hlt := hμ _ _ _ hs
    rw [List.length_cons]
    omega

theorem Reachable.step {a b : S} {l : L} (h : M.Reachable a) (hs : M.step a l b) : M.Reachable b := by
  obtain ⟨s₀, ls, h0, hr⟩ := h
  exact ⟨s₀, ls ++ [l], h0, hr.trans (.single hs)⟩

/-! ## Invariants -/

/-- `I` holds initially and every step keeps it. -/
structure Inductive (M : LTS S L) (I : S → Prop) : Prop where
  init : ∀ s, M.init s → I s
  step : ∀ s l s', I s → M.step s l s' → I s'

theorem Inductive.run {I : S → Prop} (h : M.Inductive I) {s s' : S} {ls : List L}
    (hi : I s) (hr : M.Run s ls s') : I s' := by
  induction hr with
  | nil => exact hi
  | cons hs _ ih => exact ih (h.step _ _ _ hi hs)

theorem Inductive.reachable {I : S → Prop} (h : M.Inductive I) (s : S) (hr : M.Reachable s) :
    I s := by
  obtain ⟨s₀, ls, h0, hr⟩ := hr
  exact h.run (h.init s₀ h0) hr

/-- When every step between states with `I` makes `μ` smaller, runs are bounded. -/
theorem Inductive.length_le {I : S → Prop} (h : M.Inductive I) {μ : S → Nat}
    (hμ : ∀ s l s', I s → M.step s l s' → μ s' < μ s) {s s' : S} {ls : List L} (hi : I s)
    (hr : M.Run s ls s') : ls.length ≤ μ s := by
  induction hr with
  | nil => exact Nat.zero_le _
  | cons hs _ ih =>
    have hlt := hμ _ _ _ hi hs
    have hle := ih (h.step _ _ _ hi hs)
    rw [List.length_cons]
    omega

/-- When from every state with `I` and without `Q` some step makes `μ`
smaller, some run ends in `Q`. -/
theorem Inductive.exists_run {I Q : S → Prop} (h : M.Inductive I) {μ : S → Nat}
    (hμ : ∀ s, I s → ¬ Q s → ∃ l s', M.step s l s' ∧ μ s' < μ s) {s : S} (hi : I s) :
    ∃ ls s', M.Run s ls s' ∧ Q s' := by
  induction hn : μ s using Nat.strongRecOn generalizing s with
  | ind n ih =>
    by_cases hq : Q s
    · exact ⟨[], s, .nil s, hq⟩
    · obtain ⟨l, s', hs, hlt⟩ := hμ s hi hq
      obtain ⟨ls, t, hr, ht⟩ := ih (μ s') (hn ▸ hlt) (h.step s l s' hi hs) rfl
      exact ⟨l :: ls, t, .cons hs hr, ht⟩

/-! ## Runs whose steps all meet a condition -/

/-- The system in which a step from `s` with label `l` is taken only when
`G s l` holds. -/
def guard (M : LTS S L) (G : S → L → Prop) : LTS S L where
  init := M.init
  step s l s' := M.step s l s' ∧ G s l

theorem Inductive.of_guard_true {I : S → Prop} (h : (M.guard fun _ _ => True).Inductive I) :
    M.Inductive I where
  init := h.init
  step s l s' hi hs := h.step s l s' hi ⟨hs, trivial⟩

/-! ## Systems given by a partial function -/

/-- The system whose step is the partial function `f`. -/
def ofFn (init : S → Prop) (f : S → L → Option S) : LTS S L where
  init := init
  step s l s' := f s l = some s'

/-- Evaluation of a label list. -/
def exec (f : S → L → Option S) : S → List L → Option S
  | s, [] => some s
  | s, l :: ls => (f s l).bind fun s' => exec f s' ls

theorem run_ofFn {init : S → Prop} {f : S → L → Option S} {s s' : S} {ls : List L} :
    (ofFn init f).Run s ls s' ↔ exec f s ls = some s' := by
  induction ls generalizing s with
  | nil =>
    refine ⟨?_, ?_⟩
    · intro h; cases h; rfl
    · intro h; simp only [exec, Option.some.injEq] at h; subst h; exact .nil _
  | cons l ls ih =>
    simp only [exec, Option.bind_eq_some_iff]
    refine ⟨?_, ?_⟩
    · intro h
      cases h with
      | cons hs hr => exact ⟨_, hs, ih.mp hr⟩
    · intro ⟨t, hs, hr⟩
      exact .cons hs (ih.mpr hr)

/-- A guarded run of a partial function, by evaluation. -/
theorem run_guard_ofFn {init : S → Prop} {f : S → L → Option S} {G : S → L → Prop}
    [∀ s l, Decidable (G s l)] {s s' : S} {ls : List L}
    (h : exec (fun s l => if G s l then f s l else none) s ls = some s') :
    ((ofFn init f).guard G).Run s ls s' := by
  induction ls generalizing s with
  | nil => cases h; exact .nil _
  | cons l ls ih =>
    simp only [exec, Option.bind_eq_some_iff, Option.ite_none_right_eq_some] at h
    obtain ⟨t, ⟨hg, hs⟩, hr⟩ := h
    exact .cons ⟨hs, hg⟩ (ih hr)

theorem exec_append {f : S → L → Option S} {s : S} {ls ls' : List L} :
    exec f s (ls ++ ls') = (exec f s ls).bind fun s' => exec f s' ls' := by
  induction ls generalizing s with
  | nil => rfl
  | cons l ls ih =>
    cases h : f s l with
    | none => simp [exec, h]
    | some t => simp [exec, h, ih]

/-- `f` with a history beside the state, which `upd` extends at every step. -/
def track {H : Type} (f : S → L → Option S) (upd : S → L → H → H) (x : S × H) (l : L) :
    Option (S × H) :=
  (f x.1 l).map fun s => (s, upd x.1 l x.2)

theorem track_eq_some {H : Type} {f : S → L → Option S} {upd : S → L → H → H} {x y : S × H} {l : L} :
    track f upd x l = some y ↔ f x.1 l = some y.1 ∧ y.2 = upd x.1 l x.2 := by
  obtain ⟨s, h⟩ := y
  simp only [track, Option.map_eq_some_iff, Prod.mk.injEq]
  refine ⟨?_, ?_⟩
  · intro h
    obtain ⟨s', hs, rfl, hh⟩ := h
    exact ⟨hs, hh.symm⟩
  · intro ⟨hs, hh⟩
    exact ⟨s, hs, rfl, hh.symm⟩

/-! ## Systems with a list of processes -/

/-- A property of every process, when process `i` takes a step by itself. -/
theorem forall_modify {α : Type} {l : List α} {i : Nat} {f : α → α} {Q Q' : Nat → α → Prop}
    (h : ∀ j a, l[j]? = some a → Q j a) (hi : ∀ a, l[i]? = some a → Q i a → Q' i (f a))
    (ho : ∀ j a, j ≠ i → Q j a → Q' j a) : ∀ j a, (l.modify i f)[j]? = some a → Q' j a := by
  intro j a ha
  rw [List.getElem?_modify, Option.map_eq_map, Option.map_eq_some_iff] at ha
  obtain ⟨b, hb, rfl⟩ := ha
  by_cases hij : i = j
  · subst hij
    rw [if_pos rfl]
    exact hi b hb (h i b hb)
  · rw [if_neg hij]
    exact ho j b (fun e => hij e.symm) (h j b hb)

/-- A quantity summed over all processes. -/
def total {α : Type} (f : α → Nat) : List α → Nat
  | [] => 0
  | a :: l => f a + total f l

theorem total_concat {α : Type} (f : α → Nat) (l : List α) (a : α) :
    total f (l ++ [a]) = total f l + f a := by
  induction l with
  | nil => simp [total]
  | cons b l ih => simp only [List.cons_append, total, ih, Nat.add_assoc]

theorem total_append {α : Type} (f : α → Nat) (l l' : List α) : total f (l ++ l') = total f l + total f l' := by
  induction l with
  | nil => simp [total]
  | cons b l ih => simp only [List.cons_append, total, ih, Nat.add_assoc]

theorem total_modify {α : Type} (f : α → Nat) {l : List α} {i : Nat} {a : α} (g : α → α)
    (h : l[i]? = some a) : total f (l.modify i g) + f a = total f l + f (g a) := by
  induction l generalizing i with
  | nil => simp at h
  | cons b l ih =>
    cases i with
    | zero =>
      simp only [List.getElem?_cons_zero, Option.some.injEq] at h
      subst h
      simp only [List.modify_zero_cons, total]
      omega
    | succ i =>
      simp only [List.getElem?_cons_succ] at h
      simp only [List.modify_succ_cons, total]
      have := ih h
      omega

theorem countP_eq_total {α : Type} (p : α → Bool) (l : List α) :
    l.countP p = total (fun a => if p a then 1 else 0) l := by
  induction l with
  | nil => rfl
  | cons a l ih => rw [List.countP_cons, ih, total, Nat.add_comm]

/-- How many processes have a property, when process `i` takes a step by
itself. -/
theorem countP_modify {α : Type} (p : α → Bool) {l : List α} {i : Nat} {a : α} (f : α → α)
    (h : l[i]? = some a) : (l.modify i f).countP p + (if p a then 1 else 0) =
      l.countP p + (if p (f a) then 1 else 0) := by
  rw [countP_eq_total, countP_eq_total]
  exact total_modify (fun a => if p a then 1 else 0) f h

/-- How many processes have a property, when process `i` is gone. -/
theorem countP_eraseIdx {α : Type} (p : α → Bool) {l : List α} {i : Nat} {a : α} (h : l[i]? = some a) :
    (l.eraseIdx i).countP p + (if p a then 1 else 0) = l.countP p := by
  obtain ⟨hi, rfl⟩ := List.getElem?_eq_some_iff.mp h
  rw [← (List.getElem_cons_eraseIdx_perm hi).countP_eq p, List.countP_cons]

theorem total_le_total {α : Type} {f g : α → Nat} {l : List α} (h : ∀ a ∈ l, f a ≤ g a) :
    total f l ≤ total g l := by
  induction l with
  | nil => exact Nat.le_refl _
  | cons a l ih =>
    have ha := h a (by simp)
    have hl := ih fun b hb => h b (by simp [hb])
    simp only [total]
    omega

theorem total_eq_zero {α : Type} {f : α → Nat} {l : List α} (h : ∀ a ∈ l, f a = 0) : total f l = 0 := by
  induction l with
  | nil => rfl
  | cons a l ih => rw [total, h a (by simp), ih fun b hb => h b (by simp [hb])]

/-- What the processes hold together, when process `i` loses some of its own. -/
theorem flatMap_modify_sublist {α β : Type} {g : α → List β} {f : α → α} {l : List α} {i : Nat}
    (h : ∀ a, l[i]? = some a → (g (f a)).Sublist (g a)) :
    ((l.modify i f).flatMap g).Sublist (l.flatMap g) := by
  induction l generalizing i with
  | nil => simp
  | cons b l ih =>
    cases i with
    | zero =>
      simp only [List.modify_zero_cons, List.flatMap_cons]
      exact (h b rfl).append_right _
    | succ i =>
      simp only [List.modify_succ_cons, List.flatMap_cons]
      exact (ih fun a ha => h a ha).append_left _

/-- What the processes hold together, when process `i` gets `b` and those
after it hold nothing. -/
theorem flatMap_modify_append {α β : Type} {g : α → List β} {f : α → α} {l : List α} {i : Nat} {a : α}
    {b : List β} (hi : l[i]? = some a) (hf : g (f a) = g a ++ b)
    (hlast : ∀ j c, i < j → l[j]? = some c → g c = []) :
    (l.modify i f).flatMap g = l.flatMap g ++ b := by
  induction l generalizing i with
  | nil => simp at hi
  | cons c l ih =>
    cases i with
    | zero =>
      simp only [List.getElem?_cons_zero, Option.some.injEq] at hi
      subst hi
      have hnil : l.flatMap g = [] := by
        rw [List.flatMap_eq_nil_iff]
        intro c hc
        obtain ⟨j, hj⟩ := List.mem_iff_getElem?.mp hc
        exact hlast (j + 1) c (by omega) hj
      simp only [List.modify_zero_cons, List.flatMap_cons, hnil, hf, List.append_nil]
    | succ i =>
      simp only [List.modify_succ_cons, List.flatMap_cons, List.append_assoc]
      rw [ih hi fun j c hij hj => hlast (j + 1) c (by omega) hj]

end LTS

end Wstunnel
