import Mathlib.Data.List.Perm.Basic
import Mathlib.Logic.Function.Iterate
import Wstunnel.Core.Threads

/-!
# A compare-and-exchange loop

Any number of callers replace a shared value `x` by `f x`: load it, compute, try
to exchange, and start over from the actual value when that fails. A weak
exchange may also fail without a reason.

* `orbit`: the calls that returned got the values of the orbit of `f` behind the
  first one, each of them exactly one, and the shared value is the last.
* `seen_lt_of_ne`: an exchange that fails with a reason fails because another
  call has succeeded since.
-/
namespace Wstunnel.CasLoop

variable {α : Type}

/-- `updates`: how many exchanges have succeeded. -/
structure Cell (α : Type) where
  value : α
  updates : Nat
  deriving DecidableEq, Repr

/-- `source` stands for the calls to come. `seen` is the number of updates when
`cur` was read; `returned x k` did the `k`-th update. -/
inductive Caller (α : Type) where
  | source
  | loop (cur : α) (seen : Nat)
  | returned (x : α) (k : Nat)
  deriving DecidableEq, Repr

inductive Act where
  | load
  | exchange (spurious : Bool)
  deriving DecidableEq, Repr

def Caller.update? : Caller α → Option Nat
  | .returned _ k => some k
  | _ => none

/-- What a caller holds comes from the orbit. -/
def Caller.Holds (f : α → α) (x₀ : α) (updates : Nat) : Caller α → Prop
  | .source => True
  | .loop cur seen => seen ≤ updates ∧ cur = f^[seen] x₀
  | .returned x k => x = f^[k] x₀

structure Inv (f : α → α) (x₀ : α) (c : Cell α) (callers : List (Caller α)) : Prop where
  value : c.value = f^[c.updates] x₀
  holds : ∀ t ∈ callers, t.Holds f x₀ c.updates
  returned : (callers.filterMap Caller.update?).Perm (List.range' 1 c.updates)

theorem Caller.Holds.mono {f : α → α} {x₀ : α} {n m : Nat} (hle : n ≤ m) {t : Caller α} (h : t.Holds f x₀ n) :
    t.Holds f x₀ m := by
  cases t with
  | source => trivial
  | loop cur seen => exact ⟨Nat.le_trans h.1 hle, h.2⟩
  | returned x k => exact h

/-- An exchange that fails with a reason fails because another call has
succeeded since. -/
theorem seen_lt_of_ne {f : α → α} {x₀ cur : α} {seen : Nat} {c : Cell α} (hvalue : c.value = f^[c.updates] x₀)
    (h : (Caller.loop cur seen).Holds f x₀ c.updates) (hne : c.value ≠ cur) : seen < c.updates := by
  refine Nat.lt_of_le_of_ne h.1 fun heq => hne ?_
  rw [hvalue, h.2, heq]

/-- The callers around the one that takes a step. -/
theorem Inv.thread {f : α → α} {x₀ : α} {c : Cell α} {pre post : List (Caller α)} {t : Caller α}
    (h : Inv f x₀ c (pre ++ t :: post)) (hnone : t.update? = none) :
    (∀ u ∈ pre ++ post, u.Holds f x₀ c.updates) ∧
      ((pre ++ post).filterMap Caller.update?).Perm (List.range' 1 c.updates) := by
  refine ⟨fun u hu => h.holds u ?_, ?_⟩
  · rw [List.mem_append] at hu ⊢
    exact hu.imp_right (List.mem_cons_of_mem t)
  · have hperm := h.returned
    rwa [List.filterMap_append, List.filterMap_cons_none hnone, ← List.filterMap_append] at hperm

/-- The caller goes on in a way that returns nothing. -/
theorem Inv.replace {f : α → α} {x₀ : α} {c : Cell α} {pre post ts : List (Caller α)} {t : Caller α}
    (h : Inv f x₀ c (pre ++ t :: post)) (hnone : t.update? = none) (hts : ∀ u ∈ ts, u.Holds f x₀ c.updates)
    (hnil : ts.filterMap Caller.update? = []) : Inv f x₀ c (pre ++ ts ++ post) := by
  obtain ⟨hothers, hperm⟩ := h.thread hnone
  refine ⟨h.value, fun u hu => ?_, ?_⟩
  · simp only [List.mem_append] at hu
    rcases hu with (hu | hu) | hu
    · exact hothers u (List.mem_append_left _ hu)
    · exact hts u hu
    · exact hothers u (List.mem_append_right _ hu)
  · rwa [List.filterMap_append, List.filterMap_append, hnil, List.append_nil, ← List.filterMap_append]

/-- The caller succeeds. -/
theorem Inv.update {f : α → α} {x₀ : α} {c : Cell α} {pre post : List (Caller α)} {t : Caller α}
    (h : Inv f x₀ c (pre ++ t :: post)) (hnone : t.update? = none) :
    Inv f x₀ ⟨f c.value, c.updates + 1⟩ (pre ++ [.returned (f c.value) (c.updates + 1)] ++ post) := by
  obtain ⟨hothers, hperm⟩ := h.thread hnone
  have hnext : f c.value = f^[c.updates + 1] x₀ := by
    rw [Function.iterate_succ_apply', ← h.value]
  refine ⟨hnext, fun u hu => ?_, ?_⟩
  · simp only [List.mem_append, List.mem_singleton] at hu
    rcases hu with (hu | rfl) | hu
    · exact (hothers u (List.mem_append_left _ hu)).mono (Nat.le_succ _)
    · exact hnext
    · exact (hothers u (List.mem_append_right _ hu)).mono (Nat.le_succ _)
  · -- the new update is the last of the range
    rw [List.range'_1_concat, List.filterMap_append, List.filterMap_append]
    rw [List.filterMap_append] at hperm
    refine List.Perm.trans ?_ (hperm.append_right [1 + c.updates])
    rw [Nat.add_comm 1]
    simp only [List.filterMap_cons, List.filterMap_nil, Caller.update?, List.append_assoc]
    exact List.Perm.append_left _ List.perm_append_comm

/-! ## The loop -/

variable [DecidableEq α]

def step (f : α → α) (c : Cell α) : Caller α → Act → Option (Cell α × List (Caller α))
  | .source, .load => some (c, [.source, .loop c.value c.updates])
  | .loop cur _, .exchange spurious =>
    if c.value = cur ∧ spurious = false then
      some (⟨f cur, c.updates + 1⟩, [.returned (f cur) (c.updates + 1)])
    else some (c, [.loop c.value c.updates])
  | _, _ => none

/-- Nothing but the callers changes the value. -/
def quiet (_ : Cell α) (e : Empty) : Option (Cell α) := e.elim

def system (f : α → α) (x₀ : α) : LTS (Threads (Cell α) (Caller α)) (Threads.Label Empty Act) :=
  Threads.system ⟨⟨x₀, 0⟩, [.source]⟩ quiet (step f)

theorem inv_step {f : α → α} {x₀ : α} {c c' : Cell α} {pre post ts : List (Caller α)} {t : Caller α} {a : Act}
    (h : Inv f x₀ c (pre ++ t :: post)) (hs : step f c t a = some (c', ts)) : Inv f x₀ c' (pre ++ ts ++ post) := by
  have hloop : (Caller.loop c.value c.updates).Holds f x₀ c.updates := ⟨Nat.le_refl _, h.value⟩
  cases t with
  | returned x k => cases a <;> cases hs
  | source =>
    cases a with
    | exchange => cases hs
    | load =>
      cases hs
      refine h.replace rfl (fun u hu => ?_) rfl
      simp only [List.mem_cons, List.not_mem_nil, or_false] at hu
      rcases hu with rfl | rfl
      · trivial
      · exact hloop
  | loop cur seen =>
    cases a with
    | load => cases hs
    | exchange spurious =>
      rw [step] at hs
      split at hs <;> cases hs
      · rename_i hc
        rw [← hc.1]
        exact h.update rfl
      · refine h.replace rfl (fun u hu => ?_) rfl
        cases List.mem_singleton.mp hu
        exact hloop

theorem inv_inductive (f : α → α) (x₀ : α) :
    (system f x₀).Inductive fun x => Inv f x₀ x.shared x.threads := by
  refine LTS.Inductive.of_guard_true (Threads.guard_inductive ?_ ?_ ?_)
  · exact ⟨rfl, fun t ht => by cases List.mem_singleton.mp ht; trivial, List.Perm.refl _⟩
  · exact fun _ _ e => e.elim
  · exact fun _ _ _ _ _ _ _ h _ hs => inv_step h hs

/-- The orbit is handed out, one value a call. -/
theorem orbit {f : α → α} {x₀ : α} {x : Threads (Cell α) (Caller α)} (hr : (system f x₀).Reachable x) :
    Inv f x₀ x.shared x.threads :=
  (inv_inductive f x₀).reachable x hr

end Wstunnel.CasLoop
