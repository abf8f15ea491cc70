import Wstunnel.Core.LTS

/-!
# Threads over shared memory

Sequential threads that take atomic steps on one shared state. A step of a
thread gives back the threads it goes on as: none when it ends, itself in its
next state, itself and those it starts. The environment changes the shared
state by itself.

* `guard_inductive`: what has to be shown of a property of the shared state and
  of all threads for it to hold throughout; the list of threads is taken apart
  at the one that takes the step.
-/
namespace Wstunnel

structure Threads (S T : Type) where
  shared : S
  threads : List T
  deriving DecidableEq, Repr

namespace Threads

variable {S T E L : Type}

/-- A change from outside, or a step of thread `i`. -/
inductive Label (E L : Type) where
  | env (e : E)
  | thread (i : Nat) (l : L)
  deriving DecidableEq, Repr

def step (env : S → E → Option S) (f : S → T → L → Option (S × List T)) (x : Threads S T) :
    Label E L → Option (Threads S T)
  | .env e => (env x.shared e).map fun s => ⟨s, x.threads⟩
  | .thread i l => (x.threads[i]?).bind fun t => (f x.shared t l).map fun y =>
      ⟨y.1, x.threads.take i ++ y.2 ++ x.threads.drop (i + 1)⟩

/-- The system that starts from `x₀`. -/
def system (x₀ : Threads S T) (env : S → E → Option S) (f : S → T → L → Option (S × List T)) :
    LTS (Threads S T) (Label E L) := LTS.ofFn (· = x₀) (step env f)

variable {env : S → E → Option S} {f : S → T → L → Option (S × List T)}

/-- What one step does: the shared state changes alone, or one thread takes
its step and the others stay. -/
inductive Move (env : S → E → Option S) (f : S → T → L → Option (S × List T)) :
    Threads S T → Label E L → Threads S T → Prop where
  | env {s s' : S} {ts : List T} {e : E} : env s e = some s' → Move env f ⟨s, ts⟩ (.env e) ⟨s', ts⟩
  | thread {s s' : S} {pre ts post : List T} {t : T} {l : L} : f s t l = some (s', ts) →
      Move env f ⟨s, pre ++ t :: post⟩ (.thread pre.length l) ⟨s', pre ++ ts ++ post⟩

theorem move_of_step {x y : Threads S T} {l : Label E L} (h : step env f x l = some y) :
    Move env f x l y := by
  obtain ⟨s, threads⟩ := x
  cases l with
  | env e =>
    obtain ⟨s', hs, rfl⟩ := Option.map_eq_some_iff.mp h
    exact .env hs
  | thread i l =>
    obtain ⟨t, ht, h⟩ := Option.bind_eq_some_iff.mp h
    obtain ⟨⟨s', ts⟩, hs, rfl⟩ := Option.map_eq_some_iff.mp h
    obtain ⟨hi, rfl⟩ := List.getElem?_eq_some_iff.mp ht
    have hsplit : threads = threads.take i ++ threads[i] :: threads.drop (i + 1) := by
      rw [List.getElem_cons_drop, List.take_append_drop]
    have hlen : (threads.take i).length = i := by
      rw [List.length_take]
      exact Nat.min_eq_left (Nat.le_of_lt hi)
    have hmove : Move env f ⟨s, threads.take i ++ threads[i] :: threads.drop (i + 1)⟩
        (.thread (threads.take i).length l) ⟨s', threads.take i ++ ts ++ threads.drop (i + 1)⟩ :=
      .thread hs
    rwa [← hsplit, hlen] at hmove

theorem guard_inductive {x₀ : Threads S T} {G : Threads S T → Label E L → Prop}
    {I : S → List T → Prop} (hinit : I x₀.shared x₀.threads)
    (henv : ∀ s ts e s', I s ts → G ⟨s, ts⟩ (.env e) → env s e = some s' → I s' ts)
    (hthread : ∀ s pre t post l s' ts, I s (pre ++ t :: post) →
      G ⟨s, pre ++ t :: post⟩ (.thread pre.length l) → f s t l = some (s', ts) →
      I s' (pre ++ ts ++ post)) :
    ((system x₀ env f).guard G).Inductive fun x => I x.shared x.threads where
  init x hx := by subst hx; exact hinit
  step x l y h hs := by
    cases move_of_step hs.1 with
    | env he => exact henv _ _ _ _ h hs.2 he
    | thread ht => exact hthread _ _ _ _ _ _ _ h hs.2 ht

end Threads

end Wstunnel
