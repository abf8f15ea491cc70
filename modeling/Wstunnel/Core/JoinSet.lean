import Mathlib.Tactic.Common

/-!
# Sets of spawned tasks

A `JoinSet` owns tasks that run on their own. A task that ends goes to the
back of a queue with what it returned, and `join_next` takes the front of the
queue; it waits while the queue is empty and tasks are running, and gives
`None` when there are neither. After `abort_all` a running task may be
cancelled instead, at a time that is not under the caller's control.

`size` bounds how much can still happen: an end and a join both make it
smaller.
-/
namespace Wstunnel

/-- How a task ended. -/
inductive TaskEnd (ρ : Type) where
  | returned (r : ρ)
  | cancelled
  deriving DecidableEq, Repr

/-- Only an aborted task is cancelled. -/
def TaskEnd.possible {ρ : Type} (aborted : Bool) : TaskEnd ρ → Bool
  | .returned _ => true
  | .cancelled => aborted

/-- `running` are the tasks not ended yet, `ended` those not joined yet. -/
structure JoinSet (ρ : Type) where
  running : List Nat
  ended : List (Nat × TaskEnd ρ)
  aborted : Bool
  deriving DecidableEq, Repr

namespace JoinSet

variable {ρ : Type}

def new : JoinSet ρ := ⟨[], [], false⟩

def spawn (s : JoinSet ρ) (task : Nat) : JoinSet ρ := { s with running := s.running ++ [task] }

def abortAll (s : JoinSet ρ) : JoinSet ρ := { s with aborted := true }

/-- A running task ends. -/
def finish (s : JoinSet ρ) (task : Nat) (e : TaskEnd ρ) : Option (JoinSet ρ) :=
  if task ∈ s.running ∧ e.possible s.aborted then
    some { s with running := s.running.erase task, ended := s.ended ++ [(task, e)] }
  else none

/-- `join_next`, when it is ready. -/
def joinNext (s : JoinSet ρ) : Option (Option (Nat × TaskEnd ρ) × JoinSet ρ) :=
  match s.ended, s.running with
  | x :: ended, _ => some (some x, { s with ended })
  | [], [] => some (none, s)
  | [], _ :: _ => none

/-- What is still in the set. -/
def tasks (s : JoinSet ρ) : Nat := s.running.length + s.ended.length

def size (s : JoinSet ρ) : Nat := 2 * s.running.length + s.ended.length

theorem finish_eq_some {s s' : JoinSet ρ} {task : Nat} {e : TaskEnd ρ}
    (h : s.finish task e = some s') :
    s'.ended = s.ended ++ [(task, e)] ∧ s'.aborted = s.aborted ∧
      s'.running.length + 1 = s.running.length ∧ e.possible s.aborted = true := by
  unfold finish at h
  split at h
  · rename_i hc
    cases h
    have hpos := List.length_pos_of_mem hc.1
    have hlen := List.length_erase_of_mem hc.1
    refine ⟨rfl, rfl, ?_, hc.2⟩
    dsimp only
    omega
  · cases h

theorem size_finish {s s' : JoinSet ρ} {task : Nat} {e : TaskEnd ρ} (h : s.finish task e = some s') :
    s'.size + 1 = s.size := by
  obtain ⟨he, -, hr, -⟩ := finish_eq_some h
  simp only [size, he, List.length_append, List.length_singleton]
  omega

theorem tasks_finish {s s' : JoinSet ρ} {task : Nat} {e : TaskEnd ρ} (h : s.finish task e = some s') :
    s'.tasks = s.tasks := by
  obtain ⟨he, -, hr, -⟩ := finish_eq_some h
  simp only [tasks, he, List.length_append, List.length_singleton]
  omega

/-- `join_next` takes the front of the queue, or the set is empty. -/
theorem joinNext_eq_some {s s' : JoinSet ρ} {r : Option (Nat × TaskEnd ρ)}
    (h : s.joinNext = some (r, s')) :
    (∃ x ended, r = some x ∧ s.ended = x :: ended ∧ s' = { s with ended }) ∨
      (r = none ∧ s.ended = [] ∧ s.running = [] ∧ s' = s) := by
  obtain ⟨running, ended, aborted⟩ := s
  unfold joinNext at h
  cases ended with
  | cons x ended =>
    cases h
    exact .inl ⟨x, ended, rfl, rfl, rfl⟩
  | nil =>
    cases running with
    | nil =>
      cases h
      exact .inr ⟨rfl, rfl, rfl, rfl⟩
    | cons t running => cases h

/-- Something can always happen: a join, or the end of a task. -/
theorem joinNext_or_finish (s : JoinSet ρ) (r : ρ) :
    (∃ x, s.joinNext = some x) ∨ ∃ task s', s.finish task (.returned r) = some s' := by
  obtain ⟨running, ended, aborted⟩ := s
  cases ended with
  | cons x ended => exact .inl ⟨_, rfl⟩
  | nil =>
    cases running with
    | nil => exact .inl ⟨_, rfl⟩
    | cons t running =>
      refine .inr ⟨t, ⟨(t :: running).erase t, [(t, .returned r)], aborted⟩, if_pos ⟨?_, rfl⟩⟩
      exact List.mem_cons_self

/-! ## Which tasks are in a set -/

def ids (s : JoinSet ρ) : List Nat := s.running ++ s.ended.map Prod.fst

theorem ids_spawn (s : JoinSet ρ) (task : Nat) : (s.spawn task).ids.Perm (s.ids ++ [task]) := by
  simp only [ids, spawn, List.append_assoc]
  exact List.perm_append_comm.append_left s.running

theorem ids_finish {s s' : JoinSet ρ} {task : Nat} {e : TaskEnd ρ} (h : s.finish task e = some s') :
    s'.ids.Perm s.ids := by
  unfold finish at h
  split at h
  · rename_i hc
    cases h
    simp only [ids, List.map_append, List.map_cons, List.map_nil]
    have hrunning : (s.running.erase task ++ [task]).Perm s.running :=
      (List.perm_append_singleton _ _).trans (List.perm_cons_erase hc.1).symm
    have hswap : (s.running.erase task ++ (s.ended.map Prod.fst ++ [task])).Perm
        (s.running.erase task ++ [task] ++ s.ended.map Prod.fst) := by
      rw [List.append_assoc]
      exact List.perm_append_comm.append_left _
    exact hswap.trans (hrunning.append_right _)
  · cases h

end JoinSet

end Wstunnel
