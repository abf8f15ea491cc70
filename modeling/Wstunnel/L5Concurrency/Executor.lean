import Wstunnel.Core.LTS

/-!
# `JoinSetTokioExecutor`

The executor for callers that embed the client or the server: the tasks are in
a `JoinSet` behind a lock, which the clones of the executor own together and the
references of it (`ref_clone`) only point to weakly.

Dropping a clone is two steps: `abort_all`, then giving up its share of the set.
`spawn` of a reference is three: `upgrade` takes a share, the task is spawned,
the share is given up. All of them may interleave. Who gives up the last share
drops the `JoinSet`, which aborts what is left in it.

**Third-party code.** `abort_all` and the drop of a `JoinSet` abort every task that is
in it then; an aborted task does not run any further, and when it is gone is left open.
`upgrade` of a `Weak` succeeds exactly while a share is left.

**Results.**
* `tasks_end_with_handles`: no task outlives the last handle, also not one that a
  reference spawned between `abort_all` and the end of the drop; from then on
  the references spawn nothing. The clones are not equal owners though: the drop
  of any of them aborts every task that was there, whatever clones are left.
-/
namespace Wstunnel.L5.Executor

/-- An aborted task does not run any further; when it is gone is left open. -/
inductive Status where
  | running | aborted | ended
  deriving DecidableEq, Repr

/-- `drops`: how many drops had begun when the task was spawned. -/
structure Task where
  status : Status
  drops : Nat
  deriving DecidableEq, Repr

/-- `clones` are those not being dropped; `dropping` have aborted the tasks and
still have their share; `upgraded` references are about to spawn; `releasing`
references have spawned. -/
structure State where
  clones : Nat
  dropping : Nat
  upgraded : Nat
  releasing : Nat
  tasks : List Task
  drops : Nat
  deriving DecidableEq, Repr

/-- The strong count of the `Arc`. -/
def State.strong (s : State) : Nat := s.clones + s.dropping + s.upgraded + s.releasing

def Task.abort (t : Task) : Task := if t.status = .running then { t with status := .aborted } else t

/-- `JoinSet::abort_all` -/
def State.abortAll (s : State) : State := { s with tasks := s.tasks.map Task.abort }

/-- `JoinSet::spawn` -/
def State.push (s : State) : State := { s with tasks := s.tasks ++ [⟨.running, s.drops⟩] }

/-- After a share was given up: without shares the set is dropped. -/
def State.settle (s : State) : State := if s.strong = 0 then s.abortAll else s

inductive Ev where
  | clone
  /-- `spawn` of a clone, or the task that `ref_clone` keeps for its handle -/
  | spawn
  /-- `upgrade` of a reference; it fails when no share is left -/
  | upgrade
  | refSpawn
  | release
  | dropBegin
  | dropEnd
  /-- the `i`-th task returns, or is gone after it was aborted -/
  | finish (i : Nat)
  deriving DecidableEq, Repr

/-- mirrors wstunnel/src/executor.rs:59-137 -/
def step (s : State) : Ev → Option State
  | .clone => if 0 < s.clones then some { s with clones := s.clones + 1 } else none
  | .spawn => if 0 < s.clones then some s.push else none
  | .upgrade => some (if 0 < s.strong then { s with upgraded := s.upgraded + 1 } else s)
  | .refSpawn =>
    if 0 < s.upgraded then some { s.push with upgraded := s.upgraded - 1, releasing := s.releasing + 1 } else none
  | .release => if 0 < s.releasing then some { s with releasing := s.releasing - 1 }.settle else none
  | .dropBegin =>
    if 0 < s.clones then
      some { s.abortAll with clones := s.clones - 1, dropping := s.dropping + 1, drops := s.drops + 1 }
    else none
  | .dropEnd => if 0 < s.dropping then some { s with dropping := s.dropping - 1 }.settle else none
  | .finish i =>
    if i < s.tasks.length then some { s with tasks := s.tasks.modify i ({ · with status := .ended }) } else none

def start : State := ⟨1, 0, 0, 0, [], 0⟩

def executor : LTS State Ev := LTS.ofFn (· = start) step

/-! ## What runs -/

/-- A task that runs was spawned after the last drop began, and someone has a
share of the set. -/
def Inv (s : State) : Prop := ∀ t ∈ s.tasks, t.status = .running → t.drops = s.drops ∧ 0 < s.strong

theorem status_abort (t : Task) : t.abort.status ≠ .running := by
  unfold Task.abort
  split
  · exact Status.noConfusion
  · assumption

theorem status_of_mem_abortAll {s : State} {t : Task} (h : t ∈ s.abortAll.tasks) : t.status ≠ .running := by
  obtain ⟨t', -, rfl⟩ := List.mem_map.mp h
  exact status_abort t'

theorem inv_push {s : State} (h : Inv s) (hpos : 0 < s.strong) : Inv s.push := by
  intro t ht hrun
  rcases List.mem_append.mp ht with ht | ht
  · exact h t ht hrun
  · cases List.mem_singleton.mp ht
    exact ⟨rfl, hpos⟩

theorem inv_settle {s : State} (h : ∀ t ∈ s.tasks, t.status = .running → t.drops = s.drops) : Inv s.settle := by
  intro t ht hrun
  unfold State.settle at ht ⊢
  split at ht
  · exact absurd hrun (status_of_mem_abortAll ht)
  · rename_i hpos
    rw [if_neg hpos]
    exact ⟨h t ht hrun, Nat.pos_of_ne_zero hpos⟩

theorem inv_inductive : executor.Inductive Inv where
  init := by
    rintro s rfl t ht
    cases ht
  step := by
    intro s ev s' h hs
    simp only [executor, LTS.ofFn] at hs
    cases ev with
    | clone =>
      obtain ⟨hpos, hs⟩ := Option.ite_none_right_eq_some.mp hs
      cases hs
      exact fun t ht hrun => ⟨(h t ht hrun).1, by simp only [State.strong]; omega⟩
    | spawn =>
      obtain ⟨hpos, hs⟩ := Option.ite_none_right_eq_some.mp hs
      cases hs
      exact inv_push h (by simp only [State.strong]; omega)
    | upgrade =>
      cases hs
      split
      · exact fun t ht hrun => ⟨(h t ht hrun).1, by simp only [State.strong]; omega⟩
      · exact h
    | refSpawn =>
      obtain ⟨hpos, hs⟩ := Option.ite_none_right_eq_some.mp hs
      cases hs
      have hinv := inv_push h (by simp only [State.strong]; omega)
      exact fun t ht hrun => ⟨(hinv t ht hrun).1, by simp only [State.strong]; omega⟩
    | release =>
      obtain ⟨hpos, hs⟩ := Option.ite_none_right_eq_some.mp hs
      cases hs
      exact inv_settle fun t ht hrun => (h t ht hrun).1
    | dropBegin =>
      obtain ⟨hpos, hs⟩ := Option.ite_none_right_eq_some.mp hs
      cases hs
      exact fun t ht hrun => absurd hrun (status_of_mem_abortAll ht)
    | dropEnd =>
      obtain ⟨hpos, hs⟩ := Option.ite_none_right_eq_some.mp hs
      cases hs
      exact inv_settle fun t ht hrun => (h t ht hrun).1
    | finish i =>
      obtain ⟨hlt, hs⟩ := Option.ite_none_right_eq_some.mp hs
      cases hs
      intro t ht
      obtain ⟨j, hj⟩ := List.mem_iff_getElem?.mp ht
      have hall : ∀ (j : Nat) (a : Task), s.tasks[j]? = some a →
          a.status = .running → a.drops = s.drops ∧ 0 < s.strong :=
        fun _ a ha => h a (List.mem_of_getElem? ha)
      exact LTS.forall_modify hall (fun _ _ _ hrun => by cases hrun) (fun _ _ _ hok => hok) j t hj

/-! ## After the last handle -/

/-- Without shares no step makes one, and none spawns a task. -/
theorem step_of_strong_zero {s s' : State} {ev : Ev} (h : s.strong = 0) (hs : step s ev = some s') :
    s'.strong = 0 ∧ s'.tasks.length = s.tasks.length := by
  simp only [State.strong] at h
  cases ev with
  | clone => obtain ⟨hpos, -⟩ := Option.ite_none_right_eq_some.mp hs; omega
  | spawn => obtain ⟨hpos, -⟩ := Option.ite_none_right_eq_some.mp hs; omega
  | refSpawn => obtain ⟨hpos, -⟩ := Option.ite_none_right_eq_some.mp hs; omega
  | release => obtain ⟨hpos, -⟩ := Option.ite_none_right_eq_some.mp hs; omega
  | dropBegin => obtain ⟨hpos, -⟩ := Option.ite_none_right_eq_some.mp hs; omega
  | dropEnd => obtain ⟨hpos, -⟩ := Option.ite_none_right_eq_some.mp hs; omega
  | upgrade =>
    cases hs
    rw [if_neg (by simp only [State.strong]; omega)]
    exact ⟨h, rfl⟩
  | finish i =>
    obtain ⟨-, hs⟩ := Option.ite_none_right_eq_some.mp hs
    cases hs
    exact ⟨h, List.length_modify _ _ _⟩

/-- **Tasks end with the handles.** A task that runs was spawned after the last
drop of a clone began, and while the set is owned; once nobody owns it, nothing
runs, and no continuation spawns anything or owns it again. -/
theorem tasks_end_with_handles (s : State) (hr : executor.Reachable s) :
    (∀ t ∈ s.tasks, t.status = .running → t.drops = s.drops) ∧
      (s.strong = 0 → ∀ evs s', executor.Run s evs s' →
        s'.strong = 0 ∧ s'.tasks.length = s.tasks.length ∧ ∀ t ∈ s'.tasks, t.status ≠ .running) := by
  refine ⟨fun t ht hrun => (inv_inductive.reachable s hr t ht hrun).1, fun hzero evs s' hrun => ?_⟩
  obtain ⟨hstrong, hlen⟩ := hrun.keeps (P := fun s' => s'.strong = 0 ∧ s'.tasks.length = s.tasks.length)
    (fun a _ b ha hs => by
      obtain ⟨hb, hl⟩ := step_of_strong_zero ha.1 hs
      exact ⟨hb, hl.trans ha.2⟩) ⟨hzero, rfl⟩
  have hinv := inv_inductive.run (inv_inductive.reachable s hr) hrun
  refine ⟨hstrong, hlen, fun t ht hr => ?_⟩
  have hpos := (hinv t ht hr).2
  omega

/-- A reference spawns while the last clone is being dropped. -/
def lateSpawn : List Ev := [.spawn, .upgrade, .dropBegin, .refSpawn, .dropEnd, .release]

theorem tasks_end_with_handles_lateSpawn : ∃ s, executor.Reachable s ∧ s.strong = 0 ∧
    s.tasks = [⟨.aborted, 0⟩, ⟨.aborted, 1⟩] ∧
    ∀ evs s', executor.Run s evs s' → s'.tasks.length = 2 ∧ ∀ t ∈ s'.tasks, t.status ≠ .running := by
  have hr : executor.Reachable ⟨0, 0, 0, 0, [⟨.aborted, 0⟩, ⟨.aborted, 1⟩], 1⟩ :=
    ⟨start, lateSpawn, rfl, LTS.run_ofFn.mpr (by decide)⟩
  exact ⟨_, hr, rfl, rfl, fun evs s' hrun => ((tasks_end_with_handles _ hr).2 rfl evs s' hrun).2⟩

end Wstunnel.L5.Executor
