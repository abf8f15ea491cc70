import Wstunnel.L5Concurrency.Ownership

/-!
# Dead entries of the reverse-tunnel registry

A request spawns the task of a new listener before it counts itself and
before it inserts the entry. The task's first tick is immediate, so it can
find no client, leave its loop and remove its key while the entry is not
there yet; the insert that follows leaves an entry nobody will remove.

**Third-party code.** The first tick of a `tokio` interval is due at once, and the
runtime may run a new task before the one that spawned it goes on. The condition of
the first result is one on the runtime's order; the code does nothing for it.

**Results.**
* `noDeadEntry_of_ordered`: in every run in which no task executes its
  removal before the request that created it has inserted the entry, every
  entry belongs to a task that has not executed its removal, and so does
  every entry a request has just found.
* `tickFirst_leaves_deadEntry`: without that, one request on an idle server
  is enough.
-/
namespace Wstunnel.L5.ReverseTunnel

variable {K P : Type}

/-! ## What an entry stands for -/

/-- Task `t` listens for `key`, has not executed its removal and has not been
aborted. -/
def State.Holds (s : State K P) (key : K) (t : Nat) : Prop :=
  ∃ task, s.tasks[t]? = some task ∧ task.key = key ∧ task.phase.gone = false ∧
    task.aborted = false

/-- Task `t` exists and has not executed its removal. -/
def State.Live (s : State K P) (t : Nat) : Prop :=
  ∃ task, s.tasks[t]? = some task ∧ task.phase.gone = false

/-- **No dead entry**: every entry belongs to a task that has not executed
its removal. -/
def NoDeadEntry (s : State K P) : Prop := ∀ e ∈ s.servers, s.Live e.2

/-- The task whose removal the step is. -/
def Label.removes : Label K P → Option Nat
  | .remove t => some t
  | _ => none

/-- The order of steps the invariant needs: a task executes its removal only
when no request has still to insert its entry. -/
def Ordered (s : State K P) (l : Label K P) : Prop :=
  ∀ t ∈ l.removes, ∀ req ∈ s.requests, req.pc.creating ≠ some t

instance (s : State K P) (l : Label K P) : Decidable (Ordered s l) :=
  inferInstanceAs (Decidable (∀ t ∈ l.removes, ∀ req ∈ s.requests, req.pc.creating ≠ some t))

/-- The inductive invariant: tasks of entries and of entries still to be
inserted are alive under the right key, the latter have no entry yet and one
creator each, and what a request found under the lock is still there. -/
structure Inv (s : State K P) : Prop where
  entry : ∀ e ∈ s.servers, s.Holds e.1 e.2
  creating : ∀ r key pc t, s.At r key pc → pc.creating = some t → s.Holds key t
  fresh : ∀ r key pc t, s.At r key pc → pc.creating = some t → ∀ e ∈ s.servers, e.2 ≠ t
  unique : ∀ r key pc r' key' pc' t, s.At r key pc → s.At r' key' pc' →
    pc.creating = some t → pc'.creating = some t → r = r'
  looked : ∀ r key pc t, s.At r key pc → pc.looked = some t →
    s.lock = some r ∧ (key, t) ∈ s.servers

theorem State.Holds.live {s : State K P} {key : K} {t : Nat} (h : s.Holds key t) : s.Live t := by
  obtain ⟨task, ht, -, hg, -⟩ := h
  exact ⟨task, ht, hg⟩

theorem Inv.owned {s : State K P} (h : Inv s) : Owned s where
  entry e he := by
    obtain ⟨task, ht, hk, -, ha⟩ := h.entry e he
    exact ⟨task, ht, hk, ha⟩
  creating r key pc t hr ht := by
    obtain ⟨task, ht, hk, -, ha⟩ := h.creating r key pc t hr ht
    exact ⟨task, ht, hk, ha⟩
  fresh := h.fresh
  unique := h.unique
  looked := h.looked

theorem inv_of_owned {s : State K P} (h : Owned s) (he : ∀ e ∈ s.servers, s.Live e.2)
    (hc : ∀ r key pc t, s.At r key pc → pc.creating = some t → s.Live t) : Inv s := by
  have hold : ∀ key t, s.Owns key t → s.Live t → s.Holds key t := by
    intro key t ⟨task, ht, hk, ha⟩ ⟨task', ht', hg⟩
    rw [ht, Option.some.injEq] at ht'
    exact ⟨task, ht, hk, ht' ▸ hg, ha⟩
  refine ⟨fun e h' => ?_, fun r key pc t hr ht => ?_, h.fresh, h.unique, h.looked⟩
  · exact hold _ _ (h.entry e h') (he e h')
  · exact hold _ _ (h.creating r key pc t hr ht) (hc r key pc t hr ht)

/-! ## Liveness under the order -/

/-- `f` keeps a task that holds an entry as the invariant wants it. -/
def Keeps (task : Task K P) (f : Task K P → Task K P) : Prop :=
  task.phase.gone = false → task.aborted = false →
    (f task).key = task.key ∧ (f task).phase.gone = false ∧ (f task).aborted = false

theorem TaskMove.keeps {task : Task K P} {f : Task K P → Task K P} {l : Label K P}
    (h : TaskMove task l (f task)) : Keeps task f := by
  intro hg ha
  refine ⟨h.same.1, ?_, h.same.2.2.2.trans ha⟩
  generalize f task = task' at h
  cases h with
  | start _ => simp [ha, Phase.gone]
  | acceptErr _ => exact hg
  | count _ =>
    show Phase.gone (if _ then _ else _) = false
    split <;> rfl
  | finish hp =>
    -- the task is past its removal
    rw [hp] at hg
    cases hg
  | _ => rfl

variable [DecidableEq K]

/-- Only its own removal ends a task that holds its entry. -/
theorem live_move {s s' : State K P} {l : Label K P} {key : K} {i : Nat} (hm : Move s l s')
    (h : s.Holds key i) (hne : l ≠ .remove i) : s'.Live i := by
  obtain ⟨task, ht, -, hg, ha⟩ := h
  obtain ⟨task', ht', hc⟩ := task_change hm ht
  refine ⟨task', ht', ?_⟩
  cases hc with
  | own _ hmove => exact (TaskMove.keeps (f := fun _ => task') hmove hg ha).2.1
  | removed _ _ => exact absurd rfl hne
  | other _ | used _ _ | replaced _ _ | dropped _ _ _ _ => exact hg

/-- What a request is creating it was creating before, or has just spawned. -/
theorem creating_move {s s' : State K P} {l : Label K P} {i t : Nat} {k : K} {p : Pc}
    (hm : Move s l s') (hp : s'.At i k p) (ht : p.creating = some t) :
    (∃ p₀, s.At i k p₀ ∧ p₀.creating = some t) ∨ s'.Live t := by
  rcases at_back hm hp with rfl | ⟨req, hr, rfl, hc⟩
  · cases ht
  · cases hc with
    | other _ => exact .inl ⟨_, State.at_of hr rfl, ht⟩
    | countNew hpc | cloneNew hpc => exact .inl ⟨_, State.at_of hr hpc, ht⟩
    | spawn _ =>
      cases ht
      exact .inr ⟨newTask req, task_spawned hm hr, rfl⟩
    | found _ _ | missed _ | count _ | clone _ | bound _ | insert _ | recv _ | failed _ _ => cases ht

theorem inv_move {s s' : State K P} {l : Label K P} (h : Inv s) (ho : Ordered s l)
    (hm : Move s l s') : Inv s' := by
  have howned := move_owned h.owned hm
  refine inv_of_owned howned (fun e he => ?_) fun i k p t hp ht => ?_
  · have hrm : l ≠ .remove e.2 := by
      intro hl
      subst hl
      exact removed_move h.owned hm he rfl
    rcases servers_move hm he with he | ⟨r, key, hr⟩
    · exact live_move hm (h.entry e he) hrm
    · exact live_move hm (h.creating r key _ e.2 hr rfl) hrm
  · rcases creating_move hm hp ht with ⟨p₀, h0, ht0⟩ | hlive
    · refine live_move hm (h.creating i k p₀ t h0 ht0) fun hl => ?_
      obtain ⟨req, hreq, -, rfl⟩ := h0
      exact ho t (by rw [hl]; rfl) req (List.mem_of_getElem? hreq) ht0
    · exact hlive

theorem inv_inductive : ((registry : LTS (State K P) (Label K P)).guard Ordered).Inductive Inv where
  init s hs := by
    rw [show s = empty from hs]
    exact inv_of_owned owned_empty (by simp [empty]) (by simp [empty, State.At])
  step _ _ _ h hs := inv_move h hs.2 (move_of_step hs.1)

/-- **No dead entry, in every ordered run.** However any number of requests
and listener tasks interleave, as long as no task executes its removal before
the request that created it has inserted its entry, every entry belongs to a
task that has not executed its removal, and so does the entry a request has
found and is counting itself in. -/
theorem noDeadEntry_of_ordered (s : State K P)
    (h : ((registry : LTS (State K P) (Label K P)).guard Ordered).Reachable s) :
    NoDeadEntry s ∧ ∀ r key pc t, s.At r key pc → pc.looked = some t → s.Live t := by
  have hinv := inv_inductive.reachable s h
  have hdead : NoDeadEntry s := fun e he => (hinv.entry e he).live
  refine ⟨hdead, fun r key pc t hr ht => ?_⟩
  exact hdead _ (hinv.looked r key pc t hr ht).2

/-! ## One request on an idle server -/

/-- The request inserts its entry before the listener task is polled. A
second request then finds it. -/
def insertFirst : List (Label Nat Unit) :=
  [.arrive 0 (), .lookup 0, .bind 0 true, .spawn 0, .fetchAdd 0, .clone 0, .insert 0, .start 0,
   .tick 0, .count 0, .arrive 0 (), .lookup 1]

theorem noDeadEntry_insertFirst :
    ∃ s : State Nat Unit, (registry.guard Ordered).Reachable s ∧ s.At 1 0 (.found 0) ∧
      NoDeadEntry s ∧ s.Live 0 := by
  obtain ⟨s, hs, hat⟩ : ∃ s : State Nat Unit,
      LTS.exec (fun s l => if Ordered s l then step s l else none) empty insertFirst = some s ∧
      s.requests[1]? = some ⟨0, (), .found 0⟩ := ⟨_, rfl, by decide⟩
  have hr : ((registry : LTS (State Nat Unit) _).guard Ordered).Reachable s :=
    ⟨empty, insertFirst, rfl, LTS.run_guard_ofFn hs⟩
  have hat : s.At 1 0 (.found 0) := ⟨_, hat, rfl, rfl⟩
  obtain ⟨hdead, hlook⟩ := noDeadEntry_of_ordered s hr
  exact ⟨s, hr, hat, hdead, hlook 1 0 _ 0 hat rfl⟩

/-- The listener task is polled between its spawn and the `fetch_add` of the
request that spawned it: its first tick is due at once, it sees no client and
one receiver, and removes a key that is not there yet. -/
def tickFirst : List (Label Nat Unit) :=
  [.arrive 0 (), .lookup 0, .bind 0 true, .spawn 0, .start 0, .tick 0, .count 0, .closeListener 0,
   .remove 0, .finish 0, .fetchAdd 0, .clone 0, .insert 0, .recvErr 0, .arrive 0 (), .lookup 1]

/-- The first request has failed and left an entry whose task is gone; the
second has just found it. -/
theorem tickFirst_leaves_deadEntry :
    ∃ s : State Nat Unit, registry.Reachable s ∧ s.At 1 0 (.found 0) ∧ ¬ NoDeadEntry s := by
  obtain ⟨s, hs, hat, hsrv, htask⟩ : ∃ s : State Nat Unit, LTS.exec step empty tickFirst = some s ∧
      s.requests[1]? = some ⟨0, (), .found 0⟩ ∧ (0, 0) ∈ s.servers ∧
      (s.tasks[0]?).map (·.phase) = some .finished := ⟨_, rfl, by decide, by decide, by decide⟩
  refine ⟨s, ⟨empty, tickFirst, rfl, LTS.run_ofFn.mpr hs⟩, ⟨_, hat, rfl, rfl⟩, fun h => ?_⟩
  obtain ⟨task, ht, hg⟩ := h (0, 0) hsrv
  rw [ht] at htask
  rw [show task.phase = .finished from Option.some.inj htask] at hg
  cases hg

end Wstunnel.L5.ReverseTunnel
