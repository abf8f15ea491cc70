import Wstunnel.L5Concurrency.Changes

/-!
# Who owns a listener task

A `ReverseTunnelItem` is made by the request that spawns its task, is moved
into the map when that request inserts it, and is dropped by whoever replaces
or removes the entry. `Owned` says so in every state of every run: an item
has one place, and no item is dropped twice.

**Third-party code.** That a value is moved and dropped once is what Rust's types
say; the invariant shows that the model keeps to it. Of `tokio` nothing is assumed
beside what `ReverseTunnel` has: an abort may come at any time and may come late.

**Results.**
* `owned_inductive`: needs no assumption on the order of steps. What a run needs for
  more than ownership is said where it is used.
-/
namespace Wstunnel.L5.ReverseTunnel

variable {K P : Type}

/-- Task `t` listens for `key` and its item has not been dropped. -/
def State.Owns (s : State K P) (key : K) (t : Nat) : Prop :=
  ∃ task, s.tasks[t]? = some task ∧ task.key = key ∧ task.aborted = false

/-- `Inv` without liveness. -/
structure Owned (s : State K P) : Prop where
  entry : ∀ e ∈ s.servers, s.Owns e.1 e.2
  creating : ∀ r key pc t, s.At r key pc → pc.creating = some t → s.Owns key t
  fresh : ∀ r key pc t, s.At r key pc → pc.creating = some t → ∀ e ∈ s.servers, e.2 ≠ t
  unique : ∀ r key pc r' key' pc' t, s.At r key pc → s.At r' key' pc' →
    pc.creating = some t → pc'.creating = some t → r = r'
  looked : ∀ r key pc t, s.At r key pc → pc.looked = some t →
    s.lock = some r ∧ (key, t) ∈ s.servers

theorem State.Owns.lt {s : State K P} {key : K} {t : Nat} (h : s.Owns key t) :
    t < s.tasks.length := by
  obtain ⟨task, ht, -⟩ := h
  exact (List.getElem?_eq_some_iff.mp ht).1

theorem State.Owns.key_eq {s : State K P} {t : Nat} {key key' : K} (h : s.Owns key t)
    (h' : s.Owns key' t) : key = key' := by
  obtain ⟨task, ht, hk, -⟩ := h
  obtain ⟨task', ht', hk', -⟩ := h'
  rw [ht, Option.some.injEq] at ht'
  rw [← hk, ← hk', ht']

theorem owned_empty : Owned (empty : State K P) where
  entry := by simp [empty]
  creating := by simp [empty, State.At]
  fresh := by simp [empty]
  unique := by simp [empty, State.At]
  looked := by simp [empty, State.At]

/-- A step that adds no entry, loses no owner, and leaves every request
creating and looking up at most what it did before. -/
theorem Owned.mono {s s' : State K P} (h : Owned s) (hsrv : s'.servers = s.servers)
    (hlock : s'.lock = s.lock) (howns : ∀ k t, s.Owns k t → s'.Owns k t)
    (back : ∀ r k p, s'.At r k p → p.creating = none ∧ p.looked = none ∨
      ∃ p₀, s.At r k p₀ ∧ (∀ t, p.creating = some t → p₀.creating = some t) ∧
        ∀ t, p.looked = some t → p₀.looked = some t) : Owned s' := by
  have hc : ∀ r k p t, s'.At r k p → p.creating = some t →
      ∃ p₀, s.At r k p₀ ∧ p₀.creating = some t := by
    intro r k p t hr ht
    rcases back r k p hr with ⟨hn, -⟩ | ⟨p₀, h0, hc, -⟩
    · rw [hn] at ht; cases ht
    · exact ⟨p₀, h0, hc t ht⟩
  refine ⟨?_, ?_, ?_, ?_, ?_⟩
  · intro e he
    exact howns _ _ (h.entry e (hsrv ▸ he))
  · intro r k p t hr ht
    obtain ⟨p₀, h0, ht⟩ := hc r k p t hr ht
    exact howns _ _ (h.creating r k p₀ t h0 ht)
  · intro r k p t hr ht e he
    obtain ⟨p₀, h0, ht⟩ := hc r k p t hr ht
    exact h.fresh r k p₀ t h0 ht e (hsrv ▸ he)
  · intro r k p r' k' p' t hr hr' ht ht'
    obtain ⟨p₀, h0, ht⟩ := hc r k p t hr ht
    obtain ⟨p₀', h0', ht'⟩ := hc r' k' p' t hr' ht'
    exact h.unique r k p₀ r' k' p₀' t h0 h0' ht ht'
  · intro r k p t hr ht
    rcases back r k p hr with ⟨-, hn⟩ | ⟨p₀, h0, -, hl⟩
    · rw [hn] at ht; cases ht
    · rw [hsrv, hlock]
      exact h.looked r k p₀ t h0 (hl t ht)

/-! ## Updates of one task -/

/-- `f` leaves the key and the abort flag of task `t` alone. -/
def SameOwner (s : State K P) (t : Nat) (f : Task K P → Task K P) : Prop :=
  ∀ task, s.tasks[t]? = some task → (f task).key = task.key ∧ (f task).aborted = task.aborted

theorem owns_updTask {s : State K P} {t i : Nat} {key : K} {f : Task K P → Task K P}
    (hf : SameOwner s t f) (h : s.Owns key i) : (s.updTask t f).Owns key i := by
  obtain ⟨task, ht, hk, ha⟩ := h
  refine ⟨if t = i then f task else task, by rw [getElem?_updTask, ht, Option.map_some], ?_⟩
  by_cases hti : t = i
  · subst hti
    rw [if_pos rfl, (hf task ht).1, (hf task ht).2]
    exact ⟨hk, ha⟩
  · rw [if_neg hti]
    exact ⟨hk, ha⟩

theorem owned_updTask {s : State K P} {t : Nat} {f : Task K P → Task K P} (h : Owned s)
    (hf : SameOwner s t f) : Owned (s.updTask t f) :=
  h.mono rfl rfl (fun _ _ => owns_updTask hf) fun _ _ p hr =>
    .inr ⟨p, hr, fun _ h => h, fun _ h => h⟩

theorem TaskMove.sameOwner {s : State K P} {t : Nat} {task : Task K P} {f : Task K P → Task K P}
    {l : Label K P} (h : TaskMove task l (f task)) (ht : s.tasks[t]? = some task) :
    SameOwner s t f := by
  intro task' ht'
  rw [ht, Option.some.injEq] at ht'
  subst ht'
  exact ⟨h.same.1, h.same.2.2.2⟩

/-! ## Updates of one request -/

/-- A request moves on to a point where it creates and has looked up no more
than before. -/
theorem owned_setPc {s : State K P} {r : Nat} {key : K} {pc pc' : Pc} (h : Owned s)
    (hr : s.At r key pc) (hc : pc'.creating = none ∨ pc'.creating = pc.creating)
    (hl : pc'.looked = none ∨ pc'.looked = pc.looked) : Owned (s.setPc r pc') := by
  refine h.mono rfl rfl (fun _ _ h => h) fun i k p hp => .inr ?_
  rcases at_setPc hp with ⟨rfl, rfl, p₀, h0⟩ | ⟨-, h0⟩
  · obtain ⟨rfl, rfl⟩ := hr.inj h0
    refine ⟨pc, h0, fun t ht => ?_, fun t ht => ?_⟩
    · rcases hc with hc | hc
      · rw [hc] at ht; cases ht
      · rw [← hc, ht]
    · rcases hl with hl | hl
      · rw [hl] at ht; cases ht
      · rw [← hl, ht]
  · exact ⟨p, h0, fun _ ht => ht, fun _ ht => ht⟩

theorem owned_arrive {s : State K P} (h : Owned s) (key : K) (params : P) :
    Owned { s with requests := s.requests ++ [⟨key, params, .lookup⟩] } := by
  refine h.mono rfl rfl (fun _ _ h => h) fun i k p hp => ?_
  rcases at_arrive hp with rfl | h0
  · exact .inl ⟨rfl, rfl⟩
  · exact .inr ⟨p, h0, fun _ h => h, fun _ h => h⟩

/-! ## The lock -/

/-- No request has looked anything up while the lock is free. -/
theorem Owned.not_looked {s : State K P} (h : Owned s) (hl : s.lock = none) {r : Nat} {key : K}
    {pc : Pc} {t : Nat} (hr : s.At r key pc) (ht : pc.looked = some t) : False := by
  have := (h.looked r key pc t hr ht).1
  rw [hl] at this
  cases this

theorem owned_found {s : State K P} {r t : Nat} {key : K} {pc : Pc} (h : Owned s)
    (hr : s.At r key pc) (hl : s.lock = none) (ht : (key, t) ∈ s.servers) :
    Owned { s.setPc r (.found t) with lock := some r } := by
  have back : ∀ i k p, (s.setPc r (.found t)).At i k p →
      i = r ∧ k = key ∧ p = .found t ∨ s.At i k p := by
    intro i k p hp
    rcases at_setPc hp with ⟨rfl, rfl, p₀, h0⟩ | ⟨-, h0⟩
    · exact .inl ⟨rfl, (h0.inj hr).1, rfl⟩
    · exact .inr h0
  have old : ∀ i k p t', (s.setPc r (.found t)).At i k p → p.creating = some t' → s.At i k p := by
    intro i k p t' hp ht'
    rcases back i k p hp with ⟨-, -, rfl⟩ | h0
    · cases ht'
    · exact h0
  refine ⟨?_, ?_, ?_, ?_, ?_⟩
  · exact h.entry
  · intro i k p t' hp ht'
    exact h.creating i k p t' (old i k p t' hp ht') ht'
  · intro i k p t' hp ht'
    exact h.fresh i k p t' (old i k p t' hp ht') ht'
  · intro i k p j k' p' t' hp hp' ht' ht''
    exact h.unique i k p j k' p' t' (old i k p t' hp ht') (old j k' p' t' hp' ht'') ht' ht''
  · intro i k p t' hp ht'
    rcases back i k p hp with ⟨rfl, rfl, rfl⟩ | h0
    · cases ht'
      exact ⟨rfl, ht⟩
    · exact (h.not_looked hl h0 ht').elim

/-- The lock is released by a request that no longer relies on it. -/
theorem owned_unlock {s : State K P} {r t : Nat} {key : K} (h : Owned s) (hl : s.lock = some r)
    (hr : s.At r key (.waiting t)) : Owned { s with lock := none } where
  entry := h.entry
  creating := h.creating
  fresh := h.fresh
  unique := h.unique
  looked i k p t' hp ht' := by
    have hi := (h.looked i k p t' hp ht').1
    rw [hl, Option.some.injEq] at hi
    subst hi
    obtain ⟨-, rfl⟩ := hr.inj hp
    cases ht'

/-! ## A new task -/

theorem owns_append {s : State K P} {i : Nat} {key : K} (h : s.Owns key i) (task : Task K P) :
    ({ s with tasks := s.tasks ++ [task] } : State K P).Owns key i := by
  have hlt := h.lt
  obtain ⟨task₀, ht, h'⟩ := h
  exact ⟨task₀, (List.getElem?_append_left hlt).trans ht, h'⟩

theorem owned_spawn {s : State K P} {r : Nat} {req : Request K P} (h : Owned s)
    (hr : s.requests[r]? = some req) :
    Owned (({ s with tasks := s.tasks ++ [newTask req] } : State K P).setPc r
      (.spawned s.tasks.length)) := by
  have hat : s.At r req.key req.pc := State.at_of hr rfl
  have hnew : ({ s with tasks := s.tasks ++ [newTask req] } : State K P).Owns req.key
      s.tasks.length := ⟨newTask req, by simp, rfl, rfl⟩
  -- the request that spawns has the new task, the others what they had
  have back : ∀ i k p t, (({ s with tasks := s.tasks ++ [newTask req] } : State K P).setPc r
      (.spawned s.tasks.length)).At i k p → p.creating = some t →
      i = r ∧ k = req.key ∧ t = s.tasks.length ∨ i ≠ r ∧ s.At i k p := by
    intro i k p t hp ht
    rcases at_setPc hp with ⟨rfl, rfl, p₀, h0⟩ | h0
    · cases ht
      exact .inl ⟨rfl, (State.At.inj (s := s) h0 hat).1, rfl⟩
    · exact .inr h0
  refine ⟨?_, ?_, ?_, ?_, ?_⟩
  · exact fun e he => owns_append (h.entry e he) _
  · intro i k p t hp ht
    rcases back i k p t hp ht with ⟨-, rfl, rfl⟩ | ⟨-, h0⟩
    · exact hnew
    · exact owns_append (h.creating i k p t h0 ht) _
  · intro i k p t hp ht e he
    rcases back i k p t hp ht with ⟨-, -, rfl⟩ | ⟨-, h0⟩
    · exact Nat.ne_of_lt (h.entry e he).lt
    · exact h.fresh i k p t h0 ht e he
  · intro i k p j k' p' t hp hp' ht ht'
    rcases back i k p t hp ht with ⟨hi, -, hit⟩ | ⟨-, h0⟩
    · rcases back j k' p' t hp' ht' with ⟨hj, -, -⟩ | ⟨-, h0'⟩
      · exact hi.trans hj.symm
      · exact absurd hit (Nat.ne_of_lt (h.creating j k' p' t h0' ht').lt)
    · rcases back j k' p' t hp' ht' with ⟨-, -, hjt⟩ | ⟨-, h0'⟩
      · exact absurd hjt (Nat.ne_of_lt (h.creating i k p t h0 ht).lt)
      · exact h.unique i k p j k' p' t h0 h0' ht ht'
  · intro i k p t hp ht
    rcases at_setPc hp with ⟨rfl, rfl, -⟩ | ⟨-, h0⟩
    · cases ht
    · exact h.looked i k p t h0 ht

/-! ## Removing and inserting an entry -/

/-- Only the task of the dropped item is touched. -/
theorem owns_dropItem {s : State K P} {o : Option Nat} {key : K} {i : Nat} (h : s.Owns key i)
    (ho : o ≠ some i) : (s.dropItem o).Owns key i := by
  cases o with
  | none => exact h
  | some t =>
    obtain ⟨task, ht, h'⟩ := h
    refine ⟨task, ?_, h'⟩
    rw [State.dropItem, getElem?_updTask, ht, Option.map_some, if_neg]
    intro hti
    exact ho (congrArg some hti)

variable [DecidableEq K]

/-- A removal drops the entry of `key` and nothing any other entry needs. -/
theorem owned_removeEntry {s : State K P} (h : Owned s) (hl : s.lock = none) (key : K) :
    Owned (s.removeEntry key) := by
  have hdrop : ∀ k i, s.Owns k i → s.servers.lookup key ≠ some i → (s.removeEntry key).Owns k i :=
    fun k i hi ho => owns_dropItem (s := { s with servers := _ }) hi ho
  refine ⟨?_, ?_, ?_, ?_, ?_⟩
  · intro e he
    rw [removeEntry_servers, AssocMap.mem_erase] at he
    refine hdrop _ _ (h.entry e he.1) fun hk => he.2 ?_
    exact (h.entry e he.1).key_eq (h.entry _ (AssocMap.mem_of_lookup hk))
  · intro r k pc t hr ht
    rw [at_removeEntry] at hr
    exact hdrop _ _ (h.creating r k pc t hr ht) fun hk =>
      h.fresh r k pc t hr ht _ (AssocMap.mem_of_lookup hk) rfl
  · intro r k pc t hr ht e he
    rw [removeEntry_servers] at he
    exact h.fresh r k pc t (at_removeEntry.mp hr) ht e (AssocMap.mem_erase.mp he).1
  · intro r k pc r' k' pc' t hr hr' ht ht'
    exact h.unique r k pc r' k' pc' t (at_removeEntry.mp hr) (at_removeEntry.mp hr') ht ht'
  · intro r k pc t hr ht
    exact (h.not_looked hl (at_removeEntry.mp hr) ht).elim

theorem owned_insert {s : State K P} {r t : Nat} {key : K} (h : Owned s) (hl : s.lock = none)
    (hr : s.At r key (.cloned t)) : Owned ((s.insertEntry key t).setPc r (.waiting t)) := by
  have h1 := owned_removeEntry h hl key
  have hr1 : (s.removeEntry key).At r key (.cloned t) := at_removeEntry.mpr hr
  have hl1 : (s.removeEntry key).lock = none := (removeEntry_lock s key).trans hl
  rw [insertEntry_eq]
  generalize s.removeEntry key = s₁ at h1 hr1 hl1
  have old : ∀ i k p t', (({ s₁ with servers := (key, t) :: s₁.servers } : State K P).setPc r
      (.waiting t)).At i k p → p.creating = some t' → i ≠ r ∧ s₁.At i k p := by
    intro i k p t' hp ht'
    rcases at_setPc hp with ⟨-, rfl, -⟩ | h0
    · cases ht'
    · exact h0
  refine ⟨?_, ?_, ?_, ?_, ?_⟩
  · intro e he
    rcases List.mem_cons.mp he with rfl | he
    · exact h1.creating r key _ t hr1 rfl
    · exact h1.entry e he
  · intro i k p t' hp ht'
    exact h1.creating i k p t' (old i k p t' hp ht').2 ht'
  · intro i k p t' hp ht' e he
    obtain ⟨hi, h0⟩ := old i k p t' hp ht'
    rcases List.mem_cons.mp he with rfl | he
    · intro (htt : t = t')
      exact hi (h1.unique i k p r key _ t' h0 hr1 ht' (congrArg some htt))
    · exact h1.fresh i k p t' h0 ht' e he
  · intro i k p j k' p' t' hp hp' ht' ht''
    exact h1.unique i k p j k' p' t' (old i k p t' hp ht').2 (old j k' p' t' hp' ht'').2 ht' ht''
  · intro i k p t' hp ht'
    rcases at_setPc hp with ⟨-, rfl, -⟩ | ⟨-, h0⟩
    · cases ht'
    · exact (h1.not_looked hl1 h0 ht').elim

/-! ## Every step keeps ownership -/

theorem move_owned {s s' : State K P} {l : Label K P} (h : Owned s) (hm : Move s l s') :
    Owned s' := by
  cases hm with
  | arrive key params => exact owned_arrive h key params
  | found hr hpc hl ht =>
    exact owned_found h (State.at_of hr hpc) hl (AssocMap.mem_of_lookup ht)
  | missed hr hpc hn => exact owned_setPc h (State.at_of hr hpc) (.inl rfl) (.inl rfl)
  | giveUp hr hpc => exact owned_setPc h (State.at_of hr hpc) (.inl rfl) (.inl rfl)
  | bind hr hpc ok =>
    cases ok <;> exact owned_setPc h (State.at_of hr hpc) (.inl rfl) (.inl rfl)
  | count hr hpc | countNew hr hpc | cloneNew hr hpc =>
    refine owned_setPc (owned_updTask h ?_) (State.at_of hr hpc) (.inr rfl) (.inr rfl)
    exact fun _ _ => ⟨rfl, rfl⟩
  | recv hr hpc _ _ | leave _ hr hpc =>
    refine owned_setPc (owned_updTask h ?_) (State.at_of hr hpc) (.inl rfl) (.inl rfl)
    exact fun _ _ => ⟨rfl, rfl⟩
  | @clone r req t hr hpc =>
    have h1 : Owned ((s.updTask t fun k => { k with receivers := k.receivers + 1 }).setPc r
        (.waiting t)) :=
      owned_setPc (owned_updTask h fun _ _ => ⟨rfl, rfl⟩) (State.at_of hr hpc) (.inl rfl) (.inl rfl)
    refine owned_unlock (t := t) h1 (h.looked r req.key _ t (State.at_of hr hpc) rfl).1
      ⟨{ req with pc := .waiting t }, ?_, rfl, rfl⟩
    simp [State.setPc, State.updTask, hr]
  | spawn hr hpc => exact owned_spawn h hr
  | insert hr hpc hl => exact owned_insert h hl (State.at_of hr hpc)
  | task _ ht hmove => exact owned_updTask h (hmove.sameOwner ht)
  | remove ht hp hl =>
    exact owned_updTask (owned_removeEntry h hl _) fun _ _ => ⟨rfl, rfl⟩

theorem owned_inductive : (registry : LTS (State K P) (Label K P)).Inductive Owned where
  init s hs := by rw [show s = empty from hs]; exact owned_empty
  step _ _ _ h hs := move_owned h (move_of_step hs)

/-- An entry is old, or its request has just inserted it. -/
theorem servers_move {s s' : State K P} {l : Label K P} {e : K × Nat} (hm : Move s l s')
    (he : e ∈ s'.servers) : e ∈ s.servers ∨ ∃ r key, s.At r key (.cloned e.2) := by
  cases hm with
  | @insert r req t hr hpc hl =>
    have he' : e ∈ (s.insertEntry req.key t).servers := he
    rw [insertEntry_eq] at he'
    rcases List.mem_cons.mp he' with rfl | he'
    · exact .inr ⟨r, req.key, State.at_of hr hpc⟩
    · rw [removeEntry_servers] at he'
      exact .inl (AssocMap.mem_erase.mp he').1
  | remove ht hp hl =>
    have he' : e ∈ (s.removeEntry _).servers := he
    rw [removeEntry_servers] at he'
    exact .inl (AssocMap.mem_erase.mp he').1
  | _ => exact .inl he

/-- A removal leaves no entry of its own task. -/
theorem removed_move {s s' : State K P} {t : Nat} {e : K × Nat} (h : Owned s)
    (hm : Move s (.remove t) s') (he : e ∈ s'.servers) : e.2 ≠ t := by
  cases hm with
  | leave h _ _ => simp at h
  | @task _ _ task f _ _ hmove =>
    generalize f task = task' at hmove
    cases hmove
  | @remove _ task ht _ _ =>
    have he' : e ∈ (s.removeEntry task.key).servers := he
    rw [removeEntry_servers, AssocMap.mem_erase] at he'
    intro het
    obtain ⟨task', ht', hk, -⟩ := h.entry e he'.1
    rw [het, ht, Option.some.injEq] at ht'
    exact he'.2 (ht' ▸ hk.symm)

/-! ## The task a request uses -/

/-- The task whose channel a request reads, or is about to. -/
def Pc.task : Pc → Option Nat
  | .found t | .foundCounted t | .spawned t | .counted t | .cloned t | .waiting t => some t
  | _ => none

/-- The task a request uses it used before, has found under its key, or has
just spawned. -/
theorem uses_move {s s' : State K P} {l : Label K P} {i t : Nat} {req : Request K P}
    (hm : Move s l s') (hr : s'.requests[i]? = some req) (ht : req.pc.task = some t) :
    ∃ req₀, s.requests[i]? = some req₀ ∧ req₀.params = req.params ∧ (req₀.pc.task = some t ∨
      (l = .lookup i ∧ s.servers.lookup req₀.key = some t) ∨
      (s'.tasks[t]? = some (newTask req₀) ∧ t = s.tasks.length)) := by
  rcases request_back hm hr with ⟨req₀, pc, hr₀, rfl, hc⟩ | ⟨_, _, -, rfl⟩
  · refine ⟨req₀, hr₀, rfl, ?_⟩
    cases hc with
    | other _ => exact .inl ht
    | found _ hfound =>
      cases ht
      exact .inr (.inl ⟨rfl, hfound⟩)
    | spawn _ =>
      cases ht
      exact .inr (.inr ⟨task_spawned hm hr₀, rfl⟩)
    | count hpc | countNew hpc | clone hpc | cloneNew hpc | insert hpc => exact .inl (hpc ▸ ht)
    | missed _ | bound _ | recv _ | failed _ _ => cases ht
  · cases ht

end Wstunnel.L5.ReverseTunnel
