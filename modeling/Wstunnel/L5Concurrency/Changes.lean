import Wstunnel.L5Concurrency.ReverseTunnel

/-!
# What a step of the registry does to one request and to one task

`Move` says what a step does to the whole state. The invariants of the
registry follow one request or one task through a step; its cases are read
off here once for each of the two. Nothing is assumed beside what `ReverseTunnel`
says of its steps.

**Results.**
* `request_change`, `request_back`: a request stays where it is while
  another actor steps, or moves as `RequestChange` says; a request that was
  not there has just arrived.
* `task_change`, `task_back`: a task changes as `TaskChange` says; a task
  that was not there has just been spawned.
-/
namespace Wstunnel.L5.ReverseTunnel

variable {K P : Type} [DecidableEq K]

/-! ## One request -/

/-- A step as request `i`, which is `req`, sees it: the point it leads to. -/
inductive RequestChange (s : State K P) (i : Nat) (req : Request K P) : Label K P → Pc → Prop where
  | other {l} (ha : l.actor ≠ some (.inl i)) : RequestChange s i req l req.pc
  | found {t} (hpc : req.pc = .lookup) (ht : s.servers.lookup req.key = some t) :
      RequestChange s i req (.lookup i) (.found t)
  | missed (hpc : req.pc = .lookup) : RequestChange s i req (.lookup i) .binding
  | count {t} (hpc : req.pc = .found t) : RequestChange s i req (.fetchAdd i) (.foundCounted t)
  | countNew {t} (hpc : req.pc = .spawned t) : RequestChange s i req (.fetchAdd i) (.counted t)
  | clone {t} (hpc : req.pc = .foundCounted t) : RequestChange s i req (.clone i) (.waiting t)
  | cloneNew {t} (hpc : req.pc = .counted t) : RequestChange s i req (.clone i) (.cloned t)
  | bound (hpc : req.pc = .binding) : RequestChange s i req (.bind i true) .bound
  | spawn (hpc : req.pc = .bound) : RequestChange s i req (.spawn i) (.spawned s.tasks.length)
  | insert {t} (hpc : req.pc = .cloned t) : RequestChange s i req (.insert i) (.waiting t)
  | recv {t cnx} (hpc : req.pc = .waiting t) : RequestChange s i req (.recv i) (.got cnx)
  | failed {l} (hl : l = .bind i false ∨ l = .recvErr i ∨ l = .cancel i)
      (hpc : req.pc.creating = none) : RequestChange s i req l .failed

theorem request_change {s s' : State K P} {l : Label K P} {i : Nat} {req : Request K P}
    (hm : Move s l s') (hr : s.requests[i]? = some req) :
    ∃ pc, s'.requests[i]? = some { req with pc } ∧ RequestChange s i req l pc := by
  have set : ∀ (s₀ : State K P) r req₁ pc, s₀.requests = s.requests → s.requests[r]? = some req₁ →
      l.actor = some (.inl r) → RequestChange s r req₁ l pc →
      ∃ pc', (s₀.setPc r pc).requests[i]? = some { req with pc := pc' } ∧
        RequestChange s i req l pc' := by
    intro s₀ r req₁ pc h0 hr₁ ha h
    rw [getElem?_setPc, h0, hr, Option.map_some]
    by_cases hri : r = i
    · subst hri
      rw [hr, Option.some.injEq] at hr₁
      subst hr₁
      exact ⟨pc, by rw [if_pos rfl], h⟩
    · exact ⟨req.pc, by rw [if_neg hri], .other (by simp [ha, hri])⟩
  cases hm with
  | arrive _ _ =>
    have hi := (List.getElem?_eq_some_iff.mp hr).1
    exact ⟨req.pc, (List.getElem?_append_left hi).trans hr, .other (by simp [Label.actor])⟩
  | found hr₁ hpc _ ht => exact set s _ _ _ rfl hr₁ rfl (.found hpc ht)
  | missed hr₁ hpc _ => exact set s _ _ _ rfl hr₁ rfl (.missed hpc)
  | count hr₁ hpc => exact set (s.updTask _ _) _ _ _ rfl hr₁ rfl (.count hpc)
  | countNew hr₁ hpc => exact set (s.updTask _ _) _ _ _ rfl hr₁ rfl (.countNew hpc)
  | clone hr₁ hpc => exact set (s.updTask _ _) _ _ _ rfl hr₁ rfl (.clone hpc)
  | cloneNew hr₁ hpc => exact set (s.updTask _ _) _ _ _ rfl hr₁ rfl (.cloneNew hpc)
  | bind hr₁ hpc ok =>
    cases ok with
    | true => exact set s _ _ _ rfl hr₁ rfl (.bound hpc)
    | false => exact set s _ _ _ rfl hr₁ rfl (.failed (.inl rfl) (hpc ▸ rfl))
  | @spawn _ req₁ hr₁ hpc =>
    exact set { s with tasks := s.tasks ++ [newTask req₁] } _ _ _ rfl hr₁ rfl (.spawn hpc)
  | insert hr₁ hpc _ => exact set _ _ _ _ (insertEntry_requests s _ _) hr₁ rfl (.insert hpc)
  | recv hr₁ hpc _ _ => exact set (s.updTask _ _) _ _ _ rfl hr₁ rfl (.recv hpc)
  | leave h hr₁ hpc =>
    refine set (s.updTask _ _) _ _ _ rfl hr₁ ?_ (.failed (.inr h) (hpc ▸ rfl))
    rcases h with rfl | rfl <;> rfl
  | giveUp hr₁ hpc => exact set s _ _ _ rfl hr₁ rfl (.failed (.inr (.inr rfl)) (hpc ▸ rfl))
  | task ha _ _ => exact ⟨req.pc, hr, .other (by simp [ha])⟩
  | @remove _ task _ _ _ =>
    have hr' : (s.removeEntry task.key).requests[i]? = some req := by rw [removeEntry_requests, hr]
    exact ⟨req.pc, hr', .other (by simp [Label.actor])⟩

theorem request_back {s s' : State K P} {l : Label K P} {i : Nat} {req' : Request K P}
    (hm : Move s l s') (hr' : s'.requests[i]? = some req') :
    (∃ req pc, s.requests[i]? = some req ∧ req' = { req with pc } ∧ RequestChange s i req l pc) ∨
      ∃ key params, l = .arrive key params ∧ req' = ⟨key, params, .lookup⟩ := by
  rcases Nat.lt_or_ge i s.requests.length with hi | hi
  · obtain ⟨pc, hpc, h⟩ := request_change hm (List.getElem?_eq_getElem hi)
    rw [hr', Option.some.injEq] at hpc
    exact .inl ⟨_, pc, List.getElem?_eq_getElem hi, hpc, h⟩
  · -- only an arrival makes the list of requests longer
    have hlt := (List.getElem?_eq_some_iff.mp hr').1
    cases hm with
    | arrive key params =>
      rw [List.getElem?_append_right hi, List.getElem?_singleton] at hr'
      split at hr'
      · cases hr'
        exact .inr ⟨key, params, rfl, rfl⟩
      · cases hr'
    | _ =>
      simp only [State.setPc, State.updTask, List.length_modify, insertEntry_requests,
        removeEntry_requests] at hlt
      omega

theorem at_back {s s' : State K P} {l : Label K P} {i : Nat} {key : K} {pc : Pc} (hm : Move s l s')
    (h : s'.At i key pc) : pc = .lookup ∨
      ∃ req, s.requests[i]? = some req ∧ req.key = key ∧ RequestChange s i req l pc := by
  obtain ⟨req', hr', hk, hpc⟩ := h
  rcases request_back hm hr' with ⟨req, pc', hr, rfl, hc⟩ | ⟨_, _, -, rfl⟩
  · cases hpc
    exact .inr ⟨req, hr, hk, hc⟩
  · exact .inl hpc.symm

/-! ## One task -/

/-- A step as task `i` sees it: what it makes of the task. -/
inductive TaskChange (s : State K P) (i : Nat) (task : Task K P) : Label K P → Task K P → Prop where
  | other {l} (ha : l.actor ≠ some (.inr i)) : TaskChange s i task l task
  /-- A request counts itself in, clones or drops a receiver, or takes a
  connection. -/
  | used {l r seen receivers queue} (ha : l.actor = some (.inl r)) (hq : queue ⊆ task.queue) :
      TaskChange s i task l { task with seen, receivers, queue }
  | own {l task'} (ha : l.actor = some (.inr i)) (h : TaskMove task l task') :
      TaskChange s i task l task'
  | replaced {r key t} (hr : s.At r key (.cloned t)) (hk : s.servers.lookup key = some i) :
      TaskChange s i task (.insert r)
        { task with receivers := task.receivers - 1, aborted := true }
  | dropped {t task₀} (hti : t ≠ i) (ht : s.tasks[t]? = some task₀) (hp : task₀.phase = .listenerClosed)
      (hk : s.servers.lookup task₀.key = some i) : TaskChange s i task (.remove t)
        { task with receivers := task.receivers - 1, aborted := true }
  | removed {receivers aborted} (hp : task.phase = .listenerClosed)
      (h : aborted = task.aborted ∨ s.servers.lookup task.key = some i) :
      TaskChange s i task (.remove i) { task with phase := .removed, receivers, aborted }

theorem task_change {s s' : State K P} {l : Label K P} {i : Nat} {task : Task K P} (hm : Move s l s')
    (ht : s.tasks[i]? = some task) :
    ∃ task', s'.tasks[i]? = some task' ∧ TaskChange s i task l task' := by
  -- a step of request `r` that updates task `t`
  have upd : ∀ t (f : Task K P → Task K P) r, l.actor = some (.inl r) →
      (t = i → TaskChange s i task l (f task)) →
      ∃ task', (s.updTask t f).tasks[i]? = some task' ∧ TaskChange s i task l task' := by
    intro t f r ha hf
    refine ⟨if t = i then f task else task, by rw [getElem?_updTask, ht, Option.map_some], ?_⟩
    by_cases hti : t = i
    · rw [if_pos hti]
      exact hf hti
    · rw [if_neg hti]
      exact .other (by simp [ha])
  have keep : ∀ r, l.actor = some (.inl r) → TaskChange s i task l task :=
    fun r ha => .other (by simp [ha])
  cases hm with
  | arrive _ _ => exact ⟨task, ht, .other (by simp [Label.actor])⟩
  | found _ _ _ _ | missed _ _ _ | giveUp _ _ | bind _ _ _ => exact ⟨task, ht, keep _ rfl⟩
  | count _ _ | countNew _ _ | cloneNew _ _ | clone _ _ =>
    exact upd _ _ _ rfl fun _ => .used rfl (List.Subset.refl _)
  | @recv _ _ t task₀ cnx rest _ _ ht₀ hq =>
    refine upd t _ _ rfl fun hti => .used rfl ?_
    subst hti
    rw [ht₀, Option.some.injEq] at ht
    rw [← ht, hq]
    exact List.subset_cons_self _ _
  | @leave _ r _ t h _ _ =>
    have ha : l.actor = some (.inl r) := by rcases h with rfl | rfl <;> rfl
    exact upd _ _ r ha fun _ => .used ha (List.Subset.refl _)
  | spawn _ _ =>
    have hi := (List.getElem?_eq_some_iff.mp ht).1
    exact ⟨task, (List.getElem?_append_left hi).trans ht, keep _ rfl⟩
  | @insert r req t hr hpc _ =>
    have htask := getElem?_removeEntry s req.key i
    rw [ht, Option.map_some, ← insertEntry_tasks s req.key t] at htask
    refine ⟨_, htask, ?_⟩
    split
    · rename_i hk
      exact .replaced (State.at_of hr hpc) hk
    · exact keep r rfl
  | @task _ t task₀ f ha ht₀ hmove =>
    refine ⟨if t = i then f task else task, by rw [getElem?_updTask, ht, Option.map_some], ?_⟩
    by_cases hti : t = i
    · subst hti
      rw [ht₀, Option.some.injEq] at ht
      subst ht
      rw [if_pos rfl]
      exact .own ha hmove
    · rw [if_neg hti]
      exact .other (by simp [ha, hti])
  | @remove t task₀ ht₀ hp _ =>
    refine ⟨_, by rw [getElem?_updTask, getElem?_removeEntry, ht, Option.map_some, Option.map_some],
      ?_⟩
    by_cases hti : t = i
    · subst hti
      rw [ht₀, Option.some.injEq] at ht
      subst ht
      rw [if_pos rfl]
      split
      · rename_i hk
        exact .removed hp (.inr hk)
      · exact .removed hp (.inl rfl)
    · rw [if_neg hti]
      split
      · rename_i hk
        exact .dropped hti ht₀ hp hk
      · exact .other (by simp [Label.actor, hti])

theorem task_back {s s' : State K P} {l : Label K P} {i : Nat} {task' : Task K P} (hm : Move s l s')
    (ht' : s'.tasks[i]? = some task') :
    (∃ task, s.tasks[i]? = some task ∧ TaskChange s i task l task') ∨
      ∃ r req, l = .spawn r ∧ s.requests[r]? = some req ∧ i = s.tasks.length ∧ task' = newTask req := by
  rcases Nat.lt_or_ge i s.tasks.length with hi | hi
  · obtain ⟨task₁, ht₁, h⟩ := task_change hm (List.getElem?_eq_getElem hi)
    rw [ht', Option.some.injEq] at ht₁
    exact .inl ⟨_, List.getElem?_eq_getElem hi, ht₁ ▸ h⟩
  · -- only a spawn makes the list of tasks longer
    have hlt := (List.getElem?_eq_some_iff.mp ht').1
    cases hm with
    | @spawn r req hr _ =>
      have ht₁ : (s.tasks ++ [newTask req])[i]? = some task' := ht'
      rw [List.getElem?_append_right hi, List.getElem?_singleton] at ht₁
      split at ht₁
      · cases ht₁
        exact .inr ⟨r, req, rfl, hr, by omega, rfl⟩
      · cases ht₁
    | _ =>
      simp only [State.setPc, State.updTask, List.length_modify, insertEntry_tasks,
        removeEntry_tasks_length] at hlt
      omega

theorem task_spawned {s s' : State K P} {r : Nat} {req : Request K P} (hm : Move s (.spawn r) s')
    (hr : s.requests[r]? = some req) : s'.tasks[s.tasks.length]? = some (newTask req) := by
  cases hm with
  | spawn hr₁ _ =>
    rw [hr, Option.some.injEq] at hr₁
    subst hr₁
    simp [State.setPc]
  | leave h _ _ => simp at h
  | task ha _ _ => cases ha

/-- Key and parameters of a task never change. -/
theorem TaskChange.same {s : State K P} {i : Nat} {task task' : Task K P} {l : Label K P}
    (h : TaskChange s i task l task') : task'.key = task.key ∧ task'.params = task.params := by
  cases h with
  | own _ h => exact ⟨h.same.1, h.same.2.1⟩
  | _ => exact ⟨rfl, rfl⟩

end Wstunnel.L5.ReverseTunnel
