import Wstunnel.L1Encoding.Net
import Wstunnel.L5Concurrency.Ownership

/-!
# A listener task and the key it removes

A task removes the key it was created for when it ends, whatever the map
holds under it by then. The look-up that misses and the insert that follows
are two critical sections with a bind in between, so two requests can both
miss, both bind (always, on port 0) and insert one after the other: the
second insert drops the first entry and aborts its task, and the clean-up of
the aborted task removes the second entry.

**Third-party code.** Which binds succeed is left to the system; that a bind fails
while the address is taken is not assumed, and on port 0 it is not so. The first
result names what it needs of the binds as a condition on the run.

**Results.**
* `removes_only_itself`: in every run in which a bind succeeds only while
  the key has no entry and no other request is between its bind and its
  insert, no insert replaces an entry, a removal finds its own entry or
  none, and no step aborts a task but its own removal.
* `secondInsert_aborts_bothListeners`: without that, two requests on port 0
  lose both listeners.
-/
namespace Wstunnel.L5.ReverseTunnel

variable {K P : Type}

/-- Between its bind and its insert. -/
def Pc.building : Pc → Bool
  | .bound | .spawned _ | .counted _ | .cloned _ => true
  | _ => false

/-- Some request on `key` has still to insert the entry of task `t`. -/
def State.Creates (s : State K P) (key : K) (t : Nat) : Prop :=
  ∃ r pc, s.At r key pc ∧ pc.creating = some t

theorem Pc.building_of_creating {pc : Pc} {t : Nat} (h : pc.creating = some t) :
    pc.building = true := by
  cases pc <;> first | rfl | cases h

variable [DecidableEq K]

/-! ## What a step does to keys, builders and tasks -/

/-- A request is building because it was, or because its bind has succeeded. -/
theorem building_move {s s' : State K P} {l : Label K P} {i : Nat} {k : K} {p : Pc} (hm : Move s l s')
    (hp : s'.At i k p) (hb : p.building = true) :
    (∃ p₀, s.At i k p₀ ∧ p₀.building = true ∧ l ≠ .insert i) ∨
      (l = .bind i true ∧ ∃ p₀, s.At i k p₀) := by
  rcases at_back hm hp with rfl | ⟨req, hr, rfl, hc⟩
  · cases hb
  · cases hc with
    | other ha => exact .inl ⟨_, State.at_of hr rfl, hb, fun hl => ha (hl ▸ rfl)⟩
    | countNew hpc | cloneNew hpc | spawn hpc => exact .inl ⟨_, State.at_of hr hpc, rfl, by simp⟩
    | bound hpc => exact .inr ⟨rfl, _, State.at_of hr hpc⟩
    | found _ _ | missed _ | count _ | clone _ | insert _ | recv _ | failed _ _ => cases hb

/-- A request goes on creating its task until it inserts the entry. -/
theorem creates_move {s s' : State K P} {l : Label K P} {k : K} {t : Nat} (hm : Move s l s')
    (h : s.Creates k t) : s'.Creates k t ∨ ∃ r, l = .insert r ∧ s.At r k (.cloned t) := by
  obtain ⟨i, _, ⟨req, hr, rfl, rfl⟩, ht⟩ := h
  obtain ⟨pc, hr', hc⟩ := request_change hm hr
  have goesOn : pc.creating = some t → s'.Creates req.key t := fun h =>
    ⟨i, pc, ⟨_, hr', rfl, rfl⟩, h⟩
  cases hc with
  | other _ => exact .inl (goesOn ht)
  | countNew hpc | cloneNew hpc =>
    rw [hpc] at ht
    exact .inl (goesOn ht)
  | insert hpc =>
    rw [hpc] at ht
    cases ht
    exact .inr ⟨i, rfl, State.at_of hr hpc⟩
  | found hpc _ | missed hpc | count hpc | clone hpc | bound hpc | spawn hpc | recv hpc
  | failed _ hpc =>
    rw [hpc] at ht
    cases ht

omit [DecidableEq K] in
theorem TaskMove.gone_back {task task' : Task K P} {l : Label K P} (h : TaskMove task l task')
    (hg : task'.phase.gone = false) : task.phase.gone = false := by
  cases h with
  | acceptErr _ => exact hg
  | abort hp _ => exact hp
  | finish _ => cases hg
  | start hp | accept hp | acceptNone hp | sendLost hp | send hp | sendTimeout hp | tick hp | count hp
  | closeListener hp => rw [hp]; rfl

/-- A task that is not gone was not gone before, or has just been spawned. -/
theorem gone_move {s s' : State K P} {l : Label K P} {t : Nat} {task' : Task K P} (hm : Move s l s')
    (ht : s'.tasks[t]? = some task') (hg : task'.phase.gone = false) :
    (∃ task, s.tasks[t]? = some task ∧ task.key = task'.key ∧ task.phase.gone = false ∧
      l ≠ .remove t) ∨ s'.Creates task'.key t := by
  rcases task_back hm ht with ⟨task, h0, hc⟩ | ⟨r, req, rfl, hr, rfl, rfl⟩
  · refine .inl ⟨task, h0, hc.same.1.symm, ?_⟩
    cases hc with
    | other ha => exact ⟨hg, fun hl => ha (hl ▸ rfl)⟩
    | used ha _ => exact ⟨hg, fun hl => by subst hl; cases ha⟩
    | own _ hmove => exact ⟨hmove.gone_back hg, fun hl => by subst hl; cases hmove⟩
    | replaced _ _ => exact ⟨hg, by simp⟩
    | dropped hti _ _ _ => exact ⟨hg, by simpa using hti⟩
    | removed _ _ => cases hg
  · -- the request that has spawned it has still to insert its entry
    obtain ⟨pc, hr', hc⟩ := request_change hm hr
    cases hc with
    | other ha => exact absurd rfl ha
    | spawn _ => exact .inr ⟨r, _, ⟨_, hr', rfl, rfl⟩, rfl⟩
    | failed h _ => simp at h

/-- The key that a step changes is the one it inserts or removes. -/
theorem lookup_move {s s' : State K P} {l : Label K P} (hm : Move s l s') (k : K) :
    s'.servers.lookup k = s.servers.lookup k ∨
      (∃ r t, l = .insert r ∧ s.At r k (.cloned t) ∧ s'.servers.lookup k = some t) ∨
      (∃ t task, l = .remove t ∧ s.tasks[t]? = some task ∧ task.key = k ∧
        task.phase = .listenerClosed ∧ s'.servers.lookup k = none) := by
  cases hm with
  | @insert r req t hr hpc _ =>
    have hsrv : ((s.insertEntry req.key t).setPc r (.waiting t)).servers =
        AssocMap.insert s.servers req.key t := insertEntry_servers s req.key t
    rw [hsrv]
    by_cases hk : k = req.key
    · subst hk
      exact .inr (.inl ⟨r, t, rfl, State.at_of hr hpc, AssocMap.lookup_insert_self _ _ _⟩)
    · exact .inl (AssocMap.lookup_insert_of_ne _ _ hk)
  | @remove t task ht hp _ =>
    have hsrv : ((s.removeEntry task.key).updTask t fun k => { k with phase := .removed }).servers =
        AssocMap.erase s.servers task.key := removeEntry_servers s task.key
    rw [hsrv]
    by_cases hk : k = task.key
    · subst hk
      exact .inr (.inr ⟨t, task, rfl, ht, rfl, hp, AssocMap.lookup_erase_self _ _⟩)
    · exact .inl (AssocMap.lookup_erase_of_ne _ hk)
  | _ => exact .inl rfl

theorem lookup_inserted {s s' : State K P} {r t : Nat} {k : K} (hm : Move s (.insert r) s')
    (hr : s.At r k (.cloned t)) : s'.servers.lookup k = some t := by
  cases hm with
  | @insert _ req _ hr₀ hpc _ =>
    obtain ⟨rfl, hcl⟩ := hr.inj (State.at_of hr₀ hpc)
    cases hcl
    show (s.insertEntry req.key t).servers.lookup req.key = some t
    rw [insertEntry_servers, AssocMap.lookup_insert_self]
  | leave h _ _ => simp at h
  | task ha _ _ => cases ha

/-- A task is aborted by the step that drops its entry: an insert that
replaces it, or a removal. -/
theorem aborted_move {s s' : State K P} {l : Label K P} {u : Nat} {task task' : Task K P}
    (hm : Move s l s') (ht : s.tasks[u]? = some task) (ht' : s'.tasks[u]? = some task')
    (ha : task.aborted = false) (ha' : task'.aborted = true) :
    (∃ r key t, l = .insert r ∧ s.At r key (.cloned t) ∧ s.servers.lookup key = some u) ∨
      ∃ t task, l = .remove t ∧ s.tasks[t]? = some task ∧ task.phase = .listenerClosed ∧
        s.servers.lookup task.key = some u := by
  obtain ⟨task₁, ht₁, hc⟩ := task_change hm ht
  rw [ht', Option.some.injEq] at ht₁
  subst ht₁
  cases hc with
  | replaced hr hk => exact .inl ⟨_, _, _, rfl, hr, hk⟩
  | dropped _ ht₀ hp hk => exact .inr ⟨_, _, rfl, ht₀, hp, hk⟩
  | removed hp h =>
    rcases h with rfl | hk
    · rw [ha] at ha'
      cases ha'
    · exact .inr ⟨u, task, rfl, ht, hp, hk⟩
  | own _ hmove =>
    rw [hmove.same.2.2.2, ha] at ha'
    cases ha'
  | other _ | used _ _ =>
    rw [ha] at ha'
    cases ha'

/-! ## One builder and one listener for each key -/

/-- The request whose bind the step is, if it succeeds. -/
def Label.binds : Label K P → Option Nat
  | .bind r true => some r
  | _ => none

/-- A bind succeeds only while its key has no entry and nobody else is
between bind and insert for it. -/
def Exclusive (s : State K P) (l : Label K P) : Prop :=
  ∀ r ∈ l.binds, ∀ req ∈ s.requests[r]?, s.servers.lookup req.key = none ∧
    ∀ req' ∈ s.requests, req'.key = req.key → req'.pc.building = false

instance (s : State K P) (l : Label K P) : Decidable (Exclusive s l) :=
  inferInstanceAs (Decidable (∀ r ∈ l.binds, ∀ req ∈ s.requests[r]?,
    s.servers.lookup req.key = none ∧
      ∀ req' ∈ s.requests, req'.key = req.key → req'.pc.building = false))

/-- While a request is building its key has no entry and no other builder,
and every task that is not gone has its entry or its creator. -/
structure Sole (s : State K P) : Prop where
  free : ∀ r key pc, s.At r key pc → pc.building = true → s.servers.lookup key = none
  unique : ∀ r r' key pc pc', s.At r key pc → s.At r' key pc' → pc.building = true →
    pc'.building = true → r = r'
  owner : ∀ (t : Nat) task, s.tasks[t]? = some task → task.phase.gone = false →
    s.servers.lookup task.key = some t ∨ s.Creates task.key t

omit [DecidableEq K] in
theorem State.Creates.building {s : State K P} {key : K} {t : Nat} (h : s.Creates key t) :
    ∃ r pc, s.At r key pc ∧ pc.building = true := by
  obtain ⟨r, pc, hr, ht⟩ := h
  exact ⟨r, pc, hr, Pc.building_of_creating ht⟩

/-- A task that is about to remove its key finds its own entry or none. -/
theorem Sole.removes {s : State K P} (h : Sole s) {t : Nat} {task : Task K P}
    (ht : s.tasks[t]? = some task) (hg : task.phase.gone = false) :
    s.servers.lookup task.key = none ∨ s.servers.lookup task.key = some t := by
  rcases h.owner t task ht hg with hs | hc
  · exact .inr hs
  · obtain ⟨r, pc, hr, hb⟩ := hc.building
    exact .inl (h.free r task.key pc hr hb)

theorem Exclusive.bind {s : State K P} {i : Nat} {k : K} {p : Pc} (h : Exclusive s (.bind i true))
    (hp : s.At i k p) : s.servers.lookup k = none ∧
      ∀ r pc, s.At r k pc → pc.building = false := by
  obtain ⟨req, hr, rfl, -⟩ := hp
  obtain ⟨hfree, hother⟩ := h i rfl req hr
  refine ⟨hfree, fun r pc hr' => ?_⟩
  obtain ⟨req', hreq', hk, rfl⟩ := hr'
  exact hother req' (List.mem_of_getElem? hreq') hk

theorem sole_move {s s' : State K P} {l : Label K P} (h : Sole s) (hx : Exclusive s l)
    (hm : Move s l s') : Sole s' := by
  refine ⟨?_, ?_, ?_⟩
  · intro i k p hp hb
    rcases building_move hm hp hb with ⟨p₀, h0, hb0, hne⟩ | ⟨rfl, p₀, h0⟩
    · rcases lookup_move hm k with heq | ⟨r, t, rfl, hr, -⟩ | ⟨t, task, -, -, -, -, hnone⟩
      · rw [heq]
        exact h.free i k p₀ h0 hb0
      · exact absurd (congrArg Label.insert (h.unique r i k _ p₀ hr h0 rfl hb0)) hne
      · exact hnone
    · rcases lookup_move hm k with heq | ⟨r, t, hl, -⟩ | ⟨t, task, hl, -⟩
      · rw [heq]
        exact (hx.bind h0).1
      · cases hl
      · cases hl
  · intro i j k p p' hp hp' hb hb'
    rcases building_move hm hp hb with ⟨q, hq, hbq, -⟩ | ⟨rfl, q, hq⟩
    · rcases building_move hm hp' hb' with ⟨q', hq', hbq', -⟩ | ⟨rfl, q', hq'⟩
      · exact h.unique i j k q q' hq hq' hbq hbq'
      · rw [(hx.bind hq').2 i q hq] at hbq
        cases hbq
    · rcases building_move hm hp' hb' with ⟨q', hq', hbq', -⟩ | ⟨hl, -⟩
      · rw [(hx.bind hq).2 j q' hq'] at hbq'
        cases hbq'
      · cases hl
        rfl
  · intro t task' ht' hg
    rcases gone_move hm ht' hg with ⟨task, ht, hk, hg0, hne⟩ | hc
    · rw [← hk]
      rcases h.owner t task ht hg0 with hs | hc
      · -- its entry stays: nobody inserts under its key, and only it removes it
        rcases lookup_move hm task.key with heq | ⟨r, u, -, hr, -⟩ | ⟨u, tu, rfl, hu, hku, hpu, -⟩
        · exact .inl (heq.trans hs)
        · rw [h.free r task.key _ hr rfl] at hs
          cases hs
        · rcases h.removes hu (hpu ▸ rfl) with hn | hself
          · rw [hku, hs] at hn
            cases hn
          · rw [hku, hs, Option.some.injEq] at hself
            exact absurd (congrArg Label.remove hself.symm) hne
      · rcases creates_move hm hc with hc' | ⟨r, rfl, hr⟩
        · exact .inr hc'
        · exact .inl (lookup_inserted hm hr)
    · exact .inr hc

theorem sole_inductive :
    ((registry : LTS (State K P) (Label K P)).guard Exclusive).Inductive Sole where
  init s hs := by
    rw [show s = empty from hs]
    exact ⟨by simp [empty, State.At], by simp [empty, State.At], by simp [empty]⟩
  step _ _ _ h hs := sole_move h hs.2 (move_of_step hs.1)

/-- **A task removes only itself.** In every run in which each bind that
succeeds does so while its key is unused, an insert replaces no entry, the
key a task removes has its own entry or none, and a task is aborted by no
step but its own removal. -/
theorem removes_only_itself (s : State K P)
    (hr : ((registry : LTS (State K P) (Label K P)).guard Exclusive).Reachable s) :
    (∀ r key t, s.At r key (.cloned t) → s.servers.lookup key = none) ∧
    (∀ (t : Nat) task, s.tasks[t]? = some task → task.phase = .listenerClosed →
      s.servers.lookup task.key = none ∨ s.servers.lookup task.key = some t) ∧
    ∀ l s', step s l = some s' → ∀ (u : Nat) task task', s.tasks[u]? = some task →
      s'.tasks[u]? = some task' → task.aborted = false → task'.aborted = true → l = .remove u := by
  have h := sole_inductive.reachable s hr
  refine ⟨fun r key t hat => h.free r key _ hat rfl, fun t task ht hp => h.removes ht (hp ▸ rfl), ?_⟩
  intro l s' hs u task task' ht ht' ha ha'
  rcases aborted_move (move_of_step hs) ht ht' ha ha' with ⟨r, key, t, -, hat, hu⟩ | ⟨t, tt, rfl, htt, hp, hu⟩
  · rw [h.free r key _ hat rfl] at hu
    cases hu
  · rcases h.removes htt (hp ▸ rfl) with hn | hself
    · rw [hn] at hu
      cases hu
    · rw [hself, Option.some.injEq] at hu
      rw [hu]

/-! ## Two requests on port 0 -/

open Wstunnel.L1

/-- 127.0.0.1:0, on which every bind succeeds. -/
def anyPort : SocketAddr := ⟨.v4 0x7F000001, 0⟩

/-- The second request looks up when the first has inserted its entry. -/
def oneAfterTheOther : List (Label SocketAddr Unit) :=
  [.arrive anyPort (), .lookup 0, .bind 0 true, .spawn 0, .fetchAdd 0, .clone 0, .insert 0, .start 0,
   .arrive anyPort (), .lookup 1, .fetchAdd 1, .clone 1, .acceptNone 0, .closeListener 0]

/-- Task 0 is about to remove its key, and finds its own entry. -/
theorem removes_only_itself_oneAfterTheOther :
    ∃ s : State SocketAddr Unit, (registry.guard Exclusive).Reachable s ∧
      (s.tasks[0]?).map (·.phase) = some .listenerClosed ∧
      (s.servers.lookup anyPort = none ∨ s.servers.lookup anyPort = some 0) := by
  obtain ⟨s, hs, ht⟩ : ∃ s : State SocketAddr Unit,
      LTS.exec (fun s l => if Exclusive s l then step s l else none) empty oneAfterTheOther = some s ∧
      s.tasks[0]? = some ⟨anyPort, (), .listenerClosed, 2, 3, [], false⟩ := ⟨_, rfl, by decide⟩
  have hr : ((registry : LTS (State SocketAddr Unit) _).guard Exclusive).Reachable s :=
    ⟨empty, oneAfterTheOther, rfl, LTS.run_guard_ofFn hs⟩
  refine ⟨s, hr, by rw [ht]; rfl, ?_⟩
  exact (removes_only_itself s hr).2.1 0 _ ht rfl

/-- Both requests miss and bind before either inserts. -/
def bothMiss : List (Label SocketAddr Unit) :=
  [.arrive anyPort (), .arrive anyPort (), .lookup 0, .lookup 1, .bind 0 true, .bind 1 true,
   .spawn 0, .fetchAdd 0, .clone 0, .insert 0, .start 0, .spawn 1, .fetchAdd 1, .clone 1, .start 1]

/-- The second insert replaces the entry of a running listener and aborts it;
the clean-up of that listener then removes the entry of the second one, which
is running, and aborts it too. -/
theorem secondInsert_aborts_bothListeners :
    (∃ s : State SocketAddr Unit, registry.Reachable s ∧ s.At 1 anyPort (.cloned 1) ∧
      s.servers.lookup anyPort = some 0 ∧ (s.tasks[0]?).map (·.phase) = some .loop) ∧
    ∃ s s' : State SocketAddr Unit, registry.Reachable s ∧ step s (.remove 0) = some s' ∧
      s.servers.lookup anyPort = some 1 ∧
      (s.tasks[1]?).map (fun t => (t.phase, t.aborted)) = some (.loop, false) ∧
      (s'.tasks[1]?).map (·.aborted) = some true := by
  refine ⟨?_, ?_⟩
  · obtain ⟨s, hs, hat, h⟩ : ∃ s : State SocketAddr Unit, LTS.exec step empty bothMiss = some s ∧
        s.requests[1]? = some ⟨anyPort, (), .cloned 1⟩ ∧
        s.servers.lookup anyPort = some 0 ∧ (s.tasks[0]?).map (·.phase) = some .loop :=
      ⟨_, rfl, by decide⟩
    exact ⟨s, ⟨empty, bothMiss, rfl, LTS.run_ofFn.mpr hs⟩, ⟨_, hat, rfl, rfl⟩, h⟩
  · obtain ⟨s, hs, h⟩ : ∃ s : State SocketAddr Unit,
        LTS.exec step empty (bothMiss ++ [.insert 1, .abort 0, .closeListener 0]) = some s ∧
        ∃ s', step s (.remove 0) = some s' ∧ s.servers.lookup anyPort = some 1 ∧
          (s.tasks[1]?).map (fun t => (t.phase, t.aborted)) = some (.loop, false) ∧
          (s'.tasks[1]?).map (·.aborted) = some true := ⟨_, rfl, _, rfl, by decide⟩
    obtain ⟨s', h⟩ := h
    exact ⟨s, s', ⟨empty, _, rfl, LTS.run_ofFn.mpr hs⟩, h⟩

end Wstunnel.L5.ReverseTunnel
