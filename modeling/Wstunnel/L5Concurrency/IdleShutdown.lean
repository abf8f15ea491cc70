import Wstunnel.L5Concurrency.Ownership

/-!
# The idle timer of a listener task

On a tick the task swaps the client counter to zero and then reads the
number of receivers; if it finds no client and no receiver but the entry's
own, it ends. Clients raise both numbers under the lock of the map, which
the task does not take, and the entry stays in the map until the task has
closed its listener and removed it.

Beside the state, `idle` records the tasks that have left their loop through
the idle branch.

**Third-party code.** `receiver_count` of `async_channel` counts the receivers that
are there when it is called, the entry's own among them. Of the two relaxed atomics
only that each is read and written in one step is used.

**Results.**
* `waiting_not_idle`: in every run in which a task takes that branch only
  while no request is attaching to it and its entry has not been dropped,
  and no request finds the entry of a task that has taken it, no request is
  left waiting for such a task. The receiver count is why: it is at least
  the number of requests that wait (`Counted`).
* `lateClient_fails`: a request that attaches between the test and the
  removal of the key fails because of the idle timeout alone.
-/
namespace Wstunnel.L5.ReverseTunnel

/-- The task of which the request holds a receiver. -/
def Pc.awaits : Pc → Option Nat
  | .cloned t | .waiting t => some t
  | _ => none

/-- The task to which the request is attaching: it has found or spawned it,
and has not cloned its receiver yet. -/
def Pc.attaching : Pc → Option Nat
  | .found t | .foundCounted t | .spawned t | .counted t => some t
  | _ => none

theorem Pc.task_cases {pc : Pc} {t : Nat} (h : pc.task = some t) :
    pc.attaching = some t ∨ pc.awaits = some t := by
  cases pc <;> first | exact .inl h | exact .inr h

variable {K P : Type}

/-- How many requests hold a receiver of task `t`. -/
def State.awaiting (s : State K P) (t : Nat) : Nat :=
  s.requests.countP fun req => req.pc.awaits = some t

/-- The task that the step ends through the idle branch. -/
def State.idleExit (s : State K P) : Label K P → Option Nat
  | .count t => (s.tasks[t]?).bind fun task =>
      if task.phase = .swapped true ∧ task.receivers ≤ 1 then some t else none
  | _ => none

def idleNext (s : State K P) (l : Label K P) (idle : List Nat) : List Nat :=
  (s.idleExit l).toList ++ idle

/-! ## Counting receivers -/

theorem awaiting_setPc {s : State K P} {r : Nat} {req : Request K P} (hr : s.requests[r]? = some req)
    (pc : Pc) (t : Nat) :
    (s.setPc r pc).awaiting t + (if req.pc.awaits = some t then 1 else 0) =
      s.awaiting t + (if pc.awaits = some t then 1 else 0) := by
  have h := LTS.countP_modify (fun q : Request K P => decide (q.pc.awaits = some t))
    (fun q => { q with pc }) hr
  simpa [State.awaiting, State.setPc] using h

/-- A task has a receiver for each request that holds one, and one more
while its entry has not been dropped. -/
def Counted (s : State K P) : Prop :=
  ∀ (t : Nat) task, s.tasks[t]? = some task →
    (if task.aborted then 0 else 1) + s.awaiting t ≤ task.receivers

theorem counted_setPc {s : State K P} {r : Nat} {req : Request K P} {pc : Pc} (h : Counted s)
    (hr : s.requests[r]? = some req) (hpc : pc.awaits = req.pc.awaits) : Counted (s.setPc r pc) := by
  intro t task ht
  have hc := awaiting_setPc hr pc t
  have hold := h t task ht
  rw [hpc] at hc
  omega

theorem counted_updTask {s : State K P} {t : Nat} {f : Task K P → Task K P} (h : Counted s)
    (hf : ∀ task, s.tasks[t]? = some task →
      (f task).aborted = task.aborted ∧ (f task).receivers = task.receivers) :
    Counted (s.updTask t f) := by
  intro u task' hu
  rw [getElem?_updTask, Option.map_eq_some_iff] at hu
  obtain ⟨task, ht, rfl⟩ := hu
  have hold := h u task ht
  by_cases htu : t = u
  · subst htu
    rw [if_pos rfl, (hf task ht).1, (hf task ht).2]
    exact hold
  · rw [if_neg htu]
    exact hold

/-- A request moves and its task's receivers with it. -/
theorem counted_use {s : State K P} {r t : Nat} {req : Request K P} {pc : Pc}
    {f : Task K P → Task K P} (h : Counted s) (hr : s.requests[r]? = some req)
    (hpc : ∀ u, t ≠ u → (pc.awaits = some u ↔ req.pc.awaits = some u))
    (hf : ∀ k, (f k).aborted = k.aborted ∧ k.receivers + (if pc.awaits = some t then 1 else 0) ≤
      (f k).receivers + (if req.pc.awaits = some t then 1 else 0)) :
    Counted ((s.updTask t f).setPc r pc) := by
  intro u task' hu
  have hu' : (s.updTask t f).tasks[u]? = some task' := hu
  rw [getElem?_updTask, Option.map_eq_some_iff] at hu'
  obtain ⟨task, ht, rfl⟩ := hu'
  have hold := h u task ht
  have hc : (s.setPc r pc).awaiting u + _ = s.awaiting u + _ := awaiting_setPc hr pc u
  show _ + (s.setPc r pc).awaiting u ≤ _
  by_cases htu : t = u
  · subst htu
    obtain ⟨ha, hle⟩ := hf task
    rw [if_pos rfl, ha]
    omega
  · simp only [hpc u htu] at hc
    rw [if_neg htu]
    omega

/-- A request clones a receiver. -/
theorem counted_clone {s : State K P} {r t : Nat} {req : Request K P} {pc : Pc} (h : Counted s)
    (hr : s.requests[r]? = some req) (hpc : req.pc.awaits = none) (hpc' : pc.awaits = some t) :
    Counted ((s.updTask t fun k => { k with receivers := k.receivers + 1 }).setPc r pc) := by
  refine counted_use h hr (fun u htu => ?_) fun k => ⟨rfl, ?_⟩
  · simp [hpc, hpc', htu]
  · simp [hpc, hpc']

/-- A request drops the receiver it waited on. -/
theorem counted_leave {s : State K P} {r t : Nat} {req : Request K P} {pc : Pc}
    {f : Task K P → Task K P} (h : Counted s) (hr : s.requests[r]? = some req)
    (hpc : req.pc.awaits = some t) (hpc' : pc.awaits = none)
    (hf : ∀ k, (f k).aborted = k.aborted ∧ (f k).receivers = k.receivers - 1) :
    Counted ((s.updTask t f).setPc r pc) := by
  refine counted_use h hr (fun u htu => ?_) fun k => ⟨(hf k).1, ?_⟩
  · simp [hpc, hpc', htu]
  · simp only [hpc, hpc', (hf k).2, reduceCtorEq, ↓reduceIte]
    omega

variable [DecidableEq K]

/-- The entry of `key` is dropped with its receiver; it was there once. -/
theorem counted_removeEntry {s : State K P} (ho : Owned s) (h : Counted s) (key : K) :
    Counted (s.removeEntry key) := by
  intro u task' hu
  rw [getElem?_removeEntry, Option.map_eq_some_iff] at hu
  obtain ⟨task, ht, rfl⟩ := hu
  have hold := h u task ht
  have haw : (s.removeEntry key).awaiting u = s.awaiting u := by
    simp only [State.awaiting, removeEntry_requests]
  rw [haw]
  by_cases hk : s.servers.lookup key = some u
  · obtain ⟨task₀, ht₀, -, ha⟩ := ho.entry _ (AssocMap.mem_of_lookup hk)
    rw [ht, Option.some.injEq] at ht₀
    subst ht₀
    simp only [hk, ha, ↓reduceIte, Bool.false_eq_true] at hold ⊢
    omega
  · rw [if_neg hk]
    exact hold

/-- No task is used that has not been spawned. -/
def UsesExist (s : State K P) : Prop :=
  ∀ (i : Nat) req, s.requests[i]? = some req → ∀ t, req.pc.task = some t → t < s.tasks.length

omit [DecidableEq K] in
theorem awaiting_eq_zero {s : State K P} {t : Nat}
    (h : ∀ req ∈ s.requests, req.pc.awaits ≠ some t) : s.awaiting t = 0 := by
  rw [State.awaiting, List.countP_eq_zero]
  intro req hr
  simpa using h req hr

omit [DecidableEq K] in
theorem Pc.task_of_awaits {pc : Pc} {t : Nat} (h : pc.awaits = some t) : pc.task = some t := by
  cases pc <;> first | exact h | cases h

theorem counted_move {s s' : State K P} {l : Label K P} (ho : Owned s) (hu : UsesExist s)
    (h : Counted s) (hm : Move s l s') : Counted s' := by
  cases hm with
  | arrive key params =>
    intro t task ht
    have haw : ({ s with requests := s.requests ++ [⟨key, params, .lookup⟩] } : State K P).awaiting t =
        s.awaiting t := by
      simp [State.awaiting, Pc.awaits]
    rw [haw]
    exact h t task ht
  | found hr hpc _ _ => exact counted_setPc h hr (hpc ▸ rfl)
  | missed hr hpc _ => exact counted_setPc h hr (hpc ▸ rfl)
  | giveUp hr hpc => exact counted_setPc h hr (hpc ▸ rfl)
  | bind hr hpc ok => exact counted_setPc h hr (by rw [hpc]; cases ok <;> rfl)
  | count hr hpc | countNew hr hpc =>
    exact counted_setPc (counted_updTask h fun _ _ => ⟨rfl, rfl⟩) hr (hpc ▸ rfl)
  | clone hr hpc => exact counted_clone h hr (hpc ▸ rfl) rfl
  | cloneNew hr hpc => exact counted_clone h hr (hpc ▸ rfl) rfl
  | recv hr hpc _ _ => exact counted_leave h hr (hpc ▸ rfl) rfl fun _ => ⟨rfl, rfl⟩
  | leave _ hr hpc => exact counted_leave h hr (hpc ▸ rfl) rfl fun _ => ⟨rfl, rfl⟩
  | @spawn r req hr hpc =>
    refine counted_setPc (s := { s with tasks := s.tasks ++ [newTask req] }) ?_ hr (hpc ▸ rfl)
    intro t task ht
    show _ + s.awaiting t ≤ _
    rcases Nat.lt_or_ge t s.tasks.length with hi | hi
    · exact h t task ((List.getElem?_append_left hi).symm.trans ht)
    · -- nobody has a receiver of the new task yet
      have hz : s.awaiting t = 0 := awaiting_eq_zero fun req' hr' ha => by
        obtain ⟨i, hreq⟩ := List.mem_iff_getElem?.mp hr'
        have := hu i req' hreq t (Pc.task_of_awaits ha)
        omega
      have ht' : (s.tasks ++ [newTask req])[t]? = some task := ht
      rw [List.getElem?_append_right hi, List.getElem?_singleton] at ht'
      split at ht'
      · cases ht'
        rw [hz]
        exact Nat.le_refl 1
      · cases ht'
  | @insert r req t hr hpc _ =>
    have hc : Counted (s.insertEntry req.key t) := by
      rw [insertEntry_eq]
      exact counted_removeEntry ho h req.key
    have hreq : (s.insertEntry req.key t).requests[r]? = some req := by
      rw [insertEntry_requests, hr]
    exact counted_setPc hc hreq (hpc ▸ rfl)
  | task _ ht hmove =>
    refine counted_updTask h fun task' ht' => ?_
    rw [ht, Option.some.injEq] at ht'
    subst ht'
    exact ⟨hmove.same.2.2.2, hmove.same.2.2.1⟩
  | remove _ _ _ =>
    exact counted_updTask (counted_removeEntry ho h _) fun _ _ => ⟨rfl, rfl⟩

theorem usesExist_move {s s' : State K P} {l : Label K P} (ho : Owned s) (h : UsesExist s)
    (hm : Move s l s') : UsesExist s' := by
  have grows : ∀ t, t < s.tasks.length → t < s'.tasks.length := by
    intro t ht
    obtain ⟨task', ht', -⟩ := task_change hm (List.getElem?_eq_getElem ht)
    exact (List.getElem?_eq_some_iff.mp ht').1
  intro i req hr t ht
  obtain ⟨req₀, hr₀, -, hold | ⟨-, hfound⟩ | ⟨hnew, -⟩⟩ := uses_move hm hr ht
  · exact grows t (h i req₀ hr₀ t hold)
  · exact grows t (ho.entry _ (AssocMap.mem_of_lookup hfound)).lt
  · exact (List.getElem?_eq_some_iff.mp hnew).1

/-! ## Requests and the idle branch -/

/-- The registry with the tasks that have taken the idle branch. -/
def idleRegistry : LTS (State K P × List Nat) (Label K P) :=
  LTS.ofFn (· = (empty, [])) (LTS.track step idleNext)

/-- A task takes the idle branch while its entry has not been dropped and
nobody is attaching to it, and a request does not find a task that has. -/
def Settled (x : State K P × List Nat) : Label K P → Prop
  | .count t => x.1.idleExit (.count t) = some t →
      (∀ task ∈ x.1.tasks[t]?, task.aborted = false) ∧
        ∀ req ∈ x.1.requests, req.pc.attaching ≠ some t
  | .lookup r => ∀ req ∈ x.1.requests[r]?, ∀ t ∈ x.1.servers.lookup req.key, t ∉ x.2
  | _ => True

instance (x : State K P × List Nat) (l : Label K P) : Decidable (Settled x l) := by
  unfold Settled
  split <;> infer_instance

/-- The invariant: no request uses a task that has taken the idle branch. -/
structure Attended (s : State K P) (idle : List Nat) : Prop where
  owned : Owned s
  exist : UsesExist s
  counted : Counted s
  past : ∀ t ∈ idle, t < s.tasks.length
  free : ∀ (i : Nat) req, s.requests[i]? = some req → ∀ t, req.pc.task = some t → t ∉ idle

omit [DecidableEq K] in
theorem idleExit_eq_some {s : State K P} {l : Label K P} {t : Nat} (h : s.idleExit l = some t) :
    l = .count t ∧ ∃ task, s.tasks[t]? = some task ∧ task.receivers ≤ 1 := by
  cases l with
  | count u =>
    obtain ⟨task, ht, hif⟩ := Option.bind_eq_some_iff.mp h
    simp only [Option.ite_none_right_eq_some, Option.some.injEq] at hif
    obtain ⟨⟨-, hr⟩, rfl⟩ := hif
    exact ⟨rfl, task, ht, hr⟩
  | _ => cases h

/-- A task that takes the idle branch is used by nobody: whoever is attaching
is ruled out, and whoever holds a receiver would have been counted. -/
theorem Attended.unused {x : State K P × List Nat} {l : Label K P} {t : Nat} (h : Attended x.1 x.2)
    (hs : Settled x l) (hexit : x.1.idleExit l = some t) {i : Nat} {req : Request K P}
    (hr : x.1.requests[i]? = some req) : req.pc.task ≠ some t := by
  intro htask
  obtain ⟨rfl, task, ht, hrecv⟩ := idleExit_eq_some hexit
  obtain ⟨hlive, hattach⟩ := hs hexit
  have hmem : req ∈ x.1.requests := List.mem_of_getElem? hr
  rcases Pc.task_cases htask with ha | ha
  · exact hattach req hmem ha
  · have hpos : 0 < x.1.awaiting t := by
      rw [State.awaiting, List.countP_pos_iff]
      exact ⟨req, hmem, by simpa using ha⟩
    have hcount := h.counted t task ht
    rw [hlive task ht] at hcount
    simp only [Bool.false_eq_true, ↓reduceIte] at hcount
    omega

theorem attended_move {x : State K P × List Nat} {s' : State K P} {l : Label K P}
    (h : Attended x.1 x.2) (hs : Settled x l) (hm : Move x.1 l s') :
    Attended s' (idleNext x.1 l x.2) := by
  have past : ∀ t ∈ idleNext x.1 l x.2, t < x.1.tasks.length := by
    intro t ht
    rcases List.mem_append.mp ht with hnew | hold
    · obtain ⟨-, task, htask, -⟩ := idleExit_eq_some (Option.mem_toList.mp hnew)
      exact (List.getElem?_eq_some_iff.mp htask).1
    · exact h.past t hold
  refine ⟨move_owned h.owned hm, usesExist_move h.owned h.exist hm,
    counted_move h.owned h.exist h.counted hm, fun t ht => ?_, fun i req hr t ht hidle => ?_⟩
  · obtain ⟨task', ht', -⟩ := task_change hm (List.getElem?_eq_getElem (past t ht))
    exact (List.getElem?_eq_some_iff.mp ht').1
  · obtain ⟨req₀, hr₀, -, hold | ⟨rfl, hfound⟩ | ⟨-, hnew⟩⟩ := uses_move hm hr ht
    · rcases List.mem_append.mp hidle with hexit | hin
      · exact h.unused hs (Option.mem_toList.mp hexit) hr₀ hold
      · exact h.free i req₀ hr₀ t hold hin
    · exact hs req₀ hr₀ t hfound hidle
    · have := past t hidle
      omega

theorem attended_inductive : ((idleRegistry : LTS (State K P × List Nat) (Label K P)).guard
    Settled).Inductive fun x => Attended x.1 x.2 where
  init x hx := by
    rw [show x = (empty, []) from hx]
    exact ⟨owned_empty, by simp [UsesExist, empty], by simp [Counted, empty], by simp, by simp⟩
  step x l y h hs := by
    obtain ⟨hs, hsettled⟩ := hs
    obtain ⟨hstep, hidle⟩ := LTS.track_eq_some.mp hs
    rw [hidle]
    exact attended_move h hsettled (move_of_step hstep)

/-- **Idle shutdown abandons nobody.** In every run in which a task takes the
idle branch only while no request is attaching to it and its entry is there,
and no look-up finds a task that has taken it, no request waits for a task
that has taken the idle branch. -/
theorem waiting_not_idle (x : State K P × List Nat)
    (hr : ((idleRegistry : LTS (State K P × List Nat) (Label K P)).guard Settled).Reachable x)
    (r t : Nat) (key : K) (hw : x.1.At r key (.waiting t)) : t ∉ x.2 := by
  obtain ⟨req, hreq, -, hpc⟩ := hw
  exact (attended_inductive.reachable x hr).free r req hreq t (hpc ▸ rfl)

/-! ## A client that comes too late -/

/-- One client comes and goes, the listener idles out, and its task ends with
nobody waiting. A second client is served by another listener. -/
def comeAndGo : List (Label Nat Unit) :=
  [.arrive 0 (), .lookup 0, .bind 0 true, .spawn 0, .fetchAdd 0, .clone 0, .insert 0, .start 0,
   .tick 0, .count 0, .cancel 0, .tick 0, .count 0, .closeListener 0, .remove 0, .finish 0,
   .arrive 0 (), .lookup 1, .bind 1 true, .spawn 1, .fetchAdd 1, .clone 1, .insert 1]

theorem waiting_not_idle_comeAndGo :
    ∃ x : State Nat Unit × List Nat, (idleRegistry.guard Settled).Reachable x ∧ x.2 = [0] ∧
      x.1.At 1 0 (.waiting 1) ∧ 1 ∉ x.2 := by
  obtain ⟨x, hs, hidle, hat⟩ : ∃ x : State Nat Unit × List Nat,
      LTS.exec (fun x l => if Settled x l then LTS.track step idleNext x l else none) (empty, [])
        comeAndGo = some x ∧ x.2 = [0] ∧ x.1.requests[1]? = some ⟨0, (), .waiting 1⟩ :=
    ⟨_, rfl, by decide⟩
  have hr : ((idleRegistry : LTS (State Nat Unit × List Nat) _).guard Settled).Reachable x :=
    ⟨_, comeAndGo, rfl, LTS.run_guard_ofFn hs⟩
  have hw : x.1.At 1 0 (.waiting 1) := ⟨_, hat, rfl, rfl⟩
  exact ⟨x, hr, hidle, hw, waiting_not_idle x hr 1 1 0 hw⟩

/-- The second client attaches after the idle test and before the removal of
the key. -/
def lateClient : List (Label Nat Unit) :=
  [.arrive 0 (), .lookup 0, .bind 0 true, .spawn 0, .fetchAdd 0, .clone 0, .insert 0, .start 0,
   .tick 0, .count 0, .cancel 0, .tick 0, .count 0, .arrive 0 (), .lookup 1, .fetchAdd 1, .clone 1,
   .closeListener 0, .remove 0, .finish 0]

/-- It waits for a task that has taken the idle branch, and its `recv` fails. -/
theorem lateClient_fails :
    ∃ x y : State Nat Unit × List Nat, idleRegistry.Reachable x ∧ x.1.At 1 0 (.waiting 0) ∧ 0 ∈ x.2 ∧
      idleRegistry.step x (.recvErr 1) y ∧ y.1.At 1 0 .failed := by
  obtain ⟨x, hs, hat, hidle, y, hy, hat'⟩ : ∃ x : State Nat Unit × List Nat,
      LTS.exec (LTS.track step idleNext) (empty, []) lateClient = some x ∧
      x.1.requests[1]? = some ⟨0, (), .waiting 0⟩ ∧ 0 ∈ x.2 ∧
      ∃ y, LTS.track step idleNext x (.recvErr 1) = some y ∧
        y.1.requests[1]? = some ⟨0, (), .failed⟩ := ⟨_, rfl, by decide, by decide, _, rfl, by decide⟩
  exact ⟨x, y, ⟨_, lateClient, rfl, LTS.run_ofFn.mpr hs⟩, ⟨_, hat, rfl, rfl⟩, hidle, hy,
    ⟨_, hat', rfl, rfl⟩⟩

end Wstunnel.L5.ReverseTunnel
