import Wstunnel.Core.AssocMap
import Wstunnel.Core.LTS

/-!
# The reverse-tunnel registry

`ReverseTunnelServer` of `tunnel/server/reverse_tunnel.rs`: a map `servers`
from bind address to listener, one task per listener, and any number of
requests running `run_listening_server`, all interleaved. The lock of the
map is held over the lookup and its `get_cnx_awaiter`, over the insert, and
over the removal; the client counter and the receiver count are atomics that
the task reads without it.

**Third-party code.**
* `parking_lot::Mutex` keeps out every step that needs the lock while a request
  holds it (`State.lock`).
* `async_channel::bounded(10)` hands every connection to one receiver, in order;
  `receiver_count` is the number of receivers that are there when it is read.
* An abort takes effect at an `await` of the task. Its locals are dropped then, the
  guard that removes the key among them; a task that is aborted before its first
  poll has no guard yet.
* Whether a bind succeeds, when a connection comes or fails, when timers fire and
  when a request is cancelled is left to the labels.

The counter and the receiver count are each read and written in one step; nothing is
assumed of the order between them.

**Results.**
* `Move`: what a step of a request or of a task can find and leave. The invariants
  of the modules over this one are proved over its cases: who owns a task
  (`Ownership`), dead entries (`DeadEntry`), what a task removes (`OwnRemoval`), the
  idle timer (`IdleShutdown`) and what a listener was made for (`SharedListener`).
-/
namespace Wstunnel.L5.ReverseTunnel

/-- Where a listener task is. `swapped` is between the two reads of the idle
tick, and holds whether the counter was zero. After the loop the locals go in
reverse order: the listener is closed, the key removed, the sender dropped. -/
inductive Phase where
  | notStarted
  | loop
  | sending (cnx : Nat)
  | swapped (idle : Bool)
  | exiting
  | listenerClosed
  | removed
  | finished
  deriving DecidableEq, Repr

/-- The removal step has been executed, or never will be: a task dropped
before its first poll has no guard to run. -/
def Phase.gone : Phase → Bool
  | .removed | .finished => true
  | _ => false

/-- A listener task with the channel and the counter it shares with its
entry. `params` is what the listener was created with. -/
structure Task (K P : Type) where
  key : K
  params : P
  phase : Phase
  seen : Nat
  receivers : Nat
  queue : List Nat
  aborted : Bool
  deriving DecidableEq, Repr

/-- Where a request is. `found` and `foundCounted` hold the lock. From
`spawned` to `cloned` it has created the task but not inserted the entry. -/
inductive Pc where
  | lookup
  | found (t : Nat)
  | foundCounted (t : Nat)
  | binding
  | bound
  | spawned (t : Nat)
  | counted (t : Nat)
  | cloned (t : Nat)
  | waiting (t : Nat)
  | got (cnx : Nat)
  | failed
  deriving DecidableEq, Repr

/-- The task whose entry the request has still to insert. -/
def Pc.creating : Pc → Option Nat
  | .spawned t | .counted t | .cloned t => some t
  | _ => none

/-- The entry's task, while the request holds the lock over what it found. -/
def Pc.looked : Pc → Option Nat
  | .found t | .foundCounted t => some t
  | _ => none

structure Request (K P : Type) where
  key : K
  params : P
  pc : Pc
  deriving DecidableEq, Repr

structure State (K P : Type) where
  servers : List (K × Nat)
  tasks : List (Task K P)
  requests : List (Request K P)
  /-- the request that holds the lock across steps -/
  lock : Option Nat
  deriving DecidableEq, Repr

inductive Label (K P : Type) where
  | arrive (key : K) (params : P)
  | lookup (r : Nat)
  | fetchAdd (r : Nat)
  | clone (r : Nat)
  | bind (r : Nat) (ok : Bool)
  | spawn (r : Nat)
  | insert (r : Nat)
  | recv (r : Nat)
  | recvErr (r : Nat)
  | cancel (r : Nat)
  | start (t : Nat)
  | accept (t : Nat) (cnx : Nat)
  | acceptErr (t : Nat)
  | acceptNone (t : Nat)
  | send (t : Nat)
  | sendTimeout (t : Nat)
  | tick (t : Nat)
  | count (t : Nat)
  | abort (t : Nat)
  | closeListener (t : Nat)
  | remove (t : Nat)
  | finish (t : Nat)
  deriving DecidableEq, Repr

variable {K P : Type}

def State.updTask (s : State K P) (t : Nat) (f : Task K P → Task K P) : State K P :=
  { s with tasks := s.tasks.modify t f }

def State.setPc (s : State K P) (r : Nat) (pc : Pc) : State K P :=
  { s with requests := s.requests.modify r fun req => { req with pc } }

/-- Dropping a `ReverseTunnelItem`: its receiver goes and its task is aborted. -/
def State.dropItem (s : State K P) : Option Nat → State K P
  | none => s
  | some t => s.updTask t fun task => { task with receivers := task.receivers - 1, aborted := true }

section Steps
variable [DecidableEq K]

/-- `servers.lock().insert(key, item)`; the entry it replaces is dropped. -/
def State.insertEntry (s : State K P) (key : K) (t : Nat) : State K P :=
  ({ s with servers := AssocMap.insert s.servers key t } : State K P).dropItem
    (s.servers.lookup key)

/-- `servers.lock().remove(&key)`; the entry removed is dropped. -/
def State.removeEntry (s : State K P) (key : K) : State K P :=
  ({ s with servers := AssocMap.erase s.servers key } : State K P).dropItem (s.servers.lookup key)

/-- A new channel, counter and task for the listener the request has bound. -/
def newTask (req : Request K P) : Task K P where
  key := req.key
  params := req.params
  phase := .notStarted
  seen := 0
  receivers := 1
  queue := []
  aborted := false

/-- A step of request `r`.
mirrors wstunnel/src/tunnel/server/reverse_tunnel.rs:62-76 and 114-130 -/
def requestStep (s : State K P) (r : Nat) (req : Request K P) :
    Label K P → Option (State K P)
  | .lookup _ =>
    if req.pc = .lookup ∧ s.lock = none then
      match s.servers.lookup req.key with
      | some t => some { s.setPc r (.found t) with lock := some r }
      | none => some (s.setPc r .binding)
    else none
  | .fetchAdd _ => match req.pc with
    | .found t => some ((s.updTask t fun k => { k with seen := k.seen + 1 }).setPc r (.foundCounted t))
    | .spawned t => some ((s.updTask t fun k => { k with seen := k.seen + 1 }).setPc r (.counted t))
    | _ => none
  | .clone _ => match req.pc with
    | .foundCounted t => some { (s.updTask t fun k =>
        { k with receivers := k.receivers + 1 }).setPc r (.waiting t) with lock := none }
    | .counted t => some ((s.updTask t fun k =>
        { k with receivers := k.receivers + 1 }).setPc r (.cloned t))
    | _ => none
  | .bind _ ok =>
    if req.pc = .binding then some (s.setPc r (if ok then .bound else .failed)) else none
  | .spawn _ =>
    if req.pc = .bound then
      some (({ s with tasks := s.tasks ++ [newTask req] } : State K P).setPc r
        (.spawned s.tasks.length))
    else none
  | .insert _ => match req.pc with
    | .cloned t =>
      if s.lock = none then some ((s.insertEntry req.key t).setPc r (.waiting t)) else none
    | _ => none
  | .recv _ => match req.pc with
    | .waiting t => match s.tasks[t]? with
      | some task => match task.queue with
        | cnx :: rest => some ((s.updTask t fun k =>
            { k with queue := rest, receivers := k.receivers - 1 }).setPc r (.got cnx))
        | [] => none
      | none => none
    | _ => none
  | .recvErr _ => match req.pc with
    | .waiting t => match s.tasks[t]? with
      | some task =>
        if task.queue = [] ∧ task.phase = .finished then
          some ((s.updTask t fun k => { k with receivers := k.receivers - 1 }).setPc r .failed)
        else none
      | none => none
    | _ => none
  | .cancel _ => match req.pc with
    | .binding => some (s.setPc r .failed)
    | .waiting t => some ((s.updTask t fun k => { k with receivers := k.receivers - 1 }).setPc r .failed)
    | _ => none
  | _ => none

/-- A step of task `t`. A send fails only by its timeout: with no receiver
left the connection is dropped and the loop goes on.
mirrors wstunnel/src/tunnel/server/reverse_tunnel.rs:77-112 -/
def taskStep (s : State K P) (t : Nat) (task : Task K P) : Label K P → Option (State K P)
  | .start _ =>
    if task.phase = .notStarted then
      some (s.updTask t fun k => { k with phase := if task.aborted then .finished else .loop })
    else none
  | .accept _ cnx =>
    if task.phase = .loop then some (s.updTask t fun k => { k with phase := .sending cnx }) else none
  | .acceptErr _ => if task.phase = .loop then some s else none
  | .acceptNone _ =>
    if task.phase = .loop then some (s.updTask t fun k => { k with phase := .exiting }) else none
  | .send _ => match task.phase with
    | .sending cnx =>
      if task.receivers = 0 then some (s.updTask t fun k => { k with phase := .loop })
      else if task.queue.length < 10 then
        some (s.updTask t fun k => { k with phase := .loop, queue := task.queue ++ [cnx] })
      else none
    | _ => none
  | .sendTimeout _ => match task.phase with
    | .sending _ => some (s.updTask t fun k => { k with phase := .exiting })
    | _ => none
  | .tick _ =>
    if task.phase = .loop then
      some (s.updTask t fun k => { k with phase := .swapped (task.seen = 0), seen := 0 })
    else none
  | .count _ => match task.phase with
    | .swapped idle =>
      some (s.updTask t fun k =>
        { k with phase := if idle ∧ task.receivers ≤ 1 then .exiting else .loop })
    | _ => none
  | .abort _ => match task.phase with
    | .loop | .sending _ =>
      if task.aborted then some (s.updTask t fun k => { k with phase := .exiting }) else none
    | _ => none
  | .closeListener _ =>
    if task.phase = .exiting then some (s.updTask t fun k => { k with phase := .listenerClosed })
    else none
  | .remove _ =>
    if task.phase = .listenerClosed ∧ s.lock = none then
      some ((s.removeEntry task.key).updTask t fun k => { k with phase := .removed })
    else none
  | .finish _ =>
    if task.phase = .removed then some (s.updTask t fun k => { k with phase := .finished }) else none
  | _ => none

/-- The request or the task a label belongs to. -/
def Label.actor : Label K P → Option (Nat ⊕ Nat)
  | .arrive _ _ => none
  | .lookup r | .fetchAdd r | .clone r | .bind r _ | .spawn r | .insert r | .recv r | .recvErr r
  | .cancel r => some (.inl r)
  | .start t | .accept t _ | .acceptErr t | .acceptNone t | .send t | .sendTimeout t | .tick t | .count t
  | .abort t | .closeListener t | .remove t | .finish t => some (.inr t)

def step (s : State K P) (l : Label K P) : Option (State K P) :=
  match l.actor with
  | some (.inl r) => (s.requests[r]?).bind fun req => requestStep s r req l
  | some (.inr t) => (s.tasks[t]?).bind fun task => taskStep s t task l
  | none => match l with
    | .arrive key params => some { s with requests := s.requests ++ [⟨key, params, .lookup⟩] }
    | _ => none

def empty : State K P := ⟨[], [], [], none⟩

def registry : LTS (State K P) (Label K P) := LTS.ofFn (· = empty) step

/-! ## What a step can do -/

/-- A step of a task by itself, other than its removal: what it finds and
what it leaves. -/
inductive TaskMove (task : Task K P) : Label K P → Task K P → Prop where
  | start {t} (h : task.phase = .notStarted) :
      TaskMove task (.start t) { task with phase := if task.aborted then .finished else .loop }
  | accept {t cnx} (h : task.phase = .loop) :
      TaskMove task (.accept t cnx) { task with phase := .sending cnx }
  | acceptErr {t} (h : task.phase = .loop) : TaskMove task (.acceptErr t) task
  | acceptNone {t} (h : task.phase = .loop) :
      TaskMove task (.acceptNone t) { task with phase := .exiting }
  | sendLost {t cnx} (h : task.phase = .sending cnx) : TaskMove task (.send t) { task with phase := .loop }
  | send {t cnx} (h : task.phase = .sending cnx) :
      TaskMove task (.send t) { task with phase := .loop, queue := task.queue ++ [cnx] }
  | sendTimeout {t cnx} (h : task.phase = .sending cnx) :
      TaskMove task (.sendTimeout t) { task with phase := .exiting }
  | tick {t} (h : task.phase = .loop) :
      TaskMove task (.tick t) { task with phase := .swapped (task.seen = 0), seen := 0 }
  | count {t idle} (h : task.phase = .swapped idle) :
      TaskMove task (.count t)
        { task with phase := if idle ∧ task.receivers ≤ 1 then .exiting else .loop }
  | abort {t} (h : task.phase.gone = false) (ha : task.aborted = true) :
      TaskMove task (.abort t) { task with phase := .exiting }
  | closeListener {t} (h : task.phase = .exiting) :
      TaskMove task (.closeListener t) { task with phase := .listenerClosed }
  | finish {t} (h : task.phase = .removed) :
      TaskMove task (.finish t) { task with phase := .finished }

/-- A step of the registry. Every invariant is proved over these cases. -/
inductive Move (s : State K P) : Label K P → State K P → Prop where
  | arrive (key : K) (params : P) : Move s (.arrive key params)
      { s with requests := s.requests ++ [⟨key, params, .lookup⟩] }
  | found {r req t} (hr : s.requests[r]? = some req) (hpc : req.pc = .lookup) (hl : s.lock = none)
      (ht : s.servers.lookup req.key = some t) :
      Move s (.lookup r) { s.setPc r (.found t) with lock := some r }
  | missed {r req} (hr : s.requests[r]? = some req) (hpc : req.pc = .lookup)
      (hn : s.servers.lookup req.key = none) : Move s (.lookup r) (s.setPc r .binding)
  | count {r req t} (hr : s.requests[r]? = some req) (hpc : req.pc = .found t) : Move s (.fetchAdd r)
      ((s.updTask t fun k => { k with seen := k.seen + 1 }).setPc r (.foundCounted t))
  | countNew {r req t} (hr : s.requests[r]? = some req) (hpc : req.pc = .spawned t) :
      Move s (.fetchAdd r)
        ((s.updTask t fun k => { k with seen := k.seen + 1 }).setPc r (.counted t))
  | clone {r req t} (hr : s.requests[r]? = some req) (hpc : req.pc = .foundCounted t) :
      Move s (.clone r) { (s.updTask t fun k =>
        { k with receivers := k.receivers + 1 }).setPc r (.waiting t) with lock := none }
  | cloneNew {r req t} (hr : s.requests[r]? = some req) (hpc : req.pc = .counted t) :
      Move s (.clone r)
        ((s.updTask t fun k => { k with receivers := k.receivers + 1 }).setPc r (.cloned t))
  | bind {r req} (hr : s.requests[r]? = some req) (hpc : req.pc = .binding) (ok : Bool) :
      Move s (.bind r ok) (s.setPc r (if ok then .bound else .failed))
  | spawn {r req} (hr : s.requests[r]? = some req) (hpc : req.pc = .bound) : Move s (.spawn r)
      (({ s with tasks := s.tasks ++ [newTask req] } : State K P).setPc r (.spawned s.tasks.length))
  | insert {r req t} (hr : s.requests[r]? = some req) (hpc : req.pc = .cloned t)
      (hl : s.lock = none) : Move s (.insert r) ((s.insertEntry req.key t).setPc r (.waiting t))
  | recv {r req t task cnx rest} (hr : s.requests[r]? = some req) (hpc : req.pc = .waiting t)
      (ht : s.tasks[t]? = some task) (hq : task.queue = cnx :: rest) : Move s (.recv r)
        ((s.updTask t fun k => { k with queue := rest, receivers := k.receivers - 1 }).setPc r
          (.got cnx))
  | leave {l r req t} (h : l = .recvErr r ∨ l = .cancel r) (hr : s.requests[r]? = some req)
      (hpc : req.pc = .waiting t) : Move s l
        ((s.updTask t fun k => { k with receivers := k.receivers - 1 }).setPc r .failed)
  | giveUp {r req} (hr : s.requests[r]? = some req) (hpc : req.pc = .binding) :
      Move s (.cancel r) (s.setPc r .failed)
  | task {l t task f} (ha : l.actor = some (.inr t)) (ht : s.tasks[t]? = some task)
      (h : TaskMove task l (f task)) : Move s l (s.updTask t f)
  | remove {t task} (ht : s.tasks[t]? = some task) (hp : task.phase = .listenerClosed)
      (hl : s.lock = none) :
      Move s (.remove t) ((s.removeEntry task.key).updTask t fun k => { k with phase := .removed })

theorem move_of_requestStep {s s' : State K P} {r : Nat} {req : Request K P} {l : Label K P}
    (ha : l.actor = some (.inl r)) (hr : s.requests[r]? = some req)
    (hs : requestStep s r req l = some s') : Move s l s' := by
  cases l with
  | lookup _ =>
    cases ha
    simp only [requestStep] at hs
    split at hs
    · rename_i hpl
      split at hs
      · rename_i t ht
        cases hs
        exact .found hr hpl.1 hpl.2 ht
      · rename_i hn
        cases hs
        exact .missed hr hpl.1 hn
    · cases hs
  | fetchAdd _ =>
    cases ha
    simp only [requestStep] at hs
    split at hs
    · rename_i t hp
      cases hs
      exact .count hr hp
    · rename_i t hp
      cases hs
      exact .countNew hr hp
    · cases hs
  | clone _ =>
    cases ha
    simp only [requestStep] at hs
    split at hs
    · rename_i t hp
      cases hs
      exact .clone hr hp
    · rename_i t hp
      cases hs
      exact .cloneNew hr hp
    · cases hs
  | bind _ ok =>
    cases ha
    simp only [requestStep, Option.ite_none_right_eq_some, Option.some.injEq] at hs
    rw [← hs.2]
    exact .bind hr hs.1 ok
  | spawn _ =>
    cases ha
    simp only [requestStep, Option.ite_none_right_eq_some, Option.some.injEq] at hs
    rw [← hs.2]
    exact .spawn hr hs.1
  | insert _ =>
    cases ha
    simp only [requestStep] at hs
    split at hs
    · rename_i t hp
      simp only [Option.ite_none_right_eq_some, Option.some.injEq] at hs
      rw [← hs.2]
      exact .insert hr hp hs.1
    · cases hs
  | recv _ =>
    cases ha
    simp only [requestStep] at hs
    split at hs
    · rename_i t hp
      split at hs
      · rename_i task ht
        split at hs
        · rename_i cnx rest hq
          cases hs
          exact .recv hr hp ht hq
        · cases hs
      · cases hs
    · cases hs
  | recvErr _ =>
    cases ha
    simp only [requestStep] at hs
    split at hs
    · rename_i t hp
      split at hs
      · simp only [Option.ite_none_right_eq_some, Option.some.injEq] at hs
        rw [← hs.2]
        exact .leave (.inl rfl) hr hp
      · cases hs
    · cases hs
  | cancel _ =>
    cases ha
    simp only [requestStep] at hs
    split at hs
    · rename_i hp
      cases hs
      exact .giveUp hr hp
    · rename_i t hp
      cases hs
      exact .leave (.inr rfl) hr hp
    · cases hs
  | _ => simp [requestStep] at hs

/-- A step of a task is its removal, or an update of that task alone. -/
theorem move_of_taskStep {s s' : State K P} {t : Nat} {task : Task K P} {l : Label K P}
    (ha : l.actor = some (.inr t)) (ht : s.tasks[t]? = some task)
    (hs : taskStep s t task l = some s') : Move s l s' := by
  have upd : ∀ f, s.updTask t f = s' → TaskMove task l (f task) → Move s l s' :=
    fun f hf h => hf ▸ .task ha ht h
  cases l with
  | remove _ =>
    cases ha
    simp only [taskStep, Option.ite_none_right_eq_some, Option.some.injEq] at hs
    rw [← hs.2]
    exact .remove ht hs.1.1 hs.1.2
  | acceptErr _ =>
    simp only [taskStep, Option.ite_none_right_eq_some, Option.some.injEq] at hs
    have hid : s.updTask t id = s := by simp [State.updTask]
    exact upd id (hid.trans hs.2) (.acceptErr hs.1)
  | start _ =>
    simp only [taskStep, Option.ite_none_right_eq_some, Option.some.injEq] at hs
    exact upd _ hs.2 (.start hs.1)
  | finish _ =>
    simp only [taskStep, Option.ite_none_right_eq_some, Option.some.injEq] at hs
    exact upd _ hs.2 (.finish hs.1)
  | accept _ _ =>
    simp only [taskStep, Option.ite_none_right_eq_some, Option.some.injEq] at hs
    exact upd _ hs.2 (.accept hs.1)
  | acceptNone _ =>
    simp only [taskStep, Option.ite_none_right_eq_some, Option.some.injEq] at hs
    exact upd _ hs.2 (.acceptNone hs.1)
  | tick _ =>
    simp only [taskStep, Option.ite_none_right_eq_some, Option.some.injEq] at hs
    exact upd _ hs.2 (.tick hs.1)
  | closeListener _ =>
    simp only [taskStep, Option.ite_none_right_eq_some, Option.some.injEq] at hs
    exact upd _ hs.2 (.closeListener hs.1)
  | send _ =>
    simp only [taskStep] at hs
    split at hs
    · rename_i cnx hp
      split at hs
      · exact upd _ (Option.some.inj hs) (.sendLost hp)
      · simp only [Option.ite_none_right_eq_some, Option.some.injEq] at hs
        exact upd _ hs.2 (.send hp)
    · cases hs
  | count _ =>
    simp only [taskStep] at hs
    split at hs
    · rename_i idle hp
      exact upd _ (Option.some.inj hs) (.count hp)
    · cases hs
  | sendTimeout _ =>
    simp only [taskStep] at hs
    split at hs
    · rename_i cnx hp
      exact upd _ (Option.some.inj hs) (.sendTimeout hp)
    · cases hs
  | abort _ =>
    simp only [taskStep] at hs
    split at hs
    · rename_i hp
      simp only [Option.ite_none_right_eq_some, Option.some.injEq] at hs
      exact upd _ hs.2 (.abort (hp ▸ rfl) hs.1)
    · rename_i cnx hp
      simp only [Option.ite_none_right_eq_some, Option.some.injEq] at hs
      exact upd _ hs.2 (.abort (hp ▸ rfl) hs.1)
    · cases hs
  | _ => simp [taskStep] at hs

theorem move_of_step {s s' : State K P} {l : Label K P} (hs : step s l = some s') : Move s l s' := by
  unfold step at hs
  split at hs
  · rename_i r ha
    obtain ⟨req, hr, hs⟩ := Option.bind_eq_some_iff.mp hs
    exact move_of_requestStep ha hr hs
  · rename_i t ha
    obtain ⟨task, ht, hs⟩ := Option.bind_eq_some_iff.mp hs
    exact move_of_taskStep ha ht hs
  · split at hs
    · cases hs
      exact .arrive _ _
    · cases hs

end Steps

/-! ## What the pieces of a step change -/

/-- Request `r`, on `key`, is at `pc`. -/
def State.At (s : State K P) (r : Nat) (key : K) (pc : Pc) : Prop :=
  ∃ req, s.requests[r]? = some req ∧ req.key = key ∧ req.pc = pc

theorem State.at_of {s : State K P} {r : Nat} {req : Request K P} {pc : Pc}
    (hr : s.requests[r]? = some req) (hpc : req.pc = pc) : s.At r req.key pc := ⟨req, hr, rfl, hpc⟩

theorem State.At.inj {s : State K P} {r : Nat} {key key' : K} {pc pc' : Pc} (h : s.At r key pc)
    (h' : s.At r key' pc') : key = key' ∧ pc = pc' := by
  obtain ⟨req, hr, hk, hp⟩ := h
  obtain ⟨req', hr', hk', hp'⟩ := h'
  rw [hr, Option.some.injEq] at hr'
  subst hr'
  exact ⟨hk.symm.trans hk', hp.symm.trans hp'⟩

theorem getElem?_setPc (s : State K P) (r : Nat) (pc : Pc) (i : Nat) :
    (s.setPc r pc).requests[i]? = (s.requests[i]?).map fun req =>
      if r = i then { req with pc } else req := by
  simp [State.setPc, List.getElem?_modify]

theorem request_setPc {s : State K P} {r i : Nat} {pc : Pc} {req : Request K P}
    (h : (s.setPc r pc).requests[i]? = some req) :
    ∃ req₀, s.requests[i]? = some req₀ ∧ req₀.key = req.key ∧ req₀.params = req.params ∧
      (i = r ∧ req.pc = pc ∨ i ≠ r ∧ req₀.pc = req.pc) := by
  rw [getElem?_setPc, Option.map_eq_some_iff] at h
  obtain ⟨req₀, h0, rfl⟩ := h
  refine ⟨req₀, h0, ?_⟩
  by_cases hri : r = i
  · rw [if_pos hri]
    exact ⟨rfl, rfl, .inl ⟨hri.symm, rfl⟩⟩
  · rw [if_neg hri]
    exact ⟨rfl, rfl, .inr ⟨fun h => hri h.symm, rfl⟩⟩

/-- After `setPc r pc`, request `r` is at `pc` and no other has moved. -/
theorem at_setPc {s : State K P} {r i : Nat} {pc pc' : Pc} {key : K}
    (h : (s.setPc r pc).At i key pc') :
    i = r ∧ pc' = pc ∧ (∃ pc₀, s.At i key pc₀) ∨ i ≠ r ∧ s.At i key pc' := by
  obtain ⟨req, hr, hk, hp⟩ := h
  obtain ⟨req₀, h0, hk₀, -, ⟨hi, hpc⟩ | ⟨hi, hpc⟩⟩ := request_setPc hr
  · exact .inl ⟨hi, hp.symm.trans hpc, req₀.pc, req₀, h0, hk₀.trans hk, rfl⟩
  · exact .inr ⟨hi, req₀, h0, hk₀.trans hk, hpc.trans hp⟩

/-- A request that is there after an arrival was there before, or is the new
one. -/
theorem at_arrive {s : State K P} {key k : K} {params : P} {i : Nat} {p : Pc}
    (h : ({ s with requests := s.requests ++ [⟨key, params, .lookup⟩] } : State K P).At i k p) :
    p = .lookup ∨ s.At i k p := by
  obtain ⟨req, hr, hk, hp⟩ := h
  simp only at hr
  by_cases hi : i < s.requests.length
  · rw [List.getElem?_append_left hi] at hr
    exact .inr ⟨req, hr, hk, hp⟩
  · rw [List.getElem?_append_right (Nat.le_of_not_lt hi), List.getElem?_singleton] at hr
    split at hr
    · cases hr
      exact .inl hp.symm
    · cases hr

theorem getElem?_updTask (s : State K P) (t : Nat) (f : Task K P → Task K P) (i : Nat) :
    (s.updTask t f).tasks[i]? = (s.tasks[i]?).map fun task => if t = i then f task else task := by
  simp [State.updTask, List.getElem?_modify]

@[simp] theorem dropItem_servers (s : State K P) (o : Option Nat) :
    (s.dropItem o).servers = s.servers := by cases o <;> rfl

@[simp] theorem dropItem_requests (s : State K P) (o : Option Nat) :
    (s.dropItem o).requests = s.requests := by cases o <;> rfl

@[simp] theorem dropItem_lock (s : State K P) (o : Option Nat) :
    (s.dropItem o).lock = s.lock := by cases o <;> rfl

theorem getElem?_dropItem (s : State K P) (o : Option Nat) (i : Nat) :
    (s.dropItem o).tasks[i]? = (s.tasks[i]?).map fun task =>
      if o = some i then { task with receivers := task.receivers - 1, aborted := true }
      else task := by
  cases o with
  | none => simp [State.dropItem]
  | some t => simp [State.dropItem, getElem?_updTask]

/-- A task's own steps leave what its entry needs alone. -/
theorem TaskMove.same {task task' : Task K P} {l : Label K P} (h : TaskMove task l task') :
    task'.key = task.key ∧ task'.params = task.params ∧ task'.receivers = task.receivers ∧
      task'.aborted = task.aborted := by
  cases h <;> exact ⟨rfl, rfl, rfl, rfl⟩

section Entries
variable [DecidableEq K]

@[simp] theorem removeEntry_servers (s : State K P) (key : K) :
    (s.removeEntry key).servers = AssocMap.erase s.servers key := dropItem_servers _ _

@[simp] theorem removeEntry_requests (s : State K P) (key : K) :
    (s.removeEntry key).requests = s.requests := dropItem_requests _ _

@[simp] theorem removeEntry_lock (s : State K P) (key : K) :
    (s.removeEntry key).lock = s.lock := dropItem_lock _ _

theorem at_removeEntry {s : State K P} {key k : K} {r : Nat} {pc : Pc} :
    (s.removeEntry key).At r k pc ↔ s.At r k pc := by
  simp only [State.At, removeEntry_requests]

@[simp] theorem insertEntry_servers (s : State K P) (key : K) (t : Nat) :
    (s.insertEntry key t).servers = AssocMap.insert s.servers key t := dropItem_servers _ _

@[simp] theorem insertEntry_requests (s : State K P) (key : K) (t : Nat) :
    (s.insertEntry key t).requests = s.requests := dropItem_requests _ _

theorem insertEntry_eq (s : State K P) (key : K) (t : Nat) :
    s.insertEntry key t =
      { s.removeEntry key with servers := (key, t) :: (s.removeEntry key).servers } := by
  rw [removeEntry_servers]
  unfold State.insertEntry State.removeEntry
  cases s.servers.lookup key <;> rfl

theorem insertEntry_tasks (s : State K P) (key : K) (t : Nat) :
    (s.insertEntry key t).tasks = (s.removeEntry key).tasks := by rw [insertEntry_eq]

theorem getElem?_removeEntry (s : State K P) (key : K) (i : Nat) :
    (s.removeEntry key).tasks[i]? = (s.tasks[i]?).map fun task =>
      if s.servers.lookup key = some i then
        { task with receivers := task.receivers - 1, aborted := true }
      else task := getElem?_dropItem _ _ i

theorem removeEntry_tasks_length (s : State K P) (key : K) :
    (s.removeEntry key).tasks.length = s.tasks.length := by
  unfold State.removeEntry
  cases s.servers.lookup key with
  | none => rfl
  | some t => simp [State.dropItem, State.updTask]

end Entries

end Wstunnel.L5.ReverseTunnel
