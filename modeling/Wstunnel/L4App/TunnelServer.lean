import Wstunnel.Core.AssocMap
import Wstunnel.Core.LTS
import Wstunnel.Core.Str

/-!
# `tunnel-server`: the pod watcher and its map of tunnels

The resolver keeps one map from tunnel id to the address of a pod. The map
is keyed by the id, the events that change it are per pod: two pods that
carry one id (a rolling update) write to the same key, and a pod that stops
carrying an id says nothing about the key it leaves.

`handlePodEvent` is the handler as it is. `State` adds what the handler does
not keep: the latest state of every pod, and for each id the pod whose event
was the last to carry it (`owner`). The owner decides what the map holds.

**Third-party code.** The events of the `kube` watcher are the input: any pods in any
order, with re-lists between them. Nothing is assumed of them beyond the two
conditions below. `Uuid::parse_str` is the parameter `parseUuid`. The map stands behind
an `RwLock`, so a change of it is one step.

**Results.**
* `live_pod_has_entry`: a live pod's id is in the map as long as no event
  disturbs an id that another live pod carries (`Undisturbed`).
* `entry_has_pod`: an entry belongs to a pod that exists as long as the
  owner of an id is never deleted, nor loses its id, while it is live, and
  no re-list leaves an id of the map out (`Announced`).
* `pendingReplica_hides_livePod`, `deleted_pod_keeps_entry`: without these
  conditions both fail.
-/
namespace Wstunnel.L4.TunnelServer

def annTunnelId : String := "wstunnel.io/tunnel-id"
def annTunnelPort : String := "wstunnel.io/tunnel-port"
def annTunnelRateLimit : String := "wstunnel.io/tunnel-rate-limit"
def annTunnelRateLimitUpload : String := "wstunnel.io/tunnel-rate-limit-upload"
def annTunnelRateLimitDownload : String := "wstunnel.io/tunnel-rate-limit-download"
def defaultTunnelPort : Nat := 22
def maxRateLimitM : Nat := 10

abbrev Annotations := List (String × String)

/-- The fields of a pod that the watcher decides by. The pod's name appears
in log lines only. -/
structure ObjectMeta where
  annotations : Option Annotations
  deletionTimestamp : Option String
  deriving DecidableEq, Repr

structure PodStatus where
  podIp : Option String
  phase : Option String
  deriving DecidableEq, Repr

structure Pod where
  metadata : ObjectMeta
  status : Option PodStatus
  deriving DecidableEq, Repr

/-- mirrors tunnel-server/src/state.rs:18-24 -/
structure TunnelEntry where
  host : String
  port : Nat
  rateLimitUploadM : Option Nat
  rateLimitDownloadM : Option Nat
  deriving DecidableEq, Repr

def Pod.ip (pod : Pod) : String := (pod.status.bind (·.podIp)).getD ""

def Pod.isRunning (pod : Pod) : Bool := ((pod.status.bind (·.phase)).map (· == "Running")).getD false

/-- mirrors tunnel-server/src/watcher.rs:97-99 -/
def parseRateLimit (v : Option String) : Option Nat :=
  (v.bind fun s => Str.parseUnsigned 16 (Str.trim s).toList).map (min · maxRateLimitM)

/-- mirrors tunnel-server/src/watcher.rs:91-112 -/
def tunnelEntry (annotations : Annotations) (podIp : String) : TunnelEntry :=
  let legacyRateLimit := parseRateLimit (annotations.lookup annTunnelRateLimit)
  { host := podIp
    port := ((annotations.lookup annTunnelPort).bind fun v =>
      Str.parseUnsigned 16 v.toList).getD defaultTunnelPort
    rateLimitUploadM :=
      (parseRateLimit (annotations.lookup annTunnelRateLimitUpload)).or legacyRateLimit
    rateLimitDownloadM :=
      (parseRateLimit (annotations.lookup annTunnelRateLimitDownload)).or legacyRateLimit }

section Handler

variable {Uuid : Type} [DecidableEq Uuid] (parseUuid : String → Option Uuid)

/-- mirrors tunnel-server/src/watcher.rs:51-116 -/
def handlePodEvent (map : List (Uuid × TunnelEntry)) (pod : Pod) : List (Uuid × TunnelEntry) :=
  match pod.metadata.annotations with
  | none => map
  | some annotations =>
    match annotations.lookup annTunnelId with
    | none => map
    | some tunnelIdStr =>
      match parseUuid tunnelIdStr with
      | none => map
      | some tunnelId =>
        if pod.ip.isEmpty || !pod.isRunning || pod.metadata.deletionTimestamp.isSome then
          AssocMap.erase map tunnelId
        else AssocMap.insert map tunnelId (tunnelEntry annotations pod.ip)

/-! ## What an event says -/

/-- The id a pod carries. -/
def Pod.tunnelId (pod : Pod) : Option Uuid :=
  (pod.metadata.annotations.bind (·.lookup annTunnelId)).bind parseUuid

/-- Running, with an address, and not being deleted. -/
def Pod.live (pod : Pod) : Bool :=
  pod.isRunning && !pod.ip.isEmpty && !pod.metadata.deletionTimestamp.isSome

/-- The entry derived from a pod. -/
def Pod.entry (pod : Pod) : TunnelEntry := tunnelEntry (pod.metadata.annotations.getD []) pod.ip

/-- A live pod that carries the id. -/
def Pod.Backs (pod : Pod) (id : Uuid) : Prop := pod.live = true ∧ pod.tunnelId parseUuid = some id

instance (pod : Pod) (id : Uuid) : Decidable (pod.Backs parseUuid id) :=
  inferInstanceAs (Decidable (_ ∧ _))

/-- The handler changes the one key that the event carries. -/
theorem handlePodEvent_eq (map : List (Uuid × TunnelEntry)) (pod : Pod) :
    handlePodEvent parseUuid map pod = match pod.tunnelId parseUuid with
      | none => map
      | some id => if pod.live then AssocMap.insert map id pod.entry else AssocMap.erase map id := by
  unfold handlePodEvent Pod.tunnelId Pod.entry
  cases ha : pod.metadata.annotations with
  | none => rfl
  | some annotations =>
    cases hl : annotations.lookup annTunnelId with
    | none => simp [hl]
    | some str =>
      cases hp : parseUuid str with
      | none => simp [hl, hp]
      | some id =>
        cases hi : pod.ip.isEmpty <;> cases hr : pod.isRunning <;>
          cases hd : pod.metadata.deletionTimestamp <;> simp [Pod.live, hl, hp, hi, hr, hd]

theorem lookup_handlePodEvent_of_ne (map : List (Uuid × TunnelEntry)) {pod : Pod} {id : Uuid}
    (h : pod.tunnelId parseUuid ≠ some id) :
    (handlePodEvent parseUuid map pod).lookup id = map.lookup id := by
  rw [handlePodEvent_eq]
  cases ht : pod.tunnelId parseUuid with
  | none => rfl
  | some id' =>
    have hne : id ≠ id' := fun e => h (e ▸ ht)
    cases pod.live
    · exact AssocMap.lookup_erase_of_ne map hne
    · exact AssocMap.lookup_insert_of_ne map _ hne

theorem lookup_handlePodEvent_self (map : List (Uuid × TunnelEntry)) {pod : Pod} {id : Uuid}
    (h : pod.tunnelId parseUuid = some id) :
    (handlePodEvent parseUuid map pod).lookup id = if pod.live then some pod.entry else none := by
  rw [handlePodEvent_eq, h]
  cases pod.live <;> simp

end Handler

/-! ## The watched cluster -/

section Watch

variable {I Uuid : Type} [DecidableEq I] [DecidableEq Uuid] (parseUuid : String → Option Uuid)

/-- `map` is `AppState`. `pods` is the latest state of each pod that exists,
`owner` the pod whose event was the last to carry an id. -/
structure State (I Uuid : Type) where
  pods : List (I × Pod)
  owner : List (Uuid × I)
  map : List (Uuid × TunnelEntry)
  deriving DecidableEq, Repr

/-- No pod known, `AppState::new`. -/
def State.empty : State I Uuid := ⟨[], [], []⟩

/-- `pod` is the new state of `p`, and its event is handled. -/
def State.apply (s : State I Uuid) (p : I) (pod : Pod) : State I Uuid where
  pods := AssocMap.insert s.pods p pod
  owner := match pod.tunnelId parseUuid with
    | none => s.owner
    | some id => AssocMap.insert s.owner id p
  map := handlePodEvent parseUuid s.map pod

/-- The id that `p` carries. -/
def State.idOf (s : State I Uuid) (p : I) : Option Uuid :=
  (s.pods.lookup p).bind (·.tunnelId parseUuid)

/-- `p` is live and carries the id. -/
def State.Live (s : State I Uuid) (p : I) (id : Uuid) : Prop :=
  ∃ pod ∈ s.pods.lookup p, pod.Backs parseUuid id

instance (s : State I Uuid) (p : I) (id : Uuid) : Decidable (s.Live parseUuid p id) :=
  inferInstanceAs (Decidable (∃ pod ∈ s.pods.lookup p, pod.Backs parseUuid id))

/-- The live pod `p` was the last to carry the id. -/
def State.Serves (s : State I Uuid) (p : I) (id : Uuid) : Prop :=
  s.owner.lookup id = some p ∧ s.Live parseUuid p id

instance (s : State I Uuid) (p : I) (id : Uuid) : Decidable (s.Serves parseUuid p id) :=
  inferInstanceAs (Decidable (_ ∧ _))

/-- The map's entry for the id is that of its owner, which is live. -/
def State.Served (s : State I Uuid) (id : Uuid) : Prop :=
  ∃ p pod, s.owner.lookup id = some p ∧ s.pods.lookup p = some pod ∧ pod.Backs parseUuid id ∧
    s.map.lookup id = some pod.entry

variable {parseUuid} {s : State I Uuid} {p q : I} {pod : Pod} {id : Uuid}

theorem lookup_owner_apply_self (h : pod.tunnelId parseUuid = some id) :
    (s.apply parseUuid p pod).owner.lookup id = some p := by
  simp [State.apply, h]

theorem lookup_owner_apply_of_ne (h : pod.tunnelId parseUuid ≠ some id) :
    (s.apply parseUuid p pod).owner.lookup id = s.owner.lookup id := by
  unfold State.apply
  cases ht : pod.tunnelId parseUuid with
  | none => rfl
  | some id' => exact AssocMap.lookup_insert_of_ne _ _ fun e => h (e ▸ ht)

theorem live_apply_of_ne (h : q ≠ p) :
    (s.apply parseUuid p pod).Live parseUuid q id ↔ s.Live parseUuid q id := by
  simp only [State.Live, State.apply, AssocMap.lookup_insert_of_ne _ _ h]

theorem live_apply_self : (s.apply parseUuid p pod).Live parseUuid p id ↔ pod.Backs parseUuid id := by
  simp [State.Live, State.apply]

omit [DecidableEq Uuid] in
theorem idOf_of_live (h : s.Live parseUuid p id) : s.idOf parseUuid p = some id := by
  obtain ⟨pod, hpod, hb⟩ := h
  rw [State.idOf, Option.mem_def.mp hpod]
  exact hb.2

/-- A live pod's event makes it the one that serves its id. -/
theorem served_apply_self (h : pod.Backs parseUuid id) :
    (s.apply parseUuid p pod).Served parseUuid id := by
  refine ⟨p, pod, lookup_owner_apply_self h.2, ?_, h, ?_⟩
  · exact AssocMap.lookup_insert_self _ _ _
  · have hl := lookup_handlePodEvent_self parseUuid s.map h.2
    rwa [h.1] at hl

/-- An event that does not carry the id leaves it served, unless it is the
owner's. -/
theorem served_apply_of_ne (h : s.Served parseUuid id) (hid : pod.tunnelId parseUuid ≠ some id)
    (hp : s.owner.lookup id ≠ some p) : (s.apply parseUuid p pod).Served parseUuid id := by
  obtain ⟨q, pod', howner, hpods, hbacks, hmap⟩ := h
  have hne : q ≠ p := fun e => hp (e ▸ howner)
  refine ⟨q, pod', ?_, ?_, hbacks, ?_⟩
  · rw [lookup_owner_apply_of_ne hid, howner]
  · rw [← hpods]
    exact AssocMap.lookup_insert_of_ne _ _ hne
  · rw [← hmap]
    exact lookup_handlePodEvent_of_ne parseUuid s.map hid

/-! ## Every live pod is found -/

variable (parseUuid)

/-- The watcher's loop on applied pods. -/
def watcher : LTS (State I Uuid) (I × Pod) :=
  LTS.ofFn (· = State.empty) fun s e => some (s.apply parseUuid e.1 e.2)

/-- Another pod than `p` is live and carries the id. -/
def State.Shared (s : State I Uuid) (p : I) (id : Uuid) : Prop :=
  ∃ q ∈ s.pods.map (·.1), q ≠ p ∧ s.Live parseUuid q id

/-- Nobody else needs the id whose entry the event removes, nor the one that
its pod served and no longer carries. -/
def Undisturbed (s : State I Uuid) (e : I × Pod) : Prop :=
  (∀ id ∈ e.2.tunnelId parseUuid, e.2.live = false → ¬ s.Shared parseUuid e.1 id) ∧
  (∀ id ∈ s.idOf parseUuid e.1, s.Serves parseUuid e.1 id → e.2.tunnelId parseUuid ≠ some id →
    ¬ s.Shared parseUuid e.1 id)

instance (s : State I Uuid) (e : I × Pod) : Decidable (Undisturbed parseUuid s e) := by
  unfold Undisturbed State.Shared
  infer_instance

/-- Every id that a live pod carries is served. -/
def AllServed (s : State I Uuid) : Prop :=
  ∀ p id, s.Live parseUuid p id → s.Served parseUuid id

variable {parseUuid}

omit [DecidableEq Uuid] in
theorem shared_of_live (h : s.Live parseUuid q id) (hne : q ≠ p) : s.Shared parseUuid p id := by
  refine ⟨q, ?_, hne, h⟩
  obtain ⟨pod, hpod, -⟩ := h
  exact List.mem_map_of_mem (AssocMap.mem_of_lookup hpod)

theorem apply_allServed (h : AllServed parseUuid s) (hu : Undisturbed parseUuid s (p, pod)) :
    AllServed parseUuid (s.apply parseUuid p pod) := by
  intro q id hlive
  by_cases hq : q = p
  · -- the event's own pod
    subst hq
    exact served_apply_self (live_apply_self.mp hlive)
  · rw [live_apply_of_ne hq] at hlive
    have hshared : s.Shared parseUuid p id := shared_of_live hlive hq
    by_cases hid : pod.tunnelId parseUuid = some id
    · cases hl : pod.live with
      | true => exact served_apply_self ⟨hl, hid⟩
      | false => exact absurd hshared (hu.1 id hid hl)
    · have hserved := h q id hlive
      refine served_apply_of_ne hserved hid fun howner => ?_
      -- the owner has left the id, which `q` still needs
      obtain ⟨r, pod', hr, hpods, hb, -⟩ := hserved
      have hrp : r = p := Option.some.inj (hr.symm.trans howner)
      subst hrp
      have hl : s.Live parseUuid r id := ⟨pod', hpods, hb⟩
      exact hu.2 id (idOf_of_live hl) ⟨hr, hl⟩ hid hshared

theorem allServed_inductive : ((watcher parseUuid).guard (Undisturbed parseUuid)).Inductive
    (AllServed (I := I) parseUuid) where
  init s hs := by
    subst hs
    intro p id ⟨pod, hpod, _⟩
    cases hpod
  step s e s' h hs := by
    obtain ⟨hs, hu⟩ := hs
    cases hs
    exact apply_allServed h hu

/-- **A live pod is not hidden.** In every run whose events are all
`Undisturbed`, the id of each pod whose latest state is live is in the map,
with the entry of a pod whose latest state is live and carries that id. -/
theorem live_pod_has_entry (s : State I Uuid)
    (hr : ((watcher parseUuid).guard (Undisturbed parseUuid)).Reachable s) (p : I) (pod : Pod)
    (id : Uuid) (hp : s.pods.lookup p = some pod) (hb : pod.Backs parseUuid id) :
    ∃ q pod', s.pods.lookup q = some pod' ∧ pod'.Backs parseUuid id ∧
      s.map.lookup id = some pod'.entry := by
  have hserved := allServed_inductive.reachable s hr p id ⟨pod, hp, hb⟩
  obtain ⟨q, pod', -, hq, hb', hmap⟩ := hserved
  exact ⟨q, pod', hq, hb', hmap⟩

end Watch

/-- A pod with one annotation. -/
def annotated (id ip phase : String) : Pod :=
  ⟨⟨some [(annTunnelId, id)], none⟩, some ⟨some ip, some phase⟩⟩

/-- Two pods with ids of their own, then the first one terminates. -/
theorem live_pod_has_entry_twoPods :
    ∃ s : State Nat String, ((watcher some).guard (Undisturbed some)).Reachable s ∧
      s.pods.lookup 1 = some (annotated "b" "10.0.0.2" "Running") ∧
      ∃ q pod', s.pods.lookup q = some pod' ∧ pod'.Backs some "b" ∧
        s.map.lookup "b" = some pod'.entry := by
  obtain ⟨s, hs, hp⟩ : ∃ s : State Nat String,
      LTS.exec (fun s e => if Undisturbed some s e then some (s.apply some e.1 e.2) else none)
        State.empty [(0, annotated "a" "10.0.0.1" "Running"), (1, annotated "b" "10.0.0.2" "Running"),
          (0, annotated "a" "10.0.0.1" "Succeeded")] = some s ∧
      s.pods.lookup 1 = some (annotated "b" "10.0.0.2" "Running") := ⟨_, rfl, by decide⟩
  have hr : ((watcher some).guard (Undisturbed some)).Reachable s :=
    ⟨_, _, rfl, LTS.run_guard_ofFn hs⟩
  exact ⟨s, hr, hp, live_pod_has_entry s hr 1 _ "b" hp (by decide)⟩

/-- A replica that is still pending, with the id of a running pod: its event
removes the running pod's entry. -/
theorem pendingReplica_hides_livePod :
    ∃ s : State Nat String, (watcher some).Reachable s ∧
      s.pods.lookup 0 = some (annotated "a" "10.0.0.1" "Running") ∧
      (annotated "a" "10.0.0.1" "Running").Backs some "a" ∧ s.map.lookup "a" = none := by
  obtain ⟨s, hs, hp⟩ : ∃ s : State Nat String,
      LTS.exec (fun s e => some (s.apply some e.1 e.2)) State.empty
        [(0, annotated "a" "10.0.0.1" "Running"), (1, annotated "a" "10.0.0.2" "Pending")] = some s ∧
      s.pods.lookup 0 = some (annotated "a" "10.0.0.1" "Running") ∧
      (annotated "a" "10.0.0.1" "Running").Backs some "a" ∧ s.map.lookup "a" = none :=
    ⟨_, rfl, by decide⟩
  exact ⟨s, ⟨_, _, rfl, LTS.run_ofFn.mpr hs⟩, hp⟩

/-! ## Every entry has its pod -/

/-- What happens in the cluster. `applied_objects` yields the pod of `applied`
and every pod of `relisted`, and drops `deleted`. A re-list comes after a
gap in which anything may have happened. -/
inductive ClusterEvent (I : Type) where
  | applied (p : I) (pod : Pod)
  | deleted (p : I)
  | relisted (pods : List (I × Pod))
  deriving DecidableEq, Repr

section Cluster

variable {I Uuid : Type} [DecidableEq I] [DecidableEq Uuid] (parseUuid : String → Option Uuid)

/-- Handle a list of pods in order. -/
def State.applyAll (s : State I Uuid) (pods : List (I × Pod)) : State I Uuid :=
  pods.foldl (fun s e => s.apply parseUuid e.1 e.2) s

/-- mirrors tunnel-server/src/watcher.rs:20-49; a list has each pod once. -/
def clusterStep (s : State I Uuid) : ClusterEvent I → Option (State I Uuid)
  | .applied p pod => some (s.apply parseUuid p pod)
  | .deleted p => some { s with pods := AssocMap.erase s.pods p }
  | .relisted pods =>
    if (pods.map (·.1)).Nodup then some (({ s with pods := [] } : State I Uuid).applyAll parseUuid pods)
    else none

def cluster : LTS (State I Uuid) (ClusterEvent I) :=
  LTS.ofFn (· = State.empty) (clusterStep parseUuid)

/-- The pod that serves an id neither goes nor gives the id up while it is
live, and a re-list shows a pod for every id in the map. -/
def Announced (s : State I Uuid) : ClusterEvent I → Prop
  | .applied p pod => ∀ id ∈ s.idOf parseUuid p, s.Serves parseUuid p id →
      pod.tunnelId parseUuid = some id
  | .deleted p => ∀ id ∈ s.idOf parseUuid p, ¬ s.Serves parseUuid p id
  | .relisted pods => ∀ e ∈ s.map, ∃ x ∈ pods, x.2.tunnelId parseUuid = some e.1

instance (s : State I Uuid) (e : ClusterEvent I) : Decidable (Announced parseUuid s e) := by
  cases e <;> unfold Announced <;> infer_instance

/-- An entry for the id is that of its owner, which exists and is live. -/
def State.Backed (s : State I Uuid) (id : Uuid) : Prop :=
  ∀ e, s.map.lookup id = some e → s.Served parseUuid id

variable {parseUuid} {s : State I Uuid} {p q : I} {pod : Pod} {id : Uuid}

theorem backed_apply_self (h : pod.tunnelId parseUuid = some id) :
    (s.apply parseUuid p pod).Backed parseUuid id := by
  intro e he
  cases hl : pod.live with
  | true => exact served_apply_self ⟨hl, h⟩
  | false =>
    have hnone := lookup_handlePodEvent_self parseUuid s.map h
    rw [hl] at hnone
    cases hnone.symm.trans he

theorem backed_apply (h : s.Backed parseUuid id)
    (hp : s.Serves parseUuid p id → pod.tunnelId parseUuid = some id) :
    (s.apply parseUuid p pod).Backed parseUuid id := by
  by_cases hid : pod.tunnelId parseUuid = some id
  · exact backed_apply_self hid
  · intro e he
    have he' : s.map.lookup id = some e :=
      (lookup_handlePodEvent_of_ne parseUuid s.map hid).symm.trans he
    obtain ⟨q, pod', howner, hpods, hb, hmap⟩ := h e he'
    refine served_apply_of_ne ⟨q, pod', howner, hpods, hb, hmap⟩ hid fun ho => hid (hp ?_)
    have hqp : q = p := Option.some.inj (howner.symm.trans ho)
    subst hqp
    exact ⟨howner, pod', hpods, hb⟩

/-- After a list, every id that one of its pods carries is backed, and so is
every id that was, unless its owner is in the list. -/
theorem backed_applyAll {pods : List (I × Pod)} (hn : (pods.map (·.1)).Nodup)
    (h : (∃ x ∈ pods, x.2.tunnelId parseUuid = some id) ∨
      s.Backed parseUuid id ∧ ∀ q ∈ pods.map (·.1), ¬ s.Serves parseUuid q id) :
    (s.applyAll parseUuid pods).Backed parseUuid id := by
  induction pods generalizing s with
  | nil =>
    obtain ⟨x, hx, -⟩ | h := h
    · cases hx
    · exact h.1
  | cons x pods ih =>
    simp only [List.map_cons, List.nodup_cons] at hn
    refine ih hn.2 ?_
    by_cases hrest : ∃ y ∈ pods, y.2.tunnelId parseUuid = some id
    · exact .inl hrest
    · refine .inr ?_
      have hne : ∀ q ∈ pods.map (·.1), q ≠ x.1 := fun q hq e => hn.1 (e ▸ hq)
      by_cases hx : x.2.tunnelId parseUuid = some id
      · -- `x` is the owner now, and comes only once
        refine ⟨backed_apply_self hx, fun q hq hs => hne q hq ?_⟩
        exact Option.some.inj (hs.1.symm.trans (lookup_owner_apply_self hx))
      · obtain ⟨y, hy, hid⟩ | ⟨hb, hserves⟩ := h
        · obtain rfl | hy := List.mem_cons.mp hy
          · exact absurd hid hx
          · exact absurd ⟨y, hy, hid⟩ hrest
        · refine ⟨backed_apply hb fun hs => absurd hs (hserves _ (by simp)), fun q hq hs => ?_⟩
          refine hserves q (List.mem_cons_of_mem _ hq) ⟨?_, ?_⟩
          · rw [← lookup_owner_apply_of_ne hx]
            exact hs.1
          · exact (live_apply_of_ne (hne q hq)).mp hs.2

theorem clusterStep_backed {s' : State I Uuid} {e : ClusterEvent I}
    (h : ∀ id, s.Backed parseUuid id) (ha : Announced parseUuid s e)
    (hs : clusterStep parseUuid s e = some s') : ∀ id, s'.Backed parseUuid id := by
  intro id
  cases e with
  | applied p pod =>
    cases hs
    exact backed_apply (h id) fun hserves => ha id (idOf_of_live hserves.2) hserves
  | deleted p =>
    cases hs
    intro e he
    obtain ⟨q, pod, howner, hpods, hb, hmap⟩ := h id e he
    have hl : s.Live parseUuid q id := ⟨pod, hpods, hb⟩
    have hne : q ≠ p := by
      intro hqp
      subst hqp
      exact ha id (idOf_of_live hl) ⟨howner, hl⟩
    exact ⟨q, pod, howner, (AssocMap.lookup_erase_of_ne _ hne).trans hpods, hb, hmap⟩
  | relisted pods =>
    simp only [clusterStep, Option.ite_none_right_eq_some, Option.some.injEq] at hs
    obtain ⟨hn, rfl⟩ := hs
    cases hm : s.map.lookup id with
    | some e => exact backed_applyAll hn (.inl (ha _ (AssocMap.mem_of_lookup hm)))
    | none =>
      refine backed_applyAll hn (.inr ⟨fun e he => ?_, fun q _ hs => ?_⟩)
      · cases hm.symm.trans he
      · -- nothing is known to exist before the list
        obtain ⟨-, pod, hpod, -⟩ := hs
        cases hpod

theorem backed_inductive : ((cluster parseUuid).guard (Announced parseUuid)).Inductive
    (fun s : State I Uuid => ∀ id, s.Backed parseUuid id) where
  init s hs := by
    subst hs
    intro id e he
    cases he
  step _ _ _ h hs := clusterStep_backed h hs.2 hs.1

/-- **No stale entry.** In every run whose events are all `Announced`, each
entry is derived from the latest state of a pod that exists, is live and
carries the entry's id. -/
theorem entry_has_pod (s : State I Uuid)
    (hr : ((cluster parseUuid).guard (Announced parseUuid)).Reachable s) (id : Uuid)
    (e : TunnelEntry) (he : s.map.lookup id = some e) :
    ∃ p pod, s.pods.lookup p = some pod ∧ pod.Backs parseUuid id ∧ e = pod.entry := by
  obtain ⟨p, pod, -, hp, hb, hmap⟩ := backed_inductive.reachable s hr id e he
  exact ⟨p, pod, hp, hb, Option.some.inj (he.symm.trans hmap)⟩

end Cluster

/-- A pod starts and terminates, another one takes over its id, and a re-list
shows it at a new address. -/
theorem entry_has_pod_takeOver :
    ∃ s : State Nat String, ((cluster some).guard (Announced some)).Reachable s ∧
      ∃ p pod, s.pods.lookup p = some pod ∧ pod.Backs some "a" ∧
        tunnelEntry [] "10.0.0.3" = pod.entry := by
  obtain ⟨s, hs, he⟩ : ∃ s : State Nat String,
      LTS.exec (fun s e => if Announced some s e then clusterStep some s e else none) State.empty
        [.applied 0 (annotated "a" "10.0.0.1" "Running"),
          .applied 0 (annotated "a" "10.0.0.1" "Succeeded"), .deleted 0,
          .applied 1 (annotated "a" "10.0.0.2" "Running"),
          .relisted [(1, annotated "a" "10.0.0.3" "Running")]] = some s ∧
      s.map.lookup "a" = some (tunnelEntry [] "10.0.0.3") := ⟨_, rfl, by decide⟩
  have hr : ((cluster some).guard (Announced some)).Reachable s :=
    ⟨_, _, rfl, LTS.run_guard_ofFn hs⟩
  exact ⟨s, hr, entry_has_pod s hr "a" _ he⟩

/-- A pod that is deleted at once: no event reaches the handler, and the
entry stays while no pod exists. -/
theorem deleted_pod_keeps_entry :
    ∃ s : State Nat String, (cluster some).Reachable s ∧ s.pods = [] ∧
      s.map.lookup "a" = some (tunnelEntry [] "10.0.0.1") := by
  obtain ⟨s, hs, he⟩ : ∃ s : State Nat String,
      LTS.exec (clusterStep some) State.empty
        [.applied 0 (annotated "a" "10.0.0.1" "Running"), .deleted 0] = some s ∧
      s.pods = [] ∧ s.map.lookup "a" = some (tunnelEntry [] "10.0.0.1") := ⟨_, rfl, by decide⟩
  exact ⟨s, ⟨_, _, rfl, LTS.run_ofFn.mpr hs⟩, he⟩

end Wstunnel.L4.TunnelServer
