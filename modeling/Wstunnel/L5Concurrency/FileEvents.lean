import Wstunnel.Core.Threads
import Wstunnel.Core.UnixPath

/-!
# File events and the threads that handle them

The three reloaders (restriction rules, server TLS, client TLS) have one
shape. The watcher's thread calls the handler for one event after the other;
a handler that finds its file removed, or cannot load it, spawns a thread
(`try_rewatch_*`) that waits for the file, watches it again and then runs the
handler itself on a made-up create event.

`watchStep` is that shape, with what the handler does left open: `enter` is
what it has to do for an event and `work` its next atomic step, which gives
the rest of the work and the paths to watch again. Events, their order and
the answers of the file system are inputs.

**Third-party code.** Nothing is assumed of `notify` but that the thread of a watcher
handles one event after the other: events may be late, doubled, about other paths,
or not come at all. Spawned threads run whenever they do.

**Results.**
* `watchMove`: only `work` changes the shared state; every other step starts,
  ends or moves a thread.
* `watch_inductive`: an invariant of the shared state and of what the handlers
  carry has to be shown for the steps of `work` alone.
-/
namespace Wstunnel.L5.Reload

open Wstunnel.UnixPath

/-- `notify::EventKind`, without the details of each kind. -/
inductive EventKind where
  | any | access | create | modify | remove | other
  deriving DecidableEq, Repr

structure Event where
  kind : EventKind
  paths : List Path
  deriving DecidableEq, Repr

inductive Action where
  | reload (path : Path)
  | rewatch (path : Path)
  deriving DecidableEq, Repr

/-- What a handler does about the file it watches.
mirrors wstunnel/src/restrictions/config_reloader.rs:147-165, and
wstunnel/src/tunnel/tls_reloader.rs:185-210, 212-232, 234-258, 275-318, 320-362 -/
def Event.action (watched : Path) (e : Event) : Option Action :=
  if e.kind = .access then none
  else (e.paths.find? (endsWith · watched)).bind fun path => match e.kind with
    | .create | .modify => some (.reload path)
    | .remove => some (.rewatch path)
    | .access | .other | .any => none

/-- `watching` is the watcher's thread between two events; `waiting` and
`rewatching` are the two points of a spawned thread before it handles its own
event. -/
inductive Thread (H : Type) where
  | watching
  | handling (spawned : Bool) (h : H)
  | waiting (path : Path)
  | rewatching (path : Path)
  deriving DecidableEq, Repr

inductive Input (L : Type) where
  /-- `none` is an error of the watcher -/
  | event (e : Option Event)
  | work (l : L)
  | pathExists (found : Bool)
  | watch (ok : Bool)
  deriving DecidableEq, Repr

variable {S H L : Type}

/-- The watcher's thread goes back to its events, a spawned one ends. -/
def goOn (spawned : Bool) : Option H → List (Thread H)
  | some h => [.handling spawned h]
  | none => if spawned then [] else [.watching]

/-- mirrors wstunnel/src/restrictions/config_reloader.rs:100-131 and
wstunnel/src/tunnel/tls_reloader.rs:137-169 -/
def watchStep (enter : Event → Option H) (work : S → H → L → Option (S × Option H × List Path)) (s : S) :
    Thread H → Input L → Option (S × List (Thread H))
  | .watching, .event e => some (s, goOn false (e.bind enter))
  | .handling spawned h, .work l => (work s h l).map fun (s', rest, paths) =>
      (s', goOn spawned rest ++ paths.map .waiting)
  | .waiting path, .pathExists found => some (s, [if found then .rewatching path else .waiting path])
  | .rewatching path, .watch ok =>
    some (s, if ok then goOn true (enter ⟨.create, [path]⟩) else [])
  | _, _ => none

/-- At the handler's first step. -/
inductive Entered (enter : Event → Option H) : Thread H → Prop where
  | watching : Entered enter .watching
  | waiting (path : Path) : Entered enter (.waiting path)
  | rewatching (path : Path) : Entered enter (.rewatching path)
  | handling {spawned : Bool} {e : Event} {h : H} (he : enter e = some h) :
      Entered enter (.handling spawned h)

variable {enter : Event → Option H} {work : S → H → L → Option (S × Option H × List Path)}

theorem entered_goOn (spawned : Bool) (e : Option Event) :
    ∀ u ∈ goOn spawned (e.bind enter), Entered enter u := by
  intro u hu
  cases he : e.bind enter with
  | some h =>
    rw [he] at hu
    obtain rfl := List.mem_singleton.mp hu
    obtain ⟨e', -, he'⟩ := Option.bind_eq_some_iff.mp he
    exact .handling he'
  | none =>
    rw [he] at hu
    cases spawned with
    | true => cases hu
    | false =>
      obtain rfl := List.mem_singleton.mp hu
      exact .watching

/-- A thread outside its handler leaves the shared state alone and comes to
its handler's beginning; inside it the step is the handler's. -/
inductive WatchMove (enter : Event → Option H) (work : S → H → L → Option (S × Option H × List Path))
    (s : S) : Thread H → Input L → S → List (Thread H) → Prop where
  | outside {t : Thread H} {i : Input L} {ts : List (Thread H)} (ht : ∀ spawned h, t ≠ .handling spawned h)
      (hts : ∀ u ∈ ts, Entered enter u) : WatchMove enter work s t i s ts
  | inside {spawned : Bool} {h : H} {l : L} {s' : S} {rest : Option H} {paths : List Path}
      (hw : work s h l = some (s', rest, paths)) :
      WatchMove enter work s (.handling spawned h) (.work l) s' (goOn spawned rest ++ paths.map .waiting)

theorem watchMove {s s' : S} {t : Thread H} {i : Input L} {ts : List (Thread H)}
    (h : watchStep enter work s t i = some (s', ts)) : WatchMove enter work s t i s' ts := by
  cases t with
  | watching =>
    cases i with
    | event e =>
      cases h
      exact .outside (fun _ _ => nofun) (entered_goOn false e)
    | _ => cases h
  | handling spawned hd =>
    cases i with
    | work l =>
      obtain ⟨⟨s'', rest, paths⟩, hw, he⟩ := Option.map_eq_some_iff.mp h
      cases he
      exact .inside hw
    | _ => cases h
  | waiting path =>
    cases i with
    | pathExists found =>
      cases h
      refine .outside (fun _ _ => nofun) fun u hu => ?_
      obtain rfl := List.mem_singleton.mp hu
      cases found with
      | true => exact .rewatching path
      | false => exact .waiting path
    | _ => cases h
  | rewatching path =>
    cases i with
    | watch ok =>
      cases h
      refine .outside (fun _ _ => nofun) fun u hu => ?_
      cases ok with
      | true => exact entered_goOn true (some ⟨.create, [path]⟩) u hu
      | false => cases hu
    | _ => cases h

/-! ## What the handlers carry -/

variable {α E : Type}

/-- What a thread carries in its handler, when `f` says what the handler
carries at each point. -/
def carried (f : H → Option α) : Thread H → Option α
  | .handling _ h => f h
  | _ => none

theorem carried_entered {f : H → Option α} (hf : ∀ e h, enter e = some h → f h = none) {t : Thread H}
    (h : Entered enter t) : carried f t = none := by
  cases h with
  | handling he => exact hf _ _ he
  | _ => rfl

theorem filterMap_carried_goOn (f : H → Option α) (spawned : Bool) (rest : Option H) (paths : List Path) :
    (goOn spawned rest ++ paths.map Thread.waiting).filterMap (carried f) = (rest.bind f).toList := by
  have hpaths : (paths.map Thread.waiting).filterMap (carried f) = [] := by
    rw [List.filterMap_eq_nil_iff]
    intro t ht
    obtain ⟨path, -, rfl⟩ := List.mem_map.mp ht
    rfl
  rw [List.filterMap_append, hpaths, List.append_nil]
  cases rest with
  | none => cases spawned <;> rfl
  | some h =>
    rw [Option.bind_some, goOn, List.filterMap_cons]
    cases hh : f h <;> simp [carried, hh]

/-- A handler begins with nothing, and its own steps keep the property. -/
theorem guard_watch_inductive {f : H → Option α} {s₀ : S} {env : S → E → Option S}
    {G : Threads S (Thread H) → Threads.Label E (Input L) → Prop} {I : S → List α → Prop}
    (hf : ∀ e h, enter e = some h → f h = none) (hinit : I s₀ [])
    (henv : ∀ s c e s', I s c → env s e = some s' → I s' c)
    (hwork : ∀ s pre spawned h post l s' rest paths a b, I s (a ++ (f h).toList ++ b) →
      G ⟨s, pre ++ .handling spawned h :: post⟩ (.thread pre.length (.work l)) →
      work s h l = some (s', rest, paths) → I s' (a ++ (rest.bind f).toList ++ b)) :
    ((Threads.system ⟨s₀, [.watching]⟩ env (watchStep enter work)).guard G).Inductive fun x =>
      I x.shared (x.threads.filterMap (carried f)) := by
  refine Threads.guard_inductive (I := fun s ts => I s (ts.filterMap (carried f))) hinit ?_ ?_
  · intro s ts e s' h _ hs
    exact henv s _ e s' h hs
  · intro s pre t post i s' ts h hg hs
    rw [List.filterMap_append, List.filterMap_cons] at h
    rw [List.filterMap_append, List.filterMap_append]
    cases watchMove hs with
    | outside ht hts =>
      have hnone : carried f t = none := by
        cases t with
        | handling spawned hd => exact absurd rfl (ht spawned hd)
        | _ => rfl
      have hnil : ts.filterMap (carried f) = [] :=
        List.filterMap_eq_nil_iff.mpr fun u hu => carried_entered hf (hts u hu)
      rw [hnone] at h
      rwa [hnil, List.append_nil]
    | inside hw =>
      rw [filterMap_carried_goOn]
      refine hwork _ _ _ _ _ _ _ _ _ _ _ ?_ hg hw
      rename_i hd l rest paths
      rw [carried] at h
      cases hc : f hd <;> simpa [hc] using h

theorem watch_inductive {f : H → Option α} {s₀ : S} {env : S → E → Option S} {I : S → List α → Prop}
    (hf : ∀ e h, enter e = some h → f h = none) (hinit : I s₀ [])
    (henv : ∀ s c e s', I s c → env s e = some s' → I s' c)
    (hwork : ∀ s h l s' rest paths a b, I s (a ++ (f h).toList ++ b) →
      work s h l = some (s', rest, paths) → I s' (a ++ (rest.bind f).toList ++ b)) :
    (Threads.system ⟨s₀, [.watching]⟩ env (watchStep enter work)).Inductive fun x =>
      I x.shared (x.threads.filterMap (carried f)) :=
  (guard_watch_inductive hf hinit henv fun s _ _ h _ l s' rest paths a b hi _ hw =>
    hwork s h l s' rest paths a b hi hw).of_guard_true

/-- Nothing is carried when no thread is in its handler. -/
theorem filterMap_carried_eq_nil {f : H → Option α} {ts : List (Thread H)}
    (h : ∀ spawned hd, .handling spawned hd ∈ ts → f hd = none) : ts.filterMap (carried f) = [] := by
  refine List.filterMap_eq_nil_iff.mpr fun t ht => ?_
  cases t with
  | handling spawned hd => exact h spawned hd ht
  | _ => rfl

end Wstunnel.L5.Reload
