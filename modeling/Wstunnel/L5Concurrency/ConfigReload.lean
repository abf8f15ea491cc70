import Wstunnel.L5Concurrency.FileEvents
import Wstunnel.L2Rules.Restrictions

/-!
# Reloading the restriction rules

`RestrictionsRulesReloader` of `restrictions/config_reloader.rs`. A handler
reads and parses the file and then publishes the rules, in two steps that
nothing holds together: handlers on the watcher's thread and on the threads
of `try_rewatch_config` interleave, and the file changes at any time.

The file is its history: `versions` holds every content it has had, `none`
while it does not exist. `reads` and `stores` log the versions that handlers
have read and stored.

**Third-party code.** `parse` is `serde_yaml` with the checks of the rules, any
function of the content; a read sees one version of the file as a whole. `ArcSwap`
publishes the rules in one step. `notify` may report any events in any order, late
or never (`FileEvents`).

**Results.**
* `rules_newest`: when stores happen in the order of the versions, then with
  all handlers done the rules are those of the newest version that a handler
  read and could parse. The rules change only by the store of a version that
  parsed.
* `olderStore_in_force`: a spawned thread stores the older version last.
-/
namespace Wstunnel.L5.Reload

open Wstunnel.L2 Wstunnel.UnixPath

/-- Contents are of any type: `parse` is `serde_yaml::from_reader`. -/
structure Config (C : Type) where
  versions : List (Option C)
  rules : RestrictionsRules
  reads : List Nat
  stores : List Nat

/-- Where `handle_config_fs_event` is. -/
inductive ConfigWork where
  | removed (path : Path)
  | reload
  | parsed (version : Nat) (rules : RestrictionsRules)
  deriving DecidableEq, Repr

inductive ConfigLabel where
  | spawn | read | store
  deriving DecidableEq, Repr

variable {C : Type} (parse : C → Option RestrictionsRules)

/-- `RestrictionsRules::from_config_file` on that version of the file.
mirrors wstunnel/src/restrictions/mod.rs:18-21 -/
def fromConfigFile (versions : List (Option C)) (v : Nat) : Option RestrictionsRules :=
  (versions[v]?.join).bind parse

/-- `state` is the path of `Config`, or `Static`.
mirrors wstunnel/src/restrictions/config_reloader.rs:133-166 -/
def handleConfigFsEvent (state : Option Path) (e : Event) : Option ConfigWork :=
  (state.bind fun configPath => e.action configPath).map fun
    | .reload _ => .reload
    | .rewatch path => .removed path

/-- `reload_restrictions_config` and the spawning of a thread.
mirrors wstunnel/src/restrictions/config_reloader.rs:78-94 and 154-160 -/
def configWork (s : Config C) : ConfigWork → ConfigLabel →
    Option (Config C × Option ConfigWork × List Path)
  | .removed path, .spawn => some (s, none, [path])
  | .reload, .read =>
    let v := s.versions.length - 1
    some ({ s with reads := s.reads ++ [v] }, (fromConfigFile parse s.versions v).map (.parsed v), [])
  | .parsed v rules, .store => some ({ s with rules, stores := s.stores ++ [v] }, none, [])
  | _, _ => none

/-- The file gets new content, or is removed. -/
def changeFile (s : Config C) (c : Option C) : Option (Config C) :=
  some { s with versions := s.versions ++ [c] }

/-- mirrors wstunnel/src/restrictions/config_reloader.rs:41-76 -/
def newReloader (rules : RestrictionsRules) (content : Option C) : Threads (Config C) (Thread ConfigWork) :=
  ⟨⟨[content], rules, [], []⟩, [.watching]⟩

def reloader (state : Option Path) (rules : RestrictionsRules) (content : Option C) :
    LTS (Threads (Config C) (Thread ConfigWork)) (Threads.Label (Option C) (Input ConfigLabel)) :=
  Threads.system (newReloader rules content) changeFile
    (watchStep (handleConfigFsEvent state) (configWork parse))

/-- No handler stores a version older than one that is already stored. -/
def storesInOrder (x : Threads (Config C) (Thread ConfigWork)) :
    Threads.Label (Option C) (Input ConfigLabel) → Bool
  | .thread i (.work .store) => match x.threads[i]? with
    | some (.handling _ (.parsed v _)) => x.shared.stores.all (· ≤ v)
    | _ => true
  | _ => true

/-- The newest version that a handler has read and could parse. -/
def newestParsed (s : Config C) : Option Nat :=
  (s.reads.filter fun v => (fromConfigFile parse s.versions v).isSome).max?

/-! ## Versions on their way to the rules -/

/-- The version a handler has parsed and not yet stored. -/
def held : ConfigWork → Option (Nat × RestrictionsRules)
  | .parsed v rules => some (v, rules)
  | .removed _ | .reload => none

/-- `inHand` are the versions on their way. -/
structure ConfigInv (rules₀ : RestrictionsRules) (s : Config C) (inHand : List (Nat × RestrictionsRules)) :
    Prop where
  exists_version : 0 < s.versions.length
  read_lt : ∀ v ∈ s.reads, v < s.versions.length
  inHand_read : ∀ x ∈ inHand, x.1 ∈ s.reads ∧ fromConfigFile parse s.versions x.1 = some x.2
  parsed_kept : ∀ v ∈ s.reads, (fromConfigFile parse s.versions v).isSome →
    v ∈ s.stores ∨ ∃ rules, (v, rules) ∈ inHand
  stored_read : ∀ v ∈ s.stores, v ∈ s.reads ∧ (fromConfigFile parse s.versions v).isSome
  last_newest : ∀ v, s.stores.getLast? = some v → ∀ u ∈ s.stores, u ≤ v
  inForce : s.rules = (s.stores.getLast?.bind (fromConfigFile parse s.versions)).getD rules₀

variable {parse} {rules₀ : RestrictionsRules}

theorem fromConfigFile_append {versions : List (Option C)} {v : Nat} (h : v < versions.length)
    (c : Option C) : fromConfigFile parse (versions ++ [c]) v = fromConfigFile parse versions v := by
  rw [fromConfigFile, fromConfigFile, List.getElem?_append_left h]

theorem ConfigInv.stored_lt {s : Config C} {inHand : List (Nat × RestrictionsRules)}
    (h : ConfigInv parse rules₀ s inHand) {v : Nat} (hv : v ∈ s.stores) : v < s.versions.length :=
  h.read_lt v (h.stored_read v hv).1

theorem changeFile_inv {s : Config C} {inHand : List (Nat × RestrictionsRules)}
    (h : ConfigInv parse rules₀ s inHand) (c : Option C) :
    ConfigInv parse rules₀ { s with versions := s.versions ++ [c] } inHand where
  exists_version := by simp
  read_lt v hv := by
    have hlt := h.read_lt v hv
    rw [List.length_append]
    omega
  inHand_read x hx := by
    obtain ⟨hread, hparse⟩ := h.inHand_read x hx
    exact ⟨hread, (fromConfigFile_append (h.read_lt _ hread) c).trans hparse⟩
  parsed_kept v hv hsome := by
    rw [fromConfigFile_append (h.read_lt v hv)] at hsome
    exact h.parsed_kept v hv hsome
  stored_read v hv := by
    rw [fromConfigFile_append (h.stored_lt hv)]
    exact h.stored_read v hv
  last_newest := h.last_newest
  inForce := by
    rw [h.inForce]
    cases hlast : s.stores.getLast? with
    | none => rfl
    | some v =>
      have hv := h.stored_lt (List.mem_of_getLast? hlast)
      rw [Option.bind_some, Option.bind_some, fromConfigFile_append hv]

/-- A version is read: it is on its way if it could be parsed. -/
theorem read_inv {s : Config C} {a b : List (Nat × RestrictionsRules)}
    (h : ConfigInv parse rules₀ s (a ++ b)) :
    ConfigInv parse rules₀ { s with reads := s.reads ++ [s.versions.length - 1] }
      (a ++ ((fromConfigFile parse s.versions (s.versions.length - 1)).map
        (s.versions.length - 1, ·)).toList ++ b) where
  exists_version := h.exists_version
  read_lt v hv := by
    rcases List.mem_append.mp hv with hv | hv
    · exact h.read_lt v hv
    · have hpos := h.exists_version
      have heq := List.mem_singleton.mp hv
      show v < s.versions.length
      omega
  inHand_read x hx := by
    have hold : x ∈ a ++ b → x.1 ∈ s.reads ++ [s.versions.length - 1] ∧
        fromConfigFile parse s.versions x.1 = some x.2 := fun hx =>
      (h.inHand_read x hx).imp_left (List.mem_append_left _)
    rw [List.append_assoc] at hx
    rcases List.mem_append.mp hx with hx | hx
    · exact hold (List.mem_append_left _ hx)
    · rcases List.mem_append.mp hx with hx | hx
      · rw [Option.mem_toList, Option.map_eq_some_iff] at hx
        obtain ⟨rules, hr, rfl⟩ := hx
        exact ⟨List.mem_concat_self, hr⟩
      · exact hold (List.mem_append_right _ hx)
  parsed_kept v hv hsome := by
    rcases List.mem_append.mp hv with hv | hv
    · refine (h.parsed_kept v hv hsome).imp_right fun ⟨rules, hr⟩ => ⟨rules, ?_⟩
      simp only [List.mem_append] at hr ⊢
      tauto
    · obtain rfl := List.mem_singleton.mp hv
      obtain ⟨rules, hr⟩ := Option.isSome_iff_exists.mp hsome
      exact .inr ⟨rules, by simp [hr]⟩
  stored_read v hv := (h.stored_read v hv).imp_left (List.mem_append_left _)
  last_newest := h.last_newest
  inForce := h.inForce

/-- A version is stored after only older ones. -/
theorem store_inv {s : Config C} {a b : List (Nat × RestrictionsRules)} {v : Nat}
    {rules : RestrictionsRules} (h : ConfigInv parse rules₀ s (a ++ (v, rules) :: b))
    (horder : ∀ u ∈ s.stores, u ≤ v) :
    ConfigInv parse rules₀ { s with rules, stores := s.stores ++ [v] } (a ++ b) where
  exists_version := h.exists_version
  read_lt := h.read_lt
  inHand_read x hx := h.inHand_read x (by simp only [List.mem_append, List.mem_cons] at hx ⊢; tauto)
  parsed_kept u hu hsome := by
    rcases h.parsed_kept u hu hsome with hs | ⟨r, hr⟩
    · exact .inl (List.mem_append_left _ hs)
    · simp only [List.mem_append, List.mem_cons, Prod.mk.injEq, List.not_mem_nil, or_false] at hr ⊢
      rcases hr with hr | ⟨rfl, -⟩ | hr
      · exact .inr ⟨r, .inl hr⟩
      · exact .inl (.inr rfl)
      · exact .inr ⟨r, .inr hr⟩
  stored_read u hu := by
    rcases List.mem_append.mp hu with hu | hu
    · exact h.stored_read u hu
    · obtain rfl := List.mem_singleton.mp hu
      obtain ⟨hread, hparse⟩ := h.inHand_read (u, rules) (by simp)
      exact ⟨hread, Option.isSome_iff_exists.mpr ⟨_, hparse⟩⟩
  last_newest w hw u hu := by
    rw [List.getLast?_concat, Option.some.injEq] at hw
    subst hw
    rcases List.mem_append.mp hu with hu | hu
    · exact horder u hu
    · exact Nat.le_of_eq (List.mem_singleton.mp hu)
  inForce := by
    obtain ⟨-, hparse⟩ := h.inHand_read (v, rules) (by simp)
    rw [List.getLast?_concat, Option.bind_some, hparse, Option.getD_some]

theorem held_enter {state : Option Path} {e : Event} {w : ConfigWork}
    (h : handleConfigFsEvent state e = some w) : held w = none := by
  obtain ⟨action, -, rfl⟩ := Option.map_eq_some_iff.mp h
  cases action <;> rfl

theorem configInv_inductive (state : Option Path) (content : Option C) :
    ((reloader parse state rules₀ content).guard fun x l => storesInOrder x l = true).Inductive
      fun x => ConfigInv parse rules₀ x.shared (x.threads.filterMap (carried held)) := by
  refine guard_watch_inductive (fun _ _ => held_enter) ?_ ?_ ?_
  · exact ⟨Nat.one_pos, nofun, nofun, nofun, nofun, nofun, rfl⟩
  · intro s inHand c s' h hs
    cases hs
    exact changeFile_inv h c
  · intro s pre spawned w post l s' rest paths a b h hg hw
    -- one case for each step of the handler
    cases w with
    | removed path =>
      cases l with
      | spawn =>
        cases hw
        exact h
      | _ => cases hw
    | reload =>
      cases l with
      | read =>
        cases hw
        rw [held, Option.toList_none, List.append_nil] at h
        have hread := read_inv h
        rw [Option.map_eq_bind] at hread
        rwa [Option.bind_map]
      | _ => cases hw
    | parsed v rules =>
      cases l with
      | store =>
        cases hw
        simp only [storesInOrder, List.getElem?_append_right (Nat.le_refl _), Nat.sub_self,
          List.getElem?_cons_zero, List.all_eq_true, decide_eq_true_eq] at hg
        rw [held, Option.toList_some, List.append_assoc] at h
        rw [Option.bind_none, Option.toList_none, List.append_nil]
        exact store_inv h hg
      | _ => cases hw

/-! ## The rules in force -/

theorem ConfigInv.newestParsed_eq {s : Config C} (h : ConfigInv parse rules₀ s []) :
    newestParsed parse s = s.stores.getLast? := by
  have hstored : ∀ v, v ∈ s.reads.filter (fun v => (fromConfigFile parse s.versions v).isSome) ↔
      v ∈ s.stores := by
    intro v
    rw [List.mem_filter]
    refine ⟨fun ⟨hv, hsome⟩ => ?_, h.stored_read v⟩
    exact (h.parsed_kept v hv hsome).resolve_right nofun
  cases hlast : s.stores.getLast? with
  | none =>
    have hnil := List.getLast?_eq_none_iff.mp hlast
    refine List.max?_eq_none_iff.mpr (List.eq_nil_iff_forall_not_mem.mpr fun v hv => ?_)
    rw [hstored, hnil] at hv
    cases hv
  | some v =>
    refine List.max?_eq_some_iff.mpr ⟨(hstored v).mpr (List.mem_of_getLast? hlast), fun u hu => ?_⟩
    exact h.last_newest v hlast u ((hstored u).mp hu)

theorem configWork_rules {s s' : Config C} {w : ConfigWork} {l : ConfigLabel} {rest : Option ConfigWork}
    {paths : List Path} (h : configWork parse s w l = some (s', rest, paths)) :
    s'.rules = s.rules ∨ ∃ v, w = .parsed v s'.rules := by
  cases w <;> cases l <;> cases h
  · exact .inl rfl
  · exact .inl rfl
  · exact .inr ⟨_, rfl⟩

/-- **Newest rules win.** With stores in the order of the versions, the rules
in force once all handlers are done are those of the newest version that a
handler read and could parse, and the initial ones if there is none. Every
step leaves the rules alone or puts in force those of a version that was read
and could be parsed. -/
theorem rules_newest (parse : C → Option RestrictionsRules) (state : Option Path)
    (rules₀ : RestrictionsRules) (content : Option C) (x : Threads (Config C) (Thread ConfigWork))
    (hr : ((reloader parse state rules₀ content).guard
      fun x l => storesInOrder x l = true).Reachable x) :
    ((∀ spawned w, Thread.handling spawned w ∉ x.threads) → x.shared.rules =
      ((newestParsed parse x.shared).bind (fromConfigFile parse x.shared.versions)).getD rules₀) ∧
    ∀ l y, (reloader parse state rules₀ content).step x l y → y.shared.rules = x.shared.rules ∨
      ∃ v ∈ x.shared.reads, fromConfigFile parse x.shared.versions v = some y.shared.rules := by
  have h := (configInv_inductive state content).reachable x hr
  refine ⟨fun hdone => ?_, fun l y hs => ?_⟩
  · rw [filterMap_carried_eq_nil fun spawned w hw => absurd hw (hdone spawned w)] at h
    rw [h.newestParsed_eq, h.inForce]
  · cases Threads.move_of_step hs with
    | env he =>
      cases he
      exact .inl rfl
    | thread ht =>
      cases watchMove ht with
      | outside => exact .inl rfl
      | inside hw =>
        refine (configWork_rules hw).imp_right fun ⟨v, hv⟩ => ?_
        subst hv
        exact ⟨v, h.inHand_read (v, _)
          (List.mem_filterMap.mpr ⟨_, List.mem_append_right _ List.mem_cons_self, rfl⟩)⟩

/-- A file with one rule, named by its text. -/
def oneRule (text : String) : Option RestrictionsRules :=
  if text = "" then none else some ⟨[⟨text, [.any], []⟩]⟩

/-- `/r` -/
def rulesPath : Path := [47, 114]

/-- The file is removed and comes back as `b`; the spawned thread reads it.
Then it changes to `c`, which the watcher's thread reads. -/
def removedThenChanged : List (Threads.Label (Option String) (Input ConfigLabel)) :=
  [.env none, .thread 0 (.event (some ⟨.remove, [rulesPath]⟩)), .thread 0 (.work .spawn),
   .env (some "b"), .thread 1 (.pathExists true), .thread 1 (.watch true), .thread 1 (.work .read),
   .env (some "c"), .thread 0 (.event (some ⟨.modify, [rulesPath]⟩)), .thread 0 (.work .read)]

theorem rules_newest_storedInOrder : ∃ x : Threads (Config String) (Thread ConfigWork),
    ((reloader oneRule (some rulesPath) ⟨[]⟩ (some "a")).guard
      fun x l => storesInOrder x l = true).Reachable x ∧
    (∀ spawned w, Thread.handling spawned w ∉ x.threads) ∧
    newestParsed oneRule x.shared = some 3 ∧ x.shared.rules =
      ((newestParsed oneRule x.shared).bind (fromConfigFile oneRule x.shared.versions)).getD ⟨[]⟩ := by
  obtain ⟨x, hs, hts, hnew⟩ : ∃ x : Threads (Config String) (Thread ConfigWork),
      LTS.exec (fun x l => if storesInOrder x l = true then Threads.step changeFile
        (watchStep (handleConfigFsEvent (some rulesPath)) (configWork oneRule)) x l else none)
        (newReloader ⟨[]⟩ (some "a"))
        (removedThenChanged ++ [.thread 1 (.work .store), .thread 0 (.work .store)]) = some x ∧
      x.threads = [.watching] ∧ newestParsed oneRule x.shared = some 3 := ⟨_, rfl, rfl, rfl⟩
  have hr : ((reloader oneRule (some rulesPath) ⟨[]⟩ (some "a")).guard
      fun x l => storesInOrder x l = true).Reachable x := ⟨_, _, rfl, LTS.run_guard_ofFn hs⟩
  have hdone : ∀ spawned w, Thread.handling spawned w ∉ x.threads := by simp [hts]
  exact ⟨x, hr, hdone, hnew, (rules_newest oneRule _ _ _ x hr).1 hdone⟩

/-- The spawned thread stores last: `b` is in force although `c` was read,
parsed and stored. -/
theorem olderStore_in_force : ∃ x : Threads (Config String) (Thread ConfigWork),
    (reloader oneRule (some rulesPath) ⟨[]⟩ (some "a")).Reachable x ∧
    (∀ spawned w, Thread.handling spawned w ∉ x.threads) ∧
    some x.shared.rules = oneRule "b" ∧ (newestParsed oneRule x.shared).bind
      (fromConfigFile oneRule x.shared.versions) = oneRule "c" ∧ oneRule "b" ≠ oneRule "c" := by
  obtain ⟨x, hs, hts, hrules, hnew⟩ : ∃ x : Threads (Config String) (Thread ConfigWork),
      LTS.exec (Threads.step changeFile
        (watchStep (handleConfigFsEvent (some rulesPath)) (configWork oneRule)))
        (newReloader ⟨[]⟩ (some "a"))
        (removedThenChanged ++ [.thread 0 (.work .store), .thread 1 (.work .store)]) = some x ∧
      x.threads = [.watching] ∧ some x.shared.rules = oneRule "b" ∧ (newestParsed oneRule x.shared).bind
        (fromConfigFile oneRule x.shared.versions) = oneRule "c" := ⟨_, rfl, rfl, rfl, rfl⟩
  exact ⟨x, ⟨_, _, rfl, LTS.run_ofFn.mpr hs⟩, by simp [hts], hrules, hnew, by decide⟩

end Wstunnel.L5.Reload
