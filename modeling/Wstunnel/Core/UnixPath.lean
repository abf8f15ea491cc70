import Mathlib.Data.List.Infix
import Mathlib.Tactic.Common

/-!
# Unix paths as bytes

`std::path::Path` on Unix: a byte string, read as a list of components
between slashes. `join` is `Path::join` with its real meaning (an absolute
argument replaces the base), `components` drops empty and `.` components,
and `resolve` removes `..` lexically, without looking at any file system.

`StrictlyUnder base p` says that `p` resolves to a path that extends what
`base` resolves to by at least one name. A path obtained from `base` by
appending components without `..` has this property
(`strictlyUnder_of_append`), and `components_join` says what joining a
relative path appends.
-/
namespace Wstunnel.UnixPath

abbrev Path := List UInt8

/-- `b'/'` -/
def slash : UInt8 := 47

/-- `b'.'` -/
def dot : UInt8 := 46

def isAbsolute (p : Path) : Bool := p.head? = some slash

/-- `Path::join`. -/
def join (base p : Path) : Path :=
  if isAbsolute p then p
  else if base ≠ [] ∧ base.getLast? ≠ some slash then base ++ slash :: p
  else base ++ p

/-- The texts between slashes, empty ones included. -/
def segments : Path → List Path
  | [] => [[]]
  | c :: cs =>
    if c = slash then [] :: segments cs
    else match segments cs with
      | s :: ss => (c :: s) :: ss
      | [] => [[c]]

/-- A path as the file system reads it: from the root or not, and its
components, where empty ones and `.` are gone. -/
structure Comps where
  rooted : Bool
  names : List Path
  deriving DecidableEq, Repr

/-- Not an empty or `.` segment. -/
def isComponent (s : Path) : Bool := s ≠ [] ∧ s ≠ [dot]

def components (p : Path) : List Path := (segments p).filter isComponent

def comps (p : Path) : Comps := ⟨isAbsolute p, components p⟩

/-- `Path::file_name`: the last component, unless it is `..`. -/
def fileName (p : Path) : Option Path := (components p).getLast?.filter (· ≠ [dot, dot])

/-- `Path::components`, with `/` for the root; a `.` counts only in front. -/
def parts (p : Path) : List Path :=
  if isAbsolute p then [slash] :: components p
  else if (segments p).head? = some [dot] then [dot] :: components p
  else components p

/-- `Path::ends_with`: whole components. -/
def endsWith (p child : Path) : Bool := (parts child).isSuffixOf (parts p)

/-- A name a directory can list. -/
structure EntryName where
  bytes : Path
  nonempty : bytes ≠ []
  noSlash : slash ∉ bytes
  notDot : bytes ≠ [dot]
  notDotDot : bytes ≠ [dot, dot]
  deriving DecidableEq, Repr

/-! ## Lexical resolution -/

/-- A path without `..`, except for `ups` of them in front when it does not
start at the root. `names` is innermost first. -/
structure Resolved where
  rooted : Bool
  ups : Nat
  names : List Path
  deriving DecidableEq, Repr

def resolveOne (r : Resolved) (s : Path) : Resolved :=
  if s = [dot, dot] then match r.names with
    | _ :: rest => { r with names := rest }
    | [] => if r.rooted then r else { r with ups := r.ups + 1 }
  else { r with names := s :: r.names }

def resolve (c : Comps) : Resolved := c.names.foldl resolveOne ⟨c.rooted, 0, []⟩

/-- `p` lies below `base` by at least one name. -/
def StrictlyUnder (base p : Comps) : Prop :=
  ∃ below, below ≠ [] ∧ resolve p = { resolve base with names := below ++ (resolve base).names }

/-- No component climbs. -/
def NoUps (names : List Path) : Prop := ∀ s ∈ names, s ≠ [dot, dot]

theorem foldl_resolveOne : ∀ (names : List Path) (r : Resolved), NoUps names →
    names.foldl resolveOne r = { r with names := names.reverse ++ r.names }
  | [], _, _ => rfl
  | s :: ss, r, h => by
    rw [List.foldl_cons, foldl_resolveOne ss _ fun s hs => h s (by simp [hs])]
    simp [resolveOne, h s (by simp)]

/-- Appending names without `..`, and at least one, goes strictly below. -/
theorem strictlyUnder_of_append {base p : Comps} (names : List Path)
    (hr : p.rooted = base.rooted) (hp : p.names = base.names ++ names) (hne : names ≠ []) (hno : NoUps names) :
    StrictlyUnder base p := by
  refine ⟨names.reverse, by simpa using hne, ?_⟩
  unfold resolve
  rw [hp, hr, List.foldl_append, foldl_resolveOne _ _ hno]

/-! ## What `join` appends -/

theorem segments_ne_nil : ∀ p : Path, segments p ≠ []
  | [] => by simp [segments]
  | c :: cs => by
    unfold segments
    split
    · simp
    · split <;> simp

theorem segments_append_slash : ∀ a b : Path, segments (a ++ slash :: b) = segments a ++ segments b
  | [], b => by simp [segments]
  | c :: cs, b => by
    rw [List.cons_append, segments, segments, segments_append_slash cs b]
    split
    · rfl
    · cases hs : segments cs with
      | nil => exact absurd hs (segments_ne_nil cs)
      | cons s ss => rfl

theorem components_append_slash (a b : Path) :
    components (a ++ slash :: b) = components a ++ components b := by
  simp [components, segments_append_slash]

theorem components_nil : components [] = [] := by decide

theorem components_join (base : Path) {p : Path} (hp : isAbsolute p = false) :
    components (join base p) = components base ++ components p := by
  unfold join
  rw [if_neg (by simp [hp])]
  split
  · exact components_append_slash base p
  · rename_i h
    by_cases hb : base = []
    · rw [hb, components_nil]; rfl
    · have hl : base.getLast? = some slash := by
        by_contra hc; exact h ⟨hb, hc⟩
      obtain ⟨b, rfl⟩ := List.getLast?_eq_some_iff.mp hl
      rw [List.append_assoc, List.singleton_append, components_append_slash,
        components_append_slash, components_nil, List.append_nil]

theorem isAbsolute_join (base : Path) {p : Path} (hp : isAbsolute p = false) :
    isAbsolute (join base p) = isAbsolute base := by
  unfold join
  rw [if_neg (by simp [hp])]
  cases base with
  | nil => simpa [isAbsolute] using hp
  | cons c cs => split <;> rfl

/-- Joining a relative path appends its components. -/
theorem comps_join (base : Path) {p : Path} (hp : isAbsolute p = false) :
    comps (join base p) = ⟨(comps base).rooted, (comps base).names ++ components p⟩ := by
  simp [comps, components_join base hp, isAbsolute_join base hp]

/-! ## Entries of a directory -/

theorem segments_of_noSlash : ∀ p : Path, slash ∉ p → segments p = [p]
  | [], _ => rfl
  | c :: cs, h => by
    have hc : c ≠ slash := fun hc => h (by simp [hc])
    rw [segments, if_neg hc, segments_of_noSlash cs fun hm => h (List.mem_cons_of_mem c hm)]

namespace EntryName

variable (n : EntryName)

theorem components_bytes : components n.bytes = [n.bytes] := by
  simp [components, segments_of_noSlash _ n.noSlash, isComponent, n.nonempty, n.notDot]

theorem relative : isAbsolute n.bytes = false := by
  have := n.noSlash
  unfold isAbsolute
  cases h : n.bytes with
  | nil => rfl
  | cons c cs =>
    rw [h] at this
    simp only [List.head?_cons, Option.some.injEq, decide_eq_false_iff_not]
    exact fun hc => this (by simp [hc])

theorem comps_join (dir : Path) :
    comps (join dir n.bytes) = ⟨(comps dir).rooted, (comps dir).names ++ [n.bytes]⟩ := by
  rw [UnixPath.comps_join dir n.relative, n.components_bytes]

/-- The entry's path ends in its name. -/
theorem fileName_join (dir : Path) : fileName (join dir n.bytes) = some n.bytes := by
  have := congrArg Comps.names (n.comps_join dir)
  simp only [comps] at this
  simp [fileName, this, n.notDotDot]

theorem length_join (dir : Path) : dir.length < (join dir n.bytes).length := by
  have := List.length_pos_iff.mpr n.nonempty
  unfold join
  rw [if_neg (by simp [n.relative])]
  split
  · simp
  · simpa using this

end EntryName

/-! ## Directories and their ancestors -/

/-- The path and its ancestors, without the root or the empty path. -/
def lineage (c : Comps) : List Comps :=
  (c.names.inits.filter (· ≠ [])).map fun names => ⟨c.rooted, names⟩

theorem mem_lineage {c a : Comps} :
    a ∈ lineage c ↔ a.rooted = c.rooted ∧ a.names ≠ [] ∧ a.names <+: c.names := by
  simp only [lineage, List.mem_map, List.mem_filter, List.mem_inits, decide_eq_true_eq, ne_eq]
  refine ⟨?_, ?_⟩
  · rintro ⟨names, ⟨hp, hne⟩, rfl⟩
    exact ⟨rfl, hne, hp⟩
  · intro ⟨hr, hne, hp⟩
    exact ⟨a.names, ⟨hp, hne⟩, by cases a; cases hr; rfl⟩

/-- An ancestor of an extended path is an ancestor of the path, or extends
it by some of the new names. -/
theorem mem_lineage_append {c a : Comps} {names : List Path}
    (h : a ∈ lineage ⟨c.rooted, c.names ++ names⟩) :
    a ∈ lineage c ∨ ∃ more, more ≠ [] ∧ more <+: names ∧ a = ⟨c.rooted, c.names ++ more⟩ := by
  obtain ⟨hr, hne, hp⟩ := mem_lineage.mp h
  rcases List.prefix_or_prefix_of_prefix hp (List.prefix_append c.names names) with hc | ⟨more, hm⟩
  · exact .inl (mem_lineage.mpr ⟨hr, hne, hc⟩)
  · rw [← hm, List.prefix_append_right_inj] at hp
    by_cases hmore : more = []
    · exact .inl (mem_lineage.mpr ⟨hr, hne, by rw [← hm, hmore, List.append_nil]⟩)
    · exact .inr ⟨more, hmore, hp, by cases a; cases hr; cases hm; rfl⟩

end Wstunnel.UnixPath
