import Mathlib.Data.List.Basic
import Mathlib.Tactic.Common

/-!
# Streams of records, read as they come

A reader takes one record after the other off the front of what it has received.
What it expects next may depend on the record before (a header announces data), so
it has a state; and when it has too little, it waits (`Front`). A `Format` is such
a reader together with a writer.

**What is asked of a format (`Lawful`).** A well-formed record is read back from its
bytes, whatever follows them, and no sooner; and nothing else than a well-formed
record is ever read.

**Results**, for records each of which may stand behind the one before (`Chain`).
* `sees_of_wellFormed`: of every beginning of the stream the reader has read the
  records that are whole, and waits with a part of the next one.
* `wellFormed_of_sees`: if that is so for the whole stream, all records are
  well-formed.
-/
namespace Wstunnel.Framing

/-- What a reader makes of what it has received. -/
inductive Front (S R α : Type) where
  | wait
  | bad
  | record (r : R) (s : S) (rest : List α)

structure Format (S R α : Type) where
  init : S
  next : S → List α → Front S R α
  write : R → List α
  /-- The state behind a record, where that may stand. -/
  follow : S → R → Option S

namespace Format

variable {S R α : Type} (F : Format S R α)

/-- At most `n` records, and what is left. -/
def readUpTo : Nat → S → List α → Option (List R × List α)
  | 0, _, l => some ([], l)
  | n + 1, s, l => match F.next s l with
    | .wait => some ([], l)
    | .bad => none
    | .record r s' rest => (readUpTo n s' rest).map fun p => (r :: p.1, p.2)

/-- Everything that can be read; a record takes at least one element. -/
def read (l : List α) : Option (List R × List α) := F.readUpTo l.length F.init l

/-- Each of the records may stand where it stands. -/
def Chain (s : S) (records : List R) : Prop := ∃ s', records.foldlM F.follow s = some s'

/-- A beginning of the first of these records, but not all of it. -/
def PartOf (ahead : List R) (rest : List α) : Prop :=
  rest = [] ∨ ∃ r later, ahead = r :: later ∧ rest <+: F.write r ∧ rest ≠ F.write r

/-- The reader has read the first of the records, and waits with a part of the next. -/
def Sees (expected : List R) (l : List α) : Prop :=
  ∃ seen ahead rest, expected = seen ++ ahead ∧ F.read l = some (seen, rest) ∧ F.PartOf ahead rest

structure Lawful (WellFormed : R → Prop) : Prop where
  write_ne_nil : ∀ r, F.write r ≠ []
  next_nil : ∀ s, F.next s [] = .wait
  whole : ∀ s r s' more, WellFormed r → F.follow s r = some s' → F.next s (F.write r ++ more) = .record r s' more
  part : ∀ s r s' l, WellFormed r → F.follow s r = some s' → l <+: F.write r → l ≠ F.write r → F.next s l = .wait
  sound : ∀ s l r s' rest, F.next s l = .record r s' rest → WellFormed r

variable {F} {WellFormed : R → Prop}

theorem Chain.of_append {s : S} {records later : List R} (h : F.Chain s (records ++ later)) :
    ∃ s', records.foldlM F.follow s = some s' ∧ F.Chain s' later := by
  obtain ⟨t, ht⟩ := h
  rw [List.foldlM_append] at ht
  obtain ⟨s', hs', ht'⟩ := Option.bind_eq_some_iff.mp ht
  exact ⟨s', hs', t, ht'⟩

theorem length_le_flatMap (hF : F.Lawful WellFormed) (records : List R) :
    records.length ≤ (records.flatMap F.write).length := by
  induction records with
  | nil => exact Nat.zero_le _
  | cons r records ih =>
    have hpos := List.length_pos_iff.mpr (hF.write_ne_nil r)
    rw [List.flatMap_cons, List.length_append, List.length_cons]
    omega

/-- Well-formed records are read off one by one. -/
theorem readUpTo_append (hF : F.Lawful WellFormed) {records : List R} (hwf : ∀ r ∈ records, WellFormed r)
    {s s' : S} (hchain : records.foldlM F.follow s = some s') (n : Nat) (l : List α) :
    F.readUpTo (records.length + n) s (records.flatMap F.write ++ l) =
      (F.readUpTo n s' l).map fun p => (records ++ p.1, p.2) := by
  induction records generalizing s with
  | nil =>
    cases hchain
    simp
  | cons r records ih =>
    rw [List.foldlM_cons] at hchain
    obtain ⟨s₁, hfollow, hchain⟩ := Option.bind_eq_some_iff.mp hchain
    have hnext := hF.whole s r s₁ (records.flatMap F.write ++ l) (hwf r List.mem_cons_self) hfollow
    have hrest := ih (fun r hr => hwf r (List.mem_cons_of_mem _ hr)) hchain
    rw [List.length_cons, Nat.add_right_comm, List.flatMap_cons, List.append_assoc, readUpTo]
    simp only [hnext, hrest, Option.map_map]
    rfl

theorem readUpTo_of_wait {n : Nat} {s : S} {l : List α} (h : F.next s l = .wait) :
    F.readUpTo n s l = some ([], l) := by
  cases n with
  | zero => rfl
  | succ n => rw [readUpTo, h]

theorem read_of_wait (hF : F.Lawful WellFormed) {records : List R} (hwf : ∀ r ∈ records, WellFormed r)
    {s : S} (hchain : records.foldlM F.follow F.init = some s) {l : List α} (hl : F.next s l = .wait) :
    F.read (records.flatMap F.write ++ l) = some (records, l) := by
  have hlen := length_le_flatMap hF records
  obtain ⟨n, hn⟩ := Nat.exists_eq_add_of_le (Nat.le_trans hlen (Nat.le_add_right _ l.length))
  rw [read, List.length_append, hn, readUpTo_append hF hwf hchain, readUpTo_of_wait hl]
  simp

theorem read_whole (hF : F.Lawful WellFormed) {records : List R} (hwf : ∀ r ∈ records, WellFormed r)
    (hchain : F.Chain F.init records) : F.read (records.flatMap F.write) = some (records, []) := by
  obtain ⟨s, hs⟩ := hchain
  have hread := read_of_wait hF hwf hs (hF.next_nil s)
  rwa [List.append_nil] at hread

/-- A beginning of the stream is cut within one record at most. -/
theorem exists_cut {records : List R} {l : List α} (h : l <+: records.flatMap F.write) :
    ∃ seen ahead rest, records = seen ++ ahead ∧ l = seen.flatMap F.write ++ rest ∧ F.PartOf ahead rest := by
  induction records generalizing l with
  | nil => exact ⟨[], [], [], rfl, List.prefix_nil.mp h, .inl rfl⟩
  | cons r records ih =>
    rw [List.flatMap_cons] at h
    by_cases hle : (F.write r).length ≤ l.length
    · obtain ⟨l', rfl⟩ := List.prefix_of_prefix_length_le (List.prefix_append _ _) h hle
      obtain ⟨seen, ahead, rest, rfl, rfl, hpart⟩ := ih ((List.prefix_append_right_inj _).mp h)
      exact ⟨r :: seen, ahead, rest, rfl, by rw [List.flatMap_cons, List.append_assoc], hpart⟩
    · have hlt : l.length < (F.write r).length := Nat.lt_of_not_le hle
      refine ⟨[], r :: records, l, rfl, rfl, .inr ⟨r, records, rfl, ?_, fun heq => ?_⟩⟩
      · exact List.prefix_of_prefix_length_le h (List.prefix_append _ _) (Nat.le_of_lt hlt)
      · rw [heq] at hlt
        exact absurd hlt (Nat.lt_irrefl _)

theorem sees_of_wellFormed (hF : F.Lawful WellFormed) {expected : List R} (hwf : ∀ r ∈ expected, WellFormed r)
    (hchain : F.Chain F.init expected) {l : List α} (hl : l <+: expected.flatMap F.write) :
    F.Sees expected l := by
  obtain ⟨seen, ahead, rest, rfl, rfl, hpart⟩ := exists_cut hl
  obtain ⟨s, hs, s', hahead⟩ := hchain.of_append
  have hseen : ∀ r ∈ seen, WellFormed r := fun r hr => hwf r (List.mem_append_left _ hr)
  refine ⟨seen, ahead, rest, rfl, read_of_wait hF hseen hs ?_, hpart⟩
  rcases hpart with rfl | ⟨r, later, rfl, hpre, hne⟩
  · exact hF.next_nil s
  · rw [List.foldlM_cons] at hahead
    obtain ⟨s₁, hfollow, -⟩ := Option.bind_eq_some_iff.mp hahead
    exact hF.part s r s₁ rest (hwf r (List.mem_append_right _ List.mem_cons_self)) hfollow hpre hne

/-- Only well-formed records are read. -/
theorem wellFormed_of_readUpTo (hF : F.Lawful WellFormed) {n : Nat} {s : S} {l rest : List α} {records : List R}
    (h : F.readUpTo n s l = some (records, rest)) : ∀ r ∈ records, WellFormed r := by
  induction n generalizing s l records with
  | zero =>
    cases h
    exact fun r hr => absurd hr List.not_mem_nil
  | succ n ih =>
    rw [readUpTo] at h
    split at h
    · cases h
      exact fun r hr => absurd hr List.not_mem_nil
    · cases h
    · rename_i r s' rest' hnext
      obtain ⟨⟨later, rest''⟩, hlater, hrecords⟩ := Option.map_eq_some_iff.mp h
      cases hrecords
      exact List.forall_mem_cons.mpr ⟨hF.sound s l r s' rest' hnext, ih hlater⟩

/-- If no record was read, nothing was taken. -/
theorem rest_of_readUpTo_nil {n : Nat} {s : S} {l rest : List α} (h : F.readUpTo n s l = some ([], rest)) :
    rest = l := by
  cases n with
  | zero =>
    cases h
    rfl
  | succ n =>
    rw [readUpTo] at h
    split at h
    · cases h
      rfl
    · cases h
    · obtain ⟨p, -, hp⟩ := Option.map_eq_some_iff.mp h
      cases hp

/-- Whole records are no part of the first of them. -/
theorem eq_nil_of_partOf (hF : F.Lawful WellFormed) {ahead : List R} (h : F.PartOf ahead (ahead.flatMap F.write)) :
    ahead = [] := by
  rcases h with hnil | ⟨r, later, rfl, hpre, hne⟩
  · cases ahead with
    | nil => rfl
    | cons r later =>
      rw [List.flatMap_cons] at hnil
      exact absurd (List.append_eq_nil_iff.mp hnil).1 (hF.write_ne_nil r)
  · rw [List.flatMap_cons] at hpre hne
    have hlen := hpre.length_le
    have hlater : later.flatMap F.write = [] := by
      rw [List.length_append] at hlen
      exact List.eq_nil_of_length_eq_zero (by omega)
    exact absurd (by rw [hlater, List.append_nil]) hne

theorem wellFormed_of_sees (hF : F.Lawful WellFormed) {expected : List R} (hchain : F.Chain F.init expected)
    (h : F.Sees expected (expected.flatMap F.write)) : ∀ r ∈ expected, WellFormed r := by
  obtain ⟨seen, ahead, rest, rfl, hread, hpart⟩ := h
  have hseen := wellFormed_of_readUpTo hF hread
  obtain ⟨s, hs, -⟩ := hchain.of_append
  -- the reader got to the records ahead, and took nothing of them
  have hlen := length_le_flatMap hF (seen ++ ahead)
  rw [List.length_append] at hlen
  obtain ⟨n, hn⟩ := Nat.exists_eq_add_of_le (Nat.le_trans (Nat.le_add_right _ _) hlen)
  rw [read, hn, List.flatMap_append, readUpTo_append hF hseen hs] at hread
  obtain ⟨⟨later, rest'⟩, hlater, heq⟩ := Option.map_eq_some_iff.mp hread
  obtain ⟨hnil, rfl⟩ := Prod.mk.inj heq
  obtain rfl : later = [] := List.append_right_eq_self.mp hnil
  rw [rest_of_readUpTo_nil hlater] at hpart
  rw [eq_nil_of_partOf hF hpart, List.append_nil]
  exact hseen

end Format

end Wstunnel.Framing
