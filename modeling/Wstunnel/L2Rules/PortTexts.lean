import Wstunnel.Core.AssocMap
import Wstunnel.Core.Collect
import Wstunnel.L2Rules.Restrictions

/-!
# The port texts of a restriction file

The entries of `port` and of `port_mapping` are texts that `restrictions/types.rs`
reads with code of its own. `Writes` and `Maps` say what such a text stands for.

**Third-party code.** `serde_yaml` hands over the entries as texts, in their order; the
numbers are read by the standard library.

**Results.**
* `port_entries`: which ports the texts admit. A range is read with its last port,
  as `restrictions.yaml` says of `80..90`, although that is Rust's text for the
  range without it. A range that is written backwards is accepted and admits no
  port, and so differs from no entry at all, which admits every port.
* `port_mapping_entries`: where the texts map a port. Of two entries for one port
  the later one counts, without a warning.

In both, the first text that does not fit fails the whole file.
-/
namespace Wstunnel.L2.PortTexts

open Wstunnel.Str

/-! ## The readers -/

/-- What `serde::de::Error::custom` is made from. -/
inductive EntryError where
  /-- The `ParseIntError` of a text. -/
  | parseInt (text : List Char)
  /-- `Invalid port_mapping entry: …` -/
  | portMapping (entry : List Char)
  deriving DecidableEq, Repr

/-- `str::parse::<u16>` -/
def readPort (text : List Char) : Except EntryError UInt16 :=
  match parseUnsigned 16 text with
  | some n => .ok (.ofNat n)
  | none => .error (.parseInt text)

/-- `(l.parse()?, r.parse()?)` -/
def readPair (l r : List Char) : Except EntryError (UInt16 × UInt16) := do
  let first ← readPort l
  let last ← readPort r
  return (first, last)

/-- mirrors wstunnel/src/restrictions/types.rs:107-118 -/
def readRange (s : List Char) : Except EntryError PortRange :=
  match splitOnce ['.', '.'] s with
  | some (l, r) => (readPair l r).map fun p => ⟨p.1, p.2⟩
  | none => (readPort s).map fun port => ⟨port, port⟩

/-- mirrors wstunnel/src/restrictions/types.rs:100-124 -/
def deserializePortRange (s : List (List Char)) : Except EntryError (List PortRange) := s.mapM readRange

/-- mirrors wstunnel/src/restrictions/types.rs:133-142 -/
def readMapping (portMapping : List Char) : Except EntryError (UInt16 × UInt16) :=
  match portMapping.splitOn ':' with
  | [origPort, targetPort] => readPair origPort targetPort
  | _ => .error (.portMapping portMapping)

/-- mirrors wstunnel/src/restrictions/types.rs:126-144 -/
def deserializePortMapping (mappings : List (List Char)) : Except EntryError (List (UInt16 × UInt16)) := do
  let pairs ← mappings.mapM readMapping
  return pairs.foldl (fun m e => AssocMap.insert m e.1 e.2) []

/-! ## What the texts stand for -/

/-- Decimal digits, and maybe a `+` in front of them. -/
def Numeral (text : List Char) (port : UInt16) : Prop :=
  ∃ ds, ds ≠ [] ∧ (text = ds ∨ text = '+' :: ds) ∧ digitsVal 10 0 ds = some port.toNat

inductive Writes : List Char → PortRange → Prop
  | single {s : List Char} {port : UInt16} (h : Numeral s port) : Writes s ⟨port, port⟩
  | range {l r : List Char} {first last : UInt16} (hl : Numeral l first) (hr : Numeral r last) :
    Writes (l ++ ['.', '.'] ++ r) ⟨first, last⟩

inductive Maps : List Char → UInt16 → UInt16 → Prop
  | mk {l r : List Char} {orig target : UInt16} (hl : Numeral l orig) (hr : Numeral r target) :
    Maps (l ++ ':' :: r) orig target

/-! ## Numbers -/

theorem numeral_iff {text : List Char} {port : UInt16} :
    Numeral text port ↔ parseUnsigned 16 text = some port.toNat := by
  rw [parseUnsigned_eq_some]
  refine exists_congr fun ds => and_congr_right fun _ => and_congr_right fun _ => ?_
  exact (and_iff_left port.toNat_lt).symm

theorem readPort_eq_ok {text : List Char} {port : UInt16} : readPort text = .ok port ↔ Numeral text port := by
  rw [numeral_iff, readPort]
  cases h : parseUnsigned 16 text with
  | none => simp
  | some n =>
    have hn : n < UInt16.size := lt_of_parseUnsigned h
    rw [Option.some_inj, Except.ok.injEq]
    refine ⟨fun e => ?_, fun e => ?_⟩
    · rw [← e, UInt16.toNat_ofNat_of_lt' hn]
    · rw [e, UInt16.ofNat_toNat]

theorem readPort_error {text : List Char} {e : EntryError} (h : readPort text = .error e) :
    e = .parseInt text ∧ ∀ port, ¬ Numeral text port := by
  refine ⟨?_, fun port hn => ?_⟩
  · unfold readPort at h
    split at h
    · cases h
    · exact (Except.error.inj h).symm
  · rw [readPort_eq_ok.mpr hn] at h
    cases h

/-- Neither separator is part of a number. -/
theorem Numeral.not_mem {text : List Char} {port : UInt16} (h : Numeral text port) {c : Char}
    (hc : c ≠ '+' ∧ toDigit 10 c = none) : c ∉ text := by
  intro hmem
  rcases mem_of_parseUnsigned (numeral_iff.mp h) hmem with hplus | hdigit
  · exact hc.1 hplus
  · rw [hc.2] at hdigit
    cases hdigit

/-! ## Entries -/

theorem readPair_eq_ok {l r : List Char} {p : UInt16 × UInt16} :
    readPair l r = .ok p ↔ Numeral l p.1 ∧ Numeral r p.2 := by
  rw [← readPort_eq_ok, ← readPort_eq_ok, readPair]
  cases readPort l with
  | error e => simp [bind, Except.bind]
  | ok first =>
    cases readPort r with
    | error e => simp [bind, Except.bind]
    | ok last => simp [bind, Except.bind, pure, Except.pure, Prod.ext_iff]

/-- The error names the text of `s` that is no number. -/
def NotAPort (s : List Char) (e : EntryError) : Prop :=
  ∃ text, e = .parseInt text ∧ text <:+: s ∧ ∀ port, ¬ Numeral text port

theorem readPort_notAPort {text s : List Char} {e : EntryError} (h : readPort text = .error e) (hs : text <:+: s) :
    NotAPort s e :=
  ⟨text, (readPort_error h).1, hs, (readPort_error h).2⟩

theorem readPair_notAPort {l r s : List Char} {e : EntryError} (h : readPair l r = .error e) (hl : l <:+: s)
    (hr : r <:+: s) : NotAPort s e := by
  rw [readPair] at h
  cases hfirst : readPort l with
  | error e' =>
    rw [hfirst] at h
    cases h
    exact readPort_notAPort hfirst hl
  | ok first =>
    rw [hfirst] at h
    cases hlast : readPort r with
    | error e' =>
      rw [hlast] at h
      cases h
      exact readPort_notAPort hlast hr
    | ok last =>
      rw [hlast] at h
      cases h

theorem readRange_eq_ok {s : List Char} {r : PortRange} : readRange s = .ok r ↔ Writes s r := by
  refine ⟨fun h => ?_, fun h => ?_⟩
  · unfold readRange at h
    split at h
    · rename_i l t hs
      cases hpair : readPair l t with
      | error e => rw [hpair] at h; cases h
      | ok p =>
        rw [hpair] at h
        cases h
        rw [(splitOnce_first hs).1]
        exact .range (readPair_eq_ok.mp hpair).1 (readPair_eq_ok.mp hpair).2
    · cases hport : readPort s with
      | error e => rw [hport] at h; cases h
      | ok port =>
        rw [hport] at h
        cases h
        exact .single (readPort_eq_ok.mp hport)
  · cases h with
    | single hs =>
      have hnone : splitOnce ['.', '.'] s = none := by
        rw [← Option.not_isSome_iff_eq_none, isSome_splitOnce]
        exact fun hin => hs.not_mem (by decide) (hin.subset List.mem_cons_self)
      rw [readRange, hnone, readPort_eq_ok.mpr hs]
      rfl
    | @range l t first last hl hr =>
      have hpair : readPair l t = .ok (first, last) := readPair_eq_ok.mpr ⟨hl, hr⟩
      rw [readRange, List.append_assoc, splitOnce_append_pattern (hl.not_mem (by decide))]
      simp only [hpair]
      rfl

theorem readRange_notAPort {s : List Char} {e : EntryError} (h : readRange s = .error e) : NotAPort s e := by
  unfold readRange at h
  split at h
  · rename_i l r hs
    cases hpair : readPair l r with
    | ok p => rw [hpair] at h; cases h
    | error e' =>
      rw [hpair] at h
      cases h
      have htext := (splitOnce_first hs).1
      refine readPair_notAPort hpair ⟨[], ['.', '.'] ++ r, ?_⟩ ⟨l ++ ['.', '.'], [], ?_⟩
      · rw [htext, List.nil_append, List.append_assoc]
      · rw [htext, List.append_nil]
  · cases hport : readPort s with
    | ok port => rw [hport] at h; cases h
    | error e' =>
      rw [hport] at h
      cases h
      exact readPort_notAPort hport s.infix_refl

theorem intercalate_pair (l r : List Char) : [':'].intercalate [l, r] = l ++ ':' :: r := by
  rw [List.intercalate_cons_cons, List.intercalate_singleton, List.append_assoc, List.singleton_append]

theorem eq_of_splitOn_pair {s l r : List Char} (h : s.splitOn ':' = [l, r]) : s = l ++ ':' :: r := by
  have hjoin : [':'].intercalate (s.splitOn ':') = s := List.intercalate_splitOn ':'
  rw [← hjoin, h, intercalate_pair]

/-- One colon makes two parts. -/
theorem splitOn_pair {l r : List Char} (hl : ':' ∉ l) (hr : ':' ∉ r) : (l ++ ':' :: r).splitOn ':' = [l, r] := by
  rw [← intercalate_pair]
  refine List.splitOn_intercalate ':' (fun part hpart => ?_) (List.cons_ne_nil _ _)
  rcases List.mem_pair.mp hpart with rfl | rfl
  · exact hl
  · exact hr

theorem readMapping_eq_ok {s : List Char} {p : UInt16 × UInt16} : readMapping s = .ok p ↔ Maps s p.1 p.2 := by
  refine ⟨fun h => ?_, fun h => ?_⟩
  · unfold readMapping at h
    split at h
    · rename_i l r hs
      rw [eq_of_splitOn_pair hs]
      exact .mk (readPair_eq_ok.mp h).1 (readPair_eq_ok.mp h).2
    · cases h
  · obtain ⟨orig, target⟩ := p
    cases h with
    | mk hl hr =>
      rw [readMapping, splitOn_pair (hl.not_mem (by decide)) (hr.not_mem (by decide))]
      exact readPair_eq_ok.mpr ⟨hl, hr⟩

/-- A part that is no number, or not one colon. -/
theorem readMapping_error {s : List Char} {e : EntryError} (h : readMapping s = .error e) :
    NotAPort s e ∨ e = .portMapping s ∧ ∀ l r, s = l ++ ':' :: r → ':' ∈ l ∨ ':' ∈ r := by
  unfold readMapping at h
  split at h
  · rename_i l r hs
    have htext := eq_of_splitOn_pair hs
    refine .inl (readPair_notAPort h ⟨[], ':' :: r, ?_⟩ ⟨l ++ [':'], [], ?_⟩)
    · rw [htext, List.nil_append]
    · rw [htext, List.append_nil, List.append_assoc, List.singleton_append]
  · rename_i hparts
    refine .inr ⟨(Except.error.inj h).symm, fun l r htext => ?_⟩
    by_contra hcolon
    rw [not_or] at hcolon
    exact hparts l r (htext ▸ splitOn_pair hcolon.1 hcolon.2)

/-! ## Whole lists -/

/-- `s` is the first entry that does not fit. -/
def FirstBad (Fits : List Char → Prop) (entries : List (List Char)) (s : List Char) : Prop :=
  ∃ before after, entries = before ++ s :: after ∧ (∀ s' ∈ before, Fits s') ∧ ¬ Fits s

theorem firstBad_of_mapM {β : Type} {f : List Char → Except EntryError β} {Fits : List Char → Prop}
    (hf : ∀ s, (∃ b, f s = .ok b) ↔ Fits s) {entries : List (List Char)} {e : EntryError}
    (h : entries.mapM f = .error e) : ∃ s, FirstBad Fits entries s ∧ f s = .error e := by
  obtain ⟨before, s, after, hentries, herror, hbefore⟩ := Collect.exists_of_mapM_error h
  refine ⟨s, ⟨before, after, hentries, fun s' hs' => (hf s').mp (hbefore s' hs'), fun hfits => ?_⟩, herror⟩
  obtain ⟨b, hok⟩ := (hf s).mpr hfits
  rw [hok] at herror
  cases herror

/-- **Ports.** What a list of port texts admits, or the first text that is none. -/
theorem port_entries (entries : List (List Char)) :
    match deserializePortRange entries with
    | .ok ranges => ∀ port, portAllowed ranges port = true ↔
        entries = [] ∨ ∃ s ∈ entries, ∃ r, Writes s r ∧ r.first ≤ port ∧ port ≤ r.last
    | .error e => ∃ s, FirstBad (∃ r, Writes · r) entries s ∧ NotAPort s e := by
  cases h : deserializePortRange entries with
  | ok ranges =>
    intro port
    have hempty : ranges = [] ↔ entries = [] := by
      have hlen := congrArg List.length (Collect.mapM_eq_ok.mp h)
      rw [List.length_map, List.length_map] at hlen
      rw [← List.length_eq_zero_iff, ← hlen, List.length_eq_zero_iff]
    have hin (r : PortRange) : r ∈ ranges ↔ ∃ s ∈ entries, Writes s r := by
      simp only [Collect.mem_of_mapM h, readRange_eq_ok]
    rw [portAllowed_iff, hempty]
    refine or_congr_right ⟨?_, ?_⟩
    · rintro ⟨r, hr, hport⟩
      obtain ⟨s, hs, hwrites⟩ := (hin r).mp hr
      exact ⟨s, hs, r, hwrites, by simpa [PortRange.contains] using hport⟩
    · rintro ⟨s, hs, r, hwrites, hport⟩
      exact ⟨r, (hin r).mpr ⟨s, hs, hwrites⟩, by simpa [PortRange.contains] using hport⟩
  | error e =>
    obtain ⟨s, hbad, herror⟩ := firstBad_of_mapM (fun _ => exists_congr fun _ => readRange_eq_ok) h
    exact ⟨s, hbad, readRange_notAPort herror⟩

example :
    deserializePortRange ["+22".toList, "8089..8080".toList] = .ok [⟨22, 22⟩, ⟨8089, 8080⟩] ∧
      deserializePortRange ["22".toList, "80..=90".toList] = .error (.parseInt "=90".toList) := ⟨rfl, rfl⟩

/-- Of a map read from entries: the last entry of a port. -/
theorem lookup_of_mapM {entries : List (List Char)} {pairs : List (UInt16 × UInt16)}
    (h : entries.mapM readMapping = .ok pairs) (orig target : UInt16) :
    (pairs.foldl (fun m e => AssocMap.insert m e.1 e.2) []).lookup orig = some target ↔
      ∃ before s after, entries = before ++ s :: after ∧ Maps s orig target ∧
        ∀ s' ∈ after, ∀ target', ¬ Maps s' orig target' := by
  have hmap := Collect.mapM_eq_ok.mp h
  rw [AssocMap.lookup_foldl_insert_eq_some]
  refine ⟨?_, ?_⟩
  · rintro ⟨before, after, rfl, hafter⟩
    rw [List.map_append, List.map_cons] at hmap
    obtain ⟨before', rest, rfl, -, hrest⟩ := List.map_eq_append_iff.mp hmap
    obtain ⟨s, after', rfl, hs, hafter'⟩ := List.map_eq_cons_iff.mp hrest
    refine ⟨before', s, after', rfl, readMapping_eq_ok.mp hs, fun s' hs' target' hmaps => ?_⟩
    have hmem : readMapping s' ∈ after.map .ok := hafter' ▸ List.mem_map_of_mem hs'
    rw [readMapping_eq_ok.mpr (show Maps s' (orig, target').1 (orig, target').2 from hmaps)] at hmem
    obtain ⟨p, hp, he⟩ := List.mem_map.mp hmem
    cases he
    exact hafter _ hp rfl
  · rintro ⟨before, s, after, rfl, hmaps, hafter⟩
    rw [List.map_append, List.map_cons] at hmap
    obtain ⟨before', rest, rfl, -, hrest⟩ := List.map_eq_append_iff.mp hmap.symm
    obtain ⟨p, after', rfl, hp, hafter'⟩ := List.map_eq_cons_iff.mp hrest
    rw [readMapping_eq_ok.mpr (show Maps s (orig, target).1 (orig, target).2 from hmaps)] at hp
    cases hp
    refine ⟨before', after', rfl, fun e he heq => ?_⟩
    have hmem : Except.ok e ∈ after.map readMapping := hafter' ▸ List.mem_map_of_mem he
    obtain ⟨s', hs', hread⟩ := List.mem_map.mp hmem
    exact hafter s' hs' e.2 (heq ▸ readMapping_eq_ok.mp hread)

/-- **Port mappings.** Where a list of mappings takes a port: to the target of the
last entry for it. -/
theorem port_mapping_entries (entries : List (List Char)) :
    match deserializePortMapping entries with
    | .ok portMapping => ∀ orig target, portMapping.lookup orig = some target ↔
        ∃ before s after, entries = before ++ s :: after ∧ Maps s orig target ∧
          ∀ s' ∈ after, ∀ target', ¬ Maps s' orig target'
    | .error e => ∃ s, FirstBad (∃ orig target, Maps · orig target) entries s ∧
        (NotAPort s e ∨ e = .portMapping s ∧ ∀ l r, s = l ++ ':' :: r → ':' ∈ l ∨ ':' ∈ r) := by
  rw [deserializePortMapping]
  cases h : entries.mapM readMapping with
  | ok pairs => exact lookup_of_mapM h
  | error e =>
    have hfits (s : List Char) : (∃ p, readMapping s = .ok p) ↔ ∃ orig target, Maps s orig target := by
      simp only [readMapping_eq_ok, Prod.exists]
    obtain ⟨s, hbad, herror⟩ := firstBad_of_mapM hfits h
    exact ⟨s, hbad, readMapping_error herror⟩

end Wstunnel.L2.PortTexts
