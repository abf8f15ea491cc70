import Wstunnel.Core.Str

/-!
# UUIDs as text

`uuid::Uuid::parse_str`: 32 hexadecimal digits, or five groups of them with
hyphens between, these also in braces or behind `urn:uuid:`. Digits are read
in either case, `urn:uuid:` in lower case only.

* `write_of_parse`, `parse_write`: what is accepted are 32 digits in one of
  the four forms, and the form says nothing about the value.
* `parse_map_toLower`: the value survives lower case.
* `chars_of_parse`: the characters of what is accepted.
-/
namespace Wstunnel.UuidText

open Wstunnel.Str

/-- The value of hexadecimal digits. -/
def hex (s : List Char) : Option (BitVec 128) := (digitsVal 16 0 s).map (BitVec.ofNat 128)

/-- Takes the hyphens out from behind a group of `n` characters and from
between groups of the lengths that follow. -/
def joinGroups (n : Nat) : List Nat → List Char → Option (List Char)
  | [], s => if s.length = n then some s else none
  | m :: ns, s => match s.drop n with
    | '-' :: rest => (joinGroups m ns rest).map (s.take n ++ ·)
    | _ => none

def parseHyphenated (s : List Char) : Option (BitVec 128) := (joinGroups 8 [4, 4, 4, 12] s).bind hex

def urn : List Char := "urn:uuid:".toList

/-- `Uuid::parse_str`, which looks at the length first. -/
def parse (s : List Char) : Option (BitVec 128) :=
  if s.length = 32 then hex s
  else if s.length = 36 then parseHyphenated s
  else if s.length = 38 then
    if s.head? = some '{' ∧ s.getLast? = some '}' then parseHyphenated s.tail.dropLast else none
  else if s.length = 45 then if urn <+: s then parseHyphenated (s.drop urn.length) else none
  else none

example : parse "00000000000000000000000000000a0B".toList = some 0xa0b := by decide
example : parse "\x7b00000000-0000-0000-0001-000000000002\x7d".toList = some 0x1000000000002 := by decide
example : parse "URN:uuid:00000000-0000-0000-0000-000000000002".toList = none := by decide

/-! ## The four forms -/

inductive Form where
  | simple | hyphenated | braced | urn
  deriving DecidableEq, Repr

/-- Puts the hyphens in. -/
def hyphenate (n : Nat) : List Nat → List Char → List Char
  | [], d => d
  | m :: ns, d => d.take n ++ '-' :: hyphenate m ns (d.drop n)

def Form.write : Form → List Char → List Char
  | .simple, d => d
  | .hyphenated, d => hyphenate 8 [4, 4, 4, 12] d
  | .braced, d => '{' :: (hyphenate 8 [4, 4, 4, 12] d ++ ['}'])
  | .urn, d => UuidText.urn ++ hyphenate 8 [4, 4, 4, 12] d

/-- How many characters the groups have. -/
def groupsLength (n : Nat) : List Nat → Nat
  | [] => n
  | m :: ns => n + groupsLength m ns

theorem joinGroups_eq_some {n : Nat} {ns : List Nat} {s d : List Char} :
    joinGroups n ns s = some d ↔ d.length = groupsLength n ns ∧ s = hyphenate n ns d := by
  induction ns generalizing n s d with
  | nil =>
    rw [joinGroups, Option.ite_none_right_eq_some, Option.some.injEq, groupsLength, hyphenate]
    refine ⟨fun ⟨hlength, heq⟩ => ⟨heq ▸ hlength, heq⟩, fun ⟨hlength, heq⟩ => ⟨heq ▸ hlength, heq⟩⟩
  | cons m ns ih =>
    rw [joinGroups, hyphenate, groupsLength]
    refine ⟨fun h => ?_, fun ⟨hlength, heq⟩ => ?_⟩
    · split at h
      · rename_i rest hdrop
        obtain ⟨d', hd', rfl⟩ := Option.map_eq_some_iff.mp h
        obtain ⟨hlength, hrest⟩ := ih.mp hd'
        have htake : (s.take n).length = n := by
          have := congrArg List.length hdrop
          rw [List.length_drop, List.length_cons] at this
          rw [List.length_take]
          omega
        refine ⟨by rw [List.length_append, htake, hlength], ?_⟩
        rw [List.take_left' htake, List.drop_left' htake, ← hrest, ← hdrop, List.take_append_drop]
      · cases h
    · have htake : (d.take n).length = n := by
        rw [List.length_take, hlength]
        omega
      have hrest : joinGroups m ns (hyphenate m ns (d.drop n)) = some (d.drop n) :=
        ih.mpr ⟨by rw [List.length_drop, hlength]; omega, rfl⟩
      rw [heq, List.drop_left' htake, List.take_left' htake]
      simp only [hrest, Option.map_some, List.take_append_drop]

theorem length_hyphenate (n : Nat) (ns : List Nat) (d : List Char) :
    (hyphenate n ns d).length = d.length + ns.length := by
  induction ns generalizing n d with
  | nil => rfl
  | cons m ns ih =>
    rw [hyphenate, List.length_append, List.length_cons, ih, List.length_cons, List.length_take, List.length_drop]
    omega

theorem parseHyphenated_hyphenate {d : List Char} (hd : d.length = 32) :
    parseHyphenated (hyphenate 8 [4, 4, 4, 12] d) = hex d := by
  rw [parseHyphenated, joinGroups_eq_some.mpr ⟨hd, rfl⟩, Option.bind_some]

theorem parseHyphenated_eq_some {s : List Char} {u : BitVec 128} (h : parseHyphenated s = some u) :
    ∃ d, d.length = 32 ∧ hex d = some u ∧ s = hyphenate 8 [4, 4, 4, 12] d := by
  obtain ⟨d, hd, hu⟩ := Option.bind_eq_some_iff.mp h
  obtain ⟨hlength, hs⟩ := joinGroups_eq_some.mp hd
  exact ⟨d, hlength, hu, hs⟩

/-- Every form is read back. -/
theorem parse_write (form : Form) {d : List Char} (hd : d.length = 32) : parse (form.write d) = hex d := by
  have hread := parseHyphenated_hyphenate hd
  have hlength : (hyphenate 8 [4, 4, 4, 12] d).length = 36 := by
    rw [length_hyphenate, hd]
    rfl
  cases form with
  | simple => rw [parse, Form.write, if_pos hd]
  | hyphenated => rw [parse, Form.write, hlength, if_neg (by decide), if_pos rfl, hread]
  | braced =>
    have hlast : ('{' :: (hyphenate 8 [4, 4, 4, 12] d ++ ['}'])).getLast? = some '}' := by
      rw [← List.cons_append]
      exact List.getLast?_concat
    rw [parse, Form.write, List.length_cons, List.length_append, hlength, if_neg (by decide), if_neg (by decide),
      if_pos (by decide), if_pos ⟨List.head?_cons, hlast⟩, List.tail_cons, List.dropLast_concat, hread]
  | urn =>
    rw [parse, Form.write, List.length_append, hlength, if_neg (by decide), if_neg (by decide), if_neg (by decide),
      if_pos (by decide), if_pos (List.prefix_append _ _), List.drop_left, hread]

theorem braced_of_ends {s : List Char} {a b : Char} (hhead : s.head? = some a) (hlast : s.getLast? = some b)
    (hne : a ≠ b) : ∃ inner, s = a :: (inner ++ [b]) := by
  obtain ⟨rest, rfl⟩ := List.head?_eq_some_iff.mp hhead
  obtain ⟨inner, hinner⟩ := List.getLast?_eq_some_iff.mp hlast
  cases inner with
  | nil => exact absurd (List.cons.inj hinner).1 hne
  | cons c inner => exact ⟨inner, by rw [hinner, (List.cons.inj hinner).1]; rfl⟩

/-- What is accepted has one of the four forms. -/
theorem write_of_parse {s : List Char} {u : BitVec 128} (h : parse s = some u) :
    ∃ form d, d.length = 32 ∧ hex d = some u ∧ s = Form.write form d := by
  unfold parse at h
  split at h
  · rename_i hlength
    exact ⟨.simple, s, hlength, h, rfl⟩
  · split at h
    · obtain ⟨d, hlength, hu, rfl⟩ := parseHyphenated_eq_some h
      exact ⟨.hyphenated, d, hlength, hu, rfl⟩
    · split at h
      · rw [Option.ite_none_right_eq_some] at h
        obtain ⟨⟨hhead, hlast⟩, h⟩ := h
        obtain ⟨inner, rfl⟩ := braced_of_ends hhead hlast (by decide)
        rw [List.tail_cons, List.dropLast_concat] at h
        obtain ⟨d, hlength, hu, rfl⟩ := parseHyphenated_eq_some h
        exact ⟨.braced, d, hlength, hu, rfl⟩
      · rw [Option.ite_none_right_eq_some, Option.ite_none_right_eq_some] at h
        obtain ⟨-, ⟨rest, rfl⟩, h⟩ := h
        rw [List.drop_left] at h
        obtain ⟨d, hlength, hu, rfl⟩ := parseHyphenated_eq_some h
        exact ⟨.urn, d, hlength, hu, rfl⟩

/-! ## Lower case -/

theorem toDigit_toLower (c : Char) : toDigit 16 c.toLower = toDigit 16 c := by
  by_cases hc : c.toNat < 0x80
  · exact forall_ascii (p := fun c => toDigit 16 c.toLower = toDigit 16 c) (by decide) hc
  · have hlower : c.toLower = c := dif_neg fun hupper =>
      hc (Nat.lt_of_le_of_lt (UInt32.le_iff_toNat_le.mp hupper.2) (by decide))
    rw [hlower]

theorem digitsVal_map_toLower (acc : Nat) (s : List Char) :
    digitsVal 16 acc (s.map Char.toLower) = digitsVal 16 acc s := by
  induction s generalizing acc with
  | nil => rfl
  | cons c s ih =>
    rw [List.map_cons, digitsVal, digitsVal, toDigit_toLower]
    exact Option.bind_congr fun d _ => ih _

theorem map_toLower_hyphenate (n : Nat) (ns : List Nat) (d : List Char) :
    (hyphenate n ns d).map Char.toLower = hyphenate n ns (d.map Char.toLower) := by
  induction ns generalizing n d with
  | nil => rfl
  | cons m ns ih =>
    rw [hyphenate, hyphenate, List.map_append, List.map_cons, ih, List.map_take, List.map_drop]
    rfl

theorem map_toLower_write (form : Form) (d : List Char) :
    (form.write d).map Char.toLower = form.write (d.map Char.toLower) := by
  cases form with
  | simple => rfl
  | hyphenated => exact map_toLower_hyphenate _ _ _
  | braced =>
    rw [Form.write, List.map_cons, List.map_append, map_toLower_hyphenate]
    rfl
  | urn =>
    rw [Form.write, List.map_append, map_toLower_hyphenate]
    rfl

/-- The value does not depend on the case of the digits. -/
theorem parse_map_toLower {s : List Char} {u : BitVec 128} (h : parse s = some u) :
    parse (s.map Char.toLower) = some u := by
  obtain ⟨form, d, hlength, hu, rfl⟩ := write_of_parse h
  rw [map_toLower_write, parse_write form (by rw [List.length_map, hlength]), hex, digitsVal_map_toLower]
  exact hu

/-! ## The characters of a UUID -/

/-- Of every form but the one with `urn:uuid:`. -/
def alphabet : List Char := "0123456789abcdefABCDEF-\x7b\x7d".toList

theorem mem_alphabet_of_toDigit {c : Char} {d : Nat} (h : toDigit 16 c = some d) : c ∈ alphabet := by
  have hascii : c.toNat < 0x80 := by
    have hrange := (toDigit_eq_some h).2
    omega
  have hmem := forall_ascii (p := fun c => (toDigit 16 c).isSome = true → c ∈ alphabet) (by decide) hascii
  exact hmem (h ▸ rfl)

theorem mem_alphabet_of_digitsVal {acc n : Nat} {d : List Char} (h : digitsVal 16 acc d = some n) :
    ∀ c ∈ d, c ∈ alphabet := by
  induction d generalizing acc with
  | nil => exact fun c hc => absurd hc List.not_mem_nil
  | cons c d ih =>
    obtain ⟨v, hv, hrest⟩ := Option.bind_eq_some_iff.mp h
    exact List.forall_mem_cons.mpr ⟨mem_alphabet_of_toDigit hv, ih hrest⟩

theorem mem_of_mem_hyphenate {n : Nat} {ns : List Nat} {d : List Char} {c : Char} (h : c ∈ hyphenate n ns d) :
    c = '-' ∨ c ∈ d := by
  induction ns generalizing n d with
  | nil => exact .inr h
  | cons m ns ih =>
    rw [hyphenate, List.mem_append, List.mem_cons] at h
    rcases h with h | h | h
    · exact .inr (List.mem_of_mem_take h)
    · exact .inl h
    · exact (ih h).imp_right List.mem_of_mem_drop

/-- What is accepted is made of digits, hyphens and braces, behind `urn:uuid:`
perhaps. -/
theorem chars_of_parse {s : List Char} {u : BitVec 128} (h : parse s = some u) :
    ∃ rest, (s = rest ∨ s = urn ++ rest) ∧ ∀ c ∈ rest, c ∈ alphabet := by
  obtain ⟨form, d, hlength, hu, rfl⟩ := write_of_parse h
  obtain ⟨n, hn, -⟩ := Option.map_eq_some_iff.mp hu
  have hdigits := mem_alphabet_of_digitsVal hn
  have hgroups : ∀ c ∈ hyphenate 8 [4, 4, 4, 12] d, c ∈ alphabet := by
    intro c hc
    rcases mem_of_mem_hyphenate hc with rfl | hc
    · decide
    · exact hdigits c hc
  cases form with
  | simple => exact ⟨d, .inl rfl, hdigits⟩
  | hyphenated => exact ⟨_, .inl rfl, hgroups⟩
  | braced =>
    refine ⟨_, .inl rfl, fun c hc => ?_⟩
    rw [Form.write, List.mem_cons, List.mem_append, List.mem_singleton] at hc
    rcases hc with rfl | hc | rfl
    · decide
    · exact hgroups c hc
    · decide
  | urn => exact ⟨_, .inr rfl, hgroups⟩

/-- A property of characters is checked on those that can occur. -/
theorem all_of_parse {s : List Char} {u : BitVec 128} {p : Char → Bool} (h : parse s = some u)
    (hp : (urn ++ alphabet).all p = true) : ∀ c ∈ s, p c = true := by
  rw [List.all_append, Bool.and_eq_true, List.all_eq_true, List.all_eq_true] at hp
  obtain ⟨rest, rfl | rfl, hrest⟩ := chars_of_parse h
  · exact fun c hc => hp.2 c (hrest c hc)
  · exact fun c hc => (List.mem_append.mp hc).elim (hp.1 c) fun hc => hp.2 c (hrest c hc)

end Wstunnel.UuidText
