import Wstunnel.Core.Utf8
import Wstunnel.L1Encoding.Net

/-!
# Reading a host: `url::Host::parse`

The host parser of the URL standard, as the `url` crate has it: brackets for
an IPv6 address; else the text is percent-decoded, brought to ASCII and lower
case, refused if it has a forbidden character, and read as an IPv4 address if
its last label is a number, as a domain otherwise.

**Third-party code.** `uts46` stands for what the `idna` crate does with the
names that it changes by more than their case: those with characters outside of
ASCII or with a label in Punycode. Nothing is assumed of it here.

**Results.**
* `hostParse_of_plain`: what becomes of a name of one label that is neither.
* `canonicalDomain_iff`: the domains that are read as themselves are those in
  lower case without a forbidden character, and those that IDNA gives back; none
  ends in a number.
-/
namespace Wstunnel.L1

open Wstunnel.Str

/-! ## The parser -/

/-- The value of an ASCII digit to the base sixteen. -/
def hexByte (b : UInt8) : Option UInt8 := (toDigit 16 (Char.ofNat b.toNat)).map UInt8.ofNat

/-- The byte that `%` and two digits stand for. -/
def escaped (percent high low : UInt8) : Option UInt8 := do
  if percent ≠ 0x25 then none
  else return (← hexByte high) * 16 + (← hexByte low)

/-- `percent_decode`: a `%` without two digits behind it stays. -/
def percentDecode : List UInt8 → List UInt8
  | b :: high :: low :: rest => match escaped b high low with
    | some byte => byte :: percentDecode rest
    | none => b :: percentDecode (high :: low :: rest)
  | bs => bs

/-- The labels of a name. -/
def labels (name : List Char) : List (List Char) := splitn '.' name.length name

/-- `AsciiDenyList::URL`; braces are not on the list. -/
def forbiddenDomainChar (c : Char) : Bool :=
  c.toNat ≤ 0x20 || c.toNat = 0x7F || "%#/:<>?@[\\]^|".toList.contains c

/-- `idna::domain_to_ascii_from_cow` -/
def domainToAscii (uts46 : List UInt8 → Option (List Char)) (bytes : List UInt8) : Option (List Char) :=
  let name := (bytes.map fun b => Char.ofNat b.toNat).map Char.toLower
  if bytes.all (· < 0x80) && !(labels name).any ("xn--".toList.isPrefixOf ·) then
    if name.any forbiddenDomainChar then none else some name
  else uts46 bytes

/-- The base of a number, and the digits behind its mark. -/
def ipv4Radix : List Char → Nat × List Char
  | '0' :: 'x' :: rest | '0' :: 'X' :: rest => (16, rest)
  | '0' :: c :: rest => (8, c :: rest)
  | s => (10, s)

/-- `none` for what is no number, `some none` for a number that does not fit
into 32 bits. -/
def parseIpv4Number (s : List Char) : Option (Option Nat) :=
  if s = [] then none
  else
    let (radix, digits) := ipv4Radix s
    if digits = [] then some (some 0)
    else (digitsVal radix 0 digits).map fun n => if n < 2 ^ 32 then some n else none

/-- The last label, or the one before when the name ends with a dot. -/
def lastLabel (name : List Char) : Option (List Char) :=
  match (labels name).reverse with
  | [[]] => none
  | [] :: last :: _ => some last
  | last :: _ => some last
  | [] => none

def endsInANumber (name : List Char) : Bool :=
  match lastLabel name with
  | none => false
  | some last => (last ≠ [] && last.all Char.isDigit) || (parseIpv4Number last).isSome

/-- `parse_ipv4addr`: the last number fills what the others leave. -/
def parseIpv4Addr (name : List Char) : Option Ipv4Addr :=
  let parts := labels name
  let parts := if parts.getLast? = some [] then parts.dropLast else parts
  if 4 < parts.length then none
  else do
    let numbers ← parts.mapM fun part => (parseIpv4Number part).join
    let last ← numbers.getLast?
    let others := numbers.dropLast
    if 256 ^ (4 - others.length) ≤ last || others.any (255 < ·) then none
    else some (BitVec.ofNat 32 (others.zipIdx.foldl (fun ipv4 (n, counter) => ipv4 + n * 256 ^ (3 - counter)) last))

/-- `Host::parse`. Between brackets, the grammar is that of
`Ipv6Addr::from_str`. -/
def hostParse (uts46 : List UInt8 → Option (List Char)) (input : String) : Option Host :=
  match input.toList with
  | '[' :: rest =>
    if rest.getLast? = some ']' then (ipv6FromStr rest.dropLast).map .ipv6 else none
  | text => do
    let domain ← domainToAscii uts46 (percentDecode (Utf8.encode text))
    if domain = [] then none
    else if endsInANumber domain then (parseIpv4Addr domain).map .ipv4
    else some (.domain (String.ofList domain))

example : hostParse (fun _ => none) "EXAMPLE.com" = some (.domain "example.com") := by decide
example : hostParse (fun _ => none) "0x7f.1" = some (.ipv4 0x7F000001) := by decide
example : hostParse (fun _ => none) "[::1]" = some (.ipv6 1) := by decide
example : hostParse (fun _ => none) "1.2.3.4.5" = none ∧ hostParse (fun _ => none) "a%3Ab" = none := by decide

/-! ## Names of one label -/

variable {uts46 : List UInt8 → Option (List Char)}

/-- An ASCII character that changes nothing about how the rest is read. -/
def plainChar (c : Char) : Bool := c.toNat < 0x80 && c ≠ '%' && c ≠ '[' && c ≠ '.' && c.toLower ≠ 'x'

theorem percentDecode_of_not_mem : ∀ {bs : List UInt8}, 0x25 ∉ bs → percentDecode bs = bs
  | b :: high :: low :: rest, h => by
    have hne : b ≠ 0x25 := fun heq => h (heq ▸ List.mem_cons_self)
    rw [percentDecode, show escaped b high low = none from if_pos hne]
    exact congrArg (b :: ·) (percentDecode_of_not_mem fun hmem => h (List.mem_cons_of_mem _ hmem))
  | [], _ | [_], _ | [_, _], _ => rfl

theorem labels_of_not_mem {name : List Char} (h : '.' ∉ name) : labels name = [name] := by
  rw [labels]
  cases name.length with
  | zero => rfl
  | succ n => rw [splitn, splitOnce_of_not_mem h]

theorem ascii_of_plainChar {c : Char} (h : plainChar c = true) : c.toNat < 0x80 := by
  simp only [plainChar, Bool.and_eq_true, decide_eq_true_eq] at h
  exact h.1.1.1.1

/-- Lower case makes none of the characters that matter. -/
theorem toLower_of_plainChar {c : Char} (h : plainChar c = true) :
    (c.toLower ≠ '.' ∧ c.toLower ≠ 'x' ∧ c.toLower ≠ 'X') ∧ c.toLower.isDigit = c.isDigit :=
  forall_ascii (p := fun c => plainChar c = true → (c.toLower ≠ '.' ∧ c.toLower ≠ 'x' ∧ c.toLower ≠ 'X') ∧
    c.toLower.isDigit = c.isDigit) (by decide +kernel) (ascii_of_plainChar h) h

theorem not_mem_map_toLower {cs : List Char} {d : Char} (h : ∀ c ∈ cs, c.toLower ≠ d) : d ∉ cs.map Char.toLower := by
  intro hmem
  obtain ⟨c, hc, heq⟩ := List.mem_map.mp hmem
  exact h c hc heq

/-- ASCII without a `%` or an `x`, so that no label is in Punycode. -/
def unescapedChar (c : Char) : Bool := c.toNat < 0x80 && c ≠ '%' && c.toLower ≠ 'x'

theorem unescapedChar_iff {c : Char} :
    unescapedChar c = true ↔ c.toNat < 0x80 ∧ c ≠ '%' ∧ c.toLower ≠ 'x' := by
  simp [unescapedChar, and_assoc]

theorem percentDecode_of_ascii {cs : List Char} (h : ∀ c ∈ cs, c.toNat < 0x80 ∧ c ≠ '%') :
    percentDecode (Utf8.encode cs) = cs.map fun c => UInt8.ofNat c.toNat := by
  rw [Utf8.encode_of_ascii fun c hc => (h c hc).1]
  refine percentDecode_of_not_mem fun hmem => ?_
  obtain ⟨c, hc, heq⟩ := List.mem_map.mp hmem
  obtain ⟨hascii, hpercent⟩ := h c hc
  have hcode : c.toNat = 0x25 := by
    rw [← Utf8.toNat_ofNat_of_ascii hascii, heq]
    rfl
  exact hpercent (by rw [← Char.ofNat_toNat c, hcode])

theorem forbiddenDomainChar_toLower {c : Char} (h : c.toNat < 0x80) :
    forbiddenDomainChar c.toLower = forbiddenDomainChar c :=
  forall_ascii (p := fun c => forbiddenDomainChar c.toLower = forbiddenDomainChar c) (by decide +kernel) h

/-- The characters of the bytes, in lower case. -/
def lowerText (bytes : List UInt8) : List Char := (bytes.map fun b => Char.ofNat b.toNat).map Char.toLower

theorem lowerText_of_ascii {cs : List Char} (h : ∀ c ∈ cs, c.toNat < 0x80) :
    lowerText (cs.map fun c => UInt8.ofNat c.toNat) = cs.map Char.toLower := by
  rw [lowerText, List.map_map, List.map_map]
  refine List.map_congr_left fun c hc => ?_
  rw [Function.comp_apply, Function.comp_apply, Utf8.toNat_ofNat_of_ascii (h c hc), Char.ofNat_toNat]

/-- What is left to IDNA. -/
def NeedsIdna (bytes : List UInt8) : Prop :=
  (∃ b ∈ bytes, ¬ b < 0x80) ∨ ∃ label ∈ labels (lowerText bytes), "xn--".toList <+: label

theorem needsIdna_of_ascii {cs : List Char} (h : ∀ c ∈ cs, c.toNat < 0x80) :
    NeedsIdna (cs.map fun c => UInt8.ofNat c.toNat) ↔
      ∃ label ∈ labels (cs.map Char.toLower), "xn--".toList <+: label := by
  rw [NeedsIdna, lowerText_of_ascii h]
  refine or_iff_right ?_
  rintro ⟨b, hb, hlarge⟩
  obtain ⟨c, hc, rfl⟩ := List.mem_map.mp hb
  exact hlarge (by rw [UInt8.lt_iff_toNat_lt, Utf8.toNat_ofNat_of_ascii (h c hc)]; exact h c hc)

/-- A name is brought to lower case and checked, or left to IDNA. -/
theorem domainToAscii_eq_some {bytes : List UInt8} {name : List Char} :
    domainToAscii uts46 bytes = some name ↔
      (¬ NeedsIdna bytes ∧ name = lowerText bytes ∧ ∀ c ∈ name, forbiddenDomainChar c = false) ∨
        (NeedsIdna bytes ∧ uts46 bytes = some name) := by
  have hcond : (bytes.all (· < 0x80) && !(labels (lowerText bytes)).any ("xn--".toList.isPrefixOf ·)) = true ↔
      ¬ NeedsIdna bytes := by
    rw [NeedsIdna]
    simp only [Bool.and_eq_true, List.all_eq_true, decide_eq_true_eq, Bool.not_eq_true', List.any_eq_false,
      List.isPrefixOf_iff_prefix, not_or, not_exists, not_and, not_not]
  have hdef : domainToAscii uts46 bytes =
      if (bytes.all (· < 0x80) && !(labels (lowerText bytes)).any ("xn--".toList.isPrefixOf ·)) = true then
        if (lowerText bytes).any forbiddenDomainChar then none else some (lowerText bytes)
      else uts46 bytes := rfl
  rw [hdef]
  by_cases hneeds : NeedsIdna bytes
  · rw [if_neg fun h => hcond.mp h hneeds]
    simp [hneeds]
  · rw [if_pos (hcond.mpr hneeds), Option.ite_none_left_eq_some, Option.some.injEq, Bool.not_eq_true,
      List.any_eq_false]
    simp only [hneeds, not_false_iff, true_and, false_and, or_false]
    refine ⟨?_, ?_⟩
    · rintro ⟨hclean, rfl⟩
      exact ⟨rfl, fun c hc => Bool.not_eq_true _ ▸ hclean c hc⟩
    · rintro ⟨rfl, hclean⟩
      exact ⟨fun c hc => Bool.not_eq_true _ ▸ hclean c hc, rfl⟩

/-- A name that needs no IDNA is brought to lower case. -/
theorem domainToAscii_of_unescaped {cs : List Char} (h : ∀ c ∈ cs, unescapedChar c = true) :
    domainToAscii uts46 (percentDecode (Utf8.encode cs)) =
      if cs.any forbiddenDomainChar then none else some (cs.map Char.toLower) := by
  have hascii (c : Char) (hc : c ∈ cs) := (unescapedChar_iff.mp (h c hc)).1
  have hplain : ¬ NeedsIdna (cs.map fun c => UInt8.ofNat c.toNat) := by
    rw [needsIdna_of_ascii hascii]
    rintro ⟨label, hlabel, hpre⟩
    have hmem := hpre.subset (List.mem_cons_self : 'x' ∈ 'x' :: "n--".toList)
    exact not_mem_map_toLower (fun c hc => (unescapedChar_iff.mp (h c hc)).2.2) (subset_of_mem_splitn hlabel hmem)
  have hforbidden : (∀ c ∈ cs.map Char.toLower, forbiddenDomainChar c = false) ↔
      ¬ cs.any forbiddenDomainChar = true := by
    rw [List.forall_mem_map, Bool.not_eq_true, List.any_eq_false]
    refine forall₂_congr fun c hc => ?_
    rw [forbiddenDomainChar_toLower (hascii c hc), Bool.not_eq_true]
  rw [percentDecode_of_ascii fun c hc => ⟨hascii c hc, (unescapedChar_iff.mp (h c hc)).2.1⟩]
  refine Option.ext fun name => ?_
  rw [domainToAscii_eq_some, lowerText_of_ascii hascii, Option.ite_none_left_eq_some, ← hforbidden]
  simp only [hplain, not_false_iff, true_and, false_and, or_false, Option.some.injEq]
  refine ⟨?_, ?_⟩
  · rintro ⟨rfl, hclean⟩
    exact ⟨hclean, rfl⟩
  · rintro ⟨hclean, rfl⟩
    exact ⟨rfl, hclean⟩

theorem unescaped_of_plainChar {c : Char} (h : plainChar c = true) : unescapedChar c = true := by
  simp only [plainChar, Bool.and_eq_true] at h
  simp only [unescapedChar, Bool.and_eq_true]
  exact ⟨⟨h.1.1.1.1, h.1.1.1.2⟩, h.2⟩

theorem isDigit_of_digitsVal {radix acc n : Nat} {cs : List Char} (hradix : radix ≤ 10)
    (h : digitsVal radix acc cs = some n) : cs.all Char.isDigit = true := by
  rw [List.all_eq_true]
  intro c hc
  obtain ⟨d, hd⟩ := Option.isSome_iff_exists.mp (isSome_toDigit_of_digitsVal h hc)
  -- a letter has a value of ten or more
  obtain ⟨hlt, hdigit | ⟨-, hge⟩⟩ := toDigit_eq_some hd
  · exact Char.isDigit_iff_toNat.mpr hdigit
  · omega

/-- Without the mark of a hexadecimal number the digits are decimal ones. -/
theorem ipv4Radix_of_not_mem {s : List Char} (hx : 'x' ∉ s) (hX : 'X' ∉ s) :
    (ipv4Radix s).1 ≤ 10 ∧ s.all Char.isDigit = (ipv4Radix s).2.all Char.isDigit := by
  unfold ipv4Radix
  split
  · exact absurd (by simp) hx
  · exact absurd (by simp) hX
  · exact ⟨Nat.le_add_right 8 2, rfl⟩
  · exact ⟨Nat.le_refl 10, rfl⟩

theorem isDigit_of_parseIpv4Number {s : List Char} (hx : 'x' ∉ s) (hX : 'X' ∉ s)
    (h : (parseIpv4Number s).isSome = true) : s.all Char.isDigit = true := by
  obtain ⟨hradix, hall⟩ := ipv4Radix_of_not_mem hx hX
  rw [hall]
  unfold parseIpv4Number at h
  split at h
  · cases h
  · generalize ipv4Radix s = r at h hradix
    simp only at h
    split at h
    · rename_i hnil
      rw [hnil]
      rfl
    · rw [Option.isSome_map] at h
      obtain ⟨n, hn⟩ := Option.isSome_iff_exists.mp h
      exact isDigit_of_digitsVal hradix hn

theorem endsInANumber_of_plain {name : List Char} (hne : name ≠ []) (hdot : '.' ∉ name) (hx : 'x' ∉ name)
    (hX : 'X' ∉ name) : endsInANumber name = name.all Char.isDigit := by
  have hlast : lastLabel name = some name := by
    rw [lastLabel, labels_of_not_mem hdot]
    cases name with
    | nil => exact absurd rfl hne
    | cons c name => rfl
  simp only [endsInANumber, hlast]
  rw [decide_eq_true hne, Bool.true_and, Bool.or_eq_left_iff_imp]
  exact isDigit_of_parseIpv4Number hx hX

theorem endsInANumber_map_toLower {cs : List Char} (hne : cs ≠ []) (h : ∀ c ∈ cs, plainChar c = true) :
    endsInANumber (cs.map Char.toLower) = cs.all Char.isDigit := by
  have hlower (c : Char) (hc : c ∈ cs) := toLower_of_plainChar (h c hc)
  rw [endsInANumber_of_plain (by simpa using hne) (not_mem_map_toLower fun c hc => (hlower c hc).1.1)
    (not_mem_map_toLower fun c hc => (hlower c hc).1.2.1) (not_mem_map_toLower fun c hc => (hlower c hc).1.2.2)]
  rw [List.all_map, Bool.eq_iff_iff, List.all_eq_true, List.all_eq_true]
  refine forall_congr' fun c => forall_congr' fun hc => ?_
  rw [Function.comp_apply, (hlower c hc).2]

/-- **A name of one label** is refused if it has a forbidden character, read
as an IPv4 address if all of it are digits, and a domain in lower case
otherwise. -/
theorem hostParse_of_plain {s : String} (hne : s.toList ≠ []) (h : ∀ c ∈ s.toList, plainChar c = true) :
    hostParse uts46 s =
      if s.toList.any forbiddenDomainChar then none
      else if s.toList.all Char.isDigit then (parseIpv4Addr (s.toList.map Char.toLower)).map .ipv4
      else some (.domain (String.ofList (s.toList.map Char.toLower))) := by
  unfold hostParse
  split
  · rename_i rest heq
    exact absurd (h '[' (heq ▸ List.mem_cons_self)) (by decide)
  · rw [domainToAscii_of_unescaped fun c hc => unescaped_of_plainChar (h c hc)]
    split
    · rfl
    · have hlower : s.toList.map Char.toLower ≠ [] := by simpa using hne
      simp only [Option.bind_eq_bind, Option.bind_some, if_neg hlower, endsInANumber_map_toLower hne h]

/-! ## Domains in canonical form -/

/-- **What is read as a domain**: a name that is brought to its ASCII form and
does not end in a number. -/
theorem hostParse_eq_domain {s d : String} : hostParse uts46 s = some (.domain d) ↔
    s.toList.head? ≠ some '[' ∧ domainToAscii uts46 (percentDecode (Utf8.encode s.toList)) = some d.toList ∧
      d.toList ≠ [] ∧ endsInANumber d.toList = false := by
  unfold hostParse
  split
  · rename_i rest heq
    rw [heq]
    simp only [List.head?_cons, ne_eq, not_true_eq_false, false_and, iff_false]
    split
    · simp
    · simp
  · rename_i hopen
    have hhead : s.toList.head? ≠ some '[' := by
      rw [ne_eq, List.head?_eq_some_iff]
      rintro ⟨rest, heq⟩
      exact hopen rest heq
    simp only [hhead, ne_eq, not_false_iff, true_and, Option.bind_eq_bind, Option.bind_eq_some_iff]
    refine ⟨?_, ?_⟩
    · rintro ⟨name, hname, h⟩
      split at h
      · cases h
      · rename_i hne
        split at h
        · obtain ⟨ip, -, he⟩ := Option.map_eq_some_iff.mp h
          cases he
        · rename_i hnumber
          cases h
          rw [String.toList_ofList]
          exact ⟨hname, hne, Bool.not_eq_true _ ▸ hnumber⟩
    · rintro ⟨hname, hne, hnumber⟩
      refine ⟨d.toList, hname, ?_⟩
      rw [if_neg hne, if_neg (by rw [hnumber]; exact Bool.false_ne_true), String.ofList_toList]

/-- ASCII in lower case, without a forbidden character or a label in
Punycode. -/
structure LowerName (name : List Char) : Prop where
  chars : ∀ c ∈ name, c.toNat < 0x80 ∧ c.toLower = c ∧ forbiddenDomainChar c = false
  labels : ∀ label ∈ labels name, ¬ "xn--".toList <+: label

/-- A name that is left to IDNA, which gives it back. -/
structure IdnaName (uts46 : List UInt8 → Option (List Char)) (name : List Char) : Prop where
  needs : NeedsIdna (percentDecode (Utf8.encode name))
  back : uts46 (percentDecode (Utf8.encode name)) = some name
  bracket : name.head? ≠ some '['

/-- A domain in canonical form. -/
structure CanonicalDomain (uts46 : List UInt8 → Option (List Char)) (name : List Char) : Prop where
  ne_nil : name ≠ []
  noNumber : endsInANumber name = false
  form : LowerName name ∨ IdnaName uts46 name

theorem LowerName.ascii {name : List Char} (h : LowerName name) : ∀ c ∈ name, c.toNat < 0x80 ∧ c ≠ '%' := by
  intro c hc
  obtain ⟨hascii, -, hclean⟩ := h.chars c hc
  refine ⟨hascii, ?_⟩
  rintro rfl
  cases hclean

theorem LowerName.map_toLower {name : List Char} (h : LowerName name) : name.map Char.toLower = name :=
  (List.map_congr_left fun c hc => (h.chars c hc).2.1).trans (List.map_id name)

theorem LowerName.domainToAscii {name : List Char} (h : LowerName name) :
    domainToAscii uts46 (percentDecode (Utf8.encode name)) = some name := by
  have hascii (c : Char) (hc : c ∈ name) := (h.ascii c hc).1
  rw [percentDecode_of_ascii h.ascii, domainToAscii_eq_some, lowerText_of_ascii hascii,
    needsIdna_of_ascii hascii, h.map_toLower]
  refine .inl ⟨?_, rfl, fun c hc => (h.chars c hc).2.2⟩
  rintro ⟨label, hlabel, hpre⟩
  exact h.labels label hlabel hpre

/-- A byte of ASCII is a character whose lower case is its own. -/
theorem ascii_of_mem_lowerText {bytes : List UInt8} (hneeds : ¬ NeedsIdna bytes) {c : Char}
    (hc : c ∈ lowerText bytes) : c.toNat < 0x80 ∧ c.toLower = c := by
  obtain ⟨d, hd, rfl⟩ := List.mem_map.mp hc
  obtain ⟨b, hb, rfl⟩ := List.mem_map.mp hd
  have hascii : b < 0x80 := by
    by_contra hlarge
    exact hneeds (.inl ⟨b, hb, hlarge⟩)
  have hall : ∀ n < 0x80, (Char.ofNat n).toLower.toNat < 0x80 ∧
      (Char.ofNat n).toLower.toLower = (Char.ofNat n).toLower := by decide +kernel
  exact hall b.toNat (UInt8.lt_iff_toNat_lt.mp hascii)

theorem lowerName_of_lowerText {name : List Char} (hneeds : ¬ NeedsIdna (percentDecode (Utf8.encode name)))
    (hname : name = lowerText (percentDecode (Utf8.encode name)))
    (hclean : ∀ c ∈ name, forbiddenDomainChar c = false) : LowerName name := by
  have hlower (c : Char) (hc : c ∈ name) : c.toNat < 0x80 ∧ c.toLower = c :=
    ascii_of_mem_lowerText hneeds (hname ▸ hc)
  refine ⟨fun c hc => ⟨(hlower c hc).1, (hlower c hc).2, hclean c hc⟩, fun label hlabel hpre => ?_⟩
  exact hneeds (.inr ⟨label, hname ▸ hlabel, hpre⟩)

/-- **The canonical domains are those that are read as themselves.** -/
theorem canonicalDomain_iff {d : String} :
    CanonicalDomain uts46 d.toList ↔ hostParse uts46 d = some (.domain d) := by
  rw [hostParse_eq_domain]
  refine ⟨fun h => ?_, ?_⟩
  · rcases h.form with hform | hform
    · refine ⟨fun hhead => ?_, hform.domainToAscii, h.ne_nil, h.noNumber⟩
      cases (hform.chars '[' (List.mem_of_mem_head? hhead)).2.2
    · exact ⟨hform.bracket, domainToAscii_eq_some.mpr (.inr ⟨hform.needs, hform.back⟩), h.ne_nil, h.noNumber⟩
  · rintro ⟨hhead, hname, hne, hnumber⟩
    refine ⟨hne, hnumber, ?_⟩
    rcases domainToAscii_eq_some.mp hname with ⟨hneeds, hlower, hclean⟩ | ⟨hneeds, hback⟩
    · exact .inl (lowerName_of_lowerText hneeds hlower hclean)
    · exact .inr ⟨hneeds, hback, hhead⟩

end Wstunnel.L1
