import Mathlib.Algebra.Group.Nat.Defs
import Mathlib.Data.List.TakeWhile
import Mathlib.Tactic.Common

/-!
# `str` operations of the Rust standard library

On lists, so that one definition serves `str` (lists of characters) and
byte slices: `split_once`, `splitn`, `trim_end_matches`, `trim`, `windows`,
and the unsigned-integer `FromStr`. Each follows the documented behaviour of
the standard library.

* `splitOnce_first`, `isSome_splitOnce`: a text is cut at the first occurrence of the
  pattern, if there is one.
* `splitn_intercalate`, `mem_splitn`: the pieces between separators.
* `hasWindow_iff`: a window of the text is the pattern.
* `parseUnsigned_eq_some`, `parseUnsigned_toDigits`: the numbers that are read, and
  that `Display` writes one that is read back.
-/
namespace Wstunnel.Str

variable {α : Type} [DecidableEq α]

/-- `str::split_once`: the text before and after the first occurrence of
`pat`. -/
def splitOnce (pat : List α) : List α → Option (List α × List α)
  | [] => if pat = [] then some ([], []) else none
  | c :: cs =>
    if pat.isPrefixOf (c :: cs) then some ([], (c :: cs).drop pat.length)
    else (splitOnce pat cs).map fun p => (c :: p.1, p.2)

/-- `slice::windows(n)` -/
def windows (n : Nat) : List α → List (List α)
  | [] => []
  | c :: cs => if n ≤ (c :: cs).length then (c :: cs).take n :: windows n cs else []

/-- `s.windows(pat.len()).any(|w| w == pat)` -/
def hasWindow (pat s : List α) : Bool := (windows pat.length s).any fun w => w = pat

/-- `str::rsplit_once` for a character. -/
def rsplitOnce (c : α) (s : List α) : Option (List α × List α) :=
  (splitOnce [c] s.reverse).map fun p => (p.2.reverse, p.1.reverse)

/-- `str::splitn(n + 1, sep)`: at most `n` cuts, the last piece keeps the rest. -/
def splitn (sep : α) : Nat → List α → List (List α)
  | 0, s => [s]
  | n + 1, s => match splitOnce [sep] s with
    | none => [s]
    | some (l, r) => l :: splitn sep n r

/-- `str::trim_end_matches` of one character: every trailing copy goes. -/
def trimEndMatches (c : α) (s : List α) : List α :=
  (s.reverse.dropWhile (· = c)).reverse

/-- `char::is_whitespace`: the Unicode property `White_Space`. -/
def isWhitespace (c : Char) : Bool :=
  let n := c.toNat
  (0x09 ≤ n && n ≤ 0x0D) || n == 0x20 || n == 0x85 || n == 0xA0 || n == 0x1680 ||
    (0x2000 ≤ n && n ≤ 0x200A) || n == 0x2028 || n == 0x2029 || n == 0x202F || n == 0x205F ||
    n == 0x3000

/-- `str::trim`. -/
def trim (s : String) : String :=
  String.ofList ((s.toList.dropWhile isWhitespace).reverse.dropWhile isWhitespace).reverse

/-- `char::to_digit(radix)` for the radices 10 and 16. -/
def toDigit (radix : Nat) (c : Char) : Option Nat :=
  let d := if '0' ≤ c ∧ c ≤ '9' then some (c.toNat - '0'.toNat)
    else if 'a' ≤ c ∧ c ≤ 'f' then some (c.toNat - 'a'.toNat + 10)
    else if 'A' ≤ c ∧ c ≤ 'F' then some (c.toNat - 'A'.toNat + 10)
    else none
  d.filter (· < radix)

/-- The value of a digit string, `none` at the first character that is not
a digit. -/
def digitsVal (radix : Nat) (acc : Nat) : List Char → Option Nat
  | [] => some acc
  | c :: cs => (toDigit radix c).bind fun d => digitsVal radix (acc * radix + d) cs

/-- `uN::from_str`: an optional `+`, then at least one decimal digit, with a
value below `2 ^ bits`. -/
def parseUnsigned (bits : Nat) (s : List Char) : Option Nat :=
  let ds := match s with
    | '+' :: cs => cs
    | cs => cs
  if ds = [] then none else (digitsVal 10 0 ds).filter (· < 2 ^ bits)

/-! ## Reading back what was put together -/

/-- Text in front without the separator. -/
theorem splitOnce_append_of_not_mem {c : α} {l : List α} (hl : c ∉ l) (r : List α) :
    splitOnce [c] (l ++ r) = (splitOnce [c] r).map fun p => (l ++ p.1, p.2) := by
  induction l with
  | nil => simp
  | cons d l ih =>
    have hcd : c ≠ d := fun h => hl (by simp [h])
    rw [List.cons_append, splitOnce, if_neg (by simp [hcd]), ih fun h => hl (List.mem_cons_of_mem d h),
      Option.map_map]
    rfl

theorem splitOnce_append {c : α} {l : List α} (hl : c ∉ l) (r : List α) :
    splitOnce [c] (l ++ c :: r) = some (l, r) := by
  rw [splitOnce_append_of_not_mem hl]
  simp [splitOnce]

theorem rsplitOnce_append {c : α} {r : List α} (hr : c ∉ r) (l : List α) :
    rsplitOnce c (l ++ c :: r) = some (l, r) := by
  have hrev : (l ++ c :: r).reverse = r.reverse ++ c :: l.reverse := by simp
  rw [rsplitOnce, hrev, splitOnce_append fun h => hr (List.mem_reverse.mp h), Option.map_some]
  simp only [List.reverse_reverse]

/-- A longer separator, the first character of which is not in front of it. -/
theorem splitOnce_append_pattern {c : α} {p l : List α} (hl : c ∉ l) (r : List α) :
    splitOnce (c :: p) (l ++ (c :: p ++ r)) = some (l, r) := by
  induction l with
  | nil =>
    have hpre : (c :: p).isPrefixOf (c :: (p ++ r)) = true := List.isPrefixOf_iff_prefix.mpr ⟨r, rfl⟩
    rw [List.nil_append, List.cons_append, splitOnce, if_pos hpre, ← List.cons_append, List.drop_left]
  | cons d l ih =>
    have hcd : c ≠ d := fun h => hl (by simp [h])
    rw [List.cons_append, splitOnce, if_neg (by simp [hcd]), ih fun h => hl (List.mem_cons_of_mem d h)]
    rfl

theorem splitn_append {sep : α} {l : List α} (hl : sep ∉ l) (n : Nat) (r : List α) :
    splitn sep (n + 1) (l ++ sep :: r) = l :: splitn sep n r := by
  rw [splitn, splitOnce_append hl]

/-- The first occurrence: none in the text before it. -/
theorem splitOnce_eq_some {c : α} {s l r : List α} (h : splitOnce [c] s = some (l, r)) :
    s = l ++ c :: r ∧ c ∉ l := by
  induction s generalizing l with
  | nil => simp [splitOnce] at h
  | cons d s ih =>
    rw [splitOnce] at h
    split at h
    · rename_i hcd
      obtain rfl : c = d := by simpa using hcd
      cases h
      simp
    · rename_i hcd
      obtain ⟨⟨l', r'⟩, hs, he⟩ := Option.map_eq_some_iff.mp h
      cases he
      have hne : c ≠ d := fun e => hcd (by simp [e])
      obtain ⟨rfl, hl⟩ := ih hs
      simp [hne, hl]

theorem splitOnce_of_not_mem {c : α} {s : List α} (h : c ∉ s) : splitOnce [c] s = none := by
  cases hs : splitOnce [c] s with
  | none => rfl
  | some p =>
    rw [(splitOnce_eq_some hs).1] at h
    exact absurd (List.mem_append_right _ List.mem_cons_self) h

/-- Pieces without the separator, joined by it. -/
theorem splitn_intercalate {sep : α} {ls : List (List α)} (hne : ls ≠ []) (hsep : ∀ l ∈ ls, sep ∉ l) {n : Nat}
    (hn : ls.length ≤ n + 1) : splitn sep n ([sep].intercalate ls) = ls := by
  induction ls generalizing n with
  | nil => exact absurd rfl hne
  | cons l ls ih =>
    cases ls with
    | nil =>
      rw [List.intercalate_singleton]
      cases n with
      | zero => rfl
      | succ n => rw [splitn, splitOnce_of_not_mem (hsep l List.mem_cons_self)]
    | cons l' ls =>
      cases n with
      | zero => simp at hn
      | succ n =>
        rw [List.intercalate_cons_cons, List.append_assoc, List.singleton_append,
          splitn_append (hsep l List.mem_cons_self), ih (List.cons_ne_nil _ _)]
        · exact fun p hp => hsep p (List.mem_cons_of_mem _ hp)
        · simpa using hn

omit [DecidableEq α] in
theorem mem_intercalate {sep : List α} {ls : List (List α)} {a : α} (h : a ∈ sep.intercalate ls) :
    a ∈ sep ∨ ∃ l ∈ ls, a ∈ l := by
  induction ls with
  | nil => simp at h
  | cons l ls ih => cases ls with
    | nil => exact .inr ⟨l, List.mem_cons_self, by simpa using h⟩
    | cons m ls =>
      rw [List.intercalate_cons_cons, List.mem_append, List.mem_append] at h
      rcases h with (h | h) | h
      · exact .inr ⟨l, List.mem_cons_self, h⟩
      · exact .inl h
      · exact (ih h).imp_right fun ⟨l', hl', ha⟩ => ⟨l', List.mem_cons_of_mem _ hl', ha⟩

omit [DecidableEq α] in
/-- There is a separator between any two pieces. -/
theorem length_le_intercalate (sep : α) (ls : List (List α)) :
    ls.length ≤ ([sep].intercalate ls).length + 1 := by
  induction ls with
  | nil => simp
  | cons l ls ih =>
    cases ls with
    | nil => simp
    | cons l' ls =>
      rw [List.intercalate_cons_cons]
      simp only [List.length_cons, List.length_append] at ih ⊢
      omega

/-- The first occurrence of a longer pattern. -/
theorem splitOnce_first {pat s l r : List α} (h : splitOnce pat s = some (l, r)) :
    s = l ++ pat ++ r ∧ ∀ l' r', s = l' ++ pat ++ r' → l.length ≤ l'.length := by
  induction s generalizing l with
  | nil =>
    rw [splitOnce, Option.ite_none_right_eq_some] at h
    obtain ⟨rfl, he⟩ := h
    cases he
    exact ⟨rfl, fun l' _ _ => Nat.zero_le _⟩
  | cons c s ih =>
    rw [splitOnce] at h
    split at h
    · rename_i hpre
      obtain ⟨t, ht⟩ := List.isPrefixOf_iff_prefix.mp hpre
      cases h
      refine ⟨?_, fun l' _ _ => Nat.zero_le _⟩
      rw [← ht, List.drop_left, List.nil_append]
    · rename_i hpre
      obtain ⟨⟨l₁, r₁⟩, hs, he⟩ := Option.map_eq_some_iff.mp h
      cases he
      obtain ⟨rfl, hfirst⟩ := ih hs
      refine ⟨rfl, fun l' r' hl' => ?_⟩
      cases l' with
      | nil => exact absurd (List.isPrefixOf_iff_prefix.mpr ⟨r', hl'.symm⟩) hpre
      | cons d l' => exact Nat.succ_le_succ (hfirst l' r' (List.cons.inj hl').2)

theorem isSome_splitOnce {pat s : List α} : (splitOnce pat s).isSome = true ↔ pat <:+: s := by
  refine ⟨fun h => ?_, fun h => ?_⟩
  · obtain ⟨⟨l, r⟩, hs⟩ := Option.isSome_iff_exists.mp h
    exact ⟨l, r, (splitOnce_first hs).1.symm⟩
  · induction s with
    | nil => rw [splitOnce, if_pos (List.infix_nil.mp h)]; rfl
    | cons c s ih =>
      rw [splitOnce]
      split
      · rfl
      · rename_i hpre
        rcases List.infix_cons_iff.mp h with h | h
        · exact absurd (List.isPrefixOf_iff_prefix.mpr h) hpre
        · rw [Option.isSome_map]
          exact ih h

/-- A part from the start holds the pattern when it reaches past the first
occurrence. -/
theorem infix_of_prefix_iff {pat s l r p : List α} (h : splitOnce pat s = some (l, r)) (hp : p <+: s) :
    pat <:+: p ↔ l ++ pat <+: p := by
  obtain ⟨hs, hfirst⟩ := splitOnce_first h
  refine ⟨?_, fun hpre => (List.suffix_append l pat).isInfix.trans hpre.isInfix⟩
  rintro ⟨l', r', rfl⟩
  obtain ⟨t, ht⟩ := hp
  have hlen := hfirst l' (r' ++ t) (by rw [← ht, List.append_assoc])
  have hpre : l ++ pat <+: s := ⟨r, hs.symm⟩
  refine List.prefix_of_prefix_length_le hpre ⟨t, ht⟩ ?_
  simp only [List.length_append]
  omega

theorem hasWindow_iff {pat s : List α} (hpat : pat ≠ []) : hasWindow pat s = true ↔ pat <:+: s := by
  have hpos : 0 < pat.length := List.length_pos_iff.mpr hpat
  induction s with
  | nil => simp [hasWindow, windows, hpat]
  | cons c s ih =>
    refine Iff.trans ?_ (List.infix_cons_iff.trans (or_congr_right ih.symm)).symm
    rw [hasWindow, hasWindow, windows]
    split
    · rw [List.any_cons, Bool.or_eq_true, decide_eq_true_eq, List.prefix_iff_eq_take, eq_comm]
    · rename_i hlen
      have hshort : windows pat.length s = [] := by
        cases s with
        | nil => rfl
        | cons d s => rw [windows, if_neg (fun h => hlen (Nat.le_succ_of_le h))]
      rw [hshort]
      have hno : ¬ pat <+: c :: s := fun h => hlen h.length_le
      simp [hno]

theorem subset_of_mem_splitn {sep : α} {n : Nat} {s p : List α} (h : p ∈ splitn sep n s) : p ⊆ s := by
  induction n generalizing s with
  | zero =>
    rw [splitn, List.mem_singleton] at h
    rw [h]
    exact List.Subset.refl s
  | succ n ih =>
    rw [splitn] at h
    split at h
    · rw [List.mem_singleton] at h
      rw [h]
      exact List.Subset.refl s
    · rename_i l r hs
      obtain ⟨rfl, _⟩ := splitOnce_eq_some hs
      rcases List.mem_cons.mp h with rfl | h
      · exact List.subset_append_left _ _
      · exact fun c hc => List.mem_append_right _ (List.mem_cons_of_mem _ (ih h hc))

theorem trimEndMatches_append {c : α} {s : List α} (hs : c ∉ s) : trimEndMatches c (s ++ [c]) = s := by
  unfold trimEndMatches
  rw [List.reverse_append, List.reverse_singleton, List.singleton_append, List.dropWhile_cons_of_pos (by simp)]
  cases hr : s.reverse with
  | nil => exact (List.reverse_eq_nil_iff.mp hr).symm
  | cons d ds =>
    have hd : d ≠ c := fun e => hs (by rw [← List.mem_reverse, hr, e]; simp)
    rw [List.dropWhile_cons_of_neg (by simpa using hd), ← hr, List.reverse_reverse]

omit [DecidableEq α] in
theorem dropWhile_eq_self {p : α → Bool} {s : List α} (h : ∀ c ∈ s, p c = false) : s.dropWhile p = s :=
  List.dropWhile_eq_self_iff.mpr fun hl => by simp [h _ (List.getElem_mem hl)]

theorem trimEndMatches_of_not_mem {c : α} {s : List α} (h : c ∉ s) : trimEndMatches c s = s := by
  have hdrop : s.reverse.dropWhile (· = c) = s.reverse :=
    dropWhile_eq_self fun d hd => decide_eq_false fun heq => h (heq ▸ List.mem_reverse.mp hd)
  rw [trimEndMatches, hdrop, List.reverse_reverse]

theorem trim_of_noWhitespace {s : String} (h : ∀ c ∈ s.toList, isWhitespace c = false) : trim s = s := by
  rw [trim, dropWhile_eq_self h, dropWhile_eq_self fun c hc => h c (List.mem_reverse.mp hc),
    List.reverse_reverse, String.ofList_toList]

theorem trim_of_ends {s : String} {c d : Char} {l m : List Char} (hfirst : s.toList = c :: l)
    (hlast : s.toList = m ++ [d]) (hc : isWhitespace c = false) (hd : isWhitespace d = false) : trim s = s := by
  have hfront : s.toList.dropWhile isWhitespace = s.toList := by
    rw [hfirst, List.dropWhile_cons_of_neg (by simp [hc])]
  have hback : s.toList.reverse.dropWhile isWhitespace = s.toList.reverse := by
    rw [hlast, List.reverse_append, List.reverse_singleton, List.singleton_append,
      List.dropWhile_cons_of_neg (by simp [hd])]
  rw [trim, hfront, hback, List.reverse_reverse, String.ofList_toList]

/-- The ranges of letters and digits, by their codes. -/
theorem isAlphanum_iff {c : Char} : c.isAlphanum = true ↔
    (65 ≤ c.toNat ∧ c.toNat ≤ 90 ∨ 97 ≤ c.toNat ∧ c.toNat ≤ 122) ∨ 48 ≤ c.toNat ∧ c.toNat ≤ 57 := by
  show ((decide ('A' ≤ c ∧ c ≤ 'Z') || decide ('a' ≤ c) && decide (c ≤ 'z')) ||
    decide ('0' ≤ c) && decide (c ≤ '9')) = true ↔ _
  simp only [Bool.or_eq_true, Bool.and_eq_true, decide_eq_true_eq, Char.le_def, UInt32.le_iff_toNat_le]
  exact Iff.rfl

/-- A decidable property of ASCII characters is checked on their codes. -/
theorem forall_ascii {p : Char → Prop} (h : ∀ n < 0x80, p (Char.ofNat n)) {c : Char} (hc : c.toNat < 0x80) :
    p c := by
  rw [← Char.ofNat_toNat c]
  exact h c.toNat hc

theorem toDigit_of_isDigit {c : Char} (h : c.isDigit) : toDigit 10 c = some (c.toNat - '0'.toNat) := by
  have hc := Char.isDigit_iff_toNat.mp h
  have hr : '0' ≤ c ∧ c ≤ '9' := ⟨hc.1, hc.2⟩
  have h9 : '9'.toNat = '0'.toNat + 9 := rfl
  rw [toDigit, if_pos hr]
  exact Option.filter_some_pos (by simp only [decide_eq_true_eq]; omega)

/-- What a digit is, and that letters have the values from ten on. -/
theorem toDigit_eq_some {radix d : Nat} {c : Char} (h : toDigit radix c = some d) :
    d < radix ∧ (48 ≤ c.toNat ∧ c.toNat ≤ 57 ∨
      (97 ≤ c.toNat ∧ c.toNat ≤ 102 ∨ 65 ≤ c.toNat ∧ c.toNat ≤ 70) ∧ 10 ≤ d) := by
  obtain ⟨hvalue, hlt⟩ := Option.filter_eq_some_iff.mp h
  refine ⟨of_decide_eq_true hlt, ?_⟩
  simp only [Char.le_def, UInt32.le_iff_toNat_le] at hvalue
  split at hvalue
  · rename_i hdigit
    exact .inl hdigit
  · split at hvalue
    · rename_i hlower
      cases hvalue
      exact .inr ⟨.inl hlower, Nat.le_add_left _ _⟩
    · split at hvalue
      · rename_i hupper
        cases hvalue
        exact .inr ⟨.inr hupper, Nat.le_add_left _ _⟩
      · cases hvalue

theorem digitsVal_of_isDigit {cs : List Char} (h : ∀ c ∈ cs, c.isDigit) (acc : Nat) :
    digitsVal 10 acc cs = some (Nat.ofDigitChars 10 cs acc) := by
  induction cs generalizing acc with
  | nil => rfl
  | cons c cs ih =>
    rw [digitsVal, toDigit_of_isDigit (h c (by simp)), Option.bind_some, Nat.ofDigitChars_cons,
      Nat.mul_comm 10 acc]
    exact ih (fun c hc => h c (List.mem_cons_of_mem _ hc)) _

theorem lt_of_parseUnsigned {bits n : Nat} {s : List Char} (h : parseUnsigned bits s = some n) : n < 2 ^ bits := by
  simp only [parseUnsigned, Option.ite_none_left_eq_some, Option.filter_eq_some_iff, decide_eq_true_eq] at h
  exact h.2.2

theorem isSome_toDigit_of_digitsVal {radix acc n : Nat} {cs : List Char} (h : digitsVal radix acc cs = some n)
    {c : Char} (hc : c ∈ cs) : (toDigit radix c).isSome = true := by
  induction cs generalizing acc with
  | nil => cases hc
  | cons d cs ih =>
    obtain ⟨v, hv, h⟩ := Option.bind_eq_some_iff.mp h
    rcases List.mem_cons.mp hc with rfl | hc
    · rw [hv]
      rfl
    · exact ih h hc

/-- The text of a number: digits, and a sign in front. -/
theorem mem_of_parseUnsigned {bits n : Nat} {s : List Char} (h : parseUnsigned bits s = some n) {c : Char}
    (hc : c ∈ s) : c = '+' ∨ (toDigit 10 c).isSome = true := by
  simp only [parseUnsigned, Option.ite_none_left_eq_some, Option.filter_eq_some_iff] at h
  obtain ⟨-, hval, -⟩ := h
  split at hval
  · exact (List.mem_cons.mp hc).imp_right (isSome_toDigit_of_digitsVal hval)
  · exact .inr (isSome_toDigit_of_digitsVal hval hc)

/-- The texts of a number. -/
theorem parseUnsigned_eq_some {bits n : Nat} {s : List Char} :
    parseUnsigned bits s = some n ↔
      ∃ ds, ds ≠ [] ∧ (s = ds ∨ s = '+' :: ds) ∧ digitsVal 10 0 ds = some n ∧ n < 2 ^ bits := by
  simp only [parseUnsigned, Option.ite_none_left_eq_some, Option.filter_eq_some_iff, decide_eq_true_eq]
  refine ⟨fun h => ?_, ?_⟩
  · split at h
    · exact ⟨_, h.1, .inr rfl, h.2⟩
    · exact ⟨_, h.1, .inl rfl, h.2⟩
  · rintro ⟨ds, hne, rfl | rfl, hval, hlt⟩
    · split
      · -- a sign is no digit
        cases hval
      · exact ⟨hne, hval, hlt⟩
    · exact ⟨hne, hval, hlt⟩

/-- `from_str` of what `Display` prints. -/
theorem parseUnsigned_toDigits {bits n : Nat} (h : n < 2 ^ bits) :
    parseUnsigned bits (Nat.toDigits 10 n) = some n := by
  have hdigit : ∀ c ∈ Nat.toDigits 10 n, c.isDigit := fun c hc =>
    Nat.isDigit_of_mem_toDigits (by omega) (by omega) hc
  have hsign : (match Nat.toDigits 10 n with
      | '+' :: cs => cs
      | cs => cs) = Nat.toDigits 10 n := by
    split
    · rename_i cs hcs
      exact absurd (hdigit '+' (by simp [hcs])) (by decide)
    · rfl
  simp only [parseUnsigned, hsign]
  rw [if_neg Nat.toDigits_ne_nil, digitsVal_of_isDigit hdigit, Nat.ofDigitChars_ten_toDigits]
  exact Option.filter_some_pos (by simpa using h)

/-! ## Digits in any base -/

theorem digitsVal_append (radix acc : Nat) (l m : List Char) :
    digitsVal radix acc (l ++ m) = (digitsVal radix acc l).bind fun n => digitsVal radix n m := by
  induction l generalizing acc with
  | nil => rfl
  | cons c l ih =>
    rw [List.cons_append, digitsVal, digitsVal, Option.bind_assoc]
    exact congrArg _ (funext fun d => ih _)

theorem toDigit_digitChar {radix d : Nat} (hradix : radix ≤ 16) (hd : d < radix) :
    toDigit radix d.digitChar = some d := by
  have hvalue : ∀ d < 16, toDigit 16 d.digitChar = some d := by decide
  have h16 := hvalue d (by omega)
  rw [toDigit, Option.filter_eq_some_iff] at h16 ⊢
  exact ⟨h16.1, by simpa using hd⟩

/-- `from_str_radix` of what `Display` prints. -/
theorem digitsVal_toDigits {radix : Nat} (h1 : 1 < radix) (h16 : radix ≤ 16) (n : Nat) :
    digitsVal radix 0 (Nat.toDigits radix n) = some n := by
  induction n using Nat.strongRecOn with
  | ind n ih =>
    by_cases hn : n < radix
    · rw [Nat.toDigits_of_lt_base hn, digitsVal, toDigit_digitChar h16 hn]
      simp [digitsVal]
    · have hlt : n / radix < n := Nat.div_lt_self (by omega) h1
      rw [Nat.toDigits_of_base_le h1 (by omega), digitsVal_append, ih _ hlt, Option.bind_some, digitsVal,
        toDigit_digitChar h16 (Nat.mod_lt _ (by omega)), Option.bind_some, digitsVal]
      rw [Nat.mul_comm, Nat.div_add_mod]

/-- No number but zero is written with a leading zero. -/
theorem head?_toDigits {radix : Nat} (h1 : 1 < radix) {n : Nat} (hn : 0 < n) :
    (Nat.toDigits radix n).head? ≠ some '0' := by
  induction n using Nat.strongRecOn with
  | ind n ih =>
    by_cases hlt : n < radix
    · rw [Nat.toDigits_of_lt_base hlt, List.head?_cons]
      intro h
      have := Nat.digitChar_eq_zero.mp (Option.some.inj h)
      omega
    · have hpos : 0 < n / radix := Nat.div_pos (by omega) (by omega)
      have hfirst := ih _ (Nat.div_lt_self hn h1) hpos
      obtain ⟨c, cs, hcs⟩ := List.exists_cons_of_ne_nil (Nat.toDigits_ne_nil (n := n / radix) (b := radix))
      rw [hcs] at hfirst
      rw [Nat.toDigits_of_base_le h1 (by omega), hcs]
      exact hfirst

/-- A decimal digit is the character of its value. -/
theorem digitChar_of_toDigit {c : Char} {d : Nat} (h : toDigit 10 c = some d) : c = d.digitChar := by
  obtain ⟨hlt, hrange⟩ := toDigit_eq_some h
  exact forall_ascii (p := fun c => ∀ d < 10, toDigit 10 c = some d → c = d.digitChar)
    (by decide +kernel) (by omega) d hlt h

/-- Digits behind a number that is not zero. -/
theorem toDigits_of_digitsVal {acc n : Nat} {cs : List Char} (hacc : 0 < acc)
    (h : digitsVal 10 acc cs = some n) : Nat.toDigits 10 n = Nat.toDigits 10 acc ++ cs := by
  induction cs generalizing acc with
  | nil =>
    obtain rfl := Option.some.inj h
    rw [List.append_nil]
  | cons c cs ih =>
    obtain ⟨d, hd, h⟩ := Option.bind_eq_some_iff.mp h
    have hd10 := (toDigit_eq_some hd).1
    have hstep := Nat.toDigits_append_toDigits (b := 10) (by omega) hacc hd10
    rw [Nat.toDigits_of_lt_base hd10, ← digitChar_of_toDigit hd, Nat.mul_comm] at hstep
    rw [ih (by omega) h, ← hstep, List.append_assoc, List.singleton_append]

/-- Decimal digits without a needless zero in front are those that `Display`
prints. -/
theorem eq_toDigits {cs : List Char} {n : Nat} (hne : cs ≠ []) (h : digitsVal 10 0 cs = some n)
    (hzero : cs.head? = some '0' → cs.length = 1) : cs = Nat.toDigits 10 n := by
  cases cs with
  | nil => exact absurd rfl hne
  | cons c cs =>
    obtain ⟨d, hd, h⟩ := Option.bind_eq_some_iff.mp h
    rw [Nat.zero_mul, Nat.zero_add] at h
    have hd10 := (toDigit_eq_some hd).1
    have hc := digitChar_of_toDigit hd
    by_cases hpos : 0 < d
    · rw [toDigits_of_digitsVal hpos h, Nat.toDigits_of_lt_base hd10, hc]
      rfl
    · obtain rfl : d = 0 := by omega
      have hone := hzero (by rw [hc]; rfl)
      obtain rfl : cs = [] := List.length_eq_zero_iff.mp (by simpa using hone)
      obtain rfl := Option.some.inj h
      rw [hc]
      rfl

end Wstunnel.Str
