import Wstunnel.Core.Str

/-!
# Block mappings of plain scalars

The part of YAML 1.2 in which every line of a document is `key: value` with
two plain scalars. In a block mapping a plain scalar ends at `: `, at a `:`
before the end of the line, at ` #` and at the end of the line. What follows
the value can only be a comment: a second `:` makes the document invalid.

`render` writes such a document from words and texts without blanks, and
`readMapping_render` says what is read back: every field, unless some text
ends with `:`.
-/
namespace Wstunnel.Yaml

open Wstunnel.Str

abbrev Field := List Char × List Char

/-- Does a plain scalar end before `c`, when `rest` follows on the line? -/
def endsScalar (c : Char) (rest : List Char) : Bool :=
  (c = ':' && (rest = [] || rest.head? = some ' ')) || (c = ' ' && rest.head? = some '#')

/-- A plain scalar and what is left of its line. -/
def plainScalar : List Char → List Char × List Char
  | [] => ([], [])
  | c :: cs => if endsScalar c cs then ([], c :: cs) else (c :: (plainScalar cs).1, (plainScalar cs).2)

/-- One line of the mapping. -/
def readEntry (line : List Char) : Option Field :=
  let (key, rest) := plainScalar line
  match rest with
  | ':' :: ' ' :: rest =>
    let (value, left) := plainScalar (rest.dropWhile (· = ' '))
    -- "mapping values are not allowed in this context"
    if left.head? = some ':' then none else some (trimEndMatches ' ' key, trimEndMatches ' ' value)
  | _ => none

/-- The lines of a text. -/
def lines : List Char → List (List Char)
  | [] => []
  | c :: cs =>
    if c = '\n' then [] :: lines cs
    else match lines cs with
      | [] => [[c]]
      | l :: ls => (c :: l) :: ls

def readMapping (doc : List Char) : Option (List Field) := (lines doc).mapM readEntry

def digits (bits radix : Nat) (ds : List Char) : Option Nat :=
  if ds = [] then none else (digitsVal radix 0 ds).filter (· < 2 ^ bits)

/-- A decimal number without a leading zero, or digits after `0x`, `0o` or
`0b`. -/
def unsigned (bits : Nat) : List Char → Option Nat
  | '0' :: 'x' :: ds => digits bits 16 ds
  | '0' :: 'o' :: ds => digits bits 8 ds
  | '0' :: 'b' :: ds => digits bits 2 ds
  | '0' :: _ :: _ => none
  | ds => digits bits 10 ds

def isNull (s : List Char) : Bool :=
  s = [] || s = ['~'] || s = "null".toList || s = "Null".toList || s = "NULL".toList

/-! ## Writing and reading back -/

/-- A key of letters, and a text of letters, digits, dots and colons. -/
structure Simple (f : Field) : Prop where
  key : f.1 ≠ [] ∧ ∀ c ∈ f.1, c.isLower = true ∨ c = '_'
  text : f.2 ≠ [] ∧ ∀ c ∈ f.2, c.isAlphanum = true ∨ c = '.' ∨ c = ':'

def Field.line (f : Field) : List Char := f.1 ++ ':' :: ' ' :: f.2

def render (fields : List Field) : List Char := fields.flatMap fun f => f.line ++ ['\n']

theorem Simple.not_mem_key {f : Field} (h : Simple f) {c : Char} (hc : (c.isLower || c = '_') = false) :
    c ∉ f.1 := by
  intro hmem
  have := h.key.2 c hmem
  simp_all

theorem Simple.not_mem_text {f : Field} (h : Simple f) {c : Char}
    (hc : (c.isAlphanum || c = '.' || c = ':') = false) : c ∉ f.2 := by
  intro hmem
  have := h.text.2 c hmem
  simp_all

/-- A key is read up to the `: ` behind it. -/
theorem plainScalar_key {key : List Char} (hcolon : ':' ∉ key) (hblank : ' ' ∉ key) (rest : List Char) :
    plainScalar (key ++ ':' :: ' ' :: rest) = (key, ':' :: ' ' :: rest) := by
  induction key with
  | nil => rfl
  | cons c key ih =>
    rw [List.mem_cons, not_or] at hcolon hblank
    have hends : endsScalar c (key ++ ':' :: ' ' :: rest) = false := by
      simp [endsScalar, Ne.symm hcolon.1, Ne.symm hblank.1]
    rw [List.cons_append, plainScalar, hends, ih hcolon.2 hblank.2]
    rfl

/-- Between two characters that are no blanks no scalar ends. -/
theorem endsScalar_cons {c d : Char} (hc : c ≠ ' ') (hd : d ≠ ' ') (rest : List Char) :
    endsScalar c (d :: rest) = false := by
  simp [endsScalar, hc, hd]

/-- A text without blanks is one scalar, unless its last character is a colon. -/
theorem plainScalar_text {text : List Char} (hblank : ' ' ∉ text) (hlast : text.getLast? ≠ some ':') :
    plainScalar text = (text, []) := by
  induction text with
  | nil => rfl
  | cons c text ih =>
    rw [List.mem_cons, not_or] at hblank
    have hends : endsScalar c text = false := by
      cases text with
      | nil =>
        have hc : c ≠ ':' := fun h => hlast (by rw [h]; rfl)
        simp [endsScalar, hc]
      | cons d text =>
        exact endsScalar_cons (Ne.symm hblank.1) (fun h => hblank.2 (h ▸ List.mem_cons_self)) _
    have hrest : plainScalar text = (text, []) := by
      cases text with
      | nil => rfl
      | cons d text => exact ih hblank.2 (by rwa [List.getLast?_cons_cons] at hlast)
    rw [plainScalar, hends, hrest]
    rfl

theorem plainScalar_colon {text : List Char} (hblank : ' ' ∉ text) :
    plainScalar (text ++ [':']) = (text, [':']) := by
  induction text with
  | nil => rfl
  | cons c text ih =>
    rw [List.mem_cons, not_or] at hblank
    have hends : endsScalar c (text ++ [':']) = false := by
      cases text with
      | nil => simp [endsScalar, Ne.symm hblank.1]
      | cons d text =>
        exact endsScalar_cons (Ne.symm hblank.1) (fun h => hblank.2 (h ▸ List.mem_cons_self)) _
    rw [List.cons_append, plainScalar, hends, ih hblank.2]
    rfl

/-- **What is read of a written field.** -/
theorem readEntry_line {f : Field} (h : Simple f) :
    readEntry f.line = if f.2.getLast? = some ':' then none else some f := by
  have hblank : ' ' ∉ f.2 := h.not_mem_text (by decide)
  have hkey : ' ' ∉ f.1 := h.not_mem_key (by decide)
  have hdrop : f.2.dropWhile (· = ' ') = f.2 :=
    dropWhile_eq_self fun c hc => decide_eq_false fun heq => hblank (heq ▸ hc)
  rw [readEntry, Field.line, plainScalar_key (h.not_mem_key (by decide)) hkey]
  simp only [hdrop]
  by_cases hlast : f.2.getLast? = some ':'
  · obtain ⟨text, htext⟩ := List.getLast?_eq_some_iff.mp hlast
    have hblank' : ' ' ∉ text := fun hmem => hblank (htext ▸ List.mem_append_left _ hmem)
    rw [if_pos hlast, htext, plainScalar_colon hblank']
    rfl
  · rw [if_neg hlast, plainScalar_text hblank hlast, trimEndMatches_of_not_mem hkey,
      trimEndMatches_of_not_mem hblank]
    rfl

theorem lines_append {line : List Char} (h : '\n' ∉ line) (rest : List Char) :
    lines (line ++ '\n' :: rest) = line :: lines rest := by
  induction line with
  | nil => rw [List.nil_append, lines, if_pos rfl]
  | cons c line ih =>
    rw [List.mem_cons, not_or] at h
    rw [List.cons_append, lines, if_neg (Ne.symm h.1), ih h.2]

theorem lines_render {fields : List Field} (h : ∀ f ∈ fields, Simple f) :
    lines (render fields) = fields.map Field.line := by
  induction fields with
  | nil => rfl
  | cons f fields ih =>
    have hf := h f List.mem_cons_self
    have hline : '\n' ∉ f.line := by
      simp only [Field.line, List.mem_append, List.mem_cons, not_or]
      exact ⟨hf.not_mem_key (by decide), by decide, by decide, hf.not_mem_text (by decide)⟩
    rw [render, List.flatMap_cons, List.append_assoc, List.singleton_append, lines_append hline, List.map_cons]
    exact congrArg _ (ih fun f hf => h f (List.mem_cons_of_mem _ hf))

/-- **A written document is read back field by field, unless a text ends with
a colon: then it is invalid.** -/
theorem readMapping_render {fields : List Field} (h : ∀ f ∈ fields, Simple f) :
    readMapping (render fields) =
      if fields.any (fun f => f.2.getLast? = some ':') then none else some fields := by
  rw [readMapping, lines_render h]
  induction fields with
  | nil => rfl
  | cons f fields ih =>
    have ih := ih fun f hf => h f (List.mem_cons_of_mem _ hf)
    rw [List.map_cons, List.mapM_cons, readEntry_line (h f List.mem_cons_self), ih, List.any_cons]
    by_cases hf : f.2.getLast? = some ':'
    · rw [if_pos hf, decide_eq_true hf, Bool.true_or, if_pos rfl]
      rfl
    · rw [if_neg hf, decide_eq_false hf, Bool.false_or]
      split <;> rfl

/-! ## Numbers -/

/-- A number is not printed with a leading zero. -/
theorem toDigits_ne_zero_cons (n : Nat) (c : Char) (cs : List Char) : Nat.toDigits 10 n ≠ '0' :: c :: cs := by
  induction n using Nat.strongRecOn generalizing c cs with
  | ind n ih =>
    by_cases hn : n < 10
    · rw [Nat.toDigits_of_lt_base hn]
      simp
    · rw [Nat.toDigits_of_base_le (by omega) (by omega)]
      intro h
      cases hd : Nat.toDigits 10 (n / 10) with
      | nil => exact Nat.toDigits_ne_nil hd
      | cons d ds =>
        rw [hd, List.cons_append, List.cons.injEq] at h
        cases ds with
        | nil =>
          have hval := congrArg (Nat.ofDigitChars 10 · 0) hd
          rw [Nat.ofDigitChars_ten_toDigits, h.1] at hval
          have : n / 10 = 0 := hval
          omega
        | cons e ds => exact ih (n / 10) (by omega) e ds (h.1 ▸ hd)

theorem unsigned_toDigits {bits n : Nat} (h : n < 2 ^ bits) : unsigned bits (Nat.toDigits 10 n) = some n := by
  have hlead := toDigits_ne_zero_cons n
  have hdigit : ∀ c ∈ Nat.toDigits 10 n, c.isDigit := fun c hc =>
    Nat.isDigit_of_mem_toDigits (by omega) (by omega) hc
  unfold unsigned
  split
  iterate 4
    · rename_i hs
      exact absurd hs (hlead _ _)
  · rw [digits, if_neg Nat.toDigits_ne_nil, digitsVal_of_isDigit hdigit, Nat.ofDigitChars_ten_toDigits]
    exact Option.filter_some_pos (by simpa using h)

end Wstunnel.Yaml
