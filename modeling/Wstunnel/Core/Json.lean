import Mathlib.Data.List.Nodup
import Wstunnel.Core.Str

/-!
# JSON

Values, the compact writer, the reader, and the rules by which records and
tagged variants are read from values.

* A number is a natural number, or one that no unsigned field takes: with a
  sign, a fraction or an exponent.
* An object keeps its fields in order, repeated names included.
* `parse_text`: the reader gives back every value the writer wrote.
* `record_struct`, `tagged_variant`: so do the readers of records and of
  variants.
-/
namespace Wstunnel.Json

mutual
inductive Value where
  | null
  | bool (b : Bool)
  | nat (n : Nat)
  | otherNumber
  | str (s : List Char)
  | arr (items : Values)
  | obj (fields : Fields)
  deriving DecidableEq, Repr
inductive Values where
  | nil
  | cons (v : Value) (rest : Values)
  deriving DecidableEq, Repr
inductive Fields where
  | nil
  | cons (key : List Char) (v : Value) (rest : Fields)
  deriving DecidableEq, Repr
end

/-! ## The writer -/

/-- One character inside a string. -/
def escape (c : Char) : List Char :=
  if c = '"' then ['\\', '"']
  else if c = '\\' then ['\\', '\\']
  else if c.toNat = 8 then ['\\', 'b']
  else if c.toNat = 9 then ['\\', 't']
  else if c.toNat = 10 then ['\\', 'n']
  else if c.toNat = 12 then ['\\', 'f']
  else if c.toNat = 13 then ['\\', 'r']
  else if c.toNat < 32 then
    ['\\', 'u', '0', '0', (c.toNat / 16).digitChar, (c.toNat % 16).digitChar]
  else [c]

def quote (s : List Char) : List Char := '"' :: (s.flatMap escape ++ ['"'])

mutual
/-- `otherNumber` is never written. -/
def Value.text : Value → List Char
  | .null => ['n', 'u', 'l', 'l']
  | .bool true => ['t', 'r', 'u', 'e']
  | .bool false => ['f', 'a', 'l', 's', 'e']
  | .nat n => Nat.toDigits 10 n
  | .otherNumber => []
  | .str s => quote s
  | .arr items => '[' :: (items.text ++ [']'])
  | .obj fields => '\x7b' :: (fields.text ++ ['\x7d'])
def Values.text : Values → List Char
  | .nil => []
  | .cons v .nil => v.text
  | .cons v (.cons w rest) => v.text ++ ',' :: (Values.cons w rest).text
def Fields.text : Fields → List Char
  | .nil => []
  | .cons key v .nil => quote key ++ ':' :: v.text
  | .cons key v (.cons key' w rest) => quote key ++ ':' :: (v.text ++ ',' :: (Fields.cons key' w rest).text)
end

/-! ## The reader -/

def isBlank (c : Char) : Bool := c = ' ' || c = '\n' || c = '\t' || c = '\r'

def skipBlank (s : List Char) : List Char := s.dropWhile isBlank

def push (c : Char) (x : Option (List Char × List Char)) : Option (List Char × List Char) :=
  x.map fun (s, r) => (c :: s, r)

def hex4 (a b c d : Char) : Option Nat := Str.digitsVal 16 0 [a, b, c, d]

/-- The escapes of one letter. -/
def unescape (c : Char) : Option Char :=
  if c = '"' ∨ c = '\\' ∨ c = '/' then some c
  else if c = 'b' then some (Char.ofNat 8)
  else if c = 'f' then some (Char.ofNat 12)
  else if c = 'n' then some '\n'
  else if c = 'r' then some '\r'
  else if c = 't' then some '\t'
  else none

/-- The rest of a string, behind its opening quote. -/
def string : List Char → Option (List Char × List Char)
  | [] => none
  | c :: r =>
    if c = '"' then some ([], r)
    else if c = '\\' then match r with
      | [] => none
      | e :: r =>
        if e = 'u' then match r with
          | a :: b :: c :: d :: r => match hex4 a b c d with
            | none => none
            | some n =>
              if 0xDC00 ≤ n ∧ n ≤ 0xDFFF then none
              else if 0xD800 ≤ n ∧ n ≤ 0xDBFF then match r with
                -- the second half of a surrogate pair
                | x :: y :: a :: b :: c :: d :: r => match hex4 a b c d with
                  | none => none
                  | some m =>
                    if x = '\\' ∧ y = 'u' ∧ 0xDC00 ≤ m ∧ m ≤ 0xDFFF then
                      push (Char.ofNat (0x10000 + (n - 0xD800) * 0x400 + (m - 0xDC00))) (string r)
                    else none
                | _ => none
              else push (Char.ofNat n) (string r)
          | _ => none
        else match unescape e with
          | none => none
          | some d => push d (string r)
    else if c.toNat < 32 then none else push c (string r)
termination_by structural s => s

/-- An exponent, if there is one. -/
def exponent : List Char → Option (List Char)
  | c :: r =>
    if c = 'e' ∨ c = 'E' then
      let digits := if r.head? = some '+' ∨ r.head? = some '-' then r.tail else r
      if (digits.takeWhile Char.isDigit).isEmpty then none else some (digits.dropWhile Char.isDigit)
    else some (c :: r)
  | [] => some []

/-- A fraction and an exponent, if there are any. -/
def fraction (s : List Char) : Option (List Char) :=
  if s.head? = some '.' then
    if (s.tail.takeWhile Char.isDigit).isEmpty then none else exponent (s.tail.dropWhile Char.isDigit)
  else exponent s

def leadingZero (ds : List Char) : Bool := ds.head? = some '0' && 1 < ds.length

def number (negative : Bool) (s : List Char) : Option (Value × List Char) :=
  let ds := s.takeWhile Char.isDigit
  let r := s.dropWhile Char.isDigit
  if ds.isEmpty || leadingZero ds then none
  else do
    let n ← Str.digitsVal 10 0 ds
    let rest ← fraction r
    return (if negative || rest.length < r.length then .otherNumber else .nat n, rest)

/-- The rest of a literal. -/
def literal (word : List Char) (v : Value) (s : List Char) : Option (Value × List Char) :=
  if word.isPrefixOf s then some (v, s.drop word.length) else none

/-- The name of a field and its colon. -/
def fieldName (s : List Char) : Option (List Char × List Char) :=
  match skipBlank s with
  | [] => none
  | c :: r =>
    if c = '"' then match string r with
      | none => none
      | some (key, r) => if (skipBlank r).head? = some ':' then some (key, (skipBlank r).tail) else none
    else none

mutual
def value : Nat → List Char → Option (Value × List Char)
  | 0, _ => none
  | fuel + 1, s => match skipBlank s with
    | [] => none
    | c :: r =>
      if c = '"' then (string r).map fun (s, r) => (.str s, r)
      else if c = '[' then (items fuel true r).map fun (vs, r) => (.arr vs, r)
      else if c = '\x7b' then (members fuel true r).map fun (fs, r) => (.obj fs, r)
      else if c = 'n' then literal ['u', 'l', 'l'] .null r
      else if c = 't' then literal ['r', 'u', 'e'] (.bool true) r
      else if c = 'f' then literal ['a', 'l', 's', 'e'] (.bool false) r
      else if c = '-' then number true r
      else number false (c :: r)
/-- The items of an array, at its beginning or behind a comma. -/
def items : Nat → Bool → List Char → Option (Values × List Char)
  | 0, _, _ => none
  | fuel + 1, first, s =>
    if first ∧ (skipBlank s).head? = some ']' then some (.nil, (skipBlank s).tail)
    else match value fuel s with
      | none => none
      | some (v, r) => match skipBlank r with
        | [] => none
        | c :: r =>
          if c = ']' then some (.cons v .nil, r)
          else if c = ',' then (items fuel false r).map fun (vs, r) => (.cons v vs, r)
          else none
/-- The fields of an object. -/
def members : Nat → Bool → List Char → Option (Fields × List Char)
  | 0, _, _ => none
  | fuel + 1, first, s =>
    if first ∧ (skipBlank s).head? = some '\x7d' then some (.nil, (skipBlank s).tail)
    else match fieldName s with
      | none => none
      | some (key, r) => match value fuel r with
        | none => none
        | some (v, r) => match skipBlank r with
          | [] => none
          | c :: r =>
            if c = '\x7d' then some (.cons key v .nil, r)
            else if c = ',' then (members fuel false r).map fun (fs, r) => (.cons key v fs, r)
            else none
end

/-- A whole document. -/
def parse (s : List Char) : Option Value :=
  match value (2 * s.length + 2) s with
  | some (v, r) => if skipBlank r = [] then some v else none
  | none => none

example : parse " \x7b\"a\" : [1, -2, 3.5e1 ], \"b\":\"\\u00e9\\uD83D\\uDE00\"\x7d ".toList =
    some (.obj (.cons ['a'] (.arr (.cons (.nat 1) (.cons .otherNumber (.cons .otherNumber .nil))))
      (.cons ['b'] (.str ['é', '😀']) .nil))) := by decide +kernel

/-! ## Strings and numbers are read back -/

theorem hex4_control : ∀ n < 32, hex4 '0' '0' (n / 16).digitChar (n % 16).digitChar = some n := by
  decide +kernel

theorem eq_ofNat {c : Char} {n : Nat} (h : c.toNat = n) : Char.ofNat n = c := by
  rw [← h, Char.ofNat_toNat]

theorem string_unescape {e d : Char} (h : unescape e = some d) (hu : e ≠ 'u') (t : List Char) :
    string ('\\' :: e :: t) = push d (string t) := by
  rw [string.eq_def]
  simp only [Char.reduceEq, if_false, if_true, hu, h]

/-- An escape is read as the character it stands for. -/
theorem string_escape (c : Char) (t : List Char) : string (escape c ++ t) = push c (string t) := by
  unfold escape
  split
  · rename_i h; subst h; exact string_unescape (by decide) (by decide) t
  split
  · rename_i h; subst h; exact string_unescape (by decide) (by decide) t
  split
  · rename_i h; rw [← eq_ofNat h]; exact string_unescape (by decide) (by decide) t
  split
  · rename_i h; rw [← eq_ofNat h]; exact string_unescape (by decide) (by decide) t
  split
  · rename_i h; rw [← eq_ofNat h]; exact string_unescape (by decide) (by decide) t
  split
  · rename_i h; rw [← eq_ofNat h]; exact string_unescape (by decide) (by decide) t
  split
  · rename_i h; rw [← eq_ofNat h]; exact string_unescape (by decide) (by decide) t
  split
  · rename_i h
    have hhex := hex4_control c.toNat h
    simp only [List.cons_append, List.nil_append, string, Char.reduceEq, if_false, if_true, hhex]
    rw [if_neg (by omega), if_neg (by omega), Char.ofNat_toNat]
  · rename_i hquote hslash _ _ _ _ _ h
    rw [List.singleton_append, string.eq_def]
    simp only [hquote, hslash, h, if_false]

theorem string_quote (s rest : List Char) :
    string (s.flatMap escape ++ '"' :: rest) = some (s, rest) := by
  induction s with
  | nil =>
    rw [List.flatMap_nil, List.nil_append, string.eq_def]
    simp only [if_true]
  | cons c s ih => rw [List.flatMap_cons, List.append_assoc, string_escape, ih]; rfl

/-- What may stand behind a number that ends there. -/
def Follows (rest : List Char) : Prop :=
  ∀ c ∈ rest.head?, c.isDigit = false ∧ c ≠ '.' ∧ c ≠ 'e' ∧ c ≠ 'E'

theorem Follows.nil : Follows [] := fun c h => by cases h

theorem Follows.cons (c : Char) (rest : List Char) (h : c = ',' ∨ c = ']' ∨ c = '\x7d') :
    Follows (c :: rest) := by
  rintro d hd
  cases hd
  rcases h with rfl | rfl | rfl <;> decide

theorem Follows.fraction {rest : List Char} (h : Follows rest) : fraction rest = some rest := by
  cases rest with
  | nil => rfl
  | cons c rest =>
    obtain ⟨-, hdot, he, hE⟩ := h c rfl
    simp [Json.fraction, exponent, hdot, he, hE]

theorem leadingZero_toDigits (n : Nat) : leadingZero (Nat.toDigits 10 n) = false := by
  rcases Nat.eq_zero_or_pos n with rfl | hn
  · rfl
  · have hhead := Str.head?_toDigits (by decide : 1 < 10) hn
    simp [leadingZero, hhead]

theorem number_toDigits (n : Nat) {rest : List Char} (h : Follows rest) :
    number false (Nat.toDigits 10 n ++ rest) = some (.nat n, rest) := by
  have hdigit : ∀ c ∈ Nat.toDigits 10 n, c.isDigit = true := fun c hc =>
    Nat.isDigit_of_mem_toDigits (by omega) (by omega) hc
  have hrest : rest.takeWhile Char.isDigit = [] ∧ rest.dropWhile Char.isDigit = rest := by
    cases rest with
    | nil => exact ⟨rfl, rfl⟩
    | cons c rest =>
      have hc := (h c rfl).1
      simp [hc]
  have htake : (Nat.toDigits 10 n ++ rest).takeWhile Char.isDigit = Nat.toDigits 10 n := by
    rw [List.takeWhile_append_of_pos hdigit, hrest.1, List.append_nil]
  have hdrop : (Nat.toDigits 10 n ++ rest).dropWhile Char.isDigit = rest := by
    rw [List.dropWhile_append_of_pos hdigit, hrest.2]
  have hne : (Nat.toDigits 10 n).isEmpty = false := by
    rw [List.isEmpty_eq_false_iff]
    exact Nat.toDigits_ne_nil
  simp only [number, htake, hdrop, hne, leadingZero_toDigits, Bool.or_self, Bool.false_eq_true, if_false,
    Str.digitsVal_toDigits (by decide : 1 < 10) (by decide), h.fraction]
  simp

/-! ## Values are read back -/

mutual
/-- Without numbers that are not written. -/
def Value.plain : Value → Bool
  | .otherNumber => false
  | .arr items => items.plain
  | .obj fields => fields.plain
  | _ => true
def Values.plain : Values → Bool
  | .nil => true
  | .cons v rest => v.plain && rest.plain
def Fields.plain : Fields → Bool
  | .nil => true
  | .cons _ v rest => v.plain && rest.plain
end

mutual
/-- How much fuel the reader needs. -/
def Value.size : Value → Nat
  | .arr items => items.size + 1
  | .obj fields => fields.size + 1
  | _ => 1
def Values.size : Values → Nat
  | .nil => 1
  | .cons v rest => v.size + rest.size + 1
def Fields.size : Fields → Nat
  | .nil => 1
  | .cons _ v rest => v.size + rest.size + 1
end

/-- A text begins with a character that is neither a blank nor a bracket
that closes. -/
theorem text_head {v : Value} (h : v.plain = true) :
    ∃ c r, v.text = c :: r ∧ isBlank c = false ∧ c ≠ ']' ∧ c ≠ '\x7d' := by
  cases v with
  | null => exact ⟨_, _, rfl, by decide⟩
  | bool b => cases b <;> exact ⟨_, _, rfl, by decide⟩
  | nat n =>
    obtain ⟨c, r, hcr⟩ := List.exists_cons_of_ne_nil (Nat.toDigits_ne_nil (n := n) (b := 10))
    have hdigit : c.isDigit = true := Nat.isDigit_of_mem_toDigits (by omega) (by omega) (hcr ▸ List.mem_cons_self)
    refine ⟨c, r, hcr, ?_, ?_, ?_⟩
    · by_contra hb
      simp only [isBlank, Bool.not_eq_false, Bool.or_eq_true, decide_eq_true_eq] at hb
      rcases hb with ((rfl | rfl) | rfl) | rfl <;> exact absurd hdigit (by decide)
    · rintro rfl; exact absurd hdigit (by decide)
    · rintro rfl; exact absurd hdigit (by decide)
  | otherNumber => cases h
  | str s => exact ⟨_, _, rfl, by decide⟩
  | arr items => exact ⟨_, _, rfl, by decide⟩
  | obj fields => exact ⟨_, _, rfl, by decide⟩

theorem skipBlank_cons {c : Char} (h : isBlank c = false) (r : List Char) : skipBlank (c :: r) = c :: r := by
  rw [skipBlank, List.dropWhile_cons_of_neg (by simp [h])]

theorem skipBlank_text {v : Value} (h : v.plain = true) (rest : List Char) :
    skipBlank (v.text ++ rest) = v.text ++ rest := by
  obtain ⟨c, r, htext, hblank, -⟩ := text_head h
  rw [htext, List.cons_append, skipBlank_cons hblank]

theorem value_nat (fuel n : Nat) {rest : List Char} (h : Follows rest) :
    value (fuel + 1) (Nat.toDigits 10 n ++ rest) = some (.nat n, rest) := by
  obtain ⟨c, r, hcr⟩ := List.exists_cons_of_ne_nil (Nat.toDigits_ne_nil (n := n) (b := 10))
  have hdigit : c.isDigit = true := Nat.isDigit_of_mem_toDigits (by omega) (by omega) (hcr ▸ List.mem_cons_self)
  have hskip := skipBlank_text (v := .nat n) rfl rest
  have hne (d : Char) (hd : d.isDigit = false) : c ≠ d := by rintro rfl; simp [hdigit] at hd
  have hnumber := number_toDigits n h
  rw [Value.text] at hskip
  rw [value, hskip]
  rw [hcr] at hnumber ⊢
  simp only [List.cons_append] at hnumber ⊢
  simp only [hne '"' (by decide), hne '[' (by decide), hne '\x7b' (by decide), hne 'n' (by decide),
    hne 't' (by decide), hne 'f' (by decide), hne '-' (by decide), if_false, hnumber]

theorem fieldName_quote (key rest : List Char) : fieldName (quote key ++ ':' :: rest) = some (key, rest) := by
  have hskip : skipBlank (':' :: rest) = ':' :: rest := skipBlank_cons (by decide) rest
  simp only [fieldName, quote, List.cons_append, List.append_assoc, List.nil_append]
  rw [skipBlank_cons (by decide)]
  simp only [if_true, string_quote, hskip, List.head?_cons, List.tail_cons]

mutual
theorem value_text (v : Value) (hp : v.plain = true) (fuel : Nat) (hf : v.size ≤ fuel) {rest : List Char}
    (hr : Follows rest) : value fuel (v.text ++ rest) = some (v, rest) := by
  obtain ⟨fuel, rfl⟩ : ∃ k, fuel = k + 1 := ⟨fuel - 1, by cases v <;> simp only [Value.size] at hf <;> omega⟩
  cases v with
  | null => simp [Value.text, value, skipBlank, isBlank, literal]
  | bool b => cases b <;> simp [Value.text, value, skipBlank, isBlank, literal]
  | nat n => exact value_nat fuel n hr
  | otherNumber => cases hp
  | str s =>
    rw [value, skipBlank_text rfl]
    simp only [Value.text, quote, List.cons_append, List.append_assoc, List.nil_append, if_true, string_quote]
    rfl
  | arr vs =>
    have ih := items_text vs hp fuel (by simpa [Value.size] using hf) true (fun _ => rfl) rest
    rw [value, skipBlank_text hp]
    simp only [Value.text, List.cons_append, List.append_assoc, List.nil_append, Char.reduceEq, if_false,
      if_true, ih]
    rfl
  | obj fs =>
    have ih := members_text fs hp fuel (by simpa [Value.size] using hf) true (fun _ => rfl) rest
    rw [value, skipBlank_text hp]
    simp only [Value.text, List.cons_append, List.append_assoc, List.nil_append, Char.reduceEq, if_false,
      if_true, ih]
    rfl
theorem items_text (vs : Values) (hp : vs.plain = true) (fuel : Nat) (hf : vs.size ≤ fuel) (first : Bool)
    (hfirst : vs = .nil → first = true) (rest : List Char) :
    items fuel first (vs.text ++ ']' :: rest) = some (vs, rest) := by
  obtain ⟨fuel, rfl⟩ : ∃ k, fuel = k + 1 := ⟨fuel - 1, by cases vs <;> simp only [Values.size] at hf <;> omega⟩
  cases vs with
  | nil =>
    rw [items, Values.text, List.nil_append, skipBlank_cons (by decide), hfirst rfl]
    rfl
  | cons v vs =>
    simp only [Values.plain, Bool.and_eq_true] at hp
    simp only [Values.size] at hf
    have hhead (t : List Char) : ¬ (first = true ∧ (skipBlank (v.text ++ t)).head? = some ']') := by
      obtain ⟨c, r, htext, -, hne, -⟩ := text_head hp.1
      rw [skipBlank_text hp.1, htext]
      simp [hne]
    cases vs with
    | nil =>
      have ih := value_text v hp.1 fuel (by omega) (Follows.cons ']' rest (by simp))
      rw [items, Values.text, if_neg (hhead _), ih]
      simp only [skipBlank_cons (c := ']') (by decide), if_true]
    | cons w vs =>
      have ih := value_text v hp.1 fuel (by omega)
        (Follows.cons ',' ((Values.cons w vs).text ++ ']' :: rest) (by simp))
      have ihs := items_text (.cons w vs) hp.2 fuel (by omega) false (by simp) rest
      rw [items, Values.text, List.append_assoc, List.cons_append, if_neg (hhead _), ih]
      simp only [skipBlank_cons (c := ',') (by decide), Char.reduceEq, if_false, if_true, ihs]
      rfl
theorem members_text (fs : Fields) (hp : fs.plain = true) (fuel : Nat) (hf : fs.size ≤ fuel) (first : Bool)
    (hfirst : fs = .nil → first = true) (rest : List Char) :
    members fuel first (fs.text ++ '\x7d' :: rest) = some (fs, rest) := by
  obtain ⟨fuel, rfl⟩ : ∃ k, fuel = k + 1 := ⟨fuel - 1, by cases fs <;> simp only [Fields.size] at hf <;> omega⟩
  cases fs with
  | nil =>
    rw [members, Fields.text, List.nil_append, skipBlank_cons (by decide), hfirst rfl]
    rfl
  | cons key v fs =>
    simp only [Fields.plain, Bool.and_eq_true] at hp
    simp only [Fields.size] at hf
    have hhead (t : List Char) : ¬ (first = true ∧ (skipBlank (quote key ++ t)).head? = some '\x7d') := by
      rw [quote, List.cons_append, skipBlank_cons (by decide)]
      simp
    cases fs with
    | nil =>
      have ih := value_text v hp.1 fuel (by omega) (Follows.cons '\x7d' rest (by simp))
      rw [members, Fields.text, List.append_assoc, List.cons_append, if_neg (hhead _), fieldName_quote]
      simp only [ih, skipBlank_cons (c := '\x7d') (by decide), if_true]
    | cons key' w fs =>
      have ih := value_text v hp.1 fuel (by omega)
        (Follows.cons ',' ((Fields.cons key' w fs).text ++ '\x7d' :: rest) (by simp))
      have ihs := members_text (.cons key' w fs) hp.2 fuel (by omega) false (by simp) rest
      rw [members, Fields.text, List.append_assoc, List.cons_append, List.append_assoc, List.cons_append,
        if_neg (hhead _), fieldName_quote]
      simp only [ih, skipBlank_cons (c := ',') (by decide), Char.reduceEq, if_false, if_true, ihs]
      rfl
end

mutual
theorem Value.size_le (v : Value) (hp : v.plain = true) : v.size ≤ 2 * v.text.length := by
  obtain ⟨c, r, htext, -⟩ := text_head hp
  cases v with
  | arr vs =>
    have := Values.size_le vs hp
    simp only [Value.size, Value.text, List.length_cons, List.length_append, List.length_nil]
    omega
  | obj fs =>
    have := Fields.size_le fs hp
    simp only [Value.size, Value.text, List.length_cons, List.length_append, List.length_nil]
    omega
  | _ =>
    rw [htext]
    simp only [Value.size, List.length_cons]
    omega
theorem Values.size_le (vs : Values) (hp : vs.plain = true) : vs.size ≤ 2 * vs.text.length + 2 := by
  cases vs with
  | nil => simp [Values.size]
  | cons v vs =>
    simp only [Values.plain, Bool.and_eq_true] at hp
    have hv := v.size_le hp.1
    cases vs with
    | nil => simp only [Values.size, Values.text]; omega
    | cons w vs =>
      have hvs := Values.size_le (.cons w vs) hp.2
      rw [Values.size, Values.text, List.length_append, List.length_cons]
      omega
theorem Fields.size_le (fs : Fields) (hp : fs.plain = true) : fs.size ≤ 2 * fs.text.length + 2 := by
  cases fs with
  | nil => simp [Fields.size]
  | cons key v fs =>
    simp only [Fields.plain, Bool.and_eq_true] at hp
    have hv := v.size_le hp.1
    cases fs with
    | nil => simp only [Fields.size, Fields.text, List.length_append, List.length_cons]; omega
    | cons key' w fs =>
      have hfs := Fields.size_le (.cons key' w fs) hp.2
      rw [Fields.size, Fields.text, List.length_append, List.length_cons, List.length_append, List.length_cons]
      omega
end

/-- The reader gives back what the writer wrote. -/
theorem parse_text {v : Value} (h : v.plain = true) : parse v.text = some v := by
  have hsize := v.size_le h
  have hread := value_text v h (2 * v.text.length + 2) (by omega) Follows.nil
  rw [List.append_nil] at hread
  rw [parse, hread]
  rfl

/-! ## Records and variants -/

def Fields.ofList : List (String × Value) → Fields
  | [] => .nil
  | (key, v) :: rest => .cons key.toList v (ofList rest)

def Fields.toList : Fields → List (String × Value)
  | .nil => []
  | .cons key v rest => (String.ofList key, v) :: rest.toList

def Values.toList : Values → List Value
  | .nil => []
  | .cons v rest => v :: rest.toList

/-- A record is written as an object. -/
def Value.struct (fields : List (String × Value)) : Value := .obj (.ofList fields)

/-- A variant is written as its name, or as an object with this one name. -/
def Value.variant (name : String) : Option Value → Value
  | none => .str name.toList
  | some v => .struct [(name, v)]

/-- A record is read from an object in which no field is repeated, or from an
array with all fields in order. A strict record has no other fields; else
they are skipped. -/
def record (strict : Bool) (names : List String) : Value → Option (String → Option Value)
  | .obj fields =>
    let keys := fields.toList.map Prod.fst
    if names.any (fun name => 1 < keys.count name) || (strict && keys.any (fun key => key ∉ names)) then none
    else some fun name => fields.toList.lookup name
  | .arr items =>
    if items.toList.length = names.length then some fun name => (names.zip items.toList).lookup name
    else none
  | _ => none

def tagged : Value → Option (String × Option Value)
  | .str s => some (String.ofList s, none)
  | .obj (.cons name v .nil) => some (String.ofList name, some v)
  | _ => none

def readBool : Value → Option Bool
  | .bool b => some b
  | _ => none

def readNat (bits : Nat) : Value → Option Nat
  | .nat n => if n < 2 ^ bits then some n else none
  | _ => none

def readStr : Value → Option String
  | .str s => some (String.ofList s)
  | _ => none

section
variable {α : Type}

/-- A field that has to be there. -/
def required (read : Value → Option α) (v : Option Value) : Option α := v.bind read

/-- A field that may be missing or null. -/
def optional (read : Value → Option α) : Option Value → Option (Option α)
  | none | some .null => some none
  | some v => (read v).map some

def Value.ofOption (write : α → Value) : Option α → Value
  | none => .null
  | some a => write a

theorem optional_ofOption {read : Value → Option α} {write : α → Value} {a : Option α}
    (h : ∀ x ∈ a, read (write x) = some x ∧ write x ≠ .null) :
    optional read (some (Value.ofOption write a)) = some a := by
  cases a with
  | none => rfl
  | some x =>
    obtain ⟨hread, hne⟩ := h x rfl
    rw [Value.ofOption, optional, hread]
    · rfl
    · simpa using hne
end

theorem Fields.toList_ofList (fields : List (String × Value)) : (Fields.ofList fields).toList = fields := by
  induction fields with
  | nil => rfl
  | cons f fields ih => rw [Fields.ofList, Fields.toList, ih, String.ofList_toList]

theorem record_struct (strict : Bool) {names : List String} {fields : List (String × Value)}
    (hnames : fields.map Prod.fst = names) (h : names.Nodup) :
    record strict names (.struct fields) = some fun name => fields.lookup name := by
  subst hnames
  have hcount : (fields.map Prod.fst).any (fun name => 1 < (fields.map Prod.fst).count name) = false := by
    rw [List.any_eq_false]
    intro name _
    have := List.nodup_iff_count_le_one.mp h name
    simpa using this
  have hknown : (fields.map Prod.fst).any (fun key => key ∉ fields.map Prod.fst) = false := by
    rw [List.any_eq_false]
    intro key hkey
    simpa using hkey
  simp only [record, Value.struct, Fields.toList_ofList, hcount, hknown, Bool.and_false, Bool.or_self,
    Bool.false_eq_true, if_false]

theorem readNat_of_lt {bits n : Nat} (h : n < 2 ^ bits) : readNat bits (.nat n) = some n := if_pos h

@[simp] theorem plain_ofList (fields : List (String × Value)) :
    (Fields.ofList fields).plain = fields.all fun f => f.2.plain := by
  induction fields with
  | nil => rfl
  | cons f fields ih => rw [Fields.ofList, Fields.plain, ih, List.all_cons]

@[simp] theorem tagged_variant (name : String) (v : Option Value) :
    tagged (.variant name v) = some (name, v) := by
  cases v <;> simp [Value.variant, Value.struct, Fields.ofList, tagged]

@[simp] theorem plain_variant (name : String) (v : Option Value) :
    (Value.variant name v).plain = v.all Value.plain := by
  cases v <;> simp [Value.variant, Value.struct, Value.plain]

end Wstunnel.Json
