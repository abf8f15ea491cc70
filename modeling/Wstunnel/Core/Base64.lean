import Mathlib.Data.List.Basic
import Mathlib.Tactic.Common

/-!
# Base64

Three bytes as four digits, with the alphabet that ends in `+` and `/`; one or
two bytes at the end are padded to four characters with `=`.

* `decode_encode`, `encode_injective`: the bytes can be read back.
* `mem_encode`: the characters that are written.
* `Base64Url`: the same digits with `-` and `_` at the end of the alphabet and
  without padding, and a reader that refuses every other text.
-/
namespace Wstunnel.Base64

def digit (n : Nat) : Char :=
  if n < 26 then Char.ofNat (65 + n)
  else if n < 52 then Char.ofNat (71 + n)
  else if n < 62 then Char.ofNat (n - 4)
  else if n = 62 then '+' else '/'

def encode : List UInt8 → List Char
  | a :: b :: c :: rest =>
    digit (a.toNat / 4) :: digit (a.toNat % 4 * 16 + b.toNat / 16) ::
      digit (b.toNat % 16 * 4 + c.toNat / 64) :: digit (c.toNat % 64) :: encode rest
  | [a, b] => [digit (a.toNat / 4), digit (a.toNat % 4 * 16 + b.toNat / 16), digit (b.toNat % 16 * 4), '=']
  | [a] => [digit (a.toNat / 4), digit (a.toNat % 4 * 16), '=', '=']
  | [] => []

example : encode [0x61, 0x3A, 0x62, 0x63] = "YTpiYw==".toList := by decide

def value (c : Char) : Nat := ((List.range 64).find? fun n => digit n = c).getD 0

/-- The bytes of a padded text. -/
def decode : List Char → List UInt8
  | c₁ :: c₂ :: c₃ :: c₄ :: rest =>
    let a := UInt8.ofNat (value c₁ * 4 + value c₂ / 16)
    let b := UInt8.ofNat (value c₂ % 16 * 16 + value c₃ / 4)
    if c₃ = '=' then [a]
    else if c₄ = '=' then [a, b]
    else a :: b :: UInt8.ofNat (value c₃ % 4 * 64 + value c₄) :: decode rest
  | _ => []

theorem value_digit : ∀ n < 64, value (digit n) = n := by decide +kernel

theorem digit_ne_pad : ∀ n < 64, digit n ≠ '=' := by decide +kernel

theorem ofNat_eq {b : UInt8} {n : Nat} (h : n = b.toNat) : UInt8.ofNat n = b := by
  rw [h, UInt8.ofNat_toNat]

theorem decode_encode (bs : List UInt8) : decode (encode bs) = bs := by
  fun_induction encode bs with
  | case1 a b c rest ih =>
    have ha := a.toNat_lt
    have hb := b.toNat_lt
    have hc := c.toNat_lt
    rw [decode, if_neg (digit_ne_pad _ (by omega)), if_neg (digit_ne_pad _ (by omega)), ih,
      value_digit _ (by omega), value_digit _ (by omega), value_digit _ (by omega), value_digit _ (by omega),
      ofNat_eq (b := a) (by omega), ofNat_eq (b := b) (by omega), ofNat_eq (b := c) (by omega)]
  | case2 a b =>
    have ha := a.toNat_lt
    have hb := b.toNat_lt
    rw [decode, if_neg (digit_ne_pad _ (by omega)), if_pos rfl, value_digit _ (by omega), value_digit _ (by omega),
      value_digit _ (by omega), ofNat_eq (b := a) (by omega), ofNat_eq (b := b) (by omega)]
  | case3 a =>
    have ha := a.toNat_lt
    rw [decode, if_pos rfl, value_digit _ (by omega), value_digit _ (by omega), ofNat_eq (b := a) (by omega)]
  | case4 => rfl

theorem encode_injective {bs cs : List UInt8} (h : encode bs = encode cs) : bs = cs := by
  rw [← decode_encode bs, h, decode_encode]

/-- The characters that are written: digits and the padding. -/
theorem mem_encode {bs : List UInt8} {c : Char} (h : c ∈ encode bs) : c = '=' ∨ ∃ n < 64, c = digit n := by
  fun_induction encode bs with
  | case1 a b d rest ih =>
    have ha := a.toNat_lt
    have hb := b.toNat_lt
    have hd := d.toNat_lt
    simp only [List.mem_cons] at h
    rcases h with h | h | h | h | h
    · exact .inr ⟨_, by omega, h⟩
    · exact .inr ⟨_, by omega, h⟩
    · exact .inr ⟨_, by omega, h⟩
    · exact .inr ⟨_, by omega, h⟩
    · exact ih h
  | case2 a b =>
    have ha := a.toNat_lt
    have hb := b.toNat_lt
    simp only [List.mem_cons, List.not_mem_nil, or_false] at h
    rcases h with h | h | h | h
    · exact .inr ⟨_, by omega, h⟩
    · exact .inr ⟨_, by omega, h⟩
    · exact .inr ⟨_, by omega, h⟩
    · exact .inl h
  | case3 a =>
    have ha := a.toNat_lt
    simp only [List.mem_cons, List.not_mem_nil, or_false] at h
    rcases h with h | h | h | h
    · exact .inr ⟨_, by omega, h⟩
    · exact .inr ⟨_, by omega, h⟩
    · exact .inl h
    · exact .inl h
  | case4 => cases h

end Wstunnel.Base64

/-! ## For URLs, without padding -/

namespace Wstunnel.Base64Url

def toUrl (c : Char) : Char := if c = '+' then '-' else if c = '/' then '_' else c

def ofUrl (c : Char) : Char := if c = '-' then '+' else if c = '_' then '/' else c

def encode (bs : List UInt8) : List Char := ((Base64.encode bs).filter (· ≠ '=')).map toUrl

/-- The standard form of a text: its digits, and the padding. -/
def pad (cs : List Char) : List Char := cs ++ List.replicate ((4 - cs.length % 4) % 4) '='

/-- Only the text that `encode` writes is accepted: no other characters, no
padding, and no bits left over. -/
def decode (cs : List Char) : Option (List UInt8) :=
  let bs := Base64.decode (pad (cs.map ofUrl))
  if encode bs = cs then some bs else none

theorem ofUrl_toUrl : ∀ n < 64, ofUrl (toUrl (Base64.digit n)) = Base64.digit n := by decide +kernel

theorem filter_cons_digit {n : Nat} (h : n < 64) (cs : List Char) :
    (Base64.digit n :: cs).filter (· ≠ '=') = Base64.digit n :: cs.filter (· ≠ '=') := by
  rw [List.filter_cons_of_pos]
  simpa using Base64.digit_ne_pad n h

/-- Padding puts back what was left out. -/
theorem pad_filter (bs : List UInt8) : pad ((Base64.encode bs).filter (· ≠ '=')) = Base64.encode bs := by
  fun_induction Base64.encode bs with
  | case1 a b c rest ih =>
    have ha := a.toNat_lt
    have hb := b.toNat_lt
    have hc := c.toNat_lt
    rw [filter_cons_digit (by omega), filter_cons_digit (by omega), filter_cons_digit (by omega),
      filter_cons_digit (by omega)]
    simp only [pad, List.cons_append, List.length_cons] at ih ⊢
    rw [show (List.filter (fun x => decide (x ≠ '=')) (Base64.encode rest)).length + 1 + 1 + 1 + 1 =
      (List.filter (fun x => decide (x ≠ '=')) (Base64.encode rest)).length + 4 by omega, Nat.add_mod_right, ih]
  | case2 a b =>
    have ha := a.toNat_lt
    have hb := b.toNat_lt
    rw [filter_cons_digit (by omega), filter_cons_digit (by omega), filter_cons_digit (by omega)]
    rfl
  | case3 a =>
    have ha := a.toNat_lt
    rw [filter_cons_digit (by omega), filter_cons_digit (by omega)]
    rfl
  | case4 => rfl

theorem map_ofUrl_encode (bs : List UInt8) : (encode bs).map ofUrl = (Base64.encode bs).filter (· ≠ '=') := by
  rw [encode, List.map_map]
  refine List.map_congr_left (g := id) ?_ |>.trans (List.map_id _)
  intro c hc
  rw [List.mem_filter] at hc
  rcases Base64.mem_encode hc.1 with rfl | ⟨n, hn, rfl⟩
  · simp at hc
  · exact ofUrl_toUrl n hn

theorem decode_encode (bs : List UInt8) : decode (encode bs) = some bs := by
  have h : Base64.decode (pad ((encode bs).map ofUrl)) = bs := by
    rw [map_ofUrl_encode, pad_filter, Base64.decode_encode]
  simp only [decode, h, if_true]

/-- The characters that are written. -/
theorem mem_encode {bs : List UInt8} {c : Char} (h : c ∈ encode bs) : ∃ n < 64, c = toUrl (Base64.digit n) := by
  simp only [encode, List.mem_map, List.mem_filter] at h
  obtain ⟨d, ⟨hd, hpad⟩, rfl⟩ := h
  rcases Base64.mem_encode hd with rfl | ⟨n, hn, rfl⟩
  · simp at hpad
  · exact ⟨n, hn, rfl⟩

theorem dot_not_mem_encode (bs : List UInt8) : '.' ∉ encode bs := by
  intro h
  obtain ⟨n, hn, hc⟩ := mem_encode h
  have hne : ∀ n < 64, '.' ≠ toUrl (Base64.digit n) := by decide +kernel
  exact hne n hn hc

end Wstunnel.Base64Url
