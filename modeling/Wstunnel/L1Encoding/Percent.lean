import Wstunnel.L1Encoding.HostParse

/-!
# Percent encoding

`percent_encode` writes the bytes of an encode set as `%` and two digits and
leaves the others alone. Decoding undoes it when the set has `%`. Sets without
`%` leave the escapes of the text as they are, so that decoding goes too far.

**Third-party code.** `percent_encode` and `percent_decode` of the crate `percent-encoding`
are written out; the encode sets are parameters.

**Results.**
* `percentDecode_percentEncode`: with `%` in the set the bytes come back.
* `percentDecode_percentEncode_of_keeps`: without it they come back as if they
  had been decoded alone.
* `percentDecode_eq_self_iff`: decoding changes the bytes exactly when there
  is an escape among them, and then makes them fewer.
-/
namespace Wstunnel.L1

open Wstunnel.Str

/-- An upper-case hexadecimal digit. -/
def hexUpper (n : Nat) : UInt8 := UInt8.ofNat (if n < 10 then 48 + n else 55 + n)

def percentEncodeByte (b : UInt8) : List UInt8 := [0x25, hexUpper (b.toNat / 16), hexUpper (b.toNat % 16)]

/-- `percent_encode` for an encode set. -/
def percentEncode (set : UInt8 → Bool) (bs : List UInt8) : List UInt8 :=
  bs.flatMap fun b => if set b then percentEncodeByte b else [b]

/-! ## Decoding, a byte at a time -/

theorem percentDecode_cons_of_ne {b : UInt8} (h : b ≠ 0x25) (rest : List UInt8) :
    percentDecode (b :: rest) = b :: percentDecode rest := by
  match rest with
  | [] | [_] => rfl
  | high :: low :: rest => rw [percentDecode, show escaped b high low = none from if_pos h]

/-- Two digits at the front, as the byte they stand for. -/
def hexPair : List UInt8 → Option (UInt8 × List UInt8)
  | high :: low :: rest => (escaped 0x25 high low).map fun b => (b, rest)
  | _ => none

theorem percentDecode_percent (rest : List UInt8) : percentDecode (0x25 :: rest) =
    match hexPair rest with
    | some (b, rest) => b :: percentDecode rest
    | none => 0x25 :: percentDecode rest := by
  match rest with
  | [] | [_] => rfl
  | high :: low :: rest =>
    rw [percentDecode, hexPair]
    cases escaped 0x25 high low <;> rfl

theorem hexByte_hexUpper : ∀ n < 16, hexByte (hexUpper n) = some (UInt8.ofNat n) := by decide

theorem escaped_hexUpper (b : UInt8) :
    escaped 0x25 (hexUpper (b.toNat / 16)) (hexUpper (b.toNat % 16)) = some b := by
  have hb := b.toNat_lt
  rw [escaped, if_neg (by simp), hexByte_hexUpper _ (by omega), hexByte_hexUpper _ (by omega)]
  refine congrArg some (UInt8.toNat_inj.mp ?_)
  simp
  omega

theorem percentDecode_encodeByte (b : UInt8) (rest : List UInt8) :
    percentDecode (percentEncodeByte b ++ rest) = b :: percentDecode rest := by
  rw [percentEncodeByte, List.cons_append, percentDecode_percent]
  simp only [List.cons_append, List.nil_append, hexPair, escaped_hexUpper, Option.map_some]

theorem percentEncode_cons (set : UInt8 → Bool) (b : UInt8) (bs : List UInt8) :
    percentEncode set (b :: bs) = (if set b then percentEncodeByte b else [b]) ++ percentEncode set bs := rfl

/-- **A set with `%`: the bytes come back.** -/
theorem percentDecode_percentEncode {set : UInt8 → Bool} (h : set 0x25 = true) (bs : List UInt8) :
    percentDecode (percentEncode set bs) = bs := by
  induction bs with
  | nil => rfl
  | cons b bs ih =>
    rw [percentEncode_cons]
    split
    · rw [percentDecode_encodeByte, ih]
    · rename_i hb
      have hne : b ≠ 0x25 := fun e => hb (e ▸ h)
      rw [List.singleton_append, percentDecode_cons_of_ne hne, ih]

theorem forall_byte {p : UInt8 → Prop} (h : ∀ n < 256, p (UInt8.ofNat n)) (b : UInt8) : p b := by
  rw [← UInt8.ofNat_toNat (x := b)]
  exact h b.toNat b.toNat_lt

/-- What is written are bytes outside of the set, `%` and digits. -/
theorem forall_mem_percentEncode {set : UInt8 → Bool} {p : UInt8 → Prop} (hkeep : ∀ b, set b = false → p b)
    (hpercent : p 0x25) (hdigit : ∀ n < 16, p (hexUpper n)) {bs : List UInt8} {b : UInt8}
    (h : b ∈ percentEncode set bs) : p b := by
  obtain ⟨a, -, hb⟩ := List.mem_flatMap.mp h
  have ha := a.toNat_lt
  split at hb
  · rw [percentEncodeByte, List.mem_cons, List.mem_cons, List.mem_singleton] at hb
    rcases hb with rfl | rfl | rfl
    · exact hpercent
    · exact hdigit _ (by omega)
    · exact hdigit _ (by omega)
  · rename_i hset
    rw [List.mem_singleton.mp hb]
    exact hkeep a (by simpa using hset)

/-! ## Escapes in the text -/

/-- The set leaves the digits and `%` alone. -/
structure KeepsEscapes (set : UInt8 → Bool) : Prop where
  percent : set 0x25 = false
  digit : ∀ b, set b = true → hexByte b = none

theorem escaped_eq_some {high low b : UInt8} (h : escaped 0x25 high low = some b) :
    (hexByte high).isSome = true ∧ (hexByte low).isSome = true := by
  rw [escaped, if_neg (by simp)] at h
  obtain ⟨x, hx, h⟩ := Option.bind_eq_some_iff.mp h
  obtain ⟨y, hy, -⟩ := Option.bind_eq_some_iff.mp h
  rw [hx, hy]
  exact ⟨rfl, rfl⟩

theorem hexPair_eq_some {s rest : List UInt8} {b : UInt8} (h : hexPair s = some (b, rest)) :
    ∃ high low, s = high :: low :: rest ∧ escaped 0x25 high low = some b := by
  match s with
  | [] | [_] => cases h
  | high :: low :: rest' =>
    obtain ⟨b', hb, he⟩ := Option.map_eq_some_iff.mp h
    cases he
    exact ⟨high, low, rfl, hb⟩

theorem hexPair_of_isSome {high low : UInt8} (hhigh : (hexByte high).isSome = true)
    (hlow : (hexByte low).isSome = true) (rest : List UInt8) :
    ∃ b, hexPair (high :: low :: rest) = some (b, rest) := by
  obtain ⟨x, hx⟩ := Option.isSome_iff_exists.mp hhigh
  obtain ⟨y, hy⟩ := Option.isSome_iff_exists.mp hlow
  refine ⟨x * 16 + y, ?_⟩
  rw [hexPair, escaped, if_neg (by simp), hx, hy]
  rfl

/-- No pair when the first byte or the second one is no digit. -/
theorem hexPair_eq_none {high : UInt8} {rest : List UInt8}
    (h : hexByte high = none ∨ ∀ low after, rest = low :: after → hexByte low = none) :
    hexPair (high :: rest) = none := by
  cases hp : hexPair (high :: rest) with
  | none => rfl
  | some x =>
    obtain ⟨high', low, he, hb⟩ := hexPair_eq_some hp
    cases he
    obtain ⟨hhigh, hlow⟩ := escaped_eq_some hb
    rcases h with h | h
    · rw [h] at hhigh
      cases hhigh
    · rw [h low x.2 rfl] at hlow
      cases hlow

theorem hexByte_percent : hexByte 0x25 = none := by decide

/-- The first byte of what is written for `b`: `b` itself, or `%`. -/
theorem percentEncode_cons_eq (set : UInt8 → Bool) (b : UInt8) (bs : List UInt8) :
    ∃ rest, percentEncode set (b :: bs) = (if set b then 0x25 else b) :: rest := by
  rw [percentEncode_cons]
  split
  · exact ⟨_, rfl⟩
  · exact ⟨_, rfl⟩

/-- Encoding makes no escape. -/
theorem hexPair_percentEncode {set : UInt8 → Bool} {bs : List UInt8} (h : hexPair bs = none) :
    hexPair (percentEncode set bs) = none := by
  cases bs with
  | nil => rfl
  | cons high bs =>
    by_cases hset : set high = true
    · obtain ⟨rest, he⟩ := percentEncode_cons_eq set high bs
      rw [he, if_pos hset]
      exact hexPair_eq_none (.inl hexByte_percent)
    · rw [percentEncode_cons, if_neg hset, List.singleton_append]
      refine hexPair_eq_none ?_
      cases hhigh : hexByte high with
      | none => exact .inl rfl
      | some x =>
        refine .inr fun first after he => ?_
        cases bs with
        | nil => cases he
        | cons low bs =>
          obtain ⟨rest, hlow⟩ := percentEncode_cons_eq set low bs
          rw [hlow] at he
          cases he
          split
          · exact hexByte_percent
          · cases hl : hexByte low with
            | none => rfl
            | some y =>
              obtain ⟨b, hb⟩ := hexPair_of_isSome (Option.isSome_of_eq_some hhigh) (Option.isSome_of_eq_some hl) bs
              rw [h] at hb
              cases hb

theorem KeepsEscapes.keeps {set : UInt8 → Bool} (hset : KeepsEscapes set) {d : UInt8}
    (hd : (hexByte d).isSome = true) : set d = false := by
  cases hs : set d with
  | false => rfl
  | true =>
    rw [hset.digit d hs] at hd
    cases hd

/-- **A set without `%`: the escapes of the text are decoded.** -/
theorem percentDecode_percentEncode_of_keeps {set : UInt8 → Bool} (hset : KeepsEscapes set) (bs : List UInt8) :
    percentDecode (percentEncode set bs) = percentDecode bs := by
  -- an escape takes three bytes at once
  induction hn : bs.length using Nat.strongRecOn generalizing bs with
  | ind n ih =>
    cases bs with
    | nil => rfl
    | cons b bs =>
      have hrest := ih bs.length (by rw [← hn]; exact Nat.lt_succ_self _) bs rfl
      rw [percentEncode_cons]
      by_cases hb : b = 0x25
      · subst hb
        rw [hset.percent, if_neg Bool.false_ne_true, List.singleton_append, percentDecode_percent,
          percentDecode_percent]
        cases hp : hexPair bs with
        | none =>
          rw [hexPair_percentEncode hp]
          exact congrArg (0x25 :: ·) hrest
        | some x =>
          obtain ⟨high, low, rfl, he⟩ := hexPair_eq_some hp
          obtain ⟨hhigh, hlow⟩ := escaped_eq_some he
          rw [percentEncode_cons, percentEncode_cons, hset.keeps hhigh, hset.keeps hlow, hexPair.eq_def]
          simp only [Bool.false_eq_true, if_false, List.singleton_append, he, Option.map_some]
          refine congrArg (x.1 :: ·) (ih x.2.length ?_ x.2 rfl)
          rw [← hn]
          simp only [List.length_cons]
          omega
      · split
        · rw [percentDecode_encodeByte, percentDecode_cons_of_ne hb, hrest]
        · rw [List.singleton_append, percentDecode_cons_of_ne hb, percentDecode_cons_of_ne hb, hrest]

/-- `%` and two digits among the bytes. -/
def HasEscape (bs : List UInt8) : Prop :=
  ∃ before high low after, bs = before ++ 0x25 :: high :: low :: after ∧
    (hexByte high).isSome = true ∧ (hexByte low).isSome = true

theorem length_percentDecode_le (bs : List UInt8) : (percentDecode bs).length ≤ bs.length := by
  fun_induction percentDecode bs with
  | case1 b high low rest byte _ ih => simp only [List.length_cons]; omega
  | case2 b high low rest _ ih => simpa using ih
  | case3 bs => exact Nat.le_refl _

theorem length_percentDecode_lt {bs : List UInt8} (h : HasEscape bs) : (percentDecode bs).length < bs.length := by
  obtain ⟨before, high, low, after, rfl, hhigh, hlow⟩ := h
  have hdecoded (b : UInt8) (rest s : List UInt8) (hs : s.length = rest.length + 3) :
      (b :: percentDecode rest).length < s.length := by
    have := length_percentDecode_le rest
    rw [List.length_cons]
    omega
  induction before with
  | nil =>
    obtain ⟨b, hb⟩ := hexPair_of_isSome hhigh hlow after
    rw [List.nil_append, percentDecode_percent, hb]
    exact hdecoded b after _ rfl
  | cons c before ih =>
    rw [List.cons_append]
    by_cases hc : c = 0x25
    · subst hc
      rw [percentDecode_percent]
      split
      · rename_i b rest hp
        obtain ⟨high', low', he, -⟩ := hexPair_eq_some hp
        exact hdecoded b rest _ (by rw [he]; rfl)
      · exact Nat.succ_lt_succ ih
    · rw [percentDecode_cons_of_ne hc]
      exact Nat.succ_lt_succ ih

/-- **Decoding changes what has an escape, and nothing else.** -/
theorem percentDecode_eq_self_iff {bs : List UInt8} : percentDecode bs = bs ↔ ¬ HasEscape bs := by
  refine ⟨fun h he => ?_, fun h => ?_⟩
  · have := length_percentDecode_lt he
    rw [h] at this
    exact Nat.lt_irrefl _ this
  · induction bs with
    | nil => rfl
    | cons b bs ih =>
      have hrest : percentDecode bs = bs := ih fun ⟨before, high, low, after, he, hd⟩ =>
        h ⟨b :: before, high, low, after, congrArg (b :: ·) he, hd⟩
      by_cases hb : b = 0x25
      · subst hb
        rw [percentDecode_percent]
        split
        · rename_i byte rest hp
          obtain ⟨high, low, rfl, he⟩ := hexPair_eq_some hp
          exact absurd ⟨[], high, low, rest, rfl, escaped_eq_some he⟩ h
        · rw [hrest]
      · rw [percentDecode_cons_of_ne hb, hrest]

end Wstunnel.L1
