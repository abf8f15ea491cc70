import Mathlib.Data.List.Basic
import Mathlib.Tactic.Common

/-!
# Validated UTF-8

`core::str::from_utf8` on lists of bytes: the table of well-formed sequences
of the Unicode standard, which excludes overlong forms, surrogates and
values past `U+10FFFF`. One byte at a time, so that it computes. `encode` is the
encoding of Lean's own strings, and `lossy` is `from_utf8_lossy`.

* `decode_encode`: every text is read back.
* `mem_of_mem_encode`: a byte below `0x80` stands for itself, so a text can be cut at
  such a byte.
* `lossy_of_decode`, `mem_lossy`: replacing leaves valid text alone, and neither adds
  nor removes a byte below `0x80`.
-/
namespace Wstunnel.Utf8

/-- Inside a sequence: continuation bytes still to come, the bits so far, and
the range of the next byte. -/
structure Pending where
  need : Nat
  acc : Nat
  lo : UInt8
  hi : UInt8

/-- The sequence a first byte starts, `none` for a byte that starts none.
The bounds on the second byte exclude overlong forms (`E0`, `F0`),
surrogates (`ED`) and values past `U+10FFFF` (`F4`). -/
def lead (b : UInt8) : Option Pending :=
  if b < 0x80 then some ⟨0, b.toNat, 0, 0⟩
  else if 0xC2 ≤ b ∧ b ≤ 0xDF then some ⟨1, b.toNat % 32, 0x80, 0xBF⟩
  else if b = 0xE0 then some ⟨2, 0, 0xA0, 0xBF⟩
  else if b = 0xED then some ⟨2, 13, 0x80, 0x9F⟩
  else if 0xE1 ≤ b ∧ b ≤ 0xEF then some ⟨2, b.toNat % 16, 0x80, 0xBF⟩
  else if b = 0xF0 then some ⟨3, 0, 0x90, 0xBF⟩
  else if b = 0xF4 then some ⟨3, 4, 0x80, 0x8F⟩
  else if 0xF1 ≤ b ∧ b ≤ 0xF3 then some ⟨3, b.toNat % 8, 0x80, 0xBF⟩
  else none

/-- The sequence after one more byte. -/
def Pending.next (p : Pending) (b : UInt8) : Option Pending :=
  if p.lo ≤ b ∧ b ≤ p.hi then some ⟨p.need - 1, p.acc * 64 + b.toNat % 64, 0x80, 0xBF⟩ else none

/-- Reads on from inside a sequence, or between two. -/
def decodeFrom : Option Pending → List UInt8 → Option (List Char)
  | none, [] => some []
  | some _, [] => none
  | p, b :: bs =>
    match (match p with | none => lead b | some p => p.next b) with
    | none => none
    | some q =>
      if q.need = 0 then (decodeFrom none bs).map (Char.ofNat q.acc :: ·) else decodeFrom (some q) bs

/-- `str::from_utf8`. -/
def decode (bs : List UInt8) : Option (List Char) := decodeFrom none bs

theorem decodeFrom_cons (p : Option Pending) (b : UInt8) (bs : List UInt8) :
    decodeFrom p (b :: bs) = match (match p with | none => lead b | some p => p.next b) with
      | none => none
      | some q =>
        if q.need = 0 then (decodeFrom none bs).map (Char.ofNat q.acc :: ·) else decodeFrom (some q) bs := by
  cases p <;> rfl

theorem decodeFrom_append {p : Option Pending} {a : List UInt8} {cs : List Char}
    (h : decodeFrom p a = some cs) (b : List UInt8) :
    decodeFrom p (a ++ b) = (decode b).map (cs ++ ·) := by
  induction a generalizing p cs with
  | nil => cases p with
    | none =>
      cases h
      simp [decode]
    | some p => cases h
  | cons c a ih =>
    rw [List.cons_append, decodeFrom_cons]
    rw [decodeFrom_cons] at h
    split at h
    · cases h
    · split at h
      · rename_i hn
        obtain ⟨ds, hd, rfl⟩ := Option.map_eq_some_iff.mp h
        rw [if_pos hn, ih hd]
        cases decode b <;> rfl
      · rename_i hn
        rw [if_neg hn]
        exact ih h

/-- Valid text behind valid text. -/
theorem decode_append {a b : List UInt8} {cs ds : List Char} (ha : decode a = some cs)
    (hb : decode b = some ds) : decode (a ++ b) = some (cs ++ ds) := by
  have := decodeFrom_append ha b
  rwa [hb] at this

theorem decode_of_ascii {bs : List UInt8} (h : ∀ b ∈ bs, b < 0x80) : ∃ cs, decode bs = some cs := by
  induction bs with
  | nil => exact ⟨[], rfl⟩
  | cons b bs ih =>
    obtain ⟨cs, hcs⟩ := ih fun b hb => h b (List.mem_cons_of_mem _ hb)
    have hb : decode [b] = some [Char.ofNat b.toNat] := by
      simp [decode, decodeFrom, lead, h b (by simp)]
    exact ⟨_, decode_append hb hcs⟩

/-- The bytes of a string. -/
def encode (cs : List Char) : List UInt8 := cs.flatMap String.utf8EncodeChar

theorem encode_of_ascii {cs : List Char} (h : ∀ c ∈ cs, c.toNat < 0x80) :
    encode cs = cs.map fun c => UInt8.ofNat c.toNat := by
  rw [encode, List.map_eq_flatMap]
  exact List.flatMap_congr fun c hc => if_pos (Nat.le_of_lt_succ (h c hc))

/-! ## From characters to bytes and back -/

theorem toNat_ofNat_of_lt {n : Nat} (h : n < 256) : (UInt8.ofNat n).toNat = n := by
  rw [UInt8.toNat_ofNat']
  exact Nat.mod_eq_of_lt h

theorem toNat_ofNat_of_ascii {c : Char} (h : c.toNat < 0x80) : (UInt8.ofNat c.toNat).toNat = c.toNat :=
  toNat_ofNat_of_lt (Nat.lt_trans h (by decide))

theorem next_ofNat {p : Pending} {n : Nat} (hn : n < 256) (hlo : p.lo.toNat ≤ n) (hhi : n ≤ p.hi.toNat) :
    p.next (UInt8.ofNat n) = some ⟨p.need - 1, p.acc * 64 + n % 64, 0x80, 0xBF⟩ := by
  have hb := toNat_ofNat_of_lt hn
  rw [Pending.next, if_pos, hb]
  rw [UInt8.le_iff_toNat_le, UInt8.le_iff_toNat_le, hb]
  exact ⟨hlo, hhi⟩

theorem lead_two {n : Nat} (h : 0x80 ≤ n) (h' : n ≤ 0x7FF) :
    lead (UInt8.ofNat (n / 64 % 32 + 192)) = some ⟨1, n / 64, 0x80, 0xBF⟩ := by
  have hb := toNat_ofNat_of_lt (n := n / 64 % 32 + 192) (by omega)
  have hmod : (n / 64 % 32 + 192) % 32 = n / 64 := by omega
  simp only [lead, UInt8.lt_iff_toNat_lt, UInt8.le_iff_toNat_le, hb, UInt8.reduceToNat, hmod]
  rw [if_neg (by omega), if_pos (by omega)]

/-- The bounds on the second byte of a longer sequence keep every character. -/
theorem lead_three {n : Nat} (h : 0x800 ≤ n) (h' : n ≤ 0xFFFF) (hv : Char.isValidCharNat n) :
    ∃ q, lead (UInt8.ofNat (n / 4096 % 16 + 224)) = some q ∧ q.need = 2 ∧ q.acc = n / 4096 ∧
      q.lo.toNat ≤ n / 64 % 64 + 128 ∧ n / 64 % 64 + 128 ≤ q.hi.toNat := by
  have hb := toNat_ofNat_of_lt (n := n / 4096 % 16 + 224) (by omega)
  unfold Char.isValidCharNat at hv
  simp only [lead, UInt8.lt_iff_toNat_lt, UInt8.le_iff_toNat_le, ← UInt8.toNat_inj, hb,
    UInt8.reduceToNat]
  rw [if_neg (by omega), if_neg (by omega)]
  by_cases hE0 : n / 4096 % 16 + 224 = 224
  · rw [if_pos hE0]
    refine ⟨_, rfl, rfl, ?_, ?_, ?_⟩ <;> simp only [UInt8.reduceToNat] <;> omega
  by_cases hED : n / 4096 % 16 + 224 = 237
  · rw [if_neg hE0, if_pos hED]
    refine ⟨_, rfl, rfl, ?_, ?_, ?_⟩ <;> simp only [UInt8.reduceToNat] <;> omega
  · rw [if_neg hE0, if_neg hED, if_pos (by omega)]
    refine ⟨_, rfl, rfl, ?_, ?_, ?_⟩ <;> simp only [UInt8.reduceToNat] <;> omega

theorem lead_four {n : Nat} (h : 0x10000 ≤ n) (hv : Char.isValidCharNat n) :
    ∃ q, lead (UInt8.ofNat (n / 262144 % 8 + 240)) = some q ∧ q.need = 3 ∧ q.acc = n / 262144 ∧
      q.lo.toNat ≤ n / 4096 % 64 + 128 ∧ n / 4096 % 64 + 128 ≤ q.hi.toNat := by
  have hb := toNat_ofNat_of_lt (n := n / 262144 % 8 + 240) (by omega)
  unfold Char.isValidCharNat at hv
  simp only [lead, UInt8.lt_iff_toNat_lt, UInt8.le_iff_toNat_le, ← UInt8.toNat_inj, hb,
    UInt8.reduceToNat]
  rw [if_neg (by omega), if_neg (by omega), if_neg (by omega), if_neg (by omega), if_neg (by omega)]
  by_cases hF0 : n / 262144 % 8 + 240 = 240
  · rw [if_pos hF0]
    refine ⟨_, rfl, rfl, ?_, ?_, ?_⟩ <;> simp only [UInt8.reduceToNat] <;> omega
  by_cases hF4 : n / 262144 % 8 + 240 = 244
  · rw [if_neg hF0, if_pos hF4]
    refine ⟨_, rfl, rfl, ?_, ?_, ?_⟩ <;> simp only [UInt8.reduceToNat] <;> omega
  · rw [if_neg hF0, if_neg hF4, if_pos (by omega)]
    refine ⟨_, rfl, rfl, ?_, ?_, ?_⟩ <;> simp only [UInt8.reduceToNat] <;> omega

theorem decode_of_lead {b : UInt8} {q : Pending} {k : Nat} (hq : lead b = some q) (hneed : q.need = k + 1)
    (bs : List UInt8) : decode (b :: bs) = decodeFrom (some q) bs := by
  rw [decode, decodeFrom_cons]
  simp only [hq, hneed]
  rfl

/-- The last byte of a sequence. -/
theorem decodeFrom_last {p : Pending} {n : Nat} (hneed : p.need = 1) (hacc : p.acc = n / 64)
    (hlo : p.lo.toNat ≤ n % 64 + 128) (hhi : n % 64 + 128 ≤ p.hi.toNat) :
    decodeFrom (some p) [UInt8.ofNat (n % 64 + 128)] = some [Char.ofNat n] := by
  have hmod : p.acc * 64 + (n % 64 + 128) % 64 = n := by omega
  simp only [decodeFrom, next_ofNat (show n % 64 + 128 < 256 by omega) hlo hhi, hneed, hmod]
  rfl

/-- A byte inside a sequence. -/
theorem decodeFrom_inner {p : Pending} {n k : Nat} {bs : List UInt8} (hneed : p.need = k + 2)
    (hacc : p.acc = n / 64) (hlo : p.lo.toNat ≤ n % 64 + 128) (hhi : n % 64 + 128 ≤ p.hi.toNat) :
    decodeFrom (some p) (UInt8.ofNat (n % 64 + 128) :: bs) =
      decodeFrom (some ⟨k + 1, n, 0x80, 0xBF⟩) bs := by
  have hmod : p.acc * 64 + (n % 64 + 128) % 64 = n := by omega
  rw [decodeFrom_cons]
  simp only [next_ofNat (show n % 64 + 128 < 256 by omega) hlo hhi, hneed, hmod]
  rfl

/-- The bounds of every byte but the first two. -/
theorem continuation_bounds (n : Nat) :
    UInt8.toNat 0x80 ≤ n % 64 + 128 ∧ n % 64 + 128 ≤ UInt8.toNat 0xBF := by
  simp only [UInt8.reduceToNat]
  omega

/-- The bytes of a character, by its code. -/
def sequence (n : Nat) : List UInt8 :=
  if n ≤ 0x7F then [UInt8.ofNat n]
  else if n ≤ 0x7FF then [UInt8.ofNat (n / 64 % 32 + 192), UInt8.ofNat (n % 64 + 128)]
  else if n ≤ 0xFFFF then
    [UInt8.ofNat (n / 4096 % 16 + 224), UInt8.ofNat (n / 64 % 64 + 128), UInt8.ofNat (n % 64 + 128)]
  else
    [UInt8.ofNat (n / 262144 % 8 + 240), UInt8.ofNat (n / 4096 % 64 + 128),
      UInt8.ofNat (n / 64 % 64 + 128), UInt8.ofNat (n % 64 + 128)]

theorem decode_sequence {n : Nat} (hv : Char.isValidCharNat n) :
    decode (sequence n) = some [Char.ofNat n] := by
  have hlast := continuation_bounds n
  unfold sequence
  split_ifs with h1 h2 h3
  · have hb := toNat_ofNat_of_lt (n := n) (by omega)
    have hlead : UInt8.ofNat n < 0x80 := by
      rw [UInt8.lt_iff_toNat_lt, hb]
      exact Nat.lt_succ_of_le h1
    simp only [decode, decodeFrom, lead, hlead, if_true, Option.map_some, hb]
  · rw [decode_of_lead (lead_two (by omega) h2) rfl]
    exact decodeFrom_last rfl rfl hlast.1 hlast.2
  · obtain ⟨q, hq, hneed, hacc, hlo, hhi⟩ := lead_three (by omega) h3 hv
    rw [decode_of_lead hq hneed, decodeFrom_inner hneed (by omega) hlo hhi]
    exact decodeFrom_last rfl rfl hlast.1 hlast.2
  · obtain ⟨q, hq, hneed, hacc, hlo, hhi⟩ := lead_four (by omega) hv
    have hinner := continuation_bounds (n / 64)
    rw [decode_of_lead hq hneed, decodeFrom_inner hneed (by omega) hlo hhi,
      decodeFrom_inner rfl (show n / 4096 = n / 64 / 64 by omega) hinner.1 hinner.2]
    exact decodeFrom_last rfl rfl hlast.1 hlast.2

theorem decode_utf8EncodeChar (c : Char) : decode (String.utf8EncodeChar c) = some [c] := by
  have hv : Char.isValidCharNat c.toNat := c.valid
  show decode (sequence c.toNat) = some [c]
  rw [decode_sequence hv, Char.ofNat_toNat]

/-- **Every string comes back from its bytes.** -/
theorem decode_encode (cs : List Char) : decode (encode cs) = some cs := by
  induction cs with
  | nil => rfl
  | cons c cs ih => exact decode_append (decode_utf8EncodeChar c) ih

/-- `U+FFFD` -/
def replacement : List UInt8 := [0xEF, 0xBF, 0xBD]

/-- Reads on, with the bytes of the sequence so far. A sequence that breaks
off is replaced, and the byte that broke it starts the next one. -/
def lossyFrom (p : Option (Pending × List UInt8)) : List UInt8 → List UInt8
  | [] => if p.isSome then replacement else []
  | b :: bs =>
    match p.bind fun p => (p.1.next b).map fun q => (q, p.2 ++ [b]) with
    | some q => if q.1.need = 0 then q.2 ++ lossyFrom none bs else lossyFrom (some q) bs
    | none =>
      (if p.isSome then replacement else []) ++
        match lead b with
        | none => replacement ++ lossyFrom none bs
        | some q => if q.need = 0 then b :: lossyFrom none bs else lossyFrom (some (q, [b])) bs

/-- `String::from_utf8_lossy`, as the bytes of the resulting string. -/
def lossy (bs : List UInt8) : List UInt8 := lossyFrom none bs

theorem lossyFrom_of_decodeFrom {p : Option Pending} {bs : List UInt8} {cs : List Char}
    (h : decodeFrom p bs = some cs) (seen : List UInt8) :
    lossyFrom (p.map fun p => (p, seen)) bs = (if p.isSome then seen else []) ++ bs := by
  induction bs generalizing p seen cs with
  | nil => cases p with
    | none => rfl
    | some p => cases h
  | cons b bs ih =>
    -- the rest is read from between two sequences, or from inside one
    have hrest {q : Pending} {cs : List Char} (seen : List UInt8) (hq : (if q.need = 0 then
          (decodeFrom none bs).map (Char.ofNat q.acc :: ·) else decodeFrom (some q) bs) = some cs) :
        (if q.need = 0 then seen ++ lossyFrom none bs else lossyFrom (some (q, seen)) bs) = seen ++ bs := by
      split at hq
      · rename_i hn
        obtain ⟨_, hd, _⟩ := Option.map_eq_some_iff.mp hq
        rw [if_pos hn, show lossyFrom none bs = bs from ih hd []]
      · rename_i hn
        rw [if_neg hn]
        exact ih hq seen
    cases p with
    | none =>
      rw [decodeFrom] at h
      unfold lossyFrom
      cases hl : lead b with
      | none => simp [hl] at h
      | some q =>
        rw [hl] at h
        simpa using hrest [b] h
    | some p =>
      rw [decodeFrom] at h
      unfold lossyFrom
      cases hl : p.next b with
      | none => simp [hl] at h
      | some q =>
        rw [hl] at h
        simpa [hl] using hrest (seen ++ [b]) h

/-- Valid text stays as it is. -/
theorem lossy_of_decode {bs : List UInt8} {cs : List Char} (h : decode bs = some cs) : lossy bs = bs :=
  lossyFrom_of_decodeFrom h []

example : decode [0x63, 0xC3, 0xA9, 0xE2, 0x82, 0xAC, 0xF0, 0x9F, 0x98, 0x80] =
    some ['c', 'é', '€', '😀'] := by decide

/-- An ASCII byte is a sequence of its own, any other byte starts a longer one. -/
theorem lead_eq_some {b : UInt8} {q : Pending} (h : lead b = some q) :
    b < 0x80 ∧ q.need = 0 ∨ 0x80 ≤ b ∧ 0x80 ≤ q.lo ∧ q.need ≠ 0 := by
  unfold lead at h
  by_cases hb : b < 0x80
  · rw [if_pos hb] at h
    cases h
    exact .inl ⟨hb, rfl⟩
  · rw [if_neg hb] at h
    refine .inr ⟨UInt8.not_lt.mp hb, ?_⟩
    split_ifs at h <;> cases h <;> dsimp only <;> decide

theorem lead_ne_none {b : UInt8} (hb : b < 0x80) : lead b ≠ none := by
  simp [lead, hb]

theorem not_mem_replacement {c : UInt8} (hc : c < 0x80) : c ∉ replacement := by
  intro h
  simp only [replacement, List.mem_cons, List.not_mem_nil, or_false] at h
  rcases h with rfl | rfl | rfl <;> exact absurd hc (by decide)

theorem mem_lossyFrom {c : UInt8} (hc : c < 0x80) {p : Option (Pending × List UInt8)}
    (hp : ∀ q seen, p = some (q, seen) → 0x80 ≤ q.lo ∧ c ∉ seen) (bs : List UInt8) :
    c ∈ lossyFrom p bs ↔ c ∈ bs := by
  have hrep := not_mem_replacement hc
  have hne {b : UInt8} (hb : 0x80 ≤ b) : c ≠ b := fun e => absurd hb (UInt8.not_le.mpr (e ▸ hc))
  induction bs generalizing p with
  | nil =>
    unfold lossyFrom
    split <;> simp [hrep]
  | cons b bs ih =>
    have hnone : c ∈ lossyFrom none bs ↔ c ∈ bs := ih (by simp)
    have hsome (q : Pending) (seen : List UInt8) (hlo : 0x80 ≤ q.lo) (hs : c ∉ seen) :
        c ∈ lossyFrom (some (q, seen)) bs ↔ c ∈ bs :=
      ih (by intro q' seen' he; cases he; exact ⟨hlo, hs⟩)
    unfold lossyFrom
    split
    · -- `b` belongs to the sequence, so it is no ASCII byte
      rename_i x hx
      obtain ⟨⟨r, seen⟩, hr, hq⟩ := Option.bind_eq_some_iff.mp hx
      obtain ⟨q, hnext, rfl⟩ := Option.map_eq_some_iff.mp hq
      obtain ⟨hlo, hseen⟩ := hp _ _ hr
      unfold Pending.next at hnext
      split at hnext
      · rename_i hb
        cases hnext
        have hcb := hne (UInt8.le_trans hlo hb.1)
        have hcs : c ∉ seen ++ [b] := by simp [hseen, hcb]
        split
        · simp [hnone, hseen, hcb]
        · rw [hsome _ _ (UInt8.le_refl _) hcs]
          simp [hcb]
      · cases hnext
    · have hbroken : c ∉ (if p.isSome then replacement else []) := by split <;> simp [hrep]
      rw [List.mem_append, or_iff_right hbroken]
      split
      · rename_i hl
        have hcb : c ≠ b := fun e => lead_ne_none (e ▸ hc) hl
        simp [hnone, hrep, hcb]
      · rename_i q hl
        split
        · simp [hnone]
        · rename_i hn
          obtain ⟨_, h0⟩ | ⟨hb, hlo, _⟩ := lead_eq_some hl
          · exact absurd h0 hn
          · have hcb := hne hb
            rw [hsome q [b] hlo (by simpa using hcb)]
            simp [hcb]

/-- Replacing what is invalid neither adds nor removes an ASCII byte. -/
theorem mem_lossy {c : UInt8} (hc : c < 0x80) (bs : List UInt8) : c ∈ lossy bs ↔ c ∈ bs :=
  mem_lossyFrom hc (by simp) bs

example : lossy [0x61, 0xE2, 0x82, 0x62, 0xC0, 0x80] =
    [0x61] ++ replacement ++ [0x62] ++ replacement ++ replacement := by decide

example : decode [0xC0, 0x80] = none ∧ decode [0xED, 0xA0, 0x80] = none := by decide

end Wstunnel.Utf8
