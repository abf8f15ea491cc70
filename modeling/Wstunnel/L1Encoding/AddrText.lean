import Wstunnel.L1Encoding.HostParse

/-!
# The text of an address, read back

`Display` writes an IPv4 address as four decimal octets and an IPv6 address
as hexadecimal groups, the first longest run of zero groups as `::`. Two
parsers read such text: that of the standard library (`IpAddr::from_str`) and
that of the URL standard (`Host::parse`), which knows more spellings.

**Third-party code.** `Display` and `from_str` of the standard library and
`Host::parse` of the `url` crate are written out, so nothing is assumed of them; IDNA
is the parameter of `hostParse`, and any function here.

**Results.**
* `ipv4FromStr_ipv4Text`, `ipv6FromStr_ipv6Text`: the standard library reads
  what `Display` writes.
* `fromStr_eq_v4_iff`: it reads no other text as an IPv4 address.
* `hostParse_display`: so does `Host::parse`, for every host that is an
  address, an IPv6 one in brackets, or a domain in canonical form.
-/
namespace Wstunnel.L1

open Wstunnel.Str

/-! ## Numbers -/

/-- No digit at the front. -/
def NoDigit (radix : Nat) (rest : List Char) : Prop := ∀ c cs, rest = c :: cs → toDigit radix c = none

theorem noDigit_nil (radix : Nat) : NoDigit radix [] := fun c cs h => by cases h

theorem readDigits_of_noDigit {radix : Nat} {rest : List Char} (h : NoDigit radix rest) :
    readDigits radix rest = ([], rest) := by
  cases rest with
  | nil => rfl
  | cons c cs => rw [readDigits, h c cs rfl]

/-- All digits are read, and their value is that of `from_str_radix`. -/
theorem readDigits_append {radix acc n : Nat} {cs rest : List Char} (h : digitsVal radix acc cs = some n)
    (hrest : NoDigit radix rest) : ∃ ds, readDigits radix (cs ++ rest) = (ds, rest) ∧
      ds.length = cs.length ∧ ds.foldl (fun acc d => acc * radix + d) acc = n ∧
      ds.head? = cs.head?.bind (toDigit radix) := by
  induction cs generalizing acc with
  | nil =>
    obtain rfl := Option.some.inj h
    exact ⟨[], readDigits_of_noDigit hrest, rfl, rfl, rfl⟩
  | cons c cs ih =>
    obtain ⟨d, hd, h⟩ := Option.bind_eq_some_iff.mp h
    obtain ⟨ds, hread, hlen, hval, -⟩ := ih h
    refine ⟨d :: ds, ?_, by rw [List.length_cons, hlen, List.length_cons], hval, hd.symm⟩
    rw [List.cons_append, readDigits, hd, hread]

/-- What was read are digits, with a value, and no digit is left. -/
theorem readDigits_eq (radix acc : Nat) (s : List Char) : ∃ cs, s = cs ++ (readDigits radix s).2 ∧
    digitsVal radix acc cs = some ((readDigits radix s).1.foldl (fun acc d => acc * radix + d) acc) ∧
    cs.length = (readDigits radix s).1.length ∧
    (readDigits radix s).1.head? = cs.head?.bind (toDigit radix) := by
  induction s generalizing acc with
  | nil => exact ⟨[], rfl, rfl, rfl, rfl⟩
  | cons c s ih =>
    cases hd : toDigit radix c with
    | none => exact ⟨[], by rw [readDigits, hd]; rfl, by rw [readDigits, hd]; rfl,
        by rw [readDigits, hd]; rfl, by rw [readDigits, hd]; rfl⟩
    | some d =>
      obtain ⟨cs, hs, hval, hlen, -⟩ := ih (acc * radix + d)
      rw [readDigits, hd]
      refine ⟨c :: cs, congrArg (c :: ·) hs, ?_, congrArg (· + 1) hlen, hd.symm⟩
      rw [digitsVal, hd]
      exact hval

theorem eq_zero_of_toDigit {radix : Nat} {c : Char} (h : toDigit radix c = some 0) : c = '0' := by
  have h' : toDigit 16 c = some 0 := by
    rw [toDigit, Option.filter_eq_some_iff] at h ⊢
    exact ⟨h.1, rfl⟩
  have hrange := (toDigit_eq_some h').2
  exact forall_ascii (p := fun c => toDigit 16 c = some 0 → c = '0') (by decide +kernel) (by omega) h'

/-- A number as `Display` writes it. -/
theorem readNumber_toDigits {radix maxDigits bound n : Nat} {zero : Bool} {rest : List Char}
    (h1 : 1 < radix) (h16 : radix ≤ 16) (hmax : 0 < maxDigits) (hlen : n < radix ^ maxDigits)
    (hbound : n ≤ bound) (hrest : NoDigit radix rest) :
    readNumber radix maxDigits zero bound (Nat.toDigits radix n ++ rest) = some (n, rest) := by
  obtain ⟨ds, hread, hlen', hval, hhead⟩ := readDigits_append (digitsVal_toDigits h1 h16 n) hrest
  have hle := (Nat.length_toDigits_le_iff h1 hmax).mpr hlen
  have hpos := Nat.length_toDigits_pos (n := n) (b := radix)
  have hne : ds ≠ [] := List.length_pos_iff.mp (hlen' ▸ hpos)
  have hzero : ¬ (zero = false ∧ ds.head? = some 0 ∧ 1 < ds.length) := by
    rintro ⟨-, hd, hlong⟩
    by_cases hn : 0 < n
    · obtain ⟨c, hc, hcd⟩ := Option.bind_eq_some_iff.mp (hhead.symm.trans hd)
      exact head?_toDigits h1 hn (hc.trans (congrArg some (eq_zero_of_toDigit hcd)))
    · obtain rfl : n = 0 := by omega
      rw [hlen', Nat.toDigits_zero] at hlong
      exact absurd hlong (by decide)
  simp only [readNumber, hread]
  rw [if_neg, if_neg hzero, hval, if_pos hbound]
  rintro (h | h)
  · exact hne h
  · omega

/-- Numbers, each behind a separator. -/
def sepDigits (sep : Char) (radix : Nat) (ns : List Nat) : List Char :=
  ns.flatMap fun n => sep :: Nat.toDigits radix n

theorem sepDigits_cons (sep : Char) (radix n : Nat) (ns : List Nat) (rest : List Char) :
    sepDigits sep radix (n :: ns) ++ rest = sep :: (Nat.toDigits radix n ++ (sepDigits sep radix ns ++ rest)) := by
  simp [sepDigits]

theorem readSeparator_first {β : Type} (sep : Char) (inner : List Char → Option (β × List Char))
    (s : List Char) : readSeparator sep true inner s = inner s := rfl

theorem readSeparator_cons {β : Type} (sep : Char) (inner : List Char → Option (β × List Char))
    (s : List Char) : readSeparator sep false inner (sep :: s) = inner s := if_pos rfl

theorem intercalate_digits (sep : Char) (radix n : Nat) (ns : List Nat) :
    [sep].intercalate ((n :: ns).map (Nat.toDigits radix)) = Nat.toDigits radix n ++ sepDigits sep radix ns := by
  induction ns generalizing n with
  | nil => simp [sepDigits]
  | cons m ns ih =>
    rw [List.map_cons, List.map_cons, List.intercalate_cons_cons, ← List.map_cons, ih]
    simp [sepDigits]

theorem noDigit_sepDigits {sep : Char} {radix : Nat} (hsep : toDigit radix sep = none) (ns : List Nat)
    {rest : List Char} (hrest : NoDigit radix rest) : NoDigit radix (sepDigits sep radix ns ++ rest) := by
  cases ns with
  | nil => exact hrest
  | cons n ns =>
    intro c cs he
    cases he
    exact hsep

/-! ## IPv4 -/

/-- An octet in front of others. -/
theorem readNumber_octet {o : Nat} (ho : o ≤ 255) (os : List Nat) {rest : List Char}
    (hrest : NoDigit 10 rest) :
    readNumber 10 3 false 255 (Nat.toDigits 10 o ++ (sepDigits '.' 10 os ++ rest)) =
      some (o, sepDigits '.' 10 os ++ rest) :=
  readNumber_toDigits (by decide) (by decide) (by decide) (by omega) ho
    (noDigit_sepDigits rfl os hrest)

theorem readOctets_sepDigits {os : List Nat} (hos : ∀ o ∈ os, o ≤ 255) {rest : List Char}
    (hrest : NoDigit 10 rest) (acc : Nat) :
    readOctets os.length false acc (sepDigits '.' 10 os ++ rest) =
      some (os.foldl (fun acc o => acc * 256 + o) acc, rest) := by
  induction os generalizing acc with
  | nil => rfl
  | cons o os ih =>
    have ho := hos o List.mem_cons_self
    rw [List.length_cons, readOctets, sepDigits_cons, readSeparator_cons, readNumber_octet ho os hrest]
    exact ih (fun o ho => hos o (List.mem_cons_of_mem _ ho)) _

/-- Octets as `Display` writes them. -/
theorem readOctets_text {o : Nat} {os : List Nat} (hos : ∀ x ∈ o :: os, x ≤ 255) {rest : List Char}
    (hrest : NoDigit 10 rest) (acc : Nat) :
    readOctets (os.length + 1) true acc (['.'].intercalate ((o :: os).map (Nat.toDigits 10)) ++ rest) =
      some ((o :: os).foldl (fun acc o => acc * 256 + o) acc, rest) := by
  rw [intercalate_digits, List.append_assoc, readOctets, readSeparator_first,
    readNumber_octet (hos o List.mem_cons_self) os hrest]
  exact readOctets_sepDigits (fun o ho => hos o (List.mem_cons_of_mem _ ho)) hrest _

theorem toList_ipv4Text (ip : Ipv4Addr) :
    (ipv4Text ip).toList = ['.'].intercalate ((pieces 256 4 ip.toNat).map (Nat.toDigits 10)) := by
  rw [ipv4Text, String.toList_intercalate, List.map_map]
  congr 1
  refine List.map_congr_left fun n _ => ?_
  rw [Function.comp_apply, Nat.toString_eq_ofList_toDigits, String.toList_ofList]

theorem pieces_lt {base : Nat} (hbase : 0 < base) (n a : Nat) : ∀ d ∈ pieces base n a, d < base := by
  induction n generalizing a with
  | zero => simp [pieces]
  | succ n ih =>
    intro d hd
    rcases List.mem_append.mp hd with hd | hd
    · exact ih _ d hd
    · rw [List.mem_singleton.mp hd]
      exact Nat.mod_lt _ hbase

theorem length_pieces (base n a : Nat) : (pieces base n a).length = n := by
  induction n generalizing a with
  | zero => rfl
  | succ n ih => rw [pieces, List.length_append, ih, List.length_singleton]

/-- The pieces of a number that fits make it up again. -/
theorem foldl_pieces {base : Nat} (n a : Nat) (h : a < base ^ n) :
    (pieces base n a).foldl (fun acc d => acc * base + d) 0 = a := by
  induction n generalizing a with
  | zero =>
    rw [Nat.pow_zero] at h
    rw [pieces, List.foldl_nil]
    omega
  | succ n ih =>
    rw [pieces, List.foldl_append, ih (a / base) (Nat.div_lt_of_lt_mul (by rwa [Nat.pow_succ', ] at h)),
      List.foldl_cons, List.foldl_nil, Nat.mul_comm, Nat.div_add_mod]

theorem readIpv4Addr_ipv4Text (ip : Ipv4Addr) {rest : List Char} (hrest : NoDigit 10 rest) :
    readIpv4Addr ((ipv4Text ip).toList ++ rest) = some (ip.toNat, rest) := by
  have hlt : ip.toNat < 256 ^ 4 := ip.isLt
  have hval := foldl_pieces 4 ip.toNat hlt
  have hsmall := pieces_lt (by decide : 0 < 256) 4 ip.toNat
  have hlen := length_pieces 256 4 ip.toNat
  rw [toList_ipv4Text, readIpv4Addr]
  generalize pieces 256 4 ip.toNat = os at *
  cases os with
  | nil => cases hlen
  | cons o os =>
    have hread := readOctets_text (fun x hx => Nat.le_of_lt_succ (hsmall x hx)) hrest 0
    rw [List.length_cons] at hlen
    rw [hlen, hval] at hread
    exact hread

/-- **The standard library reads an IPv4 address that it wrote.** -/
theorem ipv4FromStr_ipv4Text (ip : Ipv4Addr) : ipv4FromStr (ipv4Text ip).toList = some ip := by
  have hread := readIpv4Addr_ipv4Text ip (noDigit_nil 10)
  rw [List.append_nil] at hread
  rw [ipv4FromStr, hread]
  simp

/-- A number that was read is written as `Display` does. -/
theorem readNumber_eq_some {s rest : List Char} {n : Nat} (h : readNumber 10 3 false 255 s = some (n, rest)) :
    s = Nat.toDigits 10 n ++ rest ∧ n ≤ 255 := by
  obtain ⟨cs, hs, hval, hlen, hhead⟩ := readDigits_eq 10 0 s
  unfold readNumber at h
  generalize readDigits 10 s = r at *
  dsimp only at h
  split at h
  · cases h
  rename_i hne
  split at h
  · cases h
  rename_i hzero
  split at h
  · rename_i hbound
    cases h
    refine ⟨?_, hbound⟩
    rw [← eq_toDigits ?_ hval ?_]
    · exact hs
    · intro hcs
      rw [hcs] at hlen
      exact hne (.inl (List.length_eq_zero_iff.mp hlen.symm))
    · intro hcs
      rw [hcs] at hhead
      have hpos : 0 < cs.length := List.length_pos_iff.mpr fun hnil => by rw [hnil] at hcs; cases hcs
      by_contra hlong
      exact hzero ⟨rfl, hhead, by omega⟩
  · cases h

theorem readOctets_false_eq_some {k acc a : Nat} {s rest : List Char}
    (h : readOctets k false acc s = some (a, rest)) : ∃ os, os.length = k ∧ (∀ o ∈ os, o ≤ 255) ∧
      a = os.foldl (fun acc o => acc * 256 + o) acc ∧ s = sepDigits '.' 10 os ++ rest := by
  induction k generalizing acc s with
  | zero =>
    cases h
    exact ⟨[], rfl, by simp, rfl, rfl⟩
  | succ k ih =>
    rw [readOctets] at h
    split at h
    · cases h
    · rename_i o s' hsep
      obtain ⟨os, hlen, hos, ha, rfl⟩ := ih h
      cases s with
      | nil => cases hsep
      | cons c s =>
        obtain ⟨hc, hnum⟩ := Option.ite_none_right_eq_some.mp hsep
        obtain ⟨rfl, ho⟩ := readNumber_eq_some hnum
        refine ⟨o :: os, congrArg (· + 1) hlen, ?_, ha, ?_⟩
        · intro x hx
          rcases List.mem_cons.mp hx with rfl | hx
          · exact ho
          · exact hos x hx
        · rw [sepDigits_cons, hc]

theorem pieces_foldl {base : Nat} {ds : List Nat} (hds : ∀ d ∈ ds, d < base) :
    pieces base ds.length (ds.foldl (fun acc d => acc * base + d) 0) = ds := by
  induction hn : ds.length generalizing ds with
  | zero => rw [List.length_eq_zero_iff.mp hn]; rfl
  | succ n ih =>
    obtain rfl | ⟨init, d, rfl⟩ := List.eq_nil_or_concat' ds
    · cases hn
    · rw [List.length_append, List.length_singleton, Nat.add_right_cancel_iff] at hn
      have hd : d < base := hds d (by simp)
      have hinit := ih (fun x hx => hds x (by simp [hx])) hn
      rw [List.foldl_append, List.foldl_cons, List.foldl_nil, pieces, Nat.mul_comm,
        Nat.mul_add_div (by omega), Nat.div_eq_of_lt hd, Nat.add_zero, hinit, Nat.mul_add_mod,
        Nat.mod_eq_of_lt hd]

theorem foldl_lt {base : Nat} {ds : List Nat} (hds : ∀ d ∈ ds, d < base) (acc : Nat) :
    ds.foldl (fun acc d => acc * base + d) acc < (acc + 1) * base ^ ds.length := by
  induction ds generalizing acc with
  | nil => simp
  | cons d ds ih =>
    have hd := hds d List.mem_cons_self
    have hacc : acc * base + d + 1 ≤ (acc + 1) * base := by rw [Nat.add_one_mul]; omega
    calc (d :: ds).foldl (fun acc d => acc * base + d) acc
        < (acc * base + d + 1) * base ^ ds.length := ih (fun x hx => hds x (List.mem_cons_of_mem _ hx)) _
      _ ≤ (acc + 1) * base * base ^ ds.length := Nat.mul_le_mul_right _ hacc
      _ = (acc + 1) * base ^ (d :: ds).length := by rw [List.length_cons, Nat.pow_succ', Nat.mul_assoc]

/-- **The standard library reads no other text as an IPv4 address.** -/
theorem ipv4Text_of_readIpv4Addr {s rest : List Char} {a : Nat} (h : readIpv4Addr s = some (a, rest)) :
    s = (ipv4Text (BitVec.ofNat 32 a)).toList ++ rest := by
  rw [readIpv4Addr, readOctets] at h
  split at h
  · cases h
  · rename_i o s' hnum
    obtain ⟨rfl, ho⟩ := readNumber_eq_some hnum
    obtain ⟨os, hlen, hos, ha, rfl⟩ := readOctets_false_eq_some h
    have hsmall : ∀ x ∈ o :: os, x < 256 := by
      intro x hx
      rcases List.mem_cons.mp hx with rfl | hx
      · exact Nat.lt_succ_of_le ho
      · exact Nat.lt_succ_of_le (hos x hx)
    have hpieces := pieces_foldl hsmall
    have hlt := foldl_lt hsmall 0
    have hval : a = (o :: os).foldl (fun acc o => acc * 256 + o) 0 := ha
    rw [List.length_cons, hlen] at hpieces hlt
    rw [toList_ipv4Text, BitVec.toNat_ofNat, Nat.mod_eq_of_lt (by omega), hval, hpieces,
      intercalate_digits, List.append_assoc]

theorem readNumber_snd {radix maxDigits bound n : Nat} {zero : Bool} {s rest : List Char}
    (h : readNumber radix maxDigits zero bound s = some (n, rest)) : rest = (readDigits radix s).2 := by
  unfold readNumber at h
  generalize readDigits radix s = r at h
  dsimp only at h
  split_ifs at h
  cases h
  rfl

theorem readSeparator_eq_none {β : Type} {sep : Char} {inner : List Char → Option (β × List Char)}
    {s : List Char} (h : ∀ cs, s = sep :: cs → inner cs = none) : readSeparator sep false inner s = none := by
  cases s with
  | nil => rfl
  | cons c cs =>
    by_cases hc : c = sep
    · subst hc
      rw [readSeparator_cons]
      exact h cs rfl
    · exact if_neg hc

/-- Without a dot behind the first number there is no IPv4 address. -/
theorem readIpv4Addr_eq_none {s : List Char} (h : ∀ cs, (readDigits 10 s).2 ≠ '.' :: cs) :
    readIpv4Addr s = none := by
  rw [readIpv4Addr, readOctets, readSeparator_first]
  split
  · rfl
  · rename_i o s' hnum
    rw [readOctets, readSeparator_eq_none fun cs hcs => absurd ((readNumber_snd hnum).symm.trans hcs) (h cs)]

theorem readIpv4Addr_of_not_mem {s : List Char} (h : '.' ∉ s) : readIpv4Addr s = none := by
  obtain ⟨cs, hs, -⟩ := readDigits_eq 10 0 s
  refine readIpv4Addr_eq_none fun rest hrest => h ?_
  rw [hs, hrest]
  simp

/-! ## IPv6 -/

theorem toDigit_of_mem_toDigits {radix n : Nat} (h1 : 1 < radix) (h16 : radix ≤ 16) {c : Char}
    (h : c ∈ Nat.toDigits radix n) : (toDigit radix c).isSome = true :=
  isSome_toDigit_of_digitsVal (digitsVal_toDigits h1 h16 n) h

/-- A character that is neither a digit nor the separator. -/
theorem not_mem_sepDigits {sep c : Char} {radix : Nat} (h1 : 1 < radix) (h16 : radix ≤ 16)
    (hsep : c ≠ sep) (hc : toDigit radix c = none) (ns : List Nat) : c ∉ sepDigits sep radix ns := by
  intro h
  obtain ⟨n, -, hmem⟩ := List.mem_flatMap.mp h
  rcases List.mem_cons.mp hmem with h | h
  · exact hsep h
  · have := toDigit_of_mem_toDigits h1 h16 h
    rw [hc] at this
    cases this

theorem not_mem_intercalate {sep c : Char} {radix : Nat} (h1 : 1 < radix) (h16 : radix ≤ 16)
    (hsep : c ≠ sep) (hc : toDigit radix c = none) (ns : List Nat) :
    c ∉ [sep].intercalate (ns.map (Nat.toDigits radix)) := by
  intro h
  rcases mem_intercalate h with h | ⟨l, hl, h⟩
  · exact hsep (List.mem_singleton.mp h)
  · obtain ⟨n, -, rfl⟩ := List.mem_map.mp hl
    have := toDigit_of_mem_toDigits h1 h16 h
    rw [hc] at this
    cases this

theorem readNumber_of_noDigit {radix maxDigits bound : Nat} {zero : Bool} {s : List Char}
    (h : NoDigit radix s) : readNumber radix maxDigits zero bound s = none := by
  simp only [readNumber, readDigits_of_noDigit h, true_or, if_true]

/-- No IPv4 address at the end of the groups. -/
theorem readSeparator_ipv4 {first : Bool} {s : List Char} (hdot : '.' ∉ s) :
    readSeparator ':' first readIpv4Addr s = none := by
  cases first with
  | true => exact readIpv4Addr_of_not_mem hdot
  | false =>
    refine readSeparator_eq_none fun cs hcs => readIpv4Addr_of_not_mem fun h => hdot ?_
    rw [hcs]
    exact List.mem_cons_of_mem _ h

/-- No group can be read. -/
theorem readGroups_stop (n : Nat) {first : Bool} {rest : List Char} (hdot : '.' ∉ rest)
    (hstop : readSeparator ':' first (readNumber 16 4 true 65535) rest = none) :
    readGroups n first rest = ([], false, rest) := by
  cases n with
  | zero => rfl
  | succ n => rw [readGroups, readSeparator_ipv4 hdot, ite_self, hstop]

/-- One group is read. -/
theorem readGroups_group (n : Nat) {first : Bool} {s rest : List Char} {g : Nat} (hdot : '.' ∉ s)
    (hgroup : readSeparator ':' first (readNumber 16 4 true 65535) s = some (g, rest)) :
    readGroups (n + 1) first s = (g :: (readGroups n false rest).1, (readGroups n false rest).2) := by
  rw [readGroups, readSeparator_ipv4 hdot, ite_self, hgroup]

/-- A group in front of others. -/
theorem readNumber_group {g : Nat} (hg : g < 65536) (gs : List Nat) {rest : List Char}
    (hrest : NoDigit 16 rest) :
    readNumber 16 4 true 65535 (Nat.toDigits 16 g ++ (sepDigits ':' 16 gs ++ rest)) =
      some (g, sepDigits ':' 16 gs ++ rest) :=
  readNumber_toDigits (by decide) (by decide) (by decide) hg (Nat.le_of_lt_succ hg)
    (noDigit_sepDigits rfl gs hrest)

/-- Where the groups end: the end of the text, or `::`. -/
structure GroupsEnd (rest : List Char) : Prop where
  noDot : '.' ∉ rest
  noDigit : NoDigit 16 rest
  noGroup : ∀ cs, rest = ':' :: cs → NoDigit 16 cs

theorem readGroups_sepDigits {n : Nat} {gs : List Nat} (hlen : gs.length ≤ n) (hgs : ∀ g ∈ gs, g < 65536)
    {rest : List Char} (hrest : GroupsEnd rest) :
    readGroups n false (sepDigits ':' 16 gs ++ rest) = (gs, false, rest) := by
  induction gs generalizing n with
  | nil =>
    exact readGroups_stop n hrest.noDot
      (readSeparator_eq_none fun cs hcs => readNumber_of_noDigit (hrest.noGroup cs hcs))
  | cons g gs ih =>
    obtain ⟨n, rfl⟩ : ∃ k, n = k + 1 := ⟨n - 1, by rw [List.length_cons] at hlen; omega⟩
    have hdot : '.' ∉ sepDigits ':' 16 (g :: gs) ++ rest := by
      rw [List.mem_append, not_or]
      exact ⟨not_mem_sepDigits (by decide) (by decide) (by decide) (by decide) _, hrest.noDot⟩
    have hgroup := readNumber_group (hgs g List.mem_cons_self) gs hrest.noDigit
    rw [sepDigits_cons] at hdot ⊢
    rw [readGroups_group n hdot ((readSeparator_cons _ _ _).trans hgroup),
      ih (Nat.le_of_succ_le_succ hlen) fun g hg => hgs g (List.mem_cons_of_mem _ hg)]

/-- Groups as `Display` writes them. -/
theorem readGroups_text {n : Nat} {gs : List Nat} (hlen : gs.length ≤ n) (hgs : ∀ g ∈ gs, g < 65536)
    {rest : List Char} (hrest : GroupsEnd rest) :
    readGroups n true ([':'].intercalate (gs.map (Nat.toDigits 16)) ++ rest) = (gs, false, rest) := by
  cases gs with
  | nil =>
    refine readGroups_stop n hrest.noDot ?_
    rw [readSeparator_first]
    exact readNumber_of_noDigit hrest.noDigit
  | cons g gs =>
    obtain ⟨n, rfl⟩ : ∃ k, n = k + 1 := ⟨n - 1, by rw [List.length_cons] at hlen; omega⟩
    have hdot : '.' ∉ [':'].intercalate ((g :: gs).map (Nat.toDigits 16)) ++ rest := by
      rw [List.mem_append, not_or]
      exact ⟨not_mem_intercalate (by decide) (by decide) (by decide) (by decide) _, hrest.noDot⟩
    have hgroup := readNumber_group (hgs g List.mem_cons_self) gs hrest.noDigit
    rw [intercalate_digits, List.append_assoc] at hdot ⊢
    rw [readGroups_group n hdot ((readSeparator_first _ _ _).trans hgroup),
      readGroups_sepDigits (Nat.le_of_succ_le_succ hlen) (fun g hg => hgs g (List.mem_cons_of_mem _ hg)) hrest]

theorem groupsEnd_nil : GroupsEnd [] where
  noDot := List.not_mem_nil
  noDigit c cs h := by cases h
  noGroup cs h := by cases h

/-- Eight groups without a `::`. -/
theorem readIpv6Addr_groups {gs : List Nat} (hlen : gs.length = 8) (hgs : ∀ g ∈ gs, g < 65536) :
    readIpv6Addr ([':'].intercalate (gs.map (Nat.toDigits 16))) = some (groupsVal gs, []) := by
  have hread := readGroups_text (n := 8) (by omega) hgs groupsEnd_nil
  rw [List.append_nil] at hread
  simp only [readIpv6Addr, hread, hlen, if_true]

/-- Groups around a `::` that stands for at least one. -/
theorem readIpv6Addr_compressed {head tail : List Nat} (hlen : head.length + tail.length < 8)
    (hhead : ∀ g ∈ head, g < 65536) (htail : ∀ g ∈ tail, g < 65536) :
    readIpv6Addr ([':'].intercalate (head.map (Nat.toDigits 16)) ++
        ':' :: ':' :: [':'].intercalate (tail.map (Nat.toDigits 16))) =
      some (groupsVal (head ++ List.replicate (8 - head.length - tail.length) 0 ++ tail), []) := by
  have hcolons : GroupsEnd (':' :: ':' :: [':'].intercalate (tail.map (Nat.toDigits 16))) := by
    refine ⟨?_, ?_, ?_⟩
    · simp only [List.mem_cons, not_or]
      exact ⟨by decide, by decide,
        not_mem_intercalate (by decide) (by decide) (by decide) (by decide) _⟩
    · intro c cs h
      cases h
      decide
    · intro cs h c cs' h'
      cases h
      cases h'
      decide
  have hread := readGroups_text (n := 8) (by omega) hhead hcolons
  have hread' := readGroups_text (n := 7 - head.length) (by omega) htail groupsEnd_nil
  rw [List.append_nil] at hread'
  have hshort : head.length ≠ 8 := by omega
  simp only [readIpv6Addr, hread, hread', hshort, if_false, Bool.false_eq_true]

/-- What `longest_zero_sequence` finds are zero pieces, two at least. -/
theorem longestZeroSequence_eq_some {segments : List Nat} {start length : Nat}
    (h : longestZeroSequence segments = some (start, length)) : 2 ≤ length ∧
      segments = segments.take start ++ List.replicate length 0 ++ segments.drop (start + length) := by
  obtain ⟨hle, he⟩ := Option.ite_none_right_eq_some.mp h
  generalize (List.range segments.length).foldl _ 0 = longest at hle he
  cases he
  refine ⟨hle, ?_⟩
  dsimp only
  generalize hrun : (segments.drop start).takeWhile (· = 0) = run
  have hzero : run = List.replicate run.length 0 := by
    refine List.eq_replicate_of_mem fun g hg => ?_
    rw [← hrun] at hg
    simpa using List.mem_takeWhile_imp hg
  have hsplit := List.takeWhile_append_dropWhile (p := (· = 0)) (l := segments.drop start)
  rw [hrun] at hsplit
  have hrest : segments.drop (start + run.length) = (segments.drop start).dropWhile (· = 0) := by
    rw [← List.drop_drop, ← hsplit, List.drop_left, hsplit]
  rw [← hzero, hrest, List.append_assoc, hsplit, List.take_append_drop]

theorem toList_groups (gs : List Nat) :
    (":".intercalate (gs.map fun g => String.ofList (Nat.toDigits 16 g))).toList =
      [':'].intercalate (gs.map (Nat.toDigits 16)) := by
  rw [String.toList_intercalate, List.map_map]
  congr 1
  exact List.map_congr_left fun n _ => String.toList_ofList

/-- **The standard library reads the text of an IPv6 address.** -/
theorem ipv6FromStr_ipv6Text (ip : Ipv6Addr) : ipv6FromStr (ipv6Text ip).toList = some ip := by
  have hlt : ip.toNat < 65536 ^ 8 := ip.isLt
  have hval : groupsVal (pieces 65536 8 ip.toNat) = ip.toNat := foldl_pieces 8 ip.toNat hlt
  have hsmall := pieces_lt (by decide : 0 < 65536) 8 ip.toNat
  have hlen := length_pieces 65536 8 ip.toNat
  have hread : readIpv6Addr (ipv6Text ip).toList = some (ip.toNat, []) := by
    unfold ipv6Text
    dsimp only
    generalize pieces 65536 8 ip.toNat = gs at *
    split
    · rw [toList_groups, readIpv6Addr_groups hlen hsmall, hval]
    · rename_i start length hzero
      obtain ⟨hle, hgs⟩ := longestZeroSequence_eq_some hzero
      generalize gs.take start = head at *
      generalize gs.drop (start + length) = tail at *
      rw [hgs, List.length_append, List.length_append, List.length_replicate] at hlen
      have hhead : ∀ g ∈ head, g < 65536 := fun g hg => hsmall g (by rw [hgs]; simp [hg])
      have htail : ∀ g ∈ tail, g < 65536 := fun g hg => hsmall g (by rw [hgs]; simp [hg])
      have hcount : 8 - head.length - tail.length = length := by omega
      have hread := readIpv6Addr_compressed (by omega) hhead htail
      rw [hcount, ← hgs, hval] at hread
      rw [String.toList_append, String.toList_append, toList_groups, toList_groups, ← hread, List.append_assoc]
      rfl
  rw [ipv6FromStr, hread]
  simp

/-! ## `IpAddr::from_str` -/

/-- An IPv4 address is no beginning of an IPv6 address. -/
theorem readIpv6Addr_of_ipv4 {s rest : List Char} {a : Nat} (h : readIpv4Addr s = some (a, rest)) :
    readIpv6Addr s = none := by
  have hgroups : readGroups 8 true s = ([a / 65536, a % 65536], true, rest) := by
    rw [readGroups, if_pos (by decide), readSeparator_first, h]
  simp [readIpv6Addr, hgroups]

theorem readGroups_of_not_mem (n : Nat) {s : List Char} (h : ':' ∉ s) : readGroups n false s = ([], false, s) := by
  cases n with
  | zero => rfl
  | succ n =>
    have hnone {β : Type} (inner : List Char → Option (β × List Char)) : readSeparator ':' false inner s = none :=
      readSeparator_eq_none fun cs hcs => absurd (hcs ▸ List.mem_cons_self) h
    rw [readGroups, hnone, ite_self, hnone]

/-- Without a colon, one group is read at most. -/
theorem readIpv6Addr_of_not_mem {s : List Char} (h : ':' ∉ s) : readIpv6Addr s = none := by
  cases hipv4 : readIpv4Addr s with
  | some p => exact readIpv6Addr_of_ipv4 hipv4
  | none =>
    have hstop {rest : List Char} (hrest : ':' ∉ rest) : ∀ cs, rest ≠ ':' :: ':' :: cs :=
      fun cs hcs => hrest (hcs ▸ List.mem_cons_self)
    have hread : ∃ head rest, readGroups 8 true s = (head, false, rest) ∧ head.length ≠ 8 ∧ ':' ∉ rest := by
      rw [readGroups, if_pos (by decide), readSeparator_first, hipv4]
      dsimp only
      rw [readSeparator_first]
      cases hnum : readNumber 16 4 true 65535 s with
      | none => exact ⟨[], s, rfl, by decide, h⟩
      | some p =>
        obtain ⟨read, hs, -⟩ := readTo_readNumber hnum
        have hrest : ':' ∉ p.2 := fun hmem => h (hs ▸ List.mem_append_right _ hmem)
        refine ⟨[p.1], p.2, ?_, by simp, hrest⟩
        simp only [readGroups_of_not_mem 7 hrest]
    obtain ⟨head, rest, hread, hlen, hrest⟩ := hread
    simp only [readIpv6Addr, hread, if_neg hlen, Bool.false_eq_true, if_false]
    split
    · rename_i cs
      exact absurd rfl (hstop hrest cs)
    · rfl

theorem fromStr_of_ipv6FromStr {s : String} {ip : Ipv6Addr} (h : ipv6FromStr s.toList = some ip) :
    IpAddr.fromStr s = some (.v6 ip) := by
  unfold ipv6FromStr at h
  split at h
  · rename_i a ha
    cases h
    have hipv4 : readIpv4Addr s.toList = none := by
      cases hread : readIpv4Addr s.toList with
      | none => rfl
      | some p =>
        rw [readIpv6Addr_of_ipv4 hread] at ha
        cases ha
    simp only [IpAddr.fromStr, hipv4, ha, Option.map_some]
  · cases h

/-- **The one text of an IPv4 address.** -/
theorem fromStr_eq_v4_iff {s : String} {ip : Ipv4Addr} : IpAddr.fromStr s = some (.v4 ip) ↔ s = ipv4Text ip := by
  refine ⟨fun h => ?_, ?_⟩
  · obtain ⟨a, ha, he⟩ | ⟨a, -, he⟩ := fromStr_eq_some h
    · cases he
      rw [← String.toList_inj, ipv4Text_of_readIpv4Addr ha, List.append_nil]
    · cases he
  · rintro rfl
    have hread := readIpv4Addr_ipv4Text ip (noDigit_nil 10)
    rw [List.append_nil] at hread
    simp [IpAddr.fromStr, hread]

theorem colon_of_fromStr {s : String} {ip : Ipv6Addr} (h : IpAddr.fromStr s = some (.v6 ip)) : ':' ∈ s.toList := by
  by_contra hcolon
  obtain ⟨a, -, he⟩ | ⟨a, ha, -⟩ := fromStr_eq_some h
  · cases he
  · rw [readIpv6Addr_of_not_mem hcolon] at ha
    cases ha

/-! ## `Host::parse` -/

variable {uts46 : List UInt8 → Option (List Char)}

theorem labels_intercalate {ls : List (List Char)} (hne : ls ≠ []) (hdot : ∀ l ∈ ls, '.' ∉ l) :
    labels (['.'].intercalate ls) = ls :=
  splitn_intercalate hne hdot (length_le_intercalate '.' ls)

theorem ipv4Radix_toDigits (n : Nat) : ipv4Radix (Nat.toDigits 10 n) = (10, Nat.toDigits 10 n) := by
  by_cases hn : 0 < n
  · have hhead := head?_toDigits (by decide : 1 < 10) hn
    unfold ipv4Radix
    split <;> simp_all
  · obtain rfl : n = 0 := by omega
    rfl

theorem parseIpv4Number_toDigits {n : Nat} (h : n < 2 ^ 32) :
    parseIpv4Number (Nat.toDigits 10 n) = some (some n) := by
  simp only [parseIpv4Number, Nat.toDigits_ne_nil, if_false, ipv4Radix_toDigits,
    digitsVal_toDigits (by decide : 1 < 10) (by decide) n, Option.map_some, if_pos h]

theorem isDigit_of_mem_decimal {n : Nat} {c : Char} (h : c ∈ Nat.toDigits 10 n) : c.isDigit = true :=
  Nat.isDigit_of_mem_toDigits (by decide) (by decide) h

/-- The characters of an IPv4 address. -/
theorem mem_ipv4Text {ip : Ipv4Addr} {c : Char} (h : c ∈ (ipv4Text ip).toList) :
    c.isDigit = true ∨ c = '.' := by
  by_contra hc
  rw [not_or] at hc
  rw [toList_ipv4Text] at h
  refine not_mem_intercalate (by decide) (by decide) hc.2 ?_ _ h
  cases hd : toDigit 10 c with
  | none => rfl
  | some d =>
    obtain ⟨hlt, hrange | ⟨-, hge⟩⟩ := toDigit_eq_some hd
    · exact absurd (Char.isDigit_iff_toNat.mpr hrange) hc.1
    · omega

/-- The labels of the text are its octets. -/
theorem labels_ipv4Text (ip : Ipv4Addr) :
    labels (ipv4Text ip).toList = (pieces 256 4 ip.toNat).map (Nat.toDigits 10) := by
  rw [toList_ipv4Text]
  refine labels_intercalate (by simp [pieces]) fun l hl hdot => ?_
  obtain ⟨n, -, rfl⟩ := List.mem_map.mp hl
  exact absurd (isDigit_of_mem_decimal hdot) (by decide)

theorem lastLabel_of_concat {name last : List Char} {ls : List (List Char)} (h : labels name = ls ++ [last])
    (hne : last ≠ []) : lastLabel name = some last := by
  rw [lastLabel, h, List.reverse_append]
  cases last with
  | nil => exact absurd rfl hne
  | cons c last => rfl

theorem endsInANumber_ipv4Text (ip : Ipv4Addr) : endsInANumber (ipv4Text ip).toList = true := by
  have hlabels : labels (ipv4Text ip).toList =
      (pieces 256 3 (ip.toNat / 256)).map (Nat.toDigits 10) ++ [Nat.toDigits 10 (ip.toNat % 256)] := by
    rw [labels_ipv4Text, pieces, List.map_append]
    rfl
  rw [endsInANumber, lastLabel_of_concat hlabels Nat.toDigits_ne_nil]
  dsimp only
  rw [decide_eq_true Nat.toDigits_ne_nil, Bool.true_and, Bool.or_eq_true, List.all_eq_true]
  exact .inl fun c hc => isDigit_of_mem_decimal hc

theorem mapM_parseIpv4Number {ns : List Nat} (h : ∀ n ∈ ns, n < 256) :
    (ns.map (Nat.toDigits 10)).mapM (fun part => (parseIpv4Number part).join) = some ns := by
  induction ns with
  | nil => rfl
  | cons n ns ih =>
    have hn := h n List.mem_cons_self
    rw [List.map_cons, List.mapM_cons, parseIpv4Number_toDigits (by omega),
      ih fun n hn => h n (List.mem_cons_of_mem _ hn)]
    rfl

/-- Four octets fill the address. -/
theorem parseIpv4Addr_ipv4Text (ip : Ipv4Addr) : parseIpv4Addr (ipv4Text ip).toList = some ip := by
  have hlt : ip.toNat < 2 ^ 32 := ip.isLt
  have hlast : ((pieces 256 4 ip.toNat).map (Nat.toDigits 10)).getLast? ≠ some [] := by
    rw [pieces, List.map_append, List.map_singleton, List.getLast?_concat]
    exact fun h => Nat.toDigits_ne_nil (Option.some.inj h)
  have hany : (pieces 256 3 (ip.toNat / 256)).any (255 < ·) = false := by
    rw [List.any_eq_false]
    intro n hn
    have := pieces_lt (by decide : 0 < 256) 3 _ n hn
    simpa using Nat.le_of_lt_succ this
  have hlow : ¬ 256 ^ (4 - (pieces 256 3 (ip.toNat / 256)).length) ≤ ip.toNat % 256 := by
    rw [length_pieces]
    omega
  simp only [parseIpv4Addr, labels_ipv4Text, hlast, if_false, List.length_map, length_pieces,
    mapM_parseIpv4Number (pieces_lt (by decide : 0 < 256) 4 ip.toNat)]
  rw [pieces, if_neg (by decide)]
  simp only [Option.bind_eq_bind, Option.bind_some, List.getLast?_concat, List.dropLast_concat, hany, hlow,
    decide_false, Bool.or_self, Bool.false_eq_true, if_false]
  refine congrArg some (BitVec.eq_of_toNat_eq ?_)
  rw [BitVec.toNat_ofNat]
  show ((ip.toNat % 256 + ip.toNat / 256 / 256 / 256 % 256 * 256 ^ 3) + ip.toNat / 256 / 256 % 256 * 256 ^ 2 +
    ip.toNat / 256 % 256 * 256 ^ 1) % 2 ^ 32 = ip.toNat
  omega

theorem unescapedChar_of_isDigit {c : Char} (h : c.isDigit = true) :
    unescapedChar c = true ∧ forbiddenDomainChar c = false ∧ c.toLower = c := by
  have hrange := (Char.isDigit_iff_toNat.mp h).2
  have hnine : '9'.toNat = 57 := rfl
  exact forall_ascii (p := fun c => c.isDigit = true → unescapedChar c = true ∧
    forbiddenDomainChar c = false ∧ c.toLower = c) (by decide +kernel) (by omega) h

/-- **`Host::parse` reads the text of an address.** -/
theorem hostParse_ipv4Text (ip : Ipv4Addr) : hostParse uts46 (ipv4Text ip) = some (.ipv4 ip) := by
  have hchars : ∀ c ∈ (ipv4Text ip).toList, unescapedChar c = true ∧ forbiddenDomainChar c = false ∧
      c.toLower = c := by
    intro c hc
    rcases mem_ipv4Text hc with hd | rfl
    · exact unescapedChar_of_isDigit hd
    · decide
  have hne : (ipv4Text ip).toList ≠ [] := by
    intro h
    have hread := ipv4FromStr_ipv4Text ip
    rw [h] at hread
    cases hread
  have hlower : (ipv4Text ip).toList.map Char.toLower = (ipv4Text ip).toList :=
    (List.map_congr_left fun c hc => (hchars c hc).2.2).trans (List.map_id _)
  have hclean : (ipv4Text ip).toList.any forbiddenDomainChar = false := by
    rw [List.any_eq_false]
    intro c hc
    rw [(hchars c hc).2.1]
    exact Bool.false_ne_true
  unfold hostParse
  split
  · rename_i rest heq
    exact absurd (mem_ipv4Text (heq ▸ List.mem_cons_self)) (by decide)
  · rw [domainToAscii_of_unescaped fun c hc => (hchars c hc).1, hclean, hlower]
    simp only [Bool.false_eq_true, if_false, Option.bind_eq_bind, Option.bind_some, if_neg hne,
      endsInANumber_ipv4Text, if_true, parseIpv4Addr_ipv4Text, Option.map_some]

theorem hostParse_ipv6Text (ip : Ipv6Addr) :
    hostParse uts46 ("[" ++ ipv6Text ip ++ "]") = some (.ipv6 ip) := by
  have htext : ("[" ++ ipv6Text ip ++ "]").toList = '[' :: ((ipv6Text ip).toList ++ [']']) := by
    simp
  rw [hostParse, htext]
  show (if ((ipv6Text ip).toList ++ [']']).getLast? = some ']' then _ else none) = _
  rw [if_pos (List.getLast?_concat), List.dropLast_concat, ipv6FromStr_ipv6Text, Option.map_some]

/-- An address, or a domain in canonical form. -/
def Host.Canonical (uts46 : List UInt8 → Option (List Char)) : Host → Prop
  | .domain d => CanonicalDomain uts46 d.toList
  | _ => True

/-- **`Host::parse` reads back what `Display` writes.** -/
theorem hostParse_display {host : Host} (h : host.Canonical uts46) :
    hostParse uts46 host.display = some host := by
  cases host with
  | domain d => exact canonicalDomain_iff.mp h
  | ipv4 ip => exact hostParse_ipv4Text ip
  | ipv6 ip => exact hostParse_ipv6Text ip

end Wstunnel.L1
