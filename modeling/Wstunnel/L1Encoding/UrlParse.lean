import Wstunnel.L1Encoding.AddrText
import Wstunnel.L1Encoding.Percent

/-!
# Reading a URL: `Url::parse` for `https`

The parser of the URL standard, as the `url` crate has it, for the one scheme
the command line uses: controls and blanks at the ends and all tabs and
newlines are dropped, any number of slashes follows the scheme, the authority
ends at a slash, a backslash, `?` or `#`, a user in front of the last `@` is
cut off, and a port follows the host. The query is all between `?` and `#`;
its pairs are those of `form_urlencoded::parse`. The crate writes some
characters of the query as escapes first, which reading the pairs undoes.

**Third-party code.** This is a model of third-party code, written after the URL
standard; that the `url` crate computes it is `Crates.FollowsStandard` in `TunnelDest`.
IDNA is the parameter `uts46`. `DeniesForbidden`, where it is asked for, says that it
gives no name with a forbidden host character, which the crate checks.

**Results.**
* `formItem_mem_formParse`: what stands between two separators is a pair.
* `formText_formEncode`, `formParse_formQuery`: what `form_urlencoded` writes is
  read back.
* `httpsParse_hostPort`: a host, a port and a query are read as such.
-/
namespace Wstunnel.L1

open Wstunnel.Str

/-! ## `form_urlencoded` -/

def plusToSpace (b : UInt8) : UInt8 := if b = 0x2B then 0x20 else b

/-- A name or a value. -/
def formText (bs : List UInt8) : String :=
  String.ofList ((Utf8.decode (Utf8.lossy (percentDecode (bs.map plusToSpace)))).getD [])

/-- The name and the value of a pair; a name alone has the empty value. -/
def formItem (item : List UInt8) : String × String :=
  let (name, value) := (splitOnce [0x3D] item).getD (item, [])
  (formText name, formText value)

/-- `form_urlencoded::parse` -/
def formParse (bs : List UInt8) : List (String × String) :=
  ((splitn 0x26 bs.length bs).filter (· ≠ [])).map formItem

example : formParse (Utf8.encode "timeout_sec=10&&a+b=%E2%82%AC%".toList) =
    [("timeout_sec", "10"), ("a b", "€%")] := by decide

/-- What `byte_serialize` writes as an escape. -/
def formSet (b : UInt8) : Bool := !((Char.ofNat b.toNat).isAlphanum || "*-._ ".toList.contains (Char.ofNat b.toNat))

/-- `form_urlencoded::byte_serialize` -/
def formEncode (s : String) : List UInt8 :=
  (percentEncode formSet (Utf8.encode s.toList)).map fun b => if b = 0x20 then 0x2B else b

/-- `name=value`, or the name alone. -/
def formOption : String × Option String → List UInt8
  | (name, none) => formEncode name
  | (name, some value) => formEncode name ++ 0x3D :: formEncode value

/-- A query of options. -/
def formQuery (options : List (String × Option String)) : List UInt8 := [0x26].intercalate (options.map formOption)

/-- Neither a control, nor one of the characters that end a query or an item
of it. -/
def formByte (b : UInt8) : Bool := 0x20 < b && b < 0x80 && b ≠ 0x23 && b ≠ 0x26 && b ≠ 0x3D

theorem formByte_of_mem {s : String} {b : UInt8} (h : b ∈ formEncode s) : formByte b = true := by
  obtain ⟨a, ha, rfl⟩ := List.mem_map.mp h
  refine forall_mem_percentEncode (p := fun a => formByte (if a = 0x20 then 0x2B else a) = true) ?_ (by decide)
    (by decide) ha
  exact forall_byte (by decide +kernel)

theorem plusToSpace_formEncode (s : String) :
    (formEncode s).map plusToSpace = percentEncode formSet (Utf8.encode s.toList) := by
  rw [formEncode, List.map_map]
  refine (List.map_congr_left fun b hb => ?_).trans (List.map_id _)
  have hplus : b ≠ 0x2B := forall_mem_percentEncode (p := (· ≠ 0x2B)) (forall_byte (by decide +kernel)) (by decide)
    (by decide) hb
  rw [Function.comp_apply, plusToSpace, id]
  split
  · rename_i hspace
    rw [hspace]
    rfl
  · rfl

/-- **What is written for a text is read as that text.** -/
theorem formText_formEncode (s : String) : formText (formEncode s) = s := by
  have hset : formSet 0x25 = true := by decide
  rw [formText, plusToSpace_formEncode, percentDecode_percentEncode hset,
    Utf8.lossy_of_decode (Utf8.decode_encode _), Utf8.decode_encode, Option.getD_some, String.ofList_toList]

theorem formItem_formOption (o : String × Option String) : formItem (formOption o) = (o.1, o.2.getD "") := by
  obtain ⟨name, value⟩ := o
  have heq : 0x3D ∉ formEncode name := fun h => absurd (formByte_of_mem h) (by decide)
  cases value with
  | none =>
    rw [formItem, formOption, splitOnce_of_not_mem heq]
    exact congrArg (·, "") (formText_formEncode name)
  | some value =>
    rw [formItem, formOption, splitOnce_append heq]
    simp only [Option.getD_some, formText_formEncode]

theorem formEncode_ne_nil {s : String} (h : s ≠ "") : formEncode s ≠ [] := by
  intro hnil
  have := formText_formEncode s
  rw [hnil] at this
  exact h this.symm

theorem formOption_ne_nil {o : String × Option String} (h : o.1 ≠ "") : formOption o ≠ [] := by
  obtain ⟨name, _ | value⟩ := o
  · exact formEncode_ne_nil h
  · exact List.append_ne_nil_of_right_ne_nil _ (List.cons_ne_nil _ _)

/-- Beside what is written for texts there are the signs between them. -/
theorem mem_formOption {o : String × Option String} {b : UInt8} (h : b ∈ formOption o) :
    formByte b = true ∨ b = 0x3D := by
  obtain ⟨name, _ | value⟩ := o
  · exact .inl (formByte_of_mem h)
  · rcases List.mem_append.mp h with h | h
    · exact .inl (formByte_of_mem h)
    · exact (List.mem_cons.mp h).symm.imp_left formByte_of_mem

/-- **The options of a query are read back.** -/
theorem formParse_formQuery {options : List (String × Option String)} (h : ∀ o ∈ options, o.1 ≠ "") :
    formParse (formQuery options) = options.map fun o => (o.1, o.2.getD "") := by
  cases options with
  | nil => rfl
  | cons o options =>
    have hsep : ∀ l ∈ (o :: options).map formOption, (0x26 : UInt8) ∉ l := by
      intro l hl hmem
      obtain ⟨o', -, rfl⟩ := List.mem_map.mp hl
      exact (mem_formOption hmem).elim (absurd · (by decide)) (absurd · (by decide))
    have hne : ∀ l ∈ (o :: options).map formOption, decide (l ≠ []) = true := by
      intro l hl
      obtain ⟨o', ho, rfl⟩ := List.mem_map.mp hl
      exact decide_eq_true (formOption_ne_nil (h o' ho))
    have hcons : (o :: options).map formOption ≠ [] := List.cons_ne_nil _ _
    rw [formParse, formQuery, splitn_intercalate hcons hsep (length_le_intercalate _ _),
      List.filter_eq_self.mpr hne, List.map_map]
    exact List.map_congr_left fun o' _ => formItem_formOption o'

/-- The query as text. -/
def queryText (options : List (String × Option String)) : List Char :=
  (formQuery options).map fun b => Char.ofNat b.toNat

theorem mem_formQuery {options : List (String × Option String)} {b : UInt8} (h : b ∈ formQuery options) :
    0x20 < b ∧ b < 0x80 ∧ b ≠ 0x23 := by
  have hitem (b : UInt8) (hb : formByte b = true ∨ b = 0x3D) : 0x20 < b ∧ b < 0x80 ∧ b ≠ 0x23 :=
    forall_byte (p := fun b => formByte b = true ∨ b = 0x3D → 0x20 < b ∧ b < 0x80 ∧ b ≠ 0x23)
      (by decide +kernel) b hb
  rcases mem_intercalate h with h | ⟨l, hl, hb⟩
  · rw [List.mem_singleton.mp h]
    decide
  · obtain ⟨o, -, rfl⟩ := List.mem_map.mp hl
    exact hitem b (mem_formOption hb)

theorem toNat_of_mem_queryText {options : List (String × Option String)} {c : Char} (h : c ∈ queryText options) :
    0x20 < c.toNat ∧ c.toNat < 0x80 ∧ c ≠ '#' := by
  obtain ⟨b, hb, rfl⟩ := List.mem_map.mp h
  exact forall_byte (p := fun b => 0x20 < b ∧ b < 0x80 ∧ b ≠ 0x23 → 0x20 < (Char.ofNat b.toNat).toNat ∧
    (Char.ofNat b.toNat).toNat < 0x80 ∧ Char.ofNat b.toNat ≠ '#') (by decide +kernel) b (mem_formQuery hb)

theorem encode_queryText (options : List (String × Option String)) :
    Utf8.encode (queryText options) = formQuery options := by
  rw [Utf8.encode_of_ascii fun c hc => (toNat_of_mem_queryText hc).2.1, queryText, List.map_map]
  refine (List.map_congr_left fun b _ => ?_).trans (List.map_id _)
  exact forall_byte (p := fun b => UInt8.ofNat (Char.ofNat b.toNat).toNat = b) (by decide +kernel) b

/-! ## The URL -/

/-- What the code reads of a URL. -/
structure HttpsUrl where
  userinfo : Option (List Char)
  host : Host
  /-- the port as written -/
  explicitPort : Option UInt16
  query : Option (List Char)
  deriving DecidableEq, Repr

/-- `Url::port` hides the port of the scheme. -/
def HttpsUrl.port (u : HttpsUrl) : Option UInt16 := if u.explicitPort = some 443 then none else u.explicitPort

/-- `Url::query_pairs` -/
def HttpsUrl.queryPairs (u : HttpsUrl) : List (String × String) := formParse (Utf8.encode (u.query.getD []))

def c0ControlOrSpace (c : Char) : Bool := c.toNat ≤ 0x20

def asciiTabOrNewLine (c : Char) : Bool := c = '\t' || c = '\n' || c = '\r'

def trimEndInput (s : List Char) : List Char :=
  ((s.reverse.dropWhile c0ControlOrSpace).reverse).filter fun c => !asciiTabOrNewLine c

/-- `Input::new` -/
def urlInput (s : List Char) : List Char := trimEndInput (s.dropWhile c0ControlOrSpace)

def endsUrlAuthority (c : Char) : Bool := c = '/' || c = '\\' || c = '?' || c = '#'

/-- In front of and behind the last `@`. -/
def splitUserinfo (authority : List Char) : Option (List Char) × List Char :=
  match rsplitOnce '@' authority with
  | none => (none, authority)
  | some (userinfo, hostPort) => (some userinfo, hostPort)

/-- The host ends at the first `:` outside of brackets. -/
def splitHost : Bool → List Char → List Char × List Char
  | _, [] => ([], [])
  | inside, c :: cs =>
    if c = ':' ∧ inside = false then ([], c :: cs)
    else
      let r := splitHost (if c = '[' then true else if c = ']' then false else inside) cs
      (c :: r.1, r.2)

/-- The port behind the host; no digits are no port. -/
def parseUrlPort : List Char → Option (Option UInt16)
  | ':' :: digits =>
    if digits = [] then some none
    else (digitsVal 10 0 digits).bind fun n => if n ≤ 65535 then some (some (UInt16.ofNat n)) else none
  | _ => some none

/-- The query of what follows the authority. -/
def splitQuery (rest : List Char) : Option (List Char) :=
  match rest.dropWhile fun c => c ≠ '?' && c ≠ '#' with
  | '?' :: query => some (query.takeWhile (· ≠ '#'))
  | _ => none

/-- `Url::parse`; `none` for a text of another scheme, too. -/
def httpsParse (uts46 : List UInt8 → Option (List Char)) (s : List Char) : Option HttpsUrl :=
  let input := urlInput s
  if "https:".toList.isPrefixOf input then
    let rest := (input.drop 6).dropWhile fun c => c = '/' || c = '\\'
    let (userinfo, hostPort) := splitUserinfo (rest.takeWhile fun c => !endsUrlAuthority c)
    let (hostText, behind) := splitHost false hostPort
    if hostText = [] then none
    else do
      let host ← hostParse uts46 (String.ofList hostText)
      let explicitPort ← parseUrlPort behind
      return ⟨userinfo, host, explicitPort, splitQuery (rest.dropWhile fun c => !endsUrlAuthority c)⟩
  else none

example : httpsParse (fun _ => none) "https://u:p@[::1]:0443/x?a=b#c".toList =
    some ⟨some "u:p".toList, .ipv6 1, some 443, some "a=b".toList⟩ := by decide
example : httpsParse (fun _ => none) "https://Host:?a".toList =
    some ⟨none, .domain "host", none, some ['a']⟩ := by decide
example : httpsParse (fun _ => none) "https://host:65536".toList = none := by decide

/-! ## The text of a host and a port -/

variable {uts46 : List UInt8 → Option (List Char)}

theorem trimEndInput_append {s : List Char} (hs : ∀ c ∈ s, 0x20 < c.toNat) (rest : List Char) :
    trimEndInput (s ++ rest) = s ++ trimEndInput rest := by
  have hcontrol (c : Char) (hc : c ∈ s) : c0ControlOrSpace c = false :=
    decide_eq_false (Nat.not_le.mpr (hs c hc))
  have htab (c : Char) (hc : c ∈ s) : (!asciiTabOrNewLine c) = true := by
    rw [Bool.not_eq_true', asciiTabOrNewLine]
    have hne (d : Char) (hd : d.toNat ≤ 0x20) : decide (c = d) = false :=
      decide_eq_false fun heq => absurd (hs c hc) (by rw [heq]; omega)
    rw [hne '\t' (by decide), hne '\n' (by decide), hne '\r' (by decide)]
    rfl
  have hdrop : (rest.reverse ++ s.reverse).dropWhile c0ControlOrSpace =
      rest.reverse.dropWhile c0ControlOrSpace ++ s.reverse := by
    rw [List.dropWhile_append]
    split
    · rename_i hnil
      rw [List.isEmpty_iff.mp hnil, List.nil_append]
      exact dropWhile_eq_self fun c hc => hcontrol c (List.mem_reverse.mp hc)
    · rfl
  rw [trimEndInput, List.reverse_append, hdrop, List.reverse_append, List.reverse_reverse, List.filter_append,
    List.filter_eq_self.mpr htab]
  rfl

/-- A host in front of a colon: without the characters that end it. -/
structure AuthorityHost (host : List Char) : Prop where
  ne_nil : host ≠ []
  chars : ∀ c ∈ host, 0x20 < c.toNat ∧ endsUrlAuthority c = false ∧ c ≠ '@'
  split : ∀ rest, splitHost false (host ++ ':' :: rest) = (host, ':' :: rest)

theorem parseUrlPort_toDigits (port : UInt16) :
    parseUrlPort (':' :: Nat.toDigits 10 port.toNat) = some (some port) := by
  have hlt : port.toNat ≤ 65535 := Nat.le_of_lt_succ port.toNat_lt
  rw [parseUrlPort, if_neg Nat.toDigits_ne_nil, digitsVal_toDigits (by decide) (by decide), Option.bind_some,
    if_pos hlt, UInt16.ofNat_toNat]

/-- Nothing, or a query. -/
def QueryStart (behind : List Char) : Prop := behind = [] ∨ ∃ query, behind = '?' :: query

theorem QueryStart.trimEndInput {behind : List Char} (h : QueryStart behind) : QueryStart (trimEndInput behind) := by
  rcases h with rfl | ⟨query, rfl⟩
  · exact .inl rfl
  · exact .inr ⟨L1.trimEndInput query, trimEndInput_append (s := ['?']) (by simp) query⟩

theorem digit_authority {c : Char} (h : c.isDigit = true) :
    0x20 < c.toNat ∧ endsUrlAuthority c = false ∧ c ≠ '@' := by
  have hrange := (Char.isDigit_iff_toNat.mp h).2
  have hnine : '9'.toNat = 57 := rfl
  exact forall_ascii (p := fun c => c.isDigit = true → 0x20 < c.toNat ∧ endsUrlAuthority c = false ∧ c ≠ '@')
    (by decide +kernel) (by omega) h

/-- A character of an authority without a user. -/
def AuthorityChar (c : Char) : Prop := 0x20 < c.toNat ∧ endsUrlAuthority c = false ∧ c ≠ '@'

theorem authorityChar_of_mem_hostPort {hostText : List Char} (htext : AuthorityHost hostText) (port : UInt16) :
    ∀ c ∈ hostText ++ ':' :: Nat.toDigits 10 port.toNat, AuthorityChar c := by
  intro c hc
  rcases List.mem_append.mp hc with hc | hc
  · exact htext.chars c hc
  · rcases List.mem_cons.mp hc with rfl | hc
    · exact ⟨by decide, by decide, by decide⟩
    · exact digit_authority (isDigit_of_mem_decimal hc)

/-! The steps of the parser over such an authority, with nothing or a query
behind it. -/
section Authority

variable {authority behind : List Char} (hchars : ∀ c ∈ authority, AuthorityChar c)

include hchars

theorem urlInput_https :
    urlInput ("https://".toList ++ (authority ++ behind)) =
      "https://".toList ++ (authority ++ trimEndInput behind) := by
  have hscheme : ∀ c ∈ "https://".toList, 0x20 < c.toNat := fun c hc =>
    of_decide_eq_true (List.all_eq_true.mp (by decide : "https://".toList.all (0x20 < ·.toNat) = true) c hc)
  rw [urlInput]
  show trimEndInput ("https://".toList ++ (authority ++ behind)) = _
  rw [trimEndInput_append hscheme, trimEndInput_append fun c hc => (hchars c hc).1]

theorem dropWhile_slashes (hne : authority ≠ []) :
    ('/' :: '/' :: (authority ++ behind)).dropWhile (fun c => c = '/' || c = '\\') = authority ++ behind := by
  obtain ⟨c, authority, rfl⟩ := List.exists_cons_of_ne_nil hne
  have hc := (hchars c List.mem_cons_self).2.1
  simp only [endsUrlAuthority, Bool.or_eq_false_iff] at hc
  rw [List.dropWhile_cons_of_pos rfl, List.dropWhile_cons_of_pos rfl, List.cons_append, List.dropWhile_cons_of_neg]
  rw [hc.1.1.1, hc.1.1.2]
  exact Bool.false_ne_true

theorem takeWhile_authority (hbehind : QueryStart behind) :
    (authority ++ behind).takeWhile (fun c => !endsUrlAuthority c) = authority := by
  rw [List.takeWhile_append_of_pos fun c hc => by rw [(hchars c hc).2.1]; rfl]
  rcases hbehind with rfl | ⟨query, rfl⟩ <;> simp [endsUrlAuthority]

theorem dropWhile_authority (hbehind : QueryStart behind) :
    (authority ++ behind).dropWhile (fun c => !endsUrlAuthority c) = behind := by
  rw [List.dropWhile_append_of_pos fun c hc => by rw [(hchars c hc).2.1]; rfl]
  rcases hbehind with rfl | ⟨query, rfl⟩ <;> simp [endsUrlAuthority]

theorem splitUserinfo_authority : splitUserinfo authority = (none, authority) := by
  rw [splitUserinfo, rsplitOnce, splitOnce_of_not_mem fun hat => (hchars '@' (List.mem_reverse.mp hat)).2.2 rfl]
  rfl

end Authority

/-- **A host, a port and a query are read as such.** -/
theorem httpsParse_hostPort {hostText behind : List Char} {host : Host} (htext : AuthorityHost hostText)
    (hhost : hostParse uts46 (String.ofList hostText) = some host) (port : UInt16) (hbehind : QueryStart behind) :
    httpsParse uts46 ("https://".toList ++ (hostText ++ ':' :: Nat.toDigits 10 port.toNat ++ behind)) =
      some ⟨none, host, some port, splitQuery (trimEndInput behind)⟩ := by
  have hchars := authorityChar_of_mem_hostPort htext port
  have hne : hostText ++ ':' :: Nat.toDigits 10 port.toNat ≠ [] := by simp
  have hstart := hbehind.trimEndInput
  have hpre (rest : List Char) : "https:".toList.isPrefixOf ("https://".toList ++ rest) = true := rfl
  have hrest (rest : List Char) : ("https://".toList ++ rest).drop 6 = '/' :: '/' :: rest := rfl
  simp only [httpsParse, urlInput_https hchars, hpre, if_true, hrest, dropWhile_slashes hchars hne,
    takeWhile_authority hchars hstart, dropWhile_authority hchars hstart, splitUserinfo_authority hchars,
    htext.split, if_neg htext.ne_nil, hhost, parseUrlPort_toDigits, Option.bind_eq_bind, Option.bind_some]
  rfl

/-- What an input of options becomes: the query behind `?` up to a `#`. -/
theorem splitQuery_question (query : List Char) :
    splitQuery (trimEndInput ('?' :: query)) = some ((trimEndInput query).takeWhile (· ≠ '#')) := by
  rw [show trimEndInput ('?' :: query) = '?' :: trimEndInput query from
    trimEndInput_append (s := ['?']) (by simp) query]
  rfl

/-! ## The hosts that `Display` writes -/

/-- IDNA gives no name with a forbidden character. -/
def DeniesForbidden (uts46 : List UInt8 → Option (List Char)) : Prop :=
  ∀ bytes name, uts46 bytes = some name → ∀ c ∈ name, forbiddenDomainChar c = false

/-- A domain has none of the characters that end it in a URL, and does not
look like a number. -/
theorem domain_of_hostParse (huts : DeniesForbidden uts46) {s d : String}
    (h : hostParse uts46 s = some (.domain d)) :
    d.toList ≠ [] ∧ (∀ c ∈ d.toList, forbiddenDomainChar c = false) ∧ endsInANumber d.toList = false := by
  obtain ⟨-, hname, hne, hnumber⟩ := hostParse_eq_domain.mp h
  refine ⟨hne, ?_, hnumber⟩
  rcases domainToAscii_eq_some.mp hname with ⟨-, -, hclean⟩ | ⟨-, hback⟩
  · exact hclean
  · exact huts _ _ hback

theorem splitHost_of_plain {host : List Char} {inside : Bool}
    (h : ∀ c ∈ host, c ≠ '[' ∧ c ≠ ']' ∧ (c = ':' → inside = true)) (rest : List Char) :
    splitHost inside (host ++ rest) = (host ++ (splitHost inside rest).1, (splitHost inside rest).2) := by
  induction host with
  | nil => rfl
  | cons c host ih =>
    obtain ⟨hopen, hclose, hcolon⟩ := h c List.mem_cons_self
    have hgo : ¬ (c = ':' ∧ inside = false) := fun ⟨heq, hf⟩ => by
      rw [hcolon heq] at hf
      cases hf
    rw [List.cons_append, splitHost, if_neg hgo, if_neg hopen, if_neg hclose,
      ih fun d hd => h d (List.mem_cons_of_mem _ hd)]
    rfl

theorem allowed_of_not_forbidden {c : Char} (h : forbiddenDomainChar c = false) :
    (0x20 < c.toNat ∧ endsUrlAuthority c = false ∧ c ≠ '@') ∧ c ≠ '[' ∧ c ≠ ']' ∧ c ≠ ':' := by
  simp only [forbiddenDomainChar, Bool.or_eq_false_iff, decide_eq_false_iff_not] at h
  have hne (d : Char) (hd : "%#/:<>?@[\\]^|".toList.contains d = true) : c ≠ d := by
    rintro rfl
    rw [h.2] at hd
    cases hd
  refine ⟨⟨Nat.not_le.mp h.1.1, ?_, hne '@' (by decide)⟩, hne '[' (by decide), hne ']' (by decide),
    hne ':' (by decide)⟩
  rw [endsUrlAuthority, decide_eq_false (hne '/' (by decide)), decide_eq_false (hne '\\' (by decide)),
    decide_eq_false (hne '?' (by decide)), decide_eq_false (hne '#' (by decide))]
  rfl

theorem authorityHost_of_plain {host : List Char} (hne : host ≠ [])
    (h : ∀ c ∈ host, forbiddenDomainChar c = false) : AuthorityHost host where
  ne_nil := hne
  chars c hc := (allowed_of_not_forbidden (h c hc)).1
  split rest := by
    have hplain : ∀ c ∈ host, c ≠ '[' ∧ c ≠ ']' ∧ (c = ':' → false = true) := fun c hc =>
      have hc := (allowed_of_not_forbidden (h c hc)).2
      ⟨hc.1, hc.2.1, fun heq => absurd heq hc.2.2⟩
    rw [splitHost_of_plain hplain]
    show (host ++ [], ':' :: rest) = _
    rw [List.append_nil]

theorem isAddrChar_of_mem_ipv6Text {ip : Ipv6Addr} {c : Char} (h : c ∈ (ipv6Text ip).toList) :
    isAddrChar c = true := by
  have hread := ipv6FromStr_ipv6Text ip
  unfold ipv6FromStr at hread
  split at hread
  · rename_i ha
    obtain ⟨read, hread, hchars⟩ := readTo_readIpv6Addr ha
    rw [List.append_nil] at hread
    exact hchars c (hread ▸ h)
  · cases hread

theorem isAddrChar_authority {c : Char} (h : isAddrChar c = true) :
    (0x20 < c.toNat ∧ endsUrlAuthority c = false ∧ c ≠ '@') ∧ c ≠ '[' ∧ c ≠ ']' := by
  have hascii : c.toNat < 0x80 := by
    simp only [isAddrChar, Bool.or_eq_true, decide_eq_true_eq, isAlphanum_iff] at h
    rcases h with (h | rfl) | rfl
    · omega
    · decide
    · decide
  exact forall_ascii (p := fun c => isAddrChar c = true →
    (0x20 < c.toNat ∧ endsUrlAuthority c = false ∧ c ≠ '@') ∧ c ≠ '[' ∧ c ≠ ']') (by decide +kernel) hascii h

theorem authorityHost_ipv6 (ip : Ipv6Addr) : AuthorityHost ('[' :: ((ipv6Text ip).toList ++ [']'])) where
  ne_nil := List.cons_ne_nil _ _
  chars c hc := by
    rcases List.mem_cons.mp hc with rfl | hc
    · decide
    · rcases List.mem_append.mp hc with hc | hc
      · exact (isAddrChar_authority (isAddrChar_of_mem_ipv6Text hc)).1
      · rw [List.mem_singleton.mp hc]
        decide
  split rest := by
    have hplain : ∀ c ∈ (ipv6Text ip).toList, c ≠ '[' ∧ c ≠ ']' ∧ (c = ':' → true = true) := fun c hc =>
      have hc := (isAddrChar_authority (isAddrChar_of_mem_ipv6Text hc)).2
      ⟨hc.1, hc.2, fun _ => rfl⟩
    have hinside := splitHost_of_plain hplain (']' :: ':' :: rest)
    rw [List.cons_append, List.append_assoc, List.singleton_append, splitHost, if_neg (by decide), if_pos rfl,
      hinside]
    rfl

theorem authorityHost_ipv4 (ip : Ipv4Addr) : AuthorityHost (ipv4Text ip).toList := by
  refine authorityHost_of_plain ?_ fun c hc => ?_
  · intro hnil
    have hread := ipv4FromStr_ipv4Text ip
    rw [hnil] at hread
    cases hread
  · rcases mem_ipv4Text hc with hd | rfl
    · exact (unescapedChar_of_isDigit hd).2.1
    · decide

/-- **The text of every canonical host** stands for it in a URL. -/
theorem authorityHost_display (huts : DeniesForbidden uts46) {host : Host} (h : host.Canonical uts46) :
    AuthorityHost host.display.toList := by
  cases host with
  | domain d =>
    obtain ⟨hne, hchars, -⟩ := domain_of_hostParse huts (canonicalDomain_iff.mp h)
    exact authorityHost_of_plain hne hchars
  | ipv4 ip => exact authorityHost_ipv4 ip
  | ipv6 ip =>
    have htext : (Host.ipv6 ip).display.toList = '[' :: ((ipv6Text ip).toList ++ [']']) := by
      simp [Host.display]
    rw [htext]
    exact authorityHost_ipv6 ip

end Wstunnel.L1
