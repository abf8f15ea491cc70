import Wstunnel.Core.Str

/-!
# Addresses: `IpAddr`, `Host`, `SocketAddr`, networks

`IpAddr` and its text form are the standard library's; `IpAddr.fromStr`
follows `core::net::parser` (decimal octets without leading zeros; eight
hexadecimal groups, one `::` for at least one zero group, an IPv4 tail).

`Host` is `url::Host<String>`. `IpNet` is the `ipnet` crate's network: an
address and a prefix length that fits the family, which the structure
carries.

**Third-party code.** What `ipnet` computes with a network (`contains`) is a parameter
of the functions that use it; `IpNet.covers` is what it documents. The parsers of the
standard library are written out after its source, and `AddrText` proves that they
read what `Display` writes.
-/
namespace Wstunnel.L1

open Wstunnel.Str

abbrev Ipv4Addr := BitVec 32
abbrev Ipv6Addr := BitVec 128

inductive IpAddr where
  | v4 (ip : Ipv4Addr)
  | v6 (ip : Ipv6Addr)
  deriving DecidableEq, Repr

namespace IpAddr

/-- Address width of the family. -/
def width : IpAddr → Nat
  | v4 _ => 32
  | v6 _ => 128

def isIpv4 : IpAddr → Bool
  | v4 _ => true
  | v6 _ => false

end IpAddr

/-! ## Reading an address -/

/-- The leading digits and the rest. -/
def readDigits (radix : Nat) : List Char → List Nat × List Char
  | [] => ([], [])
  | c :: cs => match toDigit radix c with
    | none => ([], c :: cs)
    | some d => ((d :: (readDigits radix cs).1), (readDigits radix cs).2)

/-- `read_number`: at most `maxDigits` digits, no leading zero unless
allowed, value at most `bound`. -/
def readNumber (radix maxDigits : Nat) (allowZeroPrefix : Bool) (bound : Nat) (s : List Char) :
    Option (Nat × List Char) :=
  let (ds, rest) := readDigits radix s
  let n := ds.foldl (fun acc d => acc * radix + d) 0
  if ds = [] ∨ maxDigits < ds.length then none
  else if allowZeroPrefix = false ∧ ds.head? = some 0 ∧ 1 < ds.length then none
  else if n ≤ bound then some (n, rest) else none

/-- `read_separator`: the separator stands before every item but the first. -/
def readSeparator {β : Type} (sep : Char) (first : Bool)
    (inner : List Char → Option (β × List Char)) (s : List Char) : Option (β × List Char) :=
  if first then inner s
  else match s with
    | c :: cs => if c = sep then inner cs else none
    | [] => none

/-- `n` octets separated by dots, most significant first. -/
def readOctets : Nat → Bool → Nat → List Char → Option (Nat × List Char)
  | 0, _, acc, s => some (acc, s)
  | n + 1, first, acc, s =>
    match readSeparator '.' first (readNumber 10 3 false 255) s with
    | none => none
    | some (o, s') => readOctets n false (acc * 256 + o) s'

def readIpv4Addr (s : List Char) : Option (Nat × List Char) := readOctets 4 true 0 s

/-- `read_groups`: up to `n` sixteen-bit groups; the flag says that an IPv4
tail was read (it needs room for two groups). -/
def readGroups : Nat → Bool → List Char → List Nat × Bool × List Char
  | 0, _, s => ([], false, s)
  | n + 1, first, s =>
    match (if 1 ≤ n then readSeparator ':' first readIpv4Addr s else none) with
    | some (a, s') => ([a / 65536, a % 65536], true, s')
    | none =>
      match readSeparator ':' first (readNumber 16 4 true 65535) s with
      | none => ([], false, s)
      | some (g, s') => let r := readGroups n false s'; (g :: r.1, r.2)

def groupsVal (gs : List Nat) : Nat := gs.foldl (fun acc g => acc * 65536 + g) 0

/-- `read_ipv6_addr`: eight groups, or two runs of groups around `::`; no
IPv4 part before `::`. -/
def readIpv6Addr (s : List Char) : Option (Nat × List Char) :=
  let (head, headIpv4, rest) := readGroups 8 true s
  if head.length = 8 then some (groupsVal head, rest)
  else if headIpv4 then none
  else match rest with
    | ':' :: ':' :: rest' =>
      let (tail, _, rest'') := readGroups (7 - head.length) true rest'
      some (groupsVal (head ++ List.replicate (8 - head.length - tail.length) 0 ++ tail), rest'')
    | _ => none

/-- `IpAddr::from_str`: IPv4 first, else IPv6; the whole text must be read. -/
def IpAddr.fromStr (s : String) : Option IpAddr :=
  let r := match readIpv4Addr s.toList with
    | some (a, rest) => some (IpAddr.v4 (BitVec.ofNat 32 a), rest)
    | none => (readIpv6Addr s.toList).map fun (a, rest) => (IpAddr.v6 (BitVec.ofNat 128 a), rest)
  match r with
  | some (ip, []) => some ip
  | _ => none

/-- `Ipv4Addr::from_str` -/
def ipv4FromStr (s : List Char) : Option Ipv4Addr :=
  match readIpv4Addr s with
  | some (a, []) => some (BitVec.ofNat 32 a)
  | _ => none

/-- `Ipv6Addr::from_str` -/
def ipv6FromStr (s : List Char) : Option Ipv6Addr :=
  match readIpv6Addr s with
  | some (a, []) => some (BitVec.ofNat 128 a)
  | _ => none

example : IpAddr.fromStr "127.0.0.1" = some (.v4 0x7F000001) := by decide
example : IpAddr.fromStr "::ffff:1.2.3.4" = some (.v6 0xFFFF01020304) := by decide
example : IpAddr.fromStr "2001:db8::1" = some (.v6 0x20010db8000000000000000000000001) := by decide
example : IpAddr.fromStr "01.2.3.4" = none ∧ IpAddr.fromStr "google.com" = none := by decide

/-! ## The characters of an address -/

def isAddrChar (c : Char) : Bool := c.isAlphanum || c = '.' || c = ':'

/-- `rest` is what is left of `s`, and only characters of addresses were read. -/
def ReadTo (s rest : List Char) : Prop := ∃ read, s = read ++ rest ∧ ∀ c ∈ read, isAddrChar c = true

theorem ReadTo.refl (s : List Char) : ReadTo s s := ⟨[], rfl, by simp⟩

theorem ReadTo.cons {c : Char} {s rest : List Char} (hc : isAddrChar c = true) (h : ReadTo s rest) :
    ReadTo (c :: s) rest := by
  obtain ⟨read, rfl, hread⟩ := h
  refine ⟨c :: read, rfl, fun d hd => ?_⟩
  rcases List.mem_cons.mp hd with rfl | hd
  · exact hc
  · exact hread d hd

theorem ReadTo.trans {s t rest : List Char} (h : ReadTo s t) (h' : ReadTo t rest) : ReadTo s rest := by
  obtain ⟨read, rfl, hread⟩ := h
  obtain ⟨read', rfl, hread'⟩ := h'
  refine ⟨read ++ read', (List.append_assoc _ _ _).symm, fun c hc => ?_⟩
  exact (List.mem_append.mp hc).elim (hread c) (hread' c)

theorem isAddrChar_of_toDigit {radix d : Nat} {c : Char} (h : toDigit radix c = some d) :
    isAddrChar c = true := by
  have halpha : c.isAlphanum = true := by
    have hrange := (toDigit_eq_some h).2
    refine isAlphanum_iff.mpr ?_
    omega
  rw [isAddrChar, halpha]
  rfl

theorem readTo_readDigits (radix : Nat) (s : List Char) : ReadTo s (readDigits radix s).2 := by
  induction s with
  | nil => exact .refl _
  | cons c s ih =>
    rw [readDigits]
    split
    · exact .refl _
    · rename_i h
      exact .cons (isAddrChar_of_toDigit h) ih

theorem readTo_readNumber {radix maxDigits bound n : Nat} {zero : Bool} {s rest : List Char}
    (h : readNumber radix maxDigits zero bound s = some (n, rest)) : ReadTo s rest := by
  have hdigits := readTo_readDigits radix s
  unfold readNumber at h
  generalize readDigits radix s = r at h hdigits
  simp only at h
  split at h
  · cases h
  · split at h
    · cases h
    · split at h
      · cases h
        exact hdigits
      · cases h

theorem readTo_readSeparator {β : Type} {sep : Char} {first : Bool}
    {inner : List Char → Option (β × List Char)} {s rest : List Char} {b : β}
    (hinner : ∀ s b rest, inner s = some (b, rest) → ReadTo s rest) (hsep : isAddrChar sep = true)
    (h : readSeparator sep first inner s = some (b, rest)) : ReadTo s rest := by
  unfold readSeparator at h
  split at h
  · exact hinner _ _ _ h
  · split at h
    · split at h
      · rename_i hc
        exact .cons (hc ▸ hsep) (hinner _ _ _ h)
      · cases h
    · cases h

theorem readTo_readOctets {n acc a : Nat} {first : Bool} {s rest : List Char}
    (h : readOctets n first acc s = some (a, rest)) : ReadTo s rest := by
  induction n generalizing first acc s with
  | zero =>
    cases h
    exact .refl _
  | succ n ih =>
    rw [readOctets] at h
    split at h
    · cases h
    · rename_i o s' hsep
      exact (readTo_readSeparator (fun _ _ _ => readTo_readNumber) (by decide) hsep).trans (ih h)

theorem readTo_readGroups (n : Nat) (first : Bool) (s : List Char) : ReadTo s (readGroups n first s).2.2 := by
  induction n generalizing first s with
  | zero => exact .refl _
  | succ n ih =>
    rw [readGroups]
    split
    · rename_i a s' hipv4
      split at hipv4
      · exact readTo_readSeparator (fun _ _ _ => readTo_readOctets) (by decide) hipv4
      · cases hipv4
    · split
      · exact .refl _
      · rename_i g s' hgroup
        exact (readTo_readSeparator (fun _ _ _ => readTo_readNumber) (by decide) hgroup).trans (ih _ _)

theorem readTo_readIpv6Addr {s rest : List Char} {a : Nat} (h : readIpv6Addr s = some (a, rest)) :
    ReadTo s rest := by
  have hhead := readTo_readGroups 8 true s
  unfold readIpv6Addr at h
  generalize readGroups 8 true s = r at h hhead
  simp only at h
  split at h
  · cases h
    exact hhead
  · split at h
    · cases h
    · split at h
      · rename_i rest' hrest
        cases h
        rw [hrest] at hhead
        exact hhead.trans (.cons (by decide) (.cons (by decide) (readTo_readGroups _ _ _)))
      · cases h

/-- Which of the two grammars an address was read by. -/
theorem fromStr_eq_some {s : String} {ip : IpAddr} (h : IpAddr.fromStr s = some ip) :
    (∃ a, readIpv4Addr s.toList = some (a, []) ∧ ip = .v4 (BitVec.ofNat 32 a)) ∨
      ∃ a, readIpv6Addr s.toList = some (a, []) ∧ ip = .v6 (BitVec.ofNat 128 a) := by
  rw [IpAddr.fromStr] at h
  split at h
  · rename_i ip' hr
    cases h
    split at hr
    · rename_i a rest ha
      cases hr
      exact .inl ⟨a, ha, rfl⟩
    · obtain ⟨⟨a, rest⟩, ha, heq⟩ := Option.map_eq_some_iff.mp hr
      cases heq
      exact .inr ⟨a, ha, rfl⟩
  · cases h

/-- **The text of an address** is not empty, and has digits, letters, dots
and colons only. -/
theorem isAddrChar_of_fromStr {s : String} {ip : IpAddr} (h : IpAddr.fromStr s = some ip) :
    s.toList ≠ [] ∧ ∀ c ∈ s.toList, isAddrChar c = true := by
  have hall : ReadTo s.toList [] := by
    obtain ⟨a, ha, -⟩ | ⟨a, ha, -⟩ := fromStr_eq_some h
    · exact readTo_readOctets ha
    · exact readTo_readIpv6Addr ha
  obtain ⟨read, hread, hchars⟩ := hall
  rw [List.append_nil] at hread
  refine ⟨fun hnil => ?_, hread ▸ hchars⟩
  rw [IpAddr.fromStr, hnil, show readIpv4Addr [] = none from rfl, show readIpv6Addr [] = none from rfl] at h
  cases h

/-! ## Hosts and socket addresses -/

/-- `url::Host<String>`. -/
inductive Host where
  | domain (s : String)
  | ipv4 (ip : Ipv4Addr)
  | ipv6 (ip : Ipv6Addr)
  deriving DecidableEq, Repr

/-- The address of an IP host (`IpAddr::from(*ip)`), `none` for a domain. -/
def Host.ip? : Host → Option IpAddr
  | .domain _ => none
  | .ipv4 ip => some (.v4 ip)
  | .ipv6 ip => some (.v6 ip)

/-- The `n` lowest digits, the highest of them first, of a number
to the base `base`. -/
def pieces (base : Nat) : Nat → Nat → List Nat
  | 0, _ => []
  | n + 1, a => pieces base n (a / base) ++ [a % base]

def ipv4Text (ip : Ipv4Addr) : String :=
  ".".intercalate ((pieces 256 4 ip.toNat).map toString)

/-- The first longest run of zero pieces, as its start and its length, when
it has two at least. -/
def longestZeroSequence (segments : List Nat) : Option (Nat × Nat) :=
  let run (i : Nat) := ((segments.drop i).takeWhile (· = 0)).length
  let longest := (List.range segments.length).foldl (fun best i => if run best < run i then i else best) 0
  if 2 ≤ run longest then some (longest, run longest) else none

/-- The longest run of zero groups is written `::`. -/
def ipv6Text (ip : Ipv6Addr) : String :=
  let segments := pieces 65536 8 ip.toNat
  let text (gs : List Nat) := ":".intercalate (gs.map fun g => String.ofList (Nat.toDigits 16 g))
  match longestZeroSequence segments with
  | none => text segments
  | some (start, length) => text (segments.take start) ++ "::" ++ text (segments.drop (start + length))

/-- `Display` of `url::Host`. -/
def Host.display : Host → String
  | .domain s => s
  | .ipv4 ip => ipv4Text ip
  | .ipv6 ip => "[" ++ ipv6Text ip ++ "]"

example : (Host.ipv4 0x7F000001).display = "127.0.0.1" := by decide
example : (Host.ipv6 0x20010db8000000000000000000000001).display = "[2001:db8::1]" := by decide

structure SocketAddr where
  ip : IpAddr
  port : UInt16
  deriving DecidableEq, Repr

/-- mirrors wstunnel/src/tunnel/mod.rs:89-94 -/
def toHostPort (addr : SocketAddr) : Host × UInt16 :=
  match addr.ip with
  | .v4 ip => (.ipv4 ip, addr.port)
  | .v6 ip => (.ipv6 ip, addr.port)

/-- mirrors wstunnel/src/tunnel/mod.rs:96-102 -/
def tryToSockAddr (host : Host) (port : UInt16) : Except String SocketAddr :=
  match host with
  | .domain _ => .error "Cannot convert domain to socket address"
  | .ipv4 ip => .ok ⟨.v4 ip, port⟩
  | .ipv6 ip => .ok ⟨.v6 ip, port⟩

theorem tryToSockAddr_ip {host : Host} {ip : IpAddr} (port : UInt16) (h : host.ip? = some ip) :
    tryToSockAddr host port = .ok ⟨ip, port⟩ := by
  cases host <;> simp only [Host.ip?, Option.some.injEq, reduceCtorEq] at h <;> subst h <;> rfl

/-! ## Networks -/

/-- `ipnet::IpNet`: the prefix length never exceeds the address width. -/
structure IpNet where
  addr : IpAddr
  prefixLen : Nat
  le : prefixLen ≤ addr.width
  deriving DecidableEq, Repr

/-- `IpNet::new`. -/
def IpNet.new (ip : IpAddr) (prefixLen : Nat) : Option IpNet :=
  if h : prefixLen ≤ ip.width then some ⟨ip, prefixLen, h⟩ else none

/-- `Ipv4Net::default()`. -/
def IpNet.defaultV4 : IpNet := ⟨.v4 0, 0, by decide⟩

/-- `Ipv6Net::default()`. -/
def IpNet.defaultV6 : IpNet := ⟨.v6 0, 0, by decide⟩

/-- Membership as the crate documents it: same family, and the first
`prefixLen` bits agree. -/
def IpNet.covers (net : IpNet) (ip : IpAddr) : Bool :=
  match net.addr, ip with
  | .v4 a, .v4 b => a >>> (32 - net.prefixLen) = b >>> (32 - net.prefixLen)
  | .v6 a, .v6 b => a >>> (128 - net.prefixLen) = b >>> (128 - net.prefixLen)
  | _, _ => false

/-- A full-length network holds exactly its own address. -/
theorem IpNet.covers_host {ip : IpAddr} {net : IpNet} (h : IpNet.new ip ip.width = some net)
    (ip' : IpAddr) : net.covers ip' = true ↔ ip' = ip := by
  simp only [IpNet.new, Nat.le_refl, dite_true, Option.some.injEq] at h
  subst h
  cases ip <;> cases ip' <;> simp [IpNet.covers, IpAddr.width, eq_comm]

theorem ushiftRight_width {w : Nat} (a b : BitVec w) : a >>> w = b >>> w := by
  apply BitVec.eq_of_toNat_eq
  simp [BitVec.toNat_ushiftRight, Nat.shiftRight_eq_div_pow, Nat.div_eq_of_lt a.isLt,
    Nat.div_eq_of_lt b.isLt]

/-- The two default networks hold every address between them. -/
theorem IpNet.covers_default (ip : IpAddr) :
    IpNet.defaultV4.covers ip = true ∨ IpNet.defaultV6.covers ip = true := by
  cases ip with
  | v4 ip => exact .inl (decide_eq_true (ushiftRight_width 0 ip))
  | v6 ip => exact .inr (decide_eq_true (ushiftRight_width 0 ip))

end Wstunnel.L1
