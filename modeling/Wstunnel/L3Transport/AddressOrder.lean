import Mathlib
import Wstunnel.L1Encoding.Net

/-!
# The order in which addresses are tried

`sort_socket_addrs` hands out the addresses of a name lookup one by one: a
flag is toggled before every call, and the call takes the next address of the
family the flag names, or of the other family when there is none left. The
two families are filtered out of one slice and advance on their own.

The iterator is its captured state with a `next` function; what it yields is
compared with `List.interleave`, which starts with the first list and swaps
the two at every element.

**Third-party code.** The resolver gives any list of addresses; `filter` and `from_fn`
are those of the standard library.

**Results.**
* `next_eq_none`, `next_eq_some`: one call, against the list it is a call of.
* `collect_next`: the calls until `None` yield the interleaving of the two
  families, the preferred one first.
* `sortSocketAddrs_interleaves`: it is a permutation that keeps the order
  within each family, starts with the preferred one and alternates until one
  family is used up.
-/
namespace Wstunnel.L3.AddressOrder

open Wstunnel.L1

/-- Whether a `SocketAddr` is a `V6`. -/
def isV6 (addr : SocketAddr) : Bool := !addr.ip.isIpv4

/-- What the closure of `from_fn` captures. -/
structure Picker where
  pickV6 : Bool
  v6 : List SocketAddr
  v4 : List SocketAddr
  deriving DecidableEq, Repr

/-- `it.next().or_else(|| other.next())`, with what is left of both. -/
def nextOr : List SocketAddr → List SocketAddr →
    Option (SocketAddr × List SocketAddr × List SocketAddr)
  | a :: it, other => some (a, it, other)
  | [], a :: other => some (a, [], other)
  | [], [] => none

/-- One call of the closure.
mirrors wstunnel/src/protocols/dns/resolver.rs:32-39 -/
def Picker.next (s : Picker) : Option (SocketAddr × Picker) :=
  let pickV6 := !s.pickV6
  if pickV6 then (nextOr s.v6 s.v4).map fun (a, v6, v4) => (a, ⟨pickV6, v6, v4⟩)
  else (nextOr s.v4 s.v6).map fun (a, v4, v6) => (a, ⟨pickV6, v6, v4⟩)

/-- The iterator before its first call.
mirrors wstunnel/src/protocols/dns/resolver.rs:28-31 -/
def sortSocketAddrs (socketAddrs : List SocketAddr) (preferIpv6 : Bool) : Picker where
  pickV6 := !preferIpv6
  v6 := socketAddrs.filter isV6
  v4 := socketAddrs.filter fun s => !isV6 s

/-- What an iterator yields before its first `None`; `none` when that takes
more than `calls` calls. -/
def collect {σ α : Type} (next : σ → Option (α × σ)) : Nat → σ → Option (List α)
  | 0, _ => none
  | calls + 1, s =>
    match next s with
    | none => some []
    | some (a, s') => (collect next calls s').map (a :: ·)

/-! ## One call -/

namespace Picker

/-- What is left of the family whose turn comes next. -/
def due (s : Picker) : List SocketAddr := if s.pickV6 then s.v4 else s.v6

/-- What is left of the other family. -/
def other (s : Picker) : List SocketAddr := if s.pickV6 then s.v6 else s.v4

theorem next_eq_none {s : Picker} (h : s.next = none) : s.due.interleave s.other = [] := by
  obtain ⟨pick, v6, v4⟩ := s
  cases pick <;> cases v6 <;> cases v4 <;> simp_all [next, nextOr, due, other]

/-- A call yields the first element of the interleaving and leaves the rest. -/
theorem next_eq_some {s s' : Picker} {a : SocketAddr} (h : s.next = some (a, s')) :
    s.due.interleave s.other = a :: s'.due.interleave s'.other := by
  obtain ⟨pick, v6, v4⟩ := s
  cases pick <;> cases v6 <;> cases v4 <;>
    simp only [next, nextOr, Bool.not_true, Bool.not_false, if_true, if_false, Bool.false_eq_true,
      Option.map_some, Option.map_none, Option.some.injEq, Prod.mk.injEq, reduceCtorEq] at h <;>
    obtain ⟨rfl, rfl⟩ := h <;> simp [due, other]

/-! ## All calls -/

/-- The calls until `None` yield the interleaving; one more call than there
are addresses is enough. -/
theorem collect_next (s : Picker) :
    collect next ((s.due.interleave s.other).length + 1) s = some (s.due.interleave s.other) := by
  -- on the length of what is left, which a call makes shorter
  induction hn : (s.due.interleave s.other).length generalizing s with
  | zero =>
    rw [List.length_eq_zero_iff] at hn
    rw [hn, collect]
    cases hs : s.next with
    | none => rfl
    | some as =>
      have := next_eq_some hs
      rw [hn] at this
      cases this
  | succ n ih =>
    rw [collect]
    cases hs : s.next with
    | none =>
      rw [next_eq_none hs] at hn
      cases hn
    | some as =>
      have hl := next_eq_some hs
      have hlen : (as.2.due.interleave as.2.other).length = n := by
        rw [hl, List.length_cons] at hn
        omega
      show (collect next (n + 1) as.2).map (as.1 :: ·) = _
      rw [ih as.2 hlen, hl, Option.map_some]

end Picker

/-! ## The interleaving of two families -/

section Family

variable {α : Type} {f : α → Bool} {b : Bool} {l₁ l₂ : List α}

theorem mem_filter_family {l : List α} :
    ∀ a ∈ l.filter (f · == b), f a = b := fun _ ha => beq_iff_eq.mp (List.mem_filter.mp ha).2

/-- Each family comes out in its own order. -/
theorem filter_interleave (h₁ : ∀ a ∈ l₁, f a = b) (h₂ : ∀ a ∈ l₂, f a = !b) :
    (l₁.interleave l₂).filter (f · == b) = l₁ ∧ (l₁.interleave l₂).filter (f · == !b) = l₂ := by
  induction l₁, l₂ using List.interleave.induct generalizing b with
  | case1 l₂ =>
    rw [List.nil_interleave]
    refine ⟨List.filter_eq_nil_iff.mpr ?_, List.filter_eq_self.mpr ?_⟩
    · intro a ha
      simp [h₂ a ha]
    · intro a ha
      simp [h₂ a ha]
  | case2 a l₁ l₂ ih =>
    have ha : f a = b := h₁ a List.mem_cons_self
    have h₁' : ∀ c ∈ l₁, f c = !(!b) := fun c hc => by
      rw [h₁ c (List.mem_cons_of_mem a hc), Bool.not_not]
    obtain ⟨ih₂, ih₁⟩ := ih h₂ h₁'
    rw [Bool.not_not] at ih₁
    rw [List.cons_interleave]
    refine ⟨?_, ?_⟩
    · rw [List.filter_cons_of_pos (by simp [ha]), ih₁]
    · rw [List.filter_cons_of_neg (by simp [ha]), ih₂]

/-- Two neighbours of one family: the other family is used up. -/
theorem family_of_neighbours (h₁ : ∀ a ∈ l₁, f a = b) (h₂ : ∀ a ∈ l₂, f a = !b)
    {before after : List α} {x y : α} (he : l₁.interleave l₂ = before ++ x :: y :: after)
    (hxy : f x = f y) : ∀ z ∈ after, f z = f y := by
  induction l₁, l₂ using List.interleave.induct generalizing b before with
  | case1 l₂ =>
    -- nothing but `l₂` is left
    rw [List.nil_interleave] at he
    subst he
    intro z hz
    rw [h₂ z (by simp [hz]), h₂ y (by simp)]
  | case2 a l₁ l₂ ih =>
    have h₁' : ∀ c ∈ l₁, f c = !(!b) := fun c hc => by
      rw [h₁ c (List.mem_cons_of_mem a hc), Bool.not_not]
    rw [List.cons_interleave] at he
    cases before with
    | cons c before => exact ih h₂ h₁' (List.cons.inj he).2
    | nil =>
      obtain ⟨rfl, hrest⟩ := List.cons.inj he
      cases l₂ with
      | cons c l₂ =>
        -- the second comes from the other list, so it is of the other family
        rw [List.cons_interleave] at hrest
        obtain ⟨rfl, -⟩ := List.cons.inj hrest
        rw [h₁ a List.mem_cons_self, h₂ c List.mem_cons_self] at hxy
        cases b <;> cases hxy
      | nil =>
        rw [List.nil_interleave] at hrest
        subst hrest
        intro z hz
        rw [h₁ z (by simp [hz]), h₁ y (by simp)]

end Family

/-- What `sort_socket_addrs` yields: the preferred family first. -/
theorem sortSocketAddrs_order (socketAddrs : List SocketAddr) (preferIpv6 : Bool) :
    (sortSocketAddrs socketAddrs preferIpv6).due = socketAddrs.filter (isV6 · == preferIpv6) ∧
    (sortSocketAddrs socketAddrs preferIpv6).other = socketAddrs.filter (isV6 · == !preferIpv6) := by
  cases preferIpv6 <;> simp [sortSocketAddrs, Picker.due, Picker.other]

/-- **Address interleaving.** The iterator ends after as many elements as
there are addresses. What it yielded is a permutation of them that keeps the
order within each family and starts with the preferred one, if there is any;
two neighbours are of one family only if all that follow are. -/
theorem sortSocketAddrs_interleaves (socketAddrs : List SocketAddr) (preferIpv6 : Bool) :
    ∃ out, collect Picker.next (socketAddrs.length + 1) (sortSocketAddrs socketAddrs preferIpv6)
        = some out ∧
      out.length = socketAddrs.length ∧ out.Perm socketAddrs ∧
      (∀ v6, out.filter (isV6 · == v6) = socketAddrs.filter (isV6 · == v6)) ∧
      ((∃ a ∈ socketAddrs, isV6 a = preferIpv6) → ∃ a, out.head? = some a ∧ isV6 a = preferIpv6) ∧
      ∀ before x y after, out = before ++ x :: y :: after → isV6 x = isV6 y →
        ∀ z ∈ after, isV6 z = isV6 y := by
  obtain ⟨hdue, hother⟩ := sortSocketAddrs_order socketAddrs preferIpv6
  have hcollect := (sortSocketAddrs socketAddrs preferIpv6).collect_next
  rw [hdue, hother] at hcollect
  have hfilter := filter_interleave (f := isV6) (b := preferIpv6)
    (mem_filter_family (l := socketAddrs)) (mem_filter_family (l := socketAddrs))
  have hperm : (List.interleave (socketAddrs.filter (isV6 · == preferIpv6))
      (socketAddrs.filter (isV6 · == !preferIpv6))).Perm socketAddrs := by
    refine List.interleave_perm_append.trans ?_
    have hnot : ∀ a, (isV6 a == !preferIpv6) = !(isV6 a == preferIpv6) := fun a => by
      cases isV6 a <;> cases preferIpv6 <;> rfl
    simp only [hnot]
    exact List.filter_append_perm _ _
  rw [hperm.length_eq] at hcollect
  refine ⟨_, hcollect, hperm.length_eq, hperm, ?_, ?_, ?_⟩
  · intro v6
    by_cases hv : v6 = preferIpv6
    · rw [hv, hfilter.1]
    · rw [Bool.eq_not_of_ne hv, hfilter.2]
  · intro ⟨a, ha, hfam⟩
    -- the preferred family is not empty, so the first element is its first
    cases hl : socketAddrs.filter (isV6 · == preferIpv6) with
    | nil => exact absurd (beq_iff_eq.mpr hfam) (by simpa using List.filter_eq_nil_iff.mp hl a ha)
    | cons c l =>
      have hc : c ∈ socketAddrs.filter (isV6 · == preferIpv6) := hl ▸ List.mem_cons_self
      exact ⟨c, by rw [List.cons_interleave, List.head?_cons], mem_filter_family c hc⟩
  · intro before x y after he hxy
    exact family_of_neighbours mem_filter_family mem_filter_family he hxy

example :
    let v4 (n : UInt16) : SocketAddr := ⟨.v4 0x7F000001, n⟩
    let v6 (n : UInt16) : SocketAddr := ⟨.v6 1, n⟩
    collect Picker.next 6 (sortSocketAddrs [v4 1, v4 2, v6 1, v4 3, v6 2] true) =
      some [v6 1, v4 1, v6 2, v4 2, v4 3] := by decide

end Wstunnel.L3.AddressOrder
