import Mathlib.Tactic.Common

/-!
# Tables of clients with lazy removal

Clients register in a table under a key. A client that ends does not remove
its entry: it leaves its key in a list of dead keys, and the owner of the
table removes the entries of the keys it finds there from time to time. The
owner may also evict an entry when it notices that its client has ended.

* `Inv.move`: every move keeps the invariant. Its consequences are that a
  key has one client at most (`unique`), that every client has its entry
  (`listed`), and that no dead key is the key of a client (`dead`).
* `Inv.entry_kept`: no move removes the entry of a client.

An evicted key is still among the dead keys. What makes a new client under
this key safe is that the owner looks at the dead keys again before it adds a
client: `tidy` holds from then until the next eviction.
-/
namespace Wstunnel

/-- `alive i k`: client `i` is registered under `k` and has not ended. -/
structure LazyTable (K : Type) where
  alive : Nat → K → Prop
  entry : K → Option Nat
  dead : K → Prop
  isOpen : Prop
  tidy : Prop

namespace LazyTable

variable {K : Type}

/-- What one step can do to a table. Once it is closed, nothing is asked of
entries and dead keys any more. -/
inductive Move (t t' : LazyTable K) : Prop where
  | keep (halive : ∀ i k, t'.alive i k → t.alive i k) (hentry : ∀ k, t'.entry k = t.entry k)
      (hdead : ∀ k, t'.dead k → t.dead k) (hopen : t'.isOpen → t.isOpen) (htidy : t'.tidy → t.tidy)
  | create (n : Nat) (k : K) (hnone : t.entry k = none) (hopen : t.isOpen) (htidy : t.tidy)
      (halive : ∀ i k', t'.alive i k' → t.alive i k' ∨ i = n ∧ k' = k) (hnew : t'.entry k = some n)
      (hold : ∀ k', k' ≠ k → t'.entry k' = t.entry k') (hdead : ∀ k', t'.dead k' → t.dead k')
  | finish (i : Nat) (k : K) (hi : t.alive i k) (hopen : t'.isOpen → t.isOpen)
      (htidy : t'.tidy → t.tidy) (halive : ∀ j k', t'.alive j k' → t.alive j k' ∧ j ≠ i)
      (hentry : ∀ k', t'.entry k' = t.entry k') (hdead : ∀ k', t'.dead k' → t.dead k' ∨ k' = k)
  | clean (hopen : t.isOpen) (halive : ∀ i k, t'.alive i k → t.alive i k)
      (hentry : ∀ k, ¬ t.dead k → t'.entry k = t.entry k) (hdead : ∀ k, ¬ t'.dead k)
  | evict (i : Nat) (k : K) (hi : t.entry k = some i) (hend : ¬ t.alive i k) (hopen : t.isOpen)
      (htidy : ¬ t'.tidy) (halive : ∀ i k, t'.alive i k → t.alive i k)
      (hentry : ∀ k', k' ≠ k → t'.entry k' = t.entry k') (hdead : ∀ k', t'.dead k' → t.dead k')
  | close (halive : ∀ i k, t'.alive i k → t.alive i k) (hopen : ¬ t'.isOpen)

structure Inv (t : LazyTable K) : Prop where
  unique : ∀ i j k, t.alive i k → t.alive j k → i = j
  listed : t.isOpen → ∀ i k, t.alive i k → t.entry k = some i
  dead : t.isOpen → ∀ k, t.dead k → ∀ i, ¬ t.alive i k
  tidy : t.isOpen → t.tidy → ∀ k, t.dead k → t.entry k ≠ none

variable {t t' : LazyTable K}

theorem Inv.of_empty (halive : ∀ i k, ¬ t.alive i k) (hdead : ∀ k, ¬ t.dead k) : Inv t where
  unique i _ k hi := absurd hi (halive i k)
  listed _ i k hi := absurd hi (halive i k)
  dead _ k hk := absurd hk (hdead k)
  tidy _ _ k hk := absurd hk (hdead k)

/-- A key without an entry is no client's key. -/
theorem Inv.not_alive (h : Inv t) (hopen : t.isOpen) {k : K} (hnone : t.entry k = none) (i : Nat) :
    ¬ t.alive i k := by
  intro hi
  have := h.listed hopen i k hi
  rw [hnone] at this
  cases this

/-- No move removes the entry of a client. -/
theorem Inv.entry_kept (h : Inv t) (hm : Move t t') (hopen : t'.isOpen) {i : Nat} {k : K}
    (hi : t.alive i k) : t'.entry k = some i := by
  cases hm with
  | keep _ hentry _ ho _ | finish _ _ _ ho _ _ hentry _ =>
    rw [hentry]
    exact h.listed (ho hopen) i k hi
  | create n k' hnone ho _ _ _ hold _ =>
    have hne : k ≠ k' := by
      rintro rfl
      exact h.not_alive ho hnone i hi
    rw [hold k hne]
    exact h.listed ho i k hi
  | clean ho _ hentry _ =>
    rw [hentry k fun hk => h.dead ho k hk i hi]
    exact h.listed ho i k hi
  | evict j k' hj hend ho _ _ hentry _ =>
    have hlist := h.listed ho i k hi
    have hne : k ≠ k' := by
      rintro rfl
      rw [hj, Option.some.injEq] at hlist
      exact hend (hlist ▸ hi)
    rw [hentry k hne]
    exact hlist
  | close _ hclosed => exact absurd hopen hclosed

theorem Inv.move_unique (h : Inv t) (hm : Move t t') {i j : Nat} {k : K} (hi : t'.alive i k)
    (hj : t'.alive j k) : i = j := by
  cases hm with
  | keep halive _ _ _ _ | clean _ halive _ _ | evict _ _ _ _ _ _ halive _ _ | close halive _ =>
    exact h.unique i j k (halive i k hi) (halive j k hj)
  | create n k' hnone ho _ halive _ _ _ =>
    rcases halive i k hi with hi' | ⟨rfl, rfl⟩
    · rcases halive j k hj with hj' | ⟨rfl, rfl⟩
      · exact h.unique i j k hi' hj'
      · exact absurd hi' (h.not_alive ho hnone i)
    · rcases halive j k hj with hj' | ⟨rfl, -⟩
      · exact absurd hj' (h.not_alive ho hnone j)
      · rfl
  | finish _ _ _ _ _ halive _ _ => exact h.unique i j k (halive i k hi).1 (halive j k hj).1

theorem Inv.move_listed (h : Inv t) (hm : Move t t') (hopen : t'.isOpen) {i : Nat} {k : K}
    (hi : t'.alive i k) : t'.entry k = some i := by
  -- a client that was alive before has kept its entry
  by_cases hold : t.alive i k
  · exact h.entry_kept hm hopen hold
  cases hm with
  | keep halive _ _ _ _ | clean _ halive _ _ | evict _ _ _ _ _ _ halive _ _ | close halive _ =>
    exact absurd (halive i k hi) hold
  | create n k' _ _ _ halive hnew _ _ =>
    rcases halive i k hi with hi' | ⟨rfl, rfl⟩
    · exact absurd hi' hold
    · exact hnew
  | finish _ _ _ _ _ halive _ _ => exact absurd (halive i k hi).1 hold

theorem Inv.move_dead (h : Inv t) (hm : Move t t') (hopen : t'.isOpen) {k : K} (hk : t'.dead k)
    (i : Nat) : ¬ t'.alive i k := by
  intro hi
  cases hm with
  | keep halive _ hdead ho _ => exact h.dead (ho hopen) k (hdead k hk) i (halive i k hi)
  | create n k' hnone ho htidy halive _ _ hdead =>
    have hk' := hdead k hk
    rcases halive i k hi with hi' | ⟨rfl, rfl⟩
    · exact h.dead ho k hk' i hi'
    · exact h.tidy ho htidy k hk' hnone
  | finish j k' hj ho _ halive _ hdead =>
    obtain ⟨hi', hne⟩ := halive i k hi
    rcases hdead k hk with hk' | rfl
    · exact h.dead (ho hopen) k hk' i hi'
    · exact hne (h.unique i j k hi' hj)
  | clean _ _ _ hdead => exact hdead k hk
  | evict _ _ _ _ ho _ halive _ hdead => exact h.dead ho k (hdead k hk) i (halive i k hi)
  | close _ hclosed => exact hclosed hopen

theorem Inv.move_tidy (h : Inv t) (hm : Move t t') (hopen : t'.isOpen) (htidy : t'.tidy) {k : K}
    (hk : t'.dead k) : t'.entry k ≠ none := by
  cases hm with
  | keep _ hentry hdead ho ht =>
    rw [hentry]
    exact h.tidy (ho hopen) (ht htidy) k (hdead k hk)
  | create n k' _ ho ht _ hnew hold hdead =>
    by_cases hkk : k = k'
    · rw [hkk, hnew]
      exact Option.some_ne_none n
    · rw [hold k hkk]
      exact h.tidy ho ht k (hdead k hk)
  | finish i k' hi ho ht _ hentry hdead =>
    rw [hentry]
    rcases hdead k hk with hk' | rfl
    · exact h.tidy (ho hopen) (ht htidy) k hk'
    · rw [h.listed (ho hopen) i k hi]
      exact Option.some_ne_none i
  | clean _ _ _ hdead => exact absurd hk (hdead k)
  | evict _ _ _ _ _ hnot _ _ _ => exact absurd htidy hnot
  | close _ hclosed => exact absurd hopen hclosed

/-- Every move keeps the invariant. -/
theorem Inv.move (h : Inv t) (hm : Move t t') : Inv t' where
  unique _ _ _ hi hj := h.move_unique hm hi hj
  listed hopen _ _ hi := h.move_listed hm hopen hi
  dead hopen _ hk i := h.move_dead hm hopen hk i
  tidy hopen htidy _ hk := h.move_tidy hm hopen htidy hk

/-! ## Clients in a list -/

section Clients
variable {C : Type} {key : C → K} {ended : C → Bool} {l : List C} {i j : Nat} {f : C → C} {k : K}

/-- Client `i` of the list is registered under `k` and has not ended. -/
def Registered (key : C → K) (ended : C → Bool) (l : List C) (i : Nat) (k : K) : Prop :=
  ∃ c, l[i]? = some c ∧ key c = k ∧ ended c = false

theorem Registered.of_modify
    (hf : ∀ c, l[i]? = some c → key (f c) = key c ∧ (ended (f c) = false → ended c = false))
    (h : Registered key ended (l.modify i f) j k) : Registered key ended l j k := by
  obtain ⟨c, hj, hkey, hend⟩ := h
  rw [List.getElem?_modify] at hj
  obtain ⟨c₀, hj₀, rfl⟩ := Option.map_eq_some_iff.mp hj
  refine ⟨c₀, hj₀, ?_⟩
  by_cases hij : i = j
  · subst hij
    rw [if_pos rfl] at hkey hend
    obtain ⟨hk, he⟩ := hf c₀ hj₀
    exact ⟨hk ▸ hkey, he hend⟩
  · rw [if_neg hij] at hkey hend
    exact ⟨hkey, hend⟩

/-- The change ends client `i`. -/
theorem Registered.of_modify_ended (hf : ∀ c, key (f c) = key c ∧ ended (f c) = true)
    (h : Registered key ended (l.modify i f) j k) : Registered key ended l j k ∧ j ≠ i := by
  refine ⟨h.of_modify fun c _ => ⟨(hf c).1, fun he => ?_⟩, ?_⟩
  · rw [(hf c).2] at he
    cases he
  · rintro rfl
    obtain ⟨c, hj, -, hend⟩ := h
    rw [List.getElem?_modify_eq] at hj
    obtain ⟨c₀, -, rfl⟩ := Option.map_eq_some_iff.mp hj
    rw [(hf c₀).2] at hend
    cases hend

theorem Registered.of_concat {c : C} (h : Registered key ended (l ++ [c]) i k) :
    Registered key ended l i k ∨ i = l.length ∧ k = key c := by
  obtain ⟨c', hi, hkey, hend⟩ := h
  rw [List.getElem?_append, List.getElem?_singleton] at hi
  split at hi
  · exact .inl ⟨c', hi, hkey, hend⟩
  · split at hi
    · cases hi
      exact .inr ⟨by omega, hkey.symm⟩
    · cases hi

end Clients

end LazyTable

end Wstunnel
