import Wstunnel.L2Rules.Restrictions

/-!
# `find_mapped_port`: which entry decides the bound port

A reverse tunnel is admitted by one search over the allow entries of a rule
(`is_allowed`) and its port is mapped by another (`find_mapped_port`), which
takes the first entry that maps the port whether or not that entry admits
the tunnel. `PortRule` states what `restrictions.yaml` means by a mapping of
an entry: only tunnels the entry admits are mapped.

**Third-party code.** None beside the `Matchers` of `Restrictions`, any functions.

**Results.**
* `portRule_iff`: exactly when the code keeps that. Every refusing entry that maps
  the port, and that no admitting mapper precedes, must map it to the port the
  admitting entries give.
-/
namespace Wstunnel.L2

open Wstunnel.L1

/-- The mapping an entry holds for `port`. -/
def AllowConfig.mapPort (port : UInt16) : AllowConfig → Option UInt16
  | .reverseTunnel allow => allow.portMapping.lookup port
  | .tunnel _ => none

/-- mirrors wstunnel/src/tunnel/server/utils.rs:31-52 -/
def findMappedPort (reqPort : UInt16) (restriction : RestrictionConfig) : UInt16 :=
  (restriction.allow.findSome? (·.mapPort reqPort)).getD reqPort

variable (M : Matchers) (a : RemoteAddr)

/-- The port given by the entries that admit `a`, in list order; the
requested one when none of them maps it. -/
def admittedPort (allow : List AllowConfig) : UInt16 :=
  ((allow.filter (·.isAllowed M a)).findSome? (·.mapPort a.port)).getD a.port

/-- `allow'` is `allow` without some of the entries that refuse `a`. -/
def DropsRefusing (allow allow' : List AllowConfig) : Prop :=
  allow'.Sublist allow ∧ allow'.filter (·.isAllowed M a) = allow.filter (·.isAllowed M a)

/-- What the entries of `r` may do to the port bound for `a`: it is the
mapping of an entry that admits `a`, or the requested port when no such
entry maps it, and no entry that refuses `a` has any part in it. -/
structure PortRule (r : RestrictionConfig) (bound : UInt16) : Prop where
  chosen :
    (∃ e, AllowConfig.reverseTunnel e ∈ r.allow ∧ e.isAllowed M a = true ∧
      e.portMapping.lookup a.port = some bound) ∨
    (bound = a.port ∧ ∀ e, AllowConfig.reverseTunnel e ∈ r.allow → e.isAllowed M a = true →
      e.portMapping.lookup a.port = none)
  refused : ∀ allow', DropsRefusing M a r.allow allow' →
    findMappedPort a.port { r with allow := allow' } = bound

/-- Every refusing entry that maps the port, with no admitting mapper before
it, maps it to the port of the admitting entries. -/
def RefusingAgree (allow : List AllowConfig) : Prop :=
  ∀ before e after t, allow = before ++ e :: after → e.isAllowed M a = false →
    e.mapPort a.port = some t →
    (∀ e' ∈ before, e'.isAllowed M a = true → e'.mapPort a.port = none) →
    t = admittedPort M a allow

theorem findMappedPort_mk (r : RestrictionConfig) (allow' : List AllowConfig) :
    findMappedPort a.port { r with allow := allow' } =
      (allow'.findSome? (·.mapPort a.port)).getD a.port := rfl

/-- `RefusingAgree` with the target port fixed, by recursion on the list. -/
def AgreeTo (p : UInt16) : List AllowConfig → Prop
  | [] => True
  | e :: l => match e.mapPort a.port with
    | none => AgreeTo p l
    | some t => e.isAllowed M a = true ∨ (t = p ∧ AgreeTo p l)

theorem agreeTo_of_splits (p : UInt16) : ∀ allow : List AllowConfig,
    (∀ before e after t, allow = before ++ e :: after → e.isAllowed M a = false →
      e.mapPort a.port = some t →
      (∀ e' ∈ before, e'.isAllowed M a = true → e'.mapPort a.port = none) → t = p) →
    AgreeTo M a p allow
  | [], _ => trivial
  | e :: l, h => by
    have tail (hno : e.isAllowed M a = true → e.mapPort a.port = none) : AgreeTo M a p l := by
      refine agreeTo_of_splits p l fun before e' after t hl href hmap hb => ?_
      refine h (e :: before) e' after t (by rw [hl]; rfl) href hmap fun x hx => ?_
      rcases List.mem_cons.mp hx with rfl | hx
      · exact hno
      · exact hb x hx
    unfold AgreeTo
    split
    · rename_i hnone; exact tail fun _ => hnone
    · rename_i t hsome
      cases hadm : e.isAllowed M a with
      | true => exact .inl rfl
      | false =>
        refine .inr ⟨h [] e l t rfl hadm hsome (by simp), tail fun hc => ?_⟩
        rw [hadm] at hc; cases hc

/-- Under `AgreeTo` the search over all entries and the search over the
admitting ones end at the same port. -/
theorem findSome?_of_agreeTo (p : UInt16) : ∀ allow : List AllowConfig, AgreeTo M a p allow →
    admittedPort M a allow = p → (allow.findSome? (·.mapPort a.port)).getD a.port = p
  | [], _, hp => hp
  | e :: l, hag, hp => by
    unfold AgreeTo at hag
    unfold admittedPort at hp
    rw [List.filter_cons] at hp
    rw [List.findSome?_cons]
    cases hm : e.mapPort a.port with
    | none =>
      rw [hm] at hag
      refine findSome?_of_agreeTo p l hag ?_
      split at hp
      · rw [List.findSome?_cons, hm] at hp; exact hp
      · exact hp
    | some t =>
      rw [hm] at hag
      rcases hag with hadm | ⟨rfl, -⟩
      · rw [if_pos hadm, List.findSome?_cons, hm] at hp; exact hp
      · rfl

theorem agreeTo_of_drops (p : UInt16) {allow allow' : List AllowConfig}
    (hs : allow'.Sublist allow) :
    allow'.filter (·.isAllowed M a) = allow.filter (·.isAllowed M a) →
    AgreeTo M a p allow → AgreeTo M a p allow' := by
  induction hs with
  | slnil => exact fun _ h => h
  | @cons l₁ l₂ e hsub ih =>
    intro hf hag
    have href : e.isAllowed M a = false := by
      cases hadm : e.isAllowed M a with
      | false => rfl
      | true =>
        rw [List.filter_cons, if_pos hadm] at hf
        have hlen := (hsub.filter (·.isAllowed M a)).length_le
        rw [hf, List.length_cons] at hlen
        omega
    rw [List.filter_cons, if_neg (by simp [href])] at hf
    refine ih hf ?_
    unfold AgreeTo at hag
    split at hag
    · exact hag
    · rcases hag with h | h
      · rw [href] at h; cases h
      · exact h.2
  | @cons_cons l₁ l₂ e hsub ih =>
    intro hf hag
    have hf' : l₁.filter (·.isAllowed M a) = l₂.filter (·.isAllowed M a) := by
      simp only [List.filter_cons] at hf
      split at hf
      · exact List.cons.inj hf |>.2
      · exact hf
    unfold AgreeTo at hag ⊢
    split at hag
    · exact ih hf' hag
    · rcases hag with h | ⟨h, h'⟩
      · exact .inl h
      · exact .inr ⟨h, ih hf' h'⟩

theorem dropsRefusing_refl (allow : List AllowConfig) : DropsRefusing M a allow allow :=
  ⟨.refl _, rfl⟩

theorem dropsRefusing_filter (allow : List AllowConfig) :
    DropsRefusing M a allow (allow.filter (·.isAllowed M a)) :=
  ⟨List.filter_sublist, by simp⟩

/-- The bound port keeps the rule, given that it is the admitted one. -/
theorem chosen_of_admittedPort (r : RestrictionConfig) :
    (∃ e, AllowConfig.reverseTunnel e ∈ r.allow ∧ e.isAllowed M a = true ∧
      e.portMapping.lookup a.port = some (admittedPort M a r.allow)) ∨
    (admittedPort M a r.allow = a.port ∧ ∀ e, AllowConfig.reverseTunnel e ∈ r.allow →
      e.isAllowed M a = true → e.portMapping.lookup a.port = none) := by
  unfold admittedPort
  cases hf : (r.allow.filter (·.isAllowed M a)).findSome? (·.mapPort a.port) with
  | none =>
    right
    refine ⟨rfl, fun e he hadm => ?_⟩
    rw [List.findSome?_eq_none_iff] at hf
    exact hf (.reverseTunnel e) (List.mem_filter.mpr ⟨he, hadm⟩)
  | some t =>
    left
    obtain ⟨e, he, hmap⟩ := List.exists_of_findSome?_eq_some hf
    obtain ⟨hmem, hadm⟩ := List.mem_filter.mp he
    cases e with
    | reverseTunnel c => exact ⟨c, hmem, hadm, hmap⟩
    | tunnel c => cases hmap

/-- **Port mapping.** `find_mapped_port` keeps the rule of `PortRule` exactly
when the refusing entries agree with the admitting ones. -/
theorem portRule_iff (r : RestrictionConfig) :
    PortRule M a r (findMappedPort a.port r) ↔ RefusingAgree M a r.allow := by
  refine ⟨?_, ?_⟩
  · intro h before e after t hl href hmap hb
    -- keep `e` and the admitting entries only: the search then stops at `e`
    have hdrop : DropsRefusing M a r.allow
        (before.filter (·.isAllowed M a) ++ e :: after.filter (·.isAllowed M a)) := by
      rw [hl]
      refine ⟨List.filter_sublist.append (.cons_cons e List.filter_sublist), ?_⟩
      simp [List.filter_append, href]
    have h1 := h.refused _ hdrop
    have h2 := h.refused _ (dropsRefusing_filter M a r.allow)
    rw [findMappedPort_mk] at h1 h2
    have hnone : (before.filter (·.isAllowed M a)).findSome? (·.mapPort a.port) = none := by
      rw [List.findSome?_eq_none_iff]
      intro x hx
      obtain ⟨hx1, hx2⟩ := List.mem_filter.mp hx
      exact hb x hx1 hx2
    rw [List.findSome?_append, hnone, Option.none_or, List.findSome?_cons, hmap] at h1
    exact h1.trans h2.symm
  · intro h
    have hag : AgreeTo M a (admittedPort M a r.allow) r.allow := agreeTo_of_splits M a _ _ h
    have key (allow' : List AllowConfig) (hd : DropsRefusing M a r.allow allow') :
        findMappedPort a.port { r with allow := allow' } = admittedPort M a r.allow := by
      rw [findMappedPort_mk]
      refine findSome?_of_agreeTo M a _ allow' (agreeTo_of_drops M a _ hd.1 hd.2 hag) ?_
      unfold admittedPort
      rw [hd.2]
    have hbound : findMappedPort a.port r = admittedPort M a r.allow :=
      key r.allow (dropsRefusing_refl M a r.allow)
    rw [hbound]
    exact ⟨chosen_of_admittedPort M a r, key⟩

end Wstunnel.L2
