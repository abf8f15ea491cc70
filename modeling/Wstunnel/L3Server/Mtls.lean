import Wstunnel.L3Server.Admission

/-!
# The path restriction of a client certificate

With client certificates required, `serve` takes the common name of the
client's leaf certificate as the only path prefix its requests may use. The
name passes through three optional steps (the peer's chain, its first
certificate that parses and is not a CA, the first common name that is
readable text), and an absent value at any step means no restriction at all.

**Third-party code.** `rustls` has verified the chain before; here the chain is any
list. `x509_parser` is the parameter `parse`, any function: a certificate that it
cannot parse is passed over.

**Results.**
* `checkPath_mtls_iff`: a request gets past the path check exactly when its
  path parses and, if the leaf of the chain has a readable common name, its
  prefix is that name. A chain without such a name restricts nothing
  (`namelessLeaf_unrestricted`), as the client expects: without a common name
  it falls back to its default prefix.
-/
namespace Wstunnel.L3

open Wstunnel.L1 Wstunnel.L2

/-- The certificate as sent by the peer. -/
structure CertificateDer where
  der : Bytes
  deriving DecidableEq, Repr

/-- What the code reads of a parsed certificate: the CA flag and the common
names of the subject, `none` for one that is not readable text. -/
structure X509Certificate where
  isCa : Bool
  commonNames : List (Option String)
  deriving DecidableEq, Repr

variable (parse : CertificateDer → Option X509Certificate)

/-- mirrors wstunnel/src/protocols/tls/utils.rs:5-16 -/
def findLeafCertificate : List CertificateDer → Option X509Certificate
  | [] => none
  | tlsCertificate :: rest => match parse tlsCertificate with
    | some x509 => if !x509.isCa then some x509 else findLeafCertificate rest
    | none => findLeafCertificate rest

/-- mirrors wstunnel/src/protocols/tls/utils.rs:18-27 -/
def cnFromCertificate (x509 : X509Certificate) : Option String :=
  (x509.commonNames.filterMap id).head?

/-- mirrors wstunnel/src/tunnel/server/server.rs:503-508 -/
def restrictPath (peerCertificates : Option (List CertificateDer)) : Option String :=
  (peerCertificates.bind (findLeafCertificate parse)).bind cnFromCertificate

/-! ## The leaf and its name -/

/-- `x509` is the leaf of the chain: what comes before it is unreadable or a CA. -/
def IsLeaf (chain : List CertificateDer) (x509 : X509Certificate) : Prop :=
  ∃ before der after, chain = before ++ der :: after ∧ parse der = some x509 ∧ x509.isCa = false ∧
    ∀ d ∈ before, ∀ ca, parse d = some ca → ca.isCa = true

/-- `name` is the common name of the certificate: the first readable one. -/
def IsCommonName (x509 : X509Certificate) (name : String) : Prop :=
  ∃ before after, x509.commonNames = before ++ some name :: after ∧ ∀ n ∈ before, n = none

theorem findLeafCertificate_eq_some : ∀ {chain : List CertificateDer} {x509 : X509Certificate},
    findLeafCertificate parse chain = some x509 ↔ IsLeaf parse chain x509
  | [], x509 => by simp [findLeafCertificate, IsLeaf]
  | der :: rest, x509 => by
    -- a certificate that is passed over joins those before the leaf
    have skip (hskip : ∀ ca, parse der = some ca → ca.isCa = true) :
        IsLeaf parse rest x509 ↔ IsLeaf parse (der :: rest) x509 := by
      refine ⟨?_, ?_⟩
      · intro h
        obtain ⟨before, d, after, rfl, hp, hca, hb⟩ := h
        refine ⟨der :: before, d, after, rfl, hp, hca, fun d' hd' => ?_⟩
        rcases List.mem_cons.mp hd' with rfl | hd'
        · exact hskip
        · exact hb d' hd'
      · intro ⟨before, d, after, he, hp, hca, hb⟩
        cases before with
        | nil =>
          obtain ⟨rfl, rfl⟩ := List.cons.inj he
          rw [hskip x509 hp] at hca; cases hca
        | cons b bs =>
          obtain ⟨rfl, rfl⟩ := List.cons.inj he
          exact ⟨bs, d, after, rfl, hp, hca, fun d' hd' => hb d' (List.mem_cons_of_mem _ hd')⟩
    unfold findLeafCertificate
    cases hp : parse der with
    | none => exact findLeafCertificate_eq_some.trans (skip (by simp [hp]))
    | some c =>
      cases hca : c.isCa with
      | true =>
        simp only [hca, Bool.not_true, Bool.false_eq_true, if_false]
        exact findLeafCertificate_eq_some.trans (skip fun ca h => by cases hp.symm.trans h; exact hca)
      | false =>
        simp only [hca, Bool.not_false, if_true, Option.some.injEq]
        refine ⟨?_, ?_⟩
        · rintro rfl
          exact ⟨[], der, rest, rfl, hp, hca, by simp⟩
        · intro ⟨before, d, after, he, hp', _, hb⟩
          cases before with
          | nil => obtain ⟨rfl, -⟩ := List.cons.inj he; exact Option.some.inj (hp.symm.trans hp')
          | cons b bs =>
            obtain ⟨rfl, -⟩ := List.cons.inj he
            rw [hb der (by simp) c hp] at hca; cases hca

theorem head?_filterMap_id {names : List (Option String)} {name : String} :
    (names.filterMap id).head? = some name ↔
      ∃ before after, names = before ++ some name :: after ∧ ∀ n ∈ before, n = none := by
  induction names with
  | nil => simp
  | cons first names ih =>
    cases first with
    | none =>
      show (names.filterMap id).head? = some name ↔ _
      rw [ih]
      refine ⟨?_, ?_⟩
      · intro ⟨before, after, hn, hb⟩
        exact ⟨none :: before, after, by rw [hn]; rfl, by simpa using hb⟩
      · intro ⟨before, after, he, hb⟩
        cases before with
        | nil => cases (List.cons.inj he).1
        | cons b bs => exact ⟨bs, after, (List.cons.inj he).2, fun n hn => hb n (by simp [hn])⟩
    | some n =>
      show some n = some name ↔ _
      refine ⟨?_, ?_⟩
      · intro hn
        exact ⟨[], names, by rw [hn]; rfl, by simp⟩
      · intro ⟨before, after, he, hb⟩
        cases before with
        | nil => exact (List.cons.inj he).1
        | cons b bs =>
          have hnone := hb b (by simp)
          rw [← (List.cons.inj he).1] at hnone
          cases hnone

/-- The restriction is the common name of the leaf. -/
theorem restrictPath_eq_some {chain : List CertificateDer} {name : String} :
    restrictPath parse (some chain) = some name ↔
      ∃ x509, IsLeaf parse chain x509 ∧ IsCommonName x509 name := by
  simp only [restrictPath, Option.bind_some, Option.bind_eq_some_iff, findLeafCertificate_eq_some,
    cnFromCertificate, head?_filterMap_id, IsCommonName]

/-! ## The restriction on requests -/

/-- **mTLS.** A request gets past the path check exactly when its path parses
to a prefix that is the common name of the client's leaf certificate,
whenever there is a leaf with a readable one. -/
theorem checkPath_mtls_iff (chain : List CertificateDer) (req : Request) (pathPrefix : String) :
    checkPath (restrictPath parse (some chain)) req = .ok pathPrefix ↔
      extractPathPrefix req.path = .ok pathPrefix ∧
        ∀ x509 name, IsLeaf parse chain x509 → IsCommonName x509 name → pathPrefix = name := by
  rw [checkPath_eq_ok]
  refine and_congr_right fun _ => ⟨fun h x509 name hleaf hname => ?_, fun h name hr => ?_⟩
  · exact h name ((restrictPath_eq_some parse).mpr ⟨x509, hleaf, hname⟩)
  · obtain ⟨x509, hleaf, hname⟩ := (restrictPath_eq_some parse).mp hr
    exact h x509 name hleaf hname

/-- Every request of the connection that gets past the path check uses the
leaf's common name as its prefix. -/
def BindsName (chain : List CertificateDer) : Prop :=
  ∀ req pathPrefix, checkPath (restrictPath parse (some chain)) req = .ok pathPrefix →
    ∃ x509, IsLeaf parse chain x509 ∧ IsCommonName x509 pathPrefix

/-- A certificate for a subject without a common name, as one that names its
holder in the alternative names only. -/
def namelessLeaf : X509Certificate := ⟨false, []⟩

/-- A chain whose leaf has no common name restricts nothing. -/
theorem namelessLeaf_unrestricted :
    restrictPath (fun _ => some namelessLeaf) (some [⟨[0x30]⟩]) = none ∧
      ¬ BindsName (fun _ => some namelessLeaf) [⟨[0x30]⟩] := by
  refine ⟨by decide, fun h => ?_⟩
  obtain ⟨x509, ⟨before, der, after, -, hp, -, -⟩, _, _, hn, -⟩ :=
    h ⟨"/v1/events", []⟩ "v1" (by decide)
  cases hp
  simp [namelessLeaf] at hn

end Wstunnel.L3
