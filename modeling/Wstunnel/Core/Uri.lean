import Wstunnel.Core.Utf8
import Mathlib.Data.List.TakeWhile
import Mathlib.Tactic.Common

/-!
# Request targets

`http::Uri` on the two forms in which a client writes the target of a
request: the origin form, `/path?query#fragment`, and the absolute form with
the scheme `http` or `https`. The authority of the absolute form ends at the
first `/`, `?` or `#`, the path at the first `?` or `#`; a fragment is
dropped. The character tables are those of the crate.

`parse_origin` and `parse_absolute` say which path is read, for any text behind
the slash or the scheme; `absolutePath_slash` and `absolutePath_endsPath` what
that is for a target put together from an authority and a path.
-/
namespace Wstunnel.Http

/-- The longest target in bytes. -/
def maxLen : Nat := 65534

/-- What may stand in a path; `"`, `{` and `}` are accepted for JSON in paths. -/
def pathChar (c : Char) : Bool :=
  let n := c.toNat
  n = 0x21 || (0x24 ≤ n && n ≤ 0x3B) || n = 0x3D || (0x40 ≤ n && n ≤ 0x5F) || (0x61 ≤ n && n ≤ 0x7A) ||
    n = 0x7C || 0x7E ≤ n || c = '"' || n = 0x7B || n = 0x7D

def queryChar (c : Char) : Bool :=
  let n := c.toNat
  n = 0x21 || (0x24 ≤ n && n ≤ 0x3B) || n = 0x3D || 0x3F ≤ n

/-- What may stand in an authority, apart from `%`. -/
def authorityChar (c : Char) : Bool :=
  c.isAlphanum || "!$&'()*+,-.:;=@[]_~".toList.contains c

def endsPath (c : Char) : Bool := c = '?' || c = '#'

def endsAuthority (c : Char) : Bool := c = '/' || endsPath c

/-- `PathAndQuery::from_shared`: the path and the query. -/
def pathAndQuery (s : List Char) : Option (List Char × Option (List Char)) :=
  let path := s.takeWhile fun c => !endsPath c
  if path.all pathChar then
    match s.dropWhile fun c => !endsPath c with
    | '?' :: rest =>
      let query := rest.takeWhile (· ≠ '#')
      if query.all queryChar then some (path, some query) else none
    | _ => some (path, none)
  else none

/-- What `Authority::parse` has seen: the colons since the last `]` or `@`,
the two brackets, a `%`, and whether the last character is an `@`. -/
structure AuthorityScan where
  colons : Nat
  opened : Bool
  closed : Bool
  percent : Bool
  lastAt : Bool

def AuthorityScan.next (scan : AuthorityScan) (c : Char) : Option AuthorityScan :=
  let scan := { scan with lastAt := c = '@' }
  if c = ':' then if 8 ≤ scan.colons then none else some { scan with colons := scan.colons + 1 }
  else if c = '[' then if scan.percent || scan.opened then none else some { scan with opened := true }
  else if c = ']' then
    if !scan.opened || scan.closed then none
    else some { scan with closed := true, colons := 0, percent := false }
  else if c = '@' then some { scan with colons := 0, percent := false }
  else if c = '%' then some { scan with percent := true }
  else if authorityChar c then some scan else none

def authorityOk (s : List Char) : Bool :=
  match s.foldlM AuthorityScan.next ⟨0, false, false, false, false⟩ with
  | none => false
  | some scan => scan.opened = scan.closed && scan.colons ≤ 1 && !scan.lastAt && !scan.percent

structure Uri where
  authority : List Char
  path : List Char
  query : Option (List Char)
  deriving DecidableEq, Repr

def stripScheme (s : List Char) : Option (List Char) :=
  if "http://".toList.isPrefixOf s then some (s.drop 7)
  else if "https://".toList.isPrefixOf s then some (s.drop 8)
  else none

/-- `Uri::from_shared`. -/
def Uri.parse (s : List Char) : Option Uri :=
  if maxLen < (Utf8.encode s).length then none
  else match s with
    | '/' :: _ => (pathAndQuery s).map fun (path, query) => ⟨[], path, query⟩
    | _ => (stripScheme s).bind fun rest =>
      let authority := rest.takeWhile fun c => !endsAuthority c
      if authority = [] || !authorityOk authority then none
      else (pathAndQuery (rest.dropWhile fun c => !endsAuthority c)).map fun (path, query) =>
        ⟨authority, path, query⟩

/-- `Uri::path`. -/
def Uri.pathText (uri : Uri) : List Char := if uri.path = [] then ['/'] else uri.path

/-! ## The path that is read -/

theorem pathAndQuery_fst {s path : List Char} {query : Option (List Char)}
    (h : pathAndQuery s = some (path, query)) : path = s.takeWhile fun c => !endsPath c := by
  simp only [pathAndQuery, Option.ite_none_right_eq_some] at h
  obtain ⟨-, h⟩ := h
  split at h
  · rw [Option.ite_none_right_eq_some] at h
    cases h.2
    rfl
  · cases h
    rfl

theorem parse_origin {s : List Char} {uri : Uri} (h : Uri.parse ('/' :: s) = some uri) :
    uri.pathText = '/' :: s.takeWhile fun c => !endsPath c := by
  simp only [Uri.parse, Option.ite_none_left_eq_some] at h
  obtain ⟨⟨path, query⟩, hpq, rfl⟩ := Option.map_eq_some_iff.mp h.2
  have hpath := pathAndQuery_fst hpq
  rw [List.takeWhile_cons_of_pos (by decide)] at hpath
  rw [Uri.pathText, hpath, if_neg (List.cons_ne_nil _ _)]

theorem stripScheme_append (scheme : List Char) (h : scheme = "http".toList ∨ scheme = "https".toList)
    (rest : List Char) : stripScheme (scheme ++ "://".toList ++ rest) = some rest := by
  rcases h with rfl | rfl <;> rfl

/-- The path of a target in absolute form, by what follows the scheme. -/
def absolutePath (rest : List Char) : List Char :=
  let path := (rest.dropWhile fun c => !endsAuthority c).takeWhile fun c => !endsPath c
  if path = [] then ['/'] else path

theorem parse_absolute {scheme rest : List Char} {uri : Uri}
    (hscheme : scheme = "http".toList ∨ scheme = "https".toList)
    (h : Uri.parse (scheme ++ "://".toList ++ rest) = some uri) : uri.pathText = absolutePath rest := by
  have hfirst : ∀ t, scheme ++ "://".toList ++ rest ≠ '/' :: t := by
    rcases hscheme with rfl | rfl <;> exact fun t ht => absurd (List.cons.inj ht).1 (by decide)
  simp only [Uri.parse, Option.ite_none_left_eq_some] at h
  replace h := h.2
  rw [stripScheme_append scheme hscheme, Option.bind_some, Option.ite_none_left_eq_some] at h
  obtain ⟨⟨path, query⟩, hpq, rfl⟩ := Option.map_eq_some_iff.mp h.2
  rw [Uri.pathText, absolutePath, pathAndQuery_fst hpq]

section AbsolutePath

variable {authority : List Char} (hauthority : ∀ c ∈ authority, endsAuthority c = false)

include hauthority

theorem dropWhile_authority {c : Char} (hc : endsAuthority c = true) (s : List Char) :
    (authority ++ c :: s).dropWhile (fun c => !endsAuthority c) = c :: s := by
  rw [List.dropWhile_append_of_pos fun c hc => by rw [hauthority c hc]; rfl]
  exact List.dropWhile_cons_of_neg (by rw [hc]; decide)

/-- The authority is read whole when none of its characters ends it. -/
theorem absolutePath_slash (s : List Char) :
    absolutePath (authority ++ '/' :: s) = '/' :: s.takeWhile fun c => !endsPath c := by
  rw [absolutePath, dropWhile_authority hauthority (by decide), List.takeWhile_cons_of_pos (by decide)]
  exact if_neg (List.cons_ne_nil _ _)

/-- A query or a fragment right behind the authority: there is no path. -/
theorem absolutePath_endsPath {c : Char} (hc : endsPath c = true) (s : List Char) :
    absolutePath (authority ++ c :: s) = ['/'] := by
  have hends : endsAuthority c = true := by rw [endsAuthority, hc, Bool.or_true]
  rw [absolutePath, dropWhile_authority hauthority hends, List.takeWhile_cons_of_neg (by rw [hc]; decide)]
  exact if_pos rfl

end AbsolutePath

end Wstunnel.Http
