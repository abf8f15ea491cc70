import Wstunnel.L2Rules.Restrictions

/-!
# Rules compiled from the command line

`RestrictionsRules::from_path_prefix` turns `--restrict-http-upgrade-path-prefix`
and `--restrict-to` into rules: one rule per prefix (or one that matches any
path), all with the same allow entries. Each entry is a regular expression,
a port range and a full-length network, so what the options mean is spread
over the compiler here and the evaluator of `validate_tunnel`.

**Third-party code.** `Matchers.RegexSpec` is what is assumed of `regex` on the
patterns that are built here: the escaped text between anchors matches that text and
no other, and `^.*$` any text of one line. `Matchers.CidrSpec` is what is assumed of
`ipnet`: a network contains the addresses of its family with its bits.

**Results.**
* `fromPathPrefix_validateTunnel` closes the two: under that behaviour of the `regex`
  and `ipnet` crates the compiled rules admit exactly the destinations and prefixes
  named on the command line.
-/
namespace Wstunnel.L2

open Wstunnel.L1

variable (M : Matchers)

/-- The entry compiled from one `--restrict-to` pair. -/
def restrictToEntry (host : String) (port : UInt16) : Option (List AllowConfig) :=
  match IpAddr.fromStr host with
  | some ip => do
    let re ← Regex.new M "^$"
    let net ← IpNet.new ip (if ip.isIpv4 then 32 else 128)
    return [.tunnel ⟨[], [⟨port, port⟩], re, [net]⟩]
  | none => do
    let re ← Regex.new M ("^" ++ M.escape host ++ "$")
    return [.tunnel ⟨[], [⟨port, port⟩], re, []⟩]

/-- The allow entries of every rule. -/
def tunnelsRestrictions (restrictTo : List (String × UInt16)) : Option (List AllowConfig) :=
  if restrictTo.isEmpty then
    some [.tunnel ⟨[], [], defaultHost, defaultCidr⟩,
      .reverseTunnel ⟨[], [], [], defaultCidr, defaultHost⟩]
  else (restrictTo.mapM fun (host, port) => restrictToEntry M host port).map List.flatten

/-- The rule compiled from one prefix. -/
def pathRule (allow : List AllowConfig) (pathPrefix : String) : Option RestrictionConfig := do
  let reg ← Regex.new M ("^" ++ M.escape pathPrefix ++ "$")
  return ⟨"Allow path prefix " ++ pathPrefix, [.pathPrefix reg], allow⟩

/-- mirrors wstunnel/src/restrictions/mod.rs:23-91 -/
def fromPathPrefix (pathPrefixes : List String) (restrictTo : List (String × UInt16)) :
    Option RestrictionsRules := do
  let allow ← tunnelsRestrictions M restrictTo
  if pathPrefixes.isEmpty then return ⟨[⟨"Allow All", [.any], allow⟩]⟩
  else return ⟨← pathPrefixes.mapM (pathRule M allow)⟩

/-! ## What the options mean -/

/-- `--restrict-to` names the destination of `remote`. -/
def RestrictToNames (restrictTo : List (String × UInt16)) (remote : RemoteAddr) : Prop :=
  ∃ h p, (h, p) ∈ restrictTo ∧ p = remote.port ∧
    ((∃ ip, IpAddr.fromStr h = some ip ∧ remote.host.ip? = some ip) ∨
      (IpAddr.fromStr h = none ∧ remote.host = .domain h))

/-- What a server without `--restrict-to` serves. -/
inductive ServedOpen (remote : RemoteAddr) : Prop
  | forward (dir : remote.protocol.isReverseTunnel = false)
      (dest : (∃ ip, remote.host.ip? = some ip) ∨ ∃ d, remote.host = .domain d ∧ '\n' ∉ d.toList)
  | reverse (dir : remote.protocol.isReverseTunnel = true)
      (notUnix : ∀ path, remote.protocol ≠ .reverseUnix path)
      (dest : ∃ ip, remote.host.ip? = some ip)
  | unix (path : PathBuf) (dir : remote.protocol = .reverseUnix path)
      (dest : '\n' ∉ path.text.toList)

/-- The destinations the command line allows. -/
def DestinationNamed (restrictTo : List (String × UInt16)) (remote : RemoteAddr) : Prop :=
  (restrictTo ≠ [] → remote.protocol.isReverseTunnel = false ∧ RestrictToNames restrictTo remote) ∧
  (restrictTo = [] → ServedOpen remote)

/-! ## The compiled entries -/

theorem mapM_eq_some_iff {α β : Type} {f : α → Option β} : ∀ {l : List α} {l' : List β},
    l.mapM f = some l' ↔ l.map f = l'.map some
  | [], l' => by cases l' <;> simp
  | a :: l, [] => by simp [List.mapM_cons, Option.bind_eq_some_iff]
  | a :: l, b :: l' => by
    simp only [List.mapM_cons, Option.bind_eq_bind, Option.bind_eq_some_iff, Option.pure_def,
      Option.some.injEq, List.map_cons, List.cons.injEq]
    refine ⟨?_, ?_⟩
    · intro h
      obtain ⟨b', hb, l'', hl, rfl, rfl⟩ := h
      exact ⟨hb, mapM_eq_some_iff.mp hl⟩
    · intro ⟨hb, hl⟩
      exact ⟨b, hb, l', mapM_eq_some_iff.mpr hl, rfl, rfl⟩

theorem mem_of_mapM {α β : Type} {f : α → Option β} {l : List α} {l' : List β}
    (h : l.mapM f = some l') (b : β) : b ∈ l' ↔ ∃ a ∈ l, f a = some b := by
  have hmem : some b ∈ l'.map some ↔ b ∈ l' := by simp
  rw [← hmem, ← mapM_eq_some_iff.mp h, List.mem_map]

theorem exists_of_mapM {α β : Type} {f : α → Option β} {l : List α} {l' : List β}
    (h : l.mapM f = some l') {a : α} (ha : a ∈ l) : ∃ b ∈ l', f a = some b := by
  have hmem : f a ∈ l'.map some := mapM_eq_some_iff.mp h ▸ List.mem_map_of_mem ha
  obtain ⟨b, hb, he⟩ := List.mem_map.mp hmem
  exact ⟨b, hb, he.symm⟩

theorem regex_new_eq_some {pattern : String} {re : Regex} (h : Regex.new M pattern = some re) :
    re = ⟨pattern⟩ := by
  unfold Regex.new at h
  split at h
  · exact (Option.some.inj h).symm
  · cases h

theorem portRange_singleton (port port' : UInt16) :
    portAllowed [⟨port, port⟩] port' = true ↔ port = port' := by
  simp only [portAllowed, List.isEmpty_cons, List.any_cons, List.any_nil, Bool.or_false,
    Bool.false_or, PortRange.contains, Bool.and_eq_true, decide_eq_true_eq]
  exact ⟨fun h => UInt16.le_antisymm h.1 h.2, fun h => h ▸ ⟨UInt16.le_refl _, UInt16.le_refl _⟩⟩

/-- The entry of one pair admits exactly the forward tunnels to it. -/
theorem restrictToEntry_allows (hre : M.RegexSpec) (hcidr : M.CidrSpec) {host : String}
    {port : UInt16} {entries : List AllowConfig}
    (he : restrictToEntry M host port = some entries) {remote : RemoteAddr}
    (hhost : remote.host ≠ .domain "") :
    (∃ e ∈ entries, e.isAllowed M remote = true) ↔
      remote.protocol.isReverseTunnel = false ∧ port = remote.port ∧
      ((∃ ip, IpAddr.fromStr host = some ip ∧ remote.host.ip? = some ip) ∨
        (IpAddr.fromStr host = none ∧ remote.host = .domain host)) := by
  unfold restrictToEntry at he
  cases hip : IpAddr.fromStr host with
  | some ip =>
    simp only [hip, Option.bind_eq_bind, Option.bind_eq_some_iff, Option.pure_def,
      Option.some.injEq] at he
    obtain ⟨re, hnew, net, hnet, rfl⟩ := he
    obtain rfl := regex_new_eq_some M hnew
    have hcover := IpNet.covers_host
      (show IpNet.new ip ip.width = some net by cases ip <;> exact hnet)
    -- `^$` is the escaped empty text: no host but the empty domain matches it
    have hempty : ∀ d, M.isMatch ⟨"^$"⟩ d = true ↔ d = "" := by
      have := hre.literal ""
      rwa [hre.escape_empty] at this
    have hdom : ¬ ∃ d, remote.host = .domain d ∧ M.isMatch ⟨"^$"⟩ d = true := by
      intro ⟨d, hd, hm⟩
      exact hhost (by rw [hd, (hempty d).mp hm])
    simp only [List.mem_singleton, exists_eq_left, AllowConfig.isAllowed,
      AllowTunnelConfig.isAllowed_iff, portRange_singleton, cidrAllowed_iff, hcidr _ _, hcover,
      hdom, true_or, true_and, false_or, exists_eq_right, reduceCtorEq, false_and, or_false,
      Option.some.injEq, exists_eq_left']
  | none =>
    simp only [hip, Option.bind_eq_bind, Option.bind_eq_some_iff, Option.pure_def,
      Option.some.injEq] at he
    obtain ⟨re, hnew, rfl⟩ := he
    obtain rfl := regex_new_eq_some M hnew
    simp only [List.mem_singleton, exists_eq_left, AllowConfig.isAllowed,
      AllowTunnelConfig.isAllowed_iff, portRange_singleton, hre.literal, exists_eq_right,
      cidrAllowed_iff, List.not_mem_nil, false_and, exists_false, and_false, or_false,
      true_and, reduceCtorEq, false_or]

theorem cidrAllowed_default (hcidr : M.CidrSpec) (ip : IpAddr) :
    cidrAllowed M defaultCidr ip = true := by
  rw [cidrAllowed_iff]
  rcases IpNet.covers_default ip with h | h
  · exact ⟨.defaultV4, by simp [defaultCidr], (hcidr _ _).trans h⟩
  · exact ⟨.defaultV6, by simp [defaultCidr], (hcidr _ _).trans h⟩

theorem defaultTunnel_allows (hre : M.RegexSpec) (hcidr : M.CidrSpec) (remote : RemoteAddr) :
    AllowTunnelConfig.isAllowed M ⟨[], [], defaultHost, defaultCidr⟩ remote = true ↔
      remote.protocol.isReverseTunnel = false ∧
        ((∃ ip, remote.host.ip? = some ip) ∨ ∃ d, remote.host = .domain d ∧ '\n' ∉ d.toList) := by
  simp only [AllowTunnelConfig.isAllowed_iff, defaultHost, hre.anyLine, cidrAllowed_default M hcidr,
    and_true, portAllowed, List.isEmpty_nil, Bool.true_or, true_or, true_and]
  rw [or_comm]

theorem defaultReverse_allows (hre : M.RegexSpec) (hcidr : M.CidrSpec) (remote : RemoteAddr) :
    AllowReverseTunnelConfig.isAllowed M ⟨[], [], [], defaultCidr, defaultHost⟩ remote = true ↔
      (remote.protocol.isReverseTunnel = true ∧ (∀ path, remote.protocol ≠ .reverseUnix path) ∧
        ∃ ip, remote.host.ip? = some ip) ∨
      ∃ path, remote.protocol = .reverseUnix path ∧ '\n' ∉ path.text.toList := by
  by_cases hu : ∃ path, remote.protocol = .reverseUnix path
  · obtain ⟨path, hp⟩ := hu
    rw [AllowReverseTunnelConfig.isAllowed_unix M _ hp]
    simp [defaultHost, hre.anyLine, hp]
  · have hu' : ∀ path, remote.protocol ≠ .reverseUnix path := fun path hp => hu ⟨path, hp⟩
    rw [AllowReverseTunnelConfig.isAllowed_iff M _ hu']
    simp only [portAllowed, List.isEmpty_nil, Bool.true_or, true_or, true_and,
      cidrAllowed_default M hcidr, and_true, hu', ne_eq, not_false_eq_true, implies_true, false_and,
      exists_false, or_false]

/-- The compiled entries admit exactly the destinations named. -/
theorem tunnelsRestrictions_allows (hre : M.RegexSpec) (hcidr : M.CidrSpec)
    {restrictTo : List (String × UInt16)} {allow : List AllowConfig}
    (ha : tunnelsRestrictions M restrictTo = some allow) {remote : RemoteAddr}
    (hhost : remote.host ≠ .domain "") :
    (∃ e ∈ allow, e.isAllowed M remote = true) ↔ DestinationNamed restrictTo remote := by
  unfold tunnelsRestrictions at ha
  cases restrictTo with
  | nil =>
    obtain rfl := Option.some.inj ha
    simp only [List.mem_cons, List.not_mem_nil, or_false, exists_eq_or_imp, exists_eq_left,
      AllowConfig.isAllowed, defaultTunnel_allows M hre hcidr, defaultReverse_allows M hre hcidr]
    refine ⟨?_, ?_⟩
    · intro h
      rcases h with ⟨hd, h⟩ | ⟨hd, hu, h⟩ | ⟨path, hd, h⟩
      · exact ⟨fun hc => absurd rfl hc, fun _ => .forward hd h⟩
      · exact ⟨fun hc => absurd rfl hc, fun _ => .reverse hd hu h⟩
      · exact ⟨fun hc => absurd rfl hc, fun _ => .unix path hd h⟩
    · intro h
      obtain ⟨-, h⟩ := h
      cases h rfl with
      | forward hd h => exact .inl ⟨hd, h⟩
      | reverse hd hu h => exact .inr (.inl ⟨hd, hu, h⟩)
      | unix path hd h => exact .inr (.inr ⟨path, hd, h⟩)
  | cons pair rest =>
    simp only [List.isEmpty_cons, Bool.false_eq_true, if_false, Option.map_eq_some_iff] at ha
    obtain ⟨entries, hm, rfl⟩ := ha
    have hmem := mem_of_mapM hm
    have hnamed : DestinationNamed (pair :: rest) remote ↔
        remote.protocol.isReverseTunnel = false ∧ RestrictToNames (pair :: rest) remote :=
      ⟨fun h => h.1 (List.cons_ne_nil _ _), fun h => ⟨fun _ => h, fun hc => by cases hc⟩⟩
    rw [hnamed]
    refine ⟨?_, ?_⟩
    · intro ⟨e, he, hallow⟩
      obtain ⟨l, hl, hel⟩ := List.mem_flatten.mp he
      obtain ⟨⟨host, port⟩, hpair, hentry⟩ := (hmem l).mp hl
      obtain ⟨hd, hp, hdest⟩ :=
        (restrictToEntry_allows M hre hcidr hentry hhost).mp ⟨e, hel, hallow⟩
      exact ⟨hd, host, port, hpair, hp, hdest⟩
    · intro ⟨hd, host, port, hpair, hp, hdest⟩
      obtain ⟨l, hl, hentry⟩ := exists_of_mapM hm hpair
      obtain ⟨e, hel, hallow⟩ :=
        (restrictToEntry_allows M hre hcidr hentry hhost).mpr ⟨hd, hp, hdest⟩
      exact ⟨e, List.mem_flatten.mpr ⟨l, hl, hel⟩, hallow⟩

/-! ## The compiled rules -/

theorem pathRule_admits (hre : M.RegexSpec) {allow : List AllowConfig} {p : String}
    {r : RestrictionConfig} (hr : pathRule M allow p = some r) (remote : RemoteAddr)
    (pathPrefix : String) (auth : Option String) :
    r.Admits M remote pathPrefix auth ↔
      pathPrefix = p ∧ ∃ e ∈ allow, e.isAllowed M remote = true := by
  simp only [pathRule, Option.bind_eq_bind, Option.bind_eq_some_iff, Option.pure_def,
    Option.some.injEq] at hr
  obtain ⟨re, hnew, rfl⟩ := hr
  obtain rfl := regex_new_eq_some M hnew
  rw [admits_iff, Bool.and_eq_true, List.any_eq_true]
  simp only [RestrictionConfig.filter, List.all_cons, List.all_nil, Bool.and_true,
    MatchConfig.holds, hre.literal]

theorem allowAll_admits (allow : List AllowConfig) (remote : RemoteAddr) (pathPrefix : String)
    (auth : Option String) :
    RestrictionConfig.Admits M ⟨"Allow All", [.any], allow⟩ remote pathPrefix auth ↔
      ∃ e ∈ allow, e.isAllowed M remote = true := by
  rw [admits_iff, Bool.and_eq_true, List.any_eq_true]
  simp [RestrictionConfig.filter, MatchConfig.holds]

/-- The rules are one that matches any path, or one per prefix. -/
theorem fromPathPrefix_cases {pathPrefixes : List String} {restrictTo : List (String × UInt16)}
    {rules : RestrictionsRules} (hr : fromPathPrefix M pathPrefixes restrictTo = some rules) :
    ∃ allow, tunnelsRestrictions M restrictTo = some allow ∧
      ((pathPrefixes = [] ∧ rules.restrictions = [⟨"Allow All", [.any], allow⟩]) ∨
        (pathPrefixes ≠ [] ∧ pathPrefixes.mapM (pathRule M allow) = some rules.restrictions)) := by
  simp only [fromPathPrefix, Option.bind_eq_bind, Option.bind_eq_some_iff] at hr
  obtain ⟨allow, ha, hr⟩ := hr
  refine ⟨allow, ha, ?_⟩
  cases pathPrefixes with
  | nil => obtain rfl := Option.some.inj hr; exact .inl ⟨rfl, rfl⟩
  | cons p ps =>
    simp only [List.isEmpty_cons, Bool.false_eq_true, if_false, Option.bind_eq_some_iff,
      Option.pure_def, Option.some.injEq] at hr
    obtain ⟨rs, hrs, rfl⟩ := hr
    exact .inr ⟨List.cons_ne_nil _ _, hrs⟩

theorem validateTunnel_isSome_iff (remote : RemoteAddr) (pathPrefix : String) (auth : Option String)
    (rules : RestrictionsRules) :
    (validateTunnel M remote pathPrefix auth rules).isSome = true ↔
      ∃ r ∈ rules.restrictions, r.Admits M remote pathPrefix auth := by
  rw [Option.isSome_iff_ne_none, ne_eq, validateTunnel_eq_none]
  simp only [not_forall, not_not, exists_prop]

/-- The rule of the first prefix equal to `pathPrefix`: the only rule when no
prefix is configured. -/
def RuleOfFirstPrefix (pathPrefixes : List String) (rules : RestrictionsRules) (pathPrefix : String)
    (r : RestrictionConfig) : Prop :=
  (pathPrefixes = [] ∧ rules.restrictions = [r]) ∨
  ∃ before after, pathPrefixes = before ++ pathPrefix :: after ∧ pathPrefix ∉ before ∧
    rules.restrictions[before.length]? = some r

theorem ruleOfFirstPrefix_of_mapM (hre : M.RegexSpec) {pathPrefixes : List String}
    {allow : List AllowConfig} {rules : RestrictionsRules}
    (hm : pathPrefixes.mapM (pathRule M allow) = some rules.restrictions) {remote : RemoteAddr}
    {pathPrefix : String} {auth : Option String} {r : RestrictionConfig}
    (hv : FirstAdmitting M rules remote pathPrefix auth r) :
    RuleOfFirstPrefix pathPrefixes rules pathPrefix r := by
  obtain ⟨before, after, hrules, hadm, hbefore⟩ := hv
  have hmap := mapM_eq_some_iff.mp hm
  rw [hrules, List.map_append, List.map_cons, List.map_eq_append_iff] at hmap
  obtain ⟨ps, qs, rfl, hps, hqs⟩ := hmap
  obtain ⟨p, qs, rfl, hp, -⟩ := List.map_eq_cons_iff.mp hqs
  obtain ⟨rfl, hallow⟩ := (pathRule_admits M hre hp remote pathPrefix auth).mp hadm
  have hlen : ps.length = before.length := by
    have := congrArg List.length hps
    simpa using this
  refine .inr ⟨ps, qs, rfl, fun hmem => ?_, ?_⟩
  · -- an earlier equal prefix would have an earlier rule that admits
    obtain ⟨r', hr', hrule⟩ := exists_of_mapM (mapM_eq_some_iff.mpr hps) hmem
    exact hbefore r' hr' ((pathRule_admits M hre hrule remote pathPrefix auth).mpr ⟨rfl, hallow⟩)
  · rw [hrules, hlen, List.getElem?_append_right (Nat.le_refl _), Nat.sub_self]; rfl

/-- The compiled rules admit a request exactly when its prefix is one of those
configured (or none is) and its destination is named. -/
theorem isSome_validateTunnel_fromPathPrefix (hre : M.RegexSpec) (hcidr : M.CidrSpec)
    {pathPrefixes : List String} {restrictTo : List (String × UInt16)} {rules : RestrictionsRules}
    (hr : fromPathPrefix M pathPrefixes restrictTo = some rules) {remote : RemoteAddr}
    (hhost : remote.host ≠ .domain "") (pathPrefix : String) (auth : Option String) :
    (validateTunnel M remote pathPrefix auth rules).isSome = true ↔
      (pathPrefixes = [] ∨ pathPrefix ∈ pathPrefixes) ∧ DestinationNamed restrictTo remote := by
  obtain ⟨allow, ha, hrules⟩ := fromPathPrefix_cases M hr
  rw [validateTunnel_isSome_iff, ← tunnelsRestrictions_allows M hre hcidr ha hhost]
  rcases hrules with ⟨hnil, hrules⟩ | ⟨hne, hm⟩
  · simp [hrules, hnil, allowAll_admits]
  · simp only [hne, false_or]
    refine ⟨?_, ?_⟩
    · intro ⟨r, hmem, hadm⟩
      obtain ⟨p, hp, hrule⟩ := (mem_of_mapM hm r).mp hmem
      obtain ⟨rfl, hallow⟩ := (pathRule_admits M hre hrule remote pathPrefix auth).mp hadm
      exact ⟨hp, hallow⟩
    · intro ⟨hp, hallow⟩
      obtain ⟨r, hmem, hrule⟩ := exists_of_mapM hm hp
      exact ⟨r, hmem, (pathRule_admits M hre hrule remote pathPrefix auth).mpr ⟨rfl, hallow⟩⟩

/-- **Command line.** The compiled rules admit a request exactly when its
prefix is one of those configured (or none is) and its destination is named;
the rule returned is that of the first prefix equal to the request's. -/
theorem fromPathPrefix_validateTunnel (hre : M.RegexSpec) (hcidr : M.CidrSpec)
    {pathPrefixes : List String} {restrictTo : List (String × UInt16)} {rules : RestrictionsRules}
    (hr : fromPathPrefix M pathPrefixes restrictTo = some rules) (remote : RemoteAddr)
    (hhost : remote.host ≠ .domain "") (pathPrefix : String) (auth : Option String) :
    ((validateTunnel M remote pathPrefix auth rules).isSome = true ↔
      (pathPrefixes = [] ∨ pathPrefix ∈ pathPrefixes) ∧ DestinationNamed restrictTo remote) ∧
    ∀ r, validateTunnel M remote pathPrefix auth rules = some r →
      RuleOfFirstPrefix pathPrefixes rules pathPrefix r := by
  refine ⟨isSome_validateTunnel_fromPathPrefix M hre hcidr hr hhost pathPrefix auth, fun r hv => ?_⟩
  obtain ⟨allow, ha, hrules⟩ := fromPathPrefix_cases M hr
  rcases hrules with ⟨hnil, hrules⟩ | ⟨hne, hm⟩
  · have hmem : r ∈ rules.restrictions := by
      obtain ⟨before, after, he, -⟩ := (validateTunnel_eq_some M).mp hv
      rw [he]
      simp
    rw [hrules, List.mem_singleton] at hmem
    exact .inl ⟨hnil, by rw [hrules, hmem]⟩
  · exact ruleOfFirstPrefix_of_mapM M hre hm ((validateTunnel_eq_some M).mp hv)

/-! ## An engine that meets the assumptions -/

/-- Reads an escaped text back. -/
def unescape : List Char → List Char
  | '\\' :: c :: rest => c :: unescape rest
  | c :: rest => c :: unescape rest
  | [] => []

theorem unescape_flatMap : ∀ cs : List Char, unescape (cs.flatMap escapeChar) = cs
  | [] => rfl
  | c :: cs => by
    rw [List.flatMap_cons, escapeChar]
    split
    · simp only [List.cons_append, List.nil_append, unescape, unescape_flatMap cs]
    · rename_i hc
      have hne : c ≠ '\\' := fun he => hc (he ▸ by decide)
      rw [List.singleton_append, unescape, unescape_flatMap cs]
      rintro c' rest rfl
      exact absurd rfl hne

theorem escape_injective {s t : String}
    (h : s.toList.flatMap escapeChar = t.toList.flatMap escapeChar) : s = t := by
  have := congrArg unescape h
  rw [unescape_flatMap, unescape_flatMap] at this
  exact String.toList_inj.mp this

/-- No text escapes to `.*`: a `.` comes out behind a backslash. -/
theorem flatMap_escapeChar_ne_dotStar (cs : List Char) : cs.flatMap escapeChar ≠ ['.', '*'] := by
  intro h
  have hcs : cs = ['.', '*'] := by rw [← unescape_flatMap cs, h]; rfl
  rw [hcs] at h
  exact absurd h (by decide)

theorem anchored_inj {cs ds : List Char} :
    "^" ++ String.ofList cs ++ "$" = "^" ++ String.ofList ds ++ "$" ↔ cs = ds := by
  rw [← String.toList_inj]
  simp only [String.toList_append, String.toList_ofList]
  rw [List.append_left_inj, List.append_right_inj]

theorem anchoredMatchers_regexSpec : anchoredMatchers.RegexSpec where
  escape_empty := by decide
  literal s t := by
    have hne : "^" ++ anchoredMatchers.escape s ++ "$" ≠ "^.*$" := fun h =>
      flatMap_escapeChar_ne_dotStar s.toList (anchored_inj.mp h)
    simp only [anchoredMatchers] at hne ⊢
    rw [if_neg hne, beq_iff_eq, anchored_inj]
    exact ⟨fun h => (escape_injective h).symm, fun h => by rw [h]⟩
  anyLine t := by simp [anchoredMatchers]

theorem anchoredMatchers_cidrSpec : anchoredMatchers.CidrSpec := fun _ _ => rfl

/-- `--restrict-http-upgrade-path-prefix tenant.a --restrict-to 10.0.0.1:443`
admits the named destination under the named prefix. -/
theorem fromPathPrefix_tenant_restrictTo :
    let rules : RestrictionsRules := ⟨[⟨"Allow path prefix tenant.a",
      [.pathPrefix ⟨"^tenant\\.a$"⟩],
      [.tunnel ⟨[], [⟨443, 443⟩], ⟨"^$"⟩, [⟨.v4 0x0A000001, 32, by decide⟩]⟩]⟩]⟩
    let remote : RemoteAddr := ⟨.tcp false, .ipv4 0x0A000001, 443⟩
    fromPathPrefix anchoredMatchers ["tenant.a"] [("10.0.0.1", 443)] = some rules ∧
      remote.host ≠ .domain "" ∧
      (validateTunnel anchoredMatchers remote "tenant.a" none rules).isSome = true := by
  intro rules remote
  have hr : fromPathPrefix anchoredMatchers ["tenant.a"] [("10.0.0.1", 443)] = some rules := by
    decide
  refine ⟨hr, by decide, ?_⟩
  refine ((fromPathPrefix_validateTunnel anchoredMatchers anchoredMatchers_regexSpec
    anchoredMatchers_cidrSpec hr remote (by decide) "tenant.a" none).1).mpr
      ⟨.inr (by decide), fun _ => ⟨rfl, "10.0.0.1", 443, by decide, rfl, .inl ⟨.v4 0x0A000001, ?_, rfl⟩⟩,
        fun h => by cases h⟩
  decide

end Wstunnel.L2
