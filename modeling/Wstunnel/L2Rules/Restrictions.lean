import Wstunnel.L1Encoding.Tunnel

/-!
# Restriction rules and `validate_tunnel`

`restrictions/types.rs` and the part of `tunnel/server/utils.rs` that
decides whether a request is admitted. A rule (`RestrictionConfig`) applies
when all its matchers hold, and admits a destination when one of its allow
entries does; `validateTunnel` returns the first rule that does both.

**Third-party code.** The `regex` and `ipnet` crates are the parameter `Matchers`: a
pattern is its text, and `isMatch` and `cidrContains` may be any functions. What the
crates document of them is `Matchers.RegexSpec` and `Matchers.CidrSpec`, assumed only
where a result needs it.

**Results.**
* `validateTunnel_eq_some`, `validateTunnel_eq_none`: the rule returned is
  the first one, in list order, that matches and admits.
* `AllowTunnelConfig.isAllowed_iff`, `AllowReverseTunnelConfig.isAllowed_iff`:
  the two entry checks as conjunctions of their filters.
* `reverse_isAllowed_documented_iff`: the reverse entry check means what
  `restrictions.yaml` documents exactly when it is not asked about a unix
  tunnel whose protocol the entry does not list: the check for unix tunnels
  returns before the protocol filter.
-/
namespace Wstunnel.L2

open Wstunnel.L1

/-! ## Third-party matching -/

/-- A compiled `regex::Regex`, given by its pattern text. -/
structure Regex where
  pattern : String
  deriving DecidableEq, Repr

/-- The functions of the `regex` and `ipnet` crates that the rules use. -/
structure Matchers where
  compiles : String → Bool
  escape : String → String
  isMatch : Regex → String → Bool
  cidrContains : IpNet → IpAddr → Bool

/-- `Regex::new`. -/
def Regex.new (M : Matchers) (pattern : String) : Option Regex :=
  if M.compiles pattern then some ⟨pattern⟩ else none

/-- `regex::escape` between anchors matches exactly the escaped text, and
`^.*$` exactly the texts without a newline. -/
structure Matchers.RegexSpec (M : Matchers) : Prop where
  escape_empty : M.escape "" = ""
  literal : ∀ s t, M.isMatch ⟨"^" ++ M.escape s ++ "$"⟩ t = true ↔ t = s
  anyLine : ∀ t, M.isMatch ⟨"^.*$"⟩ t = true ↔ '\n' ∉ t.toList

/-- `IpNet::contains`: same family and equal network bits. -/
def Matchers.CidrSpec (M : Matchers) : Prop := ∀ net ip, M.cidrContains net ip = net.covers ip

/-- The characters `regex::escape` puts a backslash before. -/
def metaChars : List Char :=
  ['\\', '.', '+', '*', '?', '(', ')', '|', '[', ']', '{', '}', '^', '$', '#', '&', '-', '~']

def escapeChar (c : Char) : List Char := if c ∈ metaChars then ['\\', c] else [c]

/-- An engine that is exact on the patterns the command line builds: `^.*$`
and an escaped text between anchors. -/
def anchoredMatchers : Matchers where
  compiles _ := true
  escape s := String.ofList (s.toList.flatMap escapeChar)
  isMatch re t :=
    if re.pattern = "^.*$" then !t.toList.contains '\n'
    else re.pattern == "^" ++ String.ofList (t.toList.flatMap escapeChar) ++ "$"
  cidrContains net ip := net.covers ip

/-! ## The rules -/

/-- `RangeInclusive<u16>`. -/
structure PortRange where
  first : UInt16
  last : UInt16
  deriving DecidableEq, Repr

def PortRange.contains (r : PortRange) (port : UInt16) : Bool := r.first ≤ port && port ≤ r.last

/-- mirrors wstunnel/src/restrictions/types.rs:75-80 -/
inductive TunnelConfigProtocol where
  | tcp | udp | unknown
  deriving DecidableEq, Repr

/-- mirrors wstunnel/src/restrictions/types.rs:82-90 -/
inductive ReverseTunnelConfigProtocol where
  | tcp | udp | socks5 | unix | httpProxy | unknown
  deriving DecidableEq, Repr

/-- mirrors wstunnel/src/restrictions/types.rs:159-178 -/
def ReverseTunnelConfigProtocol.from : LocalProtocol → ReverseTunnelConfigProtocol
  | .tcp _ | .udp _ | .stdio _ | .tunnelStdio _ _ | .socks5 _ _ | .tproxyTcp | .tproxyUdp _
  | .httpProxy _ _ _ | .unix _ _ => .unknown
  | .reverseTcp => .tcp
  | .reverseUdp _ => .udp
  | .reverseSocks5 _ _ => .socks5
  | .reverseUnix _ => .unix
  | .reverseHttpProxy _ _ => .httpProxy

/-- mirrors wstunnel/src/restrictions/types.rs:179-198 -/
def TunnelConfigProtocol.from : LocalProtocol → TunnelConfigProtocol
  | .reverseTcp | .reverseUdp _ | .reverseSocks5 _ _ | .reverseUnix _ | .stdio _ | .tunnelStdio _ _
  | .socks5 _ _ | .tproxyTcp | .tproxyUdp _ | .httpProxy _ _ _ | .reverseHttpProxy _ _
  | .unix _ _ => .unknown
  | .tcp _ => .tcp
  | .udp _ => .udp

/-- mirrors wstunnel/src/restrictions/types.rs:37-52 -/
structure AllowTunnelConfig where
  protocol : List TunnelConfigProtocol
  port : List PortRange
  host : Regex
  cidr : List IpNet
  deriving DecidableEq, Repr

/-- `port_mapping` is a `HashMap<u16, u16>`, read with `List.lookup`.
mirrors wstunnel/src/restrictions/types.rs:54-73 -/
structure AllowReverseTunnelConfig where
  protocol : List ReverseTunnelConfigProtocol
  port : List PortRange
  portMapping : List (UInt16 × UInt16)
  cidr : List IpNet
  unixPath : Regex
  deriving DecidableEq, Repr

/-- mirrors wstunnel/src/restrictions/types.rs:30-35 -/
inductive AllowConfig where
  | reverseTunnel (config : AllowReverseTunnelConfig)
  | tunnel (config : AllowTunnelConfig)
  deriving DecidableEq, Repr

/-- mirrors wstunnel/src/restrictions/types.rs:21-28 -/
inductive MatchConfig where
  | any
  | pathPrefix (path : Regex)
  | authorization (auth : Regex)
  deriving DecidableEq, Repr

/-- mirrors wstunnel/src/restrictions/types.rs:13-19 -/
structure RestrictionConfig where
  name : String
  matchers : List MatchConfig
  allow : List AllowConfig
  deriving DecidableEq, Repr

/-- mirrors wstunnel/src/restrictions/types.rs:8-11 -/
structure RestrictionsRules where
  restrictions : List RestrictionConfig
  deriving DecidableEq, Repr

/-- mirrors wstunnel/src/restrictions/types.rs:92-94 -/
def defaultHost : Regex := ⟨"^.*$"⟩

/-- mirrors wstunnel/src/restrictions/types.rs:96-98 -/
def defaultCidr : List IpNet := [IpNet.defaultV4, IpNet.defaultV6]

/-! ## The decision -/

variable (M : Matchers)

def MatchConfig.holds (pathPrefix : String) (authorization : Option String) : MatchConfig → Bool
  | .any => true
  | .pathPrefix path => M.isMatch path pathPrefix
  | .authorization auth => match authorization with
    | some val => M.isMatch auth val
    | none => false

/-- mirrors wstunnel/src/tunnel/server/utils.rs:113-123 -/
def RestrictionConfig.filter (r : RestrictionConfig) (pathPrefix : String)
    (authorization : Option String) : Bool :=
  r.matchers.all (MatchConfig.holds M pathPrefix authorization)

/-- The port filter shared by both kinds of entry: an empty list admits
every port. -/
def portAllowed (ranges : List PortRange) (port : UInt16) : Bool :=
  ranges.isEmpty || ranges.any (·.contains port)

/-- The CIDR test on an IP host. -/
def cidrAllowed (cidr : List IpNet) (ip : IpAddr) : Bool := cidr.any (M.cidrContains · ip)

/-- mirrors wstunnel/src/tunnel/server/utils.rs:125-157 -/
def AllowReverseTunnelConfig.isAllowed (c : AllowReverseTunnelConfig) (remote : RemoteAddr) : Bool :=
  if !remote.protocol.isReverseTunnel then false
  else match remote.protocol with
    | .reverseUnix path => M.isMatch c.unixPath (path.toStr.getD "####INVALID_UNIX_PATH####")
    | _ =>
      if !c.port.isEmpty && !c.port.any (·.contains remote.port) then false
      else if !c.protocol.isEmpty && !c.protocol.contains (.from remote.protocol) then false
      else match remote.host with
        | .domain _ => false
        | .ipv4 ip => cidrAllowed M c.cidr (.v4 ip)
        | .ipv6 ip => cidrAllowed M c.cidr (.v6 ip)

/-- mirrors wstunnel/src/tunnel/server/utils.rs:159-180 -/
def AllowTunnelConfig.isAllowed (c : AllowTunnelConfig) (remote : RemoteAddr) : Bool :=
  if remote.protocol.isReverseTunnel then false
  else if !c.port.isEmpty && !c.port.any (·.contains remote.port) then false
  else if !c.protocol.isEmpty && !c.protocol.contains (.from remote.protocol) then false
  else match remote.host with
    | .domain host => M.isMatch c.host host
    | .ipv4 ip => cidrAllowed M c.cidr (.v4 ip)
    | .ipv6 ip => cidrAllowed M c.cidr (.v6 ip)

/-- mirrors wstunnel/src/tunnel/server/utils.rs:182-190 -/
def AllowConfig.isAllowed (remote : RemoteAddr) : AllowConfig → Bool
  | .reverseTunnel config => config.isAllowed M remote
  | .tunnel config => config.isAllowed M remote

/-- mirrors wstunnel/src/tunnel/server/utils.rs:201-212 -/
def validateTunnel (remote : RemoteAddr) (pathPrefix : String) (authorization : Option String)
    (rules : RestrictionsRules) : Option RestrictionConfig :=
  (rules.restrictions.filter fun r => r.filter M pathPrefix authorization).find?
    fun r => r.allow.any (·.isAllowed M remote)

/-! ## What the search returns -/

/-- All matchers of the rule hold and one of its entries admits `remote`. -/
structure RestrictionConfig.Admits (r : RestrictionConfig) (remote : RemoteAddr)
    (pathPrefix : String) (authorization : Option String) : Prop where
  matched : ∀ m ∈ r.matchers, m.holds M pathPrefix authorization = true
  allowed : ∃ a ∈ r.allow, a.isAllowed M remote = true

theorem admits_iff (r : RestrictionConfig) (remote : RemoteAddr) (pathPrefix : String)
    (auth : Option String) :
    r.Admits M remote pathPrefix auth ↔
      (r.filter M pathPrefix auth && r.allow.any (·.isAllowed M remote)) = true := by
  rw [Bool.and_eq_true, RestrictionConfig.filter, List.all_eq_true, List.any_eq_true]
  exact ⟨fun h => ⟨h.matched, h.allowed⟩, fun h => ⟨h.1, h.2⟩⟩

/-- `r` is the first rule of the list that admits `remote`. -/
def FirstAdmitting (rules : RestrictionsRules) (remote : RemoteAddr) (pathPrefix : String)
    (auth : Option String) (r : RestrictionConfig) : Prop :=
  ∃ before after, rules.restrictions = before ++ r :: after ∧
    r.Admits M remote pathPrefix auth ∧ ∀ r' ∈ before, ¬ r'.Admits M remote pathPrefix auth

theorem validateTunnel_eq_find? (remote : RemoteAddr) (pathPrefix : String) (auth : Option String)
    (rules : RestrictionsRules) :
    validateTunnel M remote pathPrefix auth rules =
      rules.restrictions.find? fun r =>
        r.filter M pathPrefix auth && r.allow.any (·.isAllowed M remote) := by
  unfold validateTunnel
  rw [List.find?_filter]
  simp only [Bool.decide_and, Bool.decide_eq_true]

theorem validateTunnel_eq_some {remote : RemoteAddr} {pathPrefix : String} {auth : Option String}
    {rules : RestrictionsRules} {r : RestrictionConfig} :
    validateTunnel M remote pathPrefix auth rules = some r ↔
      FirstAdmitting M rules remote pathPrefix auth r := by
  rw [validateTunnel_eq_find?, List.find?_eq_some_iff_append]
  refine ⟨?_, ?_⟩
  · intro ⟨hr, before, after, he, hb⟩
    refine ⟨before, after, he, (admits_iff M r remote pathPrefix auth).mpr hr, fun r' hr' h => ?_⟩
    have := hb r' hr'
    rw [(admits_iff M r' remote pathPrefix auth).mp h] at this
    cases this
  · intro ⟨before, after, he, hr, hb⟩
    refine ⟨(admits_iff M r remote pathPrefix auth).mp hr, before, after, he, fun r' hr' => ?_⟩
    cases hc : (r'.filter M pathPrefix auth && r'.allow.any (·.isAllowed M remote)) with
    | false => rfl
    | true => exact absurd ((admits_iff M r' remote pathPrefix auth).mpr hc) (hb r' hr')

theorem validateTunnel_eq_none {remote : RemoteAddr} {pathPrefix : String} {auth : Option String}
    {rules : RestrictionsRules} :
    validateTunnel M remote pathPrefix auth rules = none ↔
      ∀ r ∈ rules.restrictions, ¬ r.Admits M remote pathPrefix auth := by
  rw [validateTunnel_eq_find?, List.find?_eq_none]
  simp only [admits_iff]

/-! ## The entry checks as conjunctions -/

theorem portAllowed_iff (ranges : List PortRange) (port : UInt16) :
    portAllowed ranges port = true ↔ ranges = [] ∨ ∃ r ∈ ranges, r.contains port = true := by
  simp [portAllowed]

theorem cidrAllowed_iff (cidr : List IpNet) (ip : IpAddr) :
    cidrAllowed M cidr ip = true ↔ ∃ net ∈ cidr, M.cidrContains net ip = true := by
  simp [cidrAllowed]

/-- The guard `if !list.is_empty() && !test { return false }` of the source. -/
theorem guarded_iff {empty test b : Bool} :
    (if (!empty && !test) = true then false else b) = true ↔
      (empty = true ∨ test = true) ∧ b = true := by
  cases empty <;> cases test <;> simp

theorem AllowTunnelConfig.isAllowed_iff (c : AllowTunnelConfig) (remote : RemoteAddr) :
    c.isAllowed M remote = true ↔
      remote.protocol.isReverseTunnel = false ∧ portAllowed c.port remote.port = true ∧
        (c.protocol = [] ∨ TunnelConfigProtocol.from remote.protocol ∈ c.protocol) ∧
        ((∃ d, remote.host = .domain d ∧ M.isMatch c.host d = true) ∨
          ∃ ip, remote.host.ip? = some ip ∧ cidrAllowed M c.cidr ip = true) := by
  unfold AllowTunnelConfig.isAllowed portAllowed
  cases remote.protocol.isReverseTunnel
  · simp only [Bool.false_eq_true, if_false, guarded_iff, true_and, Bool.or_eq_true,
      List.isEmpty_iff, List.contains_iff_mem]
    cases remote.host <;> simp [Host.ip?]
  · simp

theorem AllowReverseTunnelConfig.isAllowed_unix (c : AllowReverseTunnelConfig) {remote : RemoteAddr}
    {path : PathBuf} (h : remote.protocol = .reverseUnix path) :
    c.isAllowed M remote = M.isMatch c.unixPath path.text := by
  simp [AllowReverseTunnelConfig.isAllowed, h, LocalProtocol.isReverseTunnel, PathBuf.toStr]

theorem AllowReverseTunnelConfig.isAllowed_iff (c : AllowReverseTunnelConfig) {remote : RemoteAddr}
    (hu : ∀ path, remote.protocol ≠ .reverseUnix path) :
    c.isAllowed M remote = true ↔
      remote.protocol.isReverseTunnel = true ∧ portAllowed c.port remote.port = true ∧
        (c.protocol = [] ∨ ReverseTunnelConfigProtocol.from remote.protocol ∈ c.protocol) ∧
        ∃ ip, remote.host.ip? = some ip ∧ cidrAllowed M c.cidr ip = true := by
  obtain ⟨proto, host, port⟩ := remote
  unfold AllowReverseTunnelConfig.isAllowed portAllowed
  cases proto with
  | reverseUnix path => exact absurd rfl (hu path)
  | _ =>
    simp only [LocalProtocol.isReverseTunnel, Bool.not_true, Bool.not_false, Bool.false_eq_true,
      if_true, if_false, false_and, guarded_iff, true_and, Bool.or_eq_true, List.isEmpty_iff,
      List.contains_iff_mem] <;>
    cases host <;> simp [Host.ip?]

/-! ## The documented meaning of a reverse entry -/

/-- What `restrictions.yaml` says a `!ReverseTunnel` entry admits: a reverse
protocol that the entry lists (an empty list is all of them), and then the
path of a unix tunnel, or the port and the address of the others. -/
structure AllowReverseTunnelConfig.Documented (c : AllowReverseTunnelConfig) (remote : RemoteAddr) :
    Prop where
  reverse : remote.protocol.isReverseTunnel = true
  protocol : c.protocol = [] ∨ ReverseTunnelConfigProtocol.from remote.protocol ∈ c.protocol
  address :
    (∃ path, remote.protocol = .reverseUnix path ∧ M.isMatch c.unixPath path.text = true) ∨
    ((∀ path, remote.protocol ≠ .reverseUnix path) ∧
      (c.port = [] ∨ ∃ r ∈ c.port, r.contains remote.port = true) ∧
      ∃ ip, remote.host.ip? = some ip ∧ ∃ net ∈ c.cidr, M.cidrContains net ip = true)

/-- `validate_tunnel` never admits a unix tunnel through the entry `c` when
`c` lists protocols and `Unix` is not among them. -/
def AllowReverseTunnelConfig.NeverAdmitsUnlistedUnix (c : AllowReverseTunnelConfig)
    (remote : RemoteAddr) : Prop :=
  (∃ path, remote.protocol = .reverseUnix path) → c.protocol ≠ [] →
    ReverseTunnelConfigProtocol.unix ∉ c.protocol →
    ∀ rules pathPrefix auth r, validateTunnel M remote pathPrefix auth rules = some r →
      AllowConfig.reverseTunnel c ∈ r.allow → c.isAllowed M remote = false

/-- The inputs on which the early return for unix tunnels skips a protocol
filter that would have refused: the entry lists protocols, not `Unix`, and
its `unix_path` matches. -/
def AllowReverseTunnelConfig.UnlistedUnix (c : AllowReverseTunnelConfig) (remote : RemoteAddr) : Prop :=
  ∃ path, remote.protocol = .reverseUnix path ∧ c.protocol ≠ [] ∧
    ReverseTunnelConfigProtocol.unix ∉ c.protocol ∧ M.isMatch c.unixPath path.text = true

theorem documented_of_isAllowed {c : AllowReverseTunnelConfig} {remote : RemoteAddr}
    (hn : ¬ c.UnlistedUnix M remote) (h : c.isAllowed M remote = true) :
    c.Documented M remote := by
  by_cases hu : ∃ path, remote.protocol = .reverseUnix path
  · obtain ⟨path, hp⟩ := hu
    have hm := h
    rw [c.isAllowed_unix M hp] at hm
    refine ⟨by rw [hp]; rfl, ?_, .inl ⟨path, hp, hm⟩⟩
    rw [hp]
    by_contra hc
    rw [not_or] at hc
    exact hn ⟨path, hp, hc.1, hc.2, hm⟩
  · have hu' : ∀ path, remote.protocol ≠ .reverseUnix path := fun path hp => hu ⟨path, hp⟩
    obtain ⟨hrev, hport, hproto, ip, hip, hcidr⟩ := (c.isAllowed_iff M hu').mp h
    exact ⟨hrev, hproto, .inr ⟨hu', (portAllowed_iff _ _).mp hport, ip, hip,
      (cidrAllowed_iff M _ _).mp hcidr⟩⟩

/-- A rule that admits everything its one reverse entry does. -/
def soleEntry (c : AllowReverseTunnelConfig) : RestrictionConfig := ⟨"", [.any], [.reverseTunnel c]⟩

theorem validateTunnel_soleEntry {c : AllowReverseTunnelConfig} {remote : RemoteAddr}
    (h : c.isAllowed M remote = true) (pathPrefix : String) (auth : Option String) :
    validateTunnel M remote pathPrefix auth ⟨[soleEntry c]⟩ = some (soleEntry c) := by
  rw [validateTunnel_eq_some]
  refine ⟨[], [], rfl, ⟨?_, ⟨_, List.mem_singleton.mpr rfl, h⟩⟩, by simp⟩
  intro m hm
  rw [List.mem_singleton.mp hm]
  rfl

/-- **Reverse entries.** A reverse entry admits only what `restrictions.yaml`
documents, alone and through `validate_tunnel`, exactly when the request is
not a unix tunnel that the entry's protocol list leaves out while its
`unix_path` matches. -/
theorem reverse_isAllowed_documented_iff (c : AllowReverseTunnelConfig) (remote : RemoteAddr) :
    ((c.isAllowed M remote = true → c.Documented M remote) ∧ c.NeverAdmitsUnlistedUnix M remote) ↔
      ¬ c.UnlistedUnix M remote := by
  refine ⟨?_, ?_⟩
  · rintro ⟨-, hv⟩ ⟨path, hp, hne, hnot, hm⟩
    have hallow : c.isAllowed M remote = true := by rw [c.isAllowed_unix M hp, hm]
    have := hv ⟨path, hp⟩ hne hnot ⟨[soleEntry c]⟩ "" none (soleEntry c)
      (validateTunnel_soleEntry M hallow "" none) (List.mem_singleton.mpr rfl)
    rw [hallow] at this; cases this
  · intro hn
    refine ⟨documented_of_isAllowed M hn, ?_⟩
    rintro ⟨path, hp⟩ hne hnot rules pathPrefix auth r - -
    cases hc : c.isAllowed M remote with
    | false => rfl
    | true => exact absurd ⟨path, hp, hne, hnot, by rw [← c.isAllowed_unix M hp, hc]⟩ hn

/-- `192.168.0.0/16`, the lan of `restrictions.yaml`. -/
def lanNet : IpNet := ⟨.v4 0xC0A80000, 16, by decide⟩

/-- The entry of example 3 of `restrictions.yaml`: "Only allow socks5 reverse
tunnels listening on port between 1080..1443 on lan network". -/
def socks5OnLan : AllowReverseTunnelConfig where
  protocol := [.socks5]
  port := [⟨1080, 1443⟩]
  portMapping := []
  cidr := [lanNet]
  unixPath := defaultHost

def unixRequest : RemoteAddr := ⟨.reverseUnix ⟨"/var/run/docker.sock"⟩, .ipv4 0x7F000001, 0⟩

/-- The socks5-only entry admits a unix socket. -/
theorem socks5OnLan_admits_unix :
    socks5OnLan.isAllowed anchoredMatchers unixRequest = true ∧
      ¬ socks5OnLan.Documented anchoredMatchers unixRequest ∧
      ¬ socks5OnLan.NeverAdmitsUnlistedUnix anchoredMatchers unixRequest := by
  have hallow : socks5OnLan.isAllowed anchoredMatchers unixRequest = true := by decide
  refine ⟨hallow, fun h => absurd h.protocol (by decide), fun h => ?_⟩
  have := h ⟨_, rfl⟩ (by decide) (by decide) ⟨[soleEntry socks5OnLan]⟩ "" none _
    (validateTunnel_soleEntry anchoredMatchers hallow "" none) (List.mem_singleton.mpr rfl)
  rw [hallow] at this; cases this

end Wstunnel.L2
