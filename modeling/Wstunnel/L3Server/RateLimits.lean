import Wstunnel.L3Server.Admission
import Wstunnel.L3Server.RateLimiter

/-!
# Which limits a connection gets

`handle_tunnel_request` wraps the streams of a `TunnelStdio` tunnel under its
UUID when the resolver's answer carries a limit. The pool builds the limiters
of an id once, from the first such answer, and keeps them.

**Third-party code.** The rate of a limiter is the number that `build_limiter` hands to
`governor`'s `Quota::per_second`; how fast `governor` grants is not looked at here. The
resolver and the other side of the network answer anything (`World`), the parsers of
third-party formats are parameters (`Parsers`).

**Results.**
* `limitedAs_iff`: in every sequence of connections, each of them with its
  own resolver and rules, a connection is limited as its own answer says
  exactly when the answer carries no limit at all, or its limits are those of
  the first limited answer for the id and neither of them is 0.
* `changedAnswer_keeps_limits`: the answer for an id changes.
-/
namespace Wstunnel.L3.Rate

open Wstunnel.L1 Wstunnel.L2

/-- Everything that the handling of one request depends on. -/
structure Connection where
  world : World
  restrictions : RestrictionsRules
  restrictPathPrefix : Option String
  clientAddr : SocketAddr
  req : Request

variable (M : Matchers) (W : Parsers) (cfg : WsServerConfig)

/-- The end of `handle_tunnel_request`.
mirrors wstunnel/src/tunnel/server/server.rs:192-206 -/
def limitTunnel (pool : RateLimiterPool Uuid) (tunnel : Tunnel) :
    RateLimiterPool Uuid × DirectionalLimiters :=
  match tunnel.rateLimit with
  | some (tid, uploadM, downloadM) => pool.wrap tid uploadM downloadM
  | none => (pool, ⟨none, none⟩)

/-- The connections served so far, with the limiters of their reader and
writer. -/
structure Served where
  pool : RateLimiterPool Uuid
  served : List (Connection × DirectionalLimiters)

/-- A request is served or refused. -/
def serve (s : Served) (c : Connection) : Option Served :=
  match (handleTunnelRequest M W cfg c.world c.restrictions c.restrictPathPrefix c.clientAddr
    c.req).result with
  | .ok tunnel => some ⟨(limitTunnel s.pool tunnel).1, s.served ++ [(c, (limitTunnel s.pool tunnel).2)]⟩
  | .error _ => some s

def noneServed : Served := ⟨.new, []⟩

def server : LTS Served Connection := LTS.ofFn (· = noneServed) (serve M W cfg)

/-! ## What the resolver said -/

/-- The UUID that a `TunnelStdio` request is for, with the upload and
download limit that the resolver answers for it. -/
def resolverAnswer (c : Connection) : Option RateInfo :=
  (requestedRemote W c.req).bind fun token => match token.protocol, token.host with
    | .tunnelStdio _ _, .domain tunnelId =>
      (W.uuidParse tunnelId).bind fun uuid => cfg.tunnelResolver.bind fun base =>
        match (resolveTunnelOverHttp W c.world.resolver base uuid (extractAuthorization c.req)).result with
        | .ok endpoint => some (uuid, endpoint.rateLimitUploadM, endpoint.rateLimitDownloadM)
        | .error _ => none
    | _, _ => none

/-- `v` MiB per second, in bytes. -/
def mibPerSecond (v : UInt16) : Nat := v.toNat * 1024 * 1024

/-- The rate that an applied limiter was built with: the argument of
`Quota::per_second`. -/
def rateOf (limiters : List Limiter) (l : Option Nat) : Option Nat :=
  (l.bind fun l => limiters[l]?).map Limiter.bps

/-- A download limiter with the rate of the answer if and only if it carries
a download limit, and an upload limiter likewise. -/
def LimitedAs (limiters : List Limiter) (e : DirectionalLimiters) (uploadM downloadM : Option UInt16) :
    Prop :=
  rateOf limiters e.read = downloadM.map mibPerSecond ∧ rateOf limiters e.write = uploadM.map mibPerSecond

def hasLimit (info : RateInfo) : Bool := info.2.1.isSome || info.2.2.isSome

/-- The limits of an answer for `id` that carries any. -/
def limitsFor (id : Uuid) (c : Connection) : Option (Option UInt16 × Option UInt16) :=
  match (resolverAnswer W cfg c).filter hasLimit with
  | some (id', limits) => if id' = id then some limits else none
  | none => none

/-- The limits of the first answer for `id` that carries any. -/
def firstLimits (id : Uuid) (served : List (Connection × DirectionalLimiters)) :
    Option (Option UInt16 × Option UInt16) :=
  served.findSome? fun x => limitsFor W cfg id x.1

/-! ## From the request to the answer -/

theorem resolveRemote_rate {c : Connection} {token remote : RemoteAddr} {rate : Option RateInfo}
    (ht : requestedRemote W c.req = some token)
    (hr : (resolveRemote W cfg c.world (extractAuthorization c.req) token).result = .ok (remote, rate)) :
    rate = resolverAnswer W cfg c := by
  rw [resolverAnswer, ht, Option.bind_some]
  obtain ⟨proto, host, port⟩ := token
  cases proto with
  | tunnelStdio proxyProtocol timeout =>
    cases host with
    | domain tunnelId =>
      obtain ⟨uuid, base, endpoint, hu, hb, he, -, rfl⟩ := (resolveRemote_stdio_ok W cfg c.world).mp hr
      simp only [hu, hb, Option.bind_some, he]
    | _ => cases hr
  | _ => cases hr; rfl

/-- What the streams are wrapped with is the answer, if it carries a limit. -/
theorem handleTunnelRequest_rateLimit {c : Connection} {tunnel : Tunnel}
    (h : (handleTunnelRequest M W cfg c.world c.restrictions c.restrictPathPrefix c.clientAddr
      c.req).result = .ok tunnel) :
    tunnel.rateLimit = (resolverAnswer W cfg c).filter hasLimit := by
  simp only [handleTunnelRequest, Trace.bind_eq_ok, Prod.exists] at h
  obtain ⟨restriction, remote, rate, hadmit, _, -, remoteAddr, conn, -, he⟩ := h
  simp only [admitTunnel, Trace.bind_eq_ok, Trace.ofOption_eq_ok, Trace.pure_result, Except.ok.injEq,
    Prod.mk.injEq, Prod.exists] at hadmit
  obtain ⟨_, -, token, ht, remote', rate', hr, _, -, -, -, rfl⟩ := hadmit
  cases he
  rw [← resolveRemote_rate W cfg ht hr]
  rfl

theorem capRate_le {v : Option UInt16} {n : UInt16} (h : capRate v = some n) : n.toNat ≤ 10 := by
  obtain ⟨m, -, rfl⟩ := Option.map_eq_some_iff.mp h
  exact UInt16.le_iff_toNat_le.mp (Std.min_le_right)

theorem resolveTunnelOverHttp_body {resolver : Resolver} {base : Url} {id : Uuid}
    {authorization : Option String} {endpoint : TunnelEndpoint}
    (h : (resolveTunnelOverHttp W resolver base id authorization).result = .ok endpoint) :
    ∃ body, readEndpoint W body = some endpoint := by
  simp only [resolveTunnelOverHttp, Trace.bind_eq_ok, Trace.ofOption_eq_ok] at h
  obtain ⟨req, -, _, -, resp, -, h⟩ := h
  split at h
  · cases h
  · simp only [Trace.bind_eq_ok, Trace.ofOption_eq_ok] at h
    obtain ⟨body, -, h⟩ := h
    exact ⟨body, h⟩

theorem readEndpoint_limits {body : Bytes} {endpoint : TunnelEndpoint}
    (h : readEndpoint W body = some endpoint) : ∃ upload download,
      endpoint.rateLimitUploadM = capRate upload ∧ endpoint.rateLimitDownloadM = capRate download := by
  simp only [readEndpoint, Option.bind_eq_bind, Option.bind_eq_some_iff, Option.pure_def,
    Option.some.injEq] at h
  obtain ⟨parsed, -, host, -, rfl⟩ := h
  exact ⟨_, _, rfl, rfl⟩

/-- Every limit in an answer is at most 10. -/
theorem resolverAnswer_capped {c : Connection} {id : Uuid} {uploadM downloadM : Option UInt16}
    (h : resolverAnswer W cfg c = some (id, uploadM, downloadM)) (v : UInt16)
    (hv : uploadM = some v ∨ downloadM = some v) : v.toNat ≤ 10 := by
  obtain ⟨token, -, h⟩ := Option.bind_eq_some_iff.mp h
  split at h
  · obtain ⟨uuid, -, h⟩ := Option.bind_eq_some_iff.mp h
    obtain ⟨base, -, h⟩ := Option.bind_eq_some_iff.mp h
    split at h
    · rename_i endpoint he
      cases h
      obtain ⟨body, hbody⟩ := resolveTunnelOverHttp_body W he
      obtain ⟨upload, download, hu, hd⟩ := readEndpoint_limits W hbody
      rw [hu, hd] at hv
      rcases hv with hv | hv <;> exact capRate_le hv
    · cases h
  · cases h

/-! ## The limiters of an id -/

/-- The rate of the limiter built for `v`. -/
def builtRate (v : UInt16) : Nat := max (mibPerSecond v % 2 ^ 32) 1

/-- The limiter was built for this limit. -/
def MadeFor (limiters : List Limiter) (l : Option Nat) : Option UInt16 → Prop
  | none => l = none
  | some v => ∃ n, l = some n ∧ (limiters[n]?).map Limiter.bps = some (builtRate v)

/-- The entry was made for these limits. -/
structure Made (limiters : List Limiter) (e : DirectionalLimiters) (uploadM downloadM : Option UInt16) :
    Prop where
  read : MadeFor limiters e.read downloadM
  write : MadeFor limiters e.write uploadM

theorem madeFor_alloc (limiters : List Limiter) (m : Option UInt16) :
    MadeFor (alloc limiters (buildLimiter m)).1 (alloc limiters (buildLimiter m)).2 m := by
  cases m with
  | none => rfl
  | some v => exact ⟨limiters.length, rfl, by simp [alloc, buildLimiter, builtRate, mibPerSecond]⟩

/-- A limiter keeps its rate when others are built after it. -/
theorem MadeFor.mono {limiters limiters' : List Limiter} {l : Option Nat} {m : Option UInt16}
    (h : MadeFor limiters l m) (hpre : limiters <+: limiters') : MadeFor limiters' l m := by
  obtain ⟨more, rfl⟩ := hpre
  cases m with
  | none => exact h
  | some v =>
    obtain ⟨n, hn, hrate⟩ := h
    obtain ⟨lim, hget, -⟩ := Option.map_eq_some_iff.mp hrate
    have hlt := (List.getElem?_eq_some_iff.mp hget).1
    exact ⟨n, hn, by rw [List.getElem?_append_left hlt, hrate]⟩

theorem Made.mono {limiters limiters' : List Limiter} {e : DirectionalLimiters}
    {uploadM downloadM : Option UInt16} (h : Made limiters e uploadM downloadM)
    (hpre : limiters <+: limiters') : Made limiters' e uploadM downloadM :=
  ⟨h.read.mono hpre, h.write.mono hpre⟩

theorem made_wrap {K : Type} [DecidableEq K] (pool : RateLimiterPool K) (id : K)
    (uploadM downloadM : Option UInt16) (hnone : pool.entries.lookup id = none) :
    Made (pool.wrap id uploadM downloadM).1.limiters (pool.wrap id uploadM downloadM).2 uploadM downloadM := by
  rw [RateLimiterPool.wrap, hnone]
  dsimp only
  refine ⟨(madeFor_alloc _ _).mono ?_, madeFor_alloc _ _⟩
  rw [alloc_fst (alloc pool.limiters (buildLimiter downloadM)).1]
  exact List.prefix_append _ _

theorem MadeFor.rateOf {limiters : List Limiter} {l : Option Nat} {m : Option UInt16}
    (h : MadeFor limiters l m) : rateOf limiters l = m.map builtRate := by
  cases m with
  | none => rw [show l = none from h]; rfl
  | some v =>
    obtain ⟨n, rfl, hrate⟩ := h
    exact hrate

/-! ## Whole sequences -/

/-- The entry of an id is the one made for the first limits, and a connection
with limits has the limiters that its id had as it was served. -/
structure ServedInv (s : Served) : Prop where
  unseen : ∀ id, firstLimits W cfg id s.served = none → s.pool.entries.lookup id = none
  entry : ∀ id uploadM downloadM, firstLimits W cfg id s.served = some (uploadM, downloadM) →
    ∃ e, s.pool.entries.lookup id = some e ∧ Made s.pool.limiters e uploadM downloadM
  limited : ∀ (i : Nat) c e id limits, s.served[i]? = some (c, e) →
    limitsFor W cfg id c = some limits → ∃ uploadM downloadM,
      firstLimits W cfg id (s.served.take (i + 1)) = some (uploadM, downloadM) ∧
        Made s.pool.limiters e uploadM downloadM
  unlimited : ∀ (i : Nat) c e, s.served[i]? = some (c, e) → (∀ id, limitsFor W cfg id c = none) →
    e = ⟨none, none⟩

theorem firstLimits_concat (id : Uuid) (served : List (Connection × DirectionalLimiters))
    (x : Connection × DirectionalLimiters) : firstLimits W cfg id (served ++ [x]) =
      (firstLimits W cfg id served).or (limitsFor W cfg id x.1) := by
  rw [firstLimits, List.findSome?_append, List.findSome?_singleton]
  rfl

/-- The connections served before, with a pool that has grown. -/
theorem ServedInv.earlier {s : Served} (h : ServedInv W cfg s) (pool : RateLimiterPool Uuid)
    {x : Connection × DirectionalLimiters} (hgrows : s.pool.limiters <+: pool.limiters) {i : Nat}
    {c : Connection} {e : DirectionalLimiters} (hi : (s.served ++ [x])[i]? = some (c, e)) :
    (s.served[i]? = some (c, e) ∧ ∀ id limits, limitsFor W cfg id c = some limits →
      ∃ uploadM downloadM,
        firstLimits W cfg id ((s.served ++ [x]).take (i + 1)) = some (uploadM, downloadM) ∧
          Made pool.limiters e uploadM downloadM) ∨ i = s.served.length ∧ x = (c, e) := by
  rw [List.getElem?_append, List.getElem?_singleton] at hi
  split at hi
  · rename_i hlt
    refine .inl ⟨hi, fun id limits hlim => ?_⟩
    obtain ⟨uploadM, downloadM, hfirst, hmade⟩ := h.limited i c e id limits hi hlim
    rw [List.take_append_of_le_length (by omega)]
    exact ⟨uploadM, downloadM, hfirst, hmade.mono hgrows⟩
  · split at hi
    · cases hi
      exact .inr ⟨by omega, rfl⟩
    · cases hi

/-- A connection whose answer carries no limit. -/
theorem servedInv_plain {s : Served} (h : ServedInv W cfg s) {c : Connection}
    (hnone : ∀ id, limitsFor W cfg id c = none) :
    ServedInv W cfg ⟨s.pool, s.served ++ [(c, ⟨none, none⟩)]⟩ := by
  have hfirst (id : Uuid) : firstLimits W cfg id (s.served ++ [(c, ⟨none, none⟩)]) =
      firstLimits W cfg id s.served := by
    rw [firstLimits_concat, hnone, Option.or_none]
  refine ⟨fun id hid => ?_, fun id uploadM downloadM hid => ?_, fun i c' e id limits hi hlim => ?_,
    fun i c' e hi hlim => ?_⟩
  · exact h.unseen id ((hfirst id).symm.trans hid)
  · exact h.entry id uploadM downloadM ((hfirst id).symm.trans hid)
  · rcases h.earlier W cfg s.pool List.prefix_rfl hi with ⟨-, hold⟩ | ⟨-, hx⟩
    · exact hold id limits hlim
    · cases hx
      rw [hnone] at hlim
      cases hlim
  · rcases h.earlier W cfg s.pool List.prefix_rfl hi with ⟨hold, -⟩ | ⟨-, hx⟩
    · exact h.unlimited i c' e hold hlim
    · cases hx
      rfl

/-- The entry of an id is found, or made for the limits of the connection that
is wrapped. -/
theorem ServedInv.entry_wrap {s : Served} (h : ServedInv W cfg s) (tid : Uuid)
    (uploadM downloadM : Option UInt16) (id : Uuid) (u d : Option UInt16)
    (hid : (firstLimits W cfg id s.served).or (if tid = id then some (uploadM, downloadM) else none) =
      some (u, d)) :
    ∃ e, (s.pool.wrap tid uploadM downloadM).1.entries.lookup id = some e ∧
      Made (s.pool.wrap tid uploadM downloadM).1.limiters e u d := by
  have hw := wrapped s.pool tid uploadM downloadM
  cases hold : firstLimits W cfg id s.served with
  | some limits =>
    rw [hold, Option.some_or, Option.some.injEq] at hid
    obtain ⟨e, he, hm⟩ := h.entry id u d (hid ▸ hold)
    exact ⟨e, by rw [hw.kept id (.inr (by simp [he])), he], hm.mono hw.grows⟩
  | none =>
    rw [hold, Option.none_or, Option.ite_none_right_eq_some] at hid
    obtain ⟨rfl, hlimits⟩ := hid
    cases hlimits
    exact ⟨_, hw.found, made_wrap s.pool tid uploadM downloadM (h.unseen tid hold)⟩

theorem servedInv_wrap {s : Served} (h : ServedInv W cfg s) {c : Connection} {tid : Uuid}
    {uploadM downloadM : Option UInt16}
    (hlim : ∀ id, limitsFor W cfg id c = if tid = id then some (uploadM, downloadM) else none) :
    ServedInv W cfg ⟨(s.pool.wrap tid uploadM downloadM).1,
      s.served ++ [(c, (s.pool.wrap tid uploadM downloadM).2)]⟩ := by
  have hw := wrapped s.pool tid uploadM downloadM
  have hentry := h.entry_wrap W cfg tid uploadM downloadM
  generalize s.pool.wrap tid uploadM downloadM = r at hw hentry
  obtain ⟨pool, e⟩ := r
  have hfirst (id : Uuid) : firstLimits W cfg id (s.served ++ [(c, e)]) =
      (firstLimits W cfg id s.served).or (if tid = id then some (uploadM, downloadM) else none) := by
    rw [firstLimits_concat, hlim]
  refine ⟨fun id hid => ?_, fun id u d hid => hentry id u d ((hfirst id).symm.trans hid),
    fun i c' e' id limits hi hlimits => ?_, fun i c' e' hi hnone => ?_⟩
  · rw [hfirst, Option.or_eq_none_iff] at hid
    have hne : id ≠ tid := by
      rintro rfl
      rw [if_pos rfl] at hid
      cases hid.2
    dsimp only
    rw [hw.kept id (.inl hne)]
    exact h.unseen id hid.1
  · rcases h.earlier W cfg pool hw.grows hi with ⟨-, hold⟩ | ⟨rfl, hx⟩
    · exact hold id limits hlimits
    · cases hx
      -- the connection itself: its entry is the one of its id
      rw [hlim, Option.ite_none_right_eq_some] at hlimits
      obtain ⟨rfl, -⟩ := hlimits
      rw [List.take_of_length_le (by simp)]
      cases hall : firstLimits W cfg tid (s.served ++ [(c, e)]) with
      | none =>
        rw [hfirst, if_pos rfl, Option.or_eq_none_iff] at hall
        cases hall.2
      | some limits =>
        obtain ⟨u, d⟩ := limits
        obtain ⟨e', he', hm⟩ := hentry tid u d ((hfirst tid).symm.trans hall)
        rw [hw.found] at he'
        cases he'
        exact ⟨u, d, rfl, hm⟩
  · rcases h.earlier W cfg pool hw.grows hi with ⟨hold, -⟩ | ⟨-, hx⟩
    · exact h.unlimited i c' e' hold hnone
    · cases hx
      have := hnone tid
      rw [hlim, if_pos rfl] at this
      cases this

theorem servedInv_inductive : (server M W cfg).Inductive (ServedInv W cfg) where
  init s hs := by
    rw [show s = noneServed from hs]
    exact ⟨fun _ _ => rfl, fun _ _ _ h => (by cases h), fun _ _ _ _ _ hi => (by cases hi),
      fun _ _ _ hi => (by cases hi)⟩
  step s c s' h hs := by
    have hs : serve M W cfg s c = some s' := hs
    unfold serve at hs
    split at hs
    · rename_i tunnel ht
      have hrate := handleTunnelRequest_rateLimit M W cfg ht
      cases hs
      unfold limitTunnel
      split
      · rename_i tid uploadM downloadM hr
        refine servedInv_wrap W cfg h fun id => ?_
        rw [limitsFor, ← hrate, hr]
      · rename_i hr
        refine servedInv_plain W cfg h fun id => ?_
        rw [limitsFor, ← hrate, hr]
    · cases hs
      exact h

/-! ## The limits of a connection -/

theorem limitsFor_eq_some {id : Uuid} {c : Connection} {limits : Option UInt16 × Option UInt16} :
    limitsFor W cfg id c = some limits ↔
      resolverAnswer W cfg c = some (id, limits) ∧ hasLimit (id, limits) = true := by
  unfold limitsFor
  cases hans : (resolverAnswer W cfg c).filter hasLimit with
  | none =>
    refine ⟨(nomatch ·), fun h => ?_⟩
    rw [h.1, Option.filter_some, if_pos h.2] at hans
    cases hans
  | some info =>
    obtain ⟨hinfo, hlimit⟩ := Option.filter_eq_some_iff.mp hans
    obtain ⟨id', limits'⟩ := info
    rw [hinfo]
    simp only [Option.ite_none_right_eq_some, Option.some.injEq, Prod.mk.injEq]
    refine ⟨?_, fun h => h.1⟩
    rintro ⟨rfl, rfl⟩
    exact ⟨⟨rfl, rfl⟩, hlimit⟩

/-- The first limits for an id come from an answer, so they are capped. -/
theorem firstLimits_capped {id : Uuid} {served : List (Connection × DirectionalLimiters)}
    {uploadM downloadM : Option UInt16} (h : firstLimits W cfg id served = some (uploadM, downloadM))
    (v : UInt16) (hv : uploadM = some v ∨ downloadM = some v) : v.toNat ≤ 10 := by
  obtain ⟨x, -, hx⟩ := List.exists_of_findSome?_eq_some h
  exact resolverAnswer_capped W cfg ((limitsFor_eq_some W cfg).mp hx).1 v hv

theorem builtRate_eq_iff {m₀ m : Option UInt16} (h₀ : ∀ v, m₀ = some v → v.toNat ≤ 10)
    (h : ∀ v, m = some v → v.toNat ≤ 10) :
    m₀.map builtRate = m.map mibPerSecond ↔ m₀ = m ∧ m ≠ some 0 := by
  cases m₀ with
  | none => cases m <;> simp
  | some v₀ => cases m with
    | none => simp
    | some v =>
      have hv₀ := h₀ v₀ rfl
      have hv := h v rfl
      simp only [Option.map_some, Option.some.injEq, ne_eq, builtRate, mibPerSecond,
        ← UInt16.toNat_inj, UInt16.toNat_zero]
      omega

/-- **Limited as the resolver said.** In every sequence of connections a
connection whose resolver answer carried these limits is limited by them, in
both directions, if and only if it carried none, or they are those of the
first answer for the id with a limit and none of them is 0. -/
theorem limitedAs_iff (s : Served) (hr : (server M W cfg).Reachable s) (i : Nat) (c : Connection)
    (e : DirectionalLimiters) (hi : s.served[i]? = some (c, e)) (id : Uuid)
    (uploadM downloadM : Option UInt16)
    (hans : resolverAnswer W cfg c = some (id, uploadM, downloadM)) :
    LimitedAs s.pool.limiters e uploadM downloadM ↔ uploadM = none ∧ downloadM = none ∨
      firstLimits W cfg id (s.served.take (i + 1)) = some (uploadM, downloadM) ∧
        uploadM ≠ some 0 ∧ downloadM ≠ some 0 := by
  have h := (servedInv_inductive M W cfg).reachable s hr
  have hcap := resolverAnswer_capped W cfg hans
  by_cases hlimit : hasLimit (id, uploadM, downloadM) = true
  · obtain ⟨u₀, d₀, hfirst, hmade⟩ :=
      h.limited i c e id _ hi ((limitsFor_eq_some W cfg).mpr ⟨hans, hlimit⟩)
    have hcap₀ := firstLimits_capped W cfg hfirst
    have hsome : ¬ (uploadM = none ∧ downloadM = none) := by
      rintro ⟨rfl, rfl⟩
      cases hlimit
    rw [LimitedAs, hmade.read.rateOf, hmade.write.rateOf,
      builtRate_eq_iff (fun v hv => hcap₀ v (.inr hv)) fun v hv => hcap v (.inr hv),
      builtRate_eq_iff (fun v hv => hcap₀ v (.inl hv)) fun v hv => hcap v (.inl hv), hfirst,
      Option.some.injEq, Prod.mk.injEq]
    refine ⟨fun ⟨⟨hd, hd0⟩, hu, hu0⟩ => .inr ⟨⟨hu, hd⟩, hu0, hd0⟩, fun hor => ?_⟩
    obtain ⟨⟨hu, hd⟩, hu0, hd0⟩ := hor.resolve_left hsome
    exact ⟨⟨hd, hd0⟩, hu, hu0⟩
  · have hnone : uploadM = none ∧ downloadM = none := by
      cases uploadM <;> cases downloadM <;> first | exact ⟨rfl, rfl⟩ | exact absurd rfl hlimit
    obtain ⟨rfl, rfl⟩ := hnone
    have he : e = ⟨none, none⟩ := h.unlimited i c e hi fun id' => by
      rw [limitsFor, hans, Option.filter_some, if_neg hlimit]
    rw [he]
    exact ⟨fun _ => .inl ⟨rfl, rfl⟩, fun _ => ⟨rfl, rfl⟩⟩

/-- The token `e.t.s` is for the tunnel 1; the answer `5` limits both
directions to 5 MiB/s, any other only the download, to 10. -/
def tunnelOne : Parsers where
  jwtTokenToTunnel text := if text = "e.t.s" then some ⟨"id", .tunnelStdio false none, "1", 0⟩ else none
  hostParse text := some (.domain text)
  uuidParse _ := some 1
  uuidText _ := "1"
  scheme _ := "http"
  pushSegment base segment := some ⟨base.text ++ "/" ++ segment⟩
  isUri _ := true
  yamlEndpoint text :=
    if text = "5" then some ⟨"10.0.0.5", 22, none, none, some 5⟩
    else some ⟨"10.0.0.5", 22, none, some 10, none⟩

def withResolver : WsServerConfig := { plainConfig with tunnelResolver := some ⟨"http://resolver"⟩ }

def tcpAnywhere : RestrictionsRules :=
  ⟨[⟨"tcp", [.any], [.tunnel ⟨[.tcp], [], defaultHost, defaultCidr⟩]⟩]⟩

/-- A request with the token `e.t.s` in its cookie while the resolver answers
`body`. -/
def answered (body : Bytes) : Connection where
  world := { quietWorld with resolver := fun _ => some ⟨200, some body⟩ }
  restrictions := tcpAnywhere
  restrictPathPrefix := none
  clientAddr := ⟨.v4 0, 0⟩
  req := ⟨"/v1/events", [(.cookie, [101, 46, 116, 46, 115])]⟩

theorem limitedAs_iff_sameAnswer : ∃ s e,
    (server anchoredMatchers tunnelOne withResolver).Reachable s ∧
      s.served[1]? = some (answered [53], e) ∧
      resolverAnswer tunnelOne withResolver (answered [53]) = some (1, some 5, some 5) ∧
      LimitedAs s.pool.limiters e (some 5) (some 5) := by
  obtain ⟨s, hs, e, he, hfirst⟩ : ∃ s,
      LTS.exec (serve anchoredMatchers tunnelOne withResolver) noneServed
        [answered [53], answered [53]] = some s ∧ ∃ e, s.served[1]? = some (answered [53], e) ∧
      firstLimits tunnelOne withResolver 1 (s.served.take 2) = some (some 5, some 5) :=
    ⟨_, rfl, _, rfl, rfl⟩
  have hr : (server anchoredMatchers tunnelOne withResolver).Reachable s :=
    ⟨_, _, rfl, LTS.run_ofFn.mpr hs⟩
  have hans : resolverAnswer tunnelOne withResolver (answered [53]) = some (1, some 5, some 5) := rfl
  exact ⟨s, e, hr, he, hans, (limitedAs_iff _ _ _ s hr 1 _ e he 1 _ _ hans).mpr
    (.inr ⟨hfirst, by decide, by decide⟩)⟩

/-- The second answer limits only the download, to 10 MiB/s; the connection
is limited to 5 MiB/s in both directions, as the first answer said. -/
theorem changedAnswer_keeps_limits : ∃ s e,
    (server anchoredMatchers tunnelOne withResolver).Reachable s ∧
      s.served[1]? = some (answered [54], e) ∧
      resolverAnswer tunnelOne withResolver (answered [54]) = some (1, none, some 10) ∧
      LimitedAs s.pool.limiters e (some 5) (some 5) ∧
      ¬ LimitedAs s.pool.limiters e none (some 10) := by
  obtain ⟨s, hs, e, he, hlim⟩ : ∃ s,
      LTS.exec (serve anchoredMatchers tunnelOne withResolver) noneServed
        [answered [53], answered [54]] = some s ∧ ∃ e, s.served[1]? = some (answered [54], e) ∧
      LimitedAs s.pool.limiters e (some 5) (some 5) :=
    ⟨_, rfl, _, rfl, by decide +kernel, by decide +kernel⟩
  refine ⟨s, e, ⟨_, _, rfl, LTS.run_ofFn.mpr hs⟩, he, rfl, hlim, fun h => ?_⟩
  rw [LimitedAs, hlim.2] at h
  cases h.2

end Wstunnel.L3.Rate
