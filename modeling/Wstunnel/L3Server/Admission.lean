import Wstunnel.L3Server.Exec

/-!
# The admission gate: `handle_tunnel_request`

From the upgrade request to the call of `exec_tunnel`: path prefix, mTLS
path restriction, token, resolution of a `TunnelStdio` UUID, restriction
rules. Every refusal is the same `400` response.

**Third-party code.** The parsers of tokens, hosts, UUIDs, URIs and YAML (`Parsers`),
the engines of regular expressions and networks (`Matchers`) and the answers of the
network (`World`) are any functions: what is proved holds of every answer they give.

**Results.** `Admitted` says when a request may reach its destination, as a list of
conditions.
* `handleTunnelRequest_gate`: `exec_tunnel` is called with a rule and a destination
  only when they are admitted, an admitted request does reach it, and a request which
  does not reach it gets the `400` response after no effect but the question to the
  resolver.
-/
namespace Wstunnel.L3

open Wstunnel.L1 Wstunnel.L2

structure HttpResponse where
  status : Nat
  body : String
  deriving DecidableEq, Repr

/-- mirrors wstunnel/src/tunnel/server/utils.rs:24-29 -/
def badRequest : HttpResponse := ⟨400, "Invalid request"⟩

/-- The UUID of a resolved tunnel with its upload and download limits. -/
abbrev RateInfo := Uuid × Option UInt16 × Option UInt16

/-- The tunnel handed back to the upgrade handler; `rateLimit` is what the
streams are wrapped with. -/
structure Tunnel where
  remote : RemoteAddr
  conn : Conn
  rateLimit : Option RateInfo
  injectCookie : Bool

variable (M : Matchers) (W : Parsers) (cfg : WsServerConfig) (w : World)

/-- The path prefix of the request, checked against the mTLS restriction. -/
def checkPath (restrictPathPrefix : Option String) (req : Request) : Except HttpResponse String :=
  match extractPathPrefix req.path with
  | .error _ => .error badRequest
  | .ok pathPrefix => match restrictPathPrefix with
    | some restrictPath =>
      if pathPrefix ≠ restrictPath then .error badRequest else .ok pathPrefix
    | none => .ok pathPrefix

/-- The destination in the token. -/
def requestedRemote (req : Request) : Option RemoteAddr :=
  (extractTunnelInfo W req).bind (RemoteAddr.tryFrom W.hostParse)

/-- The rewrite of a `TunnelStdio` destination to the endpoint the resolver
gives for its UUID. -/
def resolveRemote (authorization : Option String) (remote : RemoteAddr) :
    Trace Effect HttpResponse (RemoteAddr × Option RateInfo) :=
  match remote.protocol with
  | .tunnelStdio proxyProtocol _ => match remote.host with
    | .domain tunnelId => do
      let tunnelUuid ← Trace.ofOption badRequest (W.uuidParse tunnelId)
      let resolver ← Trace.ofOption badRequest cfg.tunnelResolver
      let endpoint ←
        ((resolveTunnelOverHttp W w.resolver resolver tunnelUuid authorization).mapLog
          Effect.resolverRequest).mapErr fun _ => badRequest
      return (⟨.tcp proxyProtocol, endpoint.host, endpoint.port⟩,
        some (tunnelUuid, endpoint.rateLimitUploadM, endpoint.rateLimitDownloadM))
    | _ => Trace.fail badRequest
  | _ => return (remote, none)

/-- The client address, with the address of `X-Forwarded-For` if it has one. -/
def forwardedAddr (clientAddr : SocketAddr) (req : Request) : SocketAddr :=
  match extractXForwardedFor req with
  | some (ip, _) => { clientAddr with ip }
  | none => clientAddr

/-- Everything `handle_tunnel_request` does before it calls `exec_tunnel`.
mirrors wstunnel/src/tunnel/server/server.rs:110-178 -/
def admitTunnel (restrictions : RestrictionsRules) (restrictPathPrefix : Option String)
    (req : Request) :
    Trace Effect HttpResponse (RestrictionConfig × RemoteAddr × Option RateInfo) := do
  let pathPrefix ← Trace.ofExcept (checkPath restrictPathPrefix req)
  let token ← Trace.ofOption badRequest (requestedRemote W req)
  let authorization := extractAuthorization req
  let (remote, rateInfo) ← resolveRemote W cfg w authorization token
  let restriction ←
    Trace.ofOption badRequest (validateTunnel M remote pathPrefix authorization restrictions)
  return (restriction, remote, rateInfo)

/-- mirrors wstunnel/src/tunnel/server/server.rs:89-207 -/
def handleTunnelRequest (restrictions : RestrictionsRules) (restrictPathPrefix : Option String)
    (clientAddr : SocketAddr) (req : Request) : Trace Effect HttpResponse Tunnel := do
  let clientAddr := forwardedAddr clientAddr req
  let (restriction, remote, rateInfo) ← admitTunnel M W cfg w restrictions restrictPathPrefix req
  Trace.emit (.execTunnel restriction remote clientAddr)
  let (remoteAddr, conn) ←
    (execTunnel cfg w restriction remote clientAddr).mapErr fun _ => badRequest
  return {
    remote := remoteAddr, conn
    rateLimit := rateInfo.filter fun (_, upload, download) => upload.isSome || download.isSome
    injectCookie := remote.protocol.isDynamicReverseTunnel }

/-! ## When a request may reach its destination -/

/-- `remote` is where the token sends the request: the token's own
destination, or for `TunnelStdio` a tcp connection to the endpoint the
resolver returned for the UUID in the token. -/
structure Resolved (authorization : Option String) (token remote : RemoteAddr) : Prop where
  direct : token.protocol.isTunnelStdio = false → remote = token
  resolved : ∀ proxyProtocol timeout, token.protocol = .tunnelStdio proxyProtocol timeout →
    ∃ tunnelId uuid base endpoint, token.host = .domain tunnelId ∧
      W.uuidParse tunnelId = some uuid ∧ cfg.tunnelResolver = some base ∧
      (resolveTunnelOverHttp W w.resolver base uuid authorization).result = .ok endpoint ∧
      remote = ⟨.tcp proxyProtocol, endpoint.host, endpoint.port⟩

/-- The request may reach `remote` under the rule `restriction`. -/
structure Admission (restrictions : RestrictionsRules) (restrictPathPrefix : Option String)
    (req : Request) (restriction : RestrictionConfig) (remote : RemoteAddr)
    (pathPrefix : String) (token : RemoteAddr) : Prop where
  path : extractPathPrefix req.path = .ok pathPrefix
  mtls : ∀ restrictPath, restrictPathPrefix = some restrictPath → pathPrefix = restrictPath
  decoded : ∃ jwt, extractTunnelInfo W req = some jwt ∧
    RemoteAddr.tryFrom W.hostParse jwt = some token
  destination : Resolved W cfg w (extractAuthorization req) token remote
  rule : FirstAdmitting M restrictions remote pathPrefix (extractAuthorization req) restriction

def Admitted (restrictions : RestrictionsRules) (restrictPathPrefix : Option String)
    (req : Request) (restriction : RestrictionConfig) (remote : RemoteAddr) : Prop :=
  ∃ pathPrefix token,
    Admission M W cfg w restrictions restrictPathPrefix req restriction remote pathPrefix token

/-! ## The checks, one by one -/

theorem checkPath_eq_ok {restrictPathPrefix : Option String} {req : Request} {pathPrefix : String} :
    checkPath restrictPathPrefix req = .ok pathPrefix ↔
      extractPathPrefix req.path = .ok pathPrefix ∧
        ∀ restrictPath, restrictPathPrefix = some restrictPath → pathPrefix = restrictPath := by
  unfold checkPath
  cases extractPathPrefix req.path with
  | error e => simp
  | ok p =>
    cases restrictPathPrefix with
    | none => simp
    | some restrictPath =>
      simp only [ne_eq, ite_not, Except.ok.injEq, Option.some.injEq, forall_eq']
      split
      · rename_i h
        simp only [Except.ok.injEq]
        exact ⟨fun hp => ⟨hp, hp ▸ h⟩, fun hp => hp.1⟩
      · rename_i h
        simp only [reduceCtorEq, false_iff, not_and]
        exact fun hp hr => h (hp.trans hr)

theorem checkPath_eq_error {restrictPathPrefix : Option String} {req : Request} {e : HttpResponse}
    (h : checkPath restrictPathPrefix req = .error e) : e = badRequest := by
  unfold checkPath at h
  split at h
  · cases h; rfl
  · split at h
    · split at h <;> cases h; rfl
    · cases h

theorem requestedRemote_eq_some {req : Request} {token : RemoteAddr} :
    requestedRemote W req = some token ↔
      ∃ jwt, extractTunnelInfo W req = some jwt ∧
        RemoteAddr.tryFrom W.hostParse jwt = some token :=
  Option.bind_eq_some_iff

/-- The only effect of the rewrite is the question to the resolver. -/
theorem resolveRemote_log (authorization : Option String) (token : RemoteAddr) :
    (resolveRemote W cfg w authorization token).AllLog fun e => ∃ q, e = .resolverRequest q := by
  unfold resolveRemote
  split
  · split
    · refine Trace.allLog_bind (Trace.allLog_of_log_nil (by simp)) fun _ _ =>
        Trace.allLog_bind (Trace.allLog_of_log_nil (by simp)) fun _ _ =>
        Trace.allLog_bind ?_ fun _ _ => Trace.allLog_of_log_nil rfl
      intro e he
      obtain ⟨q, -, rfl⟩ := List.mem_map.mp he
      exact ⟨q, rfl⟩
    · exact Trace.allLog_of_log_nil rfl
  · exact Trace.allLog_of_log_nil rfl

theorem resolveRemote_stdio_ok {authorization : Option String} {proxyProtocol : Bool}
    {timeout : Option Duration} {tunnelId : String} {port : UInt16} {remote : RemoteAddr}
    {rate : Option RateInfo} :
    (resolveRemote W cfg w authorization
      ⟨.tunnelStdio proxyProtocol timeout, .domain tunnelId, port⟩).result = .ok (remote, rate) ↔
    ∃ uuid base endpoint, W.uuidParse tunnelId = some uuid ∧ cfg.tunnelResolver = some base ∧
      (resolveTunnelOverHttp W w.resolver base uuid authorization).result = .ok endpoint ∧
      remote = ⟨.tcp proxyProtocol, endpoint.host, endpoint.port⟩ ∧
      rate = some (uuid, endpoint.rateLimitUploadM, endpoint.rateLimitDownloadM) := by
  simp only [resolveRemote, Trace.bind_eq_ok, Trace.ofOption_eq_ok, Trace.mapErr_eq_ok,
    Trace.mapLog_result, Trace.pure_result, Except.ok.injEq, Prod.mk.injEq]
  refine ⟨?_, ?_⟩
  · rintro ⟨uuid, hu, base, hb, endpoint, he, rfl, rfl⟩
    exact ⟨uuid, base, endpoint, hu, hb, he, rfl, rfl⟩
  · rintro ⟨uuid, base, endpoint, hu, hb, he, rfl, rfl⟩
    exact ⟨uuid, hu, base, hb, endpoint, he, rfl, rfl⟩

theorem resolveRemote_eq_ok (authorization : Option String) (token remote : RemoteAddr) :
    (∃ rate, (resolveRemote W cfg w authorization token).result = .ok (remote, rate)) ↔
      Resolved W cfg w authorization token remote := by
  obtain ⟨proto, host, port⟩ := token
  cases proto with
  | tunnelStdio proxyProtocol timeout =>
    cases host with
    | domain tunnelId =>
      refine ⟨?_, ?_⟩
      · intro ⟨rate, h⟩
        obtain ⟨uuid, base, endpoint, hu, hb, he, rfl, rfl⟩ := (resolveRemote_stdio_ok W cfg w).mp h
        refine ⟨fun h => by simp [LocalProtocol.isTunnelStdio] at h, fun pp t hp => ?_⟩
        cases hp
        exact ⟨tunnelId, uuid, base, endpoint, rfl, hu, hb, he, rfl⟩
      · intro h
        obtain ⟨id, uuid, base, endpoint, hid, hu, hb, he, rfl⟩ := h.resolved _ _ rfl
        cases hid
        exact ⟨_, (resolveRemote_stdio_ok W cfg w).mpr ⟨uuid, base, endpoint, hu, hb, he, rfl, rfl⟩⟩
    | _ =>
      refine ⟨?_, ?_⟩
      · intro ⟨rate, h⟩
        cases h
      · intro h
        obtain ⟨id, _, _, _, hid, -⟩ := h.resolved _ _ rfl
        cases hid
  | _ =>
    refine ⟨?_, ?_⟩
    · intro ⟨rate, h⟩
      cases h
      exact ⟨fun _ => rfl, fun _ _ hp => by cases hp⟩
    · intro h
      rw [h.direct rfl]
      exact ⟨none, rfl⟩

theorem resolveRemote_failsWith (authorization : Option String) (token : RemoteAddr) :
    (resolveRemote W cfg w authorization token).FailsWith badRequest := by
  unfold resolveRemote
  split
  · split
    · exact Trace.failsWith_bind (Trace.failsWith_ofOption _ _) fun _ =>
        Trace.failsWith_bind (Trace.failsWith_ofOption _ _) fun _ =>
        Trace.failsWith_bind (Trace.failsWith_mapErr _ _) fun _ => Trace.failsWith_pure _ _
    · exact Trace.failsWith_fail _
  · exact Trace.failsWith_pure _ _

theorem admitTunnel_failsWith (restrictions : RestrictionsRules)
    (restrictPathPrefix : Option String) (req : Request) :
    (admitTunnel M W cfg w restrictions restrictPathPrefix req).FailsWith badRequest := by
  refine Trace.failsWith_bind (fun e h => ?_) fun _ =>
    Trace.failsWith_bind (Trace.failsWith_ofOption _ _) fun _ =>
    Trace.failsWith_bind (resolveRemote_failsWith W cfg w _ _) fun _ =>
    Trace.failsWith_bind (Trace.failsWith_ofOption _ _) fun _ => Trace.failsWith_pure _ _
  rw [Trace.ofExcept_result] at h
  exact checkPath_eq_error h

theorem admitTunnel_log (restrictions : RestrictionsRules) (restrictPathPrefix : Option String)
    (req : Request) :
    (admitTunnel M W cfg w restrictions restrictPathPrefix req).AllLog
      fun e => ∃ q, e = .resolverRequest q := by
  refine Trace.allLog_bind (Trace.allLog_of_log_nil (by simp)) fun _ _ =>
    Trace.allLog_bind (Trace.allLog_of_log_nil (by simp)) fun _ _ =>
    Trace.allLog_bind (resolveRemote_log W cfg w _ _) fun _ _ =>
    Trace.allLog_bind (Trace.allLog_of_log_nil (by simp)) fun _ _ => Trace.allLog_of_log_nil rfl

/-- The checks pass exactly when the request is admitted. -/
theorem admitTunnel_eq_ok {restrictions : RestrictionsRules} {restrictPathPrefix : Option String}
    {req : Request} {restriction : RestrictionConfig} {remote : RemoteAddr} :
    (∃ rate, (admitTunnel M W cfg w restrictions restrictPathPrefix req).result =
      .ok (restriction, remote, rate)) ↔
      Admitted M W cfg w restrictions restrictPathPrefix req restriction remote := by
  have hok (rate : Option RateInfo) : (admitTunnel M W cfg w restrictions restrictPathPrefix req).result =
      .ok (restriction, remote, rate) ↔ ∃ pathPrefix, checkPath restrictPathPrefix req = .ok pathPrefix ∧
        ∃ token, requestedRemote W req = some token ∧
        (resolveRemote W cfg w (extractAuthorization req) token).result = .ok (remote, rate) ∧
        validateTunnel M remote pathPrefix (extractAuthorization req) restrictions =
          some restriction := by
    simp only [admitTunnel, Trace.bind_eq_ok, Trace.ofOption_eq_ok, Trace.ofExcept_result,
      Trace.pure_result, Except.ok.injEq, Prod.mk.injEq, Prod.exists]
    refine ⟨?_, ?_⟩
    · intro h
      obtain ⟨pathPrefix, hc, token, ht, _, _, hr, _, hv, rfl, rfl, rfl⟩ := h
      exact ⟨pathPrefix, hc, token, ht, hr, hv⟩
    · intro ⟨pathPrefix, hc, token, ht, hr, hv⟩
      exact ⟨pathPrefix, hc, token, ht, remote, rate, hr, restriction, hv, rfl, rfl, rfl⟩
  simp only [hok]
  refine ⟨?_, ?_⟩
  · intro ⟨rate, pathPrefix, hc, token, ht, hr, hv⟩
    obtain ⟨hpath, hmtls⟩ := checkPath_eq_ok.mp hc
    exact ⟨pathPrefix, token, hpath, hmtls, (requestedRemote_eq_some W).mp ht,
      (resolveRemote_eq_ok W cfg w _ _ _).mp ⟨rate, hr⟩, (validateTunnel_eq_some M).mp hv⟩
  · intro ⟨pathPrefix, token, h⟩
    obtain ⟨rate, hr⟩ := (resolveRemote_eq_ok W cfg w _ _ _).mpr h.destination
    exact ⟨rate, pathPrefix, checkPath_eq_ok.mpr ⟨h.path, h.mtls⟩, token,
      (requestedRemote_eq_some W).mpr h.decoded, hr, (validateTunnel_eq_some M).mpr h.rule⟩

/-! ## The gate -/

theorem handleTunnelRequest_of_error {restrictions : RestrictionsRules}
    {restrictPathPrefix : Option String} {req : Request} {e : HttpResponse}
    (h : (admitTunnel M W cfg w restrictions restrictPathPrefix req).result = .error e)
    (clientAddr : SocketAddr) :
    handleTunnelRequest M W cfg w restrictions restrictPathPrefix clientAddr req =
      ⟨(admitTunnel M W cfg w restrictions restrictPathPrefix req).log, .error badRequest⟩ := by
  rw [← admitTunnel_failsWith M W cfg w restrictions restrictPathPrefix req e h]
  exact Trace.bind_of_error h _

/-- After the checks pass, `exec_tunnel` runs. -/
theorem handleTunnelRequest_log_of_ok {restrictions : RestrictionsRules}
    {restrictPathPrefix : Option String} {req : Request} {restriction : RestrictionConfig}
    {remote : RemoteAddr} {rate : Option RateInfo}
    (h : (admitTunnel M W cfg w restrictions restrictPathPrefix req).result =
      .ok (restriction, remote, rate)) (clientAddr : SocketAddr) :
    (handleTunnelRequest M W cfg w restrictions restrictPathPrefix clientAddr req).log =
      (admitTunnel M W cfg w restrictions restrictPathPrefix req).log ++
        .execTunnel restriction remote (forwardedAddr clientAddr req) ::
        (execTunnel cfg w restriction remote (forwardedAddr clientAddr req)).log := by
  unfold handleTunnelRequest
  rw [Trace.bind_of_ok h]
  dsimp only
  rw [Trace.emit_bind, Trace.bind_log_of_silent fun _ => rfl, Trace.mapErr_log]

/-- An admitted destination is never a `TunnelStdio` one. -/
theorem Resolved.not_tunnelStdio {authorization : Option String} {token remote : RemoteAddr}
    (h : Resolved W cfg w authorization token remote) : remote.protocol.isTunnelStdio = false := by
  cases hp : token.protocol with
  | tunnelStdio proxyProtocol timeout =>
    obtain ⟨_, _, _, _, -, -, -, -, rfl⟩ := h.resolved _ _ hp
    rfl
  | _ => rw [h.direct (by rw [hp]; rfl), hp]; rfl

/-- **Admission gate.** `exec_tunnel` is called only for an admitted rule and
destination, and never with a `TunnelStdio` one; an admitted request reaches
it; and a request that does not reach it gets the `400` response, having
caused no effect but a request to the resolver. -/
theorem handleTunnelRequest_gate (restrictions : RestrictionsRules)
    (restrictPathPrefix : Option String) (clientAddr : SocketAddr) (req : Request) :
    let out := handleTunnelRequest M W cfg w restrictions restrictPathPrefix clientAddr req
    (∀ restriction remote client, Effect.execTunnel restriction remote client ∈ out.log →
      Admitted M W cfg w restrictions restrictPathPrefix req restriction remote ∧
        remote.protocol.isTunnelStdio = false) ∧
    (∀ restriction remote,
      Admitted M W cfg w restrictions restrictPathPrefix req restriction remote →
        Effect.execTunnel restriction remote (forwardedAddr clientAddr req) ∈ out.log) ∧
    ((∀ restriction remote client, Effect.execTunnel restriction remote client ∉ out.log) →
      out.result = .error badRequest ∧ ∀ e ∈ out.log, ∃ q, e = .resolverRequest q) := by
  intro out
  have hasked := admitTunnel_log M W cfg w restrictions restrictPathPrefix req
  cases ha : (admitTunnel M W cfg w restrictions restrictPathPrefix req).result with
  | error e =>
    have hout : out = ⟨_, .error badRequest⟩ := handleTunnelRequest_of_error M W cfg w ha clientAddr
    rw [hout]
    refine ⟨fun r a c hmem => ?_, fun r a hadm => ?_, fun _ => ⟨rfl, hasked⟩⟩
    · obtain ⟨q, hq⟩ := hasked _ hmem
      cases hq
    · obtain ⟨rate, hr⟩ := (admitTunnel_eq_ok M W cfg w).mpr hadm
      rw [ha] at hr; cases hr
  | ok p =>
    obtain ⟨restriction, remote, rate⟩ := p
    have hlog := handleTunnelRequest_log_of_ok M W cfg w ha clientAddr
    have hadm := (admitTunnel_eq_ok M W cfg w).mp ⟨rate, ha⟩
    refine ⟨fun r a c hmem => ?_, fun r a hadm' => ?_, fun hno => ?_⟩
    · have hcall : Effect.execTunnel r a c =
          .execTunnel restriction remote (forwardedAddr clientAddr req) := by
        rw [show out.log = _ from hlog] at hmem
        rcases List.mem_append.mp hmem with h | h
        · obtain ⟨q, hq⟩ := hasked _ h; cases hq
        · rcases List.mem_cons.mp h with h | h
          · exact h
          · exact (execTunnel_destination cfg w restriction remote _ _ h).elim
      cases hcall
      have ⟨_, _, h⟩ := hadm
      exact ⟨hadm, h.destination.not_tunnelStdio⟩
    · obtain ⟨rate', hr⟩ := (admitTunnel_eq_ok M W cfg w).mpr hadm'
      cases ha.symm.trans hr
      rw [show out.log = _ from hlog]; simp
    · refine absurd ?_ (hno restriction remote (forwardedAddr clientAddr req))
      rw [show out.log = _ from hlog]; simp

end Wstunnel.L3
