import Wstunnel.L3Server.Admission

/-!
# What a change of the rules changes

The rules are a list that `validate_tunnel` searches from the front, and an
operator edits that list while the server runs. The rule that is found also maps
the port of a reverse tunnel, so more than the admission hangs on the order.

**Third-party code.** As in `Admission`: the parsers, the matchers and the network are
any functions. That the rules change between two requests and not during one is
`ArcSwap`, and `ConfigReload` says which rules are in force.

**Results.**
* `rules_added`: a request that is admitted stays so when rules are added, anywhere
  in the list, or put into another order, and it goes to the same destination. It
  opens and returns the same as before, unless it is a reverse tunnel whose port the
  rule found now maps elsewhere; behind the old rules, new ones change nothing at all.
-/
namespace Wstunnel.L3

open Wstunnel.L1 Wstunnel.L2

/-! ## The search -/

section

variable {M : Matchers} {remote : RemoteAddr} {pathPrefix : String} {auth : Option String}
  {rules rules' : RestrictionsRules} {r : RestrictionConfig}

theorem validateTunnel_of_subset (hsub : rules.restrictions ⊆ rules'.restrictions)
    (h : validateTunnel M remote pathPrefix auth rules = some r) :
    ∃ r', validateTunnel M remote pathPrefix auth rules' = some r' := by
  obtain ⟨before, after, hrules, hadmits, -⟩ := (validateTunnel_eq_some M).mp h
  have hmem : r ∈ rules'.restrictions := hsub (by rw [hrules]; simp)
  cases hfound : validateTunnel M remote pathPrefix auth rules' with
  | some r' => exact ⟨r', rfl⟩
  | none => exact absurd hadmits ((validateTunnel_eq_none M).mp hfound r hmem)

theorem validateTunnel_of_append {more : List RestrictionConfig}
    (hrules : rules'.restrictions = rules.restrictions ++ more)
    (h : validateTunnel M remote pathPrefix auth rules = some r) :
    validateTunnel M remote pathPrefix auth rules' = some r := by
  rw [validateTunnel_eq_find?] at h ⊢
  rw [hrules, List.find?_append, h, Option.some_or]

end

/-! ## The request -/

variable (M : Matchers) (W : Parsers) (cfg : WsServerConfig) (w : World)

/-- What `handle_tunnel_request` does once the request is admitted. -/
def openTunnel (restriction : RestrictionConfig) (remote : RemoteAddr) (rateInfo : Option RateInfo)
    (clientAddr : SocketAddr) : Trace Effect HttpResponse Tunnel := do
  let (remoteAddr, conn) ← (execTunnel cfg w restriction remote clientAddr).mapErr fun _ => badRequest
  return {
    remote := remoteAddr, conn
    rateLimit := rateInfo.filter fun (_, upload, download) => upload.isSome || download.isSome
    injectCookie := remote.protocol.isDynamicReverseTunnel }

def Effect.isCall : Effect → Bool
  | .execTunnel _ _ _ => true
  | _ => false

/-- What the request does to the network. -/
def opened (log : List Effect) : List Effect := log.filter (!·.isCall)

variable {M W cfg w} {rules rules' : RestrictionsRules} {restrictPathPrefix : Option String} {req : Request}
  {restriction : RestrictionConfig} {remote : RemoteAddr} {rateInfo : Option RateInfo}

theorem handleTunnelRequest_of_ok
    (h : (admitTunnel M W cfg w rules restrictPathPrefix req).result = .ok (restriction, remote, rateInfo))
    (clientAddr : SocketAddr) : handleTunnelRequest M W cfg w rules restrictPathPrefix clientAddr req =
      ⟨(admitTunnel M W cfg w rules restrictPathPrefix req).log ++
        .execTunnel restriction remote (forwardedAddr clientAddr req) ::
          (openTunnel cfg w restriction remote rateInfo (forwardedAddr clientAddr req)).log,
        (openTunnel cfg w restriction remote rateInfo (forwardedAddr clientAddr req)).result⟩ := by
  rw [handleTunnelRequest, Trace.bind_of_ok h]
  rfl

/-- The call in the log is the one that the checks have led to. -/
theorem admitTunnel_of_call {clientAddr client : SocketAddr} (h : .execTunnel restriction remote client ∈
      (handleTunnelRequest M W cfg w rules restrictPathPrefix clientAddr req).log) :
    client = forwardedAddr clientAddr req ∧
      ∃ rateInfo, (admitTunnel M W cfg w rules restrictPathPrefix req).result = .ok (restriction, remote, rateInfo) := by
  have hasked := admitTunnel_log M W cfg w rules restrictPathPrefix req
  cases hadmit : (admitTunnel M W cfg w rules restrictPathPrefix req).result with
  | error e =>
    rw [handleTunnelRequest_of_error M W cfg w hadmit] at h
    obtain ⟨q, hq⟩ := hasked _ h
    cases hq
  | ok found =>
    obtain ⟨restriction', remote', rateInfo⟩ := found
    rw [handleTunnelRequest_log_of_ok M W cfg w hadmit] at h
    rcases List.mem_append.mp h with h | h
    · obtain ⟨q, hq⟩ := hasked _ h
      cases hq
    rcases List.mem_cons.mp h with h | h
    · cases h
      exact ⟨rfl, rateInfo, rfl⟩
    · exact (execTunnel_destination cfg w restriction' remote' _ _ h).elim

theorem admitTunnel_of_found {pathPrefix : String} {token : RemoteAddr}
    (hpath : checkPath restrictPathPrefix req = .ok pathPrefix) (htoken : requestedRemote W req = some token)
    (hresolve : (resolveRemote W cfg w (extractAuthorization req) token).result = .ok (remote, rateInfo))
    (hfound : validateTunnel M remote pathPrefix (extractAuthorization req) rules = some restriction) :
    admitTunnel M W cfg w rules restrictPathPrefix req =
      ⟨(resolveRemote W cfg w (extractAuthorization req) token).log, .ok (restriction, remote, rateInfo)⟩ := by
  rw [admitTunnel, hpath, htoken]
  show (resolveRemote W cfg w (extractAuthorization req) token >>= _ : Trace Effect HttpResponse _) = _
  rw [Trace.bind_of_ok hresolve]
  dsimp only
  rw [hfound]
  exact congrArg (Trace.mk · _) (List.append_nil _)

/-- Other rules change only the rule that the checks find. -/
theorem admitTunnel_of_ok
    (h : (admitTunnel M W cfg w rules restrictPathPrefix req).result = .ok (restriction, remote, rateInfo)) :
    ∃ pathPrefix, validateTunnel M remote pathPrefix (extractAuthorization req) rules = some restriction ∧
      ∀ rules' restriction',
        validateTunnel M remote pathPrefix (extractAuthorization req) rules' = some restriction' →
          admitTunnel M W cfg w rules' restrictPathPrefix req =
            ⟨(admitTunnel M W cfg w rules restrictPathPrefix req).log, .ok (restriction', remote, rateInfo)⟩ := by
  have hsteps := h
  simp only [admitTunnel, Trace.bind_eq_ok, Trace.ofOption_eq_ok, Trace.ofExcept_result, Trace.pure_result,
    Except.ok.injEq, Prod.mk.injEq, Prod.exists] at hsteps
  obtain ⟨pathPrefix, hpath, token, htoken, _, _, hresolve, _, hfound, rfl, rfl, rfl⟩ := hsteps
  refine ⟨pathPrefix, hfound, fun rules' restriction' hfound' => ?_⟩
  rw [admitTunnel_of_found hpath htoken hresolve hfound', admitTunnel_of_found hpath htoken hresolve hfound]

theorem execTunnel_congr {restriction' : RestrictionConfig} (hport : remote.protocol.isReverseTunnel = true →
      findMappedPort remote.port restriction' = findMappedPort remote.port restriction) (client : SocketAddr) :
    execTunnel cfg w restriction' remote client = execTunnel cfg w restriction remote client := by
  cases hproto : remote.protocol with
  | reverseTcp | reverseUdp _ | reverseSocks5 _ _ | reverseHttpProxy _ _ =>
    rw [hproto] at hport
    simp only [execTunnel, hproto, execReverse, hport rfl]
  | _ => simp only [execTunnel, hproto]

/-- **Rules that are added take nothing away.** A request that comes to
`exec_tunnel` does so under every list with the same rules and more, in any order,
and with the same destination. What it opens and the answer to it are the same, too,
if it is no reverse tunnel or the rule that is found maps its port as before. If the
new rules stand behind the old ones, all of the run is the same. -/
theorem rules_added (hsub : rules.restrictions ⊆ rules'.restrictions) (restrictPathPrefix : Option String)
    (clientAddr : SocketAddr) (req : Request) {restriction : RestrictionConfig} {remote : RemoteAddr}
    {client : SocketAddr} (hcall : .execTunnel restriction remote client ∈
      (handleTunnelRequest M W cfg w rules restrictPathPrefix clientAddr req).log) :
    let before := handleTunnelRequest M W cfg w rules restrictPathPrefix clientAddr req
    let after := handleTunnelRequest M W cfg w rules' restrictPathPrefix clientAddr req
    (∃ restriction' ∈ rules'.restrictions, .execTunnel restriction' remote client ∈ after.log ∧
      ((remote.protocol.isReverseTunnel = true →
          findMappedPort remote.port restriction' = findMappedPort remote.port restriction) →
        opened after.log = opened before.log ∧ after.result = before.result)) ∧
      ∀ more, rules'.restrictions = rules.restrictions ++ more → after = before := by
  intro before after
  obtain ⟨rfl, rateInfo, hadmit⟩ := admitTunnel_of_call hcall
  obtain ⟨pathPrefix, hfound, hother⟩ := admitTunnel_of_ok hadmit
  have hbefore : before = _ := handleTunnelRequest_of_ok hadmit clientAddr
  refine ⟨?_, fun more hmore => ?_⟩
  · obtain ⟨restriction', hfound'⟩ := validateTunnel_of_subset hsub hfound
    have hadmit' := hother rules' restriction' hfound'
    have hafter : after = _ := handleTunnelRequest_of_ok (by rw [hadmit']) clientAddr
    refine ⟨restriction', ?_, ?_, fun hport => ?_⟩
    · obtain ⟨_, _, hrules, -, -⟩ := (validateTunnel_eq_some M).mp hfound'
      rw [hrules]
      simp
    · rw [hafter]
      simp
    · rw [hafter, hbefore, hadmit']
      simp [opened, openTunnel, execTunnel_congr hport, Effect.isCall]
  · have hadmit' := hother rules' restriction (validateTunnel_of_append hmore hfound)
    have hafter : after = _ := handleTunnelRequest_of_ok (by rw [hadmit']) clientAddr
    rw [hafter, hbefore, hadmit']

/-- Parsers for which every token is that of `tcpOn10001`. -/
def reverseToken : Parsers where
  jwtTokenToTunnel _ := some ⟨"id", .reverseTcp, "127.0.0.1", 10001⟩
  hostParse _ := some (.ipv4 0x7F000001)
  uuidParse _ := none
  uuidText _ := ""
  scheme _ := "http"
  pushSegment _ _ := none
  isUri _ := false
  yamlEndpoint _ := none

def tcpUnmapped : RestrictionConfig :=
  ⟨"tcp", [.any], [.reverseTunnel ⟨[.tcp], [], [], defaultCidr, defaultHost⟩]⟩

/-- A rule that maps the port, behind the one in use and in front of it: the
request goes through, and the port differs in the second case. -/
theorem rules_added_mapped :
    let run rules := handleTunnelRequest anchoredMatchers reverseToken plainConfig quietWorld ⟨rules⟩ none ⟨.v4 0, 0⟩
      ⟨"/v1/events", []⟩
    .execTunnel tcpUnmapped tcpOn10001 ⟨.v4 0, 0⟩ ∈ (run [tcpUnmapped]).log ∧
      run [tcpUnmapped, tcpMapped] = run [tcpUnmapped] ∧
      (∃ restriction, .execTunnel restriction tcpOn10001 ⟨.v4 0, 0⟩ ∈ (run [tcpMapped, tcpUnmapped]).log) ∧
      boundAddrs (run [tcpUnmapped]).log = [⟨.v4 0x7F000001, 10001⟩] ∧
      boundAddrs (run [tcpMapped, tcpUnmapped]).log = [⟨.v4 0x7F000001, 8080⟩] := by
  intro run
  have hcall : .execTunnel tcpUnmapped tcpOn10001 ⟨.v4 0, 0⟩ ∈ (run [tcpUnmapped]).log := by decide
  have hback : (RestrictionsRules.mk [tcpUnmapped]).restrictions ⊆
      (RestrictionsRules.mk [tcpUnmapped, tcpMapped]).restrictions := by simp
  have hfront : (RestrictionsRules.mk [tcpUnmapped]).restrictions ⊆
      (RestrictionsRules.mk [tcpMapped, tcpUnmapped]).restrictions := by simp
  obtain ⟨-, hsame⟩ := rules_added hback none ⟨.v4 0, 0⟩ _ hcall
  obtain ⟨⟨restriction, -, hcall', -⟩, -⟩ := rules_added hfront none ⟨.v4 0, 0⟩ _ hcall
  exact ⟨hcall, hsame [tcpMapped] rfl, ⟨restriction, hcall'⟩, by decide, by decide⟩

end Wstunnel.L3
