import Wstunnel.L3Server.Exec
import Wstunnel.L5Concurrency.Ownership

/-!
# Reverse listeners and the requests that share them

`exec_tunnel` keeps one registry for each kind of listener. The key is the
bind address (for a unix socket, a hash of its path); the credentials, the
timeout and the path are captured by whichever request creates the listener.
A request that finds an entry takes connections from it, whatever it was
created with.

`server` composes `execTunnel` with the registry: a request arrives with the
listener it would create. Beside the state, `History` records which task
accepted each connection and which request got it.

**Third-party code.** The hash of a path (`World.pathHash`) is any function, so two
paths may share a key. What the listeners of `fast_socks5` and `hyper` do with the
credentials is in `Socks5Listener` and `HttpProxyListener`; here a listener is what
it was created with.

**Results.**
* `handed_by_own_listener`: in every run in which a look-up finds only
  listeners that serve what the request asks for, every connection handed to
  a request was accepted by such a listener.
* `openListener_serves_protectedProxy`: without that, a request for a proxy
  with a password is given connections of one without.
-/
namespace Wstunnel.L5.ReverseTunnel

/-! ## Connections and where they go -/

/-- `accepted`: task and connection. `handed`: request, task and connection. -/
structure History where
  accepted : List (Nat × Nat)
  handed : List (Nat × Nat × Nat)
  deriving DecidableEq, Repr

variable {K P : Type}

/-- The task and the connection that a `recv` of request `r` takes. -/
def State.delivery (s : State K P) (r : Nat) : Option (Nat × Nat) :=
  (s.requests[r]?).bind fun req => match req.pc with
    | .waiting t => (s.tasks[t]?).bind fun task => task.queue.head?.map fun cnx => (t, cnx)
    | _ => none

def History.next (s : State K P) (l : Label K P) (h : History) : History :=
  match l with
  | .accept t cnx => { h with accepted := (t, cnx) :: h.accepted }
  | .recv r => match s.delivery r with
    | some d => { h with handed := (r, d) :: h.handed }
    | none => h
  | _ => h

variable (R : P → P → Prop)

/-- Task `t` was created with parameters that suit `params`. -/
def State.Offers (s : State K P) (t : Nat) (params : P) : Prop :=
  ∃ task, s.tasks[t]? = some task ∧ R task.params params

/-- A request's own parameters suit it, and so does the listener it uses. -/
def State.Fits (s : State K P) (req : Request K P) : Prop :=
  R req.params req.params ∧ ∀ t, req.pc.task = some t → s.Offers R t req.params

/-- Every request uses a listener that suits it, what waits in a channel was
accepted by its task, and what was handed over came that way. -/
structure Matched (s : State K P) (h : History) : Prop where
  fits : ∀ (i : Nat) req, s.requests[i]? = some req → s.Fits R req
  queued : ∀ t task, s.tasks[t]? = some task → ∀ cnx, cnx ∈ task.queue ∨ task.phase = .sending cnx →
    (t, cnx) ∈ h.accepted
  handed : ∀ r t cnx, (r, t, cnx) ∈ h.handed → (t, cnx) ∈ h.accepted ∧
    ∃ req, s.requests[r]? = some req ∧ s.Offers R t req.params

/-! ## The history of a step -/

theorem History.accepted_next (s : State K P) (l : Label K P) (h : History) {x : Nat × Nat}
    (hx : x ∈ h.accepted) : x ∈ (h.next s l).accepted := by
  unfold History.next
  split
  · exact List.mem_cons_of_mem _ hx
  · split <;> exact hx
  · exact hx

/-- What a task's own step puts into its channel it has accepted. -/
theorem TaskMove.queued {s : State K P} {l : Label K P} {t : Nat} {task task' : Task K P} {h : History}
    (hmove : TaskMove task l task') (ha : l.actor = some (.inr t))
    (hq : ∀ cnx, cnx ∈ task.queue ∨ task.phase = .sending cnx → (t, cnx) ∈ h.accepted) (cnx : Nat)
    (hc : cnx ∈ task'.queue ∨ task'.phase = .sending cnx) : (t, cnx) ∈ (h.next s l).accepted := by
  have keep : cnx ∈ task.queue → (t, cnx) ∈ (h.next s l).accepted := fun hmem =>
    h.accepted_next s l (hq cnx (.inl hmem))
  cases hmove with
  | accept _ =>
    cases ha
    rcases hc with hc | hc
    · exact keep hc
    · cases hc
      exact List.mem_cons_self
  | acceptErr _ => exact h.accepted_next s _ (hq cnx hc)
  | @send _ cnx' hp =>
    rcases hc with hc | hc
    · rcases List.mem_append.mp hc with hc | hc
      · exact keep hc
      · rw [List.mem_singleton] at hc
        exact h.accepted_next s _ (hq cnx (.inr (hc ▸ hp)))
    · cases hc
  | start _ | count _ =>
    rcases hc with hc | hc
    · exact keep hc
    · simp only at hc
      split at hc <;> cases hc
  | _ =>
    rcases hc with hc | hc
    · exact keep hc
    · cases hc

variable {R} [DecidableEq K]

/-! ## What no step takes back -/

theorem offers_move {s s' : State K P} {l : Label K P} {t : Nat} {params : P} (hm : Move s l s')
    (h : s.Offers R t params) : s'.Offers R t params := by
  obtain ⟨task, ht, hR⟩ := h
  obtain ⟨task', ht', hc⟩ := task_change hm ht
  exact ⟨task', ht', hc.same.2 ▸ hR⟩

/-! ## Every step keeps the match -/

/-- The parameters of a request are its own, and a look-up finds only
listeners that suit the request. -/
def Suited (R : P → P → Prop) (s : State K P) : Label K P → Prop
  | .arrive _ params => R params params
  | .lookup r => ∀ req ∈ s.requests[r]?, ∀ t ∈ s.servers.lookup req.key, s.Offers R t req.params
  | _ => True

theorem fits_move {s s' : State K P} {l : Label K P} {h : History} (hinv : Matched R s h)
    (hsuit : Suited R s l) (hm : Move s l s') (i : Nat) (req : Request K P)
    (hr : s'.requests[i]? = some req) : s'.Fits R req := by
  refine ⟨?_, fun t ht => ?_⟩
  · rcases request_back hm hr with ⟨req₀, _, hr₀, rfl, -⟩ | ⟨key, params, rfl, rfl⟩
    · exact (hinv.fits i req₀ hr₀).1
    · exact hsuit
  · obtain ⟨req₀, hr₀, hp, huse⟩ := uses_move hm hr ht
    rw [← hp]
    rcases huse with hold | ⟨rfl, hfound⟩ | ⟨hnew, -⟩
    · exact offers_move hm ((hinv.fits i req₀ hr₀).2 t hold)
    · exact offers_move hm (hsuit req₀ hr₀ t hfound)
    · exact ⟨newTask req₀, hnew, (hinv.fits i req₀ hr₀).1⟩

theorem queued_move {s s' : State K P} {l : Label K P} {h : History} (hinv : Matched R s h)
    (hm : Move s l s') : ∀ (t : Nat) task, s'.tasks[t]? = some task →
      ∀ cnx, cnx ∈ task.queue ∨ task.phase = .sending cnx → (t, cnx) ∈ (h.next s l).accepted := by
  intro t task' ht' cnx hq'
  rcases task_back hm ht' with ⟨task, ht, hc⟩ | ⟨_, _, -, -, -, rfl⟩
  · have old : cnx ∈ task.queue ∨ task.phase = .sending cnx → (t, cnx) ∈ (h.next s l).accepted :=
      fun hq => h.accepted_next s l (hinv.queued t task ht cnx hq)
    cases hc with
    | own ha hmove => exact hmove.queued ha (hinv.queued t task ht) cnx hq'
    | used _ hsub => exact old (hq'.imp_left fun hmem => hsub hmem)
    | removed _ _ =>
      rcases hq' with hq' | hq'
      · exact old (.inl hq')
      · cases hq'
    | other _ | replaced _ _ | dropped _ _ _ _ => exact old hq'
  · rcases hq' with hq' | hq' <;> cases hq'

theorem handed_move {s s' : State K P} {l : Label K P} {h : History} (hinv : Matched R s h)
    (hm : Move s l s') (r t cnx : Nat) (hx : (r, t, cnx) ∈ (h.next s l).handed) :
    (t, cnx) ∈ (h.next s l).accepted ∧
      ∃ req, s'.requests[r]? = some req ∧ s'.Offers R t req.params := by
  have old : ∀ req, s.requests[r]? = some req → s.Offers R t req.params →
      ∃ req, s'.requests[r]? = some req ∧ s'.Offers R t req.params := by
    intro req hr ho
    obtain ⟨pc, hr', -⟩ := request_change hm hr
    exact ⟨{ req with pc }, hr', offers_move hm ho⟩
  by_cases hold : (r, t, cnx) ∈ h.handed
  · obtain ⟨hacc, req, hr, ho⟩ := hinv.handed r t cnx hold
    exact ⟨h.accepted_next s l hacc, old req hr ho⟩
  · -- the connection has just been handed over
    have hnew : l = .recv r ∧ s.delivery r = some (t, cnx) := by
      unfold History.next at hx
      split at hx
      · exact absurd hx hold
      · split at hx
        · rename_i d hd
          rcases List.mem_cons.mp hx with hx | hx
          · cases hx
            exact ⟨rfl, hd⟩
          · exact absurd hx hold
        · exact absurd hx hold
      · exact absurd hx hold
    obtain ⟨req, hr, hd⟩ := Option.bind_eq_some_iff.mp hnew.2
    split at hd
    · rename_i t' hpc
      obtain ⟨task, ht, hd⟩ := Option.bind_eq_some_iff.mp hd
      obtain ⟨cnx', hq, hd⟩ := Option.map_eq_some_iff.mp hd
      cases hd
      refine ⟨h.accepted_next s l (hinv.queued t task ht cnx (.inl (List.mem_of_mem_head? hq))), ?_⟩
      exact old req hr ((hinv.fits r req hr).2 t (hpc ▸ rfl))
    · cases hd

theorem matched_move {s s' : State K P} {l : Label K P} {h : History} (hinv : Matched R s h)
    (hsuit : Suited R s l) (hm : Move s l s') : Matched R s' (h.next s l) where
  fits := fits_move hinv hsuit hm
  queued := queued_move hinv hm
  handed := handed_move hinv hm

/-! ## The server -/

open Wstunnel.L1 Wstunnel.L2 Wstunnel.L3

/-- The registries of `exec_tunnel`, one for each type of listener. -/
inductive ListenerKind where
  | tcp
  | udp
  | socks5
  | httpProxy
  | unix
  deriving DecidableEq, Repr

def listenerKind : Listener → ListenerKind
  | .tcp _ => .tcp
  | .udp _ _ => .udp
  | .socks5 _ _ => .socks5
  | .httpProxy _ _ => .httpProxy
  | .unix _ _ => .unix

/-- The listener gives the access that the request asks for: a proxy with
exactly its credentials, or a socket at exactly its path. -/
def serves : Listener → LocalProtocol → Bool
  | .tcp _, .reverseTcp => true
  | .udp _ _, .reverseUdp _ => true
  | .socks5 _ credentials, .reverseSocks5 _ credentials' => credentials = credentials'
  | .httpProxy _ credentials, .reverseHttpProxy _ credentials' => credentials = credentials'
  | .unix path _, .reverseUnix path' => path = path'
  | _, _ => false

/-- What a request asks for, and the listener it would create. -/
structure Params where
  protocol : LocalProtocol
  listener : Listener
  deriving DecidableEq, Repr

/-- Which registry, and the key in it. -/
structure ServerKey where
  kind : ListenerKind
  bind : SocketAddr
  deriving DecidableEq, Repr

/-- A tunnel request, or a step of a request or task already there. -/
inductive ServerLabel where
  | request (restriction : RestrictionConfig) (remote : RemoteAddr) (client : SocketAddr)
  | inner (l : Label ServerKey Params)
  deriving DecidableEq, Repr

/-- The call of `run_listening_server` that an effect is. -/
def listening : Effect → Option (Listener × SocketAddr)
  | .runListeningServer listener bind _ => some (listener, bind)
  | _ => none

variable (cfg : WsServerConfig) (w : World)

/-- What `exec_tunnel` does for a request, as a step of the registry.
mirrors wstunnel/src/tunnel/server/server.rs:255-355 -/
def registryLabel : ServerLabel → Option (Label ServerKey Params)
  | .request restriction remote client =>
    ((execTunnel cfg w restriction remote client).log.findSome? listening).map fun x =>
      .arrive ⟨listenerKind x.1, x.2⟩ ⟨remote.protocol, x.1⟩
  | .inner (.arrive _ _) => none
  | .inner l => some l

def serverStep (x : State ServerKey Params × History) (l : ServerLabel) :
    Option (State ServerKey Params × History) :=
  (registryLabel cfg w l).bind (LTS.track step History.next x)

def server : LTS (State ServerKey Params × History) ServerLabel :=
  LTS.ofFn (· = (empty, ⟨[], []⟩)) (serverStep cfg w)

/-- A look-up that finds a listener finds one that serves the request. -/
def OwnListener (x : State ServerKey Params × History) : ServerLabel → Prop
  | .inner (.lookup r) => ∀ req ∈ x.1.requests[r]?, ∀ t ∈ x.1.servers.lookup req.key,
      ∃ task ∈ x.1.tasks[t]?, serves task.params.listener req.params.protocol = true
  | _ => True

instance (x : State ServerKey Params × History) (l : ServerLabel) : Decidable (OwnListener x l) := by
  unfold OwnListener
  split <;> infer_instance

/-! ## A request creates the listener it asks for -/

theorem runListeningServer_serves {listener : Listener} {protocol : LocalProtocol}
    (h : serves listener protocol = true) (bind : SocketAddr) :
    (runListeningServer cfg w listener bind).AllLog fun e =>
      ∀ x, listening e = some x → serves x.1 protocol = true := by
  intro e he x hx
  rw [runListeningServer_log, List.mem_singleton] at he
  subst he
  cases hx
  exact h

theorem execReverse_serves {listener : Host × UInt16 → Listener} {protocol : LocalProtocol}
    (h : ∀ srv, serves (listener srv) protocol = true) (restriction : RestrictionConfig)
    (remote : RemoteAddr) : (execReverse cfg w restriction remote listener).AllLog fun e =>
      ∀ x, listening e = some x → serves x.1 protocol = true :=
  Trace.allLog_bind (Trace.allLog_of_log_nil (by simp)) fun _ _ =>
    runListeningServer_serves cfg w (h _) _

/-- Only a reverse tunnel asks for a listening server. -/
theorem isReverseTunnel_of_listening {restriction : RestrictionConfig} {remote : RemoteAddr}
    {e : Effect} {x : Listener × SocketAddr} (h : e.Reaches restriction remote)
    (hx : listening e = some x) : remote.protocol.isReverseTunnel = true := by
  cases e with
  | runListeningServer listener bind idle =>
    cases listener with
    | unix path _ =>
      have hp : remote.protocol = .reverseUnix path := h
      rw [hp]
      rfl
    | _ => exact h.1
  | _ => cases hx

theorem execTunnel_serves (restriction : RestrictionConfig) (remote : RemoteAddr) (client : SocketAddr) :
    (execTunnel cfg w restriction remote client).AllLog fun e =>
      ∀ x, listening e = some x → serves x.1 remote.protocol = true := by
  cases hp : remote.protocol with
  | reverseTcp | reverseUdp _ | reverseSocks5 _ _ | reverseHttpProxy _ _ =>
    unfold execTunnel
    rw [hp]
    exact execReverse_serves cfg w (fun _ => by simp [serves]) restriction remote
  | reverseUnix path =>
    unfold execTunnel
    rw [hp]
    exact Trace.allLog_bind (Trace.allLog_of_log_nil (by simp)) fun _ _ =>
      runListeningServer_serves cfg w (by simp [serves]) _
  | _ =>
    intro e he x hx
    have hrev := isReverseTunnel_of_listening (execTunnel_destination cfg w _ _ _ e he) hx
    rw [hp] at hrev
    cases hrev

theorem suited_of_registryLabel {l : ServerLabel} {l' : Label ServerKey Params}
    {x : State ServerKey Params × History} (hown : OwnListener x l)
    (hl : registryLabel cfg w l = some l') :
    Suited (fun p p' => serves p.listener p'.protocol = true) x.1 l' := by
  cases l with
  | request restriction remote client =>
    obtain ⟨y, hy, rfl⟩ := Option.map_eq_some_iff.mp hl
    obtain ⟨e, he, hle⟩ := List.exists_of_findSome?_eq_some hy
    exact execTunnel_serves cfg w restriction remote client e he y hle
  | inner l =>
    cases l with
    | arrive _ _ => cases hl
    | lookup r =>
      cases hl
      intro req hr t ht
      obtain ⟨task, htask, hserves⟩ := hown req hr t ht
      exact ⟨task, htask, hserves⟩
    | _ =>
      cases hl
      trivial

theorem matched_inductive : ((server cfg w).guard OwnListener).Inductive fun x =>
    Matched (fun p p' => serves p.listener p'.protocol = true) x.1 x.2 where
  init x hx := by
    rw [show x = (empty, ⟨[], []⟩) from hx]
    exact ⟨by simp [empty], by simp [empty], by simp⟩
  step x l y h hs := by
    obtain ⟨hs, hown⟩ := hs
    obtain ⟨l', hl, ht⟩ := Option.bind_eq_some_iff.mp hs
    obtain ⟨hstep, hhist⟩ := LTS.track_eq_some.mp ht
    rw [hhist]
    exact matched_move h (suited_of_registryLabel cfg w hown hl) (move_of_step hstep)

/-- **No listener is shared across parameters.** In every run in which a
look-up finds only a listener that serves the request, every connection that
a request was handed was accepted by a listener with exactly the request's
credentials, or at exactly its path. -/
theorem handed_by_own_listener (x : State ServerKey Params × History)
    (hr : ((server cfg w).guard OwnListener).Reachable x) (r t cnx : Nat)
    (hx : (r, t, cnx) ∈ x.2.handed) :
    (t, cnx) ∈ x.2.accepted ∧ ∃ req task, x.1.requests[r]? = some req ∧ x.1.tasks[t]? = some task ∧
      serves task.params.listener req.params.protocol = true := by
  obtain ⟨hacc, req, hreq, task, ht, hR⟩ :=
    ((matched_inductive cfg w).reachable x hr).handed r t cnx hx
  exact ⟨hacc, req, task, hreq, ht, hR⟩

/-! ## Two requests for one address -/

/-- A rule that admits reverse socks5 anywhere. -/
def socksAnywhere : RestrictionConfig :=
  ⟨"socks", [.any], [.reverseTunnel ⟨[.socks5], [], [], defaultCidr, defaultHost⟩]⟩

def socksOn1080 (credentials : Option Credentials) : RemoteAddr :=
  ⟨.reverseSocks5 none credentials, .ipv4 0, 1080⟩

/-- Both requests arrive, the first creates the listener, the second finds
it; a connection is accepted and the second request takes it. -/
def secondTakes (credentials credentials' : Option Credentials) : List ServerLabel :=
  [.request socksAnywhere (socksOn1080 credentials) ⟨.v4 0, 0⟩,
   .request socksAnywhere (socksOn1080 credentials') ⟨.v4 0, 0⟩,
   .inner (.lookup 0), .inner (.bind 0 true), .inner (.spawn 0), .inner (.fetchAdd 0),
   .inner (.clone 0), .inner (.insert 0), .inner (.start 0), .inner (.lookup 1), .inner (.fetchAdd 1),
   .inner (.clone 1), .inner (.accept 0 7), .inner (.send 0), .inner (.recv 1)]

theorem handed_by_own_listener_samePassword :
    ∃ x, ((server plainConfig quietWorld).guard OwnListener).Reachable x ∧ (1, 0, 7) ∈ x.2.handed ∧
      (0, 7) ∈ x.2.accepted ∧ ∃ req task, x.1.requests[1]? = some req ∧
        x.1.tasks[0]? = some task ∧ serves task.params.listener req.params.protocol = true := by
  obtain ⟨x, hs, hx⟩ : ∃ x, LTS.exec (fun x l => if OwnListener x l then
        serverStep plainConfig quietWorld x l else none) (empty, ⟨[], []⟩)
        (secondTakes (some ("admin", "admin")) (some ("admin", "admin"))) = some x ∧
      (1, 0, 7) ∈ x.2.handed := ⟨_, rfl, by decide⟩
  have hr : ((server plainConfig quietWorld).guard OwnListener).Reachable x :=
    ⟨_, _, rfl, LTS.run_guard_ofFn hs⟩
  exact ⟨x, hr, hx, handed_by_own_listener plainConfig quietWorld x hr 1 0 7 hx⟩

/-- Both requests are admitted, the first without credentials: a client that
connects without a password is handed to the request that asked for one. -/
theorem openListener_serves_protectedProxy :
    (∀ credentials ∈ [none, some ("admin", "admin")],
      validateTunnel anchoredMatchers (socksOn1080 credentials) "any" none ⟨[socksAnywhere]⟩ =
        some socksAnywhere) ∧
    ∃ x, (server plainConfig quietWorld).Reachable x ∧ (1, 0, 7) ∈ x.2.handed ∧
      (x.1.tasks[0]?).map (·.params.listener) = some (.socks5 none none) ∧
      (x.1.requests[1]?).map (·.params.protocol) =
        some (.reverseSocks5 none (some ("admin", "admin"))) := by
  refine ⟨by decide, ?_⟩
  obtain ⟨x, hs, hx⟩ : ∃ x, LTS.exec (serverStep plainConfig quietWorld) (empty, ⟨[], []⟩)
        (secondTakes none (some ("admin", "admin"))) = some x ∧
      (1, 0, 7) ∈ x.2.handed ∧
      (x.1.tasks[0]?).map (·.params.listener) = some (.socks5 none none) ∧
      (x.1.requests[1]?).map (·.params.protocol) =
        some (.reverseSocks5 none (some ("admin", "admin"))) := ⟨_, rfl, by decide⟩
  exact ⟨x, ⟨_, _, rfl, LTS.run_ofFn.mpr hs⟩, hx⟩

end Wstunnel.L5.ReverseTunnel
