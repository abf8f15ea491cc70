import Wstunnel.Core.JoinSet
import Wstunnel.Core.LTS
import Wstunnel.L3Client.ProxyAuth

/-!
# The listener of an HTTP proxy

`run_server` of `protocols/http_proxy/server.rs` accepts connections, reads the
request of each in a task of its own and yields the connection with the
destination of the request. The `select!` is biased: a task that has ended comes
before a new connection.

**Third-party code.** `httparse`, `Url::parse` and IDNA are the parameter `Crates`;
what `peek` sees and how `hyper` serves the connection is data of the client. Nothing
is assumed of them but that a service is asked at most once, because keep-alive is
off. The tasks are in a `JoinSet`, in the order in which they end.

**Results.**
* `handleNewConnection_eq_some`: what the two handlers accept, `CONNECT` requests
  and those with an absolute URL.
* `http_proxy_serves`: over any interleaving every connection is yielded at most
  once, with the destination that it asked for and only with the credentials; none
  is lost; and nobody waits for the request of somebody else.
-/
namespace Wstunnel.L5.HttpProxyListener

open Wstunnel.L1 Wstunnel.L3.ProxyAuth

abbrev Bytes := List UInt8

abbrev Dest := Host × UInt16

/-! ## One connection -/

/-- `url::Url`, as far as it is looked at. -/
structure ParsedUrl where
  host : Option Host
  portOrKnownDefault : Option UInt16

/-- `httparse::Request` after `parse`, also when that failed. A value is the text
that `from_utf8_lossy` makes of it. -/
structure Head where
  path : Option String
  headers : List (String × String)

structure Crates where
  uts46 : List UInt8 → Option (List Char)
  urlParse : String → Option ParsedUrl
  /-- with room for this many headers -/
  httparse : Nat → Bytes → Head

/-- What `hyper` gives to the service: the method, host and port of the target, and
the header when it is a text. -/
structure Request where
  method : String
  host : Option String
  port : Option UInt16
  proxyAuthorization : Option String
  deriving DecidableEq, Repr

/-- What a client that has connected does: the bytes that `peek` sees, or its error;
and how `serve_connection` ends, with an error, without a request, or with one. -/
structure Client where
  peek : Option Bytes
  serve : Option (Option Request)
  deriving DecidableEq, Repr

variable (K : Crates)

/-- The status, and what is written to `dest`.
mirrors wstunnel/src/protocols/http_proxy/server.rs:41-78 -/
def handleHttpConnectRequest (credentials : Option String) (req : Request) : Nat × Option Dest :=
  if req.method ≠ "CONNECT" then (401, none)
  else match hostParse K.uts46 (req.host.getD "") with
    | none => (401, none)
    | some host =>
      if !verifyCredentials credentials req.proxyAuthorization then (401, none)
      else (200, some (host, req.port.getD 443))

/-- The comparison of names with a `HeaderName` ignores case.
mirrors wstunnel/src/protocols/http_proxy/server.rs:221-227 -/
def Head.proxyAuthorization (head : Head) : Option String :=
  head.headers.findSome? fun h => if h.1.toLower = "proxy-authorization" then some h.2 else none

/-- mirrors wstunnel/src/protocols/http_proxy/server.rs:218-238 -/
def handleRegularHttpRequest (head : Head) (authHeader : Option String) : Option Dest :=
  if !verifyCredentials authHeader head.proxyAuthorization then none
  else do
    let url ← K.urlParse (head.path.getD "")
    let host ← url.host
    return (host, url.portOrKnownDefault.getD 80)

/-- `b"CONNECT "` -/
def connectMethod : Bytes := [0x43, 0x4F, 0x4E, 0x4E, 0x45, 0x43, 0x54, 0x20]

/-- `[0; 512]` after `peek`. -/
def requestBuf (peeked : Bytes) : Bytes := peeked ++ List.replicate (512 - peeked.length) 0

/-- mirrors wstunnel/src/protocols/http_proxy/server.rs:97-147 -/
def handleNewConnection (credentials : Option String) (client : Client) : Option Dest := do
  let peeked ← client.peek
  if (requestBuf peeked).take connectMethod.length ≠ connectMethod then
    let headersLen := if credentials.isSome then 32 else 0
    handleRegularHttpRequest K (K.httparse headersLen peeked) credentials
  else
    let req ← (← client.serve)
    (handleHttpConnectRequest K credentials req).2

/-! ## What a client asks for -/

/-- The value of `Proxy-Authorization` that the credentials call for. -/
def Authorized (credentials : Option (String × String)) (value : Option String) : Prop :=
  ∀ user pass, credentials = some (user, pass) → ∃ v, value = some v ∧
    (Str.trim v).toList = "Basic ".toList ++ Base64.encode (Utf8.encode (user ++ ":" ++ pass).toList)

/-- What the request of a client names, in a client that has the credentials. -/
inductive Asks (credentials : Option (String × String)) (client : Client) : Dest → Prop
  | connect {buf : Bytes} {req : Request} {host : Host} (hpeek : client.peek = some buf)
    (hmethod : connectMethod <+: buf) (hserve : client.serve = some (some req)) (hconnect : req.method = "CONNECT")
    (hhost : hostParse K.uts46 (req.host.getD "") = some host)
    (hauth : Authorized credentials req.proxyAuthorization) : Asks credentials client (host, req.port.getD 443)
  | regular {buf : Bytes} {head : Head} {url : ParsedUrl} {host : Host} (hpeek : client.peek = some buf)
    (hmethod : ¬ connectMethod <+: buf) (hhead : head = K.httparse (if credentials.isSome then 32 else 0) buf)
    (hurl : K.urlParse (head.path.getD "") = some url) (hhost : url.host = some host)
    (hauth : Authorized credentials head.proxyAuthorization) :
    Asks credentials client (host, url.portOrKnownDefault.getD 80)

theorem verifyCredentials_iff {credentials : Option (String × String)} {value : Option String} :
    verifyCredentials (authHeader credentials) value = true ↔ Authorized credentials value := by
  cases credentials with
  | none => exact iff_of_true rfl fun _ _ h => by cases h
  | some pair =>
    obtain ⟨user, pass⟩ := pair
    cases value with
    | none =>
      refine iff_of_false (fun h => by cases h) fun h => ?_
      obtain ⟨v, hv, -⟩ := h user pass rfl
      cases hv
    | some v =>
      have htoken : authHeader (some (user, pass)) =
        some (String.ofList (Base64.encode (Utf8.encode (user ++ ":" ++ pass).toList))) := rfl
      simp only [verifyCredentials, htoken, Bool.and_eq_true, List.isPrefixOf_iff_prefix, decide_eq_true_eq,
        String.toList_ofList]
      refine ⟨?_, fun h => ?_⟩
      · rintro ⟨⟨rest, hrest⟩, hdrop⟩ _ _ hpair
        cases hpair
        refine ⟨v, rfl, ?_⟩
        rw [← hrest] at hdrop ⊢
        exact congrArg _ hdrop
      · obtain ⟨_, hv, htrim⟩ := h user pass rfl
        cases hv
        rw [htrim]
        exact ⟨List.prefix_append _ _, rfl⟩

/-- The zeros behind what was peeked do not make a method. -/
theorem take_requestBuf (peeked : Bytes) :
    (requestBuf peeked).take connectMethod.length = connectMethod ↔ connectMethod <+: peeked := by
  rw [eq_comm, ← List.prefix_iff_eq_take, requestBuf]
  refine ⟨?_, fun h => h.trans (List.prefix_append _ _)⟩
  rintro ⟨rest, hrest⟩
  rcases List.append_eq_append_iff.mp hrest with ⟨more, hmore, -⟩ | ⟨zeros, hzeros, hrep⟩
  · exact ⟨more, hmore.symm⟩
  · cases zeros with
    | nil => exact ⟨[], by rw [hzeros, List.append_nil, List.append_nil]⟩
    | cons z zeros =>
      have hz : z ∈ List.replicate (512 - peeked.length) (0 : UInt8) := hrep ▸ List.mem_cons_self
      rw [List.eq_of_mem_replicate hz] at hzeros
      have hzero : (0 : UInt8) ∈ connectMethod := hzeros ▸ List.mem_append_right _ List.mem_cons_self
      exact absurd hzero (by decide)

theorem handleHttpConnectRequest_eq_some {credentials : Option (String × String)} {req : Request} {dest : Dest} :
    (handleHttpConnectRequest K (authHeader credentials) req).2 = some dest ↔
      req.method = "CONNECT" ∧ Authorized credentials req.proxyAuthorization ∧
        ∃ host, hostParse K.uts46 (req.host.getD "") = some host ∧ dest = (host, req.port.getD 443) := by
  rw [← verifyCredentials_iff, handleHttpConnectRequest]
  by_cases hmethod : req.method = "CONNECT"
  · rw [if_neg (not_not_intro hmethod)]
    cases hostParse K.uts46 (req.host.getD "") with
    | none => simp
    | some host =>
      cases verifyCredentials (authHeader credentials) req.proxyAuthorization <;> simp [hmethod, eq_comm]
  · rw [if_pos hmethod]
    simp [hmethod]

theorem handleRegularHttpRequest_eq_some {credentials : Option (String × String)} {head : Head} {dest : Dest} :
    handleRegularHttpRequest K head (authHeader credentials) = some dest ↔
      Authorized credentials head.proxyAuthorization ∧ ∃ url host, K.urlParse (head.path.getD "") = some url ∧
        url.host = some host ∧ dest = (host, url.portOrKnownDefault.getD 80) := by
  rw [← verifyCredentials_iff, handleRegularHttpRequest]
  cases verifyCredentials (authHeader credentials) head.proxyAuthorization with
  | false => simp
  | true =>
    have hdest (host : Host) (port : UInt16) : some (host, port) = some dest ↔ dest = (host, port) :=
      Option.some_inj.trans eq_comm
    simp [Option.bind_eq_some_iff, hdest]

theorem handleNewConnection_eq_some {credentials : Option (String × String)} {client : Client} {dest : Dest} :
    handleNewConnection K (authHeader credentials) client = some dest ↔ Asks K credentials client dest := by
  have hsome : (authHeader credentials).isSome = credentials.isSome := Option.isSome_map
  refine ⟨fun h => ?_, fun h => ?_⟩
  · obtain ⟨buf, hpeek, h⟩ := Option.bind_eq_some_iff.mp h
    dsimp only at h
    split at h
    · rename_i hmethod
      rw [hsome] at h
      obtain ⟨hauth, url, host, hurl, hhost, rfl⟩ := (handleRegularHttpRequest_eq_some K).mp h
      exact .regular hpeek (mt (take_requestBuf buf).mpr hmethod) rfl hurl hhost hauth
    · rename_i hmethod
      obtain ⟨served, hserve, h⟩ := Option.bind_eq_some_iff.mp h
      obtain ⟨req, rfl, h⟩ := Option.bind_eq_some_iff.mp h
      obtain ⟨hconnect, hauth, host, hhost, rfl⟩ := (handleHttpConnectRequest_eq_some K).mp h
      exact .connect hpeek ((take_requestBuf buf).mp (not_not.mp hmethod)) hserve hconnect hhost hauth
  · cases h with
    | @connect buf req host hpeek hmethod hserve hconnect hhost hauth =>
      have hdest := (handleHttpConnectRequest_eq_some K).mpr ⟨hconnect, hauth, host, hhost, rfl⟩
      rw [handleNewConnection, hpeek, hserve, Option.bind_eq_bind, Option.bind_some,
        if_neg (not_not_intro ((take_requestBuf buf).mpr hmethod))]
      exact hdest
    | @regular buf head url host hpeek hmethod hhead hurl hhost hauth =>
      have hdest := (handleRegularHttpRequest_eq_some K).mpr ⟨hauth, url, host, hurl, hhost, rfl⟩
      rw [handleNewConnection, hpeek, Option.bind_eq_bind, Option.bind_some,
        if_pos (mt (take_requestBuf buf).mp hmethod), hsome]
      subst hhead
      exact hdest

/-! ## The listener -/

/-- Connections are numbered in the order of `accept`, and their tasks with them.
`yielded` are the items of the stream, `refused` the connections that were dropped. -/
structure State where
  tasks : JoinSet (Option Dest)
  accepted : Nat
  yielded : List (Nat × Dest)
  refused : List Nat

inductive Ev where
  | accept
  | acceptFailed
  /-- the task of a connection ends -/
  | finish (c : Nat)
  /-- `select!` takes an ended task -/
  | join
  deriving DecidableEq, Repr

variable (credentials : Option (String × String)) (clients : Nat → Client)

/-- The result of the task of connection `c`. -/
def verdict (c : Nat) : Option Dest := handleNewConnection K (authHeader credentials) (clients c)

/-- mirrors wstunnel/src/protocols/http_proxy/server.rs:168-211 -/
def step (s : State) : Ev → Option State
  -- biased: only when no ended task can be joined
  | .accept =>
    if s.tasks.ended = [] then
      some { s with tasks := s.tasks.spawn s.accepted, accepted := s.accepted + 1 }
    else none
  | .acceptFailed => if s.tasks.ended = [] then some s else none
  | .finish c =>
    (s.tasks.finish c (.returned (verdict K credentials clients c))).map fun tasks => { s with tasks }
  | .join => match s.tasks.joinNext with
    | some (some (c, .returned (some forwardTo)), tasks) =>
      some { s with tasks, yielded := s.yielded ++ [(c, forwardTo)] }
    | some (some (c, _), tasks) => some { s with tasks, refused := s.refused ++ [c] }
    -- `if !tasks.is_empty()`
    | _ => none

def listener : LTS State Ev :=
  LTS.ofFn (· = ⟨JoinSet.new, 0, [], []⟩) (step K credentials clients)

structure Inv (s : State) : Prop where
  places : (s.tasks.ids ++ (s.yielded.map Prod.fst ++ s.refused)).Perm (List.range s.accepted)
  ended : ∀ x ∈ s.tasks.ended, x.2 = .returned (verdict K credentials clients x.1)
  yielded : ∀ x ∈ s.yielded, verdict K credentials clients x.1 = some x.2
  refused : ∀ c ∈ s.refused, verdict K credentials clients c = none

variable {K credentials clients}

theorem inv_accept {s : State} (h : Inv K credentials clients s) :
    Inv K credentials clients { s with tasks := s.tasks.spawn s.accepted, accepted := s.accepted + 1 } := by
  refine ⟨?_, h.ended, h.yielded, h.refused⟩
  have hspawn := (s.tasks.ids_spawn s.accepted).append_right (s.yielded.map Prod.fst ++ s.refused)
  rw [List.range_succ]
  refine hspawn.trans ?_
  rw [List.append_assoc]
  refine (List.perm_append_comm.append_left s.tasks.ids).trans ?_
  rw [← List.append_assoc]
  exact h.places.append_right [s.accepted]

theorem inv_finish {s : State} (h : Inv K credentials clients s) {c : Nat} {tasks : JoinSet (Option Dest)}
    (hfin : s.tasks.finish c (.returned (verdict K credentials clients c)) = some tasks) :
    Inv K credentials clients { s with tasks } := by
  refine ⟨((JoinSet.ids_finish hfin).append_right _).trans h.places, fun x hx => ?_, h.yielded, h.refused⟩
  rw [show State.tasks { s with tasks } = tasks from rfl, (JoinSet.finish_eq_some hfin).1] at hx
  rcases List.mem_append.mp hx with hx | hx
  · exact h.ended x hx
  · rw [List.mem_singleton.mp hx]

/-- What `join` does to a connection with a given verdict. -/
def State.joined (s : State) (c : Nat) (ended : List (Nat × TaskEnd (Option Dest))) : Option Dest → State
  | some dest => { s with tasks := { s.tasks with ended }, yielded := s.yielded ++ [(c, dest)] }
  | none => { s with tasks := { s.tasks with ended }, refused := s.refused ++ [c] }

theorem step_join {s s' : State} (h : Inv K credentials clients s) :
    step K credentials clients s .join = some s' ↔ ∃ c ended,
      s.tasks.ended = (c, .returned (verdict K credentials clients c)) :: ended ∧
        s' = s.joined c ended (verdict K credentials clients c) := by
  obtain ⟨⟨running, ended, aborted⟩, accepted, yielded, refused⟩ := s
  cases ended with
  | nil => cases running <;> simp [step, JoinSet.joinNext]
  | cons x ended =>
    obtain ⟨c, e⟩ := x
    obtain rfl : e = .returned (verdict K credentials clients c) := h.ended (c, e) List.mem_cons_self
    cases hv : verdict K credentials clients c <;>
      simp [step, JoinSet.joinNext, State.joined, eq_comm, hv]

theorem inv_joined {s : State} (h : Inv K credentials clients s) {c : Nat}
    {ended : List (Nat × TaskEnd (Option Dest))}
    (hended : s.tasks.ended = (c, .returned (verdict K credentials clients c)) :: ended) :
    Inv K credentials clients (s.joined c ended (verdict K credentials clients c)) := by
  obtain ⟨⟨running, _, aborted⟩, accepted, yielded, refused⟩ := s
  cases hended
  obtain ⟨hplaces, hend, hyielded, hrefused⟩ := h
  have hrest := fun x hx => hend x (List.mem_cons_of_mem _ hx)
  cases hv : verdict K credentials clients c with
  | some dest =>
    refine ⟨List.Perm.trans ?_ hplaces, hrest, fun x hx => ?_, hrefused⟩
    · rw [List.perm_iff_count]
      intro a
      simp only [State.joined, JoinSet.ids, List.map_append, List.map_cons, List.map_nil, List.count_append,
        List.count_cons, List.count_nil]
      omega
    · rcases List.mem_append.mp hx with hx | hx
      · exact hyielded x hx
      · rw [List.mem_singleton.mp hx, hv]
  | none =>
    refine ⟨List.Perm.trans ?_ hplaces, hrest, hyielded, fun x hx => ?_⟩
    · rw [List.perm_iff_count]
      intro a
      simp only [State.joined, JoinSet.ids, List.map_cons, List.count_append, List.count_cons, List.count_nil]
      omega
    · rcases List.mem_append.mp hx with hx | hx
      · exact hrefused x hx
      · rw [List.mem_singleton.mp hx, hv]

theorem inv_inductive : (listener K credentials clients).Inductive (Inv K credentials clients) where
  init s h := by
    subst h
    exact ⟨List.Perm.refl _, fun _ h => (by cases h), fun _ h => (by cases h), fun _ h => (by cases h)⟩
  step s ev s' h hs := by
    cases ev with
    | accept =>
      obtain ⟨-, hs⟩ := Option.ite_none_right_eq_some.mp hs
      cases hs
      exact inv_accept h
    | acceptFailed =>
      obtain ⟨-, hs⟩ := Option.ite_none_right_eq_some.mp hs
      cases hs
      exact h
    | finish c =>
      obtain ⟨tasks, hfin, hs⟩ := Option.map_eq_some_iff.mp hs
      cases hs
      exact inv_finish h hfin
    | join =>
      obtain ⟨c, ended, hended, rfl⟩ := (step_join h).mp hs
      exact inv_joined h hended

/-! ## Nobody waits for another client -/

theorem joined_ended (s : State) (c : Nat) (ended : List (Nat × TaskEnd (Option Dest))) (v : Option Dest) :
    (s.joined c ended v).tasks.ended = ended := by
  cases v <;> rfl

/-- A task that has ended is joined after those in front of it. -/
theorem joins {s : State} (h : Inv K credentials clients s) {c : Nat} {dest : Dest}
    (hc : (c, .returned (some dest)) ∈ s.tasks.ended) :
    ∃ evs s', (listener K credentials clients).Run s evs s' ∧ (c, dest) ∈ s'.yielded ∧ ∀ ev ∈ evs, ev = .join := by
  induction hended : s.tasks.ended generalizing s with
  | nil =>
    rw [hended] at hc
    cases hc
  | cons x rest ih =>
    obtain ⟨c', e⟩ := x
    obtain rfl : e = .returned (verdict K credentials clients c') :=
      h.ended (c', e) (hended ▸ List.mem_cons_self)
    have hstep : (listener K credentials clients).step s .join (s.joined c' rest (verdict K credentials clients c')) :=
      (step_join h).mpr ⟨c', rest, hended, rfl⟩
    rw [hended] at hc
    rcases List.mem_cons.mp hc with hfront | hrest
    · obtain ⟨rfl, hv⟩ := Prod.mk.inj hfront
      refine ⟨[.join], _, .single hstep, ?_, by simp⟩
      rw [← TaskEnd.returned.inj hv]
      exact List.mem_append_right _ List.mem_cons_self
    · have hended' := joined_ended s c' rest (verdict K credentials clients c')
      obtain ⟨evs, s', hrun, hmem, hjoin⟩ := ih (inv_joined h hended) (hended'.symm ▸ hrest) hended'
      refine ⟨.join :: evs, s', .cons hstep hrun, hmem, fun ev hev => ?_⟩
      rcases List.mem_cons.mp hev with rfl | hev
      · rfl
      · exact hjoin ev hev

/-- **The listener of an HTTP proxy.** Every accepted connection is in one place:
its task runs, or has ended, or it was yielded or refused. It is yielded exactly
when it asks for a destination and has the credentials, with that destination; and
as soon as its own task ends, whatever the other clients do or leave out. -/
theorem http_proxy_serves (s : State) (hr : (listener K credentials clients).Reachable s) :
    (s.tasks.ids ++ (s.yielded.map Prod.fst ++ s.refused)).Perm (List.range s.accepted) ∧
      (∀ c dest, (c, dest) ∈ s.yielded → Asks K credentials (clients c) dest) ∧
      (∀ c ∈ s.refused, ∀ dest, ¬ Asks K credentials (clients c) dest) ∧
      ∀ c ∈ s.tasks.running, ∀ dest, Asks K credentials (clients c) dest →
        ∃ evs s', (listener K credentials clients).Run s evs s' ∧ (c, dest) ∈ s'.yielded ∧
          ∀ ev ∈ evs, ev = .finish c ∨ ev = .join := by
  have h := inv_inductive.reachable s hr
  refine ⟨h.places, fun c dest hc => ?_, fun c hc dest hasks => ?_, fun c hc dest hasks => ?_⟩
  · exact (handleNewConnection_eq_some K).mp (h.yielded (c, dest) hc)
  · have hsome := (handleNewConnection_eq_some K).mpr hasks
    rw [show handleNewConnection K (authHeader credentials) (clients c) = none from h.refused c hc] at hsome
    cases hsome
  · have hverdict : verdict K credentials clients c = some dest := (handleNewConnection_eq_some K).mpr hasks
    obtain ⟨tasks, hfin⟩ : ∃ tasks, s.tasks.finish c (.returned (verdict K credentials clients c)) = some tasks :=
      ⟨_, if_pos ⟨hc, rfl⟩⟩
    have hstep : (listener K credentials clients).step s (.finish c) { s with tasks } :=
      Option.map_eq_some_iff.mpr ⟨tasks, hfin, rfl⟩
    have hended : (c, .returned (some dest)) ∈ tasks.ended := by
      rw [(JoinSet.finish_eq_some hfin).1, hverdict]
      exact List.mem_append_right _ List.mem_cons_self
    obtain ⟨evs, s', hrun, hmem, hjoin⟩ := joins (inv_finish h hfin) hended
    refine ⟨.finish c :: evs, s', .cons hstep hrun, hmem, fun ev hev => ?_⟩
    exact (List.mem_cons.mp hev).imp_right (hjoin ev)

/-- Nothing is read but `CONNECT` requests. -/
def connectOnly : Crates := ⟨fun _ => none, fun _ => none, fun _ _ => ⟨none, []⟩⟩

/-- The first client does not say anything. -/
def silentFirst : Nat → Client
  | 0 => ⟨none, none⟩
  | _ => ⟨some connectMethod, some (some ⟨"CONNECT", some "localhost", none, some "Basic YTpi"⟩)⟩

theorem http_proxy_serves_silentFirst : ∃ s evs s',
    (listener connectOnly (some ("a", "b")) silentFirst).Reachable s ∧ s.tasks.running = [0, 1] ∧
      (listener connectOnly (some ("a", "b")) silentFirst).Run s evs s' ∧
      (1, (.domain "localhost", 443)) ∈ s'.yielded ∧ ∀ ev ∈ evs, ev = .finish 1 ∨ ev = .join := by
  obtain ⟨s, hs, hrunning⟩ : ∃ s, LTS.exec (step connectOnly (some ("a", "b")) silentFirst) ⟨JoinSet.new, 0, [], []⟩
      [.accept, .accept] = some s ∧ s.tasks.running = [0, 1] := ⟨_, rfl, rfl⟩
  have hr : (listener connectOnly (some ("a", "b")) silentFirst).Reachable s := ⟨_, _, rfl, LTS.run_ofFn.mpr hs⟩
  have hasks : Asks connectOnly (some ("a", "b")) (silentFirst 1) (.domain "localhost", 443) :=
    (handleNewConnection_eq_some connectOnly).mp (by decide +kernel)
  obtain ⟨evs, s', hrun, hmem, hevs⟩ := (http_proxy_serves s hr).2.2.2 1 (by rw [hrunning]; decide) _ hasks
  exact ⟨s, evs, s', hr, hrunning, hrun, hmem, hevs⟩

end Wstunnel.L5.HttpProxyListener
