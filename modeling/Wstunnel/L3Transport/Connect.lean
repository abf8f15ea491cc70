import Wstunnel.Core.JoinSet
import Wstunnel.Core.LTS
import Wstunnel.L1Encoding.Net

/-!
# Parallel connection attempts

`tcp::connect` and `udp::connect` are two copies of one algorithm: resolve the
host, spawn one attempt for each address into a `JoinSet`, and take the ends
of the attempts one by one until one of them is connected. The loop condition
`(None, Some(res)) = (&cnx, join_set.join_next().await)` awaits the next end
also after a success was recorded, with the other attempts aborted meanwhile;
what it awaited is then dropped.

When an attempt ends, how it ends and when the loop gets to it are up to the
network and the scheduler, and so are labels. The staggered start and the
timeout of an attempt only delay its end. The model keeps, beside the state of
the function, the attempts that ended by themselves in the order they did
(`completions`) and how many ends the loop has taken (`handled`).

**Third-party code.** `JoinSet` is that of `Core.JoinSet`: `join_next` takes the ends
of the tasks in the order in which they ended, and to abort a task that has ended
changes nothing. The name lookup and the replies of the system are the parameter
`Network`; `connect_first_success` is about the runs in which sockets can be created
and configured (`SetupSucceeds`) and a connected one knows its peer (`PeerKnown`).

**Results.**
* `move_of_step`: what a step can do.
* `inv_inductive`: as long as nothing is recorded, what the loop has taken are
  failures, and the queue holds the rest of the completions in order.
* `connect_first_success`: every run ends, within `2 n + 1` steps for `n`
  addresses; the result is the socket of the first success in completion
  order, or the error when no attempt succeeded.
-/
namespace Wstunnel.L3.Connect

open Wstunnel.L1

/-- Which of the two functions. -/
inductive Kind where
  | tcp
  | udp
  deriving DecidableEq, Repr

/-- An `io::Error`, by its `Debug` text. -/
structure IoError where
  debug : String
  deriving DecidableEq, Repr

/-- What the future of an attempt returns. `peer` is what `peer_addr` says of
the connected socket.
mirrors wstunnel/src/protocols/tcp/server.rs:89-99 and
wstunnel/src/protocols/udp/server.rs:380-391 -/
inductive Attempt where
  | connected (peer : Except IoError SocketAddr)
  | failed (err : IoError)
  | timedOut
  deriving DecidableEq, Repr

def Attempt.succeeded : Attempt → Bool
  | .connected _ => true
  | _ => false

/-- The reply of the system to creating and configuring a socket; the
configuration fails with the context of the option that could not be set. -/
structure Setup where
  create : Except IoError Unit
  configure : Except String Unit

/-- What the attempts depend on beside their labels. -/
structure Network where
  lookupHost : String → UInt16 → Except String (List SocketAddr)
  setup : Nat → SocketAddr → Setup

inductive Error where
  | message (text : String)
  | io (err : IoError)
  /-- the `JoinError` of a cancelled task -/
  | join
  deriving DecidableEq, Repr

/-- mirrors wstunnel/src/protocols/tcp/server.rs:59-66 and
wstunnel/src/protocols/udp/server.rs:346-353 -/
def socketAddrs (N : Network) (host : Host) (port : UInt16) : Except Error (List SocketAddr) :=
  match host with
  | .domain domain =>
    match N.lookupHost domain port with
    | .ok addrs => .ok addrs
    | .error _ => .error (.message ("cannot resolve domain: " ++ domain))
  | .ipv4 ip => .ok [⟨.v4 ip, port⟩]
  | .ipv6 ip => .ok [⟨.v6 ip, port⟩]

/-- `tcp::connect` remembers why a socket could not be created, `udp::connect`
only logs it. -/
def Kind.createFailed : Kind → IoError → Option IoError → Option IoError
  | .tcp, err, _ => some err
  | .udp, _, lastErr => lastErr

/-- The loop over the addresses: the set of attempts and `last_err`.
mirrors wstunnel/src/protocols/tcp/server.rs:72-101 and
wstunnel/src/protocols/udp/server.rs:359-393 -/
def spawnAttempts (kind : Kind) (setup : Nat → SocketAddr → Setup) :
    Nat → List SocketAddr → JoinSet Attempt × Option IoError →
      Except Error (JoinSet Attempt × Option IoError)
  | _, [], x => .ok x
  | ix, addr :: addrs, (joinSet, lastErr) =>
    match (setup ix addr).create with
    | .error err =>
      spawnAttempts kind setup (ix + 1) addrs (joinSet, kind.createFailed err lastErr)
    | .ok () =>
      match (setup ix addr).configure with
      | .error context => .error (.message context)
      | .ok () => spawnAttempts kind setup (ix + 1) addrs (joinSet.spawn ix, lastErr)

/-- A connected socket is named by the index of its address. -/
structure State where
  joinSet : JoinSet Attempt
  cnx : Option Nat
  lastErr : Option IoError
  result : Option (Except Error Nat)
  /-- ghost: the attempts that ended by themselves, in order -/
  completions : List (Nat × Attempt)
  /-- ghost: how many ends `join_next` has given -/
  handled : Nat
  deriving DecidableEq, Repr

def State.failed (e : Error) : State := ⟨.new, none, none, some (.error e), [], 0⟩

/-- The state as the second loop begins. -/
def start (kind : Kind) (N : Network) (host : Host) (port : UInt16) : State :=
  match socketAddrs N host port with
  | .error e => .failed e
  | .ok addrs =>
    match spawnAttempts kind N.setup 0 addrs (.new, none) with
    | .error e => .failed e
    | .ok (joinSet, lastErr) => ⟨joinSet, none, lastErr, none, [], 0⟩

/-- `{last_err:?}` -/
def lastErrText : Option IoError → String
  | none => "None"
  | some e => "Some(" ++ e.debug ++ ")"

/-- mirrors wstunnel/src/protocols/tcp/server.rs:133 and
wstunnel/src/protocols/udp/server.rs:428 -/
def Kind.cannotConnect (kind : Kind) (host : Host) (port : UInt16) (lastErr : Option IoError) : Error :=
  let peer := match kind with
    | .tcp => "tcp endpoint"
    | .udp => "udp peer"
  .message ("Cannot connect to " ++ peer ++ " " ++ host.display ++ ":" ++ toString port.toNat ++
    " reason " ++ lastErrText lastErr)

/-- The body of the second loop.
mirrors wstunnel/src/protocols/tcp/server.rs:108-130 and
wstunnel/src/protocols/udp/server.rs:400-422 -/
def State.handle (s : State) (task : Nat) : TaskEnd Attempt → State
  | .cancelled => { s with result := some (.error .join) }
  | .returned (.connected peer) =>
    let s := { s with joinSet := s.joinSet.abortAll }
    match peer with
    | .error err => { s with result := some (.error (.io err)) }
    | .ok _ => { s with cnx := some task }
  | .returned (.failed err) => { s with lastErr := some err }
  | .returned .timedOut => s

/-- After the second loop. -/
def State.finish (kind : Kind) (host : Host) (port : UInt16) (s : State) : State :=
  { s with result := some (match s.cnx with
    | some socket => .ok socket
    | none => .error (kind.cannotConnect host port s.lastErr)) }

/-- `while let (None, Some(res)) = (&cnx, join_set.join_next().await)`, once
`join_next` is ready.
mirrors wstunnel/src/protocols/tcp/server.rs:107-133 and
wstunnel/src/protocols/udp/server.rs:399-429 -/
def State.iterate (kind : Kind) (host : Host) (port : UInt16) (s : State) : Option State :=
  s.joinSet.joinNext.map fun (res, joinSet) =>
    let s := { s with joinSet }
    match res with
    | none => s.finish kind host port
    | some (task, e) =>
      let s := { s with handled := s.handled + 1 }
      match s.cnx with
      | some _ => s.finish kind host port
      | none => s.handle task e

inductive Label where
  | ends (task : Nat) (e : TaskEnd Attempt)
  | joinNext
  deriving DecidableEq, Repr

/-- An attempt ends by itself, or is cancelled. -/
def State.ends (s : State) (task : Nat) (e : TaskEnd Attempt) : Option State :=
  (s.joinSet.finish task e).map fun joinSet =>
    match e with
    | .returned r => { s with joinSet, completions := s.completions ++ [(task, r)] }
    | .cancelled => { s with joinSet }

def step (kind : Kind) (host : Host) (port : UInt16) (s : State) : Label → Option State
  | .ends task e => if s.result.isSome then none else s.ends task e
  | .joinNext => if s.result.isSome then none else s.iterate kind host port

def connect (kind : Kind) (N : Network) (host : Host) (port : UInt16) : LTS State Label :=
  LTS.ofFn (· = start kind N host port) (step kind host port)

def tcpConnect : Network → Host → UInt16 → LTS State Label := connect .tcp

def udpConnect : Network → Host → UInt16 → LTS State Label := connect .udp

/-! ## What a step can do -/

variable {kind : Kind} {host : Host} {port : UInt16}

inductive Move (kind : Kind) (host : Host) (port : UInt16) (s : State) : Label → State → Prop where
  | completes {task : Nat} {r : Attempt} {joinSet : JoinSet Attempt}
      (hf : s.joinSet.finish task (.returned r) = some joinSet) :
      Move kind host port s (.ends task (.returned r))
        { s with joinSet, completions := s.completions ++ [(task, r)] }
  | cancelled {task : Nat} {joinSet : JoinSet Attempt}
      (hf : s.joinSet.finish task .cancelled = some joinSet) :
      Move kind host port s (.ends task .cancelled) { s with joinSet }
  /-- no attempt is left -/
  | exhausted (hempty : s.joinSet.ended = []) (hidle : s.joinSet.running = []) :
      Move kind host port s .joinNext (s.finish kind host port)
  /-- a success is recorded already -/
  | drops {task socket : Nat} {e : TaskEnd Attempt} {ended : List (Nat × TaskEnd Attempt)}
      (he : s.joinSet.ended = (task, e) :: ended) (hcnx : s.cnx = some socket) :
      Move kind host port s .joinNext
        { s with joinSet.ended := ended, handled := s.handled + 1, result := some (.ok socket) }
  | handles {task : Nat} {e : TaskEnd Attempt} {ended : List (Nat × TaskEnd Attempt)}
      (he : s.joinSet.ended = (task, e) :: ended) (hcnx : s.cnx = none) :
      Move kind host port s .joinNext
        (State.handle { s with joinSet.ended := ended, handled := s.handled + 1 } task e)

theorem move_of_step {s s' : State} {l : Label} (h : step kind host port s l = some s') :
    s.result = none ∧ Move kind host port s l s' := by
  cases l with
  | ends task e =>
    obtain ⟨hres, h⟩ := Option.ite_none_left_eq_some.mp h
    refine ⟨by simpa using hres, ?_⟩
    obtain ⟨joinSet, hf, rfl⟩ := Option.map_eq_some_iff.mp h
    cases e with
    | returned r => exact .completes hf
    | cancelled => exact .cancelled hf
  | joinNext =>
    obtain ⟨hres, h⟩ := Option.ite_none_left_eq_some.mp h
    refine ⟨by simpa using hres, ?_⟩
    obtain ⟨⟨res, joinSet⟩, hj, rfl⟩ := Option.map_eq_some_iff.mp h
    rcases JoinSet.joinNext_eq_some hj with ⟨⟨task, e⟩, ended, rfl, he, rfl⟩ | ⟨rfl, he, hr, rfl⟩
    · cases hcnx : s.cnx with
      | some socket =>
        have : Move kind host port s _ _ := .drops he hcnx
        simpa [State.finish, hcnx] using this
      | none =>
        have : Move kind host port s _ _ := .handles he hcnx
        simpa [hcnx] using this
    · exact .exhausted he hr

/-! ## Every run ends -/

/-- How many steps are left at most. -/
def State.left (s : State) : Nat := s.joinSet.size + if s.result.isSome then 0 else 1

theorem left_le (s : State) : s.left ≤ s.joinSet.size + 1 := by
  unfold State.left
  split <;> omega

theorem size_handle (s : State) (task : Nat) (e : TaskEnd Attempt) :
    (s.handle task e).joinSet.size = s.joinSet.size := by
  cases e with
  | cancelled => rfl
  | returned r =>
    cases r with
    | connected peer => cases peer <;> rfl
    | failed err => rfl
    | timedOut => rfl

theorem left_lt_of_step {s s' : State} {l : Label} (h : step kind host port s l = some s') :
    s'.left < s.left := by
  obtain ⟨hres, hm⟩ := move_of_step h
  have hone : s.left = s.joinSet.size + 1 := by simp [State.left, hres]
  rw [hone]
  cases hm with
  | completes hf | cancelled hf =>
    refine Nat.lt_of_le_of_lt (left_le _) ?_
    rw [← JoinSet.size_finish hf]
    exact Nat.lt_succ_self _
  | exhausted he hr => exact Nat.lt_succ_self _
  | drops he hcnx =>
    refine Nat.lt_of_le_of_lt (left_le _) ?_
    simp only [JoinSet.size, he, List.length_cons]
    omega
  | handles he hcnx =>
    refine Nat.lt_of_le_of_lt (left_le _) ?_
    rw [size_handle]
    simp only [JoinSet.size, he, List.length_cons]
    omega

/-- A run that can go no further has a result. -/
theorem step_of_result_none {s : State} (h : s.result = none) :
    ∃ l s', step kind host port s l = some s' := by
  rcases s.joinSet.joinNext_or_finish .timedOut with ⟨x, hx⟩ | ⟨task, joinSet, hf⟩
  · refine ⟨.joinNext, ?_⟩
    simp [step, h, State.iterate, hx]
  · refine ⟨.ends task (.returned .timedOut), ?_⟩
    simp [step, h, State.ends, hf]

/-! ## What the loop has seen -/

/-- The first attempt that succeeded. -/
def firstSuccess (completions : List (Nat × Attempt)) : Option Nat :=
  (completions.find? (·.2.succeeded)).map (·.1)

theorem firstSuccess_append {xs ys : List (Nat × Attempt)} :
    firstSuccess (xs ++ ys) = (firstSuccess xs).or (firstSuccess ys) := by
  unfold firstSuccess
  rw [List.find?_append]
  cases xs.find? (·.2.succeeded) <;> rfl

theorem firstSuccess_eq_none {xs : List (Nat × Attempt)} :
    firstSuccess xs = none ↔ ∀ x ∈ xs, x.2.succeeded = false := by
  simp [firstSuccess, List.find?_eq_none]

theorem firstSuccess_isSome {xs : List (Nat × Attempt)} :
    (∃ i, firstSuccess xs = some i) ↔ ∃ x ∈ xs, x.2.succeeded = true := by
  rw [← Option.isSome_iff_exists, firstSuccess, Option.isSome_map, List.find?_isSome]

/-- Reading the peer address of a connected socket succeeds. -/
def PeerKnown (_ : State) : Label → Prop
  | .ends _ (.returned (.connected (.error _))) => False
  | _ => True

/-- While nothing is recorded: what was taken failed, what is queued are the
completions after it, and nothing was aborted. -/
structure Searching (s : State) : Prop where
  notAborted : s.joinSet.aborted = false
  queue : ∃ failures rest, s.completions = failures ++ rest ∧ firstSuccess failures = none ∧
    failures.length = s.handled ∧ s.joinSet.ended = rest.map fun x => (x.1, .returned x.2)

/-- `n` is the number of attempts. -/
structure Inv (kind : Kind) (host : Host) (port : UInt16) (n : Nat) (s : State) : Prop where
  tasks : s.joinSet.tasks + s.handled = n
  peers : ∀ i err, (i, Attempt.connected (.error err)) ∉ s.completions
  searching : s.cnx = none → s.result = none → Searching s
  found : ∀ i, s.cnx = some i → firstSuccess s.completions = some i
  result : ∀ r, s.result = some r → (∃ i, r = .ok i ∧ firstSuccess s.completions = some i) ∨
    (r = .error (kind.cannotConnect host port s.lastErr) ∧ firstSuccess s.completions = none ∧
      s.completions.length = n)

variable {n : Nat} {s s' : State}

/-- An attempt that ends by itself goes to the back of the queue. -/
theorem Inv.completes (h : Inv kind host port n s) (hres : s.result = none) {task : Nat} {r : Attempt}
    {joinSet : JoinSet Attempt} (hf : s.joinSet.finish task (.returned r) = some joinSet)
    (hpeer : PeerKnown s (.ends task (.returned r))) :
    Inv kind host port n { s with joinSet, completions := s.completions ++ [(task, r)] } := by
  obtain ⟨he, ha, -⟩ := JoinSet.finish_eq_some hf
  refine ⟨?_, ?_, ?_, ?_, ?_⟩
  · show joinSet.tasks + s.handled = n
    rw [JoinSet.tasks_finish hf, h.tasks]
  · intro i err hmem
    rcases List.mem_append.mp hmem with hmem | hmem
    · exact h.peers i err hmem
    · cases List.mem_singleton.mp hmem
      exact hpeer
  · intro hcnx _
    obtain ⟨hna, failures, rest, hc, hfail, hlen, hq⟩ := h.searching hcnx hres
    refine ⟨ha.trans hna, failures, rest ++ [(task, r)], ?_, hfail, hlen, ?_⟩
    · rw [← List.append_assoc, ← hc]
    · rw [he, hq, List.map_append]
      rfl
  · intro i hi
    rw [firstSuccess_append, h.found i hi, Option.some_or]
  · intro r' hr'
    rw [hres] at hr'
    cases hr'

/-- A task is cancelled only after a success was recorded. -/
theorem Inv.cancelled (h : Inv kind host port n s) (hres : s.result = none) {task : Nat}
    {joinSet : JoinSet Attempt} (hf : s.joinSet.finish task .cancelled = some joinSet) :
    Inv kind host port n { s with joinSet } := by
  obtain ⟨-, -, -, hp⟩ := JoinSet.finish_eq_some hf
  refine ⟨?_, h.peers, ?_, h.found, h.result⟩
  · show joinSet.tasks + s.handled = n
    rw [JoinSet.tasks_finish hf, h.tasks]
  · intro hcnx _
    have hp : s.joinSet.aborted = true := hp
    rw [(h.searching hcnx hres).notAborted] at hp
    cases hp

/-- With no attempt left, all of them were seen. -/
theorem Inv.exhausted (h : Inv kind host port n s) (hres : s.result = none)
    (he : s.joinSet.ended = []) (hr : s.joinSet.running = []) :
    Inv kind host port n (s.finish kind host port) := by
  refine ⟨h.tasks, h.peers, fun _ hn => (by cases hn), h.found, ?_⟩
  intro r hr'
  cases hcnx : s.cnx with
  | some socket =>
    simp only [State.finish, hcnx, Option.some.injEq] at hr'
    exact .inl ⟨socket, hr'.symm, h.found socket hcnx⟩
  | none =>
    simp only [State.finish, hcnx, Option.some.injEq] at hr'
    obtain ⟨-, failures, rest, hc, hfail, hlen, hq⟩ := h.searching hcnx hres
    have hrest : rest = [] := by
      rw [he] at hq
      exact List.map_eq_nil_iff.mp hq.symm
    have htasks := h.tasks
    simp only [JoinSet.tasks, he, hr, List.length_nil] at htasks
    rw [hrest, List.append_nil] at hc
    refine .inr ⟨hr'.symm, ?_, ?_⟩
    · show firstSuccess s.completions = none
      rw [hc, hfail]
    · show s.completions.length = n
      rw [hc]
      omega

/-- An end taken from the queue is handled. -/
theorem Inv.tasks_pop (h : Inv kind host port n s) {x : Nat × TaskEnd Attempt}
    {ended : List (Nat × TaskEnd Attempt)} (he : s.joinSet.ended = x :: ended) :
    s.joinSet.running.length + ended.length + (s.handled + 1) = n := by
  have := h.tasks
  simp only [JoinSet.tasks, he, List.length_cons] at this
  omega

theorem Inv.drops (h : Inv kind host port n s) {task socket : Nat} {e : TaskEnd Attempt}
    {ended : List (Nat × TaskEnd Attempt)} (he : s.joinSet.ended = (task, e) :: ended)
    (hcnx : s.cnx = some socket) :
    Inv kind host port n
      { s with joinSet.ended := ended, handled := s.handled + 1, result := some (.ok socket) } := by
  refine ⟨h.tasks_pop he, h.peers, fun _ hn => (by cases hn), h.found, ?_⟩
  intro r hr
  cases hr
  exact .inl ⟨socket, rfl, h.found socket hcnx⟩

/-- What the next end in the queue is, while the loop is searching. -/
theorem Searching.next (h : Searching s) {x : Nat × TaskEnd Attempt}
    {ended : List (Nat × TaskEnd Attempt)} (he : s.joinSet.ended = x :: ended) :
    ∃ failures rest r, x.2 = .returned r ∧ s.completions = failures ++ (x.1, r) :: rest ∧
      firstSuccess failures = none ∧ failures.length = s.handled ∧
      ended = rest.map fun x => (x.1, .returned x.2) := by
  obtain ⟨-, failures, rest, hc, hfail, hlen, hq⟩ := h
  rw [he] at hq
  obtain ⟨⟨task, r⟩, rest, rfl, rfl, hrest⟩ := List.map_eq_cons_iff.mp hq.symm
  exact ⟨failures, rest, r, rfl, hc, hfail, hlen, hrest.symm⟩

/-- After a failure the loop goes on searching. -/
theorem Inv.failure (h : Inv kind host port n s) (hres : s.result = none) (hcnx : s.cnx = none)
    {task : Nat} {r : Attempt} {ended : List (Nat × TaskEnd Attempt)}
    (he : s.joinSet.ended = (task, .returned r) :: ended) (hr : r.succeeded = false)
    (lastErr : Option IoError) :
    Inv kind host port n
      { s with joinSet.ended := ended, handled := s.handled + 1, lastErr := lastErr } := by
  have hsearch := h.searching hcnx hres
  obtain ⟨failures, rest, r', hr', hc, hfail, hlen, hrest⟩ := hsearch.next he
  cases hr'
  refine ⟨h.tasks_pop he, h.peers, fun _ _ => ⟨hsearch.notAborted, failures ++ [(task, r)], rest,
    ?_, ?_, ?_, hrest⟩, ?_, ?_⟩
  · rw [List.append_assoc]
    exact hc
  · rw [firstSuccess_append, hfail, Option.none_or, firstSuccess_eq_none]
    intro x hx
    rw [List.mem_singleton.mp hx]
    exact hr
  · rw [List.length_append, hlen]
    rfl
  · intro i hi
    cases hcnx.symm.trans hi
  · intro r hr
    cases hres.symm.trans hr

/-- The first success is recorded. -/
theorem Inv.success (h : Inv kind host port n s) (hres : s.result = none) (hcnx : s.cnx = none)
    {task : Nat} {peer : Except IoError SocketAddr} {ended : List (Nat × TaskEnd Attempt)}
    (he : s.joinSet.ended = (task, .returned (.connected peer)) :: ended) :
    Inv kind host port n
      { s with joinSet.ended := ended, joinSet.aborted := true, handled := s.handled + 1,
               cnx := some task } := by
  obtain ⟨failures, rest, r', hr', hc, hfail, -, -⟩ := (h.searching hcnx hres).next he
  cases hr'
  refine ⟨h.tasks_pop he, h.peers, fun hn => (by cases hn), ?_, ?_⟩
  · intro i hi
    cases hi
    show firstSuccess s.completions = some task
    rw [hc, firstSuccess_append, hfail]
    rfl
  · intro r hr
    cases hres.symm.trans hr

/-- The body of the loop. -/
theorem Inv.handles (h : Inv kind host port n s) (hres : s.result = none) {task : Nat}
    {e : TaskEnd Attempt} {ended : List (Nat × TaskEnd Attempt)}
    (he : s.joinSet.ended = (task, e) :: ended) (hcnx : s.cnx = none) :
    Inv kind host port n
      (State.handle { s with joinSet.ended := ended, handled := s.handled + 1 } task e) := by
  obtain ⟨failures, rest, r, hr, hc, -⟩ := (h.searching hcnx hres).next he
  obtain rfl : e = .returned r := hr
  cases r with
  | connected peer =>
    cases peer with
    | error err =>
      refine absurd ?_ (h.peers task err)
      rw [hc]
      simp
    | ok addr => exact h.success hres hcnx he
  | failed err => exact h.failure hres hcnx he rfl (some err)
  | timedOut => exact h.failure hres hcnx he rfl s.lastErr

/-- One step keeps the invariant. -/
theorem Inv.step (h : Inv kind host port n s) {l : Label} (hs : step kind host port s l = some s')
    (hpeer : PeerKnown s l) : Inv kind host port n s' := by
  obtain ⟨hres, hm⟩ := move_of_step hs
  cases hm with
  | completes hf => exact h.completes hres hf hpeer
  | cancelled hf => exact h.cancelled hres hf
  | exhausted he hr => exact h.exhausted hres he hr
  | drops he hcnx => exact h.drops he hcnx
  | handles he hcnx => exact h.handles hres he hcnx

/-! ## The attempts -/

/-- Creating and configuring every socket succeeds. -/
def SetupSucceeds (N : Network) : Prop := ∀ ix addr, N.setup ix addr = ⟨.ok (), .ok ()⟩

/-- There is one attempt for each address. -/
theorem spawnAttempts_ok (kind : Kind) {N : Network} (hN : SetupSucceeds N) (addrs : List SocketAddr) (ix : Nat)
    (x : JoinSet Attempt × Option IoError) : ∃ joinSet,
      spawnAttempts kind N.setup ix addrs x = .ok (joinSet, x.2) ∧
        joinSet = { x.1 with running := x.1.running ++ List.range' ix addrs.length } := by
  induction addrs generalizing ix x with
  | nil => exact ⟨x.1, rfl, by simp⟩
  | cons addr addrs ih =>
    obtain ⟨joinSet, hs, hj⟩ := ih (ix + 1) (x.1.spawn ix, x.2)
    refine ⟨joinSet, ?_, ?_⟩
    · rw [spawnAttempts, hN ix addr]
      exact hs
    · rw [hj, List.length_cons, List.range'_succ]
      simp [JoinSet.spawn]

theorem start_eq {N : Network} (hN : SetupSucceeds N) {addrs : List SocketAddr}
    (haddrs : socketAddrs N host port = .ok addrs) :
    start kind N host port =
      ⟨⟨List.range addrs.length, [], false⟩, none, none, none, [], 0⟩ := by
  obtain ⟨joinSet, hs, hj⟩ := spawnAttempts_ok kind hN addrs 0 (.new, none)
  rw [start, haddrs]
  dsimp only
  rw [hs, hj, List.range_eq_range']
  rfl

theorem inv_inductive (kind : Kind) {N : Network} (hN : SetupSucceeds N) {addrs : List SocketAddr}
    (haddrs : socketAddrs N host port = .ok addrs) :
    ((connect kind N host port).guard PeerKnown).Inductive (Inv kind host port addrs.length) where
  init s hs := by
    rw [show s = start kind N host port from hs, start_eq hN haddrs]
    refine ⟨by simp [JoinSet.tasks], by simp, fun _ _ => ⟨rfl, [], [], rfl, rfl, rfl, rfl⟩, ?_, ?_⟩
    · intro i hi
      cases hi
    · intro r hr
      cases hr
  step _ _ _ hi hs := hi.step hs.1 hs.2

/-- **No success is lost.** Let every socket be created and configured, and
the peer address of every connected one be known. For every order in which the
attempts end, the loop has taken at most as many ends as there are addresses,
it can go on until it has a result, and it has one after at most `2 n + 1`
steps. The result is a socket exactly when an attempt that completed has
succeeded, and then that of the first one that did; otherwise all attempts
have failed and it is the error. -/
theorem connect_first_success (kind : Kind) (N : Network) (host : Host) (port : UInt16)
    (addrs : List SocketAddr) (haddrs : socketAddrs N host port = .ok addrs) (hN : SetupSucceeds N)
    (ls : List Label) (s : State)
    (hrun : ((connect kind N host port).guard PeerKnown).Run (start kind N host port) ls s) :
    s.handled ≤ addrs.length ∧ ls.length ≤ 2 * addrs.length + 1 ∧
      (s.result = none → ∃ l s', step kind host port s l = some s') ∧
      ∀ r, s.result = some r →
        ((∃ socket, r = .ok socket) ↔ ∃ x ∈ s.completions, x.2.succeeded = true) ∧
        (∀ socket, r = .ok socket → firstSuccess s.completions = some socket) ∧
        ((∀ x ∈ s.completions, x.2.succeeded = false) → s.completions.length = addrs.length ∧
          r = .error (kind.cannotConnect host port s.lastErr)) := by
  have hind := inv_inductive kind hN haddrs
  have hinit := hind.init _ rfl
  have hinv := hind.run hinit hrun
  have hbound := hind.length_le (fun s l s' _ h => left_lt_of_step h.1) hinit hrun
  have hleft : (start kind N host port).left = 2 * addrs.length + 1 := by
    rw [start_eq hN haddrs]
    simp [State.left, JoinSet.size]
  refine ⟨?_, by omega, step_of_result_none, ?_⟩
  · have := hinv.tasks
    omega
  · intro r hr
    rw [← firstSuccess_isSome, ← firstSuccess_eq_none]
    rcases hinv.result r hr with ⟨i, rfl, hi⟩ | ⟨rfl, hnone, hlen⟩
    · refine ⟨⟨fun _ => ⟨i, hi⟩, fun _ => ⟨i, rfl⟩⟩, ?_, ?_⟩
      · intro socket he
        cases he
        exact hi
      · intro hnone
        rw [hi] at hnone
        cases hnone
    · refine ⟨⟨?_, ?_⟩, ?_, fun _ => ⟨hlen, rfl⟩⟩
      · rintro ⟨socket, hs⟩
        cases hs
      · rintro ⟨i, hi⟩
        rw [hnone] at hi
        cases hi
      · intro socket hs
        cases hs

/-- A host with two addresses, and a system that refuses nothing. -/
def twoAddresses : Network where
  lookupHost _ port := .ok [⟨.v4 0x0A000001, port⟩, ⟨.v6 1, port⟩]
  setup _ _ := ⟨.ok (), .ok ()⟩

/-- The second attempt succeeds, the first one ends with a late success that
the loop awaits and drops. -/
theorem connect_late_success_dropped :
    let peer : SocketAddr := ⟨.v6 1, 443⟩
    let ls : List Label := [.ends 1 (.returned (.connected (.ok peer))), .joinNext,
      .ends 0 (.returned (.connected (.ok peer))), .joinNext]
    ∃ s, ((tcpConnect twoAddresses (.domain "example.com") 443).guard PeerKnown).Run
        (start .tcp twoAddresses (.domain "example.com") 443) ls s ∧
      s.result = some (.ok 1) ∧ firstSuccess s.completions = some 1 ∧ s.handled ≤ 2 := by
  intro peer ls
  have hrun : ∃ s, ((tcpConnect twoAddresses (.domain "example.com") 443).guard PeerKnown).Run
      (start .tcp twoAddresses (.domain "example.com") 443) ls s ∧ s.result = some (.ok 1) :=
    ⟨_, .cons ⟨rfl, trivial⟩ (.cons ⟨rfl, trivial⟩ (.cons ⟨rfl, trivial⟩ (.cons ⟨rfl, trivial⟩ (.nil _)))),
      rfl⟩
  obtain ⟨s, hs, hres⟩ := hrun
  obtain ⟨hle, -, -, h⟩ := connect_first_success .tcp twoAddresses (.domain "example.com") 443
    _ rfl (fun _ _ => rfl) ls s hs
  exact ⟨s, hs, hres, (h _ hres).2.1 1 rfl, hle⟩

end Wstunnel.L3.Connect
