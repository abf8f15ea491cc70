import Mathlib.Data.List.Perm.Subperm
import Wstunnel.L5Concurrency.UdpServer

/-!
# How many streams one datagram opens

The server creates a stream for the sender of a datagram it has only peeked.
The datagram stays in the socket until the new stream reads it. A stream that
is dropped unread, because no tunnel could be established for it, leaves it
there, and the server finds the same sender without an entry again.

**Third-party code.** As in `UdpServer`; that `peek_sender` leaves the datagram in the
socket is what the second result rests on.

**Results.**
* `streams_le_datagrams`: in every run in which a stream is dropped only
  after its first read, or after the server is gone, there are at most as
  many streams as datagrams have arrived.
* `refusedDatagram_opens_streams`: without that, one datagram is enough for
  any number of streams.
-/
namespace Wstunnel.L5.Udp

variable {A B : Type}

/-- The datagrams that have arrived in a run. -/
def arrivals : List (Label A B) → Nat
  | [] => 0
  | .arrive _ _ :: ls => arrivals ls + 1
  | _ :: ls => arrivals ls

theorem arrivals_append (ls ls' : List (Label A B)) : arrivals (ls ++ ls') = arrivals ls + arrivals ls' := by
  induction ls with
  | nil => simp [arrivals]
  | cons l ls ih => cases l <;> simp [arrivals, ih, Nat.add_right_comm]

/-- Stream `i` has read a datagram. -/
def State.hasRead (s : State A B) (i : Nat) : Bool := s.reads.any fun r => r.1 = i

/-- A stream is dropped only after its first read, or without a server. -/
def ReadFirst (s : State A B) : Label A B → Prop
  | .stream i .dropPush => s.server = .closed ∨ s.hasRead i = true
  | _ => True

instance [DecidableEq A] (s : State A B) (l : Label A B) : Decidable (ReadFirst s l) := by
  unfold ReadFirst
  split <;> infer_instance

/-- The points of a stream that has not read and is not being dropped. -/
def StreamPc.beforeRead : StreamPc → Bool
  | .idle | .polling | .reading | .errored => true
  | _ => false

/-! ## Every datagram is in the socket or read -/

/-- The datagrams taken and the datagrams waiting. -/
def State.datagrams (s : State A B) : Nat := s.reads.length + s.queue.length

variable [DecidableEq A]

theorem streamStep_datagrams {cnxTimeout : Option Nat} {s s' : State A B} {i : Nat} {st : Stream A}
    {l : StreamLabel} (hs : streamStep cnxTimeout s i st l = some s') : s'.datagrams = s.datagrams := by
  cases move_of_streamStep hs with
  | recv _ hq =>
    simp only [State.datagrams, hq, List.length_append, List.length_cons, List.length_nil]
    omega
  | _ => rfl

theorem serverStep_datagrams {s s' : State A B} {l : ServerLabel} (hs : serverStep s l = some s') :
    s'.datagrams = s.datagrams := by
  cases move_of_serverStep hs <;> rfl

theorem run_datagrams {cnxTimeout : Option Nat} {G : State A B → Label A B → Prop} {s s' : State A B}
    {ls : List (Label A B)} (hr : ((udp cnxTimeout).guard G).Run s ls s') :
    s'.datagrams = s.datagrams + arrivals ls := by
  induction hr with
  | nil => rfl
  | @cons s s₁ s' l ls hs _ ih =>
    rw [ih]
    have hs : step cnxTimeout s l = some s₁ := hs.1
    cases l with
    | arrive a b =>
      cases hs
      simp only [State.datagrams, List.length_append, List.length_singleton, arrivals]
      omega
    | server l => rw [serverStep_datagrams hs]; rfl
    | stream i l =>
      obtain ⟨st, -, hs⟩ := Option.bind_eq_some_iff.mp hs
      rw [streamStep_datagrams hs]
      rfl

/-! ## The stream that has not read -/

/-- As long as there is a server, a stream that has not read is the one the
server waits for. -/
structure Unread (s : State A B) : Prop where
  turn : s.server ≠ .closed → ∀ i st, s.streams[i]? = some st → s.hasRead i = false →
    s.turn = some i ∧ st.hasReadData.signals = 0 ∧ st.pc.beforeRead = true
  bound : s.streams.length ≤ s.datagrams

theorem unread_start : Unread (start : State A B) := ⟨by simp [start], by simp [start]⟩

/-- When nobody has the turn, every stream has read. -/
theorem Unread.length_le_reads {s : State A B} (h : Unread s) (hopen : s.server ≠ .closed)
    (hturn : s.turn = none) : s.streams.length ≤ s.reads.length := by
  have hsub : List.range s.streams.length ⊆ s.reads.map (·.1) := by
    intro i hi
    have hlt := List.mem_range.mp hi
    by_contra hno
    have hunread : s.hasRead i = false := by
      refine Bool.eq_false_iff.mpr fun hread => hno ?_
      obtain ⟨r, hr, hri⟩ := List.any_eq_true.mp hread
      exact List.mem_map.mpr ⟨r, hr, of_decide_eq_true hri⟩
    have := (h.turn hopen i _ (List.getElem?_eq_getElem hlt) hunread).1
    rw [hturn] at this
    cases this
  have := (List.subperm_of_subset List.nodup_range hsub).length_le
  rwa [List.length_range, List.length_map] at this

/-- A step of stream `i` by itself. -/
theorem unread_updStream {s : State A B} {i : Nat} {st : Stream A} {f : Stream A → Stream A}
    (h : Unread s) (hi : s.streams[i]? = some st)
    (hf : st.hasReadData.signals = 0 → st.pc.beforeRead = true →
      (f st).hasReadData.signals = 0 ∧ (f st).pc.beforeRead = true) :
    Unread (s.updStream i f) := by
  refine ⟨fun hopen => ?_, ?_⟩
  · refine LTS.forall_modify (h.turn hopen) (fun st' hi' hok hread => ?_) fun _ _ _ h => h
    obtain rfl := Option.some.inj (hi'.symm.trans hi)
    obtain ⟨hturn, hsig, hpc⟩ := hok hread
    exact ⟨hturn, hf hsig hpc⟩
  · simpa [State.updStream, State.datagrams] using h.bound

theorem unread_recv {s : State A B} {i : Nat} {a : A} {b : B} {rest : List (A × B)}
    {f : Stream A → Stream A} (h : Unread s) (hq : s.queue = (a, b) :: rest) :
    Unread { s.updStream i f with queue := rest, reads := s.reads ++ [(i, a, b)] } := by
  refine ⟨fun hopen => ?_, ?_⟩
  · refine LTS.forall_modify (h.turn hopen) (fun st' hi' _ hread => ?_) fun j st' hji h hread => ?_
    · simp [State.hasRead] at hread
    · refine h ?_
      simpa [State.hasRead, Ne.symm hji] using hread
  · have := h.bound
    simp only [State.datagrams, State.updStream, hq, List.length_append, List.length_cons,
      List.length_nil, List.length_modify] at this ⊢
    omega

theorem streamStep_unread {cnxTimeout : Option Nat} {s s' : State A B} {i : Nat} {st : Stream A}
    {l : StreamLabel} (h : Unread s) (hi : s.streams[i]? = some st)
    (hg : ReadFirst s (.stream i l)) (hs : streamStep cnxTimeout s i st l = some s') : Unread s' := by
  cases move_of_streamStep hs with
  | expired _ | pollStart _ | ready _ _ _ | pending _ _ _ | disarmed _ _ | recvPending _ | recvErr _ =>
    exact unread_updStream h hi fun hsig _ => ⟨hsig, rfl⟩
  | recv _ hq => exact unread_recv h hq
  | rearm hpc | enable hpc | signal hpc | dropDisarm hpc | dropSignal hpc =>
    exact unread_updStream h hi fun _ hb => by rw [hpc] at hb; cases hb
  | dropPush _ =>
    refine ⟨fun hopen => ?_, by simpa [State.updStream, State.datagrams] using h.bound⟩
    refine LTS.forall_modify (h.turn hopen) (fun _ _ _ hread => ?_) fun _ _ _ h => h
    -- the guard: only a stream that has read is dropped
    rcases hg with hclosed | hg
    · exact absurd hclosed hopen
    · rw [show s.hasRead i = false from hread] at hg
      cases hg

/-- The server moves on. Where nobody has the turn, there is no unread
stream to look after. -/
theorem Unread.of_turn_none {s s' : State A B} (h : Unread s) (hopen : s.server ≠ .closed)
    (hturn : s.turn = none) (hlen : s'.streams.length = s.streams.length)
    (hreads : s'.reads = s.reads) (hqueue : s'.queue = s.queue) : Unread s' := by
  refine ⟨fun _ i st hi hread => ?_, ?_⟩
  · have hlt : i < s.streams.length := hlen ▸ (List.getElem?_eq_some_iff.mp hi).1
    rw [State.hasRead, hreads] at hread
    have := (h.turn hopen i _ (List.getElem?_eq_getElem hlt) hread).1
    rw [hturn] at this
    cases this
  · have := h.bound
    simp only [State.datagrams, hlen, hreads, hqueue] at this ⊢
    exact this

/-- The server goes on waiting for the same stream. -/
theorem Unread.readData {s s' : State A B} (h : Unread s) {io : Nat} {g : Notify → Notify}
    (hopen : s.server ≠ .closed) (hturn : s.turn = s'.turn)
    (hs' : s'.streams = s.streams.modify io fun st => { st with hasReadData := g st.hasReadData })
    (hg : ∀ n : Notify, n.signals = 0 → (g n).signals = 0) (hreads : s'.reads = s.reads)
    (hqueue : s'.queue = s.queue) : Unread s' := by
  refine ⟨fun _ => ?_, ?_⟩
  · rw [hs']
    simp only [State.hasRead, hreads, ← hturn]
    refine LTS.forall_modify (h.turn hopen) (fun st _ hok hread => ?_) fun _ _ _ h => h
    obtain ⟨ht, hsig, hpc⟩ := hok hread
    exact ⟨ht, hg _ hsig, hpc⟩
  · have := h.bound
    simp only [State.datagrams, hs', hreads, hqueue, List.length_modify] at this ⊢
    exact this

theorem unread_close {s s' : State A B} (h : Unread s) (hclosed : s'.server = .closed)
    (hlen : s'.streams.length = s.streams.length) (hreads : s'.reads = s.reads)
    (hqueue : s'.queue = s.queue) : Unread s' := by
  refine ⟨fun hopen => absurd hclosed hopen, ?_⟩
  have := h.bound
  simp only [State.datagrams, hlen, hreads, hqueue] at this ⊢
  exact this

/-- The server creates a stream: all others have read, and the datagram it
is created for is still in the socket. -/
theorem unread_create {s : State A B} {a : A} (h : Unread s) (hsrv : s.server = .found a)
    (hhead : s.head = some a) : Unread { s with
      streams := s.streams ++ [Stream.new a]
      peers := AssocMap.insert s.peers a s.streams.length
      server := .yielded (some a) } := by
  have hopen : s.server ≠ .closed := by simp [hsrv]
  have hturn : s.turn = none := by rw [State.turn, hsrv]
  refine ⟨fun _ i st hi hread => ?_, ?_⟩
  · by_cases hlt : i < s.streams.length
    · have := (h.turn hopen i _ (List.getElem?_eq_getElem hlt) hread).1
      rw [hturn] at this
      cases this
    · simp only at hi
      rw [List.getElem?_append_right (by omega), List.getElem?_singleton] at hi
      split at hi
      · cases hi
        obtain rfl : i = s.streams.length := by omega
        exact ⟨AssocMap.lookup_insert_self s.peers a s.streams.length, rfl, rfl⟩
      · cases hi
  · have hreads := h.length_le_reads hopen hturn
    have hqueue : 0 < s.queue.length := by
      refine List.length_pos_iff.mpr fun hq => ?_
      rw [State.head, hq] at hhead
      cases hhead
    simp only [State.datagrams, List.length_append, List.length_singleton]
    omega

theorem serverStep_unread {turn : Option Nat} {s s' : State A B} {l : ServerLabel} (hinv : Inv turn s)
    (h : Unread s) (hs : serverStep s l = some s') : Unread s' := by
  cases move_of_serverStep hs with
  | resumeWait hsrv hio =>
    refine h.readData (by simp [hsrv]) ?_ rfl (fun n hn => ?_) rfl rfl
    · rw [State.turn, hsrv]
      exact hio
    · have := n.signals_notified_le
      omega
  | wait hsrv =>
    refine h.readData (by simp [hsrv]) (by rw [State.turn, hsrv]; rfl) rfl (fun n hn => ?_) rfl rfl
    have := n.signals_notified_le
    omega
  | asleep hsrv hi hp =>
    refine h.readData (g := fun n => n.poll.2) (by simp [hsrv]) rfl rfl (fun n hn => ?_) rfl rfl
    by_cases hpoll : n.poll.1 = true
    · have := Notify.poll_ready hpoll
      omega
    · exact (Notify.signals_poll_pending (eq_false_of_ne_true hpoll)).trans hn
  | @woken io st hsrv hi hp =>
    -- the signal came from the stream, so it has read
    have hsig := Notify.poll_ready hp
    refine ⟨fun _ i st' hi' hread => ?_, by simpa [State.updStream, State.datagrams] using h.bound⟩
    have hlt : i < s.streams.length := by
      simpa [State.updStream] using (List.getElem?_eq_some_iff.mp hi').1
    obtain ⟨hturn, hzero, -⟩ :=
      h.turn (by simp [hsrv]) i _ (List.getElem?_eq_getElem hlt) hread
    rw [State.turn, hsrv, Option.some.injEq] at hturn
    subst hturn
    rw [List.getElem?_eq_getElem hlt, Option.some.injEq] at hi
    rw [hi] at hzero
    omega
  | resumeTop hsrv hio =>
    refine h.of_turn_none (by simp [hsrv]) ?_ rfl rfl rfl
    rw [State.turn, hsrv]
    exact hio
  | clean hsrv | peek hsrv _ => exact h.of_turn_none (by simp [hsrv]) (by rw [State.turn, hsrv]) rfl rfl rfl
  | notify hsrv _ =>
    exact h.of_turn_none (by simp [hsrv]) (by rw [State.turn, hsrv]) (by simp [State.updStream]) rfl rfl
  | create hsrv _ => exact unread_create h hsrv (hinv.found _ hsrv)
  | peekErr _ | noSocket _ _ | close _ => exact unread_close h rfl rfl rfl rfl
  | closeWaiting _ => exact unread_close h rfl (by simp [State.updStream]) rfl rfl

theorem unread_inductive (cnxTimeout : Option Nat) :
    ((udp cnxTimeout : LTS (State A B) (Label A B)).guard ReadFirst).Inductive
      fun s => (∃ turn, Inv turn s) ∧ Unread s where
  init s hs := by
    refine ⟨(inv_inductive cnxTimeout).init s hs, ?_⟩
    rw [show s = start from hs]
    exact unread_start
  step s l s' h hs := by
    obtain ⟨⟨turn, hinv⟩, h⟩ := h
    refine ⟨(inv_inductive cnxTimeout).step s l s' ⟨turn, hinv⟩ hs.1, ?_⟩
    have hstep : step cnxTimeout s l = some s' := hs.1
    cases l with
    | arrive a b =>
      cases hstep
      refine ⟨h.turn, ?_⟩
      have := h.bound
      simp only [State.datagrams, List.length_append, List.length_singleton] at this ⊢
      omega
    | server l => exact serverStep_unread hinv h hstep
    | stream i l =>
      obtain ⟨st, hi, hstep⟩ := Option.bind_eq_some_iff.mp hstep
      exact streamStep_unread h hi hs.2 hstep

/-- **At most one stream for each datagram.** In every run in which streams
are dropped only after their first read, or without a server, the streams
yielded so far are at most the datagrams that have arrived. -/
theorem streams_le_datagrams (cnxTimeout : Option Nat) (ls : List (Label A B)) (s : State A B)
    (hr : ((udp cnxTimeout).guard ReadFirst).Run start ls s) : s.streams.length ≤ arrivals ls := by
  have h := (unread_inductive cnxTimeout).run
    ((unread_inductive cnxTimeout).init start rfl) hr
  have hcount := run_datagrams hr
  simp only [State.datagrams, start, List.length_nil, Nat.zero_add] at hcount
  have := h.2.bound
  rw [State.datagrams, hcount] at this
  exact this

/-- A datagram is read by its stream, the stream is dropped, and the next
datagram of the same peer opens another one. -/
def readThenDropped : List (Label Nat Nat) :=
  [.server .resume, .server .clean, .arrive 7 1, .server .peek, .server (.dispatch true),
    .server .resume, .stream 0 (.pollStart false), .stream 0 .pollNotified, .stream 0 .recv,
    .stream 0 .rearm, .stream 0 .enable, .stream 0 .signal, .server .wake, .stream 0 .dropPush,
    .server .clean, .arrive 7 2, .server .peek, .server (.dispatch true)]

theorem readThenDropped_streams_le : ∃ s : State Nat Nat,
    ((udp (some 30)).guard ReadFirst).Run start readThenDropped s ∧ s.streams.length = 2 ∧
      s.streams.length ≤ arrivals readThenDropped := by
  obtain ⟨s, hs, hlen⟩ : ∃ s : State Nat Nat,
      LTS.exec (fun s l => if ReadFirst s l then step (some 30) s l else none) start readThenDropped =
        some s ∧ s.streams.length = 2 := ⟨_, rfl, by decide⟩
  have hr : ((udp (some 30)).guard ReadFirst).Run start readThenDropped s := LTS.run_guard_ofFn hs
  exact ⟨s, hr, hlen, streams_le_datagrams _ _ _ hr⟩

/-! ## A datagram nobody reads -/

/-- A stream dropped before its first read, after the server was woken by
the drop. -/
def refusedStream (a : A) : Stream A where
  peer := a
  dataReadBeforeDeadline := false
  hasDataToRead := (Stream.new a).hasDataToRead.drop
  hasReadData := Notify.new.notifyOne.notified.poll.2.drop
  pc := .gone

/-- The newest stream, `n`, is dropped unread, and the server goes around
its loop once. -/
def refuse (n : Nat) : List (Label A B) :=
  [.stream n .dropPush, .stream n .dropDisarm, .stream n .dropSignal, .server .resume, .server .wake,
    .server .clean, .server .peek, .server (.dispatch true)]

/-- After `n` refusals the one datagram is still in the socket. -/
def afterRefusals (a : A) (b : B) (n : Nat) : State A B where
  queue := [(a, b)]
  streams := List.replicate n (refusedStream a) ++ [Stream.new a]
  peers := [(a, n)]
  keysToDelete := []
  server := .yielded (some a)
  reads := []

theorem modify_replicate_last {α : Type} (n : Nat) (x y : α) (f : α → α) :
    (List.replicate n x ++ [y]).modify n f = List.replicate n x ++ [f y] := by
  induction n with
  | zero => rfl
  | succ n ih => simpa [List.replicate_succ] using ih

theorem exec_refuse (cnxTimeout : Option Nat) (a : A) (b : B) (n : Nat) :
    LTS.exec (step cnxTimeout) (afterRefusals a b n) (refuse n) = some (afterRefusals a b (n + 1)) := by
  simp [LTS.exec, refuse, step, streamStep, serverStep, afterRefusals, State.updStream,
    modify_replicate_last, Stream.new, List.lookup_cons, Notify.new, Notify.notified, Notify.notifyOne,
    Notify.notifyWaiters, Notify.drop, Notify.poll, refusedStream, AssocMap.insert, AssocMap.erase,
    List.replicate_succ']

/-- One datagram arrives, and the streams created for it are dropped unread
`n` times. -/
def refusals (a : A) (b : B) : Nat → List (Label A B)
  | 0 => [.server .resume, .server .clean, .arrive a b, .server .peek, .server (.dispatch true)]
  | n + 1 => refusals a b n ++ refuse n

theorem exec_refusals (cnxTimeout : Option Nat) (a : A) (b : B) (n : Nat) :
    LTS.exec (step cnxTimeout) start (refusals a b n) = some (afterRefusals a b n) := by
  induction n with
  | zero => simp [LTS.exec, refusals, step, serverStep, start, afterRefusals, AssocMap.insert, AssocMap.erase]
  | succ n ih => rw [refusals, LTS.exec_append, ih, Option.bind_some, exec_refuse]

omit [DecidableEq A] in
theorem arrivals_refusals (a : A) (b : B) (n : Nat) : arrivals (refusals a b n) = 1 := by
  induction n with
  | zero => rfl
  | succ n ih => rw [refusals, arrivals_append, ih]; rfl

/-- One datagram that is never read makes the server create any number of
streams. -/
theorem refusedDatagram_opens_streams (cnxTimeout : Option Nat) (a : A) (b : B) (n : Nat) :
    ∃ (ls : List (Label A B)) (s : State A B),
      (udp cnxTimeout).Run start ls s ∧ arrivals ls = 1 ∧ s.streams.length = n + 1 :=
  ⟨refusals a b n, afterRefusals a b n, LTS.run_ofFn.mpr (exec_refusals cnxTimeout a b n),
    arrivals_refusals a b n, by simp [afterRefusals]⟩

theorem unreadDatagram_two_streams : ∃ s : State Nat Nat, (udp (some 30)).Run start (refusals 7 1 1) s ∧
    arrivals (refusals (7 : Nat) (1 : Nat) 1) = 1 ∧ s.streams.length = 2 := by
  obtain ⟨s, hs, hlen⟩ : ∃ s : State Nat Nat,
      LTS.exec (step (some 30)) start (refusals 7 1 1) = some s ∧ s.streams.length = 2 :=
    ⟨_, rfl, by decide⟩
  exact ⟨s, LTS.run_ofFn.mpr hs, rfl, hlen⟩

end Wstunnel.L5.Udp
