import Mathlib.Data.List.Flatten
import Wstunnel.Core.AssocMap
import Wstunnel.Core.LTS
import Wstunnel.Core.LazyTable
import Wstunnel.L5Concurrency.UdpPeers

/-!
# The SOCKS5 UDP server

`run_server` and `Socks5UdpStream` of `protocols/socks5/udp_server.rs`. One
loop reads the datagrams of all clients from the socket, takes the SOCKS5
header off and hands the payload to the stream of this peer and destination
over a channel of 1024 places; the first payload of a key creates its stream.
The drop of a stream first pushes its key to `keys_to_delete` and then closes
the channel. The loop removes entries in two places: the dead keys at its
head, and the entry whose channel it finds closed.

**Third-party code.** `fast_socks5::parse_udp_request` is the parameter `parse`, any
function of the packet. `mpsc::channel(1024)` keeps order and fails only once its
receiver is gone; a full one makes the server wait. The socket gives its datagrams in
the order of arrival. When a watchdog ticks is left to the labels.

**Results.**
* `table_move`, `inv_inductive`: every step is a move of a table with lazy
  removal, so its invariant holds in every reachable state.
* `reads_sublist`: what the streams of one key read, one stream after the
  other, is a part of the payloads that arrived for this key, in the order of
  arrival and each at most once.
-/
namespace Wstunnel.L5.Socks5Udp

abbrev Bytes := List UInt8

/-- mirrors wstunnel/src/protocols/socks5/udp_server.rs:27 -/
structure PeerMapKey (P D : Type) where
  peer : P
  destination : D
  deriving DecidableEq, Repr

/-- `pushed` is inside the drop, `gone` after it: the channel is closed. A
stream whose `poll_read` returned an error is only dropped. -/
inductive StreamPc where
  | idle
  | errored
  | pushed
  | gone
  deriving DecidableEq, Repr

/-- The drop of the stream has begun. -/
def StreamPc.dropBegun : StreamPc → Bool
  | .pushed | .gone => true
  | _ => false

/-- `key` is the peer and the destination; `reads` logs what `poll_read` has
returned. The stream holds a sender of its own channel (`io`), so `recv`
never returns `None`.
mirrors wstunnel/src/protocols/socks5/udp_server.rs:107-119 -/
structure Stream (K : Type) where
  key : K
  recvData : List Bytes
  dataReadBeforeDeadline : Bool
  pc : StreamPc
  reads : List Bytes
  deriving DecidableEq, Repr

/-- `Socks5UdpStream::new`, and the `send` that follows it: the channel is
empty, so it does not wait.
mirrors wstunnel/src/protocols/socks5/udp_server.rs:131-158 and 291 -/
def Stream.new {K : Type} (key : K) (data : Bytes) : Stream K := ⟨key, [data], false, .idle, []⟩

/-- `top` is the head of the loop, also after a stream was yielded;
`cleaning` is between the two locks of `clean_dead_keys`. -/
inductive ServerPc (K : Type) where
  | top
  | cleaning
  | recv
  | found (addr : K) (data : Bytes)
  | sending (io : Nat) (addr : K) (data : Bytes)
  | closed
  deriving DecidableEq, Repr

/-- `socket` is the socket's queue with the sender of each datagram; `peers`
maps to the index of the stream. -/
structure State (P D : Type) where
  socket : List (P × Bytes)
  streams : List (Stream (PeerMapKey P D))
  peers : List (PeerMapKey P D × Nat)
  keysToDelete : List (PeerMapKey P D)
  server : ServerPc (PeerMapKey P D)
  deriving DecidableEq, Repr

inductive ServerLabel where
  | checkKeys
  | clean
  | recv
  | recvErr
  | dispatch
  | send
  | close
  deriving DecidableEq, Repr

inductive StreamLabel where
  | pollRead (tick : Bool) (remaining : Nat)
  | dropPush
  | dropClose
  deriving DecidableEq, Repr

inductive Label (P : Type) where
  | arrive (peer : P) (packet : Bytes)
  | server (l : ServerLabel)
  | stream (i : Nat) (l : StreamLabel)
  deriving DecidableEq, Repr

variable {P D : Type}

/-- `mpsc::channel(1024)` -/
def channelSize : Nat := 1024

def State.updStream (s : State P D) (i : Nat) (f : Stream (PeerMapKey P D) → Stream (PeerMapKey P D)) : State P D :=
  { s with streams := s.streams.modify i f }

/-- What the loop makes of a datagram: invalid and fragmented ones are
skipped.
mirrors wstunnel/src/protocols/socks5/udp_server.rs:257-275 -/
def request (parse : Bytes → Option (UInt8 × D × Bytes)) (e : P × Bytes) : Option (PeerMapKey P D × Bytes) :=
  match parse e.2 with
  | some (frag, destination, data) => if frag ≠ 0 then none else some (⟨e.1, destination⟩, data)
  | none => none

/-! ## The newest stream of a key -/

/-- Stream `i` is the newest stream of this key. -/
def Newest (streams : List (Stream (PeerMapKey P D))) (addr : PeerMapKey P D) (i : Nat) : Prop :=
  (∃ st, streams[i]? = some st ∧ st.key = addr) ∧
    ∀ j st, i < j → streams[j]? = some st → st.key ≠ addr

theorem Newest.modify {streams : List (Stream (PeerMapKey P D))} {addr : PeerMapKey P D} {i j : Nat}
    {f : Stream (PeerMapKey P D) → Stream (PeerMapKey P D)} (h : Newest streams addr i)
    (hf : ∀ st, (f st).key = st.key) : Newest (streams.modify j f) addr i := by
  -- a change that keeps the keys
  have hkey : ∀ n : Nat, ((streams.modify j f)[n]?).map Stream.key = (streams[n]?).map Stream.key := by
    intro n
    rw [List.getElem?_modify]
    cases streams[n]? with
    | none => rfl
    | some st =>
      simp only [Option.map_eq_map, Option.map_some, Option.some.injEq]
      split
      · exact hf st
      · rfl
  obtain ⟨⟨st, hi, hst⟩, hlast⟩ := h
  refine ⟨?_, fun n st' hn hst' => ?_⟩
  · have := hkey i
    rw [hi, Option.map_some, Option.map_eq_some_iff] at this
    obtain ⟨st', hi', hst'⟩ := this
    exact ⟨st', hi', hst'.trans hst⟩
  · have := (hkey n).symm
    rw [hst', Option.map_some, Option.map_eq_some_iff] at this
    obtain ⟨st₀, hn₀, hst₀⟩ := this
    exact hst₀ ▸ hlast n st₀ hn hn₀

theorem Newest.concat_self (streams : List (Stream (PeerMapKey P D))) (st : Stream (PeerMapKey P D)) :
    Newest (streams ++ [st]) st.key streams.length := by
  refine ⟨⟨st, List.getElem?_concat_length, rfl⟩, fun j st' hj hst' => ?_⟩
  have := (List.getElem?_eq_some_iff.mp hst').1
  simp only [List.length_append, List.length_singleton] at this
  omega

theorem Newest.concat {streams : List (Stream (PeerMapKey P D))} {addr : PeerMapKey P D} {i : Nat}
    {st : Stream (PeerMapKey P D)} (h : Newest streams addr i) (hne : st.key ≠ addr) :
    Newest (streams ++ [st]) addr i := by
  obtain ⟨⟨st₀, hi, hst₀⟩, hlast⟩ := h
  have hlt := (List.getElem?_eq_some_iff.mp hi).1
  refine ⟨⟨st₀, by rw [List.getElem?_append_left hlt, hi], hst₀⟩, fun j st' hj hst' => ?_⟩
  rw [List.getElem?_append, List.getElem?_singleton] at hst'
  split at hst'
  · exact hlast j st' hj hst'
  · split at hst'
    · cases hst'
      exact hne
    · cases hst'

/-! ## The steps -/

section Steps
variable [DecidableEq P] [DecidableEq D]

/-- The loop of `run_server`. A server that is dropped or returns `None`
drops the map.
mirrors wstunnel/src/protocols/socks5/udp_server.rs:84-97 and 244-297 -/
def serverStep (parse : Bytes → Option (UInt8 × D × Bytes)) (s : State P D) :
    ServerLabel → Option (State P D)
  | .checkKeys =>
    if s.server = .top then
      some { s with server := if s.keysToDelete.length = 0 then .recv else .cleaning }
    else none
  | .clean =>
    if s.server = .cleaning then
      some { s with
        peers := s.peers.filter fun e => !s.keysToDelete.contains e.1
        keysToDelete := []
        server := .recv }
    else none
  | .recv => match s.server, s.socket with
    | .recv, e :: rest => match request parse e with
      | some (addr, data) => some { s with socket := rest, server := .found addr data }
      | none => some { s with socket := rest, server := .top }
    | _, _ => none
  | .recvErr => if s.server = .recv then some { s with server := .closed, peers := [] } else none
  | .dispatch => match s.server with
    | .found addr data => match s.peers.lookup addr with
      | some io => some { s with server := .sending io addr data }
      | none => some { s with
          streams := s.streams ++ [Stream.new addr data]
          peers := AssocMap.insert s.peers addr s.streams.length
          server := .top }
    | _ => none
  | .send => match s.server with
    | .sending io addr data => (s.streams[io]?).bind fun st =>
        if st.pc = .gone then
          some { s with peers := AssocMap.erase s.peers addr, server := .top }
        else if st.recvData.length < channelSize then
          some { s.updStream io fun st => { st with recvData := st.recvData ++ [data] } with
            server := .top }
        else none
    | _ => none
  | .close => if s.server = .closed then none else some { s with server := .closed, peers := [] }

/-- `poll_read` and the drop of stream `i`. `tick`: the watchdog, if there is
one, is due. The key is pushed only while the server holds the vector.
mirrors wstunnel/src/protocols/socks5/udp_server.rs:121-128 and 176-213 -/
def streamStep (cnxTimeout : Option Nat) (s : State P D) (i : Nat) (st : Stream (PeerMapKey P D)) :
    StreamLabel → Option (State P D)
  | .pollRead tick remaining =>
    if st.pc = .idle ∧ (tick → cnxTimeout.isSome) then
      if tick ∧ !st.dataReadBeforeDeadline then
        some (s.updStream i fun st => { st with pc := .errored })
      else match st.recvData with
        | [] => some (s.updStream i fun st =>
            { st with dataReadBeforeDeadline := st.dataReadBeforeDeadline && !tick })
        | data :: rest =>
          if remaining < data.length then
            some (s.updStream i fun st =>
              { st with
                recvData := rest
                dataReadBeforeDeadline := st.dataReadBeforeDeadline && !tick
                pc := .errored })
          else
            some (s.updStream i fun st =>
              { st with
                recvData := rest
                dataReadBeforeDeadline := true
                reads := st.reads ++ [data] })
    else none
  | .dropPush =>
    if st.pc = .idle ∨ st.pc = .errored then
      some { s.updStream i fun st => { st with pc := .pushed } with
        keysToDelete := if s.server = .closed then s.keysToDelete else s.keysToDelete ++ [st.key] }
    else none
  | .dropClose =>
    if st.pc = .pushed then
      some (s.updStream i fun st => { st with recvData := [], pc := .gone })
    else none

def step (parse : Bytes → Option (UInt8 × D × Bytes)) (cnxTimeout : Option Nat) (s : State P D) :
    Label P → Option (State P D)
  | .arrive a b => some { s with socket := s.socket ++ [(a, b)] }
  | .server l => serverStep parse s l
  | .stream i l => (s.streams[i]?).bind fun st => streamStep cnxTimeout s i st l

/-- The state before the first poll of the server. -/
def start : State P D := ⟨[], [], [], [], .top⟩

def socks5Udp (parse : Bytes → Option (UInt8 × D × Bytes)) (cnxTimeout : Option Nat) :
    LTS (State P D) (Label P) := LTS.ofFn (· = start) (step parse cnxTimeout)

/-! ## What a step can do -/

inductive ServerMove (parse : Bytes → Option (UInt8 × D × Bytes)) (s : State P D) : State P D → Prop where
  | noKeys (hsrv : s.server = .top) (hkeys : s.keysToDelete = []) :
      ServerMove parse s { s with server := .recv }
  | keys (hsrv : s.server = .top) : ServerMove parse s { s with server := .cleaning }
  | clean (hsrv : s.server = .cleaning) : ServerMove parse s { s with
      peers := s.peers.filter fun e => !s.keysToDelete.contains e.1
      keysToDelete := []
      server := .recv }
  | take {e rest addr data} (hsrv : s.server = .recv) (hq : s.socket = e :: rest)
      (hreq : request parse e = some (addr, data)) :
      ServerMove parse s { s with socket := rest, server := .found addr data }
  | skip {e rest} (hsrv : s.server = .recv) (hq : s.socket = e :: rest) (hreq : request parse e = none) :
      ServerMove parse s { s with socket := rest, server := .top }
  | find {addr data io} (hsrv : s.server = .found addr data) (hio : s.peers.lookup addr = some io) :
      ServerMove parse s { s with server := .sending io addr data }
  | create {addr data} (hsrv : s.server = .found addr data) (hn : s.peers.lookup addr = none) :
      ServerMove parse s { s with
        streams := s.streams ++ [Stream.new addr data]
        peers := AssocMap.insert s.peers addr s.streams.length
        server := .top }
  | sendErr {io addr data st} (hsrv : s.server = .sending io addr data)
      (hi : s.streams[io]? = some st) (hpc : st.pc = .gone) :
      ServerMove parse s { s with peers := AssocMap.erase s.peers addr, server := .top }
  | send {io addr data st} (hsrv : s.server = .sending io addr data) (hi : s.streams[io]? = some st) :
      ServerMove parse s { s.updStream io fun st => { st with recvData := st.recvData ++ [data] } with
        server := .top }
  | close (hsrv : s.server ≠ .closed) : ServerMove parse s { s with server := .closed, peers := [] }

theorem move_of_serverStep {parse : Bytes → Option (UInt8 × D × Bytes)} {s s' : State P D}
    {l : ServerLabel} (hs : serverStep parse s l = some s') : ServerMove parse s s' := by
  cases l with
  | checkKeys =>
    simp only [serverStep, Option.ite_none_right_eq_some, Option.some.injEq] at hs
    obtain ⟨hsrv, rfl⟩ := hs
    split
    · rename_i hlen
      exact .noKeys hsrv (List.length_eq_zero_iff.mp hlen)
    · exact .keys hsrv
  | clean =>
    simp only [serverStep, Option.ite_none_right_eq_some, Option.some.injEq] at hs
    obtain ⟨hsrv, rfl⟩ := hs
    exact .clean hsrv
  | recv =>
    simp only [serverStep] at hs
    split at hs
    · rename_i e rest hsrv hq
      split at hs
      · rename_i addr data hreq
        cases hs
        exact .take hsrv hq hreq
      · rename_i hreq
        cases hs
        exact .skip hsrv hq hreq
    · cases hs
  | recvErr =>
    simp only [serverStep, Option.ite_none_right_eq_some, Option.some.injEq] at hs
    obtain ⟨hsrv, rfl⟩ := hs
    exact .close (by simp [hsrv])
  | dispatch =>
    simp only [serverStep] at hs
    split at hs
    · rename_i addr data hsrv
      split at hs
      · rename_i io hio
        cases hs
        exact .find hsrv hio
      · rename_i hn
        cases hs
        exact .create hsrv hn
    · cases hs
  | send =>
    simp only [serverStep] at hs
    split at hs
    · rename_i io addr data hsrv
      obtain ⟨st, hi, hs⟩ := Option.bind_eq_some_iff.mp hs
      split at hs
      · rename_i hpc
        cases hs
        exact .sendErr hsrv hi hpc
      · split at hs
        · cases hs
          exact .send hsrv hi
        · cases hs
    · cases hs
  | close =>
    simp only [serverStep, Option.ite_none_left_eq_some, Option.some.injEq] at hs
    obtain ⟨hsrv, rfl⟩ := hs
    exact .close hsrv

inductive StreamMove (s : State P D) (i : Nat) (st : Stream (PeerMapKey P D)) : State P D → Prop where
  | expired (hpc : st.pc = .idle) : StreamMove s i st (s.updStream i fun st => { st with pc := .errored })
  | pending {tick} (hpc : st.pc = .idle) : StreamMove s i st (s.updStream i fun st =>
      { st with dataReadBeforeDeadline := st.dataReadBeforeDeadline && !tick })
  | tooLong {tick data rest} (hpc : st.pc = .idle) (hq : st.recvData = data :: rest) :
      StreamMove s i st (s.updStream i fun st =>
        { st with
          recvData := rest
          dataReadBeforeDeadline := st.dataReadBeforeDeadline && !tick
          pc := .errored })
  | read {data rest} (hpc : st.pc = .idle) (hq : st.recvData = data :: rest) :
      StreamMove s i st (s.updStream i fun st =>
        { st with
          recvData := rest
          dataReadBeforeDeadline := true
          reads := st.reads ++ [data] })
  | dropPush (hpc : st.pc.dropBegun = false) : StreamMove s i st
      { s.updStream i fun st => { st with pc := .pushed } with
        keysToDelete := if s.server = .closed then s.keysToDelete else s.keysToDelete ++ [st.key] }
  | dropClose (hpc : st.pc = .pushed) :
      StreamMove s i st (s.updStream i fun st => { st with recvData := [], pc := .gone })

theorem move_of_streamStep {cnxTimeout : Option Nat} {s s' : State P D} {i : Nat} {st : Stream (PeerMapKey P D)}
    {l : StreamLabel} (hs : streamStep cnxTimeout s i st l = some s') : StreamMove s i st s' := by
  cases l with
  | pollRead tick remaining =>
    simp only [streamStep] at hs
    split at hs
    · rename_i hpc
      split at hs
      · cases hs
        exact .expired hpc.1
      · split at hs
        · cases hs
          exact .pending hpc.1
        · rename_i data rest hq
          split at hs
          · cases hs
            exact .tooLong hpc.1 hq
          · cases hs
            exact .read hpc.1 hq
    · cases hs
  | dropPush =>
    simp only [streamStep, Option.ite_none_right_eq_some, Option.some.injEq] at hs
    obtain ⟨hpc, rfl⟩ := hs
    refine .dropPush ?_
    rcases hpc with hpc | hpc <;> rw [hpc] <;> rfl
  | dropClose =>
    simp only [streamStep, Option.ite_none_right_eq_some, Option.some.injEq] at hs
    obtain ⟨hpc, rfl⟩ := hs
    exact .dropClose hpc

/-! ## The table of peers -/

/-- The loop has looked at the dead keys and not removed an entry since. -/
def ServerPc.tidy {K : Type} : ServerPc K → Bool
  | .recv | .found _ _ | .sending _ _ _ => true
  | _ => false

def State.table (s : State P D) : LazyTable (PeerMapKey P D) where
  alive := LazyTable.Registered Stream.key (·.pc.dropBegun) s.streams
  entry addr := s.peers.lookup addr
  dead addr := addr ∈ s.keysToDelete
  isOpen := s.server ≠ .closed
  tidy := s.server.tidy = true

/-- Every entry is that of the newest stream of its key, and the loop sends
to the stream it has found. -/
structure Inv (s : State P D) : Prop where
  table : s.table.Inv
  newest : ∀ addr i, s.peers.lookup addr = some i → Newest s.streams addr i
  sending : ∀ io addr data, s.server = .sending io addr data → s.peers.lookup addr = some io

theorem streamStep_table {cnxTimeout : Option Nat} {s s' : State P D} {i : Nat} {st : Stream (PeerMapKey P D)}
    {l : StreamLabel} (hi : s.streams[i]? = some st) (hs : streamStep cnxTimeout s i st l = some s') :
    s.table.Move s'.table := by
  cases move_of_streamStep hs with
  | expired hpc | pending hpc | tooLong hpc _ | read hpc _ | dropClose hpc =>
    refine .keep (fun _ _ h => h.of_modify fun st' hi' => ?_) (fun _ => rfl) (fun _ => id) id id
    obtain rfl := Option.some.inj (hi'.symm.trans hi)
    simp [StreamPc.dropBegun, hpc]
  | dropPush hpc =>
    by_cases hopen : s.server = .closed
    · refine .close (fun _ _ h => (h.of_modify_ended fun _ => ?_).1) fun h => h hopen
      exact ⟨rfl, rfl⟩
    · refine .finish i st.key ⟨st, hi, rfl, hpc⟩ id id (fun _ _ h => h.of_modify_ended fun _ => ?_)
        (fun _ => rfl) fun addr ha => ?_
      · exact ⟨rfl, rfl⟩
      · simpa [State.table, hopen] using ha

theorem serverStep_table {parse : Bytes → Option (UInt8 × D × Bytes)} {s s' : State P D}
    {l : ServerLabel} (h : Inv s) (hs : serverStep parse s l = some s') : s.table.Move s'.table := by
  cases move_of_serverStep hs with
  | noKeys hsrv hkeys =>
    exact .clean (by simp [State.table, hsrv]) (fun _ _ => id) (fun _ _ => rfl)
      fun _ => by simp [State.table, hkeys]
  | keys hsrv =>
    exact .keep (fun _ _ => id) (fun _ => rfl) (fun _ => id) (fun _ => by simp [State.table, hsrv])
      fun h => by cases h
  | clean hsrv =>
    refine .clean (by simp [State.table, hsrv]) (fun _ _ => id) (fun addr ha => ?_)
      fun _ => List.not_mem_nil
    have := AssocMap.lookup_filter s.peers (fun addr => !s.keysToDelete.contains addr) addr
    simpa [State.table, show addr ∉ s.keysToDelete from ha] using this
  | take hsrv _ _ | skip hsrv _ _ | find hsrv _ =>
    exact .keep (fun _ _ => id) (fun _ => rfl) (fun _ => id) (fun _ => by simp [State.table, hsrv])
      fun _ => by simp [State.table, hsrv, ServerPc.tidy]
  | create hsrv hn =>
    exact .create s.streams.length _ hn (by simp [State.table, hsrv])
      (by simp [State.table, hsrv, ServerPc.tidy]) (fun _ _ h => h.of_concat)
      (AssocMap.lookup_insert_self _ _ _) (fun _ hne => AssocMap.lookup_insert_of_ne _ _ hne)
      fun _ => id
  | @sendErr io addr data st hsrv hi hpc =>
    refine .evict io addr (h.sending _ _ _ hsrv) ?_ (by simp [State.table, hsrv])
      (fun h => by cases h) (fun _ _ => id) (fun _ hne => AssocMap.lookup_erase_of_ne _ hne) fun _ => id
    -- the channel is closed, so the drop has begun
    rintro ⟨st', hi', -, hlive⟩
    obtain rfl := Option.some.inj (hi'.symm.trans hi)
    simp [hpc, StreamPc.dropBegun] at hlive
  | send hsrv hi =>
    refine .keep (fun _ _ h => h.of_modify fun _ _ => ?_) (fun _ => rfl) (fun _ => id)
      (fun _ => by simp [State.table, hsrv]) fun h => by cases h
    exact ⟨rfl, id⟩
  | close _ => exact .close (fun _ _ => id) fun h => h rfl

theorem table_move {parse : Bytes → Option (UInt8 × D × Bytes)} {cnxTimeout : Option Nat}
    {s s' : State P D} {l : Label P} (h : Inv s) (hs : step parse cnxTimeout s l = some s') :
    s.table.Move s'.table := by
  cases l with
  | arrive a b =>
    cases hs
    exact .keep (fun _ _ => id) (fun _ => rfl) (fun _ => id) id id
  | server l => exact serverStep_table h hs
  | stream i l =>
    obtain ⟨st, hi, hs⟩ := Option.bind_eq_some_iff.mp hs
    exact streamStep_table hi hs

theorem inv_start : Inv (start : State P D) where
  table := .of_empty (fun _ _ ⟨_, hi, _⟩ => by cases hi) fun _ => List.not_mem_nil
  newest _ _ h := by cases h
  sending _ _ _ h := by cases h

theorem streamStep_inv {cnxTimeout : Option Nat} {s s' : State P D} {i : Nat}
    {st : Stream (PeerMapKey P D)} {l : StreamLabel} (h : Inv s) (hi : s.streams[i]? = some st)
    (hs : streamStep cnxTimeout s i st l = some s') : Inv s' := by
  refine ⟨h.table.move (streamStep_table hi hs), ?_, ?_⟩
  · cases move_of_streamStep hs <;>
      exact fun addr n hn => (h.newest addr n hn).modify fun _ => rfl
  · cases move_of_streamStep hs <;> exact h.sending

theorem serverStep_inv {parse : Bytes → Option (UInt8 × D × Bytes)} {s s' : State P D}
    {l : ServerLabel} (h : Inv s) (hs : serverStep parse s l = some s') : Inv s' := by
  have htable := h.table.move (serverStep_table h hs)
  cases move_of_serverStep hs with
  | noKeys _ _ | keys _ | take _ _ _ | skip _ _ _ => exact ⟨htable, h.newest, fun _ _ _ h => by cases h⟩
  | clean _ =>
    refine ⟨htable, fun addr n hn => h.newest addr n ?_, fun _ _ _ h => by cases h⟩
    have := AssocMap.lookup_filter s.peers (fun addr => !s.keysToDelete.contains addr) addr
    simp only at hn
    rw [hn] at this
    split at this
    · exact this.symm
    · cases this
  | find hsrv hio =>
    refine ⟨htable, h.newest, fun _ _ _ h => ?_⟩
    cases h
    exact hio
  | @create addr data hsrv hn =>
    refine ⟨htable, fun addr' n hn' => ?_, fun _ _ _ h => by cases h⟩
    by_cases heq : addr' = addr
    · subst heq
      rw [AssocMap.lookup_insert_self, Option.some.injEq] at hn'
      exact hn' ▸ Newest.concat_self s.streams (Stream.new addr' data)
    · rw [AssocMap.lookup_insert_of_ne _ _ heq] at hn'
      exact (h.newest addr' n hn').concat fun e => heq e.symm
  | @sendErr io addr data st hsrv hi hpc =>
    refine ⟨htable, fun addr' n hn => h.newest addr' n ?_, fun _ _ _ h => by cases h⟩
    by_cases heq : addr' = addr
    · subst heq
      rw [AssocMap.lookup_erase_self] at hn
      cases hn
    · rwa [AssocMap.lookup_erase_of_ne _ heq] at hn
  | send hsrv hi =>
    exact ⟨htable, fun addr n hn => (h.newest addr n hn).modify fun _ => rfl, fun _ _ _ h => by cases h⟩
  | close _ => exact ⟨htable, fun _ _ h => (by cases h), fun _ _ _ h => (by cases h)⟩

theorem inv_inductive (parse : Bytes → Option (UInt8 × D × Bytes)) (cnxTimeout : Option Nat) :
    (socks5Udp parse cnxTimeout : LTS (State P D) (Label P)).Inductive Inv where
  init s hs := by
    rw [show s = start from hs]
    exact inv_start
  step s l s' h hs := by
    have hs : step parse cnxTimeout s l = some s' := hs
    have htable := h.table.move (table_move h hs)
    cases l with
    | arrive a b =>
      cases hs
      exact ⟨htable, h.newest, h.sending⟩
    | server l => exact serverStep_inv h hs
    | stream i l =>
      obtain ⟨st, hi, hs⟩ := Option.bind_eq_some_iff.mp hs
      exact streamStep_inv h hi hs

/-! ## The payloads -/

/-- The payloads of the requests for `addr` among some datagrams. -/
def payloadsFor (parse : Bytes → Option (UInt8 × D × Bytes)) (addr : PeerMapKey P D)
    (packets : List (P × Bytes)) : List Bytes :=
  packets.flatMap fun e => match request parse e with
    | some (addr', data) => if addr' = addr then [data] else []
    | none => []

/-- The datagrams that have arrived in a run, in this order. -/
def arrived : List (Label P) → List (P × Bytes)
  | [] => []
  | .arrive a b :: ls => (a, b) :: arrived ls
  | _ :: ls => arrived ls

/-- What the streams of `addr` have read, the oldest stream first. -/
def State.readsOf (s : State P D) (addr : PeerMapKey P D) : List Bytes :=
  s.streams.flatMap fun st => if st.key = addr then st.reads else []

/-- What a stream of `addr` has read and still has in its channel. -/
def Stream.delivered (addr : PeerMapKey P D) (st : Stream (PeerMapKey P D)) : List Bytes :=
  if st.key = addr then st.reads ++ st.recvData else []

/-- The payload the loop has in its hands, if it is for `addr`. -/
def ServerPc.inHand (addr : PeerMapKey P D) : ServerPc (PeerMapKey P D) → List Bytes
  | .found addr' data | .sending _ addr' data => if addr' = addr then [data] else []
  | _ => []

/-- The payloads for `addr` from the first one read to the last one in the
socket. -/
def State.payloads (parse : Bytes → Option (UInt8 × D × Bytes)) (s : State P D) (addr : PeerMapKey P D) :
    List Bytes :=
  s.streams.flatMap (Stream.delivered addr) ++ s.server.inHand addr ++ payloadsFor parse addr s.socket

theorem payloads_sublist {parse : Bytes → Option (UInt8 × D × Bytes)} {s s' : State P D}
    {addr : PeerMapKey P D}
    (hstreams : (s'.streams.flatMap (Stream.delivered addr)).Sublist
      (s.streams.flatMap (Stream.delivered addr)))
    (hserver : (s'.server.inHand addr).Sublist (s.server.inHand addr)) (hsocket : s'.socket = s.socket) :
    (s'.payloads parse addr).Sublist (s.payloads parse addr) := by
  rw [State.payloads, State.payloads, hsocket]
  exact (hstreams.append hserver).append_right _

theorem streamStep_payloads {parse : Bytes → Option (UInt8 × D × Bytes)} {cnxTimeout : Option Nat}
    {s s' : State P D} {i : Nat} {st : Stream (PeerMapKey P D)} {l : StreamLabel}
    (hi : s.streams[i]? = some st) (hs : streamStep cnxTimeout s i st l = some s')
    (addr : PeerMapKey P D) : (s'.payloads parse addr).Sublist (s.payloads parse addr) := by
  cases move_of_streamStep hs with
  | expired _ | pending _ | dropPush _ =>
    exact payloads_sublist (LTS.flatMap_modify_sublist fun _ _ => List.Sublist.refl _)
      (List.Sublist.refl _) rfl
  | tooLong _ hq | read _ hq | dropClose _ =>
    refine payloads_sublist (LTS.flatMap_modify_sublist fun st' hi' => ?_) (List.Sublist.refl _) rfl
    obtain rfl := Option.some.inj (hi'.symm.trans hi)
    simp only [Stream.delivered]
    split
    · simp_all
    · exact List.nil_sublist _

/-- The newest stream gets the payload: the streams after it are of other
keys. -/
theorem flatMap_delivered_send {s : State P D} {io : Nat}
    {addr' : PeerMapKey P D} {data : Bytes} (hnew : Newest s.streams addr' io) (addr : PeerMapKey P D) :
    ((s.streams.modify io fun st => { st with recvData := st.recvData ++ [data] }).flatMap
      (Stream.delivered addr)).Sublist
        (s.streams.flatMap (Stream.delivered addr) ++ if addr' = addr then [data] else []) := by
  obtain ⟨⟨st, hi, hkey⟩, hlast⟩ := hnew
  by_cases heq : addr' = addr
  · have hget : Stream.delivered addr { st with recvData := st.recvData ++ [data] } =
        st.delivered addr ++ [data] := by simp [Stream.delivered, hkey, heq]
    have hnone : ∀ j st', io < j → s.streams[j]? = some st' → st'.delivered addr = [] :=
      fun j st' hj hst' => if_neg fun h => hlast j st' hj hst' (h.trans heq.symm)
    have hsent := LTS.flatMap_modify_append
      (f := fun st => { st with recvData := st.recvData ++ [data] }) hi hget hnone
    rw [if_pos heq]
    exact hsent ▸ List.Sublist.refl _
  · rw [if_neg heq, List.append_nil]
    refine LTS.flatMap_modify_sublist fun st' hi' => ?_
    obtain rfl := Option.some.inj (hi'.symm.trans hi)
    simp [Stream.delivered, hkey, heq]

theorem serverStep_payloads {parse : Bytes → Option (UInt8 × D × Bytes)} {s s' : State P D}
    {l : ServerLabel} (h : Inv s) (hs : serverStep parse s l = some s') (addr : PeerMapKey P D) :
    (s'.payloads parse addr).Sublist (s.payloads parse addr) := by
  cases move_of_serverStep hs with
  | noKeys _ _ | keys _ | clean _ | sendErr _ _ _ | close _ =>
    exact payloads_sublist (List.Sublist.refl _) (List.nil_sublist _) rfl
  | take hsrv hq hreq | skip hsrv hq hreq =>
    have : s.server.inHand addr = [] := by rw [hsrv]; rfl
    simp only [State.payloads, this, hq, payloadsFor, List.flatMap_cons, hreq, List.append_nil,
      List.append_assoc]
    exact List.Sublist.refl _
  | find hsrv _ =>
    refine payloads_sublist (List.Sublist.refl _) ?_ rfl
    rw [hsrv]
    exact List.Sublist.refl _
  | @create addr' data hsrv _ =>
    simp [State.payloads, hsrv, ServerPc.inHand, Stream.delivered, Stream.new]
  | @send io addr' data st hsrv hi =>
    have hnew := h.newest addr' io (h.sending io addr' data hsrv)
    rw [State.payloads, State.payloads, hsrv]
    refine List.Sublist.append_right ?_ _
    simp only [ServerPc.inHand, List.append_nil]
    exact flatMap_delivered_send hnew addr

theorem step_payloads {parse : Bytes → Option (UInt8 × D × Bytes)} {cnxTimeout : Option Nat}
    {s s' : State P D} {l : Label P} (h : Inv s) (hs : step parse cnxTimeout s l = some s')
    (addr : PeerMapKey P D) : (s'.payloads parse addr).Sublist
      (s.payloads parse addr ++ payloadsFor parse addr (arrived [l])) := by
  cases l with
  | arrive a b =>
    cases hs
    simp [State.payloads, payloadsFor, arrived]
  | server l => simpa [arrived, payloadsFor] using serverStep_payloads h hs addr
  | stream i l =>
    obtain ⟨st, hi, hs⟩ := Option.bind_eq_some_iff.mp hs
    simpa [arrived, payloadsFor] using streamStep_payloads hi hs addr

omit [DecidableEq P] in
theorem arrived_cons (l : Label P) (ls : List (Label P)) : arrived (l :: ls) = arrived [l] ++ arrived ls := by
  cases l <;> rfl

theorem run_payloads {parse : Bytes → Option (UInt8 × D × Bytes)} {cnxTimeout : Option Nat}
    {s s' : State P D} {ls : List (Label P)} (h : Inv s) (hr : (socks5Udp parse cnxTimeout).Run s ls s')
    (addr : PeerMapKey P D) : (s'.payloads parse addr).Sublist
      (s.payloads parse addr ++ payloadsFor parse addr (arrived ls)) := by
  induction hr with
  | nil => simp [arrived, payloadsFor]
  | @cons s s₁ s' l ls hs _ ih =>
    have hstep := step_payloads h hs addr
    have hrest := ih ((inv_inductive parse cnxTimeout).step s l s₁ h hs)
    rw [arrived_cons, payloadsFor, List.flatMap_append, ← List.append_assoc]
    exact hrest.trans (hstep.append_right _)

/-- What the streams of one key have read, one stream after the other, is a
part of what arrived for the key. -/
theorem reads_sublist {parse : Bytes → Option (UInt8 × D × Bytes)} {cnxTimeout : Option Nat}
    {s : State P D} {ls : List (Label P)} (hr : (socks5Udp parse cnxTimeout).Run start ls s)
    (addr : PeerMapKey P D) : (s.readsOf addr).Sublist (payloadsFor parse addr (arrived ls)) := by
  have hrun := run_payloads inv_start hr addr
  have hstart : (start : State P D).payloads parse addr = [] := rfl
  rw [hstart, List.nil_append] at hrun
  refine List.Sublist.trans ?_ hrun
  rw [State.payloads, List.append_assoc]
  refine List.Sublist.trans ?_ (List.sublist_append_left _ _)
  refine List.Sublist.flatMap_right _ fun st _ => ?_
  rw [Stream.delivered]
  split
  · exact List.sublist_append_left _ _
  · exact List.Sublist.refl _

/-- **Both peer tables are consistent with the live streams.** In every
reachable state of either server a key has at most one live stream, a dead
key is no live stream's key, and every live stream has its entry as long as
the server holds the map; no step takes the entry of a live stream away. What
the streams of one key of the SOCKS5 server read is a part of the payloads
that arrived for this peer and destination, in this order. -/
theorem peerTables_consistent {A B : Type} [DecidableEq A]
    (parse : Bytes → Option (UInt8 × D × Bytes)) (cnxTimeout : Option Nat) :
    (∀ s : Udp.State A B, (Udp.udp cnxTimeout).Reachable s → s.table.Inv ∧
      ∀ l s', Udp.step cnxTimeout s l = some s' → s'.table.isOpen →
        ∀ i k, s.table.alive i k → s'.table.entry k = some i) ∧
    (∀ ls (s : State P D), (socks5Udp parse cnxTimeout).Run start ls s → s.table.Inv ∧
      (∀ l s', step parse cnxTimeout s l = some s' → s'.table.isOpen →
        ∀ i k, s.table.alive i k → s'.table.entry k = some i) ∧
      ∀ addr, (s.readsOf addr).Sublist (payloadsFor parse addr (arrived ls))) := by
  refine ⟨fun s hr => ?_, fun ls s hr => ?_⟩
  · have h := (Udp.table_inv cnxTimeout).reachable s hr
    exact ⟨h, fun l s' hs hopen i k hi => h.entry_kept (Udp.table_move hs) hopen hi⟩
  · have h := (inv_inductive parse cnxTimeout).run inv_start hr
    exact ⟨h.table, fun l s' hs hopen i k hi => h.table.entry_kept (table_move h hs) hopen hi,
      reads_sublist hr⟩

end Steps

/-- A header of one byte for the fragment and one for the destination. -/
def shortHeader : Bytes → Option (UInt8 × Nat × Bytes)
  | frag :: destination :: data => some (frag, destination.toNat, data)
  | _ => none

/-- The stream is dropped while the loop sends to it. The loop removes the
entry itself, finds the key among the dead ones, and the next datagram opens
another stream for it. -/
def reopened : List (Label Nat) :=
  [.arrive 7 [0, 1, 65], .server .checkKeys, .server .recv, .server .dispatch,
    .stream 0 (.pollRead false 100), .arrive 7 [0, 1, 66], .server .checkKeys, .server .recv,
    .server .dispatch, .stream 0 .dropPush, .stream 0 .dropClose, .server .send,
    .arrive 7 [0, 1, 67], .server .checkKeys, .server .clean, .server .recv, .server .dispatch,
    .stream 1 (.pollRead false 100)]

theorem peerTables_consistent_reopened :
    (∃ s : Udp.State Nat Nat, (Udp.udp none).Reachable s ∧ s.peers.length = 1 ∧ s.table.Inv) ∧
      ∃ s : State Nat Nat, (socks5Udp shortHeader none).Run start reopened s ∧ s.table.Inv ∧
        s.readsOf ⟨7, 1⟩ = [[65], [67]] ∧
        (s.readsOf ⟨7, 1⟩).Sublist (payloadsFor shortHeader ⟨7, 1⟩ (arrived reopened)) := by
  have h := peerTables_consistent (A := Nat) (B := Nat) (P := Nat) shortHeader none
  obtain ⟨u, hu, hlen⟩ : ∃ u : Udp.State Nat Nat,
      LTS.exec (Udp.step none) Udp.start Udp.twoPeers = some u ∧ u.peers.length = 1 :=
    ⟨_, rfl, by decide⟩
  have hreach : (Udp.udp none).Reachable u := ⟨Udp.start, Udp.twoPeers, rfl, LTS.run_ofFn.mpr hu⟩
  obtain ⟨s, hs, hreads⟩ : ∃ s : State Nat Nat,
      LTS.exec (step shortHeader none) start reopened = some s ∧ s.readsOf ⟨7, 1⟩ = [[65], [67]] :=
    ⟨_, rfl, by decide⟩
  have hr : (socks5Udp shortHeader none).Run start reopened s := LTS.run_ofFn.mpr hs
  obtain ⟨hinv, -, hsub⟩ := h.2 reopened s hr
  exact ⟨⟨u, hreach, hlen, (h.1 u hreach).1⟩, s, hr, hinv, hreads, hsub ⟨7, 1⟩⟩

end Wstunnel.L5.Socks5Udp
