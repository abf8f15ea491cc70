import Wstunnel.Core.LazyTable
import Wstunnel.L5Concurrency.UdpServer

/-!
# The peers of the UDP server

`UdpServer` keeps its streams in `peers`, by the address of the peer. The
drop of a stream pushes its key to `keys_to_delete`; `clean_dead_keys`
removes the entries of these keys at the head of the loop. The table is the
only thing of the server that this module looks at. Nothing is assumed beside what
`UdpServer` says of its steps.

**Results.**
* `table_move`: every step of the model is a move of a table with lazy removal
  (`Core.LazyTable`).
* `table_inv`: so its invariant holds in every reachable state.
-/
namespace Wstunnel.L5.Udp

/-- The drop of the stream has begun. -/
def StreamPc.dropBegun : StreamPc → Bool
  | .pushed | .disarmed | .gone => true
  | _ => false

variable {A B : Type}

variable [DecidableEq A]

/-- A live stream is one that was yielded and whose drop has not begun. The
server never removes an entry but through the dead keys. -/
def State.table (s : State A B) : LazyTable A where
  alive := LazyTable.Registered Stream.peer (·.pc.dropBegun) s.streams
  entry a := s.peers.lookup a
  dead a := a ∈ s.keysToDelete
  isOpen := s.server ≠ .closed
  tidy := True

/-- A step that touches one stream, and neither the entries nor the keys. -/
theorem table_keep {s s' : State A B} {i : Nat} {f : Stream A → Stream A}
    (hs' : s'.streams = s.streams.modify i f)
    (hf : ∀ st, s.streams[i]? = some st →
      (f st).peer = st.peer ∧ ((f st).pc.dropBegun = false → st.pc.dropBegun = false))
    (hpeers : s'.peers = s.peers) (hkeys : s'.keysToDelete = s.keysToDelete)
    (hopen : s'.server ≠ .closed → s.server ≠ .closed) : s.table.Move s'.table := by
  refine .keep (fun _ _ h => ?_) (fun _ => by simp only [State.table, hpeers])
    (fun _ => by simp only [State.table, hkeys]; exact id) hopen id
  simp only [State.table, hs'] at h
  exact h.of_modify hf

theorem streamStep_table {cnxTimeout : Option Nat} {s s' : State A B} {i : Nat} {st : Stream A}
    {l : StreamLabel} (hi : s.streams[i]? = some st) (hs : streamStep cnxTimeout s i st l = some s') :
    s.table.Move s'.table := by
  cases move_of_streamStep hs with
  | expired hpc | pollStart hpc | ready hpc _ _ | pending hpc _ _ | disarmed hpc _ | recv hpc _
  | recvPending hpc | recvErr hpc | rearm hpc | enable hpc | signal hpc | dropDisarm hpc
  | dropSignal hpc =>
    refine table_keep rfl (fun st' hi' => ?_) rfl rfl id
    obtain rfl := Option.some.inj (hi'.symm.trans hi)
    simp [StreamPc.dropBegun, hpc]
  | dropPush hpc =>
    have hlive : st.pc.dropBegun = false := by
      rcases hpc with hpc | hpc <;> rw [hpc] <;> rfl
    by_cases hopen : s.server = .closed
    · refine .close (fun _ _ h => (h.of_modify_ended fun _ => ?_).1) fun h => h hopen
      exact ⟨rfl, rfl⟩
    · refine .finish i st.peer ⟨st, hi, rfl, hlive⟩ id id (fun _ _ h => h.of_modify_ended fun _ => ?_)
        (fun _ => rfl) fun a ha => ?_
      · exact ⟨rfl, rfl⟩
      · simpa [State.table, hopen] using ha

/-- A new stream is the only live one of its peer's key. -/
theorem create_table {s : State A B} {a : A} (hsrv : s.server = .found a)
    (hnone : s.peers.lookup a = none) : s.table.Move (State.table { s with
      streams := s.streams ++ [Stream.new a]
      peers := AssocMap.insert s.peers a s.streams.length
      server := .yielded (some a) }) :=
  .create s.streams.length a hnone (by simp [State.table, hsrv]) trivial
    (fun _ _ h => h.of_concat) (AssocMap.lookup_insert_self _ _ _)
    (fun _ hne => AssocMap.lookup_insert_of_ne _ _ hne) fun _ => id

theorem serverStep_table {s s' : State A B} {l : ServerLabel} (hs : serverStep s l = some s') :
    s.table.Move s'.table := by
  cases move_of_serverStep hs with
  | resumeWait hsrv _ | woken hsrv _ _ | asleep hsrv _ _ | notify hsrv _ | wait hsrv =>
    exact table_keep rfl (fun _ _ => ⟨rfl, id⟩) rfl rfl fun _ => by simp [hsrv]
  | resumeTop hsrv _ | peek hsrv _ =>
    exact .keep (fun _ _ => id) (fun _ => rfl) (fun _ => id) (fun _ => by simp [State.table, hsrv]) id
  | clean hsrv =>
    refine .clean (by simp [State.table, hsrv]) (fun _ _ => id) (fun a ha => ?_) fun a => ?_
    · have := AssocMap.lookup_filter s.peers (fun a => !s.keysToDelete.contains a) a
      simpa [State.table, show a ∉ s.keysToDelete from ha] using this
    · exact List.not_mem_nil
  | create hsrv hn => exact create_table hsrv hn
  | peekErr _ | noSocket _ _ | close _ => exact .close (fun _ _ => id) fun h => h rfl
  | closeWaiting _ =>
    refine .close (fun _ _ h => h.of_modify fun _ _ => ?_) fun h => h rfl
    exact ⟨rfl, id⟩

theorem table_move {cnxTimeout : Option Nat} {s s' : State A B} {l : Label A B}
    (hs : step cnxTimeout s l = some s') : s.table.Move s'.table := by
  cases l with
  | arrive a b =>
    cases hs
    exact .keep (fun _ _ => id) (fun _ => rfl) (fun _ => id) id id
  | server l => exact serverStep_table hs
  | stream i l =>
    obtain ⟨st, hi, hs⟩ := Option.bind_eq_some_iff.mp hs
    exact streamStep_table hi hs

/-- The table of peers is consistent with the live streams. -/
theorem table_inv (cnxTimeout : Option Nat) :
    (udp cnxTimeout : LTS (State A B) (Label A B)).Inductive fun s => s.table.Inv where
  init s hs := by
    rw [show s = start from hs]
    exact .of_empty (fun _ _ ⟨_, hi, _⟩ => by cases hi) fun _ => List.not_mem_nil
  step _ _ _ h hs := h.move (table_move hs)

end Wstunnel.L5.Udp
