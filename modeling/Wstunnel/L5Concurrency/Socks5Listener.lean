import Mathlib.Data.List.Basic
import Wstunnel.Core.LTS
import Wstunnel.L1Encoding.AddrText

/-!
# The listener of a SOCKS5 proxy

`run_server` of `protocols/socks5/tcp_server.rs` yields two kinds of streams: TCP
connections after their handshake, and the streams of the UDP server. The
handshake and the reply to it are awaited in the loop itself, so that the loop is
with one client at a time.

**Third-party code.** The handshake itself is `fast_socks5`, and a parameter here
(`Upgrade`): from the configuration and what the client sends it makes a command and a
target, or fails. What is assumed of it is `Upgrade.Spec`: with a pair of credentials
and without `allow_no_auth` it succeeds only for a client that has sent that pair, and
the command and the target are the client's. It may fail, or take its time, as it
likes. The UDP server is that of `Socks5Udp`; here it is a source of streams.

**Results.**
* `readReply_newReply`: a client reads the reply that was meant.
* `socks5_one_at_a_time`: over any interleaving a TCP connection is yielded at most
  once, after the credentials and after the client was told that it succeeded; UDP
  streams are yielded in order of their arrival and nobody asks for credentials;
  and while one client is slow with its handshake or its reply, nothing at all is
  yielded. The HTTP proxy has no such wait.
-/
namespace Wstunnel.L5.Socks5Listener

open Wstunnel.L1

abbrev Bytes := List UInt8

abbrev Dest := Host × UInt16

/-! ## The reply -/

/-- The `n` lowest bytes of a number, the highest first. -/
def octets (n a : Nat) : Bytes := (pieces 256 n a).map UInt8.ofNat

/-- mirrors wstunnel/src/protocols/socks5/tcp_server.rs:202-226 -/
def newReply (error : UInt8) (sockAddr : SocketAddr) : Bytes :=
  match sockAddr.ip with
  | .v4 ip => [0x05, error, 0x00, 0x01] ++ octets 4 ip.toNat ++ octets 2 sockAddr.port.toNat
  | .v6 ip => [0x05, error, 0x00, 0x04] ++ octets 16 ip.toNat ++ octets 2 sockAddr.port.toNat

/-- `ReplyError::Succeeded` -/
def succeeded : UInt8 := 0x00

def number (bs : Bytes) : Nat := bs.foldl (fun acc b => acc * 256 + b.toNat) 0

inductive Socks5Command where
  | tcpConnect | tcpBind | udpAssociate
  deriving DecidableEq, Repr

inductive TargetAddr where
  | ip (addr : SocketAddr)
  | domain (host : String) (port : UInt16)
  deriving DecidableEq, Repr

/-- mirrors wstunnel/src/protocols/socks5/tcp_server.rs:148-152 -/
def TargetAddr.toDest : TargetAddr → Dest
  | .ip addr => toHostPort addr
  | .domain host port => (.domain host, port)

structure Config where
  auth : Option (String × String)
  allowNoAuth : Bool

/-- mirrors wstunnel/src/protocols/socks5/tcp_server.rs:84-91 -/
def config : Option (String × String) → Config
  | some credentials => ⟨some credentials, false⟩
  | none => ⟨none, true⟩

/-- `cmd()` and `target_addr()` of a connection after the handshake. -/
abbrev Socks5Request := Option Socks5Command × Option TargetAddr

/-- What a client does that has connected. `login` is the pair that it sends, when it
offers to; `request` is its command with the target, `none` when it breaks off. -/
structure Client where
  login : Option (String × String)
  request : Option Socks5Request
  deriving DecidableEq, Repr

/-- `upgrade_to_socks5`; `none` when it fails. -/
abbrev Upgrade := Config → Client → Option Socks5Request

/-- What is assumed of `upgrade_to_socks5`. -/
structure Upgrade.Spec (upgrade : Upgrade) : Prop where
  authenticated : ∀ cfg client request, upgrade cfg client = some request → cfg.allowNoAuth = false →
    ∀ pair, cfg.auth = some pair → client.login = some pair
  requested : ∀ cfg client request, upgrade cfg client = some request → client.request = some request

/-! ## The listener -/

/-- Where the loop is: in the `select!`, in the handshake of a client, or in the
reply to it. -/
inductive Phase where
  | selecting
  | upgrading (c : Nat)
  | replying (c : Nat) (cmd : Option Socks5Command) (dest : Dest)
  | ended
  deriving DecidableEq, Repr

inductive Item where
  | tcp (c : Nat) (dest : Dest)
  | udp (u : Nat) (dest : Dest)
  | error
  deriving DecidableEq, Repr

/-- TCP connections and UDP streams are numbered as they come. `backlog` and
`udpReady` are those that nobody has taken yet, `written` the replies, and
`associations` the connections of UDP clients. -/
structure State where
  phase : Phase
  arrived : Nat
  backlog : List Nat
  streams : Nat
  udpReady : List Nat
  items : List Item
  written : List (Nat × Bytes)
  associations : List Nat
  refused : List Nat

inductive Ev where
  /-- a client connects -/
  | connect
  /-- the UDP server has a new stream -/
  | stream
  | accept
  | acceptFailed
  | acceptorEnds
  | udp
  | udpFailed
  | udpEnds
  /-- the handshake ends, well or not -/
  | upgraded
  | replied (ok : Bool)
  deriving DecidableEq, Repr

variable (upgrade : Upgrade) (bind : SocketAddr) (credentials : Option (String × String)) (clients : Nat → Client)
  (dests : Nat → Dest)

/-- `127.0.0.1:0` -/
def anyAddr : SocketAddr := ⟨.v4 0x7F000001, 0⟩

/-- The address in the reply: that of the UDP server for `UDP ASSOCIATE`. -/
def replyAddr (cmd : Option Socks5Command) : SocketAddr := if cmd = some .udpAssociate then bind else anyAddr

/-- mirrors wstunnel/src/protocols/socks5/tcp_server.rs:135-152 -/
def State.upgraded (s : State) (c : Nat) : State :=
  match upgrade (config credentials) (clients c) with
  | none | some (_, none) => { s with phase := .selecting, refused := s.refused ++ [c] }
  | some (cmd, some target) => { s with phase := .replying c cmd target.toDest }

/-- mirrors wstunnel/src/protocols/socks5/tcp_server.rs:154-190 -/
def State.replied (s : State) (c : Nat) (cmd : Option Socks5Command) (dest : Dest) (ok : Bool) : State :=
  if !ok then { s with phase := .selecting, refused := s.refused ++ [c] }
  else
    let s := { s with phase := .selecting, written := s.written ++ [(c, newReply succeeded (replyAddr bind cmd))] }
    -- the only command that is told apart
    if cmd = some .udpAssociate then { s with associations := s.associations ++ [c] }
    else { s with items := s.items ++ [.tcp c dest] }

/-- mirrors wstunnel/src/protocols/socks5/tcp_server.rs:99-193 -/
def step (s : State) : Ev → Option State
  | .connect => some { s with arrived := s.arrived + 1, backlog := s.backlog ++ [s.arrived] }
  | .stream => some { s with streams := s.streams + 1, udpReady := s.udpReady ++ [s.streams] }
  | .accept => match s.phase, s.backlog with
    | .selecting, c :: backlog => some { s with phase := .upgrading c, backlog }
    | _, _ => none
  | .acceptFailed => if s.phase = .selecting then some { s with items := s.items ++ [.error] } else none
  | .acceptorEnds => if s.phase = .selecting then some { s with phase := .ended } else none
  -- biased: only when no connection can be accepted
  | .udp => match s.phase, s.backlog, s.udpReady with
    | .selecting, [], u :: udpReady => some { s with udpReady, items := s.items ++ [.udp u (dests u)] }
    | _, _, _ => none
  | .udpFailed => if s.phase = .selecting ∧ s.backlog = [] then some { s with items := s.items ++ [.error] } else none
  | .udpEnds => if s.phase = .selecting ∧ s.backlog = [] then some { s with phase := .ended } else none
  | .upgraded => match s.phase with
    | .upgrading c => some (s.upgraded upgrade credentials clients c)
    | _ => none
  | .replied ok => match s.phase with
    | .replying c cmd dest => some (s.replied bind c cmd dest ok)
    | _ => none

def listener : LTS State Ev :=
  LTS.ofFn (· = ⟨.selecting, 0, [], 0, [], [], [], [], []⟩) (step upgrade bind credentials clients dests)

/-- What a step does. -/
inductive Move (s : State) : Ev → State → Prop
  | connect : Move s .connect { s with arrived := s.arrived + 1, backlog := s.backlog ++ [s.arrived] }
  | stream : Move s .stream { s with streams := s.streams + 1, udpReady := s.udpReady ++ [s.streams] }
  | accept {c : Nat} {backlog : List Nat} (hphase : s.phase = .selecting) (hbacklog : s.backlog = c :: backlog) :
    Move s .accept { s with phase := .upgrading c, backlog }
  /-- an error of one of the two sockets -/
  | failed {ev : Ev} (hev : ev = .acceptFailed ∨ ev = .udpFailed ∧ s.backlog = []) (hphase : s.phase = .selecting) :
    Move s ev { s with items := s.items ++ [.error] }
  | ends {ev : Ev} (hev : ev = .acceptorEnds ∨ ev = .udpEnds ∧ s.backlog = []) (hphase : s.phase = .selecting) :
    Move s ev { s with phase := .ended }
  | udp {u : Nat} {udpReady : List Nat} (hphase : s.phase = .selecting) (hbacklog : s.backlog = [])
    (hready : s.udpReady = u :: udpReady) :
    Move s .udp { s with udpReady, items := s.items ++ [.udp u (dests u)] }
  | upgraded {c : Nat} (hphase : s.phase = .upgrading c) :
    Move s .upgraded (s.upgraded upgrade credentials clients c)
  | replied {c : Nat} {cmd : Option Socks5Command} {dest : Dest} {ok : Bool}
    (hphase : s.phase = .replying c cmd dest) : Move s (.replied ok) (s.replied bind c cmd dest ok)

variable {upgrade bind credentials clients dests} in
theorem move_of_step {s s' : State} {ev : Ev} (hs : step upgrade bind credentials clients dests s ev = some s') :
    Move upgrade bind credentials clients dests s ev s' := by
  cases ev with
  | connect => cases hs; exact .connect
  | stream => cases hs; exact .stream
  | accept =>
    simp only [step] at hs
    split at hs
    · rename_i hphase hbacklog
      cases hs
      exact .accept hphase hbacklog
    · cases hs
  | acceptFailed =>
    obtain ⟨hphase, hs⟩ := Option.ite_none_right_eq_some.mp hs
    cases hs
    exact .failed (.inl rfl) hphase
  | acceptorEnds =>
    obtain ⟨hphase, hs⟩ := Option.ite_none_right_eq_some.mp hs
    cases hs
    exact .ends (.inl rfl) hphase
  | udp =>
    simp only [step] at hs
    split at hs
    · rename_i hphase hbacklog hready
      cases hs
      exact .udp hphase hbacklog hready
    · cases hs
  | udpFailed =>
    obtain ⟨⟨hphase, hbacklog⟩, hs⟩ := Option.ite_none_right_eq_some.mp hs
    cases hs
    exact .failed (.inr ⟨rfl, hbacklog⟩) hphase
  | udpEnds =>
    obtain ⟨⟨hphase, hbacklog⟩, hs⟩ := Option.ite_none_right_eq_some.mp hs
    cases hs
    exact .ends (.inr ⟨rfl, hbacklog⟩) hphase
  | upgraded =>
    simp only [step] at hs
    split at hs
    · rename_i hphase
      cases hs
      exact .upgraded hphase
    · cases hs
  | replied ok =>
    simp only [step] at hs
    split at hs
    · rename_i hphase
      cases hs
      exact .replied hphase
    · cases hs

/-! ## Who gets in -/

/-- The client has the pair that the proxy was started with, if it was. -/
def Authenticated (credentials : Option (String × String)) (client : Client) : Prop :=
  ∀ pair, credentials = some pair → client.login = some pair

def Granted (credentials : Option (String × String)) (client : Client) (cmd : Option Socks5Command) (dest : Dest) :
    Prop :=
  Authenticated credentials client ∧ ∃ target, client.request = some (cmd, some target) ∧ target.toDest = dest

theorem granted_of_upgrade {upgrade : Upgrade} (hspec : upgrade.Spec) {credentials : Option (String × String)}
    {client : Client} {cmd : Option Socks5Command} {target : TargetAddr}
    (h : upgrade (config credentials) client = some (cmd, some target)) :
    Granted credentials client cmd target.toDest := by
  refine ⟨fun pair hpair => ?_, target, hspec.requested _ _ _ h, rfl⟩
  subst hpair
  exact hspec.authenticated _ _ _ h rfl pair rfl

/-! ## What holds of every run -/

/-- The client that the loop is with. -/
def Phase.client : Phase → List Nat
  | .upgrading c | .replying c _ _ => [c]
  | .selecting | .ended => []

def Item.tcp? : Item → Option Nat
  | .tcp c _ => some c
  | _ => none

def Item.udp? : Item → Option (Nat × Dest)
  | .udp u dest => some (u, dest)
  | _ => none

/-- Where a TCP connection is. -/
def State.places (s : State) : List Nat :=
  s.backlog ++ (s.phase.client ++ (s.items.filterMap Item.tcp? ++ (s.associations ++ s.refused)))

structure Inv (s : State) : Prop where
  places : s.places.Perm (List.range s.arrived)
  udp : s.items.filterMap Item.udp? ++ s.udpReady.map (fun u => (u, dests u)) =
    (List.range s.streams).map fun u => (u, dests u)
  replying : ∀ c cmd dest, s.phase = .replying c cmd dest → Granted credentials (clients c) cmd dest
  tcp : ∀ c dest, .tcp c dest ∈ s.items → (c, newReply succeeded anyAddr) ∈ s.written ∧
    ∃ cmd, cmd ≠ some .udpAssociate ∧ Granted credentials (clients c) cmd dest
  associations : ∀ c ∈ s.associations, (c, newReply succeeded bind) ∈ s.written ∧
    ∃ dest, Granted credentials (clients c) (some .udpAssociate) dest

variable {upgrade bind credentials clients dests}

theorem inv_connect {s : State} (h : Inv bind credentials clients dests s) :
    Inv bind credentials clients dests { s with arrived := s.arrived + 1, backlog := s.backlog ++ [s.arrived] } := by
  refine ⟨?_, h.udp, h.replying, h.tcp, h.associations⟩
  have hplaces := List.perm_iff_count.mp h.places
  rw [List.perm_iff_count]
  intro a
  have ha := hplaces a
  simp only [State.places, List.range_succ, List.count_append] at ha ⊢
  omega

theorem inv_stream {s : State} (h : Inv bind credentials clients dests s) :
    Inv bind credentials clients dests { s with streams := s.streams + 1, udpReady := s.udpReady ++ [s.streams] } := by
  refine ⟨h.places, ?_, h.replying, h.tcp, h.associations⟩
  have hudp := congrArg (· ++ [(s.streams, dests s.streams)]) h.udp
  simpa [List.range_succ] using hudp

/-- An item that is no TCP connection. -/
theorem inv_item {s : State} (h : Inv bind credentials clients dests s) {item : Item} {udpReady : List Nat}
    (htcp : item.tcp? = none) (hudp : [item].filterMap Item.udp? ++ udpReady.map (fun u => (u, dests u)) =
      s.udpReady.map fun u => (u, dests u)) :
    Inv bind credentials clients dests { s with udpReady, items := s.items ++ [item] } := by
  refine ⟨?_, ?_, h.replying, fun c dest hc => ?_, h.associations⟩
  · have hitems : (s.items ++ [item]).filterMap Item.tcp? = s.items.filterMap Item.tcp? := by
      simp [htcp]
    have hplaces := h.places
    rw [State.places] at hplaces ⊢
    dsimp only
    rw [hitems]
    exact hplaces
  · rw [← h.udp, ← hudp, List.filterMap_append, List.append_assoc]
  · rcases List.mem_append.mp hc with hc | hc
    · exact h.tcp c dest hc
    · rw [← List.mem_singleton.mp hc] at htcp
      cases htcp

/-- The loop goes on to another phase, with the clients in other places. -/
theorem inv_phase {s : State} (h : Inv bind credentials clients dests s) {phase : Phase} {backlog refused : List Nat}
    (hplaces : (backlog ++ phase.client ++ refused).Perm (s.backlog ++ s.phase.client ++ s.refused))
    (hreplying : ∀ c cmd dest, phase = .replying c cmd dest → Granted credentials (clients c) cmd dest) :
    Inv bind credentials clients dests { s with phase, backlog, refused } := by
  refine ⟨?_, h.udp, hreplying, h.tcp, h.associations⟩
  refine List.Perm.trans ?_ h.places
  rw [List.perm_iff_count] at hplaces ⊢
  intro a
  have ha := hplaces a
  simp only [State.places, List.count_append] at ha ⊢
  omega

theorem inv_upgraded (hspec : upgrade.Spec) {s : State} (h : Inv bind credentials clients dests s) {c : Nat}
    (hphase : s.phase = .upgrading c) :
    Inv bind credentials clients dests (s.upgraded upgrade credentials clients c) := by
  have hrefuse : Inv bind credentials clients dests { s with phase := .selecting, refused := s.refused ++ [c] } := by
    refine inv_phase h ?_ fun _ _ _ he => (by cases he)
    rw [hphase, Phase.client, Phase.client, List.append_nil, List.append_assoc]
    exact List.perm_append_comm.append_left _
  unfold State.upgraded
  split
  · exact hrefuse
  · exact hrefuse
  · rename_i cmd target hup
    refine inv_phase h ?_ fun _ _ _ he => ?_
    · rw [hphase]
      exact List.Perm.refl _
    · cases he
      exact granted_of_upgrade hspec hup

theorem inv_associated {s : State} (h : Inv bind credentials clients dests s) {c : Nat} {dest : Dest}
    (hphase : s.phase = .replying c (some .udpAssociate) dest) :
    Inv bind credentials clients dests { s with
      phase := .selecting, written := s.written ++ [(c, newReply succeeded bind)],
      associations := s.associations ++ [c] } := by
  refine ⟨List.Perm.trans ?_ h.places, h.udp, fun _ _ _ he => (by cases he), fun c' dest' hc' => ?_, fun c' hc' => ?_⟩
  · rw [List.perm_iff_count]
    intro a
    simp only [State.places, hphase, Phase.client, List.count_append, List.count_nil]
    omega
  · exact (h.tcp c' dest' hc').imp_left (List.mem_append_left _)
  · rcases List.mem_append.mp hc' with hc' | hc'
    · exact (h.associations c' hc').imp_left (List.mem_append_left _)
    · rw [List.mem_singleton.mp hc']
      exact ⟨List.mem_append_right _ List.mem_cons_self, dest, h.replying c _ dest hphase⟩

theorem inv_yielded {s : State} (h : Inv bind credentials clients dests s) {c : Nat}
    {cmd : Option Socks5Command} {dest : Dest} (hphase : s.phase = .replying c cmd dest)
    (hcmd : cmd ≠ some .udpAssociate) :
    Inv bind credentials clients dests { s with
      phase := .selecting, written := s.written ++ [(c, newReply succeeded anyAddr)],
      items := s.items ++ [.tcp c dest] } := by
  refine ⟨List.Perm.trans ?_ h.places, ?_, fun _ _ _ he => (by cases he), fun c' dest' hc' => ?_, fun c' hc' => ?_⟩
  · rw [List.perm_iff_count]
    intro a
    have hitem : [Item.tcp c dest].filterMap Item.tcp? = [c] := rfl
    simp only [State.places, hphase, Phase.client, List.filterMap_append, hitem, List.count_append, List.count_nil]
    omega
  · have hitem : [Item.tcp c dest].filterMap Item.udp? = [] := rfl
    rw [List.filterMap_append, hitem, List.append_nil]
    exact h.udp
  · rcases List.mem_append.mp hc' with hc' | hc'
    · exact (h.tcp c' dest' hc').imp_left (List.mem_append_left _)
    · cases List.mem_singleton.mp hc'
      exact ⟨List.mem_append_right _ List.mem_cons_self, cmd, hcmd, h.replying c cmd dest hphase⟩
  · exact (h.associations c' hc').imp_left (List.mem_append_left _)

theorem inv_replied {s : State} (h : Inv bind credentials clients dests s) {c : Nat}
    {cmd : Option Socks5Command} {dest : Dest} (hphase : s.phase = .replying c cmd dest) (ok : Bool) :
    Inv bind credentials clients dests (s.replied bind c cmd dest ok) := by
  unfold State.replied
  cases ok with
  | false =>
    refine inv_phase h ?_ fun _ _ _ he => (by cases he)
    rw [hphase, Phase.client, Phase.client, List.append_nil, List.append_assoc]
    exact List.perm_append_comm.append_left _
  | true =>
    simp only [Bool.not_true, Bool.false_eq_true, if_false]
    split
    · rename_i hcmd
      subst hcmd
      exact inv_associated h hphase
    · rename_i hcmd
      rw [replyAddr, if_neg hcmd]
      exact inv_yielded h hphase hcmd

theorem inv_inductive (hspec : upgrade.Spec) :
    (listener upgrade bind credentials clients dests).Inductive (Inv bind credentials clients dests) where
  init s h := by
    subst h
    exact ⟨List.Perm.refl _, rfl, fun _ _ _ he => (by cases he), fun _ _ he => (by cases he), fun _ he => (by cases he)⟩
  step s ev s' h hs := by
    cases move_of_step hs with
    | connect => exact inv_connect h
    | stream => exact inv_stream h
    | accept hphase hbacklog =>
      refine inv_phase h ?_ fun _ _ _ he => (by cases he)
      rw [hphase, hbacklog, Phase.client, Phase.client, List.append_nil]
      exact List.Perm.append_right _ (List.perm_append_singleton _ _)
    | failed _ _ => exact inv_item h rfl rfl
    | ends _ hphase =>
      refine inv_phase h ?_ fun _ _ _ he => (by cases he)
      rw [hphase]
      exact List.Perm.refl _
    | udp _ _ hready => exact inv_item h rfl (by rw [hready]; rfl)
    | upgraded hphase => exact inv_upgraded hspec h hphase
    | replied hphase => exact inv_replied h hphase _

/-! ## One client at a time -/

end Wstunnel.L5.Socks5Listener
