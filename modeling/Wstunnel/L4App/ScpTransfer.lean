import Wstunnel.L4App.ScpSink

/-!
# `scp_upload` connected to `scp_download`

The two halves as one system: what one sends, the other receives, in order.
Control records and the zero byte after a file's data arrive as one message
each, the data itself in any number of non-empty messages. Either side may
run ahead as far as the messages under way allow.

`Good` says, for what the source still has to do, that the sink takes it as
intended from the state it will be in when it has read everything under way.

**Third-party code.** The channel of `russh` keeps order and loses nothing; a record is
not cut, the data is cut anywhere. The local file systems do not fail.

**Results**, for every script that is `Good` at the start:
* `inv_move`: every step keeps it, so at most one acknowledgement is under
  way (`Inv.outstanding_le`).
* `work_move`: every step uses up some of a finite amount of work.
* `done_of_stuck`: a run that cannot go on is complete.
-/
namespace Wstunnel.L4.ScpTransfer

open UnixPath
open Scp (Bytes ChannelMsg Effect noFailure acks)
open ScpUpload (Sent Op)

/-! ## The two halves together -/

/-- `toSink` is what the source has sent and the sink not read yet, `read`
how many acknowledgements the source has read. -/
structure State where
  src : ScpUpload.State
  snk : Scp.State
  toSink : List (Option ChannelMsg)
  read : Nat

/-- The acknowledgements under way. -/
def State.outstanding (c : State) : List Bytes := (acks c.snk.log).drop c.read

/-- The messages in which an operation arrives; `pieces` is how data is cut. -/
def deliver (op : Op) (pieces : List Bytes) : Option (List (Option ChannelMsg)) :=
  match op with
  | .exec _ => some []
  | .recvResponse => none
  | .send (.fileData _ data) =>
    if pieces.flatten = data ∧ [] ∉ pieces then some (pieces.map packet) else none
  | .send x => some [packet x.bytes]
  | .eof => some [some .eof]

inductive Label where
  /-- the source sends -/
  | send (pieces : List Bytes)
  /-- the source reads the next acknowledgement -/
  | recv
  /-- the sink reads the next message -/
  | sink
  deriving DecidableEq, Repr

def step (c : State) : Label → Option State
  | .send pieces => match c.src.todo with
    | [] => none
    | op :: _ => do
      let msgs ← deliver op pieces
      let src ← ScpUpload.step c.src (.op none)
      return { c with src, toSink := c.toSink ++ msgs }
  | .recv => do
    let ack ← (acks c.snk.log)[c.read]?
    let src ← ScpUpload.step c.src (.msg (packet ack))
    return { c with src, read := c.read + 1 }
  | .sink => match c.toSink with
    | [] => none
    | msg :: msgs => do
      let snk ← Scp.step noFailure c.snk msg
      return { c with snk, toSink := msgs }

/-- Both started, nothing under way but the sink's first zero byte. -/
def transfer (script : ScpUpload.Upload Unit) (sink : Scp.State) : LTS State Label :=
  LTS.ofFn (· = ⟨ScpUpload.start script, sink, [], 0⟩) step

/-! ## What the source still has to do -/

/-- The sink, in state `snk`, takes the rest of the script as intended and
ends with `Q`: it acknowledges what the source waits for, and nothing else. -/
def Good (Q : Scp.State → Prop) : List Op → Scp.State → Nat → Prop
  | [], snk, read => Q snk ∧ (acks snk.log).length = read
  | .exec _ :: ops, snk, read => Good Q ops snk read
  | .recvResponse :: ops, snk, read =>
    (acks snk.log)[read]? = some [0] ∧ (acks snk.log).length = read + 1 ∧ Good Q ops snk (read + 1)
  | .send x :: ops, snk, read => (acks snk.log).length = read ∧
    ∀ pieces msgs, deliver (.send x) pieces = some msgs →
      ∃ snk', LTS.exec (Scp.step noFailure) snk msgs = some snk' ∧ Good Q ops snk' read
  | .eof :: ops, snk, read => (acks snk.log).length = read ∧
    ∀ pieces msgs, deliver .eof pieces = some msgs →
      ∃ snk', LTS.exec (Scp.step noFailure) snk msgs = some snk' ∧ Good Q ops snk' read

section Good

variable {Q : Scp.State → Prop} {ops : List Op} {snk snk' : Scp.State} {read : Nat}

theorem Good.length_le (h : Good Q ops snk read) : (acks snk.log).length ≤ read + 1 := by
  induction ops with
  | nil => have := h.2; omega
  | cons op ops ih =>
    cases op with
    | exec cmd => exact ih h
    | recvResponse => have := h.2.1; omega
    | send x => have := h.1; omega
    | eof => have := h.1; omega

/-- A record, its acknowledgement, and what comes after. -/
theorem good_exchange {x : Sent} (hx : ∀ pieces, deliver (.send x) pieces = some [packet x.bytes])
    (hstep : Scp.step noFailure snk (packet x.bytes) = some snk')
    (hacks : acks snk'.log = acks snk.log ++ [[0]]) (hgood : Good Q ops snk' (acks snk'.log).length) :
    Good Q (.send x :: .recvResponse :: ops) snk (acks snk.log).length := by
  refine ⟨rfl, fun pieces msgs hd => ?_⟩
  rw [hx pieces] at hd
  cases hd
  have hlen : (acks snk'.log).length = (acks snk.log).length + 1 := by rw [hacks]; simp
  refine ⟨snk', by simp [LTS.exec, hstep], by rw [hacks]; simp, hlen, ?_⟩
  rwa [← hlen]

end Good

/-! ## Every step keeps it -/

structure Inv (Q : Scp.State → Prop) (c : State) : Prop where
  good : ∃ snk, LTS.exec (Scp.step noFailure) c.snk c.toSink = some snk ∧ Good Q c.src.todo snk c.read
  ok : c.src.result = .ok ()

theorem exec_log {s s' : Scp.State} {msgs : List (Option ChannelMsg)}
    (h : LTS.exec (Scp.step noFailure) s msgs = some s') : s.log <+: s'.log := by
  induction msgs generalizing s with
  | nil => cases h; exact List.prefix_rfl
  | cons msg msgs ih =>
    obtain ⟨t, ht, h⟩ := Option.bind_eq_some_iff.mp h
    exact (Scp.step_log List.prefix_rfl ht).trans (ih h)

theorem acks_grow {s s' : Scp.State} {msgs : List (Option ChannelMsg)}
    (h : LTS.exec (Scp.step noFailure) s msgs = some s') : acks s.log <+: acks s'.log :=
  (exec_log h).filterMap _

/-- The source sends: the messages come after those under way. -/
theorem inv_send {Q : Scp.State → Prop} {c : State} (h : Inv Q c) {op : Op} {todo : List Op}
    {pieces : List Bytes} {msgs : List (Option ChannelMsg)} (ht : c.src.todo = op :: todo)
    (hd : deliver op pieces = some msgs) {src : ScpUpload.State} (htodo : src.todo = todo)
    (hres : src.result = c.src.result) : Inv Q { c with src, toSink := c.toSink ++ msgs } := by
  obtain ⟨snk, hexec, hgood⟩ := h.good
  rw [ht] at hgood
  obtain ⟨snk', hmsgs, hgood⟩ :
      ∃ snk', LTS.exec (Scp.step noFailure) snk msgs = some snk' ∧ Good Q todo snk' c.read := by
    cases op with
    | exec cmd => cases hd; exact ⟨snk, rfl, hgood⟩
    | recvResponse => cases hd
    | send x => exact hgood.2 pieces msgs hd
    | eof => exact hgood.2 pieces msgs hd
  refine ⟨⟨snk', ?_, by rwa [htodo]⟩, hres.trans h.ok⟩
  rw [LTS.exec_append, hexec, Option.bind_some, hmsgs]

theorem step_did {s : ScpUpload.State} {op : Op} {todo : List Op} {ev : ScpUpload.Event}
    (ht : s.todo = op :: todo) (hev : op.event = some ev) :
    ScpUpload.step s (.op none) = some { s with todo, log := s.log ++ [ev] } := by
  simp [ScpUpload.step, ht, hev]

theorem step_zero {s : ScpUpload.State} {todo : List Op} (ht : s.todo = .recvResponse :: todo) :
    ScpUpload.step s (.msg (packet [0])) = some { s with todo, log := s.log ++ [.answered 0] } := by
  simp [ScpUpload.step, ht, ScpUpload.recvResponse, ScpUpload.answer]

theorem waits_of_step {s s' : ScpUpload.State} {msg : Option ChannelMsg}
    (h : ScpUpload.step s (.msg msg) = some s') : ∃ todo, s.todo = .recvResponse :: todo := by
  simp only [ScpUpload.step] at h
  split at h
  · rename_i todo ht
    exact ⟨todo, ht⟩
  · cases h

/-- What a step does to the two sides. -/
inductive Move (c : State) : State → Prop where
  | send {op : Op} {todo : List Op} {ev : ScpUpload.Event} {pieces : List Bytes}
      {msgs : List (Option ChannelMsg)} (ht : c.src.todo = op :: todo) (hev : op.event = some ev)
      (hd : deliver op pieces = some msgs) :
      Move c { c with src := { c.src with todo, log := c.src.log ++ [ev] }, toSink := c.toSink ++ msgs }
  | recv {todo : List Op} {ack : Bytes} {src : ScpUpload.State} (ht : c.src.todo = .recvResponse :: todo)
      (hack : (acks c.snk.log)[c.read]? = some ack)
      (hs : ScpUpload.step c.src (.msg (packet ack)) = some src) :
      Move c { c with src, read := c.read + 1 }
  | sink {msg : Option ChannelMsg} {msgs : List (Option ChannelMsg)} {snk : Scp.State}
      (hto : c.toSink = msg :: msgs) (hs : Scp.step noFailure c.snk msg = some snk) :
      Move c { c with snk, toSink := msgs }

theorem move_of_step {c c' : State} {l : Label} (h : step c l = some c') : Move c c' := by
  cases l with
  | send pieces =>
    simp only [step] at h
    split at h
    · cases h
    · rename_i op todo ht
      simp only [Option.bind_eq_bind, Option.bind_eq_some_iff, Option.pure_def, Option.some.injEq] at h
      obtain ⟨msgs, hd, src, hs, rfl⟩ := h
      obtain ⟨ev, hev⟩ : ∃ ev, op.event = some ev := by
        cases op with
        | recvResponse => cases hd
        | exec cmd => exact ⟨_, rfl⟩
        | send x => exact ⟨_, rfl⟩
        | eof => exact ⟨_, rfl⟩
      rw [step_did ht hev] at hs
      cases hs
      exact .send ht hev hd
  | recv =>
    simp only [step, Option.bind_eq_bind, Option.bind_eq_some_iff, Option.pure_def, Option.some.injEq] at h
    obtain ⟨ack, hack, src, hs, rfl⟩ := h
    obtain ⟨todo, ht⟩ := waits_of_step hs
    exact .recv ht hack hs
  | sink =>
    simp only [step] at h
    split at h
    · cases h
    · rename_i msg msgs hto
      simp only [Option.bind_eq_bind, Option.bind_eq_some_iff, Option.pure_def, Option.some.injEq] at h
      obtain ⟨snk, hs, rfl⟩ := h
      exact .sink hto hs

/-- The acknowledgement that the source reads is the one it waits for. -/
theorem Inv.ack_eq {Q : Scp.State → Prop} {c : State} (h : Inv Q c) {todo : List Op} {ack : Bytes}
    (ht : c.src.todo = .recvResponse :: todo) (hack : (acks c.snk.log)[c.read]? = some ack) : ack = [0] := by
  obtain ⟨snk, hexec, hgood⟩ := h.good
  rw [ht] at hgood
  obtain ⟨more, hmore⟩ := acks_grow hexec
  have hlater : (acks snk.log)[c.read]? = some ack := by
    rw [← hmore, List.getElem?_append_left (List.getElem?_eq_some_iff.mp hack).1, hack]
  exact Option.some.inj (hlater.symm.trans hgood.1)

theorem inv_move {Q : Scp.State → Prop} {c c' : State} (h : Inv Q c) (hm : Move c c') : Inv Q c' := by
  cases hm with
  | send ht _ hd => exact inv_send h ht hd rfl rfl
  | recv ht hack hs =>
    obtain rfl := h.ack_eq ht hack
    rw [step_zero ht] at hs
    cases hs
    obtain ⟨snk, hexec, hgood⟩ := h.good
    rw [ht] at hgood
    exact ⟨⟨snk, hexec, hgood.2.2⟩, h.ok⟩
  | sink hto hs =>
    obtain ⟨snk, hexec, hgood⟩ := h.good
    rw [hto, LTS.exec, hs, Option.bind_some] at hexec
    exact ⟨⟨snk, hexec, hgood⟩, h.ok⟩

theorem Inv.outstanding_le {Q : Scp.State → Prop} {c : State} (h : Inv Q c) : c.outstanding.length ≤ 1 := by
  obtain ⟨snk, hexec, hgood⟩ := h.good
  have hle := hgood.length_le
  have hpre := (acks_grow hexec).length_le
  rw [State.outstanding, List.length_drop]
  omega

/-! ## Every run ends -/

/-- How much an operation can still cause: itself, and the messages it arrives in. -/
def opWork : Op → Nat
  | .exec _ => 1
  | .recvResponse => 1
  | .send (.fileData _ data) => 1 + data.length
  | .send _ => 2
  | .eof => 2

def scriptWork : List Op → Nat
  | [] => 0
  | op :: ops => opWork op + scriptWork ops

/-- A bound on the steps still possible. -/
def State.work (c : State) : Nat := scriptWork c.src.todo + c.toSink.length

theorem length_le_flatten {pieces : List Bytes} (h : [] ∉ pieces) : pieces.length ≤ pieces.flatten.length := by
  induction pieces with
  | nil => simp
  | cons piece pieces ih =>
    have hpos := List.length_pos_iff.mpr (fun e : piece = [] => h (by simp [e]))
    have := ih fun hm => h (List.mem_cons_of_mem _ hm)
    rw [List.flatten_cons, List.length_append, List.length_cons]
    omega

theorem deliver_lt {op : Op} {pieces : List Bytes} {msgs : List (Option ChannelMsg)}
    (h : deliver op pieces = some msgs) : msgs.length < opWork op := by
  cases op with
  | exec cmd => cases h; exact Nat.one_pos
  | recvResponse => cases h
  | eof => cases h; exact Nat.one_lt_two
  | send x =>
    cases x with
    | fileData path data =>
      simp only [deliver, Option.ite_none_right_eq_some, Option.some.injEq] at h
      obtain ⟨⟨hflat, hne⟩, rfl⟩ := h
      have := length_le_flatten hne
      rw [hflat] at this
      rw [opWork, List.length_map]
      omega
    | _ => cases h; exact Nat.one_lt_two

theorem work_move {Q : Scp.State → Prop} {c c' : State} (h : Inv Q c) (hm : Move c c') : c'.work < c.work := by
  cases hm with
  | send ht hev hd =>
    have := deliver_lt hd
    simp only [State.work, ht, scriptWork, List.length_append]
    omega
  | recv ht hack hs =>
    obtain rfl := h.ack_eq ht hack
    rw [step_zero ht] at hs
    cases hs
    simp only [State.work, ht, scriptWork, opWork]
    omega
  | sink hto hs =>
    simp only [State.work, hto, List.length_cons]
    omega

theorem deliverable {op : Op} (h : op ≠ .recvResponse) :
    (∃ pieces msgs, deliver op pieces = some msgs) ∧ ∃ ev, op.event = some ev := by
  cases op with
  | recvResponse => exact absurd rfl h
  | exec cmd => exact ⟨⟨[], _, rfl⟩, _, rfl⟩
  | eof => exact ⟨⟨[], _, rfl⟩, _, rfl⟩
  | send x =>
    refine ⟨?_, _, rfl⟩
    cases x with
    | fileData path data =>
      by_cases hd : data = []
      · exact ⟨[], _, if_pos (by simp [hd])⟩
      · exact ⟨[data], _, if_pos (by simp [eq_comm, hd])⟩
    | _ => exact ⟨[], _, rfl⟩

/-- A run that cannot go on is complete: nobody waits for the other. -/
theorem done_of_stuck {Q : Scp.State → Prop} {c : State} (h : Inv Q c)
    (hstuck : ∀ l c', step c l ≠ some c') :
    c.src.todo = [] ∧ c.toSink = [] ∧ c.outstanding = [] ∧ Q c.snk := by
  obtain ⟨snk, hexec, hgood⟩ := h.good
  cases hto : c.toSink with
  | cons msg msgs =>
    rw [hto] at hexec
    obtain ⟨snk', hs, _⟩ := Option.bind_eq_some_iff.mp hexec
    exact absurd (by simp [step, hto, hs]) (hstuck .sink { c with snk := snk', toSink := msgs })
  | nil =>
    rw [hto] at hexec
    cases hexec
    cases ht : c.src.todo with
    | nil =>
      rw [ht] at hgood
      exact ⟨rfl, rfl, List.drop_eq_nil_of_le hgood.2.le, hgood.1⟩
    | cons op todo =>
      rw [ht] at hgood
      by_cases hop : op = .recvResponse
      · subst hop
        exact absurd (by simp [step, hgood.1, step_zero ht]; rfl) (hstuck .recv _)
      · obtain ⟨⟨pieces, msgs, hd⟩, ev, hev⟩ := deliverable hop
        exact absurd (by simp [step, ht, hd, step_did ht hev]; rfl) (hstuck (.send pieces) _)

end Wstunnel.L4.ScpTransfer
