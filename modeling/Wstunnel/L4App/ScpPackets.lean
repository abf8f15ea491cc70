import Wstunnel.L4App.Scp

/-!
# `scp_download` and the cutting of its input

The byte stream of an SCP source reaches `scp_download` as channel messages,
and the transport decides where one ends. The header loop takes each message
for one record: it parses whatever the message holds, and `buf.clear()` drops
what follows the record in the same message.

**Third-party code.** SSH promises the bytes of a channel in order and says nothing
about where a message of `russh` ends. A cutting is therefore any list of messages
with the bytes of the stream. The file system is that of `Scp`.

**Results.**
* `receive_ended`: a download whose input ends returns, however it was cut.
* `cutIndependent_iff`: the outcome is the same for every cutting exactly for
  streams of at most one byte and for streams of which no part can pass as a
  record. So it never is for a stream that transfers something.
* `splitHeader_fails`: one file, with its header cut in the middle.
-/
namespace Wstunnel.L4.Scp

/-! ## Outcomes -/

/-- The files created so far with what was written to them, newest first. -/
def recordFile (files : List (UnixPath.Path × Bytes)) : Effect → List (UnixPath.Path × Bytes)
  | .createFile dest => (dest, []) :: files
  | .writeAll bytes => match files with
    | (dest, content) :: older => (dest, content ++ bytes) :: older
    | [] => []
  | _ => files

def files (log : List Effect) : List (UnixPath.Path × Bytes) := log.foldl recordFile []

def Effect.sent : Effect → Option Bytes
  | .send bytes => some bytes
  | _ => none

/-- What was sent on the channel. -/
def acks (log : List Effect) : List Bytes := log.filterMap Effect.sent

theorem acks_append (log log' : List Effect) : acks (log ++ log') = acks log ++ acks log' :=
  List.filterMap_append

structure Outcome where
  files : List (UnixPath.Path × Bytes)
  acks : List Bytes
  ok : Bool
  deriving DecidableEq, Repr

def State.outcome (s : State) : Outcome where
  files := files s.log
  acks := acks s.log
  ok := s.phase = .finished

/-- The state when the function returns, or when there are no more messages. -/
def receive (io : Io) (s : State) : List (Option ChannelMsg) → State
  | [] => s
  | msg :: msgs => match step io s msg with
    | some s' => receive io s' msgs
    | none => s

/-- The pieces as messages, `Eof`, and the closed channel after it. -/
def messages (pieces : List Bytes) : List (Option ChannelMsg) :=
  pieces.map (fun bytes => some (.data bytes)) ++ [some .eof, none]

def State.ended (s : State) : Prop :=
  match s.phase with
  | .finished | .failed _ => True
  | _ => False

/-- However `stream` is cut, the outcome is the same. -/
def CutIndependent (stream : Bytes) : Prop :=
  ∀ (io : Io) (dest : UnixPath.Path) (recursive : Bool) (remote : String) (dirs : List UnixPath.Comps)
    (pieces₁ pieces₂ : List Bytes), pieces₁.flatten = stream → pieces₂.flatten = stream →
    (receive io (start dest recursive remote dirs) (messages pieces₁)).outcome =
      (receive io (start dest recursive remote dirs) (messages pieces₂)).outcome

/-- The header loop goes on after a message with these bytes. -/
def accepts (bytes : Bytes) : Bool :=
  match bytes with
  | [] => false
  | b :: _ => if b = 67 ∨ b = 68 then (parseCHeader bytes).isOk else b = 69 ∨ b = 1

/-! ## The log only grows -/

section Log

variable {io : Io} {s : State} {log : List Effect}

theorem perform_log {e : Effect} {next : State → State} (h : log <+: s.log)
    (hn : ∀ t : State, log <+: t.log → log <+: (next t).log) :
    log <+: (s.perform io e next).log := by
  have h' : log <+: s.log ++ [e] := h.trans (List.prefix_append _ _)
  unfold State.perform
  dsimp only
  split
  · exact hn { s with log := s.log ++ [e] } h'
  · exact h'

theorem endFile_log (h : log <+: s.log) : log <+: (endFile io s).log := by
  unfold endFile
  exact perform_log h fun _ h => h

theorem afterBody_log (h : log <+: s.log) : log <+: (afterBody io s).log := by
  unfold afterBody
  refine perform_log h fun t h => ?_
  split
  · exact h
  · exact endFile_log h

theorem startFile_log (h : log <+: s.log) (dest : UnixPath.Path) (size : Nat) :
    log <+: (startFile io s dest size).log := by
  unfold startFile
  split
  · exact h
  · refine perform_log h fun t h => ?_
    split
    · exact afterBody_log h
    · exact h

theorem onBody_log (h : log <+: s.log) (remaining : Nat) (bytes : Bytes) :
    log <+: (onBody io s remaining bytes).log := by
  unfold onBody
  refine perform_log h fun t h => ?_
  dsimp only
  split
  · exact afterBody_log h
  · exact h

theorem enterDir_log (h : log <+: s.log) (name : Bytes) : log <+: (enterDir io s name).log := by
  unfold enterDir
  refine perform_log h fun t h => ?_
  exact perform_log h fun _ h => h

@[simp] theorem leaveDir_log : (leaveDir s).log = s.log := by
  unfold leaveDir
  split <;> rfl

theorem onHeader_log (h : log <+: s.log) : log <+: (onHeader io s).log := by
  unfold onHeader
  split
  · exact h
  split
  · split
    · exact h
    · exact perform_log h fun _ h => startFile_log h _ _
  split
  · split
    · exact h
    · exact enterDir_log (s := { s with buf := [] }) h _
  split
  · exact perform_log (by rwa [leaveDir_log]) fun _ h => h
  split
  · exact perform_log h fun _ h => h
  split <;> exact h

theorem onEnd_log (h : log <+: s.log) : log <+: (onEnd io s).log := by
  unfold onEnd
  split
  · exact perform_log h fun _ h => h
  · exact h
  · exact endFile_log h
  · exact h
  · exact h

theorem step_log {s' : State} {msg : Option ChannelMsg} (h : log <+: s.log)
    (hs : step io s msg = some s') : log <+: s'.log := by
  have hdata (bytes : Bytes) : log <+: (onData io s bytes).log := by
    unfold onData
    split
    · exact onHeader_log h
    · exact onBody_log h _ bytes
    · exact endFile_log h
    · exact h
    · exact h
  unfold step at hs
  split at hs
  · cases hs
  · cases hs
  · split at hs <;> cases hs
    · exact hdata _
    · exact h
    · exact onEnd_log h
    · exact onEnd_log h
    · exact onEnd_log h

theorem receive_log {msgs : List (Option ChannelMsg)} (h : log <+: s.log) :
    log <+: (receive io s msgs).log := by
  induction msgs generalizing s with
  | nil => exact h
  | cons msg msgs ih =>
    unfold receive
    split
    · rename_i s' hs
      exact ih (step_log h hs)
    · exact h

end Log

/-! ## The input ends -/

section Ends

variable {io : Io} {s : State}

theorem receive_of_ended (h : s.ended) (msgs : List (Option ChannelMsg)) : receive io s msgs = s := by
  cases msgs with
  | nil => rfl
  | cons msg msgs =>
    have hs : step io s msg = none := by
      unfold step
      unfold State.ended at h
      split <;> simp_all
    rw [receive, hs]

theorem fail_ended (err : ScpError) : (s.fail err).ended := trivial

theorem perform_ended {e : Effect} {next : State → State} (hn : ∀ t : State, (next t).ended) :
    (s.perform io e next).ended := by
  unfold State.perform
  dsimp only
  split
  · exact hn _
  · exact fail_ended _

theorem onEnd_ended (h : s.phase = .header) : (onEnd io s).ended := by
  unfold onEnd
  rw [h]
  exact perform_ended fun _ => trivial

/-- The status byte leads back to the header loop. -/
theorem endFile_phase : (endFile io s).phase = .header ∨ (endFile io s).ended := by
  unfold endFile State.perform
  dsimp only
  split
  · exact .inl rfl
  · exact .inr (fail_ended _)

theorem receive_end (h : s.phase = .header ∨ s.ended) : (receive io s [none]).ended := by
  rcases h with h | h
  · have hs : step io s none = some (onEnd io s) := by simp [step, h]
    rw [receive, hs]
    exact onEnd_ended h
  · rwa [receive_of_ended h]

/-- Two ends in a row are enough: the first may be read for a status byte. -/
theorem receive_eof : (receive io s [some .eof, none]).ended := by
  have hend (hs : ¬ s.ended) : receive io s [some .eof, none] = receive io (onEnd io s) [none] := by
    have : step io s (some .eof) = some (onEnd io s) := by
      unfold step
      unfold State.ended at hs
      split <;> simp_all
    rw [receive, this]
  by_cases hs : s.ended
  · rwa [receive_of_ended hs]
  rw [hend hs]
  refine receive_end ?_
  cases hph : s.phase with
  | header => exact .inr (onEnd_ended hph)
  | body remaining => exact .inr (by unfold onEnd; rw [hph]; exact fail_ended _)
  | trailer =>
    have : onEnd io s = endFile io s := by unfold onEnd; rw [hph]
    rw [this]
    exact endFile_phase
  | finished => exact absurd (by unfold State.ended; rw [hph]; trivial) hs
  | failed err => exact absurd (by unfold State.ended; rw [hph]; trivial) hs

/-- **A download whose input ends returns**, however the input is cut. -/
theorem receive_ended (pieces : List Bytes) : (receive io s (messages pieces)).ended := by
  unfold messages
  induction pieces generalizing s with
  | nil => exact receive_eof
  | cons bytes pieces ih =>
    rw [List.map_cons, List.cons_append, receive]
    split
    · exact ih
    · rename_i hs
      unfold step at hs
      unfold State.ended
      split at hs <;> simp_all

end Ends

/-! ## Messages in the header loop -/

section Header

variable {io : Io} {s : State}

/-- Where the header loop waits. -/
structure AtHeader (s : State) : Prop where
  phase : s.phase = .header
  buf : s.buf = []

theorem receive_data (h : AtHeader s) (bytes : Bytes) (msgs : List (Option ChannelMsg)) :
    receive io s (some (.data bytes) :: msgs) = receive io (onHeader io { s with buf := bytes }) msgs := by
  have hs : step io s (some (.data bytes)) = some (onHeader io { s with buf := bytes }) := by
    simp [step, onData, h.phase, h.buf]
  rw [receive, hs]

theorem receive_empty (h : AtHeader s) (msgs : List (Option ChannelMsg)) :
    receive io s (some (.data []) :: msgs) = receive io s msgs := by
  rw [receive_data h]
  have hs : { s with buf := [] } = s := by rw [← h.buf]
  rw [hs]
  simp [onHeader, h.buf]

/-- Empty messages pass without effect, so a stream begins with a non-empty one. -/
theorem receive_first (io : Io) (h : AtHeader s) {pieces : List Bytes} {stream : Bytes} (hne : stream ≠ [])
    (hp : pieces.flatten = stream) :
    ∃ bytes rest, bytes ≠ [] ∧ stream = bytes ++ rest.flatten ∧
      receive io s (messages pieces) = receive io (onHeader io { s with buf := bytes }) (messages rest) := by
  induction pieces with
  | nil => exact absurd hp.symm hne
  | cons bytes pieces ih =>
    by_cases hb : bytes = []
    · subst hb
      obtain ⟨bytes, rest, hbytes, hs, hr⟩ := ih (by simpa using hp)
      exact ⟨bytes, rest, hbytes, hs, (receive_empty h _).trans hr⟩
    · exact ⟨bytes, pieces, hb, by simpa using hp.symm, receive_data h _ _⟩

/-- A message that is no record ends the function without an effect. -/
theorem onHeader_reject (io : Io) (s : State) {bytes : Bytes} (hne : bytes ≠ []) (ha : accepts bytes = false) :
    ∃ err, onHeader io { s with buf := bytes } = { s with buf := bytes }.fail err := by
  obtain ⟨b, rest, rfl⟩ := List.exists_cons_of_ne_nil hne
  have hparse (hb : b = 67 ∨ b = 68) : ∃ err, parseCHeader (b :: rest) = .error err := by
    rw [accepts, if_pos hb] at ha
    cases hp : parseCHeader (b :: rest) with
    | error err => exact ⟨err, rfl⟩
    | ok record => simp [hp, Except.isOk, Except.toBool] at ha
  have hother (hb : ¬ (b = 67 ∨ b = 68)) : b ≠ 69 ∧ b ≠ 1 := by
    rw [accepts, if_neg hb] at ha
    simpa using ha
  unfold onHeader
  dsimp only
  by_cases hC : b = 67
  · obtain ⟨err, he⟩ := hparse (.inl hC)
    exact ⟨err, by rw [if_pos hC, he]⟩
  by_cases hD : b = 68
  · obtain ⟨err, he⟩ := hparse (.inr hD)
    exact ⟨err, by rw [if_neg hC, if_pos hD, he]⟩
  obtain ⟨hE, hW⟩ := hother (by simp [hC, hD])
  rw [if_neg hC, if_neg hD, if_neg hE, if_neg hW]
  by_cases hF : b = 2
  · exact ⟨_, if_pos hF⟩
  · exact ⟨_, if_neg hF⟩

/-- `E` and a warning: whatever else the message holds is dropped. -/
theorem onHeader_control {b : UInt8} (hb : b = 69 ∨ b = 1) (hph : s.phase = .header) :
    ∃ t, AtHeader t ∧ t.log = s.log ∧ ∀ (io : Io) (rest : Bytes),
      onHeader io { s with buf := b :: rest } = t.perform io (.send [0]) id := by
  rcases hb with rfl | rfl
  · refine ⟨leaveDir { s with buf := [] }, ?_, leaveDir_log, fun _ _ => rfl⟩
    unfold leaveDir
    split <;> exact ⟨hph, rfl⟩
  · exact ⟨{ s with buf := [] }, ⟨hph, rfl⟩, rfl, fun _ _ => rfl⟩

theorem perform_atHeader {t : State} (ht : AtHeader t) (e : Effect) :
    AtHeader (t.perform io e id) ∨ (t.perform io e id).ended := by
  unfold State.perform
  dsimp only
  split
  · exact .inl ⟨ht.phase, ht.buf⟩
  · exact .inr (fail_ended _)

theorem perform_noFailure (e : Effect) (next : State → State) :
    s.perform noFailure e next = next { s with log := s.log ++ [e] } := rfl

/-- A record is acknowledged. -/
theorem onHeader_accept (ha : accepts s.buf) :
    ∃ es, Effect.send [0] ∈ es ∧ s.log ++ es <+: (onHeader noFailure s).log := by
  unfold accepts at ha
  unfold onHeader
  split at ha
  · simp at ha
  rename_i b rest hbuf
  have hparse (hb : b = 67 ∨ b = 68) : ∃ size name, parseCHeader s.buf = .ok (size, name) := by
    rw [if_pos hb] at ha
    cases hp : parseCHeader s.buf with
    | error err => simp [hp, Except.isOk, Except.toBool] at ha
    | ok record => exact ⟨record.1, record.2, rfl⟩
  rw [hbuf] at hparse
  simp only [hbuf]
  by_cases hC : b = 67
  · obtain ⟨size, name, hp⟩ := hparse (.inl hC)
    rw [if_pos hC, hp]
    refine ⟨[.send [0]], by simp, ?_⟩
    exact startFile_log (s := { s with buf := [], log := s.log ++ [.send [0]] }) List.prefix_rfl _ _
  by_cases hD : b = 68
  · obtain ⟨size, name, hp⟩ := hparse (.inr hD)
    rw [if_neg hC, if_pos hD, hp]
    refine ⟨[.createDirAll (UnixPath.join s.top name) (missing s.dirs (UnixPath.join s.top name)), .send [0]], by simp, ?_⟩
    simp only [enterDir, perform_noFailure, List.append_assoc, List.singleton_append, id_eq]
    exact List.prefix_rfl
  rw [if_neg (by simp [hC, hD])] at ha
  refine ⟨[.send [0]], by simp, ?_⟩
  rw [if_neg hC, if_neg hD]
  by_cases hE : b = 69
  · simp [hE, perform_noFailure]
  · have hW : b = 1 := by simpa [hE] using ha
    simp [hW, perform_noFailure]

theorem acks_accept (ha : accepts s.buf) (msgs : List (Option ChannelMsg)) :
    (acks s.log).length < (acks (receive noFailure (onHeader noFailure s) msgs).log).length := by
  obtain ⟨es, hmem, hes⟩ := onHeader_accept ha
  have hpos : 0 < (acks es).length :=
    List.length_pos_of_mem (List.mem_filterMap.mpr ⟨_, hmem, rfl⟩)
  calc (acks s.log).length
    _ < (acks s.log).length + (acks es).length := by omega
    _ = (acks (s.log ++ es)).length := by rw [acks_append, List.length_append]
    _ ≤ _ := ((receive_log hes).filterMap Effect.sent).length_le

end Header

/-! ## Which streams can be cut anywhere -/

section Cut

variable {io : Io} {s : State} {stream : Bytes}

theorem receive_silent (h : AtHeader s ∨ s.ended) {pieces : List Bytes} (hp : pieces.flatten = []) :
    receive io s (messages pieces) = receive io s (messages []) := by
  rcases h with h | h
  · induction pieces with
    | nil => rfl
    | cons bytes pieces ih =>
      obtain ⟨rfl, hp⟩ := List.append_eq_nil_iff.mp hp
      exact (receive_empty h _).trans (ih hp)
  · rw [receive_of_ended h, receive_of_ended h]

theorem outcome_reject (h : AtHeader s) (hne : stream ≠ []) {pieces : List Bytes}
    (hr : ∀ bytes, bytes ≠ [] → bytes <+: stream → accepts bytes = false)
    (hp : pieces.flatten = stream) :
    (receive io s (messages pieces)).outcome = ⟨files s.log, acks s.log, false⟩ := by
  obtain ⟨bytes, rest, hb, rfl, he⟩ := receive_first io h hne hp
  obtain ⟨err, hf⟩ := onHeader_reject io s hb (hr bytes hb (List.prefix_append _ _))
  rw [he, hf, receive_of_ended (fail_ended err)]
  rfl

theorem start_atHeader (dest : UnixPath.Path) (recursive : Bool) (remote : String)
    (dirs : List UnixPath.Comps) : AtHeader (start dest recursive remote dirs) := ⟨rfl, rfl⟩

/-- A stream that never passes for a record fails at once, wherever it is cut. -/
theorem cutIndependent_of_reject
    (hr : ∀ bytes, bytes ≠ [] → bytes <+: stream → accepts bytes = false) : CutIndependent stream := by
  intro io dest recursive remote dirs pieces₁ pieces₂ h₁ h₂
  have h := start_atHeader dest recursive remote dirs
  by_cases hne : stream = []
  · rw [receive_silent (.inl h) (h₁.trans hne), receive_silent (.inl h) (h₂.trans hne)]
  · rw [outcome_reject h hne hr h₁, outcome_reject h hne hr h₂]

/-- One byte cannot be cut, and the empty messages around it do nothing. -/
theorem cutIndependent_of_short (hl : stream.length ≤ 1) : CutIndependent stream := by
  by_cases hr : ∀ bytes, bytes ≠ [] → bytes <+: stream → accepts bytes = false
  · exact cutIndependent_of_reject hr
  obtain ⟨bytes, hb, hpre, ha⟩ : ∃ bytes, bytes ≠ [] ∧ bytes <+: stream ∧ accepts bytes = true := by
    simpa using hr
  have hpos := List.length_pos_iff.mpr hb
  obtain rfl : bytes = stream := hpre.eq_of_length_le (by omega)
  obtain ⟨b, rfl⟩ : ∃ b, bytes = [b] := List.length_eq_one_iff.mp (by omega)
  have hcontrol : b = 69 ∨ b = 1 := by
    by_cases hb : b = 67 ∨ b = 68
    · rcases hb with rfl | rfl <;> exact absurd ha (by decide)
    · simpa [accepts, hb] using ha
  intro io dest recursive remote dirs pieces₁ pieces₂ h₁ h₂
  have h := start_atHeader dest recursive remote dirs
  have hone {pieces : List Bytes} (hp : pieces.flatten = [b]) :
      receive io (start dest recursive remote dirs) (messages pieces) =
        receive io (onHeader io { start dest recursive remote dirs with buf := [b] }) (messages []) := by
    obtain ⟨bytes, rest, hb, hs, he⟩ := receive_first io h (by simp) hp
    obtain ⟨c, cs, rfl⟩ := List.exists_cons_of_ne_nil hb
    obtain ⟨rfl, hnil⟩ := List.cons.inj hs
    obtain ⟨rfl, hrest⟩ := List.append_eq_nil_iff.mp hnil.symm
    obtain ⟨t, ht, -, hc⟩ := onHeader_control hcontrol h.phase
    rw [he, hc]
    exact receive_silent (perform_atHeader ht _) hrest
  rw [hone h₁, hone h₂]

theorem head_of_accepts {bytes : Bytes} (ha : accepts bytes = true) :
    ∃ b rest, bytes = b :: rest ∧ (b = 67 ∨ b = 68 ∨ b = 69 ∨ b = 1) := by
  cases bytes with
  | nil => cases ha
  | cons b rest =>
    refine ⟨b, rest, rfl, ?_⟩
    by_cases hb : b = 67 ∨ b = 68
    · exact hb.imp_right .inl
    · exact .inr (.inr (by simpa [accepts, hb] using ha))

theorem receive_eof_atHeader (h : AtHeader s) :
    receive noFailure s (messages []) = { s with log := s.log ++ [.sendEof], phase := .finished } := by
  have hs : step noFailure s (some .eof) =
      some { s with log := s.log ++ [.sendEof], phase := .finished } := by
    simp [step, h.phase, onEnd, perform_noFailure]
  rw [messages, List.map_nil, List.nil_append, receive, hs]
  exact receive_of_ended (by exact trivial) _

/-- The byte that ends a directory, or a warning, with more behind it: in a
message of its own it leaves the rest to be read as the next record. -/
theorem control_not_cutIndependent {b : UInt8} {tail : Bytes} (hb : b = 69 ∨ b = 1) (ht : tail ≠ []) :
    ¬ CutIndependent (b :: tail) := by
  intro hcut
  have hout := hcut noFailure [] false "" [] [[b], tail] [b :: tail] (by simp) (by simp)
  have h := start_atHeader [] false "" []
  obtain ⟨t, hth, -, hc⟩ := onHeader_control hb h.phase
  have hack : AtHeader { t with log := t.log ++ [.send [0]] } := ⟨hth.phase, hth.buf⟩
  have hcontrol (rest : Bytes) (pieces : List Bytes) :
      receive noFailure (start [] false "" []) (messages ((b :: rest) :: pieces)) =
        receive noFailure { t with log := t.log ++ [.send [0]] } (messages pieces) := by
    exact (receive_data h _ _).trans (by rw [hc]; rfl)
  have htail : receive noFailure { t with log := t.log ++ [.send [0]] } (messages [tail]) =
      receive noFailure (onHeader noFailure { t with log := t.log ++ [.send [0]], buf := tail })
        (messages []) := receive_data hack _ _
  rw [hcontrol, hcontrol, receive_eof_atHeader hack, htail] at hout
  cases ha : accepts tail with
  | true =>
    have hlt := acks_accept (s := { t with log := t.log ++ [.send [0]], buf := tail }) ha (messages [])
    have hacks := congrArg (fun o => o.acks.length) hout
    simp only [State.outcome] at hacks
    rw [hacks] at hlt
    simp [acks, Effect.sent] at hlt
  | false =>
    obtain ⟨err, hf⟩ := onHeader_reject noFailure { t with log := t.log ++ [.send [0]] } ht ha
    rw [hf, receive_of_ended (fail_ended err)] at hout
    have hok := congrArg Outcome.ok hout
    simp [State.outcome, State.fail] at hok

/-- A header that arrives whole is acknowledged, its first byte alone is refused. -/
theorem header_not_cutIndependent {b : UInt8} {rest : Bytes} (hb : b = 67 ∨ b = 68)
    (ha : accepts (b :: rest) = true) (more : Bytes) : ¬ CutIndependent (b :: rest ++ more) := by
  intro hcut
  have hout := hcut noFailure [] false "" [] [b :: rest, more] [[b], rest ++ more] (by simp) (by simp)
  have h := start_atHeader [] false "" []
  have hrej : accepts [b] = false := by rcases hb with rfl | rfl <;> decide
  obtain ⟨err, hf⟩ := onHeader_reject noFailure (start [] false "" []) (List.cons_ne_nil b []) hrej
  have hwhole : receive noFailure (start [] false "" []) (messages [b :: rest, more]) =
      receive noFailure (onHeader noFailure { start [] false "" [] with buf := b :: rest })
        (messages [more]) := receive_data h _ _
  have hcuts : receive noFailure (start [] false "" []) (messages [[b], rest ++ more]) =
      receive noFailure (onHeader noFailure { start [] false "" [] with buf := [b] })
        (messages [rest ++ more]) := receive_data h _ _
  rw [hwhole, hcuts, hf, receive_of_ended (fail_ended err)] at hout
  have hlt := acks_accept (s := { start [] false "" [] with buf := b :: rest }) ha (messages [more])
  have hacks := congrArg (fun o => o.acks.length) hout
  simp only [State.outcome, State.fail] at hacks
  dsimp only at hlt
  omega

theorem not_cutIndependent (hl : 1 < stream.length) {bytes : Bytes} (hpre : bytes <+: stream)
    (ha : accepts bytes = true) : ¬ CutIndependent stream := by
  obtain ⟨more, rfl⟩ := hpre
  obtain ⟨b, rest, rfl, hb⟩ := head_of_accepts ha
  by_cases hheader : b = 67 ∨ b = 68
  · exact header_not_cutIndependent hheader ha more
  · refine control_not_cutIndependent (by simp_all) ?_
    intro hnil
    simp [List.append_eq_nil_iff.mp hnil] at hl

end Cut

/-- **The outcome does not depend on the cutting** exactly for streams of at
most one byte and for those of which no non-empty initial part passes for a
record. -/
theorem cutIndependent_iff (stream : Bytes) : CutIndependent stream ↔
    stream.length ≤ 1 ∨ ∀ bytes, bytes ≠ [] → bytes <+: stream → accepts bytes = false := by
  refine ⟨fun h => ?_, fun h => h.elim cutIndependent_of_short cutIndependent_of_reject⟩
  by_cases hl : stream.length ≤ 1
  · exact .inl hl
  · refine .inr fun bytes _ hpre => ?_
    by_contra ha
    exact not_cutIndependent (by omega) hpre (by simpa using ha) h

/-- One empty file, its header in one message and cut in the middle. -/
theorem splitHeader_fails :
    (receive noFailure startHome (messages [ascii "C0644 0 notes\n", [0]])).outcome =
      ⟨[(ascii "/home/u/notes", [])], [[0], [0], [0]], true⟩ ∧
    (receive noFailure startHome (messages [ascii "C0644", ascii " 0 notes\n", [0]])).outcome =
      ⟨[], [[0]], false⟩ ∧
    ¬ CutIndependent (ascii "C0644 0 notes\n" ++ [0]) := by
  have hwhole : (receive noFailure startHome (messages [ascii "C0644 0 notes\n", [0]])).outcome =
      ⟨[(ascii "/home/u/notes", [])], [[0], [0], [0]], true⟩ := by decide
  have hsplit : (receive noFailure startHome
      (messages [ascii "C0644", ascii " 0 notes\n", [0]])).outcome = ⟨[], [[0]], false⟩ := by decide
  refine ⟨hwhole, hsplit, fun h => ?_⟩
  have := h noFailure (ascii "/home/u") false "notes" startHome.dirs
    [ascii "C0644 0 notes\n", [0]] [ascii "C0644", ascii " 0 notes\n", [0]] (by decide) (by decide)
  exact absurd (hwhole.symm.trans (this.trans hsplit)) (by decide)

end Wstunnel.L4.Scp
