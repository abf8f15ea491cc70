import Wstunnel.Core.Records
import Wstunnel.L4App.Scp
import Wstunnel.L4App.ScpRecords

/-!
# What `Ok` from `scp_download` says

A transfer is complete when the bytes received are a sequence of records:
`C` lines, each with the announced bytes and a zero status byte after it, `D`
lines and `E` lines, at least one of them a `C` or a `D`, with every `D`
closed (`Complete`). Warnings and errors are not part of it.

`scp_download` returns `Ok` as soon as the stream ends in the header loop,
and it never looks at what it takes for the status byte.

**Third-party code.** As in `Scp`: the messages of `russh` come from the remote side and
the file system may fail at any operation. What a source has to send is that of the
`scp` protocol, written down as `Complete`.

**Results.**
* `download_complete`: in every run whose messages are `orderly`, `Ok` means
  that the transfer is complete.
* `incompleteDownloads_ok`: an empty stream, an open directory, a status
  byte that says the file failed, no status byte at all, and a warning.
-/
namespace Wstunnel.L4.Scp

open UnixPath

/-! ## Complete transfers -/

inductive Item where
  | file
  | dir
  | endDir
  deriving DecidableEq, Repr

/-- One record off the front: a line up to its first newline and, for a file,
the data and the zero byte after it. -/
def readItem (bytes : Bytes) : Option (Item × Bytes) :=
  match Str.splitOnce [10] bytes with
  | none => none
  | some (line, rest) =>
    if line.head? = some 67 then match parseCHeader (line ++ [10]) with
      | .ok (size, _) => (ScpUpload.parseData size rest).map fun d => (.file, d.2)
      | .error _ => none
    else if line.head? = some 68 then match parseCHeader (line ++ [10]) with
      | .ok _ => some (.dir, rest)
      | .error _ => none
    else if line.head? = some 69 then some (.endDir, rest)
    else none

/-- The number of directories that are open after one more item; an `E` at
the root closes nothing. -/
def Item.depth (n : Nat) : Item → Nat
  | .file => n
  | .dir => n + 1
  | .endDir => n - 1

def openDirs (items : List Item) : Nat := items.foldl Item.depth 0

def Complete (bytes : Bytes) : Prop :=
  ∃ items, Records.readAll readItem bytes = some items ∧ (∃ item ∈ items, item ≠ .endDir) ∧
    openDirs items = 0

def complete (bytes : Bytes) : Bool :=
  (Records.readAll readItem bytes).any fun items =>
    items.any (fun item => item ≠ .endDir) && openDirs items = 0

theorem complete_iff {bytes : Bytes} : complete bytes = true ↔ Complete bytes := by
  simp only [complete, Complete, Option.any_eq_true, Bool.and_eq_true, List.any_eq_true,
    decide_eq_true_eq]

/-- The bytes that came with the messages. -/
def received : List (Option ChannelMsg) → Bytes
  | [] => []
  | some (.data bytes) :: msgs => bytes ++ received msgs
  | _ :: msgs => received msgs

theorem parseData_stable {size : Nat} {bytes data rest : Bytes} (more : Bytes)
    (h : ScpUpload.parseData size bytes = some (data, rest)) :
    ScpUpload.parseData size (bytes ++ more) = some (data, rest ++ more) := by
  simp only [ScpUpload.parseData, Option.ite_none_right_eq_some, Option.some.injEq,
    Prod.mk.injEq] at h
  obtain ⟨hz, rfl, rfl⟩ := h
  have hlt := (List.getElem?_eq_some_iff.mp hz).1
  rw [ScpUpload.parseData, List.getElem?_append_left hlt, if_pos hz,
    List.take_append_of_le_length (by omega), List.drop_append_of_le_length (by omega)]

theorem readItem_stable : Records.Stable readItem := by
  intro bytes item rest more h
  unfold readItem at h ⊢
  cases hline : Str.splitOnce [10] bytes with
  | none => rw [hline] at h; cases h
  | some p =>
    obtain ⟨line, tail⟩ := p
    obtain ⟨rfl, hno⟩ := Str.splitOnce_eq_some hline
    rw [hline] at h
    rw [List.append_assoc, List.cons_append, Str.splitOnce_append hno]
    dsimp only at h ⊢
    split
    · rename_i hC
      rw [if_pos hC] at h
      cases hp : parseCHeader (line ++ [10]) with
      | error e => rw [hp] at h; cases h
      | ok r =>
        rw [hp] at h
        obtain ⟨⟨data, rest'⟩, hd, he⟩ := Option.map_eq_some_iff.mp h
        cases he
        simp [parseData_stable more hd]
    · rename_i hC
      rw [if_neg hC] at h
      split
      · rename_i hD
        rw [if_pos hD] at h
        cases hp : parseCHeader (line ++ [10]) with
        | error e => rw [hp] at h; cases h
        | ok r => rw [hp] at h; cases h; rfl
      · rename_i hD
        rw [if_neg hD] at h
        split
        · rename_i hE
          rw [if_pos hE] at h
          cases h
          rfl
        · rename_i hE
          rw [if_neg hE] at h
          cases h

theorem readItem_dir {line : Bytes} {r : Nat × Bytes} (hno : 10 ∉ line) (hD : line.head? = some 68)
    (hp : parseCHeader (line ++ [10]) = .ok r) : readItem (line ++ [10]) = some (.dir, []) := by
  rw [readItem, Str.splitOnce_append hno]
  simp [hD, hp]

theorem readItem_endDir {line : Bytes} (hno : 10 ∉ line) (hE : line.head? = some 69) :
    readItem (line ++ [10]) = some (.endDir, []) := by
  rw [readItem, Str.splitOnce_append hno]
  simp [hE]

/-! ## The condition -/

/-- The `C` and `D` arms leave one of these in the log. -/
def Effect.isRecord : Effect → Bool
  | .createFile _ | .createDirAll _ _ => true
  | _ => false

/-- The message is one line, and nothing after its newline. -/
def isLine (bytes : Bytes) : Bool := Str.splitOnce [10] bytes = some (bytes.dropLast, [])

/-- The condition on a step: the header loop gets whole lines and no
warnings, nothing follows a file's data but its zero byte, the status byte
that is waited for is a zero, and the stream ends between records, after the
first one and with all directories closed. -/
def orderly (s : State) (msg : Option ChannelMsg) : Bool :=
  match s.phase, msg with
  | .header, some (.data bytes) => bytes = [] || (isLine bytes && bytes.head? ≠ some 1)
  | .body remaining, some (.data bytes) => bytes.drop remaining = [] || bytes.drop remaining = [0]
  | .trailer, some (.data bytes) => bytes = [0]
  | _, some .other => true
  | .header, _ => s.below = [] && s.log.any Effect.isRecord
  | .trailer, _ => false
  | _, _ => true

/-! ## Each step -/

/-- Between two records, with `n` directories open: what was received is a
sequence of items. -/
structure Between (n : Nat) (bytes : Bytes) (items : List Item) : Prop where
  read : Records.readAll readItem bytes = some items
  depth : openDirs items = n

/-- Behind a `C` line, with `data` of the announced bytes received. -/
def InFile (n : Nat) (bytes : Bytes) (size : Nat) (data : Bytes) : Prop :=
  ∃ before line items name, bytes = before ++ (line ++ 10 :: data) ∧ Between n before items ∧
    10 ∉ line ∧ line.head? = some 67 ∧ parseCHeader (line ++ [10]) = .ok (size, name)

/-- What the received bytes are at each point of the function. -/
def Progress (s : State) (bytes : Bytes) : Prop :=
  match s.phase with
  | .header => s.buf = [] ∧ ∃ items, Between s.below.length bytes items ∧
      (s.log.any Effect.isRecord = true → ∃ item ∈ items, item ≠ .endDir)
  | .body remaining => ∃ size data, InFile s.below.length bytes size data ∧
      data.length + remaining = size
  | .trailer => s.buf = [] ∧ ∃ data, InFile s.below.length bytes data.length data
  | .finished => Complete bytes
  | .failed _ => True

section Steps
variable {io : Io} {s : State} {bytes before more data : Bytes} {n size : Nat} {items : List Item}

theorem Between.concat {item : Item} (h : Between n before items)
    (hitem : readItem bytes = some (item, [])) (hne : bytes ≠ []) :
    Between (item.depth n) (before ++ bytes) (items ++ [item]) := by
  refine ⟨Records.readAll_concat readItem_stable h.read hitem hne, ?_⟩
  rw [openDirs, List.foldl_append, List.foldl_cons, List.foldl_nil, ← h.depth, openDirs]

theorem InFile.append (h : InFile n bytes size data) (more : Bytes) :
    InFile n (bytes ++ more) size (data ++ more) := by
  obtain ⟨before, line, items, name, rfl, hb, hno, hC, hp⟩ := h
  exact ⟨before, line, items, name, by simp, hb, hno, hC, hp⟩

/-- The zero byte completes the file. -/
theorem InFile.complete (h : InFile n bytes data.length data) :
    ∃ items, Between n (bytes ++ [0]) items ∧ ∃ item ∈ items, item ≠ .endDir := by
  obtain ⟨before, line, items, name, rfl, hb, hno, hC, hp⟩ := h
  have hitem : readItem (line ++ 10 :: data ++ [0]) = some (.file, []) := by
    rw [List.append_assoc, List.cons_append, readItem, Str.splitOnce_append hno]
    simp [hC, hp, ScpUpload.parseData_append rfl]
  refine ⟨items ++ [.file], ?_, .file, by simp, by simp⟩
  rw [List.append_assoc]
  exact hb.concat hitem (by simp)

/-- A failed operation leaves nothing to show. -/
theorem perform_progress {e : Effect} {next : State → State}
    (h : Progress (next { s with log := s.log ++ [e] }) bytes) :
    Progress (s.perform io e next) bytes := by
  unfold State.perform
  dsimp only
  split
  · exact h
  · trivial

/-- From the status byte on, when the received bytes end in it. -/
theorem endFile_progress (h : InFile s.below.length bytes data.length data) :
    Progress (endFile io s) (bytes ++ [0]) := by
  obtain ⟨items, hb, hrec⟩ := h.complete
  unfold endFile
  exact perform_progress ⟨rfl, items, hb, fun _ => hrec⟩

/-- After the data, with what followed it in the same message. -/
theorem afterBody_progress (h : InFile s.below.length before data.length data)
    (hbuf : s.buf = [] ∨ s.buf = [0]) (hall : bytes = before ++ s.buf) :
    Progress (afterBody io s) bytes := by
  subst hall
  unfold afterBody
  refine perform_progress ?_
  dsimp only
  split
  · rename_i hnil
    refine ⟨hnil, data, ?_⟩
    rwa [hnil, List.append_nil]
  · rename_i hne
    rw [hbuf.resolve_left hne]
    exact endFile_progress h

theorem startFile_progress (dest : Path) (h : InFile s.below.length bytes size [])
    (hbuf : s.buf = []) : Progress (startFile io s dest size) bytes := by
  unfold startFile
  split
  · trivial
  · refine perform_progress ?_
    split
    · rename_i hz
      rw [hz] at h
      refine afterBody_progress h (.inl hbuf) ?_
      rw [hbuf, List.append_nil]
    · exact ⟨size, [], h, by simp⟩

theorem onBody_progress {remaining : Nat} (h : InFile s.below.length before size data)
    (hlen : data.length + remaining = size)
    (ho : bytes.drop remaining = [] ∨ bytes.drop remaining = [0]) :
    Progress (onBody io s remaining bytes) (before ++ bytes) := by
  unfold onBody
  refine perform_progress ?_
  dsimp only
  by_cases hlt : bytes.length < remaining
  · -- all of it is data, and some is still missing
    rw [Nat.min_eq_right (by omega), if_neg (by omega)]
    refine ⟨size, data ++ bytes, h.append bytes, ?_⟩
    rw [List.length_append]
    omega
  · rw [Nat.min_eq_left (by omega), Nat.sub_self, if_pos rfl]
    have htake : (data ++ bytes.take remaining).length = size := by
      rw [List.length_append, List.length_take]
      omega
    have hfull := h.append (bytes.take remaining)
    rw [← htake] at hfull
    refine afterBody_progress hfull ho ?_
    rw [List.append_assoc, List.take_append_drop]

theorem header_progress (hph : s.phase = .header) (hbuf : s.buf = [])
    (hb : Between s.below.length bytes items)
    (hrec : s.log.any Effect.isRecord = true → ∃ item ∈ items, item ≠ .endDir) : Progress s bytes := by
  rw [Progress, hph]
  exact ⟨hbuf, items, hb, hrec⟩

theorem enterDir_progress (name : Bytes) (hph : s.phase = .header) (hbuf : s.buf = [])
    (hb : Between (s.below.length + 1) bytes (items ++ [.dir])) :
    Progress (enterDir io s name) bytes := by
  unfold enterDir
  refine perform_progress (perform_progress ?_)
  exact header_progress hph hbuf hb fun _ => ⟨.dir, by simp, by simp⟩

theorem leaveDir_progress (hph : s.phase = .header) (hbuf : s.buf = [])
    (hb : Between (s.below.length - 1) bytes items)
    (hrec : s.log.any Effect.isRecord = true → ∃ item ∈ items, item ≠ .endDir) :
    Progress ((leaveDir s).perform io (.send [0]) id) bytes := by
  have hlog : (s.log ++ [Effect.send [0]]).any Effect.isRecord = s.log.any Effect.isRecord := by
    simp [Effect.isRecord]
  refine perform_progress ?_
  unfold leaveDir
  split
  · rename_i d ds hbelow
    rw [hbelow] at hb
    exact header_progress hph hbuf hb fun h => hrec (hlog ▸ h)
  · rename_i hbelow
    rw [hbelow] at hb
    refine header_progress hph hbuf ?_ fun h => hrec (hlog ▸ h)
    rw [id, hbelow]
    exact hb

/-- One line in the header loop. -/
theorem onHeader_progress {line : Bytes} (hph : s.phase = .header)
    (hb : Between s.below.length before items)
    (hrec : s.log.any Effect.isRecord = true → ∃ item ∈ items, item ≠ .endDir)
    (hbuf : s.buf = line ++ [10]) (hno : 10 ∉ line) (hwarn : s.buf.head? ≠ some 1) :
    Progress (onHeader io s) (before ++ s.buf) := by
  have hhead (b : UInt8) (hb : b ≠ 10) (h : s.buf.head? = some b) : line.head? = some b := by
    rw [hbuf] at h
    cases line with
    | nil => exact absurd (Option.some.inj h).symm hb
    | cons c cs => exact h
  have hne : s.buf ≠ [] := by simp [hbuf]
  unfold onHeader
  split
  · rename_i hnil
    exact absurd hnil hne
  rename_i b rest hcons
  have hfirst : s.buf.head? = some b := by rw [hcons]; rfl
  split
  · rename_i hC
    subst hC
    split
    · trivial
    · rename_i size name hp
      refine perform_progress (startFile_progress _ ?_ rfl)
      exact ⟨before, line, items, name, by rw [hbuf], hb, hno, hhead 67 (by decide) hfirst, hbuf ▸ hp⟩
  split
  · rename_i hD
    subst hD
    split
    · trivial
    · rename_i size name hp
      have hitem : readItem s.buf = some (.dir, []) := by
        rw [hbuf] at hp ⊢
        exact readItem_dir hno (hhead 68 (by decide) hfirst) hp
      exact enterDir_progress name hph rfl (hb.concat hitem hne)
  split
  · rename_i hE
    subst hE
    have hitem : readItem s.buf = some (.endDir, []) := by
      rw [hbuf]
      exact readItem_endDir hno (hhead 69 (by decide) hfirst)
    refine leaveDir_progress hph rfl (hb.concat hitem hne) fun h => ?_
    obtain ⟨item, hi, hne⟩ := hrec h
    exact ⟨item, by simp [hi], hne⟩
  split
  · rename_i h1
    rw [hfirst, h1] at hwarn
    exact absurd rfl hwarn
  split <;> trivial

theorem isLine_eq (h : isLine bytes = true) : ∃ line, bytes = line ++ [10] ∧ 10 ∉ line := by
  obtain ⟨heq, hno⟩ := Str.splitOnce_eq_some (of_decide_eq_true h)
  exact ⟨bytes.dropLast, heq, hno⟩

theorem onData_progress (h : Progress s before) (ho : orderly s (some (.data bytes)) = true)
    (hrun : s.phase ≠ .finished) : Progress (onData io s bytes) (before ++ bytes) := by
  unfold onData
  split
  · rename_i hph
    simp only [Progress, hph] at h
    simp only [orderly, hph, Bool.or_eq_true, Bool.and_eq_true, decide_eq_true_eq] at ho
    obtain ⟨hbuf, items, hb, hrec⟩ := h
    rw [hbuf, List.nil_append]
    rcases ho with rfl | ⟨hline, hwarn⟩
    · rw [List.append_nil]
      exact header_progress hph rfl hb hrec
    · obtain ⟨line, heq, hno⟩ := isLine_eq hline
      exact onHeader_progress (s := { s with buf := bytes }) hph hb hrec heq hno hwarn
  · rename_i remaining hph
    simp only [Progress, hph] at h
    simp only [orderly, hph, Bool.or_eq_true, decide_eq_true_eq] at ho
    obtain ⟨size, data, hin, hlen⟩ := h
    exact onBody_progress hin hlen ho
  · rename_i hph
    simp only [Progress, hph] at h
    simp only [orderly, hph, decide_eq_true_eq] at ho
    obtain ⟨-, data, hin⟩ := h
    rw [ho]
    exact endFile_progress hin
  · rename_i hph
    exact absurd hph hrun
  · rename_i err hph
    rw [Progress, hph]
    trivial

/-- The end of the stream. -/
theorem onEnd_progress {msg : Option ChannelMsg} (h : Progress s before)
    (hmsg : msg = some .eof ∨ msg = some .close ∨ msg = none) (ho : orderly s msg = true) :
    Progress (onEnd io s) before := by
  unfold onEnd
  split
  · rename_i hph
    simp only [Progress, hph] at h
    have hend : s.below = [] ∧ s.log.any Effect.isRecord = true := by
      rcases hmsg with rfl | rfl | rfl <;> simpa [orderly, hph] using ho
    obtain ⟨-, items, hb, hrec⟩ := h
    refine perform_progress ⟨items, hb.read, hrec hend.2, ?_⟩
    rw [hb.depth, hend.1]
    rfl
  · trivial
  · rename_i hph
    rcases hmsg with rfl | rfl | rfl <;> simp [orderly, hph] at ho
  · exact h
  · exact h

theorem step_progress {s' : State} {msg : Option ChannelMsg} (h : Progress s before)
    (ho : orderly s msg = true) (hs : step io s msg = some s') :
    Progress s' (before ++ received [msg]) := by
  unfold step at hs
  split at hs
  · cases hs
  · cases hs
  · rename_i hrun _
    split at hs <;> cases hs
    · rw [received, received, List.append_nil]
      exact onData_progress h ho hrun
    · simpa [received] using h
    · simpa [received] using onEnd_progress h (.inl rfl) ho
    · simpa [received] using onEnd_progress h (.inr (.inl rfl)) ho
    · simpa [received] using onEnd_progress h (.inr (.inr rfl)) ho

theorem received_cons (msg : Option ChannelMsg) (msgs : List (Option ChannelMsg)) :
    received (msg :: msgs) = received [msg] ++ received msgs := by
  rcases msg with _ | (_ | _ | _ | _) <;> simp [received]

theorem run_progress {dest : Path} {recursive : Bool} {remote : String} {s' : State}
    {msgs : List (Option ChannelMsg)} (h : Progress s before)
    (hr : ((download io dest recursive remote).guard fun s msg => orderly s msg = true).Run s msgs s') :
    Progress s' (before ++ received msgs) := by
  induction hr generalizing before with
  | nil => simpa [received] using h
  | cons hs _ ih =>
    rw [received_cons, ← List.append_assoc]
    exact ih (step_progress h hs.2 hs.1)

end Steps

/-- **`Ok` means complete.** In every run of a download whose messages are
orderly, `scp_download` returns `Ok` only if the bytes received are a
complete transfer. -/
theorem download_complete (io : Io) (dest : Path) (recursive : Bool) (remote : String)
    (dirs : List Comps) (msgs : List (Option ChannelMsg)) (s : State)
    (hr : ((download io dest recursive remote).guard fun s msg => orderly s msg = true).Run
      (start dest recursive remote dirs) msgs s)
    (hok : s.phase = .finished) : Complete (received msgs) := by
  have hstart : Progress (start dest recursive remote dirs) [] :=
    ⟨rfl, [], ⟨rfl, rfl⟩, fun h => by cases h⟩
  have h := run_progress hstart hr
  rw [Progress, hok, List.nil_append] at h
  exact h

/-- A directory with one file. -/
def oneFileInDir : List (Option ChannelMsg) :=
  [recordMsg "D0755 0 d\n", recordMsg "C0644 2 a\n", recordMsg "hi", recordMsg "\x00",
    recordMsg "E\n", some .eof]

theorem download_complete_oneFileInDir : ∃ s,
    ((download noFailure (ascii "/home/u") false "notes").guard fun s msg => orderly s msg = true).Run
      startHome oneFileInDir s ∧ s.phase = .finished ∧ Complete (received oneFileInDir) := by
  obtain ⟨s, hs, hok⟩ : ∃ s, LTS.exec
      (fun s msg => if orderly s msg = true then step noFailure s msg else none) startHome
        oneFileInDir = some s ∧ s.phase = .finished := ⟨_, rfl, by decide⟩
  have hr : ((download noFailure (ascii "/home/u") false "notes").guard fun s msg =>
      orderly s msg = true).Run startHome oneFileInDir s := LTS.run_guard_ofFn hs
  exact ⟨s, hr, hok, download_complete _ _ _ _ _ _ s hr hok⟩

/-! ## Downloads that return `Ok` too early -/

/-- The download of these messages returns `Ok`, and the transfer is not
complete. -/
def OkTooEarly (msgs : List (Option ChannelMsg)) : Prop :=
  ∃ s, (download noFailure (ascii "/home/u") false "notes").Run startHome msgs s ∧
    s.phase = .finished ∧ ¬ Complete (received msgs)

theorem okTooEarly_of_exec {msgs : List (Option ChannelMsg)}
    (hok : (LTS.exec (step noFailure) startHome msgs).any (fun s => s.phase = .finished) = true)
    (hnot : complete (received msgs) = false) : OkTooEarly msgs := by
  obtain ⟨s, hs, hfin⟩ := (Option.any_eq_true _ _).mp hok
  refine ⟨s, LTS.run_ofFn.mpr hs, of_decide_eq_true hfin, fun h => ?_⟩
  rw [complete_iff.mpr h] at hnot
  cases hnot

/-- Nothing at all; a directory that is never closed; a file whose status
byte says that reading it failed; a file whose status byte never comes; and a
warning instead of a file. -/
theorem incompleteDownloads_ok :
    OkTooEarly [some .eof] ∧
    OkTooEarly [recordMsg "D0755 0 d\n", some .eof] ∧
    OkTooEarly [recordMsg "C0644 2 a\n", recordMsg "hi", recordMsg "\x01a: read error\n", some .eof] ∧
    OkTooEarly [recordMsg "C0644 2 a\n", recordMsg "hi", some .eof, none] ∧
    OkTooEarly [recordMsg "\x01a: no such file\n", some .eof] := by
  refine ⟨?_, ?_, ?_, ?_, ?_⟩ <;> exact okTooEarly_of_exec (by decide) (by decide)

end Wstunnel.L4.Scp
