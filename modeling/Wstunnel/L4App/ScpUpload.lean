import Wstunnel.Core.Trace
import Wstunnel.L4App.Scp

/-!
# `scp_upload`: records out, answers in

`scp_upload` walks a file or a directory, sends one record after another and
waits for the remote sink's answer to each. What it does between two waits
depends on the file system only, so the walk is given by what every call
answers (`Entries`) and is a list of channel operations (`scpUpload`). The
machine `step` carries the list out: any operation may fail, and every
message is chosen by the remote side.

**Third-party code.** What `std::fs` answers to a call is given by the walk: a name, a
size and a content are independent of each other, and any of them may fail to be
had. The order of `read_dir` is that of the list. Sending over `russh` may fail at
any operation, and what it receives are any messages.

**Results.**
* `follows_inductive`: in every run the channel sees the beginning of the
  script, and all of it unless the upload fails.
-/
namespace Wstunnel.L4.ScpUpload

open UnixPath
open Scp (Bytes ChannelMsg ascii)

/-! ## The walk -/

/-- What the calls about a file answer. Nothing ties the two together: the
file may change in between. -/
structure File where
  /-- `tokio::fs::metadata(path)`, as far as `meta.len()` -/
  metadata : Except String UInt64
  /-- `tokio::fs::read(path)` -/
  read : Except String Bytes

/-- The answers of `next_entry`, each entry with what the calls about it
answer: a `dir` is an entry for which `is_dir()` holds. -/
inductive Entries where
  | done
  | failed (err : String)
  | file (name : EntryName) (file : File) (rest : Entries)
  | dir (name : EntryName) (readDir : Except String Unit) (children : Entries) (rest : Entries)

/-- What the calls about the path to upload answer. -/
inductive Local where
  | file (file : File)
  | dir (readDir : Except String Unit) (entries : Entries)

inductive UploadError where
  /-- `exec`, `data` or `eof` on the channel -/
  | channel (err : String)
  /-- "scp error: ..." -/
  | remote (msg : Bytes)
  /-- "unexpected scp response byte: ..." -/
  | unexpectedByte (b : UInt8)
  /-- "channel closed unexpectedly" -/
  | closedUnexpectedly
  /-- "channel closed" -/
  | closed
  /-- "... is a directory (use --recursive)" -/
  | isDirectory (path : Path)
  /-- "cannot stat ..." -/
  | cannotStat (path : Path) (err : String)
  /-- "no file name: ..." -/
  | noFileName (path : Path)
  /-- "cannot read ..." -/
  | cannotRead (path : Path) (err : String)
  /-- "no directory name: ..." -/
  | noDirectoryName (path : Path)
  /-- "cannot read dir ..." -/
  | cannotReadDir (path : Path) (err : String)
  /-- `next_entry` -/
  | nextEntry (err : String)
  deriving DecidableEq, Repr

/-- What is sent, with the local path it is about. -/
inductive Sent where
  | fileHeader (path : Path) (size : UInt64) (name : Bytes)
  | fileData (path : Path) (data : Bytes)
  | fileEnd (path : Path)
  | dirHeader (path : Path) (name : Bytes)
  | endDir (path : Path)
  deriving DecidableEq, Repr

/-- `{size}` in a format string. -/
def decimal (n : Nat) : Bytes := (Nat.toDigits 10 n).map fun c => UInt8.ofNat c.toNat

def Sent.bytes : Sent → Bytes
  | .fileHeader _ size name => ascii "C0644 " ++ decimal size.toNat ++ 32 :: (name ++ [10])
  | .fileData _ data => data
  | .fileEnd _ => [0]
  | .dirHeader _ name => ascii "D0755 0 " ++ name ++ [10]
  | .endDir _ => ascii "E\n"

def Sent.path : Sent → Path
  | .fileHeader path _ _ | .fileData path _ | .fileEnd path | .dirHeader path _ | .endDir path => path

/-- An operation on the channel. -/
inductive Op where
  | exec (cmd : String)
  | recvResponse
  | send (x : Sent)
  | eof
  deriving DecidableEq, Repr

/-- The channel operations of a function, up to its result. -/
abbrev Upload := Trace Op UploadError

/-- mirrors wstunnel/src/protocols/ssh/scp.rs:145-168 -/
def uploadFile (path : Path) (file : File) : Upload Unit := do
  let size ← Trace.ofExcept (file.metadata.mapError (.cannotStat path))
  let name ← Trace.ofOption (.noFileName path) (fileName path)
  Trace.emit (.send (.fileHeader path size (Utf8.lossy name)))
  Trace.emit .recvResponse
  let data ← Trace.ofExcept (file.read.mapError (.cannotRead path))
  Trace.emit (.send (.fileData path data))
  Trace.emit (.send (.fileEnd path))
  Trace.emit .recvResponse

/-- `upload_dir` around its loop over the entries.
mirrors wstunnel/src/protocols/ssh/scp.rs:170-180 and 193-196 -/
def uploadDirWith (dir : Path) (readDir : Except String Unit) (entries : Upload Unit) : Upload Unit := do
  let name ← Trace.ofOption (.noDirectoryName dir) (fileName dir)
  Trace.emit (.send (.dirHeader dir (Utf8.lossy name)))
  Trace.emit .recvResponse
  Trace.ofExcept (readDir.mapError (.cannotReadDir dir))
  entries
  Trace.emit (.send (.endDir dir))
  Trace.emit .recvResponse

/-- The loop over the entries of `dir`.
mirrors wstunnel/src/protocols/ssh/scp.rs:184-191 -/
def uploadEntries (dir : Path) : Entries → Upload Unit
  | .done => pure ()
  | .failed err => Trace.fail (.nextEntry err)
  | .file name file rest => do
    uploadFile (join dir name.bytes) file
    uploadEntries dir rest
  | .dir name readDir children rest => do
    uploadDirWith (join dir name.bytes) readDir (uploadEntries (join dir name.bytes) children)
    uploadEntries dir rest

def uploadDir (dir : Path) (readDir : Except String Unit) (entries : Entries) : Upload Unit :=
  uploadDirWith dir readDir (uploadEntries dir entries)

def command (recursive : Bool) (remote : String) : String :=
  if recursive then "scp -r -t " ++ remote else "scp -t " ++ remote

/-- The `if local.is_dir()` of `scp_upload`. -/
def uploadLocal (localPath : Path) (recursive : Bool) : Local → Upload Unit
  | .dir readDir entries =>
    if recursive then uploadDir localPath readDir entries else Trace.fail (.isDirectory localPath)
  | .file file => uploadFile localPath file

/-- mirrors wstunnel/src/protocols/ssh/scp.rs:116-143 -/
def scpUpload (localPath : Path) (answers : Local) (remote : String) (recursive : Bool) : Upload Unit := do
  Trace.emit (.exec (command recursive remote))
  Trace.emit .recvResponse
  uploadLocal localPath recursive answers
  Trace.emit .eof

/-- A file that can be read, from its `C` record to the answer to its data. -/
theorem uploadFile_of_ok {path : Path} {name : Bytes} {size : UInt64} {data : Bytes}
    (hn : fileName path = some name) :
    uploadFile path ⟨.ok size, .ok data⟩ =
      ⟨[.send (.fileHeader path size (Utf8.lossy name)), .recvResponse, .send (.fileData path data),
        .send (.fileEnd path), .recvResponse], .ok ()⟩ := by
  unfold uploadFile
  rw [hn]
  rfl

/-- A directory that can be read, from its `D` record to the answer to its `E` record. -/
theorem uploadDirWith_of_ok {dir : Path} {name : Bytes} {entries : Upload Unit}
    (hn : fileName dir = some name) (he : entries.result = .ok ()) :
    uploadDirWith dir (.ok ()) entries =
      ⟨.send (.dirHeader dir (Utf8.lossy name)) :: .recvResponse ::
        (entries.log ++ [.send (.endDir dir), .recvResponse]), .ok ()⟩ := by
  unfold uploadDirWith
  rw [hn, Trace.bind_of_ok he]
  rfl

/-! ## Carrying it out -/

/-- One message read by `recv_response`; `none` goes on waiting.
mirrors wstunnel/src/protocols/ssh/scp.rs:67-98 -/
def recvResponse : Option ChannelMsg → Option (Except UploadError Unit)
  | some (.data []) => none
  | some (.data (b :: msg)) =>
    if b = 0 then some (.ok ())
    else if b = 1 then some (.ok ()) -- "scp warning: ..." is printed
    else if b = 2 then some (.error (.remote msg))
    else some (.error (.unexpectedByte b))
  | some .eof | some .close => some (.error .closedUnexpectedly)
  | some .other => none
  | none => some (.error .closed)

/-- What happened on the channel; `answered` is the first byte of an answer. -/
inductive Event where
  | exec (cmd : String)
  | answered (b : UInt8)
  | sent (x : Sent)
  | eof
  deriving DecidableEq, Repr

/-- The operation in which an event happens. -/
def Event.op : Event → Op
  | .exec cmd => .exec cmd
  | .answered _ => .recvResponse
  | .sent x => .send x
  | .eof => .eof

/-- The event of an operation that does not wait for a message. -/
def Op.event : Op → Option Event
  | .exec cmd => some (.exec cmd)
  | .recvResponse => none
  | .send x => some (.sent x)
  | .eof => some .eof

/-- The first byte of an answer, if the message is one. -/
def answer : Option ChannelMsg → List Event
  | some (.data (b :: _)) => [.answered b]
  | _ => []

/-- `todo` is what is left to do and `result` what the function then
returns; it has returned when nothing is left. -/
structure State where
  todo : List Op
  result : Except UploadError Unit
  log : List Event

def State.fail (s : State) (err : UploadError) : State := { s with todo := [], result := .error err }

inductive Label where
  /-- the next operation is done, or fails -/
  | op (err : Option String)
  /-- `channel.wait()` answers -/
  | msg (msg : Option ChannelMsg)
  deriving DecidableEq, Repr

def step (s : State) : Label → Option State
  | .op err => match s.todo with
    | [] => none
    | op :: todo => op.event.map fun ev => match err with
      | none => { s with todo, log := s.log ++ [ev] }
      | some err => s.fail (.channel err)
  | .msg msg => match s.todo with
    | .recvResponse :: todo =>
      let s := { s with log := s.log ++ answer msg }
      match recvResponse msg with
      | none => some s
      | some (.ok ()) => some { s with todo }
      | some (.error err) => some (s.fail err)
    | _ => none

def start (script : Upload Unit) : State := ⟨script.log, script.result, []⟩

/-- All runs of one upload. -/
def upload (script : Upload Unit) : LTS State Label := LTS.ofFn (· = start script) step

/-- Returned with an error. -/
def State.Failed (s : State) : Prop := s.todo = [] ∧ ∃ err, s.result = .error err

/-- What happened so far is the beginning of the script, and the rest of the
script is still to do unless the upload has failed. -/
structure Follows (script : Upload Unit) (s : State) : Prop where
  done : s.log.map Event.op <+: script.log
  rest : script.log = s.log.map Event.op ++ s.todo ∧ s.result = script.result ∨ s.Failed

theorem Op.op_of_event {op : Op} {ev : Event} (h : op.event = some ev) : ev.op = op := by
  cases op <;> cases h <;> rfl

/-- The message refuses an item: its first byte is `1`. -/
def Label.refuses : Label → Bool
  | .msg (some (.data (b :: _))) => b = 1
  | _ => false

/-- What a step does: nothing, or what is next in the script, or it fails. -/
inductive Move (s : State) (l : Label) : State → Prop where
  | wait : Move s l s
  | next {todo : List Op} (ev : Event) (htodo : s.todo = ev.op :: todo)
      (hzero : ∀ b, ev = .answered b → b = 0 ∨ l.refuses) :
      Move s l { s with todo, log := s.log ++ [ev] }
  | fail (err : UploadError) : Move s l (s.fail err)
  | failAnswer {todo : List Op} (b : UInt8) (err : UploadError) (htodo : s.todo = .recvResponse :: todo) :
      Move s l (State.fail { s with log := s.log ++ [.answered b] } err)

theorem move_of_msg {s s' : State} {msg : Option ChannelMsg} (h : step s (.msg msg) = some s') :
    Move s (.msg msg) s' := by
  simp only [step] at h
  split at h
  case h_2 => cases h
  rename_i todo htodo
  match msg with
  | some (.data []) | some .other =>
    simp only [recvResponse, answer, List.append_nil] at h
    cases h
    exact .wait
  | some .eof | some .close | none =>
    simp only [recvResponse, answer, List.append_nil] at h
    cases h
    exact .fail _
  | some (.data (b :: text)) =>
    simp only [recvResponse, answer] at h
    by_cases h0 : b = 0
    · rw [if_pos h0] at h
      cases h
      exact .next (.answered b) htodo fun b' hb => .inl (by cases hb; exact h0)
    by_cases h1 : b = 1
    · rw [if_neg h0, if_pos h1] at h
      cases h
      exact .next (.answered b) htodo fun b' hb => .inr (by simp [Label.refuses, h1])
    by_cases h2 : b = 2
    · rw [if_neg h0, if_neg h1, if_pos h2] at h
      cases h
      exact .failAnswer b _ htodo
    · rw [if_neg h0, if_neg h1, if_neg h2] at h
      cases h
      exact .failAnswer b _ htodo

theorem move_of_step {s s' : State} {l : Label} (h : step s l = some s') : Move s l s' := by
  cases l with
  | msg msg => exact move_of_msg h
  | op err =>
    simp only [step] at h
    split at h
    · cases h
    · rename_i op todo htodo
      obtain ⟨ev, hev, rfl⟩ := Option.map_eq_some_iff.mp h
      cases err with
      | none =>
        refine .next ev (by rw [htodo, Op.op_of_event hev]) fun b hb => ?_
        subst hb
        cases op <;> cases hev
      | some err => exact .fail _

theorem follows_start (script : Upload Unit) : Follows script (start script) :=
  ⟨List.nil_prefix, .inl ⟨rfl, rfl⟩⟩

theorem follows_move {script : Upload Unit} {s s' : State} {l : Label} (h : Follows script s)
    (hm : Move s l s') : Follows script s' := by
  -- a step that is next in the script is only possible before a failure
  have hnext (ev : Event) {todo : List Op} (ht : s.todo = ev.op :: todo) :
      script.log = (s.log ++ [ev]).map Event.op ++ todo ∧ s.result = script.result := by
    rcases h.rest with ⟨hr, hres⟩ | ⟨hnil, _⟩
    · exact ⟨by rw [hr, ht]; simp, hres⟩
    · rw [hnil] at ht; cases ht
  cases hm with
  | wait => exact h
  | next ev ht _ => exact ⟨⟨_, (hnext ev ht).1.symm⟩, .inl (hnext ev ht)⟩
  | fail err => exact ⟨h.done, .inr ⟨rfl, err, rfl⟩⟩
  | failAnswer b err ht => exact ⟨⟨_, (hnext (.answered b) ht).1.symm⟩, .inr ⟨rfl, err, rfl⟩⟩

theorem follows_inductive (script : Upload Unit) : (upload script).Inductive (Follows script) where
  init := by rintro _ rfl; exact follows_start script
  step _ _ _ h hs := follows_move h (move_of_step hs)

/-! ## Header lines -/

theorem digit_of_mem_toDigits {n : Nat} {c : Char} (h : c ∈ Nat.toDigits 10 n) :
    48 ≤ c.toNat ∧ c.toNat ≤ 57 :=
  Char.isDigit_iff_toNat.mp (Nat.isDigit_of_mem_toDigits (by omega) (by omega) h)

theorem toNat_of_mem_decimal {n : Nat} {b : UInt8} (h : b ∈ decimal n) : 48 ≤ b.toNat ∧ b.toNat ≤ 57 := by
  obtain ⟨c, hc, rfl⟩ := List.mem_map.mp h
  have hd := digit_of_mem_toDigits hc
  rw [UInt8.toNat_ofNat']
  omega

theorem not_mem_decimal {n : Nat} {b : UInt8} (hb : b.toNat < 48) : b ∉ decimal n := fun h => by
  have := (toNat_of_mem_decimal h).1
  omega

/-- The digits read back as characters. -/
theorem map_decimal (n : Nat) : (decimal n).map (fun b => Char.ofNat b.toNat) = Nat.toDigits 10 n := by
  rw [decimal, List.map_map]
  refine (List.map_congr_left fun c hc => ?_).trans (List.map_id _)
  have hd := digit_of_mem_toDigits hc
  have hmod : c.toNat % 256 = c.toNat := by omega
  simp only [Function.comp_apply, UInt8.toNat_ofNat', id_eq]
  rw [show c.toNat % 2 ^ 8 = c.toNat from hmod, Char.ofNat_toNat]

theorem parseUnsigned_decimal (size : UInt64) :
    Str.parseUnsigned 64 ((decimal size.toNat).map fun b => Char.ofNat b.toNat) = some size.toNat := by
  rw [map_decimal]
  exact Str.parseUnsigned_toDigits size.toNat_lt

/-- The three fields behind the first letter of a `C` line. -/
theorem splitn_fileHeader (size : UInt64) (name : Bytes) :
    Str.splitn 32 2 (ascii "0644 " ++ decimal size.toNat ++ 32 :: name) =
      [ascii "0644", decimal size.toNat, name] := by
  have hmode : ascii "0644 " ++ decimal size.toNat ++ 32 :: name =
      ascii "0644" ++ 32 :: (decimal size.toNat ++ 32 :: name) := by
    rw [show ascii "0644 " = ascii "0644" ++ [32] from by decide]
    simp
  rw [hmode, Str.splitn_append (by decide), Str.splitn_append (not_mem_decimal (by decide))]
  rfl

/-- Those of a `D` line. -/
theorem splitn_dirHeader (name : Bytes) :
    Str.splitn 32 2 (ascii "0755 0 " ++ name) = [ascii "0755", ascii "0", name] := by
  have hmode : ascii "0755 0 " ++ name = ascii "0755" ++ 32 :: (ascii "0" ++ 32 :: name) := by
    rw [show ascii "0755 0 " = ascii "0755" ++ [32] ++ ascii "0" ++ [32] from by decide]
    simp
  rw [hmode, Str.splitn_append (by decide), Str.splitn_append (by decide)]
  rfl

end Wstunnel.L4.ScpUpload
