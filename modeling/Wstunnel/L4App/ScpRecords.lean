import Wstunnel.Core.Framing
import Wstunnel.L4App.ScpUpload

/-!
# The byte stream of `scp_upload`, read back

The receiving side knows nothing but the bytes. Read by the SCP grammar
(`scp`), a control record is one line, ended by its first newline, and a
`C` record that announces `n` is followed by `n` bytes and a zero byte. It reads
as the bytes come, so an upload that fails half-way has been read as well.

`upload_file` and `upload_dir` put the name into the line as it is, newline
included, and announce the size that `metadata` told before the file is read.

**What an upload should write (`walk`).** One `C` record for each file, one `D` and
one `E` for each directory, in the order of the walk, up to the first call that
fails. It is told from the path and the answers of the file system alone, and so is
the condition `Plain`.

**Third-party code.** Nothing is assumed of the file system: each call has any
answer, and the two calls about a file need not agree. `to_string_lossy` is
`Utf8.lossy`. The remote side answers what it likes, `russh` may fail at any
operation.

**Results.**
* `scp_lawful`: the grammar reads back exactly the records whose name has no
  newline and whose data has the announced length.
* `stream_parses_iff`: in every reachable state, failed uploads included, the sink
  has read a beginning of the records of the walk, and all of them at the end of an
  upload that returns `Ok`, exactly when no name that is sent has a newline and
  every file that is read has the announced length.
* `nameAndContent_forge`: a directory whose name holds two records, before the walk
  ends or fails, and a file that grows by one record.
-/
namespace Wstunnel.L4.ScpUpload

open UnixPath Framing
open Scp (Bytes ChannelMsg ascii)

/-! ## The grammar -/

/-- A control record, or the data that a `C` record announces. -/
inductive Record where
  | file (size : UInt64) (name : Bytes)
  | data (size : UInt64) (content : Bytes)
  | dir (name : Bytes)
  | endDir
  deriving DecidableEq, Repr

/-- A mode in a control record: four octal digits. -/
def isMode (mode : Bytes) : Bool := mode.length = 4 ∧ mode.all fun b => 48 ≤ b ∧ b ≤ 55

/-- `mode size name`, behind the letter of a control record. -/
def parseFields (line : Bytes) : Option (UInt64 × Bytes) :=
  match Str.splitn 32 2 line with
  | [mode, size, name] =>
    if isMode mode then
      (Str.parseUnsigned 64 (size.map fun b => Char.ofNat b.toNat)).map fun n => (UInt64.ofNat n, name)
    else none
  | _ => none

/-- The data that a `C` record announces, and the zero byte after it. -/
def parseData (size : Nat) (bytes : Bytes) : Option (Bytes × Bytes) :=
  if bytes[size]? = some 0 then some (bytes.take size, bytes.drop (size + 1)) else none

/-- A line without its newline. -/
def parseLine : Bytes → Option Record
  | [] => none
  | letter :: fields =>
    if letter = 67 then (parseFields fields).map fun (size, name) => .file size name
    else if letter = 68 then (parseFields fields).map fun (_, name) => .dir name
    else if letter = 69 ∧ fields = [] then some .endDir
    else none

/-- The data that is to follow. -/
def Record.announces : Record → Option UInt64
  | .file size _ => some size
  | .data _ _ | .dir _ | .endDir => none

/-- One record off the front; `awaited` is the size of the data that is to come. -/
def parseFront (awaited : Option UInt64) (bytes : Bytes) : Front (Option UInt64) Record UInt8 :=
  match awaited with
  | none => match Str.splitOnce [10] bytes with
    | none => .wait
    | some (line, rest) => match parseLine line with
      | none => .bad
      | some record => .record record record.announces rest
  | some size =>
    if bytes.length ≤ size.toNat then .wait
    else match parseData size.toNat bytes with
      | none => .bad
      | some (data, rest) => .record (.data size data) none rest

/-- A record as the upload writes it. -/
def Record.bytes : Record → Bytes
  | .file size name => ascii "C0644 " ++ decimal size.toNat ++ 32 :: (name ++ [10])
  | .data _ content => content ++ [0]
  | .dir name => ascii "D0755 0 " ++ name ++ [10]
  | .endDir => ascii "E\n"

/-- Data stand behind the `C` record that announces them, and only there. -/
def Record.follow (awaited : Option UInt64) (record : Record) : Option (Option UInt64) :=
  match awaited, record with
  | some size, .data size' _ => if size = size' then some none else none
  | none, .file size _ => some (some size)
  | none, .dir _ | none, .endDir => some none
  | _, _ => none

def scp : Format (Option UInt64) Record UInt8 where
  init := none
  next := parseFront
  write := Record.bytes
  follow := Record.follow

/-- What the grammar can read back. -/
def Record.WellFormed : Record → Prop
  | .file _ name => 10 ∉ name
  | .data size content => content.length = size.toNat
  | .dir name => 10 ∉ name
  | .endDir => True

@[simp] theorem Record.wellFormed_file {size : UInt64} {name : Bytes} :
    (Record.file size name).WellFormed ↔ 10 ∉ name := Iff.rfl

@[simp] theorem Record.wellFormed_data {size : UInt64} {data : Bytes} :
    (Record.data size data).WellFormed ↔ data.length = size.toNat := Iff.rfl

@[simp] theorem Record.wellFormed_dir {name : Bytes} : (Record.dir name).WellFormed ↔ 10 ∉ name := Iff.rfl

@[simp] theorem Record.wellFormed_endDir : Record.endDir.WellFormed := trivial

theorem parseFields_file (size : UInt64) (name : Bytes) :
    parseFields (ascii "0644 " ++ decimal size.toNat ++ 32 :: name) = some (size, name) := by
  unfold parseFields
  rw [splitn_fileHeader]
  simp only [parseUnsigned_decimal, Option.map_some, UInt64.ofNat_toNat]
  exact if_pos (by decide)

theorem parseFields_dir (name : Bytes) : parseFields (ascii "0755 0 " ++ name) = some (0, name) := by
  unfold parseFields
  rw [splitn_dirHeader]
  rfl

theorem parseData_append {size : Nat} {data : Bytes} (h : data.length = size) (rest : Bytes) :
    parseData size (data ++ 0 :: rest) = some (data, rest) := by
  subst h
  simp [parseData]

/-- A well-formed control record is a line that is read back. -/
theorem Record.exists_line {record : Record} (h : record.WellFormed) {awaited : Option UInt64}
    (hfollow : record.follow none = some awaited) :
    ∃ line, record.bytes = line ++ [10] ∧ 10 ∉ line ∧ parseLine line = some record ∧
      awaited = record.announces := by
  cases record with
  | file size name =>
    have hmode : 10 ∉ ascii "0644 " := by decide
    have hsize : 10 ∉ decimal size.toNat := not_mem_decimal (by decide)
    refine ⟨67 :: (ascii "0644 " ++ decimal size.toNat ++ 32 :: name), ?_, ?_, ?_, (Option.some.inj hfollow).symm⟩
    · rw [Record.bytes, show ascii "C0644 " = 67 :: ascii "0644 " from by decide]
      simp
    · simp [hmode, hsize, show 10 ∉ name from h]
    · rw [parseLine, if_pos rfl, parseFields_file]
      rfl
  | data size data => cases hfollow
  | dir name =>
    have hmode : 10 ∉ ascii "0755 0 " := by decide
    refine ⟨68 :: (ascii "0755 0 " ++ name), ?_, ?_, ?_, (Option.some.inj hfollow).symm⟩
    · rw [Record.bytes, show ascii "D0755 0 " = 68 :: ascii "0755 0 " from by decide]
      simp
    · simp [hmode, show 10 ∉ name from h]
    · rw [parseLine, if_neg (by decide), if_pos rfl, parseFields_dir]
      rfl
  | endDir => exact ⟨[69], rfl, by decide, rfl, (Option.some.inj hfollow).symm⟩

/-- Data are the only thing that may follow an announcement. -/
theorem Record.follow_some {record : Record} {size : UInt64} {awaited : Option UInt64}
    (h : record.follow (some size) = some awaited) : ∃ data, record = .data size data ∧ awaited = none := by
  cases record with
  | data size' data =>
    obtain ⟨rfl, hnone⟩ := Option.ite_none_right_eq_some.mp h
    exact ⟨data, rfl, (Option.some.inj hnone).symm⟩
  | file _ _ | dir _ | endDir => cases h

theorem parseFront_whole (awaited : Option UInt64) (record : Record) (awaited' : Option UInt64) (more : Bytes)
    (h : record.WellFormed) (hfollow : record.follow awaited = some awaited') :
    parseFront awaited (record.bytes ++ more) = .record record awaited' more := by
  cases awaited with
  | none =>
    obtain ⟨line, hbytes, hline, hparse, rfl⟩ := Record.exists_line h hfollow
    rw [parseFront, hbytes, List.append_assoc, List.singleton_append, Str.splitOnce_append hline]
    simp only [hparse]
  | some size =>
    obtain ⟨data, rfl, rfl⟩ := Record.follow_some hfollow
    have hlen : data.length = size.toNat := h
    have hlong : ¬ (Record.bytes (.data size data) ++ more).length ≤ size.toNat := by
      rw [Record.bytes, List.length_append, List.length_append, hlen, List.length_singleton]
      omega
    rw [parseFront, if_neg hlong, Record.bytes, List.append_assoc, List.singleton_append, parseData_append hlen]

theorem parseFront_part (awaited : Option UInt64) (record : Record) (awaited' : Option UInt64) (bytes : Bytes)
    (h : record.WellFormed) (hfollow : record.follow awaited = some awaited') (hpart : bytes <+: record.bytes)
    (hne : bytes ≠ record.bytes) : parseFront awaited bytes = .wait := by
  cases awaited with
  | none =>
    -- without its newline the line is not there
    obtain ⟨line, hbytes, hline, -, -⟩ := Record.exists_line h hfollow
    rw [hbytes] at hpart hne
    have hpre : bytes <+: line := (List.prefix_concat_iff.mp hpart).resolve_left hne
    rw [parseFront, Str.splitOnce_of_not_mem fun hmem => hline (hpre.subset hmem)]
  | some size =>
    obtain ⟨data, rfl, -⟩ := Record.follow_some hfollow
    have hlen : data.length = size.toNat := h
    have hpre : bytes <+: data := (List.prefix_concat_iff.mp hpart).resolve_left hne
    rw [parseFront, if_pos (hlen ▸ hpre.length_le)]

theorem length_of_parseData {size : Nat} {bytes data rest : Bytes}
    (h : parseData size bytes = some (data, rest)) : data.length = size := by
  unfold parseData at h
  split at h
  · rename_i hz
    cases h
    have := (List.getElem?_eq_some_iff.mp hz).1
    rw [List.length_take]
    omega
  · cases h

theorem subset_of_parseFields {line name : Bytes} {size : UInt64}
    (h : parseFields line = some (size, name)) : name ⊆ line := by
  unfold parseFields at h
  split at h
  · rename_i mode size' name' hs
    split at h
    · obtain ⟨n, _, he⟩ := Option.map_eq_some_iff.mp h
      cases he
      have hmem : name ∈ Str.splitn 32 2 line := by simp [hs]
      exact Str.subset_of_mem_splitn hmem
    · cases h
  · cases h

theorem wellFormed_of_parseLine {line : Bytes} {record : Record} (hno : 10 ∉ line)
    (h : parseLine line = some record) : record.WellFormed := by
  cases line with
  | nil => cases h
  | cons letter fields =>
    have hname {size : UInt64} {name : Bytes} (hf : parseFields fields = some (size, name)) : 10 ∉ name :=
      fun hm => hno (List.mem_cons_of_mem _ (subset_of_parseFields hf hm))
    rw [parseLine] at h
    split at h
    · obtain ⟨⟨size, name⟩, hf, rfl⟩ := Option.map_eq_some_iff.mp h
      exact hname hf
    split at h
    · obtain ⟨⟨size, name⟩, hf, rfl⟩ := Option.map_eq_some_iff.mp h
      exact hname hf
    split at h
    · cases h
      trivial
    · cases h

/-- Nothing else is read. -/
theorem parseFront_sound (awaited : Option UInt64) (bytes : Bytes) (record : Record) (awaited' : Option UInt64)
    (rest : Bytes) (h : parseFront awaited bytes = .record record awaited' rest) : record.WellFormed := by
  unfold parseFront at h
  split at h
  · split at h
    · cases h
    rename_i line rest' hline
    split at h
    · cases h
    rename_i record' hparse
    cases h
    exact wellFormed_of_parseLine (Str.splitOnce_eq_some hline).2 hparse
  · split at h
    · cases h
    split at h
    · cases h
    rename_i data rest' hdata
    cases h
    exact length_of_parseData hdata

theorem Record.bytes_ne_nil (record : Record) : record.bytes ≠ [] := by
  cases record <;> simp [Record.bytes, ascii]

theorem parseFront_nil (awaited : Option UInt64) : parseFront awaited [] = .wait := by
  cases awaited with
  | none => rfl
  | some size =>
    rw [parseFront, List.length_nil]
    exact if_pos (Nat.zero_le _)

/-- **The grammar reads back the well-formed records, and nothing else.** -/
theorem scp_lawful : scp.Lawful Record.WellFormed where
  write_ne_nil := Record.bytes_ne_nil
  next_nil := parseFront_nil
  whole := parseFront_whole
  part := parseFront_part
  sound := parseFront_sound

/-! ## What an upload should write -/

/-- The records of a walk, and whether it gets to its end. -/
structure Walk where
  records : List Record
  complete : Bool
  deriving DecidableEq, Repr

namespace Walk

/-- The walk is over at its first failure. -/
def andThen (first next : Walk) : Walk :=
  if first.complete then ⟨first.records ++ next.records, next.complete⟩ else first

/-- A call fails. -/
def failed : Walk := ⟨[], false⟩

def finished : Walk := ⟨[], true⟩

def record (r : Record) : Walk := ⟨[r], true⟩

/-- A call is made: the walk goes on or fails. -/
def call {ε α : Type} (answer : Except ε α) (next : α → Walk) : Walk :=
  match answer with
  | .ok a => next a
  | .error _ => failed

end Walk

theorem Walk.finished_andThen (walk : Walk) : Walk.finished.andThen walk = walk := rfl

theorem Walk.andThen_finished (walk : Walk) : walk.andThen .finished = walk := by
  obtain ⟨records, complete⟩ := walk
  cases complete <;> simp [Walk.andThen, Walk.finished]

/-- The record of a file and its data. -/
def File.walk (file : File) (name : Bytes) : Walk :=
  .call file.metadata fun size =>
    (Walk.record (.file size (Utf8.lossy name))).andThen (.call file.read fun data => .record (.data size data))

/-- A directory's records around those of its entries. -/
def dirWalk (name : Bytes) (readDir : Except String Unit) (entries : Walk) : Walk :=
  (Walk.record (.dir (Utf8.lossy name))).andThen (.call readDir fun _ => entries.andThen (.record .endDir))

def Entries.walk : Entries → Walk
  | .done => .finished
  | .failed _ => .failed
  | .file name f rest => (f.walk name.bytes).andThen rest.walk
  | .dir name readDir children rest => (dirWalk name.bytes readDir children.walk).andThen rest.walk

/-- A path without a last component, or a directory without `--recursive`, is not
uploaded. -/
def Local.walk (localPath : Path) (recursive : Bool) (answers : Local) : Walk :=
  match fileName localPath, answers with
  | none, _ => .failed
  | some name, .file f => f.walk name
  | some name, .dir readDir entries => if recursive then dirWalk name readDir entries.walk else .failed

/-- If the record is sent, the name has no newline; if the file is read as well, it
has the announced length. -/
def File.Plain (file : File) (name : Bytes) : Prop :=
  ∀ size, file.metadata = .ok size → 10 ∉ name ∧ ∀ data, file.read = .ok data → data.length = size.toNat

def dirPlain (name : Bytes) (readDir : Except String Unit) (entries : Prop) : Prop :=
  10 ∉ name ∧ (readDir = .ok () → entries)

/-- What is sent of the entries is plain: nothing is asked of those behind a call that
fails. -/
def Entries.Plain : Entries → Prop
  | .done | .failed _ => True
  | .file name f rest => f.Plain name.bytes ∧ ((f.walk name.bytes).complete = true → rest.Plain)
  | .dir name readDir children rest => dirPlain name.bytes readDir children.Plain ∧
      ((dirWalk name.bytes readDir children.walk).complete = true → rest.Plain)

/-- No name that is sent has a newline, and no file that is read has changed its
length. -/
def Local.Plain (localPath : Path) (recursive : Bool) (answers : Local) : Prop :=
  ∀ name, fileName localPath = some name → match answers with
    | .file f => f.Plain name
    | .dir readDir entries => recursive = true → dirPlain name readDir entries.Plain

theorem newline_mem_lossy (name : Bytes) : 10 ∈ Utf8.lossy name ↔ 10 ∈ name :=
  Utf8.mem_lossy (by decide) name

def Walk.WellFormed (walk : Walk) : Prop := ∀ r ∈ walk.records, r.WellFormed

@[simp] theorem Walk.wellFormed_failed : Walk.failed.WellFormed := fun _ h => absurd h List.not_mem_nil

@[simp] theorem Walk.wellFormed_finished : Walk.finished.WellFormed := fun _ h => absurd h List.not_mem_nil

@[simp] theorem Walk.wellFormed_record {r : Record} : (Walk.record r).WellFormed ↔ r.WellFormed := by
  simp [Walk.WellFormed, Walk.record]

@[simp] theorem Walk.wellFormed_andThen {first next : Walk} :
    (first.andThen next).WellFormed ↔ first.WellFormed ∧ (first.complete = true → next.WellFormed) := by
  unfold Walk.andThen
  split
  · rename_i h
    simp only [Walk.WellFormed, List.forall_mem_append, h, forall_const]
  · rename_i h
    simp [h]

@[simp] theorem Walk.complete_record {r : Record} : (Walk.record r).complete = true := rfl

theorem File.plain_iff {file : File} {name : Bytes} : (file.walk name).WellFormed ↔ file.Plain name := by
  obtain ⟨metadata, read⟩ := file
  cases metadata with
  | error err => simp [File.walk, Walk.call, File.Plain]
  | ok size =>
    cases read with
    | error err => simp [File.walk, Walk.call, File.Plain, newline_mem_lossy]
    | ok data => simp [File.walk, Walk.call, File.Plain, newline_mem_lossy]

theorem dirPlain_iff {name : Bytes} {readDir : Except String Unit} {entries : Walk} :
    (dirWalk name readDir entries).WellFormed ↔ dirPlain name readDir entries.WellFormed := by
  cases readDir with
  | error err => simp [dirWalk, Walk.call, dirPlain, newline_mem_lossy]
  | ok _ => simp [dirWalk, Walk.call, dirPlain, newline_mem_lossy]

theorem Entries.plain_iff {entries : Entries} : entries.walk.WellFormed ↔ entries.Plain := by
  induction entries with
  | done => simp [Entries.walk, Entries.Plain]
  | failed err => simp [Entries.walk, Entries.Plain]
  | file name file rest ih => rw [Entries.walk, Walk.wellFormed_andThen, File.plain_iff, ih, Entries.Plain]
  | dir name readDir children rest ihc ih =>
    rw [Entries.walk, Walk.wellFormed_andThen, dirPlain_iff, ihc, ih, Entries.Plain]

theorem Local.plain_iff {localPath : Path} {recursive : Bool} {answers : Local} :
    (answers.walk localPath recursive).WellFormed ↔ answers.Plain localPath recursive := by
  unfold Local.walk Local.Plain
  cases fileName localPath with
  | none => simp
  | some name =>
    cases answers with
    | file file => simp [File.plain_iff]
    | dir readDir entries => cases recursive <;> simp [dirPlain_iff, Entries.plain_iff]

/-- The records may stand where they stand; a walk that gets to its end leaves no
data to come. -/
def Walk.Chained (walk : Walk) : Prop :=
  ∃ awaited, walk.records.foldlM Record.follow none = some awaited ∧ (walk.complete = true → awaited = none)

theorem Walk.chained_failed : Walk.failed.Chained := ⟨none, rfl, fun h => by cases h⟩

theorem Walk.Chained.andThen {first next : Walk} (hfirst : first.Chained) (hnext : next.Chained) :
    (first.andThen next).Chained := by
  unfold Walk.andThen
  split
  · rename_i hcomplete
    obtain ⟨awaited, hchain, hnone⟩ := hfirst
    obtain ⟨awaited', hchain', hnone'⟩ := hnext
    cases hnone hcomplete
    exact ⟨awaited', by rw [List.foldlM_append, hchain]; exact hchain', hnone'⟩
  · exact hfirst

theorem File.chained (file : File) (name : Bytes) : (file.walk name).Chained := by
  obtain ⟨metadata, read⟩ := file
  cases metadata with
  | error err => exact Walk.chained_failed
  | ok size =>
    cases read with
    | error err => exact ⟨some size, rfl, fun h => by cases h⟩
    | ok data => exact ⟨none, by simp [File.walk, Walk.call, Walk.record, Walk.andThen, Record.follow], fun _ => rfl⟩

theorem dirWalk_chained (name : Bytes) (readDir : Except String Unit) {entries : Walk} (h : entries.Chained) :
    (dirWalk name readDir entries).Chained := by
  have hdir : (Walk.record (.dir (Utf8.lossy name))).Chained := ⟨none, rfl, fun _ => rfl⟩
  have hend : (Walk.record .endDir).Chained := ⟨none, rfl, fun _ => rfl⟩
  cases readDir with
  | error err => exact hdir.andThen Walk.chained_failed
  | ok _ => exact hdir.andThen (h.andThen hend)

theorem Entries.chained (entries : Entries) : entries.walk.Chained := by
  induction entries with
  | done => exact ⟨none, rfl, fun _ => rfl⟩
  | failed err => exact Walk.chained_failed
  | file name file rest ih => exact (file.chained name.bytes).andThen ih
  | dir name readDir children rest ihc ih => exact (dirWalk_chained name.bytes readDir ihc).andThen ih

theorem Local.chained (localPath : Path) (recursive : Bool) (answers : Local) :
    scp.Chain scp.init (answers.walk localPath recursive).records := by
  have hchained : (answers.walk localPath recursive).Chained := by
    unfold Local.walk
    split
    · exact Walk.chained_failed
    · exact File.chained _ _
    · split
      · exact dirWalk_chained _ _ (Entries.chained _)
      · exact Walk.chained_failed
  obtain ⟨awaited, hchain, -⟩ := hchained
  exact ⟨awaited, hchain⟩

/-! ## What it does write -/

def Op.bytes : Op → Bytes
  | .send x => x.bytes
  | _ => []

/-- The bytes sent so far. -/
def stream (log : List Event) : Bytes := (log.map Event.op).flatMap Op.bytes

/-- The function writes the records of the walk, and returns `Ok` if the walk gets to
its end. -/
structure Writes (x : Upload Unit) (walk : Walk) : Prop where
  bytes : x.log.flatMap Op.bytes = walk.records.flatMap Record.bytes
  result : x.result = .ok () ↔ walk.complete = true

theorem Writes.andThen {x y : Upload Unit} {first next : Walk} (hx : Writes x first) (hy : Writes y next) :
    Writes (x >>= fun _ => y) (first.andThen next) := by
  cases hres : x.result with
  | ok _ =>
    rw [Trace.bind_of_ok hres, Walk.andThen, if_pos (hx.result.mp hres)]
    refine ⟨?_, hy.result⟩
    rw [List.flatMap_append, List.flatMap_append, hx.bytes, hy.bytes]
  | error err =>
    have hnot : first.complete ≠ true := fun h => by
      cases hres.symm.trans (hx.result.mpr h)
    rw [Trace.bind_of_error hres, Walk.andThen, if_neg hnot]
    exact ⟨hx.bytes, iff_of_false (fun h => by cases h) hnot⟩

theorem writes_fail (err : UploadError) : Writes (Trace.fail err) .failed :=
  ⟨rfl, iff_of_false (fun h => by cases h) Bool.false_ne_true⟩

/-- A record is sent and answered. -/
theorem writes_record {ops : List Op} {record : Record} (h : ops.flatMap Op.bytes = record.bytes) :
    Writes ⟨ops, .ok ()⟩ (.record record) :=
  ⟨by rw [h, Walk.record, List.flatMap_singleton], iff_of_true rfl rfl⟩

theorem writes_uploadFile {path : Path} {name : Bytes} (hn : fileName path = some name) (file : File) :
    Writes (uploadFile path file) (file.walk name) := by
  obtain ⟨metadata, read⟩ := file
  cases metadata with
  | error err => exact writes_fail _
  | ok size =>
    have hheader : Writes (⟨[.send (.fileHeader path size (Utf8.lossy name)), .recvResponse], .ok ()⟩ : Upload Unit)
        (.record (.file size (Utf8.lossy name))) := writes_record (by simp [Op.bytes, Sent.bytes, Record.bytes])
    cases read with
    | error err =>
      unfold uploadFile
      rw [hn]
      exact hheader.andThen (writes_fail (.cannotRead path err))
    | ok data =>
      have hdata : Writes (⟨[.send (.fileData path data), .send (.fileEnd path), .recvResponse], .ok ()⟩ : Upload Unit)
          (.record (.data size data)) := writes_record (by simp [Op.bytes, Sent.bytes, Record.bytes])
      rw [uploadFile_of_ok hn]
      exact hheader.andThen hdata

theorem writes_uploadDirWith {dir : Path} {name : Bytes} (hn : fileName dir = some name)
    (readDir : Except String Unit) {entries : Upload Unit} {inner : Walk} (he : Writes entries inner) :
    Writes (uploadDirWith dir readDir entries) (dirWalk name readDir inner) := by
  have hheader : Writes (⟨[.send (.dirHeader dir (Utf8.lossy name)), .recvResponse], .ok ()⟩ : Upload Unit)
      (.record (.dir (Utf8.lossy name))) := writes_record (by simp [Op.bytes, Sent.bytes, Record.bytes])
  have hend : Writes (⟨[.send (.endDir dir), .recvResponse], .ok ()⟩ : Upload Unit) (.record .endDir) :=
    writes_record (by simp [Op.bytes, Sent.bytes, Record.bytes])
  unfold uploadDirWith
  rw [hn]
  cases readDir with
  | error err => exact hheader.andThen (writes_fail (.cannotReadDir dir err))
  | ok _ => exact hheader.andThen (he.andThen hend)

theorem writes_uploadEntries (dir : Path) (entries : Entries) : Writes (uploadEntries dir entries) entries.walk := by
  induction entries generalizing dir with
  | done => exact ⟨rfl, iff_of_true rfl rfl⟩
  | failed err => exact writes_fail _
  | file name file rest ih => exact (writes_uploadFile (name.fileName_join dir) file).andThen (ih dir)
  | dir name readDir children rest ihc ih =>
    exact (writes_uploadDirWith (name.fileName_join dir) readDir (ihc _)).andThen (ih dir)

theorem writes_uploadLocal (localPath : Path) (recursive : Bool) (answers : Local) :
    Writes (uploadLocal localPath recursive answers) (answers.walk localPath recursive) := by
  unfold uploadLocal Local.walk
  cases hn : fileName localPath with
  | none =>
    cases answers with
    | file f =>
      obtain ⟨metadata, read⟩ := f
      cases metadata with
      | error err => exact writes_fail _
      | ok size =>
        simp only [uploadFile, hn]
        exact writes_fail (.noFileName localPath)
    | dir readDir entries =>
      cases recursive with
      | false => exact writes_fail _
      | true =>
        simp only [uploadDir, uploadDirWith, hn]
        exact writes_fail (.noDirectoryName localPath)
  | some name =>
    cases answers with
    | file f => exact writes_uploadFile hn f
    | dir readDir entries =>
      cases recursive with
      | false => exact writes_fail _
      | true => exact writes_uploadDirWith hn readDir (writes_uploadEntries localPath entries)

theorem writes_scpUpload (localPath : Path) (answers : Local) (remote : String) (recursive : Bool) :
    Writes (scpUpload localPath answers remote recursive) (answers.walk localPath recursive) := by
  have hlocal := writes_uploadLocal localPath recursive answers
  have heof : Writes (Trace.emit .eof : Upload Unit) .finished := ⟨rfl, iff_of_true rfl rfl⟩
  have hwhole : Writes (scpUpload localPath answers remote recursive)
      (Walk.finished.andThen ((answers.walk localPath recursive).andThen .finished)) := by
    have hstart : Writes (⟨[.exec (command recursive remote), .recvResponse], .ok ()⟩ : Upload Unit) .finished :=
      ⟨rfl, iff_of_true rfl rfl⟩
    exact hstart.andThen (hlocal.andThen heof)
  rwa [Walk.finished_andThen, Walk.andThen_finished] at hwhole

/-- A sink that answers everything with `0` sees the script to its end. -/
theorem upload_completes (script : Upload Unit) (s : State) :
    ∃ ls s', (upload script).Run s ls s' ∧ s'.log.map Event.op = s.log.map Event.op ++ s.todo := by
  obtain ⟨todo, result, log⟩ := s
  induction todo generalizing log with
  | nil => exact ⟨[], _, .nil _, (List.append_nil _).symm⟩
  | cons op todo ih =>
    have hstep : ∃ l ev, step ⟨op :: todo, result, log⟩ l = some ⟨todo, result, log ++ [ev]⟩ ∧ ev.op = op := by
      cases op with
      | recvResponse => exact ⟨.msg (some (.data [0])), _, rfl, rfl⟩
      | exec cmd => exact ⟨.op none, _, rfl, rfl⟩
      | send x => exact ⟨.op none, _, rfl, rfl⟩
      | eof => exact ⟨.op none, _, rfl, rfl⟩
    obtain ⟨l, ev, hl, rfl⟩ := hstep
    obtain ⟨ls, s', hrun, hlog⟩ := ih (log ++ [ev])
    refine ⟨l :: ls, s', .cons hl hrun, ?_⟩
    rw [hlog, List.map_append, List.append_assoc]
    rfl

theorem stream_of_ok {script : Upload Unit} {s : State} (h : Follows script s) (ht : s.todo = [])
    (hok : s.result = .ok ()) :
    script.result = .ok () ∧ stream s.log = script.log.flatMap Op.bytes := by
  rcases h.rest with ⟨hlog, hres⟩ | ⟨_, err, herr⟩
  · rw [ht, List.append_nil] at hlog
    exact ⟨hres.symm.trans hok, by rw [stream, hlog]⟩
  · rw [hok] at herr
    cases herr

/-- **The sink reads the records of the walk and nothing else**, at any time of any
upload, exactly when no name that is sent has a newline and every file that is read
has the announced length. An upload that returns `Ok` has walked everything, and the
sink has read it all. -/
theorem stream_parses_iff (localPath : Path) (answers : Local) (remote : String) (recursive : Bool) :
    (∀ s, (upload (scpUpload localPath answers remote recursive)).Reachable s →
        scp.Sees (answers.walk localPath recursive).records (stream s.log) ∧
        (s.todo = [] → s.result = .ok () → (answers.walk localPath recursive).complete = true ∧
          scp.read (stream s.log) = some ((answers.walk localPath recursive).records, []))) ↔
      answers.Plain localPath recursive := by
  have hwrites := writes_scpUpload localPath answers remote recursive
  have hchain := Local.chained localPath recursive answers
  have hfollows := (follows_inductive (scpUpload localPath answers remote recursive)).reachable
  rw [← Local.plain_iff]
  refine ⟨fun h => ?_, fun hwf s hr => ⟨?_, fun htodo hok => ?_⟩⟩
  · -- the run in which every answer is `0` sends the whole script
    obtain ⟨ls, s, hrun, hlog⟩ := upload_completes _ (start (scpUpload localPath answers remote recursive))
    have hstream : stream s.log = (answers.walk localPath recursive).records.flatMap Record.bytes := by
      rw [stream, hlog, ← hwrites.bytes]
      rfl
    have hsees := (h s ⟨_, ls, rfl, hrun⟩).1
    rw [hstream] at hsees
    exact Format.wellFormed_of_sees scp_lawful hchain hsees
  · have hpre : stream s.log <+: (answers.walk localPath recursive).records.flatMap Record.bytes := by
      rw [← hwrites.bytes]
      exact (hfollows s hr).done.flatMap Op.bytes
    exact Format.sees_of_wellFormed scp_lawful hwf hchain hpre
  · obtain ⟨hscript, hstream⟩ := stream_of_ok (hfollows s hr) htodo hok
    rw [hstream, hwrites.bytes]
    exact ⟨hwrites.result.mp hscript, Format.read_whole scp_lawful hwf hchain⟩

/-! ### Forged streams -/

/-- A directory whose name closes it and opens another. -/
def forgingName : EntryName :=
  ⟨ascii "x\nE\nD0755 0 y", by decide, by decide, by decide, by decide⟩

/-- It is the only entry, and then `next_entry` gives the rest. -/
def forgingDir (rest : Entries) : Local := .dir (.ok ()) (.dir forgingName (.ok ()) .done rest)

/-- Empty when it is announced, and then written to. -/
def grownFile : Local := .file ⟨.ok 0, .ok (0 :: ascii "C0644 0 evil\n")⟩

/-- An upload in which every answer is `0`, with `n` records in it. -/
def accepted (n : Nat) : List Label := (List.replicate n [.op none, .msg (some (.data [0]))]).flatten

/-- The name of a directory adds the directory `y` to the stream, also if the walk
fails behind it; the content that a file gets after it was announced adds the file
`evil`. -/
theorem nameAndContent_forge :
    (∃ s, (upload (scpUpload (ascii "/srv/d") (forgingDir .done) "r" true)).Reachable s ∧ s.todo = [] ∧
      s.result = .ok () ∧
      scp.read (stream s.log) = some ([.dir (ascii "d"), .dir (ascii "x"), .endDir, .dir (ascii "y"), .endDir,
        .endDir], []) ∧
      ((forgingDir .done).walk (ascii "/srv/d") true).records =
        [.dir (ascii "d"), .dir forgingName.bytes, .endDir, .endDir]) ∧
    (∃ s, (upload (scpUpload (ascii "/srv/d") (forgingDir (.failed "EIO")) "r" true)).Reachable s ∧ s.todo = [] ∧
      s.result = .error (.nextEntry "EIO") ∧
      scp.read (stream s.log) = some ([.dir (ascii "d"), .dir (ascii "x"), .endDir, .dir (ascii "y"), .endDir], []) ∧
      ((forgingDir (.failed "EIO")).walk (ascii "/srv/d") true).records =
        [.dir (ascii "d"), .dir forgingName.bytes, .endDir]) ∧
    ∃ s, (upload (scpUpload (ascii "/srv/a") grownFile "r" false)).Reachable s ∧ s.todo = [] ∧
      s.result = .ok () ∧
      scp.read (stream s.log) = some ([.file 0 (ascii "a"), .data 0 [], .file 0 (ascii "evil"), .data 0 []], []) ∧
      (grownFile.walk (ascii "/srv/a") false).records =
        [.file 0 (ascii "a"), .data 0 (0 :: ascii "C0644 0 evil\n")] := by
  refine ⟨?_, ?_, ?_⟩
  · obtain ⟨s, hs, htodo, hok, hread⟩ :
        ∃ s, LTS.exec step (start (scpUpload (ascii "/srv/d") (forgingDir .done) "r" true))
            (accepted 5 ++ [.op none]) = some s ∧ s.todo = [] ∧ s.result = .ok () ∧
          scp.read (stream s.log) = some ([.dir (ascii "d"), .dir (ascii "x"), .endDir, .dir (ascii "y"), .endDir,
            .endDir], []) := ⟨_, rfl, rfl, rfl, by decide⟩
    exact ⟨s, ⟨_, _, rfl, LTS.run_ofFn.mpr hs⟩, htodo, hok, hread, by decide⟩
  · obtain ⟨s, hs, htodo, hfail, hread⟩ :
        ∃ s, LTS.exec step (start (scpUpload (ascii "/srv/d") (forgingDir (.failed "EIO")) "r" true))
            (accepted 4) = some s ∧ s.todo = [] ∧ s.result = .error (.nextEntry "EIO") ∧
          scp.read (stream s.log) = some ([.dir (ascii "d"), .dir (ascii "x"), .endDir, .dir (ascii "y"), .endDir],
            []) := ⟨_, rfl, rfl, rfl, by decide⟩
    exact ⟨s, ⟨_, _, rfl, LTS.run_ofFn.mpr hs⟩, htodo, hfail, hread, by decide⟩
  · obtain ⟨s, hs, htodo, hok, hread⟩ :
        ∃ s, LTS.exec step (start (scpUpload (ascii "/srv/a") grownFile "r" false))
            (accepted 2 ++ .op none :: accepted 1 ++ [.op none]) = some s ∧ s.todo = [] ∧ s.result = .ok () ∧
          scp.read (stream s.log) =
            some ([.file 0 (ascii "a"), .data 0 [], .file 0 (ascii "evil"), .data 0 []], []) :=
      ⟨_, rfl, rfl, rfl, by decide⟩
    exact ⟨s, ⟨_, _, rfl, LTS.run_ofFn.mpr hs⟩, htodo, hok, hread, by decide⟩

end Wstunnel.L4.ScpUpload
