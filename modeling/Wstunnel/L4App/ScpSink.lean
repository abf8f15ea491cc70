import Wstunnel.L4App.ScpPackets
import Wstunnel.L4App.ScpUpload

/-!
# What `scp_download` makes of the records of `scp_upload`

One message at a time, with nothing on the file system or the channel
failing: a `C` record opens the file (`sink_announce`), its data arrives in
any number of non-empty messages (`sink_pieces`), the zero byte closes it
(`sink_fileEnd`); a `D` record enters a directory (`sink_enter`), an `E`
record leaves it (`sink_leave`). `built` reads off the log what was created.

**Third-party code.** A message of `russh` holds one record or a part of the data of a
file, which is more than SSH promises; the module is about what the sink does when it
is so, and `ScpPackets` about what it does otherwise.
-/
namespace Wstunnel.L4.ScpTransfer

open UnixPath
open Scp (Bytes ChannelMsg Effect ascii noFailure acks AtHeader)
open ScpUpload (Sent decimal)

/-- A name that a record can carry. -/
structure TextName extends EntryName where
  utf8 : (Utf8.decode bytes).isSome
  noNewline : 10 ∉ bytes
  deriving DecidableEq, Repr

/-- What the sink creates. -/
inductive Item where
  | dir (path : Path)
  | file (path : Path) (data : Bytes)
  deriving DecidableEq, Repr

def Item.path : Item → Path
  | .dir path | .file path _ => path

def build (items : List Item) : Effect → List Item
  | .createDirAll dest _ => .dir dest :: items
  | .createFile dest => .file dest [] :: items
  | .writeAll bytes => match items with
    | .file path data :: older => .file path (data ++ bytes) :: older
    | _ => items
  | _ => items

/-- What was created so far, newest first, with what was written to it. -/
def built (log : List Effect) : List Item := log.foldl build []

/-! ## Reading a header -/

theorem TextName.lossy (name : TextName) : Utf8.lossy name.bytes = name.bytes := by
  obtain ⟨cs, h⟩ := Option.isSome_iff_exists.mp name.utf8
  exact Utf8.lossy_of_decode h

theorem decode_header (front : Bytes) (hf : ∀ b ∈ front, b < 0x80) (name : TextName) :
    ∃ cs, Utf8.decode (front ++ name.bytes ++ [10]) = some cs := by
  obtain ⟨front', hf⟩ := Utf8.decode_of_ascii hf
  obtain ⟨name', hn⟩ := Option.isSome_iff_exists.mp name.utf8
  obtain ⟨nl, hl⟩ : ∃ cs, Utf8.decode [10] = some cs := ⟨_, rfl⟩
  exact ⟨_, Utf8.decode_append (Utf8.decode_append hf hn) hl⟩

theorem lt_of_mem_decimal {n : Nat} {b : UInt8} (h : b ∈ decimal n) : b < 0x80 := by
  have := (ScpUpload.toNat_of_mem_decimal h).2
  exact UInt8.lt_iff_toNat_lt.mpr (by simp; omega)

theorem lt_of_mem_ascii {text : String} (h : (ascii text).all (· < 0x80) = true) {b : UInt8}
    (hb : b ∈ ascii text) : b < 0x80 := by
  simpa using List.all_eq_true.mp h b hb

theorem parseCHeader_file (path : Path) (size : UInt64) (name : TextName) :
    Scp.parseCHeader (Sent.fileHeader path size name.bytes).bytes = .ok (size.toNat, name.bytes) := by
  have hbytes : (Sent.fileHeader path size name.bytes).bytes =
      (ascii "C0644 " ++ decimal size.toNat ++ [32]) ++ name.bytes ++ [10] := by simp [Sent.bytes]
  have hfront : ∀ b ∈ ascii "C0644 " ++ decimal size.toNat ++ [32], b < 0x80 := by
    intro b hb
    simp only [List.mem_append] at hb
    rcases hb with (hb | hb) | hb
    · exact lt_of_mem_ascii (by decide) hb
    · exact lt_of_mem_decimal hb
    · rw [List.mem_singleton.mp hb]; decide
  have hline : 10 ∉ (ascii "C0644 " ++ decimal size.toNat ++ [32]) ++ name.bytes := by
    have hmode : 10 ∉ ascii "C0644 " := by decide
    have hsize : 10 ∉ decimal size.toNat := ScpUpload.not_mem_decimal (by decide)
    simp [hmode, hsize, name.noNewline]
  have hfields : ((ascii "C0644 " ++ decimal size.toNat ++ [32]) ++ name.bytes).drop 1 =
      ascii "0644 " ++ decimal size.toNat ++ 32 :: name.bytes := by
    rw [show ascii "C0644 " = 67 :: ascii "0644 " from by decide]
    simp
  obtain ⟨cs, hdec⟩ := decode_header _ hfront name
  rw [hbytes]
  unfold Scp.parseCHeader
  rw [hdec]
  dsimp only
  rw [Str.trimEndMatches_append hline, hfields, ScpUpload.splitn_fileHeader]
  dsimp only
  rw [ScpUpload.parseUnsigned_decimal]

theorem parseCHeader_dir (path : Path) (name : TextName) :
    Scp.parseCHeader (Sent.dirHeader path name.bytes).bytes = .ok (0, name.bytes) := by
  have hline : 10 ∉ ascii "D0755 0 " ++ name.bytes := by
    have hmode : 10 ∉ ascii "D0755 0 " := by decide
    simp [hmode, name.noNewline]
  have hfields : (ascii "D0755 0 " ++ name.bytes).drop 1 = ascii "0755 0 " ++ name.bytes := by
    rw [show ascii "D0755 0 " = 68 :: ascii "0755 0 " from by decide]
    rfl
  obtain ⟨cs, hdec⟩ := decode_header (ascii "D0755 0 ") (fun _ hb => lt_of_mem_ascii (by decide) hb) name
  unfold Scp.parseCHeader Sent.bytes
  rw [hdec]
  dsimp only
  rw [Str.trimEndMatches_append hline, hfields, ScpUpload.splitn_dirHeader]
  rfl

/-! ## One message after another -/

section Sink

variable {s : Scp.State}

/-- A message with these bytes. -/
abbrev packet (bytes : Bytes) : Option ChannelMsg := some (.data bytes)

theorem step_header (h : AtHeader s) (bytes : Bytes) :
    Scp.step noFailure s (packet bytes) = some (Scp.onHeader noFailure { s with buf := bytes }) := by
  simp [Scp.step, Scp.onData, h.phase, h.buf]

/-- The sink after a `C` record; an empty file is complete at once. -/
def announced (s : Scp.State) (dest : Path) (size : Nat) : Scp.State :=
  if size = 0 then
    { s with buf := [], phase := .trailer, log := s.log ++ [.send [0], .createFile dest, .flush] }
  else { s with buf := [], phase := .body size, log := s.log ++ [.send [0], .createFile dest] }

theorem sink_announce (h : AtHeader s) (path : Path) (size : UInt64) (name : TextName)
    (hfree : Scp.isDir s.dirs (comps (join s.top name.bytes)) = false) :
    Scp.step noFailure s (packet (Sent.fileHeader path size name.bytes).bytes) =
      some (announced s (join s.top name.bytes) size.toNat) := by
  have hparse := parseCHeader_file path size name
  obtain ⟨rest, hbytes⟩ : ∃ rest, (Sent.fileHeader path size name.bytes).bytes = 67 :: rest := ⟨_, rfl⟩
  rw [step_header h]
  unfold Scp.onHeader
  dsimp only
  rw [hbytes] at hparse ⊢
  dsimp only
  rw [if_pos rfl, hparse]
  dsimp only
  rw [Scp.perform_noFailure]
  unfold Scp.startFile announced
  dsimp only
  rw [if_neg (by simp [hfree]), Scp.perform_noFailure]
  split
  · simp [Scp.afterBody, Scp.perform_noFailure]
  · simp

/-- Data up to the announced size, however it is cut. -/
theorem exec_body {pieces : List Bytes} (hne : [] ∉ pieces) {remaining : Nat}
    (hph : s.phase = .body remaining) (hbuf : s.buf = []) (hlen : pieces.flatten.length = remaining)
    (hpos : 0 < remaining) :
    LTS.exec (Scp.step noFailure) s (pieces.map packet) =
      some { s with phase := .trailer, log := s.log ++ pieces.map .writeAll ++ [.flush] } := by
  induction pieces generalizing s remaining with
  | nil => simp at hlen; omega
  | cons bytes pieces ih =>
    rw [List.flatten_cons, List.length_append] at hlen
    have hmin : min remaining bytes.length = bytes.length := by omega
    have hstep : Scp.step noFailure s (packet bytes) = some (Scp.onBody noFailure s remaining bytes) := by
      simp [Scp.step, Scp.onData, hph]
    rw [List.map_cons, LTS.exec, hstep, Option.bind_some]
    unfold Scp.onBody
    rw [Scp.perform_noFailure, hmin, List.take_length, List.drop_length]
    dsimp only
    by_cases hlast : remaining - bytes.length = 0
    · -- no data is left for another message
      obtain rfl : pieces = [] := by
        cases pieces with
        | nil => rfl
        | cons piece pieces =>
          have : piece ≠ [] := fun e => hne (by simp [e])
          have := List.length_pos_iff.mpr this
          simp only [List.flatten_cons, List.length_append] at hlen
          omega
      rw [if_pos hlast]
      simp [LTS.exec, Scp.afterBody, Scp.perform_noFailure, hbuf]
    · rw [if_neg hlast, ih (fun hm => hne (List.mem_cons_of_mem _ hm)) rfl rfl (by omega) (by omega)]
      simp [hbuf]

/-- The sink when all the data has arrived, in `pieces`. -/
def filled (s : Scp.State) (dest : Path) (pieces : List Bytes) : Scp.State :=
  { s with
    buf := []
    phase := .trailer
    log := s.log ++ [.send [0], .createFile dest] ++ pieces.map .writeAll ++ [.flush] }

theorem sink_pieces (s : Scp.State) (dest : Path) {pieces : List Bytes} (hne : [] ∉ pieces) :
    LTS.exec (Scp.step noFailure) (announced s dest pieces.flatten.length) (pieces.map packet) =
      some (filled s dest pieces) := by
  by_cases hz : pieces.flatten.length = 0
  · obtain rfl : pieces = [] := by
      refine List.eq_nil_iff_forall_not_mem.mpr fun piece hp => ?_
      have hnil := List.flatten_eq_nil_iff.mp (List.length_eq_zero_iff.mp hz) piece hp
      exact hne (hnil ▸ hp)
    simp [LTS.exec, announced, filled]
  · unfold announced
    rw [if_neg hz, exec_body hne rfl rfl rfl (by omega)]
    rfl

/-- The sink after the zero byte. -/
def received (s : Scp.State) (dest : Path) (pieces : List Bytes) : Scp.State :=
  { filled s dest pieces with phase := .header, log := (filled s dest pieces).log ++ [.send [0]] }

theorem sink_fileEnd (s : Scp.State) (dest : Path) (pieces : List Bytes) :
    Scp.step noFailure (filled s dest pieces) (packet [0]) = some (received s dest pieces) := by
  simp [Scp.step, Scp.onData, Scp.endFile, filled, received, Scp.perform_noFailure]

theorem sink_enter (h : AtHeader s) (path : Path) (name : TextName) :
    Scp.step noFailure s (packet (Sent.dirHeader path name.bytes).bytes) =
      some { s with buf := [], top := join s.top name.bytes, below := s.top :: s.below,
                    dirs := s.dirs ++ Scp.missing s.dirs (join s.top name.bytes),
                    log := s.log ++ [.createDirAll (join s.top name.bytes)
                      (Scp.missing s.dirs (join s.top name.bytes)), .send [0]] } := by
  have hparse := parseCHeader_dir path name
  obtain ⟨rest, hbytes⟩ : ∃ rest, (Sent.dirHeader path name.bytes).bytes = 68 :: rest := ⟨_, rfl⟩
  rw [step_header h]
  unfold Scp.onHeader
  dsimp only
  rw [hbytes] at hparse ⊢
  dsimp only
  rw [if_neg (by decide), if_pos rfl, hparse]
  simp [Scp.enterDir, Scp.perform_noFailure]

theorem sink_leave (h : AtHeader s) {dir : Path} {below : List Path} (hb : s.below = dir :: below) (path : Path) :
    Scp.step noFailure s (packet (Sent.endDir path).bytes) =
      some { s with buf := [], top := dir, below := below, log := s.log ++ [.send [0]] } := by
  rw [step_header h]
  have hbytes : (Sent.endDir path).bytes = [69, 10] := rfl
  rw [hbytes]
  simp [Scp.onHeader, Scp.leaveDir, hb, Scp.perform_noFailure]

theorem sink_eof (h : AtHeader s) :
    Scp.step noFailure s (some .eof) = some { s with phase := .finished, log := s.log ++ [.sendEof] } := by
  simp [Scp.step, Scp.onEnd, h.phase, Scp.perform_noFailure]

end Sink

/-! ## What the log says -/

theorem built_append (log log' : List Effect) : built (log ++ log') = log'.foldl build (built log) :=
  List.foldl_append

theorem foldl_build_writes (path : Path) (data : Bytes) (older : List Item) (pieces : List Bytes) :
    (pieces.map Effect.writeAll).foldl build (.file path data :: older) =
      .file path (data ++ pieces.flatten) :: older := by
  induction pieces generalizing data with
  | nil => simp
  | cons bytes pieces ih =>
    rw [List.map_cons, List.foldl_cons]
    exact (ih (data ++ bytes)).trans (by simp)

theorem acks_announced (s : Scp.State) (dest : Path) (size : Nat) :
    acks (announced s dest size).log = acks s.log ++ [[0]] := by
  unfold announced
  split <;> exact Scp.acks_append _ _

theorem acks_filled (s : Scp.State) (dest : Path) (pieces : List Bytes) :
    acks (filled s dest pieces).log = acks s.log ++ [[0]] := by
  have hw : acks (pieces.map .writeAll) = [] := by
    rw [acks, List.filterMap_map]
    exact List.filterMap_eq_nil_iff.mpr fun _ _ => rfl
  rw [filled, Scp.acks_append, Scp.acks_append, Scp.acks_append, hw]
  simp [acks, Scp.Effect.sent]

theorem acks_received (s : Scp.State) (dest : Path) (pieces : List Bytes) :
    acks (received s dest pieces).log = acks (filled s dest pieces).log ++ [[0]] :=
  Scp.acks_append _ _

end Wstunnel.L4.ScpTransfer
