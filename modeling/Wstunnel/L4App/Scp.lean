import Wstunnel.Core.LTS
import Wstunnel.Core.Str
import Wstunnel.Core.UnixPath
import Wstunnel.Core.Utf8

/-!
# `scp_download`: a state machine driven by the remote side

The download loop of `protocols/ssh/scp.rs` as a machine that waits for one
channel message at a time: in the header loop, inside the body of a file
(`download_file_data`), or for the status byte after it. Every message is
chosen by the remote party; every operation on the channel or on the file
system may fail (`io`).

The names in `C` and `D` records are joined to the current directory as
they come.

**Third-party code.** The messages of `russh` are the input, in any order and of any
size; nothing is assumed of the remote side. The file system answers as it likes
(`Io`), depending on all that was done before; a path is what `Core.UnixPath` says,
without symbolic links.

**Results.**
* `download_contained`: as long as every such name is relative and has no `..`
  component, everything created lies strictly under the local directory.
* `absoluteName_escapes`: an absolute name is created where it says.
-/
namespace Wstunnel.L4.Scp

open UnixPath

abbrev Bytes := List UInt8

/-- `russh::ChannelMsg`, as far as the loop tells messages apart. -/
inductive ChannelMsg where
  | data (bytes : Bytes)
  | eof
  | close
  | other
  deriving DecidableEq, Repr

/-- What the download does to the channel and to the file system.
`createDirAll` records the directories that were missing. -/
inductive Effect where
  | exec (cmd : String)
  | send (bytes : Bytes)
  | createDirAll (dest : Path) (missing : List Comps)
  | createFile (dest : Path)
  | writeAll (bytes : Bytes)
  | flush
  | sendEof
  deriving DecidableEq, Repr

/-- Why a download fails. -/
inductive ScpError where
  /-- an operation on the channel or on the file system -/
  | failed (effect : Effect) (err : String)
  /-- "invalid utf-8 in scp header" -/
  | invalidUtf8
  /-- "malformed scp header: ..." -/
  | malformedHeader (line : Bytes)
  /-- "invalid size in scp header" -/
  | invalidSize
  /-- "scp error: ..." -/
  | remote (msg : Bytes)
  /-- "unexpected scp header byte: 0x.." -/
  | unexpectedByte (b : UInt8)
  /-- "channel closed during file transfer" -/
  | closedDuringTransfer
  deriving DecidableEq, Repr

/-- Where the function waits for a message. -/
inductive Phase where
  | header
  | body (remaining : Nat)
  | trailer
  | finished
  | failed (err : ScpError)
  deriving DecidableEq, Repr

/-- `dir_stack` is never empty: `top` is its last element and `below` the
others, innermost first. `dirs` are the directories known to exist. -/
structure State where
  top : Path
  below : List Path
  buf : Bytes
  phase : Phase
  dirs : List Comps
  log : List Effect
  deriving DecidableEq, Repr

/-- mirrors wstunnel/src/protocols/ssh/scp.rs:281-292 -/
def parseCHeader (buf : Bytes) : Except ScpError (Nat × Bytes) :=
  match Utf8.decode buf with
  | none => .error .invalidUtf8
  | some _ =>
    let line := Str.trimEndMatches 10 buf
    match Str.splitn 32 2 (line.drop 1) with
    | [_, size, name] =>
      match Str.parseUnsigned 64 (size.map fun b => Char.ofNat b.toNat) with
      | some size => .ok (size, name)
      | none => .error .invalidSize
    | _ => .error (.malformedHeader line)

/-- What an operation answers after the effects so far: `none`, or its error. -/
abbrev Io := List Effect → Effect → Option String

variable (io : Io)

def State.fail (s : State) (err : ScpError) : State := { s with phase := .failed err }

/-- Have the effect, and go on unless it fails. -/
def State.perform (s : State) (e : Effect) (next : State → State) : State :=
  let s' := { s with log := s.log ++ [e] }
  match io s.log e with
  | none => next s'
  | some err => s'.fail (.failed e err)

/-- From the status byte to the end of the `C` arm. -/
def endFile (s : State) : State :=
  let s := { s with buf := if s.buf.head? = some 0 then s.buf.tail else s.buf }
  s.perform io (.send [0]) fun s => { s with buf := [], phase := .header }

/-- After the loop of `download_file_data`. -/
def afterBody (s : State) : State :=
  s.perform io .flush fun s =>
    if s.buf = [] then { s with phase := .trailer } else endFile io s

/-- A directory: the root, the empty path, or one known to exist. -/
def isDir (dirs : List Comps) (c : Comps) : Bool := c.names = [] ∨ c ∈ dirs

/-- `download_file_data` up to its first wait; `File::create` fails on a directory. -/
def startFile (s : State) (dest : Path) (size : Nat) : State :=
  if isDir s.dirs (comps dest) then s.fail (.failed (.createFile dest) "Is a directory")
  else s.perform io (.createFile dest) fun s =>
    if size = 0 then afterBody io s else { s with phase := .body size }

/-- One round of the loop of `download_file_data`. -/
def onBody (s : State) (remaining : Nat) (bytes : Bytes) : State :=
  let take := min remaining bytes.length
  s.perform io (.writeAll (bytes.take take)) fun s =>
    let s := { s with buf := bytes.drop take }
    if remaining - take = 0 then afterBody io s else { s with phase := .body (remaining - take) }

/-- The directories of `dest` that `create_dir_all` has to create. -/
def missing (dirs : List Comps) (dest : Path) : List Comps :=
  (lineage (comps dest)).filter (· ∉ dirs)

/-- The `D` arm. -/
def enterDir (s : State) (name : Bytes) : State :=
  let dest := join s.top name
  let created := missing s.dirs dest
  s.perform io (.createDirAll dest created) fun s =>
    let s := { s with top := dest, below := s.top :: s.below, dirs := s.dirs ++ created }
    s.perform io (.send [0]) id

/-- `if dir_stack.len() > 1 { dir_stack.pop(); }` -/
def leaveDir (s : State) : State :=
  match s.below with
  | d :: ds => { s with top := d, below := ds }
  | [] => s

/-- One round of the header loop, on a buffer that holds a message. -/
def onHeader (s : State) : State :=
  match s.buf with
  | [] => s
  | b :: rest =>
    if b = 67 then match parseCHeader s.buf with
      | .error err => s.fail err
      | .ok (size, name) =>
        { s with buf := [] }.perform io (.send [0]) fun s => startFile io s (join s.top name) size
    else if b = 68 then match parseCHeader s.buf with
      | .error err => s.fail err
      | .ok (_, name) => enterDir io { s with buf := [] } name
    else if b = 69 then (leaveDir { s with buf := [] }).perform io (.send [0]) id
    else if b = 1 then { s with buf := [] }.perform io (.send [0]) id
    else if b = 2 then s.fail (.remote rest)
    else s.fail (.unexpectedByte b)

def onData (s : State) (bytes : Bytes) : State :=
  match s.phase with
  | .header => onHeader io { s with buf := s.buf ++ bytes }
  | .body remaining => onBody io s remaining bytes
  | .trailer => endFile io { s with buf := s.buf ++ bytes }
  | .finished | .failed _ => s

/-- `Eof`, `Close`, or no more messages: `recv_data` returns `false`. -/
def onEnd (s : State) : State :=
  match s.phase with
  | .header => s.perform io .sendEof fun s => { s with phase := .finished }
  | .body _ => s.fail .closedDuringTransfer
  | .trailer => endFile io s
  | .finished | .failed _ => s

/-- One answer of `channel.wait()`.
mirrors wstunnel/src/protocols/ssh/scp.rs:101-113 and 220-333 -/
def step (s : State) (msg : Option ChannelMsg) : Option State :=
  match s.phase with
  | .finished | .failed _ => none
  | _ => match msg with
    | some (.data bytes) => some (onData io s bytes)
    | some .other => some s
    | some .eof | some .close | none => some (onEnd io s)

def command (recursive : Bool) (remote : String) : String :=
  if recursive then "scp -r -f " ++ remote else "scp -f " ++ remote

/-- Before the first message. mirrors wstunnel/src/protocols/ssh/scp.rs:200-218 -/
def start (dest : Path) (recursive : Bool) (remote : String) (dirs : List Comps) : State where
  top := dest
  below := []
  buf := []
  phase := .header
  dirs := dirs
  log := [.exec (command recursive remote), .send [0]]

/-- The download into an existing directory `dest`. -/
def download (dest : Path) (recursive : Bool) (remote : String) : LTS State (Option ChannelMsg) :=
  LTS.ofFn
    (fun s => ∃ dirs, (∀ a ∈ lineage (comps dest), a ∈ dirs) ∧ s = start dest recursive remote dirs)
    (step io)

/-! ## Containment -/

/-- The files and directories an effect creates. -/
def Effect.created : Effect → List Comps
  | .createDirAll _ missing => missing
  | .createFile dest => [comps dest]
  | _ => []

/-- Everything created so far lies strictly under `dest`. -/
def Contained (dest : Path) (s : State) : Prop :=
  ∀ e ∈ s.log, ∀ p ∈ e.created, StrictlyUnder (comps dest) p

/-- The name in the `C` or `D` record that the message completes. -/
def recordName (s : State) : Option ChannelMsg → Option Bytes
  | some (.data bytes) =>
    let buf := s.buf ++ bytes
    if s.phase = .header ∧ (buf.head? = some 67 ∨ buf.head? = some 68) then
      match parseCHeader buf with
      | .ok (_, name) => some name
      | .error _ => none
    else none
  | _ => none

/-- A name that stays where it is put: relative, and without `..`. -/
structure PlainName (name : Path) : Prop where
  relative : isAbsolute name = false
  noUps : NoUps (components name)

/-- A directory of the stack: `dest` with names without `..` after it, known
to exist with its ancestors. -/
structure Inside (dest : Path) (dirs : List Comps) (d : Path) : Prop where
  rooted : (comps d).rooted = (comps dest).rooted
  names : ∃ more, (comps d).names = (comps dest).names ++ more ∧ NoUps more
  known : ∀ a ∈ lineage (comps d), a ∈ dirs

structure Inv (dest : Path) (s : State) : Prop where
  top : Inside dest s.dirs s.top
  below : ∀ d ∈ s.below, Inside dest s.dirs d
  contained : Contained dest s

variable {io} {dest : Path} {s : State}

theorem noUps_append {a b : List Path} (ha : NoUps a) (hb : NoUps b) : NoUps (a ++ b) := by
  intro s hs
  rcases List.mem_append.mp hs with h | h
  · exact ha s h
  · exact hb s h

theorem Inside.mono {dirs dirs' : List Comps} {d : Path} (h : Inside dest dirs d)
    (hd : ∀ a ∈ dirs, a ∈ dirs') : Inside dest dirs' d :=
  ⟨h.rooted, h.names, fun a ha => hd a (h.known a ha)⟩

theorem Inside.isDir {dirs : List Comps} {d : Path} (h : Inside dest dirs d) :
    isDir dirs (comps d) = true := by
  unfold Scp.isDir
  by_cases hn : (comps d).names = []
  · simp [hn]
  · simp [h.known (comps d) (mem_lineage.mpr ⟨rfl, hn, List.prefix_rfl⟩)]

/-- A plain name below a directory of the stack, cut anywhere after its first
component, is strictly under `dest`. -/
theorem Inside.strictlyUnder {dirs : List Comps} {d : Path} (h : Inside dest dirs d)
    {more : List Path} (hne : more ≠ []) (hno : NoUps more) :
    StrictlyUnder (comps dest) ⟨(comps d).rooted, (comps d).names ++ more⟩ := by
  obtain ⟨k, hk, hkno⟩ := h.names
  refine strictlyUnder_of_append (k ++ more) h.rooted ?_ (by simp [hne]) (noUps_append hkno hno)
  rw [hk, List.append_assoc]

/-! ### Each step keeps the invariant -/

/-- An effect that creates only below `dest` keeps the invariant, whether or
not it succeeds. -/
theorem perform_inv {e : Effect} {next : State → State} (h : Inv dest s)
    (he : ∀ p ∈ e.created, StrictlyUnder (comps dest) p)
    (hnext : Inv dest { s with log := s.log ++ [e] } → Inv dest (next { s with log := s.log ++ [e] })) :
    Inv dest (s.perform io e next) := by
  have h' : Inv dest { s with log := s.log ++ [e] } := by
    refine ⟨h.top, h.below, fun e' he' => ?_⟩
    rcases List.mem_append.mp he' with hm | hm
    · exact h.contained e' hm
    · rw [List.mem_singleton.mp hm]; exact he
  unfold State.perform
  dsimp only
  split
  · exact hnext h'
  · exact ⟨h'.top, h'.below, h'.contained⟩

/-- An effect that creates nothing. -/
theorem perform_inv_of_nil {e : Effect} {next : State → State} (h : Inv dest s) (he : e.created = [])
    (hnext : Inv dest { s with log := s.log ++ [e] } → Inv dest (next { s with log := s.log ++ [e] })) :
    Inv dest (s.perform io e next) :=
  perform_inv h (by simp [he]) hnext

theorem fail_inv (h : Inv dest s) (err : ScpError) : Inv dest (s.fail err) :=
  ⟨h.top, h.below, h.contained⟩

theorem endFile_inv (h : Inv dest s) : Inv dest (endFile io s) := by
  unfold endFile
  exact perform_inv_of_nil ⟨h.top, h.below, h.contained⟩ rfl fun h => ⟨h.top, h.below, h.contained⟩

theorem afterBody_inv (h : Inv dest s) : Inv dest (afterBody io s) := by
  unfold afterBody
  refine perform_inv_of_nil h rfl fun h => ?_
  split
  · exact ⟨h.top, h.below, h.contained⟩
  · exact endFile_inv h

theorem startFile_inv (h : Inv dest s) {name : Bytes} (hn : PlainName name) (size : Nat) :
    Inv dest (startFile io s (join s.top name) size) := by
  unfold startFile
  split
  · exact fail_inv h _
  · rename_i hdir
    refine perform_inv h ?_ fun h => ?_
    · intro p hp
      rw [List.mem_singleton.mp hp, comps_join _ hn.relative]
      refine h.top.strictlyUnder (fun hc => hdir ?_) hn.noUps
      -- a name without components is the directory itself
      rw [comps_join _ hn.relative, hc, List.append_nil]
      exact h.top.isDir
    · split
      · exact afterBody_inv h
      · exact ⟨h.top, h.below, h.contained⟩

theorem onBody_inv (h : Inv dest s) (remaining : Nat) (bytes : Bytes) :
    Inv dest (onBody io s remaining bytes) := by
  unfold onBody
  refine perform_inv_of_nil h rfl fun h => ?_
  dsimp only
  split
  · exact afterBody_inv ⟨h.top, h.below, h.contained⟩
  · exact ⟨h.top, h.below, h.contained⟩

theorem enterDir_inv (h : Inv dest s) {name : Bytes} (hn : PlainName name) :
    Inv dest (enterDir io s name) := by
  have hcomps := comps_join s.top hn.relative
  have hinside : Inside dest (s.dirs ++ missing s.dirs (join s.top name)) (join s.top name) := by
    obtain ⟨k, hk, hkno⟩ := h.top.names
    refine ⟨by rw [hcomps]; exact h.top.rooted, ⟨k ++ components name, ?_, noUps_append hkno hn.noUps⟩, ?_⟩
    · rw [hcomps, hk, List.append_assoc]
    · intro a ha
      by_cases hd : a ∈ s.dirs
      · exact List.mem_append_left _ hd
      · exact List.mem_append_right _ (List.mem_filter.mpr ⟨ha, by simpa using hd⟩)
  unfold enterDir
  refine perform_inv h ?_ fun h' => ?_
  · -- what was missing is the new name, cut after one of its components
    intro p hp
    obtain ⟨hl, hnot⟩ := List.mem_filter.mp hp
    rw [hcomps] at hl
    rcases mem_lineage_append hl with hl | ⟨more, hne, hpre, rfl⟩
    · exact absurd (h.top.known p hl) (by simpa using hnot)
    · exact h.top.strictlyUnder hne fun s hs => hn.noUps s (hpre.subset hs)
  · have hmono : ∀ a ∈ s.dirs, a ∈ s.dirs ++ missing s.dirs (join s.top name) := fun a ha =>
      List.mem_append_left _ ha
    refine perform_inv_of_nil ⟨hinside, fun d hd => ?_, h'.contained⟩ rfl id
    rcases List.mem_cons.mp hd with rfl | hd
    · exact h.top.mono hmono
    · exact (h.below d hd).mono hmono

theorem leaveDir_inv (h : Inv dest s) : Inv dest (leaveDir s) := by
  unfold leaveDir
  split
  · rename_i d ds hb
    have hbelow := h.below
    rw [hb] at hbelow
    exact ⟨hbelow d (by simp), fun d' hd' => hbelow d' (by simp [hd']), h.contained⟩
  · exact h

theorem recordName_data {bytes : Bytes} {b : UInt8} {rest : Bytes} {size : Nat} {name : Bytes}
    (hph : s.phase = .header) (hbuf : s.buf ++ bytes = b :: rest) (hb : b = 67 ∨ b = 68)
    (hp : parseCHeader (s.buf ++ bytes) = .ok (size, name)) :
    recordName s (some (.data bytes)) = some name := by
  unfold recordName
  dsimp only
  rw [if_pos ⟨hph, by rw [hbuf]; rcases hb with rfl | rfl <;> simp⟩, hp]

theorem onHeader_inv (h : Inv dest s) (bytes : Bytes) (hph : s.phase = .header)
    (hn : ∀ name, recordName s (some (.data bytes)) = some name → PlainName name) :
    Inv dest (onHeader io { s with buf := s.buf ++ bytes }) := by
  have hs (buf : Bytes) : Inv dest { s with buf } := ⟨h.top, h.below, h.contained⟩
  unfold onHeader
  dsimp only
  split
  · exact hs _
  · rename_i b rest hbuf
    split
    · rename_i hC
      split
      · exact fail_inv (hs _) _
      · rename_i size name hp
        have hname := hn name (recordName_data hph hbuf (.inl hC) hp)
        exact perform_inv_of_nil (hs []) rfl fun h => startFile_inv h hname size
    split
    · rename_i hD
      split
      · exact fail_inv (hs _) _
      · rename_i size name hp
        have hname := hn name (recordName_data hph hbuf (.inr hD) hp)
        exact enterDir_inv (hs []) hname
    split
    · exact perform_inv_of_nil (leaveDir_inv (hs [])) rfl id
    split
    · exact perform_inv_of_nil (hs []) rfl id
    split
    · exact fail_inv (hs _) _
    · exact fail_inv (hs _) _

theorem step_inv {s' : State} {msg : Option ChannelMsg} (h : Inv dest s)
    (hn : ∀ name, recordName s msg = some name → PlainName name)
    (hs : step io s msg = some s') : Inv dest s' := by
  have hdata (bytes : Bytes) (hm : msg = some (.data bytes)) : Inv dest (onData io s bytes) := by
    subst hm
    unfold onData
    split
    · rename_i hph; exact onHeader_inv h bytes hph hn
    · exact onBody_inv h _ bytes
    · exact endFile_inv ⟨h.top, h.below, h.contained⟩
    · exact h
    · exact h
  have hend : Inv dest (onEnd io s) := by
    unfold onEnd
    split
    · exact perform_inv_of_nil h rfl fun h => ⟨h.top, h.below, h.contained⟩
    · exact fail_inv h _
    · exact endFile_inv h
    · exact h
    · exact h
  unfold step at hs
  split at hs
  · cases hs
  · cases hs
  · split at hs <;> cases hs
    · exact hdata _ rfl
    · exact h
    · exact hend
    · exact hend
    · exact hend

/-- The condition on a step: a record that comes in names something plain. -/
def NamesPlain (s : State) (msg : Option ChannelMsg) : Prop :=
  ∀ name, recordName s msg = some name → PlainName name

theorem inv_inductive (io : Io) (dest : Path) (recursive : Bool) (remote : String) :
    ((download io dest recursive remote).guard NamesPlain).Inductive (Inv dest) where
  init := by
    rintro s ⟨dirs, hdirs, rfl⟩
    refine ⟨⟨rfl, ⟨[], by simp [start], by simp [NoUps]⟩, hdirs⟩, by simp [start], fun e he p hp => ?_⟩
    simp only [start, List.mem_cons, List.not_mem_nil, or_false] at he
    rcases he with rfl | rfl <;> cases hp
  step _ _ _ h hs := step_inv h hs.2 hs.1

/-- **Containment.** In every run of a download into an existing directory
in which every `C` and `D` record has a relative name without `..`, every
file and directory created in any state reached lies strictly under that
directory. -/
theorem download_contained (io : Io) (dest : Path) (recursive : Bool) (remote : String) (s : State)
    (hr : ((download io dest recursive remote).guard NamesPlain).Reachable s) : Contained dest s :=
  ((inv_inductive io dest recursive remote).reachable s hr).contained

/-! ### Two downloads into `/home/u` -/

/-- ASCII text as bytes. -/
def ascii (text : String) : Bytes := text.toList.map fun c => UInt8.ofNat c.toNat

/-- The state before the first message, nothing but `/home/u` known. -/
def startHome : State :=
  start (ascii "/home/u") false "notes" [⟨true, [ascii "home"]⟩, ⟨true, [ascii "home", ascii "u"]⟩]

/-- File system and channel without failures. -/
def noFailure : Io := fun _ _ => none

def recordMsg (text : String) : Option ChannelMsg := some (.data (ascii text))

theorem startHome_init (io : Io) : (download io (ascii "/home/u") false "notes").init startHome :=
  ⟨_, by decide, rfl⟩

/-- The file of a plain record is created, and inside. -/
theorem download_contained_plain :
    ∃ s, ((download noFailure (ascii "/home/u") false "notes").guard NamesPlain).Reachable s ∧
      Effect.createFile (ascii "/home/u/notes") ∈ s.log ∧ Contained (ascii "/home/u") s := by
  obtain ⟨s, hs, hlog⟩ : ∃ s, step noFailure startHome (recordMsg "C0644 5 notes\n") = some s ∧
      Effect.createFile (ascii "/home/u/notes") ∈ s.log := ⟨_, rfl, by decide⟩
  have hplain : NamesPlain startHome (recordMsg "C0644 5 notes\n") := by
    intro name hname
    have : recordName startHome (recordMsg "C0644 5 notes\n") = some (ascii "notes") := by decide
    obtain rfl := Option.some.inj (this.symm.trans hname)
    exact ⟨by decide, by unfold NoUps; decide⟩
  have hr : ((download noFailure (ascii "/home/u") false "notes").guard NamesPlain).Reachable s :=
    ⟨startHome, _, startHome_init noFailure, .single ⟨hs, hplain⟩⟩
  exact ⟨s, hr, hlog, download_contained _ _ _ _ s hr⟩

/-- A record with an absolute name creates that file. -/
theorem absoluteName_escapes :
    ∃ s, (download noFailure (ascii "/home/u") false "notes").Reachable s ∧
      Effect.createFile (ascii "/etc/passwd") ∈ s.log ∧ ¬ Contained (ascii "/home/u") s := by
  obtain ⟨s, hs, hlog⟩ : ∃ s, step noFailure startHome (recordMsg "C0644 5 /etc/passwd\n") = some s ∧
      Effect.createFile (ascii "/etc/passwd") ∈ s.log := ⟨_, rfl, by decide⟩
  refine ⟨s, ⟨startHome, _, startHome_init _, .single hs⟩, hlog, fun h => ?_⟩
  obtain ⟨below, hne, he⟩ := h _ hlog _ (List.mem_singleton.mpr rfl)
  have hnames : [ascii "passwd", ascii "etc"] = below ++ [ascii "u", ascii "home"] :=
    (show (resolve (comps (ascii "/etc/passwd"))).names = _ by decide).symm.trans
      ((congrArg Resolved.names he).trans (congrArg (below ++ ·) (by decide)))
  cases below with
  | nil => exact hne rfl
  | cons b bs => simpa using congrArg List.length hnames

end Wstunnel.L4.Scp
