import Wstunnel.L4App.ScpTransfer

/-!
# A tree sent by `scp_upload` to `scp_download`

The walk over a tree is taken by the sink one item after another: `After`
says what the sink has created and that it is back in the directory it was
in, and `good_file`, `good_dir` and `good_entries` follow the walk, each with
what comes after it as a continuation.

**Third-party code.** Of `russh` it is assumed here that control records arrive as one
message each (`ScpTransfer`), and of both file systems that nothing fails and that
what is created was not there before. `ScpPackets` and `ScpRecords` say what happens
otherwise.

**Results.**
* `halves_agree`: for every tree of sendable names without two entries of one
  name, sent into an existing directory, at most one acknowledgement is ever
  under way, every run is finite, and a run that cannot go on has ended with
  both sides successful and the tree recreated.
-/
namespace Wstunnel.L4.ScpTransfer

open UnixPath
open Scp (Bytes ChannelMsg Effect ascii noFailure acks AtHeader)
open ScpUpload (Op File Entries Local uploadEntries scpUpload)

/-! ## The tree -/

/-- The content of a file; its length is a `u64`. -/
structure Content where
  bytes : Bytes
  fits : bytes.length < 2 ^ 64

/-- The entries of a directory, in the order in which they are listed. -/
inductive Tree where
  | done
  | file (name : TextName) (content : Content) (rest : Tree)
  | dir (name : TextName) (children : Tree) (rest : Tree)

/-- What is uploaded. -/
inductive Source where
  | file (content : Content)
  | dir (entries : Tree)

/-- Nothing fails and nothing changes. -/
def Content.answers (content : Content) : File :=
  ⟨.ok (UInt64.ofNat content.bytes.length), .ok content.bytes⟩

def Tree.answers : Tree → Entries
  | .done => .done
  | .file name content rest => .file name.toEntryName content.answers rest.answers
  | .dir name children rest => .dir name.toEntryName (.ok ()) children.answers rest.answers

def Source.answers : Source → Local
  | .file content => .file content.answers
  | .dir entries => .dir (.ok ()) entries.answers

/-- The tree below `dir`, in the order of the walk. -/
def Tree.items (dir : Path) : Tree → List Item
  | .done => []
  | .file name content rest => .file (join dir name.bytes) content.bytes :: rest.items dir
  | .dir name children rest =>
    .dir (join dir name.bytes) :: (children.items (join dir name.bytes) ++ rest.items dir)

def Source.items (dest : Path) (name : TextName) : Source → List Item
  | .file content => [.file (join dest name.bytes) content.bytes]
  | .dir entries => .dir (join dest name.bytes) :: entries.items (join dest name.bytes)

def Tree.names : Tree → List Bytes
  | .done => []
  | .file name _ rest => name.bytes :: rest.names
  | .dir name _ rest => name.bytes :: rest.names

/-- No directory lists a name twice. -/
def Tree.Distinct : Tree → Prop
  | .done => True
  | .file name _ rest => name.bytes ∉ rest.names ∧ rest.Distinct
  | .dir name children rest => name.bytes ∉ rest.names ∧ children.Distinct ∧ rest.Distinct

def Source.Distinct : Source → Prop
  | .file _ => True
  | .dir entries => entries.Distinct

/-! ## One item after another -/

/-- The sink has taken these items and is back where it was. -/
structure After (items : List Item) (s s' : Scp.State) : Prop where
  header : AtHeader s'
  top : s'.top = s.top
  below : s'.below = s.below
  built : built s'.log = items.reverse ++ built s.log
  known : ∀ c ∈ s.dirs, c ∈ s'.dirs
  dirs : ∀ c ∈ s'.dirs, c ∈ s.dirs ∨ ∃ path, .dir path ∈ items ∧ c = comps path
  created : ∀ e ∈ s'.log, e ∈ s.log ∨ ∀ c ∈ e.created, ∃ item ∈ items, c = comps item.path

theorem After.trans {items items' : List Item} {s s' s'' : Scp.State} (h : After items s s')
    (h' : After items' s' s'') : After (items ++ items') s s'' where
  header := h'.header
  top := h'.top.trans h.top
  below := h'.below.trans h.below
  built := by rw [h'.built, h.built, List.reverse_append, List.append_assoc]
  known c hc := h'.known c (h.known c hc)
  dirs c hc := by
    rcases h'.dirs c hc with hc | ⟨path, hp, rfl⟩
    · exact (h.dirs c hc).imp_right fun ⟨path, hp, e⟩ => ⟨path, List.mem_append_left _ hp, e⟩
    · exact .inr ⟨path, List.mem_append_right _ hp, rfl⟩
  created e he := by
    rcases h'.created e he with he | he
    · exact (h.created e he).imp_right fun h c hc =>
        (h c hc).imp fun _ hi => ⟨List.mem_append_left _ hi.1, hi.2⟩
    · exact .inr fun c hc => (he c hc).imp fun _ hi => ⟨List.mem_append_right _ hi.1, hi.2⟩

/-- No directory stands where a file is to be. -/
def Free (items : List Item) (dirs : List Comps) : Prop :=
  ∀ path data, .file path data ∈ items → comps path ∉ dirs

/-- The current directory exists. -/
def TopExists (s : Scp.State) : Prop := ∀ a ∈ lineage (comps s.top), a ∈ s.dirs

section Items

variable {Q : Scp.State → Prop} {ops : List Op} {s : Scp.State} {path : Path} {name : TextName}

theorem not_isDir {dirs : List Comps} (dir : Path) (name : EntryName) (h : comps (join dir name.bytes) ∉ dirs) :
    Scp.isDir dirs (comps (join dir name.bytes)) = false := by
  have hnames : (comps (join dir name.bytes)).names ≠ [] := by rw [name.comps_join]; simp
  simp [Scp.isDir, hnames, h]

theorem after_file (dest : Path) (pieces : List Bytes) :
    After [.file dest pieces.flatten] s (received s dest pieces) where
  header := ⟨rfl, rfl⟩
  top := rfl
  below := rfl
  built := by
    simp only [received, filled, built_append, List.foldl_cons, List.foldl_nil, build, foldl_build_writes]
    rfl
  known c hc := hc
  dirs c hc := .inl hc
  created e he := by
    simp only [received, filled, List.mem_append, List.mem_cons, List.not_mem_nil, or_false, List.mem_map] at he
    rcases he with (((he | rfl | rfl) | ⟨bytes, _, rfl⟩) | rfl) | rfl
    · exact .inl he
    · exact .inr fun c hc => by cases hc
    · exact .inr fun c hc => ⟨_, List.mem_singleton.mpr rfl, List.mem_singleton.mp hc⟩
    · exact .inr fun c hc => by cases hc
    · exact .inr fun c hc => by cases hc
    · exact .inr fun c hc => by cases hc

theorem good_file (h : AtHeader s) (content : Content)
    (hfree : comps (join s.top name.bytes) ∉ s.dirs)
    (hk : ∀ s', After [.file (join s.top name.bytes) content.bytes] s s' → Good Q ops s' (acks s'.log).length) :
    Good Q ([.send (.fileHeader path (UInt64.ofNat content.bytes.length) name.bytes), .recvResponse,
      .send (.fileData path content.bytes), .send (.fileEnd path), .recvResponse] ++ ops) s
      (acks s.log).length := by
  have hsize : (UInt64.ofNat content.bytes.length).toNat = content.bytes.length :=
    UInt64.toNat_ofNat_of_lt' content.fits
  have hann := sink_announce h path (UInt64.ofNat content.bytes.length) name
    (not_isDir s.top name.toEntryName hfree)
  rw [hsize] at hann
  refine good_exchange (fun _ => rfl) hann (acks_announced s _ _) ⟨rfl, fun pieces msgs hd => ?_⟩
  obtain ⟨⟨hflat, hne⟩, hmsgs⟩ : (pieces.flatten = content.bytes ∧ [] ∉ pieces) ∧ pieces.map packet = msgs := by
    simpa [deliver] using hd
  subst hmsgs
  have hpieces := sink_pieces s (join s.top name.bytes) hne
  have hafter := after_file (s := s) (join s.top name.bytes) pieces
  rw [hflat] at hpieces hafter
  refine ⟨_, hpieces, ?_⟩
  rw [acks_announced, ← acks_filled s (join s.top name.bytes) pieces]
  exact good_exchange (x := .fileEnd path) (fun _ => rfl) (sink_fileEnd s _ pieces)
    (acks_received s _ pieces) (hk _ hafter)

/-- Only the directory itself is missing when its parent exists. -/
theorem eq_of_mem_missing (htop : TopExists s) (name : EntryName) {c : Comps}
    (hc : c ∈ Scp.missing s.dirs (join s.top name.bytes)) : c = comps (join s.top name.bytes) := by
  obtain ⟨hl, hnot⟩ := List.mem_filter.mp hc
  rw [name.comps_join] at hl ⊢
  rcases mem_lineage_append hl with hl | ⟨more, hne, hpre, rfl⟩
  · exact absurd (htop c hl) (by simpa using hnot)
  · rw [hpre.eq_of_length_le (by have := List.length_pos_iff.mpr hne; simp; omega)]

/-- The sink after a `D` record. -/
def entered (s : Scp.State) (dir : Path) : Scp.State :=
  { s with
    buf := []
    top := dir
    below := s.top :: s.below
    dirs := s.dirs ++ Scp.missing s.dirs dir
    log := s.log ++ [.createDirAll dir (Scp.missing s.dirs dir), .send [0]] }

theorem entered_topExists (s : Scp.State) (dir : Path) : TopExists (entered s dir) := by
  intro a ha
  by_cases hd : a ∈ s.dirs
  · exact List.mem_append_left _ hd
  · exact List.mem_append_right _ (List.mem_filter.mpr ⟨ha, by simpa using hd⟩)

/-- The sink after an `E` record in a directory entered from `s`. -/
def left (s s' : Scp.State) : Scp.State :=
  { s' with
    buf := []
    top := s.top
    below := s.below
    log := s'.log ++ [.send [0]] }

/-- A directory with what was received in it. -/
theorem after_dir (htop : TopExists s) {items : List Item} {s' : Scp.State}
    (h : After items (entered s (join s.top name.bytes)) s') :
    After (.dir (join s.top name.bytes) :: items) s (left s s') where
  header := ⟨h.header.phase, rfl⟩
  top := rfl
  below := rfl
  built := by
    have : built (left s s').log = built s'.log := by
      rw [left, built_append]
      rfl
    rw [this, h.built, entered, built_append, List.reverse_cons, List.append_assoc]
    rfl
  known c hc := h.known c (List.mem_append_left _ hc)
  dirs c hc := by
    rcases h.dirs c hc with hc | ⟨path, hp, rfl⟩
    · rcases List.mem_append.mp hc with hc | hc
      · exact .inl hc
      · exact .inr ⟨_, List.mem_cons_self, eq_of_mem_missing htop name.toEntryName hc⟩
    · exact .inr ⟨path, List.mem_cons_of_mem _ hp, rfl⟩
  created e he := by
    rcases List.mem_append.mp he with he | he
    · rcases h.created e he with he | he
      · simp only [entered, List.mem_append, List.mem_cons, List.not_mem_nil, or_false] at he
        rcases he with he | rfl | rfl
        · exact .inl he
        · exact .inr fun c hc => ⟨_, List.mem_cons_self, eq_of_mem_missing htop name.toEntryName hc⟩
        · exact .inr fun c hc => by cases hc
      · exact .inr fun c hc => (he c hc).imp fun _ hi => ⟨List.mem_cons_of_mem _ hi.1, hi.2⟩
    · rw [List.mem_singleton.mp he]
      exact .inr fun c hc => by cases hc

/-- From the `D` record to the `E` record, around the entries. -/
theorem good_dir (h : AtHeader s) (htop : TopExists s) {inner : List Op} {items : List Item}
    (hin : (∀ s', After items (entered s (join s.top name.bytes)) s' →
        Good Q (.send (.endDir path) :: .recvResponse :: ops) s' (acks s'.log).length) →
      Good Q (inner ++ .send (.endDir path) :: .recvResponse :: ops) (entered s (join s.top name.bytes))
        (acks (entered s (join s.top name.bytes)).log).length)
    (hk : ∀ s', After (.dir (join s.top name.bytes) :: items) s s' → Good Q ops s' (acks s'.log).length) :
    Good Q (.send (.dirHeader path name.bytes) :: .recvResponse ::
      (inner ++ .send (.endDir path) :: .recvResponse :: ops)) s (acks s.log).length := by
  refine good_exchange (fun _ => rfl) (sink_enter h path name) (Scp.acks_append _ _) (hin fun s' hs' => ?_)
  exact good_exchange (fun _ => rfl) (sink_leave hs'.header hs'.below path) (Scp.acks_append _ _)
    (hk _ (after_dir htop hs'))

end Items

/-! ## The walk -/

/-- Every item of a directory lies under one of its entries. -/
theorem Tree.comps_of_mem_items {tree : Tree} {dir : Path} {item : Item} (h : item ∈ tree.items dir) :
    ∃ name ∈ tree.names, ∃ more,
      comps item.path = ⟨(comps dir).rooted, (comps dir).names ++ name :: more⟩ := by
  induction tree generalizing dir with
  | done => cases h
  | file name content rest ih =>
    rcases List.mem_cons.mp h with rfl | h
    · exact ⟨name.bytes, List.mem_cons_self, [], name.comps_join dir⟩
    · obtain ⟨n, hn, more, he⟩ := ih h
      exact ⟨n, List.mem_cons_of_mem _ hn, more, he⟩
  | dir name children rest ihc ih =>
    rcases List.mem_cons.mp h with rfl | h
    · exact ⟨name.bytes, List.mem_cons_self, [], name.comps_join dir⟩
    rcases List.mem_append.mp h with h | h
    · obtain ⟨n, _, more, he⟩ := ihc h
      refine ⟨name.bytes, List.mem_cons_self, n :: more, ?_⟩
      rw [he, name.comps_join]
      simp
    · obtain ⟨n, hn, more, he⟩ := ih h
      exact ⟨n, List.mem_cons_of_mem _ hn, more, he⟩

/-- What a directory holds is not the directory. -/
theorem Tree.comps_ne_dir {tree : Tree} {dir : Path} {item : Item} (h : item ∈ tree.items dir) :
    comps item.path ≠ comps dir := by
  obtain ⟨name, _, more, he⟩ := comps_of_mem_items h
  intro hc
  have := congrArg (fun c => c.names.length) (he.symm.trans hc)
  simp at this

/-- Nor is it one of the directories under a sibling of another name. -/
theorem Tree.comps_ne_sibling {tree children : Tree} {dir : Path} {name : TextName}
    (hn : name.bytes ∉ tree.names) {item other : Item} (h : item ∈ tree.items dir)
    (ho : other = .dir (join dir name.bytes) ∨ other ∈ children.items (join dir name.bytes)) :
    comps item.path ≠ comps other.path := by
  obtain ⟨n, hmem, more, he⟩ := comps_of_mem_items h
  obtain ⟨more', he'⟩ : ∃ more', comps other.path =
      ⟨(comps dir).rooted, (comps dir).names ++ name.bytes :: more'⟩ := by
    rcases ho with rfl | ho
    · exact ⟨[], name.comps_join dir⟩
    · obtain ⟨n', _, more', he'⟩ := comps_of_mem_items ho
      refine ⟨n' :: more', ?_⟩
      rw [he', name.comps_join]
      simp
  intro hc
  rw [he, he'] at hc
  have hcons := List.append_cancel_left (congrArg Comps.names hc)
  exact hn ((List.cons.inj hcons).1 ▸ hmem)

theorem Free.mono {items : List Item} {s s' : Scp.State} (h : Free items s.dirs) {taken : List Item}
    (ha : After taken s s')
    (hne : ∀ path data dir, .file path data ∈ items → .dir dir ∈ taken → comps path ≠ comps dir) :
    Free items s'.dirs := by
  intro path data hp hd
  rcases ha.dirs _ hd with hd | ⟨dir, hdir, he⟩
  · exact h path data hp hd
  · exact hne path data dir hp hdir he

theorem TopExists.after {items : List Item} {s s' : Scp.State} (h : TopExists s) (ha : After items s s') :
    TopExists s' := by
  intro a hl
  rw [ha.top] at hl
  exact ha.known a (h a hl)

theorem uploadEntries_answers (dir : Path) (tree : Tree) :
    (uploadEntries dir tree.answers).result = .ok () := by
  induction tree generalizing dir with
  | done => rfl
  | file name content rest ih =>
    refine Trace.bind_eq_ok.mpr ⟨(), ?_, ih dir⟩
    rw [Content.answers, ScpUpload.uploadFile_of_ok (name.fileName_join dir)]
  | dir name children rest ihc ih =>
    refine Trace.bind_eq_ok.mpr ⟨(), ?_, ih dir⟩
    rw [ScpUpload.uploadDirWith_of_ok (name.fileName_join dir) (ihc _)]

theorem good_entries {Q : Scp.State → Prop} {tree : Tree} (hd : tree.Distinct) (dir : Path) {ops : List Op}
    {s : Scp.State} (h : AtHeader s) (htop : TopExists s) (hfree : Free (tree.items s.top) s.dirs)
    (hk : ∀ s', After (tree.items s.top) s s' → Good Q ops s' (acks s'.log).length) :
    Good Q ((uploadEntries dir tree.answers).log ++ ops) s (acks s.log).length := by
  induction tree generalizing dir ops s with
  | done =>
    exact hk s ⟨h, rfl, rfl, rfl, fun _ hc => hc, fun _ hc => .inl hc, fun _ he => .inl he⟩
  | file name content rest ih =>
    have hlog : (uploadEntries dir (Tree.file name content rest).answers).log =
        [.send (.fileHeader (join dir name.bytes) (UInt64.ofNat content.bytes.length) name.bytes),
          .recvResponse, .send (.fileData (join dir name.bytes) content.bytes),
          .send (.fileEnd (join dir name.bytes)), .recvResponse] ++ (uploadEntries dir rest.answers).log := by
      rw [Tree.answers, uploadEntries, Content.answers,
        ScpUpload.uploadFile_of_ok (name.fileName_join dir), name.lossy]
      rfl
    rw [hlog, List.append_assoc]
    refine good_file h content (hfree _ _ List.mem_cons_self) fun s' hs' => ?_
    have hitems : rest.items s'.top = rest.items s.top := by rw [hs'.top]
    refine ih hd.2 dir hs'.header (htop.after hs') ?_ fun s'' hs'' => ?_
    · rw [hitems]
      refine Free.mono (fun p d hp => hfree p d (List.mem_cons_of_mem _ hp)) hs' fun _ _ dir _ hdir => ?_
      simp at hdir
    · rw [hitems] at hs''
      exact hk s'' (hs'.trans hs'')
  | dir name children rest ihc ih =>
    have hlog : (uploadEntries dir (Tree.dir name children rest).answers).log =
        .send (.dirHeader (join dir name.bytes) name.bytes) :: .recvResponse ::
          ((uploadEntries (join dir name.bytes) children.answers).log ++
            .send (.endDir (join dir name.bytes)) :: .recvResponse :: (uploadEntries dir rest.answers).log) := by
      rw [Tree.answers, uploadEntries,
        ScpUpload.uploadDirWith_of_ok (name.fileName_join dir) (uploadEntries_answers _ _), name.lossy]
      simp [Trace.bind_of_ok]
    have hchildren : Free (children.items (join s.top name.bytes)) (entered s (join s.top name.bytes)).dirs := by
      intro p d hp hmem
      rcases List.mem_append.mp hmem with hmem | hmem
      · exact hfree p d (List.mem_cons_of_mem _ (List.mem_append_left _ hp)) hmem
      · exact Tree.comps_ne_dir hp (eq_of_mem_missing htop name.toEntryName hmem)
    rw [hlog]
    simp only [List.cons_append, List.append_assoc]
    refine good_dir h htop (fun hin => ihc hd.2.1 _ ⟨h.phase, rfl⟩ (entered_topExists s _) hchildren hin)
      fun s' hs' => ?_
    have hitems : rest.items s'.top = rest.items s.top := by rw [hs'.top]
    refine ih hd.2.2 dir hs'.header (htop.after hs') ?_ fun s'' hs'' => ?_
    · rw [hitems]
      refine Free.mono (fun p d hp => hfree p d (List.mem_cons_of_mem _ (List.mem_append_right _ hp))) hs'
        fun p d dir' hp hdir => ?_
      exact Tree.comps_ne_sibling hd.1 hp ((List.mem_cons.mp hdir).imp_left id)
    · rw [hitems] at hs''
      exact hk s'' (hs'.trans hs'')

/-! ## The whole transfer -/

/-- The sink returned `Ok`, back in its local directory, and created these
items and nothing else. -/
structure Recreated (dest : Path) (items : List Item) (snk : Scp.State) : Prop where
  finished : snk.phase = .finished
  top : snk.top = dest
  below : snk.below = []
  built : built snk.log = items.reverse
  created : ∀ e ∈ snk.log, ∀ c ∈ e.created, ∃ item ∈ items, c = comps item.path

/-- What the two sides start from: a source with a name, and a directory to
put it into that has no directory where a file is to be. -/
structure Ready (localPath dest : Path) (name : TextName) (source : Source) (recursive : Bool)
    (dirs : List Comps) : Prop where
  named : fileName localPath = some name.bytes
  distinct : source.Distinct
  recursive : (∃ entries, source = .dir entries) → recursive = true
  exists_dest : ∀ a ∈ lineage (comps dest), a ∈ dirs
  free : Free (source.items dest name) dirs

section Whole

variable {localPath dest : Path} {name : TextName} {source : Source} {recursive : Bool} {dirs : List Comps}

theorem good_eof {items : List Item} {remote : String} {recursive : Bool} {s : Scp.State}
    (h : After items (Scp.start dest recursive remote dirs) s) :
    Good (Recreated dest items) [.eof] s (acks s.log).length := by
  refine ⟨rfl, fun pieces msgs hd => ?_⟩
  cases hd
  refine ⟨_, by rw [LTS.exec, sink_eof h.header]; rfl, ?_, ?_⟩
  · refine ⟨rfl, h.top, h.below, ?_, fun e he c hc => ?_⟩
    · rw [built_append, h.built]
      exact List.append_nil _
    · rcases List.mem_append.mp he with he | he
      · rcases h.created e he with he | he
        · simp only [Scp.start, List.mem_cons, List.not_mem_nil, or_false] at he
          rcases he with rfl | rfl <;> cases hc
        · exact he c hc
      · rw [List.mem_singleton.mp he] at hc
        cases hc
  · rw [Scp.acks_append]
    exact congrArg List.length (List.append_nil _)

theorem good_source (h : Ready localPath dest name source recursive dirs) (remote : String) (flag : Bool) :
    (ScpUpload.uploadLocal localPath recursive source.answers).result = .ok () ∧
      Good (Recreated dest (source.items dest name))
        ((ScpUpload.uploadLocal localPath recursive source.answers).log ++ [.eof])
        (Scp.start dest flag remote dirs) 1 := by
  have hstart := Scp.start_atHeader dest flag remote dirs
  cases source with
  | file content =>
    rw [Source.answers, ScpUpload.uploadLocal, Content.answers, ScpUpload.uploadFile_of_ok h.named, name.lossy]
    refine ⟨rfl, good_file hstart content ?_ fun s' hs' => good_eof hs'⟩
    exact h.free _ _ (List.mem_singleton.mpr rfl)
  | dir entries =>
    have hrec := h.recursive ⟨entries, rfl⟩
    have hdir : ScpUpload.uploadLocal localPath recursive (Source.dir entries).answers =
        ⟨.send (.dirHeader localPath name.bytes) :: .recvResponse ::
          ((uploadEntries localPath entries.answers).log ++ [.send (.endDir localPath), .recvResponse]),
          .ok ()⟩ := by
      rw [Source.answers, ScpUpload.uploadLocal, if_pos hrec, ScpUpload.uploadDir,
        ScpUpload.uploadDirWith_of_ok h.named (uploadEntries_answers _ _), name.lossy]
    rw [hdir]
    refine ⟨rfl, ?_⟩
    simp only [List.cons_append, List.append_assoc, List.nil_append]
    refine good_dir hstart h.exists_dest (fun hin => ?_) fun s' hs' => good_eof hs'
    refine good_entries h.distinct _ ⟨rfl, rfl⟩ (entered_topExists _ _) ?_ hin
    intro p d hp hmem
    rcases List.mem_append.mp hmem with hmem | hmem
    · exact h.free p d (List.mem_cons_of_mem _ hp) hmem
    · exact Tree.comps_ne_dir hp (eq_of_mem_missing (s := Scp.start dest flag remote dirs) h.exists_dest
        name.toEntryName hmem)

theorem inv_inductive (h : Ready localPath dest name source recursive dirs) (remote remote' : String)
    (flag : Bool) :
    (transfer (scpUpload localPath source.answers remote recursive)
      (Scp.start dest flag remote' dirs)).Inductive (Inv (Recreated dest (source.items dest name))) where
  init := by
    rintro _ rfl
    obtain ⟨hok, hgood⟩ := good_source h remote' flag
    have hscript : scpUpload localPath source.answers remote recursive =
        ⟨.exec (ScpUpload.command recursive remote) :: .recvResponse ::
          ((ScpUpload.uploadLocal localPath recursive source.answers).log ++ [.eof]), .ok ()⟩ := by
      rw [scpUpload, Trace.bind_of_ok hok]
      rfl
    rw [hscript]
    exact ⟨⟨_, rfl, rfl, rfl, hgood⟩, rfl⟩
  step _ _ _ hi hs := inv_move hi (move_of_step hs)

end Whole

/-- **The two halves agree.** At most one acknowledgement is ever under way,
every run is finite, and a run that cannot go on has ended with both sides
successful and the tree recreated. -/
theorem halves_agree (localPath dest : Path) (name : TextName) (source : Source) (recursive flag : Bool)
    (remote remote' : String) (dirs : List Comps) (h : Ready localPath dest name source recursive dirs) :
    let M := transfer (scpUpload localPath source.answers remote recursive) (Scp.start dest flag remote' dirs)
    (∀ c, M.Reachable c → c.outstanding.length ≤ 1) ∧
    (∀ c₀ ls c, M.init c₀ → M.Run c₀ ls c → ls.length ≤ c₀.work) ∧
    ∀ c, M.Reachable c → (∀ l c', ¬ M.step c l c') →
      c.src.todo = [] ∧ c.src.result = .ok () ∧ c.toSink = [] ∧ c.outstanding = [] ∧
        Recreated dest (source.items dest name) c.snk := by
  intro M
  have hind := inv_inductive h remote remote' flag
  refine ⟨fun c hr => (hind.reachable c hr).outstanding_le, fun c₀ ls c h0 hrun => ?_,
    fun c hr hstuck => ?_⟩
  · exact hind.length_le (fun c l c' hi hs => work_move hi (move_of_step hs)) (hind.init c₀ h0) hrun
  · have hinv := hind.reachable c hr
    obtain ⟨htodo, hto, hout, hQ⟩ := done_of_stuck hinv fun l c' => hstuck l c'
    exact ⟨htodo, hinv.ok, hto, hout, hQ⟩

/-! ### A small tree -/

def nameD : TextName := ⟨⟨ascii "d", by decide, by decide, by decide, by decide⟩, by decide, by decide⟩

def nameA : TextName := ⟨⟨ascii "a b", by decide, by decide, by decide, by decide⟩, by decide, by decide⟩

/-- A directory with a file and an empty directory. -/
def smallTree : Source := .dir (.file nameA ⟨ascii "hi", by decide⟩ (.dir nameD .done .done))

/-- `/in`, the only directory known to exist. -/
def onlyIn : List Comps := [⟨true, [ascii "in"]⟩]

theorem smallTree_ready : Ready (ascii "/srv/d") (ascii "/in") nameD smallTree true onlyIn where
  named := by decide
  distinct := ⟨by decide, by decide, trivial, trivial⟩
  recursive _ := rfl
  exists_dest := by decide
  free := by
    intro path data hp
    simp only [smallTree, Source.items, Tree.items, List.mem_cons, List.mem_append, List.not_mem_nil, or_false,
      reduceCtorEq, false_or, Item.file.injEq] at hp
    rw [hp.1]
    decide

/-- A run to the end, with the data in two pieces. -/
theorem halves_agree_smallTree :
    ∃ c, (transfer (scpUpload (ascii "/srv/d") smallTree.answers "r" true)
        (Scp.start (ascii "/in") true "r" onlyIn)).Reachable c ∧
      Recreated (ascii "/in") [.dir (ascii "/in/d"), .file (ascii "/in/d/a b") (ascii "hi"),
        .dir (ascii "/in/d/d")] c.snk := by
  obtain ⟨c, hc, htodo, hto, hacks⟩ :
      ∃ c, LTS.exec step ⟨ScpUpload.start (scpUpload (ascii "/srv/d") smallTree.answers "r" true),
          Scp.start (ascii "/in") true "r" onlyIn, [], 0⟩
          [.send [], .recv, .send [], .sink, .recv, .send [], .sink, .recv, .send [ascii "h", ascii "i"],
            .send [], .sink, .sink, .sink, .recv, .send [], .sink, .recv, .send [], .sink, .recv,
            .send [], .sink, .recv, .send [], .sink] = some c ∧
        c.src.todo = [] ∧ c.toSink = [] ∧ (acks c.snk.log)[c.read]? = none := ⟨_, rfl, rfl, rfl, rfl⟩
  have hr : (transfer (scpUpload (ascii "/srv/d") smallTree.answers "r" true)
      (Scp.start (ascii "/in") true "r" onlyIn)).Reachable c := ⟨_, _, rfl, LTS.run_ofFn.mpr hc⟩
  have hstuck (l : Label) (c' : State) : step c l ≠ some c' := by
    cases l <;> simp [step, htodo, hto, hacks]
  exact ⟨c, hr, ((halves_agree (ascii "/srv/d") (ascii "/in") nameD smallTree true true "r" "r" onlyIn
    smallTree_ready).2.2 c hr hstuck).2.2.2.2⟩

end Wstunnel.L4.ScpTransfer
