import Wstunnel.L4App.ScpUpload

/-!
# `scp_upload` and the answers of the sink

A sink answers every record and every file body with one byte: `0` for ok,
`1` for "this item is refused", `2` for a fatal error. `recv_response` prints
the text of an answer that starts with `1` and returns `Ok`, so the upload
goes on as after a `0`.

**Third-party code.** The answers are messages of `russh`, chosen by the remote side;
one message may hold more than an answer, or less. Any operation on the channel may
fail. What the local files hold is given by the walk (`ScpUpload`).

**Results.**
* `answers_honoured`: in every run in which no item is refused, the data of
  a file follows a `0` answer to its `C` record, everything inside a
  directory follows a `0` answer to its `D` record, and the upload returns
  `Ok` only after a `0` answer to everything.
* `refusedFile_sent`: a refused file is sent all the same, and the upload
  returns `Ok`.
-/
namespace Wstunnel.L4.ScpUpload

open UnixPath
open Scp (Bytes ChannelMsg ascii)

/-- The sink answers this: a record, or the end of a file's data. -/
def Sent.awaited : Sent → Bool
  | .fileData _ _ => false
  | _ => true

/-- The sink's answers are honoured so far. Everything but the item to
upload itself is sent inside a directory, one whose `E` record has not been
sent. -/
structure Honoured (localPath : Path) (s : State) : Prop where
  data : ∀ k path bytes, s.log[k]? = some (.sent (.fileData path bytes)) →
    ∃ i size name, i + 2 = k ∧ s.log[i]? = some (.sent (.fileHeader path size name)) ∧
      s.log[i + 1]? = some (.answered 0)
  nested : ∀ k x, s.log[k]? = some (.sent x) → x.path = localPath ∨
    ∃ (i : Nat) (dir name : Path) (entry : EntryName), i + 1 < k ∧ x.path = join dir entry.bytes ∧
      s.log[i]? = some (.sent (.dirHeader dir name)) ∧ s.log[i + 1]? = some (.answered 0) ∧
      ∀ j, i < j → j < k → s.log[j]? ≠ some (.sent (.endDir dir))
  ok : s.todo = [] → s.result = .ok () → ∀ k x, s.log[k]? = some (.sent x) → x.awaited →
    s.log[k + 1]? = some (.answered 0)

/-! ## The script -/

/-- What the walk arranges: who waits for an answer, what precedes the data
of a file, and in which directory an item is sent (`top` for the items that
are in none). -/
structure Disciplined (top : Path → Prop) (ops : List Op) : Prop where
  awaited : ∀ k x, ops[k]? = some (.send x) → x.awaited → ops[k + 1]? = some .recvResponse
  data : ∀ k path bytes, ops[k]? = some (.send (.fileData path bytes)) →
    ∃ i size name, i + 2 = k ∧ ops[i]? = some (.send (.fileHeader path size name)) ∧
      ops[i + 1]? = some .recvResponse
  nested : ∀ k x, ops[k]? = some (.send x) → top x.path ∨
    ∃ (i : Nat) (dir name : Path) (entry : EntryName), i < k ∧ x.path = join dir entry.bytes ∧
      ops[i]? = some (.send (.dirHeader dir name)) ∧
      ∀ j, i < j → j < k → ops[j]? ≠ some (.send (.endDir dir))

namespace Disciplined

variable {top : Path → Prop} {a b ops : List Op}

/-- The last part shifted behind `a`. -/
theorem getElem?_append_add (a b : List Op) (k : Nat) : (a ++ b)[a.length + k]? = b[k]? := by
  rw [List.getElem?_append_right (by omega)]
  congr 1
  omega

theorem getElem?_append_of_some {k : Nat} {op : Op} (h : a[k]? = some op) (b : List Op) :
    (a ++ b)[k]? = some op := by
  rw [List.getElem?_append_left (List.getElem?_eq_some_iff.mp h).1, h]

/-- An operation of `a ++ b` is one of `a` or one of `b`, at the shifted place. -/
theorem getElem?_append_cases {k : Nat} {op : Op} (h : (a ++ b)[k]? = some op) :
    a[k]? = some op ∧ k < a.length ∨ ∃ i, k = a.length + i ∧ b[i]? = some op := by
  by_cases hk : k < a.length
  · exact .inl ⟨by rwa [List.getElem?_append_left hk] at h, hk⟩
  · refine .inr ⟨k - a.length, by omega, ?_⟩
    rwa [List.getElem?_append_right (by omega)] at h

/-- The directory around an item of `b`, seen from the start of `a`. -/
theorem nested_shift (a : List Op) {k : Nat} {x : Sent}
    (h : ∃ (i : Nat) (dir name : Path) (entry : EntryName), i < k ∧ x.path = join dir entry.bytes ∧
      b[i]? = some (.send (.dirHeader dir name)) ∧
      ∀ j, i < j → j < k → b[j]? ≠ some (.send (.endDir dir))) :
    ∃ (i : Nat) (dir name : Path) (entry : EntryName), i < a.length + k ∧ x.path = join dir entry.bytes ∧
      (a ++ b)[i]? = some (.send (.dirHeader dir name)) ∧
      ∀ j, i < j → j < a.length + k → (a ++ b)[j]? ≠ some (.send (.endDir dir)) := by
  obtain ⟨i, dir, name, entry, hi, hp, hd, hend⟩ := h
  refine ⟨a.length + i, dir, name, entry, by omega, hp, (getElem?_append_add a b i).trans hd,
    fun j hij hjk => ?_⟩
  obtain ⟨j, rfl⟩ : ∃ j', j = a.length + j' := ⟨j - a.length, by omega⟩
  rw [getElem?_append_add]
  exact hend j (by omega) (by omega)

theorem append (ha : Disciplined top a) (hb : Disciplined top b) : Disciplined top (a ++ b) where
  awaited k x hk hx := by
    rcases getElem?_append_cases hk with ⟨h, _⟩ | ⟨m, rfl, h⟩
    · exact getElem?_append_of_some (ha.awaited k x h hx) b
    · exact (getElem?_append_add a b (m + 1)).trans (hb.awaited m x h hx)
  data k path bytes hk := by
    rcases getElem?_append_cases hk with ⟨h, _⟩ | ⟨m, rfl, h⟩
    · obtain ⟨i, size, name, hi, hh, hr⟩ := ha.data k path bytes h
      exact ⟨i, size, name, hi, getElem?_append_of_some hh b, getElem?_append_of_some hr b⟩
    · obtain ⟨i, size, name, hi, hh, hr⟩ := hb.data m path bytes h
      exact ⟨a.length + i, size, name, by omega, (getElem?_append_add a b i).trans hh,
        (getElem?_append_add a b (i + 1)).trans hr⟩
  nested k x hk := by
    rcases getElem?_append_cases hk with ⟨h, hlt⟩ | ⟨m, rfl, h⟩
    · refine (ha.nested k x h).imp_right ?_
      rintro ⟨i, dir, name, entry, hi, hp, hd, hend⟩
      refine ⟨i, dir, name, entry, hi, hp, getElem?_append_of_some hd b, fun j hij hjk => ?_⟩
      rw [List.getElem?_append_left (by omega)]
      exact hend j hij hjk
    · exact (hb.nested m x h).imp_right (nested_shift a)

theorem mono {top' : Path → Prop} (h : Disciplined top ops) (ht : ∀ p, top p → top' p) :
    Disciplined top' ops :=
  ⟨h.awaited, h.data, fun k x hk => (h.nested k x hk).imp_left (ht _)⟩

/-- Operations that send nothing. -/
theorem of_silent (h : ∀ x, .send x ∉ ops) : Disciplined top ops := by
  have hno (k : Nat) (x : Sent) : ops[k]? ≠ some (.send x) := fun hk => h x (List.mem_of_getElem? hk)
  exact ⟨fun k x hk => absurd hk (hno k x), fun k p d hk => absurd hk (hno k _),
    fun k x hk => absurd hk (hno k x)⟩

/-- A record and the wait for its answer. -/
theorem exchange (x : Sent) (hx : x.awaited) : Disciplined (· = x.path) [.send x, .recvResponse] := by
  have hone {k : Nat} {y : Sent} (h : [Op.send x, .recvResponse][k]? = some (.send y)) :
      k = 0 ∧ x = y := by
    rcases k with _ | _ | k <;> simp at h
    exact ⟨rfl, h⟩
  refine ⟨fun k y h _ => ?_, fun k path bytes h => ?_, fun k y h => ?_⟩
  · obtain ⟨rfl, _⟩ := hone h; rfl
  · obtain ⟨_, rfl⟩ := hone h; cases hx
  · obtain ⟨_, rfl⟩ := hone h; exact .inl rfl

/-- The exchanges about one file. -/
theorem fileExchange (path : Path) (size : UInt64) (name data : Bytes) :
    Disciplined (· = path) [.send (.fileHeader path size name), .recvResponse,
      .send (.fileData path data), .send (.fileEnd path), .recvResponse] where
  awaited k x h hx := by
    rcases k with _ | _ | _ | _ | _ | k <;> simp at h ⊢
    subst h
    cases hx
  data k p d h := by
    rcases k with _ | _ | _ | _ | _ | k <;> simp at h
    obtain ⟨rfl, rfl⟩ := h
    exact ⟨0, size, name, rfl, rfl, rfl⟩
  nested k x h := by
    rcases k with _ | _ | _ | _ | _ | k <;> simp at h
    all_goals exact .inl (by rw [← h]; rfl)

/-- Paths get longer on the way down. -/
theorem length_lt {dir : Path}
    (h : Disciplined (fun p => ∃ entry : EntryName, p = join dir entry.bytes) ops) {k : Nat} {x : Sent}
    (hk : ops[k]? = some (.send x)) : dir.length < x.path.length := by
  induction k using Nat.strong_induction_on generalizing x with
  | _ k ih =>
    rcases h.nested k x hk with ⟨entry, he⟩ | ⟨i, inner, name, entry, hi, he, hd, _⟩
    · rw [he]
      exact entry.length_join dir
    · have hinner : dir.length < inner.length := ih i hi hd
      have hpath := entry.length_join inner
      rw [he]
      omega

/-- What is sent inside `dir` after its `D` record. None of the `E` records
in `ops` is that of `dir`, since their paths are longer. -/
theorem inDir {dir : Path} (name : Bytes)
    (h : Disciplined (fun p => ∃ entry : EntryName, p = join dir entry.bytes) ops) :
    Disciplined (· = dir) ([.send (.dirHeader dir name), .recvResponse] ++ ops) := by
  have hd := exchange (.dirHeader dir name) rfl
  -- who waits, and what precedes data, does not depend on the top level
  have hall : Disciplined (fun _ => True) ([.send (.dirHeader dir name), .recvResponse] ++ ops) :=
    (hd.mono fun _ _ => trivial).append (h.mono fun _ _ => trivial)
  refine ⟨hall.awaited, hall.data, fun k x hk => ?_⟩
  rcases getElem?_append_cases hk with ⟨hx, hlt⟩ | ⟨m, rfl, hx⟩
  · rcases k with _ | _ | k <;> simp at hx hlt
    exact .inl (by rw [← hx]; rfl)
  · refine .inr ?_
    rcases h.nested m x hx with ⟨entry, he⟩ | hin
    · refine ⟨0, dir, name, entry, by simp only [List.length_cons]; omega, he, rfl, fun j hj hjk hend => ?_⟩
      rcases getElem?_append_cases hend with ⟨hj', hlt⟩ | ⟨i, rfl, hi⟩
      · rcases j with _ | _ | j <;> simp at hj' hlt
      · exact absurd (h.length_lt hi) (lt_irrefl _)
    · exact nested_shift _ hin

theorem bind {α β : Type} {x : Upload α} {f : α → Upload β} (hx : Disciplined top x.log)
    (hf : ∀ y, Disciplined top (f y).log) : Disciplined top (x >>= f).log := by
  cases hr : x.result with
  | error e => rwa [Trace.bind_of_error hr]
  | ok y => rw [Trace.bind_of_ok hr]; exact hx.append (hf y)

theorem nil : Disciplined top [] := of_silent (by simp)

end Disciplined

theorem disciplined_uploadFile (path : Path) (file : File) :
    Disciplined (· = path) (uploadFile path file).log := by
  unfold uploadFile
  refine .bind (by simp [Disciplined.nil]) fun size => .bind (by simp [Disciplined.nil]) fun name => ?_
  cases file.read with
  | error err => exact .exchange (.fileHeader path size (Utf8.lossy name)) rfl
  | ok data => exact .fileExchange path size (Utf8.lossy name) data

theorem disciplined_uploadDirWith {dir : Path} {entries : Upload Unit} (readDir : Except String Unit)
    (h : Disciplined (fun p => ∃ entry : EntryName, p = join dir entry.bytes) entries.log) :
    Disciplined (· = dir) (uploadDirWith dir readDir entries).log := by
  unfold uploadDirWith
  refine .bind (by simp [Disciplined.nil]) fun name => ?_
  cases readDir with
  | error err => exact .exchange (.dirHeader dir (Utf8.lossy name)) rfl
  | ok _ =>
    change Disciplined (· = dir) ([.send (.dirHeader dir (Utf8.lossy name)), .recvResponse] ++
      (entries >>= fun _ => Trace.emit (.send (.endDir dir)) >>= fun _ => Trace.emit .recvResponse).log)
    have hin := h.inDir (Utf8.lossy name)
    cases hr : entries.result with
    | error err => rwa [Trace.bind_of_error hr]
    | ok _ =>
      rw [Trace.bind_of_ok hr, ← List.append_assoc]
      exact hin.append (.exchange (.endDir dir) rfl)

theorem disciplined_uploadEntries (dir : Path) (entries : Entries) :
    Disciplined (fun p => ∃ entry : EntryName, p = join dir entry.bytes) (uploadEntries dir entries).log := by
  induction entries generalizing dir with
  | done => exact .nil
  | failed err => exact .nil
  | file name file rest ih =>
    refine .bind ((disciplined_uploadFile _ file).mono ?_) fun _ => ih dir
    rintro _ rfl
    exact ⟨name, rfl⟩
  | dir name readDir children rest ihc ih =>
    refine .bind ((disciplined_uploadDirWith readDir (ihc _)).mono ?_) fun _ => ih dir
    rintro _ rfl
    exact ⟨name, rfl⟩

theorem disciplined_scpUpload (localPath : Path) (answers : Local) (remote : String) (recursive : Bool) :
    Disciplined (· = localPath) (scpUpload localPath answers remote recursive).log := by
  have hsilent {op : Op} (h : ∀ x, op ≠ .send x) : Disciplined (· = localPath) [op] :=
    .of_silent fun x hx => h x (List.mem_singleton.mp hx).symm
  unfold scpUpload
  refine .bind (hsilent nofun) fun _ => .bind (hsilent nofun) fun _ => .bind ?_ fun _ => hsilent nofun
  unfold uploadLocal
  split
  · split
    · exact disciplined_uploadDirWith _ (disciplined_uploadEntries _ _)
    · exact .nil
  · exact disciplined_uploadFile _ _

/-! ## The answers -/

/-- Something was sent that the sink answers. -/
def State.hasSent (s : State) : Bool := s.log.any fun
  | .sent _ => true
  | _ => false

/-- The condition on a step: it is no refusal of something that was sent. -/
def NotRefused (s : State) (l : Label) : Prop := l.refuses → s.hasSent = false

instance (s : State) (l : Label) : Decidable (NotRefused s l) :=
  inferInstanceAs (Decidable (_ → _))

/-- Every answer to something that was sent is `0`, but for the one on which
the upload failed. -/
def Zeros (s : State) : Prop :=
  ∀ (i : Nat) b, s.log[i]? = some (.answered b) → (∃ (j : Nat) (x : Sent), j < i ∧ s.log[j]? = some (.sent x)) →
    b = 0 ∨ i + 1 = s.log.length ∧ s.Failed

theorem hasSent_of_getElem? {s : State} {j : Nat} {x : Sent} (h : s.log[j]? = some (.sent x)) :
    s.hasSent = true :=
  List.any_eq_true.mpr ⟨_, List.mem_of_getElem? h, rfl⟩

theorem zeros_append {s : State} {ev : Event} {todo : List Op} (result : Except UploadError Unit)
    (h : Zeros s) (hs : s.todo ≠ [])
    (hev : ∀ b, ev = .answered b → s.hasSent = true → b = 0 ∨ todo = [] ∧ ∃ err, result = .error err) :
    Zeros ⟨todo, result, s.log ++ [ev]⟩ := by
  intro i b hi ⟨j, x, hj, hx⟩
  dsimp only at hi hx ⊢
  have hlen := (List.getElem?_eq_some_iff.mp hi).1
  rw [List.length_append, List.length_singleton] at hlen
  rw [List.getElem?_append_left (by omega)] at hx
  by_cases hlast : i = s.log.length
  · rw [hlast, List.getElem?_concat_length] at hi
    refine (hev b (Option.some.inj hi) (hasSent_of_getElem? hx)).imp_right fun hf => ?_
    exact ⟨by simp [hlast], hf⟩
  · rw [List.getElem?_append_left (by omega)] at hi
    refine (h i b hi ⟨j, x, hj, hx⟩).imp_right fun hf => ?_
    exact absurd hf.2.1 hs

theorem zeros_move {s s' : State} {l : Label} (h : Zeros s) (hm : Move s l s') (hg : NotRefused s l) :
    Zeros s' := by
  cases hm with
  | wait => exact h
  | next ev ht hzero =>
    refine zeros_append s.result h (by simp [ht]) fun b hb hsent => .inl ?_
    refine (hzero b hb).resolve_right fun hr => ?_
    rw [hg hr] at hsent
    cases hsent
  | fail err =>
    intro i b hi hj
    exact (h i b hi hj).imp_right fun hf => ⟨hf.1, rfl, err, rfl⟩
  | failAnswer b err ht =>
    exact zeros_append (.error err) h (by simp [ht]) fun _ _ _ => .inr ⟨rfl, err, rfl⟩

theorem answered_inductive (script : Upload Unit) :
    ((upload script).guard NotRefused).Inductive fun s => Follows script s ∧ Zeros s where
  init := by
    rintro _ rfl
    exact ⟨follows_start script, fun i b hi => by simp [start] at hi⟩
  step _ _ _ h hs := ⟨follows_move h.1 (move_of_step hs.1), zeros_move h.2 (move_of_step hs.1) hs.2⟩

section Honoured

variable {script : Upload Unit} {s : State}

theorem Follows.script_at (h : Follows script s) {k : Nat} {ev : Event} (hk : s.log[k]? = some ev) :
    script.log[k]? = some ev.op := by
  obtain ⟨rest, hr⟩ := h.done
  rw [← hr]
  exact Disciplined.getElem?_append_of_some (by simp [hk]) rest

theorem Follows.log_at (h : Follows script s) {k : Nat} {op : Op} (hk : script.log[k]? = some op)
    (hlt : k < s.log.length) : ∃ ev, s.log[k]? = some ev ∧ ev.op = op := by
  have he := List.getElem?_eq_getElem hlt
  refine ⟨_, he, ?_⟩
  exact Option.some.inj ((h.script_at he).symm.trans hk)

theorem Follows.sent_at (h : Follows script s) {k : Nat} {x : Sent} (hk : script.log[k]? = some (.send x))
    (hlt : k < s.log.length) : s.log[k]? = some (.sent x) := by
  obtain ⟨ev, he, hop⟩ := h.log_at hk hlt
  cases ev <;> cases hop
  exact he

/-- The answer to something that was sent, unless the upload failed on it. -/
theorem Follows.answered_at (h : Follows script s) (hz : Zeros s) {j k : Nat} {x : Sent}
    (hk : script.log[k]? = some .recvResponse) (hlt : k < s.log.length)
    (hgoes : k + 1 < s.log.length ∨ ¬ s.Failed) (hjk : j < k) (hj : s.log[j]? = some (.sent x)) :
    s.log[k]? = some (.answered 0) := by
  obtain ⟨ev, he, hop⟩ := h.log_at hk hlt
  cases ev <;> cases hop
  rename_i b
  rcases hz k b he ⟨j, x, hjk, hj⟩ with rfl | ⟨hlast, hf⟩
  · exact he
  · rcases hgoes with hgoes | hgoes
    · omega
    · exact absurd hf hgoes

theorem honoured_of {localPath : Path} (h : Follows script s) (hz : Zeros s)
    (hd : Disciplined (· = localPath) script.log) : Honoured localPath s where
  data k path bytes hk := by
    have hlt := (List.getElem?_eq_some_iff.mp hk).1
    obtain ⟨i, size, name, hi, hheader, hwait⟩ := hd.data k path bytes (h.script_at hk)
    have hsent := h.sent_at hheader (by omega)
    exact ⟨i, size, name, hi, hsent, h.answered_at hz hwait (by omega) (.inl (by omega)) (by omega) hsent⟩
  nested k x hk := by
    have hlt := (List.getElem?_eq_some_iff.mp hk).1
    refine (hd.nested k x (h.script_at hk)).imp_right ?_
    rintro ⟨i, dir, name, entry, hi, hp, hheader, hend⟩
    have hwait := hd.awaited i _ hheader rfl
    have hne : i + 1 ≠ k := by
      rintro rfl
      rw [h.script_at hk] at hwait
      cases hwait
    have hsent := h.sent_at hheader (by omega)
    refine ⟨i, dir, name, entry, by omega, hp, hsent,
      h.answered_at hz hwait (by omega) (.inl (by omega)) (by omega) hsent, fun j hij hjk hj => ?_⟩
    exact hend j hij hjk (h.script_at hj)
  ok htodo hok k x hk hx := by
    have hfine : ¬ s.Failed := by
      rintro ⟨_, err, herr⟩
      rw [hok] at herr
      cases herr
    have hall := (h.rest.resolve_right hfine).1
    have hwait := hd.awaited k x (h.script_at hk) hx
    have hlt := (List.getElem?_eq_some_iff.mp hwait).1
    rw [hall, htodo, List.append_nil, List.length_map] at hlt
    exact h.answered_at hz hwait hlt (.inr hfine) (by omega) hk

end Honoured

/-- **The sink's answers are honoured** in every state of every run of an
upload in which no answer to a record or to a file's data starts with `1`. -/
theorem answers_honoured (localPath : Path) (answers : Local) (remote : String) (recursive : Bool) (s : State)
    (hr : ((upload (scpUpload localPath answers remote recursive)).guard NotRefused).Reachable s) :
    Honoured localPath s := by
  obtain ⟨hf, hz⟩ := (answered_inductive _).reachable s hr
  exact honoured_of hf hz (disciplined_scpUpload localPath answers remote recursive)

/-! ### Uploads of `/srv/d` -/

/-- A file that does not change. -/
def File.steady (data : Bytes) : File := ⟨.ok (UInt64.ofNat data.length), .ok data⟩

def nameA : EntryName := ⟨ascii "a", by decide, by decide, by decide, by decide⟩

/-- A directory with one file, `a`. -/
def oneFile : Local := .dir (.ok ()) (.file nameA (.steady (ascii "hi")) .done)

def did : Label := .op none

def answerWith (b : UInt8) : Label := .msg (some (.data [b]))

/-- Everything is answered with `0`, and the file arrives. -/
theorem answers_honoured_oneFile :
    ∃ s, ((upload (scpUpload (ascii "/srv/d") oneFile "x" true)).guard NotRefused).Reachable s ∧
      s.todo = [] ∧ s.result = .ok () ∧
      s.log[6]? = some (.sent (.fileData (ascii "/srv/d/a") (ascii "hi"))) ∧
      Honoured (ascii "/srv/d") s := by
  obtain ⟨s, hs, htodo, hok, hlog⟩ :
      ∃ s, LTS.exec (fun s l => if NotRefused s l then step s l else none)
          (start (scpUpload (ascii "/srv/d") oneFile "x" true))
          [did, answerWith 0, did, answerWith 0, did, answerWith 0, did, did, answerWith 0, did,
            answerWith 0, did] = some s ∧ s.todo = [] ∧ s.result = .ok () ∧
        s.log[6]? = some (.sent (.fileData (ascii "/srv/d/a") (ascii "hi"))) :=
    ⟨_, rfl, rfl, rfl, rfl⟩
  have hr : ((upload (scpUpload (ascii "/srv/d") oneFile "x" true)).guard NotRefused).Reachable s :=
    ⟨_, _, rfl, LTS.run_guard_ofFn hs⟩
  exact ⟨s, hr, htodo, hok, hlog, answers_honoured _ _ _ _ s hr⟩

/-- The sink refuses the file; its data is sent and the upload returns `Ok`. -/
theorem refusedFile_sent :
    ∃ s, (upload (scpUpload (ascii "/srv/d") oneFile "x" true)).Reachable s ∧
      s.todo = [] ∧ s.result = .ok () ∧
      s.log[4]? = some (.sent (.fileHeader (ascii "/srv/d/a") 2 (ascii "a"))) ∧
      s.log[5]? = some (.answered 1) ∧
      s.log[6]? = some (.sent (.fileData (ascii "/srv/d/a") (ascii "hi"))) ∧
      ¬ Honoured (ascii "/srv/d") s := by
  obtain ⟨s, hs, htodo, hok, hheader, hanswer, hdata⟩ :
      ∃ s, LTS.exec step (start (scpUpload (ascii "/srv/d") oneFile "x" true))
          [did, answerWith 0, did, answerWith 0, did, answerWith 1, did, did, answerWith 0, did,
            answerWith 0, did] = some s ∧ s.todo = [] ∧ s.result = .ok () ∧
        s.log[4]? = some (.sent (.fileHeader (ascii "/srv/d/a") 2 (ascii "a"))) ∧
        s.log[5]? = some (.answered 1) ∧
        s.log[6]? = some (.sent (.fileData (ascii "/srv/d/a") (ascii "hi"))) :=
    ⟨_, rfl, rfl, rfl, rfl, rfl, rfl⟩
  refine ⟨s, ⟨_, _, rfl, LTS.run_ofFn.mpr hs⟩, htodo, hok, hheader, hanswer, hdata, fun h => ?_⟩
  have := h.ok htodo hok 4 _ hheader rfl
  rw [hanswer] at this
  cases this

end Wstunnel.L4.ScpUpload
