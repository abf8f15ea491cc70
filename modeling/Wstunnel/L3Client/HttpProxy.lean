import Wstunnel.Core.GrowBuf
import Wstunnel.Core.Str
import Wstunnel.Core.Utf8

/-!
# The answer of an HTTP proxy

The end of `connect_with_http_proxy`, after the `CONNECT` request is written.
It reads until the buffer holds an empty line or more than 50 KiB, and then
looks for the text of a successful status line anywhere in the buffer. The
buffer is dropped: the caller gets the socket.

The reads are inputs: any cutting of the stream that the buffer has room for.
The buffer is a `BytesMut` of 1024 bytes, and `read_buf` fills at most its
spare part, so a read never crosses a capacity of the buffer.

**Third-party code.** `BytesMut::chunk_mut` grows a full buffer with
`reserve(64)`; how much room that gives is a parameter (`Growth`), of which
is assumed only that it gives some. `String::from_utf8_lossy` is
`Utf8.lossy`. A timeout and an error of the socket are inputs.

**Results.**
* `readHeader_ok`: the loop ends with the first read that completes the
  header, or passes 50 KiB.
* `unread_after_header_iff`: the caller can read exactly what follows the
  header when a read ends with the header; otherwise the bytes of the
  destination that came with it are lost (`destinationSpeaks_lost`).
* `headerEnd_le_iff`, `readHeader_length_le`, `exists_filling`: how much of a
  stream can be in the buffer when the loop ends. It is the stream up to the
  first capacity at or behind the end of the header (`held`), and reads that
  fill the buffer bring as much.
* `readResponse_ok_iff`: the verdict is that of the status line, for every
  cutting that fits, exactly on the streams that are `Plain`. A header field
  that quotes the text, or bytes after the header, make a refusal an
  acceptance (`quotedStatus_accepted`).
-/
namespace Wstunnel.L3.HttpProxy

open Wstunnel.Str

abbrev Bytes := List UInt8

/-- One `read_buf` under its timeout. `ok []` is the end of the stream. -/
inductive ReadEv where
  | ok (bytes : Bytes)
  | err (text : Bytes)
  | elapsed
  deriving DecidableEq, Repr

def ascii (text : String) : Bytes := text.toList.map fun c => UInt8.ofNat c.toNat

def endHttpResponse : Bytes := [13, 10, 13, 10]
def okResponse10 : Bytes := ascii "HTTP/1.0 200 "
def okResponse11 : Bytes := ascii "HTTP/1.1 200 "

/-- 50 KiB -/
def maxResponse : Nat := 50 * 1024

/-- When the loop stops reading. -/
def headerEnds (buf : Bytes) : Bool := maxResponse < buf.length || hasWindow endHttpResponse buf

variable (G : Growth)

/-- The loop, with the reads that are left after it; `none` while it waits.
mirrors wstunnel/src/protocols/tcp/server.rs:166-192 -/
def readHeader (b : GrowBuf) : List ReadEv → Option (Except Bytes (Bytes × List ReadEv))
  | [] => none
  | .ok bytes :: reads =>
    if bytes = [] then
      some (.error (ascii "Cannot connect to http proxy. Proxy closed the connection without returning any response"))
    else match b.read G bytes with
      -- more than there is room for: `read_buf` brings no such read
      | none => none
      | some b => if headerEnds b.bytes then some (.ok (b.bytes, reads)) else readHeader b reads
  | .err text :: _ => some (.error (ascii "Cannot connect to http proxy. " ++ text))
  | .elapsed :: _ => some (.error (ascii "Cannot connect to http proxy. Proxy took too long to connect"))

/-- `BytesMut::with_capacity(1024)` -/
def start : GrowBuf := .withCapacity 1024

/-- mirrors wstunnel/src/protocols/tcp/server.rs:194-199 -/
def saysOk (buf : Bytes) : Bool :=
  (windows okResponse10.length buf).any fun window => window = okResponse10 || window = okResponse11

/-- The socket, as the reads that are left of it, or an error.
mirrors wstunnel/src/protocols/tcp/server.rs:166-208 -/
def readResponse (reads : List ReadEv) : Option (Except Bytes (List ReadEv)) :=
  (readHeader G start reads).map fun
    | .error e => .error e
    | .ok (buf, rest) =>
      if saysOk buf then .ok rest
      else .error (ascii "Cannot connect to http proxy. Proxy returned an invalid response: " ++
        Utf8.lossy buf)

/-! ## The stream -/

/-- The reads that the loop takes have room in the buffer. -/
def Fits (b : GrowBuf) : List ReadEv → Prop
  | .ok bytes :: reads => bytes = [] ∨ ∃ b', b.read G bytes = some b' ∧ (headerEnds b'.bytes = false → Fits b' reads)
  | _ => True

variable {G}

/-- The bytes that reads bring before the end of the stream, an error or a
timeout. -/
def received : List ReadEv → Bytes
  | .ok bytes :: reads => if bytes = [] then [] else bytes ++ received reads
  | _ => []

theorem received_last (bytes : Bytes) : received [.ok bytes] = bytes := by
  by_cases h : bytes = [] <;> simp [received, h]

theorem received_append {pre : List Bytes} (hpre : [] ∉ pre) (reads : List ReadEv) :
    received (pre.map .ok ++ reads) = pre.flatten ++ received reads := by
  induction pre with
  | nil => rfl
  | cons b pre ih =>
    rw [List.mem_cons, not_or] at hpre
    rw [List.map_cons, List.cons_append, received, if_neg (Ne.symm hpre.1), ih hpre.2, List.flatten_cons,
      List.append_assoc]

theorem headerEnds_iff {buf : Bytes} :
    headerEnds buf = true ↔ maxResponse < buf.length ∨ endHttpResponse <:+: buf := by
  rw [headerEnds, Bool.or_eq_true, decide_eq_true_eq, hasWindow_iff (by decide)]

theorem headerEnds_append {buf : Bytes} (h : headerEnds buf = true) (more : Bytes) :
    headerEnds (buf ++ more) = true := by
  rw [headerEnds_iff] at h ⊢
  refine h.imp (fun hlen => ?_) fun hin => hin.trans (List.prefix_append buf more).isInfix
  rw [List.length_append]
  omega

/-- What the loop consumes: reads that do not complete the header and one
that does. -/
structure Consumed (buf : Bytes) (reads : List ReadEv) (buf' : Bytes) (rest : List ReadEv)
    (pre : List Bytes) (bytes : Bytes) : Prop where
  reads_eq : reads = pre.map .ok ++ .ok bytes :: rest
  nonempty : [] ∉ pre ∧ bytes ≠ []
  buf_eq : buf' = buf ++ pre.flatten ++ bytes
  before : headerEnds (buf ++ pre.flatten) = false
  ends : headerEnds buf' = true

/-- A read after which the loop still returns the buffer: it brings something, there
is room for it, and it completes the header or the loop goes on. -/
theorem readHeader_cons_eq_ok {b : GrowBuf} {buf' : Bytes} {ev : ReadEv} {reads rest : List ReadEv}
    (h : readHeader G b (ev :: reads) = some (.ok (buf', rest))) :
    ∃ bytes b', ev = .ok bytes ∧ bytes ≠ [] ∧ b.read G bytes = some b' ∧
      (headerEnds b'.bytes = true ∧ buf' = b'.bytes ∧ rest = reads ∨
        headerEnds b'.bytes = false ∧ readHeader G b' reads = some (.ok (buf', rest))) := by
  cases ev with
  | err _ | elapsed => cases h
  | ok bytes =>
    rw [readHeader] at h
    by_cases hne : bytes = []
    · rw [if_pos hne] at h
      cases h
    rw [if_neg hne] at h
    split at h
    · cases h
    rename_i b' hread
    refine ⟨bytes, b', rfl, hne, hread, ?_⟩
    by_cases hends : headerEnds b'.bytes = true
    · rw [if_pos hends] at h
      cases h
      exact .inl ⟨hends, rfl, rfl⟩
    · rw [if_neg hends] at h
      exact .inr ⟨Bool.eq_false_iff.mpr hends, h⟩

theorem readHeader_ok {b : GrowBuf} {buf' : Bytes} {reads rest : List ReadEv} (hb : headerEnds b.bytes = false)
    (h : readHeader G b reads = some (.ok (buf', rest))) :
    ∃ pre bytes, Consumed b.bytes reads buf' rest pre bytes := by
  induction reads generalizing b with
  | nil => cases h
  | cons ev reads ih =>
    obtain ⟨bytes, b', rfl, hne, hread, hcases⟩ := readHeader_cons_eq_ok h
    obtain ⟨hbytes, -⟩ := GrowBuf.read_eq_some hread
    rcases hcases with ⟨hends, rfl, rfl⟩ | ⟨hends, h⟩
    · exact ⟨[], bytes, rfl, ⟨by simp, hne⟩, by simpa using hbytes, by simpa using hb, hends⟩
    · obtain ⟨pre, last, hc⟩ := ih hends h
      refine ⟨bytes :: pre, last, by rw [hc.reads_eq]; rfl, ⟨?_, hc.nonempty.2⟩, ?_, ?_, hc.ends⟩
      · rw [List.mem_cons, not_or]
        exact ⟨Ne.symm hne, hc.nonempty.1⟩
      · rw [hc.buf_eq, hbytes, List.flatten_cons, List.append_assoc b.bytes bytes]
      · rw [List.flatten_cons, ← List.append_assoc, ← hbytes]
        exact hc.before

theorem Consumed.tail {buf buf' p bytes : Bytes} {reads rest : List ReadEv} {pre : List Bytes}
    (h : Consumed buf reads buf' rest (p :: pre) bytes) : Consumed (buf ++ p) reads.tail buf' rest pre bytes where
  reads_eq := by rw [h.reads_eq]; rfl
  nonempty := ⟨fun hmem => h.nonempty.1 (List.mem_cons_of_mem _ hmem), h.nonempty.2⟩
  buf_eq := by rw [h.buf_eq, List.flatten_cons, List.append_assoc buf p]
  before := by rw [List.append_assoc, ← List.flatten_cons]; exact h.before
  ends := h.ends

/-- The loop does not go on behind the read that completes the header. -/
theorem Consumed.not_cons {buf buf₁ buf₂ p bytes₁ bytes₂ : Bytes} {reads rest₁ rest₂ : List ReadEv}
    {pre : List Bytes} (h₁ : Consumed buf reads buf₁ rest₁ [] bytes₁) :
    ¬ Consumed buf reads buf₂ rest₂ (p :: pre) bytes₂ := by
  intro h₂
  cases h₁.reads_eq.symm.trans h₂.reads_eq
  have hends := h₁.ends
  rw [h₁.buf_eq, List.flatten_nil, List.append_nil] at hends
  have hmore := headerEnds_append hends pre.flatten
  rw [List.append_assoc, ← List.flatten_cons, h₂.before] at hmore
  cases hmore

/-- The read that completes the header is one and the same. -/
theorem Consumed.unique {buf buf₁ buf₂ bytes₁ bytes₂ : Bytes} {reads rest₁ rest₂ : List ReadEv}
    {pre₁ pre₂ : List Bytes} (h₁ : Consumed buf reads buf₁ rest₁ pre₁ bytes₁)
    (h₂ : Consumed buf reads buf₂ rest₂ pre₂ bytes₂) : buf₁ = buf₂ ∧ rest₁ = rest₂ := by
  have hreads := h₁.reads_eq.symm.trans h₂.reads_eq
  induction pre₁ generalizing buf reads pre₂ with
  | nil =>
    cases pre₂ with
    | nil =>
      cases hreads
      exact ⟨h₁.buf_eq.trans h₂.buf_eq.symm, rfl⟩
    | cons p pre₂ => exact absurd h₂ h₁.not_cons
  | cons p pre₁ ih =>
    cases pre₂ with
    | nil => exact absurd h₁ h₂.not_cons
    | cons q pre₂ =>
      obtain rfl : p = q := ReadEv.ok.inj (List.cons.inj hreads).1
      exact ih h₁.tail h₂.tail (h₁.tail.reads_eq.symm.trans h₂.tail.reads_eq)

/-- The loop does end on a stream that completes the header. -/
theorem readHeader_of_headerEnds {b : GrowBuf} {reads : List ReadEv} (hb : headerEnds b.bytes = false)
    (hfits : Fits G b reads) (h : headerEnds (b.bytes ++ received reads) = true) :
    ∃ buf' rest, readHeader G b reads = some (.ok (buf', rest)) := by
  have hnil : headerEnds (b.bytes ++ []) ≠ true := by
    rw [List.append_nil, hb]
    exact Bool.false_ne_true
  induction reads generalizing b with
  | nil => exact absurd h hnil
  | cons ev reads ih =>
    cases ev with
    | err _ | elapsed => exact absurd h hnil
    | ok bytes =>
      rw [received] at h
      by_cases hne : bytes = []
      · rw [if_pos hne] at h
        exact absurd h hnil
      rw [if_neg hne] at h
      obtain ⟨b', hread, hrest⟩ := hfits.resolve_left hne
      obtain ⟨hbytes, -⟩ := GrowBuf.read_eq_some hread
      rw [readHeader, if_neg hne, hread]
      dsimp only
      by_cases hends : headerEnds b'.bytes = true
      · rw [if_pos hends]
        exact ⟨_, _, rfl⟩
      rw [if_neg hends]
      have hends := Bool.eq_false_iff.mpr hends
      refine ih hends (hrest hends) ?_ ?_
      · rwa [hbytes, List.append_assoc]
      · rw [List.append_nil, hends]
        exact Bool.false_ne_true

/-- The stream is what the loop took and what is left. -/
theorem Consumed.received {reads rest : List ReadEv} {buf' bytes : Bytes} {pre : List Bytes}
    (h : Consumed [] reads buf' rest pre bytes) : received reads = buf' ++ received rest := by
  rw [h.reads_eq, received_append h.nonempty.1, HttpProxy.received, if_neg h.nonempty.2, h.buf_eq,
    List.nil_append, List.append_assoc]

theorem readResponse_eq_ok {reads rest : List ReadEv} : readResponse G reads = some (.ok rest) ↔
    ∃ buf, readHeader G start reads = some (.ok (buf, rest)) ∧ saysOk buf = true := by
  rw [readResponse, Option.map_eq_some_iff]
  refine ⟨fun ⟨r, hr, hok⟩ => ?_, fun ⟨buf, hread, hok⟩ => ⟨_, hread, if_pos hok⟩⟩
  split at hok
  · cases hok
  · rename_i buf rest'
    split at hok
    · rename_i hfound
      cases hok
      exact ⟨buf, hr, hfound⟩
    · cases hok

theorem headerEnds_start : headerEnds start.bytes = false := by decide

/-! ## What is left for the caller -/

/-- One of the reads ends with the header, and the loop gets to it. -/
def CutAfter (header : Bytes) (reads : List ReadEv) : Prop :=
  ∃ (pre : List Bytes) (bytes : Bytes) (post : List ReadEv), reads = pre.map .ok ++ .ok bytes :: post ∧
    ([] ∉ pre ∧ bytes ≠ []) ∧ pre.flatten ++ bytes = header ++ endHttpResponse ∧
    pre.flatten.length ≤ maxResponse

/-- **When the connection is made, what the caller can still read is what
follows the first empty line exactly when a read ended with that line, not
more than 50 KiB having come before it.** -/
theorem unread_after_header_iff (G : Growth) (reads rest : List ReadEv) (header after : Bytes)
    (hok : readResponse G reads = some (.ok rest))
    (hsplit : splitOnce endHttpResponse (received reads) = some (header, after)) :
    received rest = after ↔ CutAfter header reads := by
  obtain ⟨buf, hread, -⟩ := readResponse_eq_ok.mp hok
  obtain ⟨pre, bytes, hc⟩ := readHeader_ok headerEnds_start hread
  have hstream := (splitOnce_first hsplit).1
  refine ⟨fun hrest => ?_, fun ⟨pre', bytes', post, hreads, hne, hheader, hlen⟩ => ?_⟩
  · refine ⟨pre, bytes, rest, hc.reads_eq, hc.nonempty, ?_, ?_⟩
    · rw [Consumed.received hc, hrest, List.append_left_inj] at hstream
      rw [← hstream, hc.buf_eq]
      rfl
    · have hbefore := hc.before
      rw [← Bool.not_eq_true, headerEnds_iff, not_or] at hbefore
      exact Nat.not_lt.mp hbefore.1
  · -- the cut of the hypothesis is the one the loop makes
    have hcut : Consumed [] reads (header ++ endHttpResponse) post pre' bytes' := by
      refine ⟨hreads, hne, hheader.symm, ?_, headerEnds_iff.mpr (.inr (List.suffix_append _ _).isInfix)⟩
      rw [← Bool.not_eq_true, headerEnds_iff, not_or, List.nil_append]
      refine ⟨Nat.not_lt.mpr hlen, fun hin => ?_⟩
      have hpre : pre'.flatten <+: received reads :=
        (List.prefix_append _ bytes').trans ⟨after, by rw [hheader, hstream]⟩
      have hshort := ((infix_of_prefix_iff hsplit hpre).mp hin).length_le
      rw [← hheader, List.length_append] at hshort
      have := List.length_pos_iff.mpr hne.2
      omega
    obtain ⟨-, rfl⟩ := hc.unique hcut
    have hpost := hcut.received
    rw [hstream, List.append_right_inj] at hpost
    exact hpost.symm

/-- The growth of a `Vec`: at least the double. -/
def doubling : Growth where
  grow capacity := max (2 * capacity) (capacity + 64)
  lt_grow capacity := by omega

/-- An answer whose header is a read of its own. -/
def okHeader : Bytes := ascii "HTTP/1.1 200 OK\r\n\r\n"

theorem unread_after_header_ownRead :
    received [.ok (ascii "SSH-2.0")] = ascii "SSH-2.0" ↔
      CutAfter (ascii "HTTP/1.1 200 OK") [.ok okHeader, .ok (ascii "SSH-2.0")] :=
  unread_after_header_iff doubling [.ok okHeader, .ok (ascii "SSH-2.0")] [.ok (ascii "SSH-2.0")] _ _
    (by decide +kernel) (by decide +kernel)

/-- The destination speaks first, and its greeting comes with the end of the
proxy's header: the caller can read nothing of it. -/
theorem destinationSpeaks_lost :
    readResponse doubling [.ok (okHeader ++ ascii "SSH-2.0")] = some (.ok []) ∧
      splitOnce endHttpResponse (received [.ok (okHeader ++ ascii "SSH-2.0")]) =
        some (ascii "HTTP/1.1 200 OK", ascii "SSH-2.0") ∧
      received [] ≠ ascii "SSH-2.0" := by
  decide +kernel

/-! ## The verdict -/

/-- The first line of a header. -/
def firstLine (header : Bytes) : Bytes := ((splitOnce [13, 10] header).map Prod.fst).getD header

/-- The stream has a header of at most 50 KiB whose status line is a success. -/
def Accepts (stream : Bytes) : Prop :=
  ∃ header after, splitOnce endHttpResponse stream = some (header, after) ∧
    (header ++ endHttpResponse).length ≤ maxResponse ∧
    (okResponse10 <+: firstLine header ∨ okResponse11 <+: firstLine header)

/-- How much of the stream ends the loop: up to the first empty line, or more
than 50 KiB. -/
def headerEnd (stream : Bytes) : Nat :=
  match splitOnce endHttpResponse stream with
  | some (header, _) => min (header ++ endHttpResponse).length (maxResponse + 1)
  | none => maxResponse + 1

variable (G) in
/-- What can be in the buffer when the loop ends: the stream up to the first
capacity of the buffer at or behind the end of the header. -/
def held (stream : Bytes) : Bytes := stream.take (G.upTo 1024 (headerEnd stream))

variable (G) in
/-- Once the stream has an empty line or passes 50 KiB: what can be in the
buffer holds the text of a success nowhere if the stream does not start with
it, and if it starts with one its header is complete within 50 KiB. -/
structure Plain (stream : Bytes) : Prop where
  unquoted : headerEnds stream = true → okResponse10 <:+: held G stream ∨ okResponse11 <:+: held G stream →
    okResponse10 <+: stream ∨ okResponse11 <+: stream
  short : headerEnds stream = true → okResponse10 <+: stream ∨ okResponse11 <+: stream →
    ∃ header after, splitOnce endHttpResponse stream = some (header, after) ∧
      (header ++ endHttpResponse).length ≤ maxResponse

theorem not_accepts {stream : Bytes} (header after : Bytes)
    (hs : splitOnce endHttpResponse stream = some (header, after))
    (hline : ¬ okResponse10 <+: firstLine header ∧ ¬ okResponse11 <+: firstLine header) : ¬ Accepts stream := by
  rintro ⟨header', after', hs', -, hline'⟩
  cases hs.symm.trans hs'
  exact hline'.elim hline.1 hline.2

theorem saysOk_iff {buf : Bytes} :
    saysOk buf = true ↔ okResponse10 <:+: buf ∨ okResponse11 <:+: buf := by
  rw [← hasWindow_iff (by decide), ← hasWindow_iff (by decide), saysOk, hasWindow, hasWindow,
    show okResponse11.length = okResponse10.length from by decide]
  simp only [List.any_eq_true, Bool.or_eq_true, decide_eq_true_eq]
  refine ⟨?_, ?_⟩
  · rintro ⟨w, hw, h | h⟩
    · exact .inl ⟨w, hw, h⟩
    · exact .inr ⟨w, hw, h⟩
  · rintro (⟨w, hw, h⟩ | ⟨w, hw, h⟩)
    · exact ⟨w, hw, .inl h⟩
    · exact ⟨w, hw, .inr h⟩

theorem firstLine_starts (header : Bytes) : firstLine header <+: header := by
  rw [firstLine]
  cases h : splitOnce [13, 10] header with
  | none => exact List.prefix_rfl
  | some p =>
    rw [(splitOnce_first h).1, List.append_assoc]
    exact List.prefix_append _ _

/-- After the first line comes a CR. -/
theorem firstLine_cr (header after : Bytes) :
    ∃ r, header ++ endHttpResponse ++ after = firstLine header ++ 13 :: r := by
  rw [firstLine]
  cases h : splitOnce [13, 10] header with
  | none => exact ⟨_, List.append_assoc header _ _⟩
  | some p =>
    rw [(splitOnce_first h).1]
    exact ⟨_, by simp only [List.append_assoc, List.cons_append]; rfl⟩

/-- A text without a CR that a stream starts with is in its first line. -/
theorem prefix_firstLine {pat header after : Bytes} (hcr : (13 : UInt8) ∉ pat)
    (h : pat <+: header ++ endHttpResponse ++ after) : pat <+: firstLine header := by
  obtain ⟨r, hr⟩ := firstLine_cr header after
  rw [hr] at h
  by_cases hlen : pat.length ≤ (firstLine header).length
  · exact List.prefix_of_prefix_length_le h (List.prefix_append _ _) hlen
  · have hline : firstLine header ++ [13] <+: pat := by
      refine List.prefix_of_prefix_length_le ⟨r, by rw [List.append_assoc]; rfl⟩ h ?_
      rw [List.length_append, List.length_singleton]
      omega
    exact absurd (hline.subset (List.mem_append_right _ (List.mem_singleton.mpr rfl))) hcr

/-- What the loop took says ok when the stream starts with the text. -/
theorem saysOk_of_prefix {pat stream buf : Bytes} (hpat : pat = okResponse10 ∨ pat = okResponse11)
    (hs : pat <+: stream) (hbuf : buf <+: stream) (hlen : pat.length ≤ buf.length) : saysOk buf = true := by
  have hin := (List.prefix_of_prefix_length_le hs hbuf hlen).isInfix
  refine saysOk_iff.mpr ?_
  rcases hpat with rfl | rfl
  · exact .inl hin
  · exact .inr hin

/-! ## How much the buffer can hold -/

theorem headerEnd_le_iff {p stream : Bytes} (hp : p <+: stream) :
    headerEnd stream ≤ p.length ↔ headerEnds p = true := by
  rw [headerEnds_iff, headerEnd]
  cases hsplit : splitOnce endHttpResponse stream with
  | none =>
    have hnot : ¬ endHttpResponse <:+: p := fun hin => by
      have hsome := isSome_splitOnce.mpr (hin.trans hp.isInfix)
      rw [hsplit] at hsome
      cases hsome
    simp only [hnot, or_false]
    exact Nat.succ_le_iff
  | some parts =>
    obtain ⟨header, after⟩ := parts
    have hheader : header ++ endHttpResponse <+: stream := ⟨after, (splitOnce_first hsplit).1.symm⟩
    have hcomplete : (header ++ endHttpResponse).length ≤ p.length ↔ endHttpResponse <:+: p := by
      rw [infix_of_prefix_iff hsplit hp]
      exact ⟨List.prefix_of_prefix_length_le hheader hp, List.IsPrefix.length_le⟩
    rw [← hcomplete]
    dsimp only
    omega

/-- The buffer ends at or before the first capacity behind the end of the header. -/
theorem readHeader_length_le {b : GrowBuf} {buf' : Bytes} {reads rest : List ReadEv} {n : Nat}
    (hn : ∀ p, p <+: b.bytes ++ received reads → headerEnds p = false → p.length < n)
    (hb : headerEnds b.bytes = false) (h : readHeader G b reads = some (.ok (buf', rest))) :
    buf'.length ≤ G.upTo b.capacity n := by
  induction reads generalizing b with
  | nil => cases h
  | cons ev reads ih =>
    obtain ⟨bytes, b', rfl, hne, hread, hcases⟩ := readHeader_cons_eq_ok h
    rcases hcases with ⟨-, rfl, -⟩ | ⟨hends, h⟩
    · exact GrowBuf.length_le_upTo hread (hn b.bytes (List.prefix_append _ _) hb)
    · have hn' : ∀ p, p <+: b'.bytes ++ received reads → headerEnds p = false → p.length < n := by
        rw [(GrowBuf.read_eq_some hread).1, List.append_assoc]
        rw [received, if_neg hne] at hn
        exact hn
      rw [← GrowBuf.upTo_read hread (hn' _ (List.prefix_append _ _) hends)]
      exact ih hn' hends h

/-- Reads that fill the buffer bring as much as it can hold. -/
theorem exists_filling {b : GrowBuf} {stream : Bytes} (hb : headerEnds b.bytes = false)
    (hends : headerEnds (b.bytes ++ stream) = true) :
    ∃ reads, received reads = stream ∧ Fits G b reads ∧ ∃ rest, readHeader G b reads =
      some (.ok ((b.bytes ++ stream).take (G.upTo (b.spare G) (headerEnd (b.bytes ++ stream))), rest)) := by
  -- on the length of what is to be read: every read fills the buffer
  induction hlen : stream.length using Nat.strong_induction_on generalizing b stream with
  | _ len ih =>
    obtain ⟨b', hread, hbytes, hcapacity⟩ := b.exists_read_fill G stream
    have hsplit := List.take_append_drop (b.spare G - b.bytes.length) stream
    have hall : b'.bytes ++ stream.drop (b.spare G - b.bytes.length) = b.bytes ++ stream := by
      rw [(GrowBuf.read_eq_some hread).1, List.append_assoc, hsplit]
    have hend := headerEnd_le_iff (hall ▸ List.prefix_append b'.bytes _ : b'.bytes <+: b.bytes ++ stream)
    have hne : stream.take (b.spare G - b.bytes.length) ≠ [] := by
      intro hnil
      have := b.length_lt_spare (G := G)
      have hstream : stream = [] := (List.take_eq_nil_iff.mp hnil).resolve_left (by omega)
      rw [hstream, List.append_nil, hb] at hends
      cases hends
    by_cases hnow : headerEnds b'.bytes = true
    · refine ⟨[.ok (stream.take (b.spare G - b.bytes.length)), .ok (stream.drop (b.spare G - b.bytes.length))], ?_,
        .inr ⟨b', hread, fun hnot => ?_⟩, [.ok (stream.drop (b.spare G - b.bytes.length))], ?_⟩
      · rw [received, if_neg hne, received_last, hsplit]
      · rw [hnow] at hnot
        cases hnot
      · have hle : headerEnd (b.bytes ++ stream) ≤ b.spare G := hcapacity ▸ (hend.mpr hnow).trans b'.length_le
        rw [readHeader, if_neg hne, hread]
        dsimp only
        rw [if_pos hnow, G.upTo_of_le hle, hbytes]
    · have hnot := Bool.eq_false_iff.mpr hnow
      have hlt : b'.bytes.length < headerEnd (b.bytes ++ stream) := Nat.not_le.mp fun hle => hnow (hend.mp hle)
      have hshorter : (stream.drop (b.spare G - b.bytes.length)).length < len := by
        have hpos := List.length_pos_iff.mpr hne
        have hsum := congrArg List.length hsplit
        rw [List.length_append, hlen] at hsum
        omega
      obtain ⟨reads, hreads, hfits, rest, hrest⟩ := ih (stream.drop (b.spare G - b.bytes.length)).length
        hshorter hnot (by rw [hall, hends]) rfl
      refine ⟨.ok (stream.take (b.spare G - b.bytes.length)) :: reads, ?_, .inr ⟨b', hread, fun _ => hfits⟩, rest, ?_⟩
      · rw [received, if_neg hne, hreads, hsplit]
      · rw [readHeader, if_neg hne, hread]
        dsimp only
        rw [if_neg hnow, hrest, hall, GrowBuf.upTo_spare hlt, hcapacity]

/-! ## The verdict for every cutting -/

/-- What is accepted is accepted however it is cut. -/
theorem readResponse_of_accepts {reads : List ReadEv} (hfits : Fits G start reads) (h : Accepts (received reads)) :
    ∃ rest, readResponse G reads = some (.ok rest) := by
  obtain ⟨header, after, hsplit, hlen, hline⟩ := h
  have hstream := (splitOnce_first hsplit).1
  have hends : headerEnds (start.bytes ++ received reads) = true :=
    headerEnds_iff.mpr (.inr ⟨header, after, hstream.symm⟩)
  obtain ⟨buf, rest, hread⟩ := readHeader_of_headerEnds headerEnds_start hfits hends
  obtain ⟨pre, bytes, hc⟩ := readHeader_ok headerEnds_start hread
  have hbuf : buf <+: received reads := ⟨_, (Consumed.received hc).symm⟩
  refine ⟨rest, readResponse_eq_ok.mpr ⟨buf, hread, ?_⟩⟩
  -- whichever test stopped the loop, the buffer is longer than the text
  have hfound {pat : Bytes} (hpat : pat = okResponse10 ∨ pat = okResponse11)
      (hline : pat <+: firstLine header) : saysOk buf = true := by
    have hheader : pat <+: header := hline.trans (firstLine_starts header)
    have hwhole : header <+: received reads :=
      ⟨endHttpResponse ++ after, by rw [hstream, List.append_assoc]⟩
    refine saysOk_of_prefix hpat (hheader.trans hwhole) hbuf ?_
    rcases headerEnds_iff.mp hc.ends with hlong | hin
    · have : pat.length ≤ maxResponse := by rcases hpat with rfl | rfl <;> decide
      omega
    · have hcomplete := (infix_of_prefix_iff hsplit hbuf).mp hin
      exact (hheader.trans ((List.prefix_append _ _).trans hcomplete)).length_le
  exact hline.elim (hfound (.inl rfl)) (hfound (.inr rfl))

theorem buf_prefix_held {reads rest : List ReadEv} {buf : Bytes}
    (hread : readHeader G start reads = some (.ok (buf, rest))) : buf <+: held G (received reads) := by
  obtain ⟨pre, bytes, hc⟩ := readHeader_ok headerEnds_start hread
  have hbuf : buf <+: received reads := ⟨_, (Consumed.received hc).symm⟩
  have hlen : buf.length ≤ G.upTo 1024 (headerEnd (received reads)) := by
    refine readHeader_length_le (fun p hp hnot => Nat.not_le.mp fun hle => ?_) headerEnds_start hread
    rw [(headerEnd_le_iff hp).mp hle] at hnot
    cases hnot
  rw [held, List.prefix_take_iff]
  exact ⟨hbuf, hlen⟩

/-- What some cutting makes a connection of is accepted, if it is plain. -/
theorem Plain.accepts {reads rest : List ReadEv} (h : Plain G (received reads))
    (hok : readResponse G reads = some (.ok rest)) : Accepts (received reads) := by
  obtain ⟨buf, hread, hfound⟩ := readResponse_eq_ok.mp hok
  obtain ⟨pre, bytes, hc⟩ := readHeader_ok headerEnds_start hread
  have hends : headerEnds (received reads) = true := by
    rw [Consumed.received hc]
    exact headerEnds_append hc.ends _
  have hbuf := (buf_prefix_held hread).isInfix
  have hstart := h.unquoted hends ((saysOk_iff.mp hfound).imp (·.trans hbuf) (·.trans hbuf))
  obtain ⟨header, after, hsplit, hlen⟩ := h.short hends hstart
  refine ⟨header, after, hsplit, hlen, ?_⟩
  rw [(splitOnce_first hsplit).1] at hstart
  exact hstart.imp (prefix_firstLine (by decide)) (prefix_firstLine (by decide))

theorem Accepts.startsOk {stream : Bytes} (h : Accepts stream) :
    okResponse10 <+: stream ∨ okResponse11 <+: stream := by
  obtain ⟨header, after, hsplit, -, hline⟩ := h
  rw [(splitOnce_first hsplit).1, List.append_assoc]
  have hfirst : firstLine header <+: header ++ (endHttpResponse ++ after) :=
    (firstLine_starts header).trans (List.prefix_append _ _)
  exact hline.imp (·.trans hfirst) (·.trans hfirst)

/-- A stream that starts with the text has it in the buffer. -/
theorem infix_held {pat stream : Bytes} (hpat : pat = okResponse10 ∨ pat = okResponse11) (h : pat <+: stream) :
    pat <:+: held G stream := by
  have hlen : pat.length ≤ G.upTo 1024 (headerEnd stream) := by
    have hcap := G.le_upTo 1024 (headerEnd stream)
    have : pat.length ≤ 1024 := by rcases hpat with rfl | rfl <;> decide
    omega
  exact (List.prefix_take_iff.mpr ⟨h, hlen⟩).isInfix

/-- **However a stream is cut into reads that fit, the connection is made
exactly when its header is complete within 50 KiB and its status line is a
success, if and only if the stream is plain.** -/
theorem readResponse_ok_iff (G : Growth) (stream : Bytes) :
    (∀ reads, Fits G start reads → received reads = stream →
      ((∃ rest, readResponse G reads = some (.ok rest)) ↔ Accepts stream)) ↔ Plain G stream := by
  refine ⟨fun h => ?_, ?_⟩
  · -- reads that fill the buffer show what is wrong with a stream that is not plain
    have hfull (hends : headerEnds stream = true) (hok : saysOk (held G stream) = true) : Accepts stream := by
      obtain ⟨reads, hreads, hfits, rest, hread⟩ := exists_filling (G := G) headerEnds_start hends
      exact (h reads hfits hreads).mp ⟨rest, readResponse_eq_ok.mpr ⟨_, hread, hok⟩⟩
    refine ⟨fun hends hin => (hfull hends (saysOk_iff.mpr hin)).startsOk, fun hends hstart => ?_⟩
    obtain ⟨header, after, hsplit, hlen, -⟩ :=
      hfull hends (saysOk_iff.mpr (hstart.imp (infix_held (.inl rfl)) (infix_held (.inr rfl))))
    exact ⟨header, after, hsplit, hlen⟩
  · rintro hplain reads hfits rfl
    exact ⟨fun ⟨rest, hok⟩ => hplain.accepts hok, readResponse_of_accepts hfits⟩

/-- A refusal with a field that quotes the text. -/
def quotingRefusal : Bytes := ascii "HTTP/1.1 403 No\r\nVia: HTTP/1.1 200 \r\n\r\n"

/-- A refusal whose page quotes the text. -/
def refusalPage : Bytes := ascii "HTTP/1.1 403 No\r\n\r\nHTTP/1.1 200 "

/-- A refusal is an acceptance when a field of its header quotes the text,
and when its page does, but then only if the page comes in the same read. -/
theorem quotedStatus_accepted :
    readResponse doubling [.ok quotingRefusal] = some (.ok []) ∧ ¬ Accepts quotingRefusal ∧
      readResponse doubling [.ok refusalPage] = some (.ok []) ∧ ¬ Accepts refusalPage ∧
      (∃ e, readResponse doubling [.ok (refusalPage.take 19), .ok (refusalPage.drop 19)] = some (.error e)) := by
  refine ⟨by decide +kernel, ?_, by decide +kernel, ?_, ⟨_, rfl⟩⟩
  · exact not_accepts (ascii "HTTP/1.1 403 No\r\nVia: HTTP/1.1 200 ") [] (by decide +kernel) (by decide +kernel)
  · exact not_accepts (ascii "HTTP/1.1 403 No") (ascii "HTTP/1.1 200 ") (by decide +kernel)
      (by decide +kernel)

end Wstunnel.L3.HttpProxy
