import Wstunnel.Core.ReadBuf
import Wstunnel.L3Server.RateLimiter

/-!
# The buffer that `RateLimitedRead` reads into

`RateLimitedRead::poll_read` lends the inner reader a part of the unfilled
bytes and then moves the marks of the outer buffer by hand. `assume_init`
counts from the filled mark; the code passes it the new filled mark, which
counts from the start of the buffer.

**Third-party code.** `ReadBuf` of `tokio` is that of `Core.ReadBuf`, with the marks
that `assume_init` and `advance` move. What the inner reader does with the part it is
lent is any extension of it; the limiter's verdict is a parameter (`RateLimiter`).

**Results.**
* `pollReadBuf_pollHalf`: what the poll does to the limiter and to the half
  is what `pollHalf` says.
* `pollReadBuf_extends_iff`: the marks are right after the poll exactly when
  the bytes up to twice the old filled mark, plus what was read, were
  initialized or written. So they are whenever nothing was filled before.
* `filledBuf_marked_uninitialized`: one byte was filled before.
-/
namespace Wstunnel.L3.Rate

/-- The answer of the inner reader and what it leaves of the buffer it was
lent. -/
abbrev InnerRead := ReadBuf → Inner × ReadBuf

/-- It keeps the contract of `AsyncRead` on the buffer it is given: what it
answers is what it has filled. -/
structure HonestOn (inner : InnerRead) (buf : ReadBuf) : Prop where
  wellFormed : (inner buf).2.WellFormed
  capacity : (inner buf).2.capacity = buf.capacity
  answer : (inner buf).1.bytes = (inner buf).2.filled

/-- The limiters, the half and the buffer after a poll. `lent` is what the
inner reader left of its part, if it was polled. -/
structure ReadOutcome where
  limiters : List Limiter
  half : Half
  buf : ReadBuf
  lent : Option ReadBuf
  deriving DecidableEq, Repr

/-- The bytes that the inner reader produced, and those that it wrote. -/
def ReadOutcome.produced (o : ReadOutcome) : Nat := (o.lent.map ReadBuf.filled).getD 0
def ReadOutcome.written (o : ReadOutcome) : Nat := (o.lent.map ReadBuf.initialized).getD 0

/-- The end of `poll_read`.
mirrors wstunnel/src/tunnel/rate_limiter.rs:163-170 -/
def Half.readInner (h : Half) (limiters : List Limiter) (n : Nat) (inner : InnerRead) (buf : ReadBuf) :
    Option ReadOutcome :=
  let before := buf.filled
  let limitedBuf := (inner (buf.take n)).2
  let readN := limitedBuf.filled
  let newFilled := before + readN
  (((buf.restore limitedBuf).assumeInit newFilled).setFilled newFilled).map fun buf =>
    ⟨limiters, { h with moved := h.moved + readN }, buf, some limitedBuf⟩

/-- `poll_read` with its buffer.
mirrors wstunnel/src/tunnel/rate_limiter.rs:137-171 -/
def pollReadBuf (limiters : List Limiter) (h : Half) (sleepOver : Bool) (roll : UInt32) (verdict : Verdict)
    (inner : InnerRead) (buf : ReadBuf) : Option ReadOutcome :=
  if h.panicked then none
  else if h.sleeping ∧ !sleepOver then some ⟨limiters, h, buf, none⟩
  else
    let h := { h with sleeping := false }
    let n := requestSize roll buf.remaining
    match h.limiter with
    | none => h.readInner limiters n inner buf
    | some l => (limiters[l]?).bind fun _ =>
      if n = 0 then some ⟨limiters, { h with panicked := true }, buf, none⟩
      else if verdict = .granted then
        { h with charged := h.charged + n }.readInner (limiters.modify l (·.grant n)) n inner buf
      else some ⟨limiters, { h with sleeping := true }, buf, none⟩

/-! ## What a poll can do -/

/-- The inner reader is not polled and the buffer is as before, or it is and
the marks are moved. -/
inductive ReadMove (n : Nat) (inner : InnerRead) (buf : ReadBuf) : ReadOutcome → Prop where
  | still {limiters h} : ReadMove n inner buf ⟨limiters, h, buf, none⟩
  | read {limiters h buf'}
      (hmarks : ((buf.restore (inner (buf.take n)).2).assumeInit (buf.filled + (inner (buf.take n)).2.filled)).setFilled
        (buf.filled + (inner (buf.take n)).2.filled) = some buf') :
      ReadMove n inner buf ⟨limiters, h, buf', some (inner (buf.take n)).2⟩

theorem readInner_eq_some {h : Half} {limiters : List Limiter} {n : Nat} {inner : InnerRead} {buf : ReadBuf}
    {o : ReadOutcome} (hs : h.readInner limiters n inner buf = some o) :
    ReadMove n inner buf o ∧ o.limiters = limiters ∧
      o.half = { h with moved := h.moved + (inner (buf.take n)).2.filled } := by
  obtain ⟨buf', hmarks, rfl⟩ := Option.map_eq_some_iff.mp hs
  exact ⟨.read hmarks, rfl, rfl⟩

theorem move_of_pollReadBuf {limiters : List Limiter} {h : Half} {sleepOver : Bool} {roll : UInt32}
    {verdict : Verdict} {inner : InnerRead} {buf : ReadBuf} {o : ReadOutcome}
    (hs : pollReadBuf limiters h sleepOver roll verdict inner buf = some o) :
    ReadMove (requestSize roll buf.remaining) inner buf o := by
  simp only [pollReadBuf] at hs
  split at hs
  · cases hs
  split at hs
  · cases hs
    exact .still
  split at hs
  · exact (readInner_eq_some hs).1
  · obtain ⟨lim, -, hs⟩ := Option.bind_eq_some_iff.mp hs
    split at hs
    · cases hs
      exact .still
    split at hs
    · exact (readInner_eq_some hs).1
    · cases hs
      exact .still

/-- The inner reader is polled as `pollHalf` has it. -/
theorem pollInner_of_honest {h : Half} {n : Nat} {inner : InnerRead} {buf : ReadBuf} (hbuf : buf.WellFormed)
    (hin : HonestOn inner (buf.take n)) : h.pollInner n (inner (buf.take n)).1 =
      some { h with moved := h.moved + (inner (buf.take n)).2.filled } := by
  have hle : (inner (buf.take n)).2.filled ≤ n := by
    have hcap := hin.capacity.trans (ReadBuf.capacity_take hbuf n)
    have hf := hin.wellFormed.filled
    have hi := hin.wellFormed.initialized
    omega
  have hans := hin.answer
  cases hk : (inner (buf.take n)).1 with
  | pending | error =>
    rw [hk] at hans
    rw [← hans]
    rfl
  | ready k =>
    rw [hk] at hans
    rw [← hans] at hle ⊢
    exact if_pos hle

/-- The poll of a half, without its buffer. -/
theorem pollReadBuf_pollHalf {limiters : List Limiter} {h : Half} {sleepOver : Bool} {roll : UInt32}
    {verdict : Verdict} {inner : InnerRead} {buf : ReadBuf} {o : ReadOutcome} (hbuf : buf.WellFormed)
    (hin : HonestOn inner (buf.take (requestSize roll buf.remaining)))
    (hs : pollReadBuf limiters h sleepOver roll verdict inner buf = some o) :
    pollHalf limiters h ⟨sleepOver, buf.remaining, roll, verdict,
        (inner (buf.take (requestSize roll buf.remaining))).1⟩ =
      some (o.limiters, o.half) := by
  simp only [pollReadBuf, pollHalf] at hs ⊢
  split at hs
  · cases hs
  rename_i hp
  rw [if_neg hp]
  split at hs
  · rename_i hsleep
    cases hs
    rw [if_pos hsleep]
  rename_i hsleep
  rw [if_neg hsleep]
  cases hl : h.limiter with
  | none =>
    rw [hl] at hs
    obtain ⟨-, hlim, hhalf⟩ := readInner_eq_some hs
    dsimp only
    rw [pollInner_of_honest hbuf hin, hlim, hhalf]
    rfl
  | some l =>
    rw [hl] at hs
    obtain ⟨lim, hget, hs⟩ := Option.bind_eq_some_iff.mp hs
    dsimp only
    rw [hget, Option.bind_some]
    split at hs
    · rename_i hn
      cases hs
      rw [if_pos hn]
    rename_i hn
    rw [if_neg hn]
    split at hs
    · rename_i hreq
      obtain ⟨-, hlim, hhalf⟩ := readInner_eq_some hs
      rw [if_pos hreq, pollInner_of_honest hbuf hin, hlim, hhalf]
      rfl
    · rename_i hreq
      cases hs
      rw [if_neg hreq]

/-! ## The marks -/

/-- **The `ReadBuf` contract.** After every poll the buffer is well formed, has
grown by exactly the bytes that the inner reader produced, keeps the bytes
that were filled before, and has no byte marked as initialized that was
neither initialized nor written by the inner reader, exactly when the inner
reader was not polled or the bytes up to twice the old filled mark, plus those
read, are of this kind. -/
theorem pollReadBuf_extends_iff (limiters : List Limiter) (h : Half) (sleepOver : Bool) (roll : UInt32)
    (verdict : Verdict) (inner : InnerRead) (buf : ReadBuf) (o : ReadOutcome) (hbuf : buf.WellFormed)
    (hin : HonestOn inner (buf.take (requestSize roll buf.remaining)))
    (hs : pollReadBuf limiters h sleepOver roll verdict inner buf = some o) :
    buf.Extends o.buf o.produced o.written ↔ ∀ lent, o.lent = some lent →
      2 * buf.filled + lent.filled ≤ max buf.initialized (buf.filled + lent.initialized) := by
  cases move_of_pollReadBuf hs with
  | still => exact ⟨fun _ _ hlent => (nomatch hlent), fun _ => .refl hbuf⟩
  | @read limiters' h' buf' hmarks =>
    have hfit : buf.filled + (inner (buf.take (requestSize roll buf.remaining))).2.capacity ≤ buf.capacity := by
      have hle := Nat.le_trans hbuf.filled hbuf.initialized
      rw [hin.capacity, ReadBuf.capacity_take hbuf, ReadBuf.remaining]
      omega
    obtain ⟨b', hb', hiff⟩ := ReadBuf.assumeInit_extends_iff hbuf hin.wellFormed hfit
    cases hmarks.symm.trans hb'
    refine hiff.trans ⟨fun hle lent hlent => ?_, fun hle => hle _ rfl⟩
    cases hlent
    exact hle

/-- An inner reader that finds nothing to read. -/
def notReady : InnerRead := fun buf => (.pending, buf)

/-- One byte of four is filled and all are initialized. -/
theorem pollReadBuf_extends_initialized :
    ∃ o, pollReadBuf [] (.new none) false 0 .granted notReady ⟨[7, 0, 0, 0], 1, 4⟩ = some o ∧
      ReadBuf.Extends ⟨[7, 0, 0, 0], 1, 4⟩ o.buf o.produced o.written := by
  have hbuf : ReadBuf.WellFormed ⟨[7, 0, 0, 0], 1, 4⟩ := ⟨by decide, by decide⟩
  refine ⟨⟨[], .new none, ⟨[7, 0, 0, 0], 1, 4⟩, some ⟨[0, 0], 0, 0⟩⟩, by decide, ?_⟩
  refine (pollReadBuf_extends_iff [] (.new none) false 0 .granted notReady _ _ hbuf
    ⟨ReadBuf.take_wellFormed _ _, rfl, rfl⟩ (by decide)).mpr fun lent hlent => ?_
  cases hlent
  decide

/-- With one byte filled and nothing read, a byte that nobody wrote is marked
as initialized; with two bytes of three filled, a byte that does not exist. -/
theorem filledBuf_marked_uninitialized :
    (∃ o, pollReadBuf [] (.new none) false 0 .granted notReady ⟨[7, 0], 1, 1⟩ = some o ∧
      o.buf.initialized = 2 ∧ ¬ ReadBuf.Extends ⟨[7, 0], 1, 1⟩ o.buf o.produced o.written) ∧
    ∃ o, pollReadBuf [] (.new none) false 0 .granted notReady ⟨[7, 7, 0], 2, 2⟩ = some o ∧
      o.buf.capacity < o.buf.initialized ∧
        ¬ ReadBuf.Extends ⟨[7, 7, 0], 2, 2⟩ o.buf o.produced o.written := by
  refine ⟨⟨⟨[], .new none, ⟨[7, 0], 1, 2⟩, some ⟨[0], 0, 0⟩⟩, by decide, rfl, fun h => ?_⟩,
    ⟨⟨[], .new none, ⟨[7, 7, 0], 2, 4⟩, some ⟨[0], 0, 0⟩⟩, by decide, by decide, fun h => ?_⟩⟩
  · exact absurd (h.marked 1 (by decide)) (by decide)
  · exact absurd h.wellFormed.initialized (by decide)

end Wstunnel.L3.Rate
