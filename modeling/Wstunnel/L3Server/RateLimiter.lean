import Mathlib.Algebra.Group.Nat.Defs
import Wstunnel.Core.AssocMap
import Wstunnel.Core.LTS

/-!
# The rate limiter of `tunnel/rate_limiter.rs`

`RateLimiterPool` keeps, for each tunnel id, a limiter for the reading and
one for the writing direction, created by the first connection that is
wrapped under the id. A poll of a wrapped stream asks its limiter for the
tokens of one chunk, and only then polls the inner stream for at most that
many bytes. A refused poll goes to sleep.

**Third-party code.** A limiter is `governor`'s. What is modelled of it are the two
numbers it is built with (`Limiter`) and a count of the cells it has granted; its
verdict on a request is an input of the poll, as are the jitter, the answer of the
inner stream and whether the sleep is over. So `bps` is no more than the argument of
`Quota::per_second`, and every result but one holds for any verdicts. The one that
does not names what it assumes (`Paced`): `governor` grants no more than one burst
and what it has replenished since.

**Results.**
* `aggregate_rate_bound`: all connections of a tunnel id together never move
  more bytes in a direction than their one limiter has granted, and a poll
  whose request is refused moves none.
* `bytes_le_quota`: so they are bounded by the burst and what is replenished, if
  the limiters are `Paced`.
* `charged_le_moved`: as long as at most one granted poll of a direction
  moves less than it was charged, the charge exceeds the traffic by at most
  one chunk.
* `pendingPolls_charged`: two polls that find the stream not ready.
-/
namespace Wstunnel.L3.Rate

/-! ## The pool -/

/-- A `RateLimiter`: the arguments of `Quota::per_second` and `allow_burst`, and the
cells that it has granted. -/
structure Limiter where
  bps : Nat
  burst : Nat
  granted : Nat
  deriving DecidableEq, Repr

/-- The answers of `check_n`. -/
inductive Verdict where
  | granted
  /-- `Ok(Err(not_until))` -/
  | notUntil
  /-- `Err(InsufficientCapacity)` -/
  | insufficientCapacity
  deriving DecidableEq, Repr

/-- `n` cells are granted. -/
def Limiter.grant (lim : Limiter) (n : Nat) : Limiter := { lim with granted := lim.granted + n }

/-- `bytes_per_sec as u32` wraps. The `f64` product truncates to the exact
quotient for every `u16`, and its cast saturates.
mirrors wstunnel/src/tunnel/rate_limiter.rs:52-61 -/
def buildLimiter (m : Option UInt16) : Option Limiter :=
  m.map fun v =>
    let bytesPerSec := v.toNat * 1024 * 1024
    { bps := max (bytesPerSec % 2 ^ 32) 1
      burst := max (min (bytesPerSec * 6 / 5) (2 ^ 32 - 1)) 1
      granted := 0 }

inductive Direction where
  | read
  | write
  deriving DecidableEq, Repr

/-- The limiters are shared: each is the index of one of the pool's. -/
structure DirectionalLimiters where
  read : Option Nat
  write : Option Nat
  deriving DecidableEq, Repr

def DirectionalLimiters.get (e : DirectionalLimiters) : Direction → Option Nat
  | .read => e.read
  | .write => e.write

/-- `entries` is the map; `limiters` are all those ever built for it. -/
structure RateLimiterPool (K : Type) where
  limiters : List Limiter
  entries : List (K × DirectionalLimiters)
  deriving DecidableEq, Repr

def RateLimiterPool.new {K : Type} : RateLimiterPool K := ⟨[], []⟩

/-- `Arc::new`, when there is a limiter. -/
def alloc (limiters : List Limiter) : Option Limiter → List Limiter × Option Nat
  | none => (limiters, none)
  | some lim => (limiters ++ [lim], some limiters.length)

variable {K : Type} [DecidableEq K]

/-- The limiters that a connection wrapped under `tunnelId` gets.
mirrors wstunnel/src/tunnel/rate_limiter.rs:42-77 -/
def RateLimiterPool.wrap (pool : RateLimiterPool K) (tunnelId : K) (uploadM downloadM : Option UInt16) :
    RateLimiterPool K × DirectionalLimiters :=
  match pool.entries.lookup tunnelId with
  | some e => (pool, e)
  | none =>
    -- the reader carries the download, the writer the upload
    let (limiters, read) := alloc pool.limiters (buildLimiter downloadM)
    let (limiters, write) := alloc limiters (buildLimiter uploadM)
    (⟨limiters, (tunnelId, ⟨read, write⟩) :: pool.entries⟩, ⟨read, write⟩)

/-! ## Polls -/

def chunkSize : Nat := 16384

/-- mirrors wstunnel/src/tunnel/rate_limiter.rs:128-134 -/
def jitteredChunk (roll : UInt32) (base : Nat) : Nat :=
  let base := min (max base 1) chunkSize
  let pct := 100 - 10 + roll.toNat % 21
  min (max (base * pct / 100) 1) chunkSize

/-- How many tokens a poll asks for, and how many bytes it lets through; the
space left is cast to `u32`.
mirrors wstunnel/src/tunnel/rate_limiter.rs:147 and 185 -/
def requestSize (roll : UInt32) (remaining : Nat) : Nat :=
  min (jitteredChunk roll (max (min (remaining % 2 ^ 32) chunkSize) 1)) (remaining % 2 ^ 32)

/-- The answer of the inner stream. -/
inductive Inner where
  | pending
  | error
  | ready (n : Nat)
  deriving DecidableEq, Repr

def Inner.bytes : Inner → Nat
  | .ready n => n
  | _ => 0

/-- What a poll meets. `remaining` is the room in the buffer to read into, or
the length of the slice to write. -/
structure Poll where
  sleepOver : Bool
  remaining : Nat
  roll : UInt32
  verdict : Verdict
  inner : Inner
  deriving DecidableEq, Repr

/-- `RateLimitedRead` or `RateLimitedWrite`, with the bytes that went through
and the tokens that were taken so far. -/
structure Half where
  limiter : Option Nat
  sleeping : Bool
  panicked : Bool
  moved : Nat
  charged : Nat
  deriving DecidableEq, Repr

def Half.new (limiter : Option Nat) : Half := ⟨limiter, false, false, 0, 0⟩

/-- The poll of the inner stream, on a slice of `n` bytes. -/
def Half.pollInner (h : Half) (n : Nat) : Inner → Option Half
  | .ready k => if k ≤ n then some { h with moved := h.moved + k } else none
  | _ => some h

/-- The body of `poll_read` and of `poll_write`: they differ in the inner
stream and in what `remaining` is.
mirrors wstunnel/src/tunnel/rate_limiter.rs:137-171 and 175-202 -/
def pollHalf (limiters : List Limiter) (h : Half) (p : Poll) : Option (List Limiter × Half) :=
  if h.panicked then none
  else if h.sleeping ∧ !p.sleepOver then some (limiters, h)
  else
    let h := { h with sleeping := false }
    let n := requestSize p.roll p.remaining
    match h.limiter with
    | none => (h.pollInner n p.inner).map fun h => (limiters, h)
    | some l => (limiters[l]?).bind fun _ =>
      -- `NonZeroU32::new(n).unwrap()`
      if n = 0 then some (limiters, { h with panicked := true })
      else if p.verdict = .granted then
        ({ h with charged := h.charged + n }.pollInner n p.inner).map fun h => (limiters.modify l (·.grant n), h)
      else some (limiters, { h with sleeping := true })

/-! ## The system -/

/-- A connection wrapped under a tunnel id. -/
structure Conn (K : Type) where
  tunnelId : K
  read : Half
  write : Half
  deriving DecidableEq, Repr

def Conn.half (c : Conn K) : Direction → Half
  | .read => c.read
  | .write => c.write

def Conn.set (c : Conn K) (d : Direction) (h : Half) : Conn K :=
  match d with
  | .read => { c with read := h }
  | .write => { c with write := h }

structure State (K : Type) where
  pool : RateLimiterPool K
  conns : List (Conn K)
  deriving DecidableEq, Repr

inductive Label (K : Type) where
  | wrap (tunnelId : K) (uploadM downloadM : Option UInt16)
  | poll (c : Nat) (d : Direction) (p : Poll)
  deriving DecidableEq, Repr

/-- The two halves that `wrap` returns. -/
def State.wrap (s : State K) (tunnelId : K) (uploadM downloadM : Option UInt16) : State K :=
  let (pool, e) := s.pool.wrap tunnelId uploadM downloadM
  ⟨pool, s.conns ++ [⟨tunnelId, .new e.read, .new e.write⟩]⟩

def State.poll (s : State K) (c : Nat) (d : Direction) (p : Poll) : Option (State K) :=
  (s.conns[c]?).bind fun conn =>
    (pollHalf s.pool.limiters (conn.half d) p).map fun (limiters, h) =>
      ⟨{ s.pool with limiters }, s.conns.modify c (·.set d h)⟩

def pollRead (s : State K) (c : Nat) (p : Poll) : Option (State K) := s.poll c .read p

def pollWrite (s : State K) (c : Nat) (p : Poll) : Option (State K) := s.poll c .write p

def step (s : State K) : Label K → Option (State K)
  | .wrap tunnelId uploadM downloadM => some (s.wrap tunnelId uploadM downloadM)
  | .poll c .read p => pollRead s c p
  | .poll c .write p => pollWrite s c p

def start : State K := ⟨.new, []⟩

def rateLimiter : LTS (State K) (Label K) := LTS.ofFn (· = start) step

/-! ## What a poll can do -/

theorem requestSize_le_chunk (roll : UInt32) (remaining : Nat) :
    requestSize roll remaining ≤ chunkSize :=
  Nat.le_trans (Nat.min_le_left _ _) (Nat.min_le_right _ _)

/-- A poll moves nothing, moves bytes without a limiter, or takes the tokens
of its chunk first. -/
inductive HalfMove (limiters : List Limiter) (h : Half) (p : Poll) : List Limiter → Half → Prop where
  | still {h'} (hl : h'.limiter = h.limiter) (hm : h'.moved = h.moved) (hc : h'.charged = h.charged) :
      HalfMove limiters h p limiters h'
  | free {h'} (hl : h.limiter = none) (hl' : h'.limiter = none) (hm : h.moved ≤ h'.moved)
      (hc : h'.charged = h.charged) : HalfMove limiters h p limiters h'
  | granted {l lim h'} (hawake : ¬ (h.sleeping ∧ !p.sleepOver)) (hl : h.limiter = some l)
      (hget : limiters[l]? = some lim) (hverdict : p.verdict = .granted)
      (hk : p.inner.bytes ≤ requestSize p.roll p.remaining) (hl' : h'.limiter = h.limiter)
      (hm : h'.moved = h.moved + p.inner.bytes)
      (hc : h'.charged = h.charged + requestSize p.roll p.remaining) :
      HalfMove limiters h p (limiters.modify l (·.grant (requestSize p.roll p.remaining))) h'

theorem pollInner_eq_some {h h' : Half} {n : Nat} {inner : Inner} (hs : h.pollInner n inner = some h') :
    h' = { h with moved := h.moved + inner.bytes } ∧ inner.bytes ≤ n := by
  cases inner with
  | pending | error =>
    cases hs
    exact ⟨rfl, Nat.zero_le n⟩
  | ready k =>
    simp only [Half.pollInner, Option.ite_none_right_eq_some, Option.some.injEq] at hs
    exact ⟨hs.2.symm, hs.1⟩

theorem move_of_pollHalf {limiters limiters' : List Limiter} {h h' : Half} {p : Poll}
    (hs : pollHalf limiters h p = some (limiters', h')) : HalfMove limiters h p limiters' h' := by
  simp only [pollHalf] at hs
  split at hs
  · cases hs
  split at hs
  · cases hs
    exact .still rfl rfl rfl
  rename_i hawake
  split at hs
  · rename_i hl
    obtain ⟨h₁, hinner, he⟩ := Option.map_eq_some_iff.mp hs
    cases he
    obtain ⟨rfl, -⟩ := pollInner_eq_some hinner
    exact .free hl hl (Nat.le_add_right _ _) rfl
  · rename_i l hl
    obtain ⟨lim, hget, hs⟩ := Option.bind_eq_some_iff.mp hs
    split at hs
    · cases hs
      exact .still rfl rfl rfl
    split at hs
    · rename_i hreq
      obtain ⟨h₁, hinner, he⟩ := Option.map_eq_some_iff.mp hs
      cases he
      obtain ⟨rfl, hk⟩ := pollInner_eq_some hinner
      exact .granted hawake hl hget hreq hk rfl rfl rfl
    · cases hs
      exact .still rfl rfl rfl

/-- A poll step, for either direction. -/
theorem step_poll {s s' : State K} {c : Nat} {d : Direction} {p : Poll} (hs : step s (.poll c d p) = some s') :
    ∃ conn limiters h, s.conns[c]? = some conn ∧
      pollHalf s.pool.limiters (conn.half d) p = some (limiters, h) ∧
      s' = ⟨⟨limiters, s.pool.entries⟩, s.conns.modify c (·.set d h)⟩ := by
  have hs : s.poll c d p = some s' := by cases d <;> exact hs
  obtain ⟨conn, hc, hs⟩ := Option.bind_eq_some_iff.mp hs
  obtain ⟨⟨limiters, h⟩, hp, rfl⟩ := Option.map_eq_some_iff.mp hs
  exact ⟨conn, limiters, h, hc, hp, rfl⟩

omit [DecidableEq K] in
@[simp] theorem half_set_self (c : Conn K) (d : Direction) (h : Half) : (c.set d h).half d = h := by
  cases d <;> rfl

omit [DecidableEq K] in
theorem half_set_of_ne (c : Conn K) {d d' : Direction} (h : Half) (hne : d' ≠ d) :
    (c.set d h).half d' = c.half d' := by
  cases d <;> cases d' <;> first | rfl | exact absurd rfl hne

omit [DecidableEq K] in
@[simp] theorem tunnelId_set (c : Conn K) (d : Direction) (h : Half) :
    (c.set d h).tunnelId = c.tunnelId := by
  cases d <;> rfl

/-! ## The bytes of a tunnel id -/

/-- The bytes that all connections of a tunnel id have moved in a direction. -/
def State.bytes (s : State K) (tunnelId : K) (d : Direction) : Nat :=
  LTS.total (fun c => if c.tunnelId = tunnelId then (c.half d).moved else 0) s.conns

/-- The bytes that went through half `d` of a connection, if it is limited by
`l`. -/
def Conn.through (l : Nat) (c : Conn K) (d : Direction) : Nat :=
  if (c.half d).limiter = some l then (c.half d).moved else 0

/-- The bytes that went through all halves limited by `l`. -/
def State.through (s : State K) (l : Nat) : Nat :=
  LTS.total (fun c => c.through l .read + c.through l .write) s.conns

/-- Entries name limiters that exist. -/
def RateLimiterPool.Known (pool : RateLimiterPool K) : Prop :=
  ∀ e ∈ pool.entries, ∀ d l, e.2.get d = some l → l < pool.limiters.length

/-- The limiters of a connection are those of its id's entry, and each has granted
what went through it. -/
structure Inv (s : State K) : Prop where
  known : s.pool.Known
  shared : ∀ (i : Nat) (conn : Conn K), s.conns[i]? = some conn →
    ∃ e, s.pool.entries.lookup conn.tunnelId = some e ∧ ∀ d, (conn.half d).limiter = e.get d
  bound : ∀ (l : Nat) (lim : Limiter), s.pool.limiters[l]? = some lim → s.through l ≤ lim.granted

theorem alloc_fst (limiters : List Limiter) (lim : Option Limiter) :
    (alloc limiters lim).1 = limiters ++ lim.toList := by
  cases lim <;> simp [alloc]

theorem alloc_snd_lt {limiters : List Limiter} {lim : Option Limiter} {l : Nat}
    (h : (alloc limiters lim).2 = some l) : l < (alloc limiters lim).1.length := by
  cases lim with
  | none => cases h
  | some lim =>
    cases h
    simp [alloc]

/-- What `wrap` does to the pool: it finds or adds the entry of the id. -/
structure Wrapped (pool : RateLimiterPool K) (tunnelId : K) (pool' : RateLimiterPool K)
    (e : DirectionalLimiters) : Prop where
  found : pool'.entries.lookup tunnelId = some e
  kept : ∀ id, id ≠ tunnelId ∨ pool.entries.lookup id ≠ none →
    pool'.entries.lookup id = pool.entries.lookup id
  grows : pool.limiters <+: pool'.limiters
  known : pool.Known → pool'.Known

theorem wrapped (pool : RateLimiterPool K) (tunnelId : K) (uploadM downloadM : Option UInt16) :
    Wrapped pool tunnelId (pool.wrap tunnelId uploadM downloadM).1
      (pool.wrap tunnelId uploadM downloadM).2 := by
  unfold RateLimiterPool.wrap
  split
  · rename_i e he
    exact ⟨he, fun _ _ => rfl, List.prefix_rfl, id⟩
  · rename_i hnone
    dsimp only
    have hlen := alloc_fst (alloc pool.limiters (buildLimiter downloadM)).1 (buildLimiter uploadM)
    have hlen' := alloc_fst pool.limiters (buildLimiter downloadM)
    refine ⟨by simp, fun id hold => ?_, ?_, fun hk e he d l hl => ?_⟩
    · have hne : id ≠ tunnelId := by
        rcases hold with hne | hsome
        · exact hne
        · rintro rfl
          exact hsome hnone
      rw [List.lookup_cons, beq_eq_false_iff_ne.mpr hne]
    · rw [hlen, hlen', List.append_assoc]
      exact List.prefix_append _ _
    · rcases List.mem_cons.mp he with rfl | he
      · cases d with
        | read =>
          have := alloc_snd_lt hl
          simp only [hlen, List.length_append]
          omega
        | write => exact alloc_snd_lt hl
      · have := hk e he d l hl
        rw [hlen, hlen', List.length_append, List.length_append]
        omega

omit [DecidableEq K] in
theorem through_concat (s : State K) (l : Nat) (pool : RateLimiterPool K) (conn : Conn K)
    (hnew : ∀ d, (conn.half d).moved = 0) :
    State.through ⟨pool, s.conns ++ [conn]⟩ l = s.through l := by
  have hzero (d : Direction) : conn.through l d = 0 := by
    rw [Conn.through, hnew d]
    split <;> rfl
  rw [State.through, LTS.total_concat, hzero, hzero]
  rfl

omit [DecidableEq K] in
theorem through_set {s : State K} {c : Nat} {conn : Conn K} (hc : s.conns[c]? = some conn)
    (pool : RateLimiterPool K) (d : Direction) (h : Half) (l : Nat) :
    State.through ⟨pool, s.conns.modify c (·.set d h)⟩ l + conn.through l d =
      s.through l + if h.limiter = some l then h.moved else 0 := by
  have := LTS.total_modify (fun c => c.through l .read + c.through l .write) (·.set d h) hc
  simp only [State.through]
  cases d with
  | read =>
    have h₁ : (conn.set .read h).through l .write = conn.through l .write := rfl
    have h₂ : (conn.set .read h).through l .read = if h.limiter = some l then h.moved else 0 := rfl
    rw [h₁, h₂] at this
    omega
  | write =>
    have h₁ : (conn.set .write h).through l .read = conn.through l .read := rfl
    have h₂ : (conn.set .write h).through l .write = if h.limiter = some l then h.moved else 0 := rfl
    rw [h₁, h₂] at this
    omega

/-- Nothing went through a limiter that does not exist yet. -/
theorem Inv.through_new {s : State K} (h : Inv s) {l : Nat} (hl : s.pool.limiters.length ≤ l) :
    s.through l = 0 := by
  refine LTS.total_eq_zero fun conn hmem => ?_
  obtain ⟨i, hi⟩ := List.mem_iff_getElem?.mp hmem
  obtain ⟨e, he, hlim⟩ := h.shared i conn hi
  have hne (d : Direction) : conn.through l d = 0 := by
    refine if_neg fun hd => ?_
    rw [hlim] at hd
    have := h.known _ (AssocMap.mem_of_lookup he) d l hd
    omega
  rw [hne, hne]

theorem wrap_inv {s : State K} (h : Inv s) (tunnelId : K) (uploadM downloadM : Option UInt16) :
    Inv (s.wrap tunnelId uploadM downloadM) := by
  have hw := wrapped s.pool tunnelId uploadM downloadM
  unfold State.wrap
  generalize s.pool.wrap tunnelId uploadM downloadM = r at hw
  obtain ⟨pool, e⟩ := r
  have hnew : ∀ d, ((⟨tunnelId, .new e.read, .new e.write⟩ : Conn K).half d).moved = 0 := by
    intro d
    cases d <;> rfl
  refine ⟨hw.known h.known, fun i conn hi => ?_, fun l lim hl => ?_⟩
  · simp only [List.getElem?_append, List.getElem?_singleton] at hi
    split at hi
    · obtain ⟨e', he', hlim⟩ := h.shared i conn hi
      exact ⟨e', by rw [hw.kept _ (.inr (by simp [he'])), he'], hlim⟩
    · split at hi
      · cases hi
        exact ⟨e, hw.found, fun d => by cases d <;> rfl⟩
      · cases hi
  · rw [through_concat s l pool _ hnew]
    by_cases hlt : l < s.pool.limiters.length
    · refine h.bound l lim ?_
      obtain ⟨more, hmore⟩ := hw.grows
      rw [← hmore, List.getElem?_append_left hlt] at hl
      exact hl
    · rw [h.through_new (by omega)]
      exact Nat.zero_le _

/-- A poll keeps the limiter of its half. -/
theorem HalfMove.limiter {limiters limiters' : List Limiter} {h h' : Half} {p : Poll}
    (hm : HalfMove limiters h p limiters' h') : h'.limiter = h.limiter := by
  cases hm with
  | still hl _ _ => exact hl
  | free hl hl' _ _ => rw [hl, hl']
  | granted _ _ _ _ _ hl' _ _ => exact hl'

theorem HalfMove.length {limiters limiters' : List Limiter} {h h' : Half} {p : Poll}
    (hm : HalfMove limiters h p limiters' h') : limiters'.length = limiters.length := by
  cases hm with
  | still _ _ _ | free _ _ _ _ => rfl
  | granted _ _ _ _ _ _ _ _ => simp

/-- The tokens come before the bytes: a limiter grants at least what goes
through one more half of it. -/
theorem HalfMove.bound {limiters limiters' : List Limiter} {h h' : Half} {p : Poll} {l' : Nat}
    {lim' : Limiter} (hm : HalfMove limiters h p limiters' h') (hl : limiters'[l']? = some lim') :
    ∃ lim, limiters[l']? = some lim ∧
      (if h'.limiter = some l' then h'.moved else 0) + lim.granted ≤
        (if h.limiter = some l' then h.moved else 0) + lim'.granted := by
  cases hm with
  | still hsame hmoved _ => exact ⟨lim', hl, Nat.le_of_eq (by rw [hsame, hmoved])⟩
  | free hnone hnone' _ _ => exact ⟨lim', hl, by simp [hnone, hnone']⟩
  | @granted l lim _ _ hlim hget hreq hk hlim' hmoved _ =>
    by_cases heq : l' = l
    · subst heq
      rw [List.getElem?_modify_eq, hget, Option.map_eq_map, Option.map_some, Option.some.injEq] at hl
      subst hl
      refine ⟨lim, hget, ?_⟩
      rw [hlim', hlim, if_pos rfl, if_pos rfl, hmoved, Limiter.grant]
      dsimp only
      omega
    · rw [List.getElem?_modify_ne (h := Ne.symm heq)] at hl
      refine ⟨lim', hl, ?_⟩
      have hne : ¬ h.limiter = some l' := by
        rw [hlim, Option.some.injEq]
        exact fun h => heq h.symm
      exact Nat.le_of_eq (by rw [hlim', if_neg hne, if_neg hne])

theorem poll_inv {s s' : State K} (h : Inv s) {c : Nat} {d : Direction} {p : Poll}
    (hs : step s (.poll c d p) = some s') : Inv s' := by
  obtain ⟨conn, limiters, half, hc, hp, rfl⟩ := step_poll hs
  have hm := move_of_pollHalf hp
  refine ⟨fun e he d' l hl => ?_, ?_, fun l lim hl => ?_⟩
  · rw [hm.length]
    exact h.known e he d' l hl
  · refine LTS.forall_modify h.shared (fun conn' hc' hok => ?_) fun _ _ _ hok => hok
    obtain rfl := Option.some.inj (hc'.symm.trans hc)
    obtain ⟨e, he, hlim⟩ := hok
    refine ⟨e, by rw [tunnelId_set]; exact he, fun d' => ?_⟩
    by_cases hd : d' = d
    · subst hd
      rw [half_set_self, hm.limiter]
      exact hlim d'
    · rw [half_set_of_ne _ _ hd]
      exact hlim d'
  · obtain ⟨lim₀, hl₀, hle⟩ := hm.bound hl
    have hthrough := through_set hc ⟨limiters, s.pool.entries⟩ d half l
    have hbound := h.bound l lim₀ hl₀
    simp only [Conn.through] at hthrough
    omega

theorem inv_inductive : (rateLimiter : LTS (State K) (Label K)).Inductive Inv where
  init s hs := by
    rw [show s = start from hs]
    exact ⟨fun _ he => (by cases he), fun _ _ hi => (by cases hi), fun _ _ hl => (by cases hl)⟩
  step s l s' h hs := by
    cases l with
    | wrap tunnelId uploadM downloadM =>
      cases hs
      exact wrap_inv h tunnelId uploadM downloadM
    | poll c d p => exact poll_inv h hs

/-- The verdict on the tokens a poll asks for, if it comes to that. -/
def tokenRequest (limiters : List Limiter) (h : Half) (p : Poll) : Option Verdict :=
  if h.sleeping ∧ !p.sleepOver then none
  else (h.limiter.bind fun l => limiters[l]?).map fun _ => p.verdict

/-- A refused poll leaves the counters of its half alone. -/
theorem pollHalf_refused {limiters limiters' : List Limiter} {h h' : Half} {p : Poll}
    {v : Verdict} (hv : tokenRequest limiters h p = some v) (hne : v ≠ .granted)
    (hs : pollHalf limiters h p = some (limiters', h')) : h'.moved = h.moved := by
  simp only [tokenRequest, Option.ite_none_left_eq_some, Option.map_eq_some_iff,
    Option.bind_eq_some_iff] at hv
  obtain ⟨-, lim, ⟨l, hl, hget⟩, rfl⟩ := hv
  cases move_of_pollHalf hs with
  | still _ hm _ => exact hm
  | free hnone _ _ _ => rw [hnone] at hl; cases hl
  | granted _ _ _ hverdict _ _ _ _ => exact absurd hverdict hne

theorem bytes_set {s : State K} {c : Nat} {conn : Conn K} (hc : s.conns[c]? = some conn)
    (pool : RateLimiterPool K) (d : Direction) (h : Half) (hm : h.moved = (conn.half d).moved)
    (tunnelId : K) (d' : Direction) :
    State.bytes ⟨pool, s.conns.modify c (·.set d h)⟩ tunnelId d' = s.bytes tunnelId d' := by
  have hsame : ((conn.set d h).half d').moved = (conn.half d').moved := by
    by_cases hd : d' = d
    · rw [hd, half_set_self, hm]
    · rw [half_set_of_ne _ _ hd]
  have := LTS.total_modify (fun c : Conn K => if c.tunnelId = tunnelId then (c.half d').moved else 0)
    (·.set d h) hc
  simp only [tunnelId_set, hsame] at this
  simp only [State.bytes]
  omega

/-- The bytes of an id go through the limiter of its entry. -/
theorem Inv.bytes_le_through {s : State K} (h : Inv s) {tunnelId : K} {e : DirectionalLimiters}
    {d : Direction} {l : Nat} (he : s.pool.entries.lookup tunnelId = some e) (hl : e.get d = some l) :
    s.bytes tunnelId d ≤ s.through l := by
  refine LTS.total_le_total fun conn hmem => ?_
  obtain ⟨i, hi⟩ := List.mem_iff_getElem?.mp hmem
  split
  · rename_i hid
    obtain ⟨e', he', hlim⟩ := h.shared i conn hi
    rw [hid, he] at he'
    cases he'
    have hthrough : conn.through l d = (conn.half d).moved := if_pos (by rw [hlim, hl])
    cases d with
    | read => omega
    | write => omega
  · exact Nat.zero_le _

/-- **Aggregate rate bound.** In every reachable state the bytes moved by all
connections of a tunnel id in a direction that has a limiter are at most the
tokens granted by this one limiter; and a poll whose token request is refused
moves no byte of any connection. -/
theorem aggregate_rate_bound (s : State K) (hr : rateLimiter.Reachable s) :
    (∀ tunnelId e d l lim, s.pool.entries.lookup tunnelId = some e → e.get d = some l →
      s.pool.limiters[l]? = some lim → s.bytes tunnelId d ≤ lim.granted) ∧
    (∀ c conn d p v s', s.conns[c]? = some conn →
      tokenRequest s.pool.limiters (conn.half d) p = some v → v ≠ .granted →
      step s (.poll c d p) = some s' → ∀ tunnelId d', s'.bytes tunnelId d' = s.bytes tunnelId d') := by
  have h := inv_inductive.reachable s hr
  refine ⟨fun tunnelId e d l lim he hl hlim => ?_, fun c conn d p v s' hc hv hne hs tunnelId d' => ?_⟩
  · exact Nat.le_trans (h.bytes_le_through he hl) (h.bound l lim hlim)
  · obtain ⟨conn', limiters, half, hc', hp, rfl⟩ := step_poll hs
    obtain rfl := Option.some.inj (hc'.symm.trans hc)
    exact bytes_set hc _ d half (pollHalf_refused hv hne hp) tunnelId d'

/-- Two connections of one tunnel id with a limit of 0, which is a burst of
one cell: the first takes it. -/
def oneToken : List (Label Nat) :=
  [.wrap 7 none (some 0), .wrap 7 none (some 0), .poll 0 .read ⟨true, 1, 0, .granted, .ready 1⟩]

def afterOneToken : State Nat where
  pool := ⟨[⟨1, 1, 1⟩], [(7, ⟨some 0, none⟩)]⟩
  conns := [⟨7, ⟨some 0, false, false, 1, 1⟩, .new none⟩, ⟨7, .new (some 0), .new none⟩]

theorem aggregate_rate_bound_oneToken : rateLimiter.Reachable afterOneToken ∧
    afterOneToken.bytes 7 .read ≤ 1 ∧
      ∃ s', step afterOneToken (.poll 1 .read ⟨true, 1, 0, .notUntil, .ready 1⟩) = some s' ∧
        s'.bytes 7 .read = afterOneToken.bytes 7 .read := by
  have hr : rateLimiter.Reachable afterOneToken :=
    ⟨start, oneToken, rfl, LTS.run_ofFn.mpr (by decide +kernel)⟩
  obtain ⟨hbound, hrefused⟩ := aggregate_rate_bound afterOneToken hr
  obtain ⟨s', hs'⟩ := Option.isSome_iff_exists.mp
    (show (step afterOneToken (.poll 1 .read ⟨true, 1, 0, .notUntil, .ready 1⟩)).isSome = true by decide)
  exact ⟨hr, hbound 7 _ .read 0 _ rfl rfl rfl, s', hs',
    hrefused 1 _ .read _ .notUntil s' rfl (by decide) (by decide) hs' 7 .read⟩

/-- What `governor` is assumed to do, where it is: of each limiter it has granted no
more than one burst and the cells it has replenished. -/
def State.Paced (s : State K) (replenished : Nat → Nat) : Prop :=
  ∀ (l : Nat) (lim : Limiter), s.pool.limiters[l]? = some lim → lim.granted ≤ lim.burst + replenished l

/-- The bytes of a tunnel id in a limited direction are paid for by the burst
of its quota and what is replenished. -/
theorem bytes_le_quota (s : State K) (hr : rateLimiter.Reachable s) {replenished : Nat → Nat}
    (hpaced : s.Paced replenished) {tunnelId : K} {e : DirectionalLimiters} {d : Direction} {l : Nat}
    {lim : Limiter} (he : s.pool.entries.lookup tunnelId = some e) (hl : e.get d = some l)
    (hlim : s.pool.limiters[l]? = some lim) : s.bytes tunnelId d ≤ lim.burst + replenished l := by
  have h := inv_inductive.reachable s hr
  exact Nat.le_trans (h.bytes_le_through he hl) (Nat.le_trans (h.bound l lim hlim) (hpaced l lim hlim))

/-! ## What is charged -/

/-- The tokens a poll takes. -/
def tokensTaken (limiters : List Limiter) (h : Half) (p : Poll) : Nat :=
  if tokenRequest limiters h p = some .granted then requestSize p.roll p.remaining else 0

/-- The condition on a step: a poll moves fewer bytes than it takes tokens
only where no earlier one did. -/
def shortOnce (s : State K) : Label K → Bool
  | .poll c d p => (s.conns[c]?).all fun conn =>
      tokensTaken s.pool.limiters (conn.half d) p ≤ p.inner.bytes ||
        (conn.half d).charged ≤ (conn.half d).moved
  | _ => true

theorem tokensTaken_of_granted {limiters : List Limiter} {h : Half} {p : Poll} {l : Nat} {lim : Limiter}
    (hawake : ¬ (h.sleeping ∧ !p.sleepOver)) (hl : h.limiter = some l) (hget : limiters[l]? = some lim)
    (hverdict : p.verdict = .granted) : tokensTaken limiters h p = requestSize p.roll p.remaining := by
  rw [tokensTaken, tokenRequest, if_neg hawake, hl, Option.bind_some, hget, Option.map_some, hverdict,
    if_pos rfl]

/-- One poll, when it is not short or none was before it. -/
theorem pollHalf_charged {limiters limiters' : List Limiter} {h h' : Half} {p : Poll}
    (hs : pollHalf limiters h p = some (limiters', h'))
    (hshort : tokensTaken limiters h p ≤ p.inner.bytes ∨ h.charged ≤ h.moved)
    (hle : h.charged ≤ h.moved + chunkSize) : h'.charged ≤ h'.moved + chunkSize := by
  cases move_of_pollHalf hs with
  | still _ hm hc => rw [hm, hc]; exact hle
  | free _ _ hm hc => omega
  | granted hawake hl hget hreq hk _ hm hc =>
    have htaken := tokensTaken_of_granted hawake hl hget hreq
    have hchunk := requestSize_le_chunk p.roll p.remaining
    rcases hshort with hfull | hfirst <;> omega

/-- No half has been charged more than one chunk beyond what it moved. -/
def State.Covered (s : State K) : Prop :=
  ∀ (c : Nat) (conn : Conn K), s.conns[c]? = some conn → ∀ d : Direction,
    (conn.half d).charged ≤ (conn.half d).moved + chunkSize

theorem step_covered {s s' : State K} {l : Label K} (h : s.Covered) (hshort : shortOnce s l = true)
    (hs : step s l = some s') : s'.Covered := by
  cases l with
  | wrap tunnelId uploadM downloadM =>
    cases hs
    intro c conn hc d
    simp only [State.wrap, List.getElem?_append, List.getElem?_singleton] at hc
    split at hc
    · exact h c conn hc d
    · split at hc
      · cases hc
        cases d <;> exact Nat.zero_le _
      · cases hc
  | poll c d p =>
    obtain ⟨conn, limiters, half, hc, hp, rfl⟩ := step_poll hs
    simp only [shortOnce, hc, Option.all_some, Bool.or_eq_true, decide_eq_true_eq] at hshort
    refine LTS.forall_modify h (fun conn' hc' hok d' => ?_) fun _ _ _ hok => hok
    obtain rfl := Option.some.inj (hc'.symm.trans hc)
    by_cases hd : d' = d
    · subst hd
      rw [half_set_self]
      exact pollHalf_charged hp hshort (hok d')
    · rw [half_set_of_ne _ _ hd]
      exact hok d'

theorem covered_inductive :
    ((rateLimiter : LTS (State K) (Label K)).guard fun s l => shortOnce s l = true).Inductive
      State.Covered where
  init s hs := by
    rw [show s = start from hs]
    intro c conn hc
    cases hc
  step _ _ _ h hs := step_covered h hs.2 hs.1

/-- **Charged for traffic.** In every run in which, of the polls of one
direction of a connection, at most one takes more tokens than it moves bytes,
the tokens taken exceed the bytes moved by at most one chunk. -/
theorem charged_le_moved (s : State K)
    (hr : (rateLimiter.guard fun s l => shortOnce s l = true).Reachable s) (c : Nat) (conn : Conn K)
    (hc : s.conns[c]? = some conn) (d : Direction) :
    (conn.half d).charged ≤ (conn.half d).moved + chunkSize :=
  covered_inductive.reachable s hr c conn hc d

/-- One full read, then one that finds nothing. -/
def oneShortPoll : List (Label Nat) :=
  [.wrap 7 (some 1) (some 1), .poll 0 .read ⟨true, 65536, 10, .granted, .ready 16384⟩,
    .poll 0 .read ⟨true, 65536, 10, .granted, .pending⟩]

theorem charged_le_moved_oneShortPoll : ∃ s : State Nat,
    (rateLimiter.guard fun s l => shortOnce s l = true).Reachable s ∧ ∃ conn,
      s.conns[0]? = some conn ∧ (conn.half .read).charged = 32768 ∧
        (conn.half .read).charged ≤ (conn.half .read).moved + chunkSize := by
  have hrun : (LTS.exec (fun s l => if shortOnce s l = true then step s l else none) start
      oneShortPoll).any (fun s => (s.conns[0]?).any fun conn => (conn.half .read).charged = 32768) =
        true := by decide +kernel
  obtain ⟨s, hs, hconn⟩ := (Option.any_eq_true _ _).mp hrun
  obtain ⟨conn, hc, hcharged⟩ := (Option.any_eq_true _ _).mp hconn
  have hr : (rateLimiter.guard fun s l => shortOnce s l = true).Reachable s :=
    ⟨start, oneShortPoll, rfl, LTS.run_guard_ofFn hs⟩
  exact ⟨s, hr, conn, hc, of_decide_eq_true hcharged, charged_le_moved s hr 0 conn hc .read⟩

/-- Two polls of each direction that find the inner stream not ready. -/
def pendingPolls : List (Label Nat) :=
  [.wrap 7 (some 1) (some 1), .poll 0 .read ⟨true, 65536, 10, .granted, .pending⟩,
    .poll 0 .read ⟨true, 65536, 10, .granted, .pending⟩,
    .poll 0 .write ⟨true, 65536, 10, .granted, .pending⟩,
    .poll 0 .write ⟨true, 65536, 10, .granted, .pending⟩]

/-- Nothing moves, and two chunks are charged; the burst pays for them. -/
theorem pendingPolls_charged : ∃ s : State Nat, rateLimiter.Reachable s ∧ s.Paced (fun _ => 0) ∧ ∃ conn,
    s.conns[0]? = some conn ∧ ∀ d, (conn.half d).moved = 0 ∧ (conn.half d).charged = 2 * chunkSize := by
  have hrun : (LTS.exec step start pendingPolls).any (fun s =>
      s.pool.limiters.all (fun lim => lim.granted ≤ lim.burst) && (s.conns[0]?).any fun conn =>
        [Direction.read, .write].all fun d =>
          (conn.half d).moved = 0 ∧ (conn.half d).charged = 2 * chunkSize) = true := by decide +kernel
  obtain ⟨s, hs, hrest⟩ := (Option.any_eq_true _ _).mp hrun
  obtain ⟨hpaced, hconn⟩ := Bool.and_eq_true_iff.mp hrest
  obtain ⟨conn, hc, hall⟩ := (Option.any_eq_true _ _).mp hconn
  refine ⟨s, ⟨start, pendingPolls, rfl, LTS.run_ofFn.mpr hs⟩, fun l lim hlim => ?_, conn, hc, fun d => ?_⟩
  · exact of_decide_eq_true (List.all_eq_true.mp hpaced lim (List.mem_of_getElem? hlim))
  · exact of_decide_eq_true (List.all_eq_true.mp hall d (by cases d <;> simp))

end Wstunnel.L3.Rate
