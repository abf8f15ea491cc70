import Wstunnel.Core.Binary64
import Wstunnel.L3Server.RateLimits

/-!
# The arithmetic of the rate limiter

`build_limiter` turns a limit in MiB per second into a rate and a burst, and
every poll turns the length of a buffer into a request. The widths change on
the way: `u16` to `u64` to `u32` for the rate, through `f64` for the burst,
`usize` to `u32` for the length. A cast between integers wraps, the cast from
`f64` saturates, and the clamps stand before or after the cast.

**Third-party code.** The product in `f64` is that of `Core.Binary64`, the exact one
rounded to 53 bits. `governor` appears only as what it is called with, a `NonZeroU32`.

**Results.**
* `burst_eq_product`: the burst is the `f64` product, cast to `u32`.
* `bps_le_burst`: it is never below the rate.
* `requestSize_pos_iff`: a request is empty exactly when the length is a
  multiple of `2 ^ 32`; `NonZeroU32::new(n).unwrap()` then panics.
* `wrap_arithmetic_iff`: the rate is the saturated one exactly for limits
  below 4096, and the request is within its bounds exactly for the other
  lengths.
-/
namespace Wstunnel.L3.Rate

/-! ## Rate and burst -/

/-- The `f64` literal `1.2`. -/
def burstFactor : Nat := Binary64.literal 12 10 52

/-- `(bytes_per_sec as f64 * 1.2) as u32`.
mirrors wstunnel/src/tunnel/rate_limiter.rs:56 -/
def burstCast (bytesPerSec : Nat) : Nat :=
  min (Binary64.mulTrunc bytesPerSec burstFactor 52) (2 ^ 32 - 1)

/-- The rate asked for, as large as `u32` allows. -/
def saturatedRate (m : UInt16) : Nat := min (max 1 (m.toNat * 2 ^ 20)) (2 ^ 32 - 1)

theorem five_mul_burstFactor : 5 * burstFactor + 1 = 6 * 2 ^ 52 := by decide

/-- The rounding of the product is not visible after the cast: the error of
the literal and of the rounding stay below one fifth. -/
theorem mulTrunc_burstFactor {a : Nat} (ha : a < 2 ^ 40) :
    Binary64.mulTrunc a burstFactor 52 = a * 6 / 5 := by
  have hprod : 5 * (a * burstFactor) + a = 6 * a * 2 ^ 52 := by
    have hfive := five_mul_burstFactor
    calc 5 * (a * burstFactor) + a = a * (5 * burstFactor + 1) := by
          rw [Nat.mul_add, Nat.mul_one, Nat.mul_left_comm]
      _ = 6 * a * 2 ^ 52 := by rw [hfive, ← Nat.mul_assoc, Nat.mul_comm a 6]
  have hlt := Binary64.lt_ulp_mul (a * burstFactor)
  have hsmall : a * burstFactor < 2 ^ (40 + 53) := by omega
  have hdvd := Binary64.ulp_dvd_pow hsmall
  have hle := Nat.le_of_dvd (Nat.two_pow_pos 40) hdvd
  obtain ⟨hup, hdown⟩ := Binary64.round_error (a * burstFactor)
  have hunit := Binary64.ulp_dvd_round (a * burstFactor)
  unfold Binary64.mulTrunc
  generalize Binary64.ulp (a * burstFactor) = u at *
  generalize Binary64.round (a * burstFactor) = r at *
  have hfloor := Nat.div_add_mod (a * 6) 5
  have hmod := Nat.mod_lt (a * 6) (show 0 < 5 by omega)
  generalize a * 6 / 5 = q at *
  refine Nat.div_eq_of_lt_le ?_ ?_
  · -- both are multiples of the unit, so a smaller `r` would be off by a whole unit
    have hq : u ∣ q * 2 ^ 52 := by
      refine Nat.dvd_trans (Nat.dvd_trans hdvd ?_) (Nat.dvd_mul_left _ _)
      exact Nat.pow_dvd_pow 2 (by omega)
    by_contra hr
    have hge := Nat.le_of_dvd (by omega) (Nat.dvd_sub hq hunit)
    omega
  · rw [Nat.add_one_mul]
    omega

theorem bytesPerSec_lt (m : UInt16) : m.toNat * 1024 * 1024 < 2 ^ 36 := by
  have := m.toNat_lt
  omega

/-- The burst that is built is the product of the source. -/
theorem burst_eq_product {m : UInt16} {lim : Limiter} (h : buildLimiter (some m) = some lim) :
    lim.burst = max (burstCast (m.toNat * 1024 * 1024)) 1 := by
  have hlt := bytesPerSec_lt m
  obtain rfl := Option.some.inj h
  rw [burstCast, mulTrunc_burstFactor (by omega)]

theorem bps_eq {m : UInt16} {lim : Limiter} (h : buildLimiter (some m) = some lim) :
    lim.bps = max (m.toNat * 1024 * 1024 % 2 ^ 32) 1 := by
  obtain rfl := Option.some.inj h
  rfl

theorem burst_eq {m : UInt16} {lim : Limiter} (h : buildLimiter (some m) = some lim) :
    lim.burst = max (min (m.toNat * 1024 * 1024 * 6 / 5) (2 ^ 32 - 1)) 1 := by
  obtain rfl := Option.some.inj h
  rfl

/-- The cast of the rate wraps from 4096 MiB on. -/
theorem bps_eq_saturatedRate_iff {m : UInt16} {lim : Limiter}
    (h : buildLimiter (some m) = some lim) : lim.bps = saturatedRate m ↔ m.toNat < 4096 := by
  have hm := m.toNat_lt
  rw [bps_eq h, saturatedRate]
  omega

theorem bps_le_burst {m : UInt16} {lim : Limiter} (h : buildLimiter (some m) = some lim) :
    lim.bps ≤ lim.burst := by
  have hle := Nat.mod_le (m.toNat * 1024 * 1024) (2 ^ 32)
  have hlt := Nat.mod_lt (m.toNat * 1024 * 1024) (Nat.two_pow_pos 32)
  rw [bps_eq h, burst_eq h]
  omega

theorem burst_mono {m m' : UInt16} {lim lim' : Limiter} (h : buildLimiter (some m) = some lim)
    (h' : buildLimiter (some m') = some lim') (hle : m ≤ m') :
    lim.burst ≤ lim'.burst := by
  have hle : m.toNat ≤ m'.toNat := hle
  rw [burst_eq h, burst_eq h']
  omega

theorem bps_mono {m m' : UInt16} {lim lim' : Limiter} (h : buildLimiter (some m) = some lim)
    (h' : buildLimiter (some m') = some lim') (hle : m ≤ m') (hm : m'.toNat < 4096) :
    lim.bps ≤ lim'.bps := by
  have hle : m.toNat ≤ m'.toNat := hle
  rw [bps_eq h, bps_eq h']
  omega

/-! ## Requests -/

theorem one_le_jitteredChunk (roll : UInt32) (base : Nat) : 1 ≤ jitteredChunk roll base := by
  exact Nat.le_min.mpr ⟨Nat.le_max_right _ _, by decide⟩

/-- The request is cut to the length after the cast, the last clamp before it. -/
theorem requestSize_pos_iff (roll : UInt32) (length : Nat) :
    1 ≤ requestSize roll length ↔ length % 2 ^ 32 ≠ 0 := by
  have := one_le_jitteredChunk roll (max (min (length % 2 ^ 32) chunkSize) 1)
  unfold requestSize
  omega

theorem requestSize_le_length (roll : UInt32) (length : Nat) : requestSize roll length ≤ length :=
  Nat.le_trans (Nat.min_le_right _ _) (Nat.mod_le _ _)

/-- No request is refused as too large. -/
theorem requestSize_le_burst {m : UInt16} {lim : Limiter} (h : buildLimiter (some m) = some lim)
    (hm : 1 ≤ m) (roll : UInt32) (length : Nat) :
    requestSize roll length ≤ lim.burst := by
  have hm : 1 ≤ m.toNat := hm
  have hchunk := requestSize_le_chunk roll length
  have hsize : chunkSize = 16384 := rfl
  rw [burst_eq h]
  omega

/-- A poll that asks a limiter panics exactly on an empty request. -/
theorem pollHalf_panics_iff {limiters limiters' : List Limiter} {l : Nat} {h h' : Half} {p : Poll}
    (hpoll : pollHalf limiters h p = some (limiters', h')) (hl : h.limiter = some l)
    (hawake : ¬ (h.sleeping ∧ !p.sleepOver)) :
    h'.panicked = true ↔ requestSize p.roll p.remaining = 0 := by
  unfold pollHalf at hpoll
  split at hpoll
  · cases hpoll
  rename_i hp
  simp only [hl] at hpoll
  obtain ⟨_, -, hpoll⟩ := Option.bind_eq_some_iff.mp hpoll
  split at hpoll
  · rename_i hzero
    cases hpoll
    exact ⟨fun _ => hzero, fun _ => rfl⟩
  · rename_i hzero
    refine ⟨fun hc => ?_, fun hz => absurd hz hzero⟩
    split at hpoll
    · obtain ⟨h'', hinner, he⟩ := Option.map_eq_some_iff.mp hpoll
      cases he
      refine absurd (hc.symm.trans ?_) (Ne.symm hp)
      unfold Half.pollInner at hinner
      split at hinner
      · split at hinner <;> cases hinner
        rfl
      · cases hinner
        rfl
    · cases hpoll
      exact absurd hc hp

/-! ## The limiters of a connection -/

variable {K : Type} [DecidableEq K]

/-- The limiter that a direction of a wrapped connection shares. -/
def limiterOf (w : RateLimiterPool K × DirectionalLimiters) (d : Direction) : Option Limiter :=
  (w.2.get d).bind (w.1.limiters[·]?)

/-- The limit given to `wrap` for a direction. -/
def limitOf (uploadM downloadM : Option UInt16) : Direction → Option UInt16
  | .read => downloadM
  | .write => uploadM

/-- The first connection of an id gets the limiters built for its limits. -/
theorem limiterOf_wrap (pool : RateLimiterPool K) (id : K) (uploadM downloadM : Option UInt16)
    (hnew : pool.entries.lookup id = none) (d : Direction) :
    limiterOf (pool.wrap id uploadM downloadM) d = buildLimiter (limitOf uploadM downloadM d) := by
  rw [RateLimiterPool.wrap, hnew]
  cases d <;> cases uploadM <;> cases downloadM <;>
    simp [limiterOf, limitOf, alloc, buildLimiter, DirectionalLimiters.get]

/-- **Arithmetic at the limits.** The first connection of an id gets, in each
direction, a limiter with the rate asked for exactly when that is below 4096
MiB per second; its burst is the `f64` product cast to `u32`, and no smaller
than its rate. A poll of a non-empty buffer asks for at least one byte, and at
most for the buffer and for 16384, exactly when the length is not a multiple
of `2 ^ 32`, and panics for those; it never exceeds the burst of a
limit above 0. -/
theorem wrap_arithmetic_iff (pool : RateLimiterPool K) (id : K) (uploadM downloadM : Option UInt16)
    (hnew : pool.entries.lookup id = none) (d : Direction) (m : UInt16)
    (hm : limitOf uploadM downloadM d = some m) (length : Nat) (roll : UInt32) :
    ∃ lim, limiterOf (pool.wrap id uploadM downloadM) d = some lim ∧
      (lim.bps = saturatedRate m ↔ m.toNat < 4096) ∧
      lim.burst = max (burstCast (m.toNat * 1024 * 1024)) 1 ∧
      lim.bps ≤ lim.burst ∧
      (∀ m' lim', buildLimiter (some m') = some lim' → m ≤ m' →
        lim.burst ≤ lim'.burst ∧ (m'.toNat < 4096 → lim.bps ≤ lim'.bps)) ∧
      ((1 ≤ requestSize roll length ∧ requestSize roll length ≤ min length 16384) ↔
        length % 2 ^ 32 ≠ 0) ∧
      (∀ limiters l h verdict inner limiters' h', h.limiter = some l →
        pollHalf limiters h ⟨true, length, roll, verdict, inner⟩ = some (limiters', h') →
          (h'.panicked = true ↔ length % 2 ^ 32 = 0)) ∧
      (1 ≤ m → requestSize roll length ≤ lim.burst) := by
  obtain ⟨lim, hlim⟩ : ∃ lim, buildLimiter (some m) = some lim := ⟨_, rfl⟩
  refine ⟨lim, ?_, bps_eq_saturatedRate_iff hlim, burst_eq_product hlim, bps_le_burst hlim, ?_, ?_, ?_,
    fun h1 => requestSize_le_burst hlim h1 roll length⟩
  · rw [limiterOf_wrap pool id uploadM downloadM hnew d, hm, hlim]
  · intro m' lim' hlim' hle
    exact ⟨burst_mono hlim hlim' hle, fun hm' => bps_mono hlim hlim' hle hm'⟩
  · refine ⟨fun h => (requestSize_pos_iff roll length).mp h.1, fun h => ?_⟩
    exact ⟨(requestSize_pos_iff roll length).mpr h,
      Nat.le_min.mpr ⟨requestSize_le_length roll length, requestSize_le_chunk roll length⟩⟩
  · intro limiters l h verdict inner limiters' h' hl hpoll
    have hpos := requestSize_pos_iff roll length
    rw [pollHalf_panics_iff hpoll hl (by simp)]
    show requestSize roll length = 0 ↔ _
    omega

/-- A limit of 10 MiB per second up and of 4 down, and a buffer of 8192 bytes. -/
theorem wrap_arithmetic_ten : ∃ lim,
    limiterOf ((RateLimiterPool.new : RateLimiterPool Nat).wrap 0 (some 10) (some 4)) .write = some lim ∧
      lim.bps = saturatedRate 10 ∧ 1 ≤ requestSize 7 8192 := by
  obtain ⟨lim, hlim, hrate, -, -, -, hreq, -, -⟩ := wrap_arithmetic_iff (RateLimiterPool.new) 0
    (some 10) (some 4) rfl .write 10 rfl 8192 7
  exact ⟨lim, hlim, hrate.mpr (by decide), (hreq.mpr (by decide)).1⟩

/-- At 4096 MiB per second the rate is one byte per second, below that of 4095
MiB; a poll of a buffer of 4 GiB asks for nothing, and panics. -/
theorem wrap_4096_rate_one :
    (buildLimiter (some 4096)).map Limiter.bps = some 1 ∧ saturatedRate 4096 = 2 ^ 32 - 1 ∧
      (buildLimiter (some 4095)).map Limiter.bps = some (4095 * 2 ^ 20) ∧
      requestSize 7 (2 ^ 32) = 0 ∧
      ∃ lim, buildLimiter (some 10) = some lim ∧
        pollHalf [lim] (Half.new (some 0)) ⟨true, 2 ^ 32, 7, .granted, .pending⟩ =
          some ([lim], { Half.new (some 0) with panicked := true }) := by
  refine ⟨by decide, by decide, by decide, by decide, _, rfl, ?_⟩
  decide

end Wstunnel.L3.Rate
