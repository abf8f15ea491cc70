import Mathlib.Algebra.Group.Nat.Defs
import Wstunnel.L3Client.ReverseClient

/-!
# How a reverse tunnel reconnects

A reverse tunnel asks the server again and again. After a request that fails it
sleeps, twice as long each time up to a bound; an answer of the server resets
that, whether or not the destination can be reached then.

**Third-party code.** `tokio::time::sleep` sleeps for at least as long as it is asked;
what is proved is how long it is asked for. Which attempts fail, and how, is any list;
the cookie of a response is decoded by any `Parsers`.

**Results.**
* `reconnect_delays`: the sleeps of every run, from the attempts alone. The first
  one is a second, also when the bound is less.
-/
namespace Wstunnel.L3.Reconnect

open Wstunnel.L1

/-- The sleep after `k` failures in a row that were slept on. -/
def backoff (maxDelay : Duration) : Nat → Duration
  | 0 => oneSecond
  | k + 1 => min (2 ^ (k + 1) * oneSecond) maxDelay

/-- The sleeps of a run that has seen `k` failures in a row. -/
def delays (maxDelay : Duration) : Nat → List Attempt → List Duration
  | _, [] => []
  | k, .refused :: rest => backoff maxDelay k :: delays maxDelay (k + 1) rest
  | _, .response _ _ :: rest => delays maxDelay 0 rest

def sleep? : ClientEffect → Option Duration
  | .sleep delay => some delay
  | _ => none

def isRequest : ClientEffect → Bool
  | .request _ => true
  | _ => false

theorem min_mul_two (a b : Nat) : min (min a b * 2) b = min (a * 2) b := by omega

/-- Doubling with the bound is doubling first and the bound at last. -/
theorem backoff_succ (maxDelay : Duration) (k : Nat) :
    backoff maxDelay (k + 1) = min (backoff maxDelay k * 2) maxDelay := by
  cases k with
  | zero => rw [backoff, backoff, Nat.mul_comm, Nat.pow_one]
  | succ k =>
    have hpow : 2 ^ (k + 1 + 1) * oneSecond = 2 ^ (k + 1) * oneSecond * 2 := by
      rw [Nat.pow_succ 2 (k + 1), Nat.mul_right_comm]
    rw [backoff, backoff, hpow]
    exact (min_mul_two (2 ^ (k + 1) * oneSecond) maxDelay).symm

theorem backoff_le (maxDelay : Duration) (k : Nat) : backoff maxDelay k ≤ max oneSecond maxDelay := by
  cases k with
  | zero => exact Nat.le_max_left _ _
  | succ k => exact Nat.le_trans (Nat.min_le_right _ _) (Nat.le_max_right _ _)

theorem delays_le (maxDelay : Duration) : ∀ (k : Nat) (attempts : List Attempt),
    ∀ d ∈ delays maxDelay k attempts, d ≤ max oneSecond maxDelay
  | _, [], _, hd => by cases hd
  | k, .refused :: rest, d, hd => by
    rcases List.mem_cons.mp hd with rfl | hd
    · exact backoff_le maxDelay k
    · exact delays_le maxDelay (k + 1) rest d hd
  | _, .response _ _ :: rest, d, hd => delays_le maxDelay 0 rest d hd

variable (W : Parsers)

/-- One attempt: one request, and a sleep exactly when it failed. -/
theorem reverseRound_sleeps (maxDelay : Duration) (remote : RemoteAddr) (connector : Connector) (delay : Duration)
    (attempt : Attempt) :
    let effects := (reverseRound W maxDelay remote connector delay attempt).2
    effects.countP isRequest = 1 ∧
      effects.filterMap sleep? = match attempt with
        | .refused => [delay]
        | .response _ _ => [] := by
  cases attempt with
  | refused => exact ⟨rfl, rfl⟩
  | response headers dialled =>
    simp only [reverseRound]
    cases connector.connect (responseRemote W headers) with
    | error err => exact ⟨rfl, rfl⟩
    | ok d => cases dialled <;> exact ⟨rfl, rfl⟩

/-- **The sleeps of a run.** Every attempt is one request; the sleeps are those
of the failures, the `k`-th in a row `2 ^ k` seconds up to the bound, and none is
longer than the bound or a second. -/
theorem reconnect_delays (maxDelay : Duration) (remote : RemoteAddr) (connector : Connector) (attempts : List Attempt) :
    let effects := runReverseTunnel W maxDelay remote connector oneSecond attempts
    effects.countP isRequest = attempts.length ∧ effects.filterMap sleep? = delays maxDelay 0 attempts ∧
      ∀ d ∈ effects.filterMap sleep?, d ≤ max oneSecond maxDelay := by
  -- the delay is the backoff of the failures so far
  have hrun : ∀ (attempts : List Attempt) (k : Nat),
      (runReverseTunnel W maxDelay remote connector (backoff maxDelay k) attempts).countP isRequest = attempts.length ∧
        (runReverseTunnel W maxDelay remote connector (backoff maxDelay k) attempts).filterMap sleep? =
          delays maxDelay k attempts := by
    intro attempts
    induction attempts with
    | nil => exact fun _ => ⟨rfl, rfl⟩
    | cons attempt rest ih =>
      intro k
      obtain ⟨hrequest, hsleep⟩ := reverseRound_sleeps W maxDelay remote connector (backoff maxDelay k) attempt
      rw [runReverseTunnel]
      dsimp only
      rw [List.countP_append, List.filterMap_append, hrequest, hsleep]
      cases attempt with
      | refused =>
        obtain ⟨hcount, hdelays⟩ := ih (k + 1)
        rw [backoff_succ] at hcount hdelays
        simp only [reverseRound]
        exact ⟨by rw [hcount, List.length_cons, Nat.add_comm], by rw [hdelays]; rfl⟩
      | response headers dialled =>
        obtain ⟨hcount, hdelays⟩ := ih 0
        simp only [reverseRound]
        exact ⟨by rw [List.length_cons, Nat.add_comm]; exact congrArg (· + 1) hcount, hdelays⟩
  obtain ⟨hcount, hdelays⟩ := hrun attempts 0
  refine ⟨hcount, hdelays, ?_⟩
  rw [show runReverseTunnel W maxDelay remote connector oneSecond attempts =
    runReverseTunnel W maxDelay remote connector (backoff maxDelay 0) attempts from rfl, hdelays]
  exact delays_le maxDelay 0 attempts

end Wstunnel.L3.Reconnect
