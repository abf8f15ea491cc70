import Mathlib.Algebra.Group.Nat.Defs
import Mathlib.Tactic.Common

/-!
# Products in binary64

A binary64 number has 53 significant bits, and a product is the exact one
rounded to nearest, ties to even. For numbers in the normal range this is
arithmetic on naturals: a factor `m / 2 ^ e` is its significand `m`, and
rounding an exact product commutes with the scaling by `2 ^ e`.

* `literal`: the significand of a decimal literal.
* `round`: 53 significant bits, to nearest, ties to even.
* `mulTrunc`: a product, cast to an integer.
* `round_error`, `ulp_dvd_round`: the rounded number is the nearest multiple
  of the unit in the last place.
-/
namespace Wstunnel.Binary64

/-- `num / den` in units of `2 ^ -e`, to nearest; there is no tie when `den`
has an odd factor. -/
def literal (num den e : Nat) : Nat := (2 * num * 2 ^ e + den) / (2 * den)

/-- The unit in the last place of `n`. -/
def ulp (n : Nat) : Nat := 2 ^ (n.log2 + 1 - 53)

/-- `n` divided by `unit`, to nearest, ties to even. -/
def divNearest (n unit : Nat) : Nat :=
  let q := n / unit
  let r := n % unit
  if unit < 2 * r ∨ (2 * r = unit ∧ q % 2 = 1) then q + 1 else q

def round (n : Nat) : Nat := divNearest n (ulp n) * ulp n

/-- `x * (m / 2 ^ e)` cast to an integer, which truncates. -/
def mulTrunc (x m e : Nat) : Nat := round (x * m) / 2 ^ e

theorem ulp_dvd_round (n : Nat) : ulp n ∣ round n := ⟨divNearest n (ulp n), Nat.mul_comm _ _⟩

theorem ulp_pos (n : Nat) : 0 < ulp n := Nat.two_pow_pos _

/-- The error is at most half a unit. -/
theorem round_error (n : Nat) : 2 * round n ≤ 2 * n + ulp n ∧ 2 * n ≤ 2 * round n + ulp n := by
  have hdiv := Nat.div_add_mod n (ulp n)
  have hmod := Nat.mod_lt n (ulp_pos n)
  unfold round divNearest
  dsimp only
  rw [Nat.mul_comm] at hdiv
  split
  · rename_i hup
    have hsucc : (n / ulp n + 1) * ulp n = n / ulp n * ulp n + ulp n := Nat.add_one_mul _ _
    omega
  · rename_i hdown
    omega

/-- `n` has at most 53 bits above its unit. -/
theorem lt_ulp_mul (n : Nat) : n < ulp n * 2 ^ 53 := by
  have hlt : n < 2 ^ (n.log2 + 1) := Nat.lt_log2_self
  have hle : n.log2 + 1 ≤ n.log2 + 1 - 53 + 53 := by omega
  rw [ulp, ← Nat.pow_add]
  exact Nat.lt_of_lt_of_le hlt (Nat.pow_le_pow_right (by omega) hle)

/-- The unit of a number below `2 ^ (k + 53)` is at most `2 ^ k`, and divides it. -/
theorem ulp_dvd_pow {n k : Nat} (h : n < 2 ^ (k + 53)) : ulp n ∣ 2 ^ k := by
  refine Nat.pow_dvd_pow 2 ?_
  by_cases hn : n = 0
  · simp [hn]
  · have := (Nat.log2_lt hn).mpr h
    omega

end Wstunnel.Binary64
