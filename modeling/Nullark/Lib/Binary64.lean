import Mathlib.Data.Int.Log
import Mathlib.Tactic

/-! # Rounding to binary64

The binary64 number closest to a rational, ties to even (`round`), or an infinity.

* `round_natCast`: natural numbers below `2 ^ 53` are exact. -/

namespace Nullark.Lib.Binary64

/-- **A number** that is not a NaN. The two zeros are one. -/
inductive Number
  | finite (q : ℚ)
  | infinite (negative : Bool)
  deriving DecidableEq

/-- The closest integer, ties to even. -/
def roundHalfEven (s : ℚ) : ℤ :=
  let f := ⌊s⌋
  if s - f < 1 / 2 then f
  else if 1 / 2 < s - f then f + 1
  else if f % 2 = 0 then f else f + 1

/-- The exponent of the last place. -/
def lastPlace (m : ℚ) : ℤ := max (Int.log 2 m - 52) (-1074)

/-- The closest multiple of the last place, for a positive number. -/
def roundPositive (m : ℚ) : ℚ := roundHalfEven (m / 2 ^ lastPlace m) * 2 ^ lastPlace m

/-- **Rounding to binary64.** -/
def round (q : ℚ) : Number :=
  if q = 0 then .finite 0
  else
    let r := roundPositive |q|
    if 2 ^ 1024 ≤ r then .infinite (decide (q < 0)) else .finite (if q < 0 then -r else r)

theorem roundHalfEven_intCast (z : ℤ) : roundHalfEven z = z := by
  have hhalf : (z : ℚ) - (⌊(z : ℚ)⌋ : ℤ) < 1 / 2 := by rw [Int.floor_intCast, sub_self]; norm_num
  have hif : roundHalfEven z = ⌊(z : ℚ)⌋ := if_pos hhalf
  rw [hif, Int.floor_intCast]

/-- **Natural numbers below `2 ^ 53` are exact.** -/
theorem round_natCast {n : ℕ} (h : n < 2 ^ 53) : round n = .finite n := by
  unfold round
  rcases Nat.eq_zero_or_pos n with rfl | hn
  · rw [Nat.cast_zero, if_pos rfl]
  · have hne : (n : ℚ) ≠ 0 := Nat.cast_ne_zero.mpr (Nat.pos_iff_ne_zero.mp hn)
    have hlog : Int.log 2 (n : ℚ) ≤ 52 := by
      have hnat : Nat.log 2 n < 53 := Nat.log_lt_of_lt_pow (by omega) h
      rw [Int.log_natCast]
      omega
    obtain ⟨k, hk⟩ : ∃ k : ℕ, lastPlace (n : ℚ) = -k := by
      refine ⟨(-lastPlace (n : ℚ)).toNat, ?_⟩
      have hle : lastPlace (n : ℚ) ≤ 0 := by
        unfold lastPlace
        omega
      omega
    have hscaled : (n : ℚ) / 2 ^ lastPlace (n : ℚ) = ((n * 2 ^ k : ℤ) : ℚ) := by
      rw [hk, zpow_neg, zpow_natCast, div_inv_eq_mul]
      push_cast
      rfl
    have hround : roundPositive (n : ℚ) = n := by
      have hpow : (2 : ℚ) ^ lastPlace (n : ℚ) ≠ 0 := zpow_ne_zero _ (by norm_num)
      rw [roundPositive, hscaled, roundHalfEven_intCast, ← hscaled, div_mul_cancel₀ _ hpow]
    have habs : |(n : ℚ)| = n := abs_of_nonneg (Nat.cast_nonneg n)
    have hlt : ¬(2 : ℚ) ^ 1024 ≤ n := by
      have hnat : (n : ℚ) < 2 ^ 53 := by exact_mod_cast h
      have hpow : (2 : ℚ) ^ 53 ≤ 2 ^ 1024 := pow_le_pow_right₀ (by norm_num) (by norm_num)
      exact not_le.mpr (hnat.trans_le hpow)
    have hneg : ¬(n : ℚ) < 0 := not_lt.mpr (Nat.cast_nonneg n)
    rw [if_neg hne, habs, hround]
    dsimp only
    rw [if_neg hlt, if_neg hneg]

end Nullark.Lib.Binary64
