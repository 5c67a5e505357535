import Nullark.Lib.Binary64

/-! # The shortest decimals of numbers of binary64

Among the decimals that round to a positive number, the one with the fewest digits that is closest
to it (`shortest`), found by a search through the numbers of digits.

* `round_near`: what is closer to a number than `2 ^ -54` of it rounds to it.
* `shortest_spec`: seventeen digits are enough, so the search ends with a decimal that rounds to the
  number. -/

namespace Nullark.Lib.Shortest

open Nullark.Lib
open Nullark.Lib.Binary64 hiding round

/-! ### Rounding -/

theorem abs_sub_roundHalfEven_le (s : ℚ) : |s - roundHalfEven s| ≤ 1 / 2 := by
  have hfloor := Int.floor_le s
  have hlt := Int.lt_floor_add_one s
  unfold roundHalfEven
  dsimp only
  split_ifs with hdown hup heven
  · rw [abs_of_nonneg (by linarith)]
    exact hdown.le
  · push_cast
    rw [abs_of_nonpos (by linarith)]
    linarith
  · rw [abs_of_nonneg (by linarith)]
    exact not_lt.mp hup
  · push_cast
    rw [abs_of_nonpos (by linarith)]
    linarith [not_lt.mp hdown]

theorem roundHalfEven_eq {s : ℚ} {z : ℤ} (h : |s - z| < 1 / 2) : roundHalfEven s = z := by
  have hround := abs_sub_roundHalfEven_le s
  have hclose : |((roundHalfEven s - z : ℤ) : ℚ)| < 1 := by
    push_cast
    calc |(roundHalfEven s : ℚ) - z| = |(s - z) - (s - roundHalfEven s)| := by ring_nf
      _ ≤ |s - z| + |s - roundHalfEven s| := abs_sub _ _
      _ < 1 := by linarith
  have hzero : |roundHalfEven s - z| < 1 := by exact_mod_cast hclose
  exact sub_eq_zero.mp (Int.abs_lt_one_iff.mp hzero)

/-- A multiple of the last place that is closer than half of it. -/
theorem roundPositive_eq {x y : ℚ} {z : ℤ} (hx : x = z * 2 ^ lastPlace y)
    (h : |y - x| < 2 ^ lastPlace y / 2) : roundPositive y = x := by
  have hpos : (0 : ℚ) < 2 ^ lastPlace y := zpow_pos (by norm_num) _
  have hscaled : |y / 2 ^ lastPlace y - z| < 1 / 2 := by
    have hdiv : y / 2 ^ lastPlace y - z = (y - x) / 2 ^ lastPlace y := by
      rw [hx, sub_div, mul_div_cancel_right₀ _ hpos.ne']
    rw [hdiv, abs_div, abs_of_pos hpos, div_lt_iff₀ hpos]
    linarith
  rw [roundPositive, roundHalfEven_eq hscaled, ← hx]

theorem round_of_roundPositive {x y : ℚ} (hy : 0 < y) (h : roundPositive y = x)
    (hx : x < 2 ^ 1024) : Binary64.round y = .finite x := by
  unfold Binary64.round
  rw [if_neg hy.ne', abs_of_pos hy, h]
  dsimp only
  rw [if_neg (not_le.mpr hx), if_neg (not_lt.mpr hy.le)]

/-- A number is a multiple of its last place. -/
theorem of_round_self {x : ℚ} (hpos : 0 < x) (h : Binary64.round x = .finite x) :
    (∃ z : ℤ, x = z * 2 ^ lastPlace x) ∧ x < 2 ^ 1024 := by
  unfold Binary64.round at h
  rw [if_neg hpos.ne', abs_of_pos hpos] at h
  dsimp only at h
  split_ifs at h with hlarge hneg
  · exact absurd hneg (not_lt.mpr hpos.le)
  · have hself : roundPositive x = x := Number.finite.inj h
    refine ⟨⟨roundHalfEven (x / 2 ^ lastPlace x), ?_⟩, ?_⟩
    · exact hself.symm
    · rw [← hself]
      exact not_le.mp hlarge

/-- **The opposite of a number is rounded to the opposite.** -/
theorem round_neg {q r : ℚ} (h : Binary64.round q = .finite r) : Binary64.round (-q) = .finite (-r) := by
  unfold Binary64.round at h ⊢
  by_cases hq : q = 0
  · rw [if_pos hq] at h
    rw [if_pos (neg_eq_zero.mpr hq), ← Number.finite.inj h, neg_zero]
  · rw [if_neg hq] at h
    rw [if_neg (neg_ne_zero.mpr hq), abs_neg]
    dsimp only at h ⊢
    split_ifs at h with hlarge hneg
    · rw [if_neg hlarge, if_neg (by linarith), ← Number.finite.inj h, neg_neg]
    · have hneg' : -q < 0 := by
        rcases lt_trichotomy q 0 with hlt | heq | hgt
        · exact absurd hlt hneg
        · exact absurd heq hq
        · linarith
      rw [if_neg hlarge, if_pos hneg', ← Number.finite.inj h]

/-! ### Numbers close to a number -/

theorem zpow_eq_natCast_mul {l m : ℤ} (h : l ≤ m) :
    (2 : ℚ) ^ m = ((2 ^ (m - l).toNat : ℤ) : ℚ) * 2 ^ l := by
  push_cast
  rw [← zpow_natCast, Int.toNat_of_nonneg (by omega), ← zpow_add₀ (by norm_num)]
  congr 1
  omega

/-- A multiple of a power of two below a higher power. -/
theorem add_le_of_lt_zpow {z l m : ℤ} (hlm : l ≤ m) (h : (z : ℚ) * 2 ^ l < 2 ^ m) :
    (z : ℚ) * 2 ^ l + 2 ^ l ≤ 2 ^ m := by
  have hpos : (0 : ℚ) < 2 ^ l := zpow_pos (by norm_num) _
  rw [zpow_eq_natCast_mul hlm] at h ⊢
  have hlt : z < 2 ^ (m - l).toNat := by exact_mod_cast lt_of_mul_lt_mul_right h hpos.le
  have hle : ((z + 1 : ℤ) : ℚ) ≤ ((2 ^ (m - l).toNat : ℤ) : ℚ) := by exact_mod_cast hlt
  have hmul := mul_le_mul_of_nonneg_right hle hpos.le
  push_cast at hmul ⊢
  linarith

/-- A multiple of a power of two above a higher power. -/
theorem add_le_of_zpow_lt {z l m : ℤ} (hlm : l ≤ m) (h : (2 : ℚ) ^ m < z * 2 ^ l) :
    (2 : ℚ) ^ m + 2 ^ l ≤ z * 2 ^ l := by
  have hpos : (0 : ℚ) < 2 ^ l := zpow_pos (by norm_num) _
  rw [zpow_eq_natCast_mul hlm] at h ⊢
  have hlt : 2 ^ (m - l).toNat < z := by exact_mod_cast lt_of_mul_lt_mul_right h hpos.le
  have hle : ((2 ^ (m - l).toNat + 1 : ℤ) : ℚ) ≤ (z : ℚ) := by exact_mod_cast hlt
  have hmul := mul_le_mul_of_nonneg_right hle hpos.le
  push_cast at hmul ⊢
  linarith

/-- The last places of a number and of one close to it. -/
theorem lastPlace_near {x y : ℚ} {z : ℤ} (hpos : 0 < x) (hz : x = z * 2 ^ lastPlace x)
    (h : |y - x| < x / 2 ^ 54) :
    0 < y ∧ lastPlace y ≤ lastPlace x ∧ x / 2 ^ 54 ≤ 2 ^ lastPlace y / 2 := by
  obtain ⟨hbelow, habove⟩ := abs_lt.mp h
  have hy : 0 < y := by linarith
  have hlow : (2 : ℚ) ^ Int.log 2 x ≤ x := by exact_mod_cast Int.zpow_log_le_self (by decide) hpos
  have hhigh : x < (2 : ℚ) ^ (Int.log 2 x + 1) := by
    exact_mod_cast Int.lt_zpow_succ_log_self (b := 2) (by decide) x
  have hplace : (0 : ℚ) < 2 ^ lastPlace x := zpow_pos (by norm_num) _
  -- `x` is at least one last place, so the last place is not above its leading digit
  have hone : (2 : ℚ) ^ lastPlace x ≤ x := by
    have hz1 : (1 : ℚ) ≤ z := by
      have hz0 : 0 < z := by
        rw [hz] at hpos
        exact_mod_cast (mul_pos_iff_of_pos_right hplace).mp hpos
      exact_mod_cast hz0
    calc (2 : ℚ) ^ lastPlace x = 1 * 2 ^ lastPlace x := (one_mul _).symm
      _ ≤ z * 2 ^ lastPlace x := mul_le_mul_of_nonneg_right hz1 hplace.le
      _ = x := hz.symm
  have hplaces : lastPlace x ≤ Int.log 2 x := by
    have hlog := (Int.zpow_le_iff_le_log (b := 2) (by decide) hpos).mp (by exact_mod_cast hone)
    exact hlog
  have hhalf : (2 : ℚ) ^ (Int.log 2 x + 1) = 2 ^ 54 * 2 ^ (Int.log 2 x - 53) := by
    rw [← zpow_natCast, ← zpow_add₀ (by norm_num)]
    congr 1
    push_cast
    omega
  have hunit : (2 : ℚ) ^ (Int.log 2 x - 53) ≤ 2 ^ lastPlace x :=
    zpow_le_zpow_right₀ (by norm_num) (by unfold lastPlace; omega)
  have hstep : x / 2 ^ 54 < 2 ^ (Int.log 2 x - 53) := by
    rw [div_lt_iff₀ (by norm_num)]
    linarith
  have hlogy : Int.log 2 y < Int.log 2 x + 1 := by
    have hnext := add_le_of_lt_zpow (show lastPlace x ≤ Int.log 2 x + 1 by omega)
      (by rwa [← hz] : (z : ℚ) * 2 ^ lastPlace x < 2 ^ (Int.log 2 x + 1))
    rw [← hz] at hnext
    refine (Int.lt_zpow_iff_log_lt (b := 2) (by decide) hy).mp ?_
    push_cast
    linarith
  refine ⟨hy, ?_, ?_⟩
  · unfold lastPlace
    omega
  · rcases hlow.eq_or_lt with heq | hlt
    · -- a power of two: the place below it is half as large
      have hlog : Int.log 2 x - 1 ≤ Int.log 2 y := by
        refine (Int.zpow_le_iff_le_log (b := 2) (by decide) hy).mp ?_
        push_cast
        rw [zpow_sub_one₀ (by norm_num), heq]
        linarith
      have hyplace : (2 : ℚ) ^ (Int.log 2 x - 53) ≤ 2 ^ lastPlace y :=
        zpow_le_zpow_right₀ (by norm_num) (by unfold lastPlace; omega)
      have hsplit : x = 2 ^ 53 * 2 ^ (Int.log 2 x - 53) := by
        rw [← zpow_natCast, ← zpow_add₀ (by norm_num), Nat.cast_ofNat, add_sub_cancel, heq]
      rw [div_le_iff₀ (by norm_num)]
      linarith
    · have hlog : Int.log 2 x ≤ Int.log 2 y := by
        have hnext := add_le_of_zpow_lt hplaces
          (by rwa [← hz] : (2 : ℚ) ^ Int.log 2 x < z * 2 ^ lastPlace x)
        rw [← hz] at hnext
        refine (Int.zpow_le_iff_le_log (b := 2) (by decide) hy).mp ?_
        push_cast
        linarith
      have hyplace : (2 : ℚ) ^ (Int.log 2 x - 53 + 1) ≤ 2 ^ lastPlace y :=
        zpow_le_zpow_right₀ (by norm_num) (by unfold lastPlace; omega)
      rw [zpow_add_one₀ (by norm_num)] at hyplace
      linarith

/-- **What is close to a number rounds to it.** -/
theorem round_near {x y : ℚ} (hpos : 0 < x) (hx : Binary64.round x = .finite x)
    (h : |y - x| < x / 2 ^ 54) : Binary64.round y = .finite x := by
  obtain ⟨⟨z, hz⟩, hlarge⟩ := of_round_self hpos hx
  obtain ⟨hy, hplaces, hhalf⟩ := lastPlace_near hpos hz h
  have hmultiple : x = ((z * 2 ^ (lastPlace x - lastPlace y).toNat : ℤ) : ℚ) * 2 ^ lastPlace y := by
    conv_lhs => rw [hz, zpow_eq_natCast_mul hplaces]
    push_cast
    ring
  exact round_of_roundPositive hy (roundPositive_eq hmultiple (h.trans_le hhalf)) hlarge

/-! ### The search -/

/-- **A positive decimal**: `significand * 10 ^ exponent`. -/
structure Digits where
  significand : ℕ
  exponent : ℤ
  deriving DecidableEq, Repr

def Digits.value (d : Digits) : ℚ := d.significand * 10 ^ d.exponent

/-- The place of the last of `k` digits. -/
def place (x : ℚ) (k : ℕ) : ℤ := Int.log 10 x + 1 - k

/-- The numbers of `k` digits next to `x` that round to it: the closest one, and of two that are
equally close the even one. -/
def candidate (x : ℚ) (k : ℕ) : Option ℕ :=
  let u : ℚ := 10 ^ place x k
  let s := ⌊x / u⌋.toNat
  if Binary64.round (s * u) = .finite x ∧ (Binary64.round ((s + 1 : ℕ) * u) ≠ .finite x ∨
      x - s * u < (s + 1 : ℕ) * u - x ∨ x - s * u = (s + 1 : ℕ) * u - x ∧ s % 2 = 0) then some s
  else if Binary64.round ((s + 1 : ℕ) * u) = .finite x then some (s + 1)
  else none

/-- A one with zeros behind it is written as a one. -/
def digitsOf (x : ℚ) (k s : ℕ) : Digits :=
  if s = 10 ^ k then ⟨1, place x k + k⟩ else ⟨s, place x k⟩

/-- **The shortest decimal** that rounds to a positive number. -/
def shortest (x : ℚ) : Option Digits :=
  (List.range' 1 17).findSome? fun k => (candidate x k).map (digitsOf x k)

theorem value_digitsOf (x : ℚ) (k s : ℕ) : (digitsOf x k s).value = s * 10 ^ place x k := by
  unfold digitsOf
  split_ifs with h
  · rw [Digits.value, h, zpow_add₀ (by norm_num), zpow_natCast]
    push_cast
    ring
  · rfl

theorem significand_digitsOf_pos {x : ℚ} {k s : ℕ} (hs : 0 < s) :
    0 < (digitsOf x k s).significand := by
  unfold digitsOf
  split_ifs
  · exact Nat.one_pos
  · exact hs

theorem candidate_spec {x : ℚ} {k s : ℕ} (h : candidate x k = some s) :
    Binary64.round (s * 10 ^ place x k) = .finite x := by
  unfold candidate at h
  dsimp only at h
  split_ifs at h with hdown hup
  · rw [← Option.some.inj h]
    exact hdown.1
  · rw [← Option.some.inj h]
    exact hup

theorem candidate_isSome {x : ℚ} {k : ℕ}
    (h : Binary64.round (⌊x / 10 ^ place x k⌋.toNat * 10 ^ place x k) = .finite x ∨
      Binary64.round ((⌊x / 10 ^ place x k⌋.toNat + 1 : ℕ) * 10 ^ place x k) = .finite x) :
    ∃ s, candidate x k = some s := by
  unfold candidate
  dsimp only
  split_ifs with hdown hup
  · exact ⟨_, rfl⟩
  · exact ⟨_, rfl⟩
  · rcases h with h | h
    · exact absurd ⟨h, Or.inl hup⟩ hdown
    · exact absurd h hup

section Positive
variable {x : ℚ} (hpos : 0 < x) (hx : Binary64.round x = .finite x)
include hpos hx

/-- **Seventeen digits are enough.** -/
theorem candidate_seventeen : ∃ s, candidate x 17 = some s := by
  have hu : (0 : ℚ) < 10 ^ place x 17 := zpow_pos (by norm_num) _
  have hlog : (10 : ℚ) ^ Int.log 10 x ≤ x := by exact_mod_cast Int.zpow_log_le_self (by decide) hpos
  have hscale : (10 : ℚ) ^ Int.log 10 x = 10 ^ 16 * 10 ^ place x 17 := by
    rw [← zpow_natCast, ← zpow_add₀ (by norm_num), place]
    congr 1
    push_cast
    ring
  -- half of the last place is less than `2 ^ -54` of the number
  have hsmall : (10 : ℚ) ^ place x 17 / 2 < x / 2 ^ 54 := by
    rw [div_lt_div_iff₀ (by norm_num) (by norm_num)]
    linarith
  have hfloor : ((⌊x / 10 ^ place x 17⌋.toNat : ℕ) : ℚ) = (⌊x / 10 ^ place x 17⌋ : ℤ) := by
    have hnonneg : 0 ≤ ⌊x / 10 ^ place x 17⌋ := Int.floor_nonneg.mpr (div_pos hpos hu).le
    exact_mod_cast Int.toNat_of_nonneg hnonneg
  have hbelow : (⌊x / 10 ^ place x 17⌋ : ℚ) * 10 ^ place x 17 ≤ x :=
    (le_div_iff₀ hu).mp (Int.floor_le _)
  have habove : x < ((⌊x / 10 ^ place x 17⌋ : ℚ) + 1) * 10 ^ place x 17 :=
    (div_lt_iff₀ hu).mp (Int.lt_floor_add_one _)
  refine candidate_isSome ?_
  push_cast
  rw [hfloor]
  by_cases hhalf : x - ⌊x / 10 ^ place x 17⌋ * 10 ^ place x 17 ≤ 10 ^ place x 17 / 2
  · refine Or.inl (round_near hpos hx ?_)
    rw [abs_sub_comm, abs_of_nonneg (by linarith)]
    linarith
  · refine Or.inr (round_near hpos hx ?_)
    rw [abs_of_nonneg (by linarith)]
    linarith

/-- **The shortest decimal is found, and rounds to the number.** -/
theorem shortest_spec : ∃ d, shortest x = some d ∧ 0 < d.significand ∧
    Binary64.round d.value = .finite x := by
  obtain ⟨s, hs⟩ := candidate_seventeen hpos hx
  have hsome : (shortest x).isSome := by
    rw [shortest, List.findSome?_isSome_iff]
    exact ⟨17, by decide, by rw [hs]; rfl⟩
  obtain ⟨d, hd⟩ := Option.isSome_iff_exists.mp hsome
  obtain ⟨k, -, hk⟩ := List.exists_of_findSome?_eq_some hd
  obtain ⟨t, ht, rfl⟩ := Option.map_eq_some_iff.mp hk
  have hround := candidate_spec ht
  refine ⟨_, hd, significand_digitsOf_pos ?_, by rwa [value_digitsOf]⟩
  rcases Nat.eq_zero_or_pos t with rfl | hpos'
  · rw [Nat.cast_zero, zero_mul] at hround
    exact absurd (Number.finite.inj hround) hpos.ne
  · exact hpos'

end Positive

end Nullark.Lib.Shortest
