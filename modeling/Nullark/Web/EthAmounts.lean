import Nullark.Js.Numbers
import Nullark.Lib.FixedPoint

/-! # Amounts of ether

The app shows amounts in ether and counts in wei, so it reads and writes decimal fractions with 18
places.

* `parseEthDecimalToWei_eq_ok`, `formatWeiToEthDecimal_eq_ok`: what is read and written.
* `amounts_exact`: no amount changes on the way. -/

namespace Nullark.Web.EthAmounts

open Nullark.Lib Nullark.Lib.Outcome Nullark.Lib.FixedPoint
open Nullark.Lib.Hex hiding value Digits ofNat
open Nullark.Lib.Decimal
open Nullark.Js.Basic Nullark.Js.Numbers

/-! ### The code -/

/-- `/^(?:[0-9]+(?:\.[0-9]*)?|\.[0-9]+)$/`. -/
def isEthDecimal (t : Text) : Prop :=
  Digits (partsOf t).whole ∧ Digits (partsOf t).fraction ∧
    ((partsOf t).whole ≠ [] ∨ (partsOf t).fraction ≠ [])

instance (t : Text) : Decidable (isEthDecimal t) := inferInstanceAs (Decidable (_ ∧ _))

/-- `text || "0"`. -/
def orZero (t : Text) : Text := if t = [] then ['0'] else t

def minWithdrawableAmountWei : ℤ := 1

/-- **`parseEthDecimalToWei`**. -/
def parseEthDecimalToWei (value : Text) : Throws Text := do
  let normalized := trim value
  ensure (isEthDecimal normalized) "Expected ETH amount as a positive decimal value."
  let wholePart := (normalized.splitOn '.').getD 0 ['0']
  let fractionPart := (normalized.splitOn '.').getD 1 []
  ensure (¬fractionPart.length > 18) "ETH amount cannot have more than 18 decimal places."
  let whole ← stringToBigInt (orZero wholePart)
  let fraction ← stringToBigInt (orZero (padEnd 18 '0' fractionPart))
  let wei := whole * 1000000000000000000 + fraction
  ensure (¬wei < minWithdrawableAmountWei) "Expected ETH amount to be greater than zero."
  return toString10 wei

/-- **`formatWeiToEthDecimal`**. -/
def formatWeiToEthDecimal (value : Text) : Throws Text := do
  let normalized := trim value
  ensure (isDecimal normalized) "Expected wei amount as a decimal integer."
  let wei ← stringToBigInt normalized
  let whole := wei.tdiv 1000000000000000000
  let fraction := wei.tmod 1000000000000000000
  let fractionText := (padStart 18 '0' (toString10 fraction)).rdropWhile (· = '0')
  return if fractionText ≠ [] then toString10 whole ++ '.' :: fractionText else toString10 whole

/-! ### What is read -/

theorem splitOn_point (t : Text) (h : Digits (partsOf t).whole ∧ Digits (partsOf t).fraction) :
    (t.splitOn '.').getD 0 ['0'] = (partsOf t).whole ∧
      (t.splitOn '.').getD 1 [] = (partsOf t).fraction := by
  have hpoint : ∀ {s : Text}, Digits s → ∀ c ∈ s, (c == '.') = false := by
    intro s hs c hc
    rw [beq_eq_false_iff_ne]
    rintro rfl
    exact absurd (hs '.' hc) (by decide)
  rcases eq_of_partsOf t with ⟨hwhole, hfraction⟩ | ht
  · have hdigits : Digits t := by
      rw [hwhole]
      exact h.1
    have hsplit : t.splitOn '.' = [t] := List.splitOnP_eq_singleton (hpoint hdigits)
    rw [hsplit, hfraction]
    exact ⟨hwhole, rfl⟩
  · have hsplit : t.splitOn '.' = [(partsOf t).whole, (partsOf t).fraction] := by
      conv_lhs => rw [ht]
      rw [List.splitOn, List.splitOnP_append_cons_of_forall_mem (hpoint h.1) '.' (by decide),
        List.splitOnP_eq_singleton (hpoint h.2)]
    rw [hsplit]
    exact ⟨rfl, rfl⟩

theorem stringToBigInt_orZero {t : Text} (h : Digits t) :
    stringToBigInt (orZero t) = .ok (Decimal.value t : ℤ) := by
  unfold orZero
  split_ifs with hnil
  · rw [hnil]
    exact stringToBigInt_of_isDecimal ⟨List.cons_ne_nil _ _, by decide⟩
  · exact stringToBigInt_of_isDecimal ⟨hnil, h⟩

theorem digits_padEnd {n : ℕ} {t : Text} (h : Digits t) : Digits (padEnd n '0' t) := by
  intro c hc
  rcases List.mem_append.mp hc with hc | hc
  · exact h c hc
  · rw [List.eq_of_mem_replicate hc]
    decide

/-- What is computed from the parts. -/
theorem wei_eq (p : Parts) : (Decimal.value p.whole : ℤ) * 1000000000000000000 +
    Decimal.value (padEnd 18 '0' p.fraction) = (scaled 18 p : ℤ) := by
  rw [scaled]
  push_cast
  norm_num

/-- **What is read**: a positive number with at most 18 places, as its wei. -/
theorem parseEthDecimalToWei_eq_ok {t w : Text} : parseEthDecimalToWei t = .ok w ↔
    isEthDecimal (trim t) ∧ (partsOf (trim t)).fraction.length ≤ 18 ∧
      0 < scaled 18 (partsOf (trim t)) ∧ w = ofNat (scaled 18 (partsOf (trim t))) := by
  by_cases hdecimal : isEthDecimal (trim t)
  · obtain ⟨hfirst, hsecond⟩ := splitOn_point _ ⟨hdecimal.1, hdecimal.2.1⟩
    have hpositive : ¬(scaled 18 (partsOf (trim t)) : ℤ) < minWithdrawableAmountWei ↔
        0 < scaled 18 (partsOf (trim t)) := by
      unfold minWithdrawableAmountWei
      omega
    unfold parseEthDecimalToWei
    dsimp only
    rw [ensure_of hdecimal, ok_bind, hfirst, hsecond, stringToBigInt_orZero hdecimal.1, ok_bind,
      stringToBigInt_orZero (digits_padEnd hdecimal.2.1), ok_bind, wei_eq]
    simp only [bind_eq_ok, ensure_eq_ok, exists_const, pure_eq_ok, hpositive, not_lt]
    constructor
    · rintro ⟨hlength, hwei, hw⟩
      exact ⟨hdecimal, hlength, hwei, hw.symm⟩
    · rintro ⟨-, hlength, hwei, hw⟩
      exact ⟨hlength, hwei, hw.symm⟩
  · constructor
    · intro h
      obtain ⟨_, hensure, -⟩ := bind_eq_ok.mp h
      exact absurd (ensure_eq_ok.mp hensure) hdecimal
    · exact fun h => absurd h.1 hdecimal

/-! ### What is written -/

/-- **What is written** of an amount in wei. -/
theorem formatWeiToEthDecimal_eq_ok {t u : Text} : formatWeiToEthDecimal t = .ok u ↔
    isDecimal (trim t) ∧ u = render 18 (Decimal.value (trim t)) := by
  by_cases hdecimal : isDecimal (trim t)
  · generalize hwei : Decimal.value (trim t) = wei
    have hwhole : (wei : ℤ).tdiv 1000000000000000000 = ((wei / 10 ^ 18 : ℕ) : ℤ) := rfl
    have hfraction : (wei : ℤ).tmod 1000000000000000000 = ((wei % 10 ^ 18 : ℕ) : ℤ) := rfl
    unfold formatWeiToEthDecimal
    dsimp only
    rw [ensure_of hdecimal, ok_bind, stringToBigInt_of_isDecimal hdecimal, ok_bind, hwei, hwhole,
      hfraction, pure_eq_ok]
    exact ⟨fun h => ⟨hdecimal, h.symm⟩, fun h => h.2.symm⟩
  · constructor
    · intro h
      obtain ⟨_, hensure, -⟩ := bind_eq_ok.mp h
      exact absurd (ensure_eq_ok.mp hensure) hdecimal
    · exact fun h => absurd h.1 hdecimal

/-- What is written consists of digits and a point. -/
theorem trim_render (n : ℕ) : trim (render 18 n) = render 18 n := by
  have hdigits : ∀ {s : Text}, Digits s → ∀ c ∈ s, isWhiteSpace c = false := fun hs c hc =>
    isWhiteSpace_of_isDigit (decimal_isDigit (hs c hc)).1
  refine trim_eq_self ?_
  unfold render
  split_ifs
  · intro c hc
    rcases List.mem_append.mp hc with hc | hc
    · exact hdigits (digits_ofNat _) c hc
    · rcases List.mem_cons.mp hc with rfl | hc
      · decide
      · exact hdigits (digits_fractionText 18 n) c hc
  · exact hdigits (digits_ofNat _)

theorem isEthDecimal_render (n : ℕ) : isEthDecimal (render 18 n) := by
  unfold isEthDecimal
  rw [partsOf_render]
  exact ⟨digits_ofNat _, digits_fractionText 18 n, Or.inl (ofNat_ne_nil _)⟩

/-- **A positive amount that is written is read back.** -/
theorem parse_render {n : ℕ} (h : 0 < n) : parseEthDecimalToWei (render 18 n) = .ok (ofNat n) := by
  rw [parseEthDecimalToWei_eq_ok, trim_render, scaled_render (by decide)]
  refine ⟨isEthDecimal_render n, ?_, h, rfl⟩
  rw [partsOf_render]
  exact length_fractionText_le (by decide) n

/-- **No amount changes on the way**: what is written of wei is read back, what is read is the
number of the text, and is written canonically. -/
theorem amounts_exact :
    (∀ t : Text, isDecimal (trim t) → 0 < Decimal.value (trim t) →
      ∃ u, formatWeiToEthDecimal t = .ok u ∧
        parseEthDecimalToWei u = .ok (ofNat (Decimal.value (trim t)))) ∧
    (∀ t w : Text, parseEthDecimalToWei t = .ok w →
      ∃ n u, w = ofNat n ∧ (n : ℚ) = (partsOf (trim t)).number * 10 ^ 18 ∧
        formatWeiToEthDecimal w = .ok u ∧ Canonical u ∧ parseEthDecimalToWei u = .ok w) ∧
    ∀ s t v w : Text, parseEthDecimalToWei s = .ok v → parseEthDecimalToWei t = .ok w →
      (v = w ↔ (partsOf (trim s)).number = (partsOf (trim t)).number) := by
  refine ⟨fun t hdecimal hpositive => ?_, fun t w h => ?_, fun s t v w hs ht => ?_⟩
  · exact ⟨_, formatWeiToEthDecimal_eq_ok.mpr ⟨hdecimal, rfl⟩, parse_render hpositive⟩
  · obtain ⟨-, hlength, hpositive, rfl⟩ := parseEthDecimalToWei_eq_ok.mp h
    refine ⟨_, _, rfl, scaled_eq hlength, formatWeiToEthDecimal_eq_ok.mpr ⟨?_, rfl⟩,
      canonical_render _ _, ?_⟩
    · rw [trim_ofNat]
      exact isDecimal_ofNat _
    · rw [trim_ofNat, value_ofNat]
      exact parse_render hpositive
  · obtain ⟨-, hlengths, -, rfl⟩ := parseEthDecimalToWei_eq_ok.mp hs
    obtain ⟨-, hlengtht, -, rfl⟩ := parseEthDecimalToWei_eq_ok.mp ht
    rw [ofNat_injective.eq_iff]
    exact scaled_eq_iff hlengths hlengtht

end Nullark.Web.EthAmounts
