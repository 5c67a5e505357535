import Mathlib.Data.List.DropRight
import Mathlib.Tactic
import Nullark.Lib.Decimal

/-! # Decimal fractions

Texts of digits with a point, as multiples of a last place (`scaled`), and the text without
redundant zeros of such a multiple (`render`).

* `scaled_eq`: what a text is a multiple of.
* `scaled_render`, `canonical_render`: the text of a multiple is canonical, and is read back. -/

namespace Nullark.Lib.FixedPoint

open Nullark.Lib.Hex (Text padStart)
open Nullark.Lib.Decimal

/-- The digits before and behind the point. -/
structure Parts where
  whole : Text
  fraction : Text
  deriving DecidableEq, Repr

def isPoint (c : Char) : Bool := c = '.'

/-- The parts of a text; without a point it is whole. -/
def partsOf (t : Text) : Parts where
  whole := t.takeWhile fun c => !isPoint c
  fraction := (t.dropWhile fun c => !isPoint c).tail

/-- **The number of a decimal fraction.** -/
def Parts.number (p : Parts) : ℚ := value p.whole + value p.fraction / 10 ^ p.fraction.length

def padEnd (n : ℕ) (c : Char) (t : Text) : Text := t ++ List.replicate (n - t.length) c

/-- The number in units of the place `d`. -/
def scaled (d : ℕ) (p : Parts) : ℕ := value p.whole * 10 ^ d + value (padEnd d '0' p.fraction)

/-- The digits behind the point, without zeros at their end. -/
def fractionText (d n : ℕ) : Text := (padStart d '0' (ofNat (n % 10 ^ d))).rdropWhile (· = '0')

/-- **The text of `n` units of the place `d`.** -/
def render (d n : ℕ) : Text :=
  if fractionText d n ≠ [] then ofNat (n / 10 ^ d) ++ '.' :: fractionText d n
  else ofNat (n / 10 ^ d)

/-- **A canonical text**: no redundant zero before or behind the point, and no point at its end. -/
structure Canonical (t : Text) : Prop where
  whole : isCanonical (partsOf t).whole
  fraction : Digits (partsOf t).fraction
  last : (partsOf t).fraction.getLast? ≠ some '0'
  point : '.' ∈ t → (partsOf t).fraction ≠ []

/-! ### Values -/

theorem value_append (s t : Text) : value (s ++ t) = value s * 10 ^ t.length + value t := by
  unfold value
  rw [Nat.ofDigitChars_append, Nat.ofDigitChars_eq_ofDigitChars_zero, mul_comm]

theorem value_zeros (k : ℕ) : value (List.replicate k '0') = 0 := by
  unfold value
  rw [Nat.ofDigitChars_replicate_zero, mul_zero]

/-- **A whole number without redundant zeros is determined by its value.** -/
theorem ofNat_value {t : Text} (h : isCanonical t) : ofNat (value t) = t := by
  induction t using List.reverseRecOn with
  | nil => exact absurd rfl h.1.1
  | append_singleton t c ih =>
    have hc : c.isDigit = true := h.1.2 c (by simp)
    have hdigit : ofNat (value [c]) = [c] ∧ value [c] < 10 := by
      have hall : ∀ n ≤ 57, 48 ≤ n → ofNat (value [Char.ofNat n]) = [Char.ofNat n] ∧
          value [Char.ofNat n] < 10 := by decide
      have hrange : 48 ≤ c.toNat ∧ c.toNat ≤ 57 := by
        simpa [Char.isDigit, Char.le_def, UInt32.le_iff_toNat_le] using hc
      have hchar := hall c.toNat hrange.2 hrange.1
      rwa [Char.ofNat_toNat] at hchar
    rw [value_append, List.length_singleton, pow_one]
    rcases eq_or_ne t [] with rfl | hne
    · have hzero : value [] * 10 + value [c] = value [c] := Nat.zero_add _
      rw [hzero, hdigit.1, List.nil_append]
    · -- the digits before the last one are canonical, and not zero
      have hhead : t.head? ≠ some '0' := by
        intro hzero
        have hall := h.2 (by rw [List.head?_append_of_ne_nil _ hne, hzero])
        have hlength := congrArg List.length hall
        rw [List.length_append, List.length_singleton, List.length_singleton] at hlength
        exact hne (List.eq_nil_of_length_eq_zero (by omega))
      have ht := ih ⟨⟨hne, fun d hd => h.1.2 d (List.mem_append_left _ hd)⟩,
        fun hzero => absurd hzero hhead⟩
      have hpos : 0 < value t := by
        rcases Nat.eq_zero_or_pos (value t) with hzero | hpos
        · rw [hzero] at ht
          exact absurd (by rw [← ht]; rfl) hhead
        · exact hpos
      rw [ofNat_of_le (by omega), show (value t * 10 + value [c]) / 10 = value t by omega,
        show (value t * 10 + value [c]) % 10 = value [c] by omega, ht, hdigit.1]

theorem value_padStart (d : ℕ) (t : Text) : value (padStart d '0' t) = value t := by
  rw [padStart, value_append, value_zeros, zero_mul, zero_add]

theorem value_padEnd (d : ℕ) (t : Text) : value (padEnd d '0' t) = value t * 10 ^ (d - t.length) := by
  rw [padEnd, value_append, value_zeros, List.length_replicate, add_zero]

/-- **A text with at most `d` places** is its number in units of the last one. -/
theorem scaled_eq {d : ℕ} {p : Parts} (h : p.fraction.length ≤ d) :
    (scaled d p : ℚ) = p.number * 10 ^ d := by
  have hpow : (10 : ℚ) ^ d = 10 ^ p.fraction.length * 10 ^ (d - p.fraction.length) := by
    rw [← pow_add, Nat.add_sub_cancel' h]
  rw [scaled, value_padEnd, Parts.number, add_mul, div_mul_eq_mul_div, hpow]
  push_cast
  rw [hpow]
  field_simp

/-- Texts of one number are equal multiples. -/
theorem scaled_eq_iff {d : ℕ} {p q : Parts} (hp : p.fraction.length ≤ d)
    (hq : q.fraction.length ≤ d) : scaled d p = scaled d q ↔ p.number = q.number := by
  have hpow : (10 : ℚ) ^ d ≠ 0 := pow_ne_zero d (by norm_num)
  rw [← Nat.cast_inj (R := ℚ), scaled_eq hp, scaled_eq hq]
  exact mul_left_inj' hpow

/-! ### Parts -/

theorem partsOf_of_digits {t : Text} (h : ∀ c ∈ t, isPoint c = false) : partsOf t = ⟨t, []⟩ := by
  have hall : ∀ c ∈ t, (!isPoint c) = true := fun c hc => by rw [h c hc]; rfl
  rw [partsOf, List.takeWhile_eq_self_iff.mpr hall, List.dropWhile_eq_nil_iff.mpr hall, List.tail_nil]

theorem partsOf_append {s : Text} (h : ∀ c ∈ s, isPoint c = false) (t : Text) :
    partsOf (s ++ '.' :: t) = ⟨s, t⟩ := by
  have hall : ∀ c ∈ s, (!isPoint c) = true := fun c hc => by rw [h c hc]; rfl
  rw [partsOf, List.takeWhile_append_of_pos hall, List.dropWhile_append_of_pos hall]
  simp [isPoint]

/-- A text is its parts, with a point between them if it has one. -/
theorem eq_of_partsOf (t : Text) : t = (partsOf t).whole ∧ (partsOf t).fraction = [] ∨
    t = (partsOf t).whole ++ '.' :: (partsOf t).fraction := by
  have hsplit := List.takeWhile_append_dropWhile (p := fun c => !isPoint c) (l := t)
  unfold partsOf
  dsimp only
  cases hrest : t.dropWhile fun c => !isPoint c with
  | nil =>
    rw [hrest, List.append_nil] at hsplit
    exact Or.inl ⟨hsplit.symm, rfl⟩
  | cons c rest =>
    have hhead : isPoint c = true := by
      have hnot := List.head_dropWhile_not (fun c => !isPoint c)
        (by rw [hrest]; exact List.cons_ne_nil _ _)
      simpa [hrest] using hnot
    obtain rfl : c = '.' := of_decide_eq_true hhead
    rw [hrest] at hsplit
    exact Or.inr hsplit.symm

theorem not_isPoint_of_digits {t : Text} (h : Digits t) : ∀ c ∈ t, isPoint c = false := by
  intro c hc
  have hdigit := h c hc
  rw [isPoint, decide_eq_false_iff_not]
  rintro rfl
  exact absurd hdigit (by decide)

/-! ### Rendering -/

theorem length_padStart {d n : ℕ} (hd : 0 < d) (h : n < 10 ^ d) :
    (padStart d '0' (ofNat n)).length = d := by
  have hle := length_ofNat_le hd h
  rw [padStart, List.length_append, List.length_replicate]
  omega

/-- The zeros that are dropped. -/
theorem fractionText_zeros {d n : ℕ} (hd : 0 < d) : padEnd d '0' (fractionText d n) =
    padStart d '0' (ofNat (n % 10 ^ d)) := by
  have hlength := length_padStart hd (Nat.mod_lt n (Nat.pow_pos (n := d) (by norm_num : 0 < 10)))
  have hsplit := List.rdropWhile_append_rtakeWhile (p := fun c : Char => decide (c = '0'))
    (l := padStart d '0' (ofNat (n % 10 ^ d)))
  have hzeros : (padStart d '0' (ofNat (n % 10 ^ d))).rtakeWhile (fun c => decide (c = '0')) =
      List.replicate (d - (fractionText d n).length) '0' := by
    refine List.eq_replicate_iff.mpr ⟨?_, fun c hc => ?_⟩
    · have htotal := congrArg List.length hsplit
      rw [List.length_append, hlength] at htotal
      change (fractionText d n).length + _ = d at htotal
      omega
    · exact of_decide_eq_true
        (List.mem_rtakeWhile_imp (p := fun c : Char => decide (c = '0')) hc)
  rw [padEnd, ← hzeros]
  exact hsplit

theorem digits_fractionText (d n : ℕ) : Digits (fractionText d n) := by
  intro c hc
  have hmem := List.rdropWhile_prefix (p := fun c : Char => decide (c = '0'))
    (padStart d '0' (ofNat (n % 10 ^ d))) |>.subset hc
  rw [padStart, List.mem_append] at hmem
  rcases hmem with hmem | hmem
  · rw [List.eq_of_mem_replicate hmem]
    decide
  · exact digits_ofNat _ c hmem

theorem partsOf_render (d n : ℕ) : partsOf (render d n) = ⟨ofNat (n / 10 ^ d), fractionText d n⟩ := by
  have hwhole := not_isPoint_of_digits (digits_ofNat (n / 10 ^ d))
  unfold render
  split_ifs with h
  · exact partsOf_append hwhole _
  · rw [partsOf_of_digits hwhole, not_not.mp h]

/-- **The units are read back.** -/
theorem scaled_render {d : ℕ} (hd : 0 < d) (n : ℕ) : scaled d (partsOf (render d n)) = n := by
  rw [partsOf_render, scaled, fractionText_zeros hd, value_padStart, value_ofNat, value_ofNat]
  exact Nat.div_add_mod' n (10 ^ d)

theorem length_fractionText_le {d : ℕ} (hd : 0 < d) (n : ℕ) : (fractionText d n).length ≤ d := by
  have hlength := congrArg List.length (fractionText_zeros (n := n) hd)
  rw [length_padStart hd (Nat.mod_lt n (Nat.pow_pos (by norm_num))), padEnd, List.length_append]
    at hlength
  omega

/-- **The text is canonical.** -/
theorem canonical_render (d n : ℕ) : Canonical (render d n) where
  whole := by
    rw [partsOf_render]
    exact isCanonical_ofNat _
  fraction := by
    rw [partsOf_render]
    exact digits_fractionText d n
  last := by
    rw [partsOf_render]
    intro h
    have hne : fractionText d n ≠ [] := by
      intro hnil
      rw [hnil] at h
      cases h
    rw [List.getLast?_eq_some_getLast hne] at h
    exact List.rdropWhile_last_not (fun c : Char => decide (c = '0')) _ hne
      (decide_eq_true (Option.some.inj h))
  point := by
    rw [partsOf_render]
    unfold render
    split_ifs with h
    · exact fun _ => h
    · intro hpoint
      exact absurd (not_isPoint_of_digits (digits_ofNat _) _ hpoint) (by decide)

end Nullark.Lib.FixedPoint
