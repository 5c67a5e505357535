import Nullark.Lib.Hex

/-! # Decimal texts

The digits of a number (`ofNat`) and the number of a text of digits (`value`), over the core
library's `Nat.toDigits` and `Nat.ofDigitChars`.

* `value_ofNat`: a number is read back from its digits.
* `isCanonical_ofNat`: the digits of a number have no leading zero. -/

namespace Nullark.Lib.Decimal

open Nullark.Lib.Hex

/-- All characters are decimal digits. -/
def Digits (t : Text) : Prop := ∀ c ∈ t, c.isDigit = true

instance (t : Text) : Decidable (Digits t) := inferInstanceAs (Decidable (∀ c ∈ t, _))

/-- `/^[0-9]+$/`. -/
def isDecimal (t : Text) : Prop := t ≠ [] ∧ Digits t

instance (t : Text) : Decidable (isDecimal t) := inferInstanceAs (Decidable (_ ∧ _))

/-- `/^(0|[1-9][0-9]*)$/`. -/
def isCanonical (t : Text) : Prop := isDecimal t ∧ (t.head? = some '0' → t = ['0'])

instance (t : Text) : Decidable (isCanonical t) := inferInstanceAs (Decidable (_ ∧ _))

/-- **The number of a text of digits.** -/
def value (t : Text) : ℕ := Nat.ofDigitChars 10 t 0

/-- **The digits of a number.** -/
def ofNat (v : ℕ) : Text := Nat.toDigits 10 v

@[simp] theorem value_ofNat (v : ℕ) : value (ofNat v) = v := Nat.ofDigitChars_ten_toDigits

theorem ofNat_injective : Function.Injective ofNat := fun a b h => by
  rw [← value_ofNat a, h, value_ofNat]

theorem ofNat_ne_nil (v : ℕ) : ofNat v ≠ [] := Nat.toDigits_ne_nil

theorem digits_ofNat (v : ℕ) : Digits (ofNat v) := fun _ hc =>
  Nat.isDigit_of_mem_toDigits (by decide) (by decide) hc

theorem isDecimal_ofNat (v : ℕ) : isDecimal (ofNat v) := ⟨ofNat_ne_nil v, digits_ofNat v⟩

theorem ofNat_of_lt {v : ℕ} (h : v < 10) : ofNat v = [v.digitChar] := Nat.toDigits_of_lt_base h

theorem ofNat_of_le {v : ℕ} (h : 10 ≤ v) : ofNat v = ofNat (v / 10) ++ ofNat (v % 10) := by
  have hlow : ofNat (v % 10) = [(v % 10).digitChar] := ofNat_of_lt (Nat.mod_lt v (by decide))
  rw [hlow]
  exact Nat.toDigits_of_base_le (by decide) h

theorem head_ofNat : ∀ v : ℕ, 0 < v → (ofNat v).head? ≠ some '0' := by
  have hdigit : ∀ d < 10, 0 < d → d.digitChar ≠ '0' := by decide
  intro v
  induction v using Nat.strongRecOn with
  | ind v ih =>
    intro hv
    by_cases h : v < 10
    · rw [ofNat_of_lt h, List.head?_cons]
      exact fun hc => hdigit v h hv (Option.some.inj hc)
    · rw [ofNat_of_le (by omega), List.head?_append_of_ne_nil _ (ofNat_ne_nil _)]
      exact ih (v / 10) (by omega) (by omega)

/-- **The digits of a number have no leading zero.** -/
theorem isCanonical_ofNat (v : ℕ) : isCanonical (ofNat v) := by
  refine ⟨isDecimal_ofNat v, fun h => ?_⟩
  rcases Nat.eq_zero_or_pos v with rfl | hv
  · rfl
  · exact absurd h (head_ofNat v hv)

theorem length_ofNat_le {v n : ℕ} (hn : 0 < n) (h : v < 10 ^ n) : (ofNat v).length ≤ n :=
  (Nat.length_toDigits_le_iff (by decide) hn).mpr h

end Nullark.Lib.Decimal
