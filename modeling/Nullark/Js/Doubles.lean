import Nullark.Js.Numbers
import Nullark.Lib.Binary64

/-! # Values of type `number`

A number is a NaN, an infinity or one of the rationals of binary64. `bigIntOfNumber_eq_ok`,
`bigIntOfTrunc_eq_ok`: which of them become a `bigint`. -/

namespace Nullark.Js.Doubles

open Nullark.Lib Nullark.Lib.Outcome Nullark.Js.Basic

/-- **A finite number.** The two zeros are one. -/
structure Double where
  value : ℚ
  isDouble : Binary64.round value = .finite value

/-- **A value of type `number`.** -/
inductive JsNumber
  | nan
  | infinite (negative : Bool)
  | finite (x : Double)

/-- Rounding towards zero. -/
def truncate (q : ℚ) : ℤ := if q < 0 then ⌈q⌉ else ⌊q⌋

theorem truncate_intCast (z : ℤ) : truncate z = z := by
  unfold truncate
  split_ifs
  · exact Int.ceil_intCast z
  · exact Int.floor_intCast z

/-- **`BigInt(value)`**. -/
def bigIntOfNumber : JsNumber → Throws ℤ
  | .finite x =>
    if (⌊x.value⌋ : ℚ) = x.value then .ok ⌊x.value⌋
    else .error "RangeError: The number cannot be converted to a BigInt because it is not an integer"
  | _ => .error "RangeError: The number cannot be converted to a BigInt because it is not an integer"

/-- **`BigInt(Math.trunc(value))`**. -/
def bigIntOfTrunc : JsNumber → Throws ℤ
  | .finite x => .ok (truncate x.value)
  | _ => .error "RangeError: The number cannot be converted to a BigInt because it is not an integer"

/-- **`Number.isSafeInteger(value)`**. -/
def isSafeInteger : JsNumber → Prop
  | .finite x => (⌊x.value⌋ : ℚ) = x.value ∧ |⌊x.value⌋| < 2 ^ 53
  | _ => False

instance : DecidablePred isSafeInteger
  | .nan => isFalse id
  | .infinite _ => isFalse id
  | .finite x => inferInstanceAs (Decidable ((⌊x.value⌋ : ℚ) = x.value ∧ |⌊x.value⌋| < 2 ^ 53))

/-- The number is the integer. -/
def JsNumber.Is (x : JsNumber) (z : ℤ) : Prop := ∃ d : Double, x = .finite d ∧ d.value = z

theorem bigIntOfNumber_eq_ok {x : JsNumber} {z : ℤ} : bigIntOfNumber x = .ok z ↔ x.Is z := by
  rcases x with _ | negative | d
  · exact ⟨(nomatch ·), fun ⟨_, h, _⟩ => nomatch h⟩
  · exact ⟨(nomatch ·), fun ⟨_, h, _⟩ => nomatch h⟩
  · unfold bigIntOfNumber
    dsimp only
    constructor
    · intro h
      split_ifs at h with hint
      obtain rfl := Except.ok.inj h
      exact ⟨d, rfl, hint.symm⟩
    · rintro ⟨e, he, hvalue⟩
      obtain rfl := JsNumber.finite.inj he
      rw [hvalue, Int.floor_intCast, if_pos rfl]

/-- Truncating an integer leaves it as it is. -/
theorem bigIntOfTrunc_of_is {x : JsNumber} {z : ℤ} (h : x.Is z) : bigIntOfTrunc x = .ok z := by
  obtain ⟨d, rfl, hvalue⟩ := h
  unfold bigIntOfTrunc
  dsimp only
  rw [hvalue, truncate_intCast]

theorem bigIntOfTrunc_eq_error {x : JsNumber} :
    (∃ e, bigIntOfTrunc x = .error e) ↔ ∀ d, x ≠ .finite d := by
  rcases x with _ | negative | d
  · exact ⟨fun _ _ => nofun, fun _ => ⟨_, rfl⟩⟩
  · exact ⟨fun _ _ => nofun, fun _ => ⟨_, rfl⟩⟩
  · exact ⟨fun ⟨_, h⟩ => (nomatch h), fun h => absurd rfl (h d)⟩

end Nullark.Js.Doubles
