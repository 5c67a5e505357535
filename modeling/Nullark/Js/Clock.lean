import Mathlib.Tactic

/-! # The clock of JavaScript -/

namespace Nullark.Js.Clock

/-- The largest value of `Date.now()`. -/
def maxTimeValue : ℕ := 8640000000000000

/-- **`Date.now()`**: milliseconds since 1970, which end at the largest time value. -/
structure DateNow where
  milliseconds : ℕ
  le : milliseconds ≤ maxTimeValue

/-- `Math.floor(Date.now() / 1000)`. -/
def DateNow.epochSeconds (now : DateNow) : ℕ := now.milliseconds / 1000

theorem DateNow.epochSeconds_le (now : DateNow) : now.epochSeconds ≤ maxTimeValue :=
  (Nat.div_le_self _ _).trans now.le

/-- The number of seconds is a safe integer. -/
theorem DateNow.epochSeconds_lt (now : DateNow) : now.epochSeconds < 2 ^ 53 :=
  now.epochSeconds_le.trans_lt (by decide)

end Nullark.Js.Clock
