import Mathlib.Tactic

/-! # Quotas

A request touches some counters, and is admitted while each of them is below its limit. Then no
counter ever passes its limit (`used_le`), whatever the requests are and in whatever order they come. -/

namespace Nullark.Lib.Quota

variable {R C : Type*} (touches : R → C → Bool) (limit : C → ℕ)

/-- **How often a counter was touched.** -/
def used (log : List R) (c : C) : ℕ := log.countP (touches · c)

/-- **The logs of admitted requests**: each was below the limits when it came. -/
inductive Admitted : List R → Prop
  | nil : Admitted []
  | concat {log : List R} {r : R} (hlog : Admitted log)
      (hr : ∀ c, touches r c = true → used touches log c < limit c) : Admitted (log ++ [r])

variable {touches limit} {log : List R} {r : R} {c : C}

@[simp] theorem used_nil : used touches [] c = 0 := rfl

theorem used_concat_of_touches (h : touches r c = true) :
    used touches (log ++ [r]) c = used touches log c + 1 := by
  simp [used, List.countP_append, h]

theorem used_concat_of_not_touches (h : touches r c = false) :
    used touches (log ++ [r]) c = used touches log c := by
  simp [used, List.countP_append, h]

/-- **No counter passes its limit.** -/
theorem used_le (h : Admitted touches limit log) (c : C) : used touches log c ≤ limit c := by
  induction h with
  | nil => exact Nat.zero_le _
  | @concat log r _ hr ih =>
    by_cases htouches : touches r c = true
    · rw [used_concat_of_touches htouches]
      exact hr c htouches
    · rw [Bool.not_eq_true] at htouches
      rw [used_concat_of_not_touches htouches]
      exact ih

end Nullark.Lib.Quota
