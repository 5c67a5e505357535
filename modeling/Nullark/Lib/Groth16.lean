import Mathlib.Tactic
import Mathlib.Algebra.Group.Hom.Basic

/-! # The equation of Groth16

A proof is three points, a verifying key fixes the others, and the public signals are combined into
one point. The groups are written additively.

* `foldl_accumulate`: the combination, one signal after another.
* `sum_eq_zero_iff`: the equation as one sum of pairings. -/

namespace Nullark.Lib.Groth16

/-- **A verifying key.** -/
structure VerifyingKey (G₁ G₂ : Type*) where
  alpha : G₁
  beta : G₂
  gamma : G₂
  delta : G₂
  ic : G₁
  ics : List G₁

structure Proof (G₁ G₂ : Type*) where
  a : G₁
  b : G₂
  c : G₁

variable {G₁ G₂ T : Type*} [AddCommGroup G₁] [AddCommGroup G₂] [AddCommGroup T]

/-- The point of the public signals. -/
def VerifyingKey.combine (vk : VerifyingKey G₁ G₂) (signals : List ℕ) : G₁ :=
  vk.ic + (List.zipWith (fun P s => s • P) vk.ics signals).sum

/-- **The equation.** -/
def Verifies (pairing : G₁ →+ G₂ →+ T) (vk : VerifyingKey G₁ G₂) (π : Proof G₁ G₂)
    (signals : List ℕ) : Prop :=
  pairing π.a π.b = pairing vk.alpha vk.beta + pairing (vk.combine signals) vk.gamma +
    pairing π.c vk.delta

/-- One signal is added to what has been combined. -/
def accumulate (acc : G₁) (p : G₁ × ℕ) : G₁ := p.2 • p.1 + acc

theorem foldl_accumulate : ∀ (points : List G₁) (signals : List ℕ) (acc : G₁),
    (points.zip signals).foldl accumulate acc =
      acc + (List.zipWith (fun P s => s • P) points signals).sum
  | [], _, acc => (add_zero acc).symm
  | _ :: _, [], acc => (add_zero acc).symm
  | P :: points, s :: signals, acc => by
    rw [List.zip_cons_cons, List.foldl_cons, foldl_accumulate points signals, accumulate,
      List.zipWith_cons_cons, List.sum_cons, add_comm (s • P) acc, add_assoc]

/-- **The sum that a verifier compares with zero.** -/
theorem sum_eq_zero_iff (pairing : G₁ →+ G₂ →+ T) (vk : VerifyingKey G₁ G₂) (π : Proof G₁ G₂)
    (signals : List ℕ) :
    pairing (-π.a) π.b + (pairing vk.alpha vk.beta +
        (pairing (vk.combine signals) vk.gamma + (pairing π.c vk.delta + 0))) = 0 ↔
      Verifies pairing vk π signals := by
  unfold Verifies
  rw [map_neg, AddMonoidHom.neg_apply, neg_add_eq_zero, add_zero, add_assoc]

end Nullark.Lib.Groth16
