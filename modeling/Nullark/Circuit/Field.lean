import Nullark.Lib.Pratt
import Nullark.Pool.Interface

/-! # The scalar field

* `prime_bn254ScalarField`: the order of the field is prime.
* `toField`: words as field elements; on the words below the order it loses nothing. -/

namespace Nullark.Circuit.Field

open Nullark.Lib.Pratt Nullark.Evm.Basic Nullark.Pool.Interface

/-! ### The order is prime -/

theorem prime_405928799 : Nat.Prime 405928799 := by
  refine prime_of_lucas ?_ (by decide +kernel :
    lucasTest 30 405928799 22 [2, 11, 3691, 4999] = true)
  simp only [List.forall_mem_cons]
  norm_num

theorem prime_639533339 : Nat.Prime 639533339 := by
  refine prime_of_lucas ?_ (by decide +kernel :
    lucasTest 30 639533339 2 [2, 229, 853, 1637] = true)
  simp only [List.forall_mem_cons]
  norm_num

theorem prime_12048837557 : Nat.Prime 12048837557 := by
  refine prime_of_lucas ?_ (by decide +kernel :
    lucasTest 34 12048837557 2 [2, 2, 7, 7, 661, 93001] = true)
  simp only [List.forall_mem_cons]
  norm_num

theorem prime_5156902474397 : Nat.Prime 5156902474397 := by
  refine prime_of_lucas ?_ (by decide +kernel :
    lucasTest 43 5156902474397 2 [2, 2, 107, 12048837557] = true)
  simp only [List.forall_mem_cons, prime_12048837557, true_and]
  norm_num

theorem prime_1670836401704629 : Nat.Prime 1670836401704629 := by
  refine prime_of_lucas ?_ (by decide :
    lucasTest 51 1670836401704629 2 [2, 2, 3, 3, 3, 3, 5156902474397] = true)
  simp only [List.forall_mem_cons, prime_5156902474397, true_and]
  norm_num

theorem prime_65865678001877903 : Nat.Prime 65865678001877903 := by
  refine prime_of_lucas ?_ (by decide :
    lucasTest 56 65865678001877903 5 [2, 83, 379, 1637, 639533339] = true)
  simp only [List.forall_mem_cons, prime_639533339, true_and]
  norm_num

theorem prime_13818364434197438864469338081 : Nat.Prime 13818364434197438864469338081 := by
  refine prime_of_lucas ?_ (by decide +kernel :
    lucasTest 94 13818364434197438864469338081 3
      [2, 2, 2, 2, 2, 5, 823, 1593227, 65865678001877903] = true)
  simp only [List.forall_mem_cons, prime_65865678001877903, true_and]
  norm_num

/-- **The order of the scalar field is prime.** -/
theorem prime_bn254ScalarField : bn254ScalarField.Prime := by
  refine prime_of_lucas ?_ (by decide +kernel :
    lucasTest 254 bn254ScalarField 5 (List.replicate 28 2 ++ [3, 3, 13, 29, 983, 11003, 237073,
      405928799, 1670836401704629, 13818364434197438864469338081]) = true)
  simp only [List.forall_mem_append, List.forall_mem_cons, List.mem_replicate, and_imp,
    prime_405928799, prime_1670836401704629, prime_13818364434197438864469338081, true_and]
  norm_num

instance : Fact bn254ScalarField.Prime := ⟨prime_bn254ScalarField⟩

/-! ### Words as field elements -/

/-- **The scalar field.** -/
abbrev F := ZMod bn254ScalarField

def toField (x : Bytes32) : F := (x.toNat : F)

/-- The word of a field element. -/
def toWord (v : F) : Bytes32 := BitVec.ofNat 256 v.val

theorem val_lt (v : F) : v.val < bn254ScalarField := ZMod.val_lt v

theorem val_toField {x : Bytes32} (h : isFieldElement x) : (toField x).val = x.toNat :=
  ZMod.val_natCast_of_lt h

theorem toField_injOn {x y : Bytes32} (hx : isFieldElement x) (hy : isFieldElement y)
    (h : toField x = toField y) : x = y := by
  have hval := congrArg ZMod.val h
  rw [val_toField hx, val_toField hy] at hval
  exact BitVec.eq_of_toNat_eq hval

theorem toNat_toWord (v : F) : (toWord v).toNat = v.val := by
  have hlt : v.val < 2 ^ 256 := (val_lt v).trans (by decide)
  rw [toWord, BitVec.toNat_ofNat, Nat.mod_eq_of_lt hlt]

theorem isFieldElement_toWord (v : F) : isFieldElement (toWord v) := by
  rw [isFieldElement, toNat_toWord]
  exact val_lt v

@[simp] theorem toField_toWord (v : F) : toField (toWord v) = v := by
  rw [toField, toNat_toWord]
  exact ZMod.natCast_zmod_val v

theorem toWord_toField {x : Bytes32} (h : isFieldElement x) : toWord (toField x) = x :=
  toField_injOn (isFieldElement_toWord _) h (toField_toWord _)

theorem toWord_injective : Function.Injective toWord := fun v w h => by
  rw [← toField_toWord v, h, toField_toWord]

@[simp] theorem toField_zero : toField 0 = 0 := by
  simp [toField]

theorem natCast_inj_of_lt {a b : ℕ} (ha : a < bn254ScalarField) (hb : b < bn254ScalarField)
    (h : (a : F) = b) : a = b := by
  have hval := congrArg ZMod.val h
  rwa [ZMod.val_natCast_of_lt ha, ZMod.val_natCast_of_lt hb] at hval

end Nullark.Circuit.Field
