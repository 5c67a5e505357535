import Nullark.Js.Numbers
import Nullark.Js.TreeHash
import Nullark.Pool.Conservation

/-! # What the packages hand to the circuits

* `signal`: the field element a text stands for.
* `SameFieldHash`: the Poseidon of the packages is the one of the circuits. -/

namespace Nullark.Js.Signals

open Nullark.Lib
open Nullark.Lib.Hex hiding value Digits ofNat
open Nullark.Evm.Basic Nullark.Pool.Interface Nullark.Pool.Conservation
open Nullark.Circuit.Field Nullark.Circuit.Gadgets
open Nullark.Js.Basic Nullark.Js.Bytes Nullark.Js.Numbers Nullark.Js.TreeHash

/-- The field element a signal stands for. -/
def signal (t : Text) : F :=
  match integerOfText t with
  | some v => (v : F)
  | none => 0

theorem signal_of_isDecimal {t : Text} (h : Decimal.isDecimal t) :
    signal t = (Decimal.value t : F) := by
  unfold signal
  rw [integerOfText_of_isDecimal h]
  exact Int.cast_natCast _

theorem signal_ofNat (n : ℕ) : signal (Decimal.ofNat n) = (n : F) := by
  rw [signal_of_isDecimal (Decimal.isDecimal_ofNat n), Decimal.value_ofNat]

theorem natCast_hexNat {t : Text} (h : isHexBytes32 t) : (hexNat t : F) = toField (word t) := by
  rw [toField, toNat_word h]

/-- **The hash of the packages is the `Poseidon` of the circuits**, on numbers. -/
structure SameFieldHash (t : Templates) (hash : FieldHash) : Prop where
  lt : ∀ inputs, hash inputs < bn254ScalarField
  agrees : ∀ inputs, (hash inputs : F) = t.poseidon (inputs.map fun n : ℕ => (n : F))

/-- Then it is the hash of the pool's tree. -/
theorem sameHash_of_sameFieldHash {t : Templates} {hash : FieldHash}
    {poseidon2 : Bytes32 → Bytes32 → Bytes32} (h : SameFieldHash t hash)
    (hsame : SamePoseidon poseidon2 t) : SameHash poseidon2 hash where
  field := hsame.field
  agrees l r hl hr := by
    have hcast : (hash [l.toNat, r.toNat] : F) = ((poseidon2 l r).toNat : F) :=
      (h.agrees _).trans (hsame.agrees l r hl hr).symm
    exact natCast_inj_of_lt (h.lt _) (hsame.field l r hl hr) hcast

end Nullark.Js.Signals
