import Nullark.Core.Proofs
import Nullark.Js.SpendMaterial

/-! # Commitments and nullifiers of the SDK

* `deriveNoteCommitment_eq_ok`, `deriveNullifier_eq_ok`: what is accepted, and the hash. -/

namespace Nullark.Sdk.Poseidon

open Nullark.Lib Nullark.Lib.Outcome
open Nullark.Lib.Hex hiding value Digits ofNat
open Nullark.Core.Proofs (maxSafeInteger)
open Nullark.Pool.Interface
open Nullark.Js.Basic Nullark.Js.Bytes Nullark.Js.TreeHash Nullark.Js.SpendMaterial

def fieldElement (value : Text) (label : String) : Throws ℕ := do
  ensure (isHexBytes32 value) (label ++ " must be a bytes32 hex string")
  let parsed := hexNat value
  ensure (parsed < bn254ScalarField) (label ++ " must be a BN254 field element")
  return parsed

def positiveFieldElement (value : Text) (label : String) : Throws ℕ := do
  ensure (Decimal.isDecimal value) (label ++ " must be a decimal integer")
  let parsed := Decimal.value value
  ensure (0 < parsed ∧ parsed < bn254ScalarField) (label ++ " must be positive")
  return parsed

def addressFieldElement (value : Text) (label : String) : Throws ℕ := do
  ensure (isEvmAddress value) (label ++ " must be an EVM address")
  return hexNat value

def normalizeHashOutput (value : ℕ) (label : String) : Throws ℕ := do
  ensure (0 < value ∧ value < bn254ScalarField)
    (label ++ " hash output must be a nonzero BN254 field element")
  return value

def deriveNoteCommitment (hash : FieldHash) (i : NoteCommitmentInput) : Throws Text := do
  let assetId ← fieldElement i.assetId "assetId"
  let amount ← positiveFieldElement i.noteAmountWei "amount"
  let ownerCommitment ← fieldElement i.ownerCommitment "ownerCommitment"
  let noteSecret ← fieldElement i.noteSecret "noteSecret"
  let commitment ← normalizeHashOutput
    (hash [10001, assetId, amount, ownerCommitment, noteSecret]) "commitment"
  return padHex32 commitment

def deriveNullifier (hash : FieldHash) (i : NullifierInput) : Throws Text := do
  ensure (i.leafIndex ≤ maxSafeInteger) "leafIndex must be a safe nonnegative integer"
  ensure (0 < i.chainId ∧ i.chainId ≤ maxSafeInteger) "chainId must be a safe positive integer"
  ensure (isEvmAddress i.verifyingContract) "verifyingContract must be an EVM address"
  let noteSecret ← fieldElement i.noteSecret "noteSecret"
  let verifyingContract ← addressFieldElement i.verifyingContract "verifyingContract"
  let nullifier ← normalizeHashOutput
    (hash [10002, noteSecret, i.leafIndex, i.chainId, verifyingContract]) "nullifier"
  return padHex32 nullifier

/-! ### What is accepted -/

/-- The text of a field element. -/
def IsField (value : Text) : Prop := isHexBytes32 value ∧ hexNat value < bn254ScalarField

theorem isField_hex32 {x : Evm.Basic.Bytes32} (h : x.toNat < bn254ScalarField) : IsField (hex32 x) := by
  rw [IsField, hexNat_hex32]
  exact ⟨isHexBytes32_hex32 x, h⟩

theorem fieldElement_eq_ok {value : Text} {label : String} {n : ℕ} :
    fieldElement value label = .ok n ↔ IsField value ∧ n = hexNat value := by
  unfold fieldElement IsField
  simp only [bind_eq_ok, ensure_eq_ok, exists_const, pure_eq_ok, and_assoc, eq_comm (a := n)]

theorem positiveFieldElement_eq_ok {value : Text} {label : String} {n : ℕ} :
    positiveFieldElement value label = .ok n ↔ (Decimal.isDecimal value ∧
      0 < Decimal.value value ∧ Decimal.value value < bn254ScalarField) ∧
        n = Decimal.value value := by
  unfold positiveFieldElement
  simp only [bind_eq_ok, ensure_eq_ok, exists_const, pure_eq_ok, and_assoc, eq_comm (a := n)]

theorem addressFieldElement_eq_ok {value : Text} {label : String} {n : ℕ} :
    addressFieldElement value label = .ok n ↔ isEvmAddress value ∧ n = hexNat value := by
  unfold addressFieldElement
  simp only [bind_eq_ok, ensure_eq_ok, exists_const, pure_eq_ok, eq_comm (a := n)]

theorem normalizeHashOutput_eq_ok {value n : ℕ} {label : String} :
    normalizeHashOutput value label = .ok n ↔
      (0 < value ∧ value < bn254ScalarField) ∧ n = value := by
  unfold normalizeHashOutput
  simp only [bind_eq_ok, ensure_eq_ok, exists_const, pure_eq_ok, eq_comm (a := n)]

/-- **The preimage of a commitment.** -/
structure CommitmentFits (i : NoteCommitmentInput) : Prop where
  assetId : IsField i.assetId
  noteAmountWei : Decimal.isDecimal i.noteAmountWei ∧ 0 < Decimal.value i.noteAmountWei ∧
    Decimal.value i.noteAmountWei < bn254ScalarField
  ownerCommitment : IsField i.ownerCommitment
  noteSecret : IsField i.noteSecret

theorem deriveNoteCommitment_eq_ok {hash : FieldHash} {i : NoteCommitmentInput} {t : Text} :
    deriveNoteCommitment hash i = .ok t ↔ CommitmentFits i ∧
      (0 < hash (outputPreimage i) ∧ hash (outputPreimage i) < bn254ScalarField) ∧
        t = padHex32 (hash (outputPreimage i)) := by
  unfold deriveNoteCommitment
  simp only [bind_eq_ok, fieldElement_eq_ok, positiveFieldElement_eq_ok, normalizeHashOutput_eq_ok,
    pure_eq_ok]
  constructor
  · rintro ⟨_, ⟨h1, rfl⟩, _, ⟨h2, rfl⟩, _, ⟨h3, rfl⟩, _, ⟨h4, rfl⟩, _, ⟨h5, rfl⟩, rfl⟩
    exact ⟨⟨h1, h2, h3, h4⟩, h5, rfl⟩
  · rintro ⟨⟨h1, h2, h3, h4⟩, h5, rfl⟩
    exact ⟨_, ⟨h1, rfl⟩, _, ⟨h2, rfl⟩, _, ⟨h3, rfl⟩, _, ⟨h4, rfl⟩, _, ⟨h5, rfl⟩, rfl⟩

/-- **The preimage of a nullifier.** -/
structure NullifierFits (i : NullifierInput) : Prop where
  leafIndex : i.leafIndex ≤ maxSafeInteger
  chainId : 0 < i.chainId ∧ i.chainId ≤ maxSafeInteger
  verifyingContract : isEvmAddress i.verifyingContract
  noteSecret : IsField i.noteSecret

/-- What a nullifier is the hash of. -/
def nullifierPreimage (i : NullifierInput) : List ℕ :=
  [10002, hexNat i.noteSecret, i.leafIndex, i.chainId, hexNat i.verifyingContract]

theorem deriveNullifier_eq_ok {hash : FieldHash} {i : NullifierInput} {t : Text} :
    deriveNullifier hash i = .ok t ↔ NullifierFits i ∧
      (0 < hash (nullifierPreimage i) ∧ hash (nullifierPreimage i) < bn254ScalarField) ∧
        t = padHex32 (hash (nullifierPreimage i)) := by
  unfold deriveNullifier
  simp only [bind_eq_ok, ensure_eq_ok, exists_const, fieldElement_eq_ok, addressFieldElement_eq_ok,
    normalizeHashOutput_eq_ok, pure_eq_ok]
  constructor
  · rintro ⟨h1, h2, h3, _, ⟨h4, rfl⟩, _, ⟨-, rfl⟩, _, ⟨h5, rfl⟩, rfl⟩
    exact ⟨⟨h1, h2, h3, h4⟩, h5, rfl⟩
  · rintro ⟨⟨h1, h2, h3, h4⟩, h5, rfl⟩
    exact ⟨h1, h2, h3, _, ⟨h4, rfl⟩, _, ⟨h3, rfl⟩, _, ⟨h5, rfl⟩, rfl⟩

end Nullark.Sdk.Poseidon
