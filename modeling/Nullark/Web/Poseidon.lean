import Nullark.Sdk.Poseidon

/-! # Commitments and nullifiers of the web app

The app reads every text with `BigInt` and leaves the checks to the core package, which makes them
on numbers.

* `deriveBrowserNoteCommitment_of_fits`, `deriveBrowserNullifier_of_fits`: on what the SDK accepts
  the app computes the same hash. -/

namespace Nullark.Web.Poseidon

open Nullark.Lib Nullark.Lib.Outcome
open Nullark.Lib.Hex hiding value Digits ofNat
open Nullark.Core.Proofs (maxSafeInteger)
open Nullark.Pool.Interface
open Nullark.Js.Basic Nullark.Js.Bytes Nullark.Js.Numbers Nullark.Js.TreeHash
open Nullark.Js.SpendMaterial Nullark.Sdk.Poseidon

/-! ### The core package -/

def assertFieldElement (value : ℤ) (fieldName : String) : Throws ℕ := do
  ensure (0 ≤ value ∧ value < bn254ScalarField) (fieldName ++ " must be a BN254 field element")
  return value.toNat

def assertPositiveFieldElement (value : ℤ) (fieldName : String) : Throws ℕ := do
  let value ← assertFieldElement value fieldName
  ensure (value ≠ 0) (fieldName ++ " must be positive")
  return value

structure RealProofNotePreimage where
  assetId : ℤ
  amount : ℤ
  ownerCommitment : ℤ
  noteSecret : ℤ

structure NullifierContext where
  noteSecret : ℤ
  leafIndex : ℕ
  chainId : ℕ
  verifyingContract : ℤ

/-- `deriveNoteCommitment` of the core package. -/
def deriveCoreNoteCommitment (hash : FieldHash) (note : RealProofNotePreimage) : Throws ℕ := do
  let assetId ← assertFieldElement note.assetId "assetId"
  let amount ← assertPositiveFieldElement note.amount "amount"
  let ownerCommitment ← assertFieldElement note.ownerCommitment "ownerCommitment"
  let noteSecret ← assertFieldElement note.noteSecret "noteSecret"
  assertFieldElement (hash [10001, assetId, amount, ownerCommitment, noteSecret]) "commitment"

/-- `deriveNullifier` of the core package. -/
def deriveCoreNullifier (hash : FieldHash) (context : NullifierContext) : Throws ℕ := do
  let noteSecret ← assertFieldElement context.noteSecret "noteSecret"
  ensure (context.leafIndex ≤ maxSafeInteger) "leafIndex must be a nonnegative safe integer"
  ensure (0 < context.chainId ∧ context.chainId ≤ maxSafeInteger)
    "chainId must be a positive safe integer"
  let verifyingContract ← assertFieldElement context.verifyingContract "verifyingContract"
  assertFieldElement
    (hash [10002, noteSecret, context.leafIndex, context.chainId, verifyingContract]) "nullifier"

/-! ### The app -/

def deriveBrowserNoteCommitment (hash : FieldHash) (i : NoteCommitmentInput) : Throws Text := do
  let assetId ← stringToBigInt i.assetId
  let amount ← stringToBigInt i.noteAmountWei
  let ownerCommitment ← stringToBigInt i.ownerCommitment
  let noteSecret ← stringToBigInt i.noteSecret
  let commitment ← deriveCoreNoteCommitment hash { assetId, amount, ownerCommitment, noteSecret }
  return padHex32 commitment

def deriveBrowserNullifier (hash : FieldHash) (i : NullifierInput) : Throws Text := do
  let noteSecret ← stringToBigInt i.noteSecret
  let verifyingContract ← stringToBigInt i.verifyingContract
  let nullifier ← deriveCoreNullifier hash
    { noteSecret, leafIndex := i.leafIndex, chainId := i.chainId, verifyingContract }
  return padHex32 nullifier

/-! ### What is accepted -/

theorem assertFieldElement_natCast {n : ℕ} (h : n < bn254ScalarField) (fieldName : String) :
    assertFieldElement n fieldName = .ok n := by
  have hfield : 0 ≤ (n : ℤ) ∧ (n : ℤ) < bn254ScalarField := by omega
  unfold assertFieldElement
  rw [ensure_of hfield]
  rfl

theorem assertPositiveFieldElement_natCast {n : ℕ} (h : 0 < n ∧ n < bn254ScalarField)
    (fieldName : String) : assertPositiveFieldElement n fieldName = .ok n := by
  unfold assertPositiveFieldElement
  rw [assertFieldElement_natCast h.2, ok_bind, ensure_of h.1.ne']
  rfl

/-- What the SDK accepts has the same commitment in the app. -/
theorem deriveBrowserNoteCommitment_of_fits {hash : FieldHash} (hhash : ∀ l, hash l < bn254ScalarField)
    {i : NoteCommitmentInput} (h : CommitmentFits i) :
    deriveBrowserNoteCommitment hash i = .ok (padHex32 (hash (outputPreimage i))) := by
  unfold deriveBrowserNoteCommitment deriveCoreNoteCommitment
  rw [stringToBigInt_of_isHexOfLength (by decide) h.assetId.1, ok_bind,
    stringToBigInt_of_isDecimal h.noteAmountWei.1, ok_bind,
    stringToBigInt_of_isHexOfLength (by decide) h.ownerCommitment.1, ok_bind,
    stringToBigInt_of_isHexOfLength (by decide) h.noteSecret.1, ok_bind]
  dsimp only
  rw [assertFieldElement_natCast h.assetId.2, ok_bind,
    assertPositiveFieldElement_natCast h.noteAmountWei.2, ok_bind,
    assertFieldElement_natCast h.ownerCommitment.2, ok_bind,
    assertFieldElement_natCast h.noteSecret.2, ok_bind, assertFieldElement_natCast (hhash _)]
  rfl

/-- What the SDK accepts has the same nullifier in the app. -/
theorem deriveBrowserNullifier_of_fits {hash : FieldHash} (hhash : ∀ l, hash l < bn254ScalarField)
    {i : NullifierInput} (h : NullifierFits i) :
    deriveBrowserNullifier hash i = .ok (padHex32 (hash (nullifierPreimage i))) := by
  have hcontract : hexNat i.verifyingContract < bn254ScalarField :=
    (hexNat_lt h.verifyingContract).trans (by decide)
  unfold deriveBrowserNullifier deriveCoreNullifier
  rw [stringToBigInt_of_isHexOfLength (by decide) h.noteSecret.1, ok_bind,
    stringToBigInt_of_isHexOfLength (by decide) h.verifyingContract, ok_bind]
  dsimp only
  rw [assertFieldElement_natCast h.noteSecret.2, ok_bind, ensure_of h.leafIndex, ok_bind,
    ensure_of h.chainId, ok_bind, assertFieldElement_natCast hcontract, ok_bind,
    assertFieldElement_natCast (hhash _)]
  rfl

end Nullark.Web.Poseidon
