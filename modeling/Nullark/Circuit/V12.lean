import Nullark.Circuit.Gadgets

/-! # The v1.2 circuits

The three constraint systems. A circuit is a structure: its fields are the constraints on the public
signals and a witness.

* `DepositCircuit`, `PrivateTransferCircuit`, `WithdrawCircuit`.
* `SpendsNote`: what the two circuits of a spend say of the note that is spent.
* `WithdrawCircuit.amounts`: amounts are conserved as numbers, not only in the field. -/

namespace Nullark.Circuit.V12

open Nullark.Lib.Merkle.Tree Nullark.Pool.Interface Nullark.Circuit.Field Nullark.Circuit.Gadgets

/-! ### Signals -/

structure DepositPublic where
  commitment : F
  amount : F
  chainId : F
  verifyingContract : F
  depositContextHash : F
  encryptedDepositNoteHash : F

structure DepositWitness where
  assetId : F
  ownerCommitment : F
  noteSecret : F
  expectedChainId : F
  expectedVerifyingContract : F
  expectedDepositContextHash : F
  expectedEncryptedDepositNoteHash : F

/-- The public signals of both circuits of a spend. -/
structure SpendPublic where
  root : F
  nullifier : F
  outputCommitment : F
  destination : F
  grossAmount : F
  fee : F
  chainId : F
  verifyingContract : F
  proofContextHash : F
  encryptedOutputNoteHash : F

structure PrivateTransferWitness where
  assetId : F
  oldAmount : F
  ownerCommitment : F
  noteSecret : F
  leafIndex : F
  pathElements : List F
  outputAmount : F
  outputOwnerCommitment : F
  outputNoteSecret : F
  expectedProofContextHash : F
  expectedEncryptedOutputNoteHash : F

structure WithdrawWitness where
  assetId : F
  oldAmount : F
  ownerCommitment : F
  noteSecret : F
  leafIndex : F
  withdrawalDestination : F
  outputAmount : F
  outputOwnerCommitment : F
  outputNoteSecret : F
  pathElements : List F
  expectedProofContextHash : F
  expectedEncryptedOutputNoteHash : F

def DepositWitness.note (w : DepositWitness) (amount : F) : Note :=
  ⟨w.assetId, amount, w.ownerCommitment, w.noteSecret⟩

def PrivateTransferWitness.oldNote (w : PrivateTransferWitness) : Note :=
  ⟨w.assetId, w.oldAmount, w.ownerCommitment, w.noteSecret⟩

def PrivateTransferWitness.outputNote (w : PrivateTransferWitness) : Note :=
  ⟨w.assetId, w.outputAmount, w.outputOwnerCommitment, w.outputNoteSecret⟩

def WithdrawWitness.note (w : WithdrawWitness) : Note :=
  ⟨w.assetId, w.oldAmount, w.ownerCommitment, w.noteSecret⟩

def WithdrawWitness.outputNote (w : WithdrawWitness) : Note :=
  ⟨w.assetId, w.outputAmount, w.outputOwnerCommitment, w.outputNoteSecret⟩

/-! ### Constraints -/

/-- **`DepositCircuit`**. -/
structure DepositCircuit (t : Templates) (x : DepositPublic) (w : DepositWitness) : Prop where
  supportedChain : (x.chainId - 6343) * (x.chainId - 4326) = 0
  chainId : x.chainId = w.expectedChainId
  verifyingContract : x.verifyingContract = w.expectedVerifyingContract
  depositContextHash : x.depositContextHash = w.expectedDepositContextHash
  encryptedDepositNoteHash : x.encryptedDepositNoteHash = w.expectedEncryptedDepositNoteHash
  amountBits : t.num2Bits 128 x.amount
  commitmentBits : t.num2Bits 254 x.commitment
  verifyingContractBits : t.num2Bits 160 x.verifyingContract
  depositContextHashBits : t.num2Bits 254 x.depositContextHash
  encryptedDepositNoteHashBits : t.num2Bits 254 x.encryptedDepositNoteHash
  amountDenom : amountInDenoms x.amount
  note : x.commitment = poseidonNoteCommitment t (w.note x.amount)

/-- **`PrivateTransferCircuit(levels)`**. -/
structure PrivateTransferCircuit (t : Templates) (levels : ℕ) (x : SpendPublic)
    (w : PrivateTransferWitness) : Prop where
  pathElements : w.pathElements.length = levels
  supportedChain : (x.chainId - 6343) * (x.chainId - 4326) = 0
  destination : x.destination = 0
  grossAmount : x.grossAmount = 0
  fee : x.fee = 0
  proofContextHash : x.proofContextHash = w.expectedProofContextHash
  encryptedOutputNoteHash : x.encryptedOutputNoteHash = w.expectedEncryptedOutputNoteHash
  verifyingContractBits : t.num2Bits 160 x.verifyingContract
  outputCommitmentBits : t.num2Bits 254 x.outputCommitment
  oldAmountBits : t.num2Bits 128 w.oldAmount
  outputAmountBits : t.num2Bits 128 w.outputAmount
  proofContextHashBits : t.num2Bits 254 x.proofContextHash
  encryptedOutputNoteHashBits : t.num2Bits 254 x.encryptedOutputNoteHash
  conservation : w.oldAmount = w.outputAmount
  oldAmountDenom : amountInDenoms w.oldAmount
  outputAmountDenom : amountInDenoms w.outputAmount
  outputNote : x.outputCommitment = poseidonNoteCommitment t w.outputNote
  computedNullifier : x.nullifier =
    poseidonNullifier t w.noteSecret w.leafIndex x.chainId x.verifyingContract
  computedRoot : poseidonMerkleMembership t levels (poseidonNoteCommitment t w.oldNote) w.leafIndex
    w.pathElements x.root

/-- **`WithdrawCircuit(levels)`**. -/
structure WithdrawCircuit (t : Templates) (levels : ℕ) (x : SpendPublic) (w : WithdrawWitness) :
    Prop where
  pathElements : w.pathElements.length = levels
  supportedChain : (x.chainId - 6343) * (x.chainId - 4326) = 0
  destination : x.destination = w.withdrawalDestination
  proofContextHash : x.proofContextHash = w.expectedProofContextHash
  encryptedOutputNoteHash : x.encryptedOutputNoteHash = w.expectedEncryptedOutputNoteHash
  oldAmountBits : t.num2Bits 128 w.oldAmount
  grossAmountBits : t.num2Bits 128 x.grossAmount
  outputAmountBits : t.num2Bits 128 w.outputAmount
  proofContextHashBits : t.num2Bits 254 x.proofContextHash
  encryptedOutputNoteHashBits : t.num2Bits 254 x.encryptedOutputNoteHash
  outputCommitmentIsZero : t.isZero x.outputCommitment 0
  encryptedOutputNoteHashIsZero : t.isZero x.encryptedOutputNoteHash 0
  conservation : w.oldAmount = x.grossAmount + w.outputAmount
  oldAmountDenom : amountInDenoms w.oldAmount
  grossAmountDenom : amountInDenoms x.grossAmount
  outputAmountDenom : amountInDenomsOrZero w.outputAmount
  feeBits : t.num2Bits 128 x.fee
  outputNote : x.outputCommitment = poseidonNoteCommitment t w.outputNote
  verifyingContractBits : t.num2Bits 160 x.verifyingContract
  computedNullifier : x.nullifier =
    poseidonNullifier t w.noteSecret w.leafIndex x.chainId x.verifyingContract
  computedRoot : poseidonMerkleMembership t levels (poseidonNoteCommitment t w.note) w.leafIndex
    w.pathElements x.root

/-! ### What is hashed -/

/-- The pairs a path hashes. -/
def pathPreimages (t : Templates) (leaf leafIndex : F) (pathElements : List F) : List (List F) :=
  (pairs (hashPair t) leaf leafIndex.val pathElements).map fun q => [q.1, q.2]

/-- What the spend of a note hashes. -/
def spendPreimages (t : Templates) (x : SpendPublic) (note outputNote : Note) (leafIndex : F)
    (pathElements : List F) : List (List F) :=
  note.preimage :: outputNote.preimage ::
    nullifierPreimage note.noteSecret leafIndex x.chainId x.verifyingContract ::
    pathPreimages t (poseidonNoteCommitment t note) leafIndex pathElements

def DepositWitness.preimages (w : DepositWitness) (x : DepositPublic) : List (List F) :=
  [(w.note x.amount).preimage]

def PrivateTransferWitness.preimages (t : Templates) (w : PrivateTransferWitness)
    (x : SpendPublic) : List (List F) :=
  spendPreimages t x w.oldNote w.outputNote w.leafIndex w.pathElements

def WithdrawWitness.preimages (t : Templates) (w : WithdrawWitness) (x : SpendPublic) :
    List (List F) :=
  spendPreimages t x w.note w.outputNote w.leafIndex w.pathElements

/-! ### What the circuits of a spend share -/

/-- **A note is spent**: at the index, along the path to the root, with its nullifier, and another
note takes its place. -/
structure SpendsNote (t : Templates) (levels : ℕ) (x : SpendPublic) (note outputNote : Note)
    (leafIndex : F) (pathElements : List F) : Prop where
  length : pathElements.length = levels
  nullifier : x.nullifier =
    poseidonNullifier t note.noteSecret leafIndex x.chainId x.verifyingContract
  index_lt : leafIndex.val < 2 ^ levels
  root : x.root = climb (hashPair t) (poseidonNoteCommitment t note) leafIndex.val pathElements
  output : x.outputCommitment = poseidonNoteCommitment t outputNote

section
variable {t : Templates} {levels : ℕ} {x : SpendPublic}

theorem PrivateTransferCircuit.spendsNote (ht : Documented t) {w : PrivateTransferWitness}
    (h : PrivateTransferCircuit t levels x w) :
    SpendsNote t levels x w.oldNote w.outputNote w.leafIndex w.pathElements := by
  obtain ⟨hindex, hroot⟩ := (ht.binaryMerkleRoot levels _ _ _ _ h.pathElements).mp h.computedRoot
  exact ⟨h.pathElements, h.computedNullifier, hindex, hroot, h.outputNote⟩

theorem WithdrawCircuit.spendsNote (ht : Documented t) {w : WithdrawWitness}
    (h : WithdrawCircuit t levels x w) :
    SpendsNote t levels x w.note w.outputNote w.leafIndex w.pathElements := by
  obtain ⟨hindex, hroot⟩ := (ht.binaryMerkleRoot levels _ _ _ _ h.pathElements).mp h.computedRoot
  exact ⟨h.pathElements, h.computedNullifier, hindex, hroot, h.outputNote⟩

/-- **Conservation in numbers.** The amounts are denominations, or zero, so their sum does not wrap
around the field. -/
theorem WithdrawCircuit.amounts {w : WithdrawWitness} (h : WithdrawCircuit t levels x w) :
    w.note.amount.val = x.grossAmount.val + w.outputNote.amount.val := by
  obtain ⟨old, hold, holdF⟩ := amountInDenoms_iff.mp h.oldAmountDenom
  obtain ⟨gross, hgross, hgrossF⟩ := amountInDenoms_iff.mp h.grossAmountDenom
  obtain ⟨output, houtput, houtputF⟩ :
      ∃ d : ℕ, d ≤ 1000000000000000000 ∧ w.outputAmount = (d : F) := by
    rcases amountInDenomsOrZero_iff.mp h.outputAmountDenom with hzero | ⟨d, hd, hdF⟩
    · exact ⟨0, Nat.zero_le _, by rw [hzero, Nat.cast_zero]⟩
    · exact ⟨d, le_of_supported hd, hdF⟩
  have hsum : ((old : ℕ) : F) = ((gross + output : ℕ) : F) := by
    rw [Nat.cast_add, ← holdF, ← hgrossF, ← houtputF]
    exact h.conservation
  have hgross_le := le_of_supported hgross
  have hfield : 2000000000000000000 < bn254ScalarField := by decide
  have hlt : gross + output < bn254ScalarField := by omega
  have hnat := natCast_inj_of_lt (lt_of_isSupportedDenomination hold) hlt hsum
  change w.oldAmount.val = x.grossAmount.val + w.outputAmount.val
  rw [holdF, hgrossF, houtputF, ZMod.val_natCast_of_lt (lt_of_isSupportedDenomination hold),
    ZMod.val_natCast_of_lt (lt_of_isSupportedDenomination hgross),
    ZMod.val_natCast_of_lt (by omega), hnat]

end

end Nullark.Circuit.V12
