import Nullark.Evm.Basic

/-! # What the pool shows to the outside

The constants, the calldata structures and the events of the v1.2 pool. -/

namespace Nullark.Pool.Interface

open Nullark.Evm.Basic

def initialFeeBps : ℕ := 33

def maxFeeBps : ℕ := 100

def feeIncreaseDelay : ℕ := 259200

def bpsDenominator : ℕ := 10000

def publicInputsLength : ℕ := 10

def depositPublicInputsLength : ℕ := 6

def rootHistorySize : ℕ := 256

def maxEncryptedNoteBytes : ℕ := 2048

def encryptedNoteVersion : ℕ := 1

def encryptedOutputNoteVersion : ℕ := 2

def proofContextVersion : ℕ := 1

def bn254ScalarField : ℕ :=
  21888242871839275222246405745257275088548364400416034343698204186575808495617

/-- The denominations in wei, smallest first. -/
def supportedDenominations : List ℕ :=
  [5000000000000000, 10000000000000000, 20000000000000000, 30000000000000000, 50000000000000000,
    100000000000000000, 200000000000000000, 300000000000000000, 500000000000000000,
    1000000000000000000]

def isSupportedDenomination (amount : ℕ) : Prop := amount ∈ supportedDenominations

instance (amount : ℕ) : Decidable (isSupportedDenomination amount) :=
  inferInstanceAs (Decidable (amount ∈ supportedDenominations))

theorem pos_of_supported {amount : ℕ} (h : isSupportedDenomination amount) : 0 < amount := by
  have hall : ∀ a ∈ supportedDenominations, 0 < a := by decide
  exact hall amount h

theorem le_of_supported {amount : ℕ} (h : isSupportedDenomination amount) :
    amount ≤ 1000000000000000000 := by
  have hall : ∀ a ∈ supportedDenominations, a ≤ 1000000000000000000 := by decide
  exact hall amount h

def isFieldElement (value : Bytes32) : Prop := value.toNat < bn254ScalarField

instance (value : Bytes32) : Decidable (isFieldElement value) :=
  inferInstanceAs (Decidable (value.toNat < bn254ScalarField))

theorem isFieldElement_zero : isFieldElement 0 := by decide

def addressToBytes32 (value : Address) : Bytes32 := value.setWidth 256

structure RelayerPolicy where
  relayer : Address
  minNetAmount : UInt256
  maxFeeAmount : UInt256
  deadlineOrZero : UInt256
  deriving DecidableEq, Repr

/-- **The events** of the pool. -/
inductive Event
  | depositCommitmentInserted (commitment : Bytes32) (amount : ℕ)
  | privateTransferCommitmentInserted (commitment nullifier : Bytes32)
  | withdrawalOutputCommitmentInserted (commitment nullifier : Bytes32) (grossAmount : UInt256)
  | depositNoteCreated (commitment : Bytes32) (leafIndex : ℕ) (encryptedNote : Bytes)
      (encryptionVersion : ℕ)
  | privateTransferNoteCreated (commitment nullifier : Bytes32) (leafIndex : ℕ)
      (encryptedNote : Bytes) (encryptionVersion : ℕ)
  | withdrawalOutputNoteCreated (commitment nullifier : Bytes32) (leafIndex : ℕ)
      (grossAmount : UInt256) (encryptedNote : Bytes) (encryptionVersion : ℕ)
  | nullifierSpent (nullifier : Bytes32)
  | withdrawalExecuted (destination : Address) (grossAmount : UInt256) (netAmount fee : ℕ)
  | protocolFeesAccrued (amount : ℕ)
  | protocolFeesSwept (destination : Address) (amount : UInt256)
  | feeBpsDecreased (oldFeeBps newFeeBps : ℕ)
  | feeBpsIncreaseScheduled (oldFeeBps newFeeBps activationTime : ℕ)
  | feeBpsIncreaseExecuted (oldFeeBps newFeeBps : ℕ)
  | feeBpsIncreaseCancelled (pendingFeeBps activationTime : ℕ)
  | rootAccepted (root previousRoot insertedCommitment : Bytes32)
  | rootExpired (root : Bytes32)
  deriving DecidableEq, Repr

end Nullark.Pool.Interface
