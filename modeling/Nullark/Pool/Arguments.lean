import Nullark.Pool.Checks

/-! # What the checks say of the arguments alone

The checks of a deposit and of a withdrawal fall apart into those on the arguments, the chain, the
message and the fee, which a client can make before it sends anything, and those on the state of
the pool and the answer of the verifier: `depositChecked_iff`, `withdrawChecked_iff`. -/

namespace Nullark.Pool.Arguments

open Nullark.Evm.Basic Nullark.Pool.Interface Nullark.Pool.Context Nullark.Pool.Roots
open Nullark.Pool.Actions Nullark.Pool.Checks

variable {env : Env} {verify : Verify} {s : Storage} {msg : Msg}

/-- **The checks on the arguments of a deposit.** -/
structure DepositArguments (env : Env) (msg : Msg) (publicInputs : List Bytes32)
    (encryptedNote : Bytes) (selector : Bytes4) : Prop where
  length : publicInputs.length = depositPublicInputsLength
  commitment_ne : input publicInputs 0 ≠ 0
  commitment_field : isFieldElement (input publicInputs 0)
  amount : (input publicInputs 1).toNat = msg.value
  value_pos : msg.value > 0
  supported : isSupportedDenomination msg.value
  chainId : input publicInputs 2 = env.chainId
  this : input publicInputs 3 = addressToBytes32 env.this
  note_ne : encryptedNote.length ≠ 0
  note_le : encryptedNote.length ≤ maxEncryptedNoteBytes
  noteHash : input publicInputs 5 =
    depositEncryptedNoteHash env selector (input publicInputs 0) encryptedNote
  contextHash : input publicInputs 4 = depositContextHash env selector (input publicInputs 0)
    (input publicInputs 1) (depositEncryptedNoteHash env selector (input publicInputs 0) encryptedNote)

/-- A deposit passes when its arguments do, its commitment is new and its proof verifies. -/
theorem depositChecked_iff {proof : Bytes} {publicInputs : List Bytes32} {encryptedNote : Bytes}
    {selector : Bytes4} :
    DepositChecked env verify s msg proof publicInputs encryptedNote selector ↔
      DepositArguments env msg publicInputs encryptedNote selector ∧
        ¬s.commitments (input publicInputs 0) ∧ verify proof publicInputs := by
  constructor
  · intro h
    exact ⟨⟨h.length, h.commitment_ne, h.commitment_field, h.amount, h.value_pos, h.supported,
      h.chainId, h.this, h.note_ne, h.note_le, h.noteHash, h.contextHash⟩, h.commitment_fresh,
      h.verified⟩
  · rintro ⟨h, hfresh, hverified⟩
    exact ⟨h.length, h.commitment_ne, h.commitment_field, hfresh, h.amount, h.value_pos,
      h.supported, h.chainId, h.this, h.note_ne, h.note_le, h.noteHash, h.contextHash, hverified⟩

/-- The fee at a rate. -/
def feeAt (feeBps : ℕ) (grossAmount : UInt256) : ℕ :=
  grossAmount.toNat * feeBps / bpsDenominator

/-- **The checks on the arguments of a withdrawal**, for the fee rate of the pool. -/
structure WithdrawArguments (env : Env) (feeBps : ℕ) (msg : Msg) (a : WithdrawArgs) : Prop where
  nullifier_ne : a.nullifier ≠ 0
  destination_ne : a.destination ≠ 0
  gross_pos : a.grossAmount.toNat > 0
  note_le : a.encryptedOutputNote.length ≤ maxEncryptedNoteBytes
  product_lt : a.grossAmount.toNat * feeBps < wordSize
  length : a.publicInputs.length = publicInputsLength
  nullifier : input a.publicInputs 1 = a.nullifier
  chainId : input a.publicInputs 6 = env.chainId
  this : input a.publicInputs 7 = addressToBytes32 env.this
  commitment_ne : input a.publicInputs 2 ≠ 0
  commitment_field : isFieldElement (input a.publicInputs 2)
  destination : input a.publicInputs 3 = addressToBytes32 a.destination
  grossAmount : input a.publicInputs 4 = a.grossAmount
  fee : input a.publicInputs 5 = BitVec.ofNat 256 (feeAt feeBps a.grossAmount)
  policy : PolicyChecked msg a.relayerPolicy
  supported : isSupportedDenomination a.grossAmount.toNat
  note_ne : a.encryptedOutputNote.length ≠ 0
  bindings : BindingsChecked env (withdrawContextShape env) a.publicInputs a.nullifier
    a.destination a.grossAmount (feeAt feeBps a.grossAmount) (input a.publicInputs 2)
    a.encryptedOutputNote a.relayerPolicy a.selector
  fee_le : feeAt feeBps a.grossAmount ≤ a.grossAmount.toNat
  fee_le_max : feeAt feeBps a.grossAmount ≤ a.relayerPolicy.maxFeeAmount.toNat
  minNet_le : a.relayerPolicy.minNetAmount.toNat ≤
    a.grossAmount.toNat - feeAt feeBps a.grossAmount

/-- The liquidity a withdrawal needs. -/
structure Liquid (s : Storage) (balance : ℕ) (grossAmount : ℕ) : Prop where
  swept_le : s.accounting.feeSweptAccounting ≤ s.accounting.accruedProtocolFees
  withdrawn_le : s.accounting.totalWithdrawnAccounting ≤ s.accounting.totalDepositedAccounting
  accrued_le : s.accounting.accruedProtocolFees ≤
    s.accounting.totalDepositedAccounting - s.accounting.totalWithdrawnAccounting
  accounting : grossAmount ≤ s.accounting.totalDepositedAccounting -
    s.accounting.totalWithdrawnAccounting - s.accounting.accruedProtocolFees
  unswept_le : s.accounting.accruedProtocolFees - s.accounting.feeSweptAccounting ≤ balance
  balance : grossAmount ≤
    balance - (s.accounting.accruedProtocolFees - s.accounting.feeSweptAccounting)

/-- A withdrawal passes when its arguments do, its root is accepted, its nullifier and its output
are new, its proof verifies and the pool is liquid. -/
theorem withdrawChecked_iff {balance : ℕ} {a : WithdrawArgs} :
    WithdrawChecked env verify s msg a ∧
        LiquidityChecked s balance a (feeOf s a.grossAmount) ↔
      WithdrawArguments env s.fees.feeBps msg a ∧
        isAcceptedRoot s.roots (input a.publicInputs 0) ∧ ¬s.nullifiers a.nullifier ∧
        ¬s.commitments (input a.publicInputs 2) ∧ verify a.proof a.publicInputs ∧
        Liquid s balance a.grossAmount.toNat := by
  constructor
  · rintro ⟨h, hl⟩
    exact ⟨⟨h.nullifier_ne, h.destination_ne, h.gross_pos, h.note_le, h.product_lt,
      h.common.length, h.common.nullifier, h.common.chainId, h.common.this, h.commitment_ne,
      h.commitment_field, h.destination, h.grossAmount, h.fee, h.policy, h.supported, h.note_ne,
      h.bindings, hl.fee_le, hl.fee_le_max, hl.minNet_le⟩, h.common.root, h.unspent,
      h.commitment_fresh, h.verified, ⟨hl.swept_le, hl.withdrawn_le, hl.accrued_le, hl.accounting,
      hl.unswept_le, hl.balance⟩⟩
  · rintro ⟨h, hroot, hunspent, hfresh, hverified, hl⟩
    have hnet : a.relayerPolicy.minNetAmount.toNat ≤ a.grossAmount.toNat :=
      h.minNet_le.trans (Nat.sub_le _ _)
    exact ⟨⟨h.nullifier_ne, hunspent, h.destination_ne, h.gross_pos, h.note_le, h.product_lt,
      ⟨h.length, hroot, h.nullifier, h.chainId, h.this⟩, h.commitment_ne, h.commitment_field,
      hfresh, h.destination, h.grossAmount, h.fee, h.policy, hnet, h.supported, h.note_ne,
      h.bindings, hverified⟩, ⟨h.fee_le, h.fee_le_max, h.minNet_le, hl.swept_le, hl.withdrawn_le,
      hl.accrued_le, hl.accounting, hl.unswept_le, hl.balance⟩⟩

end Nullark.Pool.Arguments
