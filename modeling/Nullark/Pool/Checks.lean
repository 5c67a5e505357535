import Nullark.Pool.Calls

/-! # What the checks check

For each list of checks the facts it stands for, as a structure, and that the checks pass exactly
when the facts hold. -/

namespace Nullark.Pool.Checks

open Nullark.Lib.Outcome Nullark.Evm.Basic
open Nullark.Pool.Interface Nullark.Pool.Context Nullark.Pool.Roots Nullark.Pool.Actions

variable {env : Env} {verify : Verify} {s : Storage} {msg : Msg}

/-- The checks of a deposit. -/
structure DepositChecked (env : Env) (verify : Verify) (s : Storage) (msg : Msg) (proof : Bytes)
    (publicInputs : List Bytes32) (encryptedNote : Bytes) (selector : Bytes4) : Prop where
  length : publicInputs.length = depositPublicInputsLength
  commitment_ne : input publicInputs 0 ≠ 0
  commitment_field : isFieldElement (input publicInputs 0)
  commitment_fresh : ¬s.commitments (input publicInputs 0)
  amount : (input publicInputs 1).toNat = msg.value
  value_pos : msg.value > 0
  supported : isSupportedDenomination msg.value
  chainId : input publicInputs 2 = env.chainId
  this : input publicInputs 3 = addressToBytes32 env.this
  note_ne : encryptedNote.length ≠ 0
  note_le : encryptedNote.length ≤ maxEncryptedNoteBytes
  noteHash : input publicInputs 5 =
    depositEncryptedNoteHash env selector (input publicInputs 0) encryptedNote
  contextHash : input publicInputs 4 = depositContextHash env selector (input publicInputs 0)
    (input publicInputs 1) (depositEncryptedNoteHash env selector (input publicInputs 0) encryptedNote)
  verified : verify proof publicInputs

theorem checkDeposit_eq_ok {proof : Bytes} {publicInputs : List Bytes32} {encryptedNote : Bytes}
    {selector : Bytes4} {u : Unit} :
    checkDeposit env verify s msg proof publicInputs encryptedNote selector = .ok u ↔
      DepositChecked env verify s msg proof publicInputs encryptedNote selector := by
  unfold checkDeposit
  simp only [bind_eq_ok, require_eq_ok, exists_const]
  exact ⟨fun ⟨h1, h2, h3, h4, h5, h6, h7, h8, h9, h10, h11, h12, h13, h14⟩ =>
      ⟨h1, h2, h3, h4, h5, h6, h7, h8, h9, h10, h11, h12, h13, h14⟩,
    fun ⟨h1, h2, h3, h4, h5, h6, h7, h8, h9, h10, h11, h12, h13, h14⟩ =>
      ⟨h1, h2, h3, h4, h5, h6, h7, h8, h9, h10, h11, h12, h13, h14⟩⟩

/-- The public inputs all spends are checked for. -/
structure CommonChecked (env : Env) (s : Storage) (publicInputs : List Bytes32)
    (nullifier : Bytes32) : Prop where
  length : publicInputs.length = publicInputsLength
  root : isAcceptedRoot s.roots (input publicInputs 0)
  nullifier : input publicInputs 1 = nullifier
  chainId : input publicInputs 6 = env.chainId
  this : input publicInputs 7 = addressToBytes32 env.this

theorem requirePublicInputsCommon_eq_ok {publicInputs : List Bytes32} {nullifier : Bytes32}
    {u : Unit} :
    requirePublicInputsCommon env s publicInputs nullifier = .ok u ↔
      CommonChecked env s publicInputs nullifier := by
  unfold requirePublicInputsCommon
  simp only [bind_eq_ok, require_eq_ok, exists_const]
  exact ⟨fun ⟨h1, h2, h3, h4, h5⟩ => ⟨h1, h2, h3, h4, h5⟩,
    fun ⟨h1, h2, h3, h4, h5⟩ => ⟨h1, h2, h3, h4, h5⟩⟩

/-- The relayer policy. -/
structure PolicyChecked (msg : Msg) (policy : RelayerPolicy) : Prop where
  relayer : policy.relayer ≠ 0 → msg.sender = policy.relayer
  deadline : policy.deadlineOrZero ≠ 0 → msg.timestamp ≤ policy.deadlineOrZero.toNat

theorem requireRelayerPolicy_eq_ok {policy : RelayerPolicy} {u : Unit} :
    requireRelayerPolicy msg policy = .ok u ↔ PolicyChecked msg policy := by
  unfold requireRelayerPolicy
  simp only [bind_eq_ok, require_eq_ok, exists_const]
  exact ⟨fun ⟨h1, h2⟩ => ⟨h1, h2⟩, fun ⟨h1, h2⟩ => ⟨h1, h2⟩⟩

/-- The hashes a spend is bound to. -/
structure BindingsChecked (env : Env) (shape : Bytes32) (publicInputs : List Bytes32)
    (nullifier : Bytes32) (destination : Address) (grossAmount : UInt256) (fee : ℕ)
    (outputCommitment : Bytes32) (encryptedOutputNote : Bytes) (policy : RelayerPolicy)
    (selector : Bytes4) : Prop where
  noteHash : input publicInputs 9 = encryptedOutputNoteHash env
    (outputNote shape selector nullifier outputCommitment encryptedOutputNote)
  contextHash : input publicInputs 8 = proofContextHash env
    (proofContext env shape selector publicInputs destination grossAmount fee
      (encryptedOutputNoteHash env
        (outputNote shape selector nullifier outputCommitment encryptedOutputNote)) policy)

theorem requireStageBBindings_eq_ok {shape : Bytes32} {publicInputs : List Bytes32}
    {nullifier : Bytes32} {destination : Address} {grossAmount : UInt256} {fee : ℕ}
    {outputCommitment : Bytes32} {encryptedOutputNote : Bytes} {policy : RelayerPolicy}
    {selector : Bytes4} {u : Unit} :
    requireStageBBindings env shape publicInputs nullifier destination grossAmount fee
        outputCommitment encryptedOutputNote policy selector = .ok u ↔
      BindingsChecked env shape publicInputs nullifier destination grossAmount fee
        outputCommitment encryptedOutputNote policy selector := by
  unfold requireStageBBindings
  simp only [bind_eq_ok, require_eq_ok, exists_const]
  exact ⟨fun ⟨h1, h2⟩ => ⟨h1, h2⟩, fun ⟨h1, h2⟩ => ⟨h1, h2⟩⟩

/-- The checks of a private transfer, up to the verification. -/
structure TransferChecked (env : Env) (verify : Verify) (s : Storage) (msg : Msg)
    (a : TransferArgs) : Prop where
  nullifier_ne : a.nullifier ≠ 0
  commitment_ne : a.newCommitment ≠ 0
  commitment_field : isFieldElement a.newCommitment
  note_ne : a.encryptedNote.length ≠ 0
  note_le : a.encryptedNote.length ≤ maxEncryptedNoteBytes
  common : CommonChecked env s a.publicInputs a.nullifier
  commitment : input a.publicInputs 2 = a.newCommitment
  destination : input a.publicInputs 3 = 0
  grossAmount : input a.publicInputs 4 = 0
  fee : input a.publicInputs 5 = 0
  policy : PolicyChecked msg a.relayerPolicy
  bindings : BindingsChecked env (privateTransferContextShape env) a.publicInputs a.nullifier 0 0 0
    a.newCommitment a.encryptedNote a.relayerPolicy a.selector
  verified : verify a.proof a.publicInputs

theorem checkPrivateTransfer_eq_ok {a : TransferArgs} {u : Unit} :
    checkPrivateTransfer env verify s msg a = .ok u ↔ TransferChecked env verify s msg a := by
  unfold checkPrivateTransfer requirePrivateTransferPublicInputs requirePrivateTransferStageBBindings
  simp only [bind_eq_ok, require_eq_ok, exists_const, requirePublicInputsCommon_eq_ok,
    requireRelayerPolicy_eq_ok, requireStageBBindings_eq_ok]
  exact ⟨fun ⟨h1, h2, h3, h4, h5, ⟨h6, h7, h8, h9, h10⟩, h11, h12, h13⟩ =>
      ⟨h1, h2, h3, h4, h5, h6, h7, h8, h9, h10, h11, h12, h13⟩,
    fun ⟨h1, h2, h3, h4, h5, h6, h7, h8, h9, h10, h11, h12, h13⟩ =>
      ⟨h1, h2, h3, h4, h5, ⟨h6, h7, h8, h9, h10⟩, h11, h12, h13⟩⟩

/-- The fee the pool takes. -/
def feeOf (s : Storage) (grossAmount : UInt256) : ℕ :=
  grossAmount.toNat * s.fees.feeBps / bpsDenominator

/-- The checks of a withdrawal, up to the verification. -/
structure WithdrawChecked (env : Env) (verify : Verify) (s : Storage) (msg : Msg)
    (a : WithdrawArgs) : Prop where
  nullifier_ne : a.nullifier ≠ 0
  unspent : ¬s.nullifiers a.nullifier
  destination_ne : a.destination ≠ 0
  gross_pos : a.grossAmount.toNat > 0
  note_le : a.encryptedOutputNote.length ≤ maxEncryptedNoteBytes
  product_lt : a.grossAmount.toNat * s.fees.feeBps < wordSize
  common : CommonChecked env s a.publicInputs a.nullifier
  commitment_ne : input a.publicInputs 2 ≠ 0
  commitment_field : isFieldElement (input a.publicInputs 2)
  commitment_fresh : ¬s.commitments (input a.publicInputs 2)
  destination : input a.publicInputs 3 = addressToBytes32 a.destination
  grossAmount : input a.publicInputs 4 = a.grossAmount
  fee : input a.publicInputs 5 = BitVec.ofNat 256 (feeOf s a.grossAmount)
  policy : PolicyChecked msg a.relayerPolicy
  minNet_le : a.relayerPolicy.minNetAmount.toNat ≤ a.grossAmount.toNat
  supported : isSupportedDenomination a.grossAmount.toNat
  note_ne : a.encryptedOutputNote.length ≠ 0
  bindings : BindingsChecked env (withdrawContextShape env) a.publicInputs a.nullifier
    a.destination a.grossAmount (feeOf s a.grossAmount) (input a.publicInputs 2)
    a.encryptedOutputNote a.relayerPolicy a.selector
  verified : verify a.proof a.publicInputs

theorem requireWithdrawalPublicInputs_eq_ok {publicInputs : List Bytes32} {nullifier : Bytes32}
    {destination : Address} {grossAmount : UInt256} {fee : ℕ} {outputCommitment : Bytes32} :
    requireWithdrawalPublicInputs env s publicInputs nullifier destination grossAmount fee =
        .ok outputCommitment ↔
      (CommonChecked env s publicInputs nullifier ∧ input publicInputs 2 ≠ 0 ∧
        isFieldElement (input publicInputs 2) ∧ ¬s.commitments (input publicInputs 2) ∧
        input publicInputs 3 = addressToBytes32 destination ∧ input publicInputs 4 = grossAmount ∧
        input publicInputs 5 = BitVec.ofNat 256 fee) ∧
      outputCommitment = input publicInputs 2 := by
  unfold requireWithdrawalPublicInputs
  simp only [bind_eq_ok, require_eq_ok, exists_const, requirePublicInputsCommon_eq_ok, pure_eq_ok,
    and_assoc, eq_comm (a := outputCommitment)]

/-- The checks pass exactly when the facts hold, with the fee and the output commitment. -/
theorem checkWithdraw_eq_ok {a : WithdrawArgs} {fee : ℕ} {outputCommitment : Bytes32} :
    checkWithdraw env verify s msg a = .ok (fee, outputCommitment) ↔
      WithdrawChecked env verify s msg a ∧ fee = feeOf s a.grossAmount ∧
        outputCommitment = input a.publicInputs 2 := by
  unfold checkWithdraw requireWithdrawalStageBBindings
  simp only [bind_eq_ok, require_eq_ok, exists_const, checkedMul_eq_ok,
    requireWithdrawalPublicInputs_eq_ok, requireRelayerPolicy_eq_ok, requireStageBBindings_eq_ok,
    pure_eq_ok, Prod.mk.injEq]
  constructor
  · rintro ⟨h1, h2, h3, h4, h5, _, ⟨h6, rfl⟩, _, ⟨⟨h7, h8, h9, h10, h11, h12, h13⟩, rfl⟩, h14, h15,
      h16, h17, h18, h19, rfl, rfl⟩
    exact ⟨⟨h1, h2, h3, h4, h5, h6, h7, h8, h9, h10, h11, h12, h13, h14, h15, h16, h17, h18, h19⟩,
      rfl, rfl⟩
  · rintro ⟨⟨h1, h2, h3, h4, h5, h6, h7, h8, h9, h10, h11, h12, h13, h14, h15, h16, h17, h18,
      h19⟩, rfl, rfl⟩
    exact ⟨h1, h2, h3, h4, h5, _, ⟨h6, rfl⟩, _, ⟨⟨h7, h8, h9, h10, h11, h12, h13⟩, rfl⟩, h14, h15,
      h16, h17, h18, h19, rfl, rfl⟩

/-- The bounds of the caller and the liquidity of the pool, with no subtraction below zero. -/
structure LiquidityChecked (s : Storage) (balance : ℕ) (a : WithdrawArgs) (fee : ℕ) : Prop where
  fee_le : fee ≤ a.grossAmount.toNat
  fee_le_max : fee ≤ a.relayerPolicy.maxFeeAmount.toNat
  minNet_le : a.relayerPolicy.minNetAmount.toNat ≤ a.grossAmount.toNat - fee
  swept_le : s.accounting.feeSweptAccounting ≤ s.accounting.accruedProtocolFees
  withdrawn_le : s.accounting.totalWithdrawnAccounting ≤ s.accounting.totalDepositedAccounting
  accrued_le : s.accounting.accruedProtocolFees ≤
    s.accounting.totalDepositedAccounting - s.accounting.totalWithdrawnAccounting
  accounting : a.grossAmount.toNat ≤ s.accounting.totalDepositedAccounting -
    s.accounting.totalWithdrawnAccounting - s.accounting.accruedProtocolFees
  unswept_le : s.accounting.accruedProtocolFees - s.accounting.feeSweptAccounting ≤ balance
  balance : a.grossAmount.toNat ≤
    balance - (s.accounting.accruedProtocolFees - s.accounting.feeSweptAccounting)

theorem checkLiquidity_eq_ok {balance : ℕ} {a : WithdrawArgs} {fee netAmount : ℕ} :
    checkLiquidity s balance a fee = .ok netAmount ↔
      LiquidityChecked s balance a fee ∧ netAmount = a.grossAmount.toNat - fee := by
  unfold checkLiquidity
  simp only [bind_eq_ok, require_eq_ok, exists_const, checkedSub_eq_ok, pure_eq_ok]
  constructor
  · rintro ⟨_, ⟨h1, rfl⟩, h2, h3, _, ⟨h4, rfl⟩, _, ⟨h5, rfl⟩, _, ⟨h6, rfl⟩, h7, _, ⟨h8, rfl⟩, h9,
      rfl⟩
    exact ⟨⟨h1, h2, h3, h4, h5, h6, h7, h8, h9⟩, rfl⟩
  · rintro ⟨⟨h1, h2, h3, h4, h5, h6, h7, h8, h9⟩, rfl⟩
    exact ⟨_, ⟨h1, rfl⟩, h2, h3, _, ⟨h4, rfl⟩, _, ⟨h5, rfl⟩, _, ⟨h6, rfl⟩, h7, _, ⟨h8, rfl⟩, h9,
      rfl⟩

end Nullark.Pool.Checks
