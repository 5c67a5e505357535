import Nullark.Pool.Context
import Nullark.Pool.Fees
import Nullark.Pool.Roots

/-! # Deposits, private transfers, withdrawals and sweeps

The storage of the pool and the world around it, and the private functions behind the external
ones. A function that moves ether out ends at its external call: what is left to do after the call
is a `Pending`, which `finish` does.

The checks of each action up to and including the verification of the proof are a function of their
own (`checkDeposit`, `checkPrivateTransfer`, `checkWithdraw`). -/

namespace Nullark.Pool.Actions

open Nullark.Lib.Outcome Nullark.Evm.Basic
open Nullark.Pool.Interface Nullark.Pool.Context Nullark.Pool.Fees Nullark.Pool.Roots

structure Accounting where
  accruedProtocolFees : ℕ
  feeSweptAccounting : ℕ
  totalDepositedAccounting : ℕ
  totalWithdrawnAccounting : ℕ
  deriving DecidableEq, Repr

/-- **The storage of the pool.** `entered` is the state of the re-entrancy guard. -/
structure Storage where
  commitments : Bytes32 → Bool
  nullifiers : Bytes32 → Bool
  roots : RootStorage
  accounting : Accounting
  fees : FeeStorage
  entered : Bool

/-- **The world of the pool**: its storage, the balances of all addresses, and its logs. `spends`
is no storage: it lists the public inputs of the spends that took effect, newest last. -/
structure World where
  pool : Storage
  balances : Address → ℕ
  logs : List Event
  spends : List (List Bytes32)

/-- The caller, the ether sent along and the time of the block. -/
structure Msg where
  sender : Address
  value : ℕ
  timestamp : ℕ

/-- What the verifier answers. -/
abbrev Verify := Bytes → List Bytes32 → Bool

/-- **The constructor**, for the addresses of the verifier, the fee controller and the hash. -/
def construct (poseidon2 : Bytes32 → Bytes32 → Bytes32) (verifier feeController poseidon2Address :
    Address) (balances : Address → ℕ) : Result World := do
  require (verifier ≠ 0) "invalid verifier"
  require (feeController ≠ 0) "invalid fee controller"
  require (poseidon2Address ≠ 0) "invalid poseidon"
  let roots := initialRoots poseidon2
  return {
    pool :=
      { commitments := fun _ => false, nullifiers := fun _ => false, roots
        accounting := ⟨0, 0, 0, 0⟩, fees := initialFees, entered := false }
    balances
    logs := [.rootAccepted roots.currentRoot 0 0]
    spends := [] }

/-- `publicInputs[k]`, read after the length has been checked. -/
def input (publicInputs : List Bytes32) (k : ℕ) : Bytes32 := publicInputs.getD k 0

/-- Moving ether. -/
def transfer (balances : Address → ℕ) (source target : Address) (amount : ℕ) : Address → ℕ :=
  let balances := Function.update balances source (balances source - amount)
  Function.update balances target (balances target + amount)

/-! ### Deposits -/

section Deposit
variable (env : Env) (verify : Verify)

/-- **`_depositWithProof`** up to the verification of the proof. -/
def checkDeposit (s : Storage) (msg : Msg) (proof : Bytes) (publicInputs : List Bytes32)
    (encryptedNote : Bytes) (selector : Bytes4) : Result Unit := do
  require (publicInputs.length = depositPublicInputsLength) "invalid deposit public inputs"
  let commitment := input publicInputs 0
  let amount := input publicInputs 1
  require (commitment ≠ 0) "invalid commitment"
  require (isFieldElement commitment) "commitment out of range"
  require (¬s.commitments commitment) "commitment exists"
  require (amount.toNat = msg.value) "invalid deposit amount"
  require (msg.value > 0) "deposit amount required"
  require (isSupportedDenomination msg.value) "unsupported fixed denomination"
  require (input publicInputs 2 = env.chainId) "invalid deposit public inputs"
  require (input publicInputs 3 = addressToBytes32 env.this) "invalid deposit public inputs"
  require (encryptedNote.length ≠ 0) "encrypted deposit note required"
  require (encryptedNote.length ≤ maxEncryptedNoteBytes) "encrypted note too large"
  let encryptedNoteHash := depositEncryptedNoteHash env selector commitment encryptedNote
  require (input publicInputs 5 = encryptedNoteHash) "invalid encrypted deposit note hash"
  require (input publicInputs 4 = depositContextHash env selector commitment amount encryptedNoteHash)
    "invalid deposit context hash"
  require (verify proof publicInputs) "invalid proof"

/-- **`_depositWithProof`**. -/
def depositWithProof (w : World) (msg : Msg) (proof : Bytes) (publicInputs : List Bytes32)
    (encryptedNote : Bytes) (selector : Bytes4) : Result World := do
  checkDeposit env verify w.pool msg proof publicInputs encryptedNote selector
  let commitment := input publicInputs 0
  let totalDepositedAccounting ←
    checkedAdd w.pool.accounting.totalDepositedAccounting msg.value
  let (roots, leafIndex, events) ← recordCommitmentRoot env.poseidon2 w.pool.roots commitment
  return { w with
    pool := { w.pool with
      commitments := Function.update w.pool.commitments commitment true
      roots
      accounting := { w.pool.accounting with totalDepositedAccounting } }
    logs := w.logs ++ events ++ [.depositCommitmentInserted commitment msg.value,
      .depositNoteCreated commitment leafIndex encryptedNote encryptedNoteVersion] }

end Deposit

/-! ### The checks of a spend -/

section Checks
variable (env : Env) (s : Storage)

/-- **`_requirePublicInputsCommon`**. -/
def requirePublicInputsCommon (publicInputs : List Bytes32) (nullifier : Bytes32) :
    Result Unit := do
  require (publicInputs.length = publicInputsLength) "invalid public inputs"
  require (isAcceptedRoot s.roots (input publicInputs 0)) "unaccepted root"
  require (input publicInputs 1 = nullifier) "invalid public inputs"
  require (input publicInputs 6 = env.chainId) "invalid public inputs"
  require (input publicInputs 7 = addressToBytes32 env.this) "invalid public inputs"

/-- **`_requirePrivateTransferPublicInputs`**. -/
def requirePrivateTransferPublicInputs (publicInputs : List Bytes32)
    (nullifier newCommitment : Bytes32) : Result Unit := do
  requirePublicInputsCommon env s publicInputs nullifier
  require (input publicInputs 2 = newCommitment) "invalid public inputs"
  require (input publicInputs 3 = 0) "invalid public inputs"
  require (input publicInputs 4 = 0) "invalid public inputs"
  require (input publicInputs 5 = 0) "invalid public inputs"

/-- **`_requireWithdrawalPublicInputs`**: the output commitment. -/
def requireWithdrawalPublicInputs (publicInputs : List Bytes32) (nullifier : Bytes32)
    (destination : Address) (grossAmount : UInt256) (fee : ℕ) : Result Bytes32 := do
  requirePublicInputsCommon env s publicInputs nullifier
  let outputCommitment := input publicInputs 2
  require (outputCommitment ≠ 0) "output commitment required"
  require (isFieldElement outputCommitment) "commitment out of range"
  require (¬s.commitments outputCommitment) "commitment exists"
  require (input publicInputs 3 = addressToBytes32 destination) "invalid public inputs"
  require (input publicInputs 4 = grossAmount) "invalid public inputs"
  require (input publicInputs 5 = BitVec.ofNat 256 fee) "invalid public inputs"
  return outputCommitment

/-- **`_requireRelayerPolicy`**. -/
def requireRelayerPolicy (msg : Msg) (policy : RelayerPolicy) : Result Unit := do
  require (policy.relayer ≠ 0 → msg.sender = policy.relayer) "invalid relayer"
  require (policy.deadlineOrZero ≠ 0 → msg.timestamp ≤ policy.deadlineOrZero.toNat)
    "expired relayer policy"

/-- The note a spend of the given shape is bound to. -/
def outputNote (shape : Bytes32) (selector : Bytes4) (nullifier outputCommitment : Bytes32)
    (encryptedOutputNote : Bytes) : EncryptedOutputNoteV2 :=
  { shape, selector, nullifier, outputCommitment, encryptedOutputNote }

/-- The context a spend is bound to. -/
def proofContext (shape : Bytes32) (selector : Bytes4) (publicInputs : List Bytes32)
    (destination : Address) (grossAmount : UInt256) (fee : ℕ) (encryptedNoteHash : Bytes32)
    (policy : RelayerPolicy) : ProofContextV1 :=
  { shape, selector, root := input publicInputs 0, nullifier := input publicInputs 1, destination
    grossAmount, fee := BitVec.ofNat 256 fee, encryptedNoteHash
    relayerPolicyHash := relayerPolicyHash env policy, deadlineOrZero := policy.deadlineOrZero }

/-- What `_requirePrivateTransferStageBBindings` and `_requireWithdrawalStageBBindings` share. -/
def requireStageBBindings (shape : Bytes32) (publicInputs : List Bytes32) (nullifier : Bytes32)
    (destination : Address) (grossAmount : UInt256) (fee : ℕ) (outputCommitment : Bytes32)
    (encryptedOutputNote : Bytes) (policy : RelayerPolicy) (selector : Bytes4) : Result Unit := do
  let encryptedNoteHash := encryptedOutputNoteHash env
    (outputNote shape selector nullifier outputCommitment encryptedOutputNote)
  let context := proofContext env shape selector publicInputs destination grossAmount fee
    encryptedNoteHash policy
  require (input publicInputs 9 = encryptedNoteHash) "invalid encrypted note hash"
  require (input publicInputs 8 = proofContextHash env context) "invalid proof context hash"

def requirePrivateTransferStageBBindings (publicInputs : List Bytes32)
    (nullifier outputCommitment : Bytes32) (encryptedOutputNote : Bytes) (policy : RelayerPolicy)
    (selector : Bytes4) : Result Unit :=
  requireStageBBindings env (privateTransferContextShape env) publicInputs nullifier 0 0 0
    outputCommitment encryptedOutputNote policy selector

def requireWithdrawalStageBBindings (publicInputs : List Bytes32) (nullifier : Bytes32)
    (destination : Address) (grossAmount : UInt256) (fee : ℕ) (outputCommitment : Bytes32)
    (encryptedOutputNote : Bytes) (policy : RelayerPolicy) (selector : Bytes4) : Result Unit :=
  requireStageBBindings env (withdrawContextShape env) publicInputs nullifier destination
    grossAmount fee outputCommitment encryptedOutputNote policy selector

end Checks

/-! ### Private transfers -/

/-- The arguments of `_privateTransfer`. -/
structure TransferArgs where
  proof : Bytes
  publicInputs : List Bytes32
  nullifier : Bytes32
  newCommitment : Bytes32
  encryptedNote : Bytes
  relayerPolicy : RelayerPolicy
  selector : Bytes4

section PrivateTransfer
variable (env : Env) (verify : Verify)

/-- **`_privateTransfer`** up to the verification of the proof. -/
def checkPrivateTransfer (s : Storage) (msg : Msg) (a : TransferArgs) : Result Unit := do
  require (a.nullifier ≠ 0) "invalid nullifier"
  require (a.newCommitment ≠ 0) "invalid commitment"
  require (isFieldElement a.newCommitment) "commitment out of range"
  require (a.encryptedNote.length ≠ 0) "encrypted output note required"
  require (a.encryptedNote.length ≤ maxEncryptedNoteBytes) "encrypted note too large"
  requirePrivateTransferPublicInputs env s a.publicInputs a.nullifier a.newCommitment
  requireRelayerPolicy msg a.relayerPolicy
  requirePrivateTransferStageBBindings env a.publicInputs a.nullifier a.newCommitment
    a.encryptedNote a.relayerPolicy a.selector
  require (verify a.proof a.publicInputs) "invalid proof"

/-- **`_privateTransfer`**. -/
def privateTransfer (w : World) (msg : Msg) (a : TransferArgs) : Result World := do
  checkPrivateTransfer env verify w.pool msg a
  require (¬w.pool.nullifiers a.nullifier) "nullifier already spent"
  require (¬w.pool.commitments a.newCommitment) "commitment exists"
  let (roots, leafIndex, events) ←
    recordCommitmentRoot env.poseidon2 w.pool.roots a.newCommitment
  return { w with
    pool := { w.pool with
      nullifiers := Function.update w.pool.nullifiers a.nullifier true
      commitments := Function.update w.pool.commitments a.newCommitment true
      roots }
    logs := w.logs ++ events ++ [.nullifierSpent a.nullifier,
      .privateTransferCommitmentInserted a.newCommitment a.nullifier,
      .privateTransferNoteCreated a.newCommitment a.nullifier leafIndex a.encryptedNote
        encryptedOutputNoteVersion]
    spends := w.spends ++ [a.publicInputs] }

end PrivateTransfer

/-! ### Withdrawals and sweeps -/

/-- The arguments of `_withdraw`. -/
structure WithdrawArgs where
  proof : Bytes
  publicInputs : List Bytes32
  nullifier : Bytes32
  destination : Address
  grossAmount : UInt256
  encryptedOutputNote : Bytes
  relayerPolicy : RelayerPolicy
  selector : Bytes4

/-- **What is left to do** when the callee returns. -/
inductive Pending
  | withdraw (nullifier outputCommitment : Bytes32) (destination : Address) (grossAmount : UInt256)
      (netAmount fee outputLeafIndex : ℕ) (encryptedOutputNote : Bytes)
  | sweepFees (destination : Address) (amount : UInt256)

def Pending.destination : Pending → Address
  | .withdraw _ _ destination _ _ _ _ _ => destination
  | .sweepFees destination _ => destination

section Withdraw
variable (env : Env) (verify : Verify)

/-- **`_withdraw`** up to the verification of the proof: the fee and the output commitment. -/
def checkWithdraw (s : Storage) (msg : Msg) (a : WithdrawArgs) : Result (ℕ × Bytes32) := do
  require (a.nullifier ≠ 0) "invalid nullifier"
  require (¬s.nullifiers a.nullifier) "nullifier already spent"
  require (a.destination ≠ 0) "invalid destination"
  require (a.grossAmount.toNat > 0) "withdrawal amount required"
  require (a.encryptedOutputNote.length ≤ maxEncryptedNoteBytes) "encrypted note too large"
  let product ← checkedMul a.grossAmount.toNat s.fees.feeBps
  let fee := product / bpsDenominator
  let outputCommitment ←
    requireWithdrawalPublicInputs env s a.publicInputs a.nullifier a.destination a.grossAmount fee
  requireRelayerPolicy msg a.relayerPolicy
  require (a.relayerPolicy.minNetAmount.toNat ≤ a.grossAmount.toNat) "invalid relayer policy"
  require (isSupportedDenomination a.grossAmount.toNat) "unsupported exit denomination"
  require (a.encryptedOutputNote.length ≠ 0) "encrypted output note required"
  requireWithdrawalStageBBindings env a.publicInputs a.nullifier a.destination a.grossAmount fee
    outputCommitment a.encryptedOutputNote a.relayerPolicy a.selector
  require (verify a.proof a.publicInputs) "invalid proof"
  return (fee, outputCommitment)

/-- **`_withdraw`** from the verification to the effects: the bounds of the caller and the two
liquidity checks, and the net amount. -/
def checkLiquidity (s : Storage) (balance : ℕ) (a : WithdrawArgs) (fee : ℕ) : Result ℕ := do
  let netAmount ← checkedSub a.grossAmount.toNat fee
  require (fee ≤ a.relayerPolicy.maxFeeAmount.toNat) "fee exceeds user bound"
  require (netAmount ≥ a.relayerPolicy.minNetAmount.toNat) "net amount below user minimum"
  let unsweptFees ← checkedSub s.accounting.accruedProtocolFees s.accounting.feeSweptAccounting
  let notWithdrawn ←
    checkedSub s.accounting.totalDepositedAccounting s.accounting.totalWithdrawnAccounting
  let withdrawableAccounting ← checkedSub notWithdrawn s.accounting.accruedProtocolFees
  require (a.grossAmount.toNat ≤ withdrawableAccounting) "insufficient accounting liquidity"
  let available ← checkedSub balance unsweptFees
  require (a.grossAmount.toNat ≤ available) "insufficient pool liquidity"
  return netAmount

/-- The ether the pool sends: without the balance for it the call fails. -/
def send (w : World) (destination : Address) (amount : ℕ) (text : String) : Result World := do
  require (amount ≤ w.balances env.this) text
  return { w with balances := transfer w.balances env.this destination amount }

/-- **`_withdraw`** up to its external call. -/
def withdraw (w : World) (msg : Msg) (a : WithdrawArgs) : Result (World × Pending) := do
  let (fee, outputCommitment) ← checkWithdraw env verify w.pool msg a
  let netAmount ← checkLiquidity w.pool (w.balances env.this) a fee
  let accruedProtocolFees ← checkedAdd w.pool.accounting.accruedProtocolFees fee
  let totalWithdrawnAccounting ←
    checkedAdd w.pool.accounting.totalWithdrawnAccounting netAmount
  let (roots, outputLeafIndex, events) ←
    recordCommitmentRoot env.poseidon2 w.pool.roots outputCommitment
  let w := { w with
    pool := { w.pool with
      nullifiers := Function.update w.pool.nullifiers a.nullifier true
      accounting := { w.pool.accounting with accruedProtocolFees, totalWithdrawnAccounting }
      commitments := Function.update w.pool.commitments outputCommitment true
      roots }
    logs := w.logs ++ events
    spends := w.spends ++ [a.publicInputs] }
  let w ← send env w a.destination netAmount "withdraw transfer failed"
  return (w, .withdraw a.nullifier outputCommitment a.destination a.grossAmount netAmount fee
    outputLeafIndex a.encryptedOutputNote)

/-- **`sweepFees`** up to its external call. -/
def sweepFees (w : World) (msg : Msg) (destination : Address) (amount : UInt256) :
    Result (World × Pending) := do
  require (msg.sender = env.feeController) "only fee controller"
  require (destination ≠ 0) "invalid destination"
  require (amount.toNat > 0) "sweep amount required"
  let feeSweptAccounting ← checkedAdd w.pool.accounting.feeSweptAccounting amount.toNat
  require (feeSweptAccounting ≤ w.pool.accounting.accruedProtocolFees) "sweep exceeds accrued fees"
  let w := { w with pool := { w.pool with
    accounting := { w.pool.accounting with feeSweptAccounting } } }
  let w ← send env w destination amount.toNat "fee sweep failed"
  return (w, .sweepFees destination amount)

end Withdraw

/-- The events after a call that returned. -/
def Pending.events : Pending → List Event
  | .withdraw nullifier outputCommitment destination grossAmount netAmount fee outputLeafIndex
      encryptedOutputNote =>
    [.nullifierSpent nullifier,
      .withdrawalOutputCommitmentInserted outputCommitment nullifier grossAmount,
      .withdrawalOutputNoteCreated outputCommitment nullifier outputLeafIndex grossAmount
        encryptedOutputNote encryptedOutputNoteVersion,
      .protocolFeesAccrued fee,
      .withdrawalExecuted destination grossAmount netAmount fee]
  | .sweepFees destination amount => [.protocolFeesSwept destination amount]

end Nullark.Pool.Actions
