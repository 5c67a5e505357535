import Nullark.Pool.Actions

/-! # Deposits, private transfers, withdrawals, sweeps and recoveries of v1.1

The pool of v1.1 keeps the amount of every commitment: deposits come without a proof, and a spend
names the commitment it spends. The window of accepted roots is the ring itself. What the two
versions share is taken from the model of v1.2, and a function that moves ether out ends at its
external call here too. -/

namespace Nullark.PoolV11.Actions

open Nullark.Lib.Outcome Nullark.Lib.Abi Nullark.Evm.Basic
open Nullark.Pool.Interface hiding Event publicInputsLength
open Nullark.Pool.Context (Env ProofContextV1 utf8 hashToField bytes4ToBytes32 proofContextHash
  relayerPolicyHash encryptedNoteHashDomain)
open Nullark.Pool.Roots.V11 (RootStorage initialRoots recordCommitmentRoot isAcceptedRoot)
open Nullark.Pool.Actions (Accounting Msg Verify input transfer TransferArgs requireRelayerPolicy)

def withdrawalFeeBps : ℕ := 33

def publicInputsLength : ℕ := 12

/-- **The events** of the pool: those that v1.2 has as well, and its own. -/
inductive Event
  | shared (event : Pool.Interface.Event)
  | withdrawalChangeCommitmentInserted (commitment nullifier : Bytes32) (grossAmount : UInt256)
  | withdrawalChangeNoteCreated (commitment nullifier : Bytes32) (leafIndex : ℕ)
      (grossAmount : UInt256) (encryptedNote : Bytes) (encryptionVersion : ℕ)
  | excessBalanceRecovered (destination : Address) (amount : UInt256)
  | depositsPaused (paused : Bool)
  | internalSendsPaused (paused : Bool)
  | feeSweepsPaused (paused : Bool)
  deriving DecidableEq, Repr

/-- **The storage of the pool.** `entered` is the state of the re-entrancy guard. -/
structure Storage where
  commitments : Bytes32 → Bool
  commitmentAmounts : Bytes32 → ℕ
  nullifiers : Bytes32 → Bool
  roots : RootStorage
  accounting : Accounting
  depositsPaused : Bool
  internalSendsPaused : Bool
  feeSweepsPaused : Bool
  entered : Bool

/-- **The world of the pool**, as in v1.2, with the public inputs of the accepted spends. -/
structure World where
  pool : Storage
  balances : Address → ℕ
  logs : List Event
  spends : List (List Bytes32)

/-- **The constructor.** -/
def construct (poseidon2 : Bytes32 → Bytes32 → Bytes32) (verifier feeController poseidon2Address :
    Address) (balances : Address → ℕ) : Result World := do
  require (verifier ≠ 0) "invalid verifier"
  require (feeController ≠ 0) "invalid fee controller"
  require (poseidon2Address ≠ 0) "invalid poseidon"
  let roots := initialRoots poseidon2
  return {
    pool :=
      { commitments := fun _ => false, commitmentAmounts := fun _ => 0
        nullifiers := fun _ => false, roots, accounting := ⟨0, 0, 0, 0⟩
        depositsPaused := false, internalSendsPaused := false, feeSweepsPaused := false
        entered := false }
    balances
    logs := [.shared (.rootAccepted roots.currentRoot 0 0)]
    spends := [] }

/-! ### What a proof is bound to -/

structure EncryptedNoteV1 where
  shape : Bytes32
  selector : Bytes4
  nullifier : Bytes32
  commitment : Bytes32
  noteAmount : ℕ
  encryptedNote : Bytes

section Bindings
variable (env : Env)

def privateTransferContextShape : Bytes32 := env.keccak256 (utf8 "private_transfer_context_v1_1")

def withdrawContextShape : Bytes32 := env.keccak256 (utf8 "withdraw_context_v1_1")

/-- `_encryptedNoteHash`. -/
def encryptedNoteHash (note : EncryptedNoteV1) : Bytes32 :=
  hashToField env (encode [.word (encryptedNoteHashDomain env),
    .word (BitVec.ofNat 256 encryptedNoteVersion), .word env.chainId,
    .word (addressToBytes32 env.this), .word note.shape, .word (bytes4ToBytes32 note.selector),
    .word note.nullifier, .word note.commitment, .word (BitVec.ofNat 256 note.noteAmount),
    .bytes note.encryptedNote])

/-- The context a spend is bound to. -/
def proofContext (publicInputs : List Bytes32) (note : EncryptedNoteV1) (destination : Address)
    (grossAmount : UInt256) (fee : ℕ) (policy : RelayerPolicy) : ProofContextV1 :=
  { shape := note.shape, selector := note.selector, root := input publicInputs 0
    nullifier := input publicInputs 1, destination, grossAmount, fee := BitVec.ofNat 256 fee
    encryptedNoteHash := encryptedNoteHash env note
    relayerPolicyHash := relayerPolicyHash env policy, deadlineOrZero := policy.deadlineOrZero }

/-- What `_requirePrivateTransferStageBBindings` and `_requireWithdrawalStageBBindings` share. -/
def requireStageBBindings (publicInputs : List Bytes32) (note : EncryptedNoteV1)
    (destination : Address) (grossAmount : UInt256) (fee : ℕ) (policy : RelayerPolicy) :
    Result Unit := do
  let context := proofContext env publicInputs note destination grossAmount fee policy
  require (input publicInputs 11 = encryptedNoteHash env note) "invalid encrypted note hash"
  require (input publicInputs 10 = proofContextHash env context) "invalid proof context hash"

end Bindings

/-! ### The checks of the public inputs -/

section Checks
variable (env : Env) (s : Storage)

/-- **`_requirePublicInputsCommon`**. -/
def requirePublicInputsCommon (publicInputs : List Bytes32) (nullifier : Bytes32) :
    Result Unit := do
  require (publicInputs.length = publicInputsLength) "invalid public inputs"
  require (isAcceptedRoot s.roots (input publicInputs 0)) "unaccepted root"
  require (input publicInputs 1 = nullifier) "invalid public inputs"
  require (input publicInputs 6 = env.chainId) "invalid public inputs"
  require (input publicInputs 7 = addressToBytes32 env.this) "invalid public inputs"

/-- **`_requireSpentCommitmentAmount`**: the amount of the note that is spent. -/
def requireSpentCommitmentAmount (publicInputs : List Bytes32) : Result ℕ := do
  let spentCommitment := input publicInputs 8
  let noteAmount := (input publicInputs 9).toNat
  require (spentCommitment ≠ 0) "invalid spent commitment"
  require (isFieldElement spentCommitment) "spent commitment out of range"
  require (s.commitments spentCommitment) "unknown spent commitment"
  require (noteAmount > 0) "invalid note amount"
  require (noteAmount < bn254ScalarField) "note amount out of range"
  require (s.commitmentAmounts spentCommitment = noteAmount) "spent commitment amount mismatch"
  return noteAmount

/-- **`_requirePrivateTransferPublicInputs`**. -/
def requirePrivateTransferPublicInputs (publicInputs : List Bytes32)
    (nullifier newCommitment : Bytes32) : Result ℕ := do
  requirePublicInputsCommon env s publicInputs nullifier
  require (input publicInputs 2 = newCommitment) "invalid public inputs"
  require (input publicInputs 3 = 0) "invalid public inputs"
  require (input publicInputs 4 = 0) "invalid public inputs"
  require (input publicInputs 5 = 0) "invalid public inputs"
  requireSpentCommitmentAmount s publicInputs

/-- A commitment that may be left out. -/
def requireFreshUnlessZero (commitment : Bytes32) : Result Unit :=
  if commitment = 0 then .ok ()
  else do
    require (isFieldElement commitment) "commitment out of range"
    require (¬s.commitments commitment) "commitment exists"

/-- **`_requireWithdrawalPublicInputs`**: the change commitment and the amount of the note. -/
def requireWithdrawalPublicInputs (publicInputs : List Bytes32) (nullifier : Bytes32)
    (destination : Address) (grossAmount : UInt256) (fee : ℕ) : Result (Bytes32 × ℕ) := do
  requirePublicInputsCommon env s publicInputs nullifier
  let changeCommitment := input publicInputs 2
  requireFreshUnlessZero s changeCommitment
  require (input publicInputs 3 = addressToBytes32 destination) "invalid public inputs"
  require (input publicInputs 4 = grossAmount) "invalid public inputs"
  require (input publicInputs 5 = BitVec.ofNat 256 fee) "invalid public inputs"
  let noteAmount ← requireSpentCommitmentAmount s publicInputs
  return (changeCommitment, noteAmount)

end Checks

/-! ### Deposits -/

section Code
variable (env : Env) (verify : Verify)

/-- **`_deposit`** up to its effects. -/
def checkDeposit (s : Storage) (msg : Msg) (commitment : Bytes32) (encryptedNote : Bytes) :
    Result Unit := do
  require (¬s.depositsPaused) "deposits paused"
  require (msg.value > 0) "deposit amount required"
  require (isSupportedDenomination msg.value) "unsupported fixed denomination"
  require (commitment ≠ 0) "invalid commitment"
  require (isFieldElement commitment) "commitment out of range"
  require (¬s.commitments commitment) "commitment exists"
  require (encryptedNote.length ≤ maxEncryptedNoteBytes) "encrypted note too large"

/-- **`_deposit`**. -/
def deposit (w : World) (msg : Msg) (commitment : Bytes32) (encryptedNote : Bytes) :
    Result World := do
  checkDeposit w.pool msg commitment encryptedNote
  let totalDepositedAccounting ←
    checkedAdd w.pool.accounting.totalDepositedAccounting msg.value
  let (roots, leafIndex, events) ← recordCommitmentRoot env.poseidon2 w.pool.roots commitment
  let noted := if encryptedNote.length ≠ 0 then
      [.shared (.depositNoteCreated commitment leafIndex encryptedNote encryptedNoteVersion)]
    else []
  return { w with
    pool := { w.pool with
      commitments := Function.update w.pool.commitments commitment true
      commitmentAmounts := Function.update w.pool.commitmentAmounts commitment msg.value
      roots
      accounting := { w.pool.accounting with totalDepositedAccounting } }
    logs := w.logs ++ events.map .shared ++
      .shared (.depositCommitmentInserted commitment msg.value) :: noted }

/-! ### Private transfers -/

/-- **`_privateTransfer`** up to the verification of the proof: the amount of the note. -/
def checkPrivateTransfer (s : Storage) (msg : Msg) (a : TransferArgs) : Result ℕ := do
  require (¬s.internalSendsPaused) "internal sends paused"
  require (a.nullifier ≠ 0) "invalid nullifier"
  require (a.newCommitment ≠ 0) "invalid commitment"
  require (isFieldElement a.newCommitment) "commitment out of range"
  require (a.encryptedNote.length ≤ maxEncryptedNoteBytes) "encrypted note too large"
  let noteAmount ← requirePrivateTransferPublicInputs env s a.publicInputs a.nullifier
    a.newCommitment
  requireRelayerPolicy msg a.relayerPolicy
  requireStageBBindings env a.publicInputs
    { shape := privateTransferContextShape env, selector := a.selector, nullifier := a.nullifier
      commitment := a.newCommitment, noteAmount, encryptedNote := a.encryptedNote }
    0 0 0 a.relayerPolicy
  require (verify a.proof a.publicInputs) "invalid proof"
  return noteAmount

/-- **`_privateTransfer`**. -/
def privateTransfer (w : World) (msg : Msg) (a : TransferArgs) : Result World := do
  let noteAmount ← checkPrivateTransfer env verify w.pool msg a
  require (¬w.pool.nullifiers a.nullifier) "nullifier already spent"
  require (¬w.pool.commitments a.newCommitment) "commitment exists"
  let (roots, leafIndex, events) ←
    recordCommitmentRoot env.poseidon2 w.pool.roots a.newCommitment
  let noted := if a.encryptedNote.length ≠ 0 then
      [.shared (.privateTransferNoteCreated a.newCommitment a.nullifier leafIndex a.encryptedNote
        encryptedNoteVersion)]
    else []
  return { w with
    pool := { w.pool with
      nullifiers := Function.update w.pool.nullifiers a.nullifier true
      commitments := Function.update w.pool.commitments a.newCommitment true
      commitmentAmounts := Function.update w.pool.commitmentAmounts a.newCommitment noteAmount
      roots }
    logs := w.logs ++ events.map .shared ++ .shared (.nullifierSpent a.nullifier) ::
      .shared (.privateTransferCommitmentInserted a.newCommitment a.nullifier) :: noted
    spends := w.spends ++ [a.publicInputs] }

/-! ### Withdrawals, sweeps and recoveries -/

/-- The arguments of `_withdraw`. -/
structure WithdrawArgs where
  proof : Bytes
  publicInputs : List Bytes32
  nullifier : Bytes32
  destination : Address
  grossAmount : UInt256
  encryptedChangeNote : Bytes
  relayerPolicy : RelayerPolicy
  selector : Bytes4

/-- **What is left to do** when the callee returns. -/
inductive Pending
  | withdraw (nullifier changeCommitment : Bytes32) (destination : Address) (grossAmount : UInt256)
      (netAmount fee changeLeafIndex : ℕ) (encryptedChangeNote : Bytes)
  | sweepFees (destination : Address) (amount : UInt256)
  | recoverExcessBalance (destination : Address) (amount : UInt256)

def Pending.destination : Pending → Address
  | .withdraw _ _ destination _ _ _ _ _ => destination
  | .sweepFees destination _ => destination
  | .recoverExcessBalance destination _ => destination

/-- The denominations of a withdrawal, with the amount its note is bound to. -/
def checkChange (changeCommitment : Bytes32) (noteAmount grossAmount : ℕ)
    (encryptedChangeNote : Bytes) : Result ℕ :=
  if changeCommitment = 0 then do
    require (grossAmount = noteAmount) "fixed public exit requires full note"
    require (encryptedChangeNote.length = 0) "unexpected encrypted change note"
    return noteAmount
  else do
    require (grossAmount < noteAmount) "invalid change amount"
    let change ← checkedSub noteAmount grossAmount
    require (isSupportedDenomination change) "unsupported change denomination"
    require (encryptedChangeNote.length ≠ 0) "encrypted change note required"
    return change

/-- **`_withdraw`** up to the verification of the proof: the fee, the change commitment and the
amount of the note. -/
def checkWithdraw (s : Storage) (msg : Msg) (a : WithdrawArgs) : Result (ℕ × Bytes32 × ℕ) := do
  require (a.nullifier ≠ 0) "invalid nullifier"
  require (¬s.nullifiers a.nullifier) "nullifier already spent"
  require (a.destination ≠ 0) "invalid destination"
  require (a.grossAmount.toNat > 0) "withdrawal amount required"
  require (a.encryptedChangeNote.length ≤ maxEncryptedNoteBytes) "encrypted note too large"
  let product ← checkedMul a.grossAmount.toNat withdrawalFeeBps
  let fee := product / bpsDenominator
  let (changeCommitment, noteAmount) ←
    requireWithdrawalPublicInputs env s a.publicInputs a.nullifier a.destination a.grossAmount fee
  requireRelayerPolicy msg a.relayerPolicy
  require (a.relayerPolicy.minNetAmount.toNat ≤ a.grossAmount.toNat) "invalid relayer policy"
  require (isSupportedDenomination noteAmount) "unsupported fixed denomination"
  require (isSupportedDenomination a.grossAmount.toNat) "unsupported exit denomination"
  require (a.grossAmount.toNat ≤ noteAmount) "withdrawal exceeds note amount"
  let encryptedNoteAmount ←
    checkChange changeCommitment noteAmount a.grossAmount.toNat a.encryptedChangeNote
  requireStageBBindings env a.publicInputs
    { shape := withdrawContextShape env, selector := a.selector, nullifier := a.nullifier
      commitment := changeCommitment, noteAmount := encryptedNoteAmount
      encryptedNote := a.encryptedChangeNote }
    a.destination a.grossAmount fee a.relayerPolicy
  require (verify a.proof a.publicInputs) "invalid proof"
  return (fee, changeCommitment, noteAmount)

/-- **`_withdraw`** from the verification to the effects: the net amount. -/
def checkLiquidity (accounting : Accounting) (balance : ℕ) (a : WithdrawArgs) (fee : ℕ) :
    Result ℕ := do
  let netAmount ← checkedSub a.grossAmount.toNat fee
  require (fee ≤ a.relayerPolicy.maxFeeAmount.toNat) "fee exceeds user bound"
  require (netAmount ≥ a.relayerPolicy.minNetAmount.toNat) "net amount below user minimum"
  let unsweptFees ← checkedSub accounting.accruedProtocolFees accounting.feeSweptAccounting
  let notWithdrawn ←
    checkedSub accounting.totalDepositedAccounting accounting.totalWithdrawnAccounting
  let withdrawableAccounting ← checkedSub notWithdrawn accounting.accruedProtocolFees
  require (a.grossAmount.toNat ≤ withdrawableAccounting) "insufficient accounting liquidity"
  let available ← checkedSub balance unsweptFees
  require (a.grossAmount.toNat ≤ available) "insufficient pool liquidity"
  return netAmount

/-- Recording the change commitment, if there is one: the storage, the index of the leaf and the
events. -/
def recordChange (s : Storage) (changeCommitment : Bytes32) (noteAmount grossAmount : ℕ) :
    Result (Storage × ℕ × List Pool.Interface.Event) :=
  if changeCommitment = 0 then .ok (s, 0, [])
  else do
    let change ← checkedSub noteAmount grossAmount
    let (roots, leafIndex, events) ← recordCommitmentRoot env.poseidon2 s.roots changeCommitment
    return ({ s with
      commitments := Function.update s.commitments changeCommitment true
      commitmentAmounts := Function.update s.commitmentAmounts changeCommitment change
      roots }, leafIndex, events)

/-- The ether the pool sends: without the balance for it the call fails. -/
def send (w : World) (destination : Address) (amount : ℕ) (text : String) : Result World := do
  require (amount ≤ w.balances env.this) text
  return { w with balances := transfer w.balances env.this destination amount }

/-- **`_withdraw`** up to its external call. -/
def withdraw (w : World) (msg : Msg) (a : WithdrawArgs) : Result (World × Pending) := do
  let (fee, changeCommitment, noteAmount) ← checkWithdraw env verify w.pool msg a
  let netAmount ← checkLiquidity w.pool.accounting (w.balances env.this) a fee
  let accruedProtocolFees ← checkedAdd w.pool.accounting.accruedProtocolFees fee
  let totalWithdrawnAccounting ←
    checkedAdd w.pool.accounting.totalWithdrawnAccounting netAmount
  let s := { w.pool with
    nullifiers := Function.update w.pool.nullifiers a.nullifier true
    accounting := { w.pool.accounting with accruedProtocolFees, totalWithdrawnAccounting } }
  let (s, changeLeafIndex, events) ←
    recordChange env s changeCommitment noteAmount a.grossAmount.toNat
  let w := { w with
    pool := s, logs := w.logs ++ events.map .shared, spends := w.spends ++ [a.publicInputs] }
  let w ← send env w a.destination netAmount "withdraw transfer failed"
  return (w, .withdraw a.nullifier changeCommitment a.destination a.grossAmount netAmount fee
    changeLeafIndex a.encryptedChangeNote)

/-- **`sweepFees`** up to its external call. -/
def sweepFees (w : World) (msg : Msg) (destination : Address) (amount : UInt256) :
    Result (World × Pending) := do
  require (msg.sender = env.feeController) "only fee controller"
  require (¬w.pool.feeSweepsPaused) "fee sweeps paused"
  require (destination ≠ 0) "invalid destination"
  require (amount.toNat > 0) "sweep amount required"
  let feeSweptAccounting ← checkedAdd w.pool.accounting.feeSweptAccounting amount.toNat
  require (feeSweptAccounting ≤ w.pool.accounting.accruedProtocolFees) "sweep exceeds accrued fees"
  let w := { w with pool := { w.pool with
    accounting := { w.pool.accounting with feeSweptAccounting } } }
  let w ← send env w destination amount.toNat "fee sweep failed"
  return (w, .sweepFees destination amount)

/-- **`recoverExcessBalance`** up to its external call. -/
def recoverExcessBalance (w : World) (msg : Msg) (destination : Address) (amount : UInt256) :
    Result (World × Pending) := do
  require (msg.sender = env.feeController) "only fee controller"
  require (¬w.pool.feeSweepsPaused) "fee sweeps paused"
  require (destination ≠ 0) "invalid destination"
  require (amount.toNat > 0) "recovery amount required"
  let notWithdrawn ← checkedSub w.pool.accounting.totalDepositedAccounting
    w.pool.accounting.totalWithdrawnAccounting
  let accountedBalance ← checkedSub notWithdrawn w.pool.accounting.feeSweptAccounting
  require (w.balances env.this > accountedBalance) "no excess balance"
  let excess ← checkedSub (w.balances env.this) accountedBalance
  require (amount.toNat ≤ excess) "recovery exceeds excess"
  let w ← send env w destination amount.toNat "excess recovery failed"
  return (w, .recoverExcessBalance destination amount)

end Code

/-- The events after a call that returned. -/
def Pending.events : Pending → List Event
  | .withdraw nullifier changeCommitment destination grossAmount netAmount fee changeLeafIndex
      encryptedChangeNote =>
    .shared (.nullifierSpent nullifier) ::
      (if changeCommitment ≠ 0 then
        .withdrawalChangeCommitmentInserted changeCommitment nullifier grossAmount ::
          (if encryptedChangeNote.length ≠ 0 then
            [.withdrawalChangeNoteCreated changeCommitment nullifier changeLeafIndex grossAmount
              encryptedChangeNote encryptedNoteVersion]
          else [])
      else []) ++
      [.shared (.protocolFeesAccrued fee),
        .shared (.withdrawalExecuted destination grossAmount netAmount fee)]
  | .sweepFees destination amount => [.shared (.protocolFeesSwept destination amount)]
  | .recoverExcessBalance destination amount => [.excessBalanceRecovered destination amount]

end Nullark.PoolV11.Actions
