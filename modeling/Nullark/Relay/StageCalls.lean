import Nullark.Js.OutputNoteEnvelope
import Nullark.Relay.WithdrawalCall

/-! # The relay's checks of the v1.1 withdrawals

A call of v1.1 is a full exit without bounds, one with bounds, one with a policy for the relayer, or
one that keeps private change. All have the checks of `validateV11WithdrawalRelayCall`, and each but
the first has checks of its own, its preflight. -/

namespace Nullark.Relay.StageCalls

open Nullark.Lib.Outcome Nullark.Lib.Hex Nullark.Evm.Basic
open Nullark.Js.Basic Nullark.Js.Bytes Nullark.Js.Package Nullark.Js.ContextHashes
open Nullark.Js.OutputNoteEnvelope Nullark.Core.Proofs
open Nullark.Relay.ContextHashes Nullark.Relay.FeePolicy Nullark.Relay.WithdrawalCall

/-! ### Hashes -/

section Hashes
variable (v : Viem)

/-- `PROOF_CONTEXT_V1_SHAPE_WITHDRAW`. -/
def withdrawShapeV11 : Text := hashDomainSeparator v "withdraw_context_v1_1"

/-- `selectWithdrawalProofContextShape`. -/
def selectWithdrawalProofContextShape (feePolicy : Option WithdrawalRelayFeePolicy) : Text :=
  if feePolicy.isSome then withdrawShape v else withdrawShapeV11 v

/-- What the hashes of a call are made from, but the note. -/
structure StageContext where
  chainId : ℕ
  pool : Text
  selector : Text
  root : Text
  nullifier : Text
  destination : Text
  grossAmount : ℕ
  fee : ℕ
  relayerPolicy : RelayerPolicyInput
  proofContextShape : Text

/-- `computeStageBContractBoundEncryptedNoteHash`, and the same for a change note. -/
def computeContractBoundEncryptedNoteHash (context : StageContext) (commitment : Text)
    (noteAmount : ℕ) (encryptedNote : Text) : Throws Text := do
  let pool ← v.getAddress context.pool
  let note ← createEncryptedNoteV1 v
    { chainId := context.chainId, pool := pool, shape := context.proofContextShape
      selector := context.selector, nullifier := context.nullifier, commitment := commitment
      noteAmount := noteAmount, encryptedNote := encryptedNote }
  let hashed ← hashEncryptedNoteV1 v note
  return hashed.hash

def computeStageBContractBoundEncryptedNoteHash (context : StageContext) (noteAmount : ℕ) :
    Throws Text :=
  computeContractBoundEncryptedNoteHash v context zeroBytes32 noteAmount "0x".toList

def computeStageCContractBoundEncryptedChangeNoteHash (context : StageContext)
    (changeCommitment : Text) (changeAmount : ℕ) (encryptedChangeNote : Text) : Throws Text :=
  computeContractBoundEncryptedNoteHash v context changeCommitment changeAmount encryptedChangeNote

/-- The hash of the context, for the hashes of the note and of the policy. -/
def StageContext.proofContextHash (context : StageContext)
    (encryptedNoteHash relayerPolicyHash : Text) : Throws Text := do
  let hashed ← computeStageBProofContextHash v
    { chainId := context.chainId, pool := context.pool, shape := context.proofContextShape
      selector := context.selector, root := context.root, nullifier := context.nullifier
      destination := context.destination, grossAmount := context.grossAmount, fee := context.fee
      encryptedNoteHash := encryptedNoteHash, relayerPolicyHash := relayerPolicyHash
      deadlineOrZero := context.relayerPolicy.deadlineOrZero }
  return hashed.hash

end Hashes

/-! ### Preflights -/

section Preflight
variable (v : Viem)

/-- Two texts that are not the same up to case. -/
def differs (s t : Text) : Prop := lower s ≠ lower t

instance (s t : Text) : Decidable (differs s t) := inferInstanceAs (Decidable (lower s ≠ lower t))

/-- **`validateBoundedFullExitPreflight`**. -/
def validateBoundedFullExitPreflight (call : WithdrawalRelayCall) (context : StageContext)
    (noteAmount : ℕ) : Throws (List String) := do
  let encryptedNoteHash ← computeStageBContractBoundEncryptedNoteHash v context noteAmount
  let relayerPolicyHash ← computeStageBRelayerPolicyHash v context.relayerPolicy
  let proofContextHash ← context.proofContextHash v encryptedNoteHash relayerPolicyHash.hash
  return errorWhen (differs (call.publicInputText 11) encryptedNoteHash)
      "Proof-bound withdrawal encrypted-note hash does not match public inputs" ++
    errorWhen (differs (call.publicInputText 10) proofContextHash)
      "Proof-bound withdrawal proofContextHash does not match public inputs"

/-- The deadline of a request is the one of the policy. -/
def deadlineMatches (deadlineEpochSeconds : Option ℤ) (deadlineOrZero : ℕ) : Prop :=
  ∃ deadline ∈ deadlineEpochSeconds, |deadline| ≤ maxSafeInteger ∧ deadline = deadlineOrZero

instance (deadlineEpochSeconds : Option ℤ) (deadlineOrZero : ℕ) :
    Decidable (deadlineMatches deadlineEpochSeconds deadlineOrZero) :=
  match deadlineEpochSeconds with
  | none => isFalse fun ⟨_, h, _⟩ => Option.not_mem_none _ h
  | some deadline =>
    decidable_of_iff (|deadline| ≤ maxSafeInteger ∧ deadline = deadlineOrZero)
      ⟨fun h => ⟨deadline, rfl, h⟩, fun ⟨_, hmem, h⟩ => (Option.some.inj hmem).symm ▸ h⟩

/-- The relayer that is expected is not the one of the policy. -/
def relayerErrors (relayer : Text) : Option Text → Throws (List String)
  | none => .ok []
  | some expectedRelayer => do
    let expected ← v.getAddress expectedRelayer
    return errorWhen (differs relayer expected)
      "Proof-bound withdrawal relayer policy does not match signing relayer"

/-- A hash that is expected is not the one of the policy. -/
def policyHashErrors (relayerPolicyHash : Text) (message : String) (expected : Option Text) :
    List String :=
  expected.elim [] fun expected => errorWhen (differs relayerPolicyHash expected) message

/-- **`validateStageBWithdrawalPreflight`**, for a call that has a policy. -/
def validateStageBWithdrawalPreflight (request : WithdrawalRelayCalldataValidationInput)
    (call : WithdrawalRelayCall) (context : StageContext) (noteAmount : ℕ) :
    Throws (List String) := do
  let relayer ← relayerErrors v context.relayerPolicy.relayer request.expectedRelayer
  let relayerPolicyHash ← computeStageBRelayerPolicyHash v context.relayerPolicy
  let encryptedNoteHash ← computeStageBContractBoundEncryptedNoteHash v context noteAmount
  let proofContextHash ← context.proofContextHash v encryptedNoteHash relayerPolicyHash.hash
  return errorWhen (call.selector ≠ withdrawRelayerPolicySelector)
      "Proof-bound withdrawal selector does not match relayer-policy withdraw selector" ++
    errorWhen (¬deadlineMatches request.deadlineEpochSeconds context.relayerPolicy.deadlineOrZero)
      "Proof-bound withdrawal deadline does not match relayer request" ++
    relayer ++
    errorWhen (context.fee > context.relayerPolicy.maxFeeAmount)
      "Proof-bound withdrawal fee exceeds relayer policy max fee" ++
    errorWhen ((call.grossAmount : ℤ) - context.fee < context.relayerPolicy.minNetAmount)
      "Proof-bound withdrawal net amount is below relayer policy minimum" ++
    policyHashErrors relayerPolicyHash.hash
      "Proof-bound withdrawal relayerPolicyHash does not match relayer policy"
      request.expectedRelayerPolicyHash ++
    errorWhen (differs (call.publicInputText 11) encryptedNoteHash)
      "Proof-bound withdrawal encrypted-note hash does not match public inputs" ++
    errorWhen (differs (call.publicInputText 10) proofContextHash)
      "Proof-bound withdrawal proofContextHash does not match public inputs"

/-- The argument of the two preflights of stage C, beside the context. -/
structure StageCInput where
  noteAmount : ℕ
  changeCommitment : Text
  changeAmount : ℤ
  encryptedChangeNote : Text
  encryptedNoteHash : Text
  proofContextHash : Text
  relayerPolicyHash : Option Text

/-- What is found wrong before the hashes of a change note are computed. -/
def changeNoteErrors (context : StageContext) (input : StageCInput) : List String :=
  errorWhen (context.selector ≠ withdrawBoundedSelector)
      "Private-change withdrawal selector must be the bounded private-change selector" ++
  errorWhen (¬isHexBytes32 input.changeCommitment ∨ lower input.changeCommitment = zeroBytes32)
      "Private change commitment must be a nonzero bytes32 value" ++
  errorWhen (¬isHexString input.encryptedChangeNote ∨ input.encryptedChangeNote = "0x".toList)
      "Encrypted private change note must be nonempty even-length hex" ++
  errorWhen (isHexString input.encryptedChangeNote ∧
        hexByteLength input.encryptedChangeNote > maxEncryptedNoteBytes)
      "Encrypted private change note exceeds relayer policy maximum" ++
  errorWhen (input.changeAmount ≤ 0) "Private change amount must be positive" ++
  errorWhen (context.fee > context.grossAmount)
      "Private-change withdrawal fee cannot exceed public gross amount" ++
  errorWhen ((input.noteAmount : ℤ) ≠ context.grossAmount + input.changeAmount)
      ("Private-change withdrawal value conservation must satisfy " ++
        "noteAmount = grossAmount + changeAmount")

/-- **`validateStageCWithdrawChangeNotePreflight`**, which the relay calls with one change output:
the checks that the outputs are those of the call find nothing. -/
def validateStageCWithdrawChangeNotePreflight (context : StageContext) (input : StageCInput) :
    Throws (List String) :=
  let errors := changeNoteErrors context input
  if errors ≠ [] then .ok errors
  else do
    let encryptedNoteHash ← computeStageCContractBoundEncryptedChangeNoteHash v context
      input.changeCommitment input.changeAmount.toNat input.encryptedChangeNote
    let relayerPolicyHash ← computeStageBRelayerPolicyHash v context.relayerPolicy
    let proofContextHash ← context.proofContextHash v encryptedNoteHash relayerPolicyHash.hash
    return errorWhen (differs encryptedNoteHash input.encryptedNoteHash)
        "Private change note hash does not match preflight context" ++
      policyHashErrors relayerPolicyHash.hash
        "Private-change withdrawal relayerPolicyHash does not match relayer policy"
        input.relayerPolicyHash ++
      errorWhen (differs proofContextHash input.proofContextHash)
        "Private-change withdrawal proofContextHash does not match preflight context"

/-- **`validateStageCFullExitPreflight`**. -/
def validateStageCFullExitPreflight (context : StageContext) (input : StageCInput) :
    Throws (List String) := do
  let encryptedNoteHash ← computeStageBContractBoundEncryptedNoteHash v context input.noteAmount
  let relayerPolicyHash ← computeStageBRelayerPolicyHash v context.relayerPolicy
  let proofContextHash ← context.proofContextHash v encryptedNoteHash relayerPolicyHash.hash
  return errorWhen (context.selector ≠ withdrawBoundedSelector)
      "Stage C full-exit withdrawal selector must be the bounded unified selector" ++
    errorWhen (lower input.changeCommitment ≠ zeroBytes32)
      "Stage C full exits must not create a private change commitment" ++
    errorWhen (lower input.encryptedChangeNote ≠ "0x".toList)
      "Stage C full exits must not include encrypted private change note bytes" ++
    errorWhen (input.changeAmount ≠ 0) "Stage C full exits must have zero private change amount" ++
    errorWhen (context.fee > context.grossAmount)
      "Stage C full-exit withdrawal fee cannot exceed public gross amount" ++
    errorWhen (input.noteAmount ≠ context.grossAmount)
      "Stage C full-exit value conservation must satisfy noteAmount = grossAmount" ++
    errorWhen (differs encryptedNoteHash input.encryptedNoteHash)
      "Stage C full-exit encrypted-note hash does not match public inputs" ++
    policyHashErrors relayerPolicyHash.hash
      "Stage C full-exit relayerPolicyHash does not match relayer policy" input.relayerPolicyHash ++
    errorWhen (differs proofContextHash input.proofContextHash)
      "Stage C full-exit proofContextHash does not match public inputs"

end Preflight

/-! ### The decision -/

/-- The kinds of calls, as the relay tells them apart. -/
structure Stages where
  isStageC : Bool
  isStageB : Bool
  isBoundedFullExit : Bool

def stagesOf (call : WithdrawalRelayCall) : Stages where
  isStageC := call.hasChangeNote
  isStageB := call.relayerPolicy.isSome && !call.hasChangeNote
  isBoundedFullExit := decide (call.selector = withdrawFullExitSelector) && !call.hasChangeNote

/-- The values of a call that the checks compare. -/
structure Checked where
  expectedPool : Text
  expectedDestination : Text
  expectedFee : ℕ
  publicGrossAmount : ℕ
  publicFee : ℕ
  publicChainId : ℕ
  noteAmount : ℕ

section Errors
variable (request : WithdrawalRelayCalldataValidationInput) (call : WithdrawalRelayCall)
  (c : Checked)

/-- The public inputs of the proof-bound calls are twelve. -/
def lengthErrors : List String :=
  let stages := stagesOf call
  if stages.isStageC then
    errorWhen (call.publicInputs.length ≠ 12)
      "Private-change withdrawal calldata must include exactly 12 public inputs"
  else if stages.isStageB ∨ stages.isBoundedFullExit then
    errorWhen (call.publicInputs.length ≠ 12)
      "Proof-bound withdrawal calldata must include exactly 12 public inputs"
  else errorWhen (call.publicInputs.length ≠ 10)
    "withdrawal calldata must include exactly 10 public inputs"

/-- What is wrong with the public inputs that repeat the arguments. -/
def publicInputErrors : List String :=
  errorWhen (∃ publicInput ∈ call.publicInputs, ¬isHexBytes32 publicInput)
      "withdrawal public inputs must be bytes32 values" ++
  errorWhen (differs call.nullifier (call.publicInputText 1))
      "withdrawal nullifier does not match public inputs" ++
  errorWhen (lower call.nullifier = zeroBytes32) "withdrawal nullifier must be nonzero" ++
  errorWhen (differs (call.publicInputText 3) c.expectedDestination)
      "withdrawal destination does not match public inputs" ++
  errorWhen (c.publicGrossAmount ≠ call.grossAmount)
      "withdrawal gross amount does not match public inputs"

/-- What is wrong with the fee. -/
def feeErrors : List String :=
  errorWhen (c.publicFee ≠ c.expectedFee)
      (if request.feePolicy.isSome then "withdrawal fee does not match active fee policy"
      else "withdrawal fee does not match relayer fee policy") ++
  request.feePolicy.elim [] fun policy =>
    validateWithdrawalFeePolicy policy call.grossAmount c.publicFee request.deadlineEpochSeconds

/-- What is wrong with the chain, the pool and the note that is spent. -/
def placeErrors : List String :=
  errorWhen (c.publicChainId ≠ request.chainId)
      "withdrawal proof chain ID does not match relayer chain" ++
  errorWhen (differs (call.publicInputText 7) c.expectedPool)
      "withdrawal proof pool does not match relayer pool" ++
  errorWhen (lower (call.publicInput 8) = zeroBytes32)
      "withdrawal spent commitment must be nonzero" ++
  errorWhen (lower call.destination = zeroAddress) "withdrawal destination must be nonzero"

/-- What is wrong with the amounts. -/
def amountErrors : List String :=
  errorWhen (call.grossAmount = 0) "withdrawal gross amount must be positive" ++
  errorWhen (c.noteAmount = 0) "withdrawal note amount must be positive" ++
  errorWhen (c.noteAmount ∉ supportedFixedDenominations)
      "withdrawal note amount must be a supported fixed denomination" ++
  errorWhen (call.grossAmount ∉ supportedFixedDenominations)
      "withdrawal gross amount must be a supported fixed denomination" ++
  errorWhen (call.grossAmount > c.noteAmount)
      "withdrawal gross amount cannot exceed note amount"

/-- What is wrong with a call that keeps no change. -/
def exitErrors : List String :=
  errorWhen (¬call.hasChangeNote ∧ call.grossAmount ≠ c.noteAmount)
      ("Public exits without private change must withdraw the full " ++
        "fixed-denomination note") ++
  errorWhen (¬call.hasChangeNote ∧ lower (call.publicInput 2) ≠ zeroBytes32)
      "Public exits without private change must not create new commitments" ++
  errorWhen (¬call.hasChangeNote ∧ call.encryptedChangeNote.isSome)
      "Public exits without private change must not include encrypted change notes"

/-- What is wrong with the bounds of the user. -/
def boundErrors : List String :=
  if call.hasUserBounds then
    errorWhen (c.expectedFee > call.maxFeeAmount.getD 0)
        "withdrawal fee exceeds user max fee bound" ++
    errorWhen ((call.grossAmount : ℤ) - c.expectedFee < call.minNetAmount.getD 0)
        "withdrawal net amount is below user minimum bound" ++
    errorWhen (call.maxFeeAmount.getD 0 > call.grossAmount)
        "withdrawal user max fee bound cannot exceed gross amount"
  else ["Public exit relayer requests require user minNetAmount and maxFeeAmount bounds"]

/-- What is wrong with the length of a change note. -/
def changeNoteLengthErrors : List String :=
  call.encryptedChangeNote.elim [] fun note =>
    errorWhen (note ≠ [] ∧ hexByteLength note > maxEncryptedNoteBytes)
      "withdrawal encrypted change note exceeds relayer policy maximum"

end Errors

section Code
variable (v : Viem) (request : WithdrawalRelayCalldataValidationInput) (call : WithdrawalRelayCall)

/-- The context of a call, for a policy. -/
def contextOf (expectedFee : ℕ) (relayerPolicy : RelayerPolicyInput) : StageContext where
  chainId := request.chainId
  pool := request.pool
  selector := call.selector
  root := call.publicInput 0
  nullifier := call.nullifier
  destination := call.destination
  grossAmount := call.grossAmount
  fee := expectedFee
  relayerPolicy := relayerPolicy
  proofContextShape := selectWithdrawalProofContextShape v request.feePolicy

def stageBErrors (c : Checked) : Throws (List String) :=
  match call.hasChangeNote, call.relayerPolicy with
  | false, some relayerPolicy => validateStageBWithdrawalPreflight v request call
      (contextOf v request call c.expectedFee relayerPolicy) c.noteAmount
  | _, _ => .ok []

def boundedFullExitErrors (c : Checked) : Throws (List String) :=
  if (stagesOf call).isBoundedFullExit then validateBoundedFullExitPreflight v call
    (contextOf v request call c.expectedFee (createStageCRelayerPolicy call)) c.noteAmount
  else .ok []

/-- A call of stage C that keeps nothing is a full exit. -/
def stageCErrors (c : Checked) : Throws (List String) :=
  let changeCommitment := call.publicInput 2
  let changeAmount := (c.noteAmount : ℤ) - call.grossAmount
  let encryptedChangeNote := call.encryptedChangeNote.getD "0x".toList
  let isUnifiedFullExit := changeAmount = 0 ∧ lower changeCommitment = zeroBytes32 ∧
    lower encryptedChangeNote = "0x".toList
  let context := contextOf v request call c.expectedFee (createStageCRelayerPolicy call)
  let input : StageCInput :=
    { noteAmount := c.noteAmount, changeCommitment, changeAmount, encryptedChangeNote
      encryptedNoteHash := call.publicInput 11, proofContextHash := call.publicInput 10
      relayerPolicyHash := request.expectedRelayerPolicyHash }
  if ¬call.hasChangeNote then .ok []
  else if isUnifiedFullExit then validateStageCFullExitPreflight v context input
  else do
    let errors ← validateStageCWithdrawChangeNotePreflight v context input
    return errorWhen (changeAmount ∉ supportedFixedDenominations.map fun n : ℕ => (n : ℤ))
      "Private change amount must be a supported fixed denomination" ++ errors

/-- **`validateWithdrawalRelayCalldata`** from where the mode is v1.1. -/
def validateV11WithdrawalRelayCall : Throws WithdrawalRelayCalldataValidation := do
  let expectedPool ← addressToBytes32 v request.pool
  let expectedDestination ← addressToBytes32 v call.destination
  let expectedFee := calculateWithdrawalFee call.grossAmount
    (request.feePolicy.map (·.activeFeeBps))
  let publicFee ← bytes32ToBigInt (call.publicInput 5)
  let noteAmount ← bytes32ToBigInt (call.publicInput 9)
  let publicGrossAmount ← bytes32ToBigInt (call.publicInput 4)
  let publicChainId ← bytes32ToBigInt (call.publicInput 6)
  let c : Checked := { expectedPool, expectedDestination, expectedFee, publicGrossAmount
                       publicFee, publicChainId, noteAmount }
  let stageB ← stageBErrors v request call c
  let boundedFullExit ← boundedFullExitErrors v request call c
  let stageC ← stageCErrors v request call c
  let errors := lengthErrors call ++ publicInputErrors call c ++ feeErrors request call c ++
    placeErrors request call c ++ amountErrors call c ++ exitErrors call c ++ boundErrors call c ++
    changeNoteLengthErrors call ++ stageB ++ boundedFullExit ++ stageC
  return { allowed := decide (errors = []), errors := errors, decoded := some call }

end Code

end Nullark.Relay.StageCalls
