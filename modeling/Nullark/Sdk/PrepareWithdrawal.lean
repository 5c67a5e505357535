import Nullark.Sdk.CalldataBinding
import Nullark.Sdk.PublicInputBinding
import Nullark.Sdk.Runtime

/-! # Preparing a withdrawal

A client asks a local prover for the proof of a withdrawal, compares what it returns with the
request, and encodes the call of the pool. The prover is trusted: it gets the secrets of the note.
In v1.2 the note is not among the public inputs, and what is compared are the request, the runtime
and the rate of the fee.

* `assertWithdrawalProofMatchesRuntime_eq_ok`: what the prover may return in v1.2.
* `createV12UnlinkableWithdrawalPlan_ok`: the calldata of a plan.
* `prepared_calldata`: what a plan says, whatever the prover returns. -/

namespace Nullark.Sdk.PrepareWithdrawal

open Nullark.Lib Nullark.Lib.Outcome Nullark.Lib.AbiTuple
open Nullark.Lib.Hex hiding value Digits ofNat
open Nullark.Core.Proofs (maxSafeInteger)
open Nullark.Evm.Basic Nullark.Pool.Interface
open Nullark.Pool.Actions (input outputNote)
open Nullark.Pool.Calls (boundsPolicy)
open Nullark.Pool.Checks (BindingsChecked)
open Nullark.Pool.Context (Env withdrawContextShape encryptedOutputNoteHash)
open Nullark.Js.Basic Nullark.Js.Bytes Nullark.Js.Numbers Nullark.Js.Package Nullark.Js.Calldata
open Nullark.Js.SpendMaterial (isBn254FieldElement isBn254FieldElement_hex32
  spendMaterialVersion)
open Nullark.Js.ContextHashes (zeroBytes32 word_ne_zero_iff)
open Nullark.Relay.WithdrawalCall (StageCArguments stageCWithdrawBoundedParameters length_stageC)
open Nullark.Sdk.Calldata Nullark.Sdk.CalldataBinding Nullark.Sdk.PublicInputBinding
open Nullark.Sdk.RecoveryKit (RecoveredWalletNote PrintableRecoveredNoteSummary)
open Nullark.Sdk.Runtime

/-! ### Proofs and plans -/

structure WithdrawalProofBundle where
  proof : Text
  publicInputs : List Text
  nullifier : Text
  currentRoot : Text

/-- What the prover returns. -/
structure ProverOutput extends WithdrawalProofBundle where
  encryptedChangeNote : Option Text
  changeCommitment : Option Text
  encryptedOutputNote : Option Text
  outputCommitment : Option Text

/-- The prover gets the selected note, with its secrets. -/
structure ProverInput where
  runtime : NullarkCurrentRuntime
  note : RecoveredWalletNote
  destination : Text
  grossAmountWei : Text
  feeWei : Text
  netAmountWei : Text
  proofContextShape : Text
  route : Text

abbrev LocalWithdrawalProver := ProverInput → Throws ProverOutput

/-- `WithdrawalPlanInput` and `V12UnlinkableWithdrawalPlanInput`. -/
structure WithdrawalPlanInput extends ProverOutput where
  runtime : NullarkCurrentRuntime
  destination : Text
  grossAmountWei : Text
  minNetAmountWei : Text
  maxFeeWei : Text

/-- `RelayerTransactionRequest`; the contract it goes to is the target. -/
structure RelayerTransactionRequest where
  chainId : ℕ
  target : Text
  value : Text
  data : Text
  deadlineEpochSeconds : ℕ

structure PreparedTransactionRequest where
  chainId : ℕ
  target : Text
  value : ℕ
  data : Text

structure WithdrawalPlan where
  chainId : ℕ
  pool : Text
  calldata : Text
  relayerRequest : RelayerTransactionRequest
  directWalletTransaction : PreparedTransactionRequest

/-! ### The calldata of a plan -/

def WithdrawalPlanInput.bounded (i : WithdrawalPlanInput) : WithdrawBoundedCalldataInput where
  proof := i.proof
  publicInputs := i.publicInputs
  nullifier := i.nullifier
  destination := i.destination
  grossAmountWei := i.grossAmountWei
  minNetAmountWei := i.minNetAmountWei
  maxFeeWei := i.maxFeeWei

def WithdrawalPlanInput.noted (i : WithdrawalPlanInput) (encryptedOutputNote : Text) :
    V12UnlinkableWithdrawOutputNoteCalldataInput :=
  { i.bounded with encryptedOutputNote }

/-- What the public inputs are compared with, for the commitment a version names. -/
def WithdrawalPlanInput.binding (i : WithdrawalPlanInput) (commitment : Option Text) :
    V12UnlinkableWithdrawPublicInputBinding where
  publicInputs := i.publicInputs
  nullifier := i.nullifier
  destination := i.destination
  grossAmountWei := i.grossAmountWei
  currentRoot := i.currentRoot
  outputCommitment := commitment
  expectedPool := i.runtime.pool
  expectedChainId := i.runtime.chainId

/-- `assertWithdrawPublicInputBinding`, of v1.1. -/
def assertWithdrawPublicInputBinding (b : V12UnlinkableWithdrawPublicInputBinding) :
    Throws Unit := do
  let inputs ← assertPublicInputs b.publicInputs
  let expectedRoot ← assertBytes32 b.currentRoot "Expected current root to be bytes32 hex."
  let expectedNullifier ← assertBytes32 b.nullifier "Expected a 32-byte nullifier."
  let expectedDestination ← assertAddress (trim b.destination)
  let expectedGrossAmount ← normalizeDecimalUint256 b.grossAmountWei
    "Expected gross amount wei as a decimal integer."
  let pool ← assertAddress b.expectedPool
  ensure (¬(b.expectedChainId ≠ megaethMainnetChainId ∧ b.expectedChainId ≠ megaethTestnetChainId))
    "Expected withdrawal proof chain ID to be MegaETH mainnet or testnet."
  ensure (lower (slot inputs 0) = lower expectedRoot)
    "Withdrawal proof root does not match the current pool root."
  ensure (lower (slot inputs 1) = lower expectedNullifier)
    "Withdrawal nullifier does not match public inputs."
  ensure (¬(slot inputs 2 ≠ zeroBytes32 ∧ ¬isBn254FieldElement (slot inputs 2)))
    "Withdrawal change commitment is not a nonzero BN254 field element."
  ensure (∀ changeCommitment ∈ b.outputCommitment,
      lower (slot inputs 2) = lower (trim changeCommitment))
    "Withdrawal change commitment does not match public inputs."
  ensure (lower (bytes32ToEvmAddress (slot inputs 3)) = lower expectedDestination)
    "Withdrawal destination does not match public inputs."
  ensure (hexNat (slot inputs 4) = expectedGrossAmount)
    "Withdrawal amount does not match public inputs."
  ensure (hexNat (slot inputs 6) = b.expectedChainId)
    "Withdrawal proof is not bound to the active MegaETH chain."
  ensure (lower (bytes32ToEvmAddress (slot inputs 7)) = lower pool)
    "Withdrawal proof is not bound to this shielded pool."
  ensure (isBn254FieldElement (slot inputs 8))
    "Withdrawal spent commitment is not a nonzero BN254 field element."
  ensure (hexNat (slot inputs 9) ≠ 0) "Withdrawal note amount must be positive."
  ensure (¬(slot inputs 10 = zeroBytes32 ∨ slot inputs 11 = zeroBytes32))
    "Withdrawal proof must bind nonzero proof context and encrypted note hashes."

section Code
variable (v : Viem) (d : Decoder)

def encodeWithdrawBoundedCalldata (input : WithdrawBoundedCalldataInput) : Throws Text := do
  let normalized ← normalizeWithdrawInput input assertPublicInputs
  encodeFunctionData v stageCWithdrawBoundedSelector (stageCValues normalized "0x".toList)

def encodeStageCWithdrawChangeNoteCalldata (input : WithdrawBoundedCalldataInput)
    (encryptedChangeNote : Text) : Throws Text := do
  let normalized ← normalizeWithdrawInput input assertPublicInputs
  let encryptedChangeNote ← normalizeHexBytes encryptedChangeNote
    "Expected proof and encrypted change note to be even-length hex bytes."
  encodeFunctionData v stageCWithdrawBoundedSelector (stageCValues normalized encryptedChangeNote)

/-- `encodeVerifiedWithdrawBoundedCalldata` or `encodeVerifiedStageCWithdrawChangeNoteCalldata`. -/
def encodeVerifiedWithdrawCalldata (i : WithdrawalPlanInput) : Throws Text := do
  assertWithdrawPublicInputBinding (i.binding i.changeCommitment)
  match i.encryptedChangeNote with
  | none => encodeWithdrawBoundedCalldata v i.bounded
  | some encryptedChangeNote =>
    encodeStageCWithdrawChangeNoteCalldata v i.bounded encryptedChangeNote

/-- **`encodeVerifiedV12UnlinkableWithdrawOutputNoteCalldata`**. -/
def encodeVerifiedV12UnlinkableWithdrawOutputNoteCalldata (i : WithdrawalPlanInput)
    (encryptedOutputNote : Text) : Throws Text := do
  assertV12UnlinkableWithdrawPublicInputBinding (i.binding i.outputCommitment)
  encodeV12UnlinkableWithdrawOutputNoteCalldata v (i.noted encryptedOutputNote)

/-! ### Requests -/

def decodeV12UnlinkableWithdrawOutputNoteCalldata (value : Text) :
    Throws DecodedStageCWithdrawCalldata := do
  let decoded ← decodeStageCWithdrawCalldata v d value
  let publicInputs ← assertV12UnlinkableWithdrawPublicInputs decoded.publicInputs
  let encryptedOutputNote ← normalizeHexBytes decoded.encryptedChangeNote
    "Expected proof and encrypted output note to be even-length hex bytes."
  ensure (encryptedOutputNote ≠ "0x".toList)
    "Expected v1.2 encrypted output note to be always-present nonempty hex bytes."
  return { decoded with publicInputs, encryptedChangeNote := encryptedOutputNote }

def assertPool (value : Text) : Throws Text := do
  ensure (isEvmAddress value) "Runtime pool must be an EVM address."
  return value

def usesV12UnlinkableWithdrawals (runtime : NullarkCurrentRuntime) : Prop :=
  runtime.groth16PublicInputOrder = nullarkWithdrawPublicInputOrderV12

instance (runtime : NullarkCurrentRuntime) : Decidable (usesV12UnlinkableWithdrawals runtime) :=
  inferInstanceAs (Decidable (_ = _))

def assertRuntimeWithdrawalCalldata (runtime : NullarkCurrentRuntime) (calldata : Text) :
    Throws Text :=
  if usesV12UnlinkableWithdrawals runtime then
    (decodeV12UnlinkableWithdrawOutputNoteCalldata v d calldata).mapError (fun message =>
      "Expected v1.2 unlinkable withdrawal calldata with 10 public inputs and an encrypted output " ++
        "note. " ++ message) >>= fun _ => .ok calldata
  else decodeStageCWithdrawCalldata v d calldata >>= fun _ => .ok calldata

/-- `buildWithdrawalRelayerRequest`, with the deadline it has by default. -/
def buildWithdrawalRelayerRequest (runtime : NullarkCurrentRuntime) (calldata : Text) (now : ℕ) :
    Throws RelayerTransactionRequest := do
  let deadlineSeconds := 120
  ensure (now ≤ maxSafeInteger ∧ 0 < now) "Current epoch seconds must be a positive safe integer."
  let target ← assertPool runtime.pool
  let data ← assertRuntimeWithdrawalCalldata v d runtime calldata
  return { chainId := runtime.chainId, target, value := "0x0".toList, data
           deadlineEpochSeconds := now + deadlineSeconds }

def buildDirectWalletWithdrawalTransaction (runtime : NullarkCurrentRuntime) (calldata : Text) :
    Throws PreparedTransactionRequest := do
  let target ← assertPool runtime.pool
  let data ← assertRuntimeWithdrawalCalldata v d runtime calldata
  return { chainId := runtime.chainId, target, value := 0, data }

/-- `createWithdrawalPlan` and `createV12UnlinkableWithdrawalPlan`, behind the calldata. -/
def planOf (i : WithdrawalPlanInput) (now : ℕ) (calldata : Text) : Throws WithdrawalPlan := do
  let relayerRequest ← buildWithdrawalRelayerRequest v d i.runtime calldata now
  let directWalletTransaction ← buildDirectWalletWithdrawalTransaction v d i.runtime calldata
  return { chainId := i.runtime.chainId, pool := i.runtime.pool, calldata, relayerRequest
           directWalletTransaction }

def createWithdrawalPlan (i : WithdrawalPlanInput) (now : ℕ) : Throws WithdrawalPlan :=
  encodeVerifiedWithdrawCalldata v i >>= planOf v d i now

def createV12UnlinkableWithdrawalPlan (i : WithdrawalPlanInput) (encryptedOutputNote : Text)
    (now : ℕ) : Throws WithdrawalPlan :=
  encodeVerifiedV12UnlinkableWithdrawOutputNoteCalldata v i encryptedOutputNote >>= planOf v d i now

/-- **`createWithdrawalPlanForRuntime`**. -/
def createWithdrawalPlanForRuntime (i : WithdrawalPlanInput) (now : ℕ) : Throws WithdrawalPlan :=
  if ¬isV12UnlinkableRuntime i.runtime then createWithdrawalPlan v d i now
  else
    match i.encryptedOutputNote with
    | none => .error "v1.2 withdrawal prover must return encryptedOutputNote."
    | some encryptedOutputNote => createV12UnlinkableWithdrawalPlan v d i encryptedOutputNote now

end Code

/-! ### The proof and the runtime -/

def publicInputIndex (publicInputOrder : List PublicInputName) (name : PublicInputName) : Throws ℕ :=
  if name ∈ publicInputOrder then .ok (publicInputOrder.idxOf name)
  else .error ("Nullark runtime is missing Groth16 public input " ++ name.text ++ ".")

/-- The public input of a name; there may be fewer inputs than names. -/
def publicInputText (proof : WithdrawalProofBundle) (publicInputOrder : List PublicInputName)
    (name : PublicInputName) : Throws (Option Text) := do
  let index ← publicInputIndex publicInputOrder name
  return proof.publicInputs[index]?

def publicInputValue (proof : WithdrawalProofBundle) (publicInputOrder : List PublicInputName)
    (name : PublicInputName) : Throws Text := do
  let value ← publicInputText proof publicInputOrder name
  ensure (∃ t ∈ value, isHexBytes32 t)
    ("Withdrawal proof " ++ name.text ++ " public input must be bytes32.")
  return value.getD []

/-- `BigInt` of a value that may not be a text, compared with `BigInt` of another; an error of
either is a mismatch. -/
def sameInteger (value : Option Text) (expected : Text) : Bool :=
  match value.bind fun t => integerOfText (trim t), integerOfText (trim expected) with
  | some a, some b => a = b
  | _, _ => false

/-- The checks that only v1.1 makes, of the selected note. -/
def assertSpendsNote (proof : WithdrawalProofBundle) (note : RecoveredWalletNote)
    (publicInputOrder : List PublicInputName) : Throws Unit := do
  let proofSpentCommitment ← publicInputText proof publicInputOrder .spentCommitment
  ensure (proofSpentCommitment.map lower = some (lower note.summary.commitment))
    "Withdrawal proof is not bound to the selected recovered note commitment."
  let proofNoteAmount ← publicInputText proof publicInputOrder .noteAmount
  ensure (sameInteger proofNoteAmount note.summary.amountWei = true)
    "Withdrawal proof is not bound to the selected recovered note amount."

/-- **`assertWithdrawalProofMatchesRuntime`**. -/
def assertWithdrawalProofMatchesRuntime (proof : WithdrawalProofBundle) (note : RecoveredWalletNote)
    (runtime : NullarkCurrentRuntime) (destination grossAmountWei expectedFeeWei : Text) :
    Throws Unit := do
  let publicInputOrder := runtime.groth16PublicInputOrder
  ensure (proof.publicInputs.length = publicInputOrder.length)
    "Withdrawal proof public input count does not match the active runtime."
  let proofRoot ← publicInputValue proof publicInputOrder .root
  ensure (lower proofRoot = lower proof.currentRoot)
    "Withdrawal proof root does not match the current pool root."
  let proofNullifier ← publicInputValue proof publicInputOrder .nullifier
  ensure (lower proofNullifier = lower proof.nullifier)
    "Withdrawal nullifier does not match public inputs."
  let proofDestination ← publicInputValue proof publicInputOrder .destination
  ensure (lower (bytes32ToEvmAddress proofDestination) = lower destination)
    "Withdrawal destination does not match public inputs."
  let proofGrossAmount ← publicInputValue proof publicInputOrder .grossAmount
  let grossAmount ← stringToBigInt grossAmountWei
  ensure ((hexNat proofGrossAmount : ℤ) = grossAmount)
    "Withdrawal amount does not match public inputs."
  let proofFee ← publicInputText proof publicInputOrder .fee
  ensure (sameInteger proofFee expectedFeeWei = true)
    "Withdrawal proof fee does not match the active runtime fee."
  let proofChainId ← publicInputValue proof publicInputOrder .chainId
  ensure (hexNat proofChainId = runtime.chainId)
    "Withdrawal proof is not bound to the active MegaETH chain."
  let proofVerifyingContract ← publicInputValue proof publicInputOrder .verifyingContract
  ensure (lower (bytes32ToEvmAddress proofVerifyingContract) = lower runtime.pool)
    "Withdrawal proof is not bound to this shielded pool."
  let proofContextHash ← publicInputValue proof publicInputOrder .proofContextHash
  ensure (proofContextHash ≠ zeroBytes32)
    "Withdrawal proof must bind a nonzero proof context hash."
  let encryptedNoteHash ← publicInputValue proof publicInputOrder
    (if isV12UnlinkableRuntime runtime then .encryptedOutputNoteHash else .encryptedNoteHash)
  ensure (encryptedNoteHash ≠ zeroBytes32)
    "Withdrawal proof must bind a nonzero encrypted note hash."
  -- in v1.2 the public inputs name neither the commitment that is spent nor its amount
  if isV12UnlinkableRuntime runtime then return () else assertSpendsNote proof note publicInputOrder

/-! ### The client -/

/-- **`Nullark`**, as far as it prepares withdrawals, with what it takes from elsewhere. -/
structure WithdrawalClient where
  viem : Viem
  decoder : Decoder
  isDate : Text → Bool
  isoDate : ℕ → Throws Text
  nowEpochSeconds : ℕ
  runtime : NullarkCurrentRuntime
  localWithdrawalProver : Option LocalWithdrawalProver
  runtimeFeeReadClient : Option FeeReadClient

structure WithdrawalRequest where
  noteId : Text
  amountWei : Text
  destination : Text
  route : Text
  maxFeeWei : Option Text
  minNetAmountWei : Option Text

structure PublicEvidence where
  chainId : ℕ
  pool : Text
  noteId : Text
  destination : Text
  grossAmountWei : Text
  route : Text

structure PreparedNullarkWithdrawal where
  route : Text
  note : PrintableRecoveredNoteSummary
  grossAmountWei : Text
  feeWei : Text
  netAmountWei : Text
  plan : WithdrawalPlan
  publicEvidence : PublicEvidence

section Client
variable (client : WithdrawalClient)

def localProver : Throws LocalWithdrawalProver :=
  match client.localWithdrawalProver with
  | none => .error "withdrawals.prepare requires a local withdrawal prover adapter."
  | some prover => .ok prover

/-- `recoveredNotes.find`. -/
def selectedNote (recoveredNotes : List RecoveredWalletNote) (noteId : Text) :
    Throws RecoveredWalletNote :=
  match recoveredNotes.find? fun candidate => candidate.summary.id = noteId with
  | none => .error "Recovered note id is not available. Call notes.recover() first."
  | some note => .ok note

def resolveWithdrawalFeeState : Throws RuntimeWithdrawalFeeState :=
  match client.runtime.feePolicy, client.runtimeFeeReadClient with
  | none, _ => resolveRuntimeWithdrawalFeeState client.isDate client.runtime
  | some _, none =>
    .error "withdrawals.prepare requires a runtime fee read client for v1.2 fee-governed runtime."
  | some _, some feeRead =>
    readRuntimeWithdrawalFeeStateFromPool client.isDate client.isoDate client.runtime feeRead

def parseDecimalWei (value : Text) (message : String) : Throws ℕ := do
  ensure (Decimal.isDecimal value) message
  return Decimal.value value

/-- The bounds of the user, if there are any. -/
def assertUserBounds (request : WithdrawalRequest) (fee : ℕ) (netAmount : ℤ) : Throws Unit := do
  let maxFee ← request.maxFeeWei.mapM fun value =>
    parseDecimalWei value "Expected maximum fee as decimal wei."
  ensure (∀ bound ∈ maxFee, ¬fee > bound) "withdrawal fee exceeds user maximum"
  let minNetAmount ← request.minNetAmountWei.mapM fun value =>
    parseDecimalWei value "Expected minimum net amount as decimal wei."
  ensure (∀ bound ∈ minNetAmount, ¬netAmount < bound)
    "withdrawal net amount is below user minimum"

/-- The checks of a request, with the note it selects. -/
def assertRequest (recoveredNotes : List RecoveredWalletNote) (request : WithdrawalRequest) :
    Throws RecoveredWalletNote := do
  ensure (isEvmAddress request.destination)
    "Expected withdrawal destination to be an EVM address."
  ensure (request.route = "relayer".toList ∨ request.route = "wallet".toList)
    "Expected withdrawal route to be relayer or wallet."
  let note ← selectedNote recoveredNotes request.noteId
  ensure (note.summary.spent = false) "Recovered note is already spent."
  ensure (Decimal.isDecimal request.amountWei ∧ 0 < Decimal.value request.amountWei)
    "Expected withdrawal amount as positive decimal wei."
  let noteAmount ← stringToBigInt note.summary.amountWei
  ensure ((Decimal.value request.amountWei : ℤ) ≤ noteAmount)
    "Withdrawal amount exceeds the selected recovered note."
  return note

/-- What the prover is asked. -/
def proverInput (note : RecoveredWalletNote) (request : WithdrawalRequest)
    (feeState : RuntimeWithdrawalFeeState) (feeWei netAmountWei : Text) : ProverInput where
  runtime := runtimeWithWithdrawalFeeState client.runtime feeState
  note := note
  destination := request.destination
  grossAmountWei := request.amountWei
  feeWei := feeWei
  netAmountWei := netAmountWei
  proofContextShape := match feeState.source with
    | .onChainFeeBps => "v1.2-fee-governance".toList
    | .runtimeStaticV11 => "v1.1".toList
  route := request.route

/-- **`prepareWithdrawal`**. -/
def prepareWithdrawal (recoveredNotes : List RecoveredWalletNote) (request : WithdrawalRequest) :
    Throws PreparedNullarkWithdrawal := do
  let prover ← localProver client
  let note ← assertRequest recoveredNotes request
  let feeState ← resolveWithdrawalFeeState client
  let proofRuntime := runtimeWithWithdrawalFeeState client.runtime feeState
  let grossAmount := Decimal.value request.amountWei
  let fee := grossAmount * feeState.activeFeeBps / 10000
  let netAmount : ℤ := grossAmount - fee
  assertUserBounds request fee netAmount
  let feeWei := Decimal.ofNat fee
  let netAmountWei := toString10 netAmount
  let proof ← prover (proverInput client note request feeState feeWei netAmountWei)
  assertWithdrawalProofMatchesRuntime proof.toWithdrawalProofBundle note proofRuntime
    request.destination request.amountWei feeWei
  let plan ← createWithdrawalPlanForRuntime client.viem client.decoder
    { proof with
      runtime := proofRuntime, destination := request.destination
      grossAmountWei := request.amountWei, minNetAmountWei := netAmountWei, maxFeeWei := feeWei }
    client.nowEpochSeconds
  return {
    route := request.route
    note := note.summary
    grossAmountWei := request.amountWei
    feeWei, netAmountWei, plan
    publicEvidence := {
      chainId := client.runtime.chainId
      pool := client.runtime.pool
      noteId := note.summary.id
      destination := request.destination
      grossAmountWei := request.amountWei
      route := request.route } }

end Client

/-! ### What the prover may return -/

theorem mem_of_publicInputIndex {order : List PublicInputName} {name : PublicInputName} {index : ℕ} :
    publicInputIndex order name = .ok index ↔ name ∈ order ∧ index = order.idxOf name := by
  unfold publicInputIndex
  split_ifs with h
  · exact ⟨fun hok => ⟨h, (Except.ok.inj hok).symm⟩, fun hok => by rw [hok.2]⟩
  · exact ⟨fun hok => (nomatch hok), fun hok => absurd hok.1 h⟩

/-- A slot that is not there is no word. -/
theorem not_isHexBytes32_nil : ¬isHexBytes32 [] := by decide

section Values
variable {proof : WithdrawalProofBundle} {order : List PublicInputName} {name : PublicInputName}
  {index : ℕ} (hindex : publicInputIndex order name = .ok index)
include hindex

theorem publicInputText_eq_ok {value : Option Text} :
    publicInputText proof order name = .ok value ↔ value = proof.publicInputs[index]? := by
  unfold publicInputText
  rw [hindex, ok_bind, pure_eq_ok, eq_comm]

theorem publicInputValue_eq_ok {value : Text} :
    publicInputValue proof order name = .ok value ↔
      isHexBytes32 (slot proof.publicInputs index) ∧ value = slot proof.publicInputs index := by
  have hgetD : slot proof.publicInputs index = (proof.publicInputs[index]?).getD [] :=
    List.getD_eq_getElem?_getD
  have hword : (∃ t ∈ proof.publicInputs[index]?, isHexBytes32 t) ↔
      isHexBytes32 (slot proof.publicInputs index) := by
    rw [hgetD]
    cases proof.publicInputs[index]? with
    | none =>
      refine ⟨fun ⟨_, ht, _⟩ => absurd ht (Option.not_mem_none _), fun h => ?_⟩
      exact absurd h not_isHexBytes32_nil
    | some t => exact ⟨fun ⟨_, ht, h⟩ => Option.mem_some.mp ht ▸ h, fun h => ⟨t, rfl, h⟩⟩
  unfold publicInputValue
  simp only [bind_eq_ok, publicInputText_eq_ok hindex, ensure_eq_ok, exists_const, pure_eq_ok]
  constructor
  · rintro ⟨_, rfl, hok, rfl⟩
    exact ⟨hword.mp hok, hgetD.symm⟩
  · rintro ⟨hok, rfl⟩
    exact ⟨_, rfl, hword.mpr hok, hgetD.symm⟩

end Values

/-- **What the prover may return** in v1.2. -/
structure MatchesRuntime (proof : WithdrawalProofBundle) (runtime : NullarkCurrentRuntime)
    (destination grossAmountWei expectedFeeWei : Text) : Prop where
  length : proof.publicInputs.length = 10
  words : ∀ index ∈ [0, 1, 3, 4, 6, 7, 8, 9], isHexBytes32 (slot proof.publicInputs index)
  root : lower (slot proof.publicInputs 0) = lower proof.currentRoot
  nullifier : lower (slot proof.publicInputs 1) = lower proof.nullifier
  destination : lower (bytes32ToEvmAddress (slot proof.publicInputs 3)) = lower destination
  grossAmount : stringToBigInt grossAmountWei = .ok (hexNat (slot proof.publicInputs 4) : ℤ)
  fee : sameInteger proof.publicInputs[5]? expectedFeeWei = true
  chainId : hexNat (slot proof.publicInputs 6) = runtime.chainId
  verifyingContract :
    lower (bytes32ToEvmAddress (slot proof.publicInputs 7)) = lower runtime.pool
  contextHash_ne : slot proof.publicInputs 8 ≠ zeroBytes32
  noteHash_ne : slot proof.publicInputs 9 ≠ zeroBytes32

/-- **In v1.2 the selected note is not compared with anything.** -/
theorem assertWithdrawalProofMatchesRuntime_eq_ok {proof : WithdrawalProofBundle}
    {note : RecoveredWalletNote} {runtime : NullarkCurrentRuntime}
    {destination grossAmountWei expectedFeeWei : Text} {u : Unit}
    (h12 : isV12UnlinkableRuntime runtime) :
    assertWithdrawalProofMatchesRuntime proof note runtime destination grossAmountWei
        expectedFeeWei = .ok u ↔
      MatchesRuntime proof runtime destination grossAmountWei expectedFeeWei := by
  have horder : runtime.groth16PublicInputOrder = nullarkWithdrawPublicInputOrderV12 := h12.2.2
  have hindex : ∀ name index, name ∈ nullarkWithdrawPublicInputOrderV12 ∧
      index = nullarkWithdrawPublicInputOrderV12.idxOf name →
      publicInputIndex nullarkWithdrawPublicInputOrderV12 name = .ok index :=
    fun _ _ => mem_of_publicInputIndex.mpr
  have hroot := hindex .root 0 (by decide)
  have hnullifier := hindex .nullifier 1 (by decide)
  have hdestination := hindex .destination 3 (by decide)
  have hgross := hindex .grossAmount 4 (by decide)
  have hfee := hindex .fee 5 (by decide)
  have hchain := hindex .chainId 6 (by decide)
  have hcontract := hindex .verifyingContract 7 (by decide)
  have hcontext := hindex .proofContextHash 8 (by decide)
  have hnote := hindex .encryptedOutputNoteHash 9 (by decide)
  unfold assertWithdrawalProofMatchesRuntime
  simp only [horder, if_pos h12, bind_eq_ok, ensure_eq_ok, exists_const,
    publicInputValue_eq_ok hroot, publicInputValue_eq_ok hnullifier,
    publicInputValue_eq_ok hdestination, publicInputValue_eq_ok hgross, publicInputText_eq_ok hfee,
    publicInputValue_eq_ok hchain, publicInputValue_eq_ok hcontract,
    publicInputValue_eq_ok hcontext, publicInputValue_eq_ok hnote, pure_eq_ok]
  constructor
  · rintro ⟨hlength, _, ⟨w0, rfl⟩, h0, _, ⟨w1, rfl⟩, h1, _, ⟨w3, rfl⟩, h3, _, ⟨w4, rfl⟩, _, hgross,
      rfl, _, rfl, h5, _, ⟨w6, rfl⟩, h6, _, ⟨w7, rfl⟩, h7, _, ⟨w8, rfl⟩, h8, _, ⟨w9, rfl⟩, h9, -⟩
    refine ⟨hlength, ?_, h0, h1, h3, hgross, h5, h6, h7, h8, h9⟩
    simp only [List.forall_mem_cons]
    exact ⟨w0, w1, w3, w4, w6, w7, w8, w9, fun _ hx => absurd hx List.not_mem_nil⟩
  · rintro ⟨hlength, hwords, h0, h1, h3, hgross, h5, h6, h7, h8, h9⟩
    simp only [List.forall_mem_cons] at hwords
    obtain ⟨w0, w1, w3, w4, w6, w7, w8, w9, -⟩ := hwords
    exact ⟨hlength, _, ⟨w0, rfl⟩, h0, _, ⟨w1, rfl⟩, h1, _, ⟨w3, rfl⟩, h3, _, ⟨w4, rfl⟩, _, hgross,
      rfl, _, rfl, h5, _, ⟨w6, rfl⟩, h6, _, ⟨w7, rfl⟩, h7, _, ⟨w8, rfl⟩, h8, _, ⟨w9, rfl⟩, h9, trivial⟩

/-! ### What a plan says -/

/-- A text of hex digits that is not `0x` has bytes. -/
theorem hexBytes_ne_nil {t : Text} (h : isHexString t) (hne : t ≠ "0x".toList) :
    hexBytes t ≠ [] := by
  intro hnil
  have hlower := hexText_hexBytes h
  rw [hnil] at hlower
  obtain ⟨digits, rfl, -, -⟩ := isHexString_iff.mp h
  rw [lower_cons_hex] at hlower
  have hdigits : lower digits = [] := (List.cons.inj (List.cons.inj hlower).2).2.symm
  exact hne (congrArg (fun rest => '0' :: 'x' :: rest) (List.map_eq_nil_iff.mp hdigits))

section Plan
variable {v : Viem} {d : Decoder} {keccak : Bytes → Bytes32} {i : WithdrawalPlanInput}
  {encryptedOutputNote : Text} {now : ℕ}

/-- **The public inputs bound the amount.** -/
theorem grossAmount_lt_of_agrees {commitment : Option Text} (h : Agrees (i.binding commitment)) :
    Decimal.value (trim i.grossAmountWei) < 2 ^ 256 := by
  have hword : isHexBytes32 (slot i.publicInputs 4) := (h.input_words (by decide : 4 < 10)).2
  have hgross : hexNat (slot i.publicInputs 4) = Decimal.value (trim i.grossAmountWei) :=
    h.grossAmount
  rw [← hgross, ← toNat_word hword]
  exact (word (slot i.publicInputs 4)).isLt

/-- **The calldata that is encoded** for a plan. -/
theorem encodeVerified_eq_ok (hv : Documented v keccak) {data : Text} :
    encodeVerifiedV12UnlinkableWithdrawOutputNoteCalldata v i encryptedOutputNote = .ok data ↔
      Agrees (i.binding i.outputCommitment) ∧ Encodes v (i.noted encryptedOutputNote) ∧
        data = calldata (i.noted encryptedOutputNote) := by
  unfold encodeVerifiedV12UnlinkableWithdrawOutputNoteCalldata
  simp only [bind_eq_ok, assertV12UnlinkableWithdrawPublicInputBinding_eq_ok, exists_const]
  refine and_congr_right fun hagrees => ?_
  have hgross : Decimal.value (trim (i.noted encryptedOutputNote).grossAmountWei) < 2 ^ 256 :=
    grossAmount_lt_of_agrees hagrees
  exact encode_eq_ok hv hgross

/-- **The two requests of a plan** carry its calldata to the pool of a runtime. -/
structure Carries (runtime : NullarkCurrentRuntime) (plan : WithdrawalPlan) : Prop where
  place : plan.chainId = runtime.chainId ∧ plan.pool = runtime.pool
  relayer : plan.relayerRequest.chainId = runtime.chainId ∧
    plan.relayerRequest.target = runtime.pool ∧ plan.relayerRequest.data = plan.calldata
  wallet : plan.directWalletTransaction.chainId = runtime.chainId ∧
    plan.directWalletTransaction.target = runtime.pool ∧
    plan.directWalletTransaction.value = 0 ∧ plan.directWalletTransaction.data = plan.calldata

theorem assertPool_eq_ok {value r : Text} :
    assertPool value = .ok r ↔ isEvmAddress value ∧ r = value := by
  simp only [assertPool, bind_eq_ok, ensure_eq_ok, pure_eq_ok, exists_const, @eq_comm _ r]

/-- What is decoded in v1.2. -/
theorem decodeV12_eq_ok (hv : Documented v keccak) {data : Text}
    {c : DecodedStageCWithdrawCalldata} (hc : decodeStageCWithdrawCalldata v d data = .ok c) :
    (∃ r, decodeV12UnlinkableWithdrawOutputNoteCalldata v d data = .ok r) ↔
      c.publicInputs.length = 10 ∧ c.encryptedChangeNote ≠ "0x".toList := by
  obtain ⟨-, -, -, ⟨_, publicInputs, _, _, _, note, _, _, ⟨⟩⟩, -, -, rfl⟩ :=
    (decodeStageCWithdrawCalldata_eq_ok hv).mp hc
  have hnote := isHexString_hexText note
  have hwords : ∀ x ∈ publicInputs.map hex32, isHexBytes32 x :=
    List.forall_mem_map.mpr fun x _ => isHexBytes32_hex32 x
  unfold decodeV12UnlinkableWithdrawOutputNoteCalldata
  simp only [hc, ok_bind, bind_eq_ok, assertV12UnlinkableWithdrawPublicInputs_eq_ok,
    normalizeHexBytes_eq_ok, ensure_eq_ok, exists_const, pure_eq_ok]
  constructor
  · rintro ⟨_, _, ⟨hlength, -, rfl⟩, _, ⟨-, rfl⟩, hne, -⟩
    refine ⟨hlength, fun heq => hne ?_⟩
    change trim (hexText note) = _
    rw [trim_of_isHexString hnote]
    exact heq
  · rintro ⟨hlength, hne⟩
    refine ⟨_, _, ⟨hlength, hwords, rfl⟩, _, ⟨?_, rfl⟩, ?_, rfl⟩
    · change isHexString (trim (hexText note))
      rwa [trim_of_isHexString hnote]
    · change trim (hexText note) ≠ _
      rwa [trim_of_isHexString hnote]

/-- The calldata that is checked comes back. -/
theorem eq_of_assertRuntimeWithdrawalCalldata {runtime : NullarkCurrentRuntime} {data r : Text}
    (h : assertRuntimeWithdrawalCalldata v d runtime data = .ok r) : r = data := by
  unfold assertRuntimeWithdrawalCalldata at h
  split_ifs at h <;> exact (Except.ok.inj (bind_eq_ok.mp h).choose_spec.2).symm

theorem planOf_ok {data : Text} {plan : WithdrawalPlan} (h : planOf v d i now data = .ok plan) :
    plan.calldata = data ∧ Carries i.runtime plan := by
  unfold planOf buildWithdrawalRelayerRequest buildDirectWalletWithdrawalTransaction at h
  simp only [bind_eq_ok, ensure_eq_ok, exists_const, assertPool_eq_ok, pure_eq_ok] at h
  obtain ⟨_, ⟨-, _, ⟨-, rfl⟩, _, hrelayer, rfl⟩, _, ⟨_, ⟨-, rfl⟩, _, hwallet, rfl⟩, rfl⟩ := h
  exact ⟨rfl, ⟨rfl, rfl⟩, ⟨rfl, rfl, eq_of_assertRuntimeWithdrawalCalldata hrelayer⟩,
    ⟨rfl, rfl, rfl, eq_of_assertRuntimeWithdrawalCalldata hwallet⟩⟩

/-- **The calldata of a plan.** -/
theorem createV12UnlinkableWithdrawalPlan_ok (hv : Documented v keccak) {plan : WithdrawalPlan}
    (h : createV12UnlinkableWithdrawalPlan v d i encryptedOutputNote now = .ok plan) :
    Agrees (i.binding i.outputCommitment) ∧ Encodes v (i.noted encryptedOutputNote) ∧
      plan.calldata = calldata (i.noted encryptedOutputNote) ∧ Carries i.runtime plan := by
  obtain ⟨data, hdata, hplan⟩ := bind_eq_ok.mp h
  obtain ⟨hagrees, hencodes, rfl⟩ := (encodeVerified_eq_ok hv).mp hdata
  exact ⟨hagrees, hencodes, planOf_ok hplan⟩

/-- The arguments that are encoded pass the checks of what is decoded. -/
theorem complete_of_encodes (hagrees : Agrees (i.binding i.outputCommitment))
    (hencodes : Encodes v (i.noted encryptedOutputNote)) :
    Complete (stageCArguments (i.noted encryptedOutputNote)) := by
  have hgross : Decimal.value (trim i.grossAmountWei) < 2 ^ 256 := grossAmount_lt_of_agrees hagrees
  have hnet := hencodes.normalizes.minNet_le
  have hfee := hencodes.normalizes.maxFee_le
  have hpos := hencodes.normalizes.gross_pos
  dsimp only [WithdrawalPlanInput.noted, WithdrawalPlanInput.bounded] at hnet hfee hpos
  refine ⟨.inr ((List.length_map word).trans hencodes.length), ?_, ?_, ?_⟩ <;>
    dsimp only [WithdrawalPlanInput.noted, WithdrawalPlanInput.bounded] <;>
    simp only [BitVec.toNat_ofNat] <;> omega

/-- **There is a plan** for what agrees with its public inputs and is encoded. -/
theorem exists_plan (hv : Documented v keccak) (hd : d.Inverts)
    (h12 : usesV12UnlinkableWithdrawals i.runtime) (hnow : now ≤ maxSafeInteger ∧ 0 < now)
    (hagrees : Agrees (i.binding i.outputCommitment))
    (hencodes : Encodes v (i.noted encryptedOutputNote))
    (hsize : (callBytes 0x678d8506 stageCWithdrawBoundedParameters
      (stageCArguments (i.noted encryptedOutputNote))).length < 2 ^ 256) :
    ∃ plan, createV12UnlinkableWithdrawalPlan v d i encryptedOutputNote now = .ok plan := by
  have hdecoded := decode_callBytes_stageC hv hd (complete_of_encodes hagrees hencodes) hsize
  have hten : (decoded v (stageCArguments (i.noted encryptedOutputNote))).publicInputs.length =
      10 := by
    change (((i.publicInputs.map word).map hex32)).length = 10
    rw [List.length_map, List.length_map]
    exact hencodes.length
  have hne : (decoded v (stageCArguments (i.noted encryptedOutputNote))).encryptedChangeNote ≠
      "0x".toList :=
    fun heq => hexBytes_ne_nil hencodes.note hencodes.note_ne (hexText_injective heq)
  obtain ⟨r, hr⟩ := (decodeV12_eq_ok hv hdecoded).mpr ⟨hten, hne⟩
  have hpool : isEvmAddress i.runtime.pool := hagrees.pool
  have hruntime : assertRuntimeWithdrawalCalldata v d i.runtime
      (calldata (i.noted encryptedOutputNote)) = .ok (calldata (i.noted encryptedOutputNote)) := by
    unfold assertRuntimeWithdrawalCalldata
    rw [if_pos h12, calldata, hr]
    rfl
  have hplan : ∃ plan, planOf v d i now (calldata (i.noted encryptedOutputNote)) = .ok plan := by
    unfold planOf buildWithdrawalRelayerRequest buildDirectWalletWithdrawalTransaction assertPool
    simp only [ensure_of hnow, ensure_of hpool, hruntime, ok_bind]
    exact ⟨_, rfl⟩
  obtain ⟨plan, hplan⟩ := hplan
  exact ⟨plan, bind_eq_ok.mpr ⟨_, (encodeVerified_eq_ok hv).mpr ⟨hagrees, hencodes, rfl⟩, hplan⟩⟩

/-- The bytes of the calldata. -/
theorem hexBytes_calldata (c : V12UnlinkableWithdrawOutputNoteCalldataInput) :
    hexBytes (calldata c) =
      callBytes 0x678d8506 stageCWithdrawBoundedParameters (stageCArguments c) :=
  hexBytes_hexText _

end Plan

/-- The amounts of a withdrawal at a rate. -/
structure Amounts where
  gross : ℕ
  fee : ℕ

/-- The amounts of a request. -/
def amountsAt (request : WithdrawalRequest) (feeBps : ℕ) : Amounts where
  gross := Decimal.value request.amountWei
  fee := Decimal.value request.amountWei * feeBps / 10000

/-- **The arguments of the call**, for what the prover returned and a request. -/
def plannedArguments (request : WithdrawalRequest) (amounts : Amounts) (proof : ProverOutput)
    (encryptedOutputNote : Text) : StageCArguments :=
  (hexBytes (trim proof.proof), proof.publicInputs.map word, word proof.nullifier,
    address request.destination, BitVec.ofNat 256 amounts.gross,
    hexBytes (trim encryptedOutputNote), BitVec.ofNat 256 (amounts.gross - amounts.fee),
    BitVec.ofNat 256 amounts.fee, ())

/-- **The slots of the public inputs** that are compared with the request, the runtime and the
rest of what the prover returned. An address is compared with the low bytes of its slot. -/
structure BoundSlots (runtime : NullarkCurrentRuntime) (request : WithdrawalRequest)
    (amounts : Amounts) (proof : ProverOutput) : Prop where
  length : proof.publicInputs.length = 10
  root : input (proof.publicInputs.map word) 0 = word proof.currentRoot
  nullifier : input (proof.publicInputs.map word) 1 = word proof.nullifier
  commitment_ne : input (proof.publicInputs.map word) 2 ≠ 0
  commitment_field : isFieldElement (input (proof.publicInputs.map word) 2)
  destination : (input (proof.publicInputs.map word) 3).toNat % 2 ^ 160 =
    (address request.destination).toNat
  grossAmount : input (proof.publicInputs.map word) 4 = BitVec.ofNat 256 amounts.gross
  fee : input (proof.publicInputs.map word) 5 = BitVec.ofNat 256 amounts.fee
  chainId : input (proof.publicInputs.map word) 6 = BitVec.ofNat 256 runtime.chainId
  verifyingContract : (input (proof.publicInputs.map word) 7).toNat % 2 ^ 160 =
    (address runtime.pool).toNat
  contextHash_ne : input (proof.publicInputs.map word) 8 ≠ 0
  noteHash_ne : input (proof.publicInputs.map word) 9 ≠ 0

/-- **The fee is at the rate in force**: the one the pool answers, where its fee is governed, and
the one of the runtime else. -/
def AtRate (client : WithdrawalClient) (feeBps : ℕ) : Prop :=
  match client.runtime.feePolicy with
  | none => client.runtime.withdrawalFeeBps = feeBps
  | some _ => feeBps ≤ 100 ∧ ∃ feeRead ∈ client.runtimeFeeReadClient,
      ∃ value, feeRead.readContract client.runtime.pool .feeBps = .ok value ∧ value.Reads feeBps

theorem atRate_of_resolve {client : WithdrawalClient} {feeState : RuntimeWithdrawalFeeState}
    (h : resolveWithdrawalFeeState client = .ok feeState) : AtRate client feeState.activeFeeBps := by
  unfold resolveWithdrawalFeeState at h
  unfold AtRate
  cases hpolicy : client.runtime.feePolicy with
  | none =>
    simp only [hpolicy, resolveRuntimeWithdrawalFeeState, bind_eq_ok, pure_eq_ok,
      normalizeFeeBps_eq_ok] at h
    obtain ⟨rate, ⟨hrate, -⟩, rfl⟩ := h
    exact hrate
  | some policy =>
    cases hread : client.runtimeFeeReadClient with
    | none =>
      simp only [hpolicy, hread] at h
      cases h
    | some feeRead =>
      simp only [hpolicy, hread, readRuntimeWithdrawalFeeStateFromPool] at h
      obtain ⟨hle, value, hvalue, hreads⟩ := activeFeeBps_of_read h
      exact ⟨hle, feeRead, rfl, value, hvalue, hreads⟩

/-- What `BigInt` makes equal to a number. -/
theorem sameInteger_ofNat {t : Text} (ht : isHexBytes32 t) {n : ℕ} :
    sameInteger (some t) (Decimal.ofNat n) = true ↔ hexNat t = n := by
  have hleft : integerOfText (trim t) = some (hexNat t : ℤ) := by
    have hread := stringToBigInt_of_isHexOfLength (by decide) ht
    unfold stringToBigInt at hread
    cases hint : integerOfText (trim t) with
    | none => rw [hint] at hread; cases hread
    | some value => rw [hint] at hread; exact congrArg some (Except.ok.inj hread)
  have hright : integerOfText (trim (Decimal.ofNat n)) = some (n : ℤ) := by
    have hdecimal := Decimal.isDecimal_ofNat n
    rw [trim_of_isDecimal hdecimal, integerOfText_of_isDecimal hdecimal, Decimal.value_ofNat]
  simp only [sameInteger, Option.bind_some, hleft, hright, decide_eq_true_eq]
  exact Nat.cast_inj

/-- A number that is printed with a sign is no amount. -/
theorem nonneg_of_isDecimal {value : ℤ} (h : Decimal.isDecimal (trim (toString10 value))) :
    0 ≤ value := by
  cases value with
  | ofNat n => exact Int.natCast_nonneg n
  | negSucc n =>
    have hdash : '-' ∈ trim (toString10 (.negSucc n)) := by
      have hclean : ∀ c ∈ toString10 (.negSucc n), isWhiteSpace c = false := by
        intro c hc
        rcases List.mem_cons.mp hc with rfl | hc
        · decide
        · exact isWhiteSpace_of_isDigit (decimal_isDigit ((Decimal.isDecimal_ofNat _).2 c hc)).1
      rw [trim_eq_self hclean]
      exact List.mem_cons_self
    exact absurd (h.2 _ hdash) (by decide)

section Prepared
variable {client : WithdrawalClient} {recoveredNotes : List RecoveredWalletNote}
  {request : WithdrawalRequest} {keccak : Bytes → Bytes32}

/-- **The request that is accepted.** -/
structure Requested (recoveredNotes : List RecoveredWalletNote) (request : WithdrawalRequest)
    (note : RecoveredWalletNote) : Prop where
  destination : isEvmAddress request.destination
  selected : selectedNote recoveredNotes request.noteId = .ok note
  unspent : note.summary.spent = false
  amount : Decimal.isDecimal request.amountWei
  amount_pos : 0 < Decimal.value request.amountWei
  amount_le : ∃ noteAmount, stringToBigInt note.summary.amountWei = .ok noteAmount ∧
    (Decimal.value request.amountWei : ℤ) ≤ noteAmount

theorem requested_of_ok {note : RecoveredWalletNote}
    (h : assertRequest recoveredNotes request = .ok note) :
    Requested recoveredNotes request note := by
  unfold assertRequest at h
  simp only [bind_eq_ok, ensure_eq_ok, exists_const, pure_eq_ok] at h
  obtain ⟨hdestination, -, _, hnote, hspent, ⟨hamount, hpos⟩, noteAmount, hvalue, hle, rfl⟩ := h
  exact ⟨hdestination, hnote, hspent, hamount, hpos, noteAmount, hvalue, hle⟩

/-- The plan is made of what the prover returned, which matches the runtime. -/
theorem prepareWithdrawal_ok {p : PreparedNullarkWithdrawal}
    (h : prepareWithdrawal client recoveredNotes request = .ok p) :
    ∃ prover note feeState proof, client.localWithdrawalProver = some prover ∧
      Requested recoveredNotes request note ∧ resolveWithdrawalFeeState client = .ok feeState ∧
      let amounts := amountsAt request feeState.activeFeeBps
      let feeWei := Decimal.ofNat amounts.fee
      let netAmountWei := toString10 ((amounts.gross : ℤ) - amounts.fee)
      let runtime := runtimeWithWithdrawalFeeState client.runtime feeState
      prover (proverInput client note request feeState feeWei netAmountWei) = .ok proof ∧
      assertWithdrawalProofMatchesRuntime proof.toWithdrawalProofBundle note runtime
        request.destination request.amountWei feeWei = .ok () ∧
      createWithdrawalPlanForRuntime client.viem client.decoder
        { proof with
          runtime, destination := request.destination, grossAmountWei := request.amountWei
          minNetAmountWei := netAmountWei, maxFeeWei := feeWei }
        client.nowEpochSeconds = .ok p.plan := by
  unfold prepareWithdrawal localProver at h
  simp only [bind_eq_ok, pure_eq_ok] at h
  obtain ⟨prover, hprover, note, hnote, feeState, hfee, _, -, proof, hproof, _, hmatches,
    plan, hplan, rfl⟩ := h
  refine ⟨prover, note, feeState, proof, ?_, requested_of_ok hnote, hfee, hproof, hmatches, hplan⟩
  cases hclient : client.localWithdrawalProver with
  | none => simp only [hclient] at hprover; cases hprover
  | some other => simp only [hclient] at hprover; rw [Except.ok.inj hprover]

/-- **What a plan says**, at a rate, for what the prover returned. -/
structure Planned (client : WithdrawalClient) (request : WithdrawalRequest) (feeBps : ℕ)
    (proof : ProverOutput) (plan : WithdrawalPlan) : Prop where
  carries : Carries client.runtime plan
  amounts : (amountsAt request feeBps).fee ≤ (amountsAt request feeBps).gross ∧
    (amountsAt request feeBps).gross < 2 ^ 256
  slots : BoundSlots client.runtime request (amountsAt request feeBps) proof
  calldata : ∃ encryptedOutputNote ∈ proof.encryptedOutputNote,
    hexBytes (trim encryptedOutputNote) ≠ [] ∧
    hexBytes plan.calldata = callBytes 0x678d8506 stageCWithdrawBoundedParameters
      (plannedArguments request (amountsAt request feeBps) proof encryptedOutputNote)

/-- **What is compared, slot by slot.** -/
theorem boundSlots_of_agrees {feeBps : ℕ} {proof : ProverOutput} {i : WithdrawalPlanInput}
    (hi : i.toProverOutput = proof) (hdestination : i.destination = request.destination)
    (hevm : isEvmAddress request.destination) (hamount : i.grossAmountWei = request.amountWei)
    (hdecimal : Decimal.isDecimal request.amountWei)
    (hclient : i.runtime.toClientRuntime = client.runtime.toClientRuntime)
    (hagrees : Agrees (i.binding i.outputCommitment))
    (hfee : sameInteger proof.publicInputs[5]?
      (Decimal.ofNat (amountsAt request feeBps).fee) = true) :
    BoundSlots client.runtime request (amountsAt request feeBps) proof := by
  subst hi
  have hinput : ∀ index < 10, input (i.publicInputs.map word) index = word (slot i.publicInputs index) ∧
      isHexBytes32 (slot i.publicInputs index) := fun index h => hagrees.input_words h
  have hpool : i.runtime.pool = client.runtime.pool := congrArg (·.pool) hclient
  have hchain : i.runtime.chainId = client.runtime.chainId := congrArg (·.chainId) hclient
  have htrim : trim i.destination = request.destination := by
    rw [hdestination, trim_of_isHexOfLength hevm]
  have hgross : hexNat (slot i.publicInputs 4) = (amountsAt request feeBps).gross := by
    refine hagrees.grossAmount.trans ?_
    change Decimal.value (trim i.grossAmountWei) = _
    rw [hamount, trim_of_isDecimal hdecimal]
    rfl
  have hfive : i.publicInputs[5]? = some (slot i.publicInputs 5) := by
    have hlt : 5 < i.publicInputs.length := by
      have hlength : i.publicInputs.length = 10 := hagrees.length
      omega
    rw [slot, List.getD_eq_getElem _ _ hlt, List.getElem?_eq_getElem hlt]
  have hfee_eq : hexNat (slot i.publicInputs 5) = (amountsAt request feeBps).fee := by
    rw [hfive] at hfee
    exact (sameInteger_ofNat (hinput 5 (by decide)).2).mp hfee
  refine ⟨hagrees.length, ?_, ?_, ?_, ?_, ?_, ?_, ?_, ?_, ?_, ?_, ?_⟩
  · rw [(hinput 0 (by decide)).1]
    exact (lower_eq_lower_iff_word (hinput 0 (by decide)).2 hagrees.currentRoot).mp hagrees.root
  · rw [(hinput 1 (by decide)).1]
    exact (lower_eq_lower_iff_word (hinput 1 (by decide)).2 hagrees.nullifierText).mp
      hagrees.nullifier
  · rw [(hinput 2 (by decide)).1]
    exact (word_ne_zero_iff (hinput 2 (by decide)).2).mpr hagrees.commitment_ne
  · rw [(hinput 2 (by decide)).1, isFieldElement, toNat_word (hinput 2 (by decide)).2]
    exact hagrees.commitment_field.2.2
  · rw [(hinput 3 (by decide)).1, ← htrim]
    exact (lower_bytes32ToEvmAddress_iff (hinput 3 (by decide)).2 hagrees.destinationText).mp
      hagrees.destination
  · rw [(hinput 4 (by decide)).1, ← hgross]
    rfl
  · rw [(hinput 5 (by decide)).1, ← hfee_eq]
    rfl
  · rw [(hinput 6 (by decide)).1, ← hchain]
    exact congrArg (BitVec.ofNat 256) hagrees.chainId
  · rw [(hinput 7 (by decide)).1, ← hpool]
    exact (lower_bytes32ToEvmAddress_iff (hinput 7 (by decide)).2 hagrees.pool).mp
      hagrees.verifyingContract
  · rw [(hinput 8 (by decide)).1]
    exact (word_ne_zero_iff (hinput 8 (by decide)).2).mpr hagrees.contextHash_ne
  · rw [(hinput 9 (by decide)).1]
    exact (word_ne_zero_iff (hinput 9 (by decide)).2).mpr hagrees.noteHash_ne

/-- The plan of what matches the runtime. -/
theorem planned_of_ok (hv : Documented client.viem keccak)
    (h12 : isV12UnlinkableRuntime client.runtime) {note : RecoveredWalletNote}
    {feeState : RuntimeWithdrawalFeeState} {proof : ProverOutput} {plan : WithdrawalPlan}
    (hrequested : Requested recoveredNotes request note)
    (hmatches : assertWithdrawalProofMatchesRuntime proof.toWithdrawalProofBundle note
      (runtimeWithWithdrawalFeeState client.runtime feeState) request.destination request.amountWei
      (Decimal.ofNat (amountsAt request feeState.activeFeeBps).fee) = .ok ())
    (hplan : createWithdrawalPlanForRuntime client.viem client.decoder
      { proof with
        runtime := runtimeWithWithdrawalFeeState client.runtime feeState
        destination := request.destination, grossAmountWei := request.amountWei
        minNetAmountWei := toString10 (((amountsAt request feeState.activeFeeBps).gross : ℤ) -
          (amountsAt request feeState.activeFeeBps).fee)
        maxFeeWei := Decimal.ofNat (amountsAt request feeState.activeFeeBps).fee }
      client.nowEpochSeconds = .ok plan) :
    Planned client request feeState.activeFeeBps proof plan := by
  obtain ⟨hclient, -, -⟩ := runtimeWithWithdrawalFeeState_same client.runtime feeState
  have h12' : isV12UnlinkableRuntime (runtimeWithWithdrawalFeeState client.runtime feeState) :=
    isV12UnlinkableRuntime_with.mpr h12
  have hmatches' := (assertWithdrawalProofMatchesRuntime_eq_ok h12').mp hmatches
  unfold createWithdrawalPlanForRuntime at hplan
  rw [if_neg (not_not.mpr h12')] at hplan
  cases hnote : proof.encryptedOutputNote with
  | none =>
    simp only [hnote] at hplan
    cases hplan
  | some encryptedOutputNote =>
    simp only [hnote] at hplan
    obtain ⟨hagrees, hencodes, hcalldata, hcarries⟩ :=
      createV12UnlinkableWithdrawalPlan_ok hv hplan
    have hdestination : trim request.destination = request.destination :=
      trim_of_isHexOfLength hrequested.destination
    have hamount : trim request.amountWei = request.amountWei :=
      trim_of_isDecimal hrequested.amount
    have hnet : (0 : ℤ) ≤ ((amountsAt request feeState.activeFeeBps).gross : ℤ) -
        (amountsAt request feeState.activeFeeBps).fee :=
      nonneg_of_isDecimal hencodes.normalizes.minNetAmount
    have hle : (amountsAt request feeState.activeFeeBps).fee ≤
        (amountsAt request feeState.activeFeeBps).gross := by omega
    have hprinted : toString10 (((amountsAt request feeState.activeFeeBps).gross : ℤ) -
        (amountsAt request feeState.activeFeeBps).fee) =
        Decimal.ofNat ((amountsAt request feeState.activeFeeBps).gross -
          (amountsAt request feeState.activeFeeBps).fee) := by
      rw [← Nat.cast_sub hle]
      rfl
    have hlt : (amountsAt request feeState.activeFeeBps).gross < 2 ^ 256 := by
      have hbound := grossAmount_lt_of_agrees hagrees
      dsimp only at hbound
      rwa [hamount] at hbound
    refine ⟨?_, ⟨hle, hlt⟩, ?_, encryptedOutputNote, Option.mem_def.mpr hnote, ?_, ?_⟩
    · obtain ⟨hplace, hrelayer, hwallet⟩ := hcarries
      dsimp only at hplace hrelayer hwallet
      rw [hclient] at hplace hrelayer hwallet
      exact ⟨hplace, hrelayer, hwallet⟩
    · exact boundSlots_of_agrees rfl rfl hrequested.destination rfl hrequested.amount hclient hagrees
        hmatches'.fee
    · exact hexBytes_ne_nil hencodes.note hencodes.note_ne
    · rw [hcalldata, hexBytes_calldata, plannedArguments, stageCArguments]
      dsimp only [WithdrawalPlanInput.noted, WithdrawalPlanInput.bounded]
      rw [hdestination, hamount, hprinted, trim_ofNat, trim_ofNat, Decimal.value_ofNat,
        Decimal.value_ofNat]
      rfl

/-- **A plan is bound to the request, the runtime and the rate**, whatever the prover returns. -/
theorem prepared_calldata (hv : Documented client.viem keccak)
    (h12 : isV12UnlinkableRuntime client.runtime) {p : PreparedNullarkWithdrawal}
    (h : prepareWithdrawal client recoveredNotes request = .ok p) :
    ∃ prover note feeState proof, client.localWithdrawalProver = some prover ∧
      Requested recoveredNotes request note ∧ AtRate client feeState.activeFeeBps ∧
      (∃ feeWei netAmountWei,
        prover (proverInput client note request feeState feeWei netAmountWei) = .ok proof) ∧
      Planned client request feeState.activeFeeBps proof p.plan := by
  obtain ⟨prover, note, feeState, proof, hprover, hrequested, hfee, hproof, hmatches, hplan⟩ :=
    prepareWithdrawal_ok h
  exact ⟨prover, note, feeState, proof, hprover, hrequested, atRate_of_resolve hfee,
    ⟨_, _, hproof⟩, planned_of_ok hv h12 hrequested hmatches hplan⟩

end Prepared

/-! ### A prover that proves something else -/

/-- A property of the selected note and the arguments of the call that every plan in v1.2 has. -/
def EveryPlan (P : WithdrawalClient → RecoveredWalletNote → StageCArguments → Prop) : Prop :=
  ∀ (client : WithdrawalClient) (recoveredNotes : List RecoveredWalletNote)
    (request : WithdrawalRequest) (p : PreparedNullarkWithdrawal),
    Documented client.viem Lib.Keccak.keccak256 → isV12UnlinkableRuntime client.runtime →
    prepareWithdrawal client recoveredNotes request = .ok p →
    ∀ note args, selectedNote recoveredNotes request.noteId = .ok note →
      hexBytes p.plan.calldata = callBytes 0x678d8506 stageCWithdrawBoundedParameters args →
      P client note args

/-- The call names the nullifier of the note. -/
def NamesNullifier (_ : WithdrawalClient) (note : RecoveredWalletNote) : StageCArguments → Prop
  | (_, _, nullifier, _) => nullifier = word note.nullifier

/-- The pool of a runtime. -/
def envOf (runtime : NullarkCurrentRuntime) : Env where
  poseidon2 := fun l _ => l
  keccak256 := Lib.Keccak.keccak256
  chainId := BitVec.ofNat 256 runtime.chainId
  this := address runtime.pool
  feeController := 0

/-- The two hashes among the public inputs are those of the arguments. -/
def OwnHashes (client : WithdrawalClient) (_ : RecoveredWalletNote) : StageCArguments → Prop
  | (_, publicInputs, nullifier, destination, grossAmount, encryptedOutputNote, minNetAmount,
      maxFeeAmount, ()) =>
    BindingsChecked (envOf client.runtime) (withdrawContextShape (envOf client.runtime))
      publicInputs nullifier destination grossAmount maxFeeAmount.toNat (input publicInputs 2)
      encryptedOutputNote (boundsPolicy minNetAmount maxFeeAmount) 0x678d8506

/-- The bounds of the call are at the rate that the pool answers. -/
def AtPoolRate (client : WithdrawalClient) (_ : RecoveredWalletNote) : StageCArguments → Prop
  | (_, _, _, _, grossAmount, _, minNetAmount, maxFeeAmount, ()) =>
    ∀ feeRead ∈ client.runtimeFeeReadClient, ∀ value feeBps,
      feeRead.readContract client.runtime.pool .feeBps = .ok value → value.Reads feeBps →
      maxFeeAmount.toNat = grossAmount.toNat * feeBps / 10000 ∧
        minNetAmount.toNat = grossAmount.toNat - maxFeeAmount.toNat

def sampleRuntime : NullarkCurrentRuntime where
  environment := "megaeth-testnet-nullark".toList
  chainId := 6343
  pool := addressText 7
  productVersion := "nullark-v1.2-fee-governance".toList
  schema := .v12CandidateV1
  groth16PublicInputOrder := nullarkWithdrawPublicInputOrderV12
  withdrawalFeeBps := 50
  maxWithdrawalFeeBps := some 100
  feePolicy := some ⟨50, 100, none⟩

/-- The same runtime without a policy of the fee, whose rate is the static one. -/
def staticRuntime : NullarkCurrentRuntime := { sampleRuntime with feePolicy := none }

/-- A note of 100000 wei whose nullifier is five. -/
def sampleNote : RecoveredWalletNote where
  summary := ⟨"note".toList, hex32 7, "100000".toList, false, 1, hex32 8⟩
  spendMaterial := ⟨spendMaterialVersion, 6343, addressText 7, hex32 1, "100000".toList, hex32 2,
    hex32 3, hex32 4, hex32 7, []⟩
  nullifier := hex32 5

def sampleRequest : WithdrawalRequest where
  noteId := "note".toList
  amountWei := "100000".toList
  destination := addressText 1
  route := "relayer".toList
  maxFeeWei := none
  minNetAmountWei := none

/-- What a prover returns that does not look at the note. -/
def sampleOutput (nullifier noteHash : Bytes32) : ProverOutput where
  proof := "0x1234".toList
  publicInputs := [hex32 1, hex32 nullifier, hex32 3, hex32 1, hex32 100000, hex32 500, hex32 6343,
    hex32 7, hex32 8, hex32 noteHash]
  nullifier := hex32 nullifier
  currentRoot := hex32 1
  encryptedChangeNote := none
  changeCommitment := none
  encryptedOutputNote := some "0xabcd".toList
  outputCommitment := none

/-- A pool that answers a rate. -/
def feeReadOf (feeBps : ℤ) : FeeReadClient where
  readContract _ := fun
    | .feeBps => .ok (.bigint feeBps)
    | .maxFeeBps => .ok (.bigint 100)
    | .pendingFeeBps | .pendingFeeActivationTime => .ok (.bigint 0)

def clientOf (runtime : NullarkCurrentRuntime) (feeRead : FeeReadClient)
    (nullifier noteHash : Bytes32) : WithdrawalClient where
  viem := digitsViem
  decoder := standardDecoder
  isDate _ := true
  isoDate _ := .ok []
  nowEpochSeconds := 1
  runtime
  localWithdrawalProver := some fun _ => .ok (sampleOutput nullifier noteHash)
  runtimeFeeReadClient := some feeRead

/-- The pool answers the rate of fifty. -/
def sampleClient (nullifier noteHash : Bytes32) : WithdrawalClient :=
  clientOf sampleRuntime (feeReadOf 50) nullifier noteHash

/-- The pool answers a rate other than the static one. -/
def staticClient (nullifier noteHash : Bytes32) : WithdrawalClient :=
  clientOf staticRuntime (feeReadOf 33) nullifier noteHash

theorem sampleRuntime_v12 : isV12UnlinkableRuntime sampleRuntime := by decide

section Sample
variable {nullifier noteHash : Bytes32} {runtime : NullarkCurrentRuntime} {feeRead : FeeReadClient}

theorem ne_zeroBytes32_hex32 {x : Bytes32} (h : x ≠ 0) : hex32 x ≠ zeroBytes32 :=
  (word_ne_zero_iff (isHexBytes32_hex32 x)).mp (by rwa [word_hex32])

/-- The text of an address is that of its word, cut to its bytes. -/
theorem lower_bytes32ToEvmAddress_hex32 {x : Bytes32} {a : Address}
    (h : x.toNat % 2 ^ 160 = a.toNat) :
    lower (bytes32ToEvmAddress (hex32 x)) = lower (addressText a) :=
  (lower_bytes32ToEvmAddress_iff (isHexBytes32_hex32 x) (isEvmAddress_addressText a)).mpr (by
    rwa [word_hex32, address_addressText])

/-- The plan that is asked for. -/
def samplePlanInput (nullifier noteHash : Bytes32) (runtime : NullarkCurrentRuntime) :
    WithdrawalPlanInput :=
  { sampleOutput nullifier noteHash with
    runtime
    destination := addressText 1
    grossAmountWei := "100000".toList
    minNetAmountWei := "99500".toList
    maxFeeWei := Decimal.ofNat 500 }

theorem sampleInputs_hex : ∀ value ∈ (sampleOutput nullifier noteHash).publicInputs,
    isHexBytes32 value := by
  have hwords : (sampleOutput nullifier noteHash).publicInputs =
      [1, nullifier, 3, 1, 100000, 500, 6343, 7, 8, noteHash].map hex32 := rfl
  rw [hwords]
  exact List.forall_mem_map.mpr fun x _ => isHexBytes32_hex32 x

theorem sample_agrees (hnote : noteHash ≠ 0) {runtime : NullarkCurrentRuntime}
    (hruntime : runtime.toClientRuntime = sampleRuntime.toClientRuntime) :
    Agrees ((samplePlanInput nullifier noteHash runtime).binding none) where
  length := rfl
  publicInputs := sampleInputs_hex
  currentRoot := isHexBytes32_hex32 1
  nullifierText := isHexBytes32_hex32 nullifier
  destinationText := by
    change isEvmAddress (trim (addressText 1))
    rw [trim_of_isHexOfLength (isEvmAddress_addressText 1)]
    exact isEvmAddress_addressText 1
  amountText := (by decide : Decimal.isDecimal (trim "100000".toList))
  pool := by
    change isEvmAddress runtime.pool
    rw [congrArg (·.pool) hruntime]
    exact isEvmAddress_addressText 7
  chain := .inr (congrArg (·.chainId) hruntime)
  root := rfl
  nullifier := rfl
  commitment_ne := ne_zeroBytes32_hex32 (by decide)
  commitment_field := isBn254FieldElement_hex32 (by decide) (by decide)
  commitment := fun _ hc => absurd hc (Option.not_mem_none _)
  destination := by
    change _ = lower (trim (addressText 1))
    rw [trim_of_isHexOfLength (isEvmAddress_addressText 1)]
    exact lower_bytes32ToEvmAddress_hex32 (by decide)
  grossAmount := (hexNat_hex32 100000).trans
    (by decide : (100000 : Bytes32).toNat = Decimal.value (trim "100000".toList))
  chainId := (hexNat_hex32 6343).trans (congrArg (·.chainId) hruntime).symm
  verifyingContract := by
    change _ = lower runtime.pool
    rw [congrArg (·.pool) hruntime]
    exact lower_bytes32ToEvmAddress_hex32 (by decide)
  contextHash_ne := ne_zeroBytes32_hex32 (by decide)
  noteHash_ne := ne_zeroBytes32_hex32 hnote

theorem sample_encodes (runtime : NullarkCurrentRuntime) :
    Encodes digitsViem ((samplePlanInput nullifier noteHash runtime).noted "0xabcd".toList) where
  length := rfl
  publicInputs := sampleInputs_hex
  normalizes :=
    { proof := (by decide : isHexString (trim "0x1234".toList))
      nullifier := isHexBytes32_hex32 nullifier
      destination := by
        change isEvmAddress (trim (addressText 1))
        rw [trim_of_isHexOfLength (isEvmAddress_addressText 1)]
        exact isEvmAddress_addressText 1
      grossAmount := (by decide : Decimal.isDecimal (trim "100000".toList))
      minNetAmount := (by decide : Decimal.isDecimal (trim "99500".toList))
      maxFee := (by decide : Decimal.isDecimal (trim (Decimal.ofNat 500)))
      gross_pos := (by decide : 0 < Decimal.value (trim "100000".toList))
      minNet_le := (by decide : Decimal.value (trim "99500".toList) ≤
        Decimal.value (trim "100000".toList))
      maxFee_le := (by decide : Decimal.value (trim (Decimal.ofNat 500)) ≤
        Decimal.value (trim "100000".toList)) }
  note := (by decide : isHexString (trim "0xabcd".toList))
  note_ne := (by decide : trim "0xabcd".toList ≠ "0x".toList)
  destination := by
    change isAddress digitsViem (trim (addressText 1))
    rw [trim_of_isHexOfLength (isEvmAddress_addressText 1)]
    exact isAddress_addressText _ 1

/-- What the prover returns matches the runtime. -/
theorem sample_matches (hnote : noteHash ≠ 0) {runtime : NullarkCurrentRuntime}
    (hruntime : runtime.toClientRuntime = sampleRuntime.toClientRuntime) :
    MatchesRuntime (sampleOutput nullifier noteHash).toWithdrawalProofBundle runtime
      (addressText 1) "100000".toList (Decimal.ofNat 500) where
  length := rfl
  words := by
    simp only [List.forall_mem_cons]
    exact ⟨isHexBytes32_hex32 _, isHexBytes32_hex32 _, isHexBytes32_hex32 _, isHexBytes32_hex32 _,
      isHexBytes32_hex32 _, isHexBytes32_hex32 _, isHexBytes32_hex32 _, isHexBytes32_hex32 _,
      fun _ hx => absurd hx List.not_mem_nil⟩
  root := rfl
  nullifier := rfl
  destination := lower_bytes32ToEvmAddress_hex32 (by decide)
  grossAmount := by
    change stringToBigInt "100000".toList = .ok (hexNat (hex32 100000) : ℤ)
    rw [hexNat_hex32]
    decide
  fee := (sameInteger_ofNat (isHexBytes32_hex32 500)).mpr (hexNat_hex32 500)
  chainId := (hexNat_hex32 6343).trans (congrArg (·.chainId) hruntime).symm
  verifyingContract := by
    rw [congrArg (·.pool) hruntime]
    exact lower_bytes32ToEvmAddress_hex32 (by decide)
  contextHash_ne := ne_zeroBytes32_hex32 (by decide)
  noteHash_ne := ne_zeroBytes32_hex32 hnote

theorem exists_samplePlan (hnote : noteHash ≠ 0) {runtime : NullarkCurrentRuntime}
    (hruntime : runtime.toClientRuntime = sampleRuntime.toClientRuntime)
    (h12 : isV12UnlinkableRuntime runtime) : ∃ plan,
    createWithdrawalPlanForRuntime digitsViem standardDecoder
      (samplePlanInput nullifier noteHash runtime) 1 = .ok plan := by
  have hsize : (callBytes 0x678d8506 stageCWithdrawBoundedParameters (stageCArguments
      ((samplePlanInput nullifier noteHash runtime).noted "0xabcd".toList))).length < 2 ^ 256 := by
    have hle := (length_stageC (stageCArguments
      ((samplePlanInput nullifier noteHash runtime).noted "0xabcd".toList))).2
    have hbig : 4 + (2 + 32 * 10 + 2 + 414) < 2 ^ 256 := by decide
    rw [callBytes, List.length_append, Bytes.length_beBytes]
    exact lt_of_le_of_lt (Nat.add_le_add_left hle 4) hbig
  obtain ⟨plan, hplan⟩ := @exists_plan _ _ _ (samplePlanInput nullifier noteHash runtime) _ 1
    documented_digitsViem standardDecoder_inverts h12.2.2 (by decide) (sample_agrees hnote hruntime)
    (sample_encodes runtime) hsize
  refine ⟨plan, ?_⟩
  unfold createWithdrawalPlanForRuntime
  refine (if_neg (not_not.mpr h12)).trans ?_
  exact hplan

theorem sampleNote_selected : selectedNote [sampleNote] sampleRequest.noteId = .ok sampleNote := rfl

theorem sampleRequest_accepted : assertRequest [sampleNote] sampleRequest = .ok sampleNote := by
  have hdestination : isEvmAddress sampleRequest.destination := isEvmAddress_addressText 1
  have hroute : sampleRequest.route = "relayer".toList ∨ sampleRequest.route = "wallet".toList :=
    .inl rfl
  have hamount : Decimal.isDecimal sampleRequest.amountWei ∧
      0 < Decimal.value sampleRequest.amountWei := by decide
  have hread : stringToBigInt sampleNote.summary.amountWei = .ok 100000 := by decide
  have hle : (Decimal.value sampleRequest.amountWei : ℤ) ≤ 100000 := by decide
  have hspent : sampleNote.summary.spent = false := rfl
  unfold assertRequest
  simp only [ensure_of hdestination, ensure_of hroute, sampleNote_selected, ensure_of hspent,
    ensure_of hamount, hread, ensure_of hle, ok_bind]
  rfl

/-- The note is not among what is compared. -/
theorem sample_prepares (hnote : noteHash ≠ 0)
    (hclient : runtime.toClientRuntime = sampleRuntime.toClientRuntime)
    (hv12 : isV12UnlinkableRuntime runtime) {feeState : RuntimeWithdrawalFeeState}
    (hfee : resolveWithdrawalFeeState (clientOf runtime feeRead nullifier noteHash) = .ok feeState)
    (hrate : feeState.activeFeeBps = 50) : ∃ p,
    prepareWithdrawal (clientOf runtime feeRead nullifier noteHash) [sampleNote] sampleRequest =
      .ok p := by
  have hruntime := (runtimeWithWithdrawalFeeState_same runtime feeState).1.trans hclient
  have h12 : isV12UnlinkableRuntime (runtimeWithWithdrawalFeeState runtime feeState) :=
    isV12UnlinkableRuntime_with.mpr hv12
  have hprover : localProver (clientOf runtime feeRead nullifier noteHash) =
      .ok fun _ => .ok (sampleOutput nullifier noteHash) := rfl
  have hrequest := sampleRequest_accepted
  have hgross : Decimal.value sampleRequest.amountWei = 100000 := by decide
  have hbounds : assertUserBounds sampleRequest 500 ((100000 : ℕ) - (500 : ℕ) : ℤ) = .ok () := by
    decide
  have hnetWei : toString10 ((100000 : ℕ) - (500 : ℕ) : ℤ) = "99500".toList := by decide
  have hmatches : assertWithdrawalProofMatchesRuntime
      (sampleOutput nullifier noteHash).toWithdrawalProofBundle sampleNote
      (runtimeWithWithdrawalFeeState runtime feeState) (addressText 1) "100000".toList
      (Decimal.ofNat 500) = .ok () :=
    (assertWithdrawalProofMatchesRuntime_eq_ok h12).mpr (sample_matches hnote hruntime)
  obtain ⟨plan, hplan⟩ := @exists_samplePlan nullifier noteHash hnote _ hruntime h12
  unfold prepareWithdrawal
  have hfive : 100000 * 50 / 10000 = 500 := rfl
  simp only [hprover, hrequest, hfee, ok_bind, hrate, hgross, hfive, hnetWei]
  exact ⟨_, bind_eq_ok.mpr ⟨(), hbounds, bind_eq_ok.mpr ⟨(), hmatches, bind_eq_ok.mpr
    ⟨plan, hplan, rfl⟩⟩⟩⟩

/-- What a plan of such a client says. -/
theorem planned_clientOf (hnote : noteHash ≠ 0)
    (hclient : runtime.toClientRuntime = sampleRuntime.toClientRuntime)
    (hv12 : isV12UnlinkableRuntime runtime) {feeState : RuntimeWithdrawalFeeState}
    (hfee : resolveWithdrawalFeeState (clientOf runtime feeRead nullifier noteHash) = .ok feeState)
    (hrate : feeState.activeFeeBps = 50) : ∃ p,
    prepareWithdrawal (clientOf runtime feeRead nullifier noteHash) [sampleNote] sampleRequest =
        .ok p ∧
      hexBytes p.plan.calldata = callBytes 0x678d8506 stageCWithdrawBoundedParameters
        (plannedArguments sampleRequest (amountsAt sampleRequest 50)
          (sampleOutput nullifier noteHash) "0xabcd".toList) := by
  obtain ⟨p, hok⟩ := sample_prepares hnote hclient hv12 hfee hrate
  obtain ⟨prover, note, feeState', proof, hprover, hrequested, hfee', hproof, hmatches, hplan⟩ :=
    prepareWithdrawal_ok hok
  obtain rfl : feeState = feeState' := Except.ok.inj (hfee.symm.trans hfee')
  obtain rfl : proof = sampleOutput nullifier noteHash := by
    rw [← Option.some.inj hprover] at hproof
    exact (Except.ok.inj hproof).symm
  obtain ⟨-, -, -, text, htext, -, hcalldata⟩ :=
    planned_of_ok documented_digitsViem hv12 hrequested hmatches hplan
  obtain rfl : "0xabcd".toList = text := Option.mem_some.mp htext
  rw [hrate] at hcalldata
  exact ⟨p, hok, hcalldata⟩

theorem sample_planned (hnote : noteHash ≠ 0) : ∃ p,
    prepareWithdrawal (sampleClient nullifier noteHash) [sampleNote] sampleRequest = .ok p ∧
      hexBytes p.plan.calldata = callBytes 0x678d8506 stageCWithdrawBoundedParameters
        (plannedArguments sampleRequest (amountsAt sampleRequest 50)
          (sampleOutput nullifier noteHash) "0xabcd".toList) :=
  planned_clientOf hnote rfl sampleRuntime_v12 rfl rfl

end Sample

/-- The hash of the note among the public inputs, if it is its own. -/
theorem noteHash_of_ownHashes {client : WithdrawalClient} {note : RecoveredWalletNote}
    {request : WithdrawalRequest} {amounts : Amounts} {proof : ProverOutput} {text : Text}
    (h : OwnHashes client note (plannedArguments request amounts proof text)) :
    input (proof.publicInputs.map word) 9 = encryptedOutputNoteHash (envOf client.runtime)
      (outputNote (withdrawContextShape (envOf client.runtime)) 0x678d8506 (word proof.nullifier)
        (input (proof.publicInputs.map word) 2) (hexBytes (trim text))) := h.noteHash

/-- **There is a plan for a proof of another note**, for a proof with another hash, and at a rate
other than the one the pool answers. -/
theorem unrelated_proof_planned :
    ¬EveryPlan NamesNullifier ∧ ¬EveryPlan OwnHashes ∧ ¬EveryPlan AtPoolRate := by
  have hnote := sampleNote_selected
  refine ⟨fun h => ?_, fun h => ?_, fun h => ?_⟩
  · obtain ⟨p, hok, hcalldata⟩ := @sample_planned 1 1 (by decide)
    have hnamed : NamesNullifier (sampleClient 1 1) sampleNote
        (plannedArguments sampleRequest (amountsAt sampleRequest 50) (sampleOutput 1 1)
          "0xabcd".toList) :=
      h _ _ _ p documented_digitsViem sampleRuntime_v12 hok _ _ hnote hcalldata
    have hnullifier : word (hex32 1) = word (hex32 5) := hnamed
    rw [word_hex32, word_hex32] at hnullifier
    exact absurd hnullifier (by decide)
  · obtain ⟨p, hok, hcalldata⟩ := @sample_planned 5 1 (by decide)
    obtain ⟨p', hok', hcalldata'⟩ := @sample_planned 5 2 (by decide)
    have hown : OwnHashes (sampleClient 5 1) sampleNote
        (plannedArguments sampleRequest (amountsAt sampleRequest 50) (sampleOutput 5 1)
          "0xabcd".toList) :=
      h _ _ _ p documented_digitsViem sampleRuntime_v12 hok _ _ hnote hcalldata
    have hown' : OwnHashes (sampleClient 5 2) sampleNote
        (plannedArguments sampleRequest (amountsAt sampleRequest 50) (sampleOutput 5 2)
          "0xabcd".toList) :=
      h _ _ _ p' documented_digitsViem sampleRuntime_v12 hok' _ _ hnote hcalldata'
    -- the hash is of the other arguments, which are the same
    have hsame : input ((sampleOutput 5 1).publicInputs.map word) 9 =
        input ((sampleOutput 5 2).publicInputs.map word) 9 :=
      (noteHash_of_ownHashes hown).trans (noteHash_of_ownHashes hown').symm
    change word (hex32 1) = word (hex32 2) at hsame
    rw [word_hex32, word_hex32] at hsame
    exact absurd hsame (by decide)
  · have hv12 : isV12UnlinkableRuntime staticRuntime := by decide
    -- without a policy of the fee nobody asks the pool
    obtain ⟨p, hok, hcalldata⟩ := @planned_clientOf 5 1 staticRuntime (feeReadOf 33) (by decide) rfl
      hv12 _ rfl rfl
    have hrate : AtPoolRate (staticClient 5 1) sampleNote
        (plannedArguments sampleRequest (amountsAt sampleRequest 50) (sampleOutput 5 1)
          "0xabcd".toList) :=
      h _ _ _ p documented_digitsViem hv12 hok _ _ hnote hcalldata
    have hfee := (hrate _ rfl (.bigint 33) 33 rfl rfl).1
    exact absurd hfee (by decide)

/-- What the plan of an honest prover says, at the rate the pool answers. -/
theorem prepared_calldata_sample : ∃ p,
    prepareWithdrawal (sampleClient 5 1) [sampleNote] sampleRequest = .ok p ∧
      Planned (sampleClient 5 1) sampleRequest 50 (sampleOutput 5 1) p.plan := by
  obtain ⟨p, hok, -⟩ := @sample_planned 5 1 (by decide)
  obtain ⟨prover, note, feeState, proof, hprover, -, hrate, ⟨_, _, hproof⟩, hplanned⟩ :=
    prepared_calldata documented_digitsViem sampleRuntime_v12 hok
  obtain rfl : proof = sampleOutput 5 1 := by
    rw [← Option.some.inj hprover] at hproof
    exact (Except.ok.inj hproof).symm
  have hfifty : feeState.activeFeeBps = 50 := by
    obtain ⟨-, feeRead, hread, value, hvalue, hreads⟩ := hrate
    obtain rfl : feeReadOf 50 = feeRead := Option.mem_some.mp hread
    rw [← Except.ok.inj hvalue] at hreads
    have hcast : (50 : ℤ) = feeState.activeFeeBps := hreads
    omega
  rw [hfifty] at hplanned
  exact ⟨p, hok, hplanned⟩

end Nullark.Sdk.PrepareWithdrawal
