import Nullark.HashAgreement
import Nullark.Js.OutputNoteBinding
import Nullark.Relay.WithdrawalCall

/-! # The relay's checks of an unlinkable withdrawal

`validateV12UnlinkableWithdrawalRelayCall` lists what is wrong with a call that was decoded. It
throws what `getAddress` and the functions for the hashes throw.

* `validate_eq_ok`: what is decided, and when there are no errors.
* `accepts_iff`: the calls without errors, as the values that were decoded. -/

namespace Nullark.Relay.UnlinkableCall

open Nullark.Lib.Outcome Nullark.Lib.Hex Nullark.Evm.Basic Nullark.Pool.Context
open Nullark.Pool.Checks Nullark.Pool.Calls
open Nullark.Pool.Interface hiding maxEncryptedNoteBytes
open Nullark.Js.Basic Nullark.Js.Bytes Nullark.Js.Package Nullark.Js.Calldata
open Nullark.Js.ContextHashes Nullark.Js.OutputNoteEnvelope Nullark.Js.OutputNoteBinding
open Nullark.Relay.ContextHashes Nullark.Relay.FeePolicy Nullark.Relay.WithdrawalCall
open Nullark.HashAgreement
open Nullark.Core.Proofs (PolicyFits)
open Nullark.Pool.Actions (input outputNote proofContext WithdrawArgs)

/-! ### The code -/

def unlinkableError (problem : String) : String := "v1.2 unlinkable " ++ problem

/-- The values of a call that the checks compare. -/
structure Checked where
  expectedPool : Text
  expectedDestination : Text
  expectedFee : ℕ
  publicGrossAmount : ℕ
  publicFee : ℕ
  publicChainId : ℕ
  outputCommitment : Text
  encryptedOutputNote : Text
  hashes : V12UnlinkableWithdrawContextHashes

section Errors
variable (request : WithdrawalRelayCalldataValidationInput) (call : WithdrawalRelayCall)
  (c : Checked)

/-- What is wrong with the public inputs that repeat the arguments. -/
def publicInputErrors : List String :=
  errorWhen (call.publicInputs.length ≠ 10)
      (unlinkableError "withdrawal calldata must include exactly 10 public inputs") ++
  errorWhen (call.publicInputs.length ≠ 10 ∧ call.publicInputs.length ≥ 12)
      (unlinkableError
        "withdrawal calldata must not expose spentCommitment or noteAmount public inputs") ++
  errorWhen (∃ publicInput ∈ call.publicInputs, ¬isHexBytes32 publicInput)
      (unlinkableError "withdrawal public inputs must be bytes32 values") ++
  errorWhen (lower call.nullifier ≠ lower (call.publicInputText 1))
      (unlinkableError "withdrawal nullifier does not match public inputs") ++
  errorWhen (lower call.nullifier = zeroBytes32)
      (unlinkableError "withdrawal nullifier must be nonzero") ++
  errorWhen (lower (call.publicInputText 3) ≠ lower c.expectedDestination)
      (unlinkableError "withdrawal destination does not match public inputs") ++
  errorWhen (c.publicGrossAmount ≠ call.grossAmount)
      (unlinkableError "withdrawal gross amount does not match public inputs")

/-- What is wrong with the fee. -/
def feeErrors : List String :=
  errorWhen (c.publicFee ≠ c.expectedFee)
      (unlinkableError (if request.feePolicy.isSome then
        "withdrawal fee does not match active fee policy"
      else "withdrawal fee does not match relayer fee policy")) ++
  request.feePolicy.elim [] fun policy =>
    validateWithdrawalFeePolicy policy call.grossAmount c.publicFee request.deadlineEpochSeconds

/-- What is wrong with the chain, the pool, the destination and the amount. -/
def placeErrors : List String :=
  errorWhen (c.publicChainId ≠ request.chainId)
      (unlinkableError "withdrawal proof chain ID does not match relayer chain") ++
  errorWhen (lower (call.publicInputText 7) ≠ lower c.expectedPool)
      (unlinkableError "withdrawal proof pool does not match relayer pool") ++
  errorWhen (lower call.destination = zeroAddress)
      (unlinkableError "withdrawal destination must be nonzero") ++
  errorWhen (call.grossAmount = 0)
      (unlinkableError "withdrawal gross amount must be positive") ++
  errorWhen (call.grossAmount ∉ supportedFixedDenominations)
      (unlinkableError "withdrawal gross amount must be a supported fixed denomination")

/-- What is wrong with the bounds of the user. -/
def boundErrors : List String :=
  if call.hasUserBounds then
    errorWhen (c.expectedFee > call.maxFeeAmount.getD 0)
        (unlinkableError "withdrawal fee exceeds user max fee bound") ++
    errorWhen ((call.grossAmount : ℤ) - c.expectedFee < call.minNetAmount.getD 0)
        (unlinkableError "withdrawal net amount is below user minimum bound") ++
    errorWhen (call.maxFeeAmount.getD 0 > call.grossAmount)
        (unlinkableError "withdrawal user max fee bound cannot exceed gross amount")
  else [unlinkableError "relay requests require user minNetAmount and maxFeeAmount bounds"]

/-- What is wrong with the output note. -/
def noteErrors : List String :=
  (if ¬isHexBytes32 c.outputCommitment then
    [unlinkableError "output commitment must be a bytes32 value"]
  else errorWhen (lower c.outputCommitment = zeroBytes32)
    (unlinkableError "output commitment must be nonzero")) ++
  errorWhen (¬call.hasChangeNote ∨ ¬isHexString c.encryptedOutputNote ∨
        c.encryptedOutputNote = "0x".toList)
      (unlinkableError "withdrawal requires always-present encrypted output note bytes") ++
  errorWhen (isHexString c.encryptedOutputNote ∧
        hexByteLength c.encryptedOutputNote > maxEncryptedNoteBytes)
      (unlinkableError "encrypted output note exceeds relayer policy maximum") ++
  if isHexString c.encryptedOutputNote ∧ c.encryptedOutputNote ≠ "0x".toList then
    relayValidateForBinding c.encryptedOutputNote
      { chainId := request.chainId, pool := request.pool, outputCommitment := c.outputCommitment }
  else []

/-- What is wrong with the hashes. -/
def hashErrors : List String :=
  errorWhen (lower (call.publicInput 9) ≠ lower c.hashes.encryptedOutputNoteHash.hash)
      (unlinkableError "withdrawal encryptedOutputNoteHash does not match public inputs") ++
  errorWhen (lower (call.publicInput 8) ≠ lower c.hashes.proofContextHash.hash)
      (unlinkableError "withdrawal proofContextHash does not match public inputs")

def unlinkableErrors : List String :=
  publicInputErrors call c ++ feeErrors request call c ++ placeErrors request call c ++
    boundErrors call c ++ noteErrors request call c ++ hashErrors call c

/-- What is returned: the call has an output note now, and no change note. -/
def decision : WithdrawalRelayCalldataValidation :=
  let errors := unlinkableErrors request call c
  { allowed := decide (errors = [])
    errors := errors
    decoded := some { call with
      hasChangeNote := false
      hasOutputNote := some true
      encryptedOutputNote := some c.encryptedOutputNote
      encryptedChangeNote := none } }

theorem decision_allowed {request : WithdrawalRelayCalldataValidationInput}
    {call : WithdrawalRelayCall} {c : Checked} : (decision request call c).allowed = true ↔
    unlinkableErrors request call c = [] := by
  unfold decision
  simp only [decide_eq_true_eq]

end Errors

section Code
variable (v : Viem) (request : WithdrawalRelayCalldataValidationInput) (call : WithdrawalRelayCall)

/-- What the hashes of a call are made from. -/
def relayHashesInput (expectedFee : ℕ) : WithdrawHashesInput where
  chainId := request.chainId
  pool := request.pool
  proofContextShape := withdrawShape v
  selector := call.selector
  root := call.publicInput 0
  nullifier := call.nullifier
  destination := call.destination
  grossAmount := call.grossAmount
  fee := expectedFee
  outputCommitment := call.publicInput 2
  encryptedOutputNote := call.encryptedChangeNote.getD "0x".toList
  relayerPolicy := call.relayerPolicy.getD (createStageCRelayerPolicy call)

/-- **`validateV12UnlinkableWithdrawalRelayCall`**. -/
def validateV12UnlinkableWithdrawalRelayCall : Throws WithdrawalRelayCalldataValidation := do
  let expectedPool ← addressToBytes32 v request.pool
  let expectedDestination ← addressToBytes32 v call.destination
  let expectedFee := calculateWithdrawalFee call.grossAmount
    (request.feePolicy.map (·.activeFeeBps))
  let publicFee ← bytes32ToBigInt (call.publicInput 5)
  let outputCommitment := call.publicInput 2
  let encryptedOutputNote := call.encryptedChangeNote.getD "0x".toList
  let publicGrossAmount ← bytes32ToBigInt (call.publicInput 4)
  let publicChainId ← bytes32ToBigInt (call.publicInput 6)
  let hashes ← contractBoundHashes v (relayHashesInput v request call expectedFee)
  return decision request call
    { expectedPool, expectedDestination, expectedFee, publicGrossAmount, publicFee, publicChainId
      outputCommitment, encryptedOutputNote, hashes }

end Code

/-! ### The calls without errors -/

/-- **What the pool is asked to withdraw** with the arguments of a call. -/
def withdrawArgs : StageCArguments → WithdrawArgs
  | (proof, publicInputs, nullifier, destination, grossAmount, encryptedChangeNote, minNetAmount,
      maxFeeAmount, ()) =>
    ⟨proof, publicInputs, nullifier, destination, grossAmount, encryptedChangeNote,
      boundsPolicy minNetAmount maxFeeAmount, 0x678d8506⟩

section Spec
variable {v : Viem} {env : Env} (hv : Documented v env.keccak256)
  {request : WithdrawalRelayCalldataValidationInput} {args : StageCArguments} {c : Checked}
  {mode : Option WithdrawalRelayCalldataValidationMode}

theorem publicInput_stageCCall (index : ℕ) :
    (stageCCall v mode args).publicInput index =
      hex32 (input (withdrawArgs args).publicInputs index) := by
  obtain ⟨proof, publicInputs, nullifier, destination, grossAmount, note, minNet, maxFee, ⟨⟩⟩ := args
  change (publicInputs.map hex32).getD index (hex32 0) = hex32 (publicInputs.getD index 0)
  exact List.getD_map _ _ hex32

theorem publicInputText_stageCCall {index : ℕ}
    (hindex : index < (withdrawArgs args).publicInputs.length) :
    (stageCCall v mode args).publicInputText index =
      hex32 (input (withdrawArgs args).publicInputs index) := by
  have hinput : (stageCCall v mode args).publicInput index = _ := publicInput_stageCCall index
  rw [← hinput]
  obtain ⟨proof, publicInputs, nullifier, destination, grossAmount, note, minNet, maxFee, ⟨⟩⟩ := args
  change (publicInputs.map hex32).getD index [] = (publicInputs.map hex32).getD index zeroBytes32
  have hlength : index < (publicInputs.map hex32).length := by
    rw [List.length_map]
    exact hindex
  rw [List.getD_eq_getElem _ _ hlength, List.getD_eq_getElem _ _ hlength]

theorem lower_hex32_eq_iff {x y : Bytes32} : lower (hex32 x) = lower (hex32 y) ↔ x = y := by
  rw [lower_hex32, lower_hex32, hex32_injective.eq_iff]

theorem lower_hex32_eq_zero_iff {x : Bytes32} : lower (hex32 x) = zeroBytes32 ↔ x = 0 := by
  rw [lower_hex32, zeroBytes32, hex32_injective.eq_iff]

theorem publicInputErrors_eq_nil
    (hdestination : c.expectedDestination =
      hex32 (Pool.Interface.addressToBytes32 (withdrawArgs args).destination))
    (hgross : c.publicGrossAmount = (input (withdrawArgs args).publicInputs 4).toNat) :
    publicInputErrors (stageCCall v mode args) c = [] ↔
      (withdrawArgs args).publicInputs.length = 10 ∧
      input (withdrawArgs args).publicInputs 1 = (withdrawArgs args).nullifier ∧
      (withdrawArgs args).nullifier ≠ 0 ∧
      input (withdrawArgs args).publicInputs 3 =
        Pool.Interface.addressToBytes32 (withdrawArgs args).destination ∧
      input (withdrawArgs args).publicInputs 4 = (withdrawArgs args).grossAmount := by
  have hlength : (stageCCall v mode args).publicInputs.length =
      (withdrawArgs args).publicInputs.length := List.length_map _
  have hbytes32 : ¬∃ publicInput ∈ (stageCCall v mode args).publicInputs, ¬isHexBytes32 publicInput := by
    rintro ⟨publicInput, hmem, hnot⟩
    obtain ⟨x, -, rfl⟩ := List.mem_map.mp hmem
    exact hnot (isHexBytes32_hex32 x)
  have hnullifier : (stageCCall v mode args).nullifier = hex32 (withdrawArgs args).nullifier := rfl
  have hamount : (stageCCall v mode args).grossAmount = (withdrawArgs args).grossAmount.toNat := rfl
  unfold publicInputErrors
  simp only [List.append_eq_nil_iff, errorWhen_eq_nil, not_not, hbytes32, not_false_eq_true,
    and_true, hlength, hnullifier, hamount, hdestination, hgross, lower_hex32_eq_zero_iff, and_assoc,
    BitVec.toNat_inj, ne_eq]
  refine and_congr_right fun hten => ?_
  rw [publicInputText_stageCCall (by omega), publicInputText_stageCCall (by omega),
    lower_hex32_eq_iff, lower_hex32_eq_iff]
  constructor
  · rintro ⟨-, h1, h2, h3, h4⟩
    exact ⟨h1.symm, h2, h3, h4⟩
  · rintro ⟨h1, h2, h3, h4⟩
    exact ⟨fun h => absurd hten h.1, h1.symm, h2, h3, h4⟩

theorem feeErrors_eq_nil : feeErrors request (stageCCall v mode args) c = [] ↔
    c.publicFee = c.expectedFee ∧ ∀ policy ∈ request.feePolicy, validateWithdrawalFeePolicy policy
      (withdrawArgs args).grossAmount.toNat c.publicFee request.deadlineEpochSeconds = [] := by
  unfold feeErrors
  rw [List.append_eq_nil_iff, errorWhen_eq_nil, not_not]
  refine and_congr_right fun _ => ?_
  cases request.feePolicy with
  | none => simp
  | some policy =>
    simp only [Option.elim_some, Option.mem_def, Option.some.injEq, forall_eq']
    rfl

include hv in
theorem placeErrors_eq_nil (hten : (withdrawArgs args).publicInputs.length = 10)
    (hpool : c.expectedPool =
      hex32 (Pool.Interface.addressToBytes32 (address request.pool))) :
    placeErrors request (stageCCall v mode args) c = [] ↔
      c.publicChainId = request.chainId ∧
      input (withdrawArgs args).publicInputs 7 =
        Pool.Interface.addressToBytes32 (address request.pool) ∧
      (withdrawArgs args).destination ≠ 0 ∧ (withdrawArgs args).grossAmount.toNat ≠ 0 ∧
      (withdrawArgs args).grossAmount.toNat ∈ supportedFixedDenominations := by
  have hdestination : lower (stageCCall v mode args).destination = zeroAddress ↔
      (withdrawArgs args).destination = 0 := by
    have hchecksum : lower (stageCCall v mode args).destination =
        addressText (withdrawArgs args).destination := (hv.checksum _).2
    rw [hchecksum, zeroAddress]
    refine ⟨fun h => ?_, fun h => by rw [h]⟩
    rw [← address_addressText (withdrawArgs args).destination, h, address_addressText]
  have hamount : (stageCCall v mode args).grossAmount = (withdrawArgs args).grossAmount.toNat := rfl
  unfold placeErrors
  simp only [List.append_eq_nil_iff, errorWhen_eq_nil, not_not, ne_eq, hamount, hpool, hdestination,
    and_assoc]
  rw [publicInputText_stageCCall (by omega), lower_hex32_eq_iff]

theorem boundErrors_eq_nil : boundErrors (stageCCall v mode args) c = [] ↔
    c.expectedFee ≤ (withdrawArgs args).relayerPolicy.maxFeeAmount.toNat ∧
    (withdrawArgs args).relayerPolicy.minNetAmount.toNat + c.expectedFee ≤
      (withdrawArgs args).grossAmount.toNat ∧
    (withdrawArgs args).relayerPolicy.maxFeeAmount.toNat ≤
      (withdrawArgs args).grossAmount.toNat := by
  have hbounds : (stageCCall v mode args).hasUserBounds = true := rfl
  have hmax : (stageCCall v mode args).maxFeeAmount.getD 0 =
      (withdrawArgs args).relayerPolicy.maxFeeAmount.toNat := rfl
  have hmin : (stageCCall v mode args).minNetAmount.getD 0 =
      (withdrawArgs args).relayerPolicy.minNetAmount.toNat := rfl
  have hamount : (stageCCall v mode args).grossAmount = (withdrawArgs args).grossAmount.toNat := rfl
  unfold boundErrors
  simp only [hbounds, if_true, List.append_eq_nil_iff, errorWhen_eq_nil, gt_iff_lt, not_lt, hmax,
    hmin, hamount, and_assoc]
  refine and_congr_right fun _ => and_congr_left fun _ => ?_
  omega

theorem hexText_eq_nil_iff {data : Bytes} : hexText data = "0x".toList ↔ data = [] :=
  ⟨fun h => hexText_injective h, fun h => by rw [h]; rfl⟩

theorem hexByteLength_hexText (data : Bytes) : hexByteLength (hexText data) = data.length := by
  rw [hexByteLength, ← length_hexBytes, hexBytes_hexText]

theorem noteErrors_eq_nil
    (hcommitment : c.outputCommitment = hex32 (input (withdrawArgs args).publicInputs 2))
    (hnote : c.encryptedOutputNote = hexText (withdrawArgs args).encryptedOutputNote) :
    noteErrors request (stageCCall v mode args) c = [] ↔
      input (withdrawArgs args).publicInputs 2 ≠ 0 ∧
      (withdrawArgs args).encryptedOutputNote ≠ [] ∧
      (withdrawArgs args).encryptedOutputNote.length ≤ 2048 ∧
      relayValidateForBinding (hexText (withdrawArgs args).encryptedOutputNote)
        { chainId := request.chainId, pool := request.pool
          outputCommitment := hex32 (input (withdrawArgs args).publicInputs 2) } = [] := by
  have hhas : (stageCCall v mode args).hasChangeNote = true := rfl
  have hhex := isHexString_hexText (withdrawArgs args).encryptedOutputNote
  unfold noteErrors
  rw [hcommitment, hnote, if_neg (not_not.mpr (isHexBytes32_hex32 _))]
  simp only [List.append_eq_nil_iff, errorWhen_eq_nil, lower_hex32_eq_zero_iff, hhas, not_true,
    hhex, hexText_eq_nil_iff, hexByteLength_hexText, false_or, true_and, gt_iff_lt, not_lt, and_assoc,
    ne_eq]
  refine and_congr_right fun _ => and_congr_right fun hne => and_congr Iff.rfl ?_
  rw [if_pos hne]

/-! ### The hashes of a call -/

section Hashes
variable {fee : ℕ}

/-- The hashes are computed for the places and the amounts of a withdrawal. -/
structure PlaceAccepted (request : WithdrawalRelayCalldataValidationInput) (a : WithdrawArgs)
    (fee : ℕ) : Prop where
  chainId : request.chainId = 6343 ∨ request.chainId = 4326
  pool : isEvmAddress request.pool ∧ lower request.pool ≠ zeroAddress
  root : input a.publicInputs 0 ≠ 0
  nullifier : a.nullifier ≠ 0
  fee : fee < 2 ^ 256

include hv in
theorem relayFits_iff : RelayFits (relayHashesInput v request (stageCCall v mode args) fee) ↔
    PlaceAccepted request (withdrawArgs args) fee := by
  have hroot : (relayHashesInput v request (stageCCall v mode args) fee).root =
      hex32 (input (withdrawArgs args).publicInputs 0) := publicInput_stageCCall 0
  have hpolicy : PolicyFits (relayHashesInput v request (stageCCall v mode args) fee).relayerPolicy :=
    ⟨isEvmAddress_addressText 0, BitVec.isLt _, BitVec.isLt _, (by decide : 0 < 2 ^ 256)⟩
  constructor
  · intro h
    refine ⟨h.chainId, h.pool, ?_, ?_, h.fee⟩
    · have hne := h.root.2
      rwa [hroot, ne_eq, lower_hex32_eq_zero_iff] at hne
    · exact fun hzero => h.nullifier (lower_hex32_eq_zero_iff.mpr hzero)
  · intro h
    refine ⟨h.chainId, h.pool, ?_, fun hzero => h.nullifier (lower_hex32_eq_zero_iff.mp hzero),
      (hv.checksum _).1, BitVec.isLt _, h.fee, hpolicy⟩
    rw [hroot, ne_eq, lower_hex32_eq_zero_iff]
    exact ⟨isHexBytes32_hex32 _, h.root⟩

theorem decoded_stageCCall (hchain : request.chainId < 2 ^ 256) :
    Decoded (relayHashesInput v request (stageCCall v mode args) fee) := by
  refine ⟨hchain, ?_, isHexBytes32_hex32 _, ?_, isHexString_hexText _⟩
  · change isHexBytes4 withdrawBoundedSelector
    decide
  · change isHexBytes32 ((stageCCall v mode args).publicInput 2)
    rw [publicInput_stageCCall]
    exact isHexBytes32_hex32 _

include hv in
theorem hashErrors_eq_nil
    (hnullifier : input (withdrawArgs args).publicInputs 1 = (withdrawArgs args).nullifier)
    (hhashes : c.hashes = poolHashes env (relayHashesInput v request (stageCCall v mode args) fee)) :
    hashErrors (stageCCall v mode args) c = [] ↔ BindingsChecked env (withdrawContextShape env)
      (withdrawArgs args).publicInputs (withdrawArgs args).nullifier
      (withdrawArgs args).destination (withdrawArgs args).grossAmount fee
      (input (withdrawArgs args).publicInputs 2) (withdrawArgs args).encryptedOutputNote
      (withdrawArgs args).relayerPolicy (withdrawArgs args).selector := by
  set i := relayHashesInput v request (stageCCall v mode args) fee
  set a := withdrawArgs args
  have hroot : i.root = hex32 (input a.publicInputs 0) := publicInput_stageCCall 0
  have hcommitment : i.outputCommitment = hex32 (input a.publicInputs 2) := publicInput_stageCCall 2
  have hpool := poolHashes_eq (i := i) hv rfl
    (by rw [hroot, word_hex32]) (hnullifier.trans (word_hex32 _).symm)
  have hselector : bytes4 i.selector = a.selector :=
    (by decide : bytes4 withdrawBoundedSelector = 0x678d8506)
  have hdestination : address i.destination = a.destination := address_checksumAddress hv _
  have hnote : poolNote env i = outputNote (withdrawContextShape env) a.selector a.nullifier
      (input a.publicInputs 2) a.encryptedOutputNote := by
    unfold poolNote
    rw [hselector, hcommitment, word_hex32]
    exact congrArg₂ (fun n e => outputNote _ _ n _ e) (word_hex32 _) (hexBytes_hexText _)
  have hpolicy : i.relayerPolicy.read = a.relayerPolicy := by
    have hword : ∀ x : UInt256, BitVec.ofNat 256 x.toNat = x := fun x => by
      rw [BitVec.ofNat_toNat, BitVec.setWidth_eq]
    have hrelayer : address zeroAddress = 0 := address_addressText 0
    change RelayerPolicyInput.read ⟨zeroAddress, a.relayerPolicy.minNetAmount.toNat,
      a.relayerPolicy.maxFeeAmount.toNat, 0⟩ = boundsPolicy a.relayerPolicy.minNetAmount
        a.relayerPolicy.maxFeeAmount
    simp only [RelayerPolicyInput.read, hword, hrelayer, boundsPolicy]
    rfl
  have hcontext : poolContext env i a.publicInputs = proofContext env (withdrawContextShape env)
      a.selector a.publicInputs a.destination a.grossAmount fee (encryptedOutputNoteHash env
        (outputNote (withdrawContextShape env) a.selector a.nullifier (input a.publicInputs 2)
          a.encryptedOutputNote)) a.relayerPolicy := by
    have hgross : BitVec.ofNat 256 i.grossAmount = a.grossAmount := by
      change BitVec.ofNat 256 a.grossAmount.toNat = _
      rw [BitVec.ofNat_toNat, BitVec.setWidth_eq]
    unfold poolContext
    rw [hselector, hdestination, hgross, hnote, hpolicy]
    rfl
  unfold hashErrors
  rw [List.append_eq_nil_iff, errorWhen_eq_nil, errorWhen_eq_nil, not_not, not_not, hhashes, hpool,
    publicInput_stageCCall, publicInput_stageCCall, hnote, hcontext]
  simp only [poolHashed, lower_hex32_eq_iff]
  exact ⟨fun h => ⟨h.1, h.2⟩, fun h => ⟨h.noteHash, h.contextHash⟩⟩

end Hashes

/-! ### The decision -/

/-- The fee that the relay expects. -/
def relayFee (request : WithdrawalRelayCalldataValidationInput) (a : WithdrawArgs) : ℕ :=
  calculateWithdrawalFee a.grossAmount.toNat (request.feePolicy.map (·.activeFeeBps))

/-- **What the relay accepts** of the arguments of a withdrawal. -/
structure Accepts (env : Env) (request : WithdrawalRelayCalldataValidationInput)
    (a : WithdrawArgs) : Prop where
  place : PlaceAccepted request a (relayFee request a)
  length : a.publicInputs.length = 10
  nullifier : input a.publicInputs 1 = a.nullifier
  destination : input a.publicInputs 3 = Pool.Interface.addressToBytes32 a.destination
  grossAmount : input a.publicInputs 4 = a.grossAmount
  fee : (input a.publicInputs 5).toNat = relayFee request a
  feePolicy : ∀ policy ∈ request.feePolicy, validateWithdrawalFeePolicy policy
    a.grossAmount.toNat (relayFee request a) request.deadlineEpochSeconds = []
  chainId : (input a.publicInputs 6).toNat = request.chainId
  pool : input a.publicInputs 7 = Pool.Interface.addressToBytes32 (address request.pool)
  destination_ne : a.destination ≠ 0
  gross_ne : a.grossAmount.toNat ≠ 0
  supported : a.grossAmount.toNat ∈ supportedFixedDenominations
  fee_le_max : relayFee request a ≤ a.relayerPolicy.maxFeeAmount.toNat
  minNet_le : a.relayerPolicy.minNetAmount.toNat + relayFee request a ≤ a.grossAmount.toNat
  maxFee_le : a.relayerPolicy.maxFeeAmount.toNat ≤ a.grossAmount.toNat
  commitment_ne : input a.publicInputs 2 ≠ 0
  note_ne : a.encryptedOutputNote ≠ []
  note_le : a.encryptedOutputNote.length ≤ 2048
  envelope : relayValidateForBinding (hexText a.encryptedOutputNote)
    { chainId := request.chainId, pool := request.pool
      outputCommitment := hex32 (input a.publicInputs 2) } = []
  bindings : BindingsChecked env (withdrawContextShape env) a.publicInputs a.nullifier
    a.destination a.grossAmount (relayFee request a) (input a.publicInputs 2)
    a.encryptedOutputNote a.relayerPolicy a.selector

include hv

theorem addressToBytes32_eq_ok {t r : Text} : WithdrawalCall.addressToBytes32 v t = .ok r ↔
    isEvmAddress t ∧ r = hex32 (Pool.Interface.addressToBytes32 (address t)) := by
  have hpadded : ∀ a : Address, '0' :: 'x' :: (List.replicate 24 '0' ++
      lower ((v.checksumAddress a).drop 2)) = hex32 (Pool.Interface.addressToBytes32 a) := by
    intro a
    obtain ⟨hpattern, -⟩ := hv.checksum a
    have htext := addressText32_eq hpattern
    obtain ⟨digits, heq, hlen, -⟩ := isHexOfLength_iff.mp hpattern
    rw [address_checksumAddress hv] at htext
    rw [← htext, addressText32, padStart, heq, List.drop_succ_cons, List.drop_succ_cons,
      List.drop_zero, length_lower, hlen]
  unfold WithdrawalCall.addressToBytes32
  simp only [bind_eq_ok, getAddress_eq_ok hv, pure_eq_ok]
  constructor
  · rintro ⟨_, ⟨ht, rfl⟩, rfl⟩
    exact ⟨ht, hpadded _⟩
  · rintro ⟨ht, rfl⟩
    exact ⟨_, ⟨ht, rfl⟩, hpadded _⟩

/-- What is checked of a call, once the hashes are computed. -/
def checkedOf (request : WithdrawalRelayCalldataValidationInput) (a : WithdrawArgs)
    (hashes : V12UnlinkableWithdrawContextHashes) : Checked where
  expectedPool := hex32 (Pool.Interface.addressToBytes32 (address request.pool))
  expectedDestination := hex32 (Pool.Interface.addressToBytes32 a.destination)
  expectedFee := relayFee request a
  publicGrossAmount := (input a.publicInputs 4).toNat
  publicFee := (input a.publicInputs 5).toNat
  publicChainId := (input a.publicInputs 6).toNat
  outputCommitment := hex32 (input a.publicInputs 2)
  encryptedOutputNote := hexText a.encryptedOutputNote
  hashes := hashes

/-- A decision that allows has a pool, the hashes and no errors. -/
theorem allowed_iff : (∃ r, validateV12UnlinkableWithdrawalRelayCall v request
      (stageCCall v mode args) = .ok r ∧ r.allowed = true) ↔
    isEvmAddress request.pool ∧ ∃ hashes, contractBoundHashes v (relayHashesInput v request
        (stageCCall v mode args) (relayFee request (withdrawArgs args))) = .ok hashes ∧
      unlinkableErrors request (stageCCall v mode args)
        (checkedOf request (withdrawArgs args) hashes) = [] := by
  have hbig : ∀ index, bytes32ToBigInt ((stageCCall v mode args).publicInput index) =
      .ok (input (withdrawArgs args).publicInputs index).toNat := by
    intro index
    rw [publicInput_stageCCall]
    exact bigInt_hex32 _
  have hdestination : WithdrawalCall.addressToBytes32 v (stageCCall v mode args).destination =
      .ok (hex32 (Pool.Interface.addressToBytes32 (withdrawArgs args).destination)) := by
    refine (addressToBytes32_eq_ok hv).mpr ⟨(hv.checksum _).1, ?_⟩
    exact congrArg (fun x => hex32 (Pool.Interface.addressToBytes32 x))
      (address_checksumAddress hv _).symm
  have hcommitment : (stageCCall v mode args).publicInput 2 =
      hex32 (input (withdrawArgs args).publicInputs 2) := publicInput_stageCCall 2
  by_cases hpool : isEvmAddress request.pool
  · have hexpected := (addressToBytes32_eq_ok hv (t := request.pool)).mpr ⟨hpool, rfl⟩
    unfold validateV12UnlinkableWithdrawalRelayCall
    rw [hexpected, ok_bind, hdestination, ok_bind, hbig, ok_bind, hbig, ok_bind, hbig, ok_bind,
      hcommitment]
    change (∃ r, (contractBoundHashes v (relayHashesInput v request (stageCCall v mode args)
      (relayFee request (withdrawArgs args))) >>= fun hashes => pure (decision request
        (stageCCall v mode args) (checkedOf request (withdrawArgs args) hashes))) = .ok r ∧ _) ↔ _
    simp only [bind_eq_ok, pure_eq_ok]
    constructor
    · rintro ⟨r, ⟨hashes, hhashes, rfl⟩, hallowed⟩
      exact ⟨hpool, hashes, hhashes, decision_allowed.mp hallowed⟩
    · rintro ⟨-, hashes, hhashes, herrors⟩
      exact ⟨_, ⟨hashes, hhashes, rfl⟩, decision_allowed.mpr herrors⟩
  · constructor
    · rintro ⟨r, hr, -⟩
      unfold validateV12UnlinkableWithdrawalRelayCall at hr
      obtain ⟨_, hexpected, -⟩ := bind_eq_ok.mp hr
      exact absurd ((addressToBytes32_eq_ok hv).mp hexpected).1 hpool
    · exact fun h => absurd h.1 hpool

/-- **The decision** about a call that was decoded: it is allowed exactly if it is accepted. -/
theorem accepts_iff (hplace : Deployed env request.chainId request.pool) :
    (∃ r, validateV12UnlinkableWithdrawalRelayCall v request (stageCCall v mode args) = .ok r ∧
      r.allowed = true) ↔ Accepts env request (withdrawArgs args) := by
  set a := withdrawArgs args with ha
  have herrors : ∀ hashes, unlinkableErrors request (stageCCall v mode args)
        (checkedOf request a hashes) = [] ↔
      publicInputErrors (stageCCall v mode args) (checkedOf request a hashes) = [] ∧
      feeErrors request (stageCCall v mode args) (checkedOf request a hashes) = [] ∧
      placeErrors request (stageCCall v mode args) (checkedOf request a hashes) = [] ∧
      boundErrors (stageCCall v mode args) (checkedOf request a hashes) = [] ∧
      noteErrors request (stageCCall v mode args) (checkedOf request a hashes) = [] ∧
      hashErrors (stageCCall v mode args) (checkedOf request a hashes) = [] := by
    intro hashes
    simp only [unlinkableErrors, List.append_eq_nil_iff, and_assoc]
  rw [allowed_iff hv]
  constructor
  · rintro ⟨hpool, hashes, hhashes, hnil⟩
    obtain ⟨h1, h2, h3, h4, h5, h6⟩ := (herrors hashes).mp hnil
    obtain ⟨hten, hnullifier, hne, hdest, hgross⟩ := (publicInputErrors_eq_nil rfl rfl).mp h1
    obtain ⟨hpublicFee, hpolicy⟩ := feeErrors_eq_nil.mp h2
    obtain ⟨hchain, hpoolWord, hdestNe, hgrossNe, hsupported⟩ :=
      (placeErrors_eq_nil hv hten rfl).mp h3
    obtain ⟨hmax, hmin, hmaxLe⟩ := boundErrors_eq_nil.mp h4
    obtain ⟨hcommitment, hnoteNe, hnoteLe, henvelope⟩ := (noteErrors_eq_nil rfl rfl).mp h5
    have hchainLt : request.chainId < 2 ^ 256 := hchain ▸ BitVec.isLt _
    obtain ⟨hfits, rfl⟩ :=
      (contractBoundHashes_eq_ok hv hplace rfl (decoded_stageCCall hchainLt)).mp hhashes
    have hbindings := (hashErrors_eq_nil hv hnullifier rfl).mp h6
    exact ⟨(relayFits_iff hv).mp hfits, hten, hnullifier, hdest, hgross, hpublicFee,
      fun policy hp => (congrArg (fun fee => validateWithdrawalFeePolicy policy _ fee _ = [])
        hpublicFee).mp (hpolicy policy hp), hchain, hpoolWord, hdestNe, hgrossNe,
      hsupported, hmax, hmin, hmaxLe, hcommitment, hnoteNe, hnoteLe, henvelope, hbindings⟩
  · intro h
    have hchainLt : request.chainId < 2 ^ 256 := h.chainId ▸ BitVec.isLt _
    refine ⟨h.place.pool.1, _, (contractBoundHashes_eq_ok hv hplace rfl
      (decoded_stageCCall hchainLt)).mpr ⟨(relayFits_iff hv).mpr h.place, rfl⟩, ?_⟩
    refine (herrors _).mpr ⟨?_, ?_, ?_, ?_, ?_, ?_⟩
    · exact (publicInputErrors_eq_nil rfl rfl).mpr
        ⟨h.length, h.nullifier, h.place.nullifier, h.destination, h.grossAmount⟩
    · exact feeErrors_eq_nil.mpr ⟨h.fee, fun policy hp => by
        have hpolicy := h.feePolicy policy hp
        rwa [← h.fee] at hpolicy⟩
    · exact (placeErrors_eq_nil hv h.length rfl).mpr
        ⟨h.chainId, h.pool, h.destination_ne, h.gross_ne, h.supported⟩
    · exact boundErrors_eq_nil.mpr ⟨h.fee_le_max, h.minNet_le, h.maxFee_le⟩
    · exact (noteErrors_eq_nil rfl rfl).mpr
        ⟨h.commitment_ne, h.note_ne, h.note_le, h.envelope⟩
    · exact (hashErrors_eq_nil hv h.nullifier rfl).mpr h.bindings

end Spec

end Nullark.Relay.UnlinkableCall
