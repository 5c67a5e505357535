import Nullark.Pool.Arguments
import Nullark.Relay.StageCalls
import Nullark.Relay.UnlinkableCall

/-! # What the relay accepts, the pool accepts

`validateWithdrawalRelayCalldata` decodes a call and checks it in the mode of the relay.

* `allowed_iff`: the calldata that is allowed in the v1.2 mode.
* `pool_accepts_iff`: the pool makes one check of the arguments that the relay does not make, that
  the new commitment is a field element. -/

namespace Nullark.Relay.WithdrawalCalldata

open Nullark.Lib.Outcome Nullark.Lib.Hex Nullark.Lib.Bytes Nullark.Lib.Abi Nullark.Lib.AbiTuple
open Nullark.Evm.Basic
open Nullark.Pool.Interface Nullark.Pool.Context Nullark.Pool.Arguments Nullark.Pool.Calls
open Nullark.Js.Basic Nullark.Js.Bytes Nullark.Js.Package Nullark.Js.Calldata
open Nullark.Js.ContextHashes Nullark.Relay.FeePolicy Nullark.Relay.WithdrawalCall
open Nullark.Js.OutputNoteEnvelope Nullark.Js.OutputNoteBinding
open Nullark.Relay.StageCalls Nullark.Relay.UnlinkableCall
open Nullark.Pool.Actions (input Msg WithdrawArgs outputNote proofContext)

section Code
variable (v : Viem) (d : Decoder)

/-- **`validateWithdrawalRelayCalldata`**. -/
def validateWithdrawalRelayCalldata (request : WithdrawalRelayCalldataValidationInput) :
    Throws WithdrawalRelayCalldataValidation :=
  match decodeWithdrawalRelayCall v d request.data with
  | .error message => .ok { allowed := false, errors := [message], decoded := none }
  | .ok decoded =>
    let relayValidationMode := request.relayValidationMode.getD .v11
    let call := { decoded with relayValidationMode := some relayValidationMode }
    match relayValidationMode with
    | .v12Unlinkable => validateV12UnlinkableWithdrawalRelayCall v request call
    | .v11 => validateV11WithdrawalRelayCall v request call

end Code

section Spec
variable {v : Viem} {d : Decoder} {env : Env} (hv : Documented v env.keccak256)
  {request : WithdrawalRelayCalldataValidationInput}

/-- A call without a note is refused. -/
theorem hasChangeNote_of_allowed {call : WithdrawalRelayCall}
    {r : WithdrawalRelayCalldataValidation}
    (h : validateV12UnlinkableWithdrawalRelayCall v request call = .ok r)
    (hallowed : r.allowed = true) : call.hasChangeNote = true := by
  unfold validateV12UnlinkableWithdrawalRelayCall at h
  obtain ⟨_, -, h⟩ := bind_eq_ok.mp h
  obtain ⟨_, -, h⟩ := bind_eq_ok.mp h
  obtain ⟨_, -, h⟩ := bind_eq_ok.mp h
  obtain ⟨_, -, h⟩ := bind_eq_ok.mp h
  obtain ⟨_, -, h⟩ := bind_eq_ok.mp h
  obtain ⟨_, -, h⟩ := bind_eq_ok.mp h
  rw [← pure_eq_ok.mp h, decision_allowed] at hallowed
  simp only [unlinkableErrors, noteErrors, List.append_eq_nil_iff, errorWhen_eq_nil, not_or,
    not_not] at hallowed
  exact hallowed.1.2.1.1.2.1

theorem validate_of_decoded (hmode : request.relayValidationMode = some .v12Unlinkable)
    {call : WithdrawalRelayCall} (h : decodeWithdrawalRelayCall v d request.data = .ok call) :
    validateWithdrawalRelayCalldata v d request = validateV12UnlinkableWithdrawalRelayCall v request
      { call with relayValidationMode := some .v12Unlinkable } := by
  unfold validateWithdrawalRelayCalldata
  rw [h, hmode]
  rfl

include hv

/-- **The calldata that is allowed** in the v1.2 mode has the selector of the bounded withdrawal
with a note, and arguments that are accepted. -/
theorem allowed_iff (hmode : request.relayValidationMode = some .v12Unlinkable)
    (hplace : Deployed env request.chainId request.pool) :
    (∃ r, validateWithdrawalRelayCalldata v d request = .ok r ∧ r.allowed = true) ↔
      (isHex request.data ∧ 10 ≤ request.data.length) ∧
      lower (request.data.take 10) = withdrawBoundedSelector ∧
      ∃ args, d.decodeAbiParameters stageCWithdrawBoundedParameters
          ('0' :: 'x' :: request.data.drop 10) = .ok args ∧
        Accepts env request (withdrawArgs args) := by
  constructor
  · rintro ⟨r, hr, hallowed⟩
    cases hdecoded : decodeWithdrawalRelayCall v d request.data with
    | error message =>
      unfold validateWithdrawalRelayCalldata at hr
      rw [hdecoded] at hr
      rw [← Except.ok.inj hr] at hallowed
      cases hallowed
    | ok call =>
      rw [validate_of_decoded hmode hdecoded] at hr
      have hnote := hasChangeNote_of_allowed hr hallowed
      obtain ⟨hhex, hselector, args, hargs, rfl⟩ :=
        (@decodeWithdrawalRelayCall_eq_ok _ _ _ hv _ call hnote).mp hdecoded
      exact ⟨hhex, hselector, args, hargs, (accepts_iff hv hplace).mp ⟨r, hr, hallowed⟩⟩
  · rintro ⟨hhex, hselector, args, hargs, haccepts⟩
    have hdecoded : decodeWithdrawalRelayCall v d request.data = .ok (stageCCall v none args) :=
      (decodeWithdrawalRelayCall_eq_ok hv rfl).mpr ⟨hhex, hselector, args, hargs, rfl⟩
    rw [validate_of_decoded hmode hdecoded]
    exact (accepts_iff hv hplace).mpr haccepts

/-! ### The pool -/

/-- The call of the pool with the arguments. -/
def poolCall : StageCArguments → Call
  | (proof, publicInputs, nullifier, destination, grossAmount, encryptedOutputNote, minNetAmount,
      maxFeeAmount, ()) =>
    .withdrawNoteBounded proof publicInputs nullifier destination grossAmount encryptedOutputNote
      minNetAmount maxFeeAmount

omit hv in
/-- The pool withdraws with the arguments. -/
theorem action_poolCall (args : StageCArguments) :
    (poolCall args).action = .withdraw (withdrawArgs args) := rfl

omit hv in
theorem policyChecked_withdrawArgs (msg : Msg) (args : StageCArguments) :
    Pool.Checks.PolicyChecked msg (withdrawArgs args).relayerPolicy :=
  ⟨fun hne => absurd rfl hne, fun hne => absurd rfl hne⟩

/-- The text carries the call of the pool with the arguments. -/
def Sends (data : Text) (args : StageCArguments) : Prop :=
  isHexString data ∧
    hexBytes data = callBytes (poolCall args).selector stageCWithdrawBoundedParameters args ∧
    (callBytes (poolCall args).selector stageCWithdrawBoundedParameters args).length < 2 ^ 256

omit hv in
/-- A call is not much longer than its three lists. -/
theorem length_callBytes_le (selector : Bytes4) (args : StageCArguments) :
    (callBytes selector stageCWithdrawBoundedParameters args).length ≤
      (withdrawArgs args).proof.length + 32 * (withdrawArgs args).publicInputs.length +
        (withdrawArgs args).encryptedOutputNote.length + 418 := by
  have hle := (length_stageC args).2
  unfold callBytes
  rw [List.length_append, length_beBytes]
  obtain ⟨proof, publicInputs, nullifier, destination, grossAmount, note, minNet, maxFee, ⟨⟩⟩ := args
  dsimp only [withdrawArgs] at hle ⊢
  omega

omit hv in
/-- **The checks of the pool** on arguments that the relay accepts. -/
theorem arguments_iff {args : StageCArguments} {feeBps : ℕ}
    (hplace : Deployed env request.chainId request.pool)
    (hrate : (request.feePolicy.map (·.activeFeeBps)).getD withdrawalFeeBps = feeBps)
    (h : Accepts env request (withdrawArgs args)) (msg : Msg) :
    WithdrawArguments env feeBps msg (withdrawArgs args) ↔
      isFieldElement (input (withdrawArgs args).publicInputs 2) := by
  refine ⟨fun hchecks => hchecks.commitment_field, fun hfield => ?_⟩
  set a := withdrawArgs args
  have hfee : relayFee request a = feeAt feeBps a.grossAmount := by
    rw [← hrate]
    rfl
  have hgross : a.grossAmount.toNat ≤ 1000000000000000000 := by
    have hall : ∀ n ∈ supportedFixedDenominations, n ≤ 1000000000000000000 := by decide
    exact hall _ h.supported
  have hrate_le : feeBps ≤ 100 := by
    rw [← hrate]
    cases hpolicy : request.feePolicy with
    | none => decide
    | some policy =>
      exact (validateWithdrawalFeePolicy_eq_nil.mp (h.feePolicy policy hpolicy)).1
  have hproduct : a.grossAmount.toNat * feeBps < wordSize :=
    lt_of_le_of_lt (Nat.mul_le_mul hgross hrate_le) (by decide)
  have hfee_le : feeAt feeBps a.grossAmount ≤ a.grossAmount.toNat := by
    have := h.minNet_le
    omega
  have hword : ∀ {x : Bytes32} {n : ℕ}, x.toNat = n → x = BitVec.ofNat 256 n := by
    rintro x _ rfl
    rw [BitVec.ofNat_toNat, BitVec.setWidth_eq]
  exact
    { nullifier_ne := h.place.nullifier
      destination_ne := h.destination_ne
      gross_pos := Nat.pos_of_ne_zero h.gross_ne
      note_le := h.note_le
      product_lt := hproduct
      length := h.length
      nullifier := h.nullifier
      chainId := (hword h.chainId).trans hplace.chainId.symm
      this := h.pool.trans (congrArg Pool.Interface.addressToBytes32 hplace.this.symm)
      commitment_ne := h.commitment_ne
      commitment_field := hfield
      destination := h.destination
      grossAmount := h.grossAmount
      fee := hfee ▸ hword h.fee
      policy := policyChecked_withdrawArgs msg args
      supported := h.supported
      note_ne := fun hzero => h.note_ne (List.length_eq_zero_iff.mp hzero)
      bindings := hfee ▸ h.bindings
      fee_le := hfee_le
      fee_le_max := hfee ▸ h.fee_le_max
      minNet_le := by
        have := h.minNet_le
        omega }

/-- **What the relay accepts, the pool accepts**, if the new commitment is a field element. -/
theorem pool_accepts_iff (hd : d.Inverts) {r : WithdrawalRelayCalldataValidation} {feeBps : ℕ}
    (hmode : request.relayValidationMode = some .v12Unlinkable)
    (hplace : Deployed env request.chainId request.pool)
    (hrate : (request.feePolicy.map (·.activeFeeBps)).getD withdrawalFeeBps = feeBps)
    (h : validateWithdrawalRelayCalldata v d request = .ok r) (hallowed : r.allowed = true) :
    ∃ args, d.decodeAbiParameters stageCWithdrawBoundedParameters
        ('0' :: 'x' :: request.data.drop 10) = .ok args ∧
      (∀ sent, Sends request.data sent → sent = args) ∧
      (poolCall args).action = .withdraw (withdrawArgs args) ∧
      ∀ msg, WithdrawArguments env feeBps msg (withdrawArgs args) ↔
        isFieldElement (input (withdrawArgs args).publicInputs 2) := by
  obtain ⟨-, -, args, hargs, haccepts⟩ := (allowed_iff hv hmode hplace).mp ⟨r, h, hallowed⟩
  refine ⟨args, hargs, ?_, action_poolCall args, arguments_iff hplace hrate haccepts⟩
  rintro sent ⟨hhex, hbytes, hsize⟩
  have hsent := (decode_callBytes hd hhex hbytes hsize).2
  rw [hargs] at hsent
  exact (Except.ok.inj hsent).symm

end Spec

/-! ### A withdrawal for any commitment -/

def samplePool : Text := addressText 0x5555555555555555555555555555555555555555

/-- An output note for a commitment. -/
def sampleNote (commitment : Bytes32) : CreateInput where
  chainId := 6343
  verifyingContract := samplePool
  outputCommitment := hex32 commitment
  ciphertext := "0x00".toList

theorem sampleNote_fits (commitment : Bytes32) : (sampleNote commitment).Fits where
  ciphertext := (by decide : isNonEmptyHex "0x00".toList)
  length_le := (by decide : hexByteLength "0x00".toList ≤ paddedCiphertextBytes)
  chainId := .inr rfl
  verifyingContract := isEvmAddress_addressText _
  outputCommitment := isHexBytes32_hex32 _
  ephemeralPublicKey := fun t ht => absurd ht (Option.not_mem_none t)
  nonce := fun t ht => absurd ht (Option.not_mem_none t)

/-- Public inputs, up to the two hashes. -/
def sampleInputs (commitment contextHash noteHash : Bytes32) : List Bytes32 :=
  [1, 2, commitment, 0x4444444444444444444444444444444444444444, 10000000000000000,
    33000000000000, 6343, 0x5555555555555555555555555555555555555555, contextHash, noteHash]

/-- The hash of the note, as the pool computes it. -/
def sampleNoteHash (commitment : Bytes32) : Bytes32 :=
  encryptedOutputNoteHash digitsEnv (outputNote (withdrawContextShape digitsEnv) 0x678d8506 2
    commitment (sampleNote commitment).envelope.bytes)

/-- The hash of the call, as the pool computes it. -/
def sampleContextHash (commitment : Bytes32) : Bytes32 :=
  proofContextHash digitsEnv (proofContext digitsEnv (withdrawContextShape digitsEnv) 0x678d8506
    (sampleInputs commitment 0 0) 0x4444444444444444444444444444444444444444 10000000000000000
    33000000000000 (sampleNoteHash commitment) (boundsPolicy 9967000000000000 33000000000000))

def sampleArgs (commitment : Bytes32) : StageCArguments :=
  ([], sampleInputs commitment (sampleContextHash commitment) (sampleNoteHash commitment), 2,
    0x4444444444444444444444444444444444444444, 10000000000000000,
    (sampleNote commitment).envelope.bytes, 9967000000000000, 33000000000000, ())

def sampleRequest (commitment : Bytes32) : WithdrawalRelayCalldataValidationInput where
  data := hexText (callBytes 0x678d8506 stageCWithdrawBoundedParameters (sampleArgs commitment))
  chainId := 6343
  pool := samplePool
  relayValidationMode := some .v12Unlinkable
  deadlineEpochSeconds := some 1000
  expectedRelayer := none
  expectedRelayerPolicyHash := none
  feePolicy := some ⟨33, none, none, some 1⟩

/-- The hashes are not among what is hashed. -/
theorem bindings_sample (commitment : Bytes32) : Pool.Checks.BindingsChecked digitsEnv
    (withdrawContextShape digitsEnv) (withdrawArgs (sampleArgs commitment)).publicInputs 2
    0x4444444444444444444444444444444444444444 10000000000000000 33000000000000 commitment
    (sampleNote commitment).envelope.bytes (boundsPolicy 9967000000000000 33000000000000)
    0x678d8506 where
  noteHash := by
    have hinput : ∀ contextHash noteHash,
        input (sampleInputs commitment contextHash noteHash) 9 = noteHash := fun _ _ => rfl
    exact (hinput (sampleContextHash commitment) (sampleNoteHash commitment)).trans
      (by rw [sampleNoteHash])
  contextHash := by
    have hinput : ∀ contextHash noteHash,
        input (sampleInputs commitment contextHash noteHash) 8 = contextHash := fun _ _ => rfl
    have hcontext : ∀ contextHash noteHash bound, proofContext digitsEnv
        (withdrawContextShape digitsEnv) 0x678d8506 (sampleInputs commitment contextHash noteHash)
        0x4444444444444444444444444444444444444444 10000000000000000 33000000000000 bound
        (boundsPolicy 9967000000000000 33000000000000) = proofContext digitsEnv
        (withdrawContextShape digitsEnv) 0x678d8506 (sampleInputs commitment 0 0)
        0x4444444444444444444444444444444444444444 10000000000000000 33000000000000 bound
        (boundsPolicy 9967000000000000 33000000000000) := fun _ _ _ => rfl
    refine (hinput (sampleContextHash commitment) (sampleNoteHash commitment)).trans ?_
    rw [sampleContextHash, sampleNoteHash]
    exact congrArg _ (hcontext _ _ _).symm

theorem sampleRequest_deployed (commitment : Bytes32) :
    Deployed digitsEnv (sampleRequest commitment).chainId (sampleRequest commitment).pool :=
  ⟨rfl, (address_addressText _).symm⟩

theorem grossAmount_sampleArgs (commitment : Bytes32) :
    (withdrawArgs (sampleArgs commitment)).grossAmount.toNat = 10000000000000000 := by
  change (10000000000000000 : UInt256).toNat = _
  decide

theorem relayFee_sample (commitment : Bytes32) :
    relayFee (sampleRequest commitment) (withdrawArgs (sampleArgs commitment)) =
      33000000000000 := by
  unfold relayFee
  rw [grossAmount_sampleArgs]
  change calculateWithdrawalFee 10000000000000000 (some 33) = _
  decide

theorem maxFeeAmount_sampleArgs (commitment : Bytes32) :
    (withdrawArgs (sampleArgs commitment)).relayerPolicy.maxFeeAmount.toNat = 33000000000000 := by
  change (33000000000000 : UInt256).toNat = _
  decide

theorem minNetAmount_sampleArgs (commitment : Bytes32) :
    (withdrawArgs (sampleArgs commitment)).relayerPolicy.minNetAmount.toNat =
      9967000000000000 := by
  change (9967000000000000 : UInt256).toNat = _
  decide

theorem feePolicy_sample : validateWithdrawalFeePolicy ⟨33, none, none, some 1⟩ 10000000000000000
    33000000000000 (some 1000) = [] := by
  decide

/-- The relay accepts all but the commitment zero. -/
theorem accepts_sample {commitment : Bytes32} (hne : commitment ≠ 0) :
    Accepts digitsEnv (sampleRequest commitment) (withdrawArgs (sampleArgs commitment)) := by
  have hwell := wellFormed_envelope (sampleNote_fits commitment)
  have hlength := length_bytes_le hwell
  have hmatches : Matches (bindingOf (sampleNote commitment)).context
      (sampleNote commitment).envelope := by
    refine ⟨?_, ?_, ?_⟩ <;> rintro _ ⟨⟩ <;> rfl
  have hbound := bound_of_wellFormed hwell hmatches rfl
  have hpool : lower samplePool ≠ zeroAddress := by decide
  have hroot : (1 : Bytes32) ≠ 0 := by decide
  have hnullifier : (2 : Bytes32) ≠ 0 := by decide
  have hplace : PlaceAccepted (sampleRequest commitment) (withdrawArgs (sampleArgs commitment))
      33000000000000 :=
    ⟨.inl rfl, ⟨isEvmAddress_addressText _, hpool⟩, hroot, hnullifier, by decide⟩
  constructor
  case place => rw [relayFee_sample]; exact hplace
  case length => rfl
  case nullifier => rfl
  case destination =>
    exact (by decide : (0x4444444444444444444444444444444444444444 : Bytes32) =
      Pool.Interface.addressToBytes32 0x4444444444444444444444444444444444444444)
  case grossAmount => rfl
  case fee =>
    rw [relayFee_sample]
    exact (by decide : (33000000000000 : Bytes32).toNat = 33000000000000)
  case feePolicy =>
    intro policy hpolicy
    rw [relayFee_sample, grossAmount_sampleArgs, ← Option.some.inj hpolicy]
    exact feePolicy_sample
  case chainId => exact (by decide : (6343 : Bytes32).toNat = 6343)
  case pool =>
    have haddress : address (sampleRequest commitment).pool =
        0x5555555555555555555555555555555555555555 := address_addressText _
    rw [haddress]
    exact (by decide : (0x5555555555555555555555555555555555555555 : Bytes32) =
      Pool.Interface.addressToBytes32 0x5555555555555555555555555555555555555555)
  case destination_ne =>
    exact (by decide : (0x4444444444444444444444444444444444444444 : Address) ≠ 0)
  case gross_ne => rw [grossAmount_sampleArgs]; decide
  case supported => rw [grossAmount_sampleArgs]; decide
  case fee_le_max => rw [relayFee_sample, maxFeeAmount_sampleArgs]
  case minNet_le => rw [relayFee_sample, minNetAmount_sampleArgs, grossAmount_sampleArgs]
  case maxFee_le => rw [maxFeeAmount_sampleArgs, grossAmount_sampleArgs]; decide
  case commitment_ne => exact hne
  case note_ne => exact fun hnil => absurd (congrArg List.length hnil) (Nat.ne_of_gt hlength.1)
  case note_le => exact hlength.2.trans (by decide)
  case envelope =>
    exact relayValidateForBinding_eq_nil.mpr ⟨_, carries_bytes (exact_members hwell), hbound⟩
  case bindings =>
    rw [relayFee_sample]
    exact bindings_sample commitment

/-- The request sends the arguments. -/
theorem sends_sample (commitment : Bytes32) :
    Sends (sampleRequest commitment).data (sampleArgs commitment) := by
  have hnote := (length_bytes_le (wellFormed_envelope (sampleNote_fits commitment))).2
  have hsize := length_callBytes_le 0x678d8506 (sampleArgs commitment)
  simp only [withdrawArgs, sampleArgs, sampleInputs, List.length_cons, List.length_nil] at hsize
  have hword : (2000 : ℕ) < 2 ^ 256 := by decide
  refine ⟨isHexString_hexText _, hexBytes_hexText _, lt_of_le_of_lt (hsize.trans ?_) hword⟩
  omega

/-- The request is allowed, for all but the commitment zero. -/
theorem allowed_sample {commitment : Bytes32} (hne : commitment ≠ 0) :
    ∃ r, validateWithdrawalRelayCalldata digitsViem standardDecoder (sampleRequest commitment) =
      .ok r ∧ r.allowed = true := by
  obtain ⟨hhex, hbytes, hsize⟩ := sends_sample commitment
  obtain ⟨hselector, hargs⟩ := decode_callBytes standardDecoder_inverts hhex hbytes hsize
  have hlong : 10 ≤ (sampleRequest commitment).data.length := by
    have htake := congrArg List.length hselector
    have hten : (selectorText (poolCall (sampleArgs commitment)).selector).length = 10 := by
      simp only [selectorText, List.length_cons, length_fixed]
    rw [length_lower, List.length_take, hten] at htake
    omega
  have hbounded : selectorText (poolCall (sampleArgs commitment)).selector =
      withdrawBoundedSelector :=
    (by decide : selectorText 0x678d8506 = withdrawBoundedSelector)
  exact (allowed_iff documented_digitsViem rfl
    (sampleRequest_deployed commitment)).mpr
    ⟨⟨hhex.2, hlong⟩, hselector.trans hbounded, _, hargs, accepts_sample hne⟩

/-- A call that the relay allows and the pool refuses: the new commitment is no field element. -/
theorem pool_refuses_allowed :
    (∃ r, validateWithdrawalRelayCalldata digitsViem standardDecoder
        (sampleRequest (BitVec.allOnes 256)) = .ok r ∧ r.allowed = true) ∧
      Deployed digitsEnv (sampleRequest (BitVec.allOnes 256)).chainId
        (sampleRequest (BitVec.allOnes 256)).pool ∧
      Sends (sampleRequest (BitVec.allOnes 256)).data (sampleArgs (BitVec.allOnes 256)) ∧
      ∀ msg, ¬WithdrawArguments digitsEnv 33 msg
        (withdrawArgs (sampleArgs (BitVec.allOnes 256))) := by
  have hne : BitVec.allOnes 256 ≠ 0 := by decide
  refine ⟨allowed_sample hne, sampleRequest_deployed _, sends_sample _, fun msg hchecks => ?_⟩
  have hfield : isFieldElement (BitVec.allOnes 256) := hchecks.commitment_field
  exact absurd hfield (by decide)

/-- A commitment that is a field element. -/
theorem pool_accepts_sample : ∃ args,
    standardDecoder.decodeAbiParameters stageCWithdrawBoundedParameters
        ('0' :: 'x' :: (sampleRequest 3).data.drop 10) = .ok args ∧
      (∀ sent, Sends (sampleRequest 3).data sent → sent = args) ∧
      (poolCall args).action = .withdraw (withdrawArgs args) ∧
      ∀ msg, WithdrawArguments digitsEnv 33 msg (withdrawArgs args) ↔
        isFieldElement (input (withdrawArgs args).publicInputs 2) :=
  have hne : (3 : Bytes32) ≠ 0 := by decide
  let hr := (allowed_sample hne).choose_spec
  pool_accepts_iff documented_digitsViem standardDecoder_inverts rfl
    (sampleRequest_deployed 3) rfl hr.1 hr.2

end Nullark.Relay.WithdrawalCalldata
