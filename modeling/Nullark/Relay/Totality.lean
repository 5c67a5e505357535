import Nullark.Relay.WithdrawalCalldata

/-! # When the relay decides

`validateWithdrawalRelayCalldata` collects errors, but computes hashes of the call with functions
that throw.

* `decodedCall_of_ok`: the calls that are decoded.
* `validateV12_returns_iff`, `validateV11_returns_iff`: the calls that are decided, in either mode.
* `decides_iff`: the calldata that is decided. -/

namespace Nullark.Relay.Totality

open Nullark.Lib.Outcome Nullark.Lib.Hex Nullark.Lib.AbiTuple Nullark.Evm.Basic
open Nullark.Pool.Context Nullark.Core.Proofs
open Nullark.Js.Basic Nullark.Js.Bytes Nullark.Js.Package Nullark.Js.Calldata
open Nullark.Js.ContextHashes Nullark.Relay.ContextHashes Nullark.Relay.FeePolicy
open Nullark.Relay.WithdrawalCall Nullark.Relay.WithdrawalCalldata
open Nullark.Relay.StageCalls
open Nullark.Relay.UnlinkableCall (validateV12UnlinkableWithdrawalRelayCall relayHashesInput)

/-! ### Decoded calls -/

/-- The kinds of calls that are decoded. -/
inductive Kind (call : WithdrawalRelayCall) : Prop
  | fullExit (selector : call.selector = withdrawFullExitSelector)
      (note : call.hasChangeNote = false) (policy : call.relayerPolicy.isSome = false)
  | relayerPolicy (selector : call.selector = withdrawRelayerPolicySelector)
      (note : call.hasChangeNote = false) (policy : call.relayerPolicy.isSome = true)
  | stageC (selector : call.selector = withdrawBoundedSelector)
      (note : call.hasChangeNote = true) (policy : call.relayerPolicy.isSome = false)

/-- **The calls that are decoded.** -/
structure DecodedCall (call : WithdrawalRelayCall) : Prop where
  publicInputs : ∀ x ∈ call.publicInputs, isHexBytes32 x
  nullifier : isHexBytes32 call.nullifier
  destination : isEvmAddress call.destination
  grossAmount : call.grossAmount < 2 ^ 256
  minNetAmount : call.minNetAmount.getD 0 < 2 ^ 256
  maxFeeAmount : call.maxFeeAmount.getD 0 < 2 ^ 256
  relayerPolicy : ∀ policy ∈ call.relayerPolicy, PolicyFits policy
  encryptedChangeNote : ∀ note ∈ call.encryptedChangeNote, isHexString note
  kind : Kind call

section Decoded
variable {v : Viem} {keccak : Bytes → Bytes32} (hv : Documented v keccak)
include hv

theorem isEvmAddress_of_getAddress {t r : Text} (h : v.getAddress t = .ok r) : isEvmAddress r := by
  obtain ⟨-, rfl⟩ := (getAddress_eq_ok hv).mp h
  exact (hv.checksum _).1

/-- What is normalized stays one of these. -/
theorem decodedCall_of_normalized {input call : WithdrawalRelayCall} (hinput : DecodedCall input)
    (h : normalizeDecodedWithdrawalCall v input = .ok call) : DecodedCall call := by
  unfold normalizeDecodedWithdrawalCall at h
  simp only [bind_eq_ok, pure_eq_ok] at h
  obtain ⟨destination, hdestination, relayerPolicy, hpolicy, rfl⟩ := h
  have hnormal : (relayerPolicy.isSome = input.relayerPolicy.isSome) ∧
      (∀ policy ∈ relayerPolicy, PolicyFits policy) := by
    cases hp : input.relayerPolicy with
    | none =>
      rw [hp] at hpolicy
      rw [← Except.ok.inj hpolicy]
      exact ⟨rfl, fun _ hmem => absurd hmem (Option.not_mem_none _)⟩
    | some policy =>
      rw [hp] at hpolicy
      unfold normalizePolicy at hpolicy
      obtain ⟨relayer, hrelayer, hmade⟩ := bind_eq_ok.mp hpolicy
      rw [← pure_eq_ok.mp hmade]
      have hfits := hinput.relayerPolicy policy hp
      refine ⟨rfl, ?_⟩
      rintro _ ⟨⟩
      exact ⟨isEvmAddress_of_getAddress hv hrelayer, hfits.minNetAmount, hfits.maxFeeAmount,
        hfits.deadlineOrZero⟩
  have hor : ∀ {n : Option ℕ} {f : RelayerPolicyInput → ℕ}, n.getD 0 < 2 ^ 256 →
      (∀ policy ∈ relayerPolicy, f policy < 2 ^ 256) →
      ((relayerPolicy.map f).or n).getD 0 < 2 ^ 256 := by
    intro n f hn hf
    cases hr : relayerPolicy with
    | none => exact hn
    | some policy => exact hf policy hr
  exact
    { publicInputs := by
        intro x hx
        obtain ⟨y, hy, rfl⟩ := List.mem_map.mp hx
        exact isHexOfLength_lower (hinput.publicInputs y hy)
      nullifier := isHexOfLength_lower hinput.nullifier
      destination := isEvmAddress_of_getAddress hv hdestination
      grossAmount := hinput.grossAmount
      minNetAmount := hor hinput.minNetAmount fun policy hmem => (hnormal.2 policy hmem).minNetAmount
      maxFeeAmount := hor hinput.maxFeeAmount fun policy hmem => (hnormal.2 policy hmem).maxFeeAmount
      relayerPolicy := hnormal.2
      encryptedChangeNote := hinput.encryptedChangeNote
      kind := by
        rcases hinput.kind with ⟨h1, h2, h3⟩ | ⟨h1, h2, h3⟩ | ⟨h1, h2, h3⟩
        · exact .fullExit h1 h2 (hnormal.1.trans h3)
        · exact .relayerPolicy h1 h2 (hnormal.1.trans h3)
        · exact .stageC h1 h2 (hnormal.1.trans h3) }

/-- **Every call that is decoded** is one of these. -/
theorem decodedCall_of_ok {d : Decoder} {data : Text} {call : WithdrawalRelayCall}
    (h : decodeWithdrawalRelayCall v d data = .ok call) : DecodedCall call := by
  have hinputs : ∀ {xs : List Bytes32}, ∀ x ∈ xs.map hex32, isHexBytes32 x := by
    intro xs x hx
    obtain ⟨y, -, rfl⟩ := List.mem_map.mp hx
    exact isHexBytes32_hex32 y
  have hchecksum : ∀ a, isEvmAddress (v.checksumAddress a) := fun a => (hv.checksum a).1
  have hword : ∀ x : Bytes32, x.toNat < 2 ^ 256 := fun x => x.isLt
  have hnone : ∀ {α : Type} {p : α → Prop}, ∀ x ∈ (none : Option α), p x :=
    fun _ hx => absurd hx (Option.not_mem_none _)
  have hzero : 0 < 2 ^ 256 := by decide
  unfold decodeWithdrawalRelayCall at h
  dsimp only at h
  split_ifs at h with hhex hs1 hs2 hs3 hs4 hs5
  · rw [undecodable_eq_ok, hs2] at h
    unfold decodeWithdrawBounded at h
    obtain ⟨⟨_, publicInputs, nullifier, destination, gross, minNet, maxFee, ⟨⟩⟩, -, h⟩ :=
      bind_eq_ok.mp h
    refine decodedCall_of_normalized hv ⟨hinputs, isHexBytes32_hex32 _, hchecksum _, hword _,
      ?_, ?_, hnone, hnone, .fullExit rfl rfl rfl⟩ h
    · exact hword _
    · exact hword _
  · rw [undecodable_eq_ok, hs3] at h
    unfold decodeStageBRelayerPolicy at h
    obtain ⟨⟨_, publicInputs, nullifier, destination, gross, relayer, minNet, maxFee, deadline,
      ⟨⟩⟩, -, h⟩ := bind_eq_ok.mp h
    refine decodedCall_of_normalized hv ⟨hinputs, isHexBytes32_hex32 _, hchecksum _, hword _,
      ?_, ?_, ?_, hnone, .relayerPolicy rfl rfl rfl⟩ h
    · exact hzero
    · exact hzero
    · rintro _ ⟨⟩
      exact ⟨hchecksum _, hword _, hword _, hword _⟩
  · rw [undecodable_eq_ok, hs5] at h
    unfold decodeStageCWithdrawBounded at h
    obtain ⟨⟨_, publicInputs, nullifier, destination, gross, note, minNet, maxFee, ⟨⟩⟩, -, h⟩ :=
      bind_eq_ok.mp h
    refine decodedCall_of_normalized hv ⟨hinputs, isHexBytes32_hex32 _, hchecksum _, hword _,
      ?_, ?_, hnone, ?_, .stageC rfl rfl rfl⟩ h
    · exact hword _
    · exact hword _
    · rintro _ ⟨⟩
      exact isHexString_hexText _

end Decoded

/-! ### The mode v1.2 -/

/-- **A valid configuration**: a chain and a pool, a rate in the bounds and, if a relayer is
expected, its address. -/
structure ValidConfig (request : WithdrawalRelayCalldataValidationInput) : Prop where
  chainId : request.chainId = 6343 ∨ request.chainId = 4326
  pool : isEvmAddress request.pool ∧ lower request.pool ≠ zeroAddress
  feePolicy : ∀ policy ∈ request.feePolicy, policy.activeFeeBps ≤ maxWithdrawalFeeBps
  expectedRelayer : ∀ t ∈ request.expectedRelayer, isEvmAddress t

/-- **What can be hashed**: the root and the nullifier are not zero. -/
def Hashable (call : WithdrawalRelayCall) : Prop :=
  lower (call.publicInput 0) ≠ zeroBytes32 ∧ lower call.nullifier ≠ zeroBytes32

instance (call : WithdrawalRelayCall) : Decidable (Hashable call) :=
  inferInstanceAs (Decidable (_ ∧ _))

theorem isHexBytes32_publicInput {call : WithdrawalRelayCall} (hcall : DecodedCall call)
    (index : ℕ) : isHexBytes32 (call.publicInput index) := by
  unfold WithdrawalRelayCall.publicInput
  by_cases h : index < call.publicInputs.length
  · rw [List.getD_eq_getElem _ _ h]
    exact hcall.publicInputs _ (List.getElem_mem h)
  · rw [List.getD_eq_default _ _ (not_lt.mp h)]
    exact isHexBytes32_hex32 0

theorem bytes32ToBigInt_publicInput {call : WithdrawalRelayCall} (hcall : DecodedCall call)
    (index : ℕ) : bytes32ToBigInt (call.publicInput index) = .ok (hexNat (call.publicInput index)) :=
  bigInt_of_isHexOfLength (by decide) (isHexBytes32_publicInput hcall index)

theorem expectedFee_lt {request : WithdrawalRelayCalldataValidationInput}
    (hconfig : ValidConfig request) {call : WithdrawalRelayCall} (hcall : DecodedCall call) :
    calculateWithdrawalFee call.grossAmount (request.feePolicy.map (·.activeFeeBps)) < 2 ^ 256 := by
  have hrate : (request.feePolicy.map (·.activeFeeBps)).getD withdrawalFeeBps ≤ bpsDenominator := by
    cases hp : request.feePolicy with
    | none => decide
    | some policy =>
      have hle := hconfig.feePolicy policy hp
      exact hle.trans (by decide)
  have hle : calculateWithdrawalFee call.grossAmount (request.feePolicy.map (·.activeFeeBps)) ≤
      call.grossAmount := by
    refine Nat.div_le_of_le_mul ?_
    rw [Nat.mul_comm bpsDenominator]
    exact Nat.mul_le_mul_left _ hrate
  exact lt_of_le_of_lt hle hcall.grossAmount

/-- The policy that the pool makes of the bounds. -/
theorem policyFits_createStageCRelayerPolicy {call : WithdrawalRelayCall}
    (hcall : DecodedCall call) : PolicyFits (createStageCRelayerPolicy call) :=
  ⟨isEvmAddress_addressText 0, hcall.minNetAmount, hcall.maxFeeAmount,
    (by decide : 0 < 2 ^ 256)⟩

section Modes
variable {v : Viem} {keccak : Bytes → Bytes32} (hv : Documented v keccak)
  {request : WithdrawalRelayCalldataValidationInput} (hconfig : ValidConfig request)
  {call : WithdrawalRelayCall} (hcall : DecodedCall call)

/-- The chain and the pool of a request. -/
def placeOf (keccak : Bytes → Bytes32) (request : WithdrawalRelayCalldataValidationInput) : Env where
  poseidon2 x _ := x
  keccak256 := keccak
  chainId := BitVec.ofNat 256 request.chainId
  this := address request.pool
  feeController := 0

theorem deployed_placeOf : Deployed (placeOf keccak request) request.chainId request.pool :=
  ⟨rfl, rfl⟩

include hv in
theorem addressToBytes32_ok {t : Text} (h : isEvmAddress t) :
    ∃ r, WithdrawalCall.addressToBytes32 v t = .ok r :=
  ⟨_, (@UnlinkableCall.addressToBytes32_eq_ok v { digitsEnv with keccak256 := keccak } hv _ _).mpr
    ⟨h, rfl⟩⟩

include hcall in
theorem isHexBytes4_selector : isHexBytes4 call.selector := by
  rcases hcall.kind with ⟨h, -, -⟩ | ⟨h, -, -⟩ | ⟨h, -, -⟩
  · rw [h]; decide
  · rw [h]; decide
  · rw [h]; decide

include hconfig hcall in
theorem relayFits_iff_hashable {fee : ℕ} (hfee : fee < 2 ^ 256) :
    RelayFits (relayHashesInput v request call fee) ↔ Hashable call := by
  constructor
  · intro h
    exact ⟨h.root.2, h.nullifier⟩
  · rintro ⟨hroot, hnullifier⟩
    refine ⟨hconfig.chainId, hconfig.pool, ⟨isHexBytes32_publicInput hcall 0, hroot⟩, hnullifier,
      hcall.destination, hcall.grossAmount, hfee, ?_⟩
    change PolicyFits (call.relayerPolicy.getD (createStageCRelayerPolicy call))
    cases hp : call.relayerPolicy with
    | none => exact policyFits_createStageCRelayerPolicy hcall
    | some policy => exact hcall.relayerPolicy policy hp

include hv hconfig hcall in
/-- **The mode v1.2** decides the calls that can be hashed. -/
theorem validateV12_returns_iff :
    (∃ r, validateV12UnlinkableWithdrawalRelayCall v request call = .ok r) ↔ Hashable call := by
  have hfee := expectedFee_lt hconfig hcall
  have hchain_lt : request.chainId < 2 ^ 256 := by
    have := hconfig.chainId
    exact lt_of_le_of_lt (by omega : request.chainId ≤ 6343) (by decide)
  have hnote : isHexString (call.encryptedChangeNote.getD "0x".toList) := by
    cases hn : call.encryptedChangeNote with
    | none => exact (by decide : isHexString "0x".toList)
    | some note => exact hcall.encryptedChangeNote note hn
  have hdecoded : Decoded (relayHashesInput v request call (calculateWithdrawalFee call.grossAmount
      (request.feePolicy.map (·.activeFeeBps)))) :=
    ⟨hchain_lt, isHexBytes4_selector hcall, hcall.nullifier, isHexBytes32_publicInput hcall 2, hnote⟩
  have hhashes := fun hashes => contractBoundHashes_eq_ok
    (h := hashes) hv deployed_placeOf rfl hdecoded
  unfold validateV12UnlinkableWithdrawalRelayCall
  simp only [bind_eq_ok, pure_eq_ok, bytes32ToBigInt_publicInput hcall]
  constructor
  · rintro ⟨_, _, -, _, -, _, -, _, -, _, -, hashes, hok, -⟩
    exact (relayFits_iff_hashable hconfig hcall hfee).mp ((hhashes hashes).mp hok).1
  · intro hhashable
    obtain ⟨pool, hpool⟩ := addressToBytes32_ok hv hconfig.pool.1
    obtain ⟨destination, hdestination⟩ := addressToBytes32_ok hv hcall.destination
    exact ⟨_, pool, hpool, destination, hdestination, _, rfl, _, rfl, _, rfl, _, (hhashes _).mpr
      ⟨(relayFits_iff_hashable hconfig hcall hfee).mpr hhashable, rfl⟩, rfl⟩

/-! ### The mode v1.1 -/

/-- The context of a call that can stand in a preflight. -/
structure Context (call : WithdrawalRelayCall) (context : StageContext) : Prop where
  chainId : context.chainId = 6343 ∨ context.chainId = 4326
  pool : isEvmAddress context.pool ∧ lower context.pool ≠ zeroAddress
  shape : isHexBytes32 context.proofContextShape
  selector : isHexBytes4 context.selector
  root : context.root = call.publicInput 0
  nullifier : context.nullifier = call.nullifier
  destination : isEvmAddress context.destination
  grossAmount : context.grossAmount < 2 ^ 256
  fee : context.fee < 2 ^ 256
  relayerPolicy : PolicyFits context.relayerPolicy

include hv hconfig hcall in
theorem context_contextOf {fee : ℕ} (hfee : fee < 2 ^ 256) {relayerPolicy : RelayerPolicyInput}
    (hpolicy : PolicyFits relayerPolicy) :
    Context call (contextOf v request call fee relayerPolicy) where
  chainId := hconfig.chainId
  pool := hconfig.pool
  shape := by
    have hdomain : ∀ value, isHexBytes32 (hashDomainSeparator v value) :=
      @isHexBytes32_hashDomainSeparator v (placeOf keccak request) hv
    change isHexBytes32 (if request.feePolicy.isSome then withdrawShape v else withdrawShapeV11 v)
    split_ifs
    · exact hdomain _
    · exact hdomain _
  selector := isHexBytes4_selector hcall
  root := rfl
  nullifier := rfl
  destination := hcall.destination
  grossAmount := hcall.grossAmount
  fee := hfee
  relayerPolicy := hpolicy

section Hashes
variable {env : Env} {context : StageContext} (hcontext : Context call context)
include hcall hcontext

/-- The note needs the nullifier. -/
theorem noteHash_eq_ok (hv : Documented v env.keccak256) {commitment : Text}
    (hcommitment : isHexBytes32 commitment) {noteAmount : ℕ} (hamount : noteAmount < 2 ^ 256)
    {note : Text} (hnote : isHexString note) : ∃ noteHash, isHexBytes32 noteHash ∧ ∀ h,
      computeContractBoundEncryptedNoteHash v context commitment noteAmount note = .ok h ↔
        lower call.nullifier ≠ zeroBytes32 ∧ h = noteHash := by
  have hlower : lower (v.checksumAddress (address context.pool)) = lower context.pool :=
    lower_checksumAddress hv hcontext.pool.1
  have hpool : isEvmAddress (v.checksumAddress (address context.pool)) ∧
      lower (v.checksumAddress (address context.pool)) ≠ zeroAddress :=
    ⟨(hv.checksum _).1, hlower ▸ hcontext.pool.2⟩
  have hnullifier : isHexBytes32 context.nullifier := hcontext.nullifier ▸ hcall.nullifier
  let input : EncryptedNoteInput :=
    { chainId := context.chainId, pool := v.checksumAddress (address context.pool)
      shape := context.proofContextShape, selector := context.selector
      nullifier := context.nullifier, commitment := commitment, noteAmount := noteAmount
      encryptedNote := note }
  have hhash := fun hashed => hashCreatedEncryptedNoteV1_eq_ok hv (h := hashed) (i := input)
  simp only [bind_eq_ok] at hhash
  refine ⟨(poolHashed env (Lib.Abi.encode ((noteWithDefaults v input).values.map
    (·.component)))).hash, isHexBytes32_hex32 _, fun h => ?_⟩
  unfold computeContractBoundEncryptedNoteHash
  simp only [bind_eq_ok, pure_eq_ok, getAddress_eq_ok hv]
  constructor
  · rintro ⟨_, ⟨-, rfl⟩, created, hcreated, hashed, hhashed, rfl⟩
    obtain ⟨hfits, rfl⟩ := (hhash hashed).mp ⟨created, hcreated, hhashed⟩
    have hne : lower context.nullifier ≠ zeroBytes32 := hfits.nullifier.2
    exact ⟨hcontext.nullifier ▸ hne, rfl⟩
  · rintro ⟨hne, rfl⟩
    rw [← hcontext.nullifier] at hne
    obtain ⟨created, hcreated, hhashed⟩ := (hhash _).mpr ⟨⟨hcontext.chainId, hpool, hcontext.shape,
      hcontext.selector, ⟨hnullifier, hne⟩, hcommitment, hamount, hnote⟩, rfl⟩
    exact ⟨_, ⟨hcontext.pool.1, rfl⟩, created, hcreated, _, hhashed, rfl⟩

/-- The context needs the root and the nullifier. -/
theorem contextHash_eq_ok (hv : Documented v env.keccak256)
    (hplace : Deployed env context.chainId context.pool) {noteHash policyHash : Text}
    (hnote : isHexBytes32 noteHash) (hpolicy : isHexBytes32 policyHash) : ∃ contextHash, ∀ h,
      context.proofContextHash v noteHash policyHash = .ok h ↔ Hashable call ∧ h = contextHash := by
  have hnullifier : isHexBytes32 context.nullifier := hcontext.nullifier ▸ hcall.nullifier
  have hroot : isHexBytes32 context.root := hcontext.root ▸ isHexBytes32_publicInput hcall 0
  let input : ProofContextInput :=
    { chainId := context.chainId, pool := context.pool, shape := context.proofContextShape
      selector := context.selector, root := context.root, nullifier := context.nullifier
      destination := context.destination, grossAmount := context.grossAmount, fee := context.fee
      encryptedNoteHash := noteHash, relayerPolicyHash := policyHash
      deadlineOrZero := context.relayerPolicy.deadlineOrZero }
  have hhash := fun hashed => computeStageBProofContextHash_eq_ok hv (h := hashed) (i := input)
    hplace
  refine ⟨(poolHashed env (proofContextPreimage env input.read)).hash, fun h => ?_⟩
  unfold StageContext.proofContextHash
  simp only [bind_eq_ok, pure_eq_ok]
  constructor
  · rintro ⟨hashed, hhashed, rfl⟩
    obtain ⟨hfits, rfl⟩ := (hhash hashed).mp hhashed
    have hrootNe : lower context.root ≠ zeroBytes32 := hfits.root.2
    have hnullifierNe : lower context.nullifier ≠ zeroBytes32 := hfits.nullifier.2
    exact ⟨⟨hcontext.root ▸ hrootNe, hcontext.nullifier ▸ hnullifierNe⟩, rfl⟩
  · rintro ⟨⟨hrootNe, hnullifierNe⟩, rfl⟩
    rw [← hcontext.root] at hrootNe
    rw [← hcontext.nullifier] at hnullifierNe
    exact ⟨_, (hhash _).mpr ⟨⟨hcontext.chainId, hcontext.pool, hcontext.shape, hcontext.selector,
      ⟨hroot, hrootNe⟩, ⟨hnullifier, hnullifierNe⟩,
      hcontext.destination, hcontext.grossAmount, hcontext.fee, hnote, hpolicy,
      hcontext.relayerPolicy.deadlineOrZero⟩, rfl⟩, rfl⟩

end Hashes

include hv hcall in
/-- **The three hashes of a preflight.** -/
theorem hashes_spec {context : StageContext} (hcontext : Context call context) {commitment : Text}
    (hcommitment : isHexBytes32 commitment) {noteAmount : ℕ} (hamount : noteAmount < 2 ^ 256)
    {note : Text} (hnote : isHexString note) : ∃ noteHash policyHash contextHash,
      (∀ h, computeContractBoundEncryptedNoteHash v context commitment noteAmount note = .ok h ↔
        lower call.nullifier ≠ zeroBytes32 ∧ h = noteHash) ∧
      (∀ h, computeStageBRelayerPolicyHash v context.relayerPolicy = .ok h ↔ h = policyHash) ∧
      ∀ h, context.proofContextHash v noteHash policyHash.hash = .ok h ↔
        Hashable call ∧ h = contextHash := by
  set env : Env := ⟨fun x _ => x, keccak, BitVec.ofNat 256 context.chainId, address context.pool, 0⟩
  have hdeployed : Deployed env context.chainId context.pool := ⟨rfl, rfl⟩
  have hdocumented : Documented v env.keccak256 := hv
  obtain ⟨noteHash, hnoteHash, hnoteIff⟩ :=
    noteHash_eq_ok hcall hcontext hdocumented hcommitment hamount hnote
  let policyHash := poolHashed env (relayerPolicyPreimage env context.relayerPolicy.read)
  have hpolicyHash : isHexBytes32 policyHash.hash := isHexBytes32_hex32 _
  obtain ⟨contextHash, hcontextIff⟩ :=
    contextHash_eq_ok hcall hcontext hdocumented hdeployed hnoteHash hpolicyHash
  refine ⟨noteHash, policyHash, contextHash, hnoteIff, fun h => ?_, hcontextIff⟩
  rw [computeStageBRelayerPolicyHash_eq_ok hdocumented]
  exact and_iff_right hcontext.relayerPolicy

include hv hcall in
/-- **What hashes a note of zeros** is left to hash. -/
theorem fullExitHashes_iff {context : StageContext} (hcontext : Context call context)
    {noteAmount : ℕ} (hamount : noteAmount < 2 ^ 256) {α : Type} (f : Text → Hashed → Text → α) :
    (∃ r, (do
      let noteHash ← computeStageBContractBoundEncryptedNoteHash v context noteAmount
      let policyHash ← computeStageBRelayerPolicyHash v context.relayerPolicy
      let contextHash ← context.proofContextHash v noteHash policyHash.hash
      return f noteHash policyHash contextHash : Throws α) = .ok r) ↔ Hashable call := by
  obtain ⟨noteHash, policyHash, contextHash, hnote, hpolicy, hcontextHash⟩ := hashes_spec hv hcall
    hcontext (isHexBytes32_hex32 0) hamount (by decide : isHexString "0x".toList)
  simp only [bind_eq_ok, pure_eq_ok]
  constructor
  · rintro ⟨_, a, ha, b, hb, e, he, -⟩
    obtain ⟨-, rfl⟩ := (hnote a).mp ha
    obtain rfl := (hpolicy b).mp hb
    exact ((hcontextHash e).mp he).1
  · intro h
    exact ⟨_, noteHash, (hnote _).mpr ⟨h.2, rfl⟩, policyHash, (hpolicy _).mpr rfl, contextHash,
      (hcontextHash _).mpr ⟨h, rfl⟩, rfl⟩

include hv hcall in
theorem boundedFullExitPreflight_returns_iff {context : StageContext}
    (hcontext : Context call context) {noteAmount : ℕ} (hamount : noteAmount < 2 ^ 256) :
    (∃ errors, validateBoundedFullExitPreflight v call context noteAmount = .ok errors) ↔
      Hashable call := fullExitHashes_iff hv hcall hcontext hamount _

include hv hcall in
theorem stageCFullExitPreflight_returns_iff {context : StageContext}
    (hcontext : Context call context) {input : StageCInput} (hamount : input.noteAmount < 2 ^ 256) :
    (∃ errors, validateStageCFullExitPreflight v context input = .ok errors) ↔ Hashable call :=
  fullExitHashes_iff hv hcall hcontext hamount _

include hv hconfig hcall in
theorem stageBPreflight_returns_iff {context : StageContext} (hcontext : Context call context)
    {noteAmount : ℕ} (hamount : noteAmount < 2 ^ 256) :
    (∃ errors, validateStageBWithdrawalPreflight v request call context noteAmount = .ok errors) ↔
      Hashable call := by
  have hrelayer : ∃ errors, relayerErrors v context.relayerPolicy.relayer request.expectedRelayer =
      .ok errors := by
    cases hexpected : request.expectedRelayer with
    | none => exact ⟨_, rfl⟩
    | some expected =>
      have haddress := (getAddress_eq_ok hv).mpr ⟨hconfig.expectedRelayer expected hexpected, rfl⟩
      unfold relayerErrors
      dsimp only
      rw [haddress]
      exact ⟨_, rfl⟩
  obtain ⟨relayer, hrelayer⟩ := hrelayer
  obtain ⟨noteHash, policyHash, contextHash, hnote, hpolicy, hcontextHash⟩ := hashes_spec hv hcall
    hcontext (isHexBytes32_hex32 0) hamount (by decide : isHexString "0x".toList)
  unfold validateStageBWithdrawalPreflight computeStageBContractBoundEncryptedNoteHash
  simp only [bind_eq_ok, pure_eq_ok]
  constructor
  · rintro ⟨_, _, -, b, hb, a, ha, e, he, -⟩
    obtain ⟨-, rfl⟩ := (hnote a).mp ha
    obtain rfl := (hpolicy b).mp hb
    exact ((hcontextHash e).mp he).1
  · intro h
    exact ⟨_, relayer, hrelayer, policyHash, (hpolicy _).mpr rfl, noteHash,
      (hnote _).mpr ⟨h.2, rfl⟩, contextHash, (hcontextHash _).mpr ⟨h, rfl⟩, rfl⟩

include hv hcall in
/-- A change note that is refused is not hashed. -/
theorem changeNotePreflight_returns_iff {context : StageContext} (hcontext : Context call context)
    {input : StageCInput} (hnote : isHexString input.encryptedChangeNote)
    (hcommitment : isHexBytes32 input.changeCommitment) (hamount : input.changeAmount < 2 ^ 256) :
    (∃ errors, validateStageCWithdrawChangeNotePreflight v context input = .ok errors) ↔
      Hashable call ∨ changeNoteErrors context input ≠ [] := by
  have hamount' : input.changeAmount.toNat < 2 ^ 256 := by omega
  obtain ⟨noteHash, policyHash, contextHash, hnoteHash, hpolicy, hcontextHash⟩ :=
    hashes_spec hv hcall hcontext hcommitment hamount' hnote
  unfold validateStageCWithdrawChangeNotePreflight computeStageCContractBoundEncryptedChangeNoteHash
  by_cases herrors : changeNoteErrors context input = []
  · rw [herrors]
    dsimp only
    rw [if_neg (not_not.mpr rfl)]
    simp only [bind_eq_ok, pure_eq_ok, ne_eq, not_true_eq_false, or_false]
    constructor
    · rintro ⟨_, a, ha, b, hb, e, he, -⟩
      obtain ⟨-, rfl⟩ := (hnoteHash a).mp ha
      obtain rfl := (hpolicy b).mp hb
      exact ((hcontextHash e).mp he).1
    · intro h
      exact ⟨_, noteHash, (hnoteHash _).mpr ⟨h.2, rfl⟩, policyHash, (hpolicy _).mpr rfl,
        contextHash, (hcontextHash _).mpr ⟨h, rfl⟩, rfl⟩
  · dsimp only
    rw [if_pos herrors]
    exact ⟨fun _ => .inr herrors, fun _ => ⟨_, rfl⟩⟩

/-- The change that a call of stage C keeps. -/
def changeAmount (call : WithdrawalRelayCall) : ℤ :=
  (hexNat (call.publicInput 9) : ℤ) - call.grossAmount

/-- `isUnifiedFullExit`. -/
def IsUnifiedFullExit (call : WithdrawalRelayCall) : Prop :=
  changeAmount call = 0 ∧ lower (call.publicInput 2) = zeroBytes32 ∧
    lower (call.encryptedChangeNote.getD "0x".toList) = "0x".toList

instance (call : WithdrawalRelayCall) : Decidable (IsUnifiedFullExit call) :=
  inferInstanceAs (Decidable (_ ∧ _))

/-- What the preflight of a call of stage C is given. -/
def stageCInput (request : WithdrawalRelayCalldataValidationInput) (call : WithdrawalRelayCall) :
    StageCInput where
  noteAmount := hexNat (call.publicInput 9)
  changeCommitment := call.publicInput 2
  changeAmount := changeAmount call
  encryptedChangeNote := call.encryptedChangeNote.getD "0x".toList
  encryptedNoteHash := call.publicInput 11
  proofContextHash := call.publicInput 10
  relayerPolicyHash := request.expectedRelayerPolicyHash

/-- The context of its preflight. -/
def stageCContext (v : Viem) (request : WithdrawalRelayCalldataValidationInput)
    (call : WithdrawalRelayCall) : StageContext :=
  contextOf v request call (calculateWithdrawalFee call.grossAmount
    (request.feePolicy.map (·.activeFeeBps))) (createStageCRelayerPolicy call)

/-- **A change note that is refused before it is hashed.** -/
def RefusedUnhashed (v : Viem) (request : WithdrawalRelayCalldataValidationInput)
    (call : WithdrawalRelayCall) : Prop :=
  call.hasChangeNote = true ∧ ¬IsUnifiedFullExit call ∧
    changeNoteErrors (stageCContext v request call) (stageCInput request call) ≠ []

theorem noteAmount_lt {call : WithdrawalRelayCall} (hcall : DecodedCall call) :
    hexNat (call.publicInput 9) < 2 ^ 256 :=
  lt_of_lt_of_le (hexNat_lt (isHexBytes32_publicInput hcall 9)) (by decide)

include hv hconfig hcall in
/-- The preflight of a call of stage C. -/
theorem stageCErrors_returns_iff {c : StageCalls.Checked}
    (hnoteAmount : c.noteAmount = hexNat (call.publicInput 9))
    (hfee : c.expectedFee = calculateWithdrawalFee call.grossAmount
      (request.feePolicy.map (·.activeFeeBps))) (hchange : call.hasChangeNote = true) :
    (∃ errors, stageCErrors v request call c = .ok errors) ↔
      Hashable call ∨ RefusedUnhashed v request call := by
  have hcontext : Context call (stageCContext v request call) :=
    context_contextOf hv hconfig hcall (expectedFee_lt hconfig hcall)
      (policyFits_createStageCRelayerPolicy hcall)
  have hamount : (stageCInput request call).noteAmount < 2 ^ 256 := noteAmount_lt hcall
  have hnote : isHexString (stageCInput request call).encryptedChangeNote := by
    change isHexString (call.encryptedChangeNote.getD "0x".toList)
    cases hn : call.encryptedChangeNote with
    | none => exact (by decide : isHexString "0x".toList)
    | some note => exact hcall.encryptedChangeNote note hn
  have hchangeAmount : (stageCInput request call).changeAmount < 2 ^ 256 := by
    have hlt := noteAmount_lt hcall
    change (hexNat (call.publicInput 9) : ℤ) - call.grossAmount < 2 ^ 256
    omega
  have hcode : stageCErrors v request call c = if IsUnifiedFullExit call then
      validateStageCFullExitPreflight v (stageCContext v request call) (stageCInput request call)
    else do
      let errors ← validateStageCWithdrawChangeNotePreflight v (stageCContext v request call)
        (stageCInput request call)
      return errorWhen (changeAmount call ∉ supportedFixedDenominations.map fun n : ℕ => (n : ℤ))
        "Private change amount must be a supported fixed denomination" ++ errors := by
    unfold stageCErrors
    dsimp only
    rw [if_neg (not_not.mpr hchange), hnoteAmount, hfee]
    rfl
  rw [hcode]
  by_cases hexit : IsUnifiedFullExit call
  · rw [if_pos hexit, stageCFullExitPreflight_returns_iff hv hcall hcontext hamount]
    exact ⟨.inl, fun h => h.elim id fun hrefused => absurd hexit hrefused.2.1⟩
  · have hpreflight := changeNotePreflight_returns_iff hv hcall hcontext hnote
      (isHexBytes32_publicInput hcall 2) hchangeAmount
    have hrefused : RefusedUnhashed v request call ↔
        changeNoteErrors (stageCContext v request call) (stageCInput request call) ≠ [] :=
      ⟨fun h => h.2.2, fun h => ⟨hchange, hexit, h⟩⟩
    rw [if_neg hexit, hrefused, ← hpreflight]
    simp only [bind_eq_ok, pure_eq_ok]
    constructor
    · rintro ⟨_, errors, h, -⟩
      exact ⟨errors, h⟩
    · rintro ⟨errors, h⟩
      exact ⟨_, errors, h, rfl⟩

include hv hconfig hcall in
/-- The preflights return exactly if the call can be hashed or is refused before. -/
theorem preflights_return_iff {c : StageCalls.Checked}
    (hnoteAmount : c.noteAmount = hexNat (call.publicInput 9))
    (hfee : c.expectedFee = calculateWithdrawalFee call.grossAmount
      (request.feePolicy.map (·.activeFeeBps))) :
    (∃ stageB boundedFullExit stageC, stageBErrors v request call c = .ok stageB ∧
      boundedFullExitErrors v request call c = .ok boundedFullExit ∧
      stageCErrors v request call c = .ok stageC) ↔
      Hashable call ∨ RefusedUnhashed v request call := by
  have hfee_lt : c.expectedFee < 2 ^ 256 := hfee ▸ expectedFee_lt hconfig hcall
  have hamount : c.noteAmount < 2 ^ 256 := hnoteAmount ▸ noteAmount_lt hcall
  have hunkept : call.hasChangeNote = false → ¬RefusedUnhashed v request call := by
    intro hnone hrefused
    exact Bool.false_ne_true (hnone.symm.trans hrefused.1)
  have hselectors : withdrawRelayerPolicySelector ≠ withdrawFullExitSelector := by decide
  rcases hcall.kind with ⟨hselector, hnote, hpolicy⟩ | ⟨hselector, hnote, hpolicy⟩ |
    ⟨hselector, hnote, hpolicy⟩
  · -- a full exit with bounds
    have hnone : call.relayerPolicy = none := Option.not_isSome_iff_eq_none.mp (by simp [hpolicy])
    have hstageB : stageBErrors v request call c = .ok [] := by
      unfold stageBErrors
      rw [hnote, hnone]
    have hstageC : stageCErrors v request call c = .ok [] := by
      unfold stageCErrors
      dsimp only
      rw [if_pos (by simp [hnote])]
    have hexit : (stagesOf call).isBoundedFullExit = true := by
      simp [stagesOf, hselector, hnote]
    have hcontext := context_contextOf hv hconfig hcall hfee_lt
      (policyFits_createStageCRelayerPolicy hcall)
    have hpreflight := boundedFullExitPreflight_returns_iff hv hcall hcontext hamount
    unfold boundedFullExitErrors
    rw [if_pos hexit, hstageB, hstageC, or_iff_left (hunkept hnote), ← hpreflight]
    exact ⟨fun ⟨_, errors, _, _, h, _⟩ => ⟨errors, h⟩,
      fun ⟨errors, h⟩ => ⟨[], errors, [], rfl, h, rfl⟩⟩
  · -- a full exit with a policy
    obtain ⟨policy, hsome⟩ := Option.isSome_iff_exists.mp hpolicy
    have hstageC : stageCErrors v request call c = .ok [] := by
      unfold stageCErrors
      dsimp only
      rw [if_pos (by simp [hnote])]
    have hexit : ¬(stagesOf call).isBoundedFullExit = true := by
      simp [stagesOf, hselector, hselectors]
    have hcontext := context_contextOf hv hconfig hcall hfee_lt (hcall.relayerPolicy policy hsome)
    have hpreflight := stageBPreflight_returns_iff hv hconfig hcall hcontext hamount
    unfold boundedFullExitErrors stageBErrors
    rw [if_neg hexit, hstageC, hnote, hsome, or_iff_left (hunkept hnote), ← hpreflight]
    exact ⟨fun ⟨errors, _, _, h, _, _⟩ => ⟨errors, h⟩,
      fun ⟨errors, h⟩ => ⟨errors, [], [], h, rfl, rfl⟩⟩
  · -- a call of stage C
    have hnone : call.relayerPolicy = none := Option.not_isSome_iff_eq_none.mp (by simp [hpolicy])
    have hstageB : stageBErrors v request call c = .ok [] := by
      unfold stageBErrors
      rw [hnote, hnone]
    have hexit : ¬(stagesOf call).isBoundedFullExit = true := by
      simp [stagesOf, hnote]
    unfold boundedFullExitErrors
    rw [if_neg hexit, hstageB, ← stageCErrors_returns_iff hv hconfig hcall hnoteAmount hfee hnote]
    exact ⟨fun ⟨_, _, errors, _, _, h⟩ => ⟨errors, h⟩,
      fun ⟨errors, h⟩ => ⟨[], [], errors, rfl, rfl, h⟩⟩

include hv hconfig hcall in
/-- **The mode v1.1** decides the calls that can be hashed, and the change notes it refuses before. -/
theorem validateV11_returns_iff : (∃ r, validateV11WithdrawalRelayCall v request call = .ok r) ↔
    Hashable call ∨ RefusedUnhashed v request call := by
  obtain ⟨pool, hpool⟩ := addressToBytes32_ok hv hconfig.pool.1
  obtain ⟨destination, hdestination⟩ := addressToBytes32_ok hv hcall.destination
  let c : StageCalls.Checked :=
    { expectedPool := pool, expectedDestination := destination
      expectedFee := calculateWithdrawalFee call.grossAmount
        (request.feePolicy.map (·.activeFeeBps))
      publicGrossAmount := hexNat (call.publicInput 4), publicFee := hexNat (call.publicInput 5)
      publicChainId := hexNat (call.publicInput 6), noteAmount := hexNat (call.publicInput 9) }
  have hpreflights := preflights_return_iff hv hconfig hcall (c := c) rfl rfl
  unfold validateV11WithdrawalRelayCall
  simp only [hpool, hdestination, bytes32ToBigInt_publicInput hcall, ok_bind]
  rw [← hpreflights]
  simp only [bind_eq_ok, pure_eq_ok]
  constructor
  · rintro ⟨_, stageB, hB, exit, hexit, stageC, hC, -⟩
    exact ⟨stageB, exit, stageC, hB, hexit, hC⟩
  · rintro ⟨stageB, exit, stageC, hB, hexit, hC⟩
    exact ⟨_, stageB, hB, exit, hexit, stageC, hC, rfl⟩

end Modes

/-! ### All calldata -/

section Decides
variable (v : Viem) (d : Decoder) (request : WithdrawalRelayCalldataValidationInput)

/-- **A decision**: allowed, or refused with reasons. -/
def Decides : Prop :=
  ∃ r, validateWithdrawalRelayCalldata v d request = .ok r ∧ (r.allowed = true ∨ r.errors ≠ [])

/-- The call, if there is one, can be hashed or is refused before it is hashed. -/
def Guarded : Prop :=
  ∀ call, decodeWithdrawalRelayCall v d request.data = .ok call → Hashable call ∨
    request.relayValidationMode.getD .v11 = .v11 ∧ RefusedUnhashed v request call

end Decides

section Spec
variable {v : Viem} {d : Decoder} {request : WithdrawalRelayCalldataValidationInput}

/-- What is returned is a decision. -/
theorem allowed_or_errors {r : WithdrawalRelayCalldataValidation}
    (h : validateWithdrawalRelayCalldata v d request = .ok r) :
    r.allowed = true ∨ r.errors ≠ [] := by
  have hdecide : ∀ errors : List String, decide (errors = []) = true ∨ errors ≠ [] := by
    intro errors
    rw [decide_eq_true_eq]
    exact em _
  unfold validateWithdrawalRelayCalldata at h
  cases hdecoded : decodeWithdrawalRelayCall v d request.data with
  | error message =>
    rw [hdecoded] at h
    rw [← Except.ok.inj h]
    exact .inr (List.cons_ne_nil _ _)
  | ok call =>
    rw [hdecoded] at h
    dsimp only at h
    cases hmode : request.relayValidationMode.getD .v11 with
    | v11 =>
      rw [hmode] at h
      unfold validateV11WithdrawalRelayCall at h
      simp only [bind_eq_ok, pure_eq_ok] at h
      obtain ⟨_, -, _, -, _, -, _, -, _, -, _, -, _, -, _, -, _, -, rfl⟩ := h
      exact hdecide _
    | v12Unlinkable =>
      rw [hmode] at h
      unfold validateV12UnlinkableWithdrawalRelayCall at h
      simp only [bind_eq_ok, pure_eq_ok] at h
      obtain ⟨_, -, _, -, _, -, _, -, _, -, _, -, rfl⟩ := h
      exact hdecide _

/-- **The calldata for which something is returned.** -/
theorem validate_returns_iff {keccak : Bytes → Bytes32} (hv : Documented v keccak)
    (hconfig : ValidConfig request) :
    (∃ r, validateWithdrawalRelayCalldata v d request = .ok r) ↔ Guarded v d request := by
  unfold validateWithdrawalRelayCalldata Guarded
  cases hdecoded : decodeWithdrawalRelayCall v d request.data with
  | error message =>
    refine ⟨fun _ _ hcall => ?_, fun _ => ⟨_, rfl⟩⟩
    cases hcall
  | ok call =>
    obtain ⟨h1, h2, h3, h4, h5, h6, h7, h8, h9⟩ := decodedCall_of_ok hv hdecoded
    have hkind : ∀ mode, Kind { call with relayValidationMode := mode } := by
      intro mode
      rcases h9 with ⟨a, b, c⟩ | ⟨a, b, c⟩ | ⟨a, b, c⟩
      · exact .fullExit a b c
      · exact .relayerPolicy a b c
      · exact .stageC a b c
    have hcall : ∀ mode, DecodedCall { call with relayValidationMode := mode } := fun mode =>
      ⟨h1, h2, h3, h4, h5, h6, h7, h8, hkind mode⟩
    simp only [Except.ok.injEq, forall_eq']
    cases hmode : request.relayValidationMode.getD .v11 with
    | v11 =>
      dsimp only
      rw [validateV11_returns_iff hv hconfig (hcall _), eq_self, true_and]
      exact Iff.rfl
    | v12Unlinkable =>
      dsimp only
      rw [validateV12_returns_iff hv hconfig (hcall _), or_iff_left (fun h => nomatch h.1)]
      exact Iff.rfl

/-- **The relay decides**, under a valid configuration, exactly the calldata that has no call, or a
call whose root and nullifier are not zero, or, in the mode v1.1, a change note that is refused
before it is hashed. For all other calldata it throws. -/
theorem decides_iff {keccak : Bytes → Bytes32} (hv : Documented v keccak)
    (hconfig : ValidConfig request) : Decides v d request ↔ Guarded v d request := by
  rw [← validate_returns_iff hv hconfig]
  exact ⟨fun ⟨r, hr, _⟩ => ⟨r, hr⟩, fun ⟨r, hr⟩ => ⟨r, hr, allowed_or_errors hr⟩⟩

end Spec

/-! ### A call of zeros -/

/-- Arguments that are all empty or zero. -/
def zeroArguments : StageCArguments := ([], [], 0, 0, 0, [], 0, 0, ())

/-- A request with a call of these arguments. -/
def zeroRequest : WithdrawalRelayCalldataValidationInput :=
  { sampleRequest 0 with
    data := hexText (callBytes 0x678d8506 stageCWithdrawBoundedParameters zeroArguments) }

theorem sampleRequest_valid (commitment : Bytes32) : ValidConfig (sampleRequest commitment) where
  chainId := .inl rfl
  pool := ⟨isEvmAddress_addressText _, (by decide : lower samplePool ≠ zeroAddress)⟩
  feePolicy := by
    rintro _ ⟨⟩
    decide
  expectedRelayer := fun _ h => absurd h (Option.not_mem_none _)

theorem zeroRequest_valid : ValidConfig zeroRequest :=
  ⟨(sampleRequest_valid 0).chainId, (sampleRequest_valid 0).pool, (sampleRequest_valid 0).feePolicy,
    (sampleRequest_valid 0).expectedRelayer⟩

theorem decode_zeroRequest : decodeWithdrawalRelayCall digitsViem standardDecoder zeroRequest.data =
    .ok (stageCCall digitsViem none zeroArguments) := by
  have hsize : (callBytes 0x678d8506 stageCWithdrawBoundedParameters
      zeroArguments).length < 2 ^ 256 := by
    have hle := length_callBytes_le 0x678d8506 zeroArguments
    have hbig : 418 < 2 ^ 256 := by decide
    exact lt_of_le_of_lt hle hbig
  obtain ⟨hselector, hdecode⟩ := decode_callBytes standardDecoder_inverts (isHexString_hexText _)
    (hexBytes_hexText _) hsize
  have hbounded : selectorText 0x678d8506 = withdrawBoundedSelector := by decide
  have hlong : 10 ≤ zeroRequest.data.length := by
    have htake := congrArg List.length hselector
    have hten : (selectorText 0x678d8506).length = 10 := by decide
    rw [length_lower, List.length_take, hten] at htake
    change min 10 zeroRequest.data.length = 10 at htake
    omega
  have hdata : zeroRequest.data =
      hexText (callBytes 0x678d8506 stageCWithdrawBoundedParameters zeroArguments) := rfl
  rw [← hdata] at hselector hdecode
  have hcall : (stageCCall digitsViem none zeroArguments).hasChangeNote = true := rfl
  refine (decodeWithdrawalRelayCall_eq_ok documented_digitsViem hcall).mpr
    ⟨⟨(isHexString_hexText _).2, hlong⟩, hselector.trans hbounded, _, hdecode, rfl⟩

/-- The relay throws for it. -/
theorem zero_call_throws :
    ValidConfig zeroRequest ∧ isHex zeroRequest.data ∧
      ∀ r, validateWithdrawalRelayCalldata digitsViem standardDecoder zeroRequest ≠ .ok r := by
  refine ⟨zeroRequest_valid, (isHexString_hexText _).2, fun r hr => ?_⟩
  have hguarded := (validate_returns_iff documented_digitsViem zeroRequest_valid).mp ⟨r, hr⟩
  rcases hguarded _ decode_zeroRequest with hhashable | ⟨hmode, -⟩
  · exact hhashable.2 (lower_hex32 0)
  · cases hmode

/-- A call that can be hashed. -/
theorem decides_sample : Decides digitsViem standardDecoder (sampleRequest 3) ↔
    Guarded digitsViem standardDecoder (sampleRequest 3) :=
  decides_iff documented_digitsViem (sampleRequest_valid 3)

end Nullark.Relay.Totality
