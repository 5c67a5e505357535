import Nullark.Relay.WithdrawalCalldata
import Nullark.Sdk.Arguments
import Nullark.Sdk.Calldata

/-! # The relay takes the withdrawals that the SDK makes

A bundle of the SDK is encoded with its net amount and its fee as bounds. A relay for the pool, at
the fee of the bundle, has nothing to say against the calldata.

* `encodes_bundle`: the SDK encodes its bundles.
* `accepts_bundle`: what the relay checks of them.
* `honest_withdraw_relayed`: the relay allows them. -/

namespace Nullark.Relay.HonestCalldata

open Nullark.Lib Nullark.Lib.Outcome
open Nullark.Lib.AbiTuple hiding toNat_ofNat_of_lt
open Nullark.Lib.Hex hiding value Digits ofNat
open Nullark.Evm.Basic Nullark.Pool.Interface Nullark.Pool.Context Nullark.Pool.Arguments
open Nullark.Pool.Actions (input Msg WithdrawArgs)
open Nullark.Js.Basic Nullark.Js.Bytes Nullark.Js.Numbers Nullark.Js.Package Nullark.Js.Calldata
open Nullark.Js.TreeHash Nullark.Js.OutputNoteEnvelope Nullark.Js.OutputNoteBinding
open Nullark.Js.ContextHashes (Deployed zeroAddress word_ne_zero_iff)
open Nullark.Js.WithdrawWitness Nullark.Sdk.Withdraw Nullark.Sdk.Arguments Nullark.Sdk.Calldata
open Nullark.Relay.FeePolicy hiding bpsDenominator
open Nullark.Relay.WithdrawalCall hiding addressToBytes32
open Nullark.Relay.UnlinkableCall hiding Accepts
open Nullark.Relay.WithdrawalCalldata

/-! ### Encoding a bundle -/

/-- **The input of the encoder** for a bundle: the bounds are its net amount and its fee. -/
def bundleInput (proof : Text) (b : WitnessBundle) :
    V12UnlinkableWithdrawOutputNoteCalldataInput where
  proof := proof
  publicInputs := b.publicInputs
  nullifier := b.nullifier
  destination := b.intent.destination
  grossAmountWei := b.intent.grossAmountWei
  minNetAmountWei := b.netAmountWei
  maxFeeWei := b.intent.feeWei
  encryptedOutputNote := b.encryptedOutputNote

section Bundle
variable {env : Env} {v : Viem} {hash : FieldHash} {providers : Providers} {i : BuildInput}
  {m : Made} (hv : Documented v env.keccak256) (hplace : Deployed env i.chainId i.pool)
  (h : Built v (parts hash providers) i m) {proof : Text}

include h in
theorem trim_destination : trim i.destination = i.destination :=
  trim_of_isHexOfLength h.destination.1

include h in
theorem trim_encryptedOutputNote : trim m.encryptedOutputNote = m.encryptedOutputNote := by
  rw [h.encryptedOutputNote_eq]
  exact trim_of_isHexString (isHexString_hexText _)

include h in
/-- The arguments of the calldata are those of the bundle. -/
theorem withdrawArgs_bundleInput : withdrawArgs (stageCArguments (bundleInput proof (m.bundle i))) =
    bundleArgs (hexBytes (trim proof)) (m.bundle i) := by
  simp only [withdrawArgs, stageCArguments, bundleInput, bundleArgs, amountWord, Made.bundle,
    trim_ofNat, trim_destination h, trim_encryptedOutputNote h]

include hv hplace h in
/-- The public inputs are texts of 32 bytes. -/
theorem isHexBytes32_publicInputs : ∀ value ∈ (m.bundle i).publicInputs, isHexBytes32 value := by
  obtain ⟨hfits, hhashes⟩ := built_hashes hv hplace h
  have hnumber : ∀ {n : ℕ}, n < 2 ^ 256 → isHexBytes32 (Js.ContextHashes.toBytes32 n) := by
    intro n hn
    rw [Js.ContextHashes.toBytes32, padHex32_eq_hex32 hn]
    exact isHexBytes32_hex32 _
  have haddress : ∀ {t : Text}, isEvmAddress t → isHexBytes32 (addressText32 t) := by
    intro t ht
    rw [addressText32_eq ht]
    exact isHexBytes32_hex32 _
  have hfee : m.fee < 2 ^ 256 := lt_of_le_of_lt (built_fee_le h) (built_grossAmount_lt h)
  have hchainId : i.chainId = 6343 ∨ i.chainId = 4326 := hfits.place.chainId
  have hchain : i.chainId < 2 ^ 256 := lt_of_le_of_lt (by omega : i.chainId ≤ 6343) (by decide)
  have hpool : isEvmAddress i.pool := hfits.place.pool.1
  change ∀ value ∈ m.publicInputs i, isHexBytes32 value
  unfold Made.publicInputs
  simp only [List.forall_mem_cons]
  refine ⟨hfits.root.1, hfits.nullifier.1, hfits.outputCommitment.1, haddress h.destination.1,
    hnumber (built_grossAmount_lt h), hnumber hfee, hnumber hchain, haddress hpool, ?_, ?_,
    fun _ hmem => absurd hmem List.not_mem_nil⟩
  · rw [hhashes]
    exact isHexBytes32_hex32 _
  · rw [hhashes]
    exact isHexBytes32_hex32 _

include hv hplace h in
/-- **The SDK encodes its bundles**, for every proof. -/
theorem encodes_bundle (hproof : isHexString (trim proof)) :
    Encodes v (bundleInput proof (m.bundle i)) := by
  have hfits := (built_hashes hv hplace h).1
  have hgross : Decimal.value (trim (Decimal.ofNat m.grossAmount)) = m.grossAmount := by
    rw [trim_ofNat, Decimal.value_ofNat]
  have hnet : Decimal.value (trim (Decimal.ofNat (m.grossAmount - m.fee))) =
      m.grossAmount - m.fee := by
    rw [trim_ofNat, Decimal.value_ofNat]
  have hfee : Decimal.value (trim (Decimal.ofNat m.fee)) = m.fee := by
    rw [trim_ofNat, Decimal.value_ofNat]
  have hdecimal : ∀ n, Decimal.isDecimal (trim (Decimal.ofNat n)) := by
    intro n
    rw [trim_ofNat]
    exact Decimal.isDecimal_ofNat n
  have hnote : trim (bundleInput proof (m.bundle i)).encryptedOutputNote =
      hexText m.envelope.bytes := (trim_encryptedOutputNote h).trans h.encryptedOutputNote_eq
  have hdestination : trim (bundleInput proof (m.bundle i)).destination = i.destination :=
    trim_destination h
  refine ⟨rfl, isHexBytes32_publicInputs hv hplace h, ?_, ?_, ?_, ?_⟩
  · refine ⟨hproof, hfits.nullifier.1, ?_, hdecimal _, hdecimal _, hdecimal _, ?_, ?_, ?_⟩
    · rw [hdestination]
      exact h.destination.1
    · exact hgross ▸ h.gross_pos
    · exact (hnet.trans_le (Nat.sub_le _ _)).trans hgross.ge
    · exact (hfee.trans_le (built_fee_le h)).trans hgross.ge
  · rw [hnote]
    exact isHexString_hexText _
  · rw [hnote, ne_eq, hexText_eq_nil_iff]
    exact fun hnil => absurd (congrArg List.length hnil)
      (Nat.ne_of_gt (length_bytes_le h.wellFormed).1)
  · rw [hdestination]
    exact hfits.destination

end Bundle

/-! ### The fee policy -/

/-- A higher rate takes a higher fee of a denomination. -/
theorem calculateWithdrawalFee_lt {grossAmount f p : ℕ}
    (hgross : grossAmount ∈ supportedFixedDenominations) (hlt : f < p) :
    calculateWithdrawalFee grossAmount (some f) < calculateWithdrawalFee grossAmount (some p) := by
  have hall : ∀ n ∈ supportedFixedDenominations, n = 10000 * (n / 10000) ∧ 0 < n / 10000 := by
    decide
  have hfee : ∀ r, calculateWithdrawalFee grossAmount (some r) = grossAmount / 10000 * r := by
    intro r
    change grossAmount * r / 10000 = _
    rw [(hall _ hgross).1, Nat.mul_div_cancel_left _ (by decide), Nat.mul_assoc,
      Nat.mul_div_cancel_left _ (by decide)]
  rw [hfee, hfee]
  exact Nat.mul_lt_mul_of_pos_left hlt (hall _ hgross).2

/-- **A fee policy** at a rate: within the bounds, and what is pending is higher and activates after
the deadline. -/
structure PolicyAt (feeBps : ℕ) (deadlineEpochSeconds : Option ℤ)
    (policy : WithdrawalRelayFeePolicy) : Prop where
  active : policy.activeFeeBps = feeBps
  bound : policy.activeFeeBps ≤ maxWithdrawalFeeBps
  pending_bound : ∀ p ∈ policy.pendingFeeBps, p ≤ maxWithdrawalFeeBps
  pending_gt : ∀ p ∈ policy.pendingFeeBps, feeBps < p
  pending_late : ∀ activation ∈ policy.pendingFeeActivationEpochSeconds,
    ∀ deadline ∈ deadlineEpochSeconds, deadline < (activation : ℤ)

theorem validateWithdrawalFeePolicy_of_policyAt {feeBps grossAmount : ℕ}
    {deadlineEpochSeconds : Option ℤ} {policy : WithdrawalRelayFeePolicy}
    (h : PolicyAt feeBps deadlineEpochSeconds policy)
    (hgross : grossAmount ∈ supportedFixedDenominations) :
    validateWithdrawalFeePolicy policy grossAmount
      (calculateWithdrawalFee grossAmount (some feeBps)) deadlineEpochSeconds = [] := by
  refine validateWithdrawalFeePolicy_eq_nil.mpr ⟨h.bound, ?_, ?_, ?_⟩
  · cases hp : policy.pendingFeeBps with
    | none => exact Bool.false_ne_true
    | some p =>
      have hle := h.pending_bound p hp
      rw [Option.any_some, decide_eq_true_eq]
      omega
  · intro hactivates
    unfold activatesBeforeDeadline WithdrawalRelayFeePolicy.pending at hactivates
    cases hp : policy.pendingFeeBps with
    | none => rw [hp] at hactivates; cases hactivates
    | some p =>
      cases ha : policy.pendingFeeActivationEpochSeconds with
      | none => rw [hp, ha] at hactivates; cases hactivates
      | some activation =>
        cases hd : deadlineEpochSeconds with
        | none => rw [hp, ha, hd] at hactivates; cases hactivates
        | some deadline =>
          have hlate := h.pending_late activation ha deadline hd
          rw [hp, ha, hd] at hactivates
          have hle : (activation : ℤ) ≤ deadline := of_decide_eq_true hactivates
          omega
  · intro hmatches
    unfold matchesPendingFee WithdrawalRelayFeePolicy.pending at hmatches
    cases hp : policy.pendingFeeBps with
    | none => rw [hp] at hmatches; cases hmatches
    | some p =>
      cases ha : policy.pendingFeeActivationEpochSeconds with
      | none => rw [hp, ha] at hmatches; cases hmatches
      | some activation =>
        cases hn : policy.nowEpochSeconds with
        | none => rw [hp, ha, hn] at hmatches; cases hmatches
        | some now =>
          rw [hp, ha, hn] at hmatches
          simp only [Option.bind_some, Option.map_some, Bool.and_eq_true,
            decide_eq_true_eq] at hmatches
          have hlt := calculateWithdrawalFee_lt hgross (h.pending_gt p hp)
          omega

/-! ### The relay -/

/-- **The relay of the pool**, at a rate. -/
structure RelaysFor (i : BuildInput) (feeBps : ℕ)
    (request : WithdrawalRelayCalldataValidationInput) : Prop where
  mode : request.relayValidationMode = some .v12Unlinkable
  chainId : request.chainId = i.chainId
  pool : isEvmAddress request.pool ∧ address request.pool = address i.pool
  feePolicy : ∃ policy, request.feePolicy = some policy ∧
    PolicyAt feeBps request.deadlineEpochSeconds policy

/-- Arguments that the pool accepts are accepted by the relay, when the root is not zero, the
envelope is bound to the withdrawal and the fee policy is one for the rate. -/
theorem accepts_of_arguments {env : Env} {request : WithdrawalRelayCalldataValidationInput}
    {feeBps : ℕ} {msg : Msg} {a : WithdrawArgs} (hplace : Deployed env request.chainId request.pool)
    (hchain : request.chainId = 6343 ∨ request.chainId = 4326)
    (hpool : isEvmAddress request.pool ∧ lower request.pool ≠ zeroAddress)
    (hpolicy : ∃ policy, request.feePolicy = some policy ∧
      PolicyAt feeBps request.deadlineEpochSeconds policy)
    (h : WithdrawArguments env feeBps msg a) (hroot : input a.publicInputs 0 ≠ 0)
    (hmaxFee : a.relayerPolicy.maxFeeAmount.toNat ≤ a.grossAmount.toNat)
    (henvelope : relayValidateForBinding (hexText a.encryptedOutputNote)
      { chainId := request.chainId, pool := request.pool
        outputCommitment := hex32 (input a.publicInputs 2) } = []) :
    UnlinkableCall.Accepts env request a := by
  obtain ⟨policy, hsome, hat⟩ := hpolicy
  have hfee : relayFee request a = feeAt feeBps a.grossAmount := by
    unfold relayFee
    rw [hsome, Option.map_some, hat.active]
    rfl
  have hfee_lt : feeAt feeBps a.grossAmount < 2 ^ 256 := lt_of_le_of_lt h.fee_le (BitVec.isLt _)
  have hchain_lt : request.chainId < 2 ^ 256 :=
    lt_of_le_of_lt (by omega : request.chainId ≤ 6343) (by decide)
  exact
    { place := ⟨hchain, hpool, hroot, h.nullifier_ne, hfee ▸ hfee_lt⟩
      length := h.length
      nullifier := h.nullifier
      destination := h.destination
      grossAmount := h.grossAmount
      fee := by rw [h.fee, hfee, toNat_ofNat_of_lt hfee_lt]
      feePolicy := by
        intro policy' hmem
        obtain rfl : policy = policy' := Option.some.inj (hsome.symm.trans hmem)
        rw [hfee]
        exact validateWithdrawalFeePolicy_of_policyAt hat h.supported
      chainId := by rw [h.chainId, hplace.chainId, toNat_ofNat_of_lt hchain_lt]
      pool := by rw [h.this, hplace.this]
      destination_ne := h.destination_ne
      gross_ne := Nat.ne_of_gt h.gross_pos
      supported := h.supported
      fee_le_max := hfee ▸ h.fee_le_max
      minNet_le := by
        have hnet := h.minNet_le
        have hle := h.fee_le
        rw [hfee]
        omega
      maxFee_le := hmaxFee
      commitment_ne := h.commitment_ne
      note_ne := fun hnil => h.note_ne (congrArg List.length hnil)
      note_le := h.note_le
      envelope := henvelope
      bindings := hfee ▸ h.bindings }

section Relay
variable {env : Env} {v : Viem} {hash : FieldHash} {providers : Providers} {i : BuildInput}
  {m : Made} (hv : Documented v env.keccak256) (hplace : Deployed env i.chainId i.pool)
  (h : Built v (parts hash providers) i m) {proof : Text}

include hv hplace h in
/-- The envelope of a bundle is bound to the withdrawal. -/
theorem relayValidateForBinding_bundle {request : WithdrawalRelayCalldataValidationInput}
    (hchain : request.chainId = i.chainId)
    (hpool : isEvmAddress request.pool ∧ address request.pool = address i.pool) :
    relayValidateForBinding (hexText m.envelope.bytes)
      { chainId := request.chainId, pool := request.pool
        outputCommitment := hex32 (word m.output.commitment) } = [] := by
  obtain ⟨hfits, henvelope⟩ := h.envelope_eq
  have hcommitment : isHexBytes32 m.output.commitment :=
    (built_hashes hv hplace h).1.outputCommitment.1
  have hpoolText : isEvmAddress i.pool := (built_hashes hv hplace h).1.place.pool.1
  refine relayValidateForBinding_eq_nil.mpr ⟨_, carries_bytes (exact_members h.wellFormed),
    bound_of_wellFormed h.wellFormed ?_ ?_⟩
  · rw [henvelope]
    refine ⟨?_, ?_, ?_⟩
    · rintro _ ⟨⟩
      exact hchain.symm
    · rintro _ ⟨⟩
      exact (lower_eq_lower_iff_address hpoolText hpool.1).mpr hpool.2.symm
    · rintro _ ⟨⟩
      change lower m.output.commitment = lower (hex32 (word m.output.commitment))
      rw [hex32_word hcommitment, lower_lower]
  · rw [henvelope]
    rfl

include hv hplace h in
/-- **What the relay checks** of a bundle. -/
theorem accepts_bundle {request : WithdrawalRelayCalldataValidationInput}
    (hhash : ∀ l, hash l < bn254ScalarField) (hthis : env.this ≠ 0)
    (hsupported : m.grossAmount ∈ supportedFixedDenominations)
    (hrelay : RelaysFor i m.feeBps request) (data : Bytes) :
    UnlinkableCall.Accepts env request (bundleArgs data (m.bundle i)) := by
  have hfits := (built_hashes hv hplace h).1
  have hchain : i.chainId = 6343 ∨ i.chainId = 4326 := hfits.place.chainId
  have hdeployed : Deployed env request.chainId request.pool :=
    ⟨hrelay.chainId ▸ hplace.chainId, hplace.this.trans hrelay.pool.2.symm⟩
  have hpool : lower request.pool ≠ zeroAddress := by
    intro hzero
    have htext := addressText_address hrelay.pool.1
    rw [← hdeployed.this, hzero] at htext
    apply hthis
    rw [← address_addressText env.this, htext, zeroAddress, address_addressText]
  have hgross : (BitVec.ofNat 256 m.grossAmount).toNat = m.grossAmount :=
    toNat_ofNat_of_lt (built_grossAmount_lt h)
  have hfee : (BitVec.ofNat 256 m.fee).toNat = m.fee :=
    toNat_ofNat_of_lt (lt_of_le_of_lt (built_fee_le h) (built_grossAmount_lt h))
  have harguments := arguments_built hv hplace h hhash hsupported ⟨0, 0, 0⟩ data
  rw [bundleArgs_built hv hplace h] at harguments ⊢
  refine accepts_of_arguments hdeployed (hrelay.chainId ▸ hchain) ⟨hrelay.pool.1, hpool⟩
    hrelay.feePolicy harguments ?_ ?_ ?_
  · exact (word_ne_zero_iff hfits.root.1).mpr hfits.root.2
  · change (BitVec.ofNat 256 m.fee).toNat ≤ (BitVec.ofNat 256 m.grossAmount).toNat
    rw [hgross, hfee]
    exact built_fee_le h
  · exact relayValidateForBinding_bundle hv hplace h hrelay.chainId hrelay.pool

end Relay

/-- A call that is allowed has no errors. -/
theorem errors_of_allowed {v : Viem} {d : Decoder}
    {request : WithdrawalRelayCalldataValidationInput} {r : WithdrawalRelayCalldataValidation}
    (hmode : request.relayValidationMode = some .v12Unlinkable)
    (h : validateWithdrawalRelayCalldata v d request = .ok r) (hallowed : r.allowed = true) :
    r.errors = [] := by
  cases hdecoded : decodeWithdrawalRelayCall v d request.data with
  | error message =>
    unfold validateWithdrawalRelayCalldata at h
    rw [hdecoded] at h
    rw [← Except.ok.inj h] at hallowed
    cases hallowed
  | ok call =>
    rw [validate_of_decoded hmode hdecoded] at h
    unfold validateV12UnlinkableWithdrawalRelayCall at h
    obtain ⟨_, -, h⟩ := bind_eq_ok.mp h
    obtain ⟨_, -, h⟩ := bind_eq_ok.mp h
    obtain ⟨_, -, h⟩ := bind_eq_ok.mp h
    obtain ⟨_, -, h⟩ := bind_eq_ok.mp h
    obtain ⟨_, -, h⟩ := bind_eq_ok.mp h
    obtain ⟨_, -, h⟩ := bind_eq_ok.mp h
    rw [← pure_eq_ok.mp h] at hallowed ⊢
    exact decision_allowed.mp hallowed

/-- **The relay allows honest withdrawals.** For every bundle that the SDK builds for a denomination
and every proof, which is a text of hex bytes, the SDK encodes a call, and every relay for the pool
at the fee of the bundle allows it and finds no errors. -/
theorem honest_withdraw_relayed {keccak : Bytes → Bytes32} {v : Viem} {d : Decoder}
    (hv : Documented v keccak) (hd : d.Inverts) {hash : FieldHash}
    (hhash : ∀ l, hash l < bn254ScalarField) {providers : Providers} {i : BuildInput}
    {b : WitnessBundle} (hbuild : buildV12UnlinkableWithdrawalWitness v hash providers i = .ok b)
    (hpool : address i.pool ≠ 0) {feeBps : ℕ}
    (hrate : i.withdrawalFeeBps.getD defaultFeeBps = feeBps)
    (hsupported : Decimal.value b.intent.grossAmountWei ∈ supportedFixedDenominations)
    {request : WithdrawalRelayCalldataValidationInput} (hrelay : RelaysFor i feeBps request)
    {proof : Text} (hproof : isHexString (trim proof)) (hsize : proof.length < 2 ^ 53) :
    ∃ data r, encodeV12UnlinkableWithdrawOutputNoteCalldata v (bundleInput proof b) = .ok data ∧
      validateWithdrawalRelayCalldata v d { request with data } = .ok r ∧
      r.allowed = true ∧ r.errors = [] := by
  obtain ⟨m, h, rfl⟩ := buildWitness_eq_ok.mp hbuild
  set env : Env := ⟨fun x _ => x, keccak, BitVec.ofNat 256 i.chainId, address i.pool, 0⟩
  have hplace : Deployed env i.chainId i.pool := ⟨rfl, rfl⟩
  have hgross : Decimal.value (Decimal.ofNat m.grossAmount) = m.grossAmount :=
    Decimal.value_ofNat _
  have hmember : m.grossAmount ∈ supportedFixedDenominations := hgross ▸ hsupported
  have hfeeBps : m.feeBps = feeBps := by
    have hbuilt := (Js.SpendMaterial.normalizeFeeBps_eq_ok.mp h.feeBps).1
    rw [hrate] at hbuilt
    exact_mod_cast hbuilt.symm
  rw [← hfeeBps] at hrelay
  have hlt : Decimal.value (trim (Decimal.ofNat m.grossAmount)) < 2 ^ 256 := by
    rw [trim_ofNat, hgross]
    exact built_grossAmount_lt h
  have hencode := (encode_eq_ok hv hlt).mpr ⟨encodes_bundle hv hplace h hproof, rfl⟩
  set data := calldata (bundleInput proof (m.bundle i))
  set args := stageCArguments (bundleInput proof (m.bundle i))
  have hargs : withdrawArgs args = bundleArgs (hexBytes (trim proof)) (m.bundle i) :=
    withdrawArgs_bundleInput h
  have hbytes : (callBytes 0x678d8506 stageCWithdrawBoundedParameters args).length < 2 ^ 256 := by
    have hle := length_callBytes_le 0x678d8506 args
    have hnote : (bundleArgs (hexBytes (trim proof)) (m.bundle i)).encryptedOutputNote.length ≤
        1125 := by
      rw [bundleArgs_built hv hplace h]
      exact (length_bytes_le h.wellFormed).2
    have hten : (bundleArgs (hexBytes (trim proof)) (m.bundle i)).publicInputs.length = 10 := rfl
    have hproofBytes : (bundleArgs (hexBytes (trim proof)) (m.bundle i)).proof.length ≤
        proof.length := by
      have htrim := length_trim_le proof
      have hlength := length_hexBytes (trim proof)
      change (hexBytes (trim proof)).length ≤ _
      omega
    have hbig : 2 ^ 53 + 2000 < 2 ^ 256 := by decide
    rw [hargs] at hle
    omega
  obtain ⟨hselector, hdecode⟩ := decode_callBytes hd (isHexString_hexText _)
    (hexBytes_hexText (callBytes 0x678d8506 stageCWithdrawBoundedParameters args)) hbytes
  have hlong : 10 ≤ data.length := by
    have htake := congrArg List.length hselector
    have hten : (selectorText 0x678d8506).length = 10 := by decide
    rw [length_lower, List.length_take, hten] at htake
    change min 10 data.length = 10 at htake
    omega
  have hbounded : selectorText 0x678d8506 = Js.ContextHashes.withdrawBoundedSelector := by
    decide
  have hrelay' : RelaysFor i m.feeBps { request with data } :=
    ⟨hrelay.mode, hrelay.chainId, hrelay.pool, hrelay.feePolicy⟩
  have haccepts : UnlinkableCall.Accepts env { request with data } (withdrawArgs args) := by
    rw [hargs]
    exact accepts_bundle hv hplace h hhash hpool hmember hrelay' _
  have hdeployed : Deployed env { request with data }.chainId { request with data }.pool :=
    ⟨hrelay'.chainId ▸ rfl, hrelay'.pool.2.symm⟩
  obtain ⟨r, hr, hallowed⟩ := (allowed_iff hv hrelay'.mode hdeployed).mpr
    ⟨⟨(isHexString_hexText _).2, hlong⟩, hselector.trans hbounded, args, hdecode, haccepts⟩
  exact ⟨data, r, hencode, hr, hallowed, errors_of_allowed hrelay'.mode hr hallowed⟩

/-- A relay at the default rate, before a pending fee. -/
def pendingRequest : WithdrawalRelayCalldataValidationInput where
  data := []
  chainId := 6343
  pool := addressText 0x5555555555555555555555555555555555555555
  relayValidationMode := some .v12Unlinkable
  deadlineEpochSeconds := some 1000
  expectedRelayer := none
  expectedRelayerPolicyHash := none
  feePolicy := some ⟨33, some 50, some 2000, some 500⟩

theorem pendingRequest_relays : RelaysFor sampleInput 33 pendingRequest where
  mode := rfl
  chainId := rfl
  pool := ⟨isEvmAddress_addressText _, rfl⟩
  feePolicy := by
    refine ⟨_, rfl, rfl, by decide, ?_, ?_, ?_⟩
    · rintro _ ⟨⟩
      decide
    · rintro _ ⟨⟩
      decide
    · rintro _ ⟨⟩ _ ⟨⟩
      decide

/-- 0.1 of a note of 0.3, with an empty proof. -/
theorem honest_withdraw_relayed_sample : ∃ b data r,
    encodeV12UnlinkableWithdrawOutputNoteCalldata digitsViem (bundleInput "0x".toList b) = .ok data ∧
      validateWithdrawalRelayCalldata digitsViem standardDecoder { pendingRequest with data } =
        .ok r ∧
      r.allowed = true ∧ r.errors = [] := by
  have hplace : Deployed digitsEnv sampleInput.chainId sampleInput.pool :=
    ⟨rfl, (address_addressText _).symm⟩
  have haccepts := @sample_accepts (List.replicate 32 0) rfl
  have hbuild := buildWitness_eq_ok.mpr ⟨_, built_made haccepts documented_digitsViem hplace, rfl⟩
  have hpool : address sampleInput.pool ≠ 0 := by
    rw [sampleInput, address_addressText]
    decide
  have hsupported : Decimal.value (Decimal.ofNat (grossAmount sampleInput)) ∈
      supportedFixedDenominations := by
    rw [Decimal.value_ofNat]
    decide
  exact ⟨_, honest_withdraw_relayed documented_digitsViem standardDecoder_inverts
    Js.SpendMaterial.mixHash_lt hbuild hpool rfl hsupported pendingRequest_relays (by decide) (by decide)⟩

end Nullark.Relay.HonestCalldata
