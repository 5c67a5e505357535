import Nullark.HashAgreement
import Nullark.Pool.Arguments
import Nullark.Sdk.Withdraw

/-! # The call of a withdrawal

`bundleCall` is the call a client makes with a bundle, with the net amount and the fee as bounds.
What the SDK builds passes the checks of the pool on its arguments: `arguments_built`. -/

namespace Nullark.Sdk.Arguments

open Nullark.Lib Nullark.Lib.Outcome
open Nullark.Lib.Hex hiding value Digits ofNat
open Nullark.Evm.Basic Nullark.Pool.Interface Nullark.Pool.Context Nullark.Pool.Actions
open Nullark.Pool.Calls (Call boundsPolicy)
open Nullark.Pool.Arguments Nullark.Pool.Checks
open Nullark.Js.Basic Nullark.Js.Bytes Nullark.Js.Package Nullark.Js.TreeHash
open Nullark.Js.ContextHashes Nullark.Js.OutputNoteEnvelope Nullark.Js.SpendMaterial
open Nullark.Js.WithdrawWitness Nullark.Relay.ContextHashes Nullark.HashAgreement
open Nullark.Sdk.Withdraw

/-- A decimal amount, as a word. -/
def amountWord (t : Text) : UInt256 := BitVec.ofNat 256 (Decimal.value t)

/-- **The call with a bundle**, for a proof. -/
def bundleCall (proof : Bytes) (b : WitnessBundle) : Call :=
  .withdrawNoteBounded proof (b.publicInputs.map word) (word b.nullifier)
    (address b.intent.destination) (amountWord b.intent.grossAmountWei)
    (hexBytes b.encryptedOutputNote) (amountWord b.netAmountWei) (amountWord b.intent.feeWei)

/-- What the pool withdraws for it. -/
def bundleArgs (proof : Bytes) (b : WitnessBundle) : WithdrawArgs :=
  ⟨proof, b.publicInputs.map word, word b.nullifier, address b.intent.destination,
    amountWord b.intent.grossAmountWei, hexBytes b.encryptedOutputNote,
    boundsPolicy (amountWord b.netAmountWei) (amountWord b.intent.feeWei), 0x678d8506⟩

theorem action_bundleCall (proof : Bytes) (b : WitnessBundle) :
    (bundleCall proof b).action = .withdraw (bundleArgs proof b) := rfl

theorem amountWord_ofNat (n : ℕ) : amountWord (Decimal.ofNat n) = BitVec.ofNat 256 n := by
  rw [amountWord, Decimal.value_ofNat]

theorem toNat_ofNat_of_lt {n : ℕ} (h : n < 2 ^ 256) : (BitVec.ofNat 256 n).toNat = n := by
  rw [BitVec.toNat_ofNat, Nat.mod_eq_of_lt h]

theorem address_ne_zero {t : Text} (h : isEvmAddress t) (hne : t ≠ zeroAddress) : address t ≠ 0 := by
  have hzero : ∀ c ∈ lowerDigits ++ upperDigits, c.toLower = '0' → c = '0' := by decide
  intro haddress
  obtain ⟨digits, rfl, hlen, hd⟩ := isHexOfLength_iff.mp h
  have hlower := addressText_address h
  rw [haddress, lower_cons_hex, addressText] at hlower
  simp only [List.cons.injEq, true_and] at hlower
  have hreplicate : fixed 40 (0 : Address).toNat = List.replicate 40 '0' := by decide
  have hall : ∀ c ∈ digits, c = '0' := by
    intro c hc
    have hmem : c.toLower ∈ lower digits := List.mem_map_of_mem hc
    rw [← hlower, hreplicate] at hmem
    exact hzero c (hd c hc) (List.mem_replicate.mp hmem).2
  apply hne
  rw [zeroAddress, addressText, hreplicate, List.eq_replicate_of_mem hall, hlen]

/-! ### Every bundle -/

section Built
variable {env : Env} {v : Viem} {hash : FieldHash} {providers : Providers} {i : BuildInput} {m : Made}

/-- The words of the public inputs of a bundle. -/
def builtInputs (i : BuildInput) (m : Made) : List Bytes32 :=
  [word i.merklePath.root, word m.nullifier, word m.output.commitment,
    addressToBytes32 (address i.destination), BitVec.ofNat 256 m.grossAmount,
    BitVec.ofNat 256 m.fee, BitVec.ofNat 256 i.chainId, addressToBytes32 (address i.pool),
    word m.hashes.proofContextHash.hash, word m.hashes.encryptedOutputNoteHash.hash]

section Spec
variable (hv : Documented v env.keccak256) (hplace : Deployed env i.chainId i.pool)
  (h : Built v (parts hash providers) i m)
include h

theorem built_grossAmount_lt : m.grossAmount < 2 ^ 256 :=
  lt_of_le_of_lt h.gross_le (h.oldAmount_eq.2.1.2.trans (by decide))

theorem built_feeBps_le : m.feeBps ≤ 100 := (normalizeFeeBps_eq_ok.mp h.feeBps).2

theorem built_fee_le : m.fee ≤ m.grossAmount := by
  have hmul : m.grossAmount * m.feeBps ≤ m.grossAmount * bpsDenominator :=
    Nat.mul_le_mul_left _ ((built_feeBps_le h).trans (by decide))
  rw [mul_comm _ bpsDenominator] at hmul
  exact Nat.div_le_of_le_mul hmul

include hv hplace in
/-- What is hashed fits, and the hashes are those of the pool. -/
theorem built_hashes :
    (hashesInput i v m.grossAmount m.fee m.nullifier m.output.commitment
      m.encryptedOutputNote).Fits v ∧
    m.hashes = poolHashes env (hashesInput i v m.grossAmount m.fee m.nullifier
      m.output.commitment m.encryptedOutputNote) := by
  refine (computeV12UnlinkableWithdrawHashes_eq_ok hv accepting_sdkRules hplace ?_).mp h.hashes
  rw [hashesInput, h.encryptedOutputNote_eq]
  exact isHexString_hexText _

include hv hplace in
theorem publicInputs_built : (m.bundle i).publicInputs.map word = builtInputs i m := by
  have hword : ∀ {n : ℕ}, n < 2 ^ 256 → word (toBytes32 n) = BitVec.ofNat 256 n := by
    intro n hn
    rw [toBytes32, padHex32_eq_hex32 hn, word_hex32]
  have haddress : ∀ {t : Text}, isEvmAddress t →
      word (addressText32 t) = addressToBytes32 (address t) := by
    intro t ht
    rw [addressText32_eq ht, word_hex32]
  have hfits := (built_hashes hv hplace h).1
  have hfee : m.fee < 2 ^ 256 := lt_of_le_of_lt (built_fee_le h) (built_grossAmount_lt h)
  have hchainId : i.chainId = 6343 ∨ i.chainId = 4326 := hfits.place.chainId
  have hchain : i.chainId < 2 ^ 256 := lt_of_le_of_lt (by omega : i.chainId ≤ 6343) (by decide)
  have hpool : isEvmAddress i.pool := hfits.place.pool.1
  unfold builtInputs
  rw [← haddress h.destination.1, ← haddress hpool, ← hword (built_grossAmount_lt h),
    ← hword hfee, ← hword hchain]
  rfl

include hv hplace in
theorem bundleArgs_built (proof : Bytes) : bundleArgs proof (m.bundle i) =
    ⟨proof, builtInputs i m, word m.nullifier, address i.destination,
      BitVec.ofNat 256 m.grossAmount, m.envelope.bytes,
      boundsPolicy (BitVec.ofNat 256 (m.grossAmount - m.fee)) (BitVec.ofNat 256 m.fee),
      0x678d8506⟩ := by
  unfold bundleArgs
  rw [publicInputs_built hv hplace h, ← amountWord_ofNat, ← amountWord_ofNat, ← amountWord_ofNat,
    ← hexBytes_hexText m.envelope.bytes, ← h.encryptedOutputNote_eq]
  rfl

include hv hplace in
/-- The hashes of the withdrawal are those the pool computes. -/
theorem bindings_built : BindingsChecked env (withdrawContextShape env) (builtInputs i m)
    (word m.nullifier) (address i.destination) (BitVec.ofNat 256 m.grossAmount) m.fee
    (word m.output.commitment) m.envelope.bytes
    (boundsPolicy (BitVec.ofNat 256 (m.grossAmount - m.fee)) (BitVec.ofNat 256 m.fee))
    0x678d8506 := by
  set hashed := hashesInput i v m.grossAmount m.fee m.nullifier m.output.commitment
    m.encryptedOutputNote
  have hselector : bytes4 withdrawBoundedSelector = 0x678d8506 := by decide
  have hbytes : hexBytes m.encryptedOutputNote = m.envelope.bytes := by
    rw [h.encryptedOutputNote_eq, hexBytes_hexText]
  have hrelayer : address zeroAddress = 0 := address_addressText 0
  have hhashes := @poolHashes_eq v env hashed hv rfl (builtInputs i m) rfl rfl
  have hnote : poolNote env hashed = outputNote (withdrawContextShape env) 0x678d8506
      (word m.nullifier) (word m.output.commitment) m.envelope.bytes := by
    rw [← hselector]
    exact congrArg (outputNote _ _ _ _) hbytes
  have hpolicy : hashed.relayerPolicy.read =
      boundsPolicy (BitVec.ofNat 256 (m.grossAmount - m.fee)) (BitVec.ofNat 256 m.fee) := by
    unfold boundsPolicy
    rw [← hrelayer]
    rfl
  have hcontext : poolContext env hashed (builtInputs i m) =
      proofContext env (withdrawContextShape env) 0x678d8506 (builtInputs i m)
        (address i.destination) (BitVec.ofNat 256 m.grossAmount) m.fee
        (encryptedOutputNoteHash env (poolNote env hashed))
        (boundsPolicy (BitVec.ofNat 256 (m.grossAmount - m.fee)) (BitVec.ofNat 256 m.fee)) := by
    rw [← hpolicy, ← hselector]
    rfl
  have hmade := (built_hashes hv hplace h).2
  refine ⟨?_, ?_⟩
  · rw [← hnote]
    change word m.hashes.encryptedOutputNoteHash.hash = _
    rw [hmade, hhashes]
    exact word_hex32 _
  · rw [← hnote, ← hcontext]
    change word m.hashes.proofContextHash.hash = _
    rw [hmade, hhashes]
    exact word_hex32 _

include hv hplace in
/-- **The checks of the pool on the arguments.** -/
theorem arguments_built (hhash : ∀ l, hash l < bn254ScalarField)
    (hsupported : isSupportedDenomination m.grossAmount) (msg : Msg) (proof : Bytes) :
    WithdrawArguments env m.feeBps msg (bundleArgs proof (m.bundle i)) := by
  have hfits := (built_hashes hv hplace h).1
  have hlength := length_bytes_le h.wellFormed
  have hgross : (BitVec.ofNat 256 m.grossAmount).toNat = m.grossAmount :=
    toNat_ofNat_of_lt (built_grossAmount_lt h)
  have hfeeAt : feeAt m.feeBps (BitVec.ofNat 256 m.grossAmount) = m.fee := by
    rw [feeAt, hgross]
    rfl
  have hfee_lt : m.fee < 2 ^ 256 := lt_of_le_of_lt (built_fee_le h) (built_grossAmount_lt h)
  have hnet_lt : m.grossAmount - m.fee < 2 ^ 256 :=
    lt_of_le_of_lt (Nat.sub_le _ _) (built_grossAmount_lt h)
  have hgross_lt : m.grossAmount < 2 ^ 128 := lt_of_le_of_lt h.gross_le h.oldAmount_eq.2.1.2
  have hproduct : m.grossAmount * m.feeBps < wordSize :=
    lt_of_le_of_lt (Nat.mul_le_mul_left _ (built_feeBps_le h))
      (lt_of_lt_of_le (Nat.mul_lt_mul_of_pos_right hgross_lt (by decide)) (by decide))
  have hmax : maxEncryptedNoteBytes = 2048 := rfl
  have hcommitment : isFieldElement (word m.output.commitment) := by
    rw [h.output_commitment]
    change isFieldElement (word (padHex32 (hash _)))
    rw [padHex32_eq_hex32 ((hhash _).trans (by decide)), word_hex32, isFieldElement,
      toNat_ofNat_of_lt ((hhash _).trans (by decide))]
    exact hhash _
  rw [bundleArgs_built hv hplace h]
  exact
    { nullifier_ne := (word_ne_zero_iff hfits.nullifier.1).mpr hfits.nullifier.2
      destination_ne := address_ne_zero h.destination.1 h.destination.2
      gross_pos := by
        dsimp only
        rw [hgross]
        exact h.gross_pos
      note_le := by
        dsimp only
        omega
      product_lt := by
        dsimp only
        rw [hgross]
        exact hproduct
      length := rfl
      nullifier := rfl
      chainId := hplace.chainId.symm
      this := congrArg addressToBytes32 hplace.this.symm
      commitment_ne := (word_ne_zero_iff hfits.outputCommitment.1).mpr hfits.outputCommitment.2
      commitment_field := hcommitment
      destination := rfl
      grossAmount := rfl
      fee := by
        dsimp only
        rw [hfeeAt]
        rfl
      policy := ⟨fun hne => absurd rfl hne, fun hne => absurd rfl hne⟩
      supported := by
        dsimp only
        rw [hgross]
        exact hsupported
      note_ne := by
        dsimp only
        omega
      bindings := by
        dsimp only
        rw [hfeeAt]
        exact bindings_built hv hplace h
      fee_le := by
        dsimp only
        rw [hfeeAt, hgross]
        exact built_fee_le h
      fee_le_max := by
        dsimp only [boundsPolicy]
        rw [hfeeAt, toNat_ofNat_of_lt hfee_lt]
      minNet_le := by
        dsimp only [boundsPolicy]
        rw [hfeeAt, toNat_ofNat_of_lt hnet_lt, hgross] }

end Spec

end Built

/-! ### The bundle of what the SDK accepts -/

section Made
variable (env : Env) (v : Viem) (hash : FieldHash) (providers : Providers)
  (createdAt ciphertext : Text) (i : BuildInput)

/-- The bundle of what the SDK makes. -/
def madeBundle : WitnessBundle := (made env v hash providers createdAt ciphertext i).bundle i

/-- The words of its public inputs. -/
def madeInputs : List Bytes32 :=
  let hashes := poolHashes env (hashesOf v hash providers createdAt ciphertext i)
  [word i.merklePath.root, word (nullifierOf hash i),
    word (outputOf hash providers createdAt i).commitment,
    addressToBytes32 (address i.destination), BitVec.ofNat 256 (grossAmount i),
    BitVec.ofNat 256 (fee i), BitVec.ofNat 256 i.chainId, addressToBytes32 (address i.pool),
    word hashes.proofContextHash.hash, word hashes.encryptedOutputNoteHash.hash]

section Spec
variable {env v hash providers createdAt ciphertext i}
  (hv : Documented v env.keccak256) (hplace : Deployed env i.chainId i.pool)
  (h : Accepts v hash providers createdAt ciphertext i)
include h

theorem grossAmount_lt : grossAmount i < 2 ^ 128 := lt_of_le_of_lt h.gross_le h.amount.2.2

include hv hplace

theorem publicInputs_made :
    (madeBundle env v hash providers createdAt ciphertext i).publicInputs.map word =
      madeInputs env v hash providers createdAt ciphertext i :=
  publicInputs_built hv hplace (built_made h hv hplace)

theorem arguments_made (hsupported : isSupportedDenomination (grossAmount i)) (msg : Msg)
    (proof : Bytes) : WithdrawArguments env (feeBps i) msg
      (bundleArgs proof (madeBundle env v hash providers createdAt ciphertext i)) :=
  arguments_built hv hplace (built_made h hv hplace) h.hash_lt hsupported msg proof

end Spec

end Made

end Nullark.Sdk.Arguments
