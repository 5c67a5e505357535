import Nullark.Core.Proofs

/-! # The hashes of a withdrawal, as the relay computes them

The relay encodes the output note itself and leaves the policy and the context to the core package.
It writes the addresses with `getAddress` first.

* `contractBoundHashes_eq_ok`: what is accepted, and that the hashes are those of the pool. -/

namespace Nullark.Relay.ContextHashes

open Nullark.Lib.Outcome Nullark.Lib.Hex Nullark.Lib.Abi Nullark.Evm.Basic
open Nullark.Pool.Interface Nullark.Pool.Context Nullark.Js.Basic Nullark.Js.Bytes
open Nullark.Js.Package Nullark.Js.ContextHashes Nullark.Core.Proofs

section Code
variable (v : Viem)

/-- `PROOF_CONTEXT_V1_SHAPE_WITHDRAW_V1_2_FEE_GOVERNANCE`. -/
def withdrawShape : Text := hashDomainSeparator v "withdraw_context_v1_2_fee_governance"

/-- **`computeV12ContractBoundEncryptedOutputNoteHash`**, with what is hashed. -/
def computeV12ContractBoundEncryptedOutputNoteHash (input : EncryptedOutputNoteInput) :
    Throws Hashed := do
  let pool ← v.getAddress input.pool
  let digest ← v.keccak256 input.encryptedOutputNote
  let preimage ← v.encodeAbiParameters
    ({ input with pool, shape := withdrawShape v }.values v digest)
  let hash ← Core.Proofs.hashAbiEncodedToField v preimage
  return { preimage, hash }

def computeStageBRelayerPolicyHash (input : RelayerPolicyInput) : Throws Hashed := do
  let policy ← createRelayerPolicyV1 v input
  Core.Proofs.hashRelayerPolicyV1 v policy

def computeStageBProofContextHash (input : ProofContextInput) : Throws Hashed := do
  let pool ← v.getAddress input.pool
  let destination ← v.getAddress input.destination
  let context ← createProofContextV1 v { input with pool, destination }
  Core.Proofs.hashProofContextV1 v context

/-- **The three hashes** in the order in which the relay computes them. -/
def contractBoundHashes (input : WithdrawHashesInput) :
    Throws V12UnlinkableWithdrawContextHashes := do
  let encryptedOutputNoteHash ← computeV12ContractBoundEncryptedOutputNoteHash v input.note
  let relayerPolicyHash ← computeStageBRelayerPolicyHash v input.relayerPolicy
  let proofContextHash ← computeStageBProofContextHash v
    (input.context encryptedOutputNoteHash.hash relayerPolicyHash.hash)
  return { encryptedOutputNoteHash, relayerPolicyHash, proofContextHash }

end Code

/-! ### The hashes are those of the pool -/

/-- What the relay does not check of a note, since the decoder returns it so. -/
structure Decoded (i : WithdrawHashesInput) : Prop where
  chainId : i.chainId < 2 ^ 256
  selector : isHexBytes4 i.selector
  nullifier : isHexBytes32 i.nullifier
  outputCommitment : isHexBytes32 i.outputCommitment
  encryptedOutputNote : isHexString i.encryptedOutputNote

/-- What the relay accepts. -/
structure RelayFits (i : WithdrawHashesInput) : Prop where
  chainId : i.chainId = 6343 ∨ i.chainId = 4326
  pool : isEvmAddress i.pool ∧ lower i.pool ≠ zeroAddress
  root : isHexBytes32 i.root ∧ lower i.root ≠ zeroBytes32
  nullifier : lower i.nullifier ≠ zeroBytes32
  destination : isEvmAddress i.destination
  grossAmount : i.grossAmount < 2 ^ 256
  fee : i.fee < 2 ^ 256
  relayerPolicy : PolicyFits i.relayerPolicy

section Spec
variable {v : Viem} {env : Env} (hv : Documented v env.keccak256)
include hv

theorem computeStageBRelayerPolicyHash_eq_ok {i : RelayerPolicyInput} {h : Hashed} :
    computeStageBRelayerPolicyHash v i = .ok h ↔
      PolicyFits i ∧ h = poolHashed env (relayerPolicyPreimage env i.read) :=
  hashCreatedRelayerPolicyV1_eq_ok hv

theorem lower_checksumAddress {t : Text} (h : isEvmAddress t) :
    lower (v.checksumAddress (address t)) = lower t := by
  rw [(hv.checksum _).2, addressText_address h]

theorem computeStageBProofContextHash_eq_ok {i : ProofContextInput} {h : Hashed}
    (hplace : Deployed env i.chainId i.pool) :
    computeStageBProofContextHash v i = .ok h ↔
      ContextFits i ∧ h = poolHashed env (proofContextPreimage env i.read) := by
  have hchecksum : ∀ t, isEvmAddress (v.checksumAddress (address t)) := fun t => (hv.checksum _).1
  unfold computeStageBProofContextHash
  simp only [bind_eq_ok, getAddress_eq_ok hv]
  have hcreated : ∀ {pool destination : Text}, pool = v.checksumAddress (address i.pool) →
      destination = v.checksumAddress (address i.destination) →
      ((createProofContextV1 v { i with pool, destination } >>=
        Core.Proofs.hashProofContextV1 v) = .ok h ↔
      ContextFits { i with pool, destination } ∧
        h = poolHashed env (proofContextPreimage env i.read)) := by
    rintro _ _ rfl rfl
    have hread : ({ i with
        pool := v.checksumAddress (address i.pool)
        destination := v.checksumAddress (address i.destination) } : ProofContextInput).read =
        i.read := by
      simp only [ProofContextInput.read, address_checksumAddress hv]
    have hplace' : Deployed env i.chainId (v.checksumAddress (address i.pool)) :=
      ⟨hplace.chainId, by rw [address_checksumAddress hv]; exact hplace.this⟩
    rw [hashCreatedProofContextV1_eq_ok hv hplace', hread]
  simp only [bind_eq_ok] at hcreated
  constructor
  · rintro ⟨_, ⟨hpool, rfl⟩, _, ⟨hdestination, rfl⟩, hh⟩
    obtain ⟨⟨h1, h2, h3, h4, h5, h6, -, h8, h9, h10, h11, h12⟩, rfl⟩ := (hcreated rfl rfl).mp hh
    refine ⟨⟨h1, ⟨hpool, ?_⟩, h3, h4, h5, h6, hdestination, h8, h9, h10, h11, h12⟩, rfl⟩
    rw [← lower_checksumAddress hv hpool]
    exact h2.2
  · rintro ⟨⟨h1, h2, h3, h4, h5, h6, h7, h8, h9, h10, h11, h12⟩, rfl⟩
    refine ⟨_, ⟨h2.1, rfl⟩, _, ⟨h7, rfl⟩, (hcreated rfl rfl).mpr ⟨?_, rfl⟩⟩
    refine ⟨h1, ⟨hchecksum _, ?_⟩, h3, h4, h5, h6, hchecksum _, h8, h9, h10, h11, h12⟩
    change lower (v.checksumAddress (address i.pool)) ≠ zeroAddress
    rw [lower_checksumAddress hv h2.1]
    exact h2.2

/-- The output note, for what the decoder returns: only the pool is checked. -/
theorem computeV12ContractBoundEncryptedOutputNoteHash_eq_ok {i : WithdrawHashesInput} {h : Hashed}
    (hplace : Deployed env i.chainId i.pool) (hshape : i.proofContextShape = withdrawShape v)
    (hi : Decoded i) :
    computeV12ContractBoundEncryptedOutputNoteHash v i.note = .ok h ↔
      isEvmAddress i.pool ∧ h = poolHashed env (encryptedOutputNotePreimage env i.note.read) := by
  have hnote : isHexString i.note.encryptedOutputNote := hi.encryptedOutputNote
  set digest := hex32 (env.keccak256 (hexBytes i.note.encryptedOutputNote)) with hdigest
  set note : EncryptedOutputNoteInput := { i.note with
    pool := v.checksumAddress (address i.pool), shape := withdrawShape v } with hnoteEq
  have hplace' : Deployed env note.chainId note.pool :=
    ⟨hplace.chainId, by rw [hnoteEq, address_checksumAddress hv]; exact hplace.this⟩
  have hread : note.read = i.note.read := by
    simp only [hnoteEq, EncryptedOutputNoteInput.read, WithdrawHashesInput.note, hshape]
  have hfits : ∀ x ∈ note.values v digest, x.Fits v := by
    have hdomain := isHexBytes32_hashDomainSeparator hv "nullark.encrypted-output-note.v2"
    have hshape' := isHexBytes32_hashDomainSeparator hv "withdraw_context_v1_2_fee_governance"
    simp only [EncryptedOutputNoteInput.values, List.forall_mem_cons, AbiValue.Fits]
    exact ⟨hdomain, by norm_num, hi.chainId, isAddress_checksumAddress hv _, hshape', hi.selector,
      hi.nullifier, hi.outputCommitment, isHexBytes32_hex32 _, fun _ h => absurd h List.not_mem_nil⟩
  have hencode := hv.encode _ hfits
  have hpreimage := encode_encryptedOutputNote hv hplace'
  rw [hread] at hpreimage
  change encode ((note.values v digest).map (·.component)) = _ at hpreimage
  rw [hpreimage] at hencode
  unfold computeV12ContractBoundEncryptedOutputNoteHash
  simp only [bind_eq_ok, getAddress_eq_ok hv, hv.digest _ hnote, pure_eq_ok]
  constructor
  · rintro ⟨_, ⟨hpool, rfl⟩, _, hd, t, ht, hash, hhash, rfl⟩
    rw [← Except.ok.inj hd] at ht
    obtain rfl := Except.ok.inj (ht.symm.trans hencode)
    rw [Core.Proofs.hashAbiEncodedToField_hexText hv] at hhash
    rw [← Except.ok.inj hhash]
    exact ⟨hpool, rfl⟩
  · rintro ⟨hpool, rfl⟩
    exact ⟨_, ⟨hpool, rfl⟩, _, rfl, _, hencode, _, Core.Proofs.hashAbiEncodedToField_hexText hv _,
      rfl⟩

/-- **The relay's hashes** are those of the pool. -/
theorem contractBoundHashes_eq_ok {i : WithdrawHashesInput}
    {h : V12UnlinkableWithdrawContextHashes} (hplace : Deployed env i.chainId i.pool)
    (hshape : i.proofContextShape = withdrawShape v) (hi : Decoded i) :
    contractBoundHashes v i = .ok h ↔ RelayFits i ∧ h = poolHashes env i := by
  have hplace' : ∀ a b, Deployed env (i.context a b).chainId (i.context a b).pool :=
    fun _ _ => hplace
  have hshape' : isHexBytes32 i.proofContextShape := by
    rw [hshape]
    exact isHexBytes32_hashDomainSeparator hv _
  unfold contractBoundHashes
  simp only [bind_eq_ok, pure_eq_ok, computeStageBRelayerPolicyHash_eq_ok hv,
    computeV12ContractBoundEncryptedOutputNoteHash_eq_ok hv hplace hshape hi,
    computeStageBProofContextHash_eq_ok hv (hplace' _ _)]
  constructor
  · rintro ⟨_, ⟨-, rfl⟩, _, ⟨hpolicy, rfl⟩, _,
      ⟨⟨h1, h2, -, -, h5, h6, h7, h8, h9, -, -, -⟩, rfl⟩, rfl⟩
    exact ⟨⟨h1, h2, h5, h6.2, h7, h8, h9, hpolicy⟩, rfl⟩
  · rintro ⟨⟨h1, h2, h5, h6, h7, h8, h9, hpolicy⟩, rfl⟩
    exact ⟨_, ⟨h2.1, rfl⟩, _, ⟨hpolicy, rfl⟩, _, ⟨⟨h1, h2, hshape', hi.selector, h5,
      ⟨hi.nullifier, h6⟩, h7, h8, h9, isHexBytes32_hex32 _, isHexBytes32_hex32 _,
      hpolicy.deadlineOrZero⟩, rfl⟩, rfl⟩

end Spec

end Nullark.Relay.ContextHashes
