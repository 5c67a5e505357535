import Nullark.Sdk.Deposit

/-! # Recovering the deposits of the SDK

A deposit is encrypted for the key of the wallet, bound to the spelling of the pool in the runtime.
`recoversDeposit_iff`: a recovery finds it when it spells the pool in the same way and no note it
opens stops it. -/

namespace Nullark.Sdk.DepositRecovery

open Nullark.Lib Nullark.Lib.Outcome
open Nullark.Lib.Hex hiding value Digits ofNat
open Nullark.Lib.Aead (Crypto)
open Nullark.Evm.Basic Nullark.Pool.Interface
open Nullark.Js.Basic Nullark.Js.Bytes Nullark.Js.Package Nullark.Js.TreeHash
open Nullark.Js.ContextHashes (Deployed)
open Nullark.Js.SpendMaterial Nullark.Js.NoteEnvelope
open Nullark.Sdk.Poseidon Nullark.Sdk.NoteRecovery Nullark.Sdk.Deposit

/-- `deriveCommitmentFromSpendMaterial`. -/
def deriveCommitmentFromSpendMaterial (hash : FieldHash) (n : SpendMaterialPlaintext) :
    Throws Text :=
  deriveNoteCommitment hash n.preimage

/-- `DepositNoteCreated`, as it is decoded: words and bytes are written in lower case. -/
def depositEvent (r : PreparedDepositNote) (leafIndex : ℕ) (transactionHash : Text) :
    DecodedNoteEventLog where
  action := .deposit
  commitment := hex32 (word r.commitment)
  leafIndex := leafIndex
  encryptedNote := hexText (hexBytes r.transaction.encryptedNote)
  encryptionVersion := 1
  nullifier := none
  transactionHash := transactionHash

/-- Spend material that differs at most in the case of the address. -/
def SameNote (m n : SpendMaterialPlaintext) : Prop :=
  { m with pool := lower m.pool } = { n with pool := lower n.pool }

/-- **The note of an event is encrypted for the wallet**: its ciphertext is that of a plaintext,
under a key derived from the signature. -/
def EncryptedFor (c : Crypto) (input : RecoverInput) (event : DecodedNoteEventLog) : Prop :=
  ∃ encrypted, parseEncryptedNoteEnvelopeFromHex sdkEnvelopeWording event.encryptedNote =
    .ok encrypted ∧
    ∃ key ∈ recoveryKeys c input.walletSignature input.chainId input.pool,
      ∃ epochId aad plaintext, hexBytes encrypted.ciphertext =
        c.encrypt (noteKey c key event.commitment epochId) (hexBytes encrypted.nonce) aad plaintext

/-- **A deposit is recovered**: its event is returned once for each time it occurs, with its spend
material, and every event that is returned has a note for the wallet. -/
def RecoversDeposit (p : Platform) (input : RecoverInput) (event : DecodedNoteEventLog)
    (material : SpendMaterialPlaintext) : Prop :=
  ∃ out, recoverSpendMaterialFromDecodedNoteEvents p.crypto p.isDate
      (deriveCommitmentFromSpendMaterial p.poseidon) input = .ok out ∧
    (∃ n, SameNote n material ∧ out.filter (fun x => x.event = event) =
      List.replicate (input.events.count event) { event, plaintext := n }) ∧
    ∀ x ∈ out, EncryptedFor p.crypto input x.event

/-- The input of a recovery of the deposit: the same signature and chain, and a spelling of the
same address. -/
structure Recovers (i : PrepareInput) (input : RecoverInput) : Prop where
  walletSignature : input.walletSignature = i.walletSignature
  chainId : input.chainId = i.runtime.chainId
  address : isEvmAddress input.pool
  pool : lower input.pool = lower i.runtime.pool

/-- The data a deposit is bound to, for a spelling of the pool. -/
def depositData (i : PrepareInput) (pool commitment : Text) : Bytes :=
  RecoveryAssociatedData.bytes
    { chainId := i.runtime.chainId, pool, action := .deposit, commitment }

/-- **The encryption is authentic** for a deposit: none of the keys of the wallet opens its
ciphertext with other data than it was encrypted with. -/
def Authentic (c : Crypto) (i : PrepareInput) (input : RecoverInput)
    (n : SpendMaterialPlaintext) : Prop :=
  ∀ key ∈ recoveryKeys c input.walletSignature input.chainId input.pool,
    ∀ epochId ∈ recoveryEpochIds input.chainId,
      depositData i input.pool n.commitment ≠ depositData i i.runtime.pool n.commitment →
        c.decrypt (noteKey c key n.commitment epochId) i.nonce
          (depositData i input.pool n.commitment)
          (hexBytes (depositEnvelope c i n).ciphertext) = none

section Spec
variable {p : Platform} {i : PrepareInput} {r : PreparedDepositNote} {input : RecoverInput}
  {leafIndex : ℕ} {transactionHash : Text}

/-- The commitment is the same in the event. -/
theorem depositEvent_commitment (h : Prepared p i r) :
    (depositEvent r leafIndex transactionHash).commitment = r.commitment := by
  obtain ⟨note, hdrawn, -, hcommitment⟩ := h.material
  obtain ⟨-, ⟨-, hlt⟩, hpad⟩ := deriveNoteCommitment_eq_ok.mp hdrawn.commitment
  change hex32 (word r.commitment) = r.commitment
  rw [hcommitment, hpad, padHex32_eq_hex32 (hlt.trans (by decide)), word_hex32]

/-- The note is the envelope in the event. -/
theorem depositEvent_encryptedNote (h : Prepared p i r) :
    (depositEvent r leafIndex transactionHash).encryptedNote =
      hexText (depositEnvelope p.crypto i r.spendMaterial).bytes := by
  change hexText (hexBytes r.transaction.encryptedNote) = _
  rw [h.transaction, h.encryptedNote, hexBytes_hexText]

/-- What is checked of the input holds of the deposit. -/
theorem Recovers.checked (hin : Recovers i input) (h : Prepared p i r) :
    isWalletSignature input.walletSignature ∧ isChainId input.chainId ∧
      isEvmAddress input.pool := by
  refine ⟨hin.walletSignature ▸ h.walletSignature, ?_, hin.address⟩
  rw [hin.chainId]
  rcases h.chainId with h | h <;> rw [h] <;> decide

/-- **The deposit opens at the first attempt**, when the pool is spelled as in the runtime. -/
theorem opensAt_depositEvent (h : Prepared p i r)
    (hin : Recovers i input) (hpool : input.pool = i.runtime.pool) :
    OpensAt p.crypto p.isDate input.chainId input.pool
      (input.attempts p.crypto (depositEvent r leafIndex transactionHash))
      (depositEvent r leafIndex transactionHash) r.spendMaterial := by
  obtain ⟨note, -, hmaterial, hcommitment⟩ := h.material
  obtain ⟨-, hchain, haddress⟩ := hin.checked h
  have hsame : r.spendMaterial.commitment = r.commitment := by rw [hmaterial, hcommitment]; rfl
  unfold RecoverInput.attempts
  rw [hin.walletSignature, hin.chainId, hpool]
  rw [hin.chainId] at hchain
  rw [hpool] at haddress
  refine opensAt_noteEnvelope hchain haddress (validateSpendMaterialPlaintext_eq_ok.mp h.valid)
    h.envelope rfl ?_ (depositEvent_encryptedNote h)
  rw [depositEvent_commitment h, hsame]

/-- The round of the deposit finds its spend material. -/
theorem round_depositEvent (hc : Aead.Documented p.crypto) (h : Prepared p i r)
    (hin : Recovers i input) (hpool : input.pool = i.runtime.pool) :
    input.round p.crypto p.isDate (deriveCommitmentFromSpendMaterial p.poseidon)
      (depositEvent r leafIndex transactionHash) =
        .ok (some { event := depositEvent r leafIndex transactionHash
                    plaintext := r.spendMaterial }) := by
  obtain ⟨note, hdrawn, hmaterial, hcommitment⟩ := h.material
  refine (round_eq_some hc).mpr ⟨rfl, ⟨opensAt_depositEvent h hin hpool, ?_, ?_⟩,
    note.commitment, ?_, ?_⟩
  · change r.spendMaterial.chainId = _
    rw [hmaterial, hin.chainId]
    rfl
  · change lower r.spendMaterial.pool = _
    rw [hmaterial, hin.pool]
    rfl
  · change deriveNoteCommitment _ r.spendMaterial.preimage = _
    rw [hmaterial]
    exact hdrawn.commitment
  · rw [depositEvent_commitment h, hcommitment]

/-- **A deposit that opens was bound to the pool as it is spelled.** -/
theorem pool_eq_of_opensAt (hc : Aead.Documented p.crypto) (h : Prepared p i r)
    (hin : Recovers i input) (hauth : Authentic p.crypto i input r.spendMaterial)
    {n : SpendMaterialPlaintext} (hopens : OpensAt p.crypto p.isDate input.chainId input.pool
      (input.attempts p.crypto (depositEvent r leafIndex transactionHash))
      (depositEvent r leafIndex transactionHash) n) : input.pool = i.runtime.pool := by
  obtain ⟨note, -, hmaterial, hcommitment⟩ := h.material
  have hsafe : i.runtime.chainId < 2 ^ 53 := by rcases h.chainId with h | h <;> rw [h] <;> norm_num
  have hsame : r.commitment = r.spendMaterial.commitment := by rw [hmaterial, hcommitment]; rfl
  obtain ⟨encrypted, hparse, a, hmem, hopen⟩ := hopens.exists_opens
  obtain ⟨hkey, hepoch, haction⟩ := mem_recoveryAttempts.mp hmem
  have hdeposit : a.2.2 = .deposit := List.mem_singleton.mp haction
  rw [depositEvent_encryptedNote h, parseEnvelope_hexText h.envelope] at hparse
  obtain rfl := (Except.ok.inj hparse).symm
  obtain ⟨plaintext, hcipher, -⟩ := hopen.ciphertext
  by_contra hne
  have hdata : depositData i input.pool r.spendMaterial.commitment ≠
      depositData i i.runtime.pool r.spendMaterial.commitment := fun hdata =>
    hne (pool_of_bytes hsafe hsafe hdata)
  have hnone := hauth a.1 hkey a.2.1 hepoch hdata
  rw [depositEvent_commitment h, hsame, hdeposit, hin.chainId] at hcipher
  rw [hcipher] at hnone
  simp only [depositEnvelope, hexBytes_hexText] at hnone
  rw [depositData, hc.decrypt_encrypt] at hnone
  cases hnone

/-- **When a deposit is recovered.** -/
theorem recoversDeposit_iff (hc : Aead.Documented p.crypto) (h : Prepared p i r)
    (hin : Recovers i input) (hauth : Authentic p.crypto i input r.spendMaterial)
    (hmem : depositEvent r leafIndex transactionHash ∈ input.events) :
    RecoversDeposit p input (depositEvent r leafIndex transactionHash) r.spendMaterial ↔
      input.pool = i.runtime.pool ∧
        ∀ event ∈ input.events, ∀ n, Found p.crypto p.isDate input event n →
          ∃ t, deriveCommitmentFromSpendMaterial p.poseidon n = .ok t := by
  constructor
  · rintro ⟨out, hout, ⟨n, -, hfilter⟩, -⟩
    have hpositive := List.count_pos_iff.mpr hmem
    have hreturned : (⟨depositEvent r leafIndex transactionHash, n⟩ : RecoveredSpendMaterial) ∈
        out.filter (fun x => x.event = depositEvent r leafIndex transactionHash) := by
      rw [hfilter]
      exact List.mem_replicate.mpr ⟨hpositive.ne', rfl⟩
    have hfound := (found_of_mem hc hout (List.mem_of_mem_filter hreturned)).2
    exact ⟨pool_eq_of_opensAt hc h hin hauth hfound.1, ((exists_recover hc).mp ⟨out, hout⟩).2⟩
  · rintro ⟨hpool, hderived⟩
    obtain ⟨out, hout⟩ := (exists_recover hc).mpr ⟨hin.checked h, hderived⟩
    refine ⟨out, hout, ⟨r.spendMaterial, rfl,
      filter_recover hc hout (round_depositEvent hc h hin hpool)⟩, fun x hx => ?_⟩
    obtain ⟨encrypted, hparse, a, ha, hopen⟩ := (found_of_mem hc hout hx).2.1.exists_opens
    obtain ⟨plaintext, hcipher, -⟩ := hopen.ciphertext
    exact ⟨encrypted, hparse, a.1, (mem_recoveryAttempts.mp ha).1, a.2.1, _, plaintext, hcipher⟩

end Spec

/-- **When the deposits of the SDK are recovered**: exactly when the pool is spelled as it was, and
the commitment of every note that opens can be derived. -/
theorem deposit_recovered_iff {p : Platform} {i : PrepareInput} {r : PreparedDepositNote}
    (hc : Aead.Documented p.crypto) (h : prepareDepositNote p i = .ok r) {input : RecoverInput}
    (hin : Recovers i input) (hauth : Authentic p.crypto i input r.spendMaterial)
    {leafIndex : ℕ} {transactionHash : Text}
    (hmem : depositEvent r leafIndex transactionHash ∈ input.events) :
    RecoversDeposit p input (depositEvent r leafIndex transactionHash) r.spendMaterial ↔
      input.pool = i.runtime.pool ∧
        ∀ event ∈ input.events, ∀ n, Found p.crypto p.isDate input event n →
          ∃ t, deriveCommitmentFromSpendMaterial p.poseidon n = .ok t :=
  recoversDeposit_iff hc (prepareDepositNote_ok h) hin hauth hmem

/-! ### Recoveries -/

/-- A recovery of a deposit alone. -/
def recoveryOf (i : PrepareInput) (pool : Text) (r : PreparedDepositNote) : RecoverInput where
  walletSignature := i.walletSignature
  chainId := i.runtime.chainId
  pool := pool
  events := [depositEvent r 0 []]

/-- The deposit of the sample is recovered. -/
theorem deposit_recovered_sample : ∃ r, prepareDepositNote samplePlatform sampleInput = .ok r ∧
    RecoversDeposit samplePlatform (recoveryOf sampleInput sampleInput.runtime.pool r)
      (depositEvent r 0 []) r.spendMaterial := by
  have hc : Aead.Documented samplePlatform.crypto := Aead.documented_checksum _
  obtain ⟨r, hr, hmaterial⟩ := exists_sample
  have hprepared := prepareDepositNote_ok hr
  have hin : Recovers sampleInput (recoveryOf sampleInput sampleInput.runtime.pool r) :=
    ⟨rfl, rfl, isEvmAddress_addressText _, rfl⟩
  refine ⟨r, hr, (deposit_recovered_iff hc hr hin (fun _ _ _ _ h => absurd rfl h)
    (List.mem_singleton.mpr rfl)).mpr ⟨rfl, fun event hevent n hfound => ?_⟩⟩
  obtain rfl := List.mem_singleton.mp hevent
  have hround := @round_depositEvent _ _ _ _ 0 [] hc hprepared hin rfl
  have hderived := ((exists_round hc).mp ⟨_, hround⟩) n hfound
  exact hderived

/-- A pool whose address has letters. -/
def lettersRuntime : NullarkCurrentRuntime :=
  { sampleRuntime with pool := '0' :: 'x' :: List.replicate 40 'a' }

def lettersInput : PrepareInput := { sampleInput with runtime := lettersRuntime }

/-- The same address in upper case. -/
def upperPool : Text := '0' :: 'x' :: List.replicate 40 'A'

theorem exists_letters : ∃ r, prepareDepositNote samplePlatform lettersInput = .ok r ∧
    r.spendMaterial = lettersInput.spendMaterial sampleNote := by
  let env := { sampleEnv with this := address lettersInput.runtime.pool }
  have hpool : isEvmAddress lettersInput.runtime.pool := by decide
  have hvalid : validateSpendMaterialPlaintext samplePlatform.isDate
      (lettersInput.spendMaterial sampleNote) = .ok () :=
    validateSpendMaterialPlaintext_eq_ok.mpr (sampleNote_valid rfl hpool rfl rfl)
  have hplace : Deployed env lettersInput.runtime.chainId lettersInput.runtime.pool := ⟨rfl, rfl⟩
  have haddress : isAddress samplePlatform.viem lettersInput.runtime.pool :=
    ⟨hpool, Or.inl (by decide)⟩
  exact @exists_prepareDepositNote _ env documented_samplePlatform _ _ hplace
    (sampleRuntime_accepted hpool) haddress isWalletSignature_ones ⟨by decide, rfl⟩
    drawNote_sample hvalid (depositEnvelope_fits (Aead.documented_checksum _) rfl _) rfl

/-- The tags of a deposit tell the data of another spelling apart. -/
def Separated (c : Crypto) (i : PrepareInput) (pool commitment : Text) : Prop :=
  ∀ key ∈ recoveryKeys c i.walletSignature i.runtime.chainId pool,
    ∀ epochId ∈ recoveryEpochIds i.runtime.chainId,
      (Aead.checksum (noteKey c key commitment epochId) +
        Aead.checksum (depositData i pool commitment)) % 256 ^ Aead.tagLength ≠
      (Aead.checksum (noteKey c (walletRecoveryKey c i.walletSignature i.runtime.chainId
          i.runtime.pool nullarkRecoveryAppId) commitment (recoveryEpochId i.runtime.chainId)) +
        Aead.checksum (depositData i i.runtime.pool commitment)) % 256 ^ Aead.tagLength

instance (c : Crypto) (i : PrepareInput) (pool commitment : Text) :
    Decidable (Separated c i pool commitment) :=
  inferInstanceAs (Decidable (∀ key ∈ recoveryKeys c _ _ _, ∀ epochId ∈ recoveryEpochIds _, _ ≠ _))

theorem authentic_checksum (d : Bytes → Bytes → Bytes → Bytes) {i : PrepareInput}
    {input : RecoverInput} (hin : Recovers i input) {n : SpendMaterialPlaintext}
    (h : Separated (Aead.checksumCrypto d) i input.pool n.commitment) :
    Authentic (Aead.checksumCrypto d) i input n := by
  intro key hkey epochId hepoch _
  rw [hin.walletSignature, hin.chainId] at hkey
  rw [hin.chainId] at hepoch
  simp only [depositEnvelope, hexBytes_hexText]
  exact Aead.checksum_decrypt_eq_none (h key hkey epochId hepoch)

theorem separated_letters :
    Separated samplePlatform.crypto lettersInput upperPool (hex32 sampleCommitment) := by
  decide +kernel

/-- **A deposit is lost** to a recovery that spells the pool in upper case. -/
theorem upperCase_not_recovered : ∃ r, prepareDepositNote samplePlatform lettersInput = .ok r ∧
    Aead.Documented samplePlatform.crypto ∧
    Recovers lettersInput (recoveryOf lettersInput upperPool r) ∧
    Authentic samplePlatform.crypto lettersInput (recoveryOf lettersInput upperPool r)
      r.spendMaterial ∧
    depositEvent r 0 [] ∈ (recoveryOf lettersInput upperPool r).events ∧
    ¬RecoversDeposit samplePlatform (recoveryOf lettersInput upperPool r) (depositEvent r 0 [])
      r.spendMaterial := by
  have hc : Aead.Documented samplePlatform.crypto := Aead.documented_checksum _
  obtain ⟨r, hr, hmaterial⟩ := exists_letters
  have hprepared := prepareDepositNote_ok hr
  have hin : Recovers lettersInput (recoveryOf lettersInput upperPool r) :=
    ⟨rfl, rfl, by change isEvmAddress upperPool; decide +kernel, by
      change lower upperPool = _; decide⟩
  have hcommitment : r.spendMaterial.commitment = hex32 sampleCommitment := by rw [hmaterial]; rfl
  have hauth : Authentic samplePlatform.crypto lettersInput
      (recoveryOf lettersInput upperPool r) r.spendMaterial := by
    refine authentic_checksum _ hin ?_
    rw [hcommitment]
    exact separated_letters
  have hne : upperPool ≠ lettersInput.runtime.pool := by decide +kernel
  have hmem : depositEvent r 0 [] ∈ (recoveryOf lettersInput upperPool r).events :=
    List.mem_singleton.mpr rfl
  exact ⟨r, hr, hc, hin, hauth, hmem, fun hrecovers =>
    hne ((recoversDeposit_iff hc hprepared hin hauth hmem).mp hrecovers).1⟩

end Nullark.Sdk.DepositRecovery
