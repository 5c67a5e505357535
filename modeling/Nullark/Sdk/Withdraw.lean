import Nullark.Js.WithdrawWitness
import Nullark.Sdk.Poseidon

/-! # Withdrawals of the SDK

* `built_made`: what `buildV12UnlinkableWithdrawalWitness` accepts, it builds.
* `outputNote_accepted_iff`: when the note of a partial withdrawal can be spent again. -/

namespace Nullark.Sdk.Withdraw

open Nullark.Lib Nullark.Lib.Outcome
open Nullark.Lib.Hex hiding value Digits ofNat
open Nullark.Core.Proofs (maxSafeInteger)
open Nullark.Evm.Basic Nullark.Pool.Interface Nullark.Pool.Context
open Nullark.Js.Basic Nullark.Js.Bytes Nullark.Js.Package Nullark.Js.TreeHash
open Nullark.Js.ContextHashes Nullark.Js.OutputNoteEnvelope Nullark.Js.SpendMaterial
open Nullark.Js.WithdrawWitness Nullark.Sdk.Poseidon

/-- **What an integrator hands to the SDK**: random bytes, by the number of the call, a clock and
an encryptor. -/
structure Providers where
  randomBytes : ℕ → Bytes
  now : Throws Text
  encryptOutputNote : Option (SpendMaterialPlaintext → Throws Text)

def createRandomBytes32 (randomBytes : ℕ → Bytes) (call : ℕ) : Throws Text := do
  let bytes := randomBytes call
  ensure (bytes.length = 32) "Random byte provider must return exactly 32 bytes."
  return hexText bytes

def encryptRequiredOutputNote (encryptOutputNote : Option (SpendMaterialPlaintext → Throws Text))
    (outputNote : SpendMaterialPlaintext) : Throws EncryptedOutputNoteV2Ciphertext :=
  match encryptOutputNote with
  | none => .error
    "Encrypted output note bytes are required before generating a split v1.2 withdrawal proof."
  | some encrypt => do
    let ciphertext ← encrypt outputNote
    ensure (isNonEmptyHex ciphertext) "Encrypted output note must be nonempty even-length hex bytes."
    return { ciphertext }

/-- The SDK checks neither the amount nor a pending fee further. -/
def parts (hash : FieldHash) (providers : Providers) : Parts where
  rules := sdkRules
  wording := sdkWording
  hash := hash
  assertRoot := assertNonZeroField
  checkAmount _ := .ok ()
  checkPendingFee := .ok ()
  createRandomBytes32 := createRandomBytes32 providers.randomBytes
  now := providers.now
  encryptRequiredOutputNote := encryptRequiredOutputNote providers.encryptOutputNote
  deriveNoteCommitment := deriveNoteCommitment hash
  deriveNullifier := deriveNullifier hash

def buildV12UnlinkableWithdrawalWitness (v : Viem) (hash : FieldHash) (providers : Providers)
    (input : BuildInput) : Throws WitnessBundle :=
  buildWitness v (parts hash providers) input

/-! ### Texts of field elements -/

theorem ne_zeroBytes32_of_isBn254FieldElement {t : Text} (h : isBn254FieldElement t) :
    t ≠ zeroBytes32 := by
  intro heq
  have hnat : hexNat t = 0 := by
    rw [heq, zeroBytes32, hexNat_hex32]
    rfl
  exact h.2.1.ne' hnat

theorem isField_of_isBn254FieldElement {t : Text} (h : isBn254FieldElement t) : IsField t :=
  ⟨h.1, h.2.2⟩

theorem createRandomBytes32_eq_ok {randomBytes : ℕ → Bytes} {call : ℕ} {t : Text} :
    createRandomBytes32 randomBytes call = .ok t ↔
      (randomBytes call).length = 32 ∧ t = hexText (randomBytes call) := by
  unfold createRandomBytes32
  simp only [bind_eq_ok, ensure_eq_ok, exists_const, pure_eq_ok, eq_comm (a := t)]

theorem encryptRequiredOutputNote_eq_ok {encrypt : SpendMaterialPlaintext → Throws Text}
    {output : SpendMaterialPlaintext} {ciphertext : EncryptedOutputNoteV2Ciphertext} :
    encryptRequiredOutputNote (some encrypt) output = .ok ciphertext ↔ ∃ t,
      encrypt output = .ok t ∧ isNonEmptyHex t ∧ ciphertext = { ciphertext := t } := by
  unfold encryptRequiredOutputNote
  simp only [bind_eq_ok, ensure_eq_ok, exists_const, pure_eq_ok, eq_comm (a := ciphertext)]

/-- The native asset has one number, in every spelling. -/
theorem hexNat_nativeEthAssetId {t : Text} (h : isHexBytes32 t) (hlower : lower t = nativeEthAssetId) :
    hexNat t = 1 := by
  have hword : word t = 1 := hex32_injective ((hex32_word h).trans hlower)
  rw [← toNat_word h, hword]
  rfl

/-! ### The note of a partial withdrawal -/

section Output
variable {v : Viem} {hash : FieldHash} {providers : Providers} {i : BuildInput}

/-- The note can be spent again exactly if the two secrets that were drawn are field elements and
not zero. -/
theorem outputNote_iff {m : Made} (h : Built v (parts hash providers) i m)
    (hhash : ∀ l, hash l < bn254ScalarField) (hpart : 0 < m.outputAmount) :
    (assertNoteForPool m.output i.chainId i.pool = .ok () ∧
        deriveNoteCommitment hash m.output.preimage = .ok m.output.commitment) ↔
      isBn254FieldElement (hexText (providers.randomBytes 0)) ∧
        isBn254FieldElement (hexText (providers.randomBytes 1)) := by
  obtain ⟨-, howner⟩ := createRandomBytes32_eq_ok.mp h.output.ownerCommitment
  obtain ⟨-, hsecret⟩ := createRandomBytes32_eq_ok.mp h.output.noteSecret
  have hcommitment : m.output.commitment = padHex32 (hash (outputPreimage m.output.preimage)) :=
    h.output_commitment
  have hpos : 0 < hash (outputPreimage m.output.preimage) := Nat.pos_of_ne_zero h.output_hash_ne
  rw [assertNoteForPool_eq_ok, ← howner, ← hsecret]
  constructor
  · rintro ⟨hnote, -⟩
    exact ⟨hnote.ownerCommitment, hnote.noteSecret⟩
  · rintro ⟨hownerField, hsecretField⟩
    have hasset : lower m.output.assetId = nativeEthAssetId :=
      h.output.assetId ▸ h.note.assetId
    refine ⟨?_, deriveNoteCommitment_eq_ok.mpr ⟨?_, ⟨hpos, hhash _⟩, hcommitment⟩⟩
    · exact
        { version := h.output.version
          chainId := h.output.chainId.trans h.note.chainId
          pool := h.output.pool ▸ h.note.pool
          assetId := hasset
          commitment := hcommitment ▸ isBn254FieldElement_padHex32 hpos (hhash _)
          ownerCommitment := hownerField
          noteSecret := hsecretField }
    · obtain ⟨-, hassetHex, -⟩ := deriveOutputNoteCommitment_eq_ok.mp h.output.commitment
      have hamount : m.output.preimage.noteAmountWei = Decimal.ofNat m.outputAmount :=
        h.output.noteAmountWei
      have hfield : 2 ^ 128 < bn254ScalarField := by decide
      refine ⟨⟨hassetHex, ?_⟩, ?_, isField_of_isBn254FieldElement hownerField,
        isField_of_isBn254FieldElement hsecretField⟩
      · rw [hexNat_nativeEthAssetId hassetHex hasset]
        decide
      · rw [hamount, Decimal.value_ofNat]
        exact ⟨Decimal.isDecimal_ofNat _, hpart, h.outputAmount_lt.trans hfield⟩

/-- **A retained note can be spent again exactly if its secrets were drawn from the field.** For
every partial withdrawal that is accepted, with any random bytes. -/
theorem outputNote_accepted_iff {b : WitnessBundle} {note : SpendMaterialPlaintext}
    (hhash : ∀ l, hash l < bn254ScalarField)
    (hb : buildV12UnlinkableWithdrawalWitness v hash providers i = .ok b)
    (hpart : b.outputNote = some note) :
    (assertNoteForPool note i.chainId i.pool = .ok () ∧ ∃ outputCommitment,
        b.publicInputs[2]? = some outputCommitment ∧
          deriveNoteCommitment hash note.preimage = .ok outputCommitment) ↔
      isBn254FieldElement (hexText (providers.randomBytes 0)) ∧
        isBn254FieldElement (hexText (providers.randomBytes 1)) := by
  obtain ⟨m, hm, rfl⟩ := buildWitness_eq_ok.mp hb
  obtain ⟨hpos, rfl⟩ := outputNote_eq_some hpart
  have hinput : (m.bundle i).publicInputs[2]? = some m.output.commitment := rfl
  rw [← outputNote_iff hm hhash hpos, hinput]
  simp only [Option.some.injEq, exists_eq_left']

end Output

/-! ### What is accepted is built -/

section Make
variable (env : Env) (v : Viem) (hash : FieldHash) (providers : Providers)
  (createdAt ciphertext : Text) (i : BuildInput)

def oldAmount : ℕ := Decimal.value i.note.noteAmountWei

def grossAmount : ℕ := i.grossAmountWei.elim (oldAmount i) Decimal.value

def outputAmount : ℕ := oldAmount i - grossAmount i

def feeBps : ℕ := (i.withdrawalFeeBps.getD defaultFeeBps).toNat

def fee : ℕ := grossAmount i * feeBps i / bpsDenominator

/-- The note for the rest of the amount. -/
def outputOf : SpendMaterialPlaintext :=
  let preimage : NoteCommitmentInput :=
    { assetId := i.note.assetId, noteAmountWei := Decimal.ofNat (outputAmount i)
      ownerCommitment := hexText (providers.randomBytes 0)
      noteSecret := hexText (providers.randomBytes 1) }
  { version := spendMaterialVersion, chainId := i.note.chainId, pool := i.note.pool
    assetId := preimage.assetId, noteAmountWei := preimage.noteAmountWei
    ownerCommitment := preimage.ownerCommitment, noteSecret := preimage.noteSecret
    blinding := hexText (providers.randomBytes 2)
    commitment := padHex32 (hash (outputPreimage preimage)), createdAt }

theorem outputOf_commitment : (outputOf hash providers createdAt i).commitment =
    padHex32 (hash (outputPreimage (outputOf hash providers createdAt i).preimage)) := rfl

def ciphertextOf : EncryptedOutputNoteV2Ciphertext :=
  if outputAmount i = 0 then dummyOutputCiphertext else { ciphertext }

def envelopeOf : EncryptedOutputNoteV2Envelope :=
  (envelopeInput i (outputOf hash providers createdAt i) (ciphertextOf ciphertext i)).envelope

def nullifierOf : Text := padHex32 (hash (nullifierPreimage (nullifierInput i)))

/-- The hashes of the withdrawal are made from these. -/
def hashesOf : WithdrawHashesInput :=
  hashesInput i v (grossAmount i) (fee i) (nullifierOf hash i)
    (outputOf hash providers createdAt i).commitment
    (hexText (envelopeOf hash providers createdAt ciphertext i).bytes)

/-- **What the SDK makes.** -/
def made : Made where
  oldAmount := oldAmount i
  grossAmount := grossAmount i
  feeBps := feeBps i
  output := outputOf hash providers createdAt i
  ciphertext := ciphertextOf ciphertext i
  envelope := envelopeOf hash providers createdAt ciphertext i
  encryptedOutputNote := hexText (envelopeOf hash providers createdAt ciphertext i).bytes
  nullifier := nullifierOf hash i
  hashes := poolHashes env (hashesOf v hash providers createdAt ciphertext i)

theorem outputNote_made (h : outputAmount i ≠ 0) :
    ((made env v hash providers createdAt ciphertext i).bundle i).outputNote =
      some (outputOf hash providers createdAt i) := if_neg h

/-- **The withdrawals the SDK accepts**, with the time of the clock and the ciphertext of the
encryptor. -/
structure Accepts : Prop where
  note : NoteForPool i.note i.chainId i.pool
  path : PathFits i.merklePath i.chainId i.pool i.note.commitment i.merkleTreeDepth
  root : isBn254FieldElement i.merklePath.root
  destination : isAddress v i.destination ∧ i.destination ≠ zeroAddress
  chainId : i.chainId = 6343 ∨ i.chainId = 4326
  pool : isAddress v i.pool
  amount : Decimal.isDecimal i.note.noteAmountWei ∧ 0 < oldAmount i ∧ oldAmount i < 2 ^ 128
  gross : ∀ t ∈ i.grossAmountWei, Decimal.isDecimal t ∧ 0 < Decimal.value t
  gross_le : grossAmount i ≤ oldAmount i
  rate : 0 ≤ i.withdrawalFeeBps.getD defaultFeeBps ∧ i.withdrawalFeeBps.getD defaultFeeBps ≤ 100
  randomBytes : ∀ call, (providers.randomBytes call).length = 32
  now : providers.now = .ok createdAt
  encrypted : outputAmount i ≠ 0 → ∃ encrypt, providers.encryptOutputNote = some encrypt ∧
    encrypt (outputOf hash providers createdAt i) = .ok ciphertext ∧ isNonEmptyHex ciphertext ∧
    hexByteLength ciphertext ≤ paddedCiphertextBytes
  hash_lt : ∀ l, hash l < bn254ScalarField
  outputHash : hash (outputPreimage (outputOf hash providers createdAt i).preimage) ≠ 0
  nullifierHash : hash (nullifierPreimage (nullifierInput i)) ≠ 0
  commitment : deriveNoteCommitment hash i.note.preimage = .ok (lower i.note.commitment)

section Built
variable {env : Env} {v : Viem} {hash : FieldHash} {providers : Providers}
  {createdAt ciphertext : Text} {i : BuildInput}
  (h : Accepts v hash providers createdAt ciphertext i)
include h

theorem gross_spec : grossAmountOf (oldAmount i) i.grossAmountWei = .ok (grossAmount i) ∧
    0 < grossAmount i := by
  have hle := h.gross_le
  have hgross := h.gross
  have hlt := h.amount.2.2
  unfold grossAmount at hle ⊢
  rcases hi : i.grossAmountWei with _ | t
  · exact ⟨rfl, h.amount.2.1⟩
  · rw [hi] at hle hgross
    obtain ⟨hdecimal, hpos⟩ := hgross t rfl
    have hbound : Decimal.value t < 2 ^ 128 := lt_of_le_of_lt hle hlt
    exact ⟨parsePositiveDecimalField_eq_ok.mpr ⟨hdecimal, ⟨hpos, hbound⟩, rfl⟩, hpos⟩

theorem output_spec : OutputNote (parts hash providers) i.note (outputAmount i)
    (outputOf hash providers createdAt i) := by
  have hdraw : ∀ call, createRandomBytes32 providers.randomBytes call =
      .ok (hexText (providers.randomBytes call)) := fun call =>
    createRandomBytes32_eq_ok.mpr ⟨h.randomBytes call, rfl⟩
  have hdrawHex : ∀ call, isHexBytes32 (hexText (providers.randomBytes call)) := by
    intro call
    refine isHexOfLength_iff.mpr ⟨_, rfl, ?_, digits_ofBytes _⟩
    rw [length_ofBytes, h.randomBytes]
  have hasset : isHexBytes32 i.note.assetId :=
    (deriveNoteCommitment_eq_ok.mp h.commitment).1.assetId.1
  have hlt : outputAmount i < 2 ^ 128 := by
    have := h.amount.2.2
    unfold outputAmount
    omega
  have hvalue : Decimal.value (Decimal.ofNat (outputAmount i)) < 2 ^ 128 := by
    rw [Decimal.value_ofNat]
    exact hlt
  refine ⟨hdraw 0, hdraw 1, ?_, hdraw 2, h.now, rfl, rfl, rfl, rfl, rfl⟩
  exact deriveOutputNoteCommitment_eq_ok.mpr
    ⟨⟨Decimal.isDecimal_ofNat _, hvalue⟩, hasset, hdrawHex 0, hdrawHex 1, rfl⟩

theorem ciphertext_spec : sealOutputNote (parts hash providers) (outputAmount i)
      (outputOf hash providers createdAt i) = .ok (ciphertextOf ciphertext i) ∧
    isNonEmptyHex (ciphertextOf ciphertext i).ciphertext ∧
    hexByteLength (ciphertextOf ciphertext i).ciphertext ≤ paddedCiphertextBytes := by
  unfold sealOutputNote ciphertextOf
  by_cases hzero : outputAmount i = 0
  · rw [if_pos hzero, if_pos hzero]
    exact ⟨rfl, by decide, by decide⟩
  · obtain ⟨encrypt, hsome, hencrypt, hhex, hle⟩ := h.encrypted hzero
    rw [if_neg hzero, if_neg hzero]
    refine ⟨?_, hhex, hle⟩
    change encryptRequiredOutputNote providers.encryptOutputNote _ = _
    rw [hsome]
    exact encryptRequiredOutputNote_eq_ok.mpr ⟨ciphertext, hencrypt, hhex, rfl⟩

theorem envelope_fits : (envelopeInput i (outputOf hash providers createdAt i)
    (ciphertextOf ciphertext i)).Fits := by
  have hcommitment : isHexBytes32 (outputOf hash providers createdAt i).commitment :=
    (isBn254FieldElement_padHex32 (Nat.pos_of_ne_zero h.outputHash) (h.hash_lt _)).1
  have hnone : ciphertextOf ciphertext i =
      { ciphertext := (ciphertextOf ciphertext i).ciphertext } := by
    unfold ciphertextOf
    split_ifs <;> rfl
  refine ⟨(ciphertext_spec h).2.1, (ciphertext_spec h).2.2, h.chainId.symm, h.pool.1, hcommitment,
    ?_, ?_⟩
  · intro t ht
    change t ∈ (ciphertextOf ciphertext i).ephemeralPublicKey at ht
    rw [hnone] at ht
    exact absurd ht (Option.not_mem_none t)
  · intro t ht
    change t ∈ (ciphertextOf ciphertext i).nonce at ht
    rw [hnone] at ht
    exact absurd ht (Option.not_mem_none t)

theorem fee_le : fee i ≤ grossAmount i := by
  have hrate : feeBps i ≤ 100 := by
    have := h.rate
    unfold feeBps
    omega
  have hmul : grossAmount i * feeBps i ≤ grossAmount i * bpsDenominator :=
    Nat.mul_le_mul_left _ (hrate.trans (by decide))
  rw [mul_comm _ bpsDenominator] at hmul
  exact Nat.div_le_of_le_mul hmul

theorem hashes_fit {env : Env} (hv : Documented v env.keccak256) :
    (hashesOf v hash providers createdAt ciphertext i).Fits v := by
  have hhash : ∀ n, n ≠ 0 → n < bn254ScalarField →
      isHexBytes32 (padHex32 n) ∧ padHex32 n ≠ zeroBytes32 := by
    intro n hne hlt
    have hfield := isBn254FieldElement_padHex32 (Nat.pos_of_ne_zero hne) hlt
    exact ⟨hfield.1, ne_zeroBytes32_of_isBn254FieldElement hfield⟩
  have hselector : isHexBytes4 withdrawBoundedSelector := by decide
  have hdeadline : 0 < 2 ^ 256 := by decide
  have hgross : grossAmount i < 2 ^ 256 :=
    lt_of_le_of_lt h.gross_le (h.amount.2.2.trans (by decide))
  have hfee : fee i < 2 ^ 256 := lt_of_le_of_lt (fee_le h) hgross
  have hnet : grossAmount i - fee i < 2 ^ 256 := lt_of_le_of_lt (Nat.sub_le _ _) hgross
  exact
    { place := ⟨h.chainId, h.pool, isHexBytes32_hashDomainSeparator hv _, hselector⟩
      root := ⟨h.root.1, ne_zeroBytes32_of_isBn254FieldElement h.root⟩
      nullifier := hhash _ h.nullifierHash (h.hash_lt _)
      outputCommitment := hhash _ h.outputHash (h.hash_lt _)
      destination := h.destination.1
      grossAmount := ⟨(gross_spec h).2, hgross⟩
      fee := hfee
      relayerPolicy := ⟨isAddress_addressText v 0, hnet, hfee, hdeadline⟩ }

/-- **What the SDK accepts, it builds.** -/
theorem built_made {env : Env} (hv : Documented v env.keccak256)
    (hplace : Deployed env i.chainId i.pool) :
    Built v (parts hash providers) i (made env v hash providers createdAt ciphertext i) := by
  have hfits := envelope_fits h
  have hrate : i.withdrawalFeeBps.getD defaultFeeBps = (feeBps i : ℤ) ∧ feeBps i ≤ 100 := by
    have := h.rate
    unfold feeBps
    omega
  have hleaf : i.merklePath.leafIndex ≤ maxSafeInteger := by
    have hle : 2 ^ i.merkleTreeDepth ≤ 2 ^ 32 :=
      Nat.pow_le_pow_right (by decide) h.path.depth.2
    have := h.path.leafIndex
    have hmax : maxSafeInteger = 9007199254740991 := rfl
    omega
  have hnullifier : NullifierFits (nullifierInput i) := by
    have hchain := h.chainId
    have hmax : maxSafeInteger = 9007199254740991 := rfl
    refine ⟨hleaf, ?_, h.pool.1, (deriveNoteCommitment_eq_ok.mp h.commitment).1.noteSecret⟩
    change 0 < i.chainId ∧ i.chainId ≤ maxSafeInteger
    omega
  exact
    { note := h.note
      path := h.path
      root := assertNonZeroField_eq_ok.mpr h.root
      destination := ⟨h.destination.1.1, h.destination.2⟩
      oldAmount := parsePositiveDecimalField_eq_ok.mpr ⟨h.amount.1, h.amount.2, rfl⟩
      grossAmount := (gross_spec h).1
      amount := rfl
      gross_le := h.gross_le
      feeBps := normalizeFeeBps_eq_ok.mpr hrate
      pendingFee := rfl
      output := output_spec h
      ciphertext := (ciphertext_spec h).1
      envelope := (createEncryptedOutputNoteV2Envelope_eq_ok rfl).mpr ⟨hfits, rfl⟩
      encryptedOutputNote := serialize_of_wellFormed (wellFormed_envelope hfits)
      commitment := ⟨_, h.commitment, lower_lower _⟩
      nullifier := deriveNullifier_eq_ok.mpr
        ⟨hnullifier, ⟨Nat.pos_of_ne_zero h.nullifierHash, h.hash_lt _⟩, rfl⟩
      hashes := (computeV12UnlinkableWithdrawHashes_eq_ok hv accepting_sdkRules hplace
        (isHexString_hexText _)).mpr ⟨hashes_fit h hv, rfl⟩ }

end Built

end Make

/-! ### Two partial withdrawals -/

def sampleTime : Text := "2026-01-01T00:00:00.000Z".toList

/-- A provider that returns the same bytes at every call. -/
def sampleProviders (bytes : Bytes) : Providers where
  randomBytes _ := bytes
  now := .ok sampleTime
  encryptOutputNote := some fun _ => .ok "0x00".toList

def sampleCommitment : Bytes32 :=
  mixWord (outputPreimage ⟨nativeEthAssetId, "300000000000000000".toList, hex32 1, hex32 2⟩)

/-- 0.1 of a note of 0.3. -/
def sampleInput : BuildInput where
  note :=
    { version := spendMaterialVersion, chainId := 6343
      pool := addressText 0x5555555555555555555555555555555555555555, assetId := nativeEthAssetId
      noteAmountWei := "300000000000000000".toList, ownerCommitment := hex32 1
      noteSecret := hex32 2, blinding := hex32 3, commitment := hex32 sampleCommitment
      createdAt := [] }
  merklePath :=
    { commitment := hex32 sampleCommitment, leafIndex := 0, root := hex32 5
      pathElements := List.replicate 20 (hex32 0), pathIndices := List.replicate 20 0
      chainId := 6343, pool := addressText 0x5555555555555555555555555555555555555555 }
  destination := addressText 0x4444444444444444444444444444444444444444
  grossAmountWei := some "100000000000000000".toList
  chainId := 6343
  pool := addressText 0x5555555555555555555555555555555555555555
  merkleTreeDepth := 20
  withdrawalFeeBps := none

theorem sample_accepts {bytes : Bytes} (hbytes : bytes.length = 32) : Accepts digitsViem mixHash
    (sampleProviders bytes) sampleTime "0x00".toList sampleInput where
  note :=
    { version := rfl, chainId := rfl, pool := rfl, assetId := lower_hex32 1
      commitment := isBn254FieldElement_hex32 (mixWord_ne_zero _) (isFieldElement_mixWord _)
      ownerCommitment := isBn254FieldElement_hex32 (by decide) (by decide)
      noteSecret := isBn254FieldElement_hex32 (by decide) (by decide) }
  path :=
    { chainId := rfl, pool := rfl, commitment := rfl, depth := by decide, leafIndex := by decide
      length := by decide
      pathElements := fun element helement => by
        rw [List.eq_of_mem_replicate helement, hexNat_hex32]
        exact ⟨isHexBytes32_hex32 0, by decide⟩
      pathIndices := by decide }
  root := isBn254FieldElement_hex32 (by decide) (by decide)
  destination := ⟨isAddress_addressText _ _, by decide⟩
  chainId := Or.inl rfl
  pool := isAddress_addressText _ _
  amount := by decide
  gross := by decide
  gross_le := by decide
  rate := by decide
  randomBytes _ := hbytes
  now := rfl
  encrypted _ := ⟨_, rfl, rfl, by decide, by decide⟩
  hash_lt := mixHash_lt
  outputHash := (mixHash_pos _).ne'
  nullifierHash := (mixHash_pos _).ne'
  commitment := by
    refine deriveNoteCommitment_eq_ok.mpr ⟨⟨?_, by decide, ?_, ?_⟩,
      ⟨mixHash_pos _, mixHash_lt _⟩, ?_⟩
    · exact isField_of_isBn254FieldElement (isBn254FieldElement_hex32 (by decide) (by decide))
    · exact isField_of_isBn254FieldElement (isBn254FieldElement_hex32 (by decide) (by decide))
    · exact isField_of_isBn254FieldElement (isBn254FieldElement_hex32 (by decide) (by decide))
    · exact (lower_hex32 _).trans (padHex32_mixHash _).symm

theorem sample_build {bytes : Bytes} (hbytes : bytes.length = 32) : ∃ b,
    buildV12UnlinkableWithdrawalWitness digitsViem mixHash (sampleProviders bytes) sampleInput =
      .ok b ∧
    b.outputNote = some (outputOf mixHash (sampleProviders bytes) sampleTime sampleInput) := by
  have hplace : Deployed digitsEnv sampleInput.chainId sampleInput.pool :=
    ⟨rfl, (address_addressText _).symm⟩
  have hbuilt := built_made (sample_accepts hbytes) documented_digitsViem hplace
  have hpart : outputAmount sampleInput ≠ 0 := by decide
  exact ⟨_, buildWitness_eq_ok.mpr ⟨_, hbuilt, rfl⟩, outputNote_made _ _ _ _ _ _ _ hpart⟩

/-- A draw of the number one for both secrets. -/
theorem outputNote_accepted_one : ∃ b note,
    buildV12UnlinkableWithdrawalWitness digitsViem mixHash
      (sampleProviders (List.replicate 31 0 ++ [1])) sampleInput = .ok b ∧
    b.outputNote = some note ∧
    assertNoteForPool note sampleInput.chainId sampleInput.pool = .ok () ∧ ∃ outputCommitment,
      b.publicInputs[2]? = some outputCommitment ∧
        deriveNoteCommitment mixHash note.preimage = .ok outputCommitment := by
  have hbytes : (List.replicate 31 0 ++ [1] : Bytes).length = 32 := by decide
  have hone : isBn254FieldElement (hexText (List.replicate 31 0 ++ [1])) := by decide +kernel
  obtain ⟨b, hb, hnote⟩ := sample_build hbytes
  exact ⟨b, _, hb, hnote, (outputNote_accepted_iff mixHash_lt hb hnote).mpr ⟨hone, hone⟩⟩

/-- **A retained note that is lost.** All the bits that are drawn are ones: the withdrawal is
accepted, and its output note is not. -/
theorem outputNote_lost : ∃ b note,
    buildV12UnlinkableWithdrawalWitness digitsViem mixHash
      (sampleProviders (List.replicate 32 255)) sampleInput = .ok b ∧
    b.outputNote = some note ∧
    ¬(assertNoteForPool note sampleInput.chainId sampleInput.pool = .ok () ∧ ∃ outputCommitment,
      b.publicInputs[2]? = some outputCommitment ∧
        deriveNoteCommitment mixHash note.preimage = .ok outputCommitment) := by
  have hbytes : (List.replicate 32 255 : Bytes).length = 32 := by decide
  have hones : ¬isBn254FieldElement (hexText (List.replicate 32 255)) := by decide +kernel
  obtain ⟨b, hb, hnote⟩ := sample_build hbytes
  refine ⟨b, _, hb, hnote, fun h => hones ?_⟩
  exact (assertNoteForPool_eq_ok.mp h.1).ownerCommitment

end Nullark.Sdk.Withdraw
