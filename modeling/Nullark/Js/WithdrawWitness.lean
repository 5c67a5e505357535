import Nullark.Js.ContextHashes
import Nullark.Js.OutputNoteEnvelope
import Nullark.Js.SpendMaterial

/-! # The witness of a withdrawal

The SDK and the web app build a withdrawal in the same steps. What they do differently, and what
they take from outside, is in `Parts`.

* `buildWitness`: the steps.
* `buildWitness_eq_ok`: what is accepted, with everything that is made on the way (`Made`). -/

namespace Nullark.Js.WithdrawWitness

open Nullark.Lib Nullark.Lib.Outcome
open Nullark.Lib.Hex hiding value Digits ofNat
open Nullark.Evm.Basic Nullark.Pool.Interface
open Nullark.Js.Basic Nullark.Js.Bytes Nullark.Js.Package Nullark.Js.TreeHash
open Nullark.Js.ContextHashes Nullark.Js.OutputNoteEnvelope Nullark.Js.SpendMaterial

/-- What an encryptor returns. -/
structure EncryptedOutputNoteV2Ciphertext where
  ciphertext : Text
  nonce : Option Text := none
  ephemeralPublicKey : Option Text := none
  deriving DecidableEq, Repr

/-- **The parts of a package.** Draws of random bytes are numbered. -/
structure Parts where
  rules : Rules
  wording : Wording
  hash : FieldHash
  assertRoot : Text → String → Throws Unit
  checkAmount : ℕ → Throws Unit
  checkPendingFee : Throws Unit
  createRandomBytes32 : ℕ → Throws Text
  now : Throws Text
  encryptRequiredOutputNote : SpendMaterialPlaintext → Throws EncryptedOutputNoteV2Ciphertext
  deriveNoteCommitment : NoteCommitmentInput → Throws Text
  deriveNullifier : NullifierInput → Throws Text

structure BuildInput where
  note : SpendMaterialPlaintext
  merklePath : RecoveryMerklePathPayload
  destination : Text
  grossAmountWei : Option Text
  chainId : ℕ
  pool : Text
  merkleTreeDepth : ℕ
  withdrawalFeeBps : Option ℤ

/-- The signals, as texts. -/
structure WitnessTexts where
  root : Text
  nullifier : Text
  outputCommitment : Text
  destination : Text
  grossAmount : Text
  fee : Text
  chainId : Text
  verifyingContract : Text
  proofContextHash : Text
  encryptedOutputNoteHash : Text
  pathElements : List Text
  assetId : Text
  oldAmount : Text
  ownerCommitment : Text
  noteSecret : Text
  leafIndex : Text
  withdrawalDestination : Text
  outputAmount : Text
  outputOwnerCommitment : Text
  outputNoteSecret : Text
  expectedProofContextHash : Text
  expectedEncryptedOutputNoteHash : Text
  deriving DecidableEq, Repr

structure V12UnlinkableWithdrawProofIntent where
  root : Text
  nullifier : Text
  outputCommitment : Text
  destination : Text
  grossAmountWei : Text
  feeWei : Text
  chainId : ℕ
  verifyingContract : Text
  proofContextHash : Text
  encryptedOutputNoteHash : Text
  deriving DecidableEq, Repr

structure WitnessBundle where
  witness : WitnessTexts
  intent : V12UnlinkableWithdrawProofIntent
  publicInputs : List Text
  nullifier : Text
  outputNote : Option SpendMaterialPlaintext
  encryptedOutputNote : Text
  netAmountWei : Text
  deriving DecidableEq, Repr

/-- `BigInt(text).toString()`, for the texts that were checked. -/
def decimalOfHex (t : Text) : Text := Decimal.ofNat (hexNat t)

/-- `V12_DUMMY_OUTPUT_CIPHERTEXT`. -/
def dummyOutputCiphertext : EncryptedOutputNoteV2Ciphertext := { ciphertext := "0x00".toList }

/-- `WITHDRAWAL_FEE_BPS`, the rate without another. -/
def defaultFeeBps : ℤ := 33

/-- The relayer policy of a withdrawal: the net amount, the fee and no deadline. -/
def relayerPolicy (grossAmount fee : ℕ) : RelayerPolicyInput where
  relayer := zeroAddress
  minNetAmount := grossAmount - fee
  maxFeeAmount := fee
  deadlineOrZero := 0

/-! ### What is made on the way -/

/-- **What a build makes** before it puts the bundle together. -/
structure Made where
  oldAmount : ℕ
  grossAmount : ℕ
  feeBps : ℕ
  output : SpendMaterialPlaintext
  ciphertext : EncryptedOutputNoteV2Ciphertext
  envelope : EncryptedOutputNoteV2Envelope
  encryptedOutputNote : Text
  nullifier : Text
  hashes : V12UnlinkableWithdrawContextHashes

def Made.fee (m : Made) : ℕ := m.grossAmount * m.feeBps / bpsDenominator

def Made.outputAmount (m : Made) : ℕ := m.oldAmount - m.grossAmount

section Bundle
variable (i : BuildInput) (m : Made)

def envelopeInput (output : SpendMaterialPlaintext)
    (ciphertext : EncryptedOutputNoteV2Ciphertext) : CreateInput where
  chainId := i.chainId
  verifyingContract := i.pool
  outputCommitment := output.commitment
  ciphertext := ciphertext.ciphertext
  nonce := ciphertext.nonce
  ephemeralPublicKey := ciphertext.ephemeralPublicKey

def nullifierInput : NullifierInput where
  noteSecret := i.note.noteSecret
  leafIndex := i.merklePath.leafIndex
  chainId := i.chainId
  verifyingContract := i.pool

def hashesInput (v : Viem) (grossAmount fee : ℕ)
    (nullifier outputCommitment encryptedOutputNote : Text) : WithdrawHashesInput where
  chainId := i.chainId
  pool := i.pool
  proofContextShape := hashDomainSeparator v "withdraw_context_v1_2_fee_governance"
  selector := withdrawBoundedSelector
  root := i.merklePath.root
  nullifier := nullifier
  destination := i.destination
  grossAmount := grossAmount
  fee := fee
  outputCommitment := outputCommitment
  encryptedOutputNote := encryptedOutputNote
  relayerPolicy := relayerPolicy grossAmount fee

def Made.witness : WitnessTexts where
  root := decimalOfHex i.merklePath.root
  nullifier := decimalOfHex m.nullifier
  outputCommitment := decimalOfHex m.output.commitment
  destination := decimalOfHex i.destination
  grossAmount := Decimal.ofNat m.grossAmount
  fee := Decimal.ofNat m.fee
  chainId := Decimal.ofNat i.chainId
  verifyingContract := decimalOfHex i.pool
  proofContextHash := decimalOfHex m.hashes.proofContextHash.hash
  encryptedOutputNoteHash := decimalOfHex m.hashes.encryptedOutputNoteHash.hash
  pathElements := i.merklePath.pathElements.map decimalOfHex
  assetId := decimalOfHex i.note.assetId
  oldAmount := Decimal.ofNat m.oldAmount
  ownerCommitment := decimalOfHex i.note.ownerCommitment
  noteSecret := decimalOfHex i.note.noteSecret
  leafIndex := Decimal.ofNat i.merklePath.leafIndex
  withdrawalDestination := decimalOfHex i.destination
  outputAmount := Decimal.ofNat m.outputAmount
  outputOwnerCommitment := decimalOfHex m.output.ownerCommitment
  outputNoteSecret := decimalOfHex m.output.noteSecret
  expectedProofContextHash := decimalOfHex m.hashes.proofContextHash.hash
  expectedEncryptedOutputNoteHash := decimalOfHex m.hashes.encryptedOutputNoteHash.hash

def Made.publicInputs : List Text :=
  [i.merklePath.root, m.nullifier, m.output.commitment, addressText32 i.destination,
    toBytes32 m.grossAmount, toBytes32 m.fee, toBytes32 i.chainId, addressText32 i.pool,
    m.hashes.proofContextHash.hash, m.hashes.encryptedOutputNoteHash.hash]

def Made.bundle : WitnessBundle where
  witness := m.witness i
  intent :=
    { root := i.merklePath.root, nullifier := m.nullifier, outputCommitment := m.output.commitment
      destination := i.destination, grossAmountWei := Decimal.ofNat m.grossAmount
      feeWei := Decimal.ofNat m.fee, chainId := i.chainId, verifyingContract := i.pool
      proofContextHash := m.hashes.proofContextHash.hash
      encryptedOutputNoteHash := m.hashes.encryptedOutputNoteHash.hash }
  publicInputs := m.publicInputs i
  nullifier := m.nullifier
  outputNote := if m.outputAmount = 0 then none else some m.output
  encryptedOutputNote := m.encryptedOutputNote
  netAmountWei := Decimal.ofNat (m.grossAmount - m.fee)

end Bundle

/-! ### The steps -/

section Code
variable (v : Viem) (p : Parts)

def createOutputNote (note : SpendMaterialPlaintext) (outputAmount : ℕ) :
    Throws SpendMaterialPlaintext := do
  let ownerCommitment ← p.createRandomBytes32 0
  let noteSecret ← p.createRandomBytes32 1
  let noteAmountWei := Decimal.ofNat outputAmount
  let commitment ← deriveOutputNoteCommitment p.hash
    { assetId := note.assetId, noteAmountWei, ownerCommitment, noteSecret }
  let blinding ← p.createRandomBytes32 2
  let createdAt ← p.now
  return {
    version := spendMaterialVersion, chainId := note.chainId, pool := note.pool
    assetId := note.assetId, noteAmountWei, ownerCommitment, noteSecret, blinding, commitment
    createdAt }

/-- A missing gross amount stands for the whole note. -/
def grossAmountOf (oldAmount : ℕ) : Option Text → Throws ℕ
  | none => .ok oldAmount
  | some t => parsePositiveDecimalField t "grossAmountWei"

/-- A full exit carries dummy bytes in place of a note. -/
def sealOutputNote (outputAmount : ℕ) (output : SpendMaterialPlaintext) :
    Throws EncryptedOutputNoteV2Ciphertext :=
  if outputAmount = 0 then .ok dummyOutputCiphertext else p.encryptRequiredOutputNote output

/-- **The steps of a withdrawal.** -/
def buildWitness (i : BuildInput) : Throws WitnessBundle := do
  assertNoteForPool i.note i.chainId i.pool
  assertMerklePath p.assertRoot i.merklePath i.chainId i.pool i.note.commitment i.merkleTreeDepth
  ensure (isEvmAddress i.destination ∧ i.destination ≠ zeroAddress)
    "Withdrawal destination must be a nonzero EVM address."
  let oldAmount ← parsePositiveDecimalField i.note.noteAmountWei "oldAmountWei"
  let grossAmount ← grossAmountOf oldAmount i.grossAmountWei
  p.checkAmount grossAmount
  ensure (grossAmount ≤ oldAmount) "Withdrawal amount cannot exceed the recovered note amount."
  let feeBps ← normalizeFeeBps (i.withdrawalFeeBps.getD defaultFeeBps)
  p.checkPendingFee
  let fee := grossAmount * feeBps / bpsDenominator
  let outputAmount := oldAmount - grossAmount
  let output ← createOutputNote p i.note outputAmount
  let ciphertext ← sealOutputNote p outputAmount output
  let envelope ← createEncryptedOutputNoteV2Envelope p.wording (envelopeInput i output ciphertext)
  let encryptedOutputNote ← serializeEncryptedOutputNoteV2EnvelopeToHex p.wording envelope
  let expectedCommitment ← p.deriveNoteCommitment i.note.preimage
  ensure (lower expectedCommitment = lower i.note.commitment)
    "Recovered note commitment does not match its spend material."
  let nullifier ← p.deriveNullifier (nullifierInput i)
  let hashes ← computeV12UnlinkableWithdrawHashes v p.rules
    (hashesInput i v grossAmount fee nullifier output.commitment encryptedOutputNote)
  let made : Made := { oldAmount, grossAmount, feeBps, output, ciphertext, envelope
                       encryptedOutputNote, nullifier, hashes }
  return made.bundle i

end Code

/-! ### What is accepted -/

/-- **The output note of a build.** -/
structure OutputNote (p : Parts) (note : SpendMaterialPlaintext) (outputAmount : ℕ)
    (output : SpendMaterialPlaintext) : Prop where
  ownerCommitment : p.createRandomBytes32 0 = .ok output.ownerCommitment
  noteSecret : p.createRandomBytes32 1 = .ok output.noteSecret
  commitment : deriveOutputNoteCommitment p.hash output.preimage = .ok output.commitment
  blinding : p.createRandomBytes32 2 = .ok output.blinding
  createdAt : p.now = .ok output.createdAt
  version : output.version = spendMaterialVersion
  chainId : output.chainId = note.chainId
  pool : output.pool = note.pool
  assetId : output.assetId = note.assetId
  noteAmountWei : output.noteAmountWei = Decimal.ofNat outputAmount

theorem createOutputNote_eq_ok {p : Parts} {note output : SpendMaterialPlaintext}
    {outputAmount : ℕ} : createOutputNote p note outputAmount = .ok output ↔
      OutputNote p note outputAmount output := by
  unfold createOutputNote
  simp only [bind_eq_ok, pure_eq_ok]
  constructor
  · rintro ⟨_, h1, _, h2, _, h3, _, h4, _, h5, rfl⟩
    exact ⟨h1, h2, h3, h4, h5, rfl, rfl, rfl, rfl, rfl⟩
  · rintro ⟨h1, h2, h3, h4, h5, h6, h7, h8, h9, h10⟩
    have h3' : deriveOutputNoteCommitment p.hash
        { assetId := note.assetId, noteAmountWei := Decimal.ofNat outputAmount
          ownerCommitment := output.ownerCommitment, noteSecret := output.noteSecret } =
        .ok output.commitment := by
      rw [← h9, ← h10]
      exact h3
    refine ⟨_, h1, _, h2, _, h3', _, h4, _, h5, ?_⟩
    rw [← h6, ← h7, ← h8, ← h9, ← h10]

/-- **What a build accepts**, and how it makes what it makes. -/
structure Built (v : Viem) (p : Parts) (i : BuildInput) (m : Made) : Prop where
  note : NoteForPool i.note i.chainId i.pool
  path : PathFits i.merklePath i.chainId i.pool i.note.commitment i.merkleTreeDepth
  root : p.assertRoot i.merklePath.root "Merkle path root" = .ok ()
  destination : isEvmAddress i.destination ∧ i.destination ≠ zeroAddress
  oldAmount : parsePositiveDecimalField i.note.noteAmountWei "oldAmountWei" = .ok m.oldAmount
  grossAmount : grossAmountOf m.oldAmount i.grossAmountWei = .ok m.grossAmount
  amount : p.checkAmount m.grossAmount = .ok ()
  gross_le : m.grossAmount ≤ m.oldAmount
  feeBps : normalizeFeeBps (i.withdrawalFeeBps.getD defaultFeeBps) = .ok m.feeBps
  pendingFee : p.checkPendingFee = .ok ()
  output : OutputNote p i.note m.outputAmount m.output
  ciphertext : sealOutputNote p m.outputAmount m.output = .ok m.ciphertext
  envelope : createEncryptedOutputNoteV2Envelope p.wording (envelopeInput i m.output m.ciphertext) =
    .ok m.envelope
  encryptedOutputNote : serializeEncryptedOutputNoteV2EnvelopeToHex p.wording m.envelope =
    .ok m.encryptedOutputNote
  commitment : ∃ expected, p.deriveNoteCommitment i.note.preimage = .ok expected ∧
    lower expected = lower i.note.commitment
  nullifier : p.deriveNullifier (nullifierInput i) = .ok m.nullifier
  hashes : computeV12UnlinkableWithdrawHashes v p.rules (hashesInput i v m.grossAmount m.fee
    m.nullifier m.output.commitment m.encryptedOutputNote) = .ok m.hashes

/-- **`buildWitness`** returns the bundle of what it makes. -/
theorem buildWitness_eq_ok {v : Viem} {p : Parts} {i : BuildInput} {b : WitnessBundle} :
    buildWitness v p i = .ok b ↔ ∃ m, Built v p i m ∧ b = m.bundle i := by
  unfold buildWitness
  simp only [bind_eq_ok, ensure_eq_ok, pure_eq_ok, assertNoteForPool_eq_ok,
    assertMerklePath_eq_ok, createOutputNote_eq_ok, exists_const]
  constructor
  · rintro ⟨h1, ⟨h2, h3⟩, h4, oldAmount, h5, grossAmount, h6, _, h7, h8, feeBps, h9, _, h10,
      output, h11, ciphertext, h12, envelope, h13, encrypted, h14, expected, h15, h16, nullifier,
      h17, hashes, h18, rfl⟩
    exact ⟨⟨oldAmount, grossAmount, feeBps, output, ciphertext, envelope, encrypted, nullifier,
      hashes⟩, ⟨h1, h2, h3, h4, h5, h6, h7, h8, h9, h10, h11, h12, h13, h14, ⟨expected, h15, h16⟩,
      h17, h18⟩, rfl⟩
  · rintro ⟨m, ⟨h1, h2, h3, h4, h5, h6, h7, h8, h9, h10, h11, h12, h13, h14, ⟨expected, h15, h16⟩,
      h17, h18⟩, rfl⟩
    exact ⟨h1, ⟨h2, h3⟩, h4, _, h5, _, h6, (), h7, h8, _, h9, (), h10, _, h11, _, h12, _,
      h13, _, h14, _, h15, h16, _, h17, _, h18, rfl⟩

theorem outputNote_eq_some {i : BuildInput} {m : Made} {note : SpendMaterialPlaintext}
    (hnote : (m.bundle i).outputNote = some note) : 0 < m.outputAmount ∧ m.output = note := by
  change (if m.outputAmount = 0 then none else some m.output) = some note at hnote
  split_ifs at hnote with hzero
  exact ⟨Nat.pos_of_ne_zero hzero, Option.some.inj hnote⟩

section Built
variable {v : Viem} {p : Parts} {i : BuildInput} {m : Made} (h : Built v p i m)
include h

theorem Built.oldAmount_eq : Decimal.isDecimal i.note.noteAmountWei ∧
    (0 < m.oldAmount ∧ m.oldAmount < 2 ^ 128) ∧ m.oldAmount = Decimal.value i.note.noteAmountWei := by
  obtain ⟨hdecimal, hbound, heq⟩ := parsePositiveDecimalField_eq_ok.mp h.oldAmount
  exact ⟨hdecimal, heq ▸ hbound, heq⟩

theorem Built.gross_pos : 0 < m.grossAmount := by
  have hgross := h.grossAmount
  rcases hi : i.grossAmountWei with _ | t
  · rw [hi] at hgross
    rw [← Except.ok.inj hgross]
    exact h.oldAmount_eq.2.1.1
  · rw [hi] at hgross
    obtain ⟨-, hbound, heq⟩ := parsePositiveDecimalField_eq_ok.mp hgross
    rw [heq]
    exact hbound.1

theorem Built.outputAmount_lt : m.outputAmount < 2 ^ 128 := by
  have hold := h.oldAmount_eq.2.1.2
  unfold Made.outputAmount
  omega

theorem Built.envelope_eq : (envelopeInput i m.output m.ciphertext).Fits ∧
    m.envelope = (envelopeInput i m.output m.ciphertext).envelope :=
  (createEncryptedOutputNoteV2Envelope_eq_ok rfl).mp h.envelope

theorem Built.wellFormed : WellFormed m.envelope := by
  obtain ⟨hfits, heq⟩ := h.envelope_eq
  rw [heq]
  exact wellFormed_envelope hfits

/-- The envelope goes out as the bytes of its text. -/
theorem Built.encryptedOutputNote_eq : m.encryptedOutputNote = hexText m.envelope.bytes := by
  have hserialized := h.encryptedOutputNote
  rw [serialize_of_wellFormed h.wellFormed] at hserialized
  exact (Except.ok.inj hserialized).symm

/-- The commitment of the output note is the hash of its fields. -/
theorem Built.output_commitment :
    m.output.commitment = padHex32 (p.hash (outputPreimage m.output.preimage)) :=
  (deriveOutputNoteCommitment_eq_ok.mp h.output.commitment).2.2.2.2

theorem Built.output_hash_ne : p.hash (outputPreimage m.output.preimage) ≠ 0 := by
  intro hzero
  have hne : m.output.commitment ≠ zeroBytes32 := outputCommitment_ne_of_ok h.hashes
  rw [h.output_commitment, hzero] at hne
  exact hne (padHex32_toNat 0)

end Built

end Nullark.Js.WithdrawWitness
