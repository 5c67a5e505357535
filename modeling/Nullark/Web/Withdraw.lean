import Nullark.Lib.Keccak
import Nullark.Web.NoteRecovery

/-! # Withdrawals of the web app

The app builds a withdrawal as the SDK does, draws its random bytes from the platform and encrypts
the retained note as a list of four texts. A full exit carries one byte in place of a ciphertext and
no nonce. What everyone can see of the note is its envelope, and the lengths in it give away whether
the exit is full and else how many digits the retained amount has.

* `built_envelope`: the envelope of every withdrawal that is accepted.
* `indistinguishable_iff`: which withdrawals have envelopes that cannot be told apart. -/

namespace Nullark.Web.Withdraw

open Nullark.Lib Nullark.Lib.Outcome Nullark.Lib.Aead
open Nullark.Lib.Hex hiding value Digits ofNat
open Nullark.Evm.Basic Nullark.Pool.Interface
open Nullark.Pool.Context (Env)
open Nullark.Js.Basic Nullark.Js.Bytes Nullark.Js.Package Nullark.Js.TreeHash
open Nullark.Js.ContextHashes Nullark.Js.OutputNoteEnvelope Nullark.Js.SpendMaterial
open Nullark.Js.WithdrawWitness Nullark.Web.Poseidon Nullark.Web.NoteRecovery
open Nullark.Sdk.Poseidon (CommitmentFits NullifierFits isField_hex32 nullifierPreimage)

/-! ### The code -/

inductive ProofContextShape
  | v11
  | v12FeeGovernance
  deriving DecidableEq, Repr

/-- What the app asks for. `encryptOutputNote` and `encryptChangeNote` are apart. -/
structure BuildBrowserWithdrawWitnessInput where
  note : SpendMaterialPlaintext
  merklePath : RecoveryMerklePathPayload
  destination : Text
  grossAmountWei : Option Text
  chainId : ℕ
  pool : Text
  merkleTreeDepth : Option ℕ
  withdrawalFeeBps : Option ℤ
  proofContextShape : Option ProofContextShape
  pendingWithdrawalFeeBps : Option ℤ

/-- **The random bytes that are drawn**, by the number of the call, and those of the nonce. -/
structure Draws where
  randomBytes : ℕ → Bytes
  nonce : Bytes
  length_randomBytes : ∀ call, (randomBytes call).length = 32
  length_nonce : nonce.length = 24

/-- `MIN_WITHDRAWABLE_AMOUNT_WEI`. -/
def minWithdrawableAmountWei : ℕ := 1

/-- `SANDBOX_MERKLE_TREE_DEPTH`. -/
def sandboxMerkleTreeDepth : ℕ := 12

/-- `createRandomBytes32`: three bits are cleared, and zero is no draw. -/
def createRandomBytes32 : Bytes → Text
  | [] => hexText []
  | first :: rest =>
    let bytes := (first &&& 0x1f) :: rest
    hexText (if bytes.all (· = 0) then bytes.set 31 1 else bytes)

def normalizeOptionalFeeBps : Option ℤ → Throws Unit
  | none => .ok ()
  | some value => do
    let _ ← normalizeFeeBps value

/-- An encryptor of the app: it returns a payload, or a text for a payload without a nonce. -/
abbrev EncryptOutputNote := SpendMaterialPlaintext → Throws EncryptedOutputNoteV2Ciphertext

def encryptRequiredOutputNote (encryptOutputNote : Option EncryptOutputNote)
    (outputNote : SpendMaterialPlaintext) : Throws EncryptedOutputNoteV2Ciphertext :=
  match encryptOutputNote with
  | none => .error
    "Encrypted output note bytes are required before generating a split v1.2 withdrawal proof."
  | some encrypt => do
    let payload ← encrypt outputNote
    ensure (isNonEmptyHex payload.ciphertext)
      "Encrypted output note must be nonempty even-length hex bytes."
    ensure (∀ nonce ∈ payload.nonce, isHexBytes24 nonce)
      "Encrypted output note nonce must be bytes24 hex."
    ensure (∀ key ∈ payload.ephemeralPublicKey, isHexBytes32 key)
      "Encrypted output note ephemeral public key must be bytes32 hex."
    return payload

/-- The parts of the app. -/
def parts (hash : FieldHash) (draws : Draws) (now : Text) (pendingWithdrawalFeeBps : Option ℤ)
    (encryptOutputNote : Option EncryptOutputNote) : Parts where
  rules := webRules
  wording := webWording
  hash := hash
  assertRoot := assertZeroAllowedField
  checkAmount grossAmount :=
    ensure (¬grossAmount < minWithdrawableAmountWei) "Withdrawal amount must be positive."
  checkPendingFee := normalizeOptionalFeeBps pendingWithdrawalFeeBps
  createRandomBytes32 call := .ok (createRandomBytes32 (draws.randomBytes call))
  now := .ok now
  encryptRequiredOutputNote := encryptRequiredOutputNote encryptOutputNote
  deriveNoteCommitment := deriveBrowserNoteCommitment hash
  deriveNullifier := deriveBrowserNullifier hash

/-- The input of the steps: an empty gross amount is none. -/
def BuildBrowserWithdrawWitnessInput.build (input : BuildBrowserWithdrawWitnessInput) :
    BuildInput where
  note := input.note
  merklePath := input.merklePath
  destination := input.destination
  grossAmountWei := input.grossAmountWei.filter (· ≠ [])
  chainId := input.chainId
  pool := input.pool
  merkleTreeDepth := input.merkleTreeDepth.getD sandboxMerkleTreeDepth
  withdrawalFeeBps := input.withdrawalFeeBps

/-- **`buildBrowserV12UnlinkableWithdrawWitness`**. -/
def buildBrowserV12UnlinkableWithdrawWitness (v : Viem) (hash : FieldHash) (draws : Draws)
    (now : Text) (encryptOutputNote : Option EncryptOutputNote)
    (input : BuildBrowserWithdrawWitnessInput) : Throws WitnessBundle := do
  ensure (input.proofContextShape = some .v12FeeGovernance)
    "v1.2 unlinkable withdrawals must use proofContextShape v1.2-fee-governance."
  buildWitness v (parts hash draws now input.pendingWithdrawalFeeBps encryptOutputNote) input.build

/-! ### A withdrawal with the encryptor of the app -/

/-- **A withdrawal**, with the key and the associated data that its retained note is encrypted
with. -/
structure Withdrawal where
  input : BuildBrowserWithdrawWitnessInput
  now : Text
  sealing : SpendMaterialPlaintext → Throws (Bytes × Bytes)

section Withdrawal
variable (v : Viem) (hash : FieldHash) (c : Crypto) (w : Withdrawal)

/-- The encryptor that is given to the builder. -/
def Withdrawal.encryptOutputNote (nonce : Bytes) : EncryptOutputNote := fun note => do
  let sealing ← w.sealing note
  return encryptCompactOutputNoteV2Payload c nonce sealing.1 note sealing.2

def Withdrawal.build (draws : Draws) : Throws WitnessBundle :=
  buildBrowserV12UnlinkableWithdrawWitness v hash draws w.now
    (some (w.encryptOutputNote c draws.nonce)) w.input

/-- The amount of the note that is withdrawn. -/
def Withdrawal.grossAmount : ℕ :=
  (w.input.grossAmountWei.filter (· ≠ [])).elim (Decimal.value w.input.note.noteAmountWei)
    Decimal.value

/-- **The amount that is retained.** -/
def Withdrawal.retained : ℕ := Decimal.value w.input.note.noteAmountWei - w.grossAmount

/-- **The envelope everyone can read** in the calldata of a bundle. -/
def envelopeOf (b : WitnessBundle) : Throws EncryptedOutputNoteV2Envelope :=
  parseEncryptedOutputNoteV2EnvelopeFromHex webWording b.encryptedOutputNote {}

/-- The envelopes that a withdrawal can have, over all random bytes. -/
def Withdrawal.envelopes : Set EncryptedOutputNoteV2Envelope :=
  {e | ∃ draws b, w.build v hash c draws = .ok b ∧ envelopeOf b = .ok e}

end Withdrawal

/-- The format of a field: the number of its bytes, if it is hex in lower case. -/
def format (t : Text) : Option ℕ :=
  if isHexString t ∧ lower t = t then some (hexByteLength t) else none

/-- **Two withdrawals that cannot be told apart** by their output notes. -/
structure Indistinguishable (v : Viem) (hash : FieldHash) (c : Crypto) (w₁ w₂ : Withdrawal)
    (b₁ b₂ : WitnessBundle) : Prop where
  length : (hexBytes b₁.encryptedOutputNote).length = (hexBytes b₂.encryptedOutputNote).length
  fields : ∃ e₁ e₂, envelopeOf b₁ = .ok e₁ ∧ envelopeOf b₂ = .ok e₂ ∧
    { e₁ with outputCommitment := e₂.outputCommitment, nonce := e₂.nonce
              ciphertext := e₂.ciphertext } = e₂
  nonce : (w₁.envelopes v hash c).image (format ·.nonce) =
    (w₂.envelopes v hash c).image (format ·.nonce)
  ciphertext : (w₁.envelopes v hash c).image (format ·.ciphertext) =
    (w₂.envelopes v hash c).image (format ·.ciphertext)

/-- **Retained amounts that look the same**: both nothing, or both of as many digits. -/
def SameShape (a b : ℕ) : Prop :=
  (a = 0 ∧ b = 0) ∨
    (0 < a ∧ 0 < b ∧ (Decimal.ofNat a).length = (Decimal.ofNat b).length)

/-! ### What is made -/

theorem isHexBytes32_createRandomBytes32 {bytes : Bytes} (h : bytes.length = 32) :
    isHexBytes32 (createRandomBytes32 bytes) := by
  match bytes, h with
  | first :: rest, h =>
    refine isHexOfLength_hexText (n := 32) ?_
    split_ifs
    · rw [List.length_set]
      exact h
    · exact h

theorem encryptRequiredOutputNote_some {encrypt : EncryptOutputNote}
    {output : SpendMaterialPlaintext} {payload : EncryptedOutputNoteV2Ciphertext}
    (h : encryptRequiredOutputNote (some encrypt) output = .ok payload) :
    encrypt output = .ok payload := by
  unfold encryptRequiredOutputNote at h
  simp only [bind_eq_ok, ensure_eq_ok, exists_const, pure_eq_ok] at h
  obtain ⟨payload', hencrypt, -, -, -, rfl⟩ := h
  exact hencrypt

section Built
variable {v : Viem} {hash : FieldHash} {c : Crypto} {w : Withdrawal} {draws : Draws}

/-- The parts of a withdrawal. -/
def Withdrawal.parts (hash : FieldHash) (c : Crypto) (w : Withdrawal) (draws : Draws) : Parts :=
  Withdraw.parts hash draws w.now w.input.pendingWithdrawalFeeBps
    (some (w.encryptOutputNote c draws.nonce))

/-- **What a withdrawal makes.** -/
theorem build_eq_ok {b : WitnessBundle} : w.build v hash c draws = .ok b ↔
    w.input.proofContextShape = some .v12FeeGovernance ∧
      ∃ m, Built v (w.parts hash c draws) w.input.build m ∧ b = m.bundle w.input.build := by
  unfold Withdrawal.build buildBrowserV12UnlinkableWithdrawWitness
  simp only [bind_eq_ok, ensure_eq_ok, exists_const]
  exact and_congr_right fun _ => buildWitness_eq_ok

theorem isOutputNote {amount : ℕ} {output : SpendMaterialPlaintext}
    (h : OutputNote (w.parts hash c draws) w.input.note amount output) : IsOutputNote output where
  noteAmountWei := by
    rw [h.noteAmountWei]
    exact Decimal.isCanonical_ofNat _
  ownerCommitment := by
    rw [← Except.ok.inj h.ownerCommitment]
    exact isHexBytes32_createRandomBytes32 (draws.length_randomBytes 0)
  noteSecret := by
    rw [← Except.ok.inj h.noteSecret]
    exact isHexBytes32_createRandomBytes32 (draws.length_randomBytes 1)
  blinding := by
    rw [← Except.ok.inj h.blinding]
    exact isHexBytes32_createRandomBytes32 (draws.length_randomBytes 2)

theorem assertRoot_parts : (w.parts hash c draws).assertRoot = assertZeroAllowedField := rfl

/-- A note is drawn for every amount of 128 bits. -/
theorem exists_output (hasset : isHexBytes32 w.input.note.assetId) {amount : ℕ}
    (hamount : amount < 2 ^ 128) :
    ∃ output, OutputNote (w.parts hash c draws) w.input.note amount output := by
  have hvalue : Decimal.value (Decimal.ofNat amount) < 2 ^ 128 := by
    rwa [Decimal.value_ofNat]
  let preimage : NoteCommitmentInput :=
    { assetId := w.input.note.assetId, noteAmountWei := Decimal.ofNat amount
      ownerCommitment := createRandomBytes32 (draws.randomBytes 0)
      noteSecret := createRandomBytes32 (draws.randomBytes 1) }
  have hcommitment : deriveOutputNoteCommitment hash preimage =
      .ok (padHex32 (hash (outputPreimage preimage))) :=
    deriveOutputNoteCommitment_eq_ok.mpr ⟨⟨Decimal.isDecimal_ofNat amount, hvalue⟩, hasset,
      isHexBytes32_createRandomBytes32 (draws.length_randomBytes 0),
      isHexBytes32_createRandomBytes32 (draws.length_randomBytes 1), rfl⟩
  exact ⟨⟨spendMaterialVersion, _, _, _, _, _, _, _, _, w.now⟩, rfl, rfl, hcommitment, rfl, rfl, rfl,
    rfl, rfl, rfl, rfl⟩

/-- **The ciphertext of a note fits its envelope**, for an amount of at most 35 digits. -/
theorem exists_ciphertext (hc : Aead.Documented c)
    (hsealing : ∀ note, ∃ sealing, w.sealing note = .ok sealing) {amount : ℕ}
    {output : SpendMaterialPlaintext} (hamount : amount < 10 ^ 35)
    (h : OutputNote (w.parts hash c draws) w.input.note amount output) :
    ∃ ciphertext, sealOutputNote (w.parts hash c draws) amount output = .ok ciphertext ∧
      isNonEmptyHex ciphertext.ciphertext ∧
      hexByteLength ciphertext.ciphertext ≤ paddedCiphertextBytes ∧
      ciphertext.ephemeralPublicKey = none ∧ ∀ nonce ∈ ciphertext.nonce, isHexBytes24 nonce := by
  unfold sealOutputNote
  split_ifs with hzero
  · exact ⟨_, rfl, by decide, by decide, rfl, fun _ hnonce => absurd hnonce (Option.not_mem_none _)⟩
  · obtain ⟨⟨key, aad⟩, hok⟩ := hsealing output
    have hhex := isNonEmptyHex_encryptCompact hc output draws.nonce key aad
    have hnonce : isHexBytes24 (hexText draws.nonce) := isHexOfLength_hexText draws.length_nonce
    have hdigits := @Decimal.length_ofNat_le amount 35 (by decide) hamount
    have hpayload : w.encryptOutputNote c draws.nonce output =
        .ok (encryptCompactOutputNoteV2Payload c draws.nonce key output aad) := by
      unfold Withdrawal.encryptOutputNote
      rw [hok, ok_bind]
      rfl
    refine ⟨encryptCompactOutputNoteV2Payload c draws.nonce key output aad, ?_, hhex, ?_, rfl, ?_⟩
    · have hnonces : ∀ nonce ∈ (encryptCompactOutputNoteV2Payload c draws.nonce key output
          aad).nonce, isHexBytes24 nonce := fun nonce hmem => Option.some.inj hmem ▸ hnonce
      have hkeys : ∀ publicKey ∈ (encryptCompactOutputNoteV2Payload c draws.nonce key output
          aad).ephemeralPublicKey, isHexBytes32 publicKey :=
        fun _ hmem => absurd hmem (Option.not_mem_none _)
      change encryptRequiredOutputNote (some _) output = _
      unfold encryptRequiredOutputNote
      simp only [hpayload, ok_bind, ensure_of hhex]
      rw [ensure_of hnonces, ok_bind, ensure_of hkeys]
      rfl
    · rw [hexByteLength_encryptCompact hc (isOutputNote h), h.noteAmountWei, paddedCiphertextBytes]
      omega
    · intro nonce hmem
      rw [← Option.some.inj hmem]
      exact hnonce

section Build
variable {m : Made} (h : Built v (w.parts hash c draws) w.input.build m)
include h

theorem outputAmount_eq : m.outputAmount = w.retained := by
  have hold : m.oldAmount = Decimal.value w.input.note.noteAmountWei := h.oldAmount_eq.2.2
  have hgross : m.grossAmount = w.grossAmount := by
    have hparse : grossAmountOf m.oldAmount (w.input.grossAmountWei.filter (· ≠ [])) =
      .ok m.grossAmount := h.grossAmount
    unfold Withdrawal.grossAmount
    rcases hi : w.input.grossAmountWei.filter (· ≠ []) with _ | t
    · rw [hi] at hparse
      exact (Except.ok.inj hparse).symm.trans hold
    · rw [hi] at hparse
      exact (parsePositiveDecimalField_eq_ok.mp hparse).2.2
  rw [Made.outputAmount, Withdrawal.retained, hold, hgross]

/-- The ciphertext of a note is that of its list, with the nonce that was drawn. -/
theorem ciphertext_eq (hpart : w.retained ≠ 0) : ∃ key aad,
    m.ciphertext = encryptCompactOutputNoteV2Payload c draws.nonce key m.output aad := by
  have hseal := h.ciphertext
  unfold sealOutputNote at hseal
  rw [outputAmount_eq h, if_neg hpart] at hseal
  have hencrypt : w.encryptOutputNote c draws.nonce m.output = .ok m.ciphertext :=
    encryptRequiredOutputNote_some hseal
  unfold Withdrawal.encryptOutputNote at hencrypt
  obtain ⟨sealing, -, hpayload⟩ := bind_eq_ok.mp hencrypt
  exact ⟨_, _, (Except.ok.inj hpayload).symm⟩

theorem ciphertext_dummy (hfull : w.retained = 0) : m.ciphertext = dummyOutputCiphertext := by
  have hseal := h.ciphertext
  unfold sealOutputNote at hseal
  rw [outputAmount_eq h, if_pos hfull] at hseal
  exact (Except.ok.inj hseal).symm

end Build

end Built

/-! ### What everyone can see -/

/-- **The length of the ciphertext** for a retained amount. -/
def ciphertextBytes (retained : ℕ) : ℕ :=
  if retained = 0 then 1 else 221 + (Decimal.ofNat retained).length

theorem ciphertextBytes_eq_iff {a b : ℕ} :
    ciphertextBytes a = ciphertextBytes b ↔ SameShape a b := by
  unfold ciphertextBytes SameShape
  split_ifs <;> omega

/-- **What the envelope shows** of a withdrawal. -/
structure Shows (w : Withdrawal) (e : EncryptedOutputNoteV2Envelope) : Prop where
  wellFormed : WellFormed e
  chainId : e.chainId = w.input.chainId
  verifyingContract : e.verifyingContract = lower w.input.pool
  proofContextHash : e.proofContextHash = zeroBytes32Text
  ephemeralPublicKey : e.ephemeralPublicKey = zeroBytes32Text
  nonce : format e.nonce = some 24
  ciphertextByteLength : e.ciphertextByteLength = ciphertextBytes w.retained

theorem format_of_lower {n : ℕ} {t : Text} (h : Lower (isHexOfLength (2 * n)) t) :
    format t = some n := by
  have hlength := length_of_isHexOfLength h.1
  have hbytes : hexByteLength t = n := by
    rw [hexByteLength, hlength]
    omega
  rw [format, if_pos ⟨isHexString_of_length h.1, h.2⟩, hbytes]

theorem format_ciphertext {e : EncryptedOutputNoteV2Envelope} (h : WellFormed e) :
    format e.ciphertext = some e.ciphertextByteLength := by
  rw [format, if_pos ⟨h.ciphertext.1.1, h.ciphertext.2⟩, h.ciphertextByteLength]

section Shows
variable {v : Viem} {hash : FieldHash} {c : Crypto} (hc : Aead.Documented c) {w : Withdrawal}
  {draws : Draws}
include hc

theorem shows_envelope {m : Made} (h : Built v (w.parts hash c draws) w.input.build m) :
    Shows w m.envelope := by
  have hwell := h.wellFormed
  obtain ⟨-, heq⟩ := h.envelope_eq
  have hkey : m.ciphertext.ephemeralPublicKey = none := by
    by_cases hfull : w.retained = 0
    · rw [ciphertext_dummy h hfull]
      rfl
    · obtain ⟨key, aad, hciphertext⟩ := ciphertext_eq h hfull
      rw [hciphertext]
      rfl
  have hlength : hexByteLength m.ciphertext.ciphertext = ciphertextBytes w.retained := by
    by_cases hfull : w.retained = 0
    · rw [ciphertext_dummy h hfull, ciphertextBytes, if_pos hfull]
      rfl
    · obtain ⟨key, aad, hciphertext⟩ := ciphertext_eq h hfull
      rw [hciphertext, hexByteLength_encryptCompact hc (isOutputNote h.output), h.output.noteAmountWei,
        outputAmount_eq h, ciphertextBytes, if_neg hfull]
  refine ⟨hwell, ?_, ?_, ?_, ?_, format_of_lower hwell.nonce, ?_⟩
  · rw [heq]
    rfl
  · rw [heq]
    rfl
  · rw [heq]
    rfl
  · rw [heq]
    change orZero zeroBytes32Text m.ciphertext.ephemeralPublicKey = zeroBytes32Text
    rw [hkey]
    rfl
  · rw [heq]
    exact hlength

/-- **The envelope of a withdrawal that is accepted.** -/
theorem built_envelope {b : WitnessBundle} (h : w.build v hash c draws = .ok b) :
    ∃ e, envelopeOf b = .ok e ∧ Shows w e ∧ b.encryptedOutputNote = hexText e.bytes := by
  obtain ⟨-, m, hm, rfl⟩ := build_eq_ok.mp h
  have hbytes : (m.bundle w.input.build).encryptedOutputNote = hexText m.envelope.bytes :=
    hm.encryptedOutputNote_eq
  refine ⟨m.envelope, ?_, shows_envelope hc hm, hbytes⟩
  rw [envelopeOf, hbytes]
  exact parse_hexText_bytes hm.wellFormed (matches_empty _)

/-- All envelopes of a withdrawal have fields of the same formats. -/
theorem formats_envelopes {b : WitnessBundle} (h : w.build v hash c draws = .ok b) :
    (w.envelopes v hash c).image (format ·.nonce) = {some 24} ∧
      (w.envelopes v hash c).image (format ·.ciphertext) =
        {some (ciphertextBytes w.retained)} := by
  obtain ⟨e, he, hshows, -⟩ := built_envelope hc h
  have hmem : e ∈ w.envelopes v hash c := ⟨draws, b, h, he⟩
  have hall : ∀ f ∈ w.envelopes v hash c, format f.nonce = some 24 ∧
      format f.ciphertext = some (ciphertextBytes w.retained) := by
    rintro f ⟨draws', b', h', hf⟩
    obtain ⟨e', he', hshows', -⟩ := built_envelope hc h'
    obtain rfl : e' = f := Except.ok.inj (he'.symm.trans hf)
    exact ⟨hshows'.nonce, hshows'.ciphertextByteLength ▸ format_ciphertext hshows'.wellFormed⟩
  constructor
  · refine Set.eq_singleton_iff_unique_mem.mpr ⟨⟨e, hmem, (hall e hmem).1⟩, ?_⟩
    rintro _ ⟨f, hf, rfl⟩
    exact (hall f hf).1
  · refine Set.eq_singleton_iff_unique_mem.mpr ⟨⟨e, hmem, (hall e hmem).2⟩, ?_⟩
    rintro _ ⟨f, hf, rfl⟩
    exact (hall f hf).2

end Shows

/-- **When two withdrawals cannot be told apart**: both are full exits, or both retain an amount of
the same number of digits. -/
theorem indistinguishable_iff {v : Viem} {hash : FieldHash} {c : Crypto} (hc : Aead.Documented c)
    {w₁ w₂ : Withdrawal} {draws₁ draws₂ : Draws} {b₁ b₂ : WitnessBundle}
    (hchain : w₁.input.chainId = w₂.input.chainId)
    (hpool : lower w₁.input.pool = lower w₂.input.pool)
    (h₁ : w₁.build v hash c draws₁ = .ok b₁) (h₂ : w₂.build v hash c draws₂ = .ok b₂) :
    Indistinguishable v hash c w₁ w₂ b₁ b₂ ↔ SameShape w₁.retained w₂.retained := by
  obtain ⟨e₁, he₁, hs₁, hb₁⟩ := built_envelope hc h₁
  obtain ⟨e₂, he₂, hs₂, hb₂⟩ := built_envelope hc h₂
  obtain ⟨hnonce₁, hciphertext₁⟩ := formats_envelopes hc h₁
  obtain ⟨hnonce₂, hciphertext₂⟩ := formats_envelopes hc h₂
  rw [← ciphertextBytes_eq_iff]
  constructor
  · intro h
    have hsets := h.ciphertext
    rw [hciphertext₁, hciphertext₂, Set.singleton_eq_singleton_iff] at hsets
    exact Option.some.inj hsets
  · intro h
    have hlength : e₁.ciphertextByteLength = e₂.ciphertextByteLength := by
      rw [hs₁.ciphertextByteLength, hs₂.ciphertextByteLength, h]
    have hpadding : e₁.paddingByteLength = e₂.paddingByteLength := by
      have hp₁ := hs₁.wellFormed.padded
      have hp₂ := hs₂.wellFormed.padded
      omega
    refine ⟨?_, ⟨e₁, e₂, he₁, he₂, ?_⟩, by rw [hnonce₁, hnonce₂], by
      rw [hciphertext₁, hciphertext₂, h]⟩
    · rw [hb₁, hb₂, hexBytes_hexText, hexBytes_hexText, length_bytes hs₁.wellFormed,
        length_bytes hs₂.wellFormed, hlength, hpadding]
    · obtain ⟨chain₂, contract₂, commitment₂, context₂, key₂, nonce₂, ciphertext₂, length₂, padding₂,
        paddingLength₂, padded₂⟩ := e₂
      simp only [EncryptedOutputNoteV2Envelope.mk.injEq, true_and]
      refine ⟨?_, ?_, ?_, ?_, hlength, ?_, hpadding, ?_⟩
      · exact hs₁.chainId.trans (hchain.trans hs₂.chainId.symm)
      · exact hs₁.verifyingContract.trans (hpool.trans hs₂.verifyingContract.symm)
      · exact hs₁.proofContextHash.trans hs₂.proofContextHash.symm
      · exact hs₁.ephemeralPublicKey.trans hs₂.ephemeralPublicKey.symm
      · exact (hs₁.wellFormed.paddingBytes.trans (congrArg zeroBytesText hpadding)).trans
          hs₂.wellFormed.paddingBytes.symm
      · exact hs₁.wellFormed.paddedCiphertextByteLength.trans
          hs₂.wellFormed.paddedCiphertextByteLength.symm

/-! ### A full exit and a partial one -/

/-- The commitment of a note of 0.3 ETH. -/
def sampleCommitment : Text :=
  padHex32 (mixHash (outputPreimage ⟨nativeEthAssetId, "300000000000000000".toList, hex32 1, hex32 2⟩))

/-- A withdrawal from the note. -/
def sampleWithdrawal (grossAmountWei : Option Text) : Withdrawal where
  input :=
    { note :=
        { version := spendMaterialVersion, chainId := 6343, pool := addressText 5
          assetId := nativeEthAssetId, noteAmountWei := "300000000000000000".toList
          ownerCommitment := hex32 1, noteSecret := hex32 2, blinding := hex32 3
          commitment := sampleCommitment, createdAt := [] }
      merklePath :=
        { commitment := sampleCommitment, leafIndex := 0, root := hex32 5
          pathElements := List.replicate 12 (hex32 0), pathIndices := List.replicate 12 0
          chainId := 6343, pool := addressText 5 }
      destination := addressText 4
      grossAmountWei
      chainId := 6343
      pool := addressText 5
      merkleTreeDepth := none
      withdrawalFeeBps := none
      proofContextShape := some .v12FeeGovernance
      pendingWithdrawalFeeBps := none }
  now := epochStart
  sealing _ := .ok ([1], [2])

def sampleDraws : Draws where
  randomBytes _ := List.replicate 32 1
  nonce := List.replicate 24 2
  length_randomBytes _ := List.length_replicate
  length_nonce := List.length_replicate

/-- A package that is what is documented. -/
def sampleViem : Viem := documentedViem Keccak.keccak256 addressText

def sampleBuild (grossAmountWei : Option Text) : Throws WitnessBundle :=
  (sampleWithdrawal grossAmountWei).build sampleViem mixHash sampleCrypto sampleDraws

theorem documented_sampleCrypto : Aead.Documented sampleCrypto := Aead.documented_checksum _

/-- The chain of the package. -/
def sampleEnv : Env where
  poseidon2 l _ := l
  keccak256 := Keccak.keccak256
  chainId := 6343
  this := 5
  feeController := 0

theorem documented_sampleViem : Documented sampleViem sampleEnv.keccak256 :=
  documented_documentedViem _ fun a => ⟨isEvmAddress_addressText a, lower_addressText a⟩

theorem sampleNote_fits :
    NoteForPool (sampleWithdrawal none).input.note 6343 (addressText 5) where
  version := rfl
  chainId := rfl
  pool := rfl
  assetId := lower_hex32 1
  commitment := isBn254FieldElement_padHex32 (mixHash_pos _) (mixHash_lt _)
  ownerCommitment := isBn254FieldElement_hex32 (by decide) (by decide)
  noteSecret := isBn254FieldElement_hex32 (by decide) (by decide)

theorem samplePath_fits : PathFits (sampleWithdrawal none).input.merklePath 6343 (addressText 5)
    sampleCommitment sandboxMerkleTreeDepth where
  chainId := rfl
  pool := rfl
  commitment := rfl
  depth := by decide
  leafIndex := by decide
  length := by decide
  pathElements := fun element helement => by
    rw [List.eq_of_mem_replicate helement, hexNat_hex32]
    exact ⟨isHexBytes32_hex32 0, by decide⟩
  pathIndices := by decide

theorem sampleRoot_fits :
    isHexBytes32 (sampleWithdrawal none).input.merklePath.root ∧
      hexNat (sampleWithdrawal none).input.merklePath.root < bn254ScalarField := by
  refine ⟨isHexBytes32_hex32 5, ?_⟩
  change hexNat (hex32 5) < _
  rw [hexNat_hex32]
  decide

theorem sampleAmount_parsed : parsePositiveDecimalField
    (sampleWithdrawal none).input.note.noteAmountWei "oldAmountWei" = .ok 300000000000000000 :=
  parsePositiveDecimalField_eq_ok.mpr ⟨by decide, by decide, by decide⟩

theorem sampleCommitment_fits : CommitmentFits (sampleWithdrawal none).input.note.preimage where
  assetId := isField_hex32 (by decide)
  noteAmountWei := by decide
  ownerCommitment := isField_hex32 (by decide)
  noteSecret := isField_hex32 (by decide)

theorem sampleNullifier_fits :
    NullifierFits (nullifierInput (sampleWithdrawal none).input.build) where
  leafIndex := by decide
  chainId := by decide
  verifyingContract := isEvmAddress_addressText 5
  noteSecret := isField_hex32 (by decide)

section Sample
variable {grossAmountWei : Option Text} {gross : ℕ}

theorem mixHash_ne_zeroBytes32 (inputs : List ℕ) : padHex32 (mixHash inputs) ≠ zeroBytes32 := by
  intro h
  rw [padHex32_mixHash] at h
  exact mixWord_ne_zero inputs (hex32_injective h)

/-- What is hashed for a part of the note. -/
theorem sampleHashes_fit (hpos : 0 < gross) (hlt : gross < 2 ^ 128) (nullifier commitment : List ℕ)
    (encryptedOutputNote : Text) :
    (hashesInput (sampleWithdrawal grossAmountWei).input.build sampleViem gross
      (gross * 33 / 10000) (padHex32 (mixHash nullifier)) (padHex32 (mixHash commitment))
      encryptedOutputNote).Fits sampleViem := by
  have hdigest : ∀ inputs, isHexBytes32 (padHex32 (mixHash inputs)) ∧
      padHex32 (mixHash inputs) ≠ zeroBytes32 := fun inputs =>
    ⟨(isCommitment_padHex32 (mixHash_lt inputs)).1, mixHash_ne_zeroBytes32 inputs⟩
  have hfee : gross * 33 / 10000 < 2 ^ 256 := by omega
  have hnet : gross - gross * 33 / 10000 < 2 ^ 256 := by omega
  refine ⟨⟨.inl rfl, isAddress_addressText _ 5,
    isHexBytes32_hashDomainSeparator documented_sampleViem "withdraw_context_v1_2_fee_governance",
    ?_⟩, ⟨isHexBytes32_hex32 5, ?_⟩,
    hdigest _, hdigest _, isAddress_addressText _ 4, ⟨hpos, ?_⟩, hfee,
    ⟨isAddress_addressText _ 0, hnet, hfee, ?_⟩⟩
  · exact (by decide : isHexBytes4 withdrawBoundedSelector)
  · exact (by decide +kernel : hex32 5 ≠ zeroBytes32)
  · change gross < 2 ^ 256
    omega
  · exact (by decide : 0 < 2 ^ 256)

/-- **Every part of the note is withdrawn.** -/
theorem exists_sampleBuild (hgross : grossAmountOf 300000000000000000
      (grossAmountWei.filter (· ≠ [])) = .ok gross)
    (hpos : 0 < gross) (hle : gross ≤ 300000000000000000) :
    ∃ b, sampleBuild grossAmountWei = .ok b := by
  let w := sampleWithdrawal grossAmountWei
  have hplace : Deployed sampleEnv w.input.build.chainId w.input.build.pool :=
    ⟨rfl, (address_addressText 5).symm⟩
  obtain ⟨output, houtput⟩ := @exists_output mixHash sampleCrypto w sampleDraws
    (isHexBytes32_hex32 1) (300000000000000000 - gross) (by omega)
  have hcommitment : output.commitment = padHex32 (mixHash (outputPreimage output.preimage)) :=
    (deriveOutputNoteCommitment_eq_ok.mp houtput.commitment).2.2.2.2
  obtain ⟨ciphertext, hseal, hhex, hlength, hkey, hnonce⟩ := exists_ciphertext
    documented_sampleCrypto (fun _ => ⟨_, rfl⟩) (by omega) houtput
  let envelope := (envelopeInput w.input.build output ciphertext).envelope
  have hfits : (envelopeInput w.input.build output ciphertext).Fits :=
    { ciphertext := hhex
      length_le := hlength
      chainId := .inr rfl
      verifyingContract := isEvmAddress_addressText 5
      outputCommitment := by
        change isHexBytes32 output.commitment
        rw [hcommitment]
        exact (isCommitment_padHex32 (mixHash_lt _)).1
      ephemeralPublicKey := fun key hmem => by
        change key ∈ ciphertext.ephemeralPublicKey at hmem
        rw [hkey] at hmem
        exact absurd hmem (Option.not_mem_none _)
      nonce := fun nonce hmem _ => hnonce nonce hmem }
  let nullifier := nullifierPreimage (nullifierInput w.input.build)
  obtain ⟨hashes, hhashes⟩ : ∃ hashes, computeV12UnlinkableWithdrawHashes sampleViem webRules
      (hashesInput w.input.build sampleViem gross (gross * 33 / 10000)
        (padHex32 (mixHash nullifier)) output.commitment (hexText envelope.bytes)) = .ok hashes := by
    rw [hcommitment]
    exact ⟨_, (computeV12UnlinkableWithdrawHashes_eq_ok documented_sampleViem accepting_webRules
      hplace (isHexString_hexText _)).mpr ⟨sampleHashes_fit hpos (by omega) _ _ _, rfl⟩⟩
  let made : Made :=
    { oldAmount := 300000000000000000, grossAmount := gross, feeBps := 33, output, ciphertext
      envelope, encryptedOutputNote := hexText envelope.bytes
      nullifier := padHex32 (mixHash nullifier), hashes }
  refine ⟨_, build_eq_ok.mpr ⟨rfl, made, ?_, rfl⟩⟩
  exact {
    note := sampleNote_fits
    path := samplePath_fits
    root := by
      rw [assertRoot_parts]
      exact assertZeroAllowedField_eq_ok.mpr sampleRoot_fits
    destination := ⟨isEvmAddress_addressText 4, (by decide : addressText 4 ≠ zeroAddress)⟩
    oldAmount := sampleAmount_parsed
    grossAmount := hgross
    amount := ensure_of (not_lt.mpr hpos)
    gross_le := hle
    feeBps := rfl
    pendingFee := rfl
    output := houtput
    ciphertext := hseal
    envelope := (createEncryptedOutputNoteV2Envelope_eq_ok rfl).mpr ⟨hfits, rfl⟩
    encryptedOutputNote := serialize_of_wellFormed (wellFormed_envelope hfits)
    commitment := ⟨_, deriveBrowserNoteCommitment_of_fits mixHash_lt
      sampleCommitment_fits, rfl⟩
    nullifier := deriveBrowserNullifier_of_fits mixHash_lt sampleNullifier_fits
    hashes := hhashes }

end Sample

/-- All of the note. -/
theorem sampleBuild_full : ∃ b, sampleBuild none = .ok b :=
  exists_sampleBuild rfl (by decide) le_rfl

/-- 0.1 ETH of the note. -/
theorem sampleBuild_partial : ∃ b, sampleBuild (some "100000000000000000".toList) = .ok b :=
  exists_sampleBuild (parsePositiveDecimalField_eq_ok.mpr ⟨by decide, by decide, rfl⟩) (by decide)
    (by decide)

/-- 0.2 ETH of it. -/
theorem sampleBuild_larger : ∃ b, sampleBuild (some "200000000000000000".toList) = .ok b :=
  exists_sampleBuild (parsePositiveDecimalField_eq_ok.mpr ⟨by decide, by decide, rfl⟩) (by decide)
    (by decide)

/-- Exits of 0.1 and of 0.2 ETH look alike. -/
theorem indistinguishable_partial : ∃ b₁ b₂,
    sampleBuild (some "100000000000000000".toList) = .ok b₁ ∧
    sampleBuild (some "200000000000000000".toList) = .ok b₂ ∧
    Indistinguishable sampleViem mixHash sampleCrypto
      (sampleWithdrawal (some "100000000000000000".toList))
      (sampleWithdrawal (some "200000000000000000".toList)) b₁ b₂ := by
  obtain ⟨b₁, hb₁⟩ := sampleBuild_partial
  obtain ⟨b₂, hb₂⟩ := sampleBuild_larger
  have hlengths : ciphertextBytes (sampleWithdrawal (some "100000000000000000".toList)).retained =
      ciphertextBytes (sampleWithdrawal (some "200000000000000000".toList)).retained := by
    decide +kernel
  have hshape := ciphertextBytes_eq_iff.mp hlengths
  refine ⟨b₁, b₂, hb₁, hb₂,
    (indistinguishable_iff documented_sampleCrypto ?_ ?_ hb₁ hb₂).mpr hshape⟩
  · rfl
  · rfl

/-- **A full exit is told apart from a partial one** by the length of its ciphertext. -/
theorem full_exit_shown : ∃ b₁ b₂, sampleBuild none = .ok b₁ ∧
    sampleBuild (some "100000000000000000".toList) = .ok b₂ ∧
    ¬Indistinguishable sampleViem mixHash sampleCrypto (sampleWithdrawal none)
      (sampleWithdrawal (some "100000000000000000".toList)) b₁ b₂ := by
  obtain ⟨b₁, hb₁⟩ := sampleBuild_full
  obtain ⟨b₂, hb₂⟩ := sampleBuild_partial
  refine ⟨b₁, b₂, hb₁, hb₂, fun h => ?_⟩
  have hsets := h.ciphertext
  rw [(formats_envelopes documented_sampleCrypto hb₁).2,
    (formats_envelopes documented_sampleCrypto hb₂).2] at hsets
  have hlengths : ciphertextBytes (sampleWithdrawal none).retained ≠
      ciphertextBytes (sampleWithdrawal (some "100000000000000000".toList)).retained := by
    decide +kernel
  exact hlengths (Option.some.inj (Set.singleton_eq_singleton_iff.mp hsets))

end Nullark.Web.Withdraw
