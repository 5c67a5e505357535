import Nullark.Js.NoteEnvelope
import Nullark.Js.WithdrawWitness
import Nullark.Web.Poseidon

/-! # Recovering notes with the web app

Output notes are encrypted as a list of four texts, in an envelope of version 2. The app recovers
them and the notes in envelopes of version 1, one log at a time; what goes wrong with a log makes it
skip the log.

* `tryDecryptV2OutputEvent_of_encrypted`: an output note is decrypted from its event.
* `output_note_recovered`: the same, with everything that happens to the note before. -/

namespace Nullark.Web.NoteRecovery

open Nullark.Lib Nullark.Lib.Outcome Nullark.Lib.Aead
open Nullark.Lib.Hex hiding value Digits ofNat
open Nullark.Lib.Json (Value Scalar Plain)
open Nullark.Core.Proofs (maxSafeInteger)
open Nullark.Evm.Basic Nullark.Pool.Interface
open Nullark.Js.Basic Nullark.Js.Bytes Nullark.Js.Numbers Nullark.Js.TreeHash
open Nullark.Js.OutputNoteEnvelope Nullark.Js.SpendMaterial Nullark.Js.NoteEnvelope
open Nullark.Js.WithdrawWitness (EncryptedOutputNoteV2Ciphertext)
open Nullark.Web.Poseidon

def hexToBytes (value : Text) : Throws Bytes := do
  ensure (isHexString value) "Expected even-length hex string."
  return hexBytes value

/-- `/^[0-9a-fA-F]{64}$/`. -/
def isHex64 (t : Text) : Prop := t.length = 64 ∧ Hex.Digits t

instance (t : Text) : Decidable (isHex64 t) := inferInstanceAs (Decidable (_ ∧ _))

/-- What is encrypted of an output note. -/
def compactItems (n : SpendMaterialPlaintext) : List Scalar :=
  [.string n.noteAmountWei, .string (n.ownerCommitment.drop 2), .string (n.noteSecret.drop 2),
    .string (n.blinding.drop 2)]

def compactBytes (n : SpendMaterialPlaintext) : Bytes :=
  Utf8.encode (Json.printArray (compactItems n))

/-- `1970-01-01T00:00:00.000Z`, the time of every note that is decrypted from a list. -/
def epochStart : Text := "1970-01-01T00:00:00.000Z".toList

/-- The note in a list of four texts. -/
def readCompact (chainId : ℕ) (pool commitment : Text) : Value → Throws SpendMaterialPlaintext
  | .array [.string noteAmountWei, .string ownerCommitment, .string noteSecret, .string blinding] =>
    do
    ensure (Decimal.isCanonical noteAmountWei ∧ isHex64 ownerCommitment ∧ isHex64 noteSecret ∧
      isHex64 blinding) "EncryptedOutputNoteV2 inner note payload is malformed."
    return {
      version := spendMaterialVersion, chainId, pool, assetId := nativeEthAssetId, noteAmountWei
      ownerCommitment := '0' :: 'x' :: lower ownerCommitment
      noteSecret := '0' :: 'x' :: lower noteSecret
      blinding := '0' :: 'x' :: lower blinding
      commitment, createdAt := epochStart }
  | _ => .error "EncryptedOutputNoteV2 inner note payload is malformed."

section Code
variable (c : Crypto)

/-! ### Encryption -/

def deriveWalletRecoveryKey (walletSignature : Text) (chainId : ℕ) (pool appId : Text) :
    Throws Bytes := do
  let _ ← hexToBytes walletSignature
  return walletRecoveryKey c walletSignature chainId pool appId

/-- `encryptSpendMaterialEnvelope`, with the 12 random bytes of the nonce. -/
def encryptSpendMaterialEnvelope (nonce key : Bytes) (plaintext : SpendMaterialPlaintext)
    (aad : Bytes) : EncryptedNoteEnvelope where
  nonce := hexText nonce
  ciphertext := hexText (c.encrypt key nonce aad (spendBytes plaintext))

/-- **`encryptCompactOutputNoteV2Payload`**, with the 24 random bytes of the nonce. -/
def encryptCompactOutputNoteV2Payload (nonce key : Bytes) (plaintext : SpendMaterialPlaintext)
    (aad : Bytes) : EncryptedOutputNoteV2Ciphertext where
  nonce := some (hexText nonce)
  ciphertext := hexText (c.encrypt key (nonce.take 12) aad (compactBytes plaintext))

/-! ### Decryption -/

/-- The value in a ciphertext. -/
def decryptValue (key iv aad ciphertext : Bytes) : Throws Value :=
  match c.decrypt key iv aad ciphertext with
  | none => .error "OperationError"
  | some decrypted =>
    match parseBytes decrypted with
    | none => .error "SyntaxError"
    | some value => .ok value

def decryptEncryptedNoteEnvelope (key : Bytes) (encrypted : EncryptedNoteEnvelope) (aad : Bytes) :
    Throws Value :=
  let decrypted := do
    let nonce ← hexToBytes encrypted.nonce
    let ciphertext ← hexToBytes encrypted.ciphertext
    decryptValue c key nonce aad ciphertext
  decrypted.mapError fun _ => "Encrypted note authentication failed."

def decryptCompactOutputNoteV2Payload (key : Bytes) (nonce ciphertext : Text) (aad : Bytes)
    (chainId : ℕ) (pool commitment : Text) : Throws SpendMaterialPlaintext := do
  let nonce ← hexToBytes nonce
  let ciphertext ← hexToBytes ciphertext
  let value ← decryptValue c key (nonce.take 12) aad ciphertext
  readCompact chainId pool commitment value

/-- The epochs that are tried. -/
def epochIds (chainId : ℕ) : List Text :=
  [recoveryEpochId chainId, nullarkLegacyRecoveryEpochIdV1].eraseDups

/-- One round of the loops of `tryDecryptV2OutputEvent`. -/
def attemptV2 (event : DecodedNoteEventLog) (encrypted : EncryptedOutputNoteV2Envelope)
    (chainId : ℕ) (pool : Text) (a : Bytes × Text × EncryptedNoteV1Action) :
    Throws SpendMaterialPlaintext :=
  decryptCompactOutputNoteV2Payload c (noteKey c a.1 event.commitment a.2.1) encrypted.nonce
    encrypted.ciphertext
    (RecoveryAssociatedData.bytes { chainId, pool, action := a.2.2, commitment := event.commitment })
    chainId pool event.commitment

/-- **`tryDecryptV2OutputEvent`**. The only action that is tried is that of an output. -/
def tryDecryptV2OutputEvent (event : DecodedNoteEventLog) (recoveryKeys : List Bytes) (chainId : ℕ)
    (pool : Text) : Option SpendMaterialPlaintext :=
  match parseEncryptedOutputNoteV2EnvelopeFromHex webWording event.encryptedNote
    { chainId := some chainId, verifyingContract := some pool
      outputCommitment := some event.commitment } with
  | .error _ => none
  | .ok encrypted =>
    (recoveryAttempts recoveryKeys (epochIds chainId) [.withdrawOutput]).findSome? fun a =>
      (attemptV2 c event encrypted chainId pool a).toOption

/-- One round of the loops of `tryDecryptEvent`. -/
def attemptDecrypt (event : DecodedNoteEventLog) (encrypted : EncryptedNoteEnvelope) (chainId : ℕ)
    (pool : Text) (a : Bytes × Text × EncryptedNoteV1Action) : Throws Value :=
  decryptEncryptedNoteEnvelope c (noteKey c a.1 event.commitment a.2.1) encrypted
    (RecoveryAssociatedData.bytes { chainId, pool, action := a.2.2, commitment := event.commitment })

/-- The spend material as a value. -/
def spendValue (n : SpendMaterialPlaintext) : Value :=
  .object ((spendMembers n).map fun m => (m.1, m.2.value))

/-- **`tryDecryptEvent`**. What an envelope of version 1 decrypts to is not checked. -/
def tryDecryptEvent (event : DecodedNoteEventLog) (recoveryKeys : List Bytes) (chainId : ℕ)
    (pool : Text) : Option Value :=
  if event.action = .withdrawOutput ∧ event.encryptionVersion = 2 then
    (tryDecryptV2OutputEvent c event recoveryKeys chainId pool).map spendValue
  else
    match parseEncryptedNoteEnvelopeFromHex webEnvelopeWording event.encryptedNote with
    | .error _ => none
    | .ok encrypted =>
      (recoveryAttempts recoveryKeys (epochIds chainId) event.action.recoveryActions).findSome?
        fun a => (attemptDecrypt c event encrypted chainId pool a).toOption

end Code

/-- `BigInt(text)` as an input of the hash. The texts of an output note were matched before, so none
of them is negative. -/
def hashInput (t : Text) : Throws ℕ := do
  let value ← stringToBigInt t
  ensure (0 ≤ value) "Expected a nonnegative hash input."
  return value.toNat

/-- `deriveBrowserOutputNoteCommitment` of the recovery. -/
def deriveBrowserOutputNoteCommitment (hash : FieldHash) (i : NoteCommitmentInput) :
    Throws Text := do
  let assetId ← hashInput i.assetId
  let amount ← hashInput i.noteAmountWei
  let ownerCommitment ← hashInput i.ownerCommitment
  let noteSecret ← hashInput i.noteSecret
  return padHex32 (hash [10001, assetId, amount, ownerCommitment, noteSecret])

/-! ### Lists of four texts -/

/-- **The fields of an output note**, as any client writes them. -/
structure IsOutputNote (n : SpendMaterialPlaintext) : Prop where
  noteAmountWei : Decimal.isCanonical n.noteAmountWei
  ownerCommitment : isHexBytes32 n.ownerCommitment
  noteSecret : isHexBytes32 n.noteSecret
  blinding : isHexBytes32 n.blinding

/-- The note that is read back: in lower case, without its time. -/
def readBack (n : SpendMaterialPlaintext) (chainId : ℕ) (pool commitment : Text) :
    SpendMaterialPlaintext where
  version := spendMaterialVersion
  chainId := chainId
  pool := pool
  assetId := nativeEthAssetId
  noteAmountWei := n.noteAmountWei
  ownerCommitment := lower n.ownerCommitment
  noteSecret := lower n.noteSecret
  blinding := lower n.blinding
  commitment := commitment
  createdAt := epochStart

theorem isHex64_drop {t : Text} (h : isHexBytes32 t) :
    isHex64 (t.drop 2) ∧ '0' :: 'x' :: lower (t.drop 2) = lower t := by
  obtain ⟨digits, rfl, hlen, hd⟩ := isHexOfLength_iff.mp h
  exact ⟨⟨hlen, hd⟩, rfl⟩

section Compact
variable {n : SpendMaterialPlaintext} (hn : IsOutputNote n)
include hn

theorem readCompact_items (chainId : ℕ) (pool commitment : Text) :
    readCompact chainId pool commitment (.array ((compactItems n).map Scalar.value)) =
      .ok (readBack n chainId pool commitment) := by
  obtain ⟨howner, hownerText⟩ := isHex64_drop hn.ownerCommitment
  obtain ⟨hsecret, hsecretText⟩ := isHex64_drop hn.noteSecret
  obtain ⟨hblinding, hblindingText⟩ := isHex64_drop hn.blinding
  simp only [compactItems, List.map_cons, List.map_nil, Scalar.value, readCompact]
  rw [ensure_of ⟨hn.noteAmountWei, howner, hsecret, hblinding⟩, ok_bind, hownerText, hsecretText,
    hblindingText]
  rfl

theorem plain_compactItems : ∀ x ∈ compactItems n, x.Plain := by
  have hdigits : ∀ {t : Text}, isHexBytes32 t → Plain (t.drop 2) := fun ht c hc =>
    Json.isPlain_of_isDigit ((isHex64_drop ht).1.2 c hc)
  have hamount : Plain n.noteAmountWei := fun c hc =>
    Json.isPlain_of_decimal (hn.noteAmountWei.1.2 c hc)
  simp only [compactItems, List.forall_mem_cons, Scalar.Plain]
  exact ⟨hamount, hdigits hn.ownerCommitment, hdigits hn.noteSecret, hdigits hn.blinding,
    fun _ h => absurd h List.not_mem_nil⟩

/-- The list is as long as the digits of its amount make it. -/
theorem length_compactBytes : (compactBytes n).length = 205 + n.noteAmountWei.length := by
  have hplain := plain_compactItems hn
  have hfield : ∀ {t : Text}, isHexBytes32 t →
      (Json.printScalar (.string (t.drop 2))).length = 66 := by
    intro t ht
    have hdigits := (isHex64_drop ht).1
    rw [length_printScalar_of_plain fun c hc => Json.isPlain_of_isDigit (hdigits.2 c hc), hdigits.1]
  have hamount : (Json.printScalar (.string n.noteAmountWei)).length =
      n.noteAmountWei.length + 2 :=
    length_printScalar_of_plain fun c hc => Json.isPlain_of_decimal (hn.noteAmountWei.1.2 c hc)
  have hlength : (Json.printArray (compactItems n)).length = _ :=
    Json.length_printArray (List.cons_ne_nil _ _)
  rw [compactBytes, Utf8.length_encode (Json.ascii_printArray hplain), hlength]
  simp only [compactItems, List.map_cons, List.map_nil, List.sum_cons, List.sum_nil, hamount,
    hfield hn.ownerCommitment, hfield hn.noteSecret, hfield hn.blinding]
  omega

end Compact

/-- The list is read back from its bytes. -/
theorem parseBytes_compactBytes (n : SpendMaterialPlaintext) :
    parseBytes (compactBytes n) = some (.array ((compactItems n).map Scalar.value)) := by
  have hbracket : ('[' : Char).toNat < 0x80 := by decide
  have hdecode : Utf8.decode (compactBytes n) = Json.printArray (compactItems n) :=
    Utf8.decode_encode hbracket
  have hexact : ∀ x ∈ compactItems n, x.Exact := by
    simp only [compactItems, List.forall_mem_cons, Scalar.Exact, true_and]
    exact fun _ h => absurd h List.not_mem_nil
  rw [parseBytes, hdecode]
  exact Json.parse_printArray (List.cons_ne_nil _ _) hexact

theorem hexToBytes_hexText (bytes : Bytes) : hexToBytes (hexText bytes) = .ok bytes := by
  unfold hexToBytes
  rw [ensure_of (isHexString_hexText bytes), ok_bind, hexBytes_hexText]
  rfl

theorem epochIds_eq (chainId : ℕ) : epochIds chainId = recoveryEpochIds chainId := by
  simp [epochIds, List.eraseDups_cons, (recoveryEpochId_ne chainId).symm, recoveryEpochIds]

section Decrypt
variable {c : Crypto} (hc : Aead.Documented c)
include hc

theorem decryptValue_encrypt {key iv aad plaintext : Bytes} {value : Value}
    (h : parseBytes plaintext = some value) :
    decryptValue c key iv aad (c.encrypt key iv aad plaintext) = .ok value := by
  unfold decryptValue
  rw [hc.decrypt_encrypt]
  dsimp only
  rw [h]

/-- **What was encrypted is decrypted.** -/
theorem decryptCompactOutputNoteV2Payload_encrypt {n : SpendMaterialPlaintext}
    (hn : IsOutputNote n) (key nonce aad : Bytes) (chainId : ℕ) (pool commitment : Text) :
    decryptCompactOutputNoteV2Payload c key (hexText nonce)
      (encryptCompactOutputNoteV2Payload c nonce key n aad).ciphertext aad chainId pool commitment =
      .ok (readBack n chainId pool commitment) := by
  unfold decryptCompactOutputNoteV2Payload encryptCompactOutputNoteV2Payload
  rw [hexToBytes_hexText, ok_bind]
  dsimp only
  rw [hexToBytes_hexText, ok_bind, decryptValue_encrypt hc (parseBytes_compactBytes n), ok_bind,
    readCompact_items hn]

/-- **A note in an envelope of version 1** is decrypted at the first attempt. -/
theorem tryDecryptEvent_noteEnvelope {walletSignature pool : Text} {chainId : ℕ} {nonce : Bytes}
    {event : DecodedNoteEventLog} {n : SpendMaterialPlaintext} (hchain : n.chainId < 2 ^ 53)
    (hfits : (noteEnvelope c walletSignature chainId pool .deposit nonce n).Fits)
    (haction : event.action = .deposit) (hcommitment : event.commitment = n.commitment)
    (hnote : event.encryptedNote =
      hexText (noteEnvelope c walletSignature chainId pool .deposit nonce n).bytes) :
    tryDecryptEvent c event (recoveryKeys c walletSignature chainId pool) chainId pool =
      some (spendValue n) := by
  have hattempt : attemptDecrypt c event
      (noteEnvelope c walletSignature chainId pool .deposit nonce n) chainId pool
      (walletRecoveryKey c walletSignature chainId pool nullarkRecoveryAppId,
        recoveryEpochId chainId, .deposit) = .ok (spendValue n) := by
    unfold attemptDecrypt decryptEncryptedNoteEnvelope noteEnvelope
    rw [hcommitment]
    dsimp only
    rw [hexToBytes_hexText, ok_bind, hexToBytes_hexText, ok_bind,
      decryptValue_encrypt hc (parseBytes_spendBytes hchain)]
    rfl
  obtain ⟨rest, hattempts⟩ : ∃ rest, recoveryAttempts (recoveryKeys c walletSignature chainId pool)
      (epochIds chainId) event.action.recoveryActions =
      (walletRecoveryKey c walletSignature chainId pool nullarkRecoveryAppId,
        recoveryEpochId chainId, .deposit) :: rest := by
    rw [epochIds_eq, haction]
    exact ⟨_, rfl⟩
  have hversion : ¬(event.action = .withdrawOutput ∧ event.encryptionVersion = 2) := fun h =>
    (nomatch haction.symm.trans h.1)
  unfold tryDecryptEvent
  rw [if_neg hversion, hnote, parseEnvelope_hexText hfits]
  dsimp only
  rw [hattempts, List.findSome?_cons, hattempt]
  rfl

/-- A ciphertext is as long as the digits of the amount make it. -/
theorem hexByteLength_encryptCompact {n : SpendMaterialPlaintext} (hn : IsOutputNote n)
    (nonce key aad : Bytes) :
    hexByteLength (encryptCompactOutputNoteV2Payload c nonce key n aad).ciphertext =
      221 + n.noteAmountWei.length := by
  have hlength := length_hexBytes (encryptCompactOutputNoteV2Payload c nonce key n aad).ciphertext
  rw [hexByteLength, ← hlength]
  simp only [encryptCompactOutputNoteV2Payload, hexBytes_hexText]
  rw [hc.length_encrypt, length_compactBytes hn, Aead.tagLength]
  omega

/-- A tag is never empty. -/
theorem isNonEmptyHex_encryptCompact (n : SpendMaterialPlaintext) (nonce key aad : Bytes) :
    isNonEmptyHex (encryptCompactOutputNoteV2Payload c nonce key n aad).ciphertext := by
  refine isNonEmptyHex_hexText fun h => ?_
  have hempty := congrArg List.length h
  rw [hc.length_encrypt] at hempty
  exact absurd hempty (Nat.succ_ne_zero _)

end Decrypt

/-! ### Output notes in their events -/

/-- What a client of the wallet encrypts an output note with. -/
structure OutputNoteKeys where
  walletSignature : Text
  chainId : ℕ
  pool : Text
  nonce : Bytes

section Output
variable (c : Crypto) (k : OutputNoteKeys) (n : SpendMaterialPlaintext)

/-- The key for the note of a commitment. -/
def OutputNoteKeys.key (commitment : Text) : Bytes :=
  noteKey c (walletRecoveryKey c k.walletSignature k.chainId k.pool nullarkRecoveryAppId) commitment
    (recoveryEpochId k.chainId)

def OutputNoteKeys.aad (commitment : Text) : Bytes :=
  RecoveryAssociatedData.bytes
    { chainId := k.chainId, pool := k.pool, action := .withdrawOutput, commitment }

/-- What the encryptor of the app returns for a note. -/
def OutputNoteKeys.payload : EncryptedOutputNoteV2Ciphertext :=
  encryptCompactOutputNoteV2Payload c k.nonce (k.key c n.commitment) n (k.aad n.commitment)

def OutputNoteKeys.createInput : CreateInput where
  chainId := k.chainId
  verifyingContract := k.pool
  outputCommitment := n.commitment
  ciphertext := (k.payload c n).ciphertext
  nonce := (k.payload c n).nonce

end Output

/-- `WithdrawalOutputNoteCreated` of version 2, as it is decoded. -/
def outputNoteEvent (commitment encryptedOutputNote nullifier : Text) (leafIndex : ℕ)
    (transactionHash : Text) : DecodedNoteEventLog where
  action := .withdrawOutput
  commitment := hex32 (word commitment)
  leafIndex := leafIndex
  encryptedNote := hexText (hexBytes encryptedOutputNote)
  encryptionVersion := 2
  nullifier := some (hex32 (word nullifier))
  transactionHash := transactionHash

/-- **The retained note of a withdrawal**: a note of the chain and the pool, with the commitment
that is derived for it. -/
structure RetainedNote (hash : FieldHash) (chainId : ℕ) (pool : Text) (n : SpendMaterialPlaintext) :
    Prop where
  chainId : chainId = 4326 ∨ chainId = 6343
  pool : isEvmAddress pool
  assetId : isHexBytes32 n.assetId ∧ lower n.assetId = nativeEthAssetId
  note : IsOutputNote n
  commitment : n.commitment = padHex32 (hash (outputPreimage n.preimage))

/-- The same note. The texts of its bytes may differ in case. -/
structure SameOutputNote (m n : SpendMaterialPlaintext) : Prop where
  noteAmountWei : m.noteAmountWei = n.noteAmountWei
  ownerCommitment : lower m.ownerCommitment = lower n.ownerCommitment
  noteSecret : lower m.noteSecret = lower n.noteSecret
  blinding : lower m.blinding = lower n.blinding

theorem sameOutputNote_readBack (n : SpendMaterialPlaintext) (chainId : ℕ) (pool commitment : Text) :
    SameOutputNote (readBack n chainId pool commitment) n :=
  ⟨rfl, lower_lower _, lower_lower _, lower_lower _⟩

theorem isCommitment_padHex32 {v : ℕ} (h : v < bn254ScalarField) :
    isHexBytes32 (padHex32 v) ∧ hex32 (word (padHex32 v)) = padHex32 v ∧
      lower (padHex32 v) = padHex32 v := by
  rw [padHex32_eq_hex32 (h.trans (by decide)), word_hex32, lower_hex32]
  exact ⟨isHexBytes32_hex32 _, rfl, rfl⟩

theorem hashInput_of_isHexBytes32 {t : Text} (h : isHexBytes32 t) :
    hashInput t = .ok (hexNat t) := by
  unfold hashInput
  rw [stringToBigInt_of_isHexOfLength (by decide) h, ok_bind, ensure_of (Int.natCast_nonneg _),
    ok_bind]
  rfl

theorem hashInput_of_isDecimal {t : Text} (h : Decimal.isDecimal t) :
    hashInput t = .ok (Decimal.value t) := by
  unfold hashInput
  rw [stringToBigInt_of_isDecimal h, ok_bind, ensure_of (Int.natCast_nonneg _), ok_bind]
  rfl

section Recover
variable {c : Crypto} {hash : FieldHash} {k : OutputNoteKeys} {n : SpendMaterialPlaintext}

/-- The ciphertext of a note of at most 35 digits fits its envelope. -/
theorem createInput_fits (hc : Aead.Documented c) (hhash : ∀ l, hash l < bn254ScalarField)
    (hn : RetainedNote hash k.chainId k.pool n) (hnonce : k.nonce.length = 24)
    (hdigits : n.noteAmountWei.length ≤ 35) : (k.createInput c n).Fits where
  ciphertext := isNonEmptyHex_encryptCompact hc _ _ _ _
  length_le := by
    change hexByteLength (encryptCompactOutputNoteV2Payload c _ _ _ _).ciphertext ≤ 256
    rw [hexByteLength_encryptCompact hc hn.note]
    omega
  chainId := hn.chainId
  verifyingContract := hn.pool
  outputCommitment := by
    change isHexBytes32 n.commitment
    rw [hn.commitment]
    exact (isCommitment_padHex32 (hhash _)).1
  ephemeralPublicKey := fun _ h => absurd h (Option.not_mem_none _)
  nonce := by
    intro t ht _
    obtain rfl := Option.some.inj ht
    exact isHexOfLength_hexText hnonce

/-- The envelope has the nonce and the ciphertext as they were encrypted. -/
theorem createInput_envelope : (k.createInput c n).envelope.nonce = hexText k.nonce ∧
    (k.createInput c n).envelope.ciphertext = (k.payload c n).ciphertext :=
  ⟨lower_hexText _, lower_hexText _⟩

/-- **An output note is decrypted from its event** at the first attempt. -/
theorem tryDecryptV2OutputEvent_of_encrypted (hc : Aead.Documented c) (hn : IsOutputNote n)
    (hfits : (k.createInput c n).Fits) {event : DecodedNoteEventLog}
    (hcommitment : event.commitment = n.commitment)
    (hnote : event.encryptedNote = hexText (k.createInput c n).envelope.bytes) :
    tryDecryptV2OutputEvent c event (recoveryKeys c k.walletSignature k.chainId k.pool) k.chainId
      k.pool = some (readBack n k.chainId k.pool n.commitment) := by
  obtain ⟨hnonce, hciphertext⟩ := createInput_envelope (c := c) (k := k) (n := n)
  have hmatches : Matches { chainId := some k.chainId, verifyingContract := some k.pool
                            outputCommitment := some event.commitment }
      (k.createInput c n).envelope := by
    refine ⟨fun _ h => Option.some.inj h, fun _ h => ?_, fun _ h => ?_⟩
    · rw [← Option.some.inj h]
      rfl
    · rw [← Option.some.inj h, hcommitment]
      rfl
  have hparse := parse_hexText_bytes (w := webWording) (wellFormed_envelope hfits) hmatches
  obtain ⟨rest, hattempts⟩ : ∃ rest, recoveryAttempts
      (recoveryKeys c k.walletSignature k.chainId k.pool) (epochIds k.chainId) [.withdrawOutput] =
      (walletRecoveryKey c k.walletSignature k.chainId k.pool nullarkRecoveryAppId,
        recoveryEpochId k.chainId, .withdrawOutput) :: rest := by
    rw [epochIds_eq]
    exact ⟨_, rfl⟩
  have hattempt : attemptV2 c event (k.createInput c n).envelope k.chainId k.pool
      (walletRecoveryKey c k.walletSignature k.chainId k.pool nullarkRecoveryAppId,
        recoveryEpochId k.chainId, .withdrawOutput) =
      .ok (readBack n k.chainId k.pool n.commitment) := by
    unfold attemptV2
    rw [hnonce, hciphertext, hcommitment]
    exact decryptCompactOutputNoteV2Payload_encrypt hc hn _ _ _ _ _ _
  unfold tryDecryptV2OutputEvent
  rw [hnote, hparse]
  dsimp only
  rw [hattempts, List.findSome?_cons, hattempt]
  rfl

/-- The commitment of the note that is read back is that of the note. -/
theorem deriveBrowserOutputNoteCommitment_readBack (hn : RetainedNote hash k.chainId k.pool n)
    (chainId : ℕ) (pool commitment : Text) :
    deriveBrowserOutputNoteCommitment hash (readBack n chainId pool commitment).preimage =
      .ok n.commitment := by
  have howner := isHexOfLength_lower hn.note.ownerCommitment
  have hsecret := isHexOfLength_lower hn.note.noteSecret
  have hasset : isHexBytes32 nativeEthAssetId := isHexBytes32_hex32 _
  have hassetNat : hexNat nativeEthAssetId = hexNat n.assetId := by
    rw [← hn.assetId.2, hexNat_lower hn.assetId.1]
  unfold deriveBrowserOutputNoteCommitment readBack SpendMaterialPlaintext.preimage
  dsimp only
  rw [hashInput_of_isHexBytes32 hasset, ok_bind, hashInput_of_isDecimal hn.note.noteAmountWei.1,
    ok_bind, hashInput_of_isHexBytes32 howner, ok_bind, hashInput_of_isHexBytes32 hsecret, ok_bind,
    hexNat_lower hn.note.ownerCommitment, hexNat_lower hn.note.noteSecret, hassetNat, hn.commitment]
  rfl

/-- **A retained note comes back from its event.** Its ciphertext fits the envelope, the envelope is
created and serialized, and what the wallet decrypts from the event is the same note, whose
commitment is that of the event. -/
theorem output_note_recovered (hc : Aead.Documented c) (hhash : ∀ l, hash l < bn254ScalarField)
    {amount : ℕ} (hamount : isSupportedDenomination amount)
    (hn : RetainedNote hash k.chainId k.pool n) (hdigits : n.noteAmountWei = Decimal.ofNat amount)
    (hnonce : k.nonce.length = 24) (nullifier transactionHash : Text) (leafIndex : ℕ) :
    hexByteLength (k.payload c n).ciphertext ≤ paddedCiphertextBytes ∧
    ∃ envelope encryptedOutputNote,
      createEncryptedOutputNoteV2Envelope webWording (k.createInput c n) = .ok envelope ∧
      serializeEncryptedOutputNoteV2EnvelopeToHex webWording envelope = .ok encryptedOutputNote ∧
      ∃ m, tryDecryptV2OutputEvent c
          (outputNoteEvent n.commitment encryptedOutputNote nullifier leafIndex transactionHash)
          (recoveryKeys c k.walletSignature k.chainId k.pool) k.chainId k.pool = some m ∧
        SameOutputNote m n ∧ deriveBrowserOutputNoteCommitment hash m.preimage =
          .ok (outputNoteEvent n.commitment encryptedOutputNote nullifier leafIndex
            transactionHash).commitment := by
  have hlength : n.noteAmountWei.length ≤ 35 := by
    have hle := le_of_supported hamount
    rw [hdigits]
    exact Decimal.length_ofNat_le (by decide) (by omega)
  have hfits : (k.createInput c n).Fits := createInput_fits hc hhash hn hnonce hlength
  have hword : hex32 (word n.commitment) = n.commitment := by
    rw [hn.commitment]
    exact (isCommitment_padHex32 (hhash _)).2.1
  refine ⟨hfits.length_le, (k.createInput c n).envelope,
    hexText (k.createInput c n).envelope.bytes,
    (createEncryptedOutputNoteV2Envelope_eq_ok rfl).mpr ⟨hfits, rfl⟩,
    serialize_of_wellFormed (wellFormed_envelope hfits), readBack n k.chainId k.pool n.commitment,
    tryDecryptV2OutputEvent_of_encrypted hc hn.note hfits hword ?_, sameOutputNote_readBack _ _ _ _,
    ?_⟩
  · change hexText (hexBytes (hexText _)) = _
    rw [hexBytes_hexText]
  · rw [deriveBrowserOutputNoteCommitment_readBack hn]
    exact congrArg _ hword.symm

end Recover

/-! ### A retained note -/

/-- The encryption whose tag is a checksum; a derived key is the three inputs in a row. -/
def sampleCrypto : Crypto := Aead.checksumCrypto fun key salt info => key ++ salt ++ info

def sampleKeys : OutputNoteKeys where
  walletSignature := hexText (List.replicate 65 1)
  chainId := 6343
  pool := addressText 5
  nonce := List.replicate 24 2

/-- A note of 0.005 ETH. -/
def sampleOutput : SpendMaterialPlaintext where
  version := spendMaterialVersion
  chainId := 6343
  pool := addressText 5
  assetId := nativeEthAssetId
  noteAmountWei := Decimal.ofNat 5000000000000000
  ownerCommitment := hex32 3
  noteSecret := hex32 4
  blinding := hex32 5
  commitment := padHex32 (mixHash (outputPreimage ⟨nativeEthAssetId, Decimal.ofNat 5000000000000000,
    hex32 3, hex32 4⟩))
  createdAt := epochStart

theorem sampleOutput_retained :
    RetainedNote mixHash sampleKeys.chainId sampleKeys.pool sampleOutput where
  chainId := .inr rfl
  pool := isEvmAddress_addressText 5
  assetId := ⟨isHexBytes32_hex32 1, lower_hex32 1⟩
  note := ⟨Decimal.isCanonical_ofNat 5000000000000000, isHexBytes32_hex32 3, isHexBytes32_hex32 4,
    isHexBytes32_hex32 5⟩
  commitment := rfl

/-- The note of the sample comes back from its event. -/
theorem output_note_recovered_sample :
    hexByteLength (sampleKeys.payload sampleCrypto sampleOutput).ciphertext ≤
      paddedCiphertextBytes ∧
    ∃ envelope encryptedOutputNote,
      createEncryptedOutputNoteV2Envelope webWording
        (sampleKeys.createInput sampleCrypto sampleOutput) = .ok envelope ∧
      serializeEncryptedOutputNoteV2EnvelopeToHex webWording envelope = .ok encryptedOutputNote ∧
      ∃ m, tryDecryptV2OutputEvent sampleCrypto
          (outputNoteEvent sampleOutput.commitment encryptedOutputNote (hex32 6) 0 (hex32 8))
          (recoveryKeys sampleCrypto sampleKeys.walletSignature sampleKeys.chainId sampleKeys.pool)
          sampleKeys.chainId sampleKeys.pool = some m ∧
        SameOutputNote m sampleOutput ∧
        deriveBrowserOutputNoteCommitment mixHash m.preimage =
          .ok (outputNoteEvent sampleOutput.commitment encryptedOutputNote (hex32 6) 0
            (hex32 8)).commitment :=
  output_note_recovered (Aead.documented_checksum _) mixHash_lt
    (show isSupportedDenomination 5000000000000000 by decide) sampleOutput_retained rfl
    rfl (hex32 6) (hex32 8) 0

end Nullark.Web.NoteRecovery
