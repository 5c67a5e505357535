import Nullark.Js.Bytes
import Nullark.Lib.Json

/-! # The envelope of an output note

The SDK and the web app have the same functions for the envelope, each with its own words for what
is wrong with one: `Wording`. An envelope is padded to 256 bytes of ciphertext and is written to the
chain as the bytes of its JSON text.

* `createEncryptedOutputNoteV2Envelope_eq_ok`: what is accepted, and the envelope.
* `serialize_eq_ok`, `parse_serialize`: an envelope is read back from its bytes.
* `length_json`, `length_json_le`: how long they are. -/

namespace Nullark.Js.OutputNoteEnvelope

open Nullark.Lib Nullark.Lib.Outcome
open Nullark.Lib.Hex hiding value ofNat
open Nullark.Lib.Json (Value Scalar Plain)
open Nullark.Evm.Basic Nullark.Js.Basic Nullark.Js.Bytes

/-- **What can be wrong.** -/
inductive Problem
  | notHex
  | notJson
  | notObject
  | unexpectedField (name : Text)
  | version
  | domain
  | chainId
  | verifyingContract
  | action
  | outputCommitment
  | proofContextHash
  | ephemeralPublicKey
  | nonce
  | ciphertextHex
  | ciphertextEmpty
  | paddingHex
  | ciphertextByteLength
  | paddingByteLength
  | paddedCiphertextByteLength
  | ciphertextMismatch
  | paddingMismatch
  | paddedMismatch
  | notPadded
  | paddingNotZero
  | otherChain
  | otherContract
  | otherCommitment
  | tooLong

/-- The message for each problem. -/
abbrev Wording := Problem → String

/-- `Invalid encrypted output note V2 envelope.` -/
def invalidEnvelope : String := "Invalid encrypted output note V2 envelope."

def sdkWording : Wording
  | .verifyingContract => "Encrypted output note V2 verifying contract must be an EVM address."
  | .outputCommitment => "Encrypted output note V2 output commitment must be bytes32 hex."
  | .proofContextHash => "Encrypted output note V2 proof context hash must be bytes32 hex."
  | .ephemeralPublicKey => "Encrypted output note V2 ephemeral public key must be bytes32 hex."
  | .nonce => "Encrypted output note V2 nonce must be bytes24 hex."
  | .ciphertextHex => "Encrypted output note V2 ciphertext must be even-length hex bytes."
  | .ciphertextEmpty =>
    "Encrypted output note V2 ciphertext must be nonempty even-length hex bytes."
  | .paddingHex => "Encrypted output note V2 padding bytes must be even-length hex bytes."
  | .tooLong => "Encrypted output note V2 ciphertext exceeds fixed padded length."
  | _ => invalidEnvelope

def webWording : Wording
  | .notHex => "Expected even-length hex string."
  | .notJson => "EncryptedOutputNoteV2 envelope is not valid JSON."
  | .notObject => "EncryptedOutputNoteV2 envelope JSON must be an object."
  | .unexpectedField name =>
    "EncryptedOutputNoteV2 envelope has unexpected field " ++ String.ofList name ++ "."
  | .version => "Unsupported EncryptedOutputNoteV2 envelope version."
  | .domain => "EncryptedOutputNoteV2 envelope domain must be nullark.encrypted-output-note.v2."
  | .chainId => "EncryptedOutputNoteV2 chainId must be MegaETH testnet 6343 or mainnet 4326."
  | .verifyingContract => "EncryptedOutputNoteV2 verifyingContract must be an EVM address."
  | .action => "EncryptedOutputNoteV2 envelope action must be withdraw-output."
  | .outputCommitment => "EncryptedOutputNoteV2 outputCommitment must be bytes32 hex."
  | .proofContextHash => "EncryptedOutputNoteV2 proofContextHash must be bytes32 hex."
  | .ephemeralPublicKey => "EncryptedOutputNoteV2 ephemeralPublicKey must be bytes32 hex."
  | .nonce => "EncryptedOutputNoteV2 nonce must be bytes24 hex."
  | .ciphertextHex => "EncryptedOutputNoteV2 ciphertext must be nonempty even-length hex bytes."
  | .ciphertextEmpty => "EncryptedOutputNoteV2 ciphertext must be nonempty even-length hex bytes."
  | .paddingHex => "EncryptedOutputNoteV2 paddingBytes must be even-length hex bytes."
  | .ciphertextByteLength =>
    "EncryptedOutputNoteV2 ciphertextByteLength must be a nonnegative safe integer."
  | .paddingByteLength =>
    "EncryptedOutputNoteV2 paddingByteLength must be a nonnegative safe integer."
  | .paddedCiphertextByteLength =>
    "EncryptedOutputNoteV2 paddedCiphertextByteLength must be a nonnegative safe integer."
  | .ciphertextMismatch => "EncryptedOutputNoteV2 ciphertextByteLength must match ciphertext bytes."
  | .paddingMismatch => "EncryptedOutputNoteV2 paddingByteLength must match padding bytes."
  | .paddedMismatch => "EncryptedOutputNoteV2 padded length must equal ciphertext plus padding."
  | .notPadded => "EncryptedOutputNoteV2 paddedCiphertextByteLength must be 256."
  | .paddingNotZero => "EncryptedOutputNoteV2 paddingBytes must be zero padding."
  | .otherChain => "EncryptedOutputNoteV2 chainId does not match the active chain."
  | .otherContract =>
    "EncryptedOutputNoteV2 verifyingContract does not match the configured pool."
  | .otherCommitment =>
    "EncryptedOutputNoteV2 outputCommitment does not match the withdrawal output."
  | .tooLong => "EncryptedOutputNoteV2 ciphertext exceeds fixed padded length."

/-- `ENCRYPTED_OUTPUT_NOTE_V2_DOMAIN`. -/
def encryptedOutputNoteV2Domain : Text := "nullark.encrypted-output-note.v2".toList

/-- `ENCRYPTED_OUTPUT_NOTE_V2_PADDED_CIPHERTEXT_BYTES`. -/
def paddedCiphertextBytes : ℕ := 256

def zeroBytes32Text : Text := zeroBytesText 32

def zeroBytes24Text : Text := zeroBytesText 24

/-- **The envelope**, without the fields that are always the same. -/
structure EncryptedOutputNoteV2Envelope where
  chainId : ℕ
  verifyingContract : Text
  outputCommitment : Text
  proofContextHash : Text
  ephemeralPublicKey : Text
  nonce : Text
  ciphertext : Text
  ciphertextByteLength : ℕ
  paddingBytes : Text
  paddingByteLength : ℕ
  paddedCiphertextByteLength : ℕ
  deriving DecidableEq, Repr

/-- The fields, in their order. -/
def EncryptedOutputNoteV2Envelope.members (e : EncryptedOutputNoteV2Envelope) :
    List (Text × Scalar) :=
  [("version".toList, .number 2), ("domain".toList, .string encryptedOutputNoteV2Domain),
    ("chainId".toList, .number e.chainId),
    ("verifyingContract".toList, .string e.verifyingContract),
    ("action".toList, .string "withdraw-output".toList),
    ("outputCommitment".toList, .string e.outputCommitment),
    ("proofContextHash".toList, .string e.proofContextHash),
    ("ephemeralPublicKey".toList, .string e.ephemeralPublicKey),
    ("nonce".toList, .string e.nonce), ("ciphertext".toList, .string e.ciphertext),
    ("ciphertextByteLength".toList, .number e.ciphertextByteLength),
    ("paddingBytes".toList, .string e.paddingBytes),
    ("paddingByteLength".toList, .number e.paddingByteLength),
    ("paddedCiphertextByteLength".toList, .number e.paddedCiphertextByteLength)]

/-- The envelope as a value. -/
def EncryptedOutputNoteV2Envelope.value (e : EncryptedOutputNoteV2Envelope) : Value :=
  .object (e.members.map fun m => (m.1, m.2.value))

/-- `ENCRYPTED_OUTPUT_NOTE_V2_FIELDS`. -/
def encryptedOutputNoteV2Fields : List Text :=
  ["version", "domain", "chainId", "verifyingContract", "action", "outputCommitment",
    "proofContextHash", "ephemeralPublicKey", "nonce", "ciphertext", "ciphertextByteLength",
    "paddingBytes", "paddingByteLength", "paddedCiphertextByteLength"].map String.toList

/-! ### Checks -/

/-- `(value.length - 2) / 2`. -/
def hexByteLength (t : Text) : ℕ := (t.length - 2) / 2

/-- `/^0x(?:[0-9a-fA-F]{2})+$/`. -/
def isNonEmptyHex (t : Text) : Prop := isHexString t ∧ t ≠ ['0', 'x']

instance (t : Text) : Decidable (isNonEmptyHex t) := inferInstanceAs (Decidable (_ ∧ _))

/-- `/^0x(?:00)*$/`. -/
def isZeroBytes (t : Text) : Prop := t = zeroBytesText (hexByteLength t)

instance (t : Text) : Decidable (isZeroBytes t) := inferInstanceAs (Decidable (_ = _))

/-- `/^0x[0-9a-fA-F]{48}$/`. -/
def isHexBytes24 (t : Text) : Prop := isHexOfLength 48 t

instance (t : Text) : Decidable (isHexBytes24 t) := inferInstanceAs (Decidable (isHexOfLength 48 t))

/-- `value === expected`. -/
def strictEqual : Scalar → Option Value → Bool
  | .number n, some (.number (.finite q)) => q = n
  | .string t, some (.string s) => s = t
  | _, _ => false

def requireLiteral (expected : Scalar) (message : String) (value : Option Value) : Throws Unit :=
  ensure (strictEqual expected value = true) message

/-- A string of the pattern, in lower case. -/
def requirePattern (pattern : Text → Prop) [DecidablePred pattern] (message : String) :
    Option Value → Throws Text
  | some (.string t) => do
    ensure (pattern t) message
    return lower t
  | _ => .error message

section Code
variable (w : Wording)

def requireChainId (value : Option Value) : Throws ℕ :=
  if strictEqual (.number 4326) value then .ok 4326
  else if strictEqual (.number 6343) value then .ok 6343
  else .error (w .chainId)

def requireNonEmptyHex (value : Option Value) : Throws Text := do
  let hex ← requirePattern isHexString (w .ciphertextHex) value
  ensure (hex ≠ ['0', 'x']) (w .ciphertextEmpty)
  return hex

def requireSafeInteger (message : String) : Option Value → Throws ℕ
  | some (.number (.finite q)) => do
    ensure (q.den = 1 ∧ 0 ≤ q.num ∧ q.num < 2 ^ 53) message
    return q.num.toNat
  | _ => .error message

/-- An optional field, zero when it is missing or empty. -/
def requireOrZero (pattern : Text → Prop) [DecidablePred pattern] (message : String) (zero : Text) :
    Option Text → Throws Text
  | none => .ok zero
  | some [] => .ok zero
  | some t => requirePattern pattern message (some (.string t))

/-! ### The envelope -/

structure CreateInput where
  chainId : ℕ
  verifyingContract : Text
  outputCommitment : Text
  ciphertext : Text
  ephemeralPublicKey : Option Text := none
  nonce : Option Text := none
  paddedCiphertextByteLength : Option ℕ := none

/-- **`createEncryptedOutputNoteV2Envelope`**. -/
def createEncryptedOutputNoteV2Envelope (input : CreateInput) :
    Throws EncryptedOutputNoteV2Envelope := do
  let ciphertext ← requireNonEmptyHex w (some (.string input.ciphertext))
  let paddedCiphertextByteLength := input.paddedCiphertextByteLength.getD paddedCiphertextBytes
  let ciphertextByteLength := hexByteLength ciphertext
  ensure (ciphertextByteLength ≤ paddedCiphertextByteLength) (w .tooLong)
  let paddingByteLength := paddedCiphertextByteLength - ciphertextByteLength
  let chainId ← requireChainId w (some (.number (.finite input.chainId)))
  let verifyingContract ← requirePattern isEvmAddress (w .verifyingContract)
    (some (.string input.verifyingContract))
  let outputCommitment ← requirePattern isHexBytes32 (w .outputCommitment)
    (some (.string input.outputCommitment))
  let ephemeralPublicKey ← requireOrZero isHexBytes32 (w .ephemeralPublicKey) zeroBytes32Text
    input.ephemeralPublicKey
  let nonce ← requireOrZero isHexBytes24 (w .nonce) zeroBytes24Text input.nonce
  return {
    chainId, verifyingContract, outputCommitment, proofContextHash := zeroBytes32Text
    ephemeralPublicKey, nonce, ciphertext, ciphertextByteLength
    paddingBytes := zeroBytesText paddingByteLength
    paddingByteLength, paddedCiphertextByteLength }

structure CheckContext where
  chainId : Option ℕ := none
  verifyingContract : Option Text := none
  outputCommitment : Option Text := none

/-- The fields of a value, in lower case. -/
def normalizeEnvelope (members : List (Text × Value)) : Throws EncryptedOutputNoteV2Envelope := do
  let field (name : String) := Json.lookup members name.toList
  requireLiteral (.number 2) (w .version) (field "version")
  requireLiteral (.string encryptedOutputNoteV2Domain) (w .domain) (field "domain")
  let chainId ← requireChainId w (field "chainId")
  let verifyingContract ←
    requirePattern isEvmAddress (w .verifyingContract) (field "verifyingContract")
  requireLiteral (.string "withdraw-output".toList) (w .action) (field "action")
  let outputCommitment ←
    requirePattern isHexBytes32 (w .outputCommitment) (field "outputCommitment")
  let proofContextHash ←
    requirePattern isHexBytes32 (w .proofContextHash) (field "proofContextHash")
  let ephemeralPublicKey ←
    requirePattern isHexBytes32 (w .ephemeralPublicKey) (field "ephemeralPublicKey")
  let nonce ← requirePattern isHexBytes24 (w .nonce) (field "nonce")
  let ciphertext ← requireNonEmptyHex w (field "ciphertext")
  let ciphertextByteLength ←
    requireSafeInteger (w .ciphertextByteLength) (field "ciphertextByteLength")
  let paddingBytes ← requirePattern isHexString (w .paddingHex) (field "paddingBytes")
  let paddingByteLength ← requireSafeInteger (w .paddingByteLength) (field "paddingByteLength")
  let paddedCiphertextByteLength ←
    requireSafeInteger (w .paddedCiphertextByteLength) (field "paddedCiphertextByteLength")
  return {
    chainId, verifyingContract, outputCommitment, proofContextHash, ephemeralPublicKey, nonce
    ciphertext, ciphertextByteLength, paddingBytes, paddingByteLength, paddedCiphertextByteLength }

/-- **`validateEncryptedOutputNoteV2Envelope`**. -/
def validateEncryptedOutputNoteV2Envelope (value : Value) (checks : CheckContext) :
    Throws EncryptedOutputNoteV2Envelope :=
  match value with
  | .object members => do
    (Json.keys members).forM fun key =>
      ensure (key ∈ encryptedOutputNoteV2Fields) (w (.unexpectedField key))
    let normalized ← normalizeEnvelope w members
    ensure (hexByteLength normalized.ciphertext = normalized.ciphertextByteLength)
      (w .ciphertextMismatch)
    ensure (hexByteLength normalized.paddingBytes = normalized.paddingByteLength)
      (w .paddingMismatch)
    ensure (normalized.ciphertextByteLength + normalized.paddingByteLength =
      normalized.paddedCiphertextByteLength) (w .paddedMismatch)
    ensure (normalized.paddedCiphertextByteLength = paddedCiphertextBytes) (w .notPadded)
    ensure (isZeroBytes normalized.paddingBytes) (w .paddingNotZero)
    ensure (∀ chainId ∈ checks.chainId, normalized.chainId = chainId) (w .otherChain)
    ensure (∀ t ∈ checks.verifyingContract, normalized.verifyingContract = lower t)
      (w .otherContract)
    ensure (∀ t ∈ checks.outputCommitment, normalized.outputCommitment = lower t)
      (w .otherCommitment)
    return normalized
  | _ => .error (w .notObject)

/-- `serializeEncryptedOutputNoteV2EnvelopeToHex`. -/
def serializeEncryptedOutputNoteV2EnvelopeToHex (envelope : EncryptedOutputNoteV2Envelope) :
    Throws Text := do
  let envelope ← validateEncryptedOutputNoteV2Envelope w envelope.value {}
  return hexText (Utf8.encode (Json.printObject envelope.members))

/-- `parseEncryptedOutputNoteV2EnvelopeFromHex`. -/
def parseEncryptedOutputNoteV2EnvelopeFromHex (hex : Text) (checks : CheckContext) :
    Throws EncryptedOutputNoteV2Envelope := do
  ensure (isHexString hex) (w .notHex)
  match Json.parse (Utf8.decode (hexBytes hex)) with
  | some value => validateEncryptedOutputNoteV2Envelope w value checks
  | none => .error (w .notJson)

end Code

/-- The SDK's function says the same of all that is wrong. -/
def sdkParseFromHex (hex : Text) (checks : CheckContext) : Throws EncryptedOutputNoteV2Envelope :=
  (parseEncryptedOutputNoteV2EnvelopeFromHex sdkWording hex checks).mapError fun _ =>
    invalidEnvelope

/-! ### What is created -/

/-- What an envelope can be created from. -/
structure CreateInput.Fits (i : CreateInput) : Prop where
  ciphertext : isNonEmptyHex i.ciphertext
  length_le : hexByteLength i.ciphertext ≤ paddedCiphertextBytes
  chainId : i.chainId = 4326 ∨ i.chainId = 6343
  verifyingContract : isEvmAddress i.verifyingContract
  outputCommitment : isHexBytes32 i.outputCommitment
  ephemeralPublicKey : ∀ t ∈ i.ephemeralPublicKey, t ≠ [] → isHexBytes32 t
  nonce : ∀ t ∈ i.nonce, t ≠ [] → isHexBytes24 t

def orZero (zero : Text) : Option Text → Text
  | none => zero
  | some [] => zero
  | some t => lower t

/-- The envelope that is created. -/
def CreateInput.envelope (i : CreateInput) : EncryptedOutputNoteV2Envelope where
  chainId := i.chainId
  verifyingContract := lower i.verifyingContract
  outputCommitment := lower i.outputCommitment
  proofContextHash := zeroBytes32Text
  ephemeralPublicKey := orZero zeroBytes32Text i.ephemeralPublicKey
  nonce := orZero zeroBytes24Text i.nonce
  ciphertext := lower i.ciphertext
  ciphertextByteLength := hexByteLength i.ciphertext
  paddingBytes := zeroBytesText (paddedCiphertextBytes - hexByteLength i.ciphertext)
  paddingByteLength := paddedCiphertextBytes - hexByteLength i.ciphertext
  paddedCiphertextByteLength := paddedCiphertextBytes

section Create
variable {w : Wording}

theorem requirePattern_eq_ok {pattern : Text → Prop} [DecidablePred pattern] {message : String}
    {t r : Text} : requirePattern pattern message (some (.string t)) = .ok r ↔
      pattern t ∧ r = lower t := by
  unfold requirePattern
  simp only [bind_eq_ok, ensure_eq_ok, exists_const, pure_eq_ok, eq_comm (a := lower t)]

theorem requireOrZero_eq_ok {pattern : Text → Prop} [DecidablePred pattern] {message : String}
    {zero r : Text} {x : Option Text} : requireOrZero pattern message zero x = .ok r ↔
      (∀ t ∈ x, t ≠ [] → pattern t) ∧ r = orZero zero x := by
  rcases x with _ | _ | ⟨c, t⟩
  · simp [requireOrZero, orZero, eq_comm]
  · simp [requireOrZero, orZero, eq_comm]
  · simp [requireOrZero, orZero, requirePattern_eq_ok]

theorem lower_eq_zeroX {t : Text} (h : isHexString t) : lower t = ['0', 'x'] ↔ t = ['0', 'x'] := by
  obtain ⟨digits, rfl, -, -⟩ := isHexString_iff.mp h
  rw [lower_cons_hex]
  simp [lower]

theorem requireNonEmptyHex_eq_ok {t r : Text} :
    requireNonEmptyHex w (some (.string t)) = .ok r ↔ isNonEmptyHex t ∧ r = lower t := by
  unfold requireNonEmptyHex isNonEmptyHex
  simp only [bind_eq_ok, requirePattern_eq_ok, ensure_eq_ok, exists_const, pure_eq_ok]
  constructor
  · rintro ⟨_, ⟨hhex, rfl⟩, hne, rfl⟩
    exact ⟨⟨hhex, fun heq => hne ((lower_eq_zeroX hhex).mpr heq)⟩, rfl⟩
  · rintro ⟨⟨hhex, hne⟩, rfl⟩
    exact ⟨_, ⟨hhex, rfl⟩, fun heq => hne ((lower_eq_zeroX hhex).mp heq), rfl⟩

theorem strictEqual_number {n m : ℕ} :
    strictEqual (.number n) (some (.number (.finite m))) = true ↔ m = n := by
  rw [strictEqual, decide_eq_true_iff, Nat.cast_inj]

theorem requireChainId_eq_ok {n m : ℕ} :
    requireChainId w (some (.number (.finite n))) = .ok m ↔ (n = 4326 ∨ n = 6343) ∧ m = n := by
  unfold requireChainId
  simp only [strictEqual_number]
  split_ifs with h1 h2
  · rw [h1, Except.ok.injEq]
    omega
  · rw [h2, Except.ok.injEq]
    omega
  · simp [h1, h2]

theorem hexByteLength_lower (t : Text) : hexByteLength (lower t) = hexByteLength t := by
  rw [hexByteLength, length_lower, hexByteLength]

/-- **`createEncryptedOutputNoteV2Envelope`** accepts what fits. -/
theorem createEncryptedOutputNoteV2Envelope_eq_ok {i : CreateInput}
    {e : EncryptedOutputNoteV2Envelope} (hi : i.paddedCiphertextByteLength = none) :
    createEncryptedOutputNoteV2Envelope w i = .ok e ↔ i.Fits ∧ e = i.envelope := by
  unfold createEncryptedOutputNoteV2Envelope
  simp only [hi, Option.getD_none, bind_eq_ok, requireNonEmptyHex_eq_ok, ensure_eq_ok,
    requireChainId_eq_ok, requirePattern_eq_ok, requireOrZero_eq_ok, pure_eq_ok]
  constructor
  · rintro ⟨_, ⟨h1, rfl⟩, _, h2, _, ⟨h3, rfl⟩, _, ⟨h4, rfl⟩, _, ⟨h5, rfl⟩, _, ⟨h6, rfl⟩, _, ⟨h7, rfl⟩,
      rfl⟩
    rw [hexByteLength_lower] at h2 ⊢
    exact ⟨⟨h1, h2, h3, h4, h5, h6, h7⟩, rfl⟩
  · rintro ⟨⟨h1, h2, h3, h4, h5, h6, h7⟩, rfl⟩
    refine ⟨_, ⟨h1, rfl⟩, (), by rw [hexByteLength_lower]; exact h2, _, ⟨h3, rfl⟩, _, ⟨h4, rfl⟩, _,
      ⟨h5, rfl⟩, _, ⟨h6, rfl⟩, _, ⟨h7, rfl⟩, ?_⟩
    rw [hexByteLength_lower]
    rfl

end Create

/-! ### Well-formed envelopes -/

/-- A text of the pattern, in lower case. -/
def Lower (pattern : Text → Prop) (t : Text) : Prop := pattern t ∧ lower t = t

/-- **A well-formed envelope.** -/
structure WellFormed (e : EncryptedOutputNoteV2Envelope) : Prop where
  chainId : e.chainId = 4326 ∨ e.chainId = 6343
  verifyingContract : Lower isEvmAddress e.verifyingContract
  outputCommitment : Lower isHexBytes32 e.outputCommitment
  proofContextHash : Lower isHexBytes32 e.proofContextHash
  ephemeralPublicKey : Lower isHexBytes32 e.ephemeralPublicKey
  nonce : Lower isHexBytes24 e.nonce
  ciphertext : Lower isNonEmptyHex e.ciphertext
  ciphertextByteLength : e.ciphertextByteLength = hexByteLength e.ciphertext
  paddingBytes : e.paddingBytes = zeroBytesText e.paddingByteLength
  padded : e.ciphertextByteLength + e.paddingByteLength = paddedCiphertextBytes
  paddedCiphertextByteLength : e.paddedCiphertextByteLength = paddedCiphertextBytes

theorem hexByteLength_zeroBytesText (n : ℕ) : hexByteLength (zeroBytesText n) = n := by
  rw [hexByteLength, zeroBytesText, List.length_cons, List.length_cons, List.length_replicate]
  omega

theorem isHexOfLength_zeroBytesText (n : ℕ) : isHexOfLength (2 * n) (zeroBytesText n) := by
  refine ⟨List.length_replicate .., fun c hc => ?_⟩
  rw [List.eq_of_mem_replicate hc]
  decide

theorem lower_zeroBytesText (n : ℕ) : lower (zeroBytesText n) = zeroBytesText n := by
  rw [zeroBytesText, lower_cons_hex, lower, List.map_replicate]
  rfl

theorem isNonEmptyHex_lower {t : Text} (h : isNonEmptyHex t) : isNonEmptyHex (lower t) := by
  obtain ⟨digits, rfl, hlen, hd⟩ := isHexString_iff.mp h.1
  have hhex : isHexString (lower ('0' :: 'x' :: digits)) := by
    rw [lower_cons_hex]
    exact ⟨by rw [length_lower]; exact hlen, digits_lower hd⟩
  exact ⟨hhex, fun heq => h.2 ((lower_eq_zeroX h.1).mp heq)⟩

/-- The text of some bytes is a text of bytes, and not empty. -/
theorem isNonEmptyHex_hexText {bytes : Bytes} (h : bytes ≠ []) : isNonEmptyHex (hexText bytes) :=
  ⟨isHexString_hexText _, fun heq => h (hexText_injective (heq.trans rfl))⟩

theorem isHexOfLength_hexText {n : ℕ} {bytes : Bytes} (h : bytes.length = n) :
    isHexOfLength (2 * n) (hexText bytes) :=
  ⟨by rw [length_ofBytes, h], digits_ofBytes _⟩

theorem lower_orZero {n : ℕ} {x : Option Text}
    (h : ∀ t ∈ x, t ≠ [] → isHexOfLength (2 * n) t) :
    Lower (isHexOfLength (2 * n)) (orZero (zeroBytesText n) x) := by
  have hzero : Lower (isHexOfLength (2 * n)) (zeroBytesText n) :=
    ⟨isHexOfLength_zeroBytesText n, lower_zeroBytesText n⟩
  rcases x with _ | _ | ⟨c, t⟩
  · exact hzero
  · exact hzero
  · exact ⟨isHexOfLength_lower (h _ rfl (List.cons_ne_nil _ _)), lower_lower _⟩

/-- **What is created is well formed.** -/
theorem wellFormed_envelope {i : CreateInput} (h : i.Fits) : WellFormed i.envelope where
  chainId := h.chainId
  verifyingContract := ⟨isHexOfLength_lower h.verifyingContract, lower_lower _⟩
  outputCommitment := ⟨isHexOfLength_lower h.outputCommitment, lower_lower _⟩
  proofContextHash := ⟨isHexOfLength_zeroBytesText 32, lower_zeroBytesText 32⟩
  ephemeralPublicKey := lower_orZero (n := 32) h.ephemeralPublicKey
  nonce := lower_orZero (n := 24) h.nonce
  ciphertext := ⟨isNonEmptyHex_lower h.ciphertext, lower_lower _⟩
  ciphertextByteLength := (hexByteLength_lower _).symm
  paddingBytes := rfl
  padded := Nat.add_sub_cancel' h.length_le
  paddedCiphertextByteLength := rfl

/-- The envelope is the one that is checked for. -/
structure Matches (checks : CheckContext) (e : EncryptedOutputNoteV2Envelope) : Prop where
  chainId : ∀ chainId ∈ checks.chainId, e.chainId = chainId
  verifyingContract : ∀ t ∈ checks.verifyingContract, e.verifyingContract = lower t
  outputCommitment : ∀ t ∈ checks.outputCommitment, e.outputCommitment = lower t

theorem matches_empty (e : EncryptedOutputNoteV2Envelope) : Matches {} e :=
  ⟨fun _ h => (Option.not_mem_none _ h).elim, fun _ h => (Option.not_mem_none _ h).elim,
    fun _ h => (Option.not_mem_none _ h).elim⟩

section Read
variable {w : Wording} {e : EncryptedOutputNoteV2Envelope}

theorem names_members : e.members.map (·.1) = encryptedOutputNoteV2Fields := rfl

/-- A field of an envelope. -/
theorem lookup_members {name : Text} {x : Scalar} (h : (name, x) ∈ e.members) :
    Json.lookup (e.members.map fun m => (m.1, m.2.value)) name = some x.value := by
  refine Json.lookup_of_mem ?_ (List.mem_map_of_mem (f := fun m => (m.1, m.2.value)) h)
  have hnames : (e.members.map fun m => (m.1, m.2.value)).map (·.1) = e.members.map (·.1) := by
    rw [List.map_map]
    rfl
  rw [hnames, names_members]
  decide

theorem requireLiteral_value (x : Scalar) (message : String) :
    requireLiteral x message (some x.value) = .ok () := by
  cases x with
  | number n => exact ensure_of (strictEqual_number.mpr rfl)
  | string t => exact ensure_of (decide_eq_true rfl)

theorem requireSafeInteger_eq_ok {n m : ℕ} {message : String} :
    requireSafeInteger message (some (.number (.finite n))) = .ok m ↔ n < 2 ^ 53 ∧ m = n := by
  unfold requireSafeInteger
  dsimp only
  simp only [bind_eq_ok, ensure_eq_ok, pure_eq_ok, Rat.den_natCast, Rat.num_natCast, exists_const,
    true_and, Int.toNat_natCast]
  omega

theorem isHexString_zeroBytesText (n : ℕ) : isHexString (zeroBytesText n) :=
  isHexString_of_length (isHexOfLength_zeroBytesText n)

/-- The members have the fields of the envelope. -/
def Reads (members : List (Text × Value)) (e : EncryptedOutputNoteV2Envelope) : Prop :=
  ∀ m ∈ e.members, Json.lookup members m.1 = some m.2.value

/-- What is checked of each field. -/
structure Formatted (e : EncryptedOutputNoteV2Envelope) : Prop where
  chainId : e.chainId = 4326 ∨ e.chainId = 6343
  verifyingContract : isEvmAddress e.verifyingContract
  outputCommitment : isHexBytes32 e.outputCommitment
  proofContextHash : isHexBytes32 e.proofContextHash
  ephemeralPublicKey : isHexBytes32 e.ephemeralPublicKey
  nonce : isHexBytes24 e.nonce
  ciphertext : isNonEmptyHex e.ciphertext
  ciphertextByteLength : e.ciphertextByteLength < 2 ^ 53
  paddingBytes : isHexString e.paddingBytes
  paddingByteLength : e.paddingByteLength < 2 ^ 53
  paddedCiphertextByteLength : e.paddedCiphertextByteLength < 2 ^ 53

/-- The envelope in lower case. -/
def EncryptedOutputNoteV2Envelope.lowered (e : EncryptedOutputNoteV2Envelope) :
    EncryptedOutputNoteV2Envelope :=
  { e with
    verifyingContract := lower e.verifyingContract
    outputCommitment := lower e.outputCommitment
    proofContextHash := lower e.proofContextHash
    ephemeralPublicKey := lower e.ephemeralPublicKey
    nonce := lower e.nonce
    ciphertext := lower e.ciphertext
    paddingBytes := lower e.paddingBytes }

theorem reads_members (e : EncryptedOutputNoteV2Envelope) :
    Reads (e.members.map fun m => (m.1, m.2.value)) e := fun _ hm => lookup_members hm

/-- **The fields that are read.** -/
theorem normalizeEnvelope_eq_ok {members : List (Text × Value)} (h : Reads members e)
    {r : EncryptedOutputNoteV2Envelope} :
    normalizeEnvelope w members = .ok r ↔ Formatted e ∧ r = e.lowered := by
  simp only [Reads, EncryptedOutputNoteV2Envelope.members, List.forall_mem_cons] at h
  obtain ⟨h1, h2, h3, h4, h5, h6, h7, h8, h9, h10, h11, h12, h13, h14, -⟩ := h
  unfold normalizeEnvelope
  dsimp only
  rw [h1, requireLiteral_value, ok_bind, h2, requireLiteral_value, ok_bind, h3, h4, h5, h6, h7, h8,
    h9, h10, h11, h12, h13, h14]
  simp only [bind_eq_ok, Scalar.value, requireChainId_eq_ok, requirePattern_eq_ok,
    requireNonEmptyHex_eq_ok, requireSafeInteger_eq_ok, pure_eq_ok]
  constructor
  · rintro ⟨_, ⟨c3, rfl⟩, _, ⟨c4, rfl⟩, _, -, _, ⟨c6, rfl⟩, _, ⟨c7, rfl⟩, _, ⟨c8, rfl⟩, _, ⟨c9, rfl⟩,
      _, ⟨c10, rfl⟩, _, ⟨c11, rfl⟩, _, ⟨c12, rfl⟩, _, ⟨c13, rfl⟩, _, ⟨c14, rfl⟩, rfl⟩
    exact ⟨⟨c3, c4, c6, c7, c8, c9, c10, c11, c12, c13, c14⟩, rfl⟩
  · rintro ⟨⟨c3, c4, c6, c7, c8, c9, c10, c11, c12, c13, c14⟩, rfl⟩
    exact ⟨_, ⟨c3, rfl⟩, _, ⟨c4, rfl⟩, (), rfl, _, ⟨c6, rfl⟩, _, ⟨c7, rfl⟩, _, ⟨c8, rfl⟩, _,
      ⟨c9, rfl⟩, _, ⟨c10, rfl⟩, _, ⟨c11, rfl⟩, _, ⟨c12, rfl⟩, _, ⟨c13, rfl⟩, _, ⟨c14, rfl⟩, rfl⟩

/-- What is checked of the lengths. -/
structure Consistent (e : EncryptedOutputNoteV2Envelope) : Prop where
  ciphertextByteLength : hexByteLength e.ciphertext = e.ciphertextByteLength
  paddingByteLength : hexByteLength e.paddingBytes = e.paddingByteLength
  padded : e.ciphertextByteLength + e.paddingByteLength = e.paddedCiphertextByteLength
  paddedCiphertextByteLength : e.paddedCiphertextByteLength = paddedCiphertextBytes
  paddingBytes : isZeroBytes e.paddingBytes

/-- **What passes the checks.** -/
theorem validate_eq_ok {members : List (Text × Value)} (h : Reads members e)
    {checks : CheckContext} {r : EncryptedOutputNoteV2Envelope} :
    validateEncryptedOutputNoteV2Envelope w (.object members) checks = .ok r ↔
      (∀ key ∈ Json.keys members, key ∈ encryptedOutputNoteV2Fields) ∧ Formatted e ∧
        Consistent e.lowered ∧ Matches checks e.lowered ∧ r = e.lowered := by
  unfold validateEncryptedOutputNoteV2Envelope
  dsimp only
  simp only [bind_eq_ok, forM_eq_ok, ensure_eq_ok, exists_const, normalizeEnvelope_eq_ok h,
    pure_eq_ok]
  constructor
  · rintro ⟨hkeys, _, ⟨hf, rfl⟩, c1, c2, c3, c4, c5, m1, m2, m3, rfl⟩
    exact ⟨hkeys, hf, ⟨c1, c2, c3, c4, c5⟩, ⟨m1, m2, m3⟩, rfl⟩
  · rintro ⟨hkeys, hf, ⟨c1, c2, c3, c4, c5⟩, ⟨m1, m2, m3⟩, rfl⟩
    exact ⟨hkeys, _, ⟨hf, rfl⟩, c1, c2, c3, c4, c5, m1, m2, m3, rfl⟩

theorem WellFormed.formatted (h : WellFormed e) : Formatted e := by
  have hpadded : paddedCiphertextBytes = 256 := rfl
  have hsum := h.padded
  have htotal := h.paddedCiphertextByteLength
  exact ⟨h.chainId, h.verifyingContract.1, h.outputCommitment.1, h.proofContextHash.1,
    h.ephemeralPublicKey.1, h.nonce.1, h.ciphertext.1, by omega,
    h.paddingBytes ▸ isHexString_zeroBytesText _, by omega, by omega⟩

theorem WellFormed.lowered_eq (h : WellFormed e) : e.lowered = e := by
  have hpadding : lower e.paddingBytes = e.paddingBytes := by
    rw [h.paddingBytes, lower_zeroBytesText]
  unfold EncryptedOutputNoteV2Envelope.lowered
  rw [h.verifyingContract.2, h.outputCommitment.2, h.proofContextHash.2, h.ephemeralPublicKey.2,
    h.nonce.2, h.ciphertext.2, hpadding]

theorem WellFormed.consistent (h : WellFormed e) : Consistent e := by
  have hpadding : hexByteLength e.paddingBytes = e.paddingByteLength := by
    rw [h.paddingBytes, hexByteLength_zeroBytesText]
  have hzero : isZeroBytes e.paddingBytes := by
    rw [isZeroBytes, hpadding]
    exact h.paddingBytes
  exact ⟨h.ciphertextByteLength.symm, hpadding,
    h.padded.trans h.paddedCiphertextByteLength.symm, h.paddedCiphertextByteLength, hzero⟩

/-- **A well-formed envelope passes its checks** and is returned as it is. -/
theorem validate_value (h : WellFormed e) {checks : CheckContext} (hchecks : Matches checks e) :
    validateEncryptedOutputNoteV2Envelope w e.value checks = .ok e := by
  have hkeys : ∀ key ∈ Json.keys (e.members.map fun m => (m.1, m.2.value)),
      key ∈ encryptedOutputNoteV2Fields := by
    intro key hkey
    rw [Json.mem_keys, List.map_map] at hkey
    exact hkey
  refine (validate_eq_ok (reads_members e)).mpr ⟨hkeys, h.formatted, ?_, ?_, h.lowered_eq.symm⟩
  · rw [h.lowered_eq]
    exact h.consistent
  · rw [h.lowered_eq]
    exact hchecks

/-! ### The bytes of an envelope -/

/-- The text of an envelope. -/
def EncryptedOutputNoteV2Envelope.json (e : EncryptedOutputNoteV2Envelope) : Text :=
  Json.printObject e.members

/-- The bytes of an envelope. -/
def EncryptedOutputNoteV2Envelope.bytes (e : EncryptedOutputNoteV2Envelope) : Bytes :=
  Utf8.encode e.json

theorem serialize_of_wellFormed (h : WellFormed e) :
    serializeEncryptedOutputNoteV2EnvelopeToHex w e = .ok (hexText e.bytes) := by
  unfold serializeEncryptedOutputNoteV2EnvelopeToHex
  rw [validate_value h (matches_empty e), ok_bind]
  rfl

theorem exact_members (h : WellFormed e) : ∀ m ∈ e.members, m.2.Exact := by
  have hpadded := h.padded
  have hbound : paddedCiphertextBytes = 256 := rfl
  have hlength := h.paddedCiphertextByteLength
  have hchain : e.chainId < 2 ^ 53 := by rcases h.chainId with h | h <;> rw [h] <;> norm_num
  simp only [EncryptedOutputNoteV2Envelope.members, List.forall_mem_cons, Scalar.Exact, true_and]
  exact ⟨by norm_num, hchain, by omega, by omega, by omega, fun _ h => absurd h List.not_mem_nil⟩

/-- **An envelope is read back from its bytes.** -/
theorem parse_hexText_bytes (h : WellFormed e) {checks : CheckContext} (hchecks : Matches checks e) :
    parseEncryptedOutputNoteV2EnvelopeFromHex w (hexText e.bytes) checks = .ok e := by
  have hbrace : ('\x7b' : Char).toNat < 0x80 := by decide
  have hdecode : Utf8.decode e.bytes = e.json := Utf8.decode_encode hbrace
  have hparse : Json.parse e.json = some e.value :=
    Json.parse_printObject (List.cons_ne_nil _ _) (exact_members h)
  unfold parseEncryptedOutputNoteV2EnvelopeFromHex
  rw [ensure_of (isHexString_hexText _), ok_bind, hexBytes_hexText, hdecode, hparse]
  exact validate_value h hchecks

theorem plain_of_isHexString {t : Text} (h : isHexString t) : Plain t := by
  obtain ⟨digits, rfl, -, hd⟩ := isHexString_iff.mp h
  intro c hc
  rcases List.mem_cons.mp hc with rfl | hc
  · decide
  · rcases List.mem_cons.mp hc with rfl | hc
    · decide
    · exact Json.isPlain_of_isDigit (hd c hc)

theorem plain_of_isHexOfLength {n : ℕ} {t : Text} (h : isHexOfLength n t) : Plain t := by
  obtain ⟨digits, rfl, -, hd⟩ := isHexOfLength_iff.mp h
  intro c hc
  rcases List.mem_cons.mp hc with rfl | hc
  · decide
  · rcases List.mem_cons.mp hc with rfl | hc
    · decide
    · exact Json.isPlain_of_isDigit (hd c hc)

theorem plain_members (h : WellFormed e) : ∀ m ∈ e.members, Plain m.1 ∧ m.2.Plain := by
  have hnames : ∀ name ∈ encryptedOutputNoteV2Fields, Plain name := by decide
  have hscalars : ∀ m ∈ e.members, m.2.Plain := by
    have hdomain : Plain encryptedOutputNoteV2Domain := by decide
    have haction : Plain "withdraw-output".toList := by decide
    have hpadding : Plain e.paddingBytes :=
      h.paddingBytes ▸ plain_of_isHexString (isHexString_zeroBytesText _)
    simp only [EncryptedOutputNoteV2Envelope.members, List.forall_mem_cons, Scalar.Plain, true_and]
    exact ⟨hdomain, plain_of_isHexOfLength h.verifyingContract.1, haction,
      plain_of_isHexOfLength h.outputCommitment.1, plain_of_isHexOfLength h.proofContextHash.1,
      plain_of_isHexOfLength h.ephemeralPublicKey.1, plain_of_isHexOfLength h.nonce.1,
      plain_of_isHexString h.ciphertext.1.1, hpadding, fun _ h => absurd h List.not_mem_nil⟩
  exact fun m hm => ⟨hnames m.1 (names_members ▸ List.mem_map_of_mem (f := (·.1)) hm),
    hscalars m hm⟩

theorem length_of_isHexOfLength {n : ℕ} {t : Text} (h : isHexOfLength n t) : t.length = n + 2 := by
  obtain ⟨digits, rfl, hlen, -⟩ := isHexOfLength_iff.mp h
  rw [List.length_cons, List.length_cons, hlen]

theorem length_of_isHexString {t : Text} (h : isHexString t) :
    t.length = 2 * hexByteLength t + 2 := by
  obtain ⟨digits, rfl, heven, -⟩ := isHexString_iff.mp h
  rw [hexByteLength, List.length_cons, List.length_cons]
  omega

theorem length_printScalar_of_plain {t : Text} (h : Plain t) :
    (Json.printScalar (.string t)).length = t.length + 2 := by
  rw [Json.printScalar, Json.printString_of_plain h]
  simp

theorem length_printScalar_of_isHexOfLength {n : ℕ} {t : Text} (h : isHexOfLength n t) :
    (Json.printScalar (.string t)).length = n + 4 := by
  rw [length_printScalar_of_plain (plain_of_isHexOfLength h), length_of_isHexOfLength h]

theorem length_printScalar_of_isHexString {t : Text} (h : isHexString t) :
    (Json.printScalar (.string t)).length = 2 * hexByteLength t + 4 := by
  rw [length_printScalar_of_plain (plain_of_isHexString h), length_of_isHexString h]

theorem lengths_names : e.members.map (fun m => m.1.length) =
    [7, 6, 7, 17, 6, 16, 16, 18, 5, 10, 20, 12, 17, 26] := by
  have hfields : e.members.map (fun m => m.1.length) =
      encryptedOutputNoteV2Fields.map List.length := by
    rw [← names_members (e := e), List.map_map]
    exact List.map_congr_left fun _ _ => rfl
  rw [hfields]
  decide

theorem lengths_scalars (h : WellFormed e) : e.members.map (fun m => (Json.printScalar m.2).length) =
    [1, 34, 4, 44, 17, 68, 68, 68, 52, 2 * e.ciphertextByteLength + 4,
      (Decimal.ofNat e.ciphertextByteLength).length, 2 * e.paddingByteLength + 4,
      (Decimal.ofNat e.paddingByteLength).length, 3] := by
  have hversion : (Json.printScalar (.number 2)).length = 1 := by decide
  have hdomain : (Json.printScalar (.string encryptedOutputNoteV2Domain)).length = 34 := by decide
  have hchain : (Json.printScalar (.number e.chainId)).length = 4 := by
    rcases h.chainId with h | h <;> rw [h] <;> decide
  have haction : (Json.printScalar (.string "withdraw-output".toList)).length = 17 := by decide
  have htotal : (Json.printScalar (.number e.paddedCiphertextByteLength)).length = 3 := by
    rw [h.paddedCiphertextByteLength]
    decide
  have hpadding : (Json.printScalar (.string e.paddingBytes)).length =
      2 * e.paddingByteLength + 4 := by
    rw [h.paddingBytes, length_printScalar_of_isHexString (isHexString_zeroBytesText _),
      hexByteLength_zeroBytesText]
  have hciphertext := length_printScalar_of_isHexString h.ciphertext.1.1
  rw [← h.ciphertextByteLength] at hciphertext
  simp only [EncryptedOutputNoteV2Envelope.members, List.map_cons, List.map_nil, hversion, hdomain,
    hchain, haction, htotal, hpadding, hciphertext,
    length_printScalar_of_isHexOfLength h.verifyingContract.1,
    length_printScalar_of_isHexOfLength h.outputCommitment.1,
    length_printScalar_of_isHexOfLength h.proofContextHash.1,
    length_printScalar_of_isHexOfLength h.ephemeralPublicKey.1,
    length_printScalar_of_isHexOfLength h.nonce.1]
  rfl

/-- **The length of an envelope**: only the digits of its two lengths are not fixed. -/
theorem length_bytes (h : WellFormed e) : e.bytes.length =
    1119 + (Decimal.ofNat e.ciphertextByteLength).length +
      (Decimal.ofNat e.paddingByteLength).length := by
  have hplain := plain_members h
  have hpadded : e.ciphertextByteLength + e.paddingByteLength = 256 := h.padded
  have hencode : e.bytes.length = e.json.length := Utf8.length_encode (Json.ascii_printObject hplain)
  have hlength : e.json.length =
      1 + (e.members.map fun m => m.1.length + (Json.printScalar m.2).length + 4).sum :=
    Json.length_printObject (List.cons_ne_nil _ _) fun m hm => (hplain m hm).1
  have hsum : (e.members.map fun m => m.1.length + (Json.printScalar m.2).length + 4).sum =
      (e.members.map fun m => m.1.length).sum +
        (e.members.map fun m => (Json.printScalar m.2).length).sum +
        (e.members.map fun _ => 4).sum := by
    rw [← List.sum_map_add, ← List.sum_map_add]
  have hfour : (e.members.map fun _ => 4).sum = 56 := rfl
  rw [hencode, hlength, hsum, hfour, lengths_names, lengths_scalars h]
  simp only [List.sum_cons, List.sum_nil]
  omega

/-- An envelope fits the limit of the pool. -/
theorem length_bytes_le (h : WellFormed e) : 0 < e.bytes.length ∧ e.bytes.length ≤ 1125 := by
  have hlength := length_bytes h
  have hpadded : e.ciphertextByteLength + e.paddingByteLength = 256 := h.padded
  have hdigits : ∀ {n : ℕ}, n ≤ 256 → (Decimal.ofNat n).length ≤ 3 := fun hn =>
    Decimal.length_ofNat_le (by decide) (by omega)
  have h1 := hdigits (show e.ciphertextByteLength ≤ 256 by omega)
  have h2 := hdigits (show e.paddingByteLength ≤ 256 by omega)
  omega

end Read

end Nullark.Js.OutputNoteEnvelope
