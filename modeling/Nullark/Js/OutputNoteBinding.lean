import Nullark.Js.OutputNoteEnvelope

/-! # The binding of an output note

The relay checks that the envelope of a withdrawal is bound to the chain, the pool and the new
commitment, and the indexer checks the same of the notes it returns. Both functions list what is
wrong. They compare the pool and the commitment up to case and look at no pattern, so that a text
that begins with `0X` passes, which the parsers of the SDK and of the web app refuse.

* `validateForBinding_eq_nil`: what has no errors.
* `parse_of_bound`: what of it the parsers accept.
* `one_format_iff`: the four agree on all other bytes. -/

namespace Nullark.Js.OutputNoteBinding

open Nullark.Lib Nullark.Lib.Outcome
open Nullark.Lib.Hex hiding value ofNat
open Nullark.Lib.Json (Value Scalar)
open Nullark.Evm.Basic Nullark.Js.Basic Nullark.Js.Bytes Nullark.Js.OutputNoteEnvelope

/-! ### The code -/

/-- What an envelope is bound to. -/
structure Binding where
  chainId : ℕ
  pool : Text
  outputCommitment : Text
  deriving DecidableEq, Repr

/-- `typeof value === "string" && pattern.test(value)`. -/
def isText (pattern : Text → Prop) [DecidablePred pattern] : Option Value → Prop
  | some (.string t) => pattern t
  | _ => False

instance (pattern : Text → Prop) [DecidablePred pattern] :
    (value : Option Value) → Decidable (isText pattern value)
  | some (.string t) => inferInstanceAs (Decidable (pattern t))
  | none | some .null | some (.bool _) | some (.number _) | some (.array _) | some (.object _) =>
    isFalse id

/-- `isBytes32`. -/
abbrev isBytes32 : Option Value → Prop := isText isHexBytes32

/-- `isEvenHex`. -/
abbrev isEvenHex : Option Value → Prop := isText isHexString

/-- A string that is the expected one up to case. -/
abbrev isUpToCase (expected : Text) : Option Value → Prop :=
  isText fun t => lower t = lower expected

/-- The length of the bytes of a text, or `-1`. -/
def byteLengthOf : Option Value → ℤ
  | some (.string t) => if isHexString t then hexByteLength t else -1
  | _ => -1

/-- `value === n`. -/
def isNumber (n : ℤ) : Option Value → Prop
  | some (.number (.finite q)) => q = n
  | _ => False

instance (n : ℤ) : (value : Option Value) → Decidable (isNumber n value)
  | some (.number (.finite q)) => inferInstanceAs (Decidable (q = n))
  | some (.number (.infinite _))
  | none | some .null | some (.bool _) | some (.string _) | some (.array _) | some (.object _) =>
    isFalse id

def outputNoteError (problem : String) : String :=
  "v1.2 unlinkable withdrawal encrypted output note " ++ problem

/-- What is wrong with the fields of an envelope. -/
def bindingErrors (version : ℕ) (members : List (Text × Value)) (checks : Binding) : List String :=
  let field (name : String) := Json.lookup members name.toList
  let ciphertextByteLength := byteLengthOf (field "ciphertext")
  let paddingByteLength := byteLengthOf (field "paddingBytes")
  errorWhen (∃ key ∈ Json.keys members, key ∉ encryptedOutputNoteV2Fields)
      (outputNoteError "must be a fixed-shape EncryptedOutputNoteV2 envelope") ++
  errorWhen (¬isNumber version (field "version") ∨
        ¬isText (· = encryptedOutputNoteV2Domain) (field "domain"))
      (outputNoteError "must be a valid EncryptedOutputNoteV2 envelope") ++
  errorWhen (¬isText (· = "withdraw-output".toList) (field "action"))
      (outputNoteError "action must be withdraw-output") ++
  errorWhen (¬isNumber checks.chainId (field "chainId"))
      (outputNoteError "chain does not match binding") ++
  errorWhen (¬isUpToCase checks.pool (field "verifyingContract"))
      (outputNoteError "pool does not match binding") ++
  errorWhen (¬isUpToCase checks.outputCommitment (field "outputCommitment"))
      (outputNoteError "commitment does not match binding") ++
  errorWhen (¬isBytes32 (field "proofContextHash") ∨ ¬isBytes32 (field "ephemeralPublicKey"))
      (outputNoteError
        "V2 fixed fields must include bytes32 proofContextHash and ephemeralPublicKey") ++
  errorWhen (isBytes32 (field "proofContextHash") ∧
        ¬isUpToCase zeroBytes32Text (field "proofContextHash"))
      (outputNoteError "proofContextHash must be zero until envelope binding v3") ++
  errorWhen (¬isText isHexBytes24 (field "nonce")) (outputNoteError "nonce must be bytes24") ++
  errorWhen (¬isEvenHex (field "ciphertext") ∨ ciphertextByteLength = 0)
      (outputNoteError "ciphertext must be nonempty even-length hex") ++
  errorWhen (¬isEvenHex (field "paddingBytes"))
      (outputNoteError "padding must be even-length hex") ++
  errorWhen (¬isNumber ciphertextByteLength (field "ciphertextByteLength") ∨
        ¬isNumber paddingByteLength (field "paddingByteLength") ∨
        ¬isNumber 256 (field "paddedCiphertextByteLength") ∨
        ¬isNumber (ciphertextByteLength + paddingByteLength) (field "paddedCiphertextByteLength"))
      (outputNoteError "must be fixed-shape padded to 256 bytes") ++
  errorWhen (¬isText isZeroBytes (field "paddingBytes"))
      (outputNoteError "padding must be zero bytes")

/-- The bytes as a value. -/
def valueOf (encryptedOutputNote : Text) : Option Value :=
  Json.parse (Utf8.decode (hexBytes encryptedOutputNote))

/-- **`validateEncryptedOutputNoteV2EnvelopeForBinding`**: the errors, each once. -/
def validateForBinding (version : ℕ) (encryptedOutputNote : Text) (checks : Binding) :
    List String :=
  match valueOf encryptedOutputNote with
  | some (.object members) => (bindingErrors version members checks).eraseDups
  | _ => [outputNoteError "must be a valid EncryptedOutputNoteV2 envelope"]

/-- `ENCRYPTED_OUTPUT_NOTE_V2_VERSION`. -/
def encryptedOutputNoteV2Version : ℕ := 2

/-- The function of the relay. -/
def relayValidateForBinding (encryptedOutputNote : Text) (checks : Binding) : List String :=
  validateForBinding encryptedOutputNoteV2Version encryptedOutputNote checks

/-- The function of the indexer. -/
def indexerValidateForBinding (encryptedOutputNote : Text) (checks : Binding) : List String :=
  validateForBinding 2 encryptedOutputNote checks

/-- The checks of the SDK and of the web app for a binding. -/
def Binding.context (checks : Binding) : CheckContext where
  chainId := some checks.chainId
  verifyingContract := some checks.pool
  outputCommitment := some checks.outputCommitment

/-! ### What has no errors -/

theorem isText_iff {pattern : Text → Prop} [DecidablePred pattern] {value : Option Value} :
    isText pattern value ↔ ∃ t, value = some (.string t) ∧ pattern t := by
  constructor
  · intro h
    unfold isText at h
    split at h
    · exact ⟨_, rfl, h⟩
    · exact h.elim
  · rintro ⟨t, rfl, h⟩
    exact h

theorem isNumber_iff {n : ℤ} {value : Option Value} :
    isNumber n value ↔ value = some (.number (.finite n)) := by
  constructor
  · intro h
    unfold isNumber at h
    split at h
    · rw [h]
    · exact h.elim
  · rintro rfl
    exact rfl

theorem byteLengthOf_string {t : Text} (h : isHexString t) :
    byteLengthOf (some (.string t)) = hexByteLength t := if_pos h

/-- **An envelope of a binding**, as far as the relay and the indexer look. -/
structure Bound (checks : Binding) (e : EncryptedOutputNoteV2Envelope) : Prop where
  chainId : e.chainId = checks.chainId
  verifyingContract : lower e.verifyingContract = lower checks.pool
  outputCommitment : lower e.outputCommitment = lower checks.outputCommitment
  proofContextHash : isHexBytes32 e.proofContextHash
  proofContextHash_zero : lower e.proofContextHash = zeroBytes32Text
  ephemeralPublicKey : isHexBytes32 e.ephemeralPublicKey
  nonce : isHexBytes24 e.nonce
  ciphertext : isNonEmptyHex e.ciphertext
  ciphertextByteLength : e.ciphertextByteLength = hexByteLength e.ciphertext
  paddingBytes : isZeroBytes e.paddingBytes
  paddingByteLength : e.paddingByteLength = hexByteLength e.paddingBytes
  padded : e.ciphertextByteLength + e.paddingByteLength = paddedCiphertextBytes
  paddedCiphertextByteLength : e.paddedCiphertextByteLength = paddedCiphertextBytes

/-- The bytes are the text of an object with the fields of the envelope and no others. -/
def Carries (encryptedOutputNote : Text) (e : EncryptedOutputNoteV2Envelope) : Prop :=
  ∃ members, valueOf encryptedOutputNote = some (.object members) ∧
    (∀ key ∈ Json.keys members, key ∈ encryptedOutputNoteV2Fields) ∧ Reads members e

theorem isHexString_of_isZeroBytes {t : Text} (h : isZeroBytes t) : isHexString t := by
  rw [isZeroBytes] at h
  exact h ▸ isHexString_zeroBytesText _

theorem isNonEmptyHex_iff {t : Text} : isNonEmptyHex t ↔ isHexString t ∧ hexByteLength t ≠ 0 := by
  refine and_congr_right fun h => ?_
  have hlen := length_of_isHexString h
  obtain ⟨digits, rfl, -, -⟩ := isHexString_iff.mp h
  rw [List.length_cons, List.length_cons] at hlen
  cases digits with
  | nil =>
    have hzero : hexByteLength ['0', 'x'] = 0 := rfl
    simp [hzero]
  | cons c digits =>
    rw [List.length_cons] at hlen
    have hne : hexByteLength ('0' :: 'x' :: c :: digits) ≠ 0 := by omega
    simp [hne]

section Errors
variable {members : List (Text × Value)} {checks : Binding}

theorem bindingErrors_eq_nil : bindingErrors 2 members checks = [] ↔
    (∀ key ∈ Json.keys members, key ∈ encryptedOutputNoteV2Fields) ∧
    Json.lookup members "version".toList = some (.number (.finite 2)) ∧
    Json.lookup members "domain".toList = some (.string encryptedOutputNoteV2Domain) ∧
    Json.lookup members "action".toList = some (.string "withdraw-output".toList) ∧
    Json.lookup members "chainId".toList = some (.number (.finite checks.chainId)) ∧
    isUpToCase checks.pool (Json.lookup members "verifyingContract".toList) ∧
    isUpToCase checks.outputCommitment (Json.lookup members "outputCommitment".toList) ∧
    isBytes32 (Json.lookup members "proofContextHash".toList) ∧
    isBytes32 (Json.lookup members "ephemeralPublicKey".toList) ∧
    isUpToCase zeroBytes32Text (Json.lookup members "proofContextHash".toList) ∧
    isText isHexBytes24 (Json.lookup members "nonce".toList) ∧
    isEvenHex (Json.lookup members "ciphertext".toList) ∧
    byteLengthOf (Json.lookup members "ciphertext".toList) ≠ 0 ∧
    isEvenHex (Json.lookup members "paddingBytes".toList) ∧
    isNumber (byteLengthOf (Json.lookup members "ciphertext".toList))
      (Json.lookup members "ciphertextByteLength".toList) ∧
    isNumber (byteLengthOf (Json.lookup members "paddingBytes".toList))
      (Json.lookup members "paddingByteLength".toList) ∧
    isNumber 256 (Json.lookup members "paddedCiphertextByteLength".toList) ∧
    isNumber (byteLengthOf (Json.lookup members "ciphertext".toList) +
        byteLengthOf (Json.lookup members "paddingBytes".toList))
      (Json.lookup members "paddedCiphertextByteLength".toList) ∧
    isText isZeroBytes (Json.lookup members "paddingBytes".toList) := by
  have hequal : ∀ {s : Text} {value : Option Value},
      isText (· = s) value ↔ value = some (.string s) := by
    intro s value
    rw [isText_iff]
    exact ⟨fun ⟨t, h, heq⟩ => heq ▸ h, fun h => ⟨s, h, rfl⟩⟩
  have hnumber : ∀ {n : ℕ} {value : Option Value},
      isNumber n value ↔ value = some (.number (.finite n)) := by
    intro n value
    rw [isNumber_iff, Int.cast_natCast]
  unfold bindingErrors
  simp only [List.append_eq_nil_iff, errorWhen_eq_nil, not_or, not_not, not_exists, not_and,
    hequal, hnumber, and_assoc]
  refine and_congr_right fun _ => and_congr_right fun _ => and_congr_right fun _ =>
    and_congr_right fun _ => and_congr_right fun _ => and_congr_right fun _ =>
    and_congr_right fun _ => and_congr_right fun hcontext => and_congr_right fun _ => ?_
  exact and_congr ⟨fun h => h hcontext, fun h _ => h⟩ Iff.rfl

/-- **The fields of a binding have no errors.** -/
theorem bindingErrors_of_bound {e : EncryptedOutputNoteV2Envelope}
    (hkeys : ∀ key ∈ Json.keys members, key ∈ encryptedOutputNoteV2Fields)
    (hreads : Reads members e) (h : Bound checks e) : bindingErrors 2 members checks = [] := by
  obtain ⟨hhex, hlength⟩ := isNonEmptyHex_iff.mp h.ciphertext
  have hpadding := isHexString_of_isZeroBytes h.paddingBytes
  have hzero : lower zeroBytes32Text = zeroBytes32Text := lower_zeroBytesText 32
  have htotal := h.paddedCiphertextByteLength
  have hsum := h.padded
  rw [h.ciphertextByteLength, h.paddingByteLength] at hsum
  simp only [Reads, EncryptedOutputNoteV2Envelope.members, List.forall_mem_cons, Scalar.value]
    at hreads
  obtain ⟨h1, h2, h3, h4, h5, h6, h7, h8, h9, h10, h11, h12, h13, h14, -⟩ := hreads
  rw [bindingErrors_eq_nil, h1, h2, h3, h4, h5, h6, h7, h8, h9, h10, h11, h12, h13, h14,
    byteLengthOf_string hhex, byteLengthOf_string hpadding, isNumber_iff, isNumber_iff,
    isNumber_iff, isNumber_iff, h.chainId, h.ciphertextByteLength, h.paddingByteLength, htotal]
  refine ⟨hkeys, rfl, rfl, rfl, rfl, h.verifyingContract, h.outputCommitment, h.proofContextHash,
    h.ephemeralPublicKey, h.proofContextHash_zero.trans hzero.symm, h.nonce, hhex, ?_, hpadding,
    by norm_cast, by norm_cast, by norm_num [paddedCiphertextBytes], ?_, h.paddingBytes⟩
  · exact_mod_cast hlength
  · rw [← hsum]
    push_cast
    rfl

/-- **Fields without errors are those of a binding.** -/
theorem bound_of_bindingErrors (h : bindingErrors 2 members checks = []) :
    (∀ key ∈ Json.keys members, key ∈ encryptedOutputNoteV2Fields) ∧
      ∃ e, Reads members e ∧ Bound checks e := by
  simp only [bindingErrors_eq_nil, isText_iff, isNumber_iff] at h
  obtain ⟨hkeys, h1, h2, h5, h3, ⟨contract, h4, hcontract⟩, ⟨commitment, h6, hcommitment⟩,
    ⟨context, h7, hcontext⟩, ⟨key, h8, hkey⟩, ⟨context', h7', hzero⟩, ⟨nonce, h9, hnonce⟩,
    ⟨ciphertext, h10, hhex⟩, hlength, ⟨padding, h12, hpadding⟩, h11, h13, h14, hsum,
    ⟨padding', h12', hpad⟩⟩ := h
  obtain rfl : context = context' := by rw [h7] at h7'; simpa using h7'
  obtain rfl : padding = padding' := by rw [h12] at h12'; simpa using h12'
  rw [h10, byteLengthOf_string hhex] at hlength h11
  rw [h12, byteLengthOf_string hpadding] at h13
  rw [h10, h12, byteLengthOf_string hhex, byteLengthOf_string hpadding, h14] at hsum
  have hpadded : hexByteLength ciphertext + hexByteLength padding = paddedCiphertextBytes := by
    have heq : (256 : ℚ) = ((hexByteLength ciphertext + hexByteLength padding : ℤ) : ℚ) := by
      simpa using hsum
    have : (256 : ℤ) = hexByteLength ciphertext + hexByteLength padding := by exact_mod_cast heq
    have hbytes : paddedCiphertextBytes = 256 := rfl
    omega
  refine ⟨hkeys, ⟨checks.chainId, contract, commitment, context, key, nonce, ciphertext,
    hexByteLength ciphertext, padding, hexByteLength padding, paddedCiphertextBytes⟩, ?_,
    rfl, hcontract, hcommitment, hcontext, hzero.trans (lower_zeroBytesText 32), hkey, hnonce,
    isNonEmptyHex_iff.mpr ⟨hhex, by exact_mod_cast hlength⟩, rfl, hpad, rfl, hpadded, rfl⟩
  simp only [Reads, EncryptedOutputNoteV2Envelope.members, List.forall_mem_cons, Scalar.value]
  exact ⟨by exact_mod_cast h1, h2, h3, h4, h5, h6, h7, h8, h9, h10, by exact_mod_cast h11, h12,
    by exact_mod_cast h13, by exact_mod_cast h14, fun _ h => absurd h List.not_mem_nil⟩

/-- **What has no errors.** -/
theorem validateForBinding_eq_nil {encryptedOutputNote : Text} :
    validateForBinding 2 encryptedOutputNote checks = [] ↔
      ∃ e, Carries encryptedOutputNote e ∧ Bound checks e := by
  have hdups : ∀ {errors : List String}, errors.eraseDups = [] ↔ errors = [] := by
    intro errors
    cases errors with
    | nil => simp
    | cons error errors => simp [List.eraseDups_cons]
  unfold validateForBinding
  constructor
  · intro h
    split at h
    · rename_i members hvalue
      obtain ⟨hkeys, e, hreads, hbound⟩ := bound_of_bindingErrors (hdups.mp h)
      exact ⟨e, ⟨members, hvalue, hkeys, hreads⟩, hbound⟩
    · simp at h
  · rintro ⟨e, ⟨members, hvalue, hkeys, hreads⟩, hbound⟩
    rw [hvalue]
    exact hdups.mpr (bindingErrors_of_bound hkeys hreads hbound)

end Errors

theorem relayValidateForBinding_eq_nil {encryptedOutputNote : Text} {checks : Binding} :
    relayValidateForBinding encryptedOutputNote checks = [] ↔
      ∃ e, Carries encryptedOutputNote e ∧ Bound checks e := validateForBinding_eq_nil

/-! ### What the parsers accept -/

/-- A binding of a chain, a pool and a commitment. -/
structure Binding.Valid (checks : Binding) : Prop where
  chainId : checks.chainId = 4326 ∨ checks.chainId = 6343
  pool : isEvmAddress checks.pool
  outputCommitment : isHexBytes32 checks.outputCommitment

/-- A text that begins with `0X`. -/
def isCapital (t : Text) : Prop := ∃ digits, t = '0' :: 'X' :: digits

theorem toLower_eq {c : Char} (h : c.toLower = '0' ∨ c.toLower = 'x') :
    c = '0' ∨ c = 'x' ∨ c = 'X' := by
  by_cases hc : 65 ≤ c.toNat ∧ c.toNat ≤ 90
  · have hall : ∀ n ≤ 90, 65 ≤ n → ((Char.ofNat n).toLower = '0' ∨ (Char.ofNat n).toLower = 'x') →
        Char.ofNat n = 'X' := by decide
    have hx := hall c.toNat hc.2 hc.1
    rw [Char.ofNat_toNat] at hx
    exact .inr (.inr (hx h))
  · have hlower : c.toLower = c := dif_neg hc
    rw [hlower] at h
    tauto

/-- A text that is one of the pattern up to case is of the pattern, or its `x` is a capital. -/
theorem isHexOfLength_iff_not_isCapital {n : ℕ} {s t : Text} (hs : isHexOfLength n s)
    (h : lower t = lower s) : isHexOfLength n t ↔ ¬isCapital t := by
  obtain ⟨digits, rfl, hlen, hd⟩ := isHexOfLength_iff.mp hs
  rw [lower_cons_hex] at h
  rcases t with _ | ⟨a, _ | ⟨b, rest⟩⟩
  · simp [lower] at h
  · simp [lower] at h
  · rw [lower, List.map_cons, List.map_cons, List.cons.injEq, List.cons.injEq] at h
    obtain ⟨ha, hb, hrest⟩ := h
    obtain rfl : a = '0' := by
      rcases toLower_eq (.inl ha) with rfl | rfl | rfl
      · rfl
      · exact absurd ha (by decide)
      · exact absurd ha (by decide)
    have hdigits : rest.length = n ∧ Digits rest := by
      refine ⟨?_, digits_of_lower ?_⟩
      · rw [← hlen, ← length_lower rest, ← length_lower digits]
        exact congrArg List.length hrest
      · exact (show lower rest = lower digits from hrest) ▸ digits_lower hd
    rcases toLower_eq (.inr hb) with rfl | rfl | rfl
    · exact absurd hb (by decide)
    · refine ⟨?_, fun _ => hdigits⟩
      rintro - ⟨_, hx⟩
      simp at hx
    · exact ⟨fun hx => by simp [isHexOfLength] at hx, fun hx => (hx ⟨rest, rfl⟩).elim⟩

section Parse
variable {checks : Binding} {e : EncryptedOutputNoteV2Envelope}

theorem Bound.formatted_iff (h : Bound checks e) (hchecks : checks.Valid) :
    Formatted e ↔ ¬(isCapital e.verifyingContract ∨ isCapital e.outputCommitment) := by
  have hcontract := isHexOfLength_iff_not_isCapital hchecks.pool h.verifyingContract
  have hcommitment := isHexOfLength_iff_not_isCapital hchecks.outputCommitment h.outputCommitment
  have hpadded : paddedCiphertextBytes = 256 := rfl
  have hsum := h.padded
  have htotal := h.paddedCiphertextByteLength
  rw [not_or, ← hcontract, ← hcommitment]
  constructor
  · exact fun hf => ⟨hf.verifyingContract, hf.outputCommitment⟩
  · rintro ⟨haddress, hbytes⟩
    exact ⟨h.chainId ▸ hchecks.chainId, haddress, hbytes, h.proofContextHash, h.ephemeralPublicKey,
      h.nonce, h.ciphertext, by omega, isHexString_of_isZeroBytes h.paddingBytes, by omega,
      by omega⟩

theorem Bound.consistent (h : Bound checks e) : Consistent e.lowered := by
  have hzero := h.paddingBytes
  have hlower : lower e.paddingBytes = e.paddingBytes := by
    rw [isZeroBytes] at hzero
    rw [hzero, lower_zeroBytesText]
  refine ⟨?_, ?_, h.padded.trans h.paddedCiphertextByteLength.symm, h.paddedCiphertextByteLength,
    ?_⟩
  · exact (hexByteLength_lower _).trans h.ciphertextByteLength.symm
  · exact (hexByteLength_lower _).trans h.paddingByteLength.symm
  · rw [← hlower] at hzero
    exact hzero

theorem Bound.matches (h : Bound checks e) : Matches checks.context e.lowered := by
  refine ⟨?_, ?_, ?_⟩
  · rintro _ ⟨⟩
    exact h.chainId
  · rintro _ ⟨⟩
    exact h.verifyingContract
  · rintro _ ⟨⟩
    exact h.outputCommitment

/-- **What the parsers accept** of the envelopes that the relay accepts. -/
theorem parse_of_bound {w : Wording} {bytes : Bytes} (hcarries : Carries (hexText bytes) e)
    (h : Bound checks e) (hchecks : checks.Valid) {r : EncryptedOutputNoteV2Envelope} :
    parseEncryptedOutputNoteV2EnvelopeFromHex w (hexText bytes) checks.context = .ok r ↔
      ¬(isCapital e.verifyingContract ∨ isCapital e.outputCommitment) ∧ r = e.lowered := by
  obtain ⟨members, hvalue, hkeys, hreads⟩ := hcarries
  unfold parseEncryptedOutputNoteV2EnvelopeFromHex
  unfold valueOf at hvalue
  rw [ensure_of (isHexString_hexText _), ok_bind, hvalue]
  dsimp only
  rw [validate_eq_ok hreads, h.formatted_iff hchecks]
  exact ⟨fun ⟨_, hf, _, _, hr⟩ => ⟨hf, hr⟩, fun ⟨hf, hr⟩ => ⟨hkeys, hf, h.consistent, h.matches, hr⟩⟩

end Parse

/-! ### One format -/

/-- The parser of the web app. -/
abbrev webParseFromHex := parseEncryptedOutputNoteV2EnvelopeFromHex webWording

theorem sdkParseFromHex_eq_ok {hex : Text} {checks : CheckContext}
    {r : EncryptedOutputNoteV2Envelope} : sdkParseFromHex hex checks = .ok r ↔
      parseEncryptedOutputNoteV2EnvelopeFromHex sdkWording hex checks = .ok r := by
  unfold sdkParseFromHex
  cases parseEncryptedOutputNoteV2EnvelopeFromHex sdkWording hex checks with
  | error message => simp [Except.mapError]
  | ok e => simp [Except.mapError]

/-- The bytes of an envelope, well formed or not, are the text of its fields. -/
theorem carries_bytes {e : EncryptedOutputNoteV2Envelope} (h : ∀ m ∈ e.members, m.2.Exact) :
    Carries (hexText e.bytes) e := by
  have hbrace : ('\x7b' : Char).toNat < 0x80 := by decide
  have hdecode : Utf8.decode e.bytes = e.json := Utf8.decode_encode hbrace
  refine ⟨_, ?_, ?_, reads_members e⟩
  · rw [valueOf, hexBytes_hexText, hdecode]
    exact Json.parse_printObject (List.cons_ne_nil _ _) h
  · intro key hkey
    rw [Json.mem_keys, List.map_map] at hkey
    exact hkey

/-- What an envelope is created for. -/
def bindingOf (i : CreateInput) : Binding where
  chainId := i.chainId
  pool := i.verifyingContract
  outputCommitment := i.outputCommitment

theorem bound_of_wellFormed {e : EncryptedOutputNoteV2Envelope} {checks : Binding}
    (h : WellFormed e) (hm : Matches checks.context e) (hzero : e.proofContextHash = zeroBytes32Text) :
    Bound checks e where
  chainId := hm.chainId _ rfl
  verifyingContract := h.verifyingContract.2.trans (hm.verifyingContract _ rfl)
  outputCommitment := h.outputCommitment.2.trans (hm.outputCommitment _ rfl)
  proofContextHash := h.proofContextHash.1
  proofContextHash_zero := h.proofContextHash.2.trans hzero
  ephemeralPublicKey := h.ephemeralPublicKey.1
  nonce := h.nonce.1
  ciphertext := h.ciphertext.1
  ciphertextByteLength := h.ciphertextByteLength
  paddingBytes := h.consistent.paddingBytes
  paddingByteLength := h.consistent.paddingByteLength.symm
  padded := h.padded
  paddedCiphertextByteLength := h.paddedCiphertextByteLength

/-- What is created with the padded length given is what is created without it. -/
theorem created_eq_ok {w : Wording} {i : CreateInput} {e : EncryptedOutputNoteV2Envelope}
    (hi : i.paddedCiphertextByteLength.getD paddedCiphertextBytes = paddedCiphertextBytes) :
    createEncryptedOutputNoteV2Envelope w i = .ok e ↔ i.Fits ∧ e = i.envelope := by
  have hsame : createEncryptedOutputNoteV2Envelope w i =
      createEncryptedOutputNoteV2Envelope w { i with paddedCiphertextByteLength := none } := by
    unfold createEncryptedOutputNoteV2Envelope
    rw [hi]
    rfl
  rw [hsame, createEncryptedOutputNoteV2Envelope_eq_ok rfl]
  exact and_congr ⟨fun h => ⟨h.1, h.2, h.3, h.4, h.5, h.6, h.7⟩,
    fun h => ⟨h.1, h.2, h.3, h.4, h.5, h.6, h.7⟩⟩ Iff.rfl

/-- **An envelope that is created has the one format.** -/
theorem created_accepted {i : CreateInput} {e : EncryptedOutputNoteV2Envelope}
    (hi : i.paddedCiphertextByteLength.getD paddedCiphertextBytes = paddedCiphertextBytes)
    (h : createEncryptedOutputNoteV2Envelope sdkWording i = .ok e) :
    ∃ hex, serializeEncryptedOutputNoteV2EnvelopeToHex sdkWording e = .ok hex ∧
      sdkParseFromHex hex {} = .ok e ∧ sdkParseFromHex hex (bindingOf i).context = .ok e ∧
      (hexBytes hex).length ≤ 2048 ∧ relayValidateForBinding hex (bindingOf i) = [] ∧
      indexerValidateForBinding hex (bindingOf i) = [] := by
  obtain ⟨hfits, rfl⟩ := (created_eq_ok hi).mp h
  have hwell := wellFormed_envelope hfits
  have hmatches : Matches (bindingOf i).context i.envelope := by
    refine ⟨?_, ?_, ?_⟩ <;> rintro _ ⟨⟩ <;> rfl
  have hbound : ∃ e, Carries (hexText i.envelope.bytes) e ∧ Bound (bindingOf i) e :=
    ⟨_, carries_bytes (exact_members hwell), bound_of_wellFormed hwell hmatches rfl⟩
  have hlength := (length_bytes_le hwell).2
  refine ⟨_, serialize_of_wellFormed hwell,
    sdkParseFromHex_eq_ok.mpr (parse_hexText_bytes hwell (matches_empty _)),
    sdkParseFromHex_eq_ok.mpr (parse_hexText_bytes hwell hmatches), ?_,
    validateForBinding_eq_nil.mpr hbound, validateForBinding_eq_nil.mpr hbound⟩
  rw [hexBytes_hexText]
  omega

/-- The bytes are an envelope of the binding but for a capital `X` in the pool or the
commitment. -/
def Capital (encryptedOutputNote : Text) (checks : Binding) : Prop :=
  ∃ e, Carries encryptedOutputNote e ∧ Bound checks e ∧
    (isCapital e.verifyingContract ∨ isCapital e.outputCommitment)

/-- **The four agree on an envelope** that has no capital `X`: what is created is accepted by all,
and what the relay accepts of any bytes the indexer and both parsers accept. -/
theorem one_format_iff (i : CreateInput) (e : EncryptedOutputNoteV2Envelope) (bytes : Bytes)
    (checks : Binding) :
    (i.paddedCiphertextByteLength.getD paddedCiphertextBytes = paddedCiphertextBytes →
      createEncryptedOutputNoteV2Envelope sdkWording i = .ok e →
      ∃ hex, serializeEncryptedOutputNoteV2EnvelopeToHex sdkWording e = .ok hex ∧
        sdkParseFromHex hex {} = .ok e ∧ sdkParseFromHex hex (bindingOf i).context = .ok e ∧
        (hexBytes hex).length ≤ 2048 ∧ relayValidateForBinding hex (bindingOf i) = [] ∧
        indexerValidateForBinding hex (bindingOf i) = []) ∧
    (checks.Valid →
      (relayValidateForBinding (hexText bytes) checks =
          indexerValidateForBinding (hexText bytes) checks ∧
        (relayValidateForBinding (hexText bytes) checks = [] →
          ∃ e, sdkParseFromHex (hexText bytes) checks.context = .ok e ∧
            webParseFromHex (hexText bytes) checks.context = .ok e) ↔
        ¬Capital (hexText bytes) checks)) := by
  refine ⟨fun hi h => created_accepted hi h, fun hchecks => ?_⟩
  constructor
  · rintro ⟨-, h⟩ ⟨e, hcarries, hbound, hcapital⟩
    obtain ⟨r, -, hweb⟩ := h (relayValidateForBinding_eq_nil.mpr ⟨e, hcarries, hbound⟩)
    exact ((parse_of_bound hcarries hbound hchecks).mp hweb).1 hcapital
  · intro h
    refine ⟨rfl, fun hnil => ?_⟩
    obtain ⟨e, hcarries, hbound⟩ := relayValidateForBinding_eq_nil.mp hnil
    have hparse : ∀ w : Wording, parseEncryptedOutputNoteV2EnvelopeFromHex w (hexText bytes)
        checks.context = .ok e.lowered := fun w =>
      (parse_of_bound hcarries hbound hchecks).mpr ⟨fun hx => h ⟨e, hcarries, hbound, hx⟩, rfl⟩
    exact ⟨e.lowered, sdkParseFromHex_eq_ok.mpr (hparse sdkWording), hparse webWording⟩

/-- An envelope whose pool begins with `0X`. -/
def capitalEnvelope : EncryptedOutputNoteV2Envelope where
  chainId := 6343
  verifyingContract := '0' :: 'X' :: List.replicate 40 '1'
  outputCommitment := '0' :: 'x' :: List.replicate 64 '2'
  proofContextHash := zeroBytesText 32
  ephemeralPublicKey := zeroBytesText 32
  nonce := zeroBytesText 24
  ciphertext := "0xab".toList
  ciphertextByteLength := 1
  paddingBytes := zeroBytesText 255
  paddingByteLength := 255
  paddedCiphertextByteLength := 256

/-- Its binding. -/
def capitalBinding : Binding where
  chainId := 6343
  pool := '0' :: 'x' :: List.replicate 40 '1'
  outputCommitment := '0' :: 'x' :: List.replicate 64 '2'

theorem bound_capitalEnvelope : Bound capitalBinding capitalEnvelope := by
  refine ⟨rfl, ?_, rfl, ?_, ?_, ?_, ?_, ?_, ?_, ?_, ?_, rfl, rfl⟩ <;> decide +kernel

/-- **The relay accepts an envelope that no client can read.** -/
theorem capital_refused : capitalBinding.Valid ∧
    relayValidateForBinding (hexText capitalEnvelope.bytes) capitalBinding = [] ∧
    ¬∃ e, sdkParseFromHex (hexText capitalEnvelope.bytes) capitalBinding.context = .ok e ∨
      webParseFromHex (hexText capitalEnvelope.bytes) capitalBinding.context = .ok e := by
  have hvalid : capitalBinding.Valid := ⟨.inr rfl, by decide +kernel, by decide⟩
  have hexact : ∀ m ∈ capitalEnvelope.members, m.2.Exact := by
    simp only [EncryptedOutputNoteV2Envelope.members, List.forall_mem_cons, Scalar.Exact, true_and]
    exact ⟨by norm_num, by decide, by decide, by decide, by decide,
      fun _ h => absurd h List.not_mem_nil⟩
  have hcarries := carries_bytes hexact
  have hparse : ∀ (w : Wording) (e : EncryptedOutputNoteV2Envelope),
      parseEncryptedOutputNoteV2EnvelopeFromHex w (hexText capitalEnvelope.bytes)
        capitalBinding.context ≠ .ok e := fun w e h =>
    ((parse_of_bound hcarries bound_capitalEnvelope hvalid).mp h).1 (.inl ⟨_, rfl⟩)
  refine ⟨hvalid, relayValidateForBinding_eq_nil.mpr ⟨_, hcarries, bound_capitalEnvelope⟩, ?_⟩
  rintro ⟨e, h | h⟩
  · exact hparse _ e (sdkParseFromHex_eq_ok.mp h)
  · exact hparse _ e h

end Nullark.Js.OutputNoteBinding
