import Nullark.Js.Calldata
import Nullark.Js.ContextHashes
import Nullark.Js.Numbers
import Nullark.Js.SpendMaterial
import Nullark.Relay.WithdrawalCall

/-! # The calldata that the SDK writes

The SDK checks the texts of a withdrawal and encodes the call of the pool.

* `normalizeWithdrawInput_eq_ok`: the inputs that are accepted.
* `encode_eq_ok`: the calldata of a v1.2 withdrawal. -/

namespace Nullark.Sdk.Calldata

open Nullark.Lib Nullark.Lib.Outcome Nullark.Lib.AbiTuple
open Nullark.Lib.Hex hiding value Digits ofNat
open Nullark.Evm.Basic Nullark.Pool.Interface
open Nullark.Js.Basic Nullark.Js.Bytes Nullark.Js.Numbers Nullark.Js.Package Nullark.Js.Calldata
open Nullark.Relay.WithdrawalCall (StageCArguments stageCWithdrawBoundedParameters)

/-! ### The code -/

structure WithdrawBoundedCalldataInput where
  proof : Text
  publicInputs : List Text
  nullifier : Text
  destination : Text
  grossAmountWei : Text
  minNetAmountWei : Text
  maxFeeWei : Text

structure V12UnlinkableWithdrawOutputNoteCalldataInput extends WithdrawBoundedCalldataInput where
  encryptedOutputNote : Text

/-- What the checks make of an input. -/
structure NormalizedWithdrawInput where
  proof : Text
  publicInputs : List Text
  nullifier : Text
  destination : Text
  grossAmount : ℕ
  minNetAmount : ℕ
  maxFeeAmount : ℕ

def minWithdrawableAmountWei : ℕ := 1

def stageCWithdrawBoundedSelector : Text := "0x678d8506".toList

def nullarkV11PublicInputsLength : ℕ := 12

def nullarkV12UnlinkablePublicInputsLength : ℕ := 10

def normalizeHexBytes (value : Text) (message : String) : Throws Text := do
  let normalized := trim value
  ensure (isHexString normalized) message
  return normalized

def assertBytes32 (value : Text) (message : String) : Throws Text := do
  ensure (isHexBytes32 value) message
  return value

def assertAddress (value : Text) : Throws Text := do
  ensure (isEvmAddress value) "Expected a valid EVM destination address."
  return value

def normalizeDecimalUint256 (value : Text) (message : String) : Throws ℕ := do
  let normalized := trim value
  ensure (Decimal.isDecimal normalized) message
  return Decimal.value normalized

/-- A list of words of one of the lengths. -/
def assertInputs (lengths : List ℕ) (lengthMessage valueMessage : String) (values : List Text) :
    Throws (List Text) := do
  ensure (values.length ∈ lengths) lengthMessage
  values.mapM fun value => assertBytes32 value valueMessage

def assertPublicInputs : List Text → Throws (List Text) :=
  assertInputs [nullarkV11PublicInputsLength] "Expected exactly 12 public input bytes32 values."
    "Expected every public input to be bytes32."

def assertDecodedStageCWithdrawPublicInputs : List Text → Throws (List Text) :=
  assertInputs [nullarkV11PublicInputsLength, nullarkV12UnlinkablePublicInputsLength]
    "Expected exactly 10 or 12 public input bytes32 values."
    "Expected every public input to be bytes32."

def assertV12UnlinkableWithdrawPublicInputs : List Text → Throws (List Text) :=
  assertInputs [nullarkV12UnlinkablePublicInputsLength]
    "Expected exactly 10 public input bytes32 values for v1.2 unlinkable withdrawal."
    "Expected every v1.2 unlinkable public input to be bytes32."

/-- The checks of the three amounts. -/
def assertAmounts (grossAmount minNetAmount maxFeeAmount : ℕ) : Throws Unit := do
  ensure (¬grossAmount < minWithdrawableAmountWei) "Expected gross amount wei to be positive."
  ensure (¬minNetAmount > grossAmount)
    "Expected minimum net amount to be less than or equal to gross amount."
  ensure (¬maxFeeAmount > grossAmount)
    "Expected maximum fee to be less than or equal to gross amount."

/-- `normalizeWithdrawInputWithPublicInputShape`. -/
def normalizeWithdrawInput (input : WithdrawBoundedCalldataInput)
    (assertPublicInputShape : List Text → Throws (List Text)) : Throws NormalizedWithdrawInput := do
  let proof ← normalizeHexBytes input.proof "Expected proof to be even-length hex bytes."
  let publicInputs ← assertPublicInputShape input.publicInputs
  let nullifier ← assertBytes32 input.nullifier "Expected a 32-byte nullifier."
  let destination ← assertAddress (trim input.destination)
  let amountError :=
    "Expected gross amount, minimum net amount, and maximum fee as decimal integers."
  let grossAmount ← normalizeDecimalUint256 input.grossAmountWei amountError
  let minNetAmount ← normalizeDecimalUint256 input.minNetAmountWei amountError
  let maxFeeAmount ← normalizeDecimalUint256 input.maxFeeWei amountError
  assertAmounts grossAmount minNetAmount maxFeeAmount
  return { proof, publicInputs, nullifier, destination, grossAmount, minNetAmount, maxFeeAmount }

/-- The arguments of the call, as `viem` takes them. -/
def stageCValues (n : NormalizedWithdrawInput) (encryptedNote : Text) : List AbiValue :=
  [.bytes n.proof, .bytes32Array n.publicInputs, .bytes32 n.nullifier, .address n.destination,
    .uint256 n.grossAmount, .bytes encryptedNote, .uint256 n.minNetAmount, .uint256 n.maxFeeAmount]

/-- **`encodeV12UnlinkableWithdrawOutputNoteCalldata`**. -/
def encodeV12UnlinkableWithdrawOutputNoteCalldata (v : Viem)
    (input : V12UnlinkableWithdrawOutputNoteCalldataInput) : Throws Text := do
  let normalized ← normalizeWithdrawInput input.toWithdrawBoundedCalldataInput
    assertV12UnlinkableWithdrawPublicInputs
  let encryptedOutputNote ← normalizeHexBytes input.encryptedOutputNote
    "Expected proof and encrypted output note to be even-length hex bytes."
  ensure (encryptedOutputNote ≠ "0x".toList)
    "Expected v1.2 encrypted output note to be always-present nonempty hex bytes."
  encodeFunctionData v stageCWithdrawBoundedSelector (stageCValues normalized encryptedOutputNote)

/-! ### What is accepted -/

theorem normalizeHexBytes_eq_ok {value r : Text} {message : String} :
    normalizeHexBytes value message = .ok r ↔ isHexString (trim value) ∧ r = trim value := by
  simp only [normalizeHexBytes, bind_eq_ok, ensure_eq_ok, pure_eq_ok, exists_const, @eq_comm _ r]

theorem assertBytes32_eq_ok {value r : Text} {message : String} :
    assertBytes32 value message = .ok r ↔ isHexBytes32 value ∧ r = value := by
  simp only [assertBytes32, bind_eq_ok, ensure_eq_ok, pure_eq_ok, exists_const, @eq_comm _ r]

theorem assertAddress_eq_ok {value r : Text} :
    assertAddress value = .ok r ↔ isEvmAddress value ∧ r = value := by
  simp only [assertAddress, bind_eq_ok, ensure_eq_ok, pure_eq_ok, exists_const, @eq_comm _ r]

theorem normalizeDecimalUint256_eq_ok {value : Text} {n : ℕ} {message : String} :
    normalizeDecimalUint256 value message = .ok n ↔
      Decimal.isDecimal (trim value) ∧ n = Decimal.value (trim value) := by
  simp only [normalizeDecimalUint256, bind_eq_ok, ensure_eq_ok, pure_eq_ok, exists_const, @eq_comm _ n]

/-- A list whose members are only checked comes back. -/
theorem forall₂_checked {p : Text → Prop} : ∀ {values r : List Text},
    List.Forall₂ (fun value x => p value ∧ x = value) values r ↔
      (∀ value ∈ values, p value) ∧ r = values
  | [], r => by
    rw [List.forall₂_nil_left_iff]
    exact ⟨fun h => ⟨fun _ hx => absurd hx List.not_mem_nil, h⟩, fun h => h.2⟩
  | value :: values, r => by
    rw [List.forall₂_cons_left_iff, List.forall_mem_cons]
    constructor
    · rintro ⟨_, _, ⟨hvalue, rfl⟩, hrest, rfl⟩
      obtain ⟨hvalues, rfl⟩ := forall₂_checked.mp hrest
      exact ⟨⟨hvalue, hvalues⟩, rfl⟩
    · rintro ⟨⟨hvalue, hvalues⟩, rfl⟩
      exact ⟨value, values, ⟨hvalue, rfl⟩, forall₂_checked.mpr ⟨hvalues, rfl⟩, rfl⟩

theorem assertInputs_eq_ok {lengths : List ℕ} {lengthMessage valueMessage : String}
    {values r : List Text} : assertInputs lengths lengthMessage valueMessage values = .ok r ↔
      values.length ∈ lengths ∧ (∀ value ∈ values, isHexBytes32 value) ∧ r = values := by
  simp only [assertInputs, bind_eq_ok, ensure_eq_ok, exists_const, mapM_eq_ok,
    assertBytes32_eq_ok, forall₂_checked]

theorem assertPublicInputs_eq_ok {values r : List Text} : assertPublicInputs values = .ok r ↔
    values.length = 12 ∧ (∀ value ∈ values, isHexBytes32 value) ∧ r = values := by
  rw [assertPublicInputs, assertInputs_eq_ok, List.mem_singleton]
  rfl

theorem assertDecodedStageCWithdrawPublicInputs_eq_ok {values r : List Text} :
    assertDecodedStageCWithdrawPublicInputs values = .ok r ↔
      (values.length = 12 ∨ values.length = 10) ∧ (∀ value ∈ values, isHexBytes32 value) ∧
        r = values := by
  rw [assertDecodedStageCWithdrawPublicInputs, assertInputs_eq_ok, List.mem_cons,
    List.mem_singleton]
  rfl

theorem assertV12UnlinkableWithdrawPublicInputs_eq_ok {values r : List Text} :
    assertV12UnlinkableWithdrawPublicInputs values = .ok r ↔
      values.length = 10 ∧ (∀ value ∈ values, isHexBytes32 value) ∧ r = values := by
  rw [assertV12UnlinkableWithdrawPublicInputs, assertInputs_eq_ok, List.mem_singleton]
  rfl

theorem assertAmounts_eq_ok {grossAmount minNetAmount maxFeeAmount : ℕ} {u : Unit} :
    assertAmounts grossAmount minNetAmount maxFeeAmount = .ok u ↔
      0 < grossAmount ∧ minNetAmount ≤ grossAmount ∧ maxFeeAmount ≤ grossAmount := by
  simp only [assertAmounts, bind_eq_ok, ensure_eq_ok, exists_const, minWithdrawableAmountWei,
    not_lt, Nat.one_le_iff_ne_zero, Nat.pos_iff_ne_zero]

/-- **The inputs that are accepted**, but for the public inputs. -/
structure Normalizes (input : WithdrawBoundedCalldataInput) : Prop where
  proof : isHexString (trim input.proof)
  nullifier : isHexBytes32 input.nullifier
  destination : isEvmAddress (trim input.destination)
  grossAmount : Decimal.isDecimal (trim input.grossAmountWei)
  minNetAmount : Decimal.isDecimal (trim input.minNetAmountWei)
  maxFee : Decimal.isDecimal (trim input.maxFeeWei)
  gross_pos : 0 < Decimal.value (trim input.grossAmountWei)
  minNet_le : Decimal.value (trim input.minNetAmountWei) ≤ Decimal.value (trim input.grossAmountWei)
  maxFee_le : Decimal.value (trim input.maxFeeWei) ≤ Decimal.value (trim input.grossAmountWei)

/-- What the checks make of such an input. -/
def normalized (input : WithdrawBoundedCalldataInput) : NormalizedWithdrawInput where
  proof := trim input.proof
  publicInputs := input.publicInputs
  nullifier := input.nullifier
  destination := trim input.destination
  grossAmount := Decimal.value (trim input.grossAmountWei)
  minNetAmount := Decimal.value (trim input.minNetAmountWei)
  maxFeeAmount := Decimal.value (trim input.maxFeeWei)

theorem normalizeWithdrawInput_eq_ok {input : WithdrawBoundedCalldataInput}
    {n : NormalizedWithdrawInput} :
    normalizeWithdrawInput input assertV12UnlinkableWithdrawPublicInputs = .ok n ↔
      (input.publicInputs.length = 10 ∧ ∀ value ∈ input.publicInputs, isHexBytes32 value) ∧
        Normalizes input ∧ n = normalized input := by
  unfold normalizeWithdrawInput
  simp only [bind_eq_ok, normalizeHexBytes_eq_ok, assertV12UnlinkableWithdrawPublicInputs_eq_ok,
    assertBytes32_eq_ok, assertAddress_eq_ok, normalizeDecimalUint256_eq_ok, assertAmounts_eq_ok,
    pure_eq_ok, exists_const]
  constructor
  · rintro ⟨_, ⟨h1, rfl⟩, _, ⟨hten, hwords, rfl⟩, _, ⟨h2, rfl⟩, _, ⟨h3, rfl⟩, _, ⟨h4, rfl⟩, _,
      ⟨h5, rfl⟩, _, ⟨h6, rfl⟩, ⟨h7, h8, h9⟩, rfl⟩
    exact ⟨⟨hten, hwords⟩, ⟨h1, h2, h3, h4, h5, h6, h7, h8, h9⟩, rfl⟩
  · rintro ⟨⟨hten, hwords⟩, ⟨h1, h2, h3, h4, h5, h6, h7, h8, h9⟩, rfl⟩
    exact ⟨_, ⟨h1, rfl⟩, _, ⟨hten, hwords, rfl⟩, _, ⟨h2, rfl⟩, _, ⟨h3, rfl⟩, _, ⟨h4, rfl⟩, _,
      ⟨h5, rfl⟩, _, ⟨h6, rfl⟩, ⟨h7, h8, h9⟩, rfl⟩

/-- **The v1.2 withdrawals that are encoded.** -/
structure Encodes (v : Viem) (input : V12UnlinkableWithdrawOutputNoteCalldataInput) : Prop where
  length : input.publicInputs.length = 10
  publicInputs : ∀ value ∈ input.publicInputs, isHexBytes32 value
  normalizes : Normalizes input.toWithdrawBoundedCalldataInput
  note : isHexString (trim input.encryptedOutputNote)
  note_ne : trim input.encryptedOutputNote ≠ "0x".toList
  destination : isAddress v (trim input.destination)

/-- The arguments of the call. -/
def stageCArguments (input : V12UnlinkableWithdrawOutputNoteCalldataInput) : StageCArguments :=
  (hexBytes (trim input.proof), input.publicInputs.map word, word input.nullifier,
    address (trim input.destination), BitVec.ofNat 256 (Decimal.value (trim input.grossAmountWei)),
    hexBytes (trim input.encryptedOutputNote),
    BitVec.ofNat 256 (Decimal.value (trim input.minNetAmountWei)),
    BitVec.ofNat 256 (Decimal.value (trim input.maxFeeWei)), ())

/-- The bytes of the call. -/
def calldata (input : V12UnlinkableWithdrawOutputNoteCalldataInput) : Text :=
  hexText (callBytes 0x678d8506 stageCWithdrawBoundedParameters (stageCArguments input))

section Spec
variable {v : Viem} {keccak : Bytes → Bytes32} (hv : Documented v keccak)
  {input : V12UnlinkableWithdrawOutputNoteCalldataInput}
include hv

/-- **What is encoded**, for amounts of 256 bits. -/
theorem encode_eq_ok {data : Text}
    (hgross : Decimal.value (trim input.grossAmountWei) < 2 ^ 256) :
    encodeV12UnlinkableWithdrawOutputNoteCalldata v input = .ok data ↔
      Encodes v input ∧ data = calldata input := by
  have hselector : selectorText 0x678d8506 = stageCWithdrawBoundedSelector := by decide
  have hbut : Normalizes input.toWithdrawBoundedCalldataInput →
      (∀ value ∈ input.publicInputs, isHexBytes32 value) →
      isHexString (trim input.encryptedOutputNote) →
      ∀ x ∈ stageCValues (normalized input.toWithdrawBoundedCalldataInput)
        (trim input.encryptedOutputNote), x.FitsButAddress := by
    intro hn hwords hnote
    simp only [stageCValues, List.forall_mem_cons]
    exact ⟨hn.proof, hwords, hn.nullifier, hn.destination, hgross, hnote,
      lt_of_le_of_lt hn.minNet_le hgross, lt_of_le_of_lt hn.maxFee_le hgross,
      fun _ hx => absurd hx List.not_mem_nil⟩
  have haddress : ∀ t, AbiValue.address t ∈ stageCValues
      (normalized input.toWithdrawBoundedCalldataInput) (trim input.encryptedOutputNote) ↔
      t = trim input.destination := by
    intro t
    simp only [stageCValues, List.mem_cons, AbiValue.address.injEq, reduceCtorEq, false_or,
      or_false, List.not_mem_nil]
    rfl
  unfold encodeV12UnlinkableWithdrawOutputNoteCalldata
  simp only [bind_eq_ok, normalizeWithdrawInput_eq_ok, normalizeHexBytes_eq_ok, ensure_eq_ok,
    exists_const]
  constructor
  · rintro ⟨_, ⟨⟨hten, hwords⟩, hn, rfl⟩, _, ⟨hnote, rfl⟩, hne, hdata⟩
    obtain ⟨encoded, hencoded, -⟩ := bind_eq_ok.mp hdata
    have hfits : ∀ x ∈ stageCValues (normalized input.toWithdrawBoundedCalldataInput)
        (trim input.encryptedOutputNote), x.Fits v :=
      (forall_fits_iff (hbut hn hwords hnote)).mpr fun t ht => hv.refuses _ _ hencoded t ht
    refine ⟨⟨hten, hwords, hn, hnote, hne, ?_⟩, ?_⟩
    · exact (forall_fits_iff (hbut hn hwords hnote)).mp hfits _ ((haddress _).mpr rfl)
    · rw [← hselector, @encodeFunctionData_eq _ _ hv _ _ stageCWithdrawBoundedParameters
        (stageCArguments input) hfits rfl] at hdata
      exact (Except.ok.inj hdata).symm
  · rintro ⟨h, rfl⟩
    have hfits : ∀ x ∈ stageCValues (normalized input.toWithdrawBoundedCalldataInput)
        (trim input.encryptedOutputNote), x.Fits v :=
      (forall_fits_iff (hbut h.normalizes h.publicInputs h.note)).mpr fun t ht =>
        (haddress t).mp ht ▸ h.destination
    refine ⟨_, ⟨⟨h.length, h.publicInputs⟩, h.normalizes, rfl⟩, _, ⟨h.note, rfl⟩, h.note_ne, ?_⟩
    rw [← hselector]
    exact encodeFunctionData_eq hv hfits rfl

end Spec

end Nullark.Sdk.Calldata
