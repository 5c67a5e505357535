import Nullark.Js.Calldata
import Nullark.Js.Numbers

/-! # The calldata of a withdrawal, written by hand

The web app writes the call of a withdrawal as a text: heads, offsets and tails are texts of hex
digits that are joined. A word is filled up to 64 digits; one that has more is not refused.

* `encodeWithdrawCalldata_eq_ok`: the inputs that are accepted.
* `calldataText_eq`: the text that is written, for an amount of 256 bits.
* `readsBack_iff`: it is read back exactly if the amount has 256 bits. -/

namespace Nullark.Web.WithdrawCalldata

open Nullark.Lib Nullark.Lib.Outcome Nullark.Lib.AbiTuple
open Nullark.Lib.Hex hiding value Digits
open Nullark.Evm.Basic Nullark.Pool.Interface
open Nullark.Js.Basic Nullark.Js.Bytes Nullark.Js.Numbers Nullark.Js.Calldata

/-! ### The code -/

structure WithdrawCalldataInput where
  proof : Text
  publicInputs : List Text
  nullifier : Text
  destination : Text
  grossAmountWei : Text

def withdrawSelector : Text := "0x9b0c797c".toList

def minWithdrawableAmountWei : ℕ := 1

def nullarkV11PublicInputsLength : ℕ := 12

/-- `padEnd`. -/
def padEnd (n : ℕ) (c : Char) (t : Text) : Text := t ++ List.replicate (n - t.length) c

def encodeUint256 (value : ℤ) : Throws Text := do
  ensure (¬value < 0) "Expected unsigned integer value."
  return padStart 64 '0' (ofNat value.toNat)

def encodeBytes32Argument (value : Text) : Throws Text := do
  ensure (isHexBytes32 value) "Expected a 32-byte hex value."
  return lower (value.drop 2)

def encodeDynamicBytes (value : Text) : Throws Text := do
  let bytes := lower (value.drop 2)
  let length := bytes.length / 2
  let paddedLength := (bytes.length + 63) / 64 * 64
  let lengthWord ← encodeUint256 length
  return lengthWord ++ padEnd paddedLength '0' bytes

def encodeBytes32Array (values : List Text) : Throws Text := do
  let lengthWord ← encodeUint256 values.length
  let words ← values.mapM encodeBytes32Argument
  return lengthWord ++ words.flatten

/-- The checks of the amount. -/
def parseGrossAmount (grossAmountWei : Text) : Throws ℕ := do
  ensure (Decimal.isDecimal grossAmountWei)
    "Expected gross amount wei as a positive decimal integer."
  let amount := Decimal.value grossAmountWei
  ensure (¬amount < minWithdrawableAmountWei) "Expected gross amount wei to be positive."
  return amount

/-- The arguments behind the selector, the heads first. -/
def encodeArguments (proof : Text) (publicInputs : List Text) (nullifier destination : Text)
    (amount : ℕ) : Throws Text := do
  let headSizeBytes := 5 * 32
  let proofTail ← encodeDynamicBytes proof
  let publicInputsTail ← encodeBytes32Array publicInputs
  let proofOffset ← encodeUint256 (headSizeBytes : ℕ)
  let publicInputsOffset ← encodeUint256 (headSizeBytes + proofTail.length / 2 : ℕ)
  let nullifierWord ← encodeBytes32Argument nullifier
  let amountWord ← encodeUint256 amount
  return [proofOffset, publicInputsOffset, nullifierWord,
    padStart 64 '0' (lower (destination.drop 2)), amountWord, proofTail, publicInputsTail].flatten

/-- **`encodeWithdrawCalldata`**. -/
def encodeWithdrawCalldata (input : WithdrawCalldataInput) : Throws Text := do
  let normalizedProof := trim input.proof
  let normalizedDestination := trim input.destination
  let normalizedGrossAmount := trim input.grossAmountWei
  ensure (isHexString normalizedProof) "Expected proof to be even-length hex bytes."
  ensure (input.publicInputs.length = nullarkV11PublicInputsLength)
    "Expected exactly 12 public input bytes32 values."
  ensure (isHexBytes32 input.nullifier) "Expected a 32-byte nullifier."
  ensure (isEvmAddress normalizedDestination) "Expected a valid EVM destination address."
  let amount ← parseGrossAmount normalizedGrossAmount
  let args ← encodeArguments normalizedProof input.publicInputs input.nullifier
    normalizedDestination amount
  return withdrawSelector ++ args

/-! ### What is read -/

/-- `withdraw(bytes,bytes32[],bytes32,address,uint256)`. -/
def withdrawParameters : List AbiType := [.bytes, .bytes32Array, .bytes32, .address, .uint256]

/-- The amount that the input names. -/
def WithdrawCalldataInput.grossAmount (input : WithdrawCalldataInput) : ℕ :=
  Decimal.value (trim input.grossAmountWei)

/-- The arguments of the input, with an amount of 256 bits. -/
def WithdrawCalldataInput.arguments (input : WithdrawCalldataInput) (grossAmount : BitVec 256) :
    Tuple withdrawParameters :=
  (hexBytes (trim input.proof), input.publicInputs.map word, word input.nullifier,
    address (trim input.destination), grossAmount, ())

/-- **The calldata is read back** as the arguments of the input. -/
structure ReadsBack (input : WithdrawCalldataInput) (calldata : Text) : Prop where
  hex : isHexString calldata
  selector : calldata.take 10 = withdrawSelector
  arguments : ∃ grossAmount : BitVec 256, grossAmount.toNat = input.grossAmount ∧
    decode withdrawParameters (hexBytes ('0' :: 'x' :: calldata.drop 10)) =
      some (input.arguments grossAmount)

/-- **The inputs that are accepted.** -/
structure Accepted (input : WithdrawCalldataInput) : Prop where
  proof : isHexString (trim input.proof)
  length : input.publicInputs.length = 12
  publicInputs : ∀ value ∈ input.publicInputs, isHexBytes32 value
  nullifier : isHexBytes32 input.nullifier
  destination : isEvmAddress (trim input.destination)
  grossAmount : Decimal.isDecimal (trim input.grossAmountWei)
  grossAmount_pos : 0 < input.grossAmount

/-! ### Words -/

/-- A word, filled up to 64 digits. -/
def wordText (n : ℕ) : Text := padStart 64 '0' (ofNat n)

theorem encodeUint256_natCast (n : ℕ) : encodeUint256 n = .ok (wordText n) := by
  have hneg : ¬(n : ℤ) < 0 := by omega
  rw [encodeUint256, ensure_of hneg, ok_bind, Int.toNat_natCast]
  rfl

theorem ofBytes_word (x : BitVec 256) : ofBytes (Bytes.word x) = fixed 64 x.toNat :=
  ofBytes_beBytes 32 _

/-- A number of 256 bits fits into its word. -/
theorem wordText_eq {n : ℕ} (h : n < 2 ^ 256) :
    wordText n = ofBytes (Bytes.word (BitVec.ofNat 256 n)) := by
  have htoNat := toNat_ofNat_of_lt h
  have hlt : n < 16 ^ 64 := by
    have hbits := toNat_lt_hex (BitVec.ofNat 256 n)
    rwa [htoNat] at hbits
  rw [ofBytes_word, htoNat, wordText, padStart_ofNat (by decide) hlt]

theorem encodeBytes32Argument_eq_ok {value r : Text} :
    encodeBytes32Argument value = .ok r ↔
      isHexBytes32 value ∧ r = ofBytes (Bytes.word (word value)) := by
  simp only [encodeBytes32Argument, bind_eq_ok, ensure_eq_ok, pure_eq_ok, exists_const]
  refine and_congr_right fun h => ?_
  have hlower : lower (value.drop 2) = fixed 64 (word value).toNat := by
    obtain ⟨digits, rfl, -, -⟩ := isHexOfLength_iff.mp h
    have htext := hex32_word h
    rw [hex32, lower_cons_hex] at htext
    exact (List.cons.inj (List.cons.inj htext).2).2.symm
  rw [hlower, ofBytes_word, eq_comm]

/-- The texts of words, joined. -/
theorem flatten_wordTexts : ∀ {values texts : List Text},
    List.Forall₂ (fun value r => isHexBytes32 value ∧ r = ofBytes (Bytes.word (word value)))
      values texts →
    (∀ value ∈ values, isHexBytes32 value) ∧
      texts.flatten = ofBytes (Bytes.words (values.map word))
  | [], _, .nil => ⟨fun _ hx => absurd hx List.not_mem_nil, rfl⟩
  | value :: values, _, .cons ⟨hvalue, hr⟩ hrest => by
    obtain ⟨hvalues, hflatten⟩ := flatten_wordTexts hrest
    refine ⟨List.forall_mem_cons.mpr ⟨hvalue, hvalues⟩, ?_⟩
    rw [List.flatten_cons, hr, hflatten, List.map_cons, Bytes.words_cons, ofBytes_append]

theorem exists_wordTexts : ∀ {values : List Text}, (∀ value ∈ values, isHexBytes32 value) →
    ∃ texts, List.Forall₂
      (fun value r => isHexBytes32 value ∧ r = ofBytes (Bytes.word (word value))) values texts
  | [], _ => ⟨[], .nil⟩
  | _ :: _, h => by
    obtain ⟨hvalue, hvalues⟩ := List.forall_mem_cons.mp h
    obtain ⟨texts, htexts⟩ := exists_wordTexts hvalues
    exact ⟨_, .cons ⟨hvalue, rfl⟩ htexts⟩

/-- **The tail of a list of words.** -/
theorem encodeBytes32Array_eq_ok {values : List Text} {r : Text} :
    encodeBytes32Array values = .ok r ↔ (∀ value ∈ values, isHexBytes32 value) ∧
      r = wordText values.length ++ ofBytes (Bytes.words (values.map word)) := by
  rw [encodeBytes32Array, encodeUint256_natCast, ok_bind]
  simp only [bind_eq_ok, mapM_eq_ok, encodeBytes32Argument_eq_ok, pure_eq_ok]
  constructor
  · rintro ⟨texts, htexts, rfl⟩
    obtain ⟨hvalues, hflatten⟩ := flatten_wordTexts htexts
    exact ⟨hvalues, by rw [hflatten]⟩
  · rintro ⟨hvalues, rfl⟩
    obtain ⟨texts, htexts⟩ := exists_wordTexts hvalues
    exact ⟨texts, htexts, by rw [(flatten_wordTexts htexts).2]⟩

/-- The zeros behind the bytes. -/
theorem ofBytes_replicate (n : ℕ) : ofBytes (List.replicate n 0) = List.replicate (2 * n) '0' := by
  induction n with
  | zero => rfl
  | succ n ih =>
    rw [List.replicate_succ, ofBytes_cons, ih]
    rfl

/-- **The tail of a byte string.** -/
theorem encodeDynamicBytes_eq {value : Text} (h : isHexString value)
    (hsize : value.length < 2 ^ 256) :
    encodeDynamicBytes value = .ok (ofBytes (Abi.tail (hexBytes value))) := by
  obtain ⟨digits, rfl, hlen, hd⟩ := isHexString_iff.mp h
  have hbytes : ofBytes (hexBytes ('0' :: 'x' :: digits)) = lower digits := by
    have hlower := hexText_hexBytes h
    rw [lower_cons_hex] at hlower
    exact (List.cons.inj (List.cons.inj hlower).2).2
  have hcount : (hexBytes ('0' :: 'x' :: digits)).length = digits.length / 2 := by
    rw [length_hexBytes, List.length_cons, List.length_cons]
    rfl
  have hfits : digits.length / 2 < 2 ^ 256 := by
    rw [List.length_cons, List.length_cons] at hsize
    omega
  have hzeros : (digits.length + 63) / 64 * 64 - digits.length =
      2 * ((32 - digits.length / 2 % 32) % 32) := by omega
  rw [encodeDynamicBytes, encodeUint256_natCast, ok_bind, List.drop_succ_cons,
    List.drop_succ_cons, List.drop_zero, length_lower, wordText_eq hfits, Abi.tail, Abi.padding,
    ofBytes_append, ofBytes_append, hbytes, hcount, ofBytes_replicate, padEnd, length_lower, hzeros,
    List.append_assoc]
  rfl

/-! ### What is accepted -/

theorem parseGrossAmount_eq_ok {grossAmountWei : Text} {amount : ℕ} :
    parseGrossAmount grossAmountWei = .ok amount ↔
      Decimal.isDecimal grossAmountWei ∧ 0 < Decimal.value grossAmountWei ∧
        amount = Decimal.value grossAmountWei := by
  simp only [parseGrossAmount, bind_eq_ok, ensure_eq_ok, exists_const, pure_eq_ok,
    minWithdrawableAmountWei, not_lt, Nat.one_le_iff_ne_zero, Nat.pos_iff_ne_zero,
    @eq_comm _ amount]

section Arguments
variable {proof nullifier destination r : Text} {publicInputs : List Text} {amount : ℕ}

theorem exists_encodeDynamicBytes (value : Text) : ∃ r, encodeDynamicBytes value = .ok r :=
  ⟨_, by rw [encodeDynamicBytes, encodeUint256_natCast]; rfl⟩

/-- Only the words are checked. -/
theorem exists_encodeArguments :
    (∃ r, encodeArguments proof publicInputs nullifier destination amount = .ok r) ↔
      (∀ value ∈ publicInputs, isHexBytes32 value) ∧ isHexBytes32 nullifier := by
  unfold encodeArguments
  simp only [bind_eq_ok, encodeUint256_natCast, encodeBytes32Array_eq_ok,
    encodeBytes32Argument_eq_ok]
  constructor
  · rintro ⟨_, _, _, _, ⟨hinputs, -⟩, _, -, _, -, _, ⟨hnullifier, -⟩, -⟩
    exact ⟨hinputs, hnullifier⟩
  · rintro ⟨hinputs, hnullifier⟩
    obtain ⟨proofTail, htail⟩ := exists_encodeDynamicBytes proof
    exact ⟨_, proofTail, htail, _, ⟨hinputs, rfl⟩, _, rfl, _, rfl, _, ⟨hnullifier, rfl⟩, _, rfl,
      rfl⟩

/-- The heads and the tails of the arguments. -/
theorem encodeTuple_withdraw (data : Bytes) (inputs : List Bytes32) (x : Bytes32) (a : Address)
    (n : BitVec 256) :
    ofBytes (encodeTuple withdrawParameters (data, inputs, x, a, n, ())) =
      [ofBytes (Bytes.word (BitVec.ofNat 256 160)),
        ofBytes (Bytes.word (BitVec.ofNat 256 (160 + (Abi.tail data).length))),
        ofBytes (Bytes.word x), ofBytes (Bytes.word (a.setWidth 256)), ofBytes (Bytes.word n),
        ofBytes (Abi.tail data), ofBytes (Abi.arrayTail inputs)].flatten := by
  simp only [encodeTuple, withdrawParameters, components, component, Abi.encode, Abi.heads,
    Abi.tails, Bytes.words_cons, Bytes.words_nil, ofBytes_append, List.flatten_cons,
    List.flatten_nil, List.append_assoc, List.append_nil, List.length_cons, List.length_nil]

/-- **The arguments that are written**, for an amount of 256 bits. -/
theorem encodeArguments_eq (hproof : isHexString proof) (hsize : proof.length < 2 ^ 53)
    (hlength : publicInputs.length = 12) (hdestination : isEvmAddress destination)
    (hamount : amount < 2 ^ 256)
    (h : encodeArguments proof publicInputs nullifier destination amount = .ok r) :
    r = ofBytes (encodeTuple withdrawParameters (hexBytes proof, publicInputs.map word,
      word nullifier, address destination, BitVec.ofNat 256 amount, ())) := by
  obtain ⟨proofTail, htail, h⟩ := bind_eq_ok.mp h
  obtain ⟨inputsTail, hinputs, h⟩ := bind_eq_ok.mp h
  obtain ⟨proofOffset, hproofOffset, h⟩ := bind_eq_ok.mp h
  obtain ⟨inputsOffset, hinputsOffset, h⟩ := bind_eq_ok.mp h
  obtain ⟨nullifierWord, hnullifier, h⟩ := bind_eq_ok.mp h
  obtain ⟨amountWord, hword, h⟩ := bind_eq_ok.mp h
  have htailText : proofTail = ofBytes (Abi.tail (hexBytes proof)) := by
    rw [encodeDynamicBytes_eq hproof (lt_trans hsize (by norm_num))] at htail
    exact (Except.ok.inj htail).symm
  have hinputsText := (encodeBytes32Array_eq_ok.mp hinputs).2
  have hnullifierText := (encodeBytes32Argument_eq_ok.mp hnullifier).2
  rw [encodeUint256_natCast] at hproofOffset hinputsOffset hword
  have hproofOffsetText := Except.ok.inj hproofOffset
  have hinputsOffsetText := Except.ok.inj hinputsOffset
  have hwordText := Except.ok.inj hword
  have hhalf : 2 * (Abi.tail (hexBytes proof)).length / 2 = (Abi.tail (hexBytes proof)).length := by
    omega
  have hoffset : 160 + (Abi.tail (hexBytes proof)).length < 2 ^ 256 := by
    have hle := length_tail_le (hexBytes proof)
    have hbytes := length_hexBytes proof
    omega
  have haddress : padStart 64 '0' (lower (destination.drop 2)) =
      ofBytes (Bytes.word ((address destination).setWidth 256)) := by
    have htext := addressText32_eq hdestination
    rw [ofBytes_word]
    exact (List.cons.inj (List.cons.inj htext).2).2
  have hcount : wordText publicInputs.length =
      ofBytes (Bytes.word (BitVec.ofNat 256 (publicInputs.map word).length)) := by
    rw [List.length_map, hlength]
    exact wordText_eq (by norm_num)
  rw [htailText, length_ofBytes, hhalf] at hinputsOffsetText
  change wordText (160 + (Abi.tail (hexBytes proof)).length) = inputsOffset at hinputsOffsetText
  change wordText 160 = proofOffset at hproofOffsetText
  rw [wordText_eq hoffset] at hinputsOffsetText
  rw [wordText_eq (by norm_num)] at hproofOffsetText
  rw [wordText_eq hamount] at hwordText
  rw [encodeTuple_withdraw, Abi.arrayTail, ofBytes_append, ← hcount, ← hinputsText,
    hinputsOffsetText, hproofOffsetText, hwordText, ← hnullifierText, ← haddress, ← htailText]
  exact (Except.ok.inj h).symm

end Arguments

/-! ### What is read back -/

section Calldata
variable {input : WithdrawCalldataInput} {calldata : Text}

/-- **The inputs that are accepted**, and what is written for them. -/
theorem encodeWithdrawCalldata_eq_ok : encodeWithdrawCalldata input = .ok calldata ↔
    Accepted input ∧ ∃ args, encodeArguments (trim input.proof) input.publicInputs input.nullifier
      (trim input.destination) input.grossAmount = .ok args ∧
      calldata = withdrawSelector ++ args := by
  unfold encodeWithdrawCalldata
  simp only [bind_eq_ok, ensure_eq_ok, exists_const, parseGrossAmount_eq_ok, pure_eq_ok]
  constructor
  · rintro ⟨hproof, hlength, hnullifier, hdestination, _, ⟨hamount, hpos, rfl⟩, args, hargs, rfl⟩
    have hwords := exists_encodeArguments.mp ⟨args, hargs⟩
    exact ⟨⟨hproof, hlength, hwords.1, hnullifier, hdestination, hamount, hpos⟩, args, hargs, rfl⟩
  · rintro ⟨h, args, hargs, rfl⟩
    exact ⟨h.proof, h.length, h.nullifier, h.destination, _,
      ⟨h.grossAmount, h.grossAmount_pos, rfl⟩, args, hargs, rfl⟩

theorem exists_calldata (h : Accepted input) :
    ∃ calldata, encodeWithdrawCalldata input = .ok calldata := by
  obtain ⟨args, hargs⟩ := exists_encodeArguments.mpr ⟨h.publicInputs, h.nullifier⟩
  exact ⟨_, encodeWithdrawCalldata_eq_ok.mpr ⟨h, args, hargs, rfl⟩⟩

/-- **Calldata for an amount of 256 bits** is read back. -/
theorem readsBack_of_lt (hstring : input.proof.length < 2 ^ 53)
    (h : encodeWithdrawCalldata input = .ok calldata) (hamount : input.grossAmount < 2 ^ 256) :
    ReadsBack input calldata := by
  obtain ⟨haccepted, args, hargs, rfl⟩ := encodeWithdrawCalldata_eq_ok.mp h
  have hproof : (trim input.proof).length < 2 ^ 53 :=
    lt_of_le_of_lt (length_trim_le input.proof) hstring
  have hwritten := encodeArguments_eq haccepted.proof hproof haccepted.length
    haccepted.destination hamount hargs
  have hselector : withdrawSelector.length = 10 := rfl
  have hsize : (encodeTuple withdrawParameters
      (input.arguments (BitVec.ofNat 256 input.grossAmount))).length < 2 ^ 256 := by
    have hlength := length_hexBytes (trim input.proof)
    have htail := length_tail_le (hexBytes (trim input.proof))
    have harray := length_arrayTail (input.publicInputs.map word)
    rw [List.length_map, haccepted.length] at harray
    have htails : Abi.tails (components withdrawParameters
        (input.arguments (BitVec.ofNat 256 input.grossAmount))) =
        Abi.tail (hexBytes (trim input.proof)) ++
          (Abi.arrayTail (input.publicInputs.map word) ++ []) := rfl
    have hheads : withdrawParameters.length = 5 := rfl
    rw [encodeTuple, Abi.length_encode, length_components, htails, List.length_append,
      List.append_nil, harray, hheads]
    omega
  refine ⟨?_, ?_, BitVec.ofNat 256 input.grossAmount, toNat_ofNat_of_lt hamount, ?_⟩
  · have heven := length_ofBytes (encodeTuple withdrawParameters
      (input.arguments (BitVec.ofNat 256 input.grossAmount)))
    have hdigits : Hex.Digits "9b0c797c".toList := by decide
    refine isHexString_iff.mpr ⟨"9b0c797c".toList ++ args, rfl, ?_, fun c hc => ?_⟩
    · have height : "9b0c797c".toList.length = 8 := rfl
      rw [List.length_append, height, hwritten]
      change (8 + (ofBytes (encodeTuple withdrawParameters
        (input.arguments (BitVec.ofNat 256 input.grossAmount)))).length) % 2 = 0
      omega
    · rcases List.mem_append.mp hc with hc | hc
      · exact hdigits c hc
      · rw [hwritten] at hc
        exact digits_ofBytes _ c hc
  · exact List.take_left' hselector
  · rw [List.drop_left' hselector, hwritten]
    exact (congrArg _ (hexBytes_hexText _)).trans (decode_encodeTuple hsize)

/-- **The calldata is read back exactly for amounts of 256 bits.** A text has fewer than `2 ^ 53`
characters. -/
theorem readsBack_iff (hstring : input.proof.length < 2 ^ 53)
    (h : encodeWithdrawCalldata input = .ok calldata) :
    ReadsBack input calldata ↔ input.grossAmount < 2 ^ 256 := by
  refine ⟨fun hread => ?_, readsBack_of_lt hstring h⟩
  obtain ⟨grossAmount, hamount, -⟩ := hread.arguments
  rw [← hamount]
  exact grossAmount.isLt

end Calldata

def sampleInput (grossAmount : ℕ) : WithdrawCalldataInput where
  proof := "0x1234".toList
  publicInputs := List.replicate 12 (hex32 7)
  nullifier := hex32 7
  destination := addressText 1
  grossAmountWei := Decimal.ofNat grossAmount

theorem grossAmount_sample (n : ℕ) : (sampleInput n).grossAmount = n := by
  change Decimal.value (trim (Decimal.ofNat n)) = n
  rw [trim_ofNat, Decimal.value_ofNat]

theorem accepted_sample {n : ℕ} (h : 0 < n) : Accepted (sampleInput n) where
  proof := by
    change isHexString (trim "0x1234".toList)
    decide
  length := List.length_replicate
  publicInputs value hvalue := (List.eq_of_mem_replicate hvalue) ▸ isHexBytes32_hex32 7
  nullifier := isHexBytes32_hex32 7
  destination := by
    have haddress := isEvmAddress_addressText 1
    rwa [sampleInput, trim_of_isHexOfLength haddress]
  grossAmount := by
    rw [sampleInput, trim_ofNat]
    exact Decimal.isDecimal_ofNat n
  grossAmount_pos := by rwa [grossAmount_sample]

theorem readsBack_iff_sample : ∃ calldata, encodeWithdrawCalldata (sampleInput 10001) = .ok calldata ∧
    (ReadsBack (sampleInput 10001) calldata ↔ (sampleInput 10001).grossAmount < 2 ^ 256) := by
  obtain ⟨calldata, h⟩ := exists_calldata (accepted_sample (show 0 < 10001 by decide))
  exact ⟨calldata, h, readsBack_iff (by decide) h⟩

/-- **An amount of 257 bits** is written, and shifts what stands behind it. -/
theorem overlong_amount_written : ∃ calldata,
    encodeWithdrawCalldata (sampleInput (2 ^ 256)) = .ok calldata ∧
      ¬ReadsBack (sampleInput (2 ^ 256)) calldata := by
  obtain ⟨calldata, h⟩ := exists_calldata (accepted_sample (show 0 < 2 ^ 256 by norm_num))
  refine ⟨calldata, h, fun hread => ?_⟩
  obtain ⟨grossAmount, hamount, -⟩ := hread.arguments
  have hlt := grossAmount.isLt
  rw [hamount, grossAmount_sample] at hlt
  omega

end Nullark.Web.WithdrawCalldata
