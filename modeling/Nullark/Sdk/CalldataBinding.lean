import Nullark.Sdk.Calldata

/-! # The binding of calldata to a plan

Before a withdrawal is signed its calldata is decoded and compared with the plan, argument by
argument. The public inputs are compared for the indices of the calldata, which may have ten of them
where the plan has twelve.

* `decodeStageCWithdrawCalldata_eq_ok`: the calldata that is decoded.
* `assertStageCWithdrawCalldataBinding_eq_ok`: the calldata that is accepted for a plan.
* `bindsCalldata_iff`: when what is accepted has the arguments of the plan. -/

namespace Nullark.Sdk.CalldataBinding

open Nullark.Lib Nullark.Lib.Outcome Nullark.Lib.AbiTuple
open Nullark.Lib.Hex hiding value Digits ofNat
open Nullark.Evm.Basic Nullark.Pool.Interface
open Nullark.Js.Basic Nullark.Js.Bytes Nullark.Js.Numbers Nullark.Js.Package Nullark.Js.Calldata
open Nullark.Relay.WithdrawalCall (StageCArguments stageCWithdrawBoundedParameters
  length_stageC withdrawBoundedParameters)
open Nullark.Sdk.Calldata

/-! ### The code -/

structure DecodedStageCWithdrawCalldata where
  proof : Text
  publicInputs : List Text
  nullifier : Text
  destination : Text
  grossAmountWei : Text
  encryptedChangeNote : Text
  minNetAmountWei : Text
  maxFeeWei : Text

structure WithdrawCalldataBinding where
  publicInputs : List Text
  nullifier : Text
  destination : Text
  grossAmountWei : Text
  minNetAmountWei : Text
  maxFeeWei : Text

def withdrawBoundedSelector : Text := "0xc7787d0f".toList

/-- The arguments of a call of one of the functions of `NULLARK_POOL_ABI`. -/
inductive WithdrawArguments
  | bounded (args : Tuple withdrawBoundedParameters)
  | stageC (args : StageCArguments)

section Code
variable (v : Viem) (d : Decoder)

/-- What is behind the selector; there has to be something. -/
def encodedArguments (data : Text) : Throws Text :=
  if data.length ≤ 10 then .error "Slice starting at offset is out-of-bounds."
  else .ok ('0' :: 'x' :: data.drop 10)

/-- **`decodeFunctionData`** of `viem`, which compares the selector as a text. -/
def decodeFunctionData (data : Text) : Throws WithdrawArguments := do
  if data.take 10 = withdrawBoundedSelector then
    return .bounded (← d.decodeAbiParameters _ (← encodedArguments data))
  else if data.take 10 = stageCWithdrawBoundedSelector then
    return .stageC (← d.decodeAbiParameters _ (← encodedArguments data))
  else .error "Encoded function signature not found on ABI."

/-- The checks of the arguments. -/
def normalizeDecoded : WithdrawArguments → Throws DecodedStageCWithdrawCalldata
  | .bounded _ => .error "wrong-shape"
  | .stageC (proof, publicInputs, nullifier, destination, grossAmount, encryptedChangeNote,
      minNetAmount, maxFeeAmount, ()) => do
    let proof ← normalizeHexBytes (hexText proof) "Expected proof to be even-length hex bytes."
    let publicInputs ← assertDecodedStageCWithdrawPublicInputs (publicInputs.map hex32)
    let nullifier ← assertBytes32 (hex32 nullifier) "Expected a 32-byte nullifier."
    let destination ← assertAddress (v.checksumAddress destination)
    let encryptedChangeNote ← normalizeHexBytes (hexText encryptedChangeNote)
      "Expected proof and encrypted change note to be even-length hex bytes."
    assertAmounts grossAmount.toNat minNetAmount.toNat maxFeeAmount.toNat
    return { proof, publicInputs, nullifier, destination, encryptedChangeNote
             grossAmountWei := Decimal.ofNat grossAmount.toNat
             minNetAmountWei := Decimal.ofNat minNetAmount.toNat
             maxFeeWei := Decimal.ofNat maxFeeAmount.toNat }

/-- The errors of the checks are thrown again, all others become one. -/
def rethrow {α : Type} (result : Throws α) : Throws α :=
  result.mapError fun message =>
    if "Expected".toList <+: message.toList then message
    else "Expected complete proof-bound stage-C withdrawal calldata."

/-- **`decodeStageCWithdrawCalldata`**. -/
def decodeStageCWithdrawCalldata (value : Text) : Throws DecodedStageCWithdrawCalldata := do
  ensure (isHexString value) "Expected withdrawal calldata to be even-length hex bytes."
  ensure (stageCWithdrawBoundedSelector <+: lower value)
    "Expected proof-bound stage-C withdrawal calldata selector."
  rethrow (decodeFunctionData d value >>= normalizeDecoded v)

/-- **`assertStageCWithdrawCalldataBinding`**. -/
def assertStageCWithdrawCalldataBinding (value : Text) (expected : WithdrawCalldataBinding) :
    Throws Text := do
  let decoded ← decodeStageCWithdrawCalldata v d value
  let expectedPublicInputs ← assertPublicInputs expected.publicInputs
  let expectedNullifier ← assertBytes32 expected.nullifier "Expected a 32-byte nullifier."
  let expectedDestination ← assertAddress (trim expected.destination)
  let expectedGrossAmount ← normalizeDecimalUint256 expected.grossAmountWei
    "Expected gross amount wei as a decimal integer."
  let expectedMinNetAmount ← normalizeDecimalUint256 expected.minNetAmountWei
    "Expected minimum net amount wei as a decimal integer."
  let expectedMaxFee ← normalizeDecimalUint256 expected.maxFeeWei
    "Expected maximum fee wei as a decimal integer."
  -- `some` runs over the inputs of the calldata only
  ensure (∀ entry ∈ decoded.publicInputs.zipIdx,
      expectedPublicInputs[entry.2]?.map lower = some (lower entry.1))
    "Withdrawal calldata public inputs do not match the proof bundle."
  ensure (lower decoded.nullifier = lower expectedNullifier)
    "Withdrawal calldata nullifier does not match the proof bundle."
  ensure (lower decoded.destination = lower expectedDestination)
    "Withdrawal calldata destination does not match the withdrawal plan."
  ensure (Decimal.value decoded.grossAmountWei = expectedGrossAmount)
    "Withdrawal calldata amount does not match the withdrawal plan."
  ensure (Decimal.value decoded.minNetAmountWei = expectedMinNetAmount ∧
      Decimal.value decoded.maxFeeWei = expectedMaxFee)
    "Withdrawal calldata fee bounds do not match the withdrawal plan."
  return value

end Code

/-! ### What is decoded -/

/-- The arguments that pass the checks. -/
def Complete : StageCArguments → Prop
  | (_, publicInputs, _, _, grossAmount, _, minNetAmount, maxFeeAmount, ()) =>
    (publicInputs.length = 12 ∨ publicInputs.length = 10) ∧ 0 < grossAmount.toNat ∧
      minNetAmount.toNat ≤ grossAmount.toNat ∧ maxFeeAmount.toNat ≤ grossAmount.toNat

instance : (args : StageCArguments) → Decidable (Complete args)
  | (_, _, _, _, _, _, _, _, ()) => inferInstanceAs (Decidable (_ ∧ _))

/-- The texts that are made of them. -/
def decoded (v : Viem) : StageCArguments → DecodedStageCWithdrawCalldata
  | (proof, publicInputs, nullifier, destination, grossAmount, encryptedChangeNote, minNetAmount,
      maxFeeAmount, ()) =>
    { proof := hexText proof
      publicInputs := publicInputs.map hex32
      nullifier := hex32 nullifier
      destination := v.checksumAddress destination
      grossAmountWei := Decimal.ofNat grossAmount.toNat
      encryptedChangeNote := hexText encryptedChangeNote
      minNetAmountWei := Decimal.ofNat minNetAmount.toNat
      maxFeeWei := Decimal.ofNat maxFeeAmount.toNat }

theorem rethrow_eq_ok {α : Type} {result : Throws α} {a : α} :
    rethrow result = .ok a ↔ result = .ok a := by
  cases result with
  | error message => exact ⟨fun h => (nomatch h), fun h => (nomatch h)⟩
  | ok b => exact Iff.rfl

theorem decodeFunctionData_eq_ok {d : Decoder} {data : Text} {args : StageCArguments} :
    decodeFunctionData d data = .ok (.stageC args) ↔
      data.take 10 = stageCWithdrawBoundedSelector ∧ 10 < data.length ∧
        d.decodeAbiParameters stageCWithdrawBoundedParameters ('0' :: 'x' :: data.drop 10) =
          .ok args := by
  have hne : stageCWithdrawBoundedSelector ≠ withdrawBoundedSelector := by decide
  have hencoded : ∀ {t : Text}, encodedArguments data = .ok t ↔
      10 < data.length ∧ '0' :: 'x' :: data.drop 10 = t := by
    intro t
    unfold encodedArguments
    split_ifs with hlength
    · exact ⟨fun h => (nomatch h), fun h => absurd hlength (not_le.mpr h.1)⟩
    · rw [Except.ok.injEq, and_iff_right (not_le.mp hlength)]
  unfold decodeFunctionData
  split_ifs with hbounded hstageC
  · simp only [bind_eq_ok, pure_eq_ok, reduceCtorEq, and_false, exists_false, false_iff]
    exact fun h => hne (h.1.symm.trans hbounded)
  · simp only [bind_eq_ok, pure_eq_ok, WithdrawArguments.stageC.injEq, hencoded]
    constructor
    · rintro ⟨_, ⟨hlength, rfl⟩, _, hdecode, rfl⟩
      exact ⟨hstageC, hlength, hdecode⟩
    · rintro ⟨-, hlength, hdecode⟩
      exact ⟨_, ⟨hlength, rfl⟩, args, hdecode, rfl⟩
  · exact ⟨fun h => (nomatch h), fun h => absurd h.1 hstageC⟩

section Spec
variable {v : Viem} {d : Decoder} {keccak : Bytes → Bytes32} (hv : Documented v keccak)
include hv

theorem normalizeDecoded_eq_ok {args : StageCArguments} {c : DecodedStageCWithdrawCalldata} :
    normalizeDecoded v (.stageC args) = .ok c ↔ Complete args ∧ c = decoded v args := by
  obtain ⟨proof, publicInputs, nullifier, destination, gross, note, minNet, maxFee, ⟨⟩⟩ := args
  have hproof := isHexString_hexText proof
  have hnote := isHexString_hexText note
  have hwords : ∀ x ∈ publicInputs.map hex32, isHexBytes32 x :=
    List.forall_mem_map.mpr fun x _ => isHexBytes32_hex32 x
  simp only [normalizeDecoded, bind_eq_ok, normalizeHexBytes_eq_ok, trim_of_isHexString hproof,
    trim_of_isHexString hnote, assertDecodedStageCWithdrawPublicInputs_eq_ok, assertBytes32_eq_ok,
    assertAddress_eq_ok, assertAmounts_eq_ok, pure_eq_ok, exists_const, List.length_map]
  constructor
  · rintro ⟨_, ⟨-, rfl⟩, _, ⟨hlength, -, rfl⟩, _, ⟨-, rfl⟩, _, ⟨-, rfl⟩, _, ⟨-, rfl⟩,
      ⟨hpos, hmin, hmax⟩, rfl⟩
    exact ⟨⟨hlength, hpos, hmin, hmax⟩, rfl⟩
  · rintro ⟨⟨hlength, hpos, hmin, hmax⟩, rfl⟩
    exact ⟨_, ⟨hproof, rfl⟩, _, ⟨hlength, hwords, rfl⟩, _, ⟨isHexBytes32_hex32 _, rfl⟩, _,
      ⟨(hv.checksum _).1, rfl⟩, _, ⟨hnote, rfl⟩, ⟨hpos, hmin, hmax⟩, rfl⟩

/-- **The calldata that is decoded.** -/
theorem decodeStageCWithdrawCalldata_eq_ok {value : Text} {c : DecodedStageCWithdrawCalldata} :
    decodeStageCWithdrawCalldata v d value = .ok c ↔
      isHexString value ∧ value.take 10 = stageCWithdrawBoundedSelector ∧ 10 < value.length ∧
        ∃ args, d.decodeAbiParameters stageCWithdrawBoundedParameters
            ('0' :: 'x' :: value.drop 10) = .ok args ∧ Complete args ∧ c = decoded v args := by
  have hprefix : value.take 10 = stageCWithdrawBoundedSelector →
      stageCWithdrawBoundedSelector <+: lower value := by
    intro h
    have hlower : lower stageCWithdrawBoundedSelector = stageCWithdrawBoundedSelector := by decide
    rw [← hlower, ← h]
    exact (List.take_prefix 10 value).map _
  unfold decodeStageCWithdrawCalldata
  simp only [bind_eq_ok, ensure_eq_ok, exists_const, rethrow_eq_ok]
  constructor
  · rintro ⟨hhex, -, decoded, hdecode, hc⟩
    cases decoded with
    | bounded args => cases hc
    | stageC args =>
      obtain ⟨hselector, hlength, hargs⟩ := decodeFunctionData_eq_ok.mp hdecode
      exact ⟨hhex, hselector, hlength, args, hargs, (normalizeDecoded_eq_ok hv).mp hc⟩
  · rintro ⟨hhex, hselector, hlength, args, hargs, hc⟩
    exact ⟨hhex, hprefix hselector, _, decodeFunctionData_eq_ok.mpr ⟨hselector, hlength, hargs⟩,
      (normalizeDecoded_eq_ok hv).mpr hc⟩

/-- **Calldata that is written is decoded.** -/
theorem decode_callBytes_stageC (hd : d.Inverts) {args : StageCArguments}
    (hcomplete : Complete args)
    (hsize : (callBytes 0x678d8506 stageCWithdrawBoundedParameters args).length < 2 ^ 256) :
    decodeStageCWithdrawCalldata v d
        (hexText (callBytes 0x678d8506 stageCWithdrawBoundedParameters args)) =
      .ok (decoded v args) := by
  obtain ⟨-, hdecode⟩ := decode_callBytes hd (isHexString_hexText _) (hexBytes_hexText _) hsize
  have hselector : selectorText 0x678d8506 = stageCWithdrawBoundedSelector := by decide
  have htake := take_hexText_callBytes 0x678d8506 stageCWithdrawBoundedParameters args
  have hlength := length_hexText_callBytes 0x678d8506 stageCWithdrawBoundedParameters args
  have hlong := (length_stageC args).1
  exact (decodeStageCWithdrawCalldata_eq_ok hv).mpr ⟨isHexString_hexText _, htake.trans hselector,
    by omega, args, hdecode, hcomplete, rfl⟩

theorem length_publicInputs_of_ok {value : Text} {c : DecodedStageCWithdrawCalldata}
    (h : decodeStageCWithdrawCalldata v d value = .ok c) :
    c.publicInputs.length = 12 ∨ c.publicInputs.length = 10 := by
  obtain ⟨-, -, -, ⟨_, publicInputs, _, _, _, _, _, _, ⟨⟩⟩, -, hcomplete, rfl⟩ :=
    (decodeStageCWithdrawCalldata_eq_ok hv).mp h
  have hlength : (publicInputs.map hex32).length = publicInputs.length := List.length_map hex32
  change (publicInputs.map hex32).length = 12 ∨ (publicInputs.map hex32).length = 10
  rw [hlength]
  exact hcomplete.1

end Spec

/-! ### What is accepted -/

/-- The fields of a plan are texts of their kinds. -/
structure WellFormed (expected : WithdrawCalldataBinding) : Prop where
  length : expected.publicInputs.length = 12
  publicInputs : ∀ value ∈ expected.publicInputs, isHexBytes32 value
  nullifier : isHexBytes32 expected.nullifier
  destination : isEvmAddress (trim expected.destination)
  grossAmount : Decimal.isDecimal (trim expected.grossAmountWei)
  minNetAmount : Decimal.isDecimal (trim expected.minNetAmountWei)
  maxFee : Decimal.isDecimal (trim expected.maxFeeWei)

/-- The arguments but for the public inputs are those of the plan. -/
structure SameFields (c : DecodedStageCWithdrawCalldata) (expected : WithdrawCalldataBinding) :
    Prop where
  nullifier : lower c.nullifier = lower expected.nullifier
  destination : lower c.destination = lower (trim expected.destination)
  grossAmount : Decimal.value c.grossAmountWei = Decimal.value (trim expected.grossAmountWei)
  minNetAmount : Decimal.value c.minNetAmountWei = Decimal.value (trim expected.minNetAmountWei)
  maxFee : Decimal.value c.maxFeeWei = Decimal.value (trim expected.maxFeeWei)

/-- The public inputs are the same lists of words. -/
def SameInputs (c : DecodedStageCWithdrawCalldata) (expected : WithdrawCalldataBinding) : Prop :=
  c.publicInputs.map lower = expected.publicInputs.map lower

/-- The public inputs of the calldata are the first ones of the plan. -/
def FirstInputs (c : DecodedStageCWithdrawCalldata) (expected : WithdrawCalldataBinding) : Prop :=
  c.publicInputs.map lower <+: expected.publicInputs.map lower

/-- The comparison by index is one of the first words. -/
theorem forall_zipIdx_iff_prefix {α β : Type} {f : α → β} {l m : List α} :
    (∀ entry ∈ l.zipIdx, m[entry.2]?.map f = some (f entry.1)) ↔ l.map f <+: m.map f := by
  rw [List.prefix_iff_getElem?]
  constructor
  · intro h i hi
    rw [List.length_map] at hi
    rw [List.getElem?_map, List.getElem_map]
    exact h (l[i], i) (List.mem_zipIdx_iff_getElem?.mpr (List.getElem?_eq_getElem hi))
  · rintro h ⟨x, i⟩ hentry
    obtain ⟨hi, hx⟩ := List.getElem?_eq_some_iff.mp (List.mem_zipIdx_iff_getElem?.mp hentry)
    have hmap := h i (by rw [List.length_map]; exact hi)
    rw [List.getElem?_map, List.getElem_map] at hmap
    exact hmap.trans (congrArg (fun y => some (f y)) hx)

section Binding
variable {v : Viem} {d : Decoder} {value : Text} {expected : WithdrawCalldataBinding}

/-- **The calldata that is accepted for a plan.** -/
theorem assertStageCWithdrawCalldataBinding_eq_ok {r : Text} :
    assertStageCWithdrawCalldataBinding v d value expected = .ok r ↔
      (∃ c, decodeStageCWithdrawCalldata v d value = .ok c ∧ WellFormed expected ∧
        FirstInputs c expected ∧ SameFields c expected) ∧ r = value := by
  unfold assertStageCWithdrawCalldataBinding
  simp only [bind_eq_ok, assertPublicInputs_eq_ok, assertBytes32_eq_ok, assertAddress_eq_ok,
    normalizeDecimalUint256_eq_ok, ensure_eq_ok, exists_const, pure_eq_ok,
    forall_zipIdx_iff_prefix]
  constructor
  · rintro ⟨c, hc, _, ⟨h1, h2, rfl⟩, _, ⟨h3, rfl⟩, _, ⟨h4, rfl⟩, _, ⟨h5, rfl⟩, _, ⟨h6, rfl⟩, _,
      ⟨h7, rfl⟩, hfirst, h8, h9, h10, ⟨h11, h12⟩, rfl⟩
    exact ⟨⟨c, hc, ⟨h1, h2, h3, h4, h5, h6, h7⟩, hfirst, ⟨h8, h9, h10, h11, h12⟩⟩, rfl⟩
  · rintro ⟨⟨c, hc, ⟨h1, h2, h3, h4, h5, h6, h7⟩, hfirst, ⟨h8, h9, h10, h11, h12⟩⟩, rfl⟩
    exact ⟨c, hc, _, ⟨h1, h2, rfl⟩, _, ⟨h3, rfl⟩, _, ⟨h4, rfl⟩, _, ⟨h5, rfl⟩, _, ⟨h6, rfl⟩, _,
      ⟨h7, rfl⟩, hfirst, h8, h9, h10, ⟨h11, h12⟩, rfl⟩

/-- **What is accepted has the arguments of the plan.** -/
def BindsCalldata (v : Viem) (d : Decoder) (value : Text) (expected : WithdrawCalldataBinding) :
    Prop :=
  ∀ r, assertStageCWithdrawCalldataBinding v d value expected = .ok r →
    ∃ c, decodeStageCWithdrawCalldata v d value = .ok c ∧ SameInputs c expected ∧
      SameFields c expected

/-- The calldata does not have ten public inputs that are the first of the twelve of the plan, with
all else as in the plan. -/
def NotCutShort (v : Viem) (d : Decoder) (value : Text) (expected : WithdrawCalldataBinding) :
    Prop :=
  ∀ c, decodeStageCWithdrawCalldata v d value = .ok c → c.publicInputs.length = 10 →
    ¬(WellFormed expected ∧ FirstInputs c expected ∧ SameFields c expected)

theorem sameInputs_iff {c : DecodedStageCWithdrawCalldata} (hexpected : WellFormed expected)
    (hfirst : FirstInputs c expected) : SameInputs c expected ↔ c.publicInputs.length = 12 := by
  constructor
  · intro h
    have hlength := congrArg List.length h
    rw [List.length_map, List.length_map, hexpected.length] at hlength
    exact hlength
  · intro h
    refine List.IsPrefix.eq_of_length hfirst ?_
    rw [List.length_map, List.length_map, hexpected.length, h]

/-- **The binding holds** exactly for the calldata that is not cut short. -/
theorem bindsCalldata_iff {keccak : Bytes → Bytes32} (hv : Documented v keccak) :
    BindsCalldata v d value expected ↔ NotCutShort v d value expected := by
  constructor
  · rintro h c hc hten ⟨hexpected, hfirst, hfields⟩
    obtain ⟨c', hc', hsame, -⟩ := h value
      (assertStageCWithdrawCalldataBinding_eq_ok.mpr ⟨⟨c, hc, hexpected, hfirst, hfields⟩, rfl⟩)
    rw [hc] at hc'
    obtain rfl := Except.ok.inj hc'
    have htwelve := (sameInputs_iff hexpected hfirst).mp hsame
    omega
  · intro h r hr
    obtain ⟨⟨c, hc, hexpected, hfirst, hfields⟩, -⟩ :=
      assertStageCWithdrawCalldataBinding_eq_ok.mp hr
    rcases length_publicInputs_of_ok hv hc with htwelve | hten
    · exact ⟨c, hc, (sameInputs_iff hexpected hfirst).mpr htwelve, hfields⟩
    · exact absurd ⟨hexpected, hfirst, hfields⟩ (h c hc hten)

end Binding

/-! ### Calls with ten and with twelve public inputs -/

/-- Arguments with `n` public inputs. -/
def zeroArguments (n : ℕ) : StageCArguments := ([], List.replicate n 0, 0, 0, 1, [], 0, 0, ())

def zeroCalldata (n : ℕ) : Text :=
  hexText (callBytes 0x678d8506 stageCWithdrawBoundedParameters (zeroArguments n))

/-- A plan with twelve. -/
def zeroPlan : WithdrawCalldataBinding where
  publicInputs := List.replicate 12 (hex32 0)
  nullifier := hex32 0
  destination := addressText 0
  grossAmountWei := "1".toList
  minNetAmountWei := "0".toList
  maxFeeWei := "0".toList

section Zero
variable {n : ℕ} (hn : n = 12 ∨ n = 10)
include hn

theorem decode_zeroCalldata :
    decodeStageCWithdrawCalldata digitsViem standardDecoder (zeroCalldata n) =
      .ok (decoded digitsViem (zeroArguments n)) := by
  have hcomplete : Complete (zeroArguments n) := by
    rcases hn with rfl | rfl <;> decide
  have hsize : (callBytes 0x678d8506 stageCWithdrawBoundedParameters
      (zeroArguments n)).length < 2 ^ 256 := by
    have hle := (length_stageC (zeroArguments n)).2
    have hinputs : (zeroArguments n).2.1.length = n := List.length_replicate
    have hbig : 4 + (0 + 32 * 12 + 0 + 414) < 2 ^ 256 := by decide
    rw [hinputs] at hle
    rw [callBytes, List.length_append, Bytes.length_beBytes]
    refine lt_of_le_of_lt (Nat.add_le_add_left (hle.trans ?_) 4) hbig
    have htwelve : n ≤ 12 := by omega
    exact Nat.add_le_add_right (Nat.add_le_add_left (Nat.mul_le_mul_left 32 htwelve) 0) 414
  exact decode_callBytes_stageC documented_digitsViem standardDecoder_inverts hcomplete hsize

/-- The call is accepted for the plan. -/
theorem zeroCalldata_accepted :
    assertStageCWithdrawCalldataBinding digitsViem standardDecoder (zeroCalldata n) zeroPlan =
      .ok (zeroCalldata n) := by
  have hexpected : WellFormed zeroPlan :=
    ⟨rfl, fun x hx => (List.mem_replicate.mp hx).2 ▸ isHexBytes32_hex32 0, isHexBytes32_hex32 0,
      by decide, by decide, by decide, by decide⟩
  have hfirst : FirstInputs (decoded digitsViem (zeroArguments n)) zeroPlan := by
    rcases hn with rfl | rfl
    · exact List.prefix_rfl
    · exact ⟨List.replicate 2 (lower (hex32 0)), rfl⟩
  have hfields : SameFields (decoded digitsViem (zeroArguments n)) zeroPlan :=
    ⟨rfl, (by decide : lower (addressText 0) = lower (trim (addressText 0))), rfl, rfl, rfl⟩
  exact assertStageCWithdrawCalldataBinding_eq_ok.mpr
    ⟨⟨_, decode_zeroCalldata hn, hexpected, hfirst, hfields⟩, rfl⟩

end Zero

/-- The call with ten is accepted, and is not bound to the plan. -/
theorem short_call_accepted :
    assertStageCWithdrawCalldataBinding digitsViem standardDecoder (zeroCalldata 10) zeroPlan =
        .ok (zeroCalldata 10) ∧
      ¬BindsCalldata digitsViem standardDecoder (zeroCalldata 10) zeroPlan := by
  have haccepted := zeroCalldata_accepted (.inr rfl : 10 = 12 ∨ 10 = 10)
  refine ⟨haccepted, fun h => ?_⟩
  obtain ⟨c, hc, hsame, -⟩ := h _ haccepted
  rw [decode_zeroCalldata (.inr rfl)] at hc
  obtain rfl := Except.ok.inj hc
  have hlength := congrArg List.length hsame
  exact absurd hlength (by decide)

/-- The call with twelve is accepted, and is bound to the plan. -/
theorem full_call_bound :
    assertStageCWithdrawCalldataBinding digitsViem standardDecoder (zeroCalldata 12) zeroPlan =
        .ok (zeroCalldata 12) ∧
      BindsCalldata digitsViem standardDecoder (zeroCalldata 12) zeroPlan := by
  refine ⟨zeroCalldata_accepted (.inl rfl), (bindsCalldata_iff documented_digitsViem).mpr ?_⟩
  intro c hc hten
  rw [decode_zeroCalldata (.inl rfl)] at hc
  obtain rfl := Except.ok.inj hc
  exact absurd hten (by decide)

end Nullark.Sdk.CalldataBinding
