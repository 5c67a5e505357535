import Nullark.Js.Calldata
import Nullark.Relay.ContextHashes
import Nullark.Relay.FeePolicy

/-! # The calls that the relay reads

`decodeWithdrawalRelayCall` reads the calldata of a withdrawal, by its selector. It returns the one
error it finds or the call, whose texts `normalizeDecodedWithdrawalCall` writes in one spelling.

* `decodeWithdrawalRelayCall_eq_ok`: the calls that have an encrypted note. -/

namespace Nullark.Relay.WithdrawalCall

open Nullark.Lib.Outcome Nullark.Lib.Hex Nullark.Lib.AbiTuple Nullark.Evm.Basic
open Nullark.Pool.Interface Nullark.Js.Basic Nullark.Js.Bytes Nullark.Js.Package
open Nullark.Js.ContextHashes Nullark.Js.Calldata Nullark.Relay.FeePolicy

inductive WithdrawalRelayCalldataValidationMode
  | v11
  | v12Unlinkable
  deriving DecidableEq, Repr

structure WithdrawalRelayCalldataValidationInput where
  data : Text
  chainId : ℕ
  pool : Text
  relayValidationMode : Option WithdrawalRelayCalldataValidationMode
  deadlineEpochSeconds : Option ℤ
  expectedRelayer : Option Text
  expectedRelayerPolicyHash : Option Text
  feePolicy : Option WithdrawalRelayFeePolicy

structure WithdrawalRelayCall where
  selector : Text
  relayValidationMode : Option WithdrawalRelayCalldataValidationMode := none
  hasChangeNote : Bool
  hasOutputNote : Option Bool := none
  hasUserBounds : Bool
  publicInputs : List Text
  nullifier : Text
  destination : Text
  grossAmount : ℕ
  encryptedChangeNote : Option Text := none
  encryptedOutputNote : Option Text := none
  minNetAmount : Option ℕ := none
  maxFeeAmount : Option ℕ := none
  relayerPolicy : Option RelayerPolicyInput := none

structure WithdrawalRelayCalldataValidation where
  allowed : Bool
  errors : List String
  decoded : Option WithdrawalRelayCall

/-! ### Selectors and parameters -/

/-- `WITHDRAW_SELECTOR`. -/
def withdrawSelector : Text := "0x9b0c797c".toList

/-- `WITHDRAW_BOUNDED_SELECTOR`. -/
def withdrawFullExitSelector : Text := "0xc7787d0f".toList

/-- `PROOF_CONTEXT_V1_WITHDRAW_RELAYER_POLICY_SELECTOR`. -/
def withdrawRelayerPolicySelector : Text := "0x6666d824".toList

/-- `STAGE_C_WITHDRAW_UNBOUNDED_SELECTOR`. -/
def stageCWithdrawUnboundedSelector : Text := "0x7c61e6b1".toList

/-- `WITHDRAW_PARAMETERS`. -/
def withdrawParameters : List AbiType := [.bytes, .bytes32Array, .bytes32, .address, .uint256]

/-- `WITHDRAW_BOUNDED_PARAMETERS`. -/
def withdrawBoundedParameters : List AbiType := withdrawParameters ++ [.uint256, .uint256]

/-- `STAGE_B_RELAYER_POLICY_PARAMETERS`: the tuple has no tail, so that it stands where it is. -/
def stageBRelayerPolicyParameters : List AbiType :=
  withdrawParameters ++ [.address, .uint256, .uint256, .uint256]

/-- `STAGE_C_WITHDRAW_BOUNDED_PARAMETERS`. -/
def stageCWithdrawBoundedParameters : List AbiType :=
  [.bytes, .bytes32Array, .bytes32, .address, .uint256, .bytes, .uint256, .uint256]

/-! ### What the checks share -/

/-- `MAX_ENCRYPTED_NOTE_BYTES`. -/
def maxEncryptedNoteBytes : ℕ := 2048

/-- `MAINNET_CANDIDATE_FIXED_DENOMINATIONS_WEI`. -/
def supportedFixedDenominations : List ℕ :=
  [5000000000000000, 10000000000000000, 20000000000000000, 30000000000000000, 50000000000000000,
    100000000000000000, 200000000000000000, 300000000000000000, 500000000000000000,
    1000000000000000000]

/-- `publicInputs[index] ?? ZERO_BYTES32`. -/
def WithdrawalRelayCall.publicInput (call : WithdrawalRelayCall) (index : ℕ) : Text :=
  call.publicInputs.getD index zeroBytes32

/-- `publicInputs[index] ?? ""`. -/
def WithdrawalRelayCall.publicInputText (call : WithdrawalRelayCall) (index : ℕ) : Text :=
  call.publicInputs.getD index []

def addressToBytes32 (v : Viem) (address : Text) : Throws Text := do
  let checksummed ← v.getAddress address
  return '0' :: 'x' :: (List.replicate 24 '0' ++ lower (checksummed.drop 2))

/-- `bytes32ToBigInt`. -/
abbrev bytes32ToBigInt : Text → Throws ℕ := bigInt

/-- The policy that the pool makes of the two bounds. -/
def createStageCRelayerPolicy (call : WithdrawalRelayCall) : RelayerPolicyInput where
  relayer := zeroAddress
  minNetAmount := call.minNetAmount.getD 0
  maxFeeAmount := call.maxFeeAmount.getD 0
  deadlineOrZero := 0

/-! ### Decoding -/

section Code
variable (v : Viem) (d : Decoder)

def normalizePolicy : Option RelayerPolicyInput → Throws (Option RelayerPolicyInput)
  | none => .ok none
  | some policy => do
    let relayer ← v.getAddress policy.relayer
    return some { policy with relayer }

/-- **`normalizeDecodedWithdrawalCall`**: the bounds of a policy are those of the call. -/
def normalizeDecodedWithdrawalCall (input : WithdrawalRelayCall) : Throws WithdrawalRelayCall := do
  let destination ← v.getAddress input.destination
  let relayerPolicy ← normalizePolicy v input.relayerPolicy
  return {
    selector := input.selector
    hasChangeNote := input.hasChangeNote
    hasUserBounds := input.hasUserBounds
    publicInputs := input.publicInputs.map lower
    nullifier := lower input.nullifier
    destination := destination
    grossAmount := input.grossAmount
    encryptedChangeNote := input.encryptedChangeNote
    minNetAmount := (relayerPolicy.map (·.minNetAmount)).or input.minNetAmount
    maxFeeAmount := (relayerPolicy.map (·.maxFeeAmount)).or input.maxFeeAmount
    relayerPolicy := relayerPolicy }

/-- The texts that `viem` returns for what all the calls have. -/
def decodedCall (selector : Text) (publicInputs : List Bytes32) (nullifier : Bytes32)
    (destination : Address) (grossAmount : UInt256) : WithdrawalRelayCall where
  selector := selector
  hasChangeNote := false
  hasUserBounds := true
  publicInputs := publicInputs.map hex32
  nullifier := hex32 nullifier
  destination := v.checksumAddress destination
  grossAmount := grossAmount.toNat

def decodeWithdrawBounded (selector encodedParameters : Text) : Throws WithdrawalRelayCall := do
  let (_, publicInputs, nullifier, destination, grossAmount, minNetAmount, maxFeeAmount, ()) ←
    d.decodeAbiParameters withdrawBoundedParameters encodedParameters
  normalizeDecodedWithdrawalCall v
    { decodedCall v selector publicInputs nullifier destination grossAmount with
      minNetAmount := some minNetAmount.toNat
      maxFeeAmount := some maxFeeAmount.toNat }

def decodeStageBRelayerPolicy (selector encodedParameters : Text) :
    Throws WithdrawalRelayCall := do
  let (_, publicInputs, nullifier, destination, grossAmount, relayer, minNetAmount, maxFeeAmount,
      deadlineOrZero, ()) ←
    d.decodeAbiParameters stageBRelayerPolicyParameters encodedParameters
  normalizeDecodedWithdrawalCall v
    { decodedCall v selector publicInputs nullifier destination grossAmount with
      relayerPolicy := some
        { relayer := v.checksumAddress relayer, minNetAmount := minNetAmount.toNat
          maxFeeAmount := maxFeeAmount.toNat, deadlineOrZero := deadlineOrZero.toNat } }

def decodeStageCWithdrawBounded (selector encodedParameters : Text) :
    Throws WithdrawalRelayCall := do
  let (_, publicInputs, nullifier, destination, grossAmount, encryptedChangeNote, minNetAmount,
      maxFeeAmount, ()) ←
    d.decodeAbiParameters stageCWithdrawBoundedParameters encodedParameters
  normalizeDecodedWithdrawalCall v
    { decodedCall v selector publicInputs nullifier destination grossAmount with
      hasChangeNote := true
      encryptedChangeNote := some (hexText encryptedChangeNote)
      minNetAmount := some minNetAmount.toNat
      maxFeeAmount := some maxFeeAmount.toNat }

/-- `catch`: whatever is thrown is the one error. -/
def undecodable {α : Type} (result : Throws α) : Throws α :=
  result.mapError fun _ => "withdrawal calldata could not be decoded"

/-- **`decodeWithdrawalRelayCall`**: the error it pushes, or the call. -/
def decodeWithdrawalRelayCall (data : Text) : Throws WithdrawalRelayCall :=
  if ¬isHex data ∨ data.length < 10 then
    .error "withdrawal calldata must be hex with a function selector"
  else
    let selector := lower (data.take 10)
    let encodedParameters := '0' :: 'x' :: data.drop 10
    if selector = withdrawSelector then
      .error "Relayer requires user-bounded withdrawal calldata"
    else if selector = withdrawFullExitSelector then
      undecodable (decodeWithdrawBounded v d selector encodedParameters)
    else if selector = withdrawRelayerPolicySelector then
      undecodable (decodeStageBRelayerPolicy v d selector encodedParameters)
    else if selector = stageCWithdrawUnboundedSelector then
      .error "Unbounded private-change withdrawal calls are not accepted by the relayer"
    else if selector = withdrawBoundedSelector then
      undecodable (decodeStageCWithdrawBounded v d selector encodedParameters)
    else .error "withdrawal function selector is unsupported"

end Code

/-! ### Calls with an encrypted note -/

/-- The arguments of the bounded withdrawal with a note. -/
abbrev StageCArguments : Type := Tuple stageCWithdrawBoundedParameters

/-- **The call** that is made of its arguments, in a mode. -/
def stageCCall (v : Viem) (mode : Option WithdrawalRelayCalldataValidationMode) :
    StageCArguments → WithdrawalRelayCall
  | (_, publicInputs, nullifier, destination, grossAmount, encryptedChangeNote, minNetAmount,
      maxFeeAmount, ()) =>
    { decodedCall v withdrawBoundedSelector publicInputs nullifier destination grossAmount with
      relayValidationMode := mode
      hasChangeNote := true
      encryptedChangeNote := some (hexText encryptedChangeNote)
      minNetAmount := some minNetAmount.toNat
      maxFeeAmount := some maxFeeAmount.toNat }

section Spec
variable {v : Viem} {d : Decoder} {keccak : Bytes → Bytes32} (hv : Documented v keccak)

/-- A call is longer than its eight words, and not much longer than its three lists. -/
theorem length_stageC (args : StageCArguments) :
    256 ≤ (encodeTuple stageCWithdrawBoundedParameters args).length ∧
      (encodeTuple stageCWithdrawBoundedParameters args).length ≤
        args.1.length + 32 * args.2.1.length + args.2.2.2.2.2.1.length + 414 := by
  have hcount : (components stageCWithdrawBoundedParameters args).length = 8 :=
    length_components _ args
  unfold encodeTuple
  rw [Lib.Abi.length_encode, hcount]
  obtain ⟨proof, publicInputs, nullifier, destination, grossAmount, note, minNet, maxFee, ⟨⟩⟩ := args
  have hproof := length_tail_le proof
  have hnote := length_tail_le note
  have hinputs := length_arrayTail publicInputs
  simp only [stageCWithdrawBoundedParameters, components, component, Lib.Abi.tails,
    List.length_append, List.length_nil]
  omega

theorem undecodable_eq_ok {α : Type} {result : Throws α} {a : α} :
    undecodable result = .ok a ↔ result = .ok a := by
  cases result with
  | error message => simp [undecodable, Except.mapError]
  | ok b => simp [undecodable, Except.mapError]

/-- What is normalized keeps whether it has a note. -/
theorem hasChangeNote_of_normalized {input call : WithdrawalRelayCall}
    (h : normalizeDecodedWithdrawalCall v input = .ok call) :
    call.hasChangeNote = input.hasChangeNote := by
  unfold normalizeDecodedWithdrawalCall at h
  simp only [bind_eq_ok, pure_eq_ok] at h
  obtain ⟨_, -, _, -, rfl⟩ := h
  rfl

include hv

theorem decodeStageCWithdrawBounded_eq_ok {encodedParameters : Text}
    {call : WithdrawalRelayCall} :
    decodeStageCWithdrawBounded v d withdrawBoundedSelector encodedParameters = .ok call ↔
      ∃ args, d.decodeAbiParameters stageCWithdrawBoundedParameters encodedParameters = .ok args ∧
        call = stageCCall v none args := by
  unfold decodeStageCWithdrawBounded
  simp only [bind_eq_ok]
  refine exists_congr fun args => and_congr_right fun _ => ?_
  obtain ⟨proof, publicInputs, nullifier, destination, grossAmount, note, minNet, maxFee, ⟨⟩⟩ := args
  have haddress : v.getAddress (v.checksumAddress destination) =
      .ok (v.checksumAddress destination) :=
    (getAddress_eq_ok hv).mpr ⟨(hv.checksum _).1, by rw [address_checksumAddress hv]⟩
  have hlower : (publicInputs.map hex32).map lower = publicInputs.map hex32 := by
    rw [List.map_map]
    exact List.map_congr_left fun x _ => lower_hex32 x
  simp only [normalizeDecodedWithdrawalCall, decodedCall, haddress, ok_bind, normalizePolicy,
    hlower, lower_hex32, stageCCall, pure_eq_ok, Option.map_none, Option.none_or]
  exact eq_comm

/-- **The calls with a note** are made of the arguments that are decoded. -/
theorem decodeWithdrawalRelayCall_eq_ok {data : Text} {call : WithdrawalRelayCall}
    (hnote : call.hasChangeNote = true) : decodeWithdrawalRelayCall v d data = .ok call ↔
      (isHex data ∧ 10 ≤ data.length) ∧ lower (data.take 10) = withdrawBoundedSelector ∧
      ∃ args, d.decodeAbiParameters stageCWithdrawBoundedParameters
          ('0' :: 'x' :: data.drop 10) = .ok args ∧ call = stageCCall v none args := by
  have hbounded : ∀ {selector parameters : Text},
      decodeWithdrawBounded v d selector parameters ≠ .ok call := by
    intro selector parameters h
    unfold decodeWithdrawBounded at h
    obtain ⟨_, -, hcall⟩ := bind_eq_ok.mp h
    have hfalse : call.hasChangeNote = false := hasChangeNote_of_normalized hcall
    rw [hnote] at hfalse
    cases hfalse
  have hpolicy : ∀ {selector parameters : Text},
      decodeStageBRelayerPolicy v d selector parameters ≠ .ok call := by
    intro selector parameters h
    unfold decodeStageBRelayerPolicy at h
    obtain ⟨_, -, hcall⟩ := bind_eq_ok.mp h
    have hfalse : call.hasChangeNote = false := hasChangeNote_of_normalized hcall
    rw [hnote] at hfalse
    cases hfalse
  have hdistinct : withdrawBoundedSelector ∉ [withdrawSelector, withdrawFullExitSelector,
      withdrawRelayerPolicySelector, stageCWithdrawUnboundedSelector] := by decide
  simp only [List.mem_cons, not_or] at hdistinct
  obtain ⟨h1, h2, h3, h4, -⟩ := hdistinct
  unfold decodeWithdrawalRelayCall
  constructor
  · intro h
    dsimp only at h
    split_ifs at h with hhex hs1 hs2 hs3 hs4 hs5
    · exact absurd (undecodable_eq_ok.mp h) hbounded
    · exact absurd (undecodable_eq_ok.mp h) hpolicy
    · rw [undecodable_eq_ok, hs5, decodeStageCWithdrawBounded_eq_ok hv] at h
      rw [not_or, not_not, not_lt] at hhex
      exact ⟨hhex, hs5, h⟩
  · rintro ⟨⟨hhex, hlength⟩, hselector, hargs⟩
    dsimp only
    rw [if_neg (by rw [not_or, not_not, not_lt]; exact ⟨hhex, hlength⟩), hselector, if_neg h1,
      if_neg h2, if_neg h3, if_neg h4, if_pos rfl, undecodable_eq_ok,
      decodeStageCWithdrawBounded_eq_ok hv]
    exact hargs

end Spec

end Nullark.Relay.WithdrawalCall
