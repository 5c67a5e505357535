import Nullark.Js.Package
import Nullark.Lib.AbiTuple

/-! # Calldata

The bytes of a call are its selector and the encoding of its arguments. `encodeFunctionData` of
`viem` writes them, and `decodeAbiParameters` reads the arguments, of which it is only known that it
inverts the encoding (`Decoder.Inverts`).

* `encodeFunctionData_eq`: what is written for arguments of their types.
* `decode_callBytes`: the arguments of a call are read back. -/

namespace Nullark.Js.Calldata

open Nullark.Lib.Outcome Nullark.Lib.Hex Nullark.Lib.Bytes Nullark.Lib.Abi Nullark.Lib.AbiTuple
open Nullark.Evm.Basic Nullark.Pool.Interface Nullark.Js.Basic Nullark.Js.Bytes Nullark.Js.Package

/-- `encodeFunctionData`, for the function with the selector. -/
def encodeFunctionData (v : Viem) (selector : Text) (args : List AbiValue) : Throws Text := do
  let data ← v.encodeAbiParameters args
  return selector ++ data.drop 2

/-- **`decodeAbiParameters`**, which returns values of the types it is asked for. -/
structure Decoder where
  decodeAbiParameters : (ts : List AbiType) → Text → Throws (Tuple ts)

/-- **The bytes of a call.** -/
def callBytes (selector : Bytes4) (ts : List AbiType) (args : Tuple ts) : Bytes :=
  beBytes 4 selector.toNat ++ encodeTuple ts args

/-- What is encoded is read back, from every text of the encoding. -/
def Decoder.Inverts (d : Decoder) : Prop :=
  ∀ (ts : List AbiType) (args : Tuple ts) (t : Text), isHexString t →
    hexBytes t = encodeTuple ts args → (encodeTuple ts args).length < 2 ^ 256 →
    d.decodeAbiParameters ts t = .ok args

/-- The text of a selector. -/
def selectorText (selector : Bytes4) : Text := '0' :: 'x' :: fixed 8 selector.toNat

theorem hexText_callBytes (selector : Bytes4) (ts : List AbiType) (args : Tuple ts) :
    hexText (callBytes selector ts args) =
      selectorText selector ++ (hexText (encodeTuple ts args)).drop 2 := by
  have hselector : ofBytes (beBytes 4 selector.toNat) = fixed 8 selector.toNat :=
    ofBytes_beBytes 4 _
  simp only [callBytes, hexText, selectorText, ofBytes_append, hselector, List.drop_succ_cons,
    List.drop_zero, List.cons_append]

theorem length_selectorText (selector : Bytes4) : (selectorText selector).length = 10 := by
  rw [selectorText, List.length_cons, List.length_cons, length_fixed]

theorem take_hexText_callBytes (selector : Bytes4) (ts : List AbiType) (args : Tuple ts) :
    (hexText (callBytes selector ts args)).take 10 = selectorText selector := by
  rw [hexText_callBytes]
  exact List.take_left' (length_selectorText selector)

theorem length_hexText_callBytes (selector : Bytes4) (ts : List AbiType) (args : Tuple ts) :
    (hexText (callBytes selector ts args)).length = 10 + 2 * (encodeTuple ts args).length := by
  have hlength : (hexText (encodeTuple ts args)).length = 2 * (encodeTuple ts args).length + 2 := by
    rw [hexText, List.length_cons, List.length_cons, length_ofBytes]
  rw [hexText_callBytes, List.length_append, length_selectorText, List.length_drop, hlength]
  omega

/-- **The calldata that is written.** -/
theorem encodeFunctionData_eq {v : Viem} {keccak : Bytes → Bytes32} (hv : Documented v keccak)
    {selector : Bytes4} {values : List AbiValue} {ts : List AbiType} {args : Tuple ts}
    (hfits : ∀ x ∈ values, x.Fits v) (hargs : values.map (·.component) = components ts args) :
    encodeFunctionData v (selectorText selector) values =
      .ok (hexText (callBytes selector ts args)) := by
  rw [encodeFunctionData, hv.encode values hfits, ok_bind, hargs, hexText_callBytes]
  rfl

/-- A text of a call has the selector in its first ten characters and the arguments behind. -/
theorem parts_of_callBytes {t : Text} {selector : Bytes4} {ts : List AbiType} {args : Tuple ts}
    (ht : isHexString t) (h : hexBytes t = callBytes selector ts args) :
    lower (t.take 10) = selectorText selector ∧ isHexString ('0' :: 'x' :: t.drop 10) ∧
      hexBytes ('0' :: 'x' :: t.drop 10) = encodeTuple ts args := by
  have hlower := hexText_hexBytes ht
  rw [h, hexText_callBytes] at hlower
  obtain ⟨digits, rfl, hlen, hd⟩ := isHexString_iff.mp ht
  have hsplit : lower digits = fixed 8 selector.toNat ++ ofBytes (encodeTuple ts args) := by
    rw [lower_cons_hex] at hlower
    exact (List.cons.inj (List.cons.inj hlower).2).2.symm
  have hselector : (fixed 8 selector.toNat).length = 8 := length_fixed _ _
  have hlong : 8 ≤ digits.length := by
    rw [← length_lower, hsplit, List.length_append, hselector]
    omega
  have htake : lower (digits.take 8) = fixed 8 selector.toNat := by
    rw [lower, List.map_take]
    change (lower digits).take 8 = _
    rw [hsplit, List.take_left' hselector]
  have hdrop : lower (digits.drop 8) = ofBytes (encodeTuple ts args) := by
    rw [lower, List.map_drop]
    change (lower digits).drop 8 = _
    rw [hsplit, List.drop_left' hselector]
  have hrest : isHexString ('0' :: 'x' :: digits.drop 8) := by
    refine ⟨?_, fun c hc => hd c (List.mem_of_mem_drop hc)⟩
    rw [List.length_drop]
    omega
  refine ⟨?_, hrest, ?_⟩
  · rw [List.take_succ_cons, List.take_succ_cons, lower_cons_hex, htake, selectorText]
  · rw [List.drop_succ_cons, List.drop_succ_cons, ← hexBytes_lower hrest, lower_cons_hex, hdrop]
    exact hexBytes_hexText _

/-- **The arguments of a call are read back.** -/
theorem decode_callBytes {d : Decoder} (hd : d.Inverts) {t : Text} {selector : Bytes4}
    {ts : List AbiType} {args : Tuple ts} (ht : isHexString t)
    (h : hexBytes t = callBytes selector ts args)
    (hsize : (callBytes selector ts args).length < 2 ^ 256) :
    lower (t.take 10) = selectorText selector ∧
      d.decodeAbiParameters ts ('0' :: 'x' :: t.drop 10) = .ok args := by
  obtain ⟨hselector, hrest, hargs⟩ := parts_of_callBytes ht h
  refine ⟨hselector, hd ts args _ hrest hargs (lt_of_le_of_lt ?_ hsize)⟩
  rw [callBytes, List.length_append]
  omega

/-- A decoder that reads the values where the encoding has them. -/
def standardDecoder : Decoder where
  decodeAbiParameters ts t :=
    if isHexString t then
      match decode ts (hexBytes t) with
      | some args => .ok args
      | none => .error "Position is out of bounds"
    else .error "invalid hex"

theorem standardDecoder_inverts : standardDecoder.Inverts := by
  intro ts args t ht h hsize
  simp only [standardDecoder, if_pos ht]
  rw [h, decode_encodeTuple hsize]

end Nullark.Js.Calldata
