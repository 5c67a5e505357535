import Nullark.Js.Bytes
import Nullark.Lib.Keccak
import Nullark.Pool.Context

/-! # What the packages use of `viem`

`Viem` is the package, as far as it is called; `Documented` says what its documentation does, for
the hash function of the chain: digests are those of the chain, `encodeAbiParameters` is the
encoding of the contracts on values of their types and refuses an address that is neither in lower
case nor checksummed, and `getAddress` is the checksummed spelling.

* `documentedViem`: a package that is what is documented.
* `encodeAbiParameters_eq_ok`: what is returned is the encoding of the values. -/

namespace Nullark.Js.Package

open Nullark.Lib.Outcome Nullark.Lib.Hex Nullark.Lib.Abi Nullark.Evm.Basic
open Nullark.Pool.Interface Nullark.Pool.Context Nullark.Js.Basic Nullark.Js.Bytes

/-- **A value beside its type.** -/
inductive AbiValue
  | bytes32 (value : Text)
  | bytes4 (value : Text)
  | address (value : Text)
  | uint256 (value : ℕ)
  | uint16 (value : ℕ)
  | bytes (value : Text)
  | bytes32Array (values : List Text)

/-- **The functions of `viem`** the packages call; `keccak256` takes hex or bytes. -/
structure Viem where
  keccak256 : Text → Throws Text
  keccak256Bytes : Bytes → Text
  encodeAbiParameters : List AbiValue → Throws Text
  checksumAddress : Address → Text
  getAddress : Text → Throws Text

/-- A spelling that `isAddress` accepts. -/
def isAddress (v : Viem) (t : Text) : Prop :=
  isEvmAddress t ∧ (lower t = t ∨ v.checksumAddress (address t) = t)

/-- The value is one of its type. -/
def AbiValue.Fits (v : Viem) : AbiValue → Prop
  | .bytes32 value => isHexBytes32 value
  | .bytes4 value => isHexBytes4 value
  | .address value => isAddress v value
  | .uint256 value => value < 2 ^ 256
  | .uint16 value => value < 2 ^ 16
  | .bytes value => isHexString value
  | .bytes32Array values => ∀ value ∈ values, isHexBytes32 value

/-- What the value is encoded as. -/
def AbiValue.component : AbiValue → Component
  | .bytes32 value => .word (word value)
  | .bytes4 value => .word (bytes4ToBytes32 (Bytes.bytes4 value))
  | .address value => .word (addressToBytes32 (Bytes.address value))
  | .uint256 value => .word (BitVec.ofNat 256 value)
  | .uint16 value => .word (BitVec.ofNat 256 value)
  | .bytes value => .bytes (hexBytes value)
  | .bytes32Array values => .array (values.map word)

/-- Every value but perhaps the spelling of an address is one of its type. -/
def AbiValue.FitsButAddress : AbiValue → Prop
  | .bytes32 value => isHexBytes32 value
  | .bytes4 value => isHexBytes4 value
  | .address value => isEvmAddress value
  | .uint256 value => value < 2 ^ 256
  | .uint16 value => value < 2 ^ 16
  | .bytes value => isHexString value
  | .bytes32Array values => ∀ value ∈ values, isHexBytes32 value

theorem AbiValue.Fits.butAddress {v : Viem} {x : AbiValue} (h : x.Fits v) : x.FitsButAddress := by
  cases x with
  | address value => exact h.1
  | bytes32 | bytes4 | uint256 | uint16 | bytes | bytes32Array => exact h

/-- **The documented behaviour.** -/
structure Documented (v : Viem) (keccak256 : Bytes → Bytes32) : Prop where
  digest : ∀ t, isHexString t → v.keccak256 t = .ok (hex32 (keccak256 (hexBytes t)))
  digestBytes : ∀ data, v.keccak256Bytes data = hex32 (keccak256 data)
  encode : ∀ vs, (∀ x ∈ vs, x.Fits v) →
    v.encodeAbiParameters vs = .ok (hexText (encode (vs.map (·.component))))
  refuses : ∀ vs t, v.encodeAbiParameters vs = .ok t →
    ∀ x, AbiValue.address x ∈ vs → isAddress v x
  checksum : ∀ a, isEvmAddress (v.checksumAddress a) ∧
    lower (v.checksumAddress a) = addressText a
  getAddress : ∀ t, isEvmAddress t → v.getAddress t = .ok (v.checksumAddress (address t))
  getAddress_refuses : ∀ t r, v.getAddress t = .ok r → isEvmAddress t

/-- Only the spellings of addresses are left to check. -/
theorem forall_fits_iff {v : Viem} {vs : List AbiValue} (h : ∀ x ∈ vs, x.FitsButAddress) :
    (∀ x ∈ vs, x.Fits v) ↔ ∀ t, .address t ∈ vs → isAddress v t := by
  refine ⟨fun hfits t ht => hfits _ ht, fun haddress x hx => ?_⟩
  have hbut := h x hx
  cases x with
  | address value => exact haddress value hx
  | bytes32 | bytes4 | uint256 | uint16 | bytes | bytes32Array => exact hbut

theorem isAddress_addressText (v : Viem) (a : Address) : isAddress v (addressText a) :=
  ⟨isEvmAddress_addressText a, Or.inl (lower_addressText a)⟩

section Documented
variable {v : Viem} {keccak : Bytes → Bytes32} (hv : Documented v keccak)
include hv

theorem address_checksumAddress (a : Address) : address (v.checksumAddress a) = a := by
  obtain ⟨hpattern, hlower⟩ := hv.checksum a
  rw [← address_lower hpattern, hlower, address_addressText]

theorem isAddress_checksumAddress (a : Address) : isAddress v (v.checksumAddress a) :=
  ⟨(hv.checksum a).1, Or.inr (by rw [address_checksumAddress hv])⟩

theorem getAddress_eq_ok {t r : Text} :
    v.getAddress t = .ok r ↔ isEvmAddress t ∧ r = v.checksumAddress (address t) := by
  constructor
  · intro h
    have ht := hv.getAddress_refuses t r h
    rw [hv.getAddress t ht] at h
    exact ⟨ht, (Except.ok.inj h).symm⟩
  · rintro ⟨ht, rfl⟩
    exact hv.getAddress t ht

/-- **What `encodeAbiParameters` returns**, for values whose patterns were checked before: only the
spelling of an address is left to refuse. -/
theorem encodeAbiParameters_eq_ok {vs : List AbiValue} {t : Text}
    (h : ∀ x ∈ vs, x.FitsButAddress) : v.encodeAbiParameters vs = .ok t ↔
      (∀ x ∈ vs, x.Fits v) ∧ t = hexText (encode (vs.map (·.component))) := by
  constructor
  · intro ht
    have hfits : ∀ x ∈ vs, x.Fits v := (forall_fits_iff h).mpr fun x hx => hv.refuses vs t ht x hx
    rw [hv.encode vs hfits] at ht
    exact ⟨hfits, (Except.ok.inj ht).symm⟩
  · rintro ⟨hfits, rfl⟩
    exact hv.encode vs hfits

end Documented

/-! ### A package -/

/-- The values are all of their types, for a checksum. -/
def fitsBool (checksum : Address → Text) : AbiValue → Bool
  | .bytes32 value => isHexBytes32 value
  | .bytes4 value => isHexBytes4 value
  | .address value => isEvmAddress value ∧ (lower value = value ∨ checksum (address value) = value)
  | .uint256 value => value < 2 ^ 256
  | .uint16 value => value < 2 ^ 16
  | .bytes value => isHexString value
  | .bytes32Array values => ∀ value ∈ values, isHexBytes32 value

/-- **A package that is what is documented**, for a hash function and a checksum. -/
def documentedViem (keccak256 : Bytes → Bytes32) (checksum : Address → Text) : Viem where
  keccak256 t :=
    if isHexString t then .ok (hex32 (keccak256 (hexBytes t))) else .error "invalid hex"
  keccak256Bytes data := hex32 (keccak256 data)
  encodeAbiParameters vs :=
    if vs.all (fitsBool checksum) then .ok (hexText (encode (vs.map (·.component))))
    else .error "invalid value"
  checksumAddress := checksum
  getAddress t := if isEvmAddress t then .ok (checksum (address t)) else .error "invalid address"

theorem fitsBool_iff {keccak256 : Bytes → Bytes32} {checksum : Address → Text} {x : AbiValue} :
    fitsBool checksum x = true ↔ x.Fits (documentedViem keccak256 checksum) := by
  cases x <;> exact decide_eq_true_iff

theorem documented_documentedViem (keccak256 : Bytes → Bytes32) {checksum : Address → Text}
    (h : ∀ a, isEvmAddress (checksum a) ∧ lower (checksum a) = addressText a) :
    Documented (documentedViem keccak256 checksum) keccak256 where
  digest _ ht := if_pos ht
  digestBytes _ := rfl
  encode vs hvs := if_pos (List.all_eq_true.mpr fun x hx => fitsBool_iff.mpr (hvs x hx))
  refuses vs t ht x hx := by
    by_cases hall : vs.all (fitsBool checksum) = true
    · exact fitsBool_iff.mp (List.all_eq_true.mp hall _ hx)
    · have herr : (documentedViem keccak256 checksum).encodeAbiParameters vs =
        .error "invalid value" := if_neg hall
      rw [herr] at ht
      cases ht
  checksum := h
  getAddress t ht := if_pos ht
  getAddress_refuses t r hr := by
    by_contra ht
    have herr : (documentedViem keccak256 checksum).getAddress t = .error "invalid address" :=
      if_neg ht
    rw [herr] at hr
    cases hr

/-- A package with the hash function of the chain, on addresses that have no letters. -/
def digitsViem : Viem := documentedViem Lib.Keccak.keccak256 addressText

theorem documented_digitsViem : Documented digitsViem Lib.Keccak.keccak256 :=
  documented_documentedViem _ fun a => ⟨isEvmAddress_addressText a, lower_addressText a⟩

/-- A pool of that chain, at an address that has no letters. -/
def digitsEnv : Env where
  poseidon2 l _ := l
  keccak256 := Lib.Keccak.keccak256
  chainId := 6343
  this := 0x5555555555555555555555555555555555555555
  feeController := 9

end Nullark.Js.Package
