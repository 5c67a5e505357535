import Nullark.Js.Basic

/-! # Bytes, words and addresses as texts

The packages write bytes as hex texts. `hexBytes`, `word` and `address` read such a text, `hexText`,
`hex32` and `addressText` print one; a text that passes the pattern check of its kind is, up to
case, what its value prints (`hexText_hexBytes`, `hex32_word`, `addressText_address`). -/

namespace Nullark.Js.Bytes

open Nullark.Lib.Hex Nullark.Lib.Bytes Nullark.Evm.Basic Nullark.Pool.Interface
open Nullark.Js.Basic

/-! ### Patterns -/

/-- `/^0x(?:[0-9a-fA-F]{2})*$/`. -/
def isHexString : Text → Prop
  | '0' :: 'x' :: digits => digits.length % 2 = 0 ∧ Digits digits
  | _ => False

/-- `/^0x[0-9a-fA-F]*$/`. -/
def isHex : Text → Prop
  | '0' :: 'x' :: digits => Digits digits
  | _ => False

/-- Decides a pattern that begins with `0x`. -/
def decidePattern (p : Text → Prop) (q : Text → Prop) [∀ t, Decidable (q t)]
    (h : ∀ t, p ('0' :: 'x' :: t) ↔ q t)
    (hn : ∀ t, (∀ digits, t ≠ '0' :: 'x' :: digits) → ¬p t) : (t : Text) → Decidable (p t)
  | [] => isFalse (hn _ (by simp))
  | [_] => isFalse (hn _ (by simp))
  | a :: b :: t =>
    if hab : a = '0' ∧ b = 'x' then decidable_of_iff (q t) (by rw [hab.1, hab.2]; exact (h t).symm)
    else isFalse (hn _ fun digits heq => hab (by simp_all))

instance : (t : Text) → Decidable (isHexString t) :=
  decidePattern isHexString (fun digits => digits.length % 2 = 0 ∧ Digits digits) (fun _ => Iff.rfl)
    fun t ht h => by unfold isHexString at h; split at h <;> simp_all

instance : (t : Text) → Decidable (isHex t) :=
  decidePattern isHex Digits (fun _ => Iff.rfl)
    fun t ht h => by unfold isHex at h; split at h <;> simp_all

/-- `/^0x[0-9a-fA-F]{40}$/`. -/
def isEvmAddress (t : Text) : Prop := isHexOfLength 40 t

instance (t : Text) : Decidable (isEvmAddress t) :=
  inferInstanceAs (Decidable (isHexOfLength 40 t))

/-- `/^0x[0-9a-fA-F]{8}$/`. -/
def isHexBytes4 (t : Text) : Prop := isHexOfLength 8 t

instance (t : Text) : Decidable (isHexBytes4 t) :=
  inferInstanceAs (Decidable (isHexOfLength 8 t))

theorem isHexString_iff {t : Text} : isHexString t ↔
    ∃ digits, t = '0' :: 'x' :: digits ∧ digits.length % 2 = 0 ∧ Digits digits := by
  constructor
  · intro h
    unfold isHexString at h
    split at h
    · exact ⟨_, rfl, h⟩
    · exact h.elim
  · rintro ⟨digits, rfl, h⟩
    exact h

theorem isHexString_of_length {n : ℕ} {t : Text} (h : isHexOfLength (2 * n) t) :
    isHexString t := by
  obtain ⟨digits, rfl, hlen, hd⟩ := isHexOfLength_iff.mp h
  exact ⟨by omega, hd⟩

/-! ### Reading and printing -/

def hexBytes (t : Text) : Bytes := toBytes (t.drop 2)

def hexText (bytes : Bytes) : Text := '0' :: 'x' :: ofBytes bytes

def word (t : Text) : Bytes32 := BitVec.ofNat 256 (hexNat t)

def address (t : Text) : Address := BitVec.ofNat 160 (hexNat t)

def bytes4 (t : Text) : Bytes4 := BitVec.ofNat 32 (hexNat t)

def addressText (a : Address) : Text := '0' :: 'x' :: fixed 40 a.toNat

/-- `0x${"00".repeat(n)}`. -/
def zeroBytesText (n : ℕ) : Text := '0' :: 'x' :: List.replicate (2 * n) '0'

theorem lower_cons_hex (t : Text) : lower ('0' :: 'x' :: t) = '0' :: 'x' :: lower t := rfl

theorem isHexString_hexText (bytes : Bytes) : isHexString (hexText bytes) := by
  refine ⟨?_, digits_ofBytes bytes⟩
  rw [length_ofBytes]
  omega

@[simp] theorem hexBytes_hexText (bytes : Bytes) : hexBytes (hexText bytes) = bytes :=
  toBytes_ofBytes bytes

theorem hexText_injective : Function.Injective hexText := fun a b h => by
  rw [← hexBytes_hexText a, h, hexBytes_hexText]

theorem lower_hexText (bytes : Bytes) : lower (hexText bytes) = hexText bytes := by
  rw [hexText, lower_cons_hex, lower_ofBytes]

theorem hexText_hexBytes {t : Text} (h : isHexString t) : hexText (hexBytes t) = lower t := by
  obtain ⟨digits, rfl, hlen, hd⟩ := isHexString_iff.mp h
  have hof : ofBytes (toBytes digits) = lower digits :=
    ofBytes_toBytes (digits.length / 2) hd (by omega)
  rw [lower_cons_hex, ← hof]
  rfl

theorem hexBytes_lower {t : Text} (h : isHexString t) : hexBytes (lower t) = hexBytes t := by
  rw [← hexText_hexBytes h, hexBytes_hexText]

theorem length_hexBytes (t : Text) : (hexBytes t).length = (t.length - 2) / 2 := by
  rw [hexBytes, length_toBytes, List.length_drop]

theorem hexNat_lt {n : ℕ} {t : Text} (h : isHexOfLength n t) : hexNat t < 16 ^ n := by
  obtain ⟨digits, rfl, rfl, hd⟩ := isHexOfLength_iff.mp h
  exact value_lt hd

theorem lower_eq_of_isHexOfLength {n : ℕ} {t : Text} (h : isHexOfLength n t) :
    lower t = '0' :: 'x' :: fixed n (hexNat t) := by
  obtain ⟨digits, rfl, rfl, hd⟩ := isHexOfLength_iff.mp h
  rw [lower_cons_hex, lower_eq_fixed hd]
  rfl

theorem isHexOfLength_lower {n : ℕ} {t : Text} (h : isHexOfLength n t) :
    isHexOfLength n (lower t) := by
  rw [lower_eq_of_isHexOfLength h]
  exact ⟨length_fixed _ _, digits_fixed _ _⟩

theorem hexNat_lower {n : ℕ} {t : Text} (h : isHexOfLength n t) : hexNat (lower t) = hexNat t := by
  rw [lower_eq_of_isHexOfLength h]
  exact value_fixed_of_lt (hexNat_lt h)

theorem bigInt_of_isHexOfLength {n : ℕ} {t : Text} (hn : 0 < n) (h : isHexOfLength n t) :
    bigInt t = .ok (hexNat t) := by
  obtain ⟨digits, rfl, hlen, hd⟩ := isHexOfLength_iff.mp h
  have hne : digits ≠ [] := by
    rintro rfl
    rw [List.length_nil] at hlen
    omega
  exact bigInt_digits hne hd

/-! ### Words -/

theorem toNat_word {t : Text} (h : isHexBytes32 t) : (word t).toNat = hexNat t := by
  have hlt : hexNat t < 2 ^ 256 := (hexNat_lt h).trans_le (by norm_num)
  rw [word, BitVec.toNat_ofNat, Nat.mod_eq_of_lt hlt]

/-- **A text of 32 bytes is, up to case, the text of its word.** -/
theorem hex32_word {t : Text} (h : isHexBytes32 t) : hex32 (word t) = lower t := by
  rw [lower_eq_of_isHexOfLength h, hex32, toNat_word h]

@[simp] theorem word_hex32 (x : Bytes32) : word (hex32 x) = x := by
  rw [word, hexNat_hex32, BitVec.ofNat_toNat, BitVec.setWidth_eq]

theorem lower_eq_lower_iff_word {s t : Text} (hs : isHexBytes32 s) (ht : isHexBytes32 t) :
    lower s = lower t ↔ word s = word t := by
  rw [← hex32_word hs, ← hex32_word ht]
  exact hex32_injective.eq_iff

/-- The word of a text does not depend on the case. -/
theorem word_of_lower (t : Text) : word (lower t) = word t := by
  rw [word, hexNat, lower, ← List.map_drop]
  exact congrArg (BitVec.ofNat 256) (value_of_lower _)

theorem padHex32_eq_hex32 {n : ℕ} (h : n < 2 ^ 256) :
    padHex32 n = hex32 (BitVec.ofNat 256 n) := by
  rw [← padHex32_toNat, BitVec.toNat_ofNat, Nat.mod_eq_of_lt h]

theorem hexNat_padHex32 {n : ℕ} (h : n < 2 ^ 256) : hexNat (padHex32 n) = n := by
  rw [padHex32_eq_hex32 h, hexNat_hex32, BitVec.toNat_ofNat, Nat.mod_eq_of_lt h]

theorem hexText_word (x : Bytes32) : hexText (Lib.Bytes.word x) = hex32 x := by
  rw [hexText, Lib.Bytes.word, ofBytes_beBytes]
  rfl

/-! ### Addresses and selectors -/

theorem toNat_address {t : Text} (h : isEvmAddress t) : (address t).toNat = hexNat t := by
  have hlt : hexNat t < 2 ^ 160 := (hexNat_lt h).trans_le (by norm_num)
  rw [address, BitVec.toNat_ofNat, Nat.mod_eq_of_lt hlt]

/-- **A text of 20 bytes is, up to case, the text of its address.** -/
theorem addressText_address {t : Text} (h : isEvmAddress t) :
    addressText (address t) = lower t := by
  rw [lower_eq_of_isHexOfLength h, addressText, toNat_address h]

theorem hexNat_addressText (a : Address) : hexNat (addressText a) = a.toNat := by
  have hlt : a.toNat < 16 ^ 40 := by
    have := a.isLt
    norm_num at this ⊢
    exact this
  exact value_fixed_of_lt hlt

@[simp] theorem address_addressText (a : Address) : address (addressText a) = a := by
  rw [address, hexNat_addressText, BitVec.ofNat_toNat, BitVec.setWidth_eq]

theorem isEvmAddress_addressText (a : Address) : isEvmAddress (addressText a) :=
  ⟨length_fixed _ _, digits_fixed _ _⟩

theorem lower_addressText (a : Address) : lower (addressText a) = addressText a := by
  rw [addressText, lower_cons_hex, lower_fixed]

theorem address_lower {t : Text} (h : isEvmAddress t) : address (lower t) = address t := by
  rw [address, hexNat_lower h, address]

theorem lower_eq_lower_iff_address {s t : Text} (hs : isEvmAddress s) (ht : isEvmAddress t) :
    lower s = lower t ↔ address s = address t := by
  rw [← addressText_address hs, ← addressText_address ht]
  refine ⟨fun h => ?_, fun h => by rw [h]⟩
  rw [← address_addressText (address s), h, address_addressText]

theorem bytes4_lower {t : Text} (h : isHexBytes4 t) : bytes4 (lower t) = bytes4 t := by
  rw [bytes4, hexNat_lower h, bytes4]

theorem toNat_addressToBytes32 (a : Address) : (addressToBytes32 a).toNat = a.toNat := by
  have := a.isLt
  rw [addressToBytes32, BitVec.toNat_setWidth, Nat.mod_eq_of_lt (by omega)]

/-- `0x${address.slice(2).toLowerCase().padStart(64, "0")}`. -/
def addressText32 (t : Text) : Text := '0' :: 'x' :: padStart 64 '0' (lower (t.drop 2))

/-- The padded text of an address is the text of its word. -/
theorem addressText32_eq {t : Text} (h : isEvmAddress t) :
    addressText32 t = hex32 (addressToBytes32 (address t)) := by
  obtain ⟨digits, rfl, hlen, hd⟩ := isHexOfLength_iff.mp h
  have hpad := padStart_of_digits (n := 64) (digits_lower hd) (by rw [length_lower, hlen]; omega)
  have hlower : lower (padStart 64 '0' (lower digits)) = padStart 64 '0' (lower digits) := by
    rw [padStart, lower_append, lower_lower, lower, List.map_replicate]
    rfl
  rw [hlower] at hpad
  rw [addressText32, List.drop_succ_cons, List.drop_succ_cons, List.drop_zero, hpad, hex32,
    toNat_addressToBytes32, toNat_address h, value_of_lower]
  rfl

end Nullark.Js.Bytes
