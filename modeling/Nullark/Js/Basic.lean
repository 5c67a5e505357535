import Mathlib.Data.Nat.Bitwise
import Nullark.Lib.Hex
import Nullark.Lib.Merkle.Tree
import Nullark.Lib.Outcome
import Nullark.Pool.Interface

/-! # Values of the TypeScript code

What the packages share with each other and with the contracts: hex strings, big integers, and the
bitwise operators, which JavaScript computes on 32 bits.

A string is the list of its characters, a `bigint` is a natural number (none of the code modelled
here makes a negative one, since hashes return field elements), and a thrown error is its message.
`hex32` is the text of a word as nodes and wallets write it. -/

namespace Nullark.Js.Basic

open Nullark.Lib.Outcome Nullark.Lib.Hex Nullark.Lib.Merkle.Tree Nullark.Evm.Basic
open Nullark.Pool.Interface

abbrev Throws := Except String

/-- `if (!p) throw new Error(message)`. -/
def ensure (p : Prop) [Decidable p] (message : String) : Throws Unit :=
  if p then .ok () else .error message

@[simp] theorem ensure_eq_ok {p : Prop} [Decidable p] {message : String} {u : Unit} :
    ensure p message = .ok u ↔ p := by
  unfold ensure; split_ifs with h <;> simp [h]

theorem ensure_of {p : Prop} [Decidable p] {message : String} (h : p) :
    ensure p message = .ok () := ensure_eq_ok.mpr h

/-- An error, if something is wrong. -/
def errorWhen (p : Prop) [Decidable p] (message : String) : List String :=
  if p then [message] else []

@[simp] theorem errorWhen_eq_nil {p : Prop} [Decidable p] {message : String} :
    errorWhen p message = [] ↔ ¬p := by
  unfold errorWhen
  split_ifs with h <;> simp [h]

/-! ### Hex strings -/

/-- `/^0x[0-9a-fA-F]{n}$/`. -/
def isHexOfLength (n : ℕ) : Text → Prop
  | '0' :: 'x' :: digits => digits.length = n ∧ Digits digits
  | _ => False

instance (n : ℕ) : (t : Text) → Decidable (isHexOfLength n t)
  | [] => isFalse id
  | [_] => isFalse fun h => by simp [isHexOfLength] at h
  | a :: b :: t =>
    if h : a = '0' ∧ b = 'x' then
      decidable_of_iff (t.length = n ∧ Digits t) (by rw [h.1, h.2]; rfl)
    else isFalse fun hn => by unfold isHexOfLength at hn; split at hn <;> simp_all

def isHexBytes32 (t : Text) : Prop := isHexOfLength 64 t

instance (t : Text) : Decidable (isHexBytes32 t) := inferInstanceAs (Decidable (isHexOfLength 64 t))

/-- `BigInt(text)`, for the texts that begin with `0x`. -/
def bigInt : Text → Throws ℕ
  | '0' :: 'x' :: digits =>
    if digits ≠ [] ∧ Digits digits then .ok (value digits)
    else .error "SyntaxError: Cannot convert to a BigInt"
  | _ => .error "SyntaxError: Cannot convert to a BigInt"

/-- What `BigInt` makes of a text of hex digits that begins with `0x`. -/
def hexNat (t : Text) : ℕ := value (t.drop 2)

/-- The 64 digits of `value.toString(16).padStart(64, "0")` behind `0x`. -/
def padHex32 (v : ℕ) : Text := '0' :: 'x' :: padStart 64 '0' (ofNat v)

/-- **The text of a word**: 64 lower-case digits. -/
def hex32 (x : Bytes32) : Text := '0' :: 'x' :: fixed 64 x.toNat

theorem isHexOfLength_iff {n : ℕ} {t : Text} :
    isHexOfLength n t ↔ ∃ digits, t = '0' :: 'x' :: digits ∧ digits.length = n ∧ Digits digits := by
  constructor
  · intro h
    unfold isHexOfLength at h
    split at h
    · exact ⟨_, rfl, h⟩
    · exact h.elim
  · rintro ⟨digits, rfl, h⟩
    exact h

theorem bigInt_digits {digits : Text} (hne : digits ≠ []) (h : Digits digits) :
    bigInt ('0' :: 'x' :: digits) = .ok (value digits) := if_pos ⟨hne, h⟩

theorem isHexBytes32_hex32 (x : Bytes32) : isHexBytes32 (hex32 x) :=
  ⟨length_fixed _ _, digits_fixed _ _⟩

theorem toNat_lt_hex (x : Bytes32) : x.toNat < 16 ^ 64 := by
  have := x.isLt
  norm_num at this ⊢
  exact this

theorem bigInt_hex32 (x : Bytes32) : bigInt (hex32 x) = .ok x.toNat := by
  have hne : fixed 64 x.toNat ≠ [] := by
    intro h
    have := congrArg List.length h
    simp at this
  rw [hex32, bigInt_digits hne (digits_fixed _ _), value_fixed_of_lt (toNat_lt_hex x)]

theorem hexNat_hex32 (x : Bytes32) : hexNat (hex32 x) = x.toNat :=
  value_fixed_of_lt (toNat_lt_hex x)

/-- Padding the number of a word gives its text. -/
theorem padHex32_toNat (x : Bytes32) : padHex32 x.toNat = hex32 x := by
  unfold padHex32 hex32
  rw [padStart_ofNat (by decide) (toNat_lt_hex x)]

theorem lower_hex32 (x : Bytes32) : lower (hex32 x) = hex32 x := by
  have h := lower_fixed 64 x.toNat
  unfold hex32 lower at *
  rw [List.map_cons, List.map_cons, h]
  rfl

theorem hex32_injective : Function.Injective hex32 := by
  intro x y h
  have hdigits : fixed 64 x.toNat = fixed 64 y.toNat := by
    unfold hex32 at h
    simpa using h
  have hvalue := congrArg value hdigits
  rw [value_fixed_of_lt (toNat_lt_hex x), value_fixed_of_lt (toNat_lt_hex y)] at hvalue
  exact BitVec.eq_of_toNat_eq hvalue

/-- The position of a text in a list of distinct words. -/
theorem findIdx_hex32 : ∀ {leaves : List Bytes32} {i : ℕ} {c : Bytes32}, leaves.Nodup →
    leaves[i]? = some c →
    (leaves.map hex32).findIdx? (fun leaf => lower leaf = lower (hex32 c)) = some i
  | [], i, c, _, h => by simp at h
  | leaf :: leaves, i, c, hnodup, h => by
    obtain ⟨hout, hnodup'⟩ := List.nodup_cons.mp hnodup
    rw [List.map_cons, List.findIdx?_cons]
    cases i with
    | zero =>
      have hleaf : leaf = c := by simpa using h
      rw [hleaf, decide_eq_true rfl, if_pos rfl]
    | succ i =>
      have hmem : leaves[i]? = some c := by simpa using h
      have hne : ¬lower (hex32 leaf) = lower (hex32 c) := by
        intro heq
        rw [lower_hex32, lower_hex32] at heq
        exact hout (hex32_injective heq ▸ List.mem_of_getElem? hmem)
      rw [decide_eq_false hne, if_neg Bool.false_ne_true, findIdx_hex32 hnodup' hmem]
      rfl

/-! ### Bitwise operators -/

/-- `a ^ b`. -/
def bitXor (a b : ℤ) : ℤ := (BitVec.ofInt 32 a ^^^ BitVec.ofInt 32 b).toInt

/-- `a & b`. -/
def bitAnd (a b : ℤ) : ℤ := (BitVec.ofInt 32 a &&& BitVec.ofInt 32 b).toInt

theorem sibling_eq_xor (i : ℕ) : sibling i = i ^^^ 1 := by
  unfold sibling
  split_ifs with h
  · exact (Nat.xor_one_of_even (Nat.even_iff.mpr h)).symm
  · exact (Nat.xor_one_of_odd (Nat.odd_iff.mpr (by omega))).symm

theorem sibling_lt {i n : ℕ} (h : i < 2 ^ n) (hn : 0 < n) : sibling i < 2 ^ n := by
  obtain ⟨m, rfl⟩ : ∃ m, n = m + 1 := ⟨n - 1, by omega⟩
  unfold sibling
  rw [pow_succ] at *
  split_ifs <;> omega

/-- The other child, as long as the index is below `2 ^ 31`. -/
theorem bitXor_one {i : ℕ} (h : i < 2 ^ 31) : bitXor i 1 = sibling i := by
  have hs : sibling i < 2 ^ 31 := sibling_lt h (by decide)
  have h32 : i < 2 ^ 32 := h.trans (by decide)
  have hnat : (BitVec.ofInt 32 (i : ℤ) ^^^ BitVec.ofInt 32 1).toNat = sibling i := by
    rw [BitVec.toNat_xor, BitVec.ofInt_natCast, BitVec.toNat_ofNat, Nat.mod_eq_of_lt h32,
      sibling_eq_xor]
    rfl
  unfold bitXor
  rw [BitVec.toInt_eq_toNat_of_lt (by rw [hnat]; omega), hnat]

theorem bitAnd_one {i : ℕ} (h : i < 2 ^ 31) : bitAnd i 1 = (i % 2 : ℕ) := by
  have h32 : i < 2 ^ 32 := h.trans (by decide)
  have hnat : (BitVec.ofInt 32 (i : ℤ) &&& BitVec.ofInt 32 1).toNat = i % 2 := by
    rw [BitVec.toNat_and, BitVec.ofInt_natCast, BitVec.toNat_ofNat, Nat.mod_eq_of_lt h32]
    exact Nat.and_one_is_mod i
  unfold bitAnd
  rw [BitVec.toInt_eq_toNat_of_lt (by rw [hnat]; omega), hnat]

/-! ### Bits -/

/-- The bits of a leaf index, lowest first. -/
def indexBits : ℕ → ℕ → List ℕ
  | _, 0 => []
  | i, n + 1 => i % 2 :: indexBits (i / 2) n

theorem indexBits_concat : ∀ i n : ℕ, indexBits i (n + 1) = indexBits i n ++ [i / 2 ^ n % 2]
  | i, 0 => by simp [indexBits]
  | i, n + 1 => by
    rw [indexBits, indexBits_concat (i / 2) n, indexBits, List.cons_append,
      Nat.div_div_eq_div_mul, pow_succ']

theorem length_indexBits : ∀ p n : ℕ, (indexBits p n).length = n
  | _, 0 => rfl
  | p, n + 1 => by rw [indexBits, List.length_cons, length_indexBits]

/-- A bit stands at its place. -/
theorem mem_zipIdx_indexBits (i : ℕ) : ∀ n k : ℕ, ∀ entry ∈ (indexBits (i / 2 ^ k) n).zipIdx k,
    i / 2 ^ entry.2 % 2 = entry.1
  | 0, _, _, h => absurd h List.not_mem_nil
  | n + 1, k, entry, h => by
    rw [indexBits, List.zipIdx_cons, List.mem_cons] at h
    rcases h with rfl | h
    · rfl
    · rw [Nat.div_div_eq_div_mul, ← pow_succ] at h
      exact mem_zipIdx_indexBits i n (k + 1) entry h

end Nullark.Js.Basic
