import Mathlib.Data.List.DropRight
import Nullark.Js.Bytes
import Nullark.Lib.Decimal

/-! # Numbers as texts

`BigInt` of any text (`stringToBigInt`), `trim`, and the printing of numbers that may be negative.

* `stringToBigInt_of_isDecimal`, `stringToBigInt_of_isHexOfLength`: the texts the packages check
  before they read them. -/

namespace Nullark.Js.Numbers

open Nullark.Lib
open Nullark.Lib.Hex hiding value Digits ofNat
open Nullark.Lib.Decimal (isDecimal)
open Nullark.Js.Basic Nullark.Js.Bytes

/-! ### Trimming -/

/-- The code points of white space and of line ends. -/
def whiteSpaces : List ℕ :=
  [0x9, 0xA, 0xB, 0xC, 0xD, 0x20, 0xA0, 0x1680, 0x2000, 0x2001, 0x2002, 0x2003, 0x2004, 0x2005,
    0x2006, 0x2007, 0x2008, 0x2009, 0x200A, 0x2028, 0x2029, 0x202F, 0x205F, 0x3000, 0xFEFF]

def isWhiteSpace (c : Char) : Bool := whiteSpaces.contains c.toNat

/-- `text.trim()`. -/
def trim (t : Text) : Text := (t.dropWhile isWhiteSpace).rdropWhile isWhiteSpace

theorem trim_eq_self {t : Text} (h : ∀ c ∈ t, isWhiteSpace c = false) : trim t = t := by
  have hleft : t.dropWhile isWhiteSpace = t := by
    cases t with
    | nil => rfl
    | cons c t => rw [List.dropWhile_cons, h c List.mem_cons_self]; rfl
  rw [trim, hleft, List.rdropWhile_eq_self_iff]
  intro hne
  rw [h _ (List.getLast_mem hne)]
  exact Bool.false_ne_true

theorem length_trim_le (t : Text) : (trim t).length ≤ t.length := by
  have hright : ∀ s : Text, (s.rdropWhile isWhiteSpace).length ≤ s.length := fun s => by
    rw [List.rdropWhile, List.length_reverse]
    exact (List.length_dropWhile_le _ _).trans (List.length_reverse).le
  exact (hright _).trans (List.length_dropWhile_le _ _)

/-! ### `BigInt` -/

/-- The number of digits below the radix. -/
def natOfDigits (radix : ℕ) (digits : Text) : Option ℕ :=
  if digits ≠ [] ∧ ∀ c ∈ digits, IsDigit c ∧ digitValue c < radix then
    some (digits.foldl (fun v c => v * radix + digitValue c) 0)
  else none

/-- The radix a letter behind a zero stands for. -/
def radixOf : Char → Option ℕ
  | 'x' | 'X' => some 16
  | 'o' | 'O' => some 8
  | 'b' | 'B' => some 2
  | _ => none

/-- The number of a text without white space around it. -/
def integerOfText (t : Text) : Option ℤ :=
  match t with
  | [] => some 0
  | '-' :: digits => (natOfDigits 10 digits).map fun v => -v
  | '+' :: digits => (natOfDigits 10 digits).map fun v => v
  | '0' :: c :: digits =>
    match radixOf c with
    | some radix => (natOfDigits radix digits).map fun v => v
    | none => (natOfDigits 10 t).map fun v => v
  | t => (natOfDigits 10 t).map fun v => v

/-- **`BigInt(text)`**. -/
def stringToBigInt (t : Text) : Throws ℤ :=
  match integerOfText (trim t) with
  | some v => .ok v
  | none => .error "SyntaxError: Cannot convert to a BigInt"

/-- `value.toString(16)`. -/
def toString16 : ℤ → Text
  | .ofNat v => Hex.ofNat v
  | .negSucc v => '-' :: Hex.ofNat (v + 1)

/-- The digits of `value.toString(16).padStart(64, "0")` behind `0x`. -/
def padHex32OfInt (v : ℤ) : Text := '0' :: 'x' :: padStart 64 '0' (toString16 v)

/-- `value.toString()`. -/
def toString10 : ℤ → Text
  | .ofNat v => Decimal.ofNat v
  | .negSucc v => '-' :: Decimal.ofNat (v + 1)

theorem padHex32OfInt_natCast (v : ℕ) : padHex32OfInt v = padHex32 v := rfl

/-! ### The texts that are read -/

theorem isWhiteSpace_of_isDigit {c : Char} (h : IsDigit c) : isWhiteSpace c = false := by
  have hall : ∀ c ∈ lowerDigits ++ upperDigits, isWhiteSpace c = false := by decide
  exact hall c h

/-- The decimal digits are the first ten of the hexadecimal ones. -/
theorem decimal_isDigit {c : Char} (h : c.isDigit = true) :
    IsDigit c ∧ digitValue c < 10 ∧ digitValue c = c.toNat - 48 ∧ radixOf c = none ∧
      c ≠ '-' ∧ c ≠ '+' := by
  have hrange : 48 ≤ c.toNat ∧ c.toNat ≤ 57 := by
    simpa [Char.isDigit, Char.le_def, UInt32.le_iff_toNat_le] using h
  have hall : ∀ n ≤ 57, 48 ≤ n → IsDigit (Char.ofNat n) ∧ digitValue (Char.ofNat n) < 10 ∧
      digitValue (Char.ofNat n) = (Char.ofNat n).toNat - 48 ∧ radixOf (Char.ofNat n) = none ∧
      Char.ofNat n ≠ '-' ∧ Char.ofNat n ≠ '+' := by decide
  have hc := hall c.toNat hrange.2 hrange.1
  rwa [Char.ofNat_toNat] at hc

theorem natOfDigits_ten {t : Text} (h : isDecimal t) : natOfDigits 10 t = some (Decimal.value t) := by
  have hfold : ∀ (s : Text) (v : ℕ), Decimal.Digits s →
      s.foldl (fun v c => v * 10 + digitValue c) v = Nat.ofDigitChars 10 s v := by
    intro s
    induction s with
    | nil => intro v _; rfl
    | cons c s ih =>
      intro v hs
      have hc := (decimal_isDigit (hs c List.mem_cons_self)).2.2.1
      rw [List.foldl_cons, ih _ fun d hd => hs d (List.mem_cons_of_mem _ hd),
        Nat.ofDigitChars_cons, hc, Nat.mul_comm v 10]
      rfl
  have hall : ∀ c ∈ t, IsDigit c ∧ digitValue c < 10 := fun c hc =>
    ⟨(decimal_isDigit (h.2 c hc)).1, (decimal_isDigit (h.2 c hc)).2.1⟩
  rw [natOfDigits, if_pos ⟨h.1, hall⟩, hfold t 0 h.2]
  rfl

theorem integerOfText_of_isDecimal {t : Text} (h : isDecimal t) :
    integerOfText t = some (Decimal.value t : ℤ) := by
  have hten := natOfDigits_ten h
  have hsome : (natOfDigits 10 t).map (fun v => (v : ℤ)) = some (Decimal.value t : ℤ) := by rw [hten]; rfl
  rw [← hsome]
  obtain ⟨c, t, rfl⟩ := List.exists_cons_of_ne_nil h.1
  have hc := decimal_isDigit (h.2 c List.mem_cons_self)
  unfold integerOfText
  split
  · cases ‹_ = _›
  · exact absurd (List.cons.inj ‹_›).1 hc.2.2.2.2.1
  · exact absurd (List.cons.inj ‹_›).1 hc.2.2.2.2.2
  · next heq =>
    obtain ⟨rfl, rfl⟩ := List.cons.inj heq
    have hnext := (decimal_isDigit (h.2 _ (List.mem_cons_of_mem _ List.mem_cons_self))).2.2.2.1
    rw [hnext]
  · rfl

theorem trim_of_isDecimal {t : Text} (h : isDecimal t) : trim t = t :=
  trim_eq_self fun c hc => isWhiteSpace_of_isDigit (decimal_isDigit (h.2 c hc)).1

@[simp] theorem trim_ofNat (n : ℕ) : trim (Decimal.ofNat n) = Decimal.ofNat n :=
  trim_of_isDecimal (Decimal.isDecimal_ofNat n)

theorem trim_of_digits {digits : Text} (h : Hex.Digits digits) :
    trim ('0' :: 'x' :: digits) = '0' :: 'x' :: digits := by
  have hx : isWhiteSpace 'x' = false ∧ isWhiteSpace '0' = false := by decide
  refine trim_eq_self fun c hc => ?_
  rcases List.mem_cons.mp hc with rfl | hc
  · exact hx.2
  · rcases List.mem_cons.mp hc with rfl | hc
    · exact hx.1
    · exact isWhiteSpace_of_isDigit (h c hc)

theorem trim_of_isHexString {t : Text} (h : isHexString t) : trim t = t := by
  obtain ⟨digits, rfl, -, hd⟩ := isHexString_iff.mp h
  exact trim_of_digits hd

theorem trim_of_isHexOfLength {n : ℕ} {t : Text} (h : isHexOfLength n t) : trim t = t := by
  obtain ⟨digits, rfl, -, hd⟩ := isHexOfLength_iff.mp h
  exact trim_of_digits hd

/-- **Decimal digits are read as their number.** -/
theorem stringToBigInt_of_isDecimal {t : Text} (h : isDecimal t) :
    stringToBigInt t = .ok (Decimal.value t : ℤ) := by
  unfold stringToBigInt
  rw [trim_of_isDecimal h, integerOfText_of_isDecimal h]

/-- **Hex digits behind `0x` are read as their number.** -/
theorem stringToBigInt_of_isHexOfLength {n : ℕ} {t : Text} (hn : 0 < n)
    (h : isHexOfLength n t) : stringToBigInt t = .ok (hexNat t : ℤ) := by
  obtain ⟨digits, rfl, hlen, hd⟩ := isHexOfLength_iff.mp h
  have hne : digits ≠ [] := by
    rintro rfl
    rw [List.length_nil] at hlen
    omega
  have hnat : natOfDigits 16 digits = some (Hex.value digits) :=
    if_pos ⟨hne, fun c hc => ⟨hd c hc, (digitValue_spec (hd c hc)).1⟩⟩
  have hint : integerOfText ('0' :: 'x' :: digits) =
      (natOfDigits 16 digits).map fun v => (v : ℤ) := rfl
  unfold stringToBigInt
  rw [trim_of_digits hd, hint, hnat]
  rfl

end Nullark.Js.Numbers
