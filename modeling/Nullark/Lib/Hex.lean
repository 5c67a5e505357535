import Nullark.Lib.Bytes

/-! # Hexadecimal texts

Texts are lists of characters. A text of hex digits in any case has a value; the lower-case digits
of a number in a given width are the one lower-case text of that width and value
(`lower_eq_fixed`). -/

namespace Nullark.Lib.Hex

open Nullark.Lib.Bytes

abbrev Text := List Char

/-- Texts are compared character by character. -/
instance : LawfulBEq Text := List.instLawfulBEq

/-- A property of all characters of a text is decided along the text. -/
instance (priority := high) decidableForallChar (t : List Char) (p : Char → Prop)
    [DecidablePred p] : Decidable (∀ c ∈ t, p c) := List.decidableBAll p t

instance (priority := high) decidableExistsChar (t : List Char) (p : Char → Prop)
    [DecidablePred p] : Decidable (∃ c ∈ t, p c) := List.decidableBEx p t

def lowerDigits : List Char :=
  ['0', '1', '2', '3', '4', '5', '6', '7', '8', '9', 'a', 'b', 'c', 'd', 'e', 'f']

def upperDigits : List Char := ['A', 'B', 'C', 'D', 'E', 'F']

/-- A hex digit, in either case. -/
def IsDigit (c : Char) : Prop := c ∈ lowerDigits ++ upperDigits

instance (c : Char) : Decidable (IsDigit c) := inferInstanceAs (Decidable (c ∈ _))

/-- All characters are hex digits. -/
def Digits (t : Text) : Prop := ∀ c ∈ t, IsDigit c

instance (t : Text) : Decidable (Digits t) := inferInstanceAs (Decidable (∀ c ∈ t, IsDigit c))

def digit (d : ℕ) : Char := lowerDigits.getD d '0'

def digitValue (c : Char) : ℕ := lowerDigits.idxOf c.toLower

/-- **The value of a text of digits.** -/
def value (t : Text) : ℕ := t.foldl (fun v c => v * 16 + digitValue c) 0

/-- **The low `n` digits of a number**, most significant first. -/
def fixed : ℕ → ℕ → Text
  | 0, _ => []
  | n + 1, v => fixed n (v / 16) ++ [digit (v % 16)]

def lower (t : Text) : Text := t.map Char.toLower

/-! ### Digits -/

theorem digit_spec {d : ℕ} (h : d < 16) :
    IsDigit (digit d) ∧ digitValue (digit d) = d ∧ (digit d).toLower = digit d := by
  have hall : ∀ d < 16, IsDigit (digit d) ∧ digitValue (digit d) = d ∧
      (digit d).toLower = digit d := by decide
  exact hall d h

theorem digitValue_spec {c : Char} (h : IsDigit c) :
    digitValue c < 16 ∧ digit (digitValue c) = c.toLower := by
  have hall : ∀ c ∈ lowerDigits ++ upperDigits,
      digitValue c < 16 ∧ digit (digitValue c) = c.toLower := by decide
  exact hall c h

theorem value_concat (t : Text) (c : Char) : value (t ++ [c]) = value t * 16 + digitValue c := by
  simp [value, List.foldl_append]

theorem lower_append (s t : Text) : lower (s ++ t) = lower s ++ lower t := List.map_append

theorem toLower_toLower (c : Char) : c.toLower.toLower = c.toLower := by
  by_cases h : 65 ≤ c.toNat ∧ c.toNat ≤ 90
  · have hall : ∀ n ≤ 90, 65 ≤ n → (Char.ofNat n).toLower.toLower = (Char.ofNat n).toLower := by
      decide
    have hc := hall c.toNat h.2 h.1
    rwa [Char.ofNat_toNat] at hc
  · have hc : c.toLower = c := dif_neg h
    rw [hc, hc]

@[simp] theorem lower_lower (t : Text) : lower (lower t) = lower t := by
  rw [lower, lower, List.map_map]
  exact List.map_congr_left fun c _ => toLower_toLower c

@[simp] theorem length_lower (t : Text) : (lower t).length = t.length := List.length_map _

@[simp] theorem length_fixed : ∀ n v : ℕ, (fixed n v).length = n
  | 0, _ => rfl
  | n + 1, v => by rw [fixed, List.length_append, length_fixed n]; rfl

theorem value_fixed : ∀ n v : ℕ, value (fixed n v) = v % 16 ^ n
  | 0, v => by simp [fixed, value, Nat.mod_one]
  | n + 1, v => by
    have hd := (digit_spec (Nat.mod_lt v (show 0 < 16 by decide))).2.1
    rw [fixed, value_concat, value_fixed n, hd, pow_succ', Nat.mod_mul]
    ring

theorem value_fixed_of_lt {n v : ℕ} (h : v < 16 ^ n) : value (fixed n v) = v := by
  rw [value_fixed, Nat.mod_eq_of_lt h]

/-- The first digits. -/
theorem take_fixed (n : ℕ) : ∀ m v : ℕ, (fixed (n + m) v).take n = fixed n (v / 16 ^ m)
  | 0, v => by
    rw [Nat.add_zero, pow_zero, Nat.div_one]
    exact List.take_of_length_le (length_fixed n v).le
  | m + 1, v => by
    have hle : n ≤ (fixed (n + m) (v / 16)).length := by rw [length_fixed]; omega
    rw [← Nat.add_assoc, fixed, List.take_append_of_le_length hle, take_fixed n m,
      Nat.div_div_eq_div_mul, pow_succ']

/-- The last digits. -/
theorem drop_fixed (n : ℕ) : ∀ m v : ℕ, (fixed (n + m) v).drop n = fixed m v
  | 0, v => List.drop_of_length_le (length_fixed n v).le
  | m + 1, v => by
    have hle : n ≤ (fixed (n + m) (v / 16)).length := by rw [length_fixed]; omega
    rw [← Nat.add_assoc, fixed, List.drop_append_of_le_length hle, drop_fixed n m, fixed]

theorem digits_fixed : ∀ n v : ℕ, Digits (fixed n v)
  | 0, _ => fun _ h => absurd h List.not_mem_nil
  | n + 1, v => by
    intro c hc
    rw [fixed, List.mem_append, List.mem_singleton] at hc
    rcases hc with hc | rfl
    · exact digits_fixed n _ c hc
    · exact (digit_spec (Nat.mod_lt v (by decide))).1

theorem lower_fixed : ∀ n v : ℕ, lower (fixed n v) = fixed n v
  | 0, _ => rfl
  | n + 1, v => by
    have hd := (digit_spec (Nat.mod_lt v (show 0 < 16 by decide))).2.2
    rw [fixed, lower_append, lower_fixed n, lower, List.map_singleton, hd]

/-- **A text of digits in lower case is determined by its width and its value.** -/
theorem lower_eq_fixed {t : Text} (h : Digits t) : lower t = fixed t.length (value t) := by
  induction t using List.reverseRecOn with
  | nil => rfl
  | append_singleton t c ih =>
    obtain ⟨hlt, hdigit⟩ := digitValue_spec (h c (by simp))
    have hdiv : (value t * 16 + digitValue c) / 16 = value t := by omega
    have hmod : (value t * 16 + digitValue c) % 16 = digitValue c := by omega
    rw [lower_append, ih fun d hd => h d (by simp [hd]), value_concat, List.length_append,
      List.length_singleton, fixed, hdiv, hmod, hdigit]
    rfl

theorem value_lt {t : Text} (h : Digits t) : value t < 16 ^ t.length := by
  induction t using List.reverseRecOn with
  | nil => simp [value]
  | append_singleton t c ih =>
    have hlt := (digitValue_spec (h c (by simp))).1
    have ht := ih fun d hd => h d (by simp [hd])
    rw [value_concat, List.length_append, List.length_singleton, pow_succ]
    omega

theorem digits_lower {t : Text} (h : Digits t) : Digits (lower t) := by
  rw [lower_eq_fixed h]; exact digits_fixed _ _

theorem digitValue_toLower (c : Char) : digitValue c.toLower = digitValue c := by
  rw [digitValue, toLower_toLower, digitValue]

/-- The value of a text does not depend on the case. -/
@[simp] theorem value_of_lower (t : Text) : value (lower t) = value t := by
  simp only [value, lower, List.foldl_map, digitValue_toLower]

theorem isDigit_of_toLower {c : Char} (h : IsDigit c.toLower) : IsDigit c := by
  by_cases hc : 65 ≤ c.toNat ∧ c.toNat ≤ 90
  · have hall : ∀ n ≤ 90, 65 ≤ n → IsDigit (Char.ofNat n).toLower → IsDigit (Char.ofNat n) := by
      decide
    have hn := hall c.toNat hc.2 hc.1
    rw [Char.ofNat_toNat] at hn
    exact hn h
  · have hlower : c.toLower = c := dif_neg hc
    rwa [hlower] at h

theorem digits_of_lower {t : Text} (h : Digits (lower t)) : Digits t := fun _ hc =>
  isDigit_of_toLower (h _ (List.mem_map_of_mem hc))

/-! ### Numbers as texts -/

/-- The digits of a number without leading zeros; zero is one digit. -/
def ofNat (v : ℕ) : Text := if v = 0 then ['0'] else (Nat.digits 16 v).reverse.map digit

/-- A text filled up with `c` on the left. -/
def padStart (n : ℕ) (c : Char) (t : Text) : Text := List.replicate (n - t.length) c ++ t

theorem value_zeros (k : ℕ) (t : Text) : value (List.replicate k '0' ++ t) = value t := by
  have hz : digitValue '0' = 0 := by decide
  induction k with
  | zero => rfl
  | succ k ih => simpa [value, List.replicate_succ, hz] using ih

/-- The digits of a list of numbers below 16, least significant first. -/
theorem value_map_digit : ∀ {l : List ℕ}, (∀ d ∈ l, d < 16) →
    Digits (l.reverse.map digit) ∧ value (l.reverse.map digit) = Nat.ofDigits 16 l
  | [], _ => ⟨fun _ h => absurd h List.not_mem_nil, rfl⟩
  | d :: l, h => by
    obtain ⟨hdig, hval⟩ := value_map_digit fun e he => h e (List.mem_cons_of_mem _ he)
    obtain ⟨h1, h2, -⟩ := digit_spec (h d List.mem_cons_self)
    rw [List.reverse_cons, List.map_append, List.map_singleton, value_concat, hval, h2,
      Nat.ofDigits_cons]
    refine ⟨fun c hc => ?_, by ring⟩
    rw [List.mem_append, List.mem_singleton] at hc
    rcases hc with hc | rfl
    · exact hdig c hc
    · exact h1

theorem ofNat_spec (v : ℕ) : Digits (ofNat v) ∧ value (ofNat v) = v ∧ lower (ofNat v) = ofNat v := by
  unfold ofNat
  split_ifs with h
  · subst h; decide
  · have hlt : ∀ d ∈ Nat.digits 16 v, d < 16 := fun d hd => Nat.digits_lt_base (by decide) hd
    obtain ⟨hdig, hval⟩ := value_map_digit hlt
    refine ⟨hdig, by rw [hval, Nat.ofDigits_digits], ?_⟩
    rw [lower, List.map_map]
    refine List.map_congr_left fun d hd => ?_
    exact (digit_spec (hlt d (List.mem_reverse.mp hd))).2.2

theorem length_ofNat_le {v n : ℕ} (hn : 0 < n) (h : v < 16 ^ n) : (ofNat v).length ≤ n := by
  unfold ofNat
  split_ifs with hz
  · exact hn
  · rw [List.length_map, List.length_reverse]
    exact (Nat.digits_length_le_iff (by decide) v).mpr h

/-- **A number padded to a width is its digits in that width.** -/
theorem padStart_ofNat {v n : ℕ} (hn : 0 < n) (h : v < 16 ^ n) :
    padStart n '0' (ofNat v) = fixed n v := by
  obtain ⟨hdig, hval, hlow⟩ := ofNat_spec v
  have hlen := length_ofNat_le hn h
  have hpad : Digits (padStart n '0' (ofNat v)) := by
    intro c hc
    rw [padStart, List.mem_append, List.mem_replicate] at hc
    rcases hc with ⟨-, rfl⟩ | hc
    · decide
    · exact hdig c hc
  have hlower : lower (padStart n '0' (ofNat v)) = padStart n '0' (ofNat v) := by
    rw [padStart, lower_append, hlow, lower, List.map_replicate]
    rfl
  have hwidth : (padStart n '0' (ofNat v)).length = n := by
    rw [padStart, List.length_append, List.length_replicate]
    omega
  have hfixed := lower_eq_fixed hpad
  rw [hlower, hwidth] at hfixed
  rw [hfixed, padStart, value_zeros, hval]

/-- Padding a text of digits to a width it does not exceed. -/
theorem padStart_of_digits {t : Text} {n : ℕ} (h : Digits t) (hlen : t.length ≤ n) :
    lower (padStart n '0' t) = fixed n (value t) := by
  have hpad : Digits (padStart n '0' t) := by
    intro c hc
    rw [padStart, List.mem_append, List.mem_replicate] at hc
    rcases hc with ⟨-, rfl⟩ | hc
    · decide
    · exact h c hc
  have hwidth : (padStart n '0' t).length = n := by
    rw [padStart, List.length_append, List.length_replicate]
    omega
  have hfixed := lower_eq_fixed hpad
  rw [hwidth] at hfixed
  rw [hfixed, padStart, value_zeros]

/-! ### Bytes -/

/-- The bytes two digits each. -/
def toBytes : Text → List UInt8
  | a :: b :: t => UInt8.ofNat (digitValue a * 16 + digitValue b) :: toBytes t
  | _ => []

theorem toBytes_append : ∀ {s : Text} (n : ℕ) (t : Text), s.length = 2 * n →
    toBytes (s ++ t) = toBytes s ++ toBytes t
  | [], _, _, _ => rfl
  | [_], n, _, h => by rw [List.length_singleton] at h; omega
  | a :: b :: s, n, t, h => by
    simp only [List.length_cons] at h
    simp only [List.cons_append, toBytes]
    rw [toBytes_append (n - 1) t (by omega)]

theorem fixed_succ_two (n v : ℕ) : fixed (2 * (n + 1)) v =
    fixed (2 * n) (v / 256) ++ [digit (v / 16 % 16), digit (v % 16)] := by
  rw [show 2 * (n + 1) = 2 * n + 1 + 1 by ring, fixed, fixed, Nat.div_div_eq_div_mul,
    List.append_assoc]
  rfl

/-- **The digits of a number are the digits of its bytes.** -/
theorem toBytes_fixed : ∀ n v : ℕ, toBytes (fixed (2 * n) v) = beBytes n v
  | 0, _ => rfl
  | n + 1, v => by
    have h1 := (digit_spec (Nat.mod_lt (v / 16) (show 0 < 16 by decide))).2.1
    have h2 := (digit_spec (Nat.mod_lt v (show 0 < 16 by decide))).2.1
    have hbyte : UInt8.ofNat (v / 16 % 16 * 16 + v % 16) = UInt8.ofNat v := by
      refine UInt8.toNat_inj.mp ?_
      simp only [UInt8.toNat_ofNat']
      omega
    rw [fixed_succ_two, toBytes_append n _ (length_fixed _ _), toBytes_fixed n, beBytes]
    simp only [toBytes, h1, h2, hbyte]

theorem fixed_two (v : ℕ) : fixed 2 v = [digit (v / 16 % 16), digit (v % 16)] := rfl

/-- The digits of bytes. -/
def ofBytes (bytes : List UInt8) : Text := bytes.flatMap fun b => fixed 2 b.toNat

theorem ofBytes_append (a b : List UInt8) : ofBytes (a ++ b) = ofBytes a ++ ofBytes b :=
  List.flatMap_append

theorem ofBytes_cons (b : UInt8) (bytes : List UInt8) :
    ofBytes (b :: bytes) = fixed 2 b.toNat ++ ofBytes bytes := List.flatMap_cons

theorem digits_ofBytes (bytes : List UInt8) : Digits (ofBytes bytes) := by
  intro c hc
  rw [ofBytes, List.mem_flatMap] at hc
  obtain ⟨b, -, hb⟩ := hc
  exact digits_fixed _ _ c hb

theorem length_ofBytes : ∀ bytes : List UInt8, (ofBytes bytes).length = 2 * bytes.length
  | [] => rfl
  | b :: bytes => by
    rw [ofBytes_cons, List.length_append, length_fixed, length_ofBytes bytes, List.length_cons]
    ring

theorem lower_ofBytes : ∀ bytes : List UInt8, lower (ofBytes bytes) = ofBytes bytes
  | [] => rfl
  | b :: bytes => by rw [ofBytes_cons, lower_append, lower_fixed, lower_ofBytes bytes]

/-- **Bytes are read back from their digits.** -/
theorem toBytes_ofBytes : ∀ bytes : List UInt8, toBytes (ofBytes bytes) = bytes
  | [] => rfl
  | b :: bytes => by
    have hb : beBytes 1 b.toNat = [b] := by simp [beBytes]
    rw [ofBytes_cons, toBytes_append 1 _ (length_fixed _ _), toBytes_ofBytes bytes,
      toBytes_fixed 1, hb]
    rfl

theorem ofBytes_beBytes : ∀ n v : ℕ, ofBytes (beBytes n v) = fixed (2 * n) v
  | 0, _ => rfl
  | n + 1, v => by
    have hbyte : fixed 2 (UInt8.ofNat v).toNat = [digit (v / 16 % 16), digit (v % 16)] := by
      have h1 : (UInt8.ofNat v).toNat / 16 % 16 = v / 16 % 16 := by
        rw [UInt8.toNat_ofNat']; omega
      have h2 : (UInt8.ofNat v).toNat % 16 = v % 16 := by
        rw [UInt8.toNat_ofNat']; omega
      rw [fixed_two, h1, h2]
    rw [beBytes, ofBytes_append, ofBytes_beBytes n, fixed_succ_two, ofBytes_cons, hbyte]
    rfl

theorem length_toBytes : ∀ t : Text, (toBytes t).length = t.length / 2
  | [] => rfl
  | [_] => by simp [toBytes]
  | _ :: _ :: t => by
    rw [toBytes, List.length_cons, length_toBytes t, List.length_cons, List.length_cons]
    omega

/-- An even text of digits is, up to case, the digits of its bytes. -/
theorem ofBytes_toBytes : ∀ {t : Text} (n : ℕ), Digits t → t.length = 2 * n →
    ofBytes (toBytes t) = lower t
  | [], _, _, _ => rfl
  | [_], n, _, h => by rw [List.length_singleton] at h; omega
  | a :: b :: t, n, hd, h => by
    simp only [List.length_cons] at h
    have ha := digitValue_spec (hd a (by simp))
    have hb := digitValue_spec (hd b (by simp))
    have ih := ofBytes_toBytes (n - 1) (fun c hc => hd c (by simp [hc])) (by omega : t.length = _)
    have hbyte : fixed 2 (UInt8.ofNat (digitValue a * 16 + digitValue b)).toNat =
        [a.toLower, b.toLower] := by
      have h1 : (UInt8.ofNat (digitValue a * 16 + digitValue b)).toNat / 16 % 16 =
          digitValue a := by
        rw [UInt8.toNat_ofNat']; omega
      have h2 : (UInt8.ofNat (digitValue a * 16 + digitValue b)).toNat % 16 = digitValue b := by
        rw [UInt8.toNat_ofNat']; omega
      rw [fixed_two, h1, h2, ha.2, hb.2]
    rw [toBytes, ofBytes_cons, ih, hbyte]
    rfl

end Nullark.Lib.Hex
