import Nullark.Lib.FixedPoint
import Nullark.Lib.Json
import Nullark.Lib.Shortest

/-! # Numbers as texts

The text of a number is its shortest decimal, with an exponent when the number is very large or very
small.

* `parseNumber_parts`: what is read of a sign, digits, a fraction and an exponent.
* `parseNumber_print`: the text of a number is read back. -/

namespace Nullark.Lib.NumberText

open Nullark.Lib Nullark.Lib.Json Nullark.Lib.Shortest
open Nullark.Lib.Hex (Text)
open Nullark.Lib.FixedPoint (value_append value_zeros)

/-! ### Printing -/

/-- A sign and the digits of an exponent. -/
def printExponent (e : ℤ) : Text :=
  'e' :: (if e < 0 then '-' else '+') :: Decimal.ofNat e.natAbs

/-- The text of a decimal whose point stands behind the first `n` of its digits. -/
def layout (digits : Text) (n : ℤ) : Text :=
  if -5 ≤ n ∧ n ≤ 21 then
    if digits.length ≤ n then digits ++ List.replicate (n - digits.length).toNat '0'
    else if 0 < n then digits.take n.toNat ++ '.' :: digits.drop n.toNat
    else '0' :: '.' :: (List.replicate (-n).toNat '0' ++ digits)
  else if digits.length = 1 then digits ++ printExponent (n - 1)
  else digits.take 1 ++ '.' :: (digits.drop 1 ++ printExponent (n - 1))

def printDigits (d : Digits) : Text :=
  layout (Decimal.ofNat d.significand) (d.exponent + (Decimal.ofNat d.significand).length)

/-- **The text of a number.** A number of binary64 has a shortest decimal. -/
def print (q : ℚ) : Text :=
  if q = 0 then ['0']
  else (if q < 0 then ['-'] else []) ++ ((shortest |q|).map printDigits).getD []

/-- What begins the text of a number. -/
def Leads (c : Char) : Prop := c.isDigit = true ∨ c = '-'

theorem exists_cons_layout {digits : Text} (h : Decimal.isDecimal digits) (n : ℤ) :
    ∃ c t, layout digits n = c :: t ∧ c.isDigit = true := by
  obtain ⟨hne, hdigits⟩ := h
  obtain ⟨c, rest, rfl⟩ := List.exists_cons_of_ne_nil hne
  have hc : c.isDigit = true := hdigits c List.mem_cons_self
  unfold layout
  split_ifs with hrange hwhole hpoint hone
  · exact ⟨c, _, rfl, hc⟩
  · obtain ⟨m, hm⟩ : ∃ m : ℕ, n.toNat = m + 1 := ⟨n.toNat - 1, by omega⟩
    rw [hm]
    exact ⟨c, _, rfl, hc⟩
  · exact ⟨'0', _, rfl, rfl⟩
  · exact ⟨c, _, rfl, hc⟩
  · exact ⟨c, _, rfl, hc⟩

theorem exists_cons_print {q : ℚ} (h : Binary64.round q = .finite q) :
    ∃ c t, print q = c :: t ∧ Leads c := by
  unfold print
  by_cases hq : q = 0
  · rw [if_pos hq]
    exact ⟨'0', [], rfl, Or.inl rfl⟩
  · rw [if_neg hq]
    by_cases hneg : q < 0
    · rw [if_pos hneg]
      exact ⟨'-', _, rfl, Or.inr rfl⟩
    · have hpos : 0 < q := lt_of_le_of_ne (not_lt.mp hneg) (Ne.symm hq)
      obtain ⟨d, hshortest, -, -⟩ := shortest_spec hpos h
      obtain ⟨c, t, hcons, hc⟩ := exists_cons_layout (Decimal.isDecimal_ofNat d.significand)
        (d.exponent + (Decimal.ofNat d.significand).length)
      rw [if_neg hneg, abs_of_pos hpos, hshortest]
      exact ⟨c, t, hcons, Or.inl hc⟩

/-! ### What is read -/

/-- What does not go on with a digit. -/
def NoDigit (r : Text) : Prop := ∀ c ∈ r.head?, c.isDigit = false

theorem spanDigits_noDigit {digits r : Text} (hd : Decimal.Digits digits) (hr : NoDigit r) :
    spanDigits (digits ++ r) = (digits, r) := by
  have htake : r.takeWhile Char.isDigit = [] ∧ r.dropWhile Char.isDigit = r := by
    cases r with
    | nil => exact ⟨rfl, rfl⟩
    | cons c r =>
      rw [List.takeWhile_cons, List.dropWhile_cons, hr c rfl]
      exact ⟨rfl, rfl⟩
  rw [spanDigits, List.takeWhile_append_of_pos hd, List.dropWhile_append_of_pos hd, htake.1,
    htake.2, List.append_nil]

theorem noDigit_cons {c : Char} (h : c.isDigit = false) (r : Text) : NoDigit (c :: r) := by
  intro d hd
  rw [← Option.some.inj hd]
  exact h

theorem noDigit_of_stops {r : Text} (h : Stops r) : NoDigit r := fun c hc => (h c hc).1

theorem parseMinus_digits {digits : Text} (h : Decimal.isDecimal digits) (r : Text) :
    parseMinus (digits ++ r) = (false, digits ++ r) := by
  obtain ⟨c, rest, rfl⟩ := List.exists_cons_of_ne_nil h.1
  have hc : c ≠ '-' := by
    rintro rfl
    exact absurd (h.2 '-' List.mem_cons_self) (by decide)
  rw [List.cons_append]
  unfold parseMinus
  split
  · exact absurd (List.cons.inj ‹_›).1 hc
  · rfl

/-- **A sign, digits, a fraction and an exponent are read.** -/
theorem parseNumber_parts {negative : Bool} {whole fraction t r s : Text} {exponent : ℤ}
    (hwhole : Decimal.isCanonical whole) (ht : NoDigit t)
    (hfraction : parseFraction t = some (fraction, r))
    (hexponent : parseExponent r = some (exponent, s)) :
    parseNumber ((if negative then ['-'] else []) ++ (whole ++ t)) =
      some (.number (Binary64.round (if negative
        then -(Decimal.value (whole ++ fraction) * 10 ^ (exponent - (fraction.length : ℤ)))
        else Decimal.value (whole ++ fraction) * 10 ^ (exponent - (fraction.length : ℤ)))), s) := by
  have hminus : parseMinus ((if negative then ['-'] else []) ++ (whole ++ t)) =
      (negative, whole ++ t) := by
    cases negative with
    | false => exact parseMinus_digits hwhole.1 t
    | true => rfl
  unfold parseNumber
  rw [hminus]
  dsimp only
  rw [spanDigits_noDigit hwhole.1.2 ht]
  dsimp only
  rw [if_pos hwhole, hfraction]
  dsimp only
  rw [hexponent]

theorem parseFraction_point {digits r : Text} (h : Decimal.isDecimal digits) (hr : NoDigit r) :
    parseFraction ('.' :: (digits ++ r)) = some (digits, r) := by
  have hpoint : parseFraction ('.' :: (digits ++ r)) =
      if (spanDigits (digits ++ r)).1 = [] then none else some (spanDigits (digits ++ r)) := rfl
  rw [hpoint, spanDigits_noDigit h.2 hr, if_neg h.1]

theorem parseExponent_sign {digits r : Text} (h : Decimal.isDecimal digits) (hr : NoDigit r) :
    parseExponent ('e' :: '-' :: (digits ++ r)) = some (-(Decimal.value digits : ℤ), r) ∧
      parseExponent ('e' :: '+' :: (digits ++ r)) = some ((Decimal.value digits : ℤ), r) := by
  have hspan := spanDigits_noDigit h.2 hr
  have hminus : parseExponent ('e' :: '-' :: (digits ++ r)) =
      (if (spanDigits (digits ++ r)).1 = [] then none
        else some (-(Decimal.value (spanDigits (digits ++ r)).1 : ℤ),
          (spanDigits (digits ++ r)).2)) := rfl
  have hplus : parseExponent ('e' :: '+' :: (digits ++ r)) =
      (if (spanDigits (digits ++ r)).1 = [] then none
        else some ((Decimal.value (spanDigits (digits ++ r)).1 : ℤ),
          (spanDigits (digits ++ r)).2)) := rfl
  rw [hminus, hplus, hspan]
  exact ⟨if_neg h.1, if_neg h.1⟩

theorem parseExponent_printExponent (e : ℤ) {r : Text} (hr : NoDigit r) :
    parseExponent (printExponent e ++ r) = some (e, r) := by
  obtain ⟨hminus, hplus⟩ := parseExponent_sign (Decimal.isDecimal_ofNat e.natAbs) hr
  rw [Decimal.value_ofNat] at hminus hplus
  unfold printExponent
  by_cases he : e < 0
  · rw [if_pos he, List.cons_append, List.cons_append, hminus]
    congr 2
    omega
  · rw [if_neg he, List.cons_append, List.cons_append, hplus]
    congr 2
    omega

theorem noDigit_printExponent (e : ℤ) (r : Text) : NoDigit (printExponent e ++ r) :=
  noDigit_cons (by decide) _

theorem parseFraction_printExponent (e : ℤ) (r : Text) :
    parseFraction (printExponent e ++ r) = some ([], printExponent e ++ r) := rfl

/-! ### Numbers are read back -/

/-- Digits that do not begin with a zero. -/
theorem canonical_cons {c : Char} {t : Text} (hc : c ≠ '0') (h : Decimal.Digits (c :: t)) :
    Decimal.isCanonical (c :: t) :=
  ⟨⟨List.cons_ne_nil c t, h⟩, fun hzero => absurd (Option.some.inj hzero) hc⟩

theorem digits_append {t u : Text} (ht : Decimal.Digits t) (hu : Decimal.Digits u) :
    Decimal.Digits (t ++ u) := fun c hc => (List.mem_append.mp hc).elim (ht c) (hu c)

theorem digits_zeros (k : ℕ) : Decimal.Digits (List.replicate k '0') := fun c hc => by
  rw [(List.mem_replicate.mp hc).2]
  rfl

/-- A decimal is read when the digits are those of its significand, up to zeros behind them, and the
point stands in its place. -/
theorem parseNumber_decimal {negative : Bool} {whole fraction t r u : Text} {exponent : ℤ}
    {d : Digits} {zeros : ℕ} (hwhole : Decimal.isCanonical whole) (ht : NoDigit t)
    (hfraction : parseFraction t = some (fraction, u))
    (hexponent : parseExponent u = some (exponent, r))
    (hvalue : Decimal.value (whole ++ fraction) = d.significand * 10 ^ zeros)
    (hplace : zeros + (exponent - (fraction.length : ℤ)) = d.exponent) :
    parseNumber ((if negative then ['-'] else []) ++ (whole ++ t)) =
      some (.number (Binary64.round (if negative then -d.value else d.value)), r) := by
  have hmagnitude : (Decimal.value (whole ++ fraction) : ℚ) *
      10 ^ (exponent - (fraction.length : ℤ)) = d.value := by
    rw [hvalue, Digits.value, ← hplace, zpow_add₀ (by norm_num), zpow_natCast]
    push_cast
    ring
  rw [parseNumber_parts hwhole ht hfraction hexponent, hmagnitude]

/-- **The text of a decimal is read back**, one case for each way to write it. -/
theorem parseNumber_printDigits {negative : Bool} {d : Digits} (hpos : 0 < d.significand) {r : Text}
    (hr : Stops r) : parseNumber ((if negative then ['-'] else []) ++ (printDigits d ++ r)) =
      some (.number (Binary64.round (if negative then -d.value else d.value)), r) := by
  have hdigits := Decimal.digits_ofNat d.significand
  have hvalue := Decimal.value_ofNat d.significand
  have hhead := Decimal.head_ofNat d.significand hpos
  obtain ⟨c, rest, hcons⟩ := List.exists_cons_of_ne_nil (Decimal.ofNat_ne_nil d.significand)
  have hnone := noDigit_of_stops hr
  unfold printDigits layout
  rw [hcons] at hdigits hvalue hhead ⊢
  have hc : c ≠ '0' := fun h => hhead (congrArg some h)
  have hrest : Decimal.Digits rest := fun e he => hdigits e (List.mem_cons_of_mem c he)
  generalize hn : d.exponent + ((c :: rest).length : ℤ) = n
  by_cases hrange : -5 ≤ n ∧ n ≤ 21
  · rw [if_pos hrange]
    by_cases hwhole : ((c :: rest).length : ℤ) ≤ n
    · -- zeros behind the digits
      rw [if_pos hwhole]
      refine @parseNumber_decimal negative _ [] r r r 0 d (n - (c :: rest).length).toNat
        (canonical_cons hc (digits_append hdigits (digits_zeros _))) hnone
        (parseFraction_of_stops hr) (parseExponent_of_stops hr) ?_ ?_
      · rw [List.append_nil, value_append, value_zeros, hvalue, List.length_replicate, Nat.add_zero]
      · rw [List.length_nil]
        omega
    · rw [if_neg hwhole]
      by_cases hpoint : 0 < n
      · -- a point between the digits
        rw [if_pos hpoint, List.append_assoc, List.cons_append]
        obtain ⟨m, hm⟩ : ∃ m : ℕ, n.toNat = m + 1 := ⟨n.toNat - 1, by omega⟩
        rw [hm, List.take_succ_cons, List.drop_succ_cons]
        rw [List.length_cons] at hwhole hn
        refine @parseNumber_decimal negative _ (rest.drop m) _ r r 0 d 0
          (canonical_cons hc fun e he => hdigits e ?_) (noDigit_cons (by decide) _)
          (parseFraction_point ⟨?_, fun e he => hrest e (List.mem_of_mem_drop he)⟩ hnone)
          (parseExponent_of_stops hr) ?_ ?_
        · rcases List.mem_cons.mp he with rfl | he
          · exact List.mem_cons_self
          · exact List.mem_cons_of_mem c (List.mem_of_mem_take he)
        · rw [ne_eq, List.drop_eq_nil_iff]
          omega
        · rw [List.cons_append, List.take_append_drop, hvalue, pow_zero, mul_one]
        · rw [List.length_drop]
          omega
      · -- zeros between the point and the digits
        rw [if_neg hpoint]
        have hfraction : Decimal.isDecimal (List.replicate (-n).toNat '0' ++ (c :: rest)) :=
          ⟨by simp, digits_append (digits_zeros _) hdigits⟩
        refine @parseNumber_decimal negative ['0'] _ _ r r 0 d 0 (by decide)
          (noDigit_cons (by decide) _) (parseFraction_point hfraction hnone)
          (parseExponent_of_stops hr) ?_ ?_
        · have hzeros : ['0'] ++ (List.replicate (-n).toNat '0' ++ (c :: rest)) =
              List.replicate ((-n).toNat + 1) '0' ++ (c :: rest) := by
            rw [List.replicate_succ]
            rfl
          rw [hzeros, value_append, value_zeros, hvalue, Nat.zero_mul, Nat.zero_add, pow_zero,
            mul_one]
        · rw [List.length_append, List.length_replicate]
          omega
  · rw [if_neg hrange]
    by_cases hone : (c :: rest).length = 1
    · -- one digit and an exponent
      rw [if_pos hone, List.append_assoc]
      refine @parseNumber_decimal negative _ [] _ r _ (n - 1) d 0 (canonical_cons hc hdigits)
        (noDigit_printExponent _ _) (parseFraction_printExponent _ _)
        (parseExponent_printExponent _ hnone) ?_ ?_
      · rw [List.append_nil, hvalue, pow_zero, mul_one]
      · rw [List.length_nil]
        omega
    · -- a digit, a point, digits and an exponent
      rw [if_neg hone, List.append_assoc, List.cons_append, List.append_assoc]
      rw [List.length_cons] at hone hn
      refine @parseNumber_decimal negative [c] rest _ r _ (n - 1) d 0
        (canonical_cons hc fun e he => hdigits e ?_) (noDigit_cons (by decide) _)
        (parseFraction_point ⟨?_, hrest⟩ (noDigit_printExponent _ _))
        (parseExponent_printExponent _ hnone) ?_ ?_
      · rw [List.mem_singleton.mp he]
        exact List.mem_cons_self
      · rintro rfl
        exact hone rfl
      · rw [List.singleton_append, hvalue, pow_zero, mul_one]
      · omega

/-- **The text of a number is read back.** -/
theorem parseNumber_print {q : ℚ} (h : Binary64.round q = .finite q) {r : Text} (hr : Stops r) :
    parseNumber (print q ++ r) = some (.number (.finite q), r) := by
  unfold print
  by_cases hq : q = 0
  · rw [if_pos hq, hq]
    exact parseNumber_ofNat (n := 0) (by decide) hr
  · have habs : 0 < |q| := abs_pos.mpr hq
    have hround : Binary64.round |q| = .finite |q| := by
      rcases lt_or_gt_of_ne hq with hlt | hgt
      · rw [abs_of_neg hlt]
        exact round_neg h
      · rwa [abs_of_pos hgt]
    obtain ⟨d, hshortest, hpos, hvalue⟩ := shortest_spec habs hround
    have hread := @parseNumber_printDigits (decide (q < 0)) d hpos r hr
    rw [if_neg hq, hshortest, Option.map_some, Option.getD_some, List.append_assoc]
    simp only [decide_eq_true_eq] at hread
    rw [hread]
    by_cases hneg : q < 0
    · rw [if_pos hneg, round_neg hvalue, abs_of_neg hneg, neg_neg]
    · rw [if_neg hneg, hvalue, abs_of_nonneg (not_lt.mp hneg)]

end Nullark.Lib.NumberText
