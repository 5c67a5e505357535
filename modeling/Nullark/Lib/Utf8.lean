import Nullark.Lib.Hex

/-! # UTF-8

Encoding (`encode`) and the decoder of the web platform (`decode`), which drops a byte order mark
and replaces what is not well formed. The decoder is a machine: between two characters, or inside
one with some bytes still to come (`Pending`).

* `decode_encode`: a text that begins with no byte order mark is decoded from its encoding. -/

namespace Nullark.Lib.Utf8

open Nullark.Lib.Hex

/-- The bytes of a character. -/
def encodeChar (c : Char) : List UInt8 :=
  let n := c.toNat
  if n < 0x80 then [.ofNat n]
  else if n < 0x800 then [.ofNat (0xC0 + n / 64), .ofNat (0x80 + n % 64)]
  else if n < 0x10000 then
    [.ofNat (0xE0 + n / 4096), .ofNat (0x80 + n / 64 % 64), .ofNat (0x80 + n % 64)]
  else
    [.ofNat (0xF0 + n / 262144), .ofNat (0x80 + n / 4096 % 64), .ofNat (0x80 + n / 64 % 64),
      .ofNat (0x80 + n % 64)]

/-- **The bytes of a text.** -/
def encode (t : Text) : List UInt8 := t.flatMap encodeChar

def replacement : Char := '\uFFFD'

/-- **Inside a character**: the bytes to come, the bits read, and the range of the next byte. -/
structure Pending where
  needed : ℕ
  value : ℕ
  lower : ℕ
  upper : ℕ

/-- A byte between two characters. -/
def start (b : ℕ) : Text × Option Pending :=
  if b < 0x80 then ([Char.ofNat b], none)
  else if 0xC2 ≤ b ∧ b ≤ 0xDF then ([], some ⟨1, b - 0xC0, 0x80, 0xBF⟩)
  else if 0xE0 ≤ b ∧ b ≤ 0xEF then
    ([], some ⟨2, b - 0xE0, if b = 0xE0 then 0xA0 else 0x80, if b = 0xED then 0x9F else 0xBF⟩)
  else if 0xF0 ≤ b ∧ b ≤ 0xF4 then
    ([], some ⟨3, b - 0xF0, if b = 0xF0 then 0x90 else 0x80, if b = 0xF4 then 0x8F else 0xBF⟩)
  else ([replacement], none)

/-- A byte inside a character; one out of range begins anew. -/
def next (p : Pending) (b : ℕ) : Text × Option Pending :=
  if p.lower ≤ b ∧ b ≤ p.upper then
    let value := p.value * 64 + (b - 0x80)
    if p.needed = 1 then ([Char.ofNat value], none) else ([], some ⟨p.needed - 1, value, 0x80, 0xBF⟩)
  else (replacement :: (start b).1, (start b).2)

def run : Option Pending → List UInt8 → Text
  | none, [] => []
  | some _, [] => [replacement]
  | none, b :: bytes => (start b.toNat).1 ++ run (start b.toNat).2 bytes
  | some p, b :: bytes => (next p b.toNat).1 ++ run (next p b.toNat).2 bytes

/-- **The text of bytes**, without a byte order mark. -/
def decode : List UInt8 → Text
  | 0xEF :: 0xBB :: 0xBF :: bytes => run none bytes
  | bytes => run none bytes

/-! ### Decoding what was encoded -/

theorem toNat_ofNat_of_lt {n : ℕ} (h : n < 256) : (UInt8.ofNat n).toNat = n := by
  rw [UInt8.toNat_ofNat', Nat.mod_eq_of_lt h]

theorem next_of_mem {p : Pending} {b : ℕ} (h : p.lower ≤ b ∧ b ≤ p.upper) (hn : p.needed ≠ 1) :
    next p b = ([], some ⟨p.needed - 1, p.value * 64 + (b - 0x80), 0x80, 0xBF⟩) := by
  rw [next, if_pos h, if_neg hn]

theorem next_last {p : Pending} {b : ℕ} (h : p.lower ≤ b ∧ b ≤ p.upper) (hn : p.needed = 1) :
    next p b = ([Char.ofNat (p.value * 64 + (b - 0x80))], none) := by
  rw [next, if_pos h, if_pos hn]

/-- The last byte of a character. -/
theorem run_last {value lower upper b : ℕ} {bytes : List UInt8} (hb : b < 256)
    (h : lower ≤ b ∧ b ≤ upper) :
    run (some ⟨1, value, lower, upper⟩) (.ofNat b :: bytes) =
      Char.ofNat (value * 64 + (b - 0x80)) :: run none bytes := by
  rw [run, toNat_ofNat_of_lt hb, next_last h rfl]
  rfl

/-- A byte of a character that is not the last. -/
theorem run_inner {needed value lower upper b : ℕ} {bytes : List UInt8} (hb : b < 256)
    (h : lower ≤ b ∧ b ≤ upper) :
    run (some ⟨needed + 2, value, lower, upper⟩) (.ofNat b :: bytes) =
      run (some ⟨needed + 1, value * 64 + (b - 0x80), 0x80, 0xBF⟩) bytes := by
  rw [run, toNat_ofNat_of_lt hb, next_of_mem h (show needed + 2 ≠ 1 by omega)]
  rfl

/-- **A character is decoded from its bytes**, by the number of them. -/
theorem run_encodeChar (c : Char) (bytes : List UInt8) :
    run none (encodeChar c ++ bytes) = c :: run none bytes := by
  have hvalid : c.toNat < 0xD800 ∨ 0xDFFF < c.toNat ∧ c.toNat < 0x110000 := c.valid
  have hc : ∀ {n}, n = c.toNat → Char.ofNat n = c := fun h => h ▸ Char.ofNat_toNat c
  unfold encodeChar
  dsimp only
  split_ifs with h1 h2 h3
  · have hstart : start c.toNat = ([Char.ofNat c.toNat], none) := if_pos h1
    rw [List.singleton_append, run, toNat_ofNat_of_lt (by omega), hstart, Char.ofNat_toNat]
    rfl
  · have hstart : start (0xC0 + c.toNat / 64) = ([], some ⟨1, c.toNat / 64, 0x80, 0xBF⟩) := by
      rw [start, if_neg (by omega), if_pos (by omega), Nat.add_sub_cancel_left]
    simp only [List.cons_append, List.nil_append]
    rw [run, toNat_ofNat_of_lt (by omega), hstart, List.nil_append,
      run_last (by omega) (by omega), hc (by omega)]
  · have hstart : start (0xE0 + c.toNat / 4096) = ([], some ⟨2, c.toNat / 4096,
        if 0xE0 + c.toNat / 4096 = 0xE0 then 0xA0 else 0x80,
        if 0xE0 + c.toNat / 4096 = 0xED then 0x9F else 0xBF⟩) := by
      rw [start, if_neg (by omega), if_neg (by omega), if_pos (by omega), Nat.add_sub_cancel_left]
    have hrange : (if 0xE0 + c.toNat / 4096 = 0xE0 then 0xA0 else 0x80) ≤
          0x80 + c.toNat / 64 % 64 ∧
        0x80 + c.toNat / 64 % 64 ≤ if 0xE0 + c.toNat / 4096 = 0xED then 0x9F else 0xBF := by
      split_ifs <;> omega
    simp only [List.cons_append, List.nil_append]
    rw [run, toNat_ofNat_of_lt (by omega), hstart, List.nil_append,
      run_inner (by omega) hrange, run_last (by omega) (by omega), hc (by omega)]
  · have hstart : start (0xF0 + c.toNat / 262144) = ([], some ⟨3, c.toNat / 262144,
        if 0xF0 + c.toNat / 262144 = 0xF0 then 0x90 else 0x80,
        if 0xF0 + c.toNat / 262144 = 0xF4 then 0x8F else 0xBF⟩) := by
      rw [start, if_neg (by omega), if_neg (by omega), if_neg (by omega), if_pos (by omega),
        Nat.add_sub_cancel_left]
    have hrange : (if 0xF0 + c.toNat / 262144 = 0xF0 then 0x90 else 0x80) ≤
          0x80 + c.toNat / 4096 % 64 ∧
        0x80 + c.toNat / 4096 % 64 ≤ if 0xF0 + c.toNat / 262144 = 0xF4 then 0x8F else 0xBF := by
      split_ifs <;> omega
    simp only [List.cons_append, List.nil_append]
    rw [run, toNat_ofNat_of_lt (by omega), hstart, List.nil_append,
      run_inner (by omega) hrange, run_inner (by omega) (by omega), run_last (by omega) (by omega),
      hc (by omega)]

theorem run_encode : ∀ t : Text, run none (encode t) = t
  | [] => rfl
  | c :: t => by
    rw [encode, List.flatMap_cons, run_encodeChar]
    exact congrArg (c :: ·) (run_encode t)

theorem decode_eq_run {bytes : List UInt8} (h : bytes.head? ≠ some 0xEF) :
    decode bytes = run none bytes := by
  unfold decode
  split
  · exact absurd rfl h
  · rfl

/-- **A text is decoded from its encoding** when it begins with an ASCII character. -/
theorem decode_encode {c : Char} {t : Text} (hc : c.toNat < 0x80) :
    decode (encode (c :: t)) = c :: t := by
  have hhead : (encode (c :: t)).head? ≠ some 0xEF := by
    have hchar : encodeChar c = [.ofNat c.toNat] := if_pos hc
    rw [encode, List.flatMap_cons, hchar, List.singleton_append, List.head?_cons]
    intro h
    have hnat := congrArg UInt8.toNat (Option.some.inj h)
    have hmark : (0xEF : UInt8).toNat = 239 := rfl
    rw [toNat_ofNat_of_lt (by omega), hmark] at hnat
    omega
  rw [decode_eq_run hhead, run_encode]

/-! ### ASCII -/

/-- All characters are ASCII. -/
def Ascii (t : Text) : Prop := ∀ c ∈ t, c.toNat < 0x80

instance (t : Text) : Decidable (Ascii t) := inferInstanceAs (Decidable (∀ c ∈ t, _))

theorem ascii_append {s t : Text} (hs : Ascii s) (ht : Ascii t) : Ascii (s ++ t) := fun c hc =>
  (List.mem_append.mp hc).elim (hs c) (ht c)

theorem length_encode : ∀ {t : Text}, Ascii t → (encode t).length = t.length
  | [], _ => rfl
  | c :: t, h => by
    have hchar : encodeChar c = [.ofNat c.toNat] := if_pos (h c List.mem_cons_self)
    have ht : (encode t).length = t.length :=
      length_encode fun d hd => h d (List.mem_cons_of_mem _ hd)
    rw [encode, List.flatMap_cons, hchar, List.length_append, List.length_singleton,
      List.length_cons, Nat.add_comm]
    exact congrArg (· + 1) ht

end Nullark.Lib.Utf8
