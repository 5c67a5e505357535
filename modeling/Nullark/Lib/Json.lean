import Nullark.Lib.Binary64
import Nullark.Lib.Decimal
import Nullark.Lib.Utf8

/-! # JSON

Reading a text (`parse`), for all texts, and printing flat objects and arrays (`printObject`,
`printArray`) of strings and natural numbers.

A string is read as its UTF-16 code units, which are put together in the end; what is left of a
broken pair becomes a replacement character. The members of an object stand in the order of the
text, and of two with one name the later one counts (`lookup`).

* `parse_printObject`, `parse_printArray`: what was printed is read back. -/

namespace Nullark.Lib.Json

open Nullark.Lib
open Nullark.Lib.Hex (Text)
open Nullark.Lib.Binary64 (Number)

/-- **A value.** -/
inductive Value
  | null
  | bool (b : Bool)
  | number (x : Number)
  | string (t : Text)
  | array (items : List Value)
  | object (members : List (Text × Value))

/-! ### Reading -/

def isSpace (c : Char) : Bool := c = ' ' || c = '\t' || c = '\n' || c = '\r'

def skip (t : Text) : Text := t.dropWhile isSpace

/-- The UTF-16 code units of a character. -/
def utf16 (c : Char) : List ℕ :=
  if c.toNat < 0x10000 then [c.toNat]
  else [0xD800 + (c.toNat - 0x10000) / 0x400, 0xDC00 + (c.toNat - 0x10000) % 0x400]

/-- The text of code units. -/
def ofUtf16 : List ℕ → Text
  | [] => []
  | [u] => [if 0xD800 ≤ u ∧ u < 0xE000 then Utf8.replacement else Char.ofNat u]
  | u :: w :: units =>
    if 0xD800 ≤ u ∧ u < 0xDC00 ∧ 0xDC00 ≤ w ∧ w < 0xE000 then
      Char.ofNat (0x10000 + (u - 0xD800) * 0x400 + (w - 0xDC00)) :: ofUtf16 units
    else
      (if 0xD800 ≤ u ∧ u < 0xE000 then Utf8.replacement else Char.ofNat u) :: ofUtf16 (w :: units)

/-- The character behind a backslash stands for this one. -/
def escaped : Char → Option ℕ
  | '"' => some 0x22
  | '\\' => some 0x5C
  | '/' => some 0x2F
  | 'b' => some 0x08
  | 'f' => some 0x0C
  | 'n' => some 0x0A
  | 'r' => some 0x0D
  | 't' => some 0x09
  | _ => none

/-- The code units of a string up to its closing quote, and what stands behind it. -/
def parseUnits : Text → Option (List ℕ × Text)
  | [] => none
  | '"' :: t => some ([], t)
  | '\\' :: 'u' :: a :: b :: c :: d :: t =>
    if Hex.Digits [a, b, c, d] then
      (parseUnits t).map fun p => (Hex.value [a, b, c, d] :: p.1, p.2)
    else none
  | '\\' :: c :: t =>
    match escaped c with
    | some u => (parseUnits t).map fun p => (u :: p.1, p.2)
    | none => none
  | c :: t =>
    if c.toNat < 0x20 ∨ c = '\\' then none
    else (parseUnits t).map fun p => (utf16 c ++ p.1, p.2)

def parseString (t : Text) : Option (Text × Text) :=
  (parseUnits t).map fun p => (ofUtf16 p.1, p.2)

def spanDigits (t : Text) : Text × Text := (t.takeWhile Char.isDigit, t.dropWhile Char.isDigit)

/-- A sign, and what stands behind it. -/
def parseMinus : Text → Bool × Text
  | '-' :: t => (true, t)
  | t => (false, t)

def parseFraction : Text → Option (Text × Text)
  | '.' :: t => if (spanDigits t).1 = [] then none else some (spanDigits t)
  | t => some ([], t)

def parseExponent : Text → Option (ℤ × Text)
  | e :: t =>
    if e = 'e' ∨ e = 'E' then
      let (negative, t) := match t with
        | '+' :: t => (false, t)
        | t => parseMinus t
      let (digits, t) := spanDigits t
      if digits = [] then none
      else some (if negative then -(Decimal.value digits : ℤ) else Decimal.value digits, t)
    else some (0, e :: t)
  | [] => some (0, [])

def parseNumber (t : Text) : Option (Value × Text) :=
  let (negative, t) := parseMinus t
  let (whole, t) := spanDigits t
  if Decimal.isCanonical whole then
    match parseFraction t with
    | none => none
    | some (fraction, t) =>
      match parseExponent t with
      | none => none
      | some (exponent, t) =>
        let magnitude : ℚ :=
          Decimal.value (whole ++ fraction) * 10 ^ (exponent - (fraction.length : ℤ))
        some (.number (Binary64.round (if negative then -magnitude else magnitude)), t)
  else none

/-- What stands behind the token the text begins with, after white space. -/
def token (expected t : Text) : Option Text :=
  if expected.isPrefixOf (skip t) then some ((skip t).drop expected.length) else none

def parseLiteral (name : String) (value : Value) (t : Text) : Option (Value × Text) := do
  let t ← token name.toList t
  return (value, t)

def parseStringValue (t : Text) : Option (Value × Text) := do
  let t ← token ['"'] t
  let (text, t) ← parseString t
  return (.string text, t)

mutual

/-- A value and what stands behind it; the fuel bounds the depth and the number of members. -/
def parseValue : ℕ → Text → Option (Value × Text)
  | 0, _ => none
  | fuel + 1, t =>
    parseLiteral "null" .null t <|> parseLiteral "true" (.bool true) t <|>
      parseLiteral "false" (.bool false) t <|> parseStringValue t <|>
      (do
        let t ← token ['['] t
        match token [']'] t with
        | some t => return (.array [], t)
        | none =>
          let (items, t) ← parseItems fuel t
          return (.array items, t)) <|>
      (do
        let t ← token ['\x7b'] t
        match token ['\x7d'] t with
        | some t => return (.object [], t)
        | none =>
          let (members, t) ← parseMembers fuel t
          return (.object members, t)) <|>
      parseNumber (skip t)

/-- One or more items, up to the closing bracket. -/
def parseItems : ℕ → Text → Option (List Value × Text)
  | 0, _ => none
  | fuel + 1, t => do
    let (item, t) ← parseValue fuel t
    match token [','] t with
    | some t =>
      let (items, t) ← parseItems fuel t
      return (item :: items, t)
    | none =>
      let t ← token [']'] t
      return ([item], t)

/-- One or more members, up to the closing brace. -/
def parseMembers : ℕ → Text → Option (List (Text × Value) × Text)
  | 0, _ => none
  | fuel + 1, t => do
    let t ← token ['"'] t
    let (name, t) ← parseString t
    let t ← token [':'] t
    let (value, t) ← parseValue fuel t
    match token [','] t with
    | some t =>
      let (members, t) ← parseMembers fuel t
      return ((name, value) :: members, t)
    | none =>
      let t ← token ['\x7d'] t
      return ([(name, value)], t)

end

/-- **`JSON.parse(text)`**. -/
def parse (t : Text) : Option Value :=
  match parseValue (t.length + 1) t with
  | some (value, t) => if skip t = [] then some value else none
  | none => none

/-- The member with a name; a later one counts. -/
def lookup (members : List (Text × Value)) (name : Text) : Option Value :=
  (members.reverse.find? fun m => m.1 = name).map (·.2)

/-- The names that are array indices. -/
def isIndex (name : Text) : Bool :=
  decide (Decimal.isCanonical name) && decide (Decimal.value name < 2 ^ 32 - 1)

/-- **`Object.keys`**: the array indices in their order, then the other names in that of the
text. -/
def keys (members : List (Text × Value)) : List Text :=
  let names := (members.map (·.1)).eraseDups
  (names.filter isIndex).mergeSort (fun a b => decide (Decimal.value a ≤ Decimal.value b)) ++
    names.filter fun name => !isIndex name

/-! ### Printing -/

/-- **A value that is printed.** -/
inductive Scalar
  | number (n : ℕ)
  | string (t : Text)
  deriving DecidableEq, Repr

/-- A character between quotes. -/
def printChar (c : Char) : Text :=
  if c = '"' then ['\\', '"']
  else if c = '\\' then ['\\', '\\']
  else if c.toNat = 0x08 then ['\\', 'b']
  else if c.toNat = 0x0C then ['\\', 'f']
  else if c.toNat = 0x0A then ['\\', 'n']
  else if c.toNat = 0x0D then ['\\', 'r']
  else if c.toNat = 0x09 then ['\\', 't']
  else if c.toNat < 0x20 then '\\' :: 'u' :: Hex.fixed 4 c.toNat
  else [c]

def printString (t : Text) : Text := '"' :: t.flatMap printChar ++ ['"']

def printScalar : Scalar → Text
  | .number n => Decimal.ofNat n
  | .string t => printString t

def printMember (m : Text × Scalar) : Text := printString m.1 ++ ':' :: printScalar m.2

/-- Texts with commas between them. -/
def commaSeparated : List Text → Text
  | [] => []
  | [t] => t
  | t :: s :: ts => t ++ ',' :: commaSeparated (s :: ts)

/-- **`JSON.stringify`** of a flat array. -/
def printArray (items : List Scalar) : Text :=
  '[' :: commaSeparated (items.map printScalar) ++ [']']

/-- **`JSON.stringify`** of a flat object. -/
def printObject (members : List (Text × Scalar)) : Text :=
  '\x7b' :: commaSeparated (members.map printMember) ++ ['\x7d']

/-- The value that is read back. -/
def Scalar.value : Scalar → Value
  | .number n => .number (.finite n)
  | .string t => .string t

/-! ### Strings are read back -/

theorem ofUtf16_utf16 (c : Char) (units : List ℕ) :
    ofUtf16 (utf16 c ++ units) = c :: ofUtf16 units := by
  have hvalid : c.toNat < 0xD800 ∨ 0xDFFF < c.toNat ∧ c.toNat < 0x110000 := c.valid
  unfold utf16
  split_ifs with h
  · have hif : (if 0xD800 ≤ c.toNat ∧ c.toNat < 0xE000 then Utf8.replacement
        else Char.ofNat c.toNat) = c := by
      rw [if_neg (by omega), Char.ofNat_toNat]
    cases units with
    | nil => exact congrArg (fun d => [d]) hif
    | cons w units =>
      rw [List.singleton_append, ofUtf16, if_neg (by omega), hif]
  · have hnat : 0x10000 + (0xD800 + (c.toNat - 0x10000) / 0x400 - 0xD800) * 0x400 +
        (0xDC00 + (c.toNat - 0x10000) % 0x400 - 0xDC00) = c.toNat := by omega
    rw [List.cons_append, List.singleton_append, ofUtf16, if_pos (by omega), hnat,
      Char.ofNat_toNat]

theorem ofUtf16_flatMap : ∀ t : Text, ofUtf16 (t.flatMap utf16) = t
  | [] => rfl
  | c :: t => by rw [List.flatMap_cons, ofUtf16_utf16, ofUtf16_flatMap t]

/-- Behind a backslash that begins an escape of one character. -/
theorem parseUnits_escaped {c : Char} {u : ℕ} (h : escaped c = some u) (t : Text) :
    parseUnits ('\\' :: c :: t) = (parseUnits t).map fun p => (u :: p.1, p.2) := by
  have hu : escaped 'u' = none := rfl
  have hc : c ≠ 'u' := by rintro rfl; rw [hu] at h; cases h
  rw [parseUnits]
  · rw [h]
  · rintro a b d e s rfl -
    exact hc rfl

theorem parseUnits_plain {c : Char} (h1 : c ≠ '"') (h2 : c ≠ '\\') (h3 : ¬c.toNat < 0x20)
    (t : Text) : parseUnits (c :: t) = (parseUnits t).map fun p => (utf16 c ++ p.1, p.2) := by
  rw [parseUnits]
  · rw [if_neg (by rintro (h | h); exacts [h3 h, h2 h])]
  · exact h1
  · exact fun _ _ _ _ _ h => absurd h h2
  · exact fun _ _ h => absurd h h2

/-- **What is printed for a character**: an escape of two characters, its code, or itself. -/
theorem printChar_cases (c : Char) :
    (∃ e u, escaped e = some u ∧ c.toNat = u ∧ u < 0x10000 ∧ printChar c = ['\\', e]) ∨
    (c.toNat < 0x20 ∧ printChar c = '\\' :: 'u' :: Hex.fixed 4 c.toNat) ∨
    (c ≠ '"' ∧ c ≠ '\\' ∧ ¬c.toNat < 0x20 ∧ printChar c = [c]) := by
  rw [printChar]
  by_cases h1 : c = '"'
  · exact Or.inl ⟨'"', 0x22, rfl, by rw [h1]; rfl, by decide, if_pos h1⟩
  by_cases h2 : c = '\\'
  · exact Or.inl ⟨'\\', 0x5C, rfl, by rw [h2]; rfl, by decide, by rw [if_neg h1, if_pos h2]⟩
  rw [if_neg h1, if_neg h2]
  by_cases h3 : c.toNat = 0x08
  · exact Or.inl ⟨'b', _, rfl, h3, by decide, if_pos h3⟩
  rw [if_neg h3]
  by_cases h4 : c.toNat = 0x0C
  · exact Or.inl ⟨'f', _, rfl, h4, by decide, if_pos h4⟩
  rw [if_neg h4]
  by_cases h5 : c.toNat = 0x0A
  · exact Or.inl ⟨'n', _, rfl, h5, by decide, if_pos h5⟩
  rw [if_neg h5]
  by_cases h6 : c.toNat = 0x0D
  · exact Or.inl ⟨'r', _, rfl, h6, by decide, if_pos h6⟩
  rw [if_neg h6]
  by_cases h7 : c.toNat = 0x09
  · exact Or.inl ⟨'t', _, rfl, h7, by decide, if_pos h7⟩
  rw [if_neg h7]
  by_cases h8 : c.toNat < 0x20
  · exact Or.inr (Or.inl ⟨h8, if_pos h8⟩)
  · exact Or.inr (Or.inr ⟨h1, h2, h8, if_neg h8⟩)

/-- **A character is read back from what is printed for it**, one case for each way to print it. -/
theorem parseUnits_printChar (c : Char) (t : Text) : parseUnits (printChar c ++ t) =
    (parseUnits t).map fun p => (utf16 c ++ p.1, p.2) := by
  have hunits : c.toNat < 0x10000 → utf16 c = [c.toNat] := fun h => if_pos h
  rcases printChar_cases c with ⟨e, u, he, hu, hlt, hprint⟩ | ⟨h8, hprint⟩ | ⟨h1, h2, h8, hprint⟩
  · rw [hprint, hunits (by omega), hu]
    exact parseUnits_escaped he t
  · obtain ⟨a, b, d, e, hfixed⟩ : ∃ a b d e, Hex.fixed 4 c.toNat = [a, b, d, e] := ⟨_, _, _, _, rfl⟩
    have hdigits : Hex.Digits [a, b, d, e] := hfixed ▸ Hex.digits_fixed 4 c.toNat
    have hvalue : Hex.value [a, b, d, e] = c.toNat :=
      hfixed ▸ Hex.value_fixed_of_lt (show c.toNat < 16 ^ 4 by omega)
    rw [hprint, hunits (by omega), hfixed]
    simp only [List.cons_append, List.nil_append]
    rw [parseUnits, if_pos hdigits, hvalue]
  · rw [hprint]
    exact parseUnits_plain h1 h2 h8 t

/-- **A string is read back.** -/
theorem parseString_printString (t r : Text) :
    parseString (t.flatMap printChar ++ '"' :: r) = some (t, r) := by
  have hunits : parseUnits (t.flatMap printChar ++ '"' :: r) = some (t.flatMap utf16, r) := by
    induction t with
    | nil => rfl
    | cons c t ih =>
      rw [List.flatMap_cons, List.append_assoc, parseUnits_printChar, ih, List.flatMap_cons]
      rfl
  rw [parseString, hunits, Option.map_some, ofUtf16_flatMap]

/-! ### Numbers are read back -/

/-- A number ends where this stands. -/
def Stops (r : Text) : Prop := ∀ c ∈ r.head?, c.isDigit = false ∧ c ≠ '.' ∧ c ≠ 'e' ∧ c ≠ 'E'

/-- What stands behind a value: nothing, or the next punctuation mark. -/
def Follows (r : Text) : Prop := ∀ c ∈ r.head?, c = ',' ∨ c = '\x7d' ∨ c = ']'

theorem Follows.stops {r : Text} (h : Follows r) : Stops r := by
  intro c hc
  rcases h c hc with rfl | rfl | rfl <;> decide

theorem spanDigits_append {digits r : Text} (hd : Decimal.Digits digits) (hr : Stops r) :
    spanDigits (digits ++ r) = (digits, r) := by
  have htake : r.takeWhile Char.isDigit = [] ∧ r.dropWhile Char.isDigit = r := by
    cases r with
    | nil => exact ⟨rfl, rfl⟩
    | cons c r =>
      rw [List.takeWhile_cons, List.dropWhile_cons, (hr c rfl).1]
      exact ⟨rfl, rfl⟩
  rw [spanDigits, List.takeWhile_append_of_pos hd, List.dropWhile_append_of_pos hd, htake.1,
    htake.2, List.append_nil]

theorem parseFraction_of_stops {r : Text} (h : Stops r) : parseFraction r = some ([], r) := by
  unfold parseFraction
  split
  · exact absurd rfl (h _ rfl).2.1
  · rfl

theorem parseExponent_of_stops {r : Text} (h : Stops r) : parseExponent r = some (0, r) := by
  cases r with
  | nil => rfl
  | cons c r =>
    obtain ⟨-, -, hlower, hupper⟩ := h c rfl
    unfold parseExponent
    exact if_neg (not_or.mpr ⟨hlower, hupper⟩)

theorem parseMinus_ofNat (n : ℕ) (r : Text) :
    parseMinus (Decimal.ofNat n ++ r) = (false, Decimal.ofNat n ++ r) := by
  obtain ⟨c, digits, hdigits⟩ := List.exists_cons_of_ne_nil (Decimal.ofNat_ne_nil n)
  have hc : c.isDigit = true := Decimal.digits_ofNat n c (hdigits ▸ List.mem_cons_self)
  have hne : c ≠ '-' := by rintro rfl; exact absurd hc (by decide)
  rw [hdigits, List.cons_append]
  unfold parseMinus
  split
  · exact absurd (List.cons.inj ‹_›).1 hne
  · rfl

/-- **A number is read back.** -/
theorem parseNumber_ofNat {n : ℕ} (h : n < 2 ^ 53) {r : Text} (hr : Stops r) :
    parseNumber (Decimal.ofNat n ++ r) = some (.number (.finite n), r) := by
  have hvalue : (Decimal.value (Decimal.ofNat n ++ []) : ℚ) * 10 ^ ((0 : ℤ) - ([] : Text).length) =
      n := by
    rw [List.append_nil, Decimal.value_ofNat]
    simp
  unfold parseNumber
  rw [parseMinus_ofNat]
  dsimp only
  rw [spanDigits_append (Decimal.digits_ofNat n) hr]
  dsimp only
  rw [if_pos (Decimal.isCanonical_ofNat n), parseFraction_of_stops hr]
  dsimp only
  rw [parseExponent_of_stops hr]
  dsimp only
  rw [if_neg Bool.false_ne_true, hvalue, Binary64.round_natCast h]

/-! ### Objects and arrays are read back -/

/-- The numbers that are printed are exact. -/
def Scalar.Exact : Scalar → Prop
  | .number n => n < 2 ^ 53
  | .string _ => True

theorem skip_cons {c : Char} (h : isSpace c = false) (t : Text) : skip (c :: t) = c :: t := by
  rw [skip, List.dropWhile_cons, h]
  rfl

theorem token_self {c : Char} (h : isSpace c = false) (t : Text) : token [c] (c :: t) = some t := by
  rw [token, skip_cons h, if_pos (by simp)]
  rfl

theorem token_ne {c d : Char} {expected : Text} (hd : isSpace d = false) (hne : c ≠ d) (t : Text) :
    token (c :: expected) (d :: t) = none := by
  rw [token, skip_cons hd, if_neg (by simp [hne])]

theorem parseLiteral_ne {name : String} {c d : Char} {expected : Text}
    (hname : name.toList = c :: expected) (hd : isSpace d = false) (hne : c ≠ d) (value : Value)
    (t : Text) : parseLiteral name value (d :: t) = none := by
  rw [parseLiteral, hname, token_ne hd hne]
  rfl

theorem parseValue_string (fuel : ℕ) (t r : Text) :
    parseValue (fuel + 1) (printString t ++ r) = some (.string t, r) := by
  have hq : isSpace '"' = false := by decide
  have ht : parseStringValue ('"' :: (t.flatMap printChar ++ '"' :: r)) = some (.string t, r) := by
    rw [parseStringValue, token_self hq, Option.bind_eq_bind, Option.bind_some,
      parseString_printString]
    rfl
  rw [printString, List.append_assoc, List.cons_append, parseValue,
    parseLiteral_ne rfl hq (by decide), parseLiteral_ne rfl hq (by decide),
    parseLiteral_ne rfl hq (by decide)]
  exact congrArg (· <|> _) ht

theorem parseValue_number (fuel : ℕ) {n : ℕ} (h : n < 2 ^ 53) {r : Text} (hr : Stops r) :
    parseValue (fuel + 1) (Decimal.ofNat n ++ r) = some (.number (.finite n), r) := by
  have hnumber := parseNumber_ofNat h hr
  obtain ⟨c, digits, hdigits⟩ := List.exists_cons_of_ne_nil (Decimal.ofNat_ne_nil n)
  have hc : c.isDigit = true := Decimal.digits_ofNat n c (hdigits ▸ List.mem_cons_self)
  have hne : ∀ {d : Char}, d.isDigit = false → d ≠ c := fun hd heq => by
    rw [← heq, hd] at hc
    exact Bool.false_ne_true hc
  have hspace : isSpace c = false := by
    simp only [isSpace, Bool.or_eq_false_iff, decide_eq_false_iff_not]
    exact ⟨⟨⟨(hne (by decide)).symm, (hne (by decide)).symm⟩, (hne (by decide)).symm⟩,
      (hne (by decide)).symm⟩
  rw [hdigits, List.cons_append] at hnumber ⊢
  rw [parseValue, parseLiteral_ne rfl hspace (hne (by decide)),
    parseLiteral_ne rfl hspace (hne (by decide)), parseLiteral_ne rfl hspace (hne (by decide)),
    parseStringValue, token_ne hspace (hne (by decide)), token_ne hspace (hne (by decide)),
    token_ne hspace (hne (by decide)), skip_cons hspace]
  exact hnumber

theorem parseValue_printScalar (fuel : ℕ) {x : Scalar} (h : x.Exact) {r : Text} (hr : Follows r) :
    parseValue (fuel + 1) (printScalar x ++ r) = some (x.value, r) := by
  cases x with
  | number n => exact parseValue_number fuel h hr.stops
  | string t => exact parseValue_string fuel t r

theorem follows_cons {c : Char} (h : c = ',' ∨ c = '\x7d' ∨ c = ']') (r : Text) :
    Follows (c :: r) := fun _ hd => (Option.some.inj hd) ▸ h

/-- The items up to the closing bracket, by induction on them. -/
theorem parseItems_print : ∀ {items : List Scalar} {fuel : ℕ} (r : Text), items ≠ [] →
    (∀ x ∈ items, x.Exact) → items.length < fuel →
    parseItems fuel (commaSeparated (items.map printScalar) ++ ']' :: r) =
      some (items.map (·.value), r)
  | [], _, _, h, _, _ => absurd rfl h
  | _ :: _, 0, _, _, _, h => absurd h (Nat.not_lt_zero _)
  | _ :: _, 1, _, _, _, h => by rw [List.length_cons] at h; omega
  | [x], fuel + 2, r, _, h, _ => by
    have hx := parseValue_printScalar fuel (h x List.mem_cons_self)
      (follows_cons (Or.inr (Or.inr rfl)) r)
    have hcomma : token [','] (']' :: r) = none := token_ne (by decide) (by decide) r
    have hclose : token [']'] (']' :: r) = some r := token_self (by decide) r
    simp only [List.map_cons, List.map_nil, commaSeparated, parseItems, hx, Option.bind_eq_bind,
      Option.bind_some, hcomma, hclose]
    rfl
  | x :: y :: items, fuel + 2, r, _, h, hfuel => by
    have hx := parseValue_printScalar fuel (h x List.mem_cons_self)
      (follows_cons (c := ',') (Or.inl rfl)
        (commaSeparated ((y :: items).map printScalar) ++ ']' :: r))
    have hcomma := token_self (c := ',') (by decide)
      (commaSeparated ((y :: items).map printScalar) ++ ']' :: r)
    have hrest := @parseItems_print (y :: items) (fuel + 1) r
      (List.cons_ne_nil _ _) (fun z hz => h z (List.mem_cons_of_mem _ hz))
      (by rw [List.length_cons] at hfuel; omega)
    rw [List.map_cons] at hx hrest hcomma
    rw [List.map_cons, List.map_cons, commaSeparated, List.append_assoc, List.cons_append,
      parseItems, hx, Option.bind_eq_bind, Option.bind_some]
    dsimp only
    rw [hcomma]
    dsimp only
    rw [hrest]
    rfl

/-- A member, up to its value. -/
theorem printMember_append (m : Text × Scalar) (r : Text) : printMember m ++ r =
    '"' :: (m.1.flatMap printChar ++ '"' :: ':' :: (printScalar m.2 ++ r)) := by
  rw [printMember, printString]
  simp only [List.append_assoc, List.cons_append, List.nil_append]

/-- The members up to the closing brace, by induction on them. -/
theorem parseMembers_print : ∀ {members : List (Text × Scalar)} {fuel : ℕ} (r : Text),
    members ≠ [] → (∀ m ∈ members, m.2.Exact) → members.length < fuel →
    parseMembers fuel (commaSeparated (members.map printMember) ++ '\x7d' :: r) =
      some (members.map fun m => (m.1, m.2.value), r)
  | [], _, _, h, _, _ => absurd rfl h
  | _ :: _, 0, _, _, _, h => absurd h (Nat.not_lt_zero _)
  | _ :: _, 1, _, _, _, h => by rw [List.length_cons] at h; omega
  | [m], fuel + 2, r, _, h, _ => by
    have hm := parseValue_printScalar fuel (h m List.mem_cons_self)
      (follows_cons (Or.inr (Or.inl rfl)) r)
    have hcomma : token [','] ('\x7d' :: r) = none := token_ne (by decide) (by decide) r
    have hclose : token ['\x7d'] ('\x7d' :: r) = some r := token_self (by decide) r
    have hcolon := token_self (c := ':') (by decide) (printScalar m.2 ++ '\x7d' :: r)
    rw [List.map_cons, List.map_nil, commaSeparated, printMember_append, parseMembers,
      token_self (by decide)]
    simp only [Option.bind_eq_bind, Option.bind_some, parseString_printString, hcolon, hm, hcomma,
      hclose]
    rfl
  | m :: n :: members, fuel + 2, r, _, h, hfuel => by
    have hm := parseValue_printScalar fuel (h m List.mem_cons_self)
      (follows_cons (c := ',') (Or.inl rfl)
        (commaSeparated ((n :: members).map printMember) ++ '\x7d' :: r))
    have hcomma := token_self (c := ',') (by decide)
      (commaSeparated ((n :: members).map printMember) ++ '\x7d' :: r)
    have hcolon := token_self (c := ':') (by decide)
      (printScalar m.2 ++ ',' :: (commaSeparated ((n :: members).map printMember) ++ '\x7d' :: r))
    have hrest := @parseMembers_print (n :: members) (fuel + 1) r
      (List.cons_ne_nil _ _) (fun z hz => h z (List.mem_cons_of_mem _ hz))
      (by rw [List.length_cons] at hfuel; omega)
    rw [List.map_cons] at hm hrest hcomma hcolon
    rw [List.map_cons, List.map_cons, commaSeparated, List.append_assoc, List.cons_append,
      printMember_append, parseMembers, token_self (by decide)]
    simp only [Option.bind_eq_bind, Option.bind_some, parseString_printString, hcolon, hm, hcomma,
      hrest]
    rfl

/-- There are no more texts than characters. -/
theorem length_le_commaSeparated : ∀ {ts : List Text}, (∀ t ∈ ts, t ≠ []) →
    ts.length ≤ (commaSeparated ts).length
  | [], _ => Nat.le_refl 0
  | [t], h => List.length_pos_of_ne_nil (h t List.mem_cons_self)
  | t :: s :: ts, h => by
    have ih := length_le_commaSeparated fun u (hu : u ∈ s :: ts) => h u (List.mem_cons_of_mem _ hu)
    rw [commaSeparated, List.length_append, List.length_cons (a := ','), List.length_cons]
    omega

theorem printScalar_ne_nil (x : Scalar) : printScalar x ≠ [] := by
  cases x with
  | number n => exact Decimal.ofNat_ne_nil n
  | string t => exact List.cons_ne_nil _ _

theorem commaSeparated_cons (t : Text) (ts : List Text) :
    ∃ s, commaSeparated (t :: ts) = t ++ s := by
  cases ts with
  | nil => exact ⟨[], (List.append_nil t).symm⟩
  | cons u ts => exact ⟨_, rfl⟩

/-- What is printed begins with no bracket. -/
theorem exists_cons_printScalar (x : Scalar) :
    ∃ c t, printScalar x = c :: t ∧ isSpace c = false ∧ ']' ≠ c := by
  cases x with
  | number n =>
    obtain ⟨c, digits, hdigits⟩ := List.exists_cons_of_ne_nil (Decimal.ofNat_ne_nil n)
    have hc : c.isDigit = true := Decimal.digits_ofNat n c (hdigits ▸ List.mem_cons_self)
    have hne : ∀ {d : Char}, d.isDigit = false → c ≠ d := fun hd heq => by
      rw [heq, hd] at hc
      exact Bool.false_ne_true hc
    refine ⟨c, digits, hdigits, ?_, (hne (by decide)).symm⟩
    simp only [isSpace, Bool.or_eq_false_iff, decide_eq_false_iff_not]
    exact ⟨⟨⟨hne (by decide), hne (by decide)⟩, hne (by decide)⟩, hne (by decide)⟩
  | string t => exact ⟨'"', _, rfl, by decide, by decide⟩

/-- **An array is read back.** -/
theorem parse_printArray {items : List Scalar} (hne : items ≠ []) (h : ∀ x ∈ items, x.Exact) :
    parse (printArray items) = some (.array (items.map (·.value))) := by
  have hspace : isSpace '[' = false := by decide
  have hlen := @length_le_commaSeparated (items.map printScalar) fun t ht => by
    obtain ⟨x, -, rfl⟩ := List.mem_map.mp ht
    exact printScalar_ne_nil x
  have hfuel : items.length < (printArray items).length := by
    rw [List.length_map] at hlen
    rw [printArray, List.cons_append, List.length_cons, List.length_append]
    omega
  have hitems := parseItems_print [] hne h hfuel
  have hclose : token [']'] (commaSeparated (items.map printScalar) ++ [']']) = none := by
    obtain ⟨x, rest, rfl⟩ := List.exists_cons_of_ne_nil hne
    obtain ⟨s, hs⟩ := commaSeparated_cons (printScalar x) (rest.map printScalar)
    obtain ⟨c, t, hc, hcspace, hcne⟩ := exists_cons_printScalar x
    rw [List.map_cons, hs, hc, List.append_assoc, List.cons_append]
    exact token_ne hcspace hcne _
  have hvalue : parseValue ((printArray items).length + 1) (printArray items) =
      some (.array (items.map (·.value)), []) := by
    generalize (printArray items).length = fuel at hitems
    rw [printArray, List.cons_append, parseValue, parseLiteral_ne rfl hspace (by decide),
      parseLiteral_ne rfl hspace (by decide), parseLiteral_ne rfl hspace (by decide),
      parseStringValue, token_ne hspace (by decide), token_self hspace]
    simp only [Option.bind_eq_bind, Option.bind_some, hclose, hitems]
    rfl
  rw [parse, hvalue]
  rfl

/-- **An object is read back.** -/
theorem parse_printObject {members : List (Text × Scalar)} (hne : members ≠ [])
    (h : ∀ m ∈ members, m.2.Exact) :
    parse (printObject members) = some (.object (members.map fun m => (m.1, m.2.value))) := by
  have hspace : isSpace '\x7b' = false := by decide
  have hlen := @length_le_commaSeparated (members.map printMember) fun t ht => by
    obtain ⟨m, -, rfl⟩ := List.mem_map.mp ht
    exact List.cons_ne_nil _ _
  have hfuel : members.length < (printObject members).length := by
    rw [List.length_map] at hlen
    rw [printObject, List.cons_append, List.length_cons, List.length_append]
    omega
  have hmembers := parseMembers_print [] hne h hfuel
  have hclose : token ['\x7d'] (commaSeparated (members.map printMember) ++ ['\x7d']) = none := by
    obtain ⟨m, rest, rfl⟩ := List.exists_cons_of_ne_nil hne
    obtain ⟨s, hs⟩ := commaSeparated_cons (printMember m) (rest.map printMember)
    rw [List.map_cons, hs, List.append_assoc, printMember_append]
    exact token_ne (by decide) (by decide) _
  have hvalue : parseValue ((printObject members).length + 1) (printObject members) =
      some (.object (members.map fun m => (m.1, m.2.value)), []) := by
    generalize (printObject members).length = fuel at hmembers
    rw [printObject, List.cons_append, parseValue, parseLiteral_ne rfl hspace (by decide),
      parseLiteral_ne rfl hspace (by decide), parseLiteral_ne rfl hspace (by decide),
      parseStringValue, token_ne hspace (by decide), token_ne hspace (by decide),
      token_self hspace]
    simp only [Option.bind_eq_bind, Option.bind_some, hclose, hmembers]
    rfl
  rw [parse, hvalue]
  rfl

/-! ### The members of an object -/

theorem mem_keys {members : List (Text × Value)} {name : Text} :
    name ∈ keys members ↔ name ∈ members.map (·.1) := by
  unfold keys
  dsimp only
  rw [List.mem_append, List.mem_mergeSort, List.mem_filter, List.mem_filter, List.mem_eraseDups]
  cases isIndex name <;> simp

theorem lookup_cons_of_ne {members : List (Text × Value)} {m : Text × Value} {name : Text}
    (h : m.1 ≠ name) : lookup (m :: members) name = lookup members name := by
  unfold lookup
  rw [List.reverse_cons, List.find?_append, List.find?_singleton, decide_eq_false h]
  cases members.reverse.find? fun m => m.1 = name <;> rfl

/-- A name that stands in the text once. -/
theorem lookup_of_mem : ∀ {members : List (Text × Value)} {name : Text} {value : Value},
    (members.map (·.1)).Nodup → (name, value) ∈ members → lookup members name = some value
  | [], _, _, _, h => absurd h List.not_mem_nil
  | m :: members, name, value, hnodup, h => by
    obtain ⟨hout, hnodup'⟩ := List.nodup_cons.mp hnodup
    rcases List.mem_cons.mp h with rfl | hmem
    · have hnone : members.reverse.find? (fun m => m.1 = name) = none := by
        rw [List.find?_eq_none]
        intro m hm heq
        have hmem : m.1 ∈ members.map (·.1) := List.mem_map_of_mem (List.mem_reverse.mp hm)
        exact hout (of_decide_eq_true heq ▸ hmem)
      unfold lookup
      rw [List.reverse_cons, List.find?_append, hnone, List.find?_singleton, decide_eq_true rfl]
      rfl
    · have hname : name ∈ members.map (·.1) := List.mem_map_of_mem (f := (·.1)) hmem
      have hne : m.1 ≠ name := by
        rintro rfl
        exact hout hname
      rw [lookup_cons_of_ne hne, lookup_of_mem hnodup' hmem]

/-- A member of an object that was printed. -/
theorem lookup_printed {members : List (Text × Scalar)} {name : Text} {x : Scalar}
    (hnodup : (members.map (·.1)).Nodup) (h : (name, x) ∈ members) :
    lookup (members.map fun m => (m.1, m.2.value)) name = some x.value := by
  refine lookup_of_mem ?_ (List.mem_map_of_mem (f := fun m => (m.1, m.2.value)) h)
  rwa [List.map_map]

/-- A name that no member has. -/
theorem lookup_printed_eq_none {members : List (Text × Scalar)} {name : Text}
    (h : name ∉ members.map (·.1)) :
    lookup (members.map fun m => (m.1, m.2.value)) name = none := by
  unfold lookup
  rw [Option.map_eq_none_iff, List.find?_eq_none]
  intro m hm heq
  obtain ⟨x, hx, rfl⟩ := List.mem_map.mp (List.mem_reverse.mp hm)
  exact h (List.mem_map.mpr ⟨x, hx, of_decide_eq_true heq⟩)

/-! ### Plain texts -/

/-- An ASCII character that is printed as it is. -/
def IsPlain (c : Char) : Prop := 0x20 ≤ c.toNat ∧ c.toNat < 0x80 ∧ c ≠ '"' ∧ c ≠ '\\'

instance (c : Char) : Decidable (IsPlain c) := inferInstanceAs (Decidable (_ ∧ _))

def Plain (t : Text) : Prop := ∀ c ∈ t, IsPlain c

instance (t : Text) : Decidable (Plain t) := inferInstanceAs (Decidable (∀ c ∈ t, _))

/-- The texts of a value that is printed are plain. -/
def Scalar.Plain : Scalar → Prop
  | .number _ => True
  | .string t => Json.Plain t

theorem printString_of_plain {t : Text} (h : Plain t) : printString t = '"' :: t ++ ['"'] := by
  have hchar : ∀ c ∈ t, printChar c = [c] := by
    intro c hc
    obtain ⟨hlow, hhigh, hquote, hback⟩ := h c hc
    unfold printChar
    rw [if_neg hquote, if_neg hback, if_neg (by omega), if_neg (by omega), if_neg (by omega),
      if_neg (by omega), if_neg (by omega), if_neg (by omega)]
  have hflat : t.flatMap printChar = t := by
    rw [List.flatMap_congr hchar, List.flatMap_singleton']
  rw [printString, hflat]

theorem isPlain_of_isDigit {c : Char} (h : Hex.IsDigit c) : IsPlain c := by
  have hall : ∀ c ∈ Hex.lowerDigits ++ Hex.upperDigits, IsPlain c := by decide
  exact hall c h

theorem isPlain_of_decimal {c : Char} (h : c.isDigit = true) : IsPlain c := by
  have hrange : 48 ≤ c.toNat ∧ c.toNat ≤ 57 := by
    simpa [Char.isDigit, Char.le_def, UInt32.le_iff_toNat_le] using h
  have hall : ∀ n ≤ 57, 48 ≤ n → IsPlain (Char.ofNat n) := by decide
  have hc := hall c.toNat hrange.2 hrange.1
  rwa [Char.ofNat_toNat] at hc

theorem ascii_of_plain {t : Text} (h : Plain t) : Utf8.Ascii t := fun c hc => (h c hc).2.1

theorem ascii_printScalar {x : Scalar} (h : x.Plain) : Utf8.Ascii (printScalar x) := by
  cases x with
  | number n => exact ascii_of_plain fun c hc => isPlain_of_decimal (Decimal.digits_ofNat n c hc)
  | string t =>
    have hquote : Utf8.Ascii ['"'] := by decide
    rw [printScalar, printString_of_plain h]
    exact Utf8.ascii_append (Utf8.ascii_append hquote (ascii_of_plain h)) hquote

theorem ascii_commaSeparated : ∀ {ts : List Text}, (∀ t ∈ ts, Utf8.Ascii t) →
    Utf8.Ascii (commaSeparated ts)
  | [], _ => fun _ h => absurd h List.not_mem_nil
  | [t], h => h t List.mem_cons_self
  | t :: s :: ts, h => by
    have hcomma : Utf8.Ascii [','] := by decide
    have ih := ascii_commaSeparated fun u (hu : u ∈ s :: ts) => h u (List.mem_cons_of_mem _ hu)
    exact Utf8.ascii_append (h t List.mem_cons_self) (Utf8.ascii_append hcomma ih)

theorem ascii_printArray {items : List Scalar} (h : ∀ x ∈ items, x.Plain) :
    Utf8.Ascii (printArray items) := by
  have hopen : Utf8.Ascii ['['] := by decide
  have hclose : Utf8.Ascii [']'] := by decide
  have hitems := @ascii_commaSeparated (items.map printScalar) fun t ht => by
    obtain ⟨x, hx, rfl⟩ := List.mem_map.mp ht
    exact ascii_printScalar (h x hx)
  exact Utf8.ascii_append (Utf8.ascii_append hopen hitems) hclose

theorem ascii_printObject {members : List (Text × Scalar)}
    (h : ∀ m ∈ members, Plain m.1 ∧ m.2.Plain) : Utf8.Ascii (printObject members) := by
  have hopen : Utf8.Ascii ['\x7b'] := by decide
  have hclose : Utf8.Ascii ['\x7d'] := by decide
  have hcolon : Utf8.Ascii [':'] := by decide
  have hmembers := @ascii_commaSeparated (members.map printMember) fun t ht => by
    obtain ⟨m, hm, rfl⟩ := List.mem_map.mp ht
    have hname := ascii_printScalar (x := .string m.1) (h m hm).1
    exact Utf8.ascii_append hname (Utf8.ascii_append hcolon (ascii_printScalar (h m hm).2))
  exact Utf8.ascii_append (Utf8.ascii_append hopen hmembers) hclose

theorem length_commaSeparated : ∀ {ts : List Text}, ts ≠ [] →
    (commaSeparated ts).length + 1 = (ts.map fun t => t.length + 1).sum
  | [], h => absurd rfl h
  | [t], _ => by rw [List.map_singleton, List.sum_singleton]; rfl
  | t :: s :: ts, _ => by
    have ih := length_commaSeparated (List.cons_ne_nil s ts)
    rw [commaSeparated, List.length_append, List.length_cons (a := ','), List.map_cons,
      List.sum_cons]
    omega

/-- The length of a flat object, as a sum over its members. -/
theorem length_printObject {members : List (Text × Scalar)} (hne : members ≠ [])
    (h : ∀ m ∈ members, Plain m.1) : (printObject members).length =
      1 + (members.map fun m => m.1.length + (printScalar m.2).length + 4).sum := by
  have hlen := @length_commaSeparated (members.map printMember) (by simpa using hne)
  have hmap : (members.map printMember).map (fun t => t.length + 1) =
      members.map fun m => m.1.length + (printScalar m.2).length + 4 := by
    rw [List.map_map]
    refine List.map_congr_left fun m hm => ?_
    rw [Function.comp_apply, printMember, printString_of_plain (h m hm)]
    simp only [List.length_append, List.length_cons, List.length_nil]
    omega
  rw [hmap] at hlen
  rw [printObject, List.cons_append, List.length_cons, List.length_append, List.length_singleton]
  omega

/-- The length of a flat array, as a sum over its items. -/
theorem length_printArray {items : List Scalar} (hne : items ≠ []) :
    (printArray items).length = 1 + (items.map fun x => (printScalar x).length + 1).sum := by
  have hlen := @length_commaSeparated (items.map printScalar) (by simpa using hne)
  rw [List.map_map] at hlen
  rw [printArray, List.cons_append, List.length_cons, List.length_append, List.length_singleton,
    ← Function.comp_def (fun t : Text => t.length + 1) printScalar]
  omega

end Nullark.Lib.Json
