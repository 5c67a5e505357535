import Nullark.Js.Doubles
import Nullark.Lib.NumberText

/-! # Values that JSON writes

`JSON.stringify` and `JSON.parse` for values of any depth, whose strings are any sequences of UTF-16
code units and whose numbers are any numbers.

* `parseUnits_quoteUnits`: a string is read back unit by unit, also a broken pair.
* `parse_print`: a value whose numbers are finite is read back. -/

namespace Nullark.Js.JsonValues

open Nullark.Lib Nullark.Lib.Json
open Nullark.Lib.Hex (Text)
open Nullark.Lib.NumberText (Leads)
open Nullark.Js.Doubles

/-- **A string of the language.** -/
abbrev Units := List UInt16

/-- **A value.** The members of an object stand in the order in which they were added. -/
inductive Value
  | null
  | bool (b : Bool)
  | number (x : JsNumber)
  | string (s : Units)
  | array (items : List Value)
  | object (members : List (Units × Value))

theorem sizeOf_item {v : Value} {items : List Value} (h : v ∈ items) :
    sizeOf v < sizeOf (Value.array items) := by
  have hlt := List.sizeOf_lt_of_mem h
  rw [Value.array.sizeOf_spec]
  omega

theorem sizeOf_member {m : Units × Value} {members : List (Units × Value)} (h : m ∈ members) :
    sizeOf m.2 < sizeOf (Value.object members) := by
  have hlt := List.sizeOf_lt_of_mem h
  obtain ⟨name, value⟩ := m
  rw [Prod.mk.sizeOf_spec] at hlt
  rw [Value.object.sizeOf_spec]
  dsimp only
  omega

/-- Induction on the depth of a value. -/
@[elab_as_elim] theorem Value.induction {P : Value → Prop} (null : P .null)
    (bool : ∀ b, P (.bool b)) (number : ∀ x, P (.number x)) (string : ∀ s, P (.string s))
    (array : ∀ items, (∀ v ∈ items, P v) → P (.array items))
    (object : ∀ members, (∀ m ∈ members, P m.2) → P (.object members)) : ∀ v, P v
  | .null => null
  | .bool b => bool b
  | .number x => number x
  | .string s => string s
  | .array items => array items fun v _ => induction null bool number string array object v
  | .object members => object members fun m _ => induction null bool number string array object m.2
termination_by v => sizeOf v
decreasing_by
  · exact sizeOf_item ‹_›
  · exact sizeOf_member ‹_›

/-- All numbers in the value are finite. -/
inductive Value.Finite : Value → Prop
  | null : Finite .null
  | bool (b : Bool) : Finite (.bool b)
  | number (x : Double) : Finite (.number (.finite x))
  | string (s : Units) : Finite (.string s)
  | array {items : List Value} (h : ∀ v ∈ items, Finite v) : Finite (.array items)
  | object {members : List (Units × Value)} (h : ∀ m ∈ members, Finite m.2) :
    Finite (.object members)

/-- No object in the value has two members of one name. -/
inductive Value.Distinct : Value → Prop
  | null : Distinct .null
  | bool (b : Bool) : Distinct (.bool b)
  | number (x : JsNumber) : Distinct (.number x)
  | string (s : Units) : Distinct (.string s)
  | array {items : List Value} (h : ∀ v ∈ items, Distinct v) : Distinct (.array items)
  | object {members : List (Units × Value)} (hnames : (members.map (·.1)).Nodup)
    (h : ∀ m ∈ members, Distinct m.2) : Distinct (.object members)

/-! ### Strings -/

/-- A unit that is not part of a pair: half of a pair is written by its code. -/
def quoteUnit (u : UInt16) : Text :=
  if 0xD800 ≤ u.toNat ∧ u.toNat < 0xE000 then '\\' :: 'u' :: Hex.fixed 4 u.toNat
  else printChar (Char.ofNat u.toNat)

/-- The text of a string between its quotes. -/
def quoteUnits : Units → Text
  | [] => []
  | [u] => quoteUnit u
  | u :: w :: units =>
    if 0xD800 ≤ u.toNat ∧ u.toNat < 0xDC00 ∧ 0xDC00 ≤ w.toNat ∧ w.toNat < 0xE000 then
      Char.ofNat (0x10000 + (u.toNat - 0xD800) * 0x400 + (w.toNat - 0xDC00)) :: quoteUnits units
    else quoteUnit u ++ quoteUnits (w :: units)

/-- `JSON.stringify` of a string. -/
def quote (s : Units) : Text := '"' :: (quoteUnits s ++ ['"'])

theorem parseUnits_code {n : ℕ} (h : n < 0x10000) (t : Text) :
    parseUnits ('\\' :: 'u' :: (Hex.fixed 4 n ++ t)) =
      (parseUnits t).map fun p => (n :: p.1, p.2) := by
  obtain ⟨a, b, d, e, hfixed⟩ : ∃ a b d e, Hex.fixed 4 n = [a, b, d, e] := ⟨_, _, _, _, rfl⟩
  have hdigits : Hex.Digits [a, b, d, e] := hfixed ▸ Hex.digits_fixed 4 n
  have hvalue : Hex.value [a, b, d, e] = n :=
    hfixed ▸ Hex.value_fixed_of_lt (show n < 16 ^ 4 by omega)
  rw [hfixed]
  simp only [List.cons_append, List.nil_append]
  rw [parseUnits, if_pos hdigits, hvalue]

theorem toNat_charOfNat {n : ℕ} (h : n < 0xD800 ∨ 0xDFFF < n ∧ n < 0x110000) :
    (Char.ofNat n).toNat = n := by
  have hvalid : n.isValidChar := h
  unfold Char.ofNat
  rw [dif_pos hvalid]
  exact UInt32.toNat_ofNatLT

theorem parseUnits_quoteUnit (u : UInt16) (t : Text) : parseUnits (quoteUnit u ++ t) =
    (parseUnits t).map fun p => (u.toNat :: p.1, p.2) := by
  have hlt := u.toNat_lt
  unfold quoteUnit
  split_ifs with h
  · exact parseUnits_code hlt t
  · have hnat := toNat_charOfNat (show u.toNat < 0xD800 ∨ 0xDFFF < u.toNat ∧ u.toNat < 0x110000 by
      omega)
    have hunits : utf16 (Char.ofNat u.toNat) = [u.toNat] := by
      unfold utf16
      rw [hnat, if_pos hlt]
    rw [parseUnits_printChar, hunits]
    rfl

/-- **The units of a string are read back.** -/
theorem parseUnits_quoteUnits (r : Text) : ∀ s : Units,
    parseUnits (quoteUnits s ++ '"' :: r) = some (s.map UInt16.toNat, r)
  | [] => rfl
  | [u] => by
    rw [quoteUnits, parseUnits_quoteUnit]
    rfl
  | u :: w :: units => by
    rw [quoteUnits]
    split_ifs with hpair
    · have hnat := toNat_charOfNat (show
        0x10000 + (u.toNat - 0xD800) * 0x400 + (w.toNat - 0xDC00) < 0xD800 ∨
          0xDFFF < 0x10000 + (u.toNat - 0xD800) * 0x400 + (w.toNat - 0xDC00) ∧
          0x10000 + (u.toNat - 0xD800) * 0x400 + (w.toNat - 0xDC00) < 0x110000 by omega)
      generalize Char.ofNat (0x10000 + (u.toNat - 0xD800) * 0x400 + (w.toNat - 0xDC00)) = c at *
      have hne : ∀ d : Char, d.toNat < 0x10000 → c ≠ d := by
        rintro d hd rfl
        omega
      have hunits : utf16 c = [u.toNat, w.toNat] := by
        have hhigh : 0xD800 + (c.toNat - 0x10000) / 0x400 = u.toNat := by omega
        have hlow : 0xDC00 + (c.toNat - 0x10000) % 0x400 = w.toNat := by omega
        unfold utf16
        rw [if_neg (by omega), hhigh, hlow]
      rw [List.cons_append, parseUnits_plain (hne '"' (by decide)) (hne '\\' (by decide)) (by omega),
        parseUnits_quoteUnits r units, hunits]
      rfl
    · rw [List.append_assoc, parseUnits_quoteUnit, parseUnits_quoteUnits r (w :: units)]
      rfl

/-! ### Printing -/

/-- `JSON.stringify` of a number. -/
def printNumber : JsNumber → Text
  | .finite x => NumberText.print x.value
  | _ => "null".toList

/-- A member, up to its value. -/
def member (name : Units) (text : Text) : Text := quote name ++ ':' :: text

/-- **`JSON.stringify`** of a value, with the members of objects in their order. -/
def print : Value → Text
  | .null => "null".toList
  | .bool b => if b then "true".toList else "false".toList
  | .number x => printNumber x
  | .string s => quote s
  | .array items => '[' :: (commaSeparated (items.map print) ++ [']'])
  | .object members =>
    '\x7b' :: (commaSeparated (members.map fun m => member m.1 (print m.2)) ++ ['\x7d'])
termination_by v => sizeOf v
decreasing_by
  · exact sizeOf_item ‹_›
  · exact sizeOf_member ‹_›

def printMember (m : Units × Value) : Text := member m.1 (print m.2)

theorem print_object (members : List (Units × Value)) : print (.object members) =
    '\x7b' :: (commaSeparated (members.map printMember) ++ ['\x7d']) := by
  rw [print]
  rfl

/-! ### Reading -/

/-- The number that was read. What is read is rounded. -/
def ofNumber : Binary64.Number → JsNumber
  | .finite q => if h : Binary64.round q = .finite q then .finite ⟨q, h⟩ else .nan
  | .infinite negative => .infinite negative

/-- A member is added, or its value is replaced. -/
def setMember (members : List (Units × Value)) (m : Units × Value) : List (Units × Value) :=
  if m.1 ∈ members.map (·.1) then members.map fun n => if n.1 = m.1 then m else n
  else members ++ [m]

/-- A value that is no string, no array and no object. -/
def parseScalar (t : Text) : Option (Value × Text) :=
  if "null".toList.isPrefixOf t then some (.null, t.drop 4)
  else if "true".toList.isPrefixOf t then some (.bool true, t.drop 4)
  else if "false".toList.isPrefixOf t then some (.bool false, t.drop 5)
  else match parseNumber t with
    | some (.number x, t) => some (.number (ofNumber x), t)
    | _ => none

mutual

/-- A value and what stands behind it; the fuel bounds the depth and the number of members. -/
def parseValue : ℕ → Text → Option (Value × Text)
  | 0, _ => none
  | fuel + 1, t =>
    match skip t with
    | '"' :: t => do
      let (units, t) ← parseUnits t
      return (.string (units.map UInt16.ofNat), t)
    | '[' :: t =>
      match token [']'] t with
      | some t => some (.array [], t)
      | none => do
        let (items, t) ← parseItems fuel t
        return (.array items, t)
    | '\x7b' :: t =>
      match token ['\x7d'] t with
      | some t => some (.object [], t)
      | none => do
        let (members, t) ← parseMembers fuel t
        return (.object (members.foldl setMember []), t)
    | t => parseScalar t

/-- One or more items, up to the closing bracket. -/
def parseItems : ℕ → Text → Option (List Value × Text)
  | 0, _ => none
  | fuel + 1, t => do
    let (item, t) ← parseValue fuel t
    match token [','] t with
    | some t => do
      let (items, t) ← parseItems fuel t
      return (item :: items, t)
    | none => do
      let t ← token [']'] t
      return ([item], t)

/-- One or more members, up to the closing brace. -/
def parseMembers : ℕ → Text → Option (List (Units × Value) × Text)
  | 0, _ => none
  | fuel + 1, t => do
    let t ← token ['"'] t
    let (units, t) ← parseUnits t
    let t ← token [':'] t
    let (value, t) ← parseValue fuel t
    match token [','] t with
    | some t => do
      let (members, t) ← parseMembers fuel t
      return ((units.map UInt16.ofNat, value) :: members, t)
    | none => do
      let t ← token ['\x7d'] t
      return ([(units.map UInt16.ofNat, value)], t)

end

/-- **`JSON.parse(text)`**. -/
def parse (t : Text) : Option Value :=
  match parseValue (t.length + 1) t with
  | some (value, t) => if skip t = [] then some value else none
  | none => none

/-! ### Values are read back -/

theorem ne_of_leads {c d : Char} (hc : Leads c) (hd : d.isDigit = false) (hne : d ≠ '-') : c ≠ d := by
  rintro rfl
  rcases hc with hc | rfl
  · rw [hd] at hc
    exact Bool.false_ne_true hc
  · exact hne rfl

theorem isSpace_of_leads {c : Char} (hc : Leads c) : isSpace c = false := by
  simp only [Json.isSpace, Bool.or_eq_false_iff, decide_eq_false_iff_not]
  exact ⟨⟨⟨ne_of_leads hc (by decide) (by decide), ne_of_leads hc (by decide) (by decide)⟩,
    ne_of_leads hc (by decide) (by decide)⟩, ne_of_leads hc (by decide) (by decide)⟩

theorem not_isPrefixOf {c d : Char} (h : d ≠ c) (t u : Text) :
    (d :: u).isPrefixOf (c :: t) = false := by
  rw [List.isPrefixOf_cons_cons, beq_eq_false_iff_ne.mpr h, Bool.false_and]

/-- A number is read as what `parseNumber` makes of it. -/
theorem parseScalar_number {c : Char} (hc : Leads c) {t r : Text} {x : Binary64.Number}
    (h : parseNumber (c :: t) = some (.number x, r)) :
    parseScalar (c :: t) = some (.number (ofNumber x), r) := by
  have hn : 'n' ≠ c := (ne_of_leads hc (by decide) (by decide)).symm
  have ht : 't' ≠ c := (ne_of_leads hc (by decide) (by decide)).symm
  have hf : 'f' ≠ c := (ne_of_leads hc (by decide) (by decide)).symm
  have hnull : "null".toList.isPrefixOf (c :: t) = false := not_isPrefixOf hn t _
  have htrue : "true".toList.isPrefixOf (c :: t) = false := not_isPrefixOf ht t _
  have hfalse : "false".toList.isPrefixOf (c :: t) = false := not_isPrefixOf hf t _
  unfold parseScalar
  rw [hnull, htrue, hfalse, h]
  rfl

theorem parseValue_leads {c : Char} (hc : Leads c) (fuel : ℕ) (t : Text) :
    parseValue (fuel + 1) (c :: t) = parseScalar (c :: t) := by
  rw [parseValue, skip_cons (isSpace_of_leads hc)]
  split
  · exact absurd (List.cons.inj ‹_›).1 (ne_of_leads hc (by decide) (by decide))
  · exact absurd (List.cons.inj ‹_›).1 (ne_of_leads hc (by decide) (by decide))
  · exact absurd (List.cons.inj ‹_›).1 (ne_of_leads hc (by decide) (by decide))
  · rfl

theorem exists_cons_printValue {v : Value} (h : v.Finite) :
    ∃ c t, print v = c :: t ∧ isSpace c = false ∧ ']' ≠ c := by
  cases h with
  | null => exact ⟨'n', _, by rw [print]; rfl, by decide, by decide⟩
  | bool b => cases b <;> exact ⟨_, _, by rw [print]; rfl, by decide, by decide⟩
  | number x =>
    obtain ⟨c, t, hprint, hc⟩ := NumberText.exists_cons_print x.isDouble
    exact ⟨c, t, by rw [print, printNumber, hprint], isSpace_of_leads hc,
      (ne_of_leads hc (by decide) (by decide)).symm⟩
  | string s => exact ⟨'"', _, by rw [print, quote], by decide, by decide⟩
  | array h => exact ⟨'[', _, by rw [print], by decide, by decide⟩
  | object h => exact ⟨'\x7b', _, by rw [print], by decide, by decide⟩

/-- The value is read back from its text. -/
def Reads (v : Value) : Prop := ∀ {fuel : ℕ} {r : Text}, Stops r → (print v).length ≤ fuel →
  parseValue fuel (print v ++ r) = some (v, r)

theorem stops_mark {c : Char} (h : c = ',' ∨ c = '\x7d' ∨ c = ']') (r : Text) : Stops (c :: r) :=
  (follows_cons h r).stops

/-- The items up to the closing bracket, by induction on them. -/
theorem parseItems_print : ∀ {items : List Value} {fuel : ℕ} (r : Text), items ≠ [] →
    (∀ v ∈ items, Reads v) → (commaSeparated (items.map print)).length < fuel →
    parseItems fuel (commaSeparated (items.map print) ++ ']' :: r) = some (items, r)
  | [], _, _, h, _, _ => absurd rfl h
  | _ :: _, 0, _, _, _, h => absurd h (Nat.not_lt_zero _)
  | [v], fuel + 1, r, _, h, hfuel => by
    simp only [List.map_cons, List.map_nil, commaSeparated] at hfuel ⊢
    have hv := h v List.mem_cons_self (stops_mark (Or.inr (Or.inr rfl)) r) (Nat.le_of_lt_succ hfuel)
    have hcomma : token [','] (']' :: r) = none := token_ne (by decide) (by decide) r
    have hclose : token [']'] (']' :: r) = some r := token_self (by decide) r
    simp only [parseItems, hv, Option.bind_eq_bind, Option.bind_some, hcomma, hclose]
    rfl
  | v :: w :: items, fuel + 1, r, _, h, hfuel => by
    rw [List.map_cons, List.map_cons, commaSeparated, ← List.map_cons] at hfuel ⊢
    rw [List.length_append, List.length_cons] at hfuel
    have hv := h v List.mem_cons_self (stops_mark (c := ',') (Or.inl rfl)
      (commaSeparated ((w :: items).map print) ++ ']' :: r)) (show _ ≤ fuel by omega)
    have hcomma := token_self (c := ',') (by decide)
      (commaSeparated ((w :: items).map print) ++ ']' :: r)
    have hrest := @parseItems_print (w :: items) fuel r (List.cons_ne_nil _ _)
      (fun u hu => h u (List.mem_cons_of_mem _ hu)) (by omega)
    rw [List.append_assoc, List.cons_append, parseItems, hv, Option.bind_eq_bind, Option.bind_some]
    dsimp only
    rw [hcomma]
    dsimp only
    rw [hrest]
    rfl

/-- A member, up to its value. -/
theorem printMember_append (m : Units × Value) (r : Text) : printMember m ++ r =
    '"' :: (quoteUnits m.1 ++ '"' :: ':' :: (print m.2 ++ r)) := by
  rw [printMember, member, quote]
  simp only [List.append_assoc, List.cons_append, List.nil_append]

theorem length_printMember (m : Units × Value) : (print m.2).length < (printMember m).length := by
  rw [printMember, member, List.length_append, List.length_cons]
  omega

theorem map_ofNat_toNat (s : Units) : (s.map UInt16.toNat).map UInt16.ofNat = s := by
  rw [List.map_map]
  exact (List.map_congr_left fun u _ => UInt16.ofNat_toNat).trans (List.map_id s)

/-- The members up to the closing brace, by induction on them. -/
theorem parseMembers_print : ∀ {members : List (Units × Value)} {fuel : ℕ} (r : Text),
    members ≠ [] → (∀ m ∈ members, Reads m.2) →
    (commaSeparated (members.map printMember)).length < fuel →
    parseMembers fuel (commaSeparated (members.map printMember) ++ '\x7d' :: r) =
      some (members, r)
  | [], _, _, h, _, _ => absurd rfl h
  | _ :: _, 0, _, _, _, h => absurd h (Nat.not_lt_zero _)
  | [m], fuel + 1, r, _, h, hfuel => by
    simp only [List.map_cons, List.map_nil, commaSeparated] at hfuel ⊢
    have hlength := length_printMember m
    have hm := h m List.mem_cons_self (stops_mark (Or.inr (Or.inl rfl)) r)
      (show _ ≤ fuel by omega)
    have hcomma : token [','] ('\x7d' :: r) = none := token_ne (by decide) (by decide) r
    have hclose : token ['\x7d'] ('\x7d' :: r) = some r := token_self (by decide) r
    have hcolon := token_self (c := ':') (by decide) (print m.2 ++ '\x7d' :: r)
    rw [printMember_append, parseMembers, token_self (by decide)]
    simp only [Option.bind_eq_bind, Option.bind_some, parseUnits_quoteUnits, map_ofNat_toNat,
      hcolon, hm, hcomma, hclose]
    rfl
  | m :: n :: members, fuel + 1, r, _, h, hfuel => by
    rw [List.map_cons, List.map_cons, commaSeparated, ← List.map_cons] at hfuel ⊢
    rw [List.length_append, List.length_cons] at hfuel
    have hlength := length_printMember m
    have hm := h m List.mem_cons_self (stops_mark (c := ',') (Or.inl rfl)
      (commaSeparated ((n :: members).map printMember) ++ '\x7d' :: r)) (show _ ≤ fuel by omega)
    have hcomma := token_self (c := ',') (by decide)
      (commaSeparated ((n :: members).map printMember) ++ '\x7d' :: r)
    have hcolon := token_self (c := ':') (by decide) (print m.2 ++
      ',' :: (commaSeparated ((n :: members).map printMember) ++ '\x7d' :: r))
    have hrest := @parseMembers_print (n :: members) fuel r (List.cons_ne_nil _ _)
      (fun u hu => h u (List.mem_cons_of_mem _ hu)) (by omega)
    rw [List.append_assoc, List.cons_append, printMember_append, parseMembers, token_self (by decide)]
    simp only [Option.bind_eq_bind, Option.bind_some, parseUnits_quoteUnits, map_ofNat_toNat,
      hcolon, hm, hcomma, hrest]
    rfl

/-- Members of different names are added one behind the other. -/
theorem foldl_setMember : ∀ {members before : List (Units × Value)},
    ((before ++ members).map (·.1)).Nodup → members.foldl setMember before = before ++ members
  | [], before, _ => (List.append_nil before).symm
  | m :: members, before, h => by
    have hnew : m.1 ∉ before.map (·.1) := by
      rw [List.map_append, List.map_cons] at h
      exact fun hmem => (List.nodup_append.mp h).2.2 m.1 hmem m.1 List.mem_cons_self rfl
    have hset : setMember before m = before ++ [m] := if_neg hnew
    rw [List.foldl_cons, hset, foldl_setMember, List.append_assoc, List.singleton_append]
    rwa [List.append_assoc, List.singleton_append]

theorem parseValue_quote (fuel : ℕ) (s : Units) (r : Text) :
    parseValue (fuel + 1) ('"' :: (quoteUnits s ++ '"' :: r)) = some (.string s, r) := by
  have hbranch : parseValue (fuel + 1) ('"' :: (quoteUnits s ++ '"' :: r)) =
      (parseUnits (quoteUnits s ++ '"' :: r)).bind fun p =>
        some (.string (p.1.map UInt16.ofNat), p.2) := by
    rw [parseValue, skip_cons (by decide)]
    rfl
  rw [hbranch, parseUnits_quoteUnits, Option.bind_some, map_ofNat_toNat]

theorem parseValue_bracket {fuel : ℕ} {t r : Text} {items : List Value}
    (hclose : token [']'] t = none) (h : parseItems fuel t = some (items, r)) :
    parseValue (fuel + 1) ('[' :: t) = some (.array items, r) := by
  have hbranch : parseValue (fuel + 1) ('[' :: t) = match token [']'] t with
      | some t => some (.array [], t)
      | none => (parseItems fuel t).bind fun p => some (.array p.1, p.2) := by
    rw [parseValue, skip_cons (by decide)]
    rfl
  rw [hbranch, hclose, h]
  rfl

theorem parseValue_brace {fuel : ℕ} {t r : Text} {members : List (Units × Value)}
    (hclose : token ['\x7d'] t = none) (h : parseMembers fuel t = some (members, r)) :
    parseValue (fuel + 1) ('\x7b' :: t) = some (.object (members.foldl setMember []), r) := by
  have hbranch : parseValue (fuel + 1) ('\x7b' :: t) = match token ['\x7d'] t with
      | some t => some (.object [], t)
      | none => (parseMembers fuel t).bind fun p =>
          some (.object (p.1.foldl setMember []), p.2) := by
    rw [parseValue, skip_cons (by decide)]
    rfl
  rw [hbranch, hclose, h]
  rfl

/-- There is fuel for the text of a value, which is not empty. -/
theorem reads_of_succ {v : Value} (hfinite : v.Finite) (h : ∀ {fuel : ℕ} {r : Text}, Stops r →
    (print v).length ≤ fuel + 1 → parseValue (fuel + 1) (print v ++ r) = some (v, r)) : Reads v := by
  intro fuel r hr hfuel
  obtain ⟨c, t, hcons, -⟩ := exists_cons_printValue hfinite
  have hpos : 0 < (print v).length := by
    rw [hcons]
    exact Nat.succ_pos _
  obtain ⟨fuel, rfl⟩ : ∃ n, fuel = n + 1 := ⟨fuel - 1, by omega⟩
  exact h hr hfuel

/-- **A value is read back from its text**, by induction on its depth. -/
theorem reads {v : Value} (hfinite : v.Finite) (hdistinct : v.Distinct) : Reads v := by
  induction v using Value.induction with
  | null =>
    refine reads_of_succ hfinite fun {fuel r} _ _ => ?_
    rw [print, parseValue]
    rfl
  | bool b =>
    refine reads_of_succ hfinite fun {fuel r} _ _ => ?_
    rw [print, parseValue]
    cases b <;> rfl
  | number x =>
    refine reads_of_succ hfinite fun {fuel r} hr _ => ?_
    cases hfinite with
    | number x =>
      obtain ⟨c, t, hprint, hc⟩ := NumberText.exists_cons_print x.isDouble
      have hnumber := NumberText.parseNumber_print x.isDouble hr
      have hsame : ofNumber (.finite x.value) = .finite x := dif_pos x.isDouble
      rw [hprint, List.cons_append] at hnumber
      rw [print, printNumber, hprint, List.cons_append, parseValue_leads hc,
        parseScalar_number hc hnumber, hsame]
  | string s =>
    refine reads_of_succ hfinite fun {fuel r} _ _ => ?_
    rw [print, quote, List.cons_append, List.append_assoc, List.singleton_append]
    exact parseValue_quote fuel s r
  | array items ih =>
    refine reads_of_succ hfinite fun {fuel r} _ hfuel => ?_
    cases hfinite with | array hfinite =>
    cases hdistinct with | array hdistinct =>
    rw [print, List.cons_append, List.append_assoc, List.singleton_append]
    rw [print, List.length_cons, List.length_append, List.length_singleton] at hfuel
    cases items with
    | nil =>
      rw [parseValue]
      rfl
    | cons v items =>
      have hitems := parseItems_print r (List.cons_ne_nil v items)
        (fun w hw => ih w hw (hfinite w hw) (hdistinct w hw)) (show _ < fuel by omega)
      refine parseValue_bracket ?_ hitems
      obtain ⟨c, t, hcons, hspace, hne⟩ := exists_cons_printValue (hfinite v List.mem_cons_self)
      obtain ⟨s, hs⟩ := commaSeparated_cons (print v) (items.map print)
      rw [List.map_cons, hs, hcons, List.cons_append, List.cons_append]
      exact token_ne hspace hne _
  | object members ih =>
    refine reads_of_succ hfinite fun {fuel r} _ hfuel => ?_
    cases hfinite with | object hfinite =>
    cases hdistinct with | object hnames hdistinct =>
    rw [print_object, List.cons_append, List.append_assoc, List.singleton_append]
    rw [print_object, List.length_cons, List.length_append, List.length_singleton] at hfuel
    cases members with
    | nil =>
      rw [parseValue]
      rfl
    | cons m members =>
      have hmembers := parseMembers_print r (List.cons_ne_nil m members)
        (fun n hn => ih n hn (hfinite n hn) (hdistinct n hn)) (show _ < fuel by omega)
      have hclose : token ['\x7d'] (commaSeparated ((m :: members).map printMember) ++
          '\x7d' :: r) = none := by
        obtain ⟨s, hs⟩ := commaSeparated_cons (printMember m) (members.map printMember)
        rw [List.map_cons, hs, List.append_assoc, printMember_append]
        exact token_ne (by decide) (by decide) _
      have hobject : (m :: members).foldl setMember [] = m :: members :=
        @foldl_setMember (m :: members) [] hnames
      rw [parseValue_brace hclose hmembers, hobject]

/-- **JSON**: a value is read back from its text. -/
theorem parse_print {v : Value} (hfinite : v.Finite) (hdistinct : v.Distinct) :
    parse (print v) = some v := by
  have hread := reads hfinite hdistinct (r := []) (fun _ h => nomatch h)
    (Nat.le_succ (print v).length)
  rw [List.append_nil] at hread
  rw [parse, hread]
  rfl

end Nullark.Js.JsonValues
