import Nullark.Lib.Json

/-! # Nested JSON texts

Printing values of any depth, with and without indentation. The numbers of a value that is printed
are natural.

* `parse_print`: what was printed is read back. -/

namespace Nullark.Lib.Stringify

open Nullark.Lib Nullark.Lib.Json
open Nullark.Lib.Hex (Text)

/-- **A value that is printed.** -/
inductive Doc
  | null
  | bool (b : Bool)
  | number (n : ℕ)
  | string (t : Text)
  | array (items : List Doc)
  | object (members : List (Text × Doc))

/-! ### Printing -/

/-- A new line at a depth; without a gap everything stands in one line. -/
def newline (gap depth : ℕ) : Text :=
  if gap = 0 then [] else '\n' :: List.replicate (gap * depth) ' '

def colon (gap : ℕ) : Text := if gap = 0 then [':'] else [':', ' ']

def printBool (b : Bool) : Text := if b then "true".toList else "false".toList

def printNull : Text := "null".toList

mutual

/-- **`JSON.stringify(value, null, gap)`**, at a depth. -/
def print (gap depth : ℕ) : Doc → Text
  | .null => printNull
  | .bool b => printBool b
  | .number n => Decimal.ofNat n
  | .string t => printString t
  | .array [] => ['[', ']']
  | .array (d :: ds) => '[' :: (newline gap (depth + 1) ++ (print gap (depth + 1) d ++
      (printItems gap (depth + 1) ds ++ (newline gap depth ++ [']']))))
  | .object [] => ['\x7b', '\x7d']
  | .object (m :: ms) => '\x7b' :: (newline gap (depth + 1) ++ (printMember gap (depth + 1) m ++
      (printMembers gap (depth + 1) ms ++ (newline gap depth ++ ['\x7d']))))

/-- Items behind the first one. -/
def printItems (gap depth : ℕ) : List Doc → Text
  | [] => []
  | d :: ds => ',' :: (newline gap depth ++ (print gap depth d ++ printItems gap depth ds))

def printMember (gap depth : ℕ) : Text × Doc → Text
  | (name, d) => printString name ++ (colon gap ++ print gap depth d)

/-- Members behind the first one. -/
def printMembers (gap depth : ℕ) : List (Text × Doc) → Text
  | [] => []
  | m :: ms =>
    ',' :: (newline gap depth ++ (printMember gap depth m ++ printMembers gap depth ms))

end

mutual

/-- The value that is read back. -/
def Doc.value : Doc → Value
  | .null => .null
  | .bool b => .bool b
  | .number n => .number (.finite n)
  | .string t => .string t
  | .array ds => .array (valueItems ds)
  | .object ms => .object (valueMembers ms)

def valueItems : List Doc → List Value
  | [] => []
  | d :: ds => d.value :: valueItems ds

def valueMember : Text × Doc → Text × Value
  | (name, d) => (name, d.value)

def valueMembers : List (Text × Doc) → List (Text × Value)
  | [] => []
  | m :: ms => valueMember m :: valueMembers ms

end

mutual

/-- The numbers that are printed are exact. -/
def Doc.Exact : Doc → Prop
  | .number n => n < 2 ^ 53
  | .array ds => ExactItems ds
  | .object ms => ExactMembers ms
  | _ => True

def ExactItems : List Doc → Prop
  | [] => True
  | d :: ds => d.Exact ∧ ExactItems ds

def ExactMember : Text × Doc → Prop
  | (_, d) => d.Exact

def ExactMembers : List (Text × Doc) → Prop
  | [] => True
  | m :: ms => ExactMember m ∧ ExactMembers ms

end

mutual

/-- The fuel that reading takes. -/
def Doc.size : Doc → ℕ
  | .array ds => 1 + sizeItems ds
  | .object ms => 1 + sizeMembers ms
  | _ => 1

def sizeItems : List Doc → ℕ
  | [] => 0
  | d :: ds => 1 + d.size + sizeItems ds

def sizeMember : Text × Doc → ℕ
  | (_, d) => d.size

def sizeMembers : List (Text × Doc) → ℕ
  | [] => 0
  | m :: ms => 1 + sizeMember m + sizeMembers ms

end

/-! ### White space -/

def Blank (ws : Text) : Prop := ∀ c ∈ ws, isSpace c = true

theorem blank_newline (gap depth : ℕ) : Blank (newline gap depth) := by
  unfold newline
  split_ifs
  · exact fun _ h => absurd h List.not_mem_nil
  · intro c hc
    rcases List.mem_cons.mp hc with rfl | hc
    · decide
    · rw [(List.mem_replicate.mp hc).2]
      decide

theorem exists_blank_colon (gap : ℕ) : ∃ ws, Blank ws ∧ colon gap = ':' :: ws := by
  unfold colon
  split_ifs
  · exact ⟨[], fun _ h => absurd h List.not_mem_nil, rfl⟩
  · refine ⟨[' '], fun c hc => ?_, rfl⟩
    rw [List.mem_singleton.mp hc]
    decide

section White
variable {ws : Text} (h : Blank ws) (t : Text)
include h

theorem skip_blank : skip (ws ++ t) = skip t := List.dropWhile_append_of_pos h

theorem token_blank (expected : Text) : token expected (ws ++ t) = token expected t := by
  rw [token, skip_blank h, token]

theorem parseValue_blank (fuel : ℕ) : parseValue fuel (ws ++ t) = parseValue fuel t := by
  cases fuel with
  | zero => rfl
  | succ fuel =>
    simp only [parseValue, parseLiteral, parseStringValue, token_blank h, skip_blank h]

theorem stops_blank {c : Char} (hc : c.isDigit = false ∧ c ≠ '.' ∧ c ≠ 'e' ∧ c ≠ 'E') :
    Stops (ws ++ c :: t) := by
  intro d hd
  cases ws with
  | nil => exact Option.some.inj hd ▸ hc
  | cons w ws =>
    have hw := h w List.mem_cons_self
    rw [← Option.some.inj hd]
    simp only [isSpace, Bool.or_eq_true, decide_eq_true_eq] at hw
    rcases hw with ((rfl | rfl) | rfl) | rfl <;> decide

end White

/-! ### What was printed is read back -/

theorem parseValue_printNull (fuel : ℕ) (r : Text) :
    parseValue (fuel + 1) (printNull ++ r) = some (.null, r) := by
  unfold parseValue
  rfl

theorem parseValue_printBool (fuel : ℕ) (b : Bool) (r : Text) :
    parseValue (fuel + 1) (printBool b ++ r) = some (.bool b, r) := by
  unfold parseValue
  cases b <;> rfl

/-- An array, up to its first item. -/
theorem parseValue_bracket {fuel : ℕ} {t r : Text} {items : List Value}
    (hclose : token [']'] t = none) (h : parseItems fuel t = some (items, r)) :
    parseValue (fuel + 1) ('[' :: t) = some (.array items, r) := by
  have hspace : isSpace '[' = false := by decide
  rw [parseValue, parseLiteral_ne rfl hspace (by decide), parseLiteral_ne rfl hspace (by decide),
    parseLiteral_ne rfl hspace (by decide), parseStringValue, token_ne hspace (by decide),
    token_self hspace]
  simp only [Option.bind_eq_bind, Option.bind_some, hclose, h]
  rfl

/-- An object, up to its first member. -/
theorem parseValue_brace {fuel : ℕ} {t r : Text} {members : List (Text × Value)}
    (hclose : token ['\x7d'] t = none) (h : parseMembers fuel t = some (members, r)) :
    parseValue (fuel + 1) ('\x7b' :: t) = some (.object members, r) := by
  have hspace : isSpace '\x7b' = false := by decide
  rw [parseValue, parseLiteral_ne rfl hspace (by decide), parseLiteral_ne rfl hspace (by decide),
    parseLiteral_ne rfl hspace (by decide), parseStringValue, token_ne hspace (by decide),
    token_ne hspace (by decide), token_self hspace]
  simp only [Option.bind_eq_bind, Option.bind_some, hclose, h]
  rfl

/-- What is printed begins with no closing bracket. -/
theorem exists_cons_print (gap depth : ℕ) (d : Doc) :
    ∃ c t, print gap depth d = c :: t ∧ isSpace c = false ∧ ']' ≠ c := by
  cases d with
  | null => exact ⟨'n', _, rfl, by decide, by decide⟩
  | bool b => cases b <;> exact ⟨_, _, rfl, by decide, by decide⟩
  | number n => exact exists_cons_printScalar (.number n)
  | string t => exact exists_cons_printScalar (.string t)
  | array ds => cases ds <;> exact ⟨'[', _, by rw [print], by decide, by decide⟩
  | object ms => cases ms <;> exact ⟨'\x7b', _, by rw [print], by decide, by decide⟩

mutual

/-- **A value is read back**, by recursion on it. -/
theorem parseValue_print (gap : ℕ) : ∀ (d : Doc) (depth : ℕ) {fuel : ℕ} {r : Text}, d.Exact →
    d.size ≤ fuel → Stops r → parseValue fuel (print gap depth d ++ r) = some (d.value, r)
  | d, _, 0, _, _, hfuel, _ => by
    cases d <;> simp only [Doc.size] at hfuel <;> omega
  | .null, depth, fuel + 1, r, _, _, _ => by
    rw [print, Doc.value]
    exact parseValue_printNull fuel r
  | .bool b, depth, fuel + 1, r, _, _, _ => by
    rw [print, Doc.value]
    exact parseValue_printBool fuel b r
  | .number n, depth, fuel + 1, r, hexact, _, hr => by
    rw [print, Doc.value]
    exact parseValue_number fuel hexact hr
  | .string t, depth, fuel + 1, r, _, _, _ => by
    rw [print, Doc.value]
    exact parseValue_string fuel t r
  | .array [], depth, fuel + 1, r, _, _, _ => by
    rw [print, Doc.value]
    unfold parseValue
    rfl
  | .array (d :: ds), depth, fuel + 1, r, hexact, hfuel, _ => by
    simp only [Doc.size, sizeItems] at hfuel
    obtain ⟨fuel, rfl⟩ : ∃ n, fuel = n + 1 := ⟨fuel - 1, by omega⟩
    have hws := blank_newline gap (depth + 1)
    have hd := fun {s} hs =>
      @parseValue_print gap d (depth + 1) fuel s hexact.1 (by omega) hs
    have hitems := parseItems_print gap ds (depth + 1) depth (r := r) hexact.2 (by omega) hws hd
    obtain ⟨c, t, hprint, hc, hne⟩ := exists_cons_print gap (depth + 1) d
    rw [print, Doc.value, valueItems]
    simp only [List.cons_append, List.append_assoc, List.nil_append]
    refine parseValue_bracket ?_ hitems
    rw [token_blank hws, hprint]
    exact token_ne hc hne _
  | .object [], depth, fuel + 1, r, _, _, _ => by
    rw [print, Doc.value]
    unfold parseValue
    rfl
  | .object ((name, d) :: ms), depth, fuel + 1, r, hexact, hfuel, _ => by
    simp only [Doc.size, sizeMembers, sizeMember] at hfuel
    obtain ⟨fuel, rfl⟩ : ∃ n, fuel = n + 1 := ⟨fuel - 1, by omega⟩
    have hws := blank_newline gap (depth + 1)
    have hd := fun {s} hs =>
      @parseValue_print gap d (depth + 1) fuel s hexact.1 (by omega) hs
    have hmembers := parseMembers_print gap ms (depth + 1) depth (r := r) name hexact.2 (by omega)
      hws hd
    rw [print, printMember, Doc.value, valueMembers, valueMember]
    simp only [List.cons_append, List.append_assoc, List.nil_append]
    refine parseValue_brace ?_ hmembers
    rw [token_blank hws, printString]
    exact token_ne (by decide) (by decide) _

/-- The items up to the closing bracket, behind one that is read. -/
theorem parseItems_print (gap : ℕ) : ∀ (ds : List Doc) (depth below : ℕ) {fuel : ℕ}
    {r ws text : Text} {value : Value}, ExactItems ds → sizeItems ds ≤ fuel → Blank ws →
    (∀ {s : Text}, Stops s → parseValue fuel (text ++ s) = some (value, s)) →
    parseItems (fuel + 1) (ws ++ (text ++ (printItems gap depth ds ++
      (newline gap below ++ ']' :: r)))) = some (value :: valueItems ds, r)
  | [], depth, below, fuel, r, ws, text, value, _, _, hws, h => by
    have hbelow := blank_newline gap below
    have hvalue := h (stops_blank hbelow r (by decide : (']').isDigit = false ∧ _))
    have hcomma : token [','] (newline gap below ++ ']' :: r) = none := by
      rw [token_blank hbelow]
      exact token_ne (by decide) (by decide) r
    have hclose : token [']'] (newline gap below ++ ']' :: r) = some r := by
      rw [token_blank hbelow]
      exact token_self (by decide) r
    rw [printItems, List.nil_append, parseItems, parseValue_blank hws, hvalue]
    simp only [Option.bind_eq_bind, Option.bind_some, hcomma, hclose]
    rfl
  | d :: ds, depth, below, fuel, r, ws, text, value, hexact, hfuel, hws, h => by
    rw [sizeItems] at hfuel
    obtain ⟨fuel, rfl⟩ : ∃ n, fuel = n + 1 := ⟨fuel - 1, by omega⟩
    have hnew := blank_newline gap depth
    have hd := fun {s} hs => @parseValue_print gap d depth fuel s hexact.1 (by omega) hs
    have hrest := parseItems_print gap ds depth below (r := r) hexact.2 (by omega) hnew hd
    have hvalue := h (@stops_blank [] (fun _ hc => absurd hc List.not_mem_nil)
      (newline gap depth ++ (print gap depth d ++ (printItems gap depth ds ++
        (newline gap below ++ ']' :: r)))) ',' (by decide))
    rw [printItems, parseItems, parseValue_blank hws]
    simp only [List.cons_append, List.append_assoc, List.nil_append] at hvalue ⊢
    rw [hvalue]
    simp only [Option.bind_eq_bind, Option.bind_some, token_self (c := ',') (by decide), hrest]
    rfl

/-- The members up to the closing brace, behind one whose value is read. -/
theorem parseMembers_print (gap : ℕ) : ∀ (ms : List (Text × Doc)) (depth below : ℕ) {fuel : ℕ}
    {r ws text : Text} {value : Value} (name : Text), ExactMembers ms → sizeMembers ms ≤ fuel →
    Blank ws → (∀ {s : Text}, Stops s → parseValue fuel (text ++ s) = some (value, s)) →
    parseMembers (fuel + 1) (ws ++ (printString name ++ (colon gap ++ (text ++
      (printMembers gap depth ms ++ (newline gap below ++ '\x7d' :: r)))))) =
        some ((name, value) :: valueMembers ms, r)
  | [], depth, below, fuel, r, ws, text, value, name, _, _, hws, h => by
    have hbelow := blank_newline gap below
    obtain ⟨ws', hws', hcolon⟩ := exists_blank_colon gap
    have hvalue := h (stops_blank hbelow r (by decide : ('\x7d').isDigit = false ∧ _))
    have hcomma : token [','] (newline gap below ++ '\x7d' :: r) = none := by
      rw [token_blank hbelow]
      exact token_ne (by decide) (by decide) r
    have hclose : token ['\x7d'] (newline gap below ++ '\x7d' :: r) = some r := by
      rw [token_blank hbelow]
      exact token_self (by decide) r
    rw [printMembers, List.nil_append, parseMembers, token_blank hws, printString, hcolon]
    simp only [List.cons_append, List.append_assoc, List.nil_append, token_self (c := '"') (by decide),
      Option.bind_eq_bind, Option.bind_some, parseString_printString,
      token_self (c := ':') (by decide), parseValue_blank hws', hvalue, hcomma, hclose]
    rfl
  | (next, d) :: ms, depth, below, fuel, r, ws, text, value, name, hexact, hfuel, hws, h => by
    rw [sizeMembers, sizeMember] at hfuel
    obtain ⟨fuel, rfl⟩ : ∃ n, fuel = n + 1 := ⟨fuel - 1, by omega⟩
    obtain ⟨ws', hws', hcolon⟩ := exists_blank_colon gap
    have hnew := blank_newline gap depth
    have hd := fun {s} hs => @parseValue_print gap d depth fuel s hexact.1 (by omega) hs
    have hrest := parseMembers_print gap ms depth below (r := r) next hexact.2 (by omega) hnew hd
    have hvalue := h (@stops_blank [] (fun _ hc => absurd hc List.not_mem_nil)
      (newline gap depth ++ (printString next ++ (colon gap ++ (print gap depth d ++
        (printMembers gap depth ms ++ (newline gap below ++ '\x7d' :: r))))))
      ',' (by decide))
    rw [printMembers, printMember, parseMembers, token_blank hws, printString]
    rw [hcolon] at hvalue hrest ⊢
    simp only [List.cons_append, List.append_assoc, List.nil_append] at hvalue hrest ⊢
    simp only [token_self (c := '"') (by decide), Option.bind_eq_bind, Option.bind_some,
      parseString_printString, token_self (c := ':') (by decide), parseValue_blank hws', hvalue,
      token_self (c := ',') (by decide), hrest]
    rfl

end

mutual

/-- There is a character for each unit of the size. -/
theorem size_le_length_print (gap : ℕ) : ∀ (d : Doc) (depth : ℕ),
    d.size ≤ (print gap depth d).length
  | .null, _ => by rw [print]; decide
  | .bool b, _ => by rw [print]; cases b <;> decide
  | .number n, _ => by
    rw [print]
    exact List.length_pos_of_ne_nil (Decimal.ofNat_ne_nil n)
  | .string t, _ => by
    rw [print, printString]
    simp only [Doc.size, List.cons_append, List.length_cons]
    omega
  | .array [], _ => by rw [print]; decide
  | .array (d :: ds), depth => by
    have hd := size_le_length_print gap d (depth + 1)
    have hds := sizeItems_le gap ds (depth + 1)
    rw [print, Doc.size, sizeItems]
    simp only [List.length_cons, List.length_append, List.length_nil]
    omega
  | .object [], _ => by rw [print]; decide
  | .object ((name, d) :: ms), depth => by
    have hd := size_le_length_print gap d (depth + 1)
    have hms := sizeMembers_le gap ms (depth + 1)
    rw [print, printMember, Doc.size, sizeMembers, sizeMember]
    simp only [List.length_cons, List.length_append, List.length_nil]
    omega

theorem sizeItems_le (gap : ℕ) : ∀ (ds : List Doc) (depth : ℕ),
    sizeItems ds ≤ (printItems gap depth ds).length
  | [], _ => Nat.zero_le _
  | d :: ds, depth => by
    have hd := size_le_length_print gap d depth
    have hds := sizeItems_le gap ds depth
    rw [printItems, sizeItems]
    simp only [List.length_cons, List.length_append]
    omega

theorem sizeMembers_le (gap : ℕ) : ∀ (ms : List (Text × Doc)) (depth : ℕ),
    sizeMembers ms ≤ (printMembers gap depth ms).length
  | [], _ => Nat.zero_le _
  | (name, d) :: ms, depth => by
    have hd := size_le_length_print gap d depth
    have hms := sizeMembers_le gap ms depth
    rw [printMembers, printMember, sizeMembers, sizeMember]
    simp only [List.length_cons, List.length_append]
    omega

end

/-- **What was printed is read back.** -/
theorem parse_print {d : Doc} (gap : ℕ) (h : d.Exact) : parse (print gap 0 d) = some d.value := by
  have hsize := size_le_length_print gap d 0
  have hvalue := @parseValue_print gap d 0 ((print gap 0 d).length + 1) [] h (by omega)
    fun _ hc => nomatch hc
  rw [List.append_nil] at hvalue
  rw [parse, hvalue]
  rfl

/-- Values with one text are read back as one. -/
theorem value_eq_of_print_eq {d e : Doc} {gap : ℕ} (hd : d.Exact) (he : e.Exact)
    (h : print gap 0 d = print gap 0 e) : d.value = e.value := by
  have hread := parse_print gap hd
  rw [h, parse_print gap he] at hread
  exact (Option.some.inj hread).symm

/-! ### Objects without a gap -/

theorem commaSeparated_cons_eq (t : Text) : ∀ ts : List Text,
    commaSeparated (t :: ts) = t ++ ts.flatMap (',' :: ·)
  | [] => (List.append_nil t).symm
  | s :: ts => by
    rw [commaSeparated, commaSeparated_cons_eq s ts, List.flatMap_cons, List.cons_append]

theorem printMembers_zero (depth : ℕ) : ∀ ms : List (Text × Doc),
    printMembers 0 depth ms = (ms.map (printMember 0 depth)).flatMap (',' :: ·)
  | [] => rfl
  | m :: ms => by
    rw [printMembers, printMembers_zero depth ms, List.map_cons, List.flatMap_cons]
    rfl

/-- Without a gap the members stand with commas between them. -/
theorem print_object_zero (depth : ℕ) (ms : List (Text × Doc)) : print 0 depth (.object ms) =
    '\x7b' :: commaSeparated (ms.map (printMember 0 (depth + 1))) ++ ['\x7d'] := by
  cases ms with
  | nil => rw [print]; rfl
  | cons m ms =>
    have hnew : ∀ n, newline 0 n = [] := fun _ => rfl
    rw [print, printMembers_zero, hnew, hnew, List.map_cons, commaSeparated_cons_eq]
    simp only [List.nil_append, List.cons_append, List.append_assoc]

/-! ### The members of an object that was printed -/

theorem valueMembers_eq_map : ∀ ms : List (Text × Doc),
    valueMembers ms = ms.map fun m => (m.1, m.2.value)
  | [] => rfl
  | (_, _) :: ms => by rw [valueMembers, valueMember, valueMembers_eq_map ms, List.map_cons]

theorem valueItems_eq_map : ∀ ds : List Doc, valueItems ds = ds.map (·.value)
  | [] => rfl
  | _ :: ds => by rw [valueItems, valueItems_eq_map ds, List.map_cons]

theorem exactMembers_iff : ∀ {ms : List (Text × Doc)},
    ExactMembers ms ↔ ∀ m ∈ ms, m.2.Exact
  | [] => by simp [ExactMembers]
  | (_, _) :: ms => by rw [ExactMembers, ExactMember, exactMembers_iff, List.forall_mem_cons]

theorem exactItems_iff : ∀ {ds : List Doc}, ExactItems ds ↔ ∀ d ∈ ds, d.Exact
  | [] => by simp [ExactItems]
  | _ :: ds => by rw [ExactItems, exactItems_iff, List.forall_mem_cons]

theorem eraseDups_of_nodup : ∀ {names : List Text}, names.Nodup → names.eraseDups = names
  | [], _ => rfl
  | name :: names, h => by
    obtain ⟨hout, hnodup⟩ := List.nodup_cons.mp h
    have hfilter : names.filter (fun b => !b == name) = names := by
      refine List.filter_eq_self.mpr fun b hb => ?_
      have hne : b ≠ name := by
        rintro rfl
        exact hout hb
      simpa using hne
    rw [List.eraseDups_cons, hfilter, eraseDups_of_nodup hnodup]

/-- The keys of an object whose names are distinct and no indices stand as they were printed. -/
theorem keys_of_nodup {members : List (Text × Value)} (hnodup : (members.map (·.1)).Nodup)
    (hindex : ∀ name ∈ members.map (·.1), isIndex name = false) :
    keys members = members.map (·.1) := by
  have hnone : (members.map (·.1)).filter isIndex = [] :=
    List.filter_eq_nil_iff.mpr fun name hname => by rw [hindex name hname]; exact Bool.false_ne_true
  have hall : (members.map (·.1)).filter (fun name => !isIndex name) = members.map (·.1) :=
    List.filter_eq_self.mpr fun name hname => by rw [hindex name hname]; rfl
  unfold keys
  dsimp only
  rw [eraseDups_of_nodup hnodup, hnone, hall, List.mergeSort_nil, List.nil_append]

theorem lookup_eq_none {members : List (Text × Value)} {name : Text}
    (h : name ∉ members.map (·.1)) : lookup members name = none := by
  unfold lookup
  rw [Option.map_eq_none_iff, List.find?_eq_none]
  intro m hm heq
  exact h (List.mem_map.mpr ⟨m, List.mem_reverse.mp hm, of_decide_eq_true heq⟩)

/-! ### Values that are printed and read again -/

mutual

/-- **`JSON.parse(JSON.stringify(value))`**: an infinite number becomes `null`. -/
def reread : Value → Value
  | .number (.infinite _) => .null
  | .array items => .array (rereadItems items)
  | .object members => .object (rereadMembers members)
  | value => value

def rereadItems : List Value → List Value
  | [] => []
  | item :: items => reread item :: rereadItems items

def rereadMember : Text × Value → Text × Value
  | (name, value) => (name, reread value)

def rereadMembers : List (Text × Value) → List (Text × Value)
  | [] => []
  | m :: ms => rereadMember m :: rereadMembers ms

end

mutual

/-- A value that was printed is read again as it is. -/
theorem reread_value : ∀ d : Doc, reread d.value = d.value
  | .null => rfl
  | .bool _ => rfl
  | .number _ => rfl
  | .string _ => rfl
  | .array ds => by rw [Doc.value, reread, rereadItems_value ds]
  | .object ms => by rw [Doc.value, reread, rereadMembers_value ms]

theorem rereadItems_value : ∀ ds : List Doc, rereadItems (valueItems ds) = valueItems ds
  | [] => rfl
  | d :: ds => by rw [valueItems, rereadItems, reread_value d, rereadItems_value ds]

theorem rereadMembers_value : ∀ ms : List (Text × Doc),
    rereadMembers (valueMembers ms) = valueMembers ms
  | [] => rfl
  | (name, d) :: ms => by
    rw [valueMembers, rereadMembers, valueMember, rereadMember, reread_value d,
      rereadMembers_value ms]

end

example : print 2 0 (.object [("a".toList, .array [.number 1, .null])]) =
    "\x7b\n  \"a\": [\n    1,\n    null\n  ]\n\x7d".toList := by decide

end Nullark.Lib.Stringify
