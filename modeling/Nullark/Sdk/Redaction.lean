import Nullark.Core.CanonicalJson

/-! # Redaction

Before a diagnostic is printed, the values of members with a telling name are replaced, at any
depth, unless the name is one of a short list.

* `redactValue_eq`: the function without the tests that are made twice.
* `redact_clean`: what is left of a value.
* `redact_eq_iff`: two values are printed alike exactly when they agree but for what is hidden.
* `redact_idempotent`: what was redacted stays as it is. -/

namespace Nullark.Sdk.Redaction

open Nullark.Lib.Sorting
open Nullark.Js.Doubles Nullark.Js.JsonValues Nullark.Core.CanonicalJson

/-! ### Names -/

def unitsOf (s : String) : Units := s.toList.map fun c => UInt16.ofNat c.toNat

/-- The patterns ignore the case of letters, which is that of the letters of ASCII. -/
def lowerUnit (u : UInt16) : UInt16 := if 0x41 ≤ u ∧ u ≤ 0x5A then u + 0x20 else u

def sensitiveWords : List String :=
  ["seed", "mnemonic", "privatekey", "private_key", "secret", "spendmaterial", "spend_material",
    "witness", "signature", "proof", "zkey", "wasm", "calldata", "data"]

def safeVisibleNames : List String :=
  ["chainId", "pool", "rpcUrl", "relayerEndpoint", "relayerEndpointLabel", "destination",
    "grossAmountWei", "minNetAmountWei", "maxFeeWei", "deadlineEpochSeconds", "privateKeysIncluded",
    "noteSecretsIncluded", "rawProofIncluded", "fullCalldataIncluded"]

/-- `SENSITIVE_KEY_PATTERN.test(key)`: one of the words stands in the name. -/
def isSensitive (key : Units) : Bool :=
  sensitiveWords.any fun word => unitsOf word <:+: key.map lowerUnit

/-- `SAFE_VISIBLE_KEY_PATTERN.test(key)`: the name is one of these. -/
def isSafeVisible (key : Units) : Bool :=
  safeVisibleNames.any fun name => (unitsOf name).map lowerUnit == key.map lowerUnit

/-- **`NULLARK_REDACTED`**. -/
def redacted : Value := .string (unitsOf "[redacted:nullark-private-material]")

/-! ### The code -/

mutual

/-- **`redactNullarkSensitiveValue`**. -/
def redactNullarkSensitiveValue (key : Units) (value : Value) : Value :=
  if isSafeVisible key then value
  else if isSensitive key then redacted
  else redactValue value key
termination_by (sizeOf value, 1)

/-- **`redactValue`**. -/
def redactValue (value : Value) (key : Units) : Value :=
  if isSafeVisible key then value
  else if isSensitive key then redacted
  else
    match value with
    | .array items => .array (items.attach.map fun item => redactValue item.1 key)
    | .object members => .object ((entries members).attach.map fun m =>
        (m.1.1, redactNullarkSensitiveValue m.1.1 m.1.2))
    | .null => .null
    | .bool b => .bool b
    | .number x => .number x
    | .string s => .string s
termination_by (sizeOf value, 0)
decreasing_by
  · exact Prod.Lex.left _ _ (sizeOf_item item.2)
  · exact Prod.Lex.left _ _ (sizeOf_member ((entries_perm members).mem_iff.mp m.2))

end

/-- **`redactNullarkDiagnostics`**. -/
def redactNullarkDiagnostics (value : Value) : Value := redactValue value []

/-! ### The code, with each test made once -/

/-- The name neither hides its value nor shows all of it. -/
structure IsOpen (key : Units) : Prop where
  visible : isSafeVisible key = false
  sensitive : isSensitive key = false

theorem isOpen_nil : IsOpen [] := ⟨by decide, by decide⟩

theorem redactNullarkSensitiveValue_eq (key : Units) (value : Value) :
    redactNullarkSensitiveValue key value = redactValue value key := by
  rw [redactNullarkSensitiveValue.eq_def]
  split_ifs with hvisible hsensitive
  · rw [redactValue.eq_def, if_pos hvisible]
  · rw [redactValue.eq_def, if_neg hvisible, if_pos hsensitive]
  · rfl

theorem redactValue_visible {key : Units} (h : isSafeVisible key = true) (value : Value) :
    redactValue value key = value := by
  rw [redactValue.eq_def, if_pos h]

theorem redactValue_hidden {key : Units} (hvisible : isSafeVisible key = false)
    (hsensitive : isSensitive key = true) (value : Value) : redactValue value key = redacted := by
  rw [redactValue.eq_def, if_neg (Bool.eq_false_iff.mp hvisible), if_pos hsensitive]

/-- What an open name shows of its value. -/
def shown (key : Units) : Value → Value
  | .array items => .array (items.map fun item => redactValue item key)
  | .object members => .object ((entries members).map fun m => (m.1, redactValue m.2 m.1))
  | .null => .null
  | .bool b => .bool b
  | .number x => .number x
  | .string s => .string s

theorem redactValue_eq {key : Units} (h : IsOpen key) (value : Value) :
    redactValue value key = shown key value := by
  rw [redactValue.eq_def, if_neg (Bool.eq_false_iff.mp h.visible),
    if_neg (Bool.eq_false_iff.mp h.sensitive)]
  cases value with
  | array items =>
    refine congrArg Value.array ?_
    rw [List.map_subtype (g := fun item => redactValue item key) fun _ _ => rfl,
      List.unattach_attach]
  | object members =>
    refine congrArg Value.object ?_
    rw [List.map_subtype (g := fun m : Units × Value => (m.1, redactValue m.2 m.1)) fun m _ =>
      congrArg (Prod.mk m.1) (redactNullarkSensitiveValue_eq m.1 m.2), List.unattach_attach]
  | _ => rfl

/-! ### What is left -/

/-- **Every member with a telling name is replaced**, but below the names that are shown. -/
inductive Clean : Value → Prop
  | null : Clean .null
  | bool (b : Bool) : Clean (.bool b)
  | number (x : JsNumber) : Clean (.number x)
  | string (s : Units) : Clean (.string s)
  | array {items : List Value} (h : ∀ v ∈ items, Clean v) : Clean (.array items)
  | object {members : List (Units × Value)}
    (hhidden : ∀ m ∈ members, isSafeVisible m.1 = false → isSensitive m.1 = true → m.2 = redacted)
    (hopen : ∀ m ∈ members, IsOpen m.1 → Clean m.2) : Clean (.object members)

theorem clean_redactValue (value : Value) : ∀ {key : Units}, IsOpen key →
    Clean (redactValue value key) := by
  induction value using Value.induction with
  | null => exact fun h => redactValue_eq h _ ▸ .null
  | bool b => exact fun h => redactValue_eq h _ ▸ .bool b
  | number x => exact fun h => redactValue_eq h _ ▸ .number x
  | string s => exact fun h => redactValue_eq h _ ▸ .string s
  | array items ih =>
    intro key h
    rw [redactValue_eq h]
    exact .array (List.forall_mem_map.mpr fun v hv => ih v hv h)
  | object members ih =>
    intro key h
    rw [redactValue_eq h]
    refine .object (List.forall_mem_map.mpr fun m _ => ?_) (List.forall_mem_map.mpr fun m hm => ?_)
    · exact fun hvisible hsensitive => redactValue_hidden hvisible hsensitive m.2
    · exact ih m ((entries_perm members).mem_iff.mp hm)

/-- **Nothing with a telling name is printed.** -/
theorem redact_clean (value : Value) : Clean (redactNullarkDiagnostics value) :=
  clean_redactValue value isOpen_nil

/-! ### What can be told apart -/

/-- **The values agree but for what is hidden.** Below a name that is shown they are the same. -/
inductive Agree : Value → Value → Prop
  | null : Agree .null .null
  | bool (b : Bool) : Agree (.bool b) (.bool b)
  | number (x : JsNumber) : Agree (.number x) (.number x)
  | string (s : Units) : Agree (.string s) (.string s)
  | array {xs ys : List Value} (hlength : xs.length = ys.length)
    (h : ∀ p ∈ xs.zip ys, Agree p.1 p.2) : Agree (.array xs) (.array ys)
  | object {ms ns : List (Units × Value)} (hlength : (entries ms).length = (entries ns).length)
    (hnames : ∀ p ∈ (entries ms).zip (entries ns), p.1.1 = p.2.1)
    (hvisible : ∀ p ∈ (entries ms).zip (entries ns), isSafeVisible p.1.1 = true → p.1.2 = p.2.2)
    (hopen : ∀ p ∈ (entries ms).zip (entries ns), IsOpen p.1.1 → Agree p.1.2 p.2.2) :
    Agree (.object ms) (.object ns)

/-- Two lists are mapped to one element by element. -/
theorem map_eq_map_iff_zip {α β γ : Type} {f : α → γ} {g : β → γ} {xs : List α} {ys : List β} :
    xs.map f = ys.map g ↔ xs.length = ys.length ∧ ∀ p ∈ xs.zip ys, f p.1 = g p.2 := by
  rw [← List.forall₂_eq_eq_eq, List.forall₂_map_left_iff, List.forall₂_map_right_iff,
    List.forall₂_iff_zip]
  exact and_congr_right fun _ => ⟨fun h p hp => h hp, fun h a b hab => h (a, b) hab⟩

theorem redactValue_eq_iff (x : Value) : ∀ {y : Value} {key : Units}, IsOpen key →
    (redactValue x key = redactValue y key ↔ Agree x y) := by
  induction x using Value.induction with
  | null =>
    intro y key h
    rw [redactValue_eq h, redactValue_eq h]
    cases y with
    | null => exact ⟨fun heq => by cases heq; exact .null, fun hagree => by cases hagree; rfl⟩
    | _ => exact ⟨(nomatch ·), (nomatch ·)⟩
  | bool b =>
    intro y key h
    rw [redactValue_eq h, redactValue_eq h]
    cases y with
    | bool y' =>
      exact ⟨fun heq => by cases heq; exact .bool b, fun hagree => by cases hagree; rfl⟩
    | _ => exact ⟨(nomatch ·), (nomatch ·)⟩
  | number a =>
    intro y key h
    rw [redactValue_eq h, redactValue_eq h]
    cases y with
    | number y' =>
      exact ⟨fun heq => by cases heq; exact .number a, fun hagree => by cases hagree; rfl⟩
    | _ => exact ⟨(nomatch ·), (nomatch ·)⟩
  | string s =>
    intro y key h
    rw [redactValue_eq h, redactValue_eq h]
    cases y with
    | string y' =>
      exact ⟨fun heq => by cases heq; exact .string s, fun hagree => by cases hagree; rfl⟩
    | _ => exact ⟨(nomatch ·), (nomatch ·)⟩
  | array xs ih =>
    intro y key h
    rw [redactValue_eq h, redactValue_eq h]
    cases y with
    | array ys =>
      rw [shown, shown, Value.array.injEq, map_eq_map_iff_zip]
      constructor
      · rintro ⟨hlength, heq⟩
        exact .array hlength fun p hp => (ih p.1 (List.of_mem_zip hp).1 h).mp (heq p hp)
      · rintro (_ | _ | _ | _ | ⟨hlength, hagree⟩ | _)
        exact ⟨hlength, fun p hp => (ih p.1 (List.of_mem_zip hp).1 h).mpr (hagree p hp)⟩
    | _ => exact ⟨(nomatch ·), (nomatch ·)⟩
  | object ms ih =>
    intro y key h
    rw [redactValue_eq h, redactValue_eq h]
    cases y with
    | object ns =>
      have hmem : ∀ p ∈ (entries ms).zip (entries ns), p.1 ∈ ms := fun p hp =>
        (entries_perm ms).mem_iff.mp (List.of_mem_zip hp).1
      rw [shown, shown, Value.object.injEq, map_eq_map_iff_zip]
      constructor
      · rintro ⟨hlength, heq⟩
        have hnames : ∀ p ∈ (entries ms).zip (entries ns), p.1.1 = p.2.1 := fun p hp =>
          (Prod.mk.inj (heq p hp)).1
        have hvalues : ∀ p ∈ (entries ms).zip (entries ns),
            redactValue p.1.2 p.1.1 = redactValue p.2.2 p.1.1 := fun p hp =>
          (Prod.mk.inj (heq p hp)).2.trans (by rw [hnames p hp])
        refine .object hlength hnames (fun p hp hvisible => ?_) fun p hp hopen => ?_
        · have hsame := hvalues p hp
          rwa [redactValue_visible hvisible, redactValue_visible hvisible] at hsame
        · exact (ih p.1 (hmem p hp) hopen).mp (hvalues p hp)
      · rintro (_ | _ | _ | _ | _ | ⟨hlength, hnames, hvisible, hopen⟩)
        refine ⟨hlength, fun p hp => Prod.ext (hnames p hp) ?_⟩
        change redactValue p.1.2 p.1.1 = redactValue p.2.2 p.2.1
        rw [← hnames p hp]
        by_cases hvis : isSafeVisible p.1.1 = true
        · rw [redactValue_visible hvis, redactValue_visible hvis, hvisible p hp hvis]
        have hvis := Bool.eq_false_iff.mpr hvis
        by_cases hsens : isSensitive p.1.1 = true
        · rw [redactValue_hidden hvis hsens, redactValue_hidden hvis hsens]
        have hkey : IsOpen p.1.1 := ⟨hvis, Bool.eq_false_iff.mpr hsens⟩
        exact (ih p.1 (hmem p hp) hkey).mpr (hopen p hp hkey)
    | _ => exact ⟨(nomatch ·), (nomatch ·)⟩

/-- **Two diagnostics are printed alike** exactly when they agree but for what is hidden. -/
theorem redact_eq_iff (x y : Value) :
    redactNullarkDiagnostics x = redactNullarkDiagnostics y ↔ Agree x y :=
  redactValue_eq_iff x isOpen_nil

/-! ### Redacting again -/

/-- The order of the members is that of their names. -/
theorem entries_map {α β : Type} {f : Units × α → Units × β} (hf : ∀ m, (f m).1 = m.1)
    (members : List (Units × α)) : entries (members.map f) = (entries members).map f := by
  have hindex : ∀ m, indexOf (f m).1 = indexOf m.1 := fun m => congrArg indexOf (hf m)
  have hname : ∀ m, isIndexName (f m).1 = isIndexName m.1 := fun m => congrArg isIndexName (hf m)
  have hsort : ∀ l : List (Units × α), sortOn (fun m : Units × β => indexOf m.1) (l.map f) =
      (sortOn (fun m : Units × α => indexOf m.1) l).map f := by
    intro l
    symm
    exact map_sortOn hindex
  unfold entries
  rw [List.map_append, List.filter_map, List.filter_map, hsort]
  simp only [Function.comp_def, hname]

theorem entries_entries {α : Type} (members : List (Units × α)) :
    entries (entries members) = entries members := by
  have hindex : ∀ m ∈ sortOn (fun m : Units × α => indexOf m.1)
      (members.filter fun m => isIndexName m.1), isIndexName m.1 = true := fun m hm =>
    (List.mem_filter.mp (mem_sortOn.mp hm)).2
  have hother : ∀ m ∈ members.filter fun m => !isIndexName m.1, (!isIndexName m.1) = true :=
    fun m hm => (List.mem_filter.mp hm).2
  have hfirst : (entries members).filter (fun m => isIndexName m.1) =
      sortOn (fun m => indexOf m.1) (members.filter fun m => isIndexName m.1) := by
    have hnone : (members.filter fun m => !isIndexName m.1).filter
        (fun m => isIndexName m.1) = [] :=
      List.filter_eq_nil_iff.mpr fun m hm => by
        rw [(Bool.not_eq_true' _).mp (hother m hm)]
        exact Bool.false_ne_true
    rw [entries, List.filter_append, List.filter_eq_self.mpr hindex, hnone, List.append_nil]
  have hlast : (entries members).filter (fun m => !isIndexName m.1) =
      members.filter fun m => !isIndexName m.1 := by
    have hnone : (sortOn (fun m : Units × α => indexOf m.1)
        (members.filter fun m => isIndexName m.1)).filter (fun m => !isIndexName m.1) = [] :=
      List.filter_eq_nil_iff.mpr fun m hm => by
        rw [hindex m hm]
        exact Bool.false_ne_true
    rw [entries, List.filter_append, hnone, List.filter_eq_self.mpr hother, List.nil_append]
  change sortOn _ ((entries members).filter _) ++ (entries members).filter _ = _
  rw [hfirst, hlast, sortOn_of_pairwise pairwise_sortOn]
  rfl

theorem redactValue_redactValue (value : Value) : ∀ key : Units,
    redactValue (redactValue value key) key = redactValue value key := by
  have hclosed : ∀ {key : Units}, ¬IsOpen key → ∀ v, redactValue (redactValue v key) key =
      redactValue v key := by
    intro key hclosed v
    by_cases hvisible : isSafeVisible key = true
    · rw [redactValue_visible hvisible]
    have hvisible := Bool.eq_false_iff.mpr hvisible
    have hsensitive : isSensitive key = true := by
      by_contra hsensitive
      exact hclosed ⟨hvisible, Bool.eq_false_iff.mpr hsensitive⟩
    rw [redactValue_hidden hvisible hsensitive, redactValue_hidden hvisible hsensitive]
  induction value using Value.induction with
  | array items ih =>
    intro key
    by_cases h : IsOpen key
    · rw [redactValue_eq h (.array items), shown, redactValue_eq h, shown, List.map_map]
      exact congrArg Value.array (List.map_congr_left fun v hv => ih v hv key)
    · exact hclosed h _
  | object members ih =>
    intro key
    by_cases h : IsOpen key
    · rw [redactValue_eq h (.object members), shown, redactValue_eq h, shown,
        entries_map (f := fun m : Units × Value => (m.1, redactValue m.2 m.1)) fun _ => rfl,
        entries_entries, List.map_map]
      refine congrArg Value.object (List.map_congr_left fun m hm => Prod.ext rfl ?_)
      exact ih m ((entries_perm members).mem_iff.mp hm) m.1
    · exact hclosed h _
  | _ =>
    intro key
    by_cases h : IsOpen key
    · simp only [redactValue_eq h, shown]
    · exact hclosed h _

/-- **What was redacted is printed as it is.** -/
theorem redact_idempotent (value : Value) :
    redactNullarkDiagnostics (redactNullarkDiagnostics value) = redactNullarkDiagnostics value :=
  redactValue_redactValue value []

/-! ### Records -/

/-- No name is an index. -/
theorem entries_of_names {α : Type} {members : List (Units × α)}
    (h : members.all (fun m => !isIndexName m.1) = true) : entries members = members := by
  have hnames : ∀ m ∈ members, (!isIndexName m.1) = true := List.all_eq_true.mp h
  have hnone : members.filter (fun m => isIndexName m.1) = [] :=
    List.filter_eq_nil_iff.mpr fun m hm => by
      rw [(Bool.not_eq_true' _).mp (hnames m hm)]
      exact Bool.false_ne_true
  rw [entries, hnone, List.filter_eq_self.mpr hnames, sortOn_of_pairwise List.Pairwise.nil,
    List.nil_append]

/-- A record is redacted member by member. -/
theorem redactValue_record {key : Units} (hkey : IsOpen key) {members : List (Units × Value)}
    (h : members.all (fun m => !isIndexName m.1) = true) : redactValue (.object members) key =
      .object (members.map fun m => (m.1, redactValue m.2 m.1)) := by
  rw [redactValue_eq hkey, shown, entries_of_names h]

/-- A name that does not hide its value. -/
def showsText (key : Units) : Bool := isSafeVisible key || !isSensitive key

theorem redactValue_text {key : Units} (h : showsText key = true) (s : Units) :
    redactValue (.string s) key = .string s := by
  rw [redactValue.eq_def]
  unfold showsText at h
  split_ifs with hvisible hsensitive
  · rfl
  · rw [Bool.eq_false_iff.mpr hvisible, hsensitive] at h
    exact absurd h (by decide)
  · rfl

theorem redactValue_record_eq_self {key : Units} (hkey : IsOpen key)
    {members : List (Units × Value)} (hnames : members.all (fun m => !isIndexName m.1) = true)
    (h : ∀ m ∈ members, redactValue m.2 m.1 = m.2) :
    redactValue (.object members) key = .object members := by
  rw [redactValue_record hkey hnames]
  have hsame : ∀ m ∈ members, (m.1, redactValue m.2 m.1) = id m := fun m hm =>
    Prod.ext rfl (h m hm)
  rw [List.map_congr_left hsame, List.map_id]

end Nullark.Sdk.Redaction
