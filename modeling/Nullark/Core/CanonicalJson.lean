import Nullark.Js.JsonValues
import Nullark.Lib.Sorting

/-! # Canonical JSON

`canonicalJson` writes a value with the members of its objects in the order of `localeCompare`. What
`localeCompare` does depends on the locale, so it is a parameter (`Collation`).

* `canonicalJson_eq_ok`: the text is that of the value with all its members in order.
* `arrange_same`: two values that differ in the order of members have one text, unless two names of
  one object tie.
* `canonicalText_iff`: the text stands for the value exactly when no such names tie. -/

namespace Nullark.Core.CanonicalJson

open Nullark.Lib Nullark.Lib.Outcome Nullark.Lib.Sorting
open Nullark.Lib.Hex (Text)
open Nullark.Lib.Json (isIndex commaSeparated)
open Nullark.Js.Basic Nullark.Js.Doubles Nullark.Js.JsonValues

/-- **What is asked of `String.prototype.localeCompare`**: it is a consistent comparison, and the
strings of one canonical decomposition are equal. -/
structure Collation where
  localeCompare : Units → Units → ℤ
  decompose : Units → Units
  consistent : Consistent localeCompare
  equivalent : ∀ s t, decompose s = decompose t → localeCompare s t = 0

/-! ### The code -/

def nameText (name : Units) : Text := name.map fun u => Char.ofNat u.toNat

/-- The name is an array index. -/
def isIndexName (name : Units) : Bool := isIndex (nameText name)

def indexOf (name : Units) : ℕ := Decimal.value (nameText name)

/-- **`Object.entries(value)`**: the array indices in their order, then the other names as they were
added. -/
def entries {α : Type} (members : List (Units × α)) : List (Units × α) :=
  sortOn (fun m => indexOf m.1) (members.filter fun m => isIndexName m.1) ++
    members.filter fun m => !isIndexName m.1

section Code
variable (l : Collation)

/-- `Object.entries(value).sort(([left], [right]) => left.localeCompare(right))`. -/
def sortedEntries {α : Type} (members : List (Units × α)) : List (Units × α) :=
  sortBy (fun m n => l.localeCompare m.1 n.1) (entries members)

variable {l} in
theorem entries_perm {α : Type} (members : List (Units × α)) : (entries members).Perm members :=
  (sortOn_perm.append_right _).trans (List.filter_append_perm (fun m => isIndexName m.1) members)

theorem sortedEntries_perm {α : Type} (members : List (Units × α)) :
    (sortedEntries l members).Perm members := sortBy_perm.trans (entries_perm members)

/-- **`canonicalJson`**. The two zeros are one number, so the branch for `-0` has no counterpart. -/
def canonicalJson : Value → Throws Text
  | .null => .ok (print .null)
  | .bool b => .ok (print (.bool b))
  | .string s => .ok (print (.string s))
  | .number (.finite x) => .ok (print (.number (.finite x)))
  | .number _ => .error "canonical JSON numbers must be finite"
  | .array items => do
    let texts ← items.attach.mapM fun item => canonicalJson item.1
    return '[' :: (commaSeparated texts ++ [']'])
  | .object members => do
    let texts ← (sortedEntries l members).attach.mapM fun m => do
      let text ← canonicalJson m.1.2
      return member m.1.1 text
    return '\x7b' :: (commaSeparated texts ++ ['\x7d'])
termination_by v => sizeOf v
decreasing_by
  · exact sizeOf_item item.2
  · exact sizeOf_member ((sortedEntries_perm l members).mem_iff.mp m.2)

end Code

section Collated
variable {l : Collation}

theorem canonicalJson_array (items : List Value) : canonicalJson l (.array items) = (do
    let texts ← items.mapM (canonicalJson l)
    return '[' :: (commaSeparated texts ++ [']'])) := by
  rw [canonicalJson, List.mapM_subtype fun _ _ => rfl, List.unattach_attach]

theorem canonicalJson_object (members : List (Units × Value)) :
    canonicalJson l (.object members) = (do
      let texts ← (sortedEntries l members).mapM fun m => do
        let text ← canonicalJson l m.2
        return member m.1 text
      return '\x7b' :: (commaSeparated texts ++ ['\x7d'])) := by
  rw [canonicalJson, List.mapM_subtype (g := fun m : Units × Value => do
    let text ← canonicalJson l m.2
    return member m.1 text) fun _ _ => rfl, List.unattach_attach]

/-! ### The text -/

/-- Names and their values, with the values changed. -/
def mapValues {α β : Type} (f : α → β) (members : List (Units × α)) : List (Units × β) :=
  members.map fun m => (m.1, f m.2)

theorem entries_mapValues {α β : Type} (f : α → β) (members : List (Units × α)) :
    entries (mapValues f members) = mapValues f (entries members) := by
  unfold entries mapValues
  rw [List.map_append, List.filter_map, List.filter_map]
  exact congrArg (· ++ _) (map_sortOn fun _ => rfl).symm

/-- Sorting looks at nothing but the names. -/
theorem sortedEntries_mapValues {α β : Type} (f : α → β) (members : List (Units × α)) :
    sortedEntries l (mapValues f members) = mapValues f (sortedEntries l members) := by
  unfold sortedEntries
  rw [entries_mapValues]
  exact (map_sortBy fun _ _ => rfl).symm

end Collated

section Arranged
variable (l : Collation)

/-- **The value with the members of its objects in order.** -/
def arrange : Value → Value
  | .null => .null
  | .bool b => .bool b
  | .number x => .number x
  | .string s => .string s
  | .array items => .array (items.map arrange)
  | .object members => .object (sortedEntries l (members.map fun m => (m.1, arrange m.2)))
termination_by v => sizeOf v
decreasing_by
  · exact sizeOf_item ‹_›
  · exact sizeOf_member ‹_›

variable {l}

theorem arrange_object (members : List (Units × Value)) : arrange l (.object members) =
    .object (mapValues (arrange l) (sortedEntries l members)) := by
  rw [arrange, ← sortedEntries_mapValues]
  rfl

theorem finite_arrange {v : Value} (h : v.Finite) : (arrange l v).Finite := by
  induction v using Value.induction with
  | null => rwa [arrange]
  | bool b => rwa [arrange]
  | number x => rwa [arrange]
  | string s => rwa [arrange]
  | array items ih =>
    cases h with | array h =>
    rw [arrange]
    refine .array fun w hw => ?_
    obtain ⟨v, hv, rfl⟩ := List.mem_map.mp hw
    exact ih v hv (h v hv)
  | object members ih =>
    cases h with | object h =>
    rw [arrange_object]
    refine .object fun n hn => ?_
    obtain ⟨m, hm, rfl⟩ := List.mem_map.mp hn
    have hm := (sortedEntries_perm l members).mem_iff.mp hm
    exact ih m hm (h m hm)

theorem distinct_arrange {v : Value} (h : v.Distinct) : (arrange l v).Distinct := by
  induction v using Value.induction with
  | null => rwa [arrange]
  | bool b => rwa [arrange]
  | number x => rwa [arrange]
  | string s => rwa [arrange]
  | array items ih =>
    cases h with | array h =>
    rw [arrange]
    refine .array fun w hw => ?_
    obtain ⟨v, hv, rfl⟩ := List.mem_map.mp hw
    exact ih v hv (h v hv)
  | object members ih =>
    cases h with | object hnames h =>
    rw [arrange_object]
    refine .object ?_ fun n hn => ?_
    · rw [mapValues, List.map_map]
      exact ((sortedEntries_perm l members).map (·.1)).nodup_iff.mpr hnames
    · obtain ⟨m, hm, rfl⟩ := List.mem_map.mp hn
      have hm := (sortedEntries_perm l members).mem_iff.mp hm
      exact ih m hm (h m hm)

/-- The first error of a list, when there is only one that can occur. -/
theorem mapM_error {α β : Type} {f : α → Throws β} {g : α → β} {e : String} : ∀ {xs : List α},
    (∀ x ∈ xs, f x = .ok (g x) ∨ f x = .error e) → (∃ x ∈ xs, f x = .error e) →
    xs.mapM f = .error e
  | [], _, ⟨_, h, _⟩ => absurd h List.not_mem_nil
  | x :: xs, hall, ⟨y, hy, herror⟩ => by
    rw [List.mapM_cons]
    rcases hall x List.mem_cons_self with hok | herror'
    · have hy' : y ∈ xs := by
        rcases List.mem_cons.mp hy with rfl | hy
        · exact nomatch hok.symm.trans herror
        · exact hy
      rw [hok, ok_bind, mapM_error (fun z hz => hall z (List.mem_cons_of_mem x hz))
        ⟨y, hy', herror⟩]
      rfl
    · rw [herror']
      rfl

/-- **The text of a value** is that of the value in order. -/
theorem canonicalJson_of_finite {v : Value} (h : v.Finite) :
    canonicalJson l v = .ok (print (arrange l v)) := by
  induction v using Value.induction with
  | null => rw [canonicalJson, arrange]
  | bool b => rw [canonicalJson, arrange]
  | number x =>
    cases h with
    | number x => rw [canonicalJson, arrange]
  | string s => rw [canonicalJson, arrange]
  | array items ih =>
    cases h with | array h =>
    rw [canonicalJson_array, mapM_ok fun v hv => ih v hv (h v hv), ok_bind, arrange, print,
      List.map_map]
    rfl
  | object members ih =>
    cases h with | object h =>
    have htexts : (sortedEntries l members).mapM (fun m => do
        let text ← canonicalJson l m.2
        return member m.1 text) =
        .ok ((sortedEntries l members).map fun m => member m.1 (print (arrange l m.2))) := by
      refine mapM_ok fun m hm => ?_
      have hm := (sortedEntries_perm l members).mem_iff.mp hm
      rw [ih m hm (h m hm)]
      rfl
    rw [canonicalJson_object, htexts, ok_bind, arrange_object, print_object, mapValues,
      List.map_map]
    rfl

/-- A number that is not finite is refused wherever it stands. -/
theorem canonicalJson_of_not_finite {v : Value} (h : ¬v.Finite) :
    canonicalJson l v = .error "canonical JSON numbers must be finite" := by
  induction v using Value.induction with
  | null => exact absurd .null h
  | bool b => exact absurd (.bool b) h
  | number x =>
    cases x with
    | finite x => exact absurd (.number x) h
    | nan => rw [canonicalJson]; exact nofun
    | infinite negative => rw [canonicalJson]; exact nofun
  | string s => exact absurd (.string s) h
  | array items ih =>
    obtain ⟨v, hv, hinfinite⟩ : ∃ v ∈ items, ¬v.Finite := by
      by_contra hall
      push Not at hall
      exact h (.array hall)
    rw [canonicalJson_array, mapM_error (g := fun v => print (arrange l v)) (fun v hv => ?_)
      ⟨v, hv, ih v hv hinfinite⟩]
    · rfl
    · by_cases hfinite : v.Finite
      · exact Or.inl (canonicalJson_of_finite hfinite)
      · exact Or.inr (ih v hv hfinite)
  | object members ih =>
    obtain ⟨m, hm, hinfinite⟩ : ∃ m ∈ members, ¬m.2.Finite := by
      by_contra hall
      push Not at hall
      exact h (.object hall)
    have hsorted := (sortedEntries_perm l members).mem_iff (a := m)
    rw [canonicalJson_object, mapM_error (g := fun m => member m.1 (print (arrange l m.2)))
      (fun n hn => ?_) ⟨m, hsorted.mpr hm, by rw [ih m hm hinfinite]; rfl⟩]
    · rfl
    · by_cases hfinite : n.2.Finite
      · exact Or.inl (by rw [canonicalJson_of_finite hfinite]; rfl)
      · have hn := (sortedEntries_perm l members).mem_iff.mp hn
        exact Or.inr (by rw [ih n hn hfinite]; rfl)

/-- **What is written**: the text of the value in order. -/
theorem canonicalJson_eq_ok {v : Value} {t : Text} :
    canonicalJson l v = .ok t ↔ v.Finite ∧ t = print (arrange l v) := by
  by_cases h : v.Finite
  · rw [canonicalJson_of_finite h]
    exact ⟨fun heq => ⟨h, (Except.ok.inj heq).symm⟩, fun ⟨_, heq⟩ => by rw [heq]⟩
  · rw [canonicalJson_of_not_finite h]
    exact ⟨nofun, fun ⟨hfinite, _⟩ => absurd hfinite h⟩

/-! ### Equal values -/

/-- **Two values are equal** up to the order in which members were added, in objects of any
depth. -/
inductive Same : Value → Value → Prop
  | null : Same .null .null
  | bool (b : Bool) : Same (.bool b) (.bool b)
  | number (x : JsNumber) : Same (.number x) (.number x)
  | string (s : Units) : Same (.string s) (.string s)
  | array {xs ys : List Value} (h : List.Forall₂ Same xs ys) : Same (.array xs) (.array ys)
  | object {ms ms' ns : List (Units × Value)} (hperm : ms.Perm ms')
    (hnames : ms'.map (·.1) = ns.map (·.1)) (h : List.Forall₂ Same (ms'.map (·.2)) (ns.map (·.2))) :
    Same (.object ms) (.object ns)

/-- Names that are no array indices and tie are equal, in objects of any depth. -/
inductive NoTies (l : Collation) : Value → Prop
  | null : NoTies l .null
  | bool (b : Bool) : NoTies l (.bool b)
  | number (x : JsNumber) : NoTies l (.number x)
  | string (s : Units) : NoTies l (.string s)
  | array {items : List Value} (h : ∀ v ∈ items, NoTies l v) : NoTies l (.array items)
  | object {members : List (Units × Value)}
    (hnames : ∀ m ∈ members, ∀ n ∈ members, isIndexName m.1 = false → isIndexName n.1 = false →
      l.localeCompare m.1 n.1 = 0 → m.1 = n.1)
    (h : ∀ m ∈ members, NoTies l m.2) : NoTies l (.object members)

theorem forall₂_map {α β γ : Type} {R : α → β → Prop} {f : α → γ} {g : β → γ} {xs : List α}
    {ys : List β} (h : List.Forall₂ R xs ys) (hfg : ∀ x ∈ xs, ∀ y, R x y → f x = g y) :
    xs.map f = ys.map g := by
  induction h with
  | nil => rfl
  | @cons x y xs ys hxy _ ih =>
    rw [List.map_cons, List.map_cons, hfg x List.mem_cons_self y hxy,
      ih fun z hz => hfg z (List.mem_cons_of_mem x hz)]

theorem forall₂_forall_iff {α β : Type} {R : α → β → Prop} {P : α → Prop} {Q : β → Prop}
    {xs : List α} {ys : List β} (h : List.Forall₂ R xs ys)
    (hPQ : ∀ x ∈ xs, ∀ y, R x y → (P x ↔ Q y)) : (∀ x ∈ xs, P x) ↔ ∀ y ∈ ys, Q y := by
  induction h with
  | nil => exact ⟨fun _ _ h => absurd h List.not_mem_nil, fun _ _ h => absurd h List.not_mem_nil⟩
  | @cons x y xs ys hxy _ ih =>
    rw [List.forall_mem_cons, List.forall_mem_cons, hPQ x List.mem_cons_self y hxy,
      ih fun z hz => hPQ z (List.mem_cons_of_mem x hz)]

/-- Values that are equal are both finite or both not. -/
theorem Same.finite_iff {v w : Value} (h : Same v w) : v.Finite ↔ w.Finite := by
  induction v using Value.induction generalizing w with
  | null => cases h; exact Iff.rfl
  | bool b => cases h; exact Iff.rfl
  | number x => cases h; exact Iff.rfl
  | string s => cases h; exact Iff.rfl
  | array xs ih =>
    cases h with | @array _ ys h =>
    have hall := forall₂_forall_iff h fun x hx y hxy => ih x hx hxy
    exact ⟨fun hv => by cases hv with | array hv => exact .array (hall.mp hv),
      fun hw => by cases hw with | array hw => exact .array (hall.mpr hw)⟩
  | object ms ih =>
    cases h with | @object _ ms' ns hperm _ h =>
    have hall := forall₂_forall_iff (P := Value.Finite) (Q := Value.Finite) h fun x hx y hxy => by
      obtain ⟨m, hm, rfl⟩ := List.mem_map.mp hx
      exact ih m (hperm.mem_iff.mpr hm) hxy
    simp only [List.forall_mem_map] at hall
    constructor
    · intro hv
      cases hv with | object hv =>
      exact .object (hall.mp fun m hm => hv m (hperm.mem_iff.mpr hm))
    · intro hw
      cases hw with | object hw =>
      exact .object fun m hm => hall.mpr hw m (hperm.mem_iff.mp hm)

/-- Values that are equal have both distinct names or both not. -/
theorem Same.distinct_iff {v w : Value} (h : Same v w) : v.Distinct ↔ w.Distinct := by
  induction v using Value.induction generalizing w with
  | null => cases h; exact Iff.rfl
  | bool b => cases h; exact Iff.rfl
  | number x => cases h; exact Iff.rfl
  | string s => cases h; exact Iff.rfl
  | array xs ih =>
    cases h with | @array _ ys h =>
    have hall := forall₂_forall_iff h fun x hx y hxy => ih x hx hxy
    exact ⟨fun hv => by cases hv with | array hv => exact .array (hall.mp hv),
      fun hw => by cases hw with | array hw => exact .array (hall.mpr hw)⟩
  | object ms ih =>
    cases h with | @object _ ms' ns hperm hsame h =>
    have hnodup : (ms.map (·.1)).Nodup ↔ (ns.map (·.1)).Nodup := by
      rw [(hperm.map _).nodup_iff, hsame]
    have hall := forall₂_forall_iff (P := Value.Distinct) (Q := Value.Distinct) h
      fun x hx y hxy => by
        obtain ⟨m, hm, rfl⟩ := List.mem_map.mp hx
        exact ih m (hperm.mem_iff.mpr hm) hxy
    simp only [List.forall_mem_map] at hall
    constructor
    · intro hv
      cases hv with | object hnames hv =>
      exact .object (hnodup.mp hnames) (hall.mp fun m hm => hv m (hperm.mem_iff.mpr hm))
    · intro hw
      cases hw with | object hnames hw =>
      exact .object (hnodup.mpr hnames) fun m hm => hall.mpr hw m (hperm.mem_iff.mp hm)

/-! ### The order of the members -/

/-- Array indices come first. -/
def rank (name : Units) : ℕ := if isIndexName name then indexOf name else 2 ^ 32

theorem rank_lt {name : Units} (h : isIndexName name = true) : rank name < 2 ^ 32 := by
  have hindex : indexOf name < 2 ^ 32 - 1 := by
    unfold isIndexName isIndex at h
    simp only [Bool.and_eq_true, decide_eq_true_eq] at h
    exact h.2
  rw [rank, if_pos h]
  omega

/-- A digit stands for one unit only. -/
theorem toNat_of_isDigit {u : UInt16} (h : (Char.ofNat u.toNat).isDigit = true) :
    (Char.ofNat u.toNat).toNat = u.toNat := by
  have hlt := u.toNat_lt
  by_cases hvalid : u.toNat < 0xD800 ∨ 0xDFFF < u.toNat ∧ u.toNat < 0x110000
  · exact toNat_charOfNat hvalid
  · have hzero : Char.ofNat u.toNat = Char.ofNat 0 := by
      have hinvalid : ¬u.toNat.isValidChar := hvalid
      unfold Char.ofNat
      rw [dif_neg hinvalid]
      rfl
    rw [hzero] at h
    exact absurd h (by decide)

/-- **An array index has one name.** -/
theorem eq_of_indexOf {s t : Units} (hs : isIndexName s = true) (ht : isIndexName t = true)
    (h : indexOf s = indexOf t) : s = t := by
  have hcanonical : ∀ {u : Units}, isIndexName u = true → Decimal.isCanonical (nameText u) := by
    intro u hu
    unfold isIndexName isIndex at hu
    simp only [Bool.and_eq_true, decide_eq_true_eq] at hu
    exact hu.1
  have htext : nameText s = nameText t := by
    rw [← FixedPoint.ofNat_value (hcanonical hs), ← FixedPoint.ofNat_value (hcanonical ht)]
    exact congrArg Decimal.ofNat h
  have hunits : ∀ {u : Units}, isIndexName u = true → (nameText u).map Char.toNat =
      u.map UInt16.toNat := by
    intro u hu
    rw [nameText, List.map_map]
    refine List.map_congr_left fun c hc => toNat_of_isDigit ?_
    exact (hcanonical hu).1.2 _ (List.mem_map_of_mem hc)
  have hnat : s.map UInt16.toNat = t.map UInt16.toNat := by
    rw [← hunits hs, ← hunits ht, htext]
  rw [← map_ofNat_toNat s, hnat, map_ofNat_toNat]

theorem pairwise_entries {α : Type} (members : List (Units × α)) :
    (entries members).Pairwise fun m n => rank m.1 ≤ rank n.1 := by
  have hindex : ∀ m ∈ sortOn (fun m : Units × α => indexOf m.1)
      (members.filter fun m => isIndexName m.1), isIndexName m.1 = true := fun m hm =>
    (List.mem_filter.mp (mem_sortOn.mp hm)).2
  have hother : ∀ m ∈ members.filter fun m => !isIndexName m.1, rank m.1 = 2 ^ 32 := fun m hm => by
    have hm := (List.mem_filter.mp hm).2
    rw [rank, if_neg (by simpa using hm)]
  refine List.pairwise_append.mpr ⟨?_, ?_, fun m hm n hn => ?_⟩
  · refine List.Pairwise.imp_of_mem (fun {m n} hm hn hle => ?_) pairwise_sortOn
    rw [rank, rank, if_pos (hindex m hm), if_pos (hindex n hn)]
    exact hle
  · refine List.Pairwise.imp_of_mem (fun {m n} hm hn _ => ?_)
      (List.pairwise_of_forall (R := fun _ _ => True) fun _ _ => trivial)
    rw [hother m hm, hother n hn]
  · rw [hother n hn]
    exact (rank_lt (hindex m hm)).le

theorem comparison_consistent {α : Type} (l : Collation) :
    Consistent fun m n : Units × α => l.localeCompare m.1 n.1 := l.consistent.comap Prod.fst

/-- **The members in order**: by the comparison, and array indices first among those that tie. -/
theorem pairwise_sortedEntries {α : Type} {members : List (Units × α)}
    (hnames : (members.map (·.1)).Nodup) : (sortedEntries l members).Pairwise fun m n =>
      l.localeCompare m.1 n.1 < 0 ∨ l.localeCompare m.1 n.1 = 0 ∧ rank m.1 ≤ rank n.1 := by
  have hnodup : (entries members).Nodup := (entries_perm members).nodup_iff.mpr hnames.of_map
  exact pairwise_sortBy_stable (comparison_consistent l) (pairwise_entries members) hnodup

/-- **The order in which members were added does not matter** if no two names tie. -/
theorem sortedEntries_eq_of_perm {α : Type} {ms ns : List (Units × α)}
    (hnames : (ms.map (·.1)).Nodup)
    (hties : ∀ m ∈ ms, ∀ n ∈ ms, isIndexName m.1 = false → isIndexName n.1 = false →
      l.localeCompare m.1 n.1 = 0 → m.1 = n.1) (hperm : ms.Perm ns) :
    sortedEntries l ms = sortedEntries l ns := by
  have hsorted := (sortedEntries_perm l ms).trans (hperm.trans (sortedEntries_perm l ns).symm)
  refine List.Perm.eq_of_pairwise (fun m n hm hn hmn hnm => ?_) (pairwise_sortedEntries hnames)
    (pairwise_sortedEntries ((hperm.map _).nodup_iff.mp hnames)) hsorted
  have hm : m ∈ ms := (sortedEntries_perm l ms).mem_iff.mp hm
  have hn : n ∈ ms := hperm.mem_iff.mpr ((sortedEntries_perm l ns).mem_iff.mp hn)
  have hmneg := l.consistent.neg_iff m.1 n.1
  have hnneg := l.consistent.neg_iff n.1 m.1
  obtain ⟨htie, hrank⟩ : l.localeCompare m.1 n.1 = 0 ∧ rank m.1 = rank n.1 := by omega
  refine List.inj_on_of_nodup_map hnames hm hn ?_
  cases hm' : isIndexName m.1 with
  | true =>
    cases hn' : isIndexName n.1 with
    | true =>
      rw [rank, rank, if_pos hm', if_pos hn'] at hrank
      exact eq_of_indexOf hm' hn' hrank
    | false =>
      have hlt := rank_lt hm'
      rw [hrank, rank, if_neg (by rw [hn']; exact Bool.false_ne_true)] at hlt
      exact absurd hlt (lt_irrefl _)
  | false =>
    cases hn' : isIndexName n.1 with
    | true =>
      have hlt := rank_lt hn'
      rw [← hrank, rank, if_neg (by rw [hm']; exact Bool.false_ne_true)] at hlt
      exact absurd hlt (lt_irrefl _)
    | false => exact hties m hm n hn hm' hn' htie

/-- **Equal values are arranged alike** if no names tie. -/
theorem arrange_same {v w : Value} (hdistinct : v.Distinct) (hties : NoTies l v) (h : Same v w) :
    arrange l v = arrange l w := by
  induction v using Value.induction generalizing w with
  | null => cases h; rfl
  | bool b => cases h; rfl
  | number x => cases h; rfl
  | string s => cases h; rfl
  | array xs ih =>
    cases hdistinct with | array hdistinct =>
    cases hties with | array hties =>
    cases h with | @array _ ys h =>
    rw [arrange, arrange, forall₂_map h fun x hx y hxy => ih x hx (hdistinct x hx) (hties x hx) hxy]
  | object ms ih =>
    cases hdistinct with | object hnames hdistinct =>
    cases hties with | object hnameties hties =>
    cases h with | @object _ ms' ns hperm hsame h =>
    have hvalues : (ms'.map (·.2)).map (arrange l) = (ns.map (·.2)).map (arrange l) := by
      refine forall₂_map h fun x hx y hxy => ?_
      obtain ⟨m, hm, rfl⟩ := List.mem_map.mp hx
      have hm := hperm.mem_iff.mpr hm
      exact ih m hm (hdistinct m hm) (hties m hm) hxy
    have hmembers : mapValues (arrange l) ms' = mapValues (arrange l) ns := by
      have hzip : ∀ members : List (Units × Value), mapValues (arrange l) members =
          (members.map (·.1)).zip ((members.map (·.2)).map (arrange l)) := fun members => by
        rw [List.map_map, List.zip_map', mapValues]
        rfl
      rw [hzip, hzip, hsame, hvalues]
    rw [arrange_object, arrange_object, sortedEntries_eq_of_perm hnames hnameties hperm,
      ← sortedEntries_mapValues, ← sortedEntries_mapValues, hmembers]

theorem forall₂_of_map {α β γ : Type} {R : α → β → Prop} {f : α → γ} {g : β → γ} : ∀ {xs : List α}
    {ys : List β}, xs.map f = ys.map g → (∀ x ∈ xs, ∀ y, f x = g y → R x y) → List.Forall₂ R xs ys
  | [], [], _, _ => .nil
  | x :: xs, y :: ys, h, hR => by
    rw [List.map_cons, List.map_cons, List.cons.injEq] at h
    exact .cons (hR x List.mem_cons_self y h.1)
      (forall₂_of_map h.2 fun z hz => hR z (List.mem_cons_of_mem x hz))

/-- **Values that are arranged alike are equal.** -/
theorem same_of_arrange_eq {v w : Value} (h : arrange l v = arrange l w) : Same v w := by
  induction v using Value.induction generalizing w with
  | null =>
    cases w <;> simp only [arrange, reduceCtorEq] at h
    exact .null
  | bool b =>
    cases w <;> simp only [arrange, reduceCtorEq, Value.bool.injEq] at h
    exact h ▸ .bool b
  | number x =>
    cases w <;> simp only [arrange, reduceCtorEq, Value.number.injEq] at h
    exact h ▸ .number x
  | string s =>
    cases w <;> simp only [arrange, reduceCtorEq, Value.string.injEq] at h
    exact h ▸ .string s
  | array xs ih =>
    cases w <;> simp only [arrange, reduceCtorEq, Value.array.injEq] at h
    exact .array (forall₂_of_map h fun x hx y hxy => ih x hx hxy)
  | object ms ih =>
    cases w with
    | object ns =>
      rw [arrange_object, arrange_object, Value.object.injEq] at h
      have hsorted : List.Forall₂ (fun m n : Units × Value => m.1 = n.1 ∧ Same m.2 n.2)
          (sortedEntries l ms) (sortedEntries l ns) := by
        refine forall₂_of_map h fun m hm n hmn => ?_
        have hm := (sortedEntries_perm l ms).mem_iff.mp hm
        exact ⟨(Prod.mk.inj hmn).1, ih m hm (Prod.mk.inj hmn).2⟩
      obtain ⟨ms', hperm, hall⟩ : Relation.Comp List.Perm
          (List.Forall₂ fun m n : Units × Value => m.1 = n.1 ∧ Same m.2 n.2)
          (sortedEntries l ms) ns := by
        rw [← List.forall₂_comp_perm_eq_perm_comp_forall₂]
        exact ⟨_, hsorted, sortedEntries_perm l ns⟩
      refine .object ((sortedEntries_perm l ms).symm.trans hperm)
        (forall₂_map hall fun m _ n hmn => hmn.1) ?_
      rw [List.forall₂_map_left_iff, List.forall₂_map_right_iff]
      exact hall.imp fun m n hmn => hmn.2
    | _ => simp only [arrange, reduceCtorEq] at h

/-- A value is equal to itself in order. -/
theorem same_arrange (v : Value) : Same v (arrange l v) := by
  induction v using Value.induction with
  | null => rw [arrange]; exact .null
  | bool b => rw [arrange]; exact .bool b
  | number x => rw [arrange]; exact .number x
  | string s => rw [arrange]; exact .string s
  | array xs ih =>
    rw [arrange]
    exact .array (List.forall₂_map_right_iff.mpr (List.forall₂_same.mpr ih))
  | object ms ih =>
    rw [arrange_object]
    refine .object (sortedEntries_perm l ms).symm ?_ ?_
    · rw [mapValues, List.map_map]
      rfl
    · rw [mapValues, List.map_map, List.forall₂_map_left_iff, List.forall₂_map_right_iff,
        List.forall₂_same]
      exact fun m hm => ih m ((sortedEntries_perm l ms).mem_iff.mp hm)

end Arranged

/-! ### Names that tie -/

/-- The members of all objects in the opposite order. -/
def mirror : Value → Value
  | .null => .null
  | .bool b => .bool b
  | .number x => .number x
  | .string s => .string s
  | .array items => .array (items.map mirror)
  | .object members => .object (members.map fun m => (m.1, mirror m.2)).reverse
termination_by v => sizeOf v
decreasing_by
  · exact sizeOf_item ‹_›
  · exact sizeOf_member ‹_›

theorem mirror_object (members : List (Units × Value)) :
    mirror (.object members) = .object (mapValues mirror members.reverse) := by
  rw [mirror, mapValues, List.map_reverse]

theorem same_mirror (v : Value) : Same v (mirror v) := by
  induction v using Value.induction with
  | null => rw [mirror]; exact .null
  | bool b => rw [mirror]; exact .bool b
  | number x => rw [mirror]; exact .number x
  | string s => rw [mirror]; exact .string s
  | array xs ih =>
    rw [mirror]
    exact .array (List.forall₂_map_right_iff.mpr (List.forall₂_same.mpr ih))
  | object ms ih =>
    rw [mirror_object]
    refine .object ms.reverse_perm.symm ?_ ?_
    · rw [mapValues, List.map_map]
      rfl
    · rw [mapValues, List.map_map, List.forall₂_map_left_iff, List.forall₂_map_right_iff,
        List.forall₂_same]
      exact fun m hm => ih m (List.mem_reverse.mp hm)

section Ties
variable {l : Collation}

/-- Of two names that tie, the one that was added first stands first. -/
theorem pair_sublist_sortedEntries {α : Type} {members : List (Units × α)} {m n : Units × α}
    (hm : isIndexName m.1 = false) (hn : isIndexName n.1 = false)
    (htie : l.localeCompare m.1 n.1 = 0) (h : [m, n].Sublist members) :
    [m, n].Sublist (sortedEntries l members) := by
  have hfilter := h.filter fun m => !isIndexName m.1
  rw [List.filter_cons_of_pos (by rw [hm]; rfl), List.filter_cons_of_pos (by rw [hn]; rfl),
    List.filter_nil] at hfilter
  have hentries : [m, n].Sublist (entries members) :=
    hfilter.trans (List.sublist_append_right _ _)
  exact (comparison_consistent l).pair_sublist_sortBy htie.le hentries

/-- Two orders of the members that lead to one list of names leave no names that tie. -/
theorem not_tie_of_reverse {α : Type} {members : List (Units × α)}
    (hnames : (members.map (·.1)).Nodup)
    (h : (sortedEntries l members.reverse).map (·.1) = (sortedEntries l members).map (·.1))
    {m n : Units × α} (hm : isIndexName m.1 = false) (hn : isIndexName n.1 = false)
    (htie : l.localeCompare m.1 n.1 = 0) : ¬[m, n].Sublist members := by
  intro hsub
  have hsub' : [n, m].Sublist members.reverse := hsub.reverse
  have htie' := l.consistent.eq_zero_comm.mp htie
  have hfirst := (pair_sublist_sortedEntries hm hn htie hsub).map (·.1)
  have hsecond := (pair_sublist_sortedEntries hn hm htie' hsub').map (·.1)
  rw [h] at hsecond
  exact not_sublist_pair (((sortedEntries_perm l members).map _).nodup_iff.mpr hnames) hfirst hsecond

/-- **A value that is arranged like its mirror image has no names that tie.** -/
theorem noTies_of_mirror {v : Value} (hdistinct : v.Distinct)
    (h : arrange l (mirror v) = arrange l v) : NoTies l v := by
  induction v using Value.induction with
  | null => exact .null
  | bool b => exact .bool b
  | number x => exact .number x
  | string s => exact .string s
  | array xs ih =>
    cases hdistinct with | array hdistinct =>
    rw [mirror, arrange, arrange, Value.array.injEq, List.map_map] at h
    exact .array fun x hx => ih x hx (hdistinct x hx) (List.map_inj_left.mp h x hx)
  | object ms ih =>
    cases hdistinct with | object hnames hdistinct =>
    rw [mirror_object, arrange_object, arrange_object, Value.object.injEq,
      sortedEntries_mapValues] at h
    refine .object (fun m hm n hn hm' hn' htie => ?_) fun m hm => ?_
    · have hsorted : (sortedEntries l ms.reverse).map (·.1) = (sortedEntries l ms).map (·.1) := by
        have hmap := congrArg (List.map Prod.fst) h
        simpa only [mapValues, List.map_map, Function.comp_def] using hmap
      by_contra hne
      have hne' : m ≠ n := fun heq => hne (congrArg Prod.fst heq)
      rcases sublist_pair_of_mem hne' hm hn with hsub | hsub
      · exact not_tie_of_reverse hnames hsorted hm' hn' htie hsub
      · exact not_tie_of_reverse hnames hsorted hn' hm' (l.consistent.eq_zero_comm.mp htie) hsub
    · have hmem : (m.1, arrange l m.2) ∈ mapValues (arrange l) (sortedEntries l ms) :=
        List.mem_map_of_mem (f := fun m : Units × Value => (m.1, arrange l m.2))
          ((sortedEntries_perm l ms).mem_iff.mpr hm)
      rw [← h, mapValues, mapValues, List.map_map] at hmem
      obtain ⟨n, hn, heq⟩ := List.mem_map.mp hmem
      have hn := List.mem_reverse.mp ((sortedEntries_perm l ms.reverse).mem_iff.mp hn)
      obtain rfl := List.inj_on_of_nodup_map hnames hn hm (Prod.mk.inj heq).1
      exact ih n hn (hdistinct n hn) (Prod.mk.inj heq).2

end Ties

/-! ### Canonical texts -/

/-- **A value that JSON writes**: no object has two members of one name. -/
structure JsonValue where
  value : Value
  distinct : value.Distinct

/-- **The text of a value is canonical**: it does not depend on the order in which members were
added, it is read back as an equal value, and no other value has it. -/
structure Canonical (l : Collation) (v : JsonValue) : Prop where
  invariant : ∀ w, Same v.value w → canonicalJson l w = canonicalJson l v.value
  parsed : ∀ t, canonicalJson l v.value = .ok t → ∃ w, parse t = some w ∧ Same v.value w
  determined : ∀ (w : JsonValue) (t : Text), canonicalJson l v.value = .ok t →
    canonicalJson l w.value = .ok t → Same v.value w.value

section Texts
variable {l : Collation}

/-- **What was written is read back**: the value in order. -/
theorem parse_canonicalJson (v : JsonValue) {t : Text} (h : canonicalJson l v.value = .ok t) :
    parse t = some (arrange l v.value) := by
  obtain ⟨hfinite, rfl⟩ := canonicalJson_eq_ok.mp h
  exact parse_print (finite_arrange hfinite) (distinct_arrange v.distinct)

/-- The text determines the value in order. -/
theorem arrange_eq_of_text {v w : JsonValue} {t : Text} (hv : canonicalJson l v.value = .ok t)
    (hw : canonicalJson l w.value = .ok t) : arrange l v.value = arrange l w.value :=
  Option.some.inj ((parse_canonicalJson v hv).symm.trans (parse_canonicalJson w hw))

/-- The names of a value whose text is canonical do not tie. -/
theorem noTies_of_canonical {v : JsonValue} (h : Canonical l v) (hfinite : v.value.Finite) :
    NoTies l v.value := by
  have hsame := same_mirror v.value
  have htext := canonicalJson_of_finite (l := l) hfinite
  exact noTies_of_mirror v.distinct (arrange_eq_of_text
    (v := ⟨mirror v.value, hsame.distinct_iff.mp v.distinct⟩) ((h.invariant _ hsame).trans htext)
    htext)

/-- **The text is canonical exactly when no names tie**, for a value that is written at all. -/
theorem canonicalText_iff (l : Collation) (v : JsonValue) :
    Canonical l v ↔ (v.value.Finite → NoTies l v.value) := by
  refine ⟨noTies_of_canonical, fun hties => ⟨fun w hsame => ?_, fun t ht => ?_, fun w t hv hw => ?_⟩⟩
  · by_cases hfinite : v.value.Finite
    · rw [canonicalJson_of_finite hfinite, canonicalJson_of_finite (hsame.finite_iff.mp hfinite),
        arrange_same v.distinct (hties hfinite) hsame]
    · rw [canonicalJson_of_not_finite hfinite,
        canonicalJson_of_not_finite fun hw => hfinite (hsame.finite_iff.mpr hw)]
  · exact ⟨_, parse_canonicalJson v ht, same_arrange v.value⟩
  · exact same_of_arrange_eq (arrange_eq_of_text hv hw)

/-- **Two canonically equivalent names** of one object are enough. -/
theorem not_canonical_of_equivalent {members : List (Units × Value)}
    (hdistinct : (Value.object members).Distinct) (hfinite : (Value.object members).Finite)
    {m n : Units × Value} (hm : m ∈ members) (hn : n ∈ members) (hne : m.1 ≠ n.1)
    (hm' : isIndexName m.1 = false) (hn' : isIndexName n.1 = false)
    (h : l.decompose m.1 = l.decompose n.1) : ¬Canonical l ⟨.object members, hdistinct⟩ := by
  intro hcanonical
  cases noTies_of_canonical hcanonical hfinite with
  | object hnames _ => exact hne (hnames m hm n hn hm' hn' (l.equivalent _ _ h))

end Texts

/-! ### A locale -/

/-- The decomposition of the letter e with an acute accent. -/
def sampleDecompose (s : Units) : Units := s.flatMap fun u => if u = 0xE9 then [0x65, 0x301] else [u]

def sampleKey (s : Units) : List ℕ := (sampleDecompose s).map UInt16.toNat

/-- The order of the decompositions. -/
def sampleCompare (s t : Units) : ℤ :=
  if sampleKey s < sampleKey t then -1 else if sampleKey t < sampleKey s then 1 else 0

def sampleCollation : Collation where
  localeCompare := sampleCompare
  decompose := sampleDecompose
  consistent := by
    have hle : ∀ s t, sampleCompare s t ≤ 0 ↔ sampleKey s ≤ sampleKey t := fun s t => by
      unfold sampleCompare
      split_ifs with hlt hgt
      · exact ⟨fun _ => hlt.le, fun _ => by decide⟩
      · exact ⟨fun h => absurd h (by decide), fun h => absurd hgt (not_lt.mpr h)⟩
      · exact ⟨fun _ => not_lt.mp hgt, fun _ => le_rfl⟩
    refine ⟨fun s t => ?_, fun s t u hst htu => ?_⟩
    · unfold sampleCompare
      split_ifs with hst hts
      · exact absurd hst (lt_asymm hts)
      · exact ⟨fun _ => by decide, fun _ => by decide⟩
      · exact ⟨fun h => absurd h (by decide), fun h => absurd h (by decide)⟩
      · exact ⟨fun h => absurd h (by decide), fun h => absurd h (by decide)⟩
    · rw [hle] at *
      exact hst.trans htu
  equivalent s t h := by
    have hkey : sampleKey s = sampleKey t := congrArg (List.map UInt16.toNat) h
    unfold sampleCompare
    rw [hkey, if_neg (lt_irrefl _), if_neg (lt_irrefl _)]

/-- An object with one name in two spellings. -/
def sampleMembers : List (Units × Value) := [([0xE9], .bool true), ([0x65, 0x301], .bool false)]

theorem sampleMembers_distinct : (Value.object sampleMembers).Distinct := by
  refine .object (by decide) fun m hm => ?_
  rcases List.mem_cons.mp hm with rfl | hm
  · exact .bool true
  · rw [List.mem_singleton.mp hm]
    exact .bool false

theorem sampleMembers_finite : (Value.object sampleMembers).Finite := by
  refine .object fun m hm => ?_
  rcases List.mem_cons.mp hm with rfl | hm
  · exact .bool true
  · rw [List.mem_singleton.mp hm]
    exact .bool false

/-- Its text depends on the order in which the two were added. -/
theorem not_canonical_sample :
    ¬Canonical sampleCollation ⟨.object sampleMembers, sampleMembers_distinct⟩ :=
  not_canonical_of_equivalent sampleMembers_distinct sampleMembers_finite List.mem_cons_self
    (List.mem_cons_of_mem _ List.mem_cons_self) (by decide) (by decide) (by decide) (by decide)

end Nullark.Core.CanonicalJson
