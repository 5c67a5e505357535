import Mathlib.Data.List.Sort
import Mathlib.Data.Prod.Lex
import Mathlib.Tactic

/-! # Sorting by a key and by a comparison

`sortOn key`: the stable sort. If no two entries have one key, the result does not depend on the
order of the list (`sortOn_perm_eq`), and a sorted list is left alone (`sortOn_of_pairwise`).

`sortBy compare`: the stable sort by a comparison that may tie on distinct entries
(`pairwise_sortBy_stable`, `pair_sublist_sortBy`). -/

namespace Nullark.Lib.Sorting

variable {α β : Type*} [LinearOrder β] {key : α → β} {l l' : List α}

/-- **The list sorted by a key**; entries of one key keep their order. -/
def sortOn (key : α → β) (l : List α) : List α := l.mergeSort fun a b => decide (key a ≤ key b)

theorem sortOn_perm : (sortOn key l).Perm l := List.mergeSort_perm l _

@[simp] theorem mem_sortOn {a : α} : a ∈ sortOn key l ↔ a ∈ l := sortOn_perm.mem_iff

theorem pairwise_sortOn : (sortOn key l).Pairwise fun a b => key a ≤ key b := by
  have hpairwise := @List.pairwise_mergeSort α (fun a b => decide (key a ≤ key b))
    (fun a b c hab hbc => by
      rw [decide_eq_true_iff] at *
      exact hab.trans hbc)
    (fun a b => by
      rw [Bool.or_eq_true, decide_eq_true_iff, decide_eq_true_iff]
      exact le_total (key a) (key b)) l
  exact hpairwise.imp fun h => of_decide_eq_true h

theorem sortOn_of_pairwise (h : l.Pairwise fun a b => key a ≤ key b) : sortOn key l = l :=
  List.mergeSort_of_pairwise (h.imp fun hab => decide_eq_true hab)

/-- Sorting looks at nothing but the keys. -/
theorem map_sortOn {γ : Type*} {key' : γ → β} {f : α → γ} (h : ∀ a, key' (f a) = key a) :
    (sortOn key l).map f = sortOn key' (l.map f) :=
  List.map_mergeSort fun a _ b _ => by rw [h, h]

/-- **The keys increase** if no two entries have the same. -/
theorem strictly_sortOn (hdistinct : l.Pairwise fun a b => key a ≠ key b) :
    (sortOn key l).Pairwise fun a b => key a < key b := by
  have hne : (sortOn key l).Pairwise fun a b => key a ≠ key b :=
    (sortOn_perm.pairwise_iff fun h => h.symm).mpr hdistinct
  exact (pairwise_sortOn.and hne).imp fun h => lt_of_le_of_ne h.1 h.2

/-- **The order of the list does not matter** if no two entries have the same key. -/
theorem sortOn_perm_eq (h : l.Perm l') (hkey : ∀ a ∈ l, ∀ b ∈ l, key a = key b → a = b) :
    sortOn key l = sortOn key l' := by
  have hperm : (sortOn key l).Perm (sortOn key l') := sortOn_perm.trans (h.trans sortOn_perm.symm)
  refine List.Perm.eq_of_pairwise (fun a b ha hb hab hba => ?_) pairwise_sortOn pairwise_sortOn hperm
  exact hkey a (mem_sortOn.mp ha) b (h.mem_iff.mpr (mem_sortOn.mp hb)) (le_antisymm hab hba)

/-! ### Comparisons -/

section Comparison
variable {compare : α → α → ℤ}

/-- **A consistent comparison**: a total order of the entries up to ties. -/
structure Consistent (compare : α → α → ℤ) : Prop where
  neg_iff : ∀ a b, compare a b < 0 ↔ 0 < compare b a
  trans : ∀ a b c, compare a b ≤ 0 → compare b c ≤ 0 → compare a c ≤ 0

/-- **The list sorted by a comparison**; entries that tie keep their order. -/
def sortBy (compare : α → α → ℤ) (l : List α) : List α :=
  l.mergeSort fun a b => decide (compare a b ≤ 0)

theorem sortBy_perm : (sortBy compare l).Perm l := List.mergeSort_perm l _

@[simp] theorem mem_sortBy {a : α} : a ∈ sortBy compare l ↔ a ∈ l := sortBy_perm.mem_iff

/-- Sorting looks at nothing but the comparison. -/
theorem map_sortBy {γ : Type*} {compare' : γ → γ → ℤ} {f : α → γ}
    (h : ∀ a b, compare' (f a) (f b) = compare a b) :
    (sortBy compare l).map f = sortBy compare' (l.map f) :=
  List.map_mergeSort fun a _ b _ => by rw [h]

namespace Consistent
variable (h : Consistent compare)
include h

theorem eq_zero_comm {a b : α} : compare a b = 0 ↔ compare b a = 0 := by
  have hab := h.neg_iff a b
  have hba := h.neg_iff b a
  omega

theorem comap {γ : Type*} (f : γ → α) : Consistent fun a b => compare (f a) (f b) where
  neg_iff a b := h.neg_iff (f a) (f b)
  trans a b c := h.trans (f a) (f b) (f c)

theorem le_trans (a b c : α) (hab : decide (compare a b ≤ 0) = true)
    (hbc : decide (compare b c ≤ 0) = true) : decide (compare a c ≤ 0) = true :=
  decide_eq_true (h.trans a b c (of_decide_eq_true hab) (of_decide_eq_true hbc))

theorem le_total (a b : α) : (decide (compare a b ≤ 0) || decide (compare b a ≤ 0)) = true := by
  have hba := h.neg_iff b a
  rw [Bool.or_eq_true, decide_eq_true_iff, decide_eq_true_iff]
  omega

theorem pairwise_sortBy : (sortBy compare l).Pairwise fun a b => compare a b ≤ 0 :=
  (List.pairwise_mergeSort h.le_trans h.le_total l).imp fun hab => of_decide_eq_true hab

/-- **Sorting is stable**: of two entries that are not out of order, the first stays first. -/
theorem pair_sublist_sortBy {a b : α} (hab : compare a b ≤ 0) (hl : [a, b].Sublist l) :
    [a, b].Sublist (sortBy compare l) :=
  List.pair_sublist_mergeSort h.le_trans h.le_total (decide_eq_true hab) hl

end Consistent

/-- Two entries of a list stand in one order or the other. -/
theorem sublist_pair_of_mem {a b : α} (hne : a ≠ b) :
    ∀ {l : List α}, a ∈ l → b ∈ l → [a, b].Sublist l ∨ [b, a].Sublist l
  | c :: l, ha, hb => by
    rcases List.mem_cons.mp ha with rfl | ha'
    · rcases List.mem_cons.mp hb with rfl | hb'
      · exact absurd rfl hne
      · exact Or.inl ((List.singleton_sublist.mpr hb').cons_cons a)
    · rcases List.mem_cons.mp hb with rfl | hb'
      · exact Or.inr ((List.singleton_sublist.mpr ha').cons_cons b)
      · exact (sublist_pair_of_mem hne ha' hb').imp (.cons c) (.cons c)

/-- In a list without repetition they stand in one order only. -/
theorem not_sublist_pair {a b : α} : ∀ {l : List α}, l.Nodup → [a, b].Sublist l →
    ¬[b, a].Sublist l
  | [], _, hab, _ => nomatch hab
  | c :: l, hnodup, hab, hba => by
    obtain ⟨hc, hnodup⟩ := List.nodup_cons.mp hnodup
    cases hab with
    | cons _ hab =>
      cases hba with
      | cons _ hba => exact not_sublist_pair hnodup hab hba
      | cons_cons _ hba => exact hc (hab.subset (List.mem_cons_of_mem a List.mem_cons_self))
    | cons_cons _ hab =>
      cases hba with
      | cons _ hba => exact hc (hba.subset (List.mem_cons_of_mem b List.mem_cons_self))
      | cons_cons _ hba => exact hc (List.singleton_sublist.mp hba)

/-- **Entries that tie stand in the order of the list.** -/
theorem pairwise_sortBy_stable (h : Consistent compare) {S : α → α → Prop} (hl : l.Pairwise S)
    (hnodup : l.Nodup) :
    (sortBy compare l).Pairwise fun a b => compare a b < 0 ∨ compare a b = 0 ∧ S a b := by
  refine List.pairwise_iff_forall_sublist.mpr fun {a b} hab => ?_
  have hle : compare a b ≤ 0 := List.pairwise_iff_forall_sublist.mp h.pairwise_sortBy hab
  rcases hle.lt_or_eq with hlt | heq
  · exact Or.inl hlt
  · have hnodup' : (sortBy compare l).Nodup := sortBy_perm.nodup_iff.mpr hnodup
    have hne : a ≠ b := by
      rintro rfl
      exact not_sublist_pair hnodup' hab hab
    have ha : a ∈ l := mem_sortBy.mp (hab.subset List.mem_cons_self)
    have hb : b ∈ l := mem_sortBy.mp (hab.subset (List.mem_cons_of_mem a List.mem_cons_self))
    rcases sublist_pair_of_mem hne ha hb with hsub | hsub
    · exact Or.inr ⟨heq, List.pairwise_iff_forall_sublist.mp hl hsub⟩
    · have hba := h.pair_sublist_sortBy (h.eq_zero_comm.mp heq).le hsub
      exact absurd hba (not_sublist_pair hnodup' hab)

end Comparison

end Nullark.Lib.Sorting
