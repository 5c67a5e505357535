import Mathlib.Tactic

/-! # Unspent amounts

A ledger is a list of amounts of which some are spent. Recording an amount adds it to what is
unspent, spending one takes it away (`unspent`). A ledger may also keep its amounts by key, and the
keys that are spent by name (`unnamed`). -/

namespace Nullark.Lib.Ledger

/-- **The sum of the amounts that are not spent.** -/
def unspent (spent : ℕ → Bool) (amounts : List ℕ) : ℕ :=
  ∑ i ∈ Finset.range amounts.length, if spent i then 0 else amounts.getD i 0

variable {spent spent' : ℕ → Bool} {amounts : List ℕ}

@[simp] theorem unspent_nil : unspent spent [] = 0 := rfl

/-- Only the flags of recorded amounts matter. -/
theorem unspent_congr (h : ∀ i < amounts.length, spent i = spent' i) :
    unspent spent amounts = unspent spent' amounts := by
  refine Finset.sum_congr rfl fun i hi => ?_
  rw [h i (Finset.mem_range.mp hi)]

/-- **Recording an amount.** -/
theorem unspent_concat (amount : ℕ) : unspent spent (amounts ++ [amount]) =
    unspent spent amounts + if spent amounts.length then 0 else amount := by
  unfold unspent
  rw [List.length_append, List.length_singleton, Finset.sum_range_succ]
  congr 1
  · refine Finset.sum_congr rfl fun i hi => ?_
    have hlt := Finset.mem_range.mp hi
    rw [List.getD_eq_getElem?_getD, List.getD_eq_getElem?_getD, List.getElem?_append_left hlt]
  · simp [List.getD_eq_getElem?_getD]

/-- **Spending an amount.** -/
theorem unspent_spend {i amount : ℕ} (hi : amounts[i]? = some amount) (hunspent : spent i = false)
    (hnow : spent' i = true) (hothers : ∀ j < amounts.length, j ≠ i → spent' j = spent j) :
    unspent spent' amounts + amount = unspent spent amounts := by
  have hlt : i < amounts.length := (List.getElem?_eq_some_iff.mp hi).1
  have hmem : i ∈ Finset.range amounts.length := Finset.mem_range.mpr hlt
  unfold unspent
  rw [← Finset.add_sum_erase _ _ hmem, ← Finset.add_sum_erase _ _ hmem, hunspent, hnow]
  have hrest : ∑ j ∈ (Finset.range amounts.length).erase i,
      (if spent' j then 0 else amounts.getD j 0) =
        ∑ j ∈ (Finset.range amounts.length).erase i, if spent j then 0 else amounts.getD j 0 := by
    refine Finset.sum_congr rfl fun j hj => ?_
    obtain ⟨hne, hj⟩ := Finset.mem_erase.mp hj
    rw [hothers j (Finset.mem_range.mp hj) hne]
  rw [hrest, List.getD_eq_getElem?_getD, hi]
  simp [add_comm]

/-! ### Amounts by key -/

section Keys
variable {κ : Type*} [DecidableEq κ] {amount : κ → ℕ} {keys named : Finset κ} {k : κ}

/-- **The sum of the amounts of the keys that are not named.** -/
def unnamed (amount : κ → ℕ) (keys named : Finset κ) : ℕ := ∑ k ∈ keys \ named, amount k

/-- **A new key** adds its amount. -/
theorem unnamed_insert (hk : k ∉ keys) (hn : k ∉ named) (a : ℕ) :
    unnamed (Function.update amount k a) (insert k keys) named =
      unnamed amount keys named + a := by
  have hfresh : k ∉ keys \ named := fun h => hk (Finset.mem_sdiff.mp h).1
  unfold unnamed
  rw [Finset.insert_sdiff_of_notMem keys hn, Finset.sum_insert hfresh, Function.update_self, add_comm]
  congr 1
  refine Finset.sum_congr rfl fun j hj => Function.update_of_ne ?_ _ _
  rintro rfl
  exact hfresh hj

/-- **Naming a key** takes its amount away. -/
theorem unnamed_name (hk : k ∈ keys) (hn : k ∉ named) :
    unnamed amount keys (insert k named) + amount k = unnamed amount keys named := by
  have hmem : k ∈ keys \ named := Finset.mem_sdiff.mpr ⟨hk, hn⟩
  unfold unnamed
  rw [Finset.sdiff_insert, Finset.sum_erase_add _ _ hmem]

end Keys

end Nullark.Lib.Ledger
