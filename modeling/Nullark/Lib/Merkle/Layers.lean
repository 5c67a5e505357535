import Nullark.Lib.Merkle.Tree

/-! # Trees kept as dense layers

A layer is the list of the nodes of one height from the left, as far as there are leaves below them;
the positions behind its end have the zero hash of the height.

* `nextLayer`, `layers`: the layers over a list of leaves.
* `dense_nextLayer`: the next layer has the nodes of the next height. -/

namespace Nullark.Lib.Merkle.Layers

open Nullark.Lib.Merkle.Tree

variable {α : Type*} (hash : α → α → α) (z : α)

/-- The parents of a layer, of which there is at least one. -/
def nextLayer (zero : α) (previous : List α) : List α :=
  (List.range (max 1 ((previous.length + 1) / 2))).map fun p =>
    hash (previous.getD (2 * p) zero) (previous.getD (2 * p + 1) zero)

/-- **The layers over the leaves**, the leaves first. -/
def layer (leaves : List α) : ℕ → List α
  | 0 => leaves
  | l + 1 => nextLayer hash (zeroHash hash z l) (layer leaves l)

/-- The list has the nodes of height `l` at their positions. -/
def Dense (leaf : ℕ → α) (l : ℕ) (xs : List α) : Prop :=
  ∀ p, xs.getD p (zeroHash hash z l) = node hash leaf l p

variable {hash z}

theorem dense_leaves (leaves : List α) : Dense hash z (padded z leaves) 0 leaves := fun _ => rfl

/-- **The next layer.** -/
theorem dense_nextLayer {leaf : ℕ → α} {l : ℕ} {xs : List α} (h : Dense hash z leaf l xs) :
    Dense hash z leaf (l + 1) (nextLayer hash (zeroHash hash z l) xs) := by
  intro p
  unfold nextLayer
  rw [List.getD_eq_getElem?_getD, List.getElem?_map]
  rcases lt_or_ge p (max 1 ((xs.length + 1) / 2)) with hlt | hge
  · rw [List.getElem?_range hlt, Option.map_some, Option.getD_some, h, h, node_succ]
  · -- behind the end both children are zero hashes
    have hnone : (List.range (max 1 ((xs.length + 1) / 2)))[p]? = none := by
      rw [List.getElem?_eq_none_iff, List.length_range]
      exact hge
    have hend : xs.length ≤ 2 * p := by
      have := (le_max_right 1 ((xs.length + 1) / 2)).trans hge
      omega
    rw [hnone, Option.map_none, Option.getD_none, node_succ, ← h, ← h,
      List.getD_eq_default _ _ hend, List.getD_eq_default _ _ (hend.trans (Nat.le_succ _)),
      zeroHash_succ]

variable (hash z) in
theorem dense_layer (leaves : List α) : ∀ l : ℕ,
    Dense hash z (padded z leaves) l (layer hash z leaves l)
  | 0 => dense_leaves leaves
  | l + 1 => dense_nextLayer (dense_layer leaves l)

variable (hash) in
theorem length_nextLayer_pos (zero : α) (xs : List α) : 0 < (nextLayer hash zero xs).length := by
  unfold nextLayer
  rw [List.length_map, List.length_range]
  exact Nat.lt_of_lt_of_le Nat.one_pos (le_max_left _ _)

/-- The first node of a layer above the leaves is in it. -/
theorem head_layer (leaves : List α) (l : ℕ) :
    (layer hash z leaves (l + 1))[0]? = some (node hash (padded z leaves) (l + 1) 0) := by
  have hpos := length_nextLayer_pos hash (zeroHash hash z l) (layer hash z leaves l)
  have hdense := dense_layer hash z leaves (l + 1) 0
  rw [List.getD_eq_getElem?_getD] at hdense
  rw [layer] at hdense ⊢
  rw [List.getElem?_eq_getElem hpos] at hdense ⊢
  exact congrArg some hdense

/-- What holds of the leaves and stays with the hash holds of every layer. -/
theorem layer_mem {F : α → Prop} (hF : ∀ a b, F a → F b → F (hash a b)) (hz : F z)
    {leaves : List α} (hl : ∀ x ∈ leaves, F x) : ∀ l : ℕ,
    F (zeroHash hash z l) ∧ ∀ x ∈ layer hash z leaves l, F x
  | 0 => ⟨hz, hl⟩
  | l + 1 => by
    obtain ⟨hzero, hlayer⟩ := layer_mem hF hz hl l
    have hget : ∀ p, F ((layer hash z leaves l).getD p (zeroHash hash z l)) :=
      padded_mem hzero hlayer
    refine ⟨hF _ _ hzero hzero, fun x hx => ?_⟩
    obtain ⟨p, -, rfl⟩ := List.mem_map.mp hx
    exact hF _ _ (hget _) (hget _)

end Nullark.Lib.Merkle.Layers
