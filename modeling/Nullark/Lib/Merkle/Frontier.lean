import Nullark.Lib.Merkle.Tree

/-! # Append-only trees kept by their frontier

An append-only tree of depth `d` keeps one slot a level. Appending the leaf number `i` walks up
from the leaf (`push`): at a level where the index is even the running node is stored in the slot
and hashed with the zero hash on its right, at an odd one the slot is its left neighbour. Slots of
levels whose binary digit in the leaf count is zero hold stale nodes.

* `Live`: the slots of the levels whose digit in the count is one hold the last complete node of
  their level. Nothing is said of the other slots.
* `push_spec`: from live slots, `push` computes the root of the tree with the new leaf, and the
  slots it leaves are live for the next count. -/

namespace Nullark.Lib.Merkle.Frontier

open Nullark.Lib.Merkle.Tree

variable {α : Type*} (hash : α → α → α)

/-- **The walk up**: `n` levels from level `l`, the running node `cur` standing at `index`. -/
def push (zero : ℕ → α) : ℕ → ℕ → (ℕ → α) → ℕ → α → (ℕ → α) × α
  | 0, _, filled, _, cur => (filled, cur)
  | n + 1, l, filled, index, cur =>
    if index % 2 = 0 then
      push zero n (l + 1) (Function.update filled l cur) (index / 2) (hash cur (zero l))
    else push zero n (l + 1) filled (index / 2) (hash (filled l) cur)

/-- **The live slots.** After `count` leaves the slot of a level whose digit is one holds the node
before the one the next leaf is below. -/
def Live (leaf : ℕ → α) (d count : ℕ) (filled : ℕ → α) : Prop :=
  ∀ l < d, count / 2 ^ l % 2 = 1 → filled l = node hash leaf l (count / 2 ^ l - 1)

theorem live_zero (leaf : ℕ → α) (d : ℕ) (filled : ℕ → α) : Live hash leaf d 0 filled := by
  intro l _ h; simp at h

/-- The frontier says nothing about leaves that are not there yet. -/
theorem Live.congr {leaf leaf' : ℕ → α} {d count : ℕ} {filled : ℕ → α}
    (h : Live hash leaf d count filled) (hl : ∀ i < count, leaf i = leaf' i) :
    Live hash leaf' d count filled := by
  intro l hld hodd
  rw [h l hld hodd]
  refine node_congr hash fun i hi => hl i ?_
  by_contra hle
  have hle := Nat.div_le_div_right (c := 2 ^ l) (not_lt.mp hle)
  rw [hi] at hle
  have := Nat.mod_le (count / 2 ^ l) 2
  omega

/-- The slots below level `l` are not touched by the walk from level `l` up. -/
theorem push_below (zero : ℕ → α) : ∀ (n l : ℕ) (filled : ℕ → α) (index : ℕ) (cur : α) {k : ℕ},
    k < l → (push hash zero n l filled index cur).1 k = filled k
  | 0, _, _, _, _, _, _ => rfl
  | n + 1, l, filled, index, cur, k, hk => by
    unfold push
    split_ifs
    · rw [push_below zero n (l + 1) _ _ _ (by omega), Function.update_of_ne (by omega)]
    · exact push_below zero n (l + 1) _ _ _ (by omega)

section Spec
variable {hash} {leaf : ℕ → α} {z : α} {d i : ℕ} (hz : ∀ k, i < k → leaf k = z)
include hz

/-- The right neighbour of the running node has only zero leaves below it. -/
theorem right_zero (l : ℕ) : node hash leaf l (i / 2 ^ l + 1) = zeroHash hash z l := by
  refine node_zero hash fun k hk => hz k ?_
  by_contra hle
  have := Nat.div_le_div_right (c := 2 ^ l) (not_lt.mp hle)
  omega

theorem join_even {l : ℕ} (h : i / 2 ^ l % 2 = 0) :
    hash (node hash leaf l (i / 2 ^ l)) (zeroHash hash z l) =
      node hash leaf (l + 1) (i / 2 ^ (l + 1)) := by
  have hp : 2 * (i / 2 ^ (l + 1)) = i / 2 ^ l := by
    rw [pow_succ, ← Nat.div_div_eq_div_mul]; omega
  rw [node_succ, hp, right_zero hz]

omit hz in
theorem join_odd {l : ℕ} (h : i / 2 ^ l % 2 = 1) :
    hash (node hash leaf l (i / 2 ^ l - 1)) (node hash leaf l (i / 2 ^ l)) =
      node hash leaf (l + 1) (i / 2 ^ (l + 1)) := by
  have hp : 2 * (i / 2 ^ (l + 1)) + 1 = i / 2 ^ l := by
    rw [pow_succ, ← Nat.div_div_eq_div_mul]; omega
  rw [node_succ, hp, show 2 * (i / 2 ^ (l + 1)) = i / 2 ^ l - 1 by omega]

omit hz in
/-- One more leaf: at a level whose digit becomes one either the digit was one already, with the
same number of complete nodes, or the running node has just been completed there. -/
theorem succ_div_cases {l : ℕ} (h : (i + 1) / 2 ^ l % 2 = 1) :
    (i / 2 ^ l % 2 = 1 ∧ (i + 1) / 2 ^ l = i / 2 ^ l) ∨
      (i / 2 ^ l % 2 = 0 ∧ (i + 1) / 2 ^ l - 1 = i / 2 ^ l) := by
  rw [Nat.succ_div] at h ⊢
  generalize i / 2 ^ l = q at h ⊢
  split_ifs at h ⊢ <;> omega

/-- **The walk keeps its promise at every level**: the running node is the tree's node, and the
slots from the current level up become live for one more leaf. -/
theorem push_spec_from : ∀ (n l : ℕ) (filled : ℕ → α) (cur : α), l + n = d →
    Live hash leaf d i filled → cur = node hash leaf l (i / 2 ^ l) →
    (∀ k, l ≤ k → k < d → (i + 1) / 2 ^ k % 2 = 1 →
      (push hash (zeroHash hash z) n l filled (i / 2 ^ l) cur).1 k =
        node hash leaf k ((i + 1) / 2 ^ k - 1)) ∧
    (push hash (zeroHash hash z) n l filled (i / 2 ^ l) cur).2 = node hash leaf d (i / 2 ^ d)
  | 0, l, filled, cur, hd, _, hcur => by
    rw [Nat.add_zero] at hd
    subst hd
    exact ⟨fun k h1 h2 => absurd h1 (by omega), hcur⟩
  | n + 1, l, filled, cur, hd, hlive, hcur => by
    have hstep : i / 2 ^ l / 2 = i / 2 ^ (l + 1) := by rw [Nat.div_div_eq_div_mul, ← pow_succ]
    unfold push
    rw [hstep]
    rcases Nat.mod_two_eq_zero_or_one (i / 2 ^ l) with he | ho
    · rw [if_pos he]
      have hlive' : Live hash leaf d i (Function.update filled l cur) := by
        intro k hk hodd
        rw [Function.update_of_ne (by rintro rfl; omega)]
        exact hlive k hk hodd
      obtain ⟨h1, h2⟩ := push_spec_from n (l + 1) (Function.update filled l cur)
        (hash cur (zeroHash hash z l)) (by omega) hlive' (by rw [hcur]; exact join_even hz he)
      refine ⟨fun k hlk hkd hodd => ?_, h2⟩
      rcases Nat.eq_or_lt_of_le hlk with rfl | hlt
      · rw [push_below hash _ _ _ _ _ _ (Nat.lt_succ_self l), Function.update_self, hcur]
        rcases succ_div_cases hodd with ⟨h, -⟩ | ⟨-, h⟩
        · omega
        · rw [h]
      · exact h1 k hlt hkd hodd
    · rw [if_neg (by omega)]
      have hl : filled l = node hash leaf l (i / 2 ^ l - 1) := hlive l (by omega) ho
      obtain ⟨h1, h2⟩ := push_spec_from n (l + 1) filled (hash (filled l) cur) (by omega) hlive
        (by rw [hcur, hl]; exact join_odd ho)
      refine ⟨fun k hlk hkd hodd => ?_, h2⟩
      rcases Nat.eq_or_lt_of_le hlk with rfl | hlt
      · rw [push_below hash _ _ _ _ _ _ (Nat.lt_succ_self l), hl]
        rcases succ_div_cases hodd with ⟨-, h⟩ | ⟨h, -⟩
        · rw [h]
        · omega
      · exact h1 k hlt hkd hodd

end Spec

/-- **Appending a leaf**: the root of the tree with the new leaf, and live slots again. -/
theorem push_spec {z : α} {d : ℕ} {leaves : List α} {x : α} {filled : ℕ → α}
    (hlt : leaves.length < 2 ^ d) (h : Live hash (padded z leaves) d leaves.length filled) :
    Live hash (padded z (leaves ++ [x])) d (leaves ++ [x]).length
        (push hash (zeroHash hash z) d 0 filled leaves.length x).1 ∧
      (push hash (zeroHash hash z) d 0 filled leaves.length x).2 =
        root hash z d (leaves ++ [x]) := by
  have hz : ∀ k, leaves.length < k → padded z (leaves ++ [x]) k = z := fun k hk =>
    padded_of_le (by simpa using hk)
  have hlive : Live hash (padded z (leaves ++ [x])) d leaves.length filled :=
    h.congr hash fun i hi => (padded_append_of_lt hi).symm
  have hx : x = node hash (padded z (leaves ++ [x])) 0 (leaves.length / 2 ^ 0) := by
    simp [padded_concat_self]
  have key := push_spec_from hz d 0 filled x (by omega) hlive hx
  rw [pow_zero, Nat.div_one] at key
  refine ⟨fun l hl hodd => ?_, ?_⟩
  · rw [List.length_append, List.length_singleton] at hodd ⊢
    exact key.1 l (Nat.zero_le l) hl hodd
  · rw [key.2, Nat.div_eq_of_lt hlt, root]

end Nullark.Lib.Merkle.Frontier
