import Mathlib.Data.List.GetD
import Mathlib.Tactic

/-! # Binary Merkle trees over an arbitrary two-to-one hash

The tree is infinite to the right: `node leaf l p` is the node of height `l` at position `p` over
the leaf function `leaf`. A finite list of leaves is read as the function that continues it with
the zero leaf (`padded`), so that the complete tree of depth `d` over a list is `root z d`.

* `node_congr`, `node_zero`: a node depends only on the leaves below it, and the node over zero
  leaves is the zero hash of its height.
* `climb`: the value a path recomputes from a leaf; `climb_siblings`: along the siblings of the
  tree it reaches the node above (the completeness of paths).
* `leaf_of_climb`, `path_of_climb`: a path that reaches the node of the tree starts at the leaf of
  the tree and has its siblings, if the hash has no collision among the pairs the two computations
  hash (the binding of paths). -/

namespace Nullark.Lib.Merkle.Tree

variable {α : Type*} (hash : α → α → α)

/-- The node of height `l` at position `p`. -/
def node (leaf : ℕ → α) : ℕ → ℕ → α
  | 0, p => leaf p
  | l + 1, p => hash (node leaf l (2 * p)) (node leaf l (2 * p + 1))

/-- The node of height `l` over zero leaves. -/
def zeroHash (z : α) : ℕ → α
  | 0 => z
  | l + 1 => hash (zeroHash z l) (zeroHash z l)

/-- The leaves in order, followed by zero leaves. -/
def padded (z : α) (leaves : List α) (i : ℕ) : α := leaves.getD i z

/-- **The root of the complete tree** of depth `d` over the leaves followed by zero leaves. -/
def root (z : α) (d : ℕ) (leaves : List α) : α := node hash (padded z leaves) d 0

@[simp] theorem node_zero_height (leaf : ℕ → α) (p : ℕ) : node hash leaf 0 p = leaf p := rfl

theorem node_succ (leaf : ℕ → α) (l p : ℕ) :
    node hash leaf (l + 1) p = hash (node hash leaf l (2 * p)) (node hash leaf l (2 * p + 1)) := rfl

@[simp] theorem zeroHash_zero (z : α) : zeroHash hash z 0 = z := rfl

theorem zeroHash_succ (z : α) (l : ℕ) :
    zeroHash hash z (l + 1) = hash (zeroHash hash z l) (zeroHash hash z l) := rfl

/-- The nodes of a height are the leaves of the tree above them. -/
theorem node_node (leaf : ℕ → α) (k : ℕ) : ∀ l p : ℕ,
    node hash (node hash leaf k) l p = node hash leaf (k + l) p
  | 0, _ => rfl
  | l + 1, p => by
    rw [node_succ, node_node leaf k l, node_node leaf k l, ← Nat.add_assoc, node_succ]

/-! ### The leaves below a node -/

theorem div_pow_succ_of_even {i l p : ℕ} (h : i / 2 ^ l = 2 * p) : i / 2 ^ (l + 1) = p := by
  rw [pow_succ, ← Nat.div_div_eq_div_mul, h]; omega

theorem div_pow_succ_of_odd {i l p : ℕ} (h : i / 2 ^ l = 2 * p + 1) : i / 2 ^ (l + 1) = p := by
  rw [pow_succ, ← Nat.div_div_eq_div_mul, h]; omega

/-- **A node depends only on the leaves below it.** -/
theorem node_congr {leaf leaf' : ℕ → α} : ∀ {l p : ℕ},
    (∀ i, i / 2 ^ l = p → leaf i = leaf' i) → node hash leaf l p = node hash leaf' l p
  | 0, p, h => h p (by simp)
  | l + 1, p, h => by
    have hl : node hash leaf l (2 * p) = node hash leaf' l (2 * p) :=
      node_congr fun i hi => h i (div_pow_succ_of_even hi)
    have hr : node hash leaf l (2 * p + 1) = node hash leaf' l (2 * p + 1) :=
      node_congr fun i hi => h i (div_pow_succ_of_odd hi)
    rw [node_succ, node_succ, hl, hr]

theorem node_const (z : α) : ∀ l p : ℕ, node hash (fun _ => z) l p = zeroHash hash z l
  | 0, _ => rfl
  | l + 1, p => by rw [node_succ, node_const z l, node_const z l, zeroHash_succ]

/-- The node over zero leaves is the zero hash of its height. -/
theorem node_zero {leaf : ℕ → α} {z : α} {l p : ℕ} (h : ∀ i, i / 2 ^ l = p → leaf i = z) :
    node hash leaf l p = zeroHash hash z l := by
  rw [← node_const hash z l p]; exact node_congr hash h

theorem padded_of_le {z : α} {leaves : List α} {i : ℕ} (h : leaves.length ≤ i) :
    padded z leaves i = z := List.getD_eq_default _ _ h

theorem padded_of_lt {z : α} {leaves : List α} {i : ℕ} (h : i < leaves.length) :
    padded z leaves i = leaves[i] := List.getD_eq_getElem _ _ h

/-- What holds of the leaves and of the value they are padded with holds of every leaf. -/
theorem padded_mem {F : α → Prop} {z : α} {leaves : List α} (hz : F z) (hl : ∀ x ∈ leaves, F x)
    (i : ℕ) : F (padded z leaves i) := by
  rcases Nat.lt_or_ge i leaves.length with hlt | hge
  · rw [padded_of_lt hlt]
    exact hl _ (List.getElem_mem hlt)
  · rw [padded_of_le hge]
    exact hz

@[simp] theorem padded_nil (z : α) : padded z [] = fun _ => z := by funext i; simp [padded]

theorem padded_append_of_lt {z : α} {leaves more : List α} {i : ℕ} (h : i < leaves.length) :
    padded z (leaves ++ more) i = padded z leaves i := List.getD_append _ _ _ _ h

theorem padded_concat_self {z : α} {leaves : List α} {x : α} :
    padded z (leaves ++ [x]) leaves.length = x := by
  rw [padded_of_lt (by simp)]; simp

theorem root_nil (z : α) (d : ℕ) : root hash z d [] = zeroHash hash z d := by
  unfold root; rw [padded_nil, node_const]

/-! ### Two hashes that agree -/

section Map
variable {β : Type*} {hash} {hash' : β → β → β} {f : α → β} {F : α → Prop}
  (hF : ∀ a b, F a → F b → F (hash a b) ∧ hash' (f a) (f b) = f (hash a b))
include hF

/-- Nodes stay in a set the hash stays in, and an image of the leaves gives the image of the node. -/
theorem node_map {leaf : ℕ → α} (hl : ∀ i, F (leaf i)) : ∀ l p : ℕ,
    F (node hash leaf l p) ∧ node hash' (fun i => f (leaf i)) l p = f (node hash leaf l p)
  | 0, p => ⟨hl p, rfl⟩
  | l + 1, p => by
    obtain ⟨hF₁, h₁⟩ := node_map hl l (2 * p)
    obtain ⟨hF₂, h₂⟩ := node_map hl l (2 * p + 1)
    rw [node_succ, node_succ, h₁, h₂]
    exact hF _ _ hF₁ hF₂

end Map

theorem padded_map {β : Type*} (f : α → β) (z : α) (leaves : List α) :
    padded (f z) (leaves.map f) = fun i => f (padded z leaves i) := by
  funext i
  simp [padded, List.getD_eq_getElem?_getD, Option.getD_map]

/-! ### Paths -/

/-- The other child of the parent of position `i`. -/
def sibling (i : ℕ) : ℕ := if i % 2 = 0 then i + 1 else i - 1

/-- One level of a path: the parent of `x`, which stands at position `i` beside `s`. -/
def join (x : α) (i : ℕ) (s : α) : α := if i % 2 = 0 then hash x s else hash s x

/-- **The value a path recomputes** from `x` at position `i`. -/
def climb : α → ℕ → List α → α
  | x, _, [] => x
  | x, i, s :: path => climb (join hash x i s) (i / 2) path

/-- The siblings on the way up from position `p` of height `l`, for `n` levels. -/
def siblings (leaf : ℕ → α) : ℕ → ℕ → ℕ → List α
  | _, _, 0 => []
  | l, p, n + 1 => node hash leaf l (sibling p) :: siblings leaf (l + 1) (p / 2) n

@[simp] theorem length_siblings (leaf : ℕ → α) : ∀ l p n : ℕ,
    (siblings hash leaf l p n).length = n
  | _, _, 0 => rfl
  | l, p, n + 1 => by rw [siblings, List.length_cons, length_siblings]

/-- What holds of every node holds of the siblings. -/
theorem siblings_mem {leaf : ℕ → α} {F : α → Prop} (h : ∀ l p, F (node hash leaf l p)) :
    ∀ l p n : ℕ, ∀ x ∈ siblings hash leaf l p n, F x
  | _, _, 0, _, hx => absurd hx List.not_mem_nil
  | l, p, n + 1, x, hx => by
    rw [siblings, List.mem_cons] at hx
    rcases hx with rfl | hx
    · exact h l (sibling p)
    · exact siblings_mem h (l + 1) (p / 2) n x hx

/-- The siblings from the bottom up. -/
theorem siblings_concat (leaf : ℕ → α) : ∀ l p n : ℕ, siblings hash leaf l p (n + 1) =
    siblings hash leaf l p n ++ [node hash leaf (l + n) (sibling (p / 2 ^ n))]
  | l, p, 0 => by simp [siblings]
  | l, p, n + 1 => by
    rw [siblings, siblings_concat leaf (l + 1) (p / 2) n, siblings, List.cons_append,
      Nat.div_div_eq_div_mul, pow_succ', show l + 1 + n = l + (n + 1) by omega]

theorem siblings_eq_map (leaf : ℕ → α) (l p : ℕ) : ∀ n : ℕ, siblings hash leaf l p n =
    (List.range n).map fun k => node hash leaf (l + k) (sibling (p / 2 ^ k))
  | 0 => rfl
  | n + 1 => by
    rw [siblings_concat, siblings_eq_map leaf l p n, List.range_succ, List.map_append,
      List.map_singleton]

/-- The siblings over an image of the leaves. -/
theorem siblings_map {β : Type*} {hash' : β → β → β} {f : α → β} {F : α → Prop}
    (hF : ∀ a b, F a → F b → F (hash a b) ∧ hash' (f a) (f b) = f (hash a b)) {leaf : ℕ → α}
    (hl : ∀ i, F (leaf i)) : ∀ l p n : ℕ,
    siblings hash' (fun i => f (leaf i)) l p n = (siblings hash leaf l p n).map f
  | _, _, 0 => rfl
  | l, p, n + 1 => by
    rw [siblings, siblings, (node_map hF hl l (sibling p)).2, siblings_map hF hl (l + 1),
      List.map_cons]

theorem node_parent (leaf : ℕ → α) (l p : ℕ) :
    node hash leaf (l + 1) (p / 2) = join hash (node hash leaf l p) p (node hash leaf l (sibling p)) := by
  rw [node_succ]
  unfold join sibling
  rcases Nat.mod_two_eq_zero_or_one p with h | h
  · rw [if_pos h, if_pos h, show 2 * (p / 2) = p by omega]
  · rw [if_neg (by omega), if_neg (by omega), show 2 * (p / 2) + 1 = p by omega,
      show 2 * (p / 2) = p - 1 by omega]

/-- **Paths are complete**: along its siblings a node climbs to the node above it. -/
theorem climb_siblings (leaf : ℕ → α) : ∀ n l p : ℕ,
    climb hash (node hash leaf l p) p (siblings hash leaf l p n) =
      node hash leaf (l + n) (p / 2 ^ n)
  | 0, l, p => by simp [climb, siblings]
  | n + 1, l, p => by
    rw [siblings, climb, ← node_parent, climb_siblings leaf n (l + 1) (p / 2),
      Nat.div_div_eq_div_mul, pow_succ', show l + 1 + n = l + (n + 1) by omega]

/-- The leaf `i` climbs to the root. -/
theorem climb_leaf {leaf : ℕ → α} {d i : ℕ} (h : i < 2 ^ d) :
    climb hash (leaf i) i (siblings hash leaf 0 i d) = node hash leaf d 0 := by
  have := climb_siblings hash leaf d 0 i
  rwa [Nat.div_eq_of_lt h, Nat.zero_add] at this

/-! ### Paths are binding -/

/-- The pair hashed at one level of a path. -/
def pair (x : α) (i : ℕ) (s : α) : α × α := if i % 2 = 0 then (x, s) else (s, x)

/-- The pairs hashed along a path. -/
def pairs : α → ℕ → List α → List (α × α)
  | _, _, [] => []
  | x, i, s :: path => pair x i s :: pairs (join hash x i s) (i / 2) path

/-- The hash separates the pairs of `K`. -/
def InjectiveOn (K : α → α → Prop) : Prop :=
  ∀ ⦃a b c d⦄, K a b → K c d → hash a b = hash c d → a = c ∧ b = d

/-- Every pair hashed by the tree of depth `d` over `leaf` is in `K`. -/
def NodesIn (K : α → α → Prop) (leaf : ℕ → α) (d : ℕ) : Prop :=
  ∀ l p, l < d → p < 2 ^ (d - 1 - l) → K (node hash leaf l (2 * p)) (node hash leaf l (2 * p + 1))

variable {hash}

/-- **Paths are binding.** A path from `x` at position `p` of height `l` that reaches the tree's
node starts at the tree's node, if the hash separates the pairs both computations hash. -/
theorem eq_of_climb {K : α → α → Prop} (hK : InjectiveOn hash K) {leaf : ℕ → α} :
    ∀ {path : List α} {x : α} {l p : ℕ},
      (∀ q ∈ pairs hash x p path, K q.1 q.2) →
      (∀ k < path.length, K (node hash leaf (l + k) (2 * (p / 2 ^ (k + 1))))
        (node hash leaf (l + k) (2 * (p / 2 ^ (k + 1)) + 1))) →
      climb hash x p path = node hash leaf (l + path.length) (p / 2 ^ path.length) →
      x = node hash leaf l p
  | [], x, l, p, _, _, h => by simpa [climb] using h
  | s :: path, x, l, p, hp, hn, h => by
    have hpar : join hash x p s = node hash leaf (l + 1) (p / 2) := by
      refine eq_of_climb hK (fun q hq => hp q (List.mem_cons_of_mem _ hq))
        (fun k hk => ?_) ?_
      · have := hn (k + 1) (by simpa using hk)
        rwa [pow_succ' 2 (k + 1), ← Nat.div_div_eq_div_mul,
          show l + (k + 1) = l + 1 + k by omega] at this
      · rw [climb, List.length_cons, pow_succ', ← Nat.div_div_eq_div_mul,
          show l + (path.length + 1) = l + 1 + path.length by omega] at h
        exact h
    have h0 := hn 0 (by simp)
    simp only [Nat.add_zero, zero_add, pow_one] at h0
    have hq := hp (pair x p s) (by simp [pairs])
    rw [node_succ] at hpar
    unfold join at hpar
    unfold pair at hq
    rcases Nat.mod_two_eq_zero_or_one p with hm | hm
    · rw [if_pos hm] at hpar hq
      have := (hK hq h0 hpar).1
      rwa [show 2 * (p / 2) = p by omega] at this
    · rw [if_neg (by omega)] at hpar hq
      have := (hK hq h0 hpar).2
      rwa [show 2 * (p / 2) + 1 = p by omega] at this

/-- **A path that reaches the node of the tree has the siblings of the tree**, with the same
assumptions. -/
theorem siblings_of_climb {K : α → α → Prop} (hK : InjectiveOn hash K) {leaf : ℕ → α} :
    ∀ {path : List α} {x : α} {l p : ℕ},
      (∀ q ∈ pairs hash x p path, K q.1 q.2) →
      (∀ k < path.length, K (node hash leaf (l + k) (2 * (p / 2 ^ (k + 1))))
        (node hash leaf (l + k) (2 * (p / 2 ^ (k + 1)) + 1))) →
      climb hash x p path = node hash leaf (l + path.length) (p / 2 ^ path.length) →
      path = siblings hash leaf l p path.length
  | [], _, _, _, _, _, _ => rfl
  | s :: path, x, l, p, hp, hn, h => by
    have hrest : ∀ q ∈ pairs hash (join hash x p s) (p / 2) path, K q.1 q.2 := fun q hq =>
      hp q (List.mem_cons_of_mem _ hq)
    have hnodes : ∀ k < path.length,
        K (node hash leaf (l + 1 + k) (2 * (p / 2 / 2 ^ (k + 1))))
          (node hash leaf (l + 1 + k) (2 * (p / 2 / 2 ^ (k + 1)) + 1)) := by
      intro k hk
      have habove := hn (k + 1) (by simpa using hk)
      rwa [pow_succ' 2 (k + 1), ← Nat.div_div_eq_div_mul,
        show l + (k + 1) = l + 1 + k by omega] at habove
    rw [climb, List.length_cons, pow_succ', ← Nat.div_div_eq_div_mul,
      show l + (path.length + 1) = l + 1 + path.length by omega] at h
    have hparent := eq_of_climb hK hrest hnodes h
    have hsiblings := siblings_of_climb hK hrest hnodes h
    have hq := hp (pair x p s) List.mem_cons_self
    have hpair := hn 0 (by simp)
    rw [Nat.add_zero, zero_add, pow_one] at hpair
    rw [node_succ] at hparent
    unfold join at hparent
    unfold pair at hq
    have hs : s = node hash leaf l (sibling p) := by
      unfold sibling
      rcases Nat.mod_two_eq_zero_or_one p with hm | hm
      · rw [if_pos hm] at hparent hq ⊢
        have hright : s = node hash leaf l (2 * (p / 2) + 1) := (hK hq hpair hparent).2
        rwa [show 2 * (p / 2) + 1 = p + 1 by omega] at hright
      · rw [if_neg (by omega)] at hparent hq ⊢
        have hleft : s = node hash leaf l (2 * (p / 2)) := (hK hq hpair hparent).1
        rwa [show 2 * (p / 2) = p - 1 by omega] at hleft
    rw [List.length_cons, siblings, ← hs, ← hsiblings]

/-- The pairs on the way from a leaf to the root. -/
theorem NodesIn.above {K : α → α → Prop} {leaf : ℕ → α} {d i : ℕ} (h : NodesIn hash K leaf d)
    (hi : i < 2 ^ d) : ∀ k < d, K (node hash leaf (0 + k) (2 * (i / 2 ^ (k + 1))))
      (node hash leaf (0 + k) (2 * (i / 2 ^ (k + 1)) + 1)) := by
  intro k hk
  rw [zero_add]
  refine h k _ hk ?_
  rw [Nat.div_lt_iff_lt_mul (by positivity), ← pow_add]
  rwa [show d - 1 - k + (k + 1) = d by omega]

/-- The pairs hashed along the siblings of the tree are those of the tree. -/
theorem pairs_siblings {K : α → α → Prop} {leaf : ℕ → α} : ∀ {n l p : ℕ},
    (∀ k < n, K (node hash leaf (l + k) (2 * (p / 2 ^ (k + 1))))
      (node hash leaf (l + k) (2 * (p / 2 ^ (k + 1)) + 1))) →
    ∀ q ∈ pairs hash (node hash leaf l p) p (siblings hash leaf l p n), K q.1 q.2
  | 0, _, _, _, q, hq => absurd hq List.not_mem_nil
  | n + 1, l, p, hn, q, hq => by
    rw [siblings, pairs, List.mem_cons, ← node_parent] at hq
    rcases hq with rfl | hq
    · have h0 := hn 0 (Nat.succ_pos n)
      rw [Nat.add_zero, zero_add, pow_one] at h0
      unfold pair sibling
      rcases Nat.mod_two_eq_zero_or_one p with hm | hm
      · rw [if_pos hm, if_pos hm]
        rwa [show 2 * (p / 2) = p by omega] at h0
      · rw [if_neg (by omega), if_neg (by omega)]
        rwa [show 2 * (p / 2) + 1 = p by omega, show 2 * (p / 2) = p - 1 by omega] at h0
    · refine pairs_siblings (fun k hk => ?_) q hq
      have hk' := hn (k + 1) (Nat.succ_lt_succ hk)
      rwa [pow_succ' 2 (k + 1), ← Nat.div_div_eq_div_mul,
        show l + (k + 1) = l + 1 + k by omega] at hk'

/-- Along the path of a leaf only pairs of the tree are hashed. -/
theorem NodesIn.pairs {K : α → α → Prop} {leaf : ℕ → α} {d i : ℕ} (h : NodesIn hash K leaf d)
    (hi : i < 2 ^ d) : ∀ q ∈ pairs hash (leaf i) i (siblings hash leaf 0 i d), K q.1 q.2 :=
  pairs_siblings (l := 0) (h.above hi)

/-- The form for a whole path: a path of the tree's depth to the root starts at the leaf. -/
theorem leaf_of_climb {K : α → α → Prop} (hK : InjectiveOn hash K) {leaf : ℕ → α} {path : List α}
    {x : α} {i : ℕ} (hi : i < 2 ^ path.length) (hp : ∀ q ∈ pairs hash x i path, K q.1 q.2)
    (hn : NodesIn hash K leaf path.length)
    (h : climb hash x i path = node hash leaf path.length 0) : x = leaf i :=
  eq_of_climb hK (l := 0) hp (hn.above hi) (by rw [Nat.div_eq_of_lt hi, zero_add]; exact h)

/-- A path of the tree's depth to the root is the path of the tree. -/
theorem path_of_climb {K : α → α → Prop} (hK : InjectiveOn hash K) {leaf : ℕ → α} {path : List α}
    {x : α} {i : ℕ} (hi : i < 2 ^ path.length) (hp : ∀ q ∈ pairs hash x i path, K q.1 q.2)
    (hn : NodesIn hash K leaf path.length)
    (h : climb hash x i path = node hash leaf path.length 0) :
    path = siblings hash leaf 0 i path.length :=
  siblings_of_climb hK hp (hn.above hi) (by rw [Nat.div_eq_of_lt hi, zero_add]; exact h)
/-! ### Hashes without collisions -/

section Injective
variable (hinj : Function.Injective2 hash)
include hinj

/-- **A node determines the leaves below it.** -/
theorem node_injective {leaf leaf' : ℕ → α} : ∀ {l p q : ℕ},
    node hash leaf l p = node hash leaf' l q →
    ∀ j < 2 ^ l, leaf (p * 2 ^ l + j) = leaf' (q * 2 ^ l + j)
  | 0, p, q, h, j, hj => by
    have hzero : j = 0 := by rw [pow_zero] at hj; omega
    rw [hzero, pow_zero, Nat.mul_one, Nat.mul_one, Nat.add_zero, Nat.add_zero]
    exact h
  | l + 1, p, q, h, j, hj => by
    obtain ⟨hleft, hright⟩ := hinj h
    rw [pow_succ] at hj ⊢
    have hposition : ∀ r : ℕ, r * (2 ^ l * 2) = 2 * r * 2 ^ l := fun r => by ring
    rw [hposition, hposition]
    rcases lt_or_ge j (2 ^ l) with hlt | hge
    · exact node_injective hleft j hlt
    · have hrest := node_injective hright (j - 2 ^ l) (by omega)
      have hplace : ∀ r : ℕ, (2 * r + 1) * 2 ^ l + (j - 2 ^ l) = 2 * r * 2 ^ l + j := fun r => by
        rw [Nat.add_mul, Nat.one_mul]
        omega
      rw [hplace, hplace] at hrest
      exact hrest

/-- **A root determines the leaf and the path** that climb to it. -/
theorem climb_injective : ∀ {path path' : List α} {x y : α} {i : ℕ},
    path.length = path'.length → climb hash x i path = climb hash y i path' → x = y ∧ path = path'
  | [], [], _, _, _, _, h => ⟨h, rfl⟩
  | [], _ :: _, _, _, _, hlen, _ => by cases hlen
  | _ :: _, [], _, _, _, hlen, _ => by cases hlen
  | s :: path, s' :: path', x, y, i, hlen, h => by
    obtain ⟨hjoin, rfl⟩ := climb_injective (Nat.succ.inj hlen) h
    unfold join at hjoin
    split_ifs at hjoin
    · obtain ⟨rfl, rfl⟩ := hinj hjoin
      exact ⟨rfl, rfl⟩
    · obtain ⟨rfl, rfl⟩ := hinj hjoin
      exact ⟨rfl, rfl⟩

end Injective

end Nullark.Lib.Merkle.Tree
