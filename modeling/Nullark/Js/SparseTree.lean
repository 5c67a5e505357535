import Nullark.Js.Basic
import Nullark.Lib.Ordered

/-! # Trees kept as sparse layers

The SDK and the web application both recompute a Merkle path from maps that hold one layer of the
tree each, without the nodes over zero leaves. They differ in how they check the hashes they compute
and in how they print a node, which are parameters here.

* `Layer`: a map holds a layer of the tree.
* `nextLayer_spec`: the next layer.
* `climbLayers_spec`: the loop computes the siblings of the tree and ends in the layer of the root. -/

namespace Nullark.Js.SparseTree

open Nullark.Lib.Outcome Nullark.Lib.Hex Nullark.Lib.Ordered Nullark.Lib.Merkle.Tree
open Nullark.Js.Basic

/-! ### The code -/

section Code
variable (pairHash : ℕ → ℕ → Throws ℕ) (print : ℕ → Throws Text)

/-- One round of the loop that fills the table of zero hashes. -/
def pushZeroHash (zeroHashes : List ℕ) (level : ℕ) : Throws (List ℕ) := do
  let zeroHash := zeroHashes.getD level 0
  let next ← pairHash zeroHash zeroHash
  return zeroHashes ++ [next]

/-- `buildMerkleZeroHashes`. -/
def buildMerkleZeroHashes (depth : ℕ) : Throws (List ℕ) :=
  (List.range depth).foldlM (pushZeroHash pairHash) [0]

/-- The node of one parent. -/
def setParent (layer : JsMap ℤ ℕ) (zeroHash : ℕ) (next : JsMap ℤ ℕ) (parentIndex : ℤ) :
    Throws (JsMap ℤ ℕ) := do
  let left := (get layer (parentIndex * 2)).getD zeroHash
  let right := (get layer (parentIndex * 2 + 1)).getD zeroHash
  let parent ← pairHash left right
  return set next parentIndex parent

/-- `buildNextSparseMerkleLayer`. -/
def buildNextSparseMerkleLayer (layer : JsMap ℤ ℕ) (zeroHash : ℕ) : Throws (JsMap ℤ ℕ) :=
  let parentIndexes := (keys layer).foldl (fun s index => add s (index / 2)) []
  parentIndexes.foldlM (setParent pairHash layer zeroHash) []

/-- The variables of the loop over the levels. -/
structure Climb where
  layer : JsMap ℤ ℕ
  cursor : ℕ
  pathElements : List Text
  pathIndices : List ℕ

/-- One round of that loop. -/
def climbLayer (zeroHashes : List ℕ) (s : Climb) (level : ℕ) : Throws Climb := do
  let zeroHash := zeroHashes.getD level 0
  let sibling := (get s.layer (bitXor s.cursor 1)).getD zeroHash
  let element ← print sibling
  let layer ← buildNextSparseMerkleLayer pairHash s.layer zeroHash
  return {
    layer
    cursor := s.cursor / 2
    pathElements := s.pathElements ++ [element]
    pathIndices := s.pathIndices ++ [s.cursor % 2] }

/-- The layer of the leaves. -/
def leafLayer (leaves : List ℕ) : JsMap ℤ ℕ :=
  leaves.zipIdx.foldl (fun layer e => set layer (e.2 : ℤ) e.1) []

def climbLayers (zeroHashes leaves : List ℕ) (leafIndex depth : ℕ) : Throws Climb :=
  (List.range depth).foldlM (climbLayer pairHash print zeroHashes)
    ⟨leafLayer leaves, leafIndex, [], []⟩

/-- The root in the last layer. -/
def rootOf (zeroHashes : List ℕ) (depth : ℕ) (layer : JsMap ℤ ℕ) : ℕ :=
  (get layer 0).getD (zeroHashes.getD depth 0)

end Code

/-! ### Folds that do not fail -/

theorem foldlM_concat_ok {σ α : Type} {f : σ → α → Throws σ} {l : List α} {a : α} {s s' : σ}
    (hl : l.foldlM f s = .ok s') : (l ++ [a]).foldlM f s = f s' a := by
  rw [List.foldlM_append, hl, ok_bind]
  simp

section Spec
variable {pairHash : ℕ → ℕ → Throws ℕ} {print : ℕ → Throws Text} {hash : ℕ → ℕ → ℕ} {F : ℕ → Prop}
  (hF : ∀ a b, F a → F b → F (hash a b) ∧ pairHash a b = .ok (hash a b))
include hF

theorem zeroHash_mem (hz : F 0) : ∀ l, F (zeroHash hash 0 l)
  | 0 => hz
  | l + 1 => (hF _ _ (zeroHash_mem hz l) (zeroHash_mem hz l)).1

theorem node_mem {leaf : ℕ → ℕ} (hl : ∀ i, F (leaf i)) : ∀ l p, F (node hash leaf l p)
  | 0, _ => hl _
  | l + 1, _ => (hF _ _ (node_mem hl l _) (node_mem hl l _)).1

/-- **The table of zero hashes.** -/
theorem buildMerkleZeroHashes_ok (hz : F 0) : ∀ depth : ℕ,
    buildMerkleZeroHashes pairHash depth =
      .ok ((List.range (depth + 1)).map (zeroHash hash 0))
  | 0 => rfl
  | depth + 1 => by
    have ih := buildMerkleZeroHashes_ok hz depth
    have hlast : ((List.range (depth + 1)).map (zeroHash hash 0)).getD depth 0 =
        zeroHash hash 0 depth := by simp [List.getD_eq_getElem?_getD]
    have hnext := (hF _ _ (zeroHash_mem hF hz depth) (zeroHash_mem hF hz depth)).2
    unfold buildMerkleZeroHashes at *
    rw [List.range_succ, foldlM_concat_ok ih, pushZeroHash, hlast, hnext, ok_bind,
      List.range_succ (n := depth + 1), List.map_append]
    rfl

/-! ### Layers -/

omit hF in
/-- **The map holds the layer `l` of the tree**: its entries are nodes at their positions, and the
nodes it leaves out are zero hashes. -/
structure Layer (hash : ℕ → ℕ → ℕ) (leaf : ℕ → ℕ) (l : ℕ) (m : JsMap ℤ ℕ) : Prop where
  entry : ∀ k v, get m k = some v → ∃ i : ℕ, k = i ∧ v = node hash leaf l i
  absent : ∀ i : ℕ, get m (i : ℤ) = none → node hash leaf l i = zeroHash hash 0 l

omit hF in
theorem Layer.getD {leaf : ℕ → ℕ} {l : ℕ} {m : JsMap ℤ ℕ} (h : Layer hash leaf l m) (i : ℕ) :
    (get m (i : ℤ)).getD (zeroHash hash 0 l) = node hash leaf l i := by
  rcases hg : get m (i : ℤ) with _ | v
  · exact (h.absent i hg).symm
  · obtain ⟨j, hj, rfl⟩ := h.entry _ _ hg
    have hij : i = j := by exact_mod_cast hj
    rw [hij, Option.getD_some]

/-- The parents, one after another. -/
theorem setParents_spec {leaf : ℕ → ℕ} (hl : ∀ i, F (leaf i)) {l : ℕ} {m : JsMap ℤ ℕ}
    (h : Layer hash leaf l m) : ∀ (parents : List ℤ) (next : JsMap ℤ ℕ),
    (∀ q ∈ parents, ∃ j : ℕ, q = j) →
    ∃ next', parents.foldlM (setParent pairHash m (zeroHash hash 0 l)) next = .ok next' ∧
      ∀ k, get next' k =
        if k ∈ parents then some (node hash leaf (l + 1) k.toNat) else get next k
  | [], next, _ => ⟨next, rfl, fun k => by simp⟩
  | q :: parents, next, hq => by
    obtain ⟨j, rfl⟩ := hq q List.mem_cons_self
    have hleft : (get m ((j : ℤ) * 2)).getD (zeroHash hash 0 l) = node hash leaf l (2 * j) := by
      rw [← h.getD (2 * j)]
      congr 2
      push_cast
      ring
    have hright : (get m ((j : ℤ) * 2 + 1)).getD (zeroHash hash 0 l) =
        node hash leaf l (2 * j + 1) := by
      rw [← h.getD (2 * j + 1)]
      congr 2
      push_cast
      ring
    have hpair := (hF _ _ (node_mem hF hl l (2 * j)) (node_mem hF hl l (2 * j + 1))).2
    have hset : setParent pairHash m (zeroHash hash 0 l) next (j : ℤ) =
        .ok (set next (j : ℤ) (node hash leaf (l + 1) j)) := by
      unfold setParent
      rw [hleft, hright]
      dsimp only
      rw [hpair, ok_bind]
      rfl
    obtain ⟨next', hfold, hget⟩ := setParents_spec hl h parents
      (set next (j : ℤ) (node hash leaf (l + 1) j)) fun q hmem => hq q (List.mem_cons_of_mem _ hmem)
    refine ⟨next', by rw [List.foldlM_cons, hset, ok_bind, hfold], fun k => ?_⟩
    rw [hget, get_set]
    by_cases hmem : k ∈ parents
    · rw [if_pos hmem, if_pos (List.mem_cons_of_mem _ hmem)]
    · by_cases hk : k = j
      · rw [if_neg hmem, if_pos hk, if_pos (hk ▸ List.mem_cons_self), hk, Int.toNat_natCast]
      · rw [if_neg hmem, if_neg hk, if_neg fun hin => (List.mem_cons.mp hin).elim hk hmem]

/-- **The next layer.** -/
theorem nextLayer_spec {leaf : ℕ → ℕ} (hl : ∀ i, F (leaf i)) {l : ℕ} {m : JsMap ℤ ℕ}
    (h : Layer hash leaf l m) :
    ∃ m', buildNextSparseMerkleLayer pairHash m (zeroHash hash 0 l) = .ok m' ∧
      Layer hash leaf (l + 1) m' := by
  unfold buildNextSparseMerkleLayer
  -- the parents are the halves of the positions the layer has
  have hmem : ∀ k : ℤ, k ∈ (keys m).foldl (fun s index => add s (index / 2)) [] ↔
      ∃ i : ℕ, (i : ℤ) ∈ keys m ∧ k = (i / 2 : ℕ) := by
    intro k
    rw [mem_foldl_add]
    constructor
    · rintro (hnil | ⟨b, hb, rfl⟩)
      · exact absurd hnil List.not_mem_nil
      · obtain ⟨v, hv⟩ := mem_keys.mp hb
        obtain ⟨i, rfl, -⟩ := h.entry b v hv
        exact ⟨i, hb, by push_cast; rfl⟩
    · rintro ⟨i, hi, rfl⟩
      exact .inr ⟨i, hi, by push_cast; rfl⟩
  obtain ⟨m', hfold, hget⟩ := setParents_spec hF hl h
    ((keys m).foldl (fun s index => add s (index / 2)) []) []
    fun q hq => by obtain ⟨i, -, rfl⟩ := (hmem q).mp hq; exact ⟨_, rfl⟩
  refine ⟨m', hfold, fun k v hv => ?_, fun i hi => ?_⟩
  · rw [hget] at hv
    split_ifs at hv with hk
    · obtain ⟨i, -, rfl⟩ := (hmem k).mp hk
      refine ⟨i / 2, rfl, ?_⟩
      rw [← Option.some.inj hv, Int.toNat_natCast]
    · cases hv
  · rw [hget] at hi
    split_ifs at hi with hk
    have hnone : ∀ j : ℕ, j / 2 = i → get m (j : ℤ) = none := fun j hj =>
      get_eq_none fun hin => hk ((hmem i).mpr ⟨j, hin, by rw [hj]⟩)
    rw [node_succ, h.absent _ (hnone (2 * i) (by omega)), h.absent _ (hnone (2 * i + 1) (by omega)),
      zeroHash_succ]

omit hF in
theorem leafLayer_concat (leaves : List ℕ) (leaf : ℕ) :
    leafLayer (leaves ++ [leaf]) = set (leafLayer leaves) leaves.length leaf := by
  simp [leafLayer, List.zipIdx_append]

omit hF in
theorem get_leafLayer (leaves : List ℕ) (k : ℤ) :
    get (leafLayer leaves) k = if 0 ≤ k then leaves[k.toNat]? else none := by
  induction leaves using List.reverseRecOn with
  | nil => simp [leafLayer]
  | append_singleton leaves leaf ih =>
    rw [leafLayer_concat, get_set, ih]
    by_cases hk : k = leaves.length
    · rw [if_pos hk, if_pos (by omega), hk, Int.toNat_natCast]
      simp
    · rw [if_neg hk]
      by_cases hpos : 0 ≤ k
      · rw [if_pos hpos, if_pos hpos]
        rcases Nat.lt_or_ge k.toNat leaves.length with hlt | hge
        · rw [List.getElem?_append_left hlt]
        · rw [List.getElem?_eq_none hge, List.getElem?_eq_none]
          rw [List.length_append, List.length_singleton]
          omega
      · rw [if_neg hpos, if_neg hpos]

omit hF in
/-- The layer of the leaves. -/
theorem leafLayer_spec (leaves : List ℕ) : Layer hash (padded 0 leaves) 0 (leafLayer leaves) := by
  refine ⟨fun k v hv => ?_, fun i hi => ?_⟩
  · rw [get_leafLayer] at hv
    split_ifs at hv with hk
    · refine ⟨k.toNat, by omega, ?_⟩
      rw [node_zero_height, padded, List.getD_eq_getElem?_getD, hv, Option.getD_some]
  · rw [get_leafLayer, if_pos (by omega), Int.toNat_natCast] at hi
    rw [node_zero_height, padded, List.getD_eq_getElem?_getD, hi, Option.getD_none, zeroHash_zero]

/-! ### The loop -/

/-- **The loop over the levels** pushes the siblings of the tree and the bits of the index, and ends
in the layer of the root. -/
theorem climbLayers_spec {text : ℕ → Text} (hprint : ∀ v, F v → print v = .ok (text v)) (hz : F 0)
    {leaves : List ℕ} (hl : ∀ v ∈ leaves, F v) {leafIndex : ℕ} (hi : leafIndex < 2 ^ 31)
    (depth : ℕ) : ∀ n ≤ depth, ∃ m,
      (List.range n).foldlM (climbLayer pairHash print ((List.range (depth + 1)).map
          (zeroHash hash 0))) ⟨leafLayer leaves, leafIndex, [], []⟩ =
        .ok ⟨m, leafIndex / 2 ^ n,
          (siblings hash (padded 0 leaves) 0 leafIndex n).map text, indexBits leafIndex n⟩ ∧
      Layer hash (padded 0 leaves) n m
  | 0, _ => ⟨leafLayer leaves, by simp [siblings, indexBits]; rfl, leafLayer_spec leaves⟩
  | n + 1, hn => by
    obtain ⟨m, hfold, hlayer⟩ := climbLayers_spec hprint hz hl hi depth n (by omega)
    have hleaf : ∀ i, F (padded 0 leaves i) := padded_mem hz hl
    have hzero : ((List.range (depth + 1)).map (zeroHash hash 0)).getD n 0 = zeroHash hash 0 n := by
      have hlt : n < depth + 1 := by omega
      simp [List.getD_eq_getElem?_getD, hlt]
    have hcursor : leafIndex / 2 ^ n < 2 ^ 31 := (Nat.div_le_self _ _).trans_lt hi
    have hsibling := hlayer.getD (sibling (leafIndex / 2 ^ n))
    have hprinted := hprint _ (node_mem hF hleaf n (sibling (leafIndex / 2 ^ n)))
    obtain ⟨m', hnext, hlayer'⟩ := nextLayer_spec hF hleaf hlayer
    have hrange : List.range (n + 1) = List.range n ++ [n] := List.range_succ
    refine ⟨m', ?_, hlayer'⟩
    rw [hrange, foldlM_concat_ok hfold]
    unfold climbLayer
    rw [hzero]
    dsimp only
    rw [bitXor_one hcursor, hsibling, hprinted, ok_bind, hnext, ok_bind, siblings_concat,
      indexBits_concat, Nat.zero_add, List.map_append, Nat.div_div_eq_div_mul, ← pow_succ]
    rfl

/-- **The path and the root.** -/
theorem climb_spec {text : ℕ → Text} (hprint : ∀ v, F v → print v = .ok (text v)) (hz : F 0)
    {leaves : List ℕ} (hl : ∀ v ∈ leaves, F v) {leafIndex depth : ℕ} (hi : leafIndex < 2 ^ 31) :
    ∃ m, climbLayers pairHash print ((List.range (depth + 1)).map (zeroHash hash 0)) leaves leafIndex
        depth = .ok ⟨m, leafIndex / 2 ^ depth,
          (siblings hash (padded 0 leaves) 0 leafIndex depth).map text,
          indexBits leafIndex depth⟩ ∧
      rootOf ((List.range (depth + 1)).map (zeroHash hash 0)) depth m =
        root hash 0 depth leaves := by
  obtain ⟨m, hfold, hlayer⟩ := climbLayers_spec hF hprint hz hl hi depth depth le_rfl
  refine ⟨m, hfold, ?_⟩
  have hzero : ((List.range (depth + 1)).map (zeroHash hash 0)).getD depth 0 =
      zeroHash hash 0 depth := by simp [List.getD_eq_getElem?_getD]
  unfold rootOf root
  rw [hzero]
  exact hlayer.getD 0

end Spec

end Nullark.Js.SparseTree
