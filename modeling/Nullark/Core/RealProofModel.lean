import Nullark.Lib.Merkle.Layers
import Nullark.Js.Signals
import Nullark.Js.SparseTree
import Nullark.Pool.Capacity

/-! # The reference model of the proofs

The append-only tree of the core package, its paths, and the hashes of notes. A tree recomputes all
of its layers for every path it returns; an append that fails may still have added its leaf.

* `leaves_appends`: the leaves after any calls.
* `append_spec`: what the next call returns.
* `verifies_iff`: which paths to the root of a tree verify, when no collision is known.
* `model_spends`: over the leaves of the pool the model has what the pool and the circuits have. -/

namespace Nullark.Core.RealProofModel

open Nullark.Lib.Outcome Nullark.Lib.Hex Nullark.Lib.Rollback
open Nullark.Lib.Merkle.Tree Nullark.Lib.Merkle.Layers
open Nullark.Evm.Basic Nullark.Pool.Interface Nullark.Pool.Tree Nullark.Pool.Context
open Nullark.Pool.Actions Nullark.Pool.Calls Nullark.Pool.History Nullark.Pool.Conservation
open Nullark.Circuit Nullark.Circuit.Field Nullark.Circuit.Gadgets Nullark.Circuit.V12
open Nullark.Js.Basic Nullark.Js.SparseTree

abbrev FieldElement := ℤ

abbrev FieldHash := List FieldElement → FieldElement

structure RealProofNotePreimage where
  assetId : FieldElement
  amount : FieldElement
  ownerCommitment : FieldElement
  noteSecret : FieldElement

structure NullifierContext where
  noteSecret : FieldElement
  leafIndex : ℤ
  chainId : ℤ
  verifyingContract : FieldElement

structure MerklePath where
  leafIndex : ℤ
  root : FieldElement
  pathElements : List FieldElement
  pathIndices : List ℤ
  deriving DecidableEq

@[ext] structure AppendOnlyMerkleTree where
  depth : ℕ
  zeroValue : FieldElement
  leaves : List FieldElement

/-! ### The code -/

/-- The value is an element of the field. -/
def IsField (value : FieldElement) : Prop := 0 ≤ value ∧ value < bn254ScalarField

instance : DecidablePred IsField := fun value =>
  inferInstanceAs (Decidable (0 ≤ value ∧ value < (bn254ScalarField : ℤ)))

def isSafeInteger (value : ℤ) : Prop := |value| ≤ 2 ^ 53 - 1

instance : DecidablePred isSafeInteger := fun value =>
  inferInstanceAs (Decidable (|value| ≤ 2 ^ 53 - 1))

def assertFieldElement (value : FieldElement) (fieldName : String) : Throws Unit :=
  ensure (IsField value) (fieldName ++ " must be a BN254 field element")

def assertPositiveFieldElement (value : FieldElement) (fieldName : String) : Throws Unit := do
  assertFieldElement value fieldName
  ensure (value ≠ 0) (fieldName ++ " must be positive")

def assertSafePositiveInteger (value : ℤ) (fieldName : String) : Throws Unit :=
  ensure (isSafeInteger value ∧ ¬value ≤ 0) (fieldName ++ " must be a positive safe integer")

def assertSafeNonnegativeInteger (value : ℤ) (fieldName : String) : Throws Unit :=
  ensure (isSafeInteger value ∧ ¬value < 0) (fieldName ++ " must be a nonnegative safe integer")

def normalizeHashOutput (value : FieldElement) (fieldName : String) : Throws FieldElement := do
  assertFieldElement value fieldName
  return value

def fieldElementToBytes32 (value : FieldElement) : Throws Text := do
  assertFieldElement value "value"
  return padHex32 value.toNat

section Code
variable (hash : FieldHash)

def deriveNoteCommitment (note : RealProofNotePreimage) : Throws FieldElement := do
  assertFieldElement note.assetId "assetId"
  assertPositiveFieldElement note.amount "amount"
  assertFieldElement note.ownerCommitment "ownerCommitment"
  assertFieldElement note.noteSecret "noteSecret"
  normalizeHashOutput
    (hash [10001, note.assetId, note.amount, note.ownerCommitment, note.noteSecret]) "commitment"

def deriveNullifier (context : NullifierContext) : Throws FieldElement := do
  assertFieldElement context.noteSecret "noteSecret"
  assertSafeNonnegativeInteger context.leafIndex "leafIndex"
  assertSafePositiveInteger context.chainId "chainId"
  assertFieldElement context.verifyingContract "verifyingContract"
  normalizeHashOutput (hash [10002, context.noteSecret, context.leafIndex, context.chainId,
    context.verifyingContract]) "nullifier"

/-- A checked hash of two nodes. -/
def hashPair (left right : FieldElement) : Throws FieldElement :=
  normalizeHashOutput (hash [left, right]) "root"

/-- One round of the loop of `buildZeroHashes`. -/
def pushZeroHash (zeroValue : FieldElement) (zeroHashes : List FieldElement) (level : ℕ) :
    Throws (List FieldElement) := do
  let zero := zeroHashes.getD level zeroValue
  let next ← hashPair hash zero zero
  return zeroHashes ++ [next]

def buildZeroHashes (depth : ℕ) (zeroValue : FieldElement) : Throws (List FieldElement) :=
  (List.range depth).foldlM (pushZeroHash hash zeroValue) [zeroValue]

/-- One round of the loop of `buildLayers`, over the pairs of one level. -/
def pushLayer (zeroValue : FieldElement) (zeroHashes : List FieldElement)
    (layers : List (List FieldElement)) (level : ℕ) : Throws (List (List FieldElement)) := do
  let previous := layers.getD level []
  let pairCount := max 1 ((previous.length + 1) / 2)
  let zero := zeroHashes.getD level zeroValue
  let next ← (List.range pairCount).mapM fun pair =>
    hashPair hash (previous.getD (pair * 2) zero) (previous.getD (pair * 2 + 1) zero)
  return layers ++ [next]

def buildLayers (depth : ℕ) (zeroValue : FieldElement) (leaves : List FieldElement) :
    Throws (List (List FieldElement)) := do
  let zeroHashes ← buildZeroHashes hash depth zeroValue
  (List.range depth).foldlM (pushLayer hash zeroValue zeroHashes) [leaves]

/-- The first node of the last layer. -/
def rootOf (tree : AppendOnlyMerkleTree) (layers : List (List FieldElement)) : FieldElement :=
  ((layers.getD tree.depth [])[0]?).getD tree.zeroValue

/-- The getter `root`. -/
def AppendOnlyMerkleTree.root (tree : AppendOnlyMerkleTree) : Throws FieldElement := do
  let layers ← buildLayers hash tree.depth tree.zeroValue tree.leaves
  return rootOf tree layers

/-- `layers[level]?.[index]`. -/
def nodeAt (layers : List (List FieldElement)) (level : ℕ) (index : ℤ) : Option FieldElement :=
  if 0 ≤ index then (layers.getD level [])[index.toNat]? else none

/-- One round of the loop of `pathForLeaf`. -/
def climbLayer (zeroValue : FieldElement) (layers : List (List FieldElement))
    (zeroHashes : List FieldElement) (s : ℕ × List FieldElement × List ℤ) (level : ℕ) :
    ℕ × List FieldElement × List ℤ :=
  let (cursor, pathElements, pathIndices) := s
  let siblingIndex := bitXor cursor 1
  (cursor / 2,
    pathElements ++ [(nodeAt layers level siblingIndex).getD (zeroHashes.getD level zeroValue)],
    pathIndices ++ [((cursor % 2 : ℕ) : ℤ)])

def AppendOnlyMerkleTree.pathForLeaf (tree : AppendOnlyMerkleTree) (leafIndex : ℤ) :
    Throws MerklePath := do
  assertSafeNonnegativeInteger leafIndex "leafIndex"
  ensure (leafIndex < tree.leaves.length) "leafIndex is not inserted"
  let layers ← buildLayers hash tree.depth tree.zeroValue tree.leaves
  let zeroHashes ← buildZeroHashes hash tree.depth tree.zeroValue
  let (_, pathElements, pathIndices) := (List.range tree.depth).foldl
    (climbLayer tree.zeroValue layers zeroHashes) (leafIndex.toNat, [], [])
  return { leafIndex, root := rootOf tree layers, pathElements, pathIndices }

/-- **`append`**: the tree it leaves, and the path it returns. -/
def AppendOnlyMerkleTree.append (tree : AppendOnlyMerkleTree) (leaf : FieldElement) :
    AppendOnlyMerkleTree × Throws MerklePath :=
  match assertFieldElement leaf "leaf" with
  | .error e => (tree, .error e)
  | .ok _ =>
    if tree.leaves.length ≥ 2 ^ tree.depth then (tree, .error "Merkle tree is full")
    else
      let tree := { tree with leaves := tree.leaves ++ [leaf] }
      (tree, tree.pathForLeaf hash (tree.leaves.length - 1 : ℕ))

def createAppendOnlyMerkleTree (depth : ℤ) (zeroValue : FieldElement) :
    Throws AppendOnlyMerkleTree := do
  assertSafePositiveInteger depth "depth"
  ensure (¬depth > 32) "depth exceeds Phase 1 local proving cap"
  assertFieldElement zeroValue "zeroValue"
  return ⟨depth.toNat, zeroValue, []⟩

/-- One round of the loop of `verifyMerklePath`. -/
def verifyLevel (computed : FieldElement) (step : FieldElement × ℤ) : Throws FieldElement := do
  let (sibling, direction) := step
  assertFieldElement sibling "pathElement"
  ensure (direction = 0 ∨ direction = 1) "path index must be a bit"
  if direction = 0 then hashPair hash computed sibling else hashPair hash sibling computed

def verifyMerklePath (leaf : FieldElement) (path : MerklePath) : Throws Bool := do
  assertFieldElement leaf "leaf"
  ensure (path.pathElements.length = path.pathIndices.length)
    "path elements and indices length mismatch"
  let computed ← (path.pathElements.zip path.pathIndices).foldlM (verifyLevel hash) leaf
  return computed = path.root

/-- The tree after any calls of `append`, whatever they returned. -/
def AppendOnlyMerkleTree.appends (tree : AppendOnlyMerkleTree) (calls : List FieldElement) :
    AppendOnlyMerkleTree :=
  calls.foldl (fun tree leaf => (tree.append hash leaf).1) tree

end Code

/-! ### Checks -/

theorem assertFieldElement_eq_ok {value : FieldElement} {fieldName : String} {u : Unit} :
    assertFieldElement value fieldName = .ok u ↔ IsField value := ensure_eq_ok

theorem normalizeHashOutput_eq_ok {value v : FieldElement} {fieldName : String} :
    normalizeHashOutput value fieldName = .ok v ↔ IsField value ∧ value = v := by
  unfold normalizeHashOutput
  simp only [bind_eq_ok, assertFieldElement_eq_ok, exists_and_left, exists_const, pure_eq_ok]

/-- **The hash of two field elements is one.** -/
def PairsInField (hash : FieldHash) : Prop :=
  ∀ l r, IsField l → IsField r → IsField (hash [l, r])

/-- The hash of the tree. -/
def treeHash (hash : FieldHash) (l r : FieldElement) : FieldElement := hash [l, r]

theorem hashPair_ok {hash : FieldHash} (hfield : PairsInField hash) {l r : FieldElement}
    (hl : IsField l) (hr : IsField r) : hashPair hash l r = .ok (treeHash hash l r) :=
  normalizeHashOutput_eq_ok.mpr ⟨hfield l r hl hr, rfl⟩

/-- What `createAppendOnlyMerkleTree` returns and `append` keeps. -/
structure WellFormed (tree : AppendOnlyMerkleTree) : Prop where
  pos : 0 < tree.depth
  capped : tree.depth ≤ 32
  zero : IsField tree.zeroValue
  leaves : ∀ leaf ∈ tree.leaves, IsField leaf
  fits : tree.leaves.length ≤ 2 ^ tree.depth

theorem createAppendOnlyMerkleTree_ok {depth : ℤ} {zeroValue : FieldElement}
    {tree : AppendOnlyMerkleTree} (h : createAppendOnlyMerkleTree depth zeroValue = .ok tree) :
    tree = ⟨depth.toNat, zeroValue, []⟩ ∧ WellFormed tree := by
  simp only [createAppendOnlyMerkleTree, assertSafePositiveInteger, bind_eq_ok, ensure_eq_ok,
    assertFieldElement_eq_ok, exists_const, pure_eq_ok] at h
  obtain ⟨⟨-, hpos⟩, hcap, hzero, rfl⟩ := h
  exact ⟨rfl, by dsimp only; omega, by dsimp only; omega, hzero,
    fun _ hleaf => absurd hleaf List.not_mem_nil, Nat.zero_le _⟩

/-! ### Appending -/

section Appending
variable {hash : FieldHash} {tree : AppendOnlyMerkleTree} {leaf : FieldElement}

variable (hash tree leaf) in
theorem append_fst : (tree.append hash leaf).1 =
    if IsField leaf ∧ tree.leaves.length < 2 ^ tree.depth then
      { tree with leaves := tree.leaves ++ [leaf] } else tree := by
  unfold AppendOnlyMerkleTree.append
  by_cases hleaf : IsField leaf
  · rw [assertFieldElement, ensure_of hleaf]
    dsimp only
    by_cases hroom : tree.leaves.length < 2 ^ tree.depth
    · rw [if_neg (not_le.mpr hroom), if_pos ⟨hleaf, hroom⟩]
    · rw [if_pos (not_lt.mp hroom), if_neg fun h => hroom h.2]
  · have hrefused : ¬(IsField leaf ∧ tree.leaves.length < 2 ^ tree.depth) := fun h => hleaf h.1
    rw [if_neg hrefused, assertFieldElement, ensure, if_neg hleaf]

variable (hash) in
/-- **The leaves after any calls**: the field elements among them, as far as they fit. -/
theorem leaves_appends : ∀ (calls : List FieldElement) (tree : AppendOnlyMerkleTree),
    tree.leaves.length ≤ 2 ^ tree.depth →
    (tree.appends hash calls).depth = tree.depth ∧
    (tree.appends hash calls).zeroValue = tree.zeroValue ∧
    (tree.appends hash calls).leaves =
      (tree.leaves ++ calls.filter fun leaf => IsField leaf).take (2 ^ tree.depth)
  | [], tree, hfits => by
    refine ⟨rfl, rfl, ?_⟩
    rw [List.filter_nil, List.append_nil, List.take_of_length_le hfits]
    rfl
  | leaf :: calls, tree, hfits => by
    change ((tree.append hash leaf).1.appends hash calls).depth = _ ∧
      ((tree.append hash leaf).1.appends hash calls).zeroValue = _ ∧
      ((tree.append hash leaf).1.appends hash calls).leaves = _
    rw [append_fst]
    by_cases hleaf : IsField leaf
    · have hkept : (leaf :: calls).filter (fun leaf => decide (IsField leaf)) =
          leaf :: calls.filter fun leaf => decide (IsField leaf) :=
        List.filter_cons_of_pos (decide_eq_true hleaf)
      rw [hkept]
      by_cases hroom : tree.leaves.length < 2 ^ tree.depth
      · rw [if_pos ⟨hleaf, hroom⟩]
        have ih := leaves_appends calls { tree with leaves := tree.leaves ++ [leaf] }
          (by rw [List.length_append]; exact hroom)
        rw [List.append_assoc] at ih
        exact ih
      · rw [if_neg fun h => hroom h.2]
        obtain ⟨hdepth, hzero, hleaves⟩ := leaves_appends calls tree hfits
        have hfull : tree.leaves.length = 2 ^ tree.depth := le_antisymm hfits (not_lt.mp hroom)
        refine ⟨hdepth, hzero, hleaves.trans ?_⟩
        rw [← hfull, List.take_left, List.take_left]
    · have hdropped : (leaf :: calls).filter (fun leaf => decide (IsField leaf)) =
          calls.filter fun leaf => decide (IsField leaf) :=
        List.filter_cons_of_neg (by simpa using hleaf)
      rw [if_neg fun h => hleaf h.1, hdropped]
      exact leaves_appends calls tree hfits

variable (hash leaf) in
theorem wellFormed_append (h : WellFormed tree) : WellFormed (tree.append hash leaf).1 := by
  rw [append_fst]
  split_ifs with hkept
  · refine ⟨h.pos, h.capped, h.zero, fun x hx => ?_, ?_⟩
    · rcases List.mem_append.mp hx with hx | hx
      · exact h.leaves x hx
      · exact List.mem_singleton.mp hx ▸ hkept.1
    · dsimp only
      rw [List.length_append]
      exact hkept.2
  · exact h

variable (hash) in
theorem wellFormed_appends : ∀ (calls : List FieldElement) {tree : AppendOnlyMerkleTree},
    WellFormed tree → WellFormed (tree.appends hash calls)
  | [], _, h => h
  | leaf :: calls, _, h => wellFormed_appends calls (wellFormed_append hash leaf h)

end Appending

/-! ### Layers -/

theorem getD_map_range {β : Type*} (f : ℕ → β) (d : β) {n k : ℕ} (hk : k < n) :
    ((List.range n).map f).getD k d = f k := by
  rw [List.getD_eq_getElem?_getD, List.getElem?_map, List.getElem?_range hk]
  rfl

section Layers
variable {hash : FieldHash} (hfield : PairsInField hash)
include hfield

theorem zeroHash_field {zero : FieldElement} (hz : IsField zero) :
    ∀ l, IsField (zeroHash (treeHash hash) zero l)
  | 0 => hz
  | l + 1 => hfield _ _ (zeroHash_field hz l) (zeroHash_field hz l)

theorem node_field {leaf : ℕ → FieldElement} (hl : ∀ i, IsField (leaf i)) :
    ∀ l p, IsField (node (treeHash hash) leaf l p)
  | 0, _ => hl _
  | l + 1, _ => hfield _ _ (node_field hl l _) (node_field hl l _)

/-- **The table of zero hashes.** -/
theorem buildZeroHashes_ok {zero : FieldElement} (hz : IsField zero) : ∀ depth : ℕ,
    buildZeroHashes hash depth zero =
      .ok ((List.range (depth + 1)).map (zeroHash (treeHash hash) zero))
  | 0 => rfl
  | depth + 1 => by
    have ih := buildZeroHashes_ok hz depth
    have hlast := zeroHash_field hfield hz depth
    unfold buildZeroHashes at *
    rw [List.range_succ, foldlM_concat_ok ih, pushZeroHash,
      getD_map_range _ _ (Nat.lt_succ_self depth), hashPair_ok hfield hlast hlast, ok_bind,
      List.range_succ (n := depth + 1), List.map_append]
    rfl

/-- **The table of layers.** -/
theorem buildLayers_ok {zero : FieldElement} (hz : IsField zero) {leaves : List FieldElement}
    (hl : ∀ x ∈ leaves, IsField x) : ∀ {depth n : ℕ}, n ≤ depth →
    (List.range n).foldlM (pushLayer hash zero ((List.range (depth + 1)).map
      (zeroHash (treeHash hash) zero))) [leaves] =
      .ok ((List.range (n + 1)).map (layer (treeHash hash) zero leaves))
  | _, 0, _ => rfl
  | depth, n + 1, hn => by
    have ih := buildLayers_ok hz hl (Nat.le_of_succ_le hn)
    obtain ⟨hzero, hlayer⟩ := layer_mem hfield hz hl n
    rw [List.range_succ (n := n), foldlM_concat_ok ih, pushLayer,
      getD_map_range _ _ (Nat.lt_succ_self n), getD_map_range _ _ (Nat.lt_succ_of_lt hn)]
    have hnext : (List.range (max 1 (((layer (treeHash hash) zero leaves n).length + 1) / 2))).mapM
        (fun pair => hashPair hash
          ((layer (treeHash hash) zero leaves n).getD (pair * 2) (zeroHash (treeHash hash) zero n))
          ((layer (treeHash hash) zero leaves n).getD (pair * 2 + 1)
            (zeroHash (treeHash hash) zero n))) =
        .ok (layer (treeHash hash) zero leaves (n + 1)) := by
      rw [mapM_eq_ok, layer, nextLayer, List.forall₂_map_right_iff, List.forall₂_same]
      intro pair _
      rw [Nat.mul_comm 2 pair]
      exact hashPair_ok hfield (padded_mem hzero hlayer _) (padded_mem hzero hlayer _)
    rw [hnext, ok_bind, List.range_succ (n := n + 1), List.map_append]
    rfl

end Layers

/-! ### Paths -/

/-- **The path of a position**, as the tree has it. -/
def pathAt (hash : FieldHash) (tree : AppendOnlyMerkleTree) (i : ℕ) : MerklePath where
  leafIndex := i
  root := root (treeHash hash) tree.zeroValue tree.depth tree.leaves
  pathElements := siblings (treeHash hash) (padded tree.zeroValue tree.leaves) 0 i tree.depth
  pathIndices := (indexBits i tree.depth).map fun bit : ℕ => (bit : ℤ)

/-- The loop of `pathForLeaf`, over complete tables. -/
theorem climbLayers_eq (hash : FieldHash) (zero : FieldElement) (leaves : List FieldElement)
    {i : ℕ} (hi : i < 2 ^ 31) : ∀ {depth n : ℕ}, n ≤ depth →
    (List.range n).foldl
      (climbLayer zero ((List.range (depth + 1)).map (layer (treeHash hash) zero leaves))
        ((List.range (depth + 1)).map (zeroHash (treeHash hash) zero))) (i, [], []) =
      (i / 2 ^ n, siblings (treeHash hash) (padded zero leaves) 0 i n,
        (indexBits i n).map fun bit : ℕ => (bit : ℤ))
  | _, 0, _ => by
    rw [pow_zero, Nat.div_one]
    rfl
  | depth, n + 1, hn => by
    have ih := climbLayers_eq hash zero leaves hi (Nat.le_of_succ_le hn)
    have hcursor : i / 2 ^ n < 2 ^ 31 := (Nat.div_le_self _ _).trans_lt hi
    have hnode : ((layer (treeHash hash) zero leaves n)[sibling (i / 2 ^ n)]?).getD
        (zeroHash (treeHash hash) zero n) =
        node (treeHash hash) (padded zero leaves) n (sibling (i / 2 ^ n)) := by
      rw [← List.getD_eq_getElem?_getD]
      exact dense_layer (treeHash hash) _ leaves n (sibling (i / 2 ^ n))
    rw [List.range_succ (n := n), List.foldl_append, ih, List.foldl_cons, List.foldl_nil,
      climbLayer, bitXor_one hcursor, nodeAt, if_pos (Int.natCast_nonneg _), Int.toNat_natCast,
      getD_map_range _ _ (Nat.lt_succ_of_lt hn), getD_map_range _ _ (Nat.lt_succ_of_lt hn), hnode,
      Nat.div_div_eq_div_mul, ← pow_succ, siblings_concat, zero_add, indexBits_concat,
      List.map_append]
    rfl

section Paths
variable {hash : FieldHash} (hfield : PairsInField hash) {tree : AppendOnlyMerkleTree}
  (h : WellFormed tree)
include hfield h

theorem buildLayers_tree : buildLayers hash tree.depth tree.zeroValue tree.leaves =
    .ok ((List.range (tree.depth + 1)).map
      (layer (treeHash hash) tree.zeroValue tree.leaves)) := by
  unfold buildLayers
  rw [buildZeroHashes_ok hfield h.zero, ok_bind]
  exact buildLayers_ok hfield h.zero h.leaves le_rfl

omit hfield in
theorem rootOf_eq : rootOf tree ((List.range (tree.depth + 1)).map
    (layer (treeHash hash) tree.zeroValue tree.leaves)) =
    root (treeHash hash) tree.zeroValue tree.depth tree.leaves := by
  obtain ⟨l, hl⟩ : ∃ l, tree.depth = l + 1 := ⟨tree.depth - 1, by have := h.pos; omega⟩
  unfold rootOf root
  rw [getD_map_range _ _ (Nat.lt_succ_self _), hl, head_layer, Option.getD_some]

theorem root_ok : tree.root hash =
    .ok (root (treeHash hash) tree.zeroValue tree.depth tree.leaves) := by
  unfold AppendOnlyMerkleTree.root
  rw [buildLayers_tree hfield h, ok_bind, rootOf_eq h]
  rfl

/-- **The path of a leaf.** -/
theorem pathForLeaf_ok {i : ℕ} (hi : i < tree.leaves.length) (hbits : i < 2 ^ 31) :
    tree.pathForLeaf hash i = .ok (pathAt hash tree i) := by
  have hsafe : isSafeInteger i ∧ ¬(i : ℤ) < 0 := by
    refine ⟨?_, not_lt.mpr (Int.natCast_nonneg i)⟩
    unfold isSafeInteger
    rw [abs_of_nonneg (Int.natCast_nonneg i)]
    omega
  unfold AppendOnlyMerkleTree.pathForLeaf
  rw [assertSafeNonnegativeInteger, ensure_of hsafe, ok_bind,
    ensure_of (Int.ofNat_lt.mpr hi), ok_bind, buildLayers_tree hfield h, ok_bind,
    buildZeroHashes_ok hfield h.zero, ok_bind, Int.toNat_natCast,
    climbLayers_eq hash tree.zeroValue tree.leaves hbits le_rfl, rootOf_eq h]
  rfl

end Paths

/-! ### Verification -/

/-- The position that the bits of a path spell. -/
def bitsValue : List ℤ → ℕ
  | [] => 0
  | bit :: bits => bit.toNat + 2 * bitsValue bits

def Bits (bits : List ℤ) : Prop := ∀ bit ∈ bits, bit = 0 ∨ bit = 1

theorem bits_indexBits : ∀ i n : ℕ, Bits ((indexBits i n).map fun bit : ℕ => (bit : ℤ))
  | _, 0 => fun _ hbit => absurd hbit List.not_mem_nil
  | i, n + 1 => by
    intro bit hbit
    rw [indexBits, List.map_cons, List.mem_cons] at hbit
    rcases hbit with rfl | hbit
    · omega
    · exact bits_indexBits (i / 2) n bit hbit

theorem bitsValue_indexBits : ∀ {i n : ℕ}, i < 2 ^ n →
    bitsValue ((indexBits i n).map fun bit : ℕ => (bit : ℤ)) = i
  | i, 0, hi => by
    rw [pow_zero] at hi
    change 0 = i
    omega
  | i, n + 1, hi => by
    rw [pow_succ] at hi
    rw [indexBits, List.map_cons, bitsValue, bitsValue_indexBits (by omega), Int.toNat_natCast]
    omega

/-- Bits are the bits of the position they spell. -/
theorem eq_indexBits : ∀ {bits : List ℤ}, Bits bits → bitsValue bits < 2 ^ bits.length ∧
    bits = (indexBits (bitsValue bits) bits.length).map fun bit : ℕ => (bit : ℤ)
  | [], _ => ⟨Nat.one_pos, rfl⟩
  | bit :: bits, h => by
    obtain ⟨hlt, heq⟩ := eq_indexBits fun b hb => h b (List.mem_cons_of_mem _ hb)
    have hbit := h bit List.mem_cons_self
    have hmod : ((bitsValue (bit :: bits) % 2 : ℕ) : ℤ) = bit := by
      rw [bitsValue]
      omega
    have hdiv : bitsValue (bit :: bits) / 2 = bitsValue bits := by
      rw [bitsValue]
      omega
    constructor
    · rw [bitsValue, List.length_cons, pow_succ]
      omega
    · rw [List.length_cons, indexBits, List.map_cons, hmod, hdiv, ← heq]

section Verify
variable {hash : FieldHash} (hfield : PairsInField hash)
include hfield

theorem verifyLevel_eq_ok {x sibling y : FieldElement} {direction : ℤ} (hx : IsField x) {v : ℕ} :
    verifyLevel hash x (sibling, direction) = .ok y ↔ IsField sibling ∧
      (direction = 0 ∨ direction = 1) ∧
        join (treeHash hash) x (direction.toNat + 2 * v) sibling = y := by
  unfold verifyLevel join
  simp only [bind_eq_ok, assertFieldElement_eq_ok, ensure_eq_ok, exists_and_left, exists_const]
  refine and_congr_right fun hs => and_congr_right fun hbit => ?_
  rcases hbit with rfl | rfl
  · rw [if_pos rfl, if_pos (by omega), hashPair_ok hfield hx hs, Except.ok.injEq]
  · rw [if_neg (by decide), if_neg (by omega), hashPair_ok hfield hs hx, Except.ok.injEq]

/-- **The loop of `verifyMerklePath`.** -/
theorem verifyLevels_eq_ok : ∀ {elements : List FieldElement} {bits : List ℤ} {x y : FieldElement},
    elements.length = bits.length → IsField x →
    ((elements.zip bits).foldlM (verifyLevel hash) x = .ok y ↔ (∀ s ∈ elements, IsField s) ∧
      Bits bits ∧ climb (treeHash hash) x (bitsValue bits) elements = y)
  | [], [], x, y, _, _ => by simp [climb, Bits, pure_eq_ok]
  | s :: elements, bit :: bits, x, y, hlen, hx => by
    have hlen' : elements.length = bits.length := Nat.succ.inj hlen
    have hbits : Bits (bit :: bits) ↔ (bit = 0 ∨ bit = 1) ∧ Bits bits := List.forall_mem_cons
    rw [List.zip_cons_cons, List.foldlM_cons, bind_eq_ok, List.forall_mem_cons, hbits, climb]
    simp only [verifyLevel_eq_ok hfield hx (v := bitsValue bits)]
    constructor
    · rintro ⟨_, ⟨hs, hbit, rfl⟩, hrest⟩
      have hjoin : IsField (join (treeHash hash) x (bit.toNat + 2 * bitsValue bits) s) := by
        unfold join
        split_ifs
        · exact hfield _ _ hx hs
        · exact hfield _ _ hs hx
      have hdiv : (bit.toNat + 2 * bitsValue bits) / 2 = bitsValue bits := by omega
      obtain ⟨helements, hall, hclimb⟩ := (verifyLevels_eq_ok hlen' hjoin).mp hrest
      exact ⟨⟨hs, helements⟩, ⟨hbit, hall⟩, by rw [bitsValue, hdiv]; exact hclimb⟩
    · rintro ⟨⟨hs, helements⟩, ⟨hbit, hall⟩, hclimb⟩
      have hjoin : IsField (join (treeHash hash) x (bit.toNat + 2 * bitsValue bits) s) := by
        unfold join
        split_ifs
        · exact hfield _ _ hx hs
        · exact hfield _ _ hs hx
      have hdiv : (bit.toNat + 2 * bitsValue bits) / 2 = bitsValue bits := by omega
      rw [bitsValue, hdiv] at hclimb
      exact ⟨_, ⟨hs, hbit, rfl⟩, (verifyLevels_eq_ok hlen' hjoin).mpr ⟨helements, hall, hclimb⟩⟩

/-- **What `verifyMerklePath` checks.** -/
theorem verifyMerklePath_eq_true {leaf : FieldElement} {path : MerklePath} :
    verifyMerklePath hash leaf path = .ok true ↔ IsField leaf ∧
      path.pathElements.length = path.pathIndices.length ∧
      (∀ s ∈ path.pathElements, IsField s) ∧ Bits path.pathIndices ∧
      climb (treeHash hash) leaf (bitsValue path.pathIndices) path.pathElements = path.root := by
  unfold verifyMerklePath
  simp only [bind_eq_ok, assertFieldElement_eq_ok, ensure_eq_ok, exists_and_left, exists_const,
    pure_eq_ok, decide_eq_true_eq]
  refine and_congr_right fun hleaf => and_congr_right fun hlen => ?_
  simp only [verifyLevels_eq_ok hfield hlen hleaf]
  constructor
  · rintro ⟨_, ⟨helements, hbits, rfl⟩, hroot⟩
    exact ⟨helements, hbits, hroot⟩
  · rintro ⟨helements, hbits, hroot⟩
    exact ⟨_, ⟨helements, hbits, rfl⟩, hroot⟩

end Verify

section Tree
variable {hash : FieldHash} (hfield : PairsInField hash)
include hfield

/-- The path of a position verifies its leaf. -/
theorem verify_pathAt {tree : AppendOnlyMerkleTree} (h : WellFormed tree) {i : ℕ}
    (hi : i < 2 ^ tree.depth) :
    verifyMerklePath hash (padded tree.zeroValue tree.leaves i) (pathAt hash tree i) =
      .ok true := by
  have hleaf : ∀ k, IsField (padded tree.zeroValue tree.leaves k) := padded_mem h.zero h.leaves
  refine (verifyMerklePath_eq_true hfield).mpr ⟨hleaf i, ?_, ?_, bits_indexBits i tree.depth, ?_⟩
  · unfold pathAt
    rw [length_siblings, List.length_map, length_indexBits]
  · exact siblings_mem (treeHash hash) (node_field hfield hleaf) 0 i tree.depth
  · unfold pathAt
    rw [bitsValue_indexBits hi]
    exact climb_leaf (treeHash hash) hi

/-- **What `append` returns**, after any calls on a new tree: a refusal, or the path of the new leaf
at the end, which verifies. -/
theorem append_spec {depth : ℤ} {zeroValue : FieldElement} {new : AppendOnlyMerkleTree}
    (hnew : createAppendOnlyMerkleTree depth zeroValue = .ok new) (calls : List FieldElement)
    (leaf : FieldElement) (hbits : (new.appends hash calls).leaves.length < 2 ^ 31) :
    (IsField leaf ∧ (new.appends hash calls).leaves.length < 2 ^ depth.toNat ∧
      ∃ path, ((new.appends hash calls).append hash leaf).2 = .ok path ∧
        ((new.appends hash calls).append hash leaf).1.root hash = .ok path.root ∧
        path.leafIndex = (new.appends hash calls).leaves.length ∧
        verifyMerklePath hash leaf path = .ok true) ∨
    ((¬IsField leaf ∨ (new.appends hash calls).leaves.length = 2 ^ depth.toNat) ∧
      ((new.appends hash calls).append hash leaf).1 = new.appends hash calls ∧
      ∃ message, ((new.appends hash calls).append hash leaf).2 = .error message) := by
  obtain ⟨rfl, hwf⟩ := createAppendOnlyMerkleTree_ok hnew
  obtain ⟨hdepth, -, -⟩ := leaves_appends hash calls _ hwf.fits
  have htree := wellFormed_appends hash calls hwf
  have hafter := wellFormed_append hash leaf htree
  generalize AppendOnlyMerkleTree.appends hash _ calls = tree at *
  dsimp only at hdepth
  rw [← hdepth]
  have hfst := append_fst hash tree leaf
  by_cases hkept : IsField leaf ∧ tree.leaves.length < 2 ^ tree.depth
  · left
    rw [if_pos hkept] at hfst
    have hlast : tree.leaves.length < (tree.append hash leaf).1.leaves.length := by
      rw [hfst, List.length_append]
      exact Nat.lt_succ_self _
    have hpath := pathForLeaf_ok hfield hafter hlast hbits
    have hsnd : (tree.append hash leaf).2 =
        (tree.append hash leaf).1.pathForLeaf hash tree.leaves.length := by
      rw [hfst]
      unfold AppendOnlyMerkleTree.append
      rw [assertFieldElement, ensure_of hkept.1]
      dsimp only
      rw [if_neg (not_le.mpr hkept.2), List.length_append, List.length_singleton,
        Nat.add_sub_cancel]
    have hleaf : padded (tree.append hash leaf).1.zeroValue (tree.append hash leaf).1.leaves
        tree.leaves.length = leaf := by
      rw [hfst]
      exact padded_concat_self
    have hplace : tree.leaves.length < 2 ^ (tree.append hash leaf).1.depth := by
      rw [hfst]
      exact hkept.2
    have hverify := verify_pathAt hfield hafter hplace
    rw [hleaf] at hverify
    exact ⟨hkept.1, hkept.2, _, hsnd.trans hpath, root_ok hfield hafter, rfl, hverify⟩
  · right
    rw [if_neg hkept] at hfst
    have hreason : ¬IsField leaf ∨ tree.leaves.length = 2 ^ tree.depth := by
      by_cases hleaf : IsField leaf
      · exact .inr (le_antisymm htree.fits (not_lt.mp fun hlt => hkept ⟨hleaf, hlt⟩))
      · exact .inl hleaf
    refine ⟨hreason, hfst, ?_⟩
    unfold AppendOnlyMerkleTree.append
    by_cases hleaf : IsField leaf
    · have hfull : tree.leaves.length ≥ 2 ^ tree.depth := by
        rcases hreason with hn | hfull
        · exact absurd hleaf hn
        · exact hfull.ge
      rw [assertFieldElement, ensure_of hleaf]
      dsimp only
      rw [if_pos hfull]
      exact ⟨_, rfl⟩
    · rw [assertFieldElement, ensure, if_neg hleaf]
      exact ⟨_, rfl⟩

/-- A hash that depends on all its inputs. -/
def sampleFieldHash : FieldHash := fun inputs =>
  inputs.foldl (fun sum x => 3 * sum + x) 1 % (bn254ScalarField : ℤ)

omit hfield in
theorem pairsInField_sample : PairsInField sampleFieldHash := fun _ _ _ _ =>
  ⟨Int.emod_nonneg _ (by decide), Int.emod_lt_of_pos _ (by decide)⟩

omit hfield in
/-- The third leaf of a tree of depth 2. -/
theorem append_spec_third : ∃ path,
    (((⟨2, 0, []⟩ : AppendOnlyMerkleTree).appends sampleFieldHash [1, 2]).append
      sampleFieldHash 3).2 = .ok path ∧ path.leafIndex = 2 ∧
    verifyMerklePath sampleFieldHash 3 path = .ok true := by
  have hleaves :
      ((⟨2, 0, []⟩ : AppendOnlyMerkleTree).appends sampleFieldHash [1, 2]).leaves = [1, 2] :=
    (leaves_appends _ [1, 2] ⟨2, 0, []⟩ (by decide)).2.2.trans (by decide)
  have hbits : ((⟨2, 0, []⟩ : AppendOnlyMerkleTree).appends sampleFieldHash [1, 2]).leaves.length <
      2 ^ 31 := by
    rw [hleaves]
    decide
  rcases append_spec pairsInField_sample
      (rfl : createAppendOnlyMerkleTree 2 0 = .ok ⟨2, 0, []⟩) [1, 2] 3 hbits with
    ⟨-, -, path, hpath, -, hindex, hverify⟩ | ⟨hreason, -⟩
  · exact ⟨path, hpath, hindex.trans (congrArg (fun l : List ℤ => (l.length : ℤ)) hleaves), hverify⟩
  · rcases hreason with hleaf | hfull
    · exact absurd (by decide) hleaf
    · cases (congrArg List.length hleaves).symm.trans hfull

/-- **Which paths verify.** If no collision is known among the pairs the tree and the path hash, a
path of the tree's length to its root verifies exactly for the leaf at the position it spells, and
then it is the path of that position. -/
theorem verifies_iff {depth : ℤ} {zeroValue : FieldElement} {new : AppendOnlyMerkleTree}
    (hnew : createAppendOnlyMerkleTree depth zeroValue = .ok new) (calls : List FieldElement)
    {leaf : FieldElement} {path : MerklePath}
    {K : FieldElement → FieldElement → Prop} (hK : InjectiveOn (treeHash hash) K)
    (htree : NodesIn (treeHash hash) K
      (padded zeroValue (new.appends hash calls).leaves) depth.toNat)
    (hpath : ∀ q ∈ pairs (treeHash hash) leaf (bitsValue path.pathIndices) path.pathElements,
      K q.1 q.2)
    (hlength : path.pathElements.length = depth.toNat)
    (hroot : (new.appends hash calls).root hash = .ok path.root) :
    verifyMerklePath hash leaf path = .ok true ↔ ∃ i < 2 ^ depth.toNat,
      leaf = padded zeroValue (new.appends hash calls).leaves i ∧
      path.pathElements = (pathAt hash (new.appends hash calls) i).pathElements ∧
      path.pathIndices = (pathAt hash (new.appends hash calls) i).pathIndices := by
  obtain ⟨rfl, hwf⟩ := createAppendOnlyMerkleTree_ok hnew
  obtain ⟨hdepth, hzero, -⟩ := leaves_appends hash calls _ hwf.fits
  have hafter := wellFormed_appends hash calls hwf
  generalize AppendOnlyMerkleTree.appends hash _ calls = tree at *
  dsimp only at hdepth hzero
  have hreached : path.root = root (treeHash hash) tree.zeroValue tree.depth tree.leaves :=
    (Except.ok.inj ((root_ok hfield hafter).symm.trans hroot)).symm
  subst hzero
  rw [← hdepth] at htree hlength ⊢
  constructor
  · intro hverify
    obtain ⟨-, hlen, -, hbits, hclimb⟩ := (verifyMerklePath_eq_true hfield).mp hverify
    obtain ⟨hplace, hspell⟩ := eq_indexBits hbits
    rw [← hlen] at hplace hspell
    rw [hreached, root, ← hlength] at hclimb
    rw [← hlength] at htree
    refine ⟨bitsValue path.pathIndices, by rwa [← hlength],
      leaf_of_climb hK hplace hpath htree hclimb, ?_, ?_⟩
    · unfold pathAt
      rw [← hlength]
      exact path_of_climb hK hplace hpath htree hclimb
    · unfold pathAt
      rw [← hlength]
      exact hspell
  · rintro ⟨i, hi, rfl, helements, hindices⟩
    have hhonest := (verifyMerklePath_eq_true hfield).mp (verify_pathAt hfield hafter hi)
    refine (verifyMerklePath_eq_true hfield).mpr ?_
    rw [helements, hindices, hreached]
    exact hhonest

end Tree

/-- The path of the first leaf of a tree of depth 1 verifies for that leaf and not for another. -/
theorem verifies_iff_one :
    verifyMerklePath sampleFieldHash 1 ⟨0, 14, [2], [0]⟩ = .ok true ∧
      verifyMerklePath sampleFieldHash 3 ⟨0, 14, [2], [0]⟩ ≠ .ok true := by
  have htree : (⟨Int.toNat 1, 0, []⟩ : AppendOnlyMerkleTree).appends sampleFieldHash [1, 2] =
      ⟨1, 0, [1, 2]⟩ := by
    obtain ⟨hdepth, hzero, hleaves⟩ := leaves_appends sampleFieldHash [1, 2] ⟨1, 0, []⟩
      (by decide)
    exact AppendOnlyMerkleTree.ext hdepth hzero (hleaves.trans (by decide))
  have hiff : ∀ leaf, leaf = 1 ∨ leaf = 3 →
      (verifyMerklePath sampleFieldHash leaf ⟨0, 14, [2], [0]⟩ = .ok true ↔
        ∃ i < 2 ^ 1, leaf = padded 0 [1, 2] i ∧
          [2] = (pathAt sampleFieldHash ⟨1, 0, [1, 2]⟩ i).pathElements ∧
          [0] = (pathAt sampleFieldHash ⟨1, 0, [1, 2]⟩ i).pathIndices) := by
    intro leaf hleaf
    have hall := @verifies_iff _ pairsInField_sample 1 0 _ rfl [1, 2] leaf ⟨0, 14, [2], [0]⟩
      (fun a b => (a = 1 ∨ a = 3) ∧ b = 2)
      (by
        rintro a b c d ⟨ha, rfl⟩ ⟨hc, rfl⟩ hhash
        rcases ha with rfl | rfl <;> rcases hc with rfl | rfl <;>
          first | exact ⟨rfl, rfl⟩ | exact absurd hhash (by decide))
      (by
        rw [htree]
        intro l p hl hp
        obtain rfl : l = 0 := by omega
        obtain rfl : p = 0 := by simpa using hp
        exact ⟨.inl rfl, rfl⟩)
      (by
        intro q hq
        obtain rfl : q = (leaf, 2) := List.mem_singleton.mp hq
        exact ⟨hleaf, rfl⟩)
      rfl (by rw [htree]; decide)
    rw [htree] at hall
    exact hall
  constructor
  · exact (hiff 1 (.inl rfl)).mpr ⟨0, by decide, rfl, by decide, by decide⟩
  · intro h
    obtain ⟨i, hi, hleaf, -⟩ := (hiff 3 (.inr rfl)).mp h
    interval_cases i <;> exact absurd hleaf (by decide)

/-! ### The pool and the circuits -/

/-- **The hash of the package is the `Poseidon` of the circuits**, on integers. -/
structure IntegerPoseidon (t : Templates) (hash : FieldHash) : Prop where
  field : ∀ inputs, IsField (hash inputs)
  agrees : ∀ inputs, (hash inputs : F) = t.poseidon (inputs.map fun v : ℤ => (v : F))

/-- The note of a preimage. -/
def RealProofNotePreimage.note (n : RealProofNotePreimage) : Note :=
  ⟨(n.assetId : F), (n.amount : F), (n.ownerCommitment : F), (n.noteSecret : F)⟩

theorem intCast_inj_of_field {a b : ℤ} (ha : IsField a) (hb : IsField b)
    (h : (a : F) = (b : F)) : a = b := by
  obtain ⟨n, rfl⟩ := Int.eq_ofNat_of_zero_le ha.1
  obtain ⟨m, rfl⟩ := Int.eq_ofNat_of_zero_le hb.1
  rw [Int.cast_natCast, Int.cast_natCast] at h
  rw [natCast_inj_of_lt (Int.ofNat_lt.mp ha.2) (Int.ofNat_lt.mp hb.2) h]

theorem isField_toNat {x : Bytes32} (h : isFieldElement x) : IsField (x.toNat : ℤ) :=
  ⟨Int.natCast_nonneg _, Int.ofNat_lt.mpr h⟩

/-- The tree of the model over the leaves of the pool. -/
def modelTree (hash : FieldHash) (leaves : List Bytes32) : AppendOnlyMerkleTree :=
  (⟨merkleTreeDepth, 0, []⟩ : AppendOnlyMerkleTree).appends hash
    (leaves.map fun c => (c.toNat : ℤ))

theorem modelTree_new : createAppendOnlyMerkleTree merkleTreeDepth 0 =
    .ok ⟨merkleTreeDepth, 0, []⟩ := rfl

section Model
variable {t : Templates} {hash : FieldHash} (hhash : IntegerPoseidon t hash)
  {leaves : List Bytes32} (hl : ∀ c ∈ leaves, isFieldElement c)
  (hroom : leaves.length ≤ merkleTreeCapacity)

variable (hash) in
include hl hroom in
theorem modelTree_eq : modelTree hash leaves =
    ⟨merkleTreeDepth, 0, leaves.map fun c => (c.toNat : ℤ)⟩ := by
  obtain ⟨hdepth, hzero, hleaves⟩ := leaves_appends hash
    (leaves.map fun c => (c.toNat : ℤ)) ⟨merkleTreeDepth, 0, []⟩ (Nat.zero_le _)
  have hall : (leaves.map fun c => (c.toNat : ℤ)).filter (fun leaf => decide (IsField leaf)) =
      leaves.map fun c => (c.toNat : ℤ) := by
    refine List.filter_eq_self.mpr fun v hv => ?_
    obtain ⟨c, hc, rfl⟩ := List.mem_map.mp hv
    exact decide_eq_true (isField_toNat (hl c hc))
  rw [List.nil_append, hall, List.take_of_length_le (by rw [List.length_map]; exact hroom)]
    at hleaves
  exact AppendOnlyMerkleTree.ext hdepth hzero hleaves

include hhash

theorem pairsInField : PairsInField hash := fun _ _ _ _ => hhash.field _

/-- Nodes of words and nodes of integers. -/
theorem treeHash_toNat {poseidon2 : Bytes32 → Bytes32 → Bytes32} (hsame : SamePoseidon poseidon2 t)
    (l r : Bytes32) (hleft : isFieldElement l) (hright : isFieldElement r) :
    isFieldElement (poseidon2 l r) ∧
      treeHash hash (l.toNat : ℤ) (r.toNat : ℤ) = ((poseidon2 l r).toNat : ℤ) := by
  have hfield := hsame.field l r hleft hright
  refine ⟨hfield, intCast_inj_of_field (hhash.field _) (isField_toNat hfield) ?_⟩
  have hagrees := hhash.agrees [(l.toNat : ℤ), (r.toNat : ℤ)]
  rw [List.map_cons, List.map_cons, List.map_nil, Int.cast_natCast, Int.cast_natCast] at hagrees
  rw [Int.cast_natCast]
  exact hagrees.trans (hsame.agrees l r hleft hright).symm

/-- What a note hashes to. -/
theorem deriveNoteCommitment_cast {note : RealProofNotePreimage} {commitment : FieldElement}
    (h : deriveNoteCommitment hash note = .ok commitment) :
    (commitment : F) = poseidonNoteCommitment t note.note := by
  simp only [deriveNoteCommitment, assertPositiveFieldElement, bind_eq_ok, ensure_eq_ok,
    assertFieldElement_eq_ok, normalizeHashOutput_eq_ok, exists_const] at h
  obtain ⟨-, -, -, -, -, rfl⟩ := h
  refine (hhash.agrees _).trans ?_
  simp [poseidonNoteCommitment, Note.preimage, RealProofNotePreimage.note]

/-- **The nullifier of the model** is the one the pool marks. -/
theorem deriveNullifier_ok {env : Env} (hpos : 0 < env.chainId.toNat)
    (hchain : env.chainId.toNat ≤ 2 ^ 53 - 1) {note : RealProofNotePreimage}
    (hsecret : IsField note.noteSecret) {i : ℕ} (hi : i ≤ 2 ^ 53 - 1) :
    deriveNullifier hash ⟨note.noteSecret, i, env.chainId.toNat,
      (addressToBytes32 env.this).toNat⟩ = .ok ((nullifierOf env t note.note i).toNat : ℤ) := by
  have hsafe : ∀ {n : ℕ}, n ≤ 2 ^ 53 - 1 → isSafeInteger (n : ℤ) := by
    intro n hn
    unfold isSafeInteger
    rw [abs_of_nonneg (Int.natCast_nonneg n)]
    omega
  have hthis : IsField ((addressToBytes32 env.this).toNat : ℤ) := by
    refine isField_toNat ?_
    have hlt : env.this.toNat < 2 ^ 160 := env.this.isLt
    have hlarge : 2 ^ 160 < bn254ScalarField := by decide
    unfold isFieldElement addressToBytes32
    rw [BitVec.toNat_setWidth, Nat.mod_eq_of_lt (hlt.trans (by decide))]
    omega
  simp only [deriveNullifier, assertSafeNonnegativeInteger, assertSafePositiveInteger, bind_eq_ok,
    ensure_eq_ok, assertFieldElement_eq_ok, normalizeHashOutput_eq_ok, exists_const]
  refine ⟨hsecret, ⟨hsafe hi, by omega⟩, ⟨hsafe hchain, by omega⟩, hthis, hhash.field _, ?_⟩
  have hword : IsField ((nullifierOf env t note.note i).toNat : ℤ) :=
    isField_toNat (isFieldElement_toWord _)
  refine intCast_inj_of_field (hhash.field _) hword ?_
  rw [hhash.agrees, Int.cast_natCast]
  change _ = toField (nullifierOf env t note.note i)
  rw [nullifierOf, toField_toWord]
  simp [poseidonNullifier, nullifierPreimage, RealProofNotePreimage.note, toField]

end Model

section Pool
variable {env : Env} {answers : Answers} {c : Config World (Option Pending)}

/-- **The model, the pool and the circuits agree**: over the leaves of a reachable pool the model
has the pool's current root; every leaf has a path that verifies; and whoever knows the note of a
leaf gets from the model the nullifier that the pool marks and the witness of a spend. -/
theorem model_spends (h : Reachable env answers c) {t : Templates} {hash : FieldHash}
    (hsame : SamePoseidon env.poseidon2 t) (hhash : IntegerPoseidon t hash)
    (hpos : 0 < env.chainId.toNat) (hchain : env.chainId.toNat ≤ 2 ^ 53 - 1) :
    (modelTree hash (leavesOf c.world)).root hash = .ok (c.world.pool.roots.currentRoot.toNat : ℤ) ∧
    ∀ {i : ℕ} {leaf : Bytes32}, (leavesOf c.world)[i]? = some leaf →
      ∃ path, (modelTree hash (leavesOf c.world)).pathForLeaf hash i = .ok path ∧
        verifyMerklePath hash (leaf.toNat : ℤ) path = .ok true ∧
        ∀ note : RealProofNotePreimage,
          deriveNoteCommitment hash note = .ok (leaf.toNat : ℤ) →
          ∃ nullifier : Bytes32, nullifier = nullifierOf env t note.note i ∧
            deriveNullifier hash ⟨note.noteSecret, i, env.chainId.toNat,
              (addressToBytes32 env.this).toNat⟩ = .ok (nullifier.toNat : ℤ) ∧
            ∀ (x : SpendPublic) (output : Note), x.root = toField c.world.pool.roots.currentRoot →
              x.nullifier = toField nullifier → x.chainId = toField env.chainId →
              x.verifyingContract = toField (addressToBytes32 env.this) →
              x.outputCommitment = poseidonNoteCommitment t output →
              SpendsNote t merkleTreeDepth x note.note output (i : F)
                (path.pathElements.map fun v : ℤ => (v : F)) := by
  have htracks := (tracks_reachable h).1
  generalize c.world = w at *
  have hl : ∀ c ∈ leavesOf w, isFieldElement c := fun c hc => (htracks.field c hc).2
  have hroom : (leavesOf w).length ≤ merkleTreeCapacity := htracks.recorded.grown.fits
  have hfield := pairsInField hhash
  have htree : WellFormed (modelTree hash (leavesOf w)) := by
    unfold modelTree
    exact wellFormed_appends _ _ (createAppendOnlyMerkleTree_ok modelTree_new).2
  have hmodel := modelTree_eq hash hl hroom
  have hpad : padded (0 : ℤ) ((leavesOf w).map fun c => (c.toNat : ℤ)) =
      fun i => ((padded (0 : Bytes32) (leavesOf w) i).toNat : ℤ) :=
    padded_map (fun c : Bytes32 => (c.toNat : ℤ)) 0 (leavesOf w)
  have hpadded := padded_mem isFieldElement_zero hl
  have hroot : root (treeHash hash) 0 merkleTreeDepth ((leavesOf w).map fun c => (c.toNat : ℤ)) =
      (w.pool.roots.currentRoot.toNat : ℤ) := by
    rw [htracks.recorded.currentRoot, treeRoot, root, root, hpad]
    exact (node_map (treeHash_toNat hhash hsame) hpadded merkleTreeDepth 0).2
  refine ⟨?_, fun {i leaf} hi => ?_⟩
  · rw [root_ok hfield htree, hmodel]
    exact congrArg Except.ok hroot
  obtain ⟨hlt, hleaf⟩ := List.getElem?_eq_some_iff.mp hi
  have hcapacity : merkleTreeCapacity = 2 ^ merkleTreeDepth := rfl
  have hsmall : merkleTreeCapacity < 2 ^ 31 := by norm_num [merkleTreeCapacity, merkleTreeDepth]
  have hplace : i < 2 ^ merkleTreeDepth := by omega
  have hat : padded (modelTree hash (leavesOf w)).zeroValue (modelTree hash (leavesOf w)).leaves i =
      (leaf.toNat : ℤ) := by
    rw [hmodel, hpad]
    dsimp only
    rw [padded_of_lt hlt, hleaf]
  have hverify := verify_pathAt hfield htree (i := i) (by rw [hmodel]; exact hplace)
  have hpath := pathForLeaf_ok hfield htree (i := i)
    (by rw [hmodel, List.length_map]; exact hlt) (by omega)
  refine ⟨_, hpath, ?_, fun note hnote => ?_⟩
  · rw [hat] at hverify
    exact hverify
  have hsecret : IsField note.noteSecret := by
    simp only [deriveNoteCommitment, assertPositiveFieldElement, bind_eq_ok, ensure_eq_ok,
      assertFieldElement_eq_ok, exists_const] at hnote
    exact hnote.2.2.2.1
  refine ⟨_, rfl, deriveNullifier_ok hhash hpos hchain hsecret (by omega),
    fun x output hxroot hxnullifier hxchain hxthis hxoutput => ?_⟩
  have hval : (i : F).val = i := by
    refine ZMod.val_natCast_of_lt ?_
    have hindex : i < 2 ^ 31 := by omega
    exact hindex.trans (by decide)
  have hmap : (pathAt hash (modelTree hash (leavesOf w)) i).pathElements.map
      (fun v : ℤ => (v : F)) = siblings (Gadgets.hashPair t)
        (fun k => toField (padded 0 (leavesOf w) k)) 0 i merkleTreeDepth := by
    rw [hmodel]
    unfold pathAt
    dsimp only
    rw [hpad, siblings_map env.poseidon2 (treeHash_toNat hhash hsame) hpadded,
      List.map_map, siblings_map env.poseidon2 (f := toField)
        (fun a b ha hb => ⟨hsame.field a b ha hb, (hsame.agrees a b ha hb).symm⟩) hpadded]
    exact List.map_congr_left fun x _ => Int.cast_natCast x.toNat
  have hcommitment : poseidonNoteCommitment t note.note = toField (padded 0 (leavesOf w) i) := by
    rw [← deriveNoteCommitment_cast hhash hnote, padded_of_lt hlt, hleaf]
    exact Int.cast_natCast leaf.toNat
  refine ⟨?_, ?_, ?_, ?_, hxoutput⟩
  · rw [hmap, length_siblings]
  · rw [hxnullifier, hxchain, hxthis, nullifierOf, toField_toWord]
  · rw [hval]
    exact hplace
  · rw [hxroot, hval, hmap, hcommitment, htracks.recorded.currentRoot, toField_treeRoot hsame hl]
    exact (@climb_leaf _ (Gadgets.hashPair t) (fun k => toField (padded 0 (leavesOf w) k)) _ _
      hplace).symm

end Pool

/-- The hash of the sample pool, on integers. -/
def sampleIntegerHash (inputs : List FieldElement) : FieldElement :=
  ((sampleHash (inputs.map fun v : ℤ => (v : F))).val : ℤ)

theorem integerPoseidon_sample : IntegerPoseidon sampleTemplates sampleIntegerHash where
  field _ := ⟨Int.natCast_nonneg _, Int.ofNat_lt.mpr (ZMod.val_lt _)⟩
  agrees inputs := by
    rw [sampleIntegerHash, Int.cast_natCast, ZMod.natCast_zmod_val]
    rfl

/-- The note of the first deposit, and what the model makes of it. -/
theorem model_spends_one : ∃ w path, Reachable sampleEnv (· = Pool.Capacity.openVerify) ⟨w, []⟩ ∧
    (modelTree sampleIntegerHash (leavesOf w)).pathForLeaf sampleIntegerHash 0 = .ok path ∧
    verifyMerklePath sampleIntegerHash 1 path = .ok true ∧
    deriveNullifier sampleIntegerHash ⟨1, 0, 6343, 7⟩ =
      .ok (Pool.Capacity.exitNullifier.toNat : ℤ) := by
  obtain ⟨w, hreach, hfilled⟩ := Pool.Capacity.filled_reachable 1 (Nat.two_pow_pos _)
  obtain ⟨-, hleaf⟩ := model_spends hreach samePoseidon_sample integerPoseidon_sample
    (by decide) (by decide)
  obtain ⟨path, hpath, hverify, hnote⟩ := hleaf (Pool.Capacity.first_leaf hfilled Nat.one_pos)
  have hcommitment : deriveNoteCommitment sampleIntegerHash ⟨0, 5000000000000000, 0, 1⟩ =
      .ok ((1 : Bytes32).toNat : ℤ) := by
    have hhash : sampleIntegerHash [10001, 0, 5000000000000000, 0, 1] = 1 := by
      have hnote := sampleHash_note ⟨0, (5000000000000000 : ℕ), 0, (1 : ℕ)⟩
      unfold sampleIntegerHash
      rw [show [10001, 0, 5000000000000000, 0, 1].map (fun v : ℤ => (v : F)) =
        (Note.mk 0 (5000000000000000 : ℕ) 0 (1 : ℕ)).preimage by simp [Note.preimage], hnote]
      rw [ZMod.val_natCast_of_lt (by decide)]
      rfl
    simp only [deriveNoteCommitment, assertPositiveFieldElement, bind_eq_ok, ensure_eq_ok,
      assertFieldElement_eq_ok, normalizeHashOutput_eq_ok, exists_const]
    rw [hhash]
    decide
  obtain ⟨nullifier, hnullifier, hderive, -⟩ := hnote _ hcommitment
  have hexit : nullifierOf sampleEnv sampleTemplates
      (RealProofNotePreimage.mk 0 5000000000000000 0 1).note 0 = Pool.Capacity.exitNullifier := by
    have hnote : (RealProofNotePreimage.mk 0 5000000000000000 0 1).note =
        sampleNote 5000000000000000 1 := by
      unfold sampleNote RealProofNotePreimage.note
      norm_num
    rw [hnote, Pool.Capacity.nullifierOf_first]
  rw [hnullifier, hexit] at hderive
  exact ⟨w, path, hreach, hpath, hverify, hderive⟩

end Nullark.Core.RealProofModel
