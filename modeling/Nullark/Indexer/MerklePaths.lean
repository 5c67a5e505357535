import Nullark.Js.TreeHash
import Nullark.Lib.Ordered
import Nullark.Lib.Search

/-! # The Merkle path index of the indexer

The index keeps the leaves in a map, in whatever order they come, and computes a node from its two
children, with a table of the nodes it has computed and a binary search that skips ranges without a
leaf. Paths are cached until the next insertion.

* `getNodeHash_spec`: the recursion computes the nodes of the tree, and the table stays sound.
* `HoldsTexts`, `Cached`: the index holds a partial map of texts, and what it caches is right, for
  any hash; `HoldsTexts.withLeaf`, `HoldsTexts.path`: the two operations.
* `Indexed`: the texts are those of words and the hash is the pool's.
* `insertIndexedCommitment_spec`, `getMerklePathForCommitment_spec`: the two operations.
* `indexed_calls`: any sequence of them. -/

namespace Nullark.Indexer.MerklePaths

open Nullark.Lib.Outcome Nullark.Lib.Hex Nullark.Lib.Ordered Nullark.Lib.Search
open Nullark.Lib.Merkle.Tree
open Nullark.Evm.Basic Nullark.Pool.Interface Nullark.Pool.Tree
open Nullark.Js.Basic Nullark.Js.TreeHash

abbrev HashPair := Text → Text → Text

structure MerklePathResult where
  commitment : Text
  leafIndex : ℤ
  root : Text
  pathElements : List Text
  pathIndices : List ℤ
  source : String
  deriving DecidableEq

/-- **`MerklePathIndex`.** A leaf index is an integer, where the source checks that a number is
one. -/
structure MerklePathIndex where
  depth : ℕ
  zeroHash : Text
  hashPair : HashPair
  leavesByIndex : JsMap ℤ Text
  indexByCommitment : JsMap Text ℤ
  sortedLeafIndexes : Option (List ℤ)
  pathCache : JsMap Text MerklePathResult
  maxPathCacheEntries : ℤ

/-! ### The code -/

def createMerklePathIndex (depth : ℕ) (zeroHash : Text) (hashPair : HashPair)
    (maxPathCacheEntries : Option ℤ) : Throws MerklePathIndex := do
  ensure (0 < depth) "Merkle depth must be a positive integer."
  -- `Number.isSafeInteger(2 ** depth)`
  ensure (2 ^ depth ≤ 2 ^ 53 - 1) "Merkle depth exceeds safe JavaScript index range."
  return {
    depth, zeroHash, hashPair, leavesByIndex := [], indexByCommitment := []
    sortedLeafIndexes := none, pathCache := []
    maxPathCacheEntries := maxPathCacheEntries.getD 256 }

def insertIndexedCommitment (index : MerklePathIndex) (commitment : Text) (leafIndex : ℤ) :
    Throws (MerklePathIndex × Unit) := do
  ensure (0 ≤ leafIndex) "Leaf index must be a non-negative integer."
  ensure (leafIndex < 2 ^ index.depth) "Leaf index exceeds Merkle tree capacity."
  let normalizedCommitment := lower commitment
  ensure (∀ existing ∈ get index.indexByCommitment normalizedCommitment, existing = leafIndex)
    "Commitment is already indexed at a different leaf index."
  ensure (∀ existing ∈ get index.leavesByIndex leafIndex, lower existing = normalizedCommitment)
    "Leaf index already has a different commitment."
  return ({ index with
    leavesByIndex := set index.leavesByIndex leafIndex commitment
    indexByCommitment := set index.indexByCommitment normalizedCommitment leafIndex
    sortedLeafIndexes := none
    pathCache := [] }, ())

/-- The next entry of the table of zero hashes. -/
def pushZeroHash (hashPair : HashPair) (zeroHashesByLevel : List Text) (level : ℕ) : List Text :=
  let previousZeroHash := zeroHashesByLevel.getD (level - 1) []
  zeroHashesByLevel ++ [hashPair previousZeroHash previousZeroHash]

def zeroHashes (index : MerklePathIndex) : List Text :=
  (List.range' 1 index.depth).foldl (pushZeroHash index.hashPair) [index.zeroHash]

def hasLeafInRange (leafIndexes : List ℤ) (rangeStart rangeEnd : ℤ) : Bool :=
  let lo := lowerBound (fun midLeafIndex => decide (midLeafIndex < rangeStart)) leafIndexes 0
    leafIndexes.length
  (leafIndexes[lo]?).any fun firstCandidate => decide (firstCandidate < rangeEnd)

/-- The table of computed nodes, whose keys are the texts `level:position`. -/
abbrev Memo := JsMap (ℕ × ℤ) Text

/-- **`getNodeHash`**, which also returns the table. -/
def getNodeHash (index : MerklePathIndex) (leafIndexes : List ℤ) (zeroHashesByLevel : List Text) :
    ℕ → ℤ → Memo → Text × Memo
  | 0, position, memo => ((get index.leavesByIndex position).getD index.zeroHash, memo)
  | level + 1, position, memo =>
    match get memo (level + 1, position) with
    | some cached => (cached, memo)
    | none =>
      let width : ℤ := 2 ^ (level + 1)
      let rangeStart := position * width
      let rangeEnd := rangeStart + width
      if hasLeafInRange leafIndexes rangeStart rangeEnd then
        let left := getNodeHash index leafIndexes zeroHashesByLevel level (position * 2) memo
        let right := getNodeHash index leafIndexes zeroHashesByLevel level (position * 2 + 1) left.2
        let combined := index.hashPair left.1 right.1
        (combined, set right.2 (level + 1, position) combined)
      else (zeroHashesByLevel.getD (level + 1) [], memo)

/-- The variables of the loop over the levels. -/
structure Walk where
  cursor : ℤ
  pathElements : List Text
  pathIndices : List ℤ
  memo : Memo

/-- One round of that loop. -/
def walkLevel (index : MerklePathIndex) (leafIndexes : List ℤ) (zeroHashesByLevel : List Text)
    (s : Walk) (level : ℕ) : Walk :=
  let sibling := getNodeHash index leafIndexes zeroHashesByLevel level (bitXor s.cursor 1) s.memo
  { cursor := s.cursor / 2
    pathElements := s.pathElements ++ [sibling.1]
    pathIndices := s.pathIndices ++ [bitAnd s.cursor 1]
    memo := sibling.2 }

/-- The eviction of the oldest entries, which come first. -/
def evict (maxPathCacheEntries : ℤ) : JsMap Text MerklePathResult → JsMap Text MerklePathResult
  | [] => []
  | e :: m => if maxPathCacheEntries < (e :: m).length then evict maxPathCacheEntries m else e :: m

/-- The path of a leaf, without the cache. -/
def computePath (index : MerklePathIndex) (leafIndexes : List ℤ) (commitment : Text)
    (leafIndex : ℤ) : MerklePathResult :=
  let zeroHashesByLevel := zeroHashes index
  let walk := (List.range index.depth).foldl (walkLevel index leafIndexes zeroHashesByLevel)
    ⟨leafIndex, [], [], []⟩
  { commitment, leafIndex
    root := (getNodeHash index leafIndexes zeroHashesByLevel index.depth 0 walk.memo).1
    pathElements := walk.pathElements
    pathIndices := walk.pathIndices
    source := "reconstructed-from-indexed-logs" }

/-- **`getMerklePathForCommitment`**, with the state it leaves. -/
def getMerklePathForCommitment (index : MerklePathIndex) (commitment : Text) :
    Throws (MerklePathIndex × MerklePathResult) :=
  match get index.indexByCommitment (lower commitment) with
  | none => .error "Commitment is not indexed."
  | some leafIndex =>
    let cacheKey := lower commitment
    match get index.pathCache cacheKey with
    | some cachedPath =>
      .ok ({ index with pathCache := set (delete index.pathCache cacheKey) cacheKey cachedPath },
        cachedPath)
    | none =>
      let leafIndexes := index.sortedLeafIndexes.getD
        ((keys index.leavesByIndex).mergeSort fun a b => decide (a ≤ b))
      let result := computePath index leafIndexes commitment leafIndex
      let pathCache := if 0 < index.maxPathCacheEntries then
          evict index.maxPathCacheEntries (set index.pathCache cacheKey result)
        else index.pathCache
      .ok ({ index with sortedLeafIndexes := some leafIndexes, pathCache }, result)

/-- The calls the indexer makes. -/
inductive IndexCall
  | insert (commitment : Text) (leafIndex : ℤ)
  | path (commitment : Text)

/-- A call that throws leaves the index as it was. -/
def callIndex (index : MerklePathIndex) : IndexCall → MerklePathIndex
  | .insert commitment leafIndex =>
    settle index (insertIndexedCommitment index commitment leafIndex)
  | .path commitment => settle index (getMerklePathForCommitment index commitment)

/-! ### Nodes -/

/-- **The hash of the indexer is the pool's** on the texts of field elements. -/
structure SamePairHash (poseidon2 : Bytes32 → Bytes32 → Bytes32) (hashPair : HashPair) : Prop where
  field : ∀ l r, isFieldElement l → isFieldElement r → isFieldElement (poseidon2 l r)
  agrees : ∀ l r, isFieldElement l → isFieldElement r →
    hashPair (hex32 l) (hex32 r) = hex32 (poseidon2 l r)

/-- The leaves of the tree, zero where there is none. -/
def padLeaves (leaves : ℕ → Option Bytes32) (i : ℕ) : Bytes32 := (leaves i).getD 0

/-- The texts of the leaves, with that of zero where there is none. -/
def padTexts (index : MerklePathIndex) (texts : ℕ → Option Text) (i : ℕ) : Text :=
  (texts i).getD index.zeroHash

/-- The sorted positions of the leaves. -/
structure SortedLeaves {α : Type} (leaves : ℕ → Option α) (leafIndexes : List ℤ) : Prop where
  sorted : leafIndexes.Pairwise (· ≤ ·)
  mem : ∀ k, k ∈ leafIndexes ↔ ∃ i : ℕ, k = i ∧ (leaves i).isSome

/-- **The index holds the leaves of a partial map** of texts, every one at one place. -/
structure HoldsTexts (index : MerklePathIndex) (texts : ℕ → Option Text) : Prop where
  leavesByIndex : ∀ k t, get index.leavesByIndex k = some t ↔ ∃ i : ℕ, k = i ∧ texts i = some t
  indexByCommitment : ∀ t k, get index.indexByCommitment t = some k ↔
    ∃ (i : ℕ) (c : Text), k = i ∧ texts i = some c ∧ t = lower c
  sortedLeafIndexes : ∀ leafIndexes ∈ index.sortedLeafIndexes, SortedLeaves texts leafIndexes

/-- Every entry of the table is the node at its place. -/
def SoundMemo (hashPair : HashPair) (leaf : ℕ → Text) (memo : Memo) : Prop :=
  ∀ l p v, get memo (l, p) = some v → ∃ q : ℕ, p = q ∧ v = node hashPair leaf l q

section Nodes
variable {index : MerklePathIndex} {texts : ℕ → Option Text} {leafIndexes : List ℤ}

theorem pushZeroHashes_spec (index : MerklePathIndex) : ∀ n : ℕ,
    (List.range' 1 n).foldl (pushZeroHash index.hashPair) [index.zeroHash] =
      (List.range (n + 1)).map (zeroHash index.hashPair index.zeroHash)
  | 0 => rfl
  | n + 1 => by
    have ih := pushZeroHashes_spec index n
    have hprevious : ((List.range (n + 1)).map (zeroHash index.hashPair index.zeroHash)).getD n [] =
        zeroHash index.hashPair index.zeroHash n := by simp [List.getD_eq_getElem?_getD]
    have hrange : List.range' 1 (n + 1) = List.range' 1 n ++ [n + 1] := by
      rw [List.range'_concat, Nat.one_mul, Nat.add_comm 1 n]
    have hpush : pushZeroHash index.hashPair
        ((List.range (n + 1)).map (zeroHash index.hashPair index.zeroHash)) (n + 1) =
          (List.range (n + 1)).map (zeroHash index.hashPair index.zeroHash) ++
            [zeroHash index.hashPair index.zeroHash (n + 1)] := by
      unfold pushZeroHash
      dsimp only
      rw [Nat.add_sub_cancel, hprevious, zeroHash_succ]
    rw [hrange, List.foldl_append, ih, List.foldl_cons, List.foldl_nil, hpush,
      List.range_succ (n := n + 1), List.map_append]
    rfl

theorem HoldsTexts.leaf_text (h : HoldsTexts index texts) (q : ℕ) :
    (get index.leavesByIndex (q : ℤ)).getD index.zeroHash = padTexts index texts q := by
  unfold padTexts
  rcases ht : texts q with _ | t
  · rcases hg : get index.leavesByIndex (q : ℤ) with _ | t
    · rfl
    · obtain ⟨i, hi, ht'⟩ := (h.leavesByIndex _ _).mp hg
      have hqi : q = i := by exact_mod_cast hi
      rw [← hqi, ht] at ht'
      cases ht'
  · rw [(h.leavesByIndex q t).mpr ⟨q, rfl, ht⟩]

/-- A range without a leaf holds zeros. -/
theorem padTexts_of_range (hsorted : SortedLeaves texts leafIndexes) {l q : ℕ}
    (hrange : ¬hasLeafInRange leafIndexes ((q : ℤ) * 2 ^ l) ((q : ℤ) * 2 ^ l + 2 ^ l) = true)
    {i : ℕ} (hi : i / 2 ^ l = q) : padTexts index texts i = index.zeroHash := by
  unfold padTexts
  rcases hl : texts i with _ | c
  · rfl
  · have hpos : 0 < 2 ^ l := by positivity
    have hlow : q * 2 ^ l ≤ i := by rw [← hi]; exact Nat.div_mul_le_self i _
    have hhigh : i < q * 2 ^ l + 2 ^ l := by rw [← hi]; exact Nat.lt_div_mul_add hpos
    refine absurd ((any_lowerBound hsorted.sorted _ _).mpr ⟨(i : ℤ), ?_, ?_, ?_⟩) hrange
    · exact (hsorted.mem i).mpr ⟨i, rfl, by rw [hl]; rfl⟩
    · exact_mod_cast hlow
    · exact_mod_cast hhigh

/-- **The recursion computes the nodes of the tree.** -/
theorem getNodeHash_spec (h : HoldsTexts index texts) (hsorted : SortedLeaves texts leafIndexes) :
    ∀ (l q : ℕ) (memo : Memo), l ≤ index.depth →
    SoundMemo index.hashPair (padTexts index texts) memo →
    (getNodeHash index leafIndexes (zeroHashes index) l q memo).1 =
        node index.hashPair (padTexts index texts) l q ∧
      SoundMemo index.hashPair (padTexts index texts)
        (getNodeHash index leafIndexes (zeroHashes index) l q memo).2
  | 0, q, memo, _, hmemo => ⟨h.leaf_text q, hmemo⟩
  | l + 1, q, memo, hl, hmemo => by
    unfold getNodeHash
    rcases hcached : get memo (l + 1, (q : ℤ)) with _ | cached
    · dsimp only
      split_ifs with hrange
      · obtain ⟨hleft, hmemoL⟩ := getNodeHash_spec h hsorted l (2 * q) memo (by omega) hmemo
        obtain ⟨hright, hmemoR⟩ := getNodeHash_spec h hsorted l (2 * q + 1)
          (getNodeHash index leafIndexes (zeroHashes index) l (2 * q : ℕ) memo).2 (by omega) hmemoL
        have hcastL : (q : ℤ) * 2 = ((2 * q : ℕ) : ℤ) := by push_cast; ring
        have hcastR : (q : ℤ) * 2 + 1 = ((2 * q + 1 : ℕ) : ℤ) := by push_cast; ring
        rw [hcastR, hcastL, hleft, hright, ← node_succ index.hashPair]
        refine ⟨rfl, fun l' p v hv => ?_⟩
        rw [get_set] at hv
        split_ifs at hv with hkey
        · obtain ⟨rfl, rfl⟩ := Prod.mk.inj hkey
          exact ⟨q, rfl, (Option.some.inj hv).symm⟩
        · exact hmemoR l' p v hv
      · have hempty : node index.hashPair (padTexts index texts) (l + 1) q =
            zeroHash index.hashPair index.zeroHash (l + 1) :=
          node_zero index.hashPair fun i hi => padTexts_of_range hsorted hrange hi
        have hlt : l + 1 < index.depth + 1 := by omega
        refine ⟨?_, hmemo⟩
        rw [zeroHashes, pushZeroHashes_spec, hempty, List.getD_eq_getElem?_getD,
          List.getElem?_map, List.getElem?_range hlt]
        rfl
    · obtain ⟨q', hq, rfl⟩ := hmemo _ _ _ hcached
      have hqq : q = q' := by exact_mod_cast hq
      exact ⟨by rw [hqq], hmemo⟩

/-! ### Paths -/

/-- The loop over the levels. -/
theorem walkLevels_spec (h : HoldsTexts index texts) (hsorted : SortedLeaves texts leafIndexes)
    {i : ℕ} (hi : i < 2 ^ 31) : ∀ n ≤ index.depth,
    ∃ memo, (List.range n).foldl (walkLevel index leafIndexes (zeroHashes index))
        ⟨(i : ℤ), [], [], []⟩ =
          ⟨((i / 2 ^ n : ℕ) : ℤ), siblings index.hashPair (padTexts index texts) 0 i n,
            (indexBits i n).map (Nat.cast : ℕ → ℤ), memo⟩ ∧
      SoundMemo index.hashPair (padTexts index texts) memo
  | 0, _ => ⟨[], by simp [siblings, indexBits], fun l p v hv => by simp at hv⟩
  | n + 1, hn => by
    obtain ⟨memo, hwalk, hmemo⟩ := walkLevels_spec h hsorted hi n (by omega)
    have hcursor : i / 2 ^ n < 2 ^ 31 := (Nat.div_le_self _ _).trans_lt hi
    obtain ⟨hsibling, hmemo'⟩ := getNodeHash_spec h hsorted n (sibling (i / 2 ^ n)) memo
      (by omega) hmemo
    have hhalf : ((i / 2 ^ n : ℕ) : ℤ) / 2 = ((i / 2 ^ (n + 1) : ℕ) : ℤ) := by
      rw [pow_succ, ← Nat.div_div_eq_div_mul]
      push_cast
      rfl
    refine ⟨_, ?_, hmemo'⟩
    rw [List.range_succ, List.foldl_append, hwalk, List.foldl_cons, List.foldl_nil]
    unfold walkLevel
    dsimp only
    rw [bitXor_one hcursor, bitAnd_one hcursor, hsibling, hhalf, siblings_concat, indexBits_concat,
      List.map_append, Nat.zero_add]
    rfl

/-- **The path of a leaf**, in the tree over the texts of the index. -/
structure PathIn (index : MerklePathIndex) (texts : ℕ → Option Text) (i : ℕ)
    (r : MerklePathResult) : Prop where
  leafIndex : r.leafIndex = i
  root : r.root = node index.hashPair (padTexts index texts) index.depth 0
  pathElements : r.pathElements = siblings index.hashPair (padTexts index texts) 0 i index.depth
  pathIndices : r.pathIndices = (indexBits i index.depth).map (Nat.cast : ℕ → ℤ)

theorem computePath_spec (h : HoldsTexts index texts) (hsorted : SortedLeaves texts leafIndexes)
    {i : ℕ} (hi : i < 2 ^ 31) (commitment : Text) :
    PathIn index texts i (computePath index leafIndexes commitment i) := by
  obtain ⟨memo, hwalk, hmemo⟩ := walkLevels_spec h hsorted hi index.depth le_rfl
  have hroot := (getNodeHash_spec h hsorted index.depth 0 memo le_rfl hmemo).1
  refine ⟨rfl, ?_, ?_, ?_⟩
  · unfold computePath
    dsimp only
    rw [hwalk]
    exact hroot
  · unfold computePath
    dsimp only
    rw [hwalk]
  · unfold computePath
    dsimp only
    rw [hwalk]

end Nodes

/-! ### The index -/

section Index
variable {index index' : MerklePathIndex} {texts : ℕ → Option Text}

/-- A new index holds no leaf. -/
theorem createMerklePathIndex_of {depth : ℕ} (hdepth : 0 < depth ∧ depth < 53) (zeroHash : Text)
    (hashPair : HashPair) (maxPathCacheEntries : Option ℤ) :
    createMerklePathIndex depth zeroHash hashPair maxPathCacheEntries =
      .ok ⟨depth, zeroHash, hashPair, [], [], none, [], maxPathCacheEntries.getD 256⟩ := by
  have hsafe : 2 ^ depth ≤ 2 ^ 53 - 1 := by
    have hle : 2 ^ depth ≤ 2 ^ 52 := Nat.pow_le_pow_right (by decide) (by omega)
    omega
  unfold createMerklePathIndex
  rw [ensure_of hdepth.1, ok_bind, ensure_of hsafe]
  rfl

/-- The positions a map of leaves has, sorted. -/
theorem HoldsTexts.sortedLeaves (h : HoldsTexts index texts) :
    SortedLeaves texts (index.sortedLeafIndexes.getD
      ((keys index.leavesByIndex).mergeSort fun a b => decide (a ≤ b))) := by
  rcases hs : index.sortedLeafIndexes with _ | leafIndexes
  · rw [Option.getD_none]
    refine ⟨?_, fun k => ?_⟩
    · have hpairwise := @List.pairwise_mergeSort ℤ (fun a b => decide (a ≤ b))
        (fun a b c hab hbc => by simp only [decide_eq_true_iff] at *; omega)
        (fun a b => by simp only [Bool.or_eq_true, decide_eq_true_iff]; omega)
        (keys index.leavesByIndex)
      exact hpairwise.imp fun hab => of_decide_eq_true hab
    · rw [List.mem_mergeSort, mem_keys]
      constructor
      · rintro ⟨t, ht⟩
        obtain ⟨i, hk, hi⟩ := (h.leavesByIndex k t).mp ht
        exact ⟨i, hk, by rw [hi]; rfl⟩
      · rintro ⟨i, hk, hsome⟩
        obtain ⟨t, ht⟩ := Option.isSome_iff_exists.mp hsome
        exact ⟨t, (h.leavesByIndex k t).mpr ⟨i, hk, ht⟩⟩
  · exact h.sortedLeafIndexes leafIndexes hs

/-- The index after a leaf has been put in. -/
def withLeaf (index : MerklePathIndex) (commitment : Text) (leafIndex : ℤ) : MerklePathIndex :=
  { index with
    leavesByIndex := set index.leavesByIndex leafIndex commitment
    indexByCommitment := set index.indexByCommitment (lower commitment) leafIndex
    sortedLeafIndexes := none
    pathCache := [] }

/-- **An insertion** that goes through, with its checks. -/
theorem insertIndexedCommitment_eq_ok {commitment : Text} {leafIndex : ℤ} :
    insertIndexedCommitment index commitment leafIndex = .ok (index', ()) ↔
      0 ≤ leafIndex ∧ leafIndex < 2 ^ index.depth ∧
      (∀ existing ∈ get index.indexByCommitment (lower commitment), existing = leafIndex) ∧
      (∀ existing ∈ get index.leavesByIndex leafIndex, lower existing = lower commitment) ∧
      index' = withLeaf index commitment leafIndex := by
  unfold insertIndexedCommitment
  simp only [bind_eq_ok, ensure_eq_ok, exists_const, pure_eq_ok, Prod.mk.injEq, and_true,
    eq_comm (b := index')]
  rfl

/-- **Inserting a leaf** at a place that is free or has it already. -/
theorem HoldsTexts.withLeaf (h : HoldsTexts index texts) {i : ℕ} {c : Text}
    (hfree : ∀ c' ∈ texts i, lower c' = lower c)
    (hone : ∀ j c', texts j = some c' → lower c' = lower c → j = i) :
    HoldsTexts (withLeaf index c i) (Function.update texts i (some c)) := by
  refine ⟨fun k t => ?_, fun t k => ?_, fun _ hs => ?_⟩
  · change get (set index.leavesByIndex i c) k = some t ↔ _
    rw [get_set]
    by_cases hk : k = i
    · rw [if_pos hk, Option.some.injEq]
      constructor
      · rintro rfl
        exact ⟨i, hk, Function.update_self ..⟩
      · rintro ⟨j, hj, ht⟩
        have hji : j = i := by exact_mod_cast hj.symm.trans hk
        rw [hji, Function.update_self] at ht
        exact Option.some.inj ht
    · rw [if_neg hk, h.leavesByIndex k t]
      refine exists_congr fun j => and_congr_right fun hj => ?_
      have hji : j ≠ i := fun heq => hk (heq ▸ hj)
      rw [Function.update_of_ne hji]
  · change get (set index.indexByCommitment (lower c) i) t = some k ↔ _
    rw [get_set]
    by_cases ht : t = lower c
    · rw [if_pos ht, Option.some.injEq]
      constructor
      · rintro rfl
        exact ⟨i, c, rfl, Function.update_self .., ht⟩
      · rintro ⟨j, c', rfl, hc', heq⟩
        by_cases hji : j = i
        · rw [hji]
        · rw [Function.update_of_ne hji] at hc'
          rw [hone j c' hc' (heq.symm.trans ht)]
    · rw [if_neg ht, h.indexByCommitment t k]
      refine exists_congr fun j => exists_congr fun c' => and_congr_right fun _ => ?_
      by_cases hji : j = i
      · subst hji
        rw [Function.update_self]
        constructor
        · rintro ⟨hc', rfl⟩
          exact absurd (hfree c' hc') ht
        · rintro ⟨hc', rfl⟩
          exact absurd (by rw [← Option.some.inj hc']) ht
      · rw [Function.update_of_ne hji]
  · cases hs

/-! ### The cache -/

/-- Whatever the index caches is right. -/
structure Cached (index : MerklePathIndex) (texts : ℕ → Option Text) : Prop where
  pathCache : ∀ t r, get index.pathCache t = some r →
    ∃ i c, texts i = some c ∧ t = lower c ∧ PathIn index texts i r
  nodup : (keys index.pathCache).Nodup

theorem get_evict {maxPathCacheEntries : ℤ} {t : Text} {r : MerklePathResult} :
    ∀ {m : JsMap Text MerklePathResult}, (keys m).Nodup →
    get (evict maxPathCacheEntries m) t = some r → get m t = some r
  | [], _, h => h
  | (t', r') :: m, hnodup, h => by
    obtain ⟨hout, hnodup'⟩ := List.nodup_cons.mp hnodup
    unfold evict at h
    split_ifs at h
    · have htail := get_evict hnodup' h
      have hne : t' ≠ t := fun heq => hout (heq ▸ mem_keys.mpr ⟨r, htail⟩)
      rw [Lib.Ordered.get, if_neg hne, htail]
    · exact h

theorem nodup_evict {maxPathCacheEntries : ℤ} : ∀ {m : JsMap Text MerklePathResult},
    (keys m).Nodup → (keys (evict maxPathCacheEntries m)).Nodup
  | [], h => h
  | _ :: m, h => by
    unfold evict
    split_ifs
    · exact nodup_evict (List.nodup_cons.mp h).2
    · exact h

/-- **A path comes from the cache or is computed**, and goes into the cache. -/
theorem getMerklePathForCommitment_cases {t : Text} {r : MerklePathResult}
    (hnodup : (keys index.pathCache).Nodup)
    (h : getMerklePathForCommitment index t = .ok (index', r)) :
    ∃ (k : ℤ) (sorted : Option (List ℤ)) (cache : JsMap Text MerklePathResult),
      get index.indexByCommitment (lower t) = some k ∧
      index' = { index with sortedLeafIndexes := sorted, pathCache := cache } ∧
      (keys cache).Nodup ∧
      (∀ t' r', get cache t' = some r' →
        t' = lower t ∧ r' = r ∨ get index.pathCache t' = some r') ∧
      (sorted = index.sortedLeafIndexes ∧ get index.pathCache (lower t) = some r ∨
        ∃ leafIndexes, leafIndexes = index.sortedLeafIndexes.getD
            ((keys index.leavesByIndex).mergeSort fun a b => decide (a ≤ b)) ∧
          sorted = some leafIndexes ∧ r = computePath index leafIndexes t k) := by
  unfold getMerklePathForCommitment at h
  rcases hk : get index.indexByCommitment (lower t) with _ | k
  · rw [hk] at h
    cases h
  rw [hk] at h
  dsimp only at h
  have hset : ∀ {m : JsMap Text MerklePathResult} {s : MerklePathResult},
      (∀ t' r', t' ≠ lower t → get m t' = some r' → get index.pathCache t' = some r') →
      ∀ t' r', get (set m (lower t) s) t' = some r' →
        t' = lower t ∧ r' = s ∨ get index.pathCache t' = some r' := by
    intro m s hm t' r' hr'
    rw [get_set] at hr'
    split_ifs at hr' with heq
    · exact .inl ⟨heq, (Option.some.inj hr').symm⟩
    · exact .inr (hm t' r' heq hr')
  rcases hcache : get index.pathCache (lower t) with _ | cached
  · rw [hcache] at h
    dsimp only at h
    obtain ⟨rfl, rfl⟩ := Prod.mk.inj (Except.ok.inj h)
    refine ⟨k, _, _, rfl, rfl, ?_, fun t' r' hr' => ?_, .inr ⟨_, rfl, rfl, rfl⟩⟩
    · split_ifs
      · exact nodup_evict (nodup_keys_set hnodup _ _)
      · exact hnodup
    · split_ifs at hr'
      · exact hset (fun _ _ _ hm => hm) t' r' (get_evict (nodup_keys_set hnodup _ _) hr')
      · exact .inr hr'
  · rw [hcache] at h
    dsimp only at h
    obtain ⟨rfl, rfl⟩ := Prod.mk.inj (Except.ok.inj h)
    refine ⟨k, _, _, rfl, rfl, nodup_keys_set (nodup_keys_delete hnodup _) _ _,
      hset fun t' r' hne hm => ?_, .inl ⟨rfl, rfl⟩⟩
    rwa [get_delete_of_ne _ hne] at hm

/-- A leaf the index holds has a path. -/
theorem getMerklePathForCommitment_isOk {t : Text} {k : ℤ}
    (h : get index.indexByCommitment (lower t) = some k) :
    ∃ index' r, getMerklePathForCommitment index t = .ok (index', r) := by
  unfold getMerklePathForCommitment
  rw [h]
  dsimp only
  rcases get index.pathCache (lower t) with _ | cached
  · exact ⟨_, _, rfl⟩
  · exact ⟨_, _, rfl⟩

/-- **The path that is returned** is the path of the leaf, from the cache or not. -/
theorem HoldsTexts.path (h : HoldsTexts index texts) (hcached : Cached index texts) {i : ℕ}
    {c t : Text} (hc : texts i = some c) (hi : i < 2 ^ 31) (ht : lower t = lower c)
    {r : MerklePathResult} (hok : getMerklePathForCommitment index t = .ok (index', r)) :
    PathIn index texts i r ∧ HoldsTexts index' texts ∧ Cached index' texts := by
  obtain ⟨k, sorted, cache, hk, rfl, hnodup, hcache, hfrom⟩ :=
    getMerklePathForCommitment_cases hcached.nodup hok
  have hfind : get index.indexByCommitment (lower t) = some (i : ℤ) := by
    rw [ht]
    exact (h.indexByCommitment _ _).mpr ⟨i, c, rfl, hc, rfl⟩
  have hki : k = i := Option.some.inj (hk.symm.trans hfind)
  have hpath : PathIn index texts i r ∧ ∀ leafIndexes ∈ sorted, SortedLeaves texts leafIndexes := by
    rcases hfrom with ⟨rfl, hr⟩ | ⟨leafIndexes, rfl, rfl, rfl⟩
    · obtain ⟨j, c', hj, hkey, hpath⟩ := hcached.pathCache _ _ hr
      have hplace := (h.indexByCommitment (lower t) (j : ℤ)).mpr ⟨j, c', rfl, hj, hkey⟩
      rw [hfind, Option.some.injEq] at hplace
      have hji : i = j := by exact_mod_cast hplace
      exact ⟨hji ▸ hpath, h.sortedLeafIndexes⟩
    · refine ⟨hki ▸ computePath_spec h h.sortedLeaves hi t, fun s hs => ?_⟩
      rw [← Option.mem_some_iff.mp hs]
      exact h.sortedLeaves
  refine ⟨hpath.1, ⟨h.leavesByIndex, h.indexByCommitment, hpath.2⟩, fun t' r' hr' => ?_, hnodup⟩
  rcases hcache t' r' hr' with ⟨rfl, rfl⟩ | hr'
  · obtain ⟨hleafIndex, hroot, helements, hindices⟩ := hpath.1
    exact ⟨i, c, hc, ht, hleafIndex, hroot, helements, hindices⟩
  · obtain ⟨j, c', hj, hkey, hleafIndex, hroot, helements, hindices⟩ := hcached.pathCache t' r' hr'
    exact ⟨j, c', hj, hkey, hleafIndex, hroot, helements, hindices⟩

end Index

/-! ### The tree of the pool -/

/-- The map holds the leaves that `leaves` gives. -/
def HoldsLeaves (index : MerklePathIndex) (leaves : ℕ → Option Bytes32) : Prop :=
  ∀ k t, get index.leavesByIndex k = some t ↔ ∃ i c, k = (i : ℕ) ∧ leaves i = some c ∧ t = hex32 c

/-- **The path of a leaf**, in the tree over the leaves of the index. -/
structure PathOf (poseidon2 : Bytes32 → Bytes32 → Bytes32) (depth : ℕ)
    (leaves : ℕ → Option Bytes32) (i : ℕ) (r : MerklePathResult) : Prop where
  leafIndex : r.leafIndex = i
  root : r.root = hex32 (node poseidon2 (padLeaves leaves) depth 0)
  pathElements : r.pathElements = (siblings poseidon2 (padLeaves leaves) 0 i depth).map hex32
  pathIndices : r.pathIndices = (indexBits i depth).map (Nat.cast : ℕ → ℤ)

/-- **The index holds the leaves of a partial map**, every one at one place, and whatever it caches
is right. -/
structure Indexed (poseidon2 : Bytes32 → Bytes32 → Bytes32) (index : MerklePathIndex)
    (leaves : ℕ → Option Bytes32) : Prop where
  hashPair : SamePairHash poseidon2 index.hashPair
  zeroHash : index.zeroHash = hex32 0
  leavesByIndex : HoldsLeaves index leaves
  indexByCommitment : ∀ t k, get index.indexByCommitment t = some k ↔
    ∃ i c, k = (i : ℕ) ∧ leaves i = some c ∧ t = hex32 c
  sortedLeafIndexes : ∀ leafIndexes ∈ index.sortedLeafIndexes, SortedLeaves leaves leafIndexes
  pathCache : ∀ t r, get index.pathCache t = some r →
    ∃ i c, leaves i = some c ∧ t = hex32 c ∧ PathOf poseidon2 index.depth leaves i r
  nodup : (keys index.pathCache).Nodup

/-- The texts of the leaves. -/
def textsOf (leaves : ℕ → Option Bytes32) (i : ℕ) : Option Text := (leaves i).map hex32

variable {poseidon2 : Bytes32 → Bytes32 → Bytes32} {index : MerklePathIndex}
  {leaves : ℕ → Option Bytes32}

theorem textsOf_eq_some {i : ℕ} {t : Text} :
    textsOf leaves i = some t ↔ ∃ c, leaves i = some c ∧ t = hex32 c := by
  unfold textsOf
  simp only [Option.map_eq_some_iff, eq_comm (a := t)]

theorem textsOf_update (i : ℕ) (c : Bytes32) :
    textsOf (Function.update leaves i (some c)) =
      Function.update (textsOf leaves) i (some (hex32 c)) := by
  funext j
  unfold textsOf
  rcases eq_or_ne j i with rfl | hj
  · simp
  · simp [hj]

theorem sortedLeaves_textsOf {leafIndexes : List ℤ} :
    SortedLeaves (textsOf leaves) leafIndexes ↔ SortedLeaves leaves leafIndexes := by
  have hsome : ∀ i, (textsOf leaves i).isSome = (leaves i).isSome := fun i => Option.isSome_map
  exact ⟨fun h => ⟨h.sorted, fun k => by simp only [h.mem, hsome]⟩,
    fun h => ⟨h.sorted, fun k => by simp only [h.mem, hsome]⟩⟩

/-- The texts of an index and its leaves. -/
theorem holdsTexts_textsOf : HoldsTexts index (textsOf leaves) ↔ HoldsLeaves index leaves ∧
    (∀ t k, get index.indexByCommitment t = some k ↔
      ∃ i c, k = (i : ℕ) ∧ leaves i = some c ∧ t = hex32 c) ∧
    ∀ leafIndexes ∈ index.sortedLeafIndexes, SortedLeaves leaves leafIndexes := by
  have hplace : ∀ (k : ℤ) (t : Text), (∃ i : ℕ, k = i ∧ textsOf leaves i = some t) ↔
      ∃ i c, k = (i : ℕ) ∧ leaves i = some c ∧ t = hex32 c := by
    intro k t
    simp only [textsOf_eq_some]
    constructor
    · rintro ⟨i, hk, c, hc, rfl⟩
      exact ⟨i, c, hk, hc, rfl⟩
    · rintro ⟨i, c, hk, hc, rfl⟩
      exact ⟨i, hk, c, hc, rfl⟩
  have hcommitment : ∀ (k : ℤ) (t : Text),
      (∃ (i : ℕ) (c : Text), k = i ∧ textsOf leaves i = some c ∧ t = lower c) ↔
        ∃ i c, k = (i : ℕ) ∧ leaves i = some c ∧ t = hex32 c := by
    intro k t
    simp only [textsOf_eq_some]
    constructor
    · rintro ⟨i, _, hk, ⟨c, hc, rfl⟩, ht⟩
      exact ⟨i, c, hk, hc, ht.trans (lower_hex32 c)⟩
    · rintro ⟨i, c, hk, hc, rfl⟩
      exact ⟨i, _, hk, ⟨c, hc, rfl⟩, (lower_hex32 c).symm⟩
  constructor
  · intro h
    exact ⟨fun k t => (h.leavesByIndex k t).trans (hplace k t),
      fun t k => (h.indexByCommitment t k).trans (hcommitment k t),
      fun s hs => sortedLeaves_textsOf.mp (h.sortedLeafIndexes s hs)⟩
  · rintro ⟨hleaves, hindex, hsorted⟩
    exact ⟨fun k t => (hleaves k t).trans (hplace k t).symm,
      fun t k => (hindex t k).trans (hcommitment k t).symm,
      fun s hs => sortedLeaves_textsOf.mpr (hsorted s hs)⟩

/-- The path is the same in both trees. -/
theorem pathIn_textsOf (hsame : SamePairHash poseidon2 index.hashPair)
    (hzero : index.zeroHash = hex32 0) (hfield : ∀ i, isFieldElement (padLeaves leaves i)) {i : ℕ}
    {r : MerklePathResult} :
    PathIn index (textsOf leaves) i r ↔ PathOf poseidon2 index.depth leaves i r := by
  have hpad : padTexts index (textsOf leaves) = fun j => hex32 (padLeaves leaves j) := by
    funext j
    unfold padTexts textsOf padLeaves
    rcases leaves j with _ | c
    · exact hzero
    · rfl
  have hmap : ∀ a b, isFieldElement a → isFieldElement b → isFieldElement (poseidon2 a b) ∧
      index.hashPair (hex32 a) (hex32 b) = hex32 (poseidon2 a b) :=
    fun a b ha hb => ⟨hsame.field a b ha hb, hsame.agrees a b ha hb⟩
  have hroot : node index.hashPair (padTexts index (textsOf leaves)) index.depth 0 =
      hex32 (node poseidon2 (padLeaves leaves) index.depth 0) := by
    rw [hpad]
    exact (node_map hmap hfield index.depth 0).2
  have hsiblings : siblings index.hashPair (padTexts index (textsOf leaves)) 0 i index.depth =
      (siblings poseidon2 (padLeaves leaves) 0 i index.depth).map hex32 := by
    rw [hpad]
    exact siblings_map poseidon2 hmap hfield 0 i index.depth
  constructor
  · rintro ⟨hleafIndex, hr, helements, hindices⟩
    exact ⟨hleafIndex, hr.trans hroot, helements.trans hsiblings, hindices⟩
  · rintro ⟨hleafIndex, hr, helements, hindices⟩
    exact ⟨hleafIndex, hr.trans hroot.symm, helements.trans hsiblings.symm, hindices⟩

/-- A new index holds no leaf. -/
theorem createMerklePathIndex_spec {hashPair : HashPair} (hsame : SamePairHash poseidon2 hashPair)
    {depth : ℕ} (hdepth : 0 < depth ∧ depth < 53) (maxPathCacheEntries : Option ℤ) :
    ∃ index, createMerklePathIndex depth (hex32 0) hashPair maxPathCacheEntries = .ok index ∧
      Indexed poseidon2 index (fun _ => none) ∧ index.depth = depth := by
  refine ⟨_, createMerklePathIndex_of hdepth _ _ _, ?_, rfl⟩
  refine ⟨hsame, rfl, fun k t => ?_, fun t k => ?_, fun _ h => ?_, fun t r h => ?_, List.nodup_nil⟩
  · simp
  · simp
  · cases h
  · cases h

theorem Indexed.holdsTexts (h : Indexed poseidon2 index leaves) :
    HoldsTexts index (textsOf leaves) :=
  holdsTexts_textsOf.mpr ⟨h.leavesByIndex, h.indexByCommitment, h.sortedLeafIndexes⟩

/-- **Inserting a leaf** at a place that is free or has it already. -/
theorem insertIndexedCommitment_spec (h : Indexed poseidon2 index leaves) {i : ℕ} {c : Bytes32}
    (hi : i < 2 ^ index.depth) (hfree : ∀ c' ∈ leaves i, c' = c) (hone : ∀ j, leaves j = some c → j = i) :
    ∃ index', insertIndexedCommitment index (hex32 c) i = .ok (index', ()) ∧
      Indexed poseidon2 index' (Function.update leaves i (some c)) ∧
      index'.depth = index.depth := by
  have hfreeText : ∀ c' ∈ textsOf leaves i, lower c' = lower (hex32 c) := by
    intro t ht
    obtain ⟨c', hc', rfl⟩ := textsOf_eq_some.mp ht
    rw [hfree c' hc']
  have honeText : ∀ j c', textsOf leaves j = some c' → lower c' = lower (hex32 c) → j = i := by
    intro j t ht heq
    obtain ⟨c', hc', rfl⟩ := textsOf_eq_some.mp ht
    rw [lower_hex32, lower_hex32] at heq
    exact hone j (hex32_injective heq ▸ hc')
  have hholds := h.holdsTexts.withLeaf hfreeText honeText
  rw [← textsOf_update] at hholds
  obtain ⟨hleaves, hindex, hsorted⟩ := holdsTexts_textsOf.mp hholds
  refine ⟨withLeaf index (hex32 c) i, insertIndexedCommitment_eq_ok.mpr
    ⟨Int.natCast_nonneg i, by exact_mod_cast hi, ?_, ?_, rfl⟩, ?_, rfl⟩
  · intro k hk
    obtain ⟨j, c', rfl, hj, heq⟩ := (h.holdsTexts.indexByCommitment _ _).mp hk
    rw [honeText j c' hj heq.symm]
  · intro t ht
    obtain ⟨j, hij, hj⟩ := (h.holdsTexts.leavesByIndex _ _).mp ht
    have hji : i = j := by exact_mod_cast hij
    exact hfreeText t (hji ▸ hj)
  · exact ⟨h.hashPair, h.zeroHash, hleaves, hindex, hsorted, fun _ _ hr => (by cases hr),
      List.nodup_nil⟩

/-- **The path of a leaf the index holds**, from the cache or not. -/
theorem getMerklePathForCommitment_spec (h : Indexed poseidon2 index leaves)
    (hfield : ∀ i, isFieldElement (padLeaves leaves i)) {i : ℕ} {c : Bytes32}
    (hc : leaves i = some c) (hi : i < 2 ^ 31) {t : Text} (ht : lower t = hex32 c) :
    ∃ index' r, getMerklePathForCommitment index t = .ok (index', r) ∧
      PathOf poseidon2 index.depth leaves i r ∧ Indexed poseidon2 index' leaves ∧
      index'.depth = index.depth := by
  have hpath : ∀ {j : ℕ} {r : MerklePathResult}, PathIn index (textsOf leaves) j r ↔
      PathOf poseidon2 index.depth leaves j r := pathIn_textsOf h.hashPair h.zeroHash hfield
  have hcached : Cached index (textsOf leaves) := by
    refine ⟨fun t' r' hr' => ?_, h.nodup⟩
    obtain ⟨j, c', hj, rfl, hj'⟩ := h.pathCache t' r' hr'
    exact ⟨j, hex32 c', textsOf_eq_some.mpr ⟨c', hj, rfl⟩, (lower_hex32 c').symm, hpath.mpr hj'⟩
  have hfind : get index.indexByCommitment (lower t) = some (i : ℤ) := by
    rw [ht]
    exact (h.indexByCommitment _ _).mpr ⟨i, c, rfl, hc, rfl⟩
  obtain ⟨index', r, hok⟩ := getMerklePathForCommitment_isOk hfind
  have htext : textsOf leaves i = some (hex32 c) := textsOf_eq_some.mpr ⟨c, hc, rfl⟩
  obtain ⟨hr, hholds', hcached'⟩ := h.holdsTexts.path hcached htext hi
    (ht.trans (lower_hex32 c).symm) hok
  obtain ⟨k, sorted, cache, -, rfl, -, -, -⟩ := getMerklePathForCommitment_cases h.nodup hok
  obtain ⟨hleaves, hindex, hsorted⟩ := holdsTexts_textsOf.mp hholds'
  refine ⟨_, r, hok, hpath.mp hr, ⟨h.hashPair, h.zeroHash, hleaves, hindex, hsorted,
    fun t' r' hr' => ?_, hcached'.nodup⟩, rfl⟩
  obtain ⟨j, t'', hj, rfl, hleafIndex, hroot, helements, hindices⟩ := hcached'.pathCache t' r' hr'
  obtain ⟨c', hc', rfl⟩ := textsOf_eq_some.mp hj
  exact ⟨j, c', hc', lower_hex32 c', hpath.mp ⟨hleafIndex, hroot, helements, hindices⟩⟩

/-! ### Runs -/

/-- The leaves are those of a list, at their places. -/
def LeavesOf (all : List Bytes32) (leaves : ℕ → Option Bytes32) : Prop :=
  ∀ i c, leaves i = some c → all[i]? = some c

section Runs
variable {all : List Bytes32} (hnodup : all.Nodup) (hfield : ∀ x ∈ all, isFieldElement x)
  (hsmall : all.length ≤ 2 ^ 31)

include hfield in
theorem LeavesOf.field (h : LeavesOf all leaves) (i : ℕ) : isFieldElement (padLeaves leaves i) := by
  unfold padLeaves
  rcases hl : leaves i with _ | c
  · exact isFieldElement_zero
  · exact hfield c (List.mem_of_getElem? (h i c hl))

include hnodup in
theorem callIndex_insert (h : Indexed poseidon2 index leaves) (hsub : LeavesOf all leaves)
    (hdepth : all.length ≤ 2 ^ index.depth) {i : ℕ} {c : Bytes32} (hi : all[i]? = some c) :
    Indexed poseidon2 (callIndex index (.insert (hex32 c) i)) (Function.update leaves i (some c)) ∧
      (callIndex index (.insert (hex32 c) i)).depth = index.depth := by
  have hlt : i < all.length := (List.getElem?_eq_some_iff.mp hi).1
  have hfree : ∀ c' ∈ leaves i, c' = c := fun c' hc' =>
    Option.some.inj ((hsub i c' hc').symm.trans hi)
  have hone : ∀ j, leaves j = some c → j = i := fun j hj =>
    ((List.getElem?_inj hlt hnodup).mp (hi.trans (hsub j c hj).symm)).symm
  obtain ⟨index', hinsert, h', hdepth'⟩ := insertIndexedCommitment_spec h (hlt.trans_le hdepth)
    hfree hone
  have hstep : callIndex index (.insert (hex32 c) i) = index' := by
    dsimp only [callIndex]
    rw [hinsert, settle_ok]
  rw [hstep]
  exact ⟨h', hdepth'⟩

include hfield hsmall in
theorem callIndex_path (h : Indexed poseidon2 index leaves) (hsub : LeavesOf all leaves) (t : Text) :
    Indexed poseidon2 (callIndex index (.path t)) leaves ∧
      (callIndex index (.path t)).depth = index.depth := by
  dsimp only [callIndex]
  rcases hg : get index.indexByCommitment (lower t) with _ | k
  · have herr : getMerklePathForCommitment index t = .error "Commitment is not indexed." := by
      unfold getMerklePathForCommitment
      rw [hg]
    rw [herr, settle_error]
    exact ⟨h, rfl⟩
  · obtain ⟨i, c, rfl, hc, ht⟩ := (h.indexByCommitment _ _).mp hg
    have hlt : i < all.length := (List.getElem?_eq_some_iff.mp (hsub i c hc)).1
    obtain ⟨index', r, hok, -, h', hd⟩ := getMerklePathForCommitment_spec h (hsub.field hfield) hc
      (hlt.trans_le hsmall) ht
    rw [hok, settle_ok]
    exact ⟨h', hd⟩

theorem leavesOf_update (hsub : LeavesOf all leaves) {i : ℕ} {c : Bytes32} (hi : all[i]? = some c) :
    LeavesOf all (Function.update leaves i (some c)) := by
  intro j c' hj
  by_cases hji : j = i
  · rw [hji, Function.update_self] at hj
    rw [hji, hi, hj]
  · rw [Function.update_of_ne hji] at hj
    exact hsub j c' hj

/-- The calls insert leaves of a list at their places, and ask for any paths. -/
def Feeds (all : List Bytes32) (calls : List IndexCall) : Prop :=
  ∀ (t : Text) (k : ℤ), .insert t k ∈ calls →
    ∃ (i : ℕ) (c : Bytes32), k = i ∧ t = hex32 c ∧ all[i]? = some c

include hnodup hfield hsmall in
/-- **Any calls.** Whatever leaves of the list the calls insert, in whatever order and as often as
they like, and whatever paths they ask for in between, the index holds the leaves inserted. -/
theorem indexed_calls : ∀ (calls : List IndexCall) (index : MerklePathIndex)
    (leaves : ℕ → Option Bytes32), all.length ≤ 2 ^ index.depth → Indexed poseidon2 index leaves →
    LeavesOf all leaves → Feeds all calls →
    ∃ leaves', Indexed poseidon2 (calls.foldl callIndex index) leaves' ∧
      (calls.foldl callIndex index).depth = index.depth ∧ LeavesOf all leaves' ∧
      (∀ i c, leaves i = some c → leaves' i = some c) ∧
      ∀ (i : ℕ) (c : Bytes32), all[i]? = some c → .insert (hex32 c) (i : ℤ) ∈ calls →
        leaves' i = some c
  | [], index, leaves, _, h, hsub, _ =>
    ⟨leaves, h, rfl, hsub, fun _ _ hc => hc, fun _ _ _ hmem => absurd hmem List.not_mem_nil⟩
  | call :: calls, index, leaves, hdepth, h, hsub, hcalls => by
    have hrest : Feeds all calls := fun t k hmem => hcalls t k (List.mem_cons_of_mem _ hmem)
    cases call with
    | insert t k =>
      obtain ⟨i, c, rfl, rfl, hi⟩ := hcalls t k List.mem_cons_self
      obtain ⟨h', hdepth'⟩ := callIndex_insert hnodup h hsub hdepth hi
      obtain ⟨leaves', hfin, hd, hs, hkeep, hins⟩ := indexed_calls calls _ _
        (by rw [hdepth']; exact hdepth) h' (leavesOf_update hsub hi) hrest
      have hput : leaves' i = some c := hkeep i c (Function.update_self ..)
      refine ⟨leaves', hfin, hd.trans hdepth', hs, fun j c' hj => ?_, fun j c' hj hmem => ?_⟩
      · by_cases hji : j = i
        · rw [hji, hput, ← hi, ← hji]
          exact hsub j c' hj
        · exact hkeep j c' (by rw [Function.update_of_ne hji, hj])
      · rcases List.mem_cons.mp hmem with heq | hmem
        · obtain ⟨-, hji⟩ := IndexCall.insert.inj heq
          have hji' : j = i := by exact_mod_cast hji
          rw [hji', hput, ← hi, ← hji', hj]
        · exact hins j c' hj hmem
    | path t =>
      obtain ⟨h', hdepth'⟩ := callIndex_path hfield hsmall h hsub t
      obtain ⟨leaves', hfin, hd, hs, hkeep, hins⟩ := indexed_calls calls (callIndex index (.path t))
        leaves (by rw [hdepth']; exact hdepth) h' hsub hrest
      refine ⟨leaves', hfin, hd.trans hdepth', hs, hkeep, fun j c' hj hmem => ?_⟩
      rcases List.mem_cons.mp hmem with heq | hmem
      · cases heq
      · exact hins j c' hj hmem

end Runs

end Nullark.Indexer.MerklePaths
