import Nullark.Indexer.MerklePaths

/-! # Paths at all leaf indices

The index takes depths up to 52, and the loop over the levels goes up by a division, but the position
of the sibling is computed with the 32-bit operator `^`. From `2 ^ 31` on it is another position.

* `walkLevels_reads`: the nodes that are read, at whatever index.
* `readPath`, `CachedReads`: the path that is returned, from the cache or not.
* `Follows`, `follows_calls`: the leaves and the cache after any calls.
* `right_of`: what is enough for all paths to be right; `forced`: what a hash without collisions forces.
* `right_iff`: for which insertions all paths are right under every hash. -/

namespace Nullark.Indexer.HighPaths

open Nullark.Lib.Outcome Nullark.Lib.Hex Nullark.Lib.Ordered Nullark.Lib.Search
open Nullark.Lib.Merkle.Tree
open Nullark.Js.Basic
open Nullark.Indexer.MerklePaths

/-! ### The operators -/

/-- The low bit is right at every index. -/
theorem bitAnd_one_natCast (i : ℕ) : bitAnd i 1 = (i % 2 : ℕ) := by
  have hnat : (BitVec.ofInt 32 (i : ℤ) &&& BitVec.ofInt 32 1).toNat = i % 2 := by
    rw [BitVec.toNat_and, BitVec.ofInt_natCast, BitVec.toNat_ofNat]
    change i % 2 ^ 32 &&& 1 = i % 2
    rw [Nat.and_one_is_mod, Nat.mod_mod_of_dvd i (by decide : 2 ∣ 2 ^ 32)]
  unfold bitAnd
  rw [BitVec.toInt_eq_toNat_of_lt (by rw [hnat]; omega), hnat]

/-- The other operator stays below `2 ^ 31`. -/
theorem bitXor_lt (a b : ℤ) : bitXor a b < 2 ^ 31 := BitVec.toInt_lt

/-! ### Nodes at any position -/

/-- The node at a position, which is the zero hash of its level in front of the leaves. -/
def nodeAt (hashPair : HashPair) (zero : Text) (leaf : ℕ → Text) (l : ℕ) (p : ℤ) : Text :=
  if 0 ≤ p then node hashPair leaf l p.toNat else zeroHash hashPair zero l

theorem nodeAt_natCast (hashPair : HashPair) (zero : Text) (leaf : ℕ → Text) (l p : ℕ) :
    nodeAt hashPair zero leaf l p = node hashPair leaf l p :=
  if_pos (Int.natCast_nonneg p)

/-- The position of the node that is read beside the one at `i` on a level. -/
def readPosition (i l : ℕ) : ℤ := bitXor ((i / 2 ^ l : ℕ) : ℤ) 1

section Nodes
variable {index index' : MerklePathIndex} {texts : ℕ → Option Text} {leafIndexes : List ℤ}

/-- Nothing is held in front of the leaves. -/
theorem getNodeHash_neg (h : HoldsTexts index texts) (hsorted : SortedLeaves texts leafIndexes)
    {l : ℕ} (hl : l ≤ index.depth) {p : ℤ} (hp : p < 0) {memo : Memo}
    (hmemo : SoundMemo index.hashPair (padTexts index texts) memo) :
    getNodeHash index leafIndexes (zeroHashes index) l p memo =
      (zeroHash index.hashPair index.zeroHash l, memo) := by
  cases l with
  | zero =>
    have hnone : get index.leavesByIndex p = none := by
      rcases hg : get index.leavesByIndex p with _ | t
      · rfl
      · obtain ⟨i, hi, -⟩ := (h.leavesByIndex _ _).mp hg
        omega
    rw [getNodeHash, hnone]
    rfl
  | succ l =>
    have hfresh : get memo (l + 1, p) = none := by
      rcases hg : get memo (l + 1, p) with _ | v
      · rfl
      · obtain ⟨q, hq, -⟩ := hmemo _ _ _ hg
        omega
    have hempty : ¬hasLeafInRange leafIndexes (p * 2 ^ (l + 1)) (p * 2 ^ (l + 1) + 2 ^ (l + 1)) =
        true := by
      intro hany
      obtain ⟨k, hk, -, hlt⟩ := (any_lowerBound hsorted.sorted _ _).mp hany
      obtain ⟨i, rfl, -⟩ := (hsorted.mem k).mp hk
      have hpos : (0 : ℤ) < 2 ^ (l + 1) := by positivity
      have hle : (p + 1) * 2 ^ (l + 1) ≤ 0 := mul_nonpos_of_nonpos_of_nonneg (by omega) hpos.le
      rw [add_mul, one_mul] at hle
      omega
    have hlt : l + 1 < index.depth + 1 := by omega
    rw [getNodeHash, hfresh]
    dsimp only
    rw [if_neg hempty, zeroHashes, pushZeroHashes_spec, List.getD_eq_getElem?_getD,
      List.getElem?_map, List.getElem?_range hlt]
    rfl

/-- **The node that is computed**, at any position. -/
theorem getNodeHash_nodeAt (h : HoldsTexts index texts) (hsorted : SortedLeaves texts leafIndexes)
    {l : ℕ} (hl : l ≤ index.depth) (p : ℤ) {memo : Memo}
    (hmemo : SoundMemo index.hashPair (padTexts index texts) memo) :
    (getNodeHash index leafIndexes (zeroHashes index) l p memo).1 =
        nodeAt index.hashPair index.zeroHash (padTexts index texts) l p ∧
      SoundMemo index.hashPair (padTexts index texts)
        (getNodeHash index leafIndexes (zeroHashes index) l p memo).2 := by
  rcases lt_or_ge p 0 with hp | hp
  · rw [getNodeHash_neg h hsorted hl hp hmemo, nodeAt, if_neg (not_le.mpr hp)]
    exact ⟨rfl, hmemo⟩
  · obtain ⟨q, rfl⟩ := Int.eq_ofNat_of_zero_le hp
    rw [nodeAt_natCast]
    exact getNodeHash_spec h hsorted l q memo hl hmemo

/-- The nodes that are read beside the first levels. -/
def reads (index : MerklePathIndex) (texts : ℕ → Option Text) (i n : ℕ) : List Text :=
  (List.range n).map fun l =>
    nodeAt index.hashPair index.zeroHash (padTexts index texts) l (readPosition i l)

theorem length_reads (index : MerklePathIndex) (texts : ℕ → Option Text) (i n : ℕ) :
    (reads index texts i n).length = n := by
  rw [reads, List.length_map, List.length_range]

/-- **The loop over the levels**, at any index. -/
theorem walkLevels_reads (h : HoldsTexts index texts) (hsorted : SortedLeaves texts leafIndexes)
    (i : ℕ) : ∀ n ≤ index.depth,
    ∃ memo, (List.range n).foldl (walkLevel index leafIndexes (zeroHashes index))
        ⟨(i : ℤ), [], [], []⟩ =
          ⟨((i / 2 ^ n : ℕ) : ℤ), reads index texts i n,
            (indexBits i n).map (Nat.cast : ℕ → ℤ), memo⟩ ∧
      SoundMemo index.hashPair (padTexts index texts) memo
  | 0, _ => ⟨[], by simp [reads, indexBits], fun l p v hv => by simp at hv⟩
  | n + 1, hn => by
    obtain ⟨memo, hwalk, hmemo⟩ := walkLevels_reads h hsorted i n (by omega)
    obtain ⟨hread, hmemo'⟩ := getNodeHash_nodeAt h hsorted (Nat.le_of_succ_le hn)
      (readPosition i n) hmemo
    have hhalf : ((i / 2 ^ n : ℕ) : ℤ) / 2 = ((i / 2 ^ (n + 1) : ℕ) : ℤ) := by
      rw [pow_succ, ← Nat.div_div_eq_div_mul]
      push_cast
      rfl
    refine ⟨_, ?_, hmemo'⟩
    rw [List.range_succ, List.foldl_append, hwalk, List.foldl_cons, List.foldl_nil]
    unfold walkLevel
    dsimp only
    rw [bitAnd_one_natCast, hhalf, indexBits_concat, List.map_append, reads, reads, List.range_succ,
      List.map_append, List.map_singleton, ← hread]
    rfl

/-- **The path that is computed.** -/
def readPath (index : MerklePathIndex) (texts : ℕ → Option Text) (i : ℕ) (commitment : Text) :
    MerklePathResult :=
  { commitment
    leafIndex := i
    root := node index.hashPair (padTexts index texts) index.depth 0
    pathElements := reads index texts i index.depth
    pathIndices := (indexBits i index.depth).map (Nat.cast : ℕ → ℤ)
    source := "reconstructed-from-indexed-logs" }

theorem computePath_reads (h : HoldsTexts index texts) (hsorted : SortedLeaves texts leafIndexes)
    (i : ℕ) (commitment : Text) :
    computePath index leafIndexes commitment i = readPath index texts i commitment := by
  obtain ⟨memo, hwalk, hmemo⟩ := walkLevels_reads h hsorted i index.depth le_rfl
  have hroot := (getNodeHash_spec h hsorted index.depth 0 memo le_rfl hmemo).1
  unfold computePath
  dsimp only
  rw [hwalk]
  dsimp only
  rw [← Int.natCast_zero, hroot]
  rfl

/-- The path depends on the depth and the hashes of the index alone. -/
theorem readPath_congr (hdepth : index'.depth = index.depth)
    (hhash : index'.hashPair = index.hashPair) (hzero : index'.zeroHash = index.zeroHash) (i : ℕ)
    (commitment : Text) : readPath index' texts i commitment = readPath index texts i commitment := by
  unfold readPath reads padTexts
  rw [hdepth, hhash, hzero]

/-! ### The cache -/

/-- Whatever the index caches was computed for one of these queries. -/
structure CachedReads (index : MerklePathIndex) (texts : ℕ → Option Text) (queries : Set Text) :
    Prop where
  pathCache : ∀ t r, get index.pathCache t = some r → ∃ i c, ∃ q ∈ queries, texts i = some c ∧
    lower q = lower c ∧ t = lower c ∧ r = readPath index texts i q
  nodup : (keys index.pathCache).Nodup

/-- **The path that is returned** was computed, now or for an earlier query. -/
theorem path_reads {queries : Set Text} (h : HoldsTexts index texts)
    (hcached : CachedReads index texts queries) {i : ℕ} {c t : Text} (hc : texts i = some c)
    (ht : lower t = lower c) {r : MerklePathResult}
    (hok : getMerklePathForCommitment index t = .ok (index', r)) :
    (∃ q ∈ insert t queries, lower q = lower c ∧ r = readPath index texts i q) ∧
      HoldsTexts index' texts ∧ CachedReads index' texts (insert t queries) := by
  obtain ⟨k, sorted, cache, hk, rfl, hnodup, hcache, hfrom⟩ :=
    getMerklePathForCommitment_cases hcached.nodup hok
  have hfind : get index.indexByCommitment (lower t) = some (i : ℤ) := by
    rw [ht]
    exact (h.indexByCommitment _ _).mpr ⟨i, c, rfl, hc, rfl⟩
  have hki : k = i := Option.some.inj (hk.symm.trans hfind)
  have hpath : (∃ q ∈ insert t queries, lower q = lower c ∧ r = readPath index texts i q) ∧
      ∀ leafIndexes ∈ sorted, SortedLeaves texts leafIndexes := by
    rcases hfrom with ⟨rfl, hr⟩ | ⟨leafIndexes, rfl, rfl, rfl⟩
    · obtain ⟨j, c', q, hq, hj, hlower, hkey, hpath⟩ := hcached.pathCache _ _ hr
      have hplace := (h.indexByCommitment (lower t) (j : ℤ)).mpr ⟨j, c', rfl, hj, hkey⟩
      rw [hfind, Option.some.injEq] at hplace
      have hji : i = j := by exact_mod_cast hplace
      refine ⟨⟨q, Set.mem_insert_of_mem t hq, ?_, hji ▸ hpath⟩, h.sortedLeafIndexes⟩
      rw [hlower, ← hkey, ht]
    · refine ⟨⟨t, Set.mem_insert t queries, ht, hki ▸ computePath_reads h h.sortedLeaves i t⟩,
        fun s hs => ?_⟩
      rw [← Option.mem_some_iff.mp hs]
      exact h.sortedLeaves
  refine ⟨hpath.1, ⟨h.leavesByIndex, h.indexByCommitment, hpath.2⟩, fun t' r' hr' => ?_, hnodup⟩
  rcases hcache t' r' hr' with ⟨rfl, rfl⟩ | hr'
  · obtain ⟨q, hq, hlower, hr⟩ := hpath.1
    exact ⟨i, c, q, hq, hc, hlower, ht, hr⟩
  · obtain ⟨j, c', q, hq, hj⟩ := hcached.pathCache t' r' hr'
    exact ⟨j, c', q, Set.mem_insert_of_mem t hq, hj⟩

end Nodes

/-! ### Insertions and calls -/

/-- Insertions, one after another. -/
def insertAll (index : MerklePathIndex) (insertions : List (ℤ × Text)) : Throws MerklePathIndex :=
  insertions.foldlM (fun index x => do return (← insertIndexedCommitment index x.2 x.1).1) index

/-- The index at this depth accepts the insertions. -/
def Accepted (depth : ℕ) (insertions : List (ℤ × Text)) : Prop :=
  ∃ zeroHash hashPair maxPathCacheEntries index index',
    createMerklePathIndex depth zeroHash hashPair maxPathCacheEntries = .ok index ∧
      insertAll index insertions = .ok index'

/-- **One leaf for each place and one place for each leaf.** -/
structure Consistent (depth : ℕ) (insertions : List (ℤ × Text)) : Prop where
  nonneg : ∀ x ∈ insertions, 0 ≤ x.1
  lt : ∀ x ∈ insertions, x.1 < 2 ^ depth
  one : ∀ x ∈ insertions, ∀ y ∈ insertions, lower x.2 = lower y.2 ↔ x.1 = y.1

section Insertions
variable {index index' : MerklePathIndex} {depth : ℕ}

theorem Consistent.toNat_lt {insertions : List (ℤ × Text)} (h : Consistent depth insertions)
    {x : ℤ × Text} (hx : x ∈ insertions) : x.1.toNat < 2 ^ depth := by
  have hbound := h.lt x hx
  rw [← Int.toNat_of_nonneg (h.nonneg x hx)] at hbound
  exact_mod_cast hbound

/-- The index that is created. -/
def newIndex (depth : ℕ) (zeroHash : Text) (hashPair : HashPair) (maxPathCacheEntries : Option ℤ) :
    MerklePathIndex :=
  ⟨depth, zeroHash, hashPair, [], [], none, [], maxPathCacheEntries.getD 256⟩

theorem createMerklePathIndex_eq_ok {zeroHash : Text} {hashPair : HashPair}
    {maxPathCacheEntries : Option ℤ}
    (h : createMerklePathIndex depth zeroHash hashPair maxPathCacheEntries = .ok index) :
    index = newIndex depth zeroHash hashPair maxPathCacheEntries := by
  unfold createMerklePathIndex at h
  obtain ⟨_, -, _, -, hret⟩ := by simpa only [bind_eq_ok] using h
  exact (pure_eq_ok.mp hret).symm

/-- The insertions that went through are in the index. -/
structure HeldBy (index : MerklePathIndex) (done : List (ℤ × Text)) : Prop where
  place : ∀ x ∈ done, get index.indexByCommitment (lower x.2) = some x.1
  leaf : ∀ x ∈ done, ∃ t, get index.leavesByIndex x.1 = some t ∧ lower t = lower x.2

/-- One more insertion. -/
theorem consistent_concat {done : List (ℤ × Text)} {x : ℤ × Text}
    (h : Consistent index.depth done) (hheld : HeldBy index done)
    (hok : insertIndexedCommitment index x.2 x.1 = .ok (index', ())) :
    Consistent index'.depth (done ++ [x]) ∧ HeldBy index' (done ++ [x]) ∧
      index'.depth = index.depth := by
  obtain ⟨hnonneg, hlt, hcommitment, hleaf, rfl⟩ := insertIndexedCommitment_eq_ok.mp hok
  have hsame : ∀ y ∈ done, lower y.2 = lower x.2 ↔ y.1 = x.1 := by
    intro y hy
    constructor
    · intro heq
      exact hcommitment _ (heq ▸ hheld.place y hy)
    · intro heq
      obtain ⟨t, ht, hlower⟩ := hheld.leaf y hy
      exact hlower.symm.trans (hleaf t (heq ▸ ht))
  have hcases : ∀ {y : ℤ × Text}, y ∈ done ++ [x] → y ∈ done ∨ y = x := fun hy =>
    (List.mem_append.mp hy).imp_right List.mem_singleton.mp
  refine ⟨⟨fun y hy => ?_, fun y hy => ?_, fun y hy z hz => ?_⟩, ⟨fun y hy => ?_, fun y hy => ?_⟩,
    rfl⟩
  · rcases hcases hy with hdone | heq
    · exact h.nonneg y hdone
    · rw [heq]
      exact hnonneg
  · rcases hcases hy with hdone | heq
    · exact h.lt y hdone
    · rw [heq]
      exact hlt
  · rcases hcases hy with hdone | heq
    · rcases hcases hz with hdone' | heq'
      · exact h.one y hdone z hdone'
      · rw [heq']
        exact hsame y hdone
    · rcases hcases hz with hdone' | heq'
      · rw [heq, eq_comm, hsame z hdone', eq_comm]
      · rw [heq, heq']
        exact ⟨fun _ => rfl, fun _ => rfl⟩
  · change get (set index.indexByCommitment (lower x.2) x.1) (lower y.2) = some y.1
    rw [get_set]
    rcases hcases hy with hdone | heq
    · split_ifs with hlower
      · rw [(hsame y hdone).mp hlower]
      · exact hheld.place y hdone
    · rw [heq, if_pos rfl]
  · change ∃ t, get (set index.leavesByIndex x.1 x.2) y.1 = some t ∧ lower t = lower y.2
    rw [get_set]
    rcases hcases hy with hdone | heq
    · split_ifs with hplace
      · exact ⟨x.2, rfl, ((hsame y hdone).mpr hplace).symm⟩
      · exact hheld.leaf y hdone
    · exact ⟨x.2, if_pos (by rw [heq]), by rw [heq]⟩

/-- **What is accepted is consistent.** -/
theorem consistent_of_insertAll : ∀ {insertions done : List (ℤ × Text)}
    {index index' : MerklePathIndex}, Consistent index.depth done → HeldBy index done →
    insertAll index insertions = .ok index' → Consistent index.depth (done ++ insertions)
  | [], done, index, _, h, _, _ => by rw [List.append_nil]; exact h
  | x :: insertions, done, index, index', h, hheld, hok => by
    unfold insertAll at hok
    rw [List.foldlM_cons, bind_eq_ok] at hok
    obtain ⟨next, hnext, hrest⟩ := hok
    obtain ⟨⟨next', ⟨⟩⟩, hinsert, hret⟩ := bind_eq_ok.mp hnext
    obtain rfl := pure_eq_ok.mp hret
    obtain ⟨hconsistent, hheld', hdepth⟩ := consistent_concat h hheld hinsert
    have hall := consistent_of_insertAll hconsistent hheld' hrest
    rw [List.append_assoc, List.singleton_append, hdepth] at hall
    exact hall

theorem consistent_of_accepted {insertions : List (ℤ × Text)} (h : Accepted depth insertions) :
    Consistent depth insertions := by
  obtain ⟨zeroHash, hashPair, maxPathCacheEntries, index, index', hcreate, hinsert⟩ := h
  obtain rfl := createMerklePathIndex_eq_ok hcreate
  have hempty : Consistent depth [] := ⟨fun _ hx => absurd hx List.not_mem_nil,
    fun _ hx => absurd hx List.not_mem_nil, fun _ hx => absurd hx List.not_mem_nil⟩
  exact consistent_of_insertAll hempty
    ⟨fun _ hx => absurd hx List.not_mem_nil, fun _ hx => absurd hx List.not_mem_nil⟩ hinsert

end Insertions

/-! ### Calls -/

/-- The calls insert these leaves, in any order and as often as they like, and ask for paths under
these texts. -/
structure Made (insertions : List (ℤ × Text)) (queries : Set Text) (calls : List IndexCall) :
    Prop where
  inserts : ∀ t k, IndexCall.insert t k ∈ calls ↔ (k, t) ∈ insertions
  asks : ∀ t, IndexCall.path t ∈ calls → t ∈ queries

/-- What a call does to the leaves. -/
def putLeaf (texts : ℕ → Option Text) : IndexCall → ℕ → Option Text
  | .insert t k => Function.update texts k.toNat (some t)
  | .path _ => texts

/-- The leaves after calls to a new index. -/
def leavesAfter (calls : List IndexCall) : ℕ → Option Text := calls.foldl putLeaf fun _ => none

/-- A call keeps the depth, the hash and the zero hash. -/
theorem callIndex_frame (index : MerklePathIndex) (call : IndexCall) :
    (callIndex index call).depth = index.depth ∧ (callIndex index call).hashPair = index.hashPair ∧
      (callIndex index call).zeroHash = index.zeroHash := by
  cases call with
  | insert t k =>
    dsimp only [callIndex]
    rcases hok : insertIndexedCommitment index t k with e | ⟨next, ⟨⟩⟩
    · rw [settle_error]
      exact ⟨rfl, rfl, rfl⟩
    · obtain ⟨-, -, -, -, rfl⟩ := insertIndexedCommitment_eq_ok.mp hok
      rw [settle_ok]
      exact ⟨rfl, rfl, rfl⟩
  | path t =>
    dsimp only [callIndex]
    unfold getMerklePathForCommitment
    rcases get index.indexByCommitment (lower t) with _ | k
    · exact ⟨rfl, rfl, rfl⟩
    · dsimp only
      rcases get index.pathCache (lower t) with _ | cached <;> exact ⟨rfl, rfl, rfl⟩

theorem calls_frame : ∀ (calls : List IndexCall) (index : MerklePathIndex),
    (calls.foldl callIndex index).depth = index.depth ∧
      (calls.foldl callIndex index).hashPair = index.hashPair ∧
      (calls.foldl callIndex index).zeroHash = index.zeroHash
  | [], _ => ⟨rfl, rfl, rfl⟩
  | call :: calls, index => by
    obtain ⟨hdepth, hhash, hzero⟩ := callIndex_frame index call
    obtain ⟨hdepth', hhash', hzero'⟩ := calls_frame calls (callIndex index call)
    exact ⟨hdepth'.trans hdepth, hhash'.trans hhash, hzero'.trans hzero⟩

/-- **The index on the way**: some of the insertions are in it, and its cache is right. -/
structure Follows (insertions : List (ℤ × Text)) (queries : Set Text) (index : MerklePathIndex)
    (texts : ℕ → Option Text) : Prop where
  consistent : Consistent index.depth insertions
  holds : HoldsTexts index texts
  cached : CachedReads index texts queries
  sub : ∀ i c, texts i = some c → ((i : ℤ), c) ∈ insertions

section Calls
variable {insertions : List (ℤ × Text)} {queries : Set Text}

/-- **One call.** -/
theorem follows_call {index : MerklePathIndex} {texts : ℕ → Option Text} {call : IndexCall}
    (h : Follows insertions queries index texts)
    (hinsert : ∀ t k, call = .insert t k → (k, t) ∈ insertions)
    (hask : ∀ t, call = .path t → t ∈ queries) :
    Follows insertions queries (callIndex index call) (putLeaf texts call) := by
  have hdepth : Consistent (callIndex index call).depth insertions := by
    rw [(callIndex_frame index call).1]
    exact h.consistent
  cases call with
  | insert t k =>
    have hmem := hinsert t k rfl
    obtain ⟨i, rfl⟩ := Int.eq_ofNat_of_zero_le (h.consistent.nonneg _ hmem)
    have hfree : ∀ c' ∈ texts i, lower c' = lower t := fun c' hc' =>
      (h.consistent.one _ (h.sub i c' hc') _ hmem).mpr rfl
    have hone : ∀ j c', texts j = some c' → lower c' = lower t → j = i := fun j c' hj heq => by
      have hji : (j : ℤ) = i := (h.consistent.one _ (h.sub j c' hj) _ hmem).mp heq
      exact_mod_cast hji
    have hok : insertIndexedCommitment index t i = .ok (withLeaf index t i, ()) := by
      refine insertIndexedCommitment_eq_ok.mpr ⟨h.consistent.nonneg _ hmem, h.consistent.lt _ hmem,
        fun k hk => ?_, fun c' hc' => ?_, rfl⟩
      · obtain ⟨j, c', rfl, hj, heq⟩ := (h.holds.indexByCommitment _ _).mp hk
        rw [hone j c' hj heq.symm]
      · obtain ⟨j, hij, hj⟩ := (h.holds.leavesByIndex _ _).mp hc'
        have hji : i = j := by exact_mod_cast hij
        exact hfree c' (hji ▸ hj)
    have hstep : callIndex index (.insert t i) = withLeaf index t i := by
      dsimp only [callIndex]
      rw [hok, settle_ok]
    rw [hstep] at hdepth ⊢
    refine ⟨hdepth, h.holds.withLeaf hfree hone, ⟨fun _ _ hr => (nomatch hr), List.nodup_nil⟩,
      fun j c hj => ?_⟩
    change Function.update texts i (some t) j = some c at hj
    by_cases hji : j = i
    · rw [hji, Function.update_self] at hj
      rw [hji, ← Option.some.inj hj]
      exact hmem
    · rw [Function.update_of_ne hji] at hj
      exact h.sub j c hj
  | path t =>
    have hstep : callIndex index (.path t) = settle index (getMerklePathForCommitment index t) := rfl
    rw [hstep] at hdepth ⊢
    rcases hok : getMerklePathForCommitment index t with e | ⟨next, r⟩
    · rw [settle_error]
      exact h
    · rw [hok, settle_ok] at hdepth
      rw [settle_ok]
      obtain ⟨k, -, -, hk, -⟩ := getMerklePathForCommitment_cases h.cached.nodup hok
      obtain ⟨i, c, -, hc, ht⟩ := (h.holds.indexByCommitment _ _).mp hk
      obtain ⟨-, hholds, hcached⟩ := path_reads h.holds h.cached hc ht hok
      rw [Set.insert_eq_of_mem (hask t rfl)] at hcached
      exact ⟨hdepth, hholds, hcached, h.sub⟩

/-- **Any calls.** -/
theorem follows_calls : ∀ (calls : List IndexCall) (index : MerklePathIndex)
    (texts : ℕ → Option Text), Follows insertions queries index texts →
    (∀ t k, IndexCall.insert t k ∈ calls → (k, t) ∈ insertions) →
    (∀ t, IndexCall.path t ∈ calls → t ∈ queries) →
    Follows insertions queries (calls.foldl callIndex index) (calls.foldl putLeaf texts)
  | [], _, _, h, _, _ => h
  | call :: calls, index, texts, h, hinsert, hask => by
    have hstep : Follows insertions queries (callIndex index call) (putLeaf texts call) :=
      follows_call h (fun t k heq => hinsert t k (heq ▸ List.mem_cons_self))
        fun t heq => hask t (heq ▸ List.mem_cons_self)
    exact follows_calls calls _ _ hstep (fun t k hmem => hinsert t k (List.mem_cons_of_mem _ hmem))
      fun t hmem => hask t (List.mem_cons_of_mem _ hmem)

/-- A leaf that was put in stays in. -/
theorem isSome_foldl_putLeaf (t : Text) (k : ℤ) : ∀ (calls : List IndexCall)
    (texts : ℕ → Option Text), (texts k.toNat).isSome ∨ IndexCall.insert t k ∈ calls →
    (calls.foldl putLeaf texts k.toNat).isSome
  | [], _, h => h.resolve_right List.not_mem_nil
  | call :: calls, texts, h => by
    have hkeep : (texts k.toNat).isSome → (putLeaf texts call k.toNat).isSome := by
      intro hsome
      cases call with
      | insert t' k' =>
        change (Function.update texts k'.toNat (some t') k.toNat).isSome
        by_cases heq : k.toNat = k'.toNat
        · rw [heq, Function.update_self]
          rfl
        · rw [Function.update_of_ne heq]
          exact hsome
      | path => exact hsome
    refine isSome_foldl_putLeaf t k calls (putLeaf texts call) ?_
    rcases h with h | h
    · exact .inl (hkeep h)
    · rcases List.mem_cons.mp h with rfl | h
      · refine .inl ?_
        change (Function.update texts k.toNat (some t) k.toNat).isSome
        rw [Function.update_self]
        rfl
      · exact .inr h

/-- A new index, after calls. -/
theorem follows_made {depth : ℕ} (hconsistent : Consistent depth insertions) {zeroHash : Text}
    {hashPair : HashPair} {maxPathCacheEntries : Option ℤ} {index : MerklePathIndex}
    (hcreate : createMerklePathIndex depth zeroHash hashPair maxPathCacheEntries = .ok index)
    {calls : List IndexCall} (hcalls : Made insertions queries calls) :
    Follows insertions queries (calls.foldl callIndex index) (leavesAfter calls) := by
  obtain rfl := createMerklePathIndex_eq_ok hcreate
  refine follows_calls calls _ _ ⟨hconsistent, ⟨fun _ _ => ?_, fun _ _ => ?_, fun _ hs => (nomatch hs)⟩,
    ⟨fun _ _ hr => (nomatch hr), List.nodup_nil⟩, fun _ _ hc => (nomatch hc)⟩
    (fun t k => (hcalls.inserts t k).mp) hcalls.asks
  · simp [newIndex]
  · simp [newIndex]

/-- **The answer for a leaf** after calls. -/
theorem answer {depth : ℕ} (hconsistent : Consistent depth insertions) {zeroHash : Text}
    {hashPair : HashPair} {maxPathCacheEntries : Option ℤ} {index : MerklePathIndex}
    (hcreate : createMerklePathIndex depth zeroHash hashPair maxPathCacheEntries = .ok index)
    {calls : List IndexCall} (hcalls : Made insertions queries calls) {x : ℤ × Text}
    (hx : x ∈ insertions) :
    ∃ c, ∃ q ∈ insert x.2 queries, leavesAfter calls x.1.toNat = some c ∧ lower q = lower x.2 ∧
      ∃ next, getMerklePathForCommitment (calls.foldl callIndex index) x.2 =
        .ok (next, readPath index (leavesAfter calls) x.1.toNat q) := by
  have h := follows_made hconsistent hcreate hcalls
  obtain ⟨c, hc⟩ := Option.isSome_iff_exists.mp
    (isSome_foldl_putLeaf x.2 x.1 calls (fun _ => none) (.inr ((hcalls.inserts x.2 x.1).mpr hx)))
  change leavesAfter calls x.1.toNat = some c at hc
  have hplace : ((x.1.toNat : ℕ) : ℤ) = x.1 := Int.toNat_of_nonneg (hconsistent.nonneg x hx)
  have hlower : lower x.2 = lower c :=
    ((hconsistent.one _ (h.sub _ _ hc) _ hx).mpr hplace).symm
  obtain ⟨next, r, hok⟩ := getMerklePathForCommitment_isOk
    ((h.holds.indexByCommitment (lower x.2) _).mpr ⟨_, c, rfl, hc, hlower⟩)
  obtain ⟨⟨q, hq, hqc, rfl⟩, -, -⟩ := path_reads h.holds h.cached hc hlower hok
  obtain ⟨hdepth, hhash, hzero⟩ := calls_frame calls index
  refine ⟨c, q, hq, hc, hqc.trans hlower.symm, next, ?_⟩
  rw [hok, readPath_congr hdepth hhash hzero]

end Calls

/-! ### Paths that are right -/

/-- **`recomputeRootFromPath`**, of the tests. -/
def recomputeRootFromPath (hashPair : HashPair) : Text → List Text → List ℤ → Throws Text
  | current, [], _ => return current
  | current, sibling :: pathElements, pathIndices =>
    if pathIndices.head? = some 0 then
      recomputeRootFromPath hashPair (hashPair current sibling) pathElements pathIndices.tail
    else if pathIndices.head? = some 1 then
      recomputeRootFromPath hashPair (hashPair sibling current) pathElements pathIndices.tail
    else throw "Path index must be 0 or 1."

theorem recomputeRootFromPath_climb (hashPair : HashPair) : ∀ (path : List Text) (x : Text) (i : ℕ),
    recomputeRootFromPath hashPair x path ((indexBits i path.length).map (Nat.cast : ℕ → ℤ)) =
      .ok (climb hashPair x i path)
  | [], _, _ => rfl
  | s :: path, x, i => by
    rw [recomputeRootFromPath, List.length_cons, indexBits, List.map_cons, List.head?_cons,
      List.tail_cons, climb, join, recomputeRootFromPath_climb hashPair path,
      recomputeRootFromPath_climb hashPair path]
    rcases Nat.mod_two_eq_zero_or_one i with hbit | hbit
    · rw [hbit, if_pos (by rfl), if_pos rfl]
    · rw [hbit, if_neg (by decide), if_pos (by rfl), if_neg (by decide)]

/-- The value a path that was read recomputes. -/
theorem recomputes_readPath (index : MerklePathIndex) (texts : ℕ → Option Text) (i : ℕ)
    (q x : Text) :
    recomputeRootFromPath index.hashPair x (readPath index texts i q).pathElements
        (readPath index texts i q).pathIndices =
      .ok (climb index.hashPair x i (reads index texts i index.depth)) := by
  have hlen : (reads index texts i index.depth).length = index.depth := length_reads index texts i _
  have hclimb := recomputeRootFromPath_climb index.hashPair (reads index texts i index.depth) x i
  rw [hlen] at hclimb
  exact hclimb

/-- **The path of a leaf is right**: its bits are the digits of the leaf index, and from the leaf it
recomputes the root of the tree over the leaves. -/
structure PathRight (hashPair : HashPair) (zeroHash : Text) (depth : ℕ) (texts : ℕ → Option Text)
    (x : ℤ × Text) (r : MerklePathResult) : Prop where
  leafIndex : r.leafIndex = x.1
  pathIndices : r.pathIndices = (indexBits x.1.toNat depth).map (Nat.cast : ℕ → ℤ)
  root : r.root = node hashPair (fun i => (texts i).getD zeroHash) depth 0
  recomputes : recomputeRootFromPath hashPair x.2 r.pathElements r.pathIndices = .ok r.root

/-- **All paths are right** and the cache is transparent, under every hash, zero hash and size of the
cache, and whatever the calls that made these insertions and asked under these texts. -/
structure Right (depth : ℕ) (insertions : List (ℤ × Text)) (queries : Set Text) : Prop where
  paths : ∀ zeroHash hashPair maxPathCacheEntries index,
    createMerklePathIndex depth zeroHash hashPair maxPathCacheEntries = .ok index →
    ∀ calls, Made insertions queries calls → ∀ x ∈ insertions,
    ∃ next r, getMerklePathForCommitment (calls.foldl callIndex index) x.2 = .ok (next, r) ∧
      PathRight hashPair zeroHash depth (leavesAfter calls) x r
  transparent : ∀ zeroHash hashPair maxPathCacheEntries index,
    createMerklePathIndex depth zeroHash hashPair maxPathCacheEntries = .ok index →
    ∀ calls calls', Made insertions queries calls → Made insertions queries calls' →
    ∀ x ∈ insertions, ∀ next r next' r',
    getMerklePathForCommitment (calls.foldl callIndex index) x.2 = .ok (next, r) →
    getMerklePathForCommitment (calls'.foldl callIndex index) x.2 = .ok (next', r') → r = r'

/-! ### When they are -/

/-- A leaf is inserted under one text only. -/
def OneSpelling (insertions : List (ℤ × Text)) : Prop :=
  ∀ x ∈ insertions, ∀ y ∈ insertions, x.1 = y.1 → x.2 = y.2

/-- A path is asked for under the text that was inserted. -/
def AskedAsInserted (insertions : List (ℤ × Text)) (queries : Set Text) : Prop :=
  ∀ x ∈ insertions, ∀ q ∈ queries, lower q = lower x.2 → q = x.2

/-- On the levels where the position is too large, there is no leaf below the sibling and none below
the node that is read in its place. -/
def Clear (insertions : List (ℤ × Text)) (i : ℕ) : Prop :=
  ∀ l, 2 ^ 31 ≤ i / 2 ^ l → ∀ y ∈ insertions,
    y.1.toNat / 2 ^ l ≠ sibling (i / 2 ^ l) ∧ ((y.1.toNat / 2 ^ l : ℕ) : ℤ) ≠ readPosition i l

section Sufficient
variable {insertions : List (ℤ × Text)} {queries : Set Text} {index : MerklePathIndex}
  {texts : ℕ → Option Text}

/-- Below a position without an insertion all leaves are zero. -/
theorem node_of_clear (hsub : ∀ i c, texts i = some c → ((i : ℤ), c) ∈ insertions) {l p : ℕ}
    (h : ∀ y ∈ insertions, y.1.toNat / 2 ^ l ≠ p) :
    node index.hashPair (padTexts index texts) l p = zeroHash index.hashPair index.zeroHash l := by
  refine node_zero index.hashPair fun i hi => ?_
  unfold padTexts
  rcases hc : texts i with _ | c
  · rfl
  · exact absurd hi (h _ (hsub i c hc))

/-- **What is read is what stands beside**, if the levels are clear. -/
theorem reads_of_clear (hsub : ∀ i c, texts i = some c → ((i : ℤ), c) ∈ insertions) {i : ℕ}
    (hclear : Clear insertions i) (n : ℕ) :
    reads index texts i n = siblings index.hashPair (padTexts index texts) 0 i n := by
  rw [reads, siblings_eq_map]
  refine List.map_congr_left fun l _ => ?_
  rw [Nat.zero_add]
  rcases lt_or_ge (i / 2 ^ l) (2 ^ 31) with hlt | hge
  · rw [readPosition, bitXor_one hlt, nodeAt_natCast]
  · rw [node_of_clear hsub fun y hy => (hclear l hge y hy).1]
    rcases lt_or_ge (readPosition i l) 0 with hneg | hpos
    · rw [nodeAt, if_neg (not_le.mpr hneg)]
    · obtain ⟨p, hp⟩ := Int.eq_ofNat_of_zero_le hpos
      rw [hp, nodeAt_natCast]
      refine node_of_clear hsub fun y hy heq => (hclear l hge y hy).2 ?_
      rw [hp, heq]

/-- The leaves are those inserted, if each has one text. -/
theorem leavesAfter_eq_some {calls : List IndexCall} (hone : OneSpelling insertions)
    (hcalls : Made insertions queries calls)
    (h : Follows insertions queries index (leavesAfter calls)) {i : ℕ} {c : Text} :
    leavesAfter calls i = some c ↔ ((i : ℤ), c) ∈ insertions := by
  refine ⟨h.sub i c, fun hmem => ?_⟩
  obtain ⟨c', hc'⟩ := Option.isSome_iff_exists.mp
    (isSome_foldl_putLeaf c (i : ℤ) calls (fun _ => none) (.inr ((hcalls.inserts c i).mpr hmem)))
  change leavesAfter calls i = some c' at hc'
  have hcc : c' = c := hone _ (h.sub i c' hc') _ hmem rfl
  rw [hc', hcc]

end Sufficient

section Answers
variable {depth : ℕ} {insertions : List (ℤ × Text)} {queries : Set Text} {zeroHash : Text}
  {hashPair : HashPair} {maxPathCacheEntries : Option ℤ} {index : MerklePathIndex}

/-- **The answer for a leaf**, if it has one text. -/
theorem answer_of (hconsistent : Consistent depth insertions) (hone : OneSpelling insertions)
    (hasked : AskedAsInserted insertions queries)
    (hcreate : createMerklePathIndex depth zeroHash hashPair maxPathCacheEntries = .ok index)
    {calls : List IndexCall} (hcalls : Made insertions queries calls) {x : ℤ × Text}
    (hx : x ∈ insertions) :
    leavesAfter calls x.1.toNat = some x.2 ∧
      ∃ next, getMerklePathForCommitment (calls.foldl callIndex index) x.2 =
        .ok (next, readPath index (leavesAfter calls) x.1.toNat x.2) := by
  obtain ⟨c, q, hq, hc, hlower, next, hok⟩ := answer hconsistent hcreate hcalls hx
  have hqx : q = x.2 := hq.elim id fun hq => hasked x hx q hq hlower
  have hplace : ((x.1.toNat : ℕ) : ℤ) = x.1 := Int.toNat_of_nonneg (hconsistent.nonneg x hx)
  have hcx : c = x.2 :=
    hone _ ((follows_made hconsistent hcreate hcalls).sub _ _ hc) x hx hplace
  rw [hqx] at hok
  rw [hcx] at hc
  exact ⟨hc, next, hok⟩

/-- **The condition is enough.** -/
theorem right_of (hconsistent : Consistent depth insertions) (hone : OneSpelling insertions)
    (hasked : AskedAsInserted insertions queries)
    (hclear : ∀ x ∈ insertions, Clear insertions x.1.toNat) : Right depth insertions queries := by
  refine ⟨fun zeroHash hashPair maxPathCacheEntries index hcreate calls hcalls x hx => ?_,
    fun zeroHash hashPair maxPathCacheEntries index hcreate calls calls' hcalls hcalls' x hx => ?_⟩
  · obtain ⟨hleaf, next, hok⟩ := answer_of hconsistent hone hasked hcreate hcalls hx
    have hsub := (follows_made hconsistent hcreate hcalls).sub
    have hplace : ((x.1.toNat : ℕ) : ℤ) = x.1 := Int.toNat_of_nonneg (hconsistent.nonneg x hx)
    obtain rfl := createMerklePathIndex_eq_ok hcreate
    refine ⟨next, _, hok, hplace, rfl, rfl, ?_⟩
    have hroot : climb hashPair (padTexts (newIndex depth zeroHash hashPair maxPathCacheEntries)
        (leavesAfter calls) x.1.toNat) x.1.toNat (siblings hashPair (padTexts
          (newIndex depth zeroHash hashPair maxPathCacheEntries) (leavesAfter calls)) 0 x.1.toNat
          depth) = node hashPair (padTexts
            (newIndex depth zeroHash hashPair maxPathCacheEntries) (leavesAfter calls)) depth 0 :=
      climb_leaf hashPair (hconsistent.toNat_lt hx)
    have hpad : padTexts (newIndex depth zeroHash hashPair maxPathCacheEntries) (leavesAfter calls)
        x.1.toNat = x.2 := by
      unfold padTexts
      rw [hleaf]
      rfl
    rw [hpad] at hroot
    refine (recomputes_readPath (newIndex depth zeroHash hashPair maxPathCacheEntries)
      (leavesAfter calls) x.1.toNat x.2 x.2).trans (congrArg _ ?_)
    rw [reads_of_clear hsub (hclear x hx)]
    exact hroot
  · intro next r next' r' hr hr'
    obtain ⟨-, n, hok⟩ := answer_of hconsistent hone hasked hcreate hcalls hx
    obtain ⟨-, n', hok'⟩ := answer_of hconsistent hone hasked hcreate hcalls' hx
    have hleaves : leavesAfter calls = leavesAfter calls' := by
      funext i
      refine Option.ext fun c => ?_
      exact (leavesAfter_eq_some hone hcalls (follows_made hconsistent hcreate hcalls)).trans
        (leavesAfter_eq_some hone hcalls' (follows_made hconsistent hcreate hcalls')).symm
    have hsame : r = readPath index (leavesAfter calls) x.1.toNat x.2 :=
      (Prod.mk.inj (Except.ok.inj (hr.symm.trans hok))).2
    have hsame' : r' = readPath index (leavesAfter calls') x.1.toNat x.2 :=
      (Prod.mk.inj (Except.ok.inj (hr'.symm.trans hok'))).2
    rw [hsame, hsame', hleaves]

end Answers

/-! ### The condition is needed -/

/-- A two-to-one function without collisions. -/
def pairTexts : Text → Text → Text
  | [], r => '1' :: r
  | c :: l, r => '0' :: c :: pairTexts l r

theorem pairTexts_injective : Function.Injective2 pairTexts := by
  have hpair : ∀ l l' r r' : Text, pairTexts l r = pairTexts l' r' → l = l' ∧ r = r' := by
    intro l
    induction l with
    | nil =>
      intro l' r r' h
      cases l' with
      | nil => exact ⟨rfl, (List.cons.inj h).2⟩
      | cons c' l' => exact absurd (List.cons.inj h).1 (by decide)
    | cons c l ih =>
      intro l' r r' h
      cases l' with
      | nil => exact absurd (List.cons.inj h).1 (by decide)
      | cons c' l' =>
        obtain ⟨hc, hrest⟩ := List.cons.inj (List.cons.inj h).2
        obtain ⟨hl, hr⟩ := ih l' r r' hrest
        rw [hc, hl]
        exact ⟨rfl, hr⟩
  exact fun l l' r r' h => hpair l l' r r' h

/-- The calls that insert the leaves one after another. -/
def insertCalls (insertions : List (ℤ × Text)) : List IndexCall :=
  insertions.map fun x => .insert x.2 x.1

section Necessary
variable {depth : ℕ} {insertions : List (ℤ × Text)} {queries : Set Text}

theorem mem_insertCalls {t : Text} {k : ℤ} :
    IndexCall.insert t k ∈ insertCalls insertions ↔ (k, t) ∈ insertions := by
  unfold insertCalls
  rw [List.mem_map]
  constructor
  · rintro ⟨x, hx, heq⟩
    obtain ⟨rfl, rfl⟩ := IndexCall.insert.inj heq
    exact hx
  · exact fun h => ⟨(k, t), h, rfl⟩

theorem made_insertCalls : Made insertions queries (insertCalls insertions) :=
  ⟨fun _ _ => mem_insertCalls, fun t h => by
    obtain ⟨x, -, hx⟩ := List.mem_map.mp h
    cases hx⟩

/-- **The path and the leaf that are forced**, by a hash without collisions. -/
theorem forced (hconsistent : Consistent depth insertions) (h : Right depth insertions queries)
    {zeroHash : Text} {maxPathCacheEntries : Option ℤ} {index : MerklePathIndex}
    (hcreate : createMerklePathIndex depth zeroHash pairTexts maxPathCacheEntries = .ok index)
    {calls : List IndexCall} (hcalls : Made insertions queries calls) {x : ℤ × Text}
    (hx : x ∈ insertions) :
    leavesAfter calls x.1.toNat = some x.2 ∧ reads index (leavesAfter calls) x.1.toNat depth =
      siblings pairTexts (padTexts index (leavesAfter calls)) 0 x.1.toNat depth := by
  obtain ⟨c, q, -, hc, -, next, hok⟩ := answer hconsistent hcreate hcalls hx
  obtain ⟨next', r, hok', hright⟩ := h.paths _ _ _ _ hcreate calls hcalls x hx
  obtain rfl : readPath index (leavesAfter calls) x.1.toNat q = r :=
    (Prod.mk.inj (Except.ok.inj (hok.symm.trans hok'))).2
  obtain rfl := createMerklePathIndex_eq_ok hcreate
  have hroot : climb pairTexts (padTexts (newIndex depth zeroHash pairTexts maxPathCacheEntries)
      (leavesAfter calls) x.1.toNat) x.1.toNat (siblings pairTexts (padTexts
        (newIndex depth zeroHash pairTexts maxPathCacheEntries) (leavesAfter calls)) 0 x.1.toNat
        depth) = node pairTexts (padTexts
          (newIndex depth zeroHash pairTexts maxPathCacheEntries) (leavesAfter calls)) depth 0 :=
    climb_leaf pairTexts (hconsistent.toNat_lt hx)
  have hpad : padTexts (newIndex depth zeroHash pairTexts maxPathCacheEntries) (leavesAfter calls)
      x.1.toNat = c := by
    unfold padTexts
    rw [hc]
    rfl
  rw [hpad] at hroot
  have hread := Except.ok.inj
    ((recomputes_readPath (newIndex depth zeroHash pairTexts maxPathCacheEntries) (leavesAfter calls)
      x.1.toNat q x.2).symm.trans hright.recomputes)
  obtain ⟨hx2, hreads⟩ := climb_injective pairTexts_injective
    ((length_reads _ _ _ _).trans (length_siblings pairTexts _ 0 x.1.toNat depth).symm)
    (hread.trans hroot.symm)
  rw [hx2]
  exact ⟨hc, hreads⟩

/-- **One text for each leaf**: after two texts, the last one stands in the tree. -/
theorem oneSpelling_of_right (hconsistent : Consistent depth insertions)
    {index : MerklePathIndex} (hcreate : createMerklePathIndex depth [] pairTexts none = .ok index)
    (h : Right depth insertions queries) : OneSpelling insertions := by
  intro x hx y hy hplace
  have hcalls : Made insertions queries (insertCalls insertions ++ [.insert y.2 y.1]) := by
    refine ⟨fun t k => ?_, fun t ht => ?_⟩
    · rw [List.mem_append, mem_insertCalls, List.mem_singleton, IndexCall.insert.injEq]
      refine ⟨fun hmem => hmem.elim id ?_, .inl⟩
      rintro ⟨rfl, rfl⟩
      exact hy
    · rw [List.mem_append, List.mem_singleton] at ht
      exact made_insertCalls.asks t (ht.resolve_right (by simp))
  have hleaf := (forced hconsistent h hcreate hcalls hx).1
  have hlast : leavesAfter (insertCalls insertions ++ [.insert y.2 y.1]) x.1.toNat = some y.2 := by
    unfold leavesAfter
    rw [List.foldl_append, hplace]
    exact Function.update_self ..
  exact Option.some.inj (hleaf.symm.trans hlast)

/-- A path that was asked for under another text is returned from the cache. -/
theorem path_of_cached {index : MerklePathIndex} (hcache : index.pathCache = [])
    (hmax : index.maxPathCacheEntries = 256) {q t : Text} (hlower : lower q = lower t) {k : ℤ}
    (hk : get index.indexByCommitment (lower t) = some k) :
    ∃ next r, getMerklePathForCommitment (callIndex index (.path q)) t = .ok (next, r) ∧
      r.commitment = q := by
  obtain ⟨next, r, hok, hcommitment, hplace, hcached⟩ : ∃ next r,
      getMerklePathForCommitment index q = .ok (next, r) ∧ r.commitment = q ∧
      next.indexByCommitment = index.indexByCommitment ∧ next.pathCache = [(lower q, r)] := by
    unfold getMerklePathForCommitment
    rw [hlower, hk, hcache, hmax]
    exact ⟨_, _, rfl, rfl, rfl, rfl⟩
  have hstep : callIndex index (.path q) = next := by
    dsimp only [callIndex]
    rw [hok, settle_ok]
  have hhit : get next.pathCache (lower t) = some r := by
    rw [hcached, hlower]
    exact if_pos rfl
  rw [hstep]
  unfold getMerklePathForCommitment
  rw [hplace, hk]
  dsimp only
  rw [hhit]
  exact ⟨_, r, rfl, hcommitment⟩

/-- Insertions leave nothing in the cache. -/
theorem cache_insertCalls : ∀ (insertions : List (ℤ × Text)) (index : MerklePathIndex),
    index.pathCache = [] → ((insertCalls insertions).foldl callIndex index).pathCache = [] ∧
      ((insertCalls insertions).foldl callIndex index).maxPathCacheEntries =
        index.maxPathCacheEntries
  | [], _, h => ⟨h, rfl⟩
  | x :: insertions, index, h => by
    have hstep : (callIndex index (.insert x.2 x.1)).pathCache = [] ∧
        (callIndex index (.insert x.2 x.1)).maxPathCacheEntries = index.maxPathCacheEntries := by
      dsimp only [callIndex]
      rcases hok : insertIndexedCommitment index x.2 x.1 with e | ⟨next, ⟨⟩⟩
      · rw [settle_error]
        exact ⟨h, rfl⟩
      · obtain ⟨-, -, -, -, rfl⟩ := insertIndexedCommitment_eq_ok.mp hok
        rw [settle_ok]
        exact ⟨rfl, rfl⟩
    obtain ⟨hcache, hmax⟩ := cache_insertCalls insertions _ hstep.1
    exact ⟨hcache, hmax.trans hstep.2⟩

/-- **No other spelling is asked for**: it would come back from the cache. -/
theorem askedAsInserted_of_right (hconsistent : Consistent depth insertions)
    {index : MerklePathIndex} (hcreate : createMerklePathIndex depth [] pairTexts none = .ok index)
    (h : Right depth insertions queries) : AskedAsInserted insertions queries := by
  intro x hx q hq hlower
  have hmade : Made insertions queries (insertCalls insertions ++ [.path q]) := by
    refine ⟨fun t k => ?_, fun t ht => ?_⟩
    · rw [List.mem_append, mem_insertCalls, List.mem_singleton]
      exact ⟨fun hmem => hmem.resolve_right (by simp), .inl⟩
    · rw [List.mem_append, List.mem_singleton, IndexCall.path.injEq] at ht
      rcases ht with ht | rfl
      · exact made_insertCalls.asks t ht
      · exact hq
  have hunasked : Made insertions ∅ (insertCalls insertions) := made_insertCalls
  obtain ⟨c, q', hq', -, -, next, hok⟩ := answer hconsistent hcreate hunasked hx
  have hqx : q' = x.2 := by simpa using hq'
  have hcache := cache_insertCalls insertions index (by rw [createMerklePathIndex_eq_ok hcreate]; rfl)
  have hmax : ((insertCalls insertions).foldl callIndex index).maxPathCacheEntries = 256 := by
    rw [hcache.2, createMerklePathIndex_eq_ok hcreate]
    rfl
  obtain ⟨k, -, -, hk, -⟩ := getMerklePathForCommitment_cases (by rw [hcache.1]; exact List.nodup_nil)
    hok
  obtain ⟨next', r', hok', hcommitment⟩ := path_of_cached hcache.1 hmax hlower hk
  have hsame := h.transparent _ _ _ _ hcreate (insertCalls insertions)
    (insertCalls insertions ++ [.path q]) made_insertCalls hmade x hx _ _ next' r' hok (by
      rw [List.foldl_append]
      exact hok')
  rw [← hcommitment, ← hsame, ← hqx]
  rfl

section Fresh
variable {index : MerklePathIndex} {texts : ℕ → Option Text}
  (hconsistent : Consistent depth insertions)
  (hsub : ∀ i c, texts i = some c → ((i : ℤ), c) ∈ insertions)
  (hfresh : ∀ y ∈ insertions, y.2 ≠ index.zeroHash)

include hsub hfresh in
/-- A leaf that is zero was not inserted. -/
theorem eq_none_of_padTexts_eq_zero {a : ℕ} (h : padTexts index texts a = index.zeroHash) :
    texts a = none := by
  rcases ha : texts a with _ | c
  · rfl
  · unfold padTexts at h
    rw [ha] at h
    exact absurd h (hfresh _ (hsub a c ha))

include hconsistent hsub hfresh in
/-- A leaf that stands at two places was not inserted. -/
theorem eq_none_of_padTexts_eq {a b : ℕ} (hab : a ≠ b)
    (h : padTexts index texts a = padTexts index texts b) : texts a = none := by
  rcases ha : texts a with _ | c
  · rfl
  · exfalso
    unfold padTexts at h
    rw [ha] at h
    rcases hb : texts b with _ | c'
    · rw [hb] at h
      exact hfresh _ (hsub a c ha) h
    · rw [hb] at h
      have hcc : c = c' := h
      have hplace : (a : ℤ) = b := (hconsistent.one _ (hsub a c ha) _ (hsub b c' hb)).mp (by rw [hcc])
      exact hab (by exact_mod_cast hplace)

include hconsistent hsub hfresh in
/-- Two equal nodes on a level have no leaf below them. -/
theorem eq_none_of_nodeAt_eq (hhash : index.hashPair = pairTexts) {l s : ℕ} {p : ℤ} (hps : p ≠ s)
    (h : nodeAt index.hashPair index.zeroHash (padTexts index texts) l p =
      node index.hashPair (padTexts index texts) l s) {a : ℕ} :
    (a / 2 ^ l = s → texts a = none) ∧ (((a / 2 ^ l : ℕ) : ℤ) = p → texts a = none) := by
  have hinj : Function.Injective2 index.hashPair := hhash ▸ pairTexts_injective
  have hpos : 0 < 2 ^ l := by positivity
  have hmod : a % 2 ^ l < 2 ^ l := Nat.mod_lt a hpos
  have hdiv : a / 2 ^ l * 2 ^ l + a % 2 ^ l = a := Nat.div_add_mod' a (2 ^ l)
  rcases lt_or_ge p 0 with hneg | hnonneg
  · refine ⟨fun ha => ?_, fun ha => absurd (ha ▸ Int.natCast_nonneg _) (not_le.mpr hneg)⟩
    rw [nodeAt, if_neg (not_le.mpr hneg), ← node_const index.hashPair index.zeroHash l 0] at h
    have hleaf := node_injective hinj h _ hmod
    rw [← ha, hdiv] at hleaf
    exact eq_none_of_padTexts_eq_zero hsub hfresh hleaf.symm
  · obtain ⟨p, rfl⟩ := Int.eq_ofNat_of_zero_le hnonneg
    rw [nodeAt_natCast] at h
    have hleaf := node_injective hinj h _ hmod
    have hapart : ∀ {q : ℕ}, q ≠ a / 2 ^ l → a ≠ q * 2 ^ l + a % 2 ^ l := by
      intro q hq heq
      rw [heq, Nat.mul_comm, Nat.mul_add_div hpos, Nat.div_eq_of_lt hmod] at hq
      exact hq rfl
    refine ⟨fun ha => ?_, fun ha => ?_⟩
    · have hne : p ≠ a / 2 ^ l := fun heq => hps (by rw [heq, ha])
      rw [← ha, hdiv] at hleaf
      exact eq_none_of_padTexts_eq hconsistent hsub hfresh (hapart hne) hleaf.symm
    · have hap : a / 2 ^ l = p := by exact_mod_cast ha
      have hne : s ≠ a / 2 ^ l := fun heq => hps (by rw [heq, hap])
      rw [← hap, hdiv] at hleaf
      exact eq_none_of_padTexts_eq hconsistent hsub hfresh (hapart hne) hleaf

end Fresh

/-- The sibling stays on the same side of an even bound. -/
theorem le_sibling {i : ℕ} (h : 2 ^ 31 ≤ i) : 2 ^ 31 ≤ sibling i := by
  unfold sibling
  split_ifs <;> omega

/-- **The levels are clear**: a node that is read at another position would be another text. -/
theorem clear_of_right (hconsistent : Consistent depth insertions)
    (hcreate : ∀ zeroHash, createMerklePathIndex depth zeroHash pairTexts none =
      .ok (newIndex depth zeroHash pairTexts none))
    (h : Right depth insertions queries) {x : ℤ × Text} (hx : x ∈ insertions) :
    Clear insertions x.1.toNat := by
  intro l hl y hy
  obtain ⟨zero, hzero⟩ := Infinite.exists_notMem_finset (insertions.map Prod.snd).toFinset
  have hfresh : ∀ y ∈ insertions, y.2 ≠ zero := fun y hy heq =>
    hzero (List.mem_toFinset.mpr (List.mem_map.mpr ⟨y, hy, heq⟩))
  have hmade : Made insertions queries (insertCalls insertions) := made_insertCalls
  have hsub := (follows_made hconsistent (hcreate zero) hmade).sub
  have hreads := (forced hconsistent h (hcreate zero) made_insertCalls hx).2
  have hleaf := (forced hconsistent h (hcreate zero) made_insertCalls hy).1
  have hlt : l < depth := by
    by_contra hge
    have hle : 2 ^ depth ≤ 2 ^ l := Nat.pow_le_pow_right (by decide) (not_lt.mp hge)
    have hzero := Nat.div_eq_of_lt ((hconsistent.toNat_lt hx).trans_le hle)
    omega
  rw [reads, siblings_eq_map] at hreads
  have hnode := List.map_inj_left.mp hreads l (List.mem_range.mpr hlt)
  rw [Nat.zero_add] at hnode
  have hne : readPosition x.1.toNat l ≠ (sibling (x.1.toNat / 2 ^ l) : ℕ) := by
    have hsmall : readPosition x.1.toNat l < 2 ^ 31 := bitXor_lt _ _
    have hlarge := le_sibling hl
    omega
  obtain ⟨hsibling, hread⟩ := eq_none_of_nodeAt_eq hconsistent hsub hfresh rfl hne hnode
    (a := y.1.toNat)
  rw [hleaf] at hsibling hread
  exact ⟨fun heq => (nomatch hsibling heq), fun heq => (nomatch hread heq)⟩

/-- Insertions that are accepted are so under any hash. -/
theorem create_of_accepted (h : Accepted depth insertions) (zeroHash : Text) (hashPair : HashPair)
    (maxPathCacheEntries : Option ℤ) :
    createMerklePathIndex depth zeroHash hashPair maxPathCacheEntries =
      .ok (newIndex depth zeroHash hashPair maxPathCacheEntries) := by
  obtain ⟨zeroHash', hashPair', maxPathCacheEntries', index, index', hok, -⟩ := h
  unfold createMerklePathIndex at hok ⊢
  obtain ⟨_, hdepth, _, hsafe, -⟩ := by simpa only [bind_eq_ok] using hok
  rw [hdepth, ok_bind, hsafe, ok_bind]
  rfl

end Necessary

/-- **When all paths are right**, under every hash and whatever the order: every leaf is inserted under
one text, paths are asked for under that text, and where the sibling's position is from `2 ^ 31` on,
there is nothing below it and nothing below the node that is read in its place. -/
theorem right_iff {depth : ℕ} {insertions : List (ℤ × Text)} (h : Accepted depth insertions)
    (queries : Set Text) :
    Right depth insertions queries ↔ OneSpelling insertions ∧ AskedAsInserted insertions queries ∧
      ∀ x ∈ insertions, Clear insertions x.1.toNat := by
  have hconsistent := consistent_of_accepted h
  have hcreate := create_of_accepted h [] pairTexts none
  constructor
  · intro hright
    exact ⟨oneSpelling_of_right hconsistent hcreate hright,
      askedAsInserted_of_right hconsistent hcreate hright, fun x hx =>
        clear_of_right hconsistent (fun zeroHash => create_of_accepted h zeroHash _ _) hright hx⟩
  · rintro ⟨hone, hasked, hclear⟩
    exact right_of hconsistent hone hasked hclear

/-- Below `2 ^ 31` nothing has to be clear. -/
theorem clear_of_lt {insertions : List (ℤ × Text)} {i : ℕ} (hi : i < 2 ^ 31) : Clear insertions i :=
  fun l hl _ _ => absurd (hl.trans (Nat.div_le_self i (2 ^ l))) (not_le.mpr hi)

/-- Two leaves of a small tree, one of which was asked for before. -/
def fewLeaves : List (ℤ × Text) := [(0, "0xaa".toList), (3, "0xbb".toList)]

theorem accepted_fewLeaves : Accepted 3 fewLeaves :=
  ⟨[], fun _ _ => [], none, _, _, rfl, rfl⟩

theorem right_fewLeaves : Right 3 fewLeaves {"0xaa".toList} := by
  refine (right_iff accepted_fewLeaves _).mpr ⟨?_, ?_, ?_⟩
  · unfold OneSpelling
    decide
  · intro x hx q hq
    rw [Set.mem_singleton_iff.mp hq]
    revert x
    decide
  · intro x hx
    refine clear_of_lt ?_
    revert x
    decide

/-- Two leaves beside each other, at the first positions that are too large. -/
def highLeaves : List (ℤ × Text) := [(2 ^ 31, "0xaa".toList), (2 ^ 31 + 1, "0xbb".toList)]

theorem accepted_highLeaves : Accepted 32 highLeaves :=
  ⟨[], fun _ _ => [], none, _, _, rfl, rfl⟩

/-- The first leaf is not read beside the second. -/
theorem not_right_highLeaves : Accepted 32 highLeaves ∧ ¬Right 32 highLeaves ∅ := by
  refine ⟨accepted_highLeaves, fun hright => ?_⟩
  have hclear := clear_of_right (consistent_of_accepted accepted_highLeaves)
    (fun zeroHash => create_of_accepted accepted_highLeaves zeroHash _ _) hright
    (x := (2 ^ 31, "0xaa".toList)) List.mem_cons_self
  have hbeside := hclear 0 (by decide) (2 ^ 31 + 1, "0xbb".toList) (by decide)
  exact hbeside.1 (by decide)

end Nullark.Indexer.HighPaths
