import Nullark.Evm.Basic
import Nullark.Lib.Merkle.Frontier

/-! # The commitment tree of the pool

`initializeZeroHashes`, `insertMerkleLevel` and `insertMerkleLeaf` on the three storage variables
of the tree. A fixed storage array is a function of the slot number; the code reads and writes only
the slots it has.

* `Grown`: the storage after the leaves of a list, in terms of the complete tree.
* `insertMerkleLeaf_of_lt`, `insertMerkleLeaf_full`: what one insertion does, below capacity and at it.
* `insertAll_spec`: whole sequences of insertions. -/

namespace Nullark.Pool.Tree

open Nullark.Lib.Outcome Nullark.Lib.Merkle.Tree Nullark.Lib.Merkle.Frontier Nullark.Evm.Basic

def merkleTreeDepth : ℕ := 20

def merkleTreeCapacity : ℕ := 2 ^ merkleTreeDepth

/-- **The storage of the tree.** -/
structure TreeStorage where
  filledSubtrees : ℕ → Bytes32
  zeroHashes : ℕ → Bytes32
  nextLeafIndex : ℕ

/-- The storage before the constructor runs. -/
def blank : TreeStorage := ⟨fun _ => 0, fun _ => 0, 0⟩

section Code
variable (poseidon2 : Bytes32 → Bytes32 → Bytes32)

/-- One round of the loop of `_initializeZeroHashes`. -/
def initializeZeroHash (s : TreeStorage) (level : ℕ) : TreeStorage :=
  { s with
    filledSubtrees := Function.update s.filledSubtrees level (s.zeroHashes level)
    zeroHashes := Function.update s.zeroHashes (level + 1)
      (poseidon2 (s.zeroHashes level) (s.zeroHashes level)) }

/-- **`_initializeZeroHashes`**: the storage it leaves and the root it returns. -/
def initializeZeroHashes (s : TreeStorage) : TreeStorage × Bytes32 :=
  let s := { s with zeroHashes := Function.update s.zeroHashes 0 0 }
  let s := (List.range merkleTreeDepth).foldl (initializeZeroHash poseidon2) s
  (s, s.zeroHashes merkleTreeDepth)

/-- **`_insertMerkleLevel`**, on the storage, the running node and its index. -/
def insertMerkleLevel : TreeStorage × Bytes32 × ℕ → ℕ → TreeStorage × Bytes32 × ℕ
  | (s, current, index), level =>
    if index % 2 = 0 then
      ({ s with filledSubtrees := Function.update s.filledSubtrees level current },
        poseidon2 current (s.zeroHashes level), index / 2)
    else (s, poseidon2 (s.filledSubtrees level) current, index / 2)

/-- **`_insertMerkleLeaf`**: the new root and the index of the leaf. -/
def insertMerkleLeaf (s : TreeStorage) (leaf : Bytes32) : Result (TreeStorage × Bytes32 × ℕ) := do
  require (s.nextLeafIndex < merkleTreeCapacity) "merkle tree full"
  let leafIndex := s.nextLeafIndex
  let s := { s with nextLeafIndex := leafIndex + 1 }
  let (s, root, _) :=
    (List.range merkleTreeDepth).foldl (insertMerkleLevel poseidon2) (s, leaf, leafIndex)
  return (s, root, leafIndex)

/-- The tree a new pool starts with. -/
def initial : TreeStorage := (initializeZeroHashes poseidon2 blank).1

/-- **A sequence of insertions**, each settled before the next: the storage after them. -/
def insertAll (leaves : List Bytes32) : TreeStorage :=
  leaves.foldl (fun s leaf => settle s (insertMerkleLeaf poseidon2 s leaf)) (initial poseidon2)

/-- What the insertion of `leaf` answers after the insertions of `leaves`. -/
def insertAnswer (leaves : List Bytes32) (leaf : Bytes32) : Result (Bytes32 × ℕ) :=
  answer (insertMerkleLeaf poseidon2 (insertAll poseidon2 leaves) leaf)

end Code

variable {poseidon2 : Bytes32 → Bytes32 → Bytes32}

/-! ### The zero hashes -/

/-- After `n` rounds the table holds the first zero hashes, and no leaf has been inserted. -/
theorem initializeZeroHash_rounds : ∀ n : ℕ,
    let s := (List.range n).foldl (initializeZeroHash poseidon2)
      { blank with zeroHashes := Function.update blank.zeroHashes 0 0 }
    (∀ l ≤ n, s.zeroHashes l = zeroHash poseidon2 0 l) ∧ s.nextLeafIndex = 0
  | 0 => by
    refine ⟨fun l hl => ?_, rfl⟩
    obtain rfl : l = 0 := by omega
    simp
  | n + 1 => by
    obtain ⟨hz, hn⟩ := initializeZeroHash_rounds n
    simp only [List.range_succ, List.foldl_append, List.foldl_cons, List.foldl_nil,
      initializeZeroHash]
    refine ⟨fun l hl => ?_, hn⟩
    rcases Nat.eq_or_lt_of_le hl with rfl | hlt
    · rw [Function.update_self, hz n le_rfl, zeroHash_succ]
    · rw [Function.update_of_ne (by omega), hz l (by omega)]

/-! ### The tree after a list of leaves -/

/-- **The storage is the tree of `leaves`**: the zero hashes are right, the count is, and the slots
of the levels whose digit in the count is one hold the last complete node of their level. -/
structure Grown (poseidon2 : Bytes32 → Bytes32 → Bytes32) (s : TreeStorage)
    (leaves : List Bytes32) : Prop where
  zeroHashes : ∀ l ≤ merkleTreeDepth, s.zeroHashes l = zeroHash poseidon2 0 l
  nextLeafIndex : s.nextLeafIndex = leaves.length
  fits : leaves.length ≤ merkleTreeCapacity
  live : Live poseidon2 (padded 0 leaves) merkleTreeDepth leaves.length s.filledSubtrees

/-- The root of the complete tree over the leaves. -/
def treeRoot (poseidon2 : Bytes32 → Bytes32 → Bytes32) (leaves : List Bytes32) : Bytes32 :=
  root poseidon2 0 merkleTreeDepth leaves

theorem grown_initial : Grown poseidon2 (initial poseidon2) [] where
  zeroHashes := (initializeZeroHash_rounds merkleTreeDepth).1
  nextLeafIndex := (initializeZeroHash_rounds merkleTreeDepth).2
  fits := Nat.zero_le _
  live := live_zero _ _ _ _

/-- The root the constructor records is the one of the empty tree. -/
theorem initializeZeroHashes_root : (initializeZeroHashes poseidon2 blank).2 = treeRoot poseidon2 [] := by
  unfold treeRoot
  rw [root_nil]
  exact (initializeZeroHash_rounds merkleTreeDepth).1 _ le_rfl

/-! ### One insertion -/

theorem insertMerkleLevel_even {s : TreeStorage} {current : Bytes32} {index level : ℕ}
    (h : index % 2 = 0) : insertMerkleLevel poseidon2 (s, current, index) level =
      ({ s with filledSubtrees := Function.update s.filledSubtrees level current },
        poseidon2 current (s.zeroHashes level), index / 2) := if_pos h

theorem insertMerkleLevel_odd {s : TreeStorage} {current : Bytes32} {index level : ℕ}
    (h : ¬index % 2 = 0) : insertMerkleLevel poseidon2 (s, current, index) level =
      (s, poseidon2 (s.filledSubtrees level) current, index / 2) := if_neg h

/-- The loop over the levels is the walk up of the frontier. -/
theorem insertMerkleLevel_rounds : ∀ (n l : ℕ) (s : TreeStorage) (current : Bytes32) (index : ℕ),
    (∀ k < l + n, s.zeroHashes k = zeroHash poseidon2 0 k) →
    ∃ index', (List.range' l n).foldl (insertMerkleLevel poseidon2) (s, current, index) =
      let p := push poseidon2 (zeroHash poseidon2 0) n l s.filledSubtrees index current
      ({ s with filledSubtrees := p.1 }, p.2, index')
  | 0, _, _, _, index, _ => ⟨index, rfl⟩
  | n + 1, l, s, current, index, hz => by
    rw [List.range'_succ, List.foldl_cons, push]
    split_ifs with heven
    · rw [insertMerkleLevel_even heven, hz l (by omega)]
      exact insertMerkleLevel_rounds n (l + 1)
        { s with filledSubtrees := Function.update s.filledSubtrees l current } _ _
        fun k hk => hz k (by omega)
    · rw [insertMerkleLevel_odd heven]
      exact insertMerkleLevel_rounds n (l + 1) s _ _ fun k hk => hz k (by omega)

/-- **An insertion below capacity** answers the root of the tree with the new leaf and its index,
and leaves the storage of that tree. -/
theorem insertMerkleLeaf_of_lt {s : TreeStorage} {leaves : List Bytes32}
    (h : Grown poseidon2 s leaves) (hlt : leaves.length < merkleTreeCapacity) (leaf : Bytes32) :
    ∃ s', insertMerkleLeaf poseidon2 s leaf =
        .ok (s', treeRoot poseidon2 (leaves ++ [leaf]), leaves.length) ∧
      Grown poseidon2 s' (leaves ++ [leaf]) := by
  obtain ⟨index', hloop⟩ := insertMerkleLevel_rounds merkleTreeDepth 0
    { s with nextLeafIndex := s.nextLeafIndex + 1 } leaf s.nextLeafIndex
    fun k hk => h.zeroHashes k (by omega)
  obtain ⟨hlive, hroot⟩ := push_spec poseidon2 (x := leaf) hlt h.live
  rw [← List.range_eq_range'] at hloop
  unfold insertMerkleLeaf
  rw [require_of (h.nextLeafIndex ▸ hlt), ok_bind]
  dsimp only
  rw [hloop]
  dsimp only
  rw [h.nextLeafIndex, hroot]
  refine ⟨_, rfl, h.zeroHashes, ?_, ?_, hlive⟩
  · simp
  · rw [List.length_append, List.length_singleton]; exact hlt

/-- **An insertion at capacity** is rejected. -/
theorem insertMerkleLeaf_full {s : TreeStorage} {leaves : List Bytes32}
    (h : Grown poseidon2 s leaves) (hfull : merkleTreeCapacity ≤ leaves.length) (leaf : Bytes32) :
    insertMerkleLeaf poseidon2 s leaf = .error (.reason "merkle tree full") := by
  unfold insertMerkleLeaf
  rw [bind_eq_error, require_eq_error, h.nextLeafIndex]
  exact .inl ⟨by omega, rfl⟩

/-- An insertion that is accepted was below capacity. -/
theorem insertMerkleLeaf_ok {s s' : TreeStorage} {leaves : List Bytes32} {leaf r : Bytes32} {i : ℕ}
    (h : Grown poseidon2 s leaves) (hok : insertMerkleLeaf poseidon2 s leaf = .ok (s', r, i)) :
    Grown poseidon2 s' (leaves ++ [leaf]) ∧ r = treeRoot poseidon2 (leaves ++ [leaf]) ∧
      i = leaves.length := by
  rcases Nat.lt_or_ge leaves.length merkleTreeCapacity with hlt | hge
  · obtain ⟨s'', heq, hgrown⟩ := insertMerkleLeaf_of_lt h hlt leaf
    rw [heq] at hok
    obtain ⟨rfl, rfl, rfl⟩ : s'' = s' ∧ _ ∧ _ := by simpa using hok
    exact ⟨hgrown, rfl, rfl⟩
  · rw [insertMerkleLeaf_full h hge] at hok
    simp at hok

/-- Nothing else is rejected. -/
theorem insertMerkleLeaf_error {s : TreeStorage} {leaf : Bytes32} {e : Revert}
    (h : insertMerkleLeaf poseidon2 s leaf = .error e) : e = .reason "merkle tree full" := by
  unfold insertMerkleLeaf at h
  rw [bind_eq_error, require_eq_error] at h
  rcases h with ⟨-, he⟩ | ⟨_, -, h⟩
  · exact he
  · dsimp only at h
    generalize (List.range merkleTreeDepth).foldl (insertMerkleLevel poseidon2) _ = r at h
    obtain ⟨_, _, _⟩ := r
    cases h

/-! ### Sequences of insertions -/

theorem insertAll_concat (leaves : List Bytes32) (leaf : Bytes32) :
    insertAll poseidon2 (leaves ++ [leaf]) =
      settle (insertAll poseidon2 leaves)
        (insertMerkleLeaf poseidon2 (insertAll poseidon2 leaves) leaf) := by
  simp [insertAll, List.foldl_append]

/-- After any sequence of insertions the storage is the tree of the leaves that fit. -/
theorem grown_insertAll (leaves : List Bytes32) :
    Grown poseidon2 (insertAll poseidon2 leaves) (leaves.take merkleTreeCapacity) := by
  induction leaves using List.reverseRecOn with
  | nil => rw [List.take_nil]; exact grown_initial
  | append_singleton leaves leaf ih =>
    rw [insertAll_concat]
    rcases Nat.lt_or_ge leaves.length merkleTreeCapacity with hlt | hge
    · rw [List.take_of_length_le hlt.le] at ih
      obtain ⟨s', heq, hgrown⟩ := insertMerkleLeaf_of_lt ih hlt leaf
      rw [heq, settle_ok, List.take_of_length_le (by simpa using hlt)]
      exact hgrown
    · rw [insertMerkleLeaf_full ih (by rw [List.length_take]; omega), settle_error,
        List.take_append_of_le_length hge]
      exact ih

/-- **Incremental insertion is the complete tree.** For every hash and every sequence of leaves the
insertion of one more leaf answers, while there is room, the root of the complete tree over the
leaves in order followed by zero leaves, with the number of leaves before it as its index; the count
is the number of leaves inserted; at capacity every further insertion is rejected and leaves the
storage as it was. -/
theorem insertAll_spec (poseidon2 : Bytes32 → Bytes32 → Bytes32) (leaves : List Bytes32)
    (leaf : Bytes32) :
    (insertAll poseidon2 leaves).nextLeafIndex = min leaves.length merkleTreeCapacity ∧
      if leaves.length < merkleTreeCapacity then
        insertAnswer poseidon2 leaves leaf =
          .ok (root poseidon2 0 merkleTreeDepth (leaves ++ [leaf]), leaves.length)
      else
        insertAnswer poseidon2 leaves leaf = .error (.reason "merkle tree full") ∧
          insertAll poseidon2 (leaves ++ [leaf]) = insertAll poseidon2 leaves := by
  have hgrown : Grown poseidon2 (insertAll poseidon2 leaves) (leaves.take merkleTreeCapacity) :=
    grown_insertAll leaves
  refine ⟨by rw [hgrown.nextLeafIndex, List.length_take, min_comm], ?_⟩
  unfold insertAnswer
  split_ifs with hlt
  · rw [List.take_of_length_le hlt.le] at hgrown
    obtain ⟨s', heq, -⟩ := insertMerkleLeaf_of_lt hgrown hlt leaf
    rw [heq, answer_ok, treeRoot]
  · have hfull := insertMerkleLeaf_full hgrown (by rw [List.length_take]; omega) leaf
    rw [insertAll_concat, hfull]
    exact ⟨rfl, rfl⟩

end Nullark.Pool.Tree
