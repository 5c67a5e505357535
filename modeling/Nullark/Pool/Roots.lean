import Nullark.Lib.Ring
import Nullark.Pool.Interface
import Nullark.Pool.Tree

/-! # The window of accepted roots

The v1.2 pool keeps the last 256 roots in a ring and, beside it, the mapping `acceptedRoots`, from
which every insertion takes one root away. The v1.1 pool keeps the ring only and scans it backwards.

* `Recorded`: the storage after the leaves of a list, its ring holding the roots of the prefixes.
* `recordCommitmentRoot_of_lt`: what recording a commitment does to it.
* `acceptedRoots_spec`: the mapping, the ring and the scan of v1.1 accept the same roots. -/

namespace Nullark.Pool.Roots

open Nullark.Lib.Outcome Nullark.Lib.Ring Nullark.Lib.Merkle.Tree Nullark.Evm.Basic
open Nullark.Pool.Interface Nullark.Pool.Tree

/-- **The storage of the roots.** -/
structure RootStorage where
  tree : TreeStorage
  currentRoot : Bytes32
  rootHistory : ℕ → Bytes32
  rootHistoryIndex : ℕ
  acceptedRoots : Bytes32 → Bool

section Code
variable (poseidon2 : Bytes32 → Bytes32 → Bytes32)

/-- What the constructor does to the roots. -/
def initialRoots : RootStorage :=
  let (tree, computedInitialRoot) := initializeZeroHashes poseidon2 blank
  { tree
    currentRoot := computedInitialRoot
    rootHistory := Function.update (fun _ => 0) 0 computedInitialRoot
    rootHistoryIndex := 0
    acceptedRoots := Function.update (fun _ => false) computedInitialRoot true }

/-- **`_recordCommitmentRoot`**: the index of the leaf and the events. -/
def recordCommitmentRoot (s : RootStorage) (commitment : Bytes32) :
    Result (RootStorage × ℕ × List Event) := do
  let previousRoot := s.currentRoot
  let (tree, nextRoot, leafIndex) ← insertMerkleLeaf poseidon2 s.tree commitment
  let nextIndex := (s.rootHistoryIndex + 1) % rootHistorySize
  let expiredRoot := s.rootHistory nextIndex
  let expires := expiredRoot ≠ 0 ∧ expiredRoot ≠ nextRoot
  let acceptedRoots :=
    if expires then Function.update s.acceptedRoots expiredRoot false else s.acceptedRoots
  let expired := if expires then [Event.rootExpired expiredRoot] else []
  return (
    { tree
      currentRoot := nextRoot
      rootHistory := Function.update s.rootHistory nextIndex nextRoot
      rootHistoryIndex := nextIndex
      acceptedRoots := Function.update acceptedRoots nextRoot true },
    leafIndex, expired ++ [.rootAccepted nextRoot previousRoot commitment])

def isAcceptedRoot (s : RootStorage) (root : Bytes32) : Prop := root ≠ 0 ∧ s.acceptedRoots root

instance (s : RootStorage) (root : Bytes32) : Decidable (isAcceptedRoot s root) :=
  inferInstanceAs (Decidable (_ ∧ _))

/-- A sequence of recordings, each settled before the next. -/
def recordAll (leaves : List Bytes32) : RootStorage :=
  leaves.foldl (fun s leaf => settle s (recordCommitmentRoot poseidon2 s leaf))
    (initialRoots poseidon2)

end Code

/-! ### The v1.1 pool -/

namespace V11

/-- The storage of the roots of v1.1. -/
structure RootStorage where
  tree : TreeStorage
  currentRoot : Bytes32
  rootHistory : ℕ → Bytes32
  rootHistoryIndex : ℕ

section Code
variable (poseidon2 : Bytes32 → Bytes32 → Bytes32)

def initialRoots : RootStorage :=
  let (tree, computedInitialRoot) := initializeZeroHashes poseidon2 blank
  { tree
    currentRoot := computedInitialRoot
    rootHistory := Function.update (fun _ => 0) 0 computedInitialRoot
    rootHistoryIndex := 0 }

/-- **`_recordCommitmentRoot`** of v1.1. -/
def recordCommitmentRoot (s : RootStorage) (commitment : Bytes32) :
    Result (RootStorage × ℕ × List Event) := do
  let previousRoot := s.currentRoot
  let (tree, nextRoot, leafIndex) ← insertMerkleLeaf poseidon2 s.tree commitment
  let nextIndex := (s.rootHistoryIndex + 1) % rootHistorySize
  let expiredRoot := s.rootHistory nextIndex
  let expired :=
    if expiredRoot ≠ 0 ∧ expiredRoot ≠ nextRoot then [Event.rootExpired expiredRoot] else []
  return (
    { tree
      currentRoot := nextRoot
      rootHistory := Function.update s.rootHistory nextIndex nextRoot
      rootHistoryIndex := nextIndex },
    leafIndex, expired ++ [.rootAccepted nextRoot previousRoot commitment])

/-- **`isAcceptedRoot`** of v1.1: the current root, else the loop over the other slots. -/
def isAcceptedRoot (s : RootStorage) (root : Bytes32) : Bool :=
  if root = 0 then false
  else if root = s.currentRoot then true
  else (List.range' 1 (rootHistorySize - 1)).any fun offset =>
    let index :=
      if s.rootHistoryIndex ≥ offset then s.rootHistoryIndex - offset
      else rootHistorySize + s.rootHistoryIndex - offset
    s.rootHistory index == root

def recordAll (leaves : List Bytes32) : RootStorage :=
  leaves.foldl (fun s leaf => settle s (recordCommitmentRoot poseidon2 s leaf))
    (initialRoots poseidon2)

end Code

end V11

variable {poseidon2 : Bytes32 → Bytes32 → Bytes32}

/-! ### The recorded roots -/

/-- **The roots recorded so far**: the roots of the prefixes of the leaves, the empty one first. -/
def prefixRoots (poseidon2 : Bytes32 → Bytes32 → Bytes32) (leaves : List Bytes32) : List Bytes32 :=
  leaves.inits.map (treeRoot poseidon2)

@[simp] theorem length_prefixRoots (leaves : List Bytes32) :
    (prefixRoots poseidon2 leaves).length = leaves.length + 1 := by
  rw [prefixRoots, List.length_map, List.length_inits]

theorem prefixRoots_nil : prefixRoots poseidon2 [] = [treeRoot poseidon2 []] := rfl

theorem prefixRoots_concat (leaves : List Bytes32) (leaf : Bytes32) :
    prefixRoots poseidon2 (leaves ++ [leaf]) =
      prefixRoots poseidon2 leaves ++ [treeRoot poseidon2 (leaves ++ [leaf])] := by
  simp [prefixRoots, List.inits_append]

theorem mem_prefixRoots {leaves : List Bytes32} {r : Bytes32} :
    r ∈ prefixRoots poseidon2 leaves ↔ ∃ pre, pre <+: leaves ∧ treeRoot poseidon2 pre = r := by
  simp [prefixRoots]

/-- **The storage after the leaves of a list.** Whether the roots repeat or not, every accepted
root has been recorded and the current one is accepted. -/
structure Recorded (poseidon2 : Bytes32 → Bytes32 → Bytes32) (s : RootStorage)
    (leaves : List Bytes32) : Prop where
  grown : Grown poseidon2 s.tree leaves
  currentRoot : s.currentRoot = treeRoot poseidon2 leaves
  ring : Holds rootHistorySize 0 s.rootHistory s.rootHistoryIndex (prefixRoots poseidon2 leaves)
  recorded : ∀ r, s.acceptedRoots r → r ∈ prefixRoots poseidon2 leaves
  current : s.acceptedRoots s.currentRoot

theorem recorded_initial : Recorded poseidon2 (initialRoots poseidon2) [] := by
  have hroot : (initializeZeroHashes poseidon2 blank).2 = treeRoot poseidon2 [] :=
    initializeZeroHashes_root
  refine ⟨grown_initial, hroot, ?_, fun r hr => ?_, ?_⟩
  · rw [prefixRoots_nil, ← hroot]
    exact Holds.singleton fun _ _ => rfl
  · rw [prefixRoots_nil, List.mem_singleton, ← hroot]
    by_contra hne
    simp [initialRoots, Function.update_of_ne hne] at hr
  · simp [initialRoots]

/-- **A commitment that is recorded** is appended to the leaves, and `RootAccepted` links the root
before to the root after. -/
theorem recordCommitmentRoot_ok {s s' : RootStorage} {leaves : List Bytes32} {commitment : Bytes32}
    {i : ℕ} {events : List Event} (h : Recorded poseidon2 s leaves)
    (hok : recordCommitmentRoot poseidon2 s commitment = .ok (s', i, events)) :
    Recorded poseidon2 s' (leaves ++ [commitment]) ∧ i = leaves.length ∧
      ∃ expired, (expired = [] ∨ ∃ r, expired = [Event.rootExpired r]) ∧
        events = expired ++ [.rootAccepted (treeRoot poseidon2 (leaves ++ [commitment]))
          (treeRoot poseidon2 leaves) commitment] := by
  unfold recordCommitmentRoot at hok
  rw [bind_eq_ok] at hok
  obtain ⟨⟨tree, nextRoot, leafIndex⟩, hins, hret⟩ := hok
  obtain ⟨hgrown, rfl, rfl⟩ := insertMerkleLeaf_ok h.grown hins
  simp only [pure_eq_ok, Prod.mk.injEq] at hret
  obtain ⟨rfl, rfl, rfl⟩ := hret
  refine ⟨⟨hgrown, rfl, ?_, fun r hr => ?_, ?_⟩, rfl, _, ?_, by rw [h.currentRoot]⟩
  · rw [prefixRoots_concat]
    exact h.ring.push
  · rw [prefixRoots_concat, List.mem_append, List.mem_singleton]
    dsimp only at hr
    rcases eq_or_ne r (treeRoot poseidon2 (leaves ++ [commitment])) with rfl | hne
    · exact .inr rfl
    · rw [Function.update_of_ne hne] at hr
      left
      refine h.recorded r ?_
      split_ifs at hr with hexp
      · rcases eq_or_ne r (s.rootHistory ((s.rootHistoryIndex + 1) % rootHistorySize)) with rfl | hr'
        · simp at hr
        · rwa [Function.update_of_ne hr'] at hr
      · exact hr
  · simp
  · split_ifs
    · exact .inr ⟨_, rfl⟩
    · exact .inl rfl

/-- Below capacity a commitment is recorded. -/
theorem recordCommitmentRoot_of_lt {s : RootStorage} {leaves : List Bytes32}
    (h : Recorded poseidon2 s leaves) (hlt : leaves.length < merkleTreeCapacity)
    (commitment : Bytes32) :
    ∃ s' i events, recordCommitmentRoot poseidon2 s commitment = .ok (s', i, events) := by
  obtain ⟨tree, heq, -⟩ := insertMerkleLeaf_of_lt h.grown hlt commitment
  unfold recordCommitmentRoot
  rw [heq, ok_bind]
  exact ⟨_, _, _, rfl⟩

/-- At capacity it is not. -/
theorem recordCommitmentRoot_full {s : RootStorage} {leaves : List Bytes32}
    (h : Recorded poseidon2 s leaves) (hfull : merkleTreeCapacity ≤ leaves.length)
    (commitment : Bytes32) :
    recordCommitmentRoot poseidon2 s commitment = .error (.reason "merkle tree full") := by
  unfold recordCommitmentRoot
  rw [insertMerkleLeaf_full h.grown hfull]
  rfl

theorem recordCommitmentRoot_error {s : RootStorage} {commitment : Bytes32} {e : Revert}
    (h : recordCommitmentRoot poseidon2 s commitment = .error e) :
    e = .reason "merkle tree full" := by
  unfold recordCommitmentRoot at h
  rw [bind_eq_error] at h
  rcases h with h | ⟨_, -, h⟩
  · exact insertMerkleLeaf_error h
  · cases h

/-! ### Sequences of recordings -/

theorem recordAll_concat (leaves : List Bytes32) (leaf : Bytes32) :
    recordAll poseidon2 (leaves ++ [leaf]) =
      settle (recordAll poseidon2 leaves)
        (recordCommitmentRoot poseidon2 (recordAll poseidon2 leaves) leaf) := by
  simp [recordAll, List.foldl_append]

/-- After any sequence of recordings the storage is that of the leaves that fit. -/
theorem recorded_recordAll (leaves : List Bytes32) :
    Recorded poseidon2 (recordAll poseidon2 leaves) (leaves.take merkleTreeCapacity) := by
  induction leaves using List.reverseRecOn with
  | nil => rw [List.take_nil]; exact recorded_initial
  | append_singleton leaves leaf ih =>
    rw [recordAll_concat]
    rcases Nat.lt_or_ge leaves.length merkleTreeCapacity with hlt | hge
    · rw [List.take_of_length_le hlt.le] at ih
      obtain ⟨s', i, events, heq⟩ := recordCommitmentRoot_of_lt ih hlt leaf
      rw [heq, settle_ok, List.take_of_length_le (by simpa using hlt)]
      exact (recordCommitmentRoot_ok ih heq).1
    · rw [recordCommitmentRoot_full ih (by rw [List.length_take]; omega), settle_error,
        List.take_append_of_le_length hge]
      exact ih

/-- The recordings past capacity change nothing. -/
theorem recordAll_take (leaves : List Bytes32) :
    recordAll poseidon2 (leaves.take merkleTreeCapacity) = recordAll poseidon2 leaves := by
  induction leaves using List.reverseRecOn with
  | nil => rw [List.take_nil]
  | append_singleton leaves leaf ih =>
    rcases Nat.lt_or_ge leaves.length merkleTreeCapacity with hlt | hge
    · rw [List.take_of_length_le (by simpa using hlt)]
    · rw [List.take_append_of_le_length hge, ih, recordAll_concat,
        recordCommitmentRoot_full (recorded_recordAll leaves) (by rw [List.length_take]; omega),
        settle_error]

/-! ### The mapping is the window -/

/-- **The mapping after one more root**, when no root is recorded twice: the new root comes in and
the one that falls out of the ring goes. -/
theorem acceptedRoots_step {s s' : RootStorage} {leaves : List Bytes32} {commitment : Bytes32}
    {i : ℕ} {events : List Event} (h : Recorded poseidon2 s leaves)
    (hwin : ∀ r, s.acceptedRoots r ↔ r ∈ window rootHistorySize (prefixRoots poseidon2 leaves))
    (hnd : (prefixRoots poseidon2 (leaves ++ [commitment])).Nodup)
    (h0 : 0 ∉ prefixRoots poseidon2 (leaves ++ [commitment]))
    (hok : recordCommitmentRoot poseidon2 s commitment = .ok (s', i, events)) (r : Bytes32) :
    s'.acceptedRoots r ↔
      r ∈ window rootHistorySize (prefixRoots poseidon2 (leaves ++ [commitment])) := by
  unfold recordCommitmentRoot at hok
  rw [bind_eq_ok] at hok
  obtain ⟨⟨tree, nextRoot, leafIndex⟩, hins, hret⟩ := hok
  obtain ⟨-, rfl, -⟩ := insertMerkleLeaf_ok h.grown hins
  simp only [pure_eq_ok, Prod.mk.injEq] at hret
  obtain ⟨rfl, -, -⟩ := hret
  have hsize : 0 < rootHistorySize := by decide
  rw [prefixRoots_concat] at hnd h0 ⊢
  rw [List.nodup_append] at hnd
  obtain ⟨hnd, -, hfresh⟩ := hnd
  rw [mem_window_concat hsize, mem_window_of_nodup hnd, ← hwin]
  dsimp only
  rcases eq_or_ne r (treeRoot poseidon2 (leaves ++ [commitment])) with rfl | hne
  · simp
  rw [Function.update_of_ne hne]
  by_cases hle : rootHistorySize ≤ (prefixRoots poseidon2 leaves).length
  · obtain ⟨hlt, hnext⟩ := h.ring.next_of_le hsize hle
    have hmem := List.getElem_mem hlt
    have hexpires : s.rootHistory ((s.rootHistoryIndex + 1) % rootHistorySize) ≠ 0 ∧
        s.rootHistory ((s.rootHistoryIndex + 1) % rootHistorySize) ≠
          treeRoot poseidon2 (leaves ++ [commitment]) := by
      rw [hnext]
      exact ⟨fun hz => h0 (List.mem_append_left _ (hz ▸ hmem)), hfresh _ hmem _ (by simp)⟩
    rw [if_pos hexpires, hnext]
    rcases eq_or_ne r (prefixRoots poseidon2 leaves)[(prefixRoots poseidon2 leaves).length -
        rootHistorySize] with heq | hne'
    · rw [← heq, Function.update_self]
      simp only [Bool.false_eq_true, hne, false_or, false_iff]
      exact fun hand => hand.2 hsize hle heq
    · rw [Function.update_of_ne hne']
      exact ⟨fun hr => .inr ⟨hr, fun _ _ => hne'⟩, fun hr => (hr.resolve_left hne).1⟩
  · rw [h.ring.next_of_lt (by omega), if_neg fun hand => hand.1 rfl]
    exact ⟨fun hr => .inr ⟨hr, fun _ hle' => absurd hle' hle⟩, fun hr => (hr.resolve_left hne).1⟩

/-- **The mapping is the window**, while no root is recorded twice and none is zero. -/
theorem acceptedRoots_recordAll : ∀ (leaves : List Bytes32),
    leaves.length ≤ merkleTreeCapacity → (prefixRoots poseidon2 leaves).Nodup →
    0 ∉ prefixRoots poseidon2 leaves → ∀ r, (recordAll poseidon2 leaves).acceptedRoots r ↔
      r ∈ window rootHistorySize (prefixRoots poseidon2 leaves) := by
  intro leaves
  induction leaves using List.reverseRecOn with
  | nil =>
    intro _ _ _ r
    have hroot : (initializeZeroHashes poseidon2 blank).2 = treeRoot poseidon2 [] :=
      initializeZeroHashes_root
    have hwin : window rootHistorySize (prefixRoots poseidon2 []) = [treeRoot poseidon2 []] := by
      simp [window, prefixRoots_nil, rootHistorySize]
    rw [hwin, List.mem_singleton, ← hroot]
    change Function.update (fun _ => false) (initializeZeroHashes poseidon2 blank).2 true r = true ↔ _
    rcases eq_or_ne r (initializeZeroHashes poseidon2 blank).2 with rfl | hne
    · simp
    · simp [hne]
  | append_singleton leaves leaf ih =>
    intro hlen hnd h0 r
    have hlt : leaves.length < merkleTreeCapacity := by simpa using hlen
    have hrec : Recorded poseidon2 (recordAll poseidon2 leaves) leaves := by
      have hall : Recorded poseidon2 (recordAll poseidon2 leaves) (leaves.take merkleTreeCapacity) :=
        recorded_recordAll leaves
      rwa [List.take_of_length_le hlt.le] at hall
    obtain ⟨s', i, events, heq⟩ := recordCommitmentRoot_of_lt hrec hlt leaf
    rw [recordAll_concat, heq, settle_ok]
    refine acceptedRoots_step hrec (ih hlt.le ?_ ?_) hnd h0 heq r
    · rw [prefixRoots_concat] at hnd
      exact hnd.of_append_left
    · rw [prefixRoots_concat] at h0
      exact fun hmem => h0 (List.mem_append_left _ hmem)

/-! ### The scan of v1.1 -/

/-- The storage v1.1 has. -/
def RootStorage.forget (s : RootStorage) : V11.RootStorage :=
  { tree := s.tree, currentRoot := s.currentRoot, rootHistory := s.rootHistory
    rootHistoryIndex := s.rootHistoryIndex }

/-- Recording does the same to the storage the two versions share. -/
theorem forget_recordCommitmentRoot (s : RootStorage) (commitment : Bytes32) :
    V11.recordCommitmentRoot poseidon2 s.forget commitment =
      (recordCommitmentRoot poseidon2 s commitment).map fun r => (r.1.forget, r.2) := by
  unfold V11.recordCommitmentRoot recordCommitmentRoot RootStorage.forget
  cases insertMerkleLeaf poseidon2 s.tree commitment <;> rfl

theorem forget_recordAll (leaves : List Bytes32) :
    V11.recordAll poseidon2 leaves = (recordAll poseidon2 leaves).forget := by
  induction leaves using List.reverseRecOn with
  | nil => rfl
  | append_singleton leaves leaf ih =>
    rw [recordAll_concat]
    simp only [V11.recordAll, List.foldl_append, List.foldl_cons, List.foldl_nil] at ih ⊢
    rw [ih, forget_recordCommitmentRoot]
    cases recordCommitmentRoot poseidon2 (recordAll poseidon2 leaves) leaf <;> rfl

/-- **The scan of v1.1** accepts the contents of the ring. -/
theorem isAcceptedRoot_v11 {s : RootStorage} {leaves : List Bytes32}
    (h : Recorded poseidon2 s leaves) (r : Bytes32) :
    V11.isAcceptedRoot s.forget r ↔ r ≠ 0 ∧ ∃ slot < rootHistorySize, s.rootHistory slot = r := by
  have hsize : 0 < rootHistorySize := by decide
  have hnewest : s.rootHistoryIndex < rootHistorySize := by
    rw [h.ring.newest_eq]; exact Nat.mod_lt _ hsize
  have hcur : s.rootHistory s.rootHistoryIndex = s.currentRoot := by
    obtain ⟨hlt, hslot⟩ := h.ring.newest_slot hsize
    rw [hslot, h.currentRoot]
    rcases List.eq_nil_or_concat leaves with rfl | ⟨leaves, leaf, rfl⟩
    · rfl
    · simp [prefixRoots_concat]
  rw [← exists_back hnewest, hcur]
  unfold V11.isAcceptedRoot
  split_ifs with hz hc
  · exact ⟨fun h => by simp at h, fun h => absurd hz h.1⟩
  · exact ⟨fun _ => ⟨hz, .inl hc.symm⟩, fun _ => rfl⟩
  · rw [List.any_eq_true]
    constructor
    · rintro ⟨offset, hmem, hs⟩
      rw [List.mem_range'_1] at hmem
      exact ⟨hz, .inr ⟨offset, hmem.1, by omega, beq_iff_eq.mp hs⟩⟩
    · rintro ⟨-, heq | ⟨offset, h1, h2, hs⟩⟩
      · exact absurd heq.symm hc
      · exact ⟨offset, List.mem_range'_1.mpr ⟨h1, by omega⟩, beq_iff_eq.mpr hs⟩

/-- **Three accounts of the window.** After any sequence of insertions, if the prefixes of the
leaves that fit have distinct nonzero roots: the mapping `acceptedRoots` is true for exactly the last
256 roots recorded, which are the roots the ring holds, and for exactly the roots that v1.1 accepts
after the same insertions. -/
theorem acceptedRoots_spec (poseidon2 : Bytes32 → Bytes32 → Bytes32) (leaves : List Bytes32)
    (hnd : (prefixRoots poseidon2 (leaves.take merkleTreeCapacity)).Nodup)
    (h0 : 0 ∉ prefixRoots poseidon2 (leaves.take merkleTreeCapacity)) (r : Bytes32) :
    let s := recordAll poseidon2 leaves
    (s.acceptedRoots r ↔
        r ∈ window rootHistorySize (prefixRoots poseidon2 (leaves.take merkleTreeCapacity))) ∧
      (s.acceptedRoots r ↔ r ≠ 0 ∧ ∃ slot < rootHistorySize, s.rootHistory slot = r) ∧
      (isAcceptedRoot s r ↔ V11.isAcceptedRoot (V11.recordAll poseidon2 leaves) r) := by
  intro s
  have hrec : Recorded poseidon2 s (leaves.take merkleTreeCapacity) := recorded_recordAll leaves
  have hwin : s.acceptedRoots r ↔
      r ∈ window rootHistorySize (prefixRoots poseidon2 (leaves.take merkleTreeCapacity)) := by
    have := acceptedRoots_recordAll (leaves.take merkleTreeCapacity)
      (by rw [List.length_take]; omega) hnd h0 r
    rwa [recordAll_take] at this
  have hring : s.acceptedRoots r ↔ r ≠ 0 ∧ ∃ slot < rootHistorySize, s.rootHistory slot = r := by
    rw [hwin]
    constructor
    · intro hmem
      have hr : r ≠ 0 := fun hz => h0 (hz ▸ List.mem_of_mem_drop hmem)
      exact ⟨hr, (hrec.ring.exists_slot hr).mpr hmem⟩
    · rintro ⟨hr, hslot⟩
      exact (hrec.ring.exists_slot hr).mp hslot
  refine ⟨hwin, hring, ?_⟩
  rw [forget_recordAll, isAcceptedRoot_v11 hrec, ← hring]
  unfold isAcceptedRoot
  exact ⟨fun h => h.2, fun h => ⟨(hring.mp h).1, h⟩⟩

/-! ### More leaves than the window has roots -/

/-- The leaves `1`, `2`, and so on. -/
def sampleLeaves (n : ℕ) : List Bytes32 := (List.range n).map fun i => BitVec.ofNat 256 (i + 1)

theorem length_sampleLeaves (n : ℕ) : (sampleLeaves n).length = n := by
  rw [sampleLeaves, List.length_map, List.length_range]

theorem sampleLeaves_succ (n : ℕ) :
    sampleLeaves (n + 1) = sampleLeaves n ++ [BitVec.ofNat 256 (n + 1)] := by
  rw [sampleLeaves, List.range_succ, List.map_append, List.map_singleton, sampleLeaves]

/-- A hash that adds one to the larger node. -/
def largerHash (l r : Bytes32) : Bytes32 := BitVec.ofNat 256 (max l.toNat r.toNat + 1)

theorem padded_sampleLeaves {n : ℕ} (hn : n < 2 ^ 255) (i : ℕ) :
    (padded 0 (sampleLeaves n) i).toNat = if i < n then i + 1 else 0 := by
  split_ifs with hi
  · rw [padded_of_lt (by rwa [length_sampleLeaves])]
    simp only [sampleLeaves, List.getElem_map, List.getElem_range, BitVec.toNat_ofNat]
    exact Nat.mod_eq_of_lt (by omega)
  · rw [padded_of_le (by rw [length_sampleLeaves]; omega)]
    rfl

/-- A node over these leaves is its last leaf and its height. -/
theorem node_sampleLeaves {n : ℕ} (hn : n < 2 ^ 255) : ∀ l < 256, ∀ p,
    (node largerHash (padded 0 (sampleLeaves n)) l p).toNat =
      (if 2 ^ l * p < n then min n (2 ^ l * (p + 1)) else 0) + l
  | 0, _, p => by
    rw [node_zero_height, padded_sampleLeaves hn, pow_zero, one_mul, one_mul]
    split_ifs <;> omega
  | l + 1, hl, p => by
    have hleft := node_sampleLeaves hn l (by omega) (2 * p)
    have hright := node_sampleLeaves hn l (by omega) (2 * p + 1)
    have hpos := Nat.two_pow_pos l
    have hstart : 2 ^ (l + 1) * p = 2 ^ l * (2 * p) := by ring
    have hmiddle : 2 ^ l * (2 * p + 1) = 2 ^ l * (2 * p) + 2 ^ l := by ring
    have hend : 2 ^ l * (2 * p + 1 + 1) = 2 ^ l * (2 * p) + 2 ^ l + 2 ^ l := by ring
    have hend' : 2 ^ (l + 1) * (p + 1) = 2 ^ l * (2 * p) + 2 ^ l + 2 ^ l := by ring
    rw [hmiddle] at hleft hright
    rw [hend] at hright
    rw [node_succ, largerHash, hleft, hright, hstart, hend', BitVec.toNat_ofNat]
    generalize 2 ^ l * (2 * p) = a at *
    generalize 2 ^ l = m at *
    rw [Nat.mod_eq_of_lt] <;> split_ifs <;> omega

theorem treeRoot_sampleLeaves {n : ℕ} (hn : n ≤ merkleTreeCapacity) :
    treeRoot largerHash (sampleLeaves n) = BitVec.ofNat 256 (n + merkleTreeDepth) := by
  have hdepth : merkleTreeDepth < 256 := by decide
  have hcapacity : 2 ^ merkleTreeDepth = merkleTreeCapacity := rfl
  have hlarge : merkleTreeCapacity < 2 ^ 255 := by decide +kernel
  have hnode := node_sampleLeaves (hn.trans_lt hlarge) merkleTreeDepth hdepth 0
  rw [Nat.mul_zero, Nat.zero_add, Nat.mul_one, hcapacity] at hnode
  refine BitVec.eq_of_toNat_eq (hnode.trans ?_)
  rw [BitVec.toNat_ofNat, Nat.mod_eq_of_lt (by omega)]
  split_ifs <;> omega

theorem prefixRoots_sampleLeaves {n : ℕ} (hn : n ≤ merkleTreeCapacity) :
    prefixRoots largerHash (sampleLeaves n) =
      (List.range (n + 1)).map fun k => BitVec.ofNat 256 (k + merkleTreeDepth) := by
  induction n with
  | zero =>
    have hroot := treeRoot_sampleLeaves hn
    have hnone : sampleLeaves 0 = [] := rfl
    rw [hnone] at hroot ⊢
    rw [prefixRoots_nil, hroot, List.range_one, List.map_singleton]
  | succ n ih =>
    rw [sampleLeaves_succ, prefixRoots_concat, ← sampleLeaves_succ, treeRoot_sampleLeaves hn,
      ih (Nat.le_of_succ_le hn), List.range_succ (n := n + 1), List.map_append, List.map_singleton]

/-- After 300 leaves the root 64 has left the window, and 65 is the oldest in it. -/
theorem acceptedRoots_spec_evicted :
    (¬isAcceptedRoot (recordAll largerHash (sampleLeaves 300)) 64 ∧
        ¬V11.isAcceptedRoot (V11.recordAll largerHash (sampleLeaves 300)) 64) ∧
      isAcceptedRoot (recordAll largerHash (sampleLeaves 300)) 65 ∧
        V11.isAcceptedRoot (V11.recordAll largerHash (sampleLeaves 300)) 65 := by
  have hsize : 300 ≤ merkleTreeCapacity := by decide +kernel
  have htake : (sampleLeaves 300).take merkleTreeCapacity = sampleLeaves 300 :=
    List.take_of_length_le (by rw [length_sampleLeaves]; exact hsize)
  have hspec := acceptedRoots_spec largerHash (sampleLeaves 300)
  rw [htake, prefixRoots_sampleLeaves hsize] at hspec
  have hnodup : ((List.range 301).map fun k => BitVec.ofNat 256 (k + merkleTreeDepth)).Nodup := by
    refine List.Nodup.map_on (fun a ha b hb heq => ?_) List.nodup_range
    rw [List.mem_range] at ha hb
    have hnat := congrArg BitVec.toNat heq
    have hdepth : merkleTreeDepth < 256 := by decide
    rw [BitVec.toNat_ofNat, BitVec.toNat_ofNat] at hnat
    omega
  have hspec := hspec hnodup (by decide +kernel)
  have hout : (64 : Bytes32) ∉ window rootHistorySize
      ((List.range 301).map fun k => BitVec.ofNat 256 (k + merkleTreeDepth)) := by decide +kernel
  have hin : (65 : Bytes32) ∈ window rootHistorySize
      ((List.range 301).map fun k => BitVec.ofNat 256 (k + merkleTreeDepth)) := by decide +kernel
  have hnonzero : (65 : Bytes32) ≠ 0 := by decide
  generalize recordAll largerHash (sampleLeaves 300) = s at hspec ⊢
  obtain ⟨hold, -, holdV11⟩ := hspec 64
  obtain ⟨hnew, -, hnewV11⟩ := hspec 65
  have hrejected : ¬isAcceptedRoot s 64 := fun h => hout (hold.mp h.2)
  have haccepted : isAcceptedRoot s 65 := ⟨hnonzero, hnew.mpr hin⟩
  exact ⟨⟨hrejected, fun h => hrejected (holdV11.mpr h)⟩, haccepted, hnewV11.mp haccepted⟩

end Nullark.Pool.Roots
