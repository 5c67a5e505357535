import Nullark.Indexer.MerklePaths
import Nullark.Sdk.Merkle
import Nullark.Web.Merkle

/-! # The pool's history, as the packages see it

From the `RootAccepted` events of a reachable pool the SDK, the web application and the indexer
recompute one and the same path for every commitment inserted.

* `histories_agree`: the index, the current root and the siblings, on all sides. -/

namespace Nullark.Agreement

open Nullark.Lib.Hex Nullark.Lib.Rollback Nullark.Lib.Merkle.Tree
open Nullark.Evm.Basic Nullark.Pool.Interface Nullark.Pool.Tree Nullark.Pool.Context
open Nullark.Pool Nullark.Pool.Actions Nullark.Pool.Calls Nullark.Pool.Checks Nullark.Pool.Effects
open Nullark.Pool.History
open Nullark.Js.Basic Nullark.Js.TreeHash Nullark.Indexer.MerklePaths

/-- The records a node returns for the events of a world. -/
def recordsOf (w : World) : List RootAcceptedLogRecord := (rootLogs w.logs).map logRecord

/-- The calls insert every leaf of a world at its place. -/
structure FedWith (w : World) (calls : List IndexCall) : Prop where
  feeds : Feeds (leavesOf w) calls
  all : ∀ (i : ℕ) (leaf : Bytes32), (leavesOf w)[i]? = some leaf →
    .insert (hex32 leaf) (i : ℤ) ∈ calls

variable {env : Env} {answers : Answers} {w : World}

/-- What a reachable world gives the packages. -/
theorem tracks_facts (h : Tracks env w (leavesOf w)) :
    recordsOf w = (chain env.poseidon2 (leavesOf w)).map logRecord ∧
      w.pool.roots.currentRoot = treeRoot env.poseidon2 (leavesOf w) ∧
      (∀ x ∈ leavesOf w, isFieldElement x) ∧ (∀ x ∈ leavesOf w, x ≠ 0) ∧
      (leavesOf w).length ≤ merkleTreeCapacity :=
  ⟨by rw [recordsOf, h.logs], h.recorded.currentRoot, fun x hx => (h.field x hx).2,
    fun x hx => (h.field x hx).1, h.recorded.grown.fits⟩

/-- The path that the indexer returns once it was fed the leaves. -/
theorem indexer_path (h : Tracks env w (leavesOf w)) {hashPair : HashPair}
    (hpair : SamePairHash env.poseidon2 hashPair) {calls : List IndexCall}
    (hcalls : FedWith w calls) (maxPathCacheEntries : Option ℤ) {i : ℕ} {commitment : Bytes32}
    (hi : (leavesOf w)[i]? = some commitment) :
    ∃ index index' path,
      createMerklePathIndex merkleTreeDepth (hex32 0) hashPair maxPathCacheEntries = .ok index ∧
      getMerklePathForCommitment (calls.foldl callIndex index) (hex32 commitment) =
        .ok (index', path) ∧
      path.leafIndex = i ∧ path.root = hex32 w.pool.roots.currentRoot ∧
      path.pathElements =
        (siblings env.poseidon2 (padded 0 (leavesOf w)) 0 i merkleTreeDepth).map hex32 ∧
      path.pathIndices = (indexBits i merkleTreeDepth).map (Nat.cast : ℕ → ℤ) := by
  obtain ⟨-, hroot, hfield, -, hfits⟩ := tracks_facts h
  have hdepth : 0 < merkleTreeDepth ∧ merkleTreeDepth < 53 := ⟨by decide, by decide⟩
  obtain ⟨index, hcreate, hindexed, hd⟩ := createMerklePathIndex_spec hpair hdepth
    maxPathCacheEntries
  have hsmall : (leavesOf w).length ≤ 2 ^ 31 := by
    have hcapacity : merkleTreeCapacity ≤ 2 ^ 31 := by
      norm_num [merkleTreeCapacity, merkleTreeDepth]
    exact hfits.trans hcapacity
  have hroom : (leavesOf w).length ≤ 2 ^ index.depth := by
    rw [hd]
    exact hfits
  obtain ⟨leaves, hfin, hd', hsub, -, hins⟩ := indexed_calls h.nodup hfield hsmall calls index _
    hroom hindexed (fun _ _ hc => by cases hc) hcalls.feeds
  have hleaf : leaves i = some commitment := hins i commitment hi (hcalls.all i commitment hi)
  -- the index holds all leaves and no other
  have hpad : padLeaves leaves = padded 0 (leavesOf w) := by
    funext j
    unfold padLeaves padded
    rw [List.getD_eq_getElem?_getD]
    rcases hj : (leavesOf w)[j]? with _ | c
    · rcases hl : leaves j with _ | c
      · rfl
      · rw [hsub j c hl] at hj
        cases hj
    · rw [hins j c hj (hcalls.all j c hj)]
  obtain ⟨index', path, hget, hpath, -, -⟩ := getMerklePathForCommitment_spec hfin
    (hsub.field hfield) hleaf (index_lt hfits hi) (lower_hex32 commitment)
  refine ⟨index, index', path, hcreate, hget, hpath.leafIndex, ?_, ?_, ?_⟩
  · rw [hpath.root, hd', hd, hpad, hroot]
    rfl
  · rw [hpath.pathElements, hd', hd, hpad]
  · rw [hpath.pathIndices, hd', hd]

/-- **The histories agree.** For every commitment inserted in a run of the pool, the SDK accepts
the events and returns its index, the current root and a path that it verifies, and the web
application and the indexer, fed the leaves in any order, return the same. -/
theorem histories_agree {c : Config World (Option Pending)} (h : Reachable env answers c)
    {hash : FieldHash} (hsame : SameHash env.poseidon2 hash) {hashPair : HashPair}
    (hpair : SamePairHash env.poseidon2 hashPair) {commitment : Bytes32}
    (hinserted : c.world.pool.commitments commitment) :
    ∃ (i : ℕ) (pathElements : List Text) (pathIndices : List ℕ),
      (leavesOf c.world)[i]? = some commitment ∧
      Sdk.Merkle.reconstructMerklePathFromRootAcceptedLogs (recordsOf c.world) (hex32 commitment)
          hash merkleTreeDepth =
        .ok ⟨hex32 commitment, i, hex32 c.world.pool.roots.currentRoot, pathElements, pathIndices,
          "reconstructed-from-root-accepted-history"⟩ ∧
      Sdk.Merkle.verifyMerklePath hash (hex32 commitment) (hex32 c.world.pool.roots.currentRoot)
        pathElements pathIndices = .ok true ∧
      Web.Merkle.reconstructMerklePathFromRootAcceptedLogs (recordsOf c.world) (hex32 commitment)
          hash (some merkleTreeDepth) =
        .ok ⟨i, hex32 c.world.pool.roots.currentRoot, pathElements, pathIndices,
          "reconstructed-from-root-accepted-logs"⟩ ∧
      ∀ (calls : List IndexCall) (maxPathCacheEntries : Option ℤ), FedWith c.world calls →
        ∃ index index' path,
          createMerklePathIndex merkleTreeDepth (hex32 0) hashPair maxPathCacheEntries =
            .ok index ∧
          getMerklePathForCommitment (calls.foldl callIndex index) (hex32 commitment) =
            .ok (index', path) ∧
          path.leafIndex = i ∧ path.root = hex32 c.world.pool.roots.currentRoot ∧
          path.pathElements = pathElements ∧
          path.pathIndices = pathIndices.map (Nat.cast : ℕ → ℤ) := by
  have htracks := (tracks_reachable h).1
  obtain ⟨hlogs, hroot, hfield, hne, hfits⟩ := tracks_facts htracks
  obtain ⟨i, hi⟩ := List.mem_iff_getElem?.mp ((htracks.commitments commitment).mp hinserted)
  refine ⟨i, _, _, hi, ?_, ?_, ?_, fun calls maxPathCacheEntries hcalls =>
    indexer_path htracks hpair hcalls maxPathCacheEntries hi⟩
  · rw [hlogs, hroot]
    exact Sdk.Merkle.reconstruct_spec hsame hfield hne htracks.nodup hfits hi
  · rw [hroot]
    exact Sdk.Merkle.verifyMerklePath_spec hsame hfield hfits hi
  · rw [hlogs, hroot]
    exact Web.Merkle.reconstruct_spec hsame hfield hne htracks.nodup hfits hi

/-- After two deposits, a withdrawal and a transfer that its destination made before it returned:
the output of the withdrawal. -/
theorem histories_agree_reentrant : ∃ c, Reachable plainEnv (fun _ => True) c ∧
    leavesOf c.world = [5, 6, 8, 9] ∧
    ∃ (i : ℕ) (pathElements : List Text) (pathIndices : List ℕ),
      (leavesOf c.world)[i]? = some 8 ∧
      Sdk.Merkle.verifyMerklePath (fun inputs => inputs.headD 0) (hex32 8)
        (hex32 c.world.pool.roots.currentRoot) pathElements pathIndices = .ok true ∧
      Web.Merkle.reconstructMerklePathFromRootAcceptedLogs (recordsOf c.world) (hex32 8)
          (fun inputs => inputs.headD 0) (some merkleTreeDepth) =
        .ok ⟨i, hex32 c.world.pool.roots.currentRoot, pathElements, pathIndices,
          "reconstructed-from-root-accepted-logs"⟩ := by
  obtain ⟨c, hreach, hfacts⟩ := @exists_plainPlay (fun _ => True) trivial _ 5
    (fun c => (leavesOf c.world, c.world.pool.commitments 8)) ([5, 6, 8, 9], true)
    (by decide +kernel)
  obtain ⟨hleaves, hinserted⟩ := Prod.mk.inj hfacts
  have hsame : SameHash plainEnv.poseidon2 fun inputs => inputs.headD 0 :=
    ⟨fun _ _ hl _ => hl, fun _ _ _ _ => rfl⟩
  have hpair : SamePairHash plainEnv.poseidon2 fun left _ => left :=
    ⟨fun _ _ hl _ => hl, fun _ _ _ _ => rfl⟩
  obtain ⟨i, pathElements, pathIndices, hi, -, hverify, hweb, -⟩ :=
    histories_agree hreach hsame hpair hinserted
  exact ⟨c, hreach, hleaves, i, pathElements, pathIndices, hi, hverify, hweb⟩

end Nullark.Agreement
