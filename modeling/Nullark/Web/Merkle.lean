import Nullark.Js.SparseTree
import Nullark.Js.TreeHash

/-! # The web application's Merkle paths

`reconstructMerklePathFromRootAcceptedLogs` of the application reads the leaves off the records
without checking their chain, and recomputes the path of a commitment from sparse layers.

* `nonzeroLeaves_spec`: the leaves that the records of a list of leaves hold.
* `reconstruct_spec`: the path that is returned. -/

namespace Nullark.Web.Merkle

open Nullark.Lib.Outcome Nullark.Lib.Hex Nullark.Lib.Merkle.Tree
open Nullark.Evm.Basic Nullark.Pool.Interface Nullark.Pool.Tree Nullark.Pool.History
open Nullark.Js.Basic Nullark.Js.TreeHash Nullark.Js.SparseTree

def sandboxMerkleTreeDepth : ℕ := 12

/-- The Merkle path of a spend material record, with the index of the leaf. -/
structure MerklePath where
  leafIndex : ℕ
  root : Text
  siblings : List Text
  pathIndices : List ℕ
  status : String
  deriving DecidableEq

/-! ### The code -/

def bigintToBytes32 (value : ℕ) : Throws Text := do
  ensure (value < bn254ScalarField) "Expected value to be a BN254 field element."
  return padHex32 value

/-- The test of the filter, which throws on a text that is no number. -/
def keepNonzero (leaves : List Text) (insertedCommitment : Text) : Throws (List Text) := do
  let v ← bigInt insertedCommitment
  return if v ≠ 0 then leaves ++ [insertedCommitment] else leaves

def nonzeroLeaves (logs : List RootAcceptedLogRecord) : Throws (List Text) :=
  (logs.map RootAcceptedLogRecord.insertedCommitment).foldlM keepNonzero []

/-- `leaves.findIndex`. -/
def findLeaf (leaves : List Text) (commitment : Text) : Throws ℕ :=
  match leaves.findIdx? fun leaf => lower leaf = lower commitment with
  | some leafIndex => .ok leafIndex
  | none => .error "Imported note commitment was not found in RootAccepted history."

/-- **`reconstructMerklePathFromRootAcceptedLogs`** of the application, whose hashes are not
checked. -/
def reconstructMerklePathFromRootAcceptedLogs (logs : List RootAcceptedLogRecord)
    (commitment : Text) (hash : FieldHash) (depth : Option ℕ) : Throws MerklePath := do
  let depth := depth.getD sandboxMerkleTreeDepth
  let pairHash := fun left right => Except.ok (hash [left, right])
  ensure (isHexBytes32 commitment) "Expected commitment to be bytes32 hex."
  ensure (0 < depth ∧ depth ≤ 32) "Expected Merkle depth to be a positive safe integer."
  let leaves ← nonzeroLeaves logs
  let leafIndex ← findLeaf leaves commitment
  ensure (leaves.length ≤ 2 ^ depth)
    "RootAccepted history exceeds the sandbox Merkle tree capacity."
  let zeroHashes ← buildMerkleZeroHashes pairHash depth
  let climb ← climbLayers pairHash bigintToBytes32 zeroHashes (leaves.map hexNat) leafIndex depth
  let root ← bigintToBytes32 (rootOf zeroHashes depth climb.layer)
  return {
    leafIndex, root, siblings := climb.pathElements, pathIndices := climb.pathIndices
    status := "reconstructed-from-root-accepted-logs" }

/-! ### The leaves -/

theorem keepNonzero_hex32 (leaves : List Text) {leaf : Bytes32} (hne : leaf ≠ 0) :
    keepNonzero leaves (hex32 leaf) = .ok (leaves ++ [hex32 leaf]) := by
  have hnz : leaf.toNat ≠ 0 := fun hz => hne (BitVec.eq_of_toNat_eq hz)
  unfold keepNonzero
  rw [bigInt_hex32, ok_bind, if_pos hnz]
  rfl

theorem keepChain_spec (poseidon2 : Bytes32 → Bytes32 → Bytes32) : ∀ (leaves done : List Bytes32)
    (kept : List Text), (∀ x ∈ leaves, x ≠ 0) →
    (((chainFrom poseidon2 done leaves).map logRecord).map
      RootAcceptedLogRecord.insertedCommitment).foldlM keepNonzero kept =
        .ok (kept ++ leaves.map hex32)
  | [], _, kept, _ => by rw [List.map_nil, List.append_nil]; rfl
  | leaf :: leaves, done, kept, hne => by
    have hleaf := hne leaf List.mem_cons_self
    have ih := keepChain_spec poseidon2 leaves (done ++ [leaf]) (kept ++ [hex32 leaf]) fun x hx =>
      hne x (List.mem_cons_of_mem _ hx)
    rw [chainFrom, List.map_cons, List.map_cons, List.foldlM_cons, logRecord,
      keepNonzero_hex32 kept hleaf, ok_bind, ih, List.map_cons, List.append_assoc,
      List.singleton_append]

/-- The record of the constructor is filtered out. -/
theorem nonzeroLeaves_spec {poseidon2 : Bytes32 → Bytes32 → Bytes32} {leaves : List Bytes32}
    (hne : ∀ x ∈ leaves, x ≠ 0) :
    nonzeroLeaves ((chain poseidon2 leaves).map logRecord) = .ok (leaves.map hex32) := by
  have hfirst : keepNonzero [] (hex32 0) = .ok [] := by
    have hzero : ¬(0 : Bytes32).toNat ≠ 0 := by decide
    unfold keepNonzero
    rw [bigInt_hex32, ok_bind, if_neg hzero]
    rfl
  have hrest := keepChain_spec poseidon2 leaves [] [] hne
  unfold nonzeroLeaves
  rw [chain, List.map_cons, List.map_cons, List.foldlM_cons, logRecord, hfirst, ok_bind, hrest,
    List.nil_append]

/-! ### The path -/

theorem bigintToBytes32_ok {v : ℕ} (h : v < bn254ScalarField) :
    bigintToBytes32 v = .ok (padHex32 v) := by
  unfold bigintToBytes32
  rw [ensure_of h]
  rfl

/-- **The path of a leaf.** -/
theorem reconstruct_spec {poseidon2 : Bytes32 → Bytes32 → Bytes32} {hash : FieldHash}
    (hsame : SameHash poseidon2 hash) {leaves : List Bytes32}
    (hfield : ∀ x ∈ leaves, isFieldElement x) (hne : ∀ x ∈ leaves, x ≠ 0) (hnodup : leaves.Nodup)
    (hroom : leaves.length ≤ merkleTreeCapacity) {i : ℕ} {c : Bytes32} (hi : leaves[i]? = some c) :
    reconstructMerklePathFromRootAcceptedLogs ((chain poseidon2 leaves).map logRecord) (hex32 c)
      hash (some merkleTreeDepth) = .ok {
        leafIndex := i
        root := hex32 (treeRoot poseidon2 leaves)
        siblings := (siblings poseidon2 (padded 0 leaves) 0 i merkleTreeDepth).map hex32
        pathIndices := indexBits i merkleTreeDepth
        status := "reconstructed-from-root-accepted-logs" } := by
  have hpair : ∀ a b, a < bn254ScalarField → b < bn254ScalarField →
      hash [a, b] < bn254ScalarField ∧
        (Except.ok (hash [a, b]) : Throws ℕ) = .ok (hash [a, b]) :=
    fun a b ha hb => ⟨hash_lt hsame ha hb, rfl⟩
  have hzeros := buildMerkleZeroHashes_ok hpair (by decide) merkleTreeDepth
  have hfind : findLeaf (leaves.map hex32) (hex32 c) = .ok i := by
    unfold findLeaf
    rw [findIdx_hex32 hnodup hi]
  have hlength : (leaves.map hex32).length ≤ 2 ^ merkleTreeDepth := by
    rw [List.length_map]
    exact hroom
  have hnumbers := map_hexNat_hex32 leaves
  have hindex := index_lt hroom hi
  have hleaves : ∀ v ∈ leaves.map BitVec.toNat, v < bn254ScalarField := by
    intro v hv
    obtain ⟨x, hx, rfl⟩ := List.mem_map.mp hv
    exact hfield x hx
  obtain ⟨m, hclimb, hroot⟩ := climb_spec hpair (fun v hv => bigintToBytes32_ok hv) (by decide)
    hleaves hindex
  have hprinted := print_siblings hsame hfield i merkleTreeDepth
  have htree := treeRoot_toNat hsame hfield
  unfold reconstructMerklePathFromRootAcceptedLogs
  rw [Option.getD_some]
  dsimp only
  rw [ensure_of (isHexBytes32_hex32 c), ok_bind, ensure_of ⟨by decide, by decide⟩, ok_bind,
    nonzeroLeaves_spec hne, ok_bind, hfind, ok_bind, ensure_of hlength, ok_bind, hzeros, ok_bind,
    hnumbers, hclimb, ok_bind, hroot, htree.2, bigintToBytes32_ok htree.1, ok_bind, hprinted,
    padHex32_toNat]
  rfl

end Nullark.Web.Merkle
