import Nullark.Js.Basic
import Nullark.Pool.History

/-! # The hash of the packages

The packages compute the hash of the tree on numbers, the pool computes it on words.

* `SameHash`: the two agree on field elements.
* `treeRoot_toNat`, `siblings_toNat`: they build the same trees. -/

namespace Nullark.Js.TreeHash

open Nullark.Lib.Hex Nullark.Lib.Merkle.Tree
open Nullark.Evm.Basic Nullark.Pool.Interface Nullark.Pool.Tree Nullark.Pool.History
open Nullark.Js.Basic

abbrev FieldHash := List ℕ → ℕ

structure RootAcceptedLogRecord where
  root : Text
  previousRoot : Text
  insertedCommitment : Text
  deriving DecidableEq

/-- The record of an event, as a node returns it. -/
def logRecord (e : RootAccepted) : RootAcceptedLogRecord :=
  ⟨hex32 e.root, hex32 e.previousRoot, hex32 e.insertedCommitment⟩

/-- **The hash of the package is the pool's** on field elements, and returns field elements. -/
structure SameHash (poseidon2 : Bytes32 → Bytes32 → Bytes32) (hash : FieldHash) : Prop where
  field : ∀ l r, isFieldElement l → isFieldElement r → isFieldElement (poseidon2 l r)
  agrees : ∀ l r, isFieldElement l → isFieldElement r →
    hash [l.toNat, r.toNat] = (poseidon2 l r).toNat

theorem exists_word {v : ℕ} (h : v < bn254ScalarField) :
    ∃ x : Bytes32, isFieldElement x ∧ x.toNat = v := by
  have hv : (BitVec.ofNat 256 v).toNat = v := by
    rw [BitVec.toNat_ofNat, Nat.mod_eq_of_lt (h.trans (by decide))]
  exact ⟨BitVec.ofNat 256 v, by rw [isFieldElement, hv]; exact h, hv⟩

section Agree
variable {poseidon2 : Bytes32 → Bytes32 → Bytes32} {hash : FieldHash}
  (hsame : SameHash poseidon2 hash)
include hsame

theorem hash_lt {a b : ℕ} (ha : a < bn254ScalarField) (hb : b < bn254ScalarField) :
    hash [a, b] < bn254ScalarField := by
  obtain ⟨x, hx, rfl⟩ := exists_word ha
  obtain ⟨y, hy, rfl⟩ := exists_word hb
  rw [hsame.agrees x y hx hy]
  exact hsame.field x y hx hy

theorem node_toNat {leaf : ℕ → Bytes32} (hl : ∀ i, isFieldElement (leaf i)) (l p : ℕ) :
    isFieldElement (node poseidon2 leaf l p) ∧
      node (fun a b => hash [a, b]) (fun i => (leaf i).toNat) l p =
        (node poseidon2 leaf l p).toNat :=
  node_map (fun a b ha hb => ⟨hsame.field a b ha hb, hsame.agrees a b ha hb⟩) hl l p

/-- The number of a root of the pool is the root the package computes. -/
theorem treeRoot_toNat {leaves : List Bytes32} (hl : ∀ x ∈ leaves, isFieldElement x) :
    isFieldElement (treeRoot poseidon2 leaves) ∧
      root (fun a b => hash [a, b]) 0 merkleTreeDepth (leaves.map BitVec.toNat) =
        (treeRoot poseidon2 leaves).toNat := by
  have hnode := node_toNat hsame (padded_mem isFieldElement_zero hl) merkleTreeDepth 0
  have hpad : padded 0 (leaves.map BitVec.toNat) = fun i => (padded (0 : Bytes32) leaves i).toNat :=
    padded_map BitVec.toNat (0 : Bytes32) leaves
  unfold root
  rw [hpad]
  exact hnode

theorem siblings_toNat {leaf : ℕ → Bytes32} (hl : ∀ i, isFieldElement (leaf i)) (l p n : ℕ) :
    siblings (fun a b => hash [a, b]) (fun i => (leaf i).toNat) l p n =
      (siblings poseidon2 leaf l p n).map BitVec.toNat :=
  siblings_map poseidon2 (fun a b ha hb => ⟨hsame.field a b ha hb, hsame.agrees a b ha hb⟩) hl l p n

/-- The siblings, as they are printed. -/
theorem print_siblings {leaves : List Bytes32} (hl : ∀ x ∈ leaves, isFieldElement x) (i n : ℕ) :
    (siblings (fun a b => hash [a, b]) (padded 0 (leaves.map BitVec.toNat)) 0 i n).map padHex32 =
      (siblings poseidon2 (padded 0 leaves) 0 i n).map hex32 := by
  have hpad : padded 0 (leaves.map BitVec.toNat) = fun i => (padded (0 : Bytes32) leaves i).toNat :=
    padded_map BitVec.toNat (0 : Bytes32) leaves
  rw [hpad, siblings_toNat hsame (padded_mem isFieldElement_zero hl), List.map_map]
  exact List.map_congr_left fun x _ => by rw [Function.comp_apply, padHex32_toNat]

omit hsame in
theorem map_hexNat_hex32 (leaves : List Bytes32) :
    (leaves.map hex32).map hexNat = leaves.map BitVec.toNat := by
  rw [List.map_map]
  exact List.map_congr_left fun x _ => by rw [Function.comp_apply, hexNat_hex32]

omit hsame in
/-- Leaf indices are below the range of the bitwise operators. -/
theorem index_lt {leaves : List Bytes32} (hroom : leaves.length ≤ merkleTreeCapacity) {i : ℕ}
    {c : Bytes32} (hi : leaves[i]? = some c) : i < 2 ^ 31 := by
  have hlt : i < leaves.length := (List.getElem?_eq_some_iff.mp hi).1
  have hcapacity : merkleTreeCapacity < 2 ^ 31 := by
    norm_num [merkleTreeCapacity, merkleTreeDepth]
  omega

end Agree

end Nullark.Js.TreeHash
