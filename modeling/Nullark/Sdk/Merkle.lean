import Nullark.Js.Bytes
import Nullark.Js.SparseTree
import Nullark.Js.TreeHash

/-! # The SDK's Merkle paths

`reconstructMerklePathFromRootAcceptedLogs` checks the chain of `RootAccepted` records by
recomputing every root from filled subtrees, as the pool does, and then recomputes the path of one
commitment from sparse layers. `verifyMerklePath` climbs a path.

* `verifyRootAcceptedChain_spec`: the records of a list of leaves are accepted.
* `reconstruct_spec`: the path that is returned.
* `verifyMerklePath_spec`: it verifies. -/

namespace Nullark.Sdk.Merkle

open Nullark.Lib.Outcome Nullark.Lib.Hex Nullark.Lib.Merkle.Tree Nullark.Lib.Merkle.Frontier
open Nullark.Evm.Basic Nullark.Pool.Interface Nullark.Pool.Tree Nullark.Pool.History
open Nullark.Js.Basic Nullark.Js.TreeHash Nullark.Js.SparseTree
open Nullark.Js.Bytes (word toNat_word hex32_word word_hex32)

structure ReconstructedMerklePath where
  commitment : Text
  leafIndex : ℕ
  root : Text
  pathElements : List Text
  pathIndices : List ℕ
  status : String
  deriving DecidableEq

/-! ### The code -/

def assertFieldBytes32 (value : Text) (label : String) : Throws Text := do
  ensure (isHexBytes32 value ∧ hexNat value < bn254ScalarField)
    (label ++ " must be a BN254 field bytes32 value.")
  return value

def assertFieldBigint (value : ℕ) (label : String) : Throws ℕ := do
  ensure (value < bn254ScalarField) (label ++ " must be a BN254 field element.")
  return value

def toBytes32 (value : ℕ) : Text := padHex32 value

/-- A checked hash of two field elements. -/
def hashPair (hash : FieldHash) (label : String) (left right : ℕ) : Throws ℕ :=
  assertFieldBigint (hash [left, right]) label

/-- One round of the loop of `insertLeafAndComputeRoot`. -/
def insertLevel (hash : FieldHash) (zeroHashes : List ℕ) (leafIndex : ℕ) (s : List ℕ × ℕ)
    (level : ℕ) : Throws (List ℕ × ℕ) := do
  let (filledSubtrees, current) := s
  let zeroHash := zeroHashes.getD level 0
  if leafIndex / 2 ^ level % 2 = 0 then do
    let next ← hashPair hash "RootAccepted computed root" current zeroHash
    return (filledSubtrees.set level current, next)
  else do
    let left := filledSubtrees.getD level zeroHash
    let next ← hashPair hash "RootAccepted computed root" left current
    return (filledSubtrees, next)

def insertLeafAndComputeRoot (hash : FieldHash) (zeroHashes : List ℕ) (depth leaf leafIndex : ℕ)
    (filledSubtrees : List ℕ) : Throws (List ℕ × ℕ) :=
  (List.range depth).foldlM (insertLevel hash zeroHashes leafIndex) (filledSubtrees, leaf)

/-- The variables of the loop of `verifyRootAcceptedChain`. -/
structure Chain where
  filledSubtrees : List ℕ
  leaves : List Text
  acceptedRoot : Text

/-- One round of that loop. -/
def acceptLog (hash : FieldHash) (zeroHashes : List ℕ) (depth : ℕ) (initialRoot : Text) (s : Chain)
    (log : RootAcceptedLogRecord) : Throws Chain := do
  let root ← assertFieldBytes32 log.root "root"
  let previousRoot ← assertFieldBytes32 log.previousRoot "previousRoot"
  let insertedCommitment ← assertFieldBytes32 log.insertedCommitment "insertedCommitment"
  if hexNat insertedCommitment = 0 then do
    ensure (hexNat previousRoot = 0 ∧ lower root = lower initialRoot)
      "RootAccepted initialization root does not match the computed zero root."
    return { s with acceptedRoot := root }
  else do
    ensure (lower previousRoot = lower s.acceptedRoot)
      "RootAccepted previousRoot does not match the prior accepted root."
    ensure (s.leaves.length < 2 ^ depth)
      "RootAccepted history exceeds the configured Merkle tree capacity."
    let (filledSubtrees, computedRoot) ← insertLeafAndComputeRoot hash zeroHashes depth
      (hexNat insertedCommitment) s.leaves.length s.filledSubtrees
    ensure (lower root = lower (toBytes32 computedRoot))
      "RootAccepted root does not match the computed Merkle root."
    return { filledSubtrees, leaves := s.leaves ++ [insertedCommitment], acceptedRoot := root }

def verifyRootAcceptedChain (logs : List RootAcceptedLogRecord) (depth : ℕ) (hash : FieldHash)
    (zeroHashes : List ℕ) : Throws Chain :=
  let initialRoot := toBytes32 (zeroHashes.getD depth 0)
  logs.foldlM (acceptLog hash zeroHashes depth initialRoot)
    { filledSubtrees := zeroHashes.take depth, leaves := [], acceptedRoot := initialRoot }

/-- A sibling, checked and printed. -/
def printSibling (sibling : ℕ) : Throws Text := do
  let sibling ← assertFieldBigint sibling "Merkle sibling"
  return toBytes32 sibling

/-- `leaves.findIndex`. -/
def findLeaf (leaves : List Text) (commitment : Text) (message : String) : Throws ℕ :=
  match leaves.findIdx? fun leaf => lower leaf = lower commitment with
  | some leafIndex => .ok leafIndex
  | none => .error message

/-- **`reconstructMerklePathFromRootAcceptedLogs`**. -/
def reconstructMerklePathFromRootAcceptedLogs (logs : List RootAcceptedLogRecord)
    (commitment : Text) (hash : FieldHash) (depth : ℕ) : Throws ReconstructedMerklePath := do
  let commitment ← assertFieldBytes32 commitment "commitment"
  ensure (0 < depth ∧ depth ≤ 32)
    "Expected Merkle depth to be a positive safe integer no larger than 32."
  let zeroHashes ← buildMerkleZeroHashes (hashPair hash "zeroHash") depth
  let chain ← verifyRootAcceptedChain logs depth hash zeroHashes
  let leafIndex ← findLeaf chain.leaves commitment
    "Note commitment was not found in RootAccepted history."
  ensure (chain.leaves.length ≤ 2 ^ depth)
    "RootAccepted history exceeds the configured Merkle tree capacity."
  let climb ← climbLayers (hashPair hash "Merkle parent") printSibling zeroHashes
    (chain.leaves.map hexNat) leafIndex depth
  let root ← assertFieldBigint (rootOf zeroHashes depth climb.layer) "Merkle root"
  return {
    commitment, leafIndex, root := toBytes32 root
    pathElements := climb.pathElements, pathIndices := climb.pathIndices
    status := "reconstructed-from-root-accepted-history" }

/-- One round of the loop of `verifyMerklePath`. -/
def verifyLevel (hash : FieldHash) (computed : ℕ) (step : Text × ℕ) : Throws ℕ := do
  let (element, pathIndex) := step
  let sibling ← assertFieldBytes32 element "pathElement"
  ensure (pathIndex = 0 ∨ pathIndex = 1) "Merkle path indices must be bits."
  if pathIndex = 0 then hashPair hash "computedRoot" computed (hexNat sibling)
  else hashPair hash "computedRoot" (hexNat sibling) computed

/-- **`verifyMerklePath`**. -/
def verifyMerklePath (hash : FieldHash) (commitment root : Text) (pathElements : List Text)
    (pathIndices : List ℕ) : Throws Bool := do
  let computed ← assertFieldBytes32 commitment "commitment"
  let expectedRoot ← assertFieldBytes32 root "root"
  ensure (pathElements.length = pathIndices.length)
    "Merkle path elements and indices length mismatch."
  let computed ← (pathElements.zip pathIndices).foldlM (verifyLevel hash) (hexNat computed)
  return lower (toBytes32 computed) = lower expectedRoot

theorem assertFieldBigint_ok {v : ℕ} (h : v < bn254ScalarField) (label : String) :
    assertFieldBigint v label = .ok v := by
  unfold assertFieldBigint
  rw [ensure_of h]
  rfl

theorem assertFieldBytes32_ok {x : Bytes32} (h : isFieldElement x) (label : String) :
    assertFieldBytes32 (hex32 x) label = .ok (hex32 x) := by
  unfold assertFieldBytes32
  rw [ensure_of ⟨isHexBytes32_hex32 x, by rw [hexNat_hex32]; exact h⟩]
  rfl

section Spec
variable {poseidon2 : Bytes32 → Bytes32 → Bytes32} {hash : FieldHash}
  (hsame : SameHash poseidon2 hash)
include hsame

/-- Checked hashes of field elements pass. -/
theorem hashPair_ok (label : String) (a b : ℕ) (ha : a < bn254ScalarField)
    (hb : b < bn254ScalarField) :
    hash [a, b] < bn254ScalarField ∧ hashPair hash label a b = .ok (hash [a, b]) := by
  have hlt := hash_lt hsame ha hb
  exact ⟨hlt, assertFieldBigint_ok hlt label⟩

/-! ### The chain of records -/

omit hsame in
/-- The filled subtrees, as the slots of a frontier. -/
def slots (hash : FieldHash) (filledSubtrees : List ℕ) (level : ℕ) : ℕ :=
  filledSubtrees.getD level (zeroHash (fun a b => hash [a, b]) 0 level)

omit hsame in
theorem slots_set {filledSubtrees : List ℕ} {level v : ℕ} (h : level < filledSubtrees.length) :
    slots hash (filledSubtrees.set level v) = Function.update (slots hash filledSubtrees) level v := by
  funext k
  unfold slots
  rw [List.getD_eq_getElem?_getD, List.getElem?_set]
  by_cases hk : level = k
  · subst hk
    rw [if_pos rfl, if_pos h, Function.update_self, Option.getD_some]
  · rw [if_neg hk, Function.update_of_ne (Ne.symm hk), List.getD_eq_getElem?_getD]

/-- **The loop over the levels** is the walk up of the frontier. -/
theorem insertLevels_spec (depth leafIndex : ℕ) : ∀ (n l : ℕ) (filledSubtrees : List ℕ)
    (current : ℕ), l + n ≤ depth → filledSubtrees.length = depth →
    (∀ v ∈ filledSubtrees, v < bn254ScalarField) → current < bn254ScalarField →
    ∃ filled',
      (List.range' l n).foldlM (insertLevel hash ((List.range (depth + 1)).map
          (zeroHash (fun a b => hash [a, b]) 0)) leafIndex) (filledSubtrees, current) =
        .ok (filled', (push (fun a b => hash [a, b]) (zeroHash (fun a b => hash [a, b]) 0) n l
          (slots hash filledSubtrees) (leafIndex / 2 ^ l) current).2) ∧
      slots hash filled' = (push (fun a b => hash [a, b]) (zeroHash (fun a b => hash [a, b]) 0) n l
        (slots hash filledSubtrees) (leafIndex / 2 ^ l) current).1 ∧
      filled'.length = depth ∧ ∀ v ∈ filled', v < bn254ScalarField
  | 0, l, filledSubtrees, current, _, hlen, hfield, _ =>
    ⟨filledSubtrees, rfl, rfl, hlen, hfield⟩
  | n + 1, l, filledSubtrees, current, hle, hlen, hfield, hcur => by
    have hzlt : zeroHash (fun a b => hash [a, b]) 0 l < bn254ScalarField :=
      zeroHash_mem (hashPair_ok hsame "") (by decide) l
    have hzero : ((List.range (depth + 1)).map (zeroHash (fun a b => hash [a, b]) 0)).getD l 0 =
        zeroHash (fun a b => hash [a, b]) 0 l := by
      have hlt : l < depth + 1 := by omega
      simp [List.getD_eq_getElem?_getD, hlt]
    have hstep : leafIndex / 2 ^ l / 2 = leafIndex / 2 ^ (l + 1) := by
      rw [Nat.div_div_eq_div_mul, ← pow_succ]
    rw [List.range'_succ, List.foldlM_cons, push, hstep]
    unfold insertLevel
    dsimp only
    rw [hzero]
    split_ifs with heven
    · obtain ⟨hnext, hok⟩ := hashPair_ok hsame "RootAccepted computed root" _ _ hcur hzlt
      have hfield' : ∀ v ∈ filledSubtrees.set l current, v < bn254ScalarField := fun v hv =>
        (List.mem_or_eq_of_mem_set hv).elim (hfield v) fun heq => heq ▸ hcur
      obtain ⟨filled', hfold, hslots, hlen', hf'⟩ := insertLevels_spec depth leafIndex n (l + 1)
        (filledSubtrees.set l current) _ (by omega) (by rw [List.length_set, hlen]) hfield' hnext
      rw [slots_set (by omega)] at hfold hslots
      refine ⟨filled', ?_, hslots, hlen', hf'⟩
      rw [hok]
      exact hfold
    · have hleft : filledSubtrees.getD l (zeroHash (fun a b => hash [a, b]) 0 l) <
          bn254ScalarField := by
        rw [List.getD_eq_getElem _ _ (by omega)]
        exact hfield _ (List.getElem_mem _)
      obtain ⟨hnext, hok⟩ := hashPair_ok hsame "RootAccepted computed root" _ _ hleft hcur
      obtain ⟨filled', hfold, hslots, hlen', hf'⟩ := insertLevels_spec depth leafIndex n (l + 1)
        filledSubtrees _ (by omega) hlen hfield hnext
      refine ⟨filled', ?_, hslots, hlen', hf'⟩
      rw [hok]
      exact hfold

omit hsame in
/-- The state of the loop after the records of `done`. -/
structure ChainOf (poseidon2 : Bytes32 → Bytes32 → Bytes32) (hash : FieldHash) (s : Chain)
    (done : List Bytes32) : Prop where
  leaves : s.leaves = done.map hex32
  acceptedRoot : s.acceptedRoot = hex32 (treeRoot poseidon2 done)
  length : s.filledSubtrees.length = merkleTreeDepth
  field : ∀ v ∈ s.filledSubtrees, v < bn254ScalarField
  live : Live (fun a b => hash [a, b]) (padded 0 (done.map BitVec.toNat)) merkleTreeDepth
    done.length (slots hash s.filledSubtrees)

/-- The zero hashes, as the package computes them. -/
def zeroTable (hash : FieldHash) : List ℕ :=
  (List.range (merkleTreeDepth + 1)).map (zeroHash (fun a b => hash [a, b]) 0)

theorem toBytes32_zeroTable :
    toBytes32 ((zeroTable hash).getD merkleTreeDepth 0) = hex32 (treeRoot poseidon2 []) := by
  have hroot := (treeRoot_toNat hsame (fun _ h => absurd h List.not_mem_nil) :
    isFieldElement (treeRoot poseidon2 []) ∧ _).2
  have hlast : (zeroTable hash).getD merkleTreeDepth 0 =
      zeroHash (fun a b => hash [a, b]) 0 merkleTreeDepth := by
    simp [zeroTable, List.getD_eq_getElem?_getD]
  rw [List.map_nil, root_nil] at hroot
  rw [hlast, hroot, toBytes32, padHex32_toNat]

/-- **One record.** -/
theorem acceptLog_spec {s : Chain} {done : List Bytes32} {leaf : Bytes32}
    (h : ChainOf poseidon2 hash s done) (hdone : ∀ x ∈ done ++ [leaf], isFieldElement x)
    (hne : leaf ≠ 0) (hroom : done.length < merkleTreeCapacity) (initialRoot : Text) :
    ∃ s', acceptLog hash (zeroTable hash) merkleTreeDepth initialRoot s
        (logRecord ⟨treeRoot poseidon2 (done ++ [leaf]), treeRoot poseidon2 done, leaf⟩) = .ok s' ∧
      ChainOf poseidon2 hash s' (done ++ [leaf]) := by
  have hleaf : isFieldElement leaf := hdone leaf (by simp)
  have hprev := treeRoot_toNat hsame fun x hx => hdone x (List.mem_append_left _ hx)
  have hnew := treeRoot_toNat hsame hdone
  have hnz : ¬hexNat (hex32 leaf) = 0 := by
    rw [hexNat_hex32]
    exact fun hz => hne (BitVec.eq_of_toNat_eq hz)
  have hlen : s.leaves.length = done.length := by rw [h.leaves, List.length_map]
  obtain ⟨filled', hfold, hslots, hlen', hf'⟩ := insertLevels_spec hsame merkleTreeDepth
    done.length merkleTreeDepth 0 s.filledSubtrees leaf.toNat (by omega) h.length h.field hleaf
  rw [pow_zero, Nat.div_one, ← List.range_eq_range'] at hfold
  rw [pow_zero, Nat.div_one] at hslots
  have hlt : (done.map BitVec.toNat).length < 2 ^ merkleTreeDepth := by
    rw [List.length_map]; exact hroom
  have hlive := h.live
  rw [← List.length_map (f := BitVec.toNat)] at hlive
  obtain ⟨hlive', hroot⟩ := push_spec (fun a b => hash [a, b]) (x := leaf.toNat) hlt hlive
  rw [List.length_map] at hlive' hroot
  have hcomputed : lower (hex32 (treeRoot poseidon2 (done ++ [leaf]))) =
      lower (toBytes32 (push (fun a b => hash [a, b]) (zeroHash (fun a b => hash [a, b]) 0)
        merkleTreeDepth 0 (slots hash s.filledSubtrees) done.length leaf.toNat).2) := by
    have hmap : done.map BitVec.toNat ++ [leaf.toNat] = (done ++ [leaf]).map BitVec.toNat := by simp
    rw [hroot, hmap, hnew.2, toBytes32, padHex32_toNat]
  have hroots : lower (hex32 (treeRoot poseidon2 done)) = lower s.acceptedRoot := by
    rw [h.acceptedRoot]
  have hcapacity : s.leaves.length < 2 ^ merkleTreeDepth := by rw [hlen]; exact hroom
  have hinsert : insertLeafAndComputeRoot hash (zeroTable hash) merkleTreeDepth leaf.toNat
      s.leaves.length s.filledSubtrees =
        .ok (filled', (push (fun a b => hash [a, b]) (zeroHash (fun a b => hash [a, b]) 0)
          merkleTreeDepth 0 (slots hash s.filledSubtrees) done.length leaf.toNat).2) := by
    rw [hlen]
    exact hfold
  refine ⟨⟨filled', s.leaves ++ [hex32 leaf], hex32 (treeRoot poseidon2 (done ++ [leaf]))⟩, ?_, ?_⟩
  · unfold acceptLog logRecord
    dsimp only
    rw [assertFieldBytes32_ok hnew.1, ok_bind, assertFieldBytes32_ok hprev.1, ok_bind,
      assertFieldBytes32_ok hleaf, ok_bind, if_neg hnz, ensure_of hroots, ok_bind,
      ensure_of hcapacity, ok_bind, hexNat_hex32, hinsert, ok_bind, ensure_of hcomputed]
    rfl
  · refine ⟨by rw [h.leaves, List.map_append, List.map_singleton], rfl, hlen', hf', ?_⟩
    have hmap : (done ++ [leaf]).map BitVec.toNat = done.map BitVec.toNat ++ [leaf.toNat] := by simp
    have hcount : (done ++ [leaf]).length = (done.map BitVec.toNat ++ [leaf.toNat]).length := by
      simp
    rw [hmap, hcount, hslots]
    exact hlive'

/-- **The records of a list of leaves**, after the one of the constructor. -/
theorem acceptLogs_spec (initialRoot : Text) : ∀ (leaves done : List Bytes32) (s : Chain),
    ChainOf poseidon2 hash s done → (∀ x ∈ done ++ leaves, isFieldElement x) →
    (∀ x ∈ leaves, x ≠ 0) → done.length + leaves.length ≤ merkleTreeCapacity →
    ∃ s', ((chainFrom poseidon2 done leaves).map logRecord).foldlM
        (acceptLog hash (zeroTable hash) merkleTreeDepth initialRoot) s = .ok s' ∧
      ChainOf poseidon2 hash s' (done ++ leaves)
  | [], done, s, h, _, _, _ => ⟨s, rfl, by rwa [List.append_nil]⟩
  | leaf :: leaves, done, s, h, hfield, hne, hroom => by
    have happend : done ++ [leaf] ++ leaves = done ++ leaf :: leaves := by simp
    rw [List.length_cons] at hroom
    obtain ⟨s₁, haccept, h₁⟩ := acceptLog_spec hsame h
      (fun x hx => hfield x (by rw [← happend]; exact List.mem_append_left _ hx))
      (hne leaf List.mem_cons_self) (by omega) initialRoot
    obtain ⟨s₂, hfold, h₂⟩ := acceptLogs_spec initialRoot leaves (done ++ [leaf]) s₁ h₁
      (by rwa [happend]) (fun x hx => hne x (List.mem_cons_of_mem _ hx))
      (by rw [List.length_append, List.length_singleton]; omega)
    refine ⟨s₂, ?_, by rwa [happend] at h₂⟩
    rw [chainFrom, List.map_cons, List.foldlM_cons, haccept, ok_bind, hfold]

/-- **`verifyRootAcceptedChain` accepts the records of a list of leaves**, and returns them. -/
theorem verifyRootAcceptedChain_spec {leaves : List Bytes32} (hfield : ∀ x ∈ leaves, isFieldElement x)
    (hne : ∀ x ∈ leaves, x ≠ 0) (hroom : leaves.length ≤ merkleTreeCapacity) :
    ∃ s, verifyRootAcceptedChain ((chain poseidon2 leaves).map logRecord) merkleTreeDepth hash
        (zeroTable hash) = .ok s ∧ ChainOf poseidon2 hash s leaves := by
  have hinitial := toBytes32_zeroTable hsame
  have hroot : isFieldElement (treeRoot poseidon2 []) :=
    (treeRoot_toNat hsame fun _ hx => absurd hx List.not_mem_nil).1
  have hlength : (zeroTable hash).length = merkleTreeDepth + 1 := by
    rw [zeroTable, List.length_map, List.length_range]
  have hzeros : ∀ v ∈ zeroTable hash, v < bn254ScalarField := by
    intro v hv
    obtain ⟨l, -, rfl⟩ := List.mem_map.mp hv
    exact zeroHash_mem (hashPair_ok hsame "") (by decide) l
  -- the record of the constructor leaves the state as it was
  have hstart : ChainOf poseidon2 hash
      ⟨(zeroTable hash).take merkleTreeDepth, [], hex32 (treeRoot poseidon2 [])⟩ [] := by
    refine ⟨rfl, rfl, ?_, fun v hv => hzeros v (List.mem_of_mem_take hv), live_zero _ _ _ _⟩
    rw [List.length_take, hlength, Nat.min_eq_left (Nat.le_succ _)]
  have hfirst : acceptLog hash (zeroTable hash) merkleTreeDepth (hex32 (treeRoot poseidon2 []))
      ⟨(zeroTable hash).take merkleTreeDepth, [], hex32 (treeRoot poseidon2 [])⟩
      (logRecord ⟨treeRoot poseidon2 [], 0, 0⟩) =
        .ok ⟨(zeroTable hash).take merkleTreeDepth, [], hex32 (treeRoot poseidon2 [])⟩ := by
    have hzero : hexNat (hex32 0) = 0 := hexNat_hex32 0
    unfold acceptLog logRecord
    dsimp only
    rw [assertFieldBytes32_ok hroot, ok_bind, assertFieldBytes32_ok isFieldElement_zero, ok_bind,
      assertFieldBytes32_ok isFieldElement_zero, ok_bind, if_pos hzero, ensure_of ⟨hzero, rfl⟩]
    rfl
  obtain ⟨s, hfold, hs⟩ := acceptLogs_spec hsame (hex32 (treeRoot poseidon2 [])) leaves [] _ hstart
    hfield hne (by simpa using hroom)
  refine ⟨s, ?_, hs⟩
  unfold verifyRootAcceptedChain
  dsimp only
  rw [hinitial, chain, List.map_cons, List.foldlM_cons, hfirst, ok_bind, hfold]

/-! ### The path -/

/-- **The path of a leaf**, in any spelling: its index, the current root and the siblings of the
tree. -/
theorem reconstruct_text {leaves : List Bytes32} (hfield : ∀ x ∈ leaves, isFieldElement x)
    (hne : ∀ x ∈ leaves, x ≠ 0) (hnodup : leaves.Nodup) (hroom : leaves.length ≤ merkleTreeCapacity)
    {i : ℕ} {text : Text} (htext : isHexBytes32 text) (hi : leaves[i]? = some (word text)) :
    reconstructMerklePathFromRootAcceptedLogs ((chain poseidon2 leaves).map logRecord) text
      hash merkleTreeDepth = .ok {
        commitment := text
        leafIndex := i
        root := hex32 (treeRoot poseidon2 leaves)
        pathElements := (siblings poseidon2 (padded 0 leaves) 0 i merkleTreeDepth).map hex32
        pathIndices := indexBits i merkleTreeDepth
        status := "reconstructed-from-root-accepted-history" } := by
  have hc : assertFieldBytes32 text "commitment" = .ok text := by
    have hword : isFieldElement (word text) := hfield _ (List.mem_of_getElem? hi)
    rw [isFieldElement, toNat_word htext] at hword
    unfold assertFieldBytes32
    rw [ensure_of ⟨htext, hword⟩]
    rfl
  obtain ⟨s, hchain, hs⟩ := verifyRootAcceptedChain_spec hsame hfield hne hroom
  have hzeros : buildMerkleZeroHashes (hashPair hash "zeroHash") merkleTreeDepth =
      .ok (zeroTable hash) :=
    buildMerkleZeroHashes_ok (hashPair_ok hsame "zeroHash") (by decide) merkleTreeDepth
  have hfind : findLeaf s.leaves text
      "Note commitment was not found in RootAccepted history." = .ok i := by
    unfold findLeaf
    rw [hs.leaves, ← hex32_word htext, ← lower_hex32 (word text), findIdx_hex32 hnodup hi]
  have hlength : s.leaves.length ≤ 2 ^ merkleTreeDepth := by
    rw [hs.leaves, List.length_map]
    exact hroom
  have hnumbers : s.leaves.map hexNat = leaves.map BitVec.toNat := by
    rw [hs.leaves, map_hexNat_hex32]
  have hindex := index_lt hroom hi
  have hprint : ∀ v, v < bn254ScalarField → printSibling v = .ok (padHex32 v) := by
    intro v hv
    unfold printSibling
    rw [assertFieldBigint_ok hv]
    rfl
  have hleaves : ∀ v ∈ leaves.map BitVec.toNat, v < bn254ScalarField := by
    intro v hv
    obtain ⟨x, hx, rfl⟩ := List.mem_map.mp hv
    exact hfield x hx
  obtain ⟨m, hclimb, hroot⟩ := climb_spec (hashPair_ok hsame "Merkle parent") hprint (by decide)
    hleaves hindex
  have hprinted := print_siblings hsame hfield i merkleTreeDepth
  have htree := treeRoot_toNat hsame hfield
  have hlast : assertFieldBigint (rootOf (zeroTable hash) merkleTreeDepth m) "Merkle root" =
      .ok (treeRoot poseidon2 leaves).toNat := by
    unfold zeroTable
    rw [hroot, htree.2, assertFieldBigint_ok htree.1]
  unfold reconstructMerklePathFromRootAcceptedLogs
  rw [hc, ok_bind, ensure_of ⟨by decide, by decide⟩, ok_bind, hzeros, ok_bind,
    hchain, ok_bind, hfind, ok_bind, ensure_of hlength, ok_bind, hnumbers]
  unfold zeroTable at hlast ⊢
  rw [hclimb, ok_bind, hlast, hprinted]
  unfold toBytes32
  rw [ok_bind, padHex32_toNat]
  rfl

theorem reconstruct_spec {leaves : List Bytes32} (hfield : ∀ x ∈ leaves, isFieldElement x)
    (hne : ∀ x ∈ leaves, x ≠ 0) (hnodup : leaves.Nodup) (hroom : leaves.length ≤ merkleTreeCapacity)
    {i : ℕ} {c : Bytes32} (hi : leaves[i]? = some c) :
    reconstructMerklePathFromRootAcceptedLogs ((chain poseidon2 leaves).map logRecord) (hex32 c)
      hash merkleTreeDepth = .ok {
        commitment := hex32 c
        leafIndex := i
        root := hex32 (treeRoot poseidon2 leaves)
        pathElements := (siblings poseidon2 (padded 0 leaves) 0 i merkleTreeDepth).map hex32
        pathIndices := indexBits i merkleTreeDepth
        status := "reconstructed-from-root-accepted-history" } :=
  reconstruct_text hsame hfield hne hnodup hroom (isHexBytes32_hex32 c) (by rw [word_hex32, hi])

/-- The loop of `verifyMerklePath` climbs to the node above. -/
theorem verifyLevels_spec {leaf : ℕ → Bytes32} (hl : ∀ i, isFieldElement (leaf i)) :
    ∀ n l p : ℕ,
      (((siblings poseidon2 leaf l p n).map hex32).zip (indexBits p n)).foldlM (verifyLevel hash)
        (node poseidon2 leaf l p).toNat = .ok (node poseidon2 leaf (l + n) (p / 2 ^ n)).toNat
  | 0, l, p => by simp [siblings, indexBits]; rfl
  | n + 1, l, p => by
    have ih := verifyLevels_spec hl n (l + 1) (p / 2)
    have hnode := (node_toNat hsame hl l p).1
    have hsibling := (node_toNat hsame hl l (sibling p)).1
    have hparent := node_parent poseidon2 leaf l p
    have hlevel : verifyLevel hash (node poseidon2 leaf l p).toNat
        (hex32 (node poseidon2 leaf l (sibling p)), p % 2) =
          .ok (node poseidon2 leaf (l + 1) (p / 2)).toNat := by
      unfold verifyLevel join at *
      dsimp only
      rw [assertFieldBytes32_ok hsibling, ok_bind, ensure_of (by omega), ok_bind, hexNat_hex32,
        hparent]
      split_ifs
      · rw [(hashPair_ok hsame "computedRoot" _ _ hnode hsibling).2,
          hsame.agrees _ _ hnode hsibling]
      · rw [(hashPair_ok hsame "computedRoot" _ _ hsibling hnode).2,
          hsame.agrees _ _ hsibling hnode]
    rw [siblings, indexBits, List.map_cons, List.zip_cons_cons, List.foldlM_cons, hlevel, ok_bind,
      ih, Nat.div_div_eq_div_mul, ← pow_succ', show l + 1 + n = l + (n + 1) by omega]

/-- **`verifyMerklePath` accepts the path of a leaf.** -/
theorem verifyMerklePath_spec {leaves : List Bytes32} (hfield : ∀ x ∈ leaves, isFieldElement x)
    (hroom : leaves.length ≤ merkleTreeCapacity) {i : ℕ} {c : Bytes32} (hi : leaves[i]? = some c) :
    verifyMerklePath hash (hex32 c) (hex32 (treeRoot poseidon2 leaves))
      ((siblings poseidon2 (padded 0 leaves) 0 i merkleTreeDepth).map hex32)
      (indexBits i merkleTreeDepth) = .ok true := by
  have hc : isFieldElement c := hfield c (List.mem_of_getElem? hi)
  have hlt : i < leaves.length := (List.getElem?_eq_some_iff.mp hi).1
  have hleaf : padded 0 leaves i = c := by
    rw [padded_of_lt hlt]
    exact (List.getElem?_eq_some_iff.mp hi).2
  have hlevels := verifyLevels_spec hsame (padded_mem isFieldElement_zero hfield) merkleTreeDepth 0 i
  have hzero : i / 2 ^ merkleTreeDepth = 0 := Nat.div_eq_of_lt (hlt.trans_le hroom)
  rw [node_zero_height, hleaf, Nat.zero_add, hzero] at hlevels
  have hlength : ((siblings poseidon2 (padded 0 leaves) 0 i merkleTreeDepth).map hex32).length =
      (indexBits i merkleTreeDepth).length := by
    rw [List.length_map, length_siblings, length_indexBits]
  unfold verifyMerklePath
  rw [assertFieldBytes32_ok hc, ok_bind,
    assertFieldBytes32_ok (treeRoot_toNat hsame hfield).1, ok_bind, ensure_of hlength, ok_bind,
    hexNat_hex32, hlevels, ok_bind]
  unfold toBytes32
  rw [padHex32_toNat]
  exact congrArg Except.ok (decide_eq_true rfl)

end Spec

end Nullark.Sdk.Merkle
