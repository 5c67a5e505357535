import Nullark.Sdk.Merkle

/-! # The chains of records that the SDK accepts

`verifyRootAcceptedChain` recomputes the root of every record. Its branch for the record of the
constructor accepts that record anywhere, and no branch remembers which commitments are in the tree.

* `PoolRun`: what a pool of some depth has emitted after some insertions.
* `poolRun_reachable`: the pool of depth 20 emits such records.
* `follows_foldlM`: the loop computes the roots of the tree.
* `verifyRootAcceptedChain_emitted_iff`: when an accepted list is one that a pool emits. -/

namespace Nullark.Sdk.RootChain

open Nullark.Lib.Outcome Nullark.Lib.Hex Nullark.Lib.Merkle.Tree Nullark.Lib.Merkle.Frontier
open Nullark.Lib.Rollback (Config)
open Nullark.Evm.Basic Nullark.Pool.Interface Nullark.Pool.Context Nullark.Pool.Tree
open Nullark.Pool.Actions Nullark.Pool.Calls Nullark.Pool.History
open Nullark.Js.Basic Nullark.Js.TreeHash Nullark.Js.SparseTree
open Nullark.Sdk.Merkle

/-! ### What a pool emits -/

/-- A record of a pool, on numbers. -/
structure RootRecord where
  root : ℕ
  previousRoot : ℕ
  insertedCommitment : ℕ
  deriving DecidableEq

/-- The numbers of a record. -/
def numbersOf (log : RootAcceptedLogRecord) : RootRecord :=
  ⟨hexNat log.root, hexNat log.previousRoot, hexNat log.insertedCommitment⟩

/-- The root of the tree of a depth. -/
def rootOfLeaves (hash : FieldHash) (depth : ℕ) (leaves : List ℕ) : ℕ :=
  root (fun a b => hash [a, b]) 0 depth leaves

/-- **The records a pool of a depth has emitted** when the commitments `leaves` are in its tree: one
record of the constructor, and one for each commitment, which is new and has room. -/
inductive PoolRun (hash : FieldHash) (depth : ℕ) : List ℕ → List RootRecord → Prop
  | constructed : PoolRun hash depth [] [⟨rootOfLeaves hash depth [], 0, 0⟩]
  | inserted {leaves records commitment} (h : PoolRun hash depth leaves records)
      (hne : commitment ≠ 0) (hfield : commitment < bn254ScalarField) (hnew : commitment ∉ leaves)
      (hroom : leaves.length < 2 ^ depth) :
      PoolRun hash depth (leaves ++ [commitment]) (records ++
        [⟨rootOfLeaves hash depth (leaves ++ [commitment]), rootOfLeaves hash depth leaves,
          commitment⟩])

/-- **A list of records that some run of a pool emits**, up to the omission of the first record. -/
def Emitted (hash : FieldHash) (depth : ℕ) (logs : List RootAcceptedLogRecord) : Prop :=
  ∃ leaves records, PoolRun hash depth leaves records ∧
    (logs.map numbersOf = records ∨ logs.map numbersOf = records.tail)

section Run
variable {hash : FieldHash} {depth : ℕ} {leaves : List ℕ} {records : List RootRecord}

/-- The record of the constructor is the first one and no other, and the other records insert the
leaves, which are distinct. -/
theorem PoolRun.shape (h : PoolRun hash depth leaves records) :
    ∃ rest, records = ⟨rootOfLeaves hash depth [], 0, 0⟩ :: rest ∧
      rest.map RootRecord.insertedCommitment = leaves ∧ (∀ c ∈ leaves, c ≠ 0) ∧ leaves.Nodup := by
  induction h with
  | constructed => exact ⟨[], rfl, rfl, fun _ h => absurd h List.not_mem_nil, List.nodup_nil⟩
  | inserted h hne hfield hnew hroom ih =>
    obtain ⟨rest, rfl, hrest, hnz, hnodup⟩ := ih
    refine ⟨rest ++ [_], List.cons_append, ?_, ?_, List.nodup_append_comm.mp ?_⟩
    · rw [List.map_append, hrest]
      rfl
    · intro c hc
      rcases List.mem_append.mp hc with hc | hc
      · exact hnz c hc
      · exact List.mem_singleton.mp hc ▸ hne
    · exact List.nodup_cons.mpr ⟨hnew, hnodup⟩

/-- The last record has the root of the tree. -/
theorem PoolRun.last (h : PoolRun hash depth leaves records) :
    records.getLast?.map RootRecord.root = some (rootOfLeaves hash depth leaves) := by
  cases h with
  | constructed => rfl
  | inserted => rw [List.getLast?_concat]; rfl

end Run

/-- The records of the pool, on numbers. -/
def recordOf (e : RootAccepted) : RootRecord :=
  ⟨e.root.toNat, e.previousRoot.toNat, e.insertedCommitment.toNat⟩

theorem numbersOf_logRecord (e : RootAccepted) : numbersOf (logRecord e) = recordOf e := by
  unfold numbersOf logRecord
  dsimp only
  rw [hexNat_hex32, hexNat_hex32, hexNat_hex32]
  rfl

section Pool
variable {poseidon2 : Bytes32 → Bytes32 → Bytes32} {hash : FieldHash}

theorem poolRun_chain (hsame : SameHash poseidon2 hash) (leaves : List Bytes32)
    (hfield : ∀ c ∈ leaves, c ≠ 0 ∧ isFieldElement c) (hnodup : leaves.Nodup)
    (hroom : leaves.length ≤ merkleTreeCapacity) :
    PoolRun hash merkleTreeDepth (leaves.map BitVec.toNat)
      ((chain poseidon2 leaves).map recordOf) := by
  induction leaves using List.reverseRecOn with
  | nil =>
    have hroot := (treeRoot_toNat hsame fun _ h => absurd h List.not_mem_nil).2
    have hrecord : recordOf ⟨treeRoot poseidon2 [], 0, 0⟩ =
        ⟨rootOfLeaves hash merkleTreeDepth [], 0, 0⟩ := by
      unfold recordOf rootOfLeaves
      rw [← hroot]
      rfl
    rw [chain, chainFrom, List.map_singleton, hrecord]
    exact .constructed
  | append_singleton leaves leaf ih =>
    rw [List.length_append, List.length_singleton] at hroom
    have hold : ∀ c ∈ leaves, c ≠ 0 ∧ isFieldElement c := fun c hc =>
      hfield c (List.mem_append_left _ hc)
    have hleaf := hfield leaf (List.mem_append_right _ (List.mem_singleton.mpr rfl))
    obtain ⟨hnodup', -, hdisjoint⟩ := List.nodup_append.mp hnodup
    have hprev := (treeRoot_toNat hsame fun c hc => (hold c hc).2).2
    have hnext := (treeRoot_toNat hsame fun c hc => (hfield c hc).2).2
    have hrecord : recordOf ⟨treeRoot poseidon2 (leaves ++ [leaf]), treeRoot poseidon2 leaves, leaf⟩ =
        ⟨rootOfLeaves hash merkleTreeDepth (leaves.map BitVec.toNat ++ [leaf.toNat]),
          rootOfLeaves hash merkleTreeDepth (leaves.map BitVec.toNat), leaf.toNat⟩ := by
      have hmap : leaves.map BitVec.toNat ++ [leaf.toNat] = (leaves ++ [leaf]).map BitVec.toNat := by
        simp
      unfold recordOf rootOfLeaves
      rw [hmap, hprev, hnext]
    rw [chain_concat, List.map_append, List.map_append, List.map_singleton, List.map_singleton,
      hrecord]
    refine .inserted (ih hold hnodup' (by omega)) (fun hz => hleaf.1 (BitVec.eq_of_toNat_eq hz))
      hleaf.2 (fun hmem => ?_) (by rw [List.length_map]; exact hroom)
    obtain ⟨x, hx, heq⟩ := List.mem_map.mp hmem
    exact hdisjoint x hx leaf (List.mem_singleton.mpr rfl) (BitVec.eq_of_toNat_eq heq)

/-- **The pool emits such records**: in every reachable world its logs are those of its leaves, as the
SDK reads them. -/
theorem poolRun_reachable {env : Env} {answers : Answers} {c : Config World (Option Pending)}
    (hsame : SameHash env.poseidon2 hash) (h : Reachable env answers c) :
    PoolRun hash merkleTreeDepth ((leavesOf c.world).map BitVec.toNat)
      (((rootLogs c.world.logs).map logRecord).map numbersOf) := by
  have htracks := (tracks_reachable h).1
  have hrecords : ((rootLogs c.world.logs).map logRecord).map numbersOf =
      (rootLogs c.world.logs).map recordOf := by
    rw [List.map_map]
    exact List.map_congr_left fun e _ => numbersOf_logRecord e
  rw [hrecords, htracks.logs]
  exact poolRun_chain hsame _ htracks.field htracks.nodup htracks.recorded.grown.fits

end Pool

/-! ### What the loop computes -/

/-- The commitments that records insert. -/
def insertions (logs : List RootAcceptedLogRecord) : List ℕ :=
  (logs.map fun log => hexNat log.insertedCommitment).filter (· ≠ 0)

/-- The root of the last record, or of the empty tree. -/
def lastRoot (hash : FieldHash) (depth : ℕ) (logs : List RootAcceptedLogRecord) : ℕ :=
  (logs.getLast?.map fun log => hexNat log.root).getD (rootOfLeaves hash depth [])

/-- **Only the first record is the one of the constructor, and no commitment comes twice.** -/
def Tidy (logs : List RootAcceptedLogRecord) : Prop :=
  (∀ log ∈ logs.tail, hexNat log.insertedCommitment ≠ 0) ∧ (insertions logs).Nodup

theorem insertions_concat (logs : List RootAcceptedLogRecord) (log : RootAcceptedLogRecord) :
    insertions (logs ++ [log]) = insertions logs ++
      if hexNat log.insertedCommitment ≠ 0 then [hexNat log.insertedCommitment] else [] := by
  unfold insertions
  rw [List.map_append, List.filter_append, List.map_singleton]
  split_ifs with h <;> simp [h]

theorem lastRoot_concat (hash : FieldHash) (depth : ℕ) (logs : List RootAcceptedLogRecord)
    (log : RootAcceptedLogRecord) : lastRoot hash depth (logs ++ [log]) = hexNat log.root := by
  unfold lastRoot
  rw [List.getLast?_concat]
  rfl

theorem Tidy.of_concat {logs : List RootAcceptedLogRecord} {log : RootAcceptedLogRecord}
    (h : Tidy (logs ++ [log])) : Tidy logs := by
  have hnodup := h.2
  rw [insertions_concat] at hnodup
  refine ⟨fun x hx => h.1 x ?_, hnodup.of_append_left⟩
  rw [List.tail_append_of_ne_nil (List.ne_nil_of_mem (List.mem_of_mem_tail hx))]
  exact List.mem_append_left _ hx

theorem hexNat_of_lower (t : Text) : hexNat (lower t) = hexNat t := by
  unfold hexNat lower
  rw [← List.map_drop]
  exact value_of_lower _

theorem hexNat_eq_of_lower {s t : Text} (h : lower s = lower t) : hexNat s = hexNat t := by
  rw [← hexNat_of_lower s, h, hexNat_of_lower]

theorem hexNat_toBytes32 (v : ℕ) : hexNat (toBytes32 v) = v := by
  change value (List.replicate _ '0' ++ ofNat v) = v
  rw [value_zeros, (ofNat_spec v).2.1]

section Loop
variable {hash : FieldHash} {depth : ℕ} {zeroHashes : List ℕ}

theorem hashPair_eq_ok {label : String} {left right v : ℕ}
    (h : hashPair hash label left right = .ok v) : v = hash [left, right] := by
  unfold hashPair assertFieldBigint at h
  simp only [bind_eq_ok, ensure_eq_ok, pure_eq_ok] at h
  obtain ⟨_, -, h⟩ := h
  exact h.symm

/-- The table that is computed holds the zero hashes. -/
theorem buildMerkleZeroHashes_eq_ok {label : String} : ∀ {depth : ℕ} {zeroHashes : List ℕ},
    buildMerkleZeroHashes (hashPair hash label) depth = .ok zeroHashes →
      zeroHashes = (List.range (depth + 1)).map (zeroHash (fun a b => hash [a, b]) 0)
  | 0, _, h => (Except.ok.inj h).symm
  | depth + 1, zeroHashes, h => by
    unfold buildMerkleZeroHashes at h
    rw [List.range_succ, List.foldlM_append] at h
    obtain ⟨table, htable, h⟩ := bind_eq_ok.mp h
    have ih := buildMerkleZeroHashes_eq_ok htable
    have hlast : table.getD depth 0 = zeroHash (fun a b => hash [a, b]) 0 depth := by
      rw [ih]
      simp [List.getD_eq_getElem?_getD]
    simp only [List.foldlM_cons, List.foldlM_nil, pushZeroHash, bind_eq_ok, pure_eq_ok] at h
    obtain ⟨_, ⟨next, hnext, rfl⟩, rfl⟩ := h
    rw [hashPair_eq_ok hnext, hlast, ih, List.range_succ (n := depth + 1), List.map_append]
    rfl

theorem getD_zeroHashes {l : ℕ} (h : l ≤ depth) :
    ((List.range (depth + 1)).map (zeroHash (fun a b => hash [a, b]) 0)).getD l 0 =
      zeroHash (fun a b => hash [a, b]) 0 l := by
  have hlt : l < depth + 1 := by omega
  simp [List.getD_eq_getElem?_getD, hlt]

/-- **The loop over the levels** walks up the frontier, whenever no hash is refused. -/
theorem insertLevels_ok (leafIndex : ℕ) : ∀ (n l : ℕ) {filled filled' : List ℕ}
    {current computed : ℕ}, l + n ≤ depth → filled.length = depth →
    (List.range' l n).foldlM (insertLevel hash ((List.range (depth + 1)).map
        (zeroHash (fun a b => hash [a, b]) 0)) leafIndex) (filled, current) =
      .ok (filled', computed) →
    push (fun a b => hash [a, b]) (zeroHash (fun a b => hash [a, b]) 0) n l
        (slots hash filled) (leafIndex / 2 ^ l) current = (slots hash filled', computed) ∧
      filled'.length = depth
  | 0, l, filled, filled', current, computed, _, hlen, h => by
    obtain ⟨rfl, rfl⟩ := Prod.mk.inj (Except.ok.inj h)
    exact ⟨rfl, hlen⟩
  | n + 1, l, filled, filled', current, computed, hle, hlen, h => by
    have hhalf : leafIndex / 2 ^ l / 2 = leafIndex / 2 ^ (l + 1) := by
      rw [Nat.div_div_eq_div_mul, ← pow_succ]
    rw [List.range'_succ, List.foldlM_cons, bind_eq_ok] at h
    obtain ⟨⟨filled₁, next⟩, hlevel, hrest⟩ := h
    unfold insertLevel at hlevel
    dsimp only at hlevel
    rw [getD_zeroHashes (by omega)] at hlevel
    rw [push, hhalf]
    split_ifs at hlevel ⊢ with heven
    · simp only [bind_eq_ok, pure_eq_ok, Prod.mk.injEq] at hlevel
      obtain ⟨v, hv, rfl, rfl⟩ := hlevel
      rw [← slots_set (by omega), ← hashPair_eq_ok hv]
      exact insertLevels_ok leafIndex n (l + 1) (by omega) (by rw [List.length_set, hlen]) hrest
    · simp only [bind_eq_ok, pure_eq_ok, Prod.mk.injEq] at hlevel
      obtain ⟨v, hv, rfl, rfl⟩ := hlevel
      have hleft : slots hash filled l = filled.getD l (zeroHash (fun a b => hash [a, b]) 0 l) := rfl
      rw [hleft, ← hashPair_eq_ok hv]
      exact insertLevels_ok leafIndex n (l + 1) (by omega) hlen hrest

/-- **What the loop has computed** after the records `done`. -/
structure Follows (hash : FieldHash) (depth : ℕ) (s : Chain) (done : List RootAcceptedLogRecord) :
    Prop where
  leaves : s.leaves.length = (insertions done).length
  acceptedRoot : hexNat s.acceptedRoot = lastRoot hash depth done
  length : s.filledSubtrees.length = depth
  live : Live (fun a b => hash [a, b]) (padded 0 (insertions done)) depth
    (insertions done).length (slots hash s.filledSubtrees)
  emitted : Tidy done → ∃ records, PoolRun hash depth (insertions done) records ∧
    (done.map numbersOf = records ∨ done.map numbersOf = records.tail)

/-- The last root of records of a run is the root of its leaves. -/
theorem lastRoot_of_run {done : List RootAcceptedLogRecord} {leaves : List ℕ}
    {records : List RootRecord} (hrun : PoolRun hash depth leaves records)
    (h : done.map numbersOf = records ∨ done.map numbersOf = records.tail) :
    lastRoot hash depth done = rootOfLeaves hash depth leaves := by
  have hmap : done.getLast?.map (fun log => hexNat log.root) =
      (done.map numbersOf).getLast?.map RootRecord.root := by
    rw [List.getLast?_map, Option.map_map]
    rfl
  unfold lastRoot
  rw [hmap]
  rcases h with h | h
  · rw [h, hrun.last]
    rfl
  · rw [h]
    cases hrun with
    | constructed => rfl
    | inserted hrun =>
      obtain ⟨rest, rfl, -⟩ := hrun.shape
      rw [List.cons_append, List.tail_cons, List.getLast?_concat]
      rfl

/-- The zero hashes of a depth. -/
def zeros (hash : FieldHash) (depth : ℕ) : List ℕ :=
  (List.range (depth + 1)).map (zeroHash (fun a b => hash [a, b]) 0)

theorem hexNat_initialRoot :
    hexNat (toBytes32 ((zeros hash depth).getD depth 0)) = rootOfLeaves hash depth [] := by
  rw [hexNat_toBytes32, zeros, getD_zeroHashes le_rfl, rootOfLeaves, root_nil]

/-- The record of the constructor. -/
theorem Follows.initial {s : Chain} {done : List RootAcceptedLogRecord}
    {log : RootAcceptedLogRecord} (h : Follows hash depth s done)
    (hzero : hexNat log.insertedCommitment = 0) (hprevious : hexNat log.previousRoot = 0)
    (hroot : hexNat log.root = rootOfLeaves hash depth []) :
    Follows hash depth { s with acceptedRoot := log.root } (done ++ [log]) := by
  have hsame : insertions (done ++ [log]) = insertions done := by
    rw [insertions_concat, if_neg (not_not.mpr hzero), List.append_nil]
  refine ⟨by rw [hsame]; exact h.leaves, (lastRoot_concat _ _ _ _).symm, h.length,
    by rw [hsame]; exact h.live, fun htidy => ?_⟩
  have hempty : done = [] := by
    by_contra hne
    refine htidy.1 log ?_ hzero
    rw [List.tail_append_of_ne_nil hne]
    exact List.mem_append_right _ (List.mem_singleton.mpr rfl)
  subst hempty
  have hnumbers : numbersOf log = ⟨rootOfLeaves hash depth [], 0, 0⟩ := by
    rw [numbersOf, hroot, hprevious, hzero]
  rw [hsame]
  exact ⟨_, .constructed, .inl (by rw [List.nil_append, List.map_singleton, hnumbers])⟩

/-- The record of an insertion. -/
theorem Follows.insertion {s : Chain} {done : List RootAcceptedLogRecord}
    {log : RootAcceptedLogRecord} {filled : List ℕ} {computed : ℕ} (h : Follows hash depth s done)
    (hne : hexNat log.insertedCommitment ≠ 0)
    (hfield : hexNat log.insertedCommitment < bn254ScalarField)
    (hprevious : hexNat log.previousRoot = hexNat s.acceptedRoot)
    (hroom : s.leaves.length < 2 ^ depth)
    (hinsert : insertLeafAndComputeRoot hash (zeros hash depth) depth
      (hexNat log.insertedCommitment) s.leaves.length s.filledSubtrees = .ok (filled, computed))
    (hroot : hexNat log.root = computed) :
    Follows hash depth ⟨filled, s.leaves ++ [log.insertedCommitment], log.root⟩ (done ++ [log]) := by
  have hnew : insertions (done ++ [log]) = insertions done ++ [hexNat log.insertedCommitment] := by
    rw [insertions_concat, if_pos hne]
  unfold insertLeafAndComputeRoot at hinsert
  rw [List.range_eq_range', zeros] at hinsert
  obtain ⟨hpush, hlength⟩ := insertLevels_ok s.leaves.length depth 0 (by omega) h.length hinsert
  rw [pow_zero, Nat.div_one, h.leaves] at hpush
  rw [h.leaves] at hroom
  obtain ⟨hlive, hcomputed⟩ := push_spec (fun a b => hash [a, b])
    (x := hexNat log.insertedCommitment) hroom h.live
  rw [hpush] at hlive hcomputed
  dsimp only at hlive hcomputed
  refine ⟨?_, (lastRoot_concat _ _ _ _).symm, hlength, by rw [hnew]; exact hlive, fun htidy => ?_⟩
  · rw [hnew, List.length_append, List.length_append, h.leaves]
    rfl
  · obtain ⟨records, hrun, hrecords⟩ := h.emitted htidy.of_concat
    have hnodup := htidy.2
    rw [hnew] at hnodup ⊢
    have hfresh : hexNat log.insertedCommitment ∉ insertions done := fun hmem =>
      (List.nodup_append.mp hnodup).2.2 _ hmem _ (List.mem_singleton.mpr rfl) rfl
    have hnumbers : numbersOf log =
        ⟨rootOfLeaves hash depth (insertions done ++ [hexNat log.insertedCommitment]),
          rootOfLeaves hash depth (insertions done), hexNat log.insertedCommitment⟩ := by
      rw [numbersOf, hroot, hcomputed, hprevious, h.acceptedRoot, lastRoot_of_run hrun hrecords]
      rfl
    refine ⟨_, hrun.inserted hne hfield hfresh hroom, ?_⟩
    rw [List.map_append, List.map_singleton, hnumbers]
    obtain ⟨rest, rfl, -⟩ := hrun.shape
    rcases hrecords with hrecords | hrecords
    · exact .inl (by rw [hrecords])
    · exact .inr (by rw [hrecords]; rfl)

/-- **A record that is accepted** is followed. -/
theorem Follows.acceptLog {s s' : Chain} {done : List RootAcceptedLogRecord}
    {log : RootAcceptedLogRecord} (h : Follows hash depth s done)
    (haccept : acceptLog hash (zeros hash depth) depth
      (toBytes32 ((zeros hash depth).getD depth 0)) s log = .ok s') :
    Follows hash depth s' (done ++ [log]) := by
  unfold Merkle.acceptLog assertFieldBytes32 at haccept
  simp only [bind_eq_ok, ensure_eq_ok, pure_eq_ok, exists_const] at haccept
  obtain ⟨_, ⟨-, rfl⟩, _, ⟨-, rfl⟩, _, ⟨⟨-, hfield⟩, rfl⟩, haccept⟩ := haccept
  split_ifs at haccept with hzero
  · simp only [bind_eq_ok, ensure_eq_ok, pure_eq_ok, exists_const] at haccept
    obtain ⟨⟨hprevious, hroot⟩, rfl⟩ := haccept
    exact h.initial hzero hprevious ((hexNat_eq_of_lower hroot).trans hexNat_initialRoot)
  · simp only [bind_eq_ok, ensure_eq_ok, pure_eq_ok, exists_const] at haccept
    obtain ⟨hprevious, hroom, ⟨filled, computed⟩, hinsert, hroot, rfl⟩ := haccept
    exact h.insertion hzero hfield (hexNat_eq_of_lower hprevious) hroom hinsert
      ((hexNat_eq_of_lower hroot).trans (hexNat_toBytes32 _))

theorem Follows.foldlM : ∀ {logs done : List RootAcceptedLogRecord} {s s' : Chain},
    Follows hash depth s done →
    logs.foldlM (Merkle.acceptLog hash (zeros hash depth) depth
      (toBytes32 ((zeros hash depth).getD depth 0))) s = .ok s' →
    Follows hash depth s' (done ++ logs)
  | [], done, s, s', h, hfold => by
    obtain rfl := Except.ok.inj hfold
    rwa [List.append_nil]
  | log :: logs, done, s, s', h, hfold => by
    rw [List.foldlM_cons, bind_eq_ok] at hfold
    obtain ⟨s₁, haccept, hfold⟩ := hfold
    have hrest := Follows.foldlM (h.acceptLog haccept) hfold
    rwa [List.append_assoc] at hrest

/-- **What an accepted list has computed.** -/
theorem follows_of_verify {logs : List RootAcceptedLogRecord} {s : Chain}
    (h : verifyRootAcceptedChain logs depth hash (zeros hash depth) = .ok s) :
    Follows hash depth s logs := by
  have hlength : ((zeros hash depth).take depth).length = depth := by
    rw [List.length_take, zeros, List.length_map, List.length_range, Nat.min_eq_left (Nat.le_succ _)]
  have hstart : Follows hash depth ⟨(zeros hash depth).take depth, [],
      toBytes32 ((zeros hash depth).getD depth 0)⟩ [] :=
    ⟨rfl, hexNat_initialRoot, hlength, live_zero _ _ _ _, fun _ => ⟨_, .constructed, .inr rfl⟩⟩
  exact hstart.foldlM h

/-- Lists that a pool emits are tidy. -/
theorem Emitted.tidy {logs : List RootAcceptedLogRecord} (h : Emitted hash depth logs) :
    Tidy logs := by
  obtain ⟨leaves, records, hrun, hrecords⟩ := h
  obtain ⟨rest, rfl, rfl, hne, hnodup⟩ := hrun.shape
  have hcommitments : logs.map (fun log => hexNat log.insertedCommitment) =
      (logs.map numbersOf).map RootRecord.insertedCommitment := by
    rw [List.map_map]
    rfl
  have hkeep : (rest.map RootRecord.insertedCommitment).filter (· ≠ 0) =
      rest.map RootRecord.insertedCommitment :=
    List.filter_eq_self.mpr fun c hc => decide_eq_true (hne c hc)
  have htail : logs.tail.map (fun log => hexNat log.insertedCommitment) ⊆
      rest.map RootRecord.insertedCommitment := by
    rw [List.map_tail, hcommitments]
    rcases hrecords with hrecords | hrecords
    · rw [hrecords]
      exact List.Subset.refl _
    · rw [hrecords]
      exact List.tail_subset _
  refine ⟨fun log hlog => hne _ (htail (List.mem_map_of_mem hlog)), ?_⟩
  unfold insertions
  rw [hcommitments]
  rcases hrecords with hrecords | hrecords
  · rw [hrecords, List.map_cons, List.filter_cons_of_neg (by simp), hkeep]
    exact hnodup
  · rw [hrecords, List.tail_cons, hkeep]
    exact hnodup

end Loop

/-- **Which accepted lists a pool emits**: those in which only the first record is the one of the
constructor, and no commitment comes twice. -/
theorem verifyRootAcceptedChain_emitted_iff {hash : FieldHash} {depth : ℕ} {zeroHashes : List ℕ}
    (hzeros : buildMerkleZeroHashes (hashPair hash "zeroHash") depth = .ok zeroHashes)
    {logs : List RootAcceptedLogRecord} {s : Chain}
    (h : verifyRootAcceptedChain logs depth hash zeroHashes = .ok s) :
    Emitted hash depth logs ↔ (∀ log ∈ logs.tail, hexNat log.insertedCommitment ≠ 0) ∧
      (insertions logs).Nodup := by
  obtain rfl := buildMerkleZeroHashes_eq_ok hzeros
  refine ⟨Emitted.tidy, fun htidy => ?_⟩
  obtain ⟨records, hrun, hrecords⟩ := (follows_of_verify h).emitted htidy
  exact ⟨_, records, hrun, hrecords⟩

/-! ### Two lists -/

def sampleHash : FieldHash := fun xs => (3 * xs.getD 0 0 + 5 * xs.getD 1 0 + 1) % bn254ScalarField

def sampleRecord (root previousRoot insertedCommitment : ℕ) : RootAcceptedLogRecord :=
  ⟨toBytes32 root, toBytes32 previousRoot, toBytes32 insertedCommitment⟩

/-- The root of a tree of depth two. -/
def sampleRoot (leaves : List ℕ) : ℕ := rootOfLeaves sampleHash 2 leaves

/-- The records of a pool with one commitment. -/
def sampleLogs : List RootAcceptedLogRecord :=
  [sampleRecord (sampleRoot []) 0 0, sampleRecord (sampleRoot [7]) (sampleRoot []) 7]

/-- The same records, with the record of the constructor and the commitment once more. -/
def stitchedLogs : List RootAcceptedLogRecord :=
  sampleLogs ++
    [sampleRecord (sampleRoot []) 0 0, sampleRecord (sampleRoot [7, 7]) (sampleRoot []) 7]

theorem exists_ok {α : Type} {x : Throws α} (h : x.toOption.isSome = true) : ∃ a, x = .ok a := by
  cases x with
  | ok a => exact ⟨a, rfl⟩
  | error e => cases h

/-- A pool emits the records of one commitment. -/
theorem verifyRootAcceptedChain_emitted_iff_sample : Emitted sampleHash 2 sampleLogs := by
  have hzeros : buildMerkleZeroHashes (hashPair sampleHash "zeroHash") 2 =
      .ok (zeros sampleHash 2) := by decide +kernel
  obtain ⟨s, hs⟩ : ∃ s, verifyRootAcceptedChain sampleLogs 2 sampleHash (zeros sampleHash 2) =
      .ok s := exists_ok (by decide +kernel)
  exact (verifyRootAcceptedChain_emitted_iff hzeros hs).mpr ⟨by decide +kernel, by decide +kernel⟩

/-- **The check accepts records that no pool emits.** -/
theorem stitchedLogs_accepted :
    buildMerkleZeroHashes (hashPair sampleHash "zeroHash") 2 = .ok (zeros sampleHash 2) ∧
      (∃ s, verifyRootAcceptedChain stitchedLogs 2 sampleHash (zeros sampleHash 2) = .ok s) ∧
      ¬Emitted sampleHash 2 stitchedLogs := by
  refine ⟨by decide +kernel, exists_ok (by decide +kernel), fun h => ?_⟩
  have hthird : sampleRecord (sampleRoot []) 0 0 ∈ stitchedLogs.tail := by decide +kernel
  exact h.tidy.1 _ hthird (by decide +kernel)

end Nullark.Sdk.RootChain
