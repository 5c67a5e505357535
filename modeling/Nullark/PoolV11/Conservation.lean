import Nullark.Circuit.V11
import Nullark.Pool.Conservation
import Nullark.PoolV11.Solvency

/-! # Conservation of value in v1.1

A deposit of v1.1 comes without a proof, and the pool keeps the amount of every commitment. With a
verifier that accepts only what has a witness, and a hash without known collisions, no commitment is
spent twice, and the amounts of those that are not spent are what the accounting says.

* `Tracks`: the world has the tree, the commitments and the events of a list of leaves.
* `Named.leaf`: the leaf a spend opens is the commitment it names.
* `Books.deposits`, `Books.transfers`, `Books.withdraws`: the three moves of an action.
* `books_exec`: one call keeps the books.
* `conservation_v11`: along runs. -/

namespace Nullark.PoolV11.Conservation

open Nullark.Lib.Outcome Nullark.Lib.Rollback Nullark.Lib.Ledger Nullark.Lib.Merkle.Tree
open Nullark.Evm.Basic
open Nullark.Pool.Interface hiding Event publicInputsLength
open Nullark.Pool.Context (Env)
open Nullark.Pool.Tree
open Nullark.Pool.Roots hiding isAcceptedRoot initialRoots recordAll
open Nullark.Pool.Actions (Msg Verify input TransferArgs)
open Nullark.Pool.History (rootLogs rootLogs_append)
open Nullark.Pool.Calls (Move)
open Nullark.Pool.Conservation (SamePoseidon TreeKnown toField_treeRoot sampleEnv sampleHash
  sampleTemplates sampleNote sampleKnown known_sample samePoseidon_sample sampleHash_note
  sampleHash_nullifier toField_ofNat toField_runLeaf toField_runRoot treeKnown_sample)
open Nullark.Pool.Effects (plainMsg exitMsg)
open Nullark.Circuit.Field Nullark.Circuit.Gadgets Nullark.Circuit.V11
open Nullark.Verifier.ActionRouting (isFieldElement_input)
open Nullark.PoolV11.Actions Nullark.PoolV11.Calls Nullark.PoolV11.Effects Nullark.PoolV11.Solvency

/-! ### Leaves -/

/-- The events that v1.2 has as well. -/
def sharedLogs (logs : List Event) : List Pool.Interface.Event :=
  logs.filterMap fun
    | .shared event => some event
    | _ => none

/-- **The commitments that are inserted**, as the events list them. -/
def insertedCommitments (w : World) : List Bytes32 :=
  (rootLogs (sharedLogs w.logs)).filterMap fun e =>
    if e.insertedCommitment = 0 then none else some e.insertedCommitment

/-- **The commitments that are named as spent**, one for each accepted spend. -/
def spentCommitments (w : World) : List Bytes32 := w.spends.map fun p => input p 8

/-- The amounts of the inserted commitments that are not named as spent. -/
def unspentAmount (w : World) : ℕ :=
  unnamed w.pool.commitmentAmounts (insertedCommitments w).toFinset (spentCommitments w).toFinset

/-- **The world has the tree, the commitments and the events of `leaves`.** The ring of v1.1 is that
of v1.2 without the mapping. -/
structure Tracks (env : Env) (w : World) (leaves : List Bytes32) : Prop where
  recorded : ∃ s, s.forget = w.pool.roots ∧ Recorded env.poseidon2 s leaves
  inserted : insertedCommitments w = leaves
  nodup : leaves.Nodup
  field : ∀ c ∈ leaves, c ≠ 0 ∧ isFieldElement c
  commitments : ∀ c, w.pool.commitments c ↔ c ∈ leaves

variable {env : Env} {w w' : World} {msg : Msg} {leaves : List Bytes32}

@[simp] theorem sharedLogs_append (l l' : List Event) :
    sharedLogs (l ++ l') = sharedLogs l ++ sharedLogs l' := List.filterMap_append

theorem sharedLogs_shared (events : List Pool.Interface.Event) :
    sharedLogs (events.map .shared) = events := by
  unfold sharedLogs
  rw [List.filterMap_map]
  exact List.filterMap_some

/-- Only the roots, the commitments and the events matter. -/
theorem Tracks.congr (h : Tracks env w leaves) (hroots : w'.pool.roots = w.pool.roots)
    (hcommitments : w'.pool.commitments = w.pool.commitments)
    (hlogs : rootLogs (sharedLogs w'.logs) = rootLogs (sharedLogs w.logs)) : Tracks env w' leaves := by
  refine ⟨hroots ▸ h.recorded, ?_, h.nodup, h.field, hcommitments ▸ h.commitments⟩
  rw [← h.inserted]
  unfold insertedCommitments
  rw [hlogs]

/-- **An accepted root** is the root of a prefix of the leaves. -/
theorem Tracks.acceptedRoot (h : Tracks env w leaves) {root : Bytes32}
    (haccepted : V11.isAcceptedRoot w.pool.roots root) :
    ∃ pre, pre <+: leaves ∧ treeRoot env.poseidon2 pre = root := by
  obtain ⟨s, hs, hrecorded⟩ := h.recorded
  rw [← hs] at haccepted
  obtain ⟨hne, hslot⟩ := (isAcceptedRoot_v11 hrecorded root).mp haccepted
  exact mem_prefixRoots.mp (List.mem_of_mem_drop ((hrecorded.ring.exists_slot hne).mp hslot))

/-- **Recording a fresh commitment** appends it to the leaves. -/
theorem Tracks.records (h : Tracks env w leaves) {commitment : Bytes32} {amount : ℕ}
    {after : ℕ → List Event} (hr : Records env w w' commitment amount after)
    (hafter : ∀ i, rootLogs (sharedLogs (after i)) = []) (hne : commitment ≠ 0)
    (hfield : isFieldElement commitment) (hfresh : ¬w.pool.commitments commitment) :
    Tracks env w' (leaves ++ [commitment]) ∧ leaves.length < merkleTreeCapacity := by
  obtain ⟨s, hs, hrecorded⟩ := h.recorded
  obtain ⟨i, events, hrecord, hlogs⟩ := hr.record
  rw [← hs, forget_recordCommitmentRoot] at hrecord
  obtain ⟨⟨s', j, events'⟩, hok, hmap⟩ : ∃ r, Pool.Roots.recordCommitmentRoot env.poseidon2 s commitment =
      .ok r ∧ (r.1.forget, r.2) = (w'.pool.roots, i, events) := by
    rcases hrun : Pool.Roots.recordCommitmentRoot env.poseidon2 s commitment with e | r
    · rw [hrun] at hrecord
      cases hrecord
    · rw [hrun] at hrecord
      exact ⟨r, rfl, Except.ok.inj hrecord⟩
  obtain ⟨hforget, -, rfl⟩ : s'.forget = w'.pool.roots ∧ j = i ∧ events' = events := by
    simpa using hmap
  obtain ⟨hrecorded', -, expired, hexpired, rfl⟩ := recordCommitmentRoot_ok hrecorded hok
  have hnotin : commitment ∉ leaves := fun hin => hfresh ((h.commitments commitment).mpr hin)
  have hquiet : rootLogs expired = [] := by
    rcases hexpired with rfl | ⟨r, rfl⟩ <;> rfl
  have hfits := hrecorded'.grown.fits
  rw [List.length_append, List.length_singleton] at hfits
  refine ⟨⟨⟨s', hforget, hrecorded'⟩, ?_, ?_, fun c hc => ?_, fun c => ?_⟩, hfits⟩
  · have hinserted := h.inserted
    unfold insertedCommitments at hinserted ⊢
    rw [hlogs, sharedLogs_append, sharedLogs_append, sharedLogs_shared, rootLogs_append,
      rootLogs_append, rootLogs_append, hquiet, hafter, List.nil_append, List.append_nil,
      List.filterMap_append, hinserted]
    have hlast : rootLogs [.rootAccepted (treeRoot env.poseidon2 (leaves ++ [commitment]))
        (treeRoot env.poseidon2 leaves) commitment] =
          [⟨treeRoot env.poseidon2 (leaves ++ [commitment]), treeRoot env.poseidon2 leaves,
            commitment⟩] := rfl
    rw [hlast, List.filterMap_cons, if_neg hne, List.filterMap_nil]
  · refine List.nodup_append.mpr ⟨h.nodup, List.nodup_singleton _, fun a ha b hb heq => hnotin ?_⟩
    rwa [← List.mem_singleton.mp hb, ← heq]
  · rcases List.mem_append.mp hc with hc | hc
    · exact h.field c hc
    · exact List.mem_singleton.mp hc ▸ ⟨hne, hfield⟩
  · rw [hr.commitments, List.mem_append, List.mem_singleton, ← h.commitments c]
    rcases eq_or_ne c commitment with rfl | hc
    · simp
    · simp [hc]

/-- **The leaf an action inserts**, if it inserts one. -/
def leafOf : Action → List Bytes32
  | .deposit commitment _ => [commitment]
  | .privateTransfer a => [a.newCommitment]
  | .withdraw a => if input a.publicInputs 2 = 0 then [] else [input a.publicInputs 2]
  | _ => []

theorem tracks_effect {verify : Verify} {action : Action} {p : Option Pending}
    (h : Tracks env w leaves) (he : Effect env verify w msg action w' p) :
    Tracks env w' (leaves ++ leafOf action) := by
  have hsame : ∀ {action : Action}, leafOf action = [] → Tracks env w' leaves →
      Tracks env w' (leaves ++ leafOf action) := fun hnone h => by rwa [hnone, List.append_nil]
  cases he with
  | @deposit _ encryptedNote _ hd =>
    refine (h.records hd.records (fun i => ?_) hd.checked.commitment_ne hd.checked.commitment_field
      hd.checked.commitment_fresh).1
    by_cases hn : encryptedNote.length ≠ 0
    · rw [if_pos hn]
      rfl
    · rw [if_neg hn]
      rfl
  | @privateTransfer a _ ht =>
    refine (h.records ht.records (fun i => ?_) ht.checked.commitment_ne ht.checked.commitment_field
      ht.fresh).1
    by_cases hn : a.encryptedNote.length ≠ 0
    · rw [if_pos hn]
      rfl
    · rw [if_neg hn]
      rfl
  | @withdraw a _ _ hw =>
    by_cases hzero : input a.publicInputs 2 = 0
    · obtain ⟨hroots, hlogs, hcommitments, -⟩ := hw.whole hzero
      exact hsame (if_pos hzero) (h.congr hroots hcommitments (by rw [hlogs]))
    · have hleaf : leafOf (.withdraw a) = [input a.publicInputs 2] := if_neg hzero
      obtain ⟨hfield, hfresh⟩ := hw.checked.commitment hzero
      rw [hleaf]
      exact (h.records (hw.change hzero) (fun _ => rfl) hzero hfield hfresh).1
  | sweepFees hs =>
    exact hsame rfl (h.congr (by rw [hs.pool]) (by rw [hs.pool]) (by rw [hs.logs]))
  | recoverExcessBalance hr =>
    exact hsame rfl (h.congr (by rw [hr.pool]) (by rw [hr.pool]) (by rw [hr.logs]))
  | pause hp =>
    obtain ⟨_, _, _, hpool⟩ := hp.pool
    obtain ⟨e, hlogs, hown⟩ := hp.logs
    refine hsame rfl (h.congr (by rw [hpool]) (by rw [hpool]) ?_)
    have hquiet : sharedLogs [e] = [] := by
      cases e <;> first | rfl | exact absurd rfl (hown _)
    rw [hlogs, sharedLogs_append, hquiet, List.append_nil]

theorem tracks_exec {verify : Verify} {call : Call} {p : Option Pending} (h : Tracks env w leaves)
    (hexec : exec env verify w msg call = .ok (w', p)) :
    Tracks env w' (leaves ++ leafOf call.action) := by
  have hpaid : Tracks env (paidIn env w msg) leaves := h.congr rfl rfl rfl
  exact tracks_effect hpaid (exec_ok hexec).2

theorem tracks_finish (h : Tracks env w leaves) (p : Pending) : Tracks env (finish w p) leaves := by
  refine h.congr rfl rfl ?_
  have hquiet : rootLogs (sharedLogs p.events) = [] := by
    cases p with
    | withdraw nullifier changeCommitment destination grossAmount netAmount fee changeLeafIndex
        encryptedChangeNote =>
      unfold Pending.events
      dsimp only
      split_ifs <;> rfl
    | sweepFees => rfl
    | recoverExcessBalance => rfl
  change rootLogs (sharedLogs (w.logs ++ p.events)) = _
  rw [sharedLogs_append, rootLogs_append, hquiet, List.append_nil]

theorem tracks_deployed (h : Deployed env w) : Tracks env w [] := by
  obtain ⟨verifier, poseidon2Address, balances, h⟩ := h
  simp only [construct, bind_eq_ok, require_eq_ok, exists_const, pure_eq_ok] at h
  obtain ⟨-, -, -, rfl⟩ := h
  refine ⟨⟨Pool.Roots.initialRoots env.poseidon2, rfl, recorded_initial⟩, ?_, List.nodup_nil,
    fun _ hc => absurd hc List.not_mem_nil, fun c => ?_⟩
  · rfl
  · simp

/-! ### What is assumed of the hash and the verifier -/

/-- **No collision is known** among the inputs of `K`, those that anyone hashes. -/
def CollisionFree (t : Templates) (K : List F → Prop) : Prop :=
  ∀ k k', K k → K k' → t.poseidon k = t.poseidon k' → k = k'

/-- The signals of a spend. -/
def spendPublic (publicInputs : List Bytes32) : SpendPublic :=
  { root := toField (input publicInputs 0)
    nullifier := toField (input publicInputs 1)
    newCommitment := toField (input publicInputs 2)
    destination := toField (input publicInputs 3)
    grossAmount := toField (input publicInputs 4)
    fee := toField (input publicInputs 5)
    chainId := toField (input publicInputs 6)
    verifyingContract := toField (input publicInputs 7)
    spentCommitment := toField (input publicInputs 8)
    noteAmount := toField (input publicInputs 9)
    proofContextHash := toField (input publicInputs 10)
    encryptedNoteHash := toField (input publicInputs 11) }

/-- The public inputs are field elements with a satisfying witness of one of the two circuits, for
which only inputs of `K` are hashed. -/
def HasWitness (t : Comparators) (K : List F → Prop) (publicInputs : List Bytes32) : Prop :=
  (∀ x ∈ publicInputs, isFieldElement x) ∧
    ((∃ w, WithdrawCircuit t merkleTreeDepth (spendPublic publicInputs) w ∧
        ∀ k ∈ w.preimages t.toTemplates (spendPublic publicInputs), K k) ∨
      ∃ w, PrivateTransferCircuit t.toTemplates merkleTreeDepth (spendPublic publicInputs) w ∧
        ∀ k ∈ w.preimages t.toTemplates (spendPublic publicInputs), K k)

/-- **The verifier accepts only what has a witness.** -/
def AcceptsWitnessed (t : Comparators) (K : List F → Prop) (verify : Verify) : Prop :=
  ∀ proof publicInputs, verify proof publicInputs = true → HasWitness t K publicInputs

/-- A witness of either circuit opens a note. -/
theorem HasWitness.spendsNote {t : Comparators} {K : List F → Prop} (ht : Documented t.toTemplates)
    {publicInputs : List Bytes32} (h : HasWitness t K publicInputs) : ∃ n outputNote leafIndex path,
      SpendsNote t.toTemplates merkleTreeDepth (spendPublic publicInputs) n leafIndex path ∧
      ∀ k ∈ spendPreimages t.toTemplates (spendPublic publicInputs) n outputNote leafIndex path, K k := by
  rcases h.2 with ⟨w, hw, hk⟩ | ⟨w, hw, hk⟩
  · exact ⟨_, _, _, _, hw.spendsNote ht, hk⟩
  · exact ⟨_, _, _, _, hw.spendsNote ht, hk⟩

/-! ### The books -/

/-- **A spend that names a commitment**: the public inputs the pool has accepted, with the leaves it
had then among those it has now. -/
structure Named (env : Env) (t : Comparators) (K : List F → Prop) (leaves : List Bytes32)
    (publicInputs : List Bytes32) : Prop where
  witness : HasWitness t K publicInputs
  root : ∃ pre, pre <+: leaves ∧ treeRoot env.poseidon2 pre = input publicInputs 0
  chainId : input publicInputs 6 = env.chainId
  this : input publicInputs 7 = addressToBytes32 env.this
  spent_ne : input publicInputs 8 ≠ 0
  spent_mem : input publicInputs 8 ∈ leaves

/-- **The books of the pool**: what has been named is marked, nothing is named twice, and what is
left is worth what the accounting says. -/
structure Books (env : Env) (t : Comparators) (K : List F → Prop) (w : World)
    (leaves : List Bytes32) : Prop where
  trees : ∀ pre, pre <+: leaves → TreeKnown t.toTemplates K pre
  named : ∀ publicInputs ∈ w.spends, Named env t K leaves publicInputs ∧
    w.pool.nullifiers (input publicInputs 1) = true
  distinct : (spentCommitments w).Nodup
  value : unnamed w.pool.commitmentAmounts leaves.toFinset (spentCommitments w).toFinset +
    w.pool.accounting.totalWithdrawnAccounting + w.pool.accounting.accruedProtocolFees =
      w.pool.accounting.totalDepositedAccounting

section Books
variable {t : Comparators} {K : List F → Prop} {publicInputs : List Bytes32}

theorem Named.append (h : Named env t K leaves publicInputs) (more : List Bytes32) :
    Named env t K (leaves ++ more) publicInputs := by
  obtain ⟨pre, hpre, hroot⟩ := h.root
  exact ⟨h.witness, ⟨pre, hpre.trans (List.prefix_append _ _), hroot⟩, h.chainId, h.this,
    h.spent_ne, List.mem_append_left _ h.spent_mem⟩

variable (hinj : CollisionFree t.toTemplates K) (hsame : SamePoseidon env.poseidon2 t.toTemplates)
include hinj hsame

/-- **The leaf a spend opens** is the commitment it names. -/
theorem Named.leaf (h : Named env t K leaves publicInputs) (hleaves : ∀ c ∈ leaves, isFieldElement c)
    (htrees : ∀ pre, pre <+: leaves → TreeKnown t.toTemplates K pre) {n outputNote : Note}
    {leafIndex : F} {path : List F}
    (hs : SpendsNote t.toTemplates merkleTreeDepth (spendPublic publicInputs) n leafIndex path)
    (hk : ∀ k ∈ spendPreimages t.toTemplates (spendPublic publicInputs) n outputNote leafIndex path,
      K k) : leaves[leafIndex.val]? = some (input publicInputs 8) := by
  obtain ⟨pre, hpre, hroot⟩ := h.root
  have hfield : ∀ c ∈ pre, isFieldElement c := fun c hc => hleaves c (hpre.subset hc)
  have hpairs : ∀ q ∈ pairs (hashPair t.toTemplates) (toField (input publicInputs 8)) leafIndex.val
      path, K [q.1, q.2] := by
    intro q hq
    refine hk _ ?_
    unfold spendPreimages Circuit.V12.pathPreimages
    simp only [List.mem_cons, List.mem_map]
    exact .inr (.inr (.inr ⟨q, hq, rfl⟩))
  have hpair : InjectiveOn (hashPair t.toTemplates) fun a b => K [a, b] := by
    intro a b c d hab hcd heq
    have hlist := hinj _ _ hab hcd heq
    simp only [List.cons.injEq, and_true] at hlist
    exact hlist
  have hclimb : climb (hashPair t.toTemplates) (toField (input publicInputs 8)) leafIndex.val path =
      node (hashPair t.toTemplates) (fun i => toField (padded 0 pre i)) path.length 0 := by
    rw [hs.length, ← toField_treeRoot hsame hfield, hroot]
    exact hs.root.symm
  have hindex : leafIndex.val < 2 ^ path.length := by
    rw [hs.length]
    exact hs.index_lt
  have htree : NodesIn (hashPair t.toTemplates) (fun a b => K [a, b])
      (fun i => toField (padded 0 pre i)) path.length := by
    rw [hs.length]
    exact htrees pre hpre
  have hleaf := leaf_of_climb hpair hindex hpairs htree hclimb
  have hspent : isFieldElement (input publicInputs 8) := isFieldElement_input h.witness.1 8
  -- a leaf that is not there is zero, and zero is not named
  have hlt : leafIndex.val < pre.length := by
    by_contra hge
    rw [padded_of_le (not_lt.mp hge)] at hleaf
    exact h.spent_ne (toField_injOn hspent isFieldElement_zero hleaf)
  rw [padded_of_lt hlt] at hleaf
  have heq := toField_injOn hspent (hfield _ (List.getElem_mem hlt)) hleaf
  obtain ⟨rest, rfl⟩ := hpre
  rw [List.getElem?_append_left hlt, List.getElem?_eq_getElem hlt, heq]

/-- **Two spends that name one commitment have one nullifier.** -/
theorem nullifier_eq_of_named (ht : Documented t.toTemplates) {first second : List Bytes32}
    (hleaves : ∀ c ∈ leaves, isFieldElement c) (hnodup : leaves.Nodup)
    (htrees : ∀ pre, pre <+: leaves → TreeKnown t.toTemplates K pre)
    (h : Named env t K leaves first) (h' : Named env t K leaves second)
    (heq : input first 8 = input second 8) : input first 1 = input second 1 := by
  obtain ⟨n, out, index, path, hs, hk⟩ := h.witness.spendsNote ht
  obtain ⟨n', out', index', path', hs', hk'⟩ := h'.witness.spendsNote ht
  have hnote : n = n' := by
    refine Note.preimage_injective (hinj _ _ (hk _ List.mem_cons_self) (hk' _ List.mem_cons_self) ?_)
    have hspent : toField (input first 8) = poseidonNoteCommitment t.toTemplates n := hs.spent
    have hspent' : toField (input second 8) = poseidonNoteCommitment t.toTemplates n' := hs'.spent
    rw [heq] at hspent
    exact hspent.symm.trans hspent'
  have hindex : index = index' := by
    have hleaf := h.leaf hinj hsame hleaves htrees hs hk
    have hleaf' := h'.leaf hinj hsame hleaves htrees hs' hk'
    rw [heq] at hleaf
    have hlt : index.val < leaves.length := (List.getElem?_eq_some_iff.mp hleaf).1
    exact ZMod.val_injective _ ((List.getElem?_inj hlt hnodup).mp (hleaf.trans hleaf'.symm))
  refine toField_injOn (isFieldElement_input h.witness.1 1) (isFieldElement_input h'.witness.1 1) ?_
  have hnullifier : toField (input first 1) = poseidonNullifier t.toTemplates n.noteSecret index
      (toField (input first 6)) (toField (input first 7)) := hs.nullifier
  have hnullifier' : toField (input second 1) = poseidonNullifier t.toTemplates n'.noteSecret index'
      (toField (input second 6)) (toField (input second 7)) := hs'.nullifier
  rw [hnullifier, hnullifier', hnote, hindex, h.chainId, h'.chainId, h.this, h'.this]

/-- **A spend that is accepted names a new commitment.** -/
theorem Books.not_mem_spentCommitments (ht : Documented t.toTemplates) (h : Books env t K w leaves)
    (htracks : Tracks env w leaves) (hnamed : Named env t K leaves publicInputs)
    (hunspent : ¬w.pool.nullifiers (input publicInputs 1)) :
    input publicInputs 8 ∉ spentCommitments w := by
  intro hmem
  obtain ⟨first, hfirst, heq⟩ := List.mem_map.mp hmem
  obtain ⟨hold, hmarked⟩ := h.named first hfirst
  have hsame_nullifier := nullifier_eq_of_named hinj hsame ht (fun c hc => (htracks.field c hc).2)
    htracks.nodup h.trees hold hnamed heq
  rw [hsame_nullifier] at hmarked
  exact hunspent hmarked

omit hinj hsame in
/-- What is named has been inserted. -/
theorem Books.subset (h : Books env t K w leaves) : ∀ c ∈ spentCommitments w, c ∈ leaves := by
  intro c hc
  obtain ⟨p, hp, rfl⟩ := List.mem_map.mp hc
  exact (h.named p hp).1.spent_mem

omit hinj hsame in
/-- A new leaf, with its amount. -/
theorem unnamed_concat {amount : Bytes32 → ℕ} {named : List Bytes32} {c : Bytes32}
    (hfresh : c ∉ leaves) (hsubset : ∀ k ∈ named, k ∈ leaves) (a : ℕ) :
    unnamed (Function.update amount c a) (leaves ++ [c]).toFinset named.toFinset =
      unnamed amount leaves.toFinset named.toFinset + a := by
  have hkeys : (leaves ++ [c]).toFinset = insert c leaves.toFinset := by
    ext k
    simp
  rw [hkeys]
  exact unnamed_insert (by rwa [List.mem_toFinset])
    (by rw [List.mem_toFinset]; exact fun hc => hfresh (hsubset c hc)) a

omit hinj hsame in
/-- One more name. -/
theorem unnamed_named {amount : Bytes32 → ℕ} {named : List Bytes32} {c : Bytes32} (hc : c ∈ leaves)
    (hn : c ∉ named) : unnamed amount leaves.toFinset (named ++ [c]).toFinset + amount c =
      unnamed amount leaves.toFinset named.toFinset := by
  have hnames : (named ++ [c]).toFinset = insert c named.toFinset := by
    ext k
    simp
  rw [hnames]
  exact unnamed_name (by rwa [List.mem_toFinset]) (by rwa [List.mem_toFinset])

omit hinj hsame in
/-- The trees of the leaves and one more. -/
theorem trees_concat {c : Bytes32} (h : ∀ pre, pre <+: leaves → TreeKnown t.toTemplates K pre)
    (htree : TreeKnown t.toTemplates K (leaves ++ [c])) :
    ∀ pre, pre <+: leaves ++ [c] → TreeKnown t.toTemplates K pre := by
  intro pre hpre
  rcases List.prefix_concat_iff.mp hpre with rfl | hpre
  · exact htree
  · exact h pre hpre

omit hinj hsame in
/-- Nothing is recorded and nothing is spent. -/
theorem Books.congr (h : Books env t K w leaves) (hamounts : w'.pool.commitmentAmounts =
      w.pool.commitmentAmounts) (hnullifiers : w'.pool.nullifiers = w.pool.nullifiers)
    (hspends : w'.spends = w.spends)
    (htotals : w'.pool.accounting.totalWithdrawnAccounting =
        w.pool.accounting.totalWithdrawnAccounting ∧
      w'.pool.accounting.accruedProtocolFees = w.pool.accounting.accruedProtocolFees ∧
      w'.pool.accounting.totalDepositedAccounting = w.pool.accounting.totalDepositedAccounting) :
    Books env t K w' leaves := by
  obtain ⟨h1, h2, h3⟩ := htotals
  have hnames : spentCommitments w' = spentCommitments w := by
    unfold spentCommitments
    rw [hspends]
  refine ⟨h.trees, ?_, by rw [hnames]; exact h.distinct, ?_⟩
  · rw [hspends, hnullifiers]
    exact h.named
  · rw [hamounts, hnames, h1, h2, h3]
    exact h.value

omit hinj hsame in
/-- **A deposit** adds its amount. -/
theorem Books.deposits (h : Books env t K w leaves) (htracks : Tracks env w leaves)
    {commitment : Bytes32} {encryptedNote : Bytes}
    (hd : Deposits env w msg commitment encryptedNote w')
    (htree : TreeKnown t.toTemplates K (leaves ++ [commitment])) :
    Books env t K w' (leaves ++ [commitment]) := by
  have hfresh : commitment ∉ leaves := fun hin =>
    hd.checked.commitment_fresh ((htracks.commitments commitment).mpr hin)
  have hnames : spentCommitments w' = spentCommitments w := by
    unfold spentCommitments
    rw [hd.spends]
  refine ⟨trees_concat h.trees htree, fun p hp => ?_, by rw [hnames]; exact h.distinct, ?_⟩
  · rw [hd.spends] at hp
    obtain ⟨hnamed, hmarked⟩ := h.named p hp
    exact ⟨hnamed.append _, by rw [hd.nullifiers]; exact hmarked⟩
  · have hvalue := h.value
    rw [hnames, hd.records.commitmentAmounts, unnamed_concat hfresh h.subset, hd.accounting]
    dsimp only
    omega

/-- **The books of the spends** after one more, before its new commitment is recorded. -/
theorem Books.spend (ht : Documented t.toTemplates) (h : Books env t K w leaves)
    (htracks : Tracks env w leaves) (hnamed : Named env t K leaves publicInputs)
    (hunspent : ¬w.pool.nullifiers (input publicInputs 1)) :
    (∀ p ∈ w.spends ++ [publicInputs], Named env t K leaves p ∧
      Function.update w.pool.nullifiers (input publicInputs 1) true (input p 1) = true) ∧
    (spentCommitments w ++ [input publicInputs 8]).Nodup ∧
    (∀ c ∈ spentCommitments w ++ [input publicInputs 8], c ∈ leaves) ∧
    unnamed w.pool.commitmentAmounts leaves.toFinset
        (spentCommitments w ++ [input publicInputs 8]).toFinset +
      w.pool.commitmentAmounts (input publicInputs 8) =
        unnamed w.pool.commitmentAmounts leaves.toFinset (spentCommitments w).toFinset := by
  have hnew := h.not_mem_spentCommitments hinj hsame ht htracks hnamed hunspent
  refine ⟨fun p hp => ?_, ?_, fun c hc => ?_, unnamed_named hnamed.spent_mem hnew⟩
  · rcases List.mem_append.mp hp with hp | hp
    · obtain ⟨hold, hmarked⟩ := h.named p hp
      refine ⟨hold, ?_⟩
      by_cases heq : input p 1 = input publicInputs 1
      · rw [heq, Function.update_self]
      · rw [Function.update_of_ne heq, hmarked]
    · rw [List.mem_singleton.mp hp]
      exact ⟨hnamed, Function.update_self ..⟩
  · refine List.nodup_append.mpr ⟨h.distinct, List.nodup_singleton _, fun a ha b hb heq => hnew ?_⟩
    rwa [← List.mem_singleton.mp hb, ← heq]
  · rcases List.mem_append.mp hc with hc | hc
    · exact h.subset c hc
    · rw [List.mem_singleton.mp hc]
      exact hnamed.spent_mem

omit hinj hsame in
/-- The spend behind checks that pass. -/
theorem named_of_checked (htracks : Tracks env w leaves) {nullifier : Bytes32}
    (hwitness : HasWitness t K publicInputs) (hc : SpendChecked env w.pool publicInputs nullifier) :
    Named env t K leaves publicInputs :=
  ⟨hwitness, htracks.acceptedRoot hc.root, hc.chainId, hc.this, hc.spent_ne,
    (htracks.commitments _).mp hc.spent_known⟩

/-- **A private transfer** moves its amount to the new commitment. -/
theorem Books.transfers {verify : Verify} (ht : Documented t.toTemplates)
    (haccepts : AcceptsWitnessed t K verify) (h : Books env t K w leaves)
    (htracks : Tracks env w leaves) {a : TransferArgs} (hw : Transfers env verify w msg a w')
    (htree : TreeKnown t.toTemplates K (leaves ++ [a.newCommitment])) :
    Books env t K w' (leaves ++ [a.newCommitment]) := by
  have hnamed := named_of_checked htracks (haccepts _ _ hw.checked.verified) hw.checked.spend
  have hnullifier := hw.checked.spend.nullifier
  have hunspent := hw.unspent
  rw [← hnullifier] at hunspent
  obtain ⟨hall, hnodup, hsubset, hsum⟩ := h.spend hinj hsame ht htracks hnamed hunspent
  have hfresh : a.newCommitment ∉ leaves := fun hin =>
    hw.fresh ((htracks.commitments _).mpr hin)
  have hnames : spentCommitments w' = spentCommitments w ++ [input a.publicInputs 8] := by
    unfold spentCommitments
    rw [hw.spends, List.map_append]
    rfl
  refine ⟨trees_concat h.trees htree, fun p hp => ?_, by rw [hnames]; exact hnodup, ?_⟩
  · rw [hw.spends] at hp
    obtain ⟨hn, hmarked⟩ := hall p hp
    exact ⟨hn.append _, by rw [hw.nullifiers, ← hnullifier]; exact hmarked⟩
  · have hvalue := h.value
    rw [hw.checked.spend.amount] at hsum
    rw [hnames, hw.records.commitmentAmounts, unnamed_concat hfresh hsubset, hw.accounting]
    omega

/-- **A withdrawal** takes the gross amount out of the commitment it names and leaves the change in
the new one. -/
theorem Books.withdraws {verify : Verify} (ht : Documented t.toTemplates)
    (haccepts : AcceptsWitnessed t K verify) (h : Books env t K w leaves)
    (htracks : Tracks env w leaves) {a : WithdrawArgs} {p : Pending}
    (hw : Withdraws env verify w msg a w' p)
    (htree : TreeKnown t.toTemplates K (leaves ++ leafOf (.withdraw a))) :
    Books env t K w' (leaves ++ leafOf (.withdraw a)) := by
  have hnamed := named_of_checked htracks (haccepts _ _ hw.checked.verified) hw.checked.spend
  have hnullifier := hw.checked.spend.nullifier
  have hunspent := hw.checked.unspent
  rw [← hnullifier] at hunspent
  obtain ⟨hall, hnodup, hsubset, hsum⟩ := h.spend hinj hsame ht htracks hnamed hunspent
  have hnames : spentCommitments w' = spentCommitments w ++ [input a.publicInputs 8] := by
    unfold spentCommitments
    rw [hw.spends, List.map_append]
    rfl
  have hmarks : ∀ q ∈ w'.spends, Named env t K leaves q ∧
      w'.pool.nullifiers (input q 1) = true := by
    rw [hw.spends, hw.nullifiers, ← hnullifier]
    exact hall
  have hfee := hw.liquid.fee_le
  have hvalue := h.value
  rw [hw.checked.spend.amount] at hsum
  by_cases hzero : input a.publicInputs 2 = 0
  · have hleaf : leafOf (.withdraw a) = [] := if_pos hzero
    have hwhole := (hw.checked.change.whole hzero).1
    rw [hleaf, List.append_nil]
    refine ⟨h.trees, hmarks, by rw [hnames]; exact hnodup, ?_⟩
    rw [hnames, (hw.whole hzero).commitmentAmounts, hw.accounting]
    dsimp only
    omega
  · have hleaf : leafOf (.withdraw a) = [input a.publicInputs 2] := if_neg hzero
    have hrest := (hw.checked.change.rest hzero).1
    have hfresh : input a.publicInputs 2 ∉ leaves := fun hin =>
      (hw.checked.commitment hzero).2 ((htracks.commitments _).mpr hin)
    rw [hleaf] at htree ⊢
    refine ⟨trees_concat h.trees htree, fun q hq => ?_, by rw [hnames]; exact hnodup, ?_⟩
    · obtain ⟨hn, hmarked⟩ := hmarks q hq
      exact ⟨hn.append _, hmarked⟩
    · rw [hnames, (hw.change hzero).commitmentAmounts, unnamed_concat hfresh hsubset, hw.accounting]
      dsimp only
      omega

/-- **One call keeps the books.** -/
theorem books_exec {verify : Verify} (ht : Documented t.toTemplates)
    (haccepts : AcceptsWitnessed t K verify) {call : Call} {p : Option Pending}
    (h : Books env t K w leaves) (htracks : Tracks env w leaves)
    (hexec : exec env verify w msg call = .ok (w', p))
    (htree : TreeKnown t.toTemplates K (leaves ++ leafOf call.action)) :
    Books env t K w' (leaves ++ leafOf call.action) := by
  have hpaid : Books env t K (paidIn env w msg) leaves := h.congr rfl rfl rfl ⟨rfl, rfl, rfl⟩
  have htracks_paid : Tracks env (paidIn env w msg) leaves := htracks.congr rfl rfl rfl
  have heffect := (exec_ok hexec).2
  generalize call.action = action at heffect htree
  have hsame_leaves : ∀ {action : Action}, leafOf action = [] → Books env t K w' leaves →
      Books env t K w' (leaves ++ leafOf action) := fun hnone h => by rwa [hnone, List.append_nil]
  cases heffect with
  | deposit hd => exact hpaid.deposits htracks_paid hd htree
  | privateTransfer hw => exact hpaid.transfers hinj hsame ht haccepts htracks_paid hw htree
  | withdraw hw => exact hpaid.withdraws hinj hsame ht haccepts htracks_paid hw htree
  | sweepFees hs =>
    exact hsame_leaves rfl (hpaid.congr (by rw [hs.pool]) (by rw [hs.pool]) hs.spends
      ⟨by rw [hs.pool], by rw [hs.pool], by rw [hs.pool]⟩)
  | recoverExcessBalance hr =>
    exact hsame_leaves rfl (hpaid.congr (by rw [hr.pool]) (by rw [hr.pool]) hr.spends
      ⟨by rw [hr.pool], by rw [hr.pool], by rw [hr.pool]⟩)
  | pause hp =>
    obtain ⟨_, _, _, hpool⟩ := hp.pool
    exact hsame_leaves rfl (hpaid.congr (by rw [hpool]) (by rw [hpool]) hp.spends
      ⟨by rw [hpool], by rw [hpool], by rw [hpool]⟩)

omit hinj hsame in
theorem books_deployed (h : Deployed env w) (htree : TreeKnown t.toTemplates K []) :
    Books env t K w [] := by
  obtain ⟨verifier, poseidon2Address, balances, h⟩ := h
  simp only [construct, bind_eq_ok, require_eq_ok, exists_const, pure_eq_ok] at h
  obtain ⟨-, -, -, rfl⟩ := h
  refine ⟨fun pre hpre => ?_, fun _ hp => absurd hp List.not_mem_nil, List.nodup_nil, rfl⟩
  rw [List.prefix_nil.mp hpre]
  exact htree

end Books

/-! ### Runs -/

/-- **The configurations reached by hashing inputs of `K` only**, with a verifier that may answer
anew in every call. -/
def KnownReachable (env : Env) (t : Comparators) (K : List F → Prop)
    (c : Config World (Option Pending)) : Prop :=
  ∃ w, Deployed env w ∧ TreeKnown t.toTemplates K (insertedCommitments w) ∧
    Run ((pool env (AcceptsWitnessed t K)).within fun w =>
      TreeKnown t.toTemplates K (insertedCommitments w)) ⟨w, []⟩ c

section Runs
variable {t : Comparators} {K : List F → Prop} {c : Config World (Option Pending)}
variable (hinj : CollisionFree t.toTemplates K) (hsame : SamePoseidon env.poseidon2 t.toTemplates)
  (ht : Documented t.toTemplates)
include hinj hsame ht

/-- Every configuration reached has its books, also inside a call that re-enters. -/
theorem books_reachable (h : KnownReachable env t K c) : c.All fun w =>
    Tracks env w (insertedCommitments w) ∧ Books env t K w (insertedCommitments w) := by
  obtain ⟨w, hdeployed, htree, hrun⟩ := h
  refine Run.invariant (S := (pool env (AcceptsWitnessed t K)).within fun w =>
      TreeKnown t.toTemplates K (insertedCommitments w))
    (I := fun w => Tracks env w (insertedCommitments w) ∧ Books env t K w (insertedCommitments w))
    ?_ ?_ ?_ ⟨?_, fun _ hf => absurd hf List.not_mem_nil⟩ hrun
  · rintro w w' ⟨htracks, h⟩ ⟨hs, htree'⟩
    cases hs with
    | call hv _ hexec =>
      have htracks' := tracks_exec htracks hexec
      rw [htracks'.inserted] at htree' ⊢
      exact ⟨htracks', books_exec hinj hsame ht hv h htracks hexec htree'⟩
    | reverted => exact ⟨htracks, h⟩
    | others => exact ⟨htracks.congr rfl rfl rfl, h.congr rfl rfl rfl ⟨rfl, rfl, rfl⟩⟩
  · rintro w p w' ⟨htracks, h⟩ ⟨ho, htree'⟩
    cases ho with
    | call hv _ hexec =>
      have htracks' := tracks_exec htracks hexec
      rw [htracks'.inserted] at htree' ⊢
      exact ⟨htracks', books_exec hinj hsame ht hv h htracks hexec htree'⟩
    | others => exact ⟨htracks, h⟩
  · rintro w p w' ⟨htracks, h⟩ ⟨hc, -⟩
    cases hc with
    | @call _ p =>
      have htracks' := tracks_finish htracks p
      rw [htracks'.inserted]
      exact ⟨htracks', h.congr rfl rfl rfl ⟨rfl, rfl, rfl⟩⟩
    | others => exact ⟨htracks, h⟩
  · have htracks := tracks_deployed hdeployed
    rw [htracks.inserted] at htree
    dsimp only
    rw [htracks.inserted]
    exact ⟨htracks, books_deployed hdeployed htree⟩

/-- **Conservation.** In every reachable configuration, and in every world a failing call would
restore: the commitments are those inserted, no commitment is named by two accepted spends, and the
amounts of those that are not named are what has been deposited and neither withdrawn nor kept as a
fee. -/
theorem conservation_v11 (h : KnownReachable env t K c) : c.All fun w =>
    (∀ commitment, w.pool.commitments commitment ↔ commitment ∈ insertedCommitments w) ∧
    (spentCommitments w).Nodup ∧
    unspentAmount w + w.pool.accounting.totalWithdrawnAccounting +
        w.pool.accounting.accruedProtocolFees = w.pool.accounting.totalDepositedAccounting := by
  have hall := books_reachable hinj hsame ht h
  have hread : ∀ {w : World}, Tracks env w (insertedCommitments w) ∧
      Books env t K w (insertedCommitments w) → _ := fun ⟨htracks, hbooks⟩ =>
    And.intro htracks.commitments (And.intro hbooks.distinct hbooks.value)
  exact ⟨hread hall.1, fun f hf => hread (hall.2 f hf)⟩

end Runs

/-! ### A deposit and a withdrawal -/

/-- The public inputs of the withdrawal of half of the note 100. -/
def runSpend : List Bytes32 :=
  [120, 400000000, 2000000, 11, 5000000000000000, 16500000000000, 6343, 7, 100, 10000000000000000,
    1, 1]

/-- Its witness: the other half is the note 2000000. -/
def runWitness : WithdrawWitness where
  assetId := 0
  ownerCommitment := 0
  noteSecret := (100 : ℕ)
  leafIndex := 0
  withdrawalDestination := toField 11
  changeAmount := (5000000000000000 : ℕ)
  changeOwnerCommitment := 0
  changeNoteSecret := (2000000 : ℕ)
  pathElements := siblings (hashPair sampleTemplates)
    (fun i => toField (padded (0 : Bytes32) [100] i)) 0 0 merkleTreeDepth
  expectedProofContextHash := toField 1
  expectedEncryptedNoteHash := toField 1
  changeIsZero := 0
  newCommitmentIsZero := 0

/-- The note that is spent. -/
theorem note_runWitness :
    runWitness.note (spendPublic runSpend) = sampleNote 10000000000000000 100 := by
  have hamount : toField 10000000000000000 = ((10000000000000000 : ℕ) : F) :=
    toField_ofNat (n := 10000000000000000) (by decide)
  exact congrArg (Note.mk 0 · 0 ((100 : ℕ) : F)) hamount

theorem run_circuit : WithdrawCircuit (documentedComparators sampleHash) merkleTreeDepth
    (spendPublic runSpend) runWitness := by
  have hword : ∀ {m : ℕ}, m < bn254ScalarField → toField (BitVec.ofNat 256 m) = (m : F) :=
    toField_ofNat
  have hbits : ∀ {m b : ℕ} {x : F}, x = (m : F) → m < 2 ^ b → sampleTemplates.num2Bits b x :=
    fun hx hm => ⟨_, hm, hx.symm⟩
  have hnonzero : ∀ {x : F} {m : ℕ}, x = (m : F) → 0 < m → m < bn254ScalarField → x ≠ 0 := by
    rintro x m rfl hpos hlt heq
    rw [← Nat.cast_zero] at heq
    exact hpos.ne' (natCast_inj_of_lt hlt (by decide) heq)
  have hnote : toField 10000000000000000 = ((10000000000000000 : ℕ) : F) :=
    hword (m := 10000000000000000) (by decide)
  have hgross : toField 5000000000000000 = ((5000000000000000 : ℕ) : F) :=
    hword (m := 5000000000000000) (by decide)
  have hfee : toField 16500000000000 = ((16500000000000 : ℕ) : F) :=
    hword (m := 16500000000000) (by decide)
  have hone : toField 1 = ((1 : ℕ) : F) := hword (m := 1) (by decide)
  have hchain : toField 6343 = (6343 : F) := hword (m := 6343) (by decide)
  have hspent : toField 100 = ((100 : ℕ) : F) := hword (m := 100) (by decide)
  have hnew : toField 2000000 = ((2000000 : ℕ) : F) := hword (m := 2000000) (by decide)
  have hchange : runWitness.changeAmount ≠ 0 := hnonzero rfl (by decide) (by decide)
  have hhas : runWitness.hasChange = 1 := sub_zero 1
  have hleaf : toField 100 =
      poseidonNoteCommitment sampleTemplates (sampleNote 10000000000000000 100) :=
    hspent.trans (sampleHash_note (sampleNote 10000000000000000 100)).symm
  refine
    { pathElements := length_siblings ..
      supportedChain := ?_
      destination := rfl
      proofContextHash := rfl
      encryptedNoteHash := rfl
      noteAmountBits := hbits hnote (by decide)
      grossAmountBits := hbits hgross (by decide)
      changeAmountBits := hbits rfl (by decide)
      proofContextHashBits := hbits hone (by decide)
      encryptedNoteHashBits := hbits hone (by decide)
      conservation := ?_
      feeRemainderBound := ⟨6384, by decide, ?_, (if_pos (by decide)).symm⟩
      changeIsZero := (if_neg hchange).symm
      noNewCommitment := mul_zero _
      newCommitment := ?_
      newCommitmentIsZero := (if_neg (hnonzero hnew (by decide) (by decide))).symm
      newCommitmentUnlessZero := hhas
      verifyingContractBits := hbits (hword (m := 7) (by decide)) (by decide)
      note := ?_
      computedNullifier := ?_
      computedRoot := ?_ }
  · change (toField 6343 - 6343) * _ = 0
    rw [hchain, sub_self, zero_mul]
  · change toField 10000000000000000 = toField 5000000000000000 + ((5000000000000000 : ℕ) : F)
    rw [hnote, hgross, ← Nat.cast_add]
  · change ((6384 : ℕ) : F) = toField 5000000000000000 * 33 - toField 16500000000000 * 10000 +
      2 ^ 14 - 10000
    rw [hgross, hfee]
    push_cast
    ring
  · change (toField 2000000 - poseidonNoteCommitment sampleTemplates
      (sampleNote 5000000000000000 2000000)) * _ = 0
    rw [hnew, show poseidonNoteCommitment sampleTemplates (sampleNote 5000000000000000 2000000) =
      ((2000000 : ℕ) : F) from sampleHash_note (sampleNote 5000000000000000 2000000), sub_self, zero_mul]
  · rw [note_runWitness]
    exact hleaf
  · have hhash := sampleHash_nullifier ((100 : ℕ) : F) 0 (toField 6343) (toField 7)
    rw [zero_add, ← Nat.cast_mul] at hhash
    exact (hword (m := 400000000) (by decide)).trans hhash.symm
  · have hclimb := @climb_leaf _ (hashPair sampleTemplates)
      (fun i => toField (padded (0 : Bytes32) [100] i)) merkleTreeDepth 0 (Nat.two_pow_pos _)
    rw [toField_runLeaf, ← hspent, ← toField_runRoot] at hclimb
    refine (documented_documentedTemplates sampleHash).binaryMerkleRoot _ _ _ _ _
      (length_siblings ..) |>.mpr ⟨?_, ?_⟩
    · exact (ZMod.val_zero (n := bn254ScalarField)).trans_lt (Nat.two_pow_pos _)
    · rw [show runWitness.leafIndex.val = 0 from ZMod.val_zero]
      exact hclimb.symm

theorem run_preimages : ∀ k ∈ runWitness.preimages sampleTemplates (spendPublic runSpend),
    sampleKnown k := by
  have hindex : runWitness.leafIndex.val = 0 := ZMod.val_zero
  have hthis : toField 7 = ((7 : ℕ) : F) := toField_ofNat (n := 7) (by decide)
  have hchain : toField 6343 = ((6343 : ℕ) : F) := toField_ofNat (n := 6343) (by decide)
  have htree : TreeKnown sampleTemplates sampleKnown [100] := treeKnown_sample (by decide)
  simp only [WithdrawWitness.preimages, spendPreimages, List.forall_mem_cons]
  refine ⟨note_runWitness ▸ ⟨.note, trivial, rfl⟩, ⟨.output, trivial, rfl⟩,
    ⟨.nullifier 100 0, ⟨.inl rfl, by decide⟩, ?_⟩, ?_⟩
  · change nullifierPreimage ((100 : ℕ) : F) 0 (toField 6343) (toField 7) = _
    rw [hthis, hchain, ← Nat.cast_zero]
    rfl
  · unfold Circuit.V12.pathPreimages
    rw [hindex]
    simp only [List.forall_mem_map]
    exact htree.pairs (Nat.two_pow_pos _)

/-- A verifier that accepts the proof of the run. -/
def runVerify : Verify := fun _ publicInputs => decide (publicInputs = runSpend)

theorem accepts_runVerify :
    AcceptsWitnessed (documentedComparators sampleHash) sampleKnown runVerify := by
  intro proof publicInputs h
  obtain rfl := of_decide_eq_true h
  have hfield : runSpend.all fun x => decide (isFieldElement x) := by decide
  exact ⟨fun x hx => of_decide_eq_true (List.all_eq_true.mp hfield x hx),
    .inl ⟨_, run_circuit, run_preimages⟩⟩

/-- A deposit of 0.01 ETH, and a withdrawal of half of it. -/
def runMoves : List (Move Call) :=
  [.call { plainMsg with value := 10000000000000000 } (.deposit 100),
    .call exitMsg (.withdrawNoteBounded (List.replicate 256 0) runSpend 400000000 11
      5000000000000000 [1] 0 16500000000000),
    .returns]

/-- After the withdrawal its change is what is unspent. -/
theorem conservation_v11_spent : ∃ c,
    KnownReachable sampleEnv (documentedComparators sampleHash) sampleKnown c ∧
    c.world.pool.accounting = ⟨16500000000000, 0, 10000000000000000, 4983500000000000⟩ ∧
    insertedCommitments c.world = [100, 2000000] ∧ spentCommitments c.world = [100] ∧
    unspentAmount c.world = 5000000000000000 := by
  have hdeployed : Deployed sampleEnv (freshWorld sampleEnv 10000000000000000) :=
    freshWorld_deployed (by decide) _
  have htree : TreeKnown sampleTemplates sampleKnown
      (insertedCommitments (freshWorld sampleEnv 10000000000000000)) := by
    rw [(tracks_deployed hdeployed).inserted]
    exact treeKnown_sample (by decide)
  obtain ⟨c, hc, hfacts⟩ := Option.map_eq_some_iff.mp (by decide +kernel :
    (play (playMove sampleEnv runVerify)
      (fun w => insertedCommitments w ∈ [[], [100], [100, 2000000]])
      ⟨freshWorld sampleEnv 10000000000000000, []⟩ runMoves).map
        (fun c => (c.world.pool.accounting, insertedCommitments c.world, spentCommitments c.world)) =
      some (⟨16500000000000, 0, 10000000000000000, 4983500000000000⟩, [100, 2000000], [100]))
  have hreach : KnownReachable sampleEnv (documentedComparators sampleHash) sampleKnown c :=
    ⟨_, hdeployed, htree, .of_play (step_of_playMove accepts_runVerify)
      (fun w hw => treeKnown_sample (of_decide_eq_true hw)) hc⟩
  obtain ⟨haccounting, hrest⟩ := Prod.mk.inj hfacts
  obtain ⟨hinserted, hspent⟩ := Prod.mk.inj hrest
  obtain ⟨-, -, hvalue⟩ := (conservation_v11 (t := documentedComparators sampleHash)
    known_sample.injective samePoseidon_sample (documented_documentedTemplates sampleHash) hreach).1
  rw [haccounting] at hvalue
  dsimp only at hvalue
  exact ⟨c, hreach, haccounting, hinserted, hspent, by omega⟩

end Nullark.PoolV11.Conservation
