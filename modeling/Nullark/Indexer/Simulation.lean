import Nullark.Indexer.Reingest
import Nullark.Pool.Announcements

/-! # The indexer follows the pool

The logs of a run of the pool, whatever calls were nested in it, take the indexer to the roots, the
nullifiers, the leaves and the notes of the pool.

* `abiEvent`, `Emitted`: the logs of the pool as they come to the indexer.
* `ingestAll_isOk`: batches that are accepted go through.
* `indexed_indexAfter`: the leaves of the notes are put in their places.
* `indexer_simulates`: the indexer at the end of any run of the pool. -/

namespace Nullark.Indexer.Simulation

open Nullark.Lib.Outcome Nullark.Lib.Hex Nullark.Lib.Ordered Nullark.Lib.Rollback
open Nullark.Lib.Merkle.Tree Nullark.Lib.Binary64
open Nullark.Evm.Basic Nullark.Pool.Interface Nullark.Pool.Context Nullark.Pool.Tree
open Nullark.Pool Nullark.Pool.Actions Nullark.Pool.Calls Nullark.Pool.Effects
open Nullark.Pool.History Nullark.Pool.NoteLogs
open Nullark.Pool.Announcements
open Nullark.Js.Basic Nullark.Js.Bytes
open Nullark.Indexer.EncryptedNotes Nullark.Indexer.MerklePaths Nullark.Indexer.Ranges
open Nullark.Indexer.LogIngest Nullark.Indexer.Accepted Nullark.Indexer.Reingest

/-! ### The logs of the pool -/

/-- **An event as `decodeEventLog` returns it**, if its kind is in `POOL_EVENT_ABI`. -/
def abiEvent : Event → Option PoolEvent
  | .depositNoteCreated commitment leafIndex encryptedNote encryptionVersion =>
    some (.depositNoteCreated (hex32 commitment) leafIndex (hexText encryptedNote)
      encryptionVersion)
  | .privateTransferNoteCreated commitment nullifier leafIndex encryptedNote encryptionVersion =>
    some (.privateTransferNoteCreated (hex32 commitment) (hex32 nullifier) leafIndex
      (hexText encryptedNote) encryptionVersion)
  | .withdrawalOutputNoteCreated commitment nullifier leafIndex grossAmount encryptedNote
      encryptionVersion =>
    some (.withdrawalOutputNoteCreated (hex32 commitment) (hex32 nullifier) leafIndex
      grossAmount.toNat (hexText encryptedNote) encryptionVersion)
  | .nullifierSpent nullifier => some (.nullifierSpent (hex32 nullifier))
  | .rootAccepted root previousRoot insertedCommitment =>
    some (.rootAccepted (hex32 root) (hex32 previousRoot) (hex32 insertedCommitment))
  | .rootExpired root => some (.rootExpired (hex32 root))
  | _ => none

/-- **The logs of the events** of those kinds, in their order: each is a log of the pool, and decoding
it gives the event back. -/
def Emitted (decodeEventLog : DecodeEventLog) (pool : Text) (logs : List RawPoolLog)
    (events : List Event) : Prop :=
  List.Forall₂ (fun log event => lower log.address = lower pool ∧
    decodeEventLog log.topics log.data = .ok event) logs (events.filterMap abiEvent)

section Logs
variable {decodeEventLog : DecodeEventLog} {pool : Text} {log : RawPoolLog}
  {logs : List RawPoolLog} {events : List Event} {e : Event}

theorem readLog_eq_ok {event : PoolEvent} : readLog decodeEventLog pool log = some (.ok event) ↔
    lower log.address = lower pool ∧ decodeEventLog log.topics log.data = .ok event := by
  unfold readLog
  by_cases h : lower log.address = lower pool
  · rw [if_neg (not_not.mpr h)]
    simp [h]
  · rw [if_pos h]
    simp [h]

/-- Every log is the log of an event. -/
theorem exists_of_emitted : ∀ {logs : List RawPoolLog} {listed : List PoolEvent},
    List.Forall₂ (fun log event => lower log.address = lower pool ∧
      decodeEventLog log.topics log.data = .ok event) logs listed →
    ∀ log ∈ logs, ∃ event ∈ listed, readLog decodeEventLog pool log = some (.ok event)
  | _, _, .nil, log, hlog => absurd hlog List.not_mem_nil
  | _, _, .cons hfirst hrest, log, hlog => by
    rcases List.mem_cons.mp hlog with rfl | hlog
    · exact ⟨_, List.mem_cons_self, readLog_eq_ok.mpr hfirst⟩
    · obtain ⟨event, hevent, hread⟩ := exists_of_emitted hrest log hlog
      exact ⟨event, List.mem_cons_of_mem _ hevent, hread⟩

theorem Emitted.read (h : Emitted decodeEventLog pool logs events) (hlog : log ∈ logs) :
    ∃ e ∈ events, ∃ event, abiEvent e = some event ∧
      readLog decodeEventLog pool log = some (.ok event) := by
  obtain ⟨event, hevent, hread⟩ := exists_of_emitted h log hlog
  obtain ⟨e, he, hevent⟩ := List.mem_filterMap.mp hevent
  exact ⟨e, he, event, hevent, hread⟩

/-- An event of no listed kind has no log. -/
theorem emitted_cons_of_none (he : abiEvent e = none) :
    Emitted decodeEventLog pool logs (e :: events) ↔ Emitted decodeEventLog pool logs events := by
  unfold Emitted
  rw [List.filterMap_cons_none he]

/-- An event of a listed kind has the first log. -/
theorem emitted_cons_of_some {event : PoolEvent} (he : abiEvent e = some event)
    (h : Emitted decodeEventLog pool logs (e :: events)) :
    ∃ log rest, logs = log :: rest ∧ readLog decodeEventLog pool log = some (.ok event) ∧
      Emitted decodeEventLog pool rest events := by
  unfold Emitted at h
  rw [List.filterMap_cons_some he, List.forall₂_cons_right_iff] at h
  obtain ⟨log, rest, hread, hrest, rfl⟩ := h
  exact ⟨log, rest, rfl, readLog_eq_ok.mpr hread, hrest⟩

/-- **What the logs say last** is what the events say last. -/
theorem lastWrite_emitted {V V' : Type} {write : RawPoolLog → Text → Option V}
    {mark : Event → Bytes32 → Option V'} {f : V → V'} (r : Bytes32)
    (hnone : ∀ e, abiEvent e = none → mark e r = none)
    (hsome : ∀ log e event, abiEvent e = some event →
      readLog decodeEventLog pool log = some (.ok event) → (write log (hex32 r)).map f = mark e r) :
    ∀ {events : List Event} {logs : List RawPoolLog}, Emitted decodeEventLog pool logs events →
    (lastWrite write logs (hex32 r)).map f = lastWrite mark events r
  | [], logs, h => by
    rw [List.forall₂_nil_right_iff.mp h]
    rfl
  | e :: events, logs, h => by
    rcases he : abiEvent e with _ | event
    · rw [lastWrite, hnone e he, Option.or_none]
      exact lastWrite_emitted r hnone hsome ((emitted_cons_of_none he).mp h)
    · obtain ⟨log, rest, rfl, hread, hrest⟩ := emitted_cons_of_some he h
      rw [lastWrite, lastWrite, Option.map_or, lastWrite_emitted r hnone hsome hrest,
        hsome log e event he hread]

theorem hex32_eq_lower {r r' : Bytes32} : hex32 r = lower (hex32 r') ↔ r = r' := by
  rw [lower_hex32]
  exact hex32_injective.eq_iff

/-- The last word on a root. -/
theorem lastWrite_roots (h : Emitted decodeEventLog pool logs events) (r : Bytes32) :
    (lastWrite (rootWrite decodeEventLog pool) logs (hex32 r)).map (fun v => v.1.isSome) =
      lastWrite rootMark events r := by
  refine lastWrite_emitted r (fun e he => ?_) (fun log e event he hread => ?_) h
  · cases e with
    | rootAccepted | rootExpired => cases he
    | _ => rfl
  · unfold rootWrite
    rw [hread]
    cases e with
    | rootAccepted | rootExpired =>
      cases he
      simp only [hex32_eq_lower, rootMark]
      split_ifs <;> rfl
    | _ => cases he <;> rfl

/-- The last word on a nullifier. -/
theorem lastWrite_nullifiers (h : Emitted decodeEventLog pool logs events) (n : Bytes32) :
    (lastWrite (nullifierWrite decodeEventLog pool) logs (hex32 n)).isSome ↔
      n ∈ events.filterMap nullifierOf := by
  have hlast : (lastWrite (nullifierWrite decodeEventLog pool) logs (hex32 n)).map (fun _ => ()) =
      lastWrite (fun e m => if nullifierOf e = some m then some () else none) events n := by
    refine lastWrite_emitted n (fun e he => ?_) (fun log e event he hread => ?_) h
    · cases e with
      | nullifierSpent => cases he
      | _ => rfl
    · unfold nullifierWrite
      rw [hread]
      cases e with
      | nullifierSpent nullifier =>
        cases he
        simp only [hex32_eq_lower, nullifierOf, Option.some.injEq, eq_comm (b := n)]
        split_ifs <;> rfl
      | _ => cases he <;> rfl
  rw [← Option.isSome_map (f := fun _ => ()), hlast, ← Option.ne_none_iff_isSome, Ne,
    lastWrite_eq_none, List.mem_filterMap]
  simp

/-- Whatever a log says, it says of a word. -/
theorem key_of_rootWrite (h : Emitted decodeEventLog pool logs events) {key : Text}
    {v : Option RootRecord × Option RootExpiredRecord}
    (hv : lastWrite (rootWrite decodeEventLog pool) logs key = some v) : ∃ r, key = hex32 r := by
  obtain ⟨log, hlog, hwrite⟩ := exists_of_lastWrite _ hv
  obtain ⟨e, -, event, he, hread⟩ := h.read hlog
  unfold rootWrite at hwrite
  rw [hread] at hwrite
  cases e with
  | rootAccepted | rootExpired =>
    cases he
    dsimp only at hwrite
    split_ifs at hwrite with hkey
    exact ⟨_, hkey.trans (lower_hex32 _)⟩
  | _ => cases he <;> cases hwrite

theorem key_of_nullifierWrite (h : Emitted decodeEventLog pool logs events) {key : Text}
    {v : NullifierRecord}
    (hv : lastWrite (nullifierWrite decodeEventLog pool) logs key = some v) :
    ∃ r, key = hex32 r := by
  obtain ⟨log, hlog, hwrite⟩ := exists_of_lastWrite _ hv
  obtain ⟨e, -, event, he, hread⟩ := h.read hlog
  unfold nullifierWrite at hwrite
  rw [hread] at hwrite
  cases e with
  | nullifierSpent =>
    cases he
    dsimp only at hwrite
    split_ifs at hwrite with hkey
    exact ⟨_, hkey.trans (lower_hex32 _)⟩
  | _ => cases he <;> cases hwrite

/-- **The notes of the logs** are the notes of the events. -/
theorem notesOf_emitted : ∀ {events : List Event} {logs : List RawPoolLog},
    Emitted decodeEventLog pool logs events →
    (notesOf decodeEventLog pool logs).map (fun args => (args.commitment, args.leafIndex)) =
        (noteLogs events).map (fun x => (hex32 x.1, x.2)) ∧
      ∀ args ∈ notesOf decodeEventLog pool logs, isHexString args.encryptedNote
  | [], logs, h => by
    rw [List.forall₂_nil_right_iff.mp h]
    exact ⟨rfl, fun _ hargs => absurd hargs List.not_mem_nil⟩
  | e :: events, logs, h => by
    rcases he : abiEvent e with _ | event
    · have hnone : Pool.NoteLogs.noteOf e = none := by
        cases e with
        | depositNoteCreated | privateTransferNoteCreated | withdrawalOutputNoteCreated => cases he
        | _ => rfl
      obtain ⟨hmap, hhex⟩ := notesOf_emitted ((emitted_cons_of_none he).mp h)
      refine ⟨?_, hhex⟩
      rw [hmap, noteLogs, noteLogs, List.filterMap_cons_none hnone]
    · obtain ⟨log, rest, rfl, hread, hrest⟩ := emitted_cons_of_some he h
      obtain ⟨hmap, hhex⟩ := notesOf_emitted hrest
      have hnote := noteOfLog_of_ok hread
      have hboth : (Indexer.LogIngest.noteOf event).map (fun args => (args.commitment, args.leafIndex)) =
            (Pool.NoteLogs.noteOf e).map (fun x => (hex32 x.1, x.2)) ∧
          ∀ args ∈ Indexer.LogIngest.noteOf event, isHexString args.encryptedNote := by
        cases e with
        | depositNoteCreated | privateTransferNoteCreated | withdrawalOutputNoteCreated =>
          cases he
          refine ⟨rfl, fun args hargs => ?_⟩
          cases hargs
          exact isHexString_hexText _
        | _ => cases he <;> exact ⟨rfl, fun _ hargs => (nomatch hargs)⟩
      rcases hargs : Indexer.LogIngest.noteOf event with _ | args
      · rw [hargs] at hnote hboth
        have hnone : Pool.NoteLogs.noteOf e = none := Option.map_eq_none_iff.mp hboth.1.symm
        rw [notesOf, List.filterMap_cons_none hnote, noteLogs, List.filterMap_cons_none hnone]
        exact ⟨hmap, hhex⟩
      · rw [hargs] at hnote hboth
        obtain ⟨x, hx, hpair⟩ := Option.map_eq_some_iff.mp hboth.1.symm
        rw [notesOf, List.filterMap_cons_some hnote, noteLogs, List.filterMap_cons_some hx,
          List.map_cons, List.map_cons, hpair]
        exact ⟨congrArg _ hmap, List.forall_mem_cons.mpr ⟨hboth.2 args rfl, hhex⟩⟩

end Logs

/-! ### Batches that are accepted -/

section Batches
variable {decodeEventLog : DecodeEventLog} {pool : Text}

/-- The leaf a record names. -/
def recordLeaf (r : EncryptedNoteEventRecord) : Text × Number := (r.commitment, r.leafIndex)

/-- The leaf a note names, as its record does. -/
def noteLeaf (args : NoteArgs) : Text × Number :=
  (args.commitment, Lib.Binary64.round args.leafIndex)

theorem recordLeaf_recordsOf (input : IngestInput) : ∀ logs : List RawPoolLog,
    (recordsOf decodeEventLog input logs).map recordLeaf =
      (notesOf decodeEventLog input.pool logs).map noteLeaf
  | [] => rfl
  | log :: logs => by
    have ih := recordLeaf_recordsOf input logs
    unfold recordsOf notesOf at ih ⊢
    rcases hnote : noteOfLog decodeEventLog input.pool log with _ | args
    · rw [List.filterMap_cons_none hnote, List.filterMap_cons_none (by rw [hnote]; rfl), ih]
    · rw [List.filterMap_cons_some hnote, List.filterMap_cons_some (by rw [hnote]; rfl),
        List.map_cons, List.map_cons, ih]
      rfl

theorem notesOf_append (logs logs' : List RawPoolLog) : notesOf decodeEventLog pool (logs ++ logs') =
    notesOf decodeEventLog pool logs ++ notesOf decodeEventLog pool logs' :=
  List.filterMap_append

/-- **Batches go through** if the state accepts their logs, in whatever way they are split. -/
theorem ingestAll_isOk : ∀ {inputs : List IngestInput} {state : IndexerState},
    (∀ b ∈ inputs, b.pool = pool ∧ b.checkedRange.fromBlock ≤ b.checkedRange.toBlock) →
    Tidy state.ranges →
    AcceptsLogs decodeEventLog pool state.merklePaths (inputs.flatMap IngestInput.logs) →
    ∃ state', ingestAll decodeEventLog state inputs = (state', .ok ()) ∧
      state'.merklePaths = indexAfter state.merklePaths
        (notesOf decodeEventLog pool (inputs.flatMap IngestInput.logs)) ∧
      state'.encryptedNotes.records.map recordLeaf = state.encryptedNotes.records.map recordLeaf ++
        (notesOf decodeEventLog pool (inputs.flatMap IngestInput.logs)).map noteLeaf
  | [], state, _, _, _ => ⟨state, rfl, rfl, (List.append_nil _).symm⟩
  | b :: inputs, state, hinputs, htidy, haccepts => by
    obtain ⟨⟨hpool, hvalid⟩, hrest⟩ := List.forall_mem_cons.mp hinputs
    rw [List.flatMap_cons, ← hpool] at haccepts
    obtain ⟨last, hlast⟩ := ingestLogs_isOk.mpr haccepts
    rw [forEach_append, andThen_eq_ok] at hlast
    obtain ⟨mid, ⟨⟩, hmid, hlast⟩ := hlast
    have haccepts' : AcceptsLogs decodeEventLog pool mid.merklePaths
        (inputs.flatMap IngestInput.logs) := by
      rw [← hpool]
      exact ingestLogs_isOk.mp ⟨last, hlast⟩
    obtain ⟨hpaths, hrecords, hranges⟩ := ingestLogs_notes hmid
    rw [hpool] at hpaths
    obtain ⟨ranges, hmark, htidy', -⟩ := markCheckedRange_spec htidy hvalid
    have hbatch : ingestPoolLogs decodeEventLog state b = ({ mid with ranges }, .ok ()) :=
      ingestPoolLogs_eq_ok.mpr ⟨mid, ranges, hmid, by rw [hranges]; exact hmark, rfl⟩
    have htidyNext : Tidy (IndexerState.ranges { mid with ranges }) := htidy'
    obtain ⟨state', hok, hpaths', hrecords'⟩ := ingestAll_isOk hrest htidyNext haccepts'
    refine ⟨state', forEach_cons_eq_ok.mpr ⟨_, hbatch, hok⟩, ?_, ?_⟩
    · rw [hpaths', List.flatMap_cons, notesOf_append]
      change indexAfter mid.merklePaths _ = _
      rw [hpaths, indexAfter, indexAfter, indexAfter, List.foldl_append]
    · rw [hrecords', List.flatMap_cons, notesOf_append, List.map_append, ← List.append_assoc]
      refine congrArg (· ++ _) ?_
      rw [hrecords, List.map_append, recordLeaf_recordsOf, hpool]

end Batches

/-! ### The leaves in their places -/

section Leaves
variable {poseidon2 : Bytes32 → Bytes32 → Bytes32} {leaves : List Bytes32}

/-- The note names a leaf of the list. -/
def NamesLeaf (leaves : List Bytes32) (args : NoteArgs) : Prop :=
  ∃ c, leaves[args.leafIndex]? = some c ∧ args.commitment = hex32 c

/-- **The index after notes that name leaves** holds these leaves. -/
theorem indexed_indexAfter (hnodup : leaves.Nodup) : ∀ {notes : List NoteArgs}
    {index : MerklePathIndex} {held : ℕ → Option Bytes32}, Indexed poseidon2 index held →
    LeavesOf leaves held → leaves.length ≤ 2 ^ index.depth →
    (∀ args ∈ notes, NamesLeaf leaves args) →
    ∃ index' held', indexAfter (some index) notes = some index' ∧
      Indexed poseidon2 index' held' ∧ index'.depth = index.depth ∧ LeavesOf leaves held' ∧
      (∀ i c, held i = some c → held' i = some c) ∧
      ∀ args ∈ notes, (held' args.leafIndex).isSome
  | [], index, held, h, hsub, _, _ =>
    ⟨index, held, rfl, h, rfl, hsub, fun _ _ hc => hc, fun _ hargs => absurd hargs List.not_mem_nil⟩
  | args :: notes, index, held, h, hsub, hroom, hnotes => by
    obtain ⟨⟨c, hc, hcommitment⟩, hrest⟩ := List.forall_mem_cons.mp hnotes
    have hlt : args.leafIndex < leaves.length := (List.getElem?_eq_some_iff.mp hc).1
    obtain ⟨next, hinsert, hnext, hdepth⟩ := insertIndexedCommitment_spec h (hlt.trans_le hroom)
      (fun c' hc' => Option.some.inj ((hsub _ c' hc').symm.trans hc))
      (fun j hj => ((List.getElem?_inj hlt hnodup).mp (hc.trans (hsub j c hj).symm)).symm)
    have heq : next = withLeaf index args.commitment args.leafIndex := by
      rw [hcommitment]
      exact (insertIndexedCommitment_eq_ok.mp hinsert).2.2.2.2
    obtain ⟨index', held', hindex, h', hdepth', hsub', hkeep, hput⟩ :=
      indexed_indexAfter hnodup hnext (leavesOf_update hsub hc) (by rw [hdepth]; exact hroom) hrest
    refine ⟨index', held', ?_, h', hdepth'.trans hdepth, hsub', fun i c' hi => ?_, fun a ha => ?_⟩
    · rw [← hindex, heq]
      rfl
    · by_cases hij : i = args.leafIndex
      · rw [hij, hkeep args.leafIndex c (Function.update_self ..), ← hc, ← hij]
        exact hsub i c' hi
      · exact hkeep i c' (by rw [Function.update_of_ne hij, hi])
    · rcases List.mem_cons.mp ha with rfl | ha
      · rw [hkeep _ c (Function.update_self ..)]
        rfl
      · exact hput a ha

end Leaves

/-! ### The end of a run -/

/-- **The path of the leaf `i`**, from the commitment to the root. -/
structure PathTo (poseidon2 : Bytes32 → Bytes32 → Bytes32) (c : Bytes32) (i : ℕ)
    (currentRoot : Bytes32) (r : MerklePathResult) : Prop where
  leafIndex : r.leafIndex = i
  root : r.root = hex32 currentRoot
  pathIndices : r.pathIndices = (indexBits i merkleTreeDepth).map (Nat.cast : ℕ → ℤ)
  climbs : ∃ path : List Bytes32, path.length = merkleTreeDepth ∧
    r.pathElements = path.map hex32 ∧ climb poseidon2 c i path = currentRoot

/-- **The indexer has what the pool has.** -/
structure Simulates (env : Env) (w : World) (state : IndexerState) : Prop where
  roots : ∀ key, (get state.roots key).isSome ↔
    ∃ r, key = hex32 r ∧ w.pool.roots.acceptedRoots r
  nullifiers : ∀ key, (get state.nullifiers key).isSome ↔
    ∃ n, key = hex32 n ∧ w.pool.nullifiers n
  inserted : ∀ c, w.pool.commitments c ↔ c ∈ leavesOf w
  paths : ∃ index, state.merklePaths = some index ∧ ∀ (i : ℕ) c, (leavesOf w)[i]? = some c →
    get index.indexByCommitment (hex32 c) = some (i : ℤ) ∧
      ∃ index' r, getMerklePathForCommitment index (hex32 c) = .ok (index', r) ∧
        PathTo env.poseidon2 c i w.pool.roots.currentRoot r
  records : (state.encryptedNotes.records.map recordLeaf).Perm
    ((leavesOf w).zipIdx.map fun x => (hex32 x.1, Lib.Binary64.round x.2))

section Run
variable {env : Env} {decodeEventLog : DecodeEventLog} {pool : Text} {w : World}
  {logs : List RawPoolLog}

/-- The notes of the logs name the leaves, each of them once. -/
theorem noteLogs_perm (h : Announced env w []) :
    (noteLogs w.logs).Perm (leavesOf w).zipIdx := by
  have hnotes : notes w [] = noteLogs w.logs := List.append_nil _
  have hnodup := h.numbered.nodup
  have hcount := h.count
  have hleaf := h.numbered.leaf
  rw [hnotes] at hnodup hcount hleaf
  refine (List.subperm_of_subset hnodup.of_map fun x hx => ?_).perm_of_length_le ?_
  · exact List.mem_zipIdx_iff_getElem?.mpr (hleaf x hx)
  · rw [List.length_zipIdx, hcount]

theorem namesLeaf_of_emitted (h : Announced env w []) (he : Emitted decodeEventLog pool logs w.logs)
    {args : NoteArgs} (hargs : args ∈ notesOf decodeEventLog pool logs) :
    NamesLeaf (leavesOf w) args := by
  have hmem := List.mem_map_of_mem (f := fun args : NoteArgs => (args.commitment, args.leafIndex))
    hargs
  rw [(notesOf_emitted he).1] at hmem
  obtain ⟨x, hx, heq⟩ := List.mem_map.mp hmem
  obtain ⟨hcommitment, hleafIndex⟩ := Prod.mk.inj heq
  have hleaf := h.numbered.leaf x (List.mem_append_left _ hx)
  exact ⟨x.1, hleafIndex ▸ hleaf, hcommitment.symm⟩

/-- **An empty index accepts the logs of a run.** -/
theorem acceptsLogs_of_emitted (h : Announced env w [])
    (he : Emitted decodeEventLog pool logs w.logs) {index : MerklePathIndex}
    (hdepth : index.depth = merkleTreeDepth) (hempty : index.indexByCommitment = [])
    (hfree : index.leavesByIndex = []) : AcceptsLogs decodeEventLog pool (some index) logs := by
  have hfits : (leavesOf w).length ≤ merkleTreeCapacity := h.numbered.tracks.recorded.grown.fits
  refine ⟨fun log hlog error herror => ?_, (notesOf_emitted he).2, fun args hargs index' hindex => ?_,
    fun _ => List.pairwise_of_forall_mem_list fun args hargs args' hargs' => ?_⟩
  · obtain ⟨e, -, event, -, hread⟩ := he.read hlog
    rw [hread] at herror
    cases herror
  · obtain ⟨c, hc, -⟩ := namesLeaf_of_emitted h he hargs
    have hlt : args.leafIndex < merkleTreeCapacity :=
      (List.getElem?_eq_some_iff.mp hc).1.trans_le hfits
    have hsafe : merkleTreeCapacity ≤ maxSafeInteger := by decide
    have hcapacity : 2 ^ index.depth = merkleTreeCapacity := by rw [hdepth]; rfl
    rw [← Option.mem_some_iff.mp hindex]
    refine ⟨hlt.le.trans hsafe, by rw [hcapacity]; exact hlt, ?_, ?_⟩
    · rw [hempty]
      exact fun _ hexisting => (nomatch hexisting)
    · rw [hfree]
      exact fun _ hexisting => (nomatch hexisting)
  · obtain ⟨c, hc, hcommitment⟩ := namesLeaf_of_emitted h he hargs
    obtain ⟨c', hc', hcommitment'⟩ := namesLeaf_of_emitted h he hargs'
    unfold Agree
    rw [hcommitment, hcommitment', lower_hex32, lower_hex32, hex32_injective.eq_iff]
    constructor
    · rintro rfl
      exact (List.getElem?_inj (List.getElem?_eq_some_iff.mp hc).1 h.numbered.tracks.nodup).mp
        (hc.trans hc'.symm)
    · intro heq
      rw [heq, hc', Option.some.injEq] at hc
      exact hc.symm

/-- The roots after the logs. -/
theorem roots_of_emitted (h : Announced env w []) (he : Emitted decodeEventLog pool logs w.logs)
    {state : IndexerState} (hroots : ∀ key, state.rootAt key =
      (lastWrite (rootWrite decodeEventLog pool) logs key).getD (none, none)) (key : Text) :
    (get state.roots key).isSome ↔ ∃ r, key = hex32 r ∧ w.pool.roots.acceptedRoots r := by
  have hget : get state.roots key =
      ((lastWrite (rootWrite decodeEventLog pool) logs key).getD (none, none)).1 := by
    rw [← hroots key]
    rfl
  constructor
  · intro hsome
    rcases hlast : lastWrite (rootWrite decodeEventLog pool) logs key with _ | v
    · rw [hget, hlast] at hsome
      cases hsome
    · obtain ⟨r, rfl⟩ := key_of_rootWrite he hlast
      refine ⟨r, rfl, ?_⟩
      rw [h.roots r, ← lastWrite_roots he r, hlast]
      rw [hget, hlast] at hsome
      exact hsome
  · rintro ⟨r, rfl, haccepted⟩
    rw [h.roots r, ← lastWrite_roots he r] at haccepted
    rw [hget]
    rcases hlast : lastWrite (rootWrite decodeEventLog pool) logs (hex32 r) with _ | v
    · rw [hlast] at haccepted
      cases haccepted
    · rw [hlast] at haccepted
      exact haccepted

theorem nullifiers_of_emitted (h : Announced env w [])
    (he : Emitted decodeEventLog pool logs w.logs) {state : IndexerState}
    (hnullifiers : ∀ key, get state.nullifiers key =
      lastWrite (nullifierWrite decodeEventLog pool) logs key) (key : Text) :
    (get state.nullifiers key).isSome ↔ ∃ n, key = hex32 n ∧ w.pool.nullifiers n := by
  have hspent : ∀ n, w.pool.nullifiers n ↔ n ∈ w.logs.filterMap nullifierOf := fun n => by
    rw [h.nullifiers n]
    simp
  rw [hnullifiers key]
  constructor
  · intro hsome
    obtain ⟨v, hv⟩ := Option.isSome_iff_exists.mp hsome
    obtain ⟨n, rfl⟩ := key_of_nullifierWrite he hv
    exact ⟨n, rfl, (hspent n).mpr ((lastWrite_nullifiers he n).mp hsome)⟩
  · rintro ⟨n, rfl, hn⟩
    exact (lastWrite_nullifiers he n).mpr ((hspent n).mp hn)

/-- **The paths** of an index that holds all leaves. -/
theorem pathTo_of_indexed (htracks : Tracks env w (leavesOf w)) {index : MerklePathIndex}
    (h : Indexed env.poseidon2 index fun i => (leavesOf w)[i]?)
    (hdepth : index.depth = merkleTreeDepth) {i : ℕ} {c : Bytes32} (hc : (leavesOf w)[i]? = some c) :
    get index.indexByCommitment (hex32 c) = some (i : ℤ) ∧
      ∃ index' r, getMerklePathForCommitment index (hex32 c) = .ok (index', r) ∧
        PathTo env.poseidon2 c i w.pool.roots.currentRoot r := by
  have hsub : LeavesOf (leavesOf w) fun i => (leavesOf w)[i]? := fun _ _ hi => hi
  have hlt : i < (leavesOf w).length := (List.getElem?_eq_some_iff.mp hc).1
  have hroom : i < 2 ^ merkleTreeDepth := hlt.trans_le htracks.recorded.grown.fits
  have hsmall : i < 2 ^ 31 := hroom.trans (by decide)
  obtain ⟨index', r, hok, hpath, -, -⟩ := getMerklePathForCommitment_spec h
    (hsub.field fun x hx => (htracks.field x hx).2) hc hsmall (lower_hex32 c)
  rw [hdepth] at hpath
  have hleaf : padLeaves (fun i => (leavesOf w)[i]?) i = c := by
    change ((leavesOf w)[i]?).getD 0 = c
    rw [hc, Option.getD_some]
  have hroot : node env.poseidon2 (padLeaves fun i => (leavesOf w)[i]?) merkleTreeDepth 0 =
      w.pool.roots.currentRoot := by
    have hpad : (padLeaves fun i => (leavesOf w)[i]?) = padded 0 (leavesOf w) := by
      funext j
      exact (List.getD_eq_getElem?_getD ..).symm
    rw [hpad, htracks.recorded.currentRoot]
    rfl
  refine ⟨(h.indexByCommitment _ _).mpr ⟨i, c, rfl, hc, rfl⟩, index', r, hok, hpath.leafIndex,
    ?_, hpath.pathIndices, _, length_siblings _ _ _ _ _, hpath.pathElements, ?_⟩
  · rw [hpath.root, hroot]
  · rw [← hroot, ← climb_leaf env.poseidon2 hroom, hleaf]

/-- **The indexer simulates the pool.** At the end of every run of the pool, whatever calls were nested
in it, the logs of the listed kinds, in their order and in any batches, go through, and leave the
indexer with the roots, the nullifiers, the leaves and the notes of the pool. -/
theorem indexer_simulates {answers : Answers} {c : Config World (Option Pending)}
    (hreach : Reachable env answers c) (hdone : c.frames = []) {hashPair : HashPair}
    (hsame : SamePairHash env.poseidon2 hashPair) {maxPathCacheEntries : Option ℤ}
    {index : MerklePathIndex}
    (hcreate : createMerklePathIndex merkleTreeDepth (hex32 0) hashPair maxPathCacheEntries =
      .ok index)
    {inputs : List IngestInput}
    (hinputs : ∀ b ∈ inputs, b.pool = pool ∧ b.checkedRange.fromBlock ≤ b.checkedRange.toBlock)
    (hemitted : Emitted decodeEventLog pool (inputs.flatMap IngestInput.logs) c.world.logs) :
    ∃ state, ingestAll decodeEventLog (createIndexerState (some index)) inputs = (state, .ok ()) ∧
      Simulates env c.world state := by
  have hannounced : Announced env c.world [] := by
    have h := announced_reachable hreach
    rwa [hdone] at h
  have htracks := hannounced.numbered.tracks
  have hdepth : 0 < merkleTreeDepth ∧ merkleTreeDepth < 53 := by decide
  obtain ⟨new, hnew, hindexed, hnewDepth⟩ :=
    createMerklePathIndex_spec hsame hdepth maxPathCacheEntries
  obtain rfl : new = index := Except.ok.inj (hnew.symm.trans hcreate)
  have hempty := createMerklePathIndex_of hdepth (hex32 0) hashPair maxPathCacheEntries
  rw [hcreate, Except.ok.injEq] at hempty
  have haccepts : AcceptsLogs decodeEventLog pool (createIndexerState (some new)).merklePaths
      (inputs.flatMap IngestInput.logs) :=
    acceptsLogs_of_emitted hannounced hemitted hnewDepth (by rw [hempty]) (by rw [hempty])
  obtain ⟨state, hok, hpaths, hrecords⟩ := ingestAll_isOk hinputs tidy_create haccepts
  have hlower : ∀ b ∈ inputs, lower b.pool = lower pool := fun b hb => by rw [(hinputs b hb).1]
  obtain ⟨hroots, hnullifiers, -⟩ := ingestAll_facts hlower tidy_create hok
  refine ⟨state, hok, roots_of_emitted hannounced hemitted hroots,
    nullifiers_of_emitted hannounced hemitted fun key => ?_, htracks.commitments, ?_, ?_⟩
  · rw [hnullifiers]
    exact Option.or_none
  · have hnames : ∀ args ∈ notesOf decodeEventLog pool (inputs.flatMap IngestInput.logs),
        NamesLeaf (leavesOf c.world) args := fun _ hargs =>
      namesLeaf_of_emitted hannounced hemitted hargs
    obtain ⟨index', held, hindex, h', hdepth', hsub, -, hput⟩ := indexed_indexAfter htracks.nodup
      hindexed (fun _ _ hc => (nomatch hc))
      (by rw [hnewDepth]; exact htracks.recorded.grown.fits) hnames
    have hall : held = fun i => (leavesOf c.world)[i]? := by
      funext i
      rcases hi : (leavesOf c.world)[i]? with _ | leaf
      · rcases hheld : held i with _ | c'
        · rfl
        · rw [hsub i c' hheld] at hi
          cases hi
      · have hmem : (leaf, i) ∈ noteLogs c.world.logs :=
          (noteLogs_perm hannounced).mem_iff.mpr (List.mem_zipIdx_iff_getElem?.mpr hi)
        have hnote := List.mem_map_of_mem (f := fun x : Bytes32 × ℕ => (hex32 x.1, x.2)) hmem
        rw [← (notesOf_emitted hemitted).1] at hnote
        obtain ⟨args, hargs, heq⟩ := List.mem_map.mp hnote
        have hsome := hput args hargs
        rw [(Prod.mk.inj heq).2] at hsome
        obtain ⟨c', hc'⟩ := Option.isSome_iff_exists.mp hsome
        rw [hc', ← hi, hsub i c' hc']
    rw [hall] at h'
    exact ⟨index', hpaths.trans hindex, fun i c hc =>
      pathTo_of_indexed htracks h' (hdepth'.trans hnewDepth) hc⟩
  · rw [hrecords]
    change ((notesOf decodeEventLog pool (inputs.flatMap IngestInput.logs)).map noteLeaf).Perm _
    have hmap : (notesOf decodeEventLog pool (inputs.flatMap IngestInput.logs)).map noteLeaf =
        (noteLogs c.world.logs).map fun x => (hex32 x.1, Lib.Binary64.round x.2) := by
      have hpairs := congrArg (List.map fun y : Text × ℕ => (y.1, Lib.Binary64.round y.2))
        (notesOf_emitted hemitted).1
      rw [List.map_map, List.map_map] at hpairs
      exact hpairs
    rw [hmap]
    exact (noteLogs_perm hannounced).map _

end Run

/-! ### A withdrawal that is re-entered -/

/-- A log without data. -/
def topicLog (topics : List Text) (logIndex : ℕ) : RawPoolLog := sampleLog topics ['0', 'x'] logIndex

/-- The logs of the constructor, of two deposits, and of a withdrawal whose destination transfers a
note before it returns, in three batches. The transfer announces the last leaf, then the withdrawal
the one before it. -/
def reentrantInputs : List IngestInput :=
  [sampleInput [topicLog [rootAcceptedTopic, hex32 0, hex32 0, hex32 0] 0],
    sampleInput [topicLog [rootAcceptedTopic, hex32 5, hex32 0, hex32 5] 1,
      sampleLog [depositNoteCreatedTopic, hex32 5, hex32 0] sampleNoteData 3,
      topicLog [rootAcceptedTopic, hex32 5, hex32 5, hex32 6] 4,
      sampleLog [depositNoteCreatedTopic, hex32 6, hex32 1] sampleNoteData 6],
    sampleInput [topicLog [rootAcceptedTopic, hex32 5, hex32 5, hex32 8] 7,
      topicLog [rootAcceptedTopic, hex32 5, hex32 5, hex32 9] 8,
      topicLog [nullifierSpentTopic, hex32 22] 9,
      sampleLog [privateTransferNoteCreatedTopic, hex32 9, hex32 22, hex32 3] sampleTransferData 11,
      topicLog [nullifierSpentTopic, hex32 21] 12,
      sampleLog [withdrawalOutputNoteCreatedTopic, hex32 8, hex32 21, hex32 2] sampleOutputData 14]]

/-- What the run emits. -/
def reentrantEvents : List Event :=
  [.rootAccepted 0 0 0, .rootAccepted 5 0 5, .depositCommitmentInserted 5 5000000000000000,
    .depositNoteCreated 5 0 [1, 2, 3] 1, .rootAccepted 5 5 6,
    .depositCommitmentInserted 6 5000000000000000, .depositNoteCreated 6 1 [1, 2, 3] 1,
    .rootAccepted 5 5 8, .rootAccepted 5 5 9, .nullifierSpent 22,
    .privateTransferCommitmentInserted 9 22, .privateTransferNoteCreated 9 22 3 [1, 2, 3] 2,
    .nullifierSpent 21, .withdrawalOutputCommitmentInserted 8 21 5000000000000000,
    .withdrawalOutputNoteCreated 8 21 2 5000000000000000 [1, 2, 3] 2,
    .protocolFeesAccrued 16500000000000,
    .withdrawalExecuted 11 5000000000000000 4983500000000000 16500000000000]

theorem emitted_reentrant :
    Emitted sampleDecode samplePool (reentrantInputs.flatMap IngestInput.logs) reentrantEvents := by
  have hlogs : (reentrantInputs.flatMap IngestInput.logs).map
      (fun log => (lower log.address, sampleDecode log.topics log.data)) =
        (reentrantEvents.filterMap abiEvent).map fun event => (lower samplePool, .ok event) := by
    decide +kernel
  refine List.forall₂_iff_get.mpr ⟨?_, fun i h h' => ?_⟩
  · have hlength := congrArg List.length hlogs
    rwa [List.length_map, List.length_map] at hlength
  · have hget := congrArg (·[i]?) hlogs
    simp only [List.getElem?_map, List.getElem?_eq_getElem h, List.getElem?_eq_getElem h',
      Option.map_some, Option.some.injEq, Prod.mk.injEq] at hget
    exact hget

/-- The indexer after a withdrawal whose destination transfers another note. -/
theorem indexer_simulates_reentrant : ∃ (c : Config World (Option Pending)) (state : IndexerState),
    Reachable plainEnv (fun _ => True) c ∧ leavesOf c.world = [5, 6, 8, 9] ∧
      ingestAll sampleDecode (createIndexerState (some ⟨merkleTreeDepth, hex32 0, fun left _ => left,
        [], [], none, [], 256⟩)) reentrantInputs = (state, .ok ()) ∧
      Simulates plainEnv c.world state := by
  obtain ⟨c, hreach, hfacts⟩ := @exists_plainPlay (fun _ => True) trivial _ 5
    (fun c => (leavesOf c.world, c.frames.length, c.world.logs)) ([5, 6, 8, 9], 0, reentrantEvents)
    (by decide +kernel)
  obtain ⟨hleaves, hrest⟩ := Prod.mk.inj hfacts
  obtain ⟨hframes, hlogs⟩ := Prod.mk.inj hrest
  have hpair : SamePairHash plainEnv.poseidon2 fun left _ => left :=
    ⟨fun _ _ hl _ => hl, fun _ _ _ _ => rfl⟩
  have hdepth : 0 < merkleTreeDepth ∧ merkleTreeDepth < 53 := by decide
  have hinputs : ∀ b ∈ reentrantInputs,
      b.pool = samplePool ∧ b.checkedRange.fromBlock ≤ b.checkedRange.toBlock := by
    intro b hb
    simp only [reentrantInputs, List.mem_cons, List.not_mem_nil, or_false] at hb
    rcases hb with rfl | rfl | rfl <;> exact ⟨rfl, le_rfl⟩
  obtain ⟨state, hok, hsimulates⟩ := indexer_simulates hreach
    (List.eq_nil_of_length_eq_zero hframes) hpair (createMerklePathIndex_of hdepth (hex32 0) _ none)
    hinputs (hlogs ▸ emitted_reentrant)
  exact ⟨c, state, hreach, hleaves, hok, hsimulates⟩

end Nullark.Indexer.Simulation
