import Nullark.Indexer.LogIngest

/-! # The logs that are accepted

A list of logs goes through exactly if every log of the pool can be decoded, every payload is hex,
and the leaves of the notes fit the index and each other.

* `ingestNote_eq_ok`, `fits_withLeaf`: one note.
* `ingestLogs_isOk`: when all logs go through.
* `ingestLogs_notes`, `rootAt_ingestLogs`, `nullifiers_ingestLogs`: what they leave. -/

namespace Nullark.Indexer.Accepted

open Nullark.Lib.Outcome Nullark.Lib.Hex Nullark.Lib.Ordered Nullark.Lib.Binary64
open Nullark.Js.Basic Nullark.Js.Bytes
open Nullark.Indexer.EncryptedNotes Nullark.Indexer.MerklePaths Nullark.Indexer.Ranges
open Nullark.Indexer.LogIngest

/-! ### Which notes are accepted -/

/-- **The leaf of a note fits the index**: its place is free, or it is there already. -/
structure Fits (index : MerklePathIndex) (args : NoteArgs) : Prop where
  safe : args.leafIndex ≤ maxSafeInteger
  capacity : args.leafIndex < 2 ^ index.depth
  commitment : ∀ existing ∈ get index.indexByCommitment (lower args.commitment),
    existing = (args.leafIndex : ℤ)
  place : ∀ existing ∈ get index.leavesByIndex (args.leafIndex : ℤ),
    lower existing = lower args.commitment

/-- Two notes name the same leaf or have neither leaf nor commitment in common. -/
def Agree (args args' : NoteArgs) : Prop :=
  lower args.commitment = lower args'.commitment ↔ args.leafIndex = args'.leafIndex

/-- What the state keeps of a note that is accepted. -/
def withNote (input : IngestInput) (log : RawPoolLog) (state : IndexerState) (args : NoteArgs) :
    IndexerState :=
  { state with
    merklePaths := state.merklePaths.map fun index => withLeaf index args.commitment args.leafIndex
    encryptedNotes := ⟨state.encryptedNotes.records ++ [noteRecord input log args]⟩ }

section Notes
variable {input : IngestInput} {log : RawPoolLog} {state state' : IndexerState} {args : NoteArgs}

theorem insertAcceptedNoteCommitment_eq_ok :
    insertAcceptedNoteCommitment state args.commitment args.leafIndex = .ok (state', ()) ↔
      (∀ index ∈ state.merklePaths, Fits index args) ∧ state' = { state with
        merklePaths := state.merklePaths.map fun index =>
          withLeaf index args.commitment args.leafIndex } := by
  unfold insertAcceptedNoteCommitment
  rcases hpaths : state.merklePaths with _ | index
  · have hstate : { state with merklePaths := none } = state := by rw [← hpaths]
    simp [hstate, eq_comm]
  dsimp only [Option.map_some]
  constructor
  · intro h
    obtain ⟨_, hsafe, ⟨merklePaths, ⟨⟩⟩, hinsert, hret⟩ := by simpa only [bind_eq_ok] using h
    obtain ⟨-, hcapacity, hcommitment, hplace, rfl⟩ := insertIndexedCommitment_eq_ok.mp hinsert
    obtain ⟨rfl, -⟩ := Prod.mk.inj (pure_eq_ok.mp hret)
    refine ⟨fun index' hindex => ?_, rfl⟩
    rw [← Option.mem_some_iff.mp hindex]
    exact ⟨ensure_eq_ok.mp hsafe, by exact_mod_cast hcapacity, hcommitment, hplace⟩
  · rintro ⟨hfits, rfl⟩
    obtain ⟨hsafe, hcapacity, hcommitment, hplace⟩ := hfits index rfl
    rw [ensure_of hsafe, ok_bind, insertIndexedCommitment_eq_ok.mpr
      ⟨Int.natCast_nonneg _, by exact_mod_cast hcapacity, hcommitment, hplace, rfl⟩]
    rfl

/-- **What a note does**: its leaf does not fit, or it fits and stays while the payload is refused, or
all is well. -/
theorem ingestNote_cases (input : IngestInput) (log : RawPoolLog) (state : IndexerState)
    (args : NoteArgs) :
    (∃ error, ingestNote input log state args = (state, .error error) ∧
      ∃ index ∈ state.merklePaths, ¬Fits index args) ∨
    (∃ error, ingestNote input log state args = ({ state with
        merklePaths := state.merklePaths.map fun index =>
          withLeaf index args.commitment args.leafIndex }, .error error) ∧
      (∀ index ∈ state.merklePaths, Fits index args) ∧ ¬isHexString args.encryptedNote) ∨
    ingestNote input log state args = (withNote input log state args, .ok ()) ∧
      (∀ index ∈ state.merklePaths, Fits index args) ∧ isHexString args.encryptedNote := by
  unfold ingestNote
  rcases hinsert : insertAcceptedNoteCommitment state args.commitment args.leafIndex with
    e | ⟨t, ⟨⟩⟩
  · refine .inl ⟨e, rfl, ?_⟩
    by_contra hfits
    push Not at hfits
    rw [insertAcceptedNoteCommitment_eq_ok.mpr ⟨hfits, rfl⟩] at hinsert
    cases hinsert
  obtain ⟨hfits, rfl⟩ := insertAcceptedNoteCommitment_eq_ok.mp hinsert
  dsimp only
  rcases hadd : addEncryptedNoteEvent state.encryptedNotes (noteRecord input log args) with
    e | ⟨cache, ⟨⟩⟩
  · refine .inr (.inl ⟨e, rfl, hfits, fun hhex => ?_⟩)
    rw [addEncryptedNoteEvent_eq_ok.mpr ⟨hhex, rfl⟩] at hadd
    cases hadd
  · obtain ⟨hhex, rfl⟩ := addEncryptedNoteEvent_eq_ok.mp hadd
    exact .inr (.inr ⟨rfl, hfits, hhex⟩)

/-- **A note is accepted** if its leaf fits and its payload is hex. -/
theorem ingestNote_eq_ok : ingestNote input log state args = (state', .ok ()) ↔
    (∀ index ∈ state.merklePaths, Fits index args) ∧ isHexString args.encryptedNote ∧
      state' = withNote input log state args := by
  rcases ingestNote_cases input log state args with ⟨e, h, index, hindex, hno⟩ | ⟨e, h, -, hno⟩ |
    ⟨h, hfits, hhex⟩
  · rw [h]
    exact ⟨nofun, fun hall => absurd (hall.1 index hindex) hno⟩
  · rw [h]
    exact ⟨nofun, fun hall => absurd hall.2.1 hno⟩
  · rw [h]
    exact ⟨fun heq => ⟨hfits, hhex, (Prod.mk.inj heq).1.symm⟩, fun hall => by rw [hall.2.2]⟩

/-- What fits after a leaf has been put in. -/
theorem fits_withLeaf {index : MerklePathIndex} {args args' : NoteArgs} (h : Fits index args) :
    Fits (withLeaf index args.commitment args.leafIndex) args' ↔
      Fits index args' ∧ Agree args args' := by
  have hcommitment : ∀ t, get (withLeaf index args.commitment args.leafIndex).indexByCommitment t =
      if t = lower args.commitment then some (args.leafIndex : ℤ)
      else get index.indexByCommitment t := fun t => get_set _ _ _ _
  have hplace : ∀ k, get (withLeaf index args.commitment args.leafIndex).leavesByIndex k =
      if k = (args.leafIndex : ℤ) then some args.commitment else get index.leavesByIndex k :=
    fun k => get_set _ _ _ _
  constructor
  · intro h'
    have hsame := h'.commitment
    have hthere := h'.place
    rw [hcommitment] at hsame
    rw [hplace] at hthere
    have hagree : Agree args args' := by
      constructor
      · intro heq
        rw [if_pos heq.symm] at hsame
        exact_mod_cast hsame _ rfl
      · intro heq
        rw [if_pos (by rw [heq])] at hthere
        exact hthere _ rfl
    refine ⟨⟨h'.safe, h'.capacity, ?_, ?_⟩, hagree⟩
    · by_cases heq : lower args'.commitment = lower args.commitment
      · rw [heq, ← hagree.mp heq.symm]
        exact h.commitment
      · rwa [if_neg heq] at hsame
    · by_cases heq : (args'.leafIndex : ℤ) = args.leafIndex
      · rw [heq, ← hagree.mpr (by exact_mod_cast heq.symm)]
        exact h.place
      · rwa [if_neg heq] at hthere
  · rintro ⟨h', hagree⟩
    refine ⟨h'.safe, h'.capacity, ?_, ?_⟩
    · rw [hcommitment]
      split_ifs with heq
      · intro existing hexisting
        rw [← Option.mem_some_iff.mp hexisting, hagree.mp heq.symm]
      · exact h'.commitment
    · rw [hplace]
      split_ifs with heq
      · intro existing hexisting
        rw [← Option.mem_some_iff.mp hexisting]
        exact hagree.mpr (by exact_mod_cast heq.symm)
      · exact h'.place

end Notes

/-! ### All logs -/

section Loop
variable {decodeEventLog : DecodeEventLog} {input : IngestInput} {logs : List RawPoolLog}
  {state state' : IndexerState}

/-- The notes of a list of logs. -/
def notesOf (decodeEventLog : DecodeEventLog) (pool : Text) (logs : List RawPoolLog) :
    List NoteArgs :=
  logs.filterMap (noteOfLog decodeEventLog pool)

/-- The records of the notes of a list of logs. -/
def recordsOf (decodeEventLog : DecodeEventLog) (input : IngestInput) (logs : List RawPoolLog) :
    List EncryptedNoteEventRecord :=
  logs.filterMap fun log => (noteOfLog decodeEventLog input.pool log).map (noteRecord input log)

/-- **The logs a state accepts.** -/
structure AcceptsLogs (decodeEventLog : DecodeEventLog) (pool : Text)
    (merklePaths : Option MerklePathIndex) (logs : List RawPoolLog) : Prop where
  decodes : ∀ log ∈ logs, ∀ error, readLog decodeEventLog pool log ≠ some (.error error)
  payload : ∀ args ∈ notesOf decodeEventLog pool logs, isHexString args.encryptedNote
  fits : ∀ args ∈ notesOf decodeEventLog pool logs, ∀ index ∈ merklePaths, Fits index args
  agree : merklePaths.isSome → (notesOf decodeEventLog pool logs).Pairwise Agree

/-- The index after the notes of a list of logs. -/
def indexAfter (merklePaths : Option MerklePathIndex) (notes : List NoteArgs) :
    Option MerklePathIndex :=
  notes.foldl (fun merklePaths args =>
    merklePaths.map fun index => withLeaf index args.commitment args.leafIndex) merklePaths

theorem rootAt_ingestLogs (key : Text) : ∀ {logs : List RawPoolLog} {state : IndexerState},
    forEach (ingestLog decodeEventLog input) state logs = (state', .ok ()) →
    state'.rootAt key =
      (lastWrite (rootWrite decodeEventLog input.pool) logs key).getD (state.rootAt key)
  | [], state, h => by
    obtain ⟨rfl, -⟩ := Prod.mk.inj h
    rfl
  | log :: logs, state, h => by
    obtain ⟨next, hlog, hrest⟩ := forEach_cons_eq_ok.mp h
    have hnext := @rootAt_ingestLog decodeEventLog input log state key
    rw [hlog] at hnext
    rw [rootAt_ingestLogs key hrest, hnext, lastWrite]
    rcases lastWrite (rootWrite decodeEventLog input.pool) logs key with _ | v <;> rfl

theorem nullifiers_ingestLogs (key : Text) : ∀ {logs : List RawPoolLog} {state : IndexerState},
    forEach (ingestLog decodeEventLog input) state logs = (state', .ok ()) →
    get state'.nullifiers key = (lastWrite (nullifierWrite decodeEventLog input.pool) logs key).or
      (get state.nullifiers key)
  | [], state, h => by
    obtain ⟨rfl, -⟩ := Prod.mk.inj h
    rfl
  | log :: logs, state, h => by
    obtain ⟨next, hlog, hrest⟩ := forEach_cons_eq_ok.mp h
    have hnext := @nullifiers_ingestLog decodeEventLog input log state key
    rw [hlog] at hnext
    rw [nullifiers_ingestLogs key hrest, hnext, lastWrite, Option.or_assoc]

theorem acceptsLogs_nil {pool : Text} (merklePaths : Option MerklePathIndex) :
    AcceptsLogs decodeEventLog pool merklePaths [] :=
  ⟨fun _ h => absurd h List.not_mem_nil, fun _ h => absurd h List.not_mem_nil,
    fun _ h => absurd h List.not_mem_nil, fun _ => List.Pairwise.nil⟩

/-- A log that is no note asks for nothing but to be decoded. -/
theorem acceptsLogs_cons_of_none {pool : Text} {merklePaths : Option MerklePathIndex}
    {log : RawPoolLog} (hnote : noteOfLog decodeEventLog pool log = none)
    (hdecodes : ∀ error, readLog decodeEventLog pool log ≠ some (.error error)) :
    AcceptsLogs decodeEventLog pool merklePaths (log :: logs) ↔
      AcceptsLogs decodeEventLog pool merklePaths logs := by
  have hnotes : notesOf decodeEventLog pool (log :: logs) = notesOf decodeEventLog pool logs :=
    List.filterMap_cons_none hnote
  constructor
  · rintro ⟨hall, hpayload, hfits, hagree⟩
    rw [hnotes] at hpayload hfits hagree
    exact ⟨fun l hl => hall l (List.mem_cons_of_mem _ hl), hpayload, hfits, hagree⟩
  · rintro ⟨hall, hpayload, hfits, hagree⟩
    rw [← hnotes] at hpayload hfits hagree
    refine ⟨fun l hl => ?_, hpayload, hfits, hagree⟩
    rcases List.mem_cons.mp hl with rfl | hl
    · exact hdecodes
    · exact hall l hl

/-- A note asks for a fitting leaf and a payload, and joins the leaves. -/
theorem acceptsLogs_cons_of_some {pool : Text} {merklePaths : Option MerklePathIndex}
    {log : RawPoolLog} {event : PoolEvent} {args : NoteArgs}
    (hread : readLog decodeEventLog pool log = some (.ok event)) (hnote : noteOf event = some args) :
    AcceptsLogs decodeEventLog pool merklePaths (log :: logs) ↔
      (∀ index ∈ merklePaths, Fits index args) ∧ isHexString args.encryptedNote ∧
        AcceptsLogs decodeEventLog pool
          (merklePaths.map fun index => withLeaf index args.commitment args.leafIndex) logs := by
  have hlog : noteOfLog decodeEventLog pool log = some args := (noteOfLog_of_ok hread).trans hnote
  have hnotes : notesOf decodeEventLog pool (log :: logs) =
      args :: notesOf decodeEventLog pool logs := List.filterMap_cons_some hlog
  constructor
  · rintro ⟨hall, hpayload, hfits, hagree⟩
    rw [hnotes] at hpayload hfits hagree
    have hargs := hfits args List.mem_cons_self
    refine ⟨hargs, hpayload args List.mem_cons_self, fun l hl => hall l (List.mem_cons_of_mem _ hl),
      fun n hn => hpayload n (List.mem_cons_of_mem _ hn), fun n hn index hindex => ?_, fun hsome => ?_⟩
    · obtain ⟨old, hold, rfl⟩ := Option.map_eq_some_iff.mp hindex
      have hpairwise := List.pairwise_cons.mp (hagree (by rw [hold]; rfl))
      exact (fits_withLeaf (hargs old hold)).mpr
        ⟨hfits n (List.mem_cons_of_mem _ hn) old hold, hpairwise.1 n hn⟩
    · exact (List.pairwise_cons.mp (hagree (by rwa [Option.isSome_map] at hsome))).2
  · rintro ⟨hargs, hhex, hall, hpayload, hfits, hagree⟩
    have hrest : ∀ n ∈ notesOf decodeEventLog pool logs, ∀ index ∈ merklePaths,
        Fits index n ∧ Agree args n := fun n hn index hindex =>
      (fits_withLeaf (hargs index hindex)).mp
        (hfits n hn _ (Option.map_eq_some_iff.mpr ⟨index, hindex, rfl⟩))
    refine ⟨fun l hl error => ?_, ?_, ?_, ?_⟩
    · rcases List.mem_cons.mp hl with rfl | hl
      · rw [hread]
        exact fun h => by cases Option.some.inj h
      · exact hall l hl error
    · rw [hnotes]
      exact List.forall_mem_cons.mpr ⟨hhex, hpayload⟩
    · rw [hnotes]
      exact List.forall_mem_cons.mpr ⟨hargs, fun n hn index hindex => (hrest n hn index hindex).1⟩
    · intro hsome
      obtain ⟨index, hindex⟩ := Option.isSome_iff_exists.mp hsome
      rw [hnotes]
      exact List.pairwise_cons.mpr ⟨fun n hn => (hrest n hn index hindex).2,
        hagree (by rwa [Option.isSome_map])⟩

/-- **The logs go through** if the state accepts them. -/
theorem ingestLogs_isOk : ∀ {logs : List RawPoolLog} {state : IndexerState},
    (∃ state', forEach (ingestLog decodeEventLog input) state logs = (state', .ok ())) ↔
      AcceptsLogs decodeEventLog input.pool state.merklePaths logs
  | [], state => ⟨fun _ => acceptsLogs_nil _, fun _ => ⟨state, rfl⟩⟩
  | log :: logs, state => by
    simp only [forEach_cons_eq_ok]
    rcases ingestLog_cases decodeEventLog input log with ⟨hread, hlog⟩ | ⟨error, hread, hlog⟩ |
      ⟨event, hread, hnote, hlog⟩ | ⟨event, args, hread, hnote, hlog⟩
    · have hnone : noteOfLog decodeEventLog input.pool log = none := noteOfLog_of_none hread
      rw [acceptsLogs_cons_of_none hnone (by simp [hread]), ← ingestLogs_isOk]
      simp only [hlog, Prod.mk.injEq, and_true, exists_eq_left']
    · refine iff_of_false ?_ fun h => h.decodes log List.mem_cons_self error hread
      rintro ⟨_, _, hfirst, -⟩
      rw [hlog] at hfirst
      cases hfirst
    · have hnone : noteOfLog decodeEventLog input.pool log = none :=
        (noteOfLog_of_ok hread).trans hnote
      obtain ⟨roots, expiredRoots, nullifiers, hmark⟩ := markEvent_eq log state event
      have ih : _ ↔ AcceptsLogs decodeEventLog input.pool (markEvent log state event).merklePaths
        logs := ingestLogs_isOk
      rw [acceptsLogs_cons_of_none hnone (by simp [hread])]
      rw [hmark] at ih
      rw [← ih]
      simp only [hlog, Prod.mk.injEq, and_true, exists_eq_left', hmark]
    · have ih : _ ↔ AcceptsLogs decodeEventLog input.pool
        (withNote input log state args).merklePaths logs := ingestLogs_isOk
      rw [acceptsLogs_cons_of_some hread hnote]
      simp only [hlog, ingestNote_eq_ok]
      constructor
      · rintro ⟨state', _, ⟨hfits, hhex, rfl⟩, hrest⟩
        exact ⟨hfits, hhex, ih.mp ⟨state', hrest⟩⟩
      · rintro ⟨hfits, hhex, hrest⟩
        obtain ⟨state', hok⟩ := ih.mpr hrest
        exact ⟨state', _, ⟨hfits, hhex, rfl⟩, hok⟩

/-- **What the logs leave** of the index and the notes. -/
theorem ingestLogs_notes : ∀ {logs : List RawPoolLog} {state : IndexerState},
    forEach (ingestLog decodeEventLog input) state logs = (state', .ok ()) →
    state'.merklePaths = indexAfter state.merklePaths (notesOf decodeEventLog input.pool logs) ∧
      state'.encryptedNotes.records =
        state.encryptedNotes.records ++ recordsOf decodeEventLog input logs ∧
      state'.ranges = state.ranges
  | [], state, h => by
    obtain ⟨rfl, -⟩ := Prod.mk.inj h
    exact ⟨rfl, (List.append_nil _).symm, rfl⟩
  | log :: logs, state, h => by
    obtain ⟨next, hnext, hrest⟩ := forEach_cons_eq_ok.mp h
    obtain ⟨hpaths, hrecords, hranges⟩ := ingestLogs_notes hrest
    have hquiet : noteOfLog decodeEventLog input.pool log = none →
        next.merklePaths = state.merklePaths ∧ next.encryptedNotes = state.encryptedNotes ∧
          next.ranges = state.ranges →
        state'.merklePaths =
            indexAfter state.merklePaths (notesOf decodeEventLog input.pool (log :: logs)) ∧
          state'.encryptedNotes.records =
            state.encryptedNotes.records ++ recordsOf decodeEventLog input (log :: logs) ∧
          state'.ranges = state.ranges := by
      rintro hnone ⟨hm, he, hr⟩
      rw [hpaths, hrecords, hranges, hm, he, hr, notesOf, recordsOf, notesOf, recordsOf,
        List.filterMap_cons_none hnone, List.filterMap_cons_none (by rw [hnone]; rfl)]
      exact ⟨rfl, rfl, rfl⟩
    rcases ingestLog_cases decodeEventLog input log with ⟨hread, hlog⟩ | ⟨error, hread, hlog⟩ |
      ⟨event, hread, hnote, hlog⟩ | ⟨event, args, hread, hnote, hlog⟩
    · rw [hlog] at hnext
      obtain ⟨rfl, -⟩ := Prod.mk.inj hnext
      exact hquiet (noteOfLog_of_none hread) ⟨rfl, rfl, rfl⟩
    · rw [hlog] at hnext
      cases hnext
    · rw [hlog] at hnext
      obtain ⟨rfl, -⟩ := Prod.mk.inj hnext
      obtain ⟨roots, expiredRoots, nullifiers, hmark⟩ := markEvent_eq log state event
      refine hquiet ((noteOfLog_of_ok hread).trans hnote) ?_
      rw [hmark]
      exact ⟨rfl, rfl, rfl⟩
    · have hsome : noteOfLog decodeEventLog input.pool log = some args :=
        (noteOfLog_of_ok hread).trans hnote
      rw [hlog] at hnext
      obtain ⟨-, -, rfl⟩ := ingestNote_eq_ok.mp hnext
      refine ⟨?_, ?_, hranges⟩
      · rw [hpaths, notesOf, notesOf, List.filterMap_cons_some hsome]
        rfl
      · rw [hrecords, recordsOf, recordsOf, List.filterMap_cons_some (by rw [hsome]; rfl)]
        exact List.append_assoc _ _ _

/-- A batch goes through if its logs and its range do. -/
theorem ingestPoolLogs_eq_ok : ingestPoolLogs decodeEventLog state input = (state', .ok ()) ↔
    ∃ next ranges, forEach (ingestLog decodeEventLog input) state input.logs = (next, .ok ()) ∧
      markCheckedRange next.ranges input.checkedRange = .ok (ranges, ()) ∧
      state' = { next with ranges } := by
  unfold ingestPoolLogs
  rw [andThen_eq_ok]
  constructor
  · rintro ⟨next, ⟨⟩, hlogs, hmark⟩
    unfold markChecked at hmark
    rcases hranges : markCheckedRange next.ranges input.checkedRange with e | ⟨ranges, ⟨⟩⟩
    · rw [hranges] at hmark
      cases hmark
    · rw [hranges] at hmark
      exact ⟨next, ranges, hlogs, hranges, (Prod.mk.inj hmark).1.symm⟩
  · rintro ⟨next, ranges, hlogs, hranges, rfl⟩
    refine ⟨next, ⟨⟩, hlogs, ?_⟩
    unfold markChecked
    rw [hranges]

end Loop

end Nullark.Indexer.Accepted
