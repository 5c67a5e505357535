import Nullark.Indexer.Atomicity

/-! # Logs that are ingested again

The indexer reads a range of blocks again, or a batch that overlaps the one before, and so ingests
logs it has ingested before.

* `ingestAll_logs`: batch after batch is log after log.
* `reingest_iff`: nothing changes exactly if none of the logs is a note, and what they say last of a
  root or nullifier is what was said last, or is said anew behind them.
* `note_twice`: a note that is kept twice. -/

namespace Nullark.Indexer.Reingest

open Nullark.Lib.Outcome Nullark.Lib.Hex Nullark.Lib.Ordered Nullark.Lib.Intervals
open Nullark.Js.Basic Nullark.Js.Bytes
open Nullark.Indexer.EncryptedNotes Nullark.Indexer.MerklePaths Nullark.Indexer.Ranges
open Nullark.Indexer.LogIngest Nullark.Indexer.Accepted Nullark.Indexer.Atomicity

/-- Batches, one after another. -/
abbrev ingestAll (decodeEventLog : DecodeEventLog) :
    IndexerState → List IngestInput → IndexerState × Throws Unit :=
  forEach (ingestPoolLogs decodeEventLog)

/-- The batches that take logs range by range. -/
def batches (input : IngestInput) (rest : List (List RawPoolLog × BlockRange)) : List IngestInput :=
  rest.map fun p => { input with logs := p.1, checkedRange := p.2 }

section Statement
variable (decodeEventLog : DecodeEventLog)

/-- **The batch has the effect of the new logs in it**: with the logs `again` before them it goes
through, and leaves what it leaves when each log is ingested `once`. -/
def Idempotent (state : IndexerState) (input : IngestInput) (again : List RawPoolLog)
    (rest : List (List RawPoolLog × BlockRange)) (once : IndexerState) : Prop :=
  ∃ state', ingestPoolLogs decodeEventLog state
    { input with logs := again ++ rest.flatMap Prod.fst } = (state', .ok ()) ∧
      SameContents state' once

/-- **The logs may come again**: they are no notes, and what they say last of a root or nullifier was
said last by the `old` logs, or is said anew. -/
structure Harmless (pool : Text) (old again new : List RawPoolLog) : Prop where
  notes : ∀ log ∈ again, noteOfLog decodeEventLog pool log = none
  roots : ∀ key v, lastWrite (rootWrite decodeEventLog pool) again key = some v →
    (lastWrite (rootWrite decodeEventLog pool) new key).isSome ∨
      lastWrite (rootWrite decodeEventLog pool) old key = some v
  nullifiers : ∀ key r, lastWrite (nullifierWrite decodeEventLog pool) again key = some r →
    (lastWrite (nullifierWrite decodeEventLog pool) new key).isSome ∨
      lastWrite (nullifierWrite decodeEventLog pool) old key = some r

end Statement

section Batches
variable {decodeEventLog : DecodeEventLog} {pool : Text} {input : IngestInput}
  {state state' : IndexerState}

/-! ### Batch after batch -/

theorem readLog_congr {pool' : Text} (h : lower pool' = lower pool) :
    readLog decodeEventLog pool' = readLog decodeEventLog pool := by
  unfold readLog
  rw [h]

theorem rootWrite_congr {pool' : Text} (h : lower pool' = lower pool) :
    rootWrite decodeEventLog pool' = rootWrite decodeEventLog pool := by
  unfold rootWrite
  rw [readLog_congr h]

theorem nullifierWrite_congr {pool' : Text} (h : lower pool' = lower pool) :
    nullifierWrite decodeEventLog pool' = nullifierWrite decodeEventLog pool := by
  unfold nullifierWrite
  rw [readLog_congr h]

/-- What one batch says of the roots and nullifiers, and marks. -/
theorem ingestPoolLogs_facts (hpool : lower input.pool = lower pool)
    (h : ingestPoolLogs decodeEventLog state input = (state', .ok ())) :
    (∀ key, state'.rootAt key =
        (lastWrite (rootWrite decodeEventLog pool) input.logs key).getD (state.rootAt key)) ∧
      (∀ key, get state'.nullifiers key = (lastWrite (nullifierWrite decodeEventLog pool)
        input.logs key).or (get state.nullifiers key)) ∧
      (∀ log ∈ input.logs, ∀ error, readLog decodeEventLog pool log ≠ some (.error error)) ∧
      (Tidy state.ranges → Tidy state'.ranges ∧ ∀ n, Checked state'.ranges n ↔
        Checked state.ranges n ∨ input.checkedRange.Contains n) := by
  obtain ⟨next, ranges, hlogs, hmark, rfl⟩ := ingestPoolLogs_eq_ok.mp h
  refine ⟨fun key => ?_, fun key => ?_, ?_, fun htidy => ?_⟩
  · have hroots := rootAt_ingestLogs key hlogs
    rw [← rootWrite_congr hpool]
    exact hroots
  · have hnullifiers := nullifiers_ingestLogs key hlogs
    rw [← nullifierWrite_congr hpool]
    exact hnullifiers
  · rw [← readLog_congr hpool]
    exact (ingestLogs_isOk.mp ⟨next, hlogs⟩).decodes
  · rw [(ingestLogs_notes hlogs).2.2] at hmark
    obtain ⟨tracker, hmark', htidy', hchecked⟩ :=
      markCheckedRange_spec htidy (markCheckedRange_eq_ok hmark)
    obtain ⟨rfl, -⟩ := Prod.mk.inj (Except.ok.inj (hmark.symm.trans hmark'))
    exact ⟨htidy', hchecked⟩

/-- **What batches of one pool say** of the roots and nullifiers. -/
theorem ingestAll_facts : ∀ {inputs : List IngestInput} {state : IndexerState},
    (∀ b ∈ inputs, lower b.pool = lower pool) → Tidy state.ranges →
    ingestAll decodeEventLog state inputs = (state', .ok ()) →
    (∀ key, state'.rootAt key = (lastWrite (rootWrite decodeEventLog pool)
        (inputs.flatMap IngestInput.logs) key).getD (state.rootAt key)) ∧
      (∀ key, get state'.nullifiers key = (lastWrite (nullifierWrite decodeEventLog pool)
        (inputs.flatMap IngestInput.logs) key).or (get state.nullifiers key)) ∧
      (∀ log ∈ inputs.flatMap IngestInput.logs, ∀ error,
        readLog decodeEventLog pool log ≠ some (.error error)) ∧
      Tidy state'.ranges ∧ ∀ n, Checked state'.ranges n ↔
        Checked state.ranges n ∨ ∃ b ∈ inputs, b.checkedRange.Contains n
  | [], state, _, htidy, h => by
    obtain ⟨rfl, -⟩ := Prod.mk.inj h
    exact ⟨fun _ => rfl, fun _ => rfl, fun _ hlog => absurd hlog List.not_mem_nil, htidy,
      fun n => by simp⟩
  | b :: inputs, state, hpool, htidy, h => by
    obtain ⟨next, hb, hrest⟩ := forEach_cons_eq_ok.mp h
    obtain ⟨hroots, hnullifiers, hdecodes, hranges⟩ :=
      ingestPoolLogs_facts (hpool b List.mem_cons_self) hb
    obtain ⟨htidy', hchecked⟩ := hranges htidy
    obtain ⟨hroots', hnullifiers', hdecodes', htidy'', hchecked'⟩ :=
      ingestAll_facts (fun c hc => hpool c (List.mem_cons_of_mem _ hc)) htidy' hrest
    rw [List.flatMap_cons]
    refine ⟨fun key => ?_, fun key => ?_, fun log hlog => ?_, htidy'', fun n => ?_⟩
    · rw [hroots', hroots, lastWrite_append, Option.getD_or]
    · rw [hnullifiers', hnullifiers, lastWrite_append, Option.or_assoc]
    · exact (List.mem_append.mp hlog).elim (hdecodes log) (hdecodes' log)
    · rw [hchecked', hchecked, List.exists_mem_cons_iff, or_assoc]

/-! ### Log after log -/

/-- **Batch after batch is log after log**, as far as the index and the notes go. -/
theorem ingestAll_logs : ∀ {rest : List (List RawPoolLog × BlockRange)} {state : IndexerState},
    ingestAll decodeEventLog state (batches input rest) = (state', .ok ()) →
    ∃ last, forEach (ingestLog decodeEventLog input) state (rest.flatMap Prod.fst) =
        (last, .ok ()) ∧
      last.merklePaths = state'.merklePaths ∧ last.encryptedNotes = state'.encryptedNotes
  | [], state, h => by
    obtain ⟨rfl, -⟩ := Prod.mk.inj h
    exact ⟨state, rfl, rfl, rfl⟩
  | (logs, range) :: rest, state, h => by
    obtain ⟨next, hfirst, hrest⟩ := forEach_cons_eq_ok.mp h
    obtain ⟨mid, ranges, hlogs, -, rfl⟩ := ingestPoolLogs_eq_ok.mp hfirst
    have hmid : forEach (ingestLog decodeEventLog input) state logs = (mid, .ok ()) := hlogs
    obtain ⟨last, hlast, hpaths, hnotes⟩ := ingestAll_logs hrest
    have haccepts : AcceptsLogs decodeEventLog input.pool mid.merklePaths
        (rest.flatMap Prod.fst) := by
      have h := ingestLogs_isOk.mp ⟨last, hlast⟩
      exact h
    obtain ⟨final, hfinal⟩ := ingestLogs_isOk.mpr haccepts
    obtain ⟨hpaths₁, hrecords₁, -⟩ := ingestLogs_notes hfinal
    obtain ⟨hpaths₂, hrecords₂, -⟩ := ingestLogs_notes hlast
    refine ⟨final, ?_, ?_, ?_⟩
    · rw [List.flatMap_cons, forEach_append, hmid, andThen_ok, hfinal]
    · rw [← hpaths, hpaths₁, hpaths₂]
    · rw [← hnotes]
      exact congrArg EncryptedNoteCache.mk (hrecords₁.trans hrecords₂.symm)

/-! ### The same logs again -/

/-- Logs that are no notes ask for nothing but to be decoded. -/
theorem acceptsLogs_append_of_none {merklePaths : Option MerklePathIndex} {new : List RawPoolLog} :
    ∀ {again : List RawPoolLog}, (∀ log ∈ again, noteOfLog decodeEventLog pool log = none) →
    (∀ log ∈ again, ∀ error, readLog decodeEventLog pool log ≠ some (.error error)) →
    AcceptsLogs decodeEventLog pool merklePaths new →
    AcceptsLogs decodeEventLog pool merklePaths (again ++ new)
  | [], _, _, h => h
  | log :: again, hnotes, hdecodes, h => by
    rw [List.forall_mem_cons] at hnotes hdecodes
    rw [List.cons_append]
    exact (acceptsLogs_cons_of_none hnotes.1 hdecodes.1).mpr
      (acceptsLogs_append_of_none hnotes.2 hdecodes.2 h)

theorem recordsOf_append (logs logs' : List RawPoolLog) :
    recordsOf decodeEventLog input (logs ++ logs') =
      recordsOf decodeEventLog input logs ++ recordsOf decodeEventLog input logs' :=
  List.filterMap_append

/-- Logs that are no notes leave no record. -/
theorem recordsOf_eq_nil {logs : List RawPoolLog} : recordsOf decodeEventLog input logs = [] ↔
    ∀ log ∈ logs, noteOfLog decodeEventLog input.pool log = none := by
  unfold recordsOf
  rw [List.filterMap_eq_nil_iff]
  simp only [Option.map_eq_none_iff]

theorem notesOf_eq_nil {logs : List RawPoolLog} : notesOf decodeEventLog pool logs = [] ↔
    ∀ log ∈ logs, noteOfLog decodeEventLog pool log = none := by
  unfold notesOf
  rw [List.filterMap_eq_nil_iff]

/-- What is written first is overwritten, or is there already, exactly if it leaves no trace. -/
theorem getD_or_eq_iff {V : Type} {new again : Option V} {v : V} :
    (new.or again).getD v = new.getD v ↔ ∀ w, again = some w → new.isSome ∨ v = w := by
  rcases new with _ | n
  · rcases again with _ | w
    · simp
    · simp [eq_comm]
  · simp

theorem or_or_eq_iff {V : Type} {new again old : Option V} :
    (new.or again).or old = new.or old ↔ ∀ w, again = some w → new.isSome ∨ old = some w := by
  rcases new with _ | n
  · rcases again with _ | w
    · simp
    · simp [eq_comm]
  · simp

section Again
variable {merklePaths : Option MerklePathIndex} {first : List IngestInput}
  {again : List RawPoolLog} {rest : List (List RawPoolLog × BlockRange)} {once : IndexerState}

/-- A log that says something of a root has said it before. -/
theorem rootAt_of_again
    (hfirst : ingestAll decodeEventLog (createIndexerState merklePaths) first = (state, .ok ()))
    (hpool : ∀ b ∈ first, lower b.pool = lower input.pool)
    (hagain : ∀ log ∈ again, log ∈ first.flatMap IngestInput.logs) {key : Text}
    {v : Option RootRecord × Option RootExpiredRecord}
    (h : lastWrite (rootWrite decodeEventLog input.pool) again key = some v) :
    state.rootAt key = v ↔ lastWrite (rootWrite decodeEventLog input.pool)
      (first.flatMap IngestInput.logs) key = some v := by
  obtain ⟨log, hlog, hwrite⟩ := exists_of_lastWrite _ h
  rw [(ingestAll_facts hpool tidy_create hfirst).1 key]
  rcases hold : lastWrite (rootWrite decodeEventLog input.pool)
    (first.flatMap IngestInput.logs) key with _ | old
  · rw [(lastWrite_eq_none _).mp hold log (hagain log hlog)] at hwrite
    cases hwrite
  · simp

theorem nullifier_of_again
    (hfirst : ingestAll decodeEventLog (createIndexerState merklePaths) first = (state, .ok ()))
    (hpool : ∀ b ∈ first, lower b.pool = lower input.pool)
    (hagain : ∀ log ∈ again, log ∈ first.flatMap IngestInput.logs) {key : Text}
    {r : NullifierRecord}
    (h : lastWrite (nullifierWrite decodeEventLog input.pool) again key = some r) :
    get state.nullifiers key = some r ↔ lastWrite (nullifierWrite decodeEventLog input.pool)
      (first.flatMap IngestInput.logs) key = some r := by
  obtain ⟨log, hlog, hwrite⟩ := exists_of_lastWrite _ h
  rw [(ingestAll_facts hpool tidy_create hfirst).2.1 key]
  rcases hold : lastWrite (nullifierWrite decodeEventLog input.pool)
    (first.flatMap IngestInput.logs) key with _ | old
  · rw [(lastWrite_eq_none _).mp hold log (hagain log hlog)] at hwrite
    cases hwrite
  · simp

/-- **What the batches leave** that take each log once. -/
theorem once_facts (htidy : Tidy state.ranges)
    (honce : ingestAll decodeEventLog state (batches input rest) = (once, .ok ())) :
    (∀ key, once.rootAt key = (lastWrite (rootWrite decodeEventLog input.pool)
        (rest.flatMap Prod.fst) key).getD (state.rootAt key)) ∧
      (∀ key, get once.nullifiers key = (lastWrite (nullifierWrite decodeEventLog input.pool)
        (rest.flatMap Prod.fst) key).or (get state.nullifiers key)) ∧
      (once.merklePaths = indexAfter state.merklePaths
        (notesOf decodeEventLog input.pool (rest.flatMap Prod.fst))) ∧
      (once.encryptedNotes.records = state.encryptedNotes.records ++
        recordsOf decodeEventLog input (rest.flatMap Prod.fst)) ∧
      Tidy once.ranges ∧ ∀ n, Checked once.ranges n ↔
        Checked state.ranges n ∨ ∃ p ∈ rest, p.2.Contains n := by
  have hbatches : ∀ b ∈ batches input rest, lower b.pool = lower input.pool := by
    intro b hb
    obtain ⟨p, -, rfl⟩ := List.mem_map.mp hb
    rfl
  have hlogs : (batches input rest).flatMap IngestInput.logs = rest.flatMap Prod.fst := by
    unfold batches
    rw [List.flatMap_map]
  obtain ⟨hroots, hnullifiers, -, htidy', hchecked⟩ := ingestAll_facts hbatches htidy honce
  rw [hlogs] at hroots hnullifiers
  obtain ⟨last, hlast, hpaths, hnotes⟩ := ingestAll_logs honce
  obtain ⟨hindex, hrecords, -⟩ := ingestLogs_notes hlast
  refine ⟨hroots, hnullifiers, hpaths.symm.trans hindex, ?_, htidy', fun n => ?_⟩
  · rw [← hnotes, hrecords]
  · rw [hchecked]
    unfold batches
    simp

variable (hfirst : ingestAll decodeEventLog (createIndexerState merklePaths) first =
    (state, .ok ()))
  (hpool : ∀ b ∈ first, lower b.pool = lower input.pool)
  (hagain : ∀ log ∈ again, log ∈ first.flatMap IngestInput.logs)
  (honce : ingestAll decodeEventLog state (batches input rest) = (once, .ok ()))
include hfirst hpool hagain honce

/-- A batch that has the effect of its new logs brings nothing harmful again. -/
theorem harmless_of_idempotent (h : Idempotent decodeEventLog state input again rest once) :
    Harmless decodeEventLog input.pool (first.flatMap IngestInput.logs) again
      (rest.flatMap Prod.fst) := by
  obtain ⟨state', hok, hsame⟩ := h
  have htidy := (ingestAll_facts hpool tidy_create hfirst).2.2.2.1
  obtain ⟨hroots, hnullifiers, -, hrecords, -⟩ := once_facts htidy honce
  obtain ⟨hroots', hnullifiers', -⟩ := ingestPoolLogs_facts rfl hok
  obtain ⟨next, ranges, hlogs, -, rfl⟩ := ingestPoolLogs_eq_ok.mp hok
  have hsameRoots := sameRoots_iff.mp ⟨hsame.roots, hsame.expiredRoots⟩
  refine ⟨?_, fun key v hv => ?_, fun key r hr => ?_⟩
  · have hrecords' := (ingestLogs_notes hlogs).2.1
    have heq : next.encryptedNotes = once.encryptedNotes := hsame.encryptedNotes
    rw [heq, hrecords] at hrecords'
    have hboth : recordsOf decodeEventLog input (rest.flatMap Prod.fst) =
        recordsOf decodeEventLog input (again ++ rest.flatMap Prod.fst) :=
      List.append_cancel_left hrecords'
    rw [recordsOf_append, List.self_eq_append_left] at hboth
    exact recordsOf_eq_nil.mp hboth
  · have hkey := hsameRoots key
    rw [hroots', hroots, lastWrite_append, getD_or_eq_iff] at hkey
    exact (hkey v hv).imp id (rootAt_of_again hfirst hpool hagain hv).mp
  · have hkey := hsame.nullifiers key
    rw [hnullifiers', hnullifiers, lastWrite_append, or_or_eq_iff] at hkey
    exact (hkey r hr).imp id (nullifier_of_again hfirst hpool hagain hr).mp

/-- Where nothing harmful comes again the batch has the effect of its new logs. -/
theorem idempotent_of_harmless (hvalid : input.checkedRange.fromBlock ≤ input.checkedRange.toBlock)
    (hrange : ∀ n, Checked state.ranges n ∨ input.checkedRange.Contains n ↔
      Checked state.ranges n ∨ ∃ p ∈ rest, p.2.Contains n)
    (h : Harmless decodeEventLog input.pool (first.flatMap IngestInput.logs) again
      (rest.flatMap Prod.fst)) :
    Idempotent decodeEventLog state input again rest once := by
  obtain ⟨-, -, hdecodes, htidy, -⟩ := ingestAll_facts hpool tidy_create hfirst
  obtain ⟨hroots, hnullifiers, hindex, hrecords, htidy', hchecked⟩ := once_facts htidy honce
  have hnew : AcceptsLogs decodeEventLog input.pool state.merklePaths (rest.flatMap Prod.fst) := by
    obtain ⟨last, hlast, -⟩ := ingestAll_logs honce
    exact ingestLogs_isOk.mp ⟨last, hlast⟩
  obtain ⟨next, hlogs⟩ := ingestLogs_isOk.mpr (acceptsLogs_append_of_none h.notes
    (fun log hlog => hdecodes log (hagain log hlog)) hnew)
  obtain ⟨hindex', hrecords', hranges'⟩ := ingestLogs_notes hlogs
  obtain ⟨ranges, hmark, htidy'', hchecked'⟩ := markCheckedRange_spec htidy hvalid
  have hok : ingestPoolLogs decodeEventLog state
      { input with logs := again ++ rest.flatMap Prod.fst } = ({ next with ranges }, .ok ()) :=
    ingestPoolLogs_eq_ok.mpr ⟨next, ranges, hlogs, by rw [hranges']; exact hmark, rfl⟩
  obtain ⟨hroots', hnullifiers', -⟩ := ingestPoolLogs_facts rfl hok
  have hsameRoots : ∀ key, IndexerState.rootAt { next with ranges } key = once.rootAt key := by
    intro key
    rw [hroots', hroots, lastWrite_append, getD_or_eq_iff]
    exact fun v hv => (h.roots key v hv).imp id (rootAt_of_again hfirst hpool hagain hv).mpr
  refine ⟨_, hok, (sameRoots_iff.mpr hsameRoots).1, (sameRoots_iff.mpr hsameRoots).2,
    fun key => ?_, ?_, ?_, ?_⟩
  · rw [hnullifiers', hnullifiers, lastWrite_append, or_or_eq_iff]
    exact fun r hr => (h.nullifiers key r hr).imp id
      (nullifier_of_again hfirst hpool hagain hr).mpr
  · have hboth : recordsOf decodeEventLog input (again ++ rest.flatMap Prod.fst) =
        recordsOf decodeEventLog input (rest.flatMap Prod.fst) := by
      rw [recordsOf_append, recordsOf_eq_nil.mpr h.notes, List.nil_append]
    exact congrArg EncryptedNoteCache.mk
      (hrecords'.trans ((congrArg _ hboth).trans hrecords.symm))
  · have hsame : next.merklePaths = once.merklePaths := by
      rw [hindex', hindex, notesOf, List.filterMap_append]
      exact congrArg _ (congrArg (· ++ _) (notesOf_eq_nil.mpr h.notes))
    change Option.Rel SameLeaves next.merklePaths once.merklePaths
    rw [hsame]
    exact sameLeaves_rel_refl _
  · exact Tidy.ext htidy'' htidy' fun n => by rw [hchecked', hchecked, ← hrange n]

/-- **Logs that were ingested may come again**, in front of new ones, and each counts once: exactly
if none of them is a note, and what they say last of a root or nullifier was said last, or is said
anew behind them. The range of the batch marks what the ranges of the new logs mark. -/
theorem reingest_iff (hvalid : input.checkedRange.fromBlock ≤ input.checkedRange.toBlock)
    (hrange : ∀ n, Checked state.ranges n ∨ input.checkedRange.Contains n ↔
      Checked state.ranges n ∨ ∃ p ∈ rest, p.2.Contains n) :
    Idempotent decodeEventLog state input again rest once ↔
      Harmless decodeEventLog input.pool (first.flatMap IngestInput.logs) again
        (rest.flatMap Prod.fst) :=
  ⟨harmless_of_idempotent hfirst hpool hagain honce,
    idempotent_of_harmless hfirst hpool hagain honce hvalid hrange⟩

end Again

end Batches

/-! ### The same block, twice -/

theorem indexAfter_none : ∀ notes : List NoteArgs, indexAfter none notes = none
  | [] => rfl
  | _ :: notes => indexAfter_none notes

theorem exists_ok_of_snd {r : IndexerState × Throws Unit} (h : r.2 = .ok ()) :
    ∃ state, r = (state, .ok ()) := ⟨r.1, Prod.ext rfl h⟩

/-- The block of the sample logs is marked. -/
theorem mark_sample : ∃ ranges, markCheckedRange createRangeTracker ⟨100, 100⟩ = .ok (ranges, ()) ∧
    markCheckedRange ranges ⟨100, 100⟩ = .ok (ranges, ()) := by
  have hrange : (⟨100, 100⟩ : BlockRange).fromBlock ≤ (⟨100, 100⟩ : BlockRange).toBlock := le_rfl
  obtain ⟨ranges, hmark, htidy, hchecked⟩ := markCheckedRange_spec tidy_create hrange
  exact ⟨ranges, hmark, markCheckedRange_of_covered htidy le_rfl fun n hn =>
    (hchecked n).mpr (.inr hn)⟩

def rootLog : RawPoolLog :=
  sampleLog [rootAcceptedTopic, hex32 0x22, hex32 0x33, hex32 0x11] ['0', 'x'] 0

def noteLog : RawPoolLog :=
  sampleLog [depositNoteCreatedTopic, hex32 0x11, hex32 0] sampleNoteData 3

/-- A root that is read twice. -/
theorem reingest_iff_root : ∃ state,
    ingestAll sampleDecode (createIndexerState none) [sampleInput [rootLog]] = (state, .ok ()) ∧
      Idempotent sampleDecode state (sampleInput []) [rootLog] [] state := by
  obtain ⟨ranges, hmark, -⟩ := mark_sample
  obtain ⟨next, hnext⟩ : ∃ next, forEach (ingestLog sampleDecode (sampleInput [rootLog]))
      (createIndexerState none) [rootLog] = (next, .ok ()) :=
    exists_ok_of_snd (by decide +kernel)
  have hlogs := (ingestLogs_notes hnext).2.2
  have hfirst : ingestAll sampleDecode (createIndexerState none) [sampleInput [rootLog]] =
      ({ next with ranges }, .ok ()) :=
    forEach_cons_eq_ok.mpr ⟨_, ingestPoolLogs_eq_ok.mpr
      ⟨next, ranges, hnext, by rw [hlogs]; exact hmark, rfl⟩, rfl⟩
  have hpool : ∀ b ∈ [sampleInput [rootLog]], lower b.pool = lower (sampleInput []).pool :=
    fun b hb => by rw [List.mem_singleton.mp hb]; rfl
  have hnote : noteOfLog sampleDecode (sampleInput []).pool rootLog = none := by decide +kernel
  refine ⟨_, hfirst, (reingest_iff hfirst hpool ?_ rfl le_rfl fun n => ?_).mpr ⟨?_, ?_, ?_⟩⟩
  · exact fun log hlog => hlog
  · have hmarked := (ingestAll_facts hpool tidy_create hfirst).2.2.2.2 n
    refine ⟨fun hn => .inl (hn.elim id fun hn => hmarked.mpr (.inr ?_)), fun hn => ?_⟩
    · exact ⟨_, List.mem_singleton_self _, hn⟩
    · exact .inl (hn.elim id fun ⟨_, hp, _⟩ => absurd hp List.not_mem_nil)
  · exact fun log hlog => by rw [List.mem_singleton.mp hlog]; exact hnote
  · exact fun key v hv => .inr hv
  · exact fun key r hr => .inr hr

/-- **A note that is kept twice.** -/
theorem note_twice : ∃ state state',
    ingestPoolLogs sampleDecode (createIndexerState none) (sampleInput [noteLog]) =
        (state, .ok ()) ∧
      ingestPoolLogs sampleDecode state (sampleInput [noteLog]) = (state', .ok ()) ∧
      ¬SameContents state' state := by
  obtain ⟨ranges, hmark, hagain⟩ := mark_sample
  obtain ⟨next, hnext⟩ : ∃ next, forEach (ingestLog sampleDecode (sampleInput [noteLog]))
      (createIndexerState none) [noteLog] = (next, .ok ()) :=
    exists_ok_of_snd (by decide +kernel)
  obtain ⟨hpaths, hrecords, hranges⟩ := ingestLogs_notes hnext
  obtain ⟨last, hlast⟩ : ∃ last, forEach (ingestLog sampleDecode (sampleInput [noteLog]))
      { next with ranges } [noteLog] = (last, .ok ()) := by
    refine ingestLogs_isOk.mpr ⟨?_, ?_, fun args _ index hindex => ?_, fun h => ?_⟩
    · exact (ingestLogs_isOk.mp ⟨next, hnext⟩).decodes
    · exact (ingestLogs_isOk.mp ⟨next, hnext⟩).payload
    · cases (hpaths.trans (indexAfter_none _)).symm.trans hindex
    · have hnone : next.merklePaths = none := hpaths.trans (indexAfter_none _)
      have hsome : next.merklePaths.isSome := h
      rw [hnone] at hsome
      cases hsome
  obtain ⟨-, hrecords', hranges'⟩ := ingestLogs_notes hlast
  refine ⟨{ next with ranges }, { last with ranges }, ?_, ?_, fun hsame => ?_⟩
  · exact ingestPoolLogs_eq_ok.mpr ⟨next, ranges, hnext, by rw [hranges]; exact hmark, rfl⟩
  · exact ingestPoolLogs_eq_ok.mpr ⟨last, ranges, hlast, by rw [hranges']; exact hagain, rfl⟩
  · have heq : last.encryptedNotes = next.encryptedNotes := hsame.encryptedNotes
    rw [heq] at hrecords'
    have hnil := List.self_eq_append_right.mp hrecords'
    have hnote := recordsOf_eq_nil.mp hnil noteLog (List.mem_singleton_self _)
    have hsome : (noteOfLog sampleDecode (sampleInput [noteLog]).pool noteLog).isSome = true := by
      decide +kernel
    rw [hnote] at hsome
    cases hsome

end Nullark.Indexer.Reingest
