import Mathlib.Data.List.TakeWhile
import Nullark.Indexer.Accepted

/-! # What a failed ingestion leaves behind

`ingestPoolLogs` does not undo what it did before a log made it throw.

* `SameContents`: two states hold the same; `sameContents_ingestPoolLogs`: and go on alike.
* `atomic_iff`: an ingestion is atomic exactly if nothing is refused or nothing before the first
  refused log leaves a trace.
* `root_left_behind`: a root that stays. -/

namespace Nullark.Indexer.Atomicity

open Nullark.Lib.Outcome Nullark.Lib.Hex Nullark.Lib.Ordered
open Nullark.Js.Basic Nullark.Js.Bytes
open Nullark.Indexer.EncryptedNotes Nullark.Indexer.MerklePaths Nullark.Indexer.Ranges
open Nullark.Indexer.LogIngest Nullark.Indexer.Accepted

/-! ### The same contents -/

/-- The same tree, whatever is cached. -/
structure SameLeaves (index index' : MerklePathIndex) : Prop where
  depth : index.depth = index'.depth
  zeroHash : index.zeroHash = index'.zeroHash
  hashPair : index.hashPair = index'.hashPair
  leavesByIndex : ∀ k, get index.leavesByIndex k = get index'.leavesByIndex k
  indexByCommitment : ∀ t, get index.indexByCommitment t = get index'.indexByCommitment t

/-- **Two states hold the same.** -/
structure SameContents (state state' : IndexerState) : Prop where
  roots : ∀ key, get state.roots key = get state'.roots key
  expiredRoots : ∀ key, get state.expiredRoots key = get state'.expiredRoots key
  nullifiers : ∀ key, get state.nullifiers key = get state'.nullifiers key
  encryptedNotes : state.encryptedNotes = state'.encryptedNotes
  merklePaths : Option.Rel SameLeaves state.merklePaths state'.merklePaths
  ranges : state.ranges = state'.ranges

/-- The same outcome: the same contents and the same error, if there is one. -/
def SameOutcome (r r' : IndexerState × Throws Unit) : Prop := SameContents r.1 r'.1 ∧ r.2 = r'.2

section Same
variable {decodeEventLog : DecodeEventLog} {input : IngestInput} {log : RawPoolLog}
  {index index' : MerklePathIndex} {state state' : IndexerState} {args : NoteArgs}

theorem SameLeaves.refl (index : MerklePathIndex) : SameLeaves index index :=
  ⟨rfl, rfl, rfl, fun _ => rfl, fun _ => rfl⟩

theorem sameLeaves_rel_refl : ∀ merklePaths : Option MerklePathIndex,
    Option.Rel SameLeaves merklePaths merklePaths
  | none => .none
  | some index => .some (SameLeaves.refl index)

theorem SameLeaves.withLeaf (h : SameLeaves index index') (commitment : Text) (leafIndex : ℤ) :
    SameLeaves (withLeaf index commitment leafIndex) (withLeaf index' commitment leafIndex) := by
  refine ⟨h.depth, h.zeroHash, h.hashPair, fun k => ?_, fun t => ?_⟩
  · change get (set _ _ _) _ = get (set _ _ _) _
    rw [get_set, get_set, h.leavesByIndex]
  · change get (set _ _ _) _ = get (set _ _ _) _
    rw [get_set, get_set, h.indexByCommitment]

/-- A leaf that is there already. -/
theorem sameLeaves_withLeaf_self {commitment : Text} {leafIndex : ℤ}
    (hplace : get index.leavesByIndex leafIndex = some commitment)
    (hcommitment : get index.indexByCommitment (lower commitment) = some leafIndex) :
    SameLeaves (MerklePaths.withLeaf index commitment leafIndex) index := by
  refine ⟨rfl, rfl, rfl, fun k => ?_, fun t => ?_⟩
  · change get (set _ _ _) _ = _
    rw [get_set]
    split_ifs with h
    · rw [h, hplace]
    · rfl
  · change get (set _ _ _) _ = _
    rw [get_set]
    split_ifs with h
    · rw [h, hcommitment]
    · rfl

/-- What the checks of an insertion look at. -/
def insertChecks (depth : ℕ) (existingLeafIndex : Option ℤ) (existingCommitment : Option Text)
    (commitment : Text) (leafIndex : ℤ) : Throws Unit := do
  ensure (0 ≤ leafIndex) "Leaf index must be a non-negative integer."
  ensure (leafIndex < 2 ^ depth) "Leaf index exceeds Merkle tree capacity."
  ensure (∀ existing ∈ existingLeafIndex, existing = leafIndex)
    "Commitment is already indexed at a different leaf index."
  ensure (∀ existing ∈ existingCommitment, lower existing = lower commitment)
    "Leaf index already has a different commitment."

theorem insertIndexedCommitment_eq (index : MerklePathIndex) (commitment : Text) (leafIndex : ℤ) :
    insertIndexedCommitment index commitment leafIndex =
      (insertChecks index.depth (get index.indexByCommitment (lower commitment))
        (get index.leavesByIndex leafIndex) commitment leafIndex >>= fun _ =>
          .ok (MerklePaths.withLeaf index commitment leafIndex, ())) := by
  unfold insertChecks
  simp only [bind_assoc]
  rfl

/-- The index decides alike. -/
theorem SameLeaves.insert (h : SameLeaves index index') (commitment : Text) (leafIndex : ℤ) :
    (∃ e, insertIndexedCommitment index commitment leafIndex = .error e ∧
      insertIndexedCommitment index' commitment leafIndex = .error e) ∨
    ∃ new new', insertIndexedCommitment index commitment leafIndex = .ok (new, ()) ∧
      insertIndexedCommitment index' commitment leafIndex = .ok (new', ()) ∧
      SameLeaves new new' := by
  rw [insertIndexedCommitment_eq, insertIndexedCommitment_eq, h.depth, h.indexByCommitment,
    h.leavesByIndex]
  rcases insertChecks index'.depth (get index'.indexByCommitment (lower commitment))
    (get index'.leavesByIndex leafIndex) commitment leafIndex with e | ⟨⟩
  · exact .inl ⟨e, rfl, rfl⟩
  · exact .inr ⟨_, _, rfl, rfl, h.withLeaf commitment leafIndex⟩

/-- The roots, key by key. -/
theorem sameRoots_iff : ((∀ key, get state.roots key = get state'.roots key) ∧
    ∀ key, get state.expiredRoots key = get state'.expiredRoots key) ↔
      ∀ key, state.rootAt key = state'.rootAt key := by
  unfold IndexerState.rootAt
  simp only [Prod.mk.injEq, forall_and]

/-- The leaf of a note is accepted or refused alike. -/
theorem SameContents.insert (h : SameContents state state') (commitment : Text) (leafIndex : ℕ) :
    (∃ e, insertAcceptedNoteCommitment state commitment leafIndex = .error e ∧
      insertAcceptedNoteCommitment state' commitment leafIndex = .error e) ∨
    ∃ paths paths', insertAcceptedNoteCommitment state commitment leafIndex =
        .ok ({ state with merklePaths := paths }, ()) ∧
      insertAcceptedNoteCommitment state' commitment leafIndex =
        .ok ({ state' with merklePaths := paths' }, ()) ∧ Option.Rel SameLeaves paths paths' := by
  have hrel := h.merklePaths
  unfold insertAcceptedNoteCommitment
  rcases hpaths : state.merklePaths with _ | index
  · rcases hpaths' : state'.merklePaths with _ | index'
    · have hstate : { state with merklePaths := none } = state := by rw [← hpaths]
      have hstate' : { state' with merklePaths := none } = state' := by rw [← hpaths']
      exact .inr ⟨none, none, by rw [hstate], by rw [hstate'], .none⟩
    · rw [hpaths, hpaths'] at hrel
      cases hrel
  · rcases hpaths' : state'.merklePaths with _ | index'
    · rw [hpaths, hpaths'] at hrel
      cases hrel
    rw [hpaths, hpaths'] at hrel
    cases hrel with
    | some hsame =>
      dsimp only
      unfold ensure
      split_ifs
      · rw [ok_bind, ok_bind]
        rcases hsame.insert commitment leafIndex with ⟨e, hi, hi'⟩ | ⟨new, new', hi, hi', hnew⟩
        · rw [hi, hi']
          exact .inl ⟨e, rfl, rfl⟩
        · rw [hi, hi']
          exact .inr ⟨some new, some new', rfl, rfl, .some hnew⟩
      · exact .inl ⟨_, rfl, rfl⟩

/-- What a note does to states that hold the same. -/
theorem sameOutcome_ingestNote (h : SameContents state state') (input : IngestInput)
    (log : RawPoolLog) (args : NoteArgs) :
    (ingestNote input log state args).1.encryptedNotes =
        (ingestNote input log state' args).1.encryptedNotes ∧
      Option.Rel SameLeaves (ingestNote input log state args).1.merklePaths
        (ingestNote input log state' args).1.merklePaths ∧
      (ingestNote input log state args).1.ranges = (ingestNote input log state' args).1.ranges ∧
      (ingestNote input log state args).2 = (ingestNote input log state' args).2 := by
  unfold ingestNote
  rcases h.insert args.commitment args.leafIndex with ⟨e, hi, hi'⟩ | ⟨paths, paths', hi, hi', hrel⟩
  · rw [hi, hi']
    exact ⟨h.encryptedNotes, h.merklePaths, h.ranges, rfl⟩
  · rw [hi, hi']
    dsimp only
    rw [h.encryptedNotes]
    rcases addEncryptedNoteEvent state'.encryptedNotes (noteRecord input log args) with
      e | ⟨cache, ⟨⟩⟩
    · exact ⟨rfl, hrel, h.ranges, rfl⟩
    · exact ⟨rfl, hrel, h.ranges, rfl⟩

/-- **States that hold the same go on alike**, with one log, -/
theorem sameContents_ingestLog (h : SameContents state state') :
    SameContents (ingestLog decodeEventLog input state log).1
        (ingestLog decodeEventLog input state' log).1 ∧
      (ingestLog decodeEventLog input state log).2 =
        (ingestLog decodeEventLog input state' log).2 := by
  have hboth : ∀ key, (ingestLog decodeEventLog input state log).1.rootAt key =
      (ingestLog decodeEventLog input state' log).1.rootAt key := fun key => by
    rw [rootAt_ingestLog, rootAt_ingestLog, sameRoots_iff.mp ⟨h.roots, h.expiredRoots⟩ key]
  obtain ⟨hroots, hexpired⟩ := sameRoots_iff.mpr hboth
  have hnullifiers : ∀ key, get (ingestLog decodeEventLog input state log).1.nullifiers key =
      get (ingestLog decodeEventLog input state' log).1.nullifiers key := fun key => by
    rw [nullifiers_ingestLog, nullifiers_ingestLog, h.nullifiers]
  suffices hrest : _ ∧ Option.Rel SameLeaves _ _ ∧ _ ∧ _ from
    ⟨⟨hroots, hexpired, hnullifiers, hrest.1, hrest.2.1, hrest.2.2.1⟩, hrest.2.2.2⟩
  rcases ingestLog_cases decodeEventLog input log with ⟨-, hlog⟩ | ⟨error, -, hlog⟩ |
    ⟨event, -, -, hlog⟩ | ⟨event, args, -, -, hlog⟩
  · rw [hlog, hlog]
    exact ⟨h.encryptedNotes, h.merklePaths, h.ranges, rfl⟩
  · rw [hlog, hlog]
    exact ⟨h.encryptedNotes, h.merklePaths, h.ranges, rfl⟩
  · obtain ⟨_, _, _, hmark⟩ := markEvent_eq log state event
    obtain ⟨_, _, _, hmark'⟩ := markEvent_eq log state' event
    rw [hlog, hlog, hmark, hmark']
    exact ⟨h.encryptedNotes, h.merklePaths, h.ranges, rfl⟩
  · rw [hlog, hlog]
    exact sameOutcome_ingestNote h input log args

/-- and with a whole batch. -/
theorem sameContents_ingestPoolLogs (h : SameContents state state') (input : IngestInput) :
    SameOutcome (ingestPoolLogs decodeEventLog state input)
      (ingestPoolLogs decodeEventLog state' input) := by
  have hstep : ∀ (s t : IndexerState), ∀ log ∈ input.logs, SameContents s t →
      SameContents (ingestLog decodeEventLog input s log).1
        (ingestLog decodeEventLog input t log).1 ∧
      (ingestLog decodeEventLog input s log).2 = (ingestLog decodeEventLog input t log).2 :=
    fun s t log _ hst => sameContents_ingestLog hst
  have hloop := forEach_rel hstep h
  unfold ingestPoolLogs
  rcases hs : forEach (ingestLog decodeEventLog input) state input.logs with ⟨s, e | u⟩
  · rcases ht : forEach (ingestLog decodeEventLog input) state' input.logs with ⟨t, e' | u'⟩
    · rw [hs, ht] at hloop
      exact hloop
    · rw [hs, ht] at hloop
      exact absurd hloop.2 nofun
  · rcases ht : forEach (ingestLog decodeEventLog input) state' input.logs with ⟨t, e' | u'⟩
    · rw [hs, ht] at hloop
      exact absurd hloop.2 nofun
    · rw [hs, ht] at hloop
      have hst : SameContents s t := hloop.1
      rw [andThen_ok, andThen_ok]
      unfold markChecked
      rw [hst.ranges]
      rcases markCheckedRange t.ranges input.checkedRange with e | ⟨ranges, ⟨⟩⟩
      · exact ⟨hst, rfl⟩
      · exact ⟨⟨hst.roots, hst.expiredRoots, hst.nullifiers, hst.encryptedNotes, hst.merklePaths,
          rfl⟩, rfl⟩

end Same

/-! ### The logs before the first refused one -/

section Quiet
variable (decodeEventLog : DecodeEventLog) (pool : Text)

/-- The log is none of the pool, or it is decoded and is no note. -/
def isQuiet (log : RawPoolLog) : Bool :=
  match readLog decodeEventLog pool log with
  | none => true
  | some (.error _) => false
  | some (.ok event) => (noteOf event).isNone

def quietLogs (logs : List RawPoolLog) : List RawPoolLog := logs.takeWhile (isQuiet decodeEventLog pool)

/-- The note of the first log that is not quiet, if it can be decoded. -/
def nextNote (logs : List RawPoolLog) : Option NoteArgs :=
  (logs.dropWhile (isQuiet decodeEventLog pool)).head?.bind (noteOfLog decodeEventLog pool)

/-- **The note is refused and leaves no leaf behind**: the leaf does not fit, or the payload is
refused and the leaf was there. -/
def RefusedCleanly (merklePaths : Option MerklePathIndex) (args : NoteArgs) : Prop :=
  (∃ index ∈ merklePaths, ¬Fits index args) ∨
    ¬isHexString args.encryptedNote ∧ ∀ index ∈ merklePaths, Fits index args ∧
      get index.leavesByIndex (args.leafIndex : ℤ) = some args.commitment ∧
      get index.indexByCommitment (lower args.commitment) = some (args.leafIndex : ℤ)

/-- **Nothing is refused**, neither a log nor the range. -/
def Accepts (state : IndexerState) (input : IngestInput) : Prop :=
  AcceptsLogs decodeEventLog input.pool state.merklePaths input.logs ∧
    input.checkedRange.fromBlock ≤ input.checkedRange.toBlock

/-- **The logs up to the first note or undecodable log leave no trace**: what they say last of each
root and nullifier the state says already, and if a note comes next it is refused cleanly. -/
structure Traceless (state : IndexerState) (input : IngestInput) : Prop where
  roots : ∀ key v, lastWrite (rootWrite decodeEventLog input.pool)
    (quietLogs decodeEventLog input.pool input.logs) key = some v → state.rootAt key = v
  nullifiers : ∀ key r, lastWrite (nullifierWrite decodeEventLog input.pool)
    (quietLogs decodeEventLog input.pool input.logs) key = some r →
      get state.nullifiers key = some r
  next : ∀ args, nextNote decodeEventLog input.pool input.logs = some args →
    RefusedCleanly state.merklePaths args

/-- **An atomic ingestion**: if it throws it leaves the contents as they were, and a retry ends as it
would have without it. -/
def Atomic (state : IndexerState) (input : IngestInput) : Prop :=
  ∀ error, (ingestPoolLogs decodeEventLog state input).2 = .error error →
    SameContents (ingestPoolLogs decodeEventLog state input).1 state ∧
    ∀ retry, SameOutcome
      (ingestPoolLogs decodeEventLog (ingestPoolLogs decodeEventLog state input).1 retry)
      (ingestPoolLogs decodeEventLog state retry)

end Quiet

section Failure
variable {decodeEventLog : DecodeEventLog} {input : IngestInput} {state : IndexerState}

theorem isQuiet_iff {pool : Text} {log : RawPoolLog} : isQuiet decodeEventLog pool log = true ↔
    noteOfLog decodeEventLog pool log = none ∧
      ∀ error, readLog decodeEventLog pool log ≠ some (.error error) := by
  unfold isQuiet noteOfLog
  rcases readLog decodeEventLog pool log with _ | error | event
  · simp
  · simp
  · simp

/-- Quiet logs go through, and leave the index and the notes alone. -/
theorem ingestLogs_quiet {logs : List RawPoolLog}
    (h : ∀ log ∈ logs, isQuiet decodeEventLog input.pool log = true) :
    ∃ state', forEach (ingestLog decodeEventLog input) state logs = (state', .ok ()) ∧
      state'.merklePaths = state.merklePaths ∧ state'.encryptedNotes = state.encryptedNotes ∧
      state'.ranges = state.ranges := by
  have hnone : ∀ log ∈ logs, noteOfLog decodeEventLog input.pool log = none := fun log hlog =>
    (isQuiet_iff.mp (h log hlog)).1
  have hnotes : notesOf decodeEventLog input.pool logs = [] := by
    unfold notesOf
    exact List.filterMap_eq_nil_iff.mpr hnone
  have hrecords : recordsOf decodeEventLog input logs = [] := by
    unfold recordsOf
    exact List.filterMap_eq_nil_iff.mpr fun log hlog => by rw [hnone log hlog]; rfl
  have haccepts : AcceptsLogs decodeEventLog input.pool state.merklePaths logs := by
    refine ⟨fun log hlog => (isQuiet_iff.mp (h log hlog)).2, ?_, ?_, fun _ => ?_⟩
    all_goals rw [hnotes]
    · exact fun _ hargs => absurd hargs List.not_mem_nil
    · exact fun _ hargs => absurd hargs List.not_mem_nil
    · exact List.Pairwise.nil
  obtain ⟨state', hok⟩ := ingestLogs_isOk.mpr haccepts
  obtain ⟨hpaths, hrec, hranges⟩ := ingestLogs_notes hok
  rw [hnotes] at hpaths
  rw [hrecords, List.append_nil] at hrec
  exact ⟨state', hok, hpaths, congrArg EncryptedNoteCache.mk hrec, hranges⟩

/-- Records are never taken away. -/
theorem records_ingestLogs (logs : List RawPoolLog) : state.encryptedNotes.records.length ≤
    (forEach (ingestLog decodeEventLog input) state logs).1.encryptedNotes.records.length := by
  refine forEach_induction (I := fun s : IndexerState =>
    state.encryptedNotes.records.length ≤ s.encryptedNotes.records.length)
    (fun s log _ hs => hs.trans ?_) le_rfl
  rcases ingestLog_cases decodeEventLog input log with ⟨-, hlog⟩ | ⟨error, -, hlog⟩ |
    ⟨event, -, -, hlog⟩ | ⟨event, args, -, -, hlog⟩
  · rw [hlog]
  · rw [hlog]
  · obtain ⟨_, _, _, hmark⟩ := markEvent_eq log s event
    rw [hlog, hmark]
  · rw [hlog]
    rcases ingestNote_cases input log s args with ⟨_, hn, -⟩ | ⟨_, hn, -⟩ | ⟨hn, -⟩
    · rw [hn]
    · rw [hn]
    · rw [hn]
      exact (@List.length_append _ s.encryptedNotes.records _).symm ▸ Nat.le_add_right _ _

theorem markChecked_error {s : IndexerState} {error : String}
    (h : (markChecked input s).2 = .error error) : (markChecked input s).1 = s := by
  unfold markChecked at h ⊢
  rcases hmark : markCheckedRange s.ranges input.checkedRange with e | ⟨ranges, ⟨⟩⟩
  · rfl
  · rw [hmark] at h
    cases h

/-- **Where an ingestion throws**: at an undecodable log, a refused leaf or the range; at a refused
payload, whose leaf stays; or behind a note whose record stays. -/
theorem ingestPoolLogs_thrown {error : String}
    (h : (ingestPoolLogs decodeEventLog state input).2 = .error error) :
    ∃ quiet, forEach (ingestLog decodeEventLog input) state
        (quietLogs decodeEventLog input.pool input.logs) = (quiet, .ok ()) ∧
      quiet.merklePaths = state.merklePaths ∧ quiet.encryptedNotes = state.encryptedNotes ∧
      quiet.ranges = state.ranges ∧
      ((ingestPoolLogs decodeEventLog state input).1 = quiet ∧
          (∀ args, nextNote decodeEventLog input.pool input.logs = some args →
            ∃ index ∈ state.merklePaths, ¬Fits index args) ∨
        (∃ args, nextNote decodeEventLog input.pool input.logs = some args ∧
          (ingestPoolLogs decodeEventLog state input).1 = { quiet with
            merklePaths := quiet.merklePaths.map fun index =>
              withLeaf index args.commitment args.leafIndex } ∧
          (∀ index ∈ state.merklePaths, Fits index args) ∧ ¬isHexString args.encryptedNote) ∨
        state.encryptedNotes.records.length <
            (ingestPoolLogs decodeEventLog state input).1.encryptedNotes.records.length ∧
          ∃ args, nextNote decodeEventLog input.pool input.logs = some args ∧
            (∀ index ∈ state.merklePaths, Fits index args) ∧ isHexString args.encryptedNote) := by
  have hquiet : ∀ log ∈ quietLogs decodeEventLog input.pool input.logs,
      isQuiet decodeEventLog input.pool log = true := fun log hlog => List.mem_takeWhile_imp hlog
  obtain ⟨quiet, hq, hpaths, hnotes, hranges⟩ := @ingestLogs_quiet decodeEventLog input state _ hquiet
  refine ⟨quiet, hq, hpaths, hnotes, hranges, ?_⟩
  have hsplit : ingestPoolLogs decodeEventLog state input =
      andThen (forEach (ingestLog decodeEventLog input) quiet
        (input.logs.dropWhile (isQuiet decodeEventLog input.pool))) (markChecked input) := by
    unfold ingestPoolLogs
    conv_lhs => rw [← List.takeWhile_append_dropWhile (p := isQuiet decodeEventLog input.pool)
      (l := input.logs)]
    rw [forEach_append]
    change andThen (andThen (forEach _ _ (quietLogs decodeEventLog input.pool input.logs)) _) _ = _
    rw [hq, andThen_ok]
  rw [hsplit] at h ⊢
  unfold nextNote
  rcases hrest : input.logs.dropWhile (isQuiet decodeEventLog input.pool) with _ | ⟨log, after⟩
  · rw [hrest] at h
    rw [forEach, andThen_ok] at h ⊢
    exact .inl ⟨markChecked_error h, fun _ hargs => by cases hargs⟩
  rw [hrest] at h
  have hloud : ¬isQuiet decodeEventLog input.pool log = true := by
    have hhead := List.head?_dropWhile_not (isQuiet decodeEventLog input.pool) input.logs
    rw [hrest] at hhead
    exact Bool.not_eq_true _ ▸ hhead
  rw [forEach, andThen_assoc] at h ⊢
  rw [List.head?_cons, Option.bind_some]
  rcases ingestLog_cases decodeEventLog input log with ⟨hread, -⟩ | ⟨e, hread, hlog⟩ |
    ⟨event, hread, hnote, -⟩ | ⟨event, args, hread, hnote, hlog⟩
  · exact absurd (isQuiet_iff.mpr ⟨noteOfLog_of_none hread, by simp [hread]⟩) hloud
  · rw [hlog, andThen_error]
    refine .inl ⟨rfl, fun args hargs => ?_⟩
    unfold noteOfLog at hargs
    rw [hread] at hargs
    cases hargs
  · exact absurd (isQuiet_iff.mpr ⟨(noteOfLog_of_ok hread).trans hnote, by simp [hread]⟩) hloud
  · have hnext : noteOfLog decodeEventLog input.pool log = some args :=
      (noteOfLog_of_ok hread).trans hnote
    rw [hlog] at h ⊢
    rw [← hpaths]
    rcases ingestNote_cases input log quiet args with ⟨e, hn, hrefused⟩ | ⟨e, hn, hfits, hhex⟩ |
      ⟨hn, hfits, hhex⟩
    · rw [hn, andThen_error]
      refine .inl ⟨rfl, fun args' hargs' => ?_⟩
      rw [← Option.some.inj (hnext.symm.trans hargs')]
      exact hrefused
    · rw [hn, andThen_error]
      exact .inr (.inl ⟨args, hnext, rfl, hfits, hhex⟩)
    · rw [hn, andThen_ok] at h ⊢
      refine .inr (.inr ⟨?_, args, hnext, hfits, hhex⟩)
      have hmore : state.encryptedNotes.records.length <
          (withNote input log quiet args).encryptedNotes.records.length := by
        rw [← hnotes]
        exact (@List.length_append _ quiet.encryptedNotes.records _).symm ▸ Nat.lt_succ_self _
      have hkept := @records_ingestLogs decodeEventLog input (withNote input log quiet args) after
      rcases hafter : forEach (ingestLog decodeEventLog input) (withNote input log quiet args) after
        with ⟨t, e | u⟩
      · rw [hafter] at hkept
        rw [andThen_error]
        exact hmore.trans_le hkept
      · rw [hafter] at hkept h
        rw [andThen_ok] at h ⊢
        rw [markChecked_error h]
        exact hmore.trans_le hkept

/-- An ingestion goes through exactly if nothing is refused. -/
theorem ingestPoolLogs_isOk :
    (∃ state', ingestPoolLogs decodeEventLog state input = (state', .ok ())) ↔
      Accepts decodeEventLog state input := by
  unfold ingestPoolLogs Accepts
  simp only [andThen_eq_ok]
  rw [← ingestLogs_isOk]
  have hmark : ∀ {s : IndexerState}, (∃ t, markChecked input s = (t, .ok ())) ↔
      input.checkedRange.fromBlock ≤ input.checkedRange.toBlock := by
    intro s
    unfold markChecked markCheckedRange ensure
    split_ifs with h
    · refine iff_of_false ?_ (not_le.mpr h)
      rintro ⟨_, ht⟩
      cases ht
    · exact iff_of_true ⟨_, rfl⟩ (not_lt.mp h)
  constructor
  · rintro ⟨t, s, ⟨⟩, hs, ht⟩
    exact ⟨⟨s, hs⟩, hmark.mp ⟨t, ht⟩⟩
  · rintro ⟨⟨s, hs⟩, hle⟩
    obtain ⟨t, ht⟩ := hmark.mpr hle
    exact ⟨t, s, ⟨⟩, hs, ht⟩

theorem exists_error_of_not_accepts (h : ¬Accepts decodeEventLog state input) :
    ∃ error, (ingestPoolLogs decodeEventLog state input).2 = .error error := by
  rcases hr : ingestPoolLogs decodeEventLog state input with ⟨t, error | ⟨⟩⟩
  · exact ⟨error, rfl⟩
  · exact absurd (ingestPoolLogs_isOk.mp ⟨t, hr⟩) h

/-- Logs that go through leave the roots as they were if they say last what was said before. -/
theorem sameRoots_of_ingestLogs {logs : List RawPoolLog} {state' : IndexerState}
    (h : forEach (ingestLog decodeEventLog input) state logs = (state', .ok ())) :
    (∀ key, state'.rootAt key = state.rootAt key) ↔ ∀ key v,
      lastWrite (rootWrite decodeEventLog input.pool) logs key = some v → state.rootAt key = v := by
  refine forall_congr' fun key => ?_
  rw [rootAt_ingestLogs key h]
  rcases lastWrite (rootWrite decodeEventLog input.pool) logs key with _ | v
  · simp
  · simp [eq_comm]

theorem sameNullifiers_of_ingestLogs {logs : List RawPoolLog} {state' : IndexerState}
    (h : forEach (ingestLog decodeEventLog input) state logs = (state', .ok ())) :
    (∀ key, get state'.nullifiers key = get state.nullifiers key) ↔ ∀ key r,
      lastWrite (nullifierWrite decodeEventLog input.pool) logs key = some r →
        get state.nullifiers key = some r := by
  refine forall_congr' fun key => ?_
  rw [nullifiers_ingestLogs key h]
  rcases lastWrite (nullifierWrite decodeEventLog input.pool) logs key with _ | v
  · simp
  · simp [eq_comm]

theorem traceless_of_atomic {error : String} (hatomic : Atomic decodeEventLog state input)
    (hthrown : (ingestPoolLogs decodeEventLog state input).2 = .error error) :
    Traceless decodeEventLog state input := by
  obtain ⟨quiet, hq, hpaths, -, -, hends⟩ := ingestPoolLogs_thrown hthrown
  have hsame := (hatomic error hthrown).1
  rcases hends with ⟨hfinal, hrefused⟩ | ⟨args, hnext, hfinal, hfits, hhex⟩ | ⟨hmore, -⟩
  · rw [hfinal] at hsame
    exact ⟨(sameRoots_of_ingestLogs hq).mp (sameRoots_iff.mp ⟨hsame.roots, hsame.expiredRoots⟩),
      (sameNullifiers_of_ingestLogs hq).mp hsame.nullifiers,
      fun args hargs => .inl (hrefused args hargs)⟩
  · rw [hfinal] at hsame
    refine ⟨(sameRoots_of_ingestLogs hq).mp (sameRoots_iff.mp ⟨hsame.roots, hsame.expiredRoots⟩),
      (sameNullifiers_of_ingestLogs hq).mp hsame.nullifiers, fun args' hargs' => .inr ?_⟩
    obtain rfl := Option.some.inj (hnext.symm.trans hargs')
    refine ⟨hhex, fun index hindex => ⟨hfits index hindex, ?_⟩⟩
    have hrel := hsame.merklePaths
    rw [hpaths, hindex, Option.map_some] at hrel
    cases hrel with
    | some hleaves =>
      rw [← hleaves.leavesByIndex, ← hleaves.indexByCommitment]
      exact ⟨get_set_self _ _ _, get_set_self _ _ _⟩
  · exact absurd hmore (hsame.encryptedNotes ▸ lt_irrefl _)

theorem sameContents_of_traceless {error : String} (htraceless : Traceless decodeEventLog state input)
    (hthrown : (ingestPoolLogs decodeEventLog state input).2 = .error error) :
    SameContents (ingestPoolLogs decodeEventLog state input).1 state := by
  obtain ⟨quiet, hq, hpaths, hnotes, hranges, hends⟩ := ingestPoolLogs_thrown hthrown
  obtain ⟨hroots, hexpired⟩ :=
    sameRoots_iff.mpr ((sameRoots_of_ingestLogs hq).mpr htraceless.roots)
  have hnullifiers := (sameNullifiers_of_ingestLogs hq).mpr htraceless.nullifiers
  rcases hends with ⟨hfinal, -⟩ | ⟨args, hnext, hfinal, hfits, hhex⟩ | ⟨-, args, hnext, hfits, hhex⟩
  · rw [hfinal]
    exact ⟨hroots, hexpired, hnullifiers, hnotes, hpaths ▸ sameLeaves_rel_refl _, hranges⟩
  · rw [hfinal]
    refine ⟨hroots, hexpired, hnullifiers, hnotes, ?_, hranges⟩
    rcases htraceless.next args hnext with ⟨index, hindex, hno⟩ | ⟨-, hthere⟩
    · exact absurd (hfits index hindex) hno
    · change Option.Rel SameLeaves (quiet.merklePaths.map _) state.merklePaths
      rw [hpaths]
      rcases hstate : state.merklePaths with _ | index
      · exact .none
      · obtain ⟨-, hplace, hcommitment⟩ := hthere index hstate
        exact .some (sameLeaves_withLeaf_self hplace hcommitment)
  · rcases htraceless.next args hnext with ⟨index, hindex, hno⟩ | ⟨hno, -⟩
    · exact absurd (hfits index hindex) hno
    · exact absurd hhex hno

/-- **Exactly when an ingestion is atomic**: nothing is refused, or what came before the refusal
leaves no trace. -/
theorem atomic_iff (decodeEventLog : DecodeEventLog) (state : IndexerState) (input : IngestInput) :
    Atomic decodeEventLog state input ↔
      Accepts decodeEventLog state input ∨ Traceless decodeEventLog state input := by
  constructor
  · intro hatomic
    by_cases haccepts : Accepts decodeEventLog state input
    · exact .inl haccepts
    · obtain ⟨error, hthrown⟩ := exists_error_of_not_accepts haccepts
      exact .inr (traceless_of_atomic hatomic hthrown)
  · rintro (haccepts | htraceless) error hthrown
    · obtain ⟨state', hok⟩ := ingestPoolLogs_isOk.mpr haccepts
      rw [hok] at hthrown
      cases hthrown
    · have hsame := sameContents_of_traceless htraceless hthrown
      exact ⟨hsame, fun retry => sameContents_ingestPoolLogs hsame retry⟩

/-- The first two logs of a deposit: a new root, and an event the indexer does not know. -/
def depositLogs : List RawPoolLog :=
  [sampleLog [rootAcceptedTopic, hex32 0x22, hex32 0x33, hex32 0x11] ['0', 'x'] 0,
    sampleLog [depositCommitmentInsertedTopic, hex32 0x11] (hex32 1000) 1]

/-- **A root that stays** although the ingestion throws. -/
theorem root_left_behind :
    ¬Atomic sampleDecode (createIndexerState none) (sampleInput depositLogs) := by
  intro h
  have hthrown : (ingestPoolLogs sampleDecode (createIndexerState none)
      (sampleInput depositLogs)).2 = .error "AbiEventSignatureNotFoundError" := by decide +kernel
  have hroots := (h _ hthrown).1.roots (hex32 0x22)
  have hstays : (get (ingestPoolLogs sampleDecode (createIndexerState none)
      (sampleInput depositLogs)).1.roots (hex32 0x22)).isSome = true := by decide +kernel
  rw [hroots] at hstays
  cases hstays

end Failure

end Nullark.Indexer.Atomicity
