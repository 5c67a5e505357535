import Nullark.Indexer.EncryptedNotes
import Nullark.Indexer.MerklePaths
import Nullark.Indexer.Ranges

/-! # The ingestion of the logs of a pool

`ingestPoolLogs` changes the state of the indexer log by log, and what it has changed stays changed
when a later log makes it throw. How viem decodes a log is a parameter.

* `ingestLog_cases`: what one log does.
* `rootAt_ingestLog`, `nullifiers_ingestLog`: the roots and nullifiers after one log. -/

namespace Nullark.Indexer.LogIngest

open Nullark.Lib.Outcome Nullark.Lib.Hex Nullark.Lib.Ordered Nullark.Lib.Binary64
open Nullark.Js.Basic Nullark.Js.Bytes
open Nullark.Indexer.EncryptedNotes Nullark.Indexer.MerklePaths Nullark.Indexer.Ranges

/-! ### The code -/

/-- **What `decodeEventLog` returns** for the events of `POOL_EVENT_ABI`. -/
inductive PoolEvent
  | depositNoteCreated (commitment : Text) (leafIndex : ℕ) (encryptedNote : Text)
      (encryptionVersion : ℕ)
  | privateTransferNoteCreated (commitment nullifier : Text) (leafIndex : ℕ)
      (encryptedNote : Text) (encryptionVersion : ℕ)
  | withdrawalChangeNoteCreated (commitment nullifier : Text) (leafIndex grossAmount : ℕ)
      (encryptedNote : Text) (encryptionVersion : ℕ)
  | withdrawalOutputNoteCreated (commitment nullifier : Text) (leafIndex grossAmount : ℕ)
      (encryptedNote : Text) (encryptionVersion : ℕ)
  | rootAccepted (root previousRoot insertedCommitment : Text)
  | rootExpired (root : Text)
  | nullifierSpent (nullifier : Text)
  deriving DecidableEq, Repr

structure RawPoolLog where
  address : Text
  topics : List Text
  data : Text
  blockNumber : ℤ
  transactionHash : Text
  logIndex : ℕ
  deriving DecidableEq, Repr

/-- `decodeEventLog`, for the topics and the data of a log. -/
abbrev DecodeEventLog := List Text → Text → Throws PoolEvent

structure RootRecord where
  root : Text
  previousRoot : Text
  insertedCommitment : Text
  blockNumber : ℤ
  transactionHash : Text
  logIndex : ℕ
  deriving DecidableEq, Repr

structure NullifierRecord where
  nullifier : Text
  spent : Bool
  blockNumber : ℤ
  transactionHash : Text
  logIndex : ℕ
  deriving DecidableEq, Repr

structure RootExpiredRecord where
  root : Text
  blockNumber : ℤ
  transactionHash : Text
  logIndex : ℕ
  deriving DecidableEq, Repr

structure IndexerState where
  encryptedNotes : EncryptedNoteCache
  merklePaths : Option MerklePathIndex
  roots : JsMap Text RootRecord
  expiredRoots : JsMap Text RootExpiredRecord
  nullifiers : JsMap Text NullifierRecord
  ranges : RangeTracker

def createIndexerState (merklePaths : Option MerklePathIndex) : IndexerState where
  encryptedNotes := createEncryptedNoteCache
  merklePaths
  roots := []
  expiredRoots := []
  nullifiers := []
  ranges := createRangeTracker

structure IngestInput where
  chainId : ℕ
  pool : Text
  sourceRpc : Text
  observedAtMs : ℕ
  logs : List RawPoolLog
  checkedRange : BlockRange

/-- `Number.MAX_SAFE_INTEGER`. -/
def maxSafeInteger : ℕ := 2 ^ 53 - 1

def insertAcceptedNoteCommitment (state : IndexerState) (commitment : Text) (leafIndex : ℕ) :
    Throws (IndexerState × Unit) :=
  match state.merklePaths with
  | none => .ok (state, ())
  | some merklePaths => do
    ensure (leafIndex ≤ maxSafeInteger) "Leaf index exceeds safe JavaScript index range."
    let (merklePaths, ()) ← insertIndexedCommitment merklePaths commitment leafIndex
    return ({ state with merklePaths := some merklePaths }, ())

/-- What the branches for the four note events have in common. -/
structure NoteArgs where
  eventType : EncryptedNoteEventType
  commitment : Text
  nullifier : Option Text
  leafIndex : ℕ
  encryptedNote : Text
  encryptionVersion : ℕ
  deriving DecidableEq, Repr

/-- The record that is pushed for a note. -/
def noteRecord (input : IngestInput) (log : RawPoolLog) (args : NoteArgs) :
    EncryptedNoteEventRecord where
  chainId := input.chainId
  pool := input.pool
  eventType := args.eventType
  commitment := args.commitment
  nullifier := args.nullifier
  leafIndex := round args.leafIndex
  encryptedNote := args.encryptedNote
  encryptionVersion := args.encryptionVersion
  blockNumber := log.blockNumber
  transactionHash := log.transactionHash
  logIndex := log.logIndex
  observedAtMs := input.observedAtMs
  sourceRpc := input.sourceRpc

/-- The branch for a note: the leaf comes first, and stays when the payload is refused. -/
def ingestNote (input : IngestInput) (log : RawPoolLog) (state : IndexerState) (args : NoteArgs) :
    IndexerState × Throws Unit :=
  match insertAcceptedNoteCommitment state args.commitment args.leafIndex with
  | .error error => (state, .error error)
  | .ok (state, ()) =>
    match addEncryptedNoteEvent state.encryptedNotes (noteRecord input log args) with
    | .error error => (state, .error error)
    | .ok (encryptedNotes, ()) => ({ state with encryptedNotes }, .ok ())

/-- The branch for `RootAccepted`. -/
def acceptRoot (log : RawPoolLog) (state : IndexerState) (root previousRoot insertedCommitment : Text) :
    IndexerState :=
  let rootKey := lower root
  { state with
    expiredRoots := delete state.expiredRoots rootKey
    roots := set state.roots rootKey
      { root, previousRoot, insertedCommitment, blockNumber := log.blockNumber
        transactionHash := log.transactionHash, logIndex := log.logIndex } }

/-- The branch for `RootExpired`. -/
def expireRoot (log : RawPoolLog) (state : IndexerState) (root : Text) : IndexerState :=
  let rootKey := lower root
  { state with
    roots := delete state.roots rootKey
    expiredRoots := set state.expiredRoots rootKey
      { root, blockNumber := log.blockNumber, transactionHash := log.transactionHash
        logIndex := log.logIndex } }

/-- The branch for `NullifierSpent`. -/
def spendNullifier (log : RawPoolLog) (state : IndexerState) (nullifier : Text) : IndexerState :=
  { state with
    nullifiers := set state.nullifiers (lower nullifier)
      { nullifier, spent := true, blockNumber := log.blockNumber
        transactionHash := log.transactionHash, logIndex := log.logIndex } }

/-- The branches of `ingestPoolLogs`. -/
def ingestEvent (input : IngestInput) (log : RawPoolLog) (state : IndexerState) :
    PoolEvent → IndexerState × Throws Unit
  | .depositNoteCreated commitment leafIndex encryptedNote encryptionVersion =>
    ingestNote input log state
      ⟨.deposit, commitment, none, leafIndex, encryptedNote, encryptionVersion⟩
  | .privateTransferNoteCreated commitment nullifier leafIndex encryptedNote encryptionVersion =>
    ingestNote input log state
      ⟨.privateTransfer, commitment, some nullifier, leafIndex, encryptedNote, encryptionVersion⟩
  | .withdrawalChangeNoteCreated commitment nullifier leafIndex _ encryptedNote encryptionVersion =>
    ingestNote input log state
      ⟨.withdrawChange, commitment, some nullifier, leafIndex, encryptedNote, encryptionVersion⟩
  | .withdrawalOutputNoteCreated commitment nullifier leafIndex _ encryptedNote encryptionVersion =>
    ingestNote input log state
      ⟨.withdrawOutput, commitment, some nullifier, leafIndex, encryptedNote, encryptionVersion⟩
  | .rootAccepted root previousRoot insertedCommitment =>
    (acceptRoot log state root previousRoot insertedCommitment, .ok ())
  | .rootExpired root => (expireRoot log state root, .ok ())
  | .nullifierSpent nullifier => (spendNullifier log state nullifier, .ok ())

section Code
variable (decodeEventLog : DecodeEventLog)

/-- One round of the loop. -/
def ingestLog (input : IngestInput) (state : IndexerState) (log : RawPoolLog) :
    IndexerState × Throws Unit :=
  if lower log.address ≠ lower input.pool then (state, .ok ())
  else
    match decodeEventLog log.topics log.data with
    | .error error => (state, .error error)
    | .ok event => ingestEvent input log state event

/-- The last line of `ingestPoolLogs`. -/
def markChecked (input : IngestInput) (state : IndexerState) : IndexerState × Throws Unit :=
  match markCheckedRange state.ranges input.checkedRange with
  | .error error => (state, .error error)
  | .ok (ranges, ()) => ({ state with ranges }, .ok ())

/-- **`ingestPoolLogs`**: the state it leaves, also when it throws, and the error. -/
def ingestPoolLogs (state : IndexerState) (input : IngestInput) : IndexerState × Throws Unit :=
  andThen (forEach (ingestLog decodeEventLog input) state input.logs) (markChecked input)

end Code

/-! ### What a log is -/

/-- The note of an event. -/
def noteOf : PoolEvent → Option NoteArgs
  | .depositNoteCreated commitment leafIndex encryptedNote encryptionVersion =>
    some ⟨.deposit, commitment, none, leafIndex, encryptedNote, encryptionVersion⟩
  | .privateTransferNoteCreated commitment nullifier leafIndex encryptedNote encryptionVersion =>
    some ⟨.privateTransfer, commitment, some nullifier, leafIndex, encryptedNote, encryptionVersion⟩
  | .withdrawalChangeNoteCreated commitment nullifier leafIndex _ encryptedNote encryptionVersion =>
    some ⟨.withdrawChange, commitment, some nullifier, leafIndex, encryptedNote, encryptionVersion⟩
  | .withdrawalOutputNoteCreated commitment nullifier leafIndex _ encryptedNote encryptionVersion =>
    some ⟨.withdrawOutput, commitment, some nullifier, leafIndex, encryptedNote, encryptionVersion⟩
  | _ => none

/-- The effect of an event without a note. -/
def markEvent (log : RawPoolLog) (state : IndexerState) : PoolEvent → IndexerState
  | .rootAccepted root previousRoot insertedCommitment =>
    acceptRoot log state root previousRoot insertedCommitment
  | .rootExpired root => expireRoot log state root
  | .nullifierSpent nullifier => spendNullifier log state nullifier
  | _ => state

section Logs
variable (decodeEventLog : DecodeEventLog) (pool : Text)

/-- What decoding a log gives, if it is one of the pool. -/
def readLog (log : RawPoolLog) : Option (Throws PoolEvent) :=
  if lower log.address ≠ lower pool then none else some (decodeEventLog log.topics log.data)

/-- The note of a log. -/
def noteOfLog (log : RawPoolLog) : Option NoteArgs :=
  match readLog decodeEventLog pool log with
  | some (.ok event) => noteOf event
  | _ => none

/-- What a log says about the root with this key: it is accepted or it has expired. -/
def rootWrite (log : RawPoolLog) (key : Text) : Option (Option RootRecord × Option RootExpiredRecord) :=
  match readLog decodeEventLog pool log with
  | some (.ok (.rootAccepted root previousRoot insertedCommitment)) =>
    if key = lower root then
      some (some ⟨root, previousRoot, insertedCommitment, log.blockNumber, log.transactionHash,
        log.logIndex⟩, none)
    else none
  | some (.ok (.rootExpired root)) =>
    if key = lower root then
      some (none, some ⟨root, log.blockNumber, log.transactionHash, log.logIndex⟩)
    else none
  | _ => none

/-- What a log says about the nullifier with this key. -/
def nullifierWrite (log : RawPoolLog) (key : Text) : Option NullifierRecord :=
  match readLog decodeEventLog pool log with
  | some (.ok (.nullifierSpent nullifier)) =>
    if key = lower nullifier then
      some ⟨nullifier, true, log.blockNumber, log.transactionHash, log.logIndex⟩
    else none
  | _ => none

end Logs

theorem noteOfLog_of_none {decodeEventLog : DecodeEventLog} {pool : Text} {log : RawPoolLog}
    (h : readLog decodeEventLog pool log = none) : noteOfLog decodeEventLog pool log = none := by
  unfold noteOfLog
  rw [h]

theorem noteOfLog_of_ok {decodeEventLog : DecodeEventLog} {pool : Text} {log : RawPoolLog}
    {event : PoolEvent} (h : readLog decodeEventLog pool log = some (.ok event)) :
    noteOfLog decodeEventLog pool log = noteOf event := by
  unfold noteOfLog
  rw [h]

/-- What the state says about the root with this key. -/
def IndexerState.rootAt (state : IndexerState) (key : Text) :
    Option RootRecord × Option RootExpiredRecord :=
  (get state.roots key, get state.expiredRoots key)

/-! ### One log -/

section Step
variable {decodeEventLog : DecodeEventLog} {input : IngestInput} {log : RawPoolLog}
  {state : IndexerState}

/-- **What one log does**: it is none of the pool, or it cannot be decoded, or it is a mark, or it is
a note. -/
theorem ingestLog_cases (decodeEventLog : DecodeEventLog) (input : IngestInput) (log : RawPoolLog) :
    (readLog decodeEventLog input.pool log = none ∧
      ∀ state, ingestLog decodeEventLog input state log = (state, .ok ())) ∨
    (∃ error, readLog decodeEventLog input.pool log = some (.error error) ∧
      ∀ state, ingestLog decodeEventLog input state log = (state, .error error)) ∨
    (∃ event, readLog decodeEventLog input.pool log = some (.ok event) ∧ noteOf event = none ∧
      ∀ state, ingestLog decodeEventLog input state log = (markEvent log state event, .ok ())) ∨
    ∃ event args, readLog decodeEventLog input.pool log = some (.ok event) ∧
      noteOf event = some args ∧
      ∀ state, ingestLog decodeEventLog input state log = ingestNote input log state args := by
  unfold readLog ingestLog
  by_cases haddress : lower log.address ≠ lower input.pool
  · exact .inl ⟨if_pos haddress, fun _ => if_pos haddress⟩
  simp only [if_neg haddress]
  rcases hdecode : decodeEventLog log.topics log.data with error | event
  · exact .inr (.inl ⟨error, rfl, fun _ => rfl⟩)
  refine .inr (.inr ?_)
  rcases hnote : noteOf event with _ | args
  · refine .inl ⟨event, rfl, hnote, fun state => ?_⟩
    cases event with
    | rootAccepted | rootExpired | nullifierSpent => rfl
    | _ => cases hnote
  · refine .inr ⟨event, args, rfl, hnote, fun state => ?_⟩
    cases event with
    | rootAccepted | rootExpired | nullifierSpent => cases hnote
    | _ => cases hnote; rfl

/-- The index and the notes are left alone by a mark. -/
theorem markEvent_eq (log : RawPoolLog) (state : IndexerState) (event : PoolEvent) :
    ∃ roots expiredRoots nullifiers,
      markEvent log state event = { state with roots, expiredRoots, nullifiers } := by
  cases event with
  | rootAccepted | rootExpired | nullifierSpent => exact ⟨_, _, _, rfl⟩
  | _ => exact ⟨_, _, _, rfl⟩

/-- The index and the notes are all that a note changes. -/
theorem ingestNote_eq (input : IngestInput) (log : RawPoolLog) (state : IndexerState)
    (args : NoteArgs) : ∃ merklePaths encryptedNotes, (ingestNote input log state args).1 =
      { state with merklePaths, encryptedNotes } := by
  have hinsert : ∀ {state'}, insertAcceptedNoteCommitment state args.commitment args.leafIndex =
      .ok (state', ()) → ∃ merklePaths, state' = { state with merklePaths } := by
    intro state' h
    unfold insertAcceptedNoteCommitment at h
    rcases hpaths : state.merklePaths with _ | index
    · rw [hpaths] at h
      obtain ⟨rfl, -⟩ := Prod.mk.inj (Except.ok.inj h)
      exact ⟨none, by rw [← hpaths]⟩
    · rw [hpaths] at h
      obtain ⟨_, -, ⟨merklePaths, _⟩, -, hret⟩ := by simpa only [bind_eq_ok] using h
      obtain ⟨rfl, -⟩ := Prod.mk.inj (pure_eq_ok.mp hret)
      exact ⟨some merklePaths, rfl⟩
  unfold ingestNote
  rcases h : insertAcceptedNoteCommitment state args.commitment args.leafIndex with e | ⟨state', _⟩
  · exact ⟨state.merklePaths, state.encryptedNotes, rfl⟩
  · obtain ⟨merklePaths, rfl⟩ := hinsert h
    dsimp only
    rcases addEncryptedNoteEvent state.encryptedNotes (noteRecord input log args) with
      e | ⟨encryptedNotes, _⟩
    · exact ⟨merklePaths, state.encryptedNotes, rfl⟩
    · exact ⟨merklePaths, encryptedNotes, rfl⟩

/-- **The roots after one log**, whether it throws or not. -/
theorem rootAt_ingestLog (key : Text) : (ingestLog decodeEventLog input state log).1.rootAt key =
    (rootWrite decodeEventLog input.pool log key).getD (state.rootAt key) := by
  unfold rootWrite
  rcases ingestLog_cases decodeEventLog input log with ⟨hread, hlog⟩ | ⟨error, hread, hlog⟩ |
    ⟨event, hread, hnote, hlog⟩ | ⟨event, args, hread, hnote, hlog⟩
  · rw [hread, hlog]
    rfl
  · rw [hread, hlog]
    rfl
  · rw [hread, hlog]
    dsimp only
    cases event with
    | rootAccepted root =>
      unfold IndexerState.rootAt markEvent acceptRoot
      dsimp only
      rw [get_set, get_delete]
      split_ifs <;> rfl
    | rootExpired root =>
      unfold IndexerState.rootAt markEvent expireRoot
      dsimp only
      rw [get_set, get_delete]
      split_ifs <;> rfl
    | _ => rfl
  · obtain ⟨merklePaths, encryptedNotes, heq⟩ := ingestNote_eq input log state args
    rw [hread, hlog, heq]
    cases event with
    | rootAccepted | rootExpired | nullifierSpent => cases hnote
    | _ => rfl

/-- **The nullifiers after one log**. -/
theorem nullifiers_ingestLog (key : Text) :
    get (ingestLog decodeEventLog input state log).1.nullifiers key =
      (nullifierWrite decodeEventLog input.pool log key).or (get state.nullifiers key) := by
  unfold nullifierWrite
  rcases ingestLog_cases decodeEventLog input log with ⟨hread, hlog⟩ | ⟨error, hread, hlog⟩ |
    ⟨event, hread, hnote, hlog⟩ | ⟨event, args, hread, hnote, hlog⟩
  · rw [hread, hlog]
    rfl
  · rw [hread, hlog]
    rfl
  · rw [hread, hlog]
    dsimp only
    cases event with
    | nullifierSpent nullifier =>
      unfold markEvent spendNullifier
      dsimp only
      rw [get_set]
      split_ifs <;> rfl
    | _ => rfl
  · obtain ⟨merklePaths, encryptedNotes, heq⟩ := ingestNote_eq input log state args
    rw [hread, hlog, heq]
    cases event with
    | rootAccepted | rootExpired | nullifierSpent => cases hnote
    | _ => rfl

end Step

/-! ### Sample logs -/

/-- The topic of `RootAccepted(bytes32,bytes32,bytes32)`. -/
def rootAcceptedTopic : Text :=
  "0x80793a782b868031008b11884d1988be2052119a751633627d7112b0487fd870".toList

/-- The topic of `DepositNoteCreated(bytes32,uint256,bytes,uint16)`. -/
def depositNoteCreatedTopic : Text :=
  "0x4898fe3a60bb11de2f1c6e1ae10751fa98c70abfda189297e9be7f404fdb34d4".toList

/-- The topic of `NullifierSpent(bytes32)`. -/
def nullifierSpentTopic : Text :=
  "0x2d8b76eb247945151bd870d531c84c5420f53e3cb9c0ab3b350f46bb09362096".toList

/-- The topic of `PrivateTransferNoteCreated(bytes32,bytes32,uint256,bytes,uint16)`. -/
def privateTransferNoteCreatedTopic : Text :=
  "0x5108e2394e350db0d229fde3d3a897aeb9a5d82626d08369076317650f78083d".toList

/-- The topic of `WithdrawalOutputNoteCreated(bytes32,bytes32,uint256,uint256,bytes,uint16)`. -/
def withdrawalOutputNoteCreatedTopic : Text :=
  "0xc45a0e27880b94a789571bba6b864c876ccba909dd02f4a2c8c8a28bbb2f55cd".toList

/-- The topic of `DepositCommitmentInserted(bytes32,uint256)`, which is not in `POOL_EVENT_ABI`. -/
def depositCommitmentInsertedTopic : Text :=
  "0x14c37e0baa26ab2047edfcf29d54638cc59b84acd37ab12f98b5613249ecc47e".toList

/-- The length and the bytes of the note `0x010203`. -/
def sampleNoteTail : Text := (hex32 3).drop 2 ++ "010203".toList ++ List.replicate 58 '0'

/-- The note and the version 1, encoded. -/
def sampleNoteData : Text :=
  "0x".toList ++ (hex32 0x40).drop 2 ++ (hex32 1).drop 2 ++ sampleNoteTail

/-- The note and the version 2. -/
def sampleTransferData : Text :=
  "0x".toList ++ (hex32 0x40).drop 2 ++ (hex32 2).drop 2 ++ sampleNoteTail

/-- The amount of 0.005 ETH, the note and the version 2. -/
def sampleOutputData : Text := "0x".toList ++ (hex32 5000000000000000).drop 2 ++
  (hex32 0x60).drop 2 ++ (hex32 2).drop 2 ++ sampleNoteTail

/-- What viem makes of the sample logs. -/
def sampleDecode : DecodeEventLog := fun topics data =>
  match topics with
  | [signature, nullifier] =>
    if signature = nullifierSpentTopic then .ok (.nullifierSpent nullifier)
    else .error "AbiEventSignatureNotFoundError"
  | [signature, commitment, leafIndex] =>
    if signature = depositNoteCreatedTopic ∧ data = sampleNoteData then
      .ok (.depositNoteCreated commitment (hexNat leafIndex) "0x010203".toList 1)
    else .error "AbiEventSignatureNotFoundError"
  | [signature, first, second, third] =>
    if signature = rootAcceptedTopic then .ok (.rootAccepted first second third)
    else if signature = privateTransferNoteCreatedTopic ∧ data = sampleTransferData then
      .ok (.privateTransferNoteCreated first second (hexNat third) "0x010203".toList 2)
    else if signature = withdrawalOutputNoteCreatedTopic ∧ data = sampleOutputData then
      .ok (.withdrawalOutputNoteCreated first second (hexNat third) 5000000000000000
        "0x010203".toList 2)
    else .error "AbiEventSignatureNotFoundError"
  | _ => .error "AbiEventSignatureNotFoundError"

def samplePool : Text := "0xa87F70bdaBa7A8be894AC60D111FF79Ec8b0d544".toList

/-- A log of the sample pool. -/
def sampleLog (topics : List Text) (data : Text) (logIndex : ℕ) : RawPoolLog where
  address := samplePool
  topics
  data
  blockNumber := 100
  transactionHash := hex32 7
  logIndex

/-- The logs of one block. -/
def sampleInput (logs : List RawPoolLog) : IngestInput where
  chainId := 6343
  pool := samplePool
  sourceRpc := "https://carrot.megaeth.com/rpc".toList
  observedAtMs := 1777700000000
  logs
  checkedRange := ⟨100, 100⟩

end Nullark.Indexer.LogIngest
