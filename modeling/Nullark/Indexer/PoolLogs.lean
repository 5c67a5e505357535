import Nullark.Indexer.Simulation
import Nullark.Pool.Emissions

/-! # All the logs of a call

`ingestPoolLogs` takes the logs of the pool as they come, and the pool also logs what
`POOL_EVENT_ABI` does not list. Decoding such a log throws.

* `abiEvent_eq_none_iff`: the events that are not listed.
* `RawLogs`: all the logs of a list of events.
* `ingests_iff`: the calls all of whose logs go through. -/

namespace Nullark.Indexer.PoolLogs

open Nullark.Lib.Outcome Nullark.Lib.Hex Nullark.Lib.Rollback
open Nullark.Evm.Basic Nullark.Pool.Interface Nullark.Pool.Context
open Nullark.Pool Nullark.Pool.Actions Nullark.Pool.Calls Nullark.Pool.Effects
open Nullark.Pool.Emissions
open Nullark.Js.Basic Nullark.Js.Bytes
open Nullark.Indexer.Ranges Nullark.Indexer.LogIngest Nullark.Indexer.Accepted
open Nullark.Indexer.Simulation

/-- **The events of the accounting are not listed.** -/
theorem abiEvent_eq_none_iff {e : Event} : abiEvent e = none ↔ OfAccounting e := by
  cases e <;> simp [abiEvent, OfAccounting]

/-- What decoding the log of an event gives: the event, or an error if its signature is not in
`POOL_EVENT_ABI`. -/
def Decodes (result : Throws PoolEvent) (e : Event) : Prop :=
  match abiEvent e with
  | some event => result = .ok event
  | none => ∃ error, result = .error error

/-- **The logs of all the events**, in their order. -/
def RawLogs (decodeEventLog : DecodeEventLog) (pool : Text) (logs : List RawPoolLog)
    (events : List Event) : Prop :=
  List.Forall₂ (fun log e => lower log.address = lower pool ∧
    Decodes (decodeEventLog log.topics log.data) e) logs events

section Ingest
variable {decodeEventLog : DecodeEventLog} {pool : Text} {logs : List RawPoolLog}
  {events : List Event} {e : Event}

/-- An event of the accounting has a log that cannot be decoded. -/
theorem RawLogs.undecoded (h : RawLogs decodeEventLog pool logs events) (he : e ∈ events)
    (haccounting : OfAccounting e) :
    ∃ log ∈ logs, ∃ error, readLog decodeEventLog pool log = some (.error error) := by
  induction h with
  | nil => exact absurd he List.not_mem_nil
  | @cons log e' logs events hlog _ ih =>
    rcases List.mem_cons.mp he with rfl | he
    · obtain ⟨haddress, hdecodes⟩ := hlog
      unfold Decodes at hdecodes
      rw [abiEvent_eq_none_iff.mpr haccounting] at hdecodes
      obtain ⟨error, herror⟩ := hdecodes
      refine ⟨log, List.mem_cons_self, error, ?_⟩
      rw [readLog, if_neg (not_not.mpr haddress), herror]
    · obtain ⟨log', hlog', herror⟩ := ih he
      exact ⟨log', List.mem_cons_of_mem _ hlog', herror⟩

/-- A batch with such a log does not go through. -/
theorem not_ingests (h : RawLogs decodeEventLog pool logs events) (he : e ∈ events)
    (haccounting : OfAccounting e) {state : IndexerState} {input : IngestInput}
    (hpool : input.pool = pool) (hinput : input.logs = logs) :
    ¬∃ state', ingestPoolLogs decodeEventLog state input = (state', .ok ()) := by
  rintro ⟨state', hok⟩
  obtain ⟨next, _, hloop, -, -⟩ := ingestPoolLogs_eq_ok.mp hok
  have haccepts := ingestLogs_isOk.mp ⟨next, hloop⟩
  obtain ⟨log, hlog, error, herror⟩ := h.undecoded he haccounting
  rw [hpool, hinput] at haccepts
  exact haccepts.decodes log hlog error herror

/-- A batch without logs goes through. -/
theorem ingests_nil {state : IndexerState} {input : IngestInput} (hinput : input.logs = [])
    (hrange : input.checkedRange.fromBlock ≤ input.checkedRange.toBlock) :
    ∃ state', ingestPoolLogs decodeEventLog state input = (state', .ok ()) := by
  have hmark : ∃ ranges, markCheckedRange state.ranges input.checkedRange = .ok (ranges, ()) := by
    unfold markCheckedRange
    rw [ensure_of (not_lt.mpr hrange)]
    exact ⟨_, rfl⟩
  obtain ⟨ranges, hmark⟩ := hmark
  refine ⟨{ state with ranges }, ingestPoolLogs_eq_ok.mpr ⟨state, ranges, ?_, hmark, rfl⟩⟩
  rw [hinput]
  rfl

end Ingest

/-- **The calls whose logs go through** are those that set the fee to what it is: every other call
emits an event that is not listed. -/
theorem ingests_iff {env : Env} {answers : Answers} {decodeEventLog : DecodeEventLog}
    {c c' : Config World (Option Pending)} {msg : Msg} {call : Call} {events : List Event}
    {input : IngestInput} (hcall : Succeeds env answers c msg call c')
    (hlogs : c'.world.logs = c.world.logs ++ events)
    (hraw : RawLogs decodeEventLog input.pool input.logs events)
    (hrange : input.checkedRange.fromBlock ≤ input.checkedRange.toBlock) (state : IndexerState) :
    (∃ state', ingestPoolLogs decodeEventLog state input = (state', .ok ())) ↔
      KeepsFee c.world call := by
  constructor
  · intro hok
    rcases emits hcall hlogs with ⟨hkeeps, -⟩ | ⟨e, he, haccounting⟩
    · exact hkeeps
    · exact absurd hok (not_ingests hraw he haccounting rfl rfl)
  · intro hkeeps
    have hempty := emits_nothing hcall hkeeps hlogs
    rw [hempty] at hraw
    exact ingests_nil (List.forall₂_nil_right_iff.mp hraw) hrange

/-! ### A deposit -/

/-- All the logs of the first deposit, of the commitment 5. -/
def depositLogs : IngestInput :=
  sampleInput [sampleLog [rootAcceptedTopic, hex32 5, hex32 0, hex32 5] ['0', 'x'] 0,
    sampleLog [depositCommitmentInsertedTopic, hex32 5] (hex32 5000000000000000) 1,
    sampleLog [depositNoteCreatedTopic, hex32 5, hex32 0] sampleNoteData 2]

/-- The events of the deposit. -/
def depositEvents : List Event :=
  [.rootAccepted 5 0 5, .depositCommitmentInserted 5 5000000000000000,
    .depositNoteCreated 5 0 [1, 2, 3] 1]

theorem rawLogs_deposit : RawLogs sampleDecode depositLogs.pool depositLogs.logs depositEvents := by
  refine .cons ⟨rfl, ?_⟩ (.cons ⟨rfl, ?_⟩ (.cons ⟨rfl, ?_⟩ .nil))
  · change sampleDecode _ _ = .ok _
    decide +kernel
  · exact ⟨"AbiEventSignatureNotFoundError", by decide +kernel⟩
  · change sampleDecode _ _ = .ok _
    decide +kernel

/-- The deposit, on the new pool. -/
theorem deposit_succeeds : ∃ w', Succeeds plainEnv (fun _ => True)
    ⟨plainWorld 5000000000000000, []⟩ plainMsg (.deposit [] (plainInputs 5) [1, 2, 3]) ⟨w', []⟩ ∧
      w'.logs = (plainWorld 5000000000000000).logs ++ depositEvents := by
  have hchecked : Checks.DepositChecked plainEnv (fun _ _ => true)
      (plainWorld 5000000000000000).pool plainMsg [] (plainInputs 5) [1, 2, 3]
      (Call.deposit [] (plainInputs 5) [1, 2, 3]).selector :=
    plainDepositNote_checked (by decide) (by decide) (by decide) (by decide) (by decide)
  obtain ⟨w', hexec⟩ :=
    exec_deposit (by decide) (by decide) hchecked (by decide) Roots.recorded_initial (by decide)
  refine ⟨w', .done trivial (by decide) hexec, ?_⟩
  obtain ⟨-, -, heffect⟩ := exec_ok hexec
  cases heffect with
  | deposit hd =>
    obtain ⟨i, events, hrecord, hlogs⟩ := hd.records
    have hanswer : (Roots.recordCommitmentRoot plainEnv.poseidon2
        (Roots.initialRoots plainEnv.poseidon2) 5).map Prod.snd =
          .ok (0, [.rootAccepted 5 0 5]) := by decide +kernel
    have hrecord' : Roots.recordCommitmentRoot plainEnv.poseidon2
        (Roots.initialRoots plainEnv.poseidon2) 5 = .ok (w'.pool.roots, i, events) := hrecord
    rw [hrecord', Except.map, Except.ok.injEq, Prod.mk.injEq] at hanswer
    obtain ⟨rfl, rfl⟩ := hanswer
    rw [hlogs, List.append_assoc]
    rfl

/-- Its logs do not go through, whatever the indexer has. -/
theorem deposit_not_ingested : ∃ w', Reachable plainEnv (fun _ => True)
    ⟨plainWorld 5000000000000000, []⟩ ∧ Succeeds plainEnv (fun _ => True)
    ⟨plainWorld 5000000000000000, []⟩ plainMsg (.deposit [] (plainInputs 5) [1, 2, 3]) ⟨w', []⟩ ∧
      w'.logs = (plainWorld 5000000000000000).logs ++ depositEvents ∧
      RawLogs sampleDecode depositLogs.pool depositLogs.logs depositEvents ∧
      ∀ state, ¬∃ state', ingestPoolLogs sampleDecode state depositLogs = (state', .ok ()) := by
  obtain ⟨w', hsucceeds, hlogs⟩ := deposit_succeeds
  have hmem : Event.depositCommitmentInserted 5 5000000000000000 ∈ depositEvents :=
    List.mem_cons_of_mem _ List.mem_cons_self
  exact ⟨w', ⟨_, plainWorld_deployed _, .refl⟩, hsucceeds, hlogs, rawLogs_deposit,
    fun state => not_ingests rawLogs_deposit hmem trivial rfl rfl⟩

/-- The logs of the deposit go through only if it sets the fee. -/
theorem ingests_iff_deposit :
    (∃ state', ingestPoolLogs sampleDecode (createIndexerState none) depositLogs =
      (state', .ok ())) ↔ KeepsFee (plainWorld 5000000000000000)
        (.deposit [] (plainInputs 5) [1, 2, 3]) := by
  obtain ⟨w', hsucceeds, hlogs⟩ := deposit_succeeds
  exact ingests_iff hsucceeds hlogs rawLogs_deposit le_rfl _

end Nullark.Indexer.PoolLogs
