import Nullark.Pool.Journal

/-! # What the indexer counts

The events of the pool by their names, and the counts of the anonymity set.

* `classifyPoolEvent`, `computeAnonymitySetSummary`.
* `summary_reachable`: what the counts over the events of a reachable pool say of it. -/

namespace Nullark.Indexer.Anonymity

open Nullark.Lib.Rollback Nullark.Evm.Basic Nullark.Pool.Interface Nullark.Pool.Context
open Nullark.Pool.Actions Nullark.Pool.Calls Nullark.Pool.Effects Nullark.Pool.History
open Nullark.Pool.Journal

/-! ### The code -/

structure RawPoolEvent where
  name : String

/-- `ClassifiedPoolEvent["kind"]`. The table is an object, so a name that every object has, such as
`constructor`, gives what it inherits under it. -/
inductive PoolEventKind
  | deposit
  | privateTransfer
  | nullifier
  | withdrawal
  | withdrawalOutputNote
  | feesAccrued
  | feesSwept
  | unknown
  | inherited (name : String)
  deriving DecidableEq

structure ClassifiedPoolEvent where
  kind : PoolEventKind
  authoritativeForBalance : Bool

def kindByName : List (String × PoolEventKind) :=
  [("DepositCommitmentInserted", .deposit),
    ("PrivateTransferCommitmentInserted", .privateTransfer),
    ("NullifierSpent", .nullifier),
    ("WithdrawalExecuted", .withdrawal),
    ("WithdrawalOutputNoteCreated", .withdrawalOutputNote),
    ("ProtocolFeesAccrued", .feesAccrued),
    ("ProtocolFeesSwept", .feesSwept)]

/-- The names of `Object.prototype`. -/
def objectPrototype : List String :=
  ["constructor", "__defineGetter__", "__defineSetter__", "hasOwnProperty", "__lookupGetter__",
    "__lookupSetter__", "isPrototypeOf", "propertyIsEnumerable", "toString", "valueOf", "__proto__",
    "toLocaleString"]

def classifyPoolEvent (event : RawPoolEvent) : ClassifiedPoolEvent where
  kind := (kindByName.lookup event.name).getD
    (if event.name ∈ objectPrototype then .inherited event.name else .unknown)
  authoritativeForBalance := false

structure AnonymitySetSummary where
  eligibleCommitmentCount : ℕ
  depositCommitmentCount : ℕ
  privateTransferCommitmentCount : ℕ
  spentNullifierCount : ℕ
  withdrawalCount : ℕ
  authoritativeForBalance : Bool
  claim : String

/-- The counters of the loop. -/
structure Counters where
  depositCommitmentCount : ℕ
  privateTransferCommitmentCount : ℕ
  spentNullifierCount : ℕ
  withdrawalCount : ℕ

/-- One round of the loop. -/
def countEvent (s : Counters) (event : ClassifiedPoolEvent) : Counters :=
  if event.kind = .deposit then { s with depositCommitmentCount := s.depositCommitmentCount + 1 }
  else if event.kind = .privateTransfer then
    { s with privateTransferCommitmentCount := s.privateTransferCommitmentCount + 1 }
  else if event.kind = .nullifier then { s with spentNullifierCount := s.spentNullifierCount + 1 }
  else if event.kind = .withdrawal then { s with withdrawalCount := s.withdrawalCount + 1 }
  else s

def computeAnonymitySetSummary (events : List ClassifiedPoolEvent) : AnonymitySetSummary :=
  let s := events.foldl countEvent ⟨0, 0, 0, 0⟩
  { eligibleCommitmentCount := s.depositCommitmentCount + s.privateTransferCommitmentCount
    depositCommitmentCount := s.depositCommitmentCount
    privateTransferCommitmentCount := s.privateTransferCommitmentCount
    spentNullifierCount := s.spentNullifierCount
    withdrawalCount := s.withdrawalCount
    authoritativeForBalance := false
    claim := "count-only-anonymity-set" }

/-! ### The events of the pool -/

/-- The name of an event in the interface of the pool. -/
def eventName : Event → String
  | .depositCommitmentInserted .. => "DepositCommitmentInserted"
  | .privateTransferCommitmentInserted .. => "PrivateTransferCommitmentInserted"
  | .withdrawalOutputCommitmentInserted .. => "WithdrawalOutputCommitmentInserted"
  | .depositNoteCreated .. => "DepositNoteCreated"
  | .privateTransferNoteCreated .. => "PrivateTransferNoteCreated"
  | .withdrawalOutputNoteCreated .. => "WithdrawalOutputNoteCreated"
  | .nullifierSpent .. => "NullifierSpent"
  | .withdrawalExecuted .. => "WithdrawalExecuted"
  | .protocolFeesAccrued .. => "ProtocolFeesAccrued"
  | .protocolFeesSwept .. => "ProtocolFeesSwept"
  | .feeBpsDecreased .. => "FeeBpsDecreased"
  | .feeBpsIncreaseScheduled .. => "FeeBpsIncreaseScheduled"
  | .feeBpsIncreaseExecuted .. => "FeeBpsIncreaseExecuted"
  | .feeBpsIncreaseCancelled .. => "FeeBpsIncreaseCancelled"
  | .rootAccepted .. => "RootAccepted"
  | .rootExpired .. => "RootExpired"

/-- The events as the indexer classifies them. -/
def classified (events : List Event) : List ClassifiedPoolEvent :=
  events.map fun e => classifyPoolEvent ⟨eventName e⟩

/-- One event. -/
theorem countEvent_event (s : Counters) (e : Event) :
    countEvent s (classifyPoolEvent ⟨eventName e⟩) =
      ⟨s.depositCommitmentCount + deposits e, s.privateTransferCommitmentCount + transfers e,
        s.spentNullifierCount + spends e, s.withdrawalCount + withdrawals e⟩ := by
  cases e <;> rfl

theorem foldl_countEvent : ∀ (events : List Event) (s : Counters),
    (classified events).foldl countEvent s =
      ⟨s.depositCommitmentCount + total deposits events,
        s.privateTransferCommitmentCount + total transfers events,
        s.spentNullifierCount + total spends events, s.withdrawalCount + total withdrawals events⟩
  | [], _ => rfl
  | e :: events, s => by
    have ih := foldl_countEvent events (countEvent s (classifyPoolEvent ⟨eventName e⟩))
    rw [countEvent_event] at ih
    simp only [total_cons, ← Nat.add_assoc]
    exact (congrArg ((classified events).foldl countEvent) (countEvent_event s e)).trans ih

/-! ### Runs -/

/-- The withdrawals among open calls. -/
def openWithdrawals (ps : List (Option Pending)) : ℕ := ps.countP fun
  | some (.withdraw ..) => true
  | _ => false

/-- The events to come count the open withdrawals and nothing else. -/
theorem total_toCome : ∀ ps : List (Option Pending), total withdrawals (toCome ps) =
    openWithdrawals ps ∧ total deposits (toCome ps) = 0 ∧ total transfers (toCome ps) = 0 ∧
      Balanced (toCome ps)
  | [] => ⟨rfl, rfl, rfl, rfl, rfl⟩
  | p :: ps => by
    obtain ⟨hwithdrawals, hdeposits, htransfers, hbalanced⟩ := total_toCome ps
    have hcons : toCome (p :: ps) = p.elim [] Pending.events ++ toCome ps := rfl
    rw [hcons, total_append, total_append, total_append, hwithdrawals, hdeposits, htransfers]
    unfold openWithdrawals
    rw [List.countP_cons]
    rcases p with _ | p
    · exact ⟨Nat.zero_add _, rfl, rfl, hbalanced⟩
    · refine ⟨?_, ?_, ?_, (balanced_pending p).append hbalanced⟩
      · cases p <;> simp [total, Pending.events, withdrawals, Nat.add_comm]
      · cases p <;> rfl
      · cases p <;> rfl

theorem length_spentNullifiers : ∀ events : List Event,
    (events.filterMap spentNullifier).length = total spends events
  | [] => rfl
  | e :: events => by
    have ih := length_spentNullifiers events
    rw [total_cons]
    cases e <;> simp only [List.filterMap_cons, spentNullifier, spends, List.length_cons] <;> omega

/-- **The counts of a reachable pool.** With the withdrawals that are still open, the eligible
commitments and the withdrawals make up the leaves, and the nullifiers those that are marked; every
nullifier is that of a transfer or of a withdrawal. -/
theorem summary_reachable {env : Env} {answers : Answers} {c : Config World (Option Pending)}
    (h : Reachable env answers c) :
    (computeAnonymitySetSummary (classified c.world.logs)).eligibleCommitmentCount +
        (computeAnonymitySetSummary (classified c.world.logs)).withdrawalCount +
        openWithdrawals (c.frames.map Frame.pending) = (leavesOf c.world).length ∧
      (computeAnonymitySetSummary (classified c.world.logs)).spentNullifierCount =
        (computeAnonymitySetSummary (classified c.world.logs)).privateTransferCommitmentCount +
          (computeAnonymitySetSummary (classified c.world.logs)).withdrawalCount ∧
      ∃ marked : List Bytes32, marked.Nodup ∧
        (∀ ν, c.world.pool.nullifiers ν = true ↔ ν ∈ marked) ∧
        marked.length =
          (computeAnonymitySetSummary (classified c.world.logs)).spentNullifierCount +
            openWithdrawals (c.frames.map Frame.pending) := by
  have hjournal := (nested_recounts h).head
  obtain ⟨hopen, hdeposits, htransfers, hcome⟩ := total_toCome (c.frames.map Frame.pending)
  have hleaves := hjournal.commitments.length_eq
  have hspends := hjournal.balanced.spends
  have houtputs := hjournal.balanced.outputs
  have hcomeSpends := hcome.spends
  have hmarked := length_spentNullifiers
    (c.world.logs ++ toCome (c.frames.map Frame.pending))
  rw [length_commitments] at hleaves
  unfold computeAnonymitySetSummary
  rw [foldl_countEvent]
  dsimp only
  simp only [total_append, Nat.zero_add] at *
  refine ⟨by omega, by omega, _, hjournal.nodup, hjournal.nullifiers, by omega⟩

/-- Two deposits, an open withdrawal and a transfer made while it is open: the output of the
withdrawal is a leaf that is not counted yet. -/
theorem summary_reachable_open : ∃ c, Reachable plainEnv (· = fun _ _ => true) c ∧
    leavesOf c.world = [5, 6, 8, 9] ∧
    (computeAnonymitySetSummary (classified c.world.logs)).eligibleCommitmentCount +
      (computeAnonymitySetSummary (classified c.world.logs)).withdrawalCount = 3 ∧
    ∃ marked : List Bytes32, marked.Nodup ∧
      (∀ ν, c.world.pool.nullifiers ν = true ↔ ν ∈ marked) ∧
      marked.length =
        (computeAnonymitySetSummary (classified c.world.logs)).spentNullifierCount + 1 := by
  obtain ⟨c, hreach, hfacts⟩ := @exists_plainPlay (· = fun _ _ => true) rfl _ 4
    (fun c => (leavesOf c.world, openWithdrawals (c.frames.map Frame.pending)))
    ([5, 6, 8, 9], 1) (by decide +kernel)
  obtain ⟨hleaves, hopen⟩ := Prod.mk.inj hfacts
  obtain ⟨hcount, -, marked, hnodup, hmarked, hlength⟩ := summary_reachable hreach
  rw [hleaves, hopen] at hcount
  rw [hopen] at hlength
  exact ⟨c, hreach, hleaves, Nat.succ.inj hcount, marked, hnodup, hmarked, hlength⟩

end Nullark.Indexer.Anonymity
