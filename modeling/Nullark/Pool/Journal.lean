import Nullark.Pool.NoteLogs

/-! # The events as a journal

The events of the pool recount its state: the accounting is the sum of the amounts they carry, the
marked nullifiers and the leaves are those they name. A withdrawal and a sweep emit their events
after the external call, so those that are still to come count as well.

* `Recounts`: what a list of events recounts.
* `recounts_exec`, `recounts_finish`: the events of a call, and of the rest of a call.
* `recounts_reachable`: the events of every reachable world, with those to come. -/

namespace Nullark.Pool.Journal

open Nullark.Lib.Outcome Nullark.Lib.Rollback Nullark.Evm.Basic
open Nullark.Pool.Interface Nullark.Pool.Context Nullark.Pool.Tree Nullark.Pool.Roots
open Nullark.Pool.Actions Nullark.Pool.Calls Nullark.Pool.Checks Nullark.Pool.Effects
open Nullark.Pool.History

/-! ### What an event says -/

def depositAmount : Event → ℕ
  | .depositCommitmentInserted _ amount => amount
  | _ => 0

def netAmount : Event → ℕ
  | .withdrawalExecuted _ _ netAmount _ => netAmount
  | _ => 0

def accruedFee : Event → ℕ
  | .protocolFeesAccrued amount => amount
  | _ => 0

def sweptAmount : Event → ℕ
  | .protocolFeesSwept _ amount => amount.toNat
  | _ => 0

/-- The commitment an event inserts. -/
def insertedCommitment : Event → Option Bytes32
  | .depositCommitmentInserted commitment _ => some commitment
  | .privateTransferCommitmentInserted commitment _ => some commitment
  | .withdrawalOutputCommitmentInserted commitment _ _ => some commitment
  | _ => none

def spentNullifier : Event → Option Bytes32
  | .nullifierSpent nullifier => some nullifier
  | _ => none

/-- Whether an event is of a kind, as a number. -/
def deposits : Event → ℕ
  | .depositCommitmentInserted .. => 1
  | _ => 0

def transfers : Event → ℕ
  | .privateTransferCommitmentInserted .. => 1
  | _ => 0

def outputs : Event → ℕ
  | .withdrawalOutputCommitmentInserted .. => 1
  | _ => 0

def withdrawals : Event → ℕ
  | .withdrawalExecuted .. => 1
  | _ => 0

def spends : Event → ℕ
  | .nullifierSpent _ => 1
  | _ => 0

/-- The sum of an amount over events. -/
def total (amount : Event → ℕ) (events : List Event) : ℕ := (events.map amount).sum

/-- The event says nothing of the kind. -/
structure Silent (e : Event) : Prop where
  depositAmount : depositAmount e = 0
  netAmount : netAmount e = 0
  accruedFee : accruedFee e = 0
  sweptAmount : sweptAmount e = 0
  insertedCommitment : insertedCommitment e = none
  spentNullifier : spentNullifier e = none
  transfers : transfers e = 0
  outputs : outputs e = 0
  withdrawals : withdrawals e = 0
  spends : spends e = 0

@[simp] theorem total_nil (amount : Event → ℕ) : total amount [] = 0 := rfl

@[simp] theorem total_cons (amount : Event → ℕ) (e : Event) (events : List Event) :
    total amount (e :: events) = amount e + total amount events := rfl

@[simp] theorem total_append (amount : Event → ℕ) (events events' : List Event) :
    total amount (events ++ events') = total amount events + total amount events' := by
  unfold total
  rw [List.map_append, List.sum_append]

theorem total_eq_zero {amount : Event → ℕ} {events : List Event} (h : ∀ e ∈ events, amount e = 0) :
    total amount events = 0 := List.sum_eq_zero fun _ hx => by
  obtain ⟨e, he, rfl⟩ := List.mem_map.mp hx
  exact h e he

/-- A nullifier for every transfer and every withdrawal, and an output for every withdrawal. -/
structure Balanced (events : List Event) : Prop where
  spends : total spends events = total transfers events + total withdrawals events
  outputs : total outputs events = total withdrawals events

theorem Balanced.append {events events' : List Event} (h : Balanced events)
    (h' : Balanced events') : Balanced (events ++ events') where
  spends := by
    have := h.spends
    have := h'.spends
    simp only [total_append]
    omega
  outputs := by
    rw [total_append, total_append, h.outputs, h'.outputs]

theorem balanced_silent {events : List Event} (h : ∀ e ∈ events, Silent e) : Balanced events := by
  have hwithdrawals : total withdrawals events = 0 := total_eq_zero fun e he => (h e he).withdrawals
  refine ⟨?_, ?_⟩
  · rw [hwithdrawals, total_eq_zero fun e he => (h e he).transfers,
      total_eq_zero fun e he => (h e he).spends]
  · rw [hwithdrawals, total_eq_zero fun e he => (h e he).outputs]

theorem balanced_pending (p : Pending) : Balanced p.events := by cases p <;> exact ⟨rfl, rfl⟩

/-- Every commitment is that of a deposit, a transfer or a withdrawal. -/
theorem length_commitments : ∀ events : List Event, (events.filterMap insertedCommitment).length =
    total deposits events + total transfers events + total outputs events
  | [] => rfl
  | e :: events => by
    have ih := length_commitments events
    simp only [total_cons]
    cases e <;>
      simp only [List.filterMap_cons, insertedCommitment, deposits, transfers, outputs,
        List.length_cons] <;> omega

/-- **What a list of events recounts** of a world. -/
structure Recounts (env : Env) (w : World) (events : List Event) : Prop where
  tracks : Tracks env w (leavesOf w)
  deposited : w.pool.accounting.totalDepositedAccounting = total depositAmount events
  withdrawn : w.pool.accounting.totalWithdrawnAccounting = total netAmount events
  accrued : w.pool.accounting.accruedProtocolFees = total accruedFee events
  swept : w.pool.accounting.feeSweptAccounting = total sweptAmount events
  commitments : (events.filterMap insertedCommitment).Perm (leavesOf w)
  nullifiers : ∀ ν, w.pool.nullifiers ν = true ↔ ν ∈ events.filterMap spentNullifier
  nodup : (events.filterMap spentNullifier).Nodup
  balanced : Balanced events

/-- The events to come of a list of open calls. -/
def toCome (ps : List (Option Pending)) : List Event := ps.flatMap fun p => p.elim [] Pending.events

variable {env : Env} {verify : Verify} {w w' : World} {msg : Msg} {events : List Event}

/-- The order of the events does not matter. -/
theorem Recounts.perm (h : Recounts env w events) {events' : List Event}
    (hperm : events.Perm events') : Recounts env w events' where
  tracks := h.tracks
  deposited := h.deposited.trans (hperm.map _).sum_eq
  withdrawn := h.withdrawn.trans (hperm.map _).sum_eq
  accrued := h.accrued.trans (hperm.map _).sum_eq
  swept := h.swept.trans (hperm.map _).sum_eq
  commitments := (hperm.filterMap _).symm.trans h.commitments
  nullifiers ν := (h.nullifiers ν).trans (hperm.filterMap _).mem_iff
  nodup := (hperm.filterMap _).nodup_iff.mp h.nodup
  balanced := by
    refine ⟨?_, ?_⟩
    · have hspends := h.balanced.spends
      unfold total at *
      rwa [(hperm.map _).sum_eq, (hperm.map _).sum_eq, (hperm.map withdrawals).sum_eq] at hspends
    · have houtputs := h.balanced.outputs
      unfold total at *
      rwa [(hperm.map _).sum_eq, (hperm.map _).sum_eq] at houtputs

/-- **More events.** -/
theorem Recounts.extend (h : Recounts env w events) {new : List Event}
    (htracks : Tracks env w' (leavesOf w ++ new.filterMap insertedCommitment))
    (hdeposited : w'.pool.accounting.totalDepositedAccounting =
      w.pool.accounting.totalDepositedAccounting + total depositAmount new)
    (hwithdrawn : w'.pool.accounting.totalWithdrawnAccounting =
      w.pool.accounting.totalWithdrawnAccounting + total netAmount new)
    (haccrued : w'.pool.accounting.accruedProtocolFees =
      w.pool.accounting.accruedProtocolFees + total accruedFee new)
    (hswept : w'.pool.accounting.feeSweptAccounting =
      w.pool.accounting.feeSweptAccounting + total sweptAmount new)
    (hmarked : ∀ ν, w'.pool.nullifiers ν = true ↔
      w.pool.nullifiers ν = true ∨ ν ∈ new.filterMap spentNullifier)
    (hfresh : ∀ ν ∈ new.filterMap spentNullifier, ¬w.pool.nullifiers ν)
    (hnodup : (new.filterMap spentNullifier).Nodup) (hbalanced : Balanced new) :
    Recounts env w' (events ++ new) where
  tracks := htracks.leavesOf_eq ▸ htracks
  deposited := by rw [hdeposited, total_append, h.deposited]
  withdrawn := by rw [hwithdrawn, total_append, h.withdrawn]
  accrued := by rw [haccrued, total_append, h.accrued]
  swept := by rw [hswept, total_append, h.swept]
  commitments := by
    rw [List.filterMap_append, htracks.leavesOf_eq]
    exact h.commitments.append_right _
  nullifiers ν := by
    rw [hmarked, List.filterMap_append, List.mem_append, h.nullifiers]
  nodup := by
    rw [List.filterMap_append]
    refine List.nodup_append.mpr ⟨h.nodup, hnodup, fun a ha b hb hab => ?_⟩
    exact hfresh b hb ((h.nullifiers b).mpr (hab ▸ ha))
  balanced := h.balanced.append hbalanced

/-- Events that say nothing. -/
theorem Recounts.silent (h : Recounts env w events) {new : List Event} (hnew : ∀ e ∈ new, Silent e)
    (htracks : Tracks env w' (leavesOf w)) (haccounting : w'.pool.accounting = w.pool.accounting)
    (hmarked : w'.pool.nullifiers = w.pool.nullifiers) : Recounts env w' (events ++ new) := by
  have hcommitments : new.filterMap insertedCommitment = [] :=
    List.filterMap_eq_nil_iff.mpr fun e he => (hnew e he).insertedCommitment
  have hnullifiers : new.filterMap spentNullifier = [] :=
    List.filterMap_eq_nil_iff.mpr fun e he => (hnew e he).spentNullifier
  refine h.extend (by rw [hcommitments, List.append_nil]; exact htracks) ?_ ?_ ?_ ?_ ?_ ?_ ?_
    (balanced_silent hnew)
  · rw [haccounting, total_eq_zero fun e he => (hnew e he).depositAmount, Nat.add_zero]
  · rw [haccounting, total_eq_zero fun e he => (hnew e he).netAmount, Nat.add_zero]
  · rw [haccounting, total_eq_zero fun e he => (hnew e he).accruedFee, Nat.add_zero]
  · rw [haccounting, total_eq_zero fun e he => (hnew e he).sweptAmount, Nat.add_zero]
  · intro ν
    rw [hmarked, hnullifiers]
    simp
  · rw [hnullifiers]
    exact fun _ hν => absurd hν List.not_mem_nil
  · rw [hnullifiers]
    exact List.nodup_nil

/-- The events of a recorded root say nothing. -/
theorem silent_recorded {leaves : List Bytes32} {roots roots' : RootStorage} {commitment : Bytes32}
    {i : ℕ} {new : List Event} (h : Recorded env.poseidon2 roots leaves)
    (hr : recordCommitmentRoot env.poseidon2 roots commitment = .ok (roots', i, new)) :
    ∀ e ∈ new, Silent e := by
  obtain ⟨-, -, expired, hexpired, rfl⟩ := recordCommitmentRoot_ok h hr
  intro e he
  rcases List.mem_append.mp he with he | he
  · rcases hexpired with rfl | ⟨r, rfl⟩
    · exact absurd he List.not_mem_nil
    · rw [List.mem_singleton.mp he]
      exact ⟨rfl, rfl, rfl, rfl, rfl, rfl, rfl, rfl, rfl, rfl⟩
  · rw [List.mem_singleton.mp he]
    exact ⟨rfl, rfl, rfl, rfl, rfl, rfl, rfl, rfl, rfl, rfl⟩

theorem silent_feeEvents {f f' : Fees.FeeStorage} {c : Fees.FeeCall} {new : List Event}
    (h : Fees.runFeeOp env.feeController f c = .ok (f', new)) : ∀ e ∈ new, Silent e := by
  intro e he
  have hfee := Fees.isFeeEvent_of_run h e he
  cases e <;> first | exact ⟨rfl, rfl, rfl, rfl, rfl, rfl, rfl, rfl, rfl, rfl⟩ | cases hfee

/-- Only the pool and the leaves matter. -/
theorem Recounts.congr (h : Recounts env w events) (htracks : Tracks env w' (leavesOf w))
    (haccounting : w'.pool.accounting = w.pool.accounting)
    (hmarked : w'.pool.nullifiers = w.pool.nullifiers) : Recounts env w' events := by
  have hsilent := h.silent (fun _ he => absurd he List.not_mem_nil) htracks haccounting hmarked
  rwa [List.append_nil] at hsilent

/-- Events that were logged, events of the recorded root, events of the call and events to come. -/
theorem perm_records (logs come tail recorded : List Event) :
    (logs ++ come ++ tail ++ recorded).Perm (logs ++ recorded ++ tail ++ come) := by
  rw [← Multiset.coe_eq_coe]
  simp only [← Multiset.coe_add]
  abel

/-! ### One call -/

/-- What a withdrawal leaves to do. -/
theorem withdraw_pending {call : Call} {a : WithdrawArgs} {p : Pending}
    (hcall : call.action = .withdraw a) (h : exec env verify w msg call = .ok (w', some p)) :
    ∃ i, p = .withdraw a.nullifier (input a.publicInputs 2) a.destination a.grossAmount
      (a.grossAmount.toNat - feeOf w.pool a.grossAmount) (feeOf w.pool a.grossAmount) i
      a.encryptedOutputNote := by
  unfold exec at h
  rw [hcall] at h
  simp only [runAction, withdraw, bind_eq_ok, nonReentrantBefore_eq_ok, payIn_eq_ok, pure_eq_ok,
    Prod.mk.injEq] at h
  obtain ⟨_, -, _, ⟨-, rfl⟩, _, ⟨-, rfl⟩, ⟨w₁, pending⟩, ⟨⟨fee, outputCommitment⟩, hc, net, hl,
    _, -, _, -, ⟨roots, i, new⟩, -, _, -, -, rfl⟩, -, hp⟩ := h
  obtain ⟨-, rfl, rfl⟩ := checkWithdraw_eq_ok.mp hc
  obtain ⟨-, rfl⟩ := checkLiquidity_eq_ok.mp hl
  exact ⟨i, (Option.some.inj hp).symm⟩

/-- One more nullifier is marked. -/
theorem update_eq_true {marked : Bytes32 → Bool} {nullifier ν : Bytes32} :
    Function.update marked nullifier true ν = true ↔ marked ν = true ∨ ν = nullifier := by
  rcases eq_or_ne ν nullifier with rfl | hne
  · simp
  · simp [hne]

/-- **The events of a call**, at once and to come. -/
theorem recounts_exec {call : Call} {p : Option Pending} {ps : List (Option Pending)}
    (h : Recounts env w (w.logs ++ toCome ps)) (hexec : exec env verify w msg call = .ok (w', p)) :
    Recounts env w' (w'.logs ++ toCome (p.elim ps fun q => some q :: ps)) := by
  obtain ⟨-, -, heffect⟩ := exec_ok hexec
  have hpaidTracks : Tracks env (paidIn env w msg) (leavesOf w) := h.tracks.congr rfl rfl rfl
  have hpaid : Recounts env (paidIn env w msg) (w.logs ++ toCome ps) := h.congr hpaidTracks rfl rfl
  have htracks : Tracks env w' (leavesOf w ++ leafOf call.action) :=
    tracks_effect hpaidTracks heffect
  generalize haction : call.action = action at heffect htracks
  cases heffect with
  | @deposit proof publicInputs encryptedNote selector _ hd =>
    obtain ⟨i, new, hrecord, hlogs⟩ := hd.records
    have hext : Recounts env w' (w.logs ++ toCome ps ++
        [.depositCommitmentInserted (input publicInputs 0) msg.value,
          .depositNoteCreated (input publicInputs 0) i encryptedNote encryptedNoteVersion]) := by
      refine hpaid.extend htracks (by rw [hd.accounting]; rfl) (by rw [hd.accounting]; rfl)
        (by rw [hd.accounting]; rfl) (by rw [hd.accounting]; rfl) (fun ν => ?_)
        (fun _ hν => absurd hν List.not_mem_nil) List.nodup_nil ⟨rfl, rfl⟩
      rw [hd.nullifiers]
      exact ⟨.inl, fun hor => hor.resolve_right List.not_mem_nil⟩
    have hall := (hext.silent (silent_recorded hpaidTracks.recorded hrecord) hext.tracks rfl
      rfl).perm (perm_records _ _ _ _)
    rw [Option.elim_none, hlogs]
    exact hall
  | @privateTransfer a _ ht =>
    obtain ⟨i, new, hrecord, hlogs⟩ := ht.records
    have hext : Recounts env w' (w.logs ++ toCome ps ++ [.nullifierSpent a.nullifier,
        .privateTransferCommitmentInserted a.newCommitment a.nullifier,
        .privateTransferNoteCreated a.newCommitment a.nullifier i a.encryptedNote
          encryptedOutputNoteVersion]) := by
      refine hpaid.extend htracks (by rw [ht.accounting]; rfl) (by rw [ht.accounting]; rfl)
        (by rw [ht.accounting]; rfl) (by rw [ht.accounting]; rfl) (fun ν => ?_) (fun ν hν => ?_)
        (List.nodup_singleton _) ⟨rfl, rfl⟩
      · rw [ht.nullifiers, update_eq_true]
        exact or_congr_right List.mem_singleton.symm
      · rw [List.mem_singleton.mp hν]
        exact ht.unspent
    have hall := (hext.silent (silent_recorded hpaidTracks.recorded hrecord) hext.tracks rfl
      rfl).perm (perm_records _ _ _ _)
    rw [Option.elim_none, hlogs]
    exact hall
  | @withdraw a _ p hw =>
    obtain ⟨i, new, hrecord, hlogs⟩ := hw.records
    obtain ⟨j, rfl⟩ := withdraw_pending haction hexec
    have hext : Recounts env w' (w.logs ++ toCome ps ++ (Pending.withdraw a.nullifier
        (input a.publicInputs 2) a.destination a.grossAmount
        (a.grossAmount.toNat - feeOf w.pool a.grossAmount) (feeOf w.pool a.grossAmount) j
        a.encryptedOutputNote).events) := by
      refine hpaid.extend htracks (by rw [hw.accounting]; rfl) ?_ ?_ (by rw [hw.accounting]; rfl)
        (fun ν => ?_) (fun ν hν => ?_) (List.nodup_singleton _) (balanced_pending _)
      · rw [hw.accounting]
        simp [total, Pending.events, netAmount, feeOf, paidIn]
      · rw [hw.accounting]
        simp [total, Pending.events, accruedFee, feeOf, paidIn]
      · rw [hw.nullifiers, update_eq_true]
        exact or_congr_right List.mem_singleton.symm
      · rw [List.mem_singleton.mp hν]
        exact hw.checked.unspent
    have hall := (hext.silent (silent_recorded hpaidTracks.recorded hrecord) hext.tracks rfl
      rfl).perm (perm_records _ _ _ _)
    rw [List.append_assoc] at hall
    rw [Option.elim_some, hlogs, List.append_nil]
    exact hall
  | @fee op _ hf =>
    obtain ⟨new, hrun, hlogs⟩ := hf.run
    have htracks' : Tracks env w' (leavesOf w) := by simpa [leafOf] using htracks
    have hall := hpaid.silent (silent_feeEvents hrun) htracks' (by rw [hf.pool]) (by rw [hf.pool])
    rw [List.append_assoc] at hall
    rw [Option.elim_none, hlogs, List.append_assoc]
    exact hall.perm (List.perm_append_comm.append_left w.logs)
  | @sweepFees destination amount _ p hs =>
    obtain rfl := NoteLogs.pending_of_sweep haction hexec
    have hext : Recounts env w' (w.logs ++ toCome ps ++ [.protocolFeesSwept destination amount]) :=
      hpaid.extend htracks (by rw [hs.pool]; rfl) (by rw [hs.pool]; rfl) (by rw [hs.pool]; rfl)
        (by rw [hs.pool]; rfl)
        (fun ν => by
          rw [hs.pool]
          exact ⟨.inl, fun hor => hor.resolve_right List.not_mem_nil⟩)
        (fun _ hν => absurd hν List.not_mem_nil) List.nodup_nil ⟨rfl, rfl⟩
    rw [Option.elim_some, hs.logs]
    refine hext.perm ?_
    rw [List.append_assoc]
    exact List.perm_append_comm.append_left w.logs

/-- The rest of a call emits what was to come. -/
theorem recounts_finish {p : Pending} {ps : List (Option Pending)}
    (h : Recounts env w (w.logs ++ toCome (some p :: ps))) :
    Recounts env (finish w p) ((finish w p).logs ++ toCome ps) := by
  have hevents : (finish w p).logs ++ toCome ps = w.logs ++ toCome (some p :: ps) :=
    List.append_assoc w.logs p.events (toCome ps)
  rw [hevents]
  exact h.congr (tracks_finish h.tracks p) rfl rfl

/-! ### Runs -/

theorem recounts_deployed (h : Deployed env w) : Recounts env w (w.logs ++ toCome []) := by
  have htracks := tracks_deployed h
  have hleaves := htracks.leavesOf_eq
  obtain ⟨verifier, poseidon2Address, balances, h⟩ := h
  simp only [construct, bind_eq_ok, require_eq_ok, exists_const, pure_eq_ok] at h
  obtain ⟨-, -, -, rfl⟩ := h
  refine ⟨hleaves ▸ htracks, rfl, rfl, rfl, rfl, ?_, fun ν => ?_, List.nodup_nil, ⟨rfl, rfl⟩⟩
  · rw [hleaves]
    rfl
  · exact ⟨fun hmarked => absurd hmarked Bool.false_ne_true, fun hν => absurd hν List.not_mem_nil⟩

/-- At every nesting of open calls, the events with those to come recount the pool. -/
theorem nested_recounts {answers : Answers} {c : Config World (Option Pending)}
    (h : Reachable env answers c) :
    Nested (fun w ps => Recounts env w (w.logs ++ toCome ps)) c.world c.frames := by
  obtain ⟨w, hdeployed, hrun⟩ := h
  let start : Config World (Option Pending) := ⟨w, []⟩
  have hbase : Nested (fun w ps => Recounts env w (w.logs ++ toCome ps)) start.world start.frames :=
    recounts_deployed hdeployed
  refine Run.nested (S := pool env answers) ?_ ?_ ?_ hbase hrun
  · intro w w' ps h hs
    cases hs with
    | call _ _ hexec => exact recounts_exec h hexec
    | reverted => exact h
    | others => exact h.congr (h.tracks.congr rfl rfl rfl) rfl rfl
  · intro w p w' ps h ho
    cases ho with
    | call _ _ hexec => exact recounts_exec h hexec
    | others => exact h
  · intro w p w' ps h hc
    cases hc with
    | call => exact recounts_finish h
    | others => exact h

/-- **The events are a journal.** In every reachable world the events, with those that open calls
are still to emit, recount the accounting, the leaves and the marked nullifiers. -/
theorem recounts_reachable {answers : Answers} {c : Config World (Option Pending)}
    (h : Reachable env answers c) :
    Recounts env c.world (c.world.logs ++ toCome (c.frames.map Frame.pending)) :=
  (nested_recounts h).head

/-- While a withdrawal is open whose destination has transferred another note, the accounting counts
the amount that its events are still to name. -/
theorem recounts_reachable_open : ∃ c, Reachable plainEnv (· = fun _ _ => true) c ∧
    total netAmount c.world.logs = 0 ∧
    total netAmount (c.world.logs ++ toCome (c.frames.map Frame.pending)) = 4983500000000000 ∧
    total depositAmount (c.world.logs ++ toCome (c.frames.map Frame.pending)) = 10000000000000000 := by
  obtain ⟨c, hreach, hfacts⟩ := @exists_plainPlay (· = fun _ _ => true) rfl _ 4
    (fun c => (c.world.pool.accounting, total netAmount c.world.logs))
    (⟨16500000000000, 0, 10000000000000000, 4983500000000000⟩, 0) (by decide +kernel)
  obtain ⟨haccounting, hlogs⟩ := Prod.mk.inj hfacts
  have hjournal := recounts_reachable hreach
  have hwithdrawn := hjournal.withdrawn
  have hdeposited := hjournal.deposited
  rw [haccounting] at hwithdrawn hdeposited
  exact ⟨c, hreach, hlogs, hwithdrawn.symm, hdeposited.symm⟩

end Nullark.Pool.Journal
