import Nullark.Pool.Checks

/-! # What a successful call does

For each action the facts about the world after it, as a structure, and `exec_ok`: a call that does
not revert has moved the ether sent along and then had the effect of one action. -/

namespace Nullark.Pool.Effects

open Nullark.Lib.Outcome Nullark.Lib.Rollback Nullark.Evm.Basic
open Nullark.Pool.Interface Nullark.Pool.Context Nullark.Pool.Tree Nullark.Pool.Fees
open Nullark.Pool.Roots Nullark.Pool.Actions Nullark.Pool.Calls Nullark.Pool.Checks

variable {env : Env} {verify : Verify} {w w' : World} {msg : Msg}

/-- A commitment has been recorded, and the logs say so before they say anything else. -/
def Records (env : Env) (w w' : World) (commitment : Bytes32) (after : ℕ → List Event) : Prop :=
  ∃ i events, recordCommitmentRoot env.poseidon2 w.pool.roots commitment =
    .ok (w'.pool.roots, i, events) ∧ w'.logs = w.logs ++ events ++ after i

structure Deposits (env : Env) (verify : Verify) (w : World) (msg : Msg) (proof : Bytes)
    (publicInputs : List Bytes32) (encryptedNote : Bytes) (selector : Bytes4) (w' : World) :
    Prop where
  checked : DepositChecked env verify w.pool msg proof publicInputs encryptedNote selector
  records : Records env w w' (input publicInputs 0) fun i =>
    [.depositCommitmentInserted (input publicInputs 0) msg.value,
      .depositNoteCreated (input publicInputs 0) i encryptedNote encryptedNoteVersion]
  commitments : w'.pool.commitments =
    Function.update w.pool.commitments (input publicInputs 0) true
  nullifiers : w'.pool.nullifiers = w.pool.nullifiers
  accounting : w'.pool.accounting = { w.pool.accounting with
    totalDepositedAccounting := w.pool.accounting.totalDepositedAccounting + msg.value }
  total_lt : w.pool.accounting.totalDepositedAccounting + msg.value < wordSize
  fees : w'.pool.fees = w.pool.fees
  entered : ¬w'.pool.entered
  balances : w'.balances = w.balances
  spends : w'.spends = w.spends

structure Transfers (env : Env) (verify : Verify) (w : World) (msg : Msg) (a : TransferArgs)
    (w' : World) : Prop where
  checked : TransferChecked env verify w.pool msg a
  unspent : ¬w.pool.nullifiers a.nullifier
  fresh : ¬w.pool.commitments a.newCommitment
  records : Records env w w' a.newCommitment fun i => [.nullifierSpent a.nullifier,
    .privateTransferCommitmentInserted a.newCommitment a.nullifier,
    .privateTransferNoteCreated a.newCommitment a.nullifier i a.encryptedNote
      encryptedOutputNoteVersion]
  commitments : w'.pool.commitments = Function.update w.pool.commitments a.newCommitment true
  nullifiers : w'.pool.nullifiers = Function.update w.pool.nullifiers a.nullifier true
  accounting : w'.pool.accounting = w.pool.accounting
  fees : w'.pool.fees = w.pool.fees
  balances : w'.balances = w.balances
  spends : w'.spends = w.spends ++ [a.publicInputs]

structure Withdraws (env : Env) (verify : Verify) (w : World) (msg : Msg) (a : WithdrawArgs)
    (w' : World) (p : Pending) : Prop where
  checked : WithdrawChecked env verify w.pool msg a
  liquid : LiquidityChecked w.pool (w.balances env.this) a (feeOf w.pool a.grossAmount)
  records : Records env w w' (input a.publicInputs 2) fun _ => []
  commitments : w'.pool.commitments =
    Function.update w.pool.commitments (input a.publicInputs 2) true
  nullifiers : w'.pool.nullifiers = Function.update w.pool.nullifiers a.nullifier true
  accounting : w'.pool.accounting = { w.pool.accounting with
    accruedProtocolFees := w.pool.accounting.accruedProtocolFees + feeOf w.pool a.grossAmount
    totalWithdrawnAccounting := w.pool.accounting.totalWithdrawnAccounting +
      (a.grossAmount.toNat - feeOf w.pool a.grossAmount) }
  fees : w'.pool.fees = w.pool.fees
  payable : a.grossAmount.toNat - feeOf w.pool a.grossAmount ≤ w.balances env.this
  balances : w'.balances = transfer w.balances env.this a.destination
    (a.grossAmount.toNat - feeOf w.pool a.grossAmount)
  spends : w'.spends = w.spends ++ [a.publicInputs]
  destination : p.destination = a.destination

structure RunsFee (env : Env) (w : World) (msg : Msg) (op : FeeOp) (w' : World) : Prop where
  run : ∃ events, runFeeOp env.feeController w.pool.fees ⟨msg.sender, msg.timestamp, op⟩ =
    .ok (w'.pool.fees, events) ∧ w'.logs = w.logs ++ events
  pool : w'.pool = { w.pool with fees := w'.pool.fees }
  balances : w'.balances = w.balances
  spends : w'.spends = w.spends

structure Sweeps (env : Env) (w : World) (msg : Msg) (destination : Address) (amount : UInt256)
    (w' : World) (p : Pending) : Prop where
  sender : msg.sender = env.feeController
  destination_ne : destination ≠ 0
  amount_pos : amount.toNat > 0
  swept_le : w.pool.accounting.feeSweptAccounting + amount.toNat ≤
    w.pool.accounting.accruedProtocolFees
  pool : w'.pool = { w.pool with
    entered := true
    accounting := { w.pool.accounting with
      feeSweptAccounting := w.pool.accounting.feeSweptAccounting + amount.toNat } }
  payable : amount.toNat ≤ w.balances env.this
  balances : w'.balances = transfer w.balances env.this destination amount.toNat
  logs : w'.logs = w.logs
  spends : w'.spends = w.spends
  destination : p.destination = destination

/-- **The effect of an action**, and what it leaves to do. -/
inductive Effect (env : Env) (verify : Verify) (w : World) (msg : Msg) :
    Action → World → Option Pending → Prop
  | deposit {proof publicInputs encryptedNote selector w'}
      (h : Deposits env verify w msg proof publicInputs encryptedNote selector w') :
      Effect env verify w msg (.deposit proof publicInputs encryptedNote selector) w' none
  | privateTransfer {a w'} (h : Transfers env verify w msg a w') :
      Effect env verify w msg (.privateTransfer a) w' none
  | withdraw {a w' p} (h : Withdraws env verify w msg a w' p) :
      Effect env verify w msg (.withdraw a) w' (some p)
  | fee {op w'} (h : RunsFee env w msg op w') : Effect env verify w msg (.fee op) w' none
  | sweepFees {destination amount w' p} (h : Sweeps env w msg destination amount w' p) :
      Effect env verify w msg (.sweepFees destination amount) w' (some p)

/-! ### Inversion, action by action -/

theorem nonReentrantBefore_eq_ok :
    nonReentrantBefore w = .ok w' ↔
      ¬w.pool.entered ∧ w' = { w with pool := { w.pool with entered := true } } := by
  unfold nonReentrantBefore
  split_ifs with h <;> simp [h, eq_comm]

theorem send_eq_ok {destination : Address} {amount : ℕ} {text : String} :
    send env w destination amount text = .ok w' ↔ amount ≤ w.balances env.this ∧
      w' = { w with balances := transfer w.balances env.this destination amount } := by
  unfold send
  simp only [bind_eq_ok, require_eq_ok, exists_const, pure_eq_ok, eq_comm (b := w')]

theorem deposits_of_run {proof : Bytes} {publicInputs : List Bytes32} {encryptedNote : Bytes}
    {selector : Bytes4} {p : Option Pending}
    (h : runAction env verify w msg (.deposit proof publicInputs encryptedNote selector) =
      .ok (w', p)) :
    Deposits env verify w msg proof publicInputs encryptedNote selector w' ∧ p = none := by
  simp only [runAction, depositWithProof, bind_eq_ok, nonReentrantBefore_eq_ok, checkDeposit_eq_ok,
    exists_const, checkedAdd_eq_ok, pure_eq_ok, Prod.mk.injEq] at h
  obtain ⟨_, ⟨-, rfl⟩, _, ⟨hc, _, ⟨ht, rfl⟩, ⟨roots, i, events⟩, hr, rfl⟩, rfl, rfl⟩ := h
  exact ⟨⟨⟨hc.1, hc.2, hc.3, hc.4, hc.5, hc.6, hc.7, hc.8, hc.9, hc.10, hc.11, hc.12, hc.13, hc.14⟩,
    ⟨i, events, hr, rfl⟩, rfl, rfl, rfl, ht, rfl, Bool.false_ne_true, rfl, rfl⟩, rfl⟩

theorem transfers_of_run {a : TransferArgs} {p : Option Pending}
    (h : runAction env verify w msg (.privateTransfer a) = .ok (w', p)) :
    Transfers env verify w msg a w' ∧ p = none := by
  simp only [runAction, privateTransfer, bind_eq_ok, checkPrivateTransfer_eq_ok, require_eq_ok,
    exists_const, pure_eq_ok, Prod.mk.injEq] at h
  obtain ⟨_, ⟨hc, hn, hf, ⟨roots, i, events⟩, hr, rfl⟩, rfl, rfl⟩ := h
  exact ⟨⟨hc, hn, hf, ⟨i, events, hr, rfl⟩, rfl, rfl, rfl, rfl, rfl, rfl⟩, rfl⟩

/-- The checks do not read the state of the guard. -/
theorem withdrawChecked_unguard {a : WithdrawArgs} {s : Storage} {b : Bool}
    (h : WithdrawChecked env verify { s with entered := b } msg a) :
    WithdrawChecked env verify s msg a :=
  { h with
    common := { h.common with }
    policy := { h.policy with }
    bindings := { h.bindings with } }

theorem withdraws_of_run {a : WithdrawArgs} {p : Option Pending}
    (h : runAction env verify w msg (.withdraw a) = .ok (w', p)) :
    ∃ pending, p = some pending ∧ Withdraws env verify w msg a w' pending := by
  simp only [runAction, withdraw, bind_eq_ok, nonReentrantBefore_eq_ok, pure_eq_ok,
    Prod.mk.injEq] at h
  obtain ⟨_, ⟨-, rfl⟩, ⟨w₁, pending⟩, ⟨⟨fee, outputCommitment⟩, hc, netAmount, hl, _, ha, _, ht,
    ⟨roots, i, events⟩, hr, _, hs, rfl, rfl⟩, rfl, rfl⟩ := h
  rw [checkWithdraw_eq_ok] at hc
  rw [checkLiquidity_eq_ok] at hl
  rw [checkedAdd_eq_ok] at ha ht
  rw [send_eq_ok] at hs
  obtain ⟨hc, rfl, rfl⟩ := hc
  obtain ⟨hl, rfl⟩ := hl
  obtain ⟨-, rfl⟩ := ha
  obtain ⟨-, rfl⟩ := ht
  obtain ⟨hpay, rfl⟩ := hs
  refine ⟨_, rfl, withdrawChecked_unguard hc, { hl with }, ⟨i, events, hr, ?_⟩, rfl, rfl,
    rfl, rfl, hpay, rfl, rfl, rfl⟩
  rw [List.append_nil]

theorem runsFee_of_run {op : FeeOp} {p : Option Pending}
    (h : runAction env verify w msg (.fee op) = .ok (w', p)) :
    RunsFee env w msg op w' ∧ p = none := by
  simp only [runAction, bind_eq_ok, pure_eq_ok, Prod.mk.injEq] at h
  obtain ⟨⟨fees, events⟩, hr, rfl, rfl⟩ := h
  exact ⟨⟨⟨events, hr, rfl⟩, rfl, rfl, rfl⟩, rfl⟩

theorem sweeps_of_run {destination : Address} {amount : UInt256} {p : Option Pending}
    (h : runAction env verify w msg (.sweepFees destination amount) = .ok (w', p)) :
    ∃ pending, p = some pending ∧ Sweeps env w msg destination amount w' pending := by
  simp only [runAction, sweepFees, bind_eq_ok, nonReentrantBefore_eq_ok, require_eq_ok,
    exists_const, checkedAdd_eq_ok, send_eq_ok, pure_eq_ok, Prod.mk.injEq] at h
  obtain ⟨_, ⟨-, rfl⟩, ⟨w₁, pending⟩, ⟨h1, h2, h3, _, ⟨-, rfl⟩, h4, _, ⟨h5, rfl⟩, rfl, rfl⟩, rfl,
    rfl⟩ := h
  exact ⟨_, rfl, h1, h2, h3, h4, rfl, h5, rfl, rfl, rfl, rfl⟩

theorem effect_of_run {action : Action} {p : Option Pending}
    (h : runAction env verify w msg action = .ok (w', p)) : Effect env verify w msg action w' p := by
  cases action with
  | rejected text => simp [runAction] at h
  | deposit proof publicInputs encryptedNote selector =>
    obtain ⟨he, rfl⟩ := deposits_of_run h
    exact .deposit he
  | privateTransfer a =>
    obtain ⟨he, rfl⟩ := transfers_of_run h
    exact .privateTransfer he
  | withdraw a =>
    obtain ⟨p, rfl, he⟩ := withdraws_of_run h
    exact .withdraw he
  | fee op =>
    obtain ⟨he, rfl⟩ := runsFee_of_run h
    exact .fee he
  | sweepFees destination amount =>
    obtain ⟨p, rfl, he⟩ := sweeps_of_run h
    exact .sweepFees he

/-- The world in which the code of a call runs. -/
def paidIn (env : Env) (w : World) (msg : Msg) : World :=
  { w with balances := transfer w.balances msg.sender env.this msg.value }

theorem payIn_eq_ok : payIn env w msg = .ok w' ↔
    msg.value ≤ w.balances msg.sender ∧ w' = paidIn env w msg := by
  unfold payIn
  split_ifs with h <;> simp [h, paidIn, eq_comm]

/-- **All a successful call can do.** -/
theorem exec_ok {call : Call} {p : Option Pending}
    (h : exec env verify w msg call = .ok (w', p)) :
    (¬call.payable → msg.value = 0) ∧ msg.value ≤ w.balances msg.sender ∧
      Effect env verify (paidIn env w msg) msg call.action w' p := by
  unfold exec at h
  rw [bind_eq_ok] at h
  obtain ⟨_, hguard, h⟩ := h
  rw [bind_eq_ok] at h
  obtain ⟨w₁, hpay, hrun⟩ := h
  obtain ⟨hle, rfl⟩ := payIn_eq_ok.mp hpay
  refine ⟨fun hp => ?_, hle, effect_of_run hrun⟩
  unfold requirePayable at hguard
  split_ifs at hguard with hor
  exact hor.resolve_left hp

/-! ### Deposits that succeed -/

/-- A deposit that passes its checks takes effect while the tree has room and the guard is off. -/
theorem exec_deposit {proof : Bytes} {publicInputs : List Bytes32} {encryptedNote : Bytes}
    {leaves : List Bytes32} (hpaid : msg.value ≤ w.balances msg.sender)
    (hguard : ¬w.pool.entered)
    (hchecked : DepositChecked env verify w.pool msg proof publicInputs encryptedNote
      (Call.deposit proof publicInputs encryptedNote).selector)
    (htotal : w.pool.accounting.totalDepositedAccounting + msg.value < wordSize)
    (hroots : Recorded env.poseidon2 w.pool.roots leaves)
    (hroom : leaves.length < merkleTreeCapacity) :
    ∃ w', exec env verify w msg (.deposit proof publicInputs encryptedNote) = .ok (w', none) := by
  obtain ⟨roots, i, events, hrecord⟩ := recordCommitmentRoot_of_lt hroots hroom (input publicInputs 0)
  have hcheck := checkDeposit_eq_ok (s := { w.pool with entered := true }) (u := ()).mpr
    { hchecked with }
  have hrun : ∃ w', depositWithProof env verify
      { paidIn env w msg with pool := { w.pool with entered := true } } msg proof publicInputs
      encryptedNote (Call.deposit proof publicInputs encryptedNote).selector = .ok w' := by
    simp only [depositWithProof, bind_eq_ok]
    exact ⟨_, (), hcheck, _, checkedAdd_eq_ok.mpr ⟨htotal, rfl⟩, (roots, i, events), hrecord, rfl⟩
  obtain ⟨w', hrun⟩ := hrun
  refine ⟨nonReentrantAfter w', ?_⟩
  unfold exec
  rw [bind_eq_ok]
  refine ⟨(), if_pos (.inl rfl), ?_⟩
  rw [bind_eq_ok]
  refine ⟨paidIn env w msg, payIn_eq_ok.mpr ⟨hpaid, rfl⟩, ?_⟩
  simp only [Call.action, runAction, bind_eq_ok]
  exact ⟨_, nonReentrantBefore_eq_ok.mpr ⟨hguard, rfl⟩, w', hrun, rfl⟩

/-! ### Withdrawals that reach the tree -/

theorem transfer_zero {balances : Address → ℕ} {source target : Address} :
    transfer balances source target 0 = balances := by
  simp [transfer]

theorem paidIn_zero (h : msg.value = 0) : paidIn env w msg = w := by
  rw [paidIn, h, transfer_zero]

/-- **A withdrawal that passes its checks is decided by the tree**: it reaches its external call
when the output commitment is recorded, and fails as the recording does otherwise. -/
theorem exec_withdraw {call : Call} {a : WithdrawArgs} (hcall : call.action = .withdraw a)
    (hvalue : msg.value = 0) (hguard : ¬w.pool.entered)
    (hchecked : WithdrawChecked env verify w.pool msg a)
    (hliquid : LiquidityChecked w.pool (w.balances env.this) a (feeOf w.pool a.grossAmount))
    (htotal : w.pool.accounting.totalDepositedAccounting < wordSize) :
    (∀ r, recordCommitmentRoot env.poseidon2 w.pool.roots (input a.publicInputs 2) = .ok r →
      ∃ w' p, exec env verify w msg call = .ok (w', some p)) ∧
    ∀ e, recordCommitmentRoot env.poseidon2 w.pool.roots (input a.publicInputs 2) = .error e →
      exec env verify w msg call = .error e := by
  have hpayable : requirePayable msg call = .ok () := if_pos (.inr hvalue)
  have hpay : payIn env w msg = .ok w :=
    payIn_eq_ok.mpr ⟨by rw [hvalue]; exact Nat.zero_le _, (paidIn_zero hvalue).symm⟩
  have hbefore := nonReentrantBefore_eq_ok.mpr ⟨hguard, rfl⟩
  have hcheck := checkWithdraw_eq_ok (s := { w.pool with entered := true }).mpr
    ⟨{ hchecked with
      common := { hchecked.common with }
      bindings := { hchecked.bindings with } }, rfl, rfl⟩
  have hliquidity := checkLiquidity_eq_ok (s := { w.pool with entered := true }).mpr
    ⟨{ hliquid with }, rfl⟩
  have hfee := hliquid.fee_le
  have hgross := hliquid.accounting
  have hpos := hchecked.gross_pos
  have haccrued := checkedAdd_eq_ok.mpr ⟨(show w.pool.accounting.accruedProtocolFees +
    feeOf w.pool a.grossAmount < wordSize by omega), rfl⟩
  have hwithdrawn := checkedAdd_eq_ok.mpr ⟨(show w.pool.accounting.totalWithdrawnAccounting +
    (a.grossAmount.toNat - feeOf w.pool a.grossAmount) < wordSize by omega), rfl⟩
  constructor
  · rintro ⟨roots, i, events⟩ hr
    have hbalance := hliquid.balance
    have hnet : a.grossAmount.toNat - feeOf w.pool a.grossAmount ≤ w.balances env.this := by omega
    have hrun : ∃ r, withdraw env verify { w with pool := { w.pool with entered := true } } msg a =
        .ok r := by
      simp only [withdraw, bind_eq_ok]
      exact ⟨_, _, hcheck, _, hliquidity, _, haccrued, _, hwithdrawn, (roots, i, events), hr, _,
        send_eq_ok.mpr ⟨hnet, rfl⟩, rfl⟩
    obtain ⟨⟨w', p⟩, hrun⟩ := hrun
    refine ⟨w', p, ?_⟩
    unfold exec
    rw [hpayable, ok_bind, hpay, ok_bind, hcall, runAction, hbefore, ok_bind, hrun]
    rfl
  · intro e he
    have hrun : withdraw env verify { w with pool := { w.pool with entered := true } } msg a =
        .error e := by
      unfold withdraw
      exact bind_eq_error.mpr (.inr ⟨_, hcheck, bind_eq_error.mpr (.inr ⟨_, hliquidity,
        bind_eq_error.mpr (.inr ⟨_, haccrued, bind_eq_error.mpr (.inr ⟨_, hwithdrawn,
          bind_eq_error.mpr (.inl he)⟩)⟩)⟩)⟩)
    unfold exec
    rw [hpayable, ok_bind, hpay, ok_bind, hcall, runAction, hbefore, ok_bind, hrun]
    rfl

/-! ### An environment to run in -/

/-- A chain on which every digest is zero and a node is its left child, for runs on fixed inputs. -/
def plainEnv : Env :=
  { poseidon2 := fun l _ => l, keccak256 := fun _ => 0, chainId := 6343, this := 7
    feeController := 9 }

/-- The public inputs of a deposit of the smallest denomination there. -/
def plainInputs (commitment : Bytes32) : List Bytes32 :=
  [commitment, 5000000000000000, 6343, 7, 0, 0]

def plainDeposit (commitment : Bytes32) : Call := .deposit [] (plainInputs commitment) [1]

def plainMsg : Msg := { sender := 1, value := 5000000000000000, timestamp := 0 }

theorem hashToField_plain (encoded : Bytes) : hashToField plainEnv encoded = 0 := rfl

theorem plainDepositNote_checked {s : Storage} {commitment : Bytes32} {encryptedNote : Bytes}
    (hne : commitment ≠ 0) (hfield : isFieldElement commitment)
    (hfresh : ¬s.commitments commitment) (hnote : encryptedNote.length ≠ 0)
    (hlength : encryptedNote.length ≤ maxEncryptedNoteBytes) :
    DepositChecked plainEnv (fun _ _ => true) s plainMsg [] (plainInputs commitment) encryptedNote
      (Call.deposit [] (plainInputs commitment) encryptedNote).selector where
  length := rfl
  commitment_ne := hne
  commitment_field := hfield
  commitment_fresh := hfresh
  amount := rfl
  value_pos := by decide
  supported := by decide
  chainId := rfl
  this := rfl
  note_ne := hnote
  note_le := hlength
  noteHash := (hashToField_plain _).symm
  contextHash := (hashToField_plain _).symm
  verified := rfl

theorem plainDeposit_checked {s : Storage} {commitment : Bytes32} (hne : commitment ≠ 0)
    (hfield : isFieldElement commitment) (hfresh : ¬s.commitments commitment) :
    DepositChecked plainEnv (fun _ _ => true) s plainMsg [] (plainInputs commitment) [1]
      (plainDeposit commitment).selector :=
  plainDepositNote_checked hne hfield hfresh (by decide) (by decide)

/-- The world of a deployment, its depositor holding `funds`. -/
def freshWorld (env : Env) (funds : ℕ) : World :=
  { pool :=
      { commitments := fun _ => false, nullifiers := fun _ => false
        roots := initialRoots env.poseidon2, accounting := ⟨0, 0, 0, 0⟩, fees := initialFees
        entered := false }
    balances := fun a => if a = 1 then funds else 0
    logs := [.rootAccepted (initialRoots env.poseidon2).currentRoot 0 0]
    spends := [] }

theorem freshWorld_deployed (h : env.feeController ≠ 0) (funds : ℕ) :
    Deployed env (freshWorld env funds) := by
  refine ⟨1, 1, (freshWorld env funds).balances, ?_⟩
  unfold construct
  simp only [bind_eq_ok, require_eq_ok, exists_const, pure_eq_ok]
  exact ⟨by decide, h, by decide, rfl⟩

def plainWorld (funds : ℕ) : World := freshWorld plainEnv funds

theorem plainWorld_deployed (funds : ℕ) : Deployed plainEnv (plainWorld funds) :=
  freshWorld_deployed (by decide) funds

/-! ### A run there -/

def exitMsg : Msg := { sender := 1, value := 0, timestamp := 0 }

/-- The public inputs of a spend in a tree whose first leaf is 5. -/
def plainSpend (nullifier output destination grossAmount fee : Bytes32) : List Bytes32 :=
  [5, nullifier, output, destination, grossAmount, fee, 6343, 7, 0, 0]

/-- Two deposits, and the withdrawal of one of the notes, whose destination transfers the other note
before it returns. -/
def plainMoves : List (Move Call) :=
  [.call plainMsg (.deposit [] (plainInputs 5) [1, 2, 3]),
    .call plainMsg (.deposit [] (plainInputs 6) [1, 2, 3]),
    .call exitMsg (.withdrawNoteBounded [] (plainSpend 21 8 11 5000000000000000 16500000000000) 21 11
      5000000000000000 [1, 2, 3] 0 16500000000000),
    .call exitMsg (.privateTransferNote [] (plainSpend 22 9 0 0 0) 22 9 [1, 2, 3]),
    .returns]

/-- What the first moves lead to. -/
def plainPlay (n : ℕ) : Option (Config World (Option Pending)) :=
  play (playMove plainEnv fun _ _ => true) (fun _ => true) ⟨plainWorld 10000000000000000, []⟩
    (plainMoves.take n)

theorem exists_plainPlay {answers : Answers} (hv : answers fun _ _ => true) {α : Type} {n : ℕ}
    {f : Config World (Option Pending) → α} {x : α} (h : (plainPlay n).map f = some x) :
    ∃ c, Reachable plainEnv answers c ∧ f c = x := by
  obtain ⟨c, hc, hf⟩ := Option.map_eq_some_iff.mp h
  exact ⟨c, reachable_of_play hv (plainWorld_deployed _) hc, hf⟩

end Nullark.Pool.Effects
