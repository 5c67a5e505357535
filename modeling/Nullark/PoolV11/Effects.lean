import Nullark.PoolV11.Calls
import Nullark.Pool.Effects

/-! # What a successful call of v1.1 does

For each list of checks the facts it stands for, for each action the facts about the world after it,
and `exec_ok`: a call that does not revert has moved the ether sent along and then had the effect of
one action. -/

namespace Nullark.PoolV11.Effects

open Nullark.Lib.Outcome Nullark.Evm.Basic
open Nullark.Pool.Interface hiding Event publicInputsLength
open Nullark.Pool.Context (Env proofContextHash)
open Nullark.Pool.Roots.V11 (RootStorage recordCommitmentRoot isAcceptedRoot)
open Nullark.Pool.Actions (Accounting Msg Verify input transfer TransferArgs)
open Nullark.Pool.Checks (PolicyChecked requireRelayerPolicy_eq_ok)
open Nullark.PoolV11.Actions Nullark.PoolV11.Calls

variable {env : Env} {verify : Verify} {s : Storage} {w w' : World} {msg : Msg}

/-! ### Checks -/

structure DepositChecked (s : Storage) (msg : Msg) (commitment : Bytes32) (encryptedNote : Bytes) :
    Prop where
  notPaused : ¬s.depositsPaused
  value_pos : msg.value > 0
  supported : isSupportedDenomination msg.value
  commitment_ne : commitment ≠ 0
  commitment_field : isFieldElement commitment
  commitment_fresh : ¬s.commitments commitment
  note_le : encryptedNote.length ≤ maxEncryptedNoteBytes

theorem checkDeposit_eq_ok {commitment : Bytes32} {encryptedNote : Bytes} {u : Unit} :
    checkDeposit s msg commitment encryptedNote = .ok u ↔
      DepositChecked s msg commitment encryptedNote := by
  unfold checkDeposit
  simp only [bind_eq_ok, require_eq_ok, exists_const]
  exact ⟨fun ⟨h1, h2, h3, h4, h5, h6, h7⟩ => ⟨h1, h2, h3, h4, h5, h6, h7⟩,
    fun ⟨h1, h2, h3, h4, h5, h6, h7⟩ => ⟨h1, h2, h3, h4, h5, h6, h7⟩⟩

/-- The public inputs all spends are checked for, with the commitment they spend. -/
structure SpendChecked (env : Env) (s : Storage) (publicInputs : List Bytes32)
    (nullifier : Bytes32) : Prop where
  length : publicInputs.length = publicInputsLength
  root : isAcceptedRoot s.roots (input publicInputs 0)
  nullifier : input publicInputs 1 = nullifier
  chainId : input publicInputs 6 = env.chainId
  this : input publicInputs 7 = addressToBytes32 env.this
  spent_ne : input publicInputs 8 ≠ 0
  spent_field : isFieldElement (input publicInputs 8)
  spent_known : s.commitments (input publicInputs 8)
  amount_pos : (input publicInputs 9).toNat > 0
  amount_lt : (input publicInputs 9).toNat < bn254ScalarField
  amount : s.commitmentAmounts (input publicInputs 8) = (input publicInputs 9).toNat

/-- The hashes a spend is bound to. -/
structure BindingsChecked (env : Env) (publicInputs : List Bytes32) (note : EncryptedNoteV1)
    (destination : Address) (grossAmount : UInt256) (fee : ℕ) (policy : RelayerPolicy) : Prop where
  noteHash : input publicInputs 11 = encryptedNoteHash env note
  contextHash : input publicInputs 10 =
    proofContextHash env (proofContext env publicInputs note destination grossAmount fee policy)

theorem requireStageBBindings_eq_ok {publicInputs : List Bytes32} {note : EncryptedNoteV1}
    {destination : Address} {grossAmount : UInt256} {fee : ℕ} {policy : RelayerPolicy} {u : Unit} :
    requireStageBBindings env publicInputs note destination grossAmount fee policy = .ok u ↔
      BindingsChecked env publicInputs note destination grossAmount fee policy := by
  unfold requireStageBBindings
  simp only [bind_eq_ok, require_eq_ok, exists_const]
  exact ⟨fun ⟨h1, h2⟩ => ⟨h1, h2⟩, fun ⟨h1, h2⟩ => ⟨h1, h2⟩⟩

structure TransferChecked (env : Env) (verify : Verify) (s : Storage) (msg : Msg)
    (a : TransferArgs) : Prop where
  notPaused : ¬s.internalSendsPaused
  nullifier_ne : a.nullifier ≠ 0
  commitment_ne : a.newCommitment ≠ 0
  commitment_field : isFieldElement a.newCommitment
  note_le : a.encryptedNote.length ≤ maxEncryptedNoteBytes
  spend : SpendChecked env s a.publicInputs a.nullifier
  commitment : input a.publicInputs 2 = a.newCommitment
  noDestination : input a.publicInputs 3 = 0
  noAmount : input a.publicInputs 4 = 0
  noFee : input a.publicInputs 5 = 0
  policy : PolicyChecked msg a.relayerPolicy
  bindings : BindingsChecked env a.publicInputs
    { shape := privateTransferContextShape env, selector := a.selector, nullifier := a.nullifier
      commitment := a.newCommitment, noteAmount := (input a.publicInputs 9).toNat
      encryptedNote := a.encryptedNote } 0 0 0 a.relayerPolicy
  verified : verify a.proof a.publicInputs

theorem checkPrivateTransfer_eq_ok {a : TransferArgs} {noteAmount : ℕ} :
    checkPrivateTransfer env verify s msg a = .ok noteAmount ↔
      TransferChecked env verify s msg a ∧ noteAmount = (input a.publicInputs 9).toNat := by
  unfold checkPrivateTransfer requirePrivateTransferPublicInputs requirePublicInputsCommon
    requireSpentCommitmentAmount
  simp only [bind_eq_ok, require_eq_ok, exists_const, requireRelayerPolicy_eq_ok,
    requireStageBBindings_eq_ok, pure_eq_ok]
  constructor
  · rintro ⟨h1, h2, h3, h4, h5, _, ⟨⟨h6, h7, h8, h9, h10⟩, h11, h12, h13, h14, h15, h16, h17, h18,
      h19, h20, rfl⟩, h21, h22, h23, rfl⟩
    exact ⟨⟨h1, h2, h3, h4, h5, ⟨h6, h7, h8, h9, h10, h15, h16, h17, h18, h19, h20⟩, h11, h12, h13,
      h14, h21, h22, h23⟩, rfl⟩
  · rintro ⟨⟨h1, h2, h3, h4, h5, ⟨h6, h7, h8, h9, h10, h15, h16, h17, h18, h19, h20⟩, h11, h12, h13,
      h14, h21, h22, h23⟩, rfl⟩
    exact ⟨h1, h2, h3, h4, h5, _, ⟨⟨h6, h7, h8, h9, h10⟩, h11, h12, h13, h14, h15, h16, h17, h18,
      h19, h20, rfl⟩, h21, h22, h23, rfl⟩

/-- The fee the pool takes. -/
def feeOf (grossAmount : UInt256) : ℕ := grossAmount.toNat * withdrawalFeeBps / bpsDenominator

/-- A withdrawal of the whole note, or one that leaves change. -/
structure ChangeChecked (changeCommitment : Bytes32) (noteAmount grossAmount : ℕ)
    (encryptedChangeNote : Bytes) : Prop where
  whole : changeCommitment = 0 → grossAmount = noteAmount ∧ encryptedChangeNote.length = 0
  rest : changeCommitment ≠ 0 → grossAmount < noteAmount ∧
    isSupportedDenomination (noteAmount - grossAmount) ∧ encryptedChangeNote.length ≠ 0

/-- The amount the encrypted note of a withdrawal is bound to. -/
def encryptedNoteAmount (changeCommitment : Bytes32) (noteAmount grossAmount : ℕ) : ℕ :=
  if changeCommitment = 0 then noteAmount else noteAmount - grossAmount

theorem checkChange_eq_ok {changeCommitment : Bytes32} {noteAmount grossAmount amount : ℕ}
    {encryptedChangeNote : Bytes} :
    checkChange changeCommitment noteAmount grossAmount encryptedChangeNote = .ok amount ↔
      ChangeChecked changeCommitment noteAmount grossAmount encryptedChangeNote ∧
        amount = encryptedNoteAmount changeCommitment noteAmount grossAmount := by
  unfold checkChange encryptedNoteAmount
  split_ifs with h
  · simp only [bind_eq_ok, require_eq_ok, exists_const, pure_eq_ok]
    exact ⟨fun ⟨h1, h2, h3⟩ => ⟨⟨fun _ => ⟨h1, h2⟩, fun hne => absurd h hne⟩, h3.symm⟩,
      fun ⟨hc, he⟩ => ⟨(hc.whole h).1, (hc.whole h).2, he.symm⟩⟩
  · simp only [bind_eq_ok, require_eq_ok, exists_const, checkedSub_eq_ok, pure_eq_ok]
    constructor
    · rintro ⟨h1, _, ⟨-, rfl⟩, h2, h3, rfl⟩
      exact ⟨⟨fun hz => absurd hz h, fun _ => ⟨h1, h2, h3⟩⟩, rfl⟩
    · rintro ⟨hc, rfl⟩
      obtain ⟨h1, h2, h3⟩ := hc.rest h
      exact ⟨h1, _, ⟨h1.le, rfl⟩, h2, h3, rfl⟩

structure WithdrawChecked (env : Env) (verify : Verify) (s : Storage) (msg : Msg)
    (a : WithdrawArgs) : Prop where
  nullifier_ne : a.nullifier ≠ 0
  unspent : ¬s.nullifiers a.nullifier
  destination_ne : a.destination ≠ 0
  gross_pos : a.grossAmount.toNat > 0
  note_le : a.encryptedChangeNote.length ≤ maxEncryptedNoteBytes
  product_lt : a.grossAmount.toNat * withdrawalFeeBps < wordSize
  spend : SpendChecked env s a.publicInputs a.nullifier
  commitment : input a.publicInputs 2 ≠ 0 → isFieldElement (input a.publicInputs 2) ∧
    ¬s.commitments (input a.publicInputs 2)
  destination : input a.publicInputs 3 = addressToBytes32 a.destination
  grossAmount : input a.publicInputs 4 = a.grossAmount
  fee : input a.publicInputs 5 = BitVec.ofNat 256 (feeOf a.grossAmount)
  policy : PolicyChecked msg a.relayerPolicy
  minNet_le : a.relayerPolicy.minNetAmount.toNat ≤ a.grossAmount.toNat
  note_supported : isSupportedDenomination (input a.publicInputs 9).toNat
  gross_supported : isSupportedDenomination a.grossAmount.toNat
  gross_le : a.grossAmount.toNat ≤ (input a.publicInputs 9).toNat
  change : ChangeChecked (input a.publicInputs 2) (input a.publicInputs 9).toNat
    a.grossAmount.toNat a.encryptedChangeNote
  bindings : BindingsChecked env a.publicInputs
    { shape := withdrawContextShape env, selector := a.selector, nullifier := a.nullifier
      commitment := input a.publicInputs 2
      noteAmount := encryptedNoteAmount (input a.publicInputs 2) (input a.publicInputs 9).toNat
        a.grossAmount.toNat
      encryptedNote := a.encryptedChangeNote } a.destination a.grossAmount (feeOf a.grossAmount)
    a.relayerPolicy
  verified : verify a.proof a.publicInputs

theorem requireFreshUnlessZero_eq_ok {commitment : Bytes32} {u : Unit} :
    requireFreshUnlessZero s commitment = .ok u ↔
      (commitment ≠ 0 → isFieldElement commitment ∧ ¬s.commitments commitment) := by
  unfold requireFreshUnlessZero
  split_ifs with h
  · exact ⟨fun _ hne => absurd h hne, fun _ => rfl⟩
  · simp only [bind_eq_ok, require_eq_ok, exists_const]
    exact ⟨fun hc _ => hc, fun hc => hc h⟩

theorem checkWithdraw_eq_ok {a : WithdrawArgs} {fee noteAmount : ℕ} {changeCommitment : Bytes32} :
    checkWithdraw env verify s msg a = .ok (fee, changeCommitment, noteAmount) ↔
      WithdrawChecked env verify s msg a ∧ fee = feeOf a.grossAmount ∧
        changeCommitment = input a.publicInputs 2 ∧
          noteAmount = (input a.publicInputs 9).toNat := by
  unfold checkWithdraw requireWithdrawalPublicInputs requirePublicInputsCommon
    requireSpentCommitmentAmount
  simp only [bind_eq_ok, require_eq_ok, exists_const, checkedMul_eq_ok,
    requireFreshUnlessZero_eq_ok, requireRelayerPolicy_eq_ok, checkChange_eq_ok,
    requireStageBBindings_eq_ok, pure_eq_ok, Prod.mk.injEq]
  constructor
  · rintro ⟨h1, h2, h3, h4, h5, _, ⟨h6, rfl⟩, _, ⟨⟨h7, h8, h9, h10, h11⟩, h12, h13, h14, h15, _,
      ⟨h16, h17, h18, h19, h20, h21, rfl⟩, rfl⟩, h22, h23, h24, h25, h26, _, ⟨h27, rfl⟩, h28, h29,
      rfl, rfl, rfl⟩
    exact ⟨⟨h1, h2, h3, h4, h5, h6, ⟨h7, h8, h9, h10, h11, h16, h17, h18, h19, h20, h21⟩, h12, h13,
      h14, h15, h22, h23, h24, h25, h26, h27, h28, h29⟩, rfl, rfl, rfl⟩
  · rintro ⟨⟨h1, h2, h3, h4, h5, h6, ⟨h7, h8, h9, h10, h11, h16, h17, h18, h19, h20, h21⟩, h12, h13,
      h14, h15, h22, h23, h24, h25, h26, h27, h28, h29⟩, rfl, rfl, rfl⟩
    exact ⟨h1, h2, h3, h4, h5, _, ⟨h6, rfl⟩, _, ⟨⟨h7, h8, h9, h10, h11⟩, h12, h13, h14, h15, _,
      ⟨h16, h17, h18, h19, h20, h21, rfl⟩, rfl⟩, h22, h23, h24, h25, h26, _, ⟨h27, rfl⟩, h28, h29,
      rfl, rfl, rfl⟩

/-- What the liquidity checks leave of the two bounds. -/
structure LiquidityChecked (accounting : Accounting) (a : WithdrawArgs) (fee : ℕ) : Prop where
  fee_le : fee ≤ a.grossAmount.toNat
  covered : a.grossAmount.toNat + accounting.totalWithdrawnAccounting +
    accounting.accruedProtocolFees ≤ accounting.totalDepositedAccounting

theorem liquidityChecked_of_ok {accounting : Accounting} {balance : ℕ} {a : WithdrawArgs}
    {fee netAmount : ℕ} (h : checkLiquidity accounting balance a fee = .ok netAmount) :
    LiquidityChecked accounting a fee ∧ netAmount = a.grossAmount.toNat - fee := by
  unfold checkLiquidity at h
  simp only [bind_eq_ok, require_eq_ok, exists_const, checkedSub_eq_ok, pure_eq_ok] at h
  obtain ⟨_, ⟨h1, rfl⟩, -, -, _, -, _, ⟨h5, rfl⟩, _, ⟨h6, rfl⟩, h7, _, -, -, rfl⟩ := h
  exact ⟨⟨h1, by omega⟩, rfl⟩

/-! ### Effects -/

/-- A commitment has been recorded with its amount, and the logs say so. -/
structure Records (env : Env) (w w' : World) (commitment : Bytes32) (amount : ℕ)
    (after : ℕ → List Event) : Prop where
  record : ∃ i events, recordCommitmentRoot env.poseidon2 w.pool.roots commitment =
    .ok (w'.pool.roots, i, events) ∧ w'.logs = w.logs ++ events.map .shared ++ after i
  commitments : w'.pool.commitments = Function.update w.pool.commitments commitment true
  commitmentAmounts :
    w'.pool.commitmentAmounts = Function.update w.pool.commitmentAmounts commitment amount

/-- Nothing has been recorded. -/
structure RecordsNothing (w w' : World) : Prop where
  roots : w'.pool.roots = w.pool.roots
  logs : w'.logs = w.logs
  commitments : w'.pool.commitments = w.pool.commitments
  commitmentAmounts : w'.pool.commitmentAmounts = w.pool.commitmentAmounts

structure Deposits (env : Env) (w : World) (msg : Msg) (commitment : Bytes32)
    (encryptedNote : Bytes) (w' : World) : Prop where
  checked : DepositChecked w.pool msg commitment encryptedNote
  records : Records env w w' commitment msg.value fun i =>
    .shared (.depositCommitmentInserted commitment msg.value) ::
      if encryptedNote.length ≠ 0 then
        [.shared (.depositNoteCreated commitment i encryptedNote encryptedNoteVersion)]
      else []
  nullifiers : w'.pool.nullifiers = w.pool.nullifiers
  accounting : w'.pool.accounting = { w.pool.accounting with
    totalDepositedAccounting := w.pool.accounting.totalDepositedAccounting + msg.value }
  balances : w'.balances = w.balances
  spends : w'.spends = w.spends

structure Transfers (env : Env) (verify : Verify) (w : World) (msg : Msg) (a : TransferArgs)
    (w' : World) : Prop where
  checked : TransferChecked env verify w.pool msg a
  unspent : ¬w.pool.nullifiers a.nullifier
  fresh : ¬w.pool.commitments a.newCommitment
  records : Records env w w' a.newCommitment (input a.publicInputs 9).toNat fun i =>
    .shared (.nullifierSpent a.nullifier) ::
      .shared (.privateTransferCommitmentInserted a.newCommitment a.nullifier) ::
        if a.encryptedNote.length ≠ 0 then
          [.shared (.privateTransferNoteCreated a.newCommitment a.nullifier i a.encryptedNote
            encryptedNoteVersion)]
        else []
  nullifiers : w'.pool.nullifiers = Function.update w.pool.nullifiers a.nullifier true
  accounting : w'.pool.accounting = w.pool.accounting
  balances : w'.balances = w.balances
  spends : w'.spends = w.spends ++ [a.publicInputs]

structure Withdraws (env : Env) (verify : Verify) (w : World) (msg : Msg) (a : WithdrawArgs)
    (w' : World) (p : Pending) : Prop where
  checked : WithdrawChecked env verify w.pool msg a
  liquid : LiquidityChecked w.pool.accounting a (feeOf a.grossAmount)
  whole : input a.publicInputs 2 = 0 → RecordsNothing w w'
  change : input a.publicInputs 2 ≠ 0 → Records env w w' (input a.publicInputs 2)
    ((input a.publicInputs 9).toNat - a.grossAmount.toNat) fun _ => []
  nullifiers : w'.pool.nullifiers = Function.update w.pool.nullifiers a.nullifier true
  accounting : w'.pool.accounting = { w.pool.accounting with
    accruedProtocolFees := w.pool.accounting.accruedProtocolFees + feeOf a.grossAmount
    totalWithdrawnAccounting := w.pool.accounting.totalWithdrawnAccounting +
      (a.grossAmount.toNat - feeOf a.grossAmount) }
  payable : a.grossAmount.toNat - feeOf a.grossAmount ≤ w.balances env.this
  balances : w'.balances = transfer w.balances env.this a.destination
    (a.grossAmount.toNat - feeOf a.grossAmount)
  spends : w'.spends = w.spends ++ [a.publicInputs]

/-- The fee controller has moved ether out. -/
structure Pays (env : Env) (w : World) (msg : Msg) (destination : Address) (amount : UInt256)
    (w' : World) : Prop where
  sender : msg.sender = env.feeController
  payable : amount.toNat ≤ w.balances env.this
  balances : w'.balances = transfer w.balances env.this destination amount.toNat
  logs : w'.logs = w.logs
  spends : w'.spends = w.spends

structure Sweeps (env : Env) (w : World) (msg : Msg) (destination : Address) (amount : UInt256)
    (w' : World) : Prop extends Pays env w msg destination amount w' where
  swept_le : w.pool.accounting.feeSweptAccounting + amount.toNat ≤
    w.pool.accounting.accruedProtocolFees
  pool : w'.pool = { w.pool with
    entered := true
    accounting := { w.pool.accounting with
      feeSweptAccounting := w.pool.accounting.feeSweptAccounting + amount.toNat } }

/-- What is deposited and neither withdrawn nor swept. -/
def accountedBalance (accounting : Accounting) : ℕ :=
  accounting.totalDepositedAccounting - accounting.totalWithdrawnAccounting -
    accounting.feeSweptAccounting

structure Recovers (env : Env) (w : World) (msg : Msg) (destination : Address) (amount : UInt256)
    (w' : World) : Prop extends Pays env w msg destination amount w' where
  excess : amount.toNat + accountedBalance w.pool.accounting ≤ w.balances env.this
  pool : w'.pool = { w.pool with entered := true }

structure Pauses (env : Env) (w : World) (msg : Msg) (w' : World) : Prop where
  sender : msg.sender = env.feeController
  pool : ∃ deposits internalSends feeSweeps, w'.pool = { w.pool with
    depositsPaused := deposits, internalSendsPaused := internalSends, feeSweepsPaused := feeSweeps }
  logs : ∃ e, w'.logs = w.logs ++ [e] ∧ ∀ event, e ≠ .shared event
  balances : w'.balances = w.balances
  spends : w'.spends = w.spends

/-- **The effect of an action**, and what it leaves to do. -/
inductive Effect (env : Env) (verify : Verify) (w : World) (msg : Msg) :
    Action → World → Option Pending → Prop
  | deposit {commitment encryptedNote w'} (h : Deposits env w msg commitment encryptedNote w') :
      Effect env verify w msg (.deposit commitment encryptedNote) w' none
  | privateTransfer {a w'} (h : Transfers env verify w msg a w') :
      Effect env verify w msg (.privateTransfer a) w' none
  | withdraw {a w' p} (h : Withdraws env verify w msg a w' p) :
      Effect env verify w msg (.withdraw a) w' (some p)
  | sweepFees {destination amount w' p} (h : Sweeps env w msg destination amount w') :
      Effect env verify w msg (.sweepFees destination amount) w' (some p)
  | recoverExcessBalance {destination amount w' p} (h : Recovers env w msg destination amount w') :
      Effect env verify w msg (.recoverExcessBalance destination amount) w' (some p)
  | pause {what paused w'} (h : Pauses env w msg w') :
      Effect env verify w msg (.pause what paused) w' none

/-! ### Inversion, action by action -/

theorem nonReentrantBefore_eq_ok :
    nonReentrantBefore w = .ok w' ↔
      ¬w.pool.entered ∧ w' = { w with pool := { w.pool with entered := true } } := by
  unfold nonReentrantBefore
  split_ifs with h <;> simp [h, eq_comm]

theorem send_eq_ok {destination : Address} {amount : ℕ} {text : String} :
    send env w destination amount text = .ok w' ↔ amount ≤ w.balances env.this ∧
      w' = { w with balances := transfer w.balances env.this destination amount } := by
  unfold send
  simp only [bind_eq_ok, require_eq_ok, exists_const, pure_eq_ok, eq_comm (b := w')]

theorem guarded_eq_ok {f : World → Result (World × Pending)} {p : Option Pending} :
    guarded f w = .ok (w', p) ↔ ¬w.pool.entered ∧ ∃ pending,
      f { w with pool := { w.pool with entered := true } } = .ok (w', pending) ∧
        p = some pending := by
  unfold guarded
  simp only [bind_eq_ok, nonReentrantBefore_eq_ok, pure_eq_ok, Prod.mk.injEq]
  constructor
  · rintro ⟨_, ⟨h1, rfl⟩, ⟨w₁, pending⟩, h2, rfl, rfl⟩
    exact ⟨h1, pending, h2, rfl⟩
  · rintro ⟨h1, pending, h2, rfl⟩
    exact ⟨_, ⟨h1, rfl⟩, (w', pending), h2, rfl, rfl⟩

theorem deposits_of_ok {commitment : Bytes32} {encryptedNote : Bytes}
    (h : deposit env w msg commitment encryptedNote = .ok w') :
    Deposits env w msg commitment encryptedNote w' := by
  unfold deposit at h
  simp only [bind_eq_ok, checkDeposit_eq_ok, exists_const, checkedAdd_eq_ok, pure_eq_ok] at h
  obtain ⟨hc, _, ⟨-, rfl⟩, ⟨roots, i, events⟩, hr, rfl⟩ := h
  exact ⟨hc, ⟨⟨i, events, hr, rfl⟩, rfl, rfl⟩, rfl, rfl, rfl, rfl⟩

theorem transfers_of_ok {a : TransferArgs} (h : privateTransfer env verify w msg a = .ok w') :
    Transfers env verify w msg a w' := by
  unfold privateTransfer at h
  simp only [bind_eq_ok, checkPrivateTransfer_eq_ok, require_eq_ok, exists_const, pure_eq_ok] at h
  obtain ⟨_, ⟨hc, rfl⟩, hn, hf, ⟨roots, i, events⟩, hr, rfl⟩ := h
  exact ⟨hc, hn, hf, ⟨⟨i, events, hr, rfl⟩, rfl, rfl⟩, rfl, rfl, rfl, rfl⟩

/-- The checks do not read the state of the guard. -/
theorem withdrawChecked_unguard {a : WithdrawArgs} {b : Bool}
    (h : WithdrawChecked env verify { s with entered := b } msg a) :
    WithdrawChecked env verify s msg a :=
  { h with spend := { h.spend with } }

theorem recordChange_eq_ok {s' : Storage} {changeCommitment : Bytes32}
    {noteAmount grossAmount i : ℕ} {events : List Pool.Interface.Event} :
    recordChange env s changeCommitment noteAmount grossAmount = .ok (s', i, events) ↔
      (changeCommitment = 0 ∧ s' = s ∧ i = 0 ∧ events = []) ∨
      changeCommitment ≠ 0 ∧ grossAmount ≤ noteAmount ∧
        ∃ roots, recordCommitmentRoot env.poseidon2 s.roots changeCommitment =
          .ok (roots, i, events) ∧ s' = { s with
            commitments := Function.update s.commitments changeCommitment true
            commitmentAmounts :=
              Function.update s.commitmentAmounts changeCommitment (noteAmount - grossAmount)
            roots } := by
  unfold recordChange
  split_ifs with h
  · simp only [Except.ok.injEq, Prod.mk.injEq, h, true_and, ne_eq, not_true_eq_false, false_and,
      or_false, eq_comm (a := s), eq_comm (a := 0), eq_comm (a := [])]
  · simp only [bind_eq_ok, checkedSub_eq_ok, pure_eq_ok, Prod.mk.injEq, h, false_and, false_or,
      ne_eq, not_false_eq_true, true_and]
    constructor
    · rintro ⟨_, ⟨h1, rfl⟩, ⟨roots, j, es⟩, hr, rfl, rfl, rfl⟩
      exact ⟨h1, roots, hr, rfl⟩
    · rintro ⟨h1, roots, hr, rfl⟩
      exact ⟨_, ⟨h1, rfl⟩, (roots, i, events), hr, rfl, rfl, rfl⟩

theorem withdraws_of_ok {a : WithdrawArgs} {b : Bool} {p : Pending}
    (h : withdraw env verify { w with pool := { w.pool with entered := b } } msg a = .ok (w', p)) :
    Withdraws env verify w msg a w' p := by
  unfold withdraw at h
  simp only [bind_eq_ok, pure_eq_ok, Prod.mk.injEq] at h
  obtain ⟨⟨fee, changeCommitment, noteAmount⟩, hcheck, netAmount, hliquid, _, ha, _, ht,
    ⟨s₁, i, events⟩, hr, _, hs, rfl, rfl⟩ := h
  obtain ⟨hc, rfl, rfl, rfl⟩ := checkWithdraw_eq_ok.mp hcheck
  obtain ⟨hl, rfl⟩ := liquidityChecked_of_ok hliquid
  obtain ⟨-, rfl⟩ := checkedAdd_eq_ok.mp ha
  obtain ⟨-, rfl⟩ := checkedAdd_eq_ok.mp ht
  obtain ⟨hpay, rfl⟩ := send_eq_ok.mp hs
  have hchecked := withdrawChecked_unguard hc
  rcases recordChange_eq_ok.mp hr with ⟨hzero, rfl, rfl, rfl⟩ | ⟨hne, -, roots, hrecord, rfl⟩
  · refine ⟨hchecked, hl, fun _ => ⟨rfl, ?_, rfl, rfl⟩, fun hne => absurd hzero hne, rfl, rfl, hpay,
      rfl, rfl⟩
    rw [List.map_nil, List.append_nil]
  · refine ⟨hchecked, hl, fun hzero => absurd hzero hne, fun _ => ⟨⟨i, events, hrecord, ?_⟩, rfl,
      rfl⟩, rfl, rfl, hpay, rfl, rfl⟩
    rw [List.append_nil]

theorem sweeps_of_ok {destination : Address} {amount : UInt256} {p : Pending}
    (h : sweepFees env { w with pool := { w.pool with entered := true } } msg destination amount =
      .ok (w', p)) : Sweeps env w msg destination amount w' := by
  unfold sweepFees at h
  simp only [bind_eq_ok, require_eq_ok, exists_const, checkedAdd_eq_ok, send_eq_ok, pure_eq_ok,
    Prod.mk.injEq] at h
  obtain ⟨h1, -, -, -, _, ⟨-, rfl⟩, h2, _, ⟨h3, rfl⟩, rfl, rfl⟩ := h
  exact ⟨⟨h1, h3, rfl, rfl, rfl⟩, h2, rfl⟩

theorem recovers_of_ok {destination : Address} {amount : UInt256} {p : Pending}
    (h : recoverExcessBalance env { w with pool := { w.pool with entered := true } } msg destination
      amount = .ok (w', p)) : Recovers env w msg destination amount w' := by
  unfold recoverExcessBalance at h
  simp only [bind_eq_ok, require_eq_ok, exists_const, checkedSub_eq_ok, send_eq_ok, pure_eq_ok,
    Prod.mk.injEq] at h
  obtain ⟨h1, -, -, -, _, ⟨-, rfl⟩, _, ⟨-, rfl⟩, -, _, ⟨h2, rfl⟩, h3, _, ⟨h4, rfl⟩, rfl, rfl⟩ := h
  refine ⟨⟨h1, h4, rfl, rfl, rfl⟩, ?_, rfl⟩
  unfold accountedBalance
  omega

theorem pauses_of_ok {what : Pause} {paused : Bool}
    (h : setPaused env w msg what paused = .ok w') : Pauses env w msg w' := by
  unfold setPaused at h
  simp only [bind_eq_ok, require_eq_ok, exists_const, pure_eq_ok] at h
  obtain ⟨h1, rfl⟩ := h
  cases what with
  | deposits => exact ⟨h1, ⟨_, _, _, rfl⟩, ⟨_, rfl, fun _ => nofun⟩, rfl, rfl⟩
  | internalSends => exact ⟨h1, ⟨_, _, _, rfl⟩, ⟨_, rfl, fun _ => nofun⟩, rfl, rfl⟩
  | feeSweeps => exact ⟨h1, ⟨_, _, _, rfl⟩, ⟨_, rfl, fun _ => nofun⟩, rfl, rfl⟩

theorem effect_of_run {action : Action} {p : Option Pending}
    (h : runAction env verify w msg action = .ok (w', p)) : Effect env verify w msg action w' p := by
  cases action with
  | rejected text => cases h
  | deposit commitment encryptedNote =>
    obtain ⟨_, hd, h⟩ := bind_eq_ok.mp h
    obtain ⟨rfl, rfl⟩ := Prod.mk.inj (pure_eq_ok.mp h)
    exact .deposit (deposits_of_ok hd)
  | privateTransfer a =>
    obtain ⟨_, ht, h⟩ := bind_eq_ok.mp h
    obtain ⟨rfl, rfl⟩ := Prod.mk.inj (pure_eq_ok.mp h)
    exact .privateTransfer (transfers_of_ok ht)
  | withdraw a =>
    obtain ⟨-, pending, hw, rfl⟩ := guarded_eq_ok.mp h
    exact .withdraw (withdraws_of_ok hw)
  | sweepFees destination amount =>
    obtain ⟨-, pending, hs, rfl⟩ := guarded_eq_ok.mp h
    exact .sweepFees (sweeps_of_ok hs)
  | recoverExcessBalance destination amount =>
    obtain ⟨-, pending, hr, rfl⟩ := guarded_eq_ok.mp h
    exact .recoverExcessBalance (recovers_of_ok hr)
  | pause what paused =>
    obtain ⟨_, hp, h⟩ := bind_eq_ok.mp h
    obtain ⟨rfl, rfl⟩ := Prod.mk.inj (pure_eq_ok.mp h)
    exact .pause (pauses_of_ok hp)

theorem payIn_eq_ok : payIn env w msg = .ok w' ↔
    msg.value ≤ w.balances msg.sender ∧ w' = paidIn env w msg := by
  unfold payIn
  split_ifs with h <;> simp [h, eq_comm]

/-- **All a successful call can do.** -/
theorem exec_ok {call : Call} {p : Option Pending} (h : exec env verify w msg call = .ok (w', p)) :
    (¬call.payable → msg.value = 0) ∧
      Effect env verify (paidIn env w msg) msg call.action w' p := by
  unfold exec at h
  obtain ⟨_, hguard, h⟩ := bind_eq_ok.mp h
  obtain ⟨w₁, hpay, hrun⟩ := bind_eq_ok.mp h
  obtain ⟨-, rfl⟩ := payIn_eq_ok.mp hpay
  refine ⟨fun hp => ?_, effect_of_run hrun⟩
  unfold requirePayable at hguard
  split_ifs at hguard with hor
  exact hor.resolve_left hp

theorem paidIn_zero (h : msg.value = 0) : paidIn env w msg = w := by
  rw [paidIn, h, Pool.Effects.transfer_zero]

end Nullark.PoolV11.Effects
