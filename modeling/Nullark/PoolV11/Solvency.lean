import Nullark.PoolV11.Effects
import Nullark.Pool.Solvency

/-! # Solvency of v1.1

The balance of the pool covers what is deposited and neither withdrawn nor swept, in every
configuration of its machine and whatever the verifier answers, and what is recovered comes out of
the surplus.

* `Solvent`: the invariant.
* `solvent_exec`: one call keeps it, before the callee runs.
* `noUnderflow_exec`: in a solvent world no checked subtraction underflows.
* `solvency_v11`: all of it along runs. -/

namespace Nullark.PoolV11.Solvency

open Nullark.Lib.Outcome Nullark.Lib.Rollback Nullark.Evm.Basic
open Nullark.Pool.Interface hiding Event publicInputsLength
open Nullark.Pool.Context (Env)
open Nullark.Pool.Tree (insertMerkleLeaf_error)
open Nullark.Pool.Roots.V11 (RootStorage recordCommitmentRoot)
open Nullark.Pool.Actions (Accounting Msg Verify input transfer TransferArgs requireRelayerPolicy)
open Nullark.Pool.Calls (Answers)
open Nullark.Pool.Errors (Avoids avoids_bind avoids_require avoids_checkedSub avoids_pure)
open Nullark.Pool.Solvency (transfer_target transfer_source_le)
open Nullark.Pool.Effects (plainEnv)
open Nullark.PoolV11.Actions Nullark.PoolV11.Calls Nullark.PoolV11.Effects

/-- **The pool is solvent.** What has been deposited covers what has been withdrawn and the fees,
the fees cover what has been swept, and the balance covers the rest. -/
structure Solvent (env : Env) (w : World) : Prop where
  covered : w.pool.accounting.totalWithdrawnAccounting + w.pool.accounting.accruedProtocolFees ≤
    w.pool.accounting.totalDepositedAccounting
  swept_le : w.pool.accounting.feeSweptAccounting ≤ w.pool.accounting.accruedProtocolFees
  backed : accountedBalance w.pool.accounting ≤ w.balances env.this

variable {env : Env} {verify : Verify} {w w' : World} {msg : Msg}

theorem feeOf_le (grossAmount : UInt256) : feeOf grossAmount ≤ grossAmount.toNat := by
  unfold feeOf
  refine Nat.div_le_of_le_mul ?_
  rw [mul_comm bpsDenominator]
  exact Nat.mul_le_mul_left _ (by decide)

/-! ### One action -/

/-- The same accounting and no less ether. -/
theorem Solvent.of_le (h : Solvent env w) (hacc : w'.pool.accounting = w.pool.accounting)
    (hle : w.balances env.this ≤ w'.balances env.this) : Solvent env w' := by
  obtain ⟨hcov, hswept, hback⟩ := h
  exact ⟨by rw [hacc]; exact hcov, by rw [hacc]; exact hswept, by rw [hacc]; exact hback.trans hle⟩

theorem paidIn_this (h : msg.sender ≠ env.this) :
    (paidIn env w msg).balances env.this = w.balances env.this + msg.value := transfer_target h

theorem Solvent.paidIn (h : Solvent env w) (hsender : msg.sender ≠ env.this) :
    Solvent env (paidIn env w msg) := by
  refine h.of_le rfl ?_
  rw [paidIn_this hsender]
  exact Nat.le_add_right _ _

/-- A deposit brings the ether it accounts for. -/
theorem solvent_deposits {commitment : Bytes32} {encryptedNote : Bytes}
    (hd : Deposits env (paidIn env w msg) msg commitment encryptedNote w')
    (hsender : msg.sender ≠ env.this) (h : Solvent env w) : Solvent env w' := by
  have hbal : w'.balances env.this = w.balances env.this + msg.value := by
    rw [hd.balances]
    exact paidIn_this hsender
  have hacc : w'.pool.accounting = { w.pool.accounting with
    totalDepositedAccounting := w.pool.accounting.totalDepositedAccounting + msg.value } :=
      hd.accounting
  obtain ⟨hcov, hswept, hback⟩ := h
  unfold accountedBalance at hback
  refine ⟨?_, ?_, ?_⟩
  · rw [hacc]
    exact hcov.trans (Nat.le_add_right _ _)
  · rw [hacc]
    exact hswept
  · rw [hacc, hbal]
    unfold accountedBalance
    dsimp only
    omega

/-- A withdrawal moves its gross amount from the covered part to the fees and the withdrawn part. -/
theorem solvent_withdraws {a : WithdrawArgs} {p : Pending} (hw : Withdraws env verify w msg a w' p)
    (h : Solvent env w) : Solvent env w' := by
  have hfee := feeOf_le a.grossAmount
  have hcovered := hw.liquid.covered
  have hpay := hw.payable
  have hbal : w.balances env.this - (a.grossAmount.toNat - feeOf a.grossAmount) ≤
      w'.balances env.this := by
    rw [hw.balances]
    exact transfer_source_le
  obtain ⟨hcov, hswept, hback⟩ := h
  unfold accountedBalance at hback
  refine ⟨?_, ?_, ?_⟩
  · rw [hw.accounting]
    dsimp only
    omega
  · rw [hw.accounting]
    dsimp only
    omega
  · rw [hw.accounting]
    unfold accountedBalance
    dsimp only
    omega

theorem solvent_sweeps {destination : Address} {amount : UInt256}
    (hs : Sweeps env w msg destination amount w') (h : Solvent env w) : Solvent env w' := by
  have hle := hs.swept_le
  have hpay := hs.payable
  have hbal : w.balances env.this - amount.toNat ≤ w'.balances env.this := by
    rw [hs.balances]
    exact transfer_source_le
  obtain ⟨hcov, hswept, hback⟩ := h
  unfold accountedBalance at hback
  refine ⟨?_, ?_, ?_⟩
  · rw [hs.pool]
    exact hcov
  · rw [hs.pool]
    dsimp only
    omega
  · rw [hs.pool]
    unfold accountedBalance
    dsimp only
    omega

/-- What is recovered is not accounted for. -/
theorem solvent_recovers {destination : Address} {amount : UInt256}
    (hr : Recovers env w msg destination amount w') (h : Solvent env w) : Solvent env w' := by
  have hexcess := hr.excess
  have hbal : w.balances env.this - amount.toNat ≤ w'.balances env.this := by
    rw [hr.balances]
    exact transfer_source_le
  refine ⟨?_, ?_, ?_⟩
  · rw [hr.pool]
    exact h.covered
  · rw [hr.pool]
    exact h.swept_le
  · rw [hr.pool]
    dsimp only
    omega

/-- **One call keeps the pool solvent**, up to the moment its destination is called. -/
theorem solvent_exec {call : Call} {p : Option Pending} (h : Solvent env w)
    (hsender : msg.sender ≠ env.this) (hexec : exec env verify w msg call = .ok (w', p)) :
    Solvent env w' := by
  obtain ⟨-, heffect⟩ := exec_ok hexec
  generalize call.action = action at heffect
  cases heffect with
  | deposit hd => exact solvent_deposits hd hsender h
  | privateTransfer ht => exact (h.paidIn hsender).of_le ht.accounting (by rw [ht.balances])
  | withdraw hw => exact solvent_withdraws hw (h.paidIn hsender)
  | sweepFees hs => exact solvent_sweeps hs (h.paidIn hsender)
  | recoverExcessBalance hr => exact solvent_recovers hr (h.paidIn hsender)
  | pause hp =>
    obtain ⟨_, _, _, hpool⟩ := hp.pool
    exact (h.paidIn hsender).of_le (by rw [hpool]) (by rw [hp.balances])

theorem solvent_deployed (h : Deployed env w) : Solvent env w := by
  obtain ⟨verifier, poseidon2Address, balances, h⟩ := h
  simp only [construct, bind_eq_ok, require_eq_ok, exists_const, pure_eq_ok] at h
  obtain ⟨-, -, -, rfl⟩ := h
  exact ⟨le_rfl, le_rfl, Nat.zero_le _⟩

/-- **Every reachable configuration is solvent**, and so is every world a failing call would
restore. -/
theorem solvent_reachable {answers : Answers} {c : Config World (Option Pending)}
    (h : Reachable env answers c) : c.All (Solvent env) := by
  obtain ⟨w, hdeployed, hrun⟩ := h
  refine Run.invariant (S := pool env answers) (I := Solvent env) ?_ ?_ ?_
    ⟨solvent_deployed hdeployed, fun _ hf => absurd hf List.not_mem_nil⟩ hrun
  · intro w w' h hs
    cases hs with
    | call _ hsender hexec => exact solvent_exec h hsender hexec
    | reverted => exact h
    | others hle => exact h.of_le rfl hle
  · intro w p w' h ho
    cases ho with
    | call _ hsender hexec => exact solvent_exec h hsender hexec
    | others => exact h
  · intro w p w' h hc
    cases hc with
    | call => exact h.of_le rfl le_rfl
    | others => exact h

/-! ### Subtractions -/

theorem noUnderflow_recordCommitmentRoot (s : RootStorage) (commitment : Bytes32) :
    Avoids .underflow (recordCommitmentRoot env.poseidon2 s commitment) := by
  intro h
  unfold recordCommitmentRoot at h
  rcases bind_eq_error.mp h with h | ⟨_, -, h⟩
  · cases insertMerkleLeaf_error h
  · cases h

theorem noUnderflow_checkChange (changeCommitment : Bytes32) (noteAmount grossAmount : ℕ)
    (encryptedChangeNote : Bytes) :
    Avoids .underflow (checkChange changeCommitment noteAmount grossAmount encryptedChangeNote) := by
  unfold checkChange
  split_ifs
  · simp
  · simp only [avoids_bind, avoids_require, reduceCtorEq, false_imp_iff, true_and, avoids_checkedSub,
      true_imp_iff, require_eq_ok, avoids_pure, implies_true, and_true]
    exact fun _ hlt => hlt.le

theorem noUnderflow_checkWithdraw (s : Storage) (a : WithdrawArgs) :
    Avoids .underflow (checkWithdraw env verify s msg a) := by
  have hfresh : Avoids .underflow (requireFreshUnlessZero s (input a.publicInputs 2)) := by
    unfold requireFreshUnlessZero
    split_ifs <;> simp
  simp [checkWithdraw, requireWithdrawalPublicInputs, requirePublicInputsCommon,
    requireSpentCommitmentAmount, requireRelayerPolicy, requireStageBBindings, hfresh,
    noUnderflow_checkChange]

/-- The subtractions of a withdrawal are those `Solvent` allows. -/
theorem noUnderflow_checkLiquidity (h : Solvent env w) (a : WithdrawArgs) :
    Avoids .underflow
      (checkLiquidity w.pool.accounting (w.balances env.this) a (feeOf a.grossAmount)) := by
  have hfee := feeOf_le a.grossAmount
  obtain ⟨hcov, hswept, hback⟩ := h
  unfold accountedBalance at hback
  simp only [checkLiquidity, avoids_bind, avoids_require, avoids_checkedSub, avoids_pure,
    checkedSub_eq_ok, require_eq_ok, reduceCtorEq, false_imp_iff, true_imp_iff, true_and,
    implies_true, and_true]
  refine ⟨hfee, ?_⟩
  rintro _ ⟨-, rfl⟩ _ - _ -
  refine ⟨hswept, ?_⟩
  rintro _ ⟨-, rfl⟩
  refine ⟨by omega, ?_⟩
  rintro _ ⟨-, rfl⟩
  refine ⟨by omega, ?_⟩
  rintro _ ⟨-, rfl⟩ _ -
  omega

theorem noUnderflow_recordChange (s : Storage) {changeCommitment : Bytes32}
    {noteAmount grossAmount : ℕ} (h : grossAmount ≤ noteAmount) :
    Avoids .underflow (recordChange env s changeCommitment noteAmount grossAmount) := by
  unfold recordChange
  split_ifs
  · simp
  · simp [h, noUnderflow_recordCommitmentRoot]

theorem noUnderflow_withdraw (h : Solvent env w) (a : WithdrawArgs) :
    Avoids .underflow (withdraw env verify w msg a) := by
  unfold withdraw
  rw [avoids_bind]
  refine ⟨noUnderflow_checkWithdraw _ _, ?_⟩
  rintro ⟨fee, changeCommitment, noteAmount⟩ hc
  obtain ⟨hchecked, rfl, rfl, rfl⟩ := checkWithdraw_eq_ok.mp hc
  have hliquid := noUnderflow_checkLiquidity h a
  have hchange := fun s => @noUnderflow_recordChange env s (input a.publicInputs 2) _ _ hchecked.gross_le
  simp [hliquid, hchange, send]

/-- The surplus is what the balance exceeds. -/
theorem noUnderflow_recoverExcessBalance (h : Solvent env w) (destination : Address)
    (amount : UInt256) :
    Avoids .underflow (recoverExcessBalance env w msg destination amount) := by
  obtain ⟨hcov, hswept, -⟩ := h
  simp only [recoverExcessBalance, avoids_bind, avoids_require, avoids_checkedSub, avoids_pure,
    checkedSub_eq_ok, require_eq_ok, reduceCtorEq, false_imp_iff, true_imp_iff, true_and,
    implies_true, and_true, send]
  rintro _ - _ - _ - _ -
  refine ⟨by omega, ?_⟩
  rintro _ ⟨-, rfl⟩
  refine ⟨by omega, ?_⟩
  rintro _ ⟨-, rfl⟩ _ hlt
  exact hlt.le

theorem noUnderflow_guarded {f : World → Result (World × Pending)}
    (h : Avoids .underflow (f { w with pool := { w.pool with entered := true } })) :
    Avoids .underflow (guarded f w) := by
  unfold guarded nonReentrantBefore
  split_ifs
  · simp
  · simpa using h

/-- **No call underflows** in a solvent world. -/
theorem noUnderflow_exec (h : Solvent env w) (hsender : msg.sender ≠ env.this) (call : Call) :
    Avoids .underflow (exec env verify w msg call) := by
  have hguarded : Solvent env
      { paidIn env w msg with pool := { (paidIn env w msg).pool with entered := true } } :=
    (h.paidIn hsender).of_le rfl le_rfl
  unfold exec
  rw [avoids_bind]
  refine ⟨?_, fun _ _ => ?_⟩
  · unfold requirePayable
    split_ifs <;> simp
  rw [avoids_bind]
  refine ⟨?_, fun w₁ hw₁ => ?_⟩
  · unfold payIn
    split_ifs <;> simp
  obtain ⟨-, rfl⟩ := payIn_eq_ok.mp hw₁
  generalize call.action = action
  cases action with
  | rejected => simp [runAction]
  | deposit commitment encryptedNote =>
    simp [runAction, deposit, checkDeposit, noUnderflow_recordCommitmentRoot]
  | privateTransfer a =>
    simp [runAction, privateTransfer, checkPrivateTransfer, requirePrivateTransferPublicInputs,
      requirePublicInputsCommon, requireSpentCommitmentAmount, requireRelayerPolicy,
      requireStageBBindings, noUnderflow_recordCommitmentRoot]
  | withdraw a => exact noUnderflow_guarded (noUnderflow_withdraw hguarded a)
  | sweepFees destination amount =>
    refine noUnderflow_guarded ?_
    simp [sweepFees, send]
  | recoverExcessBalance destination amount =>
    exact noUnderflow_guarded (noUnderflow_recoverExcessBalance hguarded destination amount)
  | pause what paused => simp [runAction, setPaused]

/-! ### Runs -/

/-- **Solvency.** For every run of the pool, whatever the verifier answers, whoever calls and
re-enters, and however much ether is forced in: the current world is solvent, also inside a call
that re-enters, and so is every world a failing call would restore; no call underflows; and what is
recovered comes out of the surplus and changes no account. -/
theorem solvency_v11 (env : Env) (c : Config World (Option Pending))
    (h : Reachable env (fun _ => True) c) :
    c.All (Solvent env) ∧
      ∀ (verify : Verify) (msg : Msg) (call : Call), msg.sender ≠ env.this →
        exec env verify c.world msg call ≠ .error .underflow ∧
        ∀ destination amount w' p, call = .recoverExcessBalance destination amount →
          exec env verify c.world msg call = .ok (w', p) →
            amount.toNat ≤ c.world.balances env.this - accountedBalance c.world.pool.accounting ∧
              w'.pool.accounting = c.world.pool.accounting := by
  have hsolvent := solvent_reachable h
  refine ⟨hsolvent, fun verify msg call hsender => ⟨noUnderflow_exec hsolvent.1 hsender call, ?_⟩⟩
  rintro destination amount w' p rfl hexec
  obtain ⟨hvalue, heffect⟩ := exec_ok hexec
  rw [paidIn_zero (hvalue Bool.false_ne_true)] at heffect
  cases heffect with
  | recoverExcessBalance hr =>
    have hexcess := hr.excess
    exact ⟨by omega, by rw [hr.pool]⟩

/-! ### A recovery -/

/-- The fee controller can recover what the surplus covers. -/
theorem exec_recoverExcessBalance {destination : Address} {amount : UInt256} (h : Solvent env w)
    (hvalue : msg.value = 0) (hsender : msg.sender = env.feeController) (hguard : ¬w.pool.entered)
    (hpaused : ¬w.pool.feeSweepsPaused) (hdestination : destination ≠ 0) (hpos : amount.toNat > 0)
    (hexcess : amount.toNat + accountedBalance w.pool.accounting ≤ w.balances env.this) :
    ∃ w', exec env verify w msg (.recoverExcessBalance destination amount) =
      .ok (w', some (.recoverExcessBalance destination amount)) := by
  obtain ⟨hcov, hswept, -⟩ := h
  unfold accountedBalance at hexcess
  have hpay : payIn env w msg = .ok w :=
    payIn_eq_ok.mpr ⟨by rw [hvalue]; exact Nat.zero_le _, (paidIn_zero hvalue).symm⟩
  refine ⟨{ w with
    pool := { w.pool with entered := true }
    balances := transfer w.balances env.this destination amount.toNat }, ?_⟩
  unfold exec
  simp only [bind_eq_ok]
  refine ⟨(), if_pos (.inr hvalue), w, hpay, guarded_eq_ok.mpr ⟨hguard, _, ?_, rfl⟩⟩
  unfold recoverExcessBalance
  simp only [bind_eq_ok, require_eq_ok, exists_const, checkedSub_eq_ok, send_eq_ok, pure_eq_ok]
  exact ⟨hsender, hpaused, hdestination, hpos, _, ⟨by omega, rfl⟩, _, ⟨by omega, rfl⟩, by omega, _,
    ⟨by omega, rfl⟩, by omega, _, ⟨by omega, rfl⟩, rfl⟩

/-- The world of a deployment, its depositor holding `funds`. -/
def freshWorld (env : Env) (funds : ℕ) : World :=
  { pool :=
      { commitments := fun _ => false, commitmentAmounts := fun _ => 0
        nullifiers := fun _ => false, roots := Pool.Roots.V11.initialRoots env.poseidon2
        accounting := ⟨0, 0, 0, 0⟩, depositsPaused := false, internalSendsPaused := false
        feeSweepsPaused := false, entered := false }
    balances := fun a => if a = 1 then funds else 0
    logs := [.shared (.rootAccepted (Pool.Roots.V11.initialRoots env.poseidon2).currentRoot 0 0)]
    spends := [] }

theorem freshWorld_deployed (h : env.feeController ≠ 0) (funds : ℕ) :
    Deployed env (freshWorld env funds) := by
  refine ⟨1, 1, (freshWorld env funds).balances, ?_⟩
  unfold construct
  simp only [bind_eq_ok, require_eq_ok, exists_const, pure_eq_ok]
  exact ⟨by decide, h, by decide, rfl⟩

/-- While the destination of a recovery of forced ether runs, the pool is solvent. -/
theorem solvency_while_recovering : ∃ c, Reachable plainEnv (fun _ => True) c ∧
    c.frames.length = 1 ∧ c.All (Solvent plainEnv) := by
  have hdeployed : Deployed plainEnv (freshWorld plainEnv 0) := freshWorld_deployed (by decide) 0
  -- five wei are forced in, and three of them recovered
  have hforced : PoolStep plainEnv (fun _ => True) (freshWorld plainEnv 0)
      { freshWorld plainEnv 0 with balances := fun _ => 5 } := .others (by decide)
  have hsolvent : Solvent plainEnv { freshWorld plainEnv 0 with balances := fun _ => 5 } :=
    (solvent_deployed hdeployed).of_le rfl (by decide)
  have hrecovers : ∃ w', exec plainEnv (fun _ _ => false)
      { freshWorld plainEnv 0 with balances := fun _ => 5 } ⟨9, 0, 0⟩ (.recoverExcessBalance 2 3) =
        .ok (w', some (.recoverExcessBalance 2 3)) :=
    exec_recoverExcessBalance hsolvent rfl rfl (by decide) (by decide) (by decide) (by decide)
      (by decide)
  obtain ⟨w', hexec⟩ := hrecovers
  have hreach : Reachable plainEnv (fun _ => True) ⟨w', _⟩ := ⟨_, hdeployed,
    .tail (.single (.step hforced)) (.opens (.call trivial (by decide) hexec))⟩
  exact ⟨_, hreach, rfl, (solvency_v11 plainEnv _ hreach).1⟩

end Nullark.PoolV11.Solvency
