import Nullark.Pool.Effects

/-! # Where a call can fail

`Avoids e r`: the computation `r` does not end in the error `e`. The errors of `checkLiquidity`
come from nowhere else in the pool, so `avoids_exec` reduces them to that one function. -/

namespace Nullark.Pool.Errors

open Nullark.Lib.Outcome Nullark.Evm.Basic
open Nullark.Pool.Interface Nullark.Pool.Context Nullark.Pool.Fees Nullark.Pool.Roots
open Nullark.Pool.Actions Nullark.Pool.Calls Nullark.Pool.Checks Nullark.Pool.Effects

/-- The computation does not end in the error `e`. -/
def Avoids {α : Type} (e : Revert) (r : Result α) : Prop := r ≠ .error e

section Avoids
variable {α β : Type} {e : Revert}

@[simp] theorem avoids_ok (a : α) : Avoids e (.ok a : Result α) := nofun

@[simp] theorem avoids_pure (a : α) : Avoids e (pure a : Result α) := nofun

@[simp] theorem avoids_error {e' : Revert} : Avoids e (.error e' : Result α) ↔ e' ≠ e := by
  simp [Avoids]

@[simp] theorem avoids_bind {x : Result α} {f : α → Result β} :
    Avoids e (x >>= f) ↔ Avoids e x ∧ ∀ a, x = .ok a → Avoids e (f a) := by
  unfold Avoids
  rw [Ne, bind_eq_error, not_or]
  simp

@[simp] theorem avoids_map {x : Result α} {f : α → β} : Avoids e (f <$> x) ↔ Avoids e x := by
  rcases x with e' | a
  · simp [Avoids, Functor.map, Except.map]
  · exact ⟨fun _ => nofun, fun _ => nofun⟩

@[simp] theorem avoids_require {p : Prop} [Decidable p] {text : String} :
    Avoids e (require p text) ↔ (e = .reason text → p) := by
  unfold require
  split_ifs with h
  · simp [h]
  · simp [h, eq_comm]

@[simp] theorem avoids_checkedAdd {a b : ℕ} :
    Avoids e (checkedAdd a b) ↔ (e = .overflow → a + b < wordSize) := by
  unfold checkedAdd
  split_ifs with h <;> simp [h, eq_comm]

@[simp] theorem avoids_checkedMul {a b : ℕ} :
    Avoids e (checkedMul a b) ↔ (e = .overflow → a * b < wordSize) := by
  unfold checkedMul
  split_ifs with h <;> simp [h, eq_comm]

@[simp] theorem avoids_checkedSub {a b : ℕ} :
    Avoids e (checkedSub a b) ↔ (e = .underflow → b ≤ a) := by
  unfold checkedSub
  split_ifs with h <;> simp [h, eq_comm]

end Avoids

/-- **The errors of `checkLiquidity`** that no other check makes. -/
def OfLiquidity (e : Revert) : Prop :=
  e = .underflow ∨ e = .reason "insufficient accounting liquidity" ∨
    e = .reason "insufficient pool liquidity"

variable {env : Env} {verify : Verify} {w : World} {msg : Msg} {e : Revert}

theorem avoids_recordCommitmentRoot {poseidon2 : Bytes32 → Bytes32 → Bytes32} {s : RootStorage}
    {commitment : Bytes32} (he : OfLiquidity e) :
    Avoids e (recordCommitmentRoot poseidon2 s commitment) := by
  intro h
  have hfull := recordCommitmentRoot_error h
  subst hfull
  simp [OfLiquidity] at he

theorem avoids_runFeeOp {feeController : Address} {f : FeeStorage} {c : FeeCall}
    (he : OfLiquidity e) : Avoids e (runFeeOp feeController f c) := by
  unfold runFeeOp
  rcases he with rfl | rfl | rfl
  all_goals
    split
    · simp only [setFeeBps, avoids_bind, avoids_require]
      refine ⟨by simp, fun _ _ => ⟨by simp, fun _ _ => ?_⟩⟩
      split_ifs <;> simp
    · simp [executePendingFeeBps]
    · simp [cancelPendingFeeBps]

theorem avoids_nonReentrantBefore (he : OfLiquidity e) : Avoids e (nonReentrantBefore w) := by
  unfold nonReentrantBefore
  rcases he with rfl | rfl | rfl <;> split_ifs <;> simp

theorem avoids_checkWithdraw {s : Storage} {a : WithdrawArgs} (he : OfLiquidity e) :
    Avoids e (checkWithdraw env verify s msg a) := by
  rcases he with rfl | rfl | rfl <;>
    simp [checkWithdraw, requireWithdrawalPublicInputs, requirePublicInputsCommon,
      requireRelayerPolicy, requireWithdrawalStageBBindings, requireStageBBindings]

theorem avoids_withdraw {a : WithdrawArgs} (he : OfLiquidity e)
    (h : WithdrawChecked env verify w.pool msg a →
      Avoids e (checkLiquidity w.pool (w.balances env.this) a (feeOf w.pool a.grossAmount))) :
    Avoids e (withdraw env verify w msg a) := by
  unfold withdraw
  rw [avoids_bind]
  refine ⟨avoids_checkWithdraw he, ?_⟩
  rintro ⟨fee, outputCommitment⟩ hc
  obtain ⟨hchecked, rfl, rfl⟩ := checkWithdraw_eq_ok.mp hc
  have hliquid := h hchecked
  have hrecord : Avoids e (recordCommitmentRoot env.poseidon2 w.pool.roots
    (input a.publicInputs 2)) := avoids_recordCommitmentRoot he
  rcases he with rfl | rfl | rfl <;> simp [hliquid, hrecord, send]

theorem rejected_text {call : Call} {text : String} (h : call.action = .rejected text) :
    text = "deposit proof required" ∨ text = "bounded withdrawal required" := by
  cases call <;> simp_all [Call.action, eq_comm]

/-- **Only `checkLiquidity` can make its errors.** -/
theorem avoids_exec (he : OfLiquidity e) (call : Call)
    (h : ∀ a, call.action = .withdraw a →
      WithdrawChecked env verify (paidIn env w msg).pool msg a →
      Avoids e (checkLiquidity (paidIn env w msg).pool ((paidIn env w msg).balances env.this) a
        (feeOf (paidIn env w msg).pool a.grossAmount))) :
    Avoids e (exec env verify w msg call) := by
  unfold exec
  simp only [avoids_bind]
  refine ⟨?_, fun _ _ => ⟨?_, fun w₁ hw₁ => ?_⟩⟩
  · unfold requirePayable
    rcases he with rfl | rfl | rfl <;> split_ifs <;> simp
  · unfold payIn
    rcases he with rfl | rfl | rfl <;> split_ifs <;> simp
  obtain ⟨-, rfl⟩ := payIn_eq_ok.mp hw₁
  generalize paidIn env w msg = w₁ at h
  have hguard : Avoids e (nonReentrantBefore w₁) := avoids_nonReentrantBefore he
  cases haction : call.action with
  | rejected text =>
    rcases rejected_text haction with rfl | rfl <;> rcases he with rfl | rfl | rfl <;>
      simp [runAction]
  | deposit proof publicInputs encryptedNote selector =>
    have hrecord : ∀ (s : RootStorage) (c : Bytes32),
        Avoids e (recordCommitmentRoot env.poseidon2 s c) :=
      fun s c => avoids_recordCommitmentRoot he
    rcases he with rfl | rfl | rfl <;>
      simp [runAction, hguard, depositWithProof, checkDeposit, hrecord]
  | privateTransfer a =>
    have hrecord : ∀ (s : RootStorage) (c : Bytes32),
        Avoids e (recordCommitmentRoot env.poseidon2 s c) :=
      fun s c => avoids_recordCommitmentRoot he
    rcases he with rfl | rfl | rfl <;>
      simp [runAction, privateTransfer, checkPrivateTransfer, requirePrivateTransferPublicInputs,
        requirePublicInputsCommon, requireRelayerPolicy, requirePrivateTransferStageBBindings,
        requireStageBBindings, hrecord]
  | withdraw a =>
    simp only [runAction, avoids_bind, hguard, true_and]
    intro w₂ hw₂
    obtain ⟨-, rfl⟩ := nonReentrantBefore_eq_ok.mp hw₂
    refine ⟨avoids_withdraw he fun hc => ?_, fun _ _ => avoids_pure _⟩
    exact h a haction (withdrawChecked_unguard hc)
  | fee op => simp [runAction, avoids_runFeeOp he]
  | sweepFees destination amount =>
    rcases he with rfl | rfl | rfl <;> simp [runAction, hguard, sweepFees, send]

/-! ### The liquidity checks -/

section Liquidity
variable {s : Storage} {balance fee : ℕ} {a : WithdrawArgs}

theorem avoids_checkLiquidity_accounting
    (h : a.grossAmount.toNat ≤ s.accounting.totalDepositedAccounting -
      s.accounting.totalWithdrawnAccounting - s.accounting.accruedProtocolFees) :
    Avoids (.reason "insufficient accounting liquidity") (checkLiquidity s balance a fee) := by
  simp only [checkLiquidity, avoids_bind, avoids_require, avoids_checkedSub, avoids_pure,
    checkedSub_eq_ok, require_eq_ok, reduceCtorEq, Revert.reason.injEq, String.reduceEq,
    false_imp_iff, true_imp_iff, true_and, implies_true, and_true]
  rintro _ - _ - _ - _ - _ ⟨-, rfl⟩ _ ⟨-, rfl⟩
  exact h

theorem avoids_checkLiquidity_pool
    (h : a.grossAmount.toNat ≤
      balance - (s.accounting.accruedProtocolFees - s.accounting.feeSweptAccounting)) :
    Avoids (.reason "insufficient pool liquidity") (checkLiquidity s balance a fee) := by
  simp only [checkLiquidity, avoids_bind, avoids_require, avoids_checkedSub, avoids_pure,
    checkedSub_eq_ok, require_eq_ok, reduceCtorEq, Revert.reason.injEq, String.reduceEq,
    false_imp_iff, true_imp_iff, true_and, implies_true, and_true]
  rintro _ - _ - _ - _ ⟨-, rfl⟩ _ - _ - _ - _ ⟨-, rfl⟩
  exact h

end Liquidity

end Nullark.Pool.Errors
