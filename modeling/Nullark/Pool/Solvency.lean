import Nullark.Pool.Errors

/-! # Solvency

The accounting of the pool is covered by its balance in every configuration of its machine, whatever
the verifier answers and whatever the destinations of its ether do.

* `Solvent`, `Sound`: the invariant.
* `sound_exec`: one call keeps it, before the callee runs.
* `noUnderflow_exec`: in a sound world no checked subtraction underflows.
* `solvency`: all of it along runs, with the rollback of what reverts. -/

namespace Nullark.Pool.Solvency

open Nullark.Lib.Outcome Nullark.Lib.Rollback Nullark.Evm.Basic
open Nullark.Pool.Interface Nullark.Pool.Context Nullark.Pool.Tree Nullark.Pool.Fees
open Nullark.Pool.Roots Nullark.Pool.Actions Nullark.Pool.Calls Nullark.Pool.Checks
open Nullark.Pool.Effects Nullark.Pool.Errors

/-- **The pool is solvent.** What has been deposited covers what has been withdrawn and the fees,
the fees cover what has been swept, and the balance covers the rest. -/
structure Solvent (env : Env) (w : World) : Prop where
  covered : w.pool.accounting.totalWithdrawnAccounting + w.pool.accounting.accruedProtocolFees ≤
    w.pool.accounting.totalDepositedAccounting
  swept_le : w.pool.accounting.feeSweptAccounting ≤ w.pool.accounting.accruedProtocolFees
  backed : w.pool.accounting.totalDepositedAccounting -
    w.pool.accounting.totalWithdrawnAccounting - w.pool.accounting.feeSweptAccounting ≤
      w.balances env.this

/-- A solvent pool whose fee, pending or not, is within its maximum. -/
structure Sound (env : Env) (w : World) : Prop where
  solvent : Solvent env w
  fees : w.pool.fees.feeBps ≤ maxFeeBps ∧ w.pool.fees.pendingFeeBps ≤ maxFeeBps

variable {env : Env} {verify : Verify} {w w' : World} {msg : Msg}

theorem feeOf_le (h : w.pool.fees.feeBps ≤ maxFeeBps) (grossAmount : UInt256) :
    feeOf w.pool grossAmount ≤ grossAmount.toNat := by
  unfold feeOf
  refine Nat.div_le_of_le_mul ?_
  rw [mul_comm bpsDenominator]
  exact Nat.mul_le_mul_left _ (h.trans (by decide))

/-! ### Moving ether -/

theorem transfer_target {balances : Address → ℕ} {source target : Address} {amount : ℕ}
    (h : source ≠ target) : transfer balances source target amount target =
      balances target + amount := by
  simp [transfer, Function.update_of_ne h.symm]

theorem transfer_source_le {balances : Address → ℕ} {source target : Address} {amount : ℕ} :
    balances source - amount ≤ transfer balances source target amount source := by
  unfold transfer
  rcases eq_or_ne source target with rfl | h
  · simp
  · simp [Function.update_of_ne h]

theorem paidIn_this (h : msg.sender ≠ env.this) :
    (paidIn env w msg).balances env.this = w.balances env.this + msg.value := transfer_target h

/-- Ether sent along, or forced in, keeps the pool sound. -/
theorem Sound.of_balance (h : Sound env w) {balances : Address → ℕ}
    (hle : w.balances env.this ≤ balances env.this) : Sound env { w with balances } :=
  ⟨{ h.solvent with backed := h.solvent.backed.trans hle }, h.fees⟩

theorem Sound.paidIn (h : Sound env w) (hsender : msg.sender ≠ env.this) :
    Sound env (paidIn env w msg) :=
  h.of_balance (by rw [transfer_target hsender]; exact Nat.le_add_right _ _)

/-! ### One action -/

theorem sound_transfers {a : TransferArgs} (ht : Transfers env verify w msg a w')
    (h : Sound env w) : Sound env w' := by
  refine ⟨⟨?_, ?_, ?_⟩, ?_⟩
  · rw [ht.accounting]; exact h.solvent.covered
  · rw [ht.accounting]; exact h.solvent.swept_le
  · rw [ht.accounting, ht.balances]; exact h.solvent.backed
  · rw [ht.fees]; exact h.fees

/-- A withdrawal moves its gross amount from the covered part to the fees and the withdrawn part. -/
theorem sound_withdraws {a : WithdrawArgs} {p : Pending} (hw : Withdraws env verify w msg a w' p)
    (h : Sound env w) : Sound env w' := by
  have hfee := feeOf_le h.fees.1 a.grossAmount
  have hliquid := hw.liquid.accounting
  have hpay := hw.payable
  have hbal : w.balances env.this - (a.grossAmount.toNat - feeOf w.pool a.grossAmount) ≤
      w'.balances env.this := by rw [hw.balances]; exact transfer_source_le
  obtain ⟨hcov, hswept, hback⟩ := h.solvent
  refine ⟨⟨?_, ?_, ?_⟩, ?_⟩
  · rw [hw.accounting]; dsimp only; omega
  · rw [hw.accounting]; dsimp only; omega
  · rw [hw.accounting]; dsimp only; omega
  · rw [hw.fees]; exact h.fees

theorem sound_sweeps {destination : Address} {amount : UInt256} {p : Pending}
    (hs : Sweeps env w msg destination amount w' p) (h : Sound env w) : Sound env w' := by
  have hle := hs.swept_le
  have hpay := hs.payable
  have hbal : w.balances env.this - amount.toNat ≤ w'.balances env.this := by
    rw [hs.balances]; exact transfer_source_le
  obtain ⟨hcov, hswept, hback⟩ := h.solvent
  refine ⟨⟨?_, ?_, ?_⟩, ?_⟩
  · rw [hs.pool]; exact hcov
  · rw [hs.pool]; dsimp only; omega
  · rw [hs.pool]; dsimp only; omega
  · rw [hs.pool]; exact h.fees

theorem sound_runsFee {op : FeeOp} (hf : RunsFee env w msg op w') (h : Sound env w) :
    Sound env w' := by
  obtain ⟨events, hrun, -⟩ := hf.run
  refine ⟨⟨?_, ?_, ?_⟩, feeBps_le_run h.fees hrun⟩
  · rw [hf.pool]; exact h.solvent.covered
  · rw [hf.pool]; exact h.solvent.swept_le
  · rw [hf.pool, hf.balances]; exact h.solvent.backed

/-- A deposit brings the ether it accounts for. -/
theorem sound_deposits {proof : Bytes} {publicInputs : List Bytes32} {encryptedNote : Bytes}
    {selector : Bytes4}
    (hd : Deposits env verify (Effects.paidIn env w msg) msg proof publicInputs encryptedNote
      selector w')
    (hsender : msg.sender ≠ env.this) (h : Sound env w) : Sound env w' := by
  have hbal : w'.balances env.this = w.balances env.this + msg.value := by
    rw [hd.balances]; exact paidIn_this hsender
  have hacc := hd.accounting
  obtain ⟨hcov, hswept, hback⟩ := h.solvent
  refine ⟨⟨?_, ?_, ?_⟩, ?_⟩
  · rw [hacc]; exact hcov.trans (Nat.le_add_right _ _)
  · rw [hacc]; exact hswept
  · rw [hacc, hbal]
    change w.pool.accounting.totalDepositedAccounting + msg.value -
      w.pool.accounting.totalWithdrawnAccounting - w.pool.accounting.feeSweptAccounting ≤ _
    omega
  · rw [hd.fees]; exact h.fees

/-- **One call keeps the pool sound**, up to the moment its destination is called. -/
theorem sound_exec {call : Call} {p : Option Pending} (h : Sound env w)
    (hsender : msg.sender ≠ env.this) (hexec : exec env verify w msg call = .ok (w', p)) :
    Sound env w' := by
  obtain ⟨-, -, heffect⟩ := exec_ok hexec
  generalize call.action = action at heffect
  cases heffect with
  | deposit hd => exact sound_deposits hd hsender h
  | privateTransfer ht => exact sound_transfers ht (h.paidIn hsender)
  | withdraw hw => exact sound_withdraws hw (h.paidIn hsender)
  | fee hf => exact sound_runsFee hf (h.paidIn hsender)
  | sweepFees hs => exact sound_sweeps hs (h.paidIn hsender)

theorem sound_deployed (h : Deployed env w) : Sound env w := by
  obtain ⟨verifier, poseidon2Address, balances, h⟩ := h
  simp only [construct, bind_eq_ok, require_eq_ok, exists_const, pure_eq_ok] at h
  obtain ⟨-, -, -, rfl⟩ := h
  have hfees : initialFees.feeBps ≤ maxFeeBps ∧ initialFees.pendingFeeBps ≤ maxFeeBps := by decide
  exact ⟨⟨le_rfl, le_rfl, Nat.zero_le _⟩, hfees⟩

/-- **Every reachable configuration is sound**, and so is every world a failing call would restore. -/
theorem sound_reachable {answers : Answers} {c : Config World (Option Pending)}
    (h : Reachable env answers c) : c.All (Sound env) := by
  obtain ⟨w, hdeployed, hrun⟩ := h
  refine Run.invariant (S := pool env answers) (I := Sound env) ?_ ?_ ?_
    ⟨sound_deployed hdeployed, fun _ hf => absurd hf List.not_mem_nil⟩ hrun
  · intro w w' h hs
    cases hs with
    | call _ hsender hexec => exact sound_exec h hsender hexec
    | reverted => exact h
    | others hle => exact h.of_balance hle
  · intro w p w' h ho
    cases ho with
    | call _ hsender hexec => exact sound_exec h hsender hexec
    | others => exact h
  · intro w p w' h hc
    cases hc with
    | call => exact ⟨⟨h.solvent.covered, h.solvent.swept_le, h.solvent.backed⟩, h.fees⟩
    | others => exact h

/-! ### Subtractions -/

/-- The fee is at most the amount, the fees swept at most the fees, and so on: the subtractions of a
withdrawal are those `Solvent` allows. -/
theorem noUnderflow_checkLiquidity (h : Sound env w) (a : WithdrawArgs) :
    Avoids .underflow
      (checkLiquidity w.pool (w.balances env.this) a (feeOf w.pool a.grossAmount)) := by
  have hfee := feeOf_le h.fees.1 a.grossAmount
  obtain ⟨hcov, hswept, hback⟩ := h.solvent
  simp only [checkLiquidity, avoids_bind, avoids_require, avoids_checkedSub, avoids_pure,
    checkedSub_eq_ok, require_eq_ok, reduceCtorEq, false_imp_iff, true_imp_iff, true_and,
    implies_true, and_true]
  refine ⟨hfee, ?_⟩
  rintro _ ⟨-, rfl⟩ _ - _ -
  refine ⟨hswept, ?_⟩
  rintro _ ⟨-, rfl⟩
  refine ⟨by omega, ?_⟩
  rintro _ ⟨-, rfl⟩
  refine ⟨by omega, ?_⟩
  rintro _ ⟨-, rfl⟩ _ -
  omega

/-- **No call underflows** in a sound world. -/
theorem noUnderflow_exec (h : Sound env w) (hsender : msg.sender ≠ env.this) (call : Call) :
    Avoids .underflow (exec env verify w msg call) :=
  avoids_exec (.inl rfl) call fun a _ _ => noUnderflow_checkLiquidity (h.paidIn hsender) a

/-! ### Runs -/

/-- **Solvency.** For every run of the pool, whatever the verifier answers, whoever calls and
re-enters, and however much ether is forced in: the current world is solvent, also inside a call
that re-enters, and so is every world a failing call would restore; no call underflows; a call that
reverts before it calls out leaves the world as it was, and one whose destination fails gives back
the configuration in which it was made, whatever happened meanwhile. -/
theorem solvency (env : Env) (c : Config World (Option Pending))
    (h : Reachable env (fun _ => True) c) :
    c.All (Solvent env) ∧
      ∀ (verify : Verify) (msg : Msg) (call : Call), msg.sender ≠ env.this →
        exec env verify c.world msg call ≠ .error .underflow ∧
        (∀ e, exec env verify c.world msg call = .error e →
          settle c.world (exec env verify c.world msg call) = c.world) ∧
        ∀ w' p c₂ c₃, exec env verify c.world msg call = .ok (w', some p) →
          RunAbove (pool env fun _ => True) c.frames.length
            ⟨w', ⟨c.world, some p⟩ :: c.frames⟩ c₂ →
          Aborts c₂ c₃ → c₃.frames.length = c.frames.length → c₃ = c := by
  have hsound := sound_reachable h
  refine ⟨⟨hsound.1.solvent, fun f hf => (hsound.2 f hf).solvent⟩, fun verify msg call hsender =>
    ⟨noUnderflow_exec hsound.1 hsender call, fun e he => by rw [he, settle_error], ?_⟩⟩
  intro w' p c₂ c₃ _ hrun habort hlen
  exact abort_restores rfl rfl hrun habort hlen

/-- After one deposit the pool is solvent. -/
theorem solvency_after_deposit : ∃ c, Reachable plainEnv (fun _ => True) c ∧
    c.world.pool.accounting.totalDepositedAccounting = 5000000000000000 ∧
    c.All (Solvent plainEnv) := by
  have hchecked : DepositChecked plainEnv (fun _ _ => true) (plainWorld 5000000000000000).pool
      plainMsg [] (plainInputs 5) [1] (plainDeposit 5).selector :=
    plainDeposit_checked (by decide) (by decide) (by decide)
  obtain ⟨w', hexec⟩ :=
    exec_deposit (by decide) (by decide) hchecked (by decide) recorded_initial (by decide)
  have hreach : Reachable plainEnv (fun _ => True) ⟨w', []⟩ :=
    ⟨_, plainWorld_deployed _, .single (.step (.call trivial (by decide) hexec))⟩
  refine ⟨_, hreach, ?_, (solvency plainEnv _ hreach).1⟩
  obtain ⟨-, -, heffect⟩ := exec_ok hexec
  cases heffect with
  | deposit hd => rw [hd.accounting]; rfl

end Nullark.Pool.Solvency
