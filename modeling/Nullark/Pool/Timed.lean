import Nullark.Pool.Effects

/-! # The pool and the clock

The machine of the pool with the times of its blocks: the calls that a configuration makes next are
those of its time.

* `fees_exec`: a call leaves the fee alone or is one of the fee's operations.
* `settled_of_timedRun`: a fee that nothing can raise before a deadline. -/

namespace Nullark.Pool.Timed

open Nullark.Lib.Outcome Nullark.Lib.Rollback Nullark.Evm.Basic
open Nullark.Pool.Interface Nullark.Pool.Context Nullark.Pool.Fees
open Nullark.Pool.Actions Nullark.Pool.Calls Nullark.Pool.Effects

/-- The steps of one frame at a time. -/
inductive PoolStepAt (env : Env) (answers : Answers) (t : ℕ) : World → World → Prop
  | call {w w' : World} {verify : Verify} {msg : Msg} {call : Call} (hv : answers verify)
      (hsender : msg.sender ≠ env.this) (ht : msg.timestamp = t)
      (h : exec env verify w msg call = .ok (w', none)) : PoolStepAt env answers t w w'
  | reverted {w : World} {verify : Verify} {msg : Msg} {call : Call} {e : Revert}
      (hv : answers verify) (hsender : msg.sender ≠ env.this) (ht : msg.timestamp = t)
      (h : exec env verify w msg call = .error e) : PoolStepAt env answers t w w
  | others {w : World} {balances : Address → ℕ} (h : w.balances env.this ≤ balances env.this) :
      PoolStepAt env answers t w { w with balances }

/-- The frames that open at a time. -/
inductive PoolOpensAt (env : Env) (answers : Answers) (t : ℕ) :
    World → Option Pending → World → Prop
  | call {w w' : World} {verify : Verify} {msg : Msg} {call : Call} {p : Pending}
      (hv : answers verify) (hsender : msg.sender ≠ env.this) (ht : msg.timestamp = t)
      (h : exec env verify w msg call = .ok (w', some p)) : PoolOpensAt env answers t w (some p) w'
  | others {w : World} : PoolOpensAt env answers t w none w

/-- **The machine of the pool at a time.** -/
def poolAt (env : Env) (answers : Answers) (t : ℕ) : System World (Option Pending) where
  step := PoolStepAt env answers t
  opens := PoolOpensAt env answers t
  closes := PoolCloses env

variable {env : Env} {answers : Answers} {verify : Verify} {w w' : World} {msg : Msg}

/-- Its steps are those of the pool. -/
theorem step_of_stepAt {t : ℕ} {c c' : Config World (Option Pending)}
    (h : Step (poolAt env answers t) c c') : Step (pool env answers) c c' := by
  cases h with
  | step h =>
    cases h with
    | call hv hsender _ h => exact .step (.call hv hsender h)
    | reverted hv hsender _ h => exact .step (.reverted hv hsender h)
    | others h => exact .step (.others h)
  | opens h =>
    cases h with
    | call hv hsender _ h => exact .opens (.call hv hsender h)
    | others => exact .opens .others
  | closes h => exact .closes h
  | aborts => exact .aborts

/-- **A timed run is a run of the pool.** -/
theorem run_of_timedRun {a b : ℕ × Config World (Option Pending)}
    (h : TimedRun (poolAt env answers) a b) : Run (pool env answers) a.2 b.2 := by
  induction h with
  | refl => exact .refl
  | tail _ hs ih =>
    cases hs with
    | pass => exact ih
    | step hs => exact ih.tail (step_of_stepAt hs)

/-- A call leaves the fee alone, or is one of its operations. -/
theorem fees_exec {call : Call} {p : Option Pending}
    (h : exec env verify w msg call = .ok (w', p)) :
    w'.pool.fees = w.pool.fees ∨ ∃ op events,
      runFeeOp env.feeController w.pool.fees ⟨msg.sender, msg.timestamp, op⟩ =
        .ok (w'.pool.fees, events) := by
  obtain ⟨-, -, heffect⟩ := exec_ok h
  generalize call.action = action at heffect
  cases heffect with
  | deposit hd => exact .inl hd.fees
  | privateTransfer ht => exact .inl ht.fees
  | withdraw hw => exact .inl hw.fees
  | @fee op _ hf =>
    obtain ⟨events, hrun, -⟩ := hf.run
    exact .inr ⟨op, events, hrun⟩
  | sweepFees hs => exact .inl (by rw [hs.pool]; rfl)

/-- **Nothing can raise the fee before a deadline**: what is pending can only be executed later. -/
structure Settled (cap deadline : ℕ) (f : FeeStorage) : Prop where
  feeBps_le : f.feeBps ≤ cap
  lt_activation : f.pendingFeeBps ≠ 0 → deadline < f.pendingFeeActivationTime

/-- An operation before the deadline, which can only announce fees for later. -/
theorem Settled.run {cap deadline : ℕ} {f f' : FeeStorage} {c : FeeCall} {events : List Event}
    (h : Settled cap deadline f) (hle : c.timestamp ≤ deadline)
    (hdelay : deadline < c.timestamp + feeIncreaseDelay)
    (hsmall : c.timestamp + feeIncreaseDelay < 2 ^ 64)
    (hrun : runFeeOp env.feeController f c = .ok (f', events)) : Settled cap deadline f' := by
  rcases runFeeOp_cases hrun with ⟨new, hnew, -, -, rfl⟩ | ⟨new, -, -, -, -, rfl⟩ |
    ⟨-, hpending, htime, rfl⟩ | ⟨-, -, -, rfl⟩
  · exact ⟨hnew.trans h.feeBps_le, fun hne => absurd rfl hne⟩
  · refine ⟨h.feeBps_le, fun _ => ?_⟩
    change deadline < (c.timestamp + feeIncreaseDelay) % 2 ^ 64
    rwa [Nat.mod_eq_of_lt hsmall]
  · have hlater := h.lt_activation hpending
    omega
  · exact ⟨h.feeBps_le, fun hne => absurd rfl hne⟩

theorem Settled.exec {cap deadline : ℕ} {call : Call} {p : Option Pending}
    (h : Settled cap deadline w.pool.fees) (hle : msg.timestamp ≤ deadline)
    (hdelay : deadline < msg.timestamp + feeIncreaseDelay)
    (hsmall : msg.timestamp + feeIncreaseDelay < 2 ^ 64)
    (hexec : exec env verify w msg call = .ok (w', p)) : Settled cap deadline w'.pool.fees := by
  rcases fees_exec hexec with hsame | ⟨op, events, hrun⟩
  · rwa [hsame]
  · exact h.run hle hdelay hsmall hrun

/-- **The fee up to a deadline** less than the delay away. -/
theorem settled_of_timedRun {cap start deadline : ℕ} (hdelay : deadline < start + feeIncreaseDelay)
    (hsmall : start + 2 * feeIncreaseDelay ≤ 2 ^ 64) (h : Settled cap deadline w.pool.fees)
    {b : ℕ × Config World (Option Pending)}
    (hrun : TimedRun (poolAt env answers) (start, ⟨w, []⟩) b) (hb : b.1 ≤ deadline) :
    b.2.All fun w => Settled cap deadline w.pool.fees := by
  refine TimedRun.invariant (S := poolAt env answers)
    (I := fun w => Settled cap deadline w.pool.fees) ?_ ?_ ?_
    ⟨h, fun _ hf => absurd hf List.not_mem_nil⟩ hrun hb
  · intro t w w' hstart hend h hs
    cases hs with
    | call _ _ ht hexec => exact h.exec (by omega) (by omega) (by omega) hexec
    | reverted => exact h
    | others => exact h
  · intro t w p w' hstart hend h ho
    cases ho with
    | call _ _ ht hexec => exact h.exec (by omega) (by omega) (by omega) hexec
    | others => exact h
  · intro t w p w' h hc
    cases hc with
    | call => exact h
    | others => exact h

end Nullark.Pool.Timed
