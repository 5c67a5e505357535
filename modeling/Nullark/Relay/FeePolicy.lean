import Nullark.Js.Basic
import Nullark.Js.Clock
import Nullark.Pool.Timed

/-! # The fee policy of the relayer

The worker reads the fee of the pool and what is pending, and refuses to relay when the fee could
rise before the deadline of a request.

* `resolveRelayRuntimeFeePolicy_eq_ok`: the policies it makes.
* `settled_of_accepted`: a request whose policy is accepted is settled before a pending fee is.
* `fee_safe_until_deadline`: no continuation of the pool raises the fee up to the deadline. -/

namespace Nullark.Relay.FeePolicy

open Nullark.Lib.Outcome Nullark.Lib.Rollback Nullark.Evm.Basic Nullark.Js.Basic Nullark.Js.Clock
open Nullark.Pool.Interface Nullark.Pool.Context Nullark.Pool.Fees
open Nullark.Pool.Actions Nullark.Pool.Calls Nullark.Pool.Effects Nullark.Pool.Timed

/-! ### The code -/

def withdrawalFeeBps : ℕ := 33

def maxWithdrawalFeeBps : ℕ := 100

def bpsDenominator : ℕ := 10000

structure WithdrawalRelayFeePolicy where
  activeFeeBps : ℕ
  pendingFeeBps : Option ℕ
  pendingFeeActivationEpochSeconds : Option ℕ
  nowEpochSeconds : Option ℕ
  deriving DecidableEq, Repr

def calculateWithdrawalFee (grossAmount : ℕ) (feeBps : Option ℕ) : ℕ :=
  grossAmount * feeBps.getD withdrawalFeeBps / bpsDenominator

/-- A pending fee and its activation, when both are given. -/
def WithdrawalRelayFeePolicy.pending (policy : WithdrawalRelayFeePolicy) : Option (ℕ × ℕ) :=
  policy.pendingFeeBps.bind fun feeBps =>
    policy.pendingFeeActivationEpochSeconds.map fun activation => (feeBps, activation)

/-- The pending fee activates up to the deadline. -/
def activatesBeforeDeadline (policy : WithdrawalRelayFeePolicy) (deadlineEpochSeconds : Option ℤ) :
    Bool :=
  match policy.pending, deadlineEpochSeconds with
  | some (_, activation), some deadline => (activation : ℤ) ≤ deadline
  | _, _ => false

/-- The fee of the withdrawal is the one of the pending fee, which is not active yet. -/
def matchesPendingFee (policy : WithdrawalRelayFeePolicy) (grossAmount publicFee : ℕ) : Bool :=
  match policy.pending, policy.nowEpochSeconds with
  | some (feeBps, activation), some now =>
    now < activation && publicFee = calculateWithdrawalFee grossAmount (some feeBps)
  | _, _ => false

/-- **`validateWithdrawalFeePolicy`**: the errors it finds. -/
def validateWithdrawalFeePolicy (policy : WithdrawalRelayFeePolicy) (grossAmount publicFee : ℕ)
    (deadlineEpochSeconds : Option ℤ) : List String :=
  errorWhen (policy.activeFeeBps > maxWithdrawalFeeBps)
      "active fee bps is outside relayer policy bounds" ++
  errorWhen (policy.pendingFeeBps.any (· > maxWithdrawalFeeBps))
      "pending fee bps is outside relayer policy bounds" ++
  errorWhen (activatesBeforeDeadline policy deadlineEpochSeconds)
      "pending fee activates before relay deadline" ++
  errorWhen (matchesPendingFee policy grossAmount publicFee)
      "withdrawal fee matches pending fee before activation"

/-- Where a runtime takes its fee from. -/
inductive FeeSource
  | onChainFeeBps
  deriving DecidableEq, Repr

structure RelayRuntime where
  feeSource : Option FeeSource
  feePolicy : Option WithdrawalRelayFeePolicy
  deriving DecidableEq, Repr

/-- What the four calls of `readPoolFeeState` return. -/
structure FeeReads where
  feeBps : ℕ
  maxFeeBps : ℕ
  pendingFeeBps : ℕ
  pendingFeeActivationTime : ℕ

/-- A number that is not zero, or nothing. -/
def nonzero (n : ℕ) : Option ℕ := if n = 0 then none else some n

/-- **`resolveRelayRuntimeFeePolicy`**. -/
def resolveRelayRuntimeFeePolicy (runtime : RelayRuntime) (reads : FeeReads) (now : DateNow) :
    Throws RelayRuntime :=
  if runtime.feeSource ≠ some .onChainFeeBps then return runtime
  else do
    ensure (reads.maxFeeBps = 100) "v1.2 relayer requires MAX_FEE_BPS=100"
    ensure (¬(reads.feeBps > reads.maxFeeBps ∨ reads.pendingFeeBps > reads.maxFeeBps))
      "v1.2 relayer fee policy exceeds MAX_FEE_BPS"
    ensure (reads.pendingFeeBps = 0 ↔ reads.pendingFeeActivationTime = 0)
      "v1.2 relayer pending fee state is inconsistent"
    ensure (¬(reads.pendingFeeActivationTime ≠ 0 ∧
        reads.pendingFeeActivationTime ≤ now.epochSeconds))
      "v1.2 relayer pending fee is active and must be executed before relaying"
    return { runtime with feePolicy := some {
      activeFeeBps := reads.feeBps
      pendingFeeBps := nonzero reads.pendingFeeBps
      pendingFeeActivationEpochSeconds := nonzero reads.pendingFeeActivationTime
      nowEpochSeconds := some now.epochSeconds } }

/-! ### What is accepted -/

/-- **When there is no error.** -/
theorem validateWithdrawalFeePolicy_eq_nil {policy : WithdrawalRelayFeePolicy}
    {grossAmount publicFee : ℕ} {deadline : Option ℤ} :
    validateWithdrawalFeePolicy policy grossAmount publicFee deadline = [] ↔
      policy.activeFeeBps ≤ maxWithdrawalFeeBps ∧
      ¬policy.pendingFeeBps.any (· > maxWithdrawalFeeBps) ∧
      ¬activatesBeforeDeadline policy deadline ∧
      ¬matchesPendingFee policy grossAmount publicFee := by
  unfold validateWithdrawalFeePolicy
  rw [List.append_eq_nil_iff, List.append_eq_nil_iff, List.append_eq_nil_iff, errorWhen_eq_nil,
    errorWhen_eq_nil, errorWhen_eq_nil, errorWhen_eq_nil, gt_iff_lt, not_lt, and_assoc, and_assoc]

/-- **The policies the worker makes** from what it reads. -/
theorem resolveRelayRuntimeFeePolicy_eq_ok {runtime runtime' : RelayRuntime} {reads : FeeReads}
    {now : DateNow} (hsource : runtime.feeSource = some .onChainFeeBps)
    (h : resolveRelayRuntimeFeePolicy runtime reads now = .ok runtime') :
    (reads.pendingFeeBps = 0 ↔ reads.pendingFeeActivationTime = 0) ∧
      runtime'.feePolicy = some {
        activeFeeBps := reads.feeBps
        pendingFeeBps := nonzero reads.pendingFeeBps
        pendingFeeActivationEpochSeconds := nonzero reads.pendingFeeActivationTime
        nowEpochSeconds := some now.epochSeconds } := by
  unfold resolveRelayRuntimeFeePolicy at h
  rw [if_neg (not_not.mpr hsource)] at h
  simp only [bind_eq_ok, ensure_eq_ok, pure_eq_ok, exists_const] at h
  obtain ⟨-, -, hpending, -, rfl⟩ := h
  exact ⟨hpending, rfl⟩

/-- What the worker reads of a pool. -/
def observe (f : FeeStorage) : FeeReads where
  feeBps := f.feeBps
  maxFeeBps := maxFeeBps
  pendingFeeBps := f.pendingFeeBps
  pendingFeeActivationTime := f.pendingFeeActivationTime

/-- **An accepted request** ends before a pending fee can be executed. -/
theorem settled_of_accepted {runtime runtime' : RelayRuntime} {f : FeeStorage} {now : DateNow}
    {policy : WithdrawalRelayFeePolicy} {grossAmount publicFee deadline : ℕ}
    (hsource : runtime.feeSource = some .onChainFeeBps)
    (hresolve : resolveRelayRuntimeFeePolicy runtime (observe f) now = .ok runtime')
    (hpolicy : runtime'.feePolicy = some policy)
    (hvalid : validateWithdrawalFeePolicy policy grossAmount publicFee (some deadline) = []) :
    policy.activeFeeBps = f.feeBps ∧ Settled f.feeBps deadline f := by
  obtain ⟨hpending, hmade⟩ := resolveRelayRuntimeFeePolicy_eq_ok hsource hresolve
  rw [hmade, Option.some.injEq] at hpolicy
  subst hpolicy
  refine ⟨rfl, le_rfl, fun hne => ?_⟩
  have hactivation : f.pendingFeeActivationTime ≠ 0 := fun hzero => hne (hpending.mpr hzero)
  have hlate := (validateWithdrawalFeePolicy_eq_nil.mp hvalid).2.2.1
  have hgiven : (observe f).pendingFeeBps ≠ 0 ∧ (observe f).pendingFeeActivationTime ≠ 0 :=
    ⟨hne, hactivation⟩
  simp only [activatesBeforeDeadline, WithdrawalRelayFeePolicy.pending, nonzero, if_neg hgiven.1,
    if_neg hgiven.2, Option.bind_some, Option.map_some, decide_eq_true_eq, not_le,
    Nat.cast_lt] at hlate
  exact hlate

/-- **The fee cannot rise before the deadline.** When the worker has read the fee of a pool and
accepts a request whose deadline is less than the delay away, every continuation of the pool has, at
every time up to the deadline, a fee that is not above the one that was read. -/
theorem fee_safe_until_deadline {env : Env} {answers : Answers} {w : World}
    {runtime runtime' : RelayRuntime} {now : DateNow} {policy : WithdrawalRelayFeePolicy}
    {grossAmount publicFee : ℕ} {deadline : ℤ}
    (hsource : runtime.feeSource = some .onChainFeeBps)
    (hresolve : resolveRelayRuntimeFeePolicy runtime (observe w.pool.fees) now = .ok runtime')
    (hpolicy : runtime'.feePolicy = some policy)
    (hvalid : validateWithdrawalFeePolicy policy grossAmount publicFee (some deadline) = [])
    (hdelay : deadline < now.epochSeconds + feeIncreaseDelay)
    {time : ℕ} {c : Config World (Option Pending)}
    (hrun : TimedRun (poolAt env answers) (now.epochSeconds, ⟨w, []⟩) (time, c))
    (htime : (time : ℤ) ≤ deadline) : c.world.pool.fees.feeBps ≤ policy.activeFeeBps := by
  obtain ⟨d, rfl⟩ : ∃ d : ℕ, deadline = d := Int.eq_ofNat_of_zero_le (by omega)
  obtain ⟨hactive, hsettled⟩ := settled_of_accepted hsource hresolve hpolicy hvalid
  have hseconds := now.epochSeconds_le
  have hsmall : now.epochSeconds + 2 * feeIncreaseDelay ≤ 2 ^ 64 := by
    have hlarge : maxTimeValue + 2 * feeIncreaseDelay ≤ 2 ^ 64 := by decide
    omega
  rw [hactive]
  exact (settled_of_timedRun (by omega) hsmall hsettled hrun (by omega)).1.feeBps_le

/-- A pool in which a fee of 50 is pending until the time 1000. -/
def pendingWorld : World :=
  { freshWorld plainEnv 0 with pool := { (freshWorld plainEnv 0).pool with fees := ⟨33, 50, 1000⟩ } }

def pendingNow : DateNow := ⟨1000, by decide⟩

/-- What the worker makes of it at the time 1. -/
def pendingPolicy : WithdrawalRelayFeePolicy := ⟨33, some 50, some 1000, some 1⟩

/-- The controller lowers the fee at the time 300. -/
def loweredWorld : World :=
  settle pendingWorld (exec plainEnv (fun _ _ => true) pendingWorld ⟨9, 0, 300⟩ (.fee (.setFeeBps 20)))

/-- At the time 600 it announces a fee of 60. -/
def announcedWorld : World :=
  settle loweredWorld (exec plainEnv (fun _ _ => true) loweredWorld ⟨9, 0, 600⟩ (.fee (.setFeeBps 60)))

/-- The controller acts before the deadline, and the fee stays below the one that was read. -/
theorem fee_safe_until_deadline_announced :
    Run (pool plainEnv fun _ => True) ⟨pendingWorld, []⟩ ⟨announcedWorld, []⟩ ∧
      announcedWorld.pool.fees = ⟨20, 60, 600 + feeIncreaseDelay⟩ ∧
      announcedWorld.pool.fees.feeBps ≤ 33 := by
  have hresolve : resolveRelayRuntimeFeePolicy ⟨some .onChainFeeBps, none⟩
      (observe pendingWorld.pool.fees) pendingNow =
        .ok ⟨some .onChainFeeBps, some pendingPolicy⟩ := by
    change resolveRelayRuntimeFeePolicy _ ⟨33, 100, 50, 1000⟩ _ = _
    decide
  have hvalid : validateWithdrawalFeePolicy pendingPolicy 100000 330 (some 900) = [] := by decide
  have hsender : (9 : Address) ≠ plainEnv.this := by decide
  have hlowered : exec plainEnv (fun _ _ => true) pendingWorld ⟨9, 0, 300⟩ (.fee (.setFeeBps 20)) =
      .ok (loweredWorld, none) := rfl
  have hannounced : exec plainEnv (fun _ _ => true) loweredWorld ⟨9, 0, 600⟩
      (.fee (.setFeeBps 60)) = .ok (announcedWorld, none) := rfl
  have hlowers : PoolStepAt plainEnv (fun _ => True) 300 pendingWorld loweredWorld :=
    .call trivial hsender rfl hlowered
  have hannounces : PoolStepAt plainEnv (fun _ => True) 600 loweredWorld announcedWorld :=
    .call trivial hsender rfl hannounced
  have hrun : TimedRun (poolAt plainEnv fun _ => True) (pendingNow.epochSeconds, ⟨pendingWorld, []⟩)
      (900, ⟨announcedWorld, []⟩) := by
    have hfirst : TimedRun (poolAt plainEnv fun _ => True)
        (pendingNow.epochSeconds, ⟨pendingWorld, []⟩) (300, ⟨loweredWorld, []⟩) :=
      .tail (.single (.pass (by decide))) (.step (.step hlowers))
    exact ((hfirst.tail (.pass (by decide : 300 ≤ 600))).tail (.step (.step hannounces))).tail
      (.pass (by decide))
  have htime : ((900 : ℕ) : ℤ) ≤ 900 := by decide
  exact ⟨run_of_timedRun hrun, by decide,
    fee_safe_until_deadline rfl hresolve rfl hvalid (by decide) hrun htime⟩

end Nullark.Relay.FeePolicy
