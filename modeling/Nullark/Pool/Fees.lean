import Nullark.Pool.Interface

/-! # The fee and its timelock

`setFeeBps`, `executePendingFeeBps` and `cancelPendingFeeBps` on the three storage variables of the
fee. A decrease takes effect at once, an increase is announced and executed after a delay by anyone.

* `runFeeOp_cases`: all a successful operation can do.
* `FeesOk`, `Announced`: the invariant of the storage, and where a pending fee comes from.
* `fee_timelock`: in every history an increase executes an announcement that is old enough and has
  not been touched since. -/

namespace Nullark.Pool.Fees

open Nullark.Lib.Outcome Nullark.Evm.Basic Nullark.Pool.Interface

/-- **The storage of the fee.** Zero as a pending fee says that none is pending. -/
structure FeeStorage where
  feeBps : ℕ
  pendingFeeBps : ℕ
  pendingFeeActivationTime : ℕ
  deriving DecidableEq, Repr

/-- What the constructor sets. -/
def initialFees : FeeStorage := ⟨initialFeeBps, 0, 0⟩

/-- **`setFeeBps`**. The activation time is cut to 64 bits. -/
def setFeeBps (feeController sender : Address) (timestamp : ℕ) (f : FeeStorage) (newFeeBps : ℕ) :
    Result (FeeStorage × List Event) := do
  require (sender = feeController) "only fee controller"
  require (newFeeBps ≤ maxFeeBps) "fee exceeds max"
  let oldFeeBps := f.feeBps
  if newFeeBps = oldFeeBps then
    return ({ f with pendingFeeBps := 0, pendingFeeActivationTime := 0 }, [])
  else if newFeeBps < oldFeeBps then
    return (⟨newFeeBps, 0, 0⟩, [.feeBpsDecreased oldFeeBps newFeeBps])
  else do
    let activation ← checkedAdd timestamp feeIncreaseDelay
    let activationTime := activation % 2 ^ 64
    return ({ f with pendingFeeBps := newFeeBps, pendingFeeActivationTime := activationTime },
      [.feeBpsIncreaseScheduled oldFeeBps newFeeBps activationTime])

/-- **`executePendingFeeBps`**, by anyone. -/
def executePendingFeeBps (timestamp : ℕ) (f : FeeStorage) : Result (FeeStorage × List Event) := do
  let newFeeBps := f.pendingFeeBps
  require (newFeeBps ≠ 0) "no pending fee"
  require (timestamp ≥ f.pendingFeeActivationTime) "fee timelock active"
  let oldFeeBps := f.feeBps
  return (⟨newFeeBps, 0, 0⟩, [.feeBpsIncreaseExecuted oldFeeBps newFeeBps])

/-- **`cancelPendingFeeBps`**. -/
def cancelPendingFeeBps (feeController sender : Address) (f : FeeStorage) :
    Result (FeeStorage × List Event) := do
  require (sender = feeController) "only fee controller"
  let cancelledFeeBps := f.pendingFeeBps
  let cancelledActivationTime := f.pendingFeeActivationTime
  require (cancelledFeeBps ≠ 0) "no pending fee"
  return ({ f with pendingFeeBps := 0, pendingFeeActivationTime := 0 },
    [.feeBpsIncreaseCancelled cancelledFeeBps cancelledActivationTime])

inductive FeeOp
  | setFeeBps (newFeeBps : ℕ)
  | executePendingFeeBps
  | cancelPendingFeeBps
  deriving DecidableEq, Repr

/-- A fee operation, its caller and the time of its block. -/
structure FeeCall where
  sender : Address
  timestamp : ℕ
  op : FeeOp
  deriving DecidableEq, Repr

def runFeeOp (feeController : Address) (f : FeeStorage) (c : FeeCall) :
    Result (FeeStorage × List Event) :=
  match c.op with
  | .setFeeBps newFeeBps => setFeeBps feeController c.sender c.timestamp f newFeeBps
  | .executePendingFeeBps => executePendingFeeBps c.timestamp f
  | .cancelPendingFeeBps => cancelPendingFeeBps feeController c.sender f

/-- **The fee after a history of calls**, each settled before the next. -/
def feesAfter (feeController : Address) (calls : List FeeCall) : FeeStorage :=
  calls.foldl (fun f c => settle f (runFeeOp feeController f c)) initialFees

variable {feeController : Address}

/-! ### What an operation can do -/

/-- A fee set at or below the current one takes effect and drops the pending one. -/
def Lowers (feeController : Address) (f : FeeStorage) (c : FeeCall) (f' : FeeStorage) : Prop :=
  ∃ new ≤ f.feeBps, c.op = .setFeeBps new ∧ c.sender = feeController ∧ f' = ⟨new, 0, 0⟩

/-- A fee set above the current one becomes the pending one. -/
def Announces (feeController : Address) (f : FeeStorage) (c : FeeCall) (f' : FeeStorage) : Prop :=
  ∃ new > f.feeBps, new ≤ maxFeeBps ∧ c.op = .setFeeBps new ∧ c.sender = feeController ∧
    f' = ⟨f.feeBps, new, (c.timestamp + feeIncreaseDelay) % 2 ^ 64⟩

def Executes (f : FeeStorage) (c : FeeCall) (f' : FeeStorage) : Prop :=
  c.op = .executePendingFeeBps ∧ f.pendingFeeBps ≠ 0 ∧ f.pendingFeeActivationTime ≤ c.timestamp ∧
    f' = ⟨f.pendingFeeBps, 0, 0⟩

def Cancels (feeController : Address) (f : FeeStorage) (c : FeeCall) (f' : FeeStorage) : Prop :=
  c.op = .cancelPendingFeeBps ∧ c.sender = feeController ∧ f.pendingFeeBps ≠ 0 ∧
    f' = ⟨f.feeBps, 0, 0⟩

/-- **All a successful operation can do.** -/
theorem runFeeOp_cases {f f' : FeeStorage} {c : FeeCall} {events : List Event}
    (h : runFeeOp feeController f c = .ok (f', events)) :
    Lowers feeController f c f' ∨ Announces feeController f c f' ∨ Executes f c f' ∨
      Cancels feeController f c f' := by
  unfold runFeeOp at h
  split at h
  case h_1 new hop =>
    simp only [setFeeBps, bind_eq_ok, require_eq_ok, exists_const] at h
    obtain ⟨hsender, hmax, h⟩ := h
    split_ifs at h with heq hlt
    · simp only [pure_eq_ok, Prod.mk.injEq] at h
      exact .inl ⟨new, heq.le, hop, hsender, by rw [← h.1, heq]⟩
    · simp only [pure_eq_ok, Prod.mk.injEq] at h
      exact .inl ⟨new, hlt.le, hop, hsender, h.1.symm⟩
    · simp only [bind_eq_ok, checkedAdd_eq_ok, pure_eq_ok, Prod.mk.injEq] at h
      obtain ⟨activation, ⟨-, rfl⟩, hf, -⟩ := h
      exact .inr (.inl ⟨new, by omega, hmax, hop, hsender, hf.symm⟩)
  case h_2 hop =>
    simp only [executePendingFeeBps, bind_eq_ok, require_eq_ok, exists_const, pure_eq_ok,
      Prod.mk.injEq] at h
    obtain ⟨hpending, htime, hf, -⟩ := h
    exact .inr (.inr (.inl ⟨hop, hpending, htime, hf.symm⟩))
  case h_3 hop =>
    simp only [cancelPendingFeeBps, bind_eq_ok, require_eq_ok, exists_const, pure_eq_ok,
      Prod.mk.injEq] at h
    obtain ⟨hsender, hpending, hf, -⟩ := h
    exact .inr (.inr (.inr ⟨hop, hsender, hpending, hf.symm⟩))

/-- The events of the fee. -/
def isFeeEvent : Event → Bool
  | .feeBpsDecreased _ _ => true
  | .feeBpsIncreaseScheduled _ _ _ => true
  | .feeBpsIncreaseExecuted _ _ => true
  | .feeBpsIncreaseCancelled _ _ => true
  | _ => false

/-- An operation emits no other events. -/
theorem isFeeEvent_of_run {f f' : FeeStorage} {c : FeeCall} {events : List Event}
    (h : runFeeOp feeController f c = .ok (f', events)) : ∀ e ∈ events, isFeeEvent e = true := by
  unfold runFeeOp at h
  split at h
  · simp only [setFeeBps, bind_eq_ok, require_eq_ok, exists_const] at h
    obtain ⟨-, -, h⟩ := h
    split_ifs at h
    · simp only [pure_eq_ok, Prod.mk.injEq] at h
      simp [← h.2]
    · simp only [pure_eq_ok, Prod.mk.injEq] at h
      simp [← h.2, isFeeEvent]
    · simp only [bind_eq_ok, pure_eq_ok, Prod.mk.injEq] at h
      obtain ⟨_, -, -, rfl⟩ := h
      simp [isFeeEvent]
  · simp only [executePendingFeeBps, bind_eq_ok, pure_eq_ok, Prod.mk.injEq] at h
    obtain ⟨_, -, _, -, -, rfl⟩ := h
    simp [isFeeEvent]
  · simp only [cancelPendingFeeBps, bind_eq_ok, pure_eq_ok, Prod.mk.injEq] at h
    obtain ⟨_, -, _, -, -, rfl⟩ := h
    simp [isFeeEvent]

/-- What no event of the fee gives is not given by an operation. -/
theorem filterMap_feeEvents {α : Type} {g : Event → Option α}
    (hg : ∀ e, isFeeEvent e = true → g e = none) {f f' : FeeStorage} {c : FeeCall}
    {events : List Event} (h : runFeeOp feeController f c = .ok (f', events)) :
    events.filterMap g = [] :=
  List.filterMap_eq_nil_iff.mpr fun e he => hg e (isFeeEvent_of_run h e he)

/-! ### The storage -/

/-- **The invariant of the storage.** -/
structure FeesOk (f : FeeStorage) : Prop where
  feeBps_le : f.feeBps ≤ maxFeeBps
  pending_iff : f.pendingFeeBps ≠ 0 ↔ f.pendingFeeActivationTime ≠ 0
  lt_pending : f.pendingFeeBps ≠ 0 → f.feeBps < f.pendingFeeBps
  pending_le : f.pendingFeeBps ≤ maxFeeBps

theorem feesOk_settled {fee : ℕ} (h : fee ≤ maxFeeBps) : FeesOk ⟨fee, 0, 0⟩ :=
  ⟨h, by simp, by simp, Nat.zero_le _⟩

theorem feesOk_initial : FeesOk initialFees := feesOk_settled (by decide)

/-- One operation keeps the invariant, if its time plus the delay fits in 64 bits. -/
theorem FeesOk.run {f f' : FeeStorage} {c : FeeCall} {events : List Event} (h : FeesOk f)
    (hsmall : c.timestamp + feeIncreaseDelay < 2 ^ 64)
    (hrun : runFeeOp feeController f c = .ok (f', events)) : FeesOk f' := by
  rcases runFeeOp_cases hrun with ⟨new, hle, -, -, rfl⟩ | ⟨new, hlt, hmax, -, -, rfl⟩ |
    ⟨-, -, -, rfl⟩ | ⟨-, -, -, rfl⟩
  · exact feesOk_settled (hle.trans h.feeBps_le)
  · rw [Nat.mod_eq_of_lt hsmall]
    have hdelay : 0 < feeIncreaseDelay := by decide
    exact ⟨h.feeBps_le, by simp only; omega, fun _ => hlt, hmax⟩
  · exact feesOk_settled h.pending_le
  · exact feesOk_settled h.feeBps_le

/-- The part of the invariant that needs no bound on the time. -/
theorem feeBps_le_run {f f' : FeeStorage} {c : FeeCall} {events : List Event}
    (h : f.feeBps ≤ maxFeeBps ∧ f.pendingFeeBps ≤ maxFeeBps)
    (hrun : runFeeOp feeController f c = .ok (f', events)) :
    f'.feeBps ≤ maxFeeBps ∧ f'.pendingFeeBps ≤ maxFeeBps := by
  rcases runFeeOp_cases hrun with ⟨new, hle, -, -, rfl⟩ | ⟨new, -, hmax, -, -, rfl⟩ |
    ⟨-, -, -, rfl⟩ | ⟨-, -, -, rfl⟩
  · exact ⟨hle.trans h.1, Nat.zero_le _⟩
  · exact ⟨h.1, hmax⟩
  · exact ⟨h.2, Nat.zero_le _⟩
  · exact ⟨h.1, Nat.zero_le _⟩

/-! ### Histories -/

theorem feesAfter_concat (calls : List FeeCall) (c : FeeCall) :
    feesAfter feeController (calls ++ [c]) =
      settle (feesAfter feeController calls)
        (runFeeOp feeController (feesAfter feeController calls) c) := by
  simp [feesAfter, List.foldl_append]

/-- Every call of `quiet`, made after the calls of `before`, is rejected. -/
def Quiet (feeController : Address) (before quiet : List FeeCall) : Prop :=
  ∀ q c q', quiet = q ++ c :: q' →
    ∃ e, runFeeOp feeController (feesAfter feeController (before ++ q)) c = .error e

/-- **Where a pending fee comes from**: the controller has announced `new`, above the fee of the
time, at the time `t`, and every call since has been rejected. -/
def Announced (feeController : Address) (calls : List FeeCall) (new t : ℕ) : Prop :=
  ∃ past quiet, calls = past ++ ⟨feeController, t, .setFeeBps new⟩ :: quiet ∧
    (feesAfter feeController past).feeBps < new ∧
    Quiet feeController (past ++ [⟨feeController, t, .setFeeBps new⟩]) quiet

theorem Announced.concat {calls : List FeeCall} {new t : ℕ} {c : FeeCall} {e : Revert}
    (h : Announced feeController calls new t)
    (he : runFeeOp feeController (feesAfter feeController calls) c = .error e) :
    Announced feeController (calls ++ [c]) new t := by
  obtain ⟨past, quiet, rfl, hlt, hquiet⟩ := h
  refine ⟨past, quiet ++ [c], by simp, hlt, fun q c' q' hq => ?_⟩
  rcases List.eq_nil_or_concat q' with rfl | ⟨q'', x, rfl⟩
  · obtain ⟨rfl, hc⟩ := List.append_inj' hq rfl
    obtain rfl : c = c' := by simpa using hc
    exact ⟨e, by simpa using he⟩
  · rw [List.concat_eq_append, ← List.cons_append, ← List.append_assoc] at hq
    obtain ⟨hq, -⟩ := List.append_inj' hq rfl
    exact hquiet q c' q'' hq

/-- **Along a history**: the storage is sound, and a pending fee has been announced a delay before
its activation time. -/
theorem feesAfter_sound (feeController : Address) : ∀ {calls : List FeeCall},
    (∀ c ∈ calls, c.timestamp + feeIncreaseDelay < 2 ^ 64) →
    let f := feesAfter feeController calls
    FeesOk f ∧ (f.pendingFeeBps ≠ 0 → ∃ t, f.pendingFeeActivationTime = t + feeIncreaseDelay ∧
      Announced feeController calls f.pendingFeeBps t) := by
  intro calls
  induction calls using List.reverseRecOn with
  | nil => exact fun _ => ⟨feesOk_initial, fun h => absurd rfl h⟩
  | append_singleton calls c ih =>
    intro hsmall
    obtain ⟨hok, hann⟩ := ih fun c' hc' => hsmall c' (by simp [hc'])
    have hc := hsmall c (by simp)
    rw [feesAfter_concat]
    rcases hrun : runFeeOp feeController (feesAfter feeController calls) c with e | ⟨f', events⟩
    · refine ⟨hok, fun hp => ?_⟩
      obtain ⟨t, ht, h⟩ := hann hp
      exact ⟨t, ht, h.concat hrun⟩
    · refine ⟨hok.run hc hrun, fun hp => ?_⟩
      rw [settle_ok] at hp ⊢
      rcases runFeeOp_cases hrun with ⟨new, -, -, -, rfl⟩ | ⟨new, hlt, -, hop, hsender, rfl⟩ |
        ⟨-, -, -, rfl⟩ | ⟨-, -, -, rfl⟩
      · exact absurd rfl hp
      · refine ⟨c.timestamp, Nat.mod_eq_of_lt hc, calls, [], ?_, hlt, fun q c' q' hq => ?_⟩
        · rw [← hsender, ← hop]
        · simp at hq
      · exact absurd rfl hp
      · exact absurd rfl hp

/-- **An increase executes an announcement**: the call `c`, after `calls`, is the execution of a fee
that the controller announced at least the delay before, and no call between the two took effect. -/
def ExecutesAnnounced (feeController : Address) (calls : List FeeCall) (c : FeeCall) : Prop :=
  c.op = .executePendingFeeBps ∧ ∃ t, t + feeIncreaseDelay ≤ c.timestamp ∧
    Announced feeController calls (feesAfter feeController (calls ++ [c])).feeBps t

/-- One call that raises the fee. -/
theorem executesAnnounced_of_lt {calls : List FeeCall} {c : FeeCall}
    (hsmall : ∀ c ∈ calls, c.timestamp + feeIncreaseDelay < 2 ^ 64)
    (hlt : (feesAfter feeController calls).feeBps <
      (feesAfter feeController (calls ++ [c])).feeBps) :
    ExecutesAnnounced feeController calls c := by
  obtain ⟨-, hann⟩ := feesAfter_sound feeController hsmall
  unfold ExecutesAnnounced
  rw [feesAfter_concat] at hlt ⊢
  rcases hrun : runFeeOp feeController (feesAfter feeController calls) c with e | ⟨f', events⟩
  · rw [hrun, settle_error] at hlt
    exact absurd hlt (lt_irrefl _)
  · rw [hrun, settle_ok] at hlt
    rw [settle_ok]
    rcases runFeeOp_cases hrun with ⟨new, hle, -, -, rfl⟩ | ⟨new, -, -, -, -, rfl⟩ |
      ⟨hop, hp, htime, rfl⟩ | ⟨-, -, -, rfl⟩
    · exact absurd hlt (not_lt.mpr hle)
    · exact absurd hlt (lt_irrefl _)
    · obtain ⟨t, ht, h⟩ := hann hp
      exact ⟨hop, t, ht ▸ htime, h⟩
    · exact absurd hlt (lt_irrefl _)

/-- **The fee timelock.** After every history `calls` of fee operations, by any callers, whose times
plus the delay fit in 64 bits, the storage is sound; and if a continuation `more` ends with a higher
fee, one of its calls executes a fee at least as high that the controller announced at least the
delay before, no call between the announcement and the execution having taken effect. -/
theorem fee_timelock (feeController : Address) (calls more : List FeeCall)
    (hsmall : ∀ c ∈ calls ++ more, c.timestamp + feeIncreaseDelay < 2 ^ 64) :
    FeesOk (feesAfter feeController calls) ∧
      ((feesAfter feeController calls).feeBps < (feesAfter feeController (calls ++ more)).feeBps →
        ∃ m c m', more = m ++ c :: m' ∧ ExecutesAnnounced feeController (calls ++ m) c ∧
          (feesAfter feeController (calls ++ more)).feeBps ≤
            (feesAfter feeController (calls ++ m ++ [c])).feeBps) := by
  refine ⟨(feesAfter_sound feeController fun c hc => hsmall c (List.mem_append_left _ hc)).1, ?_⟩
  induction more using List.reverseRecOn with
  | nil => intro h; rw [List.append_nil] at h; exact absurd h (lt_irrefl _)
  | append_singleton more c ih =>
    intro hlt
    rw [← List.append_assoc] at hsmall hlt ⊢
    have hsmall' : ∀ c ∈ calls ++ more, c.timestamp + feeIncreaseDelay < 2 ^ 64 :=
      fun c hc => hsmall c (List.mem_append_left _ hc)
    -- the last call either raises the fee or an earlier one did
    rcases Nat.lt_or_ge (feesAfter feeController (calls ++ more)).feeBps
      (feesAfter feeController (calls ++ more ++ [c])).feeBps with hlast | hge
    · exact ⟨more, c, [], rfl, executesAnnounced_of_lt hsmall' hlast, le_rfl⟩
    · obtain ⟨m, c', m', rfl, hexec, hle⟩ := ih hsmall' (hlt.trans_le hge)
      exact ⟨m, c', m' ++ [c], by simp, hexec, hge.trans hle⟩

/-- A fee of 50 announced at time 7 and executed, by someone else, at the first time it can be. -/
theorem fee_timelock_executed :
    FeesOk (feesAfter 1 [⟨1, 7, .setFeeBps 50⟩]) ∧
      ∃ m c m', [⟨2, 259207, .executePendingFeeBps⟩] = m ++ c :: m' ∧
        ExecutesAnnounced 1 ([⟨1, 7, .setFeeBps 50⟩] ++ m) c ∧
        50 ≤ (feesAfter 1 ([⟨1, 7, .setFeeBps 50⟩] ++ m ++ [c])).feeBps :=
  have h := fee_timelock 1 [⟨1, 7, .setFeeBps 50⟩] [⟨2, 259207, .executePendingFeeBps⟩] (by decide)
  ⟨h.1, h.2 (by decide)⟩

end Nullark.Pool.Fees
