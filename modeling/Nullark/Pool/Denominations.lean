import Nullark.Pool.Conservation

/-! # The amounts in the tree

A verifier that accepts only what has a witness lets only notes into the tree that are worth a
denomination or nothing.

* `leaves_reachable`: an invariant of the leaves that every insertion keeps.
* `denominated_reachable`: the notes of the leaves.
* `amount_supported`: a known note behind a leaf that is worth something is worth a denomination. -/

namespace Nullark.Pool.Denominations

open Nullark.Lib.Rollback Nullark.Evm.Basic Nullark.Pool.Interface
open Nullark.Pool.Context Nullark.Pool.Tree Nullark.Pool.Actions Nullark.Pool.Calls
open Nullark.Pool.Checks Nullark.Pool.Effects Nullark.Pool.History Nullark.Pool.Conservation
open Nullark.Circuit.Field Nullark.Circuit.Gadgets Nullark.Circuit.V12
open Nullark.Verifier.ActionRouting

variable {env : Env} {answers : Answers}

/-- **Invariants of the leaves.** What the empty list has and every call keeps, the leaves of every
configuration reached have. -/
theorem leaves_reachable {P : List Bytes32 → Prop} (hempty : P [])
    (hexec : ∀ {verify : Verify} {w w' : World} {msg : Msg} {call : Call} {p : Option Pending},
      answers verify → Tracks env w (leavesOf w) → exec env verify w msg call = .ok (w', p) →
      P (leavesOf w) → P (leavesOf w ++ leafOf call.action))
    {c : Config World (Option Pending)} (h : Reachable env answers c) : P (leavesOf c.world) := by
  obtain ⟨w, hdeployed, hrun⟩ := h
  have hcall : ∀ {verify : Verify} {w w' : World} {msg : Msg} {call : Call} {p : Option Pending},
      answers verify → exec env verify w msg call = .ok (w', p) →
      Tracks env w (leavesOf w) ∧ P (leavesOf w) → Tracks env w' (leavesOf w') ∧ P (leavesOf w') := by
    rintro verify w w' msg call p hv hcall ⟨htracks, hp⟩
    have htracks' := tracks_exec htracks hcall
    rw [htracks'.leavesOf_eq]
    exact ⟨htracks', hexec hv htracks hcall hp⟩
  have hothers : ∀ {w w' : World}, Tracks env w' (leavesOf w) →
      Tracks env w (leavesOf w) ∧ P (leavesOf w) → Tracks env w' (leavesOf w') ∧ P (leavesOf w') := by
    rintro w w' htracks' ⟨-, hp⟩
    rw [htracks'.leavesOf_eq]
    exact ⟨htracks', hp⟩
  have hall : c.All fun w => Tracks env w (leavesOf w) ∧ P (leavesOf w) := by
    refine Run.invariant (S := pool env answers)
      (I := fun w => Tracks env w (leavesOf w) ∧ P (leavesOf w)) ?_ ?_ ?_
      ⟨?_, fun _ hf => absurd hf List.not_mem_nil⟩ hrun
    · intro w w' h hs
      cases hs with
      | call hv _ hstep => exact hcall hv hstep h
      | reverted => exact h
      | others => exact hothers (h.1.congr rfl rfl rfl) h
    · intro w p w' h ho
      cases ho with
      | call hv _ hstep => exact hcall hv hstep h
      | others => exact h
    · intro w p w' h hc
      cases hc with
      | call => exact hothers (tracks_finish h.1 _) h
      | others => exact h
    · have htracks := tracks_deployed hdeployed
      dsimp only
      rw [htracks.leavesOf_eq]
      exact ⟨htracks, hempty⟩
  exact hall.1.2

/-! ### Denominations -/

variable {t : Templates} {K : List F → Prop} {v : Verifiers}

/-- **Every leaf has a known note that is worth a denomination or nothing.** -/
def Denominated (t : Templates) (K : List F → Prop) (leaves : List Bytes32) : Prop :=
  ∀ c ∈ leaves, ∃ n : Note, toField c = poseidonNoteCommitment t n ∧ K n.preimage ∧
    amountInDenomsOrZero n.amount

theorem amountInDenomsOrZero_of_amountInDenoms {amount : F} (h : amountInDenoms amount) :
    amountInDenomsOrZero amount :=
  amountInDenomsOrZero_iff.mpr (.inr (amountInDenoms_iff.mp h))

/-- The leaf an action inserts has one. -/
theorem denominated_leafOf (haccepts : Accepts t merkleTreeDepth K v) {w w' : World} {msg : Msg}
    {action : Action} {p : Option Pending} (htracks : Tracks env w (leavesOf w))
    (h : Effect env (verify v) w msg action w' p) : Denominated t K (leafOf action) := by
  intro c hc
  cases h with
  | @deposit _ publicInputs _ _ _ hd =>
    obtain ⟨-, -, -, -, -, -, hverified⟩ :=
      (verify_deposit_iff hd.checked.length).mp hd.checked.verified
    obtain ⟨x, hx, hk⟩ := haccepts.deposit _ _ hverified
    rw [List.mem_singleton.mp hc]
    have hamount : amountInDenomsOrZero (x.note (depositPublic publicInputs).amount).amount :=
      amountInDenomsOrZero_of_amountInDenoms hx.amountDenom
    exact ⟨x.note (depositPublic publicInputs).amount, hx.note,
      hk _ (by simp [DepositWitness.preimages]), hamount⟩
  | privateTransfer hw =>
    obtain ⟨-, x, hx, hk⟩ := transfer_witness haccepts htracks hw.checked
    rw [List.mem_singleton.mp hc]
    have hamount : amountInDenomsOrZero x.outputNote.amount :=
      amountInDenomsOrZero_of_amountInDenoms hx.outputAmountDenom
    refine ⟨x.outputNote, ?_, hk _ (by simp [PrivateTransferWitness.preimages, spendPreimages]),
      hamount⟩
    rw [← hw.checked.commitment]
    exact hx.outputNote
  | withdraw hw =>
    obtain ⟨-, -, x, hx, hk⟩ := withdraw_witness haccepts htracks hw.checked
    rw [List.mem_singleton.mp hc]
    have hamount : amountInDenomsOrZero x.outputNote.amount := hx.outputAmountDenom
    exact ⟨x.outputNote, hx.outputNote, hk _ (by simp [WithdrawWitness.preimages, spendPreimages]),
      hamount⟩
  | fee => exact absurd hc List.not_mem_nil
  | sweepFees => exact absurd hc List.not_mem_nil

/-- **The notes of the pool** are worth a denomination or nothing. -/
theorem denominated_reachable (haccepts : Accepts t merkleTreeDepth K v)
    {c : Config World (Option Pending)} (h : Reachable env (· = verify v) c) :
    Denominated t K (leavesOf c.world) := by
  refine leaves_reachable (P := Denominated t K) (fun _ hc => absurd hc List.not_mem_nil) ?_ h
  intro verify w w' msg call p hv htracks hexec hp x hx
  subst hv
  obtain ⟨-, -, heffect⟩ := exec_ok hexec
  have hpaid : Tracks env (paidIn env w msg) (leavesOf (paidIn env w msg)) := by
    have : Tracks env (paidIn env w msg) (leavesOf w) := htracks.congr rfl rfl rfl
    rwa [this.leavesOf_eq]
  rcases List.mem_append.mp hx with hx | hx
  · exact hp x hx
  · exact denominated_leafOf haccepts hpaid heffect x hx

/-- **A note of the pool that is worth something is worth a denomination.** -/
theorem amount_supported (hknown : Known env t K) {leaves : List Bytes32}
    (h : Denominated t K leaves) {c : Bytes32} (hc : c ∈ leaves) {n : Note}
    (hopen : toField c = poseidonNoteCommitment t n) (hk : K n.preimage) (hne : n.amount ≠ 0) :
    amountInDenoms n.amount := by
  obtain ⟨n', hopen', hk', hamount⟩ := h c hc
  have hnn : n = n' := note_unique hknown hk hk' (hopen.symm.trans hopen')
  rcases amountInDenomsOrZero_iff.mp (hnn ▸ hamount) with hzero | hd
  · exact absurd hzero hne
  · exact amountInDenoms_iff.mpr hd

end Nullark.Pool.Denominations
