import Nullark.Lib.Ordered
import Nullark.Pool.NoteLogs

/-! # What the logs say of the pool

The accepted roots, the spent nullifiers and the leaves can be read off the logs, up to what the open
withdrawals have still to announce.

* `Announced`: what the logs and the pending events say is what the storage has.
* `announced_exec`: a call keeps it so.
* `announced_reachable`: the logs of every reachable world say what its storage has. -/

namespace Nullark.Pool.Announcements

open Nullark.Lib.Outcome Nullark.Lib.Rollback Nullark.Lib.Ordered Nullark.Evm.Basic
open Nullark.Pool.Interface Nullark.Pool.Context Nullark.Pool.Tree Nullark.Pool.Roots
open Nullark.Pool.Actions Nullark.Pool.Calls Nullark.Pool.Effects Nullark.Pool.History
open Nullark.Pool.NoteLogs

/-- What an event says of a root: it is accepted or it is not. -/
def rootMark (e : Event) (r : Bytes32) : Option Bool :=
  match e with
  | .rootAccepted root _ _ => if r = root then some true else none
  | .rootExpired root => if r = root then some false else none
  | _ => none

/-- The nullifier an event says is spent. -/
def nullifierOf : Event → Option Bytes32
  | .nullifierSpent nullifier => some nullifier
  | _ => none

/-- The nullifier that is announced when a callee returns. -/
def pendingNullifier : Option Pending → Option Bytes32
  | some (.withdraw nullifier _ _ _ _ _ _ _) => some nullifier
  | _ => none

/-- **The logs say what the storage has**, together with what is pending. -/
structure Announced (env : Env) (w : World) (ps : List (Option Pending)) : Prop where
  numbered : Numbered env w ps
  count : (notes w ps).length = (leavesOf w).length
  roots : ∀ r, w.pool.roots.acceptedRoots r = (lastWrite rootMark w.logs r).getD false
  nullifiers : ∀ n, w.pool.nullifiers n ↔
    n ∈ w.logs.filterMap nullifierOf ∨ n ∈ ps.filterMap pendingNullifier

variable {env : Env} {verify : Verify} {w w' : World} {msg : Msg} {ps : List (Option Pending)}

/-! ### Roots -/

/-- Events that say nothing of a root. -/
theorem lastWrite_rootMark_append {l l' : List Event} (h : ∀ e ∈ l', ∀ r, rootMark e r = none)
    (r : Bytes32) : lastWrite rootMark (l ++ l') r = lastWrite rootMark l r := by
  rw [lastWrite_append, (lastWrite_eq_none _).mpr fun e he => h e he r, Option.none_or]

/-- **The events of a recording** say what it does to the mapping. -/
theorem rootMark_recorded {s s' : RootStorage} {commitment : Bytes32} {i : ℕ} {events : List Event}
    (h : recordCommitmentRoot env.poseidon2 s commitment = .ok (s', i, events)) (r : Bytes32) :
    s'.acceptedRoots r = (lastWrite rootMark events r).getD (s.acceptedRoots r) := by
  unfold recordCommitmentRoot at h
  rw [bind_eq_ok] at h
  obtain ⟨⟨tree, nextRoot, leafIndex⟩, -, hret⟩ := h
  simp only [pure_eq_ok, Prod.mk.injEq] at hret
  obtain ⟨rfl, -, rfl⟩ := hret
  dsimp only
  rw [lastWrite_append, lastWrite, lastWrite_nil, Option.none_or, Function.update_apply, rootMark]
  by_cases hr : r = nextRoot
  · rw [if_pos hr, if_pos hr]
    rfl
  rw [if_neg hr, if_neg hr, Option.none_or]
  split_ifs with hexpires
  · rw [lastWrite, lastWrite_nil, Option.none_or, Function.update_apply, rootMark]
    split_ifs <;> rfl
  · rfl

theorem rootMark_records {commitment : Bytes32} {after : ℕ → List Event}
    (h : ∀ r, w.pool.roots.acceptedRoots r = (lastWrite rootMark w.logs r).getD false)
    (hrecords : Records env w w' commitment after)
    (hafter : ∀ i, ∀ e ∈ after i, ∀ r, rootMark e r = none) (r : Bytes32) :
    w'.pool.roots.acceptedRoots r = (lastWrite rootMark w'.logs r).getD false := by
  obtain ⟨i, events, hrecord, hlogs⟩ := hrecords
  rw [hlogs, lastWrite_rootMark_append (hafter i), rootMark_recorded hrecord r, h r,
    lastWrite_append, Option.getD_or]

theorem nullifierOf_recorded {s s' : RootStorage} {leaves : List Bytes32} {commitment : Bytes32}
    {i : ℕ} {events : List Event} (h : Recorded env.poseidon2 s leaves)
    (hr : recordCommitmentRoot env.poseidon2 s commitment = .ok (s', i, events)) :
    events.filterMap nullifierOf = [] := by
  obtain ⟨-, -, expired, hexpired, rfl⟩ := recordCommitmentRoot_ok h hr
  rcases hexpired with rfl | ⟨r, rfl⟩ <;> rfl

/-! ### One call -/

/-- The nullifiers after a recording. -/
theorem nullifiers_records {commitment : Bytes32} {after : ℕ → List Event}
    (h : Announced env w ps) (hrecords : Records env w w' commitment after) :
    ∃ i, w'.logs.filterMap nullifierOf =
      w.logs.filterMap nullifierOf ++ (after i).filterMap nullifierOf := by
  obtain ⟨i, events, hrecord, hlogs⟩ := hrecords
  refine ⟨i, ?_⟩
  rw [hlogs, List.filterMap_append, List.filterMap_append,
    nullifierOf_recorded h.numbered.tracks.recorded hrecord, List.append_nil]

theorem announced_count {call : Call} {p : Option Pending} (h : Announced env w ps)
    (hexec : exec env verify w msg call = .ok (w', p)) :
    (notes w' (p.elim ps fun q => some q :: ps)).length = (leavesOf w').length := by
  rcases notes_exec h.numbered hexec with ⟨commitment, before, after, htracks, hold, hnew⟩ |
    ⟨htracks, hsame⟩
  · have hcount := h.count
    rw [hold, List.length_append] at hcount
    rw [hnew, htracks.leavesOf_eq, List.length_append, List.length_append, List.length_cons,
      List.length_singleton]
    omega
  · rw [hsame, htracks.leavesOf_eq, h.count]

/-- **A call keeps the logs true.** -/
theorem announced_exec {call : Call} {p : Option Pending} (h : Announced env w ps)
    (hexec : exec env verify w msg call = .ok (w', p)) :
    Announced env w' (p.elim ps fun q => some q :: ps) := by
  have hnumbered := numbered_exec h.numbered hexec
  have hcount := announced_count h hexec
  obtain ⟨-, -, heffect⟩ := exec_ok hexec
  have hpaidTracks : Tracks env (paidIn env w msg) (leavesOf w) :=
    h.numbered.tracks.congr rfl rfl rfl
  have hpaid : Announced env (paidIn env w msg) ps :=
    ⟨h.numbered.congr hpaidTracks rfl, h.count, h.roots, h.nullifiers⟩
  refine ⟨hnumbered, hcount, ?_, ?_⟩
  · generalize call.action = action at heffect
    cases heffect with
    | deposit hd =>
      refine rootMark_records hpaid.roots hd.records fun i e he r => ?_
      simp only [List.mem_cons, List.not_mem_nil, or_false] at he
      rcases he with rfl | rfl <;> rfl
    | privateTransfer ht =>
      refine rootMark_records hpaid.roots ht.records fun i e he r => ?_
      simp only [List.mem_cons, List.not_mem_nil, or_false] at he
      rcases he with rfl | rfl | rfl <;> rfl
    | withdraw hw =>
      exact rootMark_records hpaid.roots hw.records fun i e he => absurd he List.not_mem_nil
    | fee hf =>
      obtain ⟨events, hrun, hlogs⟩ := hf.run
      have hquiet : ∀ e ∈ events, ∀ r, rootMark e r = none := fun e he r => by
        have hfee := Fees.isFeeEvent_of_run hrun e he
        cases e <;> first | rfl | cases hfee
      intro r
      rw [hlogs, lastWrite_rootMark_append hquiet, hf.pool]
      exact h.roots r
    | sweepFees hs =>
      intro r
      rw [hs.logs, hs.pool]
      exact h.roots r
  · generalize haction : call.action = action at heffect
    cases heffect with
    | deposit hd =>
      obtain ⟨i, hlogs⟩ := nullifiers_records hpaid hd.records
      intro n
      rw [hlogs, hd.nullifiers]
      simpa [nullifierOf] using hpaid.nullifiers n
    | @privateTransfer a _ ht =>
      obtain ⟨i, hlogs⟩ := nullifiers_records hpaid ht.records
      intro n
      have hold := hpaid.nullifiers n
      rw [hlogs, ht.nullifiers, Function.update_apply, List.mem_append, Option.elim_none]
      have hnew : n ∈ ([.nullifierSpent a.nullifier,
          .privateTransferCommitmentInserted a.newCommitment a.nullifier,
          .privateTransferNoteCreated a.newCommitment a.nullifier i a.encryptedNote
            encryptedOutputNoteVersion] : List Event).filterMap nullifierOf ↔ n = a.nullifier := by
        simp [nullifierOf]
      rw [hnew]
      by_cases hn : n = a.nullifier
      · simp [hn]
      · rw [if_neg hn, hold]
        simp [hn]
    | @withdraw a _ p hw =>
      obtain ⟨i, hlogs⟩ := nullifiers_records hpaid hw.records
      obtain ⟨roots, i, events, netAmount, fee, -, rfl⟩ := pending_of_withdraw haction hexec
      intro n
      have hold := hpaid.nullifiers n
      have hcons : (some (Pending.withdraw a.nullifier (input a.publicInputs 2) a.destination
          a.grossAmount netAmount fee i a.encryptedOutputNote) :: ps).filterMap pendingNullifier =
            a.nullifier :: ps.filterMap pendingNullifier := rfl
      rw [hlogs, hw.nullifiers, Function.update_apply, Option.elim_some, List.filterMap_nil,
        List.append_nil, hcons, List.mem_cons]
      by_cases hn : n = a.nullifier
      · simp [hn]
      · rw [if_neg hn, hold]
        simp [hn]
    | fee hf =>
      obtain ⟨events, hrun, hlogs⟩ := hf.run
      have hquiet : events.filterMap nullifierOf = [] :=
        Fees.filterMap_feeEvents (fun e he => by cases e <;> first | rfl | cases he) hrun
      intro n
      rw [hlogs, hf.pool, List.filterMap_append, hquiet, List.append_nil]
      exact h.nullifiers n
    | sweepFees hs =>
      intro n
      rw [hs.logs, hs.pool, pending_of_sweep haction hexec]
      exact h.nullifiers n

/-- **A callee that returns** has what was pending announced. -/
theorem announced_finish {p : Pending} (h : Announced env w (some p :: ps)) :
    Announced env (finish w p) ps := by
  have htracks := tracks_finish h.numbered.tracks p
  have hleaves : leavesOf (finish w p) = leavesOf w := htracks.leavesOf_eq
  refine ⟨h.numbered.congr htracks (notes_finish _ _), ?_, fun r => ?_, fun n => ?_⟩
  · rw [notes_finish, hleaves, h.count]
  · have hquiet : ∀ e ∈ p.events, ∀ r, rootMark e r = none := by
      intro e he r
      cases p <;> simp only [Pending.events, List.mem_cons, List.not_mem_nil, or_false] at he
      · rcases he with rfl | rfl | rfl | rfl | rfl <;> rfl
      · rw [he]
        rfl
    change w.pool.roots.acceptedRoots r = (lastWrite rootMark (w.logs ++ p.events) r).getD false
    rw [lastWrite_rootMark_append hquiet, h.roots r]
  · change w.pool.nullifiers n ↔ n ∈ (w.logs ++ p.events).filterMap nullifierOf ∨ _
    rw [h.nullifiers n, List.filterMap_append, List.mem_append]
    cases p <;> simp [pendingNullifier, nullifierOf, Pending.events, or_assoc]

/-! ### Runs -/

theorem announced_deployed (h : Deployed env w) : Announced env w [] := by
  have htracks := tracks_deployed h
  have hleaves : leavesOf w = [] := htracks.leavesOf_eq
  obtain ⟨verifier, poseidon2Address, balances, hconstruct⟩ := h
  simp only [construct, bind_eq_ok, require_eq_ok, exists_const, pure_eq_ok] at hconstruct
  obtain ⟨-, -, -, rfl⟩ := hconstruct
  refine ⟨⟨hleaves ▸ htracks, List.nodup_nil, fun _ hx => absurd hx List.not_mem_nil⟩, ?_,
    fun r => ?_, fun n => ?_⟩
  · rw [hleaves]
    rfl
  · change Function.update (fun _ => false) (initialRoots env.poseidon2).currentRoot true r =
      (lastWrite rootMark [.rootAccepted (initialRoots env.poseidon2).currentRoot 0 0] r).getD false
    rw [Function.update_apply, lastWrite, lastWrite_nil, Option.none_or, rootMark]
    split_ifs <;> rfl
  · simp [nullifierOf]

/-- **The logs of a reachable world** say what its storage has, together with what is pending. -/
theorem announced_reachable {answers : Answers} {c : Config World (Option Pending)}
    (h : Reachable env answers c) : Announced env c.world (c.frames.map Frame.pending) := by
  obtain ⟨w, hdeployed, hrun⟩ := h
  let start : Config World (Option Pending) := ⟨w, []⟩
  have hbase : Nested (Announced env) start.world start.frames := announced_deployed hdeployed
  have hnested : Nested (Announced env) c.world c.frames := by
    refine Run.nested (S := pool env answers) (I := Announced env) ?_ ?_ ?_ hbase hrun
    · intro w w' ps h hs
      cases hs with
      | call _ _ hexec => exact announced_exec h hexec
      | reverted => exact h
      | @others balances =>
        have htracks : Tracks env { w with balances := balances } (leavesOf w) :=
          h.numbered.tracks.congr rfl rfl rfl
        exact ⟨h.numbered.congr htracks rfl, h.count, h.roots, h.nullifiers⟩
    · intro w p w' ps h ho
      cases ho with
      | call _ _ hexec => exact announced_exec h hexec
      | others => exact ⟨h.numbered.congr h.numbered.tracks rfl, h.count, h.roots, h.nullifiers⟩
    · intro w p w' ps h hc
      cases hc with
      | call => exact announced_finish h
      | others => exact ⟨h.numbered.congr h.numbered.tracks rfl, h.count, h.roots, h.nullifiers⟩
  exact hnested.head

end Nullark.Pool.Announcements
