import Nullark.Pool.History

/-! # The note events of a run

Every leaf is announced by at most one event with an encrypted note. The event of a withdrawal comes
after its external call, so the notes that are still to be announced count as well.

* `Numbered`: the announced notes and those to come stand at different leaves.
* `noteLogs_reachable`: the notes of every reachable world. -/

namespace Nullark.Pool.NoteLogs

open Nullark.Lib.Outcome Nullark.Lib.Rollback Nullark.Evm.Basic
open Nullark.Pool.Interface Nullark.Pool.Context Nullark.Pool.Tree Nullark.Pool.Roots
open Nullark.Pool.Actions Nullark.Pool.Calls Nullark.Pool.Effects Nullark.Pool.History

/-- The commitment and the leaf index of an event with a note. -/
def noteOf : Event → Option (Bytes32 × ℕ)
  | .depositNoteCreated commitment leafIndex _ _ => some (commitment, leafIndex)
  | .privateTransferNoteCreated commitment _ leafIndex _ _ => some (commitment, leafIndex)
  | .withdrawalOutputNoteCreated commitment _ leafIndex _ _ _ => some (commitment, leafIndex)
  | _ => none

/-- **The notes** that logs announce. -/
def noteLogs (logs : List Event) : List (Bytes32 × ℕ) := logs.filterMap noteOf

/-- The note that is announced when a callee returns. -/
def pendingNote : Option Pending → Option (Bytes32 × ℕ)
  | some (.withdraw _ outputCommitment _ _ _ _ outputLeafIndex _) =>
    some (outputCommitment, outputLeafIndex)
  | _ => none

/-- The notes of a world, announced and to come. -/
def notes (w : World) (ps : List (Option Pending)) : List (Bytes32 × ℕ) :=
  noteLogs w.logs ++ ps.filterMap pendingNote

/-- **The notes stand at different leaves.** -/
structure Numbered (env : Env) (w : World) (ps : List (Option Pending)) : Prop where
  tracks : Tracks env w (leavesOf w)
  nodup : ((notes w ps).map Prod.snd).Nodup
  leaf : ∀ x ∈ notes w ps, (leavesOf w)[x.2]? = some x.1

variable {env : Env} {verify : Verify} {w w' : World} {msg : Msg} {ps : List (Option Pending)}

@[simp] theorem noteLogs_append (l l' : List Event) :
    noteLogs (l ++ l') = noteLogs l ++ noteLogs l' := List.filterMap_append

/-- **A new leaf is announced**, or will be. -/
theorem Numbered.insert (h : Numbered env w ps) {commitment : Bytes32}
    (before after : List (Bytes32 × ℕ)) {ps' : List (Option Pending)}
    (htracks : Tracks env w' (leavesOf w ++ [commitment])) (hold : notes w ps = before ++ after)
    (hnew : notes w' ps' = before ++ (commitment, (leavesOf w).length) :: after) :
    Numbered env w' ps' := by
  have hleaves := htracks.leavesOf_eq
  have hlt : ∀ x ∈ before ++ after, x.2 < (leavesOf w).length := fun x hx =>
    (List.getElem?_eq_some_iff.mp (h.leaf x (hold ▸ hx))).1
  refine ⟨hleaves ▸ htracks, ?_, fun x hx => ?_⟩
  · have hnodup := h.nodup
    rw [hold] at hnodup
    rw [hnew, List.map_append, List.map_cons, List.nodup_middle, ← List.map_append,
      List.nodup_cons]
    refine ⟨fun hin => ?_, hnodup⟩
    obtain ⟨x, hx, heq⟩ := List.mem_map.mp hin
    exact absurd heq (hlt x hx).ne
  · rw [hleaves]
    rw [hnew, List.mem_append, List.mem_cons] at hx
    have hcases : x = (commitment, (leavesOf w).length) ∨ x ∈ before ++ after := by
      rcases hx with hx | rfl | hx
      · exact .inr (List.mem_append_left _ hx)
      · exact .inl rfl
      · exact .inr (List.mem_append_right _ hx)
    rcases hcases with rfl | hx
    · exact List.getElem?_concat_length
    · rw [List.getElem?_append_left (hlt x hx)]
      exact h.leaf x (hold ▸ hx)

/-- A step that leaves the tree and the note events alone. -/
theorem Numbered.congr (h : Numbered env w ps) (htracks : Tracks env w' (leavesOf w))
    {ps' : List (Option Pending)} (hnotes : notes w' ps' = notes w ps) : Numbered env w' ps' := by
  have hleaves := htracks.leavesOf_eq
  exact ⟨hleaves ▸ htracks, hnotes ▸ h.nodup, by rw [hleaves, hnotes]; exact h.leaf⟩

theorem noteLogs_recorded {leaves : List Bytes32} {roots roots' : RootStorage}
    {commitment : Bytes32} {i : ℕ} {events : List Event}
    (h : Recorded env.poseidon2 roots leaves)
    (hr : recordCommitmentRoot env.poseidon2 roots commitment = .ok (roots', i, events)) :
    i = leaves.length ∧ noteLogs events = [] := by
  obtain ⟨-, hi, expired, hexpired, rfl⟩ := recordCommitmentRoot_ok h hr
  refine ⟨hi, ?_⟩
  rcases hexpired with rfl | ⟨r, rfl⟩ <;> rfl

theorem noteLogs_feeEvents {f f' : Fees.FeeStorage} {c : Fees.FeeCall} {events : List Event}
    (h : Fees.runFeeOp env.feeController f c = .ok (f', events)) : noteLogs events = [] :=
  Fees.filterMap_feeEvents (fun e he => by cases e <;> first | rfl | cases he) h

/-- What a withdrawal leaves to do. -/
theorem pending_of_withdraw {call : Call} {a : WithdrawArgs} {p : Pending}
    (hcall : call.action = .withdraw a) (h : exec env verify w msg call = .ok (w', some p)) :
    ∃ roots i events netAmount fee, recordCommitmentRoot env.poseidon2 w.pool.roots
        (input a.publicInputs 2) = .ok (roots, i, events) ∧
      p = .withdraw a.nullifier (input a.publicInputs 2) a.destination a.grossAmount netAmount fee i
        a.encryptedOutputNote := by
  unfold exec at h
  rw [hcall] at h
  simp only [runAction, withdraw, bind_eq_ok, nonReentrantBefore_eq_ok, payIn_eq_ok, pure_eq_ok,
    Prod.mk.injEq] at h
  obtain ⟨_, -, _, ⟨-, rfl⟩, _, ⟨-, rfl⟩, ⟨w₁, pending⟩, ⟨⟨fee, outputCommitment⟩, hc, netAmount, -,
    _, -, _, -, ⟨roots, i, events⟩, hr, _, -, rfl, rfl⟩, -, hp⟩ := h
  obtain ⟨-, -, rfl⟩ := Checks.checkWithdraw_eq_ok.mp hc
  exact ⟨roots, i, events, netAmount, fee, hr, (Option.some.inj hp).symm⟩

theorem pending_of_sweep {call : Call} {destination : Address} {amount : UInt256} {p : Pending}
    (hcall : call.action = .sweepFees destination amount)
    (h : exec env verify w msg call = .ok (w', some p)) : p = .sweepFees destination amount := by
  unfold exec at h
  rw [hcall] at h
  simp only [runAction, sweepFees, bind_eq_ok, nonReentrantBefore_eq_ok, payIn_eq_ok, pure_eq_ok,
    Prod.mk.injEq] at h
  obtain ⟨_, -, _, ⟨-, rfl⟩, _, ⟨-, rfl⟩, ⟨w₁, pending⟩, ⟨_, -, _, -, _, -, _, -, _, -, _, -, -, rfl⟩,
    -, hp⟩ := h
  exact (Option.some.inj hp).symm

theorem notes_insert {env : Env} {w w' : World} {commitment : Bytes32} {after : ℕ → List Event}
    (h : Numbered env w ps) (hr : Records env w w' commitment after) :
    noteLogs w'.logs = noteLogs w.logs ++ noteLogs (after (leavesOf w).length) := by
  obtain ⟨i, events, hrecord, hlogs⟩ := hr
  obtain ⟨rfl, hquiet⟩ := noteLogs_recorded h.tracks.recorded hrecord
  rw [hlogs, noteLogs_append, noteLogs_append, hquiet, List.append_nil]

/-- **What a call does to the notes**: one joins them with a new leaf, or they stay. -/
theorem notes_exec {call : Call} {p : Option Pending} (h : Numbered env w ps)
    (hexec : exec env verify w msg call = .ok (w', p)) :
    (∃ commitment before after, Tracks env w' (leavesOf w ++ [commitment]) ∧
      notes w ps = before ++ after ∧
      notes w' (p.elim ps fun q => some q :: ps) =
        before ++ (commitment, (leavesOf w).length) :: after) ∨
    Tracks env w' (leavesOf w) ∧ notes w' (p.elim ps fun q => some q :: ps) = notes w ps := by
  obtain ⟨-, -, heffect⟩ := exec_ok hexec
  have hpaidTracks : Tracks env (paidIn env w msg) (leavesOf w) := h.tracks.congr rfl rfl rfl
  have hpaid : Numbered env (paidIn env w msg) ps := h.congr hpaidTracks rfl
  have htracks : Tracks env w' (leavesOf w ++ leafOf call.action) :=
    tracks_effect hpaidTracks heffect
  generalize haction : call.action = action at heffect htracks
  cases heffect with
  | deposit hd =>
    refine .inl ⟨_, noteLogs w.logs, ps.filterMap pendingNote, htracks, rfl, ?_⟩
    rw [Option.elim_none, notes, notes_insert hpaid hd.records, List.append_assoc]
    rfl
  | privateTransfer ht =>
    refine .inl ⟨_, noteLogs w.logs, ps.filterMap pendingNote, htracks, rfl, ?_⟩
    rw [Option.elim_none, notes, notes_insert hpaid ht.records, List.append_assoc]
    rfl
  | withdraw hw =>
    refine .inl ⟨_, noteLogs w.logs, ps.filterMap pendingNote, htracks, rfl, ?_⟩
    obtain ⟨roots, i, events, netAmount, fee, hrecord, rfl⟩ := pending_of_withdraw haction hexec
    obtain ⟨rfl, -⟩ := noteLogs_recorded h.tracks.recorded hrecord
    rw [Option.elim_some, notes, notes_insert hpaid hw.records]
    exact congrArg (· ++ _) (List.append_nil _)
  | fee hf =>
    obtain ⟨events, hrun, hlogs⟩ := hf.run
    refine .inr ⟨by simpa [leafOf] using htracks, ?_⟩
    rw [Option.elim_none, notes, hlogs, noteLogs_append, noteLogs_feeEvents hrun, List.append_nil]
    rfl
  | sweepFees hs =>
    refine .inr ⟨by simpa [leafOf] using htracks, ?_⟩
    rw [Option.elim_some, pending_of_sweep haction hexec, notes, hs.logs]
    rfl

/-- **A call keeps the notes apart.** -/
theorem numbered_exec {call : Call} {p : Option Pending} (h : Numbered env w ps)
    (hexec : exec env verify w msg call = .ok (w', p)) :
    Numbered env w' (p.elim ps fun q => some q :: ps) := by
  rcases notes_exec h hexec with ⟨commitment, before, after, htracks, hold, hnew⟩ |
    ⟨htracks, hsame⟩
  · exact h.insert before after htracks hold hnew
  · exact h.congr htracks hsame

/-- The note of a withdrawal is announced when its callee returns. -/
theorem notes_finish (w : World) (p : Pending) :
    notes (finish w p) ps = notes w (some p :: ps) := by
  change noteLogs (w.logs ++ p.events) ++ _ = _
  rw [noteLogs_append, List.append_assoc]
  cases p <;> rfl

/-- **The notes of a reachable world** stand at different leaves, and each has the commitment of its
leaf. -/
theorem noteLogs_reachable {answers : Answers} {c : Config World (Option Pending)}
    (h : Reachable env answers c) : ((noteLogs c.world.logs).map Prod.snd).Nodup ∧
      ∀ x ∈ noteLogs c.world.logs, (leavesOf c.world)[x.2]? = some x.1 := by
  obtain ⟨w, hdeployed, hrun⟩ := h
  have hstart : Numbered env w [] := by
    have htracks := tracks_deployed hdeployed
    have hleaves := htracks.leavesOf_eq
    obtain ⟨verifier, poseidon2Address, balances, hconstruct⟩ := hdeployed
    simp only [construct, bind_eq_ok, require_eq_ok, exists_const, pure_eq_ok] at hconstruct
    obtain ⟨-, -, -, rfl⟩ := hconstruct
    exact ⟨hleaves ▸ htracks, List.nodup_nil, fun _ hx => absurd hx List.not_mem_nil⟩
  let start : Config World (Option Pending) := ⟨w, []⟩
  have hbase : Nested (Numbered env) start.world start.frames := hstart
  have hnested : Nested (Numbered env) c.world c.frames := by
    refine Run.nested (S := pool env answers) (I := Numbered env) ?_ ?_ ?_ hbase hrun
    · intro w w' ps h hs
      cases hs with
      | call _ _ hexec => exact numbered_exec h hexec
      | reverted => exact h
      | @others balances =>
        have htracks : Tracks env { w with balances := balances } (leavesOf w) :=
          h.tracks.congr rfl rfl rfl
        exact h.congr htracks rfl
    · intro w p w' ps h ho
      cases ho with
      | call _ _ hexec => exact numbered_exec h hexec
      | others => exact h.congr h.tracks rfl
    · intro w p w' ps h hc
      cases hc with
      | call => exact h.congr (tracks_finish h.tracks _) (notes_finish _ _)
      | others => exact h.congr h.tracks rfl
  have hnumbered := hnested.head
  constructor
  · have hnodup := hnumbered.nodup
    rw [notes, List.map_append] at hnodup
    exact hnodup.of_append_left
  · exact fun x hx => hnumbered.leaf x (List.mem_append_left _ hx)

end Nullark.Pool.NoteLogs
