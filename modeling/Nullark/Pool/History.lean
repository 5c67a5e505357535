import Nullark.Pool.Effects

/-! # Leaves and logs of a run

The leaves of the tree of a reachable world are the commitments that its `RootAccepted` events
insert; they are distinct nonzero field elements, and the events link the roots of their prefixes.

* `chain`: the events a list of leaves leaves behind.
* `Tracks`: the world has the tree, the commitments and the events of a list of leaves.
* `tracks_exec`: a call appends at most one leaf.
* `tracks_reachable`: every reachable world tracks its leaves. -/

namespace Nullark.Pool.History

open Nullark.Lib.Outcome Nullark.Lib.Rollback Nullark.Evm.Basic
open Nullark.Pool.Interface Nullark.Pool.Context Nullark.Pool.Tree Nullark.Pool.Roots
open Nullark.Pool.Actions Nullark.Pool.Calls Nullark.Pool.Checks Nullark.Pool.Effects

/-- The data of a `RootAccepted` event. -/
structure RootAccepted where
  root : Bytes32
  previousRoot : Bytes32
  insertedCommitment : Bytes32
  deriving DecidableEq, Repr

/-- **The `RootAccepted` events** among the logs. -/
def rootLogs (logs : List Event) : List RootAccepted :=
  logs.filterMap fun
    | .rootAccepted root previousRoot insertedCommitment =>
      some ⟨root, previousRoot, insertedCommitment⟩
    | _ => none

/-- The events of the leaves that come after `done`. -/
def chainFrom (poseidon2 : Bytes32 → Bytes32 → Bytes32) : List Bytes32 → List Bytes32 →
    List RootAccepted
  | _, [] => []
  | done, leaf :: leaves =>
    ⟨treeRoot poseidon2 (done ++ [leaf]), treeRoot poseidon2 done, leaf⟩ ::
      chainFrom poseidon2 (done ++ [leaf]) leaves

/-- **The events of a list of leaves**, the one of the constructor first. -/
def chain (poseidon2 : Bytes32 → Bytes32 → Bytes32) (leaves : List Bytes32) : List RootAccepted :=
  ⟨treeRoot poseidon2 [], 0, 0⟩ :: chainFrom poseidon2 [] leaves

/-- **The leaves of a world**: the commitments its events insert. -/
def leavesOf (w : World) : List Bytes32 :=
  (rootLogs w.logs).filterMap fun e =>
    if e.insertedCommitment = 0 then none else some e.insertedCommitment

@[simp] theorem rootLogs_append (l l' : List Event) :
    rootLogs (l ++ l') = rootLogs l ++ rootLogs l' := List.filterMap_append

variable {poseidon2 : Bytes32 → Bytes32 → Bytes32}

theorem chainFrom_concat : ∀ (done leaves : List Bytes32) (leaf : Bytes32),
    chainFrom poseidon2 done (leaves ++ [leaf]) = chainFrom poseidon2 done leaves ++
      [⟨treeRoot poseidon2 (done ++ leaves ++ [leaf]), treeRoot poseidon2 (done ++ leaves), leaf⟩]
  | done, [], leaf => by simp [chainFrom]
  | done, x :: leaves, leaf => by
    rw [List.cons_append, chainFrom, chainFrom_concat (done ++ [x]) leaves, chainFrom]
    simp

theorem chain_concat (leaves : List Bytes32) (leaf : Bytes32) :
    chain poseidon2 (leaves ++ [leaf]) = chain poseidon2 leaves ++
      [⟨treeRoot poseidon2 (leaves ++ [leaf]), treeRoot poseidon2 leaves, leaf⟩] := by
  unfold chain
  rw [chainFrom_concat, List.nil_append, List.cons_append]

/-- The leaves can be read off their events. -/
theorem leaves_of_chainFrom : ∀ (done leaves : List Bytes32), (∀ c ∈ leaves, c ≠ 0) →
    (chainFrom poseidon2 done leaves).filterMap (fun e =>
      if e.insertedCommitment = 0 then none else some e.insertedCommitment) = leaves
  | _, [], _ => rfl
  | done, leaf :: leaves, h => by
    have hne := h leaf List.mem_cons_self
    have ih := leaves_of_chainFrom (done ++ [leaf]) leaves fun c hc =>
      h c (List.mem_cons_of_mem _ hc)
    rw [chainFrom, List.filterMap_cons, if_neg hne, ih]

/-- **The world has the tree, the commitments and the events of `leaves`.** -/
structure Tracks (env : Env) (w : World) (leaves : List Bytes32) : Prop where
  recorded : Recorded env.poseidon2 w.pool.roots leaves
  logs : rootLogs w.logs = chain env.poseidon2 leaves
  nodup : leaves.Nodup
  field : ∀ c ∈ leaves, c ≠ 0 ∧ isFieldElement c
  commitments : ∀ c, w.pool.commitments c ↔ c ∈ leaves

variable {env : Env} {verify : Verify} {w w' : World} {msg : Msg} {leaves : List Bytes32}

theorem Tracks.leavesOf_eq (h : Tracks env w leaves) : leavesOf w = leaves := by
  unfold leavesOf
  rw [h.logs, chain, List.filterMap_cons, if_pos rfl]
  exact leaves_of_chainFrom [] leaves fun c hc => (h.field c hc).1

/-- Only the roots, the commitments and the `RootAccepted` events matter. -/
theorem Tracks.congr (h : Tracks env w leaves) (hroots : w'.pool.roots = w.pool.roots)
    (hcommitments : w'.pool.commitments = w.pool.commitments)
    (hlogs : rootLogs w'.logs = rootLogs w.logs) : Tracks env w' leaves :=
  ⟨hroots ▸ h.recorded, hlogs.trans h.logs, h.nodup, h.field, hcommitments ▸ h.commitments⟩

/-- **Recording a fresh commitment** appends it to the leaves. -/
theorem Tracks.records (h : Tracks env w leaves) {commitment : Bytes32} {after : ℕ → List Event}
    (hr : Records env w w' commitment after) (hafter : ∀ i, rootLogs (after i) = [])
    (hne : commitment ≠ 0) (hfield : isFieldElement commitment)
    (hfresh : ¬w.pool.commitments commitment)
    (hcommitments : w'.pool.commitments = Function.update w.pool.commitments commitment true) :
    Tracks env w' (leaves ++ [commitment]) := by
  obtain ⟨i, events, hrecord, hlogs⟩ := hr
  obtain ⟨hrecorded, -, expired, hexpired, rfl⟩ := recordCommitmentRoot_ok h.recorded hrecord
  have hnotin : commitment ∉ leaves := fun hin => hfresh ((h.commitments commitment).mpr hin)
  have hquiet : rootLogs expired = [] := by
    rcases hexpired with rfl | ⟨r, rfl⟩ <;> rfl
  refine ⟨hrecorded, ?_, ?_, fun c hc => ?_, fun c => ?_⟩
  · rw [hlogs, chain_concat, rootLogs_append, rootLogs_append, rootLogs_append, h.logs, hquiet,
      hafter, List.nil_append, List.append_nil]
    rfl
  · exact List.nodup_append.mpr ⟨h.nodup, List.nodup_singleton _, fun a ha b hb =>
      fun heq => hnotin (by rw [List.mem_singleton] at hb; rw [← hb, ← heq]; exact ha)⟩
  · rw [List.mem_append, List.mem_singleton] at hc
    rcases hc with hc | rfl
    · exact h.field c hc
    · exact ⟨hne, hfield⟩
  · rw [hcommitments, List.mem_append, List.mem_singleton, ← h.commitments c]
    rcases eq_or_ne c commitment with rfl | hc
    · simp
    · simp [hc]

/-! ### One call -/

/-- **The leaf an action inserts**, if it inserts one. -/
def leafOf : Action → List Bytes32
  | .deposit _ publicInputs _ _ => [input publicInputs 0]
  | .privateTransfer a => [a.newCommitment]
  | .withdraw a => [input a.publicInputs 2]
  | _ => []

theorem rootLogs_feeEvents {f f' : Fees.FeeStorage} {c : Fees.FeeCall} {events : List Event}
    (h : Fees.runFeeOp env.feeController f c = .ok (f', events)) : rootLogs events = [] :=
  Fees.filterMap_feeEvents (fun e he => by cases e <;> first | rfl | cases he) h

theorem tracks_effect {action : Action} {p : Option Pending} (h : Tracks env w leaves)
    (he : Effect env verify w msg action w' p) : Tracks env w' (leaves ++ leafOf action) := by
  cases he with
  | deposit hd =>
    exact h.records hd.records (fun _ => rfl) hd.checked.commitment_ne hd.checked.commitment_field
      hd.checked.commitment_fresh hd.commitments
  | privateTransfer ht =>
    exact h.records ht.records (fun _ => rfl) ht.checked.commitment_ne ht.checked.commitment_field
      ht.fresh ht.commitments
  | withdraw hw =>
    exact h.records hw.records (fun _ => rfl) hw.checked.commitment_ne hw.checked.commitment_field
      hw.checked.commitment_fresh hw.commitments
  | fee hf =>
    obtain ⟨events, hrun, hlogs⟩ := hf.run
    change Tracks env w' (leaves ++ [])
    rw [List.append_nil]
    refine h.congr (by rw [hf.pool]) (by rw [hf.pool]) ?_
    rw [hlogs, rootLogs_append, rootLogs_feeEvents hrun, List.append_nil]
  | sweepFees hs =>
    change Tracks env w' (leaves ++ [])
    rw [List.append_nil]
    exact h.congr (by rw [hs.pool]) (by rw [hs.pool]) (by rw [hs.logs])

theorem tracks_exec {call : Call} {p : Option Pending} (h : Tracks env w leaves)
    (hexec : exec env verify w msg call = .ok (w', p)) :
    Tracks env w' (leaves ++ leafOf call.action) := by
  obtain ⟨-, -, heffect⟩ := exec_ok hexec
  have hpaid : Tracks env (paidIn env w msg) leaves := h.congr rfl rfl rfl
  exact tracks_effect hpaid heffect

theorem tracks_finish (h : Tracks env w leaves) (p : Pending) : Tracks env (finish w p) leaves := by
  refine h.congr rfl rfl ?_
  have hevents : rootLogs p.events = [] := by cases p <;> rfl
  change rootLogs (w.logs ++ p.events) = _
  rw [rootLogs_append, hevents, List.append_nil]

/-! ### Runs -/

theorem tracks_deployed (h : Deployed env w) : Tracks env w [] := by
  obtain ⟨verifier, poseidon2Address, balances, h⟩ := h
  simp only [construct, bind_eq_ok, require_eq_ok, exists_const, pure_eq_ok] at h
  obtain ⟨-, -, -, rfl⟩ := h
  have hroot : (initialRoots env.poseidon2).currentRoot = treeRoot env.poseidon2 [] :=
    recorded_initial.currentRoot
  refine ⟨recorded_initial, ?_, List.nodup_nil, fun _ hc => absurd hc List.not_mem_nil, fun c => ?_⟩
  · dsimp only
    rw [hroot]
    rfl
  · simp

/-- Every world of a reachable configuration tracks a list of leaves. -/
theorem tracks_reachable {answers : Answers} {c : Config World (Option Pending)}
    (h : Reachable env answers c) : c.All fun w => Tracks env w (leavesOf w) := by
  obtain ⟨w, hdeployed, hrun⟩ := h
  have hex : c.All fun w => ∃ leaves, Tracks env w leaves := by
    refine Run.invariant (S := pool env answers) (I := fun w => ∃ leaves, Tracks env w leaves)
      ?_ ?_ ?_ ⟨⟨[], tracks_deployed hdeployed⟩, fun _ hf => absurd hf List.not_mem_nil⟩ hrun
    · rintro w w' ⟨leaves, h⟩ hs
      cases hs with
      | call _ _ hexec => exact ⟨_, tracks_exec h hexec⟩
      | reverted => exact ⟨leaves, h⟩
      | others => exact ⟨leaves, h.congr rfl rfl rfl⟩
    · rintro w p w' ⟨leaves, h⟩ ho
      cases ho with
      | call _ _ hexec => exact ⟨_, tracks_exec h hexec⟩
      | others => exact ⟨leaves, h⟩
    · rintro w p w' ⟨leaves, h⟩ hc
      cases hc with
      | call => exact ⟨leaves, tracks_finish h _⟩
      | others => exact ⟨leaves, h⟩
  have hown : ∀ {w : World}, (∃ leaves, Tracks env w leaves) → Tracks env w (leavesOf w) := by
    rintro w ⟨leaves, h⟩
    rwa [h.leavesOf_eq]
  exact ⟨hown hex.1, fun f hf => hown (hex.2 f hf)⟩

end Nullark.Pool.History
