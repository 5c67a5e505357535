import Nullark.Pool.Effects

/-! # What a call emits

A call that succeeds runs to its end at once, or calls out, and what happens there, calls to the pool
included, belongs to it. Its events are those the logs have grown by.

* `Succeeds`: a call with all that happens in it.
* `logs_runAbove`: while a call is open the logs only grow.
* `emits`: every call emits an event of the accounting, but for one that sets the fee to itself. -/

namespace Nullark.Pool.Emissions

open Nullark.Lib.Outcome Nullark.Lib.Rollback Nullark.Evm.Basic
open Nullark.Pool.Interface Nullark.Pool.Context Nullark.Pool.Fees Nullark.Pool.Roots
open Nullark.Pool.Actions Nullark.Pool.Calls Nullark.Pool.Effects

/-- **A call that succeeds**: it runs to its end, or the account it calls out to returns after
whatever calls. -/
inductive Succeeds (env : Env) (answers : Answers) (c : Config World (Option Pending)) (msg : Msg)
    (call : Call) : Config World (Option Pending) → Prop
  | done {verify : Verify} {w' : World} (hv : answers verify) (hsender : msg.sender ≠ env.this)
      (h : exec env verify c.world msg call = .ok (w', none)) :
      Succeeds env answers c msg call ⟨w', c.frames⟩
  | returned {verify : Verify} {w' w'' : World} {p : Pending} (hv : answers verify)
      (hsender : msg.sender ≠ env.this)
      (h : exec env verify c.world msg call = .ok (w', some p))
      (hrun : RunAbove (pool env answers) c.frames.length ⟨w', ⟨c.world, some p⟩ :: c.frames⟩
        ⟨w'', ⟨c.world, some p⟩ :: c.frames⟩)
      (hdestination : p.destination ≠ env.this) :
      Succeeds env answers c msg call ⟨finish w'' p, c.frames⟩

/-- The call sets the fee to what it is. -/
def KeepsFee (w : World) (call : Call) : Prop := call = .fee (.setFeeBps w.pool.fees.feeBps)

/-- The event is none of a note, a nullifier or a root. -/
def OfAccounting : Event → Prop
  | .depositNoteCreated .. | .privateTransferNoteCreated .. | .withdrawalOutputNoteCreated ..
  | .nullifierSpent _ | .rootAccepted .. | .rootExpired _ => False
  | _ => True

section Emissions
variable {env : Env} {answers : Answers} {verify : Verify} {w w' : World} {msg : Msg} {call : Call}
  {c c' : Config World (Option Pending)} {events : List Event}

/-- A call is a run of the machine. -/
theorem Succeeds.run (h : Succeeds env answers c msg call c') : Run (pool env answers) c c' := by
  cases h with
  | done hv hsender h => exact .single (.step (.call hv hsender h))
  | returned hv hsender h hrun hdestination =>
    have hopen : Step (pool env answers) c ⟨_, ⟨c.world, some _⟩ :: c.frames⟩ :=
      .opens (.call hv hsender h)
    have hinside := Relation.ReflTransGen.mono (fun _ _ hs => hs.1) _ _ hrun
    exact ((Relation.ReflTransGen.single hopen).trans hinside).tail (.closes (.call hdestination))

/-! ### The logs only grow -/

theorem logs_records {commitment : Bytes32} {after : ℕ → List Event}
    (h : Records env w w' commitment after) :
    ∃ i events, w'.logs = w.logs ++ (events ++ after i) := by
  obtain ⟨i, events, -, hlogs⟩ := h
  exact ⟨i, events, by rw [hlogs, List.append_assoc]⟩

theorem logs_exec {p : Option Pending} (h : exec env verify w msg call = .ok (w', p)) :
    w.logs <+: w'.logs := by
  obtain ⟨-, -, heffect⟩ := exec_ok h
  generalize call.action = action at heffect
  cases heffect with
  | deposit hd =>
    obtain ⟨_, _, hlogs⟩ := logs_records hd.records
    exact ⟨_, hlogs.symm⟩
  | privateTransfer ht =>
    obtain ⟨_, _, hlogs⟩ := logs_records ht.records
    exact ⟨_, hlogs.symm⟩
  | withdraw hw =>
    obtain ⟨_, _, hlogs⟩ := logs_records hw.records
    exact ⟨_, hlogs.symm⟩
  | fee hf =>
    obtain ⟨events, -, hlogs⟩ := hf.run
    exact ⟨events, hlogs.symm⟩
  | sweepFees hs => exact hs.logs ▸ List.prefix_rfl

/-- **While a call is open the logs only grow.** -/
theorem logs_runAbove {base : List (Frame World (Option Pending))} {n : ℕ}
    (hn : base.length = n + 1) (hr : RunAbove (pool env answers) n c c') (hbase : c.frames = base) :
    c.world.logs <+: c'.world.logs := by
  refine RunAbove.invariant (I := fun w => c.world.logs <+: w.logs) ?_ ?_ ?_ hn hr hbase
    List.prefix_rfl
  · intro w w' hw hs
    cases hs with
    | call _ _ h => exact hw.trans (logs_exec h)
    | reverted _ _ _ => exact hw
    | others _ => exact hw
  · intro w p w' hw hs
    cases hs with
    | call _ _ h => exact hw.trans (logs_exec h)
    | others => exact hw
  · intro p w w' hw hs
    cases hs with
    | call _ => exact hw.trans (List.prefix_append _ _)
    | others => exact hw

/-! ### The events of a call -/

theorem emits_runFeeOp {f f' : FeeStorage} {fc : FeeCall}
    (h : runFeeOp env.feeController f fc = .ok (f', events)) :
    (fc.op = .setFeeBps f.feeBps ∧ events = []) ∨ ∃ e ∈ events, OfAccounting e := by
  unfold runFeeOp at h
  split at h
  case h_1 new hop =>
    simp only [setFeeBps, bind_eq_ok, require_eq_ok, exists_const] at h
    obtain ⟨-, -, h⟩ := h
    split_ifs at h with heq hlt
    · exact .inl ⟨by rw [hop, heq], (Prod.mk.inj (pure_eq_ok.mp h)).2.symm⟩
    · rw [← (Prod.mk.inj (pure_eq_ok.mp h)).2]
      exact .inr ⟨_, List.mem_singleton_self _, trivial⟩
    · obtain ⟨_, -, h⟩ := bind_eq_ok.mp h
      rw [← (Prod.mk.inj (pure_eq_ok.mp h)).2]
      exact .inr ⟨_, List.mem_singleton_self _, trivial⟩
  case h_2 =>
    simp only [executePendingFeeBps, bind_eq_ok, require_eq_ok, exists_const, pure_eq_ok] at h
    rw [← (Prod.mk.inj h.2.2).2]
    exact .inr ⟨_, List.mem_singleton_self _, trivial⟩
  case h_3 =>
    simp only [cancelPendingFeeBps, bind_eq_ok, require_eq_ok, exists_const, pure_eq_ok] at h
    rw [← (Prod.mk.inj h.2.2).2]
    exact .inr ⟨_, List.mem_singleton_self _, trivial⟩

theorem emits_pending (p : Pending) : ∃ e ∈ p.events, OfAccounting e := by
  cases p with
  | withdraw => exact ⟨_, List.mem_cons_of_mem _ List.mem_cons_self, trivial⟩
  | sweepFees => exact ⟨_, List.mem_singleton_self _, trivial⟩

/-- Only fee operations have their action. -/
theorem eq_fee_of_action {op : FeeOp} (h : call.action = .fee op) : call = .fee op := by
  cases call <;> cases h
  rfl

/-- A call that runs to its end at once. -/
theorem emits_exec (h : exec env verify w msg call = .ok (w', none))
    (hlogs : w'.logs = w.logs ++ events) :
    (KeepsFee w call ∧ events = []) ∨ ∃ e ∈ events, OfAccounting e := by
  obtain ⟨-, -, heffect⟩ := exec_ok h
  generalize haction : call.action = action at heffect
  cases heffect with
  | deposit hd =>
    obtain ⟨i, recorded, hrecords⟩ := logs_records hd.records
    obtain rfl := List.append_cancel_left (hlogs.symm.trans hrecords)
    exact .inr ⟨_, List.mem_append_right _ List.mem_cons_self, trivial⟩
  | privateTransfer ht =>
    obtain ⟨i, recorded, hrecords⟩ := logs_records ht.records
    obtain rfl := List.append_cancel_left (hlogs.symm.trans hrecords)
    exact .inr ⟨_, List.mem_append_right _ (List.mem_cons_of_mem _ List.mem_cons_self), trivial⟩
  | fee hf =>
    obtain ⟨emitted, hrun, hgrown⟩ := hf.run
    obtain rfl := List.append_cancel_left (hlogs.symm.trans hgrown)
    rcases emits_runFeeOp hrun with ⟨hop, hempty⟩ | hevent
    · dsimp only at hop
      rw [hop] at haction
      exact .inl ⟨eq_fee_of_action haction, hempty⟩
    · exact .inr hevent

/-- **Every call emits an event of the accounting**, but for one that sets the fee to itself. -/
theorem emits (h : Succeeds env answers c msg call c')
    (hlogs : c'.world.logs = c.world.logs ++ events) :
    (KeepsFee c.world call ∧ events = []) ∨ ∃ e ∈ events, OfAccounting e := by
  cases h with
  | done hv hsender h => exact emits_exec h hlogs
  | @returned _ w' w'' p hv hsender h hrun hdestination =>
    have hinside : c.world.logs <+: w''.logs :=
      (logs_exec h).trans (logs_runAbove (List.length_cons ..) hrun rfl)
    obtain ⟨inside, hinside⟩ := hinside
    have hall : c.world.logs ++ events = c.world.logs ++ (inside ++ p.events) := by
      rw [← hlogs, ← List.append_assoc, hinside]
      rfl
    obtain rfl := List.append_cancel_left hall
    obtain ⟨e, he, haccounting⟩ := emits_pending p
    exact .inr ⟨e, List.mem_append_right _ he, haccounting⟩

/-- A call that keeps the fee emits nothing. -/
theorem emits_nothing (h : Succeeds env answers c msg call c') (hkeeps : KeepsFee c.world call)
    (hlogs : c'.world.logs = c.world.logs ++ events) : events = [] := by
  cases h with
  | @done _ w' hv hsender h =>
    obtain ⟨-, -, heffect⟩ := exec_ok h
    rw [hkeeps] at heffect
    cases heffect with
    | fee hf =>
      obtain ⟨emitted, hrun, hgrown⟩ := hf.run
      obtain rfl := List.append_cancel_left (hlogs.symm.trans hgrown)
      change setFeeBps env.feeController msg.sender msg.timestamp c.world.pool.fees
        c.world.pool.fees.feeBps = _ at hrun
      simp only [setFeeBps, bind_eq_ok, require_eq_ok, exists_const, if_pos, pure_eq_ok] at hrun
      exact (Prod.mk.inj hrun.2.2).2.symm
  | returned hv hsender h =>
    obtain ⟨-, -, heffect⟩ := exec_ok h
    rw [hkeeps] at heffect
    cases heffect

end Emissions

end Nullark.Pool.Emissions
