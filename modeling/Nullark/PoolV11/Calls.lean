import Nullark.PoolV11.Actions
import Nullark.Pool.Calls

/-! # The external functions of v1.1 and the machine of their calls

`Call` lists the external functions of the v1.1 pool that can change its storage, overload by
overload; `exec` runs one up to its external call, if it makes one, and `finish` runs what comes
after that call. Deposits and private transfers are not guarded against re-entrancy.

`pool` is the machine of all calls, as for v1.2: ether may be forced in at any time, and a
destination may call any function before it returns or fails. -/

namespace Nullark.PoolV11.Calls

open Nullark.Lib.Outcome Nullark.Lib.Rollback Nullark.Evm.Basic
open Nullark.Pool.Interface hiding Event publicInputsLength
open Nullark.Pool.Context (Env)
open Nullark.Pool.Actions (Msg Verify transfer TransferArgs)
open Nullark.Pool.Calls (Answers Move defaultTransferPolicy boundsPolicy)
open Nullark.PoolV11.Actions

/-- **The external functions**, overload by overload. -/
inductive Call
  | deposit (commitment : Bytes32)
  | depositNote (commitment : Bytes32) (encryptedNote : Bytes)
  | privateTransfer (proof : Bytes) (publicInputs : List Bytes32)
      (nullifier newCommitment : Bytes32)
  | privateTransferNote (proof : Bytes) (publicInputs : List Bytes32)
      (nullifier newCommitment : Bytes32) (encryptedNote : Bytes)
  | privateTransferNotePolicy (proof : Bytes) (publicInputs : List Bytes32)
      (nullifier newCommitment : Bytes32) (encryptedNote : Bytes) (relayerPolicy : RelayerPolicy)
  | withdraw (proof : Bytes) (publicInputs : List Bytes32) (nullifier : Bytes32)
      (destination : Address) (grossAmount : UInt256)
  | withdrawBounded (proof : Bytes) (publicInputs : List Bytes32) (nullifier : Bytes32)
      (destination : Address) (grossAmount minNetAmount maxFeeAmount : UInt256)
  | withdrawNote (proof : Bytes) (publicInputs : List Bytes32) (nullifier : Bytes32)
      (destination : Address) (grossAmount : UInt256) (encryptedChangeNote : Bytes)
  | withdrawNoteBounded (proof : Bytes) (publicInputs : List Bytes32) (nullifier : Bytes32)
      (destination : Address) (grossAmount : UInt256) (encryptedChangeNote : Bytes)
      (minNetAmount maxFeeAmount : UInt256)
  | withdrawPolicy (proof : Bytes) (publicInputs : List Bytes32) (nullifier : Bytes32)
      (destination : Address) (grossAmount : UInt256) (relayerPolicy : RelayerPolicy)
  | withdrawNotePolicy (proof : Bytes) (publicInputs : List Bytes32) (nullifier : Bytes32)
      (destination : Address) (grossAmount : UInt256) (encryptedChangeNote : Bytes)
      (relayerPolicy : RelayerPolicy)
  | sweepFees (destination : Address) (amount : UInt256)
  | recoverExcessBalance (destination : Address) (amount : UInt256)
  | pauseDeposits (paused : Bool)
  | pauseInternalSends (paused : Bool)
  | pauseFeeSweeps (paused : Bool)

/-- `msg.sig`. -/
def Call.selector : Call → Bytes4
  | .deposit .. => 0xb214faa5
  | .depositNote .. => 0xe29973fc
  | .privateTransfer .. => 0x304bcf7e
  | .privateTransferNote .. => 0x6da3fd67
  | .privateTransferNotePolicy .. => 0x1a587ce3
  | .withdraw .. => 0x9b0c797c
  | .withdrawBounded .. => 0xc7787d0f
  | .withdrawNote .. => 0x7c61e6b1
  | .withdrawNoteBounded .. => 0x678d8506
  | .withdrawPolicy .. => 0x6666d824
  | .withdrawNotePolicy .. => 0x8246630a
  | .sweepFees .. => 0x90a3a042
  | .recoverExcessBalance .. => 0x4bfec01c
  | .pauseDeposits _ => 0x738b62e5
  | .pauseInternalSends _ => 0xdd294130
  | .pauseFeeSweeps _ => 0xbd7a43e9

def Call.payable : Call → Bool
  | .deposit .. | .depositNote .. => true
  | _ => false

/-- What is paused. -/
inductive Pause
  | deposits
  | internalSends
  | feeSweeps

/-- **What an external function passes on.** -/
inductive Action
  | rejected (text : String)
  | deposit (commitment : Bytes32) (encryptedNote : Bytes)
  | privateTransfer (a : TransferArgs)
  | withdraw (a : WithdrawArgs)
  | sweepFees (destination : Address) (amount : UInt256)
  | recoverExcessBalance (destination : Address) (amount : UInt256)
  | pause (what : Pause) (paused : Bool)

def Call.action (c : Call) : Action :=
  match c with
  | .deposit commitment => .deposit commitment []
  | .depositNote commitment encryptedNote => .deposit commitment encryptedNote
  | .privateTransfer proof publicInputs nullifier newCommitment =>
    .privateTransfer
      ⟨proof, publicInputs, nullifier, newCommitment, [], defaultTransferPolicy, c.selector⟩
  | .privateTransferNote proof publicInputs nullifier newCommitment encryptedNote =>
    .privateTransfer
      ⟨proof, publicInputs, nullifier, newCommitment, encryptedNote, defaultTransferPolicy,
        c.selector⟩
  | .privateTransferNotePolicy proof publicInputs nullifier newCommitment encryptedNote policy =>
    .privateTransfer
      ⟨proof, publicInputs, nullifier, newCommitment, encryptedNote, policy, c.selector⟩
  | .withdraw .. => .rejected "bounded withdrawal required"
  | .withdrawBounded proof publicInputs nullifier destination grossAmount minNet maxFee =>
    .withdraw ⟨proof, publicInputs, nullifier, destination, grossAmount, [],
      boundsPolicy minNet maxFee, c.selector⟩
  | .withdrawNote .. => .rejected "bounded withdrawal required"
  | .withdrawNoteBounded proof publicInputs nullifier destination grossAmount encryptedChangeNote
      minNet maxFee =>
    .withdraw ⟨proof, publicInputs, nullifier, destination, grossAmount, encryptedChangeNote,
      boundsPolicy minNet maxFee, c.selector⟩
  | .withdrawPolicy proof publicInputs nullifier destination grossAmount policy =>
    .withdraw ⟨proof, publicInputs, nullifier, destination, grossAmount, [], policy, c.selector⟩
  | .withdrawNotePolicy proof publicInputs nullifier destination grossAmount encryptedChangeNote
      policy =>
    .withdraw ⟨proof, publicInputs, nullifier, destination, grossAmount, encryptedChangeNote,
      policy, c.selector⟩
  | .sweepFees destination amount => .sweepFees destination amount
  | .recoverExcessBalance destination amount => .recoverExcessBalance destination amount
  | .pauseDeposits paused => .pause .deposits paused
  | .pauseInternalSends paused => .pause .internalSends paused
  | .pauseFeeSweeps paused => .pause .feeSweeps paused

section Code
variable (env : Env) (verify : Verify)

/-- A function that takes no ether rejects it. -/
def requirePayable (msg : Msg) (call : Call) : Result Unit :=
  if call.payable ∨ msg.value = 0 then .ok () else .error .nonPayable

/-- The world in which the code of a call runs. -/
def paidIn (w : World) (msg : Msg) : World :=
  { w with balances := transfer w.balances msg.sender env.this msg.value }

/-- The ether sent along moves before the code runs. -/
def payIn (w : World) (msg : Msg) : Result World :=
  if msg.value ≤ w.balances msg.sender then .ok (paidIn env w msg) else .error .insufficientBalance

/-- `_nonReentrantBefore`. -/
def nonReentrantBefore (w : World) : Result World :=
  if w.pool.entered then .error .reentrancyGuardReentrantCall
  else .ok { w with pool := { w.pool with entered := true } }

/-- `_nonReentrantAfter`. -/
def nonReentrantAfter (w : World) : World := { w with pool := { w.pool with entered := false } }

/-- `pauseDeposits`, `pauseInternalSends` and `pauseFeeSweeps`. -/
def setPaused (w : World) (msg : Msg) (what : Pause) (paused : Bool) : Result World := do
  require (msg.sender = env.feeController) "only fee controller"
  return match what with
    | .deposits =>
      { w with pool := { w.pool with depositsPaused := paused }
               logs := w.logs ++ [.depositsPaused paused] }
    | .internalSends =>
      { w with pool := { w.pool with internalSendsPaused := paused }
               logs := w.logs ++ [.internalSendsPaused paused] }
    | .feeSweeps =>
      { w with pool := { w.pool with feeSweepsPaused := paused }
               logs := w.logs ++ [.feeSweepsPaused paused] }

/-- A function behind the guard, up to its external call. -/
def guarded (f : World → Result (World × Pending)) (w : World) : Result (World × Option Pending) := do
  let w ← nonReentrantBefore w
  let (w, pending) ← f w
  return (w, some pending)

def runAction (w : World) (msg : Msg) : Action → Result (World × Option Pending)
  | .rejected text => .error (.reason text)
  | .deposit commitment encryptedNote => do
    let w ← deposit env w msg commitment encryptedNote
    return (w, none)
  | .privateTransfer a => do
    let w ← privateTransfer env verify w msg a
    return (w, none)
  | .withdraw a => guarded (fun w => withdraw env verify w msg a) w
  | .sweepFees destination amount => guarded (fun w => sweepFees env w msg destination amount) w
  | .recoverExcessBalance destination amount =>
    guarded (fun w => recoverExcessBalance env w msg destination amount) w
  | .pause what paused => do
    let w ← setPaused env w msg what paused
    return (w, none)

/-- **A call to the pool**, up to its external call if it makes one. -/
def exec (w : World) (msg : Msg) (call : Call) : Result (World × Option Pending) := do
  requirePayable msg call
  let w ← payIn env w msg
  runAction env verify w msg call.action

/-- **The rest of a call** whose external call returned. -/
def finish (w : World) (p : Pending) : World :=
  nonReentrantAfter { w with logs := w.logs ++ p.events }

end Code

/-! ### The machine -/

/-- The steps of one frame, as in v1.2. -/
inductive PoolStep (env : Env) (answers : Answers) : World → World → Prop
  | call {w w' : World} {verify : Verify} {msg : Msg} {call : Call} (hv : answers verify)
      (hsender : msg.sender ≠ env.this) (h : exec env verify w msg call = .ok (w', none)) :
      PoolStep env answers w w'
  | reverted {w : World} {verify : Verify} {msg : Msg} {call : Call} {e : Revert}
      (hv : answers verify) (hsender : msg.sender ≠ env.this)
      (h : exec env verify w msg call = .error e) : PoolStep env answers w w
  | others {w : World} {balances : Address → ℕ}
      (h : w.balances env.this ≤ balances env.this) :
      PoolStep env answers w { w with balances }

/-- A frame opens when the pool calls a destination, or around calls of others that may fail. -/
inductive PoolOpens (env : Env) (answers : Answers) : World → Option Pending → World → Prop
  | call {w w' : World} {verify : Verify} {msg : Msg} {call : Call} {p : Pending}
      (hv : answers verify) (hsender : msg.sender ≠ env.this)
      (h : exec env verify w msg call = .ok (w', some p)) : PoolOpens env answers w (some p) w'
  | others {w : World} : PoolOpens env answers w none w

/-- The destination returns. The pool itself takes no plain ether, so it never does. -/
inductive PoolCloses (env : Env) : Option Pending → World → World → Prop
  | call {w : World} {p : Pending} (h : p.destination ≠ env.this) :
      PoolCloses env (some p) w (finish w p)
  | others {w : World} : PoolCloses env none w w

/-- **The machine of the pool**, for the answers its verifier can give. -/
def pool (env : Env) (answers : Answers) : System World (Option Pending) where
  step := PoolStep env answers
  opens := PoolOpens env answers
  closes := PoolCloses env

/-- **Deployment**: a world the constructor leaves. -/
def Deployed (env : Env) (w : World) : Prop :=
  ∃ verifier poseidon2Address balances,
    construct env.poseidon2 verifier env.feeController poseidon2Address balances = .ok w

/-- **The configurations of the pool.** -/
def Reachable (env : Env) (answers : Answers) (c : Config World (Option Pending)) : Prop :=
  ∃ w, Deployed env w ∧ Run (pool env answers) ⟨w, []⟩ c

/-- The configuration after a move, as in v1.2. -/
def playMove (env : Env) (verify : Verify) :
    Config World (Option Pending) → Move Call → Option (Config World (Option Pending))
  | ⟨w, frames⟩, .call msg call =>
    if msg.sender = env.this then none
    else match exec env verify w msg call with
      | .ok (w', none) => some ⟨w', frames⟩
      | .ok (w', some p) => some ⟨w', ⟨w, some p⟩ :: frames⟩
      | .error _ => none
  | ⟨w, ⟨_, some p⟩ :: frames⟩, .returns =>
    if p.destination = env.this then none else some ⟨finish w p, frames⟩
  | _, .returns => none

theorem step_of_playMove {env : Env} {answers : Answers} {verify : Verify} (hv : answers verify)
    {c : Config World (Option Pending)} {m : Move Call} {c' : Config World (Option Pending)}
    (h : playMove env verify c m = some c') : Step (pool env answers) c c' := by
  rcases c with ⟨w, frames⟩
  cases m with
  | call msg call =>
    simp only [playMove] at h
    split_ifs at h with hsender
    rcases hexec : exec env verify w msg call with e | ⟨w', _ | p⟩
    · rw [hexec] at h
      cases h
    · rw [hexec] at h
      obtain rfl := Option.some.inj h
      exact .step (.call hv hsender hexec)
    · rw [hexec] at h
      obtain rfl := Option.some.inj h
      exact .opens (.call hv hsender hexec)
  | returns =>
    rcases frames with _ | ⟨⟨before, _ | p⟩, frames⟩
    · cases h
    · cases h
    · simp only [playMove] at h
      split_ifs at h with hdestination
      obtain rfl := Option.some.inj h
      exact .closes (.call hdestination)

end Nullark.PoolV11.Calls
