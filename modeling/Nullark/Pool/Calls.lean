import Nullark.Lib.Rollback
import Nullark.Pool.Actions

/-! # The external functions and the machine of their calls

`Call` lists the external functions of the v1.2 pool that can change its storage, overload by
overload, with their selectors; `exec` runs one up to its external call, if it makes one, and
`finish` runs what comes after that call.

`pool` is the machine of all calls, made by anyone in any order and from within each other. Between
two calls other accounts may do what they like, except take ether out of the pool. Calls to the
verifier and to the hash are static calls, so that the pool sends nothing and calls nobody but the
destinations of withdrawals and sweeps; it never calls one of its own functions. -/

namespace Nullark.Pool.Calls

open Nullark.Lib.Outcome Nullark.Lib.Rollback Nullark.Evm.Basic
open Nullark.Pool.Interface Nullark.Pool.Context Nullark.Pool.Fees Nullark.Pool.Roots
open Nullark.Pool.Actions

/-- **The external functions**, overload by overload. -/
inductive Call
  | depositCommitment (commitment : Bytes32)
  | depositCommitmentNote (commitment : Bytes32) (encryptedNote : Bytes)
  | deposit (proof : Bytes) (publicInputs : List Bytes32) (encryptedNote : Bytes)
  | privateTransfer (proof : Bytes) (publicInputs : List Bytes32)
      (nullifier newCommitment : Bytes32)
  | privateTransferNote (proof : Bytes) (publicInputs : List Bytes32)
      (nullifier newCommitment : Bytes32) (encryptedNote : Bytes)
  | privateTransferNotePolicy (proof : Bytes) (publicInputs : List Bytes32)
      (nullifier newCommitment : Bytes32) (encryptedNote : Bytes) (relayerPolicy : RelayerPolicy)
  | withdraw (proof : Bytes) (publicInputs : List Bytes32) (nullifier : Bytes32)
      (destination : Address) (grossAmount : UInt256)
  | withdrawBounded (proof : Bytes) (publicInputs : List Bytes32) (nullifier : Bytes32)
      (destination : Address) (grossAmount minNetAmount maxFeeAmount : UInt256)
  | withdrawNote (proof : Bytes) (publicInputs : List Bytes32) (nullifier : Bytes32)
      (destination : Address) (grossAmount : UInt256) (encryptedOutputNote : Bytes)
  | withdrawNoteBounded (proof : Bytes) (publicInputs : List Bytes32) (nullifier : Bytes32)
      (destination : Address) (grossAmount : UInt256) (encryptedOutputNote : Bytes)
      (minNetAmount maxFeeAmount : UInt256)
  | withdrawPolicy (proof : Bytes) (publicInputs : List Bytes32) (nullifier : Bytes32)
      (destination : Address) (grossAmount : UInt256) (relayerPolicy : RelayerPolicy)
  | withdrawNotePolicy (proof : Bytes) (publicInputs : List Bytes32) (nullifier : Bytes32)
      (destination : Address) (grossAmount : UInt256) (encryptedOutputNote : Bytes)
      (relayerPolicy : RelayerPolicy)
  | fee (op : FeeOp)
  | sweepFees (destination : Address) (amount : UInt256)

/-- `msg.sig`. -/
def Call.selector : Call → Bytes4
  | .depositCommitment .. => 0xb214faa5
  | .depositCommitmentNote .. => 0xe29973fc
  | .deposit .. => 0xca8f0370
  | .privateTransfer .. => 0x304bcf7e
  | .privateTransferNote .. => 0x6da3fd67
  | .privateTransferNotePolicy .. => 0x1a587ce3
  | .withdraw .. => 0x9b0c797c
  | .withdrawBounded .. => 0xc7787d0f
  | .withdrawNote .. => 0x7c61e6b1
  | .withdrawNoteBounded .. => 0x678d8506
  | .withdrawPolicy .. => 0x6666d824
  | .withdrawNotePolicy .. => 0x8246630a
  | .fee (.setFeeBps _) => 0x023b1fc9
  | .fee .executePendingFeeBps => 0x6a922915
  | .fee .cancelPendingFeeBps => 0x51529e58
  | .sweepFees .. => 0x90a3a042

def Call.payable : Call → Bool
  | .depositCommitment .. | .depositCommitmentNote .. | .deposit .. => true
  | _ => false

/-- **What an external function passes on**: most overloads only fill in arguments. -/
inductive Action
  | rejected (text : String)
  | deposit (proof : Bytes) (publicInputs : List Bytes32) (encryptedNote : Bytes)
      (selector : Bytes4)
  | privateTransfer (a : TransferArgs)
  | withdraw (a : WithdrawArgs)
  | fee (op : FeeOp)
  | sweepFees (destination : Address) (amount : UInt256)

/-- The policy of the overloads of `privateTransfer` that take none. -/
def defaultTransferPolicy : RelayerPolicy :=
  { relayer := 0, minNetAmount := 0, maxFeeAmount := BitVec.allOnes 256, deadlineOrZero := 0 }

/-- The policy of the overloads of `withdraw` that take two bounds. -/
def boundsPolicy (minNetAmount maxFeeAmount : UInt256) : RelayerPolicy :=
  { relayer := 0, minNetAmount, maxFeeAmount, deadlineOrZero := 0 }

def Call.action (c : Call) : Action :=
  match c with
  | .depositCommitment _ => .rejected "deposit proof required"
  | .depositCommitmentNote _ _ => .rejected "deposit proof required"
  | .deposit proof publicInputs encryptedNote =>
    .deposit proof publicInputs encryptedNote c.selector
  | .privateTransfer proof publicInputs nullifier newCommitment =>
    .privateTransfer
      ⟨proof, publicInputs, nullifier, newCommitment, [], defaultTransferPolicy, c.selector⟩
  | .privateTransferNote proof publicInputs nullifier newCommitment encryptedNote =>
    .privateTransfer
      ⟨proof, publicInputs, nullifier, newCommitment, encryptedNote, defaultTransferPolicy,
        c.selector⟩
  | .privateTransferNotePolicy proof publicInputs nullifier newCommitment encryptedNote policy =>
    .privateTransfer
      ⟨proof, publicInputs, nullifier, newCommitment, encryptedNote, policy, c.selector⟩
  | .withdraw .. => .rejected "bounded withdrawal required"
  | .withdrawBounded proof publicInputs nullifier destination grossAmount minNet maxFee =>
    .withdraw ⟨proof, publicInputs, nullifier, destination, grossAmount, [],
      boundsPolicy minNet maxFee, c.selector⟩
  | .withdrawNote .. => .rejected "bounded withdrawal required"
  | .withdrawNoteBounded proof publicInputs nullifier destination grossAmount encryptedOutputNote
      minNet maxFee =>
    .withdraw ⟨proof, publicInputs, nullifier, destination, grossAmount, encryptedOutputNote,
      boundsPolicy minNet maxFee, c.selector⟩
  | .withdrawPolicy proof publicInputs nullifier destination grossAmount policy =>
    .withdraw ⟨proof, publicInputs, nullifier, destination, grossAmount, [], policy, c.selector⟩
  | .withdrawNotePolicy proof publicInputs nullifier destination grossAmount encryptedOutputNote
      policy =>
    .withdraw ⟨proof, publicInputs, nullifier, destination, grossAmount, encryptedOutputNote,
      policy, c.selector⟩
  | .fee op => .fee op
  | .sweepFees destination amount => .sweepFees destination amount

section Code
variable (env : Env) (verify : Verify)

/-- A function that takes no ether rejects it. -/
def requirePayable (msg : Msg) (call : Call) : Result Unit :=
  if call.payable ∨ msg.value = 0 then .ok () else .error .nonPayable

/-- The ether sent along moves before the code runs. -/
def payIn (w : World) (msg : Msg) : Result World :=
  if msg.value ≤ w.balances msg.sender then
    .ok { w with balances := transfer w.balances msg.sender env.this msg.value }
  else .error .insufficientBalance

/-- `_nonReentrantBefore`. -/
def nonReentrantBefore (w : World) : Result World :=
  if w.pool.entered then .error .reentrancyGuardReentrantCall
  else .ok { w with pool := { w.pool with entered := true } }

/-- `_nonReentrantAfter`. -/
def nonReentrantAfter (w : World) : World := { w with pool := { w.pool with entered := false } }

def runAction (w : World) (msg : Msg) : Action → Result (World × Option Pending)
  | .rejected text => .error (.reason text)
  | .deposit proof publicInputs encryptedNote selector => do
    let w ← nonReentrantBefore w
    let w ← depositWithProof env verify w msg proof publicInputs encryptedNote selector
    return (nonReentrantAfter w, none)
  | .privateTransfer a => do
    let w ← privateTransfer env verify w msg a
    return (w, none)
  | .withdraw a => do
    let w ← nonReentrantBefore w
    let (w, pending) ← withdraw env verify w msg a
    return (w, some pending)
  | .fee op => do
    let (fees, events) ←
      runFeeOp env.feeController w.pool.fees ⟨msg.sender, msg.timestamp, op⟩
    return ({ w with pool := { w.pool with fees }, logs := w.logs ++ events }, none)
  | .sweepFees destination amount => do
    let w ← nonReentrantBefore w
    let (w, pending) ← sweepFees env w msg destination amount
    return (w, some pending)

/-- **A call to the pool**, up to its external call if it makes one. -/
def exec (w : World) (msg : Msg) (call : Call) : Result (World × Option Pending) := do
  requirePayable msg call
  let w ← payIn env w msg
  runAction env verify w msg call.action

/-- **The rest of a call** whose external call returned. -/
def finish (w : World) (p : Pending) : World :=
  nonReentrantAfter { w with logs := w.logs ++ p.events }

end Code

/-! ### The machine -/

/-- The answers the verifier can give. -/
abbrev Answers := Verify → Prop

/-- The steps of one frame: a call that runs to its end, a call that reverts before it calls out,
and anything others do that is not a call to the pool. -/
inductive PoolStep (env : Env) (answers : Answers) : World → World → Prop
  | call {w w' : World} {verify : Verify} {msg : Msg} {call : Call} (hv : answers verify)
      (hsender : msg.sender ≠ env.this) (h : exec env verify w msg call = .ok (w', none)) :
      PoolStep env answers w w'
  | reverted {w : World} {verify : Verify} {msg : Msg} {call : Call} {e : Revert}
      (hv : answers verify) (hsender : msg.sender ≠ env.this)
      (h : exec env verify w msg call = .error e) : PoolStep env answers w w
  | others {w : World} {balances : Address → ℕ}
      (h : w.balances env.this ≤ balances env.this) :
      PoolStep env answers w { w with balances }

/-- A frame opens when the pool calls a destination, or around calls of others that may fail. -/
inductive PoolOpens (env : Env) (answers : Answers) : World → Option Pending → World → Prop
  | call {w w' : World} {verify : Verify} {msg : Msg} {call : Call} {p : Pending}
      (hv : answers verify) (hsender : msg.sender ≠ env.this)
      (h : exec env verify w msg call = .ok (w', some p)) : PoolOpens env answers w (some p) w'
  | others {w : World} : PoolOpens env answers w none w

/-- The destination returns. The pool itself takes no plain ether, so it never does. -/
inductive PoolCloses (env : Env) : Option Pending → World → World → Prop
  | call {w : World} {p : Pending} (h : p.destination ≠ env.this) :
      PoolCloses env (some p) w (finish w p)
  | others {w : World} : PoolCloses env none w w

/-- **The machine of the pool**, for the answers its verifier can give. -/
def pool (env : Env) (answers : Answers) : System World (Option Pending) where
  step := PoolStep env answers
  opens := PoolOpens env answers
  closes := PoolCloses env

/-- **Deployment**: a world the constructor leaves. -/
def Deployed (env : Env) (w : World) : Prop :=
  ∃ verifier poseidon2Address balances,
    construct env.poseidon2 verifier env.feeController poseidon2Address balances = .ok w

/-- **The configurations of the pool**: those its machine reaches from a deployment. -/
def Reachable (env : Env) (answers : Answers) (c : Config World (Option Pending)) : Prop :=
  ∃ w, Deployed env w ∧ Run (pool env answers) ⟨w, []⟩ c

/-! ### Runs that are played -/

/-- What is done next: a call, or the return of the destination that was called last. -/
inductive Move (C : Type)
  | call (msg : Msg) (call : C)
  | returns

/-- **The configuration after a move**: none after a call that fails. -/
def playMove (env : Env) (verify : Verify) :
    Config World (Option Pending) → Move Call → Option (Config World (Option Pending))
  | ⟨w, frames⟩, .call msg call =>
    if msg.sender = env.this then none
    else match exec env verify w msg call with
      | .ok (w', none) => some ⟨w', frames⟩
      | .ok (w', some p) => some ⟨w', ⟨w, some p⟩ :: frames⟩
      | .error _ => none
  | ⟨w, ⟨_, some p⟩ :: frames⟩, .returns =>
    if p.destination = env.this then none else some ⟨finish w p, frames⟩
  | _, .returns => none

theorem step_of_playMove {env : Env} {answers : Answers} {verify : Verify} (hv : answers verify)
    {c : Config World (Option Pending)} {m : Move Call} {c' : Config World (Option Pending)}
    (h : playMove env verify c m = some c') : Step (pool env answers) c c' := by
  rcases c with ⟨w, frames⟩
  cases m with
  | call msg call =>
    simp only [playMove] at h
    split_ifs at h with hsender
    rcases hexec : exec env verify w msg call with e | ⟨w', _ | p⟩
    · rw [hexec] at h
      cases h
    · rw [hexec] at h
      obtain rfl := Option.some.inj h
      exact .step (.call hv hsender hexec)
    · rw [hexec] at h
      obtain rfl := Option.some.inj h
      exact .opens (.call hv hsender hexec)
  | returns =>
    rcases frames with _ | ⟨⟨before, _ | p⟩, frames⟩
    · cases h
    · cases h
    · simp only [playMove] at h
      split_ifs at h with hdestination
      obtain rfl := Option.some.inj h
      exact .closes (.call hdestination)

/-- **What is played from a deployment** is reachable. -/
theorem reachable_of_play {env : Env} {answers : Answers} {verify : Verify} (hv : answers verify)
    {w : World} (hdeployed : Deployed env w) {moves : List (Move Call)}
    {c : Config World (Option Pending)}
    (h : play (playMove env verify) (fun _ => true) ⟨w, []⟩ moves = some c) :
    Reachable env answers c :=
  ⟨w, hdeployed, .of_within (.of_play (G := fun _ => True) (step_of_playMove hv)
    (fun _ _ => trivial) h)⟩

end Nullark.Pool.Calls
