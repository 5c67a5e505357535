import Nullark.Sdk.RecoveryKit

/-! # The runtime of a client and its fee

The runtime says which pool a client talks to, in which order its circuit takes public inputs and,
for a pool whose fee is governed, that the fee is read from the chain.

* `activeFeeBps_of_read`: the rate that is read is the one the pool answers, of at most one percent.
* `isV12UnlinkableRuntime_with`: reading the rates does not change the version. -/

namespace Nullark.Sdk.Runtime

open Nullark.Lib.Outcome
open Nullark.Lib.Hex hiding value Digits ofNat
open Nullark.Core.Proofs (maxSafeInteger)
open Nullark.Js.Basic
open Nullark.Sdk.RecoveryKit

/-! ### The code -/

/-- `NullarkWithdrawPublicInputName`. -/
inductive PublicInputName
  | root
  | nullifier
  | newCommitment
  | outputCommitment
  | destination
  | grossAmount
  | fee
  | chainId
  | verifyingContract
  | spentCommitment
  | noteAmount
  | proofContextHash
  | encryptedNoteHash
  | encryptedOutputNoteHash
  deriving DecidableEq, Repr

def PublicInputName.text : PublicInputName → String
  | .root => "root"
  | .nullifier => "nullifier"
  | .newCommitment => "newCommitment"
  | .outputCommitment => "outputCommitment"
  | .destination => "destination"
  | .grossAmount => "grossAmount"
  | .fee => "fee"
  | .chainId => "chainId"
  | .verifyingContract => "verifyingContract"
  | .spentCommitment => "spentCommitment"
  | .noteAmount => "noteAmount"
  | .proofContextHash => "proofContextHash"
  | .encryptedNoteHash => "encryptedNoteHash"
  | .encryptedOutputNoteHash => "encryptedOutputNoteHash"

/-- `NULLARK_WITHDRAW_PUBLIC_INPUT_ORDER_V1_2`. -/
def nullarkWithdrawPublicInputOrderV12 : List PublicInputName :=
  [.root, .nullifier, .outputCommitment, .destination, .grossAmount, .fee, .chainId,
    .verifyingContract, .proofContextHash, .encryptedOutputNoteHash]

inductive RuntimeSchema
  | currentV1
  | v12CandidateV1
  deriving DecidableEq, Repr

structure PendingFeeState where
  pendingFeeBps : Option ℤ
  pendingFeeActivationTime : Option Text
  source : Text

structure NullarkRuntimeFeePolicy where
  activeFeeBps : ℤ
  maxFeeBps : ℤ
  pendingFeeState : Option PendingFeeState

/-- **`NullarkCurrentRuntime`**, as far as a withdrawal reads it. -/
structure NullarkCurrentRuntime extends ClientRuntime where
  schema : RuntimeSchema
  groth16PublicInputOrder : List PublicInputName
  withdrawalFeeBps : ℤ
  maxWithdrawalFeeBps : Option ℤ
  feePolicy : Option NullarkRuntimeFeePolicy

inductive RuntimeWithdrawalFeeSource
  | runtimeStaticV11
  | onChainFeeBps
  deriving DecidableEq, Repr

structure RuntimeWithdrawalFeeState where
  activeFeeBps : ℕ
  maxFeeBps : ℕ
  pendingFeeBps : Option ℕ
  pendingFeeActivationTime : Option Text
  source : RuntimeWithdrawalFeeSource

/-- What a node answers, as `viem` decodes it. -/
inductive ContractValue
  | bigint (value : ℤ)
  | number (value : ℤ)
  | other

/-- `RuntimeFeeReadFunctionName`. -/
inductive FeeRead
  | feeBps
  | maxFeeBps
  | pendingFeeBps
  | pendingFeeActivationTime

/-- **`RuntimeFeeReadContractClient`**: it reads a value of the contract at an address. -/
structure FeeReadClient where
  readContract : Text → FeeRead → Throws ContractValue

def nullarkV12MaxWithdrawalFeeBps : ℕ := 100

def normalizeFeeBps (value : ℤ) (label : String) : Throws ℕ := do
  ensure (0 ≤ value ∧ value ≤ maxSafeInteger)
    ("Nullark SDK runtime " ++ label ++ " must be a nonnegative safe integer.")
  return value.toNat

def normalizeChainUint (value : ContractValue) (label : String) : Throws ℕ :=
  let message := "Nullark SDK on-chain " ++ label ++ " must be a nonnegative integer."
  match value with
  | .bigint value => do
    ensure (0 ≤ value) message
    return value.toNat
  | .number value => do
    ensure (0 ≤ value ∧ value ≤ maxSafeInteger) message
    return value.toNat
  | .other => .error message

def normalizeChainFeeBps (value : ContractValue) (label : String) : Throws ℕ := do
  let parsed ← normalizeChainUint value label
  ensure (parsed ≤ maxSafeInteger) ("Nullark SDK on-chain " ++ label ++ " must be a safe integer.")
  normalizeFeeBps parsed label

section Code
variable (isDate : Text → Bool) (isoDate : ℕ → Throws Text)

/-- The pending rate of a policy, if it has one. -/
def normalizePendingFeeBps (maxFeeBps : ℕ) : Option ℤ → Throws (Option ℕ)
  | none => .ok none
  | some value => do
    let pendingFeeBps ← normalizeFeeBps value "pending withdrawal fee bps"
    ensure (pendingFeeBps ≤ maxFeeBps) "pending withdrawal fee bps cannot exceed max fee bps"
    return some pendingFeeBps

/-- The rates of a policy. -/
def resolvePolicyFeeState (runtime : NullarkCurrentRuntime) (feePolicy : NullarkRuntimeFeePolicy) :
    Throws RuntimeWithdrawalFeeState := do
  let activeFeeBps ← normalizeFeeBps feePolicy.activeFeeBps "active withdrawal fee bps"
  let maxFeeBps ← normalizeFeeBps feePolicy.maxFeeBps "max withdrawal fee bps"
  ensure (maxFeeBps = nullarkV12MaxWithdrawalFeeBps)
    "Nullark SDK runtime max withdrawal fee bps must equal the v1.2 immutable max fee bps."
  ensure (activeFeeBps ≤ maxFeeBps) "active withdrawal fee bps cannot exceed max fee bps"
  let declared ← runtime.maxWithdrawalFeeBps.mapM fun value =>
    normalizeFeeBps value "max withdrawal fee bps"
  ensure (∀ value ∈ declared, value = maxFeeBps)
    "runtime fee policy max fee must match maxWithdrawalFeeBps."
  let pendingFeeBps ← normalizePendingFeeBps maxFeeBps
    (feePolicy.pendingFeeState.bind (·.pendingFeeBps))
  let pendingFeeActivationTime := feePolicy.pendingFeeState.bind (·.pendingFeeActivationTime)
  ensure (∀ time ∈ pendingFeeActivationTime, isDate time = true)
    "pending withdrawal fee activation time must be an ISO timestamp."
  return { activeFeeBps, maxFeeBps, pendingFeeBps, pendingFeeActivationTime
           source := .onChainFeeBps }

/-- **`resolveRuntimeWithdrawalFeeState`**: the rates the runtime itself states. -/
def resolveRuntimeWithdrawalFeeState (runtime : NullarkCurrentRuntime) :
    Throws RuntimeWithdrawalFeeState :=
  match runtime.feePolicy with
  | none => do
    let activeFeeBps ← normalizeFeeBps runtime.withdrawalFeeBps "withdrawal fee bps"
    return { activeFeeBps, maxFeeBps := activeFeeBps, pendingFeeBps := none
             pendingFeeActivationTime := none, source := .runtimeStaticV11 }
  | some feePolicy => resolvePolicyFeeState isDate runtime feePolicy

/-- The time a pending rate becomes active, if one is pending. -/
def activationTime (epochSeconds : ℕ) : Throws (Option Text) :=
  if epochSeconds = 0 then .ok none else some <$> isoDate epochSeconds

/-- The rates a pool answers. -/
def readPoolFeeState (pool : Text) (client : FeeReadClient) : Throws RuntimeWithdrawalFeeState := do
  let activeFeeBps ← client.readContract pool .feeBps
  let maxFeeBps ← client.readContract pool .maxFeeBps
  let pendingFeeBps ← client.readContract pool .pendingFeeBps
  let pendingFeeActivationTime ← client.readContract pool .pendingFeeActivationTime
  let active ← normalizeChainFeeBps activeFeeBps "active withdrawal fee bps"
  let max ← normalizeChainFeeBps maxFeeBps "max withdrawal fee bps"
  ensure (max = nullarkV12MaxWithdrawalFeeBps)
    "Nullark SDK on-chain max withdrawal fee bps must equal the v1.2 immutable max fee bps."
  ensure (active ≤ max) "on-chain active withdrawal fee bps cannot exceed max fee bps."
  let pending ← normalizeChainFeeBps pendingFeeBps "pending withdrawal fee bps"
  ensure (pending ≤ max) "on-chain pending withdrawal fee bps cannot exceed max fee bps."
  let activationEpochSeconds ← normalizeChainUint pendingFeeActivationTime
    "pending withdrawal fee activation time"
  ensure (pending = 0 ↔ activationEpochSeconds = 0)
    "on-chain pending withdrawal fee state must pair fee bps with activation time."
  let pendingFeeActivationTime ← activationTime isoDate activationEpochSeconds
  return { activeFeeBps := active, maxFeeBps := max
           pendingFeeBps := if pending = 0 then none else some pending
           pendingFeeActivationTime, source := .onChainFeeBps }

/-- **`readRuntimeWithdrawalFeeStateFromPool`**. -/
def readRuntimeWithdrawalFeeStateFromPool (runtime : NullarkCurrentRuntime) (client : FeeReadClient) :
    Throws RuntimeWithdrawalFeeState :=
  match runtime.feePolicy with
  | none => resolveRuntimeWithdrawalFeeState isDate runtime
  | some _ => readPoolFeeState isoDate runtime.pool client

/-- The runtime with the rates that were read. -/
def runtimeWithWithdrawalFeeState (runtime : NullarkCurrentRuntime)
    (feeState : RuntimeWithdrawalFeeState) : NullarkCurrentRuntime :=
  match runtime.feePolicy with
  | none => runtime
  | some _ => { runtime with
      withdrawalFeeBps := feeState.activeFeeBps
      maxWithdrawalFeeBps := some feeState.maxFeeBps
      feePolicy := some {
        activeFeeBps := feeState.activeFeeBps
        maxFeeBps := feeState.maxFeeBps
        pendingFeeState := some {
          pendingFeeBps := feeState.pendingFeeBps.map fun value => value
          pendingFeeActivationTime := feeState.pendingFeeActivationTime
          source := "on-chain-feeBps".toList } } }

end Code

def isV12UnlinkableRuntime (runtime : NullarkCurrentRuntime) : Prop :=
  runtime.schema = .v12CandidateV1 ∧ "nullark-v1.2".toList <+: runtime.productVersion ∧
    runtime.groth16PublicInputOrder = nullarkWithdrawPublicInputOrderV12

instance (runtime : NullarkCurrentRuntime) : Decidable (isV12UnlinkableRuntime runtime) :=
  inferInstanceAs (Decidable (_ ∧ _))

/-! ### The rate -/

variable {isDate : Text → Bool} {isoDate : ℕ → Throws Text}

theorem normalizeFeeBps_eq_ok {value : ℤ} {label : String} {n : ℕ} :
    normalizeFeeBps value label = .ok n ↔ value = n ∧ n ≤ maxSafeInteger := by
  simp only [normalizeFeeBps, bind_eq_ok, ensure_eq_ok, exists_const, pure_eq_ok]
  constructor
  · rintro ⟨⟨h0, hmax⟩, rfl⟩
    omega
  · rintro ⟨rfl, hmax⟩
    omega

/-- The value is the number. -/
def ContractValue.Reads : ContractValue → ℕ → Prop
  | .bigint value, n | .number value, n => value = n
  | .other, _ => False

theorem reads_of_normalizeChainFeeBps {value : ContractValue} {label : String} {n : ℕ}
    (h : normalizeChainFeeBps value label = .ok n) : value.Reads n := by
  unfold normalizeChainFeeBps at h
  simp only [bind_eq_ok, ensure_eq_ok, exists_const, normalizeFeeBps_eq_ok] at h
  obtain ⟨parsed, hparsed, -, hn, -⟩ := h
  cases value with
  | bigint value =>
    simp only [normalizeChainUint, bind_eq_ok, ensure_eq_ok, exists_const, pure_eq_ok] at hparsed
    change value = n
    omega
  | number value =>
    simp only [normalizeChainUint, bind_eq_ok, ensure_eq_ok, exists_const, pure_eq_ok] at hparsed
    change value = n
    omega
  | other => cases hparsed

/-- **The rate that is read is the one the pool answers**, of at most one percent. -/
theorem activeFeeBps_of_read {pool : Text} {client : FeeReadClient}
    {feeState : RuntimeWithdrawalFeeState}
    (h : readPoolFeeState isoDate pool client = .ok feeState) :
    feeState.activeFeeBps ≤ 100 ∧
      ∃ value, client.readContract pool .feeBps = .ok value ∧ value.Reads feeState.activeFeeBps := by
  unfold readPoolFeeState at h
  simp only [bind_eq_ok, ensure_eq_ok, exists_const, pure_eq_ok] at h
  obtain ⟨value, hvalue, _, -, _, -, _, -, active, hactive, max, -, hmax, hle, _, -, -, _, -, -, _, -,
    rfl⟩ := h
  have hhundred : nullarkV12MaxWithdrawalFeeBps = 100 := rfl
  exact ⟨by dsimp only; omega, value, hvalue, reads_of_normalizeChainFeeBps hactive⟩

/-- The rates leave the rest of a runtime as it is. -/
theorem runtimeWithWithdrawalFeeState_same (runtime : NullarkCurrentRuntime)
    (feeState : RuntimeWithdrawalFeeState) :
    (runtimeWithWithdrawalFeeState runtime feeState).toClientRuntime = runtime.toClientRuntime ∧
      (runtimeWithWithdrawalFeeState runtime feeState).schema = runtime.schema ∧
      (runtimeWithWithdrawalFeeState runtime feeState).groth16PublicInputOrder =
        runtime.groth16PublicInputOrder := by
  unfold runtimeWithWithdrawalFeeState
  cases runtime.feePolicy <;> exact ⟨rfl, rfl, rfl⟩

theorem isV12UnlinkableRuntime_with {runtime : NullarkCurrentRuntime}
    {feeState : RuntimeWithdrawalFeeState} :
    isV12UnlinkableRuntime (runtimeWithWithdrawalFeeState runtime feeState) ↔
      isV12UnlinkableRuntime runtime := by
  obtain ⟨hclient, hschema, horder⟩ := runtimeWithWithdrawalFeeState_same runtime feeState
  rw [isV12UnlinkableRuntime, hschema, horder, hclient]
  rfl

end Nullark.Sdk.Runtime
