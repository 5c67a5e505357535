import Nullark.Sdk.PrepareWithdrawal

/-! # The session of the command line

The commands of the command line share a session in memory: the recovered notes, the plans of
withdrawals, and the proofs of plans. A command that waits, for notes or for a proof, is finished
later, and others may run in between.

* `runNullarkCli`, `finishCommand`: a command up to where it waits, and the rest of it.
* `assertCliProofBundle_ok`: what the session accepts for a plan.
* `session_sound`: what every run of commands leaves, in whatever order they go on.
* `one_wait_current`: what a run leaves where one command waits at a time.
* `stale_proof_kept`: a proof that is waited for while the notes are recovered outlives its plan. -/

namespace Nullark.Cli.Session

open Nullark.Lib Nullark.Lib.Outcome
open Nullark.Lib.Hex hiding value Digits ofNat
open Nullark.Js.Basic Nullark.Js.Bytes Nullark.Js.Numbers Nullark.Js.Package Nullark.Js.Calldata
open Nullark.Js.ContextHashes (zeroBytes32)
open Nullark.Sdk.RecoveryKit Nullark.Sdk.Runtime Nullark.Sdk.Calldata Nullark.Sdk.CalldataBinding
open Nullark.Sdk.PublicInputBinding Nullark.Sdk.PrepareWithdrawal
open Nullark.Relay.WithdrawalCall (StageCArguments stageCWithdrawBoundedParameters length_stageC)

/-! ### Arguments -/

inductive FlagValue
  | present
  | text (t : Text)
  deriving DecidableEq, Repr

/-- **`ParsedArgs`**; of two flags with one name the later one counts. -/
structure ParsedArgs where
  command : List Text
  flags : Text → Option FlagValue

def isFlag (arg : Text) : Prop := ['-', '-'] <+: arg

instance (arg : Text) : Decidable (isFlag arg) := inferInstanceAs (Decidable (_ <+: _))

def ParsedArgs.set (parsed : ParsedArgs) (name : Text) (value : FlagValue) : ParsedArgs :=
  { parsed with flags := Function.update parsed.flags name (some value) }

def ParsedArgs.push (parsed : ParsedArgs) (arg : Text) : ParsedArgs :=
  if arg = [] then parsed else { parsed with command := parsed.command ++ [arg] }

/-- The loop of `parseArgs`. -/
def parseFrom (parsed : ParsedArgs) : List Text → ParsedArgs
  | [] => parsed
  | [arg] => if isFlag arg then parsed.set (arg.drop 2) .present else parsed.push arg
  | arg :: next :: rest =>
    if isFlag arg then
      if next ≠ [] ∧ ¬isFlag next then parseFrom (parsed.set (arg.drop 2) (.text next)) rest
      else parseFrom (parsed.set (arg.drop 2) .present) (next :: rest)
    else parseFrom (parsed.push arg) (next :: rest)

def parseArgs (argv : List Text) : ParsedArgs := parseFrom ⟨[], fun _ => none⟩ argv

section Flags
variable (parsed : ParsedArgs)

def hasFlag (name : String) : Prop := (parsed.flags name.toList).isSome

instance (name : String) : Decidable (hasFlag parsed name) := inferInstanceAs (Decidable (_ = true))

def flagValue (name : String) : Option Text :=
  match parsed.flags name.toList with
  | some (.text t) => some t
  | _ => none

def requiredFlag (name : String) : Throws Text :=
  match flagValue parsed name with
  | some t => if t = [] then .error ("Missing required --" ++ name ++ ".") else .ok t
  | none => .error ("Missing required --" ++ name ++ ".")

def assertNoPrivateMaterialFlags : Throws Unit :=
  ensure (¬(hasFlag parsed "note-secret" ∨ hasFlag parsed "spend-material" ∨
      hasFlag parsed "wallet-signature"))
    "Do not pass note secrets, spend material, or wallet unlock signatures as CLI flags."

inductive NullarkNetwork
  | mainnet
  | testnet
  deriving DecidableEq, Repr

def networkOf (t : Text) : Option NullarkNetwork :=
  if t = "megaeth-mainnet".toList then some .mainnet
  else if t = "megaeth-testnet".toList then some .testnet
  else none

def assertExplicitNetworkFlag : Throws Unit :=
  ensure (((flagValue parsed "network").bind networkOf).isSome)
    ("Use --network megaeth-mainnet or --network megaeth-testnet for CLI note recovery and " ++
      "note-backed withdrawal workflows.")

def networkFromParsed : Throws NullarkNetwork :=
  match flagValue parsed "network" with
  | none => .ok .mainnet
  | some t =>
    match networkOf t with
    | some network => .ok network
    | none => .error "Expected --network to be megaeth-mainnet or megaeth-testnet."

def refusePersistence : Throws Unit :=
  ensure (¬hasFlag parsed "persist-recovered-notes")
    "Recovered note persistence is disabled until encrypted storage exists."

end Flags

/-! ### The runtime -/

structure V12Readiness where
  approvedForMainnet : Bool
  ownerApprovedPromotion : Bool
  promotionEvidence : List Text

structure CliRuntime extends NullarkCurrentRuntime where
  v12Readiness : Option V12Readiness

def isV12Version (productVersion : Text) : Prop :=
  productVersion = "nullark-v1.2".toList ∨ "nullark-v1.2-".toList <+: productVersion

instance (productVersion : Text) : Decidable (isV12Version productVersion) :=
  inferInstanceAs (Decidable (_ ∨ _))

def V12Readiness.approved (r : V12Readiness) : Prop :=
  r.approvedForMainnet = true ∧ r.ownerApprovedPromotion = true ∧ r.promotionEvidence ≠ []

instance (r : V12Readiness) : Decidable r.approved := inferInstanceAs (Decidable (_ ∧ _))

def isRuntimeApprovedV12 (runtime : CliRuntime) : Prop :=
  isV12Version runtime.productVersion ∧ ∃ r ∈ runtime.v12Readiness, r.approved

instance (runtime : CliRuntime) : Decidable (isRuntimeApprovedV12 runtime) :=
  inferInstanceAs (Decidable (_ ∧ _))

def assertV12CandidateRuntimeBlocked (runtime : CliRuntime) : Throws Unit :=
  ensure (¬(runtime.chainId = 4326 ∧ ¬isRuntimeApprovedV12 runtime ∧
      (isV12Version runtime.productVersion ∨
        runtime.groth16PublicInputOrder = nullarkWithdrawPublicInputOrderV12)))
    ("v1.2 CLI runtime is blocked as draft until package-pinned promotion evidence and v1.2 " ++
      "readiness gates are satisfied.")

inductive WithdrawProofPublicInputSchema
  | v11
  | v12Unlinkable
  deriving DecidableEq, Repr

def withdrawPublicInputSchemaForRuntime (runtime : CliRuntime) : WithdrawProofPublicInputSchema :=
  if runtime.groth16PublicInputOrder = nullarkWithdrawPublicInputOrderV12 then .v12Unlinkable
  else .v11

/-! ### Plans and proofs -/

inductive SubmitVia
  | relayer
  | wallet
  deriving DecidableEq, Repr

structure CliWithdrawalPlan where
  id : Text
  noteId : Text
  destination : Text
  grossAmountWei : Text
  feeWei : Text
  netAmountWei : Text
  chainId : ℕ
  pool : Text
  publicInputSchema : WithdrawProofPublicInputSchema
  submitVia : SubmitVia

/-- **`CliProofBundlePrivate`**. -/
structure CliProofBundle where
  id : Text
  planId : Text
  proof : Text
  publicInputs : List Text
  nullifier : Text
  calldata : Text
  currentRoot : Text
  publicInputSchema : Option WithdrawProofPublicInputSchema
  submitVia : SubmitVia

structure NullarkCliSession where
  recoveredNotes : List RecoveredWalletNote
  withdrawalPlans : List CliWithdrawalPlan
  proofBundles : List CliProofBundle

def createNullarkCliSession : NullarkCliSession := ⟨[], [], []⟩

section Code
variable (v : Viem) (d : Decoder) (runtimeForNetwork : NullarkNetwork → CliRuntime)

def runtimeForParsedNetwork (parsed : ParsedArgs) : Throws CliRuntime := do
  let network ← networkFromParsed parsed
  assertV12CandidateRuntimeBlocked (runtimeForNetwork network)
  return runtimeForNetwork network

def submitViaOf (parsed : ParsedArgs) : Throws SubmitVia :=
  match flagValue parsed "submit-via" with
  | none => .ok .relayer
  | some t =>
    if t = "relayer".toList then .ok .relayer
    else if t = "wallet".toList then .ok .wallet
    else .error "Expected --submit-via to be relayer or wallet."

def findNote (notes : List RecoveredWalletNote) (noteId : Text) : Option RecoveredWalletNote :=
  notes.find? fun candidate => candidate.summary.id = noteId

def noteOrThrow (notes : List RecoveredWalletNote) (noteId : Text) (message : String) :
    Throws RecoveredWalletNote :=
  match findNote notes noteId with
  | some note => .ok note
  | none => .error message

/-- The number behind `plan_`. -/
def planId (n : ℕ) : Text := "plan_".toList ++ Decimal.ofNat n

/-- **`buildNoteBackedWithdrawPlan`**, with the plan it adds. -/
def buildNoteBackedWithdrawPlan (parsed : ParsedArgs) (session : NullarkCliSession) :
    Throws CliWithdrawalPlan := do
  assertExplicitNetworkFlag parsed
  let noteId ← requiredFlag parsed "note"
  let destination ← requiredFlag parsed "to"
  let amount ← requiredFlag parsed "amount"
  let submitVia ← submitViaOf parsed
  let note ← noteOrThrow session.recoveredNotes noteId
    "Recovered note id is not available in the memory-only CLI session."
  ensure (¬note.summary.spent) "Recovered note is already spent."
  ensure (isEvmAddress destination) "Expected withdrawal destination to be an EVM address."
  let grossAmountWei := if amount = "max".toList then note.summary.amountWei else amount
  ensure (Decimal.isDecimal grossAmountWei ∧ 0 < Decimal.value grossAmountWei)
    "Expected withdrawal amount to be max or a positive decimal wei amount."
  let noteAmount ← stringToBigInt note.summary.amountWei
  ensure ((Decimal.value grossAmountWei : ℤ) ≤ noteAmount)
    "Withdrawal amount exceeds the selected recovered note."
  let runtime ← runtimeForParsedNetwork runtimeForNetwork parsed
  let fee := (Decimal.value grossAmountWei * runtime.withdrawalFeeBps).tdiv 10000
  return { id := planId (session.withdrawalPlans.length + 1)
           noteId, destination, grossAmountWei, submitVia
           feeWei := toString10 fee
           netAmountWei := toString10 (Decimal.value grossAmountWei - fee)
           chainId := runtime.chainId
           pool := runtime.pool
           publicInputSchema := withdrawPublicInputSchemaForRuntime runtime }

def isProofId (t : Text) : Prop :=
  "proof_".toList <+: t ∧ t.drop 6 ≠ [] ∧ ∀ c ∈ t.drop 6, c.isAlphanum ∨ c = '_' ∨ c = '-'

instance (t : Text) : Decidable (isProofId t) := inferInstanceAs (Decidable (_ ∧ _))

/-- What the public inputs of a bundle are compared with. -/
def publicInputsFor (proof : CliProofBundle) (plan : CliWithdrawalPlan)
    (outputCommitment : Option Text) : V12UnlinkableWithdrawPublicInputBinding where
  publicInputs := proof.publicInputs
  nullifier := proof.nullifier
  destination := plan.destination
  grossAmountWei := plan.grossAmountWei
  currentRoot := proof.currentRoot
  outputCommitment := outputCommitment
  expectedPool := plan.pool
  expectedChainId := if plan.chainId = 6343 then 6343 else megaethMainnetChainId

/-- What the calldata of a bundle is compared with. -/
def calldataFor (proof : CliProofBundle) (plan : CliWithdrawalPlan) : WithdrawCalldataBinding where
  publicInputs := proof.publicInputs
  nullifier := proof.nullifier
  destination := plan.destination
  grossAmountWei := plan.grossAmountWei
  minNetAmountWei := plan.netAmountWei
  maxFeeWei := plan.feeWei

/-- `assertV12StageCWithdrawCalldataBinding`. -/
def assertV12StageCWithdrawCalldataBinding (proof : CliProofBundle) (plan : CliWithdrawalPlan) :
    Throws Unit := do
  let decoded ← decodeStageCWithdrawCalldata v d proof.calldata
  ensure (decoded.publicInputs.length = 10 ∧ ∀ entry ∈ decoded.publicInputs.zipIdx,
      proof.publicInputs[entry.2]?.map lower = some (lower entry.1))
    "Withdrawal calldata public inputs do not match the proof bundle."
  ensure (lower decoded.nullifier = lower proof.nullifier)
    "Withdrawal calldata nullifier does not match the proof bundle."
  ensure (lower decoded.destination = lower plan.destination)
    "Withdrawal calldata destination does not match the withdrawal plan."
  ensure (decoded.grossAmountWei = plan.grossAmountWei)
    "Withdrawal calldata amount does not match the withdrawal plan."
  ensure (decoded.minNetAmountWei = plan.netAmountWei ∧ decoded.maxFeeWei = plan.feeWei)
    "Withdrawal calldata fee bounds do not match the withdrawal plan."
  ensure (decoded.encryptedChangeNote ≠ "0x".toList)
    "v1.2 unlinkable withdrawal calldata must include an encrypted output note."
  ensure (lower decoded.encryptedChangeNote ≠ "0x00".toList)
    "v1.2 unlinkable withdrawal calldata must include a real encrypted output note."

def expectedPublicInputCount : WithdrawProofPublicInputSchema → ℕ
  | .v11 => 12
  | .v12Unlinkable => 10

/-- **`assertCliProofBundle`**. -/
def assertCliProofBundle (proof : CliProofBundle) (plan : CliWithdrawalPlan) :
    Throws CliProofBundle := do
  ensure (isProofId proof.id) "Trusted prover adapter returned an invalid proof id."
  ensure (proof.planId = plan.id)
    "Trusted prover adapter returned a proof for the wrong withdrawal plan."
  ensure (proof.submitVia = plan.submitVia)
    "Trusted prover adapter returned a proof with the wrong submit path."
  ensure (isHexString proof.proof) "Trusted prover adapter returned malformed proof bytes."
  ensure (isHexBytes32 proof.nullifier ∧ isHexBytes32 proof.currentRoot)
    "Trusted prover adapter returned malformed proof root or nullifier."
  ensure (∀ schema ∈ proof.publicInputSchema, schema = plan.publicInputSchema)
    "Trusted prover adapter returned a proof with the wrong public input schema."
  ensure (proof.publicInputs.length = expectedPublicInputCount plan.publicInputSchema ∧
      ∀ input ∈ proof.publicInputs, isHexBytes32 input)
    "Trusted prover adapter returned malformed withdrawal public inputs."
  match plan.publicInputSchema with
  | .v12Unlinkable =>
    ensure (proof.publicInputs[2]?.map lower ≠ some zeroBytes32)
      "v1.2 unlinkable withdrawal output commitment must be nonzero."
    assertV12UnlinkableWithdrawPublicInputBinding
      (publicInputsFor proof plan proof.publicInputs[2]?)
    assertV12StageCWithdrawCalldataBinding v d proof plan
  | .v11 =>
    assertWithdrawPublicInputBinding (publicInputsFor proof plan none)
    let _ ← assertStageCWithdrawCalldataBinding v d proof.calldata (calldataFor proof plan)
  return proof

/-! ### Commands -/

/-- What a command waits for. -/
inductive Pending
  | recover
  | importKit
  | prove (plan : CliWithdrawalPlan)

/-- What a command comes to: the session, what it waits for, and the plan that was added. -/
structure Begun where
  session : NullarkCliSession
  pending : Option Pending
  issued : Option CliWithdrawalPlan

/-- **`recoverNotes`**, up to the recovery. -/
def recoverNotes (parsed : ParsedArgs) (session : NullarkCliSession) : Throws Begun := do
  assertExplicitNetworkFlag parsed
  refusePersistence parsed
  let _ ← requiredFlag parsed "wallet"
  return ⟨session, some .recover, none⟩

/-- **`importRecoveryKit`**, up to the file. -/
def importRecoveryKit (parsed : ParsedArgs) (session : NullarkCliSession) : Throws Begun := do
  assertExplicitNetworkFlag parsed
  refusePersistence parsed
  let _ ← requiredFlag parsed "kit-file"
  let _ ← runtimeForParsedNetwork runtimeForNetwork parsed
  return ⟨session, some .importKit, none⟩

/-- **`buildWithdrawPlan`**; a plan of calldata is printed only. -/
def buildWithdrawPlan (parsed : ParsedArgs) (session : NullarkCliSession) : Throws Begun := do
  let _ ← runtimeForParsedNetwork runtimeForNetwork parsed
  refusePersistence parsed
  if hasFlag parsed "note" then
    let plan ← buildNoteBackedWithdrawPlan runtimeForNetwork parsed session
    return ⟨{ session with withdrawalPlans := session.withdrawalPlans ++ [plan] }, none, some plan⟩
  else
    return ⟨session, none, none⟩

def planOrThrow (plans : List CliWithdrawalPlan) (id : Text) : Throws CliWithdrawalPlan :=
  match plans.find? fun candidate => candidate.id = id with
  | some plan => .ok plan
  | none => .error "Withdrawal plan id is not available in the memory-only CLI session."

/-- **`proveWithdraw`**, up to the proof. -/
def proveWithdraw (parsed : ParsedArgs) (session : NullarkCliSession) : Throws Begun := do
  assertExplicitNetworkFlag parsed
  let id ← requiredFlag parsed "plan"
  let plan ← planOrThrow session.withdrawalPlans id
  let _ ← noteOrThrow session.recoveredNotes plan.noteId
    "Recovered note for withdrawal plan is not available in the memory-only CLI session."
  return ⟨session, some (.prove plan), none⟩

/-- **`runNullarkCli`**, up to where it waits. The other commands leave the session as it is,
whether they print or throw. -/
def runNullarkCli (argv : List Text) (session : NullarkCliSession) : Throws Begun := do
  let parsed := parseArgs argv
  assertNoPrivateMaterialFlags parsed
  let name := parsed.command[0]?
  let action := parsed.command[1]?
  if name = none ∨ name = some "help".toList ∨ hasFlag parsed "help" then
    return ⟨session, none, none⟩
  else if name = some "notes".toList ∧ action = some "recover".toList then
    recoverNotes parsed session
  else if name = some "notes".toList ∧ action = some "import-kit".toList then
    importRecoveryKit runtimeForNetwork parsed session
  else if name = some "withdraw".toList ∧ action = some "plan".toList then
    buildWithdrawPlan runtimeForNetwork parsed session
  else if name = some "withdraw".toList ∧ action = some "prove".toList then
    proveWithdraw parsed session
  else
    return ⟨session, none, none⟩

/-- What a command waited for. -/
inductive Answer : Pending → Type
  | notes (recovered : Throws (List RecoveredWalletNote)) : Answer .recover
  | note (imported : Throws RecoveredWalletNote) : Answer .importKit
  | proof (plan : CliWithdrawalPlan) (proved : Throws CliProofBundle) : Answer (.prove plan)

/-- The rest of a command, on the session as it is by then. -/
def finishCommand (session : NullarkCliSession) :
    {p : Pending} → Answer p → Throws NullarkCliSession
  | _, .notes recovered => do
    let notes ← recovered
    return ⟨notes, [], []⟩
  | _, .note imported => do
    let note ← imported
    return ⟨session.recoveredNotes.filter (fun candidate => candidate.summary.id ≠ note.summary.id)
      ++ [note], [], []⟩
  | _, .proof plan proved => do
    let proof ← proved
    let proof ← assertCliProofBundle v d proof plan
    return { session with
      proofBundles := session.proofBundles.filter (fun candidate => candidate.planId ≠ plan.id) ++
        [proof] }

/-! ### Runs -/

/-- The session and the commands that wait; `issued` keeps every plan there has been. -/
structure State where
  session : NullarkCliSession
  pending : List Pending
  issued : List CliWithdrawalPlan

def start : State := ⟨createNullarkCliSession, [], []⟩

/-- A command that throws leaves the session as it was. -/
def left (session : NullarkCliSession) : Throws NullarkCliSession → NullarkCliSession
  | .ok after => after
  | .error _ => session

/-- A command begins, or one that waits is answered. -/
inductive Step : State → State → Prop
  | begins {s : State} {argv : List Text} {b : Begun}
      (h : runNullarkCli runtimeForNetwork argv s.session = .ok b) :
    Step s ⟨b.session, s.pending ++ b.pending.toList, s.issued ++ b.issued.toList⟩
  | answered {s : State} {before after : List Pending} {p : Pending} (a : Answer p)
      (h : s.pending = before ++ p :: after) :
    Step s ⟨left s.session (finishCommand v d s.session a), before ++ after, s.issued⟩

def Reachable : State → Prop := Relation.ReflTransGen (Step v d runtimeForNetwork) start

/-- A step after which at most one command waits. -/
def OneWait (s s' : State) : Prop := Step v d runtimeForNetwork s s' ∧ s'.pending.length ≤ 1

def ReachableOneWait : State → Prop :=
  Relation.ReflTransGen (OneWait v d runtimeForNetwork) start

end Code

/-! ### Plans -/

/-- Where the amounts, the chain and the pool of a plan come from. -/
structure Priced (runtime : CliRuntime) (plan : CliWithdrawalPlan) : Prop where
  fee : plan.feeWei =
    toString10 ((Decimal.value plan.grossAmountWei * runtime.withdrawalFeeBps).tdiv 10000)
  net : plan.netAmountWei = toString10 (Decimal.value plan.grossAmountWei -
    (Decimal.value plan.grossAmountWei * runtime.withdrawalFeeBps).tdiv 10000)
  chainId : plan.chainId = runtime.chainId
  pool : plan.pool = runtime.pool
  schema : plan.publicInputSchema = withdrawPublicInputSchemaForRuntime runtime
  allowed : assertV12CandidateRuntimeBlocked runtime = .ok ()

/-- A plan of the command line. -/
structure Issued (runtimeForNetwork : NullarkNetwork → CliRuntime) (plan : CliWithdrawalPlan) :
    Prop where
  destination : isEvmAddress plan.destination
  decimal : Decimal.isDecimal plan.grossAmountWei
  pos : 0 < Decimal.value plan.grossAmountWei
  priced : ∃ network, Priced (runtimeForNetwork network) plan

/-- The plan spends one of the notes, that is unspent and has the amount. -/
def Backed (notes : List RecoveredWalletNote) (plan : CliWithdrawalPlan) : Prop :=
  ∃ note ∈ notes, note.summary.id = plan.noteId ∧ note.summary.spent = false ∧
    ∃ amount, stringToBigInt note.summary.amountWei = .ok amount ∧
      (Decimal.value plan.grossAmountWei : ℤ) ≤ amount

theorem noteOrThrow_eq_ok {notes : List RecoveredWalletNote} {noteId : Text} {message : String}
    {note : RecoveredWalletNote} (h : noteOrThrow notes noteId message = .ok note) :
    note ∈ notes ∧ note.summary.id = noteId := by
  unfold noteOrThrow findNote at h
  split at h
  · next found hfound =>
    obtain rfl := Except.ok.inj h
    have hid := List.find?_some hfound
    exact ⟨List.mem_of_find?_eq_some hfound, of_decide_eq_true hid⟩
  · cases h

theorem planOrThrow_eq_ok {plans : List CliWithdrawalPlan} {id : Text} {plan : CliWithdrawalPlan}
    (h : planOrThrow plans id = .ok plan) : plan ∈ plans := by
  unfold planOrThrow at h
  split at h
  · next found hfound =>
    obtain rfl := Except.ok.inj h
    exact List.mem_of_find?_eq_some hfound
  · cases h

section Plans
variable {runtimeForNetwork : NullarkNetwork → CliRuntime} {parsed : ParsedArgs}
  {session : NullarkCliSession}

theorem runtimeForParsedNetwork_eq_ok {runtime : CliRuntime}
    (h : runtimeForParsedNetwork runtimeForNetwork parsed = .ok runtime) :
    (∃ network, runtime = runtimeForNetwork network) ∧
      assertV12CandidateRuntimeBlocked runtime = .ok () := by
  unfold runtimeForParsedNetwork at h
  obtain ⟨network, -, h⟩ := bind_eq_ok.mp h
  obtain ⟨_, hallowed, h⟩ := bind_eq_ok.mp h
  obtain rfl := pure_eq_ok.mp h
  exact ⟨⟨network, rfl⟩, hallowed⟩

/-- **The plan that is added.** -/
theorem buildNoteBackedWithdrawPlan_ok {plan : CliWithdrawalPlan}
    (h : buildNoteBackedWithdrawPlan runtimeForNetwork parsed session = .ok plan) :
    plan.id = planId (session.withdrawalPlans.length + 1) ∧ Issued runtimeForNetwork plan ∧
      Backed session.recoveredNotes plan := by
  unfold buildNoteBackedWithdrawPlan at h
  simp only [bind_eq_ok, ensure_eq_ok, exists_const, pure_eq_ok] at h
  obtain ⟨_, -, noteId, -, destination, -, amount, -, submitVia, -, note, hnote, hunspent,
    hdestination, ⟨hdecimal, hpos⟩, noteAmount, hamount, hle, runtime, hruntime, rfl⟩ := h
  obtain ⟨hmem, hid⟩ := noteOrThrow_eq_ok hnote
  obtain ⟨⟨network, rfl⟩, hallowed⟩ := runtimeForParsedNetwork_eq_ok hruntime
  exact ⟨rfl, ⟨hdestination, hdecimal, hpos, network, rfl, rfl, rfl, rfl, rfl, hallowed⟩, note,
    hmem, hid, Bool.eq_false_iff.mpr hunspent, noteAmount, hamount, hle⟩

/-- **What a command comes to**: it adds a plan, or leaves the session as it is. -/
theorem runNullarkCli_ok {argv : List Text} {b : Begun}
    (h : runNullarkCli runtimeForNetwork argv session = .ok b) :
    (b.session = session ∧ b.issued = none ∧
        ∀ plan, b.pending = some (.prove plan) → plan ∈ session.withdrawalPlans) ∨
      ∃ plan, buildNoteBackedWithdrawPlan runtimeForNetwork (parseArgs argv) session = .ok plan ∧
        b = ⟨{ session with withdrawalPlans := session.withdrawalPlans ++ [plan] }, none,
          some plan⟩ := by
  unfold runNullarkCli at h
  obtain ⟨_, -, h⟩ := bind_eq_ok.mp h
  dsimp only at h
  split_ifs at h
  · obtain rfl := pure_eq_ok.mp h
    exact .inl ⟨rfl, rfl, fun _ hp => nomatch hp⟩
  · unfold recoverNotes at h
    simp only [bind_eq_ok, pure_eq_ok] at h
    obtain ⟨_, -, _, -, _, -, rfl⟩ := h
    exact .inl ⟨rfl, rfl, fun _ hp => nomatch hp⟩
  · unfold importRecoveryKit at h
    simp only [bind_eq_ok, pure_eq_ok] at h
    obtain ⟨_, -, _, -, _, -, _, -, rfl⟩ := h
    exact .inl ⟨rfl, rfl, fun _ hp => nomatch hp⟩
  · unfold buildWithdrawPlan at h
    obtain ⟨_, -, h⟩ := bind_eq_ok.mp h
    obtain ⟨_, -, h⟩ := bind_eq_ok.mp h
    split_ifs at h
    · obtain ⟨plan, hplan, h⟩ := bind_eq_ok.mp h
      exact .inr ⟨plan, hplan, (pure_eq_ok.mp h).symm⟩
    · obtain rfl := pure_eq_ok.mp h
      exact .inl ⟨rfl, rfl, fun _ hp => nomatch hp⟩
  · unfold proveWithdraw at h
    simp only [bind_eq_ok, pure_eq_ok] at h
    obtain ⟨_, -, _, -, plan, hplan, _, -, rfl⟩ := h
    refine .inl ⟨rfl, rfl, fun other hother => ?_⟩
    obtain rfl : plan = other := by cases hother; rfl
    exact planOrThrow_eq_ok hplan
  · obtain rfl := pure_eq_ok.mp h
    exact .inl ⟨rfl, rfl, fun _ hp => nomatch hp⟩

end Plans

theorem planId_injective : Function.Injective planId := fun a b h => by
  unfold planId at h
  exact Decimal.ofNat_injective (List.append_cancel_left h)

/-! ### Proofs of plans -/

/-- The public inputs that both layouts share are those of the proof and of the plan. -/
structure NamesPlan (proof : CliProofBundle) (plan : CliWithdrawalPlan) : Prop where
  root : lower (slot proof.publicInputs 0) = lower proof.currentRoot
  nullifier : lower (slot proof.publicInputs 1) = lower proof.nullifier
  destination : lower (bytes32ToEvmAddress (slot proof.publicInputs 3)) = lower plan.destination
  grossAmount : hexNat (slot proof.publicInputs 4) = Decimal.value plan.grossAmountWei
  chainId : hexNat (slot proof.publicInputs 6) =
    if plan.chainId = 6343 then 6343 else megaethMainnetChainId
  pool : lower (bytes32ToEvmAddress (slot proof.publicInputs 7)) = lower plan.pool

/-- **The proof is one for the plan**: its public inputs name the plan, and its calldata withdraws
what the plan says. -/
structure Binds (v : Viem) (d : Decoder) (proof : CliProofBundle) (plan : CliWithdrawalPlan) :
    Prop where
  planId : proof.planId = plan.id
  submitVia : proof.submitVia = plan.submitVia
  count : proof.publicInputs.length = expectedPublicInputCount plan.publicInputSchema
  names : NamesPlan proof plan
  calldata : ∃ c, decodeStageCWithdrawCalldata v d proof.calldata = .ok c ∧
    FirstInputs c (calldataFor proof plan) ∧ SameFields c (calldataFor proof plan)

theorem trim_toString10 (value : ℤ) : trim (toString10 value) = toString10 value := by
  cases value with
  | ofNat n => exact trim_ofNat n
  | negSucc n =>
    refine trim_eq_self fun c hc => ?_
    rcases List.mem_cons.mp hc with rfl | hc
    · decide
    · exact isWhiteSpace_of_isDigit (decimal_isDigit ((Decimal.isDecimal_ofNat _).2 c hc)).1

section Proofs
variable {v : Viem} {d : Decoder} {runtimeForNetwork : NullarkNetwork → CliRuntime}
  {proof : CliProofBundle} {plan : CliWithdrawalPlan}

/-- The texts of a plan have no white space around them. -/
theorem Issued.trimmed (h : Issued runtimeForNetwork plan) :
    trim plan.destination = plan.destination ∧ trim plan.grossAmountWei = plan.grossAmountWei ∧
      trim plan.netAmountWei = plan.netAmountWei ∧ trim plan.feeWei = plan.feeWei := by
  obtain ⟨network, hpriced⟩ := h.priced
  refine ⟨trim_of_isHexOfLength h.destination, trim_of_isDecimal h.decimal, ?_, ?_⟩
  · rw [hpriced.net, trim_toString10]
  · rw [hpriced.fee, trim_toString10]

theorem namesPlan_v12 (hissued : Issued runtimeForNetwork plan) {commitment : Option Text}
    {u : Unit} (h : assertV12UnlinkableWithdrawPublicInputBinding
      (publicInputsFor proof plan commitment) = .ok u) : NamesPlan proof plan := by
  have hagrees := assertV12UnlinkableWithdrawPublicInputBinding_eq_ok.mp h
  obtain ⟨hdestination, hgross, -, -⟩ := hissued.trimmed
  exact {
    root := hagrees.root
    nullifier := hagrees.nullifier
    destination := hagrees.destination.trans (congrArg lower hdestination)
    grossAmount := hagrees.grossAmount.trans (congrArg Decimal.value hgross)
    chainId := hagrees.chainId
    pool := hagrees.verifyingContract }

theorem namesPlan_v11 (hissued : Issued runtimeForNetwork plan) {u : Unit}
    (h : assertWithdrawPublicInputBinding (publicInputsFor proof plan none) = .ok u) :
    NamesPlan proof plan := by
  obtain ⟨hdestination, hgross, -, -⟩ := hissued.trimmed
  unfold assertWithdrawPublicInputBinding at h
  simp only [bind_eq_ok, assertPublicInputs_eq_ok, assertBytes32_eq_ok, assertAddress_eq_ok,
    normalizeDecimalUint256_eq_ok, ensure_eq_ok, exists_const] at h
  obtain ⟨_, ⟨-, -, rfl⟩, _, ⟨-, rfl⟩, _, ⟨-, rfl⟩, _, ⟨-, rfl⟩, _, ⟨-, rfl⟩, _, ⟨-, rfl⟩, -, hroot,
    hnullifier, -, -, hto, hamount, hchain, hpool, -⟩ := h
  exact {
    root := hroot
    nullifier := hnullifier
    destination := hto.trans (congrArg lower hdestination)
    grossAmount := hamount.trans (congrArg Decimal.value hgross)
    chainId := hchain
    pool := hpool }

theorem sameCall_v12 (hissued : Issued runtimeForNetwork plan) {u : Unit}
    (h : assertV12StageCWithdrawCalldataBinding v d proof plan = .ok u) :
    ∃ c, decodeStageCWithdrawCalldata v d proof.calldata = .ok c ∧
      FirstInputs c (calldataFor proof plan) ∧ SameFields c (calldataFor proof plan) := by
  obtain ⟨hdestination, hgross, hnet, hfee⟩ := hissued.trimmed
  unfold assertV12StageCWithdrawCalldataBinding at h
  simp only [bind_eq_ok, ensure_eq_ok, exists_const, forall_zipIdx_iff_prefix] at h
  obtain ⟨c, hc, ⟨-, hinputs⟩, hnullifier, hto, hamount, ⟨hmin, hmax⟩, -⟩ := h
  refine ⟨c, hc, hinputs, hnullifier, ?_, ?_, ?_, ?_⟩
  · exact hto.trans (congrArg lower hdestination.symm)
  · exact congrArg Decimal.value (hamount.trans hgross.symm)
  · exact congrArg Decimal.value (hmin.trans hnet.symm)
  · exact congrArg Decimal.value (hmax.trans hfee.symm)

/-- **What the session accepts for a plan.** -/
theorem assertCliProofBundle_ok (hissued : Issued runtimeForNetwork plan) {r : CliProofBundle}
    (h : assertCliProofBundle v d proof plan = .ok r) : r = proof ∧ Binds v d proof plan := by
  unfold assertCliProofBundle at h
  simp only [bind_eq_ok, ensure_eq_ok, exists_const] at h
  obtain ⟨-, hplan, hvia, -, -, -, ⟨hcount, -⟩, h⟩ := h
  cases hschema : plan.publicInputSchema with
  | v12Unlinkable =>
    rw [hschema] at h
    simp only [bind_eq_ok, ensure_eq_ok, exists_const, pure_eq_ok] at h
    obtain ⟨-, _, hnames, _, hcall, rfl⟩ := h
    exact ⟨rfl, hplan, hvia, hcount, namesPlan_v12 hissued hnames, sameCall_v12 hissued hcall⟩
  | v11 =>
    rw [hschema] at h
    simp only [bind_eq_ok, pure_eq_ok] at h
    obtain ⟨_, hnames, _, hcall, rfl⟩ := h
    obtain ⟨⟨c, hc, -, hinputs, hfields⟩, -⟩ := assertStageCWithdrawCalldataBinding_eq_ok.mp hcall
    exact ⟨rfl, hplan, hvia, hcount, namesPlan_v11 hissued hnames, c, hc, hinputs, hfields⟩

end Proofs

/-! ### What a run leaves -/

section Runs
variable {v : Viem} {d : Decoder} {runtimeForNetwork : NullarkNetwork → CliRuntime}

/-- The plans of a session are numbered, and each spends a note of the session. -/
structure PlansSound (runtimeForNetwork : NullarkNetwork → CliRuntime)
    (session : NullarkCliSession) : Prop where
  ids : session.withdrawalPlans.map (·.id) =
    (List.range session.withdrawalPlans.length).map fun i => planId (i + 1)
  issued : ∀ plan ∈ session.withdrawalPlans, Issued runtimeForNetwork plan
  backed : ∀ plan ∈ session.withdrawalPlans, Backed session.recoveredNotes plan

/-- **The invariant of the session.** -/
structure Sound (v : Viem) (d : Decoder) (runtimeForNetwork : NullarkNetwork → CliRuntime)
    (s : State) : Prop where
  plans : PlansSound runtimeForNetwork s.session
  kept : ∀ plan ∈ s.session.withdrawalPlans, plan ∈ s.issued
  issued : ∀ plan ∈ s.issued, Issued runtimeForNetwork plan
  pending : ∀ plan, Pending.prove plan ∈ s.pending → plan ∈ s.issued
  distinct : (s.session.proofBundles.map (·.planId)).Nodup
  bound : ∀ proof ∈ s.session.proofBundles, ∃ plan ∈ s.issued, Binds v d proof plan

/-- A session with no plans and no proofs. -/
theorem plansSound_empty (notes : List RecoveredWalletNote) :
    PlansSound runtimeForNetwork ⟨notes, [], []⟩ :=
  ⟨rfl, fun _ h => absurd h List.not_mem_nil, fun _ h => absurd h List.not_mem_nil⟩

theorem sound_start : Sound v d runtimeForNetwork start where
  plans := plansSound_empty []
  kept _ h := absurd h List.not_mem_nil
  issued _ h := absurd h List.not_mem_nil
  pending _ h := absurd h List.not_mem_nil
  distinct := List.nodup_nil
  bound _ h := absurd h List.not_mem_nil

theorem PlansSound.push {session : NullarkCliSession} (h : PlansSound runtimeForNetwork session)
    {parsed : ParsedArgs} {plan : CliWithdrawalPlan}
    (hplan : buildNoteBackedWithdrawPlan runtimeForNetwork parsed session = .ok plan) :
    PlansSound runtimeForNetwork
      { session with withdrawalPlans := session.withdrawalPlans ++ [plan] } := by
  obtain ⟨hid, hissued, hbacked⟩ := buildNoteBackedWithdrawPlan_ok hplan
  have hids : (session.withdrawalPlans ++ [plan]).map (·.id) =
      (List.range (session.withdrawalPlans ++ [plan]).length).map fun i => planId (i + 1) := by
    rw [List.map_append, h.ids, List.length_append, List.length_singleton, List.range_succ,
      List.map_append, List.map_singleton, List.map_singleton, hid]
  exact ⟨hids, List.forall_mem_append.mpr ⟨h.issued, List.forall_mem_singleton.mpr hissued⟩,
    List.forall_mem_append.mpr ⟨h.backed, List.forall_mem_singleton.mpr hbacked⟩⟩

/-- The numbers of the plans are distinct. -/
theorem PlansSound.nodup_ids {session : NullarkCliSession}
    (h : PlansSound runtimeForNetwork session) : (session.withdrawalPlans.map (·.id)).Nodup := by
  rw [h.ids]
  exact (List.nodup_range).map fun i j hij => Nat.succ.inj (planId_injective hij)

/-- **A command that begins keeps the invariant.** -/
theorem Sound.begins {s : State} (h : Sound v d runtimeForNetwork s) {argv : List Text} {b : Begun}
    (hb : runNullarkCli runtimeForNetwork argv s.session = .ok b) :
    Sound v d runtimeForNetwork
      ⟨b.session, s.pending ++ b.pending.toList, s.issued ++ b.issued.toList⟩ := by
  obtain ⟨session, pending, issued⟩ := b
  rcases runNullarkCli_ok hb with ⟨rfl, rfl, hpending⟩ | ⟨plan, hplan, heq⟩
  · have hissued : s.issued ++ (none : Option CliWithdrawalPlan).toList = s.issued :=
      List.append_nil _
    rw [hissued]
    refine ⟨h.plans, h.kept, h.issued, fun plan hplan => ?_, h.distinct, h.bound⟩
    rcases List.mem_append.mp hplan with hold | hnew
    · exact h.pending plan hold
    · exact h.kept plan (hpending plan (Option.mem_toList.mp hnew))
  · obtain ⟨rfl, rfl, rfl⟩ := Begun.mk.inj heq
    obtain ⟨-, hissued, -⟩ := buildNoteBackedWithdrawPlan_ok hplan
    have hkept : ∀ other ∈ s.session.withdrawalPlans, other ∈ s.issued ++ [plan] :=
      fun other hother => List.mem_append_left _ (h.kept other hother)
    refine ⟨h.plans.push hplan,
      List.forall_mem_append.mpr ⟨hkept, fun _ hnew => List.mem_append_right _ hnew⟩,
      List.forall_mem_append.mpr ⟨h.issued, List.forall_mem_singleton.mpr hissued⟩,
      fun other hother => ?_, h.distinct, fun proof hproof => ?_⟩
    · have hold : Pending.prove other ∈ s.pending := by
        simpa only [Option.toList_none, List.append_nil] using hother
      exact List.mem_append_left _ (h.pending other hold)
    · obtain ⟨other, hother, hbinds⟩ := h.bound proof hproof
      exact ⟨other, List.mem_append_left _ hother, hbinds⟩

/-- What an answer comes to: the notes are others, or a proof of the plan is added, or the session
is as it was. -/
theorem finishCommand_ok {session after : NullarkCliSession} {p : Pending} {a : Answer p}
    (h : finishCommand v d session a = .ok after) :
    (∃ notes, after = ⟨notes, [], []⟩ ∧ ∀ plan, p ≠ .prove plan) ∨
      ∃ plan proof proved, p = .prove plan ∧ assertCliProofBundle v d proved plan = .ok proof ∧
        after = { session with
          proofBundles := session.proofBundles.filter (fun candidate =>
            candidate.planId ≠ plan.id) ++ [proof] } := by
  cases a with
  | notes recovered =>
    obtain ⟨notes, -, h⟩ := bind_eq_ok.mp h
    exact .inl ⟨notes, (pure_eq_ok.mp h).symm, fun _ hp => nomatch hp⟩
  | note imported =>
    obtain ⟨note, -, h⟩ := bind_eq_ok.mp h
    exact .inl ⟨_, (pure_eq_ok.mp h).symm, fun _ hp => nomatch hp⟩
  | proof plan proved =>
    obtain ⟨bundle, -, h⟩ := bind_eq_ok.mp h
    obtain ⟨proof, hproof, h⟩ := bind_eq_ok.mp h
    exact .inr ⟨_, proof, bundle, rfl, hproof, (pure_eq_ok.mp h).symm⟩

/-- The proof of a plan takes the place of an earlier one. -/
theorem nodup_replace {bundles : List CliProofBundle} {id : Text} {proof : CliProofBundle}
    (h : (bundles.map (·.planId)).Nodup) (hid : proof.planId = id) :
    ((bundles.filter (fun candidate => candidate.planId ≠ id) ++
      [proof]).map (·.planId)).Nodup := by
  rw [List.map_append, List.map_singleton, List.nodup_append]
  refine ⟨h.sublist (List.filter_sublist.map _), List.nodup_singleton _, ?_⟩
  rintro a ha b hb rfl
  obtain ⟨candidate, hcandidate, rfl⟩ := List.mem_map.mp ha
  exact of_decide_eq_true (List.mem_filter.mp hcandidate).2 ((List.mem_singleton.mp hb).trans hid)

/-- **An answer keeps the invariant.** -/
theorem Sound.answered {s : State} (h : Sound v d runtimeForNetwork s) {before after : List Pending}
    {p : Pending} (a : Answer p) (hp : s.pending = before ++ p :: after) :
    Sound v d runtimeForNetwork
      ⟨left s.session (finishCommand v d s.session a), before ++ after, s.issued⟩ := by
  have hpending : ∀ plan, Pending.prove plan ∈ before ++ after → plan ∈ s.issued := by
    intro plan hplan
    refine h.pending plan (hp ▸ ?_)
    rcases List.mem_append.mp hplan with hl | hr
    · exact List.mem_append_left _ hl
    · exact List.mem_append_right _ (List.mem_cons_of_mem _ hr)
  cases hfinish : finishCommand v d s.session a with
  | error message => exact ⟨h.plans, h.kept, h.issued, hpending, h.distinct, h.bound⟩
  | ok session =>
    rcases finishCommand_ok hfinish with ⟨notes, rfl, -⟩ | ⟨plan, proof, proved, rfl, hproof, rfl⟩
    · exact ⟨plansSound_empty notes, fun _ hn => absurd hn List.not_mem_nil, h.issued, hpending,
        List.nodup_nil, fun _ hn => absurd hn List.not_mem_nil⟩
    · have hplan : plan ∈ s.issued :=
        h.pending plan (hp ▸ List.mem_append_right _ List.mem_cons_self)
      obtain ⟨rfl, hbinds⟩ := assertCliProofBundle_ok (h.issued plan hplan) hproof
      have hold : ∀ other ∈ s.session.proofBundles.filter (fun candidate =>
          candidate.planId ≠ plan.id), ∃ plan ∈ s.issued, Binds v d other plan :=
        fun other hother => h.bound other (List.mem_filter.mp hother).1
      exact ⟨⟨h.plans.ids, h.plans.issued, h.plans.backed⟩, h.kept, h.issued, hpending,
        nodup_replace h.distinct hbinds.planId, List.forall_mem_append.mpr
          ⟨hold, List.forall_mem_singleton.mpr ⟨plan, hplan, hbinds⟩⟩⟩

theorem Sound.step {s s' : State} (h : Sound v d runtimeForNetwork s)
    (hstep : Step v d runtimeForNetwork s s') : Sound v d runtimeForNetwork s' := by
  cases hstep with
  | begins hb => exact h.begins hb
  | answered a hp => exact h.answered a hp

/-! ### One command waits at a time -/

/-- The proofs, and the proof that is waited for, are of plans of the session. -/
structure Current (v : Viem) (d : Decoder) (s : State) : Prop where
  wait : s.pending.length ≤ 1
  pending : ∀ plan, Pending.prove plan ∈ s.pending → plan ∈ s.session.withdrawalPlans
  bound : ∀ proof ∈ s.session.proofBundles, ∃ plan ∈ s.session.withdrawalPlans, Binds v d proof plan

theorem current_start : Current v d start :=
  ⟨Nat.zero_le _, fun _ h => absurd h List.not_mem_nil, fun _ h => absurd h List.not_mem_nil⟩

theorem Current.begins {s : State} (h : Current v d s) {argv : List Text} {b : Begun}
    (hb : runNullarkCli runtimeForNetwork argv s.session = .ok b)
    (hwait : (s.pending ++ b.pending.toList).length ≤ 1) :
    Current v d ⟨b.session, s.pending ++ b.pending.toList, s.issued ++ b.issued.toList⟩ := by
  refine ⟨hwait, fun plan hplan => ?_, fun proof hproof => ?_⟩
  · rcases runNullarkCli_ok hb with ⟨hsame, -, hpending⟩ | ⟨new, -, rfl⟩
    · change plan ∈ b.session.withdrawalPlans
      rw [hsame]
      rcases List.mem_append.mp hplan with hold | hnew
      · exact h.pending plan hold
      · exact hpending plan (Option.mem_toList.mp hnew)
    · have hold : Pending.prove plan ∈ s.pending := by
        simpa only [Option.toList_none, List.append_nil] using hplan
      exact List.mem_append_left _ (h.pending plan hold)
  · rcases runNullarkCli_ok hb with ⟨hsame, -, -⟩ | ⟨new, -, rfl⟩
    · change proof ∈ b.session.proofBundles at hproof
      change ∃ plan ∈ b.session.withdrawalPlans, _
      rw [hsame] at hproof ⊢
      exact h.bound proof hproof
    · obtain ⟨plan, hplan, hbinds⟩ := h.bound proof hproof
      exact ⟨plan, List.mem_append_left _ hplan, hbinds⟩

/-- What is answered is the one command that waits. -/
theorem Current.answered {s : State} (h : Current v d s) (hsound : Sound v d runtimeForNetwork s)
    {before after : List Pending} {p : Pending} (a : Answer p)
    (hp : s.pending = before ++ p :: after) :
    Current v d ⟨left s.session (finishCommand v d s.session a), before ++ after, s.issued⟩ := by
  have hnone : before ++ after = [] := by
    have hlength := h.wait
    rw [hp, List.length_append, List.length_cons] at hlength
    exact List.length_eq_zero_iff.mp (by rw [List.length_append]; omega)
  rw [hnone]
  refine ⟨Nat.zero_le _, fun _ hn => absurd hn List.not_mem_nil, fun proof hproof => ?_⟩
  cases hfinish : finishCommand v d s.session a with
  | error message =>
    rw [hfinish] at hproof
    exact h.bound proof hproof
  | ok session =>
    rw [hfinish] at hproof
    rcases finishCommand_ok hfinish with ⟨notes, rfl, -⟩ | ⟨plan, new, proved, rfl, hnew, rfl⟩
    · exact absurd hproof List.not_mem_nil
    · have hmem : Pending.prove plan ∈ s.pending := hp ▸ List.mem_append_right _ List.mem_cons_self
      obtain ⟨rfl, hbinds⟩ :=
        assertCliProofBundle_ok (hsound.issued plan (hsound.pending plan hmem)) hnew
      rcases List.mem_append.mp hproof with hold | hlast
      · exact h.bound proof (List.mem_filter.mp hold).1
      · rw [List.mem_singleton.mp hlast]
        exact ⟨plan, h.pending plan hmem, hbinds⟩

theorem Current.step {s s' : State} (h : Current v d s) (hsound : Sound v d runtimeForNetwork s)
    (hstep : OneWait v d runtimeForNetwork s s') : Current v d s' := by
  obtain ⟨hstep, hwait⟩ := hstep
  cases hstep with
  | begins hb => exact h.begins hb hwait
  | answered a hp => exact h.answered hsound a hp

theorem current_of_oneWait {s : State} (h : ReachableOneWait v d runtimeForNetwork s) :
    Sound v d runtimeForNetwork s ∧ Current v d s := by
  induction h with
  | refl => exact ⟨sound_start, current_start⟩
  | tail _ hstep ih => exact ⟨ih.1.step hstep.1, ih.2.step ih.1 hstep⟩

/-- `notes recover`. -/
def recoverCommand : List Text :=
  ["notes".toList, "recover".toList, "--network".toList, "megaeth-testnet".toList,
    "--wallet".toList, "0x01".toList]

theorem recoverCommand_waits (session : NullarkCliSession) :
    runNullarkCli runtimeForNetwork recoverCommand session = .ok ⟨session, some .recover, none⟩ :=
  rfl

theorem run_recover (s : State) (notes : List RecoveredWalletNote) :
    Relation.ReflTransGen (Step v d runtimeForNetwork) s
      ⟨⟨notes, [], []⟩, s.pending, s.issued⟩ := by
  have hbegins : Step v d runtimeForNetwork s
      ⟨s.session, s.pending ++ [.recover], s.issued ++ []⟩ :=
    .begins (recoverCommand_waits s.session)
  have hanswered : Step v d runtimeForNetwork ⟨s.session, s.pending ++ [.recover], s.issued ++ []⟩
      ⟨⟨notes, [], []⟩, s.pending ++ [], s.issued ++ []⟩ :=
    .answered (.notes (.ok notes)) rfl
  rw [List.append_nil, List.append_nil] at hanswered
  rw [List.append_nil] at hbegins
  exact (Relation.ReflTransGen.single hbegins).tail hanswered

/-- A proof that is accepted is kept. -/
theorem finishCommand_proof {session : NullarkCliSession} {plan : CliWithdrawalPlan}
    {proof : CliProofBundle} (h : assertCliProofBundle v d proof plan = .ok proof) :
    finishCommand v d session (.proof plan (.ok proof)) =
      .ok { session with
        proofBundles := session.proofBundles.filter (fun candidate =>
          candidate.planId ≠ plan.id) ++ [proof] } := by
  change (assertCliProofBundle v d proof plan >>= _) = _
  rw [h]
  rfl

end Runs

/-! ### A run -/

def sampleRuntimes (_ : NullarkNetwork) : CliRuntime := { sampleRuntime with v12Readiness := none }

/-- `withdraw plan`. -/
def planCommand : List Text :=
  ["withdraw".toList, "plan".toList, "--network".toList, "megaeth-testnet".toList, "--note".toList,
    "note".toList, "--to".toList, addressText 1, "--amount".toList, "max".toList]

/-- `withdraw prove`. -/
def proveCommand : List Text :=
  ["withdraw".toList, "prove".toList, "--network".toList, "megaeth-testnet".toList,
    "--plan".toList, "plan_1".toList]

def samplePlan : CliWithdrawalPlan where
  id := "plan_1".toList
  noteId := "note".toList
  destination := addressText 1
  grossAmountWei := "100000".toList
  feeWei := "500".toList
  netAmountWei := "99500".toList
  chainId := 6343
  pool := addressText 7
  publicInputSchema := .v12Unlinkable
  submitVia := .relayer

def sampleArguments : StageCArguments :=
  ([0x12, 0x34], [1, 5, 3, 1, 100000, 500, 6343, 7, 8, 9], 5, 1, 100000, [0xab, 0xcd], 99500, 500,
    ())

def sampleBundle : CliProofBundle where
  id := "proof_1".toList
  planId := "plan_1".toList
  proof := "0x1234".toList
  publicInputs := (sampleOutput 5 9).publicInputs
  nullifier := hex32 5
  calldata := hexText (callBytes 0x678d8506 stageCWithdrawBoundedParameters sampleArguments)
  currentRoot := hex32 1
  publicInputSchema := none
  submitVia := .relayer

set_option maxRecDepth 8000 in
theorem planCommand_adds : runNullarkCli sampleRuntimes planCommand ⟨[sampleNote], [], []⟩ =
    .ok ⟨⟨[sampleNote], [samplePlan], []⟩, none, some samplePlan⟩ := by
  rfl

theorem proveCommand_waits (bundles : List CliProofBundle) :
    runNullarkCli sampleRuntimes proveCommand ⟨[sampleNote], [samplePlan], bundles⟩ =
      .ok ⟨⟨[sampleNote], [samplePlan], bundles⟩, some (.prove samplePlan), none⟩ := by
  rfl

theorem decode_sampleBundle : decodeStageCWithdrawCalldata digitsViem standardDecoder
    sampleBundle.calldata = .ok (decoded digitsViem sampleArguments) := by
  have hsize : (callBytes 0x678d8506 stageCWithdrawBoundedParameters
      sampleArguments).length < 2 ^ 256 := by
    have hle := (length_stageC sampleArguments).2
    have hbig : 4 + (2 + 32 * 10 + 2 + 414) < 2 ^ 256 := by decide
    rw [callBytes, List.length_append, Bytes.length_beBytes]
    exact lt_of_le_of_lt (Nat.add_le_add_left hle 4) hbig
  exact decode_callBytes_stageC documented_digitsViem standardDecoder_inverts (by decide) hsize

theorem sampleBundle_names : assertV12UnlinkableWithdrawPublicInputBinding
    (publicInputsFor sampleBundle samplePlan (some (hex32 3))) = .ok () := by
  have h := @sample_agrees 5 9 (by decide) sampleRuntime rfl
  refine assertV12UnlinkableWithdrawPublicInputBinding_eq_ok.mpr ⟨h.length, h.publicInputs,
    h.currentRoot, h.nullifierText, h.destinationText, h.amountText, h.pool, h.chain, h.root,
    h.nullifier, h.commitment_ne, h.commitment_field, fun c hc => ?_, h.destination, h.grossAmount,
    h.chainId, h.verifyingContract, h.contextHash_ne, h.noteHash_ne⟩
  obtain rfl := Option.some.inj hc
  rw [trim_of_isHexOfLength (isHexBytes32_hex32 3)]
  rfl

theorem sampleBundle_calls : assertV12StageCWithdrawCalldataBinding digitsViem standardDecoder
    sampleBundle samplePlan = .ok () := by
  have hprefix : (decoded digitsViem sampleArguments).publicInputs.map lower <+:
      sampleBundle.publicInputs.map lower := List.prefix_rfl
  have hinputs := forall_zipIdx_iff_prefix.mpr hprefix
  unfold assertV12StageCWithdrawCalldataBinding
  rw [decode_sampleBundle, ok_bind]
  simp only [bind_eq_ok, ensure_eq_ok, exists_const]
  exact ⟨⟨rfl, hinputs⟩, rfl, rfl, by decide, ⟨by decide, by decide⟩, by decide, by decide⟩

theorem sampleBundle_accepted :
    assertCliProofBundle digitsViem standardDecoder sampleBundle samplePlan = .ok sampleBundle := by
  have hid : isProofId sampleBundle.id := by decide
  have hproof : isHexString sampleBundle.proof := by decide
  have htexts : isHexBytes32 sampleBundle.nullifier ∧ isHexBytes32 sampleBundle.currentRoot :=
    ⟨isHexBytes32_hex32 5, isHexBytes32_hex32 1⟩
  have hzero : sampleBundle.publicInputs[2]?.map lower ≠ some zeroBytes32 := by decide
  unfold assertCliProofBundle
  simp only [bind_eq_ok, ensure_eq_ok, exists_const]
  refine ⟨hid, rfl, rfl, hproof, htexts, fun _ h => absurd h (Option.not_mem_none _),
    ⟨rfl, sampleInputs_hex⟩, ?_⟩
  change (ensure _ _ >>= _) = _
  simp only [bind_eq_ok, ensure_eq_ok, exists_const, pure_eq_ok]
  exact ⟨hzero, (), sampleBundle_names, (), sampleBundle_calls, trivial⟩

/-- The notes are recovered, and the note is planned and waits for its proof. -/
theorem sample_waits : ReachableOneWait digitsViem standardDecoder sampleRuntimes
    ⟨⟨[sampleNote], [samplePlan], []⟩, [.prove samplePlan], [samplePlan]⟩ := by
  have hrecover : Step digitsViem standardDecoder sampleRuntimes start
      ⟨⟨[], [], []⟩, [.recover], []⟩ :=
    @Step.begins _ _ _ start _ _ (recoverCommand_waits createNullarkCliSession)
  have hnotes : Step digitsViem standardDecoder sampleRuntimes ⟨⟨[], [], []⟩, [.recover], []⟩
      ⟨⟨[sampleNote], [], []⟩, [], []⟩ :=
    @Step.answered _ _ _ ⟨⟨[], [], []⟩, [.recover], []⟩ [] [] _ (.notes (.ok [sampleNote])) rfl
  have hplan : Step digitsViem standardDecoder sampleRuntimes ⟨⟨[sampleNote], [], []⟩, [], []⟩
      ⟨⟨[sampleNote], [samplePlan], []⟩, [], [samplePlan]⟩ :=
    @Step.begins _ _ _ ⟨⟨[sampleNote], [], []⟩, [], []⟩ _ _ planCommand_adds
  have hprove : Step digitsViem standardDecoder sampleRuntimes
      ⟨⟨[sampleNote], [samplePlan], []⟩, [], [samplePlan]⟩
      ⟨⟨[sampleNote], [samplePlan], []⟩, [.prove samplePlan], [samplePlan]⟩ :=
    @Step.begins _ _ _ ⟨⟨[sampleNote], [samplePlan], []⟩, [], [samplePlan]⟩ _ _
      (proveCommand_waits [])
  exact (((Relation.ReflTransGen.single ⟨hrecover, le_rfl⟩).tail ⟨hnotes, Nat.zero_le _⟩).tail
    ⟨hplan, Nat.zero_le _⟩).tail ⟨hprove, le_rfl⟩

theorem sample_run : ReachableOneWait digitsViem standardDecoder sampleRuntimes
    ⟨⟨[sampleNote], [samplePlan], [sampleBundle]⟩, [], [samplePlan]⟩ := by
  have hproof : Step digitsViem standardDecoder sampleRuntimes
      ⟨⟨[sampleNote], [samplePlan], []⟩, [.prove samplePlan], [samplePlan]⟩ _ :=
    @Step.answered _ _ _ ⟨⟨[sampleNote], [samplePlan], []⟩, [.prove samplePlan], [samplePlan]⟩ [] []
      _ (.proof samplePlan (.ok sampleBundle)) rfl
  rw [finishCommand_proof sampleBundle_accepted] at hproof
  exact sample_waits.tail ⟨hproof, Nat.zero_le _⟩

/-! ### What every run leaves -/

section Runs
variable {v : Viem} {d : Decoder} {runtimeForNetwork : NullarkNetwork → CliRuntime}

theorem ReachableOneWait.reachable {s : State} (h : ReachableOneWait v d runtimeForNetwork s) :
    Reachable v d runtimeForNetwork s :=
  Relation.ReflTransGen.mono (fun _ _ hstep => hstep.1) _ _ h

/-- **Every run of commands leaves a sound session**, in whatever order the commands go on: its
plans are numbered and spend unspent notes of the session that have the amount, and every proof is
one for a plan there has been. -/
theorem session_sound {s : State} (h : Reachable v d runtimeForNetwork s) :
    Sound v d runtimeForNetwork s := by
  induction h with
  | refl => exact sound_start
  | tail _ hstep ih => exact ih.step hstep

theorem session_sound_sample : Sound digitsViem standardDecoder sampleRuntimes
    ⟨⟨[sampleNote], [samplePlan], [sampleBundle]⟩, [], [samplePlan]⟩ :=
  session_sound sample_run.reachable

/-- **Where one command waits at a time**, a proof is one for the plan of the session that has its
number, and that plan spends an unspent note of the session. -/
theorem one_wait_current {s : State} (h : ReachableOneWait v d runtimeForNetwork s) :
    ∀ proof ∈ s.session.proofBundles, ∃ plan ∈ s.session.withdrawalPlans,
      Binds v d proof plan ∧ Backed s.session.recoveredNotes plan ∧
        ∀ other ∈ s.session.withdrawalPlans, other.id = proof.planId → other = plan := by
  intro proof hproof
  obtain ⟨hsound, hcurrent⟩ := current_of_oneWait h
  obtain ⟨plan, hplan, hbinds⟩ := hcurrent.bound proof hproof
  refine ⟨plan, hplan, hbinds, hsound.plans.backed plan hplan, fun other hother hid => ?_⟩
  exact List.inj_on_of_nodup_map hsound.plans.nodup_ids hother hplan (hid.trans hbinds.planId)

theorem one_wait_current_sample : Binds digitsViem standardDecoder sampleBundle samplePlan ∧
    Backed [sampleNote] samplePlan := by
  obtain ⟨plan, hplan, hbinds, hbacked, -⟩ :=
    one_wait_current sample_run sampleBundle List.mem_cons_self
  obtain rfl := List.mem_singleton.mp hplan
  exact ⟨hbinds, hbacked⟩

/-- **A proof that is waited for outlives its plan**: when the notes are recovered meanwhile, it is
kept for a number that the next plan gets. -/
theorem stale_proof_kept {s : State} {plan : CliWithdrawalPlan} {proof : CliProofBundle}
    (hpending : Pending.prove plan ∈ s.pending)
    (hproof : assertCliProofBundle v d proof plan = .ok proof) (notes : List RecoveredWalletNote) :
    ∃ s', Relation.ReflTransGen (Step v d runtimeForNetwork) s s' ∧
      s'.session = ⟨notes, [], [proof]⟩ := by
  obtain ⟨before, after, hp⟩ := List.append_of_mem hpending
  have hanswered : Step v d runtimeForNetwork ⟨⟨notes, [], []⟩, s.pending, s.issued⟩ _ :=
    .answered (.proof plan (.ok proof)) hp
  rw [finishCommand_proof hproof] at hanswered
  exact ⟨_, (run_recover s notes).tail hanswered, rfl⟩

/-- The proof of the run, when the notes are recovered before it is there. -/
theorem stale_proof_reachable : ∃ s, Reachable digitsViem standardDecoder sampleRuntimes s ∧
    s.session = ⟨[], [], [sampleBundle]⟩ := by
  have hpending : Pending.prove samplePlan ∈
      (⟨⟨[sampleNote], [samplePlan], []⟩, [.prove samplePlan], [samplePlan]⟩ : State).pending :=
    List.mem_singleton_self _
  obtain ⟨s, hrun, hsession⟩ := @stale_proof_kept _ _ sampleRuntimes _ _ _ hpending
    sampleBundle_accepted []
  exact ⟨s, sample_waits.reachable.trans hrun, hsession⟩

end Runs

end Nullark.Cli.Session
