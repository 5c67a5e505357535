import Nullark.Cli.Session
import Nullark.Sdk.Redaction

/-! # What the command line prints of a plan

`withdraw plan` prints a record that was redacted.

* `notePlan_printed`: the plan of a note is printed in full.
* `calldataPlan_printed`: of a plan for calldata, the calldata is not printed. -/

namespace Nullark.Cli.Printing

open Nullark.Lib.Outcome
open Nullark.Lib.Hex (Text)
open Nullark.Lib.Json (utf16)
open Nullark.Js.Basic Nullark.Js.Doubles Nullark.Js.Package Nullark.Js.Calldata
open Nullark.Js.JsonValues (Units Value)
open Nullark.Cli.Session
open Nullark.Sdk.Redaction Nullark.Sdk.PrepareWithdrawal Nullark.Sdk.Runtime

/-! ### Records -/

/-- A member that holds a text, by its code units. -/
def textMember (name : String) (t : Text) : Units × Value :=
  (unitsOf name, .string (t.flatMap fun c => (utf16 c).map UInt16.ofNat))

def submitViaText : SubmitVia → Text
  | .relayer => "relayer".toList
  | .wallet => "wallet".toList

def schemaText : WithdrawProofPublicInputSchema → Text
  | .v11 => "v1.1".toList
  | .v12Unlinkable => "v1.2-unlinkable".toList

def directSenderImplication : SubmitVia → Text
  | .wallet =>
    "Direct wallet submission makes the user's wallet the public transaction sender.".toList
  | .relayer => "No direct wallet sender is selected for this plan.".toList

def relayerTrustBoundary : SubmitVia → Text
  | .relayer =>
    ("The relayer submits prepared calldata only; it does not recover notes, generate " ++
      "witnesses, choose destinations, or custody funds.").toList
  | .wallet => "No relayer submission is selected for this plan.".toList

section Printed
variable (number : ℕ → JsNumber)

/-- The record of a plan. -/
def planMembers (plan : CliWithdrawalPlan) : List (Units × Value) :=
  [textMember "id" plan.id, textMember "noteId" plan.noteId,
    textMember "destination" plan.destination, textMember "grossAmountWei" plan.grossAmountWei,
    textMember "feeWei" plan.feeWei, textMember "netAmountWei" plan.netAmountWei,
    (unitsOf "chainId", .number (number plan.chainId)), textMember "pool" plan.pool,
    textMember "publicInputSchema" (schemaText plan.publicInputSchema),
    textMember "submitVia" (submitViaText plan.submitVia),
    textMember "directSenderImplication" (directSenderImplication plan.submitVia),
    textMember "relayerTrustBoundary" (relayerTrustBoundary plan.submitVia)]

/-- What `buildNoteBackedWithdrawPlan` returns, before it is redacted. -/
def notePlanDoc (plan : CliWithdrawalPlan) : Value :=
  .object [textMember "kind" "withdrawal-plan".toList, textMember "storage" "memory-only".toList,
    (unitsOf "plan", .object (planMembers number plan))]

/-- The record of a request to the relay. -/
def requestMembers (r : RelayerTransactionRequest) : List (Units × Value) :=
  [(unitsOf "chainId", .number (number r.chainId)), textMember "to" r.target,
    textMember "value" r.value, textMember "data" r.data,
    (unitsOf "deadlineEpochSeconds", .number (number r.deadlineEpochSeconds))]

/-- What `buildWithdrawPlan` returns for calldata, before it is redacted. -/
def calldataPlanDoc (r : RelayerTransactionRequest) : Value :=
  .object [textMember "kind" "withdrawal-plan".toList, textMember "submitVia" "relayer".toList,
    (unitsOf "request", .object (requestMembers number r))]

end Printed

/-! ### What is printed -/

theorem redactValue_textMember (name : String) (h : showsText (unitsOf name) = true) (t : Text) :
    redactValue (textMember name t).2 (textMember name t).1 = (textMember name t).2 :=
  redactValue_text h _

section Printed
variable (number : ℕ → JsNumber)

theorem planMembers_shown (plan : CliWithdrawalPlan) :
    ∀ m ∈ planMembers number plan, redactValue m.2 m.1 = m.2 := by
  have hchain : redactValue (.number (number plan.chainId)) (unitsOf "chainId") =
      .number (number plan.chainId) := redactValue_visible (by decide) _
  unfold planMembers
  simp only [List.forall_mem_cons]
  exact ⟨redactValue_textMember "id" (by decide) _, redactValue_textMember "noteId" (by decide) _,
    redactValue_textMember "destination" (by decide) _,
    redactValue_textMember "grossAmountWei" (by decide) _,
    redactValue_textMember "feeWei" (by decide) _,
    redactValue_textMember "netAmountWei" (by decide) _, hchain,
    redactValue_textMember "pool" (by decide) _,
    redactValue_textMember "publicInputSchema" (by decide) _,
    redactValue_textMember "submitVia" (by decide) _,
    redactValue_textMember "directSenderImplication" (by decide) _,
    redactValue_textMember "relayerTrustBoundary" (by decide) _,
    fun _ h => absurd h List.not_mem_nil⟩

/-- **The plan of a note is printed in full.** -/
theorem notePlan_printed (plan : CliWithdrawalPlan) :
    redactNullarkDiagnostics (notePlanDoc number plan) = notePlanDoc number plan := by
  have hopen : IsOpen (unitsOf "plan") := ⟨by decide, by decide⟩
  refine redactValue_record_eq_self isOpen_nil rfl ?_
  simp only [List.forall_mem_cons]
  exact ⟨redactValue_textMember "kind" (by decide) _,
    redactValue_textMember "storage" (by decide) _,
    redactValue_record_eq_self hopen rfl (planMembers_shown number plan),
    fun _ h => absurd h List.not_mem_nil⟩

/-- **The calldata of a plan is not printed**: two plans are printed alike. -/
theorem calldataPlan_printed {v : Viem} {d : Decoder} {runtime : NullarkCurrentRuntime}
    {calldata calldata' : Text} {now : ℕ} {r r' : RelayerTransactionRequest}
    (h : buildWithdrawalRelayerRequest v d runtime calldata now = .ok r)
    (h' : buildWithdrawalRelayerRequest v d runtime calldata' now = .ok r') :
    redactNullarkDiagnostics (calldataPlanDoc number r) =
      redactNullarkDiagnostics (calldataPlanDoc number r') := by
  unfold buildWithdrawalRelayerRequest at h h'
  simp only [bind_eq_ok, pure_eq_ok] at h h'
  obtain ⟨-, -, target, htarget, data, -, rfl⟩ := h
  obtain ⟨-, -, target', htarget', data', -, rfl⟩ := h'
  obtain rfl : target = target' := Except.ok.inj (htarget.symm.trans htarget')
  have hopen : IsOpen (unitsOf "request") := ⟨by decide, by decide⟩
  have hvisible : isSafeVisible (unitsOf "data") = false := by decide
  have hsensitive : isSensitive (unitsOf "data") = true := by decide
  have hdata : ∀ t, redactValue (textMember "data" t).2 (textMember "data" t).1 = redacted :=
    fun _ => redactValue_hidden hvisible hsensitive _
  have hrequest : ∀ t, redactValue (.object (requestMembers number ⟨runtime.chainId, target,
      "0x0".toList, t, now + 120⟩)) (unitsOf "request") = redactValue (.object
        (requestMembers number ⟨runtime.chainId, target, "0x0".toList, data, now + 120⟩))
        (unitsOf "request") := by
    intro t
    rw [redactValue_record hopen rfl, redactValue_record hopen rfl]
    simp only [requestMembers, List.map_cons, hdata]
    rfl
  unfold redactNullarkDiagnostics calldataPlanDoc
  rw [redactValue_record isOpen_nil rfl, redactValue_record isOpen_nil rfl]
  simp only [List.map_cons, List.map_nil]
  rw [hrequest data']

end Printed

end Nullark.Cli.Printing
