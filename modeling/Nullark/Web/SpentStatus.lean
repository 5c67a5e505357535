import Nullark.Web.WalletNotes

/-! # Whether a recovered note is spent

The web app asks a node for the nullifier of every note it opens. Whatever goes wrong with the
question counts as the answer that the note is not spent.

* `recoverWalletNoteFromLogWithContext_eq`: the note of a log, and its status apart from it.
* `unspent_iff`: when every note that is shown as unspent was reported so by the pool. -/

namespace Nullark.Web.SpentStatus

open Nullark.Lib Nullark.Lib.Outcome Nullark.Lib.Aead
open Nullark.Lib.Hex hiding value Digits ofNat
open Nullark.Lib.Json (Value Scalar)
open Nullark.Core.Proofs (maxSafeInteger)
open Nullark.Evm.Basic Nullark.Pool.Interface
open Nullark.Js.Basic Nullark.Js.Bytes Nullark.Js.Numbers Nullark.Js.TreeHash
open Nullark.Js.OutputNoteEnvelope (wellFormed_envelope length_bytes_le)
open Nullark.Js.SpendMaterial Nullark.Js.NoteEnvelope
open Nullark.Web.Poseidon Nullark.Web.NoteRecovery
open Nullark.Web.WalletNotes hiding recoverWalletNoteFromLogWithContext makeEntry RecoveryContext

/-! ### Requests -/

/-- What a request comes to: it fails, or there is a response with a text. -/
inductive Fetched
  | failed
  | response (ok : Bool) (status : ℕ) (body : Text)

/-- A call of a contract at the latest block. -/
structure EthCall where
  rpcUrl : Text
  pool : Text
  data : Text
  deriving DecidableEq, Repr

/-- The values that count as true. -/
def isTruthy : Value → Bool
  | .null => false
  | .bool b => b
  | .number x => decide (x ≠ .finite 0)
  | .string t => decide (t ≠ [])
  | .array _ => true
  | .object _ => true

/-- `error.message ?? ...`. -/
def errorMessage (method : String) : Value → String
  | .object members =>
    match textMember members "message" with
    | some message => String.ofList message
    | none => "MegaETH RPC " ++ method ++ " failed."
  | _ => "MegaETH RPC " ++ method ++ " failed."

/-- The result in a body; it may be missing. -/
def bodyResult (method : String) : Value → Throws (Option Value)
  | .null => .error "TypeError"
  | .object members =>
    match Json.lookup members "error".toList with
    | some error =>
      if isTruthy error then .error (errorMessage method error)
      else .ok (Json.lookup members "result".toList)
    | none => .ok (Json.lookup members "result".toList)
  | _ => .ok none

/-- **`rpcRequest`**, with what the request comes to. -/
def rpcRequest (method : String) : Fetched → Throws (Option Value)
  | .failed => .error "fetch failed"
  | .response false status _ =>
    .error ("MegaETH RPC " ++ method ++ " failed with HTTP " ++ toString status ++ ".")
  | .response true _ body =>
    match Json.parse body with
    | none => .error "SyntaxError"
    | some value => bodyResult method value

/-- `BigInt(String(value))`, for a value in an array. -/
def itemToBigInt : Value → Throws ℤ
  | .null => .ok 0
  | .number (.finite q) => if q.den = 1 ∧ |q.num| < 10 ^ 21 then .ok q.num else .error "SyntaxError"
  | .string t => stringToBigInt t
  | .array [] => .ok 0
  | .array [item] => itemToBigInt item
  | _ => .error "SyntaxError"

/-- **`BigInt(value)`**. An array is first put together to a text. -/
def valueToBigInt : Value → Throws ℤ
  | .null => .error "TypeError"
  | .bool b => .ok (if b then 1 else 0)
  | .number (.finite q) => if q.den = 1 then .ok q.num else .error "RangeError"
  | .number (.infinite _) => .error "RangeError"
  | .string t => stringToBigInt t
  | .array items => itemToBigInt (.array items)
  | .object _ => .error "SyntaxError"

/-- The answer as a number. -/
def nullifierAnswer (fetched : Fetched) : Throws ℤ := do
  match ← rpcRequest "eth_call" fetched with
  | none => throw "TypeError"
  | some result => valueToBigInt result

/-- `.then((result) => BigInt(result) !== 0n).catch(() => false)`. -/
def spentStatus (fetched : Fetched) : Bool :=
  match nullifierAnswer fetched with
  | .ok v => decide (v ≠ 0)
  | .error _ => false

/-! ### Logs -/

def nullifiersSelector : Text := "0x2997e86b".toList

def encodeBytes32Argument (value : Text) : Throws Text := do
  ensure (isHexBytes32 value) "Expected a 32-byte hex value."
  return lower (value.drop 2)

def encodeNullifierLookupCalldata (nullifier : Text) : Throws Text := do
  return nullifiersSelector ++ (← encodeBytes32Argument nullifier)

inductive NoteEventName
  | depositNoteCreated
  | privateTransferNoteCreated
  | withdrawalChangeNoteCreated
  | withdrawalOutputNoteCreated
  deriving DecidableEq, Repr

def NoteEventName.action : NoteEventName → NoteEventAction
  | .depositNoteCreated => .deposit
  | .privateTransferNoteCreated => .privateTransfer
  | .withdrawalChangeNoteCreated => .withdrawChange
  | .withdrawalOutputNoteCreated => .withdrawOutput

structure RawRpcLog where
  topics : List Text
  data : Text
  transactionHash : Text

/-- What `decodeEventLog` returns for one of the four events. -/
structure NoteEventArgs where
  eventName : NoteEventName
  commitment : Text
  nullifier : Option Text
  leafIndex : ℕ
  encryptedNote : Text
  encryptionVersion : ℕ

abbrev DecodeEventLog := List Text → Text → Throws NoteEventArgs

def decodeNoteEvent (decodeEventLog : DecodeEventLog) (log : RawRpcLog) :
    Option DecodedNoteEventLog :=
  if log.topics = [] then none
  else
    match decodeEventLog log.topics log.data with
    | .error _ => none
    | .ok decoded => some {
        action := decoded.eventName.action
        commitment := decoded.commitment
        leafIndex := decoded.leafIndex
        encryptedNote := decoded.encryptedNote
        encryptionVersion := decoded.encryptionVersion
        nullifier := decoded.nullifier
        transactionHash := log.transactionHash }

/-- `recoveryContext`, with the requests it makes. -/
structure RecoveryContext where
  recoveryKeys : List Bytes
  deployment : NoteRecordDeployment
  fetchFn : EthCall → Fetched

section Code
variable (c : Crypto) (hash : FieldHash) (decodeEventLog : DecodeEventLog)

def nullifierOf (event : DecodedNoteEventLog) (deployment : NoteRecordDeployment)
    (fields : SpendFields) : Throws Text :=
  deriveBrowserNullifier hash
    { noteSecret := fields.noteSecret, leafIndex := event.leafIndex
      chainId := deployment.chainId, verifyingContract := deployment.pool }

def recordFor (event : DecodedNoteEventLog) (deployment : NoteRecordDeployment)
    (fields : SpendFields) : Throws SandboxSpendMaterialNoteRecord :=
  createSandboxSpendMaterialNoteRecord
    { deployment, fields, commitment := event.commitment, leafIndex := event.leafIndex
      depositTxHash := event.transactionHash }

/-- The entry for a spend material. -/
def makeEntry (event : DecodedNoteEventLog) (context : RecoveryContext) (plaintext : Value) :
    Throws (Option RecoveredWalletNoteEntry) := do
  let fields ← readFields plaintext
  let derivedCommitment ← deriveEventCommitment hash event fields.preimage
  if lower derivedCommitment ≠ lower event.commitment then return none
  else do
    let spendNullifier ← nullifierOf hash event context.deployment fields
    let data ← encodeNullifierLookupCalldata spendNullifier
    let spent := spentStatus (context.fetchFn
      { rpcUrl := context.deployment.rpcUrl, pool := context.deployment.pool, data })
    let record ← recordFor event context.deployment fields
    return some { record, spent, spentNullifier := if spent then some spendNullifier else none }

/-- **`recoverWalletNoteFromLogWithContext`**. An error skips the log. -/
def recoverWalletNoteFromLogWithContext (log : RawRpcLog) (context : RecoveryContext) :
    Option RecoveredWalletNoteEntry :=
  match decodeNoteEvent decodeEventLog log with
  | none => none
  | some event =>
    if event.encryptedNote = emptyNote then none
    else
      match tryDecryptEvent c event context.recoveryKeys context.deployment.chainId
        context.deployment.pool with
      | none => none
      | some plaintext =>
        match makeEntry hash event context plaintext with
        | .ok entry => entry
        | .error _ => none

/-! ### The note and its status -/

/-- The note of a spend material, with its nullifier. -/
def makeNote (event : DecodedNoteEventLog) (deployment : NoteRecordDeployment) (plaintext : Value) :
    Throws (Option (SandboxSpendMaterialNoteRecord × Text)) := do
  let fields ← readFields plaintext
  let derivedCommitment ← deriveEventCommitment hash event fields.preimage
  if lower derivedCommitment ≠ lower event.commitment then return none
  else do
    let spendNullifier ← nullifierOf hash event deployment fields
    let _ ← encodeNullifierLookupCalldata spendNullifier
    let record ← recordFor event deployment fields
    return some (record, spendNullifier)

/-- **The note a log opens to**, before the node is asked. -/
def openedNote (log : RawRpcLog) (recoveryKeys : List Bytes) (deployment : NoteRecordDeployment) :
    Option (SandboxSpendMaterialNoteRecord × Text) :=
  match decodeNoteEvent decodeEventLog log with
  | none => none
  | some event =>
    if event.encryptedNote = emptyNote then none
    else
      match tryDecryptEvent c event recoveryKeys deployment.chainId deployment.pool with
      | none => none
      | some plaintext =>
        match makeNote hash event deployment plaintext with
        | .ok note => note
        | .error _ => none

end Code

/-- The question for a nullifier. -/
def nullifierCall (deployment : NoteRecordDeployment) (nullifier : Text) : EthCall where
  rpcUrl := deployment.rpcUrl
  pool := deployment.pool
  data := nullifiersSelector ++ lower (nullifier.drop 2)

/-- The entry for a note. -/
def entryFor (context : RecoveryContext) (note : SandboxSpendMaterialNoteRecord × Text) :
    RecoveredWalletNoteEntry :=
  let spent := spentStatus (context.fetchFn (nullifierCall context.deployment note.2))
  { record := note.1, spent, spentNullifier := if spent then some note.2 else none }

section Status
variable {c : Crypto} {hash : FieldHash} {decodeEventLog : DecodeEventLog}
  {event : DecodedNoteEventLog} {context : RecoveryContext}

theorem encodeNullifierLookupCalldata_eq_ok {nullifier data : Text} :
    encodeNullifierLookupCalldata nullifier = .ok data ↔
      isHexBytes32 nullifier ∧ data = nullifiersSelector ++ lower (nullifier.drop 2) := by
  unfold encodeNullifierLookupCalldata encodeBytes32Argument
  simp only [bind_eq_ok, ensure_eq_ok, exists_const, pure_eq_ok, eq_comm (b := data)]
  constructor
  · rintro ⟨_, ⟨h, rfl⟩, hdata⟩
    exact ⟨h, hdata⟩
  · rintro ⟨h, hdata⟩
    exact ⟨_, ⟨h, rfl⟩, hdata⟩

/-- The status is put beside the note. -/
theorem makeEntry_eq (plaintext : Value) : makeEntry hash event context plaintext =
    (makeNote hash event context.deployment plaintext).map (·.map (entryFor context)) := by
  unfold makeEntry makeNote
  rcases readFields plaintext with _ | fields
  · rfl
  rw [ok_bind, ok_bind]
  rcases deriveEventCommitment hash event fields.preimage with _ | derivedCommitment
  · rfl
  rw [ok_bind, ok_bind]
  split_ifs with hcommitment
  · rfl
  rcases nullifierOf hash event context.deployment fields with _ | nullifier
  · rfl
  rw [ok_bind, ok_bind]
  rcases hdata : encodeNullifierLookupCalldata nullifier with _ | data
  · rfl
  rw [ok_bind, ok_bind, (encodeNullifierLookupCalldata_eq_ok.mp hdata).2]
  rcases recordFor event context.deployment fields with _ | record
  · rfl
  · rfl

/-- **The note of a log, and its status**. -/
theorem recoverWalletNoteFromLogWithContext_eq (log : RawRpcLog) :
    recoverWalletNoteFromLogWithContext c hash decodeEventLog log context =
      (openedNote c hash decodeEventLog log context.recoveryKeys context.deployment).map
        (entryFor context) := by
  unfold recoverWalletNoteFromLogWithContext openedNote
  rcases decodeNoteEvent decodeEventLog log with _ | event
  · rfl
  dsimp only
  split_ifs with hempty
  · rfl
  rcases tryDecryptEvent c event context.recoveryKeys context.deployment.chainId
    context.deployment.pool with _ | plaintext
  · rfl
  dsimp only
  rw [makeEntry_eq]
  rcases makeNote hash event context.deployment plaintext with _ | note
  · rfl
  · rfl

theorem assertFieldElement_lt {value : ℤ} {fieldName : String} {v : ℕ}
    (h : assertFieldElement value fieldName = .ok v) : v < bn254ScalarField := by
  unfold assertFieldElement at h
  obtain ⟨_, hensure, hret⟩ := bind_eq_ok.mp h
  have hfield := ensure_eq_ok.mp hensure
  obtain rfl := pure_eq_ok.mp hret
  omega

/-- A nullifier that is derived can be looked up. -/
theorem isHexBytes32_of_nullifierOf {deployment : NoteRecordDeployment} {fields : SpendFields}
    {nullifier : Text} (h : nullifierOf hash event deployment fields = .ok nullifier) :
    isHexBytes32 nullifier := by
  unfold nullifierOf deriveBrowserNullifier at h
  obtain ⟨_, -, h⟩ := bind_eq_ok.mp h
  obtain ⟨_, -, h⟩ := bind_eq_ok.mp h
  obtain ⟨v, hv, hret⟩ := bind_eq_ok.mp h
  obtain rfl := pure_eq_ok.mp hret
  unfold deriveCoreNullifier at hv
  obtain ⟨_, -, hv⟩ := bind_eq_ok.mp hv
  obtain ⟨_, -, hv⟩ := bind_eq_ok.mp hv
  obtain ⟨_, -, hv⟩ := bind_eq_ok.mp hv
  obtain ⟨_, -, hv⟩ := bind_eq_ok.mp hv
  exact (isCommitment_padHex32 (assertFieldElement_lt hv)).1

/-- **What the status is of** in the recovery with an oracle: the question for the nullifier. -/
theorem recoverWalletNoteFromLogWithContext_decoded {log : RawRpcLog}
    (hdecode : decodeNoteEvent decodeEventLog log = some event) :
    recoverWalletNoteFromLogWithContext c hash decodeEventLog log context =
      WalletNotes.recoverWalletNoteFromLogWithContext c hash event
        { recoveryKeys := context.recoveryKeys, deployment := context.deployment
          isSpent := fun nullifier =>
            spentStatus (context.fetchFn (nullifierCall context.deployment nullifier)) } := by
  unfold recoverWalletNoteFromLogWithContext WalletNotes.recoverWalletNoteFromLogWithContext
  rw [hdecode]
  dsimp only
  split_ifs with hempty
  · rfl
  rcases tryDecryptEvent c event context.recoveryKeys context.deployment.chainId
    context.deployment.pool with _ | plaintext
  · rfl
  dsimp only
  unfold makeEntry WalletNotes.makeEntry
  rcases readFields plaintext with _ | fields
  · rfl
  rw [ok_bind, ok_bind]
  rcases deriveEventCommitment hash event fields.preimage with _ | derivedCommitment
  · rfl
  rw [ok_bind, ok_bind]
  split_ifs with hcommitment
  · rfl
  have hbrowser : deriveBrowserNullifier hash
      { noteSecret := fields.noteSecret, leafIndex := event.leafIndex
        chainId := context.deployment.chainId, verifyingContract := context.deployment.pool } =
      nullifierOf hash event context.deployment fields := rfl
  rw [hbrowser]
  rcases hnullifier : nullifierOf hash event context.deployment fields with _ | nullifier
  · rfl
  rw [ok_bind, ok_bind, encodeNullifierLookupCalldata_eq_ok.mpr
    ⟨isHexBytes32_of_nullifierOf hnullifier, rfl⟩, ok_bind]
  rfl

/-! ### Reported as unspent -/

/-- The nullifier of a note that was recovered. -/
def recordNullifier (hash : FieldHash) (record : SandboxSpendMaterialNoteRecord) : Throws Text :=
  deriveBrowserNullifier hash
    { noteSecret := record.fields.noteSecret, leafIndex := record.leafIndex
      chainId := record.deployment.chainId, verifyingContract := record.deployment.pool }

/-- **The pool's answer is that the nullifier is not spent**: a zero word. -/
def ReportsUnspent (fetched : Fetched) : Prop :=
  ∃ t, rpcRequest "eth_call" fetched = .ok (some (.string t)) ∧ isHexBytes32 t ∧ hexNat t = 0

/-- The status can be read off the answer: it is a zero word, or a number that is not zero. -/
def Settles (fetched : Fetched) : Prop :=
  ReportsUnspent fetched ∨ ∃ v, nullifierAnswer fetched = .ok v ∧ v ≠ 0

/-- **A note is shown as unspent only if the pool says so.** -/
def ShowsUnspentAsReported (c : Crypto) (hash : FieldHash) (decodeEventLog : DecodeEventLog)
    (log : RawRpcLog) (context : RecoveryContext) : Prop :=
  ∀ entry, recoverWalletNoteFromLogWithContext c hash decodeEventLog log context = some entry →
    entry.spent = false → ∃ nullifier, recordNullifier hash entry.record = .ok nullifier ∧
      ReportsUnspent (context.fetchFn (nullifierCall entry.record.deployment nullifier))

/-- A note that is opened has the nullifier that is asked for. -/
theorem recordNullifier_of_openedNote {log : RawRpcLog} {recoveryKeys : List Bytes}
    {deployment : NoteRecordDeployment} {record : SandboxSpendMaterialNoteRecord} {nullifier : Text}
    (h : openedNote c hash decodeEventLog log recoveryKeys deployment = some (record, nullifier)) :
    record.deployment = deployment ∧ recordNullifier hash record = .ok nullifier := by
  unfold openedNote at h
  rcases hdecoded : decodeNoteEvent decodeEventLog log with _ | event
  · rw [hdecoded] at h
    cases h
  rw [hdecoded] at h
  dsimp only at h
  split_ifs at h with hempty
  rcases hplain : tryDecryptEvent c event recoveryKeys deployment.chainId deployment.pool with
    _ | plaintext
  · rw [hplain] at h
    cases h
  rw [hplain] at h
  dsimp only at h
  rcases hmade : makeNote hash event deployment plaintext with e | note
  · rw [hmade] at h
    cases h
  rw [hmade] at h
  obtain rfl : note = some (record, nullifier) := h
  unfold makeNote at hmade
  obtain ⟨fields, -, hmade⟩ := bind_eq_ok.mp hmade
  obtain ⟨derivedCommitment, -, hmade⟩ := bind_eq_ok.mp hmade
  split_ifs at hmade with hcommitment
  · cases pure_eq_ok.mp hmade
  obtain ⟨nullifier', hnullifier, hmade⟩ := bind_eq_ok.mp hmade
  obtain ⟨_, -, hmade⟩ := bind_eq_ok.mp hmade
  obtain ⟨record', hrecord, hmade⟩ := bind_eq_ok.mp hmade
  obtain ⟨rfl, rfl⟩ := Prod.mk.inj (Option.some.inj (pure_eq_ok.mp hmade))
  obtain ⟨-, -, rfl⟩ := createSandboxSpendMaterialNoteRecord_eq_ok.mp hrecord
  exact ⟨rfl, hnullifier⟩

theorem spentStatus_eq_true {fetched : Fetched} :
    spentStatus fetched = true ↔ ∃ v, nullifierAnswer fetched = .ok v ∧ v ≠ 0 := by
  unfold spentStatus
  rcases nullifierAnswer fetched with e | v
  · simp
  · simp

/-- **When a note is shown as unspent only if the pool says so**: whatever note the log opens to, its
nullifier is answered with a zero word or a number that is not zero. -/
theorem unspent_iff (c : Crypto) (hash : FieldHash) (decodeEventLog : DecodeEventLog)
    (log : RawRpcLog) (context : RecoveryContext) :
    ShowsUnspentAsReported c hash decodeEventLog log context ↔
      ∀ record nullifier, openedNote c hash decodeEventLog log context.recoveryKeys
          context.deployment = some (record, nullifier) →
        Settles (context.fetchFn (nullifierCall context.deployment nullifier)) := by
  unfold ShowsUnspentAsReported
  simp only [recoverWalletNoteFromLogWithContext_eq, Option.map_eq_some_iff]
  constructor
  · intro h record nullifier hopened
    obtain ⟨hdeployment, hnullifier⟩ := recordNullifier_of_openedNote hopened
    rcases hspent : spentStatus (context.fetchFn (nullifierCall context.deployment nullifier)) with
      _ | _
    · obtain ⟨nullifier', hnullifier', hreport⟩ := h _ ⟨(record, nullifier), hopened, rfl⟩ hspent
      change recordNullifier hash record = .ok nullifier' at hnullifier'
      change ReportsUnspent (context.fetchFn (nullifierCall record.deployment nullifier')) at hreport
      rw [hdeployment, ← Except.ok.inj (hnullifier.symm.trans hnullifier')] at hreport
      exact .inl hreport
    · exact .inr (spentStatus_eq_true.mp hspent)
  · rintro h _ ⟨⟨record, nullifier⟩, hopened, rfl⟩ hspent
    obtain ⟨hdeployment, hnullifier⟩ := recordNullifier_of_openedNote hopened
    change spentStatus (context.fetchFn (nullifierCall context.deployment nullifier)) = false at hspent
    rcases h record nullifier hopened with hreport | hnonzero
    · refine ⟨nullifier, hnullifier, ?_⟩
      change ReportsUnspent (context.fetchFn (nullifierCall record.deployment nullifier))
      rw [hdeployment]
      exact hreport
    · rw [spentStatus_eq_true.mpr hnonzero] at hspent
      cases hspent

end Status

/-! ### A question that fails -/

def sampleDeployment : NoteRecordDeployment where
  chainId := 6343
  rpcUrl := megaEthTestnetRpcUrl
  pool := addressText 5

def sampleEvent : DecodedNoteEventLog :=
  outputNoteEvent sampleOutput.commitment
    (hexText (sampleKeys.createInput sampleCrypto sampleOutput).envelope.bytes) (hex32 6) 0 (hex32 8)

/-- The log of the sample. -/
def sampleLog : RawRpcLog where
  topics := [hex32 1]
  data := emptyNote
  transactionHash := hex32 8

def sampleDecode : DecodeEventLog := fun _ _ => .ok
  { eventName := .withdrawalOutputNoteCreated, commitment := sampleEvent.commitment
    nullifier := sampleEvent.nullifier, leafIndex := 0, encryptedNote := sampleEvent.encryptedNote
    encryptionVersion := 2 }

/-- A node that cannot be reached. -/
def unreachable : RecoveryContext where
  recoveryKeys := recoveryKeys sampleCrypto sampleKeys.walletSignature sampleKeys.chainId
    sampleKeys.pool
  deployment := sampleDeployment
  fetchFn := fun _ => .failed

/-- The recovery of the sample, with the status of an unreachable node. -/
def sampleContext : WalletNotes.RecoveryContext where
  recoveryKeys := unreachable.recoveryKeys
  deployment := sampleDeployment
  isSpent := fun nullifier =>
    spentStatus (unreachable.fetchFn (nullifierCall unreachable.deployment nullifier))

theorem fits_sample : (sampleKeys.createInput sampleCrypto sampleOutput).Fits :=
  createInput_fits (Aead.documented_checksum _) mixHash_lt sampleOutput_retained rfl (by decide)

/-- The note of the sample, as it is decrypted. -/
def sampleRead : SpendMaterialPlaintext :=
  readBack sampleOutput sampleKeys.chainId sampleKeys.pool sampleOutput.commitment

theorem encryptedNote_sample : sampleEvent.encryptedNote =
    hexText (sampleKeys.createInput sampleCrypto sampleOutput).envelope.bytes := by
  change hexText (hexBytes (hexText _)) = _
  rw [hexBytes_hexText]

theorem note_sample_ne : sampleEvent.encryptedNote ≠ emptyNote := by
  rw [encryptedNote_sample]
  intro h
  have hempty : hexText [] = emptyNote := rfl
  have hbytes := hexText_injective (h.trans hempty.symm)
  have hlength := (length_bytes_le (wellFormed_envelope fits_sample)).1
  rw [hbytes] at hlength
  exact absurd hlength (lt_irrefl 0)

theorem tryDecryptEvent_sample : tryDecryptEvent sampleCrypto sampleEvent sampleContext.recoveryKeys
    sampleContext.deployment.chainId sampleContext.deployment.pool =
      some (spendValue sampleRead) := by
  have hoptional : sampleEvent.action = .withdrawOutput ∧ sampleEvent.encryptionVersion = 2 :=
    ⟨rfl, rfl⟩
  have hword : sampleEvent.commitment = sampleOutput.commitment := by
    change hex32 (word (padHex32 _)) = padHex32 _
    exact (isCommitment_padHex32 (mixHash_lt _)).2.1
  have hread := tryDecryptV2OutputEvent_of_encrypted (Aead.documented_checksum _)
    sampleOutput_retained.note fits_sample hword encryptedNote_sample
  unfold tryDecryptEvent
  rw [if_pos hoptional]
  exact congrArg (Option.map spendValue) hread

theorem kept_sample : Kept mixHash sampleContext sampleEvent sampleRead where
  commitment := by
    have hword : sampleEvent.commitment = sampleOutput.commitment :=
      (isCommitment_padHex32 (mixHash_lt _)).2.1
    rw [hword, deriveEventCommitment, if_pos ⟨rfl, rfl⟩]
    exact deriveBrowserOutputNoteCommitment_readBack sampleOutput_retained _ _ _
  chainId := by decide
  record :=
    { pool := isEvmAddress_addressText 5
      assetId := ⟨isHexBytes32_hex32 1, lower_hex32 1⟩
      commitment := by decide +kernel
      ownerCommitment := by decide +kernel
      noteSecret := by decide +kernel
      blinding := by decide +kernel
      noteAmountWei := by decide +kernel
      depositTxHash := isHexBytes32_hex32 8
      createdAt := by decide
      leafIndex := by decide }

theorem supported_sample : Supported sampleDeployment where
  notLegacy := by decide +kernel
  chainId := .inl rfl
  rpcUrl := by decide +kernel
  known := fun h => absurd h (by decide +kernel)

/-- The note of the sample is shown as unspent, although the node did not answer. -/
theorem unreachable_shown_unspent :
    ¬ShowsUnspentAsReported sampleCrypto mixHash sampleDecode sampleLog unreachable := by
  intro h
  have hrecovered := (recoverWalletNoteFromLogWithContext_of_decrypted mixHash_lt note_sample_ne
    tryDecryptEvent_sample kept_sample).1 supported_sample
  have hdecoded : decodeNoteEvent sampleDecode sampleLog = some sampleEvent := rfl
  have hlog := (recoverWalletNoteFromLogWithContext_decoded (c := sampleCrypto) hdecoded).trans
    hrecovered
  have hunspent : ∀ nullifier, sampleContext.isSpent nullifier = false := fun _ => rfl
  have hspent : (entryOf mixHash sampleContext sampleEvent sampleRead).spent = false :=
    hunspent (spendNullifier mixHash sampleContext sampleEvent sampleRead)
  obtain ⟨nullifier, -, t, hresult, -⟩ := h _ hlog hspent
  cases hresult

end Nullark.Web.SpentStatus
