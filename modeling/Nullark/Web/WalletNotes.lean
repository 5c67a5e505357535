import Nullark.Web.NoteRecovery

/-! # The notes of a wallet in the web app

What the app makes of a note it decrypts: it derives the commitment and the nullifier, asks whether
the note is spent, and writes a record. `recoverWalletNoteFromLogWithContext_of_decrypted`: when it does,
and the record. -/

namespace Nullark.Web.WalletNotes

open Nullark.Lib Nullark.Lib.Outcome Nullark.Lib.Aead
open Nullark.Lib.Hex hiding value Digits ofNat
open Nullark.Lib.Json (Value Scalar)
open Nullark.Core.Proofs (maxSafeInteger)
open Nullark.Evm.Basic Nullark.Pool.Interface
open Nullark.Js.Basic Nullark.Js.Bytes Nullark.Js.Numbers Nullark.Js.TreeHash
open Nullark.Js.SpendMaterial Nullark.Js.NoteEnvelope
open Nullark.Sdk.Poseidon (CommitmentFits NullifierFits IsField nullifierPreimage)
open Nullark.Web.Poseidon Nullark.Web.NoteRecovery

/-! ### Deployments -/

def shieldedPoolAddress : Text := "0xce4D91A6D10AAfAB3e420e3764C139244057C8E1".toList

def legacyMainnetShieldedPoolDepth20Address : Text :=
  "0x54af9d54b4edD062daD5581670E9E5f73048c87b".toList

def megaEthTestnetRpcUrl : Text := "https://carrot.megaeth.com/rpc".toList

structure NoteRecordDeployment where
  chainId : ℕ
  rpcUrl : Text
  pool : Text
  deriving DecidableEq, Repr

/-- **`resolveNoteRecordDeployment`**. The app knows one pool, with its chain and its node. -/
def resolveNoteRecordDeployment (d : NoteRecordDeployment) : Throws NoteRecordDeployment := do
  ensure (lower d.pool ≠ lower legacyMainnetShieldedPoolDepth20Address)
    "Legacy MegaETH mainnet ShieldedPoolDepth20 address is not a supported NullarkPool binding."
  ensure (d.chainId = 6343 ∨ d.chainId = 4326)
    "Expected note record chain ID to be MegaETH mainnet or testnet."
  ensure (trim d.rpcUrl ≠ []) "Expected note record RPC URL."
  ensure (lower d.pool = lower shieldedPoolAddress →
      d.chainId = 6343 ∧ d.rpcUrl = megaEthTestnetRpcUrl)
    "Note record deployment metadata does not match known shielded pool."
  return d

/-! ### Records -/

/-- The part of a spend material that is read. -/
structure SpendFields where
  assetId : Text
  noteAmountWei : Text
  ownerCommitment : Text
  noteSecret : Text
  blinding : Text
  createdAt : Text
  deriving DecidableEq, Repr

def SpendFields.preimage (f : SpendFields) : NoteCommitmentInput :=
  ⟨f.assetId, f.noteAmountWei, f.ownerCommitment, f.noteSecret⟩

/-- The fields of a value. A member that is missing makes a later step throw. -/
def readFields : Value → Throws SpendFields
  | .object members =>
    match textMember members "assetId", textMember members "noteAmountWei",
      textMember members "ownerCommitment", textMember members "noteSecret",
      textMember members "blinding", textMember members "createdAt" with
    | some assetId, some noteAmountWei, some ownerCommitment, some noteSecret, some blinding,
      some createdAt =>
      .ok { assetId, noteAmountWei, ownerCommitment, noteSecret, blinding, createdAt }
    | _, _, _, _, _, _ => .error "TypeError"
  | _ => .error "TypeError"

structure SandboxSpendMaterialNoteRecord where
  deployment : NoteRecordDeployment
  fields : SpendFields
  commitment : Text
  leafIndex : ℕ
  depositTxHash : Text
  deriving DecidableEq, Repr

/-- **`createSandboxSpendMaterialNoteRecord`**. -/
def createSandboxSpendMaterialNoteRecord (r : SandboxSpendMaterialNoteRecord) :
    Throws SandboxSpendMaterialNoteRecord := do
  ensure (isEvmAddress r.deployment.pool) "Expected note record pool to be an EVM address."
  let deployment ← resolveNoteRecordDeployment r.deployment
  ensure (isHexBytes32 r.fields.assetId) "Expected note record asset ID to be bytes32 hex."
  ensure (lower r.fields.assetId = nativeEthAssetId)
    "Expected note record asset ID to match the native ETH sandbox pool."
  ensure (isBn254FieldElement r.commitment)
    "Expected note record commitment to be a nonzero BN254 field element."
  ensure (isBn254FieldElement r.fields.ownerCommitment)
    "Expected note record owner commitment to be a nonzero BN254 field element."
  ensure (isBn254FieldElement r.fields.noteSecret)
    "Expected note record secret to be a nonzero BN254 field element."
  ensure (isBn254FieldElement r.fields.blinding)
    "Expected note record blinding to be a nonzero BN254 field element."
  ensure (Decimal.isDecimal r.fields.noteAmountWei ∧ 1 ≤ Decimal.value r.fields.noteAmountWei ∧
      Decimal.value r.fields.noteAmountWei < bn254ScalarField)
    "Expected note record amount wei as a positive decimal integer."
  ensure (isHexString r.depositTxHash ∧ r.depositTxHash.length = 66)
    "Expected note record deposit tx hash to be 32-byte hex."
  ensure (r.fields.createdAt ≠ []) "Expected note record creation time."
  ensure (r.leafIndex ≤ maxSafeInteger)
    "Expected note record leaf index to be null or a non-negative safe integer."
  return { r with deployment }

/-! ### Logs -/

structure RecoveredWalletNoteEntry where
  record : SandboxSpendMaterialNoteRecord
  spent : Bool
  spentNullifier : Option Text
  deriving DecidableEq, Repr

/-- `recoveryContext`. A node answers whether a nullifier is spent; without an answer it is not. -/
structure RecoveryContext where
  recoveryKeys : List Bytes
  deployment : NoteRecordDeployment
  isSpent : Text → Bool

section Code
variable (c : Crypto) (hash : FieldHash)

/-- The commitment of a note. Output notes of version 2 may be worth nothing. -/
def deriveEventCommitment (event : DecodedNoteEventLog) (i : NoteCommitmentInput) : Throws Text :=
  if event.action = .withdrawOutput ∧ event.encryptionVersion = 2 then
    deriveBrowserOutputNoteCommitment hash i
  else deriveBrowserNoteCommitment hash i

/-- The entry for a spend material. -/
def makeEntry (event : DecodedNoteEventLog) (context : RecoveryContext) (plaintext : Value) :
    Throws (Option RecoveredWalletNoteEntry) := do
  let fields ← readFields plaintext
  let derivedCommitment ← deriveEventCommitment hash event fields.preimage
  if lower derivedCommitment ≠ lower event.commitment then return none
  else do
    let spendNullifier ← deriveBrowserNullifier hash
      { noteSecret := fields.noteSecret, leafIndex := event.leafIndex
        chainId := context.deployment.chainId, verifyingContract := context.deployment.pool }
    let spent := context.isSpent spendNullifier
    let record ← createSandboxSpendMaterialNoteRecord
      { deployment := context.deployment, fields, commitment := event.commitment
        leafIndex := event.leafIndex, depositTxHash := event.transactionHash }
    return some { record, spent, spentNullifier := if spent then some spendNullifier else none }

/-- **`recoverWalletNoteFromLogWithContext`**, for a log that is decoded. An error skips it. -/
def recoverWalletNoteFromLogWithContext (event : DecodedNoteEventLog) (context : RecoveryContext) :
    Option RecoveredWalletNoteEntry :=
  if event.encryptedNote = emptyNote then none
  else
    match tryDecryptEvent c event context.recoveryKeys context.deployment.chainId
      context.deployment.pool with
    | none => none
    | some plaintext =>
      match makeEntry hash event context plaintext with
      | .ok entry => entry
      | .error _ => none

structure RecoverInput where
  walletSignature : Text
  deployment : NoteRecordDeployment
  isSpent : Text → Bool
  events : List DecodedNoteEventLog

/-- **`recoverWalletNotesFromChain`**, for the logs a node returns. -/
def recoverWalletNotesFromChain (input : RecoverInput) : Throws (List RecoveredWalletNoteEntry) := do
  ensure (input.deployment.chainId = 6343 ∨ input.deployment.chainId = 4326)
    "Expected note recovery chain ID to be MegaETH mainnet or testnet."
  ensure (trim input.deployment.rpcUrl ≠ []) "Expected note recovery RPC URL."
  ensure (isEvmAddress input.deployment.pool)
    "Expected note recovery pool to be an EVM address."
  let recoveryKeys ← [nullarkRecoveryAppId, legacyShieldedTransfersRecoveryAppId].mapM
    (deriveWalletRecoveryKey c input.walletSignature input.deployment.chainId input.deployment.pool)
  return input.events.filterMap fun event => recoverWalletNoteFromLogWithContext c hash event
    { recoveryKeys, deployment := input.deployment, isSpent := input.isSpent }

end Code

/-! ### What is accepted -/

/-- **The app keeps records for a deployment.** -/
structure Supported (d : NoteRecordDeployment) : Prop where
  notLegacy : lower d.pool ≠ lower legacyMainnetShieldedPoolDepth20Address
  chainId : d.chainId = 6343 ∨ d.chainId = 4326
  rpcUrl : trim d.rpcUrl ≠ []
  known : lower d.pool = lower shieldedPoolAddress →
    d.chainId = 6343 ∧ d.rpcUrl = megaEthTestnetRpcUrl

theorem resolveNoteRecordDeployment_eq_ok {d r : NoteRecordDeployment} :
    resolveNoteRecordDeployment d = .ok r ↔ Supported d ∧ r = d := by
  unfold resolveNoteRecordDeployment
  simp only [bind_eq_ok, ensure_eq_ok, exists_const, pure_eq_ok]
  constructor
  · rintro ⟨h1, h2, h3, h4, rfl⟩
    exact ⟨⟨h1, h2, h3, h4⟩, rfl⟩
  · rintro ⟨⟨h1, h2, h3, h4⟩, rfl⟩
    exact ⟨h1, h2, h3, h4, rfl⟩

/-- **A record that is kept**, apart from its deployment. -/
structure RecordFits (r : SandboxSpendMaterialNoteRecord) : Prop where
  pool : isEvmAddress r.deployment.pool
  assetId : isHexBytes32 r.fields.assetId ∧ lower r.fields.assetId = nativeEthAssetId
  commitment : isBn254FieldElement r.commitment
  ownerCommitment : isBn254FieldElement r.fields.ownerCommitment
  noteSecret : isBn254FieldElement r.fields.noteSecret
  blinding : isBn254FieldElement r.fields.blinding
  noteAmountWei : Decimal.isDecimal r.fields.noteAmountWei ∧
    0 < Decimal.value r.fields.noteAmountWei ∧
    Decimal.value r.fields.noteAmountWei < bn254ScalarField
  depositTxHash : isHexBytes32 r.depositTxHash
  createdAt : r.fields.createdAt ≠ []
  leafIndex : r.leafIndex ≤ maxSafeInteger

theorem isHexBytes32_iff_isHexString {t : Text} :
    isHexBytes32 t ↔ isHexString t ∧ t.length = 66 := by
  constructor
  · intro h
    obtain ⟨digits, rfl, hlen, hd⟩ := isHexOfLength_iff.mp h
    exact ⟨⟨by omega, hd⟩, by rw [List.length_cons, List.length_cons, hlen]⟩
  · rintro ⟨h, hlen⟩
    obtain ⟨digits, rfl, -, hd⟩ := isHexString_iff.mp h
    rw [List.length_cons, List.length_cons] at hlen
    exact ⟨by omega, hd⟩

/-- **A record** is kept as it is. -/
theorem createSandboxSpendMaterialNoteRecord_eq_ok {r s : SandboxSpendMaterialNoteRecord} :
    createSandboxSpendMaterialNoteRecord r = .ok s ↔
      RecordFits r ∧ Supported r.deployment ∧ s = r := by
  unfold createSandboxSpendMaterialNoteRecord
  simp only [bind_eq_ok, ensure_eq_ok, exists_const, resolveNoteRecordDeployment_eq_ok, pure_eq_ok]
  constructor
  · rintro ⟨h1, _, ⟨h2, rfl⟩, h3, h4, h5, h6, h7, h8, h9, h10, h11, h12, rfl⟩
    exact ⟨⟨h1, ⟨h3, h4⟩, h5, h6, h7, h8, h9, isHexBytes32_iff_isHexString.mpr h10, h11, h12⟩, h2,
      rfl⟩
  · rintro ⟨⟨h1, ⟨h3, h4⟩, h5, h6, h7, h8, h9, h10, h11, h12⟩, h2, rfl⟩
    exact ⟨h1, _, ⟨h2, rfl⟩, h3, h4, h5, h6, h7, h8, h9, isHexBytes32_iff_isHexString.mp h10, h11,
      h12, rfl⟩

/-! ### The notes of the wallet -/

/-- The fields of a spend material. -/
def fieldsOf (n : SpendMaterialPlaintext) : SpendFields :=
  ⟨n.assetId, n.noteAmountWei, n.ownerCommitment, n.noteSecret, n.blinding, n.createdAt⟩

theorem readFields_spendValue (n : SpendMaterialPlaintext) :
    readFields (spendValue n) = .ok (fieldsOf n) := by
  unfold readFields spendValue
  dsimp only
  rw [textMember_printed nodup_spendMembers "assetId" n.assetId (by simp [spendMembers]),
    textMember_printed nodup_spendMembers "noteAmountWei" n.noteAmountWei (by simp [spendMembers]),
    textMember_printed nodup_spendMembers "ownerCommitment" n.ownerCommitment (by simp [spendMembers]),
    textMember_printed nodup_spendMembers "noteSecret" n.noteSecret (by simp [spendMembers]),
    textMember_printed nodup_spendMembers "blinding" n.blinding (by simp [spendMembers]),
    textMember_printed nodup_spendMembers "createdAt" n.createdAt (by simp [spendMembers])]
  rfl

/-- The record of a note in an event. -/
def recordOf (d : NoteRecordDeployment) (event : DecodedNoteEventLog) (n : SpendMaterialPlaintext) :
    SandboxSpendMaterialNoteRecord where
  deployment := d
  fields := fieldsOf n
  commitment := event.commitment
  leafIndex := event.leafIndex
  depositTxHash := event.transactionHash

section Spec
variable (hash : FieldHash) (context : RecoveryContext) (event : DecodedNoteEventLog)
  (n : SpendMaterialPlaintext)

def spendNullifierInput : NullifierInput where
  noteSecret := n.noteSecret
  leafIndex := event.leafIndex
  chainId := context.deployment.chainId
  verifyingContract := context.deployment.pool

def spendNullifier : Text := padHex32 (hash (nullifierPreimage (spendNullifierInput context event n)))

/-- The entry for a note in an event. -/
def entryOf : RecoveredWalletNoteEntry where
  record := recordOf context.deployment event n
  spent := context.isSpent (spendNullifier hash context event n)
  spentNullifier := if context.isSpent (spendNullifier hash context event n) then
    some (spendNullifier hash context event n) else none

/-- **A note in its event** that the app can keep: its commitment is that of the event. -/
structure Kept : Prop where
  commitment : deriveEventCommitment hash event n.preimage = .ok event.commitment
  chainId : 0 < context.deployment.chainId ∧ context.deployment.chainId ≤ maxSafeInteger
  record : RecordFits (recordOf context.deployment event n)

variable {hash context event n} {c : Crypto}

theorem makeEntry_eq_ok (hhash : ∀ l, hash l < bn254ScalarField)
    (hkept : Kept hash context event n) {o : Option RecoveredWalletNoteEntry} :
    makeEntry hash event context (spendValue n) = .ok o ↔
      Supported context.deployment ∧ o = some (entryOf hash context event n) := by
  have hfits := hkept.record
  have hnullifier := deriveBrowserNullifier_of_fits hhash (i := spendNullifierInput context event n)
    ⟨hfits.leafIndex, hkept.chainId, hfits.pool, hfits.noteSecret.1, hfits.noteSecret.2.2⟩
  have hpreimage : (fieldsOf n).preimage = n.preimage := rfl
  unfold makeEntry
  rw [readFields_spendValue, ok_bind, hpreimage, hkept.commitment, ok_bind,
    if_neg (not_not.mpr rfl)]
  change (deriveBrowserNullifier hash (spendNullifierInput context event n) >>= _) = .ok o ↔ _
  rw [hnullifier, ok_bind]
  simp only [bind_eq_ok, createSandboxSpendMaterialNoteRecord_eq_ok, pure_eq_ok]
  constructor
  · rintro ⟨_, ⟨-, hsupported, rfl⟩, rfl⟩
    exact ⟨hsupported, rfl⟩
  · rintro ⟨hsupported, rfl⟩
    exact ⟨_, ⟨hfits, hsupported, rfl⟩, rfl⟩

/-- **What the app makes of a note it decrypts**: its record, if it keeps records for the
deployment. -/
theorem recoverWalletNoteFromLogWithContext_of_decrypted (hhash : ∀ l, hash l < bn254ScalarField)
    (hnote : event.encryptedNote ≠ emptyNote)
    (hplain : tryDecryptEvent c event context.recoveryKeys context.deployment.chainId
      context.deployment.pool = some (spendValue n)) (hkept : Kept hash context event n) :
    (Supported context.deployment → recoverWalletNoteFromLogWithContext c hash event context =
        some (entryOf hash context event n)) ∧
      (¬Supported context.deployment →
        recoverWalletNoteFromLogWithContext c hash event context = none) := by
  have hentry := fun o => makeEntry_eq_ok (o := o) hhash hkept
  unfold recoverWalletNoteFromLogWithContext
  rw [if_neg hnote, hplain]
  dsimp only
  constructor
  · intro hsupported
    rw [(hentry _).mpr ⟨hsupported, rfl⟩]
  · intro hsupported
    cases hmade : makeEntry hash event context (spendValue n) with
    | ok o => exact absurd ((hentry o).mp hmade).1 hsupported
    | error e => rfl

end Spec

/-- **A recovery** is a round for each event. -/
theorem recoverWalletNotesFromChain_eq_ok {c : Crypto} {hash : FieldHash} {input : RecoverInput}
    {out : List RecoveredWalletNoteEntry} : recoverWalletNotesFromChain c hash input = .ok out ↔
      ((input.deployment.chainId = 6343 ∨ input.deployment.chainId = 4326) ∧
        trim input.deployment.rpcUrl ≠ [] ∧ isEvmAddress input.deployment.pool ∧
        isHexString input.walletSignature) ∧
      out = input.events.filterMap fun event => recoverWalletNoteFromLogWithContext c hash event
        { recoveryKeys := recoveryKeys c input.walletSignature input.deployment.chainId
            input.deployment.pool
          deployment := input.deployment, isSpent := input.isSpent } := by
  unfold recoverWalletNotesFromChain deriveWalletRecoveryKey hexToBytes
  simp only [List.mapM_cons, List.mapM_nil, bind_eq_ok, ensure_eq_ok, exists_const, pure_eq_ok]
  constructor
  · rintro ⟨h1, h2, h3, _, ⟨_, ⟨_, ⟨h4, -⟩, rfl⟩, _, ⟨_, ⟨_, -, rfl⟩, _, rfl, rfl⟩, rfl⟩, rfl⟩
    exact ⟨⟨h1, h2, h3, h4⟩, rfl⟩
  · rintro ⟨⟨h1, h2, h3, h4⟩, rfl⟩
    exact ⟨h1, h2, h3, _, ⟨_, ⟨_, ⟨h4, rfl⟩, rfl⟩, _, ⟨_, ⟨_, ⟨h4, rfl⟩, rfl⟩, _, rfl, rfl⟩, rfl⟩,
      rfl⟩

end Nullark.Web.WalletNotes
