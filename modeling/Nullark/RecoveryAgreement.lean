import Nullark.Pool.NoteLogs
import Nullark.Sdk.DepositRecovery
import Nullark.Web.WalletNotes

/-! # The notes the SDK and the web app recover

Both read the note events of the pool. The clients encrypt a deposit in an envelope of version 1 and
the retained note of a withdrawal in one of version 2.

* `Emitted`: the event of such a note, in the logs of a pool.
* `recoveries_agree_iff`: when both recover the same notes. -/

namespace Nullark.RecoveryAgreement

open Nullark.Lib Nullark.Lib.Outcome Nullark.Lib.Rollback
open Nullark.Lib.Hex hiding value Digits ofNat
open Nullark.Lib.Aead (Crypto)
open Nullark.Core.Proofs (maxSafeInteger)
open Nullark.Evm.Basic Nullark.Pool.Interface Nullark.Pool.Context Nullark.Pool.Tree
open Nullark.Pool.Actions Nullark.Pool.Calls Nullark.Pool.Checks Nullark.Pool.Effects
open Nullark.Pool.History Nullark.Pool.NoteLogs
open Nullark.Js.Basic Nullark.Js.Bytes Nullark.Js.TreeHash
open Nullark.Js.Numbers (trim)
open Nullark.Js.SpendMaterial Nullark.Js.NoteEnvelope
open Nullark.Sdk.Poseidon (CommitmentFits isField_hex32 deriveNoteCommitment_eq_ok)
open Nullark.Sdk.NoteRecovery hiding RecoverInput
open Nullark.Sdk.DepositRecovery (deriveCommitmentFromSpendMaterial)
open Nullark.Web.Poseidon (deriveBrowserNoteCommitment_of_fits)
open Nullark.Js.OutputNoteEnvelope (CreateInput hexByteLength)
open Nullark.Web.NoteRecovery (OutputNoteKeys RetainedNote readBack spendValue epochStart createInput_fits
  tryDecryptEvent_noteEnvelope isCommitment_padHex32
  tryDecryptV2OutputEvent_of_encrypted   deriveBrowserOutputNoteCommitment_readBack)
open Nullark.Web.WalletNotes hiding RecoverInput

/-! ### Events -/

/-- **`decodeNoteEventLog`** and `decodeNoteEvent`, of the log of an event: words and bytes are
written in lower case. -/
def decodeNoteEventLog (transactionHash : Text) : Event → Option DecodedNoteEventLog
  | .depositNoteCreated commitment leafIndex encryptedNote encryptionVersion =>
    some { action := .deposit, commitment := hex32 commitment, leafIndex
           encryptedNote := hexText encryptedNote, encryptionVersion, nullifier := none
           transactionHash }
  | .privateTransferNoteCreated commitment nullifier leafIndex encryptedNote encryptionVersion =>
    some { action := .privateTransfer, commitment := hex32 commitment, leafIndex
           encryptedNote := hexText encryptedNote, encryptionVersion
           nullifier := some (hex32 nullifier), transactionHash }
  | .withdrawalOutputNoteCreated commitment nullifier leafIndex _ encryptedNote encryptionVersion =>
    some { action := .withdrawOutput, commitment := hex32 commitment, leafIndex
           encryptedNote := hexText encryptedNote, encryptionVersion
           nullifier := some (hex32 nullifier), transactionHash }
  | _ => none

/-- A wallet, for a pool on a chain. -/
structure Wallet where
  walletSignature : Text
  chainId : ℕ
  pool : Text

/-- What the retained note of a withdrawal is encrypted with. -/
def Wallet.outputKeys (w : Wallet) (nonce : Bytes) : OutputNoteKeys where
  walletSignature := w.walletSignature
  chainId := w.chainId
  pool := w.pool
  nonce := nonce

section Notes
variable (c : Crypto) (hash : FieldHash) (isDate : Text → Bool) (w : Wallet)

/-- **The note of a deposit**, of a positive amount and field elements. -/
structure DepositNote (n : SpendMaterialPlaintext) : Prop where
  version : n.version = spendMaterialVersion
  chainId : n.chainId = w.chainId
  pool : n.pool = w.pool
  assetId : n.assetId = nativeEthAssetId
  noteAmountWei : Decimal.isDecimal n.noteAmountWei ∧ 0 < Decimal.value n.noteAmountWei ∧
    Decimal.value n.noteAmountWei < bn254ScalarField
  ownerCommitment : isBn254FieldElement n.ownerCommitment
  noteSecret : isBn254FieldElement n.noteSecret
  blinding : isBn254FieldElement n.blinding
  commitment : n.commitment = padHex32 (hash (outputPreimage n.preimage))
  createdAt : n.createdAt ≠ [] ∧ isDate n.createdAt

/-- **The retained note of a withdrawal**, of a positive amount and field elements. -/
structure OutputNote (n : SpendMaterialPlaintext) : Prop where
  retained : RetainedNote hash w.chainId w.pool n
  noteAmountWei : 0 < Decimal.value n.noteAmountWei ∧ Decimal.value n.noteAmountWei < 2 ^ 128
  ownerCommitment : isBn254FieldElement n.ownerCommitment
  noteSecret : isBn254FieldElement n.noteSecret
  blinding : isBn254FieldElement n.blinding

/-- **An event with a note for the wallet**, as the clients encrypt it. -/
inductive EncryptedFor : Event → Prop
  | deposit {n : SpendMaterialPlaintext} {nonce : Bytes} (leafIndex : ℕ)
      (hn : DepositNote hash isDate w n) (hnonce : nonce.length = 12) :
      EncryptedFor (.depositNoteCreated (word n.commitment) leafIndex
        (noteEnvelope c w.walletSignature w.chainId w.pool .deposit nonce n).bytes
        encryptedNoteVersion)
  | output {n : SpendMaterialPlaintext} {nonce : Bytes} (nullifier : Bytes32) (leafIndex : ℕ)
      (grossAmount : UInt256) (hn : OutputNote hash w n) (hnonce : nonce.length = 24)
      (hfits : ((w.outputKeys nonce).createInput c n).Fits) :
      EncryptedFor (.withdrawalOutputNoteCreated (word n.commitment) nullifier leafIndex grossAmount
        ((w.outputKeys nonce).createInput c n).envelope.bytes encryptedOutputNoteVersion)

/-- **A note event of a pool** with a note for the wallet. -/
def Emitted (logs : List Event) (event : DecodedNoteEventLog) : Prop :=
  ∃ log ∈ logs, EncryptedFor c hash isDate w log ∧
    ∃ transactionHash, isHexBytes32 transactionHash ∧
      decodeNoteEventLog transactionHash log = some event

end Notes

/-! ### Recoveries -/

/-- What a wallet shows of a note. -/
structure VisibleNote where
  commitment : Text
  leafIndex : ℕ
  noteAmountWei : Text
  ownerCommitment : Text
  noteSecret : Text
  deriving DecidableEq, Repr, Inhabited

def sdkNote (x : RecoveredSpendMaterial) : VisibleNote :=
  ⟨x.event.commitment, x.event.leafIndex, x.plaintext.noteAmountWei, x.plaintext.ownerCommitment,
    x.plaintext.noteSecret⟩

def webNote (x : RecoveredWalletNoteEntry) : VisibleNote :=
  ⟨x.record.commitment, x.record.leafIndex, x.record.fields.noteAmountWei,
    x.record.fields.ownerCommitment, x.record.fields.noteSecret⟩

section Recoveries
variable (c : Crypto) (hash : FieldHash) (isDate : Text → Bool) (w : Wallet) (rpcUrl : Text)
  (isSpent : Text → Bool) (events : List DecodedNoteEventLog)

def Wallet.deployment : NoteRecordDeployment := ⟨w.chainId, rpcUrl, w.pool⟩

/-- The recovery of the SDK. -/
def Wallet.sdkInput : Sdk.NoteRecovery.RecoverInput where
  walletSignature := w.walletSignature
  chainId := w.chainId
  pool := w.pool
  events := events

/-- The recovery of the app. -/
def Wallet.webInput : Web.WalletNotes.RecoverInput where
  walletSignature := w.walletSignature
  deployment := w.deployment rpcUrl
  isSpent := isSpent
  events := events

/-- **The two recoveries agree**: both end, with the same set of notes. -/
def SameNotes : Prop :=
  ∃ out out', Sdk.NoteRecovery.recoverSpendMaterialFromDecodedNoteEvents c isDate
      (deriveCommitmentFromSpendMaterial hash) (w.sdkInput events) = .ok out ∧
    recoverWalletNotesFromChain c hash (w.webInput rpcUrl isSpent events) = .ok out' ∧
    ∀ note, (∃ x ∈ out, sdkNote x = note) ↔ ∃ x ∈ out', webNote x = note

end Recoveries

/-! ### The logs of a pool -/

section Logs
variable {env : Env} {answers : Answers} {config : Config World (Option Pending)}
  {log log' : Event} {x x' : Bytes32 × ℕ}

/-- A note in the logs is that of a leaf. -/
theorem note_of_log (h : Reachable env answers config) (hlog : log ∈ config.world.logs)
    (hx : noteOf log = some x) : x.1 ≠ 0 ∧ x.2 ≤ maxSafeInteger := by
  have htracks := (tracks_reachable h).1
  have hleaf := (noteLogs_reachable h).2 x (List.mem_filterMap.mpr ⟨log, hlog, hx⟩)
  have hlt : x.2 < (leavesOf config.world).length := (List.getElem?_eq_some_iff.mp hleaf).1
  have hfits : (leavesOf config.world).length ≤ merkleTreeCapacity := htracks.recorded.grown.fits
  have hsafe : merkleTreeCapacity ≤ maxSafeInteger := by decide
  exact ⟨(htracks.field _ (List.mem_of_getElem? hleaf)).1, by omega⟩

/-- **The notes of one leaf are one event.** -/
theorem log_eq_of_leaf (h : Reachable env answers config) (hlog : log ∈ config.world.logs)
    (hlog' : log' ∈ config.world.logs) (hx : noteOf log = some x) (hx' : noteOf log' = some x')
    (hleaf : x.2 = x'.2) : log = log' := by
  have hnodup := (noteLogs_reachable h).1
  rw [noteLogs, List.Nodup, List.pairwise_map, List.pairwise_filterMap] at hnodup
  by_contra hne
  have hsymm : Std.Symm fun a b : Event => ∀ y, noteOf a = some y → ∀ z, noteOf b = some z →
      y.2 ≠ z.2 := ⟨fun a b hab y hy z hz heq => hab z hz y hy heq.symm⟩
  exact hnodup.forall hlog hlog' hne x hx x' hx' hleaf

end Logs

/-! ### One event -/

section Event
variable {c : Crypto} {hash : FieldHash} {isDate : Text → Bool} {w : Wallet} (rpcUrl : Text)
  (isSpent : Text → Bool) (events : List DecodedNoteEventLog) {event : DecodedNoteEventLog}
  {n : SpendMaterialPlaintext} {nonce : Bytes}

/-- What the app recovers an event with. -/
def Wallet.webContext (c : Crypto) (w : Wallet) (rpcUrl : Text) (isSpent : Text → Bool) :
    RecoveryContext where
  recoveryKeys := recoveryKeys c w.walletSignature w.chainId w.pool
  deployment := w.deployment rpcUrl
  isSpent := isSpent

/-- The round of the app for an event. -/
def Wallet.webRound (c : Crypto) (hash : FieldHash) (w : Wallet) (rpcUrl : Text)
    (isSpent : Text → Bool) (event : DecodedNoteEventLog) : Option RecoveredWalletNoteEntry :=
  recoverWalletNoteFromLogWithContext c hash event (w.webContext c rpcUrl isSpent)

theorem DepositNote.fits (hn : DepositNote hash isDate w n) : CommitmentFits n.preimage where
  assetId := by
    change Sdk.Poseidon.IsField n.assetId
    rw [hn.assetId]
    exact isField_hex32 (by decide)
  noteAmountWei := hn.noteAmountWei
  ownerCommitment := ⟨hn.ownerCommitment.1, hn.ownerCommitment.2.2⟩
  noteSecret := ⟨hn.noteSecret.1, hn.noteSecret.2.2⟩

/-- The spend material of a deposit is valid. -/
theorem DepositNote.valid (hhash : ∀ l, hash l < bn254ScalarField)
    (hn : DepositNote hash isDate w n) (hchain : isChainId w.chainId) (hpool : isEvmAddress w.pool) :
    ValidMaterial isDate n where
  version := hn.version
  chainId := hn.chainId ▸ hchain
  pool := hn.pool ▸ hpool
  assetId := hn.fits.assetId.1
  ownerCommitment := hn.ownerCommitment.1
  noteSecret := hn.noteSecret.1
  blinding := hn.blinding.1
  commitment := by
    rw [hn.commitment]
    exact Sdk.Deposit.isHexBytes32_padHex32 ((hhash _).trans (by decide))
  noteAmountWei := ⟨hn.noteAmountWei.1, hn.noteAmountWei.2.1⟩
  createdAt := hn.createdAt

/-- A commitment that is a leaf is a hash that is not zero. -/
theorem hash_pos {l : List ℕ} {commitment : Text} (h : commitment = padHex32 (hash l))
    (hne : word commitment ≠ 0) : 0 < hash l := by
  refine Nat.pos_of_ne_zero fun hzero => hne ?_
  rw [h, hzero, padHex32_eq_hex32 (by decide), word_hex32]
  rfl

/-- **The SDK finds a deposit.** -/
theorem sdkRound_deposit (hc : Aead.Documented c) (hhash : ∀ l, hash l < bn254ScalarField)
    (hn : DepositNote hash isDate w n) (hnonce : nonce.length = 12) (hchain : isChainId w.chainId)
    (hpool : isEvmAddress w.pool) (hne : word n.commitment ≠ 0) (haction : event.action = .deposit)
    (hcommitment : event.commitment = n.commitment) (hnote : event.encryptedNote =
      hexText (noteEnvelope c w.walletSignature w.chainId w.pool .deposit nonce n).bytes) :
    (w.sdkInput events).round c isDate (deriveCommitmentFromSpendMaterial hash) event =
      .ok (some { event, plaintext := n }) := by
  have hopens := opensAt_noteEnvelope hchain hpool (hn.valid hhash hchain hpool)
    (noteEnvelope_fits hc hnonce n) haction hcommitment hnote
  have hderived : deriveCommitmentFromSpendMaterial hash n = .ok n.commitment :=
    deriveNoteCommitment_eq_ok.mpr ⟨hn.fits, ⟨hash_pos hn.commitment hne, hhash _⟩,
      hn.commitment⟩
  exact (round_eq_some hc).mpr ⟨rfl, ⟨hopens, hn.chainId, congrArg lower hn.pool⟩, n.commitment,
    hderived, congrArg lower hcommitment.symm⟩

/-- **It finds no retained note.** -/
theorem sdkRound_output (houtput : event.action = .withdrawOutput ∧ event.encryptionVersion = 2) :
    (w.sdkInput events).round c isDate (deriveCommitmentFromSpendMaterial hash) event =
      .ok none := by
  unfold RecoverInput.round recoverEvent
  rw [tryDecryptEvent_output houtput]
  rfl

/-- **The app finds a deposit**, if it keeps records for the deployment. -/
theorem webRound_deposit (hc : Aead.Documented c) (hhash : ∀ l, hash l < bn254ScalarField)
    (hn : DepositNote hash isDate w n) (hnonce : nonce.length = 12) (hchain : isChainId w.chainId)
    (hpool : isEvmAddress w.pool) (hne : word n.commitment ≠ 0) (haction : event.action = .deposit)
    (hcommitment : event.commitment = n.commitment) (hnote : event.encryptedNote =
      hexText (noteEnvelope c w.walletSignature w.chainId w.pool .deposit nonce n).bytes)
    (hleaf : event.leafIndex ≤ maxSafeInteger) (htx : isHexBytes32 event.transactionHash) :
    (Supported (w.deployment rpcUrl) → ∃ x, w.webRound c hash rpcUrl isSpent event = some x ∧
        webNote x = sdkNote { event, plaintext := n }) ∧
      (¬Supported (w.deployment rpcUrl) → w.webRound c hash rpcUrl isSpent event = none) := by
  have hplain := tryDecryptEvent_noteEnvelope hc (hn.chainId ▸ Nat.lt_succ_of_le hchain.2)
    (noteEnvelope_fits hc hnonce n) haction hcommitment hnote
  have hnative : isHexBytes32 n.assetId ∧ lower n.assetId = nativeEthAssetId := by
    rw [hn.assetId]
    exact ⟨isHexBytes32_hex32 1, lower_hex32 1⟩
  have hderived : deriveEventCommitment hash event n.preimage = .ok event.commitment := by
    have hversion : ¬(event.action = .withdrawOutput ∧ event.encryptionVersion = 2) := by
      rw [haction]
      exact (nomatch ·.1)
    unfold deriveEventCommitment
    rw [if_neg hversion, hcommitment, hn.commitment]
    exact deriveBrowserNoteCommitment_of_fits hhash hn.fits
  have hempty : event.encryptedNote ≠ emptyNote := by
    rw [hnote]
    exact hexText_envelope_ne
  have hfield : isBn254FieldElement event.commitment := by
    rw [hcommitment, hn.commitment]
    exact isBn254FieldElement_padHex32 (hash_pos hn.commitment hne) (hhash _)
  have hkept : Kept hash (w.webContext c rpcUrl isSpent) event n :=
    ⟨hderived, hchain, ⟨hpool, hnative, hfield, hn.ownerCommitment, hn.noteSecret, hn.blinding,
      hn.noteAmountWei, htx, hn.createdAt.1, hleaf⟩⟩
  have hround := @recoverWalletNoteFromLogWithContext_of_decrypted hash
    (w.webContext c rpcUrl isSpent) event _ c hhash hempty hplain hkept
  exact ⟨fun h => ⟨_, hround.1 h, rfl⟩, hround.2⟩

theorem isBn254FieldElement_lower {t : Text} (h : isBn254FieldElement t) :
    isBn254FieldElement (lower t) := by
  rw [isBn254FieldElement, hexNat_lower h.1]
  exact ⟨isHexOfLength_lower h.1, h.2⟩

/-- **The app finds a retained note**, if it keeps records for the deployment. -/
theorem webRound_output (hc : Aead.Documented c) (hhash : ∀ l, hash l < bn254ScalarField)
    (hn : OutputNote hash w n) (hfits : ((w.outputKeys nonce).createInput c n).Fits)
    (hchain : isChainId w.chainId) (hne : word n.commitment ≠ 0)
    (houtput : event.action = .withdrawOutput ∧ event.encryptionVersion = 2)
    (hcommitment : event.commitment = n.commitment) (hnote : event.encryptedNote =
      hexText ((w.outputKeys nonce).createInput c n).envelope.bytes)
    (hleaf : event.leafIndex ≤ maxSafeInteger) (htx : isHexBytes32 event.transactionHash) :
    (Supported (w.deployment rpcUrl) → ∃ x, w.webRound c hash rpcUrl isSpent event = some x ∧
        webNote x = sdkNote { event, plaintext := readBack n w.chainId w.pool n.commitment }) ∧
      (¬Supported (w.deployment rpcUrl) → w.webRound c hash rpcUrl isSpent event = none) := by
  have hplain : Web.NoteRecovery.tryDecryptEvent c event
      (recoveryKeys c w.walletSignature w.chainId w.pool) w.chainId w.pool =
        some (spendValue (readBack n w.chainId w.pool n.commitment)) := by
    unfold Web.NoteRecovery.tryDecryptEvent
    rw [if_pos houtput]
    exact congrArg (Option.map spendValue)
      (tryDecryptV2OutputEvent_of_encrypted hc hn.retained.note hfits hcommitment hnote)
  have hnative : isHexBytes32 nativeEthAssetId ∧ lower nativeEthAssetId = nativeEthAssetId :=
    ⟨isHexBytes32_hex32 1, lower_hex32 1⟩
  have hderived : deriveEventCommitment hash event
      (readBack n w.chainId w.pool n.commitment).preimage = .ok event.commitment := by
    unfold deriveEventCommitment
    rw [if_pos houtput, hcommitment]
    exact deriveBrowserOutputNoteCommitment_readBack (k := w.outputKeys nonce) hn.retained _ _ _
  have hempty : event.encryptedNote ≠ emptyNote := by
    have hlength := (Js.OutputNoteEnvelope.length_bytes_le
      (Js.OutputNoteEnvelope.wellFormed_envelope hfits)).1
    rw [hnote]
    exact fun h => absurd (hexText_injective (h.trans rfl)) (List.length_pos_iff.mp hlength)
  have hfield : isBn254FieldElement event.commitment := by
    rw [hcommitment, hn.retained.commitment]
    exact isBn254FieldElement_padHex32 (hash_pos hn.retained.commitment hne) (hhash _)
  have hamount : Decimal.value n.noteAmountWei < bn254ScalarField :=
    hn.noteAmountWei.2.trans (by decide)
  have hkept : Kept hash (w.webContext c rpcUrl isSpent) event
      (readBack n w.chainId w.pool n.commitment) :=
    ⟨hderived, hchain, ⟨hn.retained.pool, hnative, hfield,
      isBn254FieldElement_lower hn.ownerCommitment, isBn254FieldElement_lower hn.noteSecret,
      isBn254FieldElement_lower hn.blinding,
      ⟨hn.retained.note.noteAmountWei.1, hn.noteAmountWei.1, hamount⟩, htx,
      (by decide : epochStart ≠ []), hleaf⟩⟩
  have hround := @recoverWalletNoteFromLogWithContext_of_decrypted hash
    (w.webContext c rpcUrl isSpent) event _ c hhash hempty hplain hkept
  exact ⟨fun h => ⟨_, hround.1 h, rfl⟩, hround.2⟩

/-- **What the two make of an event**: the SDK shows the deposits, the app all notes or none. -/
structure Shown (c : Crypto) (hash : FieldHash) (isDate : Text → Bool) (w : Wallet) (rpcUrl : Text)
    (isSpent : Text → Bool) (events : List DecodedNoteEventLog) (event : DecodedNoteEventLog)
    (note : VisibleNote) : Prop where
  leafIndex : note.leafIndex = event.leafIndex
  deposit : event.action = .deposit → ∃ x,
    (w.sdkInput events).round c isDate (deriveCommitmentFromSpendMaterial hash) event =
      .ok (some x) ∧ sdkNote x = note
  output : event.action ≠ .deposit →
    (w.sdkInput events).round c isDate (deriveCommitmentFromSpendMaterial hash) event = .ok none
  supported : Supported (w.deployment rpcUrl) →
    ∃ x, w.webRound c hash rpcUrl isSpent event = some x ∧ webNote x = note
  unsupported : ¬Supported (w.deployment rpcUrl) → w.webRound c hash rpcUrl isSpent event = none

variable {env : Env} {answers : Answers} {config : Config World (Option Pending)}

/-- **Every emitted event** is shown. -/
theorem exists_shown (hc : Aead.Documented c) (hhash : ∀ l, hash l < bn254ScalarField)
    (hreach : Reachable env answers config) (hchain : isChainId w.chainId)
    (hpool : isEvmAddress w.pool) (h : Emitted c hash isDate w config.world.logs event) :
    ∃ note, Shown c hash isDate w rpcUrl isSpent events event note := by
  obtain ⟨log, hlog, hencrypted, transactionHash, htx, hdecode⟩ := h
  have hread : ∀ {l : List ℕ} {commitment : Text}, commitment = padHex32 (hash l) →
      hex32 (word commitment) = commitment := by
    rintro l _ rfl
    exact (isCommitment_padHex32 (hhash l)).2.1
  cases hencrypted with
  | @deposit n nonce leafIndex hn hnonce =>
    obtain ⟨hne, hleaf⟩ := note_of_log hreach hlog rfl
    have hevent := Option.some.inj hdecode
    have haction : event.action = .deposit := hevent ▸ rfl
    have hcommitment : event.commitment = n.commitment := by
      rw [← hevent]
      exact hread hn.commitment
    have hnote : event.encryptedNote = hexText (noteEnvelope c w.walletSignature w.chainId w.pool
        .deposit nonce n).bytes := hevent ▸ rfl
    have hsdk := sdkRound_deposit events hc hhash hn hnonce hchain hpool hne haction hcommitment
      hnote
    have hweb := webRound_deposit rpcUrl isSpent hc hhash hn hnonce hchain hpool hne haction
      hcommitment hnote (hevent ▸ hleaf) (hevent ▸ htx)
    exact ⟨_, rfl, fun _ => ⟨_, hsdk, rfl⟩, fun hother => absurd haction hother, hweb.1, hweb.2⟩
  | @output n nonce nullifier leafIndex grossAmount hn hnonce hfits =>
    obtain ⟨hne, hleaf⟩ := note_of_log hreach hlog rfl
    have hevent := Option.some.inj hdecode
    have houtput : event.action = .withdrawOutput ∧ event.encryptionVersion = 2 :=
      hevent ▸ ⟨rfl, rfl⟩
    have hcommitment : event.commitment = n.commitment := by
      rw [← hevent]
      exact hread hn.retained.commitment
    have hnote : event.encryptedNote =
        hexText ((w.outputKeys nonce).createInput c n).envelope.bytes := hevent ▸ rfl
    have hweb := webRound_output rpcUrl isSpent hc hhash hn hfits hchain hne houtput hcommitment
      hnote (hevent ▸ hleaf) (hevent ▸ htx)
    exact ⟨_, rfl, fun hdeposit => (nomatch hdeposit.symm.trans houtput.1),
      fun _ => sdkRound_output events houtput, hweb.1, hweb.2⟩

/-- An emitted event is that of a note in the logs. -/
theorem Emitted.exists_log {logs : List Event} (h : Emitted c hash isDate w logs event) :
    ∃ log ∈ logs, ∃ x transactionHash, noteOf log = some x ∧ x.2 = event.leafIndex ∧
      decodeNoteEventLog transactionHash log = some event := by
  obtain ⟨log, hlog, hencrypted, transactionHash, -, hdecode⟩ := h
  refine ⟨log, hlog, ?_⟩
  cases hencrypted with
  | deposit | output => exact ⟨_, _, rfl, Option.some.inj hdecode ▸ rfl, hdecode⟩

/-- Events of one leaf are of one kind. -/
theorem action_eq_of_leaf (hreach : Reachable env answers config) {event' : DecodedNoteEventLog}
    (h : Emitted c hash isDate w config.world.logs event)
    (h' : Emitted c hash isDate w config.world.logs event')
    (hleaf : event.leafIndex = event'.leafIndex) : event.action = event'.action := by
  obtain ⟨log, hlog, x, transactionHash, hx, hindex, hdecode⟩ := h.exists_log
  obtain ⟨log', hlog', x', transactionHash', hx', hindex', hdecode'⟩ := h'.exists_log
  obtain rfl := log_eq_of_leaf hreach hlog hlog' hx hx' (by rw [hindex, hindex', hleaf])
  cases log <;> simp only [decodeNoteEventLog, Option.some.injEq, reduceCtorEq] at hdecode hdecode' <;>
    rw [← hdecode, ← hdecode']

/-! ### Agreement -/

section Sets
variable {rpcUrl isSpent events} {note : VisibleNote} {f : DecodedNoteEventLog → VisibleNote}
  (hf : ∀ event ∈ events, Shown c hash isDate w rpcUrl isSpent events event (f event))
include hf

/-- The SDK shows the deposits. -/
theorem sdk_notes {out : List RecoveredSpendMaterial}
    (hsdk : recoverSpendMaterialFromDecodedNoteEvents c isDate
      (deriveCommitmentFromSpendMaterial hash) (w.sdkInput events) = .ok out) :
    (∃ x ∈ out, sdkNote x = note) ↔
      ∃ event ∈ events, event.action = .deposit ∧ f event = note := by
  constructor
  · rintro ⟨x, hx, rfl⟩
    obtain ⟨event, hevent, hround⟩ := (mem_recover hsdk).mp hx
    have hshown := hf event hevent
    by_cases haction : event.action = .deposit
    · obtain ⟨y, hy, hnote⟩ := hshown.deposit haction
      obtain rfl := Option.some.inj (Except.ok.inj (hround.symm.trans hy))
      exact ⟨event, hevent, haction, hnote.symm⟩
    · exact absurd (hround.symm.trans (hshown.output haction)) (nomatch ·)
  · rintro ⟨event, hevent, haction, rfl⟩
    obtain ⟨x, hx, hnote⟩ := (hf event hevent).deposit haction
    exact ⟨x, (mem_recover hsdk).mpr ⟨event, hevent, hx⟩, hnote⟩

/-- The app shows all notes, or none. -/
theorem web_notes {out : List RecoveredWalletNoteEntry}
    (hweb : recoverWalletNotesFromChain c hash (w.webInput rpcUrl isSpent events) = .ok out) :
    (∃ x ∈ out, webNote x = note) ↔
      Supported (w.deployment rpcUrl) ∧ ∃ event ∈ events, f event = note := by
  obtain ⟨-, rfl⟩ := recoverWalletNotesFromChain_eq_ok.mp hweb
  constructor
  · rintro ⟨x, hx, rfl⟩
    obtain ⟨event, hevent, hround⟩ := List.mem_filterMap.mp hx
    have hshown := hf event hevent
    by_cases hsupported : Supported (w.deployment rpcUrl)
    · obtain ⟨y, hy, hnote⟩ := hshown.supported hsupported
      obtain rfl := Option.some.inj (hround.symm.trans hy)
      exact ⟨hsupported, event, hevent, hnote.symm⟩
    · exact absurd (hround.symm.trans (hshown.unsupported hsupported)) (nomatch ·)
  · rintro ⟨hsupported, event, hevent, rfl⟩
    obtain ⟨x, hx, hnote⟩ := (hf event hevent).supported hsupported
    exact ⟨x, List.mem_filterMap.mpr ⟨event, hevent, hx⟩, hnote⟩

/-- The SDK recovers to the end. -/
theorem exists_sdk_recover (hc : Aead.Documented c) (hsignature : isWalletSignature w.walletSignature)
    (hchain : isChainId w.chainId) (hpool : isEvmAddress w.pool) :
    ∃ out, recoverSpendMaterialFromDecodedNoteEvents c isDate
      (deriveCommitmentFromSpendMaterial hash) (w.sdkInput events) = .ok out := by
  refine (exists_recover hc).mpr ⟨⟨hsignature, hchain, hpool⟩, fun event hevent => ?_⟩
  refine (exists_round hc).mp ?_
  by_cases haction : event.action = .deposit
  · obtain ⟨x, hx, -⟩ := (hf event hevent).deposit haction
    exact ⟨_, hx⟩
  · exact ⟨_, (hf event hevent).output haction⟩

end Sets

/-- **The recoveries line up**: both take the wallet, and the events are all deposits if the app keeps
records for the deployment, and none of them is one if it does not. -/
structure Aligned (w : Wallet) (rpcUrl : Text) (events : List DecodedNoteEventLog) : Prop where
  walletSignature : isWalletSignature w.walletSignature
  pool : isEvmAddress w.pool
  chainId : w.chainId = 6343 ∨ w.chainId = 4326
  node : trim rpcUrl ≠ []
  kinds : ∀ event ∈ events, (event.action = .deposit ↔ Supported (w.deployment rpcUrl))

section Agreement
variable {rpcUrl isSpent events} (hc : Aead.Documented c) (hhash : ∀ l, hash l < bn254ScalarField)
  (hreach : Reachable env answers config)
  (hevents : ∀ event ∈ events, Emitted c hash isDate w config.world.logs event)
include hc hhash hreach hevents

theorem exists_notes (hchain : isChainId w.chainId) (hpool : isEvmAddress w.pool) :
    ∃ f : DecodedNoteEventLog → VisibleNote,
      ∀ event ∈ events, Shown c hash isDate w rpcUrl isSpent events event (f event) := by
  have hshown := fun event hevent =>
    exists_shown rpcUrl isSpent events hc hhash hreach hchain hpool (hevents event hevent)
  choose! f hf using hshown
  exact ⟨f, hf⟩

theorem aligned_of_sameNotes (h : SameNotes c hash isDate w rpcUrl isSpent events) :
    Aligned w rpcUrl events := by
  obtain ⟨out, out', hsdk, hweb, hsame⟩ := h
  obtain ⟨⟨hsignature, hchain, hpool⟩, -⟩ := recover_eq_ok.mp hsdk
  obtain ⟨⟨hmega, hurl, -, -⟩, -⟩ := recoverWalletNotesFromChain_eq_ok.mp hweb
  obtain ⟨f, hf⟩ := exists_notes hc hhash hreach hevents hchain hpool
  have hsets : ∀ note, (∃ event ∈ events, event.action = .deposit ∧ f event = note) ↔
      Supported (w.deployment rpcUrl) ∧ ∃ event ∈ events, f event = note := fun note => by
    rw [← sdk_notes hf hsdk, ← web_notes hf hweb, hsame]
  refine ⟨hsignature, hpool, hmega, hurl, fun event hevent => ⟨fun haction => ?_, fun h => ?_⟩⟩
  · exact ((hsets _).mp ⟨event, hevent, haction, rfl⟩).1
  · -- the note of the event is that of a deposit, which has the same leaf
    obtain ⟨event', hevent', haction, hnote⟩ := (hsets _).mpr ⟨h, event, hevent, rfl⟩
    have hleaf : event.leafIndex = event'.leafIndex := by
      rw [← (hf event hevent).leafIndex, ← (hf event' hevent').leafIndex, hnote]
    rw [action_eq_of_leaf hreach (hevents event hevent) (hevents event' hevent') hleaf, haction]

theorem sameNotes_of_aligned (h : Aligned w rpcUrl events) :
    SameNotes c hash isDate w rpcUrl isSpent events := by
  have hchain : isChainId w.chainId := by rcases h.chainId with h | h <;> rw [h] <;> decide
  have hhex : isHexString w.walletSignature := isHexString_of_length (n := 65) h.walletSignature
  obtain ⟨f, hf⟩ := exists_notes hc hhash hreach hevents hchain h.pool
  obtain ⟨out, hsdk⟩ := exists_sdk_recover hf hc h.walletSignature hchain h.pool
  obtain ⟨out', hweb⟩ : ∃ out',
      recoverWalletNotesFromChain c hash (w.webInput rpcUrl isSpent events) = .ok out' :=
    ⟨_, recoverWalletNotesFromChain_eq_ok.mpr ⟨⟨h.chainId, h.node, h.pool, hhex⟩, rfl⟩⟩
  refine ⟨out, out', hsdk, hweb, fun note => ?_⟩
  rw [sdk_notes hf hsdk, web_notes hf hweb]
  constructor
  · rintro ⟨event, hevent, haction, hnote⟩
    exact ⟨(h.kinds event hevent).mp haction, event, hevent, hnote⟩
  · rintro ⟨hsupported, event, hevent, hnote⟩
    exact ⟨event, hevent, (h.kinds event hevent).mpr hsupported, hnote⟩

/-- **When the SDK and the app recover the same notes** of a run of the pool. -/
theorem recoveries_agree_iff :
    SameNotes c hash isDate w rpcUrl isSpent events ↔ Aligned w rpcUrl events :=
  ⟨aligned_of_sameNotes hc hhash hreach hevents, sameNotes_of_aligned hc hhash hreach hevents⟩

end Agreement

end Event

/-! ### A pool with a deposit and a withdrawal -/

/-- A wallet of the pool of the plain environment. -/
def sampleWallet : Wallet where
  walletSignature := '0' :: 'x' :: List.replicate 130 '1'
  chainId := 6343
  pool := addressText plainEnv.this

/-- The leaf of a note of 0.005 ETH. -/
def sampleLeaf : Bytes32 :=
  mixWord (outputPreimage ⟨nativeEthAssetId, Decimal.ofNat 5000000000000000, hex32 3, hex32 4⟩)

def sampleNote : SpendMaterialPlaintext where
  version := spendMaterialVersion
  chainId := 6343
  pool := sampleWallet.pool
  assetId := nativeEthAssetId
  noteAmountWei := Decimal.ofNat 5000000000000000
  ownerCommitment := hex32 3
  noteSecret := hex32 4
  blinding := hex32 5
  commitment := hex32 sampleLeaf
  createdAt := "2026-01-01T00:00:00.000Z".toList

def sampleNode : Text := "https://carrot.megaeth.com/rpc".toList

theorem supported_sample : Supported (sampleWallet.deployment sampleNode) where
  notLegacy := by decide
  chainId := .inl rfl
  rpcUrl := by decide
  known := fun h => ⟨rfl, rfl⟩

/-- A world of the plain environment with one deposit. -/
structure Deposited (commitment : Bytes32) (w : World) : Prop where
  reachable : Reachable plainEnv (fun _ => True) ⟨w, []⟩
  leaves : leavesOf w = [commitment]
  entered : ¬w.pool.entered
  nullifiers : ∀ ν, ¬w.pool.nullifiers ν
  accounting : w.pool.accounting = ⟨0, 0, 5000000000000000, 0⟩
  fees : w.pool.fees = Pool.Fees.initialFees
  balance : w.balances 7 = 5000000000000000

/-- The deposit of any note is logged. -/
theorem exists_deposited {commitment : Bytes32} (hne : commitment ≠ 0)
    (hfield : isFieldElement commitment) {encryptedNote : Bytes} (hnote : encryptedNote.length ≠ 0)
    (hlength : encryptedNote.length ≤ maxEncryptedNoteBytes) :
    ∃ w, Deposited commitment w ∧
      .depositNoteCreated commitment 0 encryptedNote encryptedNoteVersion ∈ w.logs := by
  have hchecked := @plainDepositNote_checked (plainWorld 5000000000000000).pool commitment
    encryptedNote hne hfield Bool.false_ne_true hnote hlength
  obtain ⟨w, hexec⟩ := exec_deposit (by decide) (by decide) hchecked (by decide)
    Pool.Roots.recorded_initial (by decide)
  have hdeployed := plainWorld_deployed 5000000000000000
  have hleaves : leavesOf w = [commitment] :=
    (tracks_exec (tracks_deployed hdeployed) hexec).leavesOf_eq
  obtain ⟨-, -, heffect⟩ := exec_ok hexec
  cases heffect with
  | deposit hd =>
    obtain ⟨i, events, hrecord, hlogs⟩ := hd.records
    obtain ⟨rfl, -⟩ := noteLogs_recorded Pool.Roots.recorded_initial hrecord
    refine ⟨w, ⟨⟨_, hdeployed, .single (.step (.call trivial (by decide) hexec))⟩, hleaves,
      hd.entered, fun ν => ?_, hd.accounting, hd.fees, ?_⟩, ?_⟩
    · rw [hd.nullifiers]
      exact Bool.false_ne_true
    · rw [hd.balances]
      decide
    · rw [hlogs]
      exact List.mem_append_right _ (List.mem_cons_of_mem _ (List.mem_singleton_self _))

/-- The public inputs of a withdrawal of the deposit. -/
def withdrawalInputs (root outputCommitment : Bytes32) : List Bytes32 :=
  [root, 9, outputCommitment, 11, 5000000000000000, 16500000000000, 6343, 7, 0, 0]

def withdrawalCall (root outputCommitment : Bytes32) (encryptedOutputNote : Bytes) : Call :=
  .withdrawNoteBounded [] (withdrawalInputs root outputCommitment) 9 11 5000000000000000
    encryptedOutputNote 0 16500000000000

def withdrawalArgs (root outputCommitment : Bytes32) (encryptedOutputNote : Bytes) : WithdrawArgs :=
  { proof := [], publicInputs := withdrawalInputs root outputCommitment, nullifier := 9
    destination := 11, grossAmount := 5000000000000000, encryptedOutputNote
    relayerPolicy := boundsPolicy 0 16500000000000, selector := 0x678d8506 }

def withdrawalMsg : Msg := { sender := 1, value := 0, timestamp := 0 }

section Withdrawal
variable {w : World} {outputCommitment : Bytes32} {encryptedOutputNote : Bytes}

theorem Deposited.fee {commitment : Bytes32} (h : Deposited commitment w) :
    feeOf w.pool 5000000000000000 = 16500000000000 := by
  unfold feeOf
  rw [h.fees]
  decide

theorem withdrawal_checked (h : Deposited 5 w) (hne : outputCommitment ≠ 0)
    (hfield : isFieldElement outputCommitment) (hfresh : outputCommitment ≠ 5)
    (hnote : encryptedOutputNote.length ≠ 0)
    (hlength : encryptedOutputNote.length ≤ maxEncryptedNoteBytes) :
    WithdrawChecked plainEnv (fun _ _ => true) w.pool withdrawalMsg
      (withdrawalArgs w.pool.roots.currentRoot outputCommitment encryptedOutputNote) := by
  have htracks := (tracks_reachable h.reachable).1
  have hroot : w.pool.roots.currentRoot ≠ 0 := by
    rw [htracks.recorded.currentRoot, h.leaves]
    decide
  have hsupported : isSupportedDenomination (5000000000000000 : UInt256).toNat := by decide
  have hproduct : (5000000000000000 : UInt256).toNat * Pool.Fees.initialFees.feeBps < wordSize := by
    decide
  exact
    { nullifier_ne := (by decide : (9 : Bytes32) ≠ 0)
      unspent := h.nullifiers _
      destination_ne := (by decide : (11 : Address) ≠ 0)
      gross_pos := pos_of_supported hsupported
      note_le := hlength
      product_lt := by
        rw [h.fees]
        exact hproduct
      common := ⟨rfl, ⟨hroot, htracks.recorded.current⟩, rfl, rfl, rfl⟩
      commitment_ne := hne
      commitment_field := hfield
      commitment_fresh := by
        rw [htracks.commitments, h.leaves, List.mem_singleton]
        exact hfresh
      destination := (by decide : (11 : Bytes32) = addressToBytes32 11)
      grossAmount := rfl
      fee := congrArg (BitVec.ofNat 256) h.fee.symm
      policy := ⟨fun hne => absurd rfl hne, fun hne => absurd rfl hne⟩
      minNet_le := Nat.zero_le _
      supported := hsupported
      note_ne := hnote
      bindings := ⟨(hashToField_plain _).symm, (hashToField_plain _).symm⟩
      verified := rfl }

theorem withdrawal_liquid {commitment : Bytes32} (h : Deposited commitment w) (root : Bytes32) :
    LiquidityChecked w.pool (w.balances plainEnv.this)
      (withdrawalArgs root outputCommitment encryptedOutputNote)
      (feeOf w.pool 5000000000000000) := by
  have hgross : (5000000000000000 : UInt256).toNat = 5000000000000000 := by decide
  have hmax : (16500000000000 : UInt256).toNat = 16500000000000 := by decide
  have hbalance : w.balances plainEnv.this = 5000000000000000 := h.balance
  rw [h.fee, hbalance]
  constructor
  all_goals
    simp only [h.accounting, withdrawalArgs, boundsPolicy, hgross, hmax]
    decide

/-- **The retained note of a withdrawal is logged** when its callee returns. -/
theorem exists_withdrawn (hne : outputCommitment ≠ 0) (hfield : isFieldElement outputCommitment)
    (hfresh : outputCommitment ≠ 5) (hnote : encryptedOutputNote.length ≠ 0)
    (hlength : encryptedOutputNote.length ≤ maxEncryptedNoteBytes) :
    ∃ w, Reachable plainEnv (fun _ => True) ⟨w, []⟩ ∧
      .withdrawalOutputNoteCreated outputCommitment 9 1 5000000000000000 encryptedOutputNote
        encryptedOutputNoteVersion ∈ w.logs := by
  obtain ⟨w, h, -⟩ := @exists_deposited 5 (by decide) (by decide) [1] (by decide) (by decide)
  obtain ⟨htracks, -⟩ := tracks_reachable h.reachable
  have hroom : (leavesOf w).length < merkleTreeCapacity := by
    rw [h.leaves]
    decide
  have htotal : w.pool.accounting.totalDepositedAccounting < wordSize := by
    rw [h.accounting]
    decide
  obtain ⟨roots, i, events, hrecord⟩ :=
    Pool.Roots.recordCommitmentRoot_of_lt htracks.recorded hroom outputCommitment
  have hchecked := withdrawal_checked h hne hfield hfresh hnote hlength
  have hcall : (withdrawalCall w.pool.roots.currentRoot outputCommitment encryptedOutputNote).action =
      .withdraw (withdrawalArgs w.pool.roots.currentRoot outputCommitment encryptedOutputNote) := rfl
  obtain ⟨w', p, hexec⟩ := (exec_withdraw hcall rfl h.entered hchecked
    (withdrawal_liquid h _) htotal).1 _ hrecord
  obtain ⟨_, j, _, _, _, hj, rfl⟩ := pending_of_withdraw hcall hexec
  obtain ⟨rfl, -⟩ := noteLogs_recorded htracks.recorded hj
  rw [h.leaves] at hexec
  obtain ⟨w₀, hdeployed, hrun⟩ := h.reachable
  refine ⟨_, ⟨w₀, hdeployed, (hrun.tail (.opens (.call trivial (by decide) hexec))).tail
    (.closes (.call (by decide : (11 : Address) ≠ 7)))⟩, ?_⟩
  exact List.mem_append_right _ (List.mem_cons_of_mem _ (List.mem_cons_of_mem _ List.mem_cons_self))

end Withdrawal

/-! ### The notes of the sample -/

def sampleCrypto : Crypto := Aead.checksumCrypto fun key salt info => key ++ salt ++ info

theorem documented_sampleCrypto : Aead.Documented sampleCrypto := Aead.documented_checksum _

theorem word_sampleNote : word sampleNote.commitment = sampleLeaf := word_hex32 _

theorem sampleNote_amount : 0 < Decimal.value sampleNote.noteAmountWei ∧
    Decimal.value sampleNote.noteAmountWei < 2 ^ 128 := by
  change 0 < Decimal.value (Decimal.ofNat 5000000000000000) ∧
    Decimal.value (Decimal.ofNat 5000000000000000) < 2 ^ 128
  rw [Decimal.value_ofNat]
  decide

theorem sampleNote_deposit : DepositNote mixHash (fun _ => true) sampleWallet sampleNote where
  version := rfl
  chainId := rfl
  pool := rfl
  assetId := rfl
  noteAmountWei := ⟨Decimal.isDecimal_ofNat 5000000000000000, sampleNote_amount.1,
    sampleNote_amount.2.trans (by decide)⟩
  ownerCommitment := isBn254FieldElement_hex32 (by decide) (by decide)
  noteSecret := isBn254FieldElement_hex32 (by decide) (by decide)
  blinding := isBn254FieldElement_hex32 (by decide) (by decide)
  commitment := (padHex32_mixHash _).symm
  createdAt := by decide

theorem sampleNote_output : OutputNote mixHash sampleWallet sampleNote where
  retained :=
    { chainId := .inr rfl
      pool := isEvmAddress_addressText _
      assetId := ⟨isHexBytes32_hex32 1, lower_hex32 1⟩
      note := ⟨Decimal.isCanonical_ofNat 5000000000000000, isHexBytes32_hex32 3,
        isHexBytes32_hex32 4, isHexBytes32_hex32 5⟩
      commitment := (padHex32_mixHash _).symm }
  noteAmountWei := sampleNote_amount
  ownerCommitment := isBn254FieldElement_hex32 (by decide) (by decide)
  noteSecret := isBn254FieldElement_hex32 (by decide) (by decide)
  blinding := isBn254FieldElement_hex32 (by decide) (by decide)

def sampleDeposit : EncryptedNoteEnvelope :=
  noteEnvelope sampleCrypto sampleWallet.walletSignature sampleWallet.chainId sampleWallet.pool
    .deposit (List.replicate 12 2) sampleNote

def sampleOutput : CreateInput :=
  (sampleWallet.outputKeys (List.replicate 24 2)).createInput sampleCrypto sampleNote

theorem sampleOutput_fits : sampleOutput.Fits :=
  createInput_fits documented_sampleCrypto mixHash_lt sampleNote_output.retained rfl (by decide)

theorem length_sampleDeposit : sampleDeposit.bytes.length ≠ 0 ∧
    sampleDeposit.bytes.length ≤ maxEncryptedNoteBytes := by
  have hvalid : ValidMaterial (fun _ => true) sampleNote :=
    sampleNote_deposit.valid mixHash_lt (by decide) (isEvmAddress_addressText _)
  have hmaterial := hvalid.length_spendBytes (by decide)
  have hciphertext := length_hexBytes sampleDeposit.ciphertext
  have hsizes : (Decimal.ofNat sampleNote.chainId).length = 4 ∧
      sampleNote.noteAmountWei.length = 16 ∧ sampleNote.createdAt.length = 24 := by decide
  have hfits : sampleDeposit.Fits := noteEnvelope_fits documented_sampleCrypto rfl _
  rw [hfits.length_bytes, hexByteLength, ← hciphertext]
  simp only [sampleDeposit, noteEnvelope, hexBytes_hexText]
  rw [documented_sampleCrypto.length_encrypt, hmaterial]
  simp only [hsizes, Aead.tagLength, maxEncryptedNoteBytes]
  omega

/-- Both recover the deposit. -/
theorem recoveries_agree_deposit : ∃ config event, Reachable plainEnv (fun _ => True) config ∧
    Emitted sampleCrypto mixHash (fun _ => true) sampleWallet config.world.logs event ∧
    SameNotes sampleCrypto mixHash (fun _ => true) sampleWallet sampleNode (fun _ => false)
      [event] := by
  obtain ⟨w, h, hlogged⟩ := exists_deposited (mixWord_ne_zero _) (isFieldElement_mixWord _)
    length_sampleDeposit.1 length_sampleDeposit.2
  have hencrypted : EncryptedFor sampleCrypto mixHash (fun _ => true) sampleWallet
      (.depositNoteCreated (word sampleNote.commitment) 0 sampleDeposit.bytes
        encryptedNoteVersion) := .deposit 0 sampleNote_deposit List.length_replicate
  rw [word_sampleNote] at hencrypted
  have hemitted : Emitted sampleCrypto mixHash (fun _ => true) sampleWallet w.logs _ :=
    ⟨_, hlogged, hencrypted, hex32 8, isHexBytes32_hex32 8, rfl⟩
  refine ⟨⟨w, []⟩, _, h.reachable, hemitted, (recoveries_agree_iff documented_sampleCrypto
    mixHash_lt h.reachable (List.forall_mem_singleton.mpr hemitted)).mpr
    ⟨Sdk.Deposit.isWalletSignature_ones, isEvmAddress_addressText _, .inl rfl, by decide,
      fun event hevent => ?_⟩⟩
  obtain rfl := List.mem_singleton.mp hevent
  exact ⟨fun _ => supported_sample, fun _ => rfl⟩

/-- **A retained note is hidden from the SDK.** -/
theorem retained_note_hidden : ∃ config event, Reachable plainEnv (fun _ => True) config ∧
    Emitted sampleCrypto mixHash (fun _ => true) sampleWallet config.world.logs event ∧
    event.action = .withdrawOutput ∧
    ¬SameNotes sampleCrypto mixHash (fun _ => true) sampleWallet sampleNode (fun _ => false)
      [event] := by
  have hlength := Js.OutputNoteEnvelope.length_bytes_le
    (Js.OutputNoteEnvelope.wellFormed_envelope sampleOutput_fits)
  have hfresh : sampleLeaf ≠ 5 := by decide +kernel
  obtain ⟨w, hreach, hlogged⟩ := exists_withdrawn (mixWord_ne_zero _) (isFieldElement_mixWord _)
    hfresh hlength.1.ne' (hlength.2.trans (by decide))
  have hencrypted : EncryptedFor sampleCrypto mixHash (fun _ => true) sampleWallet
      (.withdrawalOutputNoteCreated (word sampleNote.commitment) 9 1 5000000000000000
        sampleOutput.envelope.bytes encryptedOutputNoteVersion) :=
    .output 9 1 5000000000000000 sampleNote_output List.length_replicate sampleOutput_fits
  rw [word_sampleNote] at hencrypted
  have hemitted : Emitted sampleCrypto mixHash (fun _ => true) sampleWallet w.logs _ :=
    ⟨_, hlogged, hencrypted, hex32 8, isHexBytes32_hex32 8, rfl⟩
  refine ⟨⟨w, []⟩, _, hreach, hemitted, rfl, fun h => ?_⟩
  have hkinds := (aligned_of_sameNotes documented_sampleCrypto mixHash_lt hreach
    (List.forall_mem_singleton.mpr hemitted) h).kinds _ (List.mem_singleton_self _)
  exact absurd (hkinds.mpr supported_sample) (nomatch ·)

end Nullark.RecoveryAgreement
