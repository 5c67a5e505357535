import Mathlib.Data.List.ReduceOption
import Nullark.Core.Proofs
import Nullark.Js.NoteEnvelope

/-! # Recovering notes with the SDK

* `tryDecryptEvent_eq_some`: an event that is decrypted was encrypted with a key of the wallet.
* `recover_eq_ok`: what a recovery returns. -/

namespace Nullark.Sdk.NoteRecovery

open Nullark.Lib Nullark.Lib.Outcome Nullark.Lib.Aead
open Nullark.Lib.Hex hiding value Digits ofNat
open Nullark.Lib.Json (Value Scalar Plain)
open Nullark.Core.Proofs (maxSafeInteger)
open Nullark.Evm.Basic Nullark.Js.Basic Nullark.Js.Bytes
open Nullark.Js.OutputNoteEnvelope Nullark.Js.SpendMaterial Nullark.Js.NoteEnvelope

/-- `/^0x[0-9a-fA-F]{130}$/`. -/
def isWalletSignature (t : Text) : Prop := isHexOfLength 130 t

instance (t : Text) : Decidable (isWalletSignature t) :=
  inferInstanceAs (Decidable (isHexOfLength 130 t))

/-- A positive safe integer. -/
def isChainId (chainId : ℕ) : Prop := 0 < chainId ∧ chainId ≤ maxSafeInteger

instance (chainId : ℕ) : Decidable (isChainId chainId) := inferInstanceAs (Decidable (_ ∧ _))

def makeRecoveryAssociatedData (input : RecoveryAssociatedData) : Throws Bytes := do
  ensure (isChainId input.chainId) "Expected recovery associated data chain ID."
  ensure (isEvmAddress input.pool) "Expected recovery associated data pool address."
  ensure (isHexBytes32 input.commitment) "Expected recovery associated data commitment."
  return input.bytes

def getNullarkRecoveryEpochId (chainId : ℕ) : Throws Text := do
  ensure (isChainId chainId) "Expected recovery epoch chain ID."
  return recoveryEpochId chainId

section Code
variable (c : Crypto) (isDate : Text → Bool)

def deriveWalletRecoveryKey (walletSignature : Text) (chainId : ℕ) (pool appId : Text) :
    Throws Bytes := do
  ensure (isWalletSignature walletSignature) "Expected wallet recovery signature bytes."
  ensure (isChainId chainId) "Expected wallet recovery chain ID."
  ensure (isEvmAddress pool) "Expected wallet recovery pool address."
  return walletRecoveryKey c walletSignature chainId pool appId

def deriveNoteKey (recoveryKey : Bytes) (commitment epochId : Text) : Throws Bytes := do
  ensure (isHexBytes32 commitment) "Expected note key commitment."
  ensure (epochId ≠ []) "Expected note key recovery epoch."
  return noteKey c recoveryKey commitment epochId

/-- **`validateSpendMaterialPlaintext`**. The last check is `Date.parse`. -/
def validateSpendMaterialPlaintext (value : SpendMaterialPlaintext) : Throws Unit := do
  ensure (value.version = spendMaterialVersion) "Unsupported spend material version."
  ensure (isChainId value.chainId) "Invalid spend material chain ID."
  ensure (isEvmAddress value.pool) "Invalid spend material pool."
  ensure (isHexBytes32 value.assetId) "Invalid spend material asset ID."
  ensure (isHexBytes32 value.ownerCommitment) "Invalid spend material owner commitment."
  ensure (isHexBytes32 value.noteSecret) "Invalid spend material note secret."
  ensure (isHexBytes32 value.blinding) "Invalid spend material blinding."
  ensure (isHexBytes32 value.commitment) "Invalid spend material commitment."
  ensure (Decimal.isDecimal value.noteAmountWei ∧ 0 < Decimal.value value.noteAmountWei)
    "Invalid spend material amount."
  ensure (value.createdAt ≠ [] ∧ isDate value.createdAt) "Invalid spend material creation time."

/-- `encryptSpendMaterialEnvelope`, with the 12 random bytes of the nonce. -/
def encryptSpendMaterialEnvelope (nonce key : Bytes) (plaintext : SpendMaterialPlaintext)
    (aad : Bytes) : Throws EncryptedNoteEnvelope := do
  validateSpendMaterialPlaintext isDate plaintext
  return { nonce := hexText nonce
           ciphertext := hexText (c.encrypt key nonce aad (spendBytes plaintext)) }

/-- The spend material of an envelope, if it can be decrypted and read. -/
def openEnvelope (key : Bytes) (encrypted : EncryptedNoteEnvelope) (aad : Bytes) :
    Option SpendMaterialPlaintext := do
  let decrypted ← c.decrypt key (hexBytes encrypted.nonce) aad (hexBytes encrypted.ciphertext)
  let value ← parseBytes decrypted
  readSpendMaterial value

/-- **`decryptEncryptedNoteEnvelope`**. -/
def decryptEncryptedNoteEnvelope (key : Bytes) (encrypted : EncryptedNoteEnvelope) (aad : Bytes) :
    Throws SpendMaterialPlaintext := do
  ensure (isHexBytes12 encrypted.nonce ∧ isNonEmptyHex encrypted.ciphertext)
    "Invalid encrypted note envelope."
  match openEnvelope c key encrypted aad with
  | none => .error "Failed to decrypt encrypted note envelope."
  | some plaintext =>
    match validateSpendMaterialPlaintext isDate plaintext with
    | .ok _ => return plaintext
    | .error _ => .error "Failed to decrypt encrypted note envelope."

/-- One round of the loops of `tryDecryptEvent`. -/
def attemptDecrypt (commitment : Text) (encrypted : EncryptedNoteEnvelope) (chainId : ℕ)
    (pool : Text) (a : Bytes × Text × EncryptedNoteV1Action) : Throws SpendMaterialPlaintext := do
  let key ← deriveNoteKey c a.1 commitment a.2.1
  let aad ← makeRecoveryAssociatedData { chainId, pool, action := a.2.2, commitment }
  decryptEncryptedNoteEnvelope c isDate key encrypted aad

/-- **`tryDecryptEvent`**. The envelope of an output note of version 2 is only parsed. -/
def tryDecryptEvent (event : DecodedNoteEventLog) (recoveryKeys : List Bytes)
    (epochIds : List Text) (chainId : ℕ) (pool : Text) : Option SpendMaterialPlaintext :=
  if event.encryptedNote = emptyNote then none
  else if event.action = .withdrawOutput ∧ event.encryptionVersion = 2 then
    match sdkParseFromHex event.encryptedNote
      { chainId := some chainId, verifyingContract := some pool
        outputCommitment := some event.commitment } with
    | .ok _ => none
    | .error _ => none
  else
    match parseEncryptedNoteEnvelopeFromHex sdkEnvelopeWording event.encryptedNote with
    | .error _ => none
    | .ok encrypted =>
      (recoveryAttempts recoveryKeys epochIds event.action.recoveryActions).findSome? fun a =>
        (attemptDecrypt c isDate event.commitment encrypted chainId pool a).toOption

structure RecoveredSpendMaterial where
  event : DecodedNoteEventLog
  plaintext : SpendMaterialPlaintext
  deriving DecidableEq, Repr

structure RecoverInput where
  walletSignature : Text
  chainId : ℕ
  pool : Text
  events : List DecodedNoteEventLog

/-- The keys of a recovery. -/
def deriveRecoveryKeys (input : RecoverInput) : Throws (List Bytes) :=
  [nullarkRecoveryAppId, legacyShieldedTransfersRecoveryAppId].mapM
    (deriveWalletRecoveryKey c input.walletSignature input.chainId input.pool)

/-- One round of the loop over the events. -/
def recoverEvent (deriveCommitment : SpendMaterialPlaintext → Throws Text) (chainId : ℕ)
    (pool : Text) (keys : List Bytes) (epochIds : List Text) (event : DecodedNoteEventLog) :
    Throws (Option RecoveredSpendMaterial) :=
  match tryDecryptEvent c isDate event keys epochIds chainId pool with
  | none => return none
  | some plaintext =>
    if plaintext.chainId ≠ chainId ∨ lower plaintext.pool ≠ lower pool then return none
    else do
      let derivedCommitment ← deriveCommitment plaintext
      if lower derivedCommitment = lower event.commitment then
        return some { event, plaintext }
      else return none

/-- **`recoverSpendMaterialFromDecodedNoteEvents`**. An error of `deriveCommitment` ends it. -/
def recoverSpendMaterialFromDecodedNoteEvents
    (deriveCommitment : SpendMaterialPlaintext → Throws Text) (input : RecoverInput) :
    Throws (List RecoveredSpendMaterial) := do
  ensure (isChainId input.chainId) "Expected note recovery chain ID."
  ensure (isEvmAddress input.pool) "Expected note recovery pool address."
  let keys ← deriveRecoveryKeys c input
  let epochId ← getNullarkRecoveryEpochId input.chainId
  let epochIds := [epochId, nullarkLegacyRecoveryEpochIdV1].eraseDups
  let recovered ← input.events.mapM
    (recoverEvent c isDate deriveCommitment input.chainId input.pool keys epochIds)
  return recovered.reduceOption

end Code

/-! ### What is valid -/

section Valid
variable {isDate : Text → Bool} {n : SpendMaterialPlaintext}

/-- **Spend material that is accepted.** -/
structure ValidMaterial (isDate : Text → Bool) (n : SpendMaterialPlaintext) : Prop where
  version : n.version = spendMaterialVersion
  chainId : isChainId n.chainId
  pool : isEvmAddress n.pool
  assetId : isHexBytes32 n.assetId
  ownerCommitment : isHexBytes32 n.ownerCommitment
  noteSecret : isHexBytes32 n.noteSecret
  blinding : isHexBytes32 n.blinding
  commitment : isHexBytes32 n.commitment
  noteAmountWei : Decimal.isDecimal n.noteAmountWei ∧ 0 < Decimal.value n.noteAmountWei
  createdAt : n.createdAt ≠ [] ∧ isDate n.createdAt

theorem validateSpendMaterialPlaintext_eq_ok {u : Unit} :
    validateSpendMaterialPlaintext isDate n = .ok u ↔ ValidMaterial isDate n := by
  unfold validateSpendMaterialPlaintext
  simp only [bind_eq_ok, ensure_eq_ok, exists_const]
  constructor
  · rintro ⟨h1, h2, h3, h4, h5, h6, h7, h8, h9, h10⟩
    exact ⟨h1, h2, h3, h4, h5, h6, h7, h8, h9, h10⟩
  · rintro ⟨h1, h2, h3, h4, h5, h6, h7, h8, h9, h10⟩
    exact ⟨h1, h2, h3, h4, h5, h6, h7, h8, h9, h10⟩

/-- **The length of spend material**: only its chain, its amount and its time are not fixed. -/
theorem ValidMaterial.length_spendBytes (h : ValidMaterial isDate n) (hplain : Plain n.createdAt) :
    (spendBytes n).length = 538 + (Decimal.ofNat n.chainId).length + n.noteAmountWei.length +
      n.createdAt.length := by
  have hnames : ∀ name ∈ ["version", "chainId", "pool", "assetId", "noteAmountWei",
      "ownerCommitment", "noteSecret", "blinding", "commitment", "createdAt"],
      Plain name.toList := by decide
  have hversion : Plain n.version := h.version ▸ (by decide)
  have hamount : Plain n.noteAmountWei := fun c hc =>
    Json.isPlain_of_decimal (h.noteAmountWei.1.2 c hc)
  have hmembers : ∀ m ∈ spendMembers n, Plain m.1 ∧ m.2.Plain := by
    simp only [List.forall_mem_cons] at hnames
    obtain ⟨h1, h2, h3, h4, h5, h6, h7, h8, h9, h10, -⟩ := hnames
    simp only [spendMembers, List.forall_mem_cons, Scalar.Plain, and_true]
    exact ⟨⟨h1, hversion⟩, h2, ⟨h3, plain_of_isHexOfLength h.pool⟩,
      ⟨h4, plain_of_isHexOfLength h.assetId⟩, ⟨h5, hamount⟩,
      ⟨h6, plain_of_isHexOfLength h.ownerCommitment⟩, ⟨h7, plain_of_isHexOfLength h.noteSecret⟩,
      ⟨h8, plain_of_isHexOfLength h.blinding⟩, ⟨h9, plain_of_isHexOfLength h.commitment⟩,
      ⟨h10, hplain⟩, fun _ h => absurd h List.not_mem_nil⟩
  have hlength : (Json.printObject (spendMembers n)).length =
      1 + ((spendMembers n).map fun m => m.1.length + (Json.printScalar m.2).length + 4).sum :=
    Json.length_printObject (List.cons_ne_nil _ _) fun m hm => (hmembers m hm).1
  have hversionLength : (Json.printScalar (.string n.version)).length = 19 := by
    rw [h.version]
    decide
  have hsizes : ("version".toList.length, "chainId".toList.length, "pool".toList.length,
      "assetId".toList.length, "noteAmountWei".toList.length) = (7, 7, 4, 7, 13) ∧
      ("ownerCommitment".toList.length, "noteSecret".toList.length, "blinding".toList.length,
        "commitment".toList.length, "createdAt".toList.length) = (15, 10, 8, 10, 9) := by decide
  simp only [Prod.mk.injEq] at hsizes
  have hchain : (Json.printScalar (.number n.chainId)).length = (Decimal.ofNat n.chainId).length :=
    rfl
  rw [spendBytes, Utf8.length_encode (Json.ascii_printObject hmembers), hlength]
  simp only [spendMembers, List.map_cons, List.map_nil, List.sum_cons, List.sum_nil,
    hversionLength, hchain, length_printScalar_of_plain hamount, length_printScalar_of_plain hplain,
    length_printScalar_of_isHexOfLength h.pool, length_printScalar_of_isHexOfLength h.assetId,
    length_printScalar_of_isHexOfLength h.ownerCommitment,
    length_printScalar_of_isHexOfLength h.noteSecret,
    length_printScalar_of_isHexOfLength h.blinding,
    length_printScalar_of_isHexOfLength h.commitment, hsizes]
  omega

end Valid

/-! ### What is decrypted -/

section Spec
variable {c : Crypto} {isDate : Text → Bool}

/-- **An attempt that opens** the note of a commitment: the ciphertext is that of spend material
that passes its checks. -/
structure Opens (c : Crypto) (isDate : Text → Bool) (commitment : Text)
    (encrypted : EncryptedNoteEnvelope) (chainId : ℕ) (pool : Text)
    (a : Bytes × Text × EncryptedNoteV1Action) (n : SpendMaterialPlaintext) : Prop where
  isCommitment : isHexBytes32 commitment
  hasEpoch : a.2.1 ≠ []
  isChain : isChainId chainId
  isPool : isEvmAddress pool
  fits : encrypted.Fits
  ciphertext : ∃ plaintext,
    hexBytes encrypted.ciphertext = c.encrypt (noteKey c a.1 commitment a.2.1)
      (hexBytes encrypted.nonce)
      (RecoveryAssociatedData.bytes { chainId, pool, action := a.2.2, commitment }) plaintext ∧
    (parseBytes plaintext).bind readSpendMaterial = some n
  valid : validateSpendMaterialPlaintext isDate n = .ok ()

theorem decryptEncryptedNoteEnvelope_eq_ok {key aad : Bytes} {encrypted : EncryptedNoteEnvelope}
    {n : SpendMaterialPlaintext} :
    decryptEncryptedNoteEnvelope c isDate key encrypted aad = .ok n ↔
      encrypted.Fits ∧ openEnvelope c key encrypted aad = some n ∧
        validateSpendMaterialPlaintext isDate n = .ok () := by
  unfold decryptEncryptedNoteEnvelope
  simp only [bind_eq_ok, ensure_eq_ok]
  constructor
  · rintro ⟨_, ⟨hnonce, hciphertext⟩, h⟩
    cases hopen : openEnvelope c key encrypted aad with
    | none => rw [hopen] at h; cases h
    | some m =>
      rw [hopen] at h
      dsimp only at h
      cases hvalid : validateSpendMaterialPlaintext isDate m with
      | error e => rw [hvalid] at h; cases h
      | ok u =>
        rw [hvalid] at h
        obtain rfl := pure_eq_ok.mp h
        exact ⟨⟨hnonce, hciphertext⟩, rfl, hvalid⟩
  · rintro ⟨hfits, hopen, hvalid⟩
    refine ⟨(), ⟨hfits.nonce, hfits.ciphertext⟩, ?_⟩
    rw [hopen]
    dsimp only
    rw [hvalid]
    rfl

theorem openEnvelope_eq_some (hc : Aead.Documented c) {key aad : Bytes}
    {encrypted : EncryptedNoteEnvelope} {n : SpendMaterialPlaintext} :
    openEnvelope c key encrypted aad = some n ↔ ∃ plaintext,
      hexBytes encrypted.ciphertext = c.encrypt key (hexBytes encrypted.nonce) aad plaintext ∧
        (parseBytes plaintext).bind readSpendMaterial = some n := by
  unfold openEnvelope
  simp only [Option.bind_eq_bind, Option.bind_eq_some_iff, decrypt_eq_some hc]

/-- An attempt succeeds when it opens the note. -/
theorem attemptDecrypt_eq_ok (hc : Aead.Documented c) {commitment pool : Text}
    {encrypted : EncryptedNoteEnvelope} {chainId : ℕ} {a : Bytes × Text × EncryptedNoteV1Action}
    {n : SpendMaterialPlaintext} :
    attemptDecrypt c isDate commitment encrypted chainId pool a = .ok n ↔
      Opens c isDate commitment encrypted chainId pool a n := by
  unfold attemptDecrypt deriveNoteKey makeRecoveryAssociatedData
  simp only [bind_eq_ok, ensure_eq_ok, pure_eq_ok, decryptEncryptedNoteEnvelope_eq_ok,
    openEnvelope_eq_some hc]
  constructor
  · rintro ⟨_, ⟨_, h1, _, h2, rfl⟩, _, ⟨_, h3, _, h4, _, -, rfl⟩, hfits, hopen, hvalid⟩
    exact ⟨h1, h2, h3, h4, hfits, hopen, hvalid⟩
  · intro h
    exact ⟨_, ⟨(), h.isCommitment, (), h.hasEpoch, rfl⟩, _,
      ⟨(), h.isChain, (), h.isPool, (), h.isCommitment, rfl⟩, h.fits, h.ciphertext, h.valid⟩

/-- **The note of an event opens**: an attempt opens it, and none before does. -/
def OpensAt (c : Crypto) (isDate : Text → Bool) (chainId : ℕ) (pool : Text)
    (attempts : List (Bytes × Text × EncryptedNoteV1Action)) (event : DecodedNoteEventLog)
    (n : SpendMaterialPlaintext) : Prop :=
  event.encryptedNote ≠ emptyNote ∧ ¬(event.action = .withdrawOutput ∧ event.encryptionVersion = 2) ∧
    ∃ encrypted, parseEncryptedNoteEnvelopeFromHex sdkEnvelopeWording event.encryptedNote =
      .ok encrypted ∧ ∃ before a after, attempts = before ++ a :: after ∧
        Opens c isDate event.commitment encrypted chainId pool a n ∧
        ∀ b ∈ before, ∀ m, ¬Opens c isDate event.commitment encrypted chainId pool b m

/-- An attempt opens a note that opens. -/
theorem OpensAt.exists_opens {chainId : ℕ} {pool : Text}
    {attempts : List (Bytes × Text × EncryptedNoteV1Action)} {event : DecodedNoteEventLog}
    {n : SpendMaterialPlaintext} (h : OpensAt c isDate chainId pool attempts event n) :
    ∃ encrypted, parseEncryptedNoteEnvelopeFromHex sdkEnvelopeWording event.encryptedNote =
      .ok encrypted ∧ ∃ a ∈ attempts, Opens c isDate event.commitment encrypted chainId pool a n := by
  obtain ⟨-, -, encrypted, hparse, before, a, after, rfl, hopen, -⟩ := h
  exact ⟨encrypted, hparse, a, List.mem_append_right _ List.mem_cons_self, hopen⟩

/-- **A note that a client encrypted opens at the first attempt.** -/
theorem opensAt_noteEnvelope {walletSignature pool : Text} {chainId : ℕ} {nonce : Bytes}
    {event : DecodedNoteEventLog} {n : SpendMaterialPlaintext} (hchain : isChainId chainId)
    (hpool : isEvmAddress pool) (hvalid : ValidMaterial isDate n)
    (hfits : (noteEnvelope c walletSignature chainId pool .deposit nonce n).Fits)
    (haction : event.action = .deposit) (hcommitment : event.commitment = n.commitment)
    (hnote : event.encryptedNote =
      hexText (noteEnvelope c walletSignature chainId pool .deposit nonce n).bytes) :
    OpensAt c isDate chainId pool (recoveryAttempts (recoveryKeys c walletSignature chainId pool)
      (recoveryEpochIds chainId) event.action.recoveryActions) event n := by
  have hread := readSpendMaterial_spendBytes (n := n) (Nat.lt_succ_of_le hvalid.chainId.2)
  rw [haction]
  refine ⟨?_, fun h => (nomatch haction.symm.trans h.1), _, ?_, [], _, _, rfl,
    ⟨?_, List.cons_ne_nil _ _, hchain, hpool, hfits, ⟨spendBytes n, ?_, hread⟩,
      validateSpendMaterialPlaintext_eq_ok.mpr hvalid⟩, fun _ h => absurd h List.not_mem_nil⟩
  · rw [hnote]
    exact hexText_envelope_ne
  · rw [hnote]
    exact parseEnvelope_hexText hfits
  · rw [hcommitment]
    exact hvalid.commitment
  · rw [hcommitment]
    simp only [noteEnvelope, hexBytes_hexText]

theorem toOption_eq_some {α : Type} {x : Throws α} {a : α} :
    x.toOption = some a ↔ x = .ok a := by
  cases x with
  | error e => exact ⟨(nomatch ·), (nomatch ·)⟩
  | ok b => exact ⟨fun h => congrArg _ (Option.some.inj h), fun h => congrArg some (Except.ok.inj h)⟩

/-- **`tryDecryptEvent`** finds what the first attempt that opens the note reads. -/
theorem tryDecryptEvent_eq_some (hc : Aead.Documented c) {event : DecodedNoteEventLog}
    {keys : List Bytes} {epochIds : List Text} {chainId : ℕ} {pool : Text}
    {n : SpendMaterialPlaintext} :
    tryDecryptEvent c isDate event keys epochIds chainId pool = some n ↔
      OpensAt c isDate chainId pool
        (recoveryAttempts keys epochIds event.action.recoveryActions) event n := by
  have hnone : ∀ (encrypted : EncryptedNoteEnvelope) b,
      (attemptDecrypt c isDate event.commitment encrypted chainId pool b).toOption = none ↔
        ∀ m, ¬Opens c isDate event.commitment encrypted chainId pool b m := by
    intro encrypted b
    rw [Option.eq_none_iff_forall_ne_some]
    simp only [ne_eq, toOption_eq_some, attemptDecrypt_eq_ok hc]
  unfold tryDecryptEvent OpensAt
  by_cases hempty : event.encryptedNote = emptyNote
  · rw [if_pos hempty]
    exact ⟨(nomatch ·), fun h => absurd hempty h.1⟩
  · rw [if_neg hempty]
    by_cases houtput : event.action = .withdrawOutput ∧ event.encryptionVersion = 2
    · rw [if_pos houtput]
      refine ⟨fun h => ?_, fun h => absurd houtput h.2.1⟩
      split at h <;> cases h
    · rw [if_neg houtput]
      cases hparse : parseEncryptedNoteEnvelopeFromHex sdkEnvelopeWording event.encryptedNote with
      | error e =>
        refine ⟨(nomatch ·), ?_⟩
        rintro ⟨-, -, _, h, -⟩
        cases h
      | ok encrypted =>
        dsimp only
        rw [List.findSome?_eq_some_iff]
        simp only [toOption_eq_some, attemptDecrypt_eq_ok hc, hnone, hempty, houtput, ne_eq,
          not_false_eq_true, true_and, Except.ok.injEq, exists_eq_left']

/-- The note of an output of version 2 is not decrypted. -/
theorem tryDecryptEvent_output {event : DecodedNoteEventLog} {keys : List Bytes}
    {epochIds : List Text} {chainId : ℕ} {pool : Text}
    (houtput : event.action = .withdrawOutput ∧ event.encryptionVersion = 2) :
    tryDecryptEvent c isDate event keys epochIds chainId pool = none := by
  unfold tryDecryptEvent
  rw [if_pos houtput]
  split_ifs
  · rfl
  · split <;> rfl

/-! ### What a recovery returns -/

theorem deriveRecoveryKeys_eq_ok {input : RecoverInput} {keys : List Bytes} :
    deriveRecoveryKeys c input = .ok keys ↔
      (isWalletSignature input.walletSignature ∧ isChainId input.chainId ∧
        isEvmAddress input.pool) ∧
      keys = recoveryKeys c input.walletSignature input.chainId input.pool := by
  unfold deriveRecoveryKeys deriveWalletRecoveryKey
  simp only [List.mapM_cons, List.mapM_nil, bind_eq_ok, ensure_eq_ok, pure_eq_ok]
  constructor
  · rintro ⟨_, ⟨_, h1, _, h2, _, h3, rfl⟩, _, ⟨_, ⟨_, -, _, -, _, -, rfl⟩, _, rfl, rfl⟩, rfl⟩
    exact ⟨⟨h1, h2, h3⟩, rfl⟩
  · rintro ⟨⟨h1, h2, h3⟩, rfl⟩
    exact ⟨_, ⟨(), h1, (), h2, (), h3, rfl⟩, _, ⟨_, ⟨(), h1, (), h2, (), h3, rfl⟩, _, rfl, rfl⟩,
      rfl⟩

/-- What a recovery tries for an event. -/
def RecoverInput.attempts (c : Crypto) (input : RecoverInput) (event : DecodedNoteEventLog) :
    List (Bytes × Text × EncryptedNoteV1Action) :=
  recoveryAttempts (recoveryKeys c input.walletSignature input.chainId input.pool)
    (recoveryEpochIds input.chainId) event.action.recoveryActions

/-- **The spend material in an event**, for the chain and the pool of a recovery. -/
def Found (c : Crypto) (isDate : Text → Bool) (input : RecoverInput) (event : DecodedNoteEventLog)
    (n : SpendMaterialPlaintext) : Prop :=
  OpensAt c isDate input.chainId input.pool (input.attempts c event) event n ∧
    n.chainId = input.chainId ∧ lower n.pool = lower input.pool

variable {deriveCommitment : SpendMaterialPlaintext → Throws Text} {input : RecoverInput}
  {event : DecodedNoteEventLog}

/-- One round of the loop over the events. -/
def RecoverInput.round (c : Crypto) (isDate : Text → Bool)
    (deriveCommitment : SpendMaterialPlaintext → Throws Text) (input : RecoverInput)
    (event : DecodedNoteEventLog) : Throws (Option RecoveredSpendMaterial) :=
  recoverEvent c isDate deriveCommitment input.chainId input.pool
    (recoveryKeys c input.walletSignature input.chainId input.pool)
    (recoveryEpochIds input.chainId) event

/-- A round ends, unless the commitment of what it finds cannot be derived. -/
theorem exists_round (hc : Aead.Documented c) :
    (∃ o, input.round c isDate deriveCommitment event = .ok o) ↔
      ∀ n, Found c isDate input event n → ∃ t, deriveCommitment n = .ok t := by
  unfold RecoverInput.round recoverEvent Found RecoverInput.attempts
  simp only [← tryDecryptEvent_eq_some hc]
  cases htry : tryDecryptEvent c isDate event
      (recoveryKeys c input.walletSignature input.chainId input.pool)
      (recoveryEpochIds input.chainId) input.chainId input.pool with
  | none => exact ⟨fun _ _ h => (nomatch h.1), fun _ => ⟨none, rfl⟩⟩
  | some plaintext =>
    dsimp only
    split_ifs with hplace
    · refine ⟨fun _ n h => ?_, fun _ => ⟨none, rfl⟩⟩
      obtain ⟨h1, h2, h3⟩ := h
      obtain rfl := Option.some.inj h1
      rcases hplace with hplace | hplace
      · exact absurd h2 hplace
      · exact absurd h3 hplace
    · simp only [not_or, not_not] at hplace
      constructor
      · rintro ⟨o, ho⟩ n ⟨h1, -, -⟩
        obtain rfl := Option.some.inj h1
        obtain ⟨t, ht, -⟩ := bind_eq_ok.mp ho
        exact ⟨t, ht⟩
      · intro h
        obtain ⟨t, ht⟩ := h plaintext ⟨rfl, hplace⟩
        rw [ht, ok_bind]
        split_ifs
        · exact ⟨_, rfl⟩
        · exact ⟨_, rfl⟩

/-- **What a round finds**: spend material whose commitment is that of the event. -/
theorem round_eq_some (hc : Aead.Documented c) {x : RecoveredSpendMaterial} :
    input.round c isDate deriveCommitment event = .ok (some x) ↔
      x.event = event ∧ Found c isDate input event x.plaintext ∧
        ∃ t, deriveCommitment x.plaintext = .ok t ∧ lower t = lower event.commitment := by
  unfold RecoverInput.round recoverEvent Found RecoverInput.attempts
  simp only [← tryDecryptEvent_eq_some hc]
  cases htry : tryDecryptEvent c isDate event
      (recoveryKeys c input.walletSignature input.chainId input.pool)
      (recoveryEpochIds input.chainId) input.chainId input.pool with
  | none => exact ⟨(nomatch ·), fun h => (nomatch h.2.1.1)⟩
  | some plaintext =>
    dsimp only
    constructor
    · intro h
      split_ifs at h with hplace
      · cases h
      · simp only [not_or, not_not] at hplace
        obtain ⟨t, ht, h⟩ := bind_eq_ok.mp h
        split_ifs at h with hcommitment
        · obtain rfl := Option.some.inj (pure_eq_ok.mp h)
          exact ⟨rfl, ⟨rfl, hplace⟩, t, ht, hcommitment⟩
        · cases h
    · rintro ⟨rfl, ⟨h1, h2, h3⟩, t, ht, hcommitment⟩
      obtain rfl := Option.some.inj h1
      rw [if_neg (by simp only [not_or, not_not]; exact ⟨h2, h3⟩), ht, ok_bind,
        if_pos hcommitment]
      rfl

/-- **A recovery** is a round for each event. -/
theorem recover_eq_ok {out : List RecoveredSpendMaterial} :
    recoverSpendMaterialFromDecodedNoteEvents c isDate deriveCommitment input = .ok out ↔
      (isWalletSignature input.walletSignature ∧ isChainId input.chainId ∧
        isEvmAddress input.pool) ∧
      ∃ results, List.Forall₂ (fun event o => input.round c isDate deriveCommitment event = .ok o)
        input.events results ∧ out = results.reduceOption := by
  have hepochs : [recoveryEpochId input.chainId, nullarkLegacyRecoveryEpochIdV1].eraseDups =
      recoveryEpochIds input.chainId := by
    simp [List.eraseDups_cons, (recoveryEpochId_ne input.chainId).symm, recoveryEpochIds]
  unfold recoverSpendMaterialFromDecodedNoteEvents getNullarkRecoveryEpochId
  simp only [bind_eq_ok, ensure_eq_ok, pure_eq_ok, deriveRecoveryKeys_eq_ok]
  constructor
  · rintro ⟨_, -, _, -, _, ⟨hinput, rfl⟩, _, ⟨_, -, rfl⟩, results, hresults, rfl⟩
    rw [hepochs] at hresults
    exact ⟨hinput, results, mapM_eq_ok.mp hresults, rfl⟩
  · rintro ⟨hinput, results, hresults, rfl⟩
    refine ⟨(), hinput.2.1, (), hinput.2.2, _, ⟨hinput, rfl⟩, _, ⟨(), hinput.2.1, rfl⟩, results,
      ?_, rfl⟩
    rw [hepochs]
    exact mapM_eq_ok.mpr hresults

/-- A recovery ends when every round does. -/
theorem exists_recover (hc : Aead.Documented c) :
    (∃ out, recoverSpendMaterialFromDecodedNoteEvents c isDate deriveCommitment input = .ok out) ↔
      (isWalletSignature input.walletSignature ∧ isChainId input.chainId ∧
        isEvmAddress input.pool) ∧
      ∀ event ∈ input.events, ∀ n, Found c isDate input event n →
        ∃ t, deriveCommitment n = .ok t := by
  have hrounds : ∀ events : List DecodedNoteEventLog, (∃ results, List.Forall₂
      (fun event o => input.round c isDate deriveCommitment event = .ok o) events results) ↔
      ∀ event ∈ events, ∃ o, input.round c isDate deriveCommitment event = .ok o := by
    intro events
    induction events with
    | nil => exact ⟨fun _ _ h => absurd h List.not_mem_nil, fun _ => ⟨[], List.Forall₂.nil⟩⟩
    | cons event events ih =>
      rw [List.forall_mem_cons, ← ih]
      constructor
      · rintro ⟨_, h⟩
        obtain ⟨o, results, ho, hresults, -⟩ := List.forall₂_cons_left_iff.mp h
        exact ⟨⟨o, ho⟩, results, hresults⟩
      · rintro ⟨⟨o, ho⟩, results, hresults⟩
        exact ⟨o :: results, List.Forall₂.cons ho hresults⟩
  simp only [recover_eq_ok, ← exists_round hc, ← hrounds]
  constructor
  · rintro ⟨_, hinput, results, hresults, -⟩
    exact ⟨hinput, results, hresults⟩
  · rintro ⟨hinput, results, hresults⟩
    exact ⟨_, hinput, results, hresults, rfl⟩

/-- **What is returned** is what the rounds find. -/
theorem mem_recover {out : List RecoveredSpendMaterial}
    (h : recoverSpendMaterialFromDecodedNoteEvents c isDate deriveCommitment input = .ok out)
    {x : RecoveredSpendMaterial} : x ∈ out ↔
      ∃ event ∈ input.events, input.round c isDate deriveCommitment event = .ok (some x) := by
  obtain ⟨-, results, hresults, rfl⟩ := recover_eq_ok.mp h
  rw [List.reduceOption_mem_iff]
  clear h
  generalize input.events = all at hresults ⊢
  induction hresults with
  | nil => simp
  | @cons event o events results ho _ ih =>
    rw [List.mem_cons, List.exists_mem_cons_iff, ih, ho, Except.ok.injEq, eq_comm]

/-- What is returned was found in its event. -/
theorem found_of_mem (hc : Aead.Documented c) {out : List RecoveredSpendMaterial}
    (h : recoverSpendMaterialFromDecodedNoteEvents c isDate deriveCommitment input = .ok out)
    {x : RecoveredSpendMaterial} (hx : x ∈ out) :
    x.event ∈ input.events ∧ Found c isDate input x.event x.plaintext := by
  obtain ⟨event, hevent, hround⟩ := (mem_recover h).mp hx
  obtain ⟨rfl, hfound, -⟩ := (round_eq_some hc).mp hround
  exact ⟨hevent, hfound⟩

/-- **An event is returned once per occurrence**, with what its round finds. -/
theorem filter_recover (hc : Aead.Documented c) {out : List RecoveredSpendMaterial}
    (h : recoverSpendMaterialFromDecodedNoteEvents c isDate deriveCommitment input = .ok out)
    {x : RecoveredSpendMaterial}
    (hx : input.round c isDate deriveCommitment event = .ok (some x)) :
    out.filter (fun y => y.event = event) = List.replicate (input.events.count event) x := by
  obtain ⟨-, results, hresults, rfl⟩ := recover_eq_ok.mp h
  have hxevent : x.event = event := ((round_eq_some hc).mp hx).1
  clear h
  generalize input.events = all at hresults ⊢
  induction hresults with
  | nil => rfl
  | @cons e o events results ho _ ih =>
    by_cases he : e = event
    · obtain rfl := he
      obtain rfl := Except.ok.inj (ho.symm.trans hx)
      rw [List.reduceOption_cons_of_some, List.filter_cons_of_pos (by simpa using hxevent), ih,
        List.count_cons_self, List.replicate_succ]
    · rw [List.count_cons_of_ne he]
      cases o with
      | none => rw [List.reduceOption_cons_of_none, ih]
      | some y =>
        have hy : y.event = e := ((round_eq_some hc).mp ho).1
        rw [List.reduceOption_cons_of_some,
          List.filter_cons_of_neg (by simpa [hy] using he), ih]

end Spec

end Nullark.Sdk.NoteRecovery
