import Nullark.Js.OutputNoteEnvelope
import Nullark.Js.SpendMaterial
import Nullark.Lib.Aead

/-! # Notes encrypted for a wallet

The keys of a wallet, the data an encrypted note is bound to, and the envelope of version 1 around
the spend material of a note. The SDK and the web app have the same functions for them, the SDK with
checks before each.

* `parseEnvelope_hexText`: an envelope is read back from its bytes.
* `readSpendMaterial_spendBytes`: so is the spend material. -/

namespace Nullark.Js.NoteEnvelope

open Nullark.Lib Nullark.Lib.Outcome
open Nullark.Lib.Hex hiding value Digits ofNat
open Nullark.Lib.Json (Value Scalar)
open Nullark.Lib.Aead (Crypto)
open Nullark.Evm.Basic Nullark.Js.Basic Nullark.Js.Bytes
open Nullark.Js.OutputNoteEnvelope Nullark.Js.SpendMaterial

/-! ### Keys -/

/-- **`EncryptedNoteV1Action`**. -/
inductive EncryptedNoteV1Action
  | deposit
  | privateTransfer
  | withdraw
  | withdrawChange
  | withdrawOutput
  deriving DecidableEq, Repr

def EncryptedNoteV1Action.text : EncryptedNoteV1Action → Text
  | .deposit => "deposit".toList
  | .privateTransfer => "private-transfer".toList
  | .withdraw => "withdraw".toList
  | .withdrawChange => "withdraw-change".toList
  | .withdrawOutput => "withdraw-output".toList

/-- `NULLARK_RECOVERY_APP_ID`. -/
def nullarkRecoveryAppId : Text := "nullark".toList

/-- `LEGACY_SHIELDED_TRANSFERS_RECOVERY_APP_ID`. -/
def legacyShieldedTransfersRecoveryAppId : Text := "shielded-balance-transfers".toList

/-- `NULLARK_LEGACY_RECOVERY_EPOCH_ID_V1`. -/
def nullarkLegacyRecoveryEpochIdV1 : Text := "megaeth-testnet-v1".toList

/-- The epoch of a chain. -/
def recoveryEpochId (chainId : ℕ) : Text :=
  "megaeth-".toList ++ Decimal.ofNat chainId ++ "-nullark-v1".toList

/-- The epochs a recovery tries. -/
def recoveryEpochIds (chainId : ℕ) : List Text :=
  [recoveryEpochId chainId, nullarkLegacyRecoveryEpochIdV1]

/-- The salt of the key of a wallet. -/
def walletKeySalt (appId : Text) (chainId : ℕ) (pool : Text) : Bytes :=
  Utf8.encode (appId ++ ':' :: Decimal.ofNat chainId ++ ':' :: lower pool)

/-- What `deriveWalletRecoveryKey` derives from a signature. -/
def walletRecoveryKey (c : Crypto) (walletSignature : Text) (chainId : ℕ) (pool appId : Text) :
    Bytes :=
  c.deriveBits (hexBytes walletSignature) (walletKeySalt appId chainId pool)
    (Utf8.encode "wallet-recovery-v1".toList)

/-- What `deriveNoteKey` derives from the key of a wallet. -/
def noteKey (c : Crypto) (recoveryKey : Bytes) (commitment epochId : Text) : Bytes :=
  c.deriveBits recoveryKey (Utf8.encode epochId) (Utf8.encode ("note:".toList ++ lower commitment))

/-- The keys a recovery derives. -/
def recoveryKeys (c : Crypto) (walletSignature : Text) (chainId : ℕ) (pool : Text) : List Bytes :=
  [nullarkRecoveryAppId, legacyShieldedTransfersRecoveryAppId].map
    (walletRecoveryKey c walletSignature chainId pool)

/-- **What a note is bound to**: `RecoveryAssociatedData`, of encryption version 1. -/
structure RecoveryAssociatedData where
  chainId : ℕ
  pool : Text
  action : EncryptedNoteV1Action
  commitment : Text

def RecoveryAssociatedData.bytes (d : RecoveryAssociatedData) : Bytes :=
  Utf8.encode (Json.printObject
    [("chainId".toList, .number d.chainId), ("pool".toList, .string d.pool),
      ("action".toList, .string d.action.text), ("commitment".toList, .string d.commitment),
      ("encryptionVersion".toList, .number 1)])

theorem recoveryEpochId_ne (chainId : ℕ) :
    recoveryEpochId chainId ≠ nullarkLegacyRecoveryEpochIdV1 := by
  intro h
  have hmegaeth : ∀ t : Text, List.drop 8 ("megaeth-".toList ++ t) = t := fun _ => rfl
  have hsplit : recoveryEpochId chainId =
      "megaeth-".toList ++ (Decimal.ofNat chainId ++ "-nullark-v1".toList) :=
    List.append_assoc _ _ _
  have hlegacy : nullarkLegacyRecoveryEpochIdV1.drop 8 = "testnet-v1".toList := rfl
  have hdrop := congrArg (List.drop 8) h
  rw [hsplit, hmegaeth, hlegacy] at hdrop
  obtain ⟨d, digits, hd⟩ := List.exists_cons_of_ne_nil (Decimal.ofNat_ne_nil chainId)
  have hdigit : d.isDigit = true := Decimal.digits_ofNat chainId d (hd ▸ List.mem_cons_self)
  have htext : "testnet-v1".toList = 't' :: "estnet-v1".toList := by decide
  rw [hd, List.cons_append, htext, List.cons.injEq] at hdrop
  have ht : d = 't' := hdrop.1
  rw [ht] at hdigit
  exact absurd hdigit (by decide)

/-- The data a note is bound to has the spelling of the pool in it. -/
theorem pool_of_bytes {d e : RecoveryAssociatedData} (hd : d.chainId < 2 ^ 53)
    (he : e.chainId < 2 ^ 53) (h : d.bytes = e.bytes) : d.pool = e.pool := by
  have hbrace : ('\x7b' : Char).toNat < 0x80 := by decide
  have hread : ∀ a : RecoveryAssociatedData, a.chainId < 2 ^ 53 → Json.parse (Utf8.decode a.bytes) =
      some (.object [("chainId".toList, (Scalar.number a.chainId).value),
        ("pool".toList, .string a.pool), ("action".toList, .string a.action.text),
        ("commitment".toList, .string a.commitment),
        ("encryptionVersion".toList, (Scalar.number 1).value)]) := by
    intro a ha
    have hdecode : Utf8.decode a.bytes = Json.printObject
        [("chainId".toList, .number a.chainId), ("pool".toList, .string a.pool),
          ("action".toList, .string a.action.text), ("commitment".toList, .string a.commitment),
          ("encryptionVersion".toList, .number 1)] := Utf8.decode_encode hbrace
    rw [hdecode]
    refine Json.parse_printObject (List.cons_ne_nil _ _) ?_
    simp only [List.forall_mem_cons, Scalar.Exact, true_and]
    exact ⟨ha, by norm_num, fun _ h => absurd h List.not_mem_nil⟩
  have hparse := hread d hd
  rw [h, hread e he] at hparse
  simp only [Option.some.injEq, Value.object.injEq, List.cons.injEq, Prod.mk.injEq, true_and,
    Value.string.injEq] at hparse
  exact hparse.2.1.symm

/-! ### Events -/

/-- The events of the pool with an encrypted note. -/
inductive NoteEventAction
  | deposit
  | privateTransfer
  | withdrawChange
  | withdrawOutput
  deriving DecidableEq, Repr

/-- **`DecodedNoteEventLog`**. -/
structure DecodedNoteEventLog where
  action : NoteEventAction
  commitment : Text
  leafIndex : ℕ
  encryptedNote : Text
  encryptionVersion : ℕ
  nullifier : Option Text
  transactionHash : Text
  deriving DecidableEq, Repr

/-- The actions a recovery tries for an event. -/
def NoteEventAction.recoveryActions : NoteEventAction → List EncryptedNoteV1Action
  | .deposit => [.deposit]
  | .privateTransfer => [.privateTransfer]
  | .withdrawChange => [.withdrawChange, .withdraw]
  | .withdrawOutput => [.withdrawOutput, .withdrawChange, .withdraw]

/-- What a recovery tries for an event, in its order: each key with each epoch and each action. -/
def recoveryAttempts (keys : List Bytes) (epochIds : List Text)
    (actions : List EncryptedNoteV1Action) : List (Bytes × Text × EncryptedNoteV1Action) :=
  keys.flatMap fun key => epochIds.flatMap fun epochId => actions.map fun action =>
    (key, epochId, action)

theorem mem_recoveryAttempts {keys : List Bytes} {epochIds : List Text}
    {actions : List EncryptedNoteV1Action} {a : Bytes × Text × EncryptedNoteV1Action} :
    a ∈ recoveryAttempts keys epochIds actions ↔
      a.1 ∈ keys ∧ a.2.1 ∈ epochIds ∧ a.2.2 ∈ actions := by
  obtain ⟨key, epochId, action⟩ := a
  unfold recoveryAttempts
  simp only [List.mem_flatMap, List.mem_map, Prod.mk.injEq]
  constructor
  · rintro ⟨_, hkey, _, hepoch, _, haction, rfl, rfl, rfl⟩
    exact ⟨hkey, hepoch, haction⟩
  · rintro ⟨hkey, hepoch, haction⟩
    exact ⟨_, hkey, _, hepoch, _, haction, rfl, rfl, rfl⟩

/-- `0x`, the note of an event without one. -/
def emptyNote : Text := ['0', 'x']

/-! ### The envelope -/

/-- **`EncryptedNoteEnvelope`**, without the fields that are always the same. -/
structure EncryptedNoteEnvelope where
  nonce : Text
  ciphertext : Text
  deriving DecidableEq, Repr

def EncryptedNoteEnvelope.members (e : EncryptedNoteEnvelope) : List (Text × Scalar) :=
  [("version".toList, .number 1), ("algorithm".toList, .string "AES-GCM-256".toList),
    ("kdf".toList, .string "HKDF-SHA-256".toList), ("nonce".toList, .string e.nonce),
    ("ciphertext".toList, .string e.ciphertext)]

def EncryptedNoteEnvelope.bytes (e : EncryptedNoteEnvelope) : Bytes :=
  Utf8.encode (Json.printObject e.members)

/-- **What can be wrong** with an envelope. -/
inductive EnvelopeProblem
  | notHex
  | notJson
  | notObject
  | version
  | algorithm
  | kdf
  | nonce
  | ciphertext

abbrev EnvelopeWording := EnvelopeProblem → String

def sdkEnvelopeWording : EnvelopeWording
  | .notHex => "Expected encrypted note envelope hex."
  | _ => "Invalid encrypted note envelope."

def webEnvelopeWording : EnvelopeWording
  | .notHex => "Expected even-length hex string."
  | .notJson => "Encrypted note envelope is not valid JSON."
  | .notObject => "Encrypted note envelope JSON must be an object."
  | .version => "Unsupported encrypted note envelope version."
  | .algorithm => "Unsupported encrypted note envelope algorithm."
  | .kdf => "Unsupported encrypted note envelope KDF."
  | .nonce => "Encrypted note envelope nonce must be 12 bytes."
  | .ciphertext => "Encrypted note envelope ciphertext must be even-length hex."

/-- `/^0x[0-9a-fA-F]{24}$/`. -/
def isHexBytes12 (t : Text) : Prop := isHexOfLength 24 t

instance (t : Text) : Decidable (isHexBytes12 t) := inferInstanceAs (Decidable (isHexOfLength 24 t))

/-- A string of the pattern, as it is. -/
def requireText (pattern : Text → Prop) [DecidablePred pattern] (message : String) :
    Option Value → Throws Text
  | some (.string t) => do
    ensure (pattern t) message
    return t
  | _ => .error message

section Code
variable (w : EnvelopeWording)

/-- **`validateEncryptedNoteEnvelope`**. -/
def validateEncryptedNoteEnvelope : Value → Throws EncryptedNoteEnvelope
  | .object members => do
    let field (name : String) := Json.lookup members name.toList
    requireLiteral (.number 1) (w .version) (field "version")
    requireLiteral (.string "AES-GCM-256".toList) (w .algorithm) (field "algorithm")
    requireLiteral (.string "HKDF-SHA-256".toList) (w .kdf) (field "kdf")
    let nonce ← requireText isHexBytes12 (w .nonce) (field "nonce")
    let ciphertext ← requireText isNonEmptyHex (w .ciphertext) (field "ciphertext")
    return { nonce, ciphertext }
  | _ => .error (w .notObject)

/-- **`parseEncryptedNoteEnvelopeFromHex`**. -/
def parseEncryptedNoteEnvelopeFromHex (hex : Text) : Throws EncryptedNoteEnvelope := do
  ensure (isHexString hex) (w .notHex)
  match Json.parse (Utf8.decode (hexBytes hex)) with
  | some value => validateEncryptedNoteEnvelope w value
  | none => .error (w .notJson)

/-- `serializeEncryptedNoteEnvelopeToHex`. -/
def serializeEncryptedNoteEnvelopeToHex (envelope : EncryptedNoteEnvelope) : Throws Text := do
  let envelope ← validateEncryptedNoteEnvelope w
    (.object (envelope.members.map fun m => (m.1, m.2.value)))
  return hexText envelope.bytes

end Code

/-- The envelopes that are accepted. -/
structure EncryptedNoteEnvelope.Fits (e : EncryptedNoteEnvelope) : Prop where
  nonce : isHexBytes12 e.nonce
  ciphertext : isNonEmptyHex e.ciphertext

theorem requireText_eq_ok {pattern : Text → Prop} [DecidablePred pattern] {message : String}
    {t r : Text} : requireText pattern message (some (.string t)) = .ok r ↔ pattern t ∧ r = t := by
  unfold requireText
  dsimp only
  simp only [bind_eq_ok, ensure_eq_ok, exists_const, pure_eq_ok, eq_comm (a := t)]

section Read
variable {w : EnvelopeWording} {e : EncryptedNoteEnvelope}

theorem lookup_envelope {name : Text} {x : Scalar} (h : (name, x) ∈ e.members) :
    Json.lookup (e.members.map fun m => (m.1, m.2.value)) name = some x.value := by
  refine Json.lookup_of_mem ?_ (List.mem_map_of_mem (f := fun m => (m.1, m.2.value)) h)
  have hnames : (e.members.map fun m => (m.1, m.2.value)).map (·.1) =
      ["version", "algorithm", "kdf", "nonce", "ciphertext"].map String.toList := rfl
  rw [hnames]
  decide

/-- The checks are that the envelope fits. -/
theorem validate_members_eq_ok {r : EncryptedNoteEnvelope} : validateEncryptedNoteEnvelope w
    (.object (e.members.map fun m => (m.1, m.2.value))) = .ok r ↔ e.Fits ∧ r = e := by
  have hfield : ∀ (name : String) (x : Scalar), (name.toList, x) ∈ e.members →
      Json.lookup (e.members.map fun m => (m.1, m.2.value)) name.toList = some x.value :=
    fun _ _ hmem => lookup_envelope hmem
  unfold validateEncryptedNoteEnvelope
  dsimp only
  rw [hfield "version" (.number 1) (by simp [EncryptedNoteEnvelope.members]),
    requireLiteral_value, ok_bind,
    hfield "algorithm" (.string "AES-GCM-256".toList) (by simp [EncryptedNoteEnvelope.members]),
    requireLiteral_value, ok_bind,
    hfield "kdf" (.string "HKDF-SHA-256".toList) (by simp [EncryptedNoteEnvelope.members]),
    requireLiteral_value, ok_bind,
    hfield "nonce" (.string e.nonce) (by simp [EncryptedNoteEnvelope.members]), Scalar.value,
    hfield "ciphertext" (.string e.ciphertext) (by simp [EncryptedNoteEnvelope.members]),
    Scalar.value]
  simp only [bind_eq_ok, requireText_eq_ok, pure_eq_ok]
  constructor
  · rintro ⟨_, ⟨hnonce, rfl⟩, _, ⟨hciphertext, rfl⟩, rfl⟩
    exact ⟨⟨hnonce, hciphertext⟩, rfl⟩
  · rintro ⟨h, rfl⟩
    exact ⟨_, ⟨h.nonce, rfl⟩, _, ⟨h.ciphertext, rfl⟩, rfl⟩

/-- What is serialized are the envelopes that fit. -/
theorem serialize_eq_ok {t : Text} :
    serializeEncryptedNoteEnvelopeToHex w e = .ok t ↔ e.Fits ∧ t = hexText e.bytes := by
  unfold serializeEncryptedNoteEnvelopeToHex
  simp only [bind_eq_ok, validate_members_eq_ok, pure_eq_ok]
  constructor
  · rintro ⟨_, ⟨h, rfl⟩, rfl⟩
    exact ⟨h, rfl⟩
  · rintro ⟨h, rfl⟩
    exact ⟨e, ⟨h, rfl⟩, rfl⟩

/-- **An envelope is read back from its bytes.** -/
theorem parseEnvelope_hexText (h : e.Fits) :
    parseEncryptedNoteEnvelopeFromHex w (hexText e.bytes) = .ok e := by
  have hbrace : ('\x7b' : Char).toNat < 0x80 := by decide
  have hdecode : Utf8.decode e.bytes = Json.printObject e.members := Utf8.decode_encode hbrace
  have hexact : ∀ m ∈ e.members, m.2.Exact := by
    simp only [EncryptedNoteEnvelope.members, List.forall_mem_cons, Scalar.Exact, true_and]
    exact ⟨by norm_num, fun _ h => absurd h List.not_mem_nil⟩
  have hparse : Json.parse (Json.printObject e.members) =
      some (.object (e.members.map fun m => (m.1, m.2.value))) :=
    Json.parse_printObject (List.cons_ne_nil _ _) hexact
  unfold parseEncryptedNoteEnvelopeFromHex
  rw [ensure_of (isHexString_hexText _), ok_bind, hexBytes_hexText, hdecode, hparse]
  exact validate_members_eq_ok.mpr ⟨h, rfl⟩

/-- The text of an envelope is more than the two characters of an empty note. -/
theorem hexText_envelope_ne : hexText e.bytes ≠ emptyNote := by
  intro h
  have hbytes : e.bytes = [] := hexText_injective (h.trans rfl)
  have hbrace : e.bytes = Utf8.encodeChar '\x7b' ++ _ := rfl
  rw [hbrace] at hbytes
  exact absurd (List.append_eq_nil_iff.mp hbytes).1 (by decide)

end Read

/-- The envelope is as long as its ciphertext makes it. -/
theorem EncryptedNoteEnvelope.Fits.length_bytes {e : EncryptedNoteEnvelope} (h : e.Fits) :
    e.bytes.length = 115 + 2 * hexByteLength e.ciphertext := by
  have hplain : ∀ m ∈ e.members, Json.Plain m.1 ∧ m.2.Plain := by
    have hfixed : Json.Plain "AES-GCM-256".toList ∧ Json.Plain "HKDF-SHA-256".toList ∧
        (Json.Plain "version".toList ∧ Json.Plain "algorithm".toList ∧ Json.Plain "kdf".toList ∧
          Json.Plain "nonce".toList ∧ Json.Plain "ciphertext".toList) := by decide
    obtain ⟨h1, h2, h3, h4, h5, h6, h7⟩ := hfixed
    simp only [EncryptedNoteEnvelope.members, List.forall_mem_cons, Scalar.Plain, and_true]
    exact ⟨h3, ⟨h4, h1⟩, ⟨h5, h2⟩, ⟨h6, plain_of_isHexOfLength h.nonce⟩,
      ⟨h7, plain_of_isHexString h.ciphertext.1⟩, fun _ h => absurd h List.not_mem_nil⟩
  have hlength : (Json.printObject e.members).length =
      1 + (e.members.map fun m => m.1.length + (Json.printScalar m.2).length + 4).sum :=
    Json.length_printObject (List.cons_ne_nil _ _) fun m hm => (hplain m hm).1
  have hnonce := length_printScalar_of_isHexOfLength h.nonce
  have hciphertext := length_printScalar_of_isHexString h.ciphertext.1
  have hfixed : (Json.printScalar (.number 1)).length = 1 ∧
      (Json.printScalar (.string "AES-GCM-256".toList)).length = 13 ∧
      (Json.printScalar (.string "HKDF-SHA-256".toList)).length = 14 := by decide
  have hnames : ("version".toList.length, "algorithm".toList.length, "kdf".toList.length,
      "nonce".toList.length, "ciphertext".toList.length) = (7, 9, 3, 5, 10) := by decide
  simp only [Prod.mk.injEq] at hnames
  rw [EncryptedNoteEnvelope.bytes, Utf8.length_encode (Json.ascii_printObject hplain), hlength]
  simp only [EncryptedNoteEnvelope.members, List.map_cons, List.map_nil, List.sum_cons,
    List.sum_nil, hnonce, hciphertext, hfixed, hnames]
  omega

/-! ### The spend material -/

def spendMembers (n : SpendMaterialPlaintext) : List (Text × Scalar) :=
  [("version".toList, .string n.version), ("chainId".toList, .number n.chainId),
    ("pool".toList, .string n.pool), ("assetId".toList, .string n.assetId),
    ("noteAmountWei".toList, .string n.noteAmountWei),
    ("ownerCommitment".toList, .string n.ownerCommitment),
    ("noteSecret".toList, .string n.noteSecret), ("blinding".toList, .string n.blinding),
    ("commitment".toList, .string n.commitment), ("createdAt".toList, .string n.createdAt)]

/-- The bytes that are encrypted. -/
def spendBytes (n : SpendMaterialPlaintext) : Bytes :=
  Utf8.encode (Json.printObject (spendMembers n))

/-- The text of a member. -/
def textMember (members : List (Text × Value)) (name : String) : Option Text :=
  match Json.lookup members name.toList with
  | some (.string t) => some t
  | _ => none

/-- The number of a member, if it is a safe integer and not negative. -/
def naturalMember (members : List (Text × Value)) (name : String) : Option ℕ :=
  match Json.lookup members name.toList with
  | some (.number (.finite q)) =>
    if q.den = 1 ∧ 0 ≤ q.num ∧ q.num < 2 ^ 53 then some q.num.toNat else none
  | _ => none

section Printed
variable {members : List (Text × Scalar)} (hnodup : (members.map (·.1)).Nodup)
include hnodup

theorem textMember_printed (name : String) (t : Text) (h : (name.toList, Scalar.string t) ∈ members) :
    textMember (members.map fun m => (m.1, m.2.value)) name = some t := by
  unfold textMember
  rw [Json.lookup_printed hnodup h]
  rfl

theorem naturalMember_printed (name : String) {v : ℕ} (hv : v < 2 ^ 53)
    (h : (name.toList, Scalar.number v) ∈ members) :
    naturalMember (members.map fun m => (m.1, m.2.value)) name = some v := by
  have hsafe : (v : ℚ).den = 1 ∧ 0 ≤ (v : ℚ).num ∧ (v : ℚ).num < 2 ^ 53 := by
    rw [Rat.den_natCast, Rat.num_natCast]
    omega
  unfold naturalMember
  rw [Json.lookup_printed hnodup h]
  simp only [Scalar.value]
  rw [if_pos hsafe, Rat.num_natCast]
  rfl

end Printed

/-- The spend material in a value. -/
def readSpendMaterial : Value → Option SpendMaterialPlaintext
  | .object members => do
    let version ← textMember members "version"
    let chainId ← naturalMember members "chainId"
    let pool ← textMember members "pool"
    let assetId ← textMember members "assetId"
    let noteAmountWei ← textMember members "noteAmountWei"
    let ownerCommitment ← textMember members "ownerCommitment"
    let noteSecret ← textMember members "noteSecret"
    let blinding ← textMember members "blinding"
    let commitment ← textMember members "commitment"
    let createdAt ← textMember members "createdAt"
    return { version, chainId, pool, assetId, noteAmountWei, ownerCommitment, noteSecret, blinding
             commitment, createdAt }
  | _ => none

section Spend
variable {n : SpendMaterialPlaintext}

/-- The names of the members are different. -/
theorem nodup_spendMembers : ((spendMembers n).map (·.1)).Nodup := by
  have hnames : (spendMembers n).map (·.1) = ["version", "chainId", "pool", "assetId",
      "noteAmountWei", "ownerCommitment", "noteSecret", "blinding", "commitment",
      "createdAt"].map String.toList := rfl
  rw [hnames]
  decide

/-- The members of the spend material are read back. -/
theorem readSpendMaterial_members (h : n.chainId < 2 ^ 53) :
    readSpendMaterial (.object ((spendMembers n).map fun m => (m.1, m.2.value))) = some n := by
  unfold readSpendMaterial
  dsimp only
  rw [textMember_printed nodup_spendMembers "version" n.version (by simp [spendMembers]),
    naturalMember_printed nodup_spendMembers "chainId" h (by simp [spendMembers]),
    textMember_printed nodup_spendMembers "pool" n.pool (by simp [spendMembers]),
    textMember_printed nodup_spendMembers "assetId" n.assetId (by simp [spendMembers]),
    textMember_printed nodup_spendMembers "noteAmountWei" n.noteAmountWei (by simp [spendMembers]),
    textMember_printed nodup_spendMembers "ownerCommitment" n.ownerCommitment (by simp [spendMembers]),
    textMember_printed nodup_spendMembers "noteSecret" n.noteSecret (by simp [spendMembers]),
    textMember_printed nodup_spendMembers "blinding" n.blinding (by simp [spendMembers]),
    textMember_printed nodup_spendMembers "commitment" n.commitment (by simp [spendMembers]),
    textMember_printed nodup_spendMembers "createdAt" n.createdAt (by simp [spendMembers])]
  rfl

/-- What is decrypted, as a value. -/
def parseBytes (bytes : Bytes) : Option Value := Json.parse (Utf8.decode bytes)

theorem parseBytes_spendBytes (h : n.chainId < 2 ^ 53) :
    parseBytes (spendBytes n) =
      some (.object ((spendMembers n).map fun m => (m.1, m.2.value))) := by
  have hbrace : ('\x7b' : Char).toNat < 0x80 := by decide
  have hdecode : Utf8.decode (spendBytes n) = Json.printObject (spendMembers n) :=
    Utf8.decode_encode hbrace
  have hexact : ∀ m ∈ spendMembers n, m.2.Exact := by
    simp only [spendMembers, List.forall_mem_cons, Scalar.Exact, true_and]
    exact ⟨h, fun _ h => absurd h List.not_mem_nil⟩
  rw [parseBytes, hdecode]
  exact Json.parse_printObject (List.cons_ne_nil _ _) hexact

/-- **The spend material is read back** from its bytes. -/
theorem readSpendMaterial_spendBytes (h : n.chainId < 2 ^ 53) :
    (parseBytes (spendBytes n)).bind readSpendMaterial = some n := by
  rw [parseBytes_spendBytes h, Option.bind_some, readSpendMaterial_members h]

end Spend

/-! ### The envelope of a client -/

/-- **The envelope of a note**, encrypted with the key of the wallet for its commitment and bound to
its data. -/
def noteEnvelope (c : Crypto) (walletSignature : Text) (chainId : ℕ) (pool : Text)
    (action : EncryptedNoteV1Action) (nonce : Bytes) (n : SpendMaterialPlaintext) :
    EncryptedNoteEnvelope where
  nonce := hexText nonce
  ciphertext := hexText (c.encrypt
    (noteKey c (walletRecoveryKey c walletSignature chainId pool nullarkRecoveryAppId)
      n.commitment (recoveryEpochId chainId))
    nonce (RecoveryAssociatedData.bytes { chainId, pool, action, commitment := n.commitment })
    (spendBytes n))

/-- The envelope fits when its nonce has 12 bytes. -/
theorem noteEnvelope_fits {c : Crypto} (hc : Aead.Documented c) {walletSignature pool : Text}
    {chainId : ℕ} {action : EncryptedNoteV1Action} {nonce : Bytes} (hnonce : nonce.length = 12)
    (n : SpendMaterialPlaintext) :
    (noteEnvelope c walletSignature chainId pool action nonce n).Fits where
  nonce := isHexOfLength_hexText hnonce
  ciphertext := by
    refine isNonEmptyHex_hexText fun h => ?_
    have hempty := congrArg List.length h
    rw [hc.length_encrypt] at hempty
    exact absurd hempty (Nat.succ_ne_zero _)

end Nullark.Js.NoteEnvelope
