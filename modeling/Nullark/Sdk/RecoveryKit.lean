import Nullark.Sdk.NoteRecovery
import Nullark.Sdk.Poseidon

/-! # Recovery kits

A recovery kit is a text with everything a wallet keeps of one note, and a checksum. The leaf index
in it is a hint: nothing compares it with the chain.

* `validateRecoveryKitV1_members`: the members of a kit with its checksum are accepted.
* `importRecoveryKitV1ToSpendableNote_eq_ok`: what an import takes from the kit. -/

namespace Nullark.Sdk.RecoveryKit

open Nullark.Lib Nullark.Lib.Outcome
open Nullark.Lib.Hex hiding value Digits ofNat
open Nullark.Lib.Json (Value Scalar)
open Nullark.Evm.Basic Nullark.Pool.Interface
open Nullark.Js.Basic Nullark.Js.Bytes Nullark.Js.TreeHash
open Nullark.Js.SpendMaterial Nullark.Js.NoteEnvelope
open Nullark.Sdk.Poseidon Nullark.Sdk.NoteRecovery

/-! ### Kits -/

def recoveryKitV1Domain : Text := "RECOVERY_KIT_V1".toList

def recoveryKitV1ChecksumAlgorithm : Text := "keccak256-canonical-json-v1".toList

def recoveryKitV1SchemaHash : Text :=
  "sha256:b7935a0848b972e16be5790040136f50712e84e44c272079170192b9a56d18d8".toList

/-- **`RecoveryKitV1`**, without the members that are the same in every kit. The pool address is
checked as a text but kept as the value it is. -/
structure RecoveryKitV1 where
  chainId : ℕ
  poolAddress : Value
  runtimeId : Text
  amount : Text
  assetId : Text
  ownerCommitment : Text
  noteSecret : Text
  blinding : Text
  commitment : Text
  txHashHint : Text
  blockNumberHint : Option Text
  leafIndexHint : ℕ
  createdAt : Text
  checksum : Text

def expectedKeys : List Text :=
  ["domain", "version", "recoveryKitSchemaHash", "checksumAlgorithm", "chainId", "poolAddress",
    "runtimeId", "noteVersion", "amount", "assetId", "ownerCommitment", "noteSecret", "blinding",
    "commitment", "txHashHint", "blockNumberHint", "leafIndexHint", "createdAt",
    "checksum"].map String.toList

/-- `/^0x(?:0|[1-9a-fA-F][0-9a-fA-F]*)$/`. -/
def isBlockQuantity (t : Text) : Prop :=
  t = ['0', 'x', '0'] ∨
    t.take 2 = ['0', 'x'] ∧ t.drop 2 ≠ [] ∧ (t.drop 2).head? ≠ some '0' ∧ Hex.Digits (t.drop 2)

instance (t : Text) : Decidable (isBlockQuantity t) := inferInstanceAs (Decidable (_ ∨ _))

def contains (needle t : Text) : Bool := t.tails.any fun s => needle.isPrefixOf s

def forbiddenFields : List Text :=
  ["walletAddress", "ownerAddress", "discoveryTag", "futureNullifier", "walletTag",
    "publicDiscoveryTag", "stableDiscoveryTag", "walletLinkedDiscoveryTag"].map String.toList

/-- A listed name, or one that matches `/wallet|discovery|tag/i`. -/
def isForbiddenField (name : Text) : Bool :=
  forbiddenFields.contains name ||
    ["wallet".toList, "discovery".toList, "tag".toList].any fun word => contains word (lower name)

/-! ### The checksum -/

/-- The text `String(value)` gives, if it may be an address. -/
def poolAddressText : Value → Option Text
  | .string t => some t
  | .array [item] => poolAddressText item
  | _ => none

/-- `canonicalJson` of such a value. -/
def canonicalPoolAddress : Value → Text
  | .string t => Json.printString t
  | .array [item] => '[' :: canonicalPoolAddress item ++ [']']
  | _ => []

/-- The members that are summed, in the order of `localeCompare`. -/
def canonicalMembers (kit : RecoveryKitV1) : List (String × Text) :=
  [("amount", Json.printString kit.amount),
    ("assetId", Json.printString kit.assetId),
    ("blinding", Json.printString kit.blinding),
    ("blockNumberHint", kit.blockNumberHint.elim "null".toList Json.printString),
    ("chainId", Decimal.ofNat kit.chainId),
    ("checksumAlgorithm", Json.printString recoveryKitV1ChecksumAlgorithm),
    ("commitment", Json.printString kit.commitment),
    ("createdAt", Json.printString kit.createdAt),
    ("domain", Json.printString recoveryKitV1Domain),
    ("leafIndexHint", Decimal.ofNat kit.leafIndexHint),
    ("noteSecret", Json.printString kit.noteSecret),
    ("noteVersion", Json.printString spendMaterialVersion),
    ("ownerCommitment", Json.printString kit.ownerCommitment),
    ("poolAddress", canonicalPoolAddress kit.poolAddress),
    ("recoveryKitSchemaHash", Json.printString recoveryKitV1SchemaHash),
    ("runtimeId", Json.printString kit.runtimeId),
    ("txHashHint", Json.printString kit.txHashHint),
    ("version", Decimal.ofNat 1)]

/-- `canonicalJson` of a kit without its checksum. -/
def canonicalJson (kit : RecoveryKitV1) : Text :=
  '\x7b' :: Json.commaSeparated ((canonicalMembers kit).map fun m =>
    Json.printString m.1.toList ++ ':' :: m.2) ++ ['\x7d']

section Code
variable (keccak256 : Bytes → Bytes32)

def checksumRecoveryKit (kit : RecoveryKitV1) : Text :=
  hex32 (keccak256 (Utf8.encode (canonicalJson kit)))

/-! ### Reading a kit -/

def requireBytes32 (value : Option Value) (label : String) : Throws Text :=
  match value with
  | some (.string t) =>
    if isHexBytes32 t then .ok t else .error (label ++ " must be bytes32 hex.")
  | _ => .error (label ++ " must be bytes32 hex.")

def requireText (value : Option Value) (message : String) : Throws Text :=
  match value with
  | some (.string t) => if t ≠ [] then .ok t else .error message
  | _ => .error message

def requirePoolAddress (value : Option Value) : Throws Value :=
  match value with
  | some v =>
    match poolAddressText v with
    | some t =>
      if isEvmAddress t then .ok v else .error "Recovery kit pool address must be an EVM address."
    | none => .error "Recovery kit pool address must be an EVM address."
  | none => .error "Recovery kit pool address must be an EVM address."

def requireAmount (value : Option Value) : Throws Text :=
  match value with
  | some (.string t) =>
    if Decimal.isDecimal t ∧ 0 < Decimal.value t then .ok t
    else .error "Recovery kit amount must be positive decimal wei."
  | _ => .error "Recovery kit amount must be positive decimal wei."

def requireBlockNumberHint (value : Option Value) : Throws (Option Text) :=
  match value with
  | some .null => .ok none
  | some (.string t) =>
    if isBlockQuantity t then .ok (some t)
    else .error "Recovery kit block number hint must be a hex block quantity."
  | _ => .error "Recovery kit block number hint must be a hex block quantity."

/-- A safe integer that is not negative. -/
def requireNatural (value : Option ℕ) (message : String) : Throws ℕ :=
  match value with
  | some n => .ok n
  | none => .error message

/-- **`validateRecoveryKitV1`**. -/
def validateRecoveryKitV1 : Value → Throws RecoveryKitV1
  | .object members => do
    let member := fun name : String => Json.lookup members name.toList
    ensure (¬(Json.keys members).any isForbiddenField = true)
      "Recovery kit must not contain public wallet-linked discovery tags."
    ensure (member "recoveryKitSchemaHash").isSome "Recovery kit schema hash is required."
    ensure (textMember members "recoveryKitSchemaHash" = some recoveryKitV1SchemaHash)
      "Recovery kit schema hash mismatch."
    ensure ((Json.keys members).isPerm expectedKeys = true)
      "Recovery kit has unsupported or missing fields."
    ensure (textMember members "domain" = some recoveryKitV1Domain ∧
      naturalMember members "version" = some 1) "Unsupported recovery kit version."
    ensure (textMember members "checksumAlgorithm" = some recoveryKitV1ChecksumAlgorithm)
      "Unsupported recovery kit checksum algorithm."
    let chainId ← requireNatural (naturalMember members "chainId")
      "Recovery kit chain ID must be a positive safe integer."
    ensure (0 < chainId) "Recovery kit chain ID must be a positive safe integer."
    let poolAddress ← requirePoolAddress (member "poolAddress")
    let runtimeId ← requireText (member "runtimeId") "Recovery kit runtime ID is required."
    ensure (textMember members "noteVersion" = some spendMaterialVersion)
      "Unsupported recovery kit note version."
    let amount ← requireAmount (member "amount")
    let assetId ← requireBytes32 (member "assetId") "Recovery kit asset ID"
    let ownerCommitment ← requireBytes32 (member "ownerCommitment") "Recovery kit owner commitment"
    let noteSecret ← requireBytes32 (member "noteSecret") "Recovery kit note secret"
    let blinding ← requireBytes32 (member "blinding") "Recovery kit blinding"
    let commitment ← requireBytes32 (member "commitment") "Recovery kit commitment"
    let txHashHint ← requireBytes32 (member "txHashHint") "Recovery kit transaction hash hint"
    let blockNumberHint ← requireBlockNumberHint (member "blockNumberHint")
    let leafIndexHint ← requireNatural (naturalMember members "leafIndexHint")
      "Recovery kit leaf index hint must be a non-negative safe integer."
    let createdAt ← requireText (member "createdAt") "Recovery kit creation time is required."
    let checksum ← requireBytes32 (member "checksum") "Recovery kit checksum"
    let kit : RecoveryKitV1 := {
      chainId, poolAddress, runtimeId, amount, assetId, ownerCommitment, noteSecret, blinding
      commitment, txHashHint, blockNumberHint, leafIndexHint, createdAt, checksum }
    ensure (lower checksum = lower (checksumRecoveryKit keccak256 kit))
      "Recovery kit checksum mismatch."
    return kit
  | .null => .error "TypeError"
  | _ => .error "Recovery kit schema hash is required."

def parseRecoveryKitV1 (text : Text) : Throws RecoveryKitV1 :=
  match Json.parse text with
  | none => .error "Expected recovery kit JSON."
  | some value => validateRecoveryKitV1 keccak256 value

/-! ### Importing a kit -/

/-- **`NullarkCurrentRuntime`**, as far as the notes of a client read it. -/
structure ClientRuntime where
  environment : Text
  chainId : ℕ
  pool : Text
  productVersion : Text

structure RecoveryKitRootAcceptedEvidence where
  status : Text
  chainId : ℕ
  pool : Text
  runtimeId : Option Text
  commitment : Text
  leafIndex : ℕ
  root : Text
  latestCheckedBlock : Option Text

structure PrintableRecoveredNoteSummary where
  id : Text
  commitment : Text
  amountWei : Text
  spent : Bool
  leafIndex : ℕ
  transactionHash : Text
  deriving DecidableEq, Repr

structure RecoveredWalletNote where
  summary : PrintableRecoveredNoteSummary
  spendMaterial : SpendMaterialPlaintext
  nullifier : Text
  deriving DecidableEq, Repr

/-- `value.toLowerCase()`, which only a text has. -/
def textOf : Value → Throws Text
  | .string t => .ok t
  | _ => .error "TypeError"

/-- `assertRecoveryKitMatchesRuntime`, with the text of the pool address. -/
def assertRecoveryKitMatchesRuntime (kit : RecoveryKitV1) (runtime : ClientRuntime) :
    Throws Text := do
  ensure (kit.chainId = runtime.chainId) "Recovery kit is not for the active MegaETH chain."
  let poolAddress ← textOf kit.poolAddress
  ensure (lower poolAddress = lower runtime.pool) "Recovery kit is not for the active pool."
  ensure (kit.runtimeId = runtime.productVersion) "Recovery kit is not for the active runtime."
  return poolAddress

def assertLatestCheckedBlock (kit : RecoveryKitV1) : Option Text → Throws Unit
  | none => .ok ()
  | some latestCheckedBlock => do
    ensure (isBlockQuantity latestCheckedBlock)
      "Recovery kit block number hint must be a hex block quantity."
    ensure (∀ hint ∈ kit.blockNumberHint, hexNat hint ≤ hexNat latestCheckedBlock)
      "Recovery kit RootAccepted evidence does not cover the hinted block."

def assertRecoveryKitRootAcceptedEvidence (kit : RecoveryKitV1) (poolAddress : Text)
    (runtime : ClientRuntime) : Option RecoveryKitRootAcceptedEvidence → Throws Unit
  | none => ensure (runtime.environment ≠ "megaeth-mainnet".toList)
      "Recovery kit RootAccepted verification is required before importing a mainnet spendable note."
  | some evidence => do
    ensure (evidence.status = "verified-root-accepted".toList)
      "Recovery kit RootAccepted evidence must be verified."
    ensure (evidence.chainId = kit.chainId ∧ evidence.chainId = runtime.chainId)
      "Recovery kit RootAccepted evidence chain ID does not match."
    ensure (lower evidence.pool = lower poolAddress ∧ lower evidence.pool = lower runtime.pool)
      "Recovery kit RootAccepted evidence pool does not match."
    ensure (∀ runtimeId ∈ evidence.runtimeId, runtimeId = kit.runtimeId)
      "Recovery kit RootAccepted evidence runtime ID does not match."
    ensure (lower evidence.commitment = lower kit.commitment)
      "Recovery kit RootAccepted evidence commitment does not match."
    ensure (evidence.leafIndex = kit.leafIndexHint)
      "Recovery kit RootAccepted evidence leaf index does not match."
    ensure (isHexBytes32 evidence.root)
      "Recovery kit RootAccepted evidence root must be bytes32 hex."
    ensure (hexNat evidence.root ≠ 0) "Recovery kit RootAccepted evidence root must be nonzero."
    assertLatestCheckedBlock kit evidence.latestCheckedBlock

def spendMaterialFromRecoveryKit (kit : RecoveryKitV1) (poolAddress : Text) :
    SpendMaterialPlaintext where
  version := spendMaterialVersion
  chainId := kit.chainId
  pool := poolAddress
  assetId := kit.assetId
  noteAmountWei := kit.amount
  ownerCommitment := kit.ownerCommitment
  noteSecret := kit.noteSecret
  blinding := kit.blinding
  commitment := kit.commitment
  createdAt := kit.createdAt

/-- The id of a note: the first digits of its commitment and its leaf index. -/
def noteId (commitment : Text) (leafIndex : ℕ) : Text :=
  "note_".toList ++ (commitment.drop 2).take 8 ++ '_' :: Decimal.ofNat leafIndex

variable (hash : FieldHash) (isNullifierSpent : Text → Throws Bool)

/-- **`importRecoveryKitV1ToSpendableNote`**, as the client calls it. -/
def importRecoveryKitV1ToSpendableNote (runtime : ClientRuntime) (serializedKit : Text)
    (rootAcceptedEvidence : Option RecoveryKitRootAcceptedEvidence) :
    Throws RecoveredWalletNote := do
  let kit ← parseRecoveryKitV1 keccak256 serializedKit
  let poolAddress ← assertRecoveryKitMatchesRuntime kit runtime
  assertRecoveryKitRootAcceptedEvidence kit poolAddress runtime rootAcceptedEvidence
  let spendMaterial := spendMaterialFromRecoveryKit kit poolAddress
  let derivedCommitment ← deriveNoteCommitment hash spendMaterial.preimage
  ensure (lower derivedCommitment = lower kit.commitment)
    "Recovery kit commitment does not match witness material."
  let nullifier ← deriveNullifier hash
    { noteSecret := spendMaterial.noteSecret, leafIndex := kit.leafIndexHint
      chainId := runtime.chainId, verifyingContract := runtime.pool }
  ensure (isHexBytes32 nullifier) "Recovery kit nullifier must be bytes32."
  let spent ← isNullifierSpent nullifier
  return {
    summary := {
      id := noteId kit.commitment kit.leafIndexHint, commitment := kit.commitment
      amountWei := kit.amount, spent, leafIndex := kit.leafIndexHint
      transactionHash := kit.txHashHint }
    spendMaterial, nullifier }

end Code

/-! ### Kits that are accepted -/

/-- **The fields of a kit.** -/
structure KitFits (kit : RecoveryKitV1) : Prop where
  chainId : 0 < kit.chainId ∧ kit.chainId < 2 ^ 53
  poolAddress : ∃ t, poolAddressText kit.poolAddress = some t ∧ isEvmAddress t
  runtimeId : kit.runtimeId ≠ []
  amount : Decimal.isDecimal kit.amount ∧ 0 < Decimal.value kit.amount
  assetId : isHexBytes32 kit.assetId
  ownerCommitment : isHexBytes32 kit.ownerCommitment
  noteSecret : isHexBytes32 kit.noteSecret
  blinding : isHexBytes32 kit.blinding
  commitment : isHexBytes32 kit.commitment
  txHashHint : isHexBytes32 kit.txHashHint
  blockNumberHint : ∀ t ∈ kit.blockNumberHint, isBlockQuantity t
  leafIndexHint : kit.leafIndexHint < 2 ^ 53
  createdAt : kit.createdAt ≠ []

/-- The checksum is that of the other members, in any case. -/
def Summed (keccak256 : Bytes → Bytes32) (kit : RecoveryKitV1) : Prop :=
  isHexBytes32 kit.checksum ∧ lower kit.checksum = lower (checksumRecoveryKit keccak256 kit)

/-- The members of a kit, in the order of the schema. -/
def kitMembers (kit : RecoveryKitV1) : List (Text × Value) :=
  [("domain".toList, .string recoveryKitV1Domain),
    ("version".toList, .number (.finite (1 : ℕ))),
    ("recoveryKitSchemaHash".toList, .string recoveryKitV1SchemaHash),
    ("checksumAlgorithm".toList, .string recoveryKitV1ChecksumAlgorithm),
    ("chainId".toList, .number (.finite kit.chainId)),
    ("poolAddress".toList, kit.poolAddress),
    ("runtimeId".toList, .string kit.runtimeId),
    ("noteVersion".toList, .string spendMaterialVersion),
    ("amount".toList, .string kit.amount),
    ("assetId".toList, .string kit.assetId),
    ("ownerCommitment".toList, .string kit.ownerCommitment),
    ("noteSecret".toList, .string kit.noteSecret),
    ("blinding".toList, .string kit.blinding),
    ("commitment".toList, .string kit.commitment),
    ("txHashHint".toList, .string kit.txHashHint),
    ("blockNumberHint".toList, kit.blockNumberHint.elim .null .string),
    ("leafIndexHint".toList, .number (.finite kit.leafIndexHint)),
    ("createdAt".toList, .string kit.createdAt),
    ("checksum".toList, .string kit.checksum)]

/-! ### What the checks of a member say -/

section Members
variable {members : List (Text × Value)} {value : Option Value} {name : String} {t : Text} {n : ℕ}

theorem textMember_eq_some : textMember members name = some t ↔
    Json.lookup members name.toList = some (.string t) := by
  unfold textMember
  split
  · rename_i s heq
    rw [heq, Option.some.injEq, Option.some.injEq, Value.string.injEq]
  · rename_i hne
    exact ⟨fun h => (nomatch h), fun h => absurd h (hne t)⟩

theorem naturalMember_eq_some : naturalMember members name = some n ↔
    Json.lookup members name.toList = some (.number (.finite n)) ∧ n < 2 ^ 53 := by
  unfold naturalMember
  split
  · rename_i q heq
    rw [heq, Option.some.injEq, Value.number.injEq, Binary64.Number.finite.injEq]
    constructor
    · intro h
      split_ifs at h with hq
      obtain rfl := Option.some.inj h
      have hint : (q.num : ℚ) = q := (Rat.den_eq_one_iff q).mp hq.1
      have hnat : ((q.num.toNat : ℕ) : ℚ) = (q.num : ℚ) := by
        exact_mod_cast Int.toNat_of_nonneg hq.2.1
      exact ⟨by rw [hnat, hint], by omega⟩
    · rintro ⟨rfl, hn⟩
      have hsafe : (n : ℚ).den = 1 ∧ 0 ≤ (n : ℚ).num ∧ (n : ℚ).num < 2 ^ 53 := by
        rw [Rat.den_natCast, Rat.num_natCast]
        omega
      rw [if_pos hsafe, Rat.num_natCast, Int.toNat_natCast]
  · rename_i hne
    exact ⟨fun h => (nomatch h), fun h => absurd h.1 (hne n)⟩

theorem ite_error_eq_ok {c : Prop} [Decidable c] {α : Type} {a b : α} {message : String} :
    (if c then Except.ok a else Except.error message : Throws α) = .ok b ↔ c ∧ a = b := by
  split_ifs with h <;> simp [h]

theorem requireNatural_eq_ok {value : Option ℕ} {message : String} :
    requireNatural value message = .ok n ↔ value = some n := by
  cases value <;> simp [requireNatural]

theorem requireBytes32_eq_ok {label : String} : requireBytes32 value label = .ok t ↔
    value = some (.string t) ∧ isHexBytes32 t := by
  unfold requireBytes32
  split
  · rename_i s
    rw [ite_error_eq_ok, Option.some.injEq, Value.string.injEq]
    exact ⟨fun ⟨h, heq⟩ => ⟨heq, heq ▸ h⟩, fun ⟨heq, h⟩ => ⟨heq ▸ h, heq⟩⟩
  · rename_i hne
    exact ⟨fun h => (nomatch h), fun h => absurd h.1 (hne t)⟩

theorem requireText_eq_ok {message : String} : requireText value message = .ok t ↔
    value = some (.string t) ∧ t ≠ [] := by
  unfold requireText
  split
  · rename_i s
    rw [ite_error_eq_ok, Option.some.injEq, Value.string.injEq]
    exact ⟨fun ⟨h, heq⟩ => ⟨heq, heq ▸ h⟩, fun ⟨heq, h⟩ => ⟨heq ▸ h, heq⟩⟩
  · rename_i hne
    exact ⟨fun h => (nomatch h), fun h => absurd h.1 (hne t)⟩

theorem requireAmount_eq_ok : requireAmount value = .ok t ↔
    value = some (.string t) ∧ Decimal.isDecimal t ∧ 0 < Decimal.value t := by
  unfold requireAmount
  split
  · rename_i s
    rw [ite_error_eq_ok, Option.some.injEq, Value.string.injEq]
    exact ⟨fun ⟨h, heq⟩ => ⟨heq, heq ▸ h⟩, fun ⟨heq, h⟩ => ⟨heq ▸ h, heq⟩⟩
  · rename_i hne
    exact ⟨fun h => (nomatch h), fun h => absurd h.1 (hne t)⟩

theorem requirePoolAddress_eq_ok {address : Value} : requirePoolAddress value = .ok address ↔
    value = some address ∧ ∃ t, poolAddressText address = some t ∧ isEvmAddress t := by
  cases value with
  | none => exact ⟨fun h => (nomatch h), fun h => (nomatch h.1)⟩
  | some v =>
    unfold requirePoolAddress
    dsimp only
    cases htext : poolAddressText v with
    | none =>
      refine ⟨fun h => (nomatch h), ?_⟩
      rintro ⟨heq, t, ht, -⟩
      obtain rfl := Option.some.inj heq
      rw [htext] at ht
      cases ht
    | some t =>
      dsimp only
      rw [ite_error_eq_ok, Option.some.injEq]
      constructor
      · rintro ⟨h, rfl⟩
        exact ⟨rfl, t, htext, h⟩
      · rintro ⟨rfl, s, hs, h⟩
        obtain rfl := Option.some.inj (htext.symm.trans hs)
        exact ⟨h, rfl⟩

theorem requireBlockNumberHint_eq_ok {hint : Option Text} :
    requireBlockNumberHint value = .ok hint ↔
      value = some (hint.elim .null .string) ∧ ∀ t ∈ hint, isBlockQuantity t := by
  unfold requireBlockNumberHint
  split
  · rw [Except.ok.injEq, Option.some.injEq]
    cases hint with
    | none => exact ⟨fun _ => ⟨rfl, fun _ h => (nomatch h)⟩, fun _ => rfl⟩
    | some t => exact ⟨fun h => (nomatch h), fun h => (nomatch h.1)⟩
  · rename_i s
    rw [ite_error_eq_ok, Option.some.injEq]
    cases hint with
    | none => exact ⟨fun h => (nomatch h.2), fun h => (nomatch h.1)⟩
    | some t =>
      rw [Option.some.injEq, Option.elim_some, Value.string.injEq]
      constructor
      · rintro ⟨h, rfl⟩
        exact ⟨rfl, fun _ heq => Option.some.inj heq ▸ h⟩
      · rintro ⟨rfl, h⟩
        exact ⟨h _ rfl, rfl⟩
  · rename_i hnull hstring
    refine ⟨fun h => (nomatch h), fun h => ?_⟩
    cases hint with
    | none => exact absurd h.1 hnull
    | some t => exact absurd h.1 (hstring t)

end Members

/-! ### The kits that are read -/

/-- **An object has the members of a kit**, in any order. -/
structure Reads (members : List (Text × Value)) (kit : RecoveryKitV1) : Prop where
  keys : (Json.keys members).Perm expectedKeys
  lookup : ∀ m ∈ kitMembers kit, Json.lookup members m.1 = some m.2

theorem not_forbidden_of_perm {names : List Text} (h : names.Perm expectedKeys) :
    ¬names.any isForbiddenField = true := by
  have hallowed : ∀ name ∈ expectedKeys, isForbiddenField name = false := by decide +kernel
  intro hany
  obtain ⟨name, hname, hforbidden⟩ := List.any_eq_true.mp hany
  rw [hallowed name (h.mem_iff.mp hname)] at hforbidden
  cases hforbidden

/-- **The kits that are accepted**: their members fit, and the checksum is theirs. -/
theorem validateRecoveryKitV1_eq_ok {keccak256 : Bytes → Bytes32} {value : Value}
    {kit : RecoveryKitV1} : validateRecoveryKitV1 keccak256 value = .ok kit ↔
      ∃ members, value = .object members ∧ Reads members kit ∧ KitFits kit ∧
        Summed keccak256 kit := by
  constructor
  · intro h
    unfold validateRecoveryKitV1 at h
    split at h
    · rename_i members
      simp only [bind_eq_ok, ensure_eq_ok, exists_const, pure_eq_ok, textMember_eq_some,
        requireNatural_eq_ok, naturalMember_eq_some, requirePoolAddress_eq_ok, requireText_eq_ok,
        requireAmount_eq_ok, requireBytes32_eq_ok, requireBlockNumberHint_eq_ok,
        List.isPerm_iff] at h
      obtain ⟨-, -, hschema, hkeys, ⟨hdomain, hversion, -⟩, halgorithm, chainId, hchain, hpos,
        pool, hpool, runtimeId, hruntime, hnote, amount, hamount, assetId, hasset, owner, howner,
        secret, hsecret, blinding, hblinding, commitment, hcommitment, tx, htx, block, hblock, leaf,
        hleaf, createdAt, hcreated, checksum, hchecksum, hsum, rfl⟩ := h
      refine ⟨members, rfl, ⟨hkeys, ?_⟩, ⟨⟨hpos, hchain.2⟩, hpool.2, hruntime.2, hamount.2,
        hasset.2, howner.2, hsecret.2, hblinding.2, hcommitment.2, htx.2, hblock.2, hleaf.2,
        hcreated.2⟩, hchecksum.2, hsum⟩
      simp only [kitMembers, List.forall_mem_cons]
      exact ⟨hdomain, hversion, hschema, halgorithm, hchain.1, hpool.1, hruntime.1, hnote,
        hamount.1, hasset.1, howner.1, hsecret.1, hblinding.1, hcommitment.1, htx.1, hblock.1,
        hleaf.1, hcreated.1, hchecksum.1, fun _ hm => absurd hm List.not_mem_nil⟩
    · cases h
    · cases h
  · rintro ⟨members, rfl, ⟨hkeys, hlookup⟩, hfits, hsum⟩
    simp only [kitMembers, List.forall_mem_cons] at hlookup
    obtain ⟨hdomain, hversion, hschema, halgorithm, hchain, hpool, hruntime, hnote, hamount, hasset,
      howner, hsecret, hblinding, hcommitment, htx, hblock, hleaf, hcreated, hchecksum, -⟩ := hlookup
    unfold validateRecoveryKitV1
    simp only [bind_eq_ok, ensure_eq_ok, exists_const, pure_eq_ok, textMember_eq_some,
      requireNatural_eq_ok, naturalMember_eq_some, requirePoolAddress_eq_ok, requireText_eq_ok,
      requireAmount_eq_ok, requireBytes32_eq_ok, requireBlockNumberHint_eq_ok, List.isPerm_iff]
    exact ⟨not_forbidden_of_perm hkeys, by rw [hschema]; rfl, hschema, hkeys,
      ⟨hdomain, hversion, by decide⟩, halgorithm, _, ⟨hchain, hfits.chainId.2⟩, hfits.chainId.1,
      _, ⟨hpool, hfits.poolAddress⟩, _, ⟨hruntime, hfits.runtimeId⟩, hnote,
      _, ⟨hamount, hfits.amount⟩, _, ⟨hasset, hfits.assetId⟩, _, ⟨howner, hfits.ownerCommitment⟩,
      _, ⟨hsecret, hfits.noteSecret⟩, _, ⟨hblinding, hfits.blinding⟩,
      _, ⟨hcommitment, hfits.commitment⟩, _, ⟨htx, hfits.txHashHint⟩,
      _, ⟨hblock, hfits.blockNumberHint⟩, _, ⟨hleaf, hfits.leafIndexHint⟩,
      _, ⟨hcreated, hfits.createdAt⟩, _, ⟨hchecksum, hsum.1⟩, hsum.2, rfl⟩

theorem names_kitMembers {kit : RecoveryKitV1} : (kitMembers kit).map (·.1) = expectedKeys := rfl

theorem nodup_expectedKeys : expectedKeys.Nodup := by decide

theorem reads_kitMembers (kit : RecoveryKitV1) : Reads (kitMembers kit) kit where
  keys := by
    have hnames : expectedKeys.eraseDups = expectedKeys := by decide
    have hindex : expectedKeys.filter Json.isIndex = [] := by decide
    unfold Json.keys
    dsimp only
    rw [names_kitMembers, hnames, hindex, List.mergeSort_nil, List.nil_append]
    exact List.Perm.refl _
  lookup m hm := Json.lookup_of_mem (by rw [names_kitMembers]; exact nodup_expectedKeys) hm

/-- **The members of a kit** are accepted and read back. -/
theorem validateRecoveryKitV1_members {keccak256 : Bytes → Bytes32} {kit : RecoveryKitV1}
    (h : KitFits kit) (hsum : Summed keccak256 kit) :
    validateRecoveryKitV1 keccak256 (.object (kitMembers kit)) = .ok kit :=
  validateRecoveryKitV1_eq_ok.mpr ⟨_, rfl, reads_kitMembers kit, h, hsum⟩

theorem parseRecoveryKitV1_of_parse {keccak256 : Bytes → Bytes32} {text : Text} {value : Value}
    (h : Json.parse text = some value) :
    parseRecoveryKitV1 keccak256 text = validateRecoveryKitV1 keccak256 value := by
  unfold parseRecoveryKitV1
  rw [h]

/-! ### What an import takes from a kit -/

/-- **A kit is imported**: it is for the runtime, the evidence it needs is there, its commitment is
that of its note, and the node says whether it is spent at the hinted leaf. -/
structure Imports (keccak256 : Bytes → Bytes32) (hash : FieldHash)
    (isNullifierSpent : Text → Throws Bool) (runtime : ClientRuntime) (serializedKit : Text)
    (rootAcceptedEvidence : Option RecoveryKitRootAcceptedEvidence) (kit : RecoveryKitV1)
    (poolAddress nullifier : Text) (spent : Bool) : Prop where
  parsed : parseRecoveryKitV1 keccak256 serializedKit = .ok kit
  forRuntime : assertRecoveryKitMatchesRuntime kit runtime = .ok poolAddress
  evidence : assertRecoveryKitRootAcceptedEvidence kit poolAddress runtime rootAcceptedEvidence =
    .ok ()
  commitment : ∃ t, deriveNoteCommitment hash
    (spendMaterialFromRecoveryKit kit poolAddress).preimage = .ok t ∧ lower t = lower kit.commitment
  derived : deriveNullifier hash
    { noteSecret := kit.noteSecret, leafIndex := kit.leafIndexHint, chainId := runtime.chainId
      verifyingContract := runtime.pool } = .ok nullifier
  bytes32 : isHexBytes32 nullifier
  answered : isNullifierSpent nullifier = .ok spent

/-- The note of a kit. -/
def noteOfKit (kit : RecoveryKitV1) (poolAddress nullifier : Text) (spent : Bool) :
    RecoveredWalletNote where
  summary := {
    id := noteId kit.commitment kit.leafIndexHint, commitment := kit.commitment
    amountWei := kit.amount, spent, leafIndex := kit.leafIndexHint
    transactionHash := kit.txHashHint }
  spendMaterial := spendMaterialFromRecoveryKit kit poolAddress
  nullifier := nullifier

theorem importRecoveryKitV1ToSpendableNote_eq_ok {keccak256 : Bytes → Bytes32} {hash : FieldHash}
    {isNullifierSpent : Text → Throws Bool} {runtime : ClientRuntime} {serializedKit : Text}
    {rootAcceptedEvidence : Option RecoveryKitRootAcceptedEvidence} {note : RecoveredWalletNote} :
    importRecoveryKitV1ToSpendableNote keccak256 hash isNullifierSpent runtime serializedKit
        rootAcceptedEvidence = .ok note ↔
      ∃ kit poolAddress nullifier spent, Imports keccak256 hash isNullifierSpent runtime serializedKit
          rootAcceptedEvidence kit poolAddress nullifier spent ∧
        note = noteOfKit kit poolAddress nullifier spent := by
  unfold importRecoveryKitV1ToSpendableNote
  simp only [bind_eq_ok, ensure_eq_ok, exists_const, pure_eq_ok]
  constructor
  · rintro ⟨kit, h1, poolAddress, h2, _, h3, t, h4, h5, nullifier, h6, h7, spent, h8, rfl⟩
    exact ⟨kit, poolAddress, nullifier, spent, ⟨h1, h2, h3, ⟨t, h4, h5⟩, h6, h7, h8⟩, rfl⟩
  · rintro ⟨kit, poolAddress, nullifier, spent, ⟨h1, h2, h3, ⟨t, h4, h5⟩, h6, h7, h8⟩, rfl⟩
    exact ⟨kit, h1, poolAddress, h2, (), h3, t, h4, h5, nullifier, h6, h7, spent, h8, rfl⟩

/-- The kit is for the chain and the pool of the runtime. -/
theorem assertRecoveryKitMatchesRuntime_eq_ok {kit : RecoveryKitV1} {runtime : ClientRuntime}
    {poolAddress : Text} : assertRecoveryKitMatchesRuntime kit runtime = .ok poolAddress ↔
      kit.chainId = runtime.chainId ∧ textOf kit.poolAddress = .ok poolAddress ∧
        lower poolAddress = lower runtime.pool ∧ kit.runtimeId = runtime.productVersion := by
  unfold assertRecoveryKitMatchesRuntime
  simp only [bind_eq_ok, ensure_eq_ok, exists_const, pure_eq_ok]
  constructor
  · rintro ⟨h1, t, h2, h3, h4, rfl⟩
    exact ⟨h1, h2, h3, h4⟩
  · rintro ⟨h1, h2, h3, h4⟩
    exact ⟨h1, poolAddress, h2, h3, h4, rfl⟩

end Nullark.Sdk.RecoveryKit
