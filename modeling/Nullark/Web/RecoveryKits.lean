import Nullark.Sdk.KitTexts
import Nullark.Web.NoteRecords

/-! # Recovery kits of the web app

The app writes the kit of a note record and makes a record of a kit it reads. A kit has the leaf
index as a number; a record may not know it.

* `validateRecoveryKitV1_eq_ok`: the kits the app accepts.
* `exported_iff`: the records that come back as they were. -/

namespace Nullark.Web.RecoveryKits

open Nullark.Lib Nullark.Lib.Outcome Nullark.Lib.Stringify
open Nullark.Lib.Hex hiding value Digits ofNat
open Nullark.Lib.Json (Value)
open Nullark.Core.Proofs (maxSafeInteger)
open Nullark.Evm.Basic Nullark.Pool.Interface
open Nullark.Js.Basic Nullark.Js.Bytes Nullark.Js.Numbers Nullark.Js.SpendMaterial
open Nullark.Js.NoteEnvelope
open Nullark.Web.WalletNotes (shieldedPoolAddress legacyMainnetShieldedPoolDepth20Address
  megaEthTestnetRpcUrl NoteRecordDeployment Supported)
open Nullark.Web.NoteRecords
open Nullark.Sdk.RecoveryKit hiding validateRecoveryKitV1 validateRecoveryKitV1_eq_ok
  requirePoolAddress requirePoolAddress_eq_ok requireAmount requireAmount_eq_ok isForbiddenField
  not_forbidden_of_perm canonicalJson
open Nullark.Sdk.KitTexts hiding serializeRecoveryKitV1 serializeRecoveryKitV1_eq_ok parse_serialize
  validateRecoveryKitV1_doc

/-! ### Reading a kit -/

/-- A name that matches `/wallet|discovery|tag/i` or `/^futureNullifier$/i`. -/
def isForbiddenField (name : Text) : Bool :=
  ["wallet".toList, "discovery".toList, "tag".toList].any (fun word => contains word (lower name)) ||
    decide (lower name = lower "futureNullifier".toList)

def requireChainId (value : Option ℕ) : Throws ℕ :=
  match value with
  | some n =>
    if isSupportedMegaEthChainId n then .ok n
    else .error "Recovery kit chain ID must be MegaETH mainnet or testnet."
  | none => .error "Recovery kit chain ID must be MegaETH mainnet or testnet."

def requirePoolAddress (value : Option Value) : Throws Text :=
  match value with
  | some (.string t) =>
    if isEvmAddress t then .ok t else .error "Recovery kit pool address must be an EVM address."
  | _ => .error "Recovery kit pool address must be an EVM address."

def requireAmount (value : Option Value) : Throws Text :=
  match value with
  | some (.string t) =>
    if Decimal.isDecimal t ∧ 1 ≤ Decimal.value t then .ok t
    else .error "Recovery kit amount must be positive decimal wei."
  | _ => .error "Recovery kit amount must be positive decimal wei."

/-- `canonicalJson`, the same as in the SDK. -/
def canonicalJson (kit : RecoveryKitV1) : Text := Sdk.RecoveryKit.canonicalJson kit

section Code
variable (keccak256 : Bytes → Bytes32)

def checksumRecoveryKitV1 (kit : RecoveryKitV1) : Text :=
  hex32 (keccak256 (Utf8.encode (canonicalJson kit)))

/-- **`validateRecoveryKitV1`** of the app. -/
def validateRecoveryKitV1 : Value → Throws RecoveryKitV1
  | .object members => do
    let member := fun name : String => Json.lookup members name.toList
    ensure (¬(Json.keys members).any isForbiddenField = true)
      "Recovery kit must not contain public wallet-linked discovery tags."
    ensure (member "recoveryKitSchemaHash").isSome "Recovery kit schema hash is required."
    ensure (textMember members "recoveryKitSchemaHash" = some recoveryKitV1SchemaHash)
      "Recovery kit schema hash mismatch."
    ensure ((Json.keys members).isPerm expectedKeys = true)
      "Recovery kit has unsupported or missing fields."
    ensure (textMember members "domain" = some recoveryKitV1Domain ∧
      naturalMember members "version" = some 1) "Unsupported recovery kit version."
    ensure (textMember members "checksumAlgorithm" = some recoveryKitV1ChecksumAlgorithm)
      "Unsupported recovery kit checksum algorithm."
    let chainId ← requireChainId (naturalMember members "chainId")
    let poolAddress ← requirePoolAddress (member "poolAddress")
    let runtimeId ← requireText (member "runtimeId") "Recovery kit runtime ID is required."
    ensure (textMember members "noteVersion" = some spendMaterialVersion)
      "Unsupported recovery kit note version."
    let amount ← requireAmount (member "amount")
    let assetId ← requireBytes32 (member "assetId") "Recovery kit asset ID"
    let ownerCommitment ← requireBytes32 (member "ownerCommitment") "Recovery kit owner commitment"
    let noteSecret ← requireBytes32 (member "noteSecret") "Recovery kit note secret"
    let blinding ← requireBytes32 (member "blinding") "Recovery kit blinding"
    let commitment ← requireBytes32 (member "commitment") "Recovery kit commitment"
    let txHashHint ← requireBytes32 (member "txHashHint") "Recovery kit transaction hash hint"
    let blockNumberHint ← requireBlockNumberHint (member "blockNumberHint")
    let leafIndexHint ← requireNatural (naturalMember members "leafIndexHint")
      "Recovery kit leaf index hint must be a non-negative safe integer."
    let createdAt ← requireText (member "createdAt") "Recovery kit creation time is required."
    let checksum ← requireBytes32 (member "checksum") "Recovery kit checksum"
    let kit : RecoveryKitV1 := {
      chainId, poolAddress := .string poolAddress, runtimeId, amount, assetId, ownerCommitment
      noteSecret, blinding, commitment, txHashHint, blockNumberHint, leafIndexHint, createdAt
      checksum }
    ensure (lower checksum = lower (checksumRecoveryKitV1 keccak256 kit))
      "Recovery kit checksum mismatch."
    return kit
  | .null => .error "TypeError"
  | _ => .error "Recovery kit schema hash is required."

/-! ### Writing the kit of a record -/

/-- The kit of a record, with its checksum. A leaf index that is not known becomes zero. -/
def kitOfRecord (record : SandboxSpendMaterialNoteRecord) (runtimeId : Text) : RecoveryKitV1 :=
  let unsigned : RecoveryKitV1 := {
    chainId := record.chainId, poolAddress := .string record.pool, runtimeId
    amount := record.noteAmountWei, assetId := record.assetId
    ownerCommitment := record.ownerCommitment, noteSecret := record.noteSecret
    blinding := record.blinding, commitment := record.commitment
    txHashHint := record.depositTxHash, blockNumberHint := record.depositBlockNumber
    leafIndexHint := record.leafIndex.getD 0, createdAt := record.createdAt, checksum := [] }
  { unsigned with checksum := checksumRecoveryKitV1 keccak256 unsigned }

/-- **`createRecoveryKitV1FromNoteRecord`**. -/
def createRecoveryKitV1FromNoteRecord (record : SandboxSpendMaterialNoteRecord)
    (runtimeId : Text) : Throws KitObject := do
  ensure (record.commitmentDerivedFromSpendMaterial = true)
    "Recovery kit note commitment must be derived from spend material."
  return {
    kit := kitOfRecord keccak256 record runtimeId
    members := kitDocs (kitOfRecord keccak256 record runtimeId)
    perm := List.Perm.refl _, address := rfl }

/-- **`serializeRecoveryKitV1`** of the app. -/
def serializeRecoveryKitV1 (o : KitObject) : Throws Text := do
  let _ ← validateRecoveryKitV1 keccak256 o.doc.value
  return print 2 0 o.doc

/-! ### The record of a kit -/

/-- `SandboxSpendMaterialNoteRecordExpectedDeployment`. -/
inductive ExpectedDeployment
  | deployment (d : NoteRecordDeployment)
  | pool (address : Text)
  deriving DecidableEq, Repr

/-- `Partial<SandboxSpendMaterialNoteRecordDeployment> & { pool }`. -/
structure ResolvedDeployment where
  chainId : Option ℕ
  rpcUrl : Option Text
  pool : Text
  deriving DecidableEq, Repr

/-- The deployment of a pool that is named by its address alone. -/
def resolveExpectedPool (expectedPool : Text) : Throws ResolvedDeployment := do
  ensure (isEvmAddress expectedPool) "Expected shielded pool to be an EVM address."
  ensure (lower expectedPool ≠ lower legacyMainnetShieldedPoolDepth20Address)
    "Legacy MegaETH mainnet ShieldedPoolDepth20 address is not a supported NullarkPool binding."
  match knownNoteRecordDeploymentForPool expectedPool with
  | some known => return { chainId := known.chainId, rpcUrl := known.rpcUrl, pool := known.pool }
  | none => return { chainId := none, rpcUrl := none, pool := expectedPool }

def resolveExpectedNoteRecordDeployment (expected : Option ExpectedDeployment)
    (recordPool : Text) : Throws ResolvedDeployment :=
  match expected with
  | some (.deployment d) => do
    ensure (isSupportedMegaEthChainId d.chainId)
      "Expected note record chain ID to be MegaETH mainnet or testnet."
    ensure (trim d.rpcUrl ≠ []) "Expected note record RPC URL."
    ensure (isEvmAddress d.pool) "Expected shielded pool to be an EVM address."
    ensure (lower d.pool ≠ lower legacyMainnetShieldedPoolDepth20Address)
      "Legacy MegaETH mainnet ShieldedPoolDepth20 address is not a supported NullarkPool binding."
    return { chainId := d.chainId, rpcUrl := d.rpcUrl, pool := d.pool }
  | some (.pool address) => resolveExpectedPool address
  | none => resolveExpectedPool recordPool

/-- The record of a kit for a deployment. -/
def recordInputOfKit (kit : RecoveryKitV1) (rpcUrl pool : Text) : NoteRecordInput where
  commitment := kit.commitment
  noteAmountWei := kit.amount
  ownerCommitment := kit.ownerCommitment
  noteSecret := kit.noteSecret
  blinding := kit.blinding
  depositTxHash := kit.txHashHint
  depositBlockNumber := kit.blockNumberHint
  currentRootAfter := none
  createdAt := kit.createdAt
  assetId := kit.assetId
  leafIndex := some kit.leafIndexHint
  recoveryRoute := .recoveryKit
  spendStatus := some {
    route := .recoveryKit, commitment := kit.commitment, leafIndex := some kit.leafIndexHint
    spent := none }
  commitmentDerivationStatus := .poseidonDerived
  commitmentDerivedFromSpendMaterial := true
  chainId := some kit.chainId
  rpcUrl := some rpcUrl
  pool := pool

/-- What `parseRecoveryKitV1ToNoteRecord` does with the value it has read. -/
def noteRecordOfKit (value : Value) (expectedDeployment : Option ExpectedDeployment) :
    Throws SandboxSpendMaterialNoteRecord := do
  let kit ← validateRecoveryKitV1 keccak256 value
  let poolAddress ← textOf kit.poolAddress
  let expected ← resolveExpectedNoteRecordDeployment expectedDeployment poolAddress
  ensure (∀ chainId ∈ expected.chainId, kit.chainId = chainId)
    "Recovery kit is not for expected MegaETH chain."
  ensure (lower expected.pool = lower poolAddress) "Recovery kit is not for this shielded pool."
  match expected.rpcUrl with
  | none => .error "Recovery kit import requires expected runtime RPC metadata."
  | some rpcUrl => createSandboxSpendMaterialNoteRecord (recordInputOfKit kit rpcUrl expected.pool)

/-- **`parseRecoveryKitV1ToNoteRecord`**. -/
def parseRecoveryKitV1ToNoteRecord (text : Text)
    (expectedDeployment : Option ExpectedDeployment) : Throws SandboxSpendMaterialNoteRecord :=
  match Json.parse text with
  | none => .error "Expected recovery kit JSON."
  | some value => noteRecordOfKit keccak256 value expectedDeployment

end Code

/-! ### The kits the app accepts -/

theorem requireChainId_eq_ok {value : Option ℕ} {n : ℕ} :
    requireChainId value = .ok n ↔ value = some n ∧ isSupportedMegaEthChainId n := by
  cases value with
  | none => exact ⟨fun h => (nomatch h), fun h => (nomatch h.1)⟩
  | some m =>
    unfold requireChainId
    dsimp only
    rw [ite_error_eq_ok, Option.some.injEq]
    exact ⟨fun ⟨h, heq⟩ => ⟨heq, heq ▸ h⟩, fun ⟨heq, h⟩ => ⟨heq ▸ h, heq⟩⟩

theorem requirePoolAddress_eq_ok {value : Option Value} {t : Text} :
    requirePoolAddress value = .ok t ↔ value = some (.string t) ∧ isEvmAddress t := by
  unfold requirePoolAddress
  split
  · rename_i s
    rw [ite_error_eq_ok, Option.some.injEq, Value.string.injEq]
    exact ⟨fun ⟨h, heq⟩ => ⟨heq, heq ▸ h⟩, fun ⟨heq, h⟩ => ⟨heq ▸ h, heq⟩⟩
  · rename_i hne
    exact ⟨fun h => (nomatch h), fun h => absurd h.1 (hne t)⟩

theorem requireAmount_eq_ok {value : Option Value} {t : Text} : requireAmount value = .ok t ↔
    value = some (.string t) ∧ Decimal.isDecimal t ∧ 1 ≤ Decimal.value t :=
  Sdk.RecoveryKit.requireAmount_eq_ok

theorem not_forbidden_of_perm {names : List Text} (h : names.Perm expectedKeys) :
    ¬names.any isForbiddenField = true := by
  have hallowed : ∀ name ∈ expectedKeys, isForbiddenField name = false := by decide +kernel
  intro hany
  obtain ⟨name, hname, hforbidden⟩ := List.any_eq_true.mp hany
  rw [hallowed name (h.mem_iff.mp hname)] at hforbidden
  cases hforbidden

theorem checksumRecoveryKitV1_eq (keccak256 : Bytes → Bytes32) (kit : RecoveryKitV1) :
    checksumRecoveryKitV1 keccak256 kit = checksumRecoveryKit keccak256 kit := rfl

/-- **The kits the app accepts**: the address of the pool is a text, and the chain is known. -/
theorem validateRecoveryKitV1_eq_ok {keccak256 : Bytes → Bytes32} {value : Value}
    {kit : RecoveryKitV1} : validateRecoveryKitV1 keccak256 value = .ok kit ↔
      ∃ members, value = .object members ∧ Reads members kit ∧ KitFits kit ∧
        Summed keccak256 kit ∧ isSupportedMegaEthChainId kit.chainId ∧
        ∃ t, kit.poolAddress = .string t := by
  constructor
  · intro h
    unfold validateRecoveryKitV1 at h
    split at h
    · rename_i members
      simp only [bind_eq_ok, ensure_eq_ok, exists_const, pure_eq_ok, textMember_eq_some,
        requireNatural_eq_ok, naturalMember_eq_some, requireChainId_eq_ok, requirePoolAddress_eq_ok,
        requireText_eq_ok, requireAmount_eq_ok, requireBytes32_eq_ok, requireBlockNumberHint_eq_ok,
        List.isPerm_iff] at h
      obtain ⟨-, -, hschema, hkeys, ⟨hdomain, hversion, -⟩, halgorithm, chainId, ⟨hchain, hsupported⟩,
        pool, hpool, runtimeId, hruntime, hnote, amount, hamount, assetId, hasset, owner, howner,
        secret, hsecret, blinding, hblinding, commitment, hcommitment, tx, htx, block, hblock, leaf,
        hleaf, createdAt, hcreated, checksum, hchecksum, hsum, rfl⟩ := h
      rw [checksumRecoveryKitV1_eq] at hsum
      have hpos : 0 < chainId := by
        rcases hsupported with rfl | rfl <;> decide
      refine ⟨members, rfl, ⟨hkeys, ?_⟩, ⟨⟨hpos, hchain.2⟩, ⟨pool, rfl, hpool.2⟩, hruntime.2,
        hamount.2, hasset.2, howner.2, hsecret.2, hblinding.2, hcommitment.2, htx.2, hblock.2,
        hleaf.2, hcreated.2⟩, ⟨hchecksum.2, hsum⟩, hsupported, pool, rfl⟩
      simp only [kitMembers, List.forall_mem_cons]
      exact ⟨hdomain, hversion, hschema, halgorithm, hchain.1, hpool.1, hruntime.1, hnote,
        hamount.1, hasset.1, howner.1, hsecret.1, hblinding.1, hcommitment.1, htx.1, hblock.1,
        hleaf.1, hcreated.1, hchecksum.1, fun _ hm => absurd hm List.not_mem_nil⟩
    · cases h
    · cases h
  · rintro ⟨members, rfl, ⟨hkeys, hlookup⟩, hfits, hsum, hsupported, pool, hstring⟩
    obtain ⟨t, ht, haddress⟩ := hfits.poolAddress
    rw [hstring] at ht
    obtain rfl : pool = t := Option.some.inj ht
    have hkit : ({ kit with poolAddress := .string pool } : RecoveryKitV1) = kit := by rw [← hstring]
    simp only [kitMembers, List.forall_mem_cons, hstring] at hlookup
    obtain ⟨hdomain, hversion, hschema, halgorithm, hchain, hpool, hruntime, hnote, hamount, hasset,
      howner, hsecret, hblinding, hcommitment, htx, hblock, hleaf, hcreated, hchecksum, -⟩ := hlookup
    unfold validateRecoveryKitV1
    simp only [bind_eq_ok, ensure_eq_ok, exists_const, pure_eq_ok, textMember_eq_some,
      requireNatural_eq_ok, naturalMember_eq_some, requireChainId_eq_ok, requirePoolAddress_eq_ok,
      requireText_eq_ok, requireAmount_eq_ok, requireBytes32_eq_ok, requireBlockNumberHint_eq_ok,
      List.isPerm_iff]
    exact ⟨not_forbidden_of_perm hkeys, by rw [hschema]; rfl, hschema, hkeys,
      ⟨hdomain, hversion, by decide⟩, halgorithm, _, ⟨⟨hchain, hfits.chainId.2⟩, hsupported⟩,
      _, ⟨hpool, haddress⟩, _, ⟨hruntime, hfits.runtimeId⟩, hnote,
      _, ⟨hamount, hfits.amount⟩, _, ⟨hasset, hfits.assetId⟩, _, ⟨howner, hfits.ownerCommitment⟩,
      _, ⟨hsecret, hfits.noteSecret⟩, _, ⟨hblinding, hfits.blinding⟩,
      _, ⟨hcommitment, hfits.commitment⟩, _, ⟨htx, hfits.txHashHint⟩,
      _, ⟨hblock, hfits.blockNumberHint⟩, _, ⟨hleaf, hfits.leafIndexHint⟩,
      _, ⟨hcreated, hfits.createdAt⟩, _, ⟨hchecksum, hsum.1⟩, by
        rw [checksumRecoveryKitV1_eq, hkit]
        exact hsum.2, hkit⟩

/-! ### The kit of a record -/

theorem isHexBytes32_of_isHexString {t : Text} (h : isHexString t ∧ t.length = 66) :
    isHexBytes32 t := by
  obtain ⟨hhex, hlength⟩ := h
  unfold isHexString at hhex
  split at hhex
  · exact ⟨by simpa using hlength, hhex.2⟩
  · exact absurd hhex id

section Exported
variable {keccak256 : Bytes → Bytes32} {o : KitObject} {text : Text}

theorem validateRecoveryKitV1_doc {kit : RecoveryKitV1} :
    validateRecoveryKitV1 keccak256 o.doc.value = .ok kit ↔
      kit = o.kit ∧ KitFits o.kit ∧ Summed keccak256 o.kit ∧
        isSupportedMegaEthChainId o.kit.chainId ∧ ∃ t, o.kit.poolAddress = .string t := by
  rw [validateRecoveryKitV1_eq_ok, KitObject.doc, Doc.value]
  constructor
  · rintro ⟨members, heq, hreads, hkit⟩
    obtain rfl := Value.object.inj heq
    obtain rfl := reads_unique hreads o.reads
    exact ⟨rfl, hkit⟩
  · rintro ⟨rfl, hkit⟩
    exact ⟨_, rfl, o.reads, hkit⟩

theorem serializeRecoveryKitV1_eq_ok : serializeRecoveryKitV1 keccak256 o = .ok text ↔
    (∃ kit, validateRecoveryKitV1 keccak256 o.doc.value = .ok kit) ∧ text = print 2 0 o.doc := by
  unfold serializeRecoveryKitV1
  simp only [bind_eq_ok, pure_eq_ok]
  constructor
  · rintro ⟨kit, hkit, rfl⟩
    exact ⟨⟨kit, hkit⟩, rfl⟩
  · rintro ⟨⟨kit, hkit⟩, rfl⟩
    exact ⟨kit, hkit, rfl⟩

variable {r : SandboxSpendMaterialNoteRecord} {runtimeId : Text}

/-- **The kit of a record** is one the app accepts, if the runtime has a name. -/
theorem kitFits_kitOfRecord (h : RecordFits r) :
    KitFits (kitOfRecord keccak256 r runtimeId) ↔ runtimeId ≠ [] := by
  refine ⟨fun hfits => hfits.runtimeId, fun hid => ?_⟩
  have hchain : 0 < r.chainId ∧ r.chainId < 2 ^ 53 := by
    rcases h.supported.chainId with hchain | hchain <;> dsimp only at hchain <;> omega
  have hleaf : r.leafIndex.getD 0 < 2 ^ 53 := by
    cases hr : r.leafIndex with
    | none => decide
    | some n =>
      have hn : n ≤ 2 ^ 53 - 1 := h.leafIndex n hr
      rw [Option.getD_some]
      omega
  exact {
    chainId := hchain, poolAddress := ⟨_, rfl, h.pool⟩, runtimeId := hid
    amount := ⟨h.noteAmountWei.1, h.noteAmountWei.2.1⟩, assetId := h.assetId.1
    ownerCommitment := h.ownerCommitment.1, noteSecret := h.noteSecret.1, blinding := h.blinding.1
    commitment := h.commitment.1, txHashHint := isHexBytes32_of_isHexString h.depositTxHash
    blockNumberHint := h.depositBlockNumber, leafIndexHint := hleaf, createdAt := h.createdAt }

theorem summed_kitOfRecord : Summed keccak256 (kitOfRecord keccak256 r runtimeId) :=
  ⟨isHexBytes32_hex32 _, rfl⟩

theorem validateRecoveryKitV1_kitOfRecord (h : RecordFits r)
    (hkit : o.kit = kitOfRecord keccak256 r runtimeId) (hid : runtimeId ≠ []) :
    validateRecoveryKitV1 keccak256 o.doc.value = .ok o.kit := by
  rw [validateRecoveryKitV1_doc, hkit]
  exact ⟨rfl, (kitFits_kitOfRecord h).mpr hid, summed_kitOfRecord, h.supported.chainId, r.pool, rfl⟩

/-- The record of the kit of a record. -/
def importedRecord (r : SandboxSpendMaterialNoteRecord) : SandboxSpendMaterialNoteRecord where
  chainId := r.chainId
  rpcUrl := r.rpcUrl
  pool := r.pool
  assetId := r.assetId
  noteAmountWei := r.noteAmountWei
  ownerCommitment := r.ownerCommitment
  noteSecret := r.noteSecret
  blinding := r.blinding
  commitment := r.commitment
  commitmentDerivationStatus := .poseidonDerived
  commitmentDerivedFromSpendMaterial := true
  leafIndex := some (r.leafIndex.getD 0)
  merklePath := { root := none, siblings := [], pathIndices := [], status := .notFetched }
  depositTxHash := r.depositTxHash
  depositBlockNumber := r.depositBlockNumber
  currentRootAfter := none
  createdAt := r.createdAt
  recoveryRoute := .recoveryKit
  spendStatus := {
    route := .recoveryKit, commitment := r.commitment, leafIndex := some (r.leafIndex.getD 0)
    spent := none }
  status := .deposited
  proofGenerationStatus := .notWired

/-- The deployment of a record is one that may be expected. -/
theorem resolveExpectedNoteRecordDeployment_of_fits (h : RecordFits r) (recordPool : Text) :
    resolveExpectedNoteRecordDeployment (some (.deployment ⟨r.chainId, r.rpcUrl, r.pool⟩))
      recordPool = .ok ⟨some r.chainId, some r.rpcUrl, r.pool⟩ := by
  unfold resolveExpectedNoteRecordDeployment
  simp only [bind_eq_ok, ensure_eq_ok, exists_const, pure_eq_ok]
  exact ⟨h.supported.chainId, h.supported.rpcUrl, h.pool, h.supported.notLegacy, trivial⟩

/-- What comes back of a record can be kept. -/
theorem fits_importedRecord (h : RecordFits r) : RecordFits (importedRecord r) where
  pool := h.pool
  supported := h.supported
  assetId := h.assetId
  commitment := h.commitment
  ownerCommitment := h.ownerCommitment
  noteSecret := h.noteSecret
  blinding := h.blinding
  noteAmountWei := h.noteAmountWei
  depositTxHash := h.depositTxHash
  depositBlockNumber := h.depositBlockNumber
  currentRootAfter _ ht := nomatch ht
  createdAt := h.createdAt
  leafIndex n hn := by
    obtain rfl : r.leafIndex.getD 0 = n := Option.some.inj hn
    cases hr : r.leafIndex with
    | none => exact Nat.zero_le _
    | some m => exact h.leafIndex m hr
  root _ ht := nomatch ht
  siblings _ hs := absurd hs List.not_mem_nil
  pathIndices _ hp := absurd hp List.not_mem_nil
  lengths := rfl
  derived := rfl
  spendStatus := ⟨rfl, rfl, rfl⟩

/-- **What comes back** of a record: the leaf index is zero if it was not known. -/
theorem noteRecordOfKit_doc (h : RecordFits r) (hkit : o.kit = kitOfRecord keccak256 r runtimeId)
    (hid : runtimeId ≠ []) : noteRecordOfKit keccak256 o.doc.value
      (some (.deployment ⟨r.chainId, r.rpcUrl, r.pool⟩)) = .ok (importedRecord r) := by
  have hvalid : validateRecoveryKitV1 keccak256 o.doc.value =
      .ok (kitOfRecord keccak256 r runtimeId) := by
    rw [validateRecoveryKitV1_kitOfRecord h hkit hid, hkit]
  have hcreated : createSandboxSpendMaterialNoteRecord
      (recordInputOfKit (kitOfRecord keccak256 r runtimeId) r.rpcUrl r.pool) =
        .ok (importedRecord r) :=
    createSandboxSpendMaterialNoteRecord_eq_ok.mpr ⟨fits_importedRecord h, rfl⟩
  unfold noteRecordOfKit
  simp only [bind_eq_ok, ensure_eq_ok, exists_const]
  exact ⟨_, hvalid, r.pool, rfl, _, resolveExpectedNoteRecordDeployment_of_fits h r.pool,
    fun chainId hchain => Option.some.inj hchain, rfl, hcreated⟩

end Exported

/-- A record is the same note as another, as far as a kit can tell. -/
structure SameNote (r r' : SandboxSpendMaterialNoteRecord) : Prop where
  commitment : r'.commitment = r.commitment
  noteAmountWei : r'.noteAmountWei = r.noteAmountWei
  assetId : r'.assetId = r.assetId
  ownerCommitment : r'.ownerCommitment = r.ownerCommitment
  noteSecret : r'.noteSecret = r.noteSecret
  blinding : r'.blinding = r.blinding
  depositTxHash : r'.depositTxHash = r.depositTxHash
  depositBlockNumber : r'.depositBlockNumber = r.depositBlockNumber
  chainId : r'.chainId = r.chainId
  pool : r'.pool = r.pool
  leafIndex : r'.leafIndex = r.leafIndex

/-- What a record gives when its kit is made, printed and read for the same deployment. -/
theorem exported_eq {keccak256 : Bytes → Bytes32} {r : SandboxSpendMaterialNoteRecord}
    {runtimeId : Text} (h : RecordFits r) (hderived : r.commitmentDerivedFromSpendMaterial = true) :
    ∃ o, createRecoveryKitV1FromNoteRecord keccak256 r runtimeId = .ok o ∧
      ((∃ text, serializeRecoveryKitV1 keccak256 o = .ok text) ↔ runtimeId ≠ []) ∧
      ∀ text, serializeRecoveryKitV1 keccak256 o = .ok text →
        parseRecoveryKitV1ToNoteRecord keccak256 text
          (some (.deployment ⟨r.chainId, r.rpcUrl, r.pool⟩)) = .ok (importedRecord r) := by
  obtain ⟨o, ho, hkit⟩ : ∃ o, createRecoveryKitV1FromNoteRecord keccak256 r runtimeId = .ok o ∧
      o.kit = kitOfRecord keccak256 r runtimeId := by
    unfold createRecoveryKitV1FromNoteRecord
    simp only [bind_eq_ok, ensure_eq_ok, exists_const, pure_eq_ok]
    exact ⟨_, ⟨hderived, rfl⟩, rfl⟩
  have hprinted : ∀ text, serializeRecoveryKitV1 keccak256 o = .ok text →
      runtimeId ≠ [] ∧ KitFits o.kit ∧ text = print 2 0 o.doc := by
    intro text htext
    obtain ⟨⟨kit, hvalid⟩, heq⟩ := serializeRecoveryKitV1_eq_ok.mp htext
    obtain ⟨-, hfits, -⟩ := validateRecoveryKitV1_doc.mp hvalid
    exact ⟨(kitFits_kitOfRecord h).mp (hkit ▸ hfits), hfits, heq⟩
  refine ⟨o, ho, ⟨fun ⟨text, htext⟩ => (hprinted text htext).1, fun hid => ?_⟩, fun text htext => ?_⟩
  · have hvalid := validateRecoveryKitV1_kitOfRecord h hkit hid
    exact ⟨_, serializeRecoveryKitV1_eq_ok.mpr ⟨⟨_, hvalid⟩, rfl⟩⟩
  · obtain ⟨hid, hfits, rfl⟩ := hprinted text htext
    rw [parseRecoveryKitV1ToNoteRecord, parse_print 2 (KitObject.exact hfits)]
    exact noteRecordOfKit_doc h hkit hid

theorem sameNote_importedRecord {r : SandboxSpendMaterialNoteRecord} :
    SameNote r (importedRecord r) ↔ r.leafIndex ≠ none := by
  constructor
  · intro h hnone
    have hleaf : some (r.leafIndex.getD 0) = r.leafIndex := h.leafIndex
    rw [hnone] at hleaf
    cases hleaf
  · intro hleaf
    obtain ⟨n, hn⟩ := Option.ne_none_iff_exists'.mp hleaf
    refine ⟨rfl, rfl, rfl, rfl, rfl, rfl, rfl, rfl, rfl, rfl, ?_⟩
    have hknown : some (r.leafIndex.getD 0) = r.leafIndex := by rw [hn, Option.getD_some]
    exact hknown

/-- **A record comes back as it was** exactly if its leaf index is known and the runtime has a
name. -/
theorem exported_iff (keccak256 : Bytes → Bytes32) (r : SandboxSpendMaterialNoteRecord)
    (runtimeId : Text) (hr : IsRecord r) (hderived : r.commitmentDerivedFromSpendMaterial = true) :
    (∃ o text r', createRecoveryKitV1FromNoteRecord keccak256 r runtimeId = .ok o ∧
      serializeRecoveryKitV1 keccak256 o = .ok text ∧
      parseRecoveryKitV1ToNoteRecord keccak256 text
        (some (.deployment ⟨r.chainId, r.rpcUrl, r.pool⟩)) = .ok r' ∧ SameNote r r') ↔
      r.leafIndex ≠ none ∧ runtimeId ≠ [] := by
  obtain ⟨o, ho, hprinted, hread⟩ :=
    @exported_eq keccak256 r runtimeId hr.fits hderived
  constructor
  · rintro ⟨o', text, r', ho', htext, hparse, hsame⟩
    obtain rfl := Except.ok.inj (ho.symm.trans ho')
    obtain rfl := Except.ok.inj ((hread text htext).symm.trans hparse)
    exact ⟨sameNote_importedRecord.mp hsame, hprinted.mp ⟨text, htext⟩⟩
  · rintro ⟨hleaf, hid⟩
    obtain ⟨text, htext⟩ := hprinted.mpr hid
    exact ⟨o, text, _, ho, htext, hread text htext, sameNote_importedRecord.mpr hleaf⟩

theorem exported_iff_sample : ∃ o text r',
    createRecoveryKitV1FromNoteRecord Lib.Keccak.keccak256 (sampleRecord 7 (some 7)) ['1'] = .ok o ∧
    serializeRecoveryKitV1 Lib.Keccak.keccak256 o = .ok text ∧
    parseRecoveryKitV1ToNoteRecord Lib.Keccak.keccak256 text
      (some (.deployment ⟨6343, megaEthTestnetRpcUrl, shieldedPoolAddress⟩)) = .ok r' ∧
    SameNote (sampleRecord 7 (some 7)) r' :=
  (exported_iff Lib.Keccak.keccak256 (sampleRecord 7 (some 7)) ['1'] (isRecord_sampleRecord
    (by decide +kernel) (by decide)) rfl).mpr ⟨Option.some_ne_none _, List.cons_ne_nil _ _⟩

/-- A note whose leaf index is not known comes back with the index of another leaf. -/
theorem unknown_leaf_becomes_zero : IsRecord (sampleRecord 7 none) ∧
    (sampleRecord 7 none).leafIndex = none ∧ ∃ o text r',
      createRecoveryKitV1FromNoteRecord Lib.Keccak.keccak256 (sampleRecord 7 none) ['1'] = .ok o ∧
      serializeRecoveryKitV1 Lib.Keccak.keccak256 o = .ok text ∧
      parseRecoveryKitV1ToNoteRecord Lib.Keccak.keccak256 text
        (some (.deployment ⟨6343, megaEthTestnetRpcUrl, shieldedPoolAddress⟩)) = .ok r' ∧
      r'.leafIndex = some 0 := by
  have hfield : isBn254FieldElement (hex32 7) := by decide +kernel
  have hnone : ∀ n ∈ (none : Option ℕ), n ≤ maxSafeInteger := fun _ hn => nomatch hn
  obtain ⟨o, ho, hprinted, hread⟩ := @exported_eq Lib.Keccak.keccak256 _ ['1']
    (fits_sampleRecord hfield hnone) rfl
  obtain ⟨text, htext⟩ := hprinted.mpr (List.cons_ne_nil _ _)
  exact ⟨isRecord_sampleRecord hfield hnone, rfl, o, text, _, ho, htext, hread text htext, rfl⟩

end Nullark.Web.RecoveryKits
