import Nullark.Sdk.RecoveryKit
import Nullark.Web.WalletNotes

/-! # Note records of the web app

A note record holds everything the app needs to spend a note. `createSandboxSpendMaterialNoteRecord`
checks it field by field; the fields that may be left out have defaults.

* `createSandboxSpendMaterialNoteRecord_eq_ok`: the records that are made. -/

namespace Nullark.Web.NoteRecords

open Nullark.Lib Nullark.Lib.Outcome
open Nullark.Lib.Hex hiding value Digits ofNat
open Nullark.Core.Proofs (maxSafeInteger)
open Nullark.Evm.Basic Nullark.Pool.Interface
open Nullark.Js.Basic Nullark.Js.Bytes Nullark.Js.Numbers Nullark.Js.SpendMaterial
open Nullark.Web.Poseidon Nullark.Web.NoteRecovery
open Nullark.Web.WalletNotes (shieldedPoolAddress legacyMainnetShieldedPoolDepth20Address
  megaEthTestnetRpcUrl NoteRecordDeployment Supported)
open Nullark.Sdk.RecoveryKit (isBlockQuantity)

/-! ### Records -/

inductive CommitmentDerivationStatus
  | manual
  | poseidonDerived
  deriving DecidableEq, Repr

inductive MerklePathStatus
  | notFetched
  | reconstructed
  deriving DecidableEq, Repr

inductive NoteStatus
  | deposited
  | withMerklePath
  | withProof
  deriving DecidableEq, Repr

inductive ProofGenerationStatus
  | notWired
  | localUntrusted
  | browser
  deriving DecidableEq, Repr

inductive SandboxRecoveryRoute
  | localNote
  | walletRecovery
  | recoveryKit
  deriving DecidableEq, Repr

structure SandboxSpendStatus where
  route : SandboxRecoveryRoute
  commitment : Text
  leafIndex : Option ℕ
  spent : Option Bool
  deriving DecidableEq, Repr

structure NoteMerklePath where
  root : Option Text
  siblings : List Text
  pathIndices : List ℕ
  status : MerklePathStatus
  deriving DecidableEq, Repr

/-- **`SandboxSpendMaterialNoteRecord`**, without its version and its warning, which are the same in
every record. -/
structure SandboxSpendMaterialNoteRecord where
  chainId : ℕ
  rpcUrl : Text
  pool : Text
  assetId : Text
  noteAmountWei : Text
  ownerCommitment : Text
  noteSecret : Text
  blinding : Text
  commitment : Text
  commitmentDerivationStatus : CommitmentDerivationStatus
  commitmentDerivedFromSpendMaterial : Bool
  leafIndex : Option ℕ
  merklePath : NoteMerklePath
  depositTxHash : Text
  depositBlockNumber : Option Text
  currentRootAfter : Option Text
  createdAt : Text
  recoveryRoute : SandboxRecoveryRoute
  spendStatus : SandboxSpendStatus
  status : NoteStatus
  proofGenerationStatus : ProofGenerationStatus
  deriving DecidableEq, Repr

/-! ### Deployments -/

def knownNoteRecordDeploymentForPool (pool : Text) : Option NoteRecordDeployment :=
  if lower pool = lower shieldedPoolAddress then
    some { chainId := 6343, rpcUrl := megaEthTestnetRpcUrl, pool := shieldedPoolAddress }
  else none

def isSupportedMegaEthChainId (chainId : ℕ) : Prop := chainId = 6343 ∨ chainId = 4326

instance (chainId : ℕ) : Decidable (isSupportedMegaEthChainId chainId) :=
  inferInstanceAs (Decidable (_ ∨ _))

/-- **`resolveNoteRecordDeployment`**, with its defaults. -/
def resolveNoteRecordDeployment (chainId : Option ℕ) (rpcUrl : Option Text) (pool : Text) :
    Throws NoteRecordDeployment := do
  ensure (lower pool ≠ lower legacyMainnetShieldedPoolDepth20Address)
    "Legacy MegaETH mainnet ShieldedPoolDepth20 address is not a supported NullarkPool binding."
  let knownDeployment := knownNoteRecordDeploymentForPool pool
  let chainId := chainId.getD ((knownDeployment.map (·.chainId)).getD 6343)
  let rpcUrl := rpcUrl.getD ((knownDeployment.map (·.rpcUrl)).getD megaEthTestnetRpcUrl)
  ensure (isSupportedMegaEthChainId chainId)
    "Expected note record chain ID to be MegaETH mainnet or testnet."
  ensure (trim rpcUrl ≠ []) "Expected note record RPC URL."
  match knownDeployment with
  | some known => do
    ensure (chainId = known.chainId)
      "Note record deployment metadata does not match known shielded pool."
    ensure (rpcUrl = known.rpcUrl)
      "Note record deployment metadata does not match known shielded pool."
    return { known with pool }
  | none => return { chainId, rpcUrl, pool }

/-! ### Making a record -/

/-- `Partial<...["merklePath"]>`. -/
structure PartialMerklePath where
  root : Option Text := none
  siblings : Option (List Text) := none
  pathIndices : Option (List ℕ) := none
  status : Option MerklePathStatus := none
  deriving DecidableEq, Repr

/-- What a record is made from, with the defaults of the fields that may be left out. -/
structure NoteRecordInput where
  commitment : Text
  noteAmountWei : Text
  ownerCommitment : Text
  noteSecret : Text
  blinding : Text
  depositTxHash : Text
  depositBlockNumber : Option Text := none
  currentRootAfter : Option Text
  createdAt : Text
  assetId : Text := nativeEthAssetId
  leafIndex : Option ℕ := none
  merklePath : PartialMerklePath := {}
  recoveryRoute : SandboxRecoveryRoute := .localNote
  spendStatus : Option SandboxSpendStatus := none
  commitmentDerivationStatus : CommitmentDerivationStatus := .manual
  commitmentDerivedFromSpendMaterial : Bool := false
  status : NoteStatus := .deposited
  proofGenerationStatus : ProofGenerationStatus := .notWired
  chainId : Option ℕ := none
  rpcUrl : Option Text := none
  pool : Text := shieldedPoolAddress
  deriving DecidableEq, Repr

def NoteRecordInput.normalizedMerklePath (i : NoteRecordInput) : NoteMerklePath where
  root := i.merklePath.root
  siblings := i.merklePath.siblings.getD []
  pathIndices := i.merklePath.pathIndices.getD []
  status := i.merklePath.status.getD .notFetched

def NoteRecordInput.normalizedSpendStatus (i : NoteRecordInput) : SandboxSpendStatus where
  route := i.recoveryRoute
  commitment := i.commitment
  leafIndex := i.leafIndex
  spent := i.spendStatus.bind (·.spent)

/-- The record of an input for a deployment. -/
def NoteRecordInput.record (i : NoteRecordInput) (deployment : NoteRecordDeployment) :
    SandboxSpendMaterialNoteRecord where
  chainId := deployment.chainId
  rpcUrl := deployment.rpcUrl
  pool := deployment.pool
  assetId := i.assetId
  noteAmountWei := i.noteAmountWei
  ownerCommitment := i.ownerCommitment
  noteSecret := i.noteSecret
  blinding := i.blinding
  commitment := i.commitment
  commitmentDerivationStatus := i.commitmentDerivationStatus
  commitmentDerivedFromSpendMaterial := i.commitmentDerivedFromSpendMaterial
  leafIndex := i.leafIndex
  merklePath := i.normalizedMerklePath
  depositTxHash := i.depositTxHash
  depositBlockNumber := i.depositBlockNumber
  currentRootAfter := i.currentRootAfter
  createdAt := i.createdAt
  recoveryRoute := i.recoveryRoute
  spendStatus := i.normalizedSpendStatus
  status := i.status
  proofGenerationStatus := i.proofGenerationStatus

/-- **`createSandboxSpendMaterialNoteRecord`**. The checks of the statuses and of the route are in
their types. -/
def createSandboxSpendMaterialNoteRecord (i : NoteRecordInput) :
    Throws SandboxSpendMaterialNoteRecord := do
  ensure (isEvmAddress i.pool) "Expected note record pool to be an EVM address."
  let deployment ← resolveNoteRecordDeployment i.chainId i.rpcUrl i.pool
  ensure (isHexBytes32 i.assetId) "Expected note record asset ID to be bytes32 hex."
  ensure (lower i.assetId = nativeEthAssetId)
    "Expected note record asset ID to match the native ETH sandbox pool."
  ensure (isBn254FieldElement i.commitment)
    "Expected note record commitment to be a nonzero BN254 field element."
  ensure (isBn254FieldElement i.ownerCommitment)
    "Expected note record owner commitment to be a nonzero BN254 field element."
  ensure (isBn254FieldElement i.noteSecret)
    "Expected note record secret to be a nonzero BN254 field element."
  ensure (isBn254FieldElement i.blinding)
    "Expected note record blinding to be a nonzero BN254 field element."
  ensure (Decimal.isDecimal i.noteAmountWei ∧ 1 ≤ Decimal.value i.noteAmountWei ∧
      Decimal.value i.noteAmountWei < bn254ScalarField)
    "Expected note record amount wei as a positive decimal integer."
  ensure (isHexString i.depositTxHash ∧ i.depositTxHash.length = 66)
    "Expected note record deposit tx hash to be 32-byte hex."
  ensure (∀ t ∈ i.depositBlockNumber, isBlockQuantity t)
    "Expected note record deposit block number to be a hex block quantity or null."
  ensure (∀ t ∈ i.currentRootAfter, isHexBytes32 t)
    "Expected note record current root to be bytes32 hex."
  ensure (i.createdAt ≠ []) "Expected note record creation time."
  ensure (∀ n ∈ i.leafIndex, n ≤ maxSafeInteger)
    "Expected note record leaf index to be null or a non-negative safe integer."
  ensure (∀ t ∈ i.normalizedMerklePath.root, isHexBytes32 t)
    "Expected note record Merkle path root to be bytes32 hex."
  ensure (∀ sibling ∈ i.normalizedMerklePath.siblings, isHexBytes32 sibling)
    "Expected every Merkle path sibling to be bytes32 hex."
  ensure (∀ pathIndex ∈ i.normalizedMerklePath.pathIndices, pathIndex = 0 ∨ pathIndex = 1)
    "Expected every Merkle path index to be 0 or 1."
  ensure (i.normalizedMerklePath.siblings.length = i.normalizedMerklePath.pathIndices.length)
    "Expected Merkle path siblings and path indices to have the same length."
  ensure (i.commitmentDerivedFromSpendMaterial =
      decide (i.commitmentDerivationStatus = .poseidonDerived))
    "Note record commitment derivation marker does not match its status."
  return i.record deployment

/-! ### The records that are made -/

/-- **What the app keeps a record of.** -/
structure RecordFits (r : SandboxSpendMaterialNoteRecord) : Prop where
  pool : isEvmAddress r.pool
  supported : Supported { chainId := r.chainId, rpcUrl := r.rpcUrl, pool := r.pool }
  assetId : isHexBytes32 r.assetId ∧ lower r.assetId = nativeEthAssetId
  commitment : isBn254FieldElement r.commitment
  ownerCommitment : isBn254FieldElement r.ownerCommitment
  noteSecret : isBn254FieldElement r.noteSecret
  blinding : isBn254FieldElement r.blinding
  noteAmountWei : Decimal.isDecimal r.noteAmountWei ∧ 1 ≤ Decimal.value r.noteAmountWei ∧
    Decimal.value r.noteAmountWei < bn254ScalarField
  depositTxHash : isHexString r.depositTxHash ∧ r.depositTxHash.length = 66
  depositBlockNumber : ∀ t ∈ r.depositBlockNumber, isBlockQuantity t
  currentRootAfter : ∀ t ∈ r.currentRootAfter, isHexBytes32 t
  createdAt : r.createdAt ≠ []
  leafIndex : ∀ n ∈ r.leafIndex, n ≤ maxSafeInteger
  root : ∀ t ∈ r.merklePath.root, isHexBytes32 t
  siblings : ∀ sibling ∈ r.merklePath.siblings, isHexBytes32 sibling
  pathIndices : ∀ pathIndex ∈ r.merklePath.pathIndices, pathIndex = 0 ∨ pathIndex = 1
  lengths : r.merklePath.siblings.length = r.merklePath.pathIndices.length
  derived : r.commitmentDerivedFromSpendMaterial =
    decide (r.commitmentDerivationStatus = .poseidonDerived)
  spendStatus : r.spendStatus.route = r.recoveryRoute ∧ r.spendStatus.commitment = r.commitment ∧
    r.spendStatus.leafIndex = r.leafIndex

/-- The deployment of an input, with the defaults. -/
def NoteRecordInput.deployment (i : NoteRecordInput) : NoteRecordDeployment where
  chainId := i.chainId.getD 6343
  rpcUrl := i.rpcUrl.getD megaEthTestnetRpcUrl
  pool := i.pool

theorem resolveNoteRecordDeployment_eq_ok {chainId : Option ℕ} {rpcUrl : Option Text} {pool : Text}
    {r : NoteRecordDeployment} : resolveNoteRecordDeployment chainId rpcUrl pool = .ok r ↔
      Supported r ∧ r = ⟨chainId.getD 6343, rpcUrl.getD megaEthTestnetRpcUrl, pool⟩ := by
  unfold resolveNoteRecordDeployment knownNoteRecordDeploymentForPool
  by_cases hknown : lower pool = lower shieldedPoolAddress
  · simp only [if_pos hknown, Option.map_some, Option.getD_some, bind_eq_ok, ensure_eq_ok,
      exists_const, pure_eq_ok]
    constructor
    · rintro ⟨h1, h2, h3, h4, h5, rfl⟩
      rw [h4, h5]
      rw [h5] at h3
      exact ⟨⟨h1, Or.inl rfl, h3, fun _ => ⟨rfl, rfl⟩⟩, rfl⟩
    · rintro ⟨⟨h1, h2, h3, h4⟩, rfl⟩
      obtain ⟨h5, h6⟩ := h4 hknown
      dsimp only at h5 h6
      rw [h5, h6]
      rw [h6] at h3
      exact ⟨h1, Or.inl rfl, h3, rfl, rfl, rfl⟩
  · simp only [if_neg hknown, Option.map_none, Option.getD_none, bind_eq_ok, ensure_eq_ok,
      exists_const, pure_eq_ok]
    constructor
    · rintro ⟨h1, h2, h3, rfl⟩
      exact ⟨⟨h1, h2, h3, fun h => absurd h hknown⟩, rfl⟩
    · rintro ⟨⟨h1, h2, h3, -⟩, rfl⟩
      exact ⟨h1, h2, h3, rfl⟩

/-- **The records that are made** fit. -/
theorem createSandboxSpendMaterialNoteRecord_eq_ok {i : NoteRecordInput}
    {r : SandboxSpendMaterialNoteRecord} : createSandboxSpendMaterialNoteRecord i = .ok r ↔
      RecordFits r ∧ r = i.record i.deployment := by
  unfold createSandboxSpendMaterialNoteRecord
  simp only [bind_eq_ok, ensure_eq_ok, exists_const, pure_eq_ok, resolveNoteRecordDeployment_eq_ok]
  constructor
  · rintro ⟨h1, _, ⟨h2, rfl⟩, h3, h4, h5, h6, h7, h8, h9, h10, h11, h12, h13, h14, h15, h16, h17, h18,
      h19, rfl⟩
    exact ⟨⟨h1, h2, ⟨h3, h4⟩, h5, h6, h7, h8, h9, h10, h11, h12, h13, h14, h15, h16, h17, h18, h19,
      rfl, rfl, rfl⟩, rfl⟩
  · rintro ⟨h, rfl⟩
    exact ⟨h.pool, _, ⟨h.supported, rfl⟩, h.assetId.1, h.assetId.2, h.commitment, h.ownerCommitment,
      h.noteSecret, h.blinding, h.noteAmountWei, h.depositTxHash, h.depositBlockNumber,
      h.currentRootAfter, h.createdAt, h.leafIndex, h.root, h.siblings, h.pathIndices, h.lengths,
      h.derived, rfl⟩

/-- **`createSandboxSpendMaterialNoteRecord` returned the record.** -/
def IsRecord (r : SandboxSpendMaterialNoteRecord) : Prop :=
  ∃ i, createSandboxSpendMaterialNoteRecord i = .ok r

theorem IsRecord.fits {r : SandboxSpendMaterialNoteRecord} (h : IsRecord r) : RecordFits r := by
  obtain ⟨i, hi⟩ := h
  exact (createSandboxSpendMaterialNoteRecord_eq_ok.mp hi).1

/-- A note for the pool of the app. -/
def sampleRecordInput (commitment : Bytes32) (leafIndex : Option ℕ) : NoteRecordInput where
  commitment := hex32 commitment
  noteAmountWei := "100".toList
  ownerCommitment := hex32 2
  noteSecret := hex32 3
  blinding := hex32 4
  depositTxHash := hex32 8
  currentRootAfter := none
  createdAt := "2026-05-24T00:00:00.000Z".toList
  leafIndex
  commitmentDerivationStatus := .poseidonDerived
  commitmentDerivedFromSpendMaterial := true

def sampleRecord (commitment : Bytes32) (leafIndex : Option ℕ) : SandboxSpendMaterialNoteRecord :=
  (sampleRecordInput commitment leafIndex).record (sampleRecordInput commitment leafIndex).deployment

theorem fits_sampleRecord {commitment : Bytes32} {leafIndex : Option ℕ}
    (hfield : isBn254FieldElement (hex32 commitment)) (h : ∀ n ∈ leafIndex, n ≤ maxSafeInteger) :
    RecordFits (sampleRecord commitment leafIndex) where
  pool := (by decide +kernel : isEvmAddress shieldedPoolAddress)
  supported := {
    notLegacy := (by decide +kernel :
      lower shieldedPoolAddress ≠ lower legacyMainnetShieldedPoolDepth20Address)
    chainId := Or.inl rfl
    rpcUrl := (by decide +kernel : trim megaEthTestnetRpcUrl ≠ [])
    known := fun _ => ⟨rfl, rfl⟩ }
  assetId := (by decide +kernel :
    isHexBytes32 nativeEthAssetId ∧ lower nativeEthAssetId = nativeEthAssetId)
  commitment := hfield
  ownerCommitment := (by decide +kernel : isBn254FieldElement (hex32 2))
  noteSecret := (by decide +kernel : isBn254FieldElement (hex32 3))
  blinding := (by decide +kernel : isBn254FieldElement (hex32 4))
  noteAmountWei := (by decide : Decimal.isDecimal "100".toList ∧ 1 ≤ Decimal.value "100".toList ∧
    Decimal.value "100".toList < bn254ScalarField)
  depositTxHash := (by decide +kernel : isHexString (hex32 8) ∧ (hex32 8).length = 66)
  depositBlockNumber _ ht := nomatch ht
  currentRootAfter _ ht := nomatch ht
  createdAt := List.cons_ne_nil _ _
  leafIndex := h
  root _ ht := nomatch ht
  siblings _ hs := absurd hs List.not_mem_nil
  pathIndices _ hp := absurd hp List.not_mem_nil
  lengths := rfl
  derived := rfl
  spendStatus := ⟨rfl, rfl, rfl⟩

theorem isRecord_sampleRecord {commitment : Bytes32} {leafIndex : Option ℕ}
    (hfield : isBn254FieldElement (hex32 commitment)) (h : ∀ n ∈ leafIndex, n ≤ maxSafeInteger) :
    IsRecord (sampleRecord commitment leafIndex) :=
  ⟨_, createSandboxSpendMaterialNoteRecord_eq_ok.mpr ⟨fits_sampleRecord hfield h, rfl⟩⟩

end Nullark.Web.NoteRecords
