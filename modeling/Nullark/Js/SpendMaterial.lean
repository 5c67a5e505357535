import Nullark.Js.TreeHash
import Nullark.Js.Numbers

/-! # Notes of a wallet

What a wallet keeps to spend a note (`SpendMaterialPlaintext`), and the parts both packages compute
from it in the same way: the checks of a note and of a path, the commitment of an output note and
the amounts.

The hash is the one of the Poseidon package, on lists of numbers.

* `assertNoteForPool_eq_ok`, `assertMerklePath_eq_ok`, `deriveOutputNoteCommitment_eq_ok`: what is
  accepted. -/

namespace Nullark.Js.SpendMaterial

open Nullark.Lib Nullark.Lib.Outcome
open Nullark.Lib.Hex hiding value Digits ofNat
open Nullark.Evm.Basic Nullark.Pool.Interface
open Nullark.Js.Basic Nullark.Js.Bytes Nullark.Js.TreeHash Nullark.Js.Numbers

/-- **What a wallet keeps of a note.** -/
structure SpendMaterialPlaintext where
  version : Text
  chainId : ℕ
  pool : Text
  assetId : Text
  noteAmountWei : Text
  ownerCommitment : Text
  noteSecret : Text
  blinding : Text
  commitment : Text
  createdAt : Text
  deriving DecidableEq, Repr

/-- `spend-material-v1`. -/
def spendMaterialVersion : Text := "spend-material-v1".toList

/-- The asset of the pool. -/
def nativeEthAssetId : Text := hex32 1

def uint128Max : ℕ := 2 ^ 128 - 1

/-- The path of a note, as it is fetched or reconstructed. -/
structure RecoveryMerklePathPayload where
  commitment : Text
  leafIndex : ℕ
  root : Text
  pathElements : List Text
  pathIndices : List ℕ
  chainId : ℕ
  pool : Text
  deriving DecidableEq, Repr

structure NoteCommitmentInput where
  assetId : Text
  noteAmountWei : Text
  ownerCommitment : Text
  noteSecret : Text
  deriving DecidableEq, Repr

structure NullifierInput where
  noteSecret : Text
  leafIndex : ℕ
  chainId : ℕ
  verifyingContract : Text
  deriving DecidableEq, Repr

/-- The part of a note its commitment is made of. -/
def SpendMaterialPlaintext.preimage (n : SpendMaterialPlaintext) : NoteCommitmentInput :=
  ⟨n.assetId, n.noteAmountWei, n.ownerCommitment, n.noteSecret⟩

/-! ### Checks -/

def isBn254FieldElement (value : Text) : Prop :=
  isHexBytes32 value ∧ 0 < hexNat value ∧ hexNat value < bn254ScalarField

instance (value : Text) : Decidable (isBn254FieldElement value) :=
  inferInstanceAs (Decidable (_ ∧ _))

def assertZeroAllowedField (value : Text) (fieldName : String) : Throws Unit :=
  ensure (isHexBytes32 value ∧ hexNat value < bn254ScalarField)
    (fieldName ++ " must be a BN254 field element.")

def assertNonZeroField (value : Text) (fieldName : String) : Throws Unit := do
  assertZeroAllowedField value fieldName
  ensure (hexNat value ≠ 0) (fieldName ++ " must be a nonzero BN254 field element.")

def assertNoteForPool (note : SpendMaterialPlaintext) (chainId : ℕ) (pool : Text) :
    Throws Unit := do
  ensure (note.version = spendMaterialVersion) "Recovered note has an unsupported version."
  ensure (note.chainId = chainId) "Recovered note is not for the configured MegaETH network."
  ensure (lower note.pool = lower pool) "Recovered note is not for this shielded pool."
  ensure (lower note.assetId = nativeEthAssetId)
    "Recovered note asset is not the native ETH pool asset."
  ensure (isBn254FieldElement note.commitment)
    "Recovered note commitment must be a nonzero BN254 field element."
  ensure (isBn254FieldElement note.ownerCommitment)
    "Recovered note ownerCommitment must be a nonzero BN254 field element."
  ensure (isBn254FieldElement note.noteSecret)
    "Recovered note noteSecret must be a nonzero BN254 field element."

/-- One round of the loop over the indices of a path. -/
def assertPathIndex (leafIndex : ℕ) (entry : ℕ × ℕ) : Throws Unit := do
  ensure (entry.1 = 0 ∨ entry.1 = 1) "Merkle path indices must be bits."
  ensure (leafIndex / 2 ^ entry.2 % 2 = entry.1) "Merkle path indices do not match the leaf index."

/-- `assertMerklePath`, with the package's check of the root. -/
def assertMerklePath (assertRoot : Text → String → Throws Unit) (path : RecoveryMerklePathPayload)
    (chainId : ℕ) (pool commitment : Text) (treeDepth : ℕ) : Throws Unit := do
  ensure (path.chainId = chainId) "Merkle path is not for the configured MegaETH network."
  ensure (lower path.pool = lower pool) "Merkle path is not for this shielded pool."
  ensure (lower path.commitment = lower commitment)
    "Merkle path commitment does not match the recovered note."
  assertRoot path.root "Merkle path root"
  ensure (0 < treeDepth ∧ treeDepth ≤ 32) "Withdrawal circuit depth must be between 1 and 32."
  ensure (path.leafIndex < 2 ^ treeDepth)
    "Merkle path leaf index must fit the withdrawal circuit depth."
  ensure (path.pathElements.length = treeDepth ∧ path.pathIndices.length = treeDepth)
    "Merkle path must match the withdrawal circuit depth."
  path.pathElements.forM fun element => assertZeroAllowedField element "Merkle path element"
  path.pathIndices.zipIdx.forM (assertPathIndex path.leafIndex)

def parseZeroAllowedDecimalField (value : Text) (fieldName : String) : Throws ℕ := do
  ensure (Decimal.isDecimal value) (fieldName ++ " must be a decimal integer.")
  let parsed := Decimal.value value
  ensure (parsed < bn254ScalarField) (fieldName ++ " must be a BN254 field element.")
  ensure (parsed ≤ uint128Max)
    (fieldName ++ " must fit the withdrawal circuit 128-bit amount bound.")
  return parsed

def parsePositiveDecimalField (value : Text) (fieldName : String) : Throws ℕ := do
  ensure (Decimal.isDecimal value) (fieldName ++ " must be a decimal integer.")
  let parsed := Decimal.value value
  ensure (0 < parsed ∧ parsed < bn254ScalarField)
    (fieldName ++ " must be a positive BN254 field element.")
  ensure (parsed ≤ uint128Max)
    (fieldName ++ " must fit the withdrawal circuit 128-bit amount bound.")
  return parsed

/-- `withdrawalFeeBps`, in the range of the pool. -/
def normalizeFeeBps (value : ℤ) : Throws ℕ := do
  ensure (0 ≤ value ∧ value ≤ 100)
    "withdrawalFeeBps must be a nonnegative safe integer at or below 100 bps."
  return value.toNat

/-- `deriveOutputNoteCommitment` of both packages. -/
def deriveOutputNoteCommitment (hash : FieldHash) (i : NoteCommitmentInput) : Throws Text := do
  let amount ← parseZeroAllowedDecimalField i.noteAmountWei "outputAmountWei"
  ensure (isHexBytes32 i.assetId) "assetId must be bytes32."
  ensure (isHexBytes32 i.ownerCommitment) "ownerCommitment must be bytes32."
  ensure (isHexBytes32 i.noteSecret) "noteSecret must be bytes32."
  return padHex32 (hash [10001, hexNat i.assetId, amount, hexNat i.ownerCommitment,
    hexNat i.noteSecret])

/-! ### What the checks accept -/

theorem assertZeroAllowedField_eq_ok {value : Text} {fieldName : String} {u : Unit} :
    assertZeroAllowedField value fieldName = .ok u ↔
      isHexBytes32 value ∧ hexNat value < bn254ScalarField := ensure_eq_ok

theorem assertNonZeroField_eq_ok {value : Text} {fieldName : String} {u : Unit} :
    assertNonZeroField value fieldName = .ok u ↔ isBn254FieldElement value := by
  unfold assertNonZeroField isBn254FieldElement
  simp only [bind_eq_ok, assertZeroAllowedField_eq_ok, ensure_eq_ok, exists_const]
  constructor
  · rintro ⟨⟨h1, h2⟩, h3⟩
    exact ⟨h1, Nat.pos_of_ne_zero h3, h2⟩
  · rintro ⟨h1, h2, h3⟩
    exact ⟨⟨h1, h3⟩, h2.ne'⟩

theorem isBn254FieldElement_padHex32 {n : ℕ} (hpos : 0 < n) (hlt : n < bn254ScalarField) :
    isBn254FieldElement (padHex32 n) := by
  have hword : n < 2 ^ 256 := hlt.trans (by decide)
  rw [isBn254FieldElement, hexNat_padHex32 hword, padHex32_eq_hex32 hword]
  exact ⟨isHexBytes32_hex32 _, hpos, hlt⟩

theorem isBn254FieldElement_hex32 {x : Bytes32} (hpos : x ≠ 0) (hlt : isFieldElement x) :
    isBn254FieldElement (hex32 x) := by
  rw [← padHex32_toNat]
  exact isBn254FieldElement_padHex32
    (Nat.pos_of_ne_zero fun h => hpos (BitVec.eq_of_toNat_eq h)) hlt

/-- **The note of a pool.** -/
structure NoteForPool (note : SpendMaterialPlaintext) (chainId : ℕ) (pool : Text) : Prop where
  version : note.version = spendMaterialVersion
  chainId : note.chainId = chainId
  pool : lower note.pool = lower pool
  assetId : lower note.assetId = nativeEthAssetId
  commitment : isBn254FieldElement note.commitment
  ownerCommitment : isBn254FieldElement note.ownerCommitment
  noteSecret : isBn254FieldElement note.noteSecret

theorem assertNoteForPool_eq_ok {note : SpendMaterialPlaintext} {chainId : ℕ} {pool : Text}
    {u : Unit} : assertNoteForPool note chainId pool = .ok u ↔ NoteForPool note chainId pool := by
  unfold assertNoteForPool
  simp only [bind_eq_ok, ensure_eq_ok, exists_const]
  constructor
  · rintro ⟨h1, h2, h3, h4, h5, h6, h7⟩
    exact ⟨h1, h2, h3, h4, h5, h6, h7⟩
  · rintro ⟨h1, h2, h3, h4, h5, h6, h7⟩
    exact ⟨h1, h2, h3, h4, h5, h6, h7⟩

/-- **A path of a note**, apart from its root. -/
structure PathFits (path : RecoveryMerklePathPayload) (chainId : ℕ) (pool commitment : Text)
    (treeDepth : ℕ) : Prop where
  chainId : path.chainId = chainId
  pool : lower path.pool = lower pool
  commitment : lower path.commitment = lower commitment
  depth : 0 < treeDepth ∧ treeDepth ≤ 32
  leafIndex : path.leafIndex < 2 ^ treeDepth
  length : path.pathElements.length = treeDepth ∧ path.pathIndices.length = treeDepth
  pathElements : ∀ element ∈ path.pathElements,
    isHexBytes32 element ∧ hexNat element < bn254ScalarField
  pathIndices : ∀ entry ∈ path.pathIndices.zipIdx, path.leafIndex / 2 ^ entry.2 % 2 = entry.1

theorem assertMerklePath_eq_ok {assertRoot : Text → String → Throws Unit}
    {path : RecoveryMerklePathPayload} {chainId : ℕ} {pool commitment : Text} {treeDepth : ℕ}
    {u : Unit} : assertMerklePath assertRoot path chainId pool commitment treeDepth = .ok u ↔
      PathFits path chainId pool commitment treeDepth ∧
        assertRoot path.root "Merkle path root" = .ok () := by
  have hentry : ∀ {entry : ℕ × ℕ}, assertPathIndex path.leafIndex entry = .ok () ↔
      path.leafIndex / 2 ^ entry.2 % 2 = entry.1 := by
    intro entry
    unfold assertPathIndex
    simp only [bind_eq_ok, ensure_eq_ok, exists_const]
    omega
  unfold assertMerklePath
  simp only [bind_eq_ok, ensure_eq_ok, exists_const, forM_eq_ok, assertZeroAllowedField_eq_ok,
    hentry]
  constructor
  · rintro ⟨h1, h2, h3, _, h4, h5, h6, h7, h8, h9⟩
    exact ⟨⟨h1, h2, h3, h5, h6, h7, h8, h9⟩, h4⟩
  · rintro ⟨⟨h1, h2, h3, h5, h6, h7, h8, h9⟩, h4⟩
    exact ⟨h1, h2, h3, _, h4, h5, h6, h7, h8, h9⟩

theorem parseZeroAllowedDecimalField_eq_ok {value : Text} {fieldName : String} {n : ℕ} :
    parseZeroAllowedDecimalField value fieldName = .ok n ↔
      Decimal.isDecimal value ∧ Decimal.value value < 2 ^ 128 ∧ n = Decimal.value value := by
  have hfield : 2 ^ 128 < bn254ScalarField := by decide
  have hmax : uint128Max = 2 ^ 128 - 1 := rfl
  unfold parseZeroAllowedDecimalField
  simp only [bind_eq_ok, ensure_eq_ok, exists_const, pure_eq_ok]
  constructor
  · rintro ⟨h1, -, h3, rfl⟩
    exact ⟨h1, by omega, rfl⟩
  · rintro ⟨h1, h2, rfl⟩
    exact ⟨h1, by omega, by omega, rfl⟩

theorem parsePositiveDecimalField_eq_ok {value : Text} {fieldName : String} {n : ℕ} :
    parsePositiveDecimalField value fieldName = .ok n ↔
      Decimal.isDecimal value ∧ (0 < Decimal.value value ∧ Decimal.value value < 2 ^ 128) ∧
        n = Decimal.value value := by
  have hfield : 2 ^ 128 < bn254ScalarField := by decide
  have hmax : uint128Max = 2 ^ 128 - 1 := rfl
  unfold parsePositiveDecimalField
  simp only [bind_eq_ok, ensure_eq_ok, exists_const, pure_eq_ok]
  constructor
  · rintro ⟨h1, h2, h3, rfl⟩
    exact ⟨h1, ⟨h2.1, by omega⟩, rfl⟩
  · rintro ⟨h1, h2, rfl⟩
    exact ⟨h1, ⟨h2.1, by omega⟩, by omega, rfl⟩

theorem normalizeFeeBps_eq_ok {value : ℤ} {n : ℕ} :
    normalizeFeeBps value = .ok n ↔ value = n ∧ n ≤ 100 := by
  unfold normalizeFeeBps
  simp only [bind_eq_ok, ensure_eq_ok, exists_const, pure_eq_ok]
  omega

/-- What an output note commits to. -/
def outputPreimage (i : NoteCommitmentInput) : List ℕ :=
  [10001, hexNat i.assetId, Decimal.value i.noteAmountWei, hexNat i.ownerCommitment,
    hexNat i.noteSecret]

theorem deriveOutputNoteCommitment_eq_ok {hash : FieldHash} {i : NoteCommitmentInput} {t : Text} :
    deriveOutputNoteCommitment hash i = .ok t ↔
      (Decimal.isDecimal i.noteAmountWei ∧ Decimal.value i.noteAmountWei < 2 ^ 128) ∧
        isHexBytes32 i.assetId ∧ isHexBytes32 i.ownerCommitment ∧ isHexBytes32 i.noteSecret ∧
        t = padHex32 (hash (outputPreimage i)) := by
  unfold deriveOutputNoteCommitment
  simp only [bind_eq_ok, parseZeroAllowedDecimalField_eq_ok, ensure_eq_ok, exists_const, pure_eq_ok]
  constructor
  · rintro ⟨_, ⟨h1, h2, rfl⟩, h3, h4, h5, rfl⟩
    exact ⟨⟨h1, h2⟩, h3, h4, h5, rfl⟩
  · rintro ⟨⟨h1, h2⟩, h3, h4, h5, rfl⟩
    exact ⟨_, ⟨h1, h2, rfl⟩, h3, h4, h5, rfl⟩

/-! ### A hash for runs on given notes -/

/-- A hash that mixes all its inputs and is never zero. -/
def mixHash : FieldHash := fun inputs =>
  inputs.foldl (fun digest input => 31 * digest + input) 7 % (bn254ScalarField - 1) + 1

theorem mixHash_pos (inputs : List ℕ) : 0 < mixHash inputs := Nat.succ_pos _

theorem mixHash_lt (inputs : List ℕ) : mixHash inputs < bn254ScalarField :=
  Nat.add_lt_of_lt_sub (Nat.mod_lt _ (by decide))

/-- The hash as a word. -/
def mixWord (inputs : List ℕ) : Bytes32 := BitVec.ofNat 256 (mixHash inputs)

theorem padHex32_mixHash (inputs : List ℕ) : padHex32 (mixHash inputs) = hex32 (mixWord inputs) :=
  padHex32_eq_hex32 ((mixHash_lt inputs).trans (by decide))

theorem toNat_mixWord (inputs : List ℕ) : (mixWord inputs).toNat = mixHash inputs := by
  rw [mixWord, BitVec.toNat_ofNat, Nat.mod_eq_of_lt ((mixHash_lt inputs).trans (by decide))]

theorem mixWord_ne_zero (inputs : List ℕ) : mixWord inputs ≠ 0 := fun h =>
  (mixHash_pos inputs).ne' ((toNat_mixWord inputs).symm.trans (congrArg BitVec.toNat h))

theorem isFieldElement_mixWord (inputs : List ℕ) : isFieldElement (mixWord inputs) := by
  rw [isFieldElement, toNat_mixWord]
  exact mixHash_lt inputs

end Nullark.Js.SpendMaterial
