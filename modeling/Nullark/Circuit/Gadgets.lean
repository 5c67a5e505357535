import Nullark.Circuit.Field
import Nullark.Lib.Merkle.Tree

/-! # The templates the circuits are built from

`Templates` are those of the packages the circuits include: they are parameters, and `Documented`
says what their documentation does. The others are the repository's own.

* `amountInDenoms_iff`, `amountInDenomsOrZero_iff`: the amounts that pass.
* `Note`, `Note.preimage`, `nullifierPreimage`: what is hashed for a note and for its spend. -/

namespace Nullark.Circuit.Gadgets

open Nullark.Lib.Merkle.Tree Nullark.Pool.Interface Nullark.Circuit.Field

/-- **The included templates**, as the relations their constraints enforce on inputs and outputs:
`Poseidon`, `Num2Bits(n)`, `IsZero` and `BinaryMerkleRoot(levels)` with its leaf, depth, index,
siblings and output. -/
structure Templates where
  poseidon : List F → F
  num2Bits : ℕ → F → Prop
  isZero : F → F → Prop
  binaryMerkleRoot : ℕ → F → F → F → List F → F → Prop

/-- **The documented behaviour**: `Num2Bits` asks for a number of `n` bits, and the membership
gadget checks the range of the index and recomputes the root. -/
structure Documented (t : Templates) : Prop where
  num2Bits : ∀ n x, t.num2Bits n x ↔ ∃ m : ℕ, m < 2 ^ n ∧ (m : F) = x
  isZero : ∀ x out, t.isZero x out ↔ out = if x = 0 then 1 else 0
  binaryMerkleRoot : ∀ (levels : ℕ) (leaf index : F) (siblings : List F) (out : F),
    siblings.length = levels → (t.binaryMerkleRoot levels leaf levels index siblings out ↔
      index.val < 2 ^ levels ∧
        out = climb (fun a b => t.poseidon [a, b]) leaf index.val siblings)

/-- Templates that are what is documented, for a hash. -/
def documentedTemplates (poseidon : List F → F) : Templates where
  poseidon := poseidon
  num2Bits n x := ∃ m : ℕ, m < 2 ^ n ∧ (m : F) = x
  isZero x out := out = if x = 0 then 1 else 0
  binaryMerkleRoot levels leaf _ index siblings out :=
    index.val < 2 ^ levels ∧ out = climb (fun a b => poseidon [a, b]) leaf index.val siblings

theorem documented_documentedTemplates (poseidon : List F → F) :
    Documented (documentedTemplates poseidon) :=
  ⟨fun _ _ => Iff.rfl, fun _ _ => Iff.rfl, fun _ _ _ _ _ _ => Iff.rfl⟩

/-! ### Amounts -/

/-- The last of the products, from the first one on. -/
def denomProduct (amount : F) : F → List ℕ → F
  | product, [] => product
  | product, d :: denoms => denomProduct amount (product * (amount - d)) denoms

/-- `AmountInDenoms`. -/
def amountInDenoms (amount : F) : Prop :=
  denomProduct amount (amount - (5000000000000000 : ℕ)) [10000000000000000, 20000000000000000,
    30000000000000000, 50000000000000000, 100000000000000000, 200000000000000000,
    300000000000000000, 500000000000000000, 1000000000000000000] = 0

/-- `AmountInDenomsOrZero`. -/
def amountInDenomsOrZero (amount : F) : Prop :=
  denomProduct amount amount [5000000000000000, 10000000000000000, 20000000000000000,
    30000000000000000, 50000000000000000, 100000000000000000, 200000000000000000,
    300000000000000000, 500000000000000000, 1000000000000000000] = 0

theorem denomProduct_eq_zero {amount : F} : ∀ {denoms : List ℕ} {product : F},
    denomProduct amount product denoms = 0 ↔ product = 0 ∨ ∃ d ∈ denoms, amount = (d : F)
  | [], product => by simp [denomProduct]
  | d :: denoms, product => by
    rw [denomProduct, denomProduct_eq_zero, mul_eq_zero, sub_eq_zero, List.exists_mem_cons_iff,
      or_assoc]

/-- The amounts that pass are the denominations of the pool. -/
theorem amountInDenoms_iff {amount : F} :
    amountInDenoms amount ↔ ∃ d, isSupportedDenomination d ∧ amount = (d : F) := by
  unfold amountInDenoms isSupportedDenomination supportedDenominations
  rw [denomProduct_eq_zero, sub_eq_zero]
  exact (List.exists_mem_cons_iff (fun d : ℕ => amount = (d : F)) _ _).symm

theorem amountInDenomsOrZero_iff {amount : F} : amountInDenomsOrZero amount ↔
    amount = 0 ∨ ∃ d, isSupportedDenomination d ∧ amount = (d : F) := by
  unfold amountInDenomsOrZero isSupportedDenomination supportedDenominations
  exact denomProduct_eq_zero

theorem lt_of_isSupportedDenomination {d : ℕ} (h : isSupportedDenomination d) :
    d < bn254ScalarField := (le_of_supported h).trans_lt (by decide)

/-! ### Hashes -/

/-- **What a note consists of.** -/
structure Note where
  assetId : F
  amount : F
  ownerCommitment : F
  noteSecret : F
  deriving DecidableEq

def Note.preimage (n : Note) : List F :=
  [10001, n.assetId, n.amount, n.ownerCommitment, n.noteSecret]

theorem Note.preimage_injective : Function.Injective Note.preimage := by
  intro m n h
  unfold Note.preimage at h
  simp only [List.cons.injEq, and_true, true_and] at h
  obtain ⟨h1, h2, h3, h4⟩ := h
  cases m
  cases n
  simp only [Note.mk.injEq]
  exact ⟨h1, h2, h3, h4⟩

def nullifierPreimage (noteSecret leafIndex chainId verifyingContract : F) : List F :=
  [10002, noteSecret, leafIndex, chainId, verifyingContract]

section Code
variable (t : Templates)

/-- `PoseidonNoteCommitment`, with the domain 10001. -/
def poseidonNoteCommitment (n : Note) : F := t.poseidon n.preimage

/-- `PoseidonNullifier`, with the domain 10002. -/
def poseidonNullifier (noteSecret leafIndex chainId verifyingContract : F) : F :=
  t.poseidon (nullifierPreimage noteSecret leafIndex chainId verifyingContract)

/-- `PoseidonMerkleMembership(levels)`. -/
def poseidonMerkleMembership (levels : ℕ) (leaf leafIndex : F) (pathElements : List F) (root : F) :
    Prop :=
  t.binaryMerkleRoot levels leaf levels leafIndex pathElements root

/-- A node of the tree. -/
def hashPair (left right : F) : F := t.poseidon [left, right]

end Code

end Nullark.Circuit.Gadgets
