import Nullark.Circuit.V12

/-! # The v1.1 circuits

The two constraint systems, with the commitment and the amount of the note that is spent among the
public signals.

* `amounts_iff`: the withdrawals whose fee is the floor of the charge.
* `feeRemainder_range`: what the comparator leaves of the remainder.
* `SpendsNote`: what the two circuits say of the note that is spent. -/

namespace Nullark.Circuit.V11

open Nullark.Lib.Merkle.Tree Nullark.Pool.Interface Nullark.Circuit.Field Nullark.Circuit.Gadgets
open Nullark.Circuit.V12 (pathPreimages)

/-! ### Comparators -/

/-- **`LessThan(n)`** besides the templates of v1.2, with its two inputs and its output. -/
structure Comparators extends Templates where
  lessThan : ℕ → F → F → F → Prop

/-- **The documented behaviour**: `LessThan(n)` asks for the `n + 1` bits of `in[0] + 2^n - in[1]`,
and its output is the negation of the last one. -/
structure DocumentedComparators (t : Comparators) : Prop extends Documented t.toTemplates where
  lessThan : ∀ n a b out, t.lessThan n a b out ↔
    ∃ m : ℕ, m < 2 ^ (n + 1) ∧ (m : F) = a + 2 ^ n - b ∧ out = if m < 2 ^ n then 1 else 0

/-- Comparators that are what is documented, for a hash. -/
def documentedComparators (poseidon : List F → F) : Comparators where
  toTemplates := documentedTemplates poseidon
  lessThan n a b out :=
    ∃ m : ℕ, m < 2 ^ (n + 1) ∧ (m : F) = a + 2 ^ n - b ∧ out = if m < 2 ^ n then 1 else 0

theorem documented_documentedComparators (poseidon : List F → F) :
    DocumentedComparators (documentedComparators poseidon) where
  toDocumented := documented_documentedTemplates poseidon
  lessThan := fun _ _ _ _ => Iff.rfl

/-! ### Signals -/

/-- The public signals of both circuits. -/
structure SpendPublic where
  root : F
  nullifier : F
  newCommitment : F
  destination : F
  grossAmount : F
  fee : F
  chainId : F
  verifyingContract : F
  spentCommitment : F
  noteAmount : F
  proofContextHash : F
  encryptedNoteHash : F

/-- The private signals of a withdrawal. The last two are the outputs of the two `IsZero`. -/
structure WithdrawWitness where
  assetId : F
  ownerCommitment : F
  noteSecret : F
  leafIndex : F
  withdrawalDestination : F
  changeAmount : F
  changeOwnerCommitment : F
  changeNoteSecret : F
  pathElements : List F
  expectedProofContextHash : F
  expectedEncryptedNoteHash : F
  changeIsZero : F
  newCommitmentIsZero : F

structure PrivateTransferWitness where
  assetId : F
  ownerCommitment : F
  noteSecret : F
  leafIndex : F
  pathElements : List F
  recipientOwnerCommitment : F
  recipientNoteSecret : F
  expectedProofContextHash : F
  expectedEncryptedNoteHash : F

def WithdrawWitness.note (w : WithdrawWitness) (x : SpendPublic) : Note :=
  ⟨w.assetId, x.noteAmount, w.ownerCommitment, w.noteSecret⟩

def WithdrawWitness.outputNote (w : WithdrawWitness) : Note :=
  ⟨w.assetId, w.changeAmount, w.changeOwnerCommitment, w.changeNoteSecret⟩

def PrivateTransferWitness.oldNote (w : PrivateTransferWitness) (x : SpendPublic) : Note :=
  ⟨w.assetId, x.noteAmount, w.ownerCommitment, w.noteSecret⟩

def PrivateTransferWitness.outputNote (w : PrivateTransferWitness) (x : SpendPublic) : Note :=
  ⟨w.assetId, x.noteAmount, w.recipientOwnerCommitment, w.recipientNoteSecret⟩

/-! ### Constraints -/

def SpendPublic.feeRemainder (x : SpendPublic) : F := x.grossAmount * 33 - x.fee * 10000

def WithdrawWitness.hasChange (w : WithdrawWitness) : F := 1 - w.changeIsZero

/-- **`WithdrawCircuit(levels)`**. -/
structure WithdrawCircuit (t : Comparators) (levels : ℕ) (x : SpendPublic) (w : WithdrawWitness) :
    Prop where
  pathElements : w.pathElements.length = levels
  supportedChain : (x.chainId - 6343) * (x.chainId - 4326) = 0
  destination : x.destination = w.withdrawalDestination
  proofContextHash : x.proofContextHash = w.expectedProofContextHash
  encryptedNoteHash : x.encryptedNoteHash = w.expectedEncryptedNoteHash
  noteAmountBits : t.num2Bits 128 x.noteAmount
  grossAmountBits : t.num2Bits 128 x.grossAmount
  changeAmountBits : t.num2Bits 128 w.changeAmount
  proofContextHashBits : t.num2Bits 254 x.proofContextHash
  encryptedNoteHashBits : t.num2Bits 254 x.encryptedNoteHash
  conservation : x.noteAmount = x.grossAmount + w.changeAmount
  feeRemainderBound : t.lessThan 14 x.feeRemainder 10000 1
  changeIsZero : t.isZero w.changeAmount w.changeIsZero
  noNewCommitment : x.newCommitment * w.changeIsZero = 0
  newCommitment :
    (x.newCommitment - poseidonNoteCommitment t.toTemplates w.outputNote) * w.hasChange = 0
  newCommitmentIsZero : t.isZero x.newCommitment w.newCommitmentIsZero
  newCommitmentUnlessZero : w.newCommitmentIsZero + w.hasChange = 1
  verifyingContractBits : t.num2Bits 160 x.verifyingContract
  note : x.spentCommitment = poseidonNoteCommitment t.toTemplates (w.note x)
  computedNullifier : x.nullifier =
    poseidonNullifier t.toTemplates w.noteSecret w.leafIndex x.chainId x.verifyingContract
  computedRoot : poseidonMerkleMembership t.toTemplates levels x.spentCommitment w.leafIndex
    w.pathElements x.root

/-- **`PrivateTransferCircuit(levels)`**. -/
structure PrivateTransferCircuit (t : Templates) (levels : ℕ) (x : SpendPublic)
    (w : PrivateTransferWitness) : Prop where
  pathElements : w.pathElements.length = levels
  supportedChain : (x.chainId - 6343) * (x.chainId - 4326) = 0
  destination : x.destination = 0
  grossAmount : x.grossAmount = 0
  fee : x.fee = 0
  proofContextHash : x.proofContextHash = w.expectedProofContextHash
  encryptedNoteHash : x.encryptedNoteHash = w.expectedEncryptedNoteHash
  verifyingContractBits : t.num2Bits 160 x.verifyingContract
  newCommitmentBits : t.num2Bits 254 x.newCommitment
  noteAmountBits : t.num2Bits 128 x.noteAmount
  proofContextHashBits : t.num2Bits 254 x.proofContextHash
  encryptedNoteHashBits : t.num2Bits 254 x.encryptedNoteHash
  oldNote : x.spentCommitment = poseidonNoteCommitment t (w.oldNote x)
  outputNote : x.newCommitment = poseidonNoteCommitment t (w.outputNote x)
  computedNullifier : x.nullifier =
    poseidonNullifier t w.noteSecret w.leafIndex x.chainId x.verifyingContract
  computedRoot : poseidonMerkleMembership t levels x.spentCommitment w.leafIndex w.pathElements
    x.root

/-! ### The note that is spent -/

/-- What the spend of a note hashes. -/
def spendPreimages (t : Templates) (x : SpendPublic) (note outputNote : Note) (leafIndex : F)
    (pathElements : List F) : List (List F) :=
  note.preimage :: outputNote.preimage ::
    nullifierPreimage note.noteSecret leafIndex x.chainId x.verifyingContract ::
    pathPreimages t x.spentCommitment leafIndex pathElements

def WithdrawWitness.preimages (t : Templates) (w : WithdrawWitness) (x : SpendPublic) :
    List (List F) :=
  spendPreimages t x (w.note x) w.outputNote w.leafIndex w.pathElements

def PrivateTransferWitness.preimages (t : Templates) (w : PrivateTransferWitness)
    (x : SpendPublic) : List (List F) :=
  spendPreimages t x (w.oldNote x) (w.outputNote x) w.leafIndex w.pathElements

/-- **A note is spent**: at the index, along the path to the root, with its commitment and its
nullifier. -/
structure SpendsNote (t : Templates) (levels : ℕ) (x : SpendPublic) (note : Note) (leafIndex : F)
    (pathElements : List F) : Prop where
  length : pathElements.length = levels
  spent : x.spentCommitment = poseidonNoteCommitment t note
  nullifier : x.nullifier =
    poseidonNullifier t note.noteSecret leafIndex x.chainId x.verifyingContract
  index_lt : leafIndex.val < 2 ^ levels
  root : x.root = climb (hashPair t) x.spentCommitment leafIndex.val pathElements

section Spends
variable {levels : ℕ} {x : SpendPublic}

theorem WithdrawCircuit.spendsNote {t : Comparators} (ht : Documented t.toTemplates)
    {w : WithdrawWitness} (h : WithdrawCircuit t levels x w) :
    SpendsNote t.toTemplates levels x (w.note x) w.leafIndex w.pathElements := by
  obtain ⟨hindex, hroot⟩ := (ht.binaryMerkleRoot levels _ _ _ _ h.pathElements).mp h.computedRoot
  exact ⟨h.pathElements, h.note, h.computedNullifier, hindex, hroot⟩

theorem PrivateTransferCircuit.spendsNote {t : Templates} (ht : Documented t)
    {w : PrivateTransferWitness} (h : PrivateTransferCircuit t levels x w) :
    SpendsNote t levels x (w.oldNote x) w.leafIndex w.pathElements := by
  obtain ⟨hindex, hroot⟩ := (ht.binaryMerkleRoot levels _ _ _ _ h.pathElements).mp h.computedRoot
  exact ⟨h.pathElements, h.oldNote, h.computedNullifier, hindex, hroot⟩

end Spends

/-! ### The amounts of a withdrawal -/

section Amounts
variable {t : Comparators} {levels : ℕ} {x : SpendPublic} {w : WithdrawWitness}

theorem val_lt_of_num2Bits (ht : Documented t.toTemplates) {n : ℕ} (hn : 2 ^ n < bn254ScalarField)
    {v : F} (h : t.num2Bits n v) : v.val < 2 ^ n := by
  obtain ⟨m, hm, rfl⟩ := (ht.num2Bits n v).mp h
  rwa [ZMod.val_natCast_of_lt (hm.trans hn)]

/-- The amounts are numbers of 128 bits, so their sum does not wrap around the field. -/
theorem WithdrawCircuit.noteAmount (ht : Documented t.toTemplates)
    (h : WithdrawCircuit t levels x w) :
    (x.noteAmount.val < 2 ^ 128 ∧ x.grossAmount.val < 2 ^ 128 ∧ w.changeAmount.val < 2 ^ 128) ∧
      x.noteAmount.val = x.grossAmount.val + w.changeAmount.val := by
  have hfield : 2 ^ 129 < bn254ScalarField := by decide
  have hbits : 2 ^ 128 < bn254ScalarField := by decide
  have hnote := val_lt_of_num2Bits ht hbits h.noteAmountBits
  have hgross := val_lt_of_num2Bits ht hbits h.grossAmountBits
  have hchange := val_lt_of_num2Bits ht hbits h.changeAmountBits
  refine ⟨⟨hnote, hgross, hchange⟩, ?_⟩
  have hlt : x.grossAmount.val + w.changeAmount.val < bn254ScalarField := by omega
  rw [h.conservation, ZMod.val_add_of_lt hlt]

/-- The new commitment is zero exactly when there is no change. -/
theorem WithdrawCircuit.newCommitment_eq_zero (ht : Documented t.toTemplates)
    (h : WithdrawCircuit t levels x w) : x.newCommitment = 0 ↔ w.changeAmount = 0 := by
  have hchange := (ht.isZero _ _).mp h.changeIsZero
  have hnew := (ht.isZero _ _).mp h.newCommitmentIsZero
  have hsum := h.newCommitmentUnlessZero
  unfold WithdrawWitness.hasChange at hsum
  have hequal : w.newCommitmentIsZero = w.changeIsZero := by linear_combination hsum
  rw [hnew, hchange] at hequal
  by_cases hn : x.newCommitment = 0 <;> by_cases hc : w.changeAmount = 0
  · exact ⟨fun _ => hc, fun _ => hn⟩
  · rw [if_pos hn, if_neg hc] at hequal
    exact absurd hequal one_ne_zero
  · rw [if_neg hn, if_pos hc] at hequal
    exact absurd hequal zero_ne_one
  · exact ⟨fun h => absurd h hn, fun h => absurd h hc⟩

/-- **What the comparator leaves of the remainder**: it may be negative. -/
theorem WithdrawCircuit.feeRemainder_range (ht : DocumentedComparators t)
    (h : WithdrawCircuit t levels x w) :
    ∃ m : ℕ, m < 2 ^ 14 ∧ x.grossAmount * 33 = x.fee * 10000 + m - 6384 := by
  obtain ⟨m, -, hm, hout⟩ := (ht.lessThan 14 _ _ _).mp h.feeRemainderBound
  have hlt : m < 2 ^ 14 := by
    by_contra hge
    rw [if_neg hge] at hout
    exact one_ne_zero hout
  refine ⟨m, hlt, ?_⟩
  unfold SpendPublic.feeRemainder at hm
  linear_combination -hm

/-- **The amounts of a withdrawal**, as numbers. -/
structure Amounts (x : SpendPublic) (w : WithdrawWitness) : Prop where
  fee : x.fee.val = x.grossAmount.val * 33 / 10000
  noteAmount : x.noteAmount.val = x.grossAmount.val + w.changeAmount.val
  bounds : x.noteAmount.val < 2 ^ 128 ∧ x.grossAmount.val < 2 ^ 128 ∧ w.changeAmount.val < 2 ^ 128
  newCommitment : x.newCommitment = 0 ↔ w.changeAmount = 0

/-- **The fee is the floor** exactly when what it stands for is at most the charge, so that the
difference the comparator is given is not below zero. -/
theorem amounts_iff (ht : DocumentedComparators t) (h : WithdrawCircuit t levels x w) :
    Amounts x w ↔ x.fee.val * 10000 ≤ x.grossAmount.val * 33 := by
  obtain ⟨hbounds, hsum⟩ := h.noteAmount ht.toDocumented
  constructor
  · intro hamounts
    rw [hamounts.fee]
    exact Nat.div_mul_le_self _ _
  · intro hle
    refine ⟨?_, hsum, hbounds, h.newCommitment_eq_zero ht.toDocumented⟩
    obtain ⟨m, hm, hremainder⟩ := h.feeRemainder_range ht
    have hgross := hbounds.2.1
    -- both sides as numbers below the order of the field
    have hcast : ((x.grossAmount.val * 33 + 6384 : ℕ) : F) = ((x.fee.val * 10000 + m : ℕ) : F) := by
      push_cast
      rw [ZMod.natCast_zmod_val, ZMod.natCast_zmod_val, hremainder]
      ring
    have hfield : 2 ^ 128 * 33 + 2 ^ 15 < bn254ScalarField := by decide
    have hnat := natCast_inj_of_lt (by omega) (by omega) hcast
    omega

end Amounts

/-! ### A fee that is not the floor -/

section Sample
variable (poseidon : List F → F)

/-- The public signals of the withdrawal of a whole note of an amount, with a fee. -/
def samplePublic (amount fee : F) : SpendPublic where
  root := climb (hashPair (documentedTemplates poseidon))
    (poseidonNoteCommitment (documentedTemplates poseidon) ⟨1, amount, 2, 3⟩) 0
    (List.replicate 20 0)
  nullifier := poseidonNullifier (documentedTemplates poseidon) 3 0 6343 5
  newCommitment := 0
  destination := 7
  grossAmount := amount
  fee := fee
  chainId := 6343
  verifyingContract := 5
  spentCommitment := poseidonNoteCommitment (documentedTemplates poseidon) ⟨1, amount, 2, 3⟩
  noteAmount := amount
  proofContextHash := 8
  encryptedNoteHash := 9

def sampleWitness : WithdrawWitness where
  assetId := 1
  ownerCommitment := 2
  noteSecret := 3
  leafIndex := 0
  withdrawalDestination := 7
  changeAmount := 0
  changeOwnerCommitment := 0
  changeNoteSecret := 0
  pathElements := List.replicate 20 0
  expectedProofContextHash := 8
  expectedEncryptedNoteHash := 9
  changeIsZero := 1
  newCommitmentIsZero := 1

/-- The withdrawal satisfies the constraints, whatever the hash, if the remainder is in range. -/
theorem sample_satisfies {amount fee m : ℕ} (hamount : amount < 2 ^ 128) (hm : m < 2 ^ 14)
    (h : amount * 33 + 6384 = fee * 10000 + m) :
    WithdrawCircuit (documentedComparators poseidon) 20 (samplePublic poseidon amount fee)
      sampleWitness where
  pathElements := List.length_replicate
  supportedChain := by
    change ((6343 : F) - 6343) * (6343 - 4326) = 0
    ring
  destination := rfl
  proofContextHash := rfl
  encryptedNoteHash := rfl
  noteAmountBits := ⟨amount, hamount, rfl⟩
  grossAmountBits := ⟨amount, hamount, rfl⟩
  changeAmountBits := ⟨0, by decide, Nat.cast_zero⟩
  proofContextHashBits := ⟨8, by decide, rfl⟩
  encryptedNoteHashBits := ⟨9, by decide, rfl⟩
  conservation := (add_zero _).symm
  feeRemainderBound := by
    refine ⟨m, hm.trans (by decide), ?_, (if_pos hm).symm⟩
    have hcast := congrArg (fun n : ℕ => (n : F)) h
    push_cast at hcast
    change (m : F) = (amount : F) * 33 - (fee : F) * 10000 + 2 ^ 14 - 10000
    linear_combination -hcast
  changeIsZero := (if_pos rfl).symm
  noNewCommitment := zero_mul _
  newCommitment := by
    have hnone : sampleWitness.hasChange = 0 := sub_self 1
    rw [hnone, mul_zero]
  newCommitmentIsZero := (if_pos rfl).symm
  newCommitmentUnlessZero := by
    have hnone : sampleWitness.hasChange = 0 := sub_self 1
    rw [hnone, add_zero]
    rfl
  verifyingContractBits := ⟨5, by decide, rfl⟩
  note := rfl
  computedNullifier := rfl
  computedRoot := by
    refine ⟨?_, ?_⟩
    · change (0 : F).val < 2 ^ 20
      rw [ZMod.val_zero]
      decide
    · change _ = climb _ _ (0 : F).val _
      rw [ZMod.val_zero]
      rfl

end Sample

/-- The withdrawal of a whole note, with the fee the pool asks for. -/
theorem amounts_denomination : Amounts
    (samplePublic List.sum (5000000000000000 : ℕ) (16500000000000 : ℕ)) sampleWitness :=
  (amounts_iff (documented_documentedComparators _) (sample_satisfies List.sum
    (by decide : 5000000000000000 < 2 ^ 128) (by decide : 6384 < 2 ^ 14) (by decide))).mpr
      (by decide +kernel)

/-- Of 110 the charge is 0.363, and a fee of 1 is accepted, whatever the hash. -/
theorem fee_above_floor : ¬∃ poseidon, ∀ x w,
    WithdrawCircuit (documentedComparators poseidon) 20 x w → Amounts x w := by
  rintro ⟨poseidon, h⟩
  have hamounts := h _ _ (sample_satisfies poseidon (by decide : 110 < 2 ^ 128)
    (by decide : 14 < 2 ^ 14) (by decide : 110 * 33 + 6384 = 1 * 10000 + 14))
  have hfee := hamounts.fee
  change ((1 : ℕ) : F).val = ((110 : ℕ) : F).val * 33 / 10000 at hfee
  rw [ZMod.val_natCast_of_lt (by decide), ZMod.val_natCast_of_lt (by decide)] at hfee
  exact absurd hfee (by decide)

end Nullark.Circuit.V11
