import Nullark.Circuit.V12
import Nullark.Lib.Bytes
import Nullark.Pool.Actions

/-! # The verifier that routes by action

`ActionRoutingGroth16V12Verifier` answers for the pool: it checks the public inputs and hands them
to the Groth16 verifier of one of the three circuits.

* `verify_deposit_iff`, `verify_spend_iff`: what an accepted vector of public inputs satisfies.
* `Accepts`: the verifiers accept only what has a witness whose hash inputs are known.
* `exactVerifiers`: those that accept all that has one. -/

namespace Nullark.Verifier.ActionRouting

open Nullark.Lib.Bytes Nullark.Evm.Basic Nullark.Pool.Interface Nullark.Pool.Actions
open Nullark.Circuit.Field Nullark.Circuit.Gadgets Nullark.Circuit.V12

def proofBytesLength : ℕ := 256

def spendPublicInputsLength : ℕ := 10

def firstNonAddressValue : ℕ := 2 ^ 160

def megaEthMainnetChainId : ℕ := 4326

def megaEthTestnetChainId : ℕ := 6343

/-! ### The code -/

/-- The points of a proof. -/
structure ProofPoints where
  pA : UInt256 × UInt256
  pB : (UInt256 × UInt256) × (UInt256 × UInt256)
  pC : UInt256 × UInt256

/-- A word of the calldata. -/
def wordAt (bytes : Bytes) (k : ℕ) : UInt256 :=
  BitVec.ofNat 256 (beValue ((bytes.drop (32 * k)).take 32))

/-- `abi.decode(proof, (uint256[2], uint256[2][2], uint256[2]))`, of 256 bytes. -/
def decodeProof (proof : Bytes) : ProofPoints :=
  { pA := (wordAt proof 0, wordAt proof 1)
    pB := ((wordAt proof 2, wordAt proof 3), (wordAt proof 4, wordAt proof 5))
    pC := (wordAt proof 6, wordAt proof 7) }

/-- **The three Groth16 verifiers**. -/
structure Verifiers where
  depositVerifier : ProofPoints → List Bytes32 → Bool
  privateTransferVerifier : ProofPoints → List Bytes32 → Bool
  withdrawVerifier : ProofPoints → List Bytes32 → Bool

def isSupportedMegaEthChain (chainId : Bytes32) : Prop :=
  chainId.toNat = megaEthTestnetChainId ∨ chainId.toNat = megaEthMainnetChainId

instance (chainId : Bytes32) : Decidable (isSupportedMegaEthChain chainId) :=
  inferInstanceAs (Decidable (_ ∨ _))

def isPrivateTransfer (publicInputs : List Bytes32) : Prop :=
  input publicInputs 2 ≠ 0 ∧ input publicInputs 3 = 0 ∧ input publicInputs 4 = 0 ∧
    input publicInputs 5 = 0

instance (publicInputs : List Bytes32) : Decidable (isPrivateTransfer publicInputs) :=
  inferInstanceAs (Decidable (_ ∧ _))

def isWithdrawal (publicInputs : List Bytes32) : Prop :=
  input publicInputs 3 ≠ 0 ∧ (input publicInputs 3).toNat < firstNonAddressValue ∧
    (input publicInputs 4).toNat > 0

instance (publicInputs : List Bytes32) : Decidable (isWithdrawal publicInputs) :=
  inferInstanceAs (Decidable (_ ∧ _))

section Code
variable (v : Verifiers)

def verifyDeposit (points : ProofPoints) (publicInputs : List Bytes32) : Bool :=
  if publicInputs.any (¬isFieldElement ·) then false
  else if input publicInputs 1 = 0 then false
  else if ¬isSupportedMegaEthChain (input publicInputs 2) then false
  else if (input publicInputs 3).toNat ≥ firstNonAddressValue then false
  else if input publicInputs 4 = 0 ∨ input publicInputs 5 = 0 then false
  else v.depositVerifier points publicInputs

def verifySpend (points : ProofPoints) (publicInputs : List Bytes32) : Bool :=
  if publicInputs.any (¬isFieldElement ·) then false
  else if ¬isSupportedMegaEthChain (input publicInputs 6) then false
  else if (input publicInputs 7).toNat ≥ firstNonAddressValue then false
  else if input publicInputs 8 = 0 ∨ input publicInputs 9 = 0 then false
  else if isPrivateTransfer publicInputs then v.privateTransferVerifier points publicInputs
  else if isWithdrawal publicInputs then v.withdrawVerifier points publicInputs
  else false

/-- **`verify`**. -/
def verify : Verify := fun proof publicInputs =>
  if proof.length ≠ proofBytesLength then false
  else
    let points := decodeProof proof
    if publicInputs.length = depositPublicInputsLength then verifyDeposit v points publicInputs
    else if publicInputs.length = spendPublicInputsLength then verifySpend v points publicInputs
    else false

end Code

/-! ### What is accepted -/

variable {v : Verifiers} {proof : Bytes} {publicInputs : List Bytes32}

theorem not_any_iff {l : List Bytes32} :
    ¬l.any (¬isFieldElement ·) = true ↔ ∀ x ∈ l, isFieldElement x := by
  simp only [List.any_eq_true, decide_eq_true_eq, not_exists, not_and, not_not]

/-- **Accepted deposits.** -/
theorem verify_deposit_iff (hlength : publicInputs.length = depositPublicInputsLength) :
    verify v proof publicInputs = true ↔ proof.length = proofBytesLength ∧
      (∀ x ∈ publicInputs, isFieldElement x) ∧ input publicInputs 1 ≠ 0 ∧
      isSupportedMegaEthChain (input publicInputs 2) ∧
      (input publicInputs 3).toNat < firstNonAddressValue ∧
      (input publicInputs 4 ≠ 0 ∧ input publicInputs 5 ≠ 0) ∧
      v.depositVerifier (decodeProof proof) publicInputs = true := by
  unfold verify verifyDeposit
  dsimp only
  rw [if_pos hlength]
  constructor
  · intro h
    split_ifs at h with h1 h2 h3 h4 h5 h6
    exact ⟨not_not.mp h1, not_any_iff.mp h2, h3, h4, not_le.mp h5, not_or.mp h6, h⟩
  · rintro ⟨h1, h2, h3, h4, h5, h6, h⟩
    rw [if_neg (not_not.mpr h1), if_neg (not_any_iff.mpr h2), if_neg h3, if_neg (not_not.mpr h4),
      if_neg (not_le.mpr h5), if_neg (not_or.mpr h6), h]

/-- **Accepted spends** are routed by their public inputs. -/
theorem verify_spend_iff (hlength : publicInputs.length = publicInputsLength) :
    verify v proof publicInputs = true ↔ proof.length = proofBytesLength ∧
      (∀ x ∈ publicInputs, isFieldElement x) ∧ isSupportedMegaEthChain (input publicInputs 6) ∧
      (input publicInputs 7).toNat < firstNonAddressValue ∧
      (input publicInputs 8 ≠ 0 ∧ input publicInputs 9 ≠ 0) ∧
      (isPrivateTransfer publicInputs ∧
          v.privateTransferVerifier (decodeProof proof) publicInputs = true ∨
        ¬isPrivateTransfer publicInputs ∧ isWithdrawal publicInputs ∧
          v.withdrawVerifier (decodeProof proof) publicInputs = true) := by
  have hne : publicInputs.length ≠ depositPublicInputsLength := by rw [hlength]; decide
  have hspend : publicInputs.length = spendPublicInputsLength := hlength
  unfold verify verifySpend
  dsimp only
  rw [if_neg hne, if_pos hspend]
  constructor
  · intro h
    split_ifs at h with h1 h2 h3 h4 h5 h6 h7
    · exact ⟨not_not.mp h1, not_any_iff.mp h2, h3, not_le.mp h4, not_or.mp h5,
        .inl ⟨h6, h⟩⟩
    · exact ⟨not_not.mp h1, not_any_iff.mp h2, h3, not_le.mp h4, not_or.mp h5,
        .inr ⟨h6, h7, h⟩⟩
  · rintro ⟨h1, h2, h3, h4, h5, h⟩
    rw [if_neg (not_not.mpr h1), if_neg (not_any_iff.mpr h2), if_neg (not_not.mpr h3),
      if_neg (not_le.mpr h4), if_neg (not_or.mpr h5)]
    rcases h with ⟨h6, h⟩ | ⟨h6, h7, h⟩
    · rw [if_pos h6, h]
    · rw [if_neg h6, if_pos h7, h]

theorem isFieldElement_input (h : ∀ x ∈ publicInputs, isFieldElement x) (k : ℕ) :
    isFieldElement (input publicInputs k) := by
  unfold input
  rw [List.getD_eq_getElem?_getD]
  rcases hk : publicInputs[k]? with _ | x
  · exact isFieldElement_zero
  · exact h x (List.mem_of_getElem? hk)

/-! ### Verifiers of the circuits -/

/-- The signals of a deposit. -/
def depositPublic (publicInputs : List Bytes32) : DepositPublic :=
  { commitment := toField (input publicInputs 0)
    amount := toField (input publicInputs 1)
    chainId := toField (input publicInputs 2)
    verifyingContract := toField (input publicInputs 3)
    depositContextHash := toField (input publicInputs 4)
    encryptedDepositNoteHash := toField (input publicInputs 5) }

/-- The signals of a spend. -/
def spendPublic (publicInputs : List Bytes32) : SpendPublic :=
  { root := toField (input publicInputs 0)
    nullifier := toField (input publicInputs 1)
    outputCommitment := toField (input publicInputs 2)
    destination := toField (input publicInputs 3)
    grossAmount := toField (input publicInputs 4)
    fee := toField (input publicInputs 5)
    chainId := toField (input publicInputs 6)
    verifyingContract := toField (input publicInputs 7)
    proofContextHash := toField (input publicInputs 8)
    encryptedOutputNoteHash := toField (input publicInputs 9) }

/-- **The verifiers accept only vectors with a witness**, and only inputs of `K` are hashed for
one: those are the inputs anyone knows. -/
structure Accepts (t : Templates) (levels : ℕ) (K : List F → Prop) (v : Verifiers) : Prop where
  deposit : ∀ points publicInputs, v.depositVerifier points publicInputs = true →
    ∃ w, DepositCircuit t (depositPublic publicInputs) w ∧
      ∀ k ∈ w.preimages (depositPublic publicInputs), K k
  privateTransfer : ∀ points publicInputs, v.privateTransferVerifier points publicInputs = true →
    ∃ w, PrivateTransferCircuit t levels (spendPublic publicInputs) w ∧
      ∀ k ∈ w.preimages t (spendPublic publicInputs), K k
  withdraw : ∀ points publicInputs, v.withdrawVerifier points publicInputs = true →
    ∃ w, WithdrawCircuit t levels (spendPublic publicInputs) w ∧
      ∀ k ∈ w.preimages t (spendPublic publicInputs), K k

open Classical in
/-- Verifiers that accept exactly what has a witness whose hash inputs are known. -/
noncomputable def exactVerifiers (t : Templates) (levels : ℕ) (K : List F → Prop) : Verifiers where
  depositVerifier _ publicInputs := decide (∃ w, DepositCircuit t (depositPublic publicInputs) w ∧
    ∀ k ∈ w.preimages (depositPublic publicInputs), K k)
  privateTransferVerifier _ publicInputs :=
    decide (∃ w, PrivateTransferCircuit t levels (spendPublic publicInputs) w ∧
      ∀ k ∈ w.preimages t (spendPublic publicInputs), K k)
  withdrawVerifier _ publicInputs :=
    decide (∃ w, WithdrawCircuit t levels (spendPublic publicInputs) w ∧
      ∀ k ∈ w.preimages t (spendPublic publicInputs), K k)

section
variable {t : Templates} {levels : ℕ} {K : List F → Prop} {points : ProofPoints}

theorem exactVerifiers_deposit :
    (exactVerifiers t levels K).depositVerifier points publicInputs = true ↔
      ∃ w, DepositCircuit t (depositPublic publicInputs) w ∧
        ∀ k ∈ w.preimages (depositPublic publicInputs), K k := by
  simp [exactVerifiers]

theorem exactVerifiers_privateTransfer :
    (exactVerifiers t levels K).privateTransferVerifier points publicInputs = true ↔
      ∃ w, PrivateTransferCircuit t levels (spendPublic publicInputs) w ∧
        ∀ k ∈ w.preimages t (spendPublic publicInputs), K k := by
  simp [exactVerifiers]

theorem exactVerifiers_withdraw :
    (exactVerifiers t levels K).withdrawVerifier points publicInputs = true ↔
      ∃ w, WithdrawCircuit t levels (spendPublic publicInputs) w ∧
        ∀ k ∈ w.preimages t (spendPublic publicInputs), K k := by
  simp [exactVerifiers]

theorem accepts_exactVerifiers : Accepts t levels K (exactVerifiers t levels K) :=
  ⟨fun _ _ => exactVerifiers_deposit.mp, fun _ _ => exactVerifiers_privateTransfer.mp,
    fun _ _ => exactVerifiers_withdraw.mp⟩

/-- Verifiers that accept one deposit and one withdrawal. -/
def pairVerifiers (deposit withdrawal : List Bytes32) : Verifiers where
  depositVerifier _ publicInputs := publicInputs == deposit
  privateTransferVerifier _ _ := false
  withdrawVerifier _ publicInputs := publicInputs == withdrawal

theorem accepts_pairVerifiers {deposit withdrawal : List Bytes32} {d : DepositWitness}
    {w : WithdrawWitness} (hd : DepositCircuit t (depositPublic deposit) d)
    (hdk : ∀ k ∈ d.preimages (depositPublic deposit), K k)
    (hw : WithdrawCircuit t levels (spendPublic withdrawal) w)
    (hwk : ∀ k ∈ w.preimages t (spendPublic withdrawal), K k) :
    Accepts t levels K (pairVerifiers deposit withdrawal) where
  deposit _ publicInputs h := by
    obtain rfl : publicInputs = deposit := eq_of_beq h
    exact ⟨d, hd, hdk⟩
  privateTransfer _ _ h := absurd h Bool.false_ne_true
  withdraw _ publicInputs h := by
    obtain rfl : publicInputs = withdrawal := eq_of_beq h
    exact ⟨w, hw, hwk⟩

end

end Nullark.Verifier.ActionRouting
