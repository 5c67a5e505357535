import Nullark.Circuit.V12
import Nullark.Js.ContextHashes
import Nullark.Js.Signals
import Nullark.Pool.Arguments
import Nullark.Pool.Effects

/-! # The deposit prover of the web app

`generateBrowserDepositProof` builds a witness, has it proved, and checks the public signals that
come back. The prover is a parameter and may return anything.

* `depositWitness_eq_ok`: the witness that is built, with the hashes of the pool in it.
* `depositCircuit_depositWitness`: it satisfies the circuit.
* `depositArguments_generate`: public inputs that are returned pass the checks of the pool.
* `generate_honest`: a prover that proves the witness makes the function return. -/

namespace Nullark.Web.DepositProver

open Nullark.Lib Nullark.Lib.Outcome Nullark.Lib.Hex Nullark.Lib.Abi Nullark.Evm.Basic
open Nullark.Pool.Interface Nullark.Pool.Context Nullark.Pool.Actions Nullark.Pool.Arguments
open Nullark.Pool.Calls (Call exec)
open Nullark.Pool.Roots (Recorded recorded_initial)
open Nullark.Pool.Tree (merkleTreeCapacity)
open Nullark.Pool.Effects (exec_deposit plainMsg freshWorld)
open Nullark.Circuit.Field Nullark.Circuit.Gadgets Nullark.Circuit.V12
open Nullark.Js.Basic Nullark.Js.Bytes Nullark.Js.Numbers Nullark.Js.Package
open Nullark.Js.ContextHashes Nullark.Js.Signals

structure BrowserDepositProofInput where
  commitment : Text
  amountWei : Text
  chainId : ℕ
  pool : Text
  assetId : Text
  ownerCommitment : Text
  noteSecret : Text
  encryptedNote : Text
  deriving DecidableEq, Repr

/-- The signals the prover is given, as texts. -/
structure ProverWitness where
  commitment : Text
  amount : Text
  chainId : Text
  verifyingContract : Text
  depositContextHash : Text
  encryptedDepositNoteHash : Text
  assetId : Text
  ownerCommitment : Text
  noteSecret : Text
  expectedChainId : Text
  expectedVerifyingContract : Text
  expectedDepositContextHash : Text
  expectedEncryptedDepositNoteHash : Text
  deriving DecidableEq, Repr

/-- A proof as the prover returns it: two points with three coordinates and one with three pairs. -/
structure Groth16Proof where
  piA : List Text
  piB : List (List Text)
  piC : List Text

structure Generated where
  proof : Groth16Proof
  publicSignals : List Text

structure BrowserDepositProofResult where
  proof : Text
  proofCandidates : List Text
  publicInputs : List Text
  depositContextHash : Text
  encryptedDepositNoteHash : Text

/-! ### The bytes of a proof -/

/-- `/^(?:0x[0-9a-fA-F]{1,64}|[0-9]+)$/`. -/
def isSnarkScalar (t : Text) : Prop :=
  (isHex t ∧ 3 ≤ t.length ∧ t.length ≤ 66) ∨ Decimal.isDecimal t

instance (t : Text) : Decidable (isSnarkScalar t) := inferInstanceAs (Decidable (_ ∨ _))

def toSnarkBigInt (t : Text) : Throws ℤ := do
  ensure (isSnarkScalar t) "Malformed Groth16 scalar."
  stringToBigInt t

def parseUint256Tuple (value : List Text) (length : ℕ) : Throws (List ℤ) := do
  ensure (value.length = length) "Malformed Groth16 proof calldata."
  value.mapM toSnarkBigInt

def parseUint256Matrix3x2 (value : List (List Text)) : Throws (List (List ℤ)) := do
  ensure (value.length = 3) "Malformed Groth16 proof calldata."
  value.mapM fun row => parseUint256Tuple row 2

def encodeGroth16ProofChunks (chunks : List ℤ) : Text :=
  '0' :: 'x' :: chunks.flatMap fun value => padStart 64 '0' (toString16 value)

/-- The orders in which the second point may be written, as rows and columns. -/
def bVariants : List (List (ℕ × ℕ)) :=
  [[(0, 1), (0, 0), (1, 1), (1, 0)], [(0, 0), (0, 1), (1, 0), (1, 1)],
    [(0, 0), (1, 0), (0, 1), (1, 1)], [(1, 0), (0, 0), (1, 1), (0, 1)],
    [(0, 1), (1, 1), (0, 0), (1, 0)], [(1, 1), (0, 1), (1, 0), (0, 0)]]

def proofObjectToCandidateBytes (proof : Groth16Proof) : Throws (List Text) := do
  let tupleA ← parseUint256Tuple proof.piA 3
  let matrixB ← parseUint256Matrix3x2 proof.piB
  let tupleC ← parseUint256Tuple proof.piC 3
  let candidates := bVariants.map fun entries => encodeGroth16ProofChunks
    (tupleA.take 2 ++ entries.map (fun e => (matrixB.getD e.1 []).getD e.2 0) ++ tupleC.take 2)
  return candidates.eraseDups

/-! ### Hashes -/

/-- `BigInt(text)` as a value of type `uint256`, which the encoder refuses below zero. -/
def uint256OfString (t : Text) : Throws ℕ := do
  let value ← stringToBigInt t
  ensure (0 ≤ value) "IntegerOutOfRangeError"
  return value.toNat

def toCircuitScalar (value : Text) : Throws Text := do
  let value ← stringToBigInt value
  return toString10 value

def toBytes32 (value : Text) : Throws Text := do
  let value ← stringToBigInt value
  return padHex32OfInt value

section Code
variable (v : Viem)

/-- `DEPOSIT_SELECTOR`. -/
def depositSelector : Text := (hashDomainSeparator v "deposit(bytes,bytes32[],bytes)").take 10

def encryptedDepositNoteValues (i : BrowserDepositProofInput) : List AbiValue :=
  [.bytes32 (hashDomainSeparator v "nullark.encrypted-note.v1"), .uint256 1, .uint256 i.chainId,
    .address i.pool, .bytes32 (hashDomainSeparator v "deposit_context_v1_2"),
    .bytes4 (depositSelector v), .bytes32 zeroBytes32, .bytes32 i.commitment,
    .bytes i.encryptedNote]

def depositContextValues (i : BrowserDepositProofInput) (amount : ℕ)
    (encryptedDepositNoteHash : Text) : List AbiValue :=
  [.bytes32 (hashDomainSeparator v "nullark.deposit-context.v1"), .uint256 1, .uint256 i.chainId,
    .address i.pool, .bytes32 (hashDomainSeparator v "deposit_context_v1_2"),
    .bytes4 (depositSelector v), .bytes32 i.commitment, .uint256 amount,
    .bytes32 encryptedDepositNoteHash]

def hashEncryptedDepositNote (i : BrowserDepositProofInput) : Throws Hashed :=
  hashValues v uncheckedRules (encryptedDepositNoteValues v i)

def hashDepositContext (i : BrowserDepositProofInput) (encryptedDepositNoteHash : Text) :
    Throws Hashed := do
  let amount ← uint256OfString i.amountWei
  hashValues v uncheckedRules (depositContextValues v i amount encryptedDepositNoteHash)

/-! ### The prover -/

/-- The witness and the two hashes in it. -/
structure Prepared where
  witness : ProverWitness
  depositContextHash : Text
  encryptedDepositNoteHash : Text
  deriving DecidableEq, Repr

/-- `generateBrowserDepositProof` up to the prover. -/
def depositWitness (i : BrowserDepositProofInput) : Throws Prepared := do
  let note ← hashEncryptedDepositNote v i
  let context ← hashDepositContext v i note.hash
  let commitment ← toCircuitScalar i.commitment
  let verifyingContract ← toCircuitScalar i.pool
  let depositContextHash ← toCircuitScalar context.hash
  let encryptedDepositNoteHash ← toCircuitScalar note.hash
  let assetId ← toCircuitScalar i.assetId
  let ownerCommitment ← toCircuitScalar i.ownerCommitment
  let noteSecret ← toCircuitScalar i.noteSecret
  let chainId := Decimal.ofNat i.chainId
  return {
    witness :=
      { commitment, amount := i.amountWei, chainId, verifyingContract, depositContextHash
        encryptedDepositNoteHash, assetId, ownerCommitment, noteSecret, expectedChainId := chainId
        expectedVerifyingContract := verifyingContract
        expectedDepositContextHash := depositContextHash
        expectedEncryptedDepositNoteHash := encryptedDepositNoteHash }
    depositContextHash := context.hash
    encryptedDepositNoteHash := note.hash }

/-- The public inputs that are expected. -/
def expectedPublicInputs (i : BrowserDepositProofInput) (p : Prepared) : Throws (List Text) := do
  let amount ← toBytes32 i.amountWei
  return [i.commitment, amount, padHex32 i.chainId,
    addressText32 i.pool, p.depositContextHash, p.encryptedDepositNoteHash].map lower

def assertDepositPublicInputs (publicInputs : List Text) (i : BrowserDepositProofInput)
    (p : Prepared) : Throws Unit := do
  let expected ← expectedPublicInputs i p
  ensure (publicInputs.length = expected.length)
    "v1.2 deposit proof must contain exactly 6 public inputs."
  ensure (publicInputs.map lower = expected)
    "v1.2 deposit proof public inputs do not match the prepared deposit."

/-- **`generateBrowserDepositProof`**, for a prover. -/
def generateBrowserDepositProof (fullProve : ProverWitness → Throws Generated)
    (i : BrowserDepositProofInput) : Throws BrowserDepositProofResult := do
  let prepared ← depositWitness v i
  let generated ← fullProve prepared.witness
  let proofCandidates ← proofObjectToCandidateBytes generated.proof
  let publicInputs ← generated.publicSignals.mapM toBytes32
  assertDepositPublicInputs publicInputs i prepared
  return {
    proof := proofCandidates.headD "0x".toList
    proofCandidates, publicInputs
    depositContextHash := prepared.depositContextHash
    encryptedDepositNoteHash := prepared.encryptedDepositNoteHash }

end Code

/-! ### What is prepared -/

/-- The selector of a signature: the first four bytes of its digest. -/
def selectorOf (env : Env) (signature : String) : Bytes4 :=
  BitVec.ofNat 32 ((env.keccak256 (utf8 signature)).toNat / 2 ^ 224)

/-- **A deposit that can be prepared**: a note of a supported amount, up to the spelling of the
pool. -/
structure BrowserDepositProofInput.Fits (i : BrowserDepositProofInput) : Prop where
  commitment : isHexBytes32 i.commitment
  amountWei : Decimal.isDecimal i.amountWei
  supported : isSupportedDenomination (Decimal.value i.amountWei)
  chainId : i.chainId = 6343 ∨ i.chainId = 4326
  pool : isEvmAddress i.pool
  assetId : isHexBytes32 i.assetId
  ownerCommitment : isHexBytes32 i.ownerCommitment
  noteSecret : isHexBytes32 i.noteSecret
  encryptedNote : isHexString i.encryptedNote

def BrowserDepositProofInput.amount (i : BrowserDepositProofInput) : ℕ := Decimal.value i.amountWei

/-- The hash of the encrypted note, as the pool computes it. -/
def BrowserDepositProofInput.noteHash (env : Env) (selector : Bytes4)
    (i : BrowserDepositProofInput) : Bytes32 :=
  depositEncryptedNoteHash env selector (word i.commitment) (hexBytes i.encryptedNote)

/-- The hash of the deposit, as the pool computes it. -/
def BrowserDepositProofInput.contextHash (env : Env) (selector : Bytes4)
    (i : BrowserDepositProofInput) : Bytes32 :=
  depositContextHash env selector (word i.commitment) (BitVec.ofNat 256 i.amount)
    (i.noteHash env selector)

/-- What is prepared, with the hashes of the pool. -/
def poolPrepared (env : Env) (selector : Bytes4) (i : BrowserDepositProofInput) : Prepared where
  witness :=
    { commitment := Decimal.ofNat (hexNat i.commitment)
      amount := i.amountWei
      chainId := Decimal.ofNat i.chainId
      verifyingContract := Decimal.ofNat (hexNat i.pool)
      depositContextHash := Decimal.ofNat (i.contextHash env selector).toNat
      encryptedDepositNoteHash := Decimal.ofNat (i.noteHash env selector).toNat
      assetId := Decimal.ofNat (hexNat i.assetId)
      ownerCommitment := Decimal.ofNat (hexNat i.ownerCommitment)
      noteSecret := Decimal.ofNat (hexNat i.noteSecret)
      expectedChainId := Decimal.ofNat i.chainId
      expectedVerifyingContract := Decimal.ofNat (hexNat i.pool)
      expectedDepositContextHash := Decimal.ofNat (i.contextHash env selector).toNat
      expectedEncryptedDepositNoteHash := Decimal.ofNat (i.noteHash env selector).toNat }
  depositContextHash := hex32 (i.contextHash env selector)
  encryptedDepositNoteHash := hex32 (i.noteHash env selector)

theorem uint256OfString_of_isDecimal {t : Text} (h : Decimal.isDecimal t) :
    uint256OfString t = .ok (Decimal.value t) := by
  unfold uint256OfString
  rw [stringToBigInt_of_isDecimal h, ok_bind, ensure_of (Int.natCast_nonneg _), ok_bind]
  rfl

theorem toCircuitScalar_of_isHexOfLength {n : ℕ} {t : Text} (hn : 0 < n)
    (h : isHexOfLength n t) : toCircuitScalar t = .ok (Decimal.ofNat (hexNat t)) := by
  unfold toCircuitScalar
  rw [stringToBigInt_of_isHexOfLength hn h, ok_bind]
  rfl

theorem toCircuitScalar_hex32 (x : Bytes32) :
    toCircuitScalar (hex32 x) = .ok (Decimal.ofNat x.toNat) := by
  rw [toCircuitScalar_of_isHexOfLength (by decide) (isHexBytes32_hex32 x), hexNat_hex32]

section Spec
variable {v : Viem} {env : Env} (hv : Documented v env.keccak256) {i : BrowserDepositProofInput}
include hv

theorem depositSelector_eq : depositSelector v =
    '0' :: 'x' :: fixed 8 ((env.keccak256 (utf8 "deposit(bytes,bytes32[],bytes)")).toNat /
      16 ^ 56) := by
  unfold depositSelector
  rw [hashDomainSeparator_eq hv, hex32, List.take_succ_cons, List.take_succ_cons,
    take_fixed 8 56]

theorem isHexBytes4_depositSelector : isHexBytes4 (depositSelector v) := by
  rw [depositSelector_eq hv]
  exact ⟨length_fixed _ _, digits_fixed _ _⟩

theorem bytes4_depositSelector : Js.Bytes.bytes4 (depositSelector v) =
    selectorOf env "deposit(bytes,bytes32[],bytes)" := by
  have hpow : (16 : ℕ) ^ 56 = 2 ^ 224 := by norm_num
  have hword : (16 : ℕ) ^ 8 = 2 ^ 32 := by norm_num
  rw [depositSelector_eq hv, Js.Bytes.bytes4, hexNat, List.drop_succ_cons, List.drop_succ_cons,
    List.drop_zero, value_fixed, selectorOf, hpow, hword]
  refine BitVec.eq_of_toNat_eq ?_
  rw [BitVec.toNat_ofNat, BitVec.toNat_ofNat, Nat.mod_mod]

theorem encode_encryptedDepositNote (hplace : Deployed env i.chainId i.pool) :
    encode ((encryptedDepositNoteValues v i).map (·.component)) =
      encryptedNotePreimage env (depositEncryptedNote env
        (selectorOf env "deposit(bytes,bytes32[],bytes)") (word i.commitment)
        (hexBytes i.encryptedNote)) := by
  rw [encryptedNotePreimage, hplace.chainId, hplace.this]
  simp only [encryptedDepositNoteValues, hashDomainSeparator_eq hv, List.map_cons, List.map_nil,
    AbiValue.component, word_hex32, bytes4_depositSelector hv, depositEncryptedNote, zeroBytes32,
    depositContextShape, encryptedNoteHashDomain, encryptedNoteVersion]

theorem encode_depositContext (hplace : Deployed env i.chainId i.pool) (amount : ℕ)
    (noteHash : Bytes32) :
    encode ((depositContextValues v i amount (hex32 noteHash)).map (·.component)) =
      depositContextPreimage env (selectorOf env "deposit(bytes,bytes32[],bytes)")
        (word i.commitment) (BitVec.ofNat 256 amount) noteHash := by
  rw [depositContextPreimage, hplace.chainId, hplace.this]
  simp only [depositContextValues, hashDomainSeparator_eq hv, List.map_cons, List.map_nil,
    AbiValue.component, word_hex32, bytes4_depositSelector hv, depositContextShape,
    depositContextDomain, proofContextVersion]

/-- The note is hashed as the pool hashes it, unless the pool is misspelled. -/
theorem hashEncryptedDepositNote_eq_ok (hi : i.Fits) (hplace : Deployed env i.chainId i.pool)
    {h : Hashed} : hashEncryptedDepositNote v i = .ok h ↔ isAddress v i.pool ∧
      h = poolHashed env (encryptedNotePreimage env (depositEncryptedNote env
        (selectorOf env "deposit(bytes,bytes32[],bytes)") (word i.commitment)
        (hexBytes i.encryptedNote))) := by
  have hchain : i.chainId < 2 ^ 256 := by rcases hi.chainId with h | h <;> rw [h] <;> norm_num
  have hone : 1 < 2 ^ 256 := by norm_num
  have hbut : ∀ x ∈ encryptedDepositNoteValues v i, x.FitsButAddress := by
    simp only [encryptedDepositNoteValues, List.forall_mem_cons, AbiValue.FitsButAddress]
    exact ⟨isHexBytes32_hashDomainSeparator hv _, hone, hchain, hi.pool,
      isHexBytes32_hashDomainSeparator hv _, isHexBytes4_depositSelector hv, isHexBytes32_hex32 0,
      hi.commitment, hi.encryptedNote, fun _ h => absurd h List.not_mem_nil⟩
  unfold hashEncryptedDepositNote
  rw [hashValues_eq_ok hv accepting_uncheckedRules hbut, encode_encryptedDepositNote hv hplace]
  rw [forall_fits_iff hbut]
  simp [encryptedDepositNoteValues]

/-- The deposit is hashed as the pool hashes it, unless the pool is misspelled. -/
theorem hashDepositContext_eq_ok (hi : i.Fits) (hplace : Deployed env i.chainId i.pool)
    {noteHash : Bytes32} {h : Hashed} :
    hashDepositContext v i (hex32 noteHash) = .ok h ↔ isAddress v i.pool ∧
      h = poolHashed env (depositContextPreimage env
        (selectorOf env "deposit(bytes,bytes32[],bytes)") (word i.commitment)
        (BitVec.ofNat 256 i.amount) noteHash) := by
  have hchain : i.chainId < 2 ^ 256 := by rcases hi.chainId with h | h <;> rw [h] <;> norm_num
  have hone : 1 < 2 ^ 256 := by norm_num
  have hamount : i.amount < 2 ^ 256 := (le_of_supported hi.supported).trans_lt (by norm_num)
  have hbut : ∀ x ∈ depositContextValues v i i.amount (hex32 noteHash), x.FitsButAddress := by
    simp only [depositContextValues, List.forall_mem_cons, AbiValue.FitsButAddress]
    exact ⟨isHexBytes32_hashDomainSeparator hv _, hone, hchain, hi.pool,
      isHexBytes32_hashDomainSeparator hv _, isHexBytes4_depositSelector hv, hi.commitment,
      hamount, isHexBytes32_hex32 _, fun _ h => absurd h List.not_mem_nil⟩
  unfold hashDepositContext
  rw [uint256OfString_of_isDecimal hi.amountWei, ok_bind]
  change hashValues v uncheckedRules (depositContextValues v i i.amount (hex32 noteHash)) = .ok h ↔ _
  rw [hashValues_eq_ok hv accepting_uncheckedRules hbut, encode_depositContext hv hplace]
  rw [forall_fits_iff hbut]
  simp [depositContextValues]

/-- **What is prepared**: the witness of the pool, unless the pool is misspelled. -/
theorem depositWitness_eq_ok (hi : i.Fits) (hplace : Deployed env i.chainId i.pool)
    {p : Prepared} : depositWitness v i = .ok p ↔ isAddress v i.pool ∧
      p = poolPrepared env (selectorOf env "deposit(bytes,bytes32[],bytes)") i := by
  have hcommitment := toCircuitScalar_of_isHexOfLength (by decide) hi.commitment
  have hpool := toCircuitScalar_of_isHexOfLength (by decide) hi.pool
  have hasset := toCircuitScalar_of_isHexOfLength (by decide) hi.assetId
  have howner := toCircuitScalar_of_isHexOfLength (by decide) hi.ownerCommitment
  have hsecret := toCircuitScalar_of_isHexOfLength (by decide) hi.noteSecret
  unfold depositWitness
  simp only [bind_eq_ok, pure_eq_ok, hashEncryptedDepositNote_eq_ok hv hi hplace, hcommitment, hpool,
    hasset, howner, hsecret, Except.ok.injEq, exists_eq_left', and_assoc, exists_and_left,
    exists_eq_left, poolHashed, hashDepositContext_eq_ok hv hi hplace, toCircuitScalar_hex32]
  constructor
  · rintro ⟨haddress, _, rfl⟩
    exact ⟨haddress, rfl⟩
  · rintro ⟨haddress, rfl⟩
    exact ⟨haddress, haddress, rfl⟩

end Spec

/-! ### The circuit -/

def ProverWitness.public (w : ProverWitness) : DepositPublic where
  commitment := signal w.commitment
  amount := signal w.amount
  chainId := signal w.chainId
  verifyingContract := signal w.verifyingContract
  depositContextHash := signal w.depositContextHash
  encryptedDepositNoteHash := signal w.encryptedDepositNoteHash

def ProverWitness.private (w : ProverWitness) : DepositWitness where
  assetId := signal w.assetId
  ownerCommitment := signal w.ownerCommitment
  noteSecret := signal w.noteSecret
  expectedChainId := signal w.expectedChainId
  expectedVerifyingContract := signal w.expectedVerifyingContract
  expectedDepositContextHash := signal w.expectedDepositContextHash
  expectedEncryptedDepositNoteHash := signal w.expectedEncryptedDepositNoteHash

/-- The note that is deposited. -/
def BrowserDepositProofInput.note (i : BrowserDepositProofInput) : Note :=
  ⟨toField (word i.assetId), (i.amount : F), toField (word i.ownerCommitment),
    toField (word i.noteSecret)⟩

/-- **The witness satisfies the circuit** when the commitment is that of the note. -/
theorem depositCircuit_poolPrepared {t : Templates} (ht : Circuit.Gadgets.Documented t) {env : Env}
    {selector : Bytes4} {i : BrowserDepositProofInput} (hi : i.Fits)
    (hcommitment : toField (word i.commitment) = poseidonNoteCommitment t i.note) :
    DepositCircuit t (poolPrepared env selector i).witness.public
      (poolPrepared env selector i).witness.private := by
  have hhash : ∀ preimage, (hashToField env preimage).toNat < 2 ^ 254 := fun preimage => by
    rw [toNat_hashToField]
    exact (Nat.mod_lt _ (by decide)).trans (by decide)
  have hamount : signal i.amountWei = (i.amount : F) := signal_of_isDecimal hi.amountWei
  have hdenomination := le_of_supported hi.supported
  refine ⟨?_, rfl, rfl, rfl, rfl, ?_, ?_, ?_, ?_, ?_, ?_, ?_⟩
  · change (signal (Decimal.ofNat i.chainId) - 6343) * (signal (Decimal.ofNat i.chainId) - 4326) = 0
    rw [signal_ofNat]
    rcases hi.chainId with h | h <;> rw [h] <;> norm_num
  · refine (ht.num2Bits _ _).mpr ⟨i.amount, ?_, hamount.symm⟩
    exact hdenomination.trans_lt (by norm_num)
  · refine (ht.num2Bits _ _).mpr ⟨(signal (Decimal.ofNat (hexNat i.commitment))).val, ?_,
      ZMod.natCast_zmod_val _⟩
    exact (val_lt _).trans (by decide)
  · refine (ht.num2Bits _ _).mpr ⟨hexNat i.pool, ?_, (signal_ofNat _).symm⟩
    exact (hexNat_lt hi.pool).trans_le (by norm_num)
  · exact (ht.num2Bits _ _).mpr ⟨_, hhash _, (signal_ofNat _).symm⟩
  · exact (ht.num2Bits _ _).mpr ⟨_, hhash _, (signal_ofNat _).symm⟩
  · exact amountInDenoms_iff.mpr ⟨i.amount, hi.supported, hamount⟩
  · change signal (Decimal.ofNat (hexNat i.commitment)) = poseidonNoteCommitment t
      ⟨signal (Decimal.ofNat (hexNat i.assetId)), signal i.amountWei,
        signal (Decimal.ofNat (hexNat i.ownerCommitment)),
        signal (Decimal.ofNat (hexNat i.noteSecret))⟩
    rw [signal_ofNat, signal_ofNat, signal_ofNat, signal_ofNat, hamount, natCast_hexNat hi.commitment,
      natCast_hexNat hi.assetId, natCast_hexNat hi.ownerCommitment, natCast_hexNat hi.noteSecret]
    exact hcommitment

/-! ### The pool -/

theorem lower_padHex32OfInt_inj {x : ℤ} {t : Text} (ht : isHexBytes32 t)
    (h : lower (padHex32OfInt x) = lower t) : isHexBytes32 (padHex32OfInt x) := by
  obtain ⟨digits, rfl, hlen, hd⟩ := isHexOfLength_iff.mp ht
  rw [padHex32OfInt, lower_cons_hex, lower_cons_hex] at h
  simp only [List.cons.injEq, true_and] at h
  refine ⟨?_, digits_of_lower (h ▸ digits_lower hd)⟩
  rw [← length_lower, h, length_lower, hlen]

/-- The texts of the public inputs that are expected are those of these words. -/
def poolInputs (env : Env) (selector : Bytes4) (i : BrowserDepositProofInput) : List Bytes32 :=
  [word i.commitment, BitVec.ofNat 256 i.amount, env.chainId, addressToBytes32 env.this,
    i.contextHash env selector, i.noteHash env selector]

theorem expectedPublicInputs_poolPrepared {env : Env} {selector : Bytes4}
    {i : BrowserDepositProofInput} (hi : i.Fits) (hplace : Deployed env i.chainId i.pool) :
    expectedPublicInputs i (poolPrepared env selector i) =
      .ok ((poolInputs env selector i).map hex32) := by
  have hchain : i.chainId < 2 ^ 256 := by rcases hi.chainId with h | h <;> rw [h] <;> norm_num
  have hamount : i.amount < 2 ^ 256 := (le_of_supported hi.supported).trans_lt (by norm_num)
  have hbytes : toBytes32 i.amountWei = .ok (padHex32 i.amount) := by
    unfold toBytes32
    rw [stringToBigInt_of_isDecimal hi.amountWei, ok_bind, padHex32OfInt_natCast]
    rfl
  have hcommitment : lower i.commitment = hex32 (word i.commitment) := (hex32_word hi.commitment).symm
  unfold expectedPublicInputs
  rw [hbytes, ok_bind, addressText32_eq hi.pool, padHex32_eq_hex32 hchain, padHex32_eq_hex32 hamount,
    ← hplace.chainId, ← hplace.this]
  simp only [poolInputs, poolPrepared, List.map_cons, List.map_nil, hcommitment, lower_hex32]
  rfl

/-- **Public inputs that are returned pass the checks of the pool**, for any prover. -/
theorem depositArguments_generate {v : Viem} {env : Env} (hv : Documented v env.keccak256)
    {selector : Bytes4} (hselector : selectorOf env "deposit(bytes,bytes32[],bytes)" = selector)
    {i : BrowserDepositProofInput} (hi : i.Fits)
    (hplace : Deployed env i.chainId i.pool) (hne : word i.commitment ≠ 0)
    (hfield : isFieldElement (word i.commitment))
    (hnote : 1 ≤ (hexBytes i.encryptedNote).length ∧ (hexBytes i.encryptedNote).length ≤ 2048)
    {fullProve : ProverWitness → Throws Generated} {r : BrowserDepositProofResult}
    (h : generateBrowserDepositProof v fullProve i = .ok r) {msg : Msg}
    (hvalue : msg.value = i.amount) :
    (∀ text ∈ r.publicInputs, isHexBytes32 text) ∧
      DepositArguments env msg (r.publicInputs.map word) (hexBytes i.encryptedNote) selector := by
  subst hselector
  unfold generateBrowserDepositProof at h
  simp only [bind_eq_ok, pure_eq_ok, depositWitness_eq_ok hv hi hplace] at h
  obtain ⟨p, ⟨-, rfl⟩, generated, -, candidates, -, inputs, hinputs, _, hassert, rfl⟩ := h
  unfold assertDepositPublicInputs at hassert
  simp only [expectedPublicInputs_poolPrepared hi hplace, ok_bind, bind_eq_ok, ensure_eq_ok,
    exists_const] at hassert
  obtain ⟨-, hlower⟩ := hassert
  have hwords : inputs.map word =
      poolInputs env (selectorOf env "deposit(bytes,bytes32[],bytes)") i := by
    have hmap : (inputs.map lower).map word = inputs.map word := by
      rw [List.map_map]
      exact List.map_congr_left fun text _ => word_of_lower text
    rw [← hmap, hlower, List.map_map]
    exact List.map_id'' (fun x => word_hex32 x) _
  refine ⟨fun text htext => ?_, ?_⟩
  · obtain ⟨signal, -, hsignal⟩ := mem_of_mapM_eq_ok hinputs htext
    have hmem : lower text ∈ inputs.map lower := List.mem_map_of_mem htext
    rw [hlower, List.mem_map] at hmem
    obtain ⟨x, -, hx⟩ := hmem
    unfold toBytes32 at hsignal
    simp only [bind_eq_ok, pure_eq_ok] at hsignal
    obtain ⟨value, -, rfl⟩ := hsignal
    exact lower_padHex32OfInt_inj (isHexBytes32_hex32 x) (by rw [← hx, lower_hex32])
  · change DepositArguments env msg (inputs.map word) _ _
    rw [hwords]
    have hlt : i.amount < 2 ^ 256 := (le_of_supported hi.supported).trans_lt (by norm_num)
    have hamount : (BitVec.ofNat 256 i.amount).toNat = i.amount := by
      rw [BitVec.toNat_ofNat, Nat.mod_eq_of_lt hlt]
    exact ⟨rfl, hne, hfield, hamount.trans hvalue.symm, hvalue ▸ pos_of_supported hi.supported,
      hvalue ▸ hi.supported, rfl, rfl, by omega, hnote.2, rfl, rfl⟩

/-! ### An honest prover -/

/-- **A proof in the shape of its three points**, whose coordinates are numbers. -/
structure Groth16Proof.WellFormed (proof : Groth16Proof) : Prop where
  piA : proof.piA.length = 3 ∧ ∀ t ∈ proof.piA, isSnarkScalar t
  piB : proof.piB.length = 3 ∧ ∀ row ∈ proof.piB, row.length = 2 ∧ ∀ t ∈ row, isSnarkScalar t
  piC : proof.piC.length = 3 ∧ ∀ t ∈ proof.piC, isSnarkScalar t

/-- The public signals of a witness, as a prover writes them. -/
def ProverWitness.publicSignals (w : ProverWitness) : List Text :=
  [w.public.commitment, w.public.amount, w.public.chainId, w.public.verifyingContract,
    w.public.depositContextHash, w.public.encryptedDepositNoteHash].map
      fun x : F => Decimal.ofNat x.val

theorem exists_toSnarkBigInt {t : Text} (h : isSnarkScalar t) : ∃ v, toSnarkBigInt t = .ok v := by
  unfold toSnarkBigInt
  rw [ensure_of h, ok_bind]
  rcases h with ⟨hhex, hlen, -⟩ | hdecimal
  · have hlength : isHexOfLength (t.length - 2) t := by
      unfold isHex at hhex
      split at hhex
      · exact ⟨rfl, hhex⟩
      · exact hhex.elim
    exact ⟨_, stringToBigInt_of_isHexOfLength (by omega) hlength⟩
  · exact ⟨_, stringToBigInt_of_isDecimal hdecimal⟩

theorem exists_parseUint256Tuple {value : List Text} {n : ℕ}
    (h : value.length = n ∧ ∀ t ∈ value, isSnarkScalar t) :
    ∃ tuple, parseUint256Tuple value n = .ok tuple := by
  unfold parseUint256Tuple
  rw [ensure_of h.1, ok_bind]
  exact exists_mapM_eq_ok fun t ht => exists_toSnarkBigInt (h.2 t ht)

theorem exists_candidates {proof : Groth16Proof} (h : proof.WellFormed) :
    ∃ candidates, proofObjectToCandidateBytes proof = .ok candidates := by
  obtain ⟨tupleA, hA⟩ := exists_parseUint256Tuple h.piA
  obtain ⟨tupleC, hC⟩ := exists_parseUint256Tuple h.piC
  obtain ⟨matrixB, hB⟩ : ∃ matrixB, parseUint256Matrix3x2 proof.piB = .ok matrixB := by
    unfold parseUint256Matrix3x2
    rw [ensure_of h.piB.1, ok_bind]
    exact exists_mapM_eq_ok fun row hrow => exists_parseUint256Tuple (h.piB.2 row hrow)
  unfold proofObjectToCandidateBytes
  rw [hA, ok_bind, hB, ok_bind, hC, ok_bind]
  exact ⟨_, rfl⟩

theorem toBytes32_ofNat (x : Bytes32) : toBytes32 (Decimal.ofNat x.toNat) = .ok (hex32 x) := by
  have hvalue : Decimal.value (Decimal.ofNat x.toNat) = x.toNat := Decimal.value_ofNat _
  unfold toBytes32
  rw [stringToBigInt_of_isDecimal (Decimal.isDecimal_ofNat _), ok_bind, hvalue,
    padHex32OfInt_natCast, padHex32_eq_hex32 x.isLt, BitVec.ofNat_toNat, BitVec.setWidth_eq]
  rfl

/-- The public signals are those of the words that the pool expects. -/
theorem publicSignals_poolPrepared {env : Env} {selector : Bytes4} {i : BrowserDepositProofInput}
    (hi : i.Fits) (hplace : Deployed env i.chainId i.pool)
    (hfield : isFieldElement (word i.commitment)) :
    (poolPrepared env selector i).witness.publicSignals =
      (poolInputs env selector i).map fun x => Decimal.ofNat x.toNat := by
  have hval : ∀ {n : ℕ} {x : Bytes32}, x.toNat = n → n < bn254ScalarField →
      Decimal.ofNat (signal (Decimal.ofNat n)).val = Decimal.ofNat x.toNat := by
    intro n x hx hn
    rw [signal_ofNat, ZMod.val_natCast_of_lt hn, hx]
  have hhash : ∀ preimage, (hashToField env preimage).toNat < bn254ScalarField := fun preimage => by
    rw [toNat_hashToField]
    exact Nat.mod_lt _ (by decide)
  have hlt : i.amount < bn254ScalarField :=
    (le_of_supported hi.supported).trans_lt (by decide)
  have hamount : (BitVec.ofNat 256 i.amount).toNat = i.amount := by
    rw [BitVec.toNat_ofNat, Nat.mod_eq_of_lt (hlt.trans (by decide))]
  have hchain : env.chainId.toNat = i.chainId := by
    rw [hplace.chainId, BitVec.toNat_ofNat, Nat.mod_eq_of_lt]
    rcases hi.chainId with h | h <;> rw [h] <;> norm_num
  have hpool : (addressToBytes32 env.this).toNat = hexNat i.pool := by
    rw [hplace.this, toNat_addressToBytes32, toNat_address hi.pool]
  have hdecimal : Decimal.ofNat (signal i.amountWei).val =
      Decimal.ofNat (BitVec.ofNat 256 i.amount).toNat := by
    rw [signal_of_isDecimal hi.amountWei, hamount]
    exact congrArg _ (ZMod.val_natCast_of_lt hlt)
  unfold ProverWitness.publicSignals poolInputs
  simp only [List.map_cons, List.map_nil, List.cons.injEq, and_true]
  refine ⟨hval (toNat_word hi.commitment) ?_, hdecimal, hval hchain ?_, hval hpool ?_,
    hval rfl (hhash _), hval rfl (hhash _)⟩
  · exact toNat_word hi.commitment ▸ hfield
  · rcases hi.chainId with h | h <;> rw [h] <;> decide
  · exact (hexNat_lt hi.pool).trans_le (by decide)

/-- **A prover that proves the witness makes the function return.** -/
theorem generate_honest {v : Viem} {env : Env} (hv : Documented v env.keccak256)
    {i : BrowserDepositProofInput} (hi : i.Fits) (hplace : Deployed env i.chainId i.pool)
    (hfield : isFieldElement (word i.commitment)) {p : Prepared} (hp : depositWitness v i = .ok p)
    {fullProve : ProverWitness → Throws Generated} {generated : Generated}
    (hprove : fullProve p.witness = .ok generated) (hproof : generated.proof.WellFormed)
    (hsignals : generated.publicSignals = p.witness.publicSignals) :
    ∃ r, generateBrowserDepositProof v fullProve i = .ok r := by
  obtain ⟨candidates, hcandidates⟩ := exists_candidates hproof
  obtain ⟨-, rfl⟩ := (depositWitness_eq_ok hv hi hplace).mp hp
  rw [publicSignals_poolPrepared hi hplace hfield] at hsignals
  have hinputs : generated.publicSignals.mapM toBytes32 =
      .ok ((poolInputs env (selectorOf env "deposit(bytes,bytes32[],bytes)") i).map hex32) := by
    rw [hsignals, List.mapM_map]
    exact mapM_ok fun x _ => toBytes32_ofNat x
  have hlower : ((poolInputs env (selectorOf env "deposit(bytes,bytes32[],bytes)") i).map
      hex32).map lower = (poolInputs env (selectorOf env "deposit(bytes,bytes32[],bytes)") i).map
        hex32 := by
    rw [List.map_map]
    exact List.map_congr_left fun x _ => lower_hex32 x
  unfold generateBrowserDepositProof assertDepositPublicInputs
  rw [hp, ok_bind, hprove, ok_bind, hcandidates, ok_bind, hinputs, ok_bind,
    expectedPublicInputs_poolPrepared hi hplace, ok_bind, ensure_of rfl, ok_bind,
    ensure_of hlower, ok_bind]
  exact ⟨_, rfl⟩

/-- **The deposits of the web app satisfy the circuit and the pool.** The prover is asked for the
witness that was prepared, which satisfies the circuit; once it has been proved the function returns,
and what it returns passes the checks of the pool, which takes the deposit when the commitment is new,
the proof verifies and there is room. -/
theorem deposit_accepted {t : Templates} {env : Env} {v : Viem}
    (ht : Circuit.Gadgets.Documented t) (hv : Documented v env.keccak256)
    (hselector : selectorOf env "deposit(bytes,bytes32[],bytes)" =
      (Call.deposit [] [] []).selector) {i : BrowserDepositProofInput} (hi : i.Fits)
    (hplace : Deployed env i.chainId i.pool)
    (hcommitment : word i.commitment = toWord (poseidonNoteCommitment t i.note))
    (hposeidon : poseidonNoteCommitment t i.note ≠ 0)
    (hnote : 1 ≤ (hexBytes i.encryptedNote).length ∧ (hexBytes i.encryptedNote).length ≤ 2048) :
    (isAddress v i.pool → ∃ p, depositWitness v i = .ok p) ∧
      (∀ p, depositWitness v i = .ok p →
        DepositCircuit t p.witness.public p.witness.private ∧
        (∀ fullProve fullProve' : ProverWitness → Throws Generated,
          fullProve p.witness = fullProve' p.witness →
          generateBrowserDepositProof v fullProve i = generateBrowserDepositProof v fullProve' i) ∧
        ∀ (fullProve : ProverWitness → Throws Generated) generated,
          fullProve p.witness = .ok generated → generated.proof.WellFormed →
          generated.publicSignals = p.witness.publicSignals →
          ∃ r, generateBrowserDepositProof v fullProve i = .ok r) ∧
      ∀ fullProve r, generateBrowserDepositProof v fullProve i = .ok r →
        (∃ p generated, depositWitness v i = .ok p ∧ fullProve p.witness = .ok generated) ∧
        ∀ (msg : Msg) (proof : Bytes), msg.value = i.amount →
          (∀ text ∈ r.publicInputs, isHexBytes32 text) ∧
            DepositArguments env msg (r.publicInputs.map word) (hexBytes i.encryptedNote)
              (Call.deposit proof (r.publicInputs.map word) (hexBytes i.encryptedNote)).selector ∧
            ∀ (verify : Verify) (w : World) leaves, msg.value ≤ w.balances msg.sender →
              ¬w.pool.entered → w.pool.accounting.totalDepositedAccounting + msg.value < wordSize →
              Recorded env.poseidon2 w.pool.roots leaves → leaves.length < merkleTreeCapacity →
              ¬w.pool.commitments (input (r.publicInputs.map word) 0) →
              verify proof (r.publicInputs.map word) →
              ∃ w', exec env verify w msg (.deposit proof (r.publicInputs.map word)
                (hexBytes i.encryptedNote)) = .ok (w', none) := by
  have hne : word i.commitment ≠ 0 := by
    rw [hcommitment]
    intro hzero
    have hfield := congrArg toField hzero
    rw [toField_toWord, toField_zero] at hfield
    exact hposeidon hfield
  have hfield : isFieldElement (word i.commitment) := hcommitment ▸ isFieldElement_toWord _
  refine ⟨fun haddress => ⟨_, (depositWitness_eq_ok hv hi hplace).mpr ⟨haddress, rfl⟩⟩,
    fun p hp => ⟨?_, fun fullProve fullProve' hsame => ?_, fun fullProve generated => ?_⟩,
    fun fullProve r hr => ⟨?_, fun msg proof hvalue => ?_⟩⟩
  · obtain ⟨-, rfl⟩ := (depositWitness_eq_ok hv hi hplace).mp hp
    exact depositCircuit_poolPrepared ht hi (by rw [hcommitment, toField_toWord])
  · unfold generateBrowserDepositProof
    rw [hp, ok_bind, ok_bind, hsame]
  · exact generate_honest hv hi hplace hfield hp
  · unfold generateBrowserDepositProof at hr
    obtain ⟨p, hp, hr⟩ := bind_eq_ok.mp hr
    obtain ⟨generated, hgenerated, -⟩ := bind_eq_ok.mp hr
    exact ⟨p, generated, hp, hgenerated⟩
  · obtain ⟨htexts, harguments⟩ :=
      depositArguments_generate hv hselector hi hplace hne hfield hnote hr hvalue
    refine ⟨htexts, harguments,
      fun verify w leaves hpaid hguard htotal hroots hroom hfresh hverified => ?_⟩
    have hchecked := depositChecked_iff.mpr ⟨harguments, hfresh, hverified⟩
    exact exec_deposit hpaid hguard hchecked htotal hroots hroom

/-! ### A deposit -/

/-- Templates whose hash adds its inputs. -/
def sumTemplates : Templates := documentedTemplates List.sum

/-- A deposit of the smallest amount, on templates whose hash adds its inputs. -/
def sampleInput : BrowserDepositProofInput where
  commitment := hex32 5000000000010007
  amountWei := "5000000000000000".toList
  chainId := 6343
  pool := addressText 0x5555555555555555555555555555555555555555
  assetId := hex32 1
  ownerCommitment := hex32 2
  noteSecret := hex32 3
  encryptedNote := "0x00".toList

def sampleProof : Groth16Proof where
  piA := ["1".toList, "2".toList, "1".toList]
  piB := [["3".toList, "4".toList], ["5".toList, "6".toList], ["1".toList, "0".toList]]
  piC := ["7".toList, "0x8".toList, "1".toList]

/-- A prover that proves every witness it is asked for. -/
def sampleProve (w : ProverWitness) : Throws Generated := .ok ⟨sampleProof, w.publicSignals⟩

theorem sampleInput_fits : sampleInput.Fits where
  commitment := isHexBytes32_hex32 _
  amountWei := by decide
  supported := by decide
  chainId := Or.inl rfl
  pool := isEvmAddress_addressText _
  assetId := isHexBytes32_hex32 _
  ownerCommitment := isHexBytes32_hex32 _
  noteSecret := isHexBytes32_hex32 _
  encryptedNote := by decide

theorem sampleInput_deployed : Deployed digitsEnv sampleInput.chainId sampleInput.pool :=
  ⟨rfl, (address_addressText _).symm⟩

theorem sampleInput_commitment :
    poseidonNoteCommitment sumTemplates sampleInput.note = ((5000000000010007 : ℕ) : F) := by
  have hamount : sampleInput.amount = 5000000000000000 := by decide
  have hword : ∀ n : ℕ, n < 2 ^ 256 → toField (word (hex32 (BitVec.ofNat 256 n))) = (n : F) := by
    intro n hn
    rw [word_hex32, toField, BitVec.toNat_ofNat, Nat.mod_eq_of_lt hn]
  have hasset : toField (word sampleInput.assetId) = ((1 : ℕ) : F) := hword 1 (by norm_num)
  have howner : toField (word sampleInput.ownerCommitment) = ((2 : ℕ) : F) := hword 2 (by norm_num)
  have hsecret : toField (word sampleInput.noteSecret) = ((3 : ℕ) : F) := hword 3 (by norm_num)
  change [10001, toField (word sampleInput.assetId), (sampleInput.amount : F),
    toField (word sampleInput.ownerCommitment), toField (word sampleInput.noteSecret)].sum = _
  rw [hasset, howner, hsecret, hamount]
  norm_num

/-- The deposit is prepared, its witness satisfies the circuit and is proved, and a new pool takes the
public inputs that are returned. -/
theorem deposit_accepted_sample : ∃ p r, depositWitness digitsViem sampleInput = .ok p ∧
    DepositCircuit sumTemplates p.witness.public p.witness.private ∧
    generateBrowserDepositProof digitsViem sampleProve sampleInput = .ok r ∧
    ∃ w', exec digitsEnv (fun _ _ => true) (freshWorld digitsEnv 5000000000000000) plainMsg
      (.deposit [] (r.publicInputs.map word) [0]) = .ok (w', none) :=
  have hword : word sampleInput.commitment =
      toWord (poseidonNoteCommitment sumTemplates sampleInput.note) := by
    have hsum : toWord ((5000000000010007 : ℕ) : F) = 5000000000010007 := by decide
    rw [sampleInput_commitment, hsum]
    exact word_hex32 _
  have hne : poseidonNoteCommitment sumTemplates sampleInput.note ≠ 0 := by
    rw [sampleInput_commitment]
    intro h
    have hnat := natCast_inj_of_lt (a := 5000000000010007) (b := 0) (by decide) (by decide)
      (by simpa using h)
    exact absurd hnat (by decide)
  have h := deposit_accepted (t := sumTemplates) (documented_documentedTemplates _)
    documented_digitsViem (by decide +kernel : selectorOf digitsEnv
      "deposit(bytes,bytes32[],bytes)" = (Call.deposit [] [] []).selector) sampleInput_fits
    sampleInput_deployed hword hne (by decide)
  let ⟨p, hp⟩ := h.1 (isAddress_addressText _ _)
  have hproof : sampleProof.WellFormed := ⟨by decide, by decide, by decide⟩
  let ⟨r, hr⟩ := (h.2.1 p hp).2.2 sampleProve _ rfl hproof rfl
  have hexec := ((h.2.2 sampleProve r hr).2 plainMsg [] (by decide)).2.2
  ⟨p, r, hp, (h.2.1 p hp).1, hr, hexec (fun _ _ => true) _ [] (by decide) Bool.false_ne_true
    (by decide) recorded_initial (by decide) Bool.false_ne_true rfl⟩

end Nullark.Web.DepositProver
