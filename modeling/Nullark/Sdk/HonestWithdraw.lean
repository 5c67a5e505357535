import Nullark.Agreement
import Nullark.Js.Signals
import Nullark.Pool.Capacity
import Nullark.Pool.Denominations
import Nullark.Sdk.Arguments

/-! # Withdrawals from the history of the pool

From the logs of a pool and a note in it the SDK builds a witness of the circuit, and public inputs
that pass the checks of the pool.

* `Honest`: a withdrawal as a wallet asks for it.
* `circuit_made`: the witness.
* `arguments_made`: the arguments of the call. -/

namespace Nullark.Sdk.HonestWithdraw

open Nullark.Lib Nullark.Lib.Outcome Nullark.Lib.Rollback Nullark.Lib.Merkle.Tree
open Nullark.Lib.Hex hiding value Digits ofNat
open Nullark.Evm.Basic Nullark.Pool.Interface Nullark.Pool.Context Nullark.Pool.Tree
open Nullark.Pool.Roots Nullark.Pool.Actions Nullark.Pool.Arguments Nullark.Pool.History
open Nullark.Pool.Checks Nullark.Pool.Effects Nullark.Pool.Solvency Nullark.Pool.Conservation
open Nullark.Pool.Capacity (bounded_reachable)
open Nullark.Pool.Denominations
open Nullark.Pool.Calls (Call exec)
open Nullark.Circuit.Field Nullark.Circuit.V12
open Nullark.Circuit.Gadgets (Templates Note amountInDenoms amountInDenoms_iff
  amountInDenomsOrZero_iff poseidonNoteCommitment poseidonNullifier poseidonMerkleMembership)
open Nullark.Verifier.ActionRouting Nullark.Agreement
open Nullark.Js.Basic Nullark.Js.Bytes Nullark.Js.Package Nullark.Js.TreeHash Nullark.Js.Signals
open Nullark.Js.ContextHashes Nullark.Js.OutputNoteEnvelope Nullark.Js.SpendMaterial
open Nullark.Js.WithdrawWitness Nullark.Sdk.Poseidon Nullark.Sdk.Withdraw Nullark.Sdk.Arguments

/-- The input of a withdrawal without its path, with the logs of the pool. -/
structure HistoryInput where
  note : SpendMaterialPlaintext
  destination : Text
  grossAmountWei : Option Text
  chainId : ℕ
  pool : Text
  merkleTreeDepth : ℕ
  withdrawalFeeBps : Option ℤ
  rootAcceptedLogs : List RootAcceptedLogRecord

def HistoryInput.withPath (i : HistoryInput) (path : Sdk.Merkle.ReconstructedMerklePath) :
    BuildInput where
  note := i.note
  merklePath :=
    { commitment := path.commitment, leafIndex := path.leafIndex, root := path.root
      pathElements := path.pathElements, pathIndices := path.pathIndices
      chainId := i.chainId, pool := i.pool }
  destination := i.destination
  grossAmountWei := i.grossAmountWei
  chainId := i.chainId
  pool := i.pool
  merkleTreeDepth := i.merkleTreeDepth
  withdrawalFeeBps := i.withdrawalFeeBps

/-- **`buildV12UnlinkableWithdrawalWitnessFromRootAcceptedLogs`**. -/
def buildV12UnlinkableWithdrawalWitnessFromRootAcceptedLogs (v : Viem) (hash : FieldHash)
    (providers : Providers) (input : HistoryInput) : Throws WitnessBundle := do
  let reconstructed ← Sdk.Merkle.reconstructMerklePathFromRootAcceptedLogs input.rootAcceptedLogs
    input.note.commitment hash input.merkleTreeDepth
  buildV12UnlinkableWithdrawalWitness v hash providers (input.withPath reconstructed)

/-! ### The signals of a witness -/

def publicSignals (w : WitnessTexts) : SpendPublic where
  root := signal w.root
  nullifier := signal w.nullifier
  outputCommitment := signal w.outputCommitment
  destination := signal w.destination
  grossAmount := signal w.grossAmount
  fee := signal w.fee
  chainId := signal w.chainId
  verifyingContract := signal w.verifyingContract
  proofContextHash := signal w.proofContextHash
  encryptedOutputNoteHash := signal w.encryptedOutputNoteHash

def privateSignals (w : WitnessTexts) : WithdrawWitness where
  assetId := signal w.assetId
  oldAmount := signal w.oldAmount
  ownerCommitment := signal w.ownerCommitment
  noteSecret := signal w.noteSecret
  leafIndex := signal w.leafIndex
  withdrawalDestination := signal w.withdrawalDestination
  outputAmount := signal w.outputAmount
  outputOwnerCommitment := signal w.outputOwnerCommitment
  outputNoteSecret := signal w.outputNoteSecret
  pathElements := w.pathElements.map signal
  expectedProofContextHash := signal w.expectedProofContextHash
  expectedEncryptedOutputNoteHash := signal w.expectedEncryptedOutputNoteHash

/-- A note of a wallet, in the field. -/
def noteOf (n : SpendMaterialPlaintext) : Note where
  assetId := (hexNat n.assetId : F)
  amount := (Decimal.value n.noteAmountWei : F)
  ownerCommitment := (hexNat n.ownerCommitment : F)
  noteSecret := (hexNat n.noteSecret : F)

theorem signal_decimalOfHex (t : Text) : signal (decimalOfHex t) = (hexNat t : F) := signal_ofNat _

/-- What a commitment hashes is the preimage of the note. -/
theorem cast_outputPreimage (n : SpendMaterialPlaintext) :
    (outputPreimage n.preimage).map (fun x : ℕ => (x : F)) = (noteOf n).preimage := by
  simp [outputPreimage, SpendMaterialPlaintext.preimage, noteOf, Note.preimage]

theorem cast_nullifierPreimage (i : NullifierInput) :
    (nullifierPreimage i).map (fun x : ℕ => (x : F)) = Circuit.Gadgets.nullifierPreimage
      (hexNat i.noteSecret : F) (i.leafIndex : F) (i.chainId : F) (hexNat i.verifyingContract : F) := by
  simp [nullifierPreimage, Circuit.Gadgets.nullifierPreimage]

section Hash
variable {t : Templates} {hash : FieldHash} (hhash : SameFieldHash t hash)
include hhash

/-- **The commitment of a note** of a wallet is the one of the circuits. -/
theorem toField_padHex32_commitment (n : SpendMaterialPlaintext) :
    toField (word (padHex32 (hash (outputPreimage n.preimage)))) =
      poseidonNoteCommitment t (noteOf n) := by
  have hword : hash (outputPreimage n.preimage) < 2 ^ 256 := (hhash.lt _).trans (by decide)
  rw [padHex32_eq_hex32 hword, word_hex32, toField, BitVec.toNat_ofNat, Nat.mod_eq_of_lt hword,
    hhash.agrees, cast_outputPreimage]
  rfl

theorem isHexBytes32_padHex32 (inputs : List ℕ) : isHexBytes32 (padHex32 (hash inputs)) := by
  rw [padHex32_eq_hex32 ((hhash.lt _).trans (by decide))]
  exact isHexBytes32_hex32 _

end Hash

/-! ### Honest withdrawals -/

/-- The path of a leaf of a world, as it is reconstructed. -/
def pathOf (env : Env) (w : World) (commitment : Text) (index : ℕ) :
    Sdk.Merkle.ReconstructedMerklePath where
  commitment := commitment
  leafIndex := index
  root := hex32 (treeRoot env.poseidon2 (leavesOf w))
  pathElements := (siblings env.poseidon2 (padded 0 (leavesOf w)) 0 index merkleTreeDepth).map hex32
  pathIndices := indexBits index merkleTreeDepth
  status := "reconstructed-from-root-accepted-history"

/-- The input with the path of its note. -/
def HistoryInput.located (i : HistoryInput) (env : Env) (w : World) (index : ℕ) : BuildInput :=
  i.withPath (pathOf env w i.note.commitment index)

/-- **A withdrawal as a wallet asks for it**: from the logs of the pool, for a note at a leaf of
the tree, of a denomination, at the rate of the pool. The random bytes are field elements that were
not used before, and no preimage of zero is known for the digest of the note. -/
structure Honest (env : Env) (v : Viem) (t : Templates) (K : List F → Prop) (w : World)
    (hash : FieldHash) (providers : Providers) (createdAt ciphertext : Text) (i : HistoryInput)
    (index : ℕ) : Prop where
  logs : i.rootAcceptedLogs = recordsOf w
  depth : i.merkleTreeDepth = merkleTreeDepth
  chainId : i.chainId = 6343 ∨ i.chainId = 4326
  pool : isAddress v i.pool
  deployed : Deployed env i.chainId i.pool
  note : NoteForPool i.note i.chainId i.pool
  commitment : deriveNoteCommitment hash i.note.preimage = .ok (lower i.note.commitment)
  leaf : (leavesOf w)[index]? = some (word i.note.commitment)
  destination : isAddress v i.destination ∧ i.destination ≠ zeroAddress
  gross : ∀ t ∈ i.grossAmountWei, Decimal.isDecimal t
  supported : isSupportedDenomination (grossAmount (i.located env w index))
  rest : oldAmount (i.located env w index) = grossAmount (i.located env w index) ∨
    ∃ d, isSupportedDenomination d ∧
      oldAmount (i.located env w index) = grossAmount (i.located env w index) + d
  rate : i.withdrawalFeeBps.getD defaultFeeBps = (w.pool.fees.feeBps : ℤ)
  randomBytes : ∀ call, (providers.randomBytes call).length = 32
  secrets : isBn254FieldElement (hexText (providers.randomBytes 0)) ∧
    isBn254FieldElement (hexText (providers.randomBytes 1))
  unused : ∀ notes, Opens t K (leavesOf w) notes → ∀ n ∈ notes,
    n.ownerCommitment = (hexNat (hexText (providers.randomBytes 0)) : F) →
    n.noteSecret ≠ (hexNat (hexText (providers.randomBytes 1)) : F)
  known : K (noteOf i.note).preimage
  outputKnown : K (noteOf (outputOf hash providers createdAt (i.located env w index))).preimage
  now : providers.now = .ok createdAt
  encrypted : outputAmount (i.located env w index) ≠ 0 → ∃ encrypt,
    providers.encryptOutputNote = some encrypt ∧
    encrypt (outputOf hash providers createdAt (i.located env w index)) = .ok ciphertext ∧
    isNonEmptyHex ciphertext ∧ hexByteLength ciphertext ≤ paddedCiphertextBytes
  digest : hashToField env (encryptedOutputNotePreimage env
    (hashesOf v hash providers createdAt ciphertext (i.located env w index)).note.read) ≠ 0

section Spec
variable {env : Env} {v : Viem} {t : Templates} {K : List F → Prop} {verifiers : Verifiers}
  {w : World} {hash : FieldHash} {providers : Providers} {createdAt ciphertext : Text}
  {i : HistoryInput} {index : ℕ}
  (ht : Circuit.Gadgets.Documented t) (hsame : SamePoseidon env.poseidon2 t)
  (hknown : Known env t K) (hhash : SameFieldHash t hash)
  (htracks : Tracks env w (leavesOf w)) (htree : TreeKnown t K (leavesOf w))
  (hnotes : Denominated t K (leavesOf w))
  (h : Honest env v t K w hash providers createdAt ciphertext i index)

include hknown hsame htracks htree in
/-- The root of a tree without known preimages of zero is not zero. -/
theorem isBn254FieldElement_root :
    isBn254FieldElement (hex32 (treeRoot env.poseidon2 (leavesOf w))) := by
  have hfield : ∀ c ∈ leavesOf w, isFieldElement c := fun c hc => (htracks.field c hc).2
  have hroot := toField_treeRoot hsame hfield
  have hk := htree 19 0 (by decide) (by decide)
  refine isBn254FieldElement_hex32 (fun hzero => ?_) (isFieldElement_treeRoot hsame hfield)
  rw [hzero, toField_zero] at hroot
  exact hknown.nonzero _ hk hroot.symm

include h hhash in
/-- The leaf commits to the note. -/
theorem toField_commitment : toField (word i.note.commitment) =
    poseidonNoteCommitment t (noteOf i.note) := by
  obtain ⟨-, -, heq⟩ := deriveNoteCommitment_eq_ok.mp h.commitment
  rw [← word_of_lower, heq]
  exact toField_padHex32_commitment hhash i.note

include h hknown hhash hnotes in
/-- **The note is worth a denomination.** -/
theorem oldAmount_supported : isSupportedDenomination (oldAmount (i.located env w index)) := by
  have hfits := (deriveNoteCommitment_eq_ok.mp h.commitment).1.noteAmountWei
  have hne : (noteOf i.note).amount ≠ 0 := by
    intro hzero
    have hcast : ((Decimal.value i.note.noteAmountWei : ℕ) : F) = ((0 : ℕ) : F) := by
      rw [Nat.cast_zero]
      exact hzero
    exact hfits.2.1.ne' (natCast_inj_of_lt hfits.2.2 (by decide) hcast)
  have hdenom := amount_supported hknown hnotes (List.mem_of_getElem? h.leaf)
    (toField_commitment hhash h) h.known hne
  obtain ⟨d, hd, heq⟩ := amountInDenoms_iff.mp hdenom
  have hvalue : Decimal.value i.note.noteAmountWei = d :=
    natCast_inj_of_lt hfits.2.2 (Circuit.Gadgets.lt_of_isSupportedDenomination hd) heq
  change isSupportedDenomination (Decimal.value i.note.noteAmountWei)
  rw [hvalue]
  exact hd

include h in
/-- The chain and the pool, in the field. -/
theorem toField_place : toField env.chainId = (i.chainId : F) ∧
    toField (addressToBytes32 env.this) = (hexNat i.pool : F) := by
  have hchain := h.chainId
  have hlt : i.chainId < 2 ^ 256 := lt_of_le_of_lt (by omega : i.chainId ≤ 6343) (by decide)
  constructor
  · rw [h.deployed.chainId, toField, BitVec.toNat_ofNat, Nat.mod_eq_of_lt hlt]
  · rw [h.deployed.this, toField, toNat_addressToBytes32, toNat_address h.pool.1]

include h hknown hhash in
theorem outputHash_ne :
    hash (outputPreimage (outputOf hash providers createdAt (i.located env w index)).preimage) ≠ 0 := by
  intro hzero
  have hnonzero := hknown.nonzero _ h.outputKnown
  rw [← cast_outputPreimage, ← hhash.agrees, hzero, Nat.cast_zero] at hnonzero
  exact hnonzero rfl

include htracks h in
theorem index_lt_capacity : index < merkleTreeCapacity := by
  have hlt : index < (leavesOf w).length := (List.getElem?_eq_some_iff.mp h.leaf).1
  exact hlt.trans_le htracks.recorded.grown.fits

include h hknown hhash htracks in
theorem nullifierHash_ne :
    hash (nullifierPreimage (nullifierInput (i.located env w index))) ≠ 0 := by
  intro hzero
  have hk := hknown.nullifiers (noteOf i.note) index h.known (index_lt_capacity htracks h)
  have hnonzero := hknown.nonzero _ hk
  rw [(toField_place h).1, (toField_place h).2] at hnonzero
  have hcast := cast_nullifierPreimage (nullifierInput (i.located env w index))
  have hhashed := hhash.agrees (nullifierPreimage (nullifierInput (i.located env w index)))
  rw [hzero, Nat.cast_zero, hcast] at hhashed
  exact hnonzero hhashed.symm

include hsame htracks h in
/-- The reconstructed path fits the note. -/
theorem pathFits_located : PathFits (i.located env w index).merklePath i.chainId i.pool
    i.note.commitment i.merkleTreeDepth := by
  have hfield : ∀ c ∈ leavesOf w, isFieldElement c := fun c hc => (htracks.field c hc).2
  have hnodes : ∀ l p, isFieldElement (node env.poseidon2 (padded 0 (leavesOf w)) l p) := fun l p =>
    (node_map (fun a b ha hb => ⟨hsame.field a b ha hb, (hsame.agrees a b ha hb).symm⟩)
      (padded_mem isFieldElement_zero hfield) l p).1
  refine ⟨rfl, rfl, rfl, ?_, ?_, ?_, ?_, ?_⟩
  · rw [h.depth]
    decide
  · rw [h.depth]
    exact index_lt_capacity htracks h
  · rw [h.depth]
    exact ⟨by rw [← length_siblings env.poseidon2 (padded 0 (leavesOf w)) 0 index merkleTreeDepth]
              exact List.length_map _, length_indexBits _ _⟩
  · intro element helement
    obtain ⟨x, hx, rfl⟩ := List.mem_map.mp helement
    refine ⟨isHexBytes32_hex32 x, ?_⟩
    rw [hexNat_hex32]
    exact siblings_mem env.poseidon2 hnodes 0 index merkleTreeDepth x hx
  · intro entry hentry
    have hbit := mem_zipIdx_indexBits index merkleTreeDepth 0 entry
    rw [pow_zero, Nat.div_one] at hbit
    exact hbit hentry

include h in
theorem outputAmount_spec : outputAmount (i.located env w index) = 0 ∨
    isSupportedDenomination (outputAmount (i.located env w index)) := by
  unfold outputAmount
  rcases h.rest with heq | ⟨d, hd, heq⟩
  · left
    omega
  · right
    rw [heq, Nat.add_sub_cancel_left]
    exact hd

include h hsame hknown hhash htracks htree hnotes in
/-- **The SDK accepts the withdrawal.** -/
theorem accepts_located (hfees : w.pool.fees.feeBps ≤ 100) :
    Accepts v hash providers createdAt ciphertext (i.located env w index) := by
  have hold := oldAmount_supported hknown hhash hnotes h
  have hdecimal := (deriveNoteCommitment_eq_ok.mp h.commitment).1.noteAmountWei
  have hle := le_of_supported hold
  have hgross := pos_of_supported h.supported
  have hrate := h.rate
  exact
    { note := h.note
      path := pathFits_located hsame htracks h
      root := isBn254FieldElement_root hsame hknown htracks htree
      destination := h.destination
      chainId := h.chainId
      pool := h.pool
      amount := ⟨hdecimal.1, pos_of_supported hold, by omega⟩
      gross := fun text htext => ⟨h.gross text htext, by
        have hsome : i.grossAmountWei = some text := htext
        have hamount : grossAmount (i.located env w index) = Decimal.value text := by
          change i.grossAmountWei.elim _ Decimal.value = _
          rw [hsome]
          rfl
        omega⟩
      gross_le := by
        rcases h.rest with heq | ⟨d, -, heq⟩ <;> omega
      rate := by
        change 0 ≤ i.withdrawalFeeBps.getD defaultFeeBps ∧ i.withdrawalFeeBps.getD defaultFeeBps ≤ 100
        omega
      randomBytes := h.randomBytes
      now := h.now
      encrypted := h.encrypted
      hash_lt := hhash.lt
      outputHash := outputHash_ne hknown hhash h
      nullifierHash := nullifierHash_ne hknown hhash htracks h
      commitment := h.commitment }

/-! ### The circuit -/

include hsame htracks h hhash ht in
/-- The signals of the path lead from the note to the root. -/
theorem membership_located : poseidonMerkleMembership t merkleTreeDepth
    (poseidonNoteCommitment t (noteOf i.note)) (index : F)
    ((i.located env w index).merklePath.pathElements.map fun e => signal (decimalOfHex e))
    (toField (treeRoot env.poseidon2 (leavesOf w))) := by
  have hfield : ∀ c ∈ leavesOf w, isFieldElement c := fun c hc => (htracks.field c hc).2
  have hindex := index_lt_capacity htracks h
  have hval : (index : F).val = index := by
    refine ZMod.val_natCast_of_lt (hindex.trans ?_)
    norm_num [merkleTreeCapacity, merkleTreeDepth, bn254ScalarField]
  have hpath : ((i.located env w index).merklePath.pathElements.map fun e =>
      signal (decimalOfHex e)) =
      siblings (Circuit.Gadgets.hashPair t) (fun j => toField (padded 0 (leavesOf w) j)) 0 index
        merkleTreeDepth := by
    rw [siblings_map env.poseidon2
      (fun a b ha hb => ⟨hsame.field a b ha hb, (hsame.agrees a b ha hb).symm⟩)
      (padded_mem isFieldElement_zero hfield)]
    change List.map _ (List.map hex32 _) = _
    rw [List.map_map]
    refine List.map_congr_left fun x _ => ?_
    rw [Function.comp_apply, signal_decimalOfHex, hexNat_hex32]
    rfl
  have hlt : index < (leavesOf w).length := (List.getElem?_eq_some_iff.mp h.leaf).1
  have hleaf : padded 0 (leavesOf w) index = word i.note.commitment := by
    rw [padded_of_lt hlt]
    exact (List.getElem?_eq_some_iff.mp h.leaf).2
  have hopen : poseidonNoteCommitment t (noteOf i.note) =
      (fun j => toField (padded 0 (leavesOf w) j)) index := by
    dsimp only
    rw [hleaf, toField_commitment hhash h]
  unfold poseidonMerkleMembership
  rw [hpath, ht.binaryMerkleRoot merkleTreeDepth _ _ _ _ (length_siblings ..), hval]
  refine ⟨hindex, ?_⟩
  rw [toField_treeRoot hsame hfield, hopen]
  exact (@climb_leaf _ (Circuit.Gadgets.hashPair t) (fun j => toField (padded 0 (leavesOf w) j)) _ _
    hindex).symm

/-- The bundle the SDK returns. -/
def bundleOf (env : Env) (v : Viem) (w : World) (hash : FieldHash) (providers : Providers)
    (createdAt ciphertext : Text) (i : HistoryInput) (index : ℕ) : WitnessBundle :=
  madeBundle env v hash providers createdAt ciphertext (i.located env w index)

theorem natCast_hexNat_padHex32 {n : ℕ} (hn : n < bn254ScalarField) :
    (hexNat (padHex32 n) : F) = (n : F) := by
  rw [hexNat_padHex32 (hn.trans (by decide))]

theorem isFieldElement_hashToField (env : Env) (encoded : Bytes) :
    isFieldElement (hashToField env encoded) := by
  rw [isFieldElement, toNat_hashToField]
  exact Nat.mod_lt _ (by decide)

theorem signal_hashToField (env : Env) (encoded : Bytes) :
    signal (decimalOfHex (hex32 (hashToField env encoded))) = toField (hashToField env encoded) := by
  rw [signal_decimalOfHex, hexNat_hex32]
  rfl

/-- The digest of the output note. -/
def noteDigest (env : Env) (v : Viem) (w : World) (hash : FieldHash) (providers : Providers)
    (createdAt ciphertext : Text) (i : HistoryInput) (index : ℕ) : Bytes32 :=
  hashToField env (encryptedOutputNotePreimage env
    (hashesOf v hash providers createdAt ciphertext (i.located env w index)).note.read)

/-- The digest of the context. -/
def contextDigest (env : Env) (v : Viem) (w : World) (hash : FieldHash) (providers : Providers)
    (createdAt ciphertext : Text) (i : HistoryInput) (index : ℕ) : Bytes32 :=
  let hashed := hashesOf v hash providers createdAt ciphertext (i.located env w index)
  hashToField env (proofContextPreimage env (hashed.context
    (hex32 (noteDigest env v w hash providers createdAt ciphertext i index))
    (hex32 (hashToField env (relayerPolicyPreimage env hashed.relayerPolicy.read)))).read)

variable (env v w providers createdAt ciphertext i index) in
include hhash in
/-- **The public signals**, in the field. -/
theorem publicSignals_made :
    publicSignals (bundleOf env v w hash providers createdAt ciphertext i index).witness =
      { root := toField (treeRoot env.poseidon2 (leavesOf w))
        nullifier := poseidonNullifier t (hexNat i.note.noteSecret : F) (index : F) (i.chainId : F)
          (hexNat i.pool : F)
        outputCommitment := poseidonNoteCommitment t
          (noteOf (outputOf hash providers createdAt (i.located env w index)))
        destination := (hexNat i.destination : F)
        grossAmount := (grossAmount (i.located env w index) : F)
        fee := (fee (i.located env w index) : F)
        chainId := (i.chainId : F)
        verifyingContract := (hexNat i.pool : F)
        proofContextHash :=
          toField (contextDigest env v w hash providers createdAt ciphertext i index)
        encryptedOutputNoteHash :=
          toField (noteDigest env v w hash providers createdAt ciphertext i index) } := by
  have hnullifier : signal (decimalOfHex (nullifierOf hash (i.located env w index))) =
      poseidonNullifier t (hexNat i.note.noteSecret : F) (index : F) (i.chainId : F)
        (hexNat i.pool : F) := by
    unfold Withdraw.nullifierOf
    rw [signal_decimalOfHex, natCast_hexNat_padHex32 (hhash.lt _), hhash.agrees,
      cast_nullifierPreimage]
    rfl
  have hcommitment : signal (decimalOfHex
      (outputOf hash providers createdAt (i.located env w index)).commitment) =
      poseidonNoteCommitment t
        (noteOf (outputOf hash providers createdAt (i.located env w index))) := by
    rw [signal_decimalOfHex, ← toField_padHex32_commitment hhash, outputOf_commitment]
    exact natCast_hexNat (isHexBytes32_padHex32 hhash _)
  have hroot : signal (decimalOfHex (hex32 (treeRoot env.poseidon2 (leavesOf w)))) =
      toField (treeRoot env.poseidon2 (leavesOf w)) := by
    rw [signal_decimalOfHex, hexNat_hex32]
    rfl
  unfold publicSignals bundleOf
  simp only [SpendPublic.mk.injEq]
  exact ⟨hroot, hnullifier, hcommitment,
    signal_decimalOfHex _, signal_ofNat _, signal_ofNat _, signal_ofNat _, signal_decimalOfHex _,
    signal_hashToField env _, signal_hashToField env _⟩

variable (env v w hash providers createdAt ciphertext i index) in
/-- **The private signals** are the two notes and the path. -/
theorem privateSignals_made :
    let x := privateSignals (bundleOf env v w hash providers createdAt ciphertext i index).witness
    x.note = noteOf i.note ∧
      x.outputNote = noteOf (outputOf hash providers createdAt (i.located env w index)) ∧
      x.leafIndex = (index : F) ∧
      x.pathElements = (i.located env w index).merklePath.pathElements.map fun e =>
        signal (decimalOfHex e) := by
  have hpath : ((bundleOf env v w hash providers createdAt ciphertext i index).witness.pathElements).map
      signal = (i.located env w index).merklePath.pathElements.map fun e => signal (decimalOfHex e) :=
    List.map_map
  refine ⟨?_, ?_, signal_ofNat index, hpath⟩
  · unfold WithdrawWitness.note noteOf
    rw [Note.mk.injEq]
    exact ⟨signal_decimalOfHex _, signal_ofNat _, signal_decimalOfHex _, signal_decimalOfHex _⟩
  · unfold WithdrawWitness.outputNote noteOf
    rw [Note.mk.injEq]
    have hamount : signal (Decimal.ofNat (outputAmount (i.located env w index))) =
        (Decimal.value (Decimal.ofNat (outputAmount (i.located env w index))) : F) := by
      rw [signal_ofNat, Decimal.value_ofNat]
    exact ⟨signal_decimalOfHex _, hamount, signal_decimalOfHex _, signal_decimalOfHex _⟩

include ht hsame hknown hhash htracks hnotes h in
/-- **The witness satisfies the circuit.** -/
theorem circuit_made
    (haccepts : Accepts v hash providers createdAt ciphertext (i.located env w index)) :
    WithdrawCircuit t merkleTreeDepth
      (publicSignals (bundleOf env v w hash providers createdAt ciphertext i index).witness)
      (privateSignals (bundleOf env v w hash providers createdAt ciphertext i index).witness) := by
  have hpublic := publicSignals_made env v w providers createdAt ciphertext i index hhash
  obtain ⟨hnote, houtputNote, hindex, hpath⟩ :=
    privateSignals_made env v w hash providers createdAt ciphertext i index
  have hbits : ∀ {n b : ℕ}, n < 2 ^ b → t.num2Bits b (n : F) := fun {n b} hn =>
    (ht.num2Bits b _).mpr ⟨n, hn, rfl⟩
  have hdigestBits : ∀ preimage, t.num2Bits 254 (toField (hashToField env preimage)) := fun _ =>
    hbits ((isFieldElement_hashToField env _).trans (by decide))
  have hsmall : ∀ n, n ≤ oldAmount (i.located env w index) → t.num2Bits 128 (n : F) := fun n hn =>
    hbits (lt_of_le_of_lt hn haccepts.amount.2.2)
  have hnonzero : ∀ x : F, x ≠ 0 → t.isZero x 0 := fun x hx => by rw [ht.isZero, if_neg hx]
  have hold := oldAmount_supported hknown hhash hnotes h
  have hgross_le := haccepts.gross_le
  have hamount : (privateSignals
      (bundleOf env v w hash providers createdAt ciphertext i index).witness).oldAmount =
      (oldAmount (i.located env w index) : F) := congrArg Note.amount hnote
  have houtput : (privateSignals
      (bundleOf env v w hash providers createdAt ciphertext i index).witness).outputAmount =
      (outputAmount (i.located env w index) : F) := by
    have hvalue : (noteOf (outputOf hash providers createdAt (i.located env w index))).amount =
        (outputAmount (i.located env w index) : F) := by
      change ((Decimal.value (Decimal.ofNat _) : ℕ) : F) = _
      rw [Decimal.value_ofNat]
    exact (congrArg Note.amount houtputNote).trans hvalue
  have hlength : (privateSignals
      (bundleOf env v w hash providers createdAt ciphertext i index).witness).pathElements.length =
      merkleTreeDepth := by
    rw [hpath, List.length_map, (pathFits_located hsame htracks h).length.1, h.depth]
  have hmember := membership_located ht hsame hhash htracks h
  rw [← hnote, ← hpath, ← hindex] at hmember
  have hdestination : (hexNat i.destination : F) = (privateSignals
      (bundleOf env v w hash providers createdAt ciphertext i index).witness).withdrawalDestination :=
    (signal_decimalOfHex i.destination).symm
  rw [hpublic]
  refine
    { pathElements := hlength
      supportedChain := ?_
      destination := hdestination
      proofContextHash := ?_
      encryptedOutputNoteHash := ?_
      oldAmountBits := hamount ▸ hsmall _ le_rfl
      grossAmountBits := hsmall _ hgross_le
      outputAmountBits := houtput ▸ hsmall _ (Nat.sub_le _ _)
      proofContextHashBits := hdigestBits _
      encryptedOutputNoteHashBits := hdigestBits _
      outputCommitmentIsZero := hnonzero _ (hknown.nonzero _ h.outputKnown)
      encryptedOutputNoteHashIsZero := hnonzero _ ?_
      conservation := ?_
      oldAmountDenom := amountInDenoms_iff.mpr ⟨_, hold, hamount⟩
      grossAmountDenom := amountInDenoms_iff.mpr ⟨_, h.supported, rfl⟩
      outputAmountDenom := amountInDenomsOrZero_iff.mpr ?_
      feeBits := hsmall _ ((fee_le haccepts).trans hgross_le)
      outputNote := by rw [houtputNote]
      verifyingContractBits := hbits ((hexNat_lt h.pool.1).trans_le (by norm_num))
      computedNullifier := ?_
      computedRoot := hmember }
  · rcases h.chainId with hchain | hchain
    · rw [hchain]
      norm_num
    · rw [hchain]
      norm_num
  · exact (signal_hashToField env _).symm
  · exact (signal_hashToField env _).symm
  · intro hzero
    refine h.digest (toField_injOn (isFieldElement_hashToField env _) isFieldElement_zero ?_)
    rw [toField_zero]
    exact hzero
  · have hsum : oldAmount (i.located env w index) =
        grossAmount (i.located env w index) + outputAmount (i.located env w index) :=
      (Nat.add_sub_cancel' hgross_le).symm
    rw [hamount, houtput, hsum, Nat.cast_add]
  · rcases outputAmount_spec h with hzero | hsupported
    · left
      rw [houtput, hzero, Nat.cast_zero]
    · exact Or.inr ⟨_, hsupported, houtput⟩
  · have hsecret : (privateSignals
        (bundleOf env v w hash providers createdAt ciphertext i index).witness).noteSecret =
        (hexNat i.note.noteSecret : F) := congrArg Note.noteSecret hnote
    rw [hindex, hsecret]

/-! ### The pool -/

include h hhash hknown in
/-- **The output commitment is new.** -/
theorem fresh_made {notes : List Note} (hopens : Opens t K (leavesOf w) notes) :
    word (outputOf hash providers createdAt (i.located env w index)).commitment ∉ leavesOf w := by
  intro hmem
  obtain ⟨j, hj⟩ := List.mem_iff_getElem?.mp hmem
  obtain ⟨n, hn, hopen, hk⟩ := hopens.getElem? hj
  have hcommitment : toField
      (word (outputOf hash providers createdAt (i.located env w index)).commitment) =
      poseidonNoteCommitment t
        (noteOf (outputOf hash providers createdAt (i.located env w index))) := by
    rw [outputOf_commitment]
    exact toField_padHex32_commitment hhash _
  have heq : n = noteOf (outputOf hash providers createdAt (i.located env w index)) :=
    note_unique hknown hk h.outputKnown (hopen.symm.trans hcommitment)
  refine h.unused notes hopens n (List.mem_of_getElem? hn) ?_ ?_
  · rw [heq]
    rfl
  · rw [heq]
    rfl

variable (hv : Js.Package.Documented v env.keccak256)

include h hsame hhash htracks hv in
/-- **The SDK returns the bundle.** -/
theorem build_made
    (haccepts : Accepts v hash providers createdAt ciphertext (i.located env w index)) :
    buildV12UnlinkableWithdrawalWitnessFromRootAcceptedLogs v hash providers i =
      .ok (bundleOf env v w hash providers createdAt ciphertext i index) := by
  obtain ⟨hlogs, -, hfield, hne, hfits⟩ := tracks_facts htracks
  have hpath := Sdk.Merkle.reconstruct_text (sameHash_of_sameFieldHash hhash hsame) hfield hne
    htracks.nodup hfits h.note.commitment.1 h.leaf
  unfold buildV12UnlinkableWithdrawalWitnessFromRootAcceptedLogs
  rw [h.logs, h.depth, hlogs, hpath, ok_bind]
  exact buildWitness_eq_ok.mpr ⟨_, built_made haccepts hv h.deployed, rfl⟩

include h hv in
omit hhash in
/-- The signals of the verifier are the public inputs. -/
theorem spendPublic_made
    (haccepts : Accepts v hash providers createdAt ciphertext (i.located env w index)) :
    spendPublic ((bundleOf env v w hash providers createdAt ciphertext i index).publicInputs.map
        word) =
      publicSignals (bundleOf env v w hash providers createdAt ciphertext i index).witness := by
  have hhex : ∀ {t : Text}, isHexBytes32 t → toField (word t) = signal (decimalOfHex t) := by
    intro t ht
    rw [signal_decimalOfHex, natCast_hexNat ht]
  have hhash : ∀ inputs, isHexBytes32 (padHex32 (hash inputs)) := by
    intro inputs
    rw [padHex32_eq_hex32 ((haccepts.hash_lt _).trans (by decide))]
    exact isHexBytes32_hex32 _
  have haddress : ∀ {t : Text}, isEvmAddress t →
      toField (addressToBytes32 (address t)) = signal (decimalOfHex t) := by
    intro t ht
    rw [signal_decimalOfHex, toField, toNat_addressToBytes32, toNat_address ht]
  have hnumber : ∀ {n : ℕ}, n < 2 ^ 256 →
      toField (BitVec.ofNat 256 n) = signal (Decimal.ofNat n) := by
    intro n hn
    rw [signal_ofNat, toField, toNat_ofNat_of_lt hn]
  have hgross_lt : grossAmount (i.located env w index) < 2 ^ 256 :=
    (grossAmount_lt haccepts).trans (by decide)
  have hfee_lt := lt_of_le_of_lt (fee_le haccepts) hgross_lt
  have hchain := haccepts.chainId
  have hchain_lt : (i.located env w index).chainId < 2 ^ 256 :=
    lt_of_le_of_lt (by omega : (i.located env w index).chainId ≤ 6343) (by decide)
  unfold bundleOf
  rw [publicInputs_made hv h.deployed haccepts]
  unfold publicSignals spendPublic
  rw [SpendPublic.mk.injEq]
  exact ⟨hhex haccepts.root.1, hhex (hhash _), hhex (hhash _), haddress haccepts.destination.1.1,
    hnumber hgross_lt, hnumber hfee_lt, hnumber hchain_lt, haddress haccepts.pool.1,
    hhex (isHexBytes32_hex32 _), hhex (isHexBytes32_hex32 _)⟩

include h hsame hknown hv htracks htree in
/-- **The pool checks the call** of the bundle, and what is left of the checks is on its state. -/
theorem checked_made
    (haccepts : Accepts v hash providers createdAt ciphertext (i.located env w index))
    (hfresh : word (outputOf hash providers createdAt (i.located env w index)).commitment ∉ leavesOf w)
    (verify : Verify) (msg : Msg) (proof : Bytes) (balance : ℕ) :
    WithdrawChecked env verify w.pool msg
          (bundleArgs proof (bundleOf env v w hash providers createdAt ciphertext i index)) ∧
        LiquidityChecked w.pool balance
          (bundleArgs proof (bundleOf env v w hash providers createdAt ciphertext i index))
          (feeOf w.pool (bundleArgs proof
            (bundleOf env v w hash providers createdAt ciphertext i index)).grossAmount) ↔
      ¬w.pool.nullifiers
          (word (bundleOf env v w hash providers createdAt ciphertext i index).nullifier) ∧
        verify proof
          ((bundleOf env v w hash providers createdAt ciphertext i index).publicInputs.map word) ∧
        Liquid w.pool balance (bundleArgs proof
          (bundleOf env v w hash providers createdAt ciphertext i index)).grossAmount.toNat := by
  have hroot := isBn254FieldElement_root hsame hknown htracks htree
  have hrate : feeBps (i.located env w index) = w.pool.fees.feeBps := by
    have := h.rate
    change (i.withdrawalFeeBps.getD defaultFeeBps).toNat = _
    omega
  have harguments := arguments_made hv h.deployed haccepts h.supported msg proof
  rw [hrate] at harguments
  have hinputs := publicInputs_made hv h.deployed haccepts
  have hinput0 : input (bundleArgs proof (madeBundle env v hash providers createdAt ciphertext
      (i.located env w index))).publicInputs 0 = treeRoot env.poseidon2 (leavesOf w) := by
    change input (List.map word _) 0 = _
    rw [hinputs]
    exact word_hex32 _
  have hinput2 : input (bundleArgs proof (madeBundle env v hash providers createdAt ciphertext
      (i.located env w index))).publicInputs 2 =
      word (outputOf hash providers createdAt (i.located env w index)).commitment := by
    change input (List.map word _) 2 = _
    rw [hinputs]
    rfl
  have haccepted : isAcceptedRoot w.pool.roots (treeRoot env.poseidon2 (leavesOf w)) := by
    have hnonzero := (word_ne_zero_iff hroot.1).mpr (ne_zeroBytes32_of_isBn254FieldElement hroot)
    rw [word_hex32] at hnonzero
    exact ⟨hnonzero, htracks.recorded.currentRoot ▸ htracks.recorded.current⟩
  have hnew : ¬w.pool.commitments
      (word (outputOf hash providers createdAt (i.located env w index)).commitment) :=
    fun hmem => hfresh ((htracks.commitments _).mp hmem)
  unfold bundleOf
  rw [withdrawChecked_iff, hinput0, hinput2]
  constructor
  · rintro ⟨-, -, hunspent, -, hverified, hliquid⟩
    exact ⟨hunspent, hverified, hliquid⟩
  · rintro ⟨hunspent, hverified, hliquid⟩
    exact ⟨harguments, haccepted, hunspent, hnew, hverified, hliquid⟩

end Spec

/-- **Honest withdrawals pass.** In every pool that was reached, the SDK builds a bundle for an
honest withdrawal, its witness satisfies the circuit for the public inputs, and the pool rejects the
call for nothing but a spent nullifier, the verifier and the liquidity; with room in the tree, the
call reaches its payment. -/
theorem honest_withdraw_passes {env : Env} {v : Viem} {t : Templates} {K : List F → Prop}
    {verifiers : Verifiers} {hash : FieldHash} {providers : Providers} {createdAt ciphertext : Text}
    {i : HistoryInput} {index : ℕ} {c : Config World (Option Pending)}
    (ht : Circuit.Gadgets.Documented t) (hv : Js.Package.Documented v env.keccak256)
    (hsame : SamePoseidon env.poseidon2 t) (hhash : SameFieldHash t hash) (hknown : Known env t K)
    (hverifiers : Verifier.ActionRouting.Accepts t merkleTreeDepth K verifiers)
    (hreached : KnownReachable env t K verifiers c)
    (h : Honest env v t K c.world hash providers createdAt ciphertext i index) : ∃ b,
    buildV12UnlinkableWithdrawalWitnessFromRootAcceptedLogs v hash providers i = .ok b ∧
    WithdrawCircuit t merkleTreeDepth (publicSignals b.witness) (privateSignals b.witness) ∧
    spendPublic (b.publicInputs.map word) = publicSignals b.witness ∧
    (∀ (verify : Verify) (msg : Msg) (proof : Bytes) (balance : ℕ),
      WithdrawChecked env verify c.world.pool msg (bundleArgs proof b) ∧
          LiquidityChecked c.world.pool balance (bundleArgs proof b)
            (feeOf c.world.pool (bundleArgs proof b).grossAmount) ↔
        ¬c.world.pool.nullifiers (word b.nullifier) ∧ verify proof (b.publicInputs.map word) ∧
          Liquid c.world.pool balance (bundleArgs proof b).grossAmount.toNat) ∧
    ∀ (verify : Verify) (msg : Msg) (proof : Bytes), msg.value = 0 → ¬c.world.pool.entered →
      (leavesOf c.world).length < merkleTreeCapacity → ¬c.world.pool.nullifiers (word b.nullifier) →
      verify proof (b.publicInputs.map word) →
      Liquid c.world.pool (c.world.balances env.this) (bundleArgs proof b).grossAmount.toNat →
      ∃ w' p, exec env verify c.world msg (bundleCall proof b) = .ok (w', some p) := by
  have htracks := (tracks_reachable hreached.reachable).1
  obtain ⟨notes, hledger, -⟩ := (conserves_reachable hknown hsame ht hverifiers hreached).1
  have htree : TreeKnown t K (leavesOf c.world) := hledger.trees _ (List.prefix_refl _)
  have hnotes := denominated_reachable hverifiers hreached.reachable
  have hfees := (sound_reachable hreached.reachable).1.fees.1
  have haccepts := accepts_located hsame hknown hhash htracks htree hnotes h hfees
  have hfresh := fresh_made hknown hhash h hledger.opens
  have hchecked := checked_made hsame hknown htracks htree h hv haccepts hfresh
  refine ⟨_, build_made hsame hhash htracks h hv haccepts,
    circuit_made ht hsame hknown hhash htracks hnotes h haccepts, spendPublic_made h hv haccepts,
    hchecked, fun verify msg proof hvalue hguard hroom hunspent hverified hliquid => ?_⟩
  obtain ⟨hpassed, hpaid⟩ := (hchecked verify msg proof _).mpr ⟨hunspent, hverified, hliquid⟩
  have hbounded := (bounded_reachable hreached.reachable).1
  obtain ⟨roots, position, events, hrecord⟩ := recordCommitmentRoot_of_lt htracks.recorded hroom _
  exact (exec_withdraw (action_bundleCall proof _) hvalue hguard hpassed hpaid hbounded).1 _ hrecord

/-! ### One withdrawal -/

/-- A hash for a run on fixed inputs: it keeps the secret of a note, tells nullifiers apart and
counts levels. -/
def countingHash : List ℕ → ℕ
  | [domain, noteSecret, leafIndex, _, secret] =>
    if domain = 10001 then secret else leafIndex + 2000000 * noteSecret
  | [left, _] => left + 1
  | _ => 0

def historyHash : FieldHash := fun inputs =>
  countingHash (inputs.map (· % bn254ScalarField)) % bn254ScalarField

def historyTemplates : Templates :=
  Circuit.Gadgets.documentedTemplates fun inputs => (countingHash (inputs.map ZMod.val) : F)

theorem sameFieldHash_history : SameFieldHash historyTemplates historyHash where
  lt _ := Nat.mod_lt _ (by decide)
  agrees inputs := by
    have hmap : (inputs.map fun n : ℕ => (n : F)).map ZMod.val = inputs.map (· % bn254ScalarField) := by
      rw [List.map_map]
      exact List.map_congr_left fun n _ => ZMod.val_natCast bn254ScalarField n
    change _ = ((countingHash _ : ℕ) : F)
    rw [hmap]
    exact ZMod.natCast_mod _ _

/-- What is hashed in the run. -/
inductive HistoryKey
  | note
  | output
  | nullifier (secret i : ℕ)
  | empty (l : ℕ)
  | left (l : ℕ)

def HistoryKey.Valid : HistoryKey → Prop
  | .note | .output => True
  | .nullifier secret i => (secret = 100 ∨ secret = 50) ∧ i < 1048576
  | .empty l | .left l => l < 20

def HistoryKey.input : HistoryKey → List ℕ
  | .note => [10001, 1, 5000000000000000, 2, 100]
  | .output => [10001, 1, 0, 50, 50]
  | .nullifier secret i => [10002, secret, i, 6343, 7]
  | .empty l => [l, l]
  | .left l => [100 + l, l]

def historyKnown (k : List F) : Prop :=
  ∃ key : HistoryKey, key.Valid ∧ k = key.input.map fun n : ℕ => (n : F)

def historyEnv : Env := { sampleEnv with
  poseidon2 := fun l r =>
    toWord (Circuit.Gadgets.hashPair historyTemplates (toField l) (toField r)) }

theorem samePoseidon_history : SamePoseidon historyEnv.poseidon2 historyTemplates :=
  ⟨fun _ _ _ _ => isFieldElement_toWord _, fun _ _ _ _ => toField_toWord _⟩

theorem HistoryKey.input_lt {k : HistoryKey} (h : k.Valid) : ∀ n ∈ k.input, n < bn254ScalarField := by
  have hfield : 6000000000000000 < bn254ScalarField := by decide
  cases k <;> simp only [Valid, input, List.forall_mem_cons] at h ⊢ <;>
    refine ⟨by omega, by omega, ?_⟩ <;> simp <;> omega

theorem poseidon_history {k : HistoryKey} (h : k.Valid) :
    historyTemplates.poseidon (k.input.map fun n : ℕ => (n : F)) = (countingHash k.input : F) := by
  have hmap : (k.input.map fun n : ℕ => (n : F)).map ZMod.val = k.input := by
    rw [List.map_map]
    exact (List.map_congr_left fun n hn => ZMod.val_natCast_of_lt (k.input_lt h n hn)).trans
      (List.map_id _)
  change ((countingHash _ : ℕ) : F) = _
  rw [hmap]

theorem HistoryKey.digest_bounds {k : HistoryKey} (h : k.Valid) :
    0 < countingHash k.input ∧ countingHash k.input < bn254ScalarField := by
  have hfield : 300000000 < bn254ScalarField := by decide
  cases k <;> simp [Valid, input, countingHash] at h ⊢ <;> omega

theorem HistoryKey.digest_inj {k k' : HistoryKey} (h : k.Valid) (h' : k'.Valid)
    (heq : countingHash k.input = countingHash k'.input) : k = k' := by
  cases k <;> cases k' <;> simp [Valid, input, countingHash] at h h' heq ⊢ <;> omega

theorem known_history : Known historyEnv historyTemplates historyKnown := by
  refine ⟨?_, ?_, ?_⟩
  · rintro _ _ ⟨k, hk, rfl⟩ ⟨k', hk', rfl⟩ heq
    rw [poseidon_history hk, poseidon_history hk'] at heq
    rw [HistoryKey.digest_inj hk hk' (natCast_inj_of_lt (HistoryKey.digest_bounds hk).2
      (HistoryKey.digest_bounds hk').2 heq)]
  · rintro _ ⟨k, hk, rfl⟩ hzero
    rw [poseidon_history hk, ← Nat.cast_zero] at hzero
    have hpos := (HistoryKey.digest_bounds hk).1
    have := natCast_inj_of_lt (HistoryKey.digest_bounds hk).2 (by decide) hzero
    omega
  · rintro n i ⟨k, hk, heq⟩ hi
    obtain ⟨secret, hsecret, hn⟩ : ∃ secret : ℕ, (secret = 100 ∨ secret = 50) ∧
        n.noteSecret = (secret : F) := by
      cases k with
      | note => exact ⟨100, .inl rfl, congrArg (fun l => l.getD 4 0) heq⟩
      | output => exact ⟨50, .inr rfl, congrArg (fun l => l.getD 4 0) heq⟩
      | nullifier s j => exact absurd (List.cons.inj heq).1.symm domain_ne
      | empty l => cases congrArg List.length heq
      | left l => cases congrArg List.length heq
    have hchain : toField historyEnv.chainId = ((6343 : ℕ) : F) := toField_ofNat (by decide)
    have hthis : toField (addressToBytes32 historyEnv.this) = ((7 : ℕ) : F) :=
      toField_ofNat (n := 7) (by decide)
    refine ⟨.nullifier secret i, ⟨hsecret, hi⟩, ?_⟩
    rw [hn, hchain, hthis]
    rfl

def historyViem : Viem := documentedViem historyEnv.keccak256 addressText

theorem documented_historyViem : Js.Package.Documented historyViem historyEnv.keccak256 :=
  documented_documentedViem _ fun a => ⟨isEvmAddress_addressText a, lower_addressText a⟩

/-- The note of the deposit, of the smallest denomination. -/
def historyNote : SpendMaterialPlaintext where
  version := spendMaterialVersion
  chainId := 6343
  pool := addressText 7
  assetId := nativeEthAssetId
  noteAmountWei := "5000000000000000".toList
  ownerCommitment := hex32 2
  noteSecret := hex32 100
  blinding := hex32 3
  commitment := hex32 100
  createdAt := []

/-- All of it is withdrawn. -/
def historyInput (w : World) : HistoryInput where
  note := historyNote
  destination := addressText 0x4444444444444444444444444444444444444444
  grossAmountWei := none
  chainId := 6343
  pool := addressText 7
  merkleTreeDepth := merkleTreeDepth
  withdrawalFeeBps := none
  rootAcceptedLogs := recordsOf w

def historyBytes : Bytes := List.replicate 31 0 ++ [50]

theorem hexText_historyBytes : hexText historyBytes = hex32 50 := by decide

theorem hexNat_nativeEth : hexNat nativeEthAssetId = 1 :=
  hexNat_nativeEthAssetId (isHexBytes32_hex32 1) (lower_hex32 1)

theorem outputPreimage_note : outputPreimage historyNote.preimage = HistoryKey.note.input := by
  have hamount : Decimal.value historyNote.noteAmountWei = 5000000000000000 := by decide
  change [10001, hexNat nativeEthAssetId, _, hexNat (hex32 2), hexNat (hex32 100)] = _
  rw [hexNat_nativeEth, hexNat_hex32, hexNat_hex32]
  exact congrArg (fun amount => [10001, 1, amount, 2, 100]) hamount

/-- The output note is worth nothing, and its secrets are the bytes that were drawn. -/
theorem outputPreimage_output (env : Env) (w : World) :
    outputPreimage (outputOf historyHash (sampleProviders historyBytes) sampleTime
      ((historyInput w).located env w 0)).preimage = HistoryKey.output.input := by
  have hamount : Decimal.value (Decimal.ofNat (outputAmount ((historyInput w).located env w 0))) =
      0 := by
    rw [Decimal.value_ofNat]
    exact Nat.sub_self _
  change [10001, hexNat nativeEthAssetId, Decimal.value (Decimal.ofNat (outputAmount _)),
    hexNat (hexText historyBytes), hexNat (hexText historyBytes)] = _
  rw [hexNat_nativeEth, hamount, hexText_historyBytes, hexNat_hex32]
  rfl

theorem known_outputPreimage {n : SpendMaterialPlaintext} {k : HistoryKey} (hk : k.Valid)
    (h : outputPreimage n.preimage = k.input) : historyKnown (noteOf n).preimage :=
  ⟨k, hk, by rw [← cast_outputPreimage, h]⟩

/-- The leaf of the deposit has one known note. -/
theorem ownerCommitment_of_leaf {n : Note} (hk : historyKnown n.preimage)
    (h : toField 100 = poseidonNoteCommitment historyTemplates n) :
    n.ownerCommitment = ((2 : ℕ) : F) := by
  obtain ⟨k, hvalid, heq⟩ := hk
  have hdigest : ((100 : ℕ) : F) = (countingHash k.input : F) := by
    rw [← poseidon_history hvalid, ← heq]
    exact (toField_ofNat (n := 100) (by decide)).symm.trans h
  have hnote : HistoryKey.note = k := HistoryKey.digest_inj trivial hvalid
    (natCast_inj_of_lt (by decide) (HistoryKey.digest_bounds hvalid).2 hdigest)
  subst hnote
  exact congrArg (fun l => l.getD 3 0) heq

theorem isBn254FieldElement_small {x : Bytes32} (hpos : x ≠ 0) (hlt : x.toNat ≤ 100) :
    isBn254FieldElement (hex32 x) :=
  isBn254FieldElement_hex32 hpos (lt_of_le_of_lt hlt (by decide))

theorem deriveNoteCommitment_history :
    deriveNoteCommitment historyHash historyNote.preimage = .ok (lower historyNote.commitment) := by
  have hfield : ∀ {x : Bytes32}, x ≠ 0 → x.toNat ≤ 100 → IsField (hex32 x) := fun hpos hlt =>
    isField_of_isBn254FieldElement (isBn254FieldElement_small hpos hlt)
  have hhash : historyHash (outputPreimage historyNote.preimage) = 100 := by
    rw [outputPreimage_note]
    decide
  refine deriveNoteCommitment_eq_ok.mpr ⟨⟨?_, ?_, ?_, ?_⟩, ?_, ?_⟩
  · exact hfield (by decide) (by decide)
  · exact ⟨by decide, by decide, by decide⟩
  · exact hfield (by decide) (by decide)
  · exact hfield (by decide) (by decide)
  · rw [hhash]
    decide
  · rw [hhash]
    exact (lower_hex32 100).trans (padHex32_toNat 100).symm

/-- **The withdrawal of the note of a deposit** is honest. -/
theorem honest_history {w : World} (hleaves : leavesOf w = [100]) (hfees : w.pool.fees.feeBps = 33) :
    Honest historyEnv historyViem historyTemplates historyKnown w historyHash
      (sampleProviders historyBytes) sampleTime [] (historyInput w) 0 := by
  have hfield : ∀ {x : Bytes32}, x ≠ 0 → x.toNat ≤ 100 → isBn254FieldElement (hex32 x) :=
    fun hpos hlt => isBn254FieldElement_small hpos hlt
  have hdraw : isBn254FieldElement (hexText historyBytes) := by
    rw [hexText_historyBytes]
    exact hfield (by decide) (by decide)
  have hsupported : isSupportedDenomination (Decimal.value historyNote.noteAmountWei) := by decide
  have hdestination : addressText 0x4444444444444444444444444444444444444444 ≠ zeroAddress := by
    decide
  have hlength : historyBytes.length = 32 := by decide
  exact
    { logs := rfl
      depth := rfl
      chainId := .inl rfl
      pool := isAddress_addressText _ _
      deployed := ⟨rfl, (address_addressText 7).symm⟩
      note :=
        { version := rfl, chainId := rfl, pool := rfl, assetId := lower_hex32 1
          commitment := hfield (by decide) (by decide)
          ownerCommitment := hfield (by decide) (by decide)
          noteSecret := hfield (by decide) (by decide) }
      commitment := deriveNoteCommitment_history
      leaf := by
        rw [hleaves]
        exact congrArg some (word_hex32 100).symm
      destination := ⟨isAddress_addressText _ _, hdestination⟩
      gross := fun t ht => absurd ht (Option.not_mem_none t)
      supported := hsupported
      rest := .inl rfl
      rate := by
        rw [hfees]
        rfl
      randomBytes := fun _ => hlength
      secrets := ⟨hdraw, hdraw⟩
      unused := by
        intro notes hopens n hn howner
        rw [hleaves] at hopens
        obtain ⟨m, _, ⟨hleaf, hk⟩, hnil, rfl⟩ := List.forall₂_cons_left_iff.mp hopens
        rw [List.forall₂_nil_left_iff.mp hnil] at hn
        rw [List.mem_singleton.mp hn, ownerCommitment_of_leaf hk hleaf] at howner
        change _ = (hexNat (hexText historyBytes) : F) at howner
        rw [hexText_historyBytes, hexNat_hex32] at howner
        exact absurd (natCast_inj_of_lt (by decide) (by decide) howner) (by decide)
      known := known_outputPreimage (k := .note) trivial outputPreimage_note
      outputKnown := known_outputPreimage (k := .output) trivial (outputPreimage_output _ w)
      now := rfl
      encrypted := fun hne => absurd (Nat.sub_self _) hne
      digest := (by decide : (1 : Bytes32) ≠ 0) }

/-- After one deposit its note can be withdrawn. -/
theorem honest_withdraw_passes_one_deposit : ∃ c,
    KnownReachable historyEnv historyTemplates historyKnown
      (exactVerifiers historyTemplates merkleTreeDepth historyKnown) c ∧
    ∃ b, buildV12UnlinkableWithdrawalWitnessFromRootAcceptedLogs historyViem historyHash
        (sampleProviders historyBytes) (historyInput c.world) = .ok b ∧
      WithdrawCircuit historyTemplates merkleTreeDepth (publicSignals b.witness)
        (privateSignals b.witness) := by
  have ht := Circuit.Gadgets.documented_documentedTemplates fun inputs =>
    ((countingHash (inputs.map ZMod.val) : ℕ) : F)
  have hpair : ∀ (x : F) {y : ℕ}, y < 2000000 →
      Circuit.Gadgets.hashPair historyTemplates x (y : F) = x + 1 := by
    intro x y _
    change ((x.val + 1 : ℕ) : F) = _
    rw [Nat.cast_succ, ZMod.natCast_zmod_val]
  have htree : ∀ {leaves : List Bytes32}, leaves = [] ∨ leaves = [100] →
      TreeKnown historyTemplates historyKnown leaves := fun h =>
    treeKnown_of_succ hpair (fun l hl => ⟨.empty l, hl, rfl⟩) (fun l hl => ⟨.left l, hl, rfl⟩) h
  have hknown : historyKnown (noteOf historyNote).preimage :=
    known_outputPreimage (k := .note) trivial outputPreimage_note
  have hopen : ((100 : ℕ) : F) = poseidonNoteCommitment historyTemplates (noteOf historyNote) := by
    have hdigest := poseidon_history (k := .note) trivial
    rw [← outputPreimage_note, cast_outputPreimage, outputPreimage_note] at hdigest
    exact hdigest.symm
  have hchecked := @deposit_checked _ _ 5000000000000000 100 historyEnv ht _
    (freshWorld historyEnv 5000000000000000).pool plainMsg ⟨rfl, rfl⟩ (fun _ => rfl) (by decide) rfl
    (by decide) (by decide) hopen rfl hknown Bool.false_ne_true
  obtain ⟨w', hexec⟩ :=
    exec_deposit (by decide) Bool.false_ne_true hchecked (by decide) recorded_initial (by decide)
  have hdeployed : Pool.Calls.Deployed historyEnv (freshWorld historyEnv 5000000000000000) :=
    freshWorld_deployed (by decide) _
  have htracks := tracks_deployed hdeployed
  have hleaves : leavesOf w' = [100] := (tracks_exec htracks hexec).leavesOf_eq
  have hfees : w'.pool.fees.feeBps = 33 := by
    obtain ⟨-, -, heffect⟩ := exec_ok hexec
    cases heffect with
    | deposit hd => rw [hd.fees]; rfl
  have hreach : KnownReachable historyEnv historyTemplates historyKnown
      (exactVerifiers historyTemplates merkleTreeDepth historyKnown) ⟨w', []⟩ :=
    ⟨_, hdeployed, htree (.inl htracks.leavesOf_eq),
      .single (.step ⟨.call rfl (by decide) hexec, htree (.inr hleaves)⟩)⟩
  obtain ⟨b, hbuild, hcircuit, -⟩ := honest_withdraw_passes ht documented_historyViem
    samePoseidon_history sameFieldHash_history known_history accepts_exactVerifiers hreach
    (honest_history hleaves hfees)
  exact ⟨_, hreach, b, hbuild, hcircuit⟩

end Nullark.Sdk.HonestWithdraw
