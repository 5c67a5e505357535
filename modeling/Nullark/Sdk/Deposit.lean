import Nullark.Pool.Arguments
import Nullark.Sdk.NoteRecovery
import Nullark.Sdk.Poseidon

/-! # Deposits of the SDK

`prepareDepositNote` draws a note, encrypts it for the wallet, and binds a proof to the hashes of
the deposit. The platform and the packages are a parameter (`Platform`).

* `prepareDepositNote_ok`: what a deposit that is prepared consists of.
* `not_depositArguments`: the pool hashes a longer tuple for the note, so it refuses the deposit. -/

namespace Nullark.Sdk.Deposit

open Nullark.Lib Nullark.Lib.Outcome Nullark.Lib.Abi
open Nullark.Lib.Hex hiding value Digits ofNat
open Nullark.Lib.Aead (Crypto)
open Nullark.Evm.Basic Nullark.Pool.Interface Nullark.Pool.Context Nullark.Pool.Actions
open Nullark.Pool.Arguments
open Nullark.Pool.Calls (Call)
open Nullark.Js.Basic Nullark.Js.Bytes Nullark.Js.Package Nullark.Js.TreeHash
open Nullark.Js.ContextHashes Nullark.Js.SpendMaterial Nullark.Js.NoteEnvelope
open Nullark.Js.OutputNoteEnvelope (isNonEmptyHex_hexText isHexOfLength_hexText hexByteLength)
open Nullark.Sdk.Poseidon Nullark.Sdk.NoteRecovery

/-! ### The runtime -/

/-- **`NullarkCurrentRuntime`**, as far as a deposit reads it. -/
structure NullarkCurrentRuntime where
  environment : Text
  chainId : ℕ
  rpcUrl : Text
  pool : Text
  withdrawVerifier : Text
  verifierAdapter : Text
  privateTransferVerifier : Text

/-- What a deposit takes from its platform and from other packages, and the checks of a runtime
that are about its schema and its artifacts, which a deposit does not read. -/
structure Platform where
  crypto : Crypto
  viem : Viem
  poseidon : FieldHash
  isDate : Text → Bool
  assertSchema : NullarkCurrentRuntime → Throws Unit
  assertArtifacts : NullarkCurrentRuntime → Throws Unit

def assertNetwork (runtime : NullarkCurrentRuntime) : Throws Unit :=
  if runtime.environment = "megaeth-mainnet".toList then
    ensure (runtime.chainId = 4326 ∧ runtime.rpcUrl = "https://mainnet.megaeth.com/rpc".toList)
      "Nullark SDK mainnet runtime must target MegaETH mainnet 4326."
  else if runtime.environment = "megaeth-testnet-nullark".toList then
    ensure (runtime.chainId = 6343 ∧ runtime.rpcUrl = "https://carrot.megaeth.com/rpc".toList)
      "Nullark SDK testnet runtime must target MegaETH testnet 6343."
  else .error "Nullark SDK runtime must target an approved MegaETH network."

def assertRuntime (p : Platform) (runtime : NullarkCurrentRuntime) : Throws Unit := do
  p.assertSchema runtime
  assertNetwork runtime
  ensure (isEvmAddress runtime.pool)
    "Nullark SDK current runtime pool must be an EVM address."
  ensure (isEvmAddress runtime.withdrawVerifier)
    "Nullark SDK current runtime withdrawVerifier must be an EVM address."
  ensure (isEvmAddress runtime.verifierAdapter)
    "Nullark SDK current runtime verifierAdapter must be an EVM address."
  ensure (isEvmAddress runtime.privateTransferVerifier)
    "Nullark SDK current runtime privateTransferVerifier must be an EVM address."
  p.assertArtifacts runtime

/-! ### Proofs of a deposit -/

structure DepositProofPacket where
  proof : Text
  publicInputs : List Text

structure DepositProofBinding where
  commitment : Text
  amountWei : Text
  chainId : ℕ
  pool : Text
  encryptedNote : Text
  depositContextHash : Text
  encryptedDepositNoteHash : Text
  publicInputs : List Text

structure PrepareInput where
  runtime : NullarkCurrentRuntime
  walletSignature : Text
  amountWei : Text
  now : Text
  randomBytes : ℕ → Bytes
  nonce : Bytes
  depositProof : Option (DepositProofBinding → Throws DepositProofPacket)

/-- The transaction, with the arguments its data encodes. -/
structure DepositTransactionRequest where
  chainId : ℕ
  «to» : Text
  value : ℕ
  proof : Text
  publicInputs : List Text
  encryptedNote : Text
  deriving DecidableEq, Repr

structure PublicEvidence where
  chainId : ℕ
  pool : Text
  commitment : Text
  amountWei : Text
  encryptedNotePresent : Bool
  deriving DecidableEq, Repr

structure PreparedDepositNote where
  commitment : Text
  encryptedNote : Text
  spendMaterial : SpendMaterialPlaintext
  transaction : DepositTransactionRequest
  publicEvidence : PublicEvidence
  deriving DecidableEq, Repr

/-- One of the loops of `randomField`, from a draw on. The result names the next draw. -/
def randomFieldFrom (randomBytes : ℕ → Bytes) : (attempts draw : ℕ) → Throws (Text × ℕ)
  | 0, _ => .error "Unable to sample a BN254 field element."
  | attempts + 1, draw => do
    let bytes := randomBytes draw
    ensure (bytes.length = 32) "Expected randomBytes(32) to return 32 bytes."
    let hex := hexText bytes
    if 0 < hexNat hex ∧ hexNat hex < bn254ScalarField then return (hex, draw + 1)
    else randomFieldFrom randomBytes attempts (draw + 1)

def randomField (randomBytes : ℕ → Bytes) (draw : ℕ) : Throws (Text × ℕ) :=
  randomFieldFrom randomBytes 128 draw

section Code
variable (v : Viem)

def encryptedDepositNoteValues (chainId : ℕ) (pool commitment encryptedNote : Text) :
    List AbiValue :=
  [.bytes32 (hashDomainSeparator v "nullark.v1.2.encrypted-deposit-note"), .uint256 1,
    .uint256 chainId, .address pool, .bytes32 commitment, .bytes encryptedNote]

def depositContextValues (chainId : ℕ) (pool commitment : Text) (amount : ℕ)
    (encryptedDepositNoteHash : Text) : List AbiValue :=
  [.bytes32 (hashDomainSeparator v "nullark.v1.2.deposit-context"), .uint256 1,
    .uint256 chainId, .address pool, .bytes32 commitment, .uint256 amount,
    .bytes32 encryptedDepositNoteHash]

def hashEncryptedDepositNote (chainId : ℕ) (pool commitment encryptedNote : Text) :
    Throws Hashed :=
  hashValues v uncheckedRules (encryptedDepositNoteValues v chainId pool commitment encryptedNote)

def hashDepositContext (chainId : ℕ) (pool commitment : Text) (amount : ℕ)
    (encryptedDepositNoteHash : Text) : Throws Hashed :=
  hashValues v uncheckedRules
    (depositContextValues v chainId pool commitment amount encryptedDepositNoteHash)

/-- **`createDepositProofBinding`**. -/
def createDepositProofBinding (runtime : NullarkCurrentRuntime)
    (commitment amountWei encryptedNote : Text) : Throws DepositProofBinding := do
  let amount := Decimal.value amountWei
  let note ← hashEncryptedDepositNote v runtime.chainId runtime.pool commitment encryptedNote
  let context ← hashDepositContext v runtime.chainId runtime.pool commitment amount note.hash
  ensure (amount < 2 ^ 256) "Expected uint256 value."
  ensure (isEvmAddress runtime.pool) "Expected deposit proof verifying contract address."
  return { commitment, amountWei, chainId := runtime.chainId, pool := runtime.pool, encryptedNote
           depositContextHash := context.hash
           encryptedDepositNoteHash := note.hash
           publicInputs := [commitment, padHex32 amount, padHex32 runtime.chainId,
             addressText32 runtime.pool, context.hash, note.hash] }

end Code

def assertDepositProofPublicInputs (publicInputs : List Text) : Throws (List Text) := do
  ensure (publicInputs.length = 6)
    "Expected deposit proof publicInputs to contain exactly 6 bytes32 values."
  ensure (∀ publicInput ∈ publicInputs, isHexBytes32 publicInput)
    "Expected every deposit proof public input to be bytes32."
  return publicInputs

def bytes32ToEvmAddress (value : Text) : Text :=
  '0' :: 'x' :: lower (value.drop (value.length - 40))

def assertDepositProofBinding (publicInputs : List Text) (binding : DepositProofBinding) :
    Throws Unit := do
  let publicInput (i : ℕ) := publicInputs.getD i []
  ensure (lower (publicInput 0) = lower binding.commitment)
    "Deposit proof commitment does not match the prepared note."
  ensure (hexNat (publicInput 1) = Decimal.value binding.amountWei)
    "Deposit proof amount does not match the prepared note."
  ensure (hexNat (publicInput 2) = binding.chainId)
    "Deposit proof is not bound to the active MegaETH chain."
  ensure (lower (bytes32ToEvmAddress (publicInput 3)) = lower binding.pool)
    "Deposit proof is not bound to this shielded pool."
  ensure (lower (publicInput 4) = lower binding.depositContextHash)
    "Deposit proof context hash does not match the prepared note."
  ensure (lower (publicInput 5) = lower binding.encryptedDepositNoteHash)
    "Deposit proof encrypted note hash does not match the prepared note."

/-- The packet of the prover, or the public inputs that are expected. -/
def depositProofPacket (depositProof : Option (DepositProofBinding → Throws DepositProofPacket))
    (binding : DepositProofBinding) : Throws DepositProofPacket :=
  match depositProof with
  | some prove => prove binding
  | none => .ok { proof := ['0', 'x'], publicInputs := binding.publicInputs }

/-- **`resolveDepositProof`**. -/
def resolveDepositProof
    (depositProof : Option (DepositProofBinding → Throws DepositProofPacket))
    (binding : DepositProofBinding) : Throws DepositProofPacket := do
  let packet ← depositProofPacket depositProof binding
  ensure (isHexString packet.proof) "Expected deposit proof bytes as even-length hex."
  let publicInputs ← assertDepositProofPublicInputs packet.publicInputs
  assertDepositProofBinding publicInputs binding
  return { proof := packet.proof, publicInputs }

/-! ### Deposits -/

/-- The secrets of a note, with the commitment to them. -/
structure DrawnNote where
  ownerCommitment : Text
  noteSecret : Text
  blinding : Text
  commitment : Text
  deriving DecidableEq

/-- What is kept of the note that is drawn. -/
def PrepareInput.spendMaterial (i : PrepareInput) (note : DrawnNote) : SpendMaterialPlaintext where
  version := spendMaterialVersion
  chainId := i.runtime.chainId
  pool := i.runtime.pool
  assetId := nativeEthAssetId
  noteAmountWei := i.amountWei
  ownerCommitment := note.ownerCommitment
  noteSecret := note.noteSecret
  blinding := note.blinding
  commitment := note.commitment
  createdAt := i.now

section Code
variable (p : Platform)

/-- The first part of `prepareDepositNote`. -/
def drawNote (i : PrepareInput) : Throws DrawnNote := do
  let (ownerCommitment, draw) ← randomField i.randomBytes 0
  let (noteSecret, draw) ← randomField i.randomBytes draw
  let (blinding, _) ← randomField i.randomBytes draw
  let commitment ← deriveNoteCommitment p.poseidon
    { assetId := nativeEthAssetId, noteAmountWei := i.amountWei, ownerCommitment, noteSecret }
  return { ownerCommitment, noteSecret, blinding, commitment }

/-- The second part: the note, encrypted for the wallet. -/
def encryptDepositNote (i : PrepareInput) (spendMaterial : SpendMaterialPlaintext) :
    Throws Text := do
  let recoveryKey ← deriveWalletRecoveryKey p.crypto i.walletSignature i.runtime.chainId
    i.runtime.pool nullarkRecoveryAppId
  let epochId ← getNullarkRecoveryEpochId i.runtime.chainId
  let noteKey ← deriveNoteKey p.crypto recoveryKey spendMaterial.commitment epochId
  let aad ← makeRecoveryAssociatedData
    { chainId := i.runtime.chainId, pool := i.runtime.pool, action := .deposit
      commitment := spendMaterial.commitment }
  let envelope ← encryptSpendMaterialEnvelope p.crypto p.isDate i.nonce noteKey spendMaterial aad
  serializeEncryptedNoteEnvelopeToHex sdkEnvelopeWording envelope

/-- **`prepareDepositNote`**. -/
def prepareDepositNote (i : PrepareInput) : Throws PreparedDepositNote := do
  assertRuntime p i.runtime
  ensure (isWalletSignature i.walletSignature) "Expected wallet recovery signature bytes."
  ensure (Decimal.isDecimal i.amountWei ∧ 0 < Decimal.value i.amountWei)
    "Expected deposit amount as positive decimal wei."
  ensure (i.now ≠ [] ∧ p.isDate i.now) "Expected deposit creation time."
  let note ← drawNote p i
  let spendMaterial := i.spendMaterial note
  let encryptedNote ← encryptDepositNote p i spendMaterial
  let binding ← createDepositProofBinding p.viem i.runtime note.commitment i.amountWei
    encryptedNote
  let depositProof ← resolveDepositProof i.depositProof binding
  return {
    commitment := note.commitment
    encryptedNote
    spendMaterial
    transaction :=
      { chainId := i.runtime.chainId
        «to» := i.runtime.pool
        value := Decimal.value i.amountWei
        proof := depositProof.proof
        publicInputs := depositProof.publicInputs
        encryptedNote }
    publicEvidence :=
      { chainId := i.runtime.chainId
        pool := i.runtime.pool
        commitment := note.commitment
        amountWei := i.amountWei
        encryptedNotePresent := encryptedNote ≠ emptyNote } }

end Code

/-! ### What is prepared -/

theorem randomFieldFrom_ok {randomBytes : ℕ → Bytes} {r : Text × ℕ} : ∀ {attempts draw : ℕ},
    randomFieldFrom randomBytes attempts draw = .ok r → isBn254FieldElement r.1
  | 0, _, h => by cases h
  | attempts + 1, draw, h => by
    rw [randomFieldFrom] at h
    obtain ⟨_, hlength, h⟩ := bind_eq_ok.mp h
    dsimp only at h
    split_ifs at h with hrange
    · rw [← pure_eq_ok.mp h]
      refine ⟨⟨?_, digits_ofBytes _⟩, hrange⟩
      rw [length_ofBytes, ensure_eq_ok.mp hlength]
    · exact randomFieldFrom_ok h

/-- A draw in the field is taken. -/
theorem randomField_of_word {randomBytes : ℕ → Bytes} {draw : ℕ} {x : Bytes32}
    (h : randomBytes draw = Lib.Bytes.word x) (hpos : x ≠ 0) (hlt : isFieldElement x) :
    randomField randomBytes draw = .ok (hex32 x, draw + 1) := by
  have hlength : (randomBytes draw).length = 32 := by
    rw [h]
    exact Lib.Bytes.length_word x
  have hhex : hexText (randomBytes draw) = hex32 x := by
    rw [h]
    exact hexText_word x
  have hrange := (isBn254FieldElement_hex32 hpos hlt).2
  rw [randomField, randomFieldFrom]
  dsimp only
  rw [ensure_of hlength, ok_bind, hhex, if_pos hrange]
  rfl

/-- **A note that is drawn.** -/
structure Drawn (p : Platform) (i : PrepareInput) (note : DrawnNote) : Prop where
  ownerCommitment : isBn254FieldElement note.ownerCommitment
  noteSecret : isBn254FieldElement note.noteSecret
  blinding : isBn254FieldElement note.blinding
  commitment : deriveNoteCommitment p.poseidon (i.spendMaterial note).preimage =
    .ok note.commitment

theorem drawNote_ok {p : Platform} {i : PrepareInput} {note : DrawnNote}
    (h : drawNote p i = .ok note) : Drawn p i note := by
  unfold drawNote at h
  simp only [bind_eq_ok, pure_eq_ok] at h
  obtain ⟨owner, howner, secret, hsecret, blinding, hblinding, commitment, hcommitment, rfl⟩ := h
  exact ⟨randomFieldFrom_ok howner, randomFieldFrom_ok hsecret, randomFieldFrom_ok hblinding,
    hcommitment⟩

theorem isHexBytes32_padHex32 {n : ℕ} (h : n < 2 ^ 256) : isHexBytes32 (padHex32 n) := by
  rw [padHex32_eq_hex32 h]
  exact isHexBytes32_hex32 _

theorem isHexBytes32_of_deriveNoteCommitment {hash : FieldHash} {i : NoteCommitmentInput}
    {t : Text} (h : deriveNoteCommitment hash i = .ok t) : isHexBytes32 t := by
  obtain ⟨-, ⟨-, hlt⟩, rfl⟩ := deriveNoteCommitment_eq_ok.mp h
  exact isHexBytes32_padHex32 (hlt.trans (by decide))

/-- The runtimes that are accepted are on one of the two chains. -/
theorem assertRuntime_ok {p : Platform} {runtime : NullarkCurrentRuntime} {u : Unit}
    (h : assertRuntime p runtime = .ok u) :
    (runtime.chainId = 6343 ∨ runtime.chainId = 4326) ∧ isEvmAddress runtime.pool := by
  unfold assertRuntime at h
  simp only [bind_eq_ok, ensure_eq_ok] at h
  obtain ⟨_, -, _, hnetwork, _, hpool, -⟩ := h
  refine ⟨?_, hpool⟩
  unfold assertNetwork at hnetwork
  split_ifs at hnetwork
  · exact Or.inr (ensure_eq_ok.mp hnetwork).1
  · exact Or.inl (ensure_eq_ok.mp hnetwork).1

/-- **The envelope of a deposit**: the key of the wallet and its data, of this pool as it is
spelled. -/
def depositEnvelope (c : Crypto) (i : PrepareInput) (n : SpendMaterialPlaintext) :
    EncryptedNoteEnvelope where
  nonce := hexText i.nonce
  ciphertext := hexText (c.encrypt
    (noteKey c (walletRecoveryKey c i.walletSignature i.runtime.chainId i.runtime.pool
      nullarkRecoveryAppId) n.commitment (recoveryEpochId i.runtime.chainId))
    i.nonce
    (RecoveryAssociatedData.bytes
      { chainId := i.runtime.chainId, pool := i.runtime.pool, action := .deposit
        commitment := n.commitment })
    (spendBytes n))

/-- The envelope fits when its nonce has 12 bytes. -/
theorem depositEnvelope_fits {c : Crypto} (hc : Aead.Documented c) {i : PrepareInput}
    (hnonce : i.nonce.length = 12) (n : SpendMaterialPlaintext) : (depositEnvelope c i n).Fits :=
  noteEnvelope_fits hc hnonce n

/-- What is encrypted was checked, and the envelope fits. -/
theorem encryptDepositNote_eq_ok {p : Platform} {i : PrepareInput} {n : SpendMaterialPlaintext}
    {t : Text} : encryptDepositNote p i n = .ok t ↔
      (isWalletSignature i.walletSignature ∧ isChainId i.runtime.chainId ∧
        isEvmAddress i.runtime.pool ∧ isHexBytes32 n.commitment) ∧
      validateSpendMaterialPlaintext p.isDate n = .ok () ∧ (depositEnvelope p.crypto i n).Fits ∧
        t = hexText (depositEnvelope p.crypto i n).bytes := by
  unfold encryptDepositNote deriveWalletRecoveryKey getNullarkRecoveryEpochId deriveNoteKey
    makeRecoveryAssociatedData encryptSpendMaterialEnvelope
  simp only [bind_eq_ok, pure_eq_ok, ensure_eq_ok]
  constructor
  · rintro ⟨_, ⟨_, h1, _, h2, _, h3, rfl⟩, _, ⟨_, -, rfl⟩, _, ⟨_, h4, _, -, rfl⟩, _,
      ⟨_, -, _, -, _, -, rfl⟩, _, ⟨_, hvalid, rfl⟩, hserialize⟩
    obtain ⟨hfits, rfl⟩ := serialize_eq_ok.mp hserialize
    exact ⟨⟨h1, h2, h3, h4⟩, hvalid, hfits, rfl⟩
  · rintro ⟨⟨h1, h2, h3, h4⟩, hvalid, hfits, rfl⟩
    have hepoch : recoveryEpochId i.runtime.chainId ≠ [] := List.cons_ne_nil _ _
    exact ⟨_, ⟨(), h1, (), h2, (), h3, rfl⟩, _, ⟨(), h2, rfl⟩, _, ⟨(), h4, (), hepoch, rfl⟩, _,
      ⟨(), h2, (), h3, (), h4, rfl⟩, _, ⟨(), hvalid, rfl⟩, serialize_eq_ok.mpr ⟨hfits, rfl⟩⟩

/-- **A deposit that is prepared.** -/
structure Prepared (p : Platform) (i : PrepareInput) (r : PreparedDepositNote) : Prop where
  chainId : i.runtime.chainId = 6343 ∨ i.runtime.chainId = 4326
  pool : isEvmAddress i.runtime.pool
  walletSignature : isWalletSignature i.walletSignature
  material : ∃ note, Drawn p i note ∧ r.spendMaterial = i.spendMaterial note ∧
    r.commitment = note.commitment
  valid : validateSpendMaterialPlaintext p.isDate r.spendMaterial = .ok ()
  envelope : (depositEnvelope p.crypto i r.spendMaterial).Fits
  encryptedNote : r.encryptedNote =
    hexText (depositEnvelope p.crypto i r.spendMaterial).bytes
  transaction : r.transaction.encryptedNote = r.encryptedNote
  value : r.transaction.value = Decimal.value i.amountWei
  noteHash : ∃ note, hashEncryptedDepositNote p.viem i.runtime.chainId i.runtime.pool
    r.commitment r.encryptedNote = .ok note ∧
      lower (r.transaction.publicInputs.getD 5 []) = lower note.hash
  publicInputs : r.transaction.publicInputs.length = 6 ∧
    (∀ publicInput ∈ r.transaction.publicInputs, isHexBytes32 publicInput) ∧
      lower (r.transaction.publicInputs.getD 0 []) = lower r.commitment

theorem resolveDepositProof_ok
    {depositProof : Option (DepositProofBinding → Throws DepositProofPacket)}
    {binding : DepositProofBinding} {packet : DepositProofPacket}
    (h : resolveDepositProof depositProof binding = .ok packet) :
    packet.publicInputs.length = 6 ∧
      (∀ publicInput ∈ packet.publicInputs, isHexBytes32 publicInput) ∧
        assertDepositProofBinding packet.publicInputs binding = .ok () := by
  unfold resolveDepositProof assertDepositProofPublicInputs at h
  simp only [bind_eq_ok, pure_eq_ok, ensure_eq_ok] at h
  obtain ⟨_, -, _, -, _, ⟨_, hlength, _, hpattern, rfl⟩, _, hbinding, rfl⟩ := h
  exact ⟨hlength, hpattern, hbinding⟩

theorem prepareDepositNote_ok {p : Platform} {i : PrepareInput} {r : PreparedDepositNote}
    (h : prepareDepositNote p i = .ok r) : Prepared p i r := by
  unfold prepareDepositNote at h
  simp only [bind_eq_ok, ensure_eq_ok, pure_eq_ok] at h
  obtain ⟨_, hruntime, _, hsignature, _, -, _, -, note, hnote, encryptedNote, hencrypted, binding,
    hbinding, packet, hpacket, rfl⟩ := h
  obtain ⟨hchain, hpool⟩ := assertRuntime_ok hruntime
  obtain ⟨-, hvalid, hfits, rfl⟩ := encryptDepositNote_eq_ok.mp hencrypted
  obtain ⟨hlength, hpattern, hassert⟩ := resolveDepositProof_ok hpacket
  unfold createDepositProofBinding at hbinding
  simp only [bind_eq_ok, ensure_eq_ok, pure_eq_ok] at hbinding
  obtain ⟨noteHash, hnoteHash, context, -, _, -, _, -, rfl⟩ := hbinding
  unfold assertDepositProofBinding at hassert
  simp only [bind_eq_ok, ensure_eq_ok] at hassert
  obtain ⟨_, hcommitment, _, -, _, -, _, -, _, -, hhash⟩ := hassert
  exact ⟨hchain, hpool, hsignature, ⟨note, drawNote_ok hnote, rfl, rfl⟩, hvalid, hfits, rfl, rfl,
    rfl, ⟨noteHash, hnoteHash, hhash⟩, hlength, hpattern, hcommitment⟩

/-! ### The pool -/

/-- What the SDK hashes for the note of a deposit. -/
def sdkNotePreimage (env : Env) (commitment : Bytes32) (encryptedNote : Bytes) : Bytes :=
  encode [.word (env.keccak256 (utf8 "nullark.v1.2.encrypted-deposit-note")), .word 1,
    .word env.chainId, .word (addressToBytes32 env.this), .word commitment, .bytes encryptedNote]

/-- What the pool hashes for it. -/
def poolNotePreimage (env : Env) (selector : Bytes4) (commitment : Bytes32)
    (encryptedNote : Bytes) : Bytes :=
  encryptedNotePreimage env (depositEncryptedNote env selector commitment encryptedNote)

/-- **The tuples differ**: the one of the pool has three components more. -/
theorem sdkNotePreimage_ne {env : Env} (selector : Bytes4) (commitment : Bytes32)
    (encryptedNote : Bytes) : sdkNotePreimage env commitment encryptedNote ≠
      poolNotePreimage env selector commitment encryptedNote := by
  intro h
  have hlength := congrArg List.length h
  rw [sdkNotePreimage, poolNotePreimage, encryptedNotePreimage, length_encode,
    length_encode] at hlength
  simp only [List.length_cons, List.length_nil, tails, depositEncryptedNote] at hlength
  omega

theorem hashEncryptedDepositNote_eq_ok {v : Viem} {env : Env} (hv : Documented v env.keccak256)
    {chainId : ℕ} {pool commitment encryptedNote : Text} {h : Hashed}
    (hplace : Deployed env chainId pool) (hchain : chainId = 6343 ∨ chainId = 4326)
    (hpool : isEvmAddress pool) (hcommitment : isHexBytes32 commitment)
    (hnote : isHexString encryptedNote) :
    hashEncryptedDepositNote v chainId pool commitment encryptedNote = .ok h ↔
      isAddress v pool ∧
        h = poolHashed env (sdkNotePreimage env (word commitment) (hexBytes encryptedNote)) := by
  have hlt : chainId < 2 ^ 256 := by rcases hchain with h | h <;> rw [h] <;> norm_num
  have hone : 1 < 2 ^ 256 := by norm_num
  have hbut : ∀ x ∈ encryptedDepositNoteValues v chainId pool commitment encryptedNote,
      x.FitsButAddress := by
    simp only [encryptedDepositNoteValues, List.forall_mem_cons, AbiValue.FitsButAddress]
    exact ⟨isHexBytes32_hashDomainSeparator hv _, hone, hlt, hpool, hcommitment, hnote,
      fun _ h => absurd h List.not_mem_nil⟩
  have hencode : encode ((encryptedDepositNoteValues v chainId pool commitment
      encryptedNote).map (·.component)) =
      sdkNotePreimage env (word commitment) (hexBytes encryptedNote) := by
    rw [sdkNotePreimage, hplace.chainId, hplace.this]
    simp only [encryptedDepositNoteValues, hashDomainSeparator_eq hv, List.map_cons, List.map_nil,
      AbiValue.component, word_hex32]
    rfl
  unfold hashEncryptedDepositNote
  rw [hashValues_eq_ok hv accepting_uncheckedRules hbut, hencode, forall_fits_iff hbut]
  simp [encryptedDepositNoteValues]

/-- The hash of the SDK for its own tuple stands among the public inputs. -/
theorem input_noteHash {p : Platform} {env : Env} (hv : Documented p.viem env.keccak256)
    {i : PrepareInput} {r : PreparedDepositNote} (h : Prepared p i r)
    (hplace : Deployed env i.runtime.chainId i.runtime.pool) :
    input (r.transaction.publicInputs.map word) 0 = word r.commitment ∧
      input (r.transaction.publicInputs.map word) 5 =
        hashToField env (sdkNotePreimage env (word r.commitment) (hexBytes r.encryptedNote)) := by
  obtain ⟨note, hdrawn, -, hcommitment⟩ := h.material
  have hpattern : isHexBytes32 r.commitment :=
    hcommitment ▸ isHexBytes32_of_deriveNoteCommitment hdrawn.commitment
  have hnote : isHexString r.encryptedNote := by
    rw [h.encryptedNote]
    exact isHexString_hexText _
  have hinput : ∀ k < 6, input (r.transaction.publicInputs.map word) k =
      word (lower (r.transaction.publicInputs.getD k [])) := by
    intro k hk
    have hlt : k < r.transaction.publicInputs.length := by rw [h.publicInputs.1]; exact hk
    rw [input, word_of_lower, List.getD_eq_getElem _ _ hlt,
      List.getD_eq_getElem _ _ (by rw [List.length_map]; exact hlt), List.getElem_map]
  obtain ⟨noteHash, hnoteHash, hlower⟩ := h.noteHash
  obtain ⟨-, rfl⟩ := (hashEncryptedDepositNote_eq_ok hv hplace h.chainId h.pool hpattern
    hnote).mp hnoteHash
  refine ⟨?_, ?_⟩
  · rw [hinput 0 (by decide), h.publicInputs.2.2, word_of_lower]
  · rw [hinput 5 (by decide), hlower, word_of_lower]
    exact word_hex32 _

/-- The hash of the note is not the one of the pool, unless the two tuples collide. -/
theorem not_depositArguments {p : Platform} {env : Env} (hv : Documented p.viem env.keccak256)
    {i : PrepareInput} {r : PreparedDepositNote} (h : prepareDepositNote p i = .ok r)
    (hplace : Deployed env i.runtime.chainId i.runtime.pool) (selector : Bytes4)
    (hinj : Set.InjOn (hashToField env)
      {sdkNotePreimage env (word r.commitment) (hexBytes r.encryptedNote),
        poolNotePreimage env selector (word r.commitment) (hexBytes r.encryptedNote)})
    (msg : Msg) :
    ¬DepositArguments env msg (r.transaction.publicInputs.map word)
      (hexBytes r.transaction.encryptedNote) selector := by
  intro hargs
  have hprepared := prepareDepositNote_ok h
  obtain ⟨hcommitment, hhash⟩ := input_noteHash hv hprepared hplace
  have hpool := hargs.noteHash
  rw [hcommitment, hhash, hprepared.transaction] at hpool
  have heq := hinj (Set.mem_insert _ _) (Set.mem_insert_of_mem _ rfl) hpool
  exact sdkNotePreimage_ne selector _ _ heq

/-- The call the transaction makes. -/
def DepositTransactionRequest.call (t : DepositTransactionRequest) : Call :=
  .deposit (hexBytes t.proof) (t.publicInputs.map word) (hexBytes t.encryptedNote)

/-! ### Deposits without a prover -/

theorem hashDepositContext_ok {v : Viem} {env : Env} (hv : Documented v env.keccak256)
    {chainId : ℕ} {pool commitment noteHash : Text} {amount : ℕ}
    (hchain : chainId < 2 ^ 256) (hpool : isAddress v pool) (hcommitment : isHexBytes32 commitment)
    (hamount : amount < 2 ^ 256) (hnote : isHexBytes32 noteHash) :
    ∃ preimage, hashDepositContext v chainId pool commitment amount noteHash =
      .ok (poolHashed env preimage) := by
  have hone : 1 < 2 ^ 256 := by norm_num
  have hfits : ∀ x ∈ depositContextValues v chainId pool commitment amount noteHash, x.Fits v := by
    simp only [depositContextValues, List.forall_mem_cons, AbiValue.Fits]
    exact ⟨isHexBytes32_hashDomainSeparator hv _, hone, hchain, hpool, hcommitment, hamount, hnote,
      fun _ h => absurd h List.not_mem_nil⟩
  exact ⟨_, (hashValues_eq_ok hv accepting_uncheckedRules fun x hx =>
    (hfits x hx).butAddress).mpr ⟨hfits, rfl⟩⟩

theorem bytes32ToEvmAddress_addressText32 {t : Text} (h : isEvmAddress t) :
    bytes32ToEvmAddress (addressText32 t) = lower t := by
  obtain ⟨digits, rfl, hlen, -⟩ := isHexOfLength_iff.mp h
  have hlower : (lower digits).length = 40 := by rw [length_lower, hlen]
  have hdrop : (addressText32 ('0' :: 'x' :: digits)).drop 26 = lower digits := by
    rw [addressText32, List.drop_succ_cons, List.drop_succ_cons, List.drop_succ_cons,
      List.drop_succ_cons, List.drop_zero, padStart, hlower]
    rfl
  have hlength : (addressText32 ('0' :: 'x' :: digits)).length - 40 = 26 := by
    rw [addressText32, List.drop_succ_cons, List.drop_succ_cons, List.drop_zero, padStart]
    simp only [List.length_cons, List.length_append, List.length_replicate, hlower]
  rw [bytes32ToEvmAddress, hlength, hdrop, lower_lower, lower_cons_hex]

/-- **A deposit without a prover is prepared**, when its note is drawn and its envelope fits. -/
theorem exists_prepareDepositNote {p : Platform} {env : Env} (hv : Documented p.viem env.keccak256)
    {i : PrepareInput} {note : DrawnNote} (hplace : Deployed env i.runtime.chainId i.runtime.pool)
    (hruntime : assertRuntime p i.runtime = .ok ()) (hpool : isAddress p.viem i.runtime.pool)
    (hsignature : isWalletSignature i.walletSignature)
    (hnow : i.now ≠ [] ∧ p.isDate i.now) (hdrawn : drawNote p i = .ok note)
    (hvalid : validateSpendMaterialPlaintext p.isDate (i.spendMaterial note) = .ok ())
    (hfits : (depositEnvelope p.crypto i (i.spendMaterial note)).Fits)
    (hproof : i.depositProof = none) :
    ∃ r, prepareDepositNote p i = .ok r ∧ r.spendMaterial = i.spendMaterial note := by
  obtain ⟨hchain, hevm⟩ := assertRuntime_ok hruntime
  have hlt : i.runtime.chainId < 2 ^ 256 := by rcases hchain with h | h <;> rw [h] <;> norm_num
  have hid : isChainId i.runtime.chainId := by rcases hchain with h | h <;> rw [h] <;> decide
  obtain ⟨hpreimage, -⟩ := deriveNoteCommitment_eq_ok.mp (drawNote_ok hdrawn).commitment
  have hamount : Decimal.isDecimal i.amountWei ∧ 0 < Decimal.value i.amountWei :=
    ⟨hpreimage.noteAmountWei.1, hpreimage.noteAmountWei.2.1⟩
  have hword : Decimal.value i.amountWei < 2 ^ 256 :=
    hpreimage.noteAmountWei.2.2.trans (by decide)
  have hcommitment := isHexBytes32_of_deriveNoteCommitment (drawNote_ok hdrawn).commitment
  have hencrypted := encryptDepositNote_eq_ok.mpr
    ⟨⟨hsignature, hid, hevm, hcommitment⟩, hvalid, hfits, rfl⟩
  have hnoteHash := (hashEncryptedDepositNote_eq_ok hv hplace hchain hevm hcommitment
    (isHexString_hexText (depositEnvelope p.crypto i (i.spendMaterial note)).bytes)).mpr
    ⟨hpool, rfl⟩
  obtain ⟨preimage, hcontext⟩ := hashDepositContext_ok hv hlt hpool hcommitment hword
    (isHexBytes32_hex32 (hashToField env (sdkNotePreimage env (word note.commitment)
      (hexBytes (hexText (depositEnvelope p.crypto i (i.spendMaterial note)).bytes)))))
  obtain ⟨binding, hbinding, hinputs⟩ : ∃ binding, createDepositProofBinding p.viem i.runtime
      note.commitment i.amountWei (hexText (depositEnvelope p.crypto i
        (i.spendMaterial note)).bytes) = .ok binding ∧
      resolveDepositProof none binding =
        .ok { proof := ['0', 'x'], publicInputs := binding.publicInputs } := by
    unfold createDepositProofBinding
    rw [hnoteHash, ok_bind, poolHashed, hcontext, ok_bind, ensure_of hword, ok_bind,
      ensure_of hevm, ok_bind]
    refine ⟨_, rfl, ?_⟩
    have hproof : isHexString ['0', 'x'] := by decide
    have hall : ∀ publicInput ∈ [note.commitment, padHex32 (Decimal.value i.amountWei),
        padHex32 i.runtime.chainId, addressText32 i.runtime.pool,
        (poolHashed env preimage).hash, hex32 (hashToField env (sdkNotePreimage env
          (word note.commitment) (hexBytes (hexText (depositEnvelope p.crypto i
            (i.spendMaterial note)).bytes))))], isHexBytes32 publicInput := by
      simp only [List.forall_mem_cons]
      refine ⟨hcommitment, isHexBytes32_padHex32 hword, isHexBytes32_padHex32 hlt, ?_,
        isHexBytes32_hex32 _, isHexBytes32_hex32 _, fun _ h => absurd h List.not_mem_nil⟩
      rw [addressText32_eq hevm]
      exact isHexBytes32_hex32 _
    unfold resolveDepositProof depositProofPacket assertDepositProofPublicInputs
      assertDepositProofBinding
    simp only [ok_bind, bind_eq_ok, ensure_eq_ok, pure_eq_ok]
    refine ⟨(), hproof, _, ⟨(), rfl, (), hall, rfl⟩, (), ⟨(), rfl, (), hexNat_padHex32 hword, (),
      hexNat_padHex32 hlt, (), ?_, (), rfl, rfl⟩, rfl⟩
    change lower (bytes32ToEvmAddress (addressText32 i.runtime.pool)) = lower i.runtime.pool
    rw [bytes32ToEvmAddress_addressText32 hevm, lower_lower]
  unfold prepareDepositNote
  rw [hruntime, ok_bind, ensure_of hsignature, ok_bind, ensure_of hamount, ok_bind,
    ensure_of hnow, ok_bind, hdrawn, ok_bind]
  dsimp only
  rw [hencrypted, ok_bind, hbinding, ok_bind, hproof, hinputs, ok_bind]
  exact ⟨_, rfl, rfl⟩

/-! ### A deposit -/

/-- A digest that tells apart texts of different lengths, up to 2 ^ 16 bytes. -/
def sampleDigest (data : Bytes) : Bytes32 := BitVec.ofNat 256 (data.length % 2 ^ 16)

def sampleEnv : Env := { digitsEnv with keccak256 := sampleDigest }

/-- A platform whose keys are checksums of what they are derived from. -/
def samplePlatform : Platform where
  crypto := Aead.checksumCrypto fun key salt info =>
    Lib.Bytes.beBytes 32 (Aead.checksum key + Aead.checksum salt + Aead.checksum info)
  viem := documentedViem sampleDigest addressText
  poseidon := mixHash
  isDate _ := true
  assertSchema _ := .ok ()
  assertArtifacts _ := .ok ()

def sampleRuntime : NullarkCurrentRuntime where
  environment := "megaeth-testnet-nullark".toList
  chainId := 6343
  rpcUrl := "https://carrot.megaeth.com/rpc".toList
  pool := addressText digitsEnv.this
  withdrawVerifier := addressText 1
  verifierAdapter := addressText 2
  privateTransferVerifier := addressText 3

/-- A deposit of the smallest amount. -/
def sampleInput : PrepareInput where
  runtime := sampleRuntime
  walletSignature := '0' :: 'x' :: List.replicate 130 '1'
  amountWei := "5000000000000000".toList
  now := "2026-01-01T00:00:00.000Z".toList
  randomBytes draw := Lib.Bytes.beBytes 32 (draw + 1)
  nonce := List.replicate 12 9
  depositProof := none

def sampleCommitment : Bytes32 :=
  mixWord (outputPreimage ⟨nativeEthAssetId, sampleInput.amountWei, hex32 1, hex32 2⟩)

def sampleNote : DrawnNote where
  ownerCommitment := hex32 1
  noteSecret := hex32 2
  blinding := hex32 3
  commitment := hex32 sampleCommitment

theorem documented_samplePlatform : Documented samplePlatform.viem sampleEnv.keccak256 :=
  documented_documentedViem _ fun a => ⟨isEvmAddress_addressText a, lower_addressText a⟩

theorem sampleInput_deployed :
    Deployed sampleEnv sampleInput.runtime.chainId sampleInput.runtime.pool :=
  ⟨rfl, (address_addressText _).symm⟩

theorem drawNote_sample : drawNote samplePlatform sampleInput = .ok sampleNote := by
  have hone := @randomField_of_word sampleInput.randomBytes 0 1 rfl (by decide) (by decide)
  have htwo := @randomField_of_word sampleInput.randomBytes 1 2 rfl (by decide) (by decide)
  have hthree := @randomField_of_word sampleInput.randomBytes 2 3 rfl (by decide) (by decide)
  have hcommitment : deriveNoteCommitment samplePlatform.poseidon
      { assetId := nativeEthAssetId, noteAmountWei := sampleInput.amountWei
        ownerCommitment := hex32 1, noteSecret := hex32 2 } = .ok (hex32 sampleCommitment) :=
    deriveNoteCommitment_eq_ok.mpr ⟨⟨isField_hex32 (by decide), by decide,
      isField_hex32 (by decide), isField_hex32 (by decide)⟩,
      ⟨mixHash_pos _, mixHash_lt _⟩, (padHex32_mixHash _).symm⟩
  unfold drawNote
  rw [hone, ok_bind]
  dsimp only
  rw [htwo, ok_bind]
  dsimp only
  rw [hthree, ok_bind]
  dsimp only
  rw [hcommitment, ok_bind]
  rfl

/-- The note is valid in every runtime of the chain. -/
theorem sampleNote_valid {i : PrepareInput} (hchain : i.runtime.chainId = 6343)
    (hpool : isEvmAddress i.runtime.pool) (hamount : i.amountWei = sampleInput.amountWei)
    (hnow : i.now = sampleInput.now) :
    ValidMaterial samplePlatform.isDate (i.spendMaterial sampleNote) where
  version := rfl
  chainId := by
    change isChainId i.runtime.chainId
    rw [hchain]
    decide
  pool := hpool
  assetId := isHexBytes32_hex32 1
  ownerCommitment := isHexBytes32_hex32 1
  noteSecret := isHexBytes32_hex32 2
  blinding := isHexBytes32_hex32 3
  commitment := isHexBytes32_hex32 sampleCommitment
  noteAmountWei := by
    change Decimal.isDecimal i.amountWei ∧ 0 < Decimal.value i.amountWei
    rw [hamount]
    decide
  createdAt := by
    change i.now ≠ [] ∧ true
    rw [hnow]
    decide

theorem sampleRuntime_accepted {pool : Text} (hpool : isEvmAddress pool) :
    assertRuntime samplePlatform { sampleRuntime with pool } = .ok () := by
  have hnetwork : assertNetwork { sampleRuntime with pool } = .ok () :=
    (by decide : assertNetwork sampleRuntime = .ok ())
  have hverifier : isEvmAddress sampleRuntime.withdrawVerifier := isEvmAddress_addressText _
  have hadapter : isEvmAddress sampleRuntime.verifierAdapter := isEvmAddress_addressText _
  have htransfer : isEvmAddress sampleRuntime.privateTransferVerifier := isEvmAddress_addressText _
  unfold assertRuntime
  rw [show samplePlatform.assertSchema { sampleRuntime with pool } = .ok () from rfl, ok_bind,
    hnetwork, ok_bind, ensure_of hpool, ok_bind, ensure_of hverifier, ok_bind,
    ensure_of hadapter, ok_bind, ensure_of htransfer, ok_bind]
  rfl

theorem isWalletSignature_ones :
    isWalletSignature ('0' :: 'x' :: List.replicate 130 '1') := by
  refine ⟨List.length_replicate, fun c hc => ?_⟩
  rw [List.eq_of_mem_replicate hc]
  decide

/-- The sample is prepared. -/
theorem exists_sample : ∃ r, prepareDepositNote samplePlatform sampleInput = .ok r ∧
    r.spendMaterial = sampleInput.spendMaterial sampleNote := by
  have hvalid : validateSpendMaterialPlaintext samplePlatform.isDate
      (sampleInput.spendMaterial sampleNote) = .ok () :=
    validateSpendMaterialPlaintext_eq_ok.mpr
      (sampleNote_valid rfl (isEvmAddress_addressText _) rfl rfl)
  exact exists_prepareDepositNote documented_samplePlatform sampleInput_deployed
    (sampleRuntime_accepted (isEvmAddress_addressText _)) (isAddress_addressText _ _)
    isWalletSignature_ones ⟨by decide, rfl⟩ drawNote_sample
    hvalid (depositEnvelope_fits (Aead.documented_checksum _) rfl _) rfl

/-- The two tuples of a note have different digests. -/
theorem injOn_sample (selector : Bytes4) (commitment : Bytes32) (encryptedNote : Bytes) :
    Set.InjOn (hashToField sampleEnv) {sdkNotePreimage sampleEnv commitment encryptedNote,
      poolNotePreimage sampleEnv selector commitment encryptedNote} := by
  have hlength : (poolNotePreimage sampleEnv selector commitment encryptedNote).length =
      (sdkNotePreimage sampleEnv commitment encryptedNote).length + 96 := by
    rw [sdkNotePreimage, poolNotePreimage, encryptedNotePreimage, length_encode, length_encode]
    simp only [List.length_cons, List.length_nil, tails, depositEncryptedNote]
    omega
  have hhash : ∀ data, (hashToField sampleEnv data).toNat = data.length % 2 ^ 16 := by
    intro data
    have hlt : data.length % 2 ^ 16 < 2 ^ 16 := Nat.mod_lt _ (by decide)
    have hfield : 2 ^ 16 < bn254ScalarField := by decide
    have hdigest : (sampleEnv.keccak256 data).toNat = data.length % 2 ^ 16 := by
      change (BitVec.ofNat 256 (data.length % 2 ^ 16)).toNat = _
      rw [BitVec.toNat_ofNat]
      omega
    rw [toNat_hashToField, hdigest, Nat.mod_eq_of_lt (hlt.trans hfield)]
  have hne : hashToField sampleEnv (sdkNotePreimage sampleEnv commitment encryptedNote) ≠
      hashToField sampleEnv (poolNotePreimage sampleEnv selector commitment encryptedNote) := by
    intro h
    have hnat := congrArg BitVec.toNat h
    rw [hhash, hhash, hlength] at hnat
    omega
  rintro a (rfl | rfl) b (rfl | rfl) h
  · rfl
  · exact absurd h hne
  · exact absurd h.symm hne
  · rfl

/-- **The deposits of the SDK never pass the checks of the pool.** -/
theorem deposit_refused {p : Platform} {env : Env} (hv : Documented p.viem env.keccak256)
    {i : PrepareInput} {r : PreparedDepositNote} (h : prepareDepositNote p i = .ok r)
    (hplace : Deployed env i.runtime.chainId i.runtime.pool)
    (hinj : Set.InjOn (hashToField env)
      {sdkNotePreimage env (word r.commitment) (hexBytes r.encryptedNote),
        poolNotePreimage env r.transaction.call.selector (word r.commitment)
          (hexBytes r.encryptedNote)}) (msg : Msg) :
    ¬DepositArguments env msg (r.transaction.publicInputs.map word)
      (hexBytes r.transaction.encryptedNote) r.transaction.call.selector :=
  not_depositArguments hv h hplace _ hinj msg

/-- The sample is refused. -/
theorem deposit_refused_sample : ∃ r, prepareDepositNote samplePlatform sampleInput = .ok r ∧
    ∀ msg, ¬DepositArguments sampleEnv msg (r.transaction.publicInputs.map word)
      (hexBytes r.transaction.encryptedNote) r.transaction.call.selector :=
  let ⟨r, hr, _⟩ := exists_sample
  ⟨r, hr, fun msg => deposit_refused documented_samplePlatform hr sampleInput_deployed
    (injOn_sample _ _ _) msg⟩

/-- An amount the pool supports and a note that is short enough do not help. -/
theorem supported_deposit_refused : ∃ r, prepareDepositNote samplePlatform sampleInput = .ok r ∧
    Documented samplePlatform.viem sampleEnv.keccak256 ∧
    Deployed sampleEnv sampleInput.runtime.chainId sampleInput.runtime.pool ∧
    isSupportedDenomination r.transaction.value ∧
    (hexBytes r.encryptedNote).length ≤ maxEncryptedNoteBytes ∧
    Set.InjOn (hashToField sampleEnv)
      {sdkNotePreimage sampleEnv (word r.commitment) (hexBytes r.encryptedNote),
        poolNotePreimage sampleEnv r.transaction.call.selector (word r.commitment)
          (hexBytes r.encryptedNote)} ∧
    ∀ msg, msg.value = r.transaction.value →
      ¬DepositArguments sampleEnv msg (r.transaction.publicInputs.map word)
        (hexBytes r.transaction.encryptedNote) r.transaction.call.selector := by
  obtain ⟨r, hr, hmaterial⟩ := exists_sample
  have hprepared := prepareDepositNote_ok hr
  have hlength : (hexBytes r.encryptedNote).length ≤ maxEncryptedNoteBytes := by
    have hc : Aead.Documented samplePlatform.crypto := Aead.documented_checksum _
    have hmaterialLength := (sampleNote_valid (i := sampleInput) rfl (isEvmAddress_addressText _) rfl
      rfl).length_spendBytes (by decide)
    have hciphertext := length_hexBytes (depositEnvelope samplePlatform.crypto sampleInput
      (sampleInput.spendMaterial sampleNote)).ciphertext
    have hsizes : (Decimal.ofNat sampleInput.runtime.chainId).length = 4 ∧
        sampleInput.amountWei.length = 16 ∧ sampleInput.now.length = 24 := by decide
    rw [hprepared.encryptedNote, hexBytes_hexText, hmaterial,
      (depositEnvelope_fits hc rfl _).length_bytes, hexByteLength, ← hciphertext]
    simp only [depositEnvelope, hexBytes_hexText]
    rw [hc.length_encrypt, hmaterialLength]
    simp only [PrepareInput.spendMaterial, hsizes, Aead.tagLength, maxEncryptedNoteBytes]
    omega
  have hvalue : r.transaction.value = Decimal.value sampleInput.amountWei := hprepared.value
  have hsupported : isSupportedDenomination (Decimal.value sampleInput.amountWei) := by decide
  exact ⟨r, hr, documented_samplePlatform, sampleInput_deployed, hvalue ▸ hsupported, hlength,
    injOn_sample _ _ _, fun msg _ => not_depositArguments documented_samplePlatform hr
      sampleInput_deployed _ (injOn_sample _ _ _) msg⟩

end Nullark.Sdk.Deposit
