import Nullark.Js.ContextHashes

/-! # The encoders of the core package

`core` writes every text of a context in lower case before it encodes it, and it does so when a
context is created and again when it is encoded. The relay calls it with a context of its own.

* `hashCreatedProofContextV1_eq_ok`, `hashCreatedRelayerPolicyV1_eq_ok`: what is accepted, and that
  the result is that of the pool. -/

namespace Nullark.Core.Proofs

open Nullark.Lib.Outcome Nullark.Lib.Hex Nullark.Lib.Abi Nullark.Evm.Basic
open Nullark.Pool.Interface Nullark.Pool.Context Nullark.Js.Basic Nullark.Js.Bytes
open Nullark.Js.Package Nullark.Js.ContextHashes

/-! ### Checks -/

def requireBytes32 (value : Text) (fieldName : String) : Throws Text := do
  ensure (isHexBytes32 value) (fieldName ++ " must be a bytes32 hex string")
  return lower value

def requireBytes4 (value : Text) (fieldName : String) : Throws Text := do
  ensure (isHexBytes4 value) (fieldName ++ " must be a bytes4 hex string")
  return lower value

def requireHexBytes (value : Text) (fieldName : String) : Throws Text := do
  ensure (isHexString value) (fieldName ++ " must be hex bytes")
  return lower value

def requireNonZeroBytes32 (value : Text) (fieldName : String) : Throws Text := do
  let bytes32 ← requireBytes32 value fieldName
  ensure (bytes32 ≠ zeroBytes32) (fieldName ++ " must be nonzero")
  return bytes32

def requireAddressAllowZero (value : Text) (fieldName : String) : Throws Text := do
  ensure (isEvmAddress value) (fieldName ++ " must be an address")
  return lower value

def requireAddress (value : Text) (fieldName : String) : Throws Text := do
  let address ← requireAddressAllowZero value fieldName
  ensure (address ≠ zeroAddress) (fieldName ++ " must be nonzero")
  return address

def requireUint256 (value : ℕ) (fieldName : String) : Throws ℕ := do
  ensure (value < 2 ^ 256) (fieldName ++ " exceeds uint256")
  return value

/-- `Number.MAX_SAFE_INTEGER`. -/
def maxSafeInteger : ℕ := 9007199254740991

def requirePositiveSafeInteger (value : ℕ) (fieldName : String) : Throws ℕ := do
  ensure (value ≤ maxSafeInteger ∧ 0 < value) (fieldName ++ " must be a positive safe integer")
  return value

def requireSupportedMegaEthChainId (chainId : ℕ) : Throws ℕ := do
  let _ ← requirePositiveSafeInteger chainId "chainId"
  ensure (chainId = 6343 ∨ chainId = 4326)
    "chainId must be MegaETH testnet 6343 or mainnet 4326"
  return chainId

/-! ### Contexts -/

structure ProofContextV1 where
  domainSeparator : Text
  version : ℕ
  chainId : ℕ
  pool : Text
  shape : Text
  selector : Text
  root : Text
  nullifier : Text
  destination : Text
  grossAmount : ℕ
  fee : ℕ
  encryptedNoteHash : Text
  relayerPolicyHash : Text
  deadlineOrZero : ℕ

structure RelayerPolicyV1 where
  domainSeparator : Text
  version : ℕ
  relayer : Text
  minNetAmount : ℕ
  maxFeeAmount : ℕ
  deadlineOrZero : ℕ

/-- A note of v1.1, whose bytes are hashed with it. -/
structure EncryptedNoteV1 where
  domainSeparator : Text
  version : ℕ
  chainId : ℕ
  pool : Text
  shape : Text
  selector : Text
  nullifier : Text
  commitment : Text
  noteAmount : ℕ
  encryptedNote : Text

def normalizeProofContextV1 (input : ProofContextV1) : Throws ProofContextV1 := do
  let domainSeparator ← requireBytes32 input.domainSeparator "domainSeparator"
  let version ← requireUint256 input.version "version"
  let chainId ← requireSupportedMegaEthChainId input.chainId
  let pool ← requireAddress input.pool "pool"
  let shape ← requireBytes32 input.shape "shape"
  let selector ← requireBytes4 input.selector "selector"
  let root ← requireNonZeroBytes32 input.root "root"
  let nullifier ← requireNonZeroBytes32 input.nullifier "nullifier"
  let destination ← requireAddressAllowZero input.destination "destination"
  let grossAmount ← requireUint256 input.grossAmount "grossAmount"
  let fee ← requireUint256 input.fee "fee"
  let encryptedNoteHash ← requireBytes32 input.encryptedNoteHash "encryptedNoteHash"
  let relayerPolicyHash ← requireBytes32 input.relayerPolicyHash "relayerPolicyHash"
  let deadlineOrZero ← requireUint256 input.deadlineOrZero "deadlineOrZero"
  return { domainSeparator, version, chainId, pool, shape, selector, root, nullifier, destination
           grossAmount, fee, encryptedNoteHash, relayerPolicyHash, deadlineOrZero }

def normalizeRelayerPolicyV1 (input : RelayerPolicyV1) : Throws RelayerPolicyV1 := do
  let domainSeparator ← requireBytes32 input.domainSeparator "domainSeparator"
  let version ← requireUint256 input.version "version"
  let relayer ← requireAddressAllowZero input.relayer "relayer"
  let minNetAmount ← requireUint256 input.minNetAmount "minNetAmount"
  let maxFeeAmount ← requireUint256 input.maxFeeAmount "maxFeeAmount"
  let deadlineOrZero ← requireUint256 input.deadlineOrZero "deadlineOrZero"
  return { domainSeparator, version, relayer, minNetAmount, maxFeeAmount, deadlineOrZero }

def normalizeEncryptedNoteV1 (input : EncryptedNoteV1) : Throws EncryptedNoteV1 := do
  let domainSeparator ← requireBytes32 input.domainSeparator "domainSeparator"
  let version ← requireUint256 input.version "version"
  let chainId ← requireSupportedMegaEthChainId input.chainId
  let pool ← requireAddress input.pool "pool"
  let shape ← requireBytes32 input.shape "shape"
  let selector ← requireBytes4 input.selector "selector"
  let nullifier ← requireNonZeroBytes32 input.nullifier "nullifier"
  let commitment ← requireBytes32 input.commitment "commitment"
  let noteAmount ← requireUint256 input.noteAmount "noteAmount"
  let encryptedNote ← requireHexBytes input.encryptedNote "encryptedNote"
  return { domainSeparator, version, chainId, pool, shape, selector, nullifier, commitment
           noteAmount, encryptedNote }

section Code
variable (v : Viem)

/-- The fields the relay leaves out have their defaults. -/
def withDefaults (input : ProofContextInput) : ProofContextV1 where
  domainSeparator := hashDomainSeparator v "nullark.proof-context.v1"
  version := 1
  chainId := input.chainId
  pool := input.pool
  shape := input.shape
  selector := input.selector
  root := input.root
  nullifier := input.nullifier
  destination := input.destination
  grossAmount := input.grossAmount
  fee := input.fee
  encryptedNoteHash := input.encryptedNoteHash
  relayerPolicyHash := input.relayerPolicyHash
  deadlineOrZero := input.deadlineOrZero

def createProofContextV1 (input : ProofContextInput) : Throws ProofContextV1 :=
  normalizeProofContextV1 (withDefaults v input)

def policyWithDefaults (input : RelayerPolicyInput) : RelayerPolicyV1 where
  domainSeparator := hashDomainSeparator v "nullark.relayer-policy.v1"
  version := 1
  relayer := input.relayer
  minNetAmount := input.minNetAmount
  maxFeeAmount := input.maxFeeAmount
  deadlineOrZero := input.deadlineOrZero

def createRelayerPolicyV1 (input : RelayerPolicyInput) : Throws RelayerPolicyV1 :=
  normalizeRelayerPolicyV1 (policyWithDefaults v input)

/-- The fields of a note that the relay gives. -/
structure EncryptedNoteInput where
  chainId : ℕ
  pool : Text
  shape : Text
  selector : Text
  nullifier : Text
  commitment : Text
  noteAmount : ℕ
  encryptedNote : Text

def noteWithDefaults (input : EncryptedNoteInput) : EncryptedNoteV1 where
  domainSeparator := hashDomainSeparator v "nullark.encrypted-note.v1"
  version := 1
  chainId := input.chainId
  pool := input.pool
  shape := input.shape
  selector := input.selector
  nullifier := input.nullifier
  commitment := input.commitment
  noteAmount := input.noteAmount
  encryptedNote := input.encryptedNote

def createEncryptedNoteV1 (input : EncryptedNoteInput) : Throws EncryptedNoteV1 :=
  normalizeEncryptedNoteV1 (noteWithDefaults v input)

/-- `PROOF_CONTEXT_V1_ABI_PARAMETERS` and the values for them. -/
def ProofContextV1.values (context : ProofContextV1) : List AbiValue :=
  [.bytes32 context.domainSeparator, .uint256 context.version, .uint256 context.chainId,
    .address context.pool, .bytes32 context.shape, .bytes4 context.selector,
    .bytes32 context.root, .bytes32 context.nullifier, .address context.destination,
    .uint256 context.grossAmount, .uint256 context.fee, .bytes32 context.encryptedNoteHash,
    .bytes32 context.relayerPolicyHash, .uint256 context.deadlineOrZero]

/-- `RELAYER_POLICY_V1_ABI_PARAMETERS` and the values for them. -/
def RelayerPolicyV1.values (policy : RelayerPolicyV1) : List AbiValue :=
  [.bytes32 policy.domainSeparator, .uint256 policy.version, .address policy.relayer,
    .uint256 policy.minNetAmount, .uint256 policy.maxFeeAmount, .uint256 policy.deadlineOrZero]

/-- `ENCRYPTED_NOTE_V1_ABI_PARAMETERS` and the values for them. -/
def EncryptedNoteV1.values (note : EncryptedNoteV1) : List AbiValue :=
  [.bytes32 note.domainSeparator, .uint256 note.version, .uint256 note.chainId,
    .address note.pool, .bytes32 note.shape, .bytes4 note.selector, .bytes32 note.nullifier,
    .bytes32 note.commitment, .uint256 note.noteAmount, .bytes note.encryptedNote]

def encodeProofContextV1 (input : ProofContextV1) : Throws Text := do
  let context ← normalizeProofContextV1 input
  v.encodeAbiParameters context.values

def encodeRelayerPolicyV1 (input : RelayerPolicyV1) : Throws Text := do
  let policy ← normalizeRelayerPolicyV1 input
  v.encodeAbiParameters policy.values

def encodeEncryptedNoteV1 (input : EncryptedNoteV1) : Throws Text := do
  let note ← normalizeEncryptedNoteV1 input
  v.encodeAbiParameters note.values

def encodeUint256 (value : ℕ) (fieldName : String) : Throws Text := do
  ensure (value < 2 ^ 256) (fieldName ++ " exceeds uint256")
  return padHex32 value

def reduceKeccakToField (hash : Text) : Throws Text := do
  let hash ← requireBytes32 hash "hash"
  let value ← bigInt hash
  encodeUint256 (value % bn254ScalarField) "hashField"

def hashAbiEncodedToField (encoded : Text) : Throws Text := do
  let encoded ← requireHexBytes encoded "encoded"
  let hash ← v.keccak256 encoded
  reduceKeccakToField hash

/-- `hashProofContextV1`, with what is hashed. -/
def hashProofContextV1 (input : ProofContextV1) : Throws Hashed := do
  let preimage ← encodeProofContextV1 v input
  let hash ← hashAbiEncodedToField v preimage
  return { preimage, hash }

/-- `hashRelayerPolicyV1`, with what is hashed. -/
def hashRelayerPolicyV1 (input : RelayerPolicyV1) : Throws Hashed := do
  let preimage ← encodeRelayerPolicyV1 v input
  let hash ← hashAbiEncodedToField v preimage
  return { preimage, hash }

/-- `hashEncryptedNoteV1`, with what is hashed. -/
def hashEncryptedNoteV1 (input : EncryptedNoteV1) : Throws Hashed := do
  let preimage ← encodeEncryptedNoteV1 v input
  let hash ← hashAbiEncodedToField v preimage
  return { preimage, hash }

end Code

/-! ### What the checks accept -/

section Checks
variable {t r : Text} {fieldName : String}

theorem requireBytes32_eq_ok :
    requireBytes32 t fieldName = .ok r ↔ isHexBytes32 t ∧ r = lower t := by
  unfold requireBytes32
  simp only [bind_eq_ok, ensure_eq_ok, exists_const, pure_eq_ok, eq_comm (a := r)]

theorem requireBytes4_eq_ok : requireBytes4 t fieldName = .ok r ↔ isHexBytes4 t ∧ r = lower t := by
  unfold requireBytes4
  simp only [bind_eq_ok, ensure_eq_ok, exists_const, pure_eq_ok, eq_comm (a := r)]

theorem requireHexBytes_eq_ok :
    requireHexBytes t fieldName = .ok r ↔ isHexString t ∧ r = lower t := by
  unfold requireHexBytes
  simp only [bind_eq_ok, ensure_eq_ok, exists_const, pure_eq_ok, eq_comm (a := r)]

theorem requireNonZeroBytes32_eq_ok : requireNonZeroBytes32 t fieldName = .ok r ↔
    (isHexBytes32 t ∧ lower t ≠ zeroBytes32) ∧ r = lower t := by
  unfold requireNonZeroBytes32
  simp only [bind_eq_ok, ensure_eq_ok, exists_const, pure_eq_ok, requireBytes32_eq_ok]
  constructor
  · rintro ⟨_, ⟨hpattern, rfl⟩, hne, rfl⟩
    exact ⟨⟨hpattern, hne⟩, rfl⟩
  · rintro ⟨⟨hpattern, hne⟩, rfl⟩
    exact ⟨_, ⟨hpattern, rfl⟩, hne, rfl⟩

theorem requireAddressAllowZero_eq_ok :
    requireAddressAllowZero t fieldName = .ok r ↔ isEvmAddress t ∧ r = lower t := by
  unfold requireAddressAllowZero
  simp only [bind_eq_ok, ensure_eq_ok, exists_const, pure_eq_ok, eq_comm (a := r)]

theorem requireAddress_eq_ok : requireAddress t fieldName = .ok r ↔
    (isEvmAddress t ∧ lower t ≠ zeroAddress) ∧ r = lower t := by
  unfold requireAddress
  simp only [bind_eq_ok, ensure_eq_ok, exists_const, pure_eq_ok, requireAddressAllowZero_eq_ok]
  constructor
  · rintro ⟨_, ⟨hpattern, rfl⟩, hne, rfl⟩
    exact ⟨⟨hpattern, hne⟩, rfl⟩
  · rintro ⟨⟨hpattern, hne⟩, rfl⟩
    exact ⟨_, ⟨hpattern, rfl⟩, hne, rfl⟩

theorem requireUint256_eq_ok {n m : ℕ} :
    requireUint256 n fieldName = .ok m ↔ n < 2 ^ 256 ∧ m = n := by
  unfold requireUint256
  simp only [bind_eq_ok, ensure_eq_ok, exists_const, pure_eq_ok, eq_comm (a := m)]

theorem requireSupportedMegaEthChainId_eq_ok {n m : ℕ} :
    requireSupportedMegaEthChainId n = .ok m ↔ (n = 6343 ∨ n = 4326) ∧ m = n := by
  unfold requireSupportedMegaEthChainId requirePositiveSafeInteger maxSafeInteger
  simp only [bind_eq_ok, ensure_eq_ok, exists_const, pure_eq_ok]
  constructor
  · rintro ⟨_, ⟨-, rfl⟩, h, rfl⟩
    exact ⟨h, rfl⟩
  · rintro ⟨h, rfl⟩
    exact ⟨_, ⟨by omega, rfl⟩, h, rfl⟩

end Checks

/-- What `normalizeProofContextV1` accepts. -/
structure ProofContextV1.Fits (c : ProofContextV1) : Prop where
  domainSeparator : isHexBytes32 c.domainSeparator
  version : c.version < 2 ^ 256
  chainId : c.chainId = 6343 ∨ c.chainId = 4326
  pool : isEvmAddress c.pool ∧ lower c.pool ≠ zeroAddress
  shape : isHexBytes32 c.shape
  selector : isHexBytes4 c.selector
  root : isHexBytes32 c.root ∧ lower c.root ≠ zeroBytes32
  nullifier : isHexBytes32 c.nullifier ∧ lower c.nullifier ≠ zeroBytes32
  destination : isEvmAddress c.destination
  grossAmount : c.grossAmount < 2 ^ 256
  fee : c.fee < 2 ^ 256
  encryptedNoteHash : isHexBytes32 c.encryptedNoteHash
  relayerPolicyHash : isHexBytes32 c.relayerPolicyHash
  deadlineOrZero : c.deadlineOrZero < 2 ^ 256

/-- What it returns. -/
def ProofContextV1.lowered (c : ProofContextV1) : ProofContextV1 :=
  { c with
    domainSeparator := lower c.domainSeparator, pool := lower c.pool, shape := lower c.shape
    selector := lower c.selector, root := lower c.root, nullifier := lower c.nullifier
    destination := lower c.destination, encryptedNoteHash := lower c.encryptedNoteHash
    relayerPolicyHash := lower c.relayerPolicyHash }

theorem normalizeProofContextV1_eq_ok {c d : ProofContextV1} :
    normalizeProofContextV1 c = .ok d ↔ c.Fits ∧ d = c.lowered := by
  unfold normalizeProofContextV1
  simp only [bind_eq_ok, pure_eq_ok, requireBytes32_eq_ok, requireUint256_eq_ok,
    requireSupportedMegaEthChainId_eq_ok, requireAddress_eq_ok, requireBytes4_eq_ok,
    requireNonZeroBytes32_eq_ok, requireAddressAllowZero_eq_ok]
  constructor
  · rintro ⟨_, ⟨h1, rfl⟩, _, ⟨h2, rfl⟩, _, ⟨h3, rfl⟩, _, ⟨h4, rfl⟩, _, ⟨h5, rfl⟩, _, ⟨h6, rfl⟩, _,
      ⟨h7, rfl⟩, _, ⟨h8, rfl⟩, _, ⟨h9, rfl⟩, _, ⟨h10, rfl⟩, _, ⟨h11, rfl⟩, _, ⟨h12, rfl⟩, _,
      ⟨h13, rfl⟩, _, ⟨h14, rfl⟩, rfl⟩
    exact ⟨⟨h1, h2, h3, h4, h5, h6, h7, h8, h9, h10, h11, h12, h13, h14⟩, rfl⟩
  · rintro ⟨⟨h1, h2, h3, h4, h5, h6, h7, h8, h9, h10, h11, h12, h13, h14⟩, rfl⟩
    exact ⟨_, ⟨h1, rfl⟩, _, ⟨h2, rfl⟩, _, ⟨h3, rfl⟩, _, ⟨h4, rfl⟩, _, ⟨h5, rfl⟩, _, ⟨h6, rfl⟩, _,
      ⟨h7, rfl⟩, _, ⟨h8, rfl⟩, _, ⟨h9, rfl⟩, _, ⟨h10, rfl⟩, _, ⟨h11, rfl⟩, _, ⟨h12, rfl⟩, _,
      ⟨h13, rfl⟩, _, ⟨h14, rfl⟩, rfl⟩

/-- What `normalizeRelayerPolicyV1` accepts. -/
structure RelayerPolicyV1.Fits (p : RelayerPolicyV1) : Prop where
  domainSeparator : isHexBytes32 p.domainSeparator
  version : p.version < 2 ^ 256
  relayer : isEvmAddress p.relayer
  minNetAmount : p.minNetAmount < 2 ^ 256
  maxFeeAmount : p.maxFeeAmount < 2 ^ 256
  deadlineOrZero : p.deadlineOrZero < 2 ^ 256

def RelayerPolicyV1.lowered (p : RelayerPolicyV1) : RelayerPolicyV1 :=
  { p with domainSeparator := lower p.domainSeparator, relayer := lower p.relayer }

theorem normalizeRelayerPolicyV1_eq_ok {p q : RelayerPolicyV1} :
    normalizeRelayerPolicyV1 p = .ok q ↔ p.Fits ∧ q = p.lowered := by
  unfold normalizeRelayerPolicyV1
  simp only [bind_eq_ok, pure_eq_ok, requireBytes32_eq_ok, requireUint256_eq_ok,
    requireAddressAllowZero_eq_ok]
  constructor
  · rintro ⟨_, ⟨h1, rfl⟩, _, ⟨h2, rfl⟩, _, ⟨h3, rfl⟩, _, ⟨h4, rfl⟩, _, ⟨h5, rfl⟩, _, ⟨h6, rfl⟩, rfl⟩
    exact ⟨⟨h1, h2, h3, h4, h5, h6⟩, rfl⟩
  · rintro ⟨⟨h1, h2, h3, h4, h5, h6⟩, rfl⟩
    exact ⟨_, ⟨h1, rfl⟩, _, ⟨h2, rfl⟩, _, ⟨h3, rfl⟩, _, ⟨h4, rfl⟩, _, ⟨h5, rfl⟩, _, ⟨h6, rfl⟩, rfl⟩

/-- What `normalizeEncryptedNoteV1` accepts. -/
structure EncryptedNoteV1.Fits (n : EncryptedNoteV1) : Prop where
  domainSeparator : isHexBytes32 n.domainSeparator
  version : n.version < 2 ^ 256
  chainId : n.chainId = 6343 ∨ n.chainId = 4326
  pool : isEvmAddress n.pool ∧ lower n.pool ≠ zeroAddress
  shape : isHexBytes32 n.shape
  selector : isHexBytes4 n.selector
  nullifier : isHexBytes32 n.nullifier ∧ lower n.nullifier ≠ zeroBytes32
  commitment : isHexBytes32 n.commitment
  noteAmount : n.noteAmount < 2 ^ 256
  encryptedNote : isHexString n.encryptedNote

def EncryptedNoteV1.lowered (n : EncryptedNoteV1) : EncryptedNoteV1 :=
  { n with
    domainSeparator := lower n.domainSeparator, pool := lower n.pool, shape := lower n.shape
    selector := lower n.selector, nullifier := lower n.nullifier
    commitment := lower n.commitment, encryptedNote := lower n.encryptedNote }

theorem normalizeEncryptedNoteV1_eq_ok {n m : EncryptedNoteV1} :
    normalizeEncryptedNoteV1 n = .ok m ↔ n.Fits ∧ m = n.lowered := by
  unfold normalizeEncryptedNoteV1
  simp only [bind_eq_ok, pure_eq_ok, requireBytes32_eq_ok, requireUint256_eq_ok,
    requireSupportedMegaEthChainId_eq_ok, requireAddress_eq_ok, requireBytes4_eq_ok,
    requireNonZeroBytes32_eq_ok, requireHexBytes_eq_ok]
  constructor
  · rintro ⟨_, ⟨h1, rfl⟩, _, ⟨h2, rfl⟩, _, ⟨h3, rfl⟩, _, ⟨h4, rfl⟩, _, ⟨h5, rfl⟩, _, ⟨h6, rfl⟩, _,
      ⟨h7, rfl⟩, _, ⟨h8, rfl⟩, _, ⟨h9, rfl⟩, _, ⟨h10, rfl⟩, rfl⟩
    exact ⟨⟨h1, h2, h3, h4, h5, h6, h7, h8, h9, h10⟩, rfl⟩
  · rintro ⟨⟨h1, h2, h3, h4, h5, h6, h7, h8, h9, h10⟩, rfl⟩
    exact ⟨_, ⟨h1, rfl⟩, _, ⟨h2, rfl⟩, _, ⟨h3, rfl⟩, _, ⟨h4, rfl⟩, _, ⟨h5, rfl⟩, _, ⟨h6, rfl⟩, _,
      ⟨h7, rfl⟩, _, ⟨h8, rfl⟩, _, ⟨h9, rfl⟩, _, ⟨h10, rfl⟩, rfl⟩

/-! ### The hashes are those of the pool -/

/-- A normal form is one of its own. -/
theorem ProofContextV1.Fits.normalize_lowered {c : ProofContextV1} (h : c.Fits) :
    normalizeProofContextV1 c.lowered = .ok c.lowered := by
  rw [normalizeProofContextV1_eq_ok]
  obtain ⟨h1, h2, h3, h4, h5, h6, h7, h8, h9, h10, h11, h12, h13, h14⟩ := h
  refine ⟨⟨isHexOfLength_lower h1, h2, h3, ⟨isHexOfLength_lower h4.1, ?_⟩, isHexOfLength_lower h5,
    isHexOfLength_lower h6, ⟨isHexOfLength_lower h7.1, ?_⟩, ⟨isHexOfLength_lower h8.1, ?_⟩,
    isHexOfLength_lower h9, h10, h11, isHexOfLength_lower h12, isHexOfLength_lower h13, h14⟩, ?_⟩
  · exact (lower_lower c.pool).symm ▸ h4.2
  · exact (lower_lower c.root).symm ▸ h7.2
  · exact (lower_lower c.nullifier).symm ▸ h8.2
  · simp only [ProofContextV1.lowered, lower_lower]

theorem RelayerPolicyV1.Fits.normalize_lowered {p : RelayerPolicyV1} (h : p.Fits) :
    normalizeRelayerPolicyV1 p.lowered = .ok p.lowered := by
  rw [normalizeRelayerPolicyV1_eq_ok]
  obtain ⟨h1, h2, h3, h4, h5, h6⟩ := h
  refine ⟨⟨isHexOfLength_lower h1, h2, isHexOfLength_lower h3, h4, h5, h6⟩, ?_⟩
  simp only [RelayerPolicyV1.lowered, lower_lower]

theorem isHexString_lower {t : Text} (h : isHexString t) : isHexString (lower t) := by
  rw [← hexText_hexBytes h]
  exact isHexString_hexText _

theorem EncryptedNoteV1.Fits.normalize_lowered {n : EncryptedNoteV1} (h : n.Fits) :
    normalizeEncryptedNoteV1 n.lowered = .ok n.lowered := by
  rw [normalizeEncryptedNoteV1_eq_ok]
  obtain ⟨h1, h2, h3, h4, h5, h6, h7, h8, h9, h10⟩ := h
  refine ⟨⟨isHexOfLength_lower h1, h2, h3, ⟨isHexOfLength_lower h4.1, ?_⟩, isHexOfLength_lower h5,
    isHexOfLength_lower h6, ⟨isHexOfLength_lower h7.1, ?_⟩, isHexOfLength_lower h8, h9,
    isHexString_lower h10⟩, ?_⟩
  · exact (lower_lower n.pool).symm ▸ h4.2
  · exact (lower_lower n.nullifier).symm ▸ h7.2
  · simp only [EncryptedNoteV1.lowered, lower_lower]

/-- What `createProofContextV1` accepts of the relay. -/
structure ContextFits (i : ProofContextInput) : Prop where
  chainId : i.chainId = 6343 ∨ i.chainId = 4326
  pool : isEvmAddress i.pool ∧ lower i.pool ≠ zeroAddress
  shape : isHexBytes32 i.shape
  selector : isHexBytes4 i.selector
  root : isHexBytes32 i.root ∧ lower i.root ≠ zeroBytes32
  nullifier : isHexBytes32 i.nullifier ∧ lower i.nullifier ≠ zeroBytes32
  destination : isEvmAddress i.destination
  grossAmount : i.grossAmount < 2 ^ 256
  fee : i.fee < 2 ^ 256
  encryptedNoteHash : isHexBytes32 i.encryptedNoteHash
  relayerPolicyHash : isHexBytes32 i.relayerPolicyHash
  deadlineOrZero : i.deadlineOrZero < 2 ^ 256

/-- What `createRelayerPolicyV1` accepts. -/
structure PolicyFits (i : RelayerPolicyInput) : Prop where
  relayer : isEvmAddress i.relayer
  minNetAmount : i.minNetAmount < 2 ^ 256
  maxFeeAmount : i.maxFeeAmount < 2 ^ 256
  deadlineOrZero : i.deadlineOrZero < 2 ^ 256

/-- What `createEncryptedNoteV1` accepts. -/
structure EncryptedNoteFits (i : EncryptedNoteInput) : Prop where
  chainId : i.chainId = 6343 ∨ i.chainId = 4326
  pool : isEvmAddress i.pool ∧ lower i.pool ≠ zeroAddress
  shape : isHexBytes32 i.shape
  selector : isHexBytes4 i.selector
  nullifier : isHexBytes32 i.nullifier ∧ lower i.nullifier ≠ zeroBytes32
  commitment : isHexBytes32 i.commitment
  noteAmount : i.noteAmount < 2 ^ 256
  encryptedNote : isHexString i.encryptedNote

section Spec
variable {v : Viem} {env : Env} (hv : Documented v env.keccak256)
include hv

theorem hashAbiEncodedToField_hexText (encoded : Bytes) :
    hashAbiEncodedToField v (hexText encoded) = .ok (hex32 (hashToField env encoded)) := by
  have hhex := isHexString_hexText encoded
  have hdigest := hv.digest _ hhex
  rw [hexBytes_hexText] at hdigest
  have hpattern := isHexBytes32_hex32 (env.keccak256 encoded)
  have hlt : (hashToField env encoded).toNat < 2 ^ 256 := (hashToField env encoded).isLt
  unfold hashAbiEncodedToField reduceKeccakToField encodeUint256
  rw [requireHexBytes_eq_ok.mpr ⟨hhex, rfl⟩, ok_bind, lower_hexText, hdigest, ok_bind,
    requireBytes32_eq_ok.mpr ⟨hpattern, rfl⟩, ok_bind, lower_hex32, bigInt_hex32, ok_bind,
    ← toNat_hashToField, ensure_of hlt, ok_bind]
  exact congrArg Except.ok (padHex32_toNat _)

omit hv in
theorem isAddress_lower {t : Text} (h : isEvmAddress t) : isAddress v (lower t) :=
  ⟨isHexOfLength_lower h, Or.inl (lower_lower t)⟩

theorem encodeProofContextV1_lowered {c : ProofContextV1} (h : c.Fits) :
    encodeProofContextV1 v c.lowered = .ok (hexText (encode (c.values.map (·.component)))) := by
  have hnormal := h.normalize_lowered
  obtain ⟨h1, h2, h3, h4, h5, h6, h7, h8, h9, h10, h11, h12, h13, h14⟩ := h
  have hchain : c.chainId < 2 ^ 256 := by omega
  have hfits : ∀ x ∈ c.lowered.values, x.Fits v := by
    simp only [ProofContextV1.values, ProofContextV1.lowered, List.forall_mem_cons, AbiValue.Fits]
    exact ⟨isHexOfLength_lower h1, h2, hchain, isAddress_lower h4.1, isHexOfLength_lower h5,
      isHexOfLength_lower h6, isHexOfLength_lower h7.1, isHexOfLength_lower h8.1,
      isAddress_lower h9, h10, h11, isHexOfLength_lower h12, isHexOfLength_lower h13, h14,
      fun _ h => absurd h List.not_mem_nil⟩
  have hcomponents : c.lowered.values.map (·.component) = c.values.map (·.component) := by
    simp only [ProofContextV1.values, ProofContextV1.lowered, List.map_cons, List.map_nil,
      AbiValue.component, word_of_lower, address_lower h4.1, word_of_lower, bytes4_lower h6,
      word_of_lower, word_of_lower, address_lower h9, word_of_lower, word_of_lower]
  unfold encodeProofContextV1
  rw [hnormal, ok_bind, hv.encode _ hfits, hcomponents]

theorem encodeRelayerPolicyV1_lowered {p : RelayerPolicyV1} (h : p.Fits) :
    encodeRelayerPolicyV1 v p.lowered = .ok (hexText (encode (p.values.map (·.component)))) := by
  have hnormal := h.normalize_lowered
  obtain ⟨h1, h2, h3, h4, h5, h6⟩ := h
  have hfits : ∀ x ∈ p.lowered.values, x.Fits v := by
    simp only [RelayerPolicyV1.values, RelayerPolicyV1.lowered, List.forall_mem_cons,
      AbiValue.Fits]
    exact ⟨isHexOfLength_lower h1, h2, isAddress_lower h3, h4, h5, h6,
      fun _ h => absurd h List.not_mem_nil⟩
  have hcomponents : p.lowered.values.map (·.component) = p.values.map (·.component) := by
    simp only [RelayerPolicyV1.values, RelayerPolicyV1.lowered, List.map_cons, List.map_nil,
      AbiValue.component, word_of_lower, address_lower h3]
  unfold encodeRelayerPolicyV1
  rw [hnormal, ok_bind, hv.encode _ hfits, hcomponents]

theorem encodeEncryptedNoteV1_lowered {n : EncryptedNoteV1} (h : n.Fits) :
    encodeEncryptedNoteV1 v n.lowered = .ok (hexText (encode (n.values.map (·.component)))) := by
  have hnormal := h.normalize_lowered
  obtain ⟨h1, h2, h3, h4, h5, h6, h7, h8, h9, h10⟩ := h
  have hchain : n.chainId < 2 ^ 256 := by omega
  have hfits : ∀ x ∈ n.lowered.values, x.Fits v := by
    simp only [EncryptedNoteV1.values, EncryptedNoteV1.lowered, List.forall_mem_cons,
      AbiValue.Fits]
    exact ⟨isHexOfLength_lower h1, h2, hchain, isAddress_lower h4.1, isHexOfLength_lower h5,
      isHexOfLength_lower h6, isHexOfLength_lower h7.1, isHexOfLength_lower h8, h9,
      isHexString_lower h10, fun _ h => absurd h List.not_mem_nil⟩
  have hcomponents : n.lowered.values.map (·.component) = n.values.map (·.component) := by
    simp only [EncryptedNoteV1.values, EncryptedNoteV1.lowered, List.map_cons, List.map_nil,
      AbiValue.component, word_of_lower, address_lower h4.1, bytes4_lower h6, hexBytes_lower h10]
  unfold encodeEncryptedNoteV1
  rw [hnormal, ok_bind, hv.encode _ hfits, hcomponents]

/-- **A note created and hashed.** -/
theorem hashCreatedEncryptedNoteV1_eq_ok {i : EncryptedNoteInput} {h : Hashed} :
    (createEncryptedNoteV1 v i >>= hashEncryptedNoteV1 v) = .ok h ↔ EncryptedNoteFits i ∧
      h = poolHashed env (encode ((noteWithDefaults v i).values.map (·.component))) := by
  have hhash : (noteWithDefaults v i).Fits → hashEncryptedNoteV1 v (noteWithDefaults v i).lowered =
      .ok (poolHashed env (encode ((noteWithDefaults v i).values.map (·.component)))) := by
    intro hn
    unfold hashEncryptedNoteV1
    rw [encodeEncryptedNoteV1_lowered hv hn, ok_bind, hashAbiEncodedToField_hexText hv]
    rfl
  simp only [bind_eq_ok, createEncryptedNoteV1, normalizeEncryptedNoteV1_eq_ok]
  constructor
  · rintro ⟨_, ⟨hn, rfl⟩, hh⟩
    rw [hhash hn] at hh
    obtain ⟨-, -, h3, h4, h5, h6, h7, h8, h9, h10⟩ := hn
    exact ⟨⟨h3, h4, h5, h6, h7, h8, h9, h10⟩, (Except.ok.inj hh).symm⟩
  · rintro ⟨⟨h3, h4, h5, h6, h7, h8, h9, h10⟩, rfl⟩
    have hdomain := isHexBytes32_hashDomainSeparator hv "nullark.encrypted-note.v1"
    have hn : (noteWithDefaults v i).Fits :=
      ⟨hdomain, Nat.one_lt_two_pow (by decide), h3, h4, h5, h6, h7, h8, h9, h10⟩
    exact ⟨_, ⟨hn, rfl⟩, hhash hn⟩

/-- **A context created and hashed.** -/
theorem hashCreatedProofContextV1_eq_ok {i : ProofContextInput} {h : Hashed}
    (hplace : Deployed env i.chainId i.pool) :
    (createProofContextV1 v i >>= hashProofContextV1 v) = .ok h ↔
      ContextFits i ∧ h = poolHashed env (proofContextPreimage env i.read) := by
  have hhash : (withDefaults v i).Fits → hashProofContextV1 v (withDefaults v i).lowered =
      .ok (poolHashed env (proofContextPreimage env i.read)) := by
    intro hc
    unfold hashProofContextV1
    rw [encodeProofContextV1_lowered hv hc, ok_bind, hashAbiEncodedToField_hexText hv,
      ← encode_proofContext hv hplace]
    rfl
  simp only [bind_eq_ok, createProofContextV1, normalizeProofContextV1_eq_ok]
  constructor
  · rintro ⟨_, ⟨hc, rfl⟩, hh⟩
    rw [hhash hc] at hh
    obtain ⟨-, -, h3, h4, h5, h6, h7, h8, h9, h10, h11, h12, h13, h14⟩ := hc
    exact ⟨⟨h3, h4, h5, h6, h7, h8, h9, h10, h11, h12, h13, h14⟩, (Except.ok.inj hh).symm⟩
  · rintro ⟨⟨h3, h4, h5, h6, h7, h8, h9, h10, h11, h12, h13, h14⟩, rfl⟩
    have hdomain := isHexBytes32_hashDomainSeparator hv "nullark.proof-context.v1"
    have hc : (withDefaults v i).Fits :=
      ⟨hdomain, Nat.one_lt_two_pow (by decide), h3, h4, h5, h6, h7, h8, h9, h10, h11, h12, h13,
        h14⟩
    exact ⟨_, ⟨hc, rfl⟩, hhash hc⟩

/-- **A policy created and hashed.** -/
theorem hashCreatedRelayerPolicyV1_eq_ok {i : RelayerPolicyInput} {h : Hashed} :
    (createRelayerPolicyV1 v i >>= hashRelayerPolicyV1 v) = .ok h ↔
      PolicyFits i ∧ h = poolHashed env (relayerPolicyPreimage env i.read) := by
  have hhash : (policyWithDefaults v i).Fits →
      hashRelayerPolicyV1 v (policyWithDefaults v i).lowered =
        .ok (poolHashed env (relayerPolicyPreimage env i.read)) := by
    intro hp
    unfold hashRelayerPolicyV1
    rw [encodeRelayerPolicyV1_lowered hv hp, ok_bind, hashAbiEncodedToField_hexText hv,
      ← encode_relayerPolicy hv]
    rfl
  simp only [bind_eq_ok, createRelayerPolicyV1, normalizeRelayerPolicyV1_eq_ok]
  constructor
  · rintro ⟨_, ⟨hp, rfl⟩, hh⟩
    rw [hhash hp] at hh
    obtain ⟨-, -, h3, h4, h5, h6⟩ := hp
    exact ⟨⟨h3, h4, h5, h6⟩, (Except.ok.inj hh).symm⟩
  · rintro ⟨⟨h3, h4, h5, h6⟩, rfl⟩
    have hdomain := isHexBytes32_hashDomainSeparator hv "nullark.relayer-policy.v1"
    have hp : (policyWithDefaults v i).Fits :=
      ⟨hdomain, Nat.one_lt_two_pow (by decide), h3, h4, h5, h6⟩
    exact ⟨_, ⟨hp, rfl⟩, hhash hp⟩

end Spec

end Nullark.Core.Proofs
