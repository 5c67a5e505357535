import Nullark.Js.Package

/-! # The hashes of a withdrawal, as the SDK and the web app compute them

The two packages have the same functions, each with its own check of hex bytes and of the chain:
`Rules`. A hash is returned with the bytes that are hashed (`Hashed`), which the source drops.

* `hashProofContextV1_eq_ok`, `hashEncryptedOutputNoteV2_eq_ok`, `hashRelayerPolicyV1_eq_ok`: what
  is accepted, and that the result is that of the pool.
* `computeV12UnlinkableWithdrawHashes_eq_ok`: all three. -/

namespace Nullark.Js.ContextHashes

open Nullark.Lib.Outcome Nullark.Lib.Hex Nullark.Lib.Abi Nullark.Evm.Basic
open Nullark.Pool.Interface Nullark.Pool.Context Nullark.Js.Basic Nullark.Js.Bytes
open Nullark.Js.Package

/-- **How a package checks** hex bytes, and what it says of a chain it does not support. -/
structure Rules where
  isHexBytes : Text → Bool
  chainMessage : String

/-- A hash and what it hashes. -/
structure Hashed where
  preimage : Text
  hash : Text
  deriving DecidableEq, Repr

/-- `STAGE_C_WITHDRAW_BOUNDED_SELECTOR`. -/
def withdrawBoundedSelector : Text := "0x678d8506".toList

def zeroBytes32 : Text := hex32 0

def zeroAddress : Text := addressText 0

/-! ### Checks -/

def assertAddress (value : Text) (label : String) : Throws Text := do
  ensure (isEvmAddress value) (label ++ " must be an EVM address.")
  return value

def assertBytes32 (value : Text) (label : String) : Throws Text := do
  ensure (isHexBytes32 value) (label ++ " must be bytes32.")
  return value

def assertNonZeroBytes32 (value : Text) (label : String) : Throws Text := do
  let bytes32 ← assertBytes32 value label
  ensure (bytes32 ≠ zeroBytes32) (label ++ " must be nonzero bytes32.")
  return bytes32

def assertBytes4 (value : Text) (label : String) : Throws Text := do
  ensure (isHexBytes4 value) (label ++ " must be bytes4.")
  return value

def assertUint256 (value : ℕ) (label : String) : Throws ℕ := do
  ensure (value < 2 ^ 256) (label ++ " must be uint256.")
  return value

def assertPositiveUint256 (value : ℕ) (label : String) : Throws ℕ := do
  ensure (0 < value) (label ++ " must be positive.")
  assertUint256 value label

def toBytes32 (value : ℕ) : Text := padHex32 value

section Code
variable (v : Viem) (rules : Rules)

def assertHexBytes (value : Text) (label : String) : Throws Text := do
  ensure (rules.isHexBytes value = true) (label ++ " must be hex bytes.")
  return value

def assertSupportedChainId (value : ℕ) : Throws ℕ := do
  ensure (value = 6343 ∨ value = 4326) rules.chainMessage
  return value

/-! ### Hashes -/

def hashDomainSeparator (value : String) : Text := v.keccak256Bytes (utf8 value)

def hashAbiEncodedToField (encoded : Text) : Throws Text := do
  let encoded ← assertHexBytes rules encoded "encoded"
  let digest ← v.keccak256 encoded
  let value ← bigInt digest
  return toBytes32 (value % bn254ScalarField)

/-- `hashAbiEncodedToField(encodeAbiParameters(..))`. -/
def hashValues (values : List AbiValue) : Throws Hashed := do
  let preimage ← v.encodeAbiParameters values
  let hash ← hashAbiEncodedToField v rules preimage
  return { preimage, hash }

structure ProofContextInput where
  chainId : ℕ
  pool : Text
  shape : Text
  selector : Text
  root : Text
  nullifier : Text
  destination : Text
  grossAmount : ℕ
  fee : ℕ
  encryptedNoteHash : Text
  relayerPolicyHash : Text
  deadlineOrZero : ℕ

/-- The values of the context, which the checks return as they are. -/
def ProofContextInput.values (input : ProofContextInput) : List AbiValue :=
  [.bytes32 (hashDomainSeparator v "nullark.proof-context.v1"), .uint256 1,
    .uint256 input.chainId, .address input.pool, .bytes32 input.shape, .bytes4 input.selector,
    .bytes32 input.root, .bytes32 input.nullifier, .address input.destination,
    .uint256 input.grossAmount, .uint256 input.fee, .bytes32 input.encryptedNoteHash,
    .bytes32 input.relayerPolicyHash, .uint256 input.deadlineOrZero]

def hashProofContextV1 (input : ProofContextInput) : Throws Hashed := do
  let _ ← assertSupportedChainId rules input.chainId
  let _ ← assertAddress input.pool "pool"
  let _ ← assertBytes32 input.shape "shape"
  let _ ← assertBytes4 input.selector "selector"
  let _ ← assertNonZeroBytes32 input.root "root"
  let _ ← assertNonZeroBytes32 input.nullifier "nullifier"
  let _ ← assertAddress input.destination "destination"
  let _ ← assertPositiveUint256 input.grossAmount "grossAmount"
  let _ ← assertUint256 input.fee "fee"
  let _ ← assertBytes32 input.encryptedNoteHash "encryptedNoteHash"
  let _ ← assertBytes32 input.relayerPolicyHash "relayerPolicyHash"
  let _ ← assertUint256 input.deadlineOrZero "deadlineOrZero"
  hashValues v rules (input.values v)

structure EncryptedOutputNoteInput where
  chainId : ℕ
  pool : Text
  shape : Text
  selector : Text
  nullifier : Text
  outputCommitment : Text
  encryptedOutputNote : Text

/-- The values of the note, with the digest of its bytes. -/
def EncryptedOutputNoteInput.values (input : EncryptedOutputNoteInput) (digest : Text) :
    List AbiValue :=
  [.bytes32 (hashDomainSeparator v "nullark.encrypted-output-note.v2"), .uint16 2,
    .uint256 input.chainId, .address input.pool, .bytes32 input.shape, .bytes4 input.selector,
    .bytes32 input.nullifier, .bytes32 input.outputCommitment, .bytes32 digest]

def hashEncryptedOutputNoteV2 (input : EncryptedOutputNoteInput) : Throws Hashed := do
  let _ ← assertSupportedChainId rules input.chainId
  let _ ← assertAddress input.pool "pool"
  let _ ← assertBytes32 input.shape "shape"
  let _ ← assertBytes4 input.selector "selector"
  let _ ← assertNonZeroBytes32 input.nullifier "nullifier"
  let _ ← assertNonZeroBytes32 input.outputCommitment "outputCommitment"
  let encryptedOutputNote ← assertHexBytes rules input.encryptedOutputNote "encryptedOutputNote"
  let digest ← v.keccak256 encryptedOutputNote
  hashValues v rules (input.values v digest)

structure RelayerPolicyInput where
  relayer : Text
  minNetAmount : ℕ
  maxFeeAmount : ℕ
  deadlineOrZero : ℕ

def RelayerPolicyInput.values (input : RelayerPolicyInput) : List AbiValue :=
  [.bytes32 (hashDomainSeparator v "nullark.relayer-policy.v1"), .uint256 1,
    .address input.relayer, .uint256 input.minNetAmount, .uint256 input.maxFeeAmount,
    .uint256 input.deadlineOrZero]

def hashRelayerPolicyV1 (input : RelayerPolicyInput) : Throws Hashed := do
  let _ ← assertAddress input.relayer "relayer"
  let _ ← assertUint256 input.minNetAmount "minNetAmount"
  let _ ← assertUint256 input.maxFeeAmount "maxFeeAmount"
  let _ ← assertUint256 input.deadlineOrZero "deadlineOrZero"
  hashValues v rules (input.values v)

structure V12UnlinkableWithdrawContextHashes where
  encryptedOutputNoteHash : Hashed
  relayerPolicyHash : Hashed
  proofContextHash : Hashed
  deriving DecidableEq, Repr

/-- The argument of `computeV12UnlinkableWithdrawHashes`. -/
structure WithdrawHashesInput where
  chainId : ℕ
  pool : Text
  proofContextShape : Text
  selector : Text
  root : Text
  nullifier : Text
  destination : Text
  grossAmount : ℕ
  fee : ℕ
  outputCommitment : Text
  encryptedOutputNote : Text
  relayerPolicy : RelayerPolicyInput

def WithdrawHashesInput.note (i : WithdrawHashesInput) : EncryptedOutputNoteInput where
  chainId := i.chainId
  pool := i.pool
  shape := i.proofContextShape
  selector := i.selector
  nullifier := i.nullifier
  outputCommitment := i.outputCommitment
  encryptedOutputNote := i.encryptedOutputNote

def WithdrawHashesInput.context (i : WithdrawHashesInput)
    (encryptedOutputNoteHash relayerPolicyHash : Text) : ProofContextInput where
  chainId := i.chainId
  pool := i.pool
  shape := i.proofContextShape
  selector := i.selector
  root := i.root
  nullifier := i.nullifier
  destination := i.destination
  grossAmount := i.grossAmount
  fee := i.fee
  encryptedNoteHash := encryptedOutputNoteHash
  relayerPolicyHash := relayerPolicyHash
  deadlineOrZero := i.relayerPolicy.deadlineOrZero

/-- **`computeV12UnlinkableWithdrawHashes`**. -/
def computeV12UnlinkableWithdrawHashes (input : WithdrawHashesInput) :
    Throws V12UnlinkableWithdrawContextHashes := do
  let encryptedOutputNoteHash ← hashEncryptedOutputNoteV2 v rules input.note
  let relayerPolicyHash ← hashRelayerPolicyV1 v rules input.relayerPolicy
  let proofContextHash ← hashProofContextV1 v rules
    (input.context encryptedOutputNoteHash.hash relayerPolicyHash.hash)
  return { encryptedOutputNoteHash, relayerPolicyHash, proofContextHash }

end Code

/-! ### What the checks accept -/

section Checks

theorem assertAddress_eq_ok {t r : Text} {label : String} :
    assertAddress t label = .ok r ↔ isEvmAddress t ∧ r = t := by
  unfold assertAddress
  simp only [bind_eq_ok, ensure_eq_ok, exists_const, pure_eq_ok, eq_comm (a := t)]

theorem assertBytes32_eq_ok {t r : Text} {label : String} :
    assertBytes32 t label = .ok r ↔ isHexBytes32 t ∧ r = t := by
  unfold assertBytes32
  simp only [bind_eq_ok, ensure_eq_ok, exists_const, pure_eq_ok, eq_comm (a := t)]

theorem assertNonZeroBytes32_eq_ok {t r : Text} {label : String} :
    assertNonZeroBytes32 t label = .ok r ↔ (isHexBytes32 t ∧ t ≠ zeroBytes32) ∧ r = t := by
  unfold assertNonZeroBytes32
  simp only [bind_eq_ok, ensure_eq_ok, exists_const, pure_eq_ok, assertBytes32_eq_ok]
  constructor
  · rintro ⟨_, ⟨hpattern, rfl⟩, hne, rfl⟩
    exact ⟨⟨hpattern, hne⟩, rfl⟩
  · rintro ⟨⟨hpattern, hne⟩, rfl⟩
    exact ⟨_, ⟨hpattern, rfl⟩, hne, rfl⟩

theorem assertBytes4_eq_ok {t r : Text} {label : String} :
    assertBytes4 t label = .ok r ↔ isHexBytes4 t ∧ r = t := by
  unfold assertBytes4
  simp only [bind_eq_ok, ensure_eq_ok, exists_const, pure_eq_ok, eq_comm (a := t)]

theorem assertUint256_eq_ok {n m : ℕ} {label : String} :
    assertUint256 n label = .ok m ↔ n < 2 ^ 256 ∧ m = n := by
  unfold assertUint256
  simp only [bind_eq_ok, ensure_eq_ok, exists_const, pure_eq_ok, eq_comm (a := n)]

theorem assertPositiveUint256_eq_ok {n m : ℕ} {label : String} :
    assertPositiveUint256 n label = .ok m ↔ (0 < n ∧ n < 2 ^ 256) ∧ m = n := by
  unfold assertPositiveUint256
  simp only [bind_eq_ok, ensure_eq_ok, exists_const, assertUint256_eq_ok, and_assoc]

theorem assertSupportedChainId_eq_ok {rules : Rules} {n m : ℕ} :
    assertSupportedChainId rules n = .ok m ↔ (n = 6343 ∨ n = 4326) ∧ m = n := by
  unfold assertSupportedChainId
  simp only [bind_eq_ok, ensure_eq_ok, exists_const, pure_eq_ok, eq_comm (a := n)]

theorem assertHexBytes_eq_ok {rules : Rules} {t r : Text} {label : String} :
    assertHexBytes rules t label = .ok r ↔ rules.isHexBytes t = true ∧ r = t := by
  unfold assertHexBytes
  simp only [bind_eq_ok, ensure_eq_ok, exists_const, pure_eq_ok, eq_comm (a := t)]

/-- Only the text of zero has the value zero. -/
theorem word_ne_zero_iff {t : Text} (h : isHexBytes32 t) : word t ≠ 0 ↔ t ≠ zeroBytes32 := by
  have hzero : ∀ c ∈ lowerDigits ++ upperDigits, c.toLower = '0' → c = '0' := by decide
  rw [not_iff_not]
  constructor
  · intro hw
    obtain ⟨digits, rfl, hlen, hd⟩ := isHexOfLength_iff.mp h
    have hlower := hex32_word h
    rw [hw, lower_cons_hex, hex32] at hlower
    simp only [List.cons.injEq, true_and] at hlower
    have hreplicate : fixed 64 (0 : Bytes32).toNat = List.replicate 64 '0' := by decide
    have hall : ∀ c ∈ digits, c = '0' := by
      intro c hc
      have hmem : c.toLower ∈ lower digits := List.mem_map_of_mem hc
      rw [← hlower, hreplicate] at hmem
      exact hzero c (hd c hc) (List.mem_replicate.mp hmem).2
    rw [zeroBytes32, hex32, hreplicate, List.eq_replicate_of_mem hall, hlen]
  · rintro rfl
    exact word_hex32 0

end Checks

/-! ### The hashes are those of the pool -/

/-- The rules accept all hex bytes. -/
def Rules.Accepting (rules : Rules) : Prop := ∀ t, isHexString t → rules.isHexBytes t = true

/-- The pool stands on the chain, at the address. -/
structure Deployed (env : Env) (chainId : ℕ) (pool : Text) : Prop where
  chainId : env.chainId = BitVec.ofNat 256 chainId
  this : env.this = address pool

/-- The hash and the preimage, as the packages write them. -/
def poolHashed (env : Env) (preimage : Bytes) : Hashed where
  preimage := hexText preimage
  hash := hex32 (hashToField env preimage)

def ProofContextInput.read (i : ProofContextInput) : ProofContextV1 where
  shape := word i.shape
  selector := Bytes.bytes4 i.selector
  root := word i.root
  nullifier := word i.nullifier
  destination := Bytes.address i.destination
  grossAmount := BitVec.ofNat 256 i.grossAmount
  fee := BitVec.ofNat 256 i.fee
  encryptedNoteHash := word i.encryptedNoteHash
  relayerPolicyHash := word i.relayerPolicyHash
  deadlineOrZero := BitVec.ofNat 256 i.deadlineOrZero

def EncryptedOutputNoteInput.read (i : EncryptedOutputNoteInput) : EncryptedOutputNoteV2 where
  shape := word i.shape
  selector := Bytes.bytes4 i.selector
  nullifier := word i.nullifier
  outputCommitment := word i.outputCommitment
  encryptedOutputNote := hexBytes i.encryptedOutputNote

def RelayerPolicyInput.read (i : RelayerPolicyInput) : RelayerPolicy where
  relayer := Bytes.address i.relayer
  minNetAmount := BitVec.ofNat 256 i.minNetAmount
  maxFeeAmount := BitVec.ofNat 256 i.maxFeeAmount
  deadlineOrZero := BitVec.ofNat 256 i.deadlineOrZero

/-- The chain, the pool and the kind of the withdrawal. -/
structure PlaceFits (v : Viem) (chainId : ℕ) (pool shape selector : Text) : Prop where
  chainId : chainId = 6343 ∨ chainId = 4326
  pool : isAddress v pool
  shape : isHexBytes32 shape
  selector : isHexBytes4 selector

structure ProofContextInput.Fits (v : Viem) (i : ProofContextInput) : Prop where
  place : PlaceFits v i.chainId i.pool i.shape i.selector
  root : isHexBytes32 i.root ∧ i.root ≠ zeroBytes32
  nullifier : isHexBytes32 i.nullifier ∧ i.nullifier ≠ zeroBytes32
  destination : isAddress v i.destination
  grossAmount : 0 < i.grossAmount ∧ i.grossAmount < 2 ^ 256
  fee : i.fee < 2 ^ 256
  encryptedNoteHash : isHexBytes32 i.encryptedNoteHash
  relayerPolicyHash : isHexBytes32 i.relayerPolicyHash
  deadlineOrZero : i.deadlineOrZero < 2 ^ 256

structure EncryptedOutputNoteInput.Fits (v : Viem) (i : EncryptedOutputNoteInput) : Prop where
  place : PlaceFits v i.chainId i.pool i.shape i.selector
  nullifier : isHexBytes32 i.nullifier ∧ i.nullifier ≠ zeroBytes32
  outputCommitment : isHexBytes32 i.outputCommitment ∧ i.outputCommitment ≠ zeroBytes32

structure RelayerPolicyInput.Fits (v : Viem) (i : RelayerPolicyInput) : Prop where
  relayer : isAddress v i.relayer
  minNetAmount : i.minNetAmount < 2 ^ 256
  maxFeeAmount : i.maxFeeAmount < 2 ^ 256
  deadlineOrZero : i.deadlineOrZero < 2 ^ 256

theorem toNat_hashToField (env : Env) (encoded : Bytes) :
    (hashToField env encoded).toNat = (env.keccak256 encoded).toNat % bn254ScalarField := by
  have hlt : (env.keccak256 encoded).toNat % bn254ScalarField < 2 ^ 256 :=
    (Nat.mod_lt _ (by decide)).trans (by decide)
  rw [hashToField, BitVec.toNat_ofNat, Nat.mod_eq_of_lt hlt]

section Spec
variable {v : Viem} {env : Env} {rules : Rules} (hv : Documented v env.keccak256)
  (hr : rules.Accepting)
include hv hr

theorem hashAbiEncodedToField_hexText (encoded : Bytes) :
    hashAbiEncodedToField v rules (hexText encoded) = .ok (hex32 (hashToField env encoded)) := by
  have hhex := isHexString_hexText encoded
  have hdigest := hv.digest _ hhex
  rw [hexBytes_hexText] at hdigest
  unfold hashAbiEncodedToField
  rw [assertHexBytes_eq_ok.mpr ⟨hr _ hhex, rfl⟩, ok_bind, hdigest, ok_bind, bigInt_hex32, ok_bind,
    ← toNat_hashToField]
  exact congrArg Except.ok (padHex32_toNat _)

/-- **A hash of values** whose patterns were checked: only the spelling of an address is left. -/
theorem hashValues_eq_ok {vs : List AbiValue} {h : Hashed} (hfits : ∀ x ∈ vs, x.FitsButAddress) :
    hashValues v rules vs = .ok h ↔ (∀ x ∈ vs, x.Fits v) ∧
      h = poolHashed env (encode (vs.map (·.component))) := by
  unfold hashValues
  simp only [bind_eq_ok, pure_eq_ok, encodeAbiParameters_eq_ok hv hfits]
  constructor
  · rintro ⟨_, ⟨hall, rfl⟩, hash, hhash, rfl⟩
    rw [hashAbiEncodedToField_hexText hv hr] at hhash
    rw [← Except.ok.inj hhash]
    exact ⟨hall, rfl⟩
  · rintro ⟨hall, rfl⟩
    exact ⟨_, ⟨hall, rfl⟩, _, hashAbiEncodedToField_hexText hv hr _, rfl⟩

omit hr in
theorem hashDomainSeparator_eq (value : String) :
    hashDomainSeparator v value = hex32 (env.keccak256 (utf8 value)) := hv.digestBytes _

omit hr in
theorem isHexBytes32_hashDomainSeparator (value : String) :
    isHexBytes32 (hashDomainSeparator v value) := by
  rw [hashDomainSeparator_eq hv]
  exact isHexBytes32_hex32 _

omit hr in
theorem encode_proofContext {i : ProofContextInput} (hplace : Deployed env i.chainId i.pool) :
    encode ((i.values v).map (·.component)) = proofContextPreimage env i.read := by
  rw [proofContextPreimage, ← encode_words, hplace.chainId, hplace.this]
  simp only [ProofContextInput.values, hashDomainSeparator_eq hv, List.map_cons, List.map_nil,
    AbiValue.component, word_hex32, ProofContextV1.memory, ProofContextInput.read,
    proofContextDomain, proofContextVersion, List.cons_append, List.nil_append]

/-- **`hashProofContextV1`** accepts the contexts that fit, and hashes what the pool hashes. -/
theorem hashProofContextV1_eq_ok {i : ProofContextInput} {h : Hashed}
    (hplace : Deployed env i.chainId i.pool) :
    hashProofContextV1 v rules i = .ok h ↔
      i.Fits v ∧ h = poolHashed env (proofContextPreimage env i.read) := by
  have hdomain := isHexBytes32_hashDomainSeparator hv "nullark.proof-context.v1"
  have hone : 1 < 2 ^ 256 := by norm_num
  have hchain : i.chainId = 6343 ∨ i.chainId = 4326 → i.chainId < 2 ^ 256 := by omega
  unfold hashProofContextV1
  simp only [bind_eq_ok, assertSupportedChainId_eq_ok, assertAddress_eq_ok, assertBytes32_eq_ok,
    assertBytes4_eq_ok, assertNonZeroBytes32_eq_ok, assertPositiveUint256_eq_ok,
    assertUint256_eq_ok, exists_and_left, exists_and_right, exists_eq, and_true]
  constructor
  · rintro ⟨h1, h2, h3, h4, h5, h6, h7, h8, h9, h10, h11, h12, hvalues⟩
    have hbut : ∀ x ∈ i.values v, x.FitsButAddress := by
      simp only [ProofContextInput.values, List.forall_mem_cons, AbiValue.FitsButAddress]
      exact ⟨hdomain, hone, hchain h1, h2, h3, h4, h5.1, h6.1, h7, h8.2, h9, h10, h11, h12,
        fun _ h => absurd h List.not_mem_nil⟩
    obtain ⟨hall, hh⟩ := (hashValues_eq_ok hv hr hbut).mp hvalues
    have hpool : isAddress v i.pool := hall (.address i.pool) (by simp [ProofContextInput.values])
    have hdestination : isAddress v i.destination :=
      hall (.address i.destination) (by simp [ProofContextInput.values])
    rw [encode_proofContext hv hplace] at hh
    exact ⟨⟨⟨h1, hpool, h3, h4⟩, h5, h6, hdestination, h8, h9, h10, h11, h12⟩, hh⟩
  · rintro ⟨⟨⟨h1, h2, h3, h4⟩, h5, h6, h7, h8, h9, h10, h11, h12⟩, hh⟩
    refine ⟨h1, h2.1, h3, h4, h5, h6, h7.1, h8, h9, h10, h11, h12, ?_⟩
    have hall : ∀ x ∈ i.values v, x.Fits v := by
      simp only [ProofContextInput.values, List.forall_mem_cons, AbiValue.Fits]
      exact ⟨hdomain, hone, hchain h1, h2, h3, h4, h5.1, h6.1, h7, h8.2, h9, h10, h11, h12,
        fun _ h => absurd h List.not_mem_nil⟩
    rw [hashValues_eq_ok hv hr fun x hx => (hall x hx).butAddress, encode_proofContext hv hplace]
    exact ⟨hall, hh⟩

omit hr in
theorem encode_encryptedOutputNote {i : EncryptedOutputNoteInput}
    (hplace : Deployed env i.chainId i.pool) :
    encode ((i.values v (hex32 (env.keccak256 (hexBytes i.encryptedOutputNote)))).map
      (·.component)) = encryptedOutputNotePreimage env i.read := by
  rw [encryptedOutputNotePreimage, hplace.chainId, hplace.this]
  simp only [EncryptedOutputNoteInput.values, hashDomainSeparator_eq hv, List.map_cons,
    List.map_nil, AbiValue.component, word_hex32, EncryptedOutputNoteInput.read,
    encryptedOutputNoteHashDomainV2, encryptedOutputNoteVersion]

/-- **`hashEncryptedOutputNoteV2`** accepts the notes that fit, and hashes what the pool hashes. -/
theorem hashEncryptedOutputNoteV2_eq_ok {i : EncryptedOutputNoteInput} {h : Hashed}
    (hplace : Deployed env i.chainId i.pool) (hnote : isHexString i.encryptedOutputNote) :
    hashEncryptedOutputNoteV2 v rules i = .ok h ↔
      i.Fits v ∧ h = poolHashed env (encryptedOutputNotePreimage env i.read) := by
  have hdomain := isHexBytes32_hashDomainSeparator hv "nullark.encrypted-output-note.v2"
  have htwo : 2 < 2 ^ 16 := by norm_num
  have hchain : i.chainId = 6343 ∨ i.chainId = 4326 → i.chainId < 2 ^ 256 := by omega
  have hdigest := isHexBytes32_hex32 (env.keccak256 (hexBytes i.encryptedOutputNote))
  unfold hashEncryptedOutputNoteV2
  simp only [bind_eq_ok, assertSupportedChainId_eq_ok, assertAddress_eq_ok, assertBytes32_eq_ok,
    assertBytes4_eq_ok, assertNonZeroBytes32_eq_ok, assertHexBytes_eq_ok, exists_and_left,
    exists_and_right, exists_eq, and_true, hr _ hnote, true_and, exists_eq_left,
    hv.digest _ hnote, Except.ok.injEq, exists_eq_left']
  constructor
  · rintro ⟨h1, h2, h3, h4, h5, h6, hvalues⟩
    have hbut : ∀ x ∈ i.values v (hex32 (env.keccak256 (hexBytes i.encryptedOutputNote))),
        x.FitsButAddress := by
      simp only [EncryptedOutputNoteInput.values, List.forall_mem_cons, AbiValue.FitsButAddress]
      exact ⟨hdomain, htwo, hchain h1, h2, h3, h4, h5.1, h6.1, hdigest,
        fun _ h => absurd h List.not_mem_nil⟩
    obtain ⟨hall, hh⟩ := (hashValues_eq_ok hv hr hbut).mp hvalues
    have hpool : isAddress v i.pool :=
      hall (.address i.pool) (by simp [EncryptedOutputNoteInput.values])
    rw [encode_encryptedOutputNote hv hplace] at hh
    exact ⟨⟨⟨h1, hpool, h3, h4⟩, h5, h6⟩, hh⟩
  · rintro ⟨⟨⟨h1, h2, h3, h4⟩, h5, h6⟩, hh⟩
    refine ⟨h1, h2.1, h3, h4, h5, h6, ?_⟩
    have hall : ∀ x ∈ i.values v (hex32 (env.keccak256 (hexBytes i.encryptedOutputNote))),
        x.Fits v := by
      simp only [EncryptedOutputNoteInput.values, List.forall_mem_cons, AbiValue.Fits]
      exact ⟨hdomain, htwo, hchain h1, h2, h3, h4, h5.1, h6.1, hdigest,
        fun _ h => absurd h List.not_mem_nil⟩
    rw [hashValues_eq_ok hv hr fun x hx => (hall x hx).butAddress,
      encode_encryptedOutputNote hv hplace]
    exact ⟨hall, hh⟩

omit hr in
theorem encode_relayerPolicy (i : RelayerPolicyInput) :
    encode ((i.values v).map (·.component)) = relayerPolicyPreimage env i.read := by
  rw [relayerPolicyPreimage]
  simp only [RelayerPolicyInput.values, hashDomainSeparator_eq hv, List.map_cons, List.map_nil,
    AbiValue.component, word_hex32, RelayerPolicyInput.read, relayerPolicyDomain,
    proofContextVersion]

/-- **`hashRelayerPolicyV1`** accepts the policies that fit, and hashes what the pool hashes. -/
theorem hashRelayerPolicyV1_eq_ok {i : RelayerPolicyInput} {h : Hashed} :
    hashRelayerPolicyV1 v rules i = .ok h ↔
      i.Fits v ∧ h = poolHashed env (relayerPolicyPreimage env i.read) := by
  have hdomain := isHexBytes32_hashDomainSeparator hv "nullark.relayer-policy.v1"
  have hone : 1 < 2 ^ 256 := by norm_num
  unfold hashRelayerPolicyV1
  simp only [bind_eq_ok, assertAddress_eq_ok, assertUint256_eq_ok, exists_and_left, exists_and_right,
    exists_eq, and_true]
  constructor
  · rintro ⟨h1, h2, h3, h4, hvalues⟩
    have hbut : ∀ x ∈ i.values v, x.FitsButAddress := by
      simp only [RelayerPolicyInput.values, List.forall_mem_cons, AbiValue.FitsButAddress]
      exact ⟨hdomain, hone, h1, h2, h3, h4, fun _ h => absurd h List.not_mem_nil⟩
    obtain ⟨hall, hh⟩ := (hashValues_eq_ok hv hr hbut).mp hvalues
    have hrelayer : isAddress v i.relayer :=
      hall (.address i.relayer) (by simp [RelayerPolicyInput.values])
    rw [encode_relayerPolicy hv] at hh
    exact ⟨⟨hrelayer, h2, h3, h4⟩, hh⟩
  · rintro ⟨⟨h1, h2, h3, h4⟩, hh⟩
    refine ⟨h1.1, h2, h3, h4, ?_⟩
    have hall : ∀ x ∈ i.values v, x.Fits v := by
      simp only [RelayerPolicyInput.values, List.forall_mem_cons, AbiValue.Fits]
      exact ⟨hdomain, hone, h1, h2, h3, h4, fun _ h => absurd h List.not_mem_nil⟩
    rw [hashValues_eq_ok hv hr fun x hx => (hall x hx).butAddress, encode_relayerPolicy hv]
    exact ⟨hall, hh⟩

end Spec

/-- What is hashed for a withdrawal fits. -/
structure WithdrawHashesInput.Fits (v : Viem) (i : WithdrawHashesInput) : Prop where
  place : PlaceFits v i.chainId i.pool i.proofContextShape i.selector
  root : isHexBytes32 i.root ∧ i.root ≠ zeroBytes32
  nullifier : isHexBytes32 i.nullifier ∧ i.nullifier ≠ zeroBytes32
  outputCommitment : isHexBytes32 i.outputCommitment ∧ i.outputCommitment ≠ zeroBytes32
  destination : isAddress v i.destination
  grossAmount : 0 < i.grossAmount ∧ i.grossAmount < 2 ^ 256
  fee : i.fee < 2 ^ 256
  relayerPolicy : i.relayerPolicy.Fits v

/-- **The hashes of the pool**, as the packages write them. -/
def poolHashes (env : Env) (i : WithdrawHashesInput) : V12UnlinkableWithdrawContextHashes :=
  let encryptedOutputNoteHash := poolHashed env (encryptedOutputNotePreimage env i.note.read)
  let relayerPolicyHash := poolHashed env (relayerPolicyPreimage env i.relayerPolicy.read)
  let context := i.context encryptedOutputNoteHash.hash relayerPolicyHash.hash
  { encryptedOutputNoteHash, relayerPolicyHash
    proofContextHash := poolHashed env (proofContextPreimage env context.read) }

/-- **`computeV12UnlinkableWithdrawHashes`** accepts what fits, and its hashes are the pool's. -/
theorem computeV12UnlinkableWithdrawHashes_eq_ok {v : Viem} {env : Env} {rules : Rules}
    (hv : Documented v env.keccak256) (hr : rules.Accepting) {i : WithdrawHashesInput}
    {h : V12UnlinkableWithdrawContextHashes} (hplace : Deployed env i.chainId i.pool)
    (hnote : isHexString i.encryptedOutputNote) :
    computeV12UnlinkableWithdrawHashes v rules i = .ok h ↔ i.Fits v ∧ h = poolHashes env i := by
  have hplaceNote : Deployed env i.note.chainId i.note.pool := hplace
  have hplaceContext : ∀ a b, Deployed env (i.context a b).chainId (i.context a b).pool :=
    fun _ _ => hplace
  unfold computeV12UnlinkableWithdrawHashes
  simp only [bind_eq_ok, pure_eq_ok, hashEncryptedOutputNoteV2_eq_ok hv hr hplaceNote hnote,
    hashRelayerPolicyV1_eq_ok hv hr, hashProofContextV1_eq_ok hv hr (hplaceContext _ _)]
  constructor
  · rintro ⟨_, ⟨⟨h1, h2, h3⟩, rfl⟩, _, ⟨h4, rfl⟩, _, ⟨⟨_, h5, _, h6, h7, h8, _, _, _⟩, rfl⟩, rfl⟩
    exact ⟨⟨h1, h5, h2, h3, h6, h7, h8, h4⟩, rfl⟩
  · rintro ⟨⟨h1, h5, h2, h3, h6, h7, h8, h4⟩, rfl⟩
    exact ⟨_, ⟨⟨h1, h2, h3⟩, rfl⟩, _, ⟨h4, rfl⟩, _, ⟨⟨h1, h5, h2, h6, h7, h8, isHexBytes32_hex32 _,
      isHexBytes32_hex32 _, h4.deadlineOrZero⟩, rfl⟩, rfl⟩

/-- An output commitment that is hashed is not zero. -/
theorem outputCommitment_ne_of_ok {v : Viem} {rules : Rules} {i : WithdrawHashesInput}
    {h : V12UnlinkableWithdrawContextHashes}
    (hok : computeV12UnlinkableWithdrawHashes v rules i = .ok h) :
    i.outputCommitment ≠ zeroBytes32 := by
  unfold computeV12UnlinkableWithdrawHashes at hok
  obtain ⟨_, hnote, -⟩ := bind_eq_ok.mp hok
  unfold hashEncryptedOutputNoteV2 at hnote
  simp only [bind_eq_ok, assertNonZeroBytes32_eq_ok] at hnote
  obtain ⟨_, -, _, -, _, -, _, -, _, -, _, ⟨⟨-, hne⟩, -⟩, -⟩ := hnote
  exact hne

/-! ### The packages -/

/-- The checks of the SDK. -/
def sdkRules : Rules where
  isHexBytes t := isHexString t
  chainMessage := "Expected MegaETH mainnet or testnet chain ID."

/-- The checks of the web app, which lets an odd number of digits pass. -/
def webRules : Rules where
  isHexBytes t := isHex t
  chainMessage := "Withdrawal proof intent must target MegaETH mainnet or testnet."

/-- For the modules that hash values whose patterns nobody checked. -/
def uncheckedRules : Rules where
  isHexBytes _ := true
  chainMessage := ""

theorem accepting_uncheckedRules : uncheckedRules.Accepting := fun _ _ => rfl

theorem accepting_sdkRules : sdkRules.Accepting := fun _ h => decide_eq_true h

theorem accepting_webRules : webRules.Accepting := fun t h => by
  obtain ⟨digits, rfl, -, hd⟩ := isHexString_iff.mp h
  exact decide_eq_true hd

end Nullark.Js.ContextHashes
