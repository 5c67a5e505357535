import Nullark.Lib.Abi
import Nullark.Pool.Interface

/-! # The hashes a proof is bound to

The three shapes of preimage of the pool: the tuples of `abi.encode` (`depositContextPreimage`,
`encryptedNotePreimage`, `encryptedOutputNotePreimage`, `relayerPolicyPreimage`) and the 14 words
that `_proofContextHash` stores by hand (`proofContextPreimage`). Each determines what it was built
from: the `_inj` lemmas. -/

namespace Nullark.Pool.Context

open Nullark.Evm.Basic Nullark.Lib.Bytes Nullark.Lib.Abi Nullark.Pool.Interface

/-- **What the pool runs against**: the two hash functions it calls, the chain, its own address and
the address that governs the fee. -/
structure Env where
  poseidon2 : Bytes32 → Bytes32 → Bytes32
  keccak256 : Bytes → Bytes32
  chainId : UInt256
  this : Address
  feeController : Address

def utf8 (text : String) : Bytes := text.toUTF8.toList

/-- The word a `bytes4` is encoded as. -/
def bytes4ToBytes32 (value : Bytes4) : Bytes32 := value.setWidth 256 <<< 224

theorem addressToBytes32_injective : Function.Injective addressToBytes32 := by
  intro a b h
  have := congrArg BitVec.toNat h
  simp only [addressToBytes32, BitVec.toNat_setWidth] at this
  have ha := a.isLt
  have hb := b.isLt
  exact BitVec.eq_of_toNat_eq (by omega)

theorem bytes4ToBytes32_injective : Function.Injective bytes4ToBytes32 := by
  intro a b h
  have := congrArg BitVec.toNat h
  simp only [bytes4ToBytes32, BitVec.toNat_shiftLeft, BitVec.toNat_setWidth, Nat.shiftLeft_eq] at this
  have ha := a.isLt
  have hb := b.isLt
  exact BitVec.eq_of_toNat_eq (by omega)

structure EncryptedNoteV1 where
  shape : Bytes32
  selector : Bytes4
  nullifier : Bytes32
  commitment : Bytes32
  encryptedNote : Bytes

structure EncryptedOutputNoteV2 where
  shape : Bytes32
  selector : Bytes4
  nullifier : Bytes32
  outputCommitment : Bytes32
  encryptedOutputNote : Bytes

structure ProofContextV1 where
  shape : Bytes32
  selector : Bytes4
  root : Bytes32
  nullifier : Bytes32
  destination : Address
  grossAmount : UInt256
  fee : UInt256
  encryptedNoteHash : Bytes32
  relayerPolicyHash : Bytes32
  deadlineOrZero : UInt256

/-- The words of the structure in memory. -/
def ProofContextV1.memory (c : ProofContextV1) : List Bytes32 :=
  [c.shape, bytes4ToBytes32 c.selector, c.root, c.nullifier, addressToBytes32 c.destination,
    c.grossAmount, c.fee, c.encryptedNoteHash, c.relayerPolicyHash, c.deadlineOrZero]

section Code
variable (env : Env)

def proofContextDomain : Bytes32 := env.keccak256 (utf8 "nullark.proof-context.v1")

def depositContextDomain : Bytes32 := env.keccak256 (utf8 "nullark.deposit-context.v1")

def encryptedNoteHashDomain : Bytes32 := env.keccak256 (utf8 "nullark.encrypted-note.v1")

def encryptedOutputNoteHashDomainV2 : Bytes32 :=
  env.keccak256 (utf8 "nullark.encrypted-output-note.v2")

def relayerPolicyDomain : Bytes32 := env.keccak256 (utf8 "nullark.relayer-policy.v1")

def depositContextShape : Bytes32 := env.keccak256 (utf8 "deposit_context_v1_2")

def privateTransferContextShape : Bytes32 :=
  env.keccak256 (utf8 "private_transfer_context_v1_2_fee_governance")

def withdrawContextShape : Bytes32 :=
  env.keccak256 (utf8 "withdraw_context_v1_2_fee_governance")

/-- `_hashToField`. -/
def hashToField (encoded : Bytes) : Bytes32 :=
  BitVec.ofNat 256 ((env.keccak256 encoded).toNat % bn254ScalarField)

/-- The bytes `_proofContextHash` stores: four words of its own, then the structure in memory. -/
def proofContextPreimage (context : ProofContextV1) : Bytes :=
  words ([proofContextDomain env, BitVec.ofNat 256 proofContextVersion, env.chainId,
    addressToBytes32 env.this] ++ context.memory)

def proofContextHash (context : ProofContextV1) : Bytes32 :=
  hashToField env (proofContextPreimage env context)

def depositContextPreimage (selector : Bytes4) (commitment : Bytes32) (amount : UInt256)
    (encryptedNoteHash : Bytes32) : Bytes :=
  encode [.word (depositContextDomain env), .word (BitVec.ofNat 256 proofContextVersion),
    .word env.chainId, .word (addressToBytes32 env.this), .word (depositContextShape env),
    .word (bytes4ToBytes32 selector), .word commitment, .word amount, .word encryptedNoteHash]

def depositContextHash (selector : Bytes4) (commitment : Bytes32) (amount : UInt256)
    (encryptedNoteHash : Bytes32) : Bytes32 :=
  hashToField env (depositContextPreimage env selector commitment amount encryptedNoteHash)

def encryptedNotePreimage (note : EncryptedNoteV1) : Bytes :=
  encode [.word (encryptedNoteHashDomain env), .word (BitVec.ofNat 256 encryptedNoteVersion),
    .word env.chainId, .word (addressToBytes32 env.this), .word note.shape,
    .word (bytes4ToBytes32 note.selector), .word note.nullifier, .word note.commitment,
    .bytes note.encryptedNote]

def encryptedNoteHash (note : EncryptedNoteV1) : Bytes32 :=
  hashToField env (encryptedNotePreimage env note)

/-- The note of a deposit: `_depositEncryptedNoteHash` builds it with a zero nullifier. -/
def depositEncryptedNote (selector : Bytes4) (commitment : Bytes32) (encryptedNote : Bytes) :
    EncryptedNoteV1 :=
  { shape := depositContextShape env, selector, nullifier := 0, commitment, encryptedNote }

def depositEncryptedNoteHash (selector : Bytes4) (commitment : Bytes32) (encryptedNote : Bytes) :
    Bytes32 :=
  encryptedNoteHash env (depositEncryptedNote env selector commitment encryptedNote)

def encryptedOutputNotePreimage (note : EncryptedOutputNoteV2) : Bytes :=
  encode [.word (encryptedOutputNoteHashDomainV2 env),
    .word (BitVec.ofNat 256 encryptedOutputNoteVersion), .word env.chainId,
    .word (addressToBytes32 env.this), .word note.shape, .word (bytes4ToBytes32 note.selector),
    .word note.nullifier, .word note.outputCommitment,
    .word (env.keccak256 note.encryptedOutputNote)]

def encryptedOutputNoteHash (note : EncryptedOutputNoteV2) : Bytes32 :=
  hashToField env (encryptedOutputNotePreimage env note)

def relayerPolicyPreimage (policy : RelayerPolicy) : Bytes :=
  encode [.word (relayerPolicyDomain env), .word (BitVec.ofNat 256 proofContextVersion),
    .word (addressToBytes32 policy.relayer), .word policy.minNetAmount, .word policy.maxFeeAmount,
    .word policy.deadlineOrZero]

def relayerPolicyHash (policy : RelayerPolicy) : Bytes32 :=
  hashToField env (relayerPolicyPreimage env policy)

end Code

/-! ### The preimages determine their parts -/

variable {env : Env}

theorem proofContextPreimage_inj {c d : ProofContextV1}
    (h : proofContextPreimage env c = proofContextPreimage env d) : c = d := by
  have hw := words_injective h
  simp only [ProofContextV1.memory, List.cons_append, List.nil_append, List.cons.injEq, true_and,
    and_true] at hw
  obtain ⟨h1, h2, h3, h4, h5, h6, h7, h8, h9, h10⟩ := hw
  rcases c with ⟨⟩
  rcases d with ⟨⟩
  simp only [ProofContextV1.mk.injEq]
  exact ⟨h1, bytes4ToBytes32_injective h2, h3, h4, addressToBytes32_injective h5, h6, h7, h8, h9,
    h10⟩

theorem encryptedNotePreimage_inj {m n : EncryptedNoteV1}
    (hm : m.encryptedNote.length < 2 ^ 256) (hn : n.encryptedNote.length < 2 ^ 256)
    (h : encryptedNotePreimage env m = encryptedNotePreimage env n) : m = n := by
  have hc := encode_inj (by repeat (first | exact ⟨hm, hn⟩ | constructor)) h
  simp only [List.cons.injEq, Component.word.injEq, Component.bytes.injEq, true_and, and_true] at hc
  obtain ⟨h1, h2, h3, h4, h5⟩ := hc
  rcases m with ⟨⟩
  rcases n with ⟨⟩
  simp only [EncryptedNoteV1.mk.injEq]
  exact ⟨h1, bytes4ToBytes32_injective h2, h3, h4, h5⟩

/-- The V2 note is encoded through the digest of its bytes. -/
theorem encryptedOutputNotePreimage_inj {m n : EncryptedOutputNoteV2}
    (h : encryptedOutputNotePreimage env m = encryptedOutputNotePreimage env n) :
    m.shape = n.shape ∧ m.selector = n.selector ∧ m.nullifier = n.nullifier ∧
      m.outputCommitment = n.outputCommitment ∧
      env.keccak256 m.encryptedOutputNote = env.keccak256 n.encryptedOutputNote := by
  have hc := encode_inj (by repeat constructor) h
  simp only [List.cons.injEq, Component.word.injEq, true_and, and_true] at hc
  obtain ⟨h1, h2, h3⟩ := hc
  exact ⟨h1, bytes4ToBytes32_injective h2, h3⟩

theorem relayerPolicyPreimage_inj {p q : RelayerPolicy}
    (h : relayerPolicyPreimage env p = relayerPolicyPreimage env q) : p = q := by
  have hc := encode_inj (by repeat constructor) h
  simp only [List.cons.injEq, Component.word.injEq, true_and, and_true] at hc
  obtain ⟨h1, h2, h3, h4⟩ := hc
  rcases p with ⟨⟩
  rcases q with ⟨⟩
  simp only [RelayerPolicy.mk.injEq]
  exact ⟨addressToBytes32_injective h1, h2, h3, h4⟩

end Nullark.Pool.Context
