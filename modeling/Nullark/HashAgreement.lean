import Nullark.Relay.ContextHashes
import Nullark.Pool.Effects

/-! # One withdrawal, four encoders

The pool, the relay with the core package, the SDK and the web app hash the output note, the relayer
policy and the context of a withdrawal, each with an encoder of its own. Whenever the three packages
accept a withdrawal, all four hash the same bytes and reduce the digests to the same values
(`hashes_agree`). -/

namespace Nullark.HashAgreement

open Nullark.Lib.Outcome Nullark.Lib.Hex Nullark.Evm.Basic
open Nullark.Pool.Interface Nullark.Pool.Context Nullark.Pool.Actions Nullark.Js.Basic
open Nullark.Js.Bytes Nullark.Js.Package Nullark.Js.ContextHashes Nullark.Relay.ContextHashes

/-! ### The pool -/

section Pool
variable (env : Env) (i : WithdrawHashesInput)

/-- The note `_withdraw` is bound to. -/
def poolNote : EncryptedOutputNoteV2 :=
  outputNote (withdrawContextShape env) (bytes4 i.selector) (word i.nullifier)
    (word i.outputCommitment) (hexBytes i.encryptedOutputNote)

/-- The context `_withdraw` is bound to, for public inputs that begin with the root and the
nullifier. -/
def poolContext (publicInputs : List Bytes32) : ProofContextV1 :=
  proofContext env (withdrawContextShape env) (bytes4 i.selector) publicInputs
    (address i.destination) (BitVec.ofNat 256 i.grossAmount) i.fee
    (encryptedOutputNoteHash env (poolNote env i)) i.relayerPolicy.read

end Pool

variable {v : Viem} {env : Env} {i : WithdrawHashesInput}
  {sdk web relay : V12UnlinkableWithdrawContextHashes}

theorem word_withdrawShape (hv : Documented v env.keccak256) :
    word (withdrawShape v) = withdrawContextShape env := by
  rw [withdrawShape, hashDomainSeparator_eq hv, word_hex32]
  rfl

/-- The hashes as texts are those of the pool's own functions. -/
theorem poolHashes_eq (hv : Documented v env.keccak256)
    (hshape : i.proofContextShape = withdrawShape v) {publicInputs : List Bytes32}
    (hroot : input publicInputs 0 = word i.root)
    (hnullifier : input publicInputs 1 = word i.nullifier) :
    poolHashes env i =
      { encryptedOutputNoteHash :=
          poolHashed env (encryptedOutputNotePreimage env (poolNote env i))
        relayerPolicyHash := poolHashed env (relayerPolicyPreimage env i.relayerPolicy.read)
        proofContextHash :=
          poolHashed env (proofContextPreimage env (poolContext env i publicInputs)) } := by
  have hnote : i.note.read = poolNote env i := by
    simp only [EncryptedOutputNoteInput.read, WithdrawHashesInput.note, poolNote, outputNote,
      hshape, word_withdrawShape hv]
  have hcontext : ∀ a b, (i.context (hex32 a) (hex32 b)).read =
      { poolContext env i publicInputs with encryptedNoteHash := a, relayerPolicyHash := b } := by
    intro a b
    simp only [ProofContextInput.read, WithdrawHashesInput.context, poolContext, proofContext,
      hshape, word_withdrawShape hv, word_hex32, hroot, hnullifier, RelayerPolicyInput.read]
  unfold poolHashes
  rw [hnote]
  simp only [poolHashed, hcontext]
  rfl

/-- What the SDK accepts, the relay's decoder could return. -/
theorem decoded_of_fits (h : i.Fits v) (hnote : isHexString i.encryptedOutputNote) :
    Decoded i := by
  have hchain := h.place.chainId
  exact ⟨by omega, h.place.selector, h.nullifier.1, h.outputCommitment.1, hnote⟩

theorem isHexBytes_of_ok {rules : Rules} {h : V12UnlinkableWithdrawContextHashes}
    (hok : computeV12UnlinkableWithdrawHashes v rules i = .ok h) :
    rules.isHexBytes i.encryptedOutputNote = true := by
  unfold computeV12UnlinkableWithdrawHashes at hok
  obtain ⟨_, hnote, -⟩ := bind_eq_ok.mp hok
  unfold hashEncryptedOutputNoteV2 at hnote
  simp only [bind_eq_ok, assertHexBytes_eq_ok] at hnote
  obtain ⟨_, -, _, -, _, -, _, -, _, -, _, -, _, ⟨hhex, -⟩, -⟩ := hnote
  exact hhex

/-- **The four encoders agree** on every withdrawal that the packages accept, with the shape of the
v1.2 withdrawals: on the bytes of the three preimages, and on the three values. -/
theorem hashes_agree (hv : Documented v env.keccak256) (hplace : Deployed env i.chainId i.pool)
    (hshape : i.proofContextShape = withdrawShape v)
    (hsdk : computeV12UnlinkableWithdrawHashes v sdkRules i = .ok sdk)
    (hweb : computeV12UnlinkableWithdrawHashes v webRules i = .ok web)
    (hrelay : contractBoundHashes v i = .ok relay) {publicInputs : List Bytes32}
    (hroot : input publicInputs 0 = word i.root)
    (hnullifier : input publicInputs 1 = word i.nullifier) :
    let pool : V12UnlinkableWithdrawContextHashes :=
      { encryptedOutputNoteHash :=
          ⟨hexText (encryptedOutputNotePreimage env (poolNote env i)),
            hex32 (encryptedOutputNoteHash env (poolNote env i))⟩
        relayerPolicyHash :=
          ⟨hexText (relayerPolicyPreimage env i.relayerPolicy.read),
            hex32 (relayerPolicyHash env i.relayerPolicy.read)⟩
        proofContextHash :=
          ⟨hexText (proofContextPreimage env (poolContext env i publicInputs)),
            hex32 (proofContextHash env (poolContext env i publicInputs))⟩ }
    sdk = pool ∧ web = pool ∧ relay = pool := by
  intro pool
  have hpool : poolHashes env i = pool := poolHashes_eq hv hshape hroot hnullifier
  have hnote : isHexString i.encryptedOutputNote := of_decide_eq_true (isHexBytes_of_ok hsdk)
  obtain ⟨hfits, rfl⟩ :=
    (computeV12UnlinkableWithdrawHashes_eq_ok hv accepting_sdkRules hplace hnote).mp hsdk
  obtain ⟨-, rfl⟩ :=
    (computeV12UnlinkableWithdrawHashes_eq_ok hv accepting_webRules hplace hnote).mp hweb
  obtain ⟨-, rfl⟩ :=
    (contractBoundHashes_eq_ok hv hplace hshape (decoded_of_fits hfits hnote)).mp hrelay
  exact ⟨hpool, hpool, hpool⟩

/-! ### A withdrawal -/

def sampleInput : WithdrawHashesInput where
  chainId := 6343
  pool := addressText 0x5555555555555555555555555555555555555555
  proofContextShape := withdrawShape digitsViem
  selector := withdrawBoundedSelector
  root := hex32 1
  nullifier := hex32 2
  destination := addressText 0x4444444444444444444444444444444444444444
  grossAmount := 10000000000000000
  fee := 33000000000000
  outputCommitment := hex32 3
  encryptedOutputNote := "0x00".toList
  relayerPolicy :=
    { relayer := zeroAddress, minNetAmount := 9967000000000000, maxFeeAmount := 33000000000000
      deadlineOrZero := 0 }

def sampleEnv : Env where
  poseidon2 l _ := l
  keccak256 := Lib.Keccak.keccak256
  chainId := 6343
  this := 0x5555555555555555555555555555555555555555
  feeController := 9

theorem hex32_ne_zeroBytes32 {x : Bytes32} (h : x ≠ 0) : hex32 x ≠ zeroBytes32 :=
  fun heq => h (hex32_injective heq)

theorem sampleInput_deployed : Deployed sampleEnv sampleInput.chainId sampleInput.pool :=
  ⟨rfl, (address_addressText _).symm⟩

theorem documented_sampleEnv : Documented digitsViem sampleEnv.keccak256 := documented_digitsViem

theorem sampleInput_fits : sampleInput.Fits digitsViem where
  place := ⟨Or.inl rfl, isAddress_addressText _ _,
    isHexBytes32_hashDomainSeparator documented_sampleEnv _, by decide⟩
  root := ⟨isHexBytes32_hex32 _, hex32_ne_zeroBytes32 (by decide)⟩
  nullifier := ⟨isHexBytes32_hex32 _, hex32_ne_zeroBytes32 (by decide)⟩
  outputCommitment := ⟨isHexBytes32_hex32 _, hex32_ne_zeroBytes32 (by decide)⟩
  destination := isAddress_addressText _ _
  grossAmount := ⟨by decide, by decide⟩
  fee := by decide
  relayerPolicy := ⟨isAddress_addressText _ _, by decide, by decide, by decide⟩

theorem sampleInput_note : isHexString sampleInput.encryptedOutputNote := by decide

theorem sampleInput_relayFits : RelayFits sampleInput where
  chainId := Or.inl rfl
  pool := ⟨isEvmAddress_addressText _, by decide⟩
  root := ⟨isHexBytes32_hex32 _, (lower_hex32 _).symm ▸ hex32_ne_zeroBytes32 (by decide)⟩
  nullifier := (lower_hex32 _).symm ▸ hex32_ne_zeroBytes32 (by decide)
  destination := isEvmAddress_addressText _
  grossAmount := by decide
  fee := by decide
  relayerPolicy := ⟨isEvmAddress_addressText _, by decide, by decide, by decide⟩

/-- The three packages accept the sample, and what they hash is what the pool hashes. -/
theorem hashes_agree_sample : ∃ h : V12UnlinkableWithdrawContextHashes,
    computeV12UnlinkableWithdrawHashes digitsViem sdkRules sampleInput = .ok h ∧
      computeV12UnlinkableWithdrawHashes digitsViem webRules sampleInput = .ok h ∧
      contractBoundHashes digitsViem sampleInput = .ok h ∧
      h.proofContextHash.hash = hex32 (proofContextHash sampleEnv
        (poolContext sampleEnv sampleInput [word sampleInput.root, word sampleInput.nullifier])) :=
  have hv := documented_sampleEnv
  have hplace := sampleInput_deployed
  have hsdk := (computeV12UnlinkableWithdrawHashes_eq_ok hv accepting_sdkRules hplace
    sampleInput_note).mpr ⟨sampleInput_fits, rfl⟩
  have hweb := (computeV12UnlinkableWithdrawHashes_eq_ok hv accepting_webRules hplace
    sampleInput_note).mpr ⟨sampleInput_fits, rfl⟩
  have hrelay := (contractBoundHashes_eq_ok hv hplace rfl
    (decoded_of_fits sampleInput_fits sampleInput_note)).mpr ⟨sampleInput_relayFits, rfl⟩
  have hroot : input [word sampleInput.root, word sampleInput.nullifier] 0 =
    word sampleInput.root := rfl
  have hagree := hashes_agree hv hplace rfl hsdk hweb hrelay hroot rfl
  ⟨_, hsdk, hweb, hrelay, congrArg (fun h => h.proofContextHash.hash) hagree.1⟩

end Nullark.HashAgreement
