import Nullark.Pool.Checks
import Nullark.Sdk.Calldata

/-! # The binding of public inputs

The SDK compares the public inputs of a v1.2 withdrawal with the values they are for. An address is
compared with the last twenty bytes of its slot, where the pool compares the slot.

* `assertV12UnlinkableWithdrawPublicInputBinding_eq_ok`: the public inputs that are accepted.
* `requireWithdrawalPublicInputs_of_slots`: what the pool asks of the slots.
* `bindsPublicInputs_iff`: when what is accepted has the slots the pool asks for. -/

namespace Nullark.Sdk.PublicInputBinding

open Nullark.Lib Nullark.Lib.Outcome
open Nullark.Lib.Hex hiding value Digits ofNat
open Nullark.Evm.Basic Nullark.Pool.Interface Nullark.Pool.Context Nullark.Pool.Actions
open Nullark.Pool.Checks Nullark.Pool.Roots
open Nullark.Js.Basic Nullark.Js.Bytes Nullark.Js.Numbers Nullark.Js.SpendMaterial
open Nullark.Js.ContextHashes (zeroBytes32 word_ne_zero_iff)
open Nullark.Sdk.Calldata

/-! ### The code -/

structure V12UnlinkableWithdrawPublicInputBinding where
  publicInputs : List Text
  nullifier : Text
  destination : Text
  grossAmountWei : Text
  currentRoot : Text
  outputCommitment : Option Text
  expectedPool : Text
  expectedChainId : ℕ

def megaethMainnetChainId : ℕ := 4326

def megaethTestnetChainId : ℕ := 6343

/-- The last forty characters of a text, as an address. -/
def bytes32ToEvmAddress (value : Text) : Text := '0' :: 'x' :: lower (value.drop (value.length - 40))

/-- The slot of a list of public inputs. -/
def slot (publicInputs : List Text) (index : ℕ) : Text := publicInputs.getD index []

/-- **`assertV12UnlinkableWithdrawPublicInputBinding`**. -/
def assertV12UnlinkableWithdrawPublicInputBinding (b : V12UnlinkableWithdrawPublicInputBinding) :
    Throws Unit := do
  let inputs ← assertV12UnlinkableWithdrawPublicInputs b.publicInputs
  let expectedRoot ← assertBytes32 b.currentRoot "Expected current root to be bytes32 hex."
  let expectedNullifier ← assertBytes32 b.nullifier "Expected a 32-byte nullifier."
  let expectedDestination ← assertAddress (trim b.destination)
  let expectedGrossAmount ← normalizeDecimalUint256 b.grossAmountWei
    "Expected gross amount wei as a decimal integer."
  let pool ← assertAddress b.expectedPool
  ensure (¬(b.expectedChainId ≠ megaethMainnetChainId ∧ b.expectedChainId ≠ megaethTestnetChainId))
    "Expected withdrawal proof chain ID to be MegaETH mainnet or testnet."
  ensure (lower (slot inputs 0) = lower expectedRoot)
    "Withdrawal proof root does not match the current pool root."
  ensure (lower (slot inputs 1) = lower expectedNullifier)
    "Withdrawal nullifier does not match public inputs."
  ensure (¬(slot inputs 2 = zeroBytes32 ∨ ¬isBn254FieldElement (slot inputs 2)))
    "Withdrawal output commitment is not a nonzero BN254 field element."
  ensure (∀ outputCommitment ∈ b.outputCommitment,
      lower (slot inputs 2) = lower (trim outputCommitment))
    "Withdrawal output commitment does not match public inputs."
  ensure (lower (bytes32ToEvmAddress (slot inputs 3)) = lower expectedDestination)
    "Withdrawal destination does not match public inputs."
  ensure (hexNat (slot inputs 4) = expectedGrossAmount)
    "Withdrawal amount does not match public inputs."
  ensure (hexNat (slot inputs 6) = b.expectedChainId)
    "Withdrawal proof is not bound to the active MegaETH chain."
  ensure (lower (bytes32ToEvmAddress (slot inputs 7)) = lower pool)
    "Withdrawal proof is not bound to this shielded pool."
  ensure (¬(slot inputs 8 = zeroBytes32 ∨ slot inputs 9 = zeroBytes32))
    "Withdrawal proof must bind nonzero proof context and encrypted output note hashes."

/-! ### What is accepted -/

variable {b : V12UnlinkableWithdrawPublicInputBinding}

/-- **The public inputs that are accepted.** -/
structure Agrees (b : V12UnlinkableWithdrawPublicInputBinding) : Prop where
  length : b.publicInputs.length = 10
  publicInputs : ∀ value ∈ b.publicInputs, isHexBytes32 value
  currentRoot : isHexBytes32 b.currentRoot
  nullifierText : isHexBytes32 b.nullifier
  destinationText : isEvmAddress (trim b.destination)
  amountText : Decimal.isDecimal (trim b.grossAmountWei)
  pool : isEvmAddress b.expectedPool
  chain : b.expectedChainId = megaethMainnetChainId ∨ b.expectedChainId = megaethTestnetChainId
  root : lower (slot b.publicInputs 0) = lower b.currentRoot
  nullifier : lower (slot b.publicInputs 1) = lower b.nullifier
  commitment_ne : slot b.publicInputs 2 ≠ zeroBytes32
  commitment_field : isBn254FieldElement (slot b.publicInputs 2)
  commitment : ∀ c ∈ b.outputCommitment, lower (slot b.publicInputs 2) = lower (trim c)
  destination : lower (bytes32ToEvmAddress (slot b.publicInputs 3)) = lower (trim b.destination)
  grossAmount : hexNat (slot b.publicInputs 4) = Decimal.value (trim b.grossAmountWei)
  chainId : hexNat (slot b.publicInputs 6) = b.expectedChainId
  verifyingContract : lower (bytes32ToEvmAddress (slot b.publicInputs 7)) = lower b.expectedPool
  contextHash_ne : slot b.publicInputs 8 ≠ zeroBytes32
  noteHash_ne : slot b.publicInputs 9 ≠ zeroBytes32

theorem assertV12UnlinkableWithdrawPublicInputBinding_eq_ok {u : Unit} :
    assertV12UnlinkableWithdrawPublicInputBinding b = .ok u ↔ Agrees b := by
  have hchain : ¬(b.expectedChainId ≠ megaethMainnetChainId ∧
      b.expectedChainId ≠ megaethTestnetChainId) ↔
      (b.expectedChainId = megaethMainnetChainId ∨ b.expectedChainId = megaethTestnetChainId) := by
    rw [not_and_or, not_not, not_not]
  unfold assertV12UnlinkableWithdrawPublicInputBinding
  simp only [bind_eq_ok, assertV12UnlinkableWithdrawPublicInputs_eq_ok, assertBytes32_eq_ok,
    assertAddress_eq_ok, normalizeDecimalUint256_eq_ok, ensure_eq_ok, exists_const, hchain, not_or,
    not_not]
  constructor
  · rintro ⟨_, ⟨h1, h2, rfl⟩, _, ⟨h3, rfl⟩, _, ⟨h4, rfl⟩, _, ⟨h5, rfl⟩, _, ⟨h6, rfl⟩, _, ⟨h7, rfl⟩,
      h8, h9, h10, ⟨h11, h12⟩, h13, h14, h15, h16, h17, h18, h19⟩
    exact ⟨h1, h2, h3, h4, h5, h6, h7, h8, h9, h10, h11, h12, h13, h14, h15, h16, h17, h18, h19⟩
  · rintro ⟨h1, h2, h3, h4, h5, h6, h7, h8, h9, h10, h11, h12, h13, h14, h15, h16, h17, h18, h19⟩
    exact ⟨_, ⟨h1, h2, rfl⟩, _, ⟨h3, rfl⟩, _, ⟨h4, rfl⟩, _, ⟨h5, rfl⟩, _, ⟨h6, rfl⟩, _, ⟨h7, rfl⟩,
      h8, h9, h10, ⟨h11, h12⟩, h13, h14, h15, h16, h17, h18, h19⟩

/-! ### Addresses -/

/-- The low bytes of a word are an address. -/
theorem bytes32ToEvmAddress_spec {t : Text} (h : isHexBytes32 t) :
    isEvmAddress (bytes32ToEvmAddress t) ∧
      (address (bytes32ToEvmAddress t)).toNat = (word t).toNat % 2 ^ 160 := by
  have hnat := toNat_word h
  obtain ⟨digits, rfl, hlen, hd⟩ := isHexOfLength_iff.mp h
  have hdrop : lower (digits.drop 24) = fixed 40 (Hex.value digits) := by
    have hlower := lower_eq_fixed hd
    rw [hlen] at hlower
    rw [lower, List.map_drop]
    exact (congrArg (List.drop 24) hlower).trans (drop_fixed 24 40 _)
  have htext : bytes32ToEvmAddress ('0' :: 'x' :: digits) =
      '0' :: 'x' :: fixed 40 (Hex.value digits) := by
    have hlength : ('0' :: 'x' :: digits).length - 40 = 26 := by
      rw [List.length_cons, List.length_cons, hlen]
    rw [bytes32ToEvmAddress, hlength, List.drop_succ_cons, List.drop_succ_cons, hdrop]
  have hevm : isEvmAddress (bytes32ToEvmAddress ('0' :: 'x' :: digits)) := by
    rw [htext]
    exact isHexOfLength_iff.mpr ⟨_, rfl, length_fixed 40 _, digits_fixed 40 _⟩
  refine ⟨hevm, ?_⟩
  have hvalue : hexNat ('0' :: 'x' :: fixed 40 (Hex.value digits)) =
      Hex.value digits % 16 ^ 40 := value_fixed 40 _
  have hpow : (16 : ℕ) ^ 40 = 2 ^ 160 := by norm_num
  rw [toNat_address hevm, htext, hvalue, hnat, hpow]
  rfl

/-- The comparison is one of the low bytes. -/
theorem lower_bytes32ToEvmAddress_iff {t a : Text} (ht : isHexBytes32 t) (ha : isEvmAddress a) :
    lower (bytes32ToEvmAddress t) = lower a ↔ (word t).toNat % 2 ^ 160 = (address a).toNat := by
  obtain ⟨hevm, hnat⟩ := bytes32ToEvmAddress_spec ht
  rw [lower_eq_lower_iff_address hevm ha, ← BitVec.toNat_inj, hnat]

/-- For a word that is no larger than an address it is one of the word. -/
theorem word_eq_addressToBytes32_iff {t a : Text} (ht : isHexBytes32 t) (ha : isEvmAddress a)
    (hsame : lower (bytes32ToEvmAddress t) = lower a) :
    word t = addressToBytes32 (address a) ↔ (word t).toNat < 2 ^ 160 := by
  have hlow := (lower_bytes32ToEvmAddress_iff ht ha).mp hsame
  rw [← BitVec.toNat_inj, toNat_addressToBytes32, ← hlow]
  constructor
  · intro h
    rw [h]
    exact Nat.mod_lt _ (by norm_num)
  · intro h
    exact (Nat.mod_eq_of_lt h).symm

/-! ### What the pool asks for -/

/-- The words of the public inputs. -/
def words (b : V12UnlinkableWithdrawPublicInputBinding) : List Bytes32 := b.publicInputs.map word

/-- **The slots the pool asks for**, as words. -/
structure PoolSlots (b : V12UnlinkableWithdrawPublicInputBinding) : Prop where
  length : (words b).length = 10
  root : input (words b) 0 = word b.currentRoot
  nullifier : input (words b) 1 = word b.nullifier
  commitment_ne : input (words b) 2 ≠ 0
  commitment_field : isFieldElement (input (words b) 2)
  destination : input (words b) 3 = addressToBytes32 (address (trim b.destination))
  grossAmount : input (words b) 4 = BitVec.ofNat 256 (Decimal.value (trim b.grossAmountWei))
  grossAmount_lt : Decimal.value (trim b.grossAmountWei) < 2 ^ 256
  chainId : input (words b) 6 = BitVec.ofNat 256 b.expectedChainId
  verifyingContract : input (words b) 7 = addressToBytes32 (address b.expectedPool)

/-- The pool with a state and the fee that the slots do not name. -/
structure Placed (b : V12UnlinkableWithdrawPublicInputBinding) (env : Env) (s : Storage)
    (fee : ℕ) : Prop where
  chainId : env.chainId = BitVec.ofNat 256 b.expectedChainId
  this : env.this = address b.expectedPool
  root : isAcceptedRoot s.roots (word b.currentRoot)
  commitment_fresh : ¬s.commitments (input (words b) 2)
  fee : input (words b) 5 = BitVec.ofNat 256 fee

/-- The pool lets such slots pass. -/
theorem requireWithdrawalPublicInputs_of_slots (h : PoolSlots b) {env : Env} {s : Storage}
    {fee : ℕ} (hplace : Placed b env s fee) :
    requireWithdrawalPublicInputs env s (words b) (word b.nullifier) (address (trim b.destination))
      (BitVec.ofNat 256 (Decimal.value (trim b.grossAmountWei))) fee =
        .ok (input (words b) 2) := by
  have hcommon : CommonChecked env s (words b) (word b.nullifier) :=
    ⟨h.length, h.root ▸ hplace.root, h.nullifier, h.chainId.trans hplace.chainId.symm,
      h.verifyingContract.trans (congrArg addressToBytes32 hplace.this.symm)⟩
  exact requireWithdrawalPublicInputs_eq_ok.mpr ⟨⟨hcommon, h.commitment_ne, h.commitment_field,
    hplace.commitment_fresh, h.destination, h.grossAmount, hplace.fee⟩, rfl⟩

/-! ### When the two agree -/

/-- The slots with an address hold no more than an address. -/
def AddressWords (b : V12UnlinkableWithdrawPublicInputBinding) : Prop :=
  (input (words b) 3).toNat < 2 ^ 160 ∧ (input (words b) 7).toNat < 2 ^ 160

/-- **What is accepted has the slots the pool asks for**, and the pool lets it pass. -/
def BindsPublicInputs (b : V12UnlinkableWithdrawPublicInputBinding) : Prop :=
  assertV12UnlinkableWithdrawPublicInputBinding b = .ok () →
    PoolSlots b ∧ ∀ env s fee, Placed b env s fee →
      requireWithdrawalPublicInputs env s (words b) (word b.nullifier)
        (address (trim b.destination)) (BitVec.ofNat 256 (Decimal.value (trim b.grossAmountWei)))
        fee = .ok (input (words b) 2)

section Agrees
variable (h : Agrees b)
include h

theorem Agrees.input_words {index : ℕ} (hindex : index < 10) :
    input (words b) index = word (slot b.publicInputs index) ∧
      isHexBytes32 (slot b.publicInputs index) := by
  have hlt : index < b.publicInputs.length := by rw [h.length]; exact hindex
  have hmap : index < (b.publicInputs.map word).length := by rw [List.length_map]; exact hlt
  rw [input, words, slot, List.getD_eq_getElem _ _ hmap, List.getElem_map,
    List.getD_eq_getElem _ _ hlt]
  exact ⟨rfl, h.publicInputs _ (List.getElem_mem hlt)⟩

/-- What is accepted has the slots if the addresses have no further bytes. -/
theorem Agrees.poolSlots_iff : PoolSlots b ↔ AddressWords b := by
  obtain ⟨hroot, hrootText⟩ := h.input_words (by decide : 0 < 10)
  obtain ⟨hnullifier, hnullifierText⟩ := h.input_words (by decide : 1 < 10)
  obtain ⟨hcommitment, hcommitmentText⟩ := h.input_words (by decide : 2 < 10)
  obtain ⟨hdestination, hdestinationText⟩ := h.input_words (by decide : 3 < 10)
  obtain ⟨hgross, hgrossText⟩ := h.input_words (by decide : 4 < 10)
  obtain ⟨hchain, hchainText⟩ := h.input_words (by decide : 6 < 10)
  obtain ⟨hpool, hpoolText⟩ := h.input_words (by decide : 7 < 10)
  have hdestination_iff :=
    word_eq_addressToBytes32_iff hdestinationText h.destinationText h.destination
  have hpool_iff := word_eq_addressToBytes32_iff hpoolText h.pool h.verifyingContract
  rw [AddressWords, hdestination, hpool]
  constructor
  · intro hslots
    exact ⟨hdestination_iff.mp (hdestination ▸ hslots.destination),
      hpool_iff.mp (hpool ▸ hslots.verifyingContract)⟩
  · rintro ⟨hthree, hseven⟩
    refine ⟨?_, ?_, ?_, ?_, ?_, ?_, ?_, ?_, ?_, ?_⟩
    · rw [words, List.length_map, h.length]
    · exact hroot.trans ((lower_eq_lower_iff_word hrootText h.currentRoot).mp h.root)
    · exact hnullifier.trans ((lower_eq_lower_iff_word hnullifierText h.nullifierText).mp h.nullifier)
    · rw [hcommitment]
      exact (word_ne_zero_iff hcommitmentText).mpr h.commitment_ne
    · rw [hcommitment, isFieldElement, toNat_word hcommitmentText]
      exact h.commitment_field.2.2
    · exact hdestination.trans (hdestination_iff.mpr hthree)
    · rw [hgross, ← h.grossAmount]
      rfl
    · rw [← h.grossAmount, ← toNat_word hgrossText]
      exact (word (slot b.publicInputs 4)).isLt
    · rw [hchain, ← h.chainId]
      rfl
    · exact hpool.trans (hpool_iff.mpr hseven)

end Agrees

/-- **The two agree** exactly if the address slots of what is accepted have no further bytes. -/
theorem bindsPublicInputs_iff : BindsPublicInputs b ↔ (Agrees b → AddressWords b) := by
  constructor
  · intro h hagrees
    exact hagrees.poolSlots_iff.mp
      (h (assertV12UnlinkableWithdrawPublicInputBinding_eq_ok.mpr hagrees)).1
  · intro h hok
    have hagrees := assertV12UnlinkableWithdrawPublicInputBinding_eq_ok.mp hok
    have hslots := hagrees.poolSlots_iff.mpr (h hagrees)
    exact ⟨hslots, fun env s fee hplace => requireWithdrawalPublicInputs_of_slots hslots hplace⟩

/-! ### A destination with further bytes -/

/-- The word of one, with a one in the byte in front of the address. -/
def longDestination : Bytes32 := BitVec.ofNat 256 (2 ^ 160 + 1)

def longBinding : V12UnlinkableWithdrawPublicInputBinding where
  publicInputs := [hex32 1, hex32 1, hex32 1, hex32 longDestination, hex32 1, hex32 0, hex32 6343,
    hex32 1, hex32 1, hex32 1]
  nullifier := hex32 1
  destination := addressText 1
  grossAmountWei := "1".toList
  currentRoot := hex32 1
  outputCommitment := none
  expectedPool := addressText 1
  expectedChainId := 6343

/-- It is accepted, and the slot is not the one the pool asks for. -/
theorem long_destination_accepted :
    assertV12UnlinkableWithdrawPublicInputBinding longBinding = .ok () ∧
      ¬BindsPublicInputs longBinding := by
  have hagrees : Agrees longBinding := by
    refine ⟨rfl, ?_, isHexBytes32_hex32 1, isHexBytes32_hex32 1, by decide, by decide,
      isEvmAddress_addressText 1, .inr rfl, rfl, rfl, by decide +kernel, by decide +kernel, ?_,
      by decide +kernel, by decide +kernel, by decide +kernel, by decide +kernel,
      by decide +kernel, by decide +kernel⟩
    · simp only [longBinding, List.forall_mem_cons, isHexBytes32_hex32, true_and]
      exact fun _ hx => absurd hx List.not_mem_nil
    · exact fun c hc => absurd hc (Option.not_mem_none c)
  have haccepted : assertV12UnlinkableWithdrawPublicInputBinding longBinding = .ok () :=
    assertV12UnlinkableWithdrawPublicInputBinding_eq_ok.mpr hagrees
  refine ⟨haccepted, fun h => ?_⟩
  have hslot := (hagrees.poolSlots_iff.mp (h haccepted).1).1
  have hword : (input (words longBinding) 3).toNat = 2 ^ 160 + 1 := by
    rw [(hagrees.input_words (by decide : 3 < 10)).1]
    exact (toNat_word (isHexBytes32_hex32 longDestination)).trans (hexNat_hex32 _)
  rw [hword] at hslot
  omega

end Nullark.Sdk.PublicInputBinding
