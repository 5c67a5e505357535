import Nullark.Pool.Effects

/-! # Proofs are bound to their calls

A proof and its public inputs can be copied, and sent by anyone in any overload. The hashes among
the public inputs leave no choice: two calls with the same public inputs that both pass their checks
up to the verification agree on everything the caller chose (`terms_eq`).

* `hashed`: the byte strings a call hashes while it is checked.
* `bindings_inj`: the two hashes of a spend determine what they were built from. -/

namespace Nullark.Pool.Binding

open Nullark.Lib.Outcome Nullark.Evm.Basic
open Nullark.Pool.Interface Nullark.Pool.Context Nullark.Pool.Actions Nullark.Pool.Calls
open Nullark.Pool.Checks Nullark.Pool.Effects

/-- The byte strings that the bindings of a spend hash, the note itself among them. -/
def bindingStrings (env : Env) (shape : Bytes32) (publicInputs : List Bytes32)
    (nullifier : Bytes32) (destination : Address) (grossAmount : UInt256) (fee : ℕ)
    (outputCommitment : Bytes32) (encryptedOutputNote : Bytes) (policy : RelayerPolicy)
    (selector : Bytes4) : List Bytes :=
  let note := outputNote shape selector nullifier outputCommitment encryptedOutputNote
  [encryptedOutputNote, encryptedOutputNotePreimage env note, relayerPolicyPreimage env policy,
    proofContextPreimage env (proofContext env shape selector publicInputs destination grossAmount
      fee (encryptedOutputNoteHash env note) policy)]

/-- **The byte strings an action hashes** while it is checked. -/
def hashed (env : Env) (s : Storage) : Action → List Bytes
  | .deposit _ publicInputs encryptedNote selector =>
    let commitment := input publicInputs 0
    [encryptedNotePreimage env (depositEncryptedNote env selector commitment encryptedNote),
      depositContextPreimage env selector commitment (input publicInputs 1)
        (depositEncryptedNoteHash env selector commitment encryptedNote)]
  | .privateTransfer a =>
    bindingStrings env (privateTransferContextShape env) a.publicInputs a.nullifier 0 0 0
      a.newCommitment a.encryptedNote a.relayerPolicy a.selector
  | .withdraw a =>
    bindingStrings env (withdrawContextShape env) a.publicInputs a.nullifier a.destination
      a.grossAmount (feeOf s a.grossAmount) (input a.publicInputs 2) a.encryptedOutputNote
      a.relayerPolicy a.selector
  | _ => []

/-- The action is a deposit, a private transfer or a withdrawal, and it passes every check up to and
including the verification of its proof. -/
def Passes (env : Env) (verify : Verify) (s : Storage) (msg : Msg) : Action → Prop
  | .deposit proof publicInputs encryptedNote selector =>
    checkDeposit env verify s msg proof publicInputs encryptedNote selector = .ok ()
  | .privateTransfer a => checkPrivateTransfer env verify s msg a = .ok ()
  | .withdraw a => ∃ r, checkWithdraw env verify s msg a = .ok r
  | _ => False

def publicInputsOf : Action → List Bytes32
  | .deposit _ publicInputs _ _ => publicInputs
  | .privateTransfer a => a.publicInputs
  | .withdraw a => a.publicInputs
  | _ => []

/-- **What a caller chooses.** A deposit has no nullifier, no destination, no fee and no policy, and
a private transfer no destination, no amount and no fee. -/
structure Terms where
  selector : Bytes4
  nullifier : Bytes32
  commitment : Bytes32
  destination : Address
  grossAmount : UInt256
  fee : ℕ
  encryptedNote : Bytes
  relayerPolicy : Option RelayerPolicy
  deriving DecidableEq

def terms (s : Storage) : Action → Option Terms
  | .deposit _ publicInputs encryptedNote selector =>
    some ⟨selector, 0, input publicInputs 0, 0, input publicInputs 1, 0, encryptedNote, none⟩
  | .privateTransfer a =>
    some ⟨a.selector, a.nullifier, a.newCommitment, 0, 0, 0, a.encryptedNote, a.relayerPolicy⟩
  | .withdraw a =>
    some ⟨a.selector, a.nullifier, input a.publicInputs 2, a.destination, a.grossAmount,
      feeOf s a.grossAmount, a.encryptedOutputNote, a.relayerPolicy⟩
  | _ => none

variable {env : Env} {verify₁ verify₂ : Verify} {s₁ s₂ : Storage} {msg₁ msg₂ : Msg}

/-- A call that takes effect has passed its checks, or is one of the operations on the fee. -/
theorem passes_of_exec {w w' : World} {verify : Verify} {msg : Msg} {call : Call}
    {p : Option Pending} (h : exec env verify w msg call = .ok (w', p)) :
    Passes env verify w.pool msg call.action ∨ terms w.pool call.action = none := by
  obtain ⟨-, -, heffect⟩ := exec_ok h
  generalize call.action = action at heffect
  cases heffect with
  | deposit hd =>
    have hchecked := hd.checked
    exact .inl (checkDeposit_eq_ok.mpr { hchecked with })
  | privateTransfer ht =>
    have hchecked := ht.checked
    exact .inl (checkPrivateTransfer_eq_ok.mpr { hchecked with })
  | withdraw hw =>
    have hchecked := hw.checked
    exact .inl ⟨_, checkWithdraw_eq_ok.mpr ⟨{ hchecked with }, rfl, rfl⟩⟩
  | fee => exact .inr rfl
  | sweepFees => exact .inr rfl

/-! ### Injectivity on the strings hashed -/

/-- Equal hashes of strings on which the reduced hash is injective. -/
theorem eq_of_hashToField {S : Set Bytes} (hinj : S.InjOn (hashToField env)) {a b : Bytes}
    (ha : a ∈ S) (hb : b ∈ S) (h : hashToField env a = hashToField env b) : a = b :=
  hinj ha hb h

/-- Equal digests are equal after the reduction. -/
theorem eq_of_keccak {S : Set Bytes} (hinj : S.InjOn (hashToField env)) {a b : Bytes}
    (ha : a ∈ S) (hb : b ∈ S) (h : env.keccak256 a = env.keccak256 b) : a = b := by
  refine hinj ha hb ?_
  unfold hashToField
  rw [h]

/-- **The two hashes of a spend determine what they were built from.** -/
theorem bindings_inj {S : Set Bytes} (hinj : S.InjOn (hashToField env))
    {shape₁ shape₂ nullifier₁ nullifier₂ commitment₁ commitment₂ : Bytes32}
    {publicInputs : List Bytes32} {destination₁ destination₂ : Address} {gross₁ gross₂ : UInt256}
    {fee₁ fee₂ : ℕ} {note₁ note₂ : Bytes} {policy₁ policy₂ : RelayerPolicy}
    {selector₁ selector₂ : Bytes4}
    (hs₁ : ∀ b ∈ bindingStrings env shape₁ publicInputs nullifier₁ destination₁ gross₁ fee₁
      commitment₁ note₁ policy₁ selector₁, b ∈ S)
    (hs₂ : ∀ b ∈ bindingStrings env shape₂ publicInputs nullifier₂ destination₂ gross₂ fee₂
      commitment₂ note₂ policy₂ selector₂, b ∈ S)
    (h₁ : BindingsChecked env shape₁ publicInputs nullifier₁ destination₁ gross₁ fee₁ commitment₁
      note₁ policy₁ selector₁)
    (h₂ : BindingsChecked env shape₂ publicInputs nullifier₂ destination₂ gross₂ fee₂ commitment₂
      note₂ policy₂ selector₂) :
    selector₁ = selector₂ ∧ nullifier₁ = nullifier₂ ∧ commitment₁ = commitment₂ ∧
      destination₁ = destination₂ ∧ gross₁ = gross₂ ∧
      BitVec.ofNat 256 fee₁ = BitVec.ofNat 256 fee₂ ∧ note₁ = note₂ ∧ policy₁ = policy₂ := by
  unfold bindingStrings at hs₁ hs₂
  simp only [List.forall_mem_cons, List.not_mem_nil, false_implies, implies_true, and_true]
    at hs₁ hs₂
  obtain ⟨hn₁, ho₁, hp₁, hc₁⟩ := hs₁
  obtain ⟨hn₂, ho₂, hp₂, hc₂⟩ := hs₂
  have hnote := eq_of_hashToField hinj ho₁ ho₂ (h₁.noteHash.symm.trans h₂.noteHash)
  obtain ⟨-, hselector, hnullifier, hcommitment, hdigest⟩ := encryptedOutputNotePreimage_inj hnote
  have hcontext := eq_of_hashToField hinj hc₁ hc₂ (h₁.contextHash.symm.trans h₂.contextHash)
  have hfields := proofContextPreimage_inj hcontext
  simp only [proofContext, ProofContextV1.mk.injEq] at hfields
  obtain ⟨-, -, -, -, hdestination, hgross, hfee, -, hpolicyHash, -⟩ := hfields
  have hpolicy := relayerPolicyPreimage_inj (eq_of_hashToField hinj hp₁ hp₂ hpolicyHash)
  exact ⟨hselector, hnullifier, hcommitment, hdestination, hgross, hfee,
    eq_of_keccak hinj hn₁ hn₂ hdigest, hpolicy⟩

/-- A fee is a word. -/
theorem feeOf_lt {s : Storage} {grossAmount : UInt256}
    (h : grossAmount.toNat * s.fees.feeBps < wordSize) : feeOf s grossAmount < 2 ^ 256 :=
  (Nat.div_le_self _ _).trans_lt h

/-! ### Pairs of actions -/

section Pairs
variable {S : Set Bytes} (hinj : S.InjOn (hashToField env))
include hinj

theorem deposits_inj {proof₁ proof₂ : Bytes} {publicInputs : List Bytes32}
    {note₁ note₂ : Bytes} {selector₁ selector₂ : Bytes4}
    (hs₁ : ∀ b ∈ hashed env s₁ (.deposit proof₁ publicInputs note₁ selector₁), b ∈ S)
    (hs₂ : ∀ b ∈ hashed env s₂ (.deposit proof₂ publicInputs note₂ selector₂), b ∈ S)
    (h₁ : DepositChecked env verify₁ s₁ msg₁ proof₁ publicInputs note₁ selector₁)
    (h₂ : DepositChecked env verify₂ s₂ msg₂ proof₂ publicInputs note₂ selector₂) :
    selector₁ = selector₂ ∧ note₁ = note₂ := by
  have hbound : ∀ {note : Bytes}, note.length ≤ maxEncryptedNoteBytes → note.length < 2 ^ 256 :=
    fun hle => hle.trans_lt (by decide)
  have hnote := eq_of_hashToField hinj (hs₁ _ List.mem_cons_self) (hs₂ _ List.mem_cons_self)
    (h₁.noteHash.symm.trans h₂.noteHash)
  have hfields := encryptedNotePreimage_inj (hbound h₁.note_le) (hbound h₂.note_le) hnote
  simp only [depositEncryptedNote, EncryptedNoteV1.mk.injEq] at hfields
  exact ⟨hfields.2.1, hfields.2.2.2.2⟩

theorem transfers_inj {a b : TransferArgs} (hpi : a.publicInputs = b.publicInputs)
    (hs₁ : ∀ x ∈ hashed env s₁ (.privateTransfer a), x ∈ S)
    (hs₂ : ∀ x ∈ hashed env s₂ (.privateTransfer b), x ∈ S)
    (h₁ : TransferChecked env verify₁ s₁ msg₁ a) (h₂ : TransferChecked env verify₂ s₂ msg₂ b) :
    terms s₁ (.privateTransfer a) = terms s₂ (.privateTransfer b) := by
  have hb₁ := h₁.bindings
  have hb₂ := h₂.bindings
  simp only [hashed] at hs₁ hs₂
  rw [hpi] at hb₁ hs₁
  obtain ⟨hselector, hnullifier, hcommitment, -, -, -, hnote, hpolicy⟩ :=
    bindings_inj hinj hs₁ hs₂ hb₁ hb₂
  simp only [terms, hselector, hnullifier, hcommitment, hnote, hpolicy]

theorem withdrawals_inj {a b : WithdrawArgs} (hpi : a.publicInputs = b.publicInputs)
    (hs₁ : ∀ x ∈ hashed env s₁ (.withdraw a), x ∈ S)
    (hs₂ : ∀ x ∈ hashed env s₂ (.withdraw b), x ∈ S)
    (h₁ : WithdrawChecked env verify₁ s₁ msg₁ a) (h₂ : WithdrawChecked env verify₂ s₂ msg₂ b) :
    terms s₁ (.withdraw a) = terms s₂ (.withdraw b) := by
  have hb₁ := h₁.bindings
  have hb₂ := h₂.bindings
  simp only [hashed] at hs₁ hs₂
  rw [hpi] at hb₁ hs₁
  obtain ⟨hselector, hnullifier, -, hdestination, hgross, hfee, hnote, hpolicy⟩ :=
    bindings_inj hinj hs₁ hs₂ hb₁ hb₂
  -- the fees are words, so that equal words are equal fees
  have hfee : feeOf s₁ a.grossAmount = feeOf s₂ b.grossAmount := by
    have hmod := congrArg BitVec.toNat hfee
    rwa [BitVec.toNat_ofNat, BitVec.toNat_ofNat, Nat.mod_eq_of_lt (feeOf_lt h₁.product_lt),
      Nat.mod_eq_of_lt (feeOf_lt h₂.product_lt)] at hmod
  rw [hgross] at hfee
  simp only [terms, hselector, hnullifier, hpi, hdestination, hgross, hfee, hnote, hpolicy]

end Pairs

/-- A deposit has fewer public inputs than a spend. -/
theorem length_ne {publicInputs₁ publicInputs₂ : List Bytes32}
    (h₁ : publicInputs₁.length = depositPublicInputsLength)
    (h₂ : publicInputs₂.length = publicInputsLength) : publicInputs₁ ≠ publicInputs₂ := by
  rintro rfl
  rw [h₁] at h₂
  exact absurd h₂ (by decide)

/-- A private transfer has no destination among its public inputs, and a withdrawal has one. -/
theorem transfer_ne_withdrawal {a : TransferArgs} {b : WithdrawArgs}
    (h₁ : TransferChecked env verify₁ s₁ msg₁ a) (h₂ : WithdrawChecked env verify₂ s₂ msg₂ b) :
    a.publicInputs ≠ b.publicInputs := by
  intro hpi
  have hzero : addressToBytes32 b.destination = addressToBytes32 0 := by
    rw [← h₂.destination, ← hpi, h₁.destination]
    rfl
  exact h₂.destination_ne (addressToBytes32_injective hzero)

/-- **Proofs are not malleable.** Two calls with the same public inputs that both pass every check up
to and including the verification, in any overloads, by any senders, in any two states and for any
answers of the verifier, use the same selector, nullifier, commitment, destination, gross amount,
fee, encrypted note and relayer policy, if keccak reduced into the field is injective on the byte
strings the two calls hash. -/
theorem terms_eq (env : Env) (verify₁ verify₂ : Verify) (s₁ s₂ : Storage) (msg₁ msg₂ : Msg)
    (call₁ call₂ : Call)
    (hinj : Set.InjOn (hashToField env)
      {b | b ∈ hashed env s₁ call₁.action ∨ b ∈ hashed env s₂ call₂.action})
    (hpi : publicInputsOf call₁.action = publicInputsOf call₂.action)
    (h₁ : Passes env verify₁ s₁ msg₁ call₁.action) (h₂ : Passes env verify₂ s₂ msg₂ call₂.action) :
    ∃ t, terms s₁ call₁.action = some t ∧ terms s₂ call₂.action = some t ∧
      t.selector = call₁.selector ∧ t.selector = call₂.selector := by
  have hselector : ∀ {s : Storage} {call : Call} {t : Terms}, terms s call.action = some t →
      t.selector = call.selector := by
    intro s call t ht
    cases call <;> simp only [Call.action, terms, Option.some.injEq, reduceCtorEq] at ht <;>
      rw [← ht]
  suffices heq : terms s₁ call₁.action = terms s₂ call₂.action ∧
      ∃ t, terms s₁ call₁.action = some t by
    obtain ⟨heq, t, ht⟩ := heq
    exact ⟨t, ht, heq ▸ ht, hselector ht, hselector (heq ▸ ht)⟩
  clear hselector
  have hs₁ : ∀ b ∈ hashed env s₁ call₁.action,
      b ∈ {b | b ∈ hashed env s₁ call₁.action ∨ b ∈ hashed env s₂ call₂.action} := fun _ => .inl
  have hs₂ : ∀ b ∈ hashed env s₂ call₂.action,
      b ∈ {b | b ∈ hashed env s₁ call₁.action ∨ b ∈ hashed env s₂ call₂.action} := fun _ => .inr
  generalize {b | b ∈ hashed env s₁ call₁.action ∨ b ∈ hashed env s₂ call₂.action} = S
    at hinj hs₁ hs₂
  generalize call₁.action = action₁ at *
  generalize call₂.action = action₂ at *
  cases action₁ with
  | rejected | fee | sweepFees => exact h₁.elim
  | deposit proof₁ publicInputs note₁ selector₁ =>
    have hc₁ := checkDeposit_eq_ok.mp h₁
    cases action₂ with
    | rejected | fee | sweepFees => exact h₂.elim
    | deposit proof₂ publicInputs₂ note₂ selector₂ =>
      obtain rfl : publicInputs = publicInputs₂ := hpi
      obtain ⟨rfl, rfl⟩ := deposits_inj hinj hs₁ hs₂ hc₁ (checkDeposit_eq_ok.mp h₂)
      exact ⟨rfl, _, rfl⟩
    | privateTransfer b =>
      exact absurd hpi (length_ne hc₁.length (checkPrivateTransfer_eq_ok.mp h₂).common.length)
    | withdraw b =>
      obtain ⟨⟨fee, commitment⟩, h₂⟩ := h₂
      exact absurd hpi (length_ne hc₁.length (checkWithdraw_eq_ok.mp h₂).1.common.length)
  | privateTransfer a =>
    have hc₁ := checkPrivateTransfer_eq_ok.mp h₁
    cases action₂ with
    | rejected | fee | sweepFees => exact h₂.elim
    | deposit proof₂ publicInputs₂ note₂ selector₂ =>
      exact absurd hpi.symm (length_ne (checkDeposit_eq_ok.mp h₂).length hc₁.common.length)
    | privateTransfer b =>
      exact ⟨transfers_inj hinj hpi hs₁ hs₂ hc₁ (checkPrivateTransfer_eq_ok.mp h₂), _, rfl⟩
    | withdraw b =>
      obtain ⟨⟨fee, commitment⟩, h₂⟩ := h₂
      exact absurd hpi (transfer_ne_withdrawal hc₁ (checkWithdraw_eq_ok.mp h₂).1)
  | withdraw a =>
    obtain ⟨⟨fee, commitment⟩, h₁⟩ := h₁
    have hc₁ := (checkWithdraw_eq_ok.mp h₁).1
    cases action₂ with
    | rejected | fee | sweepFees => exact h₂.elim
    | deposit proof₂ publicInputs₂ note₂ selector₂ =>
      exact absurd hpi.symm (length_ne (checkDeposit_eq_ok.mp h₂).length hc₁.common.length)
    | privateTransfer b =>
      exact absurd hpi.symm (transfer_ne_withdrawal (checkPrivateTransfer_eq_ok.mp h₂) hc₁)
    | withdraw b =>
      obtain ⟨⟨fee₂, commitment₂⟩, h₂⟩ := h₂
      exact ⟨withdrawals_inj hinj hpi hs₁ hs₂ hc₁ (checkWithdraw_eq_ok.mp h₂).1, _, rfl⟩

/-- A chain whose digests are the lengths of their strings. -/
def lengthEnv : Env := { plainEnv with keccak256 := fun b => BitVec.ofNat 256 b.length }

/-- The same deposit sent by two accounts, to a new pool and to one that knows another commitment. -/
theorem terms_eq_resent :
    let call : Call := .deposit [] [5, 5000000000000000, 6343, 7, 288, 352] [1]
    let s : Storage := (plainWorld 0).pool
    ∃ t, terms s call.action = some t ∧
      terms { s with commitments := Function.update s.commitments 6 true } call.action = some t ∧
      t.selector = call.selector ∧ t.selector = call.selector := by
  intro call s
  have hstrings : ∀ b, (b ∈ hashed lengthEnv s call.action ∨ b ∈ hashed lengthEnv
      { s with commitments := Function.update s.commitments 6 true } call.action) →
      b ∈ hashed lengthEnv s call.action := fun b hb => hb.elim id id
  have hinj : ∀ a ∈ hashed lengthEnv s call.action, ∀ b ∈ hashed lengthEnv s call.action,
      hashToField lengthEnv a = hashToField lengthEnv b → a = b := by decide +kernel
  have hchecked : ∀ (commitments : Bytes32 → Bool) (sender : Address), ¬commitments 5 →
      DepositChecked lengthEnv (fun _ _ => true) { s with commitments } { plainMsg with sender } []
        [5, 5000000000000000, 6343, 7, 288, 352] [1] call.selector := fun commitments sender h =>
    have hvalue : 0 < plainMsg.value ∧ isSupportedDenomination plainMsg.value := by decide
    ⟨rfl, by decide, by decide, h, rfl, hvalue.1, hvalue.2, rfl, rfl, by decide, by decide,
      by decide +kernel, by decide +kernel, rfl⟩
  exact terms_eq lengthEnv (fun _ _ => true) (fun _ _ => true) s _ { plainMsg with sender := 1 }
    { plainMsg with sender := 2 } call call
    (fun a ha b hb h => hinj a (hstrings a ha) b (hstrings b hb) h) rfl
    (checkDeposit_eq_ok.mpr (hchecked s.commitments 1 (by decide)))
    (checkDeposit_eq_ok.mpr (hchecked _ 2 (by decide)))

end Nullark.Pool.Binding
