import Nullark.PoolV11.Conservation
import Nullark.Verifier.Deployed

/-! # The verifier of v1.1

`ActionRoutingGroth16Verifier` answers for the pool of v1.1, whose spends have twelve signals and
whose deposits come without a proof. Over the generated verifiers of its two circuits, what the pool
records as spent has been proven.

* `verify_iff`: what an accepted vector of public inputs satisfies.
* `accepted_iff`: what the verifiers accept together.
* `Backed`: the invariant of the pool behind them.
* `spends_proven`: along its runs. -/

namespace Nullark.Verifier.V11

open Nullark.Lib.Outcome Nullark.Lib.Groth16 Nullark.Lib.Rollback
open Nullark.Evm.Basic Nullark.Evm.Bn254
open Nullark.Pool.Interface hiding Event publicInputsLength
open Nullark.Pool.Context (Env)
open Nullark.Pool.Actions (Verify Msg input)
open Nullark.Pool.Calls (Answers)
open Nullark.Verifier.ActionRouting (ProofPoints decodeProof proofBytesLength firstNonAddressValue
  isSupportedMegaEthChain isPrivateTransfer isWithdrawal not_any_iff isFieldElement_input)
open Nullark.Verifier.Groth16
open Nullark.Verifier.Deployed (Proven trivialPairing satisfies_trivial)
open Nullark.PoolV11.Actions Nullark.PoolV11.Calls Nullark.PoolV11.Effects Nullark.PoolV11.Solvency
open Nullark.Pool.Conservation (sampleEnv)
open Nullark.PoolV11.Conservation (runSpend runMoves)

/-! ### The code -/

/-- The two Groth16 verifiers. -/
structure Verifiers where
  privateTransferVerifier : ProofPoints → List Bytes32 → Bool
  withdrawVerifier : ProofPoints → List Bytes32 → Bool

/-- **`verify`**. The verifying contract is checked before the chain, and nothing is said of the
commitment that is spent: the pool checks it. -/
def verify (v : Verifiers) : Verify := fun proof publicInputs =>
  if publicInputs.length ≠ publicInputsLength ∨ proof.length ≠ proofBytesLength then false
  else if publicInputs.any (¬isFieldElement ·) then false
  else if (input publicInputs 7).toNat ≥ firstNonAddressValue then false
  else if ¬isSupportedMegaEthChain (input publicInputs 6) then false
  else if input publicInputs 10 = 0 ∨ input publicInputs 11 = 0 then false
  else
    let points := decodeProof proof
    if isPrivateTransfer publicInputs then v.privateTransferVerifier points publicInputs
    else if isWithdrawal publicInputs then v.withdrawVerifier points publicInputs
    else false

/-- The generated verifiers of v1.1. -/
def deployed (pre : Precompiles) : Verifiers where
  privateTransferVerifier := verifyProof pre privateTransferKeyV11
  withdrawVerifier := verifyProof pre withdrawKeyV11

/-! ### What is accepted -/

/-- The checks of the signals. -/
structure Signals (publicInputs : List Bytes32) : Prop where
  length : publicInputs.length = publicInputsLength
  field : ∀ x ∈ publicInputs, isFieldElement x
  verifyingContract : (input publicInputs 7).toNat < firstNonAddressValue
  chainId : isSupportedMegaEthChain (input publicInputs 6)
  hashes : input publicInputs 10 ≠ 0 ∧ input publicInputs 11 ≠ 0

/-- **Accepted spends** are routed by their public inputs. -/
theorem verify_iff {v : Verifiers} {proof : Bytes} {publicInputs : List Bytes32} :
    verify v proof publicInputs = true ↔ proof.length = proofBytesLength ∧ Signals publicInputs ∧
      (isPrivateTransfer publicInputs ∧
          v.privateTransferVerifier (decodeProof proof) publicInputs = true ∨
        ¬isPrivateTransfer publicInputs ∧ isWithdrawal publicInputs ∧
          v.withdrawVerifier (decodeProof proof) publicInputs = true) := by
  unfold verify
  dsimp only
  constructor
  · intro h
    split_ifs at h with h1 h2 h3 h4 h5 h6 h7
    all_goals
      obtain ⟨hlength, hproof⟩ := not_or.mp h1
      have hsignals : Signals publicInputs :=
        ⟨not_not.mp hlength, not_any_iff.mp h2, not_le.mp h3, h4, not_or.mp h5⟩
    · exact ⟨not_not.mp hproof, hsignals, .inl ⟨h6, h⟩⟩
    · exact ⟨not_not.mp hproof, hsignals, .inr ⟨h6, h7, h⟩⟩
  · rintro ⟨hproof, h, hroute⟩
    have hlengths : ¬(publicInputs.length ≠ publicInputsLength ∨ proof.length ≠ proofBytesLength) :=
      not_or.mpr ⟨not_not.mpr h.length, not_not.mpr hproof⟩
    rw [if_neg hlengths, if_neg (not_any_iff.mpr h.field), if_neg (not_le.mpr h.verifyingContract),
      if_neg (not_not.mpr h.chainId), if_neg (not_or.mpr h.hashes)]
    rcases hroute with ⟨htransfer, h⟩ | ⟨htransfer, hwithdraw, h⟩
    · rw [if_pos htransfer, h]
    · rw [if_neg htransfer, if_pos hwithdraw, h]

section Verifiers
variable {G₂ T : Type} [AddCommGroup G₂] [AddCommGroup T] (c : Pairing G₂ T)
variable (submitted : Bytes → List Bytes32 → Prop)

/-- A spend is proven as the transfer or the withdrawal that it is. -/
def SpendProven (publicInputs : List Bytes32) : Prop :=
  isPrivateTransfer publicInputs ∧ Proven c submitted privateTransferKeyV11 publicInputs ∨
    ¬isPrivateTransfer publicInputs ∧ isWithdrawal publicInputs ∧
      Proven c submitted withdrawKeyV11 publicInputs

/-- What the pool asks. -/
noncomputable def deployedVerify : Verify := verify (deployed (precompiles c))

/-- The verifiers are asked about the submitted proofs. -/
def answering : Answers := fun verify => ∀ proof publicInputs, verify proof publicInputs = true →
  submitted proof publicInputs ∧ deployedVerify c proof publicInputs = true

variable {c} {submitted} {proof : Bytes} {publicInputs : List Bytes32}

theorem deployed_privateTransfer_iff (hlen : publicInputs.length = publicInputsLength)
    (points : ProofPoints) :
    (deployed (precompiles c)).privateTransferVerifier points publicInputs = true ↔
      (∀ s ∈ publicInputs, isFieldElement s) ∧
        Satisfies c privateTransferKeyV11 points publicInputs :=
  verifyProof_eq_true privateTransferKeyV11_mem (hlen.trans length_privateTransferKeyV11.symm)

theorem deployed_withdraw_iff (hlen : publicInputs.length = publicInputsLength)
    (points : ProofPoints) :
    (deployed (precompiles c)).withdrawVerifier points publicInputs = true ↔
      (∀ s ∈ publicInputs, isFieldElement s) ∧ Satisfies c withdrawKeyV11 points publicInputs :=
  verifyProof_eq_true withdrawKeyV11_mem (hlen.trans length_withdrawKeyV11.symm)

/-- **What the verifiers accept together**: a proof of 256 bytes whose points satisfy the equation
of the circuit that the signals select. -/
theorem accepted_iff : deployedVerify c proof publicInputs = true ↔
    proof.length = proofBytesLength ∧ Signals publicInputs ∧
      (isPrivateTransfer publicInputs ∧
          Satisfies c privateTransferKeyV11 (decodeProof proof) publicInputs ∨
        ¬isPrivateTransfer publicInputs ∧ isWithdrawal publicInputs ∧
          Satisfies c withdrawKeyV11 (decodeProof proof) publicInputs) := by
  rw [deployedVerify, verify_iff]
  refine and_congr_right fun _ => and_congr_right fun h => ?_
  rw [deployed_privateTransfer_iff h.length, deployed_withdraw_iff h.length,
    and_iff_right h.field, and_iff_right h.field]

theorem proven_of_accepted (hs : submitted proof publicInputs)
    (h : deployedVerify c proof publicInputs = true) : SpendProven c submitted publicInputs := by
  obtain ⟨-, hsignals, ⟨htransfer, hsatisfies⟩ | ⟨htransfer, hwithdraw, hsatisfies⟩⟩ :=
    accepted_iff.mp h
  · exact .inl ⟨htransfer, hsignals.field, proof, hs, hsatisfies⟩
  · exact .inr ⟨htransfer, hwithdraw, hsignals.field, proof, hs, hsatisfies⟩

theorem SpendProven.field (h : SpendProven c submitted publicInputs) :
    ∀ x ∈ publicInputs, isFieldElement x := by
  rcases h with ⟨-, h⟩ | ⟨-, -, h⟩
  · exact h.1
  · exact h.1

/-! ### The pool -/

/-- **What the pool records as spent is proven**, and what it records as a commitment was deposited
or is the output of a spend. -/
structure Backed (c : Pairing G₂ T) (submitted : Bytes → List Bytes32 → Prop) (w : World) :
    Prop where
  spends : ∀ publicInputs ∈ w.spends, SpendProven c submitted publicInputs ∧
    w.pool.commitments (input publicInputs 8) = true
  nullifiers : ∀ ν, w.pool.nullifiers ν = true → ∃ publicInputs ∈ w.spends, input publicInputs 1 = ν
  commitments : ∀ k, w.pool.commitments k = true →
    (∃ amount, Event.shared (.depositCommitmentInserted k amount) ∈ w.logs) ∨
      ∃ publicInputs ∈ w.spends, input publicInputs 2 = k

variable {env : Env} {verify : Verify} {w w' : World} {msg : Msg}

/-- The nullifiers are reduced. -/
theorem Backed.reduced (h : Backed c submitted w) {ν : Bytes32}
    (hν : w.pool.nullifiers ν = true) : isFieldElement ν := by
  obtain ⟨publicInputs, hmem, rfl⟩ := h.nullifiers ν hν
  exact isFieldElement_input (h.spends publicInputs hmem).1.field 1

theorem Backed.congr (h : Backed c submitted w) (hspends : w'.spends = w.spends)
    (hnullifiers : w'.pool.nullifiers = w.pool.nullifiers)
    (hcommitments : w'.pool.commitments = w.pool.commitments) (hlogs : w.logs <+: w'.logs) :
    Backed c submitted w' := by
  refine ⟨?_, ?_, fun k hk => ?_⟩
  · rw [hspends, hcommitments]
    exact h.spends
  · rw [hspends, hnullifiers]
    exact h.nullifiers
  · rw [hcommitments] at hk
    rw [hspends]
    exact (h.commitments k hk).imp_left fun ⟨amount, hmem⟩ => ⟨amount, hlogs.subset hmem⟩

theorem backed_deposits {commitment : Bytes32} {encryptedNote : Bytes} (h : Backed c submitted w)
    (hd : Deposits env w msg commitment encryptedNote w') : Backed c submitted w' := by
  obtain ⟨i, events, -, hlogs⟩ := hd.records.record
  refine ⟨fun publicInputs hp => ?_, ?_, fun k hk => ?_⟩
  · rw [hd.spends] at hp
    obtain ⟨hproven, hnamed⟩ := h.spends publicInputs hp
    refine ⟨hproven, ?_⟩
    rw [hd.records.commitments, Function.update_apply, hnamed, ite_self]
  · rw [hd.spends, hd.nullifiers]
    exact h.nullifiers
  · rw [hd.spends, hlogs]
    rw [hd.records.commitments] at hk
    by_cases hnew : k = commitment
    · rw [hnew]
      exact .inl ⟨msg.value, List.mem_append_right _ List.mem_cons_self⟩
    · rw [Function.update_of_ne hnew] at hk
      refine (h.commitments k hk).imp_left fun ⟨amount, hmem⟩ => ⟨amount, ?_⟩
      exact List.mem_append_left _ (List.mem_append_left _ hmem)

/-- A spend brings its proof, its nullifier and its output, if it has one. -/
theorem Backed.spend {nullifier : Bytes32} (h : Backed c submitted w)
    (hproven : SpendProven c submitted publicInputs)
    (hnamed : w.pool.commitments (input publicInputs 8) = true)
    (hnullifier : input publicInputs 1 = nullifier)
    (hspends : w'.spends = w.spends ++ [publicInputs])
    (hnullifiers : w'.pool.nullifiers = Function.update w.pool.nullifiers nullifier true)
    (hcommitments : w'.pool.commitments = w.pool.commitments ∨
      w'.pool.commitments = Function.update w.pool.commitments (input publicInputs 2) true)
    (hlogs : w.logs <+: w'.logs) : Backed c submitted w' := by
  have hnew : publicInputs ∈ w'.spends := by
    rw [hspends]
    exact List.mem_append_right _ (List.mem_singleton_self _)
  have hold : ∀ x ∈ w.spends, x ∈ w'.spends := fun x hx => by
    rw [hspends]
    exact List.mem_append_left _ hx
  have hkept : ∀ k, w.pool.commitments k = true → w'.pool.commitments k = true := by
    intro k hk
    rcases hcommitments with heq | heq
    · rw [heq, hk]
    · rw [heq, Function.update_apply, hk, ite_self]
  have hback : ∀ k, w'.pool.commitments k = true →
      w.pool.commitments k = true ∨ k = input publicInputs 2 := by
    intro k hk
    rcases hcommitments with heq | heq
    · exact .inl (heq ▸ hk)
    · by_cases hrecorded : k = input publicInputs 2
      · exact .inr hrecorded
      · rw [heq, Function.update_of_ne hrecorded] at hk
        exact .inl hk
  refine ⟨fun x hx => ?_, fun ν hν => ?_, fun k hk => ?_⟩
  · rw [hspends] at hx
    rcases List.mem_append.mp hx with hx | hx
    · exact (h.spends x hx).imp_right (hkept _)
    · rw [List.mem_singleton.mp hx]
      exact ⟨hproven, hkept _ hnamed⟩
  · by_cases hmarked : ν = nullifier
    · exact ⟨publicInputs, hnew, hnullifier.trans hmarked.symm⟩
    · rw [hnullifiers, Function.update_of_ne hmarked] at hν
      obtain ⟨x, hx, hinput⟩ := h.nullifiers ν hν
      exact ⟨x, hold x hx, hinput⟩
  · rcases hback k hk with hk | rfl
    · rcases h.commitments k hk with ⟨amount, hmem⟩ | ⟨x, hx, hinput⟩
      · exact .inl ⟨amount, hlogs.subset hmem⟩
      · exact .inr ⟨x, hold x hx, hinput⟩
    · exact .inr ⟨publicInputs, hnew, rfl⟩

/-- **One call keeps it**, up to the moment its destination is called. -/
theorem backed_exec {call : Call} {p : Option Pending} (h : Backed c submitted w)
    (ha : answering c submitted verify) (hexec : exec env verify w msg call = .ok (w', p)) :
    Backed c submitted w' := by
  obtain ⟨-, heffect⟩ := exec_ok hexec
  have hpaid : Backed c submitted (paidIn env w msg) := h.congr rfl rfl rfl (List.prefix_refl _)
  generalize call.action = action at heffect
  cases heffect with
  | deposit hd => exact backed_deposits hpaid hd
  | privateTransfer ht =>
    obtain ⟨hs, hdeployed⟩ := ha _ _ ht.checked.verified
    obtain ⟨i, events, -, hlogs⟩ := ht.records.record
    refine hpaid.spend (proven_of_accepted hs hdeployed) ht.checked.spend.spent_known
      ht.checked.spend.nullifier ht.spends ht.nullifiers (.inr ?_) ?_
    · rw [ht.checked.commitment]
      exact ht.records.commitments
    · rw [hlogs, List.append_assoc]
      exact List.prefix_append _ _
  | @withdraw a _ _ hw =>
    obtain ⟨hs, hdeployed⟩ := ha _ _ hw.checked.verified
    have hproven := proven_of_accepted hs hdeployed
    -- a withdrawal of the whole note records nothing
    by_cases hzero : input a.publicInputs 2 = 0
    · obtain ⟨-, hlogs, hcommitments, -⟩ := hw.whole hzero
      refine hpaid.spend hproven hw.checked.spend.spent_known hw.checked.spend.nullifier hw.spends
        hw.nullifiers (.inl hcommitments) ?_
      rw [hlogs]
    · obtain ⟨⟨i, events, -, hlogs⟩, hcommitments, -⟩ := hw.change hzero
      refine hpaid.spend hproven hw.checked.spend.spent_known hw.checked.spend.nullifier hw.spends
        hw.nullifiers (.inr hcommitments) ?_
      rw [hlogs, List.append_assoc]
      exact List.prefix_append _ _
  | sweepFees hs =>
    exact hpaid.congr hs.spends (by rw [hs.pool]) (by rw [hs.pool]) (by rw [hs.logs])
  | recoverExcessBalance hr =>
    exact hpaid.congr hr.spends (by rw [hr.pool]) (by rw [hr.pool]) (by rw [hr.logs])
  | pause hp =>
    obtain ⟨_, _, _, hpool⟩ := hp.pool
    obtain ⟨e, hlogs, -⟩ := hp.logs
    exact hpaid.congr hp.spends (by rw [hpool]) (by rw [hpool]) (hlogs ▸ List.prefix_append _ _)

theorem backed_deployed (h : Deployed env w) : Backed c submitted w := by
  obtain ⟨verifier, poseidon2Address, balances, h⟩ := h
  simp only [construct, bind_eq_ok, require_eq_ok, exists_const, pure_eq_ok] at h
  obtain ⟨-, -, -, rfl⟩ := h
  exact ⟨fun _ hx => absurd hx List.not_mem_nil, fun _ h => absurd h Bool.false_ne_true,
    fun _ h => absurd h Bool.false_ne_true⟩

theorem backed_all {config : Config World (Option Pending)}
    (h : Reachable env (answering c submitted) config) : config.All (Backed c submitted) := by
  obtain ⟨w, hdeployed, hrun⟩ := h
  refine Run.invariant (S := pool env (answering c submitted)) (I := Backed c submitted) ?_ ?_ ?_
    ⟨backed_deployed hdeployed, fun _ hf => absurd hf List.not_mem_nil⟩ hrun
  · intro w w' h hs
    cases hs with
    | call hv _ hexec => exact backed_exec h hv hexec
    | reverted => exact h
    | others => exact h.congr rfl rfl rfl (List.prefix_refl _)
  · intro w p w' h ho
    cases ho with
    | call hv _ hexec => exact backed_exec h hv hexec
    | others => exact h
  · intro w p w' h hc
    cases hc with
    | call => exact h.congr rfl rfl rfl (List.prefix_append _ _)
    | others => exact h

/-- **Nothing is spent in v1.1 without a proof.** Behind the generated verifiers, in every reachable
configuration and in every world a failing call would restore: the signals of each spend have a
submitted proof that satisfies the equation of its circuit, and name a commitment of the pool; each
marked nullifier is reduced and that of a spend; each commitment was deposited or is the output of a
spend. -/
theorem spends_proven {config : Config World (Option Pending)}
    (h : Reachable env (answering c submitted) config) : config.All fun w =>
      (∀ publicInputs ∈ w.spends, SpendProven c submitted publicInputs ∧
        w.pool.commitments (input publicInputs 8) = true) ∧
      (∀ ν, w.pool.nullifiers ν = true → isFieldElement ν ∧
        ∃ publicInputs ∈ w.spends, input publicInputs 1 = ν) ∧
      ∀ k, w.pool.commitments k = true →
        (∃ amount, Event.shared (.depositCommitmentInserted k amount) ∈ w.logs) ∨
          ∃ publicInputs ∈ w.spends, input publicInputs 2 = k := by
  have hread : ∀ {w : World}, Backed c submitted w → _ := fun hbacked =>
    And.intro hbacked.spends (And.intro
      (fun ν hν => And.intro (hbacked.reduced hν) (hbacked.nullifiers ν hν))
      hbacked.commitments)
  have hall := backed_all h
  exact ⟨hread hall.1, fun f hf => hread (hall.2 f hf)⟩

end Verifiers

/-! ### A run -/

/-- What is submitted below: the withdrawal of the run, with three points at infinity. -/
def sampleSubmitted (proof : Bytes) (publicInputs : List Bytes32) : Prop :=
  proof = List.replicate 256 0 ∧ publicInputs = runSpend

instance (proof : Bytes) (publicInputs : List Bytes32) :
    Decidable (sampleSubmitted proof publicInputs) :=
  inferInstanceAs (Decidable (_ ∧ _))

def sampleVerify : Verify := fun proof publicInputs => decide (sampleSubmitted proof publicInputs)

theorem answering_sampleVerify : answering trivialPairing sampleSubmitted sampleVerify := by
  intro proof publicInputs h
  have hsubmitted := of_decide_eq_true h
  refine ⟨hsubmitted, ?_⟩
  obtain ⟨rfl, rfl⟩ := hsubmitted
  have hfield : runSpend.all fun x => decide (isFieldElement x) := by decide
  have hsignals : Signals runSpend :=
    ⟨rfl, fun x hx => of_decide_eq_true (List.all_eq_true.mp hfield x hx), by decide, by decide,
      by decide⟩
  exact accepted_iff.mpr ⟨List.length_replicate, hsignals,
    .inr ⟨by decide, by decide, satisfies_trivial withdrawKeyV11_mem _⟩⟩

/-- After the deposit and the withdrawal, the nullifier that is marked is that of a proven
withdrawal, and the second commitment its change. -/
theorem spends_proven_withdrawal : ∃ w,
    Reachable sampleEnv (answering trivialPairing sampleSubmitted) ⟨w, []⟩ ∧
      w.spends = [runSpend] ∧ w.pool.nullifiers 400000000 = true ∧
      Proven trivialPairing sampleSubmitted withdrawKeyV11 runSpend ∧
      w.pool.commitments (input runSpend 8) = true := by
  have hdeployed : PoolV11.Calls.Deployed sampleEnv (freshWorld sampleEnv 10000000000000000) :=
    freshWorld_deployed (by decide) _
  obtain ⟨⟨w, frames⟩, hc, hfacts⟩ := Option.map_eq_some_iff.mp (by decide +kernel :
    (play (playMove sampleEnv sampleVerify) (fun _ => true)
      ⟨freshWorld sampleEnv 10000000000000000, []⟩ runMoves).map
        (fun c => (c.frames.length, c.world.spends, c.world.pool.nullifiers 400000000)) =
      some (0, [runSpend], true))
  obtain ⟨hframes, hrest⟩ := Prod.mk.inj hfacts
  obtain ⟨hspends, hmarked⟩ := Prod.mk.inj hrest
  obtain rfl := List.eq_nil_of_length_eq_zero hframes
  have hreach : Reachable sampleEnv (answering trivialPairing sampleSubmitted) ⟨w, []⟩ :=
    ⟨_, hdeployed, .of_within (.of_play (G := fun _ => True)
      (step_of_playMove answering_sampleVerify) (fun _ _ => trivial) hc)⟩
  obtain ⟨hproven, hnamed⟩ := (spends_proven hreach).1.1 runSpend
    (hspends ▸ List.mem_singleton_self _)
  refine ⟨w, hreach, hspends, hmarked, ?_, hnamed⟩
  rcases hproven with ⟨htransfer, -⟩ | ⟨-, -, hwithdrawal⟩
  · exact absurd htransfer (by decide)
  · exact hwithdrawal

end Nullark.Verifier.V11
