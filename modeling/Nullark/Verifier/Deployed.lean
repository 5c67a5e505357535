import Nullark.Pool.Conservation
import Nullark.Verifier.Groth16

/-! # The pool behind the generated verifiers

The verifier that routes by action, over the generated Groth16 verifiers and the precompiled
contracts: what the pool records has been proven.

* `deployedVerify_iff`: what the verifiers accept together.
* `Backed`: the invariant of the pool behind them.
* `proven_reachable`: along its runs. -/

namespace Nullark.Verifier.Deployed

open Nullark.Lib.Outcome Nullark.Lib.Groth16 Nullark.Lib.Rollback
open Nullark.Evm.Basic Nullark.Evm.Bn254
open Nullark.Pool.Interface Nullark.Pool.Context Nullark.Pool.Tree Nullark.Pool.Roots
open Nullark.Pool.Actions Nullark.Pool.Calls Nullark.Pool.Checks Nullark.Pool.Effects
open Nullark.Pool.History Nullark.Pool.Conservation
open Nullark.Verifier.ActionRouting Nullark.Verifier.Groth16

/-- The verifiers of the circuits of v1.2. -/
def deployed (pre : Precompiles) : Verifiers where
  depositVerifier := verifyProof pre depositKey
  privateTransferVerifier := verifyProof pre privateTransferKey
  withdrawVerifier := verifyProof pre withdrawKey

section Verifiers
variable {G₂ T : Type} [AddCommGroup G₂] [AddCommGroup T] (c : Pairing G₂ T)
variable (submitted : Bytes → List Bytes32 → Prop)

/-- **Signals with a proof**: they are reduced, and the points of a proof that was submitted with
them satisfy the equation of the key. -/
def Proven (vk : VerifyingKeyWords) (signals : List Bytes32) : Prop :=
  (∀ s ∈ signals, isFieldElement s) ∧
    ∃ proof, submitted proof signals ∧ Satisfies c vk (decodeProof proof) signals

/-- A spend is proven as the transfer or the withdrawal that it is. -/
def SpendProven (publicInputs : List Bytes32) : Prop :=
  isPrivateTransfer publicInputs ∧ Proven c submitted privateTransferKey publicInputs ∨
    ¬isPrivateTransfer publicInputs ∧ isWithdrawal publicInputs ∧
      Proven c submitted withdrawKey publicInputs

/-- What the pool asks. -/
noncomputable def deployedVerify : Verify := verify (deployed (precompiles c))

/-- The verifiers are asked about the submitted proofs. -/
def answering : Answers := fun verify => ∀ proof publicInputs, verify proof publicInputs = true →
  submitted proof publicInputs ∧ deployedVerify c proof publicInputs = true

variable {c} {submitted} {proof : Bytes} {publicInputs : List Bytes32}

/-- The checks of the signals of a deposit. -/
structure DepositSignals (publicInputs : List Bytes32) : Prop where
  length : publicInputs.length = depositPublicInputsLength
  amount : input publicInputs 1 ≠ 0
  chainId : isSupportedMegaEthChain (input publicInputs 2)
  verifyingContract : (input publicInputs 3).toNat < firstNonAddressValue
  hashes : input publicInputs 4 ≠ 0 ∧ input publicInputs 5 ≠ 0

/-- The checks of the signals of a spend. -/
structure SpendSignals (publicInputs : List Bytes32) : Prop where
  length : publicInputs.length = publicInputsLength
  chainId : isSupportedMegaEthChain (input publicInputs 6)
  verifyingContract : (input publicInputs 7).toNat < firstNonAddressValue
  hashes : input publicInputs 8 ≠ 0 ∧ input publicInputs 9 ≠ 0

theorem deployed_deposit_iff (hlen : publicInputs.length = depositPublicInputsLength)
    (points : ProofPoints) :
    (deployed (precompiles c)).depositVerifier points publicInputs = true ↔
      (∀ s ∈ publicInputs, isFieldElement s) ∧ Satisfies c depositKey points publicInputs :=
  verifyProof_eq_true depositKey_mem (hlen.trans length_depositKey.symm)

theorem deployed_privateTransfer_iff (hlen : publicInputs.length = publicInputsLength)
    (points : ProofPoints) :
    (deployed (precompiles c)).privateTransferVerifier points publicInputs = true ↔
      (∀ s ∈ publicInputs, isFieldElement s) ∧
        Satisfies c privateTransferKey points publicInputs :=
  verifyProof_eq_true privateTransferKey_mem (hlen.trans length_privateTransferKey.symm)

theorem deployed_withdraw_iff (hlen : publicInputs.length = publicInputsLength)
    (points : ProofPoints) :
    (deployed (precompiles c)).withdrawVerifier points publicInputs = true ↔
      (∀ s ∈ publicInputs, isFieldElement s) ∧ Satisfies c withdrawKey points publicInputs :=
  verifyProof_eq_true withdrawKey_mem (hlen.trans length_withdrawKey.symm)

theorem proven_deposit (hlen : publicInputs.length = depositPublicInputsLength)
    (hs : submitted proof publicInputs) (h : deployedVerify c proof publicInputs = true) :
    Proven c submitted depositKey publicInputs := by
  obtain ⟨-, -, -, -, -, -, hverify⟩ := (verify_deposit_iff hlen).mp h
  obtain ⟨hfield, hsatisfies⟩ := (deployed_deposit_iff hlen _).mp hverify
  exact ⟨hfield, _, hs, hsatisfies⟩

theorem proven_spend (hlen : publicInputs.length = publicInputsLength)
    (hs : submitted proof publicInputs) (h : deployedVerify c proof publicInputs = true) :
    SpendProven c submitted publicInputs := by
  obtain ⟨-, hfield, -, -, -, hroute⟩ := (verify_spend_iff hlen).mp h
  rcases hroute with ⟨htransfer, hverify⟩ | ⟨htransfer, hwithdraw, hverify⟩
  · have hsatisfies := ((deployed_privateTransfer_iff hlen _).mp hverify).2
    exact .inl ⟨htransfer, hfield, _, hs, hsatisfies⟩
  · have hsatisfies := ((deployed_withdraw_iff hlen _).mp hverify).2
    exact .inr ⟨htransfer, hwithdraw, hfield, _, hs, hsatisfies⟩

/-- **What the verifiers accept together.** A proof of 256 bytes over reduced signals, of a deposit
or of a spend, whose points satisfy the equation of the circuit that the signals select. -/
theorem deployedVerify_iff : deployedVerify c proof publicInputs = true ↔
    proof.length = proofBytesLength ∧ (∀ x ∈ publicInputs, isFieldElement x) ∧
      (DepositSignals publicInputs ∧ Satisfies c depositKey (decodeProof proof) publicInputs ∨
        SpendSignals publicInputs ∧
          (isPrivateTransfer publicInputs ∧
              Satisfies c privateTransferKey (decodeProof proof) publicInputs ∨
            ¬isPrivateTransfer publicInputs ∧ isWithdrawal publicInputs ∧
              Satisfies c withdrawKey (decodeProof proof) publicInputs)) := by
  by_cases hdeposit : publicInputs.length = depositPublicInputsLength
  · have hspend : ¬SpendSignals publicInputs := fun h => by
      have := h.length
      rw [hdeposit] at this
      exact absurd this (by decide)
    rw [deployedVerify, verify_deposit_iff hdeposit, deployed_deposit_iff hdeposit]
    constructor
    · rintro ⟨h1, h2, h3, h4, h5, h6, -, h7⟩
      exact ⟨h1, h2, .inl ⟨⟨hdeposit, h3, h4, h5, h6⟩, h7⟩⟩
    · rintro ⟨h1, h2, ⟨h, h7⟩ | ⟨h, -⟩⟩
      · exact ⟨h1, h2, h.amount, h.chainId, h.verifyingContract, h.hashes, h2, h7⟩
      · exact absurd h hspend
  by_cases hspend : publicInputs.length = publicInputsLength
  · rw [deployedVerify, verify_spend_iff hspend, deployed_privateTransfer_iff hspend,
      deployed_withdraw_iff hspend]
    constructor
    · rintro ⟨h1, h2, h3, h4, h5, ⟨h6, -, h7⟩ | ⟨h6, h7, -, h8⟩⟩
      · exact ⟨h1, h2, .inr ⟨⟨hspend, h3, h4, h5⟩, .inl ⟨h6, h7⟩⟩⟩
      · exact ⟨h1, h2, .inr ⟨⟨hspend, h3, h4, h5⟩, .inr ⟨h6, h7, h8⟩⟩⟩
    · rintro ⟨h1, h2, ⟨h, -⟩ | ⟨h, ⟨h6, h7⟩ | ⟨h6, h7, h8⟩⟩⟩
      · exact absurd h.length hdeposit
      · exact ⟨h1, h2, h.chainId, h.verifyingContract, h.hashes, .inl ⟨h6, h2, h7⟩⟩
      · exact ⟨h1, h2, h.chainId, h.verifyingContract, h.hashes, .inr ⟨h6, h7, h2, h8⟩⟩
  -- no circuit has as many signals
  have hother : publicInputs.length ≠ spendPublicInputsLength := hspend
  unfold deployedVerify verify
  rw [if_neg hdeposit, if_neg hother]
  constructor
  · intro h
    split_ifs at h
  · rintro ⟨-, -, ⟨h, -⟩ | ⟨h, -⟩⟩
    · exact absurd h.length hdeposit
    · exact absurd h.length hspend

theorem SpendProven.field (h : SpendProven c submitted publicInputs) :
    ∀ x ∈ publicInputs, isFieldElement x := by
  rcases h with ⟨-, h⟩ | ⟨-, -, h⟩
  · exact h.1
  · exact h.1

/-! ### The pool -/

/-- **What the pool records is proven.** -/
structure Backed (c : Pairing G₂ T) (submitted : Bytes → List Bytes32 → Prop) (w : World) :
    Prop where
  spends : ∀ publicInputs ∈ w.spends, SpendProven c submitted publicInputs
  nullifiers : ∀ ν, w.pool.nullifiers ν = true → ∃ publicInputs ∈ w.spends, input publicInputs 1 = ν
  commitments : ∀ k, w.pool.commitments k = true →
    (∃ publicInputs, Proven c submitted depositKey publicInputs ∧ input publicInputs 0 = k) ∨
      ∃ publicInputs ∈ w.spends, input publicInputs 2 = k

variable {env : Env} {verify : Verify} {w w' : World} {msg : Msg}

theorem Backed.congr (h : Backed c submitted w) (hspends : w'.spends = w.spends)
    (hnullifiers : w'.pool.nullifiers = w.pool.nullifiers)
    (hcommitments : w'.pool.commitments = w.pool.commitments) : Backed c submitted w' := by
  refine ⟨?_, ?_, ?_⟩
  · rw [hspends]
    exact h.spends
  · rw [hspends, hnullifiers]
    exact h.nullifiers
  · rw [hspends, hcommitments]
    exact h.commitments

theorem backed_deposits {encryptedNote : Bytes} {selector : Bytes4} (h : Backed c submitted w)
    (ha : answering c submitted verify)
    (hd : Deposits env verify w msg proof publicInputs encryptedNote selector w') :
    Backed c submitted w' := by
  obtain ⟨hs, hdeployed⟩ := ha _ _ hd.checked.verified
  refine ⟨?_, ?_, fun k hk => ?_⟩
  · rw [hd.spends]
    exact h.spends
  · rw [hd.spends, hd.nullifiers]
    exact h.nullifiers
  · rw [hd.spends]
    rw [hd.commitments] at hk
    by_cases hnew : k = input publicInputs 0
    · exact .inl ⟨publicInputs, proven_deposit hd.checked.length hs hdeployed, hnew.symm⟩
    · rw [Function.update_of_ne hnew] at hk
      exact h.commitments k hk

/-- A spend brings its proof, its nullifier and its output. -/
theorem Backed.spend {nullifier : Bytes32} (h : Backed c submitted w)
    (hproven : SpendProven c submitted publicInputs)
    (hnullifier : input publicInputs 1 = nullifier)
    (hspends : w'.spends = w.spends ++ [publicInputs])
    (hnullifiers : w'.pool.nullifiers = Function.update w.pool.nullifiers nullifier true)
    (hcommitments : w'.pool.commitments =
      Function.update w.pool.commitments (input publicInputs 2) true) : Backed c submitted w' := by
  have hnew : publicInputs ∈ w'.spends := by
    rw [hspends]
    exact List.mem_append_right _ (List.mem_singleton_self _)
  have hold : ∀ x ∈ w.spends, x ∈ w'.spends := fun x hx => by
    rw [hspends]
    exact List.mem_append_left _ hx
  refine ⟨fun x hx => ?_, fun ν hν => ?_, fun k hk => ?_⟩
  · rw [hspends] at hx
    rcases List.mem_append.mp hx with hx | hx
    · exact h.spends x hx
    · rw [List.mem_singleton.mp hx]
      exact hproven
  · by_cases hmarked : ν = nullifier
    · exact ⟨publicInputs, hnew, hnullifier.trans hmarked.symm⟩
    · rw [hnullifiers, Function.update_of_ne hmarked] at hν
      obtain ⟨x, hx, hinput⟩ := h.nullifiers ν hν
      exact ⟨x, hold x hx, hinput⟩
  · by_cases hrecorded : k = input publicInputs 2
    · exact .inr ⟨publicInputs, hnew, hrecorded.symm⟩
    · rw [hcommitments, Function.update_of_ne hrecorded] at hk
      rcases h.commitments k hk with hdeposit | ⟨x, hx, hinput⟩
      · exact .inl hdeposit
      · exact .inr ⟨x, hold x hx, hinput⟩

/-- **One call keeps it**, up to the moment its destination is called. -/
theorem backed_exec {call : Call} {p : Option Pending} (h : Backed c submitted w)
    (ha : answering c submitted verify) (hexec : exec env verify w msg call = .ok (w', p)) :
    Backed c submitted w' := by
  obtain ⟨-, -, heffect⟩ := exec_ok hexec
  have hpaid : Backed c submitted (paidIn env w msg) := h.congr rfl rfl rfl
  generalize call.action = action at heffect
  cases heffect with
  | deposit hd => exact backed_deposits hpaid ha hd
  | privateTransfer ht =>
    obtain ⟨hs, hdeployed⟩ := ha _ _ ht.checked.verified
    refine hpaid.spend (proven_spend ht.checked.common.length hs hdeployed)
      ht.checked.common.nullifier ht.spends ht.nullifiers ?_
    rw [ht.checked.commitment]
    exact ht.commitments
  | withdraw hw =>
    obtain ⟨hs, hdeployed⟩ := ha _ _ hw.checked.verified
    exact hpaid.spend (proven_spend hw.checked.common.length hs hdeployed)
      hw.checked.common.nullifier hw.spends hw.nullifiers hw.commitments
  | fee hf => exact hpaid.congr hf.spends (by rw [hf.pool]) (by rw [hf.pool])
  | sweepFees hs => exact hpaid.congr hs.spends (by rw [hs.pool]) (by rw [hs.pool])

theorem backed_deployed (h : Deployed env w) : Backed c submitted w := by
  obtain ⟨verifier, poseidon2Address, balances, h⟩ := h
  simp only [construct, bind_eq_ok, require_eq_ok, exists_const, pure_eq_ok] at h
  obtain ⟨-, -, -, rfl⟩ := h
  exact ⟨fun _ hx => absurd hx List.not_mem_nil, fun _ h => absurd h Bool.false_ne_true,
    fun _ h => absurd h Bool.false_ne_true⟩

theorem backed_all {config : Config World (Option Pending)}
    (h : Reachable env (answering c submitted) config) : config.All (Backed c submitted) := by
  obtain ⟨w, hdeployed, hrun⟩ := h
  refine Run.invariant (S := pool env (answering c submitted)) (I := Backed c submitted) ?_ ?_ ?_
    ⟨backed_deployed hdeployed, fun _ hf => absurd hf List.not_mem_nil⟩ hrun
  · intro w w' h hs
    cases hs with
    | call hv _ hexec => exact backed_exec h hv hexec
    | reverted => exact h
    | others => exact h.congr rfl rfl rfl
  · intro w p w' h ho
    cases ho with
    | call hv _ hexec => exact backed_exec h hv hexec
    | others => exact h
  · intro w p w' h hc
    cases hc with
    | call => exact h.congr rfl rfl rfl
    | others => exact h

/-- **Nothing is recorded without a proof.** Behind the generated verifiers, in every reachable
world, each leaf is the first signal of a submitted proof that satisfies the equation of the deposit
circuit, or the output of a spend; each marked nullifier is reduced and that of a spend; and the
signals of each spend have a submitted proof that satisfies the equation of its circuit. -/
theorem proven_reachable {config : Config World (Option Pending)}
    (h : Reachable env (answering c submitted) config) :
    (∀ leaf ∈ leavesOf config.world,
      (∃ publicInputs, Proven c submitted depositKey publicInputs ∧ input publicInputs 0 = leaf) ∨
        ∃ publicInputs ∈ config.world.spends,
          input publicInputs 2 = leaf ∧ SpendProven c submitted publicInputs) ∧
      (∀ ν, config.world.pool.nullifiers ν = true → isFieldElement ν ∧
        ∃ publicInputs ∈ config.world.spends,
          input publicInputs 1 = ν ∧ SpendProven c submitted publicInputs) ∧
      ∀ publicInputs ∈ config.world.spends, SpendProven c submitted publicInputs := by
  have hbacked := (backed_all h).1
  have htracks := (tracks_reachable h).1
  refine ⟨fun leaf hleaf => ?_, fun ν hν => ?_, hbacked.spends⟩
  · rcases hbacked.commitments leaf ((htracks.commitments leaf).mpr hleaf) with hd | ⟨x, hx, hout⟩
    · exact .inl hd
    · exact .inr ⟨x, hx, hout, hbacked.spends x hx⟩
  · obtain ⟨x, hx, rfl⟩ := hbacked.nullifiers ν hν
    exact ⟨isFieldElement_input (hbacked.spends x hx).field 1, x, hx, rfl, hbacked.spends x hx⟩

end Verifiers

/-! ### A run -/

/-- The pairing that is zero. -/
noncomputable def zeroPairing (G₂ T : Type) [AddCommGroup G₂] [AddCommGroup T] : Pairing G₂ T where
  decodeG2 _ _ := some 0
  pairing := 0

/-- The pairing of trivial groups. -/
noncomputable def trivialPairing : Pairing Unit Unit := zeroPairing Unit Unit

theorem wordAt_zeros : ∀ k < 8, wordAt (List.replicate 256 0) k = 0 := by
  decide +kernel

/-- There, three points at infinity are a proof. -/
theorem satisfies_trivial {vk : VerifyingKeyWords} (hvk : vk ∈ generatedKeys)
    (signals : List Bytes32) :
    Satisfies trivialPairing vk (decodeProof (List.replicate 256 0)) signals := by
  obtain ⟨halpha, hrest⟩ := List.forall_mem_cons.mp (onCurve_generatedKeys vk hvk)
  obtain ⟨hic, hics⟩ := List.forall_mem_cons.mp hrest
  obtain ⟨α, hα⟩ := decodeG1_of_onCurve halpha
  obtain ⟨ic, hic⟩ := decodeG1_of_onCurve hic
  obtain ⟨ics, hics⟩ := decodeAll_of_onCurve hics
  have hzero : decodeG1 0 0 = some 0 := if_pos ⟨rfl, rfl⟩
  refine ⟨⟨α, (), (), (), ic, ics⟩, ⟨0, (), 0⟩, ⟨hα, rfl, rfl, rfl, hic, hics⟩, ?_, rfl⟩
  rw [proofDecodes_iff]
  · unfold decodeProof
    dsimp only
    rw [wordAt_zeros 0 (by decide), wordAt_zeros 1 (by decide), wordAt_zeros 6 (by decide),
      wordAt_zeros 7 (by decide)]
    exact ⟨hzero, rfl, hzero⟩
  · unfold decodeProof
    dsimp only
    rw [wordAt_zeros 1 (by decide)]
    decide

/-- What is submitted below: the deposit and the withdrawal of the run, with those points. -/
def sampleSubmitted (proof : Bytes) (publicInputs : List Bytes32) : Prop :=
  proof = List.replicate 256 0 ∧ (publicInputs = sampleInputs 10000000000000000 100 ∨
    publicInputs = sampleSpend 120 100 5000000000000000)

instance (proof : Bytes) (publicInputs : List Bytes32) :
    Decidable (sampleSubmitted proof publicInputs) :=
  inferInstanceAs (Decidable (_ ∧ (_ ∨ _)))

def sampleVerify : Verify := fun proof publicInputs =>
  decide (sampleSubmitted proof publicInputs)

theorem answering_sampleVerify : answering trivialPairing sampleSubmitted sampleVerify := by
  intro proof publicInputs h
  have hsubmitted := of_decide_eq_true h
  refine ⟨hsubmitted, ?_⟩
  obtain ⟨rfl, rfl | rfl⟩ := hsubmitted
  · have hfield : (sampleInputs 10000000000000000 100).all fun x => decide (isFieldElement x) := by
      decide
    have hsignals : DepositSignals (sampleInputs 10000000000000000 100) :=
      ⟨rfl, by decide, by decide, by decide, by decide⟩
    exact deployedVerify_iff.mpr ⟨List.length_replicate,
      fun x hx => of_decide_eq_true (List.all_eq_true.mp hfield x hx),
      .inl ⟨hsignals, satisfies_trivial depositKey_mem _⟩⟩
  · have hfield : (sampleSpend 120 100 5000000000000000).all fun x =>
        decide (isFieldElement x) := by decide
    have hsignals : SpendSignals (sampleSpend 120 100 5000000000000000) :=
      ⟨rfl, by decide, by decide, by decide⟩
    exact deployedVerify_iff.mpr ⟨List.length_replicate,
      fun x hx => of_decide_eq_true (List.all_eq_true.mp hfield x hx),
      .inr ⟨hsignals, .inr ⟨by decide, by decide, satisfies_trivial withdrawKey_mem _⟩⟩⟩

/-- After the deposit and the withdrawal, the first leaf has the proof of a deposit, and the
nullifier that is marked that of a withdrawal. -/
theorem proven_reachable_spent : ∃ w,
    Reachable sampleEnv (answering trivialPairing sampleSubmitted) ⟨w, []⟩ ∧
      (∃ publicInputs, Proven trivialPairing sampleSubmitted depositKey publicInputs ∧
        input publicInputs 0 = 100) ∧
      ∃ publicInputs ∈ w.spends, input publicInputs 1 = 400000000 ∧
        Proven trivialPairing sampleSubmitted withdrawKey publicInputs := by
  have hdeployed : Deployed sampleEnv (freshWorld sampleEnv 10000000000000000) :=
    freshWorld_deployed (by decide) _
  obtain ⟨⟨w, frames⟩, hc, hfacts⟩ := Option.map_eq_some_iff.mp (by decide +kernel :
    (play (playMove sampleEnv sampleVerify) (fun _ => true)
      ⟨freshWorld sampleEnv 10000000000000000, []⟩ runMoves).map
        (fun c => (c.frames.length, leavesOf c.world, c.world.spends,
          c.world.pool.nullifiers 400000000)) =
      some (0, [100, 2000000], [sampleSpend 120 100 5000000000000000], true))
  obtain ⟨hframes, hrest⟩ := Prod.mk.inj hfacts
  obtain ⟨hleaves, hrest⟩ := Prod.mk.inj hrest
  obtain ⟨hspends, hmarked⟩ := Prod.mk.inj hrest
  obtain rfl := List.eq_nil_of_length_eq_zero hframes
  have hreach := reachable_of_play answering_sampleVerify hdeployed hc
  obtain ⟨hproven, hnullifiers, -⟩ := proven_reachable hreach
  have hleaf : (100 : Bytes32) ∈ leavesOf w := by
    rw [hleaves]
    exact List.mem_cons_self
  refine ⟨w, hreach, ?_, ?_⟩
  · rcases hproven 100 hleaf with hdeposit | ⟨x, hx, hout, -⟩
    · exact hdeposit
    · rw [hspends] at hx
      obtain rfl := List.mem_singleton.mp hx
      exact absurd hout (by decide)
  · obtain ⟨-, x, hx, hinput, hspend⟩ := hnullifiers 400000000 hmarked
    have hspent := List.mem_singleton.mp (hspends ▸ hx)
    rcases hspend with ⟨htransfer, -⟩ | ⟨-, -, hwithdrawal⟩
    · rw [hspent] at htransfer
      exact absurd htransfer (by decide)
    · exact ⟨x, hx, hinput, hwithdrawal⟩

end Nullark.Verifier.Deployed
