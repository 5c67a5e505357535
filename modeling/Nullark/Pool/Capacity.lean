import Nullark.Pool.Conservation

/-! # Withdrawals and the capacity of the tree

A v1.2 withdrawal always inserts an output commitment, also when it takes a whole note. So the tree
decides whether a withdrawal that passes its checks goes through.

* `ExitsWhole`, `ExitLiveness`: that no exit of a whole note is ever rejected by the tree.
* `exit_at_capacity`: what happens to a withdrawal that passes its checks.
* `exitLiveness_fails`: a full tree rejects the exit of a whole note. -/

namespace Nullark.Pool.Capacity

open Nullark.Lib.Outcome Nullark.Lib.Rollback Nullark.Lib.Merkle.Tree
open Nullark.Evm.Basic Nullark.Pool.Interface Nullark.Pool.Context Nullark.Pool.Tree
open Nullark.Pool.Fees Nullark.Pool.Roots Nullark.Pool.Actions Nullark.Pool.Calls
open Nullark.Pool.Checks Nullark.Pool.Effects Nullark.Pool.History Nullark.Pool.Conservation
open Nullark.Circuit.Field Nullark.Circuit.Gadgets Nullark.Circuit.V12
open Nullark.Verifier.ActionRouting

/-! ### What is asked for -/

/-- **A whole note leaves**: a witness spends a leaf of the tree and keeps nothing of its amount. -/
def ExitsWhole (t : Templates) (w : World) (a : WithdrawArgs) : Prop :=
  ∃ x c, WithdrawCircuit t merkleTreeDepth (spendPublic a.publicInputs) x ∧ x.outputAmount = 0 ∧
    (leavesOf w)[x.leafIndex.val]? = some c ∧ toField c = poseidonNoteCommitment t x.note

/-- The withdrawal passes every check before the insertion. -/
structure Passes (env : Env) (verify : Verify) (w : World) (msg : Msg) (a : WithdrawArgs) : Prop where
  value : msg.value = 0
  guard : ¬w.pool.entered
  checked : WithdrawChecked env verify w.pool msg a
  liquid : LiquidityChecked w.pool (w.balances env.this) a (feeOf w.pool a.grossAmount)

/-- **Exits are live**: in no reachable state does the tree reject the exit of a whole note. -/
def ExitLiveness (env : Env) (t : Templates) (verify : Verify) : Prop :=
  ∀ c, Reachable env (· = verify) c → ∀ msg call a, call.action = .withdraw a →
    Passes env verify c.world msg a → ExitsWhole t c.world a →
      exec env verify c.world msg call ≠ .error (.reason "merkle tree full")

/-! ### What the pool does -/

section
variable {env : Env} {answers : Answers} {w w' : World} {msg : Msg}

theorem bounded_exec {verify : Verify} {call : Call} {p : Option Pending}
    (h : w.pool.accounting.totalDepositedAccounting < wordSize)
    (hexec : exec env verify w msg call = .ok (w', p)) :
    w'.pool.accounting.totalDepositedAccounting < wordSize := by
  obtain ⟨-, -, heffect⟩ := exec_ok hexec
  generalize call.action = action at heffect
  cases heffect with
  | deposit hd => rw [hd.accounting]; exact hd.total_lt
  | privateTransfer ht => rw [ht.accounting]; exact h
  | withdraw hw => rw [hw.accounting]; exact h
  | fee hf => rw [hf.pool]; exact h
  | sweepFees hs => rw [hs.pool]; exact h

/-- The deposits add up to a word. -/
theorem bounded_reachable {c : Config World (Option Pending)} (h : Reachable env answers c) :
    c.All fun w => w.pool.accounting.totalDepositedAccounting < wordSize := by
  obtain ⟨w, hdeployed, hrun⟩ := h
  refine Run.invariant (S := pool env answers)
    (I := fun w => w.pool.accounting.totalDepositedAccounting < wordSize) ?_ ?_ ?_
    ⟨?_, fun _ hf => absurd hf List.not_mem_nil⟩ hrun
  · intro w w' h hs
    cases hs with
    | call _ _ hexec => exact bounded_exec h hexec
    | reverted => exact h
    | others => exact h
  · intro w p w' h ho
    cases ho with
    | call _ _ hexec => exact bounded_exec h hexec
    | others => exact h
  · intro w p w' h hc
    cases hc with
    | call => exact h
    | others => exact h
  · obtain ⟨verifier, poseidon2Address, balances, h⟩ := hdeployed
    simp only [construct, bind_eq_ok, require_eq_ok, exists_const, pure_eq_ok] at h
    obtain ⟨-, -, -, rfl⟩ := h
    exact (by decide : 0 < wordSize)

/-- **The tree decides.** In every reachable state the tree has at most its capacity of leaves. A
withdrawal that passes the checks before the insertion, of a whole note or not, reaches its external
call exactly while a leaf is free; when none is, it reverts and the state stays as it was. -/
theorem exit_at_capacity {c : Config World (Option Pending)} (h : Reachable env answers c) :
    c.world.pool.roots.tree.nextLeafIndex ≤ merkleTreeCapacity ∧
    ∀ verify msg call a, call.action = .withdraw a → Passes env verify c.world msg a →
      (c.world.pool.roots.tree.nextLeafIndex < merkleTreeCapacity ↔
        ∃ w' p, exec env verify c.world msg call = .ok (w', some p)) ∧
      (c.world.pool.roots.tree.nextLeafIndex = merkleTreeCapacity ↔
        exec env verify c.world msg call = .error (.reason "merkle tree full")) ∧
      (c.world.pool.roots.tree.nextLeafIndex = merkleTreeCapacity →
        settle c.world (exec env verify c.world msg call) = c.world) := by
  have hrecorded := (tracks_reachable h).1.recorded
  have hindex := hrecorded.grown.nextLeafIndex
  have hfits := hrecorded.grown.fits
  refine ⟨hindex ▸ hfits, fun verify msg call a hcall hpass => ?_⟩
  obtain ⟨hreaches, hfails⟩ := exec_withdraw hcall hpass.value hpass.guard hpass.checked
    hpass.liquid (bounded_reachable h).1
  rcases Nat.lt_or_ge (leavesOf c.world).length merkleTreeCapacity with hlt | hge
  · obtain ⟨s', i, events, hr⟩ :=
      recordCommitmentRoot_of_lt hrecorded hlt (input a.publicInputs 2)
    obtain ⟨w', p, hexec⟩ := hreaches _ hr
    refine ⟨⟨fun _ => ⟨w', p, hexec⟩, fun _ => hindex ▸ hlt⟩, ⟨fun heq => ?_, fun herr => ?_⟩,
      fun heq => ?_⟩
    · omega
    · rw [hexec] at herr
      cases herr
    · omega
  · have herr := hfails _ (recordCommitmentRoot_full hrecorded hge (input a.publicInputs 2))
    refine ⟨⟨fun hlt => ?_, fun ⟨w', p, hexec⟩ => ?_⟩, ⟨fun _ => herr, fun _ => ?_⟩, fun _ => ?_⟩
    · omega
    · rw [herr] at hexec
      cases hexec
    · omega
    · rw [herr, settle_error]

end

/-! ### A tree that fills up -/

theorem mem_sampleLeaves {n secret : ℕ} (hn : n ≤ merkleTreeCapacity) (hlt : secret < 2 ^ 256)
    (h : BitVec.ofNat 256 secret ∈ sampleLeaves n) : secret ≤ n := by
  obtain ⟨i, hi, heq⟩ := List.mem_map.mp h
  rw [List.mem_range] at hi
  have hcapacity : merkleTreeCapacity < 2 ^ 256 := by
    norm_num [merkleTreeCapacity, merkleTreeDepth]
  have hnat := congrArg BitVec.toNat heq
  rw [BitVec.toNat_ofNat, BitVec.toNat_ofNat, Nat.mod_eq_of_lt hlt,
    Nat.mod_eq_of_lt (by omega)] at hnat
  omega

/-- Verifiers that accept whatever has a witness. -/
noncomputable def openVerify : Verify := verify (sampleVerifiers fun _ => True)

/-- A world after `n` deposits of sample notes. -/
structure Filled (n : ℕ) (w : World) : Prop where
  leaves : leavesOf w = sampleLeaves n
  accounting : w.pool.accounting = ⟨0, 0, n * 5000000000000000, 0⟩
  fees : w.pool.fees = initialFees
  nullifiers : ∀ ν, w.pool.nullifiers ν = false
  guard : ¬w.pool.entered
  funds : (merkleTreeCapacity - n) * 5000000000000000 ≤ w.balances 1
  balance : n * 5000000000000000 ≤ w.balances 7

theorem filled_fresh :
    Filled 0 (freshWorld sampleEnv (merkleTreeCapacity * 5000000000000000)) := by
  have hdeployed : Deployed sampleEnv (freshWorld sampleEnv (merkleTreeCapacity * 5000000000000000)) :=
    freshWorld_deployed (by decide) _
  exact ⟨(tracks_deployed hdeployed).leavesOf_eq, rfl, rfl, fun _ => rfl, Bool.false_ne_true,
    le_rfl, by rw [Nat.zero_mul]; exact Nat.zero_le _⟩

/-- One more deposit. -/
theorem Filled.deposit {n : ℕ} {w : World} (h : Filled n w) (htracks : Tracks sampleEnv w (leavesOf w))
    (hlt : n < merkleTreeCapacity) :
    ∃ w', exec sampleEnv openVerify w plainMsg (sampleDeposit 5000000000000000 (n + 1)) =
        .ok (w', none) ∧
      Filled (n + 1) w' := by
  have hcapacity : merkleTreeCapacity = 1048576 := by
    norm_num [merkleTreeCapacity, merkleTreeDepth]
  have hfield : n + 1 < bn254ScalarField := by
    have hlarge : 1048576 < bn254ScalarField := by decide
    omega
  have hfresh : ¬w.pool.commitments (BitVec.ofNat 256 (n + 1)) := by
    rw [htracks.commitments, h.leaves]
    intro hmem
    have hword : n + 1 < 2 ^ 256 := hfield.trans (by decide)
    have := mem_sampleLeaves hlt.le hword hmem
    omega
  have hchecked := sampleDeposit_checked (K := fun _ => True) (Nat.succ_pos n) hfield trivial hfresh
  have hpaid : plainMsg.value ≤ w.balances plainMsg.sender := by
    have hfunds := h.funds
    change 5000000000000000 ≤ w.balances 1
    omega
  have hroom : (leavesOf w).length < merkleTreeCapacity := by
    rw [h.leaves, length_sampleLeaves]
    exact hlt
  have htotal : w.pool.accounting.totalDepositedAccounting + plainMsg.value < wordSize := by
    have hlarge : 1048577 * 5000000000000000 < wordSize := by decide
    rw [h.accounting]
    change n * 5000000000000000 + 5000000000000000 < wordSize
    omega
  obtain ⟨w', hexec⟩ := exec_deposit hpaid h.guard hchecked htotal htracks.recorded hroom
  refine ⟨w', hexec, ?_⟩
  have hleaves := (tracks_exec htracks hexec).leavesOf_eq
  obtain ⟨-, -, heffect⟩ := exec_ok hexec
  cases heffect with
  | deposit hd =>
    have hbalances : w'.balances = transfer w.balances 1 7 5000000000000000 := hd.balances
    refine ⟨?_, ?_, by rw [hd.fees]; exact h.fees, fun ν => by rw [hd.nullifiers]; exact h.nullifiers ν,
      hd.entered, ?_, ?_⟩
    · rw [hleaves, h.leaves, sampleLeaves_succ]
      rfl
    · rw [hd.accounting]
      change { w.pool.accounting with totalDepositedAccounting :=
        w.pool.accounting.totalDepositedAccounting + 5000000000000000 } = _
      rw [h.accounting, Nat.succ_mul]
    · have hfunds := h.funds
      have hother : transfer w.balances 1 7 5000000000000000 1 = w.balances 1 - 5000000000000000 := by
        simp [transfer]
      have hstep : merkleTreeCapacity - n = merkleTreeCapacity - (n + 1) + 1 := by omega
      rw [hstep, Nat.succ_mul] at hfunds
      rw [hbalances, hother]
      exact Nat.le_sub_of_add_le hfunds
    · have hbalance := h.balance
      have hown : transfer w.balances 1 7 5000000000000000 7 = w.balances 7 + 5000000000000000 :=
        Solvency.transfer_target (by decide)
      rw [hbalances, hown, Nat.succ_mul]
      exact Nat.add_le_add_right hbalance _

/-- **The tree fills up**: any number of deposits up to the capacity is reached. -/
theorem filled_reachable (n : ℕ) (hn : n ≤ merkleTreeCapacity) :
    ∃ w, Reachable sampleEnv (· = openVerify) ⟨w, []⟩ ∧ Filled n w := by
  induction n with
  | zero =>
    exact ⟨_, ⟨_, freshWorld_deployed (by decide) _, .refl⟩, filled_fresh⟩
  | succ n ih =>
    obtain ⟨w, hreach, hfilled⟩ := ih (by omega)
    obtain ⟨w', hexec, hfilled'⟩ := hfilled.deposit (tracks_reachable hreach).1 (by omega)
    obtain ⟨w₀, hdeployed, hrun⟩ := hreach
    exact ⟨w', ⟨w₀, hdeployed, hrun.tail (.step (.call rfl (by decide) hexec))⟩, hfilled'⟩

/-! ### The exit of the first note -/

/-- The nullifier of the first note. -/
def exitNullifier : Bytes32 := 4000000

theorem nullifierOf_first : nullifierOf sampleEnv sampleTemplates
    (sampleNote 5000000000000000 1) 0 = exitNullifier := by
  have hhash := sampleHash_nullifier (sampleNote 5000000000000000 1).noteSecret ((0 : ℕ) : F)
    (toField sampleEnv.chainId) (toField (addressToBytes32 sampleEnv.this))
  have hsecret : (sampleNote 5000000000000000 1).noteSecret = ((1 : ℕ) : F) := rfl
  have hword : toField exitNullifier = ((4000000 : ℕ) : F) :=
    toField_ofNat (n := 4000000) (by decide)
  have hfield : isFieldElement exitNullifier := by decide
  rw [nullifierOf]
  refine (congrArg toWord (hhash.trans ?_)).trans (toWord_toField hfield)
  rw [hsecret, hword, Nat.cast_zero, Nat.cast_one, zero_add, mul_one]

/-- The public inputs of its exit, whose change is a note of amount zero. -/
def exitInputs (w : World) : List Bytes32 :=
  sampleSpend w.pool.roots.currentRoot 1 5000000000000000

def exitCall (w : World) : Call :=
  .withdrawNoteBounded (List.replicate 256 0) (exitInputs w) exitNullifier 11 5000000000000000 [1] 0
    16500000000000

def exitArgs (w : World) : WithdrawArgs :=
  { proof := List.replicate 256 0, publicInputs := exitInputs w, nullifier := exitNullifier
    destination := 11, grossAmount := 5000000000000000, encryptedOutputNote := [1]
    relayerPolicy := boundsPolicy 0 16500000000000, selector := 0x678d8506 }

def exitWitness (w : World) : WithdrawWitness := sampleWitness (leavesOf w) 1 5000000000000000 0

section Exit
variable {n : ℕ} {w : World} (h : Filled n w) (htracks : Tracks sampleEnv w (leavesOf w))
  (hn : 0 < n)

include htracks in
/-- The current root is the root over the leaves, as a field element. -/
theorem toField_currentRoot : toField w.pool.roots.currentRoot =
    node (hashPair sampleTemplates) (fun i => toField (padded 0 (leavesOf w) i))
      merkleTreeDepth 0 := by
  rw [htracks.recorded.currentRoot]
  exact toField_treeRoot samePoseidon_sample fun c hc => (htracks.field c hc).2

include h hn

theorem first_leaf : (leavesOf w)[0]? = some 1 := by
  rw [h.leaves, sampleLeaves, List.getElem?_map, List.getElem?_range hn]
  rfl

theorem toField_first_leaf : toField (padded 0 (leavesOf w) 0) = ((1 : ℕ) : F) := by
  rw [padded, List.getD_eq_getElem?_getD, first_leaf h hn]
  exact toField_ofNat (n := 1) (by decide)

include htracks

/-- Each level adds one to the node over the first leaf. -/
theorem node_first : node (hashPair sampleTemplates)
    (fun i => toField (padded 0 (leavesOf w) i)) merkleTreeDepth 0 = ((21 : ℕ) : F) := by
  have hfits : n ≤ 1048576 := by
    have hfits := htracks.recorded.grown.fits
    rw [h.leaves, length_sampleLeaves] at hfits
    exact hfits.trans (by decide)
  have hfield : 1048576 < bn254ScalarField := by decide
  have hleaves : ∀ i, toField (padded 0 (leavesOf w) i) = ((if i < n then i + 1 else 0 : ℕ) : F) := by
    intro i
    rw [h.leaves, padded, List.getD_eq_getElem?_getD, sampleLeaves, List.getElem?_map]
    split_ifs with hi
    · rw [List.getElem?_range hi]
      exact toField_ofNat (by omega)
    · rw [List.getElem?_eq_none (by rw [List.length_range]; omega), Nat.cast_zero]
      exact toField_zero
  rw [node_of_succ (fun x _ hy => hashPair_sample x hy) hleaves (n := merkleTreeDepth)
    (fun i _ => ?_) merkleTreeDepth le_rfl, Nat.mul_zero, if_pos hn]
  · rfl
  · have hdepth : merkleTreeDepth = 20 := rfl
    split_ifs <;> omega

theorem currentRoot_ne : w.pool.roots.currentRoot ≠ 0 := by
  intro hzero
  have hroot := toField_currentRoot htracks
  rw [node_first h htracks hn, hzero, toField_zero, ← Nat.cast_zero] at hroot
  have := natCast_inj_of_lt (by decide) (by decide) hroot
  omega

/-- **The witness of the exit** satisfies the circuit. -/
theorem exit_circuit : WithdrawCircuit sampleTemplates merkleTreeDepth
    (spendPublic (exitInputs w)) (exitWitness w) :=
  withdraw_circuit (toField_first_leaf h hn) (toField_currentRoot htracks) (by decide) (by decide)
    (.inl rfl) (by decide)

/-- The exit takes the whole note. -/
theorem exit_whole : ExitsWhole sampleTemplates w (exitArgs w) := by
  have hindex : (exitWitness w).leafIndex.val = 0 := ZMod.val_zero
  refine ⟨exitWitness w, 1, exit_circuit h htracks hn, rfl, ?_, ?_⟩
  · rw [hindex]
    exact first_leaf h hn
  · exact (toField_ofNat (n := 1) (by decide)).trans (sampleHash_note (exitWitness w).note).symm

/-- **The exit passes every check** before the insertion. -/
theorem exit_passes (hcapacity : n ≤ merkleTreeCapacity) :
    Passes sampleEnv openVerify w exitMsg (exitArgs w) := by
  have hfee : feeOf w.pool 5000000000000000 = 16500000000000 := by
    unfold feeOf
    rw [h.fees]
    decide
  have hnullifier : exitNullifier ≠ 0 := by decide
  have hroot : isFieldElement w.pool.roots.currentRoot := by
    rw [htracks.recorded.currentRoot]
    exact isFieldElement_treeRoot samePoseidon_sample fun c hc => (htracks.field c hc).2
  have hfresh : ¬w.pool.commitments 2000000 := by
    rw [htracks.commitments, h.leaves]
    intro hmem
    have hle := @mem_sampleLeaves _ 2000000 hcapacity (by decide) hmem
    have hsize : merkleTreeCapacity = 1048576 := by
      norm_num [merkleTreeCapacity, merkleTreeDepth]
    omega
  have hhash : ∀ encoded, (1 : Bytes32) = hashToField sampleEnv encoded :=
    fun encoded => (hashToField_sample encoded).symm
  have hbalance := h.balance
  have hamount : (5000000000000000 : UInt256).toNat = 5000000000000000 := by decide
  have hmaxfee : (16500000000000 : UInt256).toNat = 16500000000000 := by decide
  have hlarge : 5000000000000000 ≤ n * 5000000000000000 := Nat.le_mul_of_pos_left _ hn
  have hsupported : isSupportedDenomination (5000000000000000 : UInt256).toNat := by decide
  have hproduct : (5000000000000000 : UInt256).toNat * initialFees.feeBps < wordSize := by decide
  have hdestination : (11 : Bytes32) = addressToBytes32 11 := by decide
  have houtput : (2000000 : Bytes32) ≠ 0 ∧ isFieldElement 2000000 := by decide
  have hverified : openVerify (List.replicate 256 0) (exitInputs w) = true := by
    refine (verify_spend_iff rfl).mpr ⟨List.length_replicate, ?_, (by decide :
      isSupportedMegaEthChain 6343), (by decide : (7 : Bytes32).toNat < firstNonAddressValue),
      (by decide : (1 : Bytes32) ≠ 0 ∧ (1 : Bytes32) ≠ 0), .inr ⟨?_, ?_, ?_⟩⟩
    · simp only [exitInputs, sampleSpend, List.forall_mem_cons]
      exact ⟨hroot, by decide, by decide, by decide, by decide, by decide, by decide,
        by decide, by decide, by decide, fun _ hx => absurd hx List.not_mem_nil⟩
    · exact fun htransfer => (by decide : ¬(11 : Bytes32) = 0) htransfer.2.1
    · exact (by decide : (11 : Bytes32) ≠ 0 ∧ (11 : Bytes32).toNat < firstNonAddressValue ∧
        (5000000000000000 : Bytes32).toNat > 0)
    · exact exactVerifiers_withdraw.mpr ⟨_, exit_circuit h htracks hn, fun _ _ => trivial⟩
  refine ⟨rfl, h.guard, ?_, ?_⟩
  · exact
      { nullifier_ne := hnullifier
        unspent := by rw [h.nullifiers]; exact Bool.false_ne_true
        destination_ne := (by decide : (11 : Address) ≠ 0)
        gross_pos := pos_of_supported hsupported
        note_le := (by decide : ([1] : Bytes).length ≤ maxEncryptedNoteBytes)
        product_lt := by rw [h.fees]; exact hproduct
        common := ⟨rfl, ⟨currentRoot_ne h htracks hn, htracks.recorded.current⟩, rfl, rfl, rfl⟩
        commitment_ne := houtput.1
        commitment_field := houtput.2
        commitment_fresh := hfresh
        destination := hdestination
        grossAmount := rfl
        fee := congrArg (BitVec.ofNat 256) hfee.symm
        policy := ⟨fun hne => absurd rfl hne, fun hne => absurd rfl hne⟩
        minNet_le := Nat.zero_le _
        supported := hsupported
        note_ne := (by decide : ([1] : Bytes).length ≠ 0)
        bindings := ⟨hhash _, hhash _⟩
        verified := hverified }
  · change LiquidityChecked w.pool (w.balances 7) (exitArgs w) (feeOf w.pool 5000000000000000)
    rw [hfee]
    refine ⟨?_, ?_, Nat.zero_le _, ?_, ?_, ?_, ?_, ?_, ?_⟩
    · change 16500000000000 ≤ (5000000000000000 : UInt256).toNat
      rw [hamount]
      decide
    · change 16500000000000 ≤ (16500000000000 : UInt256).toNat
      rw [hmaxfee]
    · rw [h.accounting]
    · rw [h.accounting]
      exact Nat.zero_le _
    · rw [h.accounting]
      exact Nat.zero_le _
    · rw [h.accounting]
      change (5000000000000000 : UInt256).toNat ≤ _
      rw [hamount]
      exact hlarge
    · rw [h.accounting]
      exact Nat.zero_le _
    · rw [h.accounting]
      change (5000000000000000 : UInt256).toNat ≤ _
      rw [hamount]
      exact hlarge.trans hbalance

end Exit

/-- **A full tree rejects the exit of a whole note** that passes every check. -/
theorem exitLiveness_fails : ¬ExitLiveness sampleEnv sampleTemplates openVerify := by
  intro hlive
  obtain ⟨w, hreach, hfilled⟩ := filled_reachable merkleTreeCapacity le_rfl
  have htracks := (tracks_reachable hreach).1
  have hpos : 0 < merkleTreeCapacity := Nat.two_pow_pos _
  have hpass := exit_passes hfilled htracks hpos le_rfl
  refine hlive _ hreach exitMsg (exitCall w) (exitArgs w) rfl hpass
    (exit_whole hfilled htracks hpos) ?_
  have hfull : merkleTreeCapacity ≤ (leavesOf w).length := by
    rw [hfilled.leaves, length_sampleLeaves]
  exact (exec_withdraw rfl hpass.value hpass.guard hpass.checked hpass.liquid
    (bounded_reachable hreach).1).2 _ (recordCommitmentRoot_full htracks.recorded hfull _)

/-- With one leaf in the tree the exit goes through. -/
theorem exit_at_capacity_one_leaf : ∃ w w' p, Reachable sampleEnv (· = openVerify) ⟨w, []⟩ ∧
    w.pool.roots.tree.nextLeafIndex = 1 ∧
    exec sampleEnv openVerify w exitMsg (exitCall w) = .ok (w', some p) := by
  have hone : 1 ≤ merkleTreeCapacity := Nat.two_pow_pos _
  obtain ⟨w, hreach, hfilled⟩ := filled_reachable 1 hone
  have htracks := (tracks_reachable hreach).1
  have hindex : w.pool.roots.tree.nextLeafIndex = 1 := by
    rw [htracks.recorded.grown.nextLeafIndex, hfilled.leaves, length_sampleLeaves]
  have hlt : 1 < merkleTreeCapacity := Nat.one_lt_two_pow (by decide)
  obtain ⟨w', p, hexec⟩ := ((exit_at_capacity hreach).2 openVerify exitMsg (exitCall w) (exitArgs w)
    rfl (exit_passes hfilled htracks Nat.one_pos hone)).1.mp (hindex ▸ hlt)
  exact ⟨w, w', p, hreach, hindex, hexec⟩

end Nullark.Pool.Capacity
