import Nullark.Lib.Ledger
import Nullark.Pool.History
import Nullark.Pool.Solvency
import Nullark.Verifier.ActionRouting

/-! # Conservation of value

With verifiers that accept only what has a witness, and a hash without known collisions or preimages
of zero, every leaf of the pool commits to one note, and the notes that are not spent are worth what
the accounting says.

* `Known`: the assumption on the hash, for the inputs anyone knows.
* `Ledger`: the leaves, their notes and the value of those that are not spent.
* `Ledger.insert`, `Ledger.spend`: the two moves of an action.
* `conserves_exec`: one call keeps the ledger.
* `conservation`: along runs, with the consequences for double spends and for liquidity. -/

namespace Nullark.Pool.Conservation

open Nullark.Lib.Outcome Nullark.Lib.Rollback Nullark.Lib.Ledger Nullark.Lib.Merkle.Tree
open Nullark.Evm.Basic Nullark.Pool.Interface Nullark.Pool.Context Nullark.Pool.Tree
open Nullark.Pool.Roots Nullark.Pool.Actions Nullark.Pool.Calls Nullark.Pool.Checks
open Nullark.Pool.Effects Nullark.Pool.Errors Nullark.Pool.Solvency Nullark.Pool.History
open Nullark.Circuit.Field Nullark.Circuit.Gadgets Nullark.Circuit.V12
open Nullark.Verifier.ActionRouting

/-! ### What is assumed of the hash -/

/-- **The hash of the pool is the `Poseidon` of the circuits**, on field elements. -/
structure SamePoseidon (poseidon2 : Bytes32 → Bytes32 → Bytes32) (t : Templates) : Prop where
  field : ∀ l r, isFieldElement l → isFieldElement r → isFieldElement (poseidon2 l r)
  agrees : ∀ l r, isFieldElement l → isFieldElement r →
    toField (poseidon2 l r) = hashPair t (toField l) (toField r)

/-- The nullifier of a note at an index. -/
def nullifierOf (env : Env) (t : Templates) (n : Note) (i : ℕ) : Bytes32 :=
  toWord (poseidonNullifier t n.noteSecret (i : F) (toField env.chainId)
    (toField (addressToBytes32 env.this)))

/-- **No collision and no preimage of zero is known.** `K` holds the inputs that anyone hashes:
whoever knows a note also knows what its nullifiers hash. -/
structure Known (env : Env) (t : Templates) (K : List F → Prop) : Prop where
  injective : ∀ k k', K k → K k' → t.poseidon k = t.poseidon k' → k = k'
  nonzero : ∀ k, K k → t.poseidon k ≠ 0
  nullifiers : ∀ (n : Note) (i : ℕ), K n.preimage → i < merkleTreeCapacity →
    K (nullifierPreimage n.noteSecret (i : F) (toField env.chainId)
      (toField (addressToBytes32 env.this)))

/-- The inputs the tree over a list of leaves hashes are known. -/
def TreeKnown (t : Templates) (K : List F → Prop) (leaves : List Bytes32) : Prop :=
  NodesIn (hashPair t) (fun a b => K [a, b]) (fun i => toField (padded 0 leaves i)) merkleTreeDepth

/-! ### The ledger -/

/-- A witness of one of the two circuits of a spend opens the leaf `i`. -/
def SpendsLeaf (t : Templates) (K : List F → Prop) (publicInputs : List Bytes32) (i : ℕ) : Prop :=
  (∃ w, PrivateTransferCircuit t merkleTreeDepth (spendPublic publicInputs) w ∧
      (∀ k ∈ w.preimages t (spendPublic publicInputs), K k) ∧ w.leafIndex.val = i) ∨
    ∃ w, WithdrawCircuit t merkleTreeDepth (spendPublic publicInputs) w ∧
      (∀ k ∈ w.preimages t (spendPublic publicInputs), K k) ∧ w.leafIndex.val = i

/-- The public inputs of a spend the pool has accepted while it had the leaves. -/
structure SpendOf (env : Env) (leaves publicInputs : List Bytes32) : Prop where
  field : ∀ x ∈ publicInputs, isFieldElement x
  root : ∃ pre, pre <+: leaves ∧ treeRoot env.poseidon2 pre = input publicInputs 0
  chainId : input publicInputs 6 = env.chainId
  this : input publicInputs 7 = addressToBytes32 env.this

/-- The notes open the leaves, one each, and are known. -/
def Opens (t : Templates) (K : List F → Prop) (leaves : List Bytes32) (notes : List Note) : Prop :=
  List.Forall₂ (fun leaf n => toField leaf = poseidonNoteCommitment t n ∧ K n.preimage) leaves notes

/-- Whether the nullifier of the note `i` is marked. -/
def spentAt (env : Env) (t : Templates) (nullifiers : Bytes32 → Bool) (notes : List Note) (i : ℕ) :
    Bool :=
  (notes[i]?).any fun n => nullifiers (nullifierOf env t n i)

/-- **The amounts in the leaves whose nullifier is not marked.** -/
def unspentValue (env : Env) (t : Templates) (nullifiers : Bytes32 → Bool) (notes : List Note) : ℕ :=
  unspent (spentAt env t nullifiers notes) (notes.map fun n => n.amount.val)

/-- **The ledger of the pool**: the notes of its leaves, the marked nullifiers and the accepted
spends. -/
structure Ledger (env : Env) (t : Templates) (K : List F → Prop) (nullifiers : Bytes32 → Bool)
    (spends : List (List Bytes32)) (leaves : List Bytes32) (notes : List Note) : Prop where
  fits : leaves.length ≤ merkleTreeCapacity
  field : ∀ c ∈ leaves, isFieldElement c
  trees : ∀ pre, pre <+: leaves → TreeKnown t K pre
  opens : Opens t K leaves notes
  marked : ∀ ν, nullifiers ν = true → ∃ i n, notes[i]? = some n ∧ ν = nullifierOf env t n i
  accepted : ∀ publicInputs ∈ spends, SpendOf env leaves publicInputs ∧
    nullifiers (input publicInputs 1) = true ∧
    ∃ i < leaves.length, SpendsLeaf t K publicInputs i
  distinct : (spends.map fun publicInputs => input publicInputs 1).Nodup

section Ledger
variable {env : Env} {t : Templates} {K : List F → Prop} {nullifiers : Bytes32 → Bool}
  {spends : List (List Bytes32)} {leaves : List Bytes32} {notes : List Note}

theorem Opens.length_eq (h : Opens t K leaves notes) : leaves.length = notes.length :=
  List.Forall₂.length_eq h

theorem Opens.getElem? (h : Opens t K leaves notes) {i : ℕ} {c : Bytes32}
    (hc : leaves[i]? = some c) :
    ∃ n, notes[i]? = some n ∧ toField c = poseidonNoteCommitment t n ∧ K n.preimage := by
  obtain ⟨hi, rfl⟩ := List.getElem?_eq_some_iff.mp hc
  have hi' : i < notes.length := h.length_eq ▸ hi
  exact ⟨notes[i], List.getElem?_eq_getElem hi', List.Forall₂.get h hi hi'⟩

variable (hknown : Known env t K)
include hknown

/-- A commitment has one note. -/
theorem note_unique {n n' : Note} (hn : K n.preimage) (hn' : K n'.preimage)
    (h : poseidonNoteCommitment t n = poseidonNoteCommitment t n') : n = n' :=
  Note.preimage_injective (hknown.injective _ _ hn hn' h)

theorem Opens.unique {notes' : List Note} (h : Opens t K leaves notes)
    (h' : Opens t K leaves notes') : notes = notes' := by
  refine List.ext_getElem? fun i => ?_
  rcases hc : leaves[i]? with _ | c
  · rw [List.getElem?_eq_none_iff] at hc
    have hlen := h.length_eq
    have hlen' := h'.length_eq
    rw [List.getElem?_eq_none (by omega), List.getElem?_eq_none (by omega)]
  · obtain ⟨n, hn, hcn, hk⟩ := h.getElem? hc
    obtain ⟨n', hn', hcn', hk'⟩ := h'.getElem? hc
    rw [hn, hn', note_unique hknown hk hk' (hcn.symm.trans hcn')]

/-- Nullifiers of known notes at different indices differ. -/
theorem nullifierOf_inj {n n' : Note} {i j : ℕ} (hn : K n.preimage) (hn' : K n'.preimage)
    (hi : i < merkleTreeCapacity) (hj : j < merkleTreeCapacity)
    (h : nullifierOf env t n i = nullifierOf env t n' j) : i = j := by
  have hfield := toWord_injective h
  have hpre := hknown.injective _ _ (hknown.nullifiers n i hn hi) (hknown.nullifiers n' j hn' hj)
    hfield
  unfold nullifierPreimage at hpre
  simp only [List.cons.injEq, and_true, true_and] at hpre
  have hcapacity : merkleTreeCapacity < bn254ScalarField := by
    norm_num [merkleTreeCapacity, merkleTreeDepth, bn254ScalarField]
  exact natCast_inj_of_lt (hi.trans hcapacity) (hj.trans hcapacity) hpre.2

/-! ### Opening a leaf -/

variable (hsame : SamePoseidon env.poseidon2 t)
include hsame

omit hknown in
theorem isFieldElement_treeRoot {pre : List Bytes32} (hfield : ∀ c ∈ pre, isFieldElement c) :
    isFieldElement (treeRoot env.poseidon2 pre) :=
  (node_map (fun a b ha hb => ⟨hsame.field a b ha hb, (hsame.agrees a b ha hb).symm⟩)
    (padded_mem isFieldElement_zero hfield) merkleTreeDepth 0).1

omit hknown in
theorem toField_treeRoot {pre : List Bytes32} (hfield : ∀ c ∈ pre, isFieldElement c) :
    toField (treeRoot env.poseidon2 pre) =
      node (hashPair t) (fun i => toField (padded 0 pre i)) merkleTreeDepth 0 :=
  (node_map (fun a b ha hb => ⟨hsame.field a b ha hb, (hsame.agrees a b ha hb).symm⟩)
    (padded_mem isFieldElement_zero hfield) merkleTreeDepth 0).2.symm

/-- **A path to an accepted root opens a leaf**, and its nullifier is the one of that leaf. -/
theorem Ledger.opened (h : Ledger env t K nullifiers spends leaves notes)
    {publicInputs : List Bytes32} (hspend : SpendOf env leaves publicInputs) {n outputNote : Note}
    {leafIndex : F} {path : List F}
    (hs : SpendsNote t merkleTreeDepth (spendPublic publicInputs) n outputNote leafIndex path)
    (hk : ∀ k ∈ spendPreimages t (spendPublic publicInputs) n outputNote leafIndex path, K k) :
    notes[leafIndex.val]? = some n ∧ leafIndex.val < leaves.length ∧
      input publicInputs 1 = nullifierOf env t n leafIndex.val := by
  obtain ⟨pre, hpre, hroot⟩ := hspend.root
  have hfield : ∀ c ∈ pre, isFieldElement c := fun c hc => h.field c (hpre.subset hc)
  have hnote : K n.preimage := hk _ (by simp [spendPreimages])
  have hpairs : ∀ q ∈ pairs (hashPair t) (poseidonNoteCommitment t n) leafIndex.val path,
      K [q.1, q.2] := fun q hq => hk _ (by
    simp only [spendPreimages, pathPreimages, List.mem_cons, List.mem_map]
    exact .inr (.inr (.inr ⟨q, hq, rfl⟩)))
  have hinj : InjectiveOn (hashPair t) fun a b => K [a, b] := by
    intro a b c d hab hcd heq
    have hlist := hknown.injective _ _ hab hcd heq
    simp only [List.cons.injEq, and_true] at hlist
    exact hlist
  have hclimb : climb (hashPair t) (poseidonNoteCommitment t n) leafIndex.val path =
      node (hashPair t) (fun i => toField (padded 0 pre i)) path.length 0 := by
    rw [hs.length, ← toField_treeRoot hsame hfield, hroot]
    exact hs.root.symm
  have hindex : leafIndex.val < 2 ^ path.length := by
    rw [hs.length]
    exact hs.index_lt
  have htree : NodesIn (hashPair t) (fun a b => K [a, b]) (fun i => toField (padded 0 pre i))
      path.length := by
    rw [hs.length]
    exact h.trees pre hpre
  have hleaf := leaf_of_climb hinj hindex hpairs htree hclimb
  -- a leaf that is not there is zero, and no note hashes to zero
  have hlt : leafIndex.val < pre.length := by
    by_contra hge
    rw [padded_of_le (not_lt.mp hge), toField_zero] at hleaf
    exact hknown.nonzero _ hnote hleaf
  rw [padded_of_lt hlt] at hleaf
  have hget : leaves[leafIndex.val]? = some pre[leafIndex.val] := by
    obtain ⟨rest, rfl⟩ := hpre
    rw [List.getElem?_append_left hlt, List.getElem?_eq_getElem hlt]
  obtain ⟨n', hn', hcn', hk'⟩ := h.opens.getElem? hget
  have hnn : n = n' := note_unique hknown hnote hk' (hleaf.trans hcn')
  refine ⟨hnn ▸ hn', hlt.trans_le hpre.length_le, ?_⟩
  have hnullifier := hs.nullifier
  rw [← toWord_toField (isFieldElement_input hspend.field 1)]
  unfold nullifierOf
  rw [ZMod.natCast_zmod_val, ← hspend.chainId, ← hspend.this]
  exact congrArg toWord hnullifier

omit hknown hsame in
/-- A leaf is opened by a witness of either circuit. -/
theorem SpendsLeaf.spendsNote (ht : Documented t) {publicInputs : List Bytes32} {i : ℕ}
    (h : SpendsLeaf t K publicInputs i) : ∃ n outputNote leafIndex path,
      SpendsNote t merkleTreeDepth (spendPublic publicInputs) n outputNote leafIndex path ∧
      (∀ k ∈ spendPreimages t (spendPublic publicInputs) n outputNote leafIndex path, K k) ∧
      leafIndex.val = i := by
  rcases h with ⟨w, hw, hk, hi⟩ | ⟨w, hw, hk, hi⟩
  · exact ⟨_, _, _, _, hw.spendsNote ht, hk, hi⟩
  · exact ⟨_, _, _, _, hw.spendsNote ht, hk, hi⟩

/-- **No leaf is opened by two accepted spends.** -/
theorem Ledger.no_double_spend (ht : Documented t) (h : Ledger env t K nullifiers spends leaves notes)
    {j k : ℕ} {first second : List Bytes32} (hj : spends[j]? = some first)
    (hk : spends[k]? = some second) (hjk : j ≠ k) {i : ℕ} (hi : SpendsLeaf t K first i) :
    ¬SpendsLeaf t K second i := by
  intro hi'
  obtain ⟨n, out, index, path, hs, hkn, rfl⟩ := hi.spendsNote ht
  obtain ⟨n', out', index', path', hs', hkn', heq⟩ := hi'.spendsNote ht
  obtain ⟨hn, -, hnull⟩ :=
    h.opened hknown hsame (h.accepted first (List.mem_of_getElem? hj)).1 hs hkn
  obtain ⟨hn', -, hnull'⟩ :=
    h.opened hknown hsame (h.accepted second (List.mem_of_getElem? hk)).1 hs' hkn'
  rw [heq] at hn' hnull'
  have hnn : n = n' := Option.some.inj (hn.symm.trans hn')
  have hsame_nullifier : input first 1 = input second 1 := by rw [hnull, hnull', hnn]
  have hj' : (spends.map fun p => input p 1)[j]? = some (input first 1) := by
    rw [List.getElem?_map, hj]
    rfl
  have hk' : (spends.map fun p => input p 1)[k]? = some (input first 1) := by
    rw [List.getElem?_map, hk, hsame_nullifier]
    rfl
  have hlt : j < (spends.map fun p => input p 1).length := (List.getElem?_eq_some_iff.mp hj').1
  exact hjk ((List.getElem?_inj hlt h.distinct).mp (hj'.trans hk'.symm))

/-! ### The two moves -/

omit hsame in
/-- **A new leaf** adds the amount of its note: its nullifier is not marked yet. -/
theorem Ledger.insert (h : Ledger env t K nullifiers spends leaves notes) {c : Bytes32} {n : Note}
    (hc : isFieldElement c) (hroom : leaves.length < merkleTreeCapacity)
    (htree : TreeKnown t K (leaves ++ [c])) (hopen : toField c = poseidonNoteCommitment t n)
    (hk : K n.preimage) :
    Ledger env t K nullifiers spends (leaves ++ [c]) (notes ++ [n]) ∧
      unspentValue env t nullifiers (notes ++ [n]) =
        unspentValue env t nullifiers notes + n.amount.val := by
  have hlength := h.opens.length_eq
  have hlt : ∀ {i : ℕ} {n' : Note}, notes[i]? = some n' → i < notes.length := fun hi =>
    (List.getElem?_eq_some_iff.mp hi).1
  have hkeep : ∀ {i : ℕ} {n' : Note}, notes[i]? = some n' → (notes ++ [n])[i]? = some n' :=
    fun hi => by rw [List.getElem?_append_left (hlt hi), hi]
  constructor
  · refine ⟨?_, ?_, fun pre hpre => ?_, ?_, fun ν hν => ?_, fun publicInputs hin => ?_, h.distinct⟩
    · rw [List.length_append, List.length_singleton]
      exact hroom
    · intro x hx
      rcases List.mem_append.mp hx with hx | hx
      · exact h.field x hx
      · exact List.mem_singleton.mp hx ▸ hc
    · rcases List.prefix_concat_iff.mp hpre with rfl | hpre
      · exact htree
      · exact h.trees pre hpre
    · exact List.rel_append h.opens (.cons ⟨hopen, hk⟩ .nil)
    · obtain ⟨i, n', hi, rfl⟩ := h.marked ν hν
      exact ⟨i, n', hkeep hi, rfl⟩
    · obtain ⟨hspend, hmarked, i, hi, hleaf⟩ := h.accepted publicInputs hin
      obtain ⟨pre, hpre, hroot⟩ := hspend.root
      refine ⟨{ hspend with root := ⟨pre, hpre.trans (List.prefix_append _ _), hroot⟩ }, hmarked, i,
        ?_, hleaf⟩
      rw [List.length_append]
      omega
  · have hfresh : spentAt env t nullifiers (notes ++ [n]) notes.length = false := by
      by_contra hspent
      rw [Bool.not_eq_false] at hspent
      have hmarked : nullifiers (nullifierOf env t n notes.length) = true := by
        simpa [spentAt] using hspent
      obtain ⟨i, n', hi, heq⟩ := h.marked _ hmarked
      obtain ⟨leaf, hleaf⟩ : ∃ leaf, leaves[i]? = some leaf :=
        ⟨_, List.getElem?_eq_getElem (hlength ▸ hlt hi)⟩
      obtain ⟨n'', hn'', -, hk'⟩ := h.opens.getElem? hleaf
      have hnn : n' = n'' := Option.some.inj (hi.symm.trans hn'')
      have hcap : i < merkleTreeCapacity := by
        have := hlt hi
        omega
      have hsame_index : notes.length = i :=
        nullifierOf_inj hknown hk (hnn ▸ hk') (by omega) hcap heq
      have := hlt hi
      omega
    have hothers : ∀ i < (notes.map fun n => n.amount.val).length,
        spentAt env t nullifiers (notes ++ [n]) i = spentAt env t nullifiers notes i := by
      intro i hi
      rw [List.length_map] at hi
      unfold spentAt
      rw [List.getElem?_append_left hi]
    unfold unspentValue
    rw [List.map_append, List.map_singleton, unspent_concat, unspent_congr hothers, List.length_map,
      hfresh]
    rfl

/-- **A spend** takes away the amount of the note it opens. -/
theorem Ledger.spend (h : Ledger env t K nullifiers spends leaves notes)
    {publicInputs : List Bytes32} (hspend : SpendOf env leaves publicInputs) {n outputNote : Note}
    {leafIndex : F} {path : List F}
    (hs : SpendsNote t merkleTreeDepth (spendPublic publicInputs) n outputNote leafIndex path)
    (hk : ∀ k ∈ spendPreimages t (spendPublic publicInputs) n outputNote leafIndex path, K k)
    (hleaf : SpendsLeaf t K publicInputs leafIndex.val)
    (hunspent : nullifiers (input publicInputs 1) = false) :
    Ledger env t K (Function.update nullifiers (input publicInputs 1) true)
        (spends ++ [publicInputs]) leaves notes ∧
      unspentValue env t (Function.update nullifiers (input publicInputs 1) true) notes +
        n.amount.val = unspentValue env t nullifiers notes := by
  obtain ⟨hn, hlt, hnullifier⟩ := h.opened hknown hsame hspend hs hk
  have hmono : ∀ {ν : Bytes32}, nullifiers ν = true →
      Function.update nullifiers (input publicInputs 1) true ν = true := by
    intro ν hν
    by_cases heq : ν = input publicInputs 1
    · rw [heq, Function.update_self]
    · rw [Function.update_of_ne heq, hν]
  constructor
  · refine ⟨h.fits, h.field, h.trees, h.opens, fun ν hν => ?_, fun p hp => ?_, ?_⟩
    · by_cases heq : ν = input publicInputs 1
      · exact ⟨_, n, hn, heq.trans hnullifier⟩
      · rw [Function.update_of_ne heq] at hν
        exact h.marked ν hν
    · rcases List.mem_append.mp hp with hp | hp
      · obtain ⟨h1, h2, h3⟩ := h.accepted p hp
        exact ⟨h1, hmono h2, h3⟩
      · rw [List.mem_singleton.mp hp]
        exact ⟨hspend, Function.update_self .., _, hlt, hleaf⟩
    · rw [List.map_append, List.map_singleton]
      refine List.nodup_append.mpr ⟨h.distinct, List.nodup_singleton _, fun a ha b hb heq => ?_⟩
      obtain ⟨p, hp, rfl⟩ := List.mem_map.mp ha
      have hmarked := (h.accepted p hp).2.1
      rw [heq, List.mem_singleton.mp hb, hunspent] at hmarked
      cases hmarked
  · refine unspent_spend (i := leafIndex.val) ?_ ?_ ?_ fun j hj hne => ?_
    · rw [List.getElem?_map, hn]
      rfl
    · simpa [spentAt, hn, ← hnullifier] using hunspent
    · simp [spentAt, hn, ← hnullifier]
    · rw [List.length_map] at hj
      have hlength := h.opens.length_eq
      obtain ⟨leaf, hleaf⟩ : ∃ leaf, leaves[j]? = some leaf :=
        ⟨_, List.getElem?_eq_getElem (by omega)⟩
      obtain ⟨n', hn', -, hk'⟩ := h.opens.getElem? hleaf
      have hnote : K n.preimage := hk _ (by simp [spendPreimages])
      have hfits := h.fits
      have hdiff : nullifierOf env t n' j ≠ input publicInputs 1 := fun heq => hne
        (nullifierOf_inj hknown hk' hnote (by omega) (by omega) (heq.trans hnullifier))
      unfold spentAt
      rw [hn', Option.any_some, Option.any_some, Function.update_of_ne hdiff]

end Ledger

/-! ### One call -/

/-- **The world has a ledger**, and what is unspent in it is worth what the accounting says. -/
def Conserves (env : Env) (t : Templates) (K : List F → Prop) (w : World) (leaves : List Bytes32) :
    Prop :=
  ∃ notes, Ledger env t K w.pool.nullifiers w.spends leaves notes ∧
    unspentValue env t w.pool.nullifiers notes + w.pool.accounting.totalWithdrawnAccounting +
      w.pool.accounting.accruedProtocolFees = w.pool.accounting.totalDepositedAccounting

section Call
variable {env : Env} {t : Templates} {K : List F → Prop} {v : Verifiers} {w w' : World} {msg : Msg}
  {leaves : List Bytes32}

/-- Only the nullifiers, the spends and the accounting matter. -/
theorem Conserves.congr (h : Conserves env t K w leaves)
    (hnullifiers : w'.pool.nullifiers = w.pool.nullifiers) (hspends : w'.spends = w.spends)
    (htotals : w'.pool.accounting.totalWithdrawnAccounting =
        w.pool.accounting.totalWithdrawnAccounting ∧
      w'.pool.accounting.accruedProtocolFees = w.pool.accounting.accruedProtocolFees ∧
      w'.pool.accounting.totalDepositedAccounting = w.pool.accounting.totalDepositedAccounting) :
    Conserves env t K w' leaves := by
  obtain ⟨notes, hledger, hvalue⟩ := h
  obtain ⟨h1, h2, h3⟩ := htotals
  refine ⟨notes, ?_, ?_⟩
  · rw [hnullifiers, hspends]
    exact hledger
  · rw [hnullifiers, h1, h2, h3]
    exact hvalue

/-- The public inputs of a spend that passes the common checks. -/
theorem spendOf_of_common (htracks : Tracks env w leaves) {publicInputs : List Bytes32}
    {nullifier : Bytes32} (hcommon : CommonChecked env w.pool publicInputs nullifier)
    (hfield : ∀ x ∈ publicInputs, isFieldElement x) : SpendOf env leaves publicInputs :=
  ⟨hfield, mem_prefixRoots.mp (htracks.recorded.recorded _ hcommon.root.2), hcommon.chainId,
    hcommon.this⟩

/-- The witness behind an accepted private transfer. -/
theorem transfer_witness (haccepts : Accepts t merkleTreeDepth K v)
    (htracks : Tracks env w leaves) {a : TransferArgs}
    (hc : TransferChecked env (verify v) w.pool msg a) :
    SpendOf env leaves a.publicInputs ∧
      ∃ x, PrivateTransferCircuit t merkleTreeDepth (spendPublic a.publicInputs) x ∧
        ∀ k ∈ x.preimages t (spendPublic a.publicInputs), K k := by
  obtain ⟨-, hfield, -, -, -, ⟨-, hverified⟩ | ⟨hnot, -, -⟩⟩ :=
    (verify_spend_iff hc.common.length).mp hc.verified
  · exact ⟨spendOf_of_common htracks hc.common hfield, haccepts.privateTransfer _ _ hverified⟩
  · exact absurd ⟨hc.commitment.trans_ne hc.commitment_ne, hc.destination, hc.grossAmount, hc.fee⟩
      hnot

/-- The witness behind an accepted withdrawal. -/
theorem withdraw_witness (haccepts : Accepts t merkleTreeDepth K v)
    (htracks : Tracks env w leaves) {a : WithdrawArgs}
    (hc : WithdrawChecked env (verify v) w.pool msg a) :
    SpendOf env leaves a.publicInputs ∧ isFieldElement (input a.publicInputs 4) ∧
      ∃ x, WithdrawCircuit t merkleTreeDepth (spendPublic a.publicInputs) x ∧
        ∀ k ∈ x.preimages t (spendPublic a.publicInputs), K k := by
  obtain ⟨-, hfield, -, -, -, ⟨htransfer, -⟩ | ⟨-, -, hverified⟩⟩ :=
    (verify_spend_iff hc.common.length).mp hc.verified
  · have hzero : addressToBytes32 a.destination = addressToBytes32 0 :=
      hc.destination.symm.trans htransfer.2.1
    exact absurd (addressToBytes32_injective hzero) hc.destination_ne
  · exact ⟨spendOf_of_common htracks hc.common hfield, isFieldElement_input hfield 4,
      haccepts.withdraw _ _ hverified⟩

variable (hknown : Known env t K) (hsame : SamePoseidon env.poseidon2 t) (ht : Documented t)
  (haccepts : Accepts t merkleTreeDepth K v)
include hknown haccepts

theorem conserves_deposits {proof : Bytes} {publicInputs : List Bytes32} {encryptedNote : Bytes}
    {selector : Bytes4} (h : Conserves env t K w leaves)
    (hd : Deposits env (verify v) w msg proof publicInputs encryptedNote selector w')
    (htracks' : Tracks env w' (leaves ++ [input publicInputs 0]))
    (htree : TreeKnown t K (leaves ++ [input publicInputs 0])) :
    Conserves env t K w' (leaves ++ [input publicInputs 0]) := by
  obtain ⟨notes, hledger, hvalue⟩ := h
  obtain ⟨-, hfield, -, -, -, -, hverified⟩ :=
    (verify_deposit_iff hd.checked.length).mp hd.checked.verified
  obtain ⟨x, hx, hk⟩ := haccepts.deposit _ _ hverified
  have hroom := htracks'.recorded.grown.fits
  rw [List.length_append, List.length_singleton] at hroom
  obtain ⟨hledger', hvalue'⟩ := hledger.insert hknown hd.checked.commitment_field hroom htree
    hx.note (hk _ (by simp [DepositWitness.preimages]))
  have hamount : (x.note (depositPublic publicInputs).amount).amount.val = msg.value := by
    change (toField (input publicInputs 1)).val = msg.value
    rw [val_toField (isFieldElement_input hfield 1), hd.checked.amount]
  refine ⟨_, by rw [hd.nullifiers, hd.spends]; exact hledger', ?_⟩
  rw [hd.nullifiers, hd.accounting, hvalue', hamount]
  dsimp only
  omega

include hsame ht

theorem conserves_transfers {a : TransferArgs} (h : Conserves env t K w leaves)
    (htracks : Tracks env w leaves) (hw : Transfers env (verify v) w msg a w')
    (htracks' : Tracks env w' (leaves ++ [a.newCommitment]))
    (htree : TreeKnown t K (leaves ++ [a.newCommitment])) :
    Conserves env t K w' (leaves ++ [a.newCommitment]) := by
  obtain ⟨notes, hledger, hvalue⟩ := h
  obtain ⟨hspend, x, hx, hk⟩ := transfer_witness haccepts htracks hw.checked
  have hnullifier := hw.checked.common.nullifier
  have hunspent : w.pool.nullifiers (input a.publicInputs 1) = false := by
    rw [hnullifier]
    exact Bool.eq_false_iff.mpr hw.unspent
  obtain ⟨hledger₁, hvalue₁⟩ := hledger.spend hknown hsame hspend (hx.spendsNote ht) hk
    (.inl ⟨x, hx, hk, rfl⟩) hunspent
  have hroom := htracks'.recorded.grown.fits
  rw [List.length_append, List.length_singleton] at hroom
  have hopen : toField a.newCommitment = poseidonNoteCommitment t x.outputNote := by
    rw [← hw.checked.commitment]
    exact hx.outputNote
  obtain ⟨hledger₂, hvalue₂⟩ := hledger₁.insert hknown hw.checked.commitment_field hroom htree hopen
    (hk _ (by simp [PrivateTransferWitness.preimages, spendPreimages]))
  have hsame_amount : x.oldNote.amount = x.outputNote.amount := hx.conservation
  rw [hnullifier] at hledger₂ hvalue₁ hvalue₂
  refine ⟨_, by rw [hw.nullifiers, hw.spends]; exact hledger₂, ?_⟩
  rw [hw.nullifiers, hw.accounting, hvalue₂, ← hsame_amount]
  omega

theorem conserves_withdraws {a : WithdrawArgs} {p : Pending} (h : Conserves env t K w leaves)
    (htracks : Tracks env w leaves) (hw : Withdraws env (verify v) w msg a w' p)
    (htracks' : Tracks env w' (leaves ++ [input a.publicInputs 2]))
    (htree : TreeKnown t K (leaves ++ [input a.publicInputs 2])) :
    Conserves env t K w' (leaves ++ [input a.publicInputs 2]) := by
  obtain ⟨notes, hledger, hvalue⟩ := h
  obtain ⟨hspend, hgross, x, hx, hk⟩ := withdraw_witness haccepts htracks hw.checked
  have hnullifier := hw.checked.common.nullifier
  have hunspent : w.pool.nullifiers (input a.publicInputs 1) = false := by
    rw [hnullifier]
    exact Bool.eq_false_iff.mpr hw.checked.unspent
  obtain ⟨hledger₁, hvalue₁⟩ := hledger.spend hknown hsame hspend (hx.spendsNote ht) hk
    (.inr ⟨x, hx, hk, rfl⟩) hunspent
  have hroom := htracks'.recorded.grown.fits
  rw [List.length_append, List.length_singleton] at hroom
  obtain ⟨hledger₂, hvalue₂⟩ := hledger₁.insert hknown hw.checked.commitment_field hroom htree
    hx.outputNote (hk _ (by simp [WithdrawWitness.preimages, spendPreimages]))
  have hamounts := hx.amounts
  have hgross_val : (spendPublic a.publicInputs).grossAmount.val = a.grossAmount.toNat := by
    change (toField (input a.publicInputs 4)).val = _
    rw [val_toField hgross, hw.checked.grossAmount]
  have hfee := hw.liquid.fee_le
  rw [hnullifier] at hledger₂ hvalue₁ hvalue₂
  refine ⟨_, by rw [hw.nullifiers, hw.spends]; exact hledger₂, ?_⟩
  rw [hw.nullifiers, hw.accounting, hvalue₂]
  dsimp only
  omega

/-- **One call keeps the ledger.** -/
theorem conserves_exec {call : Call} {p : Option Pending} (h : Conserves env t K w leaves)
    (htracks : Tracks env w leaves) (hexec : exec env (verify v) w msg call = .ok (w', p))
    (htree : TreeKnown t K (leaves ++ leafOf call.action)) :
    Conserves env t K w' (leaves ++ leafOf call.action) := by
  have htracks' := tracks_exec htracks hexec
  obtain ⟨-, -, heffect⟩ := exec_ok hexec
  have hpaid : Conserves env t K (paidIn env w msg) leaves := h.congr rfl rfl ⟨rfl, rfl, rfl⟩
  have htracks_paid : Tracks env (paidIn env w msg) leaves := htracks.congr rfl rfl rfl
  generalize call.action = action at heffect htree htracks'
  cases heffect with
  | deposit hd => exact conserves_deposits hknown haccepts hpaid hd htracks' htree
  | privateTransfer hw =>
    exact conserves_transfers hknown hsame ht haccepts hpaid htracks_paid hw htracks' htree
  | withdraw hw =>
    exact conserves_withdraws hknown hsame ht haccepts hpaid htracks_paid hw htracks' htree
  | fee hf =>
    change Conserves env t K w' (leaves ++ [])
    rw [List.append_nil]
    exact hpaid.congr (by rw [hf.pool]) hf.spends ⟨by rw [hf.pool], by rw [hf.pool], by rw [hf.pool]⟩
  | sweepFees hs =>
    change Conserves env t K w' (leaves ++ [])
    rw [List.append_nil]
    exact hpaid.congr (by rw [hs.pool]) hs.spends ⟨by rw [hs.pool], by rw [hs.pool], by rw [hs.pool]⟩

end Call

/-! ### Runs -/

/-- **The configurations reached by hashing known inputs only.** -/
def KnownReachable (env : Env) (t : Templates) (K : List F → Prop) (v : Verifiers)
    (c : Config World (Option Pending)) : Prop :=
  ∃ w, Deployed env w ∧ TreeKnown t K (leavesOf w) ∧
    Run ((pool env (· = verify v)).within fun w => TreeKnown t K (leavesOf w)) ⟨w, []⟩ c

section Runs
variable {env : Env} {t : Templates} {K : List F → Prop} {v : Verifiers}

theorem KnownReachable.reachable {c : Config World (Option Pending)}
    (h : KnownReachable env t K v c) : Reachable env (· = verify v) c := by
  obtain ⟨w, hdeployed, -, hrun⟩ := h
  exact ⟨w, hdeployed, Run.of_within hrun⟩

theorem conserves_deployed {w : World} (h : Deployed env w) (htree : TreeKnown t K (leavesOf w)) :
    Conserves env t K w (leavesOf w) := by
  have hempty : leavesOf w = [] := (tracks_deployed h).leavesOf_eq
  rw [hempty] at htree ⊢
  obtain ⟨verifier, poseidon2Address, balances, h⟩ := h
  simp only [construct, bind_eq_ok, require_eq_ok, exists_const, pure_eq_ok] at h
  obtain ⟨-, -, -, rfl⟩ := h
  refine ⟨[], ⟨Nat.zero_le _, fun _ hc => absurd hc List.not_mem_nil, fun pre hpre => ?_, .nil,
    fun ν hν => ?_, fun _ hp => absurd hp List.not_mem_nil, List.nodup_nil⟩, rfl⟩
  · rw [List.prefix_nil.mp hpre]
    exact htree
  · exact absurd hν Bool.false_ne_true

variable (hknown : Known env t K) (hsame : SamePoseidon env.poseidon2 t) (ht : Documented t)
  (haccepts : Accepts t merkleTreeDepth K v)
include hknown hsame ht haccepts

/-- Every configuration reached has a ledger, also inside a call that re-enters. -/
theorem conserves_reachable {c : Config World (Option Pending)} (h : KnownReachable env t K v c) :
    c.All fun w => Conserves env t K w (leavesOf w) := by
  obtain ⟨w, hdeployed, htree, hrun⟩ := h
  have hall : c.All fun w => Tracks env w (leavesOf w) ∧ Conserves env t K w (leavesOf w) := by
    refine Run.invariant (S := (pool env (· = verify v)).within fun w => TreeKnown t K (leavesOf w))
      (I := fun w => Tracks env w (leavesOf w) ∧ Conserves env t K w (leavesOf w)) ?_ ?_ ?_
      ⟨?_, fun _ hf => absurd hf List.not_mem_nil⟩ hrun
    · rintro w w' ⟨htracks, h⟩ ⟨hs, htree'⟩
      cases hs with
      | call hv _ hexec =>
        subst hv
        have htracks' := tracks_exec htracks hexec
        have hleaves := htracks'.leavesOf_eq
        rw [hleaves] at htree' ⊢
        exact ⟨htracks', conserves_exec hknown hsame ht haccepts h htracks hexec htree'⟩
      | reverted => exact ⟨htracks, h⟩
      | others => exact ⟨htracks.congr rfl rfl rfl, h.congr rfl rfl ⟨rfl, rfl, rfl⟩⟩
    · rintro w p w' ⟨htracks, h⟩ ⟨ho, htree'⟩
      cases ho with
      | call hv _ hexec =>
        subst hv
        have htracks' := tracks_exec htracks hexec
        have hleaves := htracks'.leavesOf_eq
        rw [hleaves] at htree' ⊢
        exact ⟨htracks', conserves_exec hknown hsame ht haccepts h htracks hexec htree'⟩
      | others => exact ⟨htracks, h⟩
    · rintro w p w' ⟨htracks, h⟩ ⟨hc, -⟩
      cases hc with
      | @call _ p =>
        have htracks' := tracks_finish htracks p
        rw [htracks'.leavesOf_eq]
        exact ⟨htracks', h.congr rfl rfl ⟨rfl, rfl, rfl⟩⟩
      | others => exact ⟨htracks, h⟩
    · have htracks := tracks_deployed hdeployed
      refine ⟨?_, conserves_deployed hdeployed htree⟩
      dsimp only
      rw [htracks.leavesOf_eq]
      exact htracks
  exact ⟨hall.1.2, fun f hf => (hall.2 f hf).2⟩

/-- **A withdrawal that passes its checks is covered** by the notes that are not spent. -/
theorem gross_le_of_conserves {w : World} {msg : Msg} {leaves : List Bytes32}
    (h : Conserves env t K w leaves) (htracks : Tracks env w leaves) {a : WithdrawArgs}
    (hc : WithdrawChecked env (verify v) w.pool msg a) :
    a.grossAmount.toNat + w.pool.accounting.totalWithdrawnAccounting +
      w.pool.accounting.accruedProtocolFees ≤ w.pool.accounting.totalDepositedAccounting := by
  obtain ⟨notes, hledger, hvalue⟩ := h
  obtain ⟨hspend, hgross, x, hx, hk⟩ := withdraw_witness haccepts htracks hc
  have hunspent : w.pool.nullifiers (input a.publicInputs 1) = false := by
    rw [hc.common.nullifier]
    exact Bool.eq_false_iff.mpr hc.unspent
  obtain ⟨-, hspent⟩ := hledger.spend hknown hsame hspend (hx.spendsNote ht) hk
    (.inr ⟨x, hx, hk, rfl⟩) hunspent
  have hamounts := hx.amounts
  have hgross_val : (spendPublic a.publicInputs).grossAmount.val = a.grossAmount.toNat := by
    change (toField (input a.publicInputs 4)).val = _
    rw [val_toField hgross, hc.grossAmount]
  omega

/-- **The two liquidity checks never reject.** -/
theorem liquid_exec {w : World} {msg : Msg} {leaves : List Bytes32}
    (h : Conserves env t K w leaves) (htracks : Tracks env w leaves) (hsound : Sound env w)
    (hsender : msg.sender ≠ env.this) (call : Call) :
    Avoids (.reason "insufficient accounting liquidity") (exec env (verify v) w msg call) ∧
      Avoids (.reason "insufficient pool liquidity") (exec env (verify v) w msg call) := by
  have hpaid : Conserves env t K (paidIn env w msg) leaves := h.congr rfl rfl ⟨rfl, rfl, rfl⟩
  have htracks_paid : Tracks env (paidIn env w msg) leaves := htracks.congr rfl rfl rfl
  have hsolvent := (hsound.paidIn hsender).solvent
  obtain ⟨hcov, hswept, hback⟩ := hsolvent
  constructor
  · refine avoids_exec (.inr (.inl rfl)) call fun a _ hc => avoids_checkLiquidity_accounting ?_
    have hgross := gross_le_of_conserves hknown hsame ht haccepts hpaid htracks_paid hc
    omega
  · refine avoids_exec (.inr (.inr rfl)) call fun a _ hc => avoids_checkLiquidity_pool ?_
    have hgross := gross_le_of_conserves hknown hsame ht haccepts hpaid htracks_paid hc
    omega

/-- **Conservation.** In every reachable configuration each leaf commits to one note, the amounts of
the notes whose nullifier is not marked sum to what the accounting says, every accepted spend opens a
leaf and no leaf is opened by two of them, and no call is rejected by the two liquidity checks. -/
theorem conservation {c : Config World (Option Pending)} (h : KnownReachable env t K v c) :
    (∃ notes, Opens t K (leavesOf c.world) notes ∧
      (∀ notes', Opens t K (leavesOf c.world) notes' → notes' = notes) ∧
      unspentValue env t c.world.pool.nullifiers notes +
          c.world.pool.accounting.totalWithdrawnAccounting +
          c.world.pool.accounting.accruedProtocolFees =
        c.world.pool.accounting.totalDepositedAccounting) ∧
    (∀ publicInputs ∈ c.world.spends, ∃ i < (leavesOf c.world).length,
      SpendsLeaf t K publicInputs i) ∧
    (∀ (j k : ℕ) (first second : List Bytes32), c.world.spends[j]? = some first →
      c.world.spends[k]? = some second → j ≠ k →
      ∀ i, SpendsLeaf t K first i → ¬SpendsLeaf t K second i) ∧
    ∀ (msg : Msg) (call : Call), msg.sender ≠ env.this →
      exec env (verify v) c.world msg call ≠
          .error (.reason "insufficient accounting liquidity") ∧
        exec env (verify v) c.world msg call ≠ .error (.reason "insufficient pool liquidity") := by
  have hconserves := (conserves_reachable hknown hsame ht haccepts h).1
  have htracks := (tracks_reachable h.reachable).1
  have hsound := (sound_reachable h.reachable).1
  obtain ⟨notes, hledger, hvalue⟩ := hconserves
  refine ⟨⟨notes, hledger.opens, fun notes' h' => ?_, hvalue⟩, fun p hp => ?_, ?_, ?_⟩
  · exact h'.unique hknown hledger.opens
  · exact (hledger.accepted p hp).2.2
  · intro j k first second hj hk hjk i hi
    exact hledger.no_double_spend hknown hsame ht hj hk hjk hi
  · intro msg call hsender
    exact liquid_exec hknown hsame ht haccepts ⟨notes, hledger, hvalue⟩ htracks hsound hsender call

end Runs

/-! ### A deposit and a withdrawal -/

/-- A hash for a run on fixed inputs: it keeps the secret of a note, tells nullifiers apart and
counts levels, from 3000000 on where the right node is the leaf 2000000. -/
def sampleHash : List F → F
  | [domain, noteSecret, index, _, secret] =>
    if domain = (10001 : ℕ) then secret else index + (4000000 : ℕ) * noteSecret
  | [left, right] => if right = (2000000 : ℕ) then (3000000 : ℕ) else left + 1
  | _ => 0

def sampleTemplates : Templates := documentedTemplates sampleHash

/-- A note whose commitment is its secret. -/
def sampleNote (amount secret : ℕ) : Note := ⟨0, amount, 0, secret⟩

/-- What is hashed in the run. -/
inductive SampleKey
  | note
  | output
  | nullifier (secret i : ℕ)
  | empty (l : ℕ)
  | left (l : ℕ)
  | both
  | above (l : ℕ)

def SampleKey.Valid : SampleKey → Prop
  | .note | .output | .both => True
  | .nullifier secret i => (secret = 100 ∨ secret = 2000000) ∧ i < 1048576
  | .empty l | .left l => l < 20
  | .above l => l < 19

def SampleKey.input : SampleKey → List F
  | .note => (sampleNote 10000000000000000 100).preimage
  | .output => (sampleNote 5000000000000000 2000000).preimage
  | .nullifier secret i => nullifierPreimage secret i (6343 : ℕ) (7 : ℕ)
  | .empty l => [(l : F), (l : F)]
  | .left l => [((100 + l : ℕ) : F), (l : F)]
  | .both => [(100 : ℕ), (2000000 : ℕ)]
  | .above l => [((3000000 + l : ℕ) : F), ((l + 1 : ℕ) : F)]

def SampleKey.digest : SampleKey → ℕ
  | .note => 100
  | .output => 2000000
  | .nullifier secret i => i + 4000000 * secret
  | .empty l => l + 1
  | .left l => 100 + l + 1
  | .both => 3000000
  | .above l => 3000000 + l + 1

def sampleKnown (k : List F) : Prop := ∃ key : SampleKey, key.Valid ∧ k = key.input

theorem domain_ne : ¬(10002 : F) = (10001 : ℕ) := by
  intro h
  have hcast : ((10002 : ℕ) : F) = (10001 : ℕ) := by exact_mod_cast h
  have hnat := natCast_inj_of_lt (by decide) (by decide) hcast
  omega

theorem sampleHash_nullifier (noteSecret leafIndex chainId verifyingContract : F) :
    sampleHash (nullifierPreimage noteSecret leafIndex chainId verifyingContract) =
      leafIndex + (4000000 : ℕ) * noteSecret := by
  simp only [nullifierPreimage, sampleHash, if_neg domain_ne]

theorem sampleHash_note (n : Note) : sampleHash n.preimage = n.noteSecret := by
  simp only [Note.preimage, sampleHash, Nat.cast_ofNat, if_true]

/-- A level over a right node that is not the leaf 2000000. -/
theorem hashPair_sample (x : F) {y : ℕ} (hy : y < 2000000) :
    hashPair sampleTemplates x (y : F) = x + 1 := by
  refine if_neg fun heq => ?_
  have hfield : 2000000 < bn254ScalarField := by decide
  have := natCast_inj_of_lt (by omega) hfield heq
  omega

theorem hashPair_output (x : F) {y : F} (hy : y = (2000000 : ℕ)) :
    hashPair sampleTemplates x y = (3000000 : ℕ) := if_pos hy

theorem sampleHash_input {k : SampleKey} (h : k.Valid) : sampleHash k.input = (k.digest : F) := by
  cases k with
  | note => exact sampleHash_note _
  | output => exact sampleHash_note _
  | nullifier secret i =>
    rw [SampleKey.input, sampleHash_nullifier, ← Nat.cast_mul, ← Nat.cast_add]
    rfl
  | empty l => exact (hashPair_sample _ (lt_trans h (by decide))).trans (Nat.cast_succ l).symm
  | left l =>
    exact (hashPair_sample _ (lt_trans h (by decide))).trans (Nat.cast_succ (100 + l)).symm
  | both => exact hashPair_output (100 : ℕ) rfl
  | above l =>
    have hl : l + 1 < 2000000 := lt_trans (Nat.succ_lt_succ h) (by decide)
    exact (hashPair_sample _ hl).trans (Nat.cast_succ (3000000 + l)).symm

theorem SampleKey.digest_bounds {k : SampleKey} (h : k.Valid) :
    0 < k.digest ∧ k.digest < bn254ScalarField := by
  have hfield : 10000000000000 < bn254ScalarField := by decide
  cases k <;> simp only [Valid, digest] at h ⊢ <;> omega

theorem SampleKey.digest_inj {k k' : SampleKey} (h : k.Valid) (h' : k'.Valid)
    (heq : k.digest = k'.digest) : k = k' := by
  cases k <;> cases k' <;> simp only [Valid, digest] at h h' heq <;>
    simp only [nullifier.injEq, empty.injEq, left.injEq, above.injEq, reduceCtorEq] <;> omega

/-- The chain of the run. -/
def sampleEnv : Env := { plainEnv with
  poseidon2 := fun l r => toWord (hashPair sampleTemplates (toField l) (toField r))
  keccak256 := fun _ => 1 }

theorem hashToField_sample (encoded : Bytes) : hashToField sampleEnv encoded = 1 := rfl

theorem samePoseidon_sample : SamePoseidon sampleEnv.poseidon2 sampleTemplates :=
  ⟨fun _ _ _ _ => isFieldElement_toWord _, fun _ _ _ _ => toField_toWord _⟩

theorem toField_ofNat {n : ℕ} (h : n < bn254ScalarField) :
    toField (BitVec.ofNat 256 n) = (n : F) := by
  have hlt : n < 2 ^ 256 := h.trans (by decide)
  rw [toField, BitVec.toNat_ofNat, Nat.mod_eq_of_lt hlt]

theorem known_sample : Known sampleEnv sampleTemplates sampleKnown := by
  refine ⟨?_, ?_, ?_⟩
  · rintro _ _ ⟨k, hk, rfl⟩ ⟨k', hk', rfl⟩ heq
    have hcast : (k.digest : F) = (k'.digest : F) := by
      rw [← sampleHash_input hk, ← sampleHash_input hk']
      exact heq
    rw [SampleKey.digest_inj hk hk' (natCast_inj_of_lt (SampleKey.digest_bounds hk).2
      (SampleKey.digest_bounds hk').2 hcast)]
  · rintro _ ⟨k, hk, rfl⟩ hzero
    have hcast : (k.digest : F) = ((0 : ℕ) : F) := by
      rw [← sampleHash_input hk, Nat.cast_zero]
      exact hzero
    have hpos := (SampleKey.digest_bounds hk).1
    have := natCast_inj_of_lt (SampleKey.digest_bounds hk).2 (by decide) hcast
    omega
  · rintro n i ⟨k, hk, heq⟩ hi
    obtain ⟨secret, hsecret, hn⟩ : ∃ secret : ℕ, (secret = 100 ∨ secret = 2000000) ∧
        n.noteSecret = (secret : F) := by
      cases k with
      | note => exact ⟨100, .inl rfl, congrArg Note.noteSecret (Note.preimage_injective heq)⟩
      | output => exact ⟨2000000, .inr rfl, congrArg Note.noteSecret (Note.preimage_injective heq)⟩
      | nullifier secret j => exact absurd (List.cons.inj heq).1.symm domain_ne
      | empty l | left l | both | above l => cases congrArg List.length heq
    have hchain : toField sampleEnv.chainId = ((6343 : ℕ) : F) := toField_ofNat (by decide)
    have hthis : toField (addressToBytes32 sampleEnv.this) = ((7 : ℕ) : F) :=
      toField_ofNat (n := 7) (by decide)
    refine ⟨.nullifier secret i, ⟨hsecret, hi⟩, ?_⟩
    rw [hn, hchain, hthis]
    rfl

/-- Where a level adds one to its left node, a node is its first leaf and its height. -/
theorem node_of_succ {t : Templates} {bound : ℕ}
    (hpair : ∀ (x : F) {y : ℕ}, y < bound → hashPair t x (y : F) = x + 1) {leaf : ℕ → F} {v : ℕ → ℕ}
    {n : ℕ} (hleaf : ∀ i, leaf i = (v i : F)) (hv : ∀ i, i ≠ 0 → v i + n ≤ bound) :
    ∀ l ≤ n, ∀ q, node (hashPair t) leaf l q = ((v (2 ^ l * q) + l : ℕ) : F)
  | 0, _, q => by
    rw [node_zero_height, hleaf, pow_zero, Nat.one_mul]
    rfl
  | l + 1, hl, q => by
    have ih := node_of_succ hpair hleaf hv l (Nat.le_of_succ_le hl)
    have hright : v (2 ^ l * (2 * q + 1)) + l < bound := by
      have := hv (2 ^ l * (2 * q + 1)) (Nat.mul_ne_zero (Nat.two_pow_pos l).ne' (by omega))
      omega
    rw [node_succ, ih, ih, hpair _ hright, ← Nat.cast_succ, pow_succ, Nat.mul_assoc]
    rfl

theorem treeKnown_of_succ {t : Templates}
    (hpair : ∀ (x : F) {y : ℕ}, y < 2000000 → hashPair t x (y : F) = x + 1)
    {K : List F → Prop} (hempty : ∀ l < merkleTreeDepth, K [(l : F), (l : F)])
    (hleft : ∀ l < merkleTreeDepth, K [((100 + l : ℕ) : F), (l : F)]) {leaves : List Bytes32}
    (h : leaves = [] ∨ leaves = [100]) : TreeKnown t K leaves := by
  obtain ⟨b, hb, h0⟩ : ∃ b : ℕ, (b = 0 ∨ b = 100) ∧ toField (padded 0 leaves 0) = (b : F) := by
    rcases h with rfl | rfl
    · exact ⟨0, .inl rfl, by rw [padded_of_le (Nat.le_refl 0), toField_zero, Nat.cast_zero]⟩
    · exact ⟨100, .inr rfl, toField_ofNat (n := 100) (by decide)⟩
  have hleaf : ∀ i, toField (padded 0 leaves i) = ((if i = 0 then b else 0 : ℕ) : F) := by
    intro i
    split_ifs with hi
    · rw [hi, h0]
    · have hlength : leaves.length ≤ i := by
        rcases h with rfl | rfl
        · exact Nat.zero_le i
        · exact Nat.one_le_iff_ne_zero.mpr hi
      rw [padded_of_le hlength, toField_zero, Nat.cast_zero]
  intro l p hl hp
  have hnode := node_of_succ hpair hleaf (n := merkleTreeDepth)
    (fun i hi => by rw [if_neg hi]; decide) l hl.le
  have hright : 2 ^ l * (2 * p + 1) ≠ 0 := Nat.mul_ne_zero (Nat.two_pow_pos l).ne' (by omega)
  rw [hnode, hnode, if_neg hright, Nat.zero_add]
  by_cases hp0 : 2 ^ l * (2 * p) = 0
  · rw [if_pos hp0]
    rcases hb with rfl | rfl
    · rw [Nat.zero_add]
      exact hempty l hl
    · exact hleft l hl
  · rw [if_neg hp0, Nat.zero_add]
    exact hempty l hl

/-- The tree of the run, before and after the withdrawal. -/
theorem treeKnown_sample {leaves : List Bytes32}
    (h : leaves ∈ [[], [100], [100, 2000000]]) : TreeKnown sampleTemplates sampleKnown leaves := by
  simp only [List.mem_cons, List.not_mem_nil, or_false, ← or_assoc] at h
  rcases h with h | rfl
  · exact treeKnown_of_succ (fun x _ hy => hashPair_sample x hy) (fun l hl => ⟨.empty l, hl, rfl⟩)
      (fun l hl => ⟨.left l, hl, rfl⟩) h
  have hfirst : toField (100 : Bytes32) = (100 : ℕ) := toField_ofNat (n := 100) (by decide)
  have hsecond : toField (2000000 : Bytes32) = (2000000 : ℕ) :=
    toField_ofNat (n := 2000000) (by decide)
  have hrest : ∀ i, 2 ≤ i → toField (padded (0 : Bytes32) [100, 2000000] i) = ((0 : ℕ) : F) := by
    intro i hi
    rw [padded_of_le hi, toField_zero, Nat.cast_zero]
  -- above the leaves all right nodes are small
  have hlevel : ∀ q, node (hashPair sampleTemplates)
      (fun i => toField (padded (0 : Bytes32) [100, 2000000] i)) 1 q =
        ((if q = 0 then 3000000 else 1 : ℕ) : F) := by
    intro q
    rw [node_succ, node_zero_height, node_zero_height]
    split_ifs with hq
    · subst hq
      exact hashPair_output _ hsecond
    · rw [hrest _ (by omega), hrest _ (by omega), hashPair_sample _ (by decide), Nat.cast_zero,
        zero_add, Nat.cast_one]
  intro l p hl hp
  rcases l with _ | l
  · rw [node_zero_height, node_zero_height]
    by_cases hp0 : p = 0
    · subst hp0
      refine ⟨.both, trivial, ?_⟩
      change [toField 100, toField 2000000] = _
      rw [hfirst, hsecond]
      rfl
    · rw [hrest _ (by omega), hrest _ (by omega)]
      exact ⟨.empty 0, (by decide : 0 < 20), rfl⟩
  · have hdepth : l < 19 := Nat.lt_of_succ_lt_succ hl
    have hnode := node_of_succ (fun x _ hy => hashPair_sample x hy) hlevel (n := 19)
      (fun i hi => by rw [if_neg hi]; decide) l hdepth.le
    have hright : 2 ^ l * (2 * p + 1) ≠ 0 := Nat.mul_ne_zero (Nat.two_pow_pos l).ne' (by omega)
    rw [Nat.add_comm l 1, ← node_node, ← node_node, hnode, hnode, if_neg hright, Nat.add_comm 1 l]
    by_cases hp0 : 2 ^ l * (2 * p) = 0
    · rw [if_pos hp0]
      exact ⟨.above l, hdepth, rfl⟩
    · rw [if_neg hp0, Nat.add_comm 1 l]
      exact ⟨.empty (l + 1), hl, rfl⟩

/-- The public inputs of a deposit, and the deposit. -/
def sampleInputs (amount commitment : ℕ) : List Bytes32 :=
  [BitVec.ofNat 256 commitment, BitVec.ofNat 256 amount, 6343, 7, 1, 1]

def sampleDeposit (amount commitment : ℕ) : Call :=
  .deposit (List.replicate 256 0) (sampleInputs amount commitment) [1]

theorem isFieldElement_ofNat {n : ℕ} (h : n < bn254ScalarField) :
    isFieldElement (BitVec.ofNat 256 n) := by
  have hlt : n < 2 ^ 256 := h.trans (by decide)
  rw [isFieldElement, BitVec.toNat_ofNat, Nat.mod_eq_of_lt hlt]
  exact h

/-- Verifiers that accept what has a witness with inputs of `K`. -/
noncomputable def sampleVerifiers (K : List F → Prop) : Verifiers :=
  exactVerifiers sampleTemplates merkleTreeDepth K

/-- The witness of a deposit. -/
def depositWitness (n : Note) : DepositWitness :=
  ⟨n.assetId, n.ownerCommitment, n.noteSecret, toField 6343, toField 7, toField 1, toField 1⟩

section Deposit
variable {t : Templates} {n : Note} {amount commitment : ℕ}

theorem note_depositWitness (hsupported : isSupportedDenomination amount)
    (hworth : n.amount = (amount : F)) :
    (depositWitness n).note (depositPublic (sampleInputs amount commitment)).amount = n := by
  have hamount : toField (BitVec.ofNat 256 amount) = (amount : F) :=
    toField_ofNat (lt_of_isSupportedDenomination hsupported)
  change (⟨n.assetId, toField (BitVec.ofNat 256 amount), n.ownerCommitment, n.noteSecret⟩ : Note) =
    n
  rw [hamount, ← hworth]

theorem deposit_circuit (ht : Documented t) (hsupported : isSupportedDenomination amount)
    (hlt : commitment < bn254ScalarField) (hopen : (commitment : F) = poseidonNoteCommitment t n)
    (hworth : n.amount = (amount : F)) :
    DepositCircuit t (depositPublic (sampleInputs amount commitment)) (depositWitness n) := by
  have hcommitment : toField (BitVec.ofNat 256 commitment) = (commitment : F) := toField_ofNat hlt
  have hbits : ∀ {m b : ℕ}, m < 2 ^ b → t.num2Bits b (m : F) := fun {m b} h =>
    (ht.num2Bits b _).mpr ⟨m, h, rfl⟩
  have hamount : toField (BitVec.ofNat 256 amount) = (amount : F) :=
    toField_ofNat (lt_of_isSupportedDenomination hsupported)
  have hsmall : amount < 2 ^ 128 := (le_of_supported hsupported).trans_lt (by decide)
  have hone : toField 1 = ((1 : ℕ) : F) := toField_ofNat (n := 1) (by decide)
  have hthis : toField 7 = ((7 : ℕ) : F) := toField_ofNat (n := 7) (by decide)
  have hchain : toField 6343 = (6343 : F) := toField_ofNat (n := 6343) (by decide)
  refine ⟨?_, rfl, rfl, rfl, rfl, ?_, ?_, ?_, ?_, ?_, ?_, ?_⟩
  · change (toField 6343 - 6343) * _ = 0
    rw [hchain, sub_self, zero_mul]
  · change t.num2Bits 128 (toField (BitVec.ofNat 256 amount))
    rw [hamount]
    exact hbits hsmall
  · change t.num2Bits 254 (toField (BitVec.ofNat 256 commitment))
    rw [hcommitment]
    exact hbits (hlt.trans (by decide))
  · change t.num2Bits 160 (toField 7)
    rw [hthis]
    exact hbits (by decide)
  · change t.num2Bits 254 (toField 1)
    rw [hone]
    exact hbits (by decide)
  · change t.num2Bits 254 (toField 1)
    rw [hone]
    exact hbits (by decide)
  · exact amountInDenoms_iff.mpr ⟨_, hsupported, hamount⟩
  · rw [note_depositWitness hsupported hworth, ← hopen]
    exact hcommitment

theorem deposit_preimages {K : List F → Prop} (hsupported : isSupportedDenomination amount)
    (hworth : n.amount = (amount : F)) (hk : K n.preimage) :
    ∀ k ∈ (depositWitness n).preimages (depositPublic (sampleInputs amount commitment)), K k := by
  intro k hmem
  rw [List.mem_singleton.mp hmem, note_depositWitness hsupported hworth]
  exact hk

/-- **A deposit that passes its checks**, of a known note, where every digest is one. -/
theorem deposit_checked {env : Env} (ht : Documented t) {K : List F → Prop} {s : Storage}
    {msg : Msg} (hplace : env.chainId = 6343 ∧ env.this = 7)
    (hdigest : ∀ encoded, hashToField env encoded = 1) (hsupported : isSupportedDenomination amount)
    (hvalue : msg.value = amount) (hpos : 0 < commitment) (hlt : commitment < bn254ScalarField)
    (hopen : (commitment : F) = poseidonNoteCommitment t n) (hworth : n.amount = (amount : F))
    (hk : K n.preimage) (hfresh : ¬s.commitments (BitVec.ofNat 256 commitment)) :
    DepositChecked env (verify (exactVerifiers t merkleTreeDepth K)) s msg
      (List.replicate 256 0) (sampleInputs amount commitment) [1]
      (sampleDeposit amount commitment).selector := by
  have hfield := isFieldElement_ofNat hlt
  have hfield_amount := isFieldElement_ofNat (lt_of_isSupportedDenomination hsupported)
  have hword : ∀ {m : ℕ}, m < bn254ScalarField → (BitVec.ofNat 256 m).toNat = m := fun {m} h => by
    have hlt : m < 2 ^ 256 := h.trans (by decide)
    rw [BitVec.toNat_ofNat, Nat.mod_eq_of_lt hlt]
  have hamount := hword (lt_of_isSupportedDenomination hsupported)
  have hamount_pos := pos_of_supported hsupported
  have hne : ∀ {m : ℕ}, m < bn254ScalarField → 0 < m → BitVec.ofNat 256 m ≠ 0 := by
    intro m hm hpos hzero
    have hnat := congrArg BitVec.toNat hzero
    rw [hword hm] at hnat
    exact hpos.ne' hnat
  refine ⟨rfl, hne hlt hpos, hfield, hfresh, hamount.trans hvalue.symm, ?_, ?_, hplace.1.symm, ?_,
    by decide, by decide, ?_, ?_, ?_⟩
  · rw [hvalue]
    exact hamount_pos
  · rw [hvalue]
    exact hsupported
  · rw [hplace.2]
    rfl
  · exact (hdigest _).symm
  · exact (hdigest _).symm
  · have hfields : ∀ x ∈ sampleInputs amount commitment, isFieldElement x := by
      simp only [sampleInputs, List.forall_mem_cons]
      exact ⟨hfield, hfield_amount, by decide, by decide, by decide, by decide,
        fun _ hx => absurd hx List.not_mem_nil⟩
    have hnonzero := hne (lt_of_isSupportedDenomination hsupported) hamount_pos
    have hchain : isSupportedMegaEthChain 6343 := by decide
    have haddress : (7 : Bytes32).toNat < firstNonAddressValue := by decide
    have hone_ne : (1 : Bytes32) ≠ 0 := by decide
    exact (verify_deposit_iff rfl).mpr ⟨List.length_replicate, hfields, hnonzero, hchain,
      haddress, ⟨hone_ne, hone_ne⟩, exactVerifiers_deposit.mpr ⟨_,
        deposit_circuit ht hsupported hlt hopen hworth, deposit_preimages hsupported hworth hk⟩⟩

end Deposit

/-- A deposit of a sample note that passes its checks. -/
theorem sampleDeposit_checked {K : List F → Prop} {s : Storage} {secret : ℕ} (hpos : 0 < secret)
    (hlt : secret < bn254ScalarField) (hk : K (sampleNote 5000000000000000 secret).preimage)
    (hfresh : ¬s.commitments (BitVec.ofNat 256 secret)) :
    DepositChecked sampleEnv (verify (sampleVerifiers K)) s plainMsg
      (List.replicate 256 0) (sampleInputs 5000000000000000 secret) [1]
      (sampleDeposit 5000000000000000 secret).selector :=
  deposit_checked (n := sampleNote 5000000000000000 secret)
    (documented_documentedTemplates sampleHash) ⟨rfl, rfl⟩ hashToField_sample (by decide) rfl hpos
    hlt (sampleHash_note (sampleNote 5000000000000000 secret)).symm rfl hk hfresh

/-- The public inputs of a withdrawal from the first leaf, whose output is the leaf 2000000. -/
def sampleSpend (root : Bytes32) (secret gross : ℕ) : List Bytes32 :=
  [root, BitVec.ofNat 256 (4000000 * secret), 2000000, 11, BitVec.ofNat 256 gross,
    BitVec.ofNat 256 (gross * 33 / 10000), 6343, 7, 1, 1]

/-- Its witness, for what the withdrawal leaves of the note. -/
def sampleWitness (leaves : List Bytes32) (secret gross output : ℕ) : WithdrawWitness :=
  { assetId := 0, oldAmount := (gross + output : ℕ), ownerCommitment := 0, noteSecret := secret
    leafIndex := 0, withdrawalDestination := toField 11, outputAmount := output
    outputOwnerCommitment := 0, outputNoteSecret := (2000000 : ℕ)
    pathElements := siblings (hashPair sampleTemplates)
      (fun i => toField (padded 0 leaves i)) 0 0 merkleTreeDepth
    expectedProofContextHash := toField 1, expectedEncryptedOutputNoteHash := toField 1 }

section Withdrawal
variable {leaves : List Bytes32} {root : Bytes32} {secret gross output : ℕ}
  (hleaf : toField (padded 0 leaves 0) = (secret : F))
include hleaf

theorem withdraw_circuit
    (hroot : toField root = node (hashPair sampleTemplates) (fun i => toField (padded 0 leaves i))
      merkleTreeDepth 0)
    (hold : isSupportedDenomination (gross + output)) (hgross : isSupportedDenomination gross)
    (houtput : output = 0 ∨ isSupportedDenomination output)
    (hsecret : 4000000 * secret < bn254ScalarField) :
    WithdrawCircuit sampleTemplates merkleTreeDepth (spendPublic (sampleSpend root secret gross))
      (sampleWitness leaves secret gross output) := by
  have hbits : ∀ {m b : ℕ}, m < 2 ^ b → sampleTemplates.num2Bits b (m : F) :=
    fun hm => ⟨_, hm, rfl⟩
  have hword : ∀ {m : ℕ}, m < bn254ScalarField → toField (BitVec.ofNat 256 m) = (m : F) :=
    toField_ofNat
  have hsmall : gross + output < 2 ^ 128 := (le_of_supported hold).trans_lt (by decide)
  have hgross_word := hword (lt_of_isSupportedDenomination hgross)
  have hfee_word : toField (BitVec.ofNat 256 (gross * 33 / 10000)) =
      ((gross * 33 / 10000 : ℕ) : F) :=
    hword (lt_of_le_of_lt (by omega) (lt_of_isSupportedDenomination hgross))
  have hone : toField 1 = ((1 : ℕ) : F) := hword (m := 1) (by decide)
  have hthis : toField 7 = ((7 : ℕ) : F) := hword (m := 7) (by decide)
  have hchain : toField 6343 = (6343 : F) := hword (m := 6343) (by decide)
  have hnew : toField 2000000 = ((2000000 : ℕ) : F) := hword (m := 2000000) (by decide)
  have hone_bits : sampleTemplates.num2Bits 254 (toField 1) := hone ▸ hbits (by decide)
  have hne : ∀ {x : F} {m : ℕ}, x = (m : F) → 0 < m → m < bn254ScalarField → x ≠ 0 := by
    rintro x m rfl hpos hlt heq
    rw [← Nat.cast_zero] at heq
    exact hpos.ne' (natCast_inj_of_lt hlt (by decide) heq)
  refine
    { pathElements := length_siblings ..
      supportedChain := ?_
      destination := rfl
      proofContextHash := rfl
      encryptedOutputNoteHash := rfl
      oldAmountBits := hbits hsmall
      grossAmountBits := ?_
      outputAmountBits := hbits (by omega)
      proofContextHashBits := hone_bits
      encryptedOutputNoteHashBits := hone_bits
      outputCommitmentIsZero := ?_
      encryptedOutputNoteHashIsZero := ?_
      conservation := ?_
      oldAmountDenom := amountInDenoms_iff.mpr ⟨_, hold, rfl⟩
      grossAmountDenom := amountInDenoms_iff.mpr ⟨_, hgross, hgross_word⟩
      outputAmountDenom := ?_
      feeBits := ?_
      outputNote := ?_
      verifyingContractBits := ?_
      computedNullifier := ?_
      computedRoot := ?_ }
  · change (toField 6343 - 6343) * _ = 0
    rw [hchain, sub_self, zero_mul]
  · change sampleTemplates.num2Bits 128 (toField (BitVec.ofNat 256 gross))
    rw [hgross_word]
    exact hbits (by omega)
  · exact (if_neg (hne hnew (by decide) (by decide))).symm
  · exact (if_neg (hne hone (by decide) (by decide))).symm
  · exact (Nat.cast_add gross output).trans (congrArg (· + (output : F)) hgross_word.symm)
  · refine amountInDenomsOrZero_iff.mpr (houtput.imp (fun h => ?_) fun h => ⟨_, h, rfl⟩)
    change ((output : ℕ) : F) = 0
    rw [h, Nat.cast_zero]
  · change sampleTemplates.num2Bits 128 (toField (BitVec.ofNat 256 (gross * 33 / 10000)))
    rw [hfee_word]
    exact hbits (by omega)
  · exact hnew.trans (sampleHash_note (sampleWitness leaves secret gross output).outputNote).symm
  · change sampleTemplates.num2Bits 160 (toField 7)
    rw [hthis]
    exact hbits (by decide)
  · have hhash := sampleHash_nullifier (secret : F) 0 (toField 6343) (toField 7)
    rw [zero_add, ← Nat.cast_mul] at hhash
    exact (hword hsecret).trans hhash.symm
  · have hclimb := @climb_leaf _ (hashPair sampleTemplates) (fun i => toField (padded 0 leaves i))
      merkleTreeDepth 0 (Nat.two_pow_pos _)
    have hnote : toField (padded 0 leaves 0) =
        poseidonNoteCommitment sampleTemplates (sampleWitness leaves secret gross output).note :=
      hleaf.trans (sampleHash_note (sampleWitness leaves secret gross output).note).symm
    rw [hnote, ← hroot] at hclimb
    refine (documented_documentedTemplates sampleHash).binaryMerkleRoot _ _ _ _ _
      (length_siblings ..) |>.mpr ⟨?_, ?_⟩
    · exact (ZMod.val_zero (n := bn254ScalarField)).trans_lt (Nat.two_pow_pos _)
    · rw [show (sampleWitness leaves secret gross output).leafIndex.val = 0 from ZMod.val_zero]
      exact hclimb.symm

theorem withdraw_preimages {K : List F → Prop} (htree : TreeKnown sampleTemplates K leaves)
    (hnote : K (sampleNote (gross + output) secret).preimage)
    (houtput : K (sampleNote output 2000000).preimage)
    (hnullifier : K (nullifierPreimage (secret : F) ((0 : ℕ) : F) (6343 : ℕ) (7 : ℕ))) :
    ∀ k ∈ (sampleWitness leaves secret gross output).preimages sampleTemplates
      (spendPublic (sampleSpend root secret gross)), K k := by
  have hindex : (sampleWitness leaves secret gross output).leafIndex.val = 0 := ZMod.val_zero
  have hthis : toField 7 = ((7 : ℕ) : F) := toField_ofNat (n := 7) (by decide)
  have hchain : toField 6343 = ((6343 : ℕ) : F) := toField_ofNat (n := 6343) (by decide)
  have hfirst : poseidonNoteCommitment sampleTemplates
      (sampleWitness leaves secret gross output).note = toField (padded 0 leaves 0) :=
    (sampleHash_note (sampleWitness leaves secret gross output).note).trans hleaf.symm
  simp only [WithdrawWitness.preimages, spendPreimages, List.forall_mem_cons]
  refine ⟨hnote, houtput, ?_, ?_⟩
  · change K (nullifierPreimage (secret : F) 0 (toField 6343) (toField 7))
    rwa [hthis, hchain, ← Nat.cast_zero]
  · unfold pathPreimages
    rw [hindex, hfirst]
    simp only [List.forall_mem_map]
    exact htree.pairs (Nat.two_pow_pos _)

end Withdrawal

/-! ### The run -/

/-- Verifiers that accept the two proofs of the run. -/
def runVerifiers : Verifiers :=
  pairVerifiers (sampleInputs 10000000000000000 100) (sampleSpend 120 100 5000000000000000)

theorem toField_runLeaf : toField (padded (0 : Bytes32) [100] 0) = ((100 : ℕ) : F) :=
  toField_ofNat (n := 100) (by decide)

theorem toField_runRoot : toField 120 = node (hashPair sampleTemplates)
    (fun i => toField (padded (0 : Bytes32) [100] i)) merkleTreeDepth 0 := by
  have hleaves : ∀ i, toField (padded (0 : Bytes32) [100] i) =
      ((if i = 0 then 100 else 0 : ℕ) : F) := by
    intro i
    split_ifs with hi
    · rw [hi, toField_runLeaf]
    · rw [padded_of_le (Nat.one_le_iff_ne_zero.mpr hi), toField_zero, Nat.cast_zero]
  rw [node_of_succ (fun x _ hy => hashPair_sample x hy) hleaves (n := merkleTreeDepth)
    (fun i hi => by rw [if_neg hi]; decide) merkleTreeDepth le_rfl, Nat.mul_zero, if_pos rfl]
  exact toField_ofNat (n := 120) (by decide)

theorem accepts_runVerifiers :
    Accepts sampleTemplates merkleTreeDepth sampleKnown runVerifiers :=
  accepts_pairVerifiers
    (deposit_circuit (n := sampleNote 10000000000000000 100)
      (documented_documentedTemplates sampleHash) (by decide) (by decide)
      (sampleHash_note (sampleNote 10000000000000000 100)).symm rfl)
    (deposit_preimages (by decide) rfl ⟨.note, trivial, rfl⟩)
    (withdraw_circuit toField_runLeaf toField_runRoot (by decide) (by decide)
      (.inr (show isSupportedDenomination 5000000000000000 by decide)) (by decide))
    (withdraw_preimages toField_runLeaf (treeKnown_sample (by decide)) ⟨.note, trivial, rfl⟩
      ⟨.output, trivial, rfl⟩ ⟨.nullifier 100 0, ⟨.inl rfl, by decide⟩, rfl⟩)

/-- A deposit of 0.01 ETH, and a withdrawal of half of it. -/
def runMoves : List (Move Call) :=
  [.call { plainMsg with value := 10000000000000000 } (sampleDeposit 10000000000000000 100),
    .call exitMsg (.withdrawNoteBounded (List.replicate 256 0)
      (sampleSpend 120 100 5000000000000000) 400000000 11 5000000000000000 [1] 0 16500000000000),
    .returns]

def runPlay : Option (Config World (Option Pending)) :=
  play (playMove sampleEnv (verify runVerifiers))
    (fun w => leavesOf w ∈ [[], [100], [100, 2000000]]) ⟨freshWorld sampleEnv 10000000000000000, []⟩
    runMoves

theorem exists_runPlay {α : Type} {f : Config World (Option Pending) → α} {x : α}
    (h : runPlay.map f = some x) :
    ∃ c, KnownReachable sampleEnv sampleTemplates sampleKnown runVerifiers c ∧ f c = x := by
  obtain ⟨c, hc, hf⟩ := Option.map_eq_some_iff.mp h
  have hdeployed : Deployed sampleEnv (freshWorld sampleEnv 10000000000000000) :=
    freshWorld_deployed (by decide) _
  have htree : TreeKnown sampleTemplates sampleKnown
      (leavesOf (freshWorld sampleEnv 10000000000000000)) := by
    rw [(tracks_deployed hdeployed).leavesOf_eq]
    exact treeKnown_sample (by decide)
  exact ⟨c, ⟨_, hdeployed, htree,
    .of_play (@step_of_playMove _ (· = verify runVerifiers) _ rfl)
      (fun w hw => treeKnown_sample (of_decide_eq_true hw)) hc⟩, hf⟩

/-- After the withdrawal its output is what is unspent, and the spend opens a leaf. -/
theorem conservation_spent : ∃ c,
    KnownReachable sampleEnv sampleTemplates sampleKnown runVerifiers c ∧
    c.world.pool.accounting = ⟨16500000000000, 0, 10000000000000000, 4983500000000000⟩ ∧
    (∃ notes, Opens sampleTemplates sampleKnown (leavesOf c.world) notes ∧
      unspentValue sampleEnv sampleTemplates c.world.pool.nullifiers notes = 5000000000000000) ∧
    ∃ publicInputs ∈ c.world.spends, ∃ i < 2,
      SpendsLeaf sampleTemplates sampleKnown publicInputs i := by
  obtain ⟨c, hreach, hfacts⟩ := @exists_runPlay _
    (fun c => (c.world.pool.accounting, (leavesOf c.world).length, c.world.spends))
    (⟨16500000000000, 0, 10000000000000000, 4983500000000000⟩, 2,
      [sampleSpend 120 100 5000000000000000]) (by decide +kernel)
  obtain ⟨haccounting, hrest⟩ := Prod.mk.inj hfacts
  obtain ⟨hlength, hspends⟩ := Prod.mk.inj hrest
  obtain ⟨⟨notes, hopens, -, hvalue⟩, hopened, -⟩ := conservation known_sample samePoseidon_sample
    (documented_documentedTemplates sampleHash) accepts_runVerifiers hreach
  rw [haccounting] at hvalue
  dsimp only at hvalue
  rw [hlength] at hopened
  have hspend : sampleSpend 120 100 5000000000000000 ∈ c.world.spends := by
    rw [hspends]
    exact List.mem_singleton_self _
  exact ⟨c, hreach, haccounting, ⟨notes, hopens, by omega⟩, _, hspend, hopened _ hspend⟩

end Nullark.Pool.Conservation
