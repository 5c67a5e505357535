import Nullark.Indexer.Anonymity
import Nullark.Js.Basic
import Nullark.Pool.Conservation

/-! # Private balances

The notes of a wallet, its balance, and the check of the pool's solvency. The wallets of all leaves,
which mark the nullifiers they see in the events, hold between them what the accounting leaves.

* `derivePrivateBalance`, `markSpent`, `assertPoolSolvent`.
* `sum_balances`: what the wallets hold between them, over any marks.
* `private_balances`: in a reachable pool, with the claims for which the solvency check passes. -/

namespace Nullark.Core.Notes

open Nullark.Lib.Rollback Nullark.Lib.Hex Nullark.Lib.Ledger Nullark.Evm.Basic
open Nullark.Pool.Interface Nullark.Pool.Context Nullark.Pool.Tree Nullark.Pool.Actions
open Nullark.Pool.Calls Nullark.Pool.Effects Nullark.Pool.History Nullark.Pool.Solvency
open Nullark.Pool.Conservation Nullark.Pool.Journal Nullark.Circuit.Field Nullark.Circuit.Gadgets
open Nullark.Verifier.ActionRouting Nullark.Indexer.Anonymity Nullark.Js.Basic

/-! ### The code -/

structure ShieldedNote where
  commitment : Text
  nullifier : Text
  ownerViewingKeyId : Text
  amount : ℤ
  spent : Bool
  deriving DecidableEq

structure PublicPoolAccounting where
  deposited : ℤ
  withdrawnNet : ℤ
  accruedProtocolFees : ℤ
  feeSweptAccounting : ℤ

def derivePrivateBalance (notes : List ShieldedNote) (viewingKeyId : Text) : ℤ :=
  notes.foldl (fun balance note =>
    if note.ownerViewingKeyId ≠ viewingKeyId ∨ note.spent then balance
    else balance + note.amount) 0

def markSpent (notes : List ShieldedNote) (nullifier : Text) : List ShieldedNote :=
  notes.map fun note => if note.nullifier = nullifier then { note with spent := true } else note

def assertPoolSolvent (accounting : PublicPoolAccounting) (unspentPrivateNotes : ℤ) : Bool :=
  if accounting.feeSweptAccounting > accounting.accruedProtocolFees then false
  else
    let unsweptFees := accounting.accruedProtocolFees - accounting.feeSweptAccounting
    accounting.deposited ≥ accounting.withdrawnNet + unspentPrivateNotes + unsweptFees

/-! ### Balances -/

/-- What a note is worth to the holder of a key. -/
def worth (viewingKeyId : Text) (note : ShieldedNote) : ℤ :=
  if note.ownerViewingKeyId = viewingKeyId ∧ note.spent = false then note.amount else 0

theorem foldl_balance (viewingKeyId : Text) : ∀ (notes : List ShieldedNote) (balance : ℤ),
    notes.foldl (fun balance note =>
      if note.ownerViewingKeyId ≠ viewingKeyId ∨ note.spent then balance
      else balance + note.amount) balance =
        balance + (notes.map (worth viewingKeyId)).sum
  | [], _ => (Int.add_zero _).symm
  | note :: notes, balance => by
    rw [List.foldl_cons, foldl_balance viewingKeyId notes, List.map_cons, List.sum_cons]
    unfold worth
    by_cases hkey : note.ownerViewingKeyId = viewingKeyId
    · rcases hspent : note.spent with _ | _
      · rw [if_neg (by simp [hkey]), if_pos ⟨hkey, rfl⟩, Int.add_assoc]
      · rw [if_pos (.inr rfl), if_neg (by simp), Int.zero_add]
    · rw [if_pos (.inl hkey), if_neg fun h => hkey h.1, Int.zero_add]

theorem derivePrivateBalance_eq (notes : List ShieldedNote) (viewingKeyId : Text) :
    derivePrivateBalance notes viewingKeyId = (notes.map (worth viewingKeyId)).sum := by
  unfold derivePrivateBalance
  rw [foldl_balance, Int.zero_add]

/-- The notes after several nullifiers. -/
def markAll (notes : List ShieldedNote) (nullifiers : List Text) : List ShieldedNote :=
  nullifiers.foldl markSpent notes

/-- **Marks commute and repeat**: a note is spent when it was, or when its nullifier is named. -/
theorem markAll_eq : ∀ (nullifiers : List Text) (notes : List ShieldedNote),
    markAll notes nullifiers = notes.map fun note =>
      { note with spent := note.spent || decide (note.nullifier ∈ nullifiers) }
  | [], notes => by simp [markAll]
  | nullifier :: nullifiers, notes => by
    have ih := markAll_eq nullifiers (markSpent notes nullifier)
    unfold markAll at *
    rw [List.foldl_cons, ih]
    unfold markSpent
    rw [List.map_map]
    refine List.map_congr_left fun note _ => ?_
    by_cases hnullifier : note.nullifier = nullifier
    · simp [hnullifier]
    · simp [hnullifier]

/-- **What the holders of the keys have between them**: every note that is not spent, once. -/
theorem sum_balances {keys : List Text} (hnodup : keys.Nodup) : ∀ {notes : List ShieldedNote},
    (∀ note ∈ notes, note.ownerViewingKeyId ∈ keys) →
    (keys.map (derivePrivateBalance notes)).sum =
      (notes.map fun note => if note.spent then 0 else note.amount).sum
  | [], _ => by
    have hempty : derivePrivateBalance [] = fun _ => 0 := rfl
    simp [hempty]
  | note :: notes, hkeys => by
    have ih := sum_balances hnodup fun n hn => hkeys n (List.mem_cons_of_mem _ hn)
    have hsplit : ∀ k, derivePrivateBalance (note :: notes) k =
        worth k note + derivePrivateBalance notes k := fun k => by
      rw [derivePrivateBalance_eq, derivePrivateBalance_eq, List.map_cons, List.sum_cons]
    have hone : (keys.map fun k => worth k note).sum = if note.spent then 0 else note.amount := by
      rw [← List.sum_toFinset _ hnodup]
      unfold worth
      have hmem : note.ownerViewingKeyId ∈ keys.toFinset :=
        List.mem_toFinset.mpr (hkeys note List.mem_cons_self)
      rcases note.spent with _ | _
      · simp only [and_true, Finset.sum_ite_eq, if_pos hmem, Bool.false_eq_true, if_false]
      · simp
    rw [List.map_cons, List.sum_cons, ← ih, ← hone, ← List.sum_map_add]
    exact congrArg List.sum (List.map_congr_left fun k _ => hsplit k)

/-! ### The notes of the pool -/

/-- The accounting of the pool. -/
def accountingOf (a : Accounting) : PublicPoolAccounting :=
  ⟨a.totalDepositedAccounting, a.totalWithdrawnAccounting, a.accruedProtocolFees,
    a.feeSweptAccounting⟩

/-- **Wallets hold the notes of the leaves**, one each, with their nullifiers. -/
structure Held (env : Env) (t : Templates) (notes : List Note) (held : List ShieldedNote) :
    Prop where
  length : held.length = notes.length
  note : ∀ (i : ℕ) n h, notes[i]? = some n → held[i]? = some h →
    h.nullifier = hex32 (nullifierOf env t n i) ∧ h.amount = n.amount.val ∧ h.spent = false

/-- The nullifiers of the events, as they are printed. -/
def spentTexts (logs : List Event) : List Text := (logs.filterMap spentNullifier).map hex32

theorem sum_map_range {α : Type} (f : α → ℤ) : ∀ l : List α,
    (l.map f).sum = ∑ i ∈ Finset.range l.length, (l[i]?).elim 0 f
  | [] => rfl
  | a :: l => by
    rw [List.map_cons, List.sum_cons, sum_map_range f l, List.length_cons, Finset.sum_range_succ',
      Int.add_comm]
    rfl

/-- What is left of the notes when their wallets have seen the events. -/
theorem sum_held {env : Env} {t : Templates} {notes : List Note} {held : List ShieldedNote}
    (h : Held env t notes held) {logs : List Event} {nullifiers : Bytes32 → Bool}
    (hmarked : ∀ ν, nullifiers ν = true ↔ ν ∈ logs.filterMap spentNullifier) :
    ((markAll held (spentTexts logs)).map fun note => if note.spent then 0 else note.amount).sum =
      unspentValue env t nullifiers notes := by
  rw [markAll_eq, List.map_map, sum_map_range, h.length]
  unfold unspentValue unspent
  rw [List.length_map]
  push_cast
  refine Finset.sum_congr rfl fun i hi => ?_
  have hlt := Finset.mem_range.mp hi
  obtain ⟨n, hn⟩ : ∃ n, notes[i]? = some n := ⟨_, List.getElem?_eq_getElem hlt⟩
  obtain ⟨x, hh⟩ : ∃ x, held[i]? = some x :=
    ⟨_, List.getElem?_eq_getElem (h.length.symm ▸ hlt)⟩
  obtain ⟨hnullifier, hamount, hspent⟩ := h.note i n x hn hh
  have hflag : (x.nullifier ∈ spentTexts logs) ↔ nullifiers (nullifierOf env t n i) = true := by
    rw [hnullifier, hmarked, spentTexts, List.mem_map]
    constructor
    · rintro ⟨ν, hν, heq⟩
      rwa [← hex32_injective heq]
    · exact fun hν => ⟨_, hν, rfl⟩
  unfold spentAt
  rw [hn, hh, Option.elim_some, Option.any_some, List.getD_eq_getElem?_getD, List.getElem?_map, hn]
  dsimp only [Function.comp_apply, Option.map_some, Option.getD_some]
  rw [hspent, Bool.false_or, hamount]
  by_cases hν : nullifiers (nullifierOf env t n i) = true
  · rw [if_pos hν, decide_eq_true (hflag.mpr hν)]
    rfl
  · rw [if_neg hν, decide_eq_false fun hmem => hν (hflag.mp hmem)]
    rfl

/-- Where no withdrawal is open no nullifier is still to come. -/
theorem no_nullifier_toCome {ps : List (Option Pending)} (h : openWithdrawals ps = 0) :
    (toCome ps).filterMap spentNullifier = [] := by
  obtain ⟨hwithdrawals, -, htransfers, hbalanced⟩ := total_toCome ps
  have hlength := length_spentNullifiers (toCome ps)
  rw [hbalanced.spends, hwithdrawals, htransfers, h] at hlength
  exact List.eq_nil_of_length_eq_zero hlength

theorem assertPoolSolvent_iff {a : PublicPoolAccounting} {unspent v : ℤ}
    (hswept : a.feeSweptAccounting ≤ a.accruedProtocolFees)
    (hvalue : unspent + a.withdrawnNet + a.accruedProtocolFees = a.deposited) :
    assertPoolSolvent a v = true ↔ v ≤ unspent + a.feeSweptAccounting := by
  unfold assertPoolSolvent
  rw [if_neg (not_lt.mpr hswept)]
  dsimp only
  rw [decide_eq_true_iff]
  constructor <;> intro hle <;> linarith

/-- **The balances of the wallets** of all leaves sum to what the accounting leaves, when they have
seen the events and no withdrawal is open; the solvency check passes for claims up to that and the
fees that were swept. -/
theorem private_balances {env : Env} {t : Templates} {K : List F → Prop} {v : Verifiers}
    (hknown : Known env t K) (hsame : SamePoseidon env.poseidon2 t) (ht : Documented t)
    (haccepts : Accepts t merkleTreeDepth K v) {c : Config World (Option Pending)}
    (h : KnownReachable env t K v c) (hopen : openWithdrawals (c.frames.map Frame.pending) = 0)
    {notes : List Note} (hopens : Opens t K (leavesOf c.world) notes) {held : List ShieldedNote}
    (hheld : Held env t notes held) {keys : List Text} (hnodup : keys.Nodup)
    (hkeys : ∀ note ∈ held, note.ownerViewingKeyId ∈ keys) :
    (keys.map (derivePrivateBalance (markAll held (spentTexts c.world.logs)))).sum +
          c.world.pool.accounting.totalWithdrawnAccounting +
          c.world.pool.accounting.accruedProtocolFees =
        c.world.pool.accounting.totalDepositedAccounting ∧
      ∀ claimed : ℤ, assertPoolSolvent (accountingOf c.world.pool.accounting) claimed = true ↔
        claimed ≤ (keys.map (derivePrivateBalance (markAll held (spentTexts c.world.logs)))).sum +
          c.world.pool.accounting.feeSweptAccounting := by
  obtain ⟨notes', hledger, hvalue⟩ := (conserves_reachable hknown hsame ht haccepts h).1
  obtain rfl := hledger.opens.unique hknown hopens
  have hjournal := (nested_recounts h.reachable).head
  have hmarked : ∀ ν, c.world.pool.nullifiers ν = true ↔
      ν ∈ c.world.logs.filterMap spentNullifier := by
    intro ν
    rw [hjournal.nullifiers, List.filterMap_append, no_nullifier_toCome hopen, List.append_nil]
  have howners : ∀ note ∈ markAll held (spentTexts c.world.logs),
      note.ownerViewingKeyId ∈ keys := by
    intro note hnote
    rw [markAll_eq, List.mem_map] at hnote
    obtain ⟨n, hn, rfl⟩ := hnote
    exact hkeys n hn
  have hsum := (sum_balances hnodup howners).trans (sum_held hheld hmarked)
  have hswept := (sound_reachable h.reachable).1.solvent.swept_le
  have htotal : (unspentValue env t c.world.pool.nullifiers notes' : ℤ) +
      c.world.pool.accounting.totalWithdrawnAccounting +
      c.world.pool.accounting.accruedProtocolFees =
        c.world.pool.accounting.totalDepositedAccounting := by exact_mod_cast hvalue
  rw [hsum]
  exact ⟨htotal, fun claimed => assertPoolSolvent_iff (a := accountingOf c.world.pool.accounting)
    (Int.ofNat_le.mpr hswept) htotal⟩

/-- The wallet of the run: the note that is withdrawn from, and what is left of it. -/
def sampleHeld : List ShieldedNote :=
  [{ commitment := hex32 100
     nullifier := hex32 (nullifierOf sampleEnv sampleTemplates (sampleNote 10000000000000000 100) 0)
     ownerViewingKeyId := "key".toList, amount := 10000000000000000, spent := false },
    { commitment := hex32 2000000
      nullifier :=
        hex32 (nullifierOf sampleEnv sampleTemplates (sampleNote 5000000000000000 2000000) 1)
      ownerViewingKeyId := "key".toList, amount := 5000000000000000, spent := false }]

/-- After the withdrawal the wallet has half of what it deposited, and the pool covers that. -/
theorem private_balances_spent : ∃ c,
    KnownReachable sampleEnv sampleTemplates sampleKnown runVerifiers c ∧
    derivePrivateBalance (markAll sampleHeld (spentTexts c.world.logs)) "key".toList =
      5000000000000000 ∧
    assertPoolSolvent (accountingOf c.world.pool.accounting) 5000000000000000 = true := by
  obtain ⟨c, hreach, hfacts⟩ := @exists_runPlay _
    (fun c => (c.world.pool.accounting, leavesOf c.world,
      openWithdrawals (c.frames.map Frame.pending)))
    (⟨16500000000000, 0, 10000000000000000, 4983500000000000⟩, [100, 2000000], 0)
    (by decide +kernel)
  obtain ⟨haccounting, hrest⟩ := Prod.mk.inj hfacts
  obtain ⟨hleaves, hopen⟩ := Prod.mk.inj hrest
  have hopens : Opens sampleTemplates sampleKnown (leavesOf c.world)
      [sampleNote 10000000000000000 100, sampleNote 5000000000000000 2000000] := by
    rw [hleaves]
    have hfirst := (toField_ofNat (n := 100) (by decide)).trans
      (sampleHash_note (sampleNote 10000000000000000 100)).symm
    have hsecond := (toField_ofNat (n := 2000000) (by decide)).trans
      (sampleHash_note (sampleNote 5000000000000000 2000000)).symm
    exact .cons ⟨hfirst, .note, trivial, rfl⟩ (.cons ⟨hsecond, .output, trivial, rfl⟩ .nil)
  have hamount : ∀ {m : ℕ}, m < bn254ScalarField → (m : ℤ) = (((m : ℕ) : F).val : ℤ) :=
    fun hm => by rw [ZMod.val_natCast_of_lt hm]
  have hheld : Held sampleEnv sampleTemplates
      [sampleNote 10000000000000000 100, sampleNote 5000000000000000 2000000] sampleHeld := by
    refine ⟨rfl, fun i n h hn hh => ?_⟩
    rcases i with _ | _ | i
    · obtain rfl := Option.some.inj hn
      obtain rfl := Option.some.inj hh
      exact ⟨rfl, hamount (m := 10000000000000000) (by decide), rfl⟩
    · obtain rfl := Option.some.inj hn
      obtain rfl := Option.some.inj hh
      exact ⟨rfl, hamount (m := 5000000000000000) (by decide), rfl⟩
    · cases hn
  have hkeys : ∀ note ∈ sampleHeld, note.ownerViewingKeyId ∈ ["key".toList] := by
    simp [sampleHeld]
  obtain ⟨hsum, hsolvent⟩ := private_balances known_sample samePoseidon_sample
    (documented_documentedTemplates sampleHash) accepts_runVerifiers hreach hopen hopens hheld
    (List.nodup_singleton "key".toList) hkeys
  rw [List.map_singleton, List.sum_singleton, haccounting] at hsum hsolvent
  dsimp only at hsum hsolvent
  have hbalance : derivePrivateBalance (markAll sampleHeld (spentTexts c.world.logs))
      "key".toList = 5000000000000000 := by omega
  refine ⟨c, hreach, hbalance, ?_⟩
  rw [haccounting, hsolvent, hbalance]
  decide

end Nullark.Core.Notes
