import Nullark.Js.Basic
import Nullark.Lib.Change
import Nullark.Lib.Sorting

/-! # Fixed denominations

How the core package splits an amount into notes, and the amounts a note can be withdrawn in.

* `split_shortest`: an amount is split whenever it can be, into as few notes as possible. -/

namespace Nullark.Core.Denominations

open Nullark.Lib Nullark.Lib.Outcome Nullark.Js.Basic

/-! ### Policies -/

structure FixedDenominationSplitPolicy where
  denominationsWei : List ℤ
  maxNoteCount : Option ℕ
  deriving DecidableEq, Repr

structure FixedDenominationSplit where
  requestedAmountWei : ℤ
  notesWei : List ℤ
  noteCount : ℕ
  uniqueDenominationsWei : List ℤ
  deriving DecidableEq, Repr

structure FixedDenominationPublicExit where
  noteAmountWei : ℤ
  grossAmountWei : ℤ
  deriving DecidableEq, Repr

def mainnetCandidateFixedDenominationsWei : List ℤ :=
  [5000000000000000, 10000000000000000, 20000000000000000, 30000000000000000, 50000000000000000,
    100000000000000000, 200000000000000000, 300000000000000000, 500000000000000000,
    1000000000000000000]

/-- **The default policy.** -/
def mainnetCandidateFixedDenominationPolicy : FixedDenominationSplitPolicy where
  denominationsWei := mainnetCandidateFixedDenominationsWei
  maxNoteCount := some 32

/-- **`normalizeDenominations`**: without repetitions, largest first. -/
def normalizeDenominations (denominationsWei : List ℤ) : Throws (List ℤ) := do
  ensure (denominationsWei ≠ []) "fixed denomination policy requires at least one denomination"
  ensure (∀ denomination ∈ denominationsWei, 0 < denomination) "fixed denominations must be positive"
  return Sorting.sortOn OrderDual.toDual denominationsWei.eraseDups

/-! ### Splitting an amount -/

def checkNoteCount (notesWei : List ℤ) : Option ℕ → Throws Unit
  | none => .ok ()
  | some maxNoteCount => ensure (notesWei.length ≤ maxNoteCount)
      ("fixed-denomination split exceeds max note count " ++ toString maxNoteCount)

/-- The inner loop, for the notes of one denomination. A round takes one wei at least, so that there
are no more rounds than wei. -/
def takeNotes (maxNoteCount : Option ℕ) (denomination : ℤ) :
    ℕ → List ℤ → ℤ → Throws (List ℤ × ℤ)
  | 0, notesWei, remaining => .ok (notesWei, remaining)
  | rounds + 1, notesWei, remaining =>
    if denomination ≤ remaining then do
      checkNoteCount (notesWei ++ [denomination]) maxNoteCount
      takeNotes maxNoteCount denomination rounds (notesWei ++ [denomination])
        (remaining - denomination)
    else .ok (notesWei, remaining)

/-- The outer loop. -/
def takeAll (maxNoteCount : Option ℕ) : List ℤ → List ℤ → ℤ → Throws (List ℤ × ℤ)
  | [], notesWei, remaining => .ok (notesWei, remaining)
  | denomination :: denominations, notesWei, remaining => do
    let (notesWei, remaining) ←
      takeNotes maxNoteCount denomination remaining.toNat notesWei remaining
    takeAll maxNoteCount denominations notesWei remaining

/-- **`splitIntoFixedDenominations`**. -/
def splitIntoFixedDenominations (amountWei : ℤ) (policy : FixedDenominationSplitPolicy) :
    Throws FixedDenominationSplit := do
  ensure (0 < amountWei) "amountWei must be positive"
  let denominations ← normalizeDenominations policy.denominationsWei
  let (notesWei, remaining) ← takeAll policy.maxNoteCount denominations [] amountWei
  ensure (remaining = 0) ("amountWei has unsupported dust remainder " ++ toString remaining)
  return {
    requestedAmountWei := amountWei, notesWei, noteCount := notesWei.length
    uniqueDenominationsWei := notesWei.eraseDups }

/-! ### Withdrawing from a note -/

def isSupportedFixedDenomination (amountWei : ℤ) (policy : FixedDenominationSplitPolicy) :
    Throws Bool := do
  let denominations ← normalizeDenominations policy.denominationsWei
  return denominations.contains amountWei

/-- **`assertFixedDenominationPublicExit`**. -/
def assertFixedDenominationPublicExit (exit : FixedDenominationPublicExit)
    (policy : FixedDenominationSplitPolicy) : Throws FixedDenominationPublicExit := do
  let note ← isSupportedFixedDenomination exit.noteAmountWei policy
  ensure (note = true) "public exit note amount must be a supported fixed denomination"
  let gross ← isSupportedFixedDenomination exit.grossAmountWei policy
  ensure (gross = true) "public exit amount must be a supported fixed denomination"
  ensure (exit.grossAmountWei ≤ exit.noteAmountWei) "public exit amount cannot exceed note amount"
  let change := exit.noteAmountWei - exit.grossAmountWei
  if change ≠ 0 then do
    let supported ← isSupportedFixedDenomination change policy
    ensure (supported = true) "public exit private change must be a supported fixed denomination"
    return exit
  else return exit

theorem normalizeDenominations_mainnet :
    normalizeDenominations mainnetCandidateFixedDenominationPolicy.denominationsWei =
      .ok mainnetCandidateFixedDenominationsWei.reverse := by
  have hnodup : mainnetCandidateFixedDenominationsWei.eraseDups =
      mainnetCandidateFixedDenominationsWei := by decide
  have hpositive : ∀ denomination ∈ mainnetCandidateFixedDenominationsWei, 0 < denomination := by
    decide
  have hsorted : mainnetCandidateFixedDenominationsWei.reverse.Pairwise fun a b =>
      OrderDual.toDual a ≤ OrderDual.toDual b := by decide
  have hreverse : Sorting.sortOn OrderDual.toDual mainnetCandidateFixedDenominationsWei =
      mainnetCandidateFixedDenominationsWei.reverse := by
    have hperm := (List.reverse_perm mainnetCandidateFixedDenominationsWei).symm
    exact (Sorting.sortOn_perm_eq hperm fun a _ b _ hab => OrderDual.toDual.injective hab).trans
      (Sorting.sortOn_of_pairwise hsorted)
  unfold normalizeDenominations
  simp only [bind_eq_ok, ensure_eq_ok, exists_const, pure_eq_ok]
  refine ⟨List.cons_ne_nil _ _, hpositive, ?_⟩
  rw [mainnetCandidateFixedDenominationPolicy, hnodup, hreverse]

theorem isSupportedFixedDenomination_mainnet (amountWei : ℤ) :
    isSupportedFixedDenomination amountWei mainnetCandidateFixedDenominationPolicy =
      .ok (mainnetCandidateFixedDenominationsWei.contains amountWei) := by
  unfold isSupportedFixedDenomination
  rw [normalizeDenominations_mainnet]
  exact congrArg Except.ok (List.contains_reverse ..)

/-- **The exits of the default policy**: note, exit and change are denominations. -/
theorem assertFixedDenominationPublicExit_eq_ok {exit r : FixedDenominationPublicExit} :
    assertFixedDenominationPublicExit exit mainnetCandidateFixedDenominationPolicy = .ok r ↔
      exit.noteAmountWei ∈ mainnetCandidateFixedDenominationsWei ∧
      exit.grossAmountWei ∈ mainnetCandidateFixedDenominationsWei ∧
      exit.grossAmountWei ≤ exit.noteAmountWei ∧
      (exit.noteAmountWei - exit.grossAmountWei ≠ 0 →
        exit.noteAmountWei - exit.grossAmountWei ∈ mainnetCandidateFixedDenominationsWei) ∧
      r = exit := by
  unfold assertFixedDenominationPublicExit
  simp only [isSupportedFixedDenomination_mainnet]
  by_cases hchange : exit.noteAmountWei - exit.grossAmountWei ≠ 0
  · simp only [ok_bind, if_pos hchange, bind_eq_ok, ensure_eq_ok, exists_const, pure_eq_ok,
      List.contains_iff_mem]
    constructor
    · rintro ⟨h1, h2, h3, h4, rfl⟩
      exact ⟨h1, h2, h3, fun _ => h4, rfl⟩
    · rintro ⟨h1, h2, h3, h4, rfl⟩
      exact ⟨h1, h2, h3, h4 hchange, rfl⟩
  · simp only [ok_bind, if_neg hchange, bind_eq_ok, ensure_eq_ok, exists_const, pure_eq_ok,
      List.contains_iff_mem]
    constructor
    · rintro ⟨h1, h2, h3, rfl⟩
      exact ⟨h1, h2, h3, fun h => absurd h hchange, rfl⟩
    · rintro ⟨h1, h2, h3, -, rfl⟩
      exact ⟨h1, h2, h3, rfl⟩

/-! ### What the loops take -/

/-- The denominations in units of the smallest one, largest first. -/
def units : List ℕ := [200, 100, 60, 40, 20, 10, 6, 4, 2, 1]

/-- The smallest denomination. -/
def unitWei : ℕ := 5000000000000000

section Loops
variable {maxNoteCount x : ℕ} {notesWei : List ℤ} {r : List ℤ × ℤ}

theorem takeNotes_eq_ok {d : ℕ} (hd : 0 < d) : ∀ {rounds x : ℕ} {notesWei : List ℤ},
    x / d ≤ rounds → notesWei.length ≤ maxNoteCount →
    (takeNotes (some maxNoteCount) d rounds notesWei x = .ok r ↔
      notesWei.length + x / d ≤ maxNoteCount ∧
        r = (notesWei ++ List.replicate (x / d) (d : ℤ), ((x % d : ℕ) : ℤ)))
  | 0, x, notesWei, hrounds, hcount => by
    have hdiv : x / d = 0 := Nat.le_zero.mp hrounds
    have hmod : x % d = x := Nat.mod_eq_of_lt ((Nat.div_eq_zero_iff_lt hd).mp hdiv)
    rw [takeNotes, hdiv, hmod, List.replicate_zero, List.append_nil, Except.ok.injEq]
    exact ⟨fun h => ⟨hcount, h.symm⟩, fun h => h.2.symm⟩
  | rounds + 1, x, notesWei, hrounds, hcount => by
    rw [takeNotes]
    by_cases hle : d ≤ x
    · have hdiv : x / d = (x - d) / d + 1 := Nat.div_eq_sub_div hd hle
      have hmod : x % d = (x - d) % d := Nat.mod_eq_sub_mod hle
      have hcast : (x : ℤ) - d = ((x - d : ℕ) : ℤ) := by omega
      have hlen : (notesWei ++ [(d : ℤ)]).length = notesWei.length + 1 := List.length_append
      rw [if_pos (by exact_mod_cast hle), bind_eq_ok, hcast]
      simp only [checkNoteCount, ensure_eq_ok, exists_const, hlen]
      rw [hdiv, hmod, List.replicate_succ]
      have hrest : (x - d) / d ≤ rounds := by rw [hdiv] at hrounds; exact Nat.le_of_succ_le_succ hrounds
      by_cases hnext : notesWei.length + 1 ≤ maxNoteCount
      · rw [takeNotes_eq_ok hd hrest (hlen ▸ hnext), hlen, List.append_assoc, List.singleton_append]
        constructor
        · rintro ⟨-, h, rfl⟩
          exact ⟨by omega, rfl⟩
        · rintro ⟨h, rfl⟩
          exact ⟨hnext, by omega, rfl⟩
      · have hmore : notesWei.length + 1 ≤ notesWei.length + ((x - d) / d + 1) :=
          Nat.add_le_add_left (Nat.le_add_left 1 _) _
        exact ⟨fun h => absurd h.1 hnext, fun h => absurd (hmore.trans h.1) hnext⟩
    · have hdiv : x / d = 0 := (Nat.div_eq_zero_iff_lt hd).mpr (by omega)
      rw [if_neg (by exact_mod_cast hle), hdiv, Nat.mod_eq_of_lt (by omega), List.replicate_zero,
        List.append_nil, Except.ok.injEq]
      exact ⟨fun h => ⟨hcount, h.symm⟩, fun h => h.2.symm⟩

/-- **The loops make the greedy change**, as long as it is short enough. -/
theorem takeAll_eq_ok : ∀ {coins : List ℕ} {x : ℕ} {notesWei : List ℤ}, (∀ d ∈ coins, 0 < d) →
    notesWei.length ≤ maxNoteCount →
    (takeAll (some maxNoteCount) (coins.map Nat.cast) notesWei x = .ok r ↔
      notesWei.length + (Change.greedy coins x).length ≤ maxNoteCount ∧
        r = (notesWei ++ (Change.greedy coins x).map Nat.cast, (Change.remainder coins x : ℤ)))
  | [], x, notesWei, _, hcount => by
    rw [List.map_nil, takeAll, Except.ok.injEq, Change.greedy, Change.remainder, List.map_nil,
      List.append_nil]
    exact ⟨fun h => ⟨hcount, h.symm⟩, fun h => h.2.symm⟩
  | d :: coins, x, notesWei, hpos, hcount => by
    have hd := hpos d List.mem_cons_self
    have hrounds : x / d ≤ (x : ℤ).toNat := Nat.div_le_self x d
    rw [List.map_cons, takeAll, bind_eq_ok, Change.length_greedy_cons, Change.greedy,
      Change.remainder, List.map_append, List.map_replicate, ← List.append_assoc]
    have hlen : (notesWei ++ List.replicate (x / d) (d : ℤ)).length = notesWei.length + x / d := by
      rw [List.length_append, List.length_replicate]
    constructor
    · rintro ⟨s, hs, hrest⟩
      obtain ⟨hle, rfl⟩ := (takeNotes_eq_ok hd hrounds hcount).mp hs
      obtain ⟨hle', rfl⟩ := (takeAll_eq_ok (fun e he => hpos e (List.mem_cons_of_mem _ he))
        (hlen ▸ hle)).mp hrest
      rw [hlen] at hle'
      exact ⟨by omega, rfl⟩
    · rintro ⟨hle, hr⟩
      refine ⟨_, (takeNotes_eq_ok hd hrounds hcount).mpr ⟨by omega, rfl⟩, ?_⟩
      exact (takeAll_eq_ok (fun e he => hpos e (List.mem_cons_of_mem _ he)) (by omega)).mpr
        ⟨by rw [hlen]; omega, hr⟩

end Loops

/-! ### The shortest split -/

theorem mainnet_eq_units : mainnetCandidateFixedDenominationsWei.reverse =
    (units.map (unitWei * ·)).map Nat.cast := rfl

theorem remainder_units (x : ℕ) : Change.remainder units x = 0 := by
  simp only [units, Change.remainder, Nat.mod_one]

/-- **One denomination on top of less than the largest is enough to check.** -/
theorem saves_units : ∀ x, Change.Saves units x := by
  have hbounded : ∀ y < 200, ∀ d ∈ units,
      Change.count units (y + d) ≤ Change.count units y + 1 := by decide +kernel
  exact Change.saves_of_bounded (by decide) hbounded

/-- **The amounts that are split**, and the notes. -/
theorem split_eq_ok {amountWei : ℤ} {r : FixedDenominationSplit} :
    splitIntoFixedDenominations amountWei mainnetCandidateFixedDenominationPolicy = .ok r ↔
      ∃ n : ℕ, 0 < n ∧ amountWei = ((unitWei * n : ℕ) : ℤ) ∧ (Change.greedy units n).length ≤ 32 ∧
        r = {
          requestedAmountWei := amountWei
          notesWei := ((Change.greedy units n).map (unitWei * ·)).map Nat.cast
          noteCount := (Change.greedy units n).length
          uniqueDenominationsWei :=
            (((Change.greedy units n).map (unitWei * ·)).map (Nat.cast : ℕ → ℤ)).eraseDups } := by
  have hunit : 0 < unitWei := by decide
  have hcoins : ∀ d ∈ units.map (unitWei * ·), 0 < d := by decide
  unfold splitIntoFixedDenominations
  rw [normalizeDenominations_mainnet, mainnet_eq_units]
  simp only [ok_bind, bind_eq_ok, ensure_eq_ok, exists_const, pure_eq_ok]
  constructor
  · rintro ⟨hpos, s, hs, hzero, rfl⟩
    obtain ⟨x, rfl⟩ : ∃ x : ℕ, amountWei = x := ⟨amountWei.toNat, by omega⟩
    obtain ⟨hlen, rfl⟩ := (takeAll_eq_ok hcoins (Nat.zero_le 32)).mp hs
    obtain ⟨hgreedy, hremainder⟩ := Change.greedy_map_mul hunit units x
    rw [hremainder, remainder_units, Nat.mul_zero, Nat.zero_add] at hzero
    have hx : unitWei * (x / unitWei) = x := Nat.mul_div_cancel' (Nat.dvd_of_mod_eq_zero (by omega))
    rw [hgreedy, List.length_map, List.length_nil, Nat.zero_add] at hlen
    refine ⟨x / unitWei, ?_, by rw [hx], hlen, ?_⟩
    · refine Nat.pos_of_ne_zero fun h => ?_
      rw [h, Nat.mul_zero] at hx
      omega
    · simp only [hgreedy, List.nil_append, List.length_map]
  · rintro ⟨n, hn, rfl, hlen, rfl⟩
    obtain ⟨hgreedy, hremainder⟩ := Change.greedy_map_mul hunit units (unitWei * n)
    rw [Nat.mul_div_cancel_left n hunit] at hgreedy hremainder
    rw [remainder_units, Nat.mul_mod_right, Nat.mul_zero] at hremainder
    have hpos : 0 < unitWei * n := Nat.mul_pos hunit hn
    refine ⟨by exact_mod_cast hpos, _, (takeAll_eq_ok hcoins (Nat.zero_le 32)).mpr ⟨?_, rfl⟩, ?_, ?_⟩
    · rw [hgreedy, List.length_map, List.length_nil, Nat.zero_add]
      exact hlen
    · rw [hremainder]
      rfl
    · simp only [hgreedy, List.nil_append, List.length_map]

/-- **Notes of denominations** that make an amount. -/
def Makes (notesWei : Multiset ℤ) (amountWei : ℤ) : Prop :=
  (∀ note ∈ notesWei, note ∈ mainnetCandidateFixedDenominationPolicy.denominationsWei) ∧
    notesWei.sum = amountWei

/-- Counted in units. -/
theorem Makes.units_of {notesWei : Multiset ℤ} {amountWei : ℤ} (h : Makes notesWei amountWei) :
    ∃ coins : Multiset ℕ, (∀ d ∈ coins, d ∈ units) ∧ coins.card = notesWei.card ∧
      amountWei = ((unitWei * coins.sum : ℕ) : ℤ) := by
  obtain ⟨hmem, rfl⟩ := h
  induction notesWei using Multiset.induction with
  | empty => exact ⟨0, fun _ h => absurd h (Multiset.notMem_zero _), rfl, rfl⟩
  | cons note rest ih =>
    obtain ⟨coins, hcoins, hcard, hsum⟩ := ih fun n hn => hmem n (Multiset.mem_cons_of_mem hn)
    have hall : ∀ n ∈ mainnetCandidateFixedDenominationsWei, ∃ d ∈ units,
        n = ((unitWei * d : ℕ) : ℤ) := by decide
    obtain ⟨d, hd, rfl⟩ := hall note (hmem note (Multiset.mem_cons_self note rest))
    refine ⟨d ::ₘ coins, fun e he => ?_, ?_, ?_⟩
    · rcases Multiset.mem_cons.mp he with rfl | he
      · exact hd
      · exact hcoins e he
    · rw [Multiset.card_cons, Multiset.card_cons, hcard]
    · rw [Multiset.sum_cons, Multiset.sum_cons, hsum, Nat.mul_add]
      push_cast
      rfl

/-- The notes of a split make its amount. -/
theorem makes_greedy (n : ℕ) :
    Makes ((((Change.greedy units n).map (unitWei * ·)).map Nat.cast : List ℤ) : Multiset ℤ)
      ((unitWei * n : ℕ) : ℤ) := by
  have hall : ∀ d ∈ units, ((unitWei * d : ℕ) : ℤ) ∈ mainnetCandidateFixedDenominationsWei := by
    decide
  have hsum := Change.sum_greedy units n
  rw [remainder_units, Nat.add_zero] at hsum
  constructor
  · intro note hnote
    obtain ⟨e, he, rfl⟩ := List.mem_map.mp (Multiset.mem_coe.mp hnote)
    obtain ⟨d, hd, rfl⟩ := List.mem_map.mp he
    exact hall d (Change.mem_greedy hd)
  · rw [Multiset.sum_coe, ← Nat.cast_list_sum, List.sum_map_mul_left, List.map_id', hsum]

theorem pairwise_notes (n : ℕ) :
    (((Change.greedy units n).map (unitWei * ·)).map (Nat.cast : ℕ → ℤ)).Pairwise (· ≥ ·) := by
  have hunits : units.Pairwise (· ≥ ·) := by decide
  rw [List.map_map]
  refine List.pairwise_map.mpr ((Change.pairwise_greedy hunits).imp fun {a b} h => ?_)
  exact Int.ofNat_le.mpr (Nat.mul_le_mul_left unitWei h)

/-- **The default policy splits every amount that can be split**, into as few notes as possible. An
amount can be split if it is a positive multiple of the smallest denomination and few enough notes
make it. -/
theorem split_shortest (amountWei : ℤ) :
    ((∃ r, splitIntoFixedDenominations amountWei mainnetCandidateFixedDenominationPolicy = .ok r) ↔
      0 < amountWei ∧
      (∃ d ∈ mainnetCandidateFixedDenominationPolicy.denominationsWei,
        (∀ e ∈ mainnetCandidateFixedDenominationPolicy.denominationsWei, d ≤ e) ∧ d ∣ amountWei) ∧
      ∃ notesWei, Makes notesWei amountWei ∧
        ∀ m ∈ mainnetCandidateFixedDenominationPolicy.maxNoteCount, notesWei.card ≤ m) ∧
    ∀ r, splitIntoFixedDenominations amountWei mainnetCandidateFixedDenominationPolicy = .ok r →
      r.notesWei.Pairwise (· ≥ ·) ∧ Makes r.notesWei amountWei ∧
      ∀ notesWei, Makes notesWei amountWei → r.notesWei.length ≤ notesWei.card := by
  have hshort : ∀ {notesWei : Multiset ℤ} {n : ℕ}, Makes notesWei ((unitWei * n : ℕ) : ℤ) →
      (Change.greedy units n).length ≤ notesWei.card := by
    intro notesWei n h
    obtain ⟨coins, hcoins, hcard, hsum⟩ := h.units_of
    have hn : n = coins.sum := Nat.eq_of_mul_eq_mul_left (by decide) (Int.ofNat_inj.mp hsum)
    rw [hn, ← hcard]
    exact Change.length_greedy_le saves_units coins hcoins
  refine ⟨⟨?_, ?_⟩, ?_⟩
  · rintro ⟨r, hr⟩
    obtain ⟨n, hn, rfl, hlen, -⟩ := split_eq_ok.mp hr
    have hpos : 0 < unitWei * n := Nat.mul_pos (by decide) hn
    refine ⟨by exact_mod_cast hpos, ⟨unitWei, by decide, by decide, ?_⟩, _, makes_greedy n, ?_⟩
    · exact Int.natCast_dvd_natCast.mpr (Nat.dvd_mul_right unitWei n)
    · rintro m ⟨⟩
      rw [Multiset.coe_card, List.length_map, List.length_map]
      exact hlen
  · rintro ⟨hpos, -, notesWei, hmakes, hcount⟩
    obtain ⟨coins, -, -, rfl⟩ := hmakes.units_of
    refine ⟨_, split_eq_ok.mpr ⟨coins.sum, ?_, rfl, ?_, rfl⟩⟩
    · refine Nat.pos_of_ne_zero fun h => ?_
      rw [h] at hpos
      exact absurd hpos (by decide)
    · exact (hshort hmakes).trans (hcount 32 rfl)
  · intro r hr
    obtain ⟨n, -, rfl, -, rfl⟩ := split_eq_ok.mp hr
    refine ⟨pairwise_notes n, makes_greedy n, fun notesWei hmakes => ?_⟩
    rw [List.length_map, List.length_map]
    exact hshort hmakes

end Nullark.Core.Denominations
