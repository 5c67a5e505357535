import Nullark.Js.Basic
import Nullark.Lib.Intervals

/-! # The checked block ranges

The indexer keeps the ranges of blocks it has read. A new range is sorted in and merged with the
ranges it touches.

* `markCheckedRange_spec`: the tracker stays canonical and stands for one range more.
* `markCheckedRange_of_covered`: a range that was read before changes nothing.
* `covers_of_findMissingRanges`: where nothing is missing every block has been read. -/

namespace Nullark.Indexer.Ranges

open Nullark.Lib.Outcome Nullark.Lib.Intervals Nullark.Js.Basic

structure BlockRange where
  fromBlock : ℤ
  toBlock : ℤ
  deriving DecidableEq, Repr

structure RangeTracker where
  checkedRanges : List BlockRange
  deriving DecidableEq, Repr

/-! ### The code -/

def createRangeTracker : RangeTracker := ⟨[]⟩

/-- One round of the loop that merges. -/
def mergeRange (merged : List BlockRange) (next : BlockRange) : List BlockRange :=
  match merged.getLast? with
  | none => merged ++ [next]
  | some last =>
    if next.fromBlock > last.toBlock + 1 then merged ++ [next]
    else if next.toBlock > last.toBlock then
      merged.dropLast ++ [{ last with toBlock := next.toBlock }]
    else merged

/-- **`markCheckedRange`.** The comparison of the source never answers that two ranges are equal, so
the order of ranges that begin at one block is up to the engine; this is the one of a stable sort. -/
def markCheckedRange (tracker : RangeTracker) (range : BlockRange) :
    Throws (RangeTracker × Unit) := do
  ensure (¬range.toBlock < range.fromBlock) "Invalid checked block range."
  let ranges := (tracker.checkedRanges ++ [range]).mergeSort
    fun a b => decide (a.fromBlock ≤ b.fromBlock)
  return (⟨ranges.foldl mergeRange []⟩, ())

/-- The loop of `findMissingRanges`, with the block to go on from and the ranges found. -/
def findMissingFrom (requested : BlockRange) :
    List BlockRange → ℤ → List BlockRange → ℤ × List BlockRange
  | [], cursor, missing => (cursor, missing)
  | checked :: rest, cursor, missing =>
    if checked.toBlock < cursor then findMissingFrom requested rest cursor missing
    else if checked.fromBlock > requested.toBlock then (cursor, missing)
    else
      findMissingFrom requested rest
        (if checked.toBlock + 1 > cursor then checked.toBlock + 1 else cursor)
        (if checked.fromBlock > cursor then missing ++ [⟨cursor, checked.fromBlock - 1⟩]
          else missing)

def findMissingRanges (tracker : RangeTracker) (requested : BlockRange) : List BlockRange :=
  let (cursor, missing) :=
    findMissingFrom requested tracker.checkedRanges requested.fromBlock []
  if cursor ≤ requested.toBlock then missing ++ [⟨cursor, requested.toBlock⟩] else missing

/-! ### Marking a range -/

/-- The block is in a checked range. -/
abbrev Checked (tracker : RangeTracker) (block : ℤ) : Prop :=
  Covers BlockRange.fromBlock BlockRange.toBlock tracker.checkedRanges block

/-- The ranges are in order and apart. -/
abbrev Tidy (tracker : RangeTracker) : Prop :=
  Canonical BlockRange.fromBlock BlockRange.toBlock tracker.checkedRanges

/-- The block is in the range. -/
def BlockRange.Contains (range : BlockRange) (block : ℤ) : Prop :=
  range.fromBlock ≤ block ∧ block ≤ range.toBlock

variable {merged ranges : List BlockRange} {next : BlockRange} {tracker tracker' : RangeTracker}
  {range : BlockRange}

theorem tidy_create : Tidy createRangeTracker := canonical_nil

/-- **One round merges one range**, which begins no earlier than those before. -/
theorem mergeRange_spec (h : Canonical BlockRange.fromBlock BlockRange.toBlock merged)
    (hnext : next.fromBlock ≤ next.toBlock)
    (hsorted : ∀ r ∈ merged, r.fromBlock ≤ next.fromBlock) :
    Canonical BlockRange.fromBlock BlockRange.toBlock (mergeRange merged next) ∧
      (∀ r ∈ mergeRange merged next, r.fromBlock ≤ next.fromBlock) ∧
      ∀ n, Covers BlockRange.fromBlock BlockRange.toBlock (mergeRange merged next) n ↔
        Covers BlockRange.fromBlock BlockRange.toBlock merged n ∨ next.Contains n := by
  have hnew : (∀ r ∈ merged.getLast?, r.toBlock + 1 < next.fromBlock) →
      Canonical BlockRange.fromBlock BlockRange.toBlock (merged ++ [next]) ∧
        (∀ r ∈ merged ++ [next], r.fromBlock ≤ next.fromBlock) ∧
        ∀ n, Covers BlockRange.fromBlock BlockRange.toBlock (merged ++ [next]) n ↔
          Covers BlockRange.fromBlock BlockRange.toBlock merged n ∨ next.Contains n := by
    intro hgap
    refine ⟨h.concat hnext hgap, fun r hr => ?_, fun n => ?_⟩
    · rw [List.mem_append, List.mem_singleton] at hr
      rcases hr with hr | rfl
      · exact hsorted r hr
      · exact le_rfl
    · rw [covers_append, covers_cons]
      simp [BlockRange.Contains]
  unfold mergeRange
  rcases List.eq_nil_or_concat merged with rfl | ⟨front, last, rfl⟩
  · exact hnew fun r hr => absurd hr (by simp)
  · rw [List.concat_eq_append] at *
    have hlast : (front ++ [last]).getLast? = some last := by simp
    have hfrom : last.fromBlock ≤ next.fromBlock := hsorted last (by simp)
    rw [hlast]
    dsimp only
    split_ifs with hgap hlater
    · refine hnew fun r hr => ?_
      rw [hlast, Option.mem_some_iff] at hr
      rw [← hr]
      exact hgap
    · rw [List.dropLast_concat]
      refine ⟨h.extend rfl hlater.le, fun r hr => ?_, fun n => ?_⟩
      · rw [List.mem_append, List.mem_singleton] at hr
        rcases hr with hr | rfl
        · exact hsorted r (List.mem_append_left _ hr)
        · exact hfrom
      · have hle := h.le last (by simp)
        simp only [covers_append, covers_cons, covers_nil, or_false, or_assoc]
        refine or_congr_right ?_
        unfold BlockRange.Contains
        omega
    · refine ⟨h, hsorted, fun n => ⟨.inl, ?_⟩⟩
      rintro (hn | hn)
      · exact hn
      · refine ⟨last, by simp, ?_⟩
        unfold BlockRange.Contains at hn
        omega

/-- The loop over sorted ranges. -/
theorem mergeRanges_spec : ∀ {ranges merged : List BlockRange},
    Canonical BlockRange.fromBlock BlockRange.toBlock merged →
    (∀ r ∈ ranges, r.fromBlock ≤ r.toBlock) →
    ranges.Pairwise (fun a b => a.fromBlock ≤ b.fromBlock) →
    (∀ r ∈ merged, ∀ s ∈ ranges, r.fromBlock ≤ s.fromBlock) →
    Canonical BlockRange.fromBlock BlockRange.toBlock (ranges.foldl mergeRange merged) ∧
      ∀ n, Covers BlockRange.fromBlock BlockRange.toBlock (ranges.foldl mergeRange merged) n ↔
        Covers BlockRange.fromBlock BlockRange.toBlock merged n ∨
          Covers BlockRange.fromBlock BlockRange.toBlock ranges n
  | [], _, h, _, _, _ => ⟨h, fun n => by simp⟩
  | next :: ranges, merged, h, hle, hsorted, hbefore => by
    obtain ⟨hfirst, hrest⟩ := List.pairwise_cons.mp hsorted
    obtain ⟨hcanonical, hfrom, hcovers⟩ := mergeRange_spec h (hle next List.mem_cons_self)
      fun r hr => hbefore r hr next List.mem_cons_self
    obtain ⟨hfinal, hall⟩ := mergeRanges_spec hcanonical
      (fun r hr => hle r (List.mem_cons_of_mem _ hr)) hrest
      (fun r hr s hs => (hfrom r hr).trans (hfirst s hs))
    refine ⟨hfinal, fun n => ?_⟩
    rw [List.foldl_cons, hall, hcovers, covers_cons, or_assoc]
    rfl

/-- **A range is marked** unless it is empty, and the tracker stands for its blocks as well. -/
theorem markCheckedRange_spec (h : Tidy tracker) (hrange : range.fromBlock ≤ range.toBlock) :
    ∃ tracker', markCheckedRange tracker range = .ok (tracker', ()) ∧ Tidy tracker' ∧
      ∀ n, Checked tracker' n ↔ Checked tracker n ∨ range.Contains n := by
  have hperm := List.mergeSort_perm (tracker.checkedRanges ++ [range])
    fun a b => decide (a.fromBlock ≤ b.fromBlock)
  have hpairwise := @List.pairwise_mergeSort BlockRange
    (fun a b => decide (a.fromBlock ≤ b.fromBlock))
    (fun a b c hab hbc => by simp only [decide_eq_true_iff] at *; omega)
    (fun a b => by simp only [Bool.or_eq_true, decide_eq_true_iff]; omega)
    (tracker.checkedRanges ++ [range])
  have hle : ∀ r ∈ (tracker.checkedRanges ++ [range]).mergeSort
      fun a b => decide (a.fromBlock ≤ b.fromBlock), r.fromBlock ≤ r.toBlock := by
    intro r hr
    rw [hperm.mem_iff, List.mem_append, List.mem_singleton] at hr
    rcases hr with hr | rfl
    · exact h.le r hr
    · exact hrange
  obtain ⟨hcanonical, hcovers⟩ := mergeRanges_spec canonical_nil hle
    (hpairwise.imp fun hab => of_decide_eq_true hab) (fun _ hr => absurd hr List.not_mem_nil)
  refine ⟨_, ?_, hcanonical, fun n => ?_⟩
  · unfold markCheckedRange
    rw [ensure_of (not_lt.mpr hrange)]
    rfl
  · refine (hcovers n).trans ?_
    rw [covers_perm hperm, covers_append, covers_cons]
    simp [BlockRange.Contains]

theorem markCheckedRange_eq_ok (h : markCheckedRange tracker range = .ok (tracker', ())) :
    range.fromBlock ≤ range.toBlock := by
  unfold markCheckedRange at h
  obtain ⟨_, hvalid, -⟩ := bind_eq_ok.mp h
  exact not_lt.mp (ensure_eq_ok.mp hvalid)

/-- The blocks of a tracker determine it. -/
theorem Tidy.ext (h : Tidy tracker) (h' : Tidy tracker')
    (hall : ∀ n, Checked tracker n ↔ Checked tracker' n) : tracker = tracker' := by
  have hinjective : ∀ r s : BlockRange, r.fromBlock = s.fromBlock → r.toBlock = s.toBlock →
      r = s := by
    rintro ⟨_, _⟩ ⟨_, _⟩ rfl rfl
    rfl
  exact congrArg RangeTracker.mk (Canonical.ext hinjective h h' hall)

/-- **A range of checked blocks** changes nothing. -/
theorem markCheckedRange_of_covered (h : Tidy tracker) (hrange : range.fromBlock ≤ range.toBlock)
    (hcovered : ∀ n, range.Contains n → Checked tracker n) :
    markCheckedRange tracker range = .ok (tracker, ()) := by
  obtain ⟨tracker', hmark, htidy, hall⟩ := markCheckedRange_spec h hrange
  have heq : tracker' = tracker := htidy.ext h fun n => by
    rw [hall]
    exact ⟨fun hn => hn.elim id (hcovered n), .inl⟩
  rw [hmark, heq]

/-! ### Missing ranges -/

theorem findMissingFrom_ne_nil {requested : BlockRange} : ∀ {ranges : List BlockRange} {cursor : ℤ}
    {missing : List BlockRange}, missing ≠ [] →
    (findMissingFrom requested ranges cursor missing).2 ≠ []
  | [], _, _, h => h
  | checked :: rest, cursor, missing, h => by
    have hnext : (if checked.fromBlock > cursor then missing ++ [⟨cursor, checked.fromBlock - 1⟩]
        else missing) ≠ [] := by
      split_ifs
      · exact fun heq => h (List.append_eq_nil_iff.mp heq).1
      · exact h
    rw [findMissingFrom]
    by_cases hskip : checked.toBlock < cursor
    · rw [if_pos hskip]
      exact findMissingFrom_ne_nil h
    · rw [if_neg hskip]
      by_cases hbreak : checked.fromBlock > requested.toBlock
      · rw [if_pos hbreak]
        exact h
      · rw [if_neg hbreak]
        exact findMissingFrom_ne_nil hnext

/-- A loop that finds nothing has passed checked blocks only. -/
theorem covers_of_findMissingFrom {requested : BlockRange} : ∀ {ranges : List BlockRange}
    {cursor : ℤ}, (findMissingFrom requested ranges cursor []).2 = [] → ∀ n, cursor ≤ n →
    n < (findMissingFrom requested ranges cursor []).1 →
    Covers BlockRange.fromBlock BlockRange.toBlock ranges n
  | [], cursor, _, n, hlo, hhi => absurd hlo (not_le.mpr hhi)
  | checked :: rest, cursor, h, n, hlo, hhi => by
    rw [findMissingFrom] at h hhi
    rw [covers_cons]
    by_cases hskip : checked.toBlock < cursor
    · rw [if_pos hskip] at h hhi
      exact .inr (covers_of_findMissingFrom h n hlo hhi)
    rw [if_neg hskip] at h hhi
    by_cases hbreak : checked.fromBlock > requested.toBlock
    · rw [if_pos hbreak] at hhi
      exact absurd hlo (not_le.mpr hhi)
    rw [if_neg hbreak] at h hhi
    by_cases hgap : checked.fromBlock > cursor
    · rw [if_pos hgap] at h
      exact absurd h (findMissingFrom_ne_nil (by simp))
    have hnext : checked.toBlock + 1 > cursor := by omega
    rw [if_neg hgap, if_pos hnext] at h hhi
    rcases le_or_gt n checked.toBlock with hn | hn
    · exact .inl ⟨by omega, hn⟩
    · exact .inr (covers_of_findMissingFrom h n hn hhi)

/-- **Where nothing is missing** every block has been checked. -/
theorem covers_of_findMissingRanges {requested : BlockRange}
    (h : findMissingRanges tracker requested = []) (n : ℤ) (hn : requested.Contains n) :
    Checked tracker n := by
  unfold findMissingRanges at h
  dsimp only at h
  split_ifs at h with hend
  · exact absurd (List.append_eq_nil_iff.mp h).2 (List.cons_ne_nil _ _)
  · exact covers_of_findMissingFrom h n hn.1 (hn.2.trans_lt (not_le.mp hend))

end Nullark.Indexer.Ranges
