import Nullark.Indexer.Ranges

/-! # The ranges that a tracker has and those that it lacks

The tracker after any marks is the canonical list of the blocks that were marked, in whatever order
they came and whatever order the sort gives to ranges with one first block. What it lacks of a range
is the canonical list of the other blocks.

* `markAll_spec`: the tracker after a list of marks.
* `findMissingRanges_spec`: the canonical list of the unmarked blocks.
* `tracker_and_missing`: both, for all lists of marks and all ranges. -/

namespace Nullark.Indexer.MissingRanges

open Nullark.Lib.Outcome Nullark.Lib.Intervals Nullark.Js.Basic Nullark.Indexer.Ranges

/-! ### A list of marks -/

/-- A sort by the first block, which may put ranges with one first block in any order. -/
structure Sorting (sort : List BlockRange → List BlockRange) : Prop where
  perm : ∀ ranges, (sort ranges).Perm ranges
  sorted : ∀ ranges, (sort ranges).Pairwise fun a b => a.fromBlock ≤ b.fromBlock

/-- `markCheckedRange`, with the sort of the engine. -/
def markCheckedRangeBy (sort : List BlockRange → List BlockRange) (tracker : RangeTracker)
    (range : BlockRange) : Throws (RangeTracker × Unit) := do
  ensure (¬range.toBlock < range.fromBlock) "Invalid checked block range."
  return (⟨(sort (tracker.checkedRanges ++ [range])).foldl mergeRange []⟩, ())

/-- The stable sort. -/
def stableSort (ranges : List BlockRange) : List BlockRange :=
  ranges.mergeSort fun a b => decide (a.fromBlock ≤ b.fromBlock)

theorem sorting_stableSort : Sorting stableSort where
  perm ranges := List.mergeSort_perm ranges _
  sorted ranges := by
    have hpairwise := @List.pairwise_mergeSort BlockRange
      (fun a b => decide (a.fromBlock ≤ b.fromBlock))
      (fun a b c hab hbc => by simp only [decide_eq_true_iff] at *; omega)
      (fun a b => by simp only [Bool.or_eq_true, decide_eq_true_iff]; omega) ranges
    exact hpairwise.imp fun hab => of_decide_eq_true hab

/-- Marks one after another, on a new tracker. -/
def markAll (mark : RangeTracker → BlockRange → Throws (RangeTracker × Unit))
    (calls : List BlockRange) : Throws RangeTracker :=
  calls.foldlM (fun tracker range => do return (← mark tracker range).1) createRangeTracker

section Marks
variable {sort sort' : List BlockRange → List BlockRange} {tracker : RangeTracker}
  {range : BlockRange} {calls calls' : List BlockRange}

/-- **A mark gives one tracker**, whatever the sort. -/
theorem markCheckedRangeBy_eq (hsort : Sorting sort) (h : Tidy tracker) :
    markCheckedRangeBy sort tracker range = markCheckedRange tracker range := by
  by_cases hrange : range.fromBlock ≤ range.toBlock
  · have hperm := hsort.perm (tracker.checkedRanges ++ [range])
    have hle : ∀ r ∈ sort (tracker.checkedRanges ++ [range]), r.fromBlock ≤ r.toBlock := by
      intro r hr
      rw [hperm.mem_iff, List.mem_append, List.mem_singleton] at hr
      rcases hr with hr | rfl
      · exact h.le r hr
      · exact hrange
    obtain ⟨hcanonical, hcovers⟩ := mergeRanges_spec canonical_nil hle (hsort.sorted _)
      (fun _ hr => absurd hr List.not_mem_nil)
    obtain ⟨tracker', hmark, htidy, hall⟩ := markCheckedRange_spec h hrange
    have heq : (⟨(sort (tracker.checkedRanges ++ [range])).foldl mergeRange []⟩ : RangeTracker) =
        tracker' := by
      refine Tidy.ext hcanonical htidy fun n => (hcovers n).trans ?_
      rw [hall, covers_perm hperm, covers_append, covers_cons, or_iff_right covers_nil,
        or_iff_left covers_nil]
      rfl
    rw [markCheckedRangeBy, ensure_of (not_lt.mpr hrange), ok_bind, heq, hmark]
    rfl
  · unfold markCheckedRangeBy markCheckedRange ensure
    rw [if_neg (not_not.mpr (not_le.mp hrange))]
    rfl

/-- The marks of a list, from any tracker. -/
theorem foldlM_spec (hsort : Sorting sort) : ∀ {calls : List BlockRange} {tracker : RangeTracker},
    Tidy tracker → (∀ r ∈ calls, r.fromBlock ≤ r.toBlock) →
    ∃ tracker', calls.foldlM (fun tracker range => do
        return (← markCheckedRangeBy sort tracker range).1) tracker = .ok tracker' ∧
      Tidy tracker' ∧ ∀ n, Checked tracker' n ↔ Checked tracker n ∨ ∃ r ∈ calls, r.Contains n
  | [], tracker, h, _ => ⟨tracker, rfl, h, fun n =>
      ⟨.inl, fun hn => hn.elim id fun ⟨_, hr, _⟩ => absurd hr List.not_mem_nil⟩⟩
  | range :: calls, tracker, h, hvalid => by
    obtain ⟨hrange, hcalls⟩ := List.forall_mem_cons.mp hvalid
    obtain ⟨next, hmark, hnext, hnext_iff⟩ := markCheckedRange_spec h hrange
    obtain ⟨last, hrun, hlast, hlast_iff⟩ := foldlM_spec hsort hnext hcalls
    refine ⟨last, ?_, hlast, fun n => ?_⟩
    · rw [List.foldlM_cons, markCheckedRangeBy_eq hsort h, hmark]
      exact hrun
    · rw [hlast_iff, hnext_iff, or_assoc, List.exists_mem_cons_iff]

/-- **The tracker after a list of marks** stands for the blocks that were marked. -/
theorem markAll_spec (hsort : Sorting sort) (hvalid : ∀ r ∈ calls, r.fromBlock ≤ r.toBlock) :
    ∃ tracker, markAll (markCheckedRangeBy sort) calls = .ok tracker ∧ Tidy tracker ∧
      ∀ n, Checked tracker n ↔ ∃ r ∈ calls, r.Contains n := by
  obtain ⟨tracker, hrun, htidy, hall⟩ := foldlM_spec hsort tidy_create hvalid
  exact ⟨tracker, hrun, htidy, fun n => (hall n).trans (or_iff_right covers_nil)⟩

/-- The order of the marks and of the sort does not matter. -/
theorem markAll_perm (hsort : Sorting sort) (hsort' : Sorting sort')
    (hvalid : ∀ r ∈ calls, r.fromBlock ≤ r.toBlock) (hperm : calls'.Perm calls) :
    markAll (markCheckedRangeBy sort') calls' = markAll (markCheckedRangeBy sort) calls := by
  obtain ⟨tracker, hrun, htidy, hall⟩ := markAll_spec hsort hvalid
  have hvalid' : ∀ r ∈ calls', r.fromBlock ≤ r.toBlock := fun r hr =>
    hvalid r (hperm.mem_iff.mp hr)
  obtain ⟨tracker', hrun', htidy', hall'⟩ := markAll_spec hsort' hvalid'
  have heq : tracker' = tracker := htidy'.ext htidy fun n => by
    rw [hall', hall]
    exact exists_congr fun r => and_congr_left' hperm.mem_iff
  rw [hrun, hrun', heq]

end Marks

/-! ### The missing ranges -/

/-- The block is in the range and has not been marked. -/
def Missing (tracker : RangeTracker) (requested : BlockRange) (block : ℤ) : Prop :=
  requested.Contains block ∧ ¬Checked tracker block

/-- **The range is a longest one of missing blocks.** -/
structure MaximalMissing (tracker : RangeTracker) (requested range : BlockRange) : Prop where
  le : range.fromBlock ≤ range.toBlock
  missing : ∀ n, range.Contains n → Missing tracker requested n
  before : ¬Missing tracker requested (range.fromBlock - 1)
  behind : ¬Missing tracker requested (range.toBlock + 1)

section Missing
variable {requested : BlockRange}

/-- What is behind the last checked range. -/
def lastMissing (requested : BlockRange) (cursor : ℤ) : List BlockRange :=
  if cursor ≤ requested.toBlock then [⟨cursor, requested.toBlock⟩] else []

/-- The missing ranges from a block on. -/
def missingFrom (requested : BlockRange) (ranges : List BlockRange) (cursor : ℤ) :
    List BlockRange :=
  (findMissingFrom requested ranges cursor []).2 ++
    lastMissing requested (findMissingFrom requested ranges cursor []).1

/-- The ranges found before are kept in front. -/
theorem findMissingFrom_append : ∀ (ranges : List BlockRange) (cursor : ℤ)
    (missing : List BlockRange), findMissingFrom requested ranges cursor missing =
      ((findMissingFrom requested ranges cursor []).1,
        missing ++ (findMissingFrom requested ranges cursor []).2)
  | [], cursor, missing => by rw [findMissingFrom, findMissingFrom, List.append_nil]
  | checked :: rest, cursor, missing => by
    have hrest := findMissingFrom_append rest
    have hpush : ∀ (c : ℤ) (x : BlockRange), findMissingFrom requested rest c (missing ++ [x]) =
        ((findMissingFrom requested rest c ([] ++ [x])).1,
          missing ++ (findMissingFrom requested rest c ([] ++ [x])).2) := by
      intro c x
      rw [hrest c (missing ++ [x]), hrest c ([] ++ [x]), List.nil_append, List.append_assoc]
    rw [findMissingFrom, findMissingFrom]
    split_ifs with hskip hbreak hnext hgap hgap
    · exact hrest cursor missing
    · rw [List.append_nil]
    · exact hpush _ _
    · exact hrest _ missing
    · exact hpush _ _
    · exact hrest _ missing

theorem findMissingRanges_eq (tracker : RangeTracker) : findMissingRanges tracker requested =
    missingFrom requested tracker.checkedRanges requested.fromBlock := by
  unfold findMissingRanges missingFrom lastMissing
  dsimp only
  split_ifs
  · rfl
  · rw [List.append_nil]

/-- One checked range, which is not empty. -/
theorem missingFrom_cons {checked : BlockRange} {rest : List BlockRange} {cursor : ℤ}
    (hskip : ¬checked.toBlock < cursor) (hbreak : ¬checked.fromBlock > requested.toBlock) :
    missingFrom requested (checked :: rest) cursor =
      if checked.fromBlock > cursor then
        ⟨cursor, checked.fromBlock - 1⟩ :: missingFrom requested rest (checked.toBlock + 1)
      else missingFrom requested rest (checked.toBlock + 1) := by
  have hnext : checked.toBlock + 1 > cursor := by omega
  unfold missingFrom
  rw [findMissingFrom, if_neg hskip, if_neg hbreak, if_pos hnext]
  split_ifs with hgap
  · rw [findMissingFrom_append]
    rfl
  · rfl

theorem lastMissing_spec (requested : BlockRange) (cursor : ℤ) :
    Canonical BlockRange.fromBlock BlockRange.toBlock (lastMissing requested cursor) ∧
      ∀ n, Covers BlockRange.fromBlock BlockRange.toBlock (lastMissing requested cursor) n ↔
        cursor ≤ n ∧ n ≤ requested.toBlock := by
  unfold lastMissing
  split_ifs with h
  · exact ⟨canonical_nil.cons h fun _ hs => absurd hs List.not_mem_nil, fun n => by
      rw [covers_cons, or_iff_left covers_nil]⟩
  · exact ⟨canonical_nil, fun n => ⟨fun hn => absurd hn covers_nil, fun hn => by omega⟩⟩

/-- **What is missing from a block on**, by induction on the checked ranges. -/
theorem missingFrom_spec : ∀ {ranges : List BlockRange} (cursor : ℤ),
    Canonical BlockRange.fromBlock BlockRange.toBlock ranges →
    Canonical BlockRange.fromBlock BlockRange.toBlock (missingFrom requested ranges cursor) ∧
      ∀ n, Covers BlockRange.fromBlock BlockRange.toBlock (missingFrom requested ranges cursor) n ↔
        (cursor ≤ n ∧ n ≤ requested.toBlock) ∧
          ¬Covers BlockRange.fromBlock BlockRange.toBlock ranges n
  | [], cursor, _ => by
    obtain ⟨hcanonical, hcovers⟩ := lastMissing_spec requested cursor
    exact ⟨hcanonical, fun n => (hcovers n).trans (and_iff_left covers_nil).symm⟩
  | checked :: rest, cursor, h => by
    have hle := h.le checked List.mem_cons_self
    have hbehind : ∀ n, Covers BlockRange.fromBlock BlockRange.toBlock rest n →
        checked.toBlock + 1 < n := by
      rintro n ⟨s, hs, hlo, -⟩
      have hgap := (List.pairwise_cons.mp h.gap).1 s hs
      omega
    by_cases hskip : checked.toBlock < cursor
    · -- the range ends before the cursor
      have heq : missingFrom requested (checked :: rest) cursor =
          missingFrom requested rest cursor := by
        unfold missingFrom
        rw [findMissingFrom, if_pos hskip]
      obtain ⟨hcanonical, hcovers⟩ := missingFrom_spec cursor h.tail
      rw [heq]
      refine ⟨hcanonical, fun n => (hcovers n).trans (and_congr_right fun hn => ?_)⟩
      rw [covers_cons, or_iff_right (fun hin => by omega)]
    by_cases hbreak : checked.fromBlock > requested.toBlock
    · -- this range and all that follow begin behind the requested one
      have heq : missingFrom requested (checked :: rest) cursor = lastMissing requested cursor := by
        unfold missingFrom
        rw [findMissingFrom, if_neg hskip, if_pos hbreak]
        rfl
      obtain ⟨hcanonical, hcovers⟩ := lastMissing_spec requested cursor
      rw [heq]
      refine ⟨hcanonical, fun n => (hcovers n).trans (iff_self_and.mpr fun hn hin => ?_)⟩
      have hlo := h.lo_le hin
      omega
    obtain ⟨hcanonical, hcovers⟩ := missingFrom_spec (checked.toBlock + 1) h.tail
    rw [missingFrom_cons hskip hbreak]
    split_ifs with hgap
    · refine ⟨hcanonical.cons (by dsimp only; omega) fun s hs => ?_, fun n => ?_⟩
      · have hs_le := hcanonical.le s hs
        have hfirst := ((hcovers s.fromBlock).mp ⟨s, hs, le_rfl, hs_le⟩).1.1
        dsimp only
        omega
      · rw [covers_cons, covers_cons, hcovers, not_or]
        dsimp only
        constructor
        · rintro (hn | ⟨hn, hrest⟩)
          · exact ⟨by omega, by omega, fun hin => absurd (hbehind n hin) (by omega)⟩
          · exact ⟨by omega, by omega, hrest⟩
        · rintro ⟨hn, hchecked, hrest⟩
          rcases lt_or_ge n checked.fromBlock with hlt | hge
          · exact .inl (by omega)
          · exact .inr ⟨by omega, hrest⟩
    · refine ⟨hcanonical, fun n => ?_⟩
      rw [covers_cons, hcovers, not_or]
      constructor
      · rintro ⟨hn, hrest⟩
        exact ⟨by omega, by omega, hrest⟩
      · rintro ⟨hn, hchecked, hrest⟩
        exact ⟨by omega, hrest⟩

/-- **The missing ranges** are the canonical list of the missing blocks. -/
theorem findMissingRanges_spec (requested : BlockRange) {tracker : RangeTracker}
    (h : Tidy tracker) :
    Canonical BlockRange.fromBlock BlockRange.toBlock (findMissingRanges tracker requested) ∧
      ∀ n, Covers BlockRange.fromBlock BlockRange.toBlock (findMissingRanges tracker requested) n ↔
        Missing tracker requested n := by
  rw [findMissingRanges_eq]
  exact missingFrom_spec _ h

/-- They are the longest ranges of missing blocks. -/
theorem mem_findMissingRanges_iff {tracker : RangeTracker} (h : Tidy tracker)
    {range : BlockRange} :
    range ∈ findMissingRanges tracker requested ↔ MaximalMissing tracker requested range := by
  have hinjective : ∀ r s : BlockRange, r.fromBlock = s.fromBlock → r.toBlock = s.toBlock →
      r = s := by
    rintro ⟨_, _⟩ ⟨_, _⟩ rfl rfl
    rfl
  obtain ⟨hcanonical, hcovers⟩ := findMissingRanges_spec requested h
  rw [hcanonical.mem_iff hinjective, hcovers, hcovers]
  constructor
  · rintro ⟨hle, hall, hbefore, hbehind⟩
    exact ⟨hle, fun n hn => (hcovers n).mp (hall n hn.1 hn.2), hbefore, hbehind⟩
  · rintro ⟨hle, hall, hbefore, hbehind⟩
    exact ⟨hle, fun n hlo hhi => (hcovers n).mpr (hall n ⟨hlo, hhi⟩), hbefore, hbehind⟩

end Missing

/-! ### Both -/

/-- **The tracker is the sorted list of separate ranges of the marked blocks**, and what it lacks of
a range is, in order, its longest ranges of unmarked blocks. -/
theorem tracker_and_missing {calls : List BlockRange}
    (hvalid : ∀ r ∈ calls, r.fromBlock ≤ r.toBlock) :
    ∃ tracker, markAll markCheckedRange calls = .ok tracker ∧
      (∀ sort calls', Sorting sort → calls'.Perm calls →
        markAll (markCheckedRangeBy sort) calls' = .ok tracker) ∧
      Tidy tracker ∧
      (∀ n, Checked tracker n ↔ ∃ r ∈ calls, r.Contains n) ∧
      ∀ requested,
        ((findMissingRanges tracker requested).Pairwise fun r s => r.toBlock + 1 < s.fromBlock) ∧
        ∀ range, range ∈ findMissingRanges tracker requested ↔
          MaximalMissing tracker requested range := by
  obtain ⟨tracker, hrun, htidy, hall⟩ := markAll_spec sorting_stableSort hvalid
  refine ⟨tracker, hrun, fun sort calls' hsort hperm => ?_, htidy, hall, fun requested => ?_⟩
  · rw [markAll_perm sorting_stableSort hsort hvalid hperm, hrun]
  · exact ⟨(findMissingRanges_spec requested htidy).1.gap, fun _ => mem_findMissingRanges_iff htidy⟩

/-- Two marks that touch. -/
theorem tracker_and_missing_touching : ∃ tracker,
    markAll markCheckedRange [⟨4, 6⟩, ⟨1, 3⟩] = .ok tracker ∧
      ∀ range, range ∈ findMissingRanges tracker ⟨0, 9⟩ ↔ MaximalMissing tracker ⟨0, 9⟩ range := by
  have hvalid : ∀ r ∈ [(⟨4, 6⟩ : BlockRange), ⟨1, 3⟩], r.fromBlock ≤ r.toBlock := by decide
  obtain ⟨tracker, hrun, -, -, -, hmissing⟩ := tracker_and_missing hvalid
  exact ⟨tracker, hrun, (hmissing ⟨0, 9⟩).2⟩

end Nullark.Indexer.MissingRanges
