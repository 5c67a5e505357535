import Mathlib.Tactic

/-! # Binary search

* `lowerBound`: the first position of a list whose entry fails a test.
* `lowerBound_spec`: the entries before it pass and the others fail, if no entry that passes comes
  after one that fails.
* `any_lowerBound`: whether a sorted list has an entry in a range. -/

namespace Nullark.Lib.Search

variable {α : Type*}

/-- **The lower bound between `lo` and `hi`**: the half that cannot hold it is dropped. -/
def lowerBound (p : α → Bool) (l : List α) (lo hi : ℕ) : ℕ :=
  if lo < hi then
    if (l[(lo + hi) / 2]?).any p then lowerBound p l ((lo + hi) / 2 + 1) hi
    else lowerBound p l lo ((lo + hi) / 2)
  else lo
termination_by hi - lo

/-- The positions before `lo` pass and those from `hi` on fail. -/
structure Bracket (p : α → Bool) (l : List α) (lo hi : ℕ) : Prop where
  le : lo ≤ hi
  fits : hi ≤ l.length
  before : ∀ i v, i < lo → l[i]? = some v → p v = true
  after : ∀ i v, hi ≤ i → l[i]? = some v → p v = false

/-- An entry that passes has only entries that pass before it. -/
def Downward (p : α → Bool) (l : List α) : Prop :=
  ∀ (i j : ℕ) (v w : α), i ≤ j → l[i]? = some v → l[j]? = some w → p w = true → p v = true

variable {p : α → Bool} {l : List α}

theorem lowerBound_spec (hl : Downward p l) (lo hi : ℕ) (h : Bracket p l lo hi) :
    Bracket p l (lowerBound p l lo hi) (lowerBound p l lo hi) := by
  induction lo, hi using lowerBound.induct p l with
  | case1 lo hi hlt hany ih =>
    rw [lowerBound, if_pos hlt, if_pos hany]
    obtain ⟨w, hw, hpw⟩ := (Option.any_eq_true _ _).mp hany
    have hle := h.le
    refine ih ⟨by omega, h.fits, fun i v hlo hv => ?_, h.after⟩
    exact hl i _ v w (by omega) hv hw hpw
  | case2 lo hi hlt hany ih =>
    rw [lowerBound, if_pos hlt, if_neg hany]
    have hle := h.le
    have hfits := h.fits
    refine ih ⟨by omega, by omega, h.before, fun i v hmi hv => ?_⟩
    by_contra hpv
    rw [Bool.not_eq_false] at hpv
    have hmid : (lo + hi) / 2 < l.length := by omega
    have hget := List.getElem?_eq_getElem hmid
    have hpm := hl _ i _ v hmi hget hv hpv
    rw [hget] at hany
    exact hany hpm
  | case3 lo hi hlt =>
    rw [lowerBound, if_neg hlt]
    have heq : lo = hi := le_antisymm h.le (not_lt.mp hlt)
    subst heq
    exact h

/-- **Whether a sorted list has an entry between `start` and `stop`.** -/
theorem any_lowerBound {l : List ℤ} (hl : l.Pairwise (· ≤ ·)) (start stop : ℤ) :
    (l[lowerBound (fun v => decide (v < start)) l 0 l.length]?).any (fun v => decide (v < stop)) =
      true ↔ ∃ v ∈ l, start ≤ v ∧ v < stop := by
  have hdown : Downward (fun v => decide (v < start)) l := by
    intro i j v w hij hv hw hp
    rw [decide_eq_true_iff] at hp ⊢
    rcases hij.eq_or_lt with rfl | hlt
    · rw [hv] at hw
      exact Option.some.inj hw ▸ hp
    · obtain ⟨hi, rfl⟩ := List.getElem?_eq_some_iff.mp hv
      obtain ⟨hj, rfl⟩ := List.getElem?_eq_some_iff.mp hw
      exact (List.pairwise_iff_getElem.mp hl i j hi hj hlt).trans_lt hp
  have hspec := lowerBound_spec hdown 0 l.length ⟨Nat.zero_le _, le_rfl, fun i v hi _ => by omega,
    fun i v hi hv => by rw [List.getElem?_eq_none hi] at hv; cases hv⟩
  generalize lowerBound (fun v => decide (v < start)) l 0 l.length = r at hspec ⊢
  constructor
  · intro hany
    rcases hr : l[r]? with _ | v
    · rw [hr] at hany; cases hany
    · rw [hr, Option.any_some, decide_eq_true_iff] at hany
      have hge := hspec.after r v le_rfl hr
      rw [decide_eq_false_iff_not, not_lt] at hge
      exact ⟨v, List.mem_of_getElem? hr, hge, hany⟩
  · rintro ⟨v, hv, hstart, hstop⟩
    obtain ⟨i, hi⟩ := List.mem_iff_getElem?.mp hv
    have hri : r ≤ i := by
      by_contra hlt
      have hp := hspec.before i v (not_le.mp hlt) hi
      rw [decide_eq_true_iff] at hp
      omega
    have hlen : i < l.length := (List.getElem?_eq_some_iff.mp hi).1
    have hr : l[r]? = some l[r] := List.getElem?_eq_getElem (by omega)
    have hle : l[r] ≤ v := by
      obtain ⟨_, rfl⟩ := List.getElem?_eq_some_iff.mp hi
      rcases hri.eq_or_lt with rfl | hlt
      · exact le_rfl
      · exact List.pairwise_iff_getElem.mp hl r i (by omega) hlen hlt
    rw [hr, Option.any_some, decide_eq_true_iff]
    exact hle.trans_lt hstop

end Nullark.Lib.Search
