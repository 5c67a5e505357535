import Mathlib.Algebra.BigOperators.Group.Multiset.Basic
import Mathlib.Tactic

/-! # Making change

The greedy choice takes as many of the first coin as fit, then as many of the second, and so on
(`greedy`, `remainder`). It is not the shortest change for every list of coins.

* `length_greedy_le`: it is, if taking away one coin never saves more than one coin.
* `saves_of_bounded`: this needs to be checked only for a coin on top of less than the largest. -/

namespace Nullark.Lib.Change

/-- **The greedy change** of an amount. -/
def greedy : List ℕ → ℕ → List ℕ
  | [], _ => []
  | c :: cs, x => List.replicate (x / c) c ++ greedy cs (x % c)

/-- What no coin fits into. -/
def remainder : List ℕ → ℕ → ℕ
  | [], x => x
  | c :: cs, x => remainder cs (x % c)

/-- Taking away one coin saves at most one coin. -/
def Saves (coins : List ℕ) (x : ℕ) : Prop :=
  ∀ d ∈ coins, d ≤ x → (greedy coins x).length ≤ (greedy coins (x - d)).length + 1

/-- The number of coins, without the coins. -/
def count : List ℕ → ℕ → ℕ
  | [], _ => 0
  | c :: cs, x => x / c + count cs (x % c)

variable {coins cs : List ℕ} {c u x : ℕ}

@[simp] theorem greedy_zero : ∀ coins : List ℕ, greedy coins 0 = []
  | [] => rfl
  | c :: cs => by
    rw [greedy, Nat.zero_div, Nat.zero_mod, greedy_zero cs, List.replicate_zero, List.append_nil]

theorem length_greedy_cons : (greedy (c :: cs) x).length = x / c + (greedy cs (x % c)).length := by
  rw [greedy, List.length_append, List.length_replicate]

theorem length_greedy : ∀ (coins : List ℕ) (x : ℕ), (greedy coins x).length = count coins x
  | [], _ => rfl
  | c :: cs, x => by rw [length_greedy_cons, count, length_greedy cs]

theorem mem_greedy : ∀ {coins : List ℕ} {x n : ℕ}, n ∈ greedy coins x → n ∈ coins
  | [], _, _, h => absurd h List.not_mem_nil
  | c :: cs, x, n, h => by
    rcases List.mem_append.mp h with h | h
    · exact List.mem_cons.mpr (Or.inl (List.eq_of_mem_replicate h))
    · exact List.mem_cons_of_mem _ (mem_greedy h)

/-- **The change and the remainder make the amount.** -/
theorem sum_greedy : ∀ (coins : List ℕ) (x : ℕ), (greedy coins x).sum + remainder coins x = x
  | [], x => Nat.zero_add x
  | c :: cs, x => by
    have hrest := sum_greedy cs (x % c)
    have hdiv := Nat.div_add_mod x c
    rw [greedy, remainder, List.sum_append, List.sum_replicate, smul_eq_mul, mul_comm]
    omega

/-- Of decreasing coins the larger ones come first. -/
theorem pairwise_greedy : ∀ {coins : List ℕ} {x : ℕ}, coins.Pairwise (· ≥ ·) →
    (greedy coins x).Pairwise (· ≥ ·)
  | [], _, _ => List.Pairwise.nil
  | c :: cs, x, h => by
    obtain ⟨hc, hcs⟩ := List.pairwise_cons.mp h
    refine List.pairwise_append.mpr ⟨?_, pairwise_greedy hcs, ?_⟩
    · exact List.pairwise_replicate.mpr (Or.inr le_rfl)
    · intro a ha b hb
      rw [List.eq_of_mem_replicate ha]
      exact hc b (mem_greedy hb)

/-! ### The shortest change -/

/-- The first coin is taken once more. -/
theorem length_greedy_add (hc : 0 < c) :
    (greedy (c :: cs) (x + c)).length = (greedy (c :: cs) x).length + 1 := by
  rw [length_greedy_cons, length_greedy_cons, Nat.add_div_right x hc, Nat.add_mod_right]
  omega

/-- **Amounts below the largest coin, with one coin more, are enough.** -/
theorem saves_of_bounded (hc : 0 < c)
    (hbounded : ∀ y < c, ∀ d ∈ c :: cs, count (c :: cs) (y + d) ≤ count (c :: cs) y + 1) (x : ℕ) :
    Saves (c :: cs) x := by
  have hall : ∀ y, ∀ d ∈ c :: cs, (greedy (c :: cs) (y + d)).length ≤
      (greedy (c :: cs) y).length + 1 := by
    intro y
    induction y using Nat.strongRecOn with
    | ind y ih =>
      intro d hd
      by_cases hy : y < c
      · rw [length_greedy, length_greedy]
        exact hbounded y hy d hd
      · -- one largest coin is taken from both amounts
        have hstep := ih (y - c) (by omega) d hd
        have hleft := @length_greedy_add cs c (y - c + d) hc
        have hright := @length_greedy_add cs c (y - c) hc
        rw [Nat.sub_add_cancel (by omega)] at hright
        have hsum : y - c + d + c = y + d := by omega
        rw [hsum] at hleft
        omega
  intro d hd hle
  have hx := hall (x - d) d hd
  rwa [Nat.sub_add_cancel hle] at hx

/-- **The greedy change is the shortest.** -/
theorem length_greedy_le (hsaves : ∀ x, Saves coins x) (coinsTaken : Multiset ℕ)
    (h : ∀ d ∈ coinsTaken, d ∈ coins) :
    (greedy coins coinsTaken.sum).length ≤ coinsTaken.card := by
  induction coinsTaken using Multiset.induction with
  | empty =>
    rw [Multiset.sum_zero, Multiset.card_zero, greedy_zero, List.length_nil]
  | cons d rest ih =>
    have hrest := ih fun e he => h e (Multiset.mem_cons_of_mem he)
    have hd := hsaves (d + rest.sum) d (h d (Multiset.mem_cons_self d rest)) (Nat.le_add_right _ _)
    rw [Nat.add_sub_cancel_left] at hd
    rw [Multiset.sum_cons, Multiset.card_cons]
    omega

/-! ### Coins that are multiples of a unit -/

/-- **The unit of the coins can be divided out.** -/
theorem greedy_map_mul (hu : 0 < u) : ∀ (coins : List ℕ) (x : ℕ),
    greedy (coins.map (u * ·)) x = (greedy coins (x / u)).map (u * ·) ∧
      remainder (coins.map (u * ·)) x = u * remainder coins (x / u) + x % u
  | [], x => ⟨rfl, (Nat.div_add_mod x u).symm⟩
  | c :: cs, x => by
    obtain ⟨hgreedy, hremainder⟩ := greedy_map_mul hu cs (x % (u * c))
    have hdiv : x % (u * c) / u = x / u % c := Nat.mod_mul_right_div_self x u c
    have hmod : x % (u * c) % u = x % u := Nat.mod_mul_right_mod x u c
    rw [hdiv] at hgreedy hremainder
    rw [hmod] at hremainder
    constructor
    · rw [List.map_cons, greedy, hgreedy, greedy, List.map_append, List.map_replicate,
        Nat.div_div_eq_div_mul]
    · rw [List.map_cons, remainder, hremainder, remainder]

end Nullark.Lib.Change
