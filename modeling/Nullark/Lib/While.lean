import Mathlib.Tactic

/-! # While loops

A loop whose body may throw, with fuel (`loop`). `loop_total` is the rule for its total
correctness: an invariant, and a bound on the rounds that are left. -/

namespace Nullark.Lib.While

universe u v

variable {σ : Type u} {ε : Type v} {cond : σ → Prop} [DecidablePred cond] {body : σ → Except ε σ}

/-- **`while (cond) body`**, for as many rounds as there is fuel; `none` if more are needed. -/
def loop (cond : σ → Prop) [DecidablePred cond] (body : σ → Except ε σ) :
    ℕ → σ → Option (Except ε σ)
  | 0, s => if cond s then none else some (.ok s)
  | fuel + 1, s =>
    if cond s then
      match body s with
      | .ok s' => loop cond body fuel s'
      | .error e => some (.error e)
    else some (.ok s)

theorem loop_of_not {s : σ} (h : ¬cond s) : ∀ fuel, loop cond body fuel s = some (.ok s)
  | 0 => if_neg h
  | _ + 1 => if_neg h

theorem loop_of_ok {s s' : σ} (h : cond s) (hbody : body s = .ok s') (fuel : ℕ) :
    loop cond body (fuel + 1) s = loop cond body fuel s' := by
  rw [loop, if_pos h, hbody]

/-- **A loop ends** if each round succeeds, keeps the invariant and leaves fewer rounds. -/
theorem loop_total {inv : σ → Prop} {left : σ → ℕ}
    (hbody : ∀ s, inv s → cond s → ∃ s', body s = .ok s' ∧ inv s' ∧ left s' < left s) :
    ∀ {fuel : ℕ} {s : σ}, inv s → left s ≤ fuel →
      ∃ s', loop cond body fuel s = some (.ok s') ∧ inv s' ∧ ¬cond s' := by
  intro fuel
  induction fuel with
  | zero =>
    intro s hs hleft
    have hdone : ¬cond s := by
      intro hcond
      obtain ⟨s', -, -, hlt⟩ := hbody s hs hcond
      omega
    exact ⟨s, loop_of_not hdone 0, hs, hdone⟩
  | succ fuel ih =>
    intro s hs hleft
    by_cases hcond : cond s
    · obtain ⟨s', hok, hs', hlt⟩ := hbody s hs hcond
      rw [loop_of_ok hcond hok]
      exact ih hs' (by omega)
    · exact ⟨s, loop_of_not hcond _, hs, hcond⟩

end Nullark.Lib.While
