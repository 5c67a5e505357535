import Mathlib.Tactic

/-! # Computations that end in a value or an error

Inversion of `Except` computations (`bind_eq_ok`, `bind_eq_error`), and the effect of a computation
that is rolled back when it fails (`settle`): the state it leaves is the new one on success and the
old one on an error. -/

namespace Nullark.Lib.Outcome

universe u v

variable {ε : Type v} {α β : Type u}

theorem bind_eq_ok {x : Except ε α} {f : α → Except ε β} {b : β} :
    (x >>= f) = .ok b ↔ ∃ a, x = .ok a ∧ f a = .ok b := by
  cases x <;> simp [bind, Except.bind]

theorem bind_eq_error {x : Except ε α} {f : α → Except ε β} {e : ε} :
    (x >>= f) = .error e ↔ x = .error e ∨ ∃ a, x = .ok a ∧ f a = .error e := by
  cases x <;> simp [bind, Except.bind]

theorem pure_eq_ok {a b : α} : (pure a : Except ε α) = .ok b ↔ a = b := by
  simp [pure, Except.pure]

theorem ok_bind (a : α) (f : α → Except ε β) : (Except.ok a >>= f) = f a := rfl

/-- **A list is mapped** when each of its elements is. -/
theorem mapM_eq_ok {f : α → Except ε β} : ∀ {xs : List α} {ys : List β},
    xs.mapM f = .ok ys ↔ List.Forall₂ (fun x y => f x = .ok y) xs ys
  | [], ys => by
    rw [List.mapM_nil, pure_eq_ok, List.forall₂_nil_left_iff, eq_comm]
  | x :: xs, ys => by
    rw [List.mapM_cons]
    simp only [bind_eq_ok, pure_eq_ok, mapM_eq_ok]
    constructor
    · rintro ⟨y, hy, zs, hzs, rfl⟩
      exact List.Forall₂.cons hy hzs
    · rintro (_ | ⟨hy, hzs⟩)
      exact ⟨_, hy, _, hzs, rfl⟩

theorem mapM_ok {f : α → Except ε β} {g : α → β} {xs : List α}
    (h : ∀ x ∈ xs, f x = .ok (g x)) : xs.mapM f = .ok (xs.map g) :=
  mapM_eq_ok.mpr (List.forall₂_map_right_iff.mpr (List.forall₂_same.mpr h))

theorem exists_mapM_eq_ok {f : α → Except ε β} {xs : List α} (h : ∀ x ∈ xs, ∃ y, f x = .ok y) :
    ∃ ys, xs.mapM f = .ok ys := by
  induction xs with
  | nil => exact ⟨[], rfl⟩
  | cons x xs ih =>
    obtain ⟨⟨y, hy⟩, hxs⟩ := List.forall_mem_cons.mp h
    obtain ⟨ys, hys⟩ := ih hxs
    refine ⟨y :: ys, ?_⟩
    rw [List.mapM_cons, hy, ok_bind, hys]
    rfl

theorem mem_of_mapM_eq_ok {f : α → Except ε β} {xs : List α} {ys : List β}
    (h : xs.mapM f = .ok ys) {y : β} (hy : y ∈ ys) : ∃ x ∈ xs, f x = .ok y := by
  have hall := mapM_eq_ok.mp h
  clear h
  induction hall with
  | nil => exact absurd hy List.not_mem_nil
  | @cons a b as bs hab _ ih =>
    rcases List.mem_cons.mp hy with rfl | hmem
    · exact ⟨a, List.mem_cons_self, hab⟩
    · obtain ⟨x, hx, hxy⟩ := ih hmem
      exact ⟨x, List.mem_cons_of_mem _ hx, hxy⟩

/-- A loop that only checks. -/
theorem forM_eq_ok {f : α → Except ε PUnit} : ∀ {xs : List α} {u : PUnit},
    xs.forM f = .ok u ↔ ∀ x ∈ xs, f x = .ok ⟨⟩
  | [], _ => ⟨fun _ _ hx => absurd hx List.not_mem_nil, fun _ => rfl⟩
  | x :: xs, u => by
    rw [List.forM_eq_forM, List.forM_cons, bind_eq_ok, List.forall_mem_cons]
    constructor
    · rintro ⟨_, hx, hxs⟩
      exact ⟨hx, forM_eq_ok.mp hxs⟩
    · rintro ⟨hx, hxs⟩
      exact ⟨⟨⟩, hx, forM_eq_ok.mpr hxs⟩

/-! ### Rollback -/

variable {S : Type u}

/-- **The state a computation leaves**: a computation that fails leaves the state it began in. -/
def settle (s : S) : Except ε (S × α) → S
  | .ok (s', _) => s'
  | .error _ => s

/-- What the caller sees of a computation. -/
def answer : Except ε (S × α) → Except ε α
  | .ok (_, a) => .ok a
  | .error e => .error e

@[simp] theorem settle_ok (s s' : S) (a : α) : settle s (.ok (s', a) : Except ε _) = s' := rfl

@[simp] theorem settle_error (s : S) (e : ε) : settle s (.error e : Except ε (S × α)) = s := rfl

@[simp] theorem answer_ok (s' : S) (a : α) : answer (.ok (s', a) : Except ε _) = .ok a := rfl

@[simp] theorem answer_error (e : ε) : answer (.error e : Except ε (S × α)) = .error e := rfl

/-! ### Without rollback

A computation on a mutable state returns the state it leaves even when it fails. -/

/-- The next computation, unless this one failed. -/
def andThen (r : S × Except ε α) (f : S → S × Except ε α) : S × Except ε α :=
  match r with
  | (s, .ok _) => f s
  | (s, .error e) => (s, .error e)

/-- A loop over such a computation. -/
def forEach (f : S → β → S × Except ε PUnit) : S → List β → S × Except ε PUnit
  | s, [] => (s, .ok ⟨⟩)
  | s, x :: xs => andThen (f s x) fun s => forEach f s xs

@[simp] theorem andThen_ok (s : S) (a : α) (f : S → S × Except ε α) :
    andThen (s, .ok a) f = f s := rfl

@[simp] theorem andThen_error (s : S) (e : ε) (f : S → S × Except ε α) :
    andThen (s, .error e) f = (s, .error e) := rfl

theorem andThen_assoc (r : S × Except ε α) (f g : S → S × Except ε α) :
    andThen (andThen r f) g = andThen r fun s => andThen (f s) g := by
  obtain ⟨s, a | e⟩ := r <;> rfl

theorem andThen_eq_ok {r : S × Except ε α} {f : S → S × Except ε α} {t : S} {a : α} :
    andThen r f = (t, .ok a) ↔ ∃ s b, r = (s, .ok b) ∧ f s = (t, .ok a) := by
  obtain ⟨s, e | b⟩ := r
  · simp
  · simp

theorem forEach_append (f : S → β → S × Except ε PUnit) : ∀ (s : S) (xs ys : List β),
    forEach f s (xs ++ ys) = andThen (forEach f s xs) fun s => forEach f s ys
  | _, [], _ => rfl
  | s, x :: xs, ys => by
    rw [List.cons_append, forEach, forEach, andThen_assoc]
    exact congrArg (andThen (f s x)) (funext fun s' => forEach_append f s' xs ys)

theorem forEach_cons_eq_ok {f : S → β → S × Except ε PUnit} {s t : S} {x : β} {xs : List β} :
    forEach f s (x :: xs) = (t, .ok ⟨⟩) ↔
      ∃ s', f s x = (s', .ok ⟨⟩) ∧ forEach f s' xs = (t, .ok ⟨⟩) := by
  rw [forEach, andThen_eq_ok]
  exact ⟨fun ⟨s', ⟨⟩, hx, hxs⟩ => ⟨s', hx, hxs⟩, fun ⟨s', hx, hxs⟩ => ⟨s', ⟨⟩, hx, hxs⟩⟩

/-- **Two loops that stay related** throw the same. -/
theorem forEach_rel {T : Type u} {f : S → β → S × Except ε PUnit} {g : T → β → T × Except ε PUnit}
    {R : S → T → Prop} : ∀ {xs : List β} {s : S} {t : T},
    (∀ s t, ∀ x ∈ xs, R s t → R (f s x).1 (g t x).1 ∧ (f s x).2 = (g t x).2) → R s t →
    R (forEach f s xs).1 (forEach g t xs).1 ∧ (forEach f s xs).2 = (forEach g t xs).2
  | [], _, _, _, h => ⟨h, rfl⟩
  | x :: xs, s, t, hstep, h => by
    obtain ⟨hrel, hsame⟩ := hstep s t x List.mem_cons_self h
    have hrest := fun s t y hy => hstep s t y (List.mem_cons_of_mem x hy)
    rw [forEach, forEach]
    rcases hf : f s x with ⟨s', e | u⟩
    · rcases hg : g t x with ⟨t', e' | u'⟩
      · rw [hf, hg] at hrel hsame
        exact ⟨hrel, hsame⟩
      · rw [hf, hg] at hsame
        cases hsame
    · rcases hg : g t x with ⟨t', e' | u'⟩
      · rw [hf, hg] at hsame
        cases hsame
      · rw [hf, hg] at hrel
        exact forEach_rel hrest hrel

/-- **What every round keeps** the loop keeps, whether it fails or not. -/
theorem forEach_induction {f : S → β → S × Except ε PUnit} {I : S → Prop} :
    ∀ {xs : List β} {s : S}, (∀ s, ∀ x ∈ xs, I s → I (f s x).1) → I s → I (forEach f s xs).1
  | [], _, _, h => h
  | x :: xs, s, hstep, h => by
    have hfirst := hstep s x List.mem_cons_self h
    rw [forEach]
    rcases hf : f s x with ⟨s', e | u⟩
    · rw [hf] at hfirst
      exact hfirst
    · rw [hf] at hfirst
      exact forEach_induction (fun t y hy => hstep t y (List.mem_cons_of_mem _ hy)) hfirst

end Nullark.Lib.Outcome
