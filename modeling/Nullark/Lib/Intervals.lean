import Mathlib.Tactic

/-! # Lists of intervals of integers

A list of intervals stands for the integers in one of them. It is canonical when the intervals are
not empty, come in order and leave a gap between each and the next.

* `Canonical.concat`, `Canonical.extend`: a canonical list grows at its end.
* `Canonical.ext`: two canonical lists that stand for the same integers are equal.
* `Canonical.mem_iff`: the members are the intervals that cannot be made longer.
* `Tiles.count`: intervals that follow each other cover every integer between their ends once. -/

namespace Nullark.Lib.Intervals

variable {R : Type*} (lo hi : R → ℤ)

/-- The integer is in one of the intervals. -/
def Covers (rs : List R) (n : ℤ) : Prop := ∃ r ∈ rs, lo r ≤ n ∧ n ≤ hi r

/-- **The intervals are not empty, in order, and do not touch.** -/
structure Canonical (rs : List R) : Prop where
  le : ∀ r ∈ rs, lo r ≤ hi r
  gap : rs.Pairwise fun r s => hi r + 1 < lo s

variable {lo hi} {r s : R} {rs rs' : List R} {n : ℤ}

@[simp] theorem covers_nil : ¬Covers lo hi [] n := fun ⟨_, h, _⟩ => absurd h List.not_mem_nil

@[simp] theorem covers_cons :
    Covers lo hi (r :: rs) n ↔ (lo r ≤ n ∧ n ≤ hi r) ∨ Covers lo hi rs n := by
  simp [Covers]

@[simp] theorem covers_append :
    Covers lo hi (rs ++ rs') n ↔ Covers lo hi rs n ∨ Covers lo hi rs' n := by
  unfold Covers
  constructor
  · rintro ⟨r, hr, hn⟩
    exact (List.mem_append.mp hr).imp (fun h => ⟨r, h, hn⟩) fun h => ⟨r, h, hn⟩
  · rintro (⟨r, hr, hn⟩ | ⟨r, hr, hn⟩)
    · exact ⟨r, List.mem_append_left _ hr, hn⟩
    · exact ⟨r, List.mem_append_right _ hr, hn⟩

/-- Only the members count. -/
theorem covers_perm (h : rs.Perm rs') : Covers lo hi rs n ↔ Covers lo hi rs' n := by
  unfold Covers
  exact exists_congr fun r => and_congr_left' h.mem_iff

theorem canonical_nil : Canonical lo hi [] :=
  ⟨fun _ h => absurd h List.not_mem_nil, List.Pairwise.nil⟩

theorem Canonical.tail (h : Canonical lo hi (r :: rs)) : Canonical lo hi rs :=
  ⟨fun s hs => h.le s (List.mem_cons_of_mem _ hs), (List.pairwise_cons.mp h.gap).2⟩

/-! ### Growing at the end -/

/-- An interval behind a gap. -/
theorem Canonical.concat (h : Canonical lo hi rs) (hs : lo s ≤ hi s)
    (hgap : ∀ r ∈ rs.getLast?, hi r + 1 < lo s) : Canonical lo hi (rs ++ [s]) := by
  refine ⟨fun r hr => ?_, List.pairwise_append.mpr ⟨h.gap, List.pairwise_singleton _ _, ?_⟩⟩
  · rw [List.mem_append, List.mem_singleton] at hr
    rcases hr with hr | rfl
    · exact h.le r hr
    · exact hs
  · intro r hr t ht
    rw [List.mem_singleton] at ht
    subst ht
    rcases List.eq_nil_or_concat rs with rfl | ⟨front, last, rfl⟩
    · exact absurd hr List.not_mem_nil
    · have hlast : hi last + 1 < lo t := hgap last (by simp)
      rw [List.concat_eq_append] at hr h
      rw [List.mem_append, List.mem_singleton] at hr
      rcases hr with hr | rfl
      · have hbefore := (List.pairwise_append.mp h.gap).2.2 r hr last (List.mem_singleton_self _)
        have hnonempty := h.le last (by simp)
        omega
      · exact hlast

/-- The last interval ends later. -/
theorem Canonical.extend (h : Canonical lo hi (rs ++ [r])) (hlo : lo s = lo r)
    (hhi : hi r ≤ hi s) : Canonical lo hi (rs ++ [s]) := by
  have hr := h.le r (by simp)
  obtain ⟨hgap, -, hlast⟩ := List.pairwise_append.mp h.gap
  refine ⟨fun t ht => ?_, List.pairwise_append.mpr ⟨hgap, List.pairwise_singleton _ _, ?_⟩⟩
  · rw [List.mem_append, List.mem_singleton] at ht
    rcases ht with ht | rfl
    · exact h.le t (List.mem_append_left _ ht)
    · omega
  · intro t ht u hu
    rw [List.mem_singleton] at hu
    rw [hu, hlo]
    exact hlast t ht r (List.mem_singleton_self _)

/-! ### One list for one set -/

/-- Nothing before the first interval is covered. -/
theorem Canonical.lo_le (h : Canonical lo hi (r :: rs)) (hn : Covers lo hi (r :: rs) n) :
    lo r ≤ n := by
  obtain ⟨s, hs, hlo, -⟩ := hn
  rcases List.mem_cons.mp hs with rfl | hs
  · exact hlo
  · have hgap := (List.pairwise_cons.mp h.gap).1 s hs
    have hr := h.le r List.mem_cons_self
    omega

/-- The integer behind the first interval is not covered. -/
theorem Canonical.not_covers_next (h : Canonical lo hi (r :: rs)) :
    ¬Covers lo hi (r :: rs) (hi r + 1) := by
  rintro ⟨s, hs, hlo, hhi⟩
  rcases List.mem_cons.mp hs with rfl | hs
  · omega
  · have hgap := (List.pairwise_cons.mp h.gap).1 s hs
    omega

/-- The first interval goes as far as the covered integers do without a gap. -/
theorem Canonical.hi_le (h' : Canonical lo hi (s :: rs'))
    (hlo : lo r = lo s) (hall : ∀ n, Covers lo hi (r :: rs) n ↔ Covers lo hi (s :: rs') n) :
    hi r ≤ hi s := by
  by_contra hlt
  have hs := h'.le s List.mem_cons_self
  refine h'.not_covers_next ((hall _).mp ?_)
  exact ⟨r, List.mem_cons_self, by omega, by omega⟩

/-- **A set has one canonical list.** -/
theorem Canonical.ext (hinjective : ∀ r s, lo r = lo s → hi r = hi s → r = s) :
    ∀ {rs rs' : List R}, Canonical lo hi rs → Canonical lo hi rs' →
    (∀ n, Covers lo hi rs n ↔ Covers lo hi rs' n) → rs = rs'
  | [], [], _, _, _ => rfl
  | [], s :: _, _, h', hall => by
    have hs := h'.le s List.mem_cons_self
    exact absurd ((hall (lo s)).mpr ⟨s, List.mem_cons_self, le_rfl, hs⟩) covers_nil
  | r :: _, [], h, _, hall => by
    have hr := h.le r List.mem_cons_self
    exact absurd ((hall (lo r)).mp ⟨r, List.mem_cons_self, le_rfl, hr⟩) covers_nil
  | r :: rs, s :: rs', h, h', hall => by
    have hr := h.le r List.mem_cons_self
    have hs := h'.le s List.mem_cons_self
    have hlo : lo r = lo s := by
      have hrs := h'.lo_le ((hall (lo r)).mp ⟨r, List.mem_cons_self, le_rfl, hr⟩)
      have hsr := h.lo_le ((hall (lo s)).mpr ⟨s, List.mem_cons_self, le_rfl, hs⟩)
      omega
    have hhi : hi r = hi s :=
      le_antisymm (h'.hi_le hlo hall) (h.hi_le hlo.symm fun n => (hall n).symm)
    have htail : ∀ n, Covers lo hi rs n ↔ Covers lo hi rs' n := by
      intro n
      have hboth := hall n
      rw [covers_cons, covers_cons, hlo, hhi] at hboth
      have hout : ∀ {t : R} {ts : List R}, Canonical lo hi (t :: ts) → Covers lo hi ts n →
          ¬(lo t ≤ n ∧ n ≤ hi t) := by
        rintro t ts ht ⟨u, hu, hlou, -⟩ ⟨-, hle⟩
        have hgap := (List.pairwise_cons.mp ht.gap).1 u hu
        omega
      constructor
      · intro hn
        refine (hboth.mp (.inr hn)).resolve_left ?_
        rw [← hlo, ← hhi]
        exact hout h hn
      · intro hn
        exact (hboth.mpr (.inr hn)).resolve_left (hout h' hn)
    rw [hinjective r s hlo hhi, Canonical.ext hinjective h.tail h'.tail htail]

/-! ### The members -/

/-- An interval in front of a gap. -/
theorem Canonical.cons (h : Canonical lo hi rs) (hr : lo r ≤ hi r)
    (hgap : ∀ s ∈ rs, hi r + 1 < lo s) : Canonical lo hi (r :: rs) :=
  ⟨List.forall_mem_cons.mpr ⟨hr, h.le⟩, List.pairwise_cons.mpr ⟨hgap, h.gap⟩⟩

/-- Two members that share an integer, or of which one ends before the other, are one. -/
theorem Canonical.eq_of_mem (h : Canonical lo hi rs) (hr : r ∈ rs) (hs : s ∈ rs)
    (hle : lo r ≤ hi s + 1) (hle' : lo s ≤ hi r + 1) : r = s := by
  have hsymm : Std.Symm fun r s : R => hi r + 1 < lo s ∨ hi s + 1 < lo r := ⟨fun _ _ => Or.symm⟩
  by_contra hne
  have hapart := (h.gap.imp fun hrs => Or.inl hrs).forall (R := fun r s => hi r + 1 < lo s ∨
    hi s + 1 < lo r) hr hs hne
  omega

/-- **The members are the intervals that cannot be made longer.** -/
theorem Canonical.mem_iff (hinjective : ∀ r s, lo r = lo s → hi r = hi s → r = s)
    (h : Canonical lo hi rs) : r ∈ rs ↔ lo r ≤ hi r ∧ (∀ n, lo r ≤ n → n ≤ hi r → Covers lo hi rs n) ∧
      ¬Covers lo hi rs (lo r - 1) ∧ ¬Covers lo hi rs (hi r + 1) := by
  constructor
  · intro hr
    have hle := h.le r hr
    refine ⟨hle, fun n hlo hhi => ⟨r, hr, hlo, hhi⟩, ?_, ?_⟩
    · rintro ⟨s, hs, hlo, hhi⟩
      obtain rfl := h.eq_of_mem hr hs (by omega) (by omega)
      omega
    · rintro ⟨s, hs, hlo, hhi⟩
      obtain rfl := h.eq_of_mem hr hs (by omega) (by omega)
      omega
  · rintro ⟨hle, hall, hbefore, hbehind⟩
    obtain ⟨s, hs, hlo, hhi⟩ := hall (lo r) le_rfl hle
    have hcovered : ∀ n, lo s ≤ n → n ≤ hi s → Covers lo hi rs n := fun n hn hn' =>
      ⟨s, hs, hn, hn'⟩
    -- the member that has the first integer begins and ends with the interval
    have hfirst : lo r = lo s := by
      by_contra hne
      exact hbefore (hcovered _ (by omega) (by omega))
    have hlast : hi s ≤ hi r := by
      by_contra hlt
      exact hbehind (hcovered _ (by omega) (by omega))
    have hend : hi r ≤ hi s := by
      by_contra hlt
      obtain ⟨t, ht, htlo, hthi⟩ := hall (hi s + 1) (by omega) (by omega)
      obtain rfl := h.eq_of_mem hs ht (by omega) (by omega)
      omega
    rw [hinjective r s hfirst (le_antisymm hend hlast)]
    exact hs

/-! ### Tilings -/

section Tiles
variable (lo hi)

/-- **The intervals follow each other**, without a gap or an overlap, from `a` to before `b`. -/
def Tiles : ℤ → List R → ℤ → Prop
  | a, [], b => a = b
  | a, r :: rs, b => lo r = a ∧ a ≤ hi r ∧ Tiles (hi r + 1) rs b

variable {lo hi} {a b : ℤ}

theorem Tiles.concat (hs : lo s = b) (hle : b ≤ hi s) : ∀ {rs : List R} {a : ℤ},
    Tiles lo hi a rs b → Tiles lo hi a (rs ++ [s]) (hi s + 1)
  | [], _, h => ⟨hs.trans h.symm, (show _ = b from h) ▸ hle, rfl⟩
  | _ :: _, _, h => ⟨h.1, h.2.1, Tiles.concat hs hle h.2.2⟩

theorem Tiles.le : ∀ {rs : List R} {a : ℤ}, Tiles lo hi a rs b → a ≤ b
  | [], _, h => le_of_eq h
  | _ :: _, _, h => by
    have htail := Tiles.le h.2.2
    have hhead := h.2.1
    omega

/-- No interval is empty. -/
theorem Tiles.nonempty : ∀ {rs : List R} {a : ℤ}, Tiles lo hi a rs b → ∀ r ∈ rs, lo r ≤ hi r
  | [], _, _ => fun _ h => absurd h List.not_mem_nil
  | _ :: _, _, h => List.forall_mem_cons.mpr ⟨h.1.trans_le h.2.1, Tiles.nonempty h.2.2⟩

/-- Each interval begins behind the one before it. -/
theorem Tiles.consecutive : ∀ {rs : List R} {a : ℤ}, Tiles lo hi a rs b →
    rs.IsChain fun r s => lo s = hi r + 1
  | [], _, _ => List.IsChain.nil
  | [_], _, _ => List.IsChain.singleton _
  | _ :: _ :: _, _, h => List.IsChain.cons_cons h.2.2.1 (Tiles.consecutive h.2.2)

/-- **Every integer from `a` to before `b` is in one interval**, and the others are in none. -/
theorem Tiles.count {n : ℤ} : ∀ {rs : List R} {a : ℤ}, Tiles lo hi a rs b →
    rs.countP (fun r => lo r ≤ n ∧ n ≤ hi r) = if a ≤ n ∧ n < b then 1 else 0
  | [], a, h => by
    have hab : a = b := h
    rw [List.countP_nil, if_neg (by omega)]
  | r :: rs, a, h => by
    obtain ⟨hlo, hle, htail⟩ := h
    have hend := htail.le
    rw [List.countP_cons, Tiles.count htail]
    simp only [decide_eq_true_eq]
    split_ifs <;> omega

end Tiles

end Nullark.Lib.Intervals
