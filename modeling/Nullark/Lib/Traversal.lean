import Mathlib.Logic.Relation
import Mathlib.Data.Fintype.Card
import Mathlib.Tactic

/-! # Depth-first traversals

A traversal of a finite graph that does something at its leaves. A node that is no leaf is marked
when it is entered and is not entered again; a leaf is not marked.

* `visit`: the traversal, which lists the leaves it meets and returns nothing when the fuel runs out.
* `Steps`: a path whose nodes before the last are no leaves.
* `exists_visitAll`: with enough fuel the traversal ends, and has met the leaves that can be
  reached. -/

namespace Nullark.Lib.Traversal

variable {V : Type*} [DecidableEq V] (leaf : V → Bool) (succ : V → List V)

/-- The leaves met so far, and the marked nodes. -/
structure Visited (V : Type*) where
  found : List V
  seen : List V

/-- **The traversal from a node**, unless the fuel runs out. -/
def visit : ℕ → Visited V → V → Option (Visited V)
  | 0, _, _ => none
  | fuel + 1, s, v =>
    if leaf v then some { s with found := s.found ++ [v] }
    else if v ∈ s.seen then some s
    else (succ v).foldlM (visit fuel) { s with seen := v :: s.seen }

/-- The traversal from several nodes. -/
def visitAll (fuel : ℕ) (s : Visited V) (vs : List V) : Option (Visited V) :=
  vs.foldlM (visit leaf succ fuel) s

/-- One step of a path. -/
def Step (v w : V) : Prop := leaf v = false ∧ w ∈ succ v

/-- **A path** from one node to another. -/
def Steps (v w : V) : Prop := Relation.ReflTransGen (Step leaf succ) v w

/-! ### What is met can be reached -/

section Sound
variable {leaf succ}

theorem visitAll_cons {fuel : ℕ} {s t : Visited V} {v : V} {vs : List V} :
    visitAll leaf succ fuel s (v :: vs) = some t ↔
      ∃ u, visit leaf succ fuel s v = some u ∧ visitAll leaf succ fuel u vs = some t := by
  unfold visitAll
  rw [List.foldlM_cons]
  exact Option.bind_eq_some_iff

/-- Everything new comes from the nodes. -/
theorem visitAll_sound_of {fuel : ℕ} {P : V → Prop} (hvisit : ∀ {s t : Visited V} {v w : V}, P v →
      visit leaf succ fuel s v = some t → w ∈ t.found →
      w ∈ s.found ∨ leaf w = true ∧ Steps leaf succ v w) :
    ∀ (vs : List V) {s t : Visited V} {w : V}, (∀ v ∈ vs, P v) →
      visitAll leaf succ fuel s vs = some t → w ∈ t.found →
      w ∈ s.found ∨ leaf w = true ∧ ∃ v ∈ vs, Steps leaf succ v w
  | [], _, _, _, _, h, hw => .inl (Option.some.inj h ▸ hw)
  | v :: vs, s, t, w, hP, h, hw => by
    obtain ⟨hv, hvs⟩ := List.forall_mem_cons.mp hP
    obtain ⟨u, hfirst, hrest⟩ := visitAll_cons.mp h
    rcases visitAll_sound_of hvisit vs hvs hrest hw with hw | ⟨hleaf, x, hx, hsteps⟩
    · rcases hvisit hv hfirst hw with hw | ⟨hleaf, hsteps⟩
      · exact .inl hw
      · exact .inr ⟨hleaf, v, List.mem_cons_self, hsteps⟩
    · exact .inr ⟨hleaf, x, List.mem_cons_of_mem _ hx, hsteps⟩

/-- Everything new comes from the node. -/
theorem visit_sound : ∀ {fuel : ℕ} {s t : Visited V} {v w : V},
    visit leaf succ fuel s v = some t → w ∈ t.found →
    w ∈ s.found ∨ leaf w = true ∧ Steps leaf succ v w
  | 0, _, _, _, _, h, _ => nomatch h
  | fuel + 1, s, t, v, w, h, hw => by
    unfold visit at h
    split_ifs at h with hleaf hseen
    · obtain rfl := Option.some.inj h
      rcases List.mem_append.mp hw with hold | hnew
      · exact .inl hold
      · obtain rfl := List.mem_singleton.mp hnew
        exact .inr ⟨hleaf, .refl⟩
    · exact .inl (Option.some.inj h ▸ hw)
    · -- every child of `v` is one step away
      rcases visitAll_sound_of (P := (· ∈ succ v)) (fun _ => visit_sound) (succ v)
        (fun _ hu => hu) h hw with hw | ⟨hwleaf, u, hu, hsteps⟩
      · exact .inl hw
      · exact .inr ⟨hwleaf, .head ⟨Bool.eq_false_iff.mpr hleaf, hu⟩ hsteps⟩

theorem visitAll_sound {fuel : ℕ} {vs : List V} {s t : Visited V} {w : V}
    (h : visitAll leaf succ fuel s vs = some t) (hw : w ∈ t.found) :
    w ∈ s.found ∨ leaf w = true ∧ ∃ v ∈ vs, Steps leaf succ v w :=
  visitAll_sound_of (P := fun _ => True) (fun _ => visit_sound) vs (fun _ _ => trivial) h hw

end Sound

/-! ### What can be reached is met -/

section Complete
variable [Fintype V]

/-- The nodes that are not marked. -/
def unmarked (seen : List V) : Finset V := Finset.univ.filter (· ∉ seen)

theorem card_unmarked_cons {seen : List V} {v : V} (hv : v ∉ seen) :
    (unmarked (v :: seen)).card < (unmarked seen).card := by
  refine Finset.card_lt_card ⟨fun u hu => ?_, fun hsub => ?_⟩
  · simp only [unmarked, Finset.mem_filter, List.mem_cons, not_or] at hu ⊢
    exact ⟨hu.1, hu.2.2⟩
  · have hmem : v ∈ unmarked (v :: seen) :=
      hsub (Finset.mem_filter.mpr ⟨Finset.mem_univ v, hv⟩)
    simp [unmarked] at hmem

theorem card_unmarked_mono {seen seen' : List V} (h : ∀ v ∈ seen, v ∈ seen') :
    (unmarked seen').card ≤ (unmarked seen).card := by
  refine Finset.card_le_card fun u hu => ?_
  simp only [unmarked, Finset.mem_filter] at hu ⊢
  exact ⟨hu.1, fun hmem => hu.2 (h u hmem)⟩

variable {leaf succ}

variable (leaf) in
/-- A node is dealt with: it is met, or it is marked. -/
def Handled (s : Visited V) (v : V) : Prop := if leaf v then v ∈ s.found else v ∈ s.seen

variable (leaf succ) in
/-- **What a traversal achieves**: nothing is lost, and the children of the nodes it has marked are
dealt with. -/
structure Extends (s t : Visited V) : Prop where
  found : ∀ v ∈ s.found, v ∈ t.found
  seen : ∀ v ∈ s.seen, v ∈ t.seen
  closed : ∀ v ∈ t.seen, v ∉ s.seen → leaf v = false ∧ ∀ w ∈ succ v, Handled leaf t w

omit [DecidableEq V] [Fintype V] in
theorem Handled.mono {s t : Visited V} {v : V} (hfound : ∀ v ∈ s.found, v ∈ t.found)
    (hseen : ∀ v ∈ s.seen, v ∈ t.seen) (h : Handled leaf s v) : Handled leaf t v := by
  unfold Handled at *
  split_ifs at * with hleaf
  · exact hfound v h
  · exact hseen v h

omit [DecidableEq V] [Fintype V] in
theorem Extends.refl (s : Visited V) : Extends leaf succ s s :=
  ⟨fun _ h => h, fun _ h => h, fun _ h hn => absurd h hn⟩

omit [Fintype V] in
theorem Extends.trans {s t u : Visited V} (h : Extends leaf succ s t) (h' : Extends leaf succ t u) :
    Extends leaf succ s u where
  found v hv := h'.found v (h.found v hv)
  seen v hv := h'.seen v (h.seen v hv)
  closed v hv hn := by
    by_cases hmid : v ∈ t.seen
    · obtain ⟨hleaf, hall⟩ := h.closed v hmid hn
      exact ⟨hleaf, fun w hw => (hall w hw).mono h'.found h'.seen⟩
    · exact h'.closed v hv hmid

omit [Fintype V] in
variable (leaf succ) in
/-- Several nodes, when one node can be dealt with from any state that has more marked. -/
theorem exists_visitAll_of {fuel : ℕ} {seen : List V} (hvisit : ∀ {s : Visited V} (v : V),
      (∀ u ∈ seen, u ∈ s.seen) → ∃ t, visit leaf succ fuel s v = some t ∧
        Extends leaf succ s t ∧ Handled leaf t v) :
    ∀ (vs : List V) {s : Visited V}, (∀ u ∈ seen, u ∈ s.seen) →
      ∃ t, visitAll leaf succ fuel s vs = some t ∧ Extends leaf succ s t ∧
        ∀ v ∈ vs, Handled leaf t v
  | [], s, _ => ⟨s, rfl, Extends.refl s, fun _ hv => absurd hv List.not_mem_nil⟩
  | v :: vs, s, hseen => by
    obtain ⟨u, hfirst, hext, hhandled⟩ := hvisit v hseen
    obtain ⟨t, hrest, hext', hall⟩ := exists_visitAll_of hvisit vs
      fun x hx => hext.seen x (hseen x hx)
    refine ⟨t, visitAll_cons.mpr ⟨u, hfirst, hrest⟩, hext.trans hext', fun w hw => ?_⟩
    rcases List.mem_cons.mp hw with rfl | hw
    · exact hhandled.mono hext'.found hext'.seen
    · exact hall w hw

variable (leaf succ) in
/-- **One traversal ends**, with more fuel than there are unmarked nodes. -/
theorem exists_visit : ∀ {fuel : ℕ} {s : Visited V} (v : V), (unmarked s.seen).card < fuel →
    ∃ t, visit leaf succ fuel s v = some t ∧ Extends leaf succ s t ∧ Handled leaf t v
  | 0, _, _, h => absurd h (Nat.not_lt_zero _)
  | fuel + 1, s, v, hfuel => by
    unfold visit
    split_ifs with hleaf hseen
    · refine ⟨_, rfl, ⟨fun w hw => List.mem_append_left _ hw, fun _ hw => hw,
        fun _ hw hn => absurd hw hn⟩, ?_⟩
      unfold Handled
      rw [if_pos hleaf]
      exact List.mem_append_right _ (List.mem_singleton_self v)
    · refine ⟨s, rfl, Extends.refl s, ?_⟩
      unfold Handled
      rw [if_neg hleaf]
      exact hseen
    · -- the children, one after another, from states that have `v` marked
      have hless : ∀ t : Visited V, (∀ u ∈ v :: s.seen, u ∈ t.seen) →
          (unmarked t.seen).card < fuel := by
        intro t hmore
        have hmono := card_unmarked_mono hmore
        have hcons := card_unmarked_cons hseen
        omega
      obtain ⟨t, hvisit, hext, hall⟩ := exists_visitAll_of leaf succ
        (fun u hmore => exists_visit u (hless _ hmore)) (succ v)
        (s := { s with seen := v :: s.seen }) fun _ hu => hu
      have hmarked := hext.seen v List.mem_cons_self
      refine ⟨t, hvisit, ⟨hext.found, fun u hu => hext.seen u (List.mem_cons_of_mem _ hu),
        fun u hu hn => ?_⟩, ?_⟩
      · by_cases huv : u = v
        · rw [huv]
          exact ⟨Bool.eq_false_iff.mpr hleaf, hall⟩
        · exact hext.closed u hu fun hmem => (List.mem_cons.mp hmem).elim huv hn
      · unfold Handled
        rw [if_neg hleaf]
        exact hmarked

variable (leaf succ) in
/-- **The traversal ends, and has met the leaves** that can be reached. -/
theorem exists_visitAll {fuel : ℕ} (hfuel : Fintype.card V < fuel) (vs : List V) :
    ∃ t, visitAll leaf succ fuel ⟨[], []⟩ vs = some t ∧
      ∀ w, w ∈ t.found ↔ leaf w = true ∧ ∃ v ∈ vs, Steps leaf succ v w := by
  have hcard : ∀ seen : List V, (unmarked seen).card < fuel := fun _ =>
    (Finset.card_le_univ _).trans_lt hfuel
  have hnone : ∀ u ∈ ([] : List V), u ∈ ([] : List V) := fun _ hu => hu
  obtain ⟨t, hvisit, hext, hall⟩ := exists_visitAll_of leaf succ
    (fun v _ => exists_visit leaf succ v (hcard _)) vs (s := ⟨[], []⟩) hnone
  refine ⟨t, hvisit, fun w => ⟨fun hw => ?_, ?_⟩⟩
  · exact (visitAll_sound hvisit hw).resolve_left List.not_mem_nil
  · rintro ⟨hleaf, v, hv, hsteps⟩
    -- along the path every node is dealt with
    have hpath : ∀ u, Steps leaf succ v u → Handled leaf t u := by
      intro u hu
      induction hu with
      | refl => exact hall v hv
      | tail _ hstep ih =>
        unfold Handled at ih
        rw [if_neg (Bool.eq_false_iff.mp hstep.1)] at ih
        exact (hext.closed _ ih List.not_mem_nil).2 _ hstep.2
    have hhandled := hpath w hsteps
    unfold Handled at hhandled
    rwa [if_pos hleaf] at hhandled

end Complete

end Nullark.Lib.Traversal
