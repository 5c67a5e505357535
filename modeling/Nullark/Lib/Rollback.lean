import Mathlib.Logic.Relation
import Mathlib.Tactic

/-! # Machines whose calls can be rolled back

A machine has a current world and the frames that are still open, each with the world as it was when
the frame was opened and with what is left to do when its callee returns. A frame that fails
restores that world.

* `Run.invariant`: an invariant of the three kinds of step holds of the current world and of every
  world a failing frame could restore.
* `Run.nested`: the same for invariants that see what is still to do.
* `TimedRun.invariant`: the same for machines whose steps depend on the time, up to a deadline.
* `RunAbove.invariant`: the same for what happens while some frames stay open.
* `Run.of_play`: what a list of moves leads to is reached.
* `abort_restores`: whatever happened in between, a frame that fails gives back the configuration in
  which it was opened. -/

namespace Nullark.Lib.Rollback

variable {W P : Type*}

/-- **What a machine can do**: a step in the current frame, opening a frame, and closing one whose
callee returned. -/
structure System (W P : Type*) where
  step : W → W → Prop
  opens : W → P → W → Prop
  closes : P → W → W → Prop

/-- A frame that is open. -/
structure Frame (W P : Type*) where
  before : W
  pending : P

structure Config (W P : Type*) where
  world : W
  frames : List (Frame W P)

/-- **One step of the machine.** -/
inductive Step (S : System W P) : Config W P → Config W P → Prop
  | step {w w' fs} (h : S.step w w') : Step S ⟨w, fs⟩ ⟨w', fs⟩
  | opens {w p w' fs} (h : S.opens w p w') : Step S ⟨w, fs⟩ ⟨w', ⟨w, p⟩ :: fs⟩
  | closes {w p w' b fs} (h : S.closes p w w') : Step S ⟨w, ⟨b, p⟩ :: fs⟩ ⟨w', fs⟩
  | aborts {w f fs} : Step S ⟨w, f :: fs⟩ ⟨f.before, fs⟩

/-- A run of the machine. -/
abbrev Run (S : System W P) : Config W P → Config W P → Prop := Relation.ReflTransGen (Step S)

/-- The machine that only ever visits worlds in `G`. -/
def System.within (S : System W P) (G : W → Prop) : System W P where
  step w w' := S.step w w' ∧ G w'
  opens w p w' := S.opens w p w' ∧ G w'
  closes p w w' := S.closes p w w' ∧ G w'

/-- The current world and the worlds the open frames could restore. -/
def Config.All (I : W → Prop) (c : Config W P) : Prop := I c.world ∧ ∀ f ∈ c.frames, I f.before

/-! ### Invariants -/

section Invariant
variable {S : System W P} {I : W → Prop}
  (hstep : ∀ {w w'}, I w → S.step w w' → I w')
  (hopens : ∀ {w p w'}, I w → S.opens w p w' → I w')
  (hcloses : ∀ {w p w'}, I w → S.closes p w w' → I w')
include hstep hopens hcloses

theorem Step.invariant {c c' : Config W P} (h : c.All I) (hs : Step S c c') : c'.All I := by
  obtain ⟨hw, hfs⟩ := h
  cases hs with
  | step hs => exact ⟨hstep hw hs, hfs⟩
  | opens hs => exact ⟨hopens hw hs, List.forall_mem_cons.mpr ⟨hw, hfs⟩⟩
  | closes hs => exact ⟨hcloses hw hs, (List.forall_mem_cons.mp hfs).2⟩
  | aborts => exact List.forall_mem_cons.mp hfs

/-- **Invariants hold along runs**, in every world a failure could restore as well. -/
theorem Run.invariant {c c' : Config W P} (h : c.All I) (hr : Run S c c') : c'.All I := by
  induction hr with
  | refl => exact h
  | tail _ hs ih => exact Step.invariant hstep hopens hcloses ih hs

end Invariant

/-! ### Invariants that see what is pending -/

/-- An invariant of a world and of what is pending, which holds of the world above the frames and of
every world a failing frame could restore. -/
def Nested (I : W → List P → Prop) : W → List (Frame W P) → Prop
  | w, [] => I w []
  | w, f :: fs => I w (f.pending :: fs.map Frame.pending) ∧ Nested I f.before fs

theorem Nested.head {I : W → List P → Prop} {w : W} {fs : List (Frame W P)} (h : Nested I w fs) :
    I w (fs.map Frame.pending) := by
  cases fs with
  | nil => exact h
  | cons f fs => exact h.1

/-- The frames do not change when only the world above them does. -/
theorem Nested.replace {I : W → List P → Prop} {w w' : W} {fs : List (Frame W P)}
    (h : Nested I w fs) (hw : I w' (fs.map Frame.pending)) : Nested I w' fs := by
  cases fs with
  | nil => exact hw
  | cons f fs => exact ⟨hw, h.2⟩

section Nested
variable {S : System W P} {I : W → List P → Prop}
  (hstep : ∀ {w w' ps}, I w ps → S.step w w' → I w' ps)
  (hopens : ∀ {w p w' ps}, I w ps → S.opens w p w' → I w' (p :: ps))
  (hcloses : ∀ {w p w' ps}, I w (p :: ps) → S.closes p w w' → I w' ps)
include hstep hopens hcloses

theorem Step.nested {c c' : Config W P} (h : Nested I c.world c.frames) (hs : Step S c c') :
    Nested I c'.world c'.frames := by
  cases hs with
  | step hs => exact h.replace (hstep h.head hs)
  | opens hs => exact ⟨hopens h.head hs, h⟩
  | closes hs => exact h.2.replace (hcloses h.1 hs)
  | aborts => exact h.2

/-- **Such invariants hold along runs.** -/
theorem Run.nested {c c' : Config W P} (h : Nested I c.world c.frames) (hr : Run S c c') :
    Nested I c'.world c'.frames := by
  induction hr with
  | refl => exact h
  | tail _ hs ih => exact Step.nested (I := I) hstep hopens hcloses ih hs

end Nested

/-! ### Clocks -/

/-- One step of a machine whose steps depend on the time: time passes, or the machine steps. -/
inductive TimedStep (S : ℕ → System W P) : ℕ × Config W P → ℕ × Config W P → Prop
  | pass {t t' c} (h : t ≤ t') : TimedStep S (t, c) (t', c)
  | step {t c c'} (h : Step (S t) c c') : TimedStep S (t, c) (t, c')

/-- A run of such a machine, from a configuration and a time to another configuration and time. -/
abbrev TimedRun (S : ℕ → System W P) : ℕ × Config W P → ℕ × Config W P → Prop :=
  Relation.ReflTransGen (TimedStep S)

/-- Time does not run backwards. -/
theorem TimedStep.le {S : ℕ → System W P} {a b : ℕ × Config W P} (h : TimedStep S a b) :
    a.1 ≤ b.1 := by
  cases h with
  | pass h => exact h
  | step h => exact le_rfl

theorem TimedRun.le {S : ℕ → System W P} {a b : ℕ × Config W P} (h : TimedRun S a b) :
    a.1 ≤ b.1 := by
  induction h with
  | refl => exact le_rfl
  | tail _ hs ih => exact ih.trans hs.le

section Timed
variable {S : ℕ → System W P} {I : W → Prop} {start deadline : ℕ}
  (hstep : ∀ {t w w'}, start ≤ t → t ≤ deadline → I w → (S t).step w w' → I w')
  (hopens : ∀ {t w p w'}, start ≤ t → t ≤ deadline → I w → (S t).opens w p w' → I w')
  (hcloses : ∀ {t w p w'}, I w → (S t).closes p w w' → I w')
include hstep hopens hcloses

/-- **What the steps up to a deadline preserve** holds at every time up to the deadline. -/
theorem TimedRun.invariant {c : Config W P} {b : ℕ × Config W P} (h : c.All I)
    (hr : TimedRun S (start, c) b) (hb : b.1 ≤ deadline) : b.2.All I := by
  induction hr with
  | refl => exact h
  | tail hr hs ih =>
    have hle := TimedRun.le hr
    have hprev := ih (hs.le.trans hb)
    cases hs with
    | pass => exact hprev
    | step hs =>
      exact Step.invariant (hstep hle hb) (hopens hle hb) hcloses hprev hs

end Timed

/-- A run that visits only worlds in `G` is a run. -/
theorem Run.of_within {S : System W P} {G : W → Prop} {c c' : Config W P}
    (h : Run (S.within G) c c') : Run S c c' := by
  refine Relation.ReflTransGen.mono (fun c c' hs => ?_) _ _ h
  cases hs with
  | step hs => exact .step hs.1
  | opens hs => exact .opens hs.1
  | closes hs => exact .closes hs.1
  | aborts => exact .aborts

/-! ### Runs that are played -/

section Play
variable {M : Type*}

/-- **Playing moves** one after another, as long as they lead to worlds that are accepted. -/
def play (move : Config W P → M → Option (Config W P)) (accepted : W → Bool) (c : Config W P)
    (moves : List M) : Option (Config W P) :=
  moves.foldlM (fun c m => (move c m).filter fun c' => accepted c'.world) c

theorem Step.within {S : System W P} {G : W → Prop} {c c' : Config W P} (hs : Step S c c')
    (hG : G c'.world) : Step (S.within G) c c' := by
  cases hs with
  | step h => exact .step ⟨h, hG⟩
  | opens h => exact .opens ⟨h, hG⟩
  | closes h => exact .closes ⟨h, hG⟩
  | aborts => exact .aborts

/-- **What is played is reached**, when each move is a step of the machine. -/
theorem Run.of_play {S : System W P} {move : Config W P → M → Option (Config W P)}
    (hmove : ∀ {c m c'}, move c m = some c' → Step S c c') {accepted : W → Bool} {G : W → Prop}
    (hG : ∀ w, accepted w = true → G w) {moves : List M} {c c' : Config W P}
    (h : play move accepted c moves = some c') : Run (S.within G) c c' := by
  induction moves generalizing c with
  | nil =>
    obtain rfl := Option.some.inj h
    exact .refl
  | cons m moves ih =>
    rw [play, List.foldlM_cons] at h
    obtain ⟨c₁, hfirst, hrest⟩ := Option.bind_eq_some_iff.mp h
    obtain ⟨hm, haccepted⟩ := Option.filter_eq_some_iff.mp hfirst
    exact .head ((hmove hm).within (hG _ haccepted)) (ih hrest)

end Play

/-! ### Rollback -/

/-- A run in which more than `n` frames stay open. -/
def RunAbove (S : System W P) (n : ℕ) : Config W P → Config W P → Prop :=
  Relation.ReflTransGen fun c c' => Step S c c' ∧ n < c'.frames.length

/-- The last frame fails. -/
def Aborts (c c' : Config W P) : Prop := ∃ w f fs, c = ⟨w, f :: fs⟩ ∧ c' = ⟨f.before, fs⟩

/-- While more than `n` frames stay open the `n + 1` outermost ones do not change. -/
theorem RunAbove.suffix {S : System W P} {base : List (Frame W P)} {n : ℕ}
    (hn : base.length = n + 1) {c c' : Config W P} (hr : RunAbove S n c c')
    (h : base <:+ c.frames) : base <:+ c'.frames := by
  induction hr with
  | refl => exact h
  | tail _ hs ih =>
    obtain ⟨hs, hlen⟩ := hs
    have hpop : ∀ {f : Frame W P} {fs}, base <:+ f :: fs → n < fs.length → base <:+ fs := by
      intro f fs hsuf hlt
      rcases List.suffix_cons_iff.mp hsuf with heq | hsuf
      · have := congrArg List.length heq
        rw [List.length_cons] at this
        omega
      · exact hsuf
    cases hs with
    | step _ => exact ih
    | opens _ => exact ih.trans (List.suffix_cons _ _)
    | closes _ => exact hpop ih hlen
    | aborts => exact hpop ih hlen

section Above
variable {S : System W P} {I : W → Prop}
  (hstep : ∀ {w w'}, I w → S.step w w' → I w')
  (hopens : ∀ {w p w'}, I w → S.opens w p w' → I w')
  (hcloses : ∀ {w p w'}, I w → S.closes p w w' → I w')
include hstep hopens hcloses

/-- **Invariants above the outermost frames**: what holds when they are the only ones, and what all
steps preserve, holds while they stay open, whatever it was before they were opened. -/
theorem RunAbove.invariant {base : List (Frame W P)} {n : ℕ} (hn : base.length = n + 1)
    {c c' : Config W P} (hr : RunAbove S n c c') (hbase : c.frames = base) (hw : I c.world) :
    I c'.world := by
  have hall : ∃ fs, c'.frames = fs ++ base ∧ I c'.world ∧ ∀ f ∈ fs, I f.before := by
    induction hr with
    | refl => exact ⟨[], hbase, hw, fun _ h => absurd h List.not_mem_nil⟩
    | @tail d d' _ hs ih =>
      obtain ⟨fs, hframes, hd, hfs⟩ := ih
      obtain ⟨hs, hlen⟩ := hs
      -- a frame that closes or fails is none of the outermost ones
      have hpop : ∀ {f : Frame W P} {rest}, f :: rest = fs ++ base → n < rest.length →
          ∃ fs', rest = fs' ++ base ∧ I f.before ∧ ∀ g ∈ fs', I g.before := by
        intro f rest heq hlt
        rcases fs with _ | ⟨g, fs⟩
        · have hlength := congrArg List.length heq
          rw [List.length_cons, List.nil_append, hn] at hlength
          omega
        · obtain ⟨rfl, rfl⟩ := List.cons.inj heq
          exact ⟨fs, rfl, List.forall_mem_cons.mp hfs⟩
      cases hs with
      | step hs => exact ⟨fs, hframes, hstep hd hs, hfs⟩
      | @opens w p w' gs hs =>
        refine ⟨⟨w, p⟩ :: fs, ?_, hopens hd hs, List.forall_mem_cons.mpr ⟨hd, hfs⟩⟩
        rw [List.cons_append, ← hframes]
      | closes hs =>
        obtain ⟨fs', heq, -, hfs'⟩ := hpop hframes hlen
        exact ⟨fs', heq, hcloses hd hs, hfs'⟩
      | aborts =>
        obtain ⟨fs', heq, hbefore, hfs'⟩ := hpop hframes hlen
        exact ⟨fs', heq, hbefore, hfs'⟩
  exact hall.elim fun _ h => h.2.1

end Above

/-- **A frame that fails gives back the configuration in which it was opened**, whatever happened
while it was open. -/
theorem abort_restores {S : System W P} {c c₁ c₂ c₃ : Config W P} {f : Frame W P}
    (hopen : c₁.frames = f :: c.frames) (hbefore : f.before = c.world)
    (hrun : RunAbove S c.frames.length c₁ c₂) (habort : Aborts c₂ c₃)
    (hlen : c₃.frames.length = c.frames.length) : c₃ = c := by
  obtain ⟨w, g, fs, rfl, rfl⟩ := habort
  have hsuf : f :: c.frames <:+ g :: fs :=
    hrun.suffix (by rw [List.length_cons]) (by rw [hopen])
  have heq : f :: c.frames = g :: fs :=
    hsuf.eq_of_length (by rw [List.length_cons, List.length_cons, ← hlen])
  obtain ⟨rfl, rfl⟩ := List.cons.inj heq
  rcases c with ⟨cw, cfs⟩
  exact congrArg (Config.mk · cfs) hbefore

end Nullark.Lib.Rollback
