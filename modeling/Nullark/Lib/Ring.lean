import Mathlib.Tactic

/-! # Rings of slots that remember the last values written

A ring of `n` slots, written round and round, holds the last `n` values of its history
(`Holds`, `Holds.exists_slot`). The slot that is written next holds the value that falls out
(`Holds.next_of_le`), and a scan backwards from the newest slot visits every other slot
(`exists_back`). -/

namespace Nullark.Lib.Ring

variable {α : Type*} {n : ℕ} {z x r : α} {slots : ℕ → α} {newest : ℕ} {hist : List α}

/-- The last `n` values, oldest first. -/
def window (n : ℕ) (hist : List α) : List α := hist.drop (hist.length - n)

/-- **The ring holds the history.** The history is written oldest first; slots not written yet hold
the blank value `z`. -/
structure Holds (n : ℕ) (z : α) (slots : ℕ → α) (newest : ℕ) (hist : List α) : Prop where
  pos : 0 < hist.length
  newest_eq : newest = (hist.length - 1) % n
  recent : ∀ (k : ℕ) (h : k < hist.length), hist.length ≤ k + n → slots (k % n) = hist[k]
  blank : ∀ j < n, hist.length ≤ j → slots j = z

theorem mem_window :
    r ∈ window n hist ↔ ∃ (k : ℕ) (h : k < hist.length), hist.length ≤ k + n ∧ hist[k] = r := by
  unfold window
  rw [List.mem_iff_getElem]
  constructor
  · rintro ⟨i, hi, hr⟩
    rw [List.length_drop] at hi
    refine ⟨hist.length - n + i, by omega, by omega, ?_⟩
    rw [← hr, List.getElem_drop]
  · rintro ⟨k, hk, hn, hr⟩
    refine ⟨k - (hist.length - n), by rw [List.length_drop]; omega, ?_⟩
    rw [List.getElem_drop, ← hr]
    congr 1
    omega

/-- The first value a ring is given. -/
theorem Holds.singleton (hblank : ∀ j < n, slots j = z) :
    Holds n z (Function.update slots 0 x) 0 [x] where
  pos := by simp
  newest_eq := by simp
  recent := fun k hk _ => by
    obtain rfl : k = 0 := by simpa using hk
    simp
  blank := fun j hj hlen => by
    rw [List.length_singleton] at hlen
    rw [Function.update_of_ne (by omega), hblank j hj]

/-- The slot written next. -/
theorem Holds.succ_newest (h : Holds n z slots newest hist) :
    (newest + 1) % n = hist.length % n := by
  have := h.pos
  rw [h.newest_eq, Nat.mod_add_mod, Nat.sub_add_cancel this]

/-- **The value that falls out** is the oldest of the last `n`, once there are `n`. -/
theorem Holds.next_of_le (hn : 0 < n) (h : Holds n z slots newest hist) (hle : n ≤ hist.length) :
    ∃ _ : hist.length - n < hist.length, slots ((newest + 1) % n) = hist[hist.length - n] := by
  have hlt : hist.length - n < hist.length := by omega
  have hslot : (hist.length - n) % n = hist.length % n := by
    rw [← Nat.add_mod_right (hist.length - n) n, Nat.sub_add_cancel hle]
  refine ⟨hlt, ?_⟩
  rw [h.succ_newest, ← hslot]
  exact h.recent (hist.length - n) hlt (by omega)

theorem Holds.next_of_lt (h : Holds n z slots newest hist) (hlt : hist.length < n) :
    slots ((newest + 1) % n) = z := by
  rw [h.succ_newest, Nat.mod_eq_of_lt hlt]
  exact h.blank _ hlt le_rfl

/-- **Writing the next slot** appends to the history. -/
theorem Holds.push (h : Holds n z slots newest hist) :
    Holds n z (Function.update slots ((newest + 1) % n) x) ((newest + 1) % n) (hist ++ [x]) := by
  rw [h.succ_newest]
  refine ⟨by simp, by simp, fun k hk hle => ?_, fun j hj hle => ?_⟩
  · rw [List.length_append, List.length_singleton] at hk hle
    rcases Nat.eq_or_lt_of_le (Nat.lt_succ_iff.mp hk) with rfl | hlt
    · simp
    · have hne : k % n ≠ hist.length % n := by
        intro he
        have hdvd := (Nat.modEq_iff_dvd' hlt.le).mp he
        have := Nat.le_of_dvd (by omega) hdvd
        omega
      rw [Function.update_of_ne hne, h.recent k hlt (by omega), List.getElem_append_left hlt]
  · rw [List.length_append, List.length_singleton] at hle
    rw [Nat.mod_eq_of_lt (by omega), Function.update_of_ne (by omega)]
    exact h.blank j hj (by omega)

/-- **The contents of the ring** are the last `n` values. -/
theorem Holds.exists_slot (h : Holds n z slots newest hist) (hr : r ≠ z) :
    (∃ j < n, slots j = r) ↔ r ∈ window n hist := by
  rw [mem_window]
  constructor
  · rintro ⟨j, hj, hs⟩
    have hlt : j < hist.length := by
      by_contra hge
      exact hr (hs ▸ h.blank j hj (not_lt.mp hge))
    -- the last position written to slot `j`
    have hdiv := Nat.div_add_mod (hist.length - 1 - j) n
    have hmod := Nat.mod_lt (hist.length - 1 - j) (show 0 < n by omega)
    refine ⟨j + n * ((hist.length - 1 - j) / n), by omega, by omega, ?_⟩
    rw [← h.recent _ (by omega) (by omega), Nat.add_mul_mod_self_left, Nat.mod_eq_of_lt hj, hs]
  · rintro ⟨k, hk, hle, rfl⟩
    have hpos : 0 < n := by omega
    exact ⟨k % n, Nat.mod_lt _ hpos, h.recent k hk hle⟩

/-- The newest slot holds the last value. -/
theorem Holds.newest_slot (hn : 0 < n) (h : Holds n z slots newest hist) :
    ∃ _ : hist.length - 1 < hist.length, slots newest = hist[hist.length - 1] := by
  have hpos := h.pos
  have hlt : hist.length - 1 < hist.length := by omega
  have key := h.recent (hist.length - 1) hlt (by omega)
  rw [← h.newest_eq] at key
  exact ⟨hlt, key⟩

/-! ### One value more -/

theorem mem_window_concat (hn : 0 < n) :
    r ∈ window n (hist ++ [x]) ↔
      r = x ∨ ∃ (k : ℕ) (h : k < hist.length), hist.length < k + n ∧ hist[k] = r := by
  rw [mem_window]
  constructor
  · rintro ⟨k, hk, hle, hr⟩
    rw [List.length_append, List.length_singleton] at hk hle
    rcases Nat.eq_or_lt_of_le (Nat.lt_succ_iff.mp hk) with rfl | hlt
    · left; simpa using hr.symm
    · right; exact ⟨k, hlt, by omega, by rw [← hr, List.getElem_append_left hlt]⟩
  · rintro (rfl | ⟨k, hk, hlt, hr⟩)
    · exact ⟨hist.length, by simp, by simp; omega, by simp⟩
    · refine ⟨k, by simp; omega, by simp; omega, ?_⟩
      rw [List.getElem_append_left hk, hr]

/-- Without repetitions, the window loses exactly the value that falls out. -/
theorem mem_window_of_nodup (hnd : hist.Nodup) :
    (∃ (k : ℕ) (h : k < hist.length), hist.length < k + n ∧ hist[k] = r) ↔
      r ∈ window n hist ∧ ∀ (_ : 0 < n) (_ : n ≤ hist.length), r ≠ hist[hist.length - n] := by
  rw [mem_window]
  constructor
  · rintro ⟨k, hk, hlt, rfl⟩
    refine ⟨⟨k, hk, hlt.le, rfl⟩, fun hpos hle heq => ?_⟩
    have := (List.Nodup.getElem_inj_iff hnd).mp heq
    omega
  · rintro ⟨⟨k, hk, hle, rfl⟩, hne⟩
    refine ⟨k, hk, lt_of_le_of_ne hle fun heq => ?_, rfl⟩
    refine hne (by omega) (by omega) ?_
    congr 1
    omega

/-! ### Scanning backwards -/

/-- The slot `offset` places before the newest one. -/
def back (n newest offset : ℕ) : ℕ :=
  if offset ≤ newest then newest - offset else n + newest - offset

/-- **A scan backwards visits every slot** but the newest. -/
theorem exists_back {P : ℕ → Prop} (h : newest < n) :
    (P newest ∨ ∃ offset, 1 ≤ offset ∧ offset < n ∧ P (back n newest offset)) ↔ ∃ j < n, P j := by
  constructor
  · rintro (hp | ⟨offset, h1, h2, hp⟩)
    · exact ⟨newest, h, hp⟩
    · refine ⟨_, ?_, hp⟩
      unfold back
      split_ifs <;> omega
  · rintro ⟨j, hj, hp⟩
    rcases lt_trichotomy j newest with hlt | rfl | hgt
    · refine .inr ⟨newest - j, by omega, by omega, ?_⟩
      rwa [back, if_pos (by omega), Nat.sub_sub_self hlt.le]
    · exact .inl hp
    · refine .inr ⟨n + newest - j, by omega, by omega, ?_⟩
      rwa [back, if_neg (by omega), Nat.sub_sub_self (by omega)]

end Nullark.Lib.Ring
