import Mathlib.Tactic

/-! # Maps and sets that keep the order of insertion

The `Map` and `Set` of JavaScript: a list of entries with distinct keys. Setting a key that is
there keeps its place, a new key goes to the end. -/

namespace Nullark.Lib.Ordered

variable {K V : Type*} [DecidableEq K]

/-- **An insertion-ordered map.** -/
abbrev JsMap (K V : Type*) := List (K × V)

def get : JsMap K V → K → Option V
  | [], _ => none
  | (k', v) :: m, k => if k' = k then some v else get m k

def set : JsMap K V → K → V → JsMap K V
  | [], k, v => [(k, v)]
  | (k', v') :: m, k, v => if k' = k then (k', v) :: m else (k', v') :: set m k v

def delete (m : JsMap K V) (k : K) : JsMap K V := m.filter fun e => e.1 ≠ k

def keys (m : JsMap K V) : List K := m.map Prod.fst

/-- Adding to an insertion-ordered set. -/
def add (s : List K) (k : K) : List K := if k ∈ s then s else s ++ [k]

@[simp] theorem get_nil (k : K) : get ([] : JsMap K V) k = none := rfl

@[simp] theorem get_set_self : ∀ (m : JsMap K V) (k : K) (v : V), get (set m k v) k = some v
  | [], k, v => by simp [set, get]
  | (k', v') :: m, k, v => by
    unfold set
    split_ifs with h
    · simp [get, h]
    · rw [get, if_neg h, get_set_self m]

theorem get_set_of_ne : ∀ (m : JsMap K V) {k k' : K} (v : V), k' ≠ k →
    get (set m k v) k' = get m k'
  | [], k, k', v, h => by simp [set, get, h.symm]
  | (k₀, v₀) :: m, k, k', v, h => by
    unfold set
    split_ifs with h₀
    · subst h₀
      simp [get, h.symm]
    · rw [get, get, get_set_of_ne m v h]

theorem get_set (m : JsMap K V) (k k' : K) (v : V) :
    get (set m k v) k' = if k' = k then some v else get m k' := by
  split_ifs with h
  · rw [h, get_set_self]
  · exact get_set_of_ne m v h

theorem mem_keys : ∀ {m : JsMap K V} {k : K}, k ∈ keys m ↔ ∃ v, get m k = some v
  | [], k => by simp [keys]
  | (k', v') :: m, k => by
    have ih : k ∈ keys m ↔ _ := mem_keys
    unfold keys at ih ⊢
    rw [List.map_cons, List.mem_cons, ih, get]
    split_ifs with h
    · simp [h]
    · simp [Ne.symm h]

theorem get_eq_none {m : JsMap K V} {k : K} (h : k ∉ keys m) : get m k = none := by
  rcases hg : get m k with _ | v
  · rfl
  · exact absurd (mem_keys.mpr ⟨v, hg⟩) h

/-- The keys after setting one. -/
theorem keys_set : ∀ (m : JsMap K V) (k : K) (v : V), keys (set m k v) = add (keys m) k
  | [], k, v => by simp [set, keys, add]
  | (k', v') :: m, k, v => by
    have ih := keys_set m k v
    unfold keys add at ih ⊢
    unfold set
    split_ifs with h hmem hmem
    · simp
    · simp [h] at hmem
    · have hin : k ∈ m.map Prod.fst := by simpa [Ne.symm h] using hmem
      rw [List.map_cons, ih, if_pos hin, List.map_cons]
    · have hout : k ∉ m.map Prod.fst := fun hin => hmem (List.mem_cons_of_mem _ hin)
      rw [List.map_cons, ih, if_neg hout, List.map_cons, List.cons_append]

@[simp] theorem mem_add {s : List K} {k k' : K} : k' ∈ add s k ↔ k' ∈ s ∨ k' = k := by
  unfold add
  split_ifs with h
  · exact ⟨.inl, fun hor => hor.elim id fun heq => heq ▸ h⟩
  · rw [List.mem_append, List.mem_singleton]

/-- Adding the values of a list, one after another. -/
theorem mem_foldl_add {β : Type*} (f : β → K) {k : K} : ∀ (l : List β) (s : List K),
    k ∈ l.foldl (fun s b => add s (f b)) s ↔ k ∈ s ∨ ∃ b ∈ l, f b = k
  | [], s => by simp
  | b :: l, s => by
    rw [List.foldl_cons, mem_foldl_add f l, mem_add, List.exists_mem_cons_iff, or_assoc,
      eq_comm (a := k)]

/-! ### Distinct keys -/

theorem nodup_add {s : List K} (h : s.Nodup) (k : K) : (add s k).Nodup := by
  unfold add
  split_ifs with hk
  · exact h
  · exact List.nodup_append.mpr ⟨h, List.nodup_singleton k, fun a ha b hb heq =>
      hk (by rw [List.mem_singleton] at hb; rw [← hb, ← heq]; exact ha)⟩

theorem nodup_keys_set {m : JsMap K V} (h : (keys m).Nodup) (k : K) (v : V) :
    (keys (set m k v)).Nodup := by
  rw [keys_set]
  exact nodup_add h k

theorem nodup_keys_delete {m : JsMap K V} (h : (keys m).Nodup) (k : K) :
    (keys (delete m k)).Nodup := by
  unfold keys delete at *
  exact h.sublist (List.filter_sublist.map Prod.fst)

theorem get_delete_of_ne : ∀ (m : JsMap K V) {k k' : K}, k' ≠ k → get (delete m k) k' = get m k'
  | [], _, _, _ => rfl
  | (k₀, v₀) :: m, k, k', h => by
    have ih := get_delete_of_ne m h
    unfold delete at ih ⊢
    rw [List.filter_cons]
    by_cases h₀ : k₀ = k
    · rw [if_neg (by simp [h₀]), ih, get, if_neg (by rw [h₀]; exact h.symm)]
    · rw [if_pos (by simp [h₀]), get, get, ih]

@[simp] theorem get_delete_self (m : JsMap K V) (k : K) : get (delete m k) k = none := by
  refine get_eq_none fun hk => ?_
  obtain ⟨e, he, rfl⟩ := List.mem_map.mp hk
  exact of_decide_eq_true (List.mem_filter.mp he).2 rfl

theorem get_delete (m : JsMap K V) (k k' : K) :
    get (delete m k) k' = if k' = k then none else get m k' := by
  split_ifs with h
  · rw [h, get_delete_self]
  · exact get_delete_of_ne m h

/-! ### The last of a list of writes -/

section Writes
omit [DecidableEq K]
variable {α : Type*} (write : α → K → Option V)

/-- What the last element of a list that writes a key writes to it. -/
def lastWrite : List α → K → Option V
  | [], _ => none
  | x :: xs, k => (lastWrite xs k).or (write x k)

@[simp] theorem lastWrite_nil (k : K) : lastWrite write [] k = none := rfl

theorem lastWrite_append (k : K) : ∀ xs ys : List α,
    lastWrite write (xs ++ ys) k = (lastWrite write ys k).or (lastWrite write xs k)
  | [], ys => (Option.or_none).symm
  | x :: xs, ys => by
    rw [List.cons_append, lastWrite, lastWrite, lastWrite_append k xs ys, Option.or_assoc]

theorem lastWrite_eq_none {k : K} : ∀ {xs : List α},
    lastWrite write xs k = none ↔ ∀ x ∈ xs, write x k = none
  | [] => by simp
  | x :: xs => by
    rw [lastWrite, Option.or_eq_none_iff, lastWrite_eq_none, List.forall_mem_cons, and_comm]

/-- What is written last is written. -/
theorem exists_of_lastWrite {k : K} {v : V} : ∀ {xs : List α}, lastWrite write xs k = some v →
    ∃ x ∈ xs, write x k = some v
  | x :: xs, h => by
    rw [lastWrite] at h
    rcases hl : lastWrite write xs k with _ | v'
    · rw [hl, Option.none_or] at h
      exact ⟨x, List.mem_cons_self, h⟩
    · rw [hl, Option.some_or] at h
      obtain ⟨y, hy, hwrite⟩ := exists_of_lastWrite hl
      exact ⟨y, List.mem_cons_of_mem _ hy, hwrite.trans h⟩

end Writes

end Nullark.Lib.Ordered
