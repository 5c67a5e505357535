import Mathlib.Logic.Function.Basic
import Mathlib.Tactic

/-! # Stores whose entries expire

A store maps keys to values that are kept until some time. Nothing is ever removed; an entry that has
expired is not found any more.

* `get_put_self`, `get_put_of_ne`: what is found after a write.
* `get_eq_none_of_le`: what is not found is not found later.
* `Finds`: what a store finds that may keep its entries for longer. -/

namespace Nullark.Lib.ExpiringStore

variable {K V : Type*}

structure Entry (V : Type*) where
  value : V
  expiresAt : ℕ
  deriving DecidableEq

/-- **A store.** -/
abbrev Store (K V : Type*) := K → Option (Entry V)

/-- The store without entries. -/
def empty : Store K V := fun _ => none

/-- **What is found** under a key. -/
def get (s : Store K V) (now : ℕ) (key : K) : Option V :=
  (s key).bind fun e => if now < e.expiresAt then some e.value else none

/-- **Writing** a value that lives for a while. -/
def put [DecidableEq K] (s : Store K V) (now ttl : ℕ) (key : K) (value : V) : Store K V :=
  Function.update s key (some ⟨value, now + ttl⟩)

/-- **What may be found** under a key by a store that keeps entries at least as long. -/
def Finds (s : Store K V) (now : ℕ) (key : K) (found : Option V) : Prop :=
  found = get s now key ∨ found = (s key).map (·.value)

variable {s : Store K V} {now now' ttl : ℕ} {key key' : K} {value : V}

theorem get_empty : get (empty : Store K V) now key = none := rfl

theorem get_of_entry {e : Entry V} (h : s key = some e) (hlive : now < e.expiresAt) :
    get s now key = some e.value := by
  unfold get
  rw [h, Option.bind_some, if_pos hlive]

/-- What is found is an entry that has not expired. -/
theorem get_eq_some : get s now key = some value ↔
    ∃ e, s key = some e ∧ now < e.expiresAt ∧ e.value = value := by
  unfold get
  rw [Option.bind_eq_some_iff]
  refine exists_congr fun e => and_congr_right fun _ => ?_
  split_ifs with h <;> simp [h]

/-- What is not found now is not found later. -/
theorem get_eq_none_of_le (h : get s now key = none) (hle : now ≤ now') :
    get s now' key = none := by
  by_contra hne
  obtain ⟨value, hvalue⟩ := Option.ne_none_iff_exists'.mp hne
  obtain ⟨e, he, hlive, -⟩ := get_eq_some.mp hvalue
  rw [get_of_entry he (by omega)] at h
  cases h

/-- An entry that lives is found, however long entries are kept. -/
theorem Finds.of_entry {found : Option V} (h : Finds s now key found) {e : Entry V}
    (he : s key = some e) (hlive : now < e.expiresAt) : found = some e.value := by
  rcases h with rfl | rfl
  · exact get_of_entry he hlive
  · rw [he, Option.map_some]

/-- Nothing is found where nothing was written. -/
theorem Finds.of_none {found : Option V} (h : Finds s now key found) (he : s key = none) :
    found = none := by
  rcases h with rfl | rfl
  · rw [get, he, Option.bind_none]
  · rw [he, Option.map_none]

section Put
variable [DecidableEq K]

@[simp] theorem put_self : put s now ttl key value key = some ⟨value, now + ttl⟩ :=
  Function.update_self ..

theorem put_of_ne (h : key' ≠ key) : put s now ttl key value key' = s key' :=
  Function.update_of_ne h ..

theorem get_put_self (h : now' < now + ttl) : get (put s now ttl key value) now' key = some value :=
  get_of_entry put_self h

theorem get_put_of_ne (h : key' ≠ key) : get (put s now ttl key value) now' key' = get s now' key' := by
  unfold get
  rw [put_of_ne h]

/-- Values written one after another, each under its key. -/
def putAll (s : Store K V) (now ttl : ℕ) (writes : List (K × V)) : Store K V :=
  writes.foldl (fun s w => put s now ttl w.1 w.2) s

theorem putAll_of_not_mem {writes : List (K × V)} (h : key ∉ writes.map (·.1)) :
    putAll s now ttl writes key = s key := by
  induction writes generalizing s with
  | nil => rfl
  | cons w writes ih =>
    rw [List.map_cons, List.mem_cons, not_or] at h
    exact (ih h.2).trans (put_of_ne h.1)

/-- **Each key has its last value.** -/
theorem putAll_of_mem {writes : List (K × V)} (hkeys : (writes.map (·.1)).Nodup)
    (h : (key, value) ∈ writes) : putAll s now ttl writes key = some ⟨value, now + ttl⟩ := by
  induction writes generalizing s with
  | nil => exact absurd h List.not_mem_nil
  | cons w writes ih =>
    rw [List.map_cons, List.nodup_cons] at hkeys
    rcases List.mem_cons.mp h with rfl | hmem
    · exact (putAll_of_not_mem hkeys.1).trans put_self
    · exact ih hkeys.2 hmem

end Put

end Nullark.Lib.ExpiringStore
