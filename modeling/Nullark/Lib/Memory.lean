import Nullark.Lib.Bytes

/-! # Memories of bytes

A memory has a byte at each address. Words are written and read big-endian; `Holds m p ws` says that
the words of a list stand one after another from the address `p` on.

* `Holds.write`: what is written elsewhere changes nothing.
* `holds_mstores`: a sequence of words that is written.
* `Holds.read`, `Holds.mload`: what is read back. -/

namespace Nullark.Lib.Memory

open Nullark.Lib.Bytes

abbrev ByteMemory := ℕ → UInt8

/-- `n` bytes from an address on. -/
def read (m : ByteMemory) (p n : ℕ) : List UInt8 := (List.range n).map fun i => m (p + i)

def write (m : ByteMemory) (p : ℕ) (bytes : List UInt8) : ByteMemory :=
  fun a => if p ≤ a ∧ a < p + bytes.length then bytes.getD (a - p) 0 else m a

def mload (m : ByteMemory) (p : ℕ) : BitVec 256 := BitVec.ofNat 256 (beValue (read m p 32))

def mstore (m : ByteMemory) (p : ℕ) (x : BitVec 256) : ByteMemory := write m p (word x)

/-- Words written one behind the other. -/
def mstores (m : ByteMemory) (p : ℕ) : List (BitVec 256) → ByteMemory
  | [] => m
  | x :: ws => mstores (mstore m p x) (p + 32) ws

/-- Bytes, with zeros behind them. -/
def ofBytes (bytes : List UInt8) : ByteMemory := fun a => bytes.getD a 0

/-- **The words at an address.** -/
def Holds (m : ByteMemory) (p : ℕ) (ws : List (BitVec 256)) : Prop :=
  read m p (32 * ws.length) = words ws

variable {m : ByteMemory} {p q : ℕ} {x : BitVec 256} {ws vs : List (BitVec 256)}
  {bytes : List UInt8}

/-! ### Bytes -/

@[simp] theorem length_read (m : ByteMemory) (p n : ℕ) : (read m p n).length = n := by
  rw [read, List.length_map, List.length_range]

@[simp] theorem getElem_read {n i : ℕ} (h : i < (read m p n).length) :
    (read m p n)[i] = m (p + i) := by
  simp only [read, List.getElem_map, List.getElem_range]

theorem read_add (m : ByteMemory) (p a b : ℕ) :
    read m p (a + b) = read m p a ++ read m (p + a) b := by
  unfold read
  rw [List.range_add, List.map_append, List.map_map]
  congr 1
  refine List.map_congr_left fun i _ => ?_
  rw [Function.comp_apply, Nat.add_assoc]

theorem read_write_self (m : ByteMemory) (p : ℕ) (bytes : List UInt8) :
    read (write m p bytes) p bytes.length = bytes := by
  refine List.ext_getElem (length_read _ _ _) fun i hi hi' => ?_
  rw [getElem_read, write, if_pos ⟨Nat.le_add_right _ _, by omega⟩, Nat.add_sub_cancel_left,
    List.getD_eq_getElem?_getD, List.getElem?_eq_getElem hi', Option.getD_some]

theorem read_write_of_disjoint {n : ℕ} (h : p + n ≤ q ∨ q + bytes.length ≤ p) :
    read (write m q bytes) p n = read m p n := by
  unfold read
  refine List.map_congr_left fun i hi => ?_
  rw [List.mem_range] at hi
  rw [write, if_neg (by omega)]

theorem read_ofBytes (bytes : List UInt8) : read (ofBytes bytes) 0 bytes.length = bytes := by
  refine List.ext_getElem (length_read _ _ _) fun i hi hi' => ?_
  rw [getElem_read, ofBytes, Nat.zero_add, List.getD_eq_getElem?_getD,
    List.getElem?_eq_getElem hi', Option.getD_some]

theorem beValue_word (x : BitVec 256) : BitVec.ofNat 256 (beValue (word x)) = x := by
  have hlt : x.toNat < 256 ^ 32 := by
    have := x.isLt
    norm_num at this ⊢
    exact this
  rw [word, beValue_beBytes, Nat.mod_eq_of_lt hlt, BitVec.ofNat_toNat, BitVec.setWidth_eq]

/-! ### Words -/

theorem holds_append :
    Holds m p (ws ++ vs) ↔ Holds m p ws ∧ Holds m (p + 32 * ws.length) vs := by
  unfold Holds
  rw [List.length_append, Nat.mul_add, read_add, words, List.flatMap_append]
  refine ⟨fun h => List.append_inj h ?_, fun h => congrArg₂ (· ++ ·) h.1 h.2⟩
  rw [length_read, ← length_words, words]

theorem holds_cons : Holds m p (x :: ws) ↔ Holds m p [x] ∧ Holds m (p + 32) ws := by
  rw [← List.singleton_append, holds_append]
  rfl

/-- **What is written elsewhere** does not touch the words. -/
theorem Holds.write (h : Holds m p ws)
    (hd : p + 32 * ws.length ≤ q ∨ q + bytes.length ≤ p) : Holds (write m q bytes) p ws :=
  (read_write_of_disjoint hd).trans h

theorem Holds.mstore (h : Holds m p ws) (hd : p + 32 * ws.length ≤ q ∨ q + 32 ≤ p) :
    Holds (mstore m q x) p ws :=
  h.write (by rwa [length_word])

theorem Holds.mstores : ∀ {vs : List (BitVec 256)} {m : ByteMemory} {q : ℕ}, Holds m p ws →
    p + 32 * ws.length ≤ q ∨ q + 32 * vs.length ≤ p → Holds (mstores m q vs) p ws
  | [], _, _, h, _ => h
  | v :: vs, _, _, h, hd => by
    rw [List.length_cons] at hd
    exact (h.mstore (by omega)).mstores (by omega)

theorem holds_write (m : ByteMemory) (p : ℕ) (ws : List (BitVec 256)) :
    Holds (Memory.write m p (words ws)) p ws := by
  unfold Holds
  rw [← length_words]
  exact read_write_self m p _

theorem holds_mstore (m : ByteMemory) (p : ℕ) (x : BitVec 256) :
    Holds (Memory.mstore m p x) p [x] := by
  have h := holds_write m p [x]
  rwa [words_cons, words_nil, List.append_nil] at h

/-- **A sequence of words** that is written. -/
theorem holds_mstores : ∀ (ws : List (BitVec 256)) (m : ByteMemory) (p : ℕ),
    Holds (Memory.mstores m p ws) p ws
  | [], _, _ => rfl
  | x :: ws, m, p => holds_cons.mpr
    ⟨(holds_mstore m p x).mstores (.inl le_rfl), holds_mstores ws _ _⟩

/-- Words that are written behind others. -/
theorem Holds.mstores_append (h : Holds m p ws) (hq : q = p + 32 * ws.length)
    (vs : List (BitVec 256)) : Holds (Memory.mstores m q vs) p (ws ++ vs) :=
  holds_append.mpr ⟨h.mstores (.inl hq.ge), hq ▸ holds_mstores vs m q⟩

theorem holds_ofBytes (ws : List (BitVec 256)) : Holds (ofBytes (words ws)) 0 ws := by
  unfold Holds
  rw [← length_words]
  exact read_ofBytes _

theorem Holds.read {n : ℕ} (h : Holds m p ws) (hn : n = 32 * ws.length) :
    Memory.read m p n = words ws := by
  rw [hn]
  exact h

theorem Holds.mload (h : Holds m p [x]) : Memory.mload m p = x := by
  have hread := h.read (n := 32) rfl
  rw [words_cons, words_nil, List.append_nil] at hread
  rw [Memory.mload, hread, beValue_word]

/-- The word at a position of the list. -/
theorem Holds.mload_at {i : ℕ} (h : Holds m p ws) (hq : q = p + 32 * i) (hi : ws[i]? = some x) :
    Memory.mload m q = x := by
  induction ws generalizing p i with
  | nil => simp at hi
  | cons w ws ih =>
    cases i with
    | zero =>
      obtain rfl : w = x := by simpa using hi
      rw [hq]
      exact (holds_cons.mp h).1.mload
    | succ i => exact ih (holds_cons.mp h).2 (by omega) hi

end Nullark.Lib.Memory
