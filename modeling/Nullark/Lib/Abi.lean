import Nullark.Lib.Bytes

/-! # Encoding tuples of words, byte strings and lists of words

The standard encoding of a flat tuple: first one head word for each component, which is the
component itself or the offset of its tail, then the tails: of a byte string, a length word and the
bytes filled up with zeros to whole words, and of a list, its length and its words. Tuples of one
shape are determined by their encoding (`encode_inj`). -/

namespace Nullark.Lib.Abi

open Nullark.Lib.Bytes

/-- **A component**: a word, a byte string or a list of words. -/
inductive Component
  | word (x : BitVec 256)
  | bytes (data : List UInt8)
  | array (xs : List (BitVec 256))
  deriving DecidableEq

/-- The zeros that fill a byte string up to whole words. -/
def padding (data : List UInt8) : List UInt8 := List.replicate ((32 - data.length % 32) % 32) 0

/-- The tail of a byte string. -/
def tail (data : List UInt8) : List UInt8 :=
  word (BitVec.ofNat 256 data.length) ++ data ++ padding data

/-- The tail of a list of words. -/
def arrayTail (xs : List (BitVec 256)) : List UInt8 := word (BitVec.ofNat 256 xs.length) ++ words xs

/-- The heads, the next tail standing at `offset`. -/
def heads : ℕ → List Component → List (BitVec 256)
  | _, [] => []
  | offset, .word x :: cs => x :: heads offset cs
  | offset, .bytes data :: cs =>
    BitVec.ofNat 256 offset :: heads (offset + (tail data).length) cs
  | offset, .array xs :: cs =>
    BitVec.ofNat 256 offset :: heads (offset + (arrayTail xs).length) cs

def tails : List Component → List UInt8
  | [] => []
  | .word _ :: cs => tails cs
  | .bytes data :: cs => tail data ++ tails cs
  | .array xs :: cs => arrayTail xs ++ tails cs

/-- **The encoding of a tuple.** -/
def encode (cs : List Component) : List UInt8 := words (heads (32 * cs.length) cs) ++ tails cs

@[simp] theorem length_heads : ∀ (offset : ℕ) (cs : List Component),
    (heads offset cs).length = cs.length
  | _, [] => rfl
  | offset, .word _ :: cs => by rw [heads, List.length_cons, length_heads offset, List.length_cons]
  | offset, .bytes data :: cs => by
    rw [heads, List.length_cons, length_heads _ cs, List.length_cons]
  | offset, .array xs :: cs => by
    rw [heads, List.length_cons, length_heads _ cs, List.length_cons]

theorem length_encode (cs : List Component) :
    (encode cs).length = 32 * cs.length + (tails cs).length := by
  rw [encode, List.length_append, length_words, length_heads]

/-- A tuple of words is its words. -/
theorem encode_words (ws : List (BitVec 256)) : encode (ws.map .word) = words ws := by
  have h : ∀ (offset : ℕ) (ws : List (BitVec 256)),
      heads offset (ws.map .word) = ws ∧ tails (ws.map .word) = [] := by
    intro offset ws
    induction ws with
    | nil => exact ⟨rfl, rfl⟩
    | cons x ws ih => exact ⟨by rw [List.map_cons, heads, ih.1], ih.2⟩
  rw [encode, (h _ ws).1, (h 0 ws).2, List.append_nil]

/-- Components of one kind. -/
def SameKind : Component → Component → Prop
  | .word _, .word _ => True
  | .bytes a, .bytes b => a.length < 2 ^ 256 ∧ b.length < 2 ^ 256
  | .array a, .array b => a.length < 2 ^ 256 ∧ b.length < 2 ^ 256
  | _, _ => False

theorem tail_append_inj {a b s t : List UInt8} (ha : a.length < 2 ^ 256) (hb : b.length < 2 ^ 256)
    (h : tail a ++ s = tail b ++ t) : a = b ∧ s = t := by
  unfold tail at h
  simp only [List.append_assoc] at h
  obtain ⟨hword, hdata⟩ := word_append_inj h
  have hlen : a.length = b.length := by
    have := congrArg BitVec.toNat hword
    rwa [BitVec.toNat_ofNat, BitVec.toNat_ofNat, Nat.mod_eq_of_lt ha, Nat.mod_eq_of_lt hb] at this
  obtain ⟨rfl, hrest⟩ := List.append_inj hdata hlen
  exact ⟨rfl, List.append_cancel_left hrest⟩

theorem arrayTail_append_inj {a b : List (BitVec 256)} {s t : List UInt8} (ha : a.length < 2 ^ 256)
    (hb : b.length < 2 ^ 256) (h : arrayTail a ++ s = arrayTail b ++ t) : a = b ∧ s = t := by
  unfold arrayTail at h
  simp only [List.append_assoc] at h
  obtain ⟨hword, hdata⟩ := word_append_inj h
  have hlen : a.length = b.length := by
    have := congrArg BitVec.toNat hword
    rwa [BitVec.toNat_ofNat, BitVec.toNat_ofNat, Nat.mod_eq_of_lt ha, Nat.mod_eq_of_lt hb] at this
  exact words_append_inj hlen hdata

/-- **Tuples of one shape are determined by their encoding.** -/
theorem encode_inj {cs ds : List Component} (hk : List.Forall₂ SameKind cs ds)
    (h : encode cs = encode ds) : cs = ds := by
  have hlen := hk.length_eq
  obtain ⟨hh, ht⟩ := words_append_inj (by simp [hlen]) h
  rw [hlen] at hh
  generalize 32 * ds.length = offset at hh
  clear h hlen
  induction hk generalizing offset with
  | nil => rfl
  | @cons c d cs ds hcd _ ih =>
    rcases c with x | a | a
    · rcases d with y | b | b
      · simp only [heads, List.cons.injEq] at hh
        rw [hh.1, ih ht offset hh.2]
      · exact absurd hcd id
      · exact absurd hcd id
    · rcases d with y | b | b
      · exact absurd hcd id
      · rw [tails, tails] at ht
        obtain ⟨rfl, hrest⟩ := tail_append_inj hcd.1 hcd.2 ht
        simp only [heads, List.cons.injEq, true_and] at hh
        rw [ih hrest _ hh]
      · exact absurd hcd id
    · rcases d with y | b | b
      · exact absurd hcd id
      · exact absurd hcd id
      · rw [tails, tails] at ht
        obtain ⟨rfl, hrest⟩ := arrayTail_append_inj hcd.1 hcd.2 ht
        simp only [heads, List.cons.injEq, true_and] at hh
        rw [ih hrest _ hh]

end Nullark.Lib.Abi
