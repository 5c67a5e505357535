import Mathlib.Tactic

/-! # Big-endian bytes and words

A natural number written with `n` bytes, most significant first (`beBytes`), and read back
(`beValue`). A word is 32 bytes; a list of words determines its bytes and is determined by them
(`words_injective`). -/

namespace Nullark.Lib.Bytes

/-- **The low `n` bytes of a number**, most significant first. -/
def beBytes : ℕ → ℕ → List UInt8
  | 0, _ => []
  | n + 1, v => beBytes n (v / 256) ++ [UInt8.ofNat v]

def beValue (bytes : List UInt8) : ℕ := bytes.foldl (fun v b => v * 256 + b.toNat) 0

@[simp] theorem length_beBytes : ∀ n v : ℕ, (beBytes n v).length = n
  | 0, _ => rfl
  | n + 1, v => by rw [beBytes, List.length_append, length_beBytes n]; rfl

theorem beValue_concat (bytes : List UInt8) (b : UInt8) :
    beValue (bytes ++ [b]) = beValue bytes * 256 + b.toNat := by
  simp [beValue, List.foldl_append]

theorem beValue_beBytes : ∀ n v : ℕ, beValue (beBytes n v) = v % 256 ^ n
  | 0, v => by simp [beBytes, beValue, Nat.mod_one]
  | n + 1, v => by
    have hb : (UInt8.ofNat v).toNat = v % 256 := rfl
    rw [beBytes, beValue_concat, beValue_beBytes n, hb, pow_succ', Nat.mod_mul]
    ring

theorem beBytes_injOn {n v w : ℕ} (hv : v < 256 ^ n) (hw : w < 256 ^ n)
    (h : beBytes n v = beBytes n w) : v = w := by
  have := congrArg beValue h
  rwa [beValue_beBytes, beValue_beBytes, Nat.mod_eq_of_lt hv, Nat.mod_eq_of_lt hw] at this

/-! ### Words -/

/-- The 32 bytes of a word. -/
def word (x : BitVec 256) : List UInt8 := beBytes 32 x.toNat

@[simp] theorem length_word (x : BitVec 256) : (word x).length = 32 := length_beBytes _ _

theorem word_injective : Function.Injective word := by
  intro x y h
  have hx : ∀ z : BitVec 256, z.toNat < 256 ^ 32 := fun z => by
    have := z.isLt; norm_num at this ⊢; exact this
  exact BitVec.eq_of_toNat_eq (beBytes_injOn (hx x) (hx y) h)

theorem word_append_inj {x y : BitVec 256} {s t : List UInt8} (h : word x ++ s = word y ++ t) :
    x = y ∧ s = t := by
  obtain ⟨h1, h2⟩ := List.append_inj h (by simp)
  exact ⟨word_injective h1, h2⟩

/-- The words of a list, one after another. -/
def words (ws : List (BitVec 256)) : List UInt8 := ws.flatMap word

@[simp] theorem words_nil : words [] = [] := rfl

@[simp] theorem words_cons (x : BitVec 256) (ws : List (BitVec 256)) :
    words (x :: ws) = word x ++ words ws := List.flatMap_cons

theorem length_words (ws : List (BitVec 256)) : (words ws).length = 32 * ws.length := by
  induction ws with
  | nil => rfl
  | cons x ws ih => rw [words_cons, List.length_append, length_word, ih, List.length_cons]; omega

theorem words_append_inj {ws vs : List (BitVec 256)} {s t : List UInt8}
    (hlen : ws.length = vs.length) (h : words ws ++ s = words vs ++ t) : ws = vs ∧ s = t := by
  induction ws generalizing vs with
  | nil =>
    obtain rfl : vs = [] := List.length_eq_zero_iff.mp hlen.symm
    exact ⟨rfl, by simpa using h⟩
  | cons x ws ih =>
    rcases vs with _ | ⟨y, vs⟩
    · simp at hlen
    · rw [words_cons, words_cons, List.append_assoc, List.append_assoc] at h
      obtain ⟨rfl, hrest⟩ := word_append_inj h
      obtain ⟨rfl, rfl⟩ := ih (by simpa using hlen) hrest
      exact ⟨rfl, rfl⟩

/-- **Words are determined by their bytes.** -/
theorem words_injective : Function.Injective words := by
  intro ws vs h
  have hlen : ws.length = vs.length := by
    have := congrArg List.length h
    rw [length_words, length_words] at this
    omega
  exact (words_append_inj (s := []) (t := []) hlen (by simpa using h)).1

end Nullark.Lib.Bytes
