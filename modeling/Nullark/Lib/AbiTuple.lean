import Nullark.Lib.Abi

/-! # Tuples of typed values, and reading them back

A list of types has a type of tuples, and a tuple is encoded as the components of its values.
`decode` reads the values at the places that the heads give: `decode_encode`. -/

namespace Nullark.Lib.AbiTuple

open Nullark.Lib.Bytes Nullark.Lib.Abi

/-- **The types of values.** -/
inductive AbiType
  | bytes
  | bytes32Array
  | bytes32
  | address
  | uint256
  deriving DecidableEq, Repr

/-- The values of a type. -/
abbrev AbiType.Val : AbiType → Type
  | .bytes => List UInt8
  | .bytes32Array => List (BitVec 256)
  | .bytes32 => BitVec 256
  | .address => BitVec 160
  | .uint256 => BitVec 256

/-- **The tuples of a list of types.** -/
abbrev Tuple : List AbiType → Type
  | [] => Unit
  | t :: ts => t.Val × Tuple ts

def component : (t : AbiType) → t.Val → Component
  | .bytes, data => .bytes data
  | .bytes32Array, xs => .array xs
  | .bytes32, x => .word x
  | .address, a => .word (a.setWidth 256)
  | .uint256, x => .word x

def components : (ts : List AbiType) → Tuple ts → List Component
  | [], _ => []
  | t :: ts, (x, xs) => component t x :: components ts xs

theorem length_components : ∀ (ts : List AbiType) (xs : Tuple ts),
    (components ts xs).length = ts.length
  | [], _ => rfl
  | _ :: ts, (_, xs) => congrArg (· + 1) (length_components ts xs)

/-- **The encoding of a tuple of values.** -/
def encodeTuple (ts : List AbiType) (xs : Tuple ts) : List UInt8 := encode (components ts xs)

/-- A tail is not much longer than its bytes. -/
theorem length_tail_le (data : List UInt8) : (tail data).length ≤ data.length + 63 := by
  have hpadding : (padding data).length ≤ 31 := by
    rw [padding, List.length_replicate]
    omega
  rw [tail, List.length_append, List.length_append, length_word]
  omega

theorem length_arrayTail (xs : List (BitVec 256)) :
    (arrayTail xs).length = 32 + 32 * xs.length := by
  rw [arrayTail, List.length_append, length_word, length_words]

/-! ### Reading -/

/-- The `n` bytes at a position. -/
def read (data : List UInt8) (pos n : ℕ) : Option (List UInt8) :=
  if pos + n ≤ data.length then some ((data.drop pos).take n) else none

def readWord (data : List UInt8) (pos : ℕ) : Option (BitVec 256) :=
  (read data pos 32).map fun bytes => BitVec.ofNat 256 (beValue bytes)

def readWords (data : List UInt8) : ℕ → ℕ → Option (List (BitVec 256))
  | _, 0 => some []
  | pos, n + 1 => do
    let x ← readWord data pos
    let xs ← readWords data (pos + 32) n
    return x :: xs

/-- A value whose head stands at a position. -/
def decodeAt (data : List UInt8) (pos : ℕ) : (t : AbiType) → Option t.Val
  | .bytes => do
    let offset ← readWord data pos
    let length ← readWord data offset.toNat
    read data (offset.toNat + 32) length.toNat
  | .bytes32Array => do
    let offset ← readWord data pos
    let length ← readWord data offset.toNat
    readWords data (offset.toNat + 32) length.toNat
  | .bytes32 => readWord data pos
  | .address => (readWord data pos).map fun x => x.setWidth 160
  | .uint256 => readWord data pos

def decodeFrom (data : List UInt8) : ℕ → (ts : List AbiType) → Option (Tuple ts)
  | _, [] => some ()
  | pos, t :: ts => do
    let x ← decodeAt data pos t
    let xs ← decodeFrom data (pos + 32) ts
    return (x, xs)

/-- **The tuple in an encoding.** -/
def decode (ts : List AbiType) (data : List UInt8) : Option (Tuple ts) := decodeFrom data 0 ts

/-! ### What is encoded is read back -/

theorem read_append (pre x post : List UInt8) :
    read (pre ++ (x ++ post)) pre.length x.length = some x := by
  have hle : pre.length + x.length ≤ (pre ++ (x ++ post)).length := by
    simp only [List.length_append]
    omega
  rw [read, if_pos hle, List.drop_left, List.take_left]

theorem readWord_append (pre : List UInt8) (x : BitVec 256) (post : List UInt8) :
    readWord (pre ++ (word x ++ post)) pre.length = some x := by
  have hread := read_append pre (word x) post
  rw [length_word] at hread
  have hlt : x.toNat < 256 ^ 32 := by
    have := x.isLt
    norm_num at this ⊢
    exact this
  rw [readWord, hread, Option.map_some, word, beValue_beBytes, Nat.mod_eq_of_lt hlt,
    BitVec.ofNat_toNat, BitVec.setWidth_eq]

theorem readWords_append (xs : List (BitVec 256)) : ∀ pre post : List UInt8,
    readWords (pre ++ (words xs ++ post)) pre.length xs.length = some xs := by
  induction xs with
  | nil => exact fun _ _ => rfl
  | cons x xs ih =>
    intro pre post
    have hword := readWord_append pre x (words xs ++ post)
    have hrest := ih (pre ++ word x) post
    rw [List.length_append, length_word, List.append_assoc] at hrest
    rw [words_cons, List.append_assoc, List.length_cons, readWords, hword]
    simp only [Option.bind_eq_bind, Option.bind_some, hrest, Option.pure_def]

/-- The head of a component whose tail stands at `offset`. -/
def head (offset : ℕ) : Component → BitVec 256
  | .word x => x
  | .bytes _ | .array _ => BitVec.ofNat 256 offset

def tailOf : Component → List UInt8
  | .word _ => []
  | .bytes data => tail data
  | .array xs => arrayTail xs

theorem heads_cons (offset : ℕ) (c : Component) (cs : List Component) :
    heads offset (c :: cs) = head offset c :: heads (offset + (tailOf c).length) cs := by
  cases c <;> rfl

theorem tails_cons (c : Component) (cs : List Component) :
    tails (c :: cs) = tailOf c ++ tails cs := by
  cases c <;> rfl

theorem toNat_ofNat_of_lt {n : ℕ} (h : n < 2 ^ 256) : (BitVec.ofNat 256 n).toNat = n := by
  rw [BitVec.toNat_ofNat, Nat.mod_eq_of_lt h]

section Read
variable {data pre mid post : List UInt8}

/-- The place of a tail, which its head names, and the length that the tail begins with. -/
theorem readWord_tail {n : ℕ} (hsize : data.length < 2 ^ 256)
    (hdata : data = pre ++ (word (BitVec.ofNat 256 (pre.length + 32 + mid.length)) ++
      (mid ++ (word (BitVec.ofNat 256 n) ++ post)))) :
    ∃ start, readWord data pre.length = some (BitVec.ofNat 256 start) ∧
      (BitVec.ofNat 256 start).toNat = start ∧
      readWord data start = some (BitVec.ofNat 256 n) ∧
      ∃ before : List UInt8, data = before ++ post ∧ start + 32 = before.length := by
  have hstart : pre.length + 32 + mid.length < 2 ^ 256 := by
    refine lt_of_le_of_lt ?_ hsize
    rw [hdata]
    simp only [List.length_append, length_word]
    omega
  set start := pre.length + 32 + mid.length
  have hplace : data = (pre ++ word (BitVec.ofNat 256 start) ++ mid) ++
      (word (BitVec.ofNat 256 n) ++ post) := by
    rw [hdata]
    simp only [List.append_assoc]
  have hlength : (pre ++ word (BitVec.ofNat 256 start) ++ mid).length = start := by
    rw [List.length_append, List.length_append, length_word]
  refine ⟨start, ?_, toNat_ofNat_of_lt hstart, ?_,
    pre ++ word (BitVec.ofNat 256 start) ++ mid ++ word (BitVec.ofNat 256 n), ?_, ?_⟩
  · rw [hdata]
    exact readWord_append _ _ _
  · have hread := readWord_append (pre ++ word (BitVec.ofNat 256 start) ++ mid)
      (BitVec.ofNat 256 n) post
    rwa [hlength, ← hplace] at hread
  · rw [hplace, List.append_assoc _ (word (BitVec.ofNat 256 n))]
  · rw [List.length_append, hlength, length_word]

/-- **A value** whose head stands after `pre` and whose tail after `mid`. -/
theorem decodeAt_append (t : AbiType) (x : t.Val) (hsize : data.length < 2 ^ 256)
    (hdata : data = pre ++ (word (head (pre.length + 32 + mid.length) (component t x)) ++
      (mid ++ (tailOf (component t x) ++ post)))) : decodeAt data pre.length t = some x := by
  cases t with
  | bytes =>
    have hlen : List.length (α := UInt8) x < 2 ^ 256 := by
      refine lt_of_le_of_lt ?_ hsize
      rw [hdata]
      simp only [component, tailOf, tail, List.length_append]
      omega
    simp only [component, head, tailOf, tail, List.append_assoc] at hdata
    obtain ⟨start, hhead, htoNat, hlength, before, hbefore, hend⟩ := readWord_tail hsize hdata
    simp only [decodeAt, hhead, htoNat, hlength, Option.bind_eq_bind, Option.bind_some,
      toNat_ofNat_of_lt hlen, hend]
    rw [hbefore]
    exact read_append _ _ _
  | bytes32Array =>
    have hlen : List.length (α := BitVec 256) x < 2 ^ 256 := by
      refine lt_of_le_of_lt ?_ hsize
      rw [hdata]
      simp only [component, tailOf, arrayTail, List.length_append, length_words]
      omega
    simp only [component, head, tailOf, arrayTail, List.append_assoc] at hdata
    obtain ⟨start, hhead, htoNat, hlength, before, hbefore, hend⟩ := readWord_tail hsize hdata
    simp only [decodeAt, hhead, htoNat, hlength, Option.bind_eq_bind, Option.bind_some,
      toNat_ofNat_of_lt hlen, hend]
    rw [hbefore]
    exact readWords_append _ _ _
  | bytes32 =>
    rw [hdata]
    exact readWord_append _ _ _
  | uint256 =>
    rw [hdata]
    exact readWord_append _ _ _
  | address =>
    have hwidth : (BitVec.setWidth 256 (x : BitVec 160)).setWidth 160 = x := by
      rw [BitVec.setWidth_setWidth_of_le _ (by decide), BitVec.setWidth_eq]
    have hread := readWord_append pre (BitVec.setWidth 256 (x : BitVec 160))
      (mid ++ (tailOf (component .address x) ++ post))
    rw [hdata, decodeAt]
    change Option.map _ (readWord (pre ++ (word (BitVec.setWidth 256 (x : BitVec 160)) ++ _)) _) = _
    rw [hread, Option.map_some, hwidth]

/-- **The values** whose heads stand after `pre` and whose tails after `mid`. -/
theorem decodeFrom_append : ∀ (ts : List AbiType) (xs : Tuple ts) {pre mid : List UInt8},
    data.length < 2 ^ 256 →
    data = pre ++ (words (heads (pre.length + 32 * ts.length + mid.length) (components ts xs)) ++
      (mid ++ tails (components ts xs))) →
    decodeFrom data pre.length ts = some xs
  | [], _, _, _, _, _ => rfl
  | t :: ts, (x, xs), pre, mid, hsize, hdata => by
    set offset := pre.length + 32 * (t :: ts).length + mid.length with hoffset
    rw [List.length_cons] at hoffset
    rw [components, heads_cons, tails_cons, words_cons] at hdata
    set h := head offset (component t x)
    set rest := words (heads (offset + (tailOf (component t x)).length) (components ts xs))
    have hrest : rest.length = 32 * ts.length := by
      rw [length_words, length_heads, length_components]
    have hvalue : decodeAt data pre.length t = some x := by
      refine @decodeAt_append data pre (rest ++ mid) (tails (components ts xs)) t x hsize ?_
      have hplace : pre.length + 32 + (rest ++ mid).length = offset := by
        rw [List.length_append, hrest, hoffset]
        omega
      rw [hplace, hdata]
      simp only [List.append_assoc]
      rfl
    have hvalues : decodeFrom data (pre ++ word h).length ts = some xs := by
      refine @decodeFrom_append ts xs (pre ++ word h) (mid ++ tailOf (component t x)) hsize ?_
      have hplace : (pre ++ word h).length + 32 * ts.length +
          (mid ++ tailOf (component t x)).length =
          offset + (tailOf (component t x)).length := by
        rw [List.length_append, List.length_append, length_word, hoffset]
        omega
      rw [hplace, hdata]
      simp only [List.append_assoc]
      rfl
    rw [List.length_append, length_word] at hvalues
    simp only [decodeFrom, hvalue, hvalues, Option.bind_eq_bind, Option.bind_some, Option.pure_def]

end Read

/-- **What is encoded is read back.** -/
theorem decode_encodeTuple {ts : List AbiType} {xs : Tuple ts}
    (hsize : (encodeTuple ts xs).length < 2 ^ 256) : decode ts (encodeTuple ts xs) = some xs := by
  refine @decodeFrom_append _ ts xs [] [] hsize ?_
  simp only [encodeTuple, encode, length_components, List.length_nil, List.nil_append, Nat.zero_add,
    Nat.add_zero]

end Nullark.Lib.AbiTuple
