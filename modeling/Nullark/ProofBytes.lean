import Nullark.Js.Doubles
import Nullark.Web.DepositProver

/-! # The bytes of a proof, in both clients

`proofObjectToCandidateBytes` of the SDK and of the web app, for proof objects whose coordinates
have any type. The two differ in `toSnarkBigInt` only.

* `sdkToSnarkBigInt_eq_ok`: the SDK reads a coordinate that stands for a number of 256 bits.
* `webToSnarkBigInt_eq_ok`: the web app reads any number and any text of digits.
* `carries_candidatesOf`: numbers of 256 bits are written as eight words.
* `agrees_iff`: when the two functions agree. -/

namespace Nullark.ProofBytes

open Nullark.Lib Nullark.Lib.Bytes Nullark.Lib.Outcome
open Nullark.Lib.Hex (Text ofBytes fixed padStart)
open Nullark.Lib.Decimal (isDecimal)
open Nullark.Js.Basic Nullark.Js.Bytes Nullark.Js.Numbers Nullark.Js.Doubles
open Nullark.Web.DepositProver (isSnarkScalar encodeGroth16ProofChunks bVariants)

/-- A value of type `unknown`, as far as the functions look at it. -/
inductive SnarkValue
  | bigint (z : ℤ)
  | number (x : JsNumber)
  | string (t : Text)
  | array (values : List SnarkValue)
  | other

structure ProofObject where
  piA : SnarkValue
  piB : SnarkValue
  piC : SnarkValue

/-! ### The functions -/

/-- The branches of `toSnarkBigInt` of the SDK. -/
def parsedScalar : SnarkValue → Throws ℤ
  | .bigint z => .ok z
  | .number x => do
    ensure (isSafeInteger x) "Malformed Groth16 scalar."
    bigIntOfNumber x
  | .string t => do
    ensure (isSnarkScalar t) "Malformed Groth16 scalar."
    stringToBigInt t
  | _ => .error "Malformed Groth16 scalar."

/-- `toSnarkBigInt` of the SDK. -/
def sdkToSnarkBigInt (value : SnarkValue) : Throws ℤ := do
  let parsed ← parsedScalar value
  ensure (0 ≤ parsed ∧ parsed < 2 ^ 256) "Malformed Groth16 scalar."
  return parsed

/-- `toSnarkBigInt` of the web app. -/
def webToSnarkBigInt : SnarkValue → Throws ℤ
  | .bigint z => .ok z
  | .number x => bigIntOfTrunc x
  | .string t => do
    ensure (isSnarkScalar t) "Malformed Groth16 scalar."
    stringToBigInt t
  | _ => .error "Malformed Groth16 scalar."

section Code
variable (toSnarkBigInt : SnarkValue → Throws ℤ)

def parseUint256Tuple (value : SnarkValue) (length : ℕ) : Throws (List ℤ) :=
  match value with
  | .array values => do
    ensure (values.length = length) "Malformed Groth16 proof calldata."
    values.mapM toSnarkBigInt
  | _ => .error "Malformed Groth16 proof calldata."

def parseUint256Matrix3x2 (value : SnarkValue) : Throws (List (List ℤ)) :=
  match value with
  | .array rows => do
    ensure (rows.length = 3) "Malformed Groth16 proof calldata."
    rows.mapM fun row => parseUint256Tuple toSnarkBigInt row 2
  | _ => .error "Malformed Groth16 proof calldata."

def proofObjectToCandidateBytes (proof : ProofObject) : Throws (List Text) := do
  let tupleA ← parseUint256Tuple toSnarkBigInt proof.piA 3
  let matrixB ← parseUint256Matrix3x2 toSnarkBigInt proof.piB
  let tupleC ← parseUint256Tuple toSnarkBigInt proof.piC 3
  let candidates := bVariants.map fun entries => encodeGroth16ProofChunks
    (tupleA.take 2 ++ entries.map (fun e => (matrixB.getD e.1 []).getD e.2 0) ++ tupleC.take 2)
  return candidates.eraseDups

end Code

/-- **`proofObjectToCandidateBytes` of the SDK.** -/
def sdkProofObjectToCandidateBytes (proof : ProofObject) : Throws (List Text) :=
  proofObjectToCandidateBytes sdkToSnarkBigInt proof

/-- **`proofObjectToCandidateBytes` of the web app.** -/
def webProofObjectToCandidateBytes (proof : ProofObject) : Throws (List Text) :=
  proofObjectToCandidateBytes webToSnarkBigInt proof

/-! ### Scalars -/

/-- The integer a scalar stands for. -/
def SnarkValue.Denotes : SnarkValue → ℤ → Prop
  | .bigint n, z => n = z
  | .number x, z => isSafeInteger x ∧ x.Is z
  | .string t, z =>
    (isHex t ∧ 3 ≤ t.length ∧ t.length ≤ 66 ∧ z = hexNat t) ∨ (isDecimal t ∧ z = Decimal.value t)
  | _, _ => False

/-- The scalar stands for a number of 256 bits. -/
def SnarkValue.InBounds (s : SnarkValue) : Prop := ∃ z, s.Denotes z ∧ 0 ≤ z ∧ z < 2 ^ 256

/-- A number that is not a NaN and not infinite, or a text of digits. -/
def SnarkValue.Readable : SnarkValue → Prop
  | .bigint _ => True
  | .number x => ∃ d, x = .finite d
  | .string t => isSnarkScalar t
  | _ => False

theorem stringToBigInt_of_isHex {t : Text} (h : isHex t) (hlen : 3 ≤ t.length) :
    stringToBigInt t = .ok (hexNat t : ℤ) := by
  have hlength : isHexOfLength (t.length - 2) t := by
    unfold isHex at h
    split at h
    · exact isHexOfLength_iff.mpr ⟨_, rfl, by simp, h⟩
    · exact h.elim
  exact stringToBigInt_of_isHexOfLength (by omega) hlength

/-- What both functions make of a text. -/
theorem read_string {t : Text} {z : ℤ} :
    (ensure (isSnarkScalar t) "Malformed Groth16 scalar." >>= fun _ => stringToBigInt t) = .ok z ↔
      (SnarkValue.string t).Denotes z := by
  rw [bind_eq_ok]
  constructor
  · rintro ⟨_, hscalar, hz⟩
    rcases ensure_eq_ok.mp hscalar with ⟨hhex, hmin, hmax⟩ | hdecimal
    · rw [stringToBigInt_of_isHex hhex hmin] at hz
      exact Or.inl ⟨hhex, hmin, hmax, (Except.ok.inj hz).symm⟩
    · rw [stringToBigInt_of_isDecimal hdecimal] at hz
      exact Or.inr ⟨hdecimal, (Except.ok.inj hz).symm⟩
  · rintro (⟨hhex, hmin, hmax, rfl⟩ | ⟨hdecimal, rfl⟩)
    · exact ⟨(), ensure_of (Or.inl ⟨hhex, hmin, hmax⟩), stringToBigInt_of_isHex hhex hmin⟩
    · exact ⟨(), ensure_of (Or.inr hdecimal), stringToBigInt_of_isDecimal hdecimal⟩

theorem parsedScalar_eq_ok {s : SnarkValue} {z : ℤ} : parsedScalar s = .ok z ↔ s.Denotes z := by
  cases s with
  | bigint n => exact ⟨Except.ok.inj, congrArg Except.ok⟩
  | number x =>
    unfold parsedScalar
    rw [bind_eq_ok]
    exact ⟨fun ⟨_, hsafe, hx⟩ => ⟨ensure_eq_ok.mp hsafe, bigIntOfNumber_eq_ok.mp hx⟩,
      fun ⟨hsafe, hx⟩ => ⟨(), ensure_of hsafe, bigIntOfNumber_eq_ok.mpr hx⟩⟩
  | string t => exact read_string
  | array values => exact ⟨(nomatch ·), False.elim⟩
  | other => exact ⟨(nomatch ·), False.elim⟩

/-- **The SDK reads the scalars in bounds.** -/
theorem sdkToSnarkBigInt_eq_ok {s : SnarkValue} {z : ℤ} :
    sdkToSnarkBigInt s = .ok z ↔ s.Denotes z ∧ 0 ≤ z ∧ z < 2 ^ 256 := by
  unfold sdkToSnarkBigInt
  simp only [bind_eq_ok, ensure_eq_ok, pure_eq_ok, parsedScalar_eq_ok]
  constructor
  · rintro ⟨z, hz, -, hbounds, rfl⟩
    exact ⟨hz, hbounds⟩
  · rintro ⟨hz, hbounds⟩
    exact ⟨z, hz, (), hbounds, rfl⟩

/-- A scalar that stands for an integer is read as this integer by the web app. -/
theorem webToSnarkBigInt_of_denotes {s : SnarkValue} {z : ℤ} (h : s.Denotes z) :
    webToSnarkBigInt s = .ok z := by
  cases s with
  | bigint n => exact congrArg Except.ok h
  | number x => exact bigIntOfTrunc_of_is h.2
  | string t => exact read_string.mpr h
  | array values => exact h.elim
  | other => exact h.elim

/-- **What the web app reads.** -/
theorem readable_iff {s : SnarkValue} : s.Readable ↔ ∃ z, webToSnarkBigInt s = .ok z := by
  cases s with
  | bigint n => exact ⟨fun _ => ⟨n, rfl⟩, fun _ => trivial⟩
  | number x =>
    constructor
    · rintro ⟨d, rfl⟩
      exact ⟨_, rfl⟩
    · rintro ⟨z, hz⟩
      by_contra hfinite
      obtain ⟨e, he⟩ := bigIntOfTrunc_eq_error.mpr fun d hd => hfinite ⟨d, hd⟩
      rw [webToSnarkBigInt, he] at hz
      exact nomatch hz
  | string t =>
    constructor
    · rintro (⟨hhex, hmin, hmax⟩ | hdecimal)
      · exact ⟨_, read_string.mpr (Or.inl ⟨hhex, hmin, hmax, rfl⟩)⟩
      · exact ⟨_, read_string.mpr (Or.inr ⟨hdecimal, rfl⟩)⟩
    · rintro ⟨z, hz⟩
      obtain ⟨_, hscalar, -⟩ := bind_eq_ok.mp hz
      have hscalar : isSnarkScalar t := ensure_eq_ok.mp hscalar
      exact hscalar
  | array values => exact ⟨False.elim, fun ⟨_, h⟩ => nomatch h⟩
  | other => exact ⟨False.elim, fun ⟨_, h⟩ => nomatch h⟩

/-! ### Proof objects -/

/-- The twelve scalars of a proof object that has the shape of a proof. -/
def ProofObject.scalars : ProofObject → Option (List SnarkValue)
  | ⟨.array [a₀, a₁, a₂], .array [.array [b₀, b₁], .array [b₂, b₃], .array [b₄, b₅]],
      .array [c₀, c₁, c₂]⟩ => some [a₀, a₁, a₂, b₀, b₁, b₂, b₃, b₄, b₅, c₀, c₁, c₂]
  | _ => none

/-- Of the twelve, the first two of each of the points on the curve. -/
def pointA {α : Type} (values : List α) : List α := values.take 2

/-- The four coordinates of the point over the extension. -/
def pointB {α : Type} (values : List α) : List α := (values.drop 3).take 4

def pointC {α : Type} (values : List α) : List α := (values.drop 9).take 2

/-- The candidates for the twelve numbers. -/
def candidatesOf (values : List ℤ) : List Text :=
  (bVariants.map fun entries => encodeGroth16ProofChunks
    (pointA values ++ entries.map (fun e => (pointB values).getD (2 * e.1 + e.2) 0) ++
      pointC values)).eraseDups

theorem parseUint256Tuple_eq_ok {toSnarkBigInt : SnarkValue → Throws ℤ} {value : SnarkValue}
    {length : ℕ} {zs : List ℤ} : parseUint256Tuple toSnarkBigInt value length = .ok zs ↔
      ∃ values, value = .array values ∧ values.length = length ∧
        List.Forall₂ (fun s z => toSnarkBigInt s = .ok z) values zs := by
  cases value with
  | array values =>
    unfold parseUint256Tuple
    simp only [bind_eq_ok, ensure_eq_ok, mapM_eq_ok]
    constructor
    · rintro ⟨-, hlength, hall⟩
      exact ⟨values, rfl, hlength, hall⟩
    · rintro ⟨values', heq, hlength, hall⟩
      obtain rfl := SnarkValue.array.inj heq
      exact ⟨(), hlength, hall⟩
  | bigint z => exact ⟨(nomatch ·), fun ⟨_, h, _⟩ => nomatch h⟩
  | number x => exact ⟨(nomatch ·), fun ⟨_, h, _⟩ => nomatch h⟩
  | string t => exact ⟨(nomatch ·), fun ⟨_, h, _⟩ => nomatch h⟩
  | other => exact ⟨(nomatch ·), fun ⟨_, h, _⟩ => nomatch h⟩

theorem parseUint256Matrix3x2_eq_ok {toSnarkBigInt : SnarkValue → Throws ℤ} {value : SnarkValue}
    {rows : List (List ℤ)} : parseUint256Matrix3x2 toSnarkBigInt value = .ok rows ↔
      ∃ values, value = .array values ∧ values.length = 3 ∧
        List.Forall₂ (fun s r => parseUint256Tuple toSnarkBigInt s 2 = .ok r) values rows := by
  cases value with
  | array values =>
    unfold parseUint256Matrix3x2
    simp only [bind_eq_ok, ensure_eq_ok, mapM_eq_ok]
    constructor
    · rintro ⟨-, hlength, hall⟩
      exact ⟨values, rfl, hlength, hall⟩
    · rintro ⟨values', heq, hlength, hall⟩
      obtain rfl := SnarkValue.array.inj heq
      exact ⟨(), hlength, hall⟩
  | bigint z => exact ⟨(nomatch ·), fun ⟨_, h, _⟩ => nomatch h⟩
  | number x => exact ⟨(nomatch ·), fun ⟨_, h, _⟩ => nomatch h⟩
  | string t => exact ⟨(nomatch ·), fun ⟨_, h, _⟩ => nomatch h⟩
  | other => exact ⟨(nomatch ·), fun ⟨_, h, _⟩ => nomatch h⟩

/-- Two values that are read from an array of two. -/
theorem parseUint256Tuple_two {toSnarkBigInt : SnarkValue → Throws ℤ} {value : SnarkValue}
    {zs : List ℤ} (h : parseUint256Tuple toSnarkBigInt value 2 = .ok zs) :
    ∃ s₀ s₁ z₀ z₁, value = .array [s₀, s₁] ∧ zs = [z₀, z₁] ∧ toSnarkBigInt s₀ = .ok z₀ ∧
      toSnarkBigInt s₁ = .ok z₁ := by
  obtain ⟨values, rfl, hlength, hall⟩ := parseUint256Tuple_eq_ok.mp h
  obtain ⟨s₀, s₁, rfl⟩ := List.length_eq_two.mp hlength
  obtain _ | ⟨h₀, _ | ⟨h₁, _ | _⟩⟩ := hall
  exact ⟨s₀, s₁, _, _, rfl, rfl, h₀, h₁⟩

/-- Three values that are read from an array of three. -/
theorem parseUint256Tuple_three {toSnarkBigInt : SnarkValue → Throws ℤ} {value : SnarkValue}
    {zs : List ℤ} (h : parseUint256Tuple toSnarkBigInt value 3 = .ok zs) :
    ∃ s₀ s₁ s₂ z₀ z₁ z₂, value = .array [s₀, s₁, s₂] ∧ zs = [z₀, z₁, z₂] ∧
      toSnarkBigInt s₀ = .ok z₀ ∧ toSnarkBigInt s₁ = .ok z₁ ∧ toSnarkBigInt s₂ = .ok z₂ := by
  obtain ⟨values, rfl, hlength, hall⟩ := parseUint256Tuple_eq_ok.mp h
  obtain ⟨s₀, s₁, s₂, rfl⟩ := List.length_eq_three.mp hlength
  obtain _ | ⟨h₀, _ | ⟨h₁, _ | ⟨h₂, _ | _⟩⟩⟩ := hall
  exact ⟨s₀, s₁, s₂, _, _, _, rfl, rfl, h₀, h₁, h₂⟩

/-- **A proof object is accepted** when it has the shape of a proof and its scalars are read. -/
theorem proofObjectToCandidateBytes_eq_ok {toSnarkBigInt : SnarkValue → Throws ℤ}
    {proof : ProofObject} {candidates : List Text} :
    proofObjectToCandidateBytes toSnarkBigInt proof = .ok candidates ↔
      ∃ scalars values, proof.scalars = some scalars ∧
        List.Forall₂ (fun s z => toSnarkBigInt s = .ok z) scalars values ∧
        candidates = candidatesOf values := by
  unfold proofObjectToCandidateBytes
  simp only [bind_eq_ok, pure_eq_ok]
  constructor
  · rintro ⟨tupleA, hA, matrixB, hB, tupleC, hC, rfl⟩
    obtain ⟨piA, piB, piC⟩ := proof
    obtain ⟨a₀, a₁, a₂, x₀, x₁, x₂, rfl, rfl, ha₀, ha₁, ha₂⟩ := parseUint256Tuple_three hA
    obtain ⟨c₀, c₁, c₂, z₀, z₁, z₂, rfl, rfl, hc₀, hc₁, hc₂⟩ := parseUint256Tuple_three hC
    obtain ⟨rows, rfl, hlength, hrows⟩ := parseUint256Matrix3x2_eq_ok.mp hB
    obtain ⟨r₀, r₁, r₂, rfl⟩ := List.length_eq_three.mp hlength
    obtain _ | ⟨h₀, _ | ⟨h₁, _ | ⟨h₂, _ | _⟩⟩⟩ := hrows
    obtain ⟨b₀, b₁, y₀, y₁, rfl, rfl, hb₀, hb₁⟩ := parseUint256Tuple_two h₀
    obtain ⟨b₂, b₃, y₂, y₃, rfl, rfl, hb₂, hb₃⟩ := parseUint256Tuple_two h₁
    obtain ⟨b₄, b₅, y₄, y₅, rfl, rfl, hb₄, hb₅⟩ := parseUint256Tuple_two h₂
    exact ⟨_, [x₀, x₁, x₂, y₀, y₁, y₂, y₃, y₄, y₅, z₀, z₁, z₂], rfl,
      .cons ha₀ (.cons ha₁ (.cons ha₂ (.cons hb₀ (.cons hb₁ (.cons hb₂ (.cons hb₃ (.cons hb₄
        (.cons hb₅ (.cons hc₀ (.cons hc₁ (.cons hc₂ .nil))))))))))), rfl⟩
  · rintro ⟨scalars, values, hscalars, hall, rfl⟩
    unfold ProofObject.scalars at hscalars
    split at hscalars
    · obtain rfl := Option.some.inj hscalars
      obtain _ | ⟨ha₀, _ | ⟨ha₁, _ | ⟨ha₂, _ | ⟨hb₀, _ | ⟨hb₁, _ | ⟨hb₂, _ | ⟨hb₃, _ | ⟨hb₄,
        _ | ⟨hb₅, _ | ⟨hc₀, _ | ⟨hc₁, _ | ⟨hc₂, _ | _⟩⟩⟩⟩⟩⟩⟩⟩⟩⟩⟩⟩ := hall
      have row : ∀ {s t : SnarkValue} {y z : ℤ}, toSnarkBigInt s = .ok y →
          toSnarkBigInt t = .ok z →
          parseUint256Tuple toSnarkBigInt (.array [s, t]) 2 = .ok [y, z] := fun hs ht =>
        parseUint256Tuple_eq_ok.mpr ⟨_, rfl, rfl, .cons hs (.cons ht .nil)⟩
      exact ⟨_, parseUint256Tuple_eq_ok.mpr ⟨_, rfl, rfl, .cons ha₀ (.cons ha₁ (.cons ha₂ .nil))⟩,
        _, parseUint256Matrix3x2_eq_ok.mpr ⟨_, rfl, rfl, .cons (row hb₀ hb₁)
          (.cons (row hb₂ hb₃) (.cons (row hb₄ hb₅) .nil))⟩,
        _, parseUint256Tuple_eq_ok.mpr ⟨_, rfl, rfl, .cons hc₀ (.cons hc₁ (.cons hc₂ .nil))⟩, rfl⟩
    · exact nomatch hscalars

theorem length_scalars {proof : ProofObject} {scalars : List SnarkValue}
    (h : proof.scalars = some scalars) : scalars.length = 12 := by
  unfold ProofObject.scalars at h
  split at h
  · obtain rfl := Option.some.inj h
    rfl
  · exact nomatch h

/-! ### Words -/

/-- **A candidate carries a proof**: its 256 bytes are the words of the coordinates, those of the
point over the extension in some order. -/
def Carries (scalars : List SnarkValue) (candidate : Text) : Prop :=
  ∃ a b b' c : List (BitVec 256),
    List.Forall₂ (fun s w => s.Denotes w.toNat) (pointA scalars) a ∧
    List.Forall₂ (fun s w => s.Denotes w.toNat) (pointB scalars) b ∧
    List.Forall₂ (fun s w => s.Denotes w.toNat) (pointC scalars) c ∧ b'.Perm b ∧
    candidate = hexText (words (a ++ b' ++ c)) ∧ (words (a ++ b' ++ c)).length = 256

/-- A number of 256 bits, padded, is the text of its word. -/
theorem encodeGroth16ProofChunks_words (ws : List (BitVec 256)) :
    encodeGroth16ProofChunks (ws.map fun w => (w.toNat : ℤ)) = hexText (words ws) := by
  have hword : ∀ w : BitVec 256, padStart 64 '0' (toString16 w.toNat) = ofBytes (word w) := by
    intro w
    have hprint : toString16 w.toNat = Hex.ofNat w.toNat := rfl
    rw [hprint, Hex.padStart_ofNat (by decide) (toNat_lt_hex w), Lib.Bytes.word,
      Hex.ofBytes_beBytes]
  have hflat : ∀ ws : List (BitVec 256), (ws.map fun w => (w.toNat : ℤ)).flatMap
      (fun value => padStart 64 '0' (toString16 value)) = ofBytes (words ws) := by
    intro ws
    induction ws with
    | nil => rfl
    | cons w ws ih =>
      rw [List.map_cons, List.flatMap_cons, ih, hword, words_cons, Hex.ofBytes_append]
  rw [encodeGroth16ProofChunks, hflat, hexText]

/-- The entries of every variant are the four coordinates, in some order. -/
theorem variant_perm {α : Type} {d : α} {b : List α} (hb : b.length = 4)
    {entries : List (ℕ × ℕ)} (h : entries ∈ bVariants) :
    (entries.map fun e => b.getD (2 * e.1 + e.2) d).Perm b := by
  have hall : ∀ entries ∈ bVariants,
      (entries.map fun e => 2 * e.1 + e.2).Perm [0, 1, 2, 3] := by decide
  have hget : [0, 1, 2, 3].map (fun i => b.getD i d) = b := by
    obtain ⟨b₀, b, rfl⟩ := List.exists_cons_of_length_eq_add_one hb
    obtain ⟨b₁, b₂, b₃, rfl⟩ := List.length_eq_three.mp (Nat.succ.inj hb)
    rfl
  have hmap := (hall entries h).map fun i => b.getD i d
  rwa [List.map_map, hget] at hmap

/-- The words of the scalars in bounds. -/
theorem exists_words {scalars : List SnarkValue} {values : List ℤ}
    (h : List.Forall₂ (fun s z => sdkToSnarkBigInt s = .ok z) scalars values) :
    ∃ ws : List (BitVec 256), values = ws.map (fun w => (w.toNat : ℤ)) ∧
      List.Forall₂ (fun s w => s.Denotes w.toNat) scalars ws := by
  induction h with
  | nil => exact ⟨[], rfl, .nil⟩
  | @cons s z scalars values hread _ ih =>
    obtain ⟨ws, rfl, hall⟩ := ih
    obtain ⟨hdenotes, hnonneg, hlt⟩ := sdkToSnarkBigInt_eq_ok.mp hread
    have hz : ((BitVec.ofNat 256 z.toNat).toNat : ℤ) = z := by
      rw [BitVec.toNat_ofNat, Nat.mod_eq_of_lt (by omega), Int.toNat_of_nonneg hnonneg]
    refine ⟨BitVec.ofNat 256 z.toNat :: ws, by rw [List.map_cons, hz], .cons ?_ hall⟩
    rwa [hz]

/-- **The candidates of the SDK carry the proof.** -/
theorem carries_candidatesOf {scalars : List SnarkValue} {values : List ℤ}
    (hlength : scalars.length = 12)
    (h : List.Forall₂ (fun s z => sdkToSnarkBigInt s = .ok z) scalars values) {candidate : Text}
    (hmem : candidate ∈ candidatesOf values) : Carries scalars candidate := by
  obtain ⟨ws, rfl, hall⟩ := exists_words h
  have hws : ws.length = 12 := hall.length_eq ▸ hlength
  obtain ⟨entries, hentries, rfl⟩ := List.mem_map.mp (List.mem_eraseDups.mp hmem)
  have hB : (pointB ws).length = 4 := by simp [pointB, hws]
  have hperm : (entries.map fun e => (pointB ws).getD (2 * e.1 + e.2) 0).Perm (pointB ws) :=
    variant_perm hB hentries
  refine ⟨pointA ws, pointB ws, entries.map fun e => (pointB ws).getD (2 * e.1 + e.2) 0, pointC ws,
    List.forall₂_take 2 hall, List.forall₂_take 4 (List.forall₂_drop 3 hall),
    List.forall₂_take 2 (List.forall₂_drop 9 hall), hperm, ?_, ?_⟩
  · rw [← encodeGroth16ProofChunks_words, List.map_append, List.map_append, List.map_map]
    congr 3
    · exact List.map_take.symm
    · refine List.map_congr_left fun e _ => ?_
      rw [pointB, ← List.map_drop, ← List.map_take]
      exact List.getD_map _ (0 : BitVec 256) fun w : BitVec 256 => (w.toNat : ℤ)
    · rw [pointC, ← List.map_drop, ← List.map_take]
      rfl
  · have hA : (pointA ws).length = 2 := by simp [pointA, hws]
    have hC : (pointC ws).length = 2 := by simp [pointC, hws]
    rw [length_words, List.length_append, List.length_append, hA, hperm.length_eq, hB, hC]

/-! ### Agreement -/

/-- **The clients agree on a proof object**: both reject it, or both return the same candidates,
which carry the proof. -/
def Agrees (proof : ProofObject) : Prop :=
  ((∃ candidates, sdkProofObjectToCandidateBytes proof = .ok candidates ∧
      webProofObjectToCandidateBytes proof = .ok candidates) ∨
    ((∃ e, sdkProofObjectToCandidateBytes proof = .error e) ∧
      ∃ e, webProofObjectToCandidateBytes proof = .error e)) ∧
  ∀ candidates, sdkProofObjectToCandidateBytes proof = .ok candidates ∨
      webProofObjectToCandidateBytes proof = .ok candidates →
    ∃ scalars, proof.scalars = some scalars ∧
      ∀ candidate ∈ candidates, Carries scalars candidate

/-- A list of scalars is read when each of them is. -/
theorem exists_forall₂_iff {toSnarkBigInt : SnarkValue → Throws ℤ} {scalars : List SnarkValue} :
    (∃ values, List.Forall₂ (fun s z => toSnarkBigInt s = .ok z) scalars values) ↔
      ∀ s ∈ scalars, ∃ z, toSnarkBigInt s = .ok z := by
  induction scalars with
  | nil => exact ⟨fun _ _ h => absurd h List.not_mem_nil, fun _ => ⟨[], .nil⟩⟩
  | cons s scalars ih =>
    rw [List.forall_mem_cons, ← ih]
    constructor
    · rintro ⟨values, hall⟩
      obtain ⟨z, values', hz, hall', -⟩ := List.forall₂_cons_left_iff.mp hall
      exact ⟨⟨z, hz⟩, values', hall'⟩
    · rintro ⟨⟨z, hz⟩, values, hall⟩
      exact ⟨z :: values, .cons hz hall⟩

/-- What the SDK accepts, the web app reads in the same way. -/
theorem web_of_sdk {proof : ProofObject} {candidates : List Text}
    (h : sdkProofObjectToCandidateBytes proof = .ok candidates) :
    webProofObjectToCandidateBytes proof = .ok candidates := by
  obtain ⟨scalars, values, hscalars, hall, rfl⟩ := proofObjectToCandidateBytes_eq_ok.mp h
  exact proofObjectToCandidateBytes_eq_ok.mpr ⟨scalars, values, hscalars,
    hall.imp fun s z hread => webToSnarkBigInt_of_denotes (sdkToSnarkBigInt_eq_ok.mp hread).1, rfl⟩

/-- **The clients agree on a proof object** exactly when its scalars are in bounds, or one of them
is not even a finite number, a `bigint` or a text of digits. -/
theorem agrees_iff (proof : ProofObject) : Agrees proof ↔
    ∀ scalars, proof.scalars = some scalars → (∀ s ∈ scalars, s.Readable) →
      ∀ s ∈ scalars, s.InBounds := by
  constructor
  · rintro ⟨hsame, -⟩ scalars hscalars hreadable
    obtain ⟨values, hvalues⟩ :=
      exists_forall₂_iff.mpr fun s hs => readable_iff.mp (hreadable s hs)
    have hweb : webProofObjectToCandidateBytes proof = .ok (candidatesOf values) :=
      proofObjectToCandidateBytes_eq_ok.mpr ⟨scalars, values, hscalars, hvalues, rfl⟩
    obtain ⟨candidates, hsdk, -⟩ | ⟨-, e, herror⟩ := hsame
    · obtain ⟨scalars', values', hscalars', hall, -⟩ := proofObjectToCandidateBytes_eq_ok.mp hsdk
      obtain rfl := Option.some.inj (hscalars.symm.trans hscalars')
      intro s hs
      obtain ⟨z, hz⟩ := exists_forall₂_iff.mp ⟨_, hall⟩ s hs
      exact ⟨z, sdkToSnarkBigInt_eq_ok.mp hz⟩
    · exact nomatch hweb.symm.trans herror
  · intro hbounds
    have hsdk : ∀ candidates, webProofObjectToCandidateBytes proof = .ok candidates →
        sdkProofObjectToCandidateBytes proof = .ok candidates := by
      intro candidates hweb
      obtain ⟨scalars, values, hscalars, hall, -⟩ := proofObjectToCandidateBytes_eq_ok.mp hweb
      have hin := hbounds scalars hscalars fun s hs =>
        readable_iff.mpr (exists_forall₂_iff.mp ⟨_, hall⟩ s hs)
      have hread : ∀ s ∈ scalars, ∃ z, sdkToSnarkBigInt s = .ok z := fun s hs =>
        have ⟨z, hz⟩ := hin s hs
        ⟨z, sdkToSnarkBigInt_eq_ok.mpr hz⟩
      obtain ⟨values', hvalues'⟩ := exists_forall₂_iff.mpr hread
      have hok : sdkProofObjectToCandidateBytes proof = .ok (candidatesOf values') :=
        proofObjectToCandidateBytes_eq_ok.mpr ⟨scalars, values', hscalars, hvalues', rfl⟩
      rw [hok, ← web_of_sdk hok, hweb]
    refine ⟨?_, ?_⟩
    · rcases hweb : webProofObjectToCandidateBytes proof with e | candidates
      · rcases hok : sdkProofObjectToCandidateBytes proof with e' | candidates
        · exact Or.inr ⟨⟨e', rfl⟩, e, rfl⟩
        · exact nomatch hweb.symm.trans (web_of_sdk hok)
      · exact Or.inl ⟨candidates, hsdk candidates hweb, rfl⟩
    · intro candidates hok
      have hok : sdkProofObjectToCandidateBytes proof = .ok candidates :=
        hok.elim id (hsdk candidates)
      obtain ⟨scalars, values, hscalars, hall, rfl⟩ := proofObjectToCandidateBytes_eq_ok.mp hok
      exact ⟨scalars, hscalars, fun candidate hmem =>
        carries_candidatesOf (length_scalars hscalars) hall hmem⟩

/-- A proof object with the scalar `-1` for its first coordinate. -/
def negativeProof : ProofObject :=
  have one : SnarkValue := .bigint 1
  ⟨.array [.bigint (-1), one, one], .array [.array [one, one], .array [one, one], .array [one, one]],
    .array [one, one, one]⟩

/-- The SDK rejects it, and the web app writes its first coordinate with a sign. -/
theorem not_agrees_negativeProof : ¬Agrees negativeProof := by
  rintro ⟨⟨candidates, hsdk, -⟩ | ⟨-, e, hweb⟩, -⟩
  · obtain ⟨scalars, values, hscalars, hall, -⟩ := proofObjectToCandidateBytes_eq_ok.mp hsdk
    obtain rfl := Option.some.inj hscalars
    obtain ⟨z, hz⟩ := exists_forall₂_iff.mp ⟨_, hall⟩ (.bigint (-1)) List.mem_cons_self
    obtain ⟨rfl, hnonneg, -⟩ := sdkToSnarkBigInt_eq_ok.mp hz
    exact absurd hnonneg (by decide)
  · have hok : webProofObjectToCandidateBytes negativeProof =
        .ok (candidatesOf [-1, 1, 1, 1, 1, 1, 1, 1, 1, 1, 1, 1]) := rfl
    exact nomatch hok.symm.trans hweb

end Nullark.ProofBytes
