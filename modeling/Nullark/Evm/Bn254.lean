import Mathlib.AlgebraicGeometry.EllipticCurve.Affine.Point
import Nullark.Circuit.Field
import Nullark.Lib.Memory

/-! # The precompiled contracts of the pairing curve

`ecMul`, `ecAdd` and `ecPairing` as they are documented: points of the first group are pairs of
words, the point at infinity is the pair of zeros, and words that are not reduced or not on the
curve make a call fail. The second group, its encoding and the pairing are parameters.

* `prime_baseField`: the order of the base field is prime.
* `decodeG1_encodeG1`, `decodeG1_negate`: points and their words. -/

namespace Nullark.Evm.Bn254

open Nullark.Lib.Bytes Nullark.Lib.Memory Nullark.Lib.Pratt Nullark.Evm.Basic Nullark.Circuit.Field

def baseField : ℕ :=
  21888242871839275222246405745257275088696311157297823662689037894645226208583

/-! ### The order is prime -/

theorem prime_11465965001 : Nat.Prime 11465965001 := by
  refine prime_of_lucas ?_ (by decide +kernel :
    lucasTest 34 11465965001 3 [2, 2, 2, 5, 5, 5, 5, 7, 327599] = true)
  simp only [List.forall_mem_cons]
  norm_num

theorem prime_1263766531 : Nat.Prime 1263766531 := by
  refine prime_of_lucas ?_ (by decide +kernel :
    lucasTest 31 1263766531 10 [2, 3, 5, 13, 911, 3557] = true)
  simp only [List.forall_mem_cons]
  norm_num

theorem prime_35385462869 : Nat.Prime 35385462869 := by
  refine prime_of_lucas ?_ (by decide +kernel :
    lucasTest 36 35385462869 2 [2, 2, 7, 1263766531] = true)
  simp only [List.forall_mem_cons, prime_1263766531, true_and]
  norm_num

theorem prime_2480874801745591 : Nat.Prime 2480874801745591 := by
  refine prime_of_lucas ?_ (by decide +kernel :
    lucasTest 52 2480874801745591 6 [2, 3, 3, 5, 19, 41, 35385462869] = true)
  simp only [List.forall_mem_cons, prime_35385462869, true_and]
  norm_num

theorem prime_13427688667394608761327070753331941386769 :
    Nat.Prime 13427688667394608761327070753331941386769 := by
  refine prime_of_lucas ?_ (by decide +kernel :
    lucasTest 134 13427688667394608761327070753331941386769 17
      [2, 2, 2, 2, 3, 7, 11, 1853641, 4562087, 173171039, 2480874801745591] = true)
  simp only [List.forall_mem_cons, prime_2480874801745591, true_and]
  norm_num

/-- **The order of the base field is prime.** -/
theorem prime_baseField : baseField.Prime := by
  refine prime_of_lucas ?_ (by decide +kernel :
    lucasTest 254 baseField 3 [2, 3, 3, 13, 29, 67, 229, 311, 983, 11003, 405928799, 11465965001,
      13427688667394608761327070753331941386769] = true)
  simp only [List.forall_mem_cons, prime_405928799, prime_11465965001,
    prime_13427688667394608761327070753331941386769, true_and]
  norm_num

instance : Fact baseField.Prime := ⟨prime_baseField⟩

/-! ### Points and words -/

abbrev Fq := ZMod baseField

/-- The curve `y² = x³ + 3`. -/
def curve : WeierstrassCurve.Affine Fq := ⟨0, 0, 0, 0, ((3 : ℕ) : Fq)⟩

abbrev G1 := curve.Point

/-- A pair of words is a point other than infinity. -/
def OnCurve (x y : UInt256) : Prop :=
  x.toNat < baseField ∧ y.toNat < baseField ∧
    y.toNat * y.toNat % baseField = (x.toNat * x.toNat * x.toNat + 3) % baseField

instance (x y : UInt256) : Decidable (OnCurve x y) := inferInstanceAs (Decidable (_ ∧ _))

theorem equation_iff {x y : Fq} : curve.Equation x y ↔ y ^ 2 = x ^ 3 + ((3 : ℕ) : Fq) := by
  rw [WeierstrassCurve.Affine.equation_iff]
  simp [curve]

theorem negY_curve (x y : Fq) : curve.negY x y = -y := by
  unfold WeierstrassCurve.Affine.negY curve
  ring

theorem natCast_ne_zero {n : ℕ} (hpos : 0 < n) (hlt : n < baseField) : ((n : ℕ) : Fq) ≠ 0 := by
  rw [Ne, ZMod.natCast_eq_zero_iff]
  exact Nat.not_dvd_of_pos_of_lt hpos hlt

/-- Every solution is a point. -/
theorem nonsingular_iff {x y : Fq} : curve.Nonsingular x y ↔ curve.Equation x y := by
  refine ⟨fun h => h.1, fun h => ?_⟩
  rw [WeierstrassCurve.Affine.nonsingular_iff]
  refine ⟨h, ?_⟩
  by_contra hboth
  rw [not_or, not_not, not_not] at hboth
  obtain ⟨hx, hy⟩ := hboth
  have hthree : ((3 : ℕ) : Fq) ≠ 0 := natCast_ne_zero (by decide) (by decide)
  have htwo : ((2 : ℕ) : Fq) ≠ 0 := natCast_ne_zero (by decide) (by decide)
  simp only [curve] at hx hy
  push_cast at hthree htwo
  have hy0 : y = 0 := by
    have : (2 : Fq) * y = 0 := by linear_combination hy
    exact (mul_eq_zero.mp this).resolve_left htwo
  have hx0 : x = 0 := by
    have : (3 : Fq) * x ^ 2 = 0 := by linear_combination -hx
    exact pow_eq_zero_iff (two_ne_zero) |>.mp ((mul_eq_zero.mp this).resolve_left hthree)
  rw [equation_iff, hx0, hy0] at h
  push_cast at h
  exact hthree (by linear_combination -h)

theorem onCurve_iff {x y : UInt256} : OnCurve x y ↔ x.toNat < baseField ∧ y.toNat < baseField ∧
    curve.Nonsingular (x.toNat : Fq) (y.toNat : Fq) := by
  unfold OnCurve
  rw [nonsingular_iff, equation_iff, ← ZMod.natCast_eq_natCast_iff']
  push_cast
  simp only [pow_succ, pow_zero, one_mul]

open Classical in
/-- The point of a pair of words. -/
noncomputable def decodeG1 (x y : UInt256) : Option G1 :=
  if x = 0 ∧ y = 0 then some 0
  else if h : OnCurve x y then some (.some _ _ (onCurve_iff.mp h).2.2)
  else none

/-- The words of a point. -/
def encodeG1 : G1 → UInt256 × UInt256
  | .zero => (0, 0)
  | .some x y _ => (BitVec.ofNat 256 x.val, BitVec.ofNat 256 y.val)

/-- The second coordinate of the opposite point. -/
def negateY (y : UInt256) : UInt256 :=
  BitVec.ofNat 256 ((BitVec.ofNat 256 baseField - y).toNat % baseField)

theorem baseField_lt : baseField < 2 ^ 256 := by decide

theorem toNat_ofNat_val (v : Fq) : (BitVec.ofNat 256 v.val).toNat = v.val := by
  rw [BitVec.toNat_ofNat, Nat.mod_eq_of_lt ((ZMod.val_lt v).trans baseField_lt)]

theorem not_onCurve_zero : ¬OnCurve 0 0 := by decide

/-- **A point is what its words say.** -/
theorem decodeG1_encodeG1 (P : G1) : decodeG1 (encodeG1 P).1 (encodeG1 P).2 = some P := by
  cases P with
  | zero => exact if_pos ⟨rfl, rfl⟩
  | some x y h =>
    have hon : OnCurve (BitVec.ofNat 256 x.val) (BitVec.ofNat 256 y.val) := by
      rw [onCurve_iff, toNat_ofNat_val, toNat_ofNat_val, ZMod.natCast_zmod_val,
        ZMod.natCast_zmod_val]
      exact ⟨ZMod.val_lt x, ZMod.val_lt y, h⟩
    have hne : ¬(BitVec.ofNat 256 x.val = 0 ∧ BitVec.ofNat 256 y.val = 0) := by
      rintro ⟨hx, hy⟩
      rw [hx, hy] at hon
      exact not_onCurve_zero hon
    unfold encodeG1 decodeG1
    dsimp only
    rw [if_neg hne, dif_pos hon]
    simp only [toNat_ofNat_val, ZMod.natCast_zmod_val]

theorem ofNat_val_natCast {x : UInt256} (h : x.toNat < baseField) :
    BitVec.ofNat 256 (x.toNat : Fq).val = x := by
  rw [ZMod.val_natCast_of_lt h, BitVec.ofNat_toNat, BitVec.setWidth_eq]

/-- **Only the words of a point** are read as it. -/
theorem encodeG1_of_decodeG1 {x y : UInt256} {P : G1} (h : decodeG1 x y = some P) :
    encodeG1 P = (x, y) := by
  unfold decodeG1 at h
  split_ifs at h with hzero hcurve
  · obtain rfl := Option.some.inj h
    exact Prod.ext hzero.1.symm hzero.2.symm
  · obtain rfl := Option.some.inj h
    exact Prod.ext (ofNat_val_natCast hcurve.1) (ofNat_val_natCast hcurve.2.1)

theorem decodeG1_of_onCurve {x y : UInt256} (h : OnCurve x y) : ∃ P, decodeG1 x y = some P := by
  unfold decodeG1
  split_ifs
  · exact ⟨0, rfl⟩
  · exact ⟨_, rfl⟩

/-- The words of a point, when they are reduced. -/
theorem negateY_toNat {y : UInt256} (h : y.toNat < baseField) :
    (negateY y).toNat = (baseField - y.toNat) % baseField := by
  have hbase : (BitVec.ofNat 256 baseField).toNat = baseField := by decide
  have hsub : (BitVec.ofNat 256 baseField - y).toNat = baseField - y.toNat := by
    rw [BitVec.toNat_sub, hbase]
    have := baseField_lt
    omega
  rw [negateY, hsub, BitVec.toNat_ofNat]
  exact Nat.mod_eq_of_lt ((Nat.mod_lt _ (by decide)).trans baseField_lt)

/-- **The opposite point** of one whose second coordinate is reduced. -/
theorem decodeG1_negateY {x y : UInt256} (h : y.toNat < baseField) :
    decodeG1 x (negateY y) = (decodeG1 x y).map (- ·) := by
  have hneg := negateY_toNat h
  have hcast : ((negateY y).toNat : Fq) = -(y.toNat : Fq) := by
    rw [hneg, ZMod.natCast_mod, Nat.cast_sub h.le, ZMod.natCast_self, zero_sub]
  have hzero : negateY y = 0 ↔ y = 0 := by
    have hz : (0 : UInt256).toNat = 0 := rfl
    rw [← BitVec.toNat_inj, ← BitVec.toNat_inj, hneg, hz]
    rcases Nat.eq_zero_or_pos y.toNat with hy | hy
    · rw [hy, Nat.sub_zero, Nat.mod_self]
    · rw [Nat.mod_eq_of_lt (by omega)]
      omega
  have hon : OnCurve x (negateY y) ↔ OnCurve x y := by
    rw [onCurve_iff, onCurve_iff, nonsingular_iff, nonsingular_iff, equation_iff, equation_iff,
      hcast, neg_sq, hneg]
    have hlt : (baseField - y.toNat) % baseField < baseField := Nat.mod_lt _ prime_baseField.pos
    exact ⟨fun ⟨hx, _, he⟩ => ⟨hx, h, he⟩, fun ⟨hx, _, he⟩ => ⟨hx, hlt, he⟩⟩
  unfold decodeG1
  by_cases hxy : x = 0 ∧ y = 0
  · rw [if_pos hxy, if_pos ⟨hxy.1, hzero.mpr hxy.2⟩]
    rfl
  · rw [if_neg hxy, if_neg fun h => hxy ⟨h.1, hzero.mp h.2⟩]
    by_cases hcurve : OnCurve x y
    · rw [dif_pos hcurve, dif_pos (hon.mpr hcurve), Option.map_some,
        WeierstrassCurve.Affine.Point.neg_some]
      refine congrArg some ((WeierstrassCurve.Affine.Point.some.injEq ..).mpr ⟨rfl, ?_⟩)
      rw [hcast, negY_curve]
    · rw [dif_neg hcurve, dif_neg fun h => hcurve (hon.mp h)]
      rfl

/-! ### The contracts -/

/-- **The precompiled contracts**: what a call returns, unless it fails. -/
structure Precompiles where
  ecAdd : Bytes → Option Bytes
  ecMul : Bytes → Option Bytes
  ecPairing : Bytes → Option Bytes

/-- **The second group**, with the words of its points, and the pairing. -/
structure Pairing (G₂ T : Type) [AddCommGroup G₂] [AddCommGroup T] where
  decodeG2 : UInt256 × UInt256 → UInt256 × UInt256 → Option G₂
  pairing : G1 →+ G₂ →+ T

def encodedWords (P : G1) : List UInt256 := [(encodeG1 P).1, (encodeG1 P).2]

noncomputable def ecAdd (input : Bytes) : Option Bytes := do
  let m := ofBytes input
  let P ← decodeG1 (mload m 0) (mload m 32)
  let Q ← decodeG1 (mload m 64) (mload m 96)
  return words (encodedWords (P + Q))

noncomputable def ecMul (input : Bytes) : Option Bytes := do
  let m := ofBytes input
  let P ← decodeG1 (mload m 0) (mload m 32)
  return words (encodedWords ((mload m 64).toNat • P))

section Pairing
variable {G₂ T : Type} [AddCommGroup G₂] [AddCommGroup T] (c : Pairing G₂ T)

/-- A point of each group at an address. -/
noncomputable def pairAt (m : ByteMemory) (p : ℕ) : Option (G1 × G₂) := do
  let P ← decodeG1 (mload m p) (mload m (p + 32))
  let Q ← c.decodeG2 (mload m (p + 64), mload m (p + 96)) (mload m (p + 128), mload m (p + 160))
  return (P, Q)

open Classical in
noncomputable def ecPairing (input : Bytes) : Option Bytes :=
  if input.length % 192 = 0 then do
    let pairs ← (List.range (input.length / 192)).mapM fun k => pairAt c (ofBytes input) (192 * k)
    return word (if (pairs.map fun p => c.pairing p.1 p.2).sum = 0 then 1 else 0)
  else none

/-- **The contracts as they are documented.** -/
noncomputable def precompiles : Precompiles := ⟨ecAdd, ecMul, ecPairing c⟩

/-- The words of a point of each group. -/
structure PairWords where
  g1 : UInt256 × UInt256
  g2 : (UInt256 × UInt256) × (UInt256 × UInt256)

def PairWords.list (w : PairWords) : List UInt256 :=
  [w.g1.1, w.g1.2, w.g2.1.1, w.g2.1.2, w.g2.2.1, w.g2.2.2]

noncomputable def PairWords.decode (w : PairWords) : Option (G1 × G₂) := do
  let P ← decodeG1 w.g1.1 w.g1.2
  let Q ← c.decodeG2 w.g2.1 w.g2.2
  return (P, Q)

variable {c} {m : ByteMemory} {p : ℕ} {x y s : UInt256} {P Q : G1}

theorem pairAt_of_holds {w : PairWords} (h : Holds m p w.list) : pairAt c m p = w.decode c := by
  have h0 : mload m p = w.g1.1 := h.mload_at (i := 0) rfl rfl
  have h1 : mload m (p + 32) = w.g1.2 := h.mload_at (i := 1) rfl rfl
  have h2 : mload m (p + 64) = w.g2.1.1 := h.mload_at (i := 2) rfl rfl
  have h3 : mload m (p + 96) = w.g2.1.2 := h.mload_at (i := 3) rfl rfl
  have h4 : mload m (p + 128) = w.g2.2.1 := h.mload_at (i := 4) rfl rfl
  have h5 : mload m (p + 160) = w.g2.2.2 := h.mload_at (i := 5) rfl rfl
  rw [pairAt, h0, h1, h2, h3, h4, h5]
  rfl

theorem mapM_pairAt : ∀ {ws : List PairWords} {p : ℕ}, Holds m p (ws.flatMap PairWords.list) →
    (List.range ws.length).mapM (fun k => pairAt c m (p + 192 * k)) =
      ws.mapM (PairWords.decode c)
  | [], _, _ => rfl
  | w :: ws, p, h => by
    rw [List.flatMap_cons, holds_append] at h
    have ih := mapM_pairAt h.2
    have hshift : ∀ k, p + 192 * (k + 1) = p + 32 * w.list.length + 192 * k := fun k => by
      rw [show w.list.length = 6 from rfl]
      omega
    rw [List.length_cons, List.range_succ_eq_map, List.mapM_cons, List.mapM_map, List.mapM_cons,
      Nat.mul_zero, Nat.add_zero, pairAt_of_holds h.1, ← ih]
    simp only [Function.comp_def, Nat.succ_eq_add_one, hshift]

theorem length_pairWords (ws : List PairWords) :
    (words (ws.flatMap PairWords.list)).length = 192 * ws.length := by
  rw [length_words]
  induction ws with
  | nil => rfl
  | cons w ws ih =>
    rw [List.flatMap_cons, List.length_append, List.length_cons, show w.list.length = 6 from rfl]
    omega

open Classical in
/-- **A call of the pairing** on the words of its points. -/
theorem ecPairing_words (ws : List PairWords) :
    ecPairing c (words (ws.flatMap PairWords.list)) =
      (ws.mapM (PairWords.decode c)).map fun pairs =>
        word (if (pairs.map fun p => c.pairing p.1 p.2).sum = 0 then 1 else 0) := by
  have hpairs := mapM_pairAt (c := c) (holds_ofBytes (ws.flatMap PairWords.list))
  simp only [Nat.zero_add] at hpairs
  rw [ecPairing, length_pairWords, Nat.mul_mod_right, if_pos rfl,
    Nat.mul_div_cancel_left _ (by decide), hpairs]
  cases ws.mapM (PairWords.decode c) <;> rfl

theorem ecMul_words (h : decodeG1 x y = some P) :
    ecMul (words [x, y, s]) = some (words (encodedWords (s.toNat • P))) := by
  have hm := holds_ofBytes [x, y, s]
  have h0 : mload (ofBytes (words [x, y, s])) 0 = x := hm.mload_at (i := 0) rfl rfl
  have h1 : mload (ofBytes (words [x, y, s])) 32 = y := hm.mload_at (i := 1) rfl rfl
  have h2 : mload (ofBytes (words [x, y, s])) 64 = s := hm.mload_at (i := 2) rfl rfl
  rw [ecMul]
  simp only [h0, h1, h2, h]
  rfl

theorem ecAdd_words (P Q : G1) :
    ecAdd (words (encodedWords P ++ encodedWords Q)) = some (words (encodedWords (P + Q))) := by
  have hm := holds_ofBytes (encodedWords P ++ encodedWords Q)
  have h0 := hm.mload_at (by decide : 0 = 0 + 32 * 0) rfl
  have h1 := hm.mload_at (by decide : 32 = 0 + 32 * 1) rfl
  have h2 := hm.mload_at (by decide : 64 = 0 + 32 * 2) rfl
  have h3 := hm.mload_at (by decide : 96 = 0 + 32 * 3) rfl
  rw [ecAdd]
  simp only [h0, h1, h2, h3, decodeG1_encodeG1]
  rfl

end Pairing

end Nullark.Evm.Bn254
