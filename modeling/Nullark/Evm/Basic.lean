import Nullark.Lib.Outcome

/-! # Words, reverts and checked arithmetic

The values of the contracts: `bytes32`, `address` and `bytes4` are fixed-width, `bytes` is a list
of bytes, and the counters and amounts the contracts keep are natural numbers whose arithmetic is
checked against the width of a word, as Solidity 0.8 checks it. -/

namespace Nullark.Evm.Basic

open Nullark.Lib.Outcome

abbrev Bytes32 := BitVec 256

abbrev UInt256 := BitVec 256

abbrev Address := BitVec 160

abbrev Bytes4 := BitVec 32

abbrev Bytes := List UInt8

/-- **Why a call reverts**: a `require` or `revert` with its text, a panic of checked arithmetic,
the custom error of the re-entrancy guard, ether sent to a function that takes none, or ether the
sender does not have. -/
inductive Revert
  | reason (text : String)
  | underflow
  | overflow
  | reentrancyGuardReentrantCall
  | nonPayable
  | insufficientBalance
  deriving DecidableEq, Repr

abbrev Result := Except Revert

/-- `require(p, text)`. -/
def require (p : Prop) [Decidable p] (text : String) : Result Unit :=
  if p then .ok () else .error (.reason text)

@[simp] theorem require_eq_ok {p : Prop} [Decidable p] {text : String} {u : Unit} :
    require p text = .ok u ↔ p := by
  unfold require; split_ifs with h <;> simp [h]

@[simp] theorem require_eq_error {p : Prop} [Decidable p] {text : String} {e : Revert} :
    require p text = .error e ↔ ¬p ∧ e = .reason text := by
  unfold require; split_ifs with h <;> simp [h, eq_comm]

theorem require_of {p : Prop} [Decidable p] {text : String} (h : p) : require p text = .ok () :=
  require_eq_ok.mpr h

/-- The number of words. -/
def wordSize : ℕ := 2 ^ 256

def checkedAdd (a b : ℕ) : Result ℕ := if a + b < wordSize then .ok (a + b) else .error .overflow

def checkedSub (a b : ℕ) : Result ℕ := if b ≤ a then .ok (a - b) else .error .underflow

def checkedMul (a b : ℕ) : Result ℕ := if a * b < wordSize then .ok (a * b) else .error .overflow

@[simp] theorem checkedAdd_eq_ok {a b c : ℕ} :
    checkedAdd a b = .ok c ↔ a + b < wordSize ∧ a + b = c := by
  unfold checkedAdd; split_ifs with h <;> simp [h]

@[simp] theorem checkedSub_eq_ok {a b c : ℕ} : checkedSub a b = .ok c ↔ b ≤ a ∧ a - b = c := by
  unfold checkedSub; split_ifs with h <;> simp [h]

@[simp] theorem checkedMul_eq_ok {a b c : ℕ} :
    checkedMul a b = .ok c ↔ a * b < wordSize ∧ a * b = c := by
  unfold checkedMul; split_ifs with h <;> simp [h]

@[simp] theorem checkedAdd_eq_error {a b : ℕ} {e : Revert} :
    checkedAdd a b = .error e ↔ wordSize ≤ a + b ∧ e = .overflow := by
  unfold checkedAdd; split_ifs with h <;> simp_all [eq_comm]

@[simp] theorem checkedSub_eq_error {a b : ℕ} {e : Revert} :
    checkedSub a b = .error e ↔ a < b ∧ e = .underflow := by
  unfold checkedSub; split_ifs with h <;> simp_all [eq_comm]

@[simp] theorem checkedMul_eq_error {a b : ℕ} {e : Revert} :
    checkedMul a b = .error e ↔ wordSize ≤ a * b ∧ e = .overflow := by
  unfold checkedMul; split_ifs with h <;> simp_all [eq_comm]

end Nullark.Evm.Basic
