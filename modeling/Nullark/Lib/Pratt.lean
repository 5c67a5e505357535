import Mathlib.Data.List.Prime
import Mathlib.NumberTheory.LucasPrimality
import Mathlib.Tactic

/-! # Primes from their certificates

`prime_of_lucas` is Lucas's test, with the powers computed by squaring so that the kernel can run
it on large numbers: a number is prime if a base has order `p - 1` modulo it, where `p - 1` is the
product of a list of primes. -/

namespace Nullark.Lib.Pratt

/-- `a ^ e % m`, for `e < 2 ^ n`, by squaring. -/
def powMod (m : ℕ) : ℕ → ℕ → ℕ → ℕ
  | 0, _, _ => 1 % m
  | n + 1, a, e =>
    if e % 2 = 0 then powMod m n (a * a % m) (e / 2)
    else a * powMod m n (a * a % m) (e / 2) % m

theorem powMod_eq (m : ℕ) : ∀ (n a e : ℕ), e < 2 ^ n → powMod m n a e = a ^ e % m
  | 0, a, e, h => by
    have he : e = 0 := by simpa using h
    rw [he, powMod, pow_zero]
  | n + 1, a, e, h => by
    have hhalf : e / 2 < 2 ^ n := by rw [pow_succ] at h; omega
    have ih := powMod_eq m n (a * a % m) (e / 2) hhalf
    have hsquare : (a * a % m) ^ (e / 2) % m = a ^ (2 * (e / 2)) % m := by
      rw [← Nat.pow_mod, pow_mul, sq]
    rw [powMod]
    split_ifs with heven
    · rw [ih, hsquare, show 2 * (e / 2) = e by omega]
    · rw [ih, hsquare, Nat.mul_mod_mod, ← pow_succ', show 2 * (e / 2) + 1 = e by omega]

/-- **The test**: the base has order `p - 1`, as far as the factors tell. -/
def lucasTest (n p a : ℕ) (factors : List ℕ) : Bool :=
  1 < p ∧ p ≤ 2 ^ n ∧ factors.prod = p - 1 ∧ powMod p n a (p - 1) = 1 ∧
    ∀ q ∈ factors, powMod p n a ((p - 1) / q) ≠ 1

theorem natCast_pow_eq_one {p : ℕ} (hp : 1 < p) (a e : ℕ) :
    (a : ZMod p) ^ e = 1 ↔ a ^ e % p = 1 := by
  rw [← Nat.cast_pow, ← Nat.cast_one, ZMod.natCast_eq_natCast_iff', Nat.mod_eq_of_lt hp]

/-- **A number that passes the test is prime.** -/
theorem prime_of_lucas {n p a : ℕ} {factors : List ℕ} (hfactors : ∀ q ∈ factors, q.Prime)
    (htest : lucasTest n p a factors = true) : p.Prime := by
  obtain ⟨hp, hn, hprod, hone, hne⟩ := of_decide_eq_true htest
  have hlt : ∀ e ≤ p - 1, e < 2 ^ n := fun e he => by omega
  refine lucas_primality p (a : ZMod p) ?_ fun q hq hdvd => ?_
  · rw [natCast_pow_eq_one hp, ← powMod_eq p n a _ (hlt _ le_rfl)]
    exact hone
  · rw [← hprod] at hdvd
    obtain ⟨r, hr, hqr⟩ := (Prime.dvd_prod_iff hq.prime).mp hdvd
    have hq_mem : q ∈ factors := (Nat.prime_dvd_prime_iff_eq hq (hfactors r hr)).mp hqr ▸ hr
    rw [Ne, natCast_pow_eq_one hp, ← powMod_eq p n a _ (hlt _ (Nat.div_le_self _ _))]
    exact hne q hq_mem

end Nullark.Lib.Pratt
