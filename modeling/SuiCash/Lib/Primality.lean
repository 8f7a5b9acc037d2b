import Mathlib.NumberTheory.LucasPrimality
import Mathlib.Tactic.NormNum.Prime

/-!
# Primality from a primitive root

Lucas: `p` is prime when some `a` has order exactly `p - 1` modulo `p`, that is
`a ^ (p - 1) = 1` while `a ^ ((p - 1) / q) ≠ 1` for each prime `q` dividing
`p - 1`.  `isRoot p a fs` is that test as a computation, with `fs` the prime
factors of `p - 1` written out, and `prime_of_isRoot` is the test's meaning.
The powers are taken by squaring (`power`), so that a prime of a few hundred
bits is a computation the kernel can carry out.
-/

namespace Primality

/-- `a ^ e` modulo `m`, by squaring; the first argument bounds the number of
binary digits of `e`. -/
def power (m : ℕ) : ℕ → ℕ → ℕ → ℕ
  | 0, _, _ => 1 % m
  | digits + 1, a, e =>
    bif e % 2 == 1 then a * power m digits (a * a % m) (e / 2) % m
    else power m digits (a * a % m) (e / 2)

theorem power_eq (m : ℕ) (digits a e : ℕ) (h : e < 2 ^ digits) :
    power m digits a e = a ^ e % m := by
  induction digits generalizing a e with
  | zero =>
    have he : e = 0 := by simpa using h
    rw [he, power, pow_zero]
  | succ digits ih =>
    have hhalf : e / 2 < 2 ^ digits := by rw [pow_succ] at h; omega
    have hsq : (a * a % m) ^ (e / 2) % m = a ^ (2 * (e / 2)) % m := by
      rw [← Nat.pow_mod, pow_mul, pow_two]
    have hsplit := Nat.div_add_mod e 2
    rw [power, ih _ _ hhalf, hsq]
    rcases Nat.mod_two_eq_zero_or_one e with h0 | h1
    · rw [h0] at hsplit ⊢
      rw [Nat.add_zero] at hsplit
      simp only [hsplit]
      rfl
    · rw [h1] at hsplit ⊢
      simp only [beq_self_eq_true, cond_true]
      conv_rhs => rw [← hsplit, pow_succ, mul_comm]
      rw [Nat.mul_mod_mod]

/-- The order of `a` modulo `p` is `p - 1`, whose prime factors are `fs`. -/
def isRoot (digits p a : ℕ) (fs : List ℕ) : Bool :=
  fs.prod == p - 1 && power p digits a (p - 1) == 1
    && fs.all fun q => power p digits a ((p - 1) / q) != 1

theorem cast_pow_eq_one_iff {p : ℕ} (hp : 1 < p) (a e : ℕ) :
    (a : ZMod p) ^ e = 1 ↔ a ^ e % p = 1 := by
  rw [← Nat.cast_pow, ← Nat.cast_one, ZMod.natCast_eq_natCast_iff', Nat.mod_eq_of_lt hp]

/-- **A number with a primitive root is prime.** -/
theorem prime_of_isRoot (digits : ℕ) {p : ℕ} (a : ℕ) (fs : List ℕ) (hp : 1 < p) (hd : p < 2 ^ digits)
    (hfs : ∀ q ∈ fs, q.Prime) (h : isRoot digits p a fs = true) : p.Prime := by
  simp only [isRoot, Bool.and_eq_true, beq_iff_eq, List.all_eq_true, bne_iff_ne] at h
  obtain ⟨⟨hprod, hone⟩, hne⟩ := h
  have hfit : ∀ e ≤ p - 1, e < 2 ^ digits := fun e he => by omega
  refine lucas_primality p (a : ZMod p) ?_ fun q hq hdvd => ?_
  · rw [cast_pow_eq_one_iff hp, ← power_eq _ digits _ _ (hfit _ le_rfl)]
    exact hone
  · rw [← hprod, Prime.dvd_prod_iff hq.prime] at hdvd
    obtain ⟨f, hf, hqf⟩ := hdvd
    have hq' : q = f := (Nat.prime_dvd_prime_iff_eq hq (hfs f hf)).mp hqf
    rw [Ne, cast_pow_eq_one_iff hp, ← power_eq _ digits _ _ (hfit _ (Nat.div_le_self _ _)), hq']
    exact hne f hf

end Primality
