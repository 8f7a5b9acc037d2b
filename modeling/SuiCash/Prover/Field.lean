import SuiCash.Lib.Primality
import SuiCash.Lib.Bytes
import Mathlib.Data.ZMod.Basic

/-!
# The scalar field of BN254

`ark_bn254::Fr` is the field of integers modulo `r`.  `r_prime` proves the
order prime, from a primitive root and the factors of `r - 1`, each large factor
from a root of its own.

Numbers below `r` are told apart by the field (`natCast_inj`), which is what
every reading of bits or bytes out of a field element rests on.  `frToBytes` is
the canonical little-endian encoding, 32 bytes.
-/

namespace SuiCash.Prover

open Primality Bytes

@[irreducible] def r : ℕ :=
  21888242871839275222246405745257275088548364400416034343698204186575808495617

abbrev Fr := ZMod r

theorem prime_5156902474397 : Nat.Prime 5156902474397 := by
  have h : Nat.Prime 12048837557 := prime_of_isRoot 64 2 [2, 2, 7, 7, 661, 93001]
    (by decide) (by decide) (by norm_num) (by decide +kernel)
  exact prime_of_isRoot 64 2 [2, 2, 107, 12048837557] (by decide) (by decide)
    (by simp only [List.forall_mem_cons, h]; norm_num) (by decide +kernel)

theorem prime_1670836401704629 : Nat.Prime 1670836401704629 :=
  prime_of_isRoot 64 2 [2, 2, 3, 3, 3, 3, 5156902474397] (by decide) (by decide)
    (by simp only [List.forall_mem_cons, prime_5156902474397]; norm_num) (by decide +kernel)

theorem prime_65865678001877903 : Nat.Prime 65865678001877903 := by
  have h : Nat.Prime 639533339 := prime_of_isRoot 64 2 [2, 229, 853, 1637]
    (by decide) (by decide) (by norm_num) (by decide +kernel)
  exact prime_of_isRoot 64 5 [2, 83, 379, 1637, 639533339] (by decide) (by decide)
    (by simp only [List.forall_mem_cons, h]; norm_num) (by decide +kernel)

theorem prime_13818364434197438864469338081 : Nat.Prime 13818364434197438864469338081 :=
  prime_of_isRoot 128 3 [2, 2, 2, 2, 2, 5, 823, 1593227, 65865678001877903]
    (by decide) (by decide)
    (by simp only [List.forall_mem_cons, prime_65865678001877903]; norm_num) (by decide +kernel)

/-- **The order of the scalar field is prime.** -/
theorem r_prime : r.Prime := by
  have h1 : Nat.Prime 405928799 := prime_of_isRoot 64 22 [2, 11, 3691, 4999]
    (by decide) (by decide) (by norm_num) (by decide +kernel)
  have h2 : ∀ q ∈ [3, 3, 13, 29, 983, 11003, 237073], Nat.Prime q := by norm_num
  unfold r
  refine prime_of_isRoot 256 5 (List.replicate 28 2 ++ ([3, 3, 13, 29, 983, 11003, 237073]
      ++ [405928799, 1670836401704629, 13818364434197438864469338081]))
    (by decide) (by decide) ?_ (by decide +kernel)
  intro q hq
  rcases List.mem_append.mp hq with hq | hq
  · rw [(List.mem_replicate.mp hq).2]
    exact Nat.prime_two
  · rcases List.mem_append.mp hq with hq | hq
    · exact h2 q hq
    · simp only [List.mem_cons, List.not_mem_nil, or_false] at hq
      rcases hq with rfl | rfl | rfl
      · exact h1
      · exact prime_1670836401704629
      · exact prime_13818364434197438864469338081

instance : Fact r.Prime := ⟨r_prime⟩

theorem two_pow_lt_r : 2 ^ 253 < r := by
  unfold r
  decide

theorem r_lt : r < 256 ^ 32 := by
  unfold r
  decide

theorem lt_r_of_lt {n : ℕ} (h : n < 2 ^ 253) : n < r := lt_trans h two_pow_lt_r

theorem natCast_inj {a b : ℕ} (ha : a < r) (hb : b < r) : (a : Fr) = b ↔ a = b := by
  rw [ZMod.natCast_eq_natCast_iff', Nat.mod_eq_of_lt ha, Nat.mod_eq_of_lt hb]

theorem val_natCast {a : ℕ} (ha : a < r) : (a : Fr).val = a := ZMod.val_natCast_of_lt ha

/-- `into_bigint().to_bytes_le()`, and the canonical compressed encoding. -/
def frToBytes (f : Fr) : List UInt8 := leBytes 32 f.val

/-- `Fr::from_le_bytes_mod_order`. -/
def frFromBytesModOrder (bytes : List UInt8) : Fr := (leNat bytes : Fr)

@[simp] theorem frToBytes_length (f : Fr) : (frToBytes f).length = 32 := leBytes_length _ _

theorem leNat_frToBytes (f : Fr) : leNat (frToBytes f) = f.val :=
  leNat_leBytes (lt_trans (ZMod.val_lt f) r_lt)

end SuiCash.Prover
