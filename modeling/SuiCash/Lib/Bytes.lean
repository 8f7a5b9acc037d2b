import SuiCash.Lib.Wiring
import Mathlib.Data.Nat.Digits.Lemmas
import Mathlib.Data.Nat.Bitwise

/-!
# Bytes, their bits, and little-endian numbers

A byte is read bit by bit with `bit b j`, the shift-and-mask every language
writes as `(b >> j) & 1 == 1`.  `eq_of_bit` says the eight bits determine the
byte.  `leBits` lays the bits of a byte vector end to end, lowest bit of the
first byte first, and `leNat` reads a byte string as a little-endian number.
`ofBits_leBits` joins the two: the bits of a byte vector, weighted by the
powers of two, are its number.

`leBytes n x` writes `x` back in `n` bytes.  `leNat_leBytes` and
`leBytes_leNat` say the two are inverse on numbers that fit and on strings of
that length, so a byte string of known length is determined by its number
(`eq_of_leNat_eq`).
-/

namespace Bytes

open Wiring

/-! ### The bits of one byte -/

/-- Bit `j` of a byte: `(b >> j) & 1 == 1`. -/
def bit (b : UInt8) (j : ℕ) : Bool := (b >>> j.toUInt8) &&& 1 == 1

theorem bit_eq_testBit (b : UInt8) {j : ℕ} (hj : j < 8) : bit b j = b.toNat.testBit j := by
  have hmod : j % 256 % 8 = j := by omega
  have hval : ((b >>> j.toUInt8) &&& 1).toNat = (b.toNat.testBit j).toNat := by
    rw [UInt8.toNat_and, UInt8.toNat_shiftRight, Nat.toUInt8_eq, UInt8.toNat_ofNat']
    rw [show j % 2 ^ 8 % 8 = j from hmod, UInt8.toNat_one, Nat.and_one_is_mod,
      Nat.toNat_testBit, Nat.shiftRight_eq_div_pow]
  unfold bit
  rw [Bool.eq_iff_iff, beq_iff_eq, ← UInt8.toNat_inj, hval, UInt8.toNat_one, Bool.toNat_eq_one]

@[simp] theorem bit_zero (j : ℕ) : bit 0 j = false := by
  simp [bit, UInt8.zero_shiftRight]

theorem bit_or (a b : UInt8) {j : ℕ} (hj : j < 8) : bit (a ||| b) j = (bit a j || bit b j) := by
  rw [bit_eq_testBit _ hj, bit_eq_testBit _ hj, bit_eq_testBit _ hj, UInt8.toNat_or,
    Nat.testBit_or]

theorem bit_and (a b : UInt8) {j : ℕ} (hj : j < 8) : bit (a &&& b) j = (bit a j && bit b j) := by
  rw [bit_eq_testBit _ hj, bit_eq_testBit _ hj, bit_eq_testBit _ hj, UInt8.toNat_and,
    Nat.testBit_and]

theorem bit_xor (a b : UInt8) {j : ℕ} (hj : j < 8) : bit (a ^^^ b) j = (bit a j ^^ bit b j) := by
  rw [bit_eq_testBit _ hj, bit_eq_testBit _ hj, bit_eq_testBit _ hj, UInt8.toNat_xor,
    Nat.testBit_xor]

theorem bit_one_shiftLeft :
    ∀ k < 8, ∀ j < 8, bit ((1 : UInt8) <<< Nat.toUInt8 k) j = decide (j = k) := by
  decide

/-- **The eight bits determine the byte.** -/
theorem eq_of_bit {a b : UInt8} (h : ∀ j < 8, bit a j = bit b j) : a = b := by
  apply UInt8.toNat_inj.mp
  apply Nat.eq_of_testBit_eq
  intro j
  by_cases hj : j < 8
  · rw [← bit_eq_testBit a hj, ← bit_eq_testBit b hj, h j hj]
  · have hpow : 2 ^ 8 ≤ 2 ^ j := Nat.pow_le_pow_right (by decide) (by omega)
    rw [Nat.testBit_lt_two_pow (lt_of_lt_of_le a.toNat_lt hpow),
      Nat.testBit_lt_two_pow (lt_of_lt_of_le b.toNat_lt hpow)]

/-! ### The bits of a byte vector -/

variable {n : ℕ}

/-- The bits of a byte vector, bit `j` of byte `i` at place `8 i + j`. -/
def leBits (v : Vector UInt8 n) : Vector Bool (n * 8) :=
  (v.map fun b => Vector.ofFn fun j : Fin 8 => bit b j).flatten

theorem getElem_leBits (v : Vector UInt8 n) {k : ℕ} (h : k < n * 8) :
    (leBits v)[k] = bit (getElem v (k / 8) (Nat.div_lt_of_lt_mul (by omega))) (k % 8) := by
  simp [leBits, Vector.getElem_flatten]

theorem leBits_inj {u v : Vector UInt8 n} (h : leBits u = leBits v) : u = v := by
  ext i hi
  apply congrArg UInt8.toNat
  apply eq_of_bit
  intro j hj
  have hk : i * 8 + j < n * 8 := by omega
  have := congrArg (fun x : Vector Bool (n * 8) => x[i * 8 + j]) h
  simp only [getElem_leBits] at this
  have hd : (i * 8 + j) / 8 = i := by omega
  have hr : (i * 8 + j) % 8 = j := by omega
  simpa only [hd, hr] using this

theorem exists_byte (f : ℕ → Bool) : ∃ b : UInt8, ∀ j < 8, bit b j = f j := by
  have hlt : Nat.ofBits (fun j : Fin 8 => f j) < 2 ^ 8 := Nat.ofBits_lt_two_pow _
  refine ⟨UInt8.ofNat (Nat.ofBits fun j : Fin 8 => f j), fun j hj => ?_⟩
  rw [bit_eq_testBit _ hj, UInt8.toNat_ofNat', Nat.mod_eq_of_lt hlt, Nat.testBit_ofBits_lt _ j hj]

theorem exists_leBits (bits : Vector Bool (n * 8)) : ∃ v : Vector UInt8 n, leBits v = bits := by
  choose b hb using fun i : Fin n =>
    exists_byte fun j => if h : i.val * 8 + j < n * 8 then bits[i.val * 8 + j] else false
  refine ⟨Vector.ofFn b, ?_⟩
  ext k hk
  rw [getElem_leBits, Vector.getElem_ofFn, hb _ _ (Nat.mod_lt _ (by decide))]
  have hplace : k / 8 * 8 + k % 8 = k := Nat.div_add_mod' k 8
  simp only [hplace, hk, dif_pos]

/-- The bits of a stretch of bytes are a stretch of the bits. -/
theorem leBits_chunk {m l : ℕ} (v : Vector UInt8 (m * l)) (i : Fin m) :
    leBits (chunk v i) = chunk ((leBits v).cast (Nat.mul_assoc m l 8)) i := by
  ext k hk
  rw [getElem_leBits, getElem_chunk, getElem_chunk, Vector.getElem_cast, getElem_leBits]
  have hd : (i.val * (l * 8) + k) / 8 = i.val * l + k / 8 := by
    rw [← Nat.mul_assoc, Nat.add_comm, Nat.add_mul_div_right _ _ (by decide), Nat.add_comm]
  have hr : (i.val * (l * 8) + k) % 8 = k % 8 := by
    rw [← Nat.mul_assoc, Nat.add_comm, Nat.add_mul_mod_self_right]
  simp only [hd, hr]

/-! ### Little-endian numbers -/

/-- The number a byte string writes, lowest byte first. -/
def leNat (bs : List UInt8) : ℕ := Nat.ofDigits 256 (bs.map UInt8.toNat)

/-- The number a bit string writes, lowest bit first. -/
def ofBits (bs : List Bool) : ℕ := Nat.ofDigits 2 (bs.map Bool.toNat)

@[simp] theorem leNat_nil : leNat [] = 0 := rfl

@[simp] theorem leNat_cons (b : UInt8) (bs : List UInt8) :
    leNat (b :: bs) = b.toNat + 256 * leNat bs := by
  simp [leNat, Nat.ofDigits_cons]

@[simp] theorem ofBits_nil : ofBits [] = 0 := rfl

@[simp] theorem ofBits_cons (b : Bool) (bs : List Bool) :
    ofBits (b :: bs) = b.toNat + 2 * ofBits bs := by
  simp [ofBits, Nat.ofDigits_cons]

theorem ofBits_append (s t : List Bool) :
    ofBits (s ++ t) = ofBits s + 2 ^ s.length * ofBits t := by
  simp [ofBits, Nat.ofDigits_append]

theorem leNat_append (s t : List UInt8) :
    leNat (s ++ t) = leNat s + 256 ^ s.length * leNat t := by
  simp [leNat, Nat.ofDigits_append]

theorem byte_digit_lt (bs : List UInt8) : ∀ d ∈ bs.map UInt8.toNat, d < 256 := by
  intro d hd
  obtain ⟨b, _, rfl⟩ := List.mem_map.mp hd
  exact b.toNat_lt

theorem leNat_lt (bs : List UInt8) : leNat bs < 256 ^ bs.length := by
  have := Nat.ofDigits_lt_base_pow_length (by decide : 1 < 256) (byte_digit_lt bs)
  simpa [leNat] using this

theorem leNat_take (bs : List UInt8) {n : ℕ} (hn : n ≤ bs.length) :
    leNat (bs.take n) = leNat bs % 256 ^ n := by
  have hlt := leNat_lt (bs.take n)
  have hsplit := leNat_append (bs.take n) (bs.drop n)
  rw [List.take_append_drop] at hsplit
  rw [List.length_take, Nat.min_eq_left hn] at hlt hsplit
  rw [hsplit, Nat.add_mul_mod_self_left, Nat.mod_eq_of_lt hlt]

theorem leNat_drop (bs : List UInt8) {n : ℕ} (hn : n ≤ bs.length) :
    leNat (bs.drop n) = leNat bs / 256 ^ n := by
  have hlt := leNat_lt (bs.take n)
  have hsplit := leNat_append (bs.take n) (bs.drop n)
  rw [List.take_append_drop] at hsplit
  rw [List.length_take, Nat.min_eq_left hn] at hlt hsplit
  rw [hsplit, Nat.add_mul_div_left _ _ (Nat.pow_pos (by decide)), Nat.div_eq_of_lt hlt,
    Nat.zero_add]

theorem leNat_eq_zero_iff {bs : List UInt8} : leNat bs = 0 ↔ ∀ b ∈ bs, b = 0 := by
  induction bs with
  | nil => simp
  | cons b bs ih =>
    rw [leNat_cons, List.forall_mem_cons, ← ih, ← UInt8.toNat_inj]
    simp

theorem ofBits_lt (bs : List Bool) : ofBits bs < 2 ^ bs.length := by
  have := Nat.ofDigits_lt_base_pow_length (b := 2) (l := bs.map Bool.toNat) (by decide) (by
    intro d hd
    obtain ⟨b, _, rfl⟩ := List.mem_map.mp hd
    exact b.toNat_lt)
  simpa [ofBits] using this

/-- **Two strings of one length that write the same number are the same.** -/
theorem eq_of_leNat_eq {s t : List UInt8} (hl : s.length = t.length) (h : leNat s = leNat t) :
    s = t := by
  have hmap := Nat.ofDigits_inj_of_len_eq (by decide : 1 < 256) (by simpa using hl)
    (byte_digit_lt s) (byte_digit_lt t) h
  exact List.map_injective_iff.mpr (fun a b => UInt8.toNat_inj.mp) hmap

/-- The `n` low bytes of a number, lowest first. -/
def leBytes (n x : ℕ) : List UInt8 :=
  match n with
  | 0 => []
  | n + 1 => UInt8.ofNat x :: leBytes n (x / 256)

@[simp] theorem leBytes_length (n x : ℕ) : (leBytes n x).length = n := by
  induction n generalizing x with
  | zero => rfl
  | succ n ih => simp [leBytes, ih]

theorem leNat_leBytes_mod (n x : ℕ) : leNat (leBytes n x) = x % 256 ^ n := by
  induction n generalizing x with
  | zero => simp [leBytes, Nat.mod_one]
  | succ n ih =>
    have hsplit : x % 256 ^ (n + 1) = x % 256 + 256 * (x / 256 % 256 ^ n) := by
      rw [Nat.pow_succ', Nat.mod_mul]
    rw [leBytes, leNat_cons, ih, UInt8.toNat_ofNat', hsplit]

theorem leNat_leBytes {n x : ℕ} (h : x < 256 ^ n) : leNat (leBytes n x) = x := by
  rw [leNat_leBytes_mod, Nat.mod_eq_of_lt h]

theorem leBytes_leNat (bs : List UInt8) : leBytes bs.length (leNat bs) = bs := by
  apply eq_of_leNat_eq (by simp)
  exact leNat_leBytes (leNat_lt bs)

/-! ### Words of sixteen bits -/

def toLeBytes (w : UInt16) : List UInt8 := leBytes 2 w.toNat

def fromLeBytes (lo hi : UInt8) : UInt16 := UInt16.ofNat (leNat [lo, hi])

def toBeBytes (w : UInt16) : List UInt8 := (toLeBytes w).reverse

def fromBeBytes (hi lo : UInt8) : UInt16 := fromLeBytes lo hi

/-- **Two bytes are one word.** -/
theorem fromLeBytes_eq_iff {lo hi : UInt8} {w : UInt16} :
    fromLeBytes lo hi = w ↔ toLeBytes w = [lo, hi] := by
  have hlt : leNat [lo, hi] < 2 ^ 16 := lt_of_lt_of_eq (leNat_lt [lo, hi]) (show 256 ^ 2 = 2 ^ 16 by decide)
  constructor
  · rintro rfl
    rw [toLeBytes, fromLeBytes, UInt16.toNat_ofNat', Nat.mod_eq_of_lt hlt]
    exact leBytes_leNat [lo, hi]
  · intro h
    rw [fromLeBytes, ← h, toLeBytes, leNat_leBytes (lt_of_lt_of_eq w.toNat_lt (by decide)),
      UInt16.ofNat_toNat]

theorem fromBeBytes_eq_iff {hi lo : UInt8} {w : UInt16} :
    fromBeBytes hi lo = w ↔ toBeBytes w = [hi, lo] := by
  rw [fromBeBytes, fromLeBytes_eq_iff, toBeBytes, List.reverse_eq_iff]
  rfl

@[simp] theorem toLeBytes_fromLeBytes (lo hi : UInt8) : toLeBytes (fromLeBytes lo hi) = [lo, hi] :=
  fromLeBytes_eq_iff.mp rfl

@[simp] theorem toBeBytes_fromBeBytes (hi lo : UInt8) : toBeBytes (fromBeBytes hi lo) = [hi, lo] :=
  fromBeBytes_eq_iff.mp rfl

@[simp] theorem length_toLeBytes (w : UInt16) : (toLeBytes w).length = 2 := leBytes_length 2 w.toNat

@[simp] theorem length_toBeBytes (w : UInt16) : (toBeBytes w).length = 2 := by
  rw [toBeBytes, List.length_reverse, length_toLeBytes]

/-! ### Bits and bytes write the same number -/

theorem ofBits_ofFn {n : ℕ} (f : Fin n → Bool) : ofBits (List.ofFn f) = Nat.ofBits f := by
  induction n with
  | zero => rfl
  | succ n ih =>
    rw [List.ofFn_succ, ofBits_cons, ih, Nat.ofBits_succ, Nat.add_comm]
    rfl

theorem ofBits_bits (b : UInt8) :
    ofBits (Vector.ofFn fun j : Fin 8 => bit b j).toList = b.toNat := by
  have hbits : (fun j : Fin 8 => bit b j) = fun j : Fin 8 => b.toNat.testBit j :=
    funext fun j => bit_eq_testBit b j.isLt
  rw [Vector.toList_ofFn, ofBits_ofFn, hbits, Nat.ofBits_testBit, Nat.mod_eq_of_lt b.toNat_lt]

theorem toList_leBits (v : Vector UInt8 n) :
    (leBits v).toList
      = v.toList.flatMap fun b => (Vector.ofFn fun j : Fin 8 => bit b j).toList := by
  simp [leBits, Vector.toList, Vector.flatten, List.flatMap, Function.comp_def]

/-- **The bits of a byte vector write the number its bytes write.** -/
theorem ofBits_leBits (v : Vector UInt8 n) : ofBits (leBits v).toList = leNat v.toList := by
  rw [toList_leBits]
  induction v.toList with
  | nil => rfl
  | cons b bs ih =>
    rw [List.flatMap_cons, ofBits_append, ofBits_bits, ih, leNat_cons]
    simp

end Bytes
