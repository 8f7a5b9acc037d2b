import SuiCash.Des.Tables
import SuiCash.Lib.Bytes
import SuiCash.Lib.Cipher

/-!
# The native block cipher

`prover/src/des.rs`, from bytes to bytes: the bit order, the key schedule, the
round function, the sixteen rounds, and two-key EDE on top.

Between `bytesToDesBits` and `desBitsToBytes` the work is on 64 bits in DES
order.  `desBits` names that stage, so that `desBlock` is the stage between two
conversions, and `bytesToDesBits_desBlock` takes them off again.

`desBits_reverse` is the Feistel inverse law at the tables of DES, and with it
`des` and `tdes` are keyed permutations: encryption and decryption undo each
other on every block under every key.
-/

namespace SuiCash.Des

open Wiring Bytes

abbrev Block := Vector UInt8 8

/-- A block written as one number, its first byte on top. -/
abbrev Block.ofNat (n : ℕ) : Block :=
  #v[(n >>> 56).toUInt8, (n >>> 48).toUInt8, (n >>> 40).toUInt8, (n >>> 32).toUInt8,
    (n >>> 24).toUInt8, (n >>> 16).toUInt8, (n >>> 8).toUInt8, n.toUInt8]

/-! ### Bit order -/

/-- Bytes to bits in DES order, bit 0 the top bit of byte 0. -/
def bytesToDesBits (block : Block) : Vector Bool 64 :=
  Vector.ofFn fun k => bit (block[k.val / 8]) (7 - k.val % 8)

/-- Bits in DES order to bytes. -/
def desBitsToBytes (bits : Vector Bool 64) : Block :=
  Nat.fold 64 (fun k hk (out : Block) =>
    if bits[k] then
      out.set (k / 8) (out[k / 8] ||| ((1 : UInt8) <<< (7 - k % 8).toUInt8))
    else out) (Vector.replicate 8 0)

theorem getElem_bytesToDesBits (block : Block) {k : ℕ} (hk : k < 64) :
    (bytesToDesBits block)[k] = bit (block[k / 8]) (7 - k % 8) := by
  simp [bytesToDesBits]

/-- After the first `k` bits, bit `j` of byte `i` is set exactly when the DES bit
that names it is among them and set. -/
theorem bit_desBitsToBytes (bits : Vector Bool 64) {i j : ℕ} (hi : i < 8) (hj : j < 8) :
    bit (desBitsToBytes bits)[i] j = bits[8 * i + (7 - j)] := by
  have inv := fold_invariant (n := 64)
    (f := fun k hk (out : Block) =>
      if bits[k] then
        out.set (k / 8) (out[k / 8] ||| ((1 : UInt8) <<< (7 - k % 8).toUInt8))
      else out)
    (s := Vector.replicate 8 0)
    (fun k out => ∀ (i j : ℕ) (hi : i < 8) (hj : j < 8),
      bit out[i] j = (decide (8 * i + (7 - j) < k) && bits[8 * i + (7 - j)]))
    (by intro i j hi hj; simp) ?_
  · have := inv i j hi hj
    rwa [decide_eq_true (by omega), Bool.true_and] at this
  · intro k hk s ih i j hi hj
    by_cases hb : bits[k]
    · rw [if_pos hb, Vector.getElem_set]
      by_cases hik : k / 8 = i
      · subst hik
        rw [if_pos rfl, bit_or _ _ hj, ih _ _ hi hj, bit_one_shiftLeft _ (by omega) _ hj]
        by_cases hjk : j = 7 - k % 8
        · have hplace : 8 * (k / 8) + (7 - j) = k := by omega
          have hset : decide (j = 7 - k % 8) = true := decide_eq_true hjk
          simp only [hplace, hb, hset, Bool.or_true, Nat.lt_succ_self, decide_true, Bool.and_true]
        · have hiff : (8 * (k / 8) + (7 - j) < k + 1) ↔ (8 * (k / 8) + (7 - j) < k) := by omega
          simp only [hiff, hjk, decide_false, Bool.or_false]
      · have hiff : (8 * i + (7 - j) < k + 1) ↔ (8 * i + (7 - j) < k) := by omega
        rw [if_neg hik, ih _ _ hi hj]
        simp only [hiff]
    · rw [if_neg hb, ih _ _ hi hj]
      by_cases hplace : 8 * i + (7 - j) = k
      · simp only [hplace, Bool.not_eq_true] at hb ⊢
        simp [hb]
      · have hiff : (8 * i + (7 - j) < k + 1) ↔ (8 * i + (7 - j) < k) := by omega
        simp only [hiff]

@[simp] theorem bytesToDesBits_desBitsToBytes (bits : Vector Bool 64) :
    bytesToDesBits (desBitsToBytes bits) = bits := by
  ext k hk
  rw [getElem_bytesToDesBits _ hk, bit_desBitsToBytes bits (by omega) (by omega)]
  have : 8 * (k / 8) + (7 - (7 - k % 8)) = k := by omega
  simp only [this]

@[simp] theorem desBitsToBytes_bytesToDesBits (block : Block) :
    desBitsToBytes (bytesToDesBits block) = block := by
  apply Vector.ext
  intro i hi
  apply eq_of_bit
  intro j hj
  rw [bit_desBitsToBytes _ hi hj, getElem_bytesToDesBits _ (by omega)]
  have hd : (8 * i + (7 - j)) / 8 = i := by omega
  have hr : 7 - (8 * i + (7 - j)) % 8 = j := by omega
  simp only [hd, hr]

/-! ### The round function -/

/-- Row and column of an S-box entry: the row from the outer two of the six
bits, the column from the inner four. -/
def sboxIndex (bits : Vector Bool 6) : Fin 64 :=
  let row := ((bits.get 0).toNat <<< 1) ||| (bits.get 5).toNat
  let col := ((bits.get 1).toNat <<< 3) ||| ((bits.get 2).toNat <<< 2)
    ||| ((bits.get 3).toNat <<< 1) ||| (bits.get 4).toNat
  ⟨row * 16 + col, by
    have hbit : ∀ (b : Bool) (k n : ℕ), k < n → b.toNat <<< k < 2 ^ n := by
      intro b k n hk
      rw [Nat.shiftLeft_eq]
      calc b.toNat * 2 ^ k ≤ 1 * 2 ^ k := Nat.mul_le_mul_right _ (Bool.toNat_le b)
        _ < 2 ^ n := by rw [Nat.one_mul]; exact Nat.pow_lt_pow_right (by decide) hk
    have hrow : row < 2 ^ 2 :=
      Nat.or_lt_two_pow (hbit _ 1 2 (by decide)) (hbit (bits.get 5) 0 2 (by decide))
    have hcol : col < 2 ^ 4 :=
      Nat.or_lt_two_pow (Nat.or_lt_two_pow (Nat.or_lt_two_pow (hbit _ 3 4 (by decide))
        (hbit _ 2 4 (by decide))) (hbit _ 1 4 (by decide))) (hbit (bits.get 4) 0 4 (by decide))
    omega⟩

/-- S-box lookup: six input bits, `b0` first, to a four-bit value. -/
def sboxLookup (boxIdx : Fin 8) (bits : Vector Bool 6) : UInt8 := SBOX[boxIdx][sboxIndex bits]

def sboxBits (v : UInt8) : Vector Bool 4 := #v[bit v 3, bit v 2, bit v 1, bit v 0]

def permute {n m : ℕ} (bits : Vector Bool n) (table : Vector (Fin n) m) : Vector Bool m :=
  gather bits table

def rotl28 (v : Vector Bool 28) (n : ℕ) : Vector Bool 28 := rotateLeft v n

/-- `a[i] ^ b[i]` at every place. -/
def xorBits {n : ℕ} (a b : Vector Bool n) : Vector Bool n := Vector.zipWith (· ^^ ·) a b

@[simp] theorem xorBits_xorBits {n : ℕ} (a b : Vector Bool n) : xorBits (xorBits a b) b = a := by
  ext i hi
  simp [xorBits]

def feistel (r : Vector Bool 32) (k : Vector Bool 48) : Vector Bool 32 :=
  let expanded := permute r E
  let xored : Vector Bool (8 * 6) := xorBits expanded k
  let sOut : Vector Bool (8 * 4) :=
    (Vector.ofFn fun b : Fin 8 => sboxBits (sboxLookup b (chunk xored b))).flatten
  permute sOut P

/-! ### The key schedule -/

def halves {α : Type} {m : ℕ} (v : Vector α (m + m)) : Vector α m × Vector α m :=
  (Vector.ofFn fun i => v[i.val], Vector.ofFn fun i => v[m + i.val])

/-- The loop of the key schedule: rotate both halves, then pick 48 of the 56
entries.  The same loop runs over bits and over circuit variables. -/
def scheduleFrom {α : Type} : List ℕ → Vector α 28 → Vector α 28 → List (Vector α 48)
  | [], _, _ => []
  | s :: shifts, c, d =>
    let c := rotateLeft c s
    let d := rotateLeft d s
    gather (c ++ d : Vector α 56) PC2 :: scheduleFrom shifts c d

def roundKeys (key : Block) : List (Vector Bool 48) :=
  let pc1 : Vector Bool (28 + 28) := permute (bytesToDesBits key) PC1
  scheduleFrom SHIFTS (halves pc1).1 (halves pc1).2

@[simp] theorem scheduleFrom_length {α : Type} (shifts : List ℕ) (c d : Vector α 28) :
    (scheduleFrom shifts c d).length = shifts.length := by
  induction shifts generalizing c d with
  | nil => rfl
  | cons s shifts ih => simp [scheduleFrom, ih]

@[simp] theorem roundKeys_length (key : Block) : (roundKeys key).length = 16 :=
  scheduleFrom_length _ _ _

/-! ### The block function -/

/-- The final permutation, inverted from `IP` entry by entry. -/
def fpTable : Vector (Fin 64) 64 := scatter (Vector.replicate 64 ⟨0, by decide⟩) IP (Vector.ofFn id)

/-- The sixteen rounds between the initial and the final permutation, under the
round keys in the order given.  There is no final swap: the pre-output is
`R16 || L16`. -/
def desBits (keys : List (Vector Bool 48)) (bits : Vector Bool 64) : Vector Bool 64 :=
  let ip : Vector Bool (32 + 32) := permute bits IP
  let s := keys.foldl (fun s k => (s.2, xorBits s.1 (feistel s.2 k))) (halves ip)
  permute (s.2 ++ s.1 : Vector Bool 64) fpTable

def desBlock (data key : Block) (encrypt : Bool) : Block :=
  let keys := roundKeys key
  let keys := if encrypt then keys else keys.reverse
  desBitsToBytes (desBits keys (bytesToDesBits data))

def desEncrypt (data key : Block) : Block := desBlock data key true

def desDecrypt (data key : Block) : Block := desBlock data key false

def tdesEncrypt (data k1 k2 : Block) : Block :=
  let t1 := desEncrypt data k1
  let t2 := desDecrypt t1 k2
  desEncrypt t2 k1

def tdesDecrypt (data k1 k2 : Block) : Block :=
  let t1 := desDecrypt data k1
  let t2 := desEncrypt t1 k2
  desDecrypt t2 k1

theorem bytesToDesBits_desBlock (data key : Block) (encrypt : Bool) :
    bytesToDesBits (desBlock data key encrypt)
      = desBits (if encrypt then roundKeys key else (roundKeys key).reverse)
          (bytesToDesBits data) := by
  simp [desBlock]

/-! ### Encryption and decryption undo each other -/

theorem IP_fpTable : ∀ k : Fin 64, IP[fpTable[k]] = k := by decide +kernel

theorem fpTable_IP (k : Fin 64) : fpTable[IP[k]] = k := by
  have hinj : Function.Injective fun k : Fin 64 => IP[k] :=
    Finite.injective_iff_surjective.mpr fun k => ⟨fpTable[k], IP_fpTable k⟩
  exact hinj (IP_fpTable IP[k])

theorem gather_IP_fpTable {α : Type} (v : Vector α 64) : gather (gather v IP) fpTable = v := by
  ext k hk
  rw [getElem_gather _ _ hk, Fin.getElem_fin, getElem_gather]
  simpa using congrArg (fun j : Fin 64 => v[j]) (IP_fpTable ⟨k, hk⟩)

theorem gather_fpTable_IP {α : Type} (v : Vector α 64) : gather (gather v fpTable) IP = v := by
  ext k hk
  rw [getElem_gather _ _ hk, Fin.getElem_fin, getElem_gather]
  simpa using congrArg (fun j : Fin 64 => v[j]) (fpTable_IP ⟨k, hk⟩)

@[simp] theorem halves_append {α : Type} {m : ℕ} (u v : Vector α m) : halves (u ++ v) = (u, v) := by
  refine Prod.ext ?_ ?_ <;> ext i hi <;> simp [halves]

@[simp] theorem append_halves {α : Type} {m : ℕ} (v : Vector α (m + m)) :
    (halves v).1 ++ (halves v).2 = v := by
  ext i hi
  rw [Vector.getElem_append hi]
  split
  · simp [halves]
  · have : m + (i - m) = i := by omega
    simp [halves, this]

/-- **The sixteen rounds are undone by the reversed round keys.** -/
theorem desBits_reverse (keys : List (Vector Bool 48)) (bits : Vector Bool 64) :
    desBits keys.reverse (desBits keys bits) = bits := by
  let start : Vector Bool 32 × Vector Bool 32 := halves (permute bits IP : Vector Bool (32 + 32))
  let out := Cipher.Feistel.rounds xorBits feistel keys start
  have hback : Cipher.Feistel.rounds xorBits feistel keys.reverse out.swap = start.swap :=
    Cipher.Feistel.rounds_reverse xorBits_xorBits keys start
  have hmid : permute (desBits keys bits) IP = (out.2 ++ out.1 : Vector Bool (32 + 32)) :=
    gather_fpTable_IP _
  have hstart : start.1 ++ start.2 = permute bits IP := append_halves _
  calc desBits keys.reverse (desBits keys bits)
      = permute ((Cipher.Feistel.rounds xorBits feistel keys.reverse
            (halves (permute (desBits keys bits) IP))).2
          ++ (Cipher.Feistel.rounds xorBits feistel keys.reverse
            (halves (permute (desBits keys bits) IP))).1 : Vector Bool 64) fpTable := rfl
    _ = permute (start.1 ++ start.2 : Vector Bool 64) fpTable := by
        rw [hmid, halves_append]
        show permute ((Cipher.Feistel.rounds xorBits feistel keys.reverse out.swap).2
          ++ (Cipher.Feistel.rounds xorBits feistel keys.reverse out.swap).1 : Vector Bool 64)
          fpTable = _
        rw [hback]
        rfl
    _ = bits := by
        rw [hstart]
        exact gather_IP_fpTable bits

def des : Cipher.KeyedPerm Block Block where
  enc := desEncrypt
  dec := desDecrypt
  dec_enc x k := by
    have h := desBits_reverse (roundKeys k) (bytesToDesBits x)
    simp [desEncrypt, desDecrypt, desBlock, h]
  enc_dec x k := by
    have h := desBits_reverse (roundKeys k).reverse (bytesToDesBits x)
    rw [List.reverse_reverse] at h
    simp [desEncrypt, desDecrypt, desBlock, h]

theorem des_enc : des.enc = desEncrypt := rfl

theorem des_dec : des.dec = desDecrypt := rfl

@[simp] theorem desDecrypt_desEncrypt (d k : Block) : desDecrypt (desEncrypt d k) k = d :=
  des.dec_enc d k

@[simp] theorem desEncrypt_desDecrypt (d k : Block) : desEncrypt (desDecrypt d k) k = d :=
  des.enc_dec d k

@[simp] theorem tdesDecrypt_tdesEncrypt (d k1 k2 : Block) :
    tdesDecrypt (tdesEncrypt d k1 k2) k1 k2 = d := des.ede.dec_enc d (k1, k2)

@[simp] theorem tdesEncrypt_tdesDecrypt (d k1 k2 : Block) :
    tdesEncrypt (tdesDecrypt d k1 k2) k1 k2 = d := des.ede.enc_dec d (k1, k2)

theorem tdesEncrypt_eq_iff {x y k1 k2 : Block} :
    tdesEncrypt x k1 k2 = y ↔ x = tdesDecrypt y k1 k2 := des.ede.enc_eq_iff (k := (k1, k2))

theorem desDecrypt_inj {x y k : Block} (h : desDecrypt x k = desDecrypt y k) : x = y :=
  des.dec_inj h

theorem tdesEncrypt_self (d k : Block) : tdesEncrypt d k k = desEncrypt d k :=
  des.ede_enc_self d k

theorem tdesDecrypt_self (d k : Block) : tdesDecrypt d k k = desDecrypt d k :=
  des.ede_dec_self d k

/-- **DES and two-key 3DES are permutations, each direction the inverse of the
other**, and 3DES under one key twice is single DES. -/
theorem encrypt_decrypt_inverse (d k k1 k2 : Block) :
    desDecrypt (desEncrypt d k) k = d ∧ desEncrypt (desDecrypt d k) k = d
      ∧ tdesDecrypt (tdesEncrypt d k1 k2) k1 k2 = d
      ∧ tdesEncrypt (tdesDecrypt d k1 k2) k1 k2 = d
      ∧ tdesEncrypt d k k = desEncrypt d k ∧ tdesDecrypt d k k = desDecrypt d k :=
  ⟨desDecrypt_desEncrypt d k, desEncrypt_desDecrypt d k, tdesDecrypt_tdesEncrypt d k1 k2,
    tdesEncrypt_tdesDecrypt d k1 k2, tdesEncrypt_self d k, tdesDecrypt_self d k⟩

end SuiCash.Des
