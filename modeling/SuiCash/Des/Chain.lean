import SuiCash.Des.Block

/-!
# Chaining and the command MAC

The byte-string functions of `prover/src/des.rs`: DES-CBC under a zero IV in
both directions, and the FeliCa command MAC, which encrypts a header block
under each payload block in turn.

Both cut their input into blocks of eight first.  `blocks` is that cut and
`join` lays blocks end to end again; `blocks_eq_some_iff` says they are inverse
to each other, so a byte string of a multiple of eight bytes *is* a list of
blocks.  What the functions do is then a statement about blocks
(`cbcDecrypt_join`, `commandMac_join`).

CBC in both directions is then inverted by its other direction at every length, and
one changed ciphertext block reaches two plaintext blocks and no more (`cbc_inverse`).
-/

namespace SuiCash.Des

open Wiring Bytes

/-! ### Blocks -/

/-- `data.chunks(8)` with each chunk taken as a block; `none` where the last
chunk is short and the conversion panics. -/
def blocks : List UInt8 → Option (List Block)
  | [] => some []
  | a :: b :: c :: d :: e :: f :: g :: h :: rest =>
    (blocks rest).map (#v[a, b, c, d, e, f, g, h] :: ·)
  | _ => none

def join (bs : List Block) : List UInt8 := bs.flatMap Vector.toList

@[simp] theorem join_nil : join [] = [] := rfl

@[simp] theorem join_cons (b : Block) (bs : List Block) : join (b :: bs) = b.toList ++ join bs := rfl

@[simp] theorem join_length (bs : List Block) : (join bs).length = 8 * bs.length := by
  induction bs with
  | nil => rfl
  | cons b bs ih => rw [join_cons, List.length_append, ih]; simp; omega

theorem join_inj {bs cs : List Block} (h : join bs = join cs) : bs = cs := by
  induction bs generalizing cs with
  | nil =>
    have := congrArg List.length h
    cases cs with
    | nil => rfl
    | cons c cs => simp at this; omega
  | cons b bs ih =>
    cases cs with
    | nil => have := congrArg List.length h; simp at this
    | cons c cs =>
      rw [join_cons, join_cons] at h
      obtain ⟨hb, hrest⟩ := List.append_inj h (by simp)
      rw [Vector.toList_inj.mp hb, ih hrest]

theorem extract_join {bs : List Block} {i : ℕ} (h : i < bs.length) :
    (join bs).extract (8 * i) (8 * i + 8) = bs[i].toList := by
  rw [List.extract_eq_take_drop, Nat.add_sub_cancel_left]
  induction bs generalizing i with
  | nil => exact absurd h (Nat.not_lt_zero i)
  | cons b bs ih =>
    have hlen : b.toList.length = 8 := by simp
    rw [join_cons]
    cases i with
    | zero =>
      rw [Nat.mul_zero, List.drop_zero, List.take_left' hlen]
      rfl
    | succ i =>
      rw [Nat.mul_succ, Nat.add_comm, ← List.drop_drop, List.drop_left' hlen,
        ih (Nat.lt_of_succ_lt_succ h)]
      rfl

theorem exists_toList (b : Block) : ∃ a0 a1 a2 a3 a4 a5 a6 a7,
    b = #v[a0, a1, a2, a3, a4, a5, a6, a7] := by
  refine ⟨b[0], b[1], b[2], b[3], b[4], b[5], b[6], b[7], ?_⟩
  ext i hi
  have : i = 0 ∨ i = 1 ∨ i = 2 ∨ i = 3 ∨ i = 4 ∨ i = 5 ∨ i = 6 ∨ i = 7 := by omega
  rcases this with rfl | rfl | rfl | rfl | rfl | rfl | rfl | rfl <;> rfl

@[simp] theorem blocks_join (bs : List Block) : blocks (join bs) = some bs := by
  induction bs with
  | nil => rfl
  | cons b bs ih =>
    obtain ⟨a0, a1, a2, a3, a4, a5, a6, a7, rfl⟩ := exists_toList b
    rw [join_cons]
    show (blocks (join bs)).map _ = _
    rw [ih]
    rfl

/-- **Cutting and laying end to end are inverse.** -/
theorem blocks_eq_some_iff {data : List UInt8} {bs : List Block} :
    blocks data = some bs ↔ data = join bs := by
  constructor
  · intro h
    induction data using blocks.induct generalizing bs with
    | case1 => rw [blocks, Option.some.injEq] at h; subst h; rfl
    | case2 a b c d e f g h' rest ih =>
      rw [blocks, Option.map_eq_some_iff] at h
      obtain ⟨cs, hcs, rfl⟩ := h
      rw [join_cons, ← ih hcs]
      rfl
    | case3 t h1 h2 => rw [blocks] at h <;> first | exact absurd h (by simp) | assumption
  · rintro rfl
    exact blocks_join bs

theorem exists_join_iff (data : List UInt8) :
    (∃ bs, data = join bs) ↔ data.length % 8 = 0 := by
  constructor
  · rintro ⟨bs, rfl⟩
    rw [join_length]
    omega
  · intro h
    induction data using blocks.induct with
    | case1 => exact ⟨[], rfl⟩
    | case2 a b c d e f g h' rest ih =>
      obtain ⟨bs, hbs⟩ := ih (by simp only [List.length_cons] at h; omega)
      exact ⟨#v[a, b, c, d, e, f, g, h'] :: bs, by rw [join_cons, ← hbs]; rfl⟩
    | case3 t h1 h2 =>
      match t, h1, h2 with
      | [], h1, _ => exact absurd rfl h1
      | [_], _, _ | [_, _], _, _ | [_, _, _], _, _ | [_, _, _, _], _, _ => simp at h
      | [_, _, _, _, _], _, _ | [_, _, _, _, _, _], _, _ => simp at h
      | [_, _, _, _, _, _, _], _, _ => simp at h
      | a :: b :: c :: d :: e :: f :: g :: h' :: rest, _, h2 =>
        exact absurd rfl (h2 a b c d e f g h' rest)

/-! ### CBC -/

def xor8 (a b : Block) : Block := Vector.zipWith (· ^^^ ·) a b

@[simp] theorem xor8_xor8 (a b : Block) : xor8 (xor8 a b) b = a := by
  ext i hi
  simp [xor8]

def zeroBlock : Block := Vector.replicate 8 0

/-- DES-CBC encryption under a zero IV; `none` where a short last chunk panics. -/
def cbcEncryptZeroIv (data : List UInt8) (key : Block) : Option (List UInt8) :=
  (blocks data).map fun ps =>
    join (Cipher.cbcEnc xor8 (fun x => desEncrypt x key) zeroBlock ps)

/-- DES-CBC decryption under a zero IV, `none` on misalignment. -/
def cbcDecrypt (data : List UInt8) (key : Block) : Option (List UInt8) :=
  if data.length % 8 ≠ 0 then none
  else (blocks data).map fun cs =>
    join (Cipher.cbcDec xor8 (fun x => desDecrypt x key) zeroBlock cs)

@[simp] theorem cbcDecrypt_join (cs : List Block) (key : Block) :
    cbcDecrypt (join cs) key
      = some (join (Cipher.cbcDec xor8 (fun x => desDecrypt x key) zeroBlock cs)) := by
  have h : ¬ ((join cs).length % 8 ≠ 0) := by rw [join_length]; omega
  rw [cbcDecrypt, if_neg h, blocks_join]
  rfl

@[simp] theorem cbcEncryptZeroIv_join (ps : List Block) (key : Block) :
    cbcEncryptZeroIv (join ps) key
      = some (join (Cipher.cbcEnc xor8 (fun x => desEncrypt x key) zeroBlock ps)) := by
  rw [cbcEncryptZeroIv, blocks_join]
  rfl

/-! ### Round trips and the reach of an error -/

def blockAt (data : List UInt8) (i : ℕ) : List UInt8 := data.extract (8 * i) (8 * i + 8)

def xorBytes (a b : List UInt8) : List UInt8 := List.zipWith (· ^^^ ·) a b

theorem toList_xor8 (a b : Block) : (xor8 a b).toList = xorBytes a.toList b.toList :=
  Vector.toList_zipWith

/-- What is mixed in twice drops out of a difference. -/
theorem xor8_xor8_xor8 (x a b : Block) : xor8 (xor8 x a) (xor8 x b) = xor8 a b := by
  ext i hi
  simp only [xor8, Vector.getElem_zipWith]
  rw [UInt8.xor_comm x[i] a[i], UInt8.xor_assoc, ← UInt8.xor_assoc x[i], UInt8.xor_self,
    UInt8.zero_xor]

theorem blockAt_join (bs : List Block) (i : ℕ) :
    blockAt (join bs) i = (bs[i]?.map Vector.toList).getD [] := by
  by_cases hi : i < bs.length
  · rw [blockAt, extract_join hi, List.getElem?_eq_getElem hi]
    rfl
  · rw [blockAt, List.extract_eq_take_drop, List.drop_eq_nil_of_le (by rw [join_length]; omega),
      List.getElem?_eq_none (Nat.le_of_not_lt hi), List.take_nil]
    rfl

theorem blockAt_join_eq_iff (bs cs : List Block) (i : ℕ) :
    blockAt (join bs) i = blockAt (join cs) i ↔ bs[i]? = cs[i]? := by
  rw [blockAt_join, blockAt_join]
  cases hb : bs[i]? with
  | none =>
    cases hc : cs[i]? with
    | none => simp
    | some c => simp [eq_comm (a := ([] : List UInt8))]
  | some b =>
    cases hc : cs[i]? with
    | none => simp
    | some c => simp [Vector.toList_inj]

theorem cbcDecrypt_eq_none_iff (data : List UInt8) (key : Block) :
    cbcDecrypt data key = none ↔ ¬ 8 ∣ data.length := by
  rw [Nat.dvd_iff_mod_eq_zero]
  constructor
  · intro h h0
    obtain ⟨bs, rfl⟩ := (exists_join_iff data).mpr h0
    rw [cbcDecrypt_join] at h
    exact absurd h (by simp)
  · intro h
    rw [cbcDecrypt, if_pos h]

theorem cbcDecrypt_encrypted {x : List UInt8} (hx : x.length % 8 = 0) (key : Block) :
    ∃ c, cbcEncryptZeroIv x key = some c ∧ c.length = x.length ∧ cbcDecrypt c key = some x := by
  obtain ⟨ps, rfl⟩ := (exists_join_iff x).mpr hx
  refine ⟨_, cbcEncryptZeroIv_join ps key, by simp, ?_⟩
  rw [cbcDecrypt_join, Cipher.cbcDec_cbcEnc xor8_xor8 fun x => desDecrypt_desEncrypt x key]

theorem cbcEncrypt_decrypted {c y : List UInt8} {key : Block} (hy : cbcDecrypt c key = some y) :
    y.length = c.length ∧ cbcEncryptZeroIv y key = some c := by
  have h8 : 8 ∣ c.length := by
    by_contra h
    rw [(cbcDecrypt_eq_none_iff c key).mpr h] at hy
    cases hy
  obtain ⟨cs, rfl⟩ := (exists_join_iff c).mpr (Nat.mod_eq_zero_of_dvd h8)
  rw [cbcDecrypt_join, Option.some.injEq] at hy
  subst hy
  refine ⟨by simp, ?_⟩
  rw [cbcEncryptZeroIv_join, Cipher.cbcEnc_cbcDec xor8_xor8 fun x => desEncrypt_desDecrypt x key]

/-- A changed ciphertext block changes its own plaintext block, moves the next by the
same difference and leaves the rest. -/
theorem cbcDecrypt_change (key : Block) {c c' : List UInt8} {i : ℕ} (h8 : 8 ∣ c.length)
    (hlen : c'.length = c.length) (hi : 8 * i < c.length) (hne : blockAt c' i ≠ blockAt c i)
    (hrest : ∀ j ≠ i, blockAt c' j = blockAt c j) :
    ∃ y y', cbcDecrypt c key = some y ∧ cbcDecrypt c' key = some y'
      ∧ blockAt y' i ≠ blockAt y i
      ∧ (8 * (i + 1) < c.length → xorBytes (blockAt y' (i + 1)) (blockAt y (i + 1))
        = xorBytes (blockAt c' i) (blockAt c i))
      ∧ ∀ j, j ≠ i → j ≠ i + 1 → blockAt y' j = blockAt y j := by
  obtain ⟨cs, rfl⟩ := (exists_join_iff c).mpr (Nat.mod_eq_zero_of_dvd h8)
  obtain ⟨cs', rfl⟩ := (exists_join_iff c').mpr (hlen ▸ Nat.mod_eq_zero_of_dvd h8)
  simp only [join_length, blockAt_join_eq_iff, ne_eq] at hlen hi hne hrest ⊢
  have hd : Function.Injective fun x => desDecrypt x key := fun _ _ h => desDecrypt_inj h
  obtain ⟨hat, hnext, hother⟩ := Cipher.cbcDec_change xor8_xor8 xor8_xor8_xor8 hd zeroBlock
    (by omega) (by omega) hne hrest
  refine ⟨_, _, cbcDecrypt_join cs key, cbcDecrypt_join cs' key, ?_, ?_, ?_⟩
  · rwa [blockAt_join_eq_iff]
  · intro h
    obtain ⟨p, p', b, b', hp, hp', hb, hb', heq⟩ := hnext (by omega)
    simp only [blockAt_join, hp, hp', hb, hb', Option.map_some, Option.getD_some]
    rw [← toList_xor8, ← toList_xor8, heq]
  · intro j hj hj'
    rw [blockAt_join_eq_iff]
    exact hother j hj hj'

/-- **CBC under a zero IV**: encryption and decryption are inverse to each other
at every multiple of eight bytes and keep the length, decryption gives nothing
exactly at the other lengths, and a changed ciphertext block changes its own
plaintext block, moves the next by the same difference and leaves the rest. -/
theorem cbc_inverse (key : Block) :
    (∀ (n : ℕ) (x : List UInt8), x.length = 8 * n →
      ∃ c, cbcEncryptZeroIv x key = some c ∧ c.length = x.length ∧ cbcDecrypt c key = some x)
    ∧ (∀ c y, cbcDecrypt c key = some y → y.length = c.length ∧ cbcEncryptZeroIv y key = some c)
    ∧ (∀ c, cbcDecrypt c key = none ↔ ¬ 8 ∣ c.length)
    ∧ ∀ (c c' : List UInt8) (i : ℕ), 8 ∣ c.length → c'.length = c.length → 8 * i < c.length →
      blockAt c' i ≠ blockAt c i → (∀ j ≠ i, blockAt c' j = blockAt c j) →
      ∃ y y', cbcDecrypt c key = some y ∧ cbcDecrypt c' key = some y'
        ∧ blockAt y' i ≠ blockAt y i
        ∧ (8 * (i + 1) < c.length → xorBytes (blockAt y' (i + 1)) (blockAt y (i + 1))
          = xorBytes (blockAt c' i) (blockAt c i))
        ∧ ∀ j, j ≠ i → j ≠ i + 1 → blockAt y' j = blockAt y j := by
  refine ⟨?_, ?_, fun c => cbcDecrypt_eq_none_iff c key, ?_⟩
  · intro n x hx
    exact cbcDecrypt_encrypted (by omega) key
  · intro c y hy
    exact cbcEncrypt_decrypted hy
  · intro c c' i h8 hlen hi hne hrest
    exact cbcDecrypt_change key h8 hlen hi hne hrest

/-- Two blocks, there and back, and one bit of the first ciphertext block changed. -/
theorem cbc_inverse_twoBlocks :
    let c : List UInt8 := List.replicate 16 0
    let c' : List UInt8 := 1 :: List.replicate 15 0
    (∃ x, cbcEncryptZeroIv c zeroBlock = some x ∧ x.length = 16 ∧ cbcDecrypt x zeroBlock = some c)
      ∧ ∃ y y', cbcDecrypt c zeroBlock = some y ∧ cbcDecrypt c' zeroBlock = some y'
        ∧ cbcEncryptZeroIv y zeroBlock = some c ∧ blockAt y' 0 ≠ blockAt y 0
        ∧ xorBytes (blockAt y' 1) (blockAt y 1) = [1, 0, 0, 0, 0, 0, 0, 0] := by
  intro c c'
  have hrest : ∀ j ≠ 0, blockAt c' j = blockAt c j := by
    intro j hj
    obtain ⟨j, rfl⟩ := Nat.exists_eq_succ_of_ne_zero hj
    rfl
  obtain ⟨y, y', hy, hy', hat, hnext, -⟩ := (cbc_inverse zeroBlock).2.2.2 c c' 0 (by decide)
    (by decide) (by decide) (by decide) hrest
  exact ⟨(cbc_inverse zeroBlock).1 2 c (by decide), y, y', hy, hy',
    ((cbc_inverse zeroBlock).2.1 c y hy).2, hat, hnext (by decide)⟩

/-! ### The command MAC -/

/-- The header block: frame length, command code, six zeros. -/
def macHeader (total code : UInt8) : Block := #v[total, code, 0, 0, 0, 0, 0, 0]

/-- `calculate_command_mac_des`: each payload block is a DES key applied to the
running MAC.  `none` where a short last chunk panics. -/
def commandMac (code : UInt8) (padded : List UInt8) : Option Block :=
  let total := 2 + padded.length + 8
  (blocks padded).map fun bs => bs.foldl desEncrypt (macHeader (UInt8.ofNat total) code)

@[simp] theorem commandMac_join (code : UInt8) (bs : List Block) :
    commandMac code (join bs)
      = some (bs.foldl desEncrypt (macHeader (UInt8.ofNat (2 + 8 * bs.length + 8)) code)) := by
  rw [commandMac, blocks_join, join_length]
  rfl

/-! ### Four blocks -/

/-- The four places can be written as numerals. -/
instance neZero4 : NeZero 4 := ⟨by decide⟩

def blocks4 (v : Vector UInt8 32) : List Block :=
  [@chunk UInt8 4 8 v 0, @chunk UInt8 4 8 v 1, @chunk UInt8 4 8 v 2, @chunk UInt8 4 8 v 3]

theorem join_blocks4 (v : Vector UInt8 32) : join (blocks4 v) = v.toList := by
  apply List.ext_getElem (by simp [blocks4])
  intro i h1 h2
  have hi : i < 32 := by simpa using h2
  simp only [blocks4, join_cons, join_nil, List.append_nil, List.getElem_append,
    Vector.length_toList, Vector.getElem_toList, getElem_chunk]
  split
  · simp
  · split
    · have : 8 + (i - 8) = i := by omega
      simp [this]
    · split
      · have : 2 * 8 + (i - 8 - 8) = i := by omega
        simp only [Fin.val_two, this]
      · have : 3 * 8 + (i - 8 - 8 - 8) = i := by omega
        simp only [show ((3 : Fin 4) : ℕ) = 3 from rfl, this]

end SuiCash.Des
