import SuiCash.Lib.Bytes
import SuiCash.Lib.Crc

/-!
# The check bytes of NFC-A and NFC-B

`usb-poc/vendor/felica/src/clf/crc.rs`.  Both checks are one register that has to end at one
value, whatever the data (`checkCrcA_iff`, `checkCrcB_iff`), so an error burst of up to
sixteen bits is found (`crc_detects`).
-/

namespace SuiCash.Reader

open Bytes

def CRC_POLYNOMIAL : UInt16 := 0x8408

def CRC_A_INIT : UInt16 := 0x6363

def CRC_B_INIT : UInt16 := 0xFFFF

/-- One bit of an octet into the register. -/
def crcStep (octet : UInt8) (reg : UInt16) (pos : ℕ) : UInt16 :=
  let bit := (reg ^^^ ((octet >>> pos.toUInt8).toUInt16 &&& 1)) &&& 1
  let reg := reg >>> 1
  if bit ≠ 0 then reg ^^^ CRC_POLYNOMIAL else reg

def calculateCrc (data : List UInt8) (size : ℕ) (reg : UInt16) : UInt16 :=
  (data.take size).foldl (fun reg octet => (List.range 8).foldl (crcStep octet) reg) reg

/-- The check bytes, low byte first. -/
def crcBytes (crc : UInt16) : List UInt8 := [(crc &&& 0x00FF).toUInt8, (crc >>> 8).toUInt8]

def verifyCrc (data : List UInt8) (crc : UInt16) : Bool :=
  if data.length < 2 then false
  else data[data.length - 2]? == some (crc &&& 0x00FF).toUInt8
    && data[data.length - 1]? == some (crc >>> 8).toUInt8

def addCrcA (data : List UInt8) : List UInt8 :=
  data ++ crcBytes (calculateCrc data data.length CRC_A_INIT)

def checkCrcA (data : List UInt8) : Bool :=
  if data.length < 2 then false
  else verifyCrc data (calculateCrc data (data.length - 2) CRC_A_INIT)

def addCrcB (data : List UInt8) : List UInt8 :=
  data ++ crcBytes (~~~ calculateCrc data data.length CRC_B_INIT)

def checkCrcB (data : List UInt8) : Bool :=
  if data.length < 2 then false
  else verifyCrc data (~~~ calculateCrc data (data.length - 2) CRC_B_INIT)

/-! ### The register -/

def octetBits (octet : UInt8) : List Bool := (List.range 8).map (bit octet)

def crcBits (data : List UInt8) : List Bool := data.flatMap octetBits

theorem and_one_ne_zero_iff (w : UInt16) : w &&& 1 ≠ 0 ↔ w.toBitVec.getLsbD 0 = true := by
  rw [← UInt16.toNat_inj.ne, UInt16.toNat_and, UInt16.toNat_one, Nat.and_one_is_mod,
    UInt16.toNat_zero, BitVec.getLsbD, UInt16.toNat_toBitVec, Nat.testBit_zero, decide_eq_true_iff]
  omega

theorem octet_getLsbD (octet : UInt8) (pos : ℕ) :
    ((octet >>> pos.toUInt8).toUInt16 &&& 1).toBitVec.getLsbD 0 = bit octet pos := by
  rw [Bool.eq_iff_iff, ← and_one_ne_zero_iff, bit, beq_iff_eq, ← UInt8.toNat_inj,
    ← UInt16.toNat_inj.ne, UInt16.toNat_and, UInt16.toNat_and, UInt16.toNat_one, UInt8.toNat_and,
    UInt8.toNat_toUInt16, UInt8.toNat_one, UInt16.toNat_zero, Nat.and_one_is_mod,
    Nat.and_one_is_mod]
  omega

theorem crcStep_toBitVec (octet : UInt8) (reg : UInt16) (pos : ℕ) :
    (crcStep octet reg pos).toBitVec
      = Crc.step CRC_POLYNOMIAL.toBitVec reg.toBitVec (bit octet pos) := by
  have hbit : (reg ^^^ ((octet >>> pos.toUInt8).toUInt16 &&& 1)) &&& 1 ≠ 0
      ↔ (reg.toBitVec.getLsbD 0 ^^ bit octet pos) = true := by
    rw [and_one_ne_zero_iff, UInt16.toBitVec_xor, BitVec.getLsbD_xor, octet_getLsbD]
  have hshift : (reg >>> 1).toBitVec = reg.toBitVec >>> 1 := by
    rw [UInt16.toBitVec_shiftRight]
    rfl
  show (if (reg ^^^ ((octet >>> pos.toUInt8).toUInt16 &&& 1)) &&& 1 ≠ 0 then
    (reg >>> 1) ^^^ CRC_POLYNOMIAL else reg >>> 1).toBitVec = _
  rw [Crc.step]
  by_cases h : (reg.toBitVec.getLsbD 0 ^^ bit octet pos) = true
  · rw [if_pos (hbit.mpr h), if_pos h, UInt16.toBitVec_xor, hshift]
  · rw [if_neg (hbit.not.mpr h), if_neg h, hshift]

theorem calculateCrc_toBitVec (data : List UInt8) (size : ℕ) (reg : UInt16) :
    (calculateCrc data size reg).toBitVec
      = Crc.feed CRC_POLYNOMIAL.toBitVec reg.toBitVec (crcBits (data.take size)) := by
  have hoctet : ∀ (octet : UInt8) (places : List ℕ) (reg : UInt16),
      (places.foldl (crcStep octet) reg).toBitVec
        = Crc.feed CRC_POLYNOMIAL.toBitVec reg.toBitVec (places.map (bit octet)) := by
    intro octet places
    induction places with
    | nil => exact fun _ => rfl
    | cons pos places ih =>
      intro reg
      rw [List.foldl_cons, ih, crcStep_toBitVec, List.map_cons, Crc.feed_cons]
  rw [calculateCrc]
  induction data.take size generalizing reg with
  | nil => rfl
  | cons octet octets ih =>
    have hbits : crcBits (octet :: octets) = octetBits octet ++ crcBits octets := rfl
    rw [List.foldl_cons, ih, hoctet, hbits, Crc.feed_append]
    rfl

/-! ### The check -/

theorem length_octetBits (octet : UInt8) : (octetBits octet).length = 8 := by
  rw [octetBits, List.length_map, List.length_range]

theorem octetBits_injective {a b : UInt8} (h : octetBits a = octetBits b) : a = b := by
  refine eq_of_bit fun j hj => ?_
  have hget := congrArg (fun bits => bits[j]?) h
  simpa [octetBits, List.getElem?_map, List.getElem?_range hj] using hget

theorem crcBits_append (s t : List UInt8) : crcBits (s ++ t) = crcBits s ++ crcBits t :=
  List.flatMap_append

theorem length_crcBits (data : List UInt8) : (crcBits data).length = 8 * data.length := by
  induction data with
  | nil => rfl
  | cons octet data ih =>
    rw [crcBits, List.flatMap_cons, List.length_append, length_octetBits, List.length_cons,
      Nat.mul_succ, Nat.add_comm]
    exact congrArg (· + 8) ih

theorem crcBits_injective {s t : List UInt8} (hlen : s.length = t.length)
    (h : crcBits s = crcBits t) : s = t := by
  induction s generalizing t with
  | nil => exact (List.length_eq_zero_iff.mp hlen.symm).symm
  | cons a s ih =>
    cases t with
    | nil => cases hlen
    | cons b t =>
      obtain ⟨hab, hst⟩ := List.append_inj h ((length_octetBits a).trans (length_octetBits b).symm)
      rw [octetBits_injective hab, ih (Nat.succ.inj hlen) hst]

theorem getD_octetBits (octet : UInt8) {i : ℕ} (hi : i < 8) :
    (octetBits octet).getD i false = octet.toNat.testBit i := by
  rw [List.getD_eq_getElem?_getD, octetBits, List.getElem?_map, List.getElem?_range hi,
    ← bit_eq_testBit octet hi]
  rfl

theorem getLsbD_crcBytes (crc : UInt16) (i : ℕ) :
    crc.toBitVec.getLsbD i = (crcBits (crcBytes crc)).getD i false := by
  have hbits : crcBits (crcBytes crc)
      = octetBits (crc &&& 0x00FF).toUInt8 ++ octetBits (crc >>> 8).toUInt8 := rfl
  have hlow : (crc &&& 0x00FF).toUInt8.toNat = crc.toNat % 256 := by
    rw [UInt16.toNat_toUInt8, UInt16.toNat_and, show UInt16.toNat 0x00FF = 2 ^ 8 - 1 from rfl,
      Nat.and_two_pow_sub_one_eq_mod, Nat.mod_mod]
  have hhigh : (crc >>> 8).toUInt8.toNat = crc.toNat / 256 := by
    have hlt := crc.toNat_lt
    rw [UInt16.toNat_toUInt8, UInt16.toNat_shiftRight, show UInt16.toNat 8 % 16 = 8 from rfl,
      Nat.shiftRight_eq_div_pow]
    omega
  rw [hbits, List.getD_eq_getElem?_getD, BitVec.getLsbD, UInt16.toNat_toBitVec]
  by_cases hi : i < 8
  · rw [List.getElem?_append_left (by rwa [length_octetBits]), ← List.getD_eq_getElem?_getD,
      getD_octetBits _ hi, hlow, show 256 = 2 ^ 8 from rfl, Nat.testBit_mod_two_pow]
    simp [hi]
  · rw [List.getElem?_append_right (by rw [length_octetBits]; omega), length_octetBits,
      ← List.getD_eq_getElem?_getD]
    by_cases hi' : i - 8 < 8
    · rw [getD_octetBits _ hi', hhigh, show 256 = 2 ^ 8 from rfl, Nat.testBit_div_two_pow,
        show i - 8 + 8 = i by omega]
    · rw [List.getD_eq_getElem?_getD, List.getElem?_eq_none (by rw [length_octetBits]; omega)]
      have hpow : (2 : ℕ) ^ 16 ≤ 2 ^ i := Nat.pow_le_pow_right (by decide) (by omega)
      exact Nat.testBit_lt_two_pow (lt_of_lt_of_le crc.toNat_lt hpow)

theorem polynomial_msb : CRC_POLYNOMIAL.toBitVec.msb = true := by decide

/-- Two bytes drive the register to zero if they are its check bytes, and no others do. -/
theorem feed_check_iff {crc : UInt16} {check : List UInt8} (hlen : check.length = 2) :
    Crc.feed CRC_POLYNOMIAL.toBitVec crc.toBitVec (crcBits check) = 0#16
      ↔ check = crcBytes crc := by
  constructor
  · intro h
    have hbits := Crc.getLsbD_of_feed_eq_zero polynomial_msb
      (by rw [length_crcBits, hlen]) h
    have hlength : (crcBits check).length = (crcBits (crcBytes crc)).length := by
      rw [length_crcBits, length_crcBits, hlen]
      rfl
    refine crcBits_injective hlen (List.ext_getElem hlength fun i h1 h2 => ?_)
    have hget : (crcBits check).getD i false = (crcBits (crcBytes crc)).getD i false := by
      rw [← hbits i, getLsbD_crcBytes]
    rwa [List.getD_eq_getElem?_getD, List.getD_eq_getElem?_getD, List.getElem?_eq_getElem h1,
      List.getElem?_eq_getElem h2] at hget
  · rintro rfl
    exact Crc.feed_eq_zero_of_getLsbD (getLsbD_crcBytes crc)

theorem verifyCrc_iff {body check : List UInt8} (hlen : check.length = 2) {crc : UInt16} :
    verifyCrc (body ++ check) crc = true ↔ check = crcBytes crc := by
  obtain ⟨lo, hi, rfl⟩ := List.length_eq_two.mp hlen
  have hlength : (body ++ [lo, hi]).length = body.length + 2 := by simp
  have hlo : (body ++ [lo, hi])[(body ++ [lo, hi]).length - 2]? = some lo := by
    rw [hlength, Nat.add_sub_cancel, List.getElem?_append_right (le_refl _), Nat.sub_self]
    rfl
  have hhi : (body ++ [lo, hi])[(body ++ [lo, hi]).length - 1]? = some hi := by
    rw [hlength, List.getElem?_append_right (by omega),
      show body.length + 2 - 1 - body.length = 1 by omega]
    rfl
  rw [verifyCrc, if_neg (by rw [hlength]; omega), hlo, hhi]
  simp [crcBytes]

theorem eq_body_append_check {data : List UInt8} (h : 2 ≤ data.length) :
    ∃ body check, check.length = 2 ∧ body.length = data.length - 2 ∧ data = body ++ check :=
  ⟨data.take (data.length - 2), data.drop (data.length - 2), by rw [List.length_drop]; omega,
    List.length_take_of_le (Nat.sub_le _ _), (List.take_append_drop _ _).symm⟩

/-- **The check of NFC-A** is a register that ends at zero. -/
theorem checkCrcA_iff {data : List UInt8} :
    checkCrcA data = true ↔ 2 ≤ data.length
      ∧ Crc.feed CRC_POLYNOMIAL.toBitVec CRC_A_INIT.toBitVec (crcBits data) = 0#16 := by
  rw [checkCrcA]
  by_cases hlen : data.length < 2
  · rw [if_pos hlen]
    exact iff_of_false (by simp) fun h => absurd h.1 (Nat.not_le.mpr hlen)
  · rw [if_neg hlen]
    obtain ⟨body, check, hcheck, hbody, rfl⟩ := eq_body_append_check (Nat.le_of_not_lt hlen)
    rw [verifyCrc_iff hcheck, crcBits_append, Crc.feed_append, ← hbody,
      ← feed_check_iff hcheck, calculateCrc_toBitVec, List.take_left' rfl]
    exact (and_iff_right (Nat.le_of_not_lt hlen)).symm

/-- What sixteen ones leave in the register. -/
def CRC_B_RESIDUE : BitVec 16 :=
  Crc.feed CRC_POLYNOMIAL.toBitVec (BitVec.allOnes 16) (List.replicate 16 false)

/-- **The check of NFC-B** is a register that ends at one value. -/
theorem checkCrcB_iff {data : List UInt8} :
    checkCrcB data = true ↔ 2 ≤ data.length
      ∧ Crc.feed CRC_POLYNOMIAL.toBitVec CRC_B_INIT.toBitVec (crcBits data) = CRC_B_RESIDUE := by
  rw [checkCrcB]
  by_cases hlen : data.length < 2
  · rw [if_pos hlen]
    exact iff_of_false (by simp) fun h => absurd h.1 (Nat.not_le.mpr hlen)
  · rw [if_neg hlen]
    obtain ⟨body, check, hcheck, hbody, rfl⟩ := eq_body_append_check (Nat.le_of_not_lt hlen)
    rw [verifyCrc_iff hcheck, crcBits_append, Crc.feed_append, ← hbody, ← feed_check_iff hcheck,
      UInt16.toBitVec_not, calculateCrc_toBitVec, List.take_left' rfl]
    generalize Crc.feed CRC_POLYNOMIAL.toBitVec CRC_B_INIT.toBitVec (crcBits body) = reg
    -- the complement is a sum with sixteen ones, and the register is linear
    have hbits : (crcBits check).length = (List.replicate 16 false).length := by
      rw [length_crcBits, hcheck]
      rfl
    have hsame : List.zipWith xor (crcBits check) (List.replicate 16 false) = crcBits check := by
      refine List.ext_getElem (by rw [List.length_zipWith, ← hbits, Nat.min_self]) fun i _ _ => ?_
      rw [List.getElem_zipWith, List.getElem_replicate, Bool.xor_false]
    have hlinear := Crc.feed_xor CRC_POLYNOMIAL.toBitVec reg (BitVec.allOnes 16) hbits
    rw [hsame, BitVec.xor_allOnes] at hlinear
    rw [hlinear, CRC_B_RESIDUE, and_iff_right (Nat.le_of_not_lt hlen)]
    constructor
    · exact Crc.eq_of_xor_eq_zero
    · intro h
      rw [h, BitVec.xor_self]

theorem check_add (data : List UInt8) :
    checkCrcA (addCrcA data) = true ∧ checkCrcB (addCrcB data) = true := by
  have hlen : ∀ check : List UInt8, check.length = 2 → ¬ (data ++ check).length < 2 := by
    intro check h
    rw [List.length_append, h]
    omega
  have hbody : ∀ check : List UInt8, check.length = 2 → (data ++ check).length - 2 = data.length := by
    intro check h
    rw [List.length_append, h, Nat.add_sub_cancel]
  have hsize : ∀ (check : List UInt8) (reg : UInt16),
      calculateCrc (data ++ check) data.length reg = calculateCrc data data.length reg := by
    intro check reg
    rw [calculateCrc, calculateCrc, List.take_left' rfl, List.take_length]
  constructor
  · rw [checkCrcA, addCrcA, if_neg (hlen _ rfl), hbody _ rfl, hsize]
    exact (verifyCrc_iff rfl).mpr rfl
  · rw [checkCrcB, addCrcB, if_neg (hlen _ rfl), hbody _ rfl, hsize]
    exact (verifyCrc_iff rfl).mpr rfl

/-- Two strings that both pass a check and differ only within sixteen consecutive bits are
the same. -/
theorem eq_of_checked {data data' : List UInt8} (hlen : data.length = data'.length)
    (hcheck : (checkCrcA data = true ∧ checkCrcA data' = true)
      ∨ (checkCrcB data = true ∧ checkCrcB data' = true))
    {k : ℕ} (hburst : ∀ i, i < k ∨ k + 16 ≤ i → (crcBits data)[i]? = (crcBits data')[i]?) :
    data = data' := by
  have hreg : ∃ init : BitVec 16, Crc.feed CRC_POLYNOMIAL.toBitVec init (crcBits data)
      = Crc.feed CRC_POLYNOMIAL.toBitVec init (crcBits data') := by
    rcases hcheck with ⟨h, h'⟩ | ⟨h, h'⟩
    · exact ⟨_, (checkCrcA_iff.mp h).2.trans (checkCrcA_iff.mp h').2.symm⟩
    · exact ⟨_, (checkCrcB_iff.mp h).2.trans (checkCrcB_iff.mp h').2.symm⟩
  obtain ⟨init, hreg⟩ := hreg
  have hbits : (crcBits data).length = (crcBits data').length := by
    rw [length_crcBits, length_crcBits, hlen]
  have hsplit : ∀ bits : List Bool,
      bits = bits.take k ++ ((bits.drop k).take 16 ++ bits.drop (k + 16)) := by
    intro bits
    rw [← List.drop_drop, List.take_append_drop, List.take_append_drop]
  have hbefore : (crcBits data).take k = (crcBits data').take k := by
    refine List.ext_getElem? fun i => ?_
    rw [List.getElem?_take, List.getElem?_take]
    split
    · exact hburst i (.inl ‹_›)
    · rfl
  have hbehind : (crcBits data).drop (k + 16) = (crcBits data').drop (k + 16) := by
    refine List.ext_getElem? fun i => ?_
    rw [List.getElem?_drop, List.getElem?_drop]
    exact hburst _ (.inr (Nat.le_add_right _ _))
  rw [hsplit (crcBits data), hsplit (crcBits data'), hbefore, hbehind] at hreg
  have hmid := Crc.burst_detected polynomial_msb
    (by rw [List.length_take, List.length_take, List.length_drop, List.length_drop, hbits])
    (List.length_take_le _ _) hreg
  refine crcBits_injective hlen ?_
  rw [hsplit (crcBits data), hsplit (crcBits data'), hbefore, hmid, hbehind]

/-- **An error burst of sixteen bits is found**: what passes a check fails it, in either type,
once it is changed within sixteen consecutive bits. -/
theorem crc_detects {data data' : List UInt8} (hlen : data.length = data'.length)
    (hne : data ≠ data') {k : ℕ}
    (hburst : ∀ i, i < k ∨ k + 16 ≤ i → (crcBits data)[i]? = (crcBits data')[i]?) :
    (checkCrcA data = true → checkCrcA data' = false)
      ∧ (checkCrcB data = true → checkCrcB data' = false) := by
  refine ⟨fun h => Bool.eq_false_iff.mpr fun h' => ?_, fun h => Bool.eq_false_iff.mpr fun h' => ?_⟩
  · exact hne (eq_of_checked hlen (.inl ⟨h, h'⟩) hburst)
  · exact hne (eq_of_checked hlen (.inr ⟨h, h'⟩) hburst)

theorem crc_detects_sleep :
    checkCrcA [0x50, 0x00, 0x57, 0xCD] = true ∧ checkCrcA [0xAF, 0xFF, 0x57, 0xCD] = false := by
  have hsleep : checkCrcA [0x50, 0x00, 0x57, 0xCD] = true := by decide +kernel
  have hlen : [0x50, 0x00, 0x57, 0xCD].length = ([0xAF, 0xFF, 0x57, 0xCD] : List UInt8).length := rfl
  have hne : ([0x50, 0x00, 0x57, 0xCD] : List UInt8) ≠ [0xAF, 0xFF, 0x57, 0xCD] := by decide
  refine ⟨hsleep, (crc_detects hlen hne (k := 0) ?_).1 hsleep⟩
  intro i hi
  have hbehind : ∀ a b, (crcBits ([a, b] ++ [0x57, 0xCD]))[i]? = (crcBits [0x57, 0xCD])[i - 16]? := by
    intro a b
    rw [crcBits_append, List.getElem?_append_right (by rw [length_crcBits]; simpa using hi),
      length_crcBits]
    rfl
  exact (hbehind 0x50 0x00).trans (hbehind 0xAF 0xFF).symm

end SuiCash.Reader
