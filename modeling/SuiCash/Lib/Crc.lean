import Mathlib.Data.BitVec

/-!
# Cyclic redundancy checks

A register of `w` bits that shifts its lowest bit out and adds a polynomial where that bit
and the next one of the data differ.  The step is linear, and invertible where the
polynomial has the top bit, so what is fed to a register can be read back from it, `w` bits
of it (`getLsbD_of_feed_eq_zero`); a difference of no more than `w` bits leaves a
difference in the register (`burst_detected`).
-/

namespace Crc

variable {w : ℕ} (poly : BitVec w)

def step (reg : BitVec w) (bit : Bool) : BitVec w :=
  if reg.getLsbD 0 ^^ bit then (reg >>> 1) ^^^ poly else reg >>> 1

def feed (reg : BitVec w) (bits : List Bool) : BitVec w := bits.foldl (step poly) reg

@[simp] theorem feed_nil (reg : BitVec w) : feed poly reg [] = reg := rfl

@[simp] theorem feed_cons (reg : BitVec w) (bit : Bool) (bits : List Bool) :
    feed poly reg (bit :: bits) = feed poly (step poly reg bit) bits := rfl

theorem feed_append (reg : BitVec w) (s t : List Bool) :
    feed poly reg (s ++ t) = feed poly (feed poly reg s) t :=
  List.foldl_append

def addend (bit : Bool) : BitVec w := if bit then poly else 0#w

theorem step_eq (reg : BitVec w) (bit : Bool) :
    step poly reg bit = (reg >>> 1) ^^^ addend poly (reg.getLsbD 0 ^^ bit) := by
  rw [step, addend]
  split
  · rfl
  · rw [BitVec.xor_zero]

theorem addend_xor (x y : Bool) :
    addend poly (x ^^ y) = addend poly x ^^^ addend poly y := by
  cases x <;> cases y <;> simp [addend]

theorem step_xor (a b : BitVec w) (x y : Bool) :
    step poly (a ^^^ b) (x ^^ y) = step poly a x ^^^ step poly b y := by
  simp only [step_eq, BitVec.getLsbD_xor, BitVec.ushiftRight_xor_distrib, addend_xor]
  ac_rfl

/-- The register is linear in its start and in the bits. -/
theorem feed_xor (a b : BitVec w) {s t : List Bool} (h : s.length = t.length) :
    feed poly (a ^^^ b) (List.zipWith xor s t) = feed poly a s ^^^ feed poly b t := by
  induction s generalizing a b t with
  | nil =>
    cases List.length_eq_zero_iff.mp h.symm
    rfl
  | cons x s ih =>
    cases t with
    | nil => cases h
    | cons y t =>
      rw [List.zipWith_cons_cons, feed_cons, feed_cons, feed_cons, step_xor,
        ih _ _ (Nat.succ.inj h)]

variable {poly}

/-- **What was fed to a register that ends at zero** is what the register held. -/
theorem getLsbD_of_feed_eq_zero (hpoly : poly.msb = true) {bits : List Bool}
    (hlen : bits.length ≤ w) {reg : BitVec w} (h : feed poly reg bits = 0#w) (i : ℕ) :
    reg.getLsbD i = bits.getD i false := by
  induction bits generalizing reg i with
  | nil =>
    cases h
    simp
  | cons bit bits ih =>
    have hnext := ih (Nat.le_of_succ_le hlen) h
    have hw : 0 < w := lt_of_lt_of_le (Nat.succ_pos _) hlen
    have htop : (step poly reg bit).getLsbD (w - 1) = false := by
      rw [hnext, List.getD_eq_getElem?_getD, List.getElem?_eq_none (Nat.le_sub_one_of_lt hlen)]
      rfl
    have hsame : reg.getLsbD 0 = bit := by
      by_contra hdiff
      have hxor : (reg.getLsbD 0 ^^ bit) = true := by simpa using hdiff
      rw [step, if_pos hxor, BitVec.getLsbD_xor, BitVec.getLsbD_ushiftRight,
        BitVec.getLsbD_of_ge reg _ (by omega), ← BitVec.msb_eq_getLsbD_last, hpoly] at htop
      cases htop
    have hshift : step poly reg bit = reg >>> 1 := by
      rw [step, hsame, Bool.xor_self]
      rfl
    cases i with
    | zero => exact hsame
    | succ i =>
      have hbit := hnext i
      rw [hshift, BitVec.getLsbD_ushiftRight, Nat.add_comm] at hbit
      rw [hbit, List.getD_cons_succ]

theorem feed_eq_zero_of_getLsbD {bits : List Bool} {reg : BitVec w}
    (h : ∀ i, reg.getLsbD i = bits.getD i false) : feed poly reg bits = 0#w := by
  induction bits generalizing reg with
  | nil => exact BitVec.eq_of_getLsbD_eq fun i _ => by simpa using h i
  | cons bit bits ih =>
    have hshift : step poly reg bit = reg >>> 1 := by
      rw [step, show reg.getLsbD 0 = bit from h 0, Bool.xor_self]
      rfl
    rw [feed_cons, hshift]
    refine ih fun i => ?_
    rw [BitVec.getLsbD_ushiftRight, Nat.add_comm, h (i + 1), List.getD_cons_succ]

theorem eq_of_xor_eq_zero {a b : BitVec w} (h : a ^^^ b = 0#w) : a = b := by
  rw [← BitVec.xor_zero (x := a), ← BitVec.xor_self (x := b), ← BitVec.xor_assoc, h,
    BitVec.zero_xor]

theorem step_injective (hpoly : poly.msb = true) (bit : Bool) {a b : BitVec w}
    (h : step poly a bit = step poly b bit) : a = b := by
  by_cases hw : w = 0
  · subst hw
    exact Subsingleton.elim a b
  · have hzero : feed poly (a ^^^ b) [false] = 0#w := by
      rw [feed_cons, feed_nil, show false = (bit ^^ bit) from (Bool.xor_self bit).symm, step_xor, h,
        BitVec.xor_self]
    have hone : [false].length ≤ w := Nat.pos_of_ne_zero hw
    refine eq_of_xor_eq_zero (BitVec.eq_of_getLsbD_eq fun i _ => ?_)
    rw [getLsbD_of_feed_eq_zero hpoly hone hzero]
    cases i <;> simp

theorem feed_injective (hpoly : poly.msb = true) {bits : List Bool} {a b : BitVec w}
    (h : feed poly a bits = feed poly b bits) : a = b := by
  induction bits generalizing a b with
  | nil => exact h
  | cons bit bits ih => exact step_injective hpoly bit (ih h)

/-- **A difference that fits the register is detected.** -/
theorem burst_detected (hpoly : poly.msb = true) {reg : BitVec w} {before s t behind : List Bool}
    (hlen : s.length = t.length) (hw : s.length ≤ w)
    (h : feed poly reg (before ++ (s ++ behind)) = feed poly reg (before ++ (t ++ behind))) :
    s = t := by
  rw [feed_append, feed_append, feed_append poly reg before (t ++ behind),
    feed_append poly (feed poly reg before) t] at h
  have hmid := feed_injective hpoly h
  have hzero : feed poly 0#w (List.zipWith xor s t) = 0#w := by
    have hlinear := feed_xor poly (feed poly reg before) (feed poly reg before) hlen
    rwa [BitVec.xor_self, hmid, BitVec.xor_self] at hlinear
  have hwindow : (List.zipWith xor s t).length ≤ w := by
    rw [List.length_zipWith, ← hlen, Nat.min_self]
    exact hw
  refine List.ext_getElem hlen fun i hs ht => ?_
  have hbit := getLsbD_of_feed_eq_zero hpoly hwindow hzero i
  have hi : i < (List.zipWith xor s t).length := by
    rw [List.length_zipWith]
    exact Nat.lt_min.mpr ⟨hs, ht⟩
  rw [BitVec.getLsbD_zero, List.getD_eq_getElem?_getD, List.getElem?_eq_getElem hi,
    Option.getD_some, List.getElem_zipWith] at hbit
  simpa using hbit.symm

end Crc
