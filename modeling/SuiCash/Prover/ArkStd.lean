import SuiCash.Prover.Std
import Mathlib.Tactic.Ring
import Mathlib.Tactic.LinearCombination

/-!
# A lawful gadget library

`arkStd` does what `ark-r1cs-std` documents: a variable is a constant or a linear
combination with the value its author gave it, `xor` of two variables allocates
one witness `c` with `2 a * b = a + b - c`, a product of two variables allocates
one witness, and equality is one linear constraint.  `arkStd_lawful` says it has
every property the circuit relies on, so those properties can be met together.
-/

namespace SuiCash.Prover

open R1cs R1cs.Synth Bytes

inductive ArkBoolean where
  | constant (v : Bool)
  | var (value : Bool) (lc : LinComb Fr)

inductive ArkFp where
  | constant (v : Fr)
  | var (value : Fr) (lc : LinComb Fr)

namespace ArkBoolean

def lc : ArkBoolean → LinComb Fr
  | constant v => [(bitFr v, .one)]
  | var _ lc => lc

def value : ArkBoolean → Bool
  | constant v => v
  | var v _ => v

def isConstant : ArkBoolean → Bool
  | constant _ => true
  | var _ _ => false

def not : ArkBoolean → ArkBoolean
  | constant v => constant !v
  | var v lc => var (!v) ((1, .one) :: LinComb.scale (-1) lc)

def newWitness (v : Bool) : Synthesis ArkBoolean := do
  let x ← allocWitness (bitFr v)
  enforce ⟨[(1, .one), (-1, x)], [(1, x)], []⟩
  pure (var v [(1, x)])

def xor : ArkBoolean → ArkBoolean → Synthesis ArkBoolean
  | constant false, b => pure b
  | constant true, b => pure b.not
  | a, constant false => pure a
  | a, constant true => pure a.not
  | var u a, var v b => do
    let c ← allocWitness (bitFr (u ^^ v))
    enforce ⟨LinComb.scale 2 a, b, a ++ b ++ [(-1, c)]⟩
    pure (var (u ^^ v) [(1, c)])

def enforceEqual : ArkBoolean → ArkBoolean → Synthesis Unit
  | constant u, constant v => if u = v then pure () else fail .assignmentMissing
  | a, b => enforce ⟨a.lc ++ LinComb.scale (-1) b.lc, [(1, .one)], []⟩

def lcOfBits : List ArkBoolean → LinComb Fr
  | [] => []
  | b :: bs => b.lc ++ LinComb.scale 2 (lcOfBits bs)

/-- From 254 bits on the library also compares with the modulus; the circuit
never gets there. -/
def leBitsToFp (bits : List ArkBoolean) : Synthesis ArkFp :=
  let v : Fr := ofBits (bits.map value)
  if bits.all isConstant then pure (.constant v)
  else if bits.length < 254 then pure (.var v (lcOfBits bits))
  else fail .panic

end ArkBoolean

namespace ArkFp

def lc : ArkFp → LinComb Fr
  | constant v => [(v, .one)]
  | var _ lc => lc

def value : ArkFp → Fr
  | constant v => v
  | var v _ => v

def isConstant : ArkFp → Bool
  | constant _ => true
  | var _ _ => false

def newInput (v : Fr) : Synthesis ArkFp := do
  let x ← allocInstance v
  pure (var v [(1, x)])

def mul : ArkFp → ArkFp → Synthesis ArkFp
  | constant u, constant v => pure (constant (u * v))
  | constant u, var v b => pure (var (u * v) (LinComb.scale u b))
  | var u a, constant v => pure (var (u * v) (LinComb.scale v a))
  | var u a, var v b => do
    let c ← allocWitness (u * v)
    enforce ⟨a, b, [(1, c)]⟩
    pure (var (u * v) [(1, c)])

def addConstant : ArkFp → Fr → ArkFp
  | constant u, c => constant (u + c)
  | var u a, c => var (u + c) (a ++ [(c, .one)])

def enforceEqual : ArkFp → ArkFp → Synthesis Unit
  | constant u, constant v => if u = v then pure () else fail .assignmentMissing
  | a, b => enforce ⟨a.lc ++ LinComb.scale (-1) b.lc, [(1, .one)], []⟩

end ArkFp

/-- The library as the circuit sees it. -/
def arkStd : R1csStd where
  Boolean := ArkBoolean
  FpVar := ArkFp
  bool b w := b.lc.eval w
  fp x w := x.lc.eval w
  value := ArkBoolean.value
  fpValue := ArkFp.value
  isConstant := ArkBoolean.isConstant
  fpIsConstant := ArkFp.isConstant
  constant := .constant
  newWitness := ArkBoolean.newWitness
  xor := ArkBoolean.xor
  enforceEqual := ArkBoolean.enforceEqual
  leBitsToFp := ArkBoolean.leBitsToFp
  fpConstant := .constant
  newInput := ArkFp.newInput
  mul := ArkFp.mul
  addConstant := ArkFp.addConstant
  fpEnforceEqual := ArkFp.enforceEqual

/-! ### The laws -/

section Laws

variable {mode : Mode} {w : Assignment Fr}

theorem holds_difference {a b : LinComb Fr} :
    Constraint.Holds ⟨a ++ LinComb.scale (-1) b, [(1, .one)], []⟩ w ↔ a.eval w = b.eval w := by
  simp only [Constraint.Holds, LinComb.eval_append, LinComb.eval_scale, LinComb.eval_cons,
    LinComb.eval_nil, Assignment.value]
  rw [← sub_eq_zero (a := a.eval w)]
  constructor
  · intro h; linear_combination h
  · intro h; linear_combination h

theorem reads_not {b : ArkBoolean} {v : Bool} (h : arkStd.Reads mode w b v) :
    arkStd.Reads mode w b.not !v := by
  obtain ⟨hb, hv⟩ := h
  cases b with
  | constant u =>
    have huv : u = v := bitFr_inj (by simpa [arkStd, ArkBoolean.lc, Assignment.value] using hb)
    subst huv
    exact ⟨by simp [arkStd, ArkBoolean.not, ArkBoolean.lc, Assignment.value], fun _ => rfl⟩
  | var u lc =>
    have hlc : lc.eval w = bitFr v := hb
    refine ⟨?_, fun hm => congrArg (!·) (hv hm)⟩
    show LinComb.eval ((1, .one) :: LinComb.scale (-1) lc) w = _
    rw [LinComb.eval_cons, LinComb.eval_scale, hlc]
    cases v <;> simp [bitFr, Assignment.value]

/-- The constraint of `xor` determines the third bit. -/
theorem holds_xor {a b c : Fr} {u v : Bool} (ha : a = bitFr u) (hb : b = bitFr v) :
    2 * a * b = a + b - c ↔ c = bitFr (u ^^ v) := by
  subst ha hb
  have hsolve : 2 * bitFr u * bitFr v = bitFr u + bitFr v - c
      ↔ c = bitFr u + bitFr v - 2 * bitFr u * bitFr v := by
    constructor
    · intro h; linear_combination h
    · intro h; linear_combination h
  rw [hsolve]
  have hbits : bitFr u + bitFr v - 2 * bitFr u * bitFr v = bitFr (u ^^ v) := by
    cases u <;> cases v <;> simp [bitFr]; ring
  rw [hbits]

theorem arkXor_reads {a b : ArkBoolean} {u v : Bool} (ha : arkStd.Reads mode w a u)
    (hb : arkStd.Reads mode w b v) :
    Ensures mode w (ArkBoolean.xor a b) fun c => arkStd.Reads mode w c (u ^^ v) := by
  have hconst : ∀ {p q : Bool}, arkStd.Reads mode w (ArkBoolean.constant p) q → p = q :=
    fun h => bitFr_inj (by simpa [arkStd, ArkBoolean.lc, Assignment.value] using h.1)
  cases a with
  | constant p =>
    rw [← hconst ha]
    cases p with
    | false => exact Ensures.pure (by simpa using hb)
    | true => exact Ensures.pure (by simpa using reads_not hb)
  | var p la =>
    cases b with
    | constant q =>
      rw [← hconst hb]
      cases q with
      | false => exact Ensures.pure (by simpa using ha)
      | true => exact Ensures.pure (by simpa using reads_not ha)
    | var q lb =>
      refine (Ensures.allocWitness _).bind fun c hc => ?_
      have hla : la.eval w = bitFr u := ha.1
      have hlb : lb.eval w = bitFr v := hb.1
      have hk : Constraint.Holds ⟨LinComb.scale 2 la, lb, la ++ lb ++ [(-1, c)]⟩ w
          ↔ w.value c = bitFr (u ^^ v) := by
        simp only [Constraint.Holds, LinComb.eval_append, LinComb.eval_scale, LinComb.eval_cons,
          LinComb.eval_nil]
        rw [← holds_xor hla hlb]
        ring_nf
      have hhint : mode = .complete → (p ^^ q) = (u ^^ v) := fun hm => by
        rw [← ha.2 hm, ← hb.2 hm]
        rfl
      refine (Ensures.enforce fun hm => hk.mpr ?_).bind fun _ hholds => Ensures.pure ⟨?_, hhint⟩
      · rw [hc hm, hhint hm]
      · show LinComb.eval [(1, c)] w = _
        rw [LinComb.eval_cons, LinComb.eval_nil, hk.mp hholds]
        ring

theorem arkXor_returns (a b : ArkBoolean) : Returns (ArkBoolean.xor a b) fun c =>
    c.isConstant = true → a.isConstant = true ∧ b.isConstant = true := by
  have hnot : ∀ b : ArkBoolean, b.not.isConstant = b.isConstant := fun b => by cases b <;> rfl
  match a, b with
  | .constant false, b => exact Returns.pure fun h => ⟨rfl, h⟩
  | .constant true, b => exact Returns.pure fun h => ⟨rfl, hnot b ▸ h⟩
  | .var p la, .constant false => exact Returns.pure fun h => ⟨h, rfl⟩
  | .var p la, .constant true => exact Returns.pure fun h => ⟨h, rfl⟩
  | .var p la, .var q lb =>
    refine (Returns.allocWitness _).bind fun c _ => (Returns.enforce _).bind fun _ _ => ?_
    exact Returns.pure fun h => by cases h

theorem eval_lcOfBits {bits : List ArkBoolean} {vs : List Bool}
    (h : List.Forall₂ (arkStd.Reads mode w) bits vs) :
    (ArkBoolean.lcOfBits bits).eval w = (ofBits vs : Fr)
      ∧ (mode = .complete → bits.map ArkBoolean.value = vs) := by
  induction h with
  | nil => exact ⟨by simp [ArkBoolean.lcOfBits], fun _ => rfl⟩
  | @cons b v bs vs hb _ ih =>
    have hlc : b.lc.eval w = bitFr v := hb.1
    refine ⟨?_, fun hm => ?_⟩
    · rw [ArkBoolean.lcOfBits, LinComb.eval_append, LinComb.eval_scale, ih.1, hlc, ofBits_cons]
      cases v <;> simp [bitFr]
    · rw [List.map_cons, ih.2 hm]
      exact congrArg (· :: vs) (hb.2 hm)

theorem arkLeBitsToFp_reads {bits : List ArkBoolean} {vs : List Bool}
    (h : List.Forall₂ (arkStd.Reads mode w) bits vs) :
    Ensures mode w (ArkBoolean.leBitsToFp bits) fun x => arkStd.ReadsFp mode w x (ofBits vs) := by
  obtain ⟨heval, hval⟩ := eval_lcOfBits h
  unfold ArkBoolean.leBitsToFp
  by_cases hall : bits.all ArkBoolean.isConstant = true
  · have hvalues : bits.map ArkBoolean.value = vs := by
      clear heval hval
      induction h with
      | nil => rfl
      | @cons b v bs vs hb _ ih =>
        rw [List.all_cons, Bool.and_eq_true] at hall
        rw [List.map_cons, ih hall.2]
        cases b with
        | var _ _ => cases hall.1
        | constant p =>
          have : p = v := bitFr_inj (by simpa [arkStd, ArkBoolean.lc, Assignment.value] using hb.1)
          rw [this]
          rfl
    simp only [hall, if_true, hvalues]
    exact Ensures.pure ⟨by simp [arkStd, ArkFp.lc, Assignment.value], fun _ => rfl⟩
  · by_cases hlen : bits.length < 254
    · simp only [hall, hlen, if_true]
      exact Ensures.pure ⟨heval, fun hm => by rw [← hval hm]; rfl⟩
    · simp only [hall, hlen]
      exact Ensures.fail

theorem arkLeBitsToFp_returns (bits : List ArkBoolean) (h : bits.length < 254) :
    Returns (ArkBoolean.leBitsToFp bits) fun x =>
      x.isConstant = true → ∀ b ∈ bits, b.isConstant = true := by
  unfold ArkBoolean.leBitsToFp
  by_cases hall : bits.all ArkBoolean.isConstant = true
  · simp only [hall, if_true]
    exact Returns.pure fun _ => List.all_eq_true.mp hall
  · simp only [hall, h, if_true]
    exact Returns.pure fun hc => by cases hc

theorem arkMul_reads {x y : ArkFp} {u v : Fr} (hx : arkStd.ReadsFp mode w x u)
    (hy : arkStd.ReadsFp mode w y v) :
    Ensures mode w (ArkFp.mul x y) fun z => arkStd.ReadsFp mode w z (u * v) := by
  obtain ⟨hxe, hxv⟩ := hx
  obtain ⟨hye, hyv⟩ := hy
  have hprod : mode = .complete → x.value * y.value = u * v := fun hm => by
    rw [← hxv hm, ← hyv hm]
    rfl
  have hxe' : x.lc.eval w = u := hxe
  have hye' : y.lc.eval w = v := hye
  match x, y with
  | .constant p, .constant q =>
    refine Ensures.pure ⟨?_, hprod⟩
    simp only [ArkFp.lc, LinComb.eval_cons, LinComb.eval_nil, Assignment.value, mul_one,
      add_zero] at hxe' hye'
    simp [arkStd, ArkFp.lc, Assignment.value, hxe', hye']
  | .constant p, .var q lb =>
    refine Ensures.pure ⟨?_, hprod⟩
    simp only [ArkFp.lc, LinComb.eval_cons, LinComb.eval_nil, Assignment.value, mul_one,
      add_zero] at hxe' hye'
    simp [arkStd, ArkFp.lc, hxe', hye']
  | .var p la, .constant q =>
    refine Ensures.pure ⟨?_, hprod⟩
    simp only [ArkFp.lc, LinComb.eval_cons, LinComb.eval_nil, Assignment.value, mul_one,
      add_zero] at hxe' hye'
    simp [arkStd, ArkFp.lc, hxe', hye', mul_comm]
  | .var p la, .var q lb =>
    have hla : la.eval w = u := hxe'
    have hlb : lb.eval w = v := hye'
    refine (Ensures.allocWitness _).bind fun c hc => ?_
    have hk : Constraint.Holds ⟨la, lb, [(1, c)]⟩ w ↔ w.value c = u * v := by
      simp only [Constraint.Holds, LinComb.eval_cons, LinComb.eval_nil, hla, hlb, one_mul, add_zero]
      exact eq_comm
    refine (Ensures.enforce fun hm => hk.mpr ?_).bind fun _ hholds => Ensures.pure ⟨?_, hprod⟩
    · rw [hc hm]
      exact hprod hm
    · simp [arkStd, ArkFp.lc, hk.mp hholds]

theorem arkMul_returns (x y : ArkFp) : Returns (ArkFp.mul x y) fun _ => True := by
  match x, y with
  | .constant _, .constant _ | .constant _, .var _ _ | .var _ _, .constant _ =>
    exact Returns.pure trivial
  | .var _ _, .var _ _ =>
    exact (Returns.allocWitness _).bind fun _ _ => (Returns.enforce _).bind fun _ _ =>
      Returns.pure trivial

theorem ensures_ite {p Q : Prop} [Decidable p] {e : Failure} (h : p → Q) :
    Ensures mode w (if p then pure () else fail e : Synthesis Unit) fun _ => Q := by
  split
  · exact Ensures.pure (h ‹_›)
  · exact Ensures.fail

theorem arkEnforceEqual_ensures {a b : ArkBoolean}
    (h : mode = .complete → a.lc.eval w = b.lc.eval w) :
    Ensures mode w (ArkBoolean.enforceEqual a b) fun _ => a.lc.eval w = b.lc.eval w := by
  have himpose : Ensures mode w (enforce ⟨a.lc ++ LinComb.scale (-1) b.lc, [(1, .one)], []⟩ :
      Synthesis Unit) fun _ => a.lc.eval w = b.lc.eval w :=
    (Ensures.enforce fun hm => holds_difference.mpr (h hm)).mono fun _ hk => holds_difference.mp hk
  match a, b with
  | .constant u, .constant v => exact ensures_ite fun huv => by rw [huv]
  | .constant _, .var _ _ | .var _ _, .constant _ | .var _ _, .var _ _ => exact himpose

theorem arkFpEnforceEqual_ensures {a b : ArkFp}
    (h : mode = .complete → a.lc.eval w = b.lc.eval w) :
    Ensures mode w (ArkFp.enforceEqual a b) fun _ => a.lc.eval w = b.lc.eval w := by
  have himpose : Ensures mode w (enforce ⟨a.lc ++ LinComb.scale (-1) b.lc, [(1, .one)], []⟩ :
      Synthesis Unit) fun _ => a.lc.eval w = b.lc.eval w :=
    (Ensures.enforce fun hm => holds_difference.mpr (h hm)).mono fun _ hk => holds_difference.mp hk
  match a, b with
  | .constant u, .constant v => exact ensures_ite fun huv => by rw [huv]
  | .constant _, .var _ _ | .var _ _, .constant _ | .var _ _, .var _ _ => exact himpose

theorem arkNewWitness_run (v : Bool) (cs : ConstraintSystem Fr) :
    ∃ b cs', (ArkBoolean.newWitness v).run cs = .ok (b, cs')
      ∧ cs'.instanceAssignment = cs.instanceAssignment
      ∧ cs'.witnessAssignment = cs.witnessAssignment ++ [bitFr v]
      ∧ b.isConstant = false ∧ b.value = v
      ∧ (∀ w, b.lc.eval w = w.wit cs.witnessAssignment.length)
      ∧ ∀ w, cs'.SatisfiedBy w ↔ cs.SatisfiedBy w
          ∧ (w.wit cs.witnessAssignment.length = 0 ∨ w.wit cs.witnessAssignment.length = 1) := by
  refine ⟨_, _, rfl, rfl, rfl, rfl, rfl, fun w => ?_, fun w => ?_⟩
  · simp [ArkBoolean.lc, Assignment.value]
  · rw [ConstraintSystem.satisfiedBy_append]
    refine and_congr Iff.rfl ?_
    simp only [Constraint.Holds, LinComb.eval_cons, LinComb.eval_nil, Assignment.value, one_mul,
      mul_one, add_zero, mul_eq_zero]
    constructor
    · rintro (h | h)
      · exact .inr (by linear_combination -h)
      · exact .inl h
    · rintro (h | h)
      · exact .inr h
      · exact .inl (by rw [h]; ring)

end Laws

/-- **The properties the circuit relies on can be met together.** -/
theorem arkStd_lawful : arkStd.Lawful where
  bool_constant v w := by simp [arkStd, ArkBoolean.lc, Assignment.value]
  value_constant _ := rfl
  newWitness_run := arkNewWitness_run
  xor_returns := arkXor_returns
  xor_reads := arkXor_reads
  enforceEqual_returns a b h := by
    cases a with
    | var _ _ => cases b <;> exact Returns.enforce _
    | constant _ =>
      cases b with
      | var _ _ => exact Returns.enforce _
      | constant _ => exact absurd ⟨rfl, rfl⟩ h
  enforceEqual_ensures := arkEnforceEqual_ensures
  leBitsToFp_returns := arkLeBitsToFp_returns
  leBitsToFp_reads _ h := arkLeBitsToFp_reads h
  fp_fpConstant c w := by simp [arkStd, ArkFp.lc, Assignment.value]
  fpValue_fpConstant _ := rfl
  newInput_run v cs := by
    refine ⟨_, _, rfl, rfl, rfl, rfl, rfl, fun w => ?_, fun w => Iff.rfl⟩
    simp [arkStd, ArkFp.lc, Assignment.value]
  mul_returns := arkMul_returns
  mul_reads := arkMul_reads
  fp_addConstant x c w := by
    cases x <;> simp [arkStd, ArkFp.addConstant, ArkFp.lc, Assignment.value]
  fpValue_addConstant x c := by cases x <;> rfl
  fpEnforceEqual_returns x y h := by
    cases x with
    | var _ _ => cases y <;> exact Returns.enforce _
    | constant _ =>
      cases y with
      | var _ _ => exact Returns.enforce _
      | constant _ => exact absurd ⟨rfl, rfl⟩ h
  fpEnforceEqual_ensures := arkFpEnforceEqual_ensures

end SuiCash.Prover
