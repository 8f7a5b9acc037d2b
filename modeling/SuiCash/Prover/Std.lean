import SuiCash.Lib.R1cs
import SuiCash.Lib.Bytes
import SuiCash.Prover.Field

/-!
# The gadget library under the circuit

The circuit is written with the variables of `ark-r1cs-std`: `Boolean` and
`FpVar`, each a constant or a linear combination of variables together with the
value its author gave it.  The library is not part of the repository, so it is a
parameter here: `R1csStd` is what the circuit calls, and `R1csStd.Lawful` is
what the circuit relies on, read off the library's documentation.

`Reads mode w b v` says that under the assignment `w` the variable `b` carries
`v`; when the assignment is the author's own, the value stored with the variable
is `v` too, and that is what later hints are computed from.
-/

namespace SuiCash.Prover

open R1cs R1cs.Synth Bytes

/-- `SynthesisError`, and the panic of an assertion. -/
inductive Failure where
  | unsatisfiable
  | assignmentMissing
  | panic
  deriving DecidableEq, Repr

abbrev Synthesis (α : Type) := Synth Failure Fr α

def bitFr (b : Bool) : Fr := if b then 1 else 0

theorem bitFr_inj {a b : Bool} (h : bitFr a = bitFr b) : a = b := by
  cases a <;> cases b <;> simp_all [bitFr]

/-- The part of `ark-r1cs-std` that the circuit calls. -/
structure R1csStd where
  Boolean : Type
  FpVar : Type
  /-- The field element a variable stands for under an assignment. -/
  bool : Boolean → Assignment Fr → Fr
  fp : FpVar → Assignment Fr → Fr
  /-- `value()`, the author's own value. -/
  value : Boolean → Bool
  fpValue : FpVar → Fr
  isConstant : Boolean → Bool
  fpIsConstant : FpVar → Bool
  constant : Bool → Boolean
  newWitness : Bool → Synthesis Boolean
  /-- `a ^ b`. -/
  xor : Boolean → Boolean → Synthesis Boolean
  enforceEqual : Boolean → Boolean → Synthesis Unit
  leBitsToFp : List Boolean → Synthesis FpVar
  fpConstant : Fr → FpVar
  newInput : Fr → Synthesis FpVar
  /-- `x * y`. -/
  mul : FpVar → FpVar → Synthesis FpVar
  /-- `x + c`. -/
  addConstant : FpVar → Fr → FpVar
  fpEnforceEqual : FpVar → FpVar → Synthesis Unit

namespace R1csStd

variable (std : R1csStd)

def Reads (mode : Mode) (w : Assignment Fr) (b : std.Boolean) (v : Bool) : Prop :=
  std.bool b w = bitFr v ∧ (mode = .complete → std.value b = v)

def ReadsFp (mode : Mode) (w : Assignment Fr) (x : std.FpVar) (v : Fr) : Prop :=
  std.fp x w = v ∧ (mode = .complete → std.fpValue x = v)

/-- What the circuit relies on. -/
structure Lawful : Prop where
  bool_constant : ∀ v w, std.bool (std.constant v) w = bitFr v
  value_constant : ∀ v, std.value (std.constant v) = v
  /-- One witness variable, the one after all others, constrained to `0` or `1`. -/
  newWitness_run : ∀ v cs, ∃ b cs', (std.newWitness v).run cs = .ok (b, cs')
    ∧ cs'.instanceAssignment = cs.instanceAssignment
    ∧ cs'.witnessAssignment = cs.witnessAssignment ++ [bitFr v]
    ∧ std.isConstant b = false ∧ std.value b = v
    ∧ (∀ w, std.bool b w = w.wit cs.witnessAssignment.length)
    ∧ ∀ w, cs'.SatisfiedBy w ↔ cs.SatisfiedBy w
        ∧ (w.wit cs.witnessAssignment.length = 0 ∨ w.wit cs.witnessAssignment.length = 1)
  xor_returns : ∀ a b, Returns (std.xor a b) fun c =>
    std.isConstant c = true → std.isConstant a = true ∧ std.isConstant b = true
  xor_reads : ∀ {mode w a b u v}, std.Reads mode w a u → std.Reads mode w b v →
    Ensures mode w (std.xor a b) fun c => std.Reads mode w c (u ^^ v)
  /-- Fails on two constants that differ. -/
  enforceEqual_returns : ∀ a b, ¬ (std.isConstant a = true ∧ std.isConstant b = true) →
    Returns (std.enforceEqual a b) fun _ => True
  enforceEqual_ensures : ∀ {mode w a b}, (mode = .complete → std.bool a w = std.bool b w) →
    Ensures mode w (std.enforceEqual a b) fun _ => std.bool a w = std.bool b w
  /-- Exact on fewer bits than the modulus has. -/
  leBitsToFp_returns : ∀ bits : List std.Boolean, bits.length < 254 →
    Returns (std.leBitsToFp bits) fun x =>
      std.fpIsConstant x = true → ∀ b ∈ bits, std.isConstant b = true
  leBitsToFp_reads : ∀ {mode w bits vs}, bits.length < 254 →
    List.Forall₂ (std.Reads mode w) bits vs →
    Ensures mode w (std.leBitsToFp bits) fun x => std.ReadsFp mode w x (ofBits vs : Fr)
  fp_fpConstant : ∀ c w, std.fp (std.fpConstant c) w = c
  fpValue_fpConstant : ∀ c, std.fpValue (std.fpConstant c) = c
  /-- One instance variable, the one after all others, unconstrained. -/
  newInput_run : ∀ v cs, ∃ x cs', (std.newInput v).run cs = .ok (x, cs')
    ∧ cs'.instanceAssignment = cs.instanceAssignment ++ [v]
    ∧ cs'.witnessAssignment = cs.witnessAssignment
    ∧ std.fpIsConstant x = false ∧ std.fpValue x = v
    ∧ (∀ w, std.fp x w = w.inst cs.instanceAssignment.length)
    ∧ ∀ w, cs'.SatisfiedBy w ↔ cs.SatisfiedBy w
  mul_returns : ∀ x y, Returns (std.mul x y) fun _ => True
  mul_reads : ∀ {mode w x y u v}, std.ReadsFp mode w x u → std.ReadsFp mode w y v →
    Ensures mode w (std.mul x y) fun z => std.ReadsFp mode w z (u * v)
  fp_addConstant : ∀ x c w, std.fp (std.addConstant x c) w = std.fp x w + c
  fpValue_addConstant : ∀ x c, std.fpValue (std.addConstant x c) = std.fpValue x + c
  /-- Fails on two constants that differ. -/
  fpEnforceEqual_returns : ∀ x y, ¬ (std.fpIsConstant x = true ∧ std.fpIsConstant y = true) →
    Returns (std.fpEnforceEqual x y) fun _ => True
  fpEnforceEqual_ensures : ∀ {mode w x y}, (mode = .complete → std.fp x w = std.fp y w) →
    Ensures mode w (std.fpEnforceEqual x y) fun _ => std.fp x w = std.fp y w

variable {std}

theorem Reads.unique {mode : Mode} {w : Assignment Fr} {b : std.Boolean} {u v : Bool}
    (hu : std.Reads mode w b u) (hv : std.Reads mode w b v) : u = v :=
  bitFr_inj (hu.1.symm.trans hv.1)

namespace Lawful

variable (law : std.Lawful) {mode : Mode} {w : Assignment Fr}
include law

theorem constant_reads (v : Bool) : std.Reads mode w (std.constant v) v :=
  ⟨law.bool_constant v w, fun _ => law.value_constant v⟩

theorem fpConstant_reads (c : Fr) : std.ReadsFp mode w (std.fpConstant c) c :=
  ⟨law.fp_fpConstant c w, fun _ => law.fpValue_fpConstant c⟩

theorem addConstant_reads {x : std.FpVar} {u : Fr} (h : std.ReadsFp mode w x u) (c : Fr) :
    std.ReadsFp mode w (std.addConstant x c) (u + c) :=
  ⟨by rw [law.fp_addConstant, h.1], fun hm => by rw [law.fpValue_addConstant, h.2 hm]⟩

theorem newWitness_returns (v : Bool) :
    Returns (std.newWitness v) fun b => std.isConstant b = false := by
  intro cs
  obtain ⟨b, cs', hrun, -, -, hc, -⟩ := law.newWitness_run v cs
  exact ⟨b, cs', hrun, hc⟩

/-- A new witness carries some bit, and the author's own assignment gives it the
hint. -/
theorem newWitness_reads (v : Bool) :
    Ensures mode w (std.newWitness v) fun b =>
      ∃ u, std.Reads mode w b u ∧ (mode = .complete → u = v) := by
  intro cs cs' b hrun hw
  obtain ⟨b', cs'', hrun', -, hwit, -, hval, hbool, hsat⟩ := law.newWitness_run v cs
  rw [hrun'] at hrun
  cases hrun
  cases mode with
  | sound =>
    refine ⟨?_, hw⟩
    rcases ((hsat w).mp hw).2 with h | h
    · exact ⟨false, ⟨by rw [hbool, h]; rfl, fun hm => by cases hm⟩, fun hm => by cases hm⟩
    · exact ⟨true, ⟨by rw [hbool, h]; rfl, fun hm => by cases hm⟩, fun hm => by cases hm⟩
  | complete =>
    have hv : w.wit cs.witnessAssignment.length = bitFr v := by
      rw [hw.1.wit _ (by rw [hwit]; simp)]
      simp [hwit]
    refine ⟨⟨v, ⟨by rw [hbool, hv], fun _ => hval⟩, fun _ => rfl⟩, (hsat w).mpr ⟨hw.2, ?_⟩⟩
    rw [hv]
    cases v
    · exact .inl rfl
    · exact .inr rfl

theorem enforceEqual_reads {a b : std.Boolean} {u v : Bool} (ha : std.Reads mode w a u)
    (hb : std.Reads mode w b v) (h : mode = .complete → u = v) :
    Ensures mode w (std.enforceEqual a b) fun _ => u = v := by
  refine (law.enforceEqual_ensures fun hm => by rw [ha.1, hb.1, h hm]).mono fun _ he => ?_
  rw [ha.1, hb.1] at he
  exact bitFr_inj he

theorem fpEnforceEqual_reads {x y : std.FpVar} {u v : Fr} (hx : std.ReadsFp mode w x u)
    (hy : std.ReadsFp mode w y v) (h : mode = .complete → u = v) :
    Ensures mode w (std.fpEnforceEqual x y) fun _ => u = v := by
  refine (law.fpEnforceEqual_ensures fun hm => by rw [hx.1, hy.1, h hm]).mono fun _ he => ?_
  rwa [hx.1, hy.1] at he

end Lawful

end R1csStd

end SuiCash.Prover
