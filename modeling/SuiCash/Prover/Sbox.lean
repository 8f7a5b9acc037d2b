import SuiCash.Prover.Std
import SuiCash.Lib.Elimination
import SuiCash.Des.Block

/-!
# The S-box gadget

`prover/src/circuit.rs` holds an S-box to its table by a polynomial: the
interpolation of the 64 entries is computed once, and the gadget imposes
`out = P(in)` on the field elements its bits spell.

* `sboxPoly_spec`: the polynomial is there, and at the number six bits spell it
  is the table entry those bits select.
* `sboxGadget_reads`: whatever the hint, the four output bits are the table
  entry of the six input bits; the gadget is satisfied by its own values when
  the hint is the input.
-/

namespace SuiCash.Prover

open R1cs R1cs.Synth Bytes Des Elimination Wiring

/-! ### The polynomials -/

/-- Interpolation of the binary-indexed S-box table; `none` where the assertion
that the Vandermonde matrix is invertible panics. -/
def interpolate (table : Vector UInt8 64) : Option (Vector Fr 64) :=
  eliminate (powers (fun i : Fin 64 => (i.val : Fr)) fun i => ((table.get i).toNat : Fr))

def indexBits (v : UInt8) : Vector Bool 6 := #v[bit v 5, bit v 4, bit v 3, bit v 2, bit v 1, bit v 0]

def mappedTable (boxIdx : Fin 8) : Vector UInt8 64 :=
  Vector.ofFn fun v => sboxLookup boxIdx (indexBits (UInt8.ofNat v.val))

def sboxPoly (boxIdx : Fin 8) : Option (Vector Fr 64) := interpolate (mappedTable boxIdx)

/-- The number six bits spell, `b0` the top bit. -/
def indexOf (bits : Vector Bool 6) : ℕ :=
  ofBits [bits[5], bits[4], bits[3], bits[2], bits[1], bits[0]]

/-- The number four bits spell, `o0` the top bit. -/
def nibbleOf (bits : Vector Bool 4) : ℕ := ofBits [bits[3], bits[2], bits[1], bits[0]]

theorem indexOf_lt (bits : Vector Bool 6) : indexOf bits < 64 := ofBits_lt _

theorem nibbleOf_lt (bits : Vector Bool 4) : nibbleOf bits < 16 := ofBits_lt _

theorem indexBits_indexOf (bits : Vector Bool 6) :
    indexBits (UInt8.ofNat (indexOf bits)) = bits := by
  have key : ∀ b0 b1 b2 b3 b4 b5 : Bool,
      indexBits (UInt8.ofNat (ofBits [b5, b4, b3, b2, b1, b0])) = #v[b0, b1, b2, b3, b4, b5] := by
    decide
  rw [indexOf, key]
  ext i hi
  have : i = 0 ∨ i = 1 ∨ i = 2 ∨ i = 3 ∨ i = 4 ∨ i = 5 := by omega
  rcases this with rfl | rfl | rfl | rfl | rfl | rfl <;> rfl

theorem sboxBits_nibbleOf (bits : Vector Bool 4) :
    sboxBits (UInt8.ofNat (nibbleOf bits)) = bits := by
  have key : ∀ b0 b1 b2 b3 : Bool,
      sboxBits (UInt8.ofNat (ofBits [b3, b2, b1, b0])) = #v[b0, b1, b2, b3] := by
    decide
  rw [nibbleOf, key]
  ext i hi
  have : i = 0 ∨ i = 1 ∨ i = 2 ∨ i = 3 := by omega
  rcases this with rfl | rfl | rfl | rfl <;> rfl

theorem sboxLookup_lt (boxIdx : Fin 8) (bits : Vector Bool 6) :
    (sboxLookup boxIdx bits).toNat < 16 := by
  have key : (SBOX.toList.all fun box => box.toList.all fun v => v.toNat < 16) = true := by
    decide +kernel
  have hbox := List.all_eq_true.mp key SBOX[boxIdx]
    (Vector.mem_toList_iff.mpr (Vector.getElem_mem _))
  exact of_decide_eq_true (List.all_eq_true.mp hbox _
    (Vector.mem_toList_iff.mpr (Vector.getElem_mem _)))

theorem nibbleOf_sboxBits {v : UInt8} (h : v.toNat < 16) : nibbleOf (sboxBits v) = v.toNat := by
  have key : ∀ v : Fin 16, nibbleOf (sboxBits (UInt8.ofNat v.val)) = v.val := by decide
  have := key ⟨v.toNat, h⟩
  rwa [UInt8.ofNat_toNat] at this

/-- **Every table is interpolated**: neither panic is reached, and the polynomial is the
table at the 64 indices. -/
theorem interpolate_spec (table : Vector UInt8 64) :
    ∃ coeffs, interpolate table = some coeffs
      ∧ ∀ v : Fin 64, horner (n := 63) (v.val : Fr) coeffs = ((table.get v).toNat : Fr) := by
  have hinj : Function.Injective fun i : Fin 64 => (i.val : Fr) := by
    intro i j h
    have hlt : ∀ k : Fin 64, k.val < r := fun k => lt_r_of_lt (lt_trans k.isLt (by decide))
    exact Fin.ext ((natCast_inj (hlt i) (hlt j)).mp h)
  obtain ⟨coeffs, hc, heval⟩ := eliminate_powers hinj fun i => ((table.get i).toNat : Fr)
  exact ⟨coeffs, hc, fun v => (horner_eq _ _).trans (heval v)⟩

/-- **The polynomial of a box is its table.** -/
theorem sboxPoly_spec (boxIdx : Fin 8) :
    ∃ coeffs, sboxPoly boxIdx = some coeffs ∧ ∀ bits : Vector Bool 6,
      horner (n := 63) (indexOf bits : Fr) coeffs = ((sboxLookup boxIdx bits).toNat : Fr) := by
  obtain ⟨coeffs, hc, heval⟩ := interpolate_spec (mappedTable boxIdx)
  refine ⟨coeffs, hc, fun bits => ?_⟩
  have hentry : (mappedTable boxIdx).get ⟨indexOf bits, indexOf_lt bits⟩ = sboxLookup boxIdx bits := by
    refine (Vector.getElem_ofFn (indexOf_lt bits)).trans ?_
    rw [indexBits_indexOf]
  rw [← hentry]
  exact heval ⟨indexOf bits, indexOf_lt bits⟩

theorem lookup_eq_nibble_iff {boxIdx : Fin 8} {input : Vector Bool 6} {output : Vector Bool 4} :
    ((sboxLookup boxIdx input).toNat : Fr) = (nibbleOf output : Fr)
      ↔ output = sboxBits (sboxLookup boxIdx input) := by
  have hlt : ∀ n < 16, n < r := fun n hn => lt_r_of_lt (lt_trans hn (by decide))
  rw [natCast_inj (hlt _ (sboxLookup_lt boxIdx input)) (hlt _ (nibbleOf_lt output))]
  constructor
  · intro h
    rw [← sboxBits_nibbleOf output, ← h, UInt8.ofNat_toNat]
  · rintro rfl
    rw [nibbleOf_sboxBits (sboxLookup_lt boxIdx input)]

/-! ### The gadget -/

section Gadget

variable (std : R1csStd)

/-- Horner from the top: `acc = c63; acc = acc * in + c62; …` -/
def evalPoly (inVar : std.FpVar) (coeffs : Vector Fr 64) : Synthesis std.FpVar :=
  foldlM (fun acc c => do
    let acc ← std.mul acc inVar
    pure (std.addConstant acc c)) (std.fpConstant coeffs[63]) coeffs.pop.toList.reverse

/-- S-box gadget: six input bits, four output bits.  The outputs are allocated
with the native values for `witnessIn`; the constraint pins them. -/
def sboxGadget (boxIdx : Fin 8) (input : Vector std.Boolean 6) (witnessIn : Vector Bool 6) :
    Synthesis (Vector std.Boolean 4) := do
  let outVal := sboxLookup boxIdx witnessIn
  let out ← ofFnM fun i : Fin 4 => std.newWitness (sboxBits outVal)[i]
  let inFp ← std.leBitsToFp [input[5], input[4], input[3], input[2], input[1], input[0]]
  let outFp ← std.leBitsToFp [out[3], out[2], out[1], out[0]]
  match sboxPoly boxIdx with
  | none => fail .panic
  | some coeffs => do
    let expected ← evalPoly std inFp coeffs
    std.fpEnforceEqual expected outFp
    pure out

def boxSides (coeffs : Vector Fr 64) (input : Vector std.Boolean 6) (out : Vector std.Boolean 4) :
    Synthesis (std.FpVar × std.FpVar) := do
  let inFp ← std.leBitsToFp [input[5], input[4], input[3], input[2], input[1], input[0]]
  let outFp ← std.leBitsToFp [out[3], out[2], out[1], out[0]]
  let expected ← evalPoly std inFp coeffs
  pure (expected, outFp)

/-- An S-box gadget around the polynomial of its box: it allocates its outputs and holds
the two sides equal. -/
def boxGadget (boxIdx : Fin 8) (coeffs : Vector Fr 64) (input : Vector std.Boolean 6)
    (witnessIn : Vector Bool 6) : Synthesis (Vector std.Boolean 4) := do
  let out ← ofFnM fun i : Fin 4 => std.newWitness (sboxBits (sboxLookup boxIdx witnessIn))[i]
  let sides ← boxSides std coeffs input out
  std.fpEnforceEqual sides.1 sides.2
  pure out

variable {std} (law : std.Lawful) {mode : Mode} {w : Assignment Fr}
include law

theorem evalPoly_reads {inVar : std.FpVar} {x : Fr} (h : std.ReadsFp mode w inVar x)
    (coeffs : Vector Fr 64) :
    Ensures mode w (evalPoly std inVar coeffs) fun y =>
      std.ReadsFp mode w y (horner (n := 63) x coeffs) := by
  refine Ensures.foldlM (R := Eq) (I := std.ReadsFp mode w) (g := fun acc a => acc * x + a) ?_
    (List.forall₂_eq_eq_eq ▸ rfl) (law.fpConstant_reads _)
  rintro acc t c _ hacc rfl
  exact (law.mul_reads hacc h).bind fun _ hp => Ensures.pure (law.addConstant_reads hp c)

theorem evalPoly_returns (inVar : std.FpVar) (coeffs : Vector Fr 64) :
    Returns (evalPoly std inVar coeffs) fun _ => True := by
  refine Returns.foldlM (fun acc c _ => ?_) trivial
  exact (law.mul_returns acc inVar).bind fun _ _ => Returns.pure trivial

theorem leBitsToFp_index_reads {input : Vector std.Boolean 6} {bits : Vector Bool 6}
    (h : Along (std.Reads mode w) input bits) :
    Ensures mode w
      (std.leBitsToFp [input[5], input[4], input[3], input[2], input[1], input[0]]) fun x =>
        std.ReadsFp mode w x (indexOf bits : Fr) := by
  refine law.leBitsToFp_reads (by simp) ?_
  simp only [List.forall₂_cons, List.forall₂_nil_left_iff, and_true]
  exact ⟨h 5 _, h 4 _, h 3 _, h 2 _, h 1 _, h 0 _⟩

theorem leBitsToFp_nibble_reads {out : Vector std.Boolean 4} {bits : Vector Bool 4}
    (h : Along (std.Reads mode w) out bits) :
    Ensures mode w (std.leBitsToFp [out[3], out[2], out[1], out[0]]) fun x =>
      std.ReadsFp mode w x (nibbleOf bits : Fr) := by
  refine law.leBitsToFp_reads (by simp) ?_
  simp only [List.forall₂_cons, List.forall₂_nil_left_iff, and_true]
  exact ⟨h 3 _, h 2 _, h 1 _, h 0 _⟩

/-- **The output of an S-box gadget is the table entry of its input.** -/
theorem sboxGadget_reads {boxIdx : Fin 8} {input : Vector std.Boolean 6} {bits : Vector Bool 6}
    {witnessIn : Vector Bool 6} (h : Along (std.Reads mode w) input bits)
    (hint : mode = .complete → bits = witnessIn) :
    Ensures mode w (sboxGadget std boxIdx input witnessIn) fun out =>
      Along (std.Reads mode w) out (sboxBits (sboxLookup boxIdx bits)) := by
  obtain ⟨coeffs, hcoeffs, heval⟩ := sboxPoly_spec boxIdx
  refine (Ensures.ofFnM fun i => law.newWitness_reads _).bind fun out hout => ?_
  choose u hu hval using hout
  set v : Vector Bool 4 := Vector.ofFn fun i => u i.val i.isLt with hv
  have hread : Along (std.Reads mode w) out v := by
    intro i hi
    simpa [hv] using hu i hi
  have hhint : mode = .complete → v = sboxBits (sboxLookup boxIdx bits) := by
    intro hm
    ext i hi
    rw [hint hm]
    simpa [hv] using hval i hi hm
  refine (leBitsToFp_index_reads law h).bind fun inFp hinFp => ?_
  refine (leBitsToFp_nibble_reads law hread).bind fun outFp houtFp => ?_
  rw [hcoeffs]
  refine (evalPoly_reads law hinFp coeffs).bind fun expected hexp => ?_
  rw [heval bits] at hexp
  refine (law.fpEnforceEqual_reads hexp houtFp fun hm => ?_).bind fun _ heq => Ensures.pure ?_
  · exact lookup_eq_nibble_iff.mpr (hhint hm)
  · rwa [← lookup_eq_nibble_iff.mp heq]

theorem sboxGadget_returns (boxIdx : Fin 8) (input : Vector std.Boolean 6)
    (witnessIn : Vector Bool 6) :
    Returns (sboxGadget std boxIdx input witnessIn) fun out =>
      ∀ (i : ℕ) (h : i < 4), std.isConstant out[i] = false := by
  obtain ⟨coeffs, hcoeffs, -⟩ := sboxPoly_spec boxIdx
  refine (Returns.ofFnM fun i => law.newWitness_returns _).bind fun out hout => ?_
  refine (law.leBitsToFp_returns _ (by simp)).bind fun inFp _ => ?_
  refine (law.leBitsToFp_returns _ (by simp)).bind fun outFp hfp => ?_
  rw [hcoeffs]
  refine (evalPoly_returns law inFp coeffs).bind fun expected _ => ?_
  refine (law.fpEnforceEqual_returns expected outFp ?_).bind fun _ _ => Returns.pure hout
  rintro ⟨-, hc⟩
  have h0 := hfp hc out[0] (by simp)
  rw [hout 0 (by decide)] at h0
  cases h0

end Gadget

end SuiCash.Prover
