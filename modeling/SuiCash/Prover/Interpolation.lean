import SuiCash.Prover.ArkStd
import SuiCash.Prover.Sbox

/-!
# The interpolation of a table

What the polynomials of `prover/src/circuit.rs` are good for, beyond the gadget they are
used in.  Any table of 64 bytes is interpolated, and evaluated back by the gadget's own
Horner loop (`Interpolates`).  The one constraint of an S-box gadget holds of Boolean
inputs and outputs exactly when the outputs are the table entry (`PinsBox`).
-/

namespace SuiCash.Prover

open R1cs R1cs.Synth Bytes Des Elimination Wiring

/-! ### Tables -/

/-- The polynomial is the table at every index, on field elements and on variables. -/
structure Interpolates (std : R1csStd) (table : Vector UInt8 64) (coeffs : Vector Fr 64) :
    Prop where
  horner_eq : ∀ v : Fin 64, horner (n := 63) (v.val : Fr) coeffs = ((table.get v).toNat : Fr)
  evalPoly_returns : ∀ inVar, Returns (evalPoly std inVar coeffs) fun _ => True
  evalPoly_reads : ∀ {mode : Mode} {w : Assignment Fr} {inVar : std.FpVar} {v : Fin 64},
    std.ReadsFp mode w inVar (v.val : Fr) →
      Ensures mode w (evalPoly std inVar coeffs) fun y =>
        std.ReadsFp mode w y ((table.get v).toNat : Fr)

theorem exists_interpolates {std : R1csStd} (law : std.Lawful) (table : Vector UInt8 64) :
    ∃ coeffs, interpolate table = some coeffs ∧ Interpolates std table coeffs := by
  obtain ⟨coeffs, hcoeffs, heval⟩ := interpolate_spec table
  refine ⟨coeffs, hcoeffs, heval, fun inVar => evalPoly_returns law inVar coeffs, ?_⟩
  intro mode w inVar v h
  rw [← heval v]
  exact evalPoly_reads law h coeffs

/-! ### Boxes -/

section Box

variable (std : R1csStd)

theorem sboxGadget_eq {boxIdx : Fin 8} {coeffs : Vector Fr 64} (h : sboxPoly boxIdx = some coeffs)
    (input : Vector std.Boolean 6) (witnessIn : Vector Bool 6) :
    sboxGadget std boxIdx input witnessIn = boxGadget std boxIdx coeffs input witnessIn := by
  simp only [sboxGadget, boxGadget, boxSides, h, bind_assoc, pure_bind]

/-- The constraint of a box holds of Boolean inputs and outputs exactly when the outputs
are the table entry. -/
structure PinsBox (boxIdx : Fin 8) (coeffs : Vector Fr 64) : Prop where
  gadget_eq : ∀ input witnessIn,
    sboxGadget std boxIdx input witnessIn = boxGadget std boxIdx coeffs input witnessIn
  sides_return : ∀ input out, Returns (boxSides std coeffs input out) fun _ => True
  holds_iff : ∀ {mode : Mode} {w : Assignment Fr} {input : Vector std.Boolean 6}
    {out : Vector std.Boolean 4} {bits : Vector Bool 6} {outBits : Vector Bool 4},
    Along (std.Reads mode w) input bits → Along (std.Reads mode w) out outBits →
      Ensures mode w (boxSides std coeffs input out) fun sides =>
        (std.fp sides.1 w = std.fp sides.2 w ↔ outBits = sboxBits (sboxLookup boxIdx bits))

variable {std} (law : std.Lawful)
include law

theorem exists_pinsBox (boxIdx : Fin 8) :
    ∃ coeffs, sboxPoly boxIdx = some coeffs ∧ PinsBox std boxIdx coeffs := by
  obtain ⟨coeffs, hcoeffs, heval⟩ := sboxPoly_spec boxIdx
  refine ⟨coeffs, hcoeffs, sboxGadget_eq std hcoeffs, fun input out => ?_, ?_⟩
  · refine (law.leBitsToFp_returns _ (by simp)).bind fun inFp _ => ?_
    refine (law.leBitsToFp_returns _ (by simp)).bind fun outFp _ => ?_
    exact (evalPoly_returns law inFp coeffs).bind fun _ _ => Returns.pure trivial
  · intro mode w input out bits outBits hin hout
    refine (leBitsToFp_index_reads law hin).bind fun inFp hinFp => ?_
    refine (leBitsToFp_nibble_reads law hout).bind fun outFp houtFp => ?_
    refine (evalPoly_reads law hinFp coeffs).bind fun expected hexp => Ensures.pure ?_
    rw [hexp.1, houtFp.1, heval bits]
    exact lookup_eq_nibble_iff

end Box

/-- **Interpolation is right for every table**, and the constraint of a box for every
input. -/
theorem interpolation_correct {std : R1csStd} (law : std.Lawful) :
    (∀ table, ∃ coeffs, interpolate table = some coeffs ∧ Interpolates std table coeffs)
      ∧ ∀ boxIdx, ∃ coeffs, sboxPoly boxIdx = some coeffs ∧ PinsBox std boxIdx coeffs :=
  ⟨exists_interpolates law, exists_pinsBox law⟩

theorem interpolation_correct_squares :
    ∃ coeffs, interpolate (Vector.ofFn fun v => UInt8.ofNat (v.val * v.val)) = some coeffs
      ∧ horner (n := 63) ((7 : Fin 64).val : Fr) coeffs = (49 : ℕ) := by
  obtain ⟨coeffs, hcoeffs, h⟩ := (interpolation_correct arkStd_lawful).1
    (Vector.ofFn fun v => UInt8.ofNat (v.val * v.val))
  exact ⟨coeffs, hcoeffs, h.horner_eq 7⟩

end SuiCash.Prover
