import SuiCash.Prover.ArkStd
import SuiCash.Prover.Circuit

/-!
# The DES gadget and native DES

`desGadget` wires DES over variables, `desBlock` computes it on arrays.  The gadget
refines the array code in each direction (`RefinesDes`): it never fails; any assignment
that satisfies what it writes carries the native result, whatever hints it was written
with; and with the inputs as hints its own values satisfy it.

The two bit orders undo each other on bits of any kind, and are the orders of
`bytesToDesBits` and of allocation on bytes (`OrdersAgree`).
-/

namespace SuiCash.Prover

open R1cs R1cs.Synth Bytes Des Wiring

/-! ### The bit orders -/

theorem leToDes_desToLe {α : Type} {n : ℕ} (init : α) (des : Vector α (n * 8)) :
    leToDes n (desToLe n init des) = des := by
  ext k hk
  rw [getElem_leToDes, getElem_desToLe init des hk]

theorem desToLe_eq_leBits (bits : Vector Bool 64) :
    desToLe 8 false bits = leBits (desBitsToBytes bits) := by
  rw [← desToLe_bytesToDesBits, bytesToDesBits_desBitsToBytes]

/-- `leToDes` and `desToLe` go between the order in which bytes are allocated and that of
`bytesToDesBits` and `desBitsToBytes`. -/
structure OrdersAgree (std : R1csStd) : Prop where
  desToLe_leToDes : ∀ {α : Type} {n : ℕ} (init : α) (le : Vector α (n * 8)),
    desToLe n init (leToDes n le) = le
  leToDes_desToLe : ∀ {α : Type} {n : ℕ} (init : α) (des : Vector α (n * 8)),
    leToDes n (desToLe n init des) = des
  allocated : ∀ {mode : Mode} {w : Assignment Fr} (block : Block),
    Ensures mode w (allocLeBits std block) fun le => ∃ b, (mode = .complete → b = block)
      ∧ Along (std.Reads mode w) le (leBits b)
      ∧ Along (std.Reads mode w) (leToDes 8 le) (bytesToDesBits b)
  written : ∀ {mode : Mode} {w : Assignment Fr} {des : Vector std.Boolean 64}
    {bits : Vector Bool 64}, Along (std.Reads mode w) des bits →
      Along (std.Reads mode w) (desToLe 8 (std.constant false) des) (leBits (desBitsToBytes bits))

theorem ordersAgree {std : R1csStd} (law : std.Lawful) : OrdersAgree std where
  desToLe_leToDes := desToLe_leToDes
  leToDes_desToLe := leToDes_desToLe
  allocated block := by
    refine (allocLeBits_reads law block).mono fun le ⟨b, hle, hblock⟩ => ⟨b, hblock, hle, ?_⟩
    rw [← leToDes_leBits]
    exact along_leToDes (n := 8) hle
  written {mode w des bits} h := by
    rw [← desToLe_eq_leBits]
    exact along_desToLe (n := 8) (law.constant_reads false) h

/-! ### The gadget -/

/-- The gadget in one direction carries what the native function computes. -/
structure RefinesDes (std : R1csStd) (encrypt : Bool) (native : Block → Block → Block) : Prop where
  returns : ∀ (dataDes keyLe : Vector std.Boolean 64) (witnessData witnessKey : Block),
    Returns (desGadget std dataDes keyLe encrypt witnessData witnessKey) fun _ => True
  /-- Whatever the hints were. -/
  sound : ∀ {dataDes keyLe out : Vector std.Boolean 64} {witnessData witnessKey : Block}
    {cs cs' : ConstraintSystem Fr} {w : Assignment Fr} {data key : Block},
    (desGadget std dataDes keyLe encrypt witnessData witnessKey).run cs = .ok (out, cs') →
    cs'.SatisfiedBy w →
    Along (std.Reads .sound w) dataDes (bytesToDesBits data) →
    Along (std.Reads .sound w) keyLe (leBits key) →
    Along (std.Reads .sound w) out (bytesToDesBits (native data key))
  /-- With the inputs as hints. -/
  complete : ∀ {dataDes keyLe out : Vector std.Boolean 64} {cs cs' : ConstraintSystem Fr}
    {w : Assignment Fr} {data key : Block},
    (desGadget std dataDes keyLe encrypt data key).run cs = .ok (out, cs') →
    cs'.AgreesWith w → cs.SatisfiedBy w →
    Along (std.Reads .complete w) dataDes (bytesToDesBits data) →
    Along (std.Reads .complete w) keyLe (leBits key) →
    cs'.SatisfiedBy w

theorem refinesDes {std : R1csStd} (law : std.Lawful) (encrypt : Bool) :
    RefinesDes std encrypt fun data key => desBlock data key encrypt where
  returns _ _ _ _ := (desGadget_returns law _ _ _ _ _).mono fun _ _ => trivial
  sound hrun hw hdata hkey :=
    (desGadget_reads law hdata hkey (fun hm => by cases hm) _ _ _ hrun hw).1
  complete hrun hw hcs hdata hkey :=
    (desGadget_reads law hdata hkey (fun _ => ⟨rfl, rfl⟩) _ _ _ hrun ⟨hw, hcs⟩).2

/-- **The DES gadget refines native DES** in both directions. -/
theorem desGadget_refines {std : R1csStd} (law : std.Lawful) :
    RefinesDes std true desEncrypt ∧ RefinesDes std false desDecrypt ∧ OrdersAgree std :=
  ⟨refinesDes law true, refinesDes law false, ordersAgree law⟩

theorem desGadget_refines_vector :
    ∃ out cs, (desGadget arkStd
        ((bytesToDesBits #v[0x01, 0x23, 0x45, 0x67, 0x89, 0xAB, 0xCD, 0xEF]).map arkStd.constant)
        ((leBits #v[0x13, 0x34, 0x57, 0x79, 0x9B, 0xBC, 0xDF, 0xF1]).map arkStd.constant) true
        #v[0x01, 0x23, 0x45, 0x67, 0x89, 0xAB, 0xCD, 0xEF]
        #v[0x13, 0x34, 0x57, 0x79, 0x9B, 0xBC, 0xDF, 0xF1]).run .new = .ok (out, cs)
      ∧ cs.SatisfiedBy cs.assignment
      ∧ Along (arkStd.Reads .sound cs.assignment) out
        (bytesToDesBits (desEncrypt #v[0x01, 0x23, 0x45, 0x67, 0x89, 0xAB, 0xCD, 0xEF]
          #v[0x13, 0x34, 0x57, 0x79, 0x9B, 0xBC, 0xDF, 0xF1])) := by
  obtain ⟨hdes, -, -⟩ := desGadget_refines arkStd_lawful
  obtain ⟨out, cs, hrun, -⟩ := hdes.returns _ _ _ _ .new
  have constants : ∀ {mode : Mode} {n : ℕ} (bits : Vector Bool n),
      Along (arkStd.Reads mode cs.assignment) (bits.map arkStd.constant) bits := by
    intro mode n bits i hi
    rw [Vector.getElem_map]
    exact arkStd_lawful.constant_reads bits[i]
  have hsat := hdes.complete hrun cs.agreesWith_assignment
    (ConstraintSystem.satisfiedBy_new cs.assignment) (constants _) (constants _)
  exact ⟨out, cs, hrun, hsat, hdes.sound hrun hsat (constants _) (constants _)⟩

end SuiCash.Prover
