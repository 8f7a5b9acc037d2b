import SuiCash.Prover.ArkStd
import SuiCash.Prover.Circuit

/-!
# What the circuit proves

The two directions of the circuit, for every circuit value.

* `generateConstraints_sound`: synthesis succeeds, and any assignment at all that
  satisfies the constraints decodes, at the places where the bytes were
  allocated, to a consistent transcript whose `idi` and `r1` are the first two
  public inputs.
* `checkSatisfiable_iff`: the circuit's own values satisfy it exactly when its
  transcript is consistent.

The places are read off the allocation order: nothing is allocated in front of
the byte strings, and between them only the public inputs, which are numbered
apart (`allocate_run`).
-/

namespace SuiCash.Prover

open R1cs R1cs.Synth Bytes Des Wiring

variable {std : R1csStd}

/-! ### Synthesis does not fail -/

section Returns

variable (law : std.Lawful)
include law

theorem newInput_returns (f : Fr) : Returns (std.newInput f) fun x => std.fpIsConstant x = false := by
  intro cs
  obtain ⟨x, cs', hrun, -, -, hc, -⟩ := law.newInput_run f cs
  exact ⟨x, cs', hrun, hc⟩

/-- What the later sections need of the allocated variables: not constants. -/
structure Wires.Vary (v : Wires std) : Prop where
  piVars : ∀ (i : ℕ) (h : i < 3), std.fpIsConstant v.piVars[i] = false
  idi : Varies v.idiLe
  r1 : Varies v.r1Le

theorem allocate_returns (c : FelicaCircuit) : Returns (allocate std c) Wires.Vary := by
  have ignore : ∀ {n : ℕ} (bytes : Vector UInt8 n), Returns (allocLeBits std bytes) fun _ => True :=
    fun bytes => (allocLeBits_returns law bytes).mono fun _ _ => trivial
  refine (ignore c.gsk).bind fun _ _ => (ignore c.usk).bind fun _ _ => ?_
  refine (ignore c.idm).bind fun _ _ => (ignore c.c1b).bind fun _ _ => ?_
  refine (ignore c.c2a).bind fun _ _ => (ignore c.r2).bind fun _ _ => ?_
  refine (ignore c.auth2).bind fun _ _ => ?_
  rw [PublicInputs.toFr_eq]
  refine (Returns.ofFnM fun _ => newInput_returns law _).bind fun piVars hpi => ?_
  refine (allocLeBits_returns law c.idi).bind fun idiLe hidi => ?_
  exact (allocLeBits_returns law c.r1).bind fun r1Le hr1 => Returns.pure ⟨hpi, hidi, hr1⟩

theorem linkPublic_returns {v : Wires std} (hv : v.Vary) :
    Returns (linkPublic std v) fun _ => True := by
  have hlink : ∀ x (i : ℕ) (h : i < 3),
      ¬ (std.fpIsConstant x = true ∧ std.fpIsConstant v.piVars[i] = true) := by
    rintro x i h ⟨-, hc⟩
    rw [hv.piVars i h] at hc
    cases hc
  refine (law.leBitsToFp_returns _ (by simp)).bind fun x _ => ?_
  refine (law.fpEnforceEqual_returns _ _ (hlink x 0 (by decide))).bind fun _ _ => ?_
  refine (law.leBitsToFp_returns _ (by simp)).bind fun y _ => ?_
  exact law.fpEnforceEqual_returns _ _ (hlink y 1 (by decide))

theorem keySchedule_returns (c : FelicaCircuit) (v : Wires std) :
    Returns (keySchedule std c v) fun _ => True :=
  (xorVars_returns law _ _).bind fun _ _ => (desGadget_returns law _ _ _ _ _).bind fun _ _ =>
    (desGadget_returns law _ _ _ _ _).bind fun _ _ => Returns.pure trivial

theorem challenge_returns (c : FelicaCircuit) (dataLe responseLe lLe betaLe : Vector std.Boolean 64)
    (wData : Block) :
    Returns (challenge std c dataLe responseLe lLe betaLe wData) fun _ => True :=
  (tdesEncryptGadget_returns law _ _ _ _ _ _).bind fun _ he =>
    enforceVars_returns law (.inl he)

theorem plaintextVars_returns (c : FelicaCircuit) (v : Wires std) :
    Returns (plaintextVars std c v) fun _ => True := by
  refine (Returns.ofFnM (Q := fun _ _ => True) fun i => ?_).bind fun _ _ => Returns.pure trivial
  exact (desGadget_returns law _ _ _ _ _).bind fun _ _ =>
    (xorVars_returns law _ _).mono fun _ _ => trivial

theorem macStep_returns (c : FelicaCircuit) (ptLe : Vector std.Boolean (4 * 64))
    (m : Vector std.Boolean 64 × Block) (i : Fin 4) :
    Returns (macStep std c ptLe m i) fun m' => Varies m'.1 :=
  (desGadget_returns law _ _ _ _ _).bind fun _ h => Returns.pure h

theorem macConstraint_returns (c : FelicaCircuit) (ptLe : Vector std.Boolean (4 * 64)) :
    Returns (macConstraint std c ptLe) fun _ => True := by
  have hchain : Returns (foldlM (macStep std c ptLe) (leToDes 8
      ((leBits (macHeader 34 0x13)).map std.constant : Vector std.Boolean 64), macHeader 34 0x13)
      [0, 1, 2]) fun m => Varies m.1 :=
    (macStep_returns law _ _ _ _).bind fun _ h =>
      Returns.foldlM (I := fun m : Vector std.Boolean 64 × Block => Varies m.1)
        (fun _ _ _ => macStep_returns law _ _ _ _) h
  exact hchain.bind fun _ h => enforceVars_returns law (.inl h)

theorem enforceEqual_returns_of_varies {n : ℕ} {b : Vector std.Boolean n} (hb : Varies b)
    (a : std.Boolean) (i : Fin n) : Returns (std.enforceEqual a (b.get i)) fun _ => True := by
  refine law.enforceEqual_returns _ _ ?_
  rintro ⟨-, hc⟩
  exact absurd (hc.symm.trans (hb i.val i.isLt)) (by decide)

theorem constrain_returns {c : FelicaCircuit} {v : Wires std} (hv : v.Vary) :
    Returns (constrain std c v) fun _ => True := by
  refine (linkPublic_returns law hv).bind fun _ _ => ?_
  refine (keySchedule_returns law c v).bind fun s _ => ?_
  refine (challenge_returns law c _ _ _ _ _).bind fun _ _ => ?_
  refine (challenge_returns law c _ _ _ _ _).bind fun _ _ => ?_
  refine (plaintextVars_returns law c v).bind fun ptLe _ => ?_
  refine (macConstraint_returns law c ptLe).bind fun _ _ => ?_
  refine (Returns.forEach fun i _ => enforceEqual_returns_of_varies law hv.r1 _ i).bind
    fun _ _ => ?_
  exact Returns.forEach fun i _ => enforceEqual_returns_of_varies law hv.idi _ i

/-- **Synthesis never fails.** -/
theorem generateConstraints_returns (c : FelicaCircuit) :
    Returns (generateConstraints std c) fun _ => True :=
  (allocate_returns law c).bind fun _ hv => constrain_returns law hv

end Returns

/-! ### Where the bytes stand -/

/-- The bytes of `v` stand bit by bit from witness `start` on. -/
def WitnessBytes {n : ℕ} (w : Assignment Fr) (start : ℕ) (v : Vector UInt8 n) : Prop :=
  ∀ (k : ℕ) (h : k < n * 8), w.wit (start + k) = bitFr (leBits v)[k]

/-- The transcript an assignment holds at the places of the allocation order. -/
structure Transcript.HeldBy (w : Assignment Fr) (t : Transcript) : Prop where
  gsk : WitnessBytes w 0 t.gsk
  usk : WitnessBytes w 64 t.usk
  idm : WitnessBytes w 128 t.idm
  c1b : WitnessBytes w 192 t.c1b
  c2a : WitnessBytes w 256 t.c2a
  r2 : WitnessBytes w 320 t.r2
  auth2 : WitnessBytes w 384 t.auth2
  idi : WitnessBytes w 640 t.idi
  r1 : WitnessBytes w 704 t.r1

/-- The variables are the witnesses from `start` on. -/
def Placed {n : ℕ} (start : ℕ) (bits : Vector std.Boolean n) : Prop :=
  ∀ (k : ℕ) (h : k < n) (w : Assignment Fr), std.bool bits[k] w = w.wit (start + k)

theorem Placed.witnessBytes {n start : ℕ} {bits : Vector std.Boolean (n * 8)} {mode : Mode}
    {w : Assignment Fr} {v : Vector UInt8 n} (h : Placed start bits)
    (hv : Along (std.Reads mode w) bits (leBits v)) : WitnessBytes w start v := by
  intro k hk
  rw [← h k hk w]
  exact (hv k hk).1

section Places

variable (law : std.Lawful)
include law

theorem newWitnesses_run {n : ℕ} (f : Fin n → Bool) (cs : ConstraintSystem Fr) :
    ∃ bits cs', (ofFnM fun i => std.newWitness (f i)).run cs = .ok (bits, cs')
      ∧ cs'.instanceAssignment.length = cs.instanceAssignment.length
      ∧ cs'.witnessAssignment.length = cs.witnessAssignment.length + n
      ∧ Placed cs.witnessAssignment.length bits := by
  induction n with
  | zero => exact ⟨#v[], cs, rfl, rfl, rfl, fun k hk => absurd hk (Nat.not_lt_zero k)⟩
  | succ n ih =>
    obtain ⟨bits, cs', hrun, hinst, hwit, hplaced⟩ := ih fun i => f i.castSucc
    obtain ⟨b, cs'', hrun', hinst', hwit', -, -, hbool, -⟩ := law.newWitness_run (f (Fin.last n)) cs'
    refine ⟨bits.push b, cs'', ?_, ?_, ?_, ?_⟩
    · exact run_bind_eq_ok.mpr ⟨bits, cs', hrun, run_bind_eq_ok.mpr ⟨b, cs'', hrun', rfl⟩⟩
    · rw [hinst', hinst]
    · rw [hwit', List.length_append, hwit]
      rfl
    · intro k hk w
      rw [Vector.getElem_push]
      split
      · exact hplaced k ‹_› w
      · have hk' : k = n := by omega
        rw [hbool, hwit, hk']

theorem newInputs_run {n : ℕ} (f : Fin n → Fr) (cs : ConstraintSystem Fr) :
    ∃ xs cs', (ofFnM fun i => std.newInput (f i)).run cs = .ok (xs, cs')
      ∧ cs'.witnessAssignment = cs.witnessAssignment
      ∧ cs'.instanceAssignment.length = cs.instanceAssignment.length + n
      ∧ ∀ (k : ℕ) (h : k < n) (w : Assignment Fr),
        std.fp xs[k] w = w.inst (cs.instanceAssignment.length + k) := by
  induction n with
  | zero => exact ⟨#v[], cs, rfl, rfl, rfl, fun k hk => absurd hk (Nat.not_lt_zero k)⟩
  | succ n ih =>
    obtain ⟨xs, cs', hrun, hwit, hinst, hplaced⟩ := ih fun i => f i.castSucc
    obtain ⟨x, cs'', hrun', hinst', hwit', -, -, hfp, -⟩ := law.newInput_run (f (Fin.last n)) cs'
    refine ⟨xs.push x, cs'', ?_, ?_, ?_, ?_⟩
    · exact run_bind_eq_ok.mpr ⟨xs, cs', hrun, run_bind_eq_ok.mpr ⟨x, cs'', hrun', rfl⟩⟩
    · rw [hwit', hwit]
    · rw [hinst', List.length_append, hinst]
      rfl
    · intro k hk w
      rw [Vector.getElem_push]
      split
      · exact hplaced k ‹_› w
      · have hk' : k = n := by omega
        rw [hfp, hinst, hk']

theorem allocate_run (c : FelicaCircuit) :
    ∃ v cs, (allocate std c).run .new = .ok (v, cs)
      ∧ Placed 0 v.gskLe ∧ Placed 64 v.uskLe ∧ Placed 128 v.idmLe ∧ Placed 192 v.c1bLe
      ∧ Placed 256 v.c2aLe ∧ Placed 320 v.r2Le ∧ Placed 384 v.auth2Le
      ∧ Placed 640 v.idiLe ∧ Placed 704 v.r1Le
      ∧ ∀ (k : ℕ) (h : k < 3) (w : Assignment Fr), std.fp v.piVars[k] w = w.inst k := by
  have alloc : ∀ {n : ℕ} (bytes : Vector UInt8 n) (cs : ConstraintSystem Fr),
      ∃ bits cs', (allocLeBits std bytes).run cs = .ok (bits, cs')
        ∧ cs'.instanceAssignment.length = cs.instanceAssignment.length
        ∧ cs'.witnessAssignment.length = cs.witnessAssignment.length + n * 8
        ∧ Placed cs.witnessAssignment.length bits := fun _ cs => newWitnesses_run law _ cs
  obtain ⟨gsk, cs1, h1, i1, l1, p1⟩ := alloc c.gsk .new
  obtain ⟨usk, cs2, h2, i2, l2, p2⟩ := alloc c.usk cs1
  obtain ⟨idm, cs3, h3, i3, l3, p3⟩ := alloc c.idm cs2
  obtain ⟨c1b, cs4, h4, i4, l4, p4⟩ := alloc c.c1b cs3
  obtain ⟨c2a, cs5, h5, i5, l5, p5⟩ := alloc c.c2a cs4
  obtain ⟨r2, cs6, h6, i6, l6, p6⟩ := alloc c.r2 cs5
  obtain ⟨auth2, cs7, h7, i7, l7, p7⟩ := alloc c.auth2 cs6
  obtain ⟨piVars, cs8, h8, l8, -, p8⟩ := newInputs_run law
    (fun i : Fin 3 => (#v[(limb c.idi : Fr), (limb c.r1 : Fr), (c.attestedAt.toNat : Fr)])[i]) cs7
  obtain ⟨idi, cs9, h9, -, l9, p9⟩ := alloc c.idi cs8
  obtain ⟨r1, cs10, h10, -, -, p10⟩ := alloc c.r1 cs9
  have l0 : (ConstraintSystem.new : ConstraintSystem Fr).witnessAssignment.length = 0 := rfl
  have i0 : (ConstraintSystem.new : ConstraintSystem Fr).instanceAssignment.length = 0 := rfl
  simp only [l0, l1, l2, l3, l4, l5, l6, l7, l8, l9, Nat.zero_add] at p1 p2 p3 p4 p5 p6 p7 p9 p10
  simp only [i0, i1, i2, i3, i4, i5, i6, i7, Nat.zero_add] at p8
  refine ⟨⟨gsk, usk, idm, c1b, c2a, r2, auth2, piVars, idi, r1⟩, cs10, ?_,
    p1, p2, p3, p4, p5, p6, p7, p9, p10, p8⟩
  refine run_bind_eq_ok.mpr ⟨_, _, h1, run_bind_eq_ok.mpr ⟨_, _, h2, ?_⟩⟩
  refine run_bind_eq_ok.mpr ⟨_, _, h3, run_bind_eq_ok.mpr ⟨_, _, h4, ?_⟩⟩
  refine run_bind_eq_ok.mpr ⟨_, _, h5, run_bind_eq_ok.mpr ⟨_, _, h6, ?_⟩⟩
  refine run_bind_eq_ok.mpr ⟨_, _, h7, ?_⟩
  rw [PublicInputs.toFr_eq]
  refine run_bind_eq_ok.mpr ⟨_, _, h8, run_bind_eq_ok.mpr ⟨_, _, h9, ?_⟩⟩
  exact run_bind_eq_ok.mpr ⟨_, _, h10, rfl⟩

/-! ### The two directions -/

omit law in
theorem checkSatisfiable_of_run {c : FelicaCircuit} {cs : ConstraintSystem Fr}
    (h : (generateConstraints std c).run .new = .ok ((), cs)) :
    checkSatisfiable std c = cs.isSatisfied := by
  unfold checkSatisfiable
  split
  · rename_i e he
    rw [h] at he
    cases he
  · rename_i u cs' he
    rw [h] at he
    cases he
    rfl

/-- **A circuit's own values satisfy it exactly when its transcript is
consistent.** -/
theorem checkSatisfiable_iff (c : FelicaCircuit) :
    checkSatisfiable std c = true ↔ c.transcript.Consistent := by
  obtain ⟨⟨⟩, cs, hrun, -⟩ := generateConstraints_returns law c .new
  obtain ⟨v, cs1, hrun1, hrun2⟩ := run_bind_eq_ok.mp hrun
  have hown : cs.AgreesWith cs.assignment := cs.agreesWith_assignment
  have hcheck : checkSatisfiable std c = true ↔ cs.SatisfiedBy cs.assignment := by
    rw [checkSatisfiable_of_run hrun]
    exact cs.isSatisfied_iff
  -- the bits are allocated with the circuit's own values
  have hown1 : Mode.complete.Admits .new cs1 cs.assignment :=
    ⟨hown.of_extends ((constrain std c v).grows hrun2), ConstraintSystem.satisfiedBy_new _⟩
  obtain ⟨⟨t, hv, hc⟩, hsat1⟩ := allocate_reads law c _ _ _ hrun1 hown1
  obtain ⟨ht, h0, h1⟩ := hc rfl
  rw [hcheck]
  constructor
  · intro hw
    have hsound := constrain_reads law hv.sound (c := c) (fun hm => by cases hm)
    rw [← ht]
    exact (hsound _ _ _ hrun2 hw).1.1
  · intro hcons
    have hcomplete := constrain_reads law hv (c := c) fun _ =>
      ⟨ht, ht ▸ hcons, by rw [ht]; exact h0.1, by rw [ht]; exact h1.1⟩
    exact (hcomplete _ _ _ hrun2 ⟨hown, hsat1⟩).2

/-- **Soundness against any prover.**  Synthesis succeeds, and an assignment that
satisfies its constraints, whoever chose it, holds a consistent transcript whose
claim is the public input. -/
theorem generateConstraints_sound (c : FelicaCircuit) :
    ∃ cs, (generateConstraints std c).run .new = .ok ((), cs)
      ∧ ∀ w : Assignment Fr, cs.SatisfiedBy w → ∃ t : Transcript, t.HeldBy w
        ∧ (w.inst 0).val = leNat t.idi.toList ∧ (w.inst 0).val < 2 ^ 64
        ∧ (w.inst 1).val = leNat t.r1.toList ∧ (w.inst 1).val < 2 ^ 64
        ∧ t.Consistent := by
  obtain ⟨⟨⟩, cs, hrun, -⟩ := generateConstraints_returns law c .new
  refine ⟨cs, hrun, fun w hw => ?_⟩
  obtain ⟨v, cs1, hrun1, hrun2⟩ := run_bind_eq_ok.mp hrun
  obtain ⟨v', cs1', hrun1', p1, p2, p3, p4, p5, p6, p7, p9, p10, p8⟩ := allocate_run law c
  rw [hrun1] at hrun1'
  cases hrun1'
  have hw1 : Mode.sound.Admits .new cs1 w := hw.of_extends ((constrain std c v).grows hrun2)
  obtain ⟨⟨t, hv, -⟩, -⟩ := allocate_reads law c _ _ _ hrun1 hw1
  have hconstrain := constrain_reads law hv (c := c) (fun hm => by cases hm)
  obtain ⟨⟨hcons, h0, h1⟩, -⟩ := hconstrain _ _ _ hrun2 hw
  rw [p8] at h0 h1
  have hval : ∀ b : Block, ((limb b : Fr)).val = leNat b.toList :=
    fun b => val_natCast (limb_lt_r b)
  refine ⟨t, ⟨p1.witnessBytes (n := 8) hv.gsk, p2.witnessBytes (n := 8) hv.usk,
    p3.witnessBytes (n := 8) hv.idm, p4.witnessBytes (n := 8) hv.c1b,
    p5.witnessBytes (n := 8) hv.c2a, p6.witnessBytes (n := 8) hv.r2,
    p7.witnessBytes (n := 32) hv.auth2, p9.witnessBytes (n := 8) hv.idi,
    p10.witnessBytes (n := 8) hv.r1⟩, ?_, ?_, ?_, ?_, hcons⟩
  · rw [h0, hval]
  · rw [h0, hval]
    exact limb_lt t.idi
  · rw [h1, hval]
  · rw [h1, hval]
    exact limb_lt t.r1

end Places

/-- The circuit of an honest session, all of whose inputs are zero, has an
assignment for soundness to speak of. -/
theorem generateConstraints_sound_honest :
    ∃ c cs w, (generateConstraints arkStd c).run .new = .ok ((), cs) ∧ cs.SatisfiedBy w
      ∧ ∃ t : Transcript, t.HeldBy w
        ∧ (w.inst 0).val = leNat t.idi.toList ∧ (w.inst 0).val < 2 ^ 64
        ∧ (w.inst 1).val = leNat t.r1.toList ∧ (w.inst 1).val < 2 ^ 64
        ∧ t.Consistent := by
  let t := Transcript.honest zeroBlock zeroBlock zeroBlock zeroBlock zeroBlock zeroBlock zeroBlock
  let c := FelicaCircuit.ofTranscript t 0
  obtain ⟨cs, hrun, hsound⟩ := generateConstraints_sound arkStd_lawful c
  have hcheck : checkSatisfiable arkStd c = true :=
    (checkSatisfiable_iff arkStd_lawful c).mpr (Transcript.honest_consistent _ _ _ _ _ _ _)
  rw [checkSatisfiable_of_run hrun] at hcheck
  have hsat : cs.SatisfiedBy cs.assignment := cs.isSatisfied_iff.mp hcheck
  exact ⟨c, cs, cs.assignment, hrun, hsat, hsound _ hsat⟩

end SuiCash.Prover
