import SuiCash.Lib.Shape
import SuiCash.Prover.ArkStd
import SuiCash.Prover.Satisfiable

/-!
# One key for every session

`generate_keys` makes the keys for `FelicaCircuit::blank()`; the oracle proves the circuit
of a session with them.  That is right when the two circuits are one system of constraints,
and `generate_constraints` is written with hints everywhere: native values are carried along
with the variables, through every round of DES, and looked up in the S-boxes.

`R1csStd.Uniform` is what is relied on of the gadget library: the values of its variables are
hints, and only hints.  From there to `generateConstraints_alike` every gadget of the circuit
has its lemma, with the hints of the two sides unrelated.
-/

namespace SuiCash.Prover

open R1cs R1cs.Synth Bytes Des Wiring

/-- On variables that may differ in their values only (`same`, `sameFp`), the library writes
the same constraints. -/
structure R1csStd.Uniform (std : R1csStd) (same : std.Boolean → std.Boolean → Prop)
    (sameFp : std.FpVar → std.FpVar → Prop) : Prop where
  constant : ∀ v, same (std.constant v) (std.constant v)
  newWitness : ∀ u v, Alike same (std.newWitness u) (std.newWitness v)
  xor : ∀ {a a' b b'}, same a a' → same b b' → Alike same (std.xor a b) (std.xor a' b')
  enforceEqual : ∀ {a a' b b'}, same a a' → same b b' →
    Alike (fun _ _ => True) (std.enforceEqual a b) (std.enforceEqual a' b')
  leBitsToFp : ∀ {bits bits'}, List.Forall₂ same bits bits' →
    Alike sameFp (std.leBitsToFp bits) (std.leBitsToFp bits')
  fpConstant : ∀ c, sameFp (std.fpConstant c) (std.fpConstant c)
  newInput : ∀ u v, Alike sameFp (std.newInput u) (std.newInput v)
  mul : ∀ {x x' y y'}, sameFp x x' → sameFp y y' → Alike sameFp (std.mul x y) (std.mul x' y')
  addConstant : ∀ {x x'}, sameFp x x' → ∀ c, sameFp (std.addConstant x c) (std.addConstant x' c)
  fpEnforceEqual : ∀ {x x' y y'}, sameFp x x' → sameFp y y' →
    Alike (fun _ _ => True) (std.fpEnforceEqual x y) (std.fpEnforceEqual x' y')

/-! ### The gadgets -/

section Gadgets

variable {std : R1csStd} {same : std.Boolean → std.Boolean → Prop}
  {sameFp : std.FpVar → std.FpVar → Prop} (uniform : std.Uniform same sameFp)
include uniform

theorem evalPoly_alike {x x' : std.FpVar} (hx : sameFp x x') (coeffs : Vector Fr 64) :
    Alike sameFp (evalPoly std x coeffs) (evalPoly std x' coeffs) := by
  refine Alike.foldlM (K := Eq) ?_ (List.forall₂_eq_eq_eq ▸ rfl) (uniform.fpConstant _)
  rintro acc acc' c _ hacc rfl
  exact (uniform.mul hacc hx).bind fun _ _ hp => Alike.pure (uniform.addConstant hp c)

/-- The hint of an S-box leaves no trace in its constraints. -/
theorem sboxGadget_alike (boxIdx : Fin 8) {input input' : Vector std.Boolean 6}
    (h : Along same input input') (witnessIn witnessIn' : Vector Bool 6) :
    Alike (Along same) (sboxGadget std boxIdx input witnessIn)
      (sboxGadget std boxIdx input' witnessIn') := by
  refine (Alike.ofFnM fun i => uniform.newWitness _ _).bind fun out out' hout => ?_
  have hin : List.Forall₂ same [input[5], input[4], input[3], input[2], input[1], input[0]]
      [input'[5], input'[4], input'[3], input'[2], input'[1], input'[0]] := by
    simp only [List.forall₂_cons, List.forall₂_nil_left_iff, and_true]
    exact ⟨h 5 _, h 4 _, h 3 _, h 2 _, h 1 _, h 0 _⟩
  have hnibble : List.Forall₂ same [out[3], out[2], out[1], out[0]]
      [out'[3], out'[2], out'[1], out'[0]] := by
    simp only [List.forall₂_cons, List.forall₂_nil_left_iff, and_true]
    exact ⟨hout 3 _, hout 2 _, hout 1 _, hout 0 _⟩
  refine (uniform.leBitsToFp hin).bind fun x x' hx => ?_
  refine (uniform.leBitsToFp hnibble).bind fun y y' hy => ?_
  cases sboxPoly boxIdx with
  | none => exact Alike.fail _
  | some coeffs =>
    refine (evalPoly_alike uniform hx coeffs).bind fun z z' hz => ?_
    exact (uniform.fpEnforceEqual hz hy).bind fun _ _ _ => Alike.pure hout

theorem xorVars_alike {n : ℕ} {a a' b b' : Vector std.Boolean n} (ha : Along same a a')
    (hb : Along same b b') : Alike (Along same) (xorVars std a b) (xorVars std a' b') :=
  Alike.ofFnM fun i => uniform.xor (ha i.val i.isLt) (hb i.val i.isLt)

theorem enforceVars_alike {n : ℕ} {a a' b b' : Vector std.Boolean n} (ha : Along same a a')
    (hb : Along same b b') :
    Alike (fun _ _ => True) (enforceVars std a b) (enforceVars std a' b') :=
  Alike.forEach fun i _ => uniform.enforceEqual (ha i.val i.isLt) (hb i.val i.isLt)

theorem allocLeBits_alike {n : ℕ} (bytes bytes' : Vector UInt8 n) :
    Alike (Along same) (allocLeBits std bytes) (allocLeBits std bytes') :=
  Alike.ofFnM fun _ => uniform.newWitness _ _

omit uniform in
theorem roundKeyVars_alike {keyLe keyLe' : Vector std.Boolean 64} (h : Along same keyLe keyLe') :
    List.Forall₂ (Along same) (roundKeyVars std keyLe) (roundKeyVars std keyLe') := by
  have hpc1 : Along same (permuteVars std (leToDes 8 keyLe) PC1)
      (permuteVars std (leToDes 8 keyLe') PC1) := (along_leToDes (n := 8) h).gather PC1
  obtain ⟨hc, hd⟩ := along_halves (m := 28) hpc1
  exact along_scheduleFrom SHIFTS hc hd

/-- The halves are the same variables; their native copies are anything. -/
def RoundState.SameVars (same : std.Boolean → std.Boolean → Prop) (s s' : RoundState std) : Prop :=
  Along same s.l s'.l ∧ Along same s.r s'.r

def SameKey (same : std.Boolean → std.Boolean → Prop) (k k' : Vector std.Boolean 48 × Vector Bool 48) :
    Prop := Along same k.1 k'.1

theorem desRound_alike {s s' : RoundState std} (hs : s.SameVars same s')
    {k k' : Vector std.Boolean 48 × Vector Bool 48} (hk : SameKey same k k') :
    Alike (RoundState.SameVars same) (desRound std s k) (desRound std s' k') := by
  obtain ⟨hl, hr⟩ := hs
  refine (xorVars_alike uniform (hr.gather E) hk).bind fun xored xored' hxored => ?_
  have hsbox := fun b : Fin 8 => sboxGadget_alike uniform b
    (Along.chunk (n := 8) (m := 6) hxored b)
    (chunk (n := 8) (m := 6) (xorBits (permute s.rNative E) k.2) b)
    (chunk (n := 8) (m := 6) (xorBits (permute s'.rNative E) k'.2) b)
  refine (Alike.ofFnM hsbox).bind fun sOut sOut' hsOut => ?_
  have hflat : Along same (sOut.flatten : Vector std.Boolean (8 * 4)) sOut'.flatten :=
    Along.flatten hsOut
  exact (xorVars_alike uniform hl (hflat.gather P)).bind fun _ _ hnewR => Alike.pure ⟨hr, hnewR⟩

omit uniform in
theorem forall₂_zip_fst {α β γ : Type} {R : α → β → Prop} {as : List α} {bs : List β}
    (h : List.Forall₂ R as bs) {cs ds : List γ} (hlen : cs.length = ds.length) :
    List.Forall₂ (fun p q => R p.1 q.1) (as.zip cs) (bs.zip ds) := by
  induction h generalizing cs ds with
  | nil => exact .nil
  | cons hab _ ih =>
    match cs, ds, hlen with
    | [], [], _ => exact .nil
    | _ :: _, _ :: _, hlen => exact .cons hab (ih (Nat.succ.inj hlen))

/-- **The DES gadget** is one circuit for all data and all keys. -/
theorem desGadget_alike {dataDes dataDes' keyLe keyLe' : Vector std.Boolean 64}
    (hdata : Along same dataDes dataDes') (hkey : Along same keyLe keyLe') (encrypt : Bool)
    (wData wKey wData' wKey' : Block) :
    Alike (Along same) (desGadget std dataDes keyLe encrypt wData wKey)
      (desGadget std dataDes' keyLe' encrypt wData' wKey') := by
  have hvars : List.Forall₂ (Along same)
      (if encrypt then roundKeyVars std keyLe else (roundKeyVars std keyLe).reverse)
      (if encrypt then roundKeyVars std keyLe' else (roundKeyVars std keyLe').reverse) := by
    split
    · exact roundKeyVars_alike hkey
    · exact List.rel_reverse (roundKeyVars_alike hkey)
  have hnat : ∀ key : Block, (if encrypt then roundKeys key else (roundKeys key).reverse).length = 16 :=
    fun key => by split <;> simp
  have hkeys : List.Forall₂ (SameKey same)
      ((if encrypt then roundKeyVars std keyLe else (roundKeyVars std keyLe).reverse).zip
        (if encrypt then roundKeys wKey else (roundKeys wKey).reverse))
      ((if encrypt then roundKeyVars std keyLe' else (roundKeyVars std keyLe').reverse).zip
        (if encrypt then roundKeys wKey' else (roundKeys wKey').reverse)) :=
    forall₂_zip_fst hvars ((hnat wKey).trans (hnat wKey').symm)
  have hip : Along same (permuteVars std dataDes IP) (permuteVars std dataDes' IP) := hdata.gather IP
  obtain ⟨hl, hr⟩ := along_halves (m := 32) hip
  have hstart : RoundState.SameVars same
      (⟨(halves (m := 32) (permuteVars std dataDes IP)).1,
        (halves (m := 32) (permuteVars std dataDes IP)).2,
        (halves (m := 32) (permute (bytesToDesBits wData) IP)).1,
        (halves (m := 32) (permute (bytesToDesBits wData) IP)).2⟩ : RoundState std)
      ⟨(halves (m := 32) (permuteVars std dataDes' IP)).1,
        (halves (m := 32) (permuteVars std dataDes' IP)).2,
        (halves (m := 32) (permute (bytesToDesBits wData') IP)).1,
        (halves (m := 32) (permute (bytesToDesBits wData') IP)).2⟩ := ⟨hl, hr⟩
  have hrounds := Alike.foldlM (K := SameKey same)
    (fun s s' k k' hs hk => desRound_alike uniform hs hk) hkeys hstart
  exact hrounds.bind fun s s' hs => Alike.pure ((hs.2.append hs.1).gather fpTable)

theorem tdesEncryptGadget_alike {dataDes dataDes' k1Le k1Le' k2Le k2Le' : Vector std.Boolean 64}
    (hdata : Along same dataDes dataDes') (hk1 : Along same k1Le k1Le') (hk2 : Along same k2Le k2Le')
    (wData wK1 wK2 wData' wK1' wK2' : Block) :
    Alike (Along same) (tdesEncryptGadget std dataDes k1Le k2Le wData wK1 wK2)
      (tdesEncryptGadget std dataDes' k1Le' k2Le' wData' wK1' wK2') := by
  refine (desGadget_alike uniform hdata hk1 _ _ _ _ _).bind fun e1 e1' he1 => ?_
  refine (desGadget_alike uniform he1 hk2 _ _ _ _ _).bind fun d2 d2' hd2 => ?_
  exact desGadget_alike uniform hd2 hk1 _ _ _ _ _

end Gadgets

/-! ### The sections of the circuit -/

section Sections

variable {std : R1csStd} {same : std.Boolean → std.Boolean → Prop}
  {sameFp : std.FpVar → std.FpVar → Prop}

structure Wires.Same (same : std.Boolean → std.Boolean → Prop) (sameFp : std.FpVar → std.FpVar → Prop)
    (v v' : Wires std) : Prop where
  gsk : Along same v.gskLe v'.gskLe
  usk : Along same v.uskLe v'.uskLe
  idm : Along same v.idmLe v'.idmLe
  c1b : Along same v.c1bLe v'.c1bLe
  c2a : Along same v.c2aLe v'.c2aLe
  r2 : Along same v.r2Le v'.r2Le
  auth2 : Along same v.auth2Le v'.auth2Le
  piVars : Along sameFp v.piVars v'.piVars
  idi : Along same v.idiLe v'.idiLe
  r1 : Along same v.r1Le v'.r1Le

variable (uniform : std.Uniform same sameFp)
include uniform

theorem allocate_alike (c c' : FelicaCircuit) :
    Alike (Wires.Same same sameFp) (allocate std c) (allocate std c') := by
  refine (allocLeBits_alike uniform c.gsk c'.gsk).bind fun _ _ hgsk => ?_
  refine (allocLeBits_alike uniform c.usk c'.usk).bind fun _ _ husk => ?_
  refine (allocLeBits_alike uniform c.idm c'.idm).bind fun _ _ hidm => ?_
  refine (allocLeBits_alike uniform c.c1b c'.c1b).bind fun _ _ hc1b => ?_
  refine (allocLeBits_alike uniform c.c2a c'.c2a).bind fun _ _ hc2a => ?_
  refine (allocLeBits_alike uniform c.r2 c'.r2).bind fun _ _ hr2 => ?_
  refine (allocLeBits_alike uniform c.auth2 c'.auth2).bind fun _ _ hauth2 => ?_
  rw [PublicInputs.toFr_eq, PublicInputs.toFr_eq]
  refine (Alike.ofFnM fun i => uniform.newInput _ _).bind fun _ _ hpi => ?_
  refine (allocLeBits_alike uniform c.idi c'.idi).bind fun _ _ hidi => ?_
  refine (allocLeBits_alike uniform c.r1 c'.r1).bind fun _ _ hr1 => ?_
  exact Alike.pure ⟨hgsk, husk, hidm, hc1b, hc2a, hr2, hauth2, hpi, hidi, hr1⟩

omit uniform in
theorem forall₂_toList_along {n : ℕ} {v v' : Vector std.Boolean n} (h : Along same v v') :
    List.Forall₂ same v.toList v'.toList :=
  List.forall₂_iff_get.mpr ⟨by simp, fun i h1 h2 => by simpa using h i (by simpa using h1)⟩

variable {v v' : Wires std} (hv : v.Same same sameFp v')
include hv

theorem linkPublic_alike : Alike (fun _ _ => True) (linkPublic std v) (linkPublic std v') := by
  refine (uniform.leBitsToFp (forall₂_toList_along hv.idi)).bind fun _ _ hidi => ?_
  refine (uniform.fpEnforceEqual hidi (hv.piVars 0 (by decide))).bind fun _ _ _ => ?_
  refine (uniform.leBitsToFp (forall₂_toList_along hv.r1)).bind fun _ _ hr1 => ?_
  exact uniform.fpEnforceEqual hr1 (hv.piVars 1 (by decide))

theorem keySchedule_alike (c c' : FelicaCircuit) :
    Alike (fun s s' => Along same s.1 s'.1 ∧ Along same s.2 s'.2) (keySchedule std c v)
      (keySchedule std c' v') := by
  refine (xorVars_alike uniform hv.gsk hv.idm).bind fun lLe lLe' hl => ?_
  refine (desGadget_alike uniform (along_leToDes (n := 8) hv.usk) hl _ _ _ _ _).bind
    fun alphaDes alphaDes' halpha => ?_
  have halphaLe := along_desToLe (n := 8) (uniform.constant false) halpha
  refine (desGadget_alike uniform (along_leToDes (n := 8) hl) halphaLe _ _ _ _ _).bind
    fun betaDes betaDes' hbeta => ?_
  exact Alike.pure ⟨hl, along_desToLe (n := 8) (uniform.constant false) hbeta⟩

omit hv in
theorem challenge_alike (c c' : FelicaCircuit)
    {dataLe dataLe' responseLe responseLe' lLe lLe' betaLe betaLe' : Vector std.Boolean 64}
    (hdata : Along same dataLe dataLe') (hresponse : Along same responseLe responseLe')
    (hl : Along same lLe lLe') (hbeta : Along same betaLe betaLe') (wData wData' : Block) :
    Alike (fun _ _ => True) (challenge std c dataLe responseLe lLe betaLe wData)
      (challenge std c' dataLe' responseLe' lLe' betaLe' wData') := by
  refine (tdesEncryptGadget_alike uniform (along_leToDes (n := 8) hdata) hl hbeta _ _ _ _ _ _).bind
    fun _ _ he => ?_
  exact enforceVars_alike uniform he (along_leToDes (n := 8) hresponse)

theorem plaintextVars_alike (c c' : FelicaCircuit) :
    Alike (Along same) (plaintextVars std c v) (plaintextVars std c' v') := by
  have hct : ∀ i : Fin 4, Along same (leToDes 8 (chunk (n := 4) (m := 64) v.auth2Le i))
      (leToDes 8 (chunk (n := 4) (m := 64) v'.auth2Le i)) :=
    fun i => along_leToDes (n := 8) (Along.chunk (n := 4) (m := 64) hv.auth2 i)
  have hprev : ∀ i : Fin 4, Along same
      (if i.val = 0 then Vector.replicate 64 (std.constant false)
        else leToDes 8 (chunk (n := 4) (m := 64) v.auth2Le (i - 1)))
      (if i.val = 0 then Vector.replicate 64 (std.constant false)
        else leToDes 8 (chunk (n := 4) (m := 64) v'.auth2Le (i - 1))) := by
    intro i
    split
    · intro k hk
      simpa using uniform.constant false
    · exact hct _
  refine (Alike.ofFnM (R := Along same) fun i => ?_).bind fun ptDes ptDes' hpt =>
    Alike.pure (Along.flatten fun i hi => ?_)
  · exact (desGadget_alike uniform (hct i) hv.r2 _ _ _ _ _).bind fun _ _ hraw =>
      xorVars_alike uniform hraw (hprev i)
  · rw [Vector.getElem_map, Vector.getElem_map]
    exact along_desToLe (n := 8) (uniform.constant false) (hpt i hi)

omit hv in
theorem macConstraint_alike (c c' : FelicaCircuit) {ptLe ptLe' : Vector std.Boolean (4 * 64)}
    (hpt : Along same ptLe ptLe') :
    Alike (fun _ _ => True) (macConstraint std c ptLe) (macConstraint std c' ptLe') := by
  have hm0 : Along same
      (leToDes 8 ((leBits (macHeader 34 0x13)).map std.constant : Vector std.Boolean 64))
      (leToDes 8 ((leBits (macHeader 34 0x13)).map std.constant)) := by
    refine along_leToDes (n := 8) fun k hk => ?_
    rw [Vector.getElem_map]
    exact uniform.constant _
  have hstep : ∀ (m m' : Vector std.Boolean 64 × Block) (i i' : Fin 4), Along same m.1 m'.1 → i = i' →
      Alike (fun m m' => Along same m.1 m'.1) (macStep std c ptLe m i) (macStep std c' ptLe' m' i') := by
    rintro m m' i _ hm rfl
    exact (desGadget_alike uniform hm (hpt.chunk i) _ _ _ _ _).bind fun _ _ hnext => Alike.pure hnext
  refine (Alike.foldlM (K := Eq) hstep (List.forall₂_refl [0, 1, 2]) hm0).bind fun m m' hm => ?_
  exact enforceVars_alike uniform hm (along_leToDes (n := 8) (hpt.chunk 3))

theorem constrain_alike (c c' : FelicaCircuit) :
    Alike (fun _ _ => True) (constrain std c v) (constrain std c' v') := by
  refine (linkPublic_alike uniform hv).bind fun _ _ _ => ?_
  refine (keySchedule_alike uniform hv c c').bind fun s s' hs => ?_
  refine (challenge_alike uniform c c' hv.r1 hv.c1b hs.1 hs.2 _ _).bind fun _ _ _ => ?_
  refine (challenge_alike uniform c c' hv.r2 hv.c2a hs.1 hs.2 _ _).bind fun _ _ _ => ?_
  refine (plaintextVars_alike uniform hv c c').bind fun ptLe ptLe' hpt => ?_
  refine (macConstraint_alike uniform c c' hpt).bind fun _ _ _ => ?_
  refine (Alike.forEach fun i _ => uniform.enforceEqual (hpt i.val (by omega))
    (hv.r1 i.val i.isLt)).bind fun _ _ _ => ?_
  exact Alike.forEach fun i _ => uniform.enforceEqual (hpt (64 + i.val) (by omega))
    (hv.idi i.val i.isLt)

omit hv in
theorem generateConstraints_alike (c c' : FelicaCircuit) :
    Alike (fun _ _ => True) (generateConstraints std c) (generateConstraints std c') :=
  (allocate_alike uniform c c').bind fun _ _ hv => constrain_alike uniform hv c c'

end Sections

/-! ### The keys -/

/-- **One key for every session.**  Whatever its witnesses, consistent or not, a circuit
writes the constraints that the keys were made for, over as many variables of each kind.  So
what satisfies the setup is what satisfies the session, and a session's own values satisfy
the setup exactly when its transcript is consistent. -/
theorem setup_fits {std : R1csStd} (law : std.Lawful) {same : std.Boolean → std.Boolean → Prop}
    {sameFp : std.FpVar → std.FpVar → Prop} (uniform : std.Uniform same sameFp) :
    ∃ setup, (generateConstraints std .blank).run .new = .ok ((), setup)
      ∧ ∀ c, ∃ cs, (generateConstraints std c).run .new = .ok ((), cs) ∧ setup.SameShape cs
        ∧ (∀ w, setup.SatisfiedBy w ↔ cs.SatisfiedBy w)
        ∧ (setup.SatisfiedBy cs.assignment ↔ c.transcript.Consistent) := by
  obtain ⟨⟨⟩, setup, hsetup, -⟩ := generateConstraints_returns law .blank .new
  refine ⟨setup, hsetup, fun c => ?_⟩
  obtain ⟨⟨⟩, cs, hrun, -, hshape⟩ :=
    (generateConstraints_alike uniform .blank c).of_run (.refl _) hsetup
  refine ⟨cs, hrun, hshape, hshape.satisfiedBy_iff, ?_⟩
  rw [hshape.satisfiedBy_iff, ← ConstraintSystem.isSatisfied_iff, ← checkSatisfiable_of_run hrun,
    checkSatisfiable_iff law]

/-! ### The library -/

namespace ArkBoolean

/-- The same constant, or the same linear combination with any two values. -/
inductive Same : ArkBoolean → ArkBoolean → Prop
  | constant (v : Bool) : Same (constant v) (constant v)
  | var (u v : Bool) (lc : LinComb Fr) : Same (var u lc) (var v lc)

theorem Same.not {b b' : ArkBoolean} (h : Same b b') : Same b.not b'.not := by
  cases h with
  | constant v => exact .constant _
  | var u v lc => exact .var _ _ _

theorem Same.lc_eq {b b' : ArkBoolean} (h : Same b b') : b.lc = b'.lc := by
  cases h <;> rfl

theorem newWitness_alike (u v : Bool) : Alike Same (newWitness u) (newWitness v) := by
  refine (Alike.allocWitness _ _).bind fun x _ hx => ?_
  subst hx
  exact (Alike.enforce _).bind fun _ _ _ => Alike.pure (.var _ _ _)

theorem xor_alike {a a' b b' : ArkBoolean} (ha : Same a a') (hb : Same b b') :
    Alike Same (xor a b) (xor a' b') := by
  cases ha with
  | constant u =>
    cases u with
    | false => exact Alike.pure hb
    | true => exact Alike.pure hb.not
  | var u u' la =>
    cases hb with
    | constant v =>
      cases v with
      | false => exact Alike.pure (.var _ _ _)
      | true => exact Alike.pure (Same.var _ _ _).not
    | var v v' lb =>
      refine (Alike.allocWitness _ _).bind fun c _ hc => ?_
      subst hc
      exact (Alike.enforce _).bind fun _ _ _ => Alike.pure (.var _ _ _)

theorem enforceEqual_alike {a a' b b' : ArkBoolean} (ha : Same a a') (hb : Same b b') :
    Alike (fun _ _ => True) (enforceEqual a b) (enforceEqual a' b') := by
  cases ha with
  | constant u =>
    cases hb with
    | constant v =>
      show Alike _ (if u = v then _ else _) (if u = v then _ else _)
      split
      · exact Alike.pure trivial
      · exact Alike.fail _
    | var v v' lb => exact Alike.enforce _
  | var u u' la =>
    cases hb with
    | constant v => exact Alike.enforce _
    | var v v' lb => exact Alike.enforce _

theorem lcOfBits_eq {bits bits' : List ArkBoolean} (h : List.Forall₂ Same bits bits') :
    lcOfBits bits = lcOfBits bits' ∧ bits.all isConstant = bits'.all isConstant
      ∧ (bits.all isConstant = true → bits.map value = bits'.map value) := by
  induction h with
  | nil => exact ⟨rfl, rfl, fun _ => rfl⟩
  | cons hb _ ih =>
    obtain ⟨hlc, hall, hvalues⟩ := ih
    refine ⟨by rw [lcOfBits, lcOfBits, hb.lc_eq, hlc], ?_, fun h => ?_⟩
    · rw [List.all_cons, List.all_cons, hall]
      cases hb <;> rfl
    · rw [List.all_cons, Bool.and_eq_true] at h
      rw [List.map_cons, List.map_cons, hvalues h.2]
      cases hb with
      | constant v => rfl
      | var u v lc => cases h.1

end ArkBoolean

namespace ArkFp

inductive Same : ArkFp → ArkFp → Prop
  | constant (v : Fr) : Same (constant v) (constant v)
  | var (u v : Fr) (lc : LinComb Fr) : Same (var u lc) (var v lc)

theorem leBitsToFp_alike {bits bits' : List ArkBoolean} (h : List.Forall₂ ArkBoolean.Same bits bits') :
    Alike Same (ArkBoolean.leBitsToFp bits) (ArkBoolean.leBitsToFp bits') := by
  obtain ⟨hlc, hall, hvalues⟩ := ArkBoolean.lcOfBits_eq h
  simp only [ArkBoolean.leBitsToFp, ← hall, ← hlc, ← h.length_eq]
  by_cases hconst : bits.all ArkBoolean.isConstant = true
  · rw [if_pos hconst, if_pos hconst, hvalues hconst]
    exact Alike.pure (.constant _)
  · rw [if_neg hconst, if_neg hconst]
    split
    · exact Alike.pure (.var _ _ _)
    · exact Alike.fail _

theorem mul_alike {x x' y y' : ArkFp} (hx : Same x x') (hy : Same y y') :
    Alike Same (mul x y) (mul x' y') := by
  cases hx with
  | constant u =>
    cases hy with
    | constant v => exact Alike.pure (.constant _)
    | var v v' lb => exact Alike.pure (.var _ _ _)
  | var u u' la =>
    cases hy with
    | constant v => exact Alike.pure (.var _ _ _)
    | var v v' lb =>
      refine (Alike.allocWitness _ _).bind fun c _ hc => ?_
      subst hc
      exact (Alike.enforce _).bind fun _ _ _ => Alike.pure (.var _ _ _)

theorem enforceEqual_alike {x x' y y' : ArkFp} (hx : Same x x') (hy : Same y y') :
    Alike (fun _ _ => True) (enforceEqual x y) (enforceEqual x' y') := by
  cases hx with
  | constant u =>
    cases hy with
    | constant v =>
      show Alike _ (if u = v then _ else _) (if u = v then _ else _)
      split
      · exact Alike.pure trivial
      · exact Alike.fail _
    | var v v' lb => exact Alike.enforce _
  | var u u' la =>
    cases hy with
    | constant v => exact Alike.enforce _
    | var v v' lb => exact Alike.enforce _

end ArkFp

theorem arkStd_uniform : arkStd.Uniform ArkBoolean.Same ArkFp.Same where
  constant v := .constant v
  newWitness := ArkBoolean.newWitness_alike
  xor := ArkBoolean.xor_alike
  enforceEqual := ArkBoolean.enforceEqual_alike
  leBitsToFp := ArkFp.leBitsToFp_alike
  fpConstant c := .constant c
  newInput u v := by
    refine (Alike.allocInstance u v).bind fun x _ hx => ?_
    subst hx
    exact Alike.pure (.var _ _ _)
  mul := ArkFp.mul_alike
  addConstant {x x'} h c := by
    cases h with
    | constant v => exact .constant _
    | var u v lc => exact .var _ _ _
  fpEnforceEqual := ArkFp.enforceEqual_alike

/-- The documented library makes one key for every session. -/
theorem setup_fits_arkStd :
    ∃ setup, (generateConstraints arkStd .blank).run .new = .ok ((), setup)
      ∧ ∀ c, ∃ cs, (generateConstraints arkStd c).run .new = .ok ((), cs) ∧ setup.SameShape cs
        ∧ (∀ w, setup.SatisfiedBy w ↔ cs.SatisfiedBy w)
        ∧ (setup.SatisfiedBy cs.assignment ↔ c.transcript.Consistent) :=
  setup_fits arkStd_lawful arkStd_uniform

end SuiCash.Prover
