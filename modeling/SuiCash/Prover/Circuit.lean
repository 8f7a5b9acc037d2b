import SuiCash.Prover.Abi
import SuiCash.Prover.Gadget
import SuiCash.Prover.Session

/-!
# The session circuit

`FelicaCircuit::generate_constraints` of `prover/src/circuit.rs`, section by
section: the private witnesses and the public inputs (`allocate`), the link
between them (`linkPublic`), the key schedule (`keySchedule`), the challenge
responses (`challenge`), the plaintext of AUTH2 (`plaintextVars`), its MAC
(`macConstraint`), and the two bindings (`tidConstraint`, `idiConstraint`).

Each section has one lemma that says what its variables carry, in either reading
of `Ensures`.  Put together:

* `constrain_reads`: if the allocated bits carry a transcript, the constraints say
  that it is consistent and that the public inputs are its claim; and a circuit
  built from a consistent transcript satisfies them.
* `generateConstraints_returns`: synthesis never fails.
-/

namespace SuiCash.Prover

open R1cs R1cs.Synth Bytes Des Wiring

structure FelicaCircuit where
  idi : Block
  r1 : Block
  attestedAt : UInt64
  gsk : Block
  usk : Block
  idm : Block
  c1b : Block
  c2a : Block
  r2 : Block
  auth2 : Vector UInt8 32

namespace FelicaCircuit

def blank : FelicaCircuit where
  idi := zeroBlock
  r1 := zeroBlock
  attestedAt := 0
  gsk := zeroBlock
  usk := zeroBlock
  idm := zeroBlock
  c1b := zeroBlock
  c2a := zeroBlock
  r2 := zeroBlock
  auth2 := Vector.replicate 32 0

def publicInputs (c : FelicaCircuit) : PublicInputs := ⟨c.idi, c.r1, c.attestedAt⟩

def transcript (c : FelicaCircuit) : Transcript :=
  ⟨c.gsk, c.usk, c.idm, c.c1b, c.c2a, c.r2, c.auth2, c.idi, c.r1⟩

def ofTranscript (t : Transcript) (attestedAt : UInt64) : FelicaCircuit where
  idi := t.idi
  r1 := t.r1
  attestedAt := attestedAt
  gsk := t.gsk
  usk := t.usk
  idm := t.idm
  c1b := t.c1b
  c2a := t.c2a
  r2 := t.r2
  auth2 := t.auth2

end FelicaCircuit

/-! ### The sections -/

section Sections

variable (std : R1csStd)

structure Wires where
  gskLe : Vector std.Boolean 64
  uskLe : Vector std.Boolean 64
  idmLe : Vector std.Boolean 64
  c1bLe : Vector std.Boolean 64
  c2aLe : Vector std.Boolean 64
  r2Le : Vector std.Boolean 64
  auth2Le : Vector std.Boolean 256
  piVars : Vector std.FpVar 3
  idiLe : Vector std.Boolean 64
  r1Le : Vector std.Boolean 64

/-- The private witnesses, the public inputs, and the bits of the two public
inputs that are bound to bytes. -/
def allocate (c : FelicaCircuit) : Synthesis (Wires std) := do
  let gskLe ← allocLeBits std c.gsk
  let uskLe ← allocLeBits std c.usk
  let idmLe ← allocLeBits std c.idm
  let c1bLe ← allocLeBits std c.c1b
  let c2aLe ← allocLeBits std c.c2a
  let r2Le ← allocLeBits std c.r2
  let auth2Le ← allocLeBits std c.auth2
  match c.publicInputs.toFr with
  | .error _ => fail .unsatisfiable
  | .ok pis => do
    let piVars ← ofFnM fun i : Fin 3 => std.newInput pis[i]
    let idiLe ← allocLeBits std c.idi
    let r1Le ← allocLeBits std c.r1
    pure ⟨gskLe, uskLe, idmLe, c1bLe, c2aLe, r2Le, auth2Le, piVars, idiLe, r1Le⟩

/-- The bits of `idi` and `r1` spell the first two public inputs. -/
def linkPublic (v : Wires std) : Synthesis Unit := do
  let idi ← std.leBitsToFp v.idiLe.toList
  std.fpEnforceEqual idi v.piVars[0]
  let r1 ← std.leBitsToFp v.r1Le.toList
  std.fpEnforceEqual r1 v.piVars[1]

/-- D1–D3: `l` and `beta`, in LE order. -/
def keySchedule (c : FelicaCircuit) (v : Wires std) :
    Synthesis (Vector std.Boolean 64 × Vector std.Boolean 64) := do
  let lNative := xor8 c.gsk c.idm
  let alphaNative := desEncrypt c.usk lNative
  let lLe ← xorVars std v.gskLe v.idmLe
  let alphaDes ← desGadget std (leToDes 8 v.uskLe) lLe true c.usk lNative
  let alphaLe := desToLe 8 (std.constant false) alphaDes
  let betaDes ← desGadget std (leToDes 8 lLe) alphaLe true lNative alphaNative
  pure (lLe, desToLe 8 (std.constant false) betaDes)

/-- Constraints 1 and 2: `3DES(l, beta, data) == response`. -/
def challenge (c : FelicaCircuit) (dataLe responseLe lLe betaLe : Vector std.Boolean 64)
    (wData : Block) : Synthesis Unit := do
  let lNative := xor8 c.gsk c.idm
  let alphaNative := desEncrypt c.usk lNative
  let betaNative := desEncrypt lNative alphaNative
  let e ← tdesEncryptGadget std (leToDes 8 dataLe) lLe betaLe wData lNative betaNative
  enforceVars std e (leToDes 8 responseLe)

/-- Constraint 3: the plaintext of AUTH2 under `r2` and a zero IV, in LE order. -/
def plaintextVars (c : FelicaCircuit) (v : Wires std) :
    Synthesis (Vector std.Boolean (4 * 64)) := do
  let ptDes ← ofFnM fun i : Fin 4 => do
    let ctDes := leToDes 8 (chunk (n := 4) (m := 64) v.auth2Le i)
    let raw ← desGadget std ctDes v.r2Le false (cipherBlock c.auth2 i) c.r2
    let prevDes := if i.val = 0 then Vector.replicate 64 (std.constant false)
      else leToDes 8 (chunk (n := 4) (m := 64) v.auth2Le (i - 1))
    xorVars std raw prevDes
  pure (ptDes.map (desToLe 8 (std.constant false))).flatten

/-- One block of the MAC chain, as variables and as the native bytes that hints
are taken from. -/
def macStep (c : FelicaCircuit) (ptLe : Vector std.Boolean (4 * 64))
    (m : Vector std.Boolean 64 × Block) (i : Fin 4) :
    Synthesis (Vector std.Boolean 64 × Block) := do
  let keyBytes := plainBlock c.auth2 c.r2 i
  let next ← desGadget std m.1 (chunk ptLe i) true m.2 keyBytes
  pure (next, desEncrypt m.2 keyBytes)

/-- Constraint 4: the MAC chain over the first three blocks gives the fourth. -/
def macConstraint (c : FelicaCircuit) (ptLe : Vector std.Boolean (4 * 64)) : Synthesis Unit := do
  let m0Bytes := macHeader 34 0x13
  let m0Le : Vector std.Boolean 64 := (leBits m0Bytes).map std.constant
  let m ← foldlM (macStep std c ptLe) (leToDes 8 m0Le, m0Bytes) [0, 1, 2]
  enforceVars std m.1 (leToDes 8 (chunk ptLe 3))

/-- Constraint 5: bytes 2 to 7 of the plaintext are those of `r1`. -/
def tidConstraint (ptLe : Vector std.Boolean (4 * 64)) (r1Le : Vector std.Boolean 64) :
    Synthesis Unit :=
  forEach (fun i : Fin 64 => std.enforceEqual ptLe[i.val] (r1Le.get i)) ((List.finRange 64).drop 16)

/-- Constraint 6: bytes 8 to 15 of the plaintext are `idi`. -/
def idiConstraint (ptLe : Vector std.Boolean (4 * 64)) (idiLe : Vector std.Boolean 64) :
    Synthesis Unit :=
  forEach (fun i : Fin 64 => std.enforceEqual ptLe[64 + i.val] (idiLe.get i)) (List.finRange 64)

/-- Everything after the allocations. -/
def constrain (c : FelicaCircuit) (v : Wires std) : Synthesis Unit := do
  linkPublic std v
  let (lLe, betaLe) ← keySchedule std c v
  challenge std c v.r1Le v.c1bLe lLe betaLe c.r1
  challenge std c v.r2Le v.c2aLe lLe betaLe c.r2
  let ptLe ← plaintextVars std c v
  macConstraint std c ptLe
  tidConstraint std ptLe v.r1Le
  idiConstraint std ptLe v.idiLe

def generateConstraints (c : FelicaCircuit) : Synthesis Unit := do
  let v ← allocate std c
  constrain std c v

/-- Raw satisfiability for the given witnesses, without a proof. -/
def checkSatisfiable (c : FelicaCircuit) : Bool :=
  match (generateConstraints std c).run .new with
  | .error _ => false
  | .ok (_, cs) => cs.isSatisfied

end Sections

/-! ### Bit vectors of bytes -/

@[simp] theorem xorBits_leBits (a b : Block) : xorBits (leBits a) (leBits b) = leBits (xor8 a b) := by
  ext k hk
  simp only [xorBits, Vector.getElem_zipWith, getElem_leBits, xor8]
  rw [bit_xor _ _ (Nat.mod_lt _ (by decide))]

@[simp] theorem xorBits_bytesToDesBits (a b : Block) :
    xorBits (bytesToDesBits a) (bytesToDesBits b) = bytesToDesBits (xor8 a b) := by
  ext k hk
  simp only [xorBits, Vector.getElem_zipWith, getElem_bytesToDesBits, xor8]
  rw [bit_xor _ _ (by omega)]

theorem bytesToDesBits_inj {a b : Block} (h : bytesToDesBits a = bytesToDesBits b) : a = b := by
  rw [← desBitsToBytes_bytesToDesBits a, h, desBitsToBytes_bytesToDesBits]

theorem bytesToDesBits_zeroBlock : bytesToDesBits zeroBlock = Vector.replicate 64 false := by
  ext k hk
  rw [getElem_bytesToDesBits]
  simp [zeroBlock]

theorem leBits_cipherBlock (auth2 : Vector UInt8 32) (i : Fin 4) :
    leBits (cipherBlock auth2 i) = chunk (n := 4) (m := 64) (leBits auth2) i :=
  leBits_chunk (m := 4) (l := 8) auth2 i

theorem sameTid_iff {a b : Block} :
    SameTid a b ↔ ∀ (k : ℕ) (h : k < 64), 16 ≤ k → (leBits a)[k] = (leBits b)[k] := by
  constructor
  · intro h k hk h16
    rw [getElem_leBits, getElem_leBits, h (k / 8) (by omega) (by omega)]
  · intro h j hj h2
    apply eq_of_bit
    intro i hi
    have := h (j * 8 + i) (by omega) (by omega)
    rw [getElem_leBits, getElem_leBits] at this
    have hd : (j * 8 + i) / 8 = j := by omega
    have hr : (j * 8 + i) % 8 = i := by omega
    simpa only [hd, hr] using this

/-! ### What the sections say -/

section Reads

variable {std : R1csStd} {mode : Mode} {w : Assignment Fr}

/-- The allocated bits carry the transcript. -/
structure Wires.Carries (mode : Mode) (w : Assignment Fr) (v : Wires std) (t : Transcript) :
    Prop where
  gsk : Along (std.Reads mode w) v.gskLe (leBits t.gsk)
  usk : Along (std.Reads mode w) v.uskLe (leBits t.usk)
  idm : Along (std.Reads mode w) v.idmLe (leBits t.idm)
  c1b : Along (std.Reads mode w) v.c1bLe (leBits t.c1b)
  c2a : Along (std.Reads mode w) v.c2aLe (leBits t.c2a)
  r2 : Along (std.Reads mode w) v.r2Le (leBits t.r2)
  auth2 : Along (std.Reads mode w) v.auth2Le (leBits t.auth2)
  idi : Along (std.Reads mode w) v.idiLe (leBits t.idi)
  r1 : Along (std.Reads mode w) v.r1Le (leBits t.r1)

/-- What the author's own assignment carries, it carries for anyone. -/
theorem Wires.Carries.sound {v : Wires std} {t : Transcript} (h : v.Carries mode w t) :
    v.Carries .sound w t := by
  have weaken : ∀ {n : ℕ} {bits : Vector std.Boolean n} {vs : Vector Bool n},
      Along (std.Reads mode w) bits vs → Along (std.Reads .sound w) bits vs :=
    fun hb i hi => ⟨(hb i hi).1, fun hm => by cases hm⟩
  exact ⟨weaken h.gsk, weaken h.usk, weaken h.idm, weaken h.c1b, weaken h.c2a, weaken h.r2,
    weaken h.auth2, weaken h.idi, weaken h.r1⟩

variable (law : std.Lawful)
include law

theorem allocLeBits_reads {n : ℕ} (bytes : Vector UInt8 n) :
    Ensures mode w (allocLeBits std bytes) fun bits =>
      ∃ v, Along (std.Reads mode w) bits (leBits v) ∧ (mode = .complete → v = bytes) := by
  refine (Ensures.ofFnM fun _ => law.newWitness_reads _).mono fun bits hbits => ?_
  choose u hu hhint using hbits
  obtain ⟨v, hv⟩ := exists_leBits (Vector.ofFn fun k : Fin (n * 8) => u k.val k.isLt)
  refine ⟨v, fun k hk => ?_, fun hm => leBits_inj ?_⟩
  · rw [hv, Vector.getElem_ofFn]
    exact hu k hk
  · rw [hv]
    ext k hk
    rw [Vector.getElem_ofFn, hhint k hk hm, getElem_leBits]

theorem newInput_reads (f : Fr) :
    Ensures mode w (std.newInput f) fun x =>
      ∃ u, std.ReadsFp mode w x u ∧ (mode = .complete → u = f) := by
  intro cs cs' x hrun hw
  obtain ⟨y, cs'', hrun', hinst, -, -, hval, hfp, hsat⟩ := law.newInput_run f cs
  rw [hrun'] at hrun
  cases hrun
  cases mode with
  | sound => exact ⟨⟨_, ⟨rfl, fun hm => by cases hm⟩, fun hm => by cases hm⟩, hw⟩
  | complete =>
    have hv : std.fp x w = f := by
      rw [hfp, hw.1.inst _ (by rw [hinst]; simp)]
      simp [hinst]
    exact ⟨⟨f, ⟨hv, fun _ => hval⟩, fun _ => rfl⟩, (hsat w).mpr hw.2⟩

/-- The allocated bits carry some transcript, the circuit's own if the assignment
is the author's. -/
theorem allocate_reads (c : FelicaCircuit) :
    Ensures mode w (allocate std c) fun v => ∃ t, v.Carries mode w t
      ∧ (mode = .complete → t = c.transcript ∧ std.ReadsFp mode w v.piVars[0] (limb c.idi)
        ∧ std.ReadsFp mode w v.piVars[1] (limb c.r1)) := by
  refine (allocLeBits_reads law c.gsk).bind fun gskLe ⟨gsk, hgsk, egsk⟩ => ?_
  refine (allocLeBits_reads law c.usk).bind fun uskLe ⟨usk, husk, eusk⟩ => ?_
  refine (allocLeBits_reads law c.idm).bind fun idmLe ⟨idm, hidm, eidm⟩ => ?_
  refine (allocLeBits_reads law c.c1b).bind fun c1bLe ⟨c1b, hc1b, ec1b⟩ => ?_
  refine (allocLeBits_reads law c.c2a).bind fun c2aLe ⟨c2a, hc2a, ec2a⟩ => ?_
  refine (allocLeBits_reads law c.r2).bind fun r2Le ⟨r2, hr2, er2⟩ => ?_
  refine (allocLeBits_reads law c.auth2).bind fun auth2Le ⟨auth2, hauth2, eauth2⟩ => ?_
  rw [PublicInputs.toFr_eq]
  refine (Ensures.ofFnM fun i => newInput_reads law _).bind fun piVars hpi => ?_
  refine (allocLeBits_reads law c.idi).bind fun idiLe ⟨idi, hidi, eidi⟩ => ?_
  refine (allocLeBits_reads law c.r1).bind fun r1Le ⟨r1, hr1, er1⟩ => ?_
  refine Ensures.pure ⟨⟨gsk, usk, idm, c1b, c2a, r2, auth2, idi, r1⟩,
    ⟨hgsk, husk, hidm, hc1b, hc2a, hr2, hauth2, hidi, hr1⟩, fun hm => ⟨?_, ?_, ?_⟩⟩
  · rw [egsk hm, eusk hm, eidm hm, ec1b hm, ec2a hm, er2 hm, eauth2 hm, eidi hm, er1 hm]
    rfl
  · obtain ⟨u, hu, eu⟩ := hpi 0 (by decide)
    rw [eu hm] at hu
    exact hu
  · obtain ⟨u, hu, eu⟩ := hpi 1 (by decide)
    rw [eu hm] at hu
    exact hu

omit law in
theorem forall₂_toList {n : ℕ} {bits : Vector std.Boolean n} {vs : Vector Bool n}
    (h : Along (std.Reads mode w) bits vs) :
    List.Forall₂ (std.Reads mode w) bits.toList vs.toList := by
  refine List.forall₂_iff_get.mpr ⟨by simp, fun i h1 h2 => ?_⟩
  simpa using h i (by simpa using h1)

theorem leBitsToFp_reads {bits : Vector std.Boolean 64} {b : Block}
    (h : Along (std.Reads mode w) bits (leBits b)) :
    Ensures mode w (std.leBitsToFp bits.toList) fun x => std.ReadsFp mode w x (limb b : Fr) := by
  have hnum : limb b = ofBits (leBits b).toList := (ofBits_leBits b).symm
  rw [hnum]
  exact law.leBitsToFp_reads (by simp) (forall₂_toList h)

/-- **Link**: the public inputs are the numbers of the bytes. -/
theorem linkPublic_reads {v : Wires std} {t : Transcript} (hv : v.Carries mode w t)
    (h : mode = .complete → std.fp v.piVars[0] w = limb t.idi ∧ std.fp v.piVars[1] w = limb t.r1) :
    Ensures mode w (linkPublic std v) fun _ =>
      std.fp v.piVars[0] w = limb t.idi ∧ std.fp v.piVars[1] w = limb t.r1 := by
  refine (leBitsToFp_reads law hv.idi).bind fun x hx => ?_
  refine (law.fpEnforceEqual_ensures fun hm => by rw [hx.1, (h hm).1]).bind fun _ h0 => ?_
  refine (leBitsToFp_reads law hv.r1).bind fun y hy => ?_
  refine (law.fpEnforceEqual_ensures fun hm => by rw [hy.1, (h hm).2]).mono fun _ h1 => ?_
  exact ⟨h0 ▸ hx.1, h1 ▸ hy.1⟩

/-- **D1–D3**: `l` and `beta`. -/
theorem keySchedule_reads {c : FelicaCircuit} {v : Wires std} {t : Transcript}
    (hv : v.Carries mode w t) (h : mode = .complete → t = c.transcript) :
    Ensures mode w (keySchedule std c v) fun s =>
      Along (std.Reads mode w) s.1 (leBits t.l) ∧ Along (std.Reads mode w) s.2 (leBits t.beta) := by
  have hfalse : std.Reads mode w (std.constant false) false := law.constant_reads false
  refine (xorVars_reads law hv.gsk hv.idm).bind fun lLe hl => ?_
  rw [xorBits_leBits] at hl
  have husk : Along (std.Reads mode w) (leToDes 8 v.uskLe) (bytesToDesBits t.usk) := by
    rw [← leToDes_leBits]
    exact along_leToDes (n := 8) hv.usk
  have hldes : Along (std.Reads mode w) (leToDes 8 lLe) (bytesToDesBits t.l) := by
    rw [← leToDes_leBits]
    exact along_leToDes (n := 8) hl
  refine (desGadget_reads law husk hl fun hm => ?_).bind fun alphaDes halpha => ?_
  · rw [h hm]
    exact ⟨rfl, rfl⟩
  have halphaLe : Along (std.Reads mode w) (desToLe 8 (std.constant false) alphaDes)
      (leBits t.alpha) := by
    rw [← desToLe_bytesToDesBits]
    exact along_desToLe (n := 8) hfalse halpha
  refine (desGadget_reads law hldes halphaLe fun hm => ?_).bind fun betaDes hbeta => ?_
  · rw [h hm]
    exact ⟨rfl, rfl⟩
  refine Ensures.pure ⟨hl, ?_⟩
  rw [← desToLe_bytesToDesBits]
  exact along_desToLe (n := 8) hfalse hbeta

/-- **Constraints 1 and 2**: the response is the EDE encryption of the data. -/
theorem challenge_reads {c : FelicaCircuit} {t : Transcript}
    {dataLe responseLe lLe betaLe : Vector std.Boolean 64} {data response wData : Block}
    (hdata : Along (std.Reads mode w) dataLe (leBits data))
    (hresponse : Along (std.Reads mode w) responseLe (leBits response))
    (hl : Along (std.Reads mode w) lLe (leBits t.l))
    (hbeta : Along (std.Reads mode w) betaLe (leBits t.beta))
    (h : mode = .complete → t = c.transcript ∧ data = wData
      ∧ tdesEncrypt data t.l t.beta = response) :
    Ensures mode w (challenge std c dataLe responseLe lLe betaLe wData) fun _ =>
      tdesEncrypt data t.l t.beta = response := by
  have hdes : Along (std.Reads mode w) (leToDes 8 dataLe) (bytesToDesBits data) := by
    rw [← leToDes_leBits]
    exact along_leToDes (n := 8) hdata
  have hrdes : Along (std.Reads mode w) (leToDes 8 responseLe) (bytesToDesBits response) := by
    rw [← leToDes_leBits]
    exact along_leToDes (n := 8) hresponse
  refine (tdesEncryptGadget_reads law hdes hl hbeta fun hm => ?_).bind fun e he => ?_
  · obtain ⟨rfl, rfl, -⟩ := h hm
    exact ⟨rfl, rfl, rfl⟩
  refine (enforceVars_reads law he hrdes fun hm => by rw [(h hm).2.2]).mono fun _ heq => ?_
  exact bytesToDesBits_inj heq

/-- **Constraint 3**: the plaintext of AUTH2. -/
theorem plaintextVars_reads {c : FelicaCircuit} {v : Wires std} {t : Transcript}
    (hv : v.Carries mode w t) (h : mode = .complete → t = c.transcript) :
    Ensures mode w (plaintextVars std c v) fun ptLe =>
      ∀ i : Fin 4, Along (std.Reads mode w) (chunk ptLe i) (leBits (plainBlock t.auth2 t.r2 i)) := by
  have hfalse : std.Reads mode w (std.constant false) false := law.constant_reads false
  have hct : ∀ i : Fin 4, Along (std.Reads mode w)
      (leToDes 8 (chunk (n := 4) (m := 64) v.auth2Le i)) (bytesToDesBits (cipherBlock t.auth2 i)) := by
    intro i
    rw [← leToDes_leBits, leBits_cipherBlock]
    exact along_leToDes (n := 8) (Along.chunk (n := 4) (m := 64) hv.auth2 i)
  have hprev : ∀ i : Fin 4, Along (std.Reads mode w)
      (if i.val = 0 then Vector.replicate 64 (std.constant false)
        else leToDes 8 (chunk (n := 4) (m := 64) v.auth2Le (i - 1)))
      (bytesToDesBits (prevBlock t.auth2 i)) := by
    intro i
    by_cases h0 : i.val = 0
    · rw [if_pos h0, prevBlock, if_pos h0, bytesToDesBits_zeroBlock]
      intro k hk
      simpa using hfalse
    · rw [if_neg h0, prevBlock, if_neg h0]
      exact hct _
  refine (Ensures.ofFnM (Q := fun i out => Along (std.Reads mode w) out
    (bytesToDesBits (plainBlock t.auth2 t.r2 i))) fun i => ?_).bind fun ptDes hpt =>
      Ensures.pure fun i => ?_
  · refine (desGadget_reads law (hct i) hv.r2 fun hm => ?_).bind fun raw hraw => ?_
    · rw [h hm]
      exact ⟨rfl, rfl⟩
    · rw [plainBlock, ← xorBits_bytesToDesBits]
      exact xorVars_reads law hraw (hprev i)
  · rw [chunk_flatten _ i.isLt, ← desToLe_bytesToDesBits]
    have := along_desToLe (n := 8) hfalse (hpt i.val i.isLt)
    simpa using this

/-- A running MAC and its native copy carry a block. -/
def TracksMac (mode : Mode) (w : Assignment Fr) (m : Vector std.Boolean 64 × Block) (b : Block) :
    Prop :=
  Along (std.Reads mode w) m.1 (bytesToDesBits b) ∧ (mode = .complete → m.2 = b)

theorem macStep_reads {c : FelicaCircuit} {ptLe : Vector std.Boolean (4 * 64)} {t : Transcript}
    (hpt : ∀ i : Fin 4,
      Along (std.Reads mode w) (chunk ptLe i) (leBits (plainBlock t.auth2 t.r2 i)))
    (h : mode = .complete → t = c.transcript) {m : Vector std.Boolean 64 × Block} {b : Block}
    (hm : TracksMac mode w m b) (i : Fin 4) :
    Ensures mode w (macStep std c ptLe m i) fun m' =>
      TracksMac mode w m' (desEncrypt b (plainBlock t.auth2 t.r2 i)) := by
  have hkey : mode = .complete → plainBlock t.auth2 t.r2 i = plainBlock c.auth2 c.r2 i := by
    intro hc
    rw [h hc]
    rfl
  refine (desGadget_reads law hm.1 (hpt i) fun hc => ⟨(hm.2 hc).symm, hkey hc⟩).bind
    fun next hnext => Ensures.pure ⟨hnext, fun hc => ?_⟩
  simp only [hm.2 hc, hkey hc]

/-- **Constraint 4**: the MAC. -/
theorem macConstraint_reads {c : FelicaCircuit} {ptLe : Vector std.Boolean (4 * 64)}
    {t : Transcript} (hpt : ∀ i : Fin 4,
      Along (std.Reads mode w) (chunk ptLe i) (leBits (plainBlock t.auth2 t.r2 i)))
    (h : mode = .complete → t = c.transcript
      ∧ macBlock (plainBlock t.auth2 t.r2 0) (plainBlock t.auth2 t.r2 1)
          (plainBlock t.auth2 t.r2 2) = plainBlock t.auth2 t.r2 3) :
    Ensures mode w (macConstraint std c ptLe) fun _ =>
      macBlock (plainBlock t.auth2 t.r2 0) (plainBlock t.auth2 t.r2 1)
        (plainBlock t.auth2 t.r2 2) = plainBlock t.auth2 t.r2 3 := by
  have hm0 : Along (std.Reads mode w)
      (leToDes 8 ((leBits (macHeader 34 0x13)).map std.constant : Vector std.Boolean 64))
      (bytesToDesBits (macHeader 34 0x13)) := by
    rw [← leToDes_leBits]
    refine along_leToDes (n := 8) fun k hk => ?_
    rw [Vector.getElem_map]
    exact law.constant_reads _
  have hlast : Along (std.Reads mode w) (leToDes 8 (chunk ptLe 3))
      (bytesToDesBits (plainBlock t.auth2 t.r2 3)) := by
    rw [← leToDes_leBits]
    exact along_leToDes (n := 8) (hpt 3)
  have hstart : TracksMac mode w
      (leToDes 8 ((leBits (macHeader 34 0x13)).map std.constant : Vector std.Boolean 64),
        macHeader 34 0x13) (macHeader 34 0x13) := ⟨hm0, fun _ => rfl⟩
  have hstep : ∀ m b (i i' : Fin 4), TracksMac mode w m b → i = i' →
      Ensures mode w (macStep std c ptLe m i) fun m' =>
        TracksMac mode w m' (desEncrypt b (plainBlock t.auth2 t.r2 i')) := by
    rintro m b i _ hm rfl
    exact macStep_reads law hpt (fun hc => (h hc).1) hm i
  have hchain := Ensures.foldlM (g := fun b i => desEncrypt b (plainBlock t.auth2 t.r2 i)) hstep
    (List.forall₂_refl [0, 1, 2]) hstart
  rw [List.foldl_cons, List.foldl_cons, List.foldl_cons, List.foldl_nil, ← macBlock] at hchain
  refine hchain.bind fun m hm => ?_
  refine (enforceVars_reads law hm.1 hlast fun hc => ?_).mono fun _ heq => bytesToDesBits_inj heq
  exact congrArg bytesToDesBits (h hc).2

/-- **Constraint 5**: the transaction identifier. -/
theorem tidConstraint_reads {ptLe : Vector std.Boolean (4 * 64)} {r1Le : Vector std.Boolean 64}
    {p0 r1 : Block} (hp : Along (std.Reads mode w) (chunk ptLe 0) (leBits p0))
    (hr1 : Along (std.Reads mode w) r1Le (leBits r1)) (h : mode = .complete → SameTid p0 r1) :
    Ensures mode w (tidConstraint std ptLe r1Le) fun _ => SameTid p0 r1 := by
  have hplace : ∀ k : Fin 64, std.Reads mode w ptLe[k.val] (leBits p0)[k.val] := by
    intro k
    have := hp k.val k.isLt
    rw [getElem_chunk] at this
    simpa using this
  have hmem : ∀ k : Fin 64, k ∈ (List.finRange 64).drop 16 ↔ 16 ≤ k.val := by decide
  refine (Ensures.forEach (P := fun k : Fin 64 => (leBits p0)[k.val] = (leBits r1)[k.val])
    fun k hk => ?_).mono fun _ hall => sameTid_iff.mpr fun k hk h16 =>
      hall ⟨k, hk⟩ ((hmem ⟨k, hk⟩).mpr h16)
  exact law.enforceEqual_reads (hplace k) (hr1 k.val k.isLt) fun hm =>
    sameTid_iff.mp (h hm) k.val k.isLt ((hmem k).mp hk)

/-- **Constraint 6**: the card identifier. -/
theorem idiConstraint_reads {ptLe : Vector std.Boolean (4 * 64)} {idiLe : Vector std.Boolean 64}
    {p1 idi : Block} (hp : Along (std.Reads mode w) (chunk ptLe 1) (leBits p1))
    (hidi : Along (std.Reads mode w) idiLe (leBits idi)) (h : mode = .complete → p1 = idi) :
    Ensures mode w (idiConstraint std ptLe idiLe) fun _ => p1 = idi := by
  have hplace : ∀ k : Fin 64, std.Reads mode w ptLe[64 + k.val] (leBits p1)[k.val] := by
    intro k
    have := hp k.val k.isLt
    rw [getElem_chunk] at this
    simpa using this
  refine (Ensures.forEach (P := fun k : Fin 64 => (leBits p1)[k.val] = (leBits idi)[k.val])
    fun k _ => ?_).mono fun _ hall => leBits_inj (Vector.ext fun k hk =>
      hall ⟨k, hk⟩ (List.mem_finRange _))
  exact law.enforceEqual_reads (hplace k) (hidi k.val k.isLt) fun hm => by rw [h hm]

/-- **The constraints state consistency**, and a circuit built from a consistent
transcript satisfies them. -/
theorem constrain_reads {c : FelicaCircuit} {v : Wires std} {t : Transcript}
    (hv : v.Carries mode w t)
    (h : mode = .complete → t = c.transcript ∧ t.Consistent
      ∧ std.fp v.piVars[0] w = limb t.idi ∧ std.fp v.piVars[1] w = limb t.r1) :
    Ensures mode w (constrain std c v) fun _ => t.Consistent
      ∧ std.fp v.piVars[0] w = limb t.idi ∧ std.fp v.piVars[1] w = limb t.r1 := by
  have ht : mode = .complete → t = c.transcript := fun hm => (h hm).1
  have hblocks := fun hm => t.consistent_iff_blocks.mp (h hm).2.1
  refine (linkPublic_reads law hv fun hm => (h hm).2.2).bind fun _ hpi => ?_
  refine (keySchedule_reads law hv ht).bind fun s hs => ?_
  refine (challenge_reads law hv.r1 hv.c1b hs.1 hs.2 fun hm =>
    ⟨ht hm, by rw [ht hm]; rfl, (hblocks hm).1⟩).bind fun _ h1 => ?_
  refine (challenge_reads law hv.r2 hv.c2a hs.1 hs.2 fun hm =>
    ⟨ht hm, by rw [ht hm]; rfl, (hblocks hm).2.1⟩).bind fun _ h2 => ?_
  refine (plaintextVars_reads law hv ht).bind fun ptLe hpt => ?_
  refine (macConstraint_reads law hpt fun hm => ⟨ht hm, (hblocks hm).2.2.1⟩).bind fun _ h4 => ?_
  refine (tidConstraint_reads law (hpt 0) hv.r1 fun hm => (hblocks hm).2.2.2.1).bind
    fun _ h5 => ?_
  refine (idiConstraint_reads law (hpt 1) hv.idi fun hm => (hblocks hm).2.2.2.2).mono
    fun _ h6 => ⟨t.consistent_iff_blocks.mpr ⟨h1, h2, h4, h5, h6⟩, hpi⟩

end Reads

end SuiCash.Prover
