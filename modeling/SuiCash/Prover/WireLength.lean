import SuiCash.Prover.Wire

/-!
# What length a field of the wire has

A coordinate and a public input are 32 bytes, but nothing in `prover/src/lib.rs`
counts them: `deserialize_compressed` takes its 32 bytes from the front of what the
hex decodes to and leaves the rest.  A string that is too short is refused; one that
is too long is read as its beginning.

`lengthStrict_iff` says when that is seen.  The wire form is strict for a proof, each
field the 32 bytes of what it is read as, unless the proof is accepted by the
beginnings of its strings and one of them is longer.  Where it is strict, the points
and the scalars determine the bytes.
-/

namespace SuiCash.Prover

open Bytes Fallible

/-! ### Fields of 32 bytes -/

section Fields

variable {F : Type} (serialize : F → List UInt8)

/-- Each string begins with the bytes of its element. -/
def BeginsWith (ss : List String) (fs : List F) : Prop :=
  List.Forall₂ (fun s f => ∃ raw, Hex.decode s = some raw ∧ raw.take 32 = serialize f) ss fs

/-- Each string is the bytes of its element. -/
def Spells (ss : List String) (fs : List F) : Prop :=
  List.Forall₂ (fun s f => Hex.decode s = some (serialize f)) ss fs

/-- One of the strings decodes to more than 32 bytes. -/
def Overlong (ss : List String) : Prop := ∃ s ∈ ss, ∃ raw, Hex.decode s = some raw ∧ 32 < raw.length

variable {serialize} (hlen : ∀ f, (serialize f).length = 32)
include hlen

theorem BeginsWith.length {s : String} {f : F} {raw : List UInt8} (hraw : Hex.decode s = some raw)
    (h : ∃ raw, Hex.decode s = some raw ∧ raw.take 32 = serialize f) : 32 ≤ raw.length := by
  obtain ⟨raw', hraw', htake⟩ := h
  obtain rfl := Option.some.inj (hraw.symm.trans hraw')
  have := congrArg List.length htake
  rw [List.length_take, hlen] at this
  omega

/-- **What begins with its elements spells them**, unless a string is too long. -/
theorem BeginsWith.spells_iff {ss : List String} {fs : List F} (h : BeginsWith serialize ss fs) :
    Spells serialize ss fs ↔ ¬ Overlong ss := by
  induction h with
  | nil => exact ⟨fun _ ⟨_, hs, _⟩ => (nomatch hs), fun _ => .nil⟩
  | @cons s f ss fs hs _ ih =>
    obtain ⟨raw, hraw, htake⟩ := hs
    have hle : 32 ≤ raw.length := BeginsWith.length hlen hraw ⟨raw, hraw, htake⟩
    have hhead : Hex.decode s = some (serialize f) ↔ ¬ 32 < raw.length := by
      rw [hraw, Option.some.injEq, ← htake]
      constructor
      · intro h
        have := congrArg List.length h
        rw [List.length_take] at this
        omega
      · intro h
        rw [List.take_of_length_le (by omega)]
    have hoverlong : Overlong (s :: ss) ↔ 32 < raw.length ∨ Overlong ss := by
      simp only [Overlong, List.exists_mem_cons_iff, hraw, Option.some.injEq, exists_eq_left']
    rw [hoverlong, not_or, ← hhead, ← ih]
    exact List.forall₂_cons

theorem BeginsWith.overlong_of_length_ne {ss : List String} {fs : List F}
    (h : BeginsWith serialize ss fs)
    (hne : ∃ s ∈ ss, ∃ raw, Hex.decode s = some raw ∧ raw.length ≠ 32) : Overlong ss := by
  obtain ⟨s, hs, raw, hraw, hne⟩ := hne
  induction h with
  | nil => cases hs
  | @cons t f ss fs ht _ ih =>
    rcases List.mem_cons.mp hs with rfl | hs
    · have hle := BeginsWith.length hlen hraw ht
      exact ⟨s, List.mem_cons_self, raw, hraw, by omega⟩
    · obtain ⟨u, hu, hlong⟩ := ih hs
      exact ⟨u, List.mem_cons_of_mem t hu, hlong⟩

/-- **A parser of the beginnings of strings is strict**, in what it accepts and in what
it refuses, exactly when it accepts no string that is too long. -/
theorem strict_iff {α : Type} {parsed : Except VerifyError α} {ss : List String} {fs : α → List F}
    (hok : ∀ a, parsed = .ok a → BeginsWith serialize ss (fs a))
    (herror : ∀ e, parsed = .error e → ∃ what, e = .malformed what) :
    ((∀ a, parsed = .ok a → Spells serialize ss (fs a))
        ∧ ((∃ s ∈ ss, ∃ raw, Hex.decode s = some raw ∧ raw.length ≠ 32) →
          ∃ what, parsed = .error (.malformed what)))
      ↔ ¬ ((∃ a, parsed = .ok a) ∧ Overlong ss) := by
  constructor
  · rintro ⟨hspells, -⟩ ⟨⟨a, ha⟩, hoverlong⟩
    exact (BeginsWith.spells_iff hlen (hok a ha)).mp (hspells a ha) hoverlong
  · intro h
    refine ⟨fun a ha => ?_, fun hne => ?_⟩
    · exact (BeginsWith.spells_iff hlen (hok a ha)).mpr fun hoverlong => h ⟨⟨a, ha⟩, hoverlong⟩
    · cases hparsed : parsed with
      | ok a =>
        exact absurd ⟨⟨a, hparsed⟩, BeginsWith.overlong_of_length_ne hlen (hok a hparsed) hne⟩ h
      | error e =>
        obtain ⟨what, rfl⟩ := herror e hparsed
        exact ⟨what, rfl⟩

end Fields

/-! ### The fields of a proof -/

/-- What is relied on of `Fq`: deserializing takes the first 32 bytes, gives the element
whose number they write, if there is one, and ignores what follows; serializing writes
the number of an element. -/
structure ArkGroth16.FqStandard (ark : ArkGroth16) (value : ark.Fq → ℕ) : Prop where
  value_lt : ∀ f, value f < 256 ^ 32
  fqDeserialize_eq_some_iff : ∀ raw f, ark.fqDeserialize raw = some f ↔
    32 ≤ raw.length ∧ leNat (raw.take 32) = value f
  fqSerialize_eq : ∀ f, ark.fqSerialize f = leBytes 32 (value f)

theorem exists_decode_iff {F : Type} {deserialize : List UInt8 → Option F} {s : String} {f : F} :
    (Hex.decode s >>= deserialize) = some f ↔
      ∃ raw, Hex.decode s = some raw ∧ deserialize raw = some f := by
  rw [Option.bind_eq_bind, Option.bind_eq_some_iff]

theorem parseFr_eq_some_iff {s : String} {f : Fr} :
    parseFr s = some f ↔ ∃ raw, Hex.decode s = some raw ∧ raw.take 32 = frToBytes f := by
  simp only [parseFr, exists_decode_iff, frDeserialize_eq_some_iff]

section Strict

variable {ark : ArkGroth16} {value : ark.Fq → ℕ} (hfq : ark.FqStandard value)

include hfq in
theorem fqSerialize_length (f : ark.Fq) : (ark.fqSerialize f).length = 32 := by
  rw [hfq.fqSerialize_eq, leBytes_length]

include hfq in
theorem parseFq_eq_some_iff {s : String} {f : ark.Fq} :
    parseFq ark s = some f ↔ ∃ raw, Hex.decode s = some raw ∧ raw.take 32 = ark.fqSerialize f := by
  have hvalue : leNat (ark.fqSerialize f) = value f := by
    rw [hfq.fqSerialize_eq, leNat_leBytes (hfq.value_lt f)]
  have htake : ∀ raw : List UInt8, (32 ≤ raw.length ∧ leNat (raw.take 32) = value f)
      ↔ raw.take 32 = ark.fqSerialize f := by
    intro raw
    constructor
    · rintro ⟨hle, hnat⟩
      refine eq_of_leNat_eq ?_ (hnat.trans hvalue.symm)
      rw [List.length_take, fqSerialize_length hfq]
      omega
    · intro h
      have hlen := congrArg List.length h
      rw [List.length_take, fqSerialize_length hfq] at hlen
      exact ⟨by omega, by rw [h, hvalue]⟩
  simp only [parseFq, exists_decode_iff, hfq.fqDeserialize_eq_some_iff, htake]

theorem parseProofPoints_error {wire : Groth16Proof} {e : VerifyError}
    (h : parseProofPoints ark wire = .error e) : ∃ what, e = .malformed what := by
  unfold parseProofPoints at h
  split at h
  · exact ⟨_, (Except.error.inj h).symm⟩
  · split at h
    · split at h
      · dsimp only at h
        split at h
        · exact ⟨_, (Except.error.inj h).symm⟩
        · split at h
          · exact ⟨_, (Except.error.inj h).symm⟩
          · cases h
      · exact ⟨_, (Except.error.inj h).symm⟩
    · exact ⟨_, (Except.error.inj h).symm⟩

theorem parsePublicInputs_error {wire : Groth16Proof} {e : VerifyError}
    (h : parsePublicInputs wire = .error e) : ∃ what, e = .malformed what := by
  unfold parsePublicInputs at h
  split at h
  · exact ⟨_, (Except.error.inj h).symm⟩
  · obtain ⟨s, -, hs⟩ := mapM_eq_error h
    split at hs
    · cases hs
    · exact ⟨_, (Except.error.inj hs).symm⟩

/-- The wire form is strict for a proof: what parses spells what it is read as, and a
string of the wrong length makes it malformed. -/
structure Groth16Proof.LengthStrict (ark : ArkGroth16) (wire : Groth16Proof) : Prop where
  coordinates : ∀ proof, parseProofPoints ark wire = .ok proof →
    Spells ark.fqSerialize wire.coordinates proof.coordinates
  publicInputs : ∀ pis, parsePublicInputs wire = .ok pis → Spells frToBytes wire.publicInputs pis
  coordinate_malformed : (∃ s ∈ wire.coordinates, ∃ raw, Hex.decode s = some raw ∧ raw.length ≠ 32) →
    ∃ what, parseProofPoints ark wire = .error (.malformed what)
  publicInput_malformed :
    (∃ s ∈ wire.publicInputs, ∃ raw, Hex.decode s = some raw ∧ raw.length ≠ 32) →
    ∃ what, parsePublicInputs wire = .error (.malformed what)

/-- The coordinates are those of checked points by their beginnings, and one is too
long. -/
structure Groth16Proof.OverlongPoints (ark : ArkGroth16) (wire : Groth16Proof) : Prop where
  alg_eq : wire.alg = SUPPORTED_ALG
  checked : ∃ proof : Proof ark.Fq, proof.Checked ark
    ∧ BeginsWith ark.fqSerialize wire.coordinates proof.coordinates
  overlong : Overlong wire.coordinates

/-- The public inputs are three scalars by their beginnings, and one is too long. -/
structure Groth16Proof.OverlongInputs (wire : Groth16Proof) : Prop where
  count : wire.publicInputs.length = 3
  below : ∀ s ∈ wire.publicInputs, ∃ raw, Hex.decode s = some raw ∧ 32 ≤ raw.length
    ∧ leNat (raw.take 32) < r
  overlong : Overlong wire.publicInputs

include hfq in
theorem parseProofPoints_eq_ok_iff_beginsWith {wire : Groth16Proof} {proof : Proof ark.Fq} :
    parseProofPoints ark wire = .ok proof ↔ wire.alg = SUPPORTED_ALG
      ∧ BeginsWith ark.fqSerialize wire.coordinates proof.coordinates ∧ proof.Checked ark := by
  simp only [parseProofPoints_eq_ok_iff, parseFq_eq_some_iff hfq]
  rfl

theorem parsePublicInputs_eq_ok_iff_beginsWith {wire : Groth16Proof} {pis : List Fr} :
    parsePublicInputs wire = .ok pis ↔ wire.publicInputs.length = 3
      ∧ BeginsWith frToBytes wire.publicInputs pis := by
  simp only [parsePublicInputs_eq_ok_iff, parseFr_eq_some_iff]
  rfl

theorem exists_beginsWith_iff {ss : List String} :
    (∃ pis, BeginsWith frToBytes ss pis) ↔ ∀ s ∈ ss, ∃ raw, Hex.decode s = some raw
      ∧ 32 ≤ raw.length ∧ leNat (raw.take 32) < r := by
  have hread : ∀ raw : List UInt8, (∃ f, raw.take 32 = frToBytes f)
      ↔ 32 ≤ raw.length ∧ leNat (raw.take 32) < r := by
    intro raw
    constructor
    · rintro ⟨f, hf⟩
      have hlen := congrArg List.length hf
      rw [List.length_take, frToBytes_length] at hlen
      exact ⟨by omega, by rw [hf, leNat_frToBytes]; exact ZMod.val_lt f⟩
    · rintro ⟨hle, hlt⟩
      refine ⟨(leNat (raw.take 32) : Fr), eq_of_leNat_eq ?_ ?_⟩
      · rw [List.length_take, frToBytes_length]
        omega
      · rw [leNat_frToBytes, val_natCast hlt]
  induction ss with
  | nil => exact ⟨fun _ _ hs => (nomatch hs), fun _ => ⟨[], .nil⟩⟩
  | cons s ss ih =>
    constructor
    · rintro ⟨pis, h⟩
      cases h with
      | cons hs hss =>
        obtain ⟨raw, hraw, htake⟩ := hs
        exact List.forall_mem_cons.mpr
          ⟨⟨raw, hraw, (hread raw).mp ⟨_, htake⟩⟩, ih.mp ⟨_, hss⟩⟩
    · intro h
      obtain ⟨⟨raw, hraw, hlt⟩, hss⟩ := List.forall_mem_cons.mp h
      obtain ⟨f, hf⟩ := (hread raw).mpr hlt
      obtain ⟨pis, hpis⟩ := ih.mpr hss
      exact ⟨f :: pis, .cons ⟨raw, hraw, hf⟩ hpis⟩

include hfq in
theorem overlongPoints_iff {wire : Groth16Proof} : wire.OverlongPoints ark ↔
    (∃ proof, parseProofPoints ark wire = .ok proof) ∧ Overlong wire.coordinates := by
  simp only [parseProofPoints_eq_ok_iff_beginsWith hfq]
  constructor
  · rintro ⟨halg, ⟨proof, hchecked, hbegins⟩, hoverlong⟩
    exact ⟨⟨proof, halg, hbegins, hchecked⟩, hoverlong⟩
  · rintro ⟨⟨proof, halg, hbegins, hchecked⟩, hoverlong⟩
    exact ⟨halg, ⟨proof, hchecked, hbegins⟩, hoverlong⟩

theorem overlongInputs_iff {wire : Groth16Proof} : wire.OverlongInputs ↔
    (∃ pis, parsePublicInputs wire = .ok pis) ∧ Overlong wire.publicInputs := by
  simp only [parsePublicInputs_eq_ok_iff_beginsWith]
  constructor
  · rintro ⟨hcount, hbelow, hoverlong⟩
    obtain ⟨pis, hpis⟩ := exists_beginsWith_iff.mpr hbelow
    exact ⟨⟨pis, hcount, hpis⟩, hoverlong⟩
  · rintro ⟨⟨pis, hcount, hpis⟩, hoverlong⟩
    exact ⟨hcount, exists_beginsWith_iff.mp ⟨pis, hpis⟩, hoverlong⟩

theorem Spells.map_decode {F : Type} {serialize : F → List UInt8} {ss : List String} {fs : List F}
    (h : Spells serialize ss fs) : ss.map Hex.decode = fs.map fun f => some (serialize f) := by
  induction h with
  | nil => rfl
  | cons hs _ ih => rw [List.map_cons, List.map_cons, hs, ih]

include hfq in
/-- **The wire form is strict** exactly when the proof is not accepted by the beginnings
of strings that are too long; and then points and scalars determine the bytes. -/
theorem lengthStrict_iff :
    (∀ wire : Groth16Proof, wire.LengthStrict ark ↔ ¬ wire.OverlongPoints ark ∧ ¬ wire.OverlongInputs)
    ∧ ∀ wire wire' : Groth16Proof,
      ¬ wire.OverlongPoints ark → ¬ wire.OverlongInputs →
      ¬ wire'.OverlongPoints ark → ¬ wire'.OverlongInputs →
      ∀ proof pis, parseProofPoints ark wire = .ok proof → parseProofPoints ark wire' = .ok proof →
        parsePublicInputs wire = .ok pis → parsePublicInputs wire' = .ok pis →
        wire.coordinates.map Hex.decode = wire'.coordinates.map Hex.decode
          ∧ wire.publicInputs.map Hex.decode = wire'.publicInputs.map Hex.decode := by
  have hiff : ∀ wire : Groth16Proof,
      wire.LengthStrict ark ↔ ¬ wire.OverlongPoints ark ∧ ¬ wire.OverlongInputs := by
    intro wire
    have hpoints := strict_iff (fqSerialize_length hfq)
      (fun proof (h : parseProofPoints ark wire = .ok proof) =>
        ((parseProofPoints_eq_ok_iff_beginsWith hfq).mp h).2.1)
      fun e h => parseProofPoints_error h
    have hinputs := strict_iff frToBytes_length
      (fun pis (h : parsePublicInputs wire = .ok pis) =>
        (parsePublicInputs_eq_ok_iff_beginsWith.mp h).2)
      fun e h => parsePublicInputs_error h
    rw [overlongPoints_iff hfq, overlongInputs_iff, ← hpoints, ← hinputs]
    constructor
    · rintro ⟨h1, h2, h3, h4⟩
      exact ⟨⟨h1, h3⟩, h2, h4⟩
    · rintro ⟨⟨h1, h3⟩, h2, h4⟩
      exact ⟨h1, h2, h3, h4⟩
  refine ⟨hiff, ?_⟩
  intro wire wire' h1 h2 h1' h2' proof pis hproof hproof' hpis hpis'
  have hstrict := (hiff wire).mpr ⟨h1, h2⟩
  have hstrict' := (hiff wire').mpr ⟨h1', h2'⟩
  constructor
  · rw [(hstrict.coordinates proof hproof).map_decode, (hstrict'.coordinates proof hproof').map_decode]
  · rw [(hstrict.publicInputs pis hpis).map_decode, (hstrict'.publicInputs pis hpis').map_decode]

end Strict

/-! ### Strings of zeros -/

namespace Fixture

/-- The modulus of the BN254 base field. -/
def q : ℕ := 21888242871839275222246405745257275088696311157297823662689037894645226208583

instance : NeZero q := ⟨by decide⟩

def fqDeserialize (raw : List UInt8) : Option (Fin q) :=
  if raw.length < 32 then none
  else if h : leNat (raw.take 32) < q then some ⟨leNat (raw.take 32), h⟩ else none

theorem fqDeserialize_eq_some_iff (raw : List UInt8) (f : Fin q) :
    fqDeserialize raw = some f ↔ 32 ≤ raw.length ∧ leNat (raw.take 32) = f := by
  unfold fqDeserialize
  by_cases hlen : raw.length < 32
  · rw [if_pos hlen]
    exact ⟨nofun, fun h => absurd h.1 (by omega)⟩
  · rw [if_neg hlen]
    by_cases hlt : leNat (raw.take 32) < q
    · rw [dif_pos hlt, Option.some.injEq, Fin.ext_iff]
      exact (and_iff_right (by omega)).symm
    · rw [dif_neg hlt]
      exact ⟨nofun, fun h => absurd (h.2 ▸ f.isLt) hlt⟩

/-- The base field by its numbers, and the curve equation of G1; of G2 nothing is asked
here. -/
def ark : ArkGroth16 where
  Fq := Fin q
  Vk := Unit
  fqDeserialize := fqDeserialize
  fqSerialize f := leBytes 32 f.val
  g1IsOnCurve p := p.infinity || p.y * p.y == p.x * p.x * p.x + 3
  g1IsInSubgroup _ := true
  g2IsOnCurve _ := true
  g2IsInSubgroup _ := true
  proofSerialize _ := none
  verifyWithProcessedVk _ _ _ := none

theorem fqStandard : ark.FqStandard Fin.val where
  value_lt f := lt_trans f.isLt (by decide)
  fqDeserialize_eq_some_iff := fqDeserialize_eq_some_iff
  fqSerialize_eq _ := rfl

def zeros (n : ℕ) : String := Hex.encode (List.replicate n 0)

theorem decode_zeros (n : ℕ) : Hex.decode (zeros n) = some (List.replicate n 0) :=
  Hex.decode_encode _

def wire (n : ℕ) : Groth16Proof where
  alg := SUPPORTED_ALG
  a := (zeros 32, zeros 32)
  b := ((zeros 32, zeros 32), (zeros 32, zeros 32))
  c := (zeros 32, zeros 32)
  publicInputs := [zeros n, zeros 32, zeros 32]

theorem overlong_wire_iff (n : ℕ) : Overlong (wire n).publicInputs ↔ 32 < n := by
  simp only [Overlong, wire, List.exists_mem_cons_iff, List.not_mem_nil, false_and, exists_false,
    or_false, decode_zeros, Option.some.injEq, exists_eq_left', List.length_replicate]
  omega

theorem leNat_zeros (n : ℕ) : leNat ((List.replicate n 0).take 32) = 0 :=
  leNat_eq_zero_iff.mpr fun _ hb => List.eq_of_mem_replicate (List.mem_of_mem_take hb)

theorem parseFr_zeros {n : ℕ} (h : 32 ≤ n) : parseFr (zeros n) = some 0 := by
  refine parseFr_eq_some_iff.mpr ⟨_, decode_zeros n, eq_of_leNat_eq ?_ ?_⟩
  · rw [List.length_take, List.length_replicate, frToBytes_length]
    omega
  · rw [leNat_zeros, leNat_frToBytes, ZMod.val_zero]

theorem parsePublicInputs_wire {n : ℕ} (h : 32 ≤ n) : parsePublicInputs (wire n) = .ok [0, 0, 0] :=
  parsePublicInputs_eq_ok_iff.mpr ⟨rfl, .cons (parseFr_zeros h)
    (.cons (parseFr_zeros (Nat.le_refl 32)) (.cons (parseFr_zeros (Nat.le_refl 32)) .nil))⟩

end Fixture

/-- Zeros of the right length are strict; one byte more is not. -/
theorem lengthStrict_iff_zeros :
    (Fixture.wire 32).LengthStrict Fixture.ark ∧ ¬ (Fixture.wire 33).LengthStrict Fixture.ark := by
  obtain ⟨hiff, -⟩ := lengthStrict_iff Fixture.fqStandard
  constructor
  · refine (hiff _).mpr ⟨fun h => ?_, fun h => ?_⟩
    · obtain ⟨s, hs, raw, hraw, hlong⟩ := h.overlong
      have hzeros : s = Fixture.zeros 32 := by
        simpa [Groth16Proof.coordinates, Fixture.wire] using hs
      rw [hzeros, Fixture.decode_zeros, Option.some.injEq] at hraw
      rw [← hraw, List.length_replicate] at hlong
      exact absurd hlong (by decide)
    · exact absurd ((Fixture.overlong_wire_iff 32).mp h.overlong) (by decide)
  · intro h
    refine ((hiff _).mp h).2 (overlongInputs_iff.mpr ⟨⟨_, Fixture.parsePublicInputs_wire ?_⟩, ?_⟩)
    · decide
    · exact (Fixture.overlong_wire_iff 33).mpr (by decide)

/-- **A public input of 33 bytes is accepted**, and read as the 32 in front. -/
theorem overlong_accepted :
    ∃ wire wire' : Groth16Proof, parsePublicInputs wire = .ok [0, 0, 0]
      ∧ parsePublicInputs wire' = .ok [0, 0, 0]
      ∧ (∃ s ∈ wire.publicInputs, ∃ raw, Hex.decode s = some raw ∧ raw.length = 33)
      ∧ wire.publicInputs.map Hex.decode ≠ wire'.publicInputs.map Hex.decode := by
  refine ⟨Fixture.wire 33, Fixture.wire 32, Fixture.parsePublicInputs_wire (by decide),
    Fixture.parsePublicInputs_wire (by decide), ?_, ?_⟩
  · exact ⟨_, List.mem_cons_self, _, Fixture.decode_zeros 33, List.length_replicate⟩
  · intro h
    have hhead := congrArg List.head? h
    simp only [Fixture.wire, List.map_cons, List.head?_cons, Fixture.decode_zeros, Option.some.injEq]
      at hhead
    exact absurd (congrArg List.length hhead) (by decide)

end SuiCash.Prover
