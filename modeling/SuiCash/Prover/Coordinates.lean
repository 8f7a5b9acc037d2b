import SuiCash.Prover.Bn254
import SuiCash.Prover.Prove

/-!
# What the coordinates of a proof keep

The hex form of a proof has its coordinates and nothing else.  A point at infinity
has coordinates too, two zeros, but that it is at infinity is written nowhere, and
`parse_proof_points` reads every point as a finite one.

`parseProofPoints_wireProof_eq` is the whole of it: what is read back is the proof
with its flags cleared, put through the curve and subgroup tests.  So a proof of the
groups comes back, and its bytes with it, exactly when no point is at infinity
(`wire_lossless_iff`).
-/

namespace SuiCash.Prover

open Bytes Fallible

/-! ### Proofs of the groups -/

/-- The points of a proof lie on their curves, in the prime-order groups. -/
structure Proof.InGroups (ark : ArkGroth16) (proof : Proof ark.Fq) : Prop where
  a_valid : ark.g1IsOnCurve proof.a = true ∧ ark.g1IsInSubgroup proof.a = true
  b_valid : ark.g2IsOnCurve proof.b = true ∧ ark.g2IsInSubgroup proof.b = true
  c_valid : ark.g1IsOnCurve proof.c = true ∧ ark.g1IsInSubgroup proof.c = true

structure Proof.AllFinite {Fq : Type} (proof : Proof Fq) : Prop where
  a : proof.a.infinity = false
  b : proof.b.infinity = false
  c : proof.c.infinity = false

theorem Proof.checked_iff {ark : ArkGroth16} {proof : Proof ark.Fq} :
    proof.Checked ark ↔ proof.InGroups ark ∧ proof.AllFinite :=
  ⟨fun ⟨ha, hb, hc, hav, hcv, hbv⟩ => ⟨⟨hav, hbv, hcv⟩, ha, hb, hc⟩,
    fun ⟨⟨hav, hbv, hcv⟩, ha, hb, hc⟩ => ⟨ha, hb, hc, hav, hcv, hbv⟩⟩

/-- The coordinates of a proof, each point taken as finite. -/
def Proof.unflagged {Fq : Type} (proof : Proof Fq) : Proof Fq :=
  ⟨{ proof.a with infinity := false }, { proof.b with infinity := false },
    { proof.c with infinity := false }⟩

/-! ### There and back -/

section Wire

variable {ark : ArkGroth16} {value : ark.Fq → ℕ} (hfq : ark.FqStandard value)
include hfq

theorem parseFq_fqToHex (f : ark.Fq) : parseFq ark (fqToHex ark f) = some f := by
  refine (parseFq_eq_some_iff hfq).mpr ⟨_, Hex.decode_encode _, ?_⟩
  exact List.take_of_length_le (Nat.le_of_eq (fqSerialize_length hfq f))

/-- **What is read back** are the coordinates, as finite points, tested. -/
theorem parseProofPoints_wireProof_eq (proof : Proof ark.Fq) (pis : List Fr) :
    parseProofPoints ark (wireProof ark proof pis) =
      let p := proof.unflagged
      if [p.a, p.c].any fun p => !ark.g1IsOnCurve p || !ark.g1IsInSubgroup p then
        .error (.malformed "G1 point off curve or subgroup")
      else if !ark.g2IsOnCurve p.b || !ark.g2IsInSubgroup p.b then
        .error (.malformed "G2 point off curve or subgroup")
      else .ok p := by
  have halg : ¬ (wireProof ark proof pis).alg ≠ SUPPORTED_ALG := not_not.mpr rfl
  rw [parseProofPoints, if_neg halg]
  simp only [wireProof, parseFq_fqToHex hfq]
  rfl

/-- A proof is read back exactly when it is of the groups and finite. -/
theorem parseProofPoints_wireProof_iff (proof : Proof ark.Fq) (pis : List Fr) :
    parseProofPoints ark (wireProof ark proof pis) = .ok proof
      ↔ proof.InGroups ark ∧ proof.AllFinite := by
  rw [← Proof.checked_iff]
  constructor
  · exact parseProofPoints_checked
  · intro h
    refine parseProofPoints_wireProof h (fun f _ => ?_) pis
    have := parseFq_fqToHex hfq f
    rwa [parseFq, fqToHex, Hex.decode_encode] at this

omit hfq in
theorem proofCompressedBytes_of_parse {wire : Groth16Proof} {proof : Proof ark.Fq}
    (h : parseProofPoints ark wire = .ok proof) (bytes : List UInt8) :
    proofCompressedBytes ark wire = .ok bytes ↔ ark.proofSerialize proof = some bytes := by
  rw [proofCompressedBytes, bind_eq_ok]
  constructor
  · rintro ⟨parsed, hparsed, hbytes⟩
    obtain rfl := Except.ok.inj (h.symm.trans hparsed)
    cases hout : ark.proofSerialize proof with
    | none =>
      rw [hout] at hbytes
      cases hbytes
    | some out =>
      rw [hout] at hbytes
      rw [Except.ok.inj hbytes]
  · intro hout
    exact ⟨proof, h, by rw [hout]⟩

/-- **The coordinate form loses nothing exactly when no point is at infinity.**  A
proof of the groups is read back from its wire form, and the bytes recovered from
there are those of the proof, if and only if its three points are finite. -/
theorem wire_lossless_iff {proof : Proof ark.Fq} (hproof : proof.InGroups ark) (pis : List Fr) :
    (parseProofPoints ark (wireProof ark proof pis) = .ok proof
      ∧ ∀ bytes, proofCompressedBytes ark (wireProof ark proof pis) = .ok bytes
        ↔ ark.proofSerialize proof = some bytes)
      ↔ proof.AllFinite := by
  constructor
  · rintro ⟨hparse, -⟩
    exact ((parseProofPoints_wireProof_iff hfq proof pis).mp hparse).2
  · intro hfinite
    have hparse := (parseProofPoints_wireProof_iff hfq proof pis).mpr ⟨hproof, hfinite⟩
    exact ⟨hparse, proofCompressedBytes_of_parse hparse⟩

/-- **The two forms that `prove_compressed` gives out agree**, when the proof behind
them is of the groups and has no point at infinity. -/
theorem proofCompressedBytes_of_proveCompressed {prover : ArkProver ark} {pk : prover.Pk}
    {req : ProveRequest} {rng : prover.Rng} {att : Attestation} {compressed : List UInt8}
    (h : proveCompressed prover pk req rng = .ok (att, compressed)) :
    ∃ proof, ark.proofSerialize proof = some compressed ∧ (proof.InGroups ark → proof.AllFinite →
      proofCompressedBytes ark att.proof = .ok compressed) := by
  obtain ⟨claim, proof, -, hbytes, rfl⟩ := proveCompressed_eq_ok h
  refine ⟨proof, hbytes, fun hproof hfinite => ?_⟩
  exact (((wire_lossless_iff hfq hproof _).mpr hfinite).2 compressed).mpr hbytes

end Wire

namespace Bn254

def generators : Proof bn254.Fq := ⟨g1Generator, g2Generator, g1Generator⟩

def atInfinity : Proof bn254.Fq := ⟨g1Identity, g2Generator, g1Generator⟩

theorem generators_inGroups : Proof.InGroups bn254 generators :=
  ⟨⟨g1Generator_valid, rfl⟩, g2Generator_valid, ⟨g1Generator_valid, rfl⟩⟩

theorem atInfinity_inGroups : Proof.InGroups bn254 atInfinity :=
  ⟨⟨rfl, rfl⟩, g2Generator_valid, ⟨g1Generator_valid, rfl⟩⟩

end Bn254

theorem wire_lossless_iff_generators :
    parseProofPoints bn254 (wireProof bn254 Bn254.generators []) = .ok Bn254.generators :=
  ((wire_lossless_iff bn254_fqStandard Bn254.generators_inGroups []).mpr ⟨rfl, rfl, rfl⟩).1

/-- **A proof with a point at infinity does not come back.**  Its points are of the
groups, and it has its 128 bytes, but its coordinates are refused. -/
theorem wire_lossy :
    Proof.InGroups bn254 Bn254.atInfinity
      ∧ (∃ bytes, bn254.proofSerialize Bn254.atInfinity = some bytes ∧ bytes.length = 128)
      ∧ parseProofPoints bn254 (wireProof bn254 Bn254.atInfinity [])
        = .error (.malformed "G1 point off curve or subgroup")
      ∧ proofCompressedBytes bn254 (wireProof bn254 Bn254.atInfinity [])
        = .error (.malformed "G1 point off curve or subgroup") := by
  have hrefused : parseProofPoints bn254 (wireProof bn254 Bn254.atInfinity [])
      = .error (.malformed "G1 point off curve or subgroup") := by
    refine (parseProofPoints_wireProof_eq bn254_fqStandard Bn254.atInfinity []).trans ?_
    -- two zeros do not solve the curve equation
    exact if_pos (by decide)
  refine ⟨Bn254.atInfinity_inGroups, ⟨_, rfl, by decide +kernel⟩, hrefused, ?_⟩
  rw [proofCompressedBytes, hrefused]
  rfl

end SuiCash.Prover
