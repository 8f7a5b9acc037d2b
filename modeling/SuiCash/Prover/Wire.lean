import SuiCash.Prover.Abi
import SuiCash.Lib.Hex

/-!
# The attestation on the wire

`prover/src/lib.rs` carries a Groth16 proof as hex strings, one for each
coordinate and one for each public input.  This module decodes them, verifies an
attestation off chain, and recovers the two blobs a Move verifier takes.

The curve, the serialization of its points and the pairing check belong to
Arkworks; `ArkGroth16` is what is used of them.  Scalars are modelled outright:
`frDeserialize` reads 32 bytes and refuses a number that is not below the field
order, and `frToBytes` writes them back (`frDeserialize_eq_some_iff`).
-/

namespace SuiCash.Prover

open Bytes Des Fallible

/-! ### Scalars -/

/-- `Fr::deserialize_compressed` from a slice: the first 32 bytes, refused unless
they write a number below the order. -/
def frDeserialize (raw : List UInt8) : Option Fr :=
  if raw.length < 32 then none
  else if leNat (raw.take 32) < r then some (leNat (raw.take 32) : Fr) else none

/-- Reading a scalar is the inverse of writing it; what follows the 32 bytes is
not looked at. -/
theorem frDeserialize_eq_some_iff {raw : List UInt8} {f : Fr} :
    frDeserialize raw = some f ↔ raw.take 32 = frToBytes f := by
  unfold frDeserialize
  by_cases hlen : raw.length < 32
  · rw [if_pos hlen]
    constructor
    · intro h; cases h
    · intro h
      have := congrArg List.length h
      rw [List.length_take, frToBytes_length] at this
      omega
  · have htake : (raw.take 32).length = 32 := by rw [List.length_take]; omega
    rw [if_neg hlen]
    constructor
    · intro h
      split at h
      · rename_i hlt
        cases h
        refine eq_of_leNat_eq (by rw [htake, frToBytes_length]) ?_
        rw [leNat_frToBytes, val_natCast hlt]
      · cases h
    · intro h
      have hval : leNat (raw.take 32) = f.val := by rw [h, leNat_frToBytes]
      rw [hval, if_pos (ZMod.val_lt f), ZMod.natCast_zmod_val]

theorem frDeserialize_frToBytes (f : Fr) : frDeserialize (frToBytes f) = some f := by
  rw [frDeserialize_eq_some_iff, List.take_of_length_le (by rw [frToBytes_length])]

/-! ### Points and proofs -/

structure G1 (Fq : Type) where
  x : Fq
  y : Fq
  infinity : Bool
  deriving DecidableEq

/-- An affine point of the twist, with coordinates in the quadratic extension. -/
structure G2 (Fq : Type) where
  x : Fq × Fq
  y : Fq × Fq
  infinity : Bool
  deriving DecidableEq

structure Proof (Fq : Type) where
  a : G1 Fq
  b : G2 Fq
  c : G1 Fq
  deriving DecidableEq

/-- What is used of `ark-bn254` and `ark-groth16` to verify a proof. -/
structure ArkGroth16 where
  Fq : Type
  Vk : Type
  /-- `Fq::deserialize_compressed` from a slice. -/
  fqDeserialize : List UInt8 → Option Fq
  /-- `Fq::serialize_compressed`. -/
  fqSerialize : Fq → List UInt8
  g1IsOnCurve : G1 Fq → Bool
  g1IsInSubgroup : G1 Fq → Bool
  g2IsOnCurve : G2 Fq → Bool
  g2IsInSubgroup : G2 Fq → Bool
  /-- `Proof::serialize_compressed`. -/
  proofSerialize : Proof Fq → Option (List UInt8)
  /-- `verify_with_processed_vk` under the prepared key. -/
  verifyWithProcessedVk : Vk → List Fr → Proof Fq → Option Bool

/-! ### The wire form -/

/-- Groth16 proof over BN254, hex-encoded like the RPC surface. -/
structure Groth16Proof where
  alg : String
  a : String × String
  b : (String × String) × (String × String)
  c : String × String
  publicInputs : List String
  deriving DecidableEq

/-- Certified session: the circuit's public claim. -/
structure Attestation where
  idi : Block
  attestedAt : UInt64
  proof : Groth16Proof
  deriving DecidableEq

inductive VerifyError where
  | proofInvalid
  | envelopeInconsistent
  | malformed (what : String)
  deriving DecidableEq

section Verify

variable (ark : ArkGroth16)

def parseFq (s : String) : Option ark.Fq := do
  let raw ← Hex.decode s
  ark.fqDeserialize raw

def parseFr (s : String) : Option Fr := do
  let raw ← Hex.decode s
  frDeserialize raw

def frToHex (f : Fr) : String := Hex.encode (frToBytes f)

def fqToHex (f : ark.Fq) : String := Hex.encode (ark.fqSerialize f)

def wireProof (proof : Proof ark.Fq) (pis : List Fr) : Groth16Proof where
  alg := SUPPORTED_ALG
  a := (fqToHex ark proof.a.x, fqToHex ark proof.a.y)
  b := ((fqToHex ark proof.b.x.1, fqToHex ark proof.b.x.2),
    (fqToHex ark proof.b.y.1, fqToHex ark proof.b.y.2))
  c := (fqToHex ark proof.c.x, fqToHex ark proof.c.y)
  publicInputs := pis.map frToHex

/-- Decode the hex-coordinate wire proof back into a proof object. -/
def parseProofPoints (proof : Groth16Proof) : Except VerifyError (Proof ark.Fq) :=
  if proof.alg ≠ SUPPORTED_ALG then .error (.malformed "unsupported alg label")
  else
    match parseFq ark proof.a.1, parseFq ark proof.a.2, parseFq ark proof.c.1,
      parseFq ark proof.c.2 with
    | some ax, some ay, some cx, some cy =>
      match parseFq ark proof.b.1.1, parseFq ark proof.b.1.2, parseFq ark proof.b.2.1,
        parseFq ark proof.b.2.2 with
      | some bx0, some bx1, some by0, some by1 =>
        let a : G1 ark.Fq := ⟨ax, ay, false⟩
        let c : G1 ark.Fq := ⟨cx, cy, false⟩
        let b : G2 ark.Fq := ⟨(bx0, bx1), (by0, by1), false⟩
        if [a, c].any fun p => !ark.g1IsOnCurve p || !ark.g1IsInSubgroup p then
          .error (.malformed "G1 point off curve or subgroup")
        else if !ark.g2IsOnCurve b || !ark.g2IsInSubgroup b then
          .error (.malformed "G2 point off curve or subgroup")
        else .ok ⟨a, b, c⟩
      | _, _, _, _ => .error (.malformed "undecodable G2 coordinate")
    | _, _, _, _ => .error (.malformed "undecodable G1 coordinate")

/-- Decode the wire public inputs into field elements, count-checked. -/
def parsePublicInputs (proof : Groth16Proof) : Except VerifyError (List Fr) :=
  if proof.publicInputs.length ≠ PUBLIC_INPUT_COUNT then
    .error (.malformed "wrong public-input count")
  else proof.publicInputs.mapM fun s =>
    match parseFr s with
    | some f => .ok f
    | none => .error (.malformed "undecodable public input")

def verifyProof (vk : ark.Vk) (publicInputs : List Fr) (proof : Proof ark.Fq) : Bool :=
  (ark.verifyWithProcessedVk vk publicInputs proof).getD false

/-- Verify a hex-encoded attestation against an explicit verifying key. -/
def verifyAttestationDetailed (vk : ark.Vk) (att : Attestation) : Except VerifyError Unit := do
  let proof ← parseProofPoints ark att.proof
  let pis ← parsePublicInputs att.proof
  if ¬ verifyProof ark vk pis proof = true then .error .proofInvalid
  else do
    let decoded ← (PublicInputs.fromFr pis).mapError fun _ => .malformed "non-canonical inputs"
    if decoded.idi ≠ att.idi then .error .envelopeInconsistent
    else if decoded.attestedAt ≠ att.attestedAt then .error .envelopeInconsistent
    else .ok ()

/-- The compressed serialization of a wire proof. -/
def proofCompressedBytes (proof : Groth16Proof) : Except VerifyError (List UInt8) := do
  let parsed ← parseProofPoints ark proof
  match ark.proofSerialize parsed with
  | some out => .ok out
  | none => .error (.malformed "proof does not serialize")

/-- The packed public-input blob, three little-endian scalars of 32 bytes. -/
def publicInputsBytes (proof : Groth16Proof) : Except VerifyError (List UInt8) := do
  let pis ← parsePublicInputs proof
  .ok (pis.flatMap frToBytes)

end Verify

/-! ### What parses -/

def Groth16Proof.coordinates (wire : Groth16Proof) : List String :=
  [wire.a.1, wire.a.2, wire.b.1.1, wire.b.1.2, wire.b.2.1, wire.b.2.2, wire.c.1, wire.c.2]

def Proof.coordinates {Fq : Type} (proof : Proof Fq) : List Fq :=
  [proof.a.x, proof.a.y, proof.b.x.1, proof.b.x.2, proof.b.y.1, proof.b.y.2, proof.c.x, proof.c.y]

/-- The points of a proof are finite, on their curves, and in the prime-order
groups. -/
structure Proof.Checked (ark : ArkGroth16) (proof : Proof ark.Fq) : Prop where
  a_finite : proof.a.infinity = false
  b_finite : proof.b.infinity = false
  c_finite : proof.c.infinity = false
  a_valid : ark.g1IsOnCurve proof.a = true ∧ ark.g1IsInSubgroup proof.a = true
  c_valid : ark.g1IsOnCurve proof.c = true ∧ ark.g1IsInSubgroup proof.c = true
  b_valid : ark.g2IsOnCurve proof.b = true ∧ ark.g2IsInSubgroup proof.b = true

section Parses

variable {ark : ArkGroth16}

/-- **What parses to points**: the supported label and eight readable coordinates, of
checked points. -/
theorem parseProofPoints_eq_ok_iff {wire : Groth16Proof} {proof : Proof ark.Fq} :
    parseProofPoints ark wire = .ok proof ↔ wire.alg = SUPPORTED_ALG
      ∧ List.Forall₂ (fun s f => parseFq ark s = some f) wire.coordinates proof.coordinates
      ∧ proof.Checked ark := by
  rw [parseProofPoints, guard_eq_ok, not_not, and_congr_right_iff]
  intro _
  simp only [Groth16Proof.coordinates, Proof.coordinates, List.forall₂_cons, List.Forall₂.nil, and_true]
  constructor
  · intro h
    split at h
    · split at h
      · obtain ⟨hg1, h⟩ := guard_eq_ok.mp h
        obtain ⟨hg2, h⟩ := guard_eq_ok.mp h
        cases h
        simp only [List.any_cons, List.any_nil, Bool.or_false, Bool.or_eq_true, Bool.not_eq_true',
          not_or, Bool.not_eq_false] at hg1 hg2
        exact ⟨by refine ⟨?_, ?_, ?_, ?_, ?_, ?_, ?_, ?_⟩ <;> assumption,
          rfl, rfl, rfl, hg1.1, hg1.2, hg2⟩
      · cases h
    · cases h
  · rintro ⟨⟨hax, hay, hbx0, hbx1, hby0, hby1, hcx, hcy⟩, hchecked⟩
    obtain ⟨⟨ax, ay, ai⟩, ⟨⟨bx0, bx1⟩, ⟨by0, by1⟩, bi⟩, ⟨cx, cy, ci⟩⟩ := proof
    obtain ⟨rfl, rfl, rfl, ⟨ha1, ha2⟩, ⟨hc1, hc2⟩, ⟨hb1, hb2⟩⟩ := hchecked
    rw [hax, hay, hbx0, hbx1, hby0, hby1, hcx, hcy]
    refine guard_eq_ok.mpr ⟨?_, guard_eq_ok.mpr ⟨?_, rfl⟩⟩
    · simp [ha1, ha2, hc1, hc2]
    · simp [hb1, hb2]

theorem parseProofPoints_checked {wire : Groth16Proof} {proof : Proof ark.Fq}
    (h : parseProofPoints ark wire = .ok proof) : proof.Checked ark :=
  (parseProofPoints_eq_ok_iff.mp h).2.2

/-- **The coordinate form loses nothing**: a checked proof whose coordinates
serialize faithfully is read back from its wire form. -/
theorem parseProofPoints_wireProof {proof : Proof ark.Fq} (hproof : proof.Checked ark)
    (hround : ∀ f ∈ proof.coordinates, ark.fqDeserialize (ark.fqSerialize f) = some f)
    (pis : List Fr) : parseProofPoints ark (wireProof ark proof pis) = .ok proof := by
  have hparse : ∀ f ∈ proof.coordinates, parseFq ark (fqToHex ark f) = some f := by
    intro f hf
    rw [parseFq, fqToHex, Hex.decode_encode]
    exact hround f hf
  have hcoordinates : (wireProof ark proof pis).coordinates = proof.coordinates.map (fqToHex ark) := rfl
  refine parseProofPoints_eq_ok_iff.mpr ⟨rfl, ?_, hproof⟩
  rw [hcoordinates, List.forall₂_map_left_iff, List.forall₂_same]
  exact hparse

theorem parsePublicInputs_eq_ok_iff {wire : Groth16Proof} {pis : List Fr} :
    parsePublicInputs wire = .ok pis ↔ wire.publicInputs.length = 3
      ∧ List.Forall₂ (fun s f => parseFr s = some f) wire.publicInputs pis := by
  have hread : ∀ (s : String) (f : Fr), (match parseFr s with
      | some f => Except.ok f
      | none => .error (VerifyError.malformed "undecodable public input")) = .ok f
      ↔ parseFr s = some f := by
    intro s f
    cases parseFr s with
    | none => exact ⟨nofun, nofun⟩
    | some g => rw [Except.ok.injEq, Option.some.injEq]
  rw [parsePublicInputs, guard_eq_ok, not_not, mapM_eq_ok_iff]
  simp only [hread]
  rfl

theorem parseFr_frToHex (f : Fr) : parseFr (frToHex f) = some f := by
  rw [parseFr, frToHex, Hex.decode_encode, Option.bind_eq_bind, Option.bind_some,
    frDeserialize_frToBytes]

theorem parsePublicInputs_wireProof (proof : Proof ark.Fq) {pis : List Fr} (h : pis.length = 3) :
    parsePublicInputs (wireProof ark proof pis) = .ok pis := by
  refine parsePublicInputs_eq_ok_iff.mpr ⟨(List.length_map _).trans h, ?_⟩
  rw [wireProof, List.forall₂_map_left_iff, List.forall₂_same]
  exact fun f _ => parseFr_frToHex f

theorem parsePublicInputs_length {wire : Groth16Proof} {pis : List Fr}
    (h : parsePublicInputs wire = .ok pis) : pis.length = 3 := by
  obtain ⟨hcount, hread⟩ := parsePublicInputs_eq_ok_iff.mp h
  rw [← hread.length_eq, hcount]

end Parses

/-! ### What verification accepts -/

section Accepts

variable {ark : ArkGroth16}

/-- **Off-chain acceptance**: the proof parses and verifies, and its public inputs
encode the envelope for some challenge. -/
theorem verifyAttestationDetailed_eq_ok_iff {vk : ark.Vk} {att : Attestation} :
    verifyAttestationDetailed ark vk att = .ok () ↔
      ∃ proof pis, parseProofPoints ark att.proof = .ok proof
        ∧ parsePublicInputs att.proof = .ok pis ∧ verifyProof ark vk pis proof = true
        ∧ ∃ r1 : Block, pis = [(limb att.idi : Fr), (limb r1 : Fr), (att.attestedAt.toNat : Fr)] := by
  constructor
  · intro h
    obtain ⟨proof, hproof, h⟩ := bind_eq_ok.mp h
    obtain ⟨pis, hpis, h⟩ := bind_eq_ok.mp h
    obtain ⟨hverify, h⟩ := guard_eq_ok.mp h
    obtain ⟨decoded, hdecoded, h⟩ := bind_eq_ok.mp h
    obtain ⟨hidi, h⟩ := guard_eq_ok.mp h
    obtain ⟨htime, -⟩ := guard_eq_ok.mp h
    refine ⟨proof, pis, hproof, hpis, not_not.mp hverify, decoded.r1, ?_⟩
    rw [PublicInputs.fromFr_eq_ok_iff_eq.mp (mapError_eq_ok.mp hdecoded), not_not.mp hidi,
      not_not.mp htime]
  · rintro ⟨proof, pis, hproof, hpis, hverify, r1, henc⟩
    refine bind_eq_ok.mpr ⟨proof, hproof, bind_eq_ok.mpr ⟨pis, hpis, ?_⟩⟩
    refine guard_eq_ok.mpr ⟨not_not.mpr hverify, ?_⟩
    refine bind_eq_ok.mpr ⟨⟨att.idi, r1, att.attestedAt⟩,
      mapError_eq_ok.mpr (PublicInputs.fromFr_eq_ok_iff_eq.mpr henc), ?_⟩
    exact guard_eq_ok.mpr ⟨not_not.mpr rfl, guard_eq_ok.mpr ⟨not_not.mpr rfl, rfl⟩⟩

end Accepts

end SuiCash.Prover
