import SuiCash.Sui.FelicaAuth

/-!
# The on-chain verifier

`zk_verifier.move`: a pinned verifying key, and `verify`, which checks the
envelope of an attestation and then its proof.

`sui::groth16` is native code, `SuiGroth16` what is used of it.  The trace of
`verify` records when the pairing is evaluated and on what.  `verify_result_eq_ok_iff`
is what it accepts; `mem_verify_trace` says the pairing is never evaluated for an
envelope that is inconsistent.
-/

namespace SuiCash.Sui

open Move

/-- What is used of `sui::groth16` over BN254.  Each function returns or aborts with
a code of its own. -/
structure SuiGroth16 where
  PreparedVerifyingKey : Type
  PublicProofInputs : Type
  ProofPoints : Type
  prepareVerifyingKey : List UInt8 → Except ℕ PreparedVerifyingKey
  publicProofInputsFromBytes : List UInt8 → Except ℕ PublicProofInputs
  proofPointsFromBytes : List UInt8 → Except ℕ ProofPoints
  verifyGroth16Proof : PreparedVerifyingKey → PublicProofInputs → ProofPoints → Except ℕ Bool

structure Pairing (sui : SuiGroth16) where
  prepared : sui.PreparedVerifyingKey
  inputs : sui.PublicProofInputs
  points : sui.ProofPoints

def EProofInvalid : ℕ := 1

/-- A pinned circuit identity. -/
structure VerifyingKey (sui : SuiGroth16) where
  vkBytes : List UInt8
  prepared : sui.PreparedVerifyingKey

variable {sui : SuiGroth16}

def key (sui : SuiGroth16) (vkBytes : List UInt8) :
    Exec ModuleName (Pairing sui) (VerifyingKey sui) := do
  let prepared ← Exec.native (sui.prepareVerifyingKey vkBytes)
  pure ⟨vkBytes, prepared⟩

/-- The proof itself: parsed, paired, and judged. -/
def verifyProof (k : VerifyingKey sui) (att : Attestation) :
    Exec ModuleName (Pairing sui) Unit := do
  let inputs ← Exec.native (sui.publicProofInputsFromBytes att.publicInputs)
  let points ← Exec.native (sui.proofPointsFromBytes att.proof)
  Exec.mark ⟨k.prepared, inputs, points⟩
  let valid ← Exec.native (sui.verifyGroth16Proof k.prepared inputs points)
  Exec.assert (valid = true) .zkVerifier EProofInvalid

/-- Verify `att` against the pinned key and return the claimed IDi. -/
def verify (k : VerifyingKey sui) (att : Attestation) :
    Exec ModuleName (Pairing sui) (List UInt8) := do
  assertEnvelopeConsistent att
  verifyProof k att
  pure att.idi

/-! ### What is accepted -/

/-- The Groth16 check holds for the key, the proof bytes and the public-input
bytes. -/
def Groth16Holds (k : VerifyingKey sui) (proof publicInputs : List UInt8) : Prop :=
  ∃ inputs points, sui.publicProofInputsFromBytes publicInputs = .ok inputs
    ∧ sui.proofPointsFromBytes proof = .ok points
    ∧ sui.verifyGroth16Proof k.prepared inputs points = .ok true

theorem verifyProof_result_eq_ok_iff {k : VerifyingKey sui} {att : Attestation} :
    (verifyProof k att).result = .ok () ↔ Groth16Holds k att.proof att.publicInputs := by
  unfold verifyProof Groth16Holds
  constructor
  · intro h
    obtain ⟨inputs, hinputs, h⟩ := Exec.result_bind_eq_ok.mp h
    obtain ⟨points, hpoints, h⟩ := Exec.result_bind_eq_ok.mp h
    obtain ⟨-, -, h⟩ := Exec.result_bind_eq_ok.mp h
    obtain ⟨valid, hvalid, h⟩ := Exec.result_bind_eq_ok.mp h
    obtain rfl : valid = true := Exec.assert_result_eq_ok.mp h
    exact ⟨inputs, points, Exec.native_result_eq_ok.mp hinputs,
      Exec.native_result_eq_ok.mp hpoints, Exec.native_result_eq_ok.mp hvalid⟩
  · rintro ⟨inputs, points, hinputs, hpoints, hvalid⟩
    refine Exec.result_bind_eq_ok.mpr ⟨inputs, Exec.native_result_eq_ok.mpr hinputs, ?_⟩
    refine Exec.result_bind_eq_ok.mpr ⟨points, Exec.native_result_eq_ok.mpr hpoints, ?_⟩
    refine Exec.result_bind_eq_ok.mpr ⟨(), rfl, ?_⟩
    exact Exec.result_bind_eq_ok.mpr ⟨true, Exec.native_result_eq_ok.mpr hvalid, rfl⟩

theorem mem_verifyProof_trace {k : VerifyingKey sui} {att : Attestation} {pairing : Pairing sui}
    (h : pairing ∈ (verifyProof k att).trace) : pairing.prepared = k.prepared
      ∧ sui.publicProofInputsFromBytes att.publicInputs = .ok pairing.inputs
      ∧ sui.proofPointsFromBytes att.proof = .ok pairing.points := by
  obtain h | ⟨inputs, hinputs, h⟩ := Exec.mem_trace_bind.mp h
  · cases h
  obtain h | ⟨points, hpoints, h⟩ := Exec.mem_trace_bind.mp h
  · cases h
  obtain h | ⟨_, _, h⟩ := Exec.mem_trace_bind.mp h
  · obtain rfl : pairing = ⟨k.prepared, inputs, points⟩ := List.mem_singleton.mp h
    exact ⟨rfl, Exec.native_result_eq_ok.mp hinputs, Exec.native_result_eq_ok.mp hpoints⟩
  obtain h | ⟨_, _, h⟩ := Exec.mem_trace_bind.mp h
  · cases h
  · rw [Exec.assert_trace] at h
    cases h

theorem verifyProof_namedFaults (k : VerifyingKey sui) (att : Attestation) :
    (verifyProof k att).NamedFaults := by
  refine (Exec.NamedFaults.native _).bind fun inputs => (Exec.NamedFaults.native _).bind fun points => ?_
  refine (Exec.NamedFaults.mark _).bind fun _ => (Exec.NamedFaults.native _).bind fun valid => ?_
  exact .ite (.pure ()) (.abort _ _)

/-- **A verification in closed form**: the envelope decides whether the proof is
looked at. -/
theorem verify_eq (k : VerifyingKey sui) (att : Attestation) :
    verify k att =
      if att.EnvelopeConsistent then verifyProof k att >>= fun _ => pure att.idi
      else Exec.abort .felicaAuth EEnvelopeInconsistent := by
  rw [verify, assertEnvelopeConsistent_eq]
  by_cases h : att.EnvelopeConsistent
  · rw [if_pos h, if_pos h, Exec.pure_bind]
  · rw [if_neg h, if_neg h, Exec.abort_bind]

/-- **What verification accepts.** -/
theorem verify_result_eq_ok_iff {k : VerifyingKey sui} {att : Attestation} {idi : List UInt8} :
    (verify k att).result = .ok idi ↔ att.EnvelopeConsistent
      ∧ Groth16Holds k att.proof att.publicInputs ∧ idi = att.idi := by
  rw [verify_eq]
  by_cases henv : att.EnvelopeConsistent
  · rw [if_pos henv, Exec.result_bind_eq_ok]
    constructor
    · rintro ⟨⟨⟩, hproof, hidi⟩
      exact ⟨henv, verifyProof_result_eq_ok_iff.mp hproof, (Except.ok.inj hidi).symm⟩
    · rintro ⟨-, hproof, rfl⟩
      exact ⟨(), verifyProof_result_eq_ok_iff.mpr hproof, rfl⟩
  · rw [if_neg henv]
    constructor
    · intro h; cases h
    · intro h; exact absurd h.1 henv

theorem verify_namedFaults (k : VerifyingKey sui) (att : Attestation) :
    (verify k att).NamedFaults := by
  rw [verify_eq]
  exact .ite ((verifyProof_namedFaults k att).bind fun _ => .pure _) (.abort _ _)

/-- **The pairing is evaluated only for a consistent envelope.** -/
theorem mem_verify_trace {k : VerifyingKey sui} {att : Attestation} {pairing : Pairing sui}
    (h : pairing ∈ (verify k att).trace) :
    att.EnvelopeConsistent ∧ pairing ∈ (verifyProof k att).trace := by
  rw [verify_eq] at h
  by_cases henv : att.EnvelopeConsistent
  · rw [if_pos henv] at h
    obtain h | ⟨_, _, h⟩ := Exec.mem_trace_bind.mp h
    · exact ⟨henv, h⟩
    · cases h
  · rw [if_neg henv] at h
    cases h

end SuiCash.Sui
