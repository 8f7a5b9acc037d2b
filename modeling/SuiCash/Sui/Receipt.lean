import SuiCash.Sui.Blob

/-!
# Accepted calls

What `suicash_gate::verify` accepts, as a whole: from the arguments of a call to its receipt.
On the blob of a statement that is proved, only the gate's own checks are left
(`SuicashGate.verify_statement_iff`).
-/

namespace SuiCash.Sui

open Move

variable {sui : SuiGroth16} {gate gate' : Gate sui}

/-- **What an accepted call has shown**, and what it leaves. -/
theorem SuicashGate.verify_result_eq_ok {idi proof publicInputs r1 : List UInt8}
    {attestedAt timestampMs : UInt64} {sender : Address} {receipt : AttestationVerified}
    (h : (SuicashGate.verify gate idi attestedAt proof publicInputs r1 timestampMs sender).result
      = .ok (gate', receipt)) :
    (∃ att : Attestation, att.idi = idi ∧ att.attestedAt = attestedAt
        ∧ att.publicInputs = publicInputs ∧ gate.Presentable att r1 (timestampMs / 1000))
      ∧ Groth16Holds gate.verifierKey proof publicInputs
      ∧ receipt = ⟨idi, r1, attestedAt, sender⟩ ∧ r1 ∈ gate'.seen.keys := by
  obtain ⟨att, hnew, h⟩ := Exec.result_bind_eq_ok.mp h
  obtain ⟨⟨idi', gate''⟩, hclaim, h⟩ := Exec.result_bind_eq_ok.mp h
  cases h
  unfold Attestation.new at hnew
  split at hnew
  · split at hnew
    · split at hnew
      · cases hnew
        obtain ⟨hpresentable, hproof, rfl, seen, hseen, rfl⟩ := Gate.verifyAndClaim_result_eq_ok hclaim
        refine ⟨⟨_, rfl, rfl, rfl, hpresentable⟩, hproof, rfl, ?_⟩
        rw [hseen]
        exact List.mem_append_right _ List.mem_cons_self
      · cases hnew
    · cases hnew
  · cases hnew

theorem SuicashGate.exists_verify_result (att : Attestation) {r1 : List UInt8}
    {timestampMs : UInt64} (h : gate.Presentable att r1 (timestampMs / 1000))
    (hproof : Groth16Holds gate.verifierKey att.proof att.publicInputs) (sender : Address) :
    ∃ ret, (SuicashGate.verify gate att.idi att.attestedAt att.proof att.publicInputs r1 timestampMs
      sender).result = .ok ret := by
  obtain ⟨gate', hclaim⟩ := Gate.exists_verifyAndClaim_result h hproof
  have hnew : (Attestation.new SUPPORTED_ALG att.idi att.attestedAt att.proof att.publicInputs :
      Exec ModuleName (Pairing sui) _) = pure att := by
    rw [Attestation.new, dif_pos rfl, dif_pos att.idi_length, dif_pos att.publicInputs_length]
    congr
    exact att.alg_eq.symm
  refine ⟨_, Exec.result_bind_eq_ok.mpr ⟨att, ?_, Exec.result_bind_eq_ok.mpr ⟨_, hclaim, rfl⟩⟩⟩
  rw [hnew]
  rfl

theorem Gate.Presentable.publicInputs_eq {att : Attestation} {r1 : List UInt8}
    {nowSeconds : UInt64} (h : gate.Presentable att r1 nowSeconds) :
    att.publicInputs = statementBlob att.idi r1 att.attestedAt := by
  obtain ⟨r1', hlen, hblob⟩ := (envelopeConsistent_iff_statementBlob att).mp h.envelope
  obtain ⟨-, hscalar, -⟩ := scalarBytes_of_append (scalarOfLimb_length att.idi_length)
    (scalarOfLimb_length hlen) (scalarOfLimb_length (Bytes.leBytes_length _ _)) hblob
  have hr1 := h.challenge.r1_eq
  rw [hscalar, take_scalarOfLimb hlen] at hr1
  rw [hblob, hr1]

theorem presentable_statementBlob_iff {att : Attestation} {r1 : List UInt8} (hlen : r1.length = 8)
    (hblob : att.publicInputs = statementBlob att.idi r1 att.attestedAt) {nowSeconds : UInt64} :
    gate.Presentable att r1 nowSeconds
      ↔ att.WithinDrift nowSeconds gate.maxClockDriftSeconds ∧ gate.Admits att.idi
        ∧ r1 ∉ gate.seen.keys := by
  obtain ⟨-, hscalar, -⟩ := scalarBytes_of_append (scalarOfLimb_length att.idi_length)
    (scalarOfLimb_length hlen) (scalarOfLimb_length (Bytes.leBytes_length _ _)) hblob
  constructor
  · rintro ⟨hdrift, hadmitted, -, hfresh, -⟩
    exact ⟨hdrift, hadmitted, hfresh⟩
  · rintro ⟨hdrift, hadmitted, hfresh⟩
    refine ⟨hdrift, hadmitted, ⟨hlen, ?_, ?_⟩, hfresh, ?_⟩
    · rw [hscalar]
      exact canonicalLimb_iff_scalarOfLimb.mpr ⟨r1, hlen, rfl⟩
    · rw [hscalar, take_scalarOfLimb hlen]
    · exact (envelopeConsistent_iff_statementBlob att).mpr ⟨r1, hlen, hblob⟩

theorem flatMap_statement (idi r1 : Des.Block) (attestedAt : UInt64) :
    [(Prover.limb idi : Prover.Fr), (Prover.limb r1 : Prover.Fr), (attestedAt.toNat : Prover.Fr)].flatMap
        Prover.frToBytes
      = statementBlob idi.toList r1.toList attestedAt := by
  have hblob := toFr_serialize idi r1 attestedAt
  rw [Prover.PublicInputs.toFr_eq] at hblob
  exact Except.ok.inj hblob

/-- **A call with a proof of its statement** is accepted when the gate is ready for it. -/
theorem SuicashGate.verify_statement_iff {idi r1 : Des.Block} {attestedAt : UInt64}
    {proof : List UInt8}
    (hproof : Groth16Holds gate.verifierKey proof (statementBlob idi.toList r1.toList attestedAt))
    (timestampMs : UInt64) (sender : Address) :
    (∃ ret, (SuicashGate.verify gate idi.toList attestedAt proof
        (statementBlob idi.toList r1.toList attestedAt) r1.toList timestampMs sender).result = .ok ret)
      ↔ ((attestedAt.toNat : ℤ) - (timestampMs / 1000).toNat).natAbs ≤ gate.maxClockDriftSeconds.toNat
        ∧ gate.Admits idi.toList ∧ r1.toList ∉ gate.seen.keys := by
  have hlen : (statementBlob idi.toList r1.toList attestedAt).length
      = PUBLIC_INPUT_COUNT * SCALAR_BYTES := by
    rw [← flatMap_statement]
    simp [Prover.frToBytes_length, PUBLIC_INPUT_COUNT, SCALAR_BYTES]
  let att : Attestation := ⟨SUPPORTED_ALG, idi.toList, attestedAt, proof,
    statementBlob idi.toList r1.toList attestedAt, rfl, Vector.length_toList, hlen⟩
  have hpresentable : gate.Presentable att r1.toList (timestampMs / 1000)
      ↔ att.WithinDrift (timestampMs / 1000) gate.maxClockDriftSeconds ∧ gate.Admits att.idi
        ∧ r1.toList ∉ gate.seen.keys :=
    presentable_statementBlob_iff Vector.length_toList rfl
  refine Iff.trans ?_ hpresentable
  constructor
  · rintro ⟨⟨gate', receipt⟩, haccepted⟩
    obtain ⟨⟨att', hidi, htime, -, hatt'⟩, -⟩ := SuicashGate.verify_result_eq_ok haccepted
    have hdrift := hatt'.drift
    have hadmitted := hatt'.admitted
    rw [Attestation.WithinDrift, htime] at hdrift
    rw [hidi] at hadmitted
    exact hpresentable.mpr ⟨hdrift, hadmitted, hatt'.fresh⟩
  · intro h
    exact SuicashGate.exists_verify_result att h hproof sender

namespace Fixture

theorem proofPoints_round : ∀ f ∈ proofPoints.coordinates, ark.fqDeserialize (ark.fqSerialize f) = some f := by
  intro f hf
  have hread : ∀ x, ark.fqDeserialize (ark.fqSerialize (hexBytes 32 x)) = some (hexBytes 32 x) := by
    intro x
    have hlen : (hexBytes 32 x).length = 32 := by simp [hexBytes]
    show (if (hexBytes 32 x).length < 32 then none else some ((hexBytes 32 x).take 32)) = _
    rw [if_neg (by omega), List.take_of_length_le (by omega)]
  simp only [Prover.Proof.coordinates, List.mem_cons, List.not_mem_nil, or_false] at hf
  rcases hf with rfl | rfl | rfl | rfl | rfl | rfl | rfl | rfl <;> exact hread _

end Fixture

end SuiCash.Sui
