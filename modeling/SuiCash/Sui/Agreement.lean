import SuiCash.Prover.Wire
import SuiCash.Sui.History

/-!
# The two verifiers agree

`verify_attestation_detailed` decides off chain, on field elements; on chain
`felica_auth::new` and `zk_verifier::verify` decide on the bytes that
`proof_compressed_bytes` and `public_inputs_bytes` recover.

The two Groth16 implementations are outside the repository.  `SameGroth16` is what
is relied on: one reads what the other writes, and under the same key they judge
alike.  The rest is the envelope, which one side compares as numbers and the other
as bytes: `envelopeConsistent_iff` says that the bytes of three scalars are a
consistent envelope exactly when the scalars are the encoding of the claim, which
is also what the off-chain side decides (`verifyAttestationDetailed_eq_ok_iff`).
-/

namespace SuiCash.Sui

open Move Bytes Fallible
open Prover (ArkGroth16 Fr Groth16Proof VerifyError frToBytes frDeserialize verifyAttestationDetailed
  proofCompressedBytes publicInputsBytes parseProofPoints parsePublicInputs)

/-! ### Scalars as bytes -/

theorem canonicalLimb_iff_lt {bytes : List UInt8} (hlen : bytes.length = 32) :
    CanonicalLimb bytes ↔ leNat bytes < 2 ^ 64 := by
  have hhigh : leNat (bytes.drop 8) = leNat bytes / 256 ^ 8 := leNat_drop _ (by omega)
  rw [CanonicalLimb, ← leNat_eq_zero_iff, hhigh]
  constructor
  · rintro ⟨-, h⟩
    omega
  · intro h
    exact ⟨hlen, by omega⟩

theorem canonicalLimb_frToBytes (f : Fr) : CanonicalLimb (frToBytes f) ↔ f.val < 2 ^ 64 := by
  rw [canonicalLimb_iff_lt (Prover.frToBytes_length f), Prover.leNat_frToBytes]

theorem take_frToBytes_eq_iff {f : Fr} (hf : f.val < 2 ^ 64) (b : Des.Block) :
    (frToBytes f).take 8 = b.toList ↔ f.val = Prover.limb b := by
  have htake : leNat ((frToBytes f).take 8) = f.val := by
    rw [leNat_take _ (by rw [Prover.frToBytes_length]; decide), Prover.leNat_frToBytes,
      Nat.mod_eq_of_lt (by omega)]
  rw [Prover.limb]
  constructor
  · intro h
    rw [← h, htake]
  · intro h
    refine eq_of_leNat_eq ?_ (htake.trans h)
    rw [List.length_take, Prover.frToBytes_length, Vector.length_toList]
    rfl

theorem scalarBytes_of_append {att : Attestation} {s0 s1 s2 : List UInt8} (h0 : s0.length = 32)
    (h1 : s1.length = 32) (h2 : s2.length = 32) (h : att.publicInputs = s0 ++ (s1 ++ s2)) :
    att.scalarBytes 0 = s0 ∧ att.scalarBytes 1 = s1 ∧ att.scalarBytes 2 = s2 := by
  refine ⟨?_, ?_, ?_⟩
  · rw [Attestation.scalarBytes, h, Nat.zero_mul, List.drop_zero, List.take_left' h0]
  · rw [Attestation.scalarBytes, h, Nat.one_mul, List.drop_left' h0, List.take_left' h1]
  · rw [Attestation.scalarBytes, h, ← List.append_assoc,
      List.drop_left' (by rw [List.length_append, h0, h1]), List.take_of_length_le (by rw [h2])]

theorem scalarBytes_of_frToBytes {att : Attestation} {f0 f1 f2 : Fr}
    (h : att.publicInputs = [f0, f1, f2].flatMap frToBytes) :
    att.scalarBytes 0 = frToBytes f0 ∧ att.scalarBytes 1 = frToBytes f1
      ∧ att.scalarBytes 2 = frToBytes f2 :=
  scalarBytes_of_append (Prover.frToBytes_length f0) (Prover.frToBytes_length f1)
    (Prover.frToBytes_length f2) (by rw [h]; simp)

/-- **The envelope in field elements**: the bytes of three scalars are a consistent
envelope exactly when the scalars encode the claim, for some challenge. -/
theorem envelopeConsistent_iff {att : Attestation} {f0 f1 f2 : Fr} {idi : Des.Block}
    (hpis : att.publicInputs = [f0, f1, f2].flatMap frToBytes) (hidi : att.idi = idi.toList) :
    att.EnvelopeConsistent ↔ ∃ r1 : Des.Block, [f0, f1, f2]
      = [(Prover.limb idi : Fr), (Prover.limb r1 : Fr), (att.attestedAt.toNat : Fr)] := by
  obtain ⟨h0, h1, h2⟩ := scalarBytes_of_frToBytes hpis
  have htime_lt : att.attestedAt.toNat < Prover.r :=
    Prover.lt_r_of_lt (lt_trans att.attestedAt.toNat_lt (by decide))
  constructor
  · rintro ⟨hcan, hidi', htime⟩
    have hlt : ∀ i (hi : i < 3) f, att.scalarBytes i = frToBytes f → f.val < 2 ^ 64 :=
      fun i hi f hf => (canonicalLimb_frToBytes f).mp (hf ▸ hcan i hi)
    obtain ⟨r1, hr1⟩ := Prover.exists_limb (hlt 1 (by decide) f1 h1)
    rw [h0, hidi, take_frToBytes_eq_iff (hlt 0 (by decide) f0 h0)] at hidi'
    rw [h2, Prover.leNat_frToBytes] at htime
    refine ⟨r1, ?_⟩
    rw [← hidi', hr1, ← htime, ZMod.natCast_zmod_val, ZMod.natCast_zmod_val, ZMod.natCast_zmod_val]
  · rintro ⟨r1, hf⟩
    simp only [List.cons.injEq, and_true] at hf
    obtain ⟨rfl, rfl, rfl⟩ := hf
    have hval0 := Prover.val_natCast (Prover.limb_lt_r idi)
    have hval1 := Prover.val_natCast (Prover.limb_lt_r r1)
    have hval2 := Prover.val_natCast htime_lt
    refine ⟨?_, ?_, ?_⟩
    · intro i hi
      obtain rfl | rfl | rfl : i = 0 ∨ i = 1 ∨ i = 2 := by omega
      · rw [h0, canonicalLimb_frToBytes, hval0]
        exact Prover.limb_lt idi
      · rw [h1, canonicalLimb_frToBytes, hval1]
        exact Prover.limb_lt r1
      · rw [h2, canonicalLimb_frToBytes, hval2]
        exact att.attestedAt.toNat_lt
    · rw [h0, hidi, take_frToBytes_eq_iff (by rw [hval0]; exact Prover.limb_lt idi)]
      exact hval0
    · rw [h2, Prover.leNat_frToBytes, hval2]

/-! ### The native verifiers -/

/-- Three scalars of 32 bytes, each read as Arkworks reads one. -/
def frDeserializeThree (bytes : List UInt8) : Option (List Fr) := do
  let f0 ← frDeserialize (bytes.take 32)
  let f1 ← frDeserialize ((bytes.drop 32).take 32)
  let f2 ← frDeserialize ((bytes.drop 64).take 32)
  some [f0, f1, f2]

theorem frDeserializeThree_flatMap (f0 f1 f2 : Fr) :
    frDeserializeThree ([f0, f1, f2].flatMap frToBytes) = some [f0, f1, f2] := by
  have hlen := fun f : Fr => Prover.frToBytes_length f
  have happend : [f0, f1, f2].flatMap frToBytes = frToBytes f0 ++ (frToBytes f1 ++ frToBytes f2) := by
    simp
  have htake0 : (frToBytes f0 ++ (frToBytes f1 ++ frToBytes f2)).take 32 = frToBytes f0 :=
    List.take_left' (hlen f0)
  have htake1 : ((frToBytes f0 ++ (frToBytes f1 ++ frToBytes f2)).drop 32).take 32
      = frToBytes f1 := by
    rw [List.drop_left' (hlen f0), List.take_left' (hlen f1)]
  have htake2 : ((frToBytes f0 ++ (frToBytes f1 ++ frToBytes f2)).drop 64).take 32
      = frToBytes f2 := by
    rw [← List.append_assoc, List.drop_left' (by rw [List.length_append, hlen, hlen]),
      List.take_of_length_le (by rw [hlen])]
  rw [frDeserializeThree, happend, htake0, htake1, htake2, Prover.frDeserialize_frToBytes,
    Prover.frDeserialize_frToBytes, Prover.frDeserialize_frToBytes]
  rfl

/-- What is relied on between `ark-groth16` under a key and `sui::groth16` under the
same key: a proof can be serialized; a serialized proof of valid points is read
back; and Sui parses proof and scalars as Arkworks does and judges alike. -/
structure SameGroth16 (ark : ArkGroth16) (sui : SuiGroth16) (vk : ark.Vk) (k : VerifyingKey sui)
    (proofDeserialize : List UInt8 → Option (Prover.Proof ark.Fq)) : Prop where
  serialize_isSome : ∀ proof, proof.Checked ark → (ark.proofSerialize proof).isSome = true
  deserialize_serialize : ∀ proof bytes, proof.Checked ark →
    ark.proofSerialize proof = some bytes → proofDeserialize bytes = some proof
  holds_iff : ∀ proof publicInputs, publicInputs.length = 96 →
    (Groth16Holds k proof publicInputs ↔ ∃ parsed pis, proofDeserialize proof = some parsed
      ∧ frDeserializeThree publicInputs = some pis
      ∧ ark.verifyWithProcessedVk vk pis parsed = some true)

section Agree

variable {ark : ArkGroth16} {sui : SuiGroth16} {vk : ark.Vk} {k : VerifyingKey sui}
  {proofDeserialize : List UInt8 → Option (Prover.Proof ark.Fq)}

/-- On what a checked proof and three scalars serialize to, the two judge alike. -/
theorem SameGroth16.holds_serialized_iff (same : SameGroth16 ark sui vk k proofDeserialize)
    {proof : Prover.Proof ark.Fq} (hproof : proof.Checked ark) {bytes : List UInt8}
    (hbytes : ark.proofSerialize proof = some bytes) (f0 f1 f2 : Fr) :
    Groth16Holds k bytes ([f0, f1, f2].flatMap frToBytes)
      ↔ Prover.verifyProof ark vk [f0, f1, f2] proof = true := by
  have hlen : ([f0, f1, f2].flatMap frToBytes).length = 96 := by
    simp [Prover.frToBytes_length]
  rw [same.holds_iff _ _ hlen, same.deserialize_serialize proof bytes hproof hbytes,
    frDeserializeThree_flatMap, Prover.verifyProof]
  cases hverify : ark.verifyWithProcessedVk vk [f0, f1, f2] proof with
  | none => simp [hverify]
  | some valid => simp [hverify]

/-- The on-chain side: build the attestation, and verify it. -/
def verifyOnChain (k : VerifyingKey sui) (idi : List UInt8) (attestedAt : UInt64)
    (proof publicInputs : List UInt8) : Exec ModuleName (Pairing sui) (List UInt8) := do
  let att ← Attestation.new SUPPORTED_ALG idi attestedAt proof publicInputs
  verify k att

theorem verifyOnChain_result_eq_ok_iff {idi : Des.Block} {attestedAt : UInt64}
    {proof : List UInt8} {f0 f1 f2 : Fr} {ret : List UInt8} :
    (verifyOnChain k idi.toList attestedAt proof ([f0, f1, f2].flatMap frToBytes)).result = .ok ret
      ↔ (∃ r1 : Des.Block, [f0, f1, f2]
          = [(Prover.limb idi : Fr), (Prover.limb r1 : Fr), (attestedAt.toNat : Fr)])
        ∧ Groth16Holds k proof ([f0, f1, f2].flatMap frToBytes) ∧ ret = idi.toList := by
  have hidi : idi.toList.length = LIMB_BYTES := Vector.length_toList
  have hlen : ([f0, f1, f2].flatMap frToBytes).length = PUBLIC_INPUT_COUNT * SCALAR_BYTES := by
    simp [Prover.frToBytes_length, PUBLIC_INPUT_COUNT, SCALAR_BYTES]
  have hnew : (Attestation.new SUPPORTED_ALG idi.toList attestedAt proof
      ([f0, f1, f2].flatMap frToBytes) : Exec ModuleName (Pairing sui) _)
      = pure ⟨_, _, attestedAt, proof, _, rfl, hidi, hlen⟩ := by
    rw [Attestation.new, dif_pos rfl, dif_pos hidi, dif_pos hlen]
  rw [verifyOnChain, hnew, Exec.pure_bind, verify_result_eq_ok_iff,
    envelopeConsistent_iff rfl (Eq.refl idi.toList)]

/-- **The two verifiers agree.**  An attestation verifies off chain exactly when its
proof and its public inputs can be put into bytes and those bytes, under its own
envelope, verify on chain; and the IDi returned there is that of the envelope. -/
theorem verifyAttestationDetailed_iff_verifyOnChain
    (same : SameGroth16 ark sui vk k proofDeserialize) (att : Prover.Attestation) :
    (verifyAttestationDetailed ark vk att = .ok () ↔
        ∃ proof publicInputs idi, proofCompressedBytes ark att.proof = .ok proof
          ∧ publicInputsBytes att.proof = .ok publicInputs
          ∧ (verifyOnChain k att.idi.toList att.attestedAt proof publicInputs).result = .ok idi)
      ∧ ∀ proof publicInputs idi, proofCompressedBytes ark att.proof = .ok proof →
          publicInputsBytes att.proof = .ok publicInputs →
          (verifyOnChain k att.idi.toList att.attestedAt proof publicInputs).result = .ok idi →
          idi = att.idi.toList := by
  have hthree : ∀ {pis : List Fr}, parsePublicInputs att.proof = .ok pis →
      ∃ f0 f1 f2, pis = [f0, f1, f2] :=
    fun h => List.length_eq_three.mp (Prover.parsePublicInputs_length h)
  refine ⟨⟨?_, ?_⟩, ?_⟩
  · intro h
    obtain ⟨proof, pis, hproof, hpis, hverify, r1, henv⟩ :=
      Prover.verifyAttestationDetailed_eq_ok_iff.mp h
    have hchecked := Prover.parseProofPoints_checked hproof
    obtain ⟨bytes, hbytes⟩ := Option.isSome_iff_exists.mp (same.serialize_isSome proof hchecked)
    obtain ⟨f0, f1, f2, rfl⟩ := hthree hpis
    refine ⟨bytes, [f0, f1, f2].flatMap frToBytes, att.idi.toList, ?_, ?_, ?_⟩
    · exact bind_eq_ok.mpr ⟨proof, hproof, by rw [hbytes]⟩
    · exact bind_eq_ok.mpr ⟨_, hpis, rfl⟩
    · exact verifyOnChain_result_eq_ok_iff.mpr ⟨⟨r1, henv⟩,
        (same.holds_serialized_iff hchecked hbytes f0 f1 f2).mpr hverify, rfl⟩
  · rintro ⟨bytes, inputs, idi, hbytes, hinputs, h⟩
    obtain ⟨proof, hproof, hbytes⟩ := bind_eq_ok.mp hbytes
    obtain ⟨pis, hpis, hinputs⟩ := bind_eq_ok.mp hinputs
    cases hinputs
    obtain ⟨f0, f1, f2, rfl⟩ := hthree hpis
    have hchecked := Prover.parseProofPoints_checked hproof
    have hserialize : ark.proofSerialize proof = some bytes := by
      split at hbytes
      · rename_i out hout
        cases hbytes
        exact hout
      · cases hbytes
    obtain ⟨⟨r1, henv⟩, hholds, -⟩ := verifyOnChain_result_eq_ok_iff.mp h
    exact Prover.verifyAttestationDetailed_eq_ok_iff.mpr ⟨proof, _, hproof, hpis,
      (same.holds_serialized_iff hchecked hserialize f0 f1 f2).mp hholds, r1, henv⟩
  · intro bytes inputs idi hbytes hinputs h
    obtain ⟨pis, hpis, hinputs⟩ := bind_eq_ok.mp hinputs
    cases hinputs
    obtain ⟨f0, f1, f2, rfl⟩ := hthree hpis
    exact (verifyOnChain_result_eq_ok_iff.mp h).2.2

end Agree

/-! ### The fixture on both sides -/

namespace Fixture

def pointA : Prover.G1 (List UInt8) where
  x := hexBytes 32 0xb022865da0b83aa0a5d6c9a8c0d4b1da5437564da2e41d86492fa2ed49d8c918
  y := hexBytes 32 0x2c7edb174fc7ed2dd8feeaaff1049e35fa5dc1a0fbdfbca00baa027d8aa7310b
  infinity := false

def pointB : Prover.G2 (List UInt8) where
  x := (hexBytes 32 0xa93e3c8a5d61802efa7914725233e4176ec14e808a3d70d1eb5ef46072bf6924,
    hexBytes 32 0x7c543a620b2bdce0bab7e23bd3b19910c9deef90190219402aba31bd2a96bc23)
  y := (hexBytes 32 0x31d8471098330cf8db6d77fe9cef0e89d5d3f2102d75abcd23a092f4c0bf9427,
    hexBytes 32 0x84a0162b4b2b63f293557df2e07fe2987ee0aa5fed47e074979b1600dce0e220)
  infinity := false

def pointC : Prover.G1 (List UInt8) where
  x := hexBytes 32 0x28dd055e42ce405d52c89fd857daf73a262c8947a48d2390a2ec0bfd17348f04
  y := hexBytes 32 0xae75e5f9c0b5aaf5915a1db8d962d1a96a17dda5c70266bb19e9e641b6b2390b
  infinity := false

def proofPoints : Prover.Proof (List UInt8) := ⟨pointA, pointB, pointC⟩

def scalars : List Fr := [(0x8070605040302010 : ℕ), (0x7766554433221100 : ℕ), (1758768000 : ℕ)]

def compress (point : Prover.G1 (List UInt8)) : List UInt8 :=
  if point = pointA then proofA else proofC

def decompress (bytes : List UInt8) : Option (Prover.G1 (List UInt8)) :=
  if bytes = proofA then some pointA else if bytes = proofC then some pointC else none

/-- Arkworks as far as the fixture shows it: three points, and one proof that holds. -/
def ark : ArkGroth16 where
  Fq := List UInt8
  Vk := Unit
  fqDeserialize raw := if raw.length < 32 then none else some (raw.take 32)
  fqSerialize := id
  g1IsOnCurve point := decide (point = pointA ∨ point = pointC)
  g1IsInSubgroup _ := true
  g2IsOnCurve point := decide (point = pointB)
  g2IsInSubgroup _ := true
  proofSerialize proof := some (compress proof.a ++ proofB ++ compress proof.c)
  verifyWithProcessedVk _ pis proof := some (decide (pis = scalars ∧ proof = proofPoints))

def proofDeserialize (bytes : List UInt8) : Option (Prover.Proof (List UInt8)) := do
  let a ← decompress (bytes.take 32)
  let c ← decompress (bytes.drop 96)
  if (bytes.drop 32).take 64 = proofB then some ⟨a, pointB, c⟩ else none

theorem g1IsOnCurve_iff {point : Prover.G1 (List UInt8)} :
    ark.g1IsOnCurve point = true ↔ point = pointA ∨ point = pointC := by
  show decide (point = pointA ∨ point = pointC) = true ↔ _
  exact decide_eq_true_iff

theorem g2IsOnCurve_iff {point : Prover.G2 (List UInt8)} :
    ark.g2IsOnCurve point = true ↔ point = pointB := by
  show decide (point = pointB) = true ↔ _
  exact decide_eq_true_iff

theorem verifyWithProcessedVk_iff {pis : List Fr} {p : Prover.Proof (List UInt8)} :
    ark.verifyWithProcessedVk () pis p = some true ↔ pis = scalars ∧ p = proofPoints := by
  show some (decide (pis = scalars ∧ p = proofPoints)) = some true ↔ _
  rw [Option.some.injEq, decide_eq_true_iff]

theorem pointC_ne_pointA : pointC ≠ pointA := by decide

theorem proofC_ne_proofA : proofC ≠ proofA := by decide

theorem compress_pointA : compress pointA = proofA := if_pos rfl

theorem compress_pointC : compress pointC = proofC := if_neg pointC_ne_pointA

theorem decompress_compress {point : Prover.G1 (List UInt8)}
    (h : point = pointA ∨ point = pointC) : decompress (compress point) = some point := by
  rcases h with rfl | rfl
  · rw [compress, if_pos rfl, decompress, if_pos rfl]
  · rw [compress, if_neg pointC_ne_pointA, decompress, if_neg proofC_ne_proofA, if_pos rfl]

theorem compress_length (point : Prover.G1 (List UInt8)) : (compress point).length = 32 := by
  have hbytes : ∀ n x, (hexBytes n x).length = n := fun n x => by simp [hexBytes]
  unfold compress
  split
  · exact hbytes 32 _
  · exact hbytes 32 _

theorem proofB_length : proofB.length = 64 := by simp [proofB, hexBytes]

theorem decompress_eq_pointA_iff {bytes : List UInt8} :
    decompress bytes = some pointA ↔ bytes = proofA := by
  unfold decompress
  by_cases h : bytes = proofA
  · simp [h]
  · by_cases hC : bytes = proofC
    · rw [if_neg h, if_pos hC, Option.some.injEq]
      exact ⟨fun hpoint => absurd hpoint pointC_ne_pointA, fun hA => absurd hA h⟩
    · simp [h, hC]

theorem decompress_eq_pointC_iff {bytes : List UInt8} :
    decompress bytes = some pointC ↔ bytes = proofC := by
  unfold decompress
  by_cases h : bytes = proofA
  · rw [if_pos h, Option.some.injEq]
    exact ⟨fun hpoint => absurd hpoint.symm pointC_ne_pointA, fun hC =>
      absurd (hC.symm.trans h) proofC_ne_proofA⟩
  · by_cases hC : bytes = proofC
    · simp [hC, proofC_ne_proofA]
    · simp [h, hC]

theorem slices (a c : Prover.G1 (List UInt8)) :
    (compress a ++ proofB ++ compress c).take 32 = compress a
      ∧ ((compress a ++ proofB ++ compress c).drop 32).take 64 = proofB
      ∧ (compress a ++ proofB ++ compress c).drop 96 = compress c := by
  refine ⟨?_, ?_, ?_⟩
  · rw [List.append_assoc, List.take_left' (compress_length a)]
  · rw [List.append_assoc, List.drop_left' (compress_length a), List.take_left' proofB_length]
  · rw [List.drop_left' (by rw [List.length_append, compress_length, proofB_length])]

/-- Only the fixture bytes are read as the fixture proof. -/
theorem proofDeserialize_eq_proofPoints_iff {bytes : List UInt8} :
    proofDeserialize bytes = some proofPoints ↔ bytes = proof := by
  constructor
  · intro h
    obtain ⟨a, ha, h⟩ := Option.bind_eq_some_iff.mp h
    obtain ⟨c, hc, h⟩ := Option.bind_eq_some_iff.mp h
    split at h
    · rename_i hB
      obtain ⟨rfl, rfl⟩ : a = pointA ∧ c = pointC := by
        have := Option.some.inj h
        simp only [proofPoints, Prover.Proof.mk.injEq] at this
        exact ⟨this.1, this.2.2⟩
      rw [decompress_eq_pointA_iff] at ha
      rw [decompress_eq_pointC_iff] at hc
      have hsplit : bytes = bytes.take 32 ++ ((bytes.drop 32).take 64 ++ bytes.drop 96) := by
        rw [show (96 : ℕ) = 32 + 64 from rfl, ← List.drop_drop, List.take_append_drop,
          List.take_append_drop]
      rw [hsplit, ha, hB, hc, proof, List.append_assoc]
    · cases h
  · rintro rfl
    obtain ⟨h1, h2, h3⟩ := slices pointA pointC
    rw [compress_pointA, compress_pointC] at h1 h2 h3
    rw [proofDeserialize, proof, h1, h2, h3, decompress_eq_pointA_iff.mpr rfl,
      decompress_eq_pointC_iff.mpr rfl]
    show (if proofB = proofB then some proofPoints else none) = some proofPoints
    exact if_pos rfl

theorem scalars_bytes : publicInputs = scalars.flatMap frToBytes := by
  have hr : ∀ n : ℕ, n < 2 ^ 64 → frToBytes (n : Fr) = leBytes 32 n := by
    intro n hn
    rw [frToBytes, Prover.val_natCast (Prover.lt_r_of_lt (lt_trans hn (by decide)))]
  rw [scalars, List.flatMap_cons, List.flatMap_cons, List.flatMap_cons, List.flatMap_nil,
    hr _ (by decide), hr _ (by decide), hr _ (by decide)]
  decide

/-- On bytes of the right length, only the fixture inputs are read as the fixture
scalars. -/
theorem frDeserializeThree_eq_scalars_iff {bytes : List UInt8} (hlen : bytes.length = 96) :
    frDeserializeThree bytes = some scalars ↔ bytes = publicInputs := by
  constructor
  · intro h
    obtain ⟨f0, h0, h⟩ := Option.bind_eq_some_iff.mp h
    obtain ⟨f1, h1, h⟩ := Option.bind_eq_some_iff.mp h
    obtain ⟨f2, h2, h⟩ := Option.bind_eq_some_iff.mp h
    rw [Prover.frDeserialize_eq_some_iff, List.take_take, Nat.min_self] at h0 h1 h2
    have hsplit : bytes = bytes.take 32 ++ ((bytes.drop 32).take 32 ++ (bytes.drop 64).take 32) := by
      have hlast : (bytes.drop 64).take 32 = bytes.drop 64 :=
        List.take_of_length_le (by rw [List.length_drop]; omega)
      rw [hlast, show (64 : ℕ) = 32 + 32 from rfl, ← List.drop_drop, List.take_append_drop,
        List.take_append_drop]
    rw [scalars_bytes, ← Option.some.inj h, hsplit, h0, h1, h2]
    simp
  · rintro rfl
    rw [scalars_bytes]
    exact frDeserializeThree_flatMap _ _ _

def verifierKey : VerifyingKey groth16 := ⟨vk, ()⟩

theorem same : SameGroth16 ark groth16 () verifierKey proofDeserialize where
  serialize_isSome _ _ := rfl
  deserialize_serialize p bytes hp hbytes := by
    have ha := g1IsOnCurve_iff.mp hp.a_valid.1
    have hc := g1IsOnCurve_iff.mp hp.c_valid.1
    have hb := g2IsOnCurve_iff.mp hp.b_valid.1
    obtain rfl := Option.some.inj hbytes
    obtain ⟨h1, h2, h3⟩ := slices p.a p.c
    rw [proofDeserialize, h1, h2, h3, decompress_compress ha, decompress_compress hc]
    show (if proofB = proofB then some (⟨p.a, pointB, p.c⟩ : Prover.Proof (List UInt8)) else none)
      = some p
    rw [if_pos rfl, ← hb]
    rfl
  holds_iff bytes inputs hlen := by
    constructor
    · rintro ⟨_, _, ⟨⟩, ⟨⟩, hverify⟩
      obtain ⟨rfl, rfl⟩ := of_decide_eq_true (Except.ok.inj hverify)
      exact ⟨proofPoints, scalars, proofDeserialize_eq_proofPoints_iff.mpr rfl,
        (frDeserializeThree_eq_scalars_iff hlen).mpr rfl, verifyWithProcessedVk_iff.mpr ⟨rfl, rfl⟩⟩
    · rintro ⟨parsed, pis, hparsed, hpis, hverify⟩
      obtain ⟨rfl, rfl⟩ := verifyWithProcessedVk_iff.mp hverify
      have hparsed := proofDeserialize_eq_proofPoints_iff.mp hparsed
      have hpis := (frDeserializeThree_eq_scalars_iff hlen).mp hpis
      exact ⟨inputs, bytes, rfl, rfl, congrArg Except.ok (decide_eq_true ⟨hpis, hparsed⟩)⟩

def attestation : Prover.Attestation where
  idi := #v[0x10, 0x20, 0x30, 0x40, 0x50, 0x60, 0x70, 0x80]
  attestedAt := attestedAt
  proof := Prover.wireProof ark proofPoints scalars

theorem proofPoints_checked : Prover.Proof.Checked ark proofPoints :=
  ⟨rfl, rfl, rfl, ⟨g1IsOnCurve_iff.mpr (.inl rfl), rfl⟩, ⟨g1IsOnCurve_iff.mpr (.inr rfl), rfl⟩,
    ⟨g2IsOnCurve_iff.mpr rfl, rfl⟩⟩

theorem attestation_points :
    Prover.parseProofPoints ark attestation.proof = .ok proofPoints := by
  have hread : ∀ x, ark.fqDeserialize (ark.fqSerialize (hexBytes 32 x)) = some (hexBytes 32 x) := by
    intro x
    have hlen : (hexBytes 32 x).length = 32 := by simp [hexBytes]
    show (if (hexBytes 32 x).length < 32 then none else some ((hexBytes 32 x).take 32)) = _
    rw [if_neg (by omega), List.take_of_length_le (by omega)]
  refine Prover.parseProofPoints_wireProof proofPoints_checked (fun f hf => ?_) scalars
  simp only [Prover.Proof.coordinates, List.mem_cons, List.not_mem_nil, or_false] at hf
  rcases hf with rfl | rfl | rfl | rfl | rfl | rfl | rfl | rfl <;> exact hread _

theorem attestation_inputs : parsePublicInputs attestation.proof = .ok scalars :=
  @Prover.parsePublicInputs_wireProof ark proofPoints scalars rfl

theorem proofSerialize_proofPoints : ark.proofSerialize proofPoints = some proof := by
  show some (compress pointA ++ proofB ++ compress pointC) = some proof
  rw [compress_pointA, compress_pointC, proof]

theorem attestation_verifies : verifyAttestationDetailed ark () attestation = .ok () := by
  refine Prover.verifyAttestationDetailed_eq_ok_iff.mpr ⟨proofPoints, scalars, attestation_points,
    attestation_inputs, ?_, #v[0x00, 0x11, 0x22, 0x33, 0x44, 0x55, 0x66, 0x77], ?_⟩
  · show (ark.verifyWithProcessedVk () scalars proofPoints).getD false = true
    rw [verifyWithProcessedVk_iff.mpr ⟨rfl, rfl⟩, Option.getD_some]
  · have hidi : Prover.limb attestation.idi = 0x8070605040302010 := by decide
    have hr1 : Prover.limb #v[0x00, 0x11, 0x22, 0x33, 0x44, 0x55, 0x66, 0x77]
        = 0x7766554433221100 := by decide
    rw [hidi, hr1]
    rfl

end Fixture

/-- The fixture verifies off chain, and so it does on chain. -/
theorem verifyAttestationDetailed_iff_verifyOnChain_fixture :
    ∃ proof publicInputs idi,
      proofCompressedBytes Fixture.ark Fixture.attestation.proof = .ok proof
        ∧ publicInputsBytes Fixture.attestation.proof = .ok publicInputs
        ∧ (verifyOnChain Fixture.verifierKey Fixture.attestation.idi.toList
          Fixture.attestation.attestedAt proof publicInputs).result = .ok idi :=
  (verifyAttestationDetailed_iff_verifyOnChain Fixture.same Fixture.attestation).1.mp
    Fixture.attestation_verifies

end SuiCash.Sui
