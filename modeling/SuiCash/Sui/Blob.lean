import SuiCash.Prover.WireLength
import SuiCash.Sui.Agreement

/-!
# The public-input blob

Ninety-six bytes carry a statement to the chain: three scalars of 32 bytes, each an
eight-byte limb under 24 zeros.  `felica_auth.move` cuts them up by hand;
`assertEnvelopeConsistent_iff_statementBlob` says what that comes to.  The check passes on
exactly one blob for each identifier, challenge and time, `statementBlob`, which is
also what the prover's packing serializes to (`toFr_serialize`).

Off chain `public_inputs_bytes` recovers a blob from the wire.  It lets through every
scalar below the field order, where the chain asks for eight bytes:
`publicInputsBytes_iff_canonical` says on which proofs that makes a difference.
-/

namespace SuiCash.Sui

open Move Bytes Fallible
open Prover (Fr Groth16Proof VerifyError frToBytes parseFr publicInputsBytes parsePublicInputs)

/-- `felica_auth::r1`: the holder challenge the proof is bound to. -/
def Attestation.r1 {τ : Type} (att : Attestation) : Exec ModuleName τ (List UInt8) := limb att 1

/-- A limb as a scalar: 24 zero bytes above it. -/
def scalarOfLimb (l : List UInt8) : List UInt8 := l ++ List.replicate 24 0

def statementBlob (idi r1 : List UInt8) (attestedAt : UInt64) : List UInt8 :=
  scalarOfLimb idi ++ (scalarOfLimb r1 ++ scalarOfLimb (leBytes 8 attestedAt.toNat))

/-! ### Scalars of limbs -/

theorem scalarOfLimb_length {l : List UInt8} (h : l.length = 8) : (scalarOfLimb l).length = 32 := by
  rw [scalarOfLimb, List.length_append, List.length_replicate, h]

theorem take_scalarOfLimb {l : List UInt8} (h : l.length = 8) : (scalarOfLimb l).take 8 = l :=
  List.take_left' h

@[simp] theorem leNat_scalarOfLimb (l : List UInt8) : leNat (scalarOfLimb l) = leNat l := by
  have hzero : leNat (List.replicate 24 0) = 0 :=
    leNat_eq_zero_iff.mpr fun _ hb => List.eq_of_mem_replicate hb
  rw [scalarOfLimb, leNat_append, hzero, Nat.mul_zero, Nat.add_zero]

/-- **Canonical scalars are those of limbs.** -/
theorem canonicalLimb_iff_scalarOfLimb {bytes : List UInt8} :
    CanonicalLimb bytes ↔ ∃ l, l.length = 8 ∧ bytes = scalarOfLimb l := by
  constructor
  · rintro ⟨hlen, hzero⟩
    refine ⟨bytes.take 8, List.length_take_of_le (by omega), ?_⟩
    have hdrop : bytes.drop 8 = List.replicate 24 0 :=
      List.eq_replicate_iff.mpr ⟨by rw [List.length_drop, hlen], hzero⟩
    rw [scalarOfLimb, ← hdrop, List.take_append_drop]
  · rintro ⟨l, hl, rfl⟩
    refine ⟨scalarOfLimb_length hl, fun b hb => ?_⟩
    rw [scalarOfLimb, List.drop_left' hl] at hb
    exact List.eq_of_mem_replicate hb

theorem frToBytes_natCast {l : List UInt8} (h : l.length = 8) :
    frToBytes (leNat l : Fr) = scalarOfLimb l := by
  have hlt : leNat l < Prover.r := by
    have := leNat_lt l
    rw [h] at this
    exact Prover.lt_r_of_lt (lt_trans this (by decide))
  refine eq_of_leNat_eq ?_ ?_
  · rw [Prover.frToBytes_length, scalarOfLimb_length h]
  · rw [Prover.leNat_frToBytes, Prover.val_natCast hlt, leNat_scalarOfLimb]

/-! ### The three scalars -/

theorem publicInputs_eq_append (att : Attestation) :
    att.publicInputs = att.scalarBytes 0 ++ (att.scalarBytes 1 ++ att.scalarBytes 2) := by
  have hlen : att.publicInputs.length = 96 := att.publicInputs_length
  have hlast : att.scalarBytes 2 = att.publicInputs.drop 64 := by
    rw [Attestation.scalarBytes, List.take_of_length_le (by rw [List.length_drop]; omega)]
  rw [hlast, Attestation.scalarBytes, Attestation.scalarBytes, Nat.zero_mul, List.drop_zero,
    Nat.one_mul, show (64 : ℕ) = 32 + 32 from rfl, ← List.drop_drop, List.take_append_drop,
    List.take_append_drop]

/-- **The number of a scalar** is `n` exactly on the scalar of the eight bytes of `n`. -/
theorem scalarU64_result_eq_ok_iff {τ : Type} (att : Attestation) {index : ℕ} (h : index < 3)
    {n : UInt64} :
    (scalarU64 att index : Exec ModuleName τ UInt64).result = .ok n
      ↔ att.scalarBytes index = scalarOfLimb (leBytes 8 n.toNat) := by
  rw [scalarU64_eq att h]
  have hn : n.toNat < 256 ^ 8 := lt_of_lt_of_eq n.toNat_lt (by decide)
  constructor
  · intro hres
    by_cases hcan : CanonicalLimb (att.scalarBytes index)
    · rw [if_pos hcan] at hres
      obtain ⟨l, hl, hbytes⟩ := canonicalLimb_iff_scalarOfLimb.mp hcan
      have hval : UInt64.ofNat (leNat ((att.scalarBytes index).take 8)) = n := Except.ok.inj hres
      rw [hbytes, take_scalarOfLimb hl] at hval
      have hlt : leNat l < 2 ^ 64 := by
        have := leNat_lt l
        rw [hl] at this
        exact lt_of_lt_of_eq this (by decide)
      rw [hbytes, ← hval, UInt64.toNat_ofNat_of_lt' hlt, ← hl, leBytes_leNat]
    · rw [if_neg hcan] at hres
      cases hres
  · intro hbytes
    have hlen : (leBytes 8 n.toNat).length = 8 := leBytes_length _ _
    rw [if_pos (canonicalLimb_iff_scalarOfLimb.mpr ⟨_, hlen, hbytes⟩), hbytes, take_scalarOfLimb hlen,
      leNat_leBytes hn, UInt64.ofNat_toNat]
    rfl

/-! ### One blob for a statement -/

theorem envelopeConsistent_iff_statementBlob (att : Attestation) :
    att.EnvelopeConsistent ↔ ∃ r1, r1.length = 8
      ∧ att.publicInputs = statementBlob att.idi r1 att.attestedAt := by
  have htime_length : (leBytes 8 att.attestedAt.toNat).length = 8 := leBytes_length _ _
  have htime_lt : att.attestedAt.toNat < 256 ^ 8 :=
    lt_of_lt_of_eq att.attestedAt.toNat_lt (by decide)
  constructor
  · rintro ⟨hcan, hidi, htime⟩
    obtain ⟨l0, hl0, h0⟩ := canonicalLimb_iff_scalarOfLimb.mp (hcan 0 (by decide))
    obtain ⟨l1, hl1, h1⟩ := canonicalLimb_iff_scalarOfLimb.mp (hcan 1 (by decide))
    obtain ⟨l2, hl2, h2⟩ := canonicalLimb_iff_scalarOfLimb.mp (hcan 2 (by decide))
    rw [h0, take_scalarOfLimb hl0] at hidi
    rw [h2, leNat_scalarOfLimb] at htime
    refine ⟨l1, hl1, ?_⟩
    rw [publicInputs_eq_append, h0, h1, h2, statementBlob, hidi, ← htime, ← hl2, leBytes_leNat]
  · rintro ⟨l1, hl1, hblob⟩
    obtain ⟨h0, h1, h2⟩ := scalarBytes_of_append (scalarOfLimb_length att.idi_length)
      (scalarOfLimb_length hl1) (scalarOfLimb_length htime_length) hblob
    refine ⟨fun i hi => ?_, ?_, ?_⟩
    · obtain rfl | rfl | rfl : i = 0 ∨ i = 1 ∨ i = 2 := by omega
      · exact canonicalLimb_iff_scalarOfLimb.mpr ⟨_, att.idi_length, h0⟩
      · exact canonicalLimb_iff_scalarOfLimb.mpr ⟨_, hl1, h1⟩
      · exact canonicalLimb_iff_scalarOfLimb.mpr ⟨_, htime_length, h2⟩
    · rw [h0, take_scalarOfLimb att.idi_length]
    · rw [h2, leNat_scalarOfLimb, leNat_leBytes htime_lt]

/-- The challenge in a blob is what `felica_auth::r1` reads. -/
theorem r1_of_statementBlob {τ : Type} {att : Attestation} {r1 : List UInt8} (hr1 : r1.length = 8)
    (h : att.publicInputs = statementBlob att.idi r1 att.attestedAt) :
    (att.r1 : Exec ModuleName τ (List UInt8)).result = .ok r1 := by
  obtain ⟨-, h1, -⟩ := scalarBytes_of_append (scalarOfLimb_length att.idi_length)
    (scalarOfLimb_length hr1) (scalarOfLimb_length (leBytes_length _ _)) h
  rw [Attestation.r1, limb_eq att (by decide),
    if_pos (canonicalLimb_iff_scalarOfLimb.mpr ⟨r1, hr1, h1⟩), h1, take_scalarOfLimb hr1]
  rfl

theorem toFr_serialize (idi r1 : Des.Block) (attestedAt : UInt64) :
    (Prover.PublicInputs.toFr ⟨idi, r1, attestedAt⟩).map (fun v => v.toList.flatMap frToBytes)
      = .ok (statementBlob idi.toList r1.toList attestedAt) := by
  have htime : attestedAt.toNat = leNat (leBytes 8 attestedAt.toNat) :=
    (leNat_leBytes (lt_of_lt_of_eq attestedAt.toNat_lt (by decide))).symm
  have hscalars : [(Prover.limb idi : Fr), (Prover.limb r1 : Fr), (attestedAt.toNat : Fr)].flatMap
      frToBytes = statementBlob idi.toList r1.toList attestedAt := by
    rw [List.flatMap_cons, List.flatMap_cons, List.flatMap_cons, List.flatMap_nil, List.append_nil,
      htime, Prover.limb, Prover.limb, frToBytes_natCast Vector.length_toList,
      frToBytes_natCast Vector.length_toList, frToBytes_natCast (leBytes_length _ _),
      statementBlob]
  rw [Prover.PublicInputs.toFr_eq]
  exact congrArg Except.ok hscalars

/-- **Blobs and statements correspond.**  The envelope check passes exactly on the blob
of the envelope with some challenge, the one `felica_auth::r1` reads; so there is one
blob for a statement.  `scalar_u64` inverts the eight-byte encoding, and the blob is
the serialized packing of the prover. -/
theorem assertEnvelopeConsistent_iff_statementBlob (τ : Type) :
    (∀ att : Attestation, (assertEnvelopeConsistent att : Exec ModuleName τ Unit).result = .ok () ↔
      ∃ r1, r1.length = 8 ∧ att.publicInputs = statementBlob att.idi r1 att.attestedAt)
    ∧ (∀ (att : Attestation) (r1 : List UInt8), r1.length = 8 →
      att.publicInputs = statementBlob att.idi r1 att.attestedAt →
      (att.r1 : Exec ModuleName τ (List UInt8)).result = .ok r1)
    ∧ (∀ att att' : Attestation,
      (assertEnvelopeConsistent att : Exec ModuleName τ Unit).result = .ok () →
      (assertEnvelopeConsistent att' : Exec ModuleName τ Unit).result = .ok () →
      att.idi = att'.idi →
      (att.r1 : Exec ModuleName τ (List UInt8)).result = (att'.r1 : Exec ModuleName τ _).result →
      att.attestedAt = att'.attestedAt → att.publicInputs = att'.publicInputs)
    ∧ (∀ (att : Attestation) (index : ℕ) (n : UInt64), index < PUBLIC_INPUT_COUNT →
      ((scalarU64 att index : Exec ModuleName τ UInt64).result = .ok n ↔
        att.scalarBytes index = scalarOfLimb (leBytes 8 n.toNat)))
    ∧ ∀ (idi r1 : Des.Block) (attestedAt : UInt64),
      (Prover.PublicInputs.toFr ⟨idi, r1, attestedAt⟩).map (fun v => v.toList.flatMap frToBytes)
        = .ok (statementBlob idi.toList r1.toList attestedAt) := by
  have hcheck : ∀ att : Attestation,
      (assertEnvelopeConsistent att : Exec ModuleName τ Unit).result = .ok () ↔
        ∃ r1, r1.length = 8 ∧ att.publicInputs = statementBlob att.idi r1 att.attestedAt := by
    intro att
    rw [← envelopeConsistent_iff_statementBlob, assertEnvelopeConsistent_eq]
    by_cases h : att.EnvelopeConsistent
    · rw [if_pos h]
      exact ⟨fun _ => h, fun _ => rfl⟩
    · rw [if_neg h]
      exact ⟨nofun, fun h' => absurd h' h⟩
  refine ⟨hcheck, fun att r1 => r1_of_statementBlob, ?_,
    fun att index n h => scalarU64_result_eq_ok_iff att h, toFr_serialize⟩
  intro att att' h h' hidi hr1 htime
  obtain ⟨r1, hlen, hblob⟩ := (hcheck att).mp h
  obtain ⟨r1', hlen', hblob'⟩ := (hcheck att').mp h'
  rw [r1_of_statementBlob hlen hblob, r1_of_statementBlob hlen' hblob', Except.ok.injEq] at hr1
  rw [hblob, hblob', hidi, hr1, htime]

/-! ### Blobs off chain -/

/-- The scalar a public-input string is read from: the first 32 bytes of its hex. -/
def wireScalar (s : String) : Option (List UInt8) := do
  let raw ← Hex.decode s
  if raw.length < 32 then none else some (raw.take 32)

/-- The blob a wire proof spells: the scalars of its three public inputs. -/
def wireBlob (proof : Groth16Proof) : Option (List UInt8) :=
  match proof.publicInputs with
  | [s0, s1, s2] => do
    let b0 ← wireScalar s0
    let b1 ← wireScalar s1
    let b2 ← wireScalar s2
    some (b0 ++ (b1 ++ b2))
  | _ => none

def blobScalar (blob : List UInt8) (i : ℕ) : List UInt8 := (blob.drop (i * 32)).take 32

structure CanonicalBlob (blob : List UInt8) : Prop where
  length_eq : blob.length = 96
  canonical : ∀ i < 3, CanonicalLimb (blobScalar blob i)

/-- Each scalar of the blob is below the field order. -/
def BelowOrder (blob : List UInt8) : Prop := ∀ i < 3, leNat (blobScalar blob i) < Prover.r

theorem wireScalar_length {s : String} {b : List UInt8} (h : wireScalar s = some b) :
    b.length = 32 := by
  obtain ⟨raw, -, h⟩ := Option.bind_eq_some_iff.mp h
  obtain ⟨hle, h⟩ := Option.ite_none_left_eq_some.mp h
  rw [← Option.some.inj h, List.length_take]
  omega

theorem parseFr_eq_some_iff_wireScalar {s : String} {f : Fr} :
    parseFr s = some f ↔ wireScalar s = some (frToBytes f) := by
  rw [Prover.parseFr_eq_some_iff, wireScalar, Option.bind_eq_bind, Option.bind_eq_some_iff]
  refine exists_congr fun raw => and_congr_right fun _ => ?_
  rw [Option.ite_none_left_eq_some, Option.some.injEq]
  constructor
  · intro h
    have hlen := congrArg List.length h
    rw [List.length_take, Prover.frToBytes_length] at hlen
    exact ⟨by omega, h⟩
  · exact And.right

theorem exists_frToBytes {b : List UInt8} (hlen : b.length = 32) (h : leNat b < Prover.r) :
    ∃ f : Fr, b = frToBytes f := by
  refine ⟨(leNat b : Fr), eq_of_leNat_eq ?_ ?_⟩
  · rw [hlen, Prover.frToBytes_length]
  · rw [Prover.leNat_frToBytes, Prover.val_natCast h]

theorem blobScalar_append {b0 b1 b2 : List UInt8} (h0 : b0.length = 32) (h1 : b1.length = 32)
    (h2 : b2.length = 32) :
    blobScalar (b0 ++ (b1 ++ b2)) 0 = b0 ∧ blobScalar (b0 ++ (b1 ++ b2)) 1 = b1
      ∧ blobScalar (b0 ++ (b1 ++ b2)) 2 = b2 := by
  have hlen : (b0 ++ (b1 ++ b2)).length = PUBLIC_INPUT_COUNT * SCALAR_BYTES := by
    rw [List.length_append, List.length_append, h0, h1, h2]
    rfl
  exact @scalarBytes_of_append ⟨SUPPORTED_ALG, List.replicate 8 0, 0, [], _, rfl, rfl, hlen⟩
    _ _ _ h0 h1 h2 rfl

/-- **What comes out off chain**: the blob the wire spells, if its scalars are below the
field order. -/
theorem publicInputsBytes_eq_ok_iff {proof : Groth16Proof} {b : List UInt8} :
    publicInputsBytes proof = .ok b ↔ wireBlob proof = some b ∧ BelowOrder b := by
  rw [publicInputsBytes, bind_eq_ok]
  simp only [Prover.parsePublicInputs_eq_ok_iff, parseFr_eq_some_iff_wireScalar, Except.ok.injEq]
  constructor
  · rintro ⟨pis, ⟨hcount, hread⟩, rfl⟩
    obtain ⟨s0, s1, s2, hstrings⟩ := List.length_eq_three.mp hcount
    rw [hstrings] at hread
    obtain ⟨f0, fs0, h0, hread0, rfl⟩ := List.forall₂_cons_left_iff.mp hread
    obtain ⟨f1, fs1, h1, hread1, rfl⟩ := List.forall₂_cons_left_iff.mp hread0
    obtain ⟨f2, fs2, h2, hread2, rfl⟩ := List.forall₂_cons_left_iff.mp hread1
    obtain rfl := List.forall₂_nil_left_iff.mp hread2
    have happend : [f0, f1, f2].flatMap frToBytes
        = frToBytes f0 ++ (frToBytes f1 ++ frToBytes f2) := by simp
    obtain ⟨e0, e1, e2⟩ := blobScalar_append (Prover.frToBytes_length f0)
      (Prover.frToBytes_length f1) (Prover.frToBytes_length f2)
    rw [happend]
    refine ⟨?_, fun i hi => ?_⟩
    · rw [wireBlob, hstrings]
      dsimp only
      rw [h0, h1, h2]
      rfl
    · obtain rfl | rfl | rfl : i = 0 ∨ i = 1 ∨ i = 2 := by omega
      · rw [e0, Prover.leNat_frToBytes]
        exact ZMod.val_lt f0
      · rw [e1, Prover.leNat_frToBytes]
        exact ZMod.val_lt f1
      · rw [e2, Prover.leNat_frToBytes]
        exact ZMod.val_lt f2
  · rintro ⟨hblob, hbelow⟩
    unfold wireBlob at hblob
    split at hblob
    · rename_i s0 s1 s2 hstrings
      obtain ⟨b0, h0, hblob⟩ := Option.bind_eq_some_iff.mp hblob
      obtain ⟨b1, h1, hblob⟩ := Option.bind_eq_some_iff.mp hblob
      obtain ⟨b2, h2, hblob⟩ := Option.bind_eq_some_iff.mp hblob
      obtain rfl := Option.some.inj hblob
      obtain ⟨e0, e1, e2⟩ :=
        blobScalar_append (wireScalar_length h0) (wireScalar_length h1) (wireScalar_length h2)
      obtain ⟨f0, rfl⟩ := exists_frToBytes (wireScalar_length h0) (e0 ▸ hbelow 0 (by decide))
      obtain ⟨f1, rfl⟩ := exists_frToBytes (wireScalar_length h1) (e1 ▸ hbelow 1 (by decide))
      obtain ⟨f2, rfl⟩ := exists_frToBytes (wireScalar_length h2) (e2 ▸ hbelow 2 (by decide))
      refine ⟨[f0, f1, f2], ⟨by rw [hstrings]; rfl, ?_⟩, by simp⟩
      rw [hstrings]
      exact .cons h0 (.cons h1 (.cons h2 .nil))
    · cases hblob

theorem wireBlob_length {proof : Groth16Proof} {b : List UInt8} (h : wireBlob proof = some b) :
    b.length = 96 := by
  unfold wireBlob at h
  split at h
  · obtain ⟨b0, h0, h⟩ := Option.bind_eq_some_iff.mp h
    obtain ⟨b1, h1, h⟩ := Option.bind_eq_some_iff.mp h
    obtain ⟨b2, h2, h⟩ := Option.bind_eq_some_iff.mp h
    rw [← Option.some.inj h, List.length_append, List.length_append, wireScalar_length h0,
      wireScalar_length h1, wireScalar_length h2]
  · cases h

theorem canonicalBlob_iff {b : List UInt8} (hlen : b.length = 96) :
    CanonicalBlob b ↔ ∀ i < 3, leNat (blobScalar b i) < 2 ^ 64 := by
  have hscalar : ∀ i < 3, (blobScalar b i).length = 32 := by
    intro i hi
    rw [blobScalar, List.length_take, List.length_drop, hlen]
    omega
  constructor
  · intro h i hi
    exact (canonicalLimb_iff_lt (hscalar i hi)).mp (h.canonical i hi)
  · intro h
    exact ⟨hlen, fun i hi => (canonicalLimb_iff_lt (hscalar i hi)).mpr (h i hi)⟩

/-- **Off chain the blobs of the chain come out**, on every proof but those with three
scalars below the field order of which one is not below `2 ^ 64`. -/
theorem publicInputsBytes_iff_canonical (proof : Groth16Proof) :
    (∀ b, publicInputsBytes proof = .ok b ↔ wireBlob proof = some b ∧ CanonicalBlob b)
      ↔ ¬ ∃ b, wireBlob proof = some b ∧ BelowOrder b
        ∧ ∃ i < 3, 2 ^ 64 ≤ leNat (blobScalar b i) := by
  simp only [publicInputsBytes_eq_ok_iff]
  constructor
  · rintro h ⟨b, hblob, hbelow, i, hi, hwide⟩
    obtain ⟨-, hcan⟩ := (h b).mp ⟨hblob, hbelow⟩
    exact absurd ((canonicalBlob_iff hcan.length_eq).mp hcan i hi) (Nat.not_lt.mpr hwide)
  · intro h b
    refine and_congr_right fun hblob => ?_
    rw [canonicalBlob_iff (wireBlob_length hblob)]
    constructor
    · intro hbelow i hi
      by_contra hwide
      exact h ⟨b, hblob, hbelow, i, hi, Nat.not_lt.mp hwide⟩
    · intro hlt i hi
      exact Prover.lt_r_of_lt (lt_trans (hlt i hi) (by decide))

/-- **A scalar the chain refuses comes out**: the public input `2 ^ 64`. -/
theorem publicInputsBytes_wide :
    ∃ proof b, publicInputsBytes proof = .ok b ∧ ¬ CanonicalBlob b := by
  have hval : ((2 ^ 64 : ℕ) : Fr).val = 2 ^ 64 :=
    Prover.val_natCast (Prover.lt_r_of_lt (by decide))
  let wide : Fr := ((2 ^ 64 : ℕ) : Fr)
  let proof : Groth16Proof := ⟨Prover.SUPPORTED_ALG, ("", ""), (("", ""), ("", "")), ("", ""),
    [Prover.frToHex wide, Prover.frToHex 0, Prover.frToHex 0]⟩
  have hparse : parsePublicInputs proof = .ok [wide, 0, 0] :=
    Prover.parsePublicInputs_eq_ok_iff.mpr ⟨rfl, .cons (Prover.parseFr_frToHex _)
      (.cons (Prover.parseFr_frToHex _) (.cons (Prover.parseFr_frToHex _) .nil))⟩
  refine ⟨proof, [wide, 0, 0].flatMap frToBytes, bind_eq_ok.mpr ⟨_, hparse, rfl⟩, fun h => ?_⟩
  have hscalar : blobScalar ([wide, 0, 0].flatMap frToBytes) 0 = frToBytes wide :=
    List.take_left' (Prover.frToBytes_length wide)
  have hcan := h.canonical 0 (by decide)
  rw [hscalar, canonicalLimb_frToBytes, hval] at hcan
  exact absurd hcan (by decide)

end SuiCash.Sui
