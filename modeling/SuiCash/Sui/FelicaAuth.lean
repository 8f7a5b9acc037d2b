import SuiCash.Lib.Bytes
import SuiCash.Lib.Move

/-!
# Attestations on chain

`felica_auth.move` owns the decoding from bytes to a statement.  An `Attestation`
has one constructor there, `new`, so what `new` checks is carried by the value.

Every function is followed by the closed form it computes.  The loops over the
bytes of a scalar come down to slices (`scalar_eq`, `limb_eq`) and to a
little-endian number (`scalarU64_eq`), which also says that none of their
counters, shifts or reads can fail; what is left of
`assert_envelope_consistent` is the relation `EnvelopeConsistent`
(`assertEnvelopeConsistent_eq`).
-/

namespace SuiCash.Sui

open Move Bytes

inductive ModuleName where
  | felicaAuth
  | zkVerifier
  | gate
  deriving DecidableEq

variable {τ : Type}

/-! ### Constants -/

def PUBLIC_INPUT_COUNT : ℕ := 3
def SCALAR_BYTES : ℕ := 32
def LIMB_BYTES : ℕ := 8
def SUPPORTED_ALG : List UInt8 :=
  [0x67, 0x72, 0x6f, 0x74, 0x68, 0x31, 0x36, 0x2d, 0x62, 0x6e, 0x32, 0x35, 0x34]

def EMalformed : ℕ := 0
def EUnsupportedAlg : ℕ := 1
def EEnvelopeInconsistent : ℕ := 2
def EChallengeMismatch : ℕ := 3
def EClockDrift : ℕ := 4

/-! ### Attestations -/

/-- A Groth16/BN254 attestation over FeliCa IDi. -/
structure Attestation where
  alg : List UInt8
  idi : List UInt8
  attestedAt : UInt64
  proof : List UInt8
  publicInputs : List UInt8
  alg_eq : alg = SUPPORTED_ALG
  idi_length : idi.length = LIMB_BYTES
  publicInputs_length : publicInputs.length = PUBLIC_INPUT_COUNT * SCALAR_BYTES
  deriving DecidableEq

def Attestation.new (alg idi : List UInt8) (attestedAt : UInt64) (proof publicInputs : List UInt8) :
    Exec ModuleName τ Attestation :=
  if hAlg : alg = SUPPORTED_ALG then
    if hIdi : idi.length = LIMB_BYTES then
      if hPis : publicInputs.length = PUBLIC_INPUT_COUNT * SCALAR_BYTES then
        pure ⟨alg, idi, attestedAt, proof, publicInputs, hAlg, hIdi, hPis⟩
      else Exec.abort .felicaAuth EMalformed
    else Exec.abort .felicaAuth EMalformed
  else Exec.abort .felicaAuth EUnsupportedAlg

def scalar (att : Attestation) (index : ℕ) : Exec ModuleName τ (List UInt8) := do
  Exec.assert (index < PUBLIC_INPUT_COUNT) .felicaAuth EMalformed
  Exec.foldWhile 0 SCALAR_BYTES (fun i out => do
    let start ← Exec.mul index SCALAR_BYTES
    let place ← Exec.add start i
    let byte ← Exec.borrow att.publicInputs place
    pure (out ++ [byte])) []

/-- Is this scalar the canonical 32-byte encoding of an 8-byte limb? -/
def isCanonicalLimb (bytes : List UInt8) : Exec ModuleName τ Bool :=
  if bytes.length ≠ SCALAR_BYTES then pure false
  else do
    let found ← Exec.searchWhile LIMB_BYTES SCALAR_BYTES fun i => do
      let byte ← Exec.borrow bytes i
      pure (if byte ≠ 0 then some false else none)
    pure (found.getD true)

def limb (att : Attestation) (index : ℕ) : Exec ModuleName τ (List UInt8) := do
  let bytes ← scalar att index
  let canonical ← isCanonicalLimb bytes
  Exec.assert (canonical = true) .felicaAuth EEnvelopeInconsistent
  Exec.foldWhile 0 LIMB_BYTES (fun i out => do
    let byte ← Exec.borrow bytes i
    pure (out ++ [byte])) []

def scalarU64 (att : Attestation) (index : ℕ) : Exec ModuleName τ UInt64 := do
  let bytes ← limb att index
  let acc ← Exec.foldWhile 0 LIMB_BYTES (fun i (acc : UInt64 × UInt8) => do
    let byte ← Exec.borrow bytes i
    let shifted ← Exec.shl byte.toUInt64 acc.2
    let shift ← Exec.addU8 acc.2 8
    pure (acc.1 ||| shifted, shift)) (0, 0)
  pure acc.1

/-- Abort unless the `index`-th scalar is a canonical 8-byte limb. -/
def assertCanonical (att : Attestation) (index : ℕ) : Exec ModuleName τ Unit := do
  let bytes ← scalar att index
  let canonical ← isCanonicalLimb bytes
  Exec.assert (canonical = true) .felicaAuth EEnvelopeInconsistent

/-- Check that the top-level metadata agrees with the public inputs. -/
def assertEnvelopeConsistent (att : Attestation) : Exec ModuleName τ Unit := do
  assertCanonical att 0
  assertCanonical att 1
  assertCanonical att 2
  let idi ← limb att 0
  Exec.assert (idi = att.idi) .felicaAuth EEnvelopeInconsistent
  let attestedAt ← scalarU64 att 2
  Exec.assert (attestedAt = att.attestedAt) .felicaAuth EEnvelopeInconsistent

def assertChallengeMatches (att : Attestation) (presentedR1 : List UInt8) :
    Exec ModuleName τ Unit := do
  Exec.assert (presentedR1.length = LIMB_BYTES) .felicaAuth EMalformed
  let r1 ← limb att 1
  Exec.assert (r1 = presentedR1) .felicaAuth EChallengeMismatch

def assertClockDriftOk (att : Attestation) (nowSeconds maxDriftSeconds : UInt64) :
    Exec ModuleName τ Unit := do
  let drift ← if att.attestedAt > nowSeconds then Exec.sub att.attestedAt nowSeconds
    else Exec.sub nowSeconds att.attestedAt
  Exec.assert (drift ≤ maxDriftSeconds) .felicaAuth EClockDrift

/-! ### Slices -/

namespace Attestation

variable (att : Attestation)

def scalarBytes (index : ℕ) : List UInt8 := (att.publicInputs.drop (index * 32)).take 32

theorem scalarBytes_length {index : ℕ} (h : index < 3) : (att.scalarBytes index).length = 32 := by
  have hlen : att.publicInputs.length = 96 := att.publicInputs_length
  rw [scalarBytes, List.length_take, List.length_drop, hlen]
  omega

theorem scalarBytes_getElem {index i : ℕ} (h : i < (att.scalarBytes index).length)
    (h' : index * 32 + i < att.publicInputs.length) :
    (att.scalarBytes index)[i] = att.publicInputs[index * 32 + i] := by
  simp only [scalarBytes, List.getElem_take, List.getElem_drop]

end Attestation

theorem scalar_eq (att : Attestation) {index : ℕ} (h : index < 3) :
    (scalar att index : Exec ModuleName τ _) = pure (att.scalarBytes index) := by
  have hlen := att.scalarBytes_length h
  have hpis : att.publicInputs.length = 96 := att.publicInputs_length
  have hcopy := Exec.foldWhile_copy (μ := ModuleName) (τ := τ) (v := att.scalarBytes index)
    (n := 32) (f := fun i out => do
      let start ← Exec.mul index SCALAR_BYTES
      let place ← Exec.add start i
      let byte ← Exec.borrow att.publicInputs place
      pure (out ++ [byte])) (by decide) (by omega) fun i out hi => by
    have hplace : index * 32 + i < att.publicInputs.length := by omega
    show Exec.mul index 32 >>= _ = _
    rw [Exec.mul_of_lt (by omega), Exec.pure_bind, Exec.add_of_lt (by omega), Exec.pure_bind,
      Exec.borrow_of_lt hplace, Exec.pure_bind, att.scalarBytes_getElem _ hplace]
  rw [List.take_of_length_le (by omega)] at hcopy
  rw [scalar, Exec.assert_of (show index < PUBLIC_INPUT_COUNT from h), Exec.pure_bind]
  exact hcopy

/-- Nothing above the low 8 bytes. -/
def CanonicalLimb (bytes : List UInt8) : Prop := bytes.length = 32 ∧ ∀ b ∈ bytes.drop 8, b = 0

instance (bytes : List UInt8) : Decidable (CanonicalLimb bytes) :=
  inferInstanceAs (Decidable (_ ∧ _))

theorem canonicalLimb_iff {bytes : List UInt8} (hlen : bytes.length = 32) :
    CanonicalLimb bytes ↔ ∀ i, 8 ≤ i → i < 32 → ¬ bytes.getD i 0 ≠ 0 := by
  constructor
  · rintro ⟨-, hzero⟩ i h8 h32
    have hi : i < bytes.length := by omega
    rw [not_not, List.getD_eq_getElem _ _ hi]
    refine hzero _ (List.mem_drop_iff_getElem.mpr ⟨i - 8, by omega, ?_⟩)
    congr 1
    omega
  · intro h
    refine ⟨hlen, fun b hb => ?_⟩
    obtain ⟨i, hi, rfl⟩ := List.mem_drop_iff_getElem.mp hb
    have := h (8 + i) (by omega) (by omega)
    rw [not_not, List.getD_eq_getElem _ _ (by omega)] at this
    exact this

theorem isCanonicalLimb_eq (bytes : List UInt8) :
    (isCanonicalLimb bytes : Exec ModuleName τ _) = pure (decide (CanonicalLimb bytes)) := by
  by_cases hlen : bytes.length = 32
  · have hcases := Exec.searchWhile_cases (μ := ModuleName) (τ := τ) (n := 32) (i := 8)
      (f := fun i => do
        let byte ← Exec.borrow bytes i
        pure (if byte ≠ 0 then some false else none))
      (p := fun i => bytes.getD i 0 ≠ 0) (b := fun _ => false) (by decide) fun i _ hi => by
        rw [Exec.borrow_of_lt (by omega), Exec.pure_bind, List.getD_eq_getElem _ _ (by omega)]
    have hrest : (isCanonicalLimb bytes : Exec ModuleName τ _)
        = Exec.searchWhile 8 32 (fun i => do
          let byte ← Exec.borrow bytes i
          pure (if byte ≠ 0 then some false else none)) >>= fun found =>
            pure (found.getD true) := if_neg (not_not.mpr hlen)
    rw [hrest]
    obtain ⟨i, h8, h32, hhit, -, hrun⟩ | ⟨hmiss, hrun⟩ := hcases
    · rw [hrun, Exec.pure_bind,
        decide_eq_false fun h => (canonicalLimb_iff hlen).mp h i h8 h32 hhit]
      rfl
    · rw [hrun, Exec.pure_bind, decide_eq_true ((canonicalLimb_iff hlen).mpr hmiss)]
      rfl
  · rw [decide_eq_false fun h => hlen h.1]
    exact if_pos hlen

/-- **A limb** is the low half of a canonical scalar. -/
theorem limb_eq (att : Attestation) {index : ℕ} (h : index < 3) :
    (limb att index : Exec ModuleName τ _) =
      if CanonicalLimb (att.scalarBytes index) then pure ((att.scalarBytes index).take 8)
      else Exec.abort .felicaAuth EEnvelopeInconsistent := by
  have hlen := att.scalarBytes_length h
  have hcopy : Exec.foldWhile 0 LIMB_BYTES (fun i out => do
      let byte ← Exec.borrow (att.scalarBytes index) i
      pure (out ++ [byte])) [] = (pure ((att.scalarBytes index).take 8) : Exec ModuleName τ _) :=
    Exec.foldWhile_copy (n := 8) (by decide) (by omega) fun i out hi => by
      rw [Exec.borrow_of_lt, Exec.pure_bind]
  rw [limb, scalar_eq att h, Exec.pure_bind, isCanonicalLimb_eq, Exec.pure_bind, Exec.assert_bind,
    hcopy]
  simp only [decide_eq_true_eq]

theorem or_shl_byte {value : UInt64} {byte : UInt8} {i : ℕ} (hi : i < 8)
    (hvalue : value.toNat < 256 ^ i) :
    (value ||| byte.toUInt64 <<< (UInt8.ofNat (8 * i)).toUInt64).toNat
      = value.toNat + 256 ^ i * byte.toNat := by
  have hshift : (UInt8.ofNat (8 * i)).toUInt64.toNat = 8 * i := by
    rw [UInt8.toNat_toUInt64, UInt8.toNat_ofNat', Nat.mod_eq_of_lt (by omega)]
  have hpow : 256 ^ i = 2 ^ (8 * i) := by rw [Nat.pow_mul]
  have hbyte : byte.toNat <<< (8 * i) < 2 ^ 64 := by
    have h1 := byte.toNat_lt
    have h2 : 2 ^ (8 * i) ≤ 2 ^ 56 := Nat.pow_le_pow_right (by decide) (by omega)
    rw [Nat.shiftLeft_eq]
    calc byte.toNat * 2 ^ (8 * i) ≤ 255 * 2 ^ 56 := Nat.mul_le_mul (by omega) h2
      _ < 2 ^ 64 := by decide
  rw [UInt64.toNat_or, UInt64.toNat_shiftLeft, hshift, UInt8.toNat_toUInt64,
    Nat.mod_eq_of_lt (show 8 * i < 64 by omega), Nat.mod_eq_of_lt hbyte, Nat.or_comm,
    ← Nat.shiftLeft_add_eq_or_of_lt (hpow ▸ hvalue), Nat.shiftLeft_eq, hpow]
  ring

/-- **The number of a canonical scalar**: its limb, read little-endian. -/
theorem scalarU64_eq (att : Attestation) {index : ℕ} (h : index < 3) :
    (scalarU64 att index : Exec ModuleName τ _) =
      if CanonicalLimb (att.scalarBytes index) then
        pure (UInt64.ofNat (leNat ((att.scalarBytes index).take 8)))
      else Exec.abort .felicaAuth EEnvelopeInconsistent := by
  have hlen := att.scalarBytes_length h
  generalize hbytes : (att.scalarBytes index).take 8 = bytes
  have hbytes_len : bytes.length = 8 := by rw [← hbytes, List.length_take]; omega
  obtain ⟨acc, hrun, hacc, -⟩ := Exec.foldWhile_invariant (μ := ModuleName) (τ := τ) (n := 8) (i := 0)
    (f := fun i (acc : UInt64 × UInt8) => do
      let byte ← Exec.borrow bytes i
      let shifted ← Exec.shl byte.toUInt64 acc.2
      let shift ← Exec.addU8 acc.2 8
      pure (acc.1 ||| shifted, shift))
    (I := fun i acc => acc.1.toNat = leNat (bytes.take i) ∧ acc.2 = UInt8.ofNat (8 * i))
    (a := (0, 0)) (by decide) (by decide) (fun i acc _ hi hI => by
      obtain ⟨value, shift⟩ := acc
      obtain ⟨hvalue, rfl⟩ := hI
      have hi' : i < bytes.length := by omega
      have hshift : (UInt8.ofNat (8 * i)).toNat = 8 * i := by
        rw [UInt8.toNat_ofNat', Nat.mod_eq_of_lt (by omega)]
      have hlt : leNat (bytes.take i) < 256 ^ i := by
        have := leNat_lt (bytes.take i)
        rwa [List.length_take_of_le (by omega)] at this
      refine ⟨(value ||| bytes[i].toUInt64 <<< (UInt8.ofNat (8 * i)).toUInt64,
        UInt8.ofNat (8 * i) + 8), ?_, ?_, ?_⟩
      · rw [Exec.borrow_of_lt hi', Exec.pure_bind,
          Exec.shl_of_lt (show (UInt8.ofNat (8 * i)).toNat < 64 by omega), Exec.pure_bind,
          Exec.addU8_of_lt (show (UInt8.ofNat (8 * i)).toNat + 8 < 256 by omega), Exec.pure_bind]
      · rw [or_shl_byte hi (hvalue ▸ hlt), hvalue, ← List.take_append_getElem hi', leNat_append,
          List.length_take_of_le (by omega), leNat_cons, leNat_nil, Nat.mul_zero, Nat.add_zero]
      · show UInt8.ofNat (8 * i) + 8 = UInt8.ofNat (8 * (i + 1))
        rw [Nat.mul_add, UInt8.ofNat_add]
        rfl) ⟨rfl, rfl⟩
  rw [List.take_of_length_le (by omega)] at hacc
  rw [scalarU64, limb_eq att h, hbytes]
  by_cases hcan : CanonicalLimb (att.scalarBytes index)
  · rw [if_pos hcan, if_pos hcan, Exec.pure_bind]
    show Exec.foldWhile 0 8 _ (0, 0) >>= _ = _
    rw [hrun, Exec.pure_bind, ← hacc, UInt64.ofNat_toNat]
  · rw [if_neg hcan, if_neg hcan, Exec.abort_bind]

/-! ### What the checks decide -/

theorem CanonicalLimb.leNat_take {bytes : List UInt8} (h : CanonicalLimb bytes) :
    leNat (bytes.take 8) = leNat bytes := by
  have hzero : leNat (bytes.drop 8) = 0 := leNat_eq_zero_iff.mpr h.2
  have hsplit := leNat_append (bytes.take 8) (bytes.drop 8)
  rw [List.take_append_drop, hzero, Nat.mul_zero, Nat.add_zero] at hsplit
  exact hsplit.symm

namespace Attestation

variable (att : Attestation)

/-- The envelope says what the public inputs commit to, in canonical scalars. -/
structure EnvelopeConsistent : Prop where
  canonical : ∀ i < 3, CanonicalLimb (att.scalarBytes i)
  idi_eq : (att.scalarBytes 0).take 8 = att.idi
  attestedAt_eq : leNat (att.scalarBytes 2) = att.attestedAt.toNat

/-- The challenge is eight bytes and the one the proof is bound to. -/
structure ChallengeMatches (presentedR1 : List UInt8) : Prop where
  length_eq : presentedR1.length = 8
  canonical : CanonicalLimb (att.scalarBytes 1)
  r1_eq : (att.scalarBytes 1).take 8 = presentedR1

/-- The distance between the two clocks is at most the bound. -/
def WithinDrift (nowSeconds maxDriftSeconds : UInt64) : Prop :=
  ((att.attestedAt.toNat : ℤ) - nowSeconds.toNat).natAbs ≤ maxDriftSeconds.toNat

instance (nowSeconds maxDriftSeconds : UInt64) :
    Decidable (att.WithinDrift nowSeconds maxDriftSeconds) :=
  inferInstanceAs (Decidable (_ ≤ _))

end Attestation

theorem assertCanonical_eq (att : Attestation) {index : ℕ} (h : index < 3) :
    (assertCanonical att index : Exec ModuleName τ _) =
      if CanonicalLimb (att.scalarBytes index) then pure ()
      else Exec.abort .felicaAuth EEnvelopeInconsistent := by
  rw [assertCanonical, scalar_eq att h, Exec.pure_bind, isCanonicalLimb_eq, Exec.pure_bind,
    Exec.assert]
  simp only [decide_eq_true_eq]

instance (att : Attestation) : Decidable att.EnvelopeConsistent :=
  decidable_of_iff ((∀ i < 3, CanonicalLimb (att.scalarBytes i))
      ∧ (att.scalarBytes 0).take 8 = att.idi ∧ leNat (att.scalarBytes 2) = att.attestedAt.toNat)
    ⟨fun ⟨h1, h2, h3⟩ => ⟨h1, h2, h3⟩, fun ⟨h1, h2, h3⟩ => ⟨h1, h2, h3⟩⟩

/-- **The envelope check** is the relation, and its one abort code. -/
theorem assertEnvelopeConsistent_eq (att : Attestation) :
    (assertEnvelopeConsistent att : Exec ModuleName τ _) =
      if att.EnvelopeConsistent then pure ()
      else Exec.abort .felicaAuth EEnvelopeInconsistent := by
  have h0 : ¬ CanonicalLimb (att.scalarBytes 0) → ¬ att.EnvelopeConsistent :=
    fun h hc => h (hc.canonical 0 (by decide))
  have h1 : ¬ CanonicalLimb (att.scalarBytes 1) → ¬ att.EnvelopeConsistent :=
    fun h hc => h (hc.canonical 1 (by decide))
  have h2 : ¬ CanonicalLimb (att.scalarBytes 2) → ¬ att.EnvelopeConsistent :=
    fun h hc => h (hc.canonical 2 (by decide))
  rw [assertEnvelopeConsistent, assertCanonical_eq att (by decide), assertCanonical_eq att (by decide),
    assertCanonical_eq att (by decide), limb_eq att (by decide), scalarU64_eq att (by decide)]
  by_cases hc0 : CanonicalLimb (att.scalarBytes 0)
  swap
  · rw [if_neg hc0, Exec.abort_bind, if_neg (h0 hc0)]
  by_cases hc1 : CanonicalLimb (att.scalarBytes 1)
  swap
  · rw [if_pos hc0, Exec.pure_bind, if_neg hc1, Exec.abort_bind, if_neg (h1 hc1)]
  by_cases hc2 : CanonicalLimb (att.scalarBytes 2)
  swap
  · rw [if_pos hc0, Exec.pure_bind, if_pos hc1, Exec.pure_bind, if_neg hc2, Exec.abort_bind,
      if_neg (h2 hc2)]
  rw [if_pos hc0, Exec.pure_bind, if_pos hc1, Exec.pure_bind, if_pos hc2, Exec.pure_bind,
    if_pos hc0, Exec.pure_bind, Exec.assert_bind]
  have hcan : ∀ i < 3, CanonicalLimb (att.scalarBytes i) := by
    intro i hi
    obtain rfl | rfl | rfl : i = 0 ∨ i = 1 ∨ i = 2 := by omega
    · exact hc0
    · exact hc1
    · exact hc2
  by_cases hidi : (att.scalarBytes 0).take 8 = att.idi
  swap
  · rw [if_neg hidi, if_neg fun h => hidi h.idi_eq]
  rw [if_pos hidi, if_pos hc2, Exec.pure_bind, hc2.leNat_take, Exec.assert]
  have hlt : leNat (att.scalarBytes 2) < 2 ^ 64 := by
    have := leNat_lt ((att.scalarBytes 2).take 8)
    rw [hc2.leNat_take] at this
    refine lt_of_lt_of_le this (Nat.pow_le_pow_right (by decide) (List.length_take_le _ _))
  have htime : UInt64.ofNat (leNat (att.scalarBytes 2)) = att.attestedAt
      ↔ leNat (att.scalarBytes 2) = att.attestedAt.toNat := by
    rw [← UInt64.toNat_inj, UInt64.toNat_ofNat_of_lt' hlt]
  by_cases htime' : leNat (att.scalarBytes 2) = att.attestedAt.toNat
  · rw [if_pos (htime.mpr htime'), if_pos ⟨hcan, hidi, htime'⟩]
  · rw [if_neg (htime.not.mpr htime'), if_neg fun h => htime' h.attestedAt_eq]

theorem assertChallengeMatches_eq (att : Attestation) (presentedR1 : List UInt8) :
    (assertChallengeMatches att presentedR1 : Exec ModuleName τ _) =
      if presentedR1.length ≠ 8 then Exec.abort .felicaAuth EMalformed
      else if ¬ CanonicalLimb (att.scalarBytes 1) then
        Exec.abort .felicaAuth EEnvelopeInconsistent
      else if (att.scalarBytes 1).take 8 ≠ presentedR1 then
        Exec.abort .felicaAuth EChallengeMismatch
      else pure () := by
  rw [assertChallengeMatches, limb_eq att (by decide), Exec.assert_bind, ite_not]
  refine if_congr Iff.rfl ?_ rfl
  rw [ite_not, ite_not]
  by_cases hcan : CanonicalLimb (att.scalarBytes 1)
  · rw [if_pos hcan, if_pos hcan, Exec.pure_bind, Exec.assert]
  · rw [if_neg hcan, if_neg hcan, Exec.abort_bind]

/-- The drift check measures a distance; neither subtraction can underflow. -/
theorem assertClockDriftOk_eq (att : Attestation) (nowSeconds maxDriftSeconds : UInt64) :
    (assertClockDriftOk att nowSeconds maxDriftSeconds : Exec ModuleName τ _) =
      if att.WithinDrift nowSeconds maxDriftSeconds then pure ()
      else Exec.abort .felicaAuth EClockDrift := by
  unfold assertClockDriftOk Attestation.WithinDrift
  by_cases h : att.attestedAt > nowSeconds
  · have hle : nowSeconds ≤ att.attestedAt := UInt64.le_of_lt h
    have hle' := UInt64.le_iff_toNat_le.mp hle
    rw [if_pos h, Exec.sub_of_le hle, Exec.pure_bind]
    refine if_congr ?_ rfl rfl
    rw [UInt64.le_iff_toNat_le, UInt64.toNat_sub_of_le _ _ hle]
    omega
  · have hle : att.attestedAt ≤ nowSeconds := UInt64.not_lt.mp h
    have hle' := UInt64.le_iff_toNat_le.mp hle
    rw [if_neg h, Exec.sub_of_le hle, Exec.pure_bind]
    refine if_congr ?_ rfl rfl
    rw [UInt64.le_iff_toNat_le, UInt64.toNat_sub_of_le _ _ hle]
    omega

end SuiCash.Sui
