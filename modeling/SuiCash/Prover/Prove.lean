import SuiCash.Prover.Satisfiable
import SuiCash.Prover.Wire

/-!
# Proving a session

`prover::prove_compressed`: the native pre-checks, then a Groth16 proof of the
circuit built from what they extract.

The pre-checks decrypt, so they find the claim instead of being given it.
`preChecks_eq` is the whole of them in block form: two of the five checks cannot
trip, the panics cannot happen, and what is left is the MAC and the transaction
identifier.  `preChecks_eq_ok_iff` says that passing with a claim is consistency
of the transcript that claims it, which is also what the circuit decides
(`checkSatisfiable_iff`); the two implementations of the statement meet there.
-/

namespace SuiCash.Prover

open Des Fallible

inductive ProverError where
  | macMismatch
  | tidMismatch
  | c1bMismatch
  | proveFailed
  deriving DecidableEq

structure ProveRequest where
  idm : Block
  c1b : Block
  c2a : Block
  auth2 : Vector UInt8 32
  gsk : Block
  usk : Block
  attestedAt : UInt64
  deriving DecidableEq

/-- What the pre-checks extract. -/
structure Claim where
  idi : Block
  r1 : Block
  r2 : Block
  deriving DecidableEq

namespace ProveRequest

variable (req : ProveRequest)

def circuit (claim : Claim) : FelicaCircuit where
  idi := claim.idi
  r1 := claim.r1
  attestedAt := req.attestedAt
  gsk := req.gsk
  usk := req.usk
  idm := req.idm
  c1b := req.c1b
  c2a := req.c2a
  r2 := claim.r2
  auth2 := req.auth2

def transcript (claim : Claim) : Transcript := (req.circuit claim).transcript

end ProveRequest

/-- The part of `prove_compressed` before the circuit is built. -/
def preChecks (req : ProveRequest) : Except (Stop ProverError) Claim :=
  let l := xor8 req.gsk req.idm
  let alpha := desEncrypt req.usk l
  let beta := desEncrypt l alpha
  let r1 := tdesDecrypt req.c1b l beta
  if tdesEncrypt r1 l beta ≠ req.c1b then .error (.error .c1bMismatch)
  else
    let r2 := tdesDecrypt req.c2a l beta
    if tdesEncrypt r2 l beta ≠ req.c2a then .error (.error .c1bMismatch)
    else
      match cbcDecrypt req.auth2.toList r2 with
      | none => .error (.error .macMismatch)
      | some pt =>
        if pt.length ≠ 32 then .error (.error .macMismatch)
        else
          match commandMac 0x13 (pt.extract 0 24) with
          | none => .error .panic
          | some mac =>
            if mac.toList ≠ pt.extract 24 32 then .error (.error .macMismatch)
            else if pt.extract 2 8 ≠ r1.toList.extract 2 8 then .error (.error .tidMismatch)
            else
              match copyFromSlice 8 (pt.extract 8 16) with
              | none => .error .panic
              | some idi => .ok ⟨idi, r1, r2⟩

/-! ### Proving -/

/-- What is used of `ark-groth16` to make a proof: keys, and a prover that draws
on a random seed. -/
structure ArkProver (ark : ArkGroth16) where
  Pk : Type
  Rng : Type
  /-- The verifying key inside a proving key. -/
  vk : Pk → ark.Vk
  prove : Pk → FelicaCircuit → Rng → Option (Proof ark.Fq)

section Prove

variable {ark : ArkGroth16} (prover : ArkProver ark)

/-- The attestation of one session, and the compressed bytes of its proof. -/
def proveCompressed (pk : prover.Pk) (req : ProveRequest) (rng : prover.Rng) :
    Except (Stop ProverError) (Attestation × List UInt8) := do
  let claim ← preChecks req
  let circuit := req.circuit claim
  match prover.prove pk circuit rng with
  | none => .error (.error .proveFailed)
  | some proof =>
    match circuit.publicInputs.toFr with
    | .error _ => .error (.error .proveFailed)
    | .ok pis =>
      if verifyProof ark (prover.vk pk) pis.toList proof ≠ true then .error (.error .proveFailed)
      else
        match ark.proofSerialize proof with
        | none => .error (.error .proveFailed)
        | some compressed =>
          .ok (⟨claim.idi, req.attestedAt, wireProof ark proof pis.toList⟩, compressed)

end Prove

/-! ### What the pre-checks decide -/

namespace ProveRequest

variable (req : ProveRequest)

/-- The values the pre-checks compute, whether or not the checks pass. -/
def claim : Claim :=
  let l := xor8 req.gsk req.idm
  let beta := desEncrypt l (desEncrypt req.usk l)
  let r2 := tdesDecrypt req.c2a l beta
  ⟨plainBlock req.auth2 r2 1, tdesDecrypt req.c1b l beta, r2⟩

def plain (i : Fin 4) : Block := plainBlock req.auth2 req.claim.r2 i

end ProveRequest

/-- **The pre-checks in block form.** -/
theorem preChecks_eq (req : ProveRequest) :
    preChecks req =
      if macBlock (req.plain 0) (req.plain 1) (req.plain 2) ≠ req.plain 3 then
        .error (.error .macMismatch)
      else if (req.plain 0).toList.extract 2 8 ≠ req.claim.r1.toList.extract 2 8 then
        .error (.error .tidMismatch)
      else .ok req.claim := by
  have hround : ∀ c k1 k2 : Block, ¬ tdesEncrypt (tdesDecrypt c k1 k2) k1 k2 ≠ c := by
    intro c k1 k2
    rw [tdesEncrypt_tdesDecrypt]
    exact not_not.mpr rfl
  have hlen : ¬ (join (plainBlocks req.auth2 req.claim.r2)).length ≠ 32 := by simp [plainBlocks]
  unfold preChecks
  rw [if_neg (hround _ _ _), if_neg (hround _ _ _)]
  show (match cbcDecrypt req.auth2.toList req.claim.r2 with | none => _ | some pt => _) = _
  rw [cbcDecrypt_toList]
  dsimp only
  rw [if_neg hlen, plainBlocks, extract_payload, extract_mac, extract_tid, extract_idi,
    commandMac_three, copyFromSlice_toList]
  simp only [ne_eq, Vector.toList_inj]
  rfl

theorem preChecks_error {req : ProveRequest} {stop : Stop ProverError} (h : preChecks req = .error stop) :
    stop = .error .macMismatch ∨ stop = .error .tidMismatch := by
  rw [preChecks_eq] at h
  split at h
  · exact .inl (Except.error.inj h).symm
  · split at h
    · exact .inr (Except.error.inj h).symm
    · cases h

theorem transcript_consistent_iff {req : ProveRequest} {claim : Claim} :
    (req.transcript claim).Consistent ↔ claim = req.claim
      ∧ macBlock (req.plain 0) (req.plain 1) (req.plain 2) = req.plain 3
      ∧ (req.plain 0).toList.extract 2 8 = req.claim.r1.toList.extract 2 8 := by
  rw [Transcript.consistent_iff_blocks, extract_tid_eq_iff]
  constructor
  · rintro ⟨h1, h2, hmac, htid, hidi⟩
    have hr1 : claim.r1 = req.claim.r1 := tdesEncrypt_eq_iff.mp h1
    have hr2 : claim.r2 = req.claim.r2 := tdesEncrypt_eq_iff.mp h2
    have hplain : ∀ i, plainBlock req.auth2 claim.r2 i = req.plain i := fun i => by
      rw [hr2, ProveRequest.plain]
    have hclaim : claim = req.claim := by
      obtain ⟨idi, r1, r2⟩ := claim
      obtain rfl : r1 = req.claim.r1 := hr1
      obtain rfl : r2 = req.claim.r2 := hr2
      obtain rfl : req.plain 1 = idi := (hplain 1).symm.trans hidi
      rfl
    subst hclaim
    exact ⟨rfl, hmac, htid⟩
  · rintro ⟨rfl, hmac, htid⟩
    exact ⟨tdesEncrypt_eq_iff.mpr rfl, tdesEncrypt_eq_iff.mpr rfl, hmac, htid, rfl⟩

/-- **Passing with a claim is consistency of that claim.** -/
theorem preChecks_eq_ok_iff {req : ProveRequest} {claim : Claim} :
    preChecks req = .ok claim ↔ (req.transcript claim).Consistent := by
  rw [preChecks_eq, guard_eq_ok, guard_eq_ok, transcript_consistent_iff, ne_eq, not_not, ne_eq,
    not_not, Except.ok.injEq]
  constructor
  · rintro ⟨hmac, htid, rfl⟩; exact ⟨rfl, hmac, htid⟩
  · rintro ⟨rfl, hmac, htid⟩; exact ⟨hmac, htid, rfl⟩

theorem preChecks_claim {req : ProveRequest} {claim : Claim} (h : preChecks req = .ok claim) :
    claim = req.claim :=
  (transcript_consistent_iff.mp (preChecks_eq_ok_iff.mp h)).1

theorem proveCompressed_error {ark : ArkGroth16} {prover : ArkProver ark} {pk : prover.Pk}
    {req : ProveRequest} {rng : prover.Rng} {stop : Stop ProverError}
    (h : proveCompressed prover pk req rng = .error stop) :
    preChecks req = .error stop ∨ stop = .error .proveFailed := by
  unfold proveCompressed at h
  cases hpre : preChecks req with
  | error e =>
    rw [hpre] at h
    exact .inl (congrArg Except.error (Except.error.inj h))
  | ok claim =>
    rw [hpre] at h
    change (match prover.prove pk (req.circuit claim) rng with | none => _ | some proof => _) = _
      at h
    refine .inr ?_
    split at h
    · exact (Except.error.inj h).symm
    · split at h
      · exact (Except.error.inj h).symm
      · split at h
        · exact (Except.error.inj h).symm
        · split at h
          · exact (Except.error.inj h).symm
          · cases h

/-- **What comes out** is the claim of the pre-checks, and one proof object in two
forms: its coordinates with the public inputs of the claim, and its bytes. -/
theorem proveCompressed_eq_ok {ark : ArkGroth16} {prover : ArkProver ark} {pk : prover.Pk}
    {req : ProveRequest} {rng : prover.Rng} {att : Attestation} {compressed : List UInt8}
    (h : proveCompressed prover pk req rng = .ok (att, compressed)) :
    ∃ claim proof, preChecks req = .ok claim ∧ ark.proofSerialize proof = some compressed
      ∧ att = ⟨claim.idi, req.attestedAt, wireProof ark proof
        [(limb claim.idi : Fr), (limb claim.r1 : Fr), (req.attestedAt.toNat : Fr)]⟩ := by
  obtain ⟨claim, hpre, h⟩ := bind_eq_ok.mp h
  refine ⟨claim, ?_⟩
  dsimp only at h
  split at h
  · cases h
  · rename_i proof _
    rw [PublicInputs.toFr_eq] at h
    obtain ⟨-, h⟩ := guard_eq_ok.mp h
    split at h
    · cases h
    · rename_i bytes hbytes
      cases h
      exact ⟨proof, hpre, hbytes, rfl⟩

theorem proveCompressed_eq_ok_iff {ark : ArkGroth16} {prover : ArkProver ark} {pk : prover.Pk}
    {req : ProveRequest} {rng : prover.Rng} {att : Attestation} {compressed : List UInt8} :
    proveCompressed prover pk req rng = .ok (att, compressed)
      ↔ ∃ claim proof, preChecks req = .ok claim
        ∧ prover.prove pk (req.circuit claim) rng = some proof
        ∧ verifyProof ark (prover.vk pk)
          [(limb claim.idi : Fr), (limb claim.r1 : Fr), (req.attestedAt.toNat : Fr)] proof = true
        ∧ ark.proofSerialize proof = some compressed
        ∧ att = ⟨claim.idi, req.attestedAt, wireProof ark proof
          [(limb claim.idi : Fr), (limb claim.r1 : Fr), (req.attestedAt.toNat : Fr)]⟩ := by
  rw [proveCompressed, bind_eq_ok]
  refine exists_congr fun claim => ?_
  have hinputs : (req.circuit claim).publicInputs.toFr = .ok
      #v[(limb claim.idi : Fr), (limb claim.r1 : Fr), (req.attestedAt.toNat : Fr)] :=
    PublicInputs.toFr_eq _
  dsimp only
  cases prover.prove pk (req.circuit claim) rng with
  | none =>
    refine iff_of_false (fun h => nomatch h.2) ?_
    rintro ⟨proof, -, h, -⟩
    cases h
  | some proof =>
    rw [hinputs]
    dsimp only
    rw [guard_eq_ok, not_not]
    constructor
    · rintro ⟨hpre, hverify, h⟩
      refine ⟨proof, hpre, rfl, hverify, ?_⟩
      split at h
      · cases h
      · rename_i bytes hbytes
        cases h
        exact ⟨hbytes, rfl⟩
    · rintro ⟨proof', hpre, h, hverify, hbytes, rfl⟩
      cases h
      refine ⟨hpre, hverify, ?_⟩
      rw [hbytes]
      rfl

theorem proveCompressed_ok {ark : ArkGroth16} {prover : ArkProver ark} {pk : prover.Pk}
    {req : ProveRequest} {rng : prover.Rng} {att : Attestation} {compressed : List UInt8}
    {claim : Claim} (h : proveCompressed prover pk req rng = .ok (att, compressed))
    (hpre : preChecks req = .ok claim) : att.idi = claim.idi ∧ att.attestedAt = req.attestedAt := by
  obtain ⟨claim', proof, hpre', -, rfl⟩ := proveCompressed_eq_ok h
  rw [hpre, Except.ok.injEq] at hpre'
  exact ⟨by rw [hpre'], rfl⟩

section Decide

variable {std : R1csStd} (law : std.Lawful)
include law

theorem preChecks_eq_ok_iff_checkSatisfiable {req : ProveRequest} {claim : Claim} :
    preChecks req = .ok claim ↔ checkSatisfiable std (req.circuit claim) = true := by
  rw [preChecks_eq_ok_iff, checkSatisfiable_iff law]
  rfl

/-- **The pre-checks decide satisfiability, and the claim is unique.**  For every
request: no challenge mismatch is ever reported; the pre-checks pass exactly when
the circuit built from the computed values is satisfiable; when they fail no
claim satisfies the circuit; and when they pass the extracted claim is the only
one that does. -/
theorem preChecks_decide_checkSatisfiable (req : ProveRequest) :
    (∀ (ark : ArkGroth16) (prover : ArkProver ark) (pk : prover.Pk) (rng : prover.Rng),
      proveCompressed prover pk req rng ≠ .error (.error .c1bMismatch))
    ∧ ((∃ claim, preChecks req = .ok claim)
      ↔ checkSatisfiable std (req.circuit req.claim) = true)
    ∧ (∀ stop, preChecks req = .error stop →
      ∀ claim, checkSatisfiable std (req.circuit claim) = false)
    ∧ ∀ claim, preChecks req = .ok claim → claim = req.claim
      ∧ ∀ other, checkSatisfiable std (req.circuit other) = true ↔ other = claim := by
  refine ⟨?_, ?_, ?_, ?_⟩
  · intro ark prover pk rng h
    rcases proveCompressed_error h with hpre | hpre
    · rcases preChecks_error hpre with h' | h' <;> cases h'
    · cases hpre
  · constructor
    · rintro ⟨claim, h⟩
      rw [← preChecks_claim h]
      exact (preChecks_eq_ok_iff_checkSatisfiable law).mp h
    · intro h
      exact ⟨req.claim, (preChecks_eq_ok_iff_checkSatisfiable law).mpr h⟩
  · intro stop hstop claim
    rw [← Bool.not_eq_true, ← preChecks_eq_ok_iff_checkSatisfiable law, hstop]
    exact fun h => by cases h
  · intro claim h
    refine ⟨preChecks_claim h, fun other => ?_⟩
    rw [← preChecks_eq_ok_iff_checkSatisfiable law, h, Except.ok.injEq]
    exact eq_comm

end Decide

/-! ### Honest sessions -/

/-- The request that an honest session leads to. -/
def honestRequest (gsk usk idm r1 r2 idi pmi : Block) (attestedAt : UInt64) : ProveRequest :=
  let t := Transcript.honest gsk usk idm r1 r2 idi pmi
  ⟨t.idm, t.c1b, t.c2a, t.auth2, t.gsk, t.usk, attestedAt⟩

/-- **An honest session passes the pre-checks**, with its own identifier. -/
theorem preChecks_honestRequest (gsk usk idm r1 r2 idi pmi : Block) (attestedAt : UInt64) :
    preChecks (honestRequest gsk usk idm r1 r2 idi pmi attestedAt) = .ok ⟨idi, r1, r2⟩ :=
  preChecks_eq_ok_iff.mpr (Transcript.honest_consistent gsk usk idm r1 r2 idi pmi)

theorem preChecks_decide_checkSatisfiable_honest :
    let req := honestRequest zeroBlock zeroBlock zeroBlock zeroBlock zeroBlock zeroBlock zeroBlock 0
    checkSatisfiable arkStd (req.circuit req.claim) = true
      ∧ ∀ other, checkSatisfiable arkStd (req.circuit other) = true
        ↔ other = ⟨zeroBlock, zeroBlock, zeroBlock⟩ := by
  intro req
  obtain ⟨-, hpass, -, hunique⟩ := preChecks_decide_checkSatisfiable arkStd_lawful req
  have hok : preChecks req = .ok ⟨zeroBlock, zeroBlock, zeroBlock⟩ :=
    preChecks_honestRequest _ _ _ _ _ _ _ _
  exact ⟨hpass.mp ⟨_, hok⟩, (hunique _ hok).2⟩

end SuiCash.Prover
