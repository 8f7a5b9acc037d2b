import SuiCash.Sui.Receipt
import SuiCash.Usb.Oracle

/-!
# The verdict of the proof of concept

`usb-poc/src/main.rs`, from the oracle's key to the exit code: a card that was found is
interrogated, authenticated through the oracle, and what the oracle attests is verified
here, and then taken apart and compared with what this run has seen.

`verdict_eq_verified_iff` is the verdict without its steps.  Once the proof has verified,
two of the five comparisons cannot fail; what is left is that each public input is spelled
in 32 bytes, that the second is this run's challenge, and that the time is a day from now at
most.  `run_verified` is what a verdict is worth: on the chain the same proof passes every
check that is not the gate's own.
-/

namespace SuiCash.Usb

open Bytes Device Fallible Slices
open Facepay (AttestResult)
open Prover (ArkGroth16 Fr verifyAttestationDetailed parseProofPoints parsePublicInputs verifyProof
  limb)
open Sui (scalarOfLimb)

/-- `{err:#}`: a message, and what it is the context of. -/
def Error.shown (e : Error) : String :=
  match e.source with
  | none => e.message
  | some source => s!"{e.message}: {source}"

def context {α : Type} (msg : String) : Reading α → Reading α
  | .ok a => .ok a
  | .error (.error e) => .error (.error ⟨msg, some e.shown⟩)
  | .error .panic => .error .panic

/-- What a run reads of its arguments once there is a card. -/
structure Args where
  systemCode : UInt16
  auth1Timeout : UInt16
  auth2Timeout : UInt16
  deriving DecidableEq

inductive Outcome where
  | verified
  | proofRejected
  deriving DecidableEq

/-- An oracle that also answers for itself. -/
structure LiveOracle extends Oracle where
  postPing : Posted String
  postVerifyingKey : Posted String

namespace LiveOracle

variable (oracle : LiveOracle)

def ping : Reading String := oracle.call "ping" oracle.postPing

def verifyingKey : Reading String := oracle.call "get_verifying_key" oracle.postVerifyingKey

end LiveOracle

def SUICA_SERVICES : List UInt16 :=
  [0x0048, 0x004A, 0x008B, 0x0816, 0x08CA, 0x090F, 0x104A, 0x108F, 0x10CB, 0x184B]

section Run

variable (hexError : String → String)

/-- `hex::decode` with a context. -/
def bytesOfHex (msg s : String) : Reading (List UInt8) :=
  match Hex.decode s with
  | some bytes => .ok bytes
  | none => .error (.error ⟨msg, some (hexError s)⟩)

/-- Hex of eight bytes, with a message for each way to be wrong. -/
def blockOfHex (notHex notEight s : String) : Reading Block := do
  let bytes ← bytesOfHex hexError notHex s
  match copyFromSlice 8 bytes with
  | some b => .ok b
  | none => bail notEight

/-! ### The verdict -/

def readLimb (i : ℕ) (scalar : String) : Reading Block := do
  let bytes ← bytesOfHex hexError s!"public input {i} is not hex" scalar
  if bytes.length ≠ 32 then bail s!"public input {i} is {bytes.length} bytes, expected 32"
  else if (bytes.drop 8).any (· ≠ 0) then
    bail s!"public input {i} is not a canonical 8-byte scalar (upper 24 bytes set)"
  else do
    let limb ← slice bytes 0 8
    array 8 limb

def absDiff (a b : UInt64) : UInt64 := if a < b then b - a else a - b

variable (ark : ArkGroth16) (loadVerifyingKey : List UInt8 → Except String ark.Vk)

/-- The last two steps of a run: verify the proof, then decode the statement and compare. -/
def verdict (vkBytes : List UInt8) (attest : AttestResult) (r1 : Block) (now : UInt64) :
    Reading Outcome := do
  let vk ← (loadVerifyingKey vkBytes).mapError fun e =>
    Stop.error (⟨s!"verifying key rejected by the prover: {e}", none⟩ : Error)
  let idi ← blockOfHex hexError "attested IDi is not valid hex" "attested IDi must be 8 bytes"
    attest.idi
  match verifyAttestationDetailed ark vk ⟨idi, attest.attestedAt, attest.proof⟩ with
  | .error _ => .ok .proofRejected
  | .ok () =>
    if attest.proof.publicInputs.length ≠ 3 then
      bail s!"expected 3 public inputs, got {attest.proof.publicInputs.length}"
    else do
      let limbs ← attest.proof.publicInputs.zipIdx.mapM fun p => readLimb hexError p.2 p.1
      let piIdi ← index limbs 0
      let piR1 ← index limbs 1
      let piAt ← index limbs 2
      let piAt := UInt64.ofNat (leNat piAt.toList)
      -- the challenge is compared twice
      let ok := decide (piIdi = idi) && decide (piR1 = r1) && decide (piAt = attest.attestedAt)
        && decide (piR1 = r1) && (decide (piAt ≠ 0) && decide (absDiff now piAt ≤ 86400))
      .ok (if ok then .verified else .proofRejected)

/-! ### The run -/

variable {σ : Type} (device : List UInt8 × UInt16 → σ → Except String (List UInt8) × σ)

/-- An exchange whose result is only printed, and whose error is not fatal. -/
def attempt {α : Type} (c : Exchange α) : Stateful σ (Stop Error) Unit := fun s =>
  match c.perform device s with
  | (.error .panic, s') => (.error .panic, s')
  | (_, s') => (.ok (), s')

/-- From the challenge to the attestation. -/
def authenticate (args : Args) (oracle : Oracle) (card : Card) (r1 : Block) :
    Stateful σ (Stop Error) AttestResult := do
  let idm := Hex.encode card.idm.toList
  let ch ← .lift (context "oracle challenge failed" (oracle.challenge idm (Hex.encode r1.toList)))
  if ch.systemCode ≠ args.systemCode then
    .lift (bail (s!"the oracle is provisioned for system {(Hex.encode (toBeBytes ch.systemCode)).toUpper} "
      ++ s!"but the card was polled as {(Hex.encode (toBeBytes args.systemCode)).toUpper}; "
      ++ "these keys are not for this card"))
  else if ch.areas.isEmpty ∧ ch.services.isEmpty then
    .lift (bail "the oracle returned an empty node path, so Authentication1 cannot be addressed")
  else do
    attempt device (card.requestService (ch.areas ++ ch.services) 500)
    let c1a ← .lift (blockOfHex hexError "C1A is not valid hex" "C1A must be 8 bytes" ch.c1a)
    let (c1b, c2a) ← (card.authentication1 ch.areas ch.services c1a args.auth1Timeout).perform device
    let settle ← .lift (context
      "oracle settle failed — the card and oracle disagree on the key schedule"
      (oracle.settle idm (Hex.encode r1.toList) (Hex.encode c1b.toList) (Hex.encode c2a.toList)))
    let c2b ← .lift (blockOfHex hexError "C2B is not valid hex" "C2B must be 8 bytes" settle.c2b)
    let auth2 ← (card.authentication2 c2b args.auth2Timeout).perform device
    .lift (context "oracle attest failed"
      (oracle.attest idm (Hex.encode c1b.toList) (Hex.encode c2a.toList) (Hex.encode auth2)))

/-- A run with a card that was found. -/
def run (args : Args) (oracle : LiveOracle) (card : Card) (r1 : Block) (now : UInt64) :
    Stateful σ (Stop Error) Outcome := do
  let _ ← .lift (context "oracle did not answer ping" oracle.ping)
  let vkHex ← .lift (context "oracle did not return a verifying key" oracle.verifyingKey)
  let vkBytes ← .lift (bytesOfHex hexError "verifying key is not valid hex" vkHex)
  attempt device (card.requestSystemCodes 500)
  attempt device (card.requestService SUICA_SERVICES 500)
  attempt device (card.requestCodeList 0x0000 0x0000 500)
  attempt device (card.requestBlockInformation SUICA_SERVICES 500)
  let attest ← authenticate hexError device args oracle.toOracle card r1
  .lift (verdict hexError ark loadVerifyingKey vkBytes attest r1 now)

end Run

/-- The exit code of `main`, once its arguments are read. -/
def exitCode : Except (Stop Error) Outcome → ℕ
  | .ok .verified => 0
  | .ok .proofRejected => 3
  | .error (.error _) => 1
  -- a panic of the main thread
  | .error .panic => 101

/-! ### What a verdict says -/

section Verdict

variable {hexError : String → String}

theorem bytesOfHex_eq_ok_iff {msg s : String} {bytes : List UInt8} :
    bytesOfHex hexError msg s = .ok bytes ↔ Hex.decode s = some bytes := by
  rw [bytesOfHex]
  cases Hex.decode s with
  | none => exact ⟨nofun, nofun⟩
  | some b => rw [Except.ok.injEq, Option.some.injEq]

theorem copyFromSlice_eq_some_iff {n : ℕ} {bytes : List UInt8} {v : Vector UInt8 n} :
    copyFromSlice n bytes = some v ↔ bytes = v.toList := by
  constructor
  · intro h
    rw [copyFromSlice] at h
    split at h
    · cases h
      rfl
    · cases h
  · rintro rfl
    exact copyFromSlice_toList v

theorem blockOfHex_eq_ok_iff {notHex notEight s : String} {b : Block} :
    blockOfHex hexError notHex notEight s = .ok b ↔ Hex.decode s = some b.toList := by
  rw [blockOfHex, bind_eq_ok]
  simp only [bytesOfHex_eq_ok_iff]
  constructor
  · rintro ⟨bytes, hbytes, h⟩
    cases hcopy : copyFromSlice 8 bytes with
    | none =>
      rw [hcopy] at h
      cases h
    | some b' =>
      rw [hcopy] at h
      cases h
      rw [hbytes, copyFromSlice_eq_some_iff.mp hcopy]
  · intro h
    refine ⟨b.toList, h, ?_⟩
    rw [copyFromSlice_toList]

theorem readLimb_eq_ok_iff {i : ℕ} {scalar : String} {l : Block} :
    readLimb hexError i scalar = .ok l ↔ Hex.decode scalar = some (scalarOfLimb l.toList) := by
  rw [readLimb, bind_eq_ok]
  simp only [bytesOfHex_eq_ok_iff]
  constructor
  · rintro ⟨bytes, hbytes, h⟩
    obtain ⟨hlen, h⟩ := guard_eq_ok.mp h
    obtain ⟨hzero, h⟩ := guard_eq_ok.mp h
    have hlen := not_not.mp hlen
    rw [slice_of_le (by decide) (by omega)] at h
    obtain ⟨b, harray, hb⟩ := array_of_length (ε := Error) (n := 8) (s := (bytes.take 8).drop 0)
      (by rw [List.drop_zero, List.length_take, hlen]; rfl)
    obtain rfl : b = l := Except.ok.inj (harray.symm.trans h)
    have hcanonical : Sui.CanonicalLimb bytes := by
      refine ⟨hlen, fun x hx => ?_⟩
      by_contra hne
      exact hzero (List.any_eq_true.mpr ⟨x, hx, decide_eq_true hne⟩)
    obtain ⟨l', hl', rfl⟩ := Sui.canonicalLimb_iff_scalarOfLimb.mp hcanonical
    rw [hbytes, hb, List.drop_zero, Sui.take_scalarOfLimb hl']
  · intro h
    have hl : l.toList.length = 8 := Vector.length_toList
    refine ⟨_, h, guard_eq_ok.mpr ⟨not_not.mpr (Sui.scalarOfLimb_length hl),
      guard_eq_ok.mpr ⟨?_, ?_⟩⟩⟩
    · rw [scalarOfLimb, List.drop_left' hl, List.any_replicate]
      decide
    · rw [slice_of_le (by decide) (by rw [Sui.scalarOfLimb_length hl]; decide)]
      show array 8 (((scalarOfLimb l.toList).take 8).drop 0) = .ok l
      rw [Sui.take_scalarOfLimb hl, List.drop_zero, array, copyFromSlice_toList]

theorem readLimbs_eq_ok_iff {strings : List String} {limbs : List Block} (k : ℕ) :
    (strings.zipIdx k).mapM (fun p => readLimb hexError p.2 p.1) = .ok limbs
      ↔ strings.map Hex.decode = limbs.map fun l => some (scalarOfLimb l.toList) := by
  rw [mapM_eq_ok_iff]
  induction strings generalizing limbs k with
  | nil =>
    rw [List.zipIdx_nil, List.forall₂_nil_left_iff, List.map_nil, eq_comm (a := []),
      List.map_eq_nil_iff]
  | cons scalar strings ih =>
    rw [List.zipIdx_cons, List.forall₂_cons_left_iff, List.map_cons, eq_comm (a := _ :: _),
      List.map_eq_cons_iff]
    refine exists_congr fun l => exists_congr fun ls => ?_
    rw [readLimb_eq_ok_iff, ih, eq_comm (a := strings.map Hex.decode)]
    constructor
    · rintro ⟨hl, hls, rfl⟩
      exact ⟨rfl, hl.symm, hls⟩
    · rintro ⟨rfl, hl, hls⟩
      exact ⟨hl.symm, hls, rfl⟩

theorem absDiff_toNat (a b : UInt64) :
    (absDiff a b).toNat = ((a.toNat : ℤ) - b.toNat).natAbs := by
  rw [absDiff]
  split
  · rename_i h
    rw [UInt64.toNat_sub_of_le _ _ (UInt64.le_of_lt h)]
    have := UInt64.lt_iff_toNat_lt.mp h
    omega
  · rename_i h
    have hle := UInt64.not_lt.mp h
    rw [UInt64.toNat_sub_of_le _ _ hle]
    have := UInt64.le_iff_toNat_le.mp hle
    omega

variable {ark : ArkGroth16} {loadVerifyingKey : List UInt8 → Except String ark.Vk}
  {vkBytes : List UInt8} {attest : AttestResult} {r1 : Block} {now : UInt64}

/-- The three scalars of a statement, spelled in full. -/
def Spelled (strings : List String) (idi r1 : Block) (attestedAt : UInt64) : Prop :=
  strings.map Hex.decode = [some (scalarOfLimb idi.toList), some (scalarOfLimb r1.toList),
    some (scalarOfLimb (leBytes 8 attestedAt.toNat))]

theorem Spelled.parsePublicInputs {proof : Prover.Groth16Proof} {idi : Block} {attestedAt : UInt64}
    (h : Spelled proof.publicInputs idi r1 attestedAt) :
    parsePublicInputs proof = .ok [(limb idi : Fr), (limb r1 : Fr), (attestedAt.toNat : Fr)] := by
  have hread : ∀ {s : String} {l : List UInt8}, l.length = 8 →
      Hex.decode s = some (scalarOfLimb l) → Prover.parseFr s = some (leNat l : Fr) := by
    intro s l hl hs
    refine Prover.parseFr_eq_some_iff.mpr ⟨_, hs, ?_⟩
    rw [Sui.frToBytes_natCast hl]
    exact List.take_of_length_le (Nat.le_of_eq (Sui.scalarOfLimb_length hl))
  have hlen := congrArg List.length h
  rw [List.length_map] at hlen
  obtain ⟨s0, s1, s2, hstrings⟩ := List.length_eq_three.mp hlen
  rw [Spelled, hstrings] at h
  simp only [List.map_cons, List.map_nil, List.cons.injEq, and_true] at h
  obtain ⟨h0, h1, h2⟩ := h
  refine Prover.parsePublicInputs_eq_ok_iff.mpr ⟨hlen, ?_⟩
  rw [hstrings]
  have htime := hread (leBytes_length 8 attestedAt.toNat) h2
  rw [leNat_leBytes (lt_of_lt_of_eq attestedAt.toNat_lt (by decide))] at htime
  exact .cons (hread Vector.length_toList h0) (.cons (hread Vector.length_toList h1)
    (.cons htime .nil))

theorem ofNat_leNat_eq_iff {b : Block} {n : UInt64} :
    UInt64.ofNat (leNat b.toList) = n ↔ b.toList = leBytes 8 n.toNat := by
  have hlt : leNat b.toList < 2 ^ 64 := by
    have := leNat_lt b.toList
    rw [Vector.length_toList] at this
    exact lt_of_lt_of_eq this (by decide)
  constructor
  · rintro rfl
    rw [UInt64.toNat_ofNat_of_lt' hlt]
    exact (leBytes_leNat b.toList).symm.trans (by rw [Vector.length_toList])
  · intro h
    rw [h, leNat_leBytes (lt_of_lt_of_eq n.toNat_lt (by decide)), UInt64.ofNat_toNat]

/-- **The verdict**: the proof verifies for the IDi that was reported, this run's challenge
and the time that was reported, each spelled in full, and the time is set and within a day. -/
theorem verdict_eq_verified_iff :
    verdict hexError ark loadVerifyingKey vkBytes attest r1 now = .ok .verified
      ↔ ∃ vk idi proof, loadVerifyingKey vkBytes = .ok vk ∧ Hex.decode attest.idi = some idi.toList
        ∧ parseProofPoints ark attest.proof = .ok proof
        ∧ verifyProof ark vk [(limb idi : Fr), (limb r1 : Fr), (attest.attestedAt.toNat : Fr)] proof
          = true
        ∧ Spelled attest.proof.publicInputs idi r1 attest.attestedAt ∧ attest.attestedAt ≠ 0
        ∧ ((now.toNat : ℤ) - attest.attestedAt.toNat).natAbs ≤ 86400 := by
  have hdrift : absDiff now attest.attestedAt ≤ 86400
      ↔ ((now.toNat : ℤ) - attest.attestedAt.toNat).natAbs ≤ 86400 := by
    rw [UInt64.le_iff_toNat_le, absDiff_toNat]
    rfl
  constructor
  · intro h
    obtain ⟨vk, hvk, h⟩ := bind_eq_ok.mp h
    obtain ⟨idi, hidi, h⟩ := bind_eq_ok.mp h
    dsimp only at h
    split at h
    · cases h
    · rename_i hverified
      obtain ⟨proof, pis, hproof, hpis, hverify, -⟩ :=
        Prover.verifyAttestationDetailed_eq_ok_iff.mp hverified
      obtain ⟨hlen, h⟩ := guard_eq_ok.mp h
      obtain ⟨limbs, hlimbs, h⟩ := bind_eq_ok.mp h
      have hstrings := (readLimbs_eq_ok_iff 0).mp hlimbs
      have hcount := congrArg List.length hstrings
      rw [List.length_map, List.length_map, not_not.mp hlen] at hcount
      obtain ⟨l0, l1, l2, rfl⟩ := List.length_eq_three.mp hcount.symm
      have hok : decide (l0 = idi) && decide (l1 = r1)
          && decide (UInt64.ofNat (leNat l2.toList) = attest.attestedAt) && decide (l1 = r1)
          && (decide (UInt64.ofNat (leNat l2.toList) ≠ 0)
            && decide (absDiff now (UInt64.ofNat (leNat l2.toList)) ≤ 86400)) := by
        by_contra hnot
        have hresult : Outcome.proofRejected = .verified := by
          rw [← Except.ok.inj h, if_neg hnot]
        cases hresult
      simp only [Bool.and_eq_true, decide_eq_true_eq] at hok
      obtain ⟨⟨⟨⟨rfl, rfl⟩, htime⟩, -⟩, hset, hnow⟩ := hok
      have hspelled : Spelled attest.proof.publicInputs l0 l1 attest.attestedAt := by
        rw [Spelled, hstrings, ← ofNat_leNat_eq_iff.mp htime]
        rfl
      rw [htime] at hset hnow
      obtain rfl := Except.ok.inj (hpis.symm.trans hspelled.parsePublicInputs)
      exact ⟨vk, l0, proof, mapError_eq_ok.mp hvk, blockOfHex_eq_ok_iff.mp hidi, hproof, hverify,
        hspelled, hset, hdrift.mp hnow⟩
  · rintro ⟨vk, idi, proof, hvk, hidi, hproof, hverify, hspelled, hset, hnow⟩
    have hverified : verifyAttestationDetailed ark vk ⟨idi, attest.attestedAt, attest.proof⟩ = .ok () :=
      Prover.verifyAttestationDetailed_eq_ok_iff.mpr
        ⟨proof, _, hproof, hspelled.parsePublicInputs, hverify, r1, rfl⟩
    have hlen : ¬ attest.proof.publicInputs.length ≠ 3 := by
      have := congrArg List.length hspelled
      rw [List.length_map] at this
      exact not_not.mpr this
    obtain ⟨l2, -, hl2⟩ := array_of_length (ε := Error) (n := 8)
      (leBytes_length 8 attest.attestedAt.toNat)
    have hlimbs : (attest.proof.publicInputs.zipIdx 0).mapM (fun p => readLimb hexError p.2 p.1)
        = .ok [idi, r1, l2] := (readLimbs_eq_ok_iff 0).mpr (by rw [hspelled, ← hl2]; rfl)
    refine bind_eq_ok.mpr ⟨vk, mapError_eq_ok.mpr hvk, bind_eq_ok.mpr
      ⟨idi, blockOfHex_eq_ok_iff.mpr hidi, ?_⟩⟩
    rw [hverified]
    refine guard_eq_ok.mpr ⟨hlen, bind_eq_ok.mpr ⟨_, hlimbs, ?_⟩⟩
    refine bind_eq_ok.mpr ⟨idi, rfl, bind_eq_ok.mpr ⟨r1, rfl, bind_eq_ok.mpr ⟨l2, rfl, ?_⟩⟩⟩
    dsimp only
    rw [ofNat_leNat_eq_iff.mpr hl2]
    simp only [decide_true, Bool.true_and, decide_eq_true hset, decide_eq_true (hdrift.mpr hnow)]
    rfl

end Verdict

/-! ### What a verdict is worth -/

section Worth

variable {hexError : String → String} {ark : ArkGroth16}
  {loadVerifyingKey : List UInt8 → Except String ark.Vk} {σ : Type}
  {device : List UInt8 × UInt16 → σ → Except String (List UInt8) × σ}
  {args : Args} {card : Card} {r1 : Block}

theorem exitCode_eq_zero_iff {result : Except (Stop Error) Outcome} :
    exitCode result = 0 ↔ result = .ok .verified := by
  constructor
  · intro h
    match result, h with
    | .ok .verified, _ => rfl
    | .ok .proofRejected, h => cases h
    | .error (.error _), h => cases h
    | .error .panic, h => cases h
  · rintro rfl
    rfl

theorem context_eq_ok {α : Type} {msg : String} {x : Reading α} {a : α} :
    context msg x = .ok a ↔ x = .ok a := by
  match x with
  | .ok b => rfl
  | .error (.error _) => exact ⟨nofun, nofun⟩
  | .error .panic => exact ⟨nofun, nofun⟩

/-- The oracle has answered for this card and this challenge, up to an attestation. -/
def Attested (oracle : Oracle) (args : Args) (card : Card) (r1 : Block) (attest : AttestResult) :
    Prop :=
  let idm := Hex.encode card.idm.toList
  let r1 := Hex.encode r1.toList
  ∃ ch settle, ∃ c1b c2a : Block, ∃ auth2 : List UInt8,
    oracle.challenge idm r1 = .ok ch ∧ ch.systemCode = args.systemCode
      ∧ ¬ (ch.areas.isEmpty ∧ ch.services.isEmpty)
      ∧ oracle.settle idm r1 (Hex.encode c1b.toList) (Hex.encode c2a.toList) = .ok settle
      ∧ oracle.attest idm (Hex.encode c1b.toList) (Hex.encode c2a.toList) (Hex.encode auth2)
        = .ok attest

theorem guard_lift_eq_ok {p : Prop} [Decidable p] {α : Type} {x : Reading α}
    {m : Stateful σ (Stop Error) α} {s s' : σ} {a : α} (hx : ∀ a, x ≠ .ok a) :
    (if p then Stateful.lift x else m) s = (.ok a, s') ↔ ¬ p ∧ m s = (.ok a, s') := by
  by_cases hp : p
  · rw [if_pos hp]
    refine ⟨fun h => absurd (Prod.mk.inj h).1 (hx a), fun h => absurd hp h.1⟩
  · rw [if_neg hp]
    exact ⟨fun h => ⟨hp, h⟩, fun h => h.2⟩

theorem attested_of_authenticate {oracle : Oracle} {s s' : σ} {attest : AttestResult}
    (h : authenticate hexError device args oracle card r1 s = (.ok attest, s')) :
    Attested oracle args card r1 attest := by
  obtain ⟨ch, s1, hch, h⟩ := Stateful.bind_eq_ok.mp h
  obtain ⟨hsystem, h⟩ := (guard_lift_eq_ok nofun).mp h
  obtain ⟨hpath, h⟩ := (guard_lift_eq_ok nofun).mp h
  obtain ⟨-, s2, -, h⟩ := Stateful.bind_eq_ok.mp h
  obtain ⟨c1a, s3, -, h⟩ := Stateful.bind_eq_ok.mp h
  obtain ⟨⟨c1b, c2a⟩, s4, -, h⟩ := Stateful.bind_eq_ok.mp h
  obtain ⟨settle, s5, hsettle, h⟩ := Stateful.bind_eq_ok.mp h
  obtain ⟨c2b, s6, -, h⟩ := Stateful.bind_eq_ok.mp h
  obtain ⟨auth2, s7, -, h⟩ := Stateful.bind_eq_ok.mp h
  exact ⟨ch, settle, c1b, c2a, auth2, context_eq_ok.mp (Prod.mk.inj hch).1, not_not.mp hsystem, hpath,
    context_eq_ok.mp (Prod.mk.inj hsettle).1, context_eq_ok.mp (Prod.mk.inj h).1⟩

theorem Spelled.publicInputsBytes {proof : Prover.Groth16Proof} {idi : Block} {attestedAt : UInt64}
    (h : Spelled proof.publicInputs idi r1 attestedAt) :
    Prover.publicInputsBytes proof = .ok (Sui.statementBlob idi.toList r1.toList attestedAt) :=
  bind_eq_ok.mpr ⟨_, h.parsePublicInputs, congrArg Except.ok (Sui.flatMap_statement idi r1 attestedAt)⟩

end Worth

/-! ### The fixture, run -/

namespace Fixture

def r1 : Block := Des.Block.ofNat 0x0011223344556677

def card : Card := ⟨Vector.replicate 8 0⟩

def args : Args := ⟨0x0003, 2000, 1000⟩

/-- A card that authenticates with anybody, and says nothing else. -/
def device : List UInt8 × UInt16 → Unit → Except String (List UInt8) × Unit
  | (_ :: 0x10 :: _, _), s => (.ok (26 :: 0x11 :: List.replicate 24 0), s)
  | (_ :: 0x12 :: _, _), s => (.ok (34 :: 0x13 :: List.replicate 32 0), s)
  | _, s => (.error "no answer", s)

def attest : AttestResult :=
  ⟨Hex.encode Sui.Fixture.attestation.idi.toList, Sui.Fixture.attestedAt, Sui.Fixture.attestation.proof⟩

def oracle : LiveOracle where
  base := ""
  postChallenge _ _ :=
    .reply ⟨some ⟨Hex.encode (Vector.replicate 8 0 : Block).toList, 0x0003, [0x0040], [0x0048]⟩, none⟩
  postSettle _ _ _ _ := .reply ⟨some ⟨Hex.encode (Vector.replicate 8 0 : Block).toList⟩, none⟩
  postAttest _ _ _ _ := .reply ⟨some attest, none⟩
  postPing := .reply ⟨some "pong", none⟩
  postVerifyingKey := .reply ⟨some (Hex.encode []), none⟩

theorem spelled :
    Spelled attest.proof.publicInputs Sui.Fixture.attestation.idi r1 Sui.Fixture.attestedAt := by
  have hscalar : ∀ {n : ℕ} {l : List UInt8}, l.length = 8 → leNat l = n →
      Hex.decode (Prover.frToHex (n : Fr)) = some (scalarOfLimb l) := by
    rintro n l hl rfl
    rw [Prover.frToHex, Hex.decode_encode, Sui.frToBytes_natCast hl]
  have hidi := hscalar (n := 0x8070605040302010) (l := Sui.Fixture.attestation.idi.toList) rfl (by decide)
  have hr1 := hscalar (n := 0x7766554433221100) (l := r1.toList) rfl (by decide)
  have htime := hscalar (n := 1758768000) (l := leBytes 8 Sui.Fixture.attestedAt.toNat) rfl (by decide)
  show [_, _, _] = _
  rw [hidi, hr1, htime]

theorem authenticates :
    authenticate id device args oracle.toOracle card r1 () = (.ok attest, ()) := by
  have hblock : ∀ notHex notEight : String,
      blockOfHex id notHex notEight (Hex.encode (Vector.replicate 8 0 : Block).toList)
        = .ok (Vector.replicate 8 0) := fun _ _ => blockOfHex_eq_ok_iff.mpr (Hex.decode_encode _)
  refine Stateful.bind_eq_ok.mpr ⟨_, (), rfl, (guard_lift_eq_ok nofun).mpr ⟨by decide,
    (guard_lift_eq_ok nofun).mpr ⟨by decide, ?_⟩⟩⟩
  refine Stateful.bind_eq_ok.mpr ⟨(), (), rfl, Stateful.bind_eq_ok.mpr ⟨Vector.replicate 8 0, (),
    congrArg (Prod.mk · ()) (hblock _ _), ?_⟩⟩
  refine Stateful.bind_eq_ok.mpr ⟨(Vector.replicate 8 0, Vector.replicate 8 0), (), rfl, ?_⟩
  refine Stateful.bind_eq_ok.mpr ⟨_, (), rfl, Stateful.bind_eq_ok.mpr ⟨Vector.replicate 8 0, (),
    congrArg (Prod.mk · ()) (hblock _ _), ?_⟩⟩
  exact Stateful.bind_eq_ok.mpr ⟨List.replicate 32 0, (), rfl, rfl⟩

theorem exitCode_run :
    exitCode (run id Sui.Fixture.ark (fun _ => .ok ()) device args oracle card r1 1758768000 ()).1
      = 0 := by
  have hverdict : verdict id Sui.Fixture.ark (fun _ => .ok ()) [] attest r1 1758768000
      = .ok .verified := by
    refine verdict_eq_verified_iff.mpr ⟨(), Sui.Fixture.attestation.idi, Sui.Fixture.proofPoints, rfl,
      Hex.decode_encode _, Sui.Fixture.attestation_points, ?_, spelled, by decide, by decide⟩
    have hscalars : [(limb Sui.Fixture.attestation.idi : Fr), (limb r1 : Fr),
        (attest.attestedAt.toNat : Fr)] = Sui.Fixture.scalars := by
      have hidi : limb Sui.Fixture.attestation.idi = 0x8070605040302010 := by decide
      have hr1 : limb r1 = 0x7766554433221100 := by decide
      rw [hidi, hr1]
      rfl
    rw [hscalars]
    show (Sui.Fixture.ark.verifyWithProcessedVk () _ _).getD false = true
    rw [Sui.Fixture.verifyWithProcessedVk_iff.mpr ⟨rfl, rfl⟩, Option.getD_some]
  have hrun : run id Sui.Fixture.ark (fun _ => .ok ()) device args oracle card r1 1758768000 ()
      = (.ok .verified, ()) := by
    have hping : context "oracle did not answer ping" oracle.ping = .ok "pong" := rfl
    have hkey : context "oracle did not return a verifying key" oracle.verifyingKey
        = .ok (Hex.encode []) := rfl
    have hbytes : bytesOfHex id "verifying key is not valid hex" (Hex.encode []) = .ok [] :=
      bytesOfHex_eq_ok_iff.mpr (Hex.decode_encode [])
    unfold run
    refine Stateful.bind_eq_ok.mpr ⟨_, (), congrArg (Prod.mk · ()) hping, ?_⟩
    refine Stateful.bind_eq_ok.mpr ⟨_, (), congrArg (Prod.mk · ()) hkey, ?_⟩
    refine Stateful.bind_eq_ok.mpr ⟨_, (), congrArg (Prod.mk · ()) hbytes, ?_⟩
    refine Stateful.bind_eq_ok.mpr ⟨(), (), rfl, Stateful.bind_eq_ok.mpr ⟨(), (), rfl, ?_⟩⟩
    refine Stateful.bind_eq_ok.mpr ⟨(), (), rfl, Stateful.bind_eq_ok.mpr ⟨(), (), rfl, ?_⟩⟩
    exact Stateful.bind_eq_ok.mpr ⟨attest, (), authenticates, congrArg (Prod.mk · ()) hverdict⟩
  rw [hrun]
  rfl

end Fixture

section Worth

variable {hexError : String → String} {ark : ArkGroth16}
  {loadVerifyingKey : List UInt8 → Except String ark.Vk} {σ : Type}
  {device : List UInt8 × UInt16 → σ → Except String (List UInt8) × σ}
  {args : Args} {card : Card} {r1 : Block}

/-- **What exit code 0 is worth**, of a run that has polled a card.  The oracle has answered for
that card and the challenge that was drawn, and has attested an IDi within a day of now.  And at every
gate over the same key, the call that presents the attestation for this challenge is
accepted as soon as the gate's own checks pass. -/
theorem run_verified {oracle : LiveOracle} {now : UInt64} {s : σ}
    (h : exitCode (run hexError ark loadVerifyingKey device args oracle card r1 now s).1 = 0) :
    ∃ vkHex vkBytes vk attest, ∃ idi : Block, oracle.verifyingKey = .ok vkHex
      ∧ Hex.decode vkHex = some vkBytes ∧ loadVerifyingKey vkBytes = .ok vk
      ∧ Attested oracle.toOracle args card r1 attest
      ∧ Hex.decode attest.idi = some idi.toList
      ∧ ((now.toNat : ℤ) - attest.attestedAt.toNat).natAbs ≤ 86400
      ∧ ∀ {sui : Sui.SuiGroth16} {gate : Sui.Gate sui} {proofDeserialize}
        (_ : Sui.SameGroth16 ark sui vk gate.verifierKey proofDeserialize),
        ∃ proof publicInputs, Prover.proofCompressedBytes ark attest.proof = .ok proof
          ∧ Prover.publicInputsBytes attest.proof = .ok publicInputs
          ∧ ∀ (timestampMs : UInt64) (sender : Sui.Address),
            (∃ ret, (Sui.SuicashGate.verify gate idi.toList attest.attestedAt proof publicInputs
                r1.toList timestampMs sender).result = .ok ret)
              ↔ ((attest.attestedAt.toNat : ℤ) - (timestampMs / 1000).toNat).natAbs
                  ≤ gate.maxClockDriftSeconds.toNat
                ∧ gate.Admits idi.toList ∧ r1.toList ∉ gate.seen.keys := by
  rcases hrun : run hexError ark loadVerifyingKey device args oracle card r1 now s with ⟨result, s'⟩
  rw [hrun, exitCode_eq_zero_iff] at h
  dsimp only at h
  subst h
  obtain ⟨-, s1, -, h⟩ := Stateful.bind_eq_ok.mp hrun
  obtain ⟨vkHex, s2, hvkHex, h⟩ := Stateful.bind_eq_ok.mp h
  obtain ⟨vkBytes, s3, hvkBytes, h⟩ := Stateful.bind_eq_ok.mp h
  -- what the card says of itself is only printed
  obtain ⟨-, s4, -, h⟩ := Stateful.bind_eq_ok.mp h
  obtain ⟨-, s5, -, h⟩ := Stateful.bind_eq_ok.mp h
  obtain ⟨-, s6, -, h⟩ := Stateful.bind_eq_ok.mp h
  obtain ⟨-, s7, -, h⟩ := Stateful.bind_eq_ok.mp h
  obtain ⟨attest, s8, hattest, h⟩ := Stateful.bind_eq_ok.mp h
  obtain ⟨vk, idi, points, hvk, hidi, hpoints, hverify, hspelled, -, hnow⟩ :=
    verdict_eq_verified_iff.mp (Prod.mk.inj h).1
  refine ⟨vkHex, vkBytes, vk, attest, idi, context_eq_ok.mp (Prod.mk.inj hvkHex).1,
    bytesOfHex_eq_ok_iff.mp (Prod.mk.inj hvkBytes).1, hvk, attested_of_authenticate hattest, hidi, hnow,
    fun same => ?_⟩
  have hchecked := Prover.parseProofPoints_checked hpoints
  obtain ⟨proof, hproof⟩ := Option.isSome_iff_exists.mp (same.serialize_isSome points hchecked)
  have hcompressed : Prover.proofCompressedBytes ark attest.proof = .ok proof :=
    bind_eq_ok.mpr ⟨points, hpoints, by rw [hproof]⟩
  have hholds := (same.holds_serialized_iff hchecked hproof _ _ _).mpr hverify
  rw [Sui.flatMap_statement] at hholds
  exact ⟨proof, _, hcompressed, hspelled.publicInputsBytes, fun timestampMs sender =>
    Sui.SuicashGate.verify_statement_iff hholds timestampMs sender⟩

end Worth

/-- The fixture runs to a verdict, and pays at an open gate. -/
theorem run_verified_fixture :
    ∃ proof publicInputs ret, (Sui.SuicashGate.verify (Sui.Fixture.gate ⟨[], by decide⟩ 0)
      Sui.Fixture.attestation.idi.toList Sui.Fixture.attestedAt proof publicInputs Fixture.r1.toList
      1758768000000 (Vector.replicate 32 0)).result = .ok ret := by
  obtain ⟨-, -, vk, attest, idi, -, -, -, ⟨_, _, _, _, _, -, -, -, -, hattest⟩, hidi, -, hchain⟩ :=
    run_verified Fixture.exitCode_run
  obtain rfl : Fixture.attest = attest := Except.ok.inj hattest
  obtain rfl : Sui.Fixture.attestation.idi = idi :=
    Vector.toList_inj.mp (Option.some.inj ((Hex.decode_encode _).symm.trans hidi))
  have hsame : Sui.SameGroth16 Sui.Fixture.ark Sui.Fixture.groth16 vk
      (Sui.Fixture.gate ⟨[], by decide⟩ 0).verifierKey Sui.Fixture.proofDeserialize :=
    Sui.Fixture.same
  obtain ⟨proof, publicInputs, -, -, haccepts⟩ := hchain hsame
  obtain ⟨ret, hret⟩ := (haccepts 1758768000000 (Vector.replicate 32 0)).mpr
    ⟨by decide, .inl rfl, List.not_mem_nil⟩
  exact ⟨proof, publicInputs, ret, hret⟩

end SuiCash.Usb
