import SuiCash.Server.Oracle

/-!
# The server's `attest`

`server/src/api/service.rs` with its error codes and its request type: read the
request, verify the session, prove it off the runtime, and answer only if the two
agree on the IDi.

`attest` runs two verifiers of one session in a row.  `proveCompressed_of_verified`
says what the second can still do once the first has accepted: nothing but fail to
prove.  `verifySession_iff_preChecks` is the whole comparison.
-/

namespace SuiCash.Server

open Des Fallible
open Prover (ProveRequest ProverError ArkGroth16 ArkProver Attestation Groth16Proof preChecks
  preChecks_claim proveCompressed proveCompressed_error proveCompressed_ok)

/-! ### Errors on the wire -/

structure ErrorObject where
  code : ℤ
  message : String
  deriving DecidableEq

namespace ErrorObject

def MAC_MISMATCH : ℤ := -32010
def TID_MISMATCH : ℤ := -32011
def C1B_MISMATCH : ℤ := -32012
def PROVE_FAILED : ℤ := -32020

def invalidParams (msg : String) : ErrorObject := ⟨-32602, msg⟩

def internal (msg : String) : ErrorObject := ⟨-32603, msg⟩

def macMismatch : ErrorObject := ⟨MAC_MISMATCH, "AUTH2 MAC verification failed"⟩

def proveFailed (msg : String) : ErrorObject := ⟨PROVE_FAILED, msg⟩

def tidMismatch : ErrorObject := ⟨TID_MISMATCH, "transaction identifier mismatch"⟩

def c1bMismatch : ErrorObject := ⟨C1B_MISMATCH, "challenge response mismatch"⟩

end ErrorObject

/-- The error object of a session that does not verify. -/
def AttestError.toErrorObject : AttestError → ErrorObject
  | .macMismatch => .macMismatch
  -- `UnexpectedTn` shares the code of `TidMismatch`: neither is the fresh session claimed.
  | .tidMismatch | .unexpectedTn => .tidMismatch
  | .malformed => .invalidParams "malformed attest inputs"

/-- The error object of a session that is not proved. -/
def proverErrorObject : ProverError → ErrorObject
  | .macMismatch => .macMismatch
  | .tidMismatch => .tidMismatch
  | .c1bMismatch => .c1bMismatch
  | .proveFailed => .proveFailed "proof generation failed"

/-! ### Requests -/

/-- `parse_hex`: strict hex to an array of `n`.  The text of a decoding error is the
`hex` crate's. -/
def parseHex (hexError : String → String) (n : ℕ) (s : String) : Except String (Vector UInt8 n) :=
  match Hex.decode s with
  | none => .error (hexError s)
  | some v =>
    match copyFromSlice n v with
    | none => .error s!"expected {n} bytes, got {v.length}"
    | some out => .ok out

structure AttestRequest where
  idm : String
  c1b : String
  c2a : String
  auth2 : String
  deriving DecidableEq

namespace AttestRequest

variable (hexError : String → String) (req : AttestRequest)

def idmBytes : Except String Block := parseHex hexError 8 req.idm
def c1bBytes : Except String Block := parseHex hexError 8 req.c1b
def c2aBytes : Except String Block := parseHex hexError 8 req.c2a
def auth2Bytes : Except String (Vector UInt8 32) := parseHex hexError 32 req.auth2

end AttestRequest

structure AttestResponse where
  idi : String
  attestedAt : UInt64
  proof : Groth16Proof
  deriving DecidableEq

/-! ### Attesting -/

section Attest

variable {ark : ArkGroth16} (prover : ArkProver ark)

/-- What one `attest` call finds outside its request. -/
structure Runtime where
  /-- The proving key, or the text of its loading error. -/
  provingKey : Except String prover.Pk
  /-- Seconds since the epoch, or the text of the clock's error. -/
  now : Except String UInt64
  /-- A proof slot is acquired and the blocking task is joined. -/
  dispatched : Bool
  rng : prover.Rng

variable {prover}

/-- Run one proof off the async runtime.  A panic of the task is a join error. -/
def proveBlocking (rt : Runtime prover) (pk : prover.Pk) (req : ProveRequest) :
    Except ProverError Attestation :=
  if rt.dispatched then
    match proveCompressed prover pk req rt.rng with
    | .ok (att, _) => .ok att
    | .error (.error e) => .error e
    | .error .panic => .error .proveFailed
  else .error .proveFailed

def attest (crate : DesCrate) (felica : FelicaCrate) (hexError : String → String)
    (keys : OracleKeys) (rt : Runtime prover) (req : AttestRequest) :
    Except (Stop ErrorObject) AttestResponse := do
  let pk ← rt.provingKey.mapError fun e => Stop.error (.proveFailed e)
  let idm ← (req.idmBytes hexError).mapError fun e => Stop.error (.invalidParams e)
  let c1b ← (req.c1bBytes hexError).mapError fun e => Stop.error (.invalidParams e)
  let c2a ← (req.c2aBytes hexError).mapError fun e => Stop.error (.invalidParams e)
  let auth2 ← (req.auth2Bytes hexError).mapError fun e => Stop.error (.invalidParams e)
  let verified ← (verifySession crate felica keys idm c1b c2a auth2).mapError
    (Stop.map AttestError.toErrorObject)
  let attestedAt ← rt.now.mapError fun e => Stop.error (.internal e)
  let reqForProve : ProveRequest := ⟨idm, c1b, c2a, auth2, keys.gsk, keys.usk, attestedAt⟩
  let att ← (proveBlocking rt pk reqForProve).mapError fun e => Stop.error (proverErrorObject e)
  if att.idi ≠ verified.idi then
    .error (.error (.internal "prover IDi disagrees with session verifier"))
  else .ok ⟨Hex.encode att.idi.toList, att.attestedAt, att.proof⟩

theorem attest_eq_ok {crate : DesCrate} {felica : FelicaCrate} {hexError : String → String}
    {keys : OracleKeys} {rt : Runtime prover} {areq : AttestRequest} {response : AttestResponse}
    (h : attest crate felica hexError keys rt areq = .ok response) :
    ∃ idm c1b c2a auth2 v pk attestedAt att bytes, areq.idmBytes hexError = .ok idm
      ∧ areq.c1bBytes hexError = .ok c1b ∧ areq.c2aBytes hexError = .ok c2a
      ∧ areq.auth2Bytes hexError = .ok auth2
      ∧ verifySession crate felica keys idm c1b c2a auth2 = .ok v
      ∧ proveCompressed prover pk ⟨idm, c1b, c2a, auth2, keys.gsk, keys.usk, attestedAt⟩ rt.rng
        = .ok (att, bytes)
      ∧ att.idi = v.idi ∧ response = ⟨Hex.encode att.idi.toList, att.attestedAt, att.proof⟩ := by
  obtain ⟨pk, -, h⟩ := bind_eq_ok.mp h
  obtain ⟨idm, hidm, h⟩ := bind_eq_ok.mp h
  obtain ⟨c1b, hc1b, h⟩ := bind_eq_ok.mp h
  obtain ⟨c2a, hc2a, h⟩ := bind_eq_ok.mp h
  obtain ⟨auth2, hauth2, h⟩ := bind_eq_ok.mp h
  obtain ⟨v, hv, h⟩ := bind_eq_ok.mp h
  obtain ⟨attestedAt, -, h⟩ := bind_eq_ok.mp h
  obtain ⟨att, hprove, h⟩ := bind_eq_ok.mp h
  obtain ⟨hidi, h⟩ := guard_eq_ok.mp h
  have hprove := mapError_eq_ok.mp hprove
  unfold proveBlocking at hprove
  split at hprove
  · split at hprove
    · rename_i att' bytes hcompressed
      cases hprove
      exact ⟨idm, c1b, c2a, auth2, v, pk, attestedAt, att, bytes, mapError_eq_ok.mp hidm,
        mapError_eq_ok.mp hc1b, mapError_eq_ok.mp hc2a, mapError_eq_ok.mp hauth2,
        mapError_eq_ok.mp hv, hcompressed, not_not.mp hidi, (Except.ok.inj h).symm⟩
    · cases hprove
    · cases hprove
  · cases hprove

/-! ### After the session has verified -/

variable {crate : DesCrate} (hcrate : crate.Standard) {felica : FelicaCrate} (hfelica : felica.Standard)

include hcrate hfelica

theorem proveCompressed_of_verified {req : ProveRequest} {v : VerifiedSession}
    (hv : verifySession crate felica ⟨req.gsk, req.usk⟩ req.idm req.c1b req.c2a req.auth2 = .ok v)
    (pk : prover.Pk) (rng : prover.Rng) :
    (∀ stop, proveCompressed prover pk req rng = .error stop → stop = .error .proveFailed)
      ∧ ∀ att bytes, proveCompressed prover pk req rng = .ok (att, bytes) → att.idi = v.idi := by
  obtain ⟨hpre, -⟩ := (verifySession_eq_ok_iff hcrate hfelica req v).mp hv
  refine ⟨fun stop h => ?_, fun att bytes h => (proveCompressed_ok h hpre).1⟩
  rcases proveCompressed_error h with herror | herror
  · rw [hpre] at herror
    cases herror
  · exact herror

theorem proveBlocking_of_verified (req : ProveRequest) {v : VerifiedSession}
    (hv : verifySession crate felica ⟨req.gsk, req.usk⟩ req.idm req.c1b req.c2a req.auth2 = .ok v)
    (rt : Runtime prover) (pk : prover.Pk) :
    (∃ att, proveBlocking rt pk req = .ok att ∧ att.idi = v.idi)
      ∨ proveBlocking rt pk req = .error .proveFailed := by
  obtain ⟨herror, hok⟩ := proveCompressed_of_verified hcrate hfelica hv pk rt.rng
  unfold proveBlocking
  by_cases hrun : rt.dispatched = true
  · rw [if_pos hrun]
    cases hprove : proveCompressed prover pk req rt.rng with
    | error stop =>
      rw [herror stop hprove]
      exact .inr rfl
    | ok out => exact .inl ⟨out.1, rfl, hok out.1 out.2 hprove⟩
  · rw [if_neg hrun]
    exact .inr rfl

theorem attest_of_verified {hexError : String → String} {areq : AttestRequest} {req : ProveRequest}
    (hidm : areq.idmBytes hexError = .ok req.idm) (hc1b : areq.c1bBytes hexError = .ok req.c1b)
    (hc2a : areq.c2aBytes hexError = .ok req.c2a) (hauth2 : areq.auth2Bytes hexError = .ok req.auth2)
    {v : VerifiedSession}
    (hv : verifySession crate felica ⟨req.gsk, req.usk⟩ req.idm req.c1b req.c2a req.auth2 = .ok v)
    {rt : Runtime prover} {pk : prover.Pk} (hpk : rt.provingKey = .ok pk) :
    (∃ response, attest crate felica hexError ⟨req.gsk, req.usk⟩ rt areq = .ok response
        ∧ response.idi = Hex.encode v.idi.toList)
      ∨ (∃ e, rt.now = .error e ∧ attest crate felica hexError ⟨req.gsk, req.usk⟩ rt areq
          = .error (.error (.internal e)))
      ∨ attest crate felica hexError ⟨req.gsk, req.usk⟩ rt areq
          = .error (.error (.proveFailed "proof generation failed")) := by
  unfold attest
  rw [hpk, hidm, hc1b, hc2a, hauth2]
  dsimp only [Except.mapError, bind, Except.bind]
  rw [hv]
  dsimp only
  cases rt.now with
  | error e => exact .inr (.inl ⟨e, rfl, rfl⟩)
  | ok attestedAt =>
    dsimp only
    rcases proveBlocking_of_verified hcrate hfelica { req with attestedAt := attestedAt } hv rt pk
      with ⟨att, hprove, hidi⟩ | hprove
    · rw [hprove]
      dsimp only
      rw [if_neg (not_not.mpr hidi)]
      exact .inl ⟨_, rfl, by rw [hidi]⟩
    · rw [hprove]
      exact .inr (.inr rfl)

omit hcrate hfelica in
/-- **When a verified request is answered**: there are a key and a clock, the proving is run,
and it proves the IDi that was verified. -/
theorem attest_eq_ok_iff_of_verified {hexError : String → String} {areq : AttestRequest}
    {req : ProveRequest} (hidm : areq.idmBytes hexError = .ok req.idm)
    (hc1b : areq.c1bBytes hexError = .ok req.c1b) (hc2a : areq.c2aBytes hexError = .ok req.c2a)
    (hauth2 : areq.auth2Bytes hexError = .ok req.auth2) {v : VerifiedSession}
    (hv : verifySession crate felica ⟨req.gsk, req.usk⟩ req.idm req.c1b req.c2a req.auth2 = .ok v)
    {rt : Runtime prover} {response : AttestResponse} :
    attest crate felica hexError ⟨req.gsk, req.usk⟩ rt areq = .ok response
      ↔ ∃ pk attestedAt att bytes, rt.provingKey = .ok pk ∧ rt.now = .ok attestedAt
        ∧ rt.dispatched = true
        ∧ proveCompressed prover pk { req with attestedAt := attestedAt } rt.rng = .ok (att, bytes)
        ∧ att.idi = v.idi ∧ response = ⟨Hex.encode att.idi.toList, att.attestedAt, att.proof⟩ := by
  have hblocking : ∀ pk preq att, proveBlocking rt pk preq = .ok att ↔ rt.dispatched = true
      ∧ ∃ bytes, proveCompressed prover pk preq rt.rng = .ok (att, bytes) := by
    intro pk preq att
    rw [proveBlocking]
    by_cases hrun : rt.dispatched = true
    · rw [if_pos hrun, and_iff_right hrun]
      rcases proveCompressed prover pk preq rt.rng with (e | _) | ⟨att', bytes⟩
      · exact ⟨nofun, fun ⟨_, h⟩ => nomatch h⟩
      · exact ⟨nofun, fun ⟨_, h⟩ => nomatch h⟩
      · constructor
        · intro h
          cases h
          exact ⟨bytes, rfl⟩
        · rintro ⟨bytes', h⟩
          cases h
          rfl
    · rw [if_neg hrun]
      exact iff_of_false nofun fun h => hrun h.1
  rw [attest, hidm, hc1b, hc2a, hauth2]
  simp only [mapError_ok_bind, hv]
  rw [bind_eq_ok]
  simp only [bind_eq_ok, mapError_eq_ok, hblocking, guard_eq_ok, not_not]
  constructor
  · rintro ⟨pk, hpk, attestedAt, hnow, att, ⟨hrun, bytes, hprove⟩, hidi, h⟩
    exact ⟨pk, attestedAt, att, bytes, hpk, hnow, hrun, hprove, hidi, (Except.ok.inj h).symm⟩
  · rintro ⟨pk, attestedAt, att, bytes, hpk, hnow, hrun, hprove, hidi, rfl⟩
    exact ⟨pk, hpk, attestedAt, hnow, att, ⟨hrun, bytes, hprove⟩, hidi, rfl⟩

end Attest

/-- **The server's verifier and the prover agree.**  A session verifies exactly when
its pre-checks pass and its transaction number is zero, with the same values.  After
that the prover reports no mismatch and names the same IDi, so `attest` stops at
nothing but the clock or the proving. -/
theorem verifySession_iff_preChecks {crate : DesCrate} (hcrate : crate.Standard)
    {felica : FelicaCrate} (hfelica : felica.Standard) (req : ProveRequest) :
    let verified := verifySession crate felica ⟨req.gsk, req.usk⟩ req.idm req.c1b req.c2a req.auth2
    ((∃ v, verified = .ok v) ↔ ∃ claim pt, preChecks req = .ok claim
        ∧ cbcDecrypt req.auth2.toList claim.r2 = some pt ∧ transactionNumber pt = 0)
    ∧ ∀ v, verified = .ok v → preChecks req = .ok ⟨v.idi, v.r1, v.r2⟩
      ∧ ∀ (ark : ArkGroth16) (prover : ArkProver ark),
        (∀ pk rng,
          (∀ stop, proveCompressed prover pk req rng = .error stop → stop = .error .proveFailed)
          ∧ ∀ att bytes, proveCompressed prover pk req rng = .ok (att, bytes) → att.idi = v.idi)
        ∧ ∀ (hexError : String → String) (areq : AttestRequest) (rt : Runtime prover) (pk : prover.Pk),
          areq.idmBytes hexError = .ok req.idm → areq.c1bBytes hexError = .ok req.c1b →
          areq.c2aBytes hexError = .ok req.c2a → areq.auth2Bytes hexError = .ok req.auth2 →
          rt.provingKey = .ok pk →
          ∀ stop, attest crate felica hexError ⟨req.gsk, req.usk⟩ rt areq = .error stop →
            (∃ e, rt.now = .error e ∧ stop = .error (.internal e))
              ∨ stop = .error (.proveFailed "proof generation failed") := by
  intro verified
  have hplain : ∀ claim pt, preChecks req = .ok claim →
      cbcDecrypt req.auth2.toList claim.r2 = some pt →
      transactionNumber pt = transactionNumber (req.plain 0).toList := by
    intro claim pt hpre hpt
    rw [preChecks_claim hpre, Prover.cbcDecrypt_toList, Option.some.injEq] at hpt
    rw [← hpt]
    exact transactionNumber_join _ _
  refine ⟨⟨?_, ?_⟩, fun v hv => ⟨?_, fun ark prover => ⟨?_, ?_⟩⟩⟩
  · rintro ⟨v, hv⟩
    obtain ⟨hpre, htn, -⟩ := (verifySession_eq_ok_iff hcrate hfelica req v).mp hv
    have hpt := Prover.cbcDecrypt_toList req.auth2 v.r2
    exact ⟨_, _, hpre, hpt, (hplain _ _ hpre hpt).trans htn⟩
  · rintro ⟨claim, pt, hpre, hpt, htn⟩
    exact ⟨⟨claim.r1, claim.r2, claim.idi, tidOf (req.plain 0)⟩,
      (verifySession_eq_ok_iff hcrate hfelica req _).mpr
        ⟨hpre, (hplain _ _ hpre hpt).symm.trans htn, rfl⟩⟩
  · exact ((verifySession_eq_ok_iff hcrate hfelica req v).mp hv).1
  · exact proveCompressed_of_verified hcrate hfelica hv
  · intro hexError areq rt pk hidm hc1b hc2a hauth2 hpk stop hstop
    rcases attest_of_verified hcrate hfelica hidm hc1b hc2a hauth2 hv hpk
      with ⟨response, hok, -⟩ | ⟨e, hnow, herror⟩ | herror
    · rw [hok] at hstop
      cases hstop
    · rw [herror] at hstop
      exact .inl ⟨e, hnow, (Except.error.inj hstop).symm⟩
    · rw [herror] at hstop
      exact .inr (Except.error.inj hstop).symm

/-- An honest session verifies on the server, with its own values. -/
theorem verifySession_iff_preChecks_honest :
    let req := Prover.honestRequest zeroBlock zeroBlock zeroBlock zeroBlock zeroBlock zeroBlock
      zeroBlock 0
    ∃ v, verifySession nativeCrate nativeFelica ⟨req.gsk, req.usk⟩ req.idm req.c1b req.c2a req.auth2
      = .ok v ∧ (⟨v.idi, v.r1, v.r2⟩ : Prover.Claim) = ⟨zeroBlock, zeroBlock, zeroBlock⟩ := by
  intro req
  obtain ⟨hiff, hvalues⟩ :=
    verifySession_iff_preChecks nativeCrate_standard nativeFelica_standard req
  have hpre : preChecks req = .ok ⟨zeroBlock, zeroBlock, zeroBlock⟩ :=
    Prover.preChecks_honestRequest _ _ _ _ _ _ _ _
  have hpt := Prover.cbcDecrypt_encryptAuth2 (Prover.freshHeader zeroBlock) zeroBlock zeroBlock
    (Prover.macBlock (Prover.freshHeader zeroBlock) zeroBlock zeroBlock) zeroBlock
  obtain ⟨v, hv⟩ := hiff.mpr ⟨_, _, hpre, hpt, (transactionNumber_join _ _).trans (by decide)⟩
  exact ⟨v, hv, Except.ok.inj ((hvalues v hv).1.symm.trans hpre)⟩

end SuiCash.Server
