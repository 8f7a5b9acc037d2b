import SuiCash.Prover.Prove
import SuiCash.Server.Schedule

/-!
# The server's session verifier

`server/src/oracle/mod.rs`: `verify_session` recovers the challenge and the
session key of a session and has the `felica` crate open its AUTH2.

The prover checks the MAC forwards, encrypting the header block under each payload
block.  The crate, which is a parameter here (`FelicaCrate.Standard`), checks it
backwards: it decrypts the MAC under the payload blocks in reverse and compares
with the header.  `macBackwards_eq_iff` says these are one check, from
`Cipher.KeyedPerm.foldl_enc_eq_iff`, and `verifySession_eq` puts the verifier into
the block form that `preChecks_eq` has for the prover.  What is left between the
two is the transaction number, which only the server looks at
(`verifySession_iff_preChecks`).
-/

namespace SuiCash.Server

open Des Bytes Fallible
open Prover (ProveRequest Claim ProverError plainBlock plainBlocks macBlock preChecks preChecks_eq)

/-! ### Sessions -/

structure OracleKeys where
  gsk : Block
  usk : Block
  deriving DecidableEq

structure CardSession where
  keys : IntermediateKeys
  deriving DecidableEq

def OracleKeys.session (crate : DesCrate) (keys : OracleKeys) (idm : Block) : CardSession :=
  ⟨.derive crate keys.gsk keys.usk idm⟩

namespace CardSession

variable (crate : DesCrate) (session : CardSession)

def c1a (r1 : Block) : Block := session.keys.c1a crate r1

/-- The comparison is constant-time; its value is equality. -/
def checkC1b (r1 c1b : Block) : Bool := session.keys.c1bExpected crate r1 = c1b

def recoverR1 (c1b : Block) : Block := session.keys.r1FromC1b crate c1b

def openR2 (c2a : Block) : Block := session.keys.r2FromC2a crate c2a

def c2b (r2 : Block) : Block := session.keys.c2b crate r2

end CardSession

/-! ### The `felica` crate -/

/-- The failures of `felica` that `verify_auth2` tells apart. -/
inductive FelicaStandardError where
  | secureSession
  | other
  deriving DecidableEq

inductive FelicaStandardResponse (Authentication2Response : Type) where
  | authentication2 (r : Authentication2Response)
  | other

/-- What is used of the `felica` crate. -/
structure FelicaCrate where
  Authentication2Response : Type
  /-- `FelicaStandardResponse::from_bytes`; `none` on a parse error. -/
  fromBytes : List UInt8 → Option (FelicaStandardResponse Authentication2Response)
  decryptPayload : Authentication2Response → (r2 : Block) →
    Except FelicaStandardError (List UInt8)

/-- A MAC taken back through the payload blocks, last block first. -/
def macBackwards (payload : List Block) (mac : Block) : Block :=
  payload.foldr (fun key x => desDecrypt x key) mac

/-- The frame of an AUTH2 ciphertext parses, and its payload opens under DES-CBC
with a zero IV when the MAC, taken back through the payload, is the header. -/
def FelicaCrate.Standard (felica : FelicaCrate) : Prop :=
  ∀ ct : Vector UInt8 32, ∃ resp,
    felica.fromBytes (34 :: 0x13 :: ct.toList) = some (.authentication2 resp)
    ∧ ∀ (r2 p0 p1 p2 p3 : Block), cbcDecrypt ct.toList r2 = some (join [p0, p1, p2, p3]) →
      felica.decryptPayload resp r2 =
        if macBackwards [p0, p1, p2] p3 = macHeader 34 0x13 then .ok (join [p0, p1, p2])
        else .error .secureSession

/-! ### AUTH2 -/

inductive Auth2Error where
  | malformed
  | macMismatch
  | unexpectedTn
  deriving DecidableEq

structure Auth2Data where
  tn : UInt16
  tid : Vector UInt8 6
  idi : Block
  pmi : Block
  deriving DecidableEq

def EXPECTED_AUTH2_TN : UInt16 := 0

def u16FromLeBytes (b0 b1 : UInt8) : UInt16 := UInt16.ofNat (leNat [b0, b1])

def verifyAuth2 (felica : FelicaCrate) (r2 : Block) (auth2Ct : Vector UInt8 32) :
    Except (Stop Auth2Error) Auth2Data :=
  let frame := 34 :: 0x13 :: auth2Ct.toList
  match felica.fromBytes frame with
  | none => .error (.error .malformed)
  | some .other => .error (.error .malformed)
  | some (.authentication2 resp) =>
    match felica.decryptPayload resp r2 with
    | .error .secureSession => .error (.error .macMismatch)
    | .error .other => .error (.error .malformed)
    | .ok payload =>
      if h : payload.length ≠ 24 then .error (.error .malformed)
      else
        let tn := u16FromLeBytes payload[0] payload[1]
        if tn ≠ EXPECTED_AUTH2_TN then .error (.error .unexpectedTn)
        else
          match copyFromSlice 6 (payload.extract 2 8), copyFromSlice 8 (payload.extract 8 16),
              copyFromSlice 8 (payload.extract 16 24) with
          | some tid, some idi, some pmi => .ok ⟨tn, tid, idi, pmi⟩
          | _, _, _ => .error .panic

/-! ### Sessions verified -/

structure VerifiedSession where
  r1 : Block
  r2 : Block
  idi : Block
  tid : Vector UInt8 6
  deriving DecidableEq

inductive AttestError where
  | malformed
  | macMismatch
  | tidMismatch
  | unexpectedTn
  deriving DecidableEq

/-- How `verify_session` reports a failure of `verify_auth2`. -/
def Auth2Error.toAttestError : Auth2Error → AttestError
  | .macMismatch => .macMismatch
  | .malformed => .malformed
  | .unexpectedTn => .unexpectedTn

def verifySession (crate : DesCrate) (felica : FelicaCrate) (keys : OracleKeys)
    (idm c1b c2a : Block) (auth2Ct : Vector UInt8 32) : Except (Stop AttestError) VerifiedSession := do
  let session := keys.session crate idm
  let r1 := session.recoverR1 crate c1b
  let r2 := session.openR2 crate c2a
  let auth ← (verifyAuth2 felica r2 auth2Ct).mapError (Stop.map Auth2Error.toAttestError)
  if auth.tid.toList ≠ r1.toList.extract 2 8 then .error (.error .tidMismatch)
  else .ok ⟨r1, r2, auth.idi, auth.tid⟩

/-! ### The two MAC checks -/

/-- **One MAC check**: backwards from the MAC or forwards from the header. -/
theorem macBackwards_eq_iff {p0 p1 p2 p3 : Block} :
    macBackwards [p0, p1, p2] p3 = macHeader 34 0x13 ↔ macBlock p0 p1 p2 = p3 := by
  have hends := des.foldl_enc_eq_iff [p0, p1, p2] (macHeader 34 0x13) p3
  rw [des_enc, des_dec] at hends
  rw [macBackwards, ← hends, List.foldl_cons, List.foldl_cons, List.foldl_cons, List.foldl_nil,
    macBlock]

/-! ### The verifier in block form -/

def tidOf (p0 : Block) : Vector UInt8 6 := ⟨(p0.toList.extract 2 8).toArray, by simp⟩

@[simp] theorem toList_tidOf (p0 : Block) : (tidOf p0).toList = p0.toList.extract 2 8 := rfl

theorem copyFromSlice_tid (p0 : Block) :
    copyFromSlice 6 (p0.toList.extract 2 8) = some (tidOf p0) := copyFromSlice_toList (tidOf p0)

def transactionNumber (pt : List UInt8) : UInt16 := u16FromLeBytes (pt.getD 0 0) (pt.getD 1 0)

theorem transactionNumber_of_length {pt : List UInt8} (h : 2 ≤ pt.length) :
    transactionNumber pt = u16FromLeBytes pt[0] pt[1] := by
  rw [transactionNumber, List.getD_eq_getElem _ _ (by omega), List.getD_eq_getElem _ _ (by omega)]

theorem transactionNumber_join (p0 : Block) (rest : List Block) :
    transactionNumber (join (p0 :: rest)) = transactionNumber p0.toList := by
  have h : ∀ i, i < 8 → (join (p0 :: rest)).getD i 0 = p0.toList.getD i 0 := fun i hi => by
    rw [join_cons, List.getD_append _ _ _ _ (by simpa using hi)]
  rw [transactionNumber, h 0 (by decide), h 1 (by decide), ← transactionNumber]

theorem verifyAuth2_of_payload {felica : FelicaCrate} {r2 : Block} {ct : Vector UInt8 32}
    {resp : felica.Authentication2Response} {p0 idi pmi : Block}
    (hframe : felica.fromBytes (34 :: 0x13 :: ct.toList) = some (.authentication2 resp))
    (hpayload : felica.decryptPayload resp r2 = .ok (join [p0, idi, pmi])) :
    verifyAuth2 felica r2 ct =
      if transactionNumber p0.toList ≠ EXPECTED_AUTH2_TN then .error (.error .unexpectedTn)
      else .ok ⟨transactionNumber p0.toList, tidOf p0, idi, pmi⟩ := by
  have hlen : ¬ (join [p0, idi, pmi]).length ≠ 24 := by simp
  have htn := transactionNumber_join p0 [idi, pmi]
  rw [transactionNumber_of_length (by simp)] at htn
  unfold verifyAuth2
  dsimp only
  rw [hframe]
  dsimp only
  rw [hpayload]
  dsimp only
  rw [dif_neg hlen, htn, Prover.extract_tid, Prover.extract_idi, Prover.extract_pmi,
    copyFromSlice_tid, copyFromSlice_toList, copyFromSlice_toList]

/-- **AUTH2 verification in block form.** -/
theorem verifyAuth2_eq {felica : FelicaCrate} (std : felica.Standard) (r2 : Block)
    (ct : Vector UInt8 32) :
    verifyAuth2 felica r2 ct =
      if macBlock (plainBlock ct r2 0) (plainBlock ct r2 1) (plainBlock ct r2 2)
          ≠ plainBlock ct r2 3 then .error (.error .macMismatch)
      else
        let tn := transactionNumber (plainBlock ct r2 0).toList
        if tn ≠ EXPECTED_AUTH2_TN then .error (.error .unexpectedTn)
        else .ok ⟨tn, tidOf (plainBlock ct r2 0), plainBlock ct r2 1, plainBlock ct r2 2⟩ := by
  obtain ⟨resp, hframe, hopen⟩ := std ct
  have hpayload := hopen r2 _ _ _ _ (Prover.cbcDecrypt_toList ct r2)
  by_cases hmac : macBlock (plainBlock ct r2 0) (plainBlock ct r2 1) (plainBlock ct r2 2)
      = plainBlock ct r2 3
  · rw [if_pos (macBackwards_eq_iff.mpr hmac)] at hpayload
    rw [if_neg (not_not.mpr hmac), verifyAuth2_of_payload hframe hpayload]
  · rw [if_neg fun h => hmac (macBackwards_eq_iff.mp h)] at hpayload
    rw [if_pos hmac, verifyAuth2, hframe]
    dsimp only
    rw [hpayload]

section Verify

variable {crate : DesCrate} (hcrate : crate.Standard) {felica : FelicaCrate} (hfelica : felica.Standard)

include hcrate in
theorem recoverR1_eq (req : ProveRequest) :
    ((OracleKeys.mk req.gsk req.usk).session crate req.idm).recoverR1 crate req.c1b = req.claim.r1 := by
  rw [OracleKeys.session, derive_eq hcrate, CardSession.recoverR1, IntermediateKeys.r1FromC1b,
    hcrate.tdesDecrypt_eq, ProveRequest.claim]

include hcrate in
theorem openR2_eq (req : ProveRequest) :
    ((OracleKeys.mk req.gsk req.usk).session crate req.idm).openR2 crate req.c2a = req.claim.r2 := by
  rw [OracleKeys.session, derive_eq hcrate, CardSession.openR2, IntermediateKeys.r2FromC2a,
    hcrate.tdesDecrypt_eq, ProveRequest.claim]

include hcrate hfelica

/-- **The session verifier in block form.** -/
theorem verifySession_eq (req : ProveRequest) :
    verifySession crate felica ⟨req.gsk, req.usk⟩ req.idm req.c1b req.c2a req.auth2 =
      if macBlock (req.plain 0) (req.plain 1) (req.plain 2) ≠ req.plain 3 then
        .error (.error .macMismatch)
      else if transactionNumber (req.plain 0).toList ≠ EXPECTED_AUTH2_TN then
        .error (.error .unexpectedTn)
      else if (req.plain 0).toList.extract 2 8 ≠ req.claim.r1.toList.extract 2 8 then
        .error (.error .tidMismatch)
      else .ok ⟨req.claim.r1, req.claim.r2, req.claim.idi, tidOf (req.plain 0)⟩ := by
  have hplain : ∀ i, plainBlock req.auth2 req.claim.r2 i = req.plain i := fun i => by
    rw [ProveRequest.plain]
  have hidi : req.plain 1 = req.claim.idi := by rw [ProveRequest.plain, ProveRequest.claim]
  unfold verifySession
  dsimp only
  rw [recoverR1_eq hcrate, openR2_eq hcrate, verifyAuth2_eq hfelica]
  simp only [hplain]
  by_cases hmac : macBlock (req.plain 0) (req.plain 1) (req.plain 2) = req.plain 3
  · rw [if_neg (not_not.mpr hmac), if_neg (not_not.mpr hmac)]
    by_cases htn : transactionNumber (req.plain 0).toList = EXPECTED_AUTH2_TN
    · rw [if_neg (not_not.mpr htn), if_neg (not_not.mpr htn), mapError_ok_bind, hidi, toList_tidOf]
    · rw [if_pos htn, if_pos htn, mapError_error_bind]
      rfl
  · rw [if_pos hmac, if_pos hmac, mapError_error_bind]
    rfl

/-- **The two verifiers of a session agree**, but for the transaction number. -/
theorem verifySession_eq_ok_iff (req : ProveRequest) (v : VerifiedSession) :
    verifySession crate felica ⟨req.gsk, req.usk⟩ req.idm req.c1b req.c2a req.auth2 = .ok v ↔
      preChecks req = .ok ⟨v.idi, v.r1, v.r2⟩
        ∧ transactionNumber (req.plain 0).toList = EXPECTED_AUTH2_TN ∧ v.tid = tidOf (req.plain 0) := by
  rw [verifySession_eq hcrate hfelica, preChecks_eq]
  simp only [guard_eq_ok, ne_eq, not_not, Except.ok.injEq]
  constructor
  · rintro ⟨hmac, htn, htid, rfl⟩
    exact ⟨⟨hmac, htid, rfl⟩, htn, rfl⟩
  · rintro ⟨⟨hmac, htid, hclaim⟩, htn, hv⟩
    refine ⟨hmac, htn, htid, ?_⟩
    obtain ⟨r1, r2, idi, tid⟩ := v
    obtain rfl : tid = tidOf (req.plain 0) := hv
    rw [hclaim]

end Verify

/-! ### A crate that opens AUTH2 -/

/-- Frames and AUTH2 payloads by the prover's DES. -/
def nativeFelica : FelicaCrate where
  Authentication2Response := List UInt8
  fromBytes
    | len :: code :: ct =>
      if len = 34 ∧ code = 0x13 ∧ ct.length = 32 then some (.authentication2 ct) else none
    | _ => none
  decryptPayload ct r2 :=
    match (cbcDecrypt ct r2).bind blocks with
    | some [p0, p1, p2, p3] =>
      if macBackwards [p0, p1, p2] p3 = macHeader 34 0x13 then .ok (join [p0, p1, p2])
      else .error .secureSession
    | _ => .error .other

theorem nativeFelica_standard : nativeFelica.Standard := by
  intro ct
  refine ⟨ct.toList, if_pos ⟨rfl, rfl, by simp⟩, fun r2 p0 p1 p2 p3 hct => ?_⟩
  show (match (cbcDecrypt ct.toList r2).bind blocks with | some [p0, p1, p2, p3] => _ | _ => _) = _
  rw [hct, Option.bind_some, blocks_join]

end SuiCash.Server
