import SuiCash.Server.Service

/-!
# A whole exchange

`challenge` and `settle` of `server/src/api/service.rs`, the card they talk to, and
the session that is verified at the end.

Two key pairs are in use, one for each direction: what the server sends is under
`α, L` and what the card sends is under `L, β`.  The server keeps nothing between
its calls, so it takes the session key out of `c2a` twice.  `exchange_completes`
follows one exchange through: with equal keys on both sides the server accepts the
card, the card accepts the server, and the session verifies with the values they
began with.

Nothing is used of DES but that it decrypts what it encrypts: the `des` crate is any
one that does (`DesCrate.Inverts`), and the `felica` crate opens AUTH2 with the same
cipher (`FelicaCrate.Opens`).
-/

namespace SuiCash.Server

open Des Fallible Cipher
open Prover (freshHeader sameTid_freshHeader extract_tid_eq_iff toList_mk_toArray)

/-! ### The two calls -/

structure AppConfig where
  gsk : Block
  usk : Block
  systemCode : UInt16
  areas : List UInt16
  services : List UInt16
  deriving DecidableEq

structure ChallengeRequest where
  idm : String
  r1 : String
  deriving DecidableEq

namespace ChallengeRequest

variable (hexError : String → String) (req : ChallengeRequest)

def idmBytes : Except String Block := parseHex hexError 8 req.idm
def r1Bytes : Except String Block := parseHex hexError 8 req.r1

end ChallengeRequest

structure ChallengeResponse where
  c1a : String
  systemCode : UInt16
  areas : List UInt16
  services : List UInt16
  deriving DecidableEq

structure SettleRequest where
  idm : String
  r1 : String
  c1b : String
  c2a : String
  deriving DecidableEq

namespace SettleRequest

variable (hexError : String → String) (req : SettleRequest)

def idmBytes : Except String Block := parseHex hexError 8 req.idm
def r1Bytes : Except String Block := parseHex hexError 8 req.r1
def c1bBytes : Except String Block := parseHex hexError 8 req.c1b
def c2aBytes : Except String Block := parseHex hexError 8 req.c2a

end SettleRequest

structure SettleResponse where
  c2b : String
  deriving DecidableEq

section Calls

variable (crate : DesCrate) (hexError : String → String) (config : AppConfig)

def challenge (req : ChallengeRequest) : Except ErrorObject ChallengeResponse := do
  let idm ← (req.idmBytes hexError).mapError .invalidParams
  let r1 ← (req.r1Bytes hexError).mapError .invalidParams
  let oracle : OracleKeys := ⟨config.gsk, config.usk⟩
  if config.areas.isEmpty ∧ config.services.isEmpty then
    .error (.internal "oracle node path not configured (set AREAS/SERVICES)")
  else
    let c1a := (oracle.session crate idm).c1a crate r1
    .ok ⟨Hex.encode c1a.toList, config.systemCode, config.areas, config.services⟩

def settle (req : SettleRequest) : Except ErrorObject SettleResponse := do
  let idm ← (req.idmBytes hexError).mapError .invalidParams
  let r1 ← (req.r1Bytes hexError).mapError .invalidParams
  let c1b ← (req.c1bBytes hexError).mapError .invalidParams
  let c2a ← (req.c2aBytes hexError).mapError .invalidParams
  let session := (OracleKeys.mk config.gsk config.usk).session crate idm
  if session.checkC1b crate r1 c1b ≠ true then .error .c1bMismatch
  else
    let r2 := session.openR2 crate c2a
    let c2b := session.c2b crate r2
    .ok ⟨Hex.encode c2b.toList⟩

end Calls

/-! ### The card -/

/-- A card: its IDm, the service keys it was issued, its identifier and its PMi. -/
structure Card where
  idm : Block
  keys : OracleKeys
  idi : Block
  pmi : Block
  deriving DecidableEq

/-- What the card keeps after Authentication1: the challenge it read and the session
key it chose. -/
structure Card.Pending where
  x : Block
  r2 : Block
  deriving DecidableEq

namespace Card

variable (crate : DesCrate) (card : Card)

def session : IntermediateKeys := .derive crate card.keys.gsk card.keys.usk card.idm

def authentication1 (r2 c1a : Block) : Block × Block × Pending :=
  let keys := card.session crate
  let x := crate.tdesDecrypt c1a keys.alpha keys.l
  (crate.tdesEncrypt x keys.l keys.beta, crate.tdesEncrypt r2 keys.l keys.beta, ⟨x, r2⟩)

def mac (payload : List Block) : Block :=
  payload.foldl crate.desEncrypt (macHeader 34 0x13)

/-- The AUTH2 of a session: transaction number zero, tail of the challenge, IDi and
PMi, with their MAC, under DES-CBC with the session key. -/
def auth2 (pending : Pending) : Vector UInt8 32 :=
  let p0 := freshHeader pending.x
  let p3 := mac crate [p0, card.idi, card.pmi]
  ⟨(join (cbcEnc xor8 (fun p => crate.desEncrypt p pending.r2) zeroBlock
    [p0, card.idi, card.pmi, p3])).toArray, by simp⟩

/-- Authentication2: AUTH2, if `c2b` carries the session key. -/
def authentication2 (pending : Pending) (c2b : Block) : Option (Vector UInt8 32) :=
  let keys := card.session crate
  if crate.tdesDecrypt c2b keys.alpha keys.l = pending.r2 then some (card.auth2 crate pending)
  else none

end Card

/-! ### What is assumed of the crates -/

/-- The crate decrypts what it encrypts, and its single DES is `cipher`. -/
structure DesCrate.Inverts (crate : DesCrate) (cipher : KeyedPerm Block Block) : Prop where
  encryptBlock_eq : ∀ key block, crate.encryptBlock key block = cipher.enc block key
  tdes_dec_enc : ∀ data k1 k2, crate.tdesDecrypt (crate.tdesEncrypt data k1 k2) k1 k2 = data

/-- The frame of an AUTH2 ciphertext parses, and its payload opens under CBC with a
zero IV when the MAC, taken back through the payload, is the header. -/
def FelicaCrate.Opens (felica : FelicaCrate) (cipher : KeyedPerm Block Block) : Prop :=
  ∀ ct : Vector UInt8 32, ∃ resp,
    felica.fromBytes (34 :: 0x13 :: ct.toList) = some (.authentication2 resp)
    ∧ ∀ (r2 p0 p1 p2 p3 : Block),
      cbcDec xor8 (fun x => cipher.dec x r2) zeroBlock (blocks4 ct) = [p0, p1, p2, p3] →
      felica.decryptPayload resp r2 =
        if [p0, p1, p2].foldr (fun key x => cipher.dec x key) p3 = macHeader 34 0x13 then
          .ok (join [p0, p1, p2])
        else .error .secureSession

theorem DesCrate.Standard.inverts {crate : DesCrate} (std : crate.Standard) : crate.Inverts des where
  encryptBlock_eq := std.encryptBlock_eq
  tdes_dec_enc data k1 k2 := by
    rw [std.tdesEncrypt_eq, std.tdesDecrypt_eq, tdesDecrypt_tdesEncrypt]

theorem FelicaCrate.Standard.opens {felica : FelicaCrate} (std : felica.Standard) :
    felica.Opens des := by
  intro ct
  obtain ⟨resp, hframe, hopen⟩ := std ct
  refine ⟨resp, hframe, fun r2 p0 p1 p2 p3 hplain => ?_⟩
  rw [des_dec] at hplain ⊢
  exact hopen r2 p0 p1 p2 p3 (by rw [← join_blocks4, cbcDecrypt_join, hplain])

/-! ### The calls, answered -/

theorem parseHex_encode (hexError : String → String) (b : Block) :
    parseHex hexError 8 (Hex.encode b.toList) = .ok b := by
  rw [parseHex, Hex.decode_encode]
  dsimp only
  rw [copyFromSlice_toList]

def SettleRequest.ofBlocks (idm r1 c1b c2a : Block) : SettleRequest :=
  ⟨Hex.encode idm.toList, Hex.encode r1.toList, Hex.encode c1b.toList, Hex.encode c2a.toList⟩

theorem SettleRequest.ofBlocks_bytes (hexError : String → String) (idm r1 c1b c2a : Block) :
    let req := ofBlocks idm r1 c1b c2a
    req.idmBytes hexError = .ok idm ∧ req.r1Bytes hexError = .ok r1
      ∧ req.c1bBytes hexError = .ok c1b ∧ req.c2aBytes hexError = .ok c2a :=
  ⟨parseHex_encode _ idm, parseHex_encode _ r1, parseHex_encode _ c1b, parseHex_encode _ c2a⟩

def ChallengeRequest.ofBlocks (idm r1 : Block) : ChallengeRequest :=
  ⟨Hex.encode idm.toList, Hex.encode r1.toList⟩

theorem ChallengeRequest.ofBlocks_bytes (hexError : String → String) (idm r1 : Block) :
    let req := ofBlocks idm r1
    req.idmBytes hexError = .ok idm ∧ req.r1Bytes hexError = .ok r1 :=
  ⟨parseHex_encode _ idm, parseHex_encode _ r1⟩

section Answers

variable {crate : DesCrate} {hexError : String → String} {config : AppConfig}

theorem challenge_eq {req : ChallengeRequest} {idm r1 : Block}
    (hidm : req.idmBytes hexError = .ok idm) (hr1 : req.r1Bytes hexError = .ok r1) :
    challenge crate hexError config req =
      if config.areas.isEmpty ∧ config.services.isEmpty then
        .error (.internal "oracle node path not configured (set AREAS/SERVICES)")
      else
        let keys := IntermediateKeys.derive crate config.gsk config.usk idm
        .ok ⟨Hex.encode (keys.c1a crate r1).toList, config.systemCode, config.areas,
          config.services⟩ := by
  rw [challenge, hidm, hr1, mapError_ok_bind, mapError_ok_bind]
  rfl

theorem settle_eq {req : SettleRequest} {idm r1 c1b c2a : Block}
    (hidm : req.idmBytes hexError = .ok idm) (hr1 : req.r1Bytes hexError = .ok r1)
    (hc1b : req.c1bBytes hexError = .ok c1b) (hc2a : req.c2aBytes hexError = .ok c2a) :
    settle crate hexError config req =
      let keys := IntermediateKeys.derive crate config.gsk config.usk idm
      if keys.c1bExpected crate r1 ≠ c1b then .error .c1bMismatch
      else .ok ⟨Hex.encode (keys.c2b crate (keys.r2FromC2a crate c2a)).toList⟩ := by
  have hcheck : ∀ session : CardSession, session.checkC1b crate r1 c1b = true ↔
      session.keys.c1bExpected crate r1 = c1b := fun _ => decide_eq_true_iff
  rw [settle, hidm, hr1, hc1b, hc2a, mapError_ok_bind, mapError_ok_bind, mapError_ok_bind,
    mapError_ok_bind]
  simp only [ne_eq, hcheck]
  rfl

end Answers

/-! ### The exchange -/

theorem transactionNumber_freshHeader (r1 : Block) :
    transactionNumber (freshHeader r1).toList = EXPECTED_AUTH2_TN := by
  simp [transactionNumber, freshHeader, Vector.toList_ofFn, List.ofFn_succ, u16FromLeBytes,
    EXPECTED_AUTH2_TN]

theorem tidOf_freshHeader (r1 : Block) : tidOf (freshHeader r1) = tidOf r1 := by
  apply Vector.toList_inj.mp
  rw [toList_tidOf, toList_tidOf, extract_tid_eq_iff]
  exact sameTid_freshHeader r1

section Exchange

variable {crate : DesCrate} {cipher : KeyedPerm Block Block} (hcrate : crate.Inverts cipher)
include hcrate

theorem DesCrate.Inverts.desEncrypt_eq : crate.desEncrypt = cipher.enc :=
  funext fun data => funext fun key => hcrate.encryptBlock_eq key data

theorem cbcDec_auth2 (card : Card) (pending : Card.Pending) :
    cbcDec xor8 (fun x => cipher.dec x pending.r2) zeroBlock (blocks4 (card.auth2 crate pending))
      = [freshHeader pending.x, card.idi, card.pmi,
        Card.mac crate [freshHeader pending.x, card.idi, card.pmi]] := by
  have hblocks : blocks4 (card.auth2 crate pending)
      = cbcEnc xor8 (fun p => cipher.enc p pending.r2) zeroBlock
        [freshHeader pending.x, card.idi, card.pmi,
          Card.mac crate [freshHeader pending.x, card.idi, card.pmi]] := by
    apply join_inj
    rw [join_blocks4, Card.auth2, toList_mk_toArray, hcrate.desEncrypt_eq]
  rw [hblocks, cbcDec_cbcEnc xor8_xor8 fun x => cipher.dec_enc x pending.r2]

/-- **The card's AUTH2 verifies**, under the session key it was made with. -/
theorem verifyAuth2_auth2 {felica : FelicaCrate} (hfelica : felica.Opens cipher) (card : Card)
    (pending : Card.Pending) :
    verifyAuth2 felica pending.r2 (card.auth2 crate pending)
      = .ok ⟨EXPECTED_AUTH2_TN, tidOf pending.x, card.idi, card.pmi⟩ := by
  obtain ⟨resp, hframe, hopen⟩ := hfelica (card.auth2 crate pending)
  have hpayload := hopen _ _ _ _ _ (cbcDec_auth2 hcrate card pending)
  -- the card ran the MAC forwards, `felica` takes it back
  have hmac := (cipher.foldl_enc_eq_iff [freshHeader pending.x, card.idi, card.pmi]
    (macHeader 34 0x13) (Card.mac crate [freshHeader pending.x, card.idi, card.pmi])).mp
      (by rw [Card.mac, hcrate.desEncrypt_eq])
  rw [if_pos hmac] at hpayload
  rw [verifyAuth2_of_payload hframe hpayload, transactionNumber_freshHeader,
    if_neg (not_not.mpr rfl), tidOf_freshHeader]

/-- The card reads the challenge, and answers with it and with its session key. -/
theorem authentication1_c1a (card : Card) (r1 r2 : Block) :
    let keys := card.session crate
    card.authentication1 crate r2 (keys.c1a crate r1)
      = (keys.c1bExpected crate r1, crate.tdesEncrypt r2 keys.l keys.beta, ⟨r1, r2⟩) := by
  intro keys
  have hx : crate.tdesDecrypt (keys.c1a crate r1) keys.alpha keys.l = r1 := hcrate.tdes_dec_enc _ _ _
  rw [Card.authentication1, hx, IntermediateKeys.c1bExpected]

theorem authentication2_c2b (card : Card) (pending : Card.Pending) :
    card.authentication2 crate pending ((card.session crate).c2b crate pending.r2)
      = some (card.auth2 crate pending) := by
  rw [Card.authentication2]
  exact if_pos (hcrate.tdes_dec_enc _ _ _)

/-- **The card's session verifies**, with what it was made of. -/
theorem verifySession_card {felica : FelicaCrate} (hfelica : felica.Opens cipher) (card : Card)
    (r1 r2 : Block) :
    let keys := card.session crate
    verifySession crate felica card.keys card.idm (keys.c1bExpected crate r1)
        (crate.tdesEncrypt r2 keys.l keys.beta) (card.auth2 crate ⟨r1, r2⟩)
      = .ok ⟨r1, r2, card.idi, tidOf r1⟩ := by
  intro keys
  have hr1 : (card.keys.session crate card.idm).recoverR1 crate (keys.c1bExpected crate r1) = r1 :=
    hcrate.tdes_dec_enc _ _ _
  have hr2 : (card.keys.session crate card.idm).openR2 crate
      (crate.tdesEncrypt r2 keys.l keys.beta) = r2 := hcrate.tdes_dec_enc _ _ _
  have hverify := verifyAuth2_auth2 hcrate hfelica card ⟨r1, r2⟩
  rw [verifySession, hr1, hr2, hverify, mapError_ok_bind, toList_tidOf, if_neg (not_not.mpr rfl)]

/-- **An exchange completes.**  A card with the keys of the server answers a `c1a`
of `challenge`; `settle` accepts its responses; the card accepts the `c2b` of
`settle`; and the session verifies with exactly the card's identifier, the holder's
challenge and the card's session key. -/
theorem exchange_completes {felica : FelicaCrate} (hfelica : felica.Opens cipher)
    (hexError : String → String) (config : AppConfig) (card : Card)
    (hkeys : card.keys = ⟨config.gsk, config.usk⟩) (r1 r2 : Block)
    {creq : ChallengeRequest} {response : ChallengeResponse}
    (hidm : creq.idmBytes hexError = .ok card.idm) (hr1 : creq.r1Bytes hexError = .ok r1)
    (hchallenge : challenge crate hexError config creq = .ok response) :
    ∃ c1a c1b c2a pending, parseHex hexError 8 response.c1a = .ok c1a
      ∧ card.authentication1 crate r2 c1a = (c1b, c2a, pending)
      ∧ ∀ sreq : SettleRequest, sreq.idmBytes hexError = .ok card.idm →
        sreq.r1Bytes hexError = .ok r1 → sreq.c1bBytes hexError = .ok c1b →
        sreq.c2aBytes hexError = .ok c2a →
        ∃ reply c2b auth2, settle crate hexError config sreq = .ok reply
          ∧ parseHex hexError 8 reply.c2b = .ok c2b
          ∧ card.authentication2 crate pending c2b = some auth2
          ∧ verifySession crate felica ⟨config.gsk, config.usk⟩ card.idm c1b c2a auth2
            = .ok ⟨r1, r2, card.idi, tidOf r1⟩ := by
  have hsession : IntermediateKeys.derive crate config.gsk config.usk card.idm
      = card.session crate := by rw [Card.session, hkeys]
  rw [challenge_eq hidm hr1, hsession, guard_eq_ok] at hchallenge
  obtain ⟨-, hresponse⟩ := hchallenge
  have hc1a : response.c1a = Hex.encode ((card.session crate).c1a crate r1).toList := by
    rw [← Except.ok.inj hresponse]
  refine ⟨_, _, _, _, by rw [hc1a, parseHex_encode], authentication1_c1a hcrate card r1 r2, ?_⟩
  intro sreq hsidm hsr1 hsc1b hsc2a
  have hr2 : (card.session crate).r2FromC2a crate
      (crate.tdesEncrypt r2 (card.session crate).l (card.session crate).beta) = r2 :=
    hcrate.tdes_dec_enc _ _ _
  refine ⟨⟨Hex.encode ((card.session crate).c2b crate r2).toList⟩, _, _, ?_,
    parseHex_encode hexError _, authentication2_c2b hcrate card ⟨r1, r2⟩, ?_⟩
  · rw [settle_eq hsidm hsr1 hsc1b hsc2a, hsession]
    dsimp only
    rw [if_neg (not_not.mpr rfl), hr2]
  · rw [← hkeys]
    exact verifySession_card hcrate hfelica card r1 r2

end Exchange

namespace Fixture

def card : Card where
  idm := #v[1, 2, 3, 4, 5, 6, 7, 8]
  keys :=
    ⟨#v[0x11, 0x22, 0x33, 0x44, 0x55, 0x66, 0x77, 0x88],
      #v[0x01, 0x02, 0x03, 0x04, 0x05, 0x06, 0x07, 0x08]⟩
  idi := #v[0x13, 0x24, 0x35, 0x46, 0x57, 0x68, 0x79, 0x8A]
  pmi := #v[0xA0, 0xA1, 0xA2, 0xA3, 0xA4, 0xA5, 0xA6, 0xA7]

def config : AppConfig := ⟨card.keys.gsk, card.keys.usk, 0x0003, [0x0040], [0x0048]⟩

def r1 : Block := #v[0x07, 0x16, 0x25, 0x34, 0x43, 0x52, 0x61, 0x70]

end Fixture

/-- The exchange of the fixture card, over the prover's DES. -/
theorem exchange_completes_fixture :
    ∃ c1a c1b c2a pending auth2,
      Fixture.card.authentication1 nativeCrate zeroBlock c1a = (c1b, c2a, pending)
      ∧ verifySession nativeCrate nativeFelica ⟨Fixture.config.gsk, Fixture.config.usk⟩
          Fixture.card.idm c1b c2a auth2
        = .ok ⟨Fixture.r1, zeroBlock, Fixture.card.idi, tidOf Fixture.r1⟩ := by
  obtain ⟨hidm, hr1⟩ := ChallengeRequest.ofBlocks_bytes id Fixture.card.idm Fixture.r1
  obtain ⟨c1a, c1b, c2a, pending, -, hcard, hsettle⟩ :=
    exchange_completes nativeCrate_standard.inverts nativeFelica_standard.opens id Fixture.config
      Fixture.card rfl Fixture.r1 zeroBlock hidm hr1
      ((challenge_eq hidm hr1).trans (if_neg (by decide)))
  obtain ⟨hsidm, hsr1, hsc1b, hsc2a⟩ :=
    SettleRequest.ofBlocks_bytes id Fixture.card.idm Fixture.r1 c1b c2a
  obtain ⟨_, _, auth2, -, -, -, hverify⟩ := hsettle _ hsidm hsr1 hsc1b hsc2a
  exact ⟨c1a, c1b, c2a, pending, auth2, hcard, hverify⟩

end SuiCash.Server
