import SuiCash.Facepay.Attestation
import SuiCash.Server.Binding
import SuiCash.Usb.Oracle
import SuiCash.Usb.Responses

/-!
# A tap

`attest_with_card` of the facepay daemon: draw a challenge, and carry it from the oracle to
the card and back, twice, until the oracle attests.  The daemon understands none of what it
carries.  It checks lengths, and that the card on the reader is still the one it polled.

`cardSession_honest` follows the tap of a card that shares its keys with the oracle's
server: whatever the state of the reader before, the session ends as the server's `attest`
does, on the card's own values.
-/

namespace SuiCash.Facepay

open Bytes Des Device Fallible
open Prover (ArkGroth16 ArkProver)
open Server (DesCrate FelicaCrate)
open Usb (Reading Oracle Posted Reply bail)

def AUTH1_TIMEOUT : UInt16 := 2000

def AUTH2_TIMEOUT : UInt16 := 1000

/-- `hex::decode` into a block, with one message for whatever is wrong. -/
def blockOfHex (bad : String) (s : String) : Reading Block :=
  match (Hex.decode s).bind (copyFromSlice 8) with
  | some b => .ok b
  | none => bail bad

section Session

variable {σ : Type} (device : List UInt8 × UInt16 → σ → Except String (List UInt8) × σ)

/-- `attest_with_card`, up to the oracle's answer. -/
def cardSession (oracle : Oracle) (card : Usb.Card) (r1 : Block) :
    Stateful σ (Stop Usb.Error) AttestResult := do
  let idm := Hex.encode card.idm.toList
  let ch ← .lift (oracle.challenge idm (Hex.encode r1.toList))
  let c1a ← .lift (blockOfHex "bad c1a" ch.c1a)
  let (c1b, c2a) ← (card.authentication1 ch.areas ch.services c1a AUTH1_TIMEOUT).perform device
  let settle ← .lift (oracle.settle idm (Hex.encode r1.toList) (Hex.encode c1b.toList)
    (Hex.encode c2a.toList))
  let c2b ← .lift (blockOfHex "bad c2b" settle.c2b)
  let auth2 ← (card.authentication2 c2b AUTH2_TIMEOUT).perform device
  .lift (oracle.attest idm (Hex.encode c1b.toList) (Hex.encode c2a.toList) (Hex.encode auth2))

variable (ark : ArkGroth16) (toLowercase : String → String)

/-- The whole of `attest_with_card`, from a state of the reader. -/
def tapCard (oracle : Oracle) (card : Usb.Card) (r1 : Block) (s : σ) :
    Option (String × AttestationJson) :=
  attestWithCard ark toLowercase
    ((cardSession device oracle card r1 s).1.toOption.map fun att => (att, r1))

end Session

/-! ### A card on the reader -/

/-- A card that was issued its keys on a path of nodes, and the session key it will choose. -/
structure HolderCard where
  card : Server.Card
  areas : List UInt16
  services : List UInt16
  r2 : Block

namespace HolderCard

variable (crate : DesCrate) (holder : HolderCard)

/-- What the card does with a command, and what it keeps of the one before. -/
def answer (question : List UInt8 × UInt16) (pending : Option Server.Card.Pending) :
    Except String (List UInt8) × Option Server.Card.Pending :=
  match Usb.decodeFrame question.1 with
  | some (idm, .authentication1 areas services c1a) =>
    if idm = holder.card.idm ∧ areas = holder.areas ∧ services = holder.services then
      let (c1b, c2a, pending) := holder.card.authentication1 crate holder.r2 c1a
      (.ok (26 :: 0x11 :: (idm.toList ++ (c1b.toList ++ c2a.toList))), some pending)
    else (.error "no answer", pending)
  | some (idm, .authentication2 c2b) =>
    match pending with
    | none => (.error "no answer", none)
    | some session =>
      match holder.card.authentication2 crate session c2b with
      | none => (.error "no answer", none)
      | some auth2 =>
        if idm = holder.card.idm then (.ok (34 :: 0x13 :: auth2.toList), none)
        else (.error "no answer", none)
  | _ => (.error "no answer", pending)

end HolderCard

/-- The card was issued by the server's keys, on its path of nodes, and the path fits into a
frame. -/
structure HolderCard.Issued (holder : HolderCard) (config : Server.AppConfig) : Prop where
  keys : holder.card.keys = ⟨config.gsk, config.usk⟩
  areas : holder.areas = config.areas
  services : holder.services = config.services
  path : ¬ (config.areas.isEmpty ∧ config.services.isEmpty)
  fits : 20 + 2 * config.areas.length + 2 * config.services.length ≤ 0xFF

/-! ### The server as an oracle -/

section Server

variable {ark : ArkGroth16} {prover : ArkProver ark} (crate : DesCrate) (felica : FelicaCrate)
  (hexError : String → String) (config : Server.AppConfig) (rt : Server.Runtime prover)

def replyOf {α T : Type} (f : α → T) : Except Server.ErrorObject α → Posted T
  | .ok a => .reply ⟨some (f a), none⟩
  | .error e => .reply ⟨none, some ⟨e.code, e.message⟩⟩

/-- A handler that panics takes its connection with it. -/
def replyOfHandler {α T : Type} (f : α → T) : Except (Stop Server.ErrorObject) α → Posted T
  | .ok a => .reply ⟨some (f a), none⟩
  | .error (.error e) => .reply ⟨none, some ⟨e.code, e.message⟩⟩
  | .error .panic => .unsent "connection closed"

/-- The server of `server/`, as a client of it sees it. -/
def serverOracle (base : String) : Oracle where
  base := base
  postChallenge idm r1 :=
    replyOf (fun ch => ⟨ch.c1a, ch.systemCode, ch.areas, ch.services⟩)
      (Server.challenge crate hexError config ⟨idm, r1⟩)
  postSettle idm r1 c1b c2a :=
    replyOf (fun s => ⟨s.c2b⟩) (Server.settle crate hexError config ⟨idm, r1, c1b, c2a⟩)
  postAttest idm c1b c2a auth2 :=
    replyOfHandler (fun a => ⟨a.idi, a.attestedAt, a.proof⟩)
      (Server.attest crate felica hexError ⟨config.gsk, config.usk⟩ rt ⟨idm, c1b, c2a, auth2⟩)

end Server

/-! ### An honest tap -/

theorem blockOfHex_encode (bad : String) (b : Block) :
    blockOfHex bad (Hex.encode b.toList) = .ok b := by
  rw [blockOfHex, Hex.decode_encode, Option.bind_some, copyFromSlice_toList]

theorem decodeFrame_of_sent {α : Type} {payload : List UInt8} {timeoutMs : UInt16}
    {read : List UInt8 → Reading α} {device : List UInt8 × UInt16 → Except String (List UInt8)}
    {size : ℕ} {idm : Block} {q : Usb.Request}
    (h : Usb.SentOrRefused device timeoutMs (Usb.command payload timeoutMs read) size idm q)
    (hsize : size ≤ 0xFF) :
    payload.length + 1 ≤ 0xFF
      ∧ Usb.decodeFrame (UInt8.ofNat (payload.length + 1) :: payload) = some (idm, q) := by
  obtain ⟨frame, hasked, -, -, hdecode⟩ := h.sent hsize
  have hfits : payload.length + 1 ≤ 0xFF := by
    by_contra hlong
    have hrefused := (Usb.command_refused device timeoutMs read (Nat.lt_of_not_le hlong)).1
    rw [hasked] at hrefused
    cases hrefused
  have hsent := (Usb.command_sent device timeoutMs read hfits).1
  rw [hasked, List.cons.injEq, Prod.mk.injEq] at hsent
  exact ⟨hfits, hsent.1.1 ▸ hdecode⟩

theorem readAuthentication1_answer (card : Usb.Card) (c1b c2a : Block) :
    card.readAuthentication1 (26 :: 0x11 :: (card.idm.toList ++ (c1b.toList ++ c2a.toList)))
      = .ok (c1b, c2a) := by
  have hlen : (26 :: 0x11 :: (card.idm.toList ++ (c1b.toList ++ c2a.toList))).length = 26 := by
    simp
  have hread := Usb.readAuthentication1_decides card
    (26 :: 0x11 :: (card.idm.toList ++ (c1b.toList ++ c2a.toList)))
  obtain ⟨p, hp⟩ := hread.ok_iff.mpr ⟨⟨by rw [hlen]; rfl, rfl⟩, hlen, by simp⟩
  have hwhole := (hread.of_ok hp).2
  have hwrite := Format.whole_write
    (f := Usb.blockFormat.seq (Usb.blockFormat.seq Usb.blockFormat)) (a := (card.idm, c1b, c2a))
    ⟨trivial, trivial, trivial⟩
  rw [hp, (Prod.mk.inj (Option.some.inj (hwhole.symm.trans hwrite))).2]

theorem readAuthentication2_answer (auth2 : Vector UInt8 32) :
    Usb.readAuthentication2 (34 :: 0x13 :: auth2.toList) = .ok auth2.toList := by
  have hlen : (34 :: 0x13 :: auth2.toList).length = 34 := by simp
  have hread := Usb.readAuthentication2_decides (34 :: 0x13 :: auth2.toList)
  obtain ⟨p, hp⟩ := hread.ok_iff.mpr ⟨⟨by rw [hlen]; rfl, rfl⟩, hlen⟩
  have hwhole := (hread.of_ok hp).2
  have hwrite := Format.whole_write (f := Format.array 32) (a := auth2) trivial
  rw [hp, ← Option.some.inj (hwhole.symm.trans (congrArg (Option.map Vector.toList) hwrite))]

section Honest

open Cipher

variable {ark : ArkGroth16} {prover : ArkProver ark} {crate : DesCrate} {cipher : KeyedPerm Block Block}
  (hcrate : crate.Inverts cipher) (felica : FelicaCrate) (hexError : String → String)
  {config : Server.AppConfig} (rt : Server.Runtime prover) (base : String) {holder : HolderCard}
  (hissued : holder.Issued config)

include hcrate

include hissued in

/-- The card answers the challenge of a server with its keys. -/
theorem perform_authentication1 (r1 : Block) (pending : Option Server.Card.Pending) :
    let keys := holder.card.session crate
    (Usb.Card.authentication1 ⟨holder.card.idm⟩ config.areas config.services (keys.c1a crate r1)
        AUTH1_TIMEOUT).perform (holder.answer crate) pending
      = (.ok (keys.c1bExpected crate r1, crate.tdesEncrypt holder.r2 keys.l keys.beta),
        some ⟨r1, holder.r2⟩) := by
  intro keys
  let refusing : List UInt8 × UInt16 → Except String (List UInt8) := fun _ => .error ""
  have hsent : Usb.SentOrRefused refusing AUTH1_TIMEOUT (Usb.Card.authentication1 ⟨holder.card.idm⟩
      config.areas config.services (keys.c1a crate r1) AUTH1_TIMEOUT)
      (20 + 2 * config.areas.length + 2 * config.services.length) holder.card.idm
      (.authentication1 config.areas config.services (keys.c1a crate r1)) :=
    Usb.authentication1_faithful ⟨holder.card.idm⟩ _ _ _ _
  obtain ⟨hlen, hdecode⟩ := decodeFrame_of_sent hsent hissued.fits
  refine (Usb.perform_command (holder.answer crate) hlen ?_).trans
    (congrArg (Prod.mk · _) (readAuthentication1_answer ⟨holder.card.idm⟩ _ _))
  rw [HolderCard.answer, hdecode]
  dsimp only
  rw [if_pos ⟨rfl, hissued.areas.symm, hissued.services.symm⟩,
    Server.authentication1_c1a hcrate holder.card r1 holder.r2]

theorem perform_authentication2 (session : Server.Card.Pending) :
    (Usb.Card.authentication2 ⟨holder.card.idm⟩ ((holder.card.session crate).c2b crate session.r2)
        AUTH2_TIMEOUT).perform (holder.answer crate) (some session)
      = (.ok (holder.card.auth2 crate session).toList, none) := by
  let refusing : List UInt8 × UInt16 → Except String (List UInt8) := fun _ => .error ""
  have hsent : Usb.SentOrRefused refusing AUTH2_TIMEOUT (Usb.Card.authentication2
      ⟨holder.card.idm⟩ ((holder.card.session crate).c2b crate session.r2) AUTH2_TIMEOUT) 18
      holder.card.idm (.authentication2 ((holder.card.session crate).c2b crate session.r2)) :=
    Usb.authentication2_faithful ⟨holder.card.idm⟩ _ _
  obtain ⟨hlen, hdecode⟩ := decodeFrame_of_sent hsent (by decide)
  refine (Usb.perform_command (holder.answer crate) hlen ?_).trans
    (congrArg (Prod.mk · _) (readAuthentication2_answer _))
  rw [HolderCard.answer, hdecode]
  dsimp only
  rw [Server.authentication2_c2b hcrate]
  exact if_pos rfl

include hissued in
/-- **The tap of a card with the server's keys** ends as the server attests its values. -/
theorem cardSession_honest (r1 : Block) (pending : Option Server.Card.Pending) :
    let keys := holder.card.session crate
    let oracle := serverOracle crate felica hexError config rt base
    (cardSession (holder.answer crate) oracle ⟨holder.card.idm⟩ r1 pending).1
      = oracle.attest (Hex.encode holder.card.idm.toList)
        (Hex.encode (keys.c1bExpected crate r1).toList)
        (Hex.encode (crate.tdesEncrypt holder.r2 keys.l keys.beta).toList)
        (Hex.encode (holder.card.auth2 crate ⟨r1, holder.r2⟩).toList) := by
  intro keys oracle
  have hsession : Server.IntermediateKeys.derive crate config.gsk config.usk holder.card.idm
      = keys := by
    show _ = Server.IntermediateKeys.derive crate holder.card.keys.gsk holder.card.keys.usk _
    rw [hissued.keys]
  have hr2 : keys.r2FromC2a crate (crate.tdesEncrypt holder.r2 keys.l keys.beta) = holder.r2 :=
    hcrate.tdes_dec_enc _ _ _
  have hchallenge : oracle.challenge (Hex.encode holder.card.idm.toList) (Hex.encode r1.toList)
      = .ok ⟨Hex.encode (keys.c1a crate r1).toList, config.systemCode, config.areas,
        config.services⟩ := by
    obtain ⟨hidm, hr1⟩ := Server.ChallengeRequest.ofBlocks_bytes hexError holder.card.idm r1
    have hanswer := @Server.challenge_eq crate hexError config _ _ _ hidm hr1
    rw [if_neg hissued.path, hsession] at hanswer
    show oracle.call "challenge" (replyOf _ (Server.challenge crate hexError config
      (.ofBlocks holder.card.idm r1))) = _
    rw [hanswer]
    rfl
  have hsettle : oracle.settle (Hex.encode holder.card.idm.toList) (Hex.encode r1.toList)
      (Hex.encode (keys.c1bExpected crate r1).toList)
      (Hex.encode (crate.tdesEncrypt holder.r2 keys.l keys.beta).toList)
      = .ok ⟨Hex.encode (keys.c2b crate holder.r2).toList⟩ := by
    obtain ⟨hidm, hr1, hc1b, hc2a⟩ := Server.SettleRequest.ofBlocks_bytes hexError holder.card.idm
      r1 (keys.c1bExpected crate r1) (crate.tdesEncrypt holder.r2 keys.l keys.beta)
    have hanswer := @Server.settle_eq crate hexError config _ _ _ _ _ hidm hr1 hc1b hc2a
    dsimp only at hanswer
    rw [hsession, if_neg (not_not.mpr rfl), hr2] at hanswer
    show oracle.call "settle" (replyOf _ (Server.settle crate hexError config
      (.ofBlocks holder.card.idm r1 _ _))) = _
    rw [hanswer]
    rfl
  have hauth1 := perform_authentication1 hcrate hissued r1 pending
  have hauth2 : (Usb.Card.authentication2 ⟨holder.card.idm⟩ (keys.c2b crate holder.r2)
      AUTH2_TIMEOUT).perform (holder.answer crate) (some ⟨r1, holder.r2⟩)
      = (.ok (holder.card.auth2 crate ⟨r1, holder.r2⟩).toList, none) :=
    perform_authentication2 hcrate ⟨r1, holder.r2⟩
  dsimp only at hauth1
  rw [cardSession, hchallenge]
  dsimp only
  rw [Stateful.bind_of_ok (Stateful.lift_apply _ _), blockOfHex_encode,
    Stateful.bind_of_ok (Stateful.lift_apply _ _), Stateful.bind_of_ok hauth1]
  dsimp only
  rw [hsettle, Stateful.bind_of_ok (Stateful.lift_apply _ _), blockOfHex_encode,
    Stateful.bind_of_ok (Stateful.lift_apply _ _), Stateful.bind_of_ok hauth2]
  rfl

end Honest

end SuiCash.Facepay
