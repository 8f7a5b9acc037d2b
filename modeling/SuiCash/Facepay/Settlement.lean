import SuiCash.Facepay.Tap
import SuiCash.Prover.Coordinates
import SuiCash.Sui.Receipt

/-!
# From a tap to the chain

What the daemon gets out of a tap goes through JSON and hex to the payment helper, which
puts it in front of a transfer as a call of `suicash_gate::verify`.  This module follows it
there, with two results.

* `accepted_payment` trusts nobody but the chain: whatever oracle, reader and card the
  daemon has talked to, a payment that the gate accepts is signed by the wallet of the IDi
  that the accepted proof is about, and the proof is bound to the challenge that this tap
  drew, which then is spent for good.
* `tap_admitted_iff` is about honest parts: a card with the server's keys gets its
  attestation exactly when the proving succeeds with finite points, and the gate accepts the
  payment exactly when the clocks are close, the card's IDi is admitted, and the challenge
  is fresh.
-/

namespace SuiCash.Facepay

open Bytes Des Fallible
open Prover (ArkGroth16 ArkProver Fr proofCompressedBytes publicInputsBytes)
open Sui (Address AttestationVerified Gate SuiGroth16 Groth16Holds statementBlob)

/-! ### The helper's hex -/

theorem bytesOfDigits_encodeChars (bytes : List UInt8) :
    SuiPay.bytesOfDigits ((Hex.encodeChars bytes).filterMap Hex.digit) = bytes := by
  induction bytes with
  | nil => rfl
  | cons b bytes ih =>
    have hb := b.toNat_lt
    have hhi : (b >>> 4).toNat < 16 := by
      rw [UInt8.toNat_shiftRight, show UInt8.toNat 4 % 8 = 4 from rfl, Nat.shiftRight_eq_div_pow]
      omega
    have hlo : (b &&& 15).toNat < 16 := by
      rw [UInt8.toNat_and, show UInt8.toNat 15 = 2 ^ 4 - 1 from rfl, Nat.and_two_pow_sub_one_eq_mod]
      exact Nat.mod_lt _ (by decide)
    show SuiPay.bytesOfDigits ((Hex.char (b >>> 4) :: Hex.char (b &&& 15)
      :: Hex.encodeChars bytes).filterMap Hex.digit) = b :: bytes
    rw [List.filterMap_cons_some (Hex.digit_char hhi), List.filterMap_cons_some (Hex.digit_char hlo)]
    show ((b >>> 4) <<< 4 ||| (b &&& 15)) :: SuiPay.bytesOfDigits _ = b :: bytes
    rw [ih, Hex.nibbles]

theorem hexToBytes_encode (bytes : List UInt8) : SuiPay.hexToBytes (Hex.encode bytes) = bytes := by
  rw [SuiPay.hexToBytes, Hex.encode, String.toList_ofList, bytesOfDigits_encodeChars]

/-! ### The payment on the chain -/

/-- What comes of a payment's `verify` call at a gate.  A time that is no `u64` is refused
when the transaction is built. -/
def VerifyCall.accepted {sui : SuiGroth16} (call : VerifyCall) (gate : Gate sui) (timestampMs : UInt64)
    (sender : Address) : Option (Gate sui × AttestationVerified) :=
  if call.attestedAt < 2 ^ 64 then
    (Sui.SuicashGate.verify gate call.idi (UInt64.ofNat call.attestedAt) call.proof call.publicInputs
      call.r1 timestampMs sender).result.toOption
  else none

theorem toOption_eq_some {ε α : Type} {x : Except ε α} {a : α} : x.toOption = some a ↔ x = .ok a := by
  cases x with
  | error e => exact ⟨nofun, nofun⟩
  | ok b => exact ⟨fun h => congrArg Except.ok (Option.some.inj h), fun h => by rw [h]; rfl⟩

theorem VerifyCall.accepted_eq_some {sui : SuiGroth16} {call : VerifyCall} {gate : Gate sui}
    {timestampMs : UInt64} {sender : Address} {ret : Gate sui × AttestationVerified} :
    call.accepted gate timestampMs sender = some ret ↔ call.attestedAt < 2 ^ 64
      ∧ (Sui.SuicashGate.verify gate call.idi (UInt64.ofNat call.attestedAt) call.proof
        call.publicInputs call.r1 timestampMs sender).result = .ok ret := by
  rw [VerifyCall.accepted, Option.ite_none_right_eq_some, toOption_eq_some]

/-- A spent challenge is refused at every later gate. -/
theorem VerifyCall.accepted_of_seen {sui : SuiGroth16} {call : VerifyCall} {gate : Gate sui}
    (h : call.r1 ∈ gate.seen.keys) (calls : List Sui.Call) (timestampMs : UInt64) (sender : Address) :
    call.accepted ((Sui.World.ofGate gate).run calls).gate timestampMs sender = none := by
  rw [Option.eq_none_iff_forall_ne_some]
  intro ret hret
  obtain ⟨gate', receipt⟩ := ret
  obtain ⟨⟨att, -, -, -, hpresentable⟩, -⟩ :=
    Sui.SuicashGate.verify_result_eq_ok (VerifyCall.accepted_eq_some.mp hret).2
  exact hpresentable.fresh (Sui.World.seen_run (w := Sui.World.ofGate gate) h calls)

/-! ### Any oracle -/

section Json

variable {ark : ArkGroth16} {toLowercase : String → String}

theorem attestationJson_eq_ok {att : AttestResult} {r1 : Block} {json : AttestationJson} :
    attestationJson ark toLowercase att r1 = .ok json
      ↔ ∃ proof publicInputs, proofCompressedBytes ark att.proof = .ok proof
        ∧ publicInputsBytes att.proof = .ok publicInputs
        ∧ json = ⟨toLowercase att.idi, att.attestedAt, Hex.encode r1.toList, Hex.encode proof,
          Hex.encode publicInputs⟩ := by
  rw [attestationJson, bind_eq_ok]
  simp only [bind_eq_ok, Except.ok.injEq]
  constructor
  · rintro ⟨proof, hproof, publicInputs, hinputs, rfl⟩
    exact ⟨proof, publicInputs, hproof, hinputs, rfl⟩
  · rintro ⟨proof, publicInputs, hproof, hinputs, rfl⟩
    exact ⟨proof, hproof, publicInputs, hinputs, rfl⟩

theorem attestWithCard_eq_some {exchange : Option (AttestResult × Block)} {idi : String}
    {json : AttestationJson} : attestWithCard ark toLowercase exchange = some (idi, json)
      ↔ ∃ att r1, exchange = some (att, r1) ∧ attestationJson ark toLowercase att r1 = .ok json
        ∧ idi = toLowercase att.idi := by
  rcases exchange with _ | ⟨att, r1⟩
  · constructor
    · intro h
      cases h
    · rintro ⟨_, _, h, -⟩
      cases h
  · cases hjson : attestationJson ark toLowercase att r1 with
    | error e =>
      rw [attestWithCard]
      simp only [hjson]
      constructor
      · intro h
        cases h
      · rintro ⟨att', r1', h, hok, -⟩
        cases h
        cases hjson.symm.trans hok
    | ok json' =>
      rw [attestWithCard_of_json hjson, Option.some.injEq, Prod.mk.injEq]
      constructor
      · rintro ⟨rfl, rfl⟩
        exact ⟨att, r1, rfl, hjson, rfl⟩
      · rintro ⟨att', r1', h, hok, rfl⟩
        cases h
        exact ⟨rfl, Except.ok.inj (hjson.symm.trans hok)⟩

variable {σ : Type} {device : List UInt8 × UInt16 → σ → Except String (List UInt8) × σ}

theorem tap_eq_some {oracle : Usb.Oracle} {card : Usb.Card} {r1 : Block} {s : σ} {idi : String}
    {json : AttestationJson} : tapCard device ark toLowercase oracle card r1 s = some (idi, json)
      ↔ ∃ att, (cardSession device oracle card r1 s).1 = .ok att
        ∧ attestationJson ark toLowercase att r1 = .ok json ∧ idi = toLowercase att.idi := by
  rw [tapCard, attestWithCard_eq_some]
  constructor
  · rintro ⟨att, r1', h, hjson, rfl⟩
    obtain ⟨att', hatt', h⟩ := Option.map_eq_some_iff.mp h
    cases h
    exact ⟨att, toOption_eq_some.mp hatt', hjson, rfl⟩
  · rintro ⟨att, hatt, hjson, rfl⟩
    exact ⟨att, r1, by rw [hatt]; rfl, hjson, rfl⟩

theorem json_of_tap {oracle : Usb.Oracle} {card : Usb.Card} {r1 : Block} {s : σ} {idi : String}
    {json : AttestationJson} (h : tapCard device ark toLowercase oracle card r1 s = some (idi, json)) :
    json.idi = idi ∧ SuiPay.hexToBytes json.r1 = r1.toList := by
  obtain ⟨att, -, hjson, rfl⟩ := tap_eq_some.mp h
  obtain ⟨proof, publicInputs, -, -, rfl⟩ := attestationJson_eq_ok.mp hjson
  exact ⟨rfl, hexToBytes_encode _⟩

end Json

/-! ### Honest parts -/

section Honest

variable {ark : ArkGroth16} {prover : ArkProver ark} {crate : Server.DesCrate}
  {felica : Server.FelicaCrate} {config : Server.AppConfig} {holder : HolderCard}

def HolderCard.proveRequest (crate : Server.DesCrate) (holder : HolderCard) (r1 : Block)
    (attestedAt : UInt64) : Prover.ProveRequest :=
  let keys := holder.card.session crate
  ⟨holder.card.idm, keys.c1bExpected crate r1, crate.tdesEncrypt holder.r2 keys.l keys.beta,
    holder.card.auth2 crate ⟨r1, holder.r2⟩, holder.card.keys.gsk, holder.card.keys.usk, attestedAt⟩

def HolderCard.scalars (holder : HolderCard) (r1 : Block) (attestedAt : UInt64) : List Fr :=
  [(Prover.limb holder.card.idi : Fr), (Prover.limb r1 : Fr), (attestedAt.toNat : Fr)]

theorem scalars_flatMap (holder : HolderCard) (r1 : Block) (attestedAt : UInt64) :
    (holder.scalars r1 attestedAt).flatMap Prover.frToBytes
      = statementBlob holder.card.idi.toList r1.toList attestedAt :=
  Sui.flatMap_statement holder.card.idi r1 attestedAt

/-- The server makes a proof of an honest tap: it verifies, its points are finite and of the
groups, and it serializes. -/
structure HolderCard.Proved (crate : Server.DesCrate) (holder : HolderCard)
    (rt : Server.Runtime prover) (pk : prover.Pk) (now : UInt64) (r1 : Block)
    (proof : Prover.Proof ark.Fq) (bytes : List UInt8) : Prop where
  provingKey : rt.provingKey = .ok pk
  clock : rt.now = .ok now
  dispatched : rt.dispatched = true
  prove : prover.prove pk ((holder.proveRequest crate r1 now).circuit
    ⟨holder.card.idi, r1, holder.r2⟩) rt.rng = some proof
  verifies : Prover.verifyProof ark (prover.vk pk) (holder.scalars r1 now) proof = true
  serializes : ark.proofSerialize proof = some bytes
  checked : proof.Checked ark
  round : ∀ f ∈ proof.coordinates, ark.fqDeserialize (ark.fqSerialize f) = some f

theorem cardSession_proved (hcrate : crate.Standard) (hfelica : felica.Standard)
    (hexError : String → String) (base : String) (hissued : holder.Issued config)
    {rt : Server.Runtime prover} {pk : prover.Pk} {now : UInt64} {r1 : Block}
    {proof : Prover.Proof ark.Fq} {bytes : List UInt8}
    (hproved : holder.Proved crate rt pk now r1 proof bytes) (pending : Option Server.Card.Pending) :
    (cardSession (holder.answer crate) (serverOracle crate felica hexError config rt base)
        ⟨holder.card.idm⟩ r1 pending).1
      = .ok ⟨Hex.encode holder.card.idi.toList, now,
        Prover.wireProof ark proof (holder.scalars r1 now)⟩ := by
  let req := holder.proveRequest crate r1 now
  have hverified : Server.verifySession crate felica ⟨req.gsk, req.usk⟩ req.idm req.c1b req.c2a
      req.auth2 = .ok ⟨r1, holder.r2, holder.card.idi, Server.tidOf r1⟩ :=
    Server.verifySession_card hcrate.inverts hfelica.opens holder.card r1 holder.r2
  obtain ⟨hpre, -⟩ := (Server.verifySession_eq_ok_iff hcrate hfelica req _).mp hverified
  have hcompressed : Prover.proveCompressed prover pk req rt.rng
      = .ok (⟨holder.card.idi, now, Prover.wireProof ark proof (holder.scalars r1 now)⟩, bytes) :=
    Prover.proveCompressed_eq_ok_iff.mpr
      ⟨_, proof, hpre, hproved.prove, hproved.verifies, hproved.serializes, rfl⟩
  have hparse : ∀ {n : ℕ} (v : Vector UInt8 n),
      Server.parseHex hexError n (Hex.encode v.toList) = .ok v := by
    intro n v
    rw [Server.parseHex, Hex.decode_encode]
    dsimp only
    rw [copyFromSlice_toList]
  let areq : Server.AttestRequest := ⟨Hex.encode req.idm.toList, Hex.encode req.c1b.toList,
    Hex.encode req.c2a.toList, Hex.encode req.auth2.toList⟩
  have hidm : areq.idmBytes hexError = .ok req.idm := hparse req.idm
  have hc1b : areq.c1bBytes hexError = .ok req.c1b := hparse req.c1b
  have hc2a : areq.c2aBytes hexError = .ok req.c2a := hparse req.c2a
  have hauth2 : areq.auth2Bytes hexError = .ok req.auth2 := hparse req.auth2
  have hattest := (Server.attest_eq_ok_iff_of_verified hidm hc1b hc2a hauth2 hverified).mpr
      ⟨pk, now, _, bytes, hproved.provingKey, hproved.clock, hproved.dispatched, hcompressed, rfl, rfl⟩
  rw [cardSession_honest hcrate.inverts felica hexError rt base hissued]
  show (serverOracle crate felica hexError config rt base).call "attest" (replyOfHandler _
    (Server.attest crate felica hexError ⟨config.gsk, config.usk⟩ rt _)) = _
  rw [← hissued.keys]
  exact congrArg (fun x => (serverOracle crate felica hexError config rt base).call "attest"
    (replyOfHandler (fun a : Server.AttestResponse => (⟨a.idi, a.attestedAt, a.proof⟩ :
      AttestResult)) x)) hattest

def HolderCard.verifyCall (holder : HolderCard) (gateConfig : GateConfig) (now : UInt64)
    (bytes : List UInt8) (r1 : Block) : VerifyCall :=
  ⟨gateConfig, holder.card.idi.toList, now.toNat, bytes,
    statementBlob holder.card.idi.toList r1.toList now, r1.toList⟩

section Proved

variable {rt : Server.Runtime prover} {pk : prover.Pk} {now : UInt64} {r1 : Block}
  {proof : Prover.Proof ark.Fq} {bytes : List UInt8}
  (hproved : holder.Proved crate rt pk now r1 proof bytes)
include hproved

/-- What an honest tap files, and the call that a payment makes of it. -/
theorem tap_proved (hcrate : crate.Standard) (hfelica : felica.Standard)
    (hexError : String → String) (base : String) (hissued : holder.Issued config)
    {toLowercase : String → String}
    (hlower : toLowercase (Hex.encode holder.card.idi.toList) = Hex.encode holder.card.idi.toList)
    (pending : Option Server.Card.Pending) :
    ∃ json, tapCard (holder.answer crate) ark toLowercase
        (serverOracle crate felica hexError config rt base) ⟨holder.card.idm⟩ r1 pending
        = some (Hex.encode holder.card.idi.toList, json)
      ∧ json = ⟨Hex.encode holder.card.idi.toList, now, Hex.encode r1.toList, Hex.encode bytes,
        Hex.encode (statementBlob holder.card.idi.toList r1.toList now)⟩ := by
  have hsession := cardSession_proved hcrate hfelica hexError base hissued hproved pending
  have hparse := Prover.parseProofPoints_wireProof hproved.checked hproved.round
    (holder.scalars r1 now)
  have hproof := (Prover.proofCompressedBytes_of_parse hparse bytes).mpr hproved.serializes
  have hinputs : publicInputsBytes (Prover.wireProof ark proof (holder.scalars r1 now))
      = .ok (statementBlob holder.card.idi.toList r1.toList now) := by
    have hthree : (holder.scalars r1 now).length = 3 := rfl
    rw [publicInputsBytes, Prover.parsePublicInputs_wireProof proof hthree, ← scalars_flatMap]
    rfl
  refine ⟨_, tap_eq_some.mpr ⟨_, hsession, attestationJson_eq_ok.mpr ⟨_, _, hproof, hinputs, rfl⟩,
    hlower.symm⟩, ?_⟩
  rw [hlower]

omit hproved in
theorem verifyCall_json {sdk : SuiSdk} (hnumber : sdk.number now = now.toNat)
    (gateConfig : GateConfig) :
    SuiPay.verifyCall sdk gateConfig ⟨Hex.encode holder.card.idi.toList, now, Hex.encode r1.toList,
        Hex.encode bytes, Hex.encode (statementBlob holder.card.idi.toList r1.toList now)⟩
      = holder.verifyCall gateConfig now bytes r1 := by
  rw [SuiPay.verifyCall, hnumber, hexToBytes_encode, hexToBytes_encode, hexToBytes_encode,
    hexToBytes_encode, HolderCard.verifyCall]

theorem accepted_iff {sui : SuiGroth16} {gate : Gate sui}
    {proofDeserialize : List UInt8 → Option (Prover.Proof ark.Fq)}
    (same : Sui.SameGroth16 ark sui (prover.vk pk) gate.verifierKey proofDeserialize)
    (gateConfig : GateConfig) (timestampMs : UInt64) (sender : Address) :
    (∃ ret, (holder.verifyCall gateConfig now bytes r1).accepted gate timestampMs sender = some ret)
      ↔ ((now.toNat : ℤ) - (timestampMs / 1000).toNat).natAbs ≤ gate.maxClockDriftSeconds.toNat
        ∧ gate.Admits holder.card.idi.toList ∧ r1.toList ∉ gate.seen.keys := by
  have hholds : Groth16Holds gate.verifierKey bytes
      (statementBlob holder.card.idi.toList r1.toList now) := by
    rw [← scalars_flatMap]
    exact (same.holds_serialized_iff hproved.checked hproved.serializes _ _ _).mpr hproved.verifies
  rw [← Sui.SuicashGate.verify_statement_iff hholds timestampMs sender]
  refine exists_congr fun ret => ?_
  rw [VerifyCall.accepted_eq_some, HolderCard.verifyCall, UInt64.ofNat_toNat]
  exact and_iff_right now.toNat_lt

end Proved

end Honest

/-! ### The fixture, tapped -/

namespace Fixture

def holder : HolderCard where
  card := { Server.Fixture.card with idi := .ofNat 0x1020304050607080 }
  areas := [0x0040]
  services := [0x0048]
  r2 := zeroBlock

def r1 : Block := Des.Block.ofNat 0x0011223344556677

theorem issued : holder.Issued Server.Fixture.config :=
  ⟨rfl, rfl, rfl, by decide, by decide⟩

def prover : ArkProver Sui.Fixture.ark := ⟨Unit, Unit, fun _ => (), fun _ _ _ =>
  some Sui.Fixture.proofPoints⟩

def rt : Server.Runtime prover := ⟨.ok (), .ok Sui.Fixture.attestedAt, true, ()⟩

theorem proved : holder.Proved Server.nativeCrate rt () Sui.Fixture.attestedAt r1
    Sui.Fixture.proofPoints Sui.Fixture.proof where
  provingKey := rfl
  clock := rfl
  dispatched := rfl
  prove := rfl
  verifies := by
    have hscalars : holder.scalars r1 Sui.Fixture.attestedAt = Sui.Fixture.scalars := by
      have hidi : Prover.limb holder.card.idi = 0x8070605040302010 := by decide
      have hr1 : Prover.limb r1 = 0x7766554433221100 := by decide
      rw [HolderCard.scalars, hidi, hr1]
      rfl
    rw [hscalars]
    show (Sui.Fixture.ark.verifyWithProcessedVk () _ _).getD false = true
    rw [Sui.Fixture.verifyWithProcessedVk_iff.mpr ⟨rfl, rfl⟩, Option.getD_some]
  serializes := Sui.Fixture.proofSerialize_proofPoints
  checked := Sui.Fixture.proofPoints_checked
  round := Sui.Fixture.proofPoints_round

def sdk : SuiSdk := ⟨List UInt8, id, id, UInt64.toNat⟩

def gateConfig : GateConfig := ⟨"package", "gate"⟩

def oracle : Usb.Oracle :=
  serverOracle Server.nativeCrate Server.nativeFelica id Server.Fixture.config rt ""

def json : AttestationJson :=
  ⟨Hex.encode holder.card.idi.toList, Sui.Fixture.attestedAt, Hex.encode r1.toList,
    Hex.encode Sui.Fixture.proof,
    Hex.encode (statementBlob holder.card.idi.toList r1.toList Sui.Fixture.attestedAt)⟩

def tx : PaymentTx sdk :=
  ⟨SuiPay.SEED_DOMAIN ++ holder.card.idi.toList,
    holder.verifyCall gateConfig Sui.Fixture.attestedAt Sui.Fixture.proof r1, 5, "merchant"⟩

theorem encode_ne_empty {bytes : List UInt8} (h : bytes ≠ []) : Hex.encode bytes ≠ "" := by
  intro hempty
  have hdecode := Hex.decode_encode bytes
  rw [hempty] at hdecode
  exact h (Option.some.inj hdecode).symm

theorem pay_json : SuiPay.pay sdk (some gateConfig) (Hex.encode holder.card.idi.toList) 5 "merchant"
    (some json) = .ok tx := by
  have hatt : SuiPay.attestation (some json) = some json := by
    refine Option.filter_eq_some_iff.mpr ⟨rfl, decide_eq_true ⟨?_, ?_, ?_, ?_⟩⟩
    · exact encode_ne_empty (by decide)
    · exact encode_ne_empty (by decide)
    · exact encode_ne_empty (by simp [Sui.Fixture.proof, Sui.Fixture.proofA, Sui.hexBytes, Bytes.leBytes])
    · exact encode_ne_empty (by simp [statementBlob, Sui.scalarOfLimb])
  rw [SuiPay.pay, if_neg (encode_ne_empty (by decide)), hatt]
  dsimp only
  rw [if_neg (by decide), SuiPay.deriveKeypair, hexToBytes_encode]
  have hcall : SuiPay.verifyCall sdk gateConfig json
      = holder.verifyCall gateConfig Sui.Fixture.attestedAt Sui.Fixture.proof r1 :=
    verifyCall_json rfl gateConfig
  exact congrArg (fun call => Except.ok (⟨_, call, 5, "merchant"⟩ : PaymentTx sdk)) hcall

theorem tap_json :
    tapCard (holder.answer Server.nativeCrate) Sui.Fixture.ark id oracle ⟨holder.card.idm⟩ r1 none
      = some (Hex.encode holder.card.idi.toList, json) := by
  have hlower : id (Hex.encode holder.card.idi.toList) = Hex.encode holder.card.idi.toList := rfl
  obtain ⟨json, htap, rfl⟩ := tap_proved proved Server.nativeCrate_standard
    Server.nativeFelica_standard id "" issued hlower none
  exact htap

def gate : Gate Sui.Fixture.groth16 := Sui.Fixture.gate ⟨[], by decide⟩ 0

theorem admitted : ((Sui.Fixture.attestedAt.toNat : ℤ) - ((1758768000000 : UInt64) / 1000).toNat).natAbs
      ≤ gate.maxClockDriftSeconds.toNat
    ∧ gate.Admits holder.card.idi.toList ∧ r1.toList ∉ gate.seen.keys :=
  ⟨by decide, .inl rfl, List.not_mem_nil⟩

theorem exists_accepted :
    ∃ ret, tx.verify.accepted gate 1758768000000 (Vector.replicate 32 0) = some ret :=
  (accepted_iff proved Sui.Fixture.same gateConfig _ _).mpr admitted

end Fixture

/-! ### What a payment is worth -/

section

variable {ark : ArkGroth16} {prover : ArkProver ark} {crate : Server.DesCrate}
  {felica : Server.FelicaCrate} {config : Server.AppConfig} {holder : HolderCard}

/-- **An honest tap pays.**  Let a card share its keys with the server, and let the proof that
the server makes of the session verify, with finite points of the groups, and serialize.  Then the
daemon gets its attestation, whatever the reader was left in; the payment is signed by the wallet
of the card's IDi; and the gate accepts it exactly when the clocks are close, the IDi is admitted
and the challenge is fresh. -/
theorem tap_admitted_iff (hcrate : crate.Standard) (hfelica : felica.Standard)
    (hexError : String → String) (base : String) (hissued : holder.Issued config)
    {rt : Server.Runtime prover} {pk : prover.Pk} {now : UInt64} {r1 : Block}
    {proof : Prover.Proof ark.Fq} {bytes : List UInt8}
    (hproved : holder.Proved crate rt pk now r1 proof bytes) {toLowercase : String → String}
    (hlower : toLowercase (Hex.encode holder.card.idi.toList) = Hex.encode holder.card.idi.toList)
    {sdk : SuiSdk} (hnumber : sdk.number now = now.toNat) (pending : Option Server.Card.Pending) :
    ∃ json, tapCard (holder.answer crate) ark toLowercase
        (serverOracle crate felica hexError config rt base) ⟨holder.card.idm⟩ r1 pending
        = some (Hex.encode holder.card.idi.toList, json)
      ∧ ∀ (gateConfig : Option GateConfig) (amount : UInt64) (merchant : String) (tx : PaymentTx sdk),
        SuiPay.pay sdk gateConfig (Hex.encode holder.card.idi.toList) amount merchant (some json)
          = .ok tx →
        tx.signer = sdk.fromSecretKey (sdk.sha256 (SuiPay.SEED_DOMAIN ++ holder.card.idi.toList))
        ∧ ∀ {sui : SuiGroth16} {gate : Gate sui} {proofDeserialize} (_ : Sui.SameGroth16 ark sui
            (prover.vk pk) gate.verifierKey proofDeserialize) (timestampMs : UInt64) (sender : Address),
          (∃ ret, tx.verify.accepted gate timestampMs sender = some ret)
            ↔ ((now.toNat : ℤ) - (timestampMs / 1000).toNat).natAbs ≤ gate.maxClockDriftSeconds.toNat
              ∧ gate.Admits holder.card.idi.toList ∧ r1.toList ∉ gate.seen.keys := by
  obtain ⟨json, htap, hjson⟩ := tap_proved hproved hcrate hfelica hexError base hissued hlower pending
  refine ⟨json, htap, fun gateConfig amount merchant tx hpay => ?_⟩
  obtain ⟨hsigner, config', hcall⟩ := SuiPay.pay_eq_ok hpay
  rw [hjson, verifyCall_json hnumber] at hcall
  rw [hsigner, hcall, SuiPay.deriveKeypair, hexToBytes_encode]
  exact ⟨rfl, fun same => accepted_iff hproved same config'⟩

end

theorem tap_admitted_iff_fixture :
    ∃ ret, Fixture.tx.verify.accepted Fixture.gate 1758768000000 (Vector.replicate 32 0)
      = some ret := by
  have hlower : id (Hex.encode Fixture.holder.card.idi.toList)
      = Hex.encode Fixture.holder.card.idi.toList := rfl
  have hnumber : Fixture.sdk.number Sui.Fixture.attestedAt = Sui.Fixture.attestedAt.toNat := rfl
  obtain ⟨json, htap, hpay⟩ := tap_admitted_iff Server.nativeCrate_standard
    Server.nativeFelica_standard id "" Fixture.issued Fixture.proved hlower hnumber none
  obtain rfl : Fixture.json = json :=
    (Prod.mk.inj (Option.some.inj (Fixture.tap_json.symm.trans htap))).2
  exact ((hpay _ _ _ _ Fixture.pay_json).2 Sui.Fixture.same _ _).mpr Fixture.admitted

/-- **An accepted payment, whoever attested it.**  Its signer is the wallet of the IDi that
the accepted proof is about; the proof is for the challenge of this tap; and from then on
the challenge is refused, in whatever payment and after whatever calls. -/
theorem accepted_payment {ark : ArkGroth16} {toLowercase : String → String} {σ : Type}
    {device : List UInt8 × UInt16 → σ → Except String (List UInt8) × σ} {oracle : Usb.Oracle}
    {card : Usb.Card} {r1 : Block} {s : σ} {idi : String} {json : AttestationJson}
    (htap : tapCard device ark toLowercase oracle card r1 s = some (idi, json))
    {sdk : SuiSdk} {config : Option GateConfig} {amount : UInt64} {merchant : String}
    {tx : PaymentTx sdk} (hpay : SuiPay.pay sdk config idi amount merchant (some json) = .ok tx)
    {sui : SuiGroth16} {gate gate' : Gate sui} {timestampMs : UInt64} {sender : Address}
    {receipt : AttestationVerified}
    (haccepted : tx.verify.accepted gate timestampMs sender = some (gate', receipt)) :
    tx.signer = sdk.fromSecretKey (sdk.sha256 (SuiPay.SEED_DOMAIN ++ receipt.idi))
      ∧ receipt.idi = SuiPay.hexToBytes idi ∧ receipt.r1 = r1.toList ∧ receipt.sender = sender
      ∧ Groth16Holds gate.verifierKey tx.verify.proof
        (statementBlob receipt.idi r1.toList receipt.attestedAt)
      ∧ gate.Admits receipt.idi ∧ r1.toList ∉ gate.seen.keys
      ∧ ∀ (call : VerifyCall) (calls : List Sui.Call) (timestampMs : UInt64) (sender : Address),
        call.r1 = r1.toList →
          call.accepted ((Sui.World.ofGate gate').run calls).gate timestampMs sender = none := by
  obtain ⟨hidi, hr1⟩ := json_of_tap htap
  obtain ⟨hsigner, config', hverify⟩ := SuiPay.pay_eq_ok hpay
  have hcall_idi : tx.verify.idi = SuiPay.hexToBytes idi := by rw [hverify, ← hidi]; rfl
  have hcall_r1 : tx.verify.r1 = r1.toList := by rw [hverify, ← hr1]; rfl
  obtain ⟨⟨att, hatt, htime, hinputs, hpresentable⟩, hproof, rfl, hseen⟩ :=
    Sui.SuicashGate.verify_result_eq_ok (VerifyCall.accepted_eq_some.mp haccepted).2
  rw [hcall_r1] at hpresentable hseen
  rw [hcall_idi] at hatt
  have hblob := hpresentable.publicInputs_eq
  rw [hatt, htime, hinputs] at hblob
  rw [hblob] at hproof
  dsimp only
  rw [hcall_idi, hcall_r1]
  refine ⟨hsigner, rfl, rfl, rfl, hproof, ?_, hpresentable.fresh, ?_⟩
  · rw [← hatt]
    exact hpresentable.admitted
  · intro call calls timestampMs sender hcall
    exact VerifyCall.accepted_of_seen (hcall ▸ hseen) calls timestampMs sender

theorem accepted_payment_fixture :
    ∃ gate' receipt, Fixture.tx.verify.accepted Fixture.gate 1758768000000 (Vector.replicate 32 0)
        = some (gate', receipt)
      ∧ ∀ calls timestampMs sender,
        Fixture.tx.verify.accepted ((Sui.World.ofGate gate').run calls).gate timestampMs sender
          = none := by
  obtain ⟨⟨gate', receipt⟩, haccepted⟩ := Fixture.exists_accepted
  obtain ⟨-, -, -, -, -, -, -, hrefused⟩ :=
    accepted_payment Fixture.tap_json Fixture.pay_json haccepted
  exact ⟨gate', receipt, haccepted, fun calls timestampMs sender =>
    hrefused Fixture.tx.verify calls timestampMs sender rfl⟩

end SuiCash.Facepay
