import SuiCash.Felica.Secure
import SuiCash.Server.Exchange

/-!
# The session verifier on the vendored crate

What the server takes of the `felica` crate, from the crate's own source: the parser of
a response frame as far as AUTH2 goes (`response/parse.rs`) and `decrypt_payload`.

`vendored_opens` says the vendored crate opens AUTH2 as the server's verifier relies on,
for any cipher its own crates compute; so what was assumed of the `felica` crate holds of
the one in the tree.  `verifySession_vendored` is the verifier with that put in: nothing is
left assumed but DES itself.
-/

namespace SuiCash.Felica

open Des Cipher Fallible
open Server (DesCrate FelicaCrate verifySession VerifiedSession OracleKeys IntermediateKeys
  transactionNumber EXPECTED_AUTH2_TN tidOf)
open Prover (ProveRequest preChecks)

section Vendored

variable (crates : CipherCrates) (parseOther : List UInt8 → Bool)

/-- `FelicaStandardResponse::from_bytes`, AUTH2 apart from the other responses: whether one
of those parses is left open. -/
def fromBytes (data : List UInt8) :
    Option (Server.FelicaStandardResponse Authentication2Response) :=
  match data with
  | len :: code :: body =>
    if len.toNat ≠ data.length then none
    else if code = AUTHENTICATION2_RESPONSE_CODE then
      if data.length = 34 then some (.authentication2 ⟨body⟩) else none
    else if parseOther data then some .other else none
  | _ => none

/-- How the server reads a failure. -/
def FelicaStandardError.toServer : FelicaStandardError → Server.FelicaStandardError
  | .secureSession _ => .secureSession
  | .protocol _ => .other

/-- The vendored crate, as the server uses it. -/
def vendored : FelicaCrate where
  Authentication2Response := Authentication2Response
  fromBytes := fromBytes parseOther
  decryptPayload response r2 := (response.decryptPayload crates r2).mapError FelicaStandardError.toServer

end Vendored

section Opens

variable {crates : CipherCrates} {cipher : KeyedPerm Block Block} (std : crates.Computes cipher)
  (parseOther : List UInt8 → Bool)

theorem fromBytes_auth2 (ct : Vector UInt8 32) :
    fromBytes parseOther (34 :: 0x13 :: ct.toList) = some (.authentication2 ⟨ct.toList⟩) := by
  have hlen : (34 :: 0x13 :: ct.toList : List UInt8).length = 34 := by simp
  rw [fromBytes, if_neg (by rw [hlen]; decide), if_pos (by decide), if_pos hlen]

include std in
theorem decryptPayload_mac_mismatch {ps : List Block} {mac : Block} {ct : List UInt8} {key : Block}
    (hdec : decryptDesCbcZeroIv crates ct key = .ok (join (ps ++ [mac])))
    (hmac : ¬ (ps ≠ [] ∧ mac = chainMac cipher (macStart 0x13) ps)) :
    (Authentication2Response.mk ct).decryptPayload crates key
      = .error (.secureSession "authentication2 response MAC verification failed") := by
  rw [Authentication2Response.decryptPayload, hdec, mapError_ok_bind,
    if_pos (fun h => hmac ((checkPacketMacDes_join std 0x13 ps mac).mp h))]

include std in
/-- **The vendored crate opens AUTH2** as the server's verifier relies on. -/
theorem vendored_opens : (vendored crates parseOther).Opens cipher := by
  intro ct
  refine ⟨⟨ct.toList⟩, fromBytes_auth2 parseOther ct, fun r2 p0 p1 p2 p3 hplain => ?_⟩
  have hdec : decryptDesCbcZeroIv crates ct.toList r2 = .ok (join ([p0, p1, p2] ++ [p3])) := by
    rw [← join_blocks4, decryptDesCbcZeroIv_join std, hplain]
    rfl
  have hiff : [p0, p1, p2].foldr (fun key x => cipher.dec x key) p3 = macHeader 34 0x13
      ↔ p3 = chainMac cipher (macStart 0x13) [p0, p1, p2] :=
    @foldr_dec_eq_header_iff _ cipher (macStart 0x13) _ _
  show ((Authentication2Response.mk ct.toList).decryptPayload crates r2).mapError
    FelicaStandardError.toServer = _
  by_cases hmac : p3 = chainMac cipher (macStart 0x13) [p0, p1, p2]
  · have hct : ct.toList = sealed cipher 0x13 r2 [p0, p1, p2] := by
      obtain ⟨ps, -, hct, hps⟩ := (opens_iff std).mp
        ⟨hdec, (checkPacketMacDes_join std 0x13 _ p3).mpr ⟨List.cons_ne_nil _ _, hmac⟩⟩
      rw [← join_concat] at hps
      rw [hct, (List.append_inj' (join_inj hps) rfl).1]
    rw [(decryptPayload_eq_ok_iff std).mpr ⟨_, List.cons_ne_nil _ _, rfl, hct⟩,
      if_pos (hiff.mpr hmac)]
    rfl
  · rw [decryptPayload_mac_mismatch std hdec fun h => hmac h.2, if_neg fun h => hmac (hiff.mp h)]
    rfl

/-- By the prover's DES, the same with the prover's own functions. -/
theorem vendored_standard (hdes : crates.Computes des) :
    (vendored crates parseOther).Standard := by
  intro ct
  obtain ⟨resp, hframe, hopen⟩ := vendored_opens hdes parseOther ct
  refine ⟨resp, hframe, fun r2 p0 p1 p2 p3 hct => ?_⟩
  have hplain : cbcDec xor8 (fun x => des.dec x r2) zeroBlock (blocks4 ct) = [p0, p1, p2, p3] := by
    rw [← join_blocks4, cbcDecrypt_join, Option.some.injEq] at hct
    exact join_inj hct
  exact hopen r2 p0 p1 p2 p3 hplain

end Opens

theorem CipherCrates.Computes.standard {crates : CipherCrates} (hdes : crates.Computes des) :
    crates.toDesCrate.Standard where
  encryptBlock_eq := hdes.encryptBlock_eq
  ede3EncryptBlock_eq := hdes.ede3EncryptBlock_eq
  ede3DecryptBlock_eq := hdes.ede3DecryptBlock_eq

theorem CipherCrates.Computes.inverts {crates : CipherCrates} {cipher : KeyedPerm Block Block}
    (std : crates.Computes cipher) : crates.toDesCrate.Inverts cipher where
  encryptBlock_eq := std.encryptBlock_eq
  tdes_dec_enc data k1 k2 := decrypt3desBlock_encrypt3desBlock std data k1 k2

theorem AuthenticationContext.new_eq (crates : CipherCrates) (idm gsk usk : Block) :
    let context := AuthenticationContext.new crates idm gsk usk
    let keys := IntermediateKeys.derive crates.toDesCrate gsk usk idm
    context.l = keys.l ∧ context.alpha = keys.alpha ∧ context.beta = keys.beta :=
  ⟨rfl, rfl, rfl⟩

/-- **The session verifier on the vendored crate**: with nothing assumed but DES, it accepts
what the prover's checks accept, under the transaction number of a fresh session. -/
theorem verifySession_vendored {crates : CipherCrates} (hdes : crates.Computes des)
    (parseOther : List UInt8 → Bool) (req : ProveRequest) (v : VerifiedSession) :
    verifySession crates.toDesCrate (vendored crates parseOther) ⟨req.gsk, req.usk⟩ req.idm req.c1b
        req.c2a req.auth2 = .ok v
      ↔ preChecks req = .ok ⟨v.idi, v.r1, v.r2⟩
        ∧ transactionNumber (req.plain 0).toList = EXPECTED_AUTH2_TN ∧ v.tid = tidOf (req.plain 0) :=
  Server.verifySession_eq_ok_iff hdes.standard (vendored_standard parseOther hdes) req v

/-! ### Crates by the prover's DES -/

def nativeCrates : CipherCrates where
  toDesCrate := Server.nativeCrate
  decryptBlock key block := desDecrypt block key
  cbcEncryptNoPadding key iv data :=
    (blocks data).map fun ps => join (cbcEnc xor8 (fun x => desEncrypt x key) iv ps)
  cbcDecryptNoPadding key iv data :=
    (blocks data).map fun cs => join (cbcDec xor8 (fun x => desDecrypt x key) iv cs)

theorem nativeCrates_computes : nativeCrates.Computes des where
  encryptBlock_eq := Server.nativeCrate_standard.encryptBlock_eq
  decryptBlock_eq _ _ := rfl
  ede3EncryptBlock_eq := Server.nativeCrate_standard.ede3EncryptBlock_eq
  ede3DecryptBlock_eq := Server.nativeCrate_standard.ede3DecryptBlock_eq
  cbcEncrypt_eq key iv ps := by
    show (blocks (join ps)).map _ = _
    rw [blocks_join]
    rfl
  cbcDecrypt_eq key iv cs := by
    show (blocks (join cs)).map _ = _
    rw [blocks_join]
    rfl

end SuiCash.Felica
