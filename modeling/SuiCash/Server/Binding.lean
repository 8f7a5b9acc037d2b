import SuiCash.Server.Exchange

/-!
# The deferred challenge check

`settle` encrypts the holder's challenge and compares it with `c1b`.  `attest` has
no challenge to compare: it decrypts `c1b`, certifies what it finds, and leaves the
comparison to whoever reads the first public input after the identifier.

`deferred_binding` says that nothing is lost by that.  Decryption undoes encryption,
and there are finitely many blocks, so encryption undoes decryption as well
(`DesCrate.EdeInverts.encrypt_decrypt`): comparing before and comparing after give
one answer.
-/

namespace SuiCash.Server

open Des Fallible
open Prover (ArkGroth16 ArkProver Fr ProveRequest limb limb_lt_r frToHex parseFr_frToHex natCast_inj
  proveCompressed_eq_ok)

/-! ### Encryption undoes decryption -/

/-- `TdesEde3::decrypt_block` undoes `TdesEde3::encrypt_block`. -/
def DesCrate.EdeInverts (crate : DesCrate) : Prop :=
  ∀ key block, crate.ede3DecryptBlock key (crate.ede3EncryptBlock key block) = block

theorem finite_block : Finite Block := by
  refine Finite.of_injective (fun (b : Block) (i : Fin 8) => (b.get i).toFin) fun a b h => ?_
  ext i hi
  exact congrArg Fin.val (congrFun h ⟨i, hi⟩)

section Inverts

variable {crate : DesCrate} (hcrate : crate.EdeInverts)
include hcrate

/-- An injective map of finitely many blocks is onto, so it is undone from both sides. -/
theorem DesCrate.EdeInverts.encrypt_decrypt (key : Vector UInt8 24) (block : Block) :
    crate.ede3EncryptBlock key (crate.ede3DecryptBlock key block) = block := by
  have := finite_block
  have hleft : Function.LeftInverse (crate.ede3DecryptBlock key) (crate.ede3EncryptBlock key) :=
    hcrate key
  have hsurj : Function.Surjective (crate.ede3EncryptBlock key) :=
    Finite.injective_iff_surjective.mp hleft.injective
  exact hleft.rightInverse_of_surjective hsurj block

/-- **One check**: the response to `r1`, or the challenge of `c1b`. -/
theorem c1bExpected_eq_iff (keys : IntermediateKeys) {r1 c1b : Block} :
    keys.c1bExpected crate r1 = c1b ↔ keys.r1FromC1b crate c1b = r1 := by
  constructor
  · rintro rfl
    exact hcrate _ _
  · rintro rfl
    exact hcrate.encrypt_decrypt _ _

end Inverts

/-- A crate that computes DES decrypts what it encrypts under every key, not only a
stacked one. -/
theorem nativeCrate_edeInverts : nativeCrate.EdeInverts := by
  intro key block
  simp only [nativeCrate, desDecrypt_desEncrypt, desEncrypt_desDecrypt]

/-! ### What `settle` accepts -/

section Settle

variable {crate : DesCrate} {hexError : String → String} {config : AppConfig}
  {req : SettleRequest} {idm r1 c1b c2a : Block}
  (hidm : req.idmBytes hexError = .ok idm) (hr1 : req.r1Bytes hexError = .ok r1)
  (hc1b : req.c1bBytes hexError = .ok c1b) (hc2a : req.c2aBytes hexError = .ok c2a)
include hidm hr1 hc1b hc2a

theorem settle_ok_iff : (∃ reply, settle crate hexError config req = .ok reply) ↔
    (IntermediateKeys.derive crate config.gsk config.usk idm).c1bExpected crate r1 = c1b := by
  rw [settle_eq hidm hr1 hc1b hc2a]
  dsimp only
  constructor
  · rintro ⟨reply, h⟩
    exact not_not.mp (guard_eq_ok.mp h).1
  · intro h
    exact ⟨_, guard_eq_ok.mpr ⟨not_not.mpr h, rfl⟩⟩

theorem settle_ne_c1bMismatch_iff : settle crate hexError config req ≠ .error .c1bMismatch ↔
    ∃ reply, settle crate hexError config req = .ok reply := by
  constructor
  · intro h
    rw [settle_ok_iff hidm hr1 hc1b hc2a]
    by_contra hne
    refine h ?_
    rw [settle_eq hidm hr1 hc1b hc2a]
    exact if_pos hne
  · rintro ⟨reply, h⟩ herror
    rw [h] at herror
    cases herror

end Settle

/-! ### What `attest` certifies -/

theorem verifySession_r1 {crate : DesCrate} {felica : FelicaCrate} {keys : OracleKeys}
    {idm c1b c2a : Block} {auth2 : Vector UInt8 32} {v : VerifiedSession}
    (h : verifySession crate felica keys idm c1b c2a auth2 = .ok v) :
    v.r1 = (keys.session crate idm).recoverR1 crate c1b := by
  obtain ⟨auth, -, h⟩ := bind_eq_ok.mp h
  obtain ⟨-, h⟩ := guard_eq_ok.mp h
  cases h
  rfl

theorem frToHex_limb_inj {a b : Block} (h : frToHex (limb a : Fr) = frToHex (limb b : Fr)) : a = b := by
  have hfr := congrArg Prover.parseFr h
  rw [parseFr_frToHex, parseFr_frToHex, Option.some.injEq, natCast_inj (limb_lt_r a) (limb_lt_r b)]
    at hfr
  exact Vector.toList_inj.mp (Bytes.eq_of_leNat_eq (by simp) hfr)

/-- **An answer carries the verified challenge** as its public input. -/
theorem attest_r1 {crate : DesCrate} (hstd : crate.Standard) {felica : FelicaCrate}
    (hfelica : felica.Standard) {ark : ArkGroth16} {prover : ArkProver ark}
    {hexError : String → String} {keys : OracleKeys} {rt : Runtime prover} {areq : AttestRequest}
    {response : AttestResponse} {idm c1b : Block} (hidm : areq.idmBytes hexError = .ok idm)
    (hc1b : areq.c1bBytes hexError = .ok c1b)
    (h : attest crate felica hexError keys rt areq = .ok response) :
    response.proof.publicInputs[1]?
      = some (frToHex (limb ((keys.session crate idm).recoverR1 crate c1b) : Fr)) := by
  obtain ⟨idm', c1b', c2a, auth2, v, pk, attestedAt, att, bytes, hidm', hc1b', -, -, hv, hprove, -,
    rfl⟩ := attest_eq_ok h
  rw [hidm, Except.ok.injEq] at hidm'
  rw [hc1b, Except.ok.injEq] at hc1b'
  subst hidm' hc1b'
  obtain ⟨claim, proof, hpre, -, rfl⟩ := proveCompressed_eq_ok hprove
  let req : ProveRequest := ⟨idm, c1b, c2a, auth2, keys.gsk, keys.usk, attestedAt⟩
  obtain ⟨hok, -, -⟩ := (verifySession_eq_ok_iff hstd hfelica req v).mp hv
  obtain rfl := Except.ok.inj (hpre.symm.trans hok)
  rw [← verifySession_r1 hv]
  rfl

/-- **The check put off is the check made.**  `settle` accepts a challenge with a
`c1b` exactly when the `c1b` decrypts to it.  So the challenge of a verified session
is the holder's exactly when `settle` would have accepted the holder's; and where the
crates compute DES, the answer of `attest` carries the holder's exactly then. -/
theorem deferred_binding {crate : DesCrate} (hcrate : crate.EdeInverts) (hexError : String → String)
    (config : AppConfig) {req : SettleRequest} {idm r1 c1b c2a : Block}
    (hidm : req.idmBytes hexError = .ok idm) (hr1 : req.r1Bytes hexError = .ok r1)
    (hc1b : req.c1bBytes hexError = .ok c1b) (hc2a : req.c2aBytes hexError = .ok c2a) :
    let keys : OracleKeys := ⟨config.gsk, config.usk⟩
    let settled := settle crate hexError config req
    (settled ≠ .error .c1bMismatch ↔ (keys.session crate idm).recoverR1 crate c1b = r1)
    ∧ (∀ felica auth2 v, verifySession crate felica keys idm c1b c2a auth2 = .ok v →
      (v.r1 = r1 ↔ ∃ reply, settled = .ok reply))
    ∧ ∀ (felica : FelicaCrate) (ark : ArkGroth16) (prover : ArkProver ark) (rt : Runtime prover)
      (areq : AttestRequest) (response : AttestResponse), crate.Standard → felica.Standard →
      areq.idmBytes hexError = .ok idm → areq.c1bBytes hexError = .ok c1b →
      attest crate felica hexError keys rt areq = .ok response →
      (response.proof.publicInputs[1]? = some (frToHex (limb r1 : Fr))
        ↔ ∃ reply, settled = .ok reply) := by
  intro keys settled
  have hrecover : (∃ reply, settled = .ok reply)
      ↔ (keys.session crate idm).recoverR1 crate c1b = r1 :=
    (settle_ok_iff hidm hr1 hc1b hc2a).trans (c1bExpected_eq_iff hcrate _)
  refine ⟨(settle_ne_c1bMismatch_iff hidm hr1 hc1b hc2a).trans hrecover, ?_, ?_⟩
  · intro felica auth2 v hv
    rw [verifySession_r1 hv, hrecover]
  · intro felica ark prover rt areq response hstd hfelica haidm hac1b hattest
    rw [attest_r1 hstd hfelica haidm hac1b hattest, hrecover, Option.some.injEq]
    exact ⟨frToHex_limb_inj, fun h => by rw [h]⟩

/-- The fixture card's response to a challenge: `settle` accepts that challenge with
it and no zeros, and the session that follows verifies with that challenge. -/
theorem deferred_binding_fixture :
    let card := Fixture.card
    let keys := card.session nativeCrate
    let c1b := keys.c1bExpected nativeCrate Fixture.r1
    let c2a := nativeCrate.tdesEncrypt zeroBlock keys.l keys.beta
    let settled (r1 : Block) :=
      settle nativeCrate id Fixture.config (.ofBlocks card.idm r1 c1b c2a)
    settled Fixture.r1 ≠ .error .c1bMismatch ∧ settled zeroBlock = .error .c1bMismatch
      ∧ ∃ auth2 v, verifySession nativeCrate nativeFelica card.keys card.idm c1b c2a auth2 = .ok v
        ∧ v.r1 = Fixture.r1 ∧ ∃ reply, settled Fixture.r1 = .ok reply := by
  intro card keys c1b c2a settled
  have hr1 : (card.keys.session nativeCrate card.idm).recoverR1 nativeCrate c1b = Fixture.r1 :=
    nativeCrate_edeInverts _ _
  have hparse := fun r1 => SettleRequest.ofBlocks_bytes id card.idm r1 c1b c2a
  obtain ⟨hiff, hverified, -⟩ := deferred_binding nativeCrate_edeInverts id Fixture.config
    (hparse Fixture.r1).1 (hparse Fixture.r1).2.1 (hparse Fixture.r1).2.2.1 (hparse Fixture.r1).2.2.2
  obtain ⟨hiffZero, -, -⟩ := deferred_binding nativeCrate_edeInverts id Fixture.config
    (hparse zeroBlock).1 (hparse zeroBlock).2.1 (hparse zeroBlock).2.2.1 (hparse zeroBlock).2.2.2
  have hv := verifySession_card nativeCrate_standard.inverts nativeFelica_standard.opens card
    Fixture.r1 zeroBlock
  refine ⟨hiff.mpr hr1, ?_, _, _, hv, rfl, (hverified _ _ _ hv).mp rfl⟩
  by_contra hne
  exact absurd (hr1.symm.trans (hiffZero.mp hne)) (by decide)

end SuiCash.Server
