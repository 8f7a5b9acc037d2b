import SuiCash.Felica.Session

/-!
# The AUTH2 of an emulated card

The server takes an AUTH2 only under the transaction number of a fresh session.  Its reason is
what the emulated card does: an Authentication1 drops the session, and an Authentication2 that is
repeated carries the number of the session on.

`attested_iff` says what that comes to.  Of the AUTH2s that a card answers between two
Authentication1s, whatever else it was sent, the server accepts those from before the first
secure frame was answered, as the session they are, and refuses the others for their number.
-/

namespace SuiCash.Felica.EmulatedSystem

open Des Bytes Fallible Cipher
open Server (verifySession verifyAuth2_of_payload transactionNumber tidOf EXPECTED_AUTH2_TN
  IntermediateKeys OracleKeys CardSession)

/-! ### The number of a session -/

def Command.isSecure : Command → Bool
  | .secure _ _ => true
  | _ => false

/-- How many secure frames are answered over some commands. -/
def secureAnswers (crates : CipherCrates) (sys : EmulatedSystem) : List Command → ℕ
  | [] => 0
  | c :: cs =>
    let answer := sys.handle crates c
    (if c.isSecure ∧ answer.1.isSome then 1 else 0) + secureAnswers crates answer.2 cs

/-- Since an Authentication1 as many secure frames were answered, or the authentication is no
more. -/
inductive Waiting (pending : PendingAuthentication) (answered : ℕ) (sys : EmulatedSystem) : Prop
  | gone (h : Fresh sys)
  | waiting (hpending : sys.pendingAuth = some pending)
      (hsession : ∀ session, sys.secureSession = some session →
        session.transactionId = transactionIdOf pending.random1)
      (hnumber : sys.carriedNumber pending = 0 ↔ answered = 0)

section Waiting

variable {crates : CipherCrates} {cipher : KeyedPerm Block Block} (std : crates.Computes cipher)

theorem carriedNumber_of_session {sys : EmulatedSystem} {pending : PendingAuthentication}
    {session : SecureSession} (hsession : sys.secureSession = some session)
    (htid : session.transactionId = transactionIdOf pending.random1) :
    sys.carriedNumber pending = session.transactionNumber := by
  rw [carriedNumber, hsession]
  exact if_pos htid

theorem succ_ne_zero_of_ne_max {n : UInt16} (h : n ≠ 0xFFFF) : n + 1 ≠ 0 := by
  intro h0
  have hlt := lt_succ_of_ne_max h
  rw [h0] at hlt
  exact absurd hlt (UInt16.not_lt_zero)

include std in
theorem Handled.waiting {sys : EmulatedSystem} {c : Command} {r : Answer}
    {pending : PendingAuthentication} {answered : ℕ} (h : Handled crates sys c r)
    (hc : ∀ areas services challenge1a random2,
      c ≠ .authentication1 areas services challenge1a random2)
    (hwaiting : Waiting pending answered sys) :
    Waiting pending (answered + if c.isSecure ∧ r.1.isSome then 1 else 0) r.2 := by
  cases h with
  | silent => simpa using hwaiting
  | read response => exact hwaiting
  | refused frame => exact hwaiting
  | written frame _ _ =>
    cases hwaiting with
    | gone h => exact .gone ⟨h.pendingAuth, h.secureSession⟩
    | waiting hpending hsession hnumber => exact .waiting hpending hsession hnumber
  | reset frame => exact .gone ⟨rfl, rfl⟩
  | started => exact absurd rfl (hc _ _ _ _)
  | opened frame hpending' _ =>
    cases hwaiting with
    | gone h =>
      rw [h.pendingAuth] at hpending'
      cases hpending'
    | waiting hpending hsession hnumber =>
      obtain rfl := Option.some.inj (hpending.symm.trans hpending')
      refine .waiting hpending ?_ ?_
      · rintro _ ⟨⟩
        rfl
      · rw [carriedNumber_of_session rfl rfl]
        exact hnumber
  | carriedOut frame haccept _ =>
    obtain ⟨-, hsession', -, hmax, -⟩ := (acceptSecureFrame_eq_some_iff std).mp haccept
    cases hwaiting with
    | gone h =>
      rw [h.secureSession] at hsession'
      cases hsession'
    | waiting hpending hsession hnumber =>
      have htid := hsession _ hsession'
      refine .waiting hpending ?_ ?_
      · rintro _ ⟨⟩
        exact htid
      · rw [carriedNumber]
        dsimp only
        rw [if_pos htid]
        exact iff_of_false (succ_ne_zero_of_ne_max hmax) (Nat.succ_ne_zero _)

include std in
/-- **The number of a session says whether a secure frame was answered in it.** -/
theorem waiting_after {pending : PendingAuthentication} {cs : List Command}
    (hcs : NoAuthentication1 cs) {sys : EmulatedSystem} {answered : ℕ}
    (h : Waiting pending answered sys) :
    Waiting pending (answered + secureAnswers crates sys cs) (sys.after crates cs) := by
  induction cs generalizing sys answered with
  | nil => exact h
  | cons c cs ih =>
    have hstep := (handled std sys c).waiting std (hcs c List.mem_cons_self) h
    rw [after_cons, secureAnswers, ← Nat.add_assoc]
    exact ih (fun c' hc' => hcs c' (List.mem_cons_of_mem c hc')) hstep

end Waiting

/-! ### What the server makes of it -/

section Attested

variable {crates : CipherCrates} {cipher : KeyedPerm Block Block} (std : crates.Computes cipher)
  (parseOther : List UInt8 → Bool)

include std in
theorem authentication2_answered {sys : EmulatedSystem} {challenge2b : Block} {frame : List UInt8}
    (h : (sys.handle crates (.authentication2 challenge2b)).1 = some frame) :
    ∃ pending, ∃ header : Block, sys.pendingAuth = some pending
      ∧ header.toList = toLeBytes (sys.carriedNumber pending)
        ++ (transactionIdOf pending.random1).toList
      ∧ frame = 34 :: AUTHENTICATION2_RESPONSE_CODE
        :: sealed cipher 0x13 pending.random2 [header, sys.idi, sys.pmi] := by
  rw [handle] at h
  split at h
  · cases h
  · have hhandled := handled_authentication2 std sys challenge2b
    cases hpending : sys.pendingAuth with
    | none =>
      rw [handleAuthentication2, hpending] at h
      cases h
    | some pending =>
      by_cases hproof : pending.context.encryptChallenge2b crates pending.random2 = challenge2b
      · obtain ⟨header, hheader, heq⟩ := handleAuthentication2_eq std hpending hproof
        rw [heq] at h
        exact ⟨pending, header, rfl, hheader, (Option.some.inj h).symm⟩
      · rw [handleAuthentication2, hpending] at h
        dsimp only at h
        rw [if_pos hproof] at h
        cases h

theorem transactionNumber_of_header {header : Block} {n : UInt16} {random1 : Block}
    (h : header.toList = toLeBytes n ++ (transactionIdOf random1).toList) :
    transactionNumber header.toList = n ∧ tidOf header = transactionIdOf random1 := by
  have hn : toLeBytes n = [UInt8.ofNat n.toNat, UInt8.ofNat (n.toNat / 256)] := rfl
  constructor
  · rw [h, hn]
    exact fromLeBytes_eq_iff.mpr hn
  · apply Vector.toList_inj.mp
    rw [Server.toList_tidOf, h]
    show ((toLeBytes n ++ (transactionIdOf random1).toList).drop 2).take 6 = _
    rw [List.drop_left' (length_toLeBytes n), List.take_of_length_le (by simp)]

include std in
/-- The server on an AUTH2 that a card has sealed: only the number is left to look at. -/
theorem verifySession_sealed {idm gsk usk random1 random2 header idi pmi : Block} {n : UInt16}
    {auth2 : Vector UInt8 32}
    (hheader : header.toList = toLeBytes n ++ (transactionIdOf random1).toList)
    (hauth2 : auth2.toList = sealed cipher 0x13 random2 [header, idi, pmi]) :
    let context := AuthenticationContext.new crates idm gsk usk
    verifySession crates.toDesCrate (vendored crates parseOther) ⟨gsk, usk⟩ idm
        (context.encryptChallenge1b crates random1) (context.encryptChallenge2a crates random2) auth2
      = if n ≠ EXPECTED_AUTH2_TN then .error (.error .unexpectedTn)
        else .ok ⟨random1, random2, idi, transactionIdOf random1⟩ := by
  intro context
  have hr1 : ((OracleKeys.mk gsk usk).session crates.toDesCrate idm).recoverR1 crates.toDesCrate
      (context.encryptChallenge1b crates random1) = random1 := std.inverts.tdes_dec_enc _ _ _
  have hr2 : ((OracleKeys.mk gsk usk).session crates.toDesCrate idm).openR2 crates.toDesCrate
      (context.encryptChallenge2a crates random2) = random2 := std.inverts.tdes_dec_enc _ _ _
  have hopen : (Authentication2Response.mk auth2.toList).decryptPayload crates random2
      = .ok (join [header, idi, pmi]) :=
    (decryptPayload_eq_ok_iff std).mpr ⟨_, List.cons_ne_nil _ _, rfl, hauth2⟩
  have hpayload : (vendored crates parseOther).decryptPayload ⟨auth2.toList⟩ random2
      = .ok (join [header, idi, pmi]) := by
    show ((Authentication2Response.mk auth2.toList).decryptPayload crates random2).mapError _ = _
    rw [hopen]
    rfl
  obtain ⟨hn, htid⟩ := transactionNumber_of_header hheader
  have hverify := verifyAuth2_of_payload (fromBytes_auth2 parseOther auth2) hpayload
  rw [hn, htid] at hverify
  rw [verifySession, hr1, hr2, hverify]
  by_cases h : n = EXPECTED_AUTH2_TN
  · rw [if_neg (not_not.mpr h), if_neg (not_not.mpr h), mapError_ok_bind, if_neg]
    exact not_not.mpr rfl
  · rw [if_pos h, if_pos h, mapError_error_bind]
    rfl

include std in
/-- **The AUTH2s of an emulated card that the server accepts.**  After an Authentication1 that
was answered, and any commands that are no other one, an AUTH2 that is answered verifies as the
session if no secure frame was answered in between, and is refused for its number otherwise. -/
theorem attested_iff {sys : EmulatedSystem} {areas services : List UInt16} {gsk usk : Block}
    (hkeys : sys.authenticationKeys crates areas services = some (gsk, usk))
    (challenge1a random2 : Block) {between : List Command} (hbetween : NoAuthentication1 between)
    {challenge2b : Block} {frame : List UInt8} :
    let start := sys.handle crates (.authentication1 areas services challenge1a random2)
    ((start.2.after crates between).handle crates (.authentication2 challenge2b)).1 = some frame →
    let random1 := (AuthenticationContext.new crates sys.idm gsk usk).decryptChallenge1a crates
      challenge1a
    ∃ (challenge1b challenge2a : Block) (auth2 : Vector UInt8 32),
      start.1 = some (26 :: AUTHENTICATION1_RESPONSE_CODE
        :: (sys.idm.toList ++ challenge1b.toList ++ challenge2a.toList))
      ∧ frame = 34 :: AUTHENTICATION2_RESPONSE_CODE :: auth2.toList
      ∧ verifySession crates.toDesCrate (vendored crates parseOther) ⟨gsk, usk⟩ sys.idm
          challenge1b challenge2a auth2
        = if secureAnswers crates start.2 between = 0 then
            .ok ⟨random1, random2, sys.idi, transactionIdOf random1⟩
          else .error (.error .unexpectedTn) := by
  intro start hanswered random1
  have hstart := handleAuthentication1_eq hkeys challenge1a random2
  have hfirst : Waiting ⟨.new crates sys.idm gsk usk, random1, random2,
      services.map ServiceCode.mk⟩ 0 start.2 := by
    refine .waiting (by rw [show start.2 = _ from congrArg Prod.snd hstart]) ?_ ?_
    · rw [show start.2 = _ from congrArg Prod.snd hstart]
      rintro _ ⟨⟩
    · rw [show start.2 = _ from congrArg Prod.snd hstart, carriedNumber]
      exact iff_of_true rfl rfl
  obtain ⟨pending, header, hpending, hheader, rfl⟩ := authentication2_answered std hanswered
  have hidi : (start.2.after crates between).idi = sys.idi :=
    ((handled std sys _).sameCard.trans (sameCard_after std _ _)).idi
  rcases waiting_after std hbetween hfirst with hgone | ⟨hpending', -, hnumber⟩
  · rw [hgone.pendingAuth] at hpending
    cases hpending
  · obtain rfl := Option.some.inj (hpending'.symm.trans hpending)
    rw [Nat.zero_add] at hnumber
    change _ = EXPECTED_AUTH2_TN ↔ _ at hnumber
    refine ⟨_, _, ⟨(sealed cipher 0x13 random2 [header, (start.2.after crates between).idi,
      (start.2.after crates between).pmi]).toArray, by simp⟩, congrArg Prod.fst hstart, rfl, ?_⟩
    rw [verifySession_sealed std parseOther hheader rfl, hidi]
    by_cases h : secureAnswers crates start.2 between = 0
    · rw [if_pos h, if_neg (not_not.mpr (hnumber.mpr h))]
    · rw [if_neg h, if_pos fun hn => h (hnumber.mp hn)]

include std in
/-- An authentication that waits answers the one that proves its key. -/
theorem authentication2_answers {sys : EmulatedSystem} {pending : PendingAuthentication}
    (hmode : sys.mode.permits .authenticationStarted = true)
    (hpending : sys.pendingAuth = some pending) :
    ∃ frame, (sys.handle crates (.authentication2
      (pending.context.encryptChallenge2b crates pending.random2))).1 = some frame := by
  obtain ⟨header, -, heq⟩ := handleAuthentication2_eq std hpending rfl
  rw [handle, if_neg (not_not.mpr hmode), heq]
  exact ⟨_, rfl⟩

include std in
theorem exists_repeated (challenge1a random2 : Block) :
    ∃ challenge2b frame, (((Fixture.system.handle crates
      (.authentication1 [0x0040] [0x0048] challenge1a random2)).2.after crates
        [.authentication2 challenge2b]).handle crates (.authentication2 challenge2b)).1 = some frame := by
  have hkeys := Fixture.authenticationKeys_system crates
  refine ⟨(AuthenticationContext.new crates Fixture.system.idm (Fixture.keys crates).1
    (Fixture.keys crates).2).encryptChallenge2b crates random2, ?_⟩
  rw [← after_cons, after_authentication std hkeys challenge1a random2]
  exact @authentication2_answers _ _ std _ ⟨_, _, random2, _⟩ rfl rfl

end Attested

/-- The repeated AUTH2 of a session in which nothing was read verifies. -/
theorem attested_iff_repeated :
    ∃ (challenge1b challenge2a : Block) (auth2 : Vector UInt8 32) (random1 : Block),
      verifySession nativeCrates.toDesCrate (vendored nativeCrates fun _ => false)
          ⟨(Fixture.keys nativeCrates).1, (Fixture.keys nativeCrates).2⟩ Fixture.system.idm
          challenge1b challenge2a auth2
        = .ok ⟨random1, Fixture.SERVICE_KEY, Fixture.system.idi, transactionIdOf random1⟩ := by
  obtain ⟨challenge2b, frame, hanswered⟩ :=
    exists_repeated nativeCrates_computes Fixture.AREA_KEY Fixture.SERVICE_KEY
  obtain ⟨challenge1b, challenge2a, auth2, -, -, hverify⟩ := attested_iff nativeCrates_computes
    (fun _ => false) (Fixture.authenticationKeys_system nativeCrates) Fixture.AREA_KEY
    Fixture.SERVICE_KEY (by rintro _ (_ | _) _ _ _ _ ⟨⟩; contradiction) hanswered
  refine ⟨challenge1b, challenge2a, auth2, _, hverify.trans (if_pos ?_)⟩
  rw [secureAnswers, secureAnswers, if_neg fun h => Bool.noConfusion h.1]

end SuiCash.Felica.EmulatedSystem
