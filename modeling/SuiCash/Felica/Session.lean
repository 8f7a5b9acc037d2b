import SuiCash.Felica.Oracle
import SuiCash.Felica.System

/-!
# The sessions of an emulated card

What a system does with a command, and what follows over a run of commands in any order.

* `handled`: what the system can do with a command; in particular one that stays silent
  has not moved (`silent_unchanged`).
* `acceptSecureFrame_eq_some_iff`: the secure frames a session accepts are those sealed
  under its key and identifier with a number above the last one.
* `replayed_inert`: a secure frame that was answered is not carried out again before the
  next Authentication1, whatever comes in between, a repeated Authentication2 included.
-/

namespace SuiCash.Felica

open Des Bytes Fallible Cipher

/-! ### Frames in block form -/

section Frames

variable {crates : CipherCrates} {cipher : KeyedPerm Block Block} (std : crates.Computes cipher)
include std

theorem buildSecureResponseFrameDes_eq (code : UInt8) (n : UInt16) (tid : Vector UInt8 6)
    (key : Block) (payload : List UInt8) :
    ∃ ps, padToDesBlockSize (transactionPayload n tid payload) = join ps
      ∧ ps.length = (payload.length + 15) / 8
      ∧ buildSecureResponseFrameDes crates code n tid key payload =
        if 8 * ps.length + 10 > 255 then none
        else some (UInt8.ofNat (8 * ps.length + 10) :: code :: sealed cipher code key ps) := by
  obtain ⟨ps, hps, hlen⟩ := exists_join_pad (transactionPayload n tid payload)
  rw [transactionPayload_length] at hlen
  refine ⟨ps, hps, by omega, ?_⟩
  rw [buildSecureResponseFrameDes, sealDes_eq std code hps]
  by_cases h : 8 * ps.length + 10 > 255
  · rw [if_pos h, if_pos (by omega)]
    rfl
  · have hframe : (code :: sealed cipher code key ps).length + 1 = 8 * ps.length + 10 := by
      rw [List.length_cons, sealed_length]
      omega
    rw [if_neg h, if_neg (by omega)]
    show frameWithLengthPrefix (code :: sealed cipher code key ps) = _
    rw [frameWithLengthPrefix, hframe, MAX_PACKET_LEN, if_neg h]

theorem encryptAuthentication2Payload_eq {payload : List UInt8} {ps : List Block}
    (hps : padToDesBlockSize payload = join ps) (hlen : 2 + 8 * ps.length + 8 ≤ 255) (key : Block) :
    encryptAuthentication2Payload crates payload key = some (sealed cipher 0x13 key ps) := by
  rw [encryptAuthentication2Payload, sealDes_eq std 0x13 hps, if_neg (by omega)]
  rfl

end Frames

theorem buildAuthentication2Payload_eq (n : UInt16) (tid : Vector UInt8 6) (idi pmi : Block) :
    ∃ header : Block, buildAuthentication2Payload n tid idi pmi = join [header, idi, pmi]
      ∧ header.toList = toLeBytes n ++ tid.toList := by
  refine ⟨⟨(toLeBytes n ++ tid.toList).toArray, by simp [toLeBytes]⟩, ?_, rfl⟩
  simp [buildAuthentication2Payload, join]

namespace EmulatedSystem

variable {crates : CipherCrates} {cipher : KeyedPerm Block Block} (std : crates.Computes cipher)

/-! ### What is accepted -/

include std in
/-- **The secure frames that a session accepts**: those sealed under its key, with its identifier
and a number above the last one, that hold a command. -/
theorem acceptSecureFrame_eq_some_iff {sys : EmulatedSystem} {code : UInt8}
    {payload : List UInt8} {a : Accepted} :
    sys.acceptSecureFrame crates code payload = some a
      ↔ sys.mode.permits (if isRegisterCommand code then .issuing else .authenticated) = true
        ∧ sys.secureSession = some a.session
        ∧ a.session.transactionNumber < a.transactionNumber ∧ a.transactionNumber ≠ 0xFFFF
        ∧ ∃ ps body, transactionPayload a.transactionNumber a.session.transactionId body = join ps
          ∧ payload = sealed cipher code a.session.transactionKey ps
          ∧ parseSecurePayload code body = some a.command := by
  have htake : ∀ ps : List Block, ∀ mac : Block,
      (join ps ++ mac.toList).take ((join ps ++ mac.toList).length - DES_BLOCK_SIZE) = join ps := by
    intro ps mac
    rw [List.length_append, Vector.length_toList, DES_BLOCK_SIZE, Nat.add_sub_cancel]
    exact List.take_left' rfl
  unfold acceptSecureFrame
  simp only [Option.ite_none_left_eq_some, Option.bind_eq_bind, Option.bind_eq_some_iff, not_not]
  constructor
  · rintro ⟨hmode, session, hsession, plaintext, hdec, hmac, -, header, hheader, htid, hn, hmax,
      command, hcommand, h⟩
    obtain rfl := Option.some.inj h
    have hok : decryptDesCbcZeroIv crates payload session.transactionKey = .ok plaintext := by
      cases hd : decryptDesCbcZeroIv crates payload session.transactionKey with
      | error e => rw [hd] at hdec; cases hdec
      | ok p => rw [hd] at hdec; exact congrArg Except.ok (Option.some.inj hdec)
    obtain ⟨ps, -, hpayload, rfl⟩ := (opens_iff std).mp ⟨hok, hmac⟩
    rw [htake] at hheader hcommand
    obtain ⟨body, hbody⟩ := transactionHeader_eq_some_iff.mp hheader
    refine ⟨hmode, hsession, UInt16.not_le.mp hn, hmax, ps, body, ?_, hpayload, ?_⟩
    · rw [hbody, htid]
    · rw [← hcommand, hbody]
      exact congrArg (parseSecurePayload code) (drop_transactionPayload _ _ _).symm
  · rintro ⟨hmode, hsession, hn, hmax, ps, body, hbody, hpayload, hcommand⟩
    have hne : ps ≠ [] := by
      rintro rfl
      have hlen := congrArg List.length hbody
      rw [transactionPayload_length, join_length] at hlen
      simp at hlen
    obtain ⟨hdec, hmac⟩ := (opens_iff std).mpr ⟨ps, hne, hpayload, rfl⟩
    refine ⟨hmode, a.session, hsession, _, by rw [hdec]; rfl, hmac, ?_,
      ⟨a.transactionNumber, a.session.transactionId⟩, ?_, rfl, UInt16.not_le.mpr hn, hmax,
      a.command, ?_, rfl⟩
    · rw [List.length_append, Vector.length_toList, DES_BLOCK_SIZE]
      omega
    · rw [htake]
      exact transactionHeader_eq_some_iff.mpr ⟨body, hbody.symm⟩
    · rw [htake, ← hbody, ← hcommand]
      exact congrArg (parseSecurePayload code) (drop_transactionPayload _ _ _)

/-! ### What a command does -/

/-- What a system can do with a command. -/
inductive Handled (crates : CipherCrates) (sys : EmulatedSystem) : Command → Answer → Prop where
  | silent (c : Command) : Handled crates sys c (none, sys)
  | read {serviceCodes : List ServiceCode} {blockList : List BlockListElement}
      (response : Option (List UInt8)) :
      Handled crates sys (.readWithoutEncryption serviceCodes blockList) (response, sys)
  | refused {serviceCodes : List ServiceCode} {blockList : List BlockListElement}
      {data : List UInt8} (frame : List UInt8) :
      Handled crates sys (.writeWithoutEncryption serviceCodes blockList data) (some frame, sys)
  | written {serviceCodes : List ServiceCode} {blockList : List BlockListElement}
      {data : List UInt8} {store : Store} (frame : List UInt8)
      (hmode : sys.mode = .mode0)
      (h : applyBlockWrites sys.rootArea sys.store serviceCodes blockList data true = .ok store) :
      Handled crates sys (.writeWithoutEncryption serviceCodes blockList data)
        (some frame, { sys with store })
  | reset (frame : List UInt8) : Handled crates sys .resetMode (some frame, sys.resetMode)
  | started {areas services : List UInt16} {challenge1a random2 gsk usk random1 : Block}
      {context : AuthenticationContext}
      (hkeys : sys.authenticationKeys crates areas services = some (gsk, usk))
      (hcontext : context = .new crates sys.idm gsk usk)
      (hrandom1 : random1 = context.decryptChallenge1a crates challenge1a) :
      Handled crates sys (.authentication1 areas services challenge1a random2)
        (some (26 :: AUTHENTICATION1_RESPONSE_CODE :: (sys.idm.toList
            ++ (context.encryptChallenge1b crates random1).toList
            ++ (context.encryptChallenge2a crates random2).toList)),
          { sys with
            pendingAuth := some ⟨context, random1, random2, services.map ServiceCode.mk⟩
            secureSession := none
            mode := .mode1 })
  | opened {challenge2b : Block} (frame : List UInt8) {pending : PendingAuthentication}
      (hpending : sys.pendingAuth = some pending)
      (hproof : pending.context.encryptChallenge2b crates pending.random2 = challenge2b) :
      Handled crates sys (.authentication2 challenge2b)
        (some frame, { sys with
          secureSession := some ⟨sys.carriedNumber pending, transactionIdOf pending.random1,
            pending.random2, pending.serviceCodes⟩
          mode := .mode2 })
  | carriedOut {code : UInt8} {payload : List UInt8} (frame : List UInt8) {a : Accepted}
      {store : Store} (haccept : sys.acceptSecureFrame crates code payload = some a)
      (hstore : store = sys.store ∨ ∃ blockList data, a.command = .write blockList data
        ∧ applyBlockWrites sys.rootArea sys.store a.session.serviceCodes blockList data false
          = .ok store) :
      Handled crates sys (.secure code payload)
        (some frame, { sys with
          store
          secureSession := some { a.session with transactionNumber := a.transactionNumber + 1 } })

include std in
theorem frame_of_flags (code : UInt8) (n : UInt16) (tid : Vector UInt8 6) (key : Block)
    (flags : StatusFlags) :
    ∃ frame, buildSecureResponseFrameDes crates code n tid key [flags.1, flags.2] = some frame := by
  obtain ⟨ps, -, hlen, h⟩ := buildSecureResponseFrameDes_eq std code n tid key [flags.1, flags.2]
  have h2 : ps.length = 2 := by simpa using hlen
  rw [if_neg (by omega)] at h
  exact ⟨_, h⟩

theorem addressed_isSome (sys : EmulatedSystem) (code : UInt8) (body : List UInt8)
    (h : body.length ≤ 245) : ∃ frame, sys.addressed code body = some frame := by
  rw [addressed, frameWithLengthPrefix]
  simp only [List.length_cons, List.length_append, Vector.length_toList, MAX_PACKET_LEN]
  rw [if_neg (by omega)]
  exact ⟨_, rfl⟩

/-- A write that is refused leaves the system, one that is not puts its blocks in place; either
way it is answered by two flags. -/
theorem accessWrite_cases (sys : EmulatedSystem) (serviceCodes : List ServiceCode)
    (blockList : List BlockListElement) (data : List UInt8) (requireAuthFree : Bool) :
    ∃ (flags : StatusFlags) (store : Store),
      sys.accessWrite serviceCodes blockList data requireAuthFree
        = (⟨flags, none⟩, { sys with store })
      ∧ (store = sys.store
        ∨ applyBlockWrites sys.rootArea sys.store serviceCodes blockList data requireAuthFree
          = .ok store) := by
  rw [accessWrite]
  split
  · exact ⟨_, sys.store, rfl, .inl rfl⟩
  · cases h : applyBlockWrites sys.rootArea sys.store serviceCodes blockList data requireAuthFree with
    | ok store => exact ⟨_, store, rfl, .inr rfl⟩
    | error flags => exact ⟨flags, sys.store, rfl, .inl rfl⟩

/-- An issuing command is never a read or a write. -/
theorem parseSecurePayload_register {code : UInt8} {body : List UInt8} {command : SecureCommand}
    (hcode : isRegisterCommand code = true) (h : parseSecurePayload code body = some command) :
    ∀ (sys : EmulatedSystem) (serviceCodes : List ServiceCode),
      sys.execute serviceCodes command = some (⟨STATUS_UNSUPPORTED, none⟩, sys) := by
  have hcases : code = REGISTER_ISSUE_ID_COMMAND_CODE ∨ code = REGISTER_AREA_COMMAND_CODE
      ∨ code = REGISTER_SERVICE_COMMAND_CODE ∨ code = CHANGE_SYSTEM_BLOCK_COMMAND_CODE := by
    simpa [isRegisterCommand] using hcode
  intro sys serviceCodes
  rcases hcases with rfl | rfl | rfl | rfl
  all_goals
    simp only [parseSecurePayload, READ_COMMAND_CODE, READ_V2_COMMAND_CODE, WRITE_COMMAND_CODE,
      WRITE_V2_COMMAND_CODE, REGISTER_ISSUE_ID_COMMAND_CODE, REGISTER_AREA_COMMAND_CODE,
      REGISTER_SERVICE_COMMAND_CODE, CHANGE_SYSTEM_BLOCK_COMMAND_CODE] at h
    simp at h
    obtain ⟨-, rfl⟩ := h
    rfl

theorem handleSecureFrame_eq {sys : EmulatedSystem} {code : UInt8} {payload : List UInt8}
    {a : Accepted} {response : AccessResponse} {store : Store} {bytes frame : List UInt8}
    (haccept : sys.acceptSecureFrame crates code payload = some a)
    (hexec : sys.execute a.session.serviceCodes a.command = some (response, { sys with store }))
    (hbytes : response.toBytes = some bytes)
    (hframe : buildSecureResponseFrameDes crates (code + 1) (a.transactionNumber + 1)
      a.session.transactionId a.session.transactionKey bytes = some frame)
    (hissue : ¬ (isRegisterCommand code = true ∧ bytes.head? = some 0)) :
    sys.handleSecureFrame crates code payload = (some frame, { sys with
      store
      secureSession := some { a.session with transactionNumber := a.transactionNumber + 1 } }) := by
  rw [handleSecureFrame, haccept]
  dsimp only
  rw [hexec]
  dsimp only
  rw [hbytes]
  dsimp only
  rw [hframe]
  dsimp only
  rw [if_neg hissue]

include std in
theorem handled_secure (sys : EmulatedSystem) (code : UInt8) (payload : List UInt8) :
    Handled crates sys (.secure code payload) (sys.handleSecureFrame crates code payload) := by
  cases haccept : sys.acceptSecureFrame crates code payload with
  | none =>
    rw [handleSecureFrame, haccept]
    exact .silent _
  | some a =>
    obtain ⟨-, -, -, -, ps, body, -, -, hparse⟩ := (acceptSecureFrame_eq_some_iff std).mp haccept
    -- an answer of two flags is always made, and a refused issuing command's is not a success
    have hflags : ∀ (flags : StatusFlags) (store : Store),
        sys.execute a.session.serviceCodes a.command = some (⟨flags, none⟩, { sys with store }) →
        (store = sys.store ∨ ∃ blockList data, a.command = .write blockList data
          ∧ applyBlockWrites sys.rootArea sys.store a.session.serviceCodes blockList data false
            = .ok store) →
        ¬ (isRegisterCommand code = true ∧ flags.1 = 0) →
        Handled crates sys (.secure code payload) (sys.handleSecureFrame crates code payload) := by
      intro flags store hexec hstore hissue
      obtain ⟨frame, hframe⟩ := frame_of_flags std (code + 1) (a.transactionNumber + 1)
        a.session.transactionId a.session.transactionKey flags
      rw [handleSecureFrame_eq haccept hexec rfl hframe (by simpa using hissue)]
      exact .carriedOut frame haccept hstore
    by_cases hcode : isRegisterCommand code = true
    · refine hflags STATUS_UNSUPPORTED sys.store (parseSecurePayload_register hcode hparse _ _)
        (.inl rfl) ?_
      rintro ⟨-, h⟩
      exact absurd h (by decide)
    · have hno : ∀ flags : StatusFlags, ¬ (isRegisterCommand code = true ∧ flags.1 = 0) :=
        fun _ h => hcode h.1
      cases hcommand : a.command with
      | read blockList =>
        have hexec : sys.execute a.session.serviceCodes a.command
            = some (sys.handleSecureRead a.session.serviceCodes blockList, sys) := by
          rw [hcommand]
          rfl
        cases hbytes : (sys.handleSecureRead a.session.serviceCodes blockList).toBytes with
        | none =>
          rw [handleSecureFrame, haccept]
          dsimp only
          rw [hexec]
          dsimp only
          rw [hbytes]
          exact .silent _
        | some bytes =>
          cases hframe : buildSecureResponseFrameDes crates (code + 1) (a.transactionNumber + 1)
              a.session.transactionId a.session.transactionKey bytes with
          | none =>
            rw [handleSecureFrame, haccept]
            dsimp only
            rw [hexec]
            dsimp only
            rw [hbytes]
            dsimp only
            rw [hframe]
            exact .silent _
          | some frame =>
            rw [handleSecureFrame_eq haccept hexec hbytes hframe fun h => hcode h.1]
            exact .carriedOut frame haccept (.inl rfl)
      | write blockList data =>
        obtain ⟨flags, store, heq, hstore⟩ :=
          sys.accessWrite_cases a.session.serviceCodes blockList data false
        refine hflags flags store ?_ ?_ (hno flags)
        · rw [hcommand]
          exact congrArg some heq
        · exact hstore.imp id fun h => ⟨blockList, data, hcommand, h⟩
      | registerIssueId =>
        exact hflags STATUS_UNSUPPORTED sys.store (by rw [hcommand]; rfl) (.inl rfl) (hno _)
      | registerArea =>
        exact hflags STATUS_UNSUPPORTED sys.store (by rw [hcommand]; rfl) (.inl rfl) (hno _)
      | registerService =>
        exact hflags STATUS_UNSUPPORTED sys.store (by rw [hcommand]; rfl) (.inl rfl) (hno _)
      | changeSystemBlock =>
        exact hflags STATUS_UNSUPPORTED sys.store (by rw [hcommand]; rfl) (.inl rfl) (hno _)
      | v2 =>
        rw [handleSecureFrame, haccept]
        dsimp only
        rw [hcommand]
        exact .silent _

include std in
/-- An Authentication2 that proves the key opens a session, or goes on with the one open. -/
theorem handleAuthentication2_eq {sys : EmulatedSystem} {challenge2b : Block}
    {pending : PendingAuthentication} (hpending : sys.pendingAuth = some pending)
    (hproof : pending.context.encryptChallenge2b crates pending.random2 = challenge2b) :
    ∃ header : Block,
      header.toList = toLeBytes (sys.carriedNumber pending)
          ++ (transactionIdOf pending.random1).toList
      ∧ sys.handleAuthentication2 crates challenge2b =
        (some (34 :: AUTHENTICATION2_RESPONSE_CODE
            :: sealed cipher 0x13 pending.random2 [header, sys.idi, sys.pmi]),
          { sys with
            secureSession := some ⟨sys.carriedNumber pending, transactionIdOf pending.random1,
              pending.random2, pending.serviceCodes⟩
            mode := .mode2 }) := by
  obtain ⟨header, hpayload, hheader⟩ := buildAuthentication2Payload_eq (sys.carriedNumber pending)
    (transactionIdOf pending.random1) sys.idi sys.pmi
  refine ⟨header, hheader, ?_⟩
  have henc := encryptAuthentication2Payload_eq std
    ((congrArg padToDesBlockSize hpayload).trans (padToDesBlockSize_join _)) (by simp)
    pending.random2
  have hlen : (sealed cipher 0x13 pending.random2 [header, sys.idi, sys.pmi]).length = 32 := by simp
  have hframe : frameWithLengthPrefix (AUTHENTICATION2_RESPONSE_CODE
      :: sealed cipher 0x13 pending.random2 [header, sys.idi, sys.pmi])
      = some (34 :: AUTHENTICATION2_RESPONSE_CODE
        :: sealed cipher 0x13 pending.random2 [header, sys.idi, sys.pmi]) := by
    rw [frameWithLengthPrefix, List.length_cons, hlen]
    rfl
  rw [handleAuthentication2, hpending]
  dsimp only
  rw [if_neg (not_not.mpr hproof), henc]
  dsimp only
  rw [if_pos hlen, hframe]

include std in
theorem handled_authentication2 (sys : EmulatedSystem) (challenge2b : Block) :
    Handled crates sys (.authentication2 challenge2b)
      (sys.handleAuthentication2 crates challenge2b) := by
  cases hpending : sys.pendingAuth with
  | none =>
    rw [handleAuthentication2, hpending]
    exact .silent _
  | some pending =>
    by_cases hproof : pending.context.encryptChallenge2b crates pending.random2 = challenge2b
    · obtain ⟨header, -, heq⟩ := handleAuthentication2_eq std hpending hproof
      rw [heq]
      exact .opened _ hpending hproof
    · rw [handleAuthentication2, hpending]
      dsimp only
      rw [if_pos hproof]
      exact .silent _

theorem handled_authentication1 (sys : EmulatedSystem) (areas services : List UInt16)
    (challenge1a random2 : Block) :
    Handled crates sys (.authentication1 areas services challenge1a random2)
      (sys.handleAuthentication1 crates sys.idm areas services challenge1a random2) := by
  rw [handleAuthentication1]
  cases hkeys : sys.authenticationKeys crates areas services with
  | none => exact .silent _
  | some keys =>
    dsimp only
    rw [frameWithLengthPrefix]
    simp only [List.length_cons, List.length_append, Vector.length_toList, MAX_PACKET_LEN]
    rw [if_neg (by decide)]
    exact .started hkeys rfl rfl

include std in
/-- **What a system does with a command.** -/
theorem handled (sys : EmulatedSystem) (c : Command) : Handled crates sys c (sys.handle crates c) := by
  cases c with
  | readWithoutEncryption serviceCodes blockList =>
    rw [handle]
    split
    · exact .silent _
    · exact .read _
  | writeWithoutEncryption serviceCodes blockList data =>
    rw [handle]
    by_cases hmode : sys.mode.permits .unauthenticated = true
    · obtain ⟨flags, store, heq, hstore⟩ := sys.accessWrite_cases serviceCodes blockList data true
      obtain ⟨frame, hframe⟩ := sys.addressed_isSome WRITE_WITHOUT_ENCRYPTION_RESPONSE_CODE
        [flags.1, flags.2] (by simp)
      rw [if_neg (not_not.mpr hmode), heq]
      dsimp only
      rw [show (AccessResponse.mk flags none).toBytes = some [flags.1, flags.2] from rfl,
        Option.bind_some, hframe]
      rcases hstore with rfl | hstore
      · exact .refused frame
      · exact .written frame (by simpa [SystemMode.permits] using hmode) hstore
    · rw [if_pos hmode]
      exact .silent _
  | resetMode =>
    obtain ⟨frame, hframe⟩ := sys.addressed_isSome RESET_MODE_RESPONSE_CODE
      [0x00, 0x00] (by simp)
    rw [handle, hframe]
    exact .reset frame
  | authentication1 areas services challenge1a random2 =>
    exact handled_authentication1 sys areas services challenge1a random2
  | authentication2 challenge2b =>
    rw [handle]
    split
    · exact .silent _
    · exact handled_authentication2 std sys challenge2b
  | secure code payload => exact handled_secure std sys code payload

/-- **A system that stays silent has not moved.** -/
theorem Handled.silent_unchanged {sys : EmulatedSystem} {c : Command} {r : Answer}
    (h : Handled crates sys c r) (hsilent : r.1 = none) : r.2 = sys := by
  cases h with
  | silent => rfl
  | read response => rfl
  | refused frame => rfl
  | written frame _ _ => cases hsilent
  | reset frame => cases hsilent
  | started => cases hsilent
  | opened frame _ _ => cases hsilent
  | carriedOut frame _ _ => cases hsilent

/-- What no command changes of a system. -/
structure SameCard (sys sys' : EmulatedSystem) : Prop where
  systemCode : sys'.systemCode = sys.systemCode
  idm : sys'.idm = sys.idm
  pmm : sys'.pmm = sys.pmm
  rootArea : sys'.rootArea = sys.rootArea
  systemKey : sys'.systemKey = sys.systemKey
  idi : sys'.idi = sys.idi
  pmi : sys'.pmi = sys.pmi

theorem SameCard.refl (sys : EmulatedSystem) : SameCard sys sys := ⟨rfl, rfl, rfl, rfl, rfl, rfl, rfl⟩

theorem SameCard.trans {s₁ s₂ s₃ : EmulatedSystem} (h : SameCard s₁ s₂) (h' : SameCard s₂ s₃) :
    SameCard s₁ s₃ where
  systemCode := h'.systemCode.trans h.systemCode
  idm := h'.idm.trans h.idm
  pmm := h'.pmm.trans h.pmm
  rootArea := h'.rootArea.trans h.rootArea
  systemKey := h'.systemKey.trans h.systemKey
  idi := h'.idi.trans h.idi
  pmi := h'.pmi.trans h.pmi

theorem Handled.sameCard {sys : EmulatedSystem} {c : Command} {r : Answer}
    (h : Handled crates sys c r) : SameCard sys r.2 := by
  cases h <;> exact ⟨rfl, rfl, rfl, rfl, rfl, rfl, rfl⟩

include std in
theorem sameCard_after (sys : EmulatedSystem) (cs : List Command) :
    SameCard sys (sys.after crates cs) :=
  after_invariant (fun s c _ hs => hs.trans (handled std s c).sameCard) (.refl sys)

/-! ### One session after another -/

/-- A session is that of the authentication it was opened by. -/
structure Linked (sys : EmulatedSystem) : Prop where
  pending : ∀ session, sys.secureSession = some session → ∃ pending, sys.pendingAuth = some pending
    ∧ session.transactionKey = pending.random2
    ∧ session.transactionId = transactionIdOf pending.random1
    ∧ session.serviceCodes = pending.serviceCodes

/-- A system that nobody has authenticated to. -/
structure Fresh (sys : EmulatedSystem) : Prop where
  pendingAuth : sys.pendingAuth = none
  secureSession : sys.secureSession = none

theorem Fresh.linked {sys : EmulatedSystem} (h : Fresh sys) : Linked sys where
  pending session hsession := by
    rw [h.secureSession] at hsession
    cases hsession

include std in
theorem Handled.linked {sys : EmulatedSystem} {c : Command} {r : Answer}
    (h : Handled crates sys c r) (hlinked : Linked sys) : Linked r.2 := by
  cases h with
  | silent => exact hlinked
  | read response => exact hlinked
  | refused frame => exact hlinked
  | written frame _ _ => exact ⟨hlinked.pending⟩
  | reset frame => exact ⟨fun session hsession => by cases hsession⟩
  | started => exact ⟨fun session hsession => by cases hsession⟩
  | opened frame hpending _ =>
    refine ⟨fun session hsession => ?_⟩
    obtain rfl := Option.some.inj hsession
    exact ⟨_, hpending, rfl, rfl, rfl⟩
  | carriedOut frame haccept _ =>
    refine ⟨fun session hsession => ?_⟩
    obtain rfl := Option.some.inj hsession
    obtain ⟨pending, hpending, hkey, htid, hcodes⟩ :=
      hlinked.pending _ ((acceptSecureFrame_eq_some_iff std).mp haccept).2.1
    exact ⟨pending, hpending, hkey, htid, hcodes⟩

/-- The session of a key and an identifier has reached a number, or there is none. -/
inductive Past (key : Block) (tid : Vector UInt8 6) (n : UInt16) (sys : EmulatedSystem) : Prop where
  | gone (h : Fresh sys)
  | reached {session : SecureSession} {pending : PendingAuthentication}
      (hsession : sys.secureSession = some session) (hpending : sys.pendingAuth = some pending)
      (hkey : session.transactionKey = key) (htid : session.transactionId = tid)
      (hpkey : pending.random2 = key) (hptid : transactionIdOf pending.random1 = tid)
      (hn : n ≤ session.transactionNumber)

theorem lt_succ_of_ne_max {n : UInt16} (h : n ≠ 0xFFFF) : n < n + 1 := by
  rw [UInt16.lt_iff_toNat_lt, UInt16.toNat_add]
  have h1 := n.toNat_lt
  have h2 : n.toNat ≠ 0xFFFF := fun he => h (UInt16.toNat_inj.mp he)
  simp
  omega

include std in
/-- Nothing but an Authentication1 takes a session back. -/
theorem Handled.past {sys : EmulatedSystem} {c : Command} {r : Answer}
    {key : Block} {tid : Vector UInt8 6} {n : UInt16} (h : Handled crates sys c r)
    (hc : ∀ areas services challenge1a random2,
      c ≠ .authentication1 areas services challenge1a random2)
    (hpast : Past key tid n sys) : Past key tid n r.2 := by
  cases h with
  | silent => exact hpast
  | read response => exact hpast
  | refused frame => exact hpast
  | written frame _ _ =>
    cases hpast with
    | gone h => exact .gone ⟨h.pendingAuth, h.secureSession⟩
    | reached h1 h2 h3 h4 h5 h6 h7 => exact .reached h1 h2 h3 h4 h5 h6 h7
  | reset frame => exact .gone ⟨rfl, rfl⟩
  | started => exact absurd rfl (hc _ _ _ _)
  | opened frame hpending _ =>
    cases hpast with
    | gone h =>
      rw [h.pendingAuth] at hpending
      cases hpending
    | reached hsession hpending' hkey htid hpkey hptid hn =>
      obtain rfl := Option.some.inj (hpending'.symm.trans hpending)
      refine .reached rfl hpending hpkey hptid hpkey hptid ?_
      -- the identifiers are the same, so the number is carried over
      rw [carriedNumber, hsession]
      dsimp only
      rw [if_pos (htid.trans hptid.symm)]
      exact hn
  | carriedOut frame haccept _ =>
    obtain ⟨-, hsession, hlt, hmax, -⟩ := (acceptSecureFrame_eq_some_iff std).mp haccept
    cases hpast with
    | gone h =>
      rw [h.secureSession] at hsession
      cases hsession
    | reached hsession' hpending hkey htid hpkey hptid hn =>
      obtain rfl := Option.some.inj (hsession'.symm.trans hsession)
      refine .reached rfl hpending hkey htid hpkey hptid ?_
      exact UInt16.le_of_lt (UInt16.lt_of_le_of_lt hn (UInt16.lt_trans hlt (lt_succ_of_ne_max hmax)))

include std in
theorem Past.lt_of_accept {sys : EmulatedSystem} {key : Block} {tid : Vector UInt8 6} {n : UInt16}
    {code : UInt8} {payload : List UInt8} {a : Accepted} (hpast : Past key tid n sys)
    (haccept : sys.acceptSecureFrame crates code payload = some a) :
    n < a.transactionNumber ∧ a.session.transactionKey = key ∧ a.session.transactionId = tid := by
  obtain ⟨-, hsession, hlt, -⟩ := (acceptSecureFrame_eq_some_iff std).mp haccept
  cases hpast with
  | gone h =>
    rw [h.secureSession] at hsession
    cases hsession
  | reached hsession' _ hkey htid _ _ hn =>
    obtain rfl := Option.some.inj (hsession'.symm.trans hsession)
    exact ⟨UInt16.lt_of_le_of_lt hn hlt, hkey, htid⟩

include std in
theorem past_of_answered {sys : EmulatedSystem} (hlinked : Linked sys) {code : UInt8}
    {payload : List UInt8} (h : (sys.handle crates (.secure code payload)).1 ≠ none) :
    ∃ a, sys.acceptSecureFrame crates code payload = some a
      ∧ Past a.session.transactionKey a.session.transactionId a.transactionNumber
        (sys.handle crates (.secure code payload)).2 := by
  have hhandled := handled std sys (.secure code payload)
  generalize sys.handle crates (.secure code payload) = r at h hhandled ⊢
  cases hhandled with
  | silent => exact absurd rfl h
  | carriedOut frame haccept _ =>
    obtain ⟨-, hsession, -, hmax, -⟩ := (acceptSecureFrame_eq_some_iff std).mp haccept
    obtain ⟨pending, hpending, hkey, htid, -⟩ := hlinked.pending _ hsession
    exact ⟨_, haccept, .reached rfl hpending rfl rfl hkey.symm htid.symm
      (UInt16.le_of_lt (lt_succ_of_ne_max hmax))⟩

def NoAuthentication1 (cs : List Command) : Prop :=
  ∀ c ∈ cs, ∀ areas services challenge1a random2,
    c ≠ .authentication1 areas services challenge1a random2

include std in
/-- **A secure frame is carried out once**: after a frame was answered, and until the next
Authentication1, whatever comes in between, only frames with a greater number are accepted, and
the same bytes are not accepted again under any command code. -/
theorem replayed_inert {sys : EmulatedSystem} (hfresh : Fresh sys)
    (before between : List Command) {code : UInt8} {payload : List UInt8}
    (hanswered : ((sys.after crates before).handle crates (.secure code payload)).1 ≠ none)
    (hbetween : NoAuthentication1 between) :
    let later := sys.after crates (before ++ .secure code payload :: between)
    ∃ a, (sys.after crates before).acceptSecureFrame crates code payload = some a
      ∧ (∀ code' payload' a', later.acceptSecureFrame crates code' payload' = some a' →
        a.transactionNumber < a'.transactionNumber)
      ∧ ∀ code', later.handle crates (.secure code' payload) = (none, later) := by
  intro later
  have hlinked : Linked (sys.after crates before) :=
    after_invariant (I := Linked) (fun s c _ hs => (handled std s c).linked std hs) hfresh.linked
  obtain ⟨a, haccept, hpast⟩ := past_of_answered std hlinked hanswered
  have hlater : Past a.session.transactionKey a.session.transactionId a.transactionNumber later := by
    have hsplit : later = ((sys.after crates before).handle crates (.secure code payload)).2.after
        crates between := after_append _ _ _ _
    rw [hsplit]
    exact after_invariant (fun s c hc hs => (handled std s c).past std (hbetween c hc) hs) hpast
  refine ⟨a, haccept, fun code' payload' a' h => (hlater.lt_of_accept std h).1, fun code' => ?_⟩
  -- the same bytes are the same message, so they have the number that is past
  have hnone : later.acceptSecureFrame crates code' payload = none := by
    cases haccept' : later.acceptSecureFrame crates code' payload with
    | none => rfl
    | some a' =>
      obtain ⟨hlt, hkey, htid⟩ := hlater.lt_of_accept std haccept'
      obtain ⟨-, -, -, -, ps, body, hps, hpayload, -⟩ := (acceptSecureFrame_eq_some_iff std).mp haccept
      obtain ⟨-, -, -, -, ps', body', hps', hpayload', -⟩ :=
        (acceptSecureFrame_eq_some_iff std).mp haccept'
      rw [hkey] at hpayload'
      rw [htid, ← sealed_inj (hpayload.symm.trans hpayload'), ← hps] at hps'
      have hnumber := transactionHeader_eq_some_iff.mpr ⟨body', hps'.symm⟩
      rw [transactionHeader_eq_some_iff.mpr ⟨body, rfl⟩] at hnumber
      have heq : a.transactionNumber = a'.transactionNumber := by
        injection (Option.some.inj hnumber)
      exact absurd hlt (by rw [heq]; exact UInt16.lt_irrefl _)
  show later.handleSecureFrame crates code' payload = (none, later)
  rw [handleSecureFrame, hnone]
  rfl

/-! ### A session opened and read in -/

theorem handleAuthentication1_eq {sys : EmulatedSystem} {areas services : List UInt16}
    {gsk usk : Block} (hkeys : sys.authenticationKeys crates areas services = some (gsk, usk))
    (challenge1a random2 : Block) :
    let context := AuthenticationContext.new crates sys.idm gsk usk
    let random1 := context.decryptChallenge1a crates challenge1a
    sys.handle crates (.authentication1 areas services challenge1a random2) =
      (some (26 :: AUTHENTICATION1_RESPONSE_CODE :: (sys.idm.toList
          ++ (context.encryptChallenge1b crates random1).toList
          ++ (context.encryptChallenge2a crates random2).toList)),
        { sys with
          pendingAuth := some ⟨context, random1, random2, services.map ServiceCode.mk⟩
          secureSession := none
          mode := .mode1 }) := by
  intro context random1
  have hframe : frameWithLengthPrefix (AUTHENTICATION1_RESPONSE_CODE :: (sys.idm.toList
      ++ (context.encryptChallenge1b crates random1).toList
      ++ (context.encryptChallenge2a crates random2).toList))
      = some (26 :: AUTHENTICATION1_RESPONSE_CODE :: (sys.idm.toList
        ++ (context.encryptChallenge1b crates random1).toList
        ++ (context.encryptChallenge2a crates random2).toList)) := by
    rw [frameWithLengthPrefix]
    simp only [List.length_cons, List.length_append, Vector.length_toList, MAX_PACKET_LEN]
    rw [if_neg (by decide)]
    rfl
  rw [handle, handleAuthentication1, hkeys]
  dsimp only
  rw [hframe]

def opened (sys : EmulatedSystem) (context : AuthenticationContext) (random1 random2 : Block)
    (services : List UInt16) : EmulatedSystem :=
  { sys with
    pendingAuth := some ⟨context, random1, random2, services.map ServiceCode.mk⟩
    secureSession := some ⟨0, transactionIdOf random1, random2, services.map ServiceCode.mk⟩
    mode := .mode2 }

include std in
theorem after_authentication {sys : EmulatedSystem} {areas services : List UInt16}
    {gsk usk : Block} (hkeys : sys.authenticationKeys crates areas services = some (gsk, usk))
    (challenge1a random2 : Block) :
    let context := AuthenticationContext.new crates sys.idm gsk usk
    sys.after crates [.authentication1 areas services challenge1a random2,
        .authentication2 (context.encryptChallenge2b crates random2)]
      = sys.opened context (context.decryptChallenge1a crates challenge1a) random2 services := by
  intro context
  rw [after_cons, handleAuthentication1_eq hkeys challenge1a random2, after_cons, handle]
  dsimp only
  rw [if_neg (by decide)]
  obtain ⟨header, -, h⟩ := @handleAuthentication2_eq _ _ std { sys with
      pendingAuth := some ⟨context, context.decryptChallenge1a crates challenge1a, random2,
        services.map ServiceCode.mk⟩
      secureSession := none
      mode := .mode1 } (context.encryptChallenge2b crates random2) _ rfl rfl
  exact congrArg Prod.snd h

include std in
/-- A frame with one block of the first service to read, sealed in an open session. -/
theorem handle_read_opened {sys : EmulatedSystem} {context : AuthenticationContext}
    {random1 random2 : Block} {services : List UInt16} {n : UInt16} {block : DataBlock}
    (h0 : 0 < n) (hmax : n ≠ 0xFFFF)
    (hread : (sys.opened context random1 random2 services).handleSecureRead
      (services.map ServiceCode.mk) [⟨0, 0, 0⟩] = ⟨(0x00, 0x00), some [block]⟩) :
    ∃ payload, ((sys.opened context random1 random2 services).handle crates
      (.secure READ_COMMAND_CODE payload)).1 ≠ none := by
  have hbody : (transactionPayload n (transactionIdOf random1)
      [1, 0x80, 0x00, 0, 0, 0, 0, 0]).length % 8 = 0 := by
    rw [transactionPayload_length]
    rfl
  obtain ⟨ps, hps⟩ := (exists_join_iff _).mpr hbody
  have hparse : parseSecurePayload READ_COMMAND_CODE [1, 0x80, 0x00, 0, 0, 0, 0, 0]
      = some (.read [⟨0, 0, 0⟩]) := by decide
  have haccept : (sys.opened context random1 random2 services).acceptSecureFrame crates
      READ_COMMAND_CODE (sealed cipher READ_COMMAND_CODE random2 ps)
        = some ⟨⟨0, transactionIdOf random1, random2, services.map ServiceCode.mk⟩, n,
          .read [⟨0, 0, 0⟩]⟩ :=
    (acceptSecureFrame_eq_some_iff std).mpr
      ⟨rfl, rfl, h0, hmax, ps, _, hps, rfl, hparse⟩
  obtain ⟨qs, -, hlen, hframe⟩ := buildSecureResponseFrameDes_eq std (READ_COMMAND_CODE + 1) (n + 1)
    (transactionIdOf random1) random2 (0x00 :: 0x00 :: 1 :: [block].flatMap Vector.toList)
  have h4 : qs.length = 4 := by simpa using hlen
  rw [if_neg (by omega)] at hframe
  have hexec : (sys.opened context random1 random2 services).execute (services.map ServiceCode.mk)
      (.read [⟨0, 0, 0⟩]) = some (⟨(0x00, 0x00), some [block]⟩, sys.opened context random1 random2
        services) := by
    rw [execute, hread]
  refine ⟨sealed cipher READ_COMMAND_CODE random2 ps, ?_⟩
  rw [handle, handleSecureFrame_eq haccept hexec rfl hframe fun h => absurd h.1 (by decide)]
  exact Option.some_ne_none _

end EmulatedSystem

/-! ### The card of the tests -/

namespace Fixture

def SYSTEM_KEY : Block := .ofNat 0x1122334455667788

def AREA_KEY : Block := .ofNat 0x21436587A9CBED0F

def SERVICE_KEY : Block := .ofNat 0x0102030405060708

def system : EmulatedSystem where
  systemCode := 0x0003
  idm := .ofNat 0x0102030405060708
  pmm := .ofNat 0x0100000000000000
  rootArea := ⟨0x0000, 0xFFFE, zeroBlock,
    [.area 0x0040 0x00FF AREA_KEY [.service ⟨⟨0x0048⟩, SERVICE_KEY, none, 0⟩]]⟩
  mode := .mode0
  systemKey := SYSTEM_KEY
  idi := .ofNat 0x1020304050607080
  pmi := .ofNat 0xA0A1A2A3A4A5A6A7
  pendingAuth := none
  secureSession := none
  store := [[Vector.replicate 16 0xAA]]

def keys (crates : CipherCrates) : Block × Block :=
  generateServiceKeysDes crates SYSTEM_KEY [AREA_KEY] [SERVICE_KEY]

theorem authenticationKeys_system (crates : CipherCrates) :
    system.authenticationKeys crates [0x0040] [0x0048] = some ((keys crates).1, (keys crates).2) := by
  rw [EmulatedSystem.authenticationKeys, if_neg (by decide)]
  rfl

theorem exists_answered {crates : CipherCrates} {cipher : KeyedPerm Block Block}
    (std : crates.Computes cipher) (challenge1a random2 : Block) :
    ∃ challenge2b payload,
      ((system.after crates [.authentication1 [0x0040] [0x0048] challenge1a random2,
        .authentication2 challenge2b]).handle crates (.secure READ_COMMAND_CODE payload)).1 ≠ none := by
  refine ⟨(AuthenticationContext.new crates system.idm (keys crates).1
    (keys crates).2).encryptChallenge2b crates random2, ?_⟩
  rw [EmulatedSystem.after_authentication std (authenticationKeys_system crates) challenge1a random2]
  exact EmulatedSystem.handle_read_opened std (by decide : (0 : UInt16) < 1) (by decide) rfl

end Fixture

/-- A read of the card, answered once: after another Authentication2 the same bytes are not
answered again. -/
theorem replayed_inert_read :
    ∃ (before : List EmulatedSystem.Command) (challenge2b : Block) (payload : List UInt8),
      let read := EmulatedSystem.Command.secure READ_COMMAND_CODE payload
      let later := Fixture.system.after nativeCrates (before ++ [read, .authentication2 challenge2b])
      ((Fixture.system.after nativeCrates before).handle nativeCrates read).1 ≠ none
        ∧ later.handle nativeCrates read = (none, later) := by
  obtain ⟨challenge2b, payload, hanswered⟩ :=
    Fixture.exists_answered nativeCrates_computes Fixture.AREA_KEY Fixture.SERVICE_KEY
  obtain ⟨-, -, -, hinert⟩ := EmulatedSystem.replayed_inert nativeCrates_computes
    (⟨rfl, rfl⟩ : EmulatedSystem.Fresh Fixture.system) _ [.authentication2 challenge2b] hanswered
    (by rintro _ (_ | _) _ _ _ _ ⟨⟩; contradiction)
  exact ⟨_, challenge2b, payload, hanswered, hinert _⟩

end SuiCash.Felica
