import SuiCash.Felica.Access

/-!
# One system of an emulated card

`emulator/system.rs`: the modes of a system, mutual authentication, and the secure frames
of a session.  A system answers a frame or stays silent; `silent_unchanged` says that one
that stays silent has not moved.

What comes over the air is a `Frame`; the card's random number comes with the
Authentication1 that draws it.
-/

namespace SuiCash.Felica

open Des Bytes Fallible Cipher

/-! ### Modes -/

inductive SystemMode where
  | mode0
  | mode1
  | mode2
  | mode3
  deriving DecidableEq

inductive ModeRequirement where
  | anyMode
  | unauthenticated
  | authenticationStarted
  | authenticated
  | issuing
  deriving DecidableEq

def SystemMode.permits (mode : SystemMode) : ModeRequirement → Bool
  | .anyMode => true
  | .unauthenticated => mode = .mode0
  | .authenticationStarted => mode = .mode1 ∨ mode = .mode2
  | .authenticated => mode = .mode2
  | .issuing => mode = .mode2 ∨ mode = .mode3

/-! ### The state -/

/-- `random1` seeds the transaction ID and `random2` becomes the session key. -/
structure PendingAuthentication where
  context : AuthenticationContext
  random1 : Block
  random2 : Block
  serviceCodes : List ServiceCode
  deriving DecidableEq

structure SecureSession where
  transactionNumber : UInt16
  transactionId : Vector UInt8 6
  transactionKey : Block
  serviceCodes : List ServiceCode
  deriving DecidableEq

/-- A system; its key version and what it reports to Polling, which no access reads, are left
out.  `store` holds the shared block vectors. -/
structure EmulatedSystem where
  systemCode : UInt16
  idm : Block
  pmm : Block
  rootArea : EmulatedArea
  mode : SystemMode
  systemKey : Block
  idi : Block
  pmi : Block
  pendingAuth : Option PendingAuthentication
  secureSession : Option SecureSession
  store : Store

/-! ### Node lists -/

/-- What a code of a service list names. -/
inductive ServiceListNode where
  | keyed (key : Block)
  | keyFree
  deriving DecidableEq

namespace EmulatedSystem

variable (sys : EmulatedSystem)

def areaListWellFormed (areas : List UInt16) : Bool :=
  match areas with
  | [] => false
  | first :: _ =>
    if first = SYSTEM_NODE_CODE ∨ (sys.rootArea.findArea first).isNone then false
    else areas.all fun code => code = SYSTEM_NODE_CODE ∨ (sys.rootArea.findArea code).isSome

def resolveServiceListNode (raw : UInt16) : Option ServiceListNode :=
  if raw = SYSTEM_NODE_CODE then some (.keyed sys.systemKey)
  else
    let code : ServiceCode := ⟨raw⟩
    match sys.rootArea.findService code with
    | some service => some (if code.requiresKey then .keyed service.key else .keyFree)
    | none => (sys.rootArea.findArea raw).map fun area => .keyed area.key

/-- The loop of `service_list_well_formed`, with its two flags. -/
def serviceListLoop : (hasAuthRequired seenAuthFree : Bool) → List UInt16 → Bool
  | hasAuthRequired, _, [] => hasAuthRequired
  | hasAuthRequired, seenAuthFree, raw :: rest =>
    match sys.resolveServiceListNode raw with
    | some (.keyed _) => if seenAuthFree then false else serviceListLoop true seenAuthFree rest
    | some .keyFree => serviceListLoop hasAuthRequired true rest
    | none => false

def serviceListWellFormed (services : List UInt16) : Bool := sys.serviceListLoop false false services

def areaListKey (code : UInt16) : Option Block :=
  if code = SYSTEM_NODE_CODE then some sys.systemKey
  else (sys.rootArea.findArea code).map EmulatedArea.key

/-- The keys of a service list, in order: a key-free service has none to give. -/
def serviceListKeys (services : List UInt16) : Option (List Block) :=
  (services.mapM sys.resolveServiceListNode).map fun nodes => nodes.filterMap fun
    | .keyed key => some key
    | .keyFree => none

/-! ### Authentication -/

abbrev Answer := Option (List UInt8) × EmulatedSystem

def silent : Answer := (none, sys)

variable (crates : CipherCrates)

/-- The group and the user key of two well-formed node lists. -/
def authenticationKeys (areas services : List UInt16) : Option (Block × Block) :=
  if ¬ sys.areaListWellFormed areas ∨ ¬ sys.serviceListWellFormed services then none
  else do
    let areaKeys ← areas.mapM sys.areaListKey
    let serviceKeys ← sys.serviceListKeys services
    some (generateServiceKeysDes crates sys.systemKey areaKeys serviceKeys)

/-- `handle_authentication1`; `random2` is the card's random number. -/
def handleAuthentication1 (idm : Block) (areas services : List UInt16) (challenge1a random2 : Block) :
    Answer :=
  match sys.authenticationKeys crates areas services with
  | none => sys.silent
  | some keys =>
    let context := AuthenticationContext.new crates idm keys.1 keys.2
    let random1 := context.decryptChallenge1a crates challenge1a
    let challenge1b := context.encryptChallenge1b crates random1
    let challenge2a := context.encryptChallenge2a crates random2
    (frameWithLengthPrefix
        (AUTHENTICATION1_RESPONSE_CODE :: (idm.toList ++ challenge1b.toList ++ challenge2a.toList)),
      { sys with
        pendingAuth := some ⟨context, random1, random2, services.map ServiceCode.mk⟩
        secureSession := none
        mode := .mode1 })

/-- The identifier that a challenge gives a session. -/
def transactionIdOf (random1 : Block) : Vector UInt8 6 :=
  ⟨((random1.toList.drop 2).take 6).toArray, by simp⟩

/-- The transaction number of the session that a repeated Authentication2 goes on with. -/
def carriedNumber (pending : PendingAuthentication) : UInt16 :=
  match sys.secureSession with
  | some session =>
    if session.transactionId = transactionIdOf pending.random1 then session.transactionNumber else 0
  | none => 0

def handleAuthentication2 (challenge2b : Block) : Answer :=
  match sys.pendingAuth with
  | none => sys.silent
  | some pending =>
    if pending.context.encryptChallenge2b crates pending.random2 ≠ challenge2b then sys.silent
    else
      let transactionId := transactionIdOf pending.random1
      let transactionNumber := sys.carriedNumber pending
      let payload := buildAuthentication2Payload transactionNumber transactionId sys.idi sys.pmi
      match encryptAuthentication2Payload crates payload pending.random2 with
      | none => sys.silent
      | some encryptedPayload =>
        (if encryptedPayload.length = 32 then
            frameWithLengthPrefix (AUTHENTICATION2_RESPONSE_CODE :: encryptedPayload)
          else none,
          { sys with
            secureSession :=
              some ⟨transactionNumber, transactionId, pending.random2, pending.serviceCodes⟩
            mode := .mode2 })

def resetMode : EmulatedSystem := { sys with mode := .mode0, pendingAuth := none, secureSession := none }

end EmulatedSystem

/-! ### Secure commands -/

def READ_COMMAND_CODE : UInt8 := 0x14
def WRITE_COMMAND_CODE : UInt8 := 0x16
def READ_V2_COMMAND_CODE : UInt8 := 0x44
def WRITE_V2_COMMAND_CODE : UInt8 := 0x46
def REGISTER_ISSUE_ID_COMMAND_CODE : UInt8 := 0x80
def REGISTER_AREA_COMMAND_CODE : UInt8 := 0x82
def REGISTER_SERVICE_COMMAND_CODE : UInt8 := 0x84
def CHANGE_SYSTEM_BLOCK_COMMAND_CODE : UInt8 := 0x8E

def isRegisterCommand (commandCode : UInt8) : Bool :=
  commandCode = REGISTER_ISSUE_ID_COMMAND_CODE ∨ commandCode = REGISTER_AREA_COMMAND_CODE
    ∨ commandCode = REGISTER_SERVICE_COMMAND_CODE ∨ commandCode = CHANGE_SYSTEM_BLOCK_COMMAND_CODE

def isSecureCommandCode (commandCode : UInt8) : Bool :=
  commandCode = READ_COMMAND_CODE ∨ commandCode = WRITE_COMMAND_CODE
    ∨ commandCode = READ_V2_COMMAND_CODE ∨ commandCode = WRITE_V2_COMMAND_CODE
    ∨ isRegisterCommand commandCode

/-- The secure commands, as far as the card looks at them; the v2 ones it does not answer. -/
inductive SecureCommand where
  | read (blockList : List BlockListElement)
  | write (blockList : List BlockListElement) (data : List UInt8)
  | registerIssueId
  | registerArea
  | registerService
  | changeSystemBlock
  | v2
  deriving DecidableEq

/-- `take_block_list`: elements of two or three bytes, by the high bit of the first. -/
def takeBlockList : (count : ℕ) → List UInt8 → Option (List BlockListElement × List UInt8)
  | 0, data => some ([], data)
  | count + 1, header :: data =>
    let element := fun word : UInt16 =>
      BlockListElement.mk word (header &&& 0x0F) ((header >>> 4) &&& 0x07)
    if header &&& 0x80 ≠ 0 then
      match data with
      | value :: data =>
        (takeBlockList count data).map fun r => (element value.toUInt16 :: r.1, r.2)
      | [] => none
    else
      match data with
      | lo :: hi :: data =>
        (takeBlockList count data).map fun r => (element (fromLeBytes lo hi) :: r.1, r.2)
      | _ => none
  | _ + 1, [] => none

/-- `take_count` of a block list: from one to 255. -/
def takeBlockCount : List UInt8 → Option (ℕ × List UInt8)
  | [] => none
  | count :: data => if count = 0 then none else some (count.toNat, data)

def parseSecurePayload (commandCode : UInt8) (payload : List UInt8) : Option SecureCommand :=
  if commandCode = READ_COMMAND_CODE ∨ commandCode = READ_V2_COMMAND_CODE then do
    let (count, payload) ← takeBlockCount payload
    let (blockList, _) ← takeBlockList count payload
    if commandCode = READ_V2_COMMAND_CODE then some .v2 else some (.read blockList)
  else if commandCode = WRITE_COMMAND_CODE ∨ commandCode = WRITE_V2_COMMAND_CODE then do
    let (count, payload) ← takeBlockCount payload
    let (blockList, payload) ← takeBlockList count payload
    if payload.length < count * BLOCK_SIZE then none
    else if commandCode = WRITE_V2_COMMAND_CODE then some .v2
    else some (.write blockList (payload.take (count * BLOCK_SIZE)))
  else if commandCode = REGISTER_ISSUE_ID_COMMAND_CODE then
    if payload.length < 16 then none else some .registerIssueId
  else if commandCode = REGISTER_AREA_COMMAND_CODE then
    if payload.length < 2 then none else some .registerArea
  else if commandCode = REGISTER_SERVICE_COMMAND_CODE then
    if payload.length < 2 then none else some .registerService
  else if commandCode = CHANGE_SYSTEM_BLOCK_COMMAND_CODE then
    if payload.isEmpty then some .changeSystemBlock else none
  else none

/-- What is parsed as a secure command has the code of one. -/
theorem isSecureCommandCode_of_parse {commandCode : UInt8} {payload : List UInt8}
    {command : SecureCommand} (h : parseSecurePayload commandCode payload = some command) :
    isSecureCommandCode commandCode = true := by
  by_contra hcode
  simp only [isSecureCommandCode, isRegisterCommand, decide_eq_true_eq, not_or] at hcode
  obtain ⟨hread, hwrite, hreadV2, hwriteV2, hissue, harea, hservice, hsystem⟩ := hcode
  rw [parseSecurePayload, if_neg (not_or.mpr ⟨hread, hreadV2⟩),
    if_neg (not_or.mpr ⟨hwrite, hwriteV2⟩), if_neg hissue, if_neg harea, if_neg hservice,
    if_neg hsystem] at h
  cases h

/-- The response to a read or a write: its status flags, and the blocks of a read. -/
structure AccessResponse where
  flags : StatusFlags
  blocks : Option (List DataBlock)
  deriving DecidableEq

/-- `to_secure_payload`, and what a plain response has behind the IDm: blocks follow a success
and nothing else, as many as a count byte can say. -/
def AccessResponse.toBytes (response : AccessResponse) : Option (List UInt8) :=
  let flags := [response.flags.1, response.flags.2]
  match response.blocks with
  | none => some flags
  | some blocks =>
    if response.flags.1 ≠ 0 then none
    else if blocks.length = 0 ∨ blocks.length > 255 then none
    else some (flags ++ UInt8.ofNat blocks.length :: blocks.flatMap Vector.toList)

def STATUS_UNSUPPORTED : StatusFlags := (0xFF, 0xC2)

namespace EmulatedSystem

variable (sys : EmulatedSystem)

/-- The read of a block list, with or without encryption. -/
def accessRead (serviceCodes : List ServiceCode) (blockList : List BlockListElement)
    (requireAuthFree : Bool) : AccessResponse :=
  match readBlocks sys.rootArea sys.store serviceCodes requireAuthFree 0 blockList with
  | .error flags => ⟨flags, none⟩
  | .ok blocks => ⟨(0x00, 0x00), some blocks⟩

/-- The write of a block list, with or without encryption. -/
def accessWrite (serviceCodes : List ServiceCode) (blockList : List BlockListElement)
    (data : List UInt8) (requireAuthFree : Bool) : AccessResponse × EmulatedSystem :=
  if data.length < blockList.length * BLOCK_SIZE then (⟨(0xFF, 0xAC), none⟩, sys)
  else
    match applyBlockWrites sys.rootArea sys.store serviceCodes blockList data requireAuthFree with
    | .ok store => (⟨(0x00, 0x00), none⟩, { sys with store })
    | .error flags => (⟨flags, none⟩, sys)

def handleSecureRead (serviceCodes : List ServiceCode) (blockList : List BlockListElement) :
    AccessResponse :=
  sys.accessRead serviceCodes blockList false

def handleSecureWrite (serviceCodes : List ServiceCode) (blockList : List BlockListElement)
    (data : List UInt8) : AccessResponse × EmulatedSystem :=
  sys.accessWrite serviceCodes blockList data false

/-- A command carried out; issuing is not supported. -/
def execute (serviceCodes : List ServiceCode) :
    SecureCommand → Option (AccessResponse × EmulatedSystem)
  | .read blockList => some (sys.handleSecureRead serviceCodes blockList, sys)
  | .write blockList data => some (sys.handleSecureWrite serviceCodes blockList data)
  | .registerIssueId | .registerArea | .registerService | .changeSystemBlock =>
    some (⟨STATUS_UNSUPPORTED, none⟩, sys)
  | .v2 => none

/-- A secure frame that the session accepts: its response number and its command. -/
structure Accepted where
  session : SecureSession
  transactionNumber : UInt16
  command : SecureCommand

variable (crates : CipherCrates)

/-- The checks of `handle_secure_frame`, up to the command: the mode, the MAC, the
transaction's identifier, a number above the last one and below the greatest. -/
def acceptSecureFrame (commandCode : UInt8) (encryptedPayload : List UInt8) : Option Accepted :=
  let requirement : ModeRequirement :=
    if isRegisterCommand commandCode then .issuing else .authenticated
  if ¬ sys.mode.permits requirement then none
  else do
    let session ← sys.secureSession
    let decrypted ← (decryptDesCbcZeroIv crates encryptedPayload session.transactionKey).toOption
    if ¬ checkPacketMacDes crates decrypted commandCode then none
    else if decrypted.length < DES_BLOCK_SIZE then none
    else
      let payload := decrypted.take (decrypted.length - DES_BLOCK_SIZE)
      let header ← transactionHeader payload
      if header.transactionId ≠ session.transactionId then none
      else if header.transactionNumber ≤ session.transactionNumber then none
      else if header.transactionNumber = 0xFFFF then none
      else
        let command ← parseSecurePayload commandCode (payload.drop 8)
        some ⟨session, header.transactionNumber, command⟩

def handleSecureFrame (commandCode : UInt8) (encryptedPayload : List UInt8) : Answer :=
  match sys.acceptSecureFrame crates commandCode encryptedPayload with
  | none => sys.silent
  | some ⟨session, transactionNumber, command⟩ =>
    match sys.execute session.serviceCodes command with
    | none => sys.silent
    | some (response, sys') =>
      match response.toBytes with
      | none => sys'.silent
      | some responsePayload =>
        let responseTransactionNumber := transactionNumber + 1
        match buildSecureResponseFrameDes crates (commandCode + 1) responseTransactionNumber
            session.transactionId session.transactionKey responsePayload with
        | none => sys'.silent
        | some frame =>
          (some frame, { sys' with
            mode :=
              if isRegisterCommand commandCode ∧ responsePayload.head? = some 0 then .mode3
              else sys'.mode
            secureSession := some { session with transactionNumber := responseTransactionNumber } })

/-! ### What comes over the air -/

def READ_WITHOUT_ENCRYPTION_RESPONSE_CODE : UInt8 := 0x07

def WRITE_WITHOUT_ENCRYPTION_RESPONSE_CODE : UInt8 := 0x09

def RESET_MODE_RESPONSE_CODE : UInt8 := 0x3F

inductive Command where
  | readWithoutEncryption (serviceCodes : List ServiceCode) (blockList : List BlockListElement)
  | writeWithoutEncryption (serviceCodes : List ServiceCode) (blockList : List BlockListElement)
    (data : List UInt8)
  | resetMode
  | authentication1 (areas services : List UInt16) (challenge1a random2 : Block)
  | authentication2 (challenge2b : Block)
  | secure (commandCode : UInt8) (encryptedPayload : List UInt8)

def addressed (code : UInt8) (body : List UInt8) : Option (List UInt8) :=
  frameWithLengthPrefix (code :: (sys.idm.toList ++ body))

/-- The branches of `handle_command` and `handle_secure_frame` for the commands that look at
or move a session or the blocks. -/
def handle : Command → Answer
  | .readWithoutEncryption serviceCodes blockList =>
    if ¬ sys.mode.permits .unauthenticated then sys.silent
    else
      ((sys.accessRead serviceCodes blockList true).toBytes.bind
        (sys.addressed READ_WITHOUT_ENCRYPTION_RESPONSE_CODE), sys)
  | .writeWithoutEncryption serviceCodes blockList data =>
    if ¬ sys.mode.permits .unauthenticated then sys.silent
    else
      let (response, sys') := sys.accessWrite serviceCodes blockList data true
      (response.toBytes.bind (sys.addressed WRITE_WITHOUT_ENCRYPTION_RESPONSE_CODE), sys')
  | .resetMode => (sys.addressed RESET_MODE_RESPONSE_CODE [0x00, 0x00], sys.resetMode)
  | .authentication1 areas services challenge1a random2 =>
    sys.handleAuthentication1 crates sys.idm areas services challenge1a random2
  | .authentication2 challenge2b =>
    if ¬ sys.mode.permits .authenticationStarted then sys.silent
    else sys.handleAuthentication2 crates challenge2b
  | .secure commandCode encryptedPayload => sys.handleSecureFrame crates commandCode encryptedPayload

/-- The system after some commands, answered or not. -/
def after (cs : List Command) : EmulatedSystem := cs.foldl (fun sys c => (sys.handle crates c).2) sys

theorem after_append (cs cs' : List Command) :
    sys.after crates (cs ++ cs') = (sys.after crates cs).after crates cs' := List.foldl_append

theorem after_cons (c : Command) (cs : List Command) :
    sys.after crates (c :: cs) = (sys.handle crates c).2.after crates cs := rfl

variable {sys crates}

/-- **Invariant rule** of a run of commands. -/
theorem after_invariant {I : EmulatedSystem → Prop} {cs : List Command}
    (hstep : ∀ sys, ∀ c ∈ cs, I sys → I (sys.handle crates c).2) (h : I sys) :
    I (sys.after crates cs) :=
  List.foldlRecOn (motive := I) cs _ h fun sys hsys c hc => hstep sys c hc hsys

end EmulatedSystem

end SuiCash.Felica
