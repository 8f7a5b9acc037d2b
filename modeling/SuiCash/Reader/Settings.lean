import SuiCash.Reader.Chipset

/-!
# What the Port-100 is known to hold

`usb-poc/vendor/felica/src/driver/port100/chipset.rs`, the commands that configure the
reader.  The host remembers the bitrates and the protocol values it has written and does
not write them again.

The reader has a state of its own, which a command that it was sent may have changed
(`Settings.Moves`), answered or not.  What the host remembers is so of every state that the
reader may have reached (`Known`), as long as every command that configures something was
answered (`KnownIfHeard`); each call keeps that.  Where an answer is lost the memory may be
wrong (`not_known_of_lost`).
-/

namespace SuiCash.Reader

open Bytes Fallible Slices Stateful

def IN_SET_PROTOCOL_DEFAULTS : List UInt8 :=
  [0x00, 0x18, 0x01, 0x01, 0x02, 0x01, 0x03, 0x00, 0x04, 0x00, 0x05, 0x00, 0x06, 0x00, 0x07, 0x08,
    0x08, 0x00, 0x09, 0x00, 0x0A, 0x00, 0x0B, 0x00, 0x0C, 0x00, 0x0E, 0x04, 0x0F, 0x00, 0x10, 0x00,
    0x11, 0x00, 0x12, 0x00, 0x13, 0x06]

def TG_SET_PROTOCOL_DEFAULTS : List UInt8 := [0x00, 0x01, 0x01, 0x01, 0x02, 0x07]

/-- Register `1A`, mask `C0`, value `40`. -/
def RF_NOISE_RESISTANT_IMPROVEMENT : UInt8 × UInt8 × UInt8 := (0x1A, 0xC0, 0x40)

def IN_SET_RCT_SETTING_NUM_MAX : ℕ := 16

/-- Two bytes of the property block, two of the PD data version, and the LT-Info. -/
def LT_INFO_TABLE : List (List UInt8) :=
  [[0, 0, 1, 1, 139, 91, 9, 236, 122, 221, 197, 129, 0, 151, 75, 95, 164, 118, 161, 213],
    [0, 1, 1, 0, 213, 159, 243, 133, 168, 199, 47, 105, 44, 65, 173, 1, 230, 180, 145, 103],
    [0, 6, 1, 0, 106, 206, 150, 130, 181, 221, 246, 214, 152, 205, 55, 232, 219, 31, 152, 186],
    [0, 8, 1, 0, 71, 212, 66, 85, 79, 225, 65, 241, 115, 21, 127, 202, 181, 114, 86, 210]]

/-! ### Plain commands -/

def ensureStatusOk (status : Option UInt8) : Action Unit :=
  match status with
  | none => pure ()
  | some code => if code = 0 then pure () else throw (.error (.Chipset (.Status code)))

def statusCommand (code : UInt8) (payload : List UInt8) : Action Unit := do
  let rsp ← sendCommand code payload
  ensureStatusOk rsp.head?

abbrev Protocol := Vector (Option UInt8) INITIATOR_PROTOCOL_KEYS

def unknownProtocol : Protocol := Vector.replicate INITIATOR_PROTOCOL_KEYS none

/-- Drops what is known about the initiator configuration. -/
def forgetInitiatorSettings : Action Unit :=
  modify fun c => { c with initiatorBitrate := none, initiatorProtocol := unknownProtocol }

def setCommandType (value : UInt8) : Action Unit := do
  statusCommand 0x2A [value]
  forgetInitiatorSettings

def getFirmwareVersion (option : Option UInt8) : Action (List UInt8) :=
  sendCommand 0x20 option.toList

def getPdDataVersion : Action (List UInt8) := sendCommand 0x22 []

def getProperty : Action (List UInt8) := sendCommand 0x24 []

/-- The pause after the command is left out. -/
def resetDevice (startupDelay : UInt16) : Action Unit := do
  let _ ← sendCommand 0x12 (toLeBytes startupDelay)
  write ACK_BYTES
  forgetInitiatorSettings

def switchRf (on : Bool) : Action Unit := do
  statusCommand 0x06 [if on then 1 else 0]
  forgetInitiatorSettings

/-! ### Protocol values -/

def asPairs : List UInt8 → List (UInt8 × UInt8)
  | key :: value :: rest => (key, value) :: asPairs rest
  | _ => []

/-- A value under a key that the reader defines. -/
def store (protocol : Protocol) (entry : UInt8 × UInt8) : Protocol :=
  protocol.setIfInBounds entry.1.toNat (some entry.2)

/-- The entries whose value is not known to be held. -/
def pendingEntries (protocol : Protocol) (entries : List (UInt8 × UInt8)) :
    List (UInt8 × UInt8) :=
  entries.filter fun entry => protocol[entry.1.toNat]?.join != some entry.2

def asPayload (entries : List (UInt8 × UInt8)) : List UInt8 :=
  entries.flatMap fun entry => [entry.1, entry.2]

def writeProtocolPayload (payload : List UInt8) : Action Unit :=
  if payload.isEmpty then pure ()
  else do
    statusCommand 0x02 payload
    modify fun c =>
      { c with initiatorProtocol := (asPairs payload).foldl store c.initiatorProtocol }

/-- Writes the initiator protocol keys whose value the reader does not hold yet, and nothing
at all when every one of them is already in place. -/
def writeInitiatorProtocol (entries : List (UInt8 × UInt8)) : Action Unit := do
  let c ← get
  writeProtocolPayload (asPayload (pendingEntries c.initiatorProtocol entries))

def applyInitiatorDefaults : Action Unit :=
  writeInitiatorProtocol (asPairs IN_SET_PROTOCOL_DEFAULTS)

def initiatorParamIndex : String → Option UInt8
  | "initial_guard_time" => some 0
  | "add_crc" => some 1
  | "check_crc" => some 2
  | "multi_card" => some 3
  | "add_parity" => some 4
  | "check_parity" => some 5
  | "bitwise_anticoll" => some 6
  | "last_byte_bit_count" => some 7
  | "mifare_crypto" => some 8
  | "add_sof" => some 9
  | "check_sof" => some 10
  | "add_eof" => some 11
  | "check_eof" => some 12
  | "rfu" => some 13
  | "deaf_time" => some 14
  | "continuous_receive_mode" => some 15
  | "min_len_for_crm" => some 16
  | "type_1_tag_rrdd" => some 17
  | "rfca" => some 18
  | "guard_time" => some 19
  | _ => none

def targetParamIndex : String → Option UInt8
  | "send_timeout_time_unit" => some 0
  | "rf_off_error" => some 1
  | "continuous_receive_mode" => some 2
  | _ => none

/-- Parameters under their keys, or the first name that has none. -/
def lookupAll (lookup : String → Option UInt8) (kind : String) (params : List (String × UInt8)) :
    Except (Stop DriverError) (List (UInt8 × UInt8)) :=
  params.mapM fun (name, value) =>
    match lookup name with
    | some key => .ok (key, value)
    | none => .error (.error (.Other s!"invalid {kind} {name}"))

def configureInitiator (params : List (String × UInt8)) : Action Unit := do
  let entries ← lift (lookupAll initiatorParamIndex "initiator protocol key" params)
  writeInitiatorProtocol entries

/-- `configure_protocol`, which only the target side uses. -/
def tgSetProtocol (data : List UInt8) (params : List (String × UInt8)) : Action Unit := do
  let entries ← lift (lookupAll targetParamIndex "target key" params)
  let payload := data ++ entries.flatMap fun entry => [entry.1, entry.2]
  if payload.isEmpty then pure () else statusCommand 0x42 payload

def applyTargetDefaults : Action Unit := tgSetProtocol TG_SET_PROTOCOL_DEFAULTS []

def configureTarget (params : List (String × UInt8)) : Action Unit := tgSetProtocol [] params

def targetRfParams : String → Option (UInt8 × UInt8)
  | "106A" => some (8, 11)
  | "212F" => some (8, 12)
  | "424F" => some (8, 13)
  | "212A" => some (8, 14)
  | "424A" => some (8, 15)
  | _ => none

def setTargetRf (commType : String) : Action Unit := do
  let params ← orElse (targetRfParams commType)
    (.error (.Other s!"unsupported comm type {commType}"))
  statusCommand 0x40 [params.1, params.2]
  forgetInitiatorSettings

/-! ### The receive tuning for FeliCa -/

/-- One length-prefixed block of three-byte register settings. -/
def takeRctBlock (body : List UInt8) (offset : ℕ) : Except (Stop DriverError) (List UInt8) :=
  match body[offset]? with
  | none => .error (.error (.Other "RCT block count is missing"))
  | some count =>
    match getSlice body (offset + 1) (offset + 1 + count.toNat * 3) with
    | none => .error (.error (.Other "RCT block is truncated"))
    | some block => .ok block

/-- The first setting of the register, if the block has one: whether it changes, and the
block it is in. -/
def replaceRctSetting (entry : UInt8 × UInt8 × UInt8) : List UInt8 → Option (Bool × List UInt8)
  | a :: b :: c :: rest =>
    if a = entry.1 ∧ b = entry.2.1 then
      if c = entry.2.2 then some (false, a :: b :: c :: rest)
      else some (true, a :: b :: entry.2.2 :: rest)
    else (replaceRctSetting entry rest).map fun r => (r.1, a :: b :: c :: r.2)
  | _ => none

/-- Merges one register setting into `settings`, returning whether the block has to be
written back. -/
def updateRctSetting (settings : List UInt8) (entry : UInt8 × UInt8 × UInt8) :
    Bool × List UInt8 :=
  match replaceRctSetting entry settings with
  | some result => result
  | none =>
    if settings.length / 3 ≥ IN_SET_RCT_SETTING_NUM_MAX then (false, settings)
    else (true, settings ++ [entry.1, entry.2.1, entry.2.2])

/-- The reference library reads the version bytes back to front. -/
def versionBytes : List UInt8 → Option (List UInt8)
  | low :: high :: _ => some [high, low]
  | _ => none

/-- Looks up the LT-Info that unlocks the RCT commands for this reader. -/
def ltInfo : Action (List UInt8) := do
  let property ← getProperty
  let model ← orElse (getSlice property 14 16) (.error (.Other "property block is too short"))
  let version ← getPdDataVersion
  let version ← orElse (versionBytes version) (.error (.Other "PD data version is too short"))
  orElse ((LT_INFO_TABLE.find? fun entry => entry.take 4 == model ++ version).map (·.drop 4))
    (.error (.Other "LT-Info unsupported reader/writer"))

/-- `&rsp[1..]` panics where the answer is empty. -/
def inGetRct (ltInfo : List UInt8) : Action (List UInt8 × List UInt8) := do
  let rsp ← sendCommand 0x32 ltInfo
  ensureStatusOk rsp.head?
  let body ← lift (slice rsp 1 rsp.length)
  let send ← lift (takeRctBlock body 0)
  let receive ← lift (takeRctBlock body (1 + send.length))
  pure (send, receive)

def inSetRct (ltInfo sendSetting receiveSetting : List UInt8) : Action Unit :=
  statusCommand 0x30 (ltInfo ++ UInt8.ofNat (sendSetting.length / 3) :: sendSetting
    ++ UInt8.ofNat (receiveSetting.length / 3) :: receiveSetting)

def tuneFelicaReceiveSettings : Action Unit := do
  let ltInfo ← ltInfo
  let settings ← inGetRct ltInfo
  let update := updateRctSetting settings.2 RF_NOISE_RESISTANT_IMPROVEMENT
  if update.1 then inSetRct ltInfo settings.1 update.2 else pure ()

/-- A failure is reported to the log, and the call returns. -/
def ignoringFailures (action : Action Unit) : Action Unit := fun c =>
  match action c with
  | (.error (.error _), c) => (.ok (), c)
  | result => result

def applyFelicaNoiseResistance : Action Unit := do
  let c ← get
  if c.noiseResistanceAttempted then pure ()
  else do
    modify fun c => { c with noiseResistanceAttempted := true }
    ignoringFailures tuneFelicaReceiveSettings

/-! ### The RF -/

def bitrateSettings : String → Option (UInt8 × UInt8 × UInt8 × UInt8)
  | "212F" => some (1, 1, 15, 1)
  | "424F" => some (1, 2, 15, 2)
  | "106A" => some (2, 3, 15, 3)
  | "212A" => some (4, 4, 15, 4)
  | "424A" => some (5, 5, 15, 5)
  | "106B" => some (3, 7, 15, 7)
  | "212B" => some (3, 8, 15, 8)
  | "424B" => some (3, 9, 15, 9)
  | _ => none

def endsWithChar (s : String) (c : Char) : Bool := s.toList.getLast? == some c

def setInitiatorRf (bitrateSend : String) (bitrateRecv : Option String) : Action Unit := do
  let recv := bitrateRecv.getD bitrateSend
  let c ← get
  if c.initiatorBitrate = some (bitrateSend, recv) then pure ()
  else do
    let sendCfg ← orElse (bitrateSettings bitrateSend)
      (.error (.Other s!"unsupported bitrate {bitrateSend}"))
    let recvCfg ← orElse (bitrateSettings recv) (.error (.Other s!"unsupported bitrate {recv}"))
    statusCommand 0x00 [sendCfg.1, sendCfg.2.1, recvCfg.2.2.1, recvCfg.2.2.2]
    forgetInitiatorSettings
    modify fun c => { c with initiatorBitrate := some (bitrateSend, recv) }
    if endsWithChar bitrateSend 'F' then applyFelicaNoiseResistance else pure ()

/-! ### What the reader holds -/

/-- What a reader holds: the parameters of its RF, and the protocol values. -/
structure Settings where
  rf : List UInt8
  protocol : Vector UInt8 INITIATOR_PROTOCOL_KEYS

namespace Settings

/-- A value under a key that the reader defines. -/
def put (protocol : Vector UInt8 INITIATOR_PROTOCOL_KEYS) (entry : UInt8 × UInt8) :
    Vector UInt8 INITIATOR_PROTOCOL_KEYS :=
  protocol.setIfInBounds entry.1.toNat entry.2

/-- The answer says that the command was carried out. -/
def StatusOk (response : List UInt8) : Prop := response.head?.getD 0 = 0

instance (response : List UInt8) : Decidable (StatusOk response) :=
  inferInstanceAs (Decidable (_ = _))

/-- What a command does that is carried out.  A change of the RF re-initialises the protocol
values, and a reset, the command type, the RF switch and the target mode may leave anything. -/
def Effect (code : UInt8) (payload : List UInt8) (s s' : Settings) : Prop :=
  if code = 0x00 then s'.rf = payload
  else if code = 0x02 then s'.rf = s.rf ∧ s'.protocol = (asPairs payload).foldl put s.protocol
  else if code = 0x12 ∨ code = 0x2A ∨ code = 0x06 ∨ code = 0x40 then True
  else s' = s

/-- What a reader may do that is sent a command.  The answer tells whether it was carried out,
and without one it may have been. -/
def Moves : Asked → Settings → Settings → Prop
  | (code, payload, none), s, s' => s' = s ∨ Effect code payload s s'
  | (code, payload, some response), s, s' =>
    if code = 0x12 ∨ StatusOk response then Effect code payload s s' else s' = s

/-- What a reader may hold after the commands that it was sent, whatever it held before. -/
inductive Reached : List Asked → Settings → Prop where
  | opened (s : Settings) : Reached [] s
  | asked {sent : List Asked} {entry : Asked} {s s' : Settings} :
      Reached sent s → Moves entry s s' → Reached (sent ++ [entry]) s'

theorem reached_append_iff {sent : List Asked} {entry : Asked} {s' : Settings} :
    Reached (sent ++ [entry]) s' ↔ ∃ s, Reached sent s ∧ Moves entry s s' := by
  constructor
  · intro h
    generalize hall : sent ++ [entry] = all at h
    cases h with
    | opened =>
      rw [List.append_eq_nil_iff] at hall
      exact absurd hall.2 (List.cons_ne_nil _ _)
    | asked h hmoves =>
      obtain ⟨rfl, hlast⟩ := List.append_inj' hall rfl
      cases hlast
      exact ⟨_, h, hmoves⟩
  · rintro ⟨s, h, hmoves⟩
    exact .asked h hmoves

def Harmless (code : UInt8) : Prop :=
  code ≠ 0x12 ∧ code ≠ 0x00 ∧ code ≠ 0x02 ∧ code ≠ 0x2A ∧ code ≠ 0x06 ∧ code ≠ 0x40

instance (code : UInt8) : Decidable (Harmless code) := inferInstanceAs (Decidable (_ ∧ _))

theorem moves_harmless {code : UInt8} (h : Harmless code) {payload : List UInt8}
    {answer : Option (List UInt8)} {s s' : Settings} (hmoves : Moves (code, payload, answer) s s') :
    s' = s := by
  obtain ⟨h1, h2, h3, h4, h5, h6⟩ := h
  cases answer <;> simpa [Moves, Effect, h1, h2, h3, h4, h5, h6] using hmoves

/-- A command that is refused changes nothing, unless it is a reset. -/
theorem moves_refused {code : UInt8} (hcode : code ≠ 0x12) {payload response : List UInt8}
    (h : ¬ StatusOk response) {s s' : Settings} (hmoves : Moves (code, payload, some response) s s') :
    s' = s := by
  rwa [Moves, if_neg (not_or.mpr ⟨hcode, h⟩)] at hmoves

theorem moves_statusOk {code : UInt8} {payload response : List UInt8} (h : StatusOk response)
    {s s' : Settings} (hmoves : Moves (code, payload, some response) s s') :
    Effect code payload s s' := by
  rwa [Moves, if_pos (.inr h)] at hmoves

end Settings

def rfParams (bitrates : String × String) : Option (List UInt8) := do
  let sendCfg ← bitrateSettings bitrates.1
  let recvCfg ← bitrateSettings bitrates.2
  some [sendCfg.1, sendCfg.2.1, recvCfg.2.2.1, recvCfg.2.2.2]

/-- What the host remembers is so. -/
structure Agrees (c : Chipset) (s : Settings) : Prop where
  protocol : ∀ {k : ℕ} {v : UInt8}, c.initiatorProtocol[k]? = some (some v) → s.protocol[k]? = some v
  rf : ∀ {bitrates : String × String}, c.initiatorBitrate = some bitrates →
    rfParams bitrates = some s.rf

/-- What the host remembers is so of any reader that was sent what it was sent. -/
def Known (c : Chipset) : Prop := ∀ s, Settings.Reached c.asked s → Agrees c s

/-- Every command that configures something was answered. -/
def Heard (sent : List Asked) : Prop :=
  ∀ entry ∈ sent, ¬ Settings.Harmless entry.1 → entry.2.2.isSome

instance (sent : List Asked) : Decidable (Heard sent) :=
  inferInstanceAs (Decidable (∀ entry ∈ sent, _))

theorem heard_append_iff {sent : List Asked} {entry : Asked} :
    Heard (sent ++ [entry]) ↔ Heard sent ∧ (¬ Settings.Harmless entry.1 → entry.2.2.isSome) := by
  simp only [Heard, List.forall_mem_append, List.forall_mem_singleton]

/-- The host knows its reader, if it has heard of everything that configures it. -/
def KnownIfHeard (c : Chipset) : Prop := Heard c.asked → Known c

/-! ### What a command leaves alone -/

/-- What the host remembers, and the commands that it rests on. -/
def Chipset.memory (c : Chipset) : Option (String × String) × Protocol × List Asked :=
  (c.initiatorBitrate, c.initiatorProtocol, c.asked)

theorem heard_memory_iff {c c' : Chipset} {entry : Asked}
    (hmem : c'.memory = (c.initiatorBitrate, c.initiatorProtocol, c.asked ++ [entry])) :
    Heard c'.asked ↔ Heard c.asked ∧ (¬ Settings.Harmless entry.1 → entry.2.2.isSome) := by
  rw [show c'.asked = _ from congrArg (·.2.2) hmem, heard_append_iff]

theorem Known.congr {c c' : Chipset} (h : Known c) (hmem : c'.memory = c.memory) : Known c' := by
  simp only [Chipset.memory, Prod.mk.injEq] at hmem
  obtain ⟨hbitrate, hprotocol, hasked⟩ := hmem
  intro s hs
  have hagrees := h s (hasked ▸ hs)
  exact ⟨fun hk => hagrees.protocol (hprotocol ▸ hk), fun hb => hagrees.rf (hbitrate ▸ hb)⟩

theorem KnownIfHeard.congr {c c' : Chipset} (h : KnownIfHeard c) (hmem : c'.memory = c.memory) :
    KnownIfHeard c' :=
  fun hheard => (h ((congrArg (·.2.2) hmem : c'.asked = c.asked) ▸ hheard)).congr hmem

/-- Where nothing is remembered, nothing is wrong. -/
theorem known_of_nothing {c : Chipset} (hbitrate : c.initiatorBitrate = none)
    (hprotocol : c.initiatorProtocol = unknownProtocol) : Known c := by
  refine fun s _ => ⟨fun {k v} hk => ?_, fun hb => ?_⟩
  · rw [hprotocol, unknownProtocol, Vector.getElem?_replicate] at hk
    split at hk <;> cases hk
  · rw [hbitrate] at hb
    cases hb

theorem Known.keep {c c' : Chipset} {entry : Asked} (h : Known c)
    (hmem : c'.memory = (c.initiatorBitrate, c.initiatorProtocol, c.asked ++ [entry]))
    (hmoves : ∀ {s s' : Settings}, Settings.Moves entry s s' → s' = s) : Known c' := by
  simp only [Chipset.memory, Prod.mk.injEq] at hmem
  obtain ⟨hbitrate, hprotocol, hasked⟩ := hmem
  intro s' hs'
  rw [hasked] at hs'
  obtain ⟨s, hs, hmove⟩ := Settings.reached_append_iff.mp hs'
  obtain rfl := hmoves hmove
  exact ⟨fun hk => (h _ hs).protocol (hprotocol ▸ hk), fun hb => (h _ hs).rf (hbitrate ▸ hb)⟩

/-- The call leaves the memory alone. -/
def Forgetful {α : Type} (m : Action α) : Prop := ∀ memory, Keeps (fun c => c.memory = memory) m

theorem forgetful_readExact (len : ℕ) : Forgetful (readExact len) := fun _ _ h => h

theorem forgetful_write (data : List UInt8) : Forgetful (write data) := fun _ _ h => h

theorem Forgetful.withRecovery {α : Type} {m : Action α} (h : Forgetful m) (drainBuffer : Bool) :
    Forgetful (withRecovery drainBuffer m) := by
  intro memory c hc
  have hm := h memory hc
  show (Reader.withRecovery drainBuffer m c).2.memory = memory
  rw [Reader.withRecovery]
  split
  · rename_i heq
    rw [heq] at hm
    exact hm
  · exact hm

theorem forgetful_readAckFrame : Forgetful readAckFrame := by
  intro memory
  refine (forgetful_readExact _ memory).bind fun bytes => ?_
  cases (Frame.parse bytes : Option Port100Frame) with
  | none => exact keeps_throw _
  | some frame =>
    show Keeps _ (if frame.frameType = .Ack then pure () else fail _)
    split
    · exact keeps_pure _
    · exact keeps_throw _

theorem forgetful_readFrameBytes : Forgetful readFrameBytes := by
  intro memory
  refine (forgetful_readExact _ memory).bind fun frame => ?_
  split
  · exact keeps_throw _
  · refine (keeps_lift _).bind fun b3 => (keeps_lift _).bind fun b4 => ?_
    split
    · exact (forgetful_readExact _ memory).bind fun extended => (keeps_lift _).bind fun lo =>
        (keeps_lift _).bind fun hi => (forgetful_readExact _ memory).bind fun tail => keeps_pure _
    · exact (forgetful_readExact _ memory).bind fun tail => keeps_pure _

theorem forgetful_readCommandResponse (code : UInt8) : Forgetful (readCommandResponse code) := by
  intro memory
  have hresponse : Forgetful readResponseFrame := by
    intro memory
    refine (forgetful_readFrameBytes memory).bind fun bytes => ?_
    cases (Frame.parse bytes : Option Port100Frame) with
    | none => exact keeps_throw _
    | some frame => exact keeps_pure _
  refine (forgetful_readAckFrame.withRecovery false memory).bind fun _ =>
    (hresponse.withRecovery true memory).bind fun frame => ?_
  rw [extractResponsePayload]
  cases frame.payload with
  | none => exact keeps_throw _
  | some payload =>
    show Keeps _ (if payload[0]? = some 0xD7 ∧ payload[1]? = some (code + 1) then
      lift (slice payload 2 payload.length) else fail _)
    split
    · exact keeps_lift _
    · exact keeps_throw _

/-- **What a command does to the memory**: it is put down there, with its answer. -/
theorem memory_sendCommand (code : UInt8) (payload : List UInt8) (c : Chipset) :
    (sendCommand code payload c).2.memory = (c.initiatorBitrate, c.initiatorProtocol,
      c.asked ++ [(code, payload, (sendCommand code payload c).1.toOption)]) := by
  have hforgetful : Forgetful (do
      let frame ← commandFrame code payload
      withRecovery false (write frame.raw)
      readCommandResponse code) := fun memory =>
    (keeps_lift _).bind fun frame => ((forgetful_write frame.raw).withRecovery false memory).bind
      fun _ => forgetful_readCommandResponse code memory
  have hmem := hforgetful c.memory rfl
  simp only [Chipset.memory, Prod.mk.injEq] at hmem ⊢
  exact ⟨hmem.1, hmem.2.1, congrArg (· ++ _) hmem.2.2⟩

/-! ### The memory is right -/

/-- The command was carried out, and the memory has not followed yet. -/
def CarriedOut (code : UInt8) (payload : List UInt8) (c c' : Chipset) : Prop :=
  ∃ response, Settings.StatusOk response
    ∧ c'.memory = (c.initiatorBitrate, c.initiatorProtocol,
      c.asked ++ [(code, payload, some response)])

theorem CarriedOut.heard {code : UInt8} {payload : List UInt8} {c c' : Chipset}
    (h : CarriedOut code payload c c') : Heard c'.asked ↔ Heard c.asked := by
  obtain ⟨response, -, hmem⟩ := h
  exact (heard_memory_iff hmem).trans (and_iff_left fun _ => rfl)

/-- What the reader holds then, from what it held. -/
theorem CarriedOut.effect {code : UInt8} {payload : List UInt8} {c c' : Chipset}
    (h : CarriedOut code payload c c') {s' : Settings} (hs' : Settings.Reached c'.asked s') :
    ∃ s, Settings.Reached c.asked s ∧ Settings.Effect code payload s s' := by
  obtain ⟨response, hok, hmem⟩ := h
  rw [show c'.asked = _ from congrArg (·.2.2) hmem] at hs'
  obtain ⟨s, hs, hmoves⟩ := Settings.reached_append_iff.mp hs'
  exact ⟨s, hs, Settings.moves_statusOk hok hmoves⟩

theorem CarriedOut.caches {code : UInt8} {payload : List UInt8} {c c' : Chipset}
    (h : CarriedOut code payload c c') :
    c'.initiatorBitrate = c.initiatorBitrate ∧ c'.initiatorProtocol = c.initiatorProtocol := by
  obtain ⟨response, -, hmem⟩ := h
  exact ⟨congrArg (·.1) hmem, congrArg (·.2.1) hmem⟩

theorem heard_sendCommand {code : UInt8} (h : Settings.Harmless code) (payload : List UInt8) :
    Keeps (fun c => Heard c.asked) (sendCommand code payload) := by
  intro c hc
  exact (heard_memory_iff (memory_sendCommand code payload c)).mpr
    ⟨hc, fun hnot => absurd h hnot⟩

theorem known_sendCommand {code : UInt8} (h : Settings.Harmless code) (payload : List UInt8) :
    Keeps KnownIfHeard (sendCommand code payload) := by
  intro c hc hheard
  have hmem := memory_sendCommand code payload c
  exact (hc ((heard_memory_iff hmem).mp hheard).1).keep hmem (Settings.moves_harmless h)

theorem ensureStatusOk_apply (response : List UInt8) (c : Chipset) :
    (Settings.StatusOk response ∧ ensureStatusOk response.head? c = (.ok (), c))
      ∨ (¬ Settings.StatusOk response ∧ ∃ e, ensureStatusOk response.head? c = (.error e, c)) := by
  cases response with
  | nil => exact .inl ⟨rfl, rfl⟩
  | cons status rest =>
    by_cases hstatus : status = 0
    · refine .inl ⟨hstatus, ?_⟩
      show (if status = 0 then pure () else throw _ : Action Unit) c = _
      rw [if_pos hstatus, pure_apply]
    · refine .inr ⟨hstatus, .error (.Chipset (.Status status)), ?_⟩
      show (if status = 0 then pure () else throw _ : Action Unit) c = _
      rw [if_neg hstatus, throw_apply]

/-- A command with a status fails and leaves the memory right, or it is carried out. -/
theorem statusCommand_apply {code : UInt8} (hcode : code ≠ 0x12) (payload : List UInt8)
    {c : Chipset} (hc : KnownIfHeard c) :
    (∃ e c', statusCommand code payload c = (.error e, c') ∧ KnownIfHeard c')
      ∨ ∃ c', statusCommand code payload c = (.ok (), c') ∧ CarriedOut code payload c c' := by
  have hmem := memory_sendCommand code payload c
  rcases hsend : sendCommand code payload c with ⟨e | response, c'⟩ <;> rw [hsend] at hmem
  · -- a command that is not answered is harmless, or it leaves the host in the dark
    refine .inl ⟨e, c', bind_of_error hsend, fun hheard => ?_⟩
    have hheard := (heard_memory_iff hmem).mp hheard
    by_cases hharmless : Settings.Harmless code
    · exact (hc hheard.1).keep hmem (Settings.moves_harmless hharmless)
    · exact absurd (hheard.2 hharmless) Bool.false_ne_true
  · rcases ensureStatusOk_apply response c' with ⟨hok, hstatus⟩ | ⟨hnot, e, hstatus⟩
    · exact .inr ⟨c', (bind_of_ok hsend).trans hstatus, response, hok, hmem⟩
    · refine .inl ⟨e, c', (bind_of_ok hsend).trans hstatus, fun hheard => ?_⟩
      have hheard := (heard_memory_iff hmem).mp hheard
      exact (hc hheard.1).keep hmem (Settings.moves_refused hcode hnot)

/-- A command whose effect the memory follows in what comes next. -/
theorem known_statusCommand_bind {code : UInt8} (hcode : code ≠ 0x12) {payload : List UInt8}
    {next : Unit → Action Unit}
    (hnext : ∀ c c', KnownIfHeard c → CarriedOut code payload c c' → KnownIfHeard (next () c').2) :
    Keeps KnownIfHeard (statusCommand code payload >>= next) := by
  intro c hc
  rcases statusCommand_apply hcode payload hc with ⟨e, c', hsend, hc'⟩ | ⟨c', hsend, hcarried⟩
  · rw [bind_of_error hsend]
    exact hc'
  · rw [bind_of_ok hsend]
    exact hnext c c' hc hcarried

theorem known_setCommandType (value : UInt8) : Keeps KnownIfHeard (setCommandType value) :=
  known_statusCommand_bind (by decide) fun _ _ _ _ _ => known_of_nothing rfl rfl

theorem known_switchRf (on : Bool) : Keeps KnownIfHeard (switchRf on) :=
  known_statusCommand_bind (by decide) fun _ _ _ _ _ => known_of_nothing rfl rfl

theorem known_setTargetRf (commType : String) : Keeps KnownIfHeard (setTargetRf commType) :=
  (keeps_lift _).bind fun _ =>
    known_statusCommand_bind (by decide) fun _ _ _ _ _ => known_of_nothing rfl rfl

/-- What is stored in the memory and in the reader alike stays the same there. -/
theorem foldl_store_put (entries : List (UInt8 × UInt8)) {known : Protocol}
    {held : Vector UInt8 INITIATOR_PROTOCOL_KEYS}
    (h : ∀ {k : ℕ} {v : UInt8}, known[k]? = some (some v) → held[k]? = some v) {k : ℕ} {v : UInt8}
    (hk : (entries.foldl store known)[k]? = some (some v)) :
    (entries.foldl Settings.put held)[k]? = some v := by
  induction entries generalizing known held with
  | nil => exact h hk
  | cons entry entries ih =>
    refine ih (fun {k' v'} hk' => ?_) hk
    rw [store, Vector.getElem?_setIfInBounds] at hk'
    rw [Settings.put, Vector.getElem?_setIfInBounds]
    split at hk'
    · rename_i hkey
      rw [if_pos hkey]
      split at hk'
      · rename_i hlt
        rw [if_pos hlt]
        exact Option.some.inj hk'
      · cases hk'
    · rename_i hkey
      rw [if_neg hkey]
      exact h hk'

theorem known_writeProtocolPayload (payload : List UInt8) :
    Keeps KnownIfHeard (writeProtocolPayload payload) := by
  rw [writeProtocolPayload]
  split
  · exact keeps_pure _
  · refine known_statusCommand_bind (by decide) fun c c' hc hcarried hheard s' hs' => ?_
    obtain ⟨s, hs, heffect⟩ := hcarried.effect hs'
    obtain ⟨hrf, hprotocol⟩ := heffect
    obtain ⟨hbitrateC, hprotocolC⟩ := hcarried.caches
    have hagrees := hc (hcarried.heard.mp hheard) s hs
    constructor
    · intro k v hk
      rw [hprotocol]
      exact foldl_store_put _ (fun hk => hagrees.protocol (hprotocolC ▸ hk)) hk
    · intro bitrates hb
      rw [hrf]
      exact hagrees.rf (hbitrateC ▸ hb)

theorem known_writeInitiatorProtocol (entries : List (UInt8 × UInt8)) :
    Keeps KnownIfHeard (writeInitiatorProtocol entries) :=
  keeps_get.bind fun _ => known_writeProtocolPayload _

theorem known_configureInitiator (params : List (String × UInt8)) :
    Keeps KnownIfHeard (configureInitiator params) :=
  (keeps_lift _).bind known_writeInitiatorProtocol

theorem ensureStatusOk_snd (response : List UInt8) (c : Chipset) :
    (ensureStatusOk response.head? c).2 = c := by
  rcases ensureStatusOk_apply response c with ⟨-, h⟩ | ⟨-, e, h⟩ <;> rw [h]

section Tuning

variable {I : Chipset → Prop}

theorem keeps_ignoringFailures {m : Action Unit} (h : Keeps I m) :
    Keeps I (ignoringFailures m) := by
  intro c hc
  have hm := h hc
  show I (ignoringFailures m c).2
  rw [ignoringFailures]
  split
  · rename_i heq
    rw [heq] at hm
    exact hm
  · exact hm

variable (hI : ∀ {code : UInt8}, Settings.Harmless code → ∀ payload, Keeps I (sendCommand code payload))

include hI

/-- The receive tuning keeps what commands without effect keep. -/
theorem keeps_tuneFelicaReceiveSettings : Keeps I tuneFelicaReceiveSettings := by
  have hstatus : ∀ response : List UInt8, Keeps I (ensureStatusOk response.head?) := by
    intro response c hc
    rwa [ensureStatusOk_snd]
  have hltInfo : Keeps I ltInfo :=
    (hI (by decide) _).bind fun property => (keeps_lift _).bind fun model =>
      (hI (by decide) _).bind fun version => (keeps_lift _).bind fun _ => keeps_lift _
  refine hltInfo.bind fun info => Keeps.bind ?_ fun settings => ?_
  · exact (hI (by decide) _).bind fun rsp => (hstatus rsp).bind fun _ =>
      (keeps_lift _).bind fun body => (keeps_lift _).bind fun send =>
        (keeps_lift _).bind fun receive => keeps_pure _
  · show Keeps I (if (updateRctSetting settings.2 RF_NOISE_RESISTANT_IMPROVEMENT).1 then
      inSetRct info settings.1 (updateRctSetting settings.2 RF_NOISE_RESISTANT_IMPROVEMENT).2
      else pure ())
    cases (updateRctSetting settings.2 RF_NOISE_RESISTANT_IMPROVEMENT).1 with
    | true => exact (hI (show Settings.Harmless 0x30 by decide) _).bind fun rsp => hstatus rsp
    | false => exact keeps_pure _

theorem keeps_applyFelicaNoiseResistance
    (hflag : ∀ c, I c → I { c with noiseResistanceAttempted := true }) :
    Keeps I applyFelicaNoiseResistance := by
  refine keeps_get.bind fun c => ?_
  split
  · exact keeps_pure _
  · exact (keeps_modify hflag).bind fun _ =>
      keeps_ignoringFailures (keeps_tuneFelicaReceiveSettings hI)

end Tuning

theorem known_applyFelicaNoiseResistance : Keeps KnownIfHeard applyFelicaNoiseResistance :=
  keeps_applyFelicaNoiseResistance known_sendCommand fun _ hc => hc.congr rfl

/-- A command leaves the remembered settings alone, whatever it is. -/
theorem caches_sendCommand (caches : Option (String × String) × Protocol) (code : UInt8)
    (payload : List UInt8) :
    Keeps (fun c => (c.initiatorBitrate, c.initiatorProtocol) = caches)
      (sendCommand code payload) := by
  intro c hc
  have hmem := memory_sendCommand code payload c
  simp only [Chipset.memory, Prod.mk.injEq] at hmem
  rw [← hc, hmem.1, hmem.2.1]

theorem caches_applyFelicaNoiseResistance (caches : Option (String × String) × Protocol) :
    Keeps (fun c => (c.initiatorBitrate, c.initiatorProtocol) = caches)
      applyFelicaNoiseResistance :=
  keeps_applyFelicaNoiseResistance (fun _ => caches_sendCommand caches _) fun _ hc => hc

/-- After the RF is set its bitrates are remembered, and no protocol value. -/
theorem known_rfSet {bitrates : String × String} {params : List UInt8}
    (hparams : rfParams bitrates = some params) {c c' : Chipset}
    (h : CarriedOut 0x00 params c c') :
    Known { c' with initiatorBitrate := some bitrates, initiatorProtocol := unknownProtocol } := by
  intro s' hs'
  obtain ⟨s, -, hrf⟩ := h.effect hs'
  constructor
  · exact (known_of_nothing (c := { c' with
      initiatorBitrate := none, initiatorProtocol := unknownProtocol }) rfl rfl s' hs').protocol
  · rintro _ ⟨⟩
    rw [hparams]
    exact congrArg some (show s'.rf = params from hrf).symm

theorem known_setInitiatorRf (bitrateSend : String) (bitrateRecv : Option String) :
    Keeps KnownIfHeard (setInitiatorRf bitrateSend bitrateRecv) := by
  refine keeps_get.bind fun c0 => ?_
  split
  · exact keeps_pure _
  · intro c hc
    cases hsend : bitrateSettings bitrateSend with
    | none => exact hc
    | some sendCfg =>
      cases hrecv : bitrateSettings (bitrateRecv.getD bitrateSend) with
      | none => exact hc
      | some recvCfg =>
        have hparams : rfParams (bitrateSend, bitrateRecv.getD bitrateSend)
            = some [sendCfg.1, sendCfg.2.1, recvCfg.2.2.1, recvCfg.2.2.2] := by
          rw [rfParams, hsend, hrecv]
          rfl
        refine known_statusCommand_bind (by decide) (fun _ c' _ hcarried => ?_) hc
        have hknown := known_rfSet hparams hcarried
        show KnownIfHeard ((if endsWithChar bitrateSend 'F' then applyFelicaNoiseResistance
          else pure () : Action Unit) _).2
        split
        · exact known_applyFelicaNoiseResistance fun _ => hknown
        · exact fun _ => hknown

/-! ### What a successful call leaves -/

theorem asPairs_asPayload (entries : List (UInt8 × UInt8)) :
    asPairs (asPayload entries) = entries := by
  induction entries with
  | nil => rfl
  | cons entry entries ih => exact congrArg (entry :: ·) ih

theorem asPayload_isEmpty (entries : List (UInt8 × UInt8)) :
    (asPayload entries).isEmpty = entries.isEmpty := by
  cases entries <;> rfl

theorem statusCommand_memory {code : UInt8} {payload : List UInt8} {c c' : Chipset}
    (h : statusCommand code payload c = (.ok (), c')) : CarriedOut code payload c c' := by
  obtain ⟨response, c1, hsend, hstatus⟩ := bind_eq_ok.mp h
  have hmem := memory_sendCommand code payload c
  rw [hsend] at hmem
  rcases ensureStatusOk_apply response c1 with ⟨hok, hstatus'⟩ | ⟨-, e, hstatus'⟩ <;>
    rw [hstatus] at hstatus' <;> cases hstatus'
  exact ⟨response, hok, hmem⟩

theorem writeInitiatorProtocol_ok {entries : List (UInt8 × UInt8)} {c c' : Chipset}
    (h : writeInitiatorProtocol entries c = (.ok (), c')) :
    (Heard c.asked → Heard c'.asked) ∧ c'.initiatorBitrate = c.initiatorBitrate
      ∧ c'.initiatorProtocol
        = (pendingEntries c.initiatorProtocol entries).foldl store c.initiatorProtocol := by
  change writeProtocolPayload (asPayload (pendingEntries c.initiatorProtocol entries)) c = _ at h
  rw [writeProtocolPayload, asPayload_isEmpty] at h
  split at h
  · rename_i hempty
    cases h
    rw [List.isEmpty_iff.mp hempty]
    exact ⟨id, rfl, rfl⟩
  · obtain ⟨⟨⟩, c1, hcommand, h⟩ := bind_eq_ok.mp h
    cases h
    have hcarried := statusCommand_memory hcommand
    obtain ⟨hbitrate, hprotocol⟩ := hcarried.caches
    refine ⟨hcarried.heard.mpr, hbitrate, ?_⟩
    show (asPairs _).foldl store c1.initiatorProtocol = _
    rw [asPairs_asPayload, hprotocol]

theorem store_of_held {protocol : Protocol} {entry : UInt8 × UInt8}
    (h : protocol[entry.1.toNat]?.join = some entry.2) : store protocol entry = protocol := by
  have hvalue := Option.join_eq_some_iff.mp h
  obtain ⟨hlt, hget⟩ := Vector.getElem?_eq_some_iff.mp hvalue
  ext1 k hk
  rw [store, Vector.getElem_setIfInBounds]
  split
  · rename_i hkey
    subst hkey
    exact hget.symm
  · rfl

/-- **Leaving out what is held makes no difference**, where no key is written twice. -/
theorem foldl_store_pending {entries : List (UInt8 × UInt8)} (hkeys : (entries.map Prod.fst).Nodup)
    {known protocol : Protocol}
    (hagree : ∀ entry ∈ entries, protocol[entry.1.toNat]? = known[entry.1.toNat]?) :
    (pendingEntries known entries).foldl store protocol = entries.foldl store protocol := by
  induction entries generalizing protocol with
  | nil => rfl
  | cons entry entries ih =>
    obtain ⟨hentry, hagree⟩ := List.forall_mem_cons.mp hagree
    obtain ⟨hnew, hkeys⟩ := List.nodup_cons.mp hkeys
    by_cases hheld : known[entry.1.toNat]?.join = some entry.2
    · have hskip : pendingEntries known (entry :: entries) = pendingEntries known entries := by
        rw [pendingEntries, List.filter_cons_of_neg (by simp [hheld])]
        rfl
      rw [hskip, ih hkeys hagree, List.foldl_cons, store_of_held (hentry ▸ hheld)]
    · have hsend : pendingEntries known (entry :: entries)
          = entry :: pendingEntries known entries := by
        rw [pendingEntries, List.filter_cons_of_pos (by simp [hheld])]
        rfl
      rw [hsend, List.foldl_cons, List.foldl_cons]
      refine ih hkeys fun other hother => ?_
      have hkey : entry.1.toNat ≠ other.1.toNat := by
        intro h
        exact hnew (UInt8.toNat_inj.mp h ▸ List.mem_map_of_mem hother)
      rw [store, Vector.getElem?_setIfInBounds_ne hkey, hagree other hother]

/-- **A write that returns leaves what a plain write of every entry would.** -/
theorem writeInitiatorProtocol_plain {entries : List (UInt8 × UInt8)}
    (hkeys : (entries.map Prod.fst).Nodup) {c c' : Chipset}
    (h : writeInitiatorProtocol entries c = (.ok (), c')) :
    (Heard c.asked → Heard c'.asked) ∧ c'.initiatorBitrate = c.initiatorBitrate
      ∧ c'.initiatorProtocol = entries.foldl store c.initiatorProtocol := by
  obtain ⟨hheard, hbitrate, hprotocol⟩ := writeInitiatorProtocol_ok h
  exact ⟨hheard, hbitrate, hprotocol.trans (foldl_store_pending hkeys fun _ _ => rfl)⟩

/-- An RF configuration that returns was heard, and is in place. -/
theorem setInitiatorRf_ok {bitrateSend : String} {bitrateRecv : Option String} {c c' : Chipset}
    (h : setInitiatorRf bitrateSend bitrateRecv c = (.ok (), c')) :
    (Heard c.asked → Heard c'.asked)
      ∧ c'.initiatorBitrate = some (bitrateSend, bitrateRecv.getD bitrateSend) := by
  obtain ⟨c0, c1, hget, h⟩ := bind_eq_ok.mp h
  cases hget
  split at h
  · rename_i hsame
    cases h
    exact ⟨id, hsame⟩
  · obtain ⟨sendCfg, c1, hsend, h⟩ := bind_eq_ok.mp h
    obtain ⟨recvCfg, c2, hrecv, h⟩ := bind_eq_ok.mp h
    obtain ⟨⟨⟩, c3, hcommand, h⟩ := bind_eq_ok.mp h
    have hstate : c2 = c := (Prod.mk.inj hrecv).2.symm.trans (Prod.mk.inj hsend).2.symm
    have hcarried := (statusCommand_memory (hstate ▸ hcommand)).heard
    change (if endsWithChar bitrateSend 'F' then applyFelicaNoiseResistance else pure () :
      Action Unit) _ = _ at h
    split at h
    · have hkeep := caches_applyFelicaNoiseResistance _ (s := { c3 with
        initiatorBitrate := some (bitrateSend, bitrateRecv.getD bitrateSend)
        initiatorProtocol := unknownProtocol }) rfl
      rw [h] at hkeep
      refine ⟨fun hheard => ?_, (Prod.mk.inj hkeep).1⟩
      have hsent := keeps_applyFelicaNoiseResistance heard_sendCommand (fun _ hc => hc)
        (s := { c3 with
          initiatorBitrate := some (bitrateSend, bitrateRecv.getD bitrateSend)
          initiatorProtocol := unknownProtocol }) (hcarried.mpr hheard)
      rwa [h] at hsent
    · cases h
      exact ⟨hcarried.mpr, rfl⟩

/-! ### A lost answer -/

theorem Settings.exists_moves (entry : Asked) (s : Settings) : ∃ s', Settings.Moves entry s s' := by
  have heffect : ∀ code payload, ∃ s', Settings.Effect code payload s s' := by
    intro code payload
    by_cases hrf : code = 0x00
    · exact ⟨⟨payload, s.protocol⟩, by rw [Settings.Effect, if_pos hrf]⟩
    · by_cases hprotocol : code = 0x02
      · exact ⟨⟨s.rf, (asPairs payload).foldl Settings.put s.protocol⟩, by
          rw [Settings.Effect, if_neg hrf, if_pos hprotocol]; exact ⟨rfl, rfl⟩⟩
      · refine ⟨s, ?_⟩
        rw [Settings.Effect, if_neg hrf, if_neg hprotocol]
        split
        · trivial
        · rfl
  match entry with
  | (_, _, none) => exact ⟨s, .inl rfl⟩
  | (code, payload, some response) =>
    by_cases hdone : code = 0x12 ∨ Settings.StatusOk response
    · obtain ⟨s', hs'⟩ := heffect code payload
      exact ⟨s', by rwa [Settings.Moves, if_pos hdone]⟩
    · exact ⟨s, by rw [Settings.Moves, if_neg hdone]⟩

theorem Settings.exists_reached (sent : List Asked) : ∃ s, Settings.Reached sent s := by
  induction sent using List.reverseRecOn with
  | nil => exact ⟨⟨[], Vector.replicate _ 0⟩, .opened _⟩
  | append_singleton sent entry ih =>
    obtain ⟨s, hs⟩ := ih
    obtain ⟨s', hs'⟩ := Settings.exists_moves entry s
    exact ⟨s', .asked hs hs'⟩

/-- **Where the answer to an RF configuration is lost, the memory may be wrong**: the call has
left before it forgot the bitrates, and the reader may run at the new ones. -/
theorem not_known_of_lost {bitrates : String × String} {params : List UInt8} {c c' : Chipset}
    {e : Stop DriverError} (hremembered : c.initiatorBitrate = some bitrates)
    (hother : rfParams bitrates ≠ some params) (h : sendCommand 0x00 params c = (.error e, c')) :
    ¬ Known c' := by
  intro hknown
  have hmem := memory_sendCommand 0x00 params c
  rw [h] at hmem
  simp only [Chipset.memory, Prod.mk.injEq] at hmem
  obtain ⟨hbitrate, -, hasked⟩ := hmem
  obtain ⟨s, hs⟩ := Settings.exists_reached c.asked
  have hreached : Settings.Reached c'.asked ⟨params, s.protocol⟩ :=
    hasked ▸ .asked hs (.inr (by rw [Settings.Effect, if_pos rfl]))
  exact hother ((hknown _ hreached).rf (hbitrate.trans hremembered))

end SuiCash.Reader
