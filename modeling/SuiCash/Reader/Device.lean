import SuiCash.Lib.Hex
import SuiCash.Lib.Runs
import SuiCash.Reader.Crc
import SuiCash.Reader.Settings

/-!
# Exchanges with a card

`usb-poc/vendor/felica/src/driver/port100/device.rs`, with the exchange command of
`chipset.rs` and the faults of `driver/errors.rs`.

An exchange configures the reader for its target first, and what is configured already is
not configured again.
-/

namespace SuiCash.Reader

open Bytes Fallible Slices Stateful

/-! ### Faults -/

namespace CommunicationFault

def fromStatus (bytes : List UInt8) : Option CommunicationFault :=
  match bytes with
  | b0 :: b1 :: b2 :: b3 :: _ => some ⟨UInt32.ofNat (leNat [b0, b1, b2, b3])⟩
  | _ => none

def asStr (fault : CommunicationFault) : String :=
  if fault.errno = 0x00000000 then "NO_ERROR"
  else if fault.errno = 0x00000001 then "PROTOCOL_ERROR"
  else if fault.errno = 0x00000002 then "PARITY_ERROR"
  else if fault.errno = 0x00000004 then "CRC_ERROR"
  else if fault.errno = 0x00000008 then "COLLISION_ERROR"
  else if fault.errno = 0x00000010 then "OVERFLOW_ERROR"
  else if fault.errno = 0x00000040 then "TEMPERATURE_ERROR"
  else if fault.errno = 0x00000080 then "RECEIVE_TIMEOUT_ERROR"
  else if fault.errno = 0x00000100 then "CRYPTO1_ERROR"
  else if fault.errno = 0x00000200 then "RFCA_ERROR"
  else if fault.errno = 0x00000400 then "RF_OFF_ERROR"
  else if fault.errno = 0x00000800 then "TRANSMIT_TIMEOUT_ERROR"
  else if fault.errno = 0x80000000 then "RECEIVE_LENGTH_ERROR"
  else "UNKNOWN_ERROR"

def isTimeout (fault : CommunicationFault) : Bool := fault.errno == 0x00000080

def isRfOff (fault : CommunicationFault) : Bool := fault.errno == 0x00000400

def toText (fault : CommunicationFault) : String :=
  "chipset communication error 0x" ++ Hex.encode (leBytes 4 fault.errno.toNat).reverse
    ++ ": " ++ fault.asStr

def toDriverError (fault : CommunicationFault) (treatRfOffAsBroken : Bool) : DriverError :=
  if treatRfOffAsBroken && fault.isRfOff then .Communication (.BrokenLink fault.toText)
  else if fault.isTimeout then .Communication (.Timeout fault.toText)
  else .Communication (.Transmission fault.toText)

end CommunicationFault

/-- A fault of the chipset is one of the communication. -/
def mapFault (treatRfOffAsBroken : Bool) : DriverError → DriverError
  | .Chipset (.Fault fault) => fault.toDriverError treatRfOffAsBroken
  | e => e

def withMappedFault {α : Type} (treatRfOffAsBroken : Bool) (action : Action α) : Action α :=
  fun c =>
    let (result, c) := action c
    (result.mapError (Stop.map (mapFault treatRfOffAsBroken)), c)

/-! ### The exchange command -/

/-- Tenths of a millisecond, with a margin; zero means no timeout. -/
def timeoutUnits (timeout : UInt16) : UInt16 :=
  if timeout > 0 then UInt16.ofNat (min ((timeout.toNat + 1) * 10) 0xFFFF) else 0

def exchangePayload (data : List UInt8) (timeout : UInt16) : List UInt8 :=
  toLeBytes (timeoutUnits timeout) ++ data

/-- The answer behind four bytes of status and one more. -/
def readExchange (rsp : List UInt8) : Action (List UInt8) :=
  if 4 ≤ rsp.length ∧ rsp.take 4 ≠ [0, 0, 0, 0] then
    throw (.error (.Chipset (.Fault ((CommunicationFault.fromStatus (rsp.take 4)).getD ⟨0⟩))))
  else pure (rsp.drop 5)

def initiatorExchangeRf (data : List UInt8) (timeout : UInt16) : Action (List UInt8) := do
  let rsp ← sendCommand 0x04 (exchangePayload data timeout)
  readExchange rsp

/-! ### Targets -/

/-- What of a target plays a part in an exchange. -/
structure RemoteTarget where
  bitrateSend : String
  bitrateRecv : String
  selRes : Option (List UInt8)

/-- A Type 2 Tag: an NFC-A target whose SEL_RES has bits 5..6 clear. -/
def isType2_106a (target : RemoteTarget) : Bool :=
  target.bitrateSend == "106A"
    && (((target.selRes.bind List.head?).map fun b => b &&& 0x60 == 0x00).getD false)

def initiatorParamsForBitrate (bitrate : String) : List (String × UInt8) :=
  (if endsWithChar bitrate 'A' then [("add_parity", 1), ("check_parity", 1)] else [])
    ++ if endsWithChar bitrate 'B' then
      [("initial_guard_time", 20), ("add_sof", 1), ("check_sof", 1), ("add_eof", 1),
        ("check_eof", 1)]
      else []

structure InitiatorExchangeProfile where
  params : List (String × UInt8)
  stripCrcA : Bool
  deriving DecidableEq

def InitiatorExchangeProfile.forTarget (target : RemoteTarget) : InitiatorExchangeProfile :=
  let params := initiatorParamsForBitrate target.bitrateSend
  let stripCrcA := isType2_106a target
  ⟨if stripCrcA then params ++ [("check_crc", 0)] else params, stripCrcA⟩

def InitiatorExchangeProfile.applyTo (profile : InitiatorExchangeProfile) : Action Unit :=
  if profile.params.isEmpty then pure () else configureInitiator profile.params

/-! ### Transceive -/

def prepareInitiatorExchange (target : RemoteTarget) : Action InitiatorExchangeProfile := do
  setInitiatorRf target.bitrateSend (some target.bitrateRecv)
  applyInitiatorDefaults
  let profile := InitiatorExchangeProfile.forTarget target
  profile.applyTo
  pure profile

def exchangeAsInitiator (data : List UInt8) (timeout : UInt16) : Action (List UInt8) :=
  withMappedFault false (initiatorExchangeRf data timeout)

def transceiveType2WithCrc (data : List UInt8) (timeout : UInt16) : Action (List UInt8) := do
  let response ← exchangeAsInitiator data timeout
  if response.length > 2 ∧ checkCrcA response = false then
    throw (.error (.Communication (.Transmission "crc_a check error")))
  else if response.length > 2 then pure (response.take (response.length - 2))
  else pure response

def performInitiatorExchange (data : List UInt8) (timeout : UInt16)
    (profile : InitiatorExchangeProfile) : Action (List UInt8) :=
  if profile.stripCrcA then transceiveType2WithCrc data timeout
  else exchangeAsInitiator data timeout

def transceive (target : RemoteTarget) (data : List UInt8) (timeoutMs : Option UInt16) :
    Action (List UInt8) := do
  let profile ← prepareInitiatorExchange target
  performInitiatorExchange data (timeoutMs.getD 0) profile

/-! ### Opening the reader -/

def clearGarbage : List Arrival → List Arrival
  | .packet _ :: arrivals => clearGarbage arrivals
  | .timedOut :: arrivals | .failed _ :: arrivals | .elapsed :: arrivals => arrivals
  | [] => []

def Chipset.fresh (transport : Transport) : Chipset :=
  ⟨transport, (0, 0), [], none, false, unknownProtocol, []⟩

/-- Command type 1, or 0 where the chipset refuses it. -/
def negotiateCommandType : Action Unit := fun c =>
  match setCommandType 1 c with
  | (.error (.error (.Chipset (.Status _))), c) => setCommandType 0 c
  | result => result

/-- The version is indexed, and an answer that is too short panics. -/
def openChipset : Action Unit := do
  write ACK_BYTES
  modify fun c => { c with transport.arrivals := clearGarbage c.transport.arrivals }
  negotiateCommandType
  let version ← getFirmwareVersion (some 0x60)
  let major ← lift (index version 0)
  let minor ← lift (index version 1)
  modify fun c => { c with firmwareVersion := (major, minor) }
  let _ ← getPdDataVersion
  switchRf false

def Chipset.new (transport : Transport) : Except (Stop DriverError) Unit × Chipset :=
  openChipset (.fresh transport)

/-! ### Runs of calls -/

inductive Call where
  | setCommandType (value : UInt8)
  | getFirmwareVersion (option : Option UInt8)
  | getPdDataVersion
  | getProperty
  | resetDevice (startupDelay : UInt16)
  | switchRf (on : Bool)
  | applyInitiatorDefaults
  | configureInitiator (params : List (String × UInt8))
  | setInitiatorRf (bitrateSend : String) (bitrateRecv : Option String)
  | initiatorExchangeRf (data : List UInt8) (timeout : UInt16)
  | setTargetRf (commType : String)
  | applyTargetDefaults
  | configureTarget (params : List (String × UInt8))
  | transceive (target : RemoteTarget) (data : List UInt8) (timeoutMs : Option UInt16)

/-- The call, without the value it returns. -/
def Call.perform : Call → Action Unit
  | .setCommandType value => Reader.setCommandType value
  | .getFirmwareVersion option => do let _ ← Reader.getFirmwareVersion option
  | .getPdDataVersion => do let _ ← Reader.getPdDataVersion
  | .getProperty => do let _ ← Reader.getProperty
  | .resetDevice startupDelay => Reader.resetDevice startupDelay
  | .switchRf on => Reader.switchRf on
  | .applyInitiatorDefaults => Reader.applyInitiatorDefaults
  | .configureInitiator params => Reader.configureInitiator params
  | .setInitiatorRf bitrateSend bitrateRecv => Reader.setInitiatorRf bitrateSend bitrateRecv
  | .initiatorExchangeRf data timeout => do let _ ← Reader.initiatorExchangeRf data timeout
  | .setTargetRf commType => Reader.setTargetRf commType
  | .applyTargetDefaults => Reader.applyTargetDefaults
  | .configureTarget params => Reader.configureTarget params
  | .transceive target data timeoutMs => do let _ ← Reader.transceive target data timeoutMs

/-- A call that fails leaves the reader open. -/
def callStep (c : Chipset) (call : Call) : Option Chipset := some (call.perform c).2

/-- A reset that the reader has answered returns: the acknowledgement that comes after it is
written, and the settings are forgotten. -/
def Whole (c : Chipset) (call : Call) : Prop :=
  ∀ startupDelay, call = .resetDevice startupDelay →
    Heard (resetDevice startupDelay c).2.asked → (resetDevice startupDelay c).1 = .ok ()

theorem known_readExchange (rsp : List UInt8) : Keeps KnownIfHeard (readExchange rsp) := by
  rw [readExchange]
  split
  · exact keeps_throw _
  · exact keeps_pure _

theorem known_initiatorExchangeRf (data : List UInt8) (timeout : UInt16) :
    Keeps KnownIfHeard (initiatorExchangeRf data timeout) :=
  (known_sendCommand (by decide) _).bind known_readExchange

theorem known_exchangeAsInitiator (data : List UInt8) (timeout : UInt16) :
    Keeps KnownIfHeard (exchangeAsInitiator data timeout) :=
  fun _ hc => known_initiatorExchangeRf data timeout hc

theorem known_applyTo (profile : InitiatorExchangeProfile) : Keeps KnownIfHeard profile.applyTo := by
  rw [InitiatorExchangeProfile.applyTo]
  split
  · exact keeps_pure _
  · exact known_configureInitiator _

theorem known_prepareInitiatorExchange (target : RemoteTarget) :
    Keeps KnownIfHeard (prepareInitiatorExchange target) :=
  (known_setInitiatorRf _ _).bind fun _ => (known_writeInitiatorProtocol _).bind fun _ =>
    (known_applyTo _).bind fun _ => keeps_pure _

theorem known_transceive (target : RemoteTarget) (data : List UInt8) (timeoutMs : Option UInt16) :
    Keeps KnownIfHeard (transceive target data timeoutMs) := by
  refine (known_prepareInitiatorExchange target).bind fun profile => ?_
  rw [performInitiatorExchange]
  split
  · refine (known_exchangeAsInitiator _ _).bind fun response => ?_
    split
    · exact keeps_throw _
    · split
      · exact keeps_pure _
      · exact keeps_pure _
  · exact known_exchangeAsInitiator _ _

theorem known_tgSetProtocol (data : List UInt8) (params : List (String × UInt8)) :
    Keeps KnownIfHeard (tgSetProtocol data params) := by
  refine (keeps_lift _).bind fun entries => ?_
  show Keeps KnownIfHeard (if (data ++ _).isEmpty then pure () else statusCommand 0x42 _)
  split
  · exact keeps_pure _
  · exact (known_sendCommand (by decide) _).bind fun rsp => fun c hc => by
      rwa [ensureStatusOk_snd]

/-- A reset that returns leaves nothing remembered. -/
theorem known_resetDevice {startupDelay : UInt16} {c : Chipset}
    (hwhole : Heard (resetDevice startupDelay c).2.asked →
      (resetDevice startupDelay c).1 = .ok ()) : KnownIfHeard (resetDevice startupDelay c).2 := by
  intro hheard
  have hok : resetDevice startupDelay c = (.ok (), (resetDevice startupDelay c).2) :=
    Prod.ext (hwhole hheard) rfl
  obtain ⟨response, c1, -, hok⟩ := bind_eq_ok.mp hok
  obtain ⟨⟨⟩, c2, -, hok⟩ := bind_eq_ok.mp hok
  rw [← (Prod.mk.inj hok).2]
  exact known_of_nothing rfl rfl

/-- **A call keeps the memory right**, a reset if it is not left half done. -/
theorem known_perform {c : Chipset} (call : Call) (hwhole : Whole c call) (hc : KnownIfHeard c) :
    KnownIfHeard (call.perform c).2 := by
  have hdiscard : ∀ {α : Type} {m : Action α}, Keeps KnownIfHeard m →
      Keeps KnownIfHeard (do let _ ← m : Action Unit) := fun h => h.bind fun _ => keeps_pure _
  cases call with
  | setCommandType value => exact known_setCommandType value hc
  | getFirmwareVersion option => exact hdiscard (known_sendCommand (by decide) _) hc
  | getPdDataVersion => exact hdiscard (known_sendCommand (by decide) _) hc
  | getProperty => exact hdiscard (known_sendCommand (by decide) _) hc
  | resetDevice startupDelay => exact known_resetDevice (hwhole startupDelay rfl)
  | switchRf on => exact known_switchRf on hc
  | applyInitiatorDefaults => exact known_writeInitiatorProtocol _ hc
  | configureInitiator params => exact known_configureInitiator params hc
  | setInitiatorRf bitrateSend bitrateRecv => exact known_setInitiatorRf _ _ hc
  | initiatorExchangeRf data timeout => exact hdiscard (known_initiatorExchangeRf data timeout) hc
  | setTargetRf commType => exact known_setTargetRf commType hc
  | applyTargetDefaults => exact known_tgSetProtocol _ _ hc
  | configureTarget params => exact known_tgSetProtocol _ _ hc
  | transceive target data timeoutMs => exact hdiscard (known_transceive target data timeoutMs) hc

theorem known_new (transport : Transport) : KnownIfHeard (Chipset.new transport).2 := by
  have hwrite : Keeps KnownIfHeard (write ACK_BYTES) := fun c hc =>
    hc.congr (forgetful_write ACK_BYTES c.memory rfl)
  have hnegotiate : Keeps KnownIfHeard negotiateCommandType := by
    intro c hc
    have hfirst := known_setCommandType 1 hc
    show KnownIfHeard (negotiateCommandType c).2
    rw [negotiateCommandType]
    split
    · rename_i heq
      rw [heq] at hfirst
      exact known_setCommandType 0 hfirst
    · exact hfirst
  have hversion : Keeps KnownIfHeard (getFirmwareVersion (some 0x60)) := known_sendCommand (by decide) _
  have hdata : Keeps KnownIfHeard getPdDataVersion := known_sendCommand (by decide) _
  have hopen : Keeps KnownIfHeard openChipset :=
    hwrite.bind fun _ => (keeps_modify fun c hc => hc.congr rfl).bind fun _ =>
      hnegotiate.bind fun _ => hversion.bind fun version => (keeps_lift _).bind fun major =>
        (keeps_lift _).bind fun minor => (keeps_modify fun c hc => hc.congr rfl).bind fun _ =>
          hdata.bind fun _ => known_switchRf false
  exact hopen fun _ => known_of_nothing rfl rfl

theorem known_run {c c' : Chipset} {calls : List Call} (hc : KnownIfHeard c)
    (hwhole : Runs.Along callStep Whole c calls) (hrun : Runs.run callStep c calls = some c') :
    KnownIfHeard c' := by
  refine Runs.invariant (fun {s call s'} hs hcall hknown => ?_) hwhole hc hrun
  cases hs
  exact known_perform call hcall hknown

/-! ### Configured for a target -/

/-- The protocol values of the profile, under their keys. -/
def profileEntries (target : RemoteTarget) : List (UInt8 × UInt8) :=
  (InitiatorExchangeProfile.forTarget target).params.filterMap fun (name, value) =>
    (initiatorParamIndex name).map fun key => (key, value)

/-- The protocol values that an exchange with the target needs. -/
def requiredProtocol (target : RemoteTarget) : Protocol :=
  (asPairs IN_SET_PROTOCOL_DEFAULTS ++ profileEntries target).foldl store unknownProtocol

/-- The reader is configured for the target: its RF runs at the target's bitrates, and every
protocol value is the one that is needed, but for key `0x0D`, which nothing sets. -/
def ConfiguredFor (target : RemoteTarget) (s : Settings) : Prop :=
  rfParams (target.bitrateSend, target.bitrateRecv) = some s.rf
    ∧ ∀ k ≠ 0x0D, s.protocol[k]? = (requiredProtocol target)[k]?.join

theorem profileEntries_spec (target : RemoteTarget) :
    lookupAll initiatorParamIndex "initiator protocol key"
        (InitiatorExchangeProfile.forTarget target).params = .ok (profileEntries target)
      ∧ ((profileEntries target).map Prod.fst).Nodup := by
  rw [profileEntries]
  simp only [InitiatorExchangeProfile.forTarget, initiatorParamsForBitrate]
  cases endsWithChar target.bitrateSend 'A' <;> cases endsWithChar target.bitrateSend 'B' <;>
    cases isType2_106a target <;> exact ⟨rfl, by decide⟩

theorem foldl_store_congr {entries : List (UInt8 × UInt8)} {p q : Protocol} {k : ℕ}
    (h : (∃ entry ∈ entries, entry.1.toNat = k) ∨ p[k]? = q[k]?) :
    (entries.foldl store p)[k]? = (entries.foldl store q)[k]? := by
  induction entries generalizing p q with
  | nil =>
    rcases h with ⟨entry, hentry, -⟩ | h
    · cases hentry
    · exact h
  | cons entry entries ih =>
    rw [List.foldl_cons, List.foldl_cons]
    apply ih
    by_cases hkey : entry.1.toNat = k
    · right
      rw [store, store, Vector.getElem?_setIfInBounds, Vector.getElem?_setIfInBounds, if_pos hkey,
        if_pos hkey]
    · rcases h with ⟨other, hother, hk⟩ | h
      · rcases List.mem_cons.mp hother with rfl | hother
        · exact absurd hk hkey
        · exact .inl ⟨other, hother, hk⟩
      · right
        rw [store, store, Vector.getElem?_setIfInBounds, Vector.getElem?_setIfInBounds,
          if_neg hkey, if_neg hkey, h]

theorem defaults_cover {k : ℕ} (hlt : k < INITIATOR_PROTOCOL_KEYS) (hk : k ≠ 0x0D) :
    ∃ entry ∈ asPairs IN_SET_PROTOCOL_DEFAULTS, entry.1.toNat = k := by
  have hall : ∀ k < 0x14, k ≠ 0x0D →
      ((asPairs IN_SET_PROTOCOL_DEFAULTS).any fun entry => entry.1.toNat == k) = true := by decide
  obtain ⟨entry, hentry, heq⟩ := List.any_eq_true.mp (hall k hlt hk)
  exact ⟨entry, hentry, beq_iff_eq.mp heq⟩

theorem defaults_nodup : ((asPairs IN_SET_PROTOCOL_DEFAULTS).map Prod.fst).Nodup := by decide

theorem foldl_store_isSome {entries : List (UInt8 × UInt8)} {p : Protocol} {k : ℕ}
    (hlt : k < INITIATOR_PROTOCOL_KEYS)
    (h : (∃ entry ∈ entries, entry.1.toNat = k) ∨ ∃ v, p[k]? = some (some v)) :
    ∃ v, (entries.foldl store p)[k]? = some (some v) := by
  induction entries generalizing p with
  | nil =>
    rcases h with ⟨entry, hentry, -⟩ | h
    · cases hentry
    · exact h
  | cons entry entries ih =>
    rw [List.foldl_cons]
    apply ih
    by_cases hkey : entry.1.toNat = k
    · right
      exact ⟨entry.2, by rw [store, Vector.getElem?_setIfInBounds, if_pos hkey, if_pos (hkey ▸ hlt)]⟩
    · rcases h with ⟨other, hother, hk⟩ | ⟨v, hv⟩
      · rcases List.mem_cons.mp hother with rfl | hother
        · exact absurd hk hkey
        · exact .inl ⟨other, hother, hk⟩
      · right
        exact ⟨v, by rw [store, Vector.getElem?_setIfInBounds, if_neg hkey, hv]⟩

/-- A profile that is applied was heard, is in place, and leaves the RF. -/
theorem applyTo_ok {target : RemoteTarget} {c c' : Chipset}
    (h : (InitiatorExchangeProfile.forTarget target).applyTo c = (.ok (), c')) :
    (Heard c.asked → Heard c'.asked) ∧ c'.initiatorBitrate = c.initiatorBitrate
      ∧ c'.initiatorProtocol = (profileEntries target).foldl store c.initiatorProtocol := by
  obtain ⟨hlookup, hkeys⟩ := profileEntries_spec target
  rw [InitiatorExchangeProfile.applyTo] at h
  split at h
  · rename_i hempty
    cases h
    have hnone : profileEntries target = [] := by
      rw [profileEntries, List.isEmpty_iff.mp hempty]
      rfl
    rw [hnone]
    exact ⟨id, rfl, rfl⟩
  · obtain ⟨entries, c1, hentries, h⟩ := bind_eq_ok.mp h
    rw [lift_apply, hlookup] at hentries
    cases hentries
    exact writeInitiatorProtocol_plain hkeys h

/-- **A prepared exchange has the reader configured for its target.** -/
theorem configuredFor_of_prepare {target : RemoteTarget} {profile : InitiatorExchangeProfile}
    {c c' : Chipset} (hc : KnownIfHeard c) (hheard : Heard c.asked)
    (h : prepareInitiatorExchange target c = (.ok profile, c')) {s : Settings}
    (hs : Settings.Reached c'.asked s) : ConfiguredFor target s := by
  have hknown := known_prepareInitiatorExchange target hc
  rw [h] at hknown
  obtain ⟨⟨⟩, c1, hrf, h⟩ := bind_eq_ok.mp h
  obtain ⟨⟨⟩, c2, hdefaults, h⟩ := bind_eq_ok.mp h
  obtain ⟨⟨⟩, c3, hprofile, h⟩ := bind_eq_ok.mp h
  cases h
  obtain ⟨hheard1, hbitrate1⟩ := setInitiatorRf_ok hrf
  obtain ⟨hheard2, hbitrate2, hprotocol2⟩ := writeInitiatorProtocol_plain defaults_nodup hdefaults
  obtain ⟨hheard3, hbitrate3, hprotocol3⟩ := applyTo_ok hprofile
  have hagrees := hknown (hheard3 (hheard2 (hheard1 hheard))) s hs
  refine ⟨hagrees.rf (hbitrate3.trans (hbitrate2.trans hbitrate1)), fun k hk => ?_⟩
  by_cases hlt : k < INITIATOR_PROTOCOL_KEYS
  · -- the defaults write the key, so the memory has its value, and that of the profile
    obtain ⟨entry, hentry, hkey⟩ := defaults_cover hlt hk
    have hwritten : ∃ entry ∈ asPairs IN_SET_PROTOCOL_DEFAULTS ++ profileEntries target,
        entry.1.toNat = k := ⟨entry, List.mem_append_left _ hentry, hkey⟩
    have hmemory : c'.initiatorProtocol[k]? = (requiredProtocol target)[k]? := by
      rw [hprotocol3, hprotocol2, ← List.foldl_append, requiredProtocol]
      exact foldl_store_congr (.inl hwritten)
    obtain ⟨v, hv⟩ : ∃ v, (requiredProtocol target)[k]? = some (some v) :=
      foldl_store_isSome hlt (.inl hwritten)
    rw [hagrees.protocol (hmemory.trans hv), hv]
    rfl
  · rw [Vector.getElem?_eq_none (Nat.le_of_not_lt hlt),
      Vector.getElem?_eq_none (Nat.le_of_not_lt hlt)]
    rfl

/-! ### A settled reader -/

/-- Nothing is left to configure for a target without parameters of its own, FeliCa for one. -/
structure Settled (target : RemoteTarget) (c : Chipset) : Prop where
  plain : initiatorParamsForBitrate target.bitrateSend = []
  bitrate : c.initiatorBitrate = some (target.bitrateSend, target.bitrateRecv)
  defaults : pendingEntries c.initiatorProtocol (asPairs IN_SET_PROTOCOL_DEFAULTS) = []

theorem forTarget_of_plain {target : RemoteTarget}
    (h : initiatorParamsForBitrate target.bitrateSend = []) :
    InitiatorExchangeProfile.forTarget target = ⟨[], false⟩ := by
  have hnot : isType2_106a target = false := by
    rw [isType2_106a, Bool.and_eq_false_iff]
    left
    by_contra hsend
    have hname : target.bitrateSend = "106A" := by simpa using hsend
    rw [hname] at h
    exact absurd h (by decide)
  rw [InitiatorExchangeProfile.forTarget, h, hnot]
  rfl

theorem settled_of_prepare {target : RemoteTarget} {profile : InitiatorExchangeProfile}
    {c c' : Chipset} (hplain : initiatorParamsForBitrate target.bitrateSend = [])
    (h : prepareInitiatorExchange target c = (.ok profile, c')) : Settled target c' := by
  obtain ⟨⟨⟩, c1, hrf, h⟩ := bind_eq_ok.mp h
  obtain ⟨⟨⟩, c2, hdefaults, h⟩ := bind_eq_ok.mp h
  rw [forTarget_of_plain hplain] at h
  cases h
  obtain ⟨-, hbitrate, hprotocol⟩ := writeInitiatorProtocol_ok hdefaults
  refine ⟨hplain, hbitrate.trans (setInitiatorRf_ok hrf).2, ?_⟩
  rw [hprotocol, foldl_store_pending defaults_nodup fun _ _ => rfl]
  refine List.filter_eq_nil_iff.mpr fun entry hentry => ?_
  have hall : (asPairs IN_SET_PROTOCOL_DEFAULTS).all (fun entry =>
      ((asPairs IN_SET_PROTOCOL_DEFAULTS).foldl store unknownProtocol)[entry.1.toNat]?.join
        == some entry.2) = true := by decide
  have hheld := beq_iff_eq.mp (List.all_eq_true.mp hall entry hentry)
  rw [foldl_store_congr (q := unknownProtocol) (.inl ⟨entry, hentry, rfl⟩), hheld]
  simp

theorem prepare_of_settled {target : RemoteTarget} {c : Chipset} (h : Settled target c) :
    prepareInitiatorExchange target c = (.ok ⟨[], false⟩, c) := by
  have hrf : setInitiatorRf target.bitrateSend (some target.bitrateRecv) c = (.ok (), c) := by
    show (if c.initiatorBitrate = some (target.bitrateSend, target.bitrateRecv) then pure ()
      else _ : Action Unit) c = _
    rw [if_pos h.bitrate]
    rfl
  have hdefaults : applyInitiatorDefaults c = (.ok (), c) := by
    show writeProtocolPayload (asPayload (pendingEntries c.initiatorProtocol
      (asPairs IN_SET_PROTOCOL_DEFAULTS))) c = _
    rw [h.defaults]
    rfl
  rw [prepareInitiatorExchange, bind_of_ok hrf, bind_of_ok hdefaults,
    forTarget_of_plain h.plain]
  rfl

/-- The answer to an exchange carries the response, and no fault. -/
def Carries (rsp response : List UInt8) : Prop :=
  ¬ (4 ≤ rsp.length ∧ rsp.take 4 ≠ [0, 0, 0, 0]) ∧ response = rsp.drop 5

theorem exchangeAsInitiator_eq_ok_iff {data : List UInt8} {timeout : UInt16} {c c' : Chipset}
    {response : List UInt8} :
    exchangeAsInitiator data timeout c = (.ok response, c')
      ↔ ∃ rsp, sendCommand 0x04 (exchangePayload data timeout) c = (.ok rsp, c')
        ∧ Carries rsp response := by
  have hmap : exchangeAsInitiator data timeout c = (.ok response, c')
      ↔ initiatorExchangeRf data timeout c = (.ok response, c') := by
    rw [exchangeAsInitiator, withMappedFault, Prod.mk.injEq, mapError_eq_ok, Prod.ext_iff]
  have hread : ∀ rsp c1, readExchange rsp c1 = (.ok response, c') ↔ c1 = c' ∧ Carries rsp response := by
    intro rsp c1
    rw [readExchange, Carries]
    split
    · rename_i hfault
      constructor
      · intro h
        cases h
      · rintro ⟨-, h, -⟩
        exact absurd hfault h
    · rename_i hfault
      constructor
      · intro h
        cases h
        exact ⟨rfl, hfault, rfl⟩
      · rintro ⟨rfl, -, rfl⟩
        rfl
  rw [hmap, initiatorExchangeRf, Stateful.bind_eq_ok]
  constructor
  · rintro ⟨rsp, c1, hsend, h⟩
    obtain ⟨rfl, hcarries⟩ := (hread rsp c1).mp h
    exact ⟨rsp, hsend, hcarries⟩
  · rintro ⟨rsp, hsend, hcarries⟩
    exact ⟨rsp, c', hsend, (hread rsp c').mpr ⟨rfl, hcarries⟩⟩

theorem Settled.of_sendCommand {target : RemoteTarget} {c c' : Chipset} (h : Settled target c)
    {code : UInt8} {payload rsp : List UInt8} (hsend : sendCommand code payload c = (.ok rsp, c')) :
    Settled target c' := by
  have hcaches := caches_sendCommand _ code payload (s := c) rfl
  rw [hsend] at hcaches
  obtain ⟨hbitrate, hprotocol⟩ := Prod.mk.inj hcaches
  exact ⟨h.plain, hbitrate.trans h.bitrate, by rw [hprotocol, h.defaults]⟩

def transceiveAll (target : RemoteTarget) :
    List (List UInt8 × Option UInt16) → Action (List (List UInt8))
  | [] => pure []
  | (data, timeoutMs) :: exchanges => do
    let response ← transceive target data timeoutMs
    let responses ← transceiveAll target exchanges
    pure (response :: responses)

/-- The command that an exchange is on a settled reader. -/
def exchangeCommand (exchange : List UInt8 × Option UInt16) : UInt8 × List UInt8 :=
  (0x04, exchangePayload exchange.1 (exchange.2.getD 0))

/-- On a settled reader a run of exchanges is a run of single commands. -/
theorem transceiveAll_eq_ok_iff {target : RemoteTarget} {exchanges : List (List UInt8 × Option UInt16)}
    {responses : List (List UInt8)} {c : Chipset} (h : Settled target c) :
    (∃ c', transceiveAll target exchanges c = (.ok responses, c'))
      ↔ ∃ rsps, (∃ c', sendCommands (exchanges.map exchangeCommand) c = (.ok rsps, c'))
        ∧ List.Forall₂ Carries rsps responses := by
  have htransceive : ∀ data timeoutMs {c : Chipset}, Settled target c →
      transceive target data timeoutMs c = exchangeAsInitiator data (timeoutMs.getD 0) c := by
    intro data timeoutMs c h
    rw [transceive, bind_of_ok (prepare_of_settled h)]
    rfl
  induction exchanges generalizing c responses with
  | nil =>
    constructor
    · rintro ⟨c', hrun⟩
      cases hrun
      exact ⟨[], ⟨c, rfl⟩, .nil⟩
    · rintro ⟨rsps, ⟨c', hrun⟩, hcarries⟩
      cases hrun
      cases hcarries
      exact ⟨c, rfl⟩
  | cons exchange exchanges ih =>
    obtain ⟨data, timeoutMs⟩ := exchange
    constructor
    · rintro ⟨c', hrun⟩
      obtain ⟨response, c1, hfirst, hrun⟩ := bind_eq_ok.mp hrun
      obtain ⟨responses', c2, hrest, hrun⟩ := bind_eq_ok.mp hrun
      cases hrun
      rw [htransceive data timeoutMs h] at hfirst
      obtain ⟨rsp, hsend, hcarries⟩ := exchangeAsInitiator_eq_ok_iff.mp hfirst
      obtain ⟨rsps, ⟨c3, hsends⟩, hall⟩ := (ih (h.of_sendCommand hsend)).mp ⟨_, hrest⟩
      exact ⟨rsp :: rsps, ⟨c3, (bind_of_ok hsend).trans ((bind_of_ok hsends).trans rfl)⟩,
        .cons hcarries hall⟩
    · rintro ⟨rsps, ⟨c', hrun⟩, hcarries⟩
      obtain ⟨rsp, c1, hsend, hrun⟩ := bind_eq_ok.mp hrun
      obtain ⟨rsps', c2, hsends, hrun⟩ := bind_eq_ok.mp hrun
      cases hrun
      cases hcarries with
      | @cons _ response _ responses' hcarry hall =>
        obtain ⟨c3, hrest⟩ := (ih (h.of_sendCommand hsend)).mpr ⟨rsps', ⟨_, hsends⟩, hall⟩
        have hfirst : transceive target data timeoutMs c = (.ok response, c1) := by
          rw [htransceive data timeoutMs h]
          exact exchangeAsInitiator_eq_ok_iff.mpr ⟨rsp, hsend, hcarry⟩
        exact ⟨c3, (bind_of_ok hfirst).trans ((bind_of_ok hrest).trans rfl)⟩

/-- **After one exchange the reader is a wire.**  Where a target has no parameters of its
own, an exchange that has succeeded leaves nothing to configure, and every further run of
exchanges is a conversation of one command each, whose answers are the card's responses
behind five bytes of status. -/
theorem further_exchanges {target : RemoteTarget} {data first : List UInt8}
    {timeoutMs : Option UInt16} {c c1 : Chipset}
    (hplain : initiatorParamsForBitrate target.bitrateSend = [])
    (hfirst : transceive target data timeoutMs c = (.ok first, c1))
    (exchanges : List (List UInt8 × Option UInt16)) (responses : List (List UInt8)) :
    (∃ c', transceiveAll target exchanges c1 = (.ok responses, c'))
      ↔ AcceptsAll exchanges.length c1.transport.refusals
        ∧ ∃ rsps, Conversation (exchanges.map exchangeCommand) rsps c1.stream
          ∧ List.Forall₂ Carries rsps responses := by
  have hsettled : Settled target c1 := by
    obtain ⟨profile, c0, hprepare, hperform⟩ := bind_eq_ok.mp hfirst
    have hsettled := settled_of_prepare hplain hprepare
    have hprofile : profile = ⟨[], false⟩ := by
      obtain ⟨⟨⟩, c2, -, hprepare⟩ := bind_eq_ok.mp hprepare
      obtain ⟨⟨⟩, c3, -, hprepare⟩ := bind_eq_ok.mp hprepare
      obtain ⟨⟨⟩, c4, -, hprepare⟩ := bind_eq_ok.mp hprepare
      cases hprepare
      exact forTarget_of_plain hplain
    rw [hprofile] at hperform
    obtain ⟨rsp, hsend, -⟩ := exchangeAsInitiator_eq_ok_iff.mp hperform
    exact hsettled.of_sendCommand hsend
  rw [transceiveAll_eq_ok_iff hsettled]
  constructor
  · rintro ⟨rsps, hrun, hcarries⟩
    obtain ⟨haccepts, hconv⟩ := (sendCommands_eq_ok_iff _ _ _).mp hrun
    rw [List.length_map] at haccepts
    exact ⟨haccepts, rsps, hconv, hcarries⟩
  · rintro ⟨haccepts, rsps, hconv, hcarries⟩
    exact ⟨rsps, (sendCommands_eq_ok_iff _ _ _).mpr ⟨by rwa [List.length_map], hconv⟩, hcarries⟩

/-! ### The reader in a run -/

/-- **The reader is what the host takes it for**, in every run from an opened reader in which
every command that configures something was answered and a reset that was answered returned:
what the host remembers is so of the reader, and whenever an exchange has been prepared, the
reader is configured for its target. -/
theorem reader_is_known {transport : Transport} {calls : List Call} {c : Chipset}
    (hwhole : Runs.Along callStep Whole (Chipset.new transport).2 calls)
    (hrun : Runs.run callStep (Chipset.new transport).2 calls = some c) (hheard : Heard c.asked) :
    Known c ∧ ∀ target profile c', prepareInitiatorExchange target c = (.ok profile, c') →
      ∀ s, Settings.Reached c'.asked s → ConfiguredFor target s := by
  have hc := known_run (known_new transport) hwhole hrun
  exact ⟨hc hheard, fun _ _ _ h _ hs => configuredFor_of_prepare hc hheard h hs⟩

/-- A reader that answers what opens it, and one exchange with a FeliCa card. -/
def tapTransport : Transport where
  arrivals :=
    [.timedOut,
      .packet ACK_BYTES, .packet [0, 0, 0xFF, 0xFF, 0xFF, 3, 0, 0xFD, 0xD7, 0x2B, 0, 0xFE, 0],
      .packet ACK_BYTES, .packet [0, 0, 0xFF, 0xFF, 0xFF, 4, 0, 0xFC, 0xD7, 0x21, 1, 2, 5, 0],
      .packet ACK_BYTES, .packet [0, 0, 0xFF, 0xFF, 0xFF, 4, 0, 0xFC, 0xD7, 0x23, 0, 1, 5, 0],
      .packet ACK_BYTES, .packet [0, 0, 0xFF, 0xFF, 0xFF, 3, 0, 0xFD, 0xD7, 0x07, 0, 0x22, 0],
      .packet ACK_BYTES, .packet [0, 0, 0xFF, 0xFF, 0xFF, 3, 0, 0xFD, 0xD7, 0x01, 0, 0x28, 0],
      .timedOut,
      .packet ACK_BYTES, .packet [0, 0, 0xFF, 0xFF, 0xFF, 3, 0, 0xFD, 0xD7, 0x03, 0, 0x26, 0],
      .packet ACK_BYTES,
      .packet [0, 0, 0xFF, 0xFF, 0xFF, 9, 0, 0xF7, 0xD7, 0x05, 0, 0, 0, 0, 8, 7, 9, 12, 0]]
  refusals := []
  written := []

def felica212 : RemoteTarget := ⟨"212F", "212F", none⟩

theorem reader_is_known_tap :
    (transceive felica212 [6, 0] (some 500) (Chipset.new tapTransport).2).1 = .ok [7, 9]
      ∧ Known (Call.perform (.transceive felica212 [6, 0] (some 500)) (Chipset.new tapTransport).2).2 :=
  have hwhole : Runs.Along callStep Whole (Chipset.new tapTransport).2
      [.transceive felica212 [6, 0] (some 500)] := ⟨fun _ h => (by cases h), fun _ _ => trivial⟩
  ⟨by decide, (reader_is_known hwhole rfl (by decide)).1⟩

theorem further_exchanges_tap :
    ∃ c', transceiveAll felica212 [([8], none)] (transceive felica212 [6, 0] (some 500)
      (Chipset.new { tapTransport with
        arrivals := tapTransport.arrivals ++ [.packet ACK_BYTES,
          .packet [0, 0, 0xFF, 0xFF, 0xFF, 8, 0, 0xF8, 0xD7, 0x05, 0, 0, 0, 0, 8, 3, 0x19, 0]] }).2).2
      = (.ok [[3]], c') := by
  set c := (Chipset.new { tapTransport with
    arrivals := tapTransport.arrivals ++ [.packet ACK_BYTES,
      .packet [0, 0, 0xFF, 0xFF, 0xFF, 8, 0, 0xF8, 0xD7, 0x05, 0, 0, 0, 0, 8, 3, 0x19, 0]] }).2
  have hfirst : transceive felica212 [6, 0] (some 500) c
      = (.ok [7, 9], (transceive felica212 [6, 0] (some 500) c).2) := Prod.ext (by decide) rfl
  have hconv : Conversation (List.map exchangeCommand [([8], none)]) [[0, 0, 0, 0, 8, 3]]
      (transceive felica212 [6, 0] (some 500) c).2.stream :=
    .cons ⟨_, ⟨_, .littleEndian (by decide), rfl⟩, rfl⟩ (.nil [])
  exact (further_exchanges rfl hfirst [([8], none)] [[3]]).mpr
    ⟨⟨rfl, trivial⟩, _, hconv, .cons ⟨by decide, rfl⟩ .nil⟩

end SuiCash.Reader
