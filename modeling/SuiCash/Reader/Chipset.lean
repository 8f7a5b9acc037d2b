import SuiCash.Reader.Frame
import SuiCash.Reader.Io

/-!
# A command to the Port-100

`usb-poc/vendor/felica/src/driver/port100/chipset.rs`, the exchange under every command: a
frame is written, the acknowledgement is read, then the response frame, in pieces whose
lengths the pieces before announce.

`answers_of_sendCommand` and `exists_sendCommand` say which streams answer a command and with
what: an acknowledgement and a whole frame behind it, in either of the two forms that are
accepted.  Where the packets of the transport end plays no part, in one command or in a run of
them.
-/

namespace SuiCash.Reader

open Bytes Fallible Slices Stateful

def INITIATOR_PROTOCOL_KEYS : ℕ := 0x14

/-- A command, its payload, and its answer if one was read. -/
abbrev Asked := UInt8 × List UInt8 × Option (List UInt8)

structure Chipset where
  transport : Transport
  firmwareVersion : UInt8 × UInt8
  readBuffer : List UInt8
  /-- Bitrates the initiator RF was last configured for, send then receive. -/
  initiatorBitrate : Option (String × String)
  noiseResistanceAttempted : Bool
  /-- Initiator protocol values the reader is known to hold, indexed by key. -/
  initiatorProtocol : Vector (Option UInt8) INITIATOR_PROTOCOL_KEYS
  /-- The commands sent so far, each with its answer if one was read.  The code does not keep
  them, and nothing that it does depends on them. -/
  asked : List Asked

/-- A call on the chipset, which can also panic. -/
abbrev Action (α : Type) := Stateful Chipset (Stop DriverError) α

def fail {α : Type} (message : String) : Action α := Stateful.throw (.error (.Other message))

/-! ### Input and output -/

def write (data : List UInt8) : Action Unit := fun c =>
  let (result, transport) := c.transport.write data
  (result.mapError fun e => .error (.Io e), { c with transport })

def readExact (len : ℕ) : Action (List UInt8) := fun c =>
  let (result, arrivals, readBuffer) := readExactFrom len c.readBuffer [] c.transport.arrivals
  (result.mapError .error, { c with transport.arrivals := arrivals, readBuffer })

/-- Re-sends `ACK`, optionally drains pending input, and clears the read buffer. -/
def recoverAfterError (drainBuffer : Bool) (c : Chipset) : Chipset :=
  let transport := (c.transport.write ACK_BYTES).2
  let arrivals := if drainBuffer then drainInput transport.arrivals else transport.arrivals
  { c with transport := { transport with arrivals }, readBuffer := [] }

def withRecovery {α : Type} (drainBuffer : Bool) (action : Action α) : Action α := fun c =>
  match action c with
  | (.error (.error e), c) => (.error (.error e), recoverAfterError drainBuffer c)
  | result => result

/-! ### Frames -/

abbrev Port100Frame := Frame Port100Format

def readAckFrame : Action Unit := do
  let bytes ← readExact ACK_BYTES.length
  match (Frame.parse bytes : Option Port100Frame) with
  | none => fail "invalid ack frame"
  | some frame => if frame.frameType = .Ack then pure () else fail "unexpected frame type"

/-- How long the rest of the frame is, by its first bytes.  An extended length is read from
three more of them. -/
def readFrameBytes : Action (List UInt8) := do
  let frame ← readExact 5
  if getSlice frame 0 3 ≠ some SOF then fail "invalid frame preamble"
  else do
    let b3 ← lift (index frame 3)
    let b4 ← lift (index frame 4)
    if b3 = 0xFF ∧ b4 = 0xFF then do
      let extended ← readExact 3
      let lo ← lift (index extended 0)
      let hi ← lift (index extended 1)
      let tail ← readExact ((fromLeBytes lo hi).toNat + 2)
      pure (frame ++ extended ++ tail)
    else do
      let tail ← readExact (b3.toNat + 2)
      pure (frame ++ tail)

def readResponseFrame : Action Port100Frame := do
  let bytes ← readFrameBytes
  match (Frame.parse bytes : Option Port100Frame) with
  | none => fail "invalid response frame"
  | some frame => pure frame

/-- `0xD7`, the code of the command plus one, and the answer. -/
def extractResponsePayload (frame : Port100Frame) (code : UInt8) : Action (List UInt8) :=
  match frame.payload with
  | none => fail "unexpected frame type"
  | some payload =>
    if payload[0]? = some 0xD7 ∧ payload[1]? = some (code + 1) then
      lift (slice payload 2 payload.length)
    else fail "unexpected response"

def buildCommandPayload (code : UInt8) (payload : List UInt8) : List UInt8 :=
  0xD6 :: code :: payload

def commandFrame (code : UInt8) (payload : List UInt8) : Action Port100Frame :=
  orElse (Frame.build (buildCommandPayload code payload)) .panic

def readCommandResponse (code : UInt8) : Action (List UInt8) := do
  withRecovery false readAckFrame
  let response ← withRecovery true readResponseFrame
  extractResponsePayload response code

/-- Puts a command down, however it ends. -/
def asking (code : UInt8) (payload : List UInt8) (action : Action (List UInt8)) :
    Action (List UInt8) := fun c =>
  let (result, c) := action c
  (result, { c with asked := c.asked ++ [(code, payload, result.toOption)] })

def sendCommand (code : UInt8) (payload : List UInt8) : Action (List UInt8) :=
  asking code payload do
    let frame ← commandFrame code payload
    withRecovery false (write frame.raw)
    readCommandResponse code

/-! ### What is taken off the stream -/

/-- What the chipset will read before the next interruption. -/
def Chipset.stream (c : Chipset) : List UInt8 := c.readBuffer ++ incoming c.transport.arrivals

def Chipset.outside (c : Chipset) : Chipset :=
  { c with
    transport := { c.transport with arrivals := interruption c.transport.arrivals }
    readBuffer := [] }

/-- The bytes are taken off the stream, and nothing else changes. -/
def Took (c : Chipset) (bytes : List UInt8) (c' : Chipset) : Prop :=
  c.stream = bytes ++ c'.stream ∧ c'.outside = c.outside

theorem Took.trans {c c' c'' : Chipset} {bytes bytes' : List UInt8} (h : Took c bytes c')
    (h' : Took c' bytes' c'') : Took c (bytes ++ bytes') c'' :=
  ⟨by rw [h.1, h'.1, List.append_assoc], h'.2.trans h.2⟩

theorem readExact_of_le {len : ℕ} {c : Chipset} (h : len ≤ c.stream.length) :
    ∃ c', readExact len c = (.ok (c.stream.take len), c') ∧ Took c (c.stream.take len) c' := by
  have hout : ([] : List UInt8).length ≤ len := Nat.zero_le _
  have hstream : len - ([] : List UInt8).length
      ≤ (c.readBuffer ++ incoming c.transport.arrivals).length := h
  obtain ⟨arrivals, buffer, hread, hrest, hint⟩ := readExactFrom_eq_ok hout hstream
  refine ⟨{ c with transport.arrivals := arrivals, readBuffer := buffer }, ?_, ?_, ?_⟩
  · rw [readExact, hread]
    rfl
  · show c.stream = c.stream.take len ++ (buffer ++ incoming arrivals)
    rw [hrest]
    exact (List.take_append_drop len c.stream).symm
  · simp only [Chipset.outside, hint]

theorem readExact_of_lt {len : ℕ} {c : Chipset} (h : c.stream.length < len) :
    readExact len c = (.error (.error (endsWith (interruption c.transport.arrivals))),
      { c with
        transport := { c.transport with arrivals := (interruption c.transport.arrivals).tail }
        readBuffer := [] }) := by
  rw [readExact, readExactFrom_eq_error h]
  rfl

theorem took_of_readExact {len : ℕ} {c c' : Chipset} {bytes : List UInt8}
    (h : readExact len c = (.ok bytes, c')) : Took c bytes c' ∧ bytes.length = len := by
  by_cases hlen : len ≤ c.stream.length
  · obtain ⟨c1, hread, htook⟩ := readExact_of_le hlen
    rw [hread] at h
    cases h
    exact ⟨htook, List.length_take_of_le hlen⟩
  · rw [readExact_of_lt (Nat.lt_of_not_le hlen)] at h
    cases h

theorem exists_readExact {n : ℕ} {c : Chipset} {bytes rest : List UInt8}
    (h : c.stream = bytes ++ rest) (hlen : bytes.length = n) :
    ∃ c', readExact n c = (.ok bytes, c') ∧ Took c bytes c' ∧ c'.stream = rest := by
  have hle : n ≤ c.stream.length := by
    rw [h, List.length_append, ← hlen]
    exact Nat.le_add_right _ _
  obtain ⟨c', hread, htook⟩ := readExact_of_le hle
  rw [h, List.take_left' hlen] at hread
  rw [h, List.take_left' hlen] at htook
  exact ⟨c', hread, htook, List.append_cancel_left (htook.1.symm.trans h)⟩

theorem withRecovery_eq_ok {α : Type} {drainBuffer : Bool} {action : Action α} {c c' : Chipset}
    {a : α} : withRecovery drainBuffer action c = (.ok a, c') ↔ action c = (.ok a, c') := by
  rw [withRecovery]
  split
  · rename_i h
    rw [h]
    constructor <;> intro h <;> cases h
  · exact Iff.rfl

/-! ### The acknowledgement -/

theorem ack_of_parse {bytes : List UInt8} {frame : Port100Frame}
    (h : Frame.parse bytes = some frame) (hack : frame.frameType = .Ack) : bytes = ACK_BYTES := by
  rcases Frame.parse_eq_some_iff.mp h with ⟨hbytes, -⟩ | ⟨-, -, rfl⟩ | ⟨-, -, rfl⟩ |
    ⟨payload, rest, -, htype, -⟩
  · exact hbytes
  · cases hack
  · cases hack
  · rw [htype] at hack
    cases hack

theorem took_of_readAckFrame {c c' : Chipset} (h : readAckFrame c = (.ok (), c')) :
    Took c ACK_BYTES c' := by
  obtain ⟨bytes, c1, hread, h⟩ := bind_eq_ok.mp h
  obtain ⟨htook, -⟩ := took_of_readExact hread
  cases hparse : (Frame.parse bytes : Option Port100Frame) with
  | none =>
    rw [hparse] at h
    cases h
  | some frame =>
    rw [hparse] at h
    by_cases hack : frame.frameType = .Ack
    · change (if frame.frameType = .Ack then pure () else fail _ : Action Unit) c1 = _ at h
      rw [if_pos hack] at h
      cases h
      exact ack_of_parse hparse hack ▸ htook
    · change (if frame.frameType = .Ack then pure () else fail _ : Action Unit) c1 = _ at h
      rw [if_neg hack] at h
      cases h

theorem exists_readAckFrame {c : Chipset} {rest : List UInt8} (h : c.stream = ACK_BYTES ++ rest) :
    ∃ c', readAckFrame c = (.ok (), c') ∧ Took c ACK_BYTES c' ∧ c'.stream = rest := by
  obtain ⟨c', hread, htook, hrest⟩ := exists_readExact h rfl
  exact ⟨c', (bind_of_ok hread).trans rfl, htook, hrest⟩

/-! ### The response frame -/

theorem took_of_readFrameBytes {c c' : Chipset} {bytes : List UInt8}
    (h : readFrameBytes c = (.ok bytes, c')) : Took c bytes c' := by
  obtain ⟨frame, c1, hframe, h⟩ := bind_eq_ok.mp h
  obtain ⟨htook, -⟩ := took_of_readExact hframe
  split at h
  · cases h
  · obtain ⟨b3, c2, hb3, h⟩ := bind_eq_ok.mp h
    obtain ⟨b4, c3, hb4, h⟩ := bind_eq_ok.mp h
    cases (Prod.mk.inj hb3).2
    cases (Prod.mk.inj hb4).2
    split at h
    · obtain ⟨extended, c4, hextended, h⟩ := bind_eq_ok.mp h
      obtain ⟨lo, c5, hlo, h⟩ := bind_eq_ok.mp h
      obtain ⟨hi, c6, hhi, h⟩ := bind_eq_ok.mp h
      cases (Prod.mk.inj hlo).2
      cases (Prod.mk.inj hhi).2
      obtain ⟨tail, c7, htail, h⟩ := bind_eq_ok.mp h
      cases h
      exact (htook.trans (took_of_readExact hextended).1).trans (took_of_readExact htail).1
    · obtain ⟨tail, c4, htail, h⟩ := bind_eq_ok.mp h
      cases h
      exact htook.trans (took_of_readExact htail).1

theorem exists_readFrameBytes {c : Chipset} {payload raw rest : List UInt8}
    (henv : Envelope .ExtendedLittleEndian payload raw) (h : c.stream = raw ++ rest) :
    ∃ c', readFrameBytes c = (.ok raw, c') ∧ Took c raw c' ∧ c'.stream = rest := by
  obtain ⟨u, v, tail, hbehind, rfl⟩ := envelope_iff.mp henv
  rw [List.append_assoc] at h
  obtain ⟨c1, hhead, htook, hstream⟩ := exists_readExact (n := 5) h rfl
  rcases hbehind with ⟨hlen, hv, rfl⟩ | ⟨-, rfl, rfl, a, b, hlen, rfl⟩
  · have hshort : ¬ (u = 0xFF ∧ v = 0xFF) := fun h => FrameLayout.not_marker u ⟨h.1, hv ▸ h.2⟩
    obtain ⟨c2, htail, htook', hrest⟩ := exists_readExact (n := u.toNat + 2) hstream
      (by rw [length_sealed, hlen])
    refine ⟨c2, (bind_of_ok hhead).trans ?_, htook.trans htook', hrest⟩
    show (if u = 0xFF ∧ v = 0xFF then _ else readExact (u.toNat + 2) >>= _ : Action _) c1 = _
    rw [if_neg hshort]
    exact (bind_of_ok htail).trans rfl
  · rw [List.append_assoc] at hstream
    obtain ⟨c2, hext, htook', hstream'⟩ := exists_readExact (n := 3) hstream rfl
    obtain ⟨c3, htail, htook'', hrest⟩ := exists_readExact (n := (fromLeBytes a b).toNat + 2)
      hstream' (by rw [length_sealed, hlen]; rfl)
    refine ⟨c3, (bind_of_ok hhead).trans ?_, ?_, hrest⟩
    · show (readExact 3 >>= _ : Action _) c1 = _
      refine (bind_of_ok hext).trans ?_
      show (readExact ((fromLeBytes a b).toNat + 2) >>= _ : Action _) c2 = _
      refine (bind_of_ok htail).trans ?_
      rw [← List.append_assoc]
      rfl
    · rw [← List.append_assoc]
      exact (htook.trans htook').trans htook''

/-- What is accepted as a response is one frame, to its last byte. -/
theorem took_of_readResponseFrame {c c' : Chipset} {frame : Port100Frame} {payload : List UInt8}
    (h : readResponseFrame c = (.ok frame, c')) (hpayload : frame.payload = some payload) :
    ∃ raw, Envelope .ExtendedLittleEndian payload raw ∧ Took c raw c' := by
  obtain ⟨bytes, c1, hread, h⟩ := bind_eq_ok.mp h
  have htook := took_of_readFrameBytes hread
  cases hparse : (Frame.parse bytes : Option Port100Frame) with
  | none =>
    rw [hparse] at h
    cases h
  | some frame' =>
    rw [hparse] at h
    cases h
    rcases Frame.parse_eq_some_iff.mp hparse with ⟨-, rfl⟩ | ⟨-, -, rfl⟩ | ⟨-, -, rfl⟩ |
      ⟨payload', rest, henv, htype, hbytes, -⟩
    · cases hpayload
    · cases hpayload
    · cases hpayload
    · rw [Frame.payload, htype] at hpayload
      cases hpayload
      -- the frame is read to its own end, and no further
      have hstream : c.stream = frame.raw ++ (rest ++ c'.stream) := by
        rw [htook.1, hbytes, List.append_assoc]
      obtain ⟨c2, hread', -⟩ := exists_readFrameBytes henv hstream
      rw [hread] at hread'
      cases hread'
      exact ⟨frame.raw, henv, hbytes ▸ htook⟩

theorem exists_readResponseFrame {c : Chipset} {payload raw rest : List UInt8}
    (henv : Envelope .ExtendedLittleEndian payload raw) (h : c.stream = raw ++ rest) :
    ∃ c', readResponseFrame c = (.ok ⟨raw, .Data payload⟩, c') ∧ Took c raw c'
      ∧ c'.stream = rest := by
  obtain ⟨c', hread, htook, hrest⟩ := exists_readFrameBytes henv h
  have hparse : (Frame.parse raw : Option Port100Frame) = some ⟨raw, .Data payload⟩ :=
    Frame.parse_eq_some_iff.mpr (.inr (.inr (.inr
      ⟨payload, [], henv, rfl, (List.append_nil _).symm, fun h => nomatch h.1⟩)))
  refine ⟨c', (bind_of_ok hread).trans ?_, htook, hrest⟩
  rw [hparse]
  rfl

/-! ### A command -/

/-- The transport takes the next write. -/
def Accepts (t : Transport) : Prop := t.refusals.headD none = none

def Chipset.wrote (c : Chipset) (data : List UInt8) : Chipset :=
  { c with
    transport := { c.transport with
      refusals := c.transport.refusals.tail
      written := c.transport.written ++ [data] } }

def Chipset.withAnswer (c : Chipset) (code : UInt8) (payload response : List UInt8) : Chipset :=
  { c with asked := c.asked ++ [(code, payload, some response)] }

theorem asking_eq_ok_iff {code : UInt8} {payload response : List UInt8}
    {action : Action (List UInt8)} {c c' : Chipset} :
    asking code payload action c = (.ok response, c')
      ↔ ∃ c1, action c = (.ok response, c1) ∧ c' = c1.withAnswer code payload response := by
  rw [asking]
  rcases action c with ⟨_ | response', c1⟩
  · constructor
    · intro h
      cases h
    · rintro ⟨c2, h, -⟩
      cases h
  · constructor
    · intro h
      cases h
      exact ⟨c1, rfl, rfl⟩
    · rintro ⟨c2, h, rfl⟩
      cases h
      rfl

theorem write_eq_ok_iff {c c' : Chipset} {data : List UInt8} :
    write data c = (.ok (), c') ↔ Accepts c.transport ∧ c' = c.wrote data := by
  obtain ⟨⟨arrivals, refusals, written⟩, firmware, buffer, bitrate, attempted, protocol, asked⟩ := c
  match refusals with
  | [] | none :: _ =>
    constructor
    · intro h
      cases h
      exact ⟨rfl, rfl⟩
    · rintro ⟨-, rfl⟩
      rfl
  | some e :: _ =>
    constructor
    · intro h
      cases h
    · rintro ⟨h, -⟩
      cases h

theorem extractResponsePayload_eq_ok_iff {c c' : Chipset} {frame : Port100Frame} {code : UInt8}
    {response : List UInt8} :
    extractResponsePayload frame code c = (.ok response, c')
      ↔ frame.payload = some (0xD7 :: (code + 1) :: response) ∧ c' = c := by
  rw [extractResponsePayload]
  cases frame.payload with
  | none =>
    constructor
    · intro h
      cases h
    · rintro ⟨h, -⟩
      cases h
  | some payload =>
    show (if payload[0]? = some 0xD7 ∧ payload[1]? = some (code + 1) then
        lift (slice payload 2 payload.length) else fail "unexpected response" :
      Action (List UInt8)) c = _ ↔ _
    by_cases hcode : payload[0]? = some 0xD7 ∧ payload[1]? = some (code + 1)
    · rw [if_pos hcode]
      match payload, hcode with
      | d7 :: answer :: more, hcode =>
        obtain ⟨hd7, hanswer⟩ := hcode
        cases hd7
        cases hanswer
        rw [lift_apply, slice_of_eq_length (by simp) rfl]
        constructor
        · intro h
          cases h
          exact ⟨rfl, rfl⟩
        · rintro ⟨h, rfl⟩
          cases h
          rfl
    · rw [if_neg hcode]
      constructor
      · intro h
        cases h
      · rintro ⟨h, -⟩
        cases h
        exact absurd ⟨rfl, rfl⟩ hcode

theorem commandFrame_apply (code : UInt8) (payload : List UInt8) (c : Chipset) :
    ∃ frame, Frame.build (F := Port100Format) (0xD6 :: code :: payload) = some frame
      ∧ commandFrame code payload c = (.ok frame, c) :=
  ⟨_, rfl, rfl⟩

/-- The stream answers a command. -/
def Answers (stream : List UInt8) (code : UInt8) (response rest : List UInt8) : Prop :=
  ∃ raw, Envelope .ExtendedLittleEndian (0xD7 :: (code + 1) :: response) raw
    ∧ stream = ACK_BYTES ++ (raw ++ rest)

/-- A command that is answered was written, and its answer is what the stream held next. -/
theorem answers_of_sendCommand {c c' : Chipset} {code : UInt8} {payload response : List UInt8}
    (h : sendCommand code payload c = (.ok response, c')) :
    Accepts c.transport ∧ Answers c.stream code response c'.stream
      ∧ ∃ frame : Port100Frame, Frame.build (0xD6 :: code :: payload) = some frame
        ∧ c'.outside = (c.outside.wrote frame.raw).withAnswer code payload response := by
  obtain ⟨c2, hsent, rfl⟩ := asking_eq_ok_iff.mp h
  obtain ⟨frame, hbuild, hframe⟩ := commandFrame_apply code payload c
  rw [bind_of_ok hframe] at hsent
  obtain ⟨⟨⟩, c1, hwrite, hresponse⟩ := bind_eq_ok.mp hsent
  obtain ⟨haccepts, rfl⟩ := write_eq_ok_iff.mp (withRecovery_eq_ok.mp hwrite)
  obtain ⟨⟨⟩, c3, hack, hresponse⟩ := bind_eq_ok.mp hresponse
  obtain ⟨answer, c4, hframe', hresponse⟩ := bind_eq_ok.mp hresponse
  obtain ⟨hpayload, rfl⟩ := extractResponsePayload_eq_ok_iff.mp hresponse
  obtain ⟨hackStream, hackOutside⟩ := took_of_readAckFrame (withRecovery_eq_ok.mp hack)
  obtain ⟨raw, henv, hstream, hrest⟩ :=
    took_of_readResponseFrame (withRecovery_eq_ok.mp hframe') hpayload
  refine ⟨haccepts, ⟨raw, henv, ?_⟩, frame, hbuild, ?_⟩
  · show (c.wrote frame.raw).stream = _
    rw [hackStream, hstream]
    rfl
  · have houtside := hrest.trans hackOutside
    show Chipset.withAnswer c2.outside code payload response = _
    rw [houtside]
    rfl

theorem exists_sendCommand {c : Chipset} {code : UInt8} {payload response rest : List UInt8}
    (haccepts : Accepts c.transport) (hanswers : Answers c.stream code response rest) :
    ∃ c', sendCommand code payload c = (.ok response, c') ∧ c'.stream = rest := by
  obtain ⟨frame, -, hframe⟩ := commandFrame_apply code payload c
  obtain ⟨raw, henv, hstream⟩ := hanswers
  have hwrite : withRecovery false (write frame.raw) c = (.ok (), c.wrote frame.raw) :=
    withRecovery_eq_ok.mpr (write_eq_ok_iff.mpr ⟨haccepts, rfl⟩)
  obtain ⟨c1, hack, -, hrest⟩ := exists_readAckFrame (c := c.wrote frame.raw) hstream
  obtain ⟨c2, hresponse, -, hrest'⟩ := exists_readResponseFrame henv hrest
  have hextract : extractResponsePayload
      (⟨raw, .Data (0xD7 :: (code + 1) :: response)⟩ : Port100Frame) code c2 = (.ok response, c2) :=
    extractResponsePayload_eq_ok_iff.mpr ⟨rfl, rfl⟩
  refine ⟨c2.withAnswer code payload response, asking_eq_ok_iff.mpr ⟨c2, ?_, rfl⟩, hrest'⟩
  rw [bind_of_ok hframe, bind_of_ok hwrite, readCommandResponse,
    bind_of_ok (withRecovery_eq_ok.mpr hack), bind_of_ok (withRecovery_eq_ok.mpr hresponse),
    hextract]

/-! ### Packets -/

/-- Two chipsets that differ in where packets end, and in what of them is buffered. -/
def Alike (c d : Chipset) : Prop := c.stream = d.stream ∧ c.outside = d.outside

theorem alike_of_outside {c d c' d' : Chipset} {bytes : List UInt8} (h : Alike c d)
    (hc : Took c bytes c') (hd : Took d bytes d') : Alike c' d' :=
  ⟨List.append_cancel_left (hc.1.symm.trans (h.1.trans hd.1)), hc.2.trans (h.2.trans hd.2.symm)⟩

theorem respects_readExact (len : ℕ) : Respects Alike (readExact len) := by
  intro c d h
  by_cases hlen : len ≤ c.stream.length
  · obtain ⟨c', hc, htook⟩ := readExact_of_le hlen
    obtain ⟨d', hd, htook'⟩ := readExact_of_le (h.1 ▸ hlen)
    rw [hc, hd, h.1]
    exact ⟨rfl, fun _ _ => alike_of_outside h htook (h.1.symm ▸ htook')⟩
  · have hlt := Nat.lt_of_not_le hlen
    have hint : interruption c.transport.arrivals = interruption d.transport.arrivals :=
      congrArg (fun x : Chipset => x.transport.arrivals) h.2
    rw [readExact_of_lt hlt, readExact_of_lt (h.1 ▸ hlt), hint]
    refine ⟨rfl, fun a ha => ?_⟩
    cases ha

/-- What only depends on the world outside the stream, and leaves the stream. -/
theorem respects_write (data : List UInt8) : Respects Alike (write data) := by
  rintro ⟨⟨arrivals, refusals, written⟩, firmware, buffer, bitrate, attempted, protocol, asked⟩
    ⟨⟨arrivals', refusals', written'⟩, firmware', buffer', bitrate', attempted', protocol',
      asked'⟩ ⟨hstream, houtside⟩
  simp only [Chipset.outside, Chipset.mk.injEq, Transport.mk.injEq] at houtside
  obtain ⟨⟨hint, rfl, rfl⟩, rfl, -, rfl, rfl, rfl, rfl⟩ := houtside
  match refusals with
  | [] | none :: _ =>
    refine ⟨rfl, fun _ _ => ⟨hstream, ?_⟩⟩
    simp only [write, Transport.write, Chipset.outside, hint]
  | some e :: _ => exact ⟨rfl, fun a ha => nomatch ha⟩

theorem respects_withRecovery {α : Type} {drainBuffer : Bool} {action : Action α}
    (h : Respects Alike action) : Respects Alike (withRecovery drainBuffer action) := by
  intro c d hcd
  obtain ⟨hout, hnext⟩ := h hcd
  rcases hc : action c with ⟨_ | a, c'⟩ <;> rcases hd : action d with ⟨_ | a', d'⟩ <;>
    rw [hc, hd] at hout <;> cases hout
  · rename_i e
    have hresult : ∀ {x : Chipset} {y : Chipset}, action x = (.error e, y) →
        (withRecovery drainBuffer action x).1 = .error e := by
      intro x y hx
      rw [withRecovery, hx]
      cases e <;> rfl
    exact ⟨(hresult hc).trans (hresult hd).symm, fun a ha => nomatch (hresult hc).symm.trans ha⟩
  · rw [withRecovery_eq_ok.mpr hc, withRecovery_eq_ok.mpr hd]
    have halike := hnext a (by rw [hc])
    rw [hc, hd] at halike
    exact ⟨rfl, fun _ _ => halike⟩

theorem respects_readAckFrame : Respects Alike readAckFrame := by
  refine (respects_readExact _).bind fun bytes => ?_
  cases (Frame.parse bytes : Option Port100Frame) with
  | none => exact respects_throw _
  | some frame =>
    show Respects Alike (if frame.frameType = .Ack then pure () else fail _)
    split
    · exact respects_pure _
    · exact respects_throw _

theorem respects_readFrameBytes : Respects Alike readFrameBytes := by
  refine (respects_readExact _).bind fun frame => ?_
  split
  · exact respects_throw _
  · refine (respects_lift _).bind fun b3 => (respects_lift _).bind fun b4 => ?_
    split
    · exact (respects_readExact _).bind fun extended => (respects_lift _).bind fun lo =>
        (respects_lift _).bind fun hi => (respects_readExact _).bind fun tail => respects_pure _
    · exact (respects_readExact _).bind fun tail => respects_pure _

theorem respects_readResponseFrame : Respects Alike readResponseFrame := by
  refine respects_readFrameBytes.bind fun bytes => ?_
  cases (Frame.parse bytes : Option Port100Frame) with
  | none => exact respects_throw _
  | some frame => exact respects_pure _

theorem respects_extractResponsePayload (frame : Port100Frame) (code : UInt8) :
    Respects Alike (extractResponsePayload frame code) := by
  rw [extractResponsePayload]
  cases frame.payload with
  | none => exact respects_throw _
  | some payload =>
    show Respects Alike (if payload[0]? = some 0xD7 ∧ payload[1]? = some (code + 1) then
      lift (slice payload 2 payload.length) else fail _)
    split
    · exact respects_lift _
    · exact respects_throw _

theorem respects_asking {code : UInt8} {payload : List UInt8} {action : Action (List UInt8)}
    (h : Respects Alike action) : Respects Alike (asking code payload action) := by
  intro c d hcd
  obtain ⟨hout, hnext⟩ := h hcd
  rw [asking, asking]
  rcases hc : action c with ⟨e | response, c'⟩ <;> rcases hd : action d with ⟨e' | response', d'⟩ <;>
    rw [hc, hd] at hout <;> cases hout
  · exact ⟨rfl, fun _ h => by cases h⟩
  · have halike := hnext response (by rw [hc])
    rw [hc, hd] at halike
    refine ⟨rfl, fun _ _ => ⟨halike.1, ?_⟩⟩
    show c'.outside.withAnswer code payload response = d'.outside.withAnswer code payload response
    rw [halike.2]

theorem respects_sendCommand (code : UInt8) (payload : List UInt8) :
    Respects Alike (sendCommand code payload) := by
  refine respects_asking <| (respects_lift _).bind fun frame =>
    (respects_withRecovery (respects_write _)).bind fun _ => ?_
  exact (respects_withRecovery respects_readAckFrame).bind fun _ =>
    (respects_withRecovery respects_readResponseFrame).bind fun frame =>
      respects_extractResponsePayload frame code

/-! ### Runs of commands -/

def sendCommands : List (UInt8 × List UInt8) → Action (List (List UInt8))
  | [] => pure []
  | (code, payload) :: commands => do
    let response ← sendCommand code payload
    let responses ← sendCommands commands
    pure (response :: responses)

/-- The stream answers one command after the other. -/
inductive Conversation : List (UInt8 × List UInt8) → List (List UInt8) → List UInt8 → Prop where
  | nil (stream : List UInt8) : Conversation [] [] stream
  | cons {code : UInt8} {payload response stream rest : List UInt8}
      {commands : List (UInt8 × List UInt8)} {responses : List (List UInt8)} :
      Answers stream code response rest → Conversation commands responses rest →
      Conversation ((code, payload) :: commands) (response :: responses) stream

theorem accepts_after {c c' : Chipset} {code : UInt8} {payload response : List UInt8}
    (h : sendCommand code payload c = (.ok response, c')) :
    c'.transport.refusals = c.transport.refusals.tail := by
  obtain ⟨-, -, frame, -, houtside⟩ := answers_of_sendCommand h
  exact congrArg (fun x : Chipset => x.transport.refusals) houtside

/-- The transport takes the next `n` writes. -/
def AcceptsAll : ℕ → List (Option IoError) → Prop
  | 0, _ => True
  | n + 1, refusals => refusals.headD none = none ∧ AcceptsAll n refusals.tail

theorem sendCommands_eq_ok_iff (commands : List (UInt8 × List UInt8))
    (responses : List (List UInt8)) (c : Chipset) :
    (∃ c', sendCommands commands c = (.ok responses, c'))
      ↔ AcceptsAll commands.length c.transport.refusals
        ∧ Conversation commands responses c.stream := by
  induction commands generalizing c responses with
  | nil =>
    constructor
    · rintro ⟨c', h⟩
      cases h
      exact ⟨trivial, .nil _⟩
    · rintro ⟨-, h⟩
      cases h
      exact ⟨c, rfl⟩
  | cons command commands ih =>
    obtain ⟨code, payload⟩ := command
    constructor
    · rintro ⟨c', h⟩
      obtain ⟨response, c1, hsend, h⟩ := bind_eq_ok.mp h
      obtain ⟨responses', c2, hrun, h⟩ := bind_eq_ok.mp h
      cases h
      obtain ⟨haccepts, hanswers, -⟩ := answers_of_sendCommand hsend
      obtain ⟨hall, hconv⟩ := (ih responses' c1).mp ⟨c', hrun⟩
      exact ⟨⟨haccepts, accepts_after hsend ▸ hall⟩, .cons hanswers hconv⟩
    · rintro ⟨⟨haccepts, hall⟩, hconv⟩
      cases hconv with
      | @cons _ _ response _ rest _ responses' hanswers hconv =>
        obtain ⟨c1, hsend, hstream⟩ : ∃ c1, sendCommand code payload c = (.ok response, c1)
            ∧ c1.stream = rest := exists_sendCommand haccepts hanswers
        obtain ⟨c2, hrun⟩ := (ih responses' c1).mpr
          ⟨accepts_after hsend ▸ hall, hstream.symm ▸ hconv⟩
        exact ⟨c2, (bind_of_ok hsend).trans ((bind_of_ok hrun).trans rfl)⟩

theorem respects_sendCommands (commands : List (UInt8 × List UInt8)) :
    Respects Alike (sendCommands commands) := by
  induction commands with
  | nil => exact respects_pure _
  | cons command commands ih =>
    exact (respects_sendCommand command.1 command.2).bind fun response =>
      ih.bind fun responses => respects_pure _

/-- **A run of commands hears the stream**, and not its packets.  It returns answers exactly
where the stream is the conversation, an acknowledgement and a whole frame for each command;
and however the same stream is cut into packets, the run ends the same way. -/
theorem commands_hear_the_stream (commands : List (UInt8 × List UInt8)) (c : Chipset) :
    (∀ responses, (∃ c', sendCommands commands c = (.ok responses, c'))
      ↔ AcceptsAll commands.length c.transport.refusals
        ∧ Conversation commands responses c.stream)
    ∧ ∀ d, Alike c d → (sendCommands commands c).1 = (sendCommands commands d).1
        ∧ ∀ responses, (sendCommands commands c).1 = .ok responses →
          Alike (sendCommands commands c).2 (sendCommands commands d).2 :=
  ⟨fun responses => sendCommands_eq_ok_iff commands responses c,
    fun _ h => respects_sendCommands commands h⟩

end SuiCash.Reader
