import SuiCash.Lib.Bytes
import SuiCash.Lib.Device
import SuiCash.Lib.Hex
import SuiCash.Lib.Slices

/-!
# The card

`usb-poc/src/card.rs`: FeliCa commands framed by hand, and the frames that a card answers
with.

Every command is one exchange (`command`): its payload is framed, or refused for its size,
sent through the reader, and what comes back is read.  The reader is outside the
repository and may answer anything.
-/

namespace SuiCash.Usb

open Bytes Device Fallible Slices

abbrev Block := Vector UInt8 8

/-- A message, and the error of the reader it is the context of. -/
structure Error where
  message : String
  source : Option String
  deriving DecidableEq

/-- How the response to a command is read. -/
abbrev Reading (α : Type) := Except (Stop Error) α

/-- Frames with their timeouts go to the reader, frames or its own errors come back. -/
abbrev Exchange (α : Type) := Program (List UInt8 × UInt16) (Except String (List UInt8)) Error α

def bail {α : Type} (message : String) : Reading α := .error (.error ⟨message, none⟩)

/-- `{b:02X}`. -/
def upperHex (b : UInt8) : String := (Hex.encode [b]).toUpper

/-! ### Command codes -/

namespace code

def REQUEST_SERVICE : UInt8 := 0x02

def REQUEST_SYSTEM_CODE : UInt8 := 0x0C

def REQUEST_BLOCK_INFORMATION : UInt8 := 0x0E

def AUTHENTICATION1 : UInt8 := 0x10

def AUTHENTICATION2 : UInt8 := 0x12

def REQUEST_CODE_LIST : UInt8 := 0x1A

end code

/-! ### Frames -/

def frame (payload : List UInt8) : Reading (List UInt8) :=
  let len := payload.length + 1
  if len > 0xFF then
    bail s!"FeliCa packet would be {len} bytes; the length field caps it at 255"
  else .ok (UInt8.ofNat len :: payload)

/-- Reject anything that is not the response we asked for. -/
def expectResponseCode (rx : List UInt8) (want : UInt8) (what : String) : Reading Unit :=
  if rx.length < 2 then
    bail s!"{what}: card returned {rx.length}-byte frame, too short for a response code"
  else do
    let length ← index rx 0
    if length.toNat ≠ rx.length then
      bail s!"{what}: length byte {upperHex length} disagrees with the {rx.length} bytes received"
    else do
      let code ← index rx 1
      if code ≠ want then do
        let detail ←
          if 12 ≤ rx.length then do
            let sf1 ← index rx 10
            let sf2 ← index rx 11
            pure s!" (status flags {upperHex sf1} {upperHex sf2})"
          else pure ""
        bail (s!"{what}: card answered {upperHex code}, expected {upperHex want}{detail}\n" ++
          "hint: for Authentication1 this usually means C1A was wrong, i.e. the " ++
          "oracle's gsk/usk do not match this card, or the node path is wrong")
      else .ok ()

def wordLe (c : List UInt8) : Reading UInt16 := do
  let lo ← index c 0
  let hi ← index c 1
  pure (fromLeBytes lo hi)

def wordBe (c : List UInt8) : Reading UInt16 := do
  let hi ← index c 0
  let lo ← index c 1
  pure (fromBeBytes hi lo)

/-! ### Responses -/

structure NodeInfo where
  /-- One key version per requested node, in request order. -/
  keyVersions : List UInt16
  deriving DecidableEq

structure CodeList where
  continueFlag : UInt8
  /-- `(area code, end service code)` pairs bounding each area. -/
  areas : List (UInt16 × UInt16)
  services : List UInt16
  deriving DecidableEq

/-- A response that is a count, at place 10, and so many words. -/
def readWords (want : UInt8) (what : String) (disagrees : ℕ → ℕ → String)
    (word : List UInt8 → Reading UInt16) (rx : List UInt8) : Reading (List UInt16) := do
  expectResponseCode rx want what
  if rx.length < 11 then
    bail s!"{what} response too short: {rx.length} bytes"
  else do
    let count ← index rx 10
    let count := count.toNat
    if rx.length ≠ 11 + count * 2 then
      bail (disagrees rx.length count)
    else do
      let words ← slice rx 11 (11 + count * 2)
      (chunksExact 2 words).mapM word

def readRequestService (rx : List UInt8) : Reading NodeInfo := do
  let keyVersions ← readWords (code.REQUEST_SERVICE + 1) "Request Service"
    (fun len count => s!"Request Service response length {len} disagrees with node count {count}")
    wordLe rx
  pure ⟨keyVersions⟩

def readRequestBlockInformation : List UInt8 → Reading (List UInt16) :=
  readWords (code.REQUEST_BLOCK_INFORMATION + 1) "Request Block Information"
    (fun len count =>
      s!"Request Block Information length {len} disagrees with node count {count}")
    wordLe

/-- System codes are big-endian on the wire, unlike node codes. -/
def readRequestSystemCodes : List UInt8 → Reading (List UInt16) :=
  readWords (code.REQUEST_SYSTEM_CODE + 1) "Request System Code"
    (fun _ count => s!"Request System Code length disagrees with count {count}")
    wordBe

/-- An area and its end, from the four bytes of a chunk. -/
def areaRange (c : List UInt8) : Reading (UInt16 × UInt16) := do
  let b0 ← index c 0
  let b1 ← index c 1
  let b2 ← index c 2
  let b3 ← index c 3
  pure (fromLeBytes b0 b1, fromLeBytes b2 b3)

def readRequestCodeList (rx : List UInt8) : Reading CodeList := do
  expectResponseCode rx (code.REQUEST_CODE_LIST + 1) "Request Code List"
  if rx.length < 12 then
    bail s!"Request Code List response too short: {rx.length} bytes"
  else do
    let sf1 ← index rx 10
    let sf2 ← index rx 11
    if sf1 ≠ 0 then
      bail s!"Request Code List rejected: SF1={upperHex sf1} SF2={upperHex sf2}"
    else if rx.length < 15 then
      bail s!"Request Code List success response too short: {rx.length} bytes"
    else do
      let continueFlag ← index rx 12
      let areaCount ← index rx 13
      let areaCount := areaCount.toNat
      let off := 14
      if rx.length < off + areaCount * 4 + 1 then
        bail "Request Code List truncated inside the area table"
      else do
        let table ← slice rx off (off + areaCount * 4)
        let areas ← (chunksExact 4 table).mapM areaRange
        let off := off + areaCount * 4
        let serviceCount ← index rx off
        let serviceCount := serviceCount.toNat
        let off := off + 1
        if rx.length ≠ off + serviceCount * 2 then
          bail s!"Request Code List length {rx.length} disagrees with service count {serviceCount}"
        else do
          let table ← slice rx off (off + serviceCount * 2)
          let services ← (chunksExact 2 table).mapM wordLe
          pure ⟨continueFlag, areas, services⟩

/-- A card that has been polled: the IDm that its commands are addressed to. -/
structure Card where
  idm : Block

namespace Card

variable (card : Card)

/-- The response must echo the IDm that was addressed. -/
def readAuthentication1 (rx : List UInt8) : Reading (Block × Block) := do
  expectResponseCode rx (code.AUTHENTICATION1 + 1) "Authentication1"
  if rx.length ≠ 26 then
    bail s!"Authentication1 response must be 26 bytes, got {rx.length}"
  else do
    let echoed ← slice rx 2 10
    let echoed ← array 8 echoed
    if echoed ≠ card.idm then
      bail (s!"Authentication1 response echoed IDm {(Hex.encode echoed.toList).toUpper} " ++
        s!"but we addressed {(Hex.encode card.idm.toList).toUpper}")
    else do
      let c1b ← slice rx 10 18
      let c1b ← array 8 c1b
      let c2a ← slice rx 18 26
      let c2a ← array 8 c2a
      pure (c1b, c2a)

end Card

def readAuthentication2 (rx : List UInt8) : Reading (List UInt8) := do
  expectResponseCode rx (code.AUTHENTICATION2 + 1) "Authentication2"
  if rx.length ≠ 34 then
    bail s!"Authentication2 response must be 34 bytes, got {rx.length}"
  else do
    let opcode ← index rx 1
    if opcode ≠ 0x13 then
      bail s!"Authentication2 response opcode is {upperHex opcode}, expected 13"
    else slice rx 2 rx.length

/-! ### Commands -/

def transceive (frame : List UInt8) (timeoutMs : UInt16) : Exchange (List UInt8) :=
  .ask (frame, timeoutMs) fun
    | .ok rx => .done (.ok rx)
    | .error e => .done (.error (.error ⟨s!"transceive {Hex.encode frame}", some e⟩))

/-- What every command does with its payload and its response. -/
def command {α : Type} (payload : List UInt8) (timeoutMs : UInt16)
    (read : List UInt8 → Reading α) : Exchange α := do
  let frame ← (.done (frame payload) : Exchange (List UInt8))
  let rx ← transceive frame timeoutMs
  .done (read rx)

/-- A count of one byte, whatever the length, and the codes. -/
def codes (nodes : List UInt16) : List UInt8 :=
  UInt8.ofNat nodes.length :: nodes.flatMap toLeBytes

namespace Card

variable (card : Card)

def requestService (nodes : List UInt16) (timeoutMs : UInt16) : Exchange NodeInfo :=
  command (code.REQUEST_SERVICE :: (card.idm.toList ++ codes nodes)) timeoutMs readRequestService

def requestCodeList (parent index : UInt16) (timeoutMs : UInt16) : Exchange CodeList :=
  command (code.REQUEST_CODE_LIST :: (card.idm.toList ++ (toLeBytes parent ++ toLeBytes index)))
    timeoutMs readRequestCodeList

def requestBlockInformation (nodes : List UInt16) (timeoutMs : UInt16) : Exchange (List UInt16) :=
  command (code.REQUEST_BLOCK_INFORMATION :: (card.idm.toList ++ codes nodes)) timeoutMs
    readRequestBlockInformation

def requestSystemCodes (timeoutMs : UInt16) : Exchange (List UInt16) :=
  command (code.REQUEST_SYSTEM_CODE :: card.idm.toList) timeoutMs readRequestSystemCodes

/-- The step the oracle participates in; returns `(c1b, c2a)`. -/
def authentication1 (areas services : List UInt16) (c1a : Block) (timeoutMs : UInt16) :
    Exchange (Block × Block) :=
  command (code.AUTHENTICATION1 ::
      (card.idm.toList ++ (codes areas ++ (codes services ++ c1a.toList))))
    timeoutMs card.readAuthentication1

/-- Hand the card its C2B and collect the AUTH2 frame. -/
def authentication2 (c2b : Block) (timeoutMs : UInt16) : Exchange (List UInt8) :=
  command (code.AUTHENTICATION2 :: (card.idm.toList ++ c2b.toList)) timeoutMs readAuthentication2

end Card

/-! ### One exchange -/

section Exchange

variable {α : Type} (device : List UInt8 × UInt16 → Except String (List UInt8))

theorem asked_transceive (frame : List UInt8) (timeoutMs : UInt16) :
    (transceive frame timeoutMs).asked device = [(frame, timeoutMs)] := by
  rw [transceive, Program.asked_ask]
  cases device (frame, timeoutMs) <;> rfl

theorem outcome_transceive {frame rx : List UInt8} {timeoutMs : UInt16}
    (h : device (frame, timeoutMs) = .ok rx) :
    (transceive frame timeoutMs).outcome device = .ok rx := by
  rw [transceive, Program.outcome_ask, h]
  rfl

variable {payload : List UInt8} (timeoutMs : UInt16) (read : List UInt8 → Reading α)

/-- A payload that leaves no room for the length is refused, and nothing is sent. -/
theorem command_refused (h : 0xFF < payload.length + 1) :
    (command payload timeoutMs read).asked device = []
      ∧ (command payload timeoutMs read).outcome device
        = bail s!"FeliCa packet would be {payload.length + 1} bytes; the length field caps it at 255" := by
  have hframe : frame payload
      = bail s!"FeliCa packet would be {payload.length + 1} bytes; the length field caps it at 255" :=
    if_pos h
  rw [command, hframe]
  exact ⟨rfl, rfl⟩

theorem command_sent (h : payload.length + 1 ≤ 0xFF) :
    (command payload timeoutMs read).asked device
        = [(UInt8.ofNat (payload.length + 1) :: payload, timeoutMs)]
      ∧ ∀ rx, device (UInt8.ofNat (payload.length + 1) :: payload, timeoutMs) = .ok rx →
        (command payload timeoutMs read).outcome device = read rx := by
  have hframe : frame payload = .ok (UInt8.ofNat (payload.length + 1) :: payload) :=
    if_neg (Nat.not_lt.mpr h)
  constructor
  · rw [command, Program.asked_bind, Program.outcome_done, hframe, Program.asked_done]
    show [] ++ Program.asked device (transceive _ timeoutMs >>= _) = _
    rw [Program.asked_bind, asked_transceive, List.nil_append]
    cases (transceive (UInt8.ofNat (payload.length + 1) :: payload) timeoutMs).outcome device <;> rfl
  · intro rx hrx
    rw [command, Program.outcome_bind, Program.outcome_done, hframe]
    show Program.outcome device (transceive _ timeoutMs >>= _) = read rx
    rw [Program.outcome_bind, outcome_transceive device hrx]
    rfl

end Exchange

end SuiCash.Usb
