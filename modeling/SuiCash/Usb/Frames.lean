import SuiCash.Lib.Format
import SuiCash.Usb.Card

/-!
# What a command says

A `Request` is a command as the card should understand it, and `decodeFrame` reads one
back from a frame, counts and lists and all.

The code casts every length to a byte before anything is checked, and checks only the
whole frame.  That is enough: a frame of 255 bytes has no room for a list of 256
(`commands_faithful`).
-/

namespace SuiCash.Usb

open Bytes Device

/-! ### Frames read back -/

/-- What a command asks of the card. -/
inductive Request where
  | requestService (nodes : List UInt16)
  | requestCodeList (parent index : UInt16)
  | requestBlockInformation (nodes : List UInt16)
  | requestSystemCodes
  | authentication1 (areas services : List UInt16) (c1a : Block)
  | authentication2 (c2b : Block)
  deriving DecidableEq

/-- The lengths that are sent in one byte. -/
def Request.counts : Request → List ℕ
  | .requestService nodes | .requestBlockInformation nodes => [nodes.length]
  | .authentication1 areas services _ => [areas.length, services.length]
  | .requestCodeList _ _ | .requestSystemCodes | .authentication2 _ => []

def blockFormat : Format Block := .array 8

def codesFormat : Format (List UInt16) := .counted .wordLe

def decodeBody (command : UInt8) (bytes : List UInt8) : Option (Block × Request) :=
  if command = code.REQUEST_SERVICE then
    ((blockFormat.seq codesFormat).whole bytes).map fun p => (p.1, .requestService p.2)
  else if command = code.REQUEST_CODE_LIST then
    ((blockFormat.seq (.seq .wordLe .wordLe)).whole bytes).map fun p =>
      (p.1, .requestCodeList p.2.1 p.2.2)
  else if command = code.REQUEST_BLOCK_INFORMATION then
    ((blockFormat.seq codesFormat).whole bytes).map fun p => (p.1, .requestBlockInformation p.2)
  else if command = code.REQUEST_SYSTEM_CODE then
    (blockFormat.whole bytes).map fun idm => (idm, .requestSystemCodes)
  else if command = code.AUTHENTICATION1 then
    ((blockFormat.seq (codesFormat.seq (codesFormat.seq blockFormat))).whole bytes).map fun p =>
      (p.1, .authentication1 p.2.1 p.2.2.1 p.2.2.2)
  else if command = code.AUTHENTICATION2 then
    ((blockFormat.seq blockFormat).whole bytes).map fun p => (p.1, .authentication2 p.2)
  else none

/-- The IDm a frame is addressed to, and what it asks. -/
def decodeFrame : List UInt8 → Option (Block × Request)
  | length :: command :: bytes =>
    if length.toNat = bytes.length + 2 then decodeBody command bytes else none
  | _ => none

/-! ### Commands sent whole -/

section Command

variable {α : Type} (device : List UInt8 × UInt16 → Except String (List UInt8)) (timeoutMs : UInt16)

/-- A command of `size` bytes is refused for its size before anything is sent, or sent in
one frame that is read back as what it asks. -/
structure SentOrRefused (c : Exchange α) (size : ℕ) (idm : Block) (q : Request) : Prop where
  refused_iff : c.asked device = [] ↔ 0xFF < size
  refused : 0xFF < size → c.outcome device
    = bail s!"FeliCa packet would be {size} bytes; the length field caps it at 255"
  sent : size ≤ 0xFF → ∃ frame, c.asked device = [(frame, timeoutMs)] ∧ frame.length = size
    ∧ frame.head?.map UInt8.toNat = some frame.length ∧ decodeFrame frame = some (idm, q)
  counts : size ≤ 0xFF → ∀ n ∈ q.counts, (UInt8.ofNat n).toNat = n

variable {device timeoutMs}

theorem sentOrRefused_command {command : UInt8} {bytes : List UInt8} {size : ℕ} {idm : Block}
    {q : Request} (hsize : bytes.length + 2 = size)
    (hdecode : size ≤ 0xFF → decodeBody command bytes = some (idm, q) ∧ ∀ n ∈ q.counts, n < 256)
    (read : List UInt8 → Reading α) :
    SentOrRefused device timeoutMs (Usb.command (command :: bytes) timeoutMs read) size idm q := by
  have hlen : (command :: bytes).length + 1 = size := hsize
  refine ⟨⟨fun hnone => ?_, fun h => ?_⟩, fun h => ?_, fun h => ?_, fun h n hn => ?_⟩
  · by_contra hfits
    have hsent := (command_sent device timeoutMs read (hlen ▸ Nat.not_lt.mp hfits)).1
    rw [hnone] at hsent
    cases hsent
  · exact (command_refused device timeoutMs read (hlen ▸ h)).1
  · rw [(command_refused device timeoutMs read (hlen ▸ h)).2, hlen]
  · have hbyte : (UInt8.ofNat size).toNat = size := by
      rw [UInt8.toNat_ofNat', Nat.mod_eq_of_lt (Nat.lt_succ_of_le h)]
    have hsent := (command_sent device timeoutMs read (hlen ▸ h)).1
    rw [hlen] at hsent
    refine ⟨_, hsent, hlen, ?_, ?_⟩
    · rw [List.head?_cons, Option.map_some, hbyte, List.length_cons, hlen]
    · rw [decodeFrame, if_pos (hbyte.trans hsize.symm)]
      exact (hdecode h).1
  · rw [UInt8.toNat_ofNat', Nat.mod_eq_of_lt ((hdecode h).2 n hn)]

end Command

/-! ### The six commands -/

theorem length_codes (nodes : List UInt16) : (codes nodes).length = 2 * nodes.length + 1 := by
  rw [codes, List.length_cons, List.length_flatMap]
  simp [Nat.mul_comm]

theorem codesFormat_fits {nodes : List UInt16} (h : nodes.length < 256) : codesFormat.Fits nodes :=
  ⟨h, fun _ _ => trivial⟩

section Card

variable (card : Card) {device : List UInt8 × UInt16 → Except String (List UInt8)}
  (timeoutMs : UInt16)

/-- A command that asks about nodes, whatever request it makes of them. -/
theorem sentOrRefused_nodes {α : Type} {command : UInt8} (request : List UInt16 → Request)
    (hdecode : ∀ bytes, decodeBody command bytes
      = ((blockFormat.seq codesFormat).whole bytes).map fun p => (p.1, request p.2))
    (nodes : List UInt16) (hcounts : (request nodes).counts = [nodes.length])
    (read : List UInt8 → Reading α) :
    SentOrRefused device timeoutMs
      (Usb.command (command :: (card.idm.toList ++ codes nodes)) timeoutMs read)
      (11 + 2 * nodes.length) card.idm (request nodes) := by
  refine sentOrRefused_command ?_ (fun h => ⟨?_, ?_⟩) read
  · rw [List.length_append, length_codes, Vector.length_toList]
    omega
  · have hnodes : nodes.length < 256 := by omega
    rw [hdecode]
    exact congrArg (Option.map fun p => (p.1, request p.2)) (Format.whole_write
      (f := blockFormat.seq codesFormat) (a := (card.idm, nodes)) ⟨trivial, codesFormat_fits hnodes⟩)
  · rw [hcounts, List.forall_mem_singleton]
    omega

theorem requestService_faithful (nodes : List UInt16) :
    SentOrRefused device timeoutMs (card.requestService nodes timeoutMs) (11 + 2 * nodes.length)
      card.idm (.requestService nodes) :=
  sentOrRefused_nodes card timeoutMs .requestService (fun _ => rfl) nodes rfl _

theorem requestBlockInformation_faithful (nodes : List UInt16) :
    SentOrRefused device timeoutMs (card.requestBlockInformation nodes timeoutMs)
      (11 + 2 * nodes.length) card.idm (.requestBlockInformation nodes) :=
  sentOrRefused_nodes card timeoutMs .requestBlockInformation (fun _ => rfl) nodes rfl _

theorem requestCodeList_faithful (parent index : UInt16) :
    SentOrRefused device timeoutMs (card.requestCodeList parent index timeoutMs) 14 card.idm
      (.requestCodeList parent index) := by
  refine sentOrRefused_command ?_ (fun _ => ⟨?_, fun n hn => absurd hn List.not_mem_nil⟩) _
  · simp only [List.length_append, length_toLeBytes, Vector.length_toList]
  · exact congrArg (Option.map fun p => (p.1, Request.requestCodeList p.2.1 p.2.2)) (Format.whole_write
      (f := blockFormat.seq (.seq .wordLe .wordLe)) (a := (card.idm, parent, index))
      ⟨trivial, trivial, trivial⟩)

theorem requestSystemCodes_faithful :
    SentOrRefused device timeoutMs (card.requestSystemCodes timeoutMs) 10 card.idm
      .requestSystemCodes := by
  refine sentOrRefused_command ?_ (fun _ => ⟨?_, fun n hn => absurd hn List.not_mem_nil⟩) _
  · rw [Vector.length_toList]
  · exact congrArg (Option.map fun idm => (idm, Request.requestSystemCodes))
      (Format.whole_write (f := blockFormat) (a := card.idm) trivial)

/-- Two lists share the frame, so neither can be longer than it. -/
theorem authentication1_faithful (areas services : List UInt16) (c1a : Block) :
    SentOrRefused device timeoutMs (card.authentication1 areas services c1a timeoutMs)
      (20 + 2 * areas.length + 2 * services.length) card.idm
      (.authentication1 areas services c1a) := by
  refine sentOrRefused_command ?_ (fun h => ⟨?_, ?_⟩) _
  · simp only [List.length_append, length_codes, Vector.length_toList]
    omega
  · have hareas : areas.length < 256 := by omega
    have hservices : services.length < 256 := by omega
    exact congrArg (Option.map fun p => (p.1, Request.authentication1 p.2.1 p.2.2.1 p.2.2.2))
      (Format.whole_write (f := blockFormat.seq (codesFormat.seq (codesFormat.seq blockFormat)))
        (a := (card.idm, areas, services, c1a))
        ⟨trivial, codesFormat_fits hareas, codesFormat_fits hservices, trivial⟩)
  · simp only [Request.counts, List.forall_mem_cons, List.not_mem_nil, false_imp_iff, implies_true,
      and_true]
    omega

theorem authentication2_faithful (c2b : Block) :
    SentOrRefused device timeoutMs (card.authentication2 c2b timeoutMs) 18 card.idm
      (.authentication2 c2b) := by
  refine sentOrRefused_command ?_ (fun _ => ⟨?_, fun n hn => absurd hn List.not_mem_nil⟩) _
  · rw [List.length_append, Vector.length_toList, Vector.length_toList]
  · exact congrArg (Option.map fun p => (p.1, Request.authentication2 p.2)) (Format.whole_write
      (f := blockFormat.seq blockFormat) (a := (card.idm, c2b)) ⟨trivial, trivial⟩)

end Card

/-- **The commands are faithful or refused**, whatever their lists and whatever the reader
does. -/
theorem commands_faithful (card : Card)
    (device : List UInt8 × UInt16 → Except String (List UInt8)) (timeoutMs : UInt16) :
    (∀ nodes, SentOrRefused device timeoutMs (card.requestService nodes timeoutMs)
        (11 + 2 * nodes.length) card.idm (.requestService nodes))
    ∧ (∀ parent index, SentOrRefused device timeoutMs (card.requestCodeList parent index timeoutMs)
        14 card.idm (.requestCodeList parent index))
    ∧ (∀ nodes, SentOrRefused device timeoutMs (card.requestBlockInformation nodes timeoutMs)
        (11 + 2 * nodes.length) card.idm (.requestBlockInformation nodes))
    ∧ SentOrRefused device timeoutMs (card.requestSystemCodes timeoutMs) 10 card.idm
        .requestSystemCodes
    ∧ (∀ areas services c1a, SentOrRefused device timeoutMs
        (card.authentication1 areas services c1a timeoutMs)
        (20 + 2 * areas.length + 2 * services.length) card.idm (.authentication1 areas services c1a))
    ∧ ∀ c2b, SentOrRefused device timeoutMs (card.authentication2 c2b timeoutMs) 18 card.idm
        (.authentication2 c2b) :=
  ⟨requestService_faithful card timeoutMs, requestCodeList_faithful card timeoutMs,
    requestBlockInformation_faithful card timeoutMs, requestSystemCodes_faithful card timeoutMs,
    authentication1_faithful card timeoutMs, authentication2_faithful card timeoutMs⟩

end SuiCash.Usb
