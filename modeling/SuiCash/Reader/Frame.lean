import SuiCash.Lib.Bytes
import SuiCash.Lib.Checksum
import SuiCash.Lib.Slices

/-!
# Frames between the host and the reader

`usb-poc/vendor/felica/src/driver/framing.rs`: the envelope around every command to a
reader and every answer, in the dialects of three chipsets.

A dialect names how it writes a length and how it reports an error.  `parse_eq_some_iff`
says what is accepted of a string, and as what: an acknowledgement, an error, or a payload
between a length field with its checksum and a data checksum with the postamble.

The sums are taken in sixteen bits and overflow where a payload is long; of the sum only
the low byte is used, so the wrapped sum does as well (`checksum_eq`).  The arithmetic is that of
a release build: one that checks for overflow panics where a sum passes 65535, as it does over
257 bytes `FF` with their checksum.
-/

namespace SuiCash.Reader

open Bytes Slices

def SOF : List UInt8 := [0x00, 0x00, 0xFF]

def ACK_BYTES : List UInt8 := [0x00, 0x00, 0xFF, 0x00, 0xFF, 0x00]

def ERROR_BYTES : List UInt8 := [0x00, 0x00, 0xFF, 0xFF, 0xFF, 0x00]

def POSTAMBLE : UInt8 := 0x00

def EXTENDED_LENGTH_MARKER : List UInt8 := [0xFF, 0xFF]

def LENGTH_OFFSET : ℕ := SOF.length

def NORMAL_DATA_START : ℕ := LENGTH_OFFSET + 2

def EXTENDED_DATA_START : ℕ := LENGTH_OFFSET + 5

def NORMAL_LENGTH_LIMIT : ℕ := 256

def STATUS_ERROR_BYTE : UInt8 := 0x7F

/-! ### Checksums -/

/-- `bytes.iter().map(|b| *b as u16).sum()`, which wraps in a release build. -/
def sum16 (bytes : List UInt8) : UInt16 := (bytes.map UInt8.toUInt16).sum

def checksum (bytes : List UInt8) : UInt8 := ((256 - (sum16 bytes % 256)) % 256).toUInt8

def lengthChecksum (len : UInt8) : UInt8 := checksum [len]

def checksumMatches (bytes : List UInt8) (checksumByte : UInt8) : Bool :=
  (sum16 bytes + checksumByte.toUInt16) % 256 == 0

theorem checksum_eq (bytes : List UInt8) : checksum bytes = -bytes.sum := by
  have hneg : ∀ w : UInt16, ((256 - w % 256) % 256).toUInt8 = -w.toUInt8 := by
    intro w
    apply UInt8.toNat_inj.mp
    rw [UInt8.toNat_neg, UInt16.toNat_toUInt8, UInt16.toNat_toUInt8, UInt16.toNat_mod,
      UInt16.toNat_sub, UInt16.toNat_mod]
    have hlt := w.toNat_lt
    simp only [UInt16.reduceToNat, UInt8.size]
    omega
  rw [checksum, sum16, hneg, Checksum.toUInt8_sum]

theorem checksumMatches_iff {bytes : List UInt8} {c : UInt8} :
    checksumMatches bytes c = true ↔ c = checksum bytes := by
  have hzero : ∀ w : UInt16, w % 256 = 0 ↔ w.toUInt8 = 0 := by
    intro w
    rw [← UInt16.toNat_inj, ← UInt8.toNat_inj, UInt16.toNat_mod, UInt16.toNat_toUInt8]
    rfl
  rw [checksumMatches, beq_iff_eq, hzero, UInt16.toUInt8_add, UInt8.toUInt8_toUInt16, sum16,
    Checksum.toUInt8_sum, Checksum.sum_add_eq_zero_iff, checksum_eq]

/-! ### Dialects -/

/-- How a chipset encodes the length of a frame's payload. -/
inductive LengthEncoding where
  | Normal
  | ExtendedLittleEndian
  | NormalOrExtendedBigEndian
  deriving DecidableEq

/-- How a chipset reports that it hit an error. -/
inductive ErrorDetection where
  | ErrorFrame
  | StatusByte
  deriving DecidableEq

structure FrameFormat where
  LENGTH : LengthEncoding
  ERROR : ErrorDetection

def Port100Format : FrameFormat := ⟨.ExtendedLittleEndian, .ErrorFrame⟩

def Rcs320Format : FrameFormat := ⟨.Normal, .StatusByte⟩

def Rcs956Format : FrameFormat := ⟨.NormalOrExtendedBigEndian, .ErrorFrame⟩

inductive FrameType where
  | Ack
  | Error
  | Data (payload : List UInt8)
  deriving DecidableEq

/-- A parsed or built frame in the dialect `F`. -/
structure Frame (F : FrameFormat) where
  raw : List UInt8
  frameType : FrameType
  deriving DecidableEq

/-! ### Writing -/

def pushNormalLength (len : ℕ) : List UInt8 :=
  [UInt8.ofNat len, lengthChecksum (UInt8.ofNat len)]

def pushExtendedLength (lenBytes : List UInt8) : List UInt8 :=
  EXTENDED_LENGTH_MARKER ++ lenBytes ++ [checksum lenBytes]

/-- The length field for a `len` byte payload; `none` where the assertion fails. -/
def pushLength (len : ℕ) : LengthEncoding → Option (List UInt8)
  | .Normal => if len < NORMAL_LENGTH_LIMIT then some (pushNormalLength len) else none
  | .ExtendedLittleEndian => some (pushExtendedLength (toLeBytes (UInt16.ofNat len)))
  | .NormalOrExtendedBigEndian =>
    if len < NORMAL_LENGTH_LIMIT then some (pushNormalLength len)
    else some (pushExtendedLength (toBeBytes (UInt16.ofNat len)))

namespace Frame

variable {F : FrameFormat}

def ack : Frame F := ⟨ACK_BYTES, .Ack⟩

/-- Builds a data frame carrying `payload`; `none` where it panics. -/
def build (payload : List UInt8) : Option (Frame F) := do
  let field ← pushLength payload.length F.LENGTH
  some ⟨SOF ++ field ++ payload ++ [checksum payload, POSTAMBLE], .Data payload⟩

def payload (f : Frame F) : Option (List UInt8) :=
  match f.frameType with
  | .Data payload => some payload
  | _ => none

end Frame

/-! ### Reading -/

/-- Where the parts of a data frame sit within its raw bytes. -/
structure FrameLayout where
  length : ℕ
  lengthBytes : List UInt8
  lcs : UInt8
  dataStart : ℕ

namespace FrameLayout

def parse (data : List UInt8) (encoding : LengthEncoding) : Option FrameLayout :=
  let extended := match encoding with
    | .Normal => false
    | _ => getSlice data LENGTH_OFFSET (LENGTH_OFFSET + 2) == some EXTENDED_LENGTH_MARKER
  if !extended then do
    let length ← data[LENGTH_OFFSET]?
    let lengthBytes ← getSlice data LENGTH_OFFSET (LENGTH_OFFSET + 1)
    let lcs ← data[LENGTH_OFFSET + 1]?
    some ⟨length.toNat, lengthBytes, lcs, NORMAL_DATA_START⟩
  else do
    let lengthBytes ← getSlice data (LENGTH_OFFSET + 2) (LENGTH_OFFSET + 4)
    let a ← lengthBytes[0]?
    let b ← lengthBytes[1]?
    let length := match encoding with
      | .ExtendedLittleEndian => fromLeBytes a b
      | _ => fromBeBytes a b
    let lcs ← data[LENGTH_OFFSET + 4]?
    some ⟨length.toNat, lengthBytes, lcs, EXTENDED_DATA_START⟩

/-- The additions are checked in the code; a length is below 65536, so they return. -/
def frameLen (l : FrameLayout) : ℕ := l.dataStart + l.length + 2

def validatedPayload (l : FrameLayout) (data : List UInt8) : Option (List UInt8) :=
  if !checksumMatches l.lengthBytes l.lcs then none
  else do
    let dataEnd := l.dataStart + l.length
    let payload ← getSlice data l.dataStart dataEnd
    let dcs ← data[dataEnd]?
    if !checksumMatches payload dcs then none
    else if data[dataEnd + 1]? != some POSTAMBLE then none
    else some payload

end FrameLayout

def hasSof (data : List UInt8) : Bool := getSlice data 0 SOF.length == some SOF

/-- What kind of frame `data` starts with, and how many bytes it takes up. -/
def classify (F : FrameFormat) (data : List UInt8) : Option (FrameType × ℕ) :=
  if data = ACK_BYTES then some (.Ack, ACK_BYTES.length)
  else if F.ERROR = .ErrorFrame ∧ data = ERROR_BYTES then some (.Error, ERROR_BYTES.length)
  else if F.ERROR = .StatusByte ∧ data[NORMAL_DATA_START]? = some STATUS_ERROR_BYTE then
    some (.Error, data.length)
  else do
    let layout ← FrameLayout.parse data F.LENGTH
    let payload ← layout.validatedPayload data
    some (.Data payload, layout.frameLen)

def Frame.parse {F : FrameFormat} (data : List UInt8) : Option (Frame F) :=
  if !hasSof data then none
  else do
    let (frameType, frameLen) ← classify F data
    some ⟨data.take frameLen, frameType⟩

/-! ### What is accepted -/

/-- The length fields that announce `n` bytes. -/
inductive Announces : LengthEncoding → ℕ → List UInt8 → Prop where
  | normal {encoding : LengthEncoding} {n : ℕ} : n < 256 →
      Announces encoding n (pushNormalLength n)
  | littleEndian {n : ℕ} : n < 65536 →
      Announces .ExtendedLittleEndian n (pushExtendedLength (toLeBytes (UInt16.ofNat n)))
  | bigEndian {n : ℕ} : n < 65536 →
      Announces .NormalOrExtendedBigEndian n (pushExtendedLength (toBeBytes (UInt16.ofNat n)))

/-- A payload in its envelope. -/
def Envelope (encoding : LengthEncoding) (payload raw : List UInt8) : Prop :=
  ∃ field, Announces encoding payload.length field
    ∧ raw = SOF ++ field ++ payload ++ [checksum payload, POSTAMBLE]

theorem hasSof_iff {data : List UInt8} : hasSof data = true ↔ ∃ tail, data = SOF ++ tail := by
  rw [hasSof, beq_iff_eq, getSlice_eq_some_iff (Nat.zero_le _)]
  constructor
  · rintro ⟨-, a, tail, ha, rfl⟩
    rw [List.length_eq_zero_iff.mp ha]
    exact ⟨tail, rfl⟩
  · rintro ⟨tail, rfl⟩
    exact ⟨rfl, [], tail, rfl, rfl⟩

namespace FrameLayout

/-- The checks that stand between a layout and its payload. -/
theorem validatedPayload_eq_some_iff {l : FrameLayout} {data payload : List UInt8} :
    l.validatedPayload data = some payload
      ↔ l.lcs = checksum l.lengthBytes ∧ payload.length = l.length
        ∧ ∃ head rest, head.length = l.dataStart
          ∧ data = head ++ (payload ++ checksum payload :: POSTAMBLE :: rest) := by
  have hplace : ∀ (head : List UInt8) (n : ℕ) (more : List UInt8), head.length = l.dataStart →
      payload.length = l.length →
      (head ++ (payload ++ more))[l.dataStart + l.length + n]? = more[n]? := by
    intro head n more hhead hlen
    rw [← hhead, ← hlen, Nat.add_assoc, List.getElem?_append_right (Nat.le_add_right _ _),
      Nat.add_sub_cancel_left, List.getElem?_append_right (Nat.le_add_right _ _),
      Nat.add_sub_cancel_left]
  constructor
  · intro h
    rw [validatedPayload, Option.ite_none_left_eq_some, Bool.not_eq_true', Bool.not_eq_false] at h
    obtain ⟨hlcs, h⟩ := h
    obtain ⟨payload', hslice, h⟩ := Option.bind_eq_some_iff.mp h
    obtain ⟨dcs, hdcs, h⟩ := Option.bind_eq_some_iff.mp h
    rw [Option.ite_none_left_eq_some, Option.ite_none_left_eq_some, Bool.not_eq_true',
      Bool.not_eq_false, bne_iff_ne, not_not] at h
    obtain ⟨hsum, hpost, heq⟩ := h
    cases heq
    obtain ⟨hlen, head, more, hhead, rfl⟩ :=
      (getSlice_eq_some_iff (Nat.le_add_right _ _)).mp hslice
    rw [Nat.add_sub_cancel_left] at hlen
    rw [← Nat.add_zero (l.dataStart + l.length), hplace head 0 more hhead hlen] at hdcs
    rw [hplace head 1 more hhead hlen] at hpost
    obtain ⟨more, rfl⟩ : ∃ rest, more = dcs :: POSTAMBLE :: rest := by
      match more with
      | [] => cases hdcs
      | [_] => cases hpost
      | _ :: _ :: rest =>
        cases hdcs
        cases hpost
        exact ⟨rest, rfl⟩
    rw [checksumMatches_iff.mp hsum]
    exact ⟨checksumMatches_iff.mp hlcs, hlen, head, more, hhead, rfl⟩
  · rintro ⟨hlcs, hlen, head, rest, hhead, rfl⟩
    have hslice : getSlice (head ++ (payload ++ checksum payload :: POSTAMBLE :: rest)) l.dataStart
        (l.dataStart + l.length) = some payload :=
      (getSlice_eq_some_iff (Nat.le_add_right _ _)).mpr
        ⟨by rw [hlen, Nat.add_sub_cancel_left], head, _, hhead, rfl⟩
    have hdcs := hplace head 0 (checksum payload :: POSTAMBLE :: rest) hhead hlen
    have hpost := hplace head 1 (checksum payload :: POSTAMBLE :: rest) hhead hlen
    rw [Nat.add_zero] at hdcs
    rw [validatedPayload, if_neg (by simp [checksumMatches_iff.mpr hlcs])]
    show (getSlice _ _ _ >>= _) = _
    rw [hslice]
    show ((_ : Option UInt8) >>= _) = _
    rw [hdcs]
    show (if _ then _ else _) = _
    rw [if_neg (by simp [checksumMatches_iff.mpr rfl]), hpost, if_neg (by simp)]

variable {encoding : LengthEncoding}

theorem parse_normal {a lcs : UInt8} {tail : List UInt8}
    (h : encoding = .Normal ∨ ¬ (a = 0xFF ∧ lcs = 0xFF)) :
    parse (SOF ++ a :: lcs :: tail) encoding = some ⟨a.toNat, [a], lcs, NORMAL_DATA_START⟩ := by
  cases encoding with
  | Normal => simp [parse, SOF, LENGTH_OFFSET, getSlice]
  | ExtendedLittleEndian | NormalOrExtendedBigEndian =>
    have hnot := h.resolve_left (by simp)
    simp [parse, SOF, LENGTH_OFFSET, getSlice, EXTENDED_LENGTH_MARKER, hnot]

/-- The word that the two length bytes write. -/
def lengthWord : LengthEncoding → UInt8 → UInt8 → UInt16
  | .ExtendedLittleEndian => fromLeBytes
  | _ => fromBeBytes

theorem parse_extended (h : encoding ≠ .Normal) {a b lcs : UInt8} {tail : List UInt8} :
    parse (SOF ++ 0xFF :: 0xFF :: a :: b :: lcs :: tail) encoding
      = some ⟨(lengthWord encoding a b).toNat, [a, b], lcs, EXTENDED_DATA_START⟩ := by
  cases encoding with
  | Normal => exact absurd rfl h
  | ExtendedLittleEndian | NormalOrExtendedBigEndian =>
    simp [parse, SOF, LENGTH_OFFSET, getSlice, EXTENDED_LENGTH_MARKER, lengthWord]

theorem parse_extended_short (h : encoding ≠ .Normal) {tail : List UInt8} (hlen : tail.length < 3) :
    parse (SOF ++ 0xFF :: 0xFF :: tail) encoding = none := by
  match tail, hlen with
  | [], _ | [_], _ | [_, _], _ =>
    cases encoding <;> simp_all [parse, SOF, LENGTH_OFFSET, getSlice, EXTENDED_LENGTH_MARKER]

theorem parse_short {tail : List UInt8} (hlen : tail.length < 2) :
    parse (SOF ++ tail) encoding = none := by
  match tail, hlen with
  | [], _ | [_], _ => cases encoding <;> simp [parse, SOF, LENGTH_OFFSET, getSlice]

/-- The checksum of a single length byte is never that of the marker. -/
theorem not_marker (a : UInt8) : ¬ (a = 0xFF ∧ lengthChecksum a = 0xFF) := by
  rintro ⟨rfl, h⟩
  exact absurd h (by decide)

theorem announces_extended {a b : UInt8} (h : encoding ≠ .Normal) :
    Announces encoding (lengthWord encoding a b).toNat (pushExtendedLength [a, b]) := by
  have hlt : (lengthWord encoding a b).toNat < 65536 := UInt16.toNat_lt _
  cases encoding with
  | Normal => exact absurd rfl h
  | ExtendedLittleEndian =>
    have hbytes : toLeBytes (UInt16.ofNat (fromLeBytes a b).toNat) = [a, b] := by
      rw [UInt16.ofNat_toNat, toLeBytes_fromLeBytes]
    exact hbytes ▸ Announces.littleEndian hlt
  | NormalOrExtendedBigEndian =>
    have hbytes : toBeBytes (UInt16.ofNat (fromBeBytes a b).toNat) = [a, b] := by
      rw [UInt16.ofNat_toNat, toBeBytes_fromBeBytes]
    exact hbytes ▸ Announces.bigEndian hlt

theorem announces_iff {n : ℕ} {field : List UInt8} :
    Announces encoding n field
      ↔ (∃ a : UInt8, n = a.toNat ∧ field = [a, lengthChecksum a])
        ∨ encoding ≠ .Normal
          ∧ ∃ a b, n = (lengthWord encoding a b).toNat ∧ field = pushExtendedLength [a, b] := by
  constructor
  · rintro (⟨hn⟩ | ⟨hn⟩ | ⟨hn⟩)
    · refine .inl ⟨UInt8.ofNat n, ?_, rfl⟩
      rw [UInt8.toNat_ofNat', Nat.mod_eq_of_lt hn]
    · obtain ⟨a, b, hab⟩ := List.length_eq_two.mp (length_toLeBytes (UInt16.ofNat n))
      refine .inr ⟨by simp, a, b, ?_, by rw [hab]⟩
      rw [lengthWord, fromLeBytes_eq_iff.mpr hab, UInt16.toNat_ofNat', Nat.mod_eq_of_lt hn]
    · obtain ⟨a, b, hab⟩ := List.length_eq_two.mp (length_toBeBytes (UInt16.ofNat n))
      refine .inr ⟨by simp, a, b, ?_, by rw [hab]⟩
      show n = (fromBeBytes a b).toNat
      rw [fromBeBytes_eq_iff.mpr hab, UInt16.toNat_ofNat', Nat.mod_eq_of_lt hn]
  · rintro (⟨a, rfl, rfl⟩ | ⟨hE, a, b, rfl, rfl⟩)
    · have hfield : pushNormalLength a.toNat = [a, lengthChecksum a] := by
        rw [pushNormalLength, UInt8.ofNat_toNat]
      exact hfield ▸ Announces.normal a.toNat_lt
    · exact announces_extended hE

/-- A layout whose length checksum holds is one length field. -/
theorem exists_parse_iff {tail : List UInt8} {n k : ℕ} :
    (∃ l, parse (SOF ++ tail) encoding = some l ∧ l.lcs = checksum l.lengthBytes ∧ l.length = n
        ∧ l.dataStart = k)
      ↔ ∃ field rest, Announces encoding n field ∧ tail = field ++ rest
        ∧ k = (SOF ++ field).length := by
  constructor
  · rintro ⟨l, hl, hlcs, rfl, rfl⟩
    match tail with
    | [] | [_] =>
      rw [parse_short (by simp)] at hl
      cases hl
    | a :: lcs :: tail =>
      by_cases hform : encoding = .Normal ∨ ¬ (a = 0xFF ∧ lcs = 0xFF)
      · rw [parse_normal hform] at hl
        cases hl
        exact ⟨[a, lengthChecksum a], tail, announces_iff.mpr (.inl ⟨a, rfl, rfl⟩),
          congrArg (fun b => a :: b :: tail) hlcs, rfl⟩
      · obtain ⟨hE, hmarker⟩ := not_or.mp hform
        obtain ⟨rfl, rfl⟩ := not_not.mp hmarker
        match tail with
        | [] | [_] | [_, _] =>
          rw [parse_extended_short hE (by simp)] at hl
          cases hl
        | a :: b :: lcs :: tail =>
          rw [parse_extended hE] at hl
          cases hl
          exact ⟨pushExtendedLength [a, b], tail, announces_extended hE,
            congrArg (fun c => 0xFF :: 0xFF :: a :: b :: c :: tail) hlcs, rfl⟩
  · rintro ⟨field, rest, hfield, rfl, rfl⟩
    rcases announces_iff.mp hfield with ⟨a, rfl, rfl⟩ | ⟨hE, a, b, rfl, rfl⟩
    · exact ⟨_, parse_normal (.inr (not_marker a)), rfl, rfl, rfl⟩
    · exact ⟨_, parse_extended hE, rfl, rfl, rfl⟩

/-- **What the layout's checks pass is a payload in its envelope**, and nothing else. -/
theorem exists_validated_iff {data payload : List UInt8} (hsof : hasSof data = true) {k : ℕ} :
    (∃ l, parse data encoding = some l ∧ l.validatedPayload data = some payload ∧ l.frameLen = k)
      ↔ ∃ raw rest, Envelope encoding payload raw ∧ data = raw ++ rest ∧ k = raw.length := by
  obtain ⟨tail, rfl⟩ := hasSof_iff.mp hsof
  constructor
  · rintro ⟨l, hl, hvalid, rfl⟩
    obtain ⟨hlcs, hlen, head, rest, hhead, hdata⟩ := validatedPayload_eq_some_iff.mp hvalid
    obtain ⟨field, more, hfield, rfl, hk⟩ := exists_parse_iff.mp ⟨l, hl, hlcs, rfl, rfl⟩
    rw [← List.append_assoc] at hdata
    obtain ⟨rfl, rfl⟩ := List.append_inj hdata (by rw [hhead, hk])
    refine ⟨SOF ++ field ++ payload ++ [checksum payload, POSTAMBLE], rest,
      ⟨field, hlen ▸ hfield, rfl⟩, by simp, ?_⟩
    rw [frameLen, hk, ← hlen]
    simp [Nat.add_assoc]
  · rintro ⟨_, rest, ⟨field, hfield, rfl⟩, hdata, rfl⟩
    have htail : tail = field ++ (payload ++ checksum payload :: POSTAMBLE :: rest) := by
      have happ : SOF ++ tail
          = SOF ++ (field ++ (payload ++ checksum payload :: POSTAMBLE :: rest)) := by
        rw [hdata]
        simp
      exact List.append_cancel_left happ
    obtain ⟨l, hl, hlcs, hlen, hstart⟩ := exists_parse_iff.mpr ⟨field, _, hfield, htail, rfl⟩
    refine ⟨l, hl, validatedPayload_eq_some_iff.mpr ⟨hlcs, hlen.symm, SOF ++ field, rest,
      hstart.symm, ?_⟩, ?_⟩
    · rw [htail, List.append_assoc]
    · rw [frameLen, hstart, hlen]
      simp [Nat.add_assoc]

end FrameLayout

/-! ### The parts of an envelope -/

/-- A payload with its checksum and the postamble. -/
def sealed (payload : List UInt8) : List UInt8 := payload ++ [checksum payload] ++ [POSTAMBLE]

theorem length_sealed (payload : List UInt8) : (sealed payload).length = payload.length + 2 := by
  simp [sealed]

/-- What comes behind the two bytes `u` and `v` in an envelope. -/
def Behind (encoding : LengthEncoding) (payload : List UInt8) (u v : UInt8) (tail : List UInt8) :
    Prop :=
  (payload.length = u.toNat ∧ v = lengthChecksum u ∧ tail = sealed payload)
    ∨ (encoding ≠ .Normal ∧ u = 0xFF ∧ v = 0xFF
      ∧ ∃ a b, payload.length = (FrameLayout.lengthWord encoding a b).toNat
        ∧ tail = ([a, b] ++ [checksum [a, b]]) ++ sealed payload)

theorem envelope_iff {encoding : LengthEncoding} {payload raw : List UInt8} :
    Envelope encoding payload raw
    ↔ ∃ u v tail, Behind encoding payload u v tail ∧ raw = (SOF ++ [u, v]) ++ tail := by
  constructor
  · rintro ⟨field, hfield, rfl⟩
    rcases FrameLayout.announces_iff.mp hfield with ⟨a, hlen, rfl⟩ | ⟨hE, a, b, hlen, rfl⟩
    · exact ⟨a, lengthChecksum a, sealed payload, .inl ⟨hlen, rfl, rfl⟩, by simp [sealed]⟩
    · exact ⟨0xFF, 0xFF, _, .inr ⟨hE, rfl, rfl, a, b, hlen, rfl⟩,
        by simp [sealed, pushExtendedLength, EXTENDED_LENGTH_MARKER]⟩
  · rintro ⟨u, v, tail, ⟨hlen, rfl, rfl⟩ | ⟨hE, rfl, rfl, a, b, hlen, rfl⟩, rfl⟩
    · exact ⟨[u, lengthChecksum u], FrameLayout.announces_iff.mpr (.inl ⟨u, hlen, rfl⟩),
        by simp [sealed]⟩
    · exact ⟨pushExtendedLength [a, b], FrameLayout.announces_iff.mpr (.inr ⟨hE, a, b, hlen, rfl⟩),
        by simp [sealed, pushExtendedLength, EXTENDED_LENGTH_MARKER]⟩

theorem Envelope.length_le {encoding : LengthEncoding} {payload raw : List UInt8}
    (h : Envelope encoding payload raw) : 7 ≤ raw.length := by
  obtain ⟨field, hfield, rfl⟩ := h
  rcases FrameLayout.announces_iff.mp hfield with ⟨a, -, rfl⟩ | ⟨-, a, b, -, rfl⟩ <;>
    simp [SOF, pushExtendedLength, EXTENDED_LENGTH_MARKER]

theorem Envelope.ne_of_length {encoding : LengthEncoding} {payload raw s : List UInt8}
    (h : Envelope encoding payload raw) (rest : List UInt8) (hs : s.length = 6) :
    raw ++ rest ≠ s := by
  rintro rfl
  have hlen := h.length_le
  rw [List.length_append] at hs
  omega

theorem Envelope.hasSof {encoding : LengthEncoding} {payload raw : List UInt8}
    (h : Envelope encoding payload raw) (rest : List UInt8) : hasSof (raw ++ rest) = true := by
  obtain ⟨field, -, rfl⟩ := h
  exact hasSof_iff.mpr ⟨field ++ payload ++ [checksum payload, POSTAMBLE] ++ rest, by simp⟩

/-- An error that the status byte reports. -/
abbrev StatusError (F : FrameFormat) (data : List UInt8) : Prop :=
  F.ERROR = .StatusByte ∧ data[NORMAL_DATA_START]? = some STATUS_ERROR_BYTE

theorem classify_data_iff {F : FrameFormat} {data : List UInt8} {frameType : FrameType} {k : ℕ}
    (hack : data ≠ ACK_BYTES) (herror : ¬ (F.ERROR = .ErrorFrame ∧ data = ERROR_BYTES))
    (hstatus : ¬ StatusError F data) (hsof : hasSof data = true) :
    classify F data = some (frameType, k)
      ↔ ∃ payload raw rest, Envelope F.LENGTH payload raw ∧ frameType = .Data payload
        ∧ data = raw ++ rest ∧ k = raw.length := by
  rw [classify, if_neg hack, if_neg herror, if_neg hstatus]
  constructor
  · intro h
    obtain ⟨l, hl, h⟩ := Option.bind_eq_some_iff.mp h
    obtain ⟨payload, hvalid, h⟩ := Option.bind_eq_some_iff.mp h
    obtain ⟨rfl, hk⟩ := Prod.mk.inj (Option.some.inj h)
    obtain ⟨raw, rest, henv, hdata, hlen⟩ :=
      (FrameLayout.exists_validated_iff hsof).mp ⟨l, hl, hvalid, hk⟩
    exact ⟨payload, raw, rest, henv, rfl, hdata, hlen⟩
  · rintro ⟨payload, raw, rest, henv, rfl, hdata, hk⟩
    obtain ⟨l, hl, hvalid, hlen⟩ :=
      (FrameLayout.exists_validated_iff hsof).mpr ⟨raw, rest, henv, hdata, hk⟩
    exact Option.bind_eq_some_iff.mpr ⟨l, hl, Option.bind_eq_some_iff.mpr
      ⟨payload, hvalid, congrArg (fun n => some (FrameType.Data payload, n)) hlen⟩⟩

theorem parse_eq_some_iff_classify {F : FrameFormat} {data : List UInt8} {f : Frame F} :
    Frame.parse data = some f
      ↔ hasSof data = true ∧ ∃ k, classify F data = some (f.frameType, k)
        ∧ data.take k = f.raw := by
  rw [Frame.parse, Option.ite_none_left_eq_some, Bool.not_eq_true', Bool.not_eq_false]
  refine and_congr_right fun _ => ⟨fun h => ?_, ?_⟩
  · obtain ⟨⟨frameType, k⟩, hclass, h⟩ := Option.bind_eq_some_iff.mp h
    cases h
    exact ⟨k, hclass, rfl⟩
  · rintro ⟨k, hclass, hraw⟩
    rw [hclass]
    exact congrArg some (congrArg (Frame.mk · f.frameType) hraw)

/-- What is accepted of a string, and as what. -/
theorem Frame.parse_eq_some_iff {F : FrameFormat} {data : List UInt8} {f : Frame F} :
    Frame.parse data = some f
      ↔ (data = ACK_BYTES ∧ f = Frame.ack)
        ∨ (F.ERROR = .ErrorFrame ∧ data = ERROR_BYTES ∧ f = ⟨ERROR_BYTES, .Error⟩)
        ∨ (StatusError F data ∧ SOF <+: data ∧ f = ⟨data, .Error⟩)
        ∨ ∃ payload rest, Envelope F.LENGTH payload f.raw ∧ f.frameType = .Data payload
          ∧ data = f.raw ++ rest ∧ ¬ StatusError F data := by
  rw [parse_eq_some_iff_classify]
  obtain ⟨raw, frameType⟩ := f
  constructor
  · rintro ⟨hsof, k, hclass, hraw⟩
    by_cases hack : data = ACK_BYTES
    · rw [classify, if_pos hack] at hclass
      cases hclass
      rw [hack] at hraw
      exact .inl ⟨hack, congrArg (Frame.mk · .Ack) hraw.symm⟩
    by_cases herror : F.ERROR = .ErrorFrame ∧ data = ERROR_BYTES
    · rw [classify, if_neg hack, if_pos herror] at hclass
      cases hclass
      rw [herror.2] at hraw
      exact .inr (.inl ⟨herror.1, herror.2, congrArg (Frame.mk · .Error) hraw.symm⟩)
    by_cases hstatus : StatusError F data
    · rw [classify, if_neg hack, if_neg herror, if_pos hstatus] at hclass
      cases hclass
      rw [List.take_length] at hraw
      obtain ⟨tail, htail⟩ := hasSof_iff.mp hsof
      exact .inr (.inr (.inl ⟨hstatus, ⟨tail, htail.symm⟩, congrArg (Frame.mk · .Error) hraw.symm⟩))
    · obtain ⟨payload, raw', rest, henv, htype, rfl, rfl⟩ :=
        (classify_data_iff hack herror hstatus hsof).mp hclass
      rw [List.take_left' rfl] at hraw
      cases hraw
      exact .inr (.inr (.inr ⟨payload, rest, henv, htype, rfl, hstatus⟩))
  · rintro (⟨rfl, hf⟩ | ⟨hF, rfl, hf⟩ | ⟨hstatus, ⟨tail, rfl⟩, hf⟩ |
      ⟨payload, rest, henv, rfl, rfl, hstatus⟩)
    · cases hf
      exact ⟨rfl, ACK_BYTES.length, if_pos rfl, rfl⟩
    · cases hf
      refine ⟨rfl, ERROR_BYTES.length, ?_, rfl⟩
      rw [classify, if_neg (by decide), if_pos ⟨hF, rfl⟩]
    · cases hf
      refine ⟨hasSof_iff.mpr ⟨tail, rfl⟩, (SOF ++ tail).length, ?_, List.take_length⟩
      have hack : SOF ++ tail ≠ ACK_BYTES := by
        intro h
        have hbyte := hstatus.2
        rw [h] at hbyte
        exact absurd hbyte (by decide)
      have herror : ¬ (F.ERROR = .ErrorFrame ∧ SOF ++ tail = ERROR_BYTES) := by
        rintro ⟨hF, -⟩
        rw [hstatus.1] at hF
        cases hF
      rw [classify, if_neg hack, if_neg herror, if_pos hstatus]
    · have hack : raw ++ rest ≠ ACK_BYTES := henv.ne_of_length rest rfl
      have herror : ¬ (F.ERROR = .ErrorFrame ∧ raw ++ rest = ERROR_BYTES) :=
        fun h => henv.ne_of_length rest rfl h.2
      exact ⟨henv.hasSof rest, raw.length, (classify_data_iff hack herror hstatus
        (henv.hasSof rest)).mpr ⟨payload, raw, rest, henv, rfl, rfl, rfl⟩, List.take_left' rfl⟩

theorem Frame.envelope_of_build {F : FrameFormat} {payload : List UInt8} {f : Frame F}
    (h : Frame.build payload = some f) (hlen : payload.length < 65536) :
    Envelope F.LENGTH payload f.raw ∧ f.frameType = .Data payload := by
  obtain ⟨field, hfield, h⟩ := Option.bind_eq_some_iff.mp h
  cases h
  refine ⟨⟨field, ?_, rfl⟩, rfl⟩
  revert hfield
  cases F.LENGTH with
  | Normal =>
    intro hfield
    obtain ⟨hshort, hfield⟩ := Option.ite_none_right_eq_some.mp hfield
    cases hfield
    exact .normal hshort
  | ExtendedLittleEndian =>
    intro hfield
    cases hfield
    exact .littleEndian hlen
  | NormalOrExtendedBigEndian =>
    intro hfield
    rw [pushLength] at hfield
    split at hfield
    · cases hfield
      exact .normal ‹_›
    · cases hfield
      exact .bigEndian hlen

theorem Frame.parse_build {F : FrameFormat} {payload : List UInt8} {f : Frame F}
    (h : Frame.build payload = some f) (hlen : payload.length < 65536)
    (hstatus : ¬ StatusError F f.raw) (rest : List UInt8) :
    Frame.parse (f.raw ++ rest) = some f := by
  obtain ⟨henv, htype⟩ := Frame.envelope_of_build h hlen
  have hbyte : (f.raw ++ rest)[NORMAL_DATA_START]? = f.raw[NORMAL_DATA_START]? := by
    have hlt : NORMAL_DATA_START < f.raw.length := lt_of_lt_of_le (by decide) henv.length_le
    rw [List.getElem?_append_left hlt]
  refine Frame.parse_eq_some_iff.mpr (.inr (.inr (.inr ⟨payload, rest, henv, htype, rfl, ?_⟩)))
  rwa [StatusError, hbyte]

/-- **Frames are read as they were written**, in every dialect.  The reader takes exactly the
two short frames, the status frame and the envelopes, and of an envelope its own bytes and
payload; so what is built is read back, whatever comes after it, unless it looks like a
status.  The sums wrap, as in a release build. -/
theorem Frame.read_as_written (F : FrameFormat) :
    (∀ (data : List UInt8) (f : Frame F), Frame.parse data = some f ↔
      (data = ACK_BYTES ∧ f = Frame.ack)
      ∨ (F.ERROR = .ErrorFrame ∧ data = ERROR_BYTES ∧ f = ⟨ERROR_BYTES, .Error⟩)
      ∨ (StatusError F data ∧ SOF <+: data ∧ f = ⟨data, .Error⟩)
      ∨ ∃ payload rest, Envelope F.LENGTH payload f.raw ∧ f.frameType = .Data payload
        ∧ data = f.raw ++ rest ∧ ¬ StatusError F data)
    ∧ ∀ (payload : List UInt8) (f : Frame F), payload.length < 65536 →
      Frame.build payload = some f → ¬ StatusError F f.raw →
      ∀ rest, Frame.parse (f.raw ++ rest) = some f :=
  ⟨fun _ _ => Frame.parse_eq_some_iff,
    fun _ _ hlen h hstatus => Frame.parse_build h hlen hstatus⟩

theorem Frame.read_as_written_command :
    Frame.parse ([0, 0, 0xFF, 0xFF, 0xFF, 2, 0, 0xFE, 0xD6, 0x20, 0x0A, 0] ++ [7])
      = some (⟨[0, 0, 0xFF, 0xFF, 0xFF, 2, 0, 0xFE, 0xD6, 0x20, 0x0A, 0], .Data [0xD6, 0x20]⟩ :
        Frame Port100Format) :=
  (Frame.read_as_written Port100Format).2 [0xD6, 0x20] _ (by decide) rfl (by decide) [7]

end SuiCash.Reader
