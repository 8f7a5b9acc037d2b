import SuiCash.Lib.JsString

/-!
# Card numbers

`regist-web/src/lib/cardnumber.ts`: the number printed on a card and the IDi it
stands for, eight bytes written as sixteen hex digits.  An `Idi` is those bytes as
the four words of the layout, `Idi.hex` their digits and `Idi.cardNumber` the number
in closed form.

* `idiToCardNumber_hex`: the encoder prints `Idi.cardNumber`.
* `readCardNumber_cardNumber`: what the decoder reads there.  It takes `FC` for a
  letter prefix also where it begins the four hex digits of an issuer, and it cannot
  know the top bit of the date, which is not printed.
* `Idi.cardNumber_eq_iff`: that bit is all that two IDis of one number differ in.
* `idi_roundTrip_iff`: so the IDis that come back are those with neither.
-/

namespace SuiCash.Regist

open Js

/-! ### The conversions -/

def issuerToPrefix : List (ℕ × Str) :=
  [(0x0102, text "JH"), (0x0103, text "JE"), (0x0104, text "JC"), (0x0105, text "JW"),
    (0x0107, text "JK"), (0x0252, text "PB"), (0x0387, text "TP"), (0x04ad, text "SU"),
    (0x05d5, text "NR"), (0x05d7, text "FC")]

def prefixToIssuer : List (Str × ℕ) := issuerToPrefix.map fun entry => (entry.2, entry.1)

def hex2 (js : CaseMaps) (n : ℕ) : Str := padStart 2 (unit '0') (js.toUpperCase (toStringRadix 16 n))

def hex4 (js : CaseMaps) (n : ℕ) : Str := padStart 4 (unit '0') (js.toUpperCase (toStringRadix 16 n))

def bytesOfPairs : Str → List ℕ
  | hi :: lo :: rest => parseInt 16 [hi, lo] :: bytesOfPairs rest
  | _ => []

def hexToBytes (js : CaseMaps) (h : Str) : Option (List ℕ) :=
  let s := js.toLowerCase (trim h)
  if !s.all isLowerHex || s.length % 2 != 0 then none else some (bytesOfPairs s)

def bytesToHex (bytes : List ℕ) : Str :=
  bytes.flatMap fun b => padStart 2 (unit '0') (toStringRadix 16 b)

/-- 8-byte IDi (16 hex chars) -> card number, `null` if the input is not 8 bytes. -/
def idiToCardNumber (js : CaseMaps) (idiHex : Str) : Option Str :=
  match hexToBytes js idiHex with
  | some [b0, b1, b2, b3, b4, b5, b6, b7] =>
    let issuer := (b0 <<< 8) ||| b1
    let remainder := hex2 js b2 ++ hex2 js b3
    let head := match issuerToPrefix.lookup issuer with
      | some letters => letters ++ remainder
      | none => hex4 js issuer ++ remainder
    let v := (b4 <<< 8) ||| b5
    let year := (v >>> 9) &&& 0x3f
    let month := (v >>> 5) &&& 0x0f
    let day := v &&& 0x1f
    let yy := year % 100
    let date := padStart 2 (unit '0') (toStringRadix 10 yy)
      ++ padStart 2 (unit '0') (toStringRadix 10 month)
      ++ padStart 2 (unit '0') (toStringRadix 10 day)
    let tail := padStart 5 (unit '0') (toStringRadix 10 ((b6 <<< 8) ||| b7))
    some (head ++ date ++ tail)
  | _ => none

/-- `card.replace(/[\s-]/g, "").toUpperCase()`. -/
def compact (js : CaseMaps) (card : Str) : Str :=
  js.toUpperCase (card.filter fun u => !(isSpace u || u == unit '-'))

/-- The head of a number, a known letter prefix or else four hex digits, and the rest. -/
def splitHead (s : Str) : Option (ℕ × Str) :=
  match prefixToIssuer.lookup (slice 0 2 s) with
  | some issuer => some (issuer, s.drop 2)
  | none =>
    if isRun isUpperHex 4 (slice 0 4 s) then some (parseInt 16 (slice 0 4 s), s.drop 4) else none

/-- The rest of a number: the remainder, the date and the serial. -/
def readRest (rest : Str) : Option (ℕ × ℕ × ℕ) :=
  if rest.length ≠ 15 then none else
  let remainderHex := slice 0 4 rest
  let dateStr := slice 4 10 rest
  let tailStr := slice 10 15 rest
  if !isRun isUpperHex 4 remainderHex then none else
  if !isRun isDigit 6 dateStr then none else
  if !isRun isDigit 5 tailStr then none else
  let remainder := parseInt 16 remainderHex
  let yy := parseInt 10 (slice 0 2 dateStr)
  let month := parseInt 10 (slice 2 4 dateStr)
  let day := parseInt 10 (slice 4 6 dateStr)
  if month > 0x0f || day > 0x1f then none else
  let v := (yy <<< 9) ||| (month <<< 5) ||| day
  let tail := parseInt 10 tailStr
  if v > 0xffff || tail > 0xffff then none else some (remainder, v, tail)

def readCardNumber (s : Str) : Option Str := do
  let (issuer, rest) ← splitHead s
  let (remainder, v, tail) ← readRest rest
  some (bytesToHex [(issuer >>> 8) &&& 0xff, issuer &&& 0xff, (remainder >>> 8) &&& 0xff,
    remainder &&& 0xff, (v >>> 8) &&& 0xff, v &&& 0xff, (tail >>> 8) &&& 0xff, tail &&& 0xff])

/-- Card number -> 8-byte IDi (16 hex chars), `null` if it can't be inverted. -/
def cardNumberToIdi (js : CaseMaps) (card : Str) : Option Str := readCardNumber (compact js card)

/-- Whether the card number inverts to an IDi, checked by round-trip. -/
def isConvertibleCardNumber (js : CaseMaps) (card : Str) : Bool :=
  match cardNumberToIdi js card with
  | none => false
  | some idi => idiToCardNumber js idi == some (compact js card)

/-! ### Bytes and digits -/

theorem padUpper_eq (js : CaseMaps) {k : ℕ} (hk : 0 < k) (n : ℕ) :
    padStart k (unit '0') (js.toUpperCase (toStringRadix 16 n)) = upperHex.numeral k n := by
  rw [js.toUpperCase_ascii _ (isAscii_toStringRadix n)]
  exact upperHex.padStart_toStringRadix (by decide) hk n

theorem upperHex_halves {w : ℕ} (hw : w < 2 ^ 16) :
    upperHex.numeral 4 w = upperHex.numeral 2 (w / 256) ++ upperHex.numeral 2 (w % 256) := by
  have hhi : w / 256 < 16 ^ 2 := Nat.div_lt_of_lt_mul hw
  have hlo : w % 256 < 16 ^ 2 := Nat.mod_lt _ (by decide)
  rw [upperHex.numeral_append hhi hlo]
  exact congrArg (upperHex.numeral 4) (Nat.div_add_mod' w 256).symm

theorem padLower_eq (n : ℕ) :
    padStart 2 (unit '0') (toStringRadix 16 n) = lowerHex.numeral 2 n := by
  have hpad := lowerHex.padStart_toStringRadix (f := id) (by decide) Nat.zero_lt_two n
  rwa [List.map_id] at hpad

theorem padDecimal_eq {k : ℕ} (hk : 0 < k) (n : ℕ) :
    padStart k (unit '0') (toStringRadix 10 n) = decimal.numeral k n := by
  have hpad := decimal.padStart_toStringRadix (f := id) (by decide) hk n
  rwa [List.map_id] at hpad

theorem bytesToHex_cons (b : ℕ) (bytes : List ℕ) :
    bytesToHex (b :: bytes) = lowerHex.numeral 2 b ++ bytesToHex bytes := by
  rw [bytesToHex, List.flatMap_cons, padLower_eq]
  rfl

theorem length_bytesToHex {bytes : List ℕ} (h : ∀ b ∈ bytes, b < 256) :
    (bytesToHex bytes).length = 2 * bytes.length := by
  induction bytes with
  | nil => rfl
  | cons b bytes ih =>
    rw [bytesToHex_cons, List.length_append, ih fun b hb => h b (List.mem_cons_of_mem _ hb),
      lowerHex.length_numeral (h b List.mem_cons_self), List.length_cons]
    omega

theorem isLowerHex_of_mem_bytesToHex {bytes : List ℕ} {u : UInt16} (hu : u ∈ bytesToHex bytes) :
    isLowerHex u = true := by
  obtain ⟨b, -, hu⟩ := List.mem_flatMap.mp hu
  rw [padLower_eq] at hu
  exact (isLowerHex_iff u).mpr (lowerHex.writes_of_mem_numeral hu)

/-- **The bytes written are read back.** -/
theorem bytesOfPairs_bytesToHex {bytes : List ℕ} (h : ∀ b ∈ bytes, b < 256) :
    bytesOfPairs (bytesToHex bytes) = bytes := by
  induction bytes with
  | nil => rfl
  | cons b bytes ih =>
    obtain ⟨hi, lo, hpair⟩ := List.length_eq_two.mp
      (lowerHex.length_numeral (k := 2) (h b List.mem_cons_self))
    have hvalue : parseInt 16 [hi, lo] = b := by
      rw [← hpair]
      exact lowerHex.parseInt_numeral 2 b
    rw [bytesToHex_cons, hpair]
    show parseInt 16 [hi, lo] :: bytesOfPairs (bytesToHex bytes) = b :: bytes
    rw [hvalue, ih fun b hb => h b (List.mem_cons_of_mem _ hb)]

theorem bytesToHex_bytesOfPairs : ∀ {k : ℕ} {s : Str}, s.length = 2 * k →
    (∀ u ∈ s, isLowerHex u = true) → bytesToHex (bytesOfPairs s) = s
      ∧ (bytesOfPairs s).length = k ∧ ∀ b ∈ bytesOfPairs s, b < 256
  | 0, s, hlen, _ => by
    cases List.length_eq_zero_iff.mp hlen
    exact ⟨rfl, rfl, fun b hb => by cases hb⟩
  | k + 1, hi :: lo :: s, hlen, hs => by
    have hrest : s.length = 2 * k := by
      simp only [List.length_cons] at hlen
      omega
    have hwrites : ∀ u ∈ [hi, lo], lowerHex.Writes u := by
      intro u hu
      refine (isLowerHex_iff u).mp (hs u ?_)
      rcases List.mem_pair.mp hu with rfl | rfl <;> simp
    obtain ⟨hbytes, hcount, hlt⟩ := bytesToHex_bytesOfPairs hrest fun u hu =>
      hs u (List.mem_cons_of_mem _ (List.mem_cons_of_mem _ hu))
    refine ⟨?_, congrArg (· + 1) hcount, fun b hb => ?_⟩
    · rw [bytesOfPairs, bytesToHex_cons, hbytes]
      exact congrArg (· ++ s) (lowerHex.numeral_parseInt rfl hwrites)
    · rcases List.mem_cons.mp hb with rfl | hb
      · exact lowerHex.parseInt_lt hwrites
      · exact hlt b hb

/-! ### The layout -/

/-- The eight bytes of an IDi, as the four words of the layout. -/
@[ext] structure Idi where
  issuer : ℕ
  extra : ℕ
  date : ℕ
  serial : ℕ
  issuer_lt : issuer < 2 ^ 16
  extra_lt : extra < 2 ^ 16
  date_lt : date < 2 ^ 16
  serial_lt : serial < 2 ^ 16

theorem word_eq (w : ℕ) : ((w / 256) <<< 8) ||| (w % 256) = w := by
  rw [← Nat.shiftLeft_add_eq_or_of_lt (show w % 256 < 2 ^ 8 from Nat.mod_lt _ (by decide)),
    Nat.shiftLeft_eq]
  exact Nat.div_add_mod' w 256

theorem high_byte {w : ℕ} (hw : w < 2 ^ 16) : (w >>> 8) &&& 0xff = w / 256 := by
  rw [show 0xff = 2 ^ 8 - 1 from rfl, Nat.and_two_pow_sub_one_eq_mod, Nat.shiftRight_eq_div_pow]
  omega

theorem low_byte (w : ℕ) : w &&& 0xff = w % 256 := by
  rw [show 0xff = 2 ^ 8 - 1 from rfl, Nat.and_two_pow_sub_one_eq_mod]

namespace Idi

variable (idi : Idi)

def bytes : List ℕ :=
  [idi.issuer / 256, idi.issuer % 256, idi.extra / 256, idi.extra % 256,
    idi.date / 256, idi.date % 256, idi.serial / 256, idi.serial % 256]

def hex : Str := bytesToHex idi.bytes

def year : ℕ := idi.date / 512 % 64

def month : ℕ := idi.date / 32 % 16

def day : ℕ := idi.date % 32

/-- The letters of the issuer, or else its four hex digits. -/
def head (issuer : ℕ) : Str := (issuerToPrefix.lookup issuer).getD (upperHex.numeral 4 issuer)

def dateDigits (year month day : ℕ) : Str :=
  decimal.numeral 2 year ++ (decimal.numeral 2 month ++ decimal.numeral 2 day)

def body (extra year month day serial : ℕ) : Str :=
  upperHex.numeral 4 extra ++ (dateDigits year month day ++ decimal.numeral 5 serial)

def cardNumber : Str :=
  head idi.issuer ++ body idi.extra idi.year idi.month idi.day idi.serial

/-- The IDi without the top bit of its date. -/
def clear : Idi :=
  { idi with
    date := idi.date % 2 ^ 15
    date_lt := lt_trans (Nat.mod_lt _ (by decide)) (by decide) }

variable {idi}

theorem bytes_lt : ∀ b ∈ idi.bytes, b < 256 := by
  have h1 := idi.issuer_lt
  have h2 := idi.extra_lt
  have h3 := idi.date_lt
  have h4 := idi.serial_lt
  simp only [bytes, List.forall_mem_cons, List.not_mem_nil, false_imp_iff, implies_true, and_true]
  omega

theorem exists_bytes {bytes : List ℕ} (hlen : bytes.length = 8) (h : ∀ b ∈ bytes, b < 256) :
    ∃ idi : Idi, idi.bytes = bytes := by
  match bytes, hlen with
  | [b0, b1, b2, b3, b4, b5, b6, b7], _ =>
    simp only [List.forall_mem_cons] at h
    obtain ⟨h0, h1, h2, h3, h4, h5, h6, h7, -⟩ := h
    refine ⟨⟨b0 * 256 + b1, b2 * 256 + b3, b4 * 256 + b5, b6 * 256 + b7, by omega, by omega,
      by omega, by omega⟩, ?_⟩
    simp only [Idi.bytes, List.cons.injEq, and_true]
    omega

theorem bytes_inj {idi idi' : Idi} (h : idi.bytes = idi'.bytes) : idi = idi' := by
  simp only [bytes, List.cons.injEq, and_true] at h
  ext <;> omega

theorem hex_inj {idi idi' : Idi} (h : idi.hex = idi'.hex) : idi = idi' := by
  refine bytes_inj ?_
  rw [← bytesOfPairs_bytesToHex idi.bytes_lt, ← bytesOfPairs_bytesToHex idi'.bytes_lt]
  exact congrArg bytesOfPairs h

theorem length_hex (idi : Idi) : idi.hex.length = 16 := length_bytesToHex idi.bytes_lt

theorem exists_hex {s : Str} (hlen : s.length = 16) (hs : ∀ u ∈ s, isLowerHex u = true) :
    ∃ idi : Idi, idi.hex = s := by
  obtain ⟨hwritten, hcount, hlt⟩ := bytesToHex_bytesOfPairs (k := 8) hlen hs
  obtain ⟨idi, hidi⟩ := exists_bytes hcount hlt
  exact ⟨idi, by rw [hex, hidi, hwritten]⟩

end Idi

/-! ### The encoder -/

/-- The digits of an IDi: sixteen, in either case. -/
def IsIdi (s : Str) : Prop := isRun (fun u => isLowerHex u || isUpperHex u) 16 s = true

theorem isIdi_iff {s : Str} :
    IsIdi s ↔ s.length = 16 ∧ ∀ u ∈ s, (isLowerHex u || isUpperHex u) = true :=
  isRun_eq_true_iff

theorem Idi.isIdi_hex (idi : Idi) : IsIdi idi.hex :=
  isIdi_iff.mpr ⟨idi.length_hex, fun u hu => by
    rw [isLowerHex_of_mem_bytesToHex hu, Bool.true_or]⟩

theorem hexDigit_lt {u : UInt16} (hu : (isLowerHex u || isUpperHex u) = true) : u < 128 := by
  rcases Bool.or_eq_true_iff.mp hu with hu | hu
  · exact isLowerHex_lt u hu
  · exact isUpperHex_lt u hu

/-- A hex digit is no space, and its value does not depend on its case. -/
theorem hexDigit_spec {u : UInt16} (hu : (isLowerHex u || isUpperHex u) = true) :
    isSpace u = false ∧ isLowerHex (asciiLower u) = true
      ∧ digitValue (asciiLower u) = digitValue u :=
  of_forall_ascii (P := fun u => (isLowerHex u || isUpperHex u) = true → isSpace u = false
    ∧ isLowerHex (asciiLower u) = true ∧ digitValue (asciiLower u) = digitValue u)
    (by decide) (hexDigit_lt hu) hu

theorem bytesOfPairs_map_asciiLower : ∀ {s : Str},
    (∀ u ∈ s, (isLowerHex u || isUpperHex u) = true) →
      bytesOfPairs (s.map asciiLower) = bytesOfPairs s
  | [], _ | [_], _ => rfl
  | hi :: lo :: s, h => by
    have hhi := (hexDigit_spec (h hi List.mem_cons_self)).2.2
    have hlo := (hexDigit_spec (h lo (List.mem_cons_of_mem _ List.mem_cons_self))).2.2
    have hrest := bytesOfPairs_map_asciiLower fun u hu =>
      h u (List.mem_cons_of_mem _ (List.mem_cons_of_mem _ hu))
    simp only [List.map_cons, bytesOfPairs, parseInt, List.foldl_cons, List.foldl_nil, hhi, hlo,
      hrest]

/-- **Sixteen digits, in either case, are the bytes of an IDi.** -/
theorem hexToBytes_of_isIdi (js : CaseMaps) {s : Str} (h : IsIdi s) :
    ∃ idi : Idi, js.toLowerCase s = idi.hex ∧ bytesOfPairs s = idi.bytes
      ∧ hexToBytes js s = some idi.bytes := by
  obtain ⟨hlength, hdigits⟩ := isIdi_iff.mp h
  have hascii : IsAscii s := fun u hu => hexDigit_lt (hdigits u hu)
  have hlower : ∀ u ∈ s.map asciiLower, isLowerHex u = true := by
    intro u hu
    obtain ⟨v, hv, rfl⟩ := List.mem_map.mp hu
    exact (hexDigit_spec (hdigits v hv)).2.1
  have hlen : (s.map asciiLower).length = 16 := by rw [List.length_map, hlength]
  obtain ⟨idi, hidi⟩ := Idi.exists_hex hlen hlower
  have hbytes : bytesOfPairs (s.map asciiLower) = idi.bytes := by
    rw [← hidi, Idi.hex, bytesOfPairs_bytesToHex idi.bytes_lt]
  refine ⟨idi, ?_, ?_, ?_⟩
  · rw [js.toLowerCase_ascii s hascii, hidi]
  · rw [← bytesOfPairs_map_asciiLower hdigits, hbytes]
  · have htrim : trim s = s := trim_of_forall fun u hu => (hexDigit_spec (hdigits u hu)).1
    have hall : (s.map asciiLower).all isLowerHex = true := List.all_eq_true.mpr hlower
    rw [hexToBytes, htrim, js.toLowerCase_ascii s hascii]
    simp only [hall, hlen, hbytes]
    rfl

/-- **The encoder prints the number of the bytes.** -/
theorem idiToCardNumber_of_bytes {js : CaseMaps} {s : Str} {idi : Idi}
    (h : hexToBytes js s = some idi.bytes) : idiToCardNumber js s = some idi.cardNumber := by
  have hyear : (idi.date >>> 9) &&& 0x3f = idi.year := by
    rw [show 0x3f = 2 ^ 6 - 1 from rfl, Nat.and_two_pow_sub_one_eq_mod, Nat.shiftRight_eq_div_pow]
    rfl
  have hmonth : (idi.date >>> 5) &&& 0x0f = idi.month := by
    rw [show 0x0f = 2 ^ 4 - 1 from rfl, Nat.and_two_pow_sub_one_eq_mod, Nat.shiftRight_eq_div_pow]
    rfl
  have hday : idi.date &&& 0x1f = idi.day := by
    rw [show 0x1f = 2 ^ 5 - 1 from rfl, Nat.and_two_pow_sub_one_eq_mod]
    rfl
  have hyy : idi.year % 100 = idi.year :=
    Nat.mod_eq_of_lt (lt_trans (Nat.mod_lt _ (by decide)) (by decide))
  have hextra : hex2 js (idi.extra / 256) ++ hex2 js (idi.extra % 256)
      = upperHex.numeral 4 idi.extra := by
    rw [hex2, hex2, padUpper_eq js Nat.zero_lt_two, padUpper_eq js Nat.zero_lt_two,
      upperHex_halves idi.extra_lt]
  have hhead : (match issuerToPrefix.lookup idi.issuer with
      | some letters => letters ++ upperHex.numeral 4 idi.extra
      | none => upperHex.numeral 4 idi.issuer ++ upperHex.numeral 4 idi.extra)
        = Idi.head idi.issuer ++ upperHex.numeral 4 idi.extra := by
    rw [Idi.head]
    cases issuerToPrefix.lookup idi.issuer <;> rfl
  simp only [idiToCardNumber, h, Idi.bytes, word_eq, hyear, hmonth, hday, hyy, hextra, hex4,
    padUpper_eq js (show 0 < 4 by decide), padDecimal_eq Nat.zero_lt_two,
    padDecimal_eq (show 0 < 5 by decide), hhead, Idi.cardNumber, Idi.body, Idi.dateDigits,
    List.append_assoc]

theorem idiToCardNumber_hex (js : CaseMaps) (idi : Idi) :
    idiToCardNumber js idi.hex = some idi.cardNumber := by
  obtain ⟨idi', -, hread, hbytes⟩ := hexToBytes_of_isIdi js idi.isIdi_hex
  rw [Idi.hex, bytesOfPairs_bytesToHex idi.bytes_lt] at hread
  exact idiToCardNumber_of_bytes (hread ▸ hbytes)

/-- The sample of the source. -/
example : idiToCardNumber .ascii (text "05D5807E28260205") = some (text "NR807E20010600517") := by
  decide +kernel

/-! ### The decoder -/

/-- Letters name one issuer. -/
theorem prefixToIssuer_letters {issuer : ℕ} {letters : Str}
    (h : issuerToPrefix.lookup issuer = some letters) :
    letters.length = 2 ∧ prefixToIssuer.lookup letters = some issuer ∧ issuer / 256 ≠ 0xFC
      ∧ letters.all (between 'A' 'Z') = true := by
  have htable : ∀ entry ∈ issuerToPrefix, entry.2.length = 2
      ∧ prefixToIssuer.lookup entry.2 = some entry.1 ∧ entry.1 / 256 ≠ 0xFC
      ∧ entry.2.all (between 'A' 'Z') = true := by decide
  exact htable (issuer, letters) (mem_of_lookup h)

/-- **The one prefix that is made of hex digits**: `FC`. -/
theorem prefixToIssuer_numeral {n : ℕ} (hn : n < 256) :
    prefixToIssuer.lookup (upperHex.numeral 2 n) = if n = 0xFC then some 0x05d7 else none := by
  split
  case isTrue h => subst h; decide
  case isFalse h =>
    have htable : ∀ entry ∈ prefixToIssuer, isRun isUpperHex 2 entry.1 = true →
        parseInt 16 entry.1 = 0xFC := by decide
    rw [List.lookup_eq_none_iff]
    intro entry hentry
    refine bne_iff_ne.mpr fun heq => h ?_
    rw [← upperHex.parseInt_numeral 2 n, heq]
    exact htable entry hentry (heq ▸ upperHex.isRun_numeral isUpperHex_iff hn)

theorem splitHead_letters {issuer : ℕ} {letters rest : Str}
    (h : issuerToPrefix.lookup issuer = some letters) :
    splitHead (letters ++ rest) = some (issuer, rest) := by
  obtain ⟨hlen, hlookup, -⟩ := prefixToIssuer_letters h
  rw [splitHead, slice_zero_append rest hlen, hlookup, List.drop_left' hlen]

/-- Four hex digits are taken for the issuer unless they begin with `FC`. -/
theorem splitHead_numeral {issuer : ℕ} (hissuer : issuer < 2 ^ 16) (rest : Str) :
    splitHead (upperHex.numeral 4 issuer ++ rest) =
      if issuer / 256 = 0xFC then some (0x05d7, upperHex.numeral 2 (issuer % 256) ++ rest)
      else some (issuer, rest) := by
  have hhi : issuer / 256 < 256 := Nat.div_lt_of_lt_mul hissuer
  have hlo : issuer % 256 < 256 := Nat.mod_lt _ (by decide)
  have hlen := upperHex.length_numeral (k := 4) hissuer
  have hlen2 := upperHex.length_numeral (k := 2) hhi
  have hhalves := upperHex_halves hissuer
  have hrun : isRun isUpperHex 4 (upperHex.numeral 4 issuer) = true :=
    upperHex.isRun_numeral isUpperHex_iff hissuer
  have htake : slice 0 2 (upperHex.numeral 4 issuer ++ rest) = upperHex.numeral 2 (issuer / 256) := by
    rw [hhalves, List.append_assoc, slice_zero_append _ hlen2]
  rw [splitHead, htake, prefixToIssuer_numeral hhi]
  by_cases hfc : issuer / 256 = 0xFC
  · rw [if_pos hfc, if_pos hfc, hhalves, List.append_assoc]
    exact congrArg (fun rest => some (_, rest)) (List.drop_left' hlen2)
  · rw [if_neg hfc, if_neg hfc, slice_zero_append rest hlen, List.drop_left' hlen]
    simp only [hrun, if_true]
    exact congrArg (fun n => some (n, rest)) (upperHex.parseInt_numeral 4 issuer)

namespace Idi

variable {extra year month day serial : ℕ}

theorem isRun_dateDigits (hyear : year < 100) (hmonth : month < 100) (hday : day < 100) :
    isRun isDigit 6 (dateDigits year month day) = true :=
  isRun_append (decimal.isRun_numeral isDigit_iff hyear)
    (isRun_append (decimal.isRun_numeral isDigit_iff hmonth)
      (decimal.isRun_numeral isDigit_iff hday))

theorem slice_dateDigits (hyear : year < 100) (hmonth : month < 100) (hday : day < 100) :
    slice 0 2 (dateDigits year month day) = decimal.numeral 2 year
      ∧ slice 2 4 (dateDigits year month day) = decimal.numeral 2 month
      ∧ slice 4 6 (dateDigits year month day) = decimal.numeral 2 day := by
  have hy := decimal.length_numeral (k := 2) hyear
  have hm := decimal.length_numeral (k := 2) hmonth
  have hd := decimal.length_numeral (k := 2) hday
  refine ⟨slice_zero_append _ hy, slice_append _ hy (by rw [hm]), ?_⟩
  rw [dateDigits, ← List.append_assoc]
  exact slice_append_end (by rw [List.length_append, hy, hm]) (by rw [hd])

theorem length_body (hextra : extra < 2 ^ 16) (hyear : year < 100) (hmonth : month < 100)
    (hday : day < 100) (hserial : serial < 2 ^ 16) :
    (body extra year month day serial).length = 15 := by
  rw [body, List.length_append, List.length_append, upperHex.length_numeral (k := 4) hextra,
    (isRun_eq_true_iff.mp (isRun_dateDigits hyear hmonth hday)).1,
    decimal.length_numeral (k := 5) (lt_trans hserial (by decide))]

theorem slice_body (hextra : extra < 2 ^ 16) (hyear : year < 100) (hmonth : month < 100)
    (hday : day < 100) (hserial : serial < 2 ^ 16) :
    slice 0 4 (body extra year month day serial) = upperHex.numeral 4 extra
      ∧ slice 4 10 (body extra year month day serial) = dateDigits year month day
      ∧ slice 10 15 (body extra year month day serial) = decimal.numeral 5 serial := by
  have he := upperHex.length_numeral (k := 4) hextra
  have hd := (isRun_eq_true_iff.mp (isRun_dateDigits hyear hmonth hday)).1
  have hs := decimal.length_numeral (k := 5) (lt_trans hserial (by decide))
  refine ⟨slice_zero_append _ he, slice_append _ he (by rw [hd]), ?_⟩
  rw [body, ← List.append_assoc]
  exact slice_append_end (by rw [List.length_append, he, hd]) (by rw [hs])

end Idi

theorem date_or {year month day : ℕ} (hmonth : month < 16) (hday : day < 32) :
    (year <<< 9) ||| (month <<< 5) ||| day = year * 512 + month * 32 + day := by
  have hlow : month <<< 5 + day < 2 ^ 9 := by
    rw [Nat.shiftLeft_eq]
    omega
  rw [Nat.or_assoc, ← Nat.shiftLeft_add_eq_or_of_lt (show day < 2 ^ 5 from hday),
    ← Nat.shiftLeft_add_eq_or_of_lt hlow, Nat.shiftLeft_eq, Nat.shiftLeft_eq]
  omega

/-- **The rest of a number is read back**: any year of two digits, and a month, day
and serial that fit their bits. -/
theorem readRest_body {extra year month day serial : ℕ} (hextra : extra < 2 ^ 16)
    (hyear : year < 100) (hmonth : month < 16) (hday : day < 32) (hserial : serial < 2 ^ 16) :
    readRest (Idi.body extra year month day serial)
      = some (extra, year * 512 + month * 32 + day, serial) := by
  have hmonth' : month < 100 := lt_trans hmonth (by decide)
  have hday' : day < 100 := lt_trans hday (by decide)
  have hlen := Idi.length_body hextra hyear hmonth' hday' hserial
  obtain ⟨hremainder, hdate, htail⟩ := Idi.slice_body hextra hyear hmonth' hday' hserial
  obtain ⟨hyy, hmm, hdd⟩ := Idi.slice_dateDigits hyear hmonth' hday'
  have hhex : isRun isUpperHex 4 (upperHex.numeral 4 extra) = true :=
    upperHex.isRun_numeral isUpperHex_iff hextra
  have hdigits := Idi.isRun_dateDigits hyear hmonth' hday'
  have hserialDigits : isRun isDigit 5 (decimal.numeral 5 serial) = true :=
    decimal.isRun_numeral isDigit_iff (lt_trans hserial (by decide))
  have hparse : ∀ k n, parseInt 10 (decimal.numeral k n) = n := decimal.parseInt_numeral
  have hparseHex : ∀ k n, parseInt 16 (upperHex.numeral k n) = n := upperHex.parseInt_numeral
  simp only [readRest, hlen, hremainder, hdate, htail, hhex, hdigits, hserialDigits, hyy, hmm, hdd,
    hparse, hparseHex, date_or hmonth hday]
  rw [if_neg (by decide), if_neg (by decide), if_neg (by decide), if_neg (by decide),
    if_neg (by simp; omega), if_neg (by simp; omega)]

theorem splitHead_head {issuer : ℕ} (hissuer : issuer < 2 ^ 16) (rest : Str) :
    splitHead (Idi.head issuer ++ rest) =
      if issuer / 256 = 0xFC then some (0x05d7, upperHex.numeral 2 (issuer % 256) ++ rest)
      else some (issuer, rest) := by
  rw [Idi.head]
  cases hlookup : issuerToPrefix.lookup issuer with
  | none => exact splitHead_numeral hissuer rest
  | some letters =>
    rw [if_neg (prefixToIssuer_letters hlookup).2.2.1]
    exact splitHead_letters hlookup

namespace Idi

variable (idi : Idi)

theorem year_lt : idi.year < 64 := Nat.mod_lt _ (by decide)

theorem month_lt : idi.month < 16 := Nat.mod_lt _ (by decide)

theorem day_lt : idi.day < 32 := Nat.mod_lt _ (by decide)

/-- What is printed of the date is all but its top bit. -/
theorem date_eq : idi.year * 512 + idi.month * 32 + idi.day = idi.clear.date := by
  show idi.date / 512 % 64 * 512 + idi.date / 32 % 16 * 32 + idi.date % 32 = idi.date % 2 ^ 15
  omega

end Idi

theorem Idi.readRest_body (idi : Idi) :
    readRest (body idi.extra idi.year idi.month idi.day idi.serial)
      = some (idi.extra, idi.clear.date, idi.serial) := by
  rw [Regist.readRest_body idi.extra_lt (lt_trans idi.year_lt (by decide)) idi.month_lt idi.day_lt
    idi.serial_lt, idi.date_eq]

theorem Idi.length_body_eq (idi : Idi) :
    (body idi.extra idi.year idi.month idi.day idi.serial).length = 15 :=
  length_body idi.extra_lt (lt_trans idi.year_lt (by decide)) (lt_trans idi.month_lt (by decide))
    (lt_trans idi.day_lt (by decide)) idi.serial_lt

/-- **What the decoder reads of a number that the encoder prints.** -/
theorem readCardNumber_cardNumber (idi : Idi) :
    readCardNumber idi.cardNumber
      = if idi.issuer / 256 = 0xFC then none else some idi.clear.hex := by
  rw [readCardNumber, Idi.cardNumber, splitHead_head idi.issuer_lt]
  by_cases hfc : idi.issuer / 256 = 0xFC
  · rw [if_pos hfc, if_pos hfc]
    have hlen : (upperHex.numeral 2 (idi.issuer % 256)
        ++ Idi.body idi.extra idi.year idi.month idi.day idi.serial).length ≠ 15 := by
      rw [List.length_append, idi.length_body_eq,
        upperHex.length_numeral (show idi.issuer % 256 < 16 ^ 2 from Nat.mod_lt _ (by decide))]
      decide
    show (readRest _ >>= _) = none
    rw [readRest, if_pos hlen]
    rfl
  · rw [if_neg hfc, if_neg hfc]
    show (readRest _ >>= _) = _
    rw [idi.readRest_body]
    show some (bytesToHex _) = some (bytesToHex _)
    rw [high_byte idi.issuer_lt, high_byte idi.extra_lt, high_byte idi.clear.date_lt,
      high_byte idi.serial_lt, low_byte, low_byte, low_byte, low_byte]
    rfl

theorem printed_spec {u : UInt16} (hu : (isDigit u || between 'A' 'Z' u) = true) :
    u < 128 ∧ isSpace u = false ∧ (u == unit '-') = false ∧ asciiUpper u = u := by
  have hlt : u < 128 := (Bool.or_eq_true_iff.mp hu).elim (isDigit_lt u) (between_lt (by decide))
  exact ⟨hlt, of_forall_ascii (P := fun u => (isDigit u || between 'A' 'Z' u) = true →
    isSpace u = false ∧ (u == unit '-') = false ∧ asciiUpper u = u) (by decide) hlt hu⟩

theorem printed_of_upperHex {u : UInt16} (hu : upperHex.Writes u) :
    (isDigit u || between 'A' 'Z' u) = true := by
  have hhex := (isUpperHex_iff u).mpr hu
  exact of_forall_ascii (P := fun u => isUpperHex u = true →
    (isDigit u || between 'A' 'Z' u) = true) (by decide) (isUpperHex_lt u hhex) hhex

theorem printed_of_decimal {u : UInt16} (hu : decimal.Writes u) :
    (isDigit u || between 'A' 'Z' u) = true := by
  rw [(isDigit_iff u).mpr hu, Bool.true_or]

theorem printed_of_mem_cardNumber {idi : Idi} {u : UInt16} (hu : u ∈ idi.cardNumber) :
    (isDigit u || between 'A' 'Z' u) = true := by
  simp only [Idi.cardNumber, Idi.body, Idi.dateDigits, List.mem_append] at hu
  rcases hu with hu | hu | (hu | hu | hu) | hu
  · rw [Idi.head] at hu
    cases hlookup : issuerToPrefix.lookup idi.issuer with
    | none =>
      rw [hlookup] at hu
      exact printed_of_upperHex (upperHex.writes_of_mem_numeral hu)
    | some letters =>
      rw [hlookup] at hu
      obtain ⟨-, -, -, hletters⟩ := prefixToIssuer_letters hlookup
      rw [List.all_eq_true.mp hletters u hu, Bool.or_true]
  · exact printed_of_upperHex (upperHex.writes_of_mem_numeral hu)
  all_goals exact printed_of_decimal (decimal.writes_of_mem_numeral hu)

theorem compact_cardNumber (js : CaseMaps) (idi : Idi) :
    compact js idi.cardNumber = idi.cardNumber := by
  have hspec := fun u (hu : u ∈ idi.cardNumber) => printed_spec (printed_of_mem_cardNumber hu)
  have hkept : idi.cardNumber.filter (fun u => !(isSpace u || u == unit '-')) = idi.cardNumber := by
    rw [List.filter_eq_self]
    intro u hu
    rw [(hspec u hu).2.1, (hspec u hu).2.2.1]
    rfl
  have hupper : idi.cardNumber.map asciiUpper = idi.cardNumber.map id :=
    List.map_congr_left fun u hu => (hspec u hu).2.2.2
  rw [compact, hkept, js.toUpperCase_ascii _ fun u hu => (hspec u hu).1, hupper, List.map_id]

theorem cardNumberToIdi_cardNumber (js : CaseMaps) (idi : Idi) :
    cardNumberToIdi js idi.cardNumber
      = if idi.issuer / 256 = 0xFC then none else some idi.clear.hex := by
  rw [cardNumberToIdi, compact_cardNumber, readCardNumber_cardNumber]

/-! ### IDis of one number -/

/-- The head tells by its length how to read the issuer from it. -/
theorem Idi.head_cases {issuer : ℕ} (h : issuer < 2 ^ 16) :
    ((head issuer).length = 2 ∧ prefixToIssuer.lookup (head issuer) = some issuer)
      ∨ ((head issuer).length = 4 ∧ parseInt 16 (head issuer) = issuer) := by
  rw [head]
  cases hlookup : issuerToPrefix.lookup issuer with
  | none => exact .inr ⟨upperHex.length_numeral h, upperHex.parseInt_numeral 4 issuer⟩
  | some letters =>
    obtain ⟨hlen, hissuer, -⟩ := prefixToIssuer_letters hlookup
    exact .inl ⟨hlen, hissuer⟩

theorem Idi.head_inj {issuer issuer' : ℕ} (h : issuer < 2 ^ 16) (h' : issuer' < 2 ^ 16)
    (heq : head issuer = head issuer') : issuer = issuer' := by
  obtain ⟨hlen, hread⟩ | ⟨hlen, hread⟩ := head_cases h
  · obtain ⟨-, hread'⟩ | ⟨hlen', -⟩ := head_cases h'
    · rw [heq, hread'] at hread
      exact (Option.some.inj hread).symm
    · rw [heq, hlen'] at hlen
      cases hlen
  · obtain ⟨hlen', -⟩ | ⟨-, hread'⟩ := head_cases h'
    · rw [heq, hlen'] at hlen
      cases hlen
    · rw [← hread, heq, hread']

theorem Idi.cardNumber_clear (idi : Idi) : idi.clear.cardNumber = idi.cardNumber := by
  have hyear : idi.clear.year = idi.year := by
    show idi.date % 2 ^ 15 / 512 % 64 = idi.date / 512 % 64
    omega
  have hmonth : idi.clear.month = idi.month := by
    show idi.date % 2 ^ 15 / 32 % 16 = idi.date / 32 % 16
    omega
  have hday : idi.clear.day = idi.day := by
    show idi.date % 2 ^ 15 % 32 = idi.date % 32
    omega
  rw [cardNumber, cardNumber, hyear, hmonth, hday]
  rfl

/-- **Two IDis have one number exactly when they agree but for that bit.** -/
theorem Idi.cardNumber_eq_iff {idi idi' : Idi} :
    idi.cardNumber = idi'.cardNumber ↔ idi.clear = idi'.clear := by
  constructor
  · intro h
    obtain ⟨hhead, hbody⟩ := List.append_inj' h (by rw [idi.length_body_eq, idi'.length_body_eq])
    have hissuer := head_inj idi.issuer_lt idi'.issuer_lt hhead
    have hrest := congrArg readRest hbody
    rw [idi.readRest_body, idi'.readRest_body] at hrest
    simp only [Option.some.injEq, Prod.mk.injEq] at hrest
    obtain ⟨hextra, hdate, hserial⟩ := hrest
    exact Idi.ext hissuer hextra hdate hserial
  · intro h
    rw [← idi.cardNumber_clear, ← idi'.cardNumber_clear, h]

/-- The bit of a byte that the year has no room for. -/
theorem xor_top {b : ℕ} (hb : b < 256) : b ^^^ 0x80 = if b < 0x80 then b + 0x80 else b - 0x80 :=
  (show ∀ b < 256, b ^^^ 0x80 = if b < 0x80 then b + 0x80 else b - 0x80 by
    decide +kernel) b hb

theorem Idi.bytes_modify_iff {idi idi' : Idi} :
    idi'.bytes = idi.bytes.modify 4 (· ^^^ 0x80) ↔ idi.clear = idi'.clear ∧ idi ≠ idi' := by
  have hdate := idi.date_lt
  have hdate' := idi'.date_lt
  have hmodify : idi.bytes.modify 4 (· ^^^ 0x80) = [idi.issuer / 256, idi.issuer % 256,
      idi.extra / 256, idi.extra % 256, (idi.date / 256) ^^^ 0x80, idi.date % 256,
      idi.serial / 256, idi.serial % 256] := rfl
  rw [hmodify, xor_top (Nat.div_lt_of_lt_mul hdate)]
  simp only [bytes, List.cons.injEq, and_true, Idi.ext_iff, clear, ne_eq]
  split <;> omega

/-! ### The round trip -/

def byteAt (idi : Str) (i : ℕ) : ℕ := (bytesOfPairs idi).getD i 0

/-- Two IDis differ in the top bit of the fifth byte, and nowhere else. -/
def DateTwins (idi idi' : Str) : Prop :=
  bytesOfPairs idi' = (bytesOfPairs idi).modify 4 (· ^^^ 0x80)

/-- **When an IDi comes back.**  Every IDi has a card number.  It is read back as the
same IDi, in lower case, exactly when the first byte is not `FC`, which the decoder
would take for two letters, and the fifth is below `80`: the top bit of the date is
not printed.  Two different IDis have different numbers exactly when this bit is not
all that they differ in. -/
theorem idi_roundTrip_iff (js : CaseMaps) :
    (∀ idi, IsIdi idi → (∃ card, idiToCardNumber js idi = some card)
      ∧ ((∃ card, idiToCardNumber js idi = some card
          ∧ cardNumberToIdi js card = some (js.toLowerCase idi))
        ↔ byteAt idi 0 ≠ 0xFC ∧ byteAt idi 4 < 0x80))
    ∧ ∀ idi idi', IsIdi idi → IsIdi idi' → js.toLowerCase idi ≠ js.toLowerCase idi' →
      (idiToCardNumber js idi ≠ idiToCardNumber js idi' ↔ ¬ DateTwins idi idi') := by
  constructor
  · intro s hs
    obtain ⟨idi, hlower, hpairs, hbytes⟩ := hexToBytes_of_isIdi js hs
    have hcard := idiToCardNumber_of_bytes hbytes
    refine ⟨⟨_, hcard⟩, ?_⟩
    have hfirst : byteAt s 0 = idi.issuer / 256 := by rw [byteAt, hpairs]; rfl
    have hfifth : byteAt s 4 = idi.date / 256 := by rw [byteAt, hpairs]; rfl
    have hclear : idi.clear.hex = idi.hex ↔ idi.date / 256 < 0x80 := by
      constructor
      · intro h
        have hdate := congrArg Idi.date (Idi.hex_inj h)
        have hlt : idi.date % 2 ^ 15 < 2 ^ 15 := Nat.mod_lt _ (by decide)
        rw [show idi.date % 2 ^ 15 = idi.date from hdate] at hlt
        omega
      · intro h
        have hdate : idi.date % 2 ^ 15 = idi.date := Nat.mod_eq_of_lt (by omega)
        exact congrArg Idi.hex (Idi.ext rfl rfl hdate rfl)
    rw [hfirst, hfifth, hlower, hcard]
    constructor
    · rintro ⟨card, hcard, hback⟩
      rw [← Option.some.inj hcard, cardNumberToIdi_cardNumber] at hback
      by_cases hfc : idi.issuer / 256 = 0xFC
      · rw [if_pos hfc] at hback
        cases hback
      · rw [if_neg hfc] at hback
        exact ⟨hfc, hclear.mp (Option.some.inj hback)⟩
    · rintro ⟨hfc, hdate⟩
      exact ⟨_, rfl, by rw [cardNumberToIdi_cardNumber, if_neg hfc, hclear.mpr hdate]⟩
  · intro s s' hs hs' hne
    obtain ⟨idi, hlower, hpairs, hbytes⟩ := hexToBytes_of_isIdi js hs
    obtain ⟨idi', hlower', hpairs', hbytes'⟩ := hexToBytes_of_isIdi js hs'
    have hidi : idi ≠ idi' := by
      rintro rfl
      exact hne (hlower.trans hlower'.symm)
    rw [idiToCardNumber_of_bytes hbytes, idiToCardNumber_of_bytes hbytes', ne_eq, Option.some.injEq,
      Idi.cardNumber_eq_iff, DateTwins, hpairs, hpairs', Idi.bytes_modify_iff]
    exact not_congr (and_iff_left hidi).symm

/-- The card of the header, and its twin. -/
theorem idi_roundTrip_nimoca :
    (∃ card, idiToCardNumber .ascii (text "05D5807E28260205") = some card
      ∧ cardNumberToIdi .ascii card = some (CaseMaps.ascii.toLowerCase (text "05D5807E28260205")))
    ∧ idiToCardNumber .ascii (text "05D5807E28260205")
      = idiToCardNumber .ascii (text "05D5807EA8260205") := by
  obtain ⟨hback, hsame⟩ := idi_roundTrip_iff .ascii
  have hidi : IsIdi (text "05D5807E28260205") := by unfold IsIdi; decide
  have htwin : IsIdi (text "05D5807EA8260205") := by unfold IsIdi; decide
  refine ⟨(hback _ hidi).2.mpr (by decide), ?_⟩
  by_contra hne
  exact (hsame _ _ hidi htwin (by decide)).mp hne (by unfold DateTwins; decide)

/-- **Two IDis that do not come back**: one whose head is taken for letters, and one
that is read as the IDi it shares its number with. -/
theorem idi_roundTrip_fails :
    (IsIdi (text "fc00807e28260205")
      ∧ ∀ card, idiToCardNumber .ascii (text "fc00807e28260205") = some card →
        cardNumberToIdi .ascii card = none)
    ∧ IsIdi (text "05d5807ea8260205")
      ∧ idiToCardNumber .ascii (text "05d5807ea8260205")
        = idiToCardNumber .ascii (text "05d5807e28260205")
      ∧ ∀ card, idiToCardNumber .ascii (text "05d5807ea8260205") = some card →
        cardNumberToIdi .ascii card = some (text "05d5807e28260205") := by
  have hfc : idiToCardNumber .ascii (text "fc00807e28260205")
      = some (text "FC00807E20010600517") := by decide +kernel
  have htwin : idiToCardNumber .ascii (text "05d5807ea8260205")
      = some (text "NR807E20010600517") := by decide +kernel
  refine ⟨⟨by unfold IsIdi; decide, fun card hcard => ?_⟩, by unfold IsIdi; decide, ?_,
    fun card hcard => ?_⟩
  · rw [hfc, Option.some.injEq] at hcard
    rw [← hcard]
    decide +kernel
  · rw [htwin]
    decide +kernel
  · rw [htwin, Option.some.injEq] at hcard
    rw [← hcard]
    decide +kernel

end SuiCash.Regist
