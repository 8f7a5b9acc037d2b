import SuiCash.Regist.CardNumber

/-!
# Entered card numbers

`regist-web/src/lib/idi.ts`: what the registration form asks of an entered number.

* `isValidCardNumber_iff`: the numbers accepted are those of the layout (`Printed`),
  with a head that the decoder can tell and a year of six bits.
* `toIdi_of_valid`: each of them is the number of two IDis, and `toIdi` gives the one
  without the top bit of the date.
* `identifiesOne_iff`: an accepted number never stands for one IDi alone.
-/

namespace SuiCash.Regist

open Js

def normalizeCardNumber (js : CaseMaps) (raw : Str) : Str := compact js raw

def isValidCardNumber (js : CaseMaps) (card : Str) : Bool := isConvertibleCardNumber js card

def toIdi (js : CaseMaps) (card : Str) : Option Str := cardNumberToIdi js card

/-! ### The layout of a number -/

/-- A head that tells its issuer: the letters of a known one, or the four digits of
another that do not begin with `FC`. -/
inductive IsHead : Str → Prop where
  | letters {issuer : ℕ} {s : Str} (known : (issuer, s) ∈ issuerToPrefix) : IsHead s
  | digits {s : Str} (run : isRun isUpperHex 4 s = true) (unlike : slice 0 2 s ≠ text "FC")
      (unknown : issuerToPrefix.lookup (parseInt 16 s) = none) : IsHead s

/-- The card numbers of the layout: a head, four hex digits, a date whose year,
month and day fit six, four and five bits, and a serial of sixteen bits. -/
def Printed (s : Str) : Prop :=
  ∃ head extra year month day serial : Str,
    s = head ++ (extra ++ ((year ++ (month ++ day)) ++ serial))
      ∧ IsHead head ∧ isRun isUpperHex 4 extra = true
      ∧ (isRun isDigit 2 year = true ∧ parseInt 10 year < 64)
      ∧ (isRun isDigit 2 month = true ∧ parseInt 10 month < 16)
      ∧ (isRun isDigit 2 day = true ∧ parseInt 10 day < 32)
      ∧ isRun isDigit 5 serial = true ∧ parseInt 10 serial < 2 ^ 16

theorem isHead_iff {s : Str} :
    IsHead s ↔ ∃ issuer < 2 ^ 16, issuer / 256 ≠ 0xFC ∧ Idi.head issuer = s := by
  constructor
  · intro h
    cases h with
    | @letters issuer _ known =>
      have htable : ∀ entry ∈ issuerToPrefix, entry.1 < 2 ^ 16 ∧ entry.1 / 256 ≠ 0xFC
          ∧ Idi.head entry.1 = entry.2 := by decide
      exact ⟨issuer, htable (issuer, s) known⟩
    | digits run unlike unknown =>
      obtain ⟨issuer, hissuer, rfl⟩ := (upperHex.isRun_iff isUpperHex_iff).mp run
      rw [show parseInt 16 _ = issuer from upperHex.parseInt_numeral 4 issuer] at unknown
      refine ⟨issuer, hissuer, fun hfc => unlike ?_, by rw [Idi.head, unknown, Option.getD_none]⟩
      rw [upperHex_halves hissuer, hfc,
        slice_zero_append _ (upperHex.length_numeral (by decide))]
      decide
  · rintro ⟨issuer, hissuer, hfc, rfl⟩
    rw [Idi.head]
    cases hlookup : issuerToPrefix.lookup issuer with
    | some letters => exact .letters (mem_of_lookup hlookup)
    | none =>
      refine .digits (upperHex.isRun_numeral isUpperHex_iff hissuer) (fun heq => hfc ?_) ?_
      · rw [Option.getD_none, upperHex_halves hissuer,
          slice_zero_append _ (upperHex.length_numeral (Nat.div_lt_of_lt_mul hissuer))] at heq
        rw [← upperHex.parseInt_numeral 2 (issuer / 256), heq]
        decide
      · rw [Option.getD_none, show parseInt 16 _ = issuer from upperHex.parseInt_numeral 4 issuer,
          hlookup]

/-- **The numbers of the layout are those that the encoder prints**, of IDis whose
head the decoder can tell. -/
theorem printed_iff {s : Str} :
    Printed s ↔ ∃ idi : Idi, idi.issuer / 256 ≠ 0xFC ∧ idi.cardNumber = s := by
  constructor
  · rintro ⟨head, extra, year, month, day, serial, rfl, hhead, hextra, ⟨hyear, hyear'⟩,
      ⟨hmonth, hmonth'⟩, ⟨hday, hday'⟩, hserial, hserial'⟩
    obtain ⟨issuer, hissuer, hfc, rfl⟩ := isHead_iff.mp hhead
    obtain ⟨extra, hlt, rfl⟩ := (upperHex.isRun_iff isUpperHex_iff).mp hextra
    obtain ⟨year, -, rfl⟩ := (decimal.isRun_iff isDigit_iff).mp hyear
    obtain ⟨month, -, rfl⟩ := (decimal.isRun_iff isDigit_iff).mp hmonth
    obtain ⟨day, -, rfl⟩ := (decimal.isRun_iff isDigit_iff).mp hday
    obtain ⟨serial, -, rfl⟩ := (decimal.isRun_iff isDigit_iff).mp hserial
    have hparse : ∀ k n, parseInt 10 (decimal.numeral k n) = n := decimal.parseInt_numeral
    rw [hparse] at hyear' hmonth' hday' hserial'
    have hd : year * 512 + month * 32 + day < 2 ^ 16 := by omega
    have hy : (year * 512 + month * 32 + day) / 512 % 64 = year := by omega
    have hm : (year * 512 + month * 32 + day) / 32 % 16 = month := by omega
    have hdd : (year * 512 + month * 32 + day) % 32 = day := by omega
    refine ⟨⟨issuer, extra, year * 512 + month * 32 + day, serial, hissuer, hlt, hd, hserial'⟩,
      hfc, ?_⟩
    simp only [Idi.cardNumber, Idi.body, Idi.dateDigits, Idi.year, Idi.month, Idi.day, hy, hm, hdd]
  · rintro ⟨idi, hfc, rfl⟩
    have hparse : ∀ k n, parseInt 10 (decimal.numeral k n) = n := decimal.parseInt_numeral
    refine ⟨_, _, _, _, _, _, rfl, isHead_iff.mpr ⟨idi.issuer, idi.issuer_lt, hfc, rfl⟩,
      upperHex.isRun_numeral isUpperHex_iff idi.extra_lt, ⟨?_, ?_⟩, ⟨?_, ?_⟩, ⟨?_, ?_⟩, ?_, ?_⟩
    · exact decimal.isRun_numeral isDigit_iff (lt_trans idi.year_lt (by decide))
    · rw [hparse]; exact idi.year_lt
    · exact decimal.isRun_numeral isDigit_iff (lt_trans idi.month_lt (by decide))
    · rw [hparse]; exact idi.month_lt
    · exact decimal.isRun_numeral isDigit_iff (lt_trans idi.day_lt (by decide))
    · rw [hparse]; exact idi.day_lt
    · exact decimal.isRun_numeral isDigit_iff (lt_trans idi.serial_lt (by decide))
    · rw [hparse]; exact idi.serial_lt

/-! ### The numbers accepted -/

theorem exists_hex_of_readCardNumber {s idi : Str} (h : readCardNumber s = some idi) :
    ∃ i : Idi, i.hex = idi := by
  obtain ⟨⟨issuer, rest⟩, -, h⟩ := Option.bind_eq_some_iff.mp h
  obtain ⟨⟨remainder, v, tail⟩, -, h⟩ := Option.bind_eq_some_iff.mp h
  have hlt : ∀ b ∈ [(issuer >>> 8) &&& 0xff, issuer &&& 0xff, (remainder >>> 8) &&& 0xff,
      remainder &&& 0xff, (v >>> 8) &&& 0xff, v &&& 0xff, (tail >>> 8) &&& 0xff, tail &&& 0xff],
      b < 256 := by
    simp only [low_byte, List.forall_mem_cons, List.not_mem_nil, false_imp_iff, implies_true,
      and_true]
    omega
  obtain ⟨i, hi⟩ := Idi.exists_bytes rfl hlt
  refine ⟨i, ?_⟩
  rw [Idi.hex, hi]
  exact Option.some.inj h

/-- **The numbers accepted are those of the layout.** -/
theorem isValidCardNumber_iff (js : CaseMaps) (card : Str) :
    isValidCardNumber js card = true ↔ Printed (normalizeCardNumber js card) := by
  rw [printed_iff, isValidCardNumber, isConvertibleCardNumber, cardNumberToIdi,
    normalizeCardNumber]
  constructor
  · intro h
    cases hread : readCardNumber (compact js card) with
    | none =>
      rw [hread] at h
      cases h
    | some idi =>
      obtain ⟨i, rfl⟩ := exists_hex_of_readCardNumber hread
      rw [hread] at h
      have hback := beq_iff_eq.mp h
      rw [idiToCardNumber_hex, Option.some.injEq] at hback
      refine ⟨i, fun hfc => ?_, hback⟩
      rw [← hback, readCardNumber_cardNumber, if_pos hfc] at hread
      cases hread
  · rintro ⟨i, hfc, hi⟩
    rw [← hi, readCardNumber_cardNumber, if_neg hfc]
    show (idiToCardNumber js i.clear.hex == some i.cardNumber) = true
    rw [idiToCardNumber_hex, i.cardNumber_clear, beq_self_eq_true]

/-! ### The IDis of a number -/

/-- The sixteen digits of an IDi, in their canonical form. -/
def IsCanonical (idi : Str) : Prop := isRun isLowerHex 16 idi = true

/-- An IDi with its canonical digits has the number. -/
def HasNumber (js : CaseMaps) (s idi : Str) : Prop :=
  IsCanonical idi ∧ idiToCardNumber js idi = some s

theorem hasNumber_iff {js : CaseMaps} {s idi : Str} :
    HasNumber js s idi ↔ ∃ i : Idi, i.hex = idi ∧ i.cardNumber = s := by
  constructor
  · rintro ⟨hcanonical, hcard⟩
    obtain ⟨hlen, hlower⟩ := isRun_eq_true_iff.mp hcanonical
    obtain ⟨i, rfl⟩ := Idi.exists_hex hlen hlower
    rw [idiToCardNumber_hex, Option.some.injEq] at hcard
    exact ⟨i, rfl, hcard⟩
  · rintro ⟨i, rfl, rfl⟩
    exact ⟨isRun_eq_true_iff.mpr ⟨i.length_hex, fun u => isLowerHex_of_mem_bytesToHex⟩,
      idiToCardNumber_hex js i⟩

/-- The IDi with the top bit of its date. -/
def Idi.late (i : Idi) : Idi :=
  { i with
    date := i.date % 2 ^ 15 + 2 ^ 15
    date_lt := by have := Nat.mod_lt i.date (show 0 < 2 ^ 15 by decide); omega }

theorem Idi.clear_eq_iff {i j : Idi} : j.clear = i.clear ↔ j = i.clear ∨ j = i.late := by
  have hj := j.date_lt
  simp only [Idi.ext_iff, clear, late]
  omega

theorem Idi.clear_ne_late (i : Idi) : i.clear.hex ≠ i.late.hex := by
  intro h
  have hdate : i.date % 2 ^ 15 = i.date % 2 ^ 15 + 2 ^ 15 := congrArg Idi.date (Idi.hex_inj h)
  omega

/-- **A number belongs to two IDis**, which differ in the top bit of the date. -/
theorem hasNumber_cardNumber_iff {js : CaseMaps} {i : Idi} {idi : Str} :
    HasNumber js i.cardNumber idi ↔ idi = i.clear.hex ∨ idi = i.late.hex := by
  rw [hasNumber_iff]
  constructor
  · rintro ⟨j, rfl, hj⟩
    rcases Idi.clear_eq_iff.mp (Idi.cardNumber_eq_iff.mp hj) with rfl | rfl
    · exact .inl rfl
    · exact .inr rfl
  · rintro (rfl | rfl)
    · exact ⟨i.clear, rfl, i.cardNumber_clear⟩
    · exact ⟨i.late, rfl, Idi.cardNumber_eq_iff.mpr (Idi.clear_eq_iff.mpr (.inr rfl))⟩

theorem not_existsUnique_hasNumber (js : CaseMaps) (s : Str) : ¬ ∃! idi, HasNumber js s idi := by
  rintro ⟨idi, hidi, hunique⟩
  obtain ⟨i, -, rfl⟩ := hasNumber_iff.mp hidi
  have hclear := hunique _ (hasNumber_cardNumber_iff.mpr (.inl rfl))
  have hlate := hunique _ (hasNumber_cardNumber_iff.mpr (.inr rfl))
  exact i.clear_ne_late (hclear.trans hlate.symm)

/-- Of the two IDis of an accepted number, `toIdi` gives the one without the top bit
of the date. -/
theorem toIdi_of_valid {js : CaseMaps} {card : Str} (h : isValidCardNumber js card = true) :
    ∃ i : Idi, i.date < 2 ^ 15 ∧ toIdi js card = some i.hex
      ∧ ∀ idi, HasNumber js (normalizeCardNumber js card) idi ↔ idi = i.hex ∨ idi = i.late.hex := by
  obtain ⟨i, hfc, hi⟩ := printed_iff.mp ((isValidCardNumber_iff js card).mp h)
  refine ⟨i.clear, Nat.mod_lt _ (by decide), ?_, fun idi => ?_⟩
  · rw [toIdi, cardNumberToIdi, ← normalizeCardNumber, ← hi, readCardNumber_cardNumber, if_neg hfc]
  · have hclear : i.clear.clear = i.clear := Idi.clear_eq_iff.mpr (.inl rfl)
    rw [← hi, ← i.cardNumber_clear, hasNumber_cardNumber_iff, hclear]

/-- The number is accepted exactly when it stands for one IDi alone, and then that
IDi is what comes out. -/
def IdentifiesOne (js : CaseMaps) (card : Str) : Prop :=
  (isValidCardNumber js card = true ↔ ∃! idi, HasNumber js (normalizeCardNumber js card) idi)
    ∧ (isValidCardNumber js card = true →
      ∀ idi, HasNumber js (normalizeCardNumber js card) idi → toIdi js card = some idi)

/-- **What the round trip does not see.**  Acceptance means one IDi alone only for the
numbers outside the layout, which are refused: a number of the layout is accepted,
and it is the number of two IDis. -/
theorem identifiesOne_iff (js : CaseMaps) (card : Str) :
    IdentifiesOne js card ↔ ¬ Printed (normalizeCardNumber js card) := by
  rw [← isValidCardNumber_iff, IdentifiesOne]
  have hnot := not_existsUnique_hasNumber js (normalizeCardNumber js card)
  constructor
  · exact fun h hvalid => hnot (h.1.mp hvalid)
  · exact fun h => ⟨⟨fun hvalid => absurd hvalid h, fun hone => absurd hone hnot⟩,
      fun hvalid => absurd hvalid h⟩

/-- **The number of the header is accepted, and is that of two IDis.** -/
theorem identifiesOne_fails :
    isValidCardNumber .ascii (text "NR807 E200 1060 0517") = true
      ∧ HasNumber .ascii (text "NR807E20010600517") (text "05d5807e28260205")
      ∧ HasNumber .ascii (text "NR807E20010600517") (text "05d5807ea8260205")
      ∧ ¬ IdentifiesOne .ascii (text "NR807 E200 1060 0517") := by
  have hvalid : isValidCardNumber .ascii (text "NR807 E200 1060 0517") = true := by decide +kernel
  refine ⟨hvalid, ⟨?_, by decide +kernel⟩, ⟨?_, by decide +kernel⟩,
    fun h => not_existsUnique_hasNumber _ _ (h.1.mp hvalid)⟩
  · unfold IsCanonical
    decide
  · unfold IsCanonical
    decide

end SuiCash.Regist
