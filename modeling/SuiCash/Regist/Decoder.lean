import SuiCash.Regist.Idi

/-!
# What the decoder reads

`cardNumberToIdi` is meant to refuse what it cannot invert.  A `Reading` is a number it
does not refuse, in the parts it is taken apart into; its year has two digits and its head
may spell out any issuer.  The encoder prints a year of six bits and the letters of an
issuer that has letters.

`inverts_iff`: so the decoder keeps its word exactly on the numbers that are not `Overread`.
-/

namespace SuiCash.Regist

open Js

/-! ### Readings -/

/-- A head is read as an issuer: its letters, or four hex digits not taken for letters. -/
inductive ReadsHead : ℕ → Str → Prop where
  | letters {issuer : ℕ} {s : Str} (known : issuerToPrefix.lookup issuer = some s) :
      ReadsHead issuer s
  | digits {issuer : ℕ} (lt : issuer < 2 ^ 16) (unlike : issuer / 256 ≠ 0xFC) :
      ReadsHead issuer (upperHex.numeral 4 issuer)

theorem ReadsHead.lt {issuer : ℕ} {s : Str} (h : ReadsHead issuer s) : issuer < 2 ^ 16 := by
  cases h with
  | letters known =>
    have htable : ∀ entry ∈ issuerToPrefix, entry.1 < 2 ^ 16 := by decide
    exact htable (issuer, s) (mem_of_lookup known)
  | digits lt _ => exact lt

theorem ReadsHead.splitHead {issuer : ℕ} {s : Str} (h : ReadsHead issuer s) (rest : Str) :
    splitHead (s ++ rest) = some (issuer, rest) := by
  cases h with
  | letters known => exact splitHead_letters known
  | digits lt unlike => rw [splitHead_numeral lt, if_neg unlike]

/-- A number that the decoder reads. -/
structure Reading where
  issuer : ℕ
  head : Str
  extra : ℕ
  year : ℕ
  month : ℕ
  day : ℕ
  serial : ℕ
  head_reads : ReadsHead issuer head
  extra_lt : extra < 2 ^ 16
  year_lt : year < 100
  month_lt : month < 16
  day_lt : day < 32
  serial_lt : serial < 2 ^ 16

namespace Reading

variable (r : Reading)

def number : Str := r.head ++ Idi.body r.extra r.year r.month r.day r.serial

def idi : Idi where
  issuer := r.issuer
  extra := r.extra
  date := r.year * 512 + r.month * 32 + r.day
  serial := r.serial
  issuer_lt := r.head_reads.lt
  extra_lt := r.extra_lt
  date_lt := by
    have := r.year_lt
    have := r.month_lt
    have := r.day_lt
    omega
  serial_lt := r.serial_lt

/-- The head is as the encoder prints it, and the year fits its six bits. -/
def Faithful : Prop := Idi.head r.issuer = r.head ∧ r.year < 64

theorem readCardNumber_number : readCardNumber r.number = some r.idi.hex := by
  have hhead : splitHead r.number
      = some (r.issuer, Idi.body r.extra r.year r.month r.day r.serial) := r.head_reads.splitHead _
  rw [readCardNumber, hhead]
  show (readRest _ >>= _) = _
  rw [readRest_body r.extra_lt r.year_lt r.month_lt r.day_lt r.serial_lt]
  show some (bytesToHex _) = some (bytesToHex _)
  have hdate : r.year * 512 + r.month * 32 + r.day < 2 ^ 16 := r.idi.date_lt
  rw [high_byte r.head_reads.lt, high_byte r.extra_lt, high_byte hdate, high_byte r.serial_lt,
    low_byte, low_byte, low_byte, low_byte]
  rfl

theorem idi_date : r.idi.year = r.year % 64 ∧ r.idi.month = r.month ∧ r.idi.day = r.day := by
  have hmonth := r.month_lt
  have hday := r.day_lt
  refine ⟨?_, ?_, ?_⟩
  · show (r.year * 512 + r.month * 32 + r.day) / 512 % 64 = r.year % 64
    omega
  · show (r.year * 512 + r.month * 32 + r.day) / 32 % 16 = r.month
    omega
  · show (r.year * 512 + r.month * 32 + r.day) % 32 = r.day
    omega

/-- **What is printed of a reading** is the number itself exactly when the reading is
faithful. -/
theorem cardNumber_idi_iff : r.idi.cardNumber = r.number ↔ r.Faithful := by
  obtain ⟨hyear, hmonth, hday⟩ := r.idi_date
  have hmonth100 : r.month < 100 := lt_trans r.month_lt (by decide)
  have hday100 : r.day < 100 := lt_trans r.day_lt (by decide)
  have hyear100 : r.year % 64 < 100 := lt_trans (Nat.mod_lt r.year (by decide)) (by decide)
  have hprinted := readRest_body r.extra_lt hyear100 r.month_lt r.day_lt r.serial_lt
  have hlen := Idi.length_body r.extra_lt r.year_lt hmonth100 hday100 r.serial_lt
  have hlen' := Idi.length_body r.extra_lt hyear100 hmonth100 hday100 r.serial_lt
  rw [Idi.cardNumber, hyear, hmonth, hday, number, Faithful]
  show Idi.head r.issuer ++ Idi.body r.extra (r.year % 64) r.month r.day r.serial = _ ↔ _
  constructor
  · intro h
    obtain ⟨hhead, hbody⟩ := List.append_inj' h (by rw [hlen, hlen'])
    have hread := readRest_body r.extra_lt r.year_lt r.month_lt r.day_lt r.serial_lt
    rw [← hbody, hprinted] at hread
    simp only [Option.some.injEq, Prod.mk.injEq] at hread
    exact ⟨hhead, by omega⟩
  · rintro ⟨hhead, hyear⟩
    rw [hhead, Nat.mod_eq_of_lt hyear]

end Reading

/-! ### Everything read is a reading -/

theorem splitHead_eq_some {s rest : Str} {issuer : ℕ} (h : splitHead s = some (issuer, rest)) :
    ∃ head, ReadsHead issuer head ∧ s = head ++ rest := by
  rw [splitHead] at h
  cases hlookup : prefixToIssuer.lookup (slice 0 2 s) with
  | some known =>
    rw [hlookup] at h
    obtain ⟨rfl, rfl⟩ := Prod.mk.inj (Option.some.inj h)
    have htable : ∀ entry ∈ prefixToIssuer, issuerToPrefix.lookup entry.2 = some entry.1 := by
      decide
    have hletters := htable (slice 0 2 s, known) (mem_of_lookup hlookup)
    exact ⟨slice 0 2 s, .letters hletters, (List.take_append_drop 2 s).symm⟩
  | none =>
    rw [hlookup] at h
    obtain ⟨hrun, h⟩ := Option.ite_none_right_eq_some.mp h
    obtain ⟨rfl, rfl⟩ := Prod.mk.inj (Option.some.inj h)
    obtain ⟨issuer, hissuer, hdigits⟩ := (upperHex.isRun_iff isUpperHex_iff).mp hrun
    have hparse : parseInt 16 (slice 0 4 s) = issuer := by
      rw [hdigits]
      exact upperHex.parseInt_numeral 4 issuer
    have hsplit : s = upperHex.numeral 4 issuer ++ s.drop 4 := by
      rw [← hdigits]
      exact (List.take_append_drop 4 s).symm
    rw [hparse]
    refine ⟨upperHex.numeral 4 issuer, .digits hissuer fun hfc => ?_, hsplit⟩
    -- A head that begins with `FC` has been taken for letters.
    have hlen := upperHex.length_numeral (k := 2)
      (show issuer / 256 < 16 ^ 2 from Nat.div_lt_of_lt_mul hissuer)
    rw [hsplit, upperHex_halves hissuer, List.append_assoc, slice_zero_append _ hlen, hfc] at hlookup
    exact absurd hlookup (by decide)

theorem exists_dateDigits {date : Str} (h : isRun isDigit 6 date = true) :
    ∃ year month day, year < 100 ∧ slice 0 2 date = decimal.numeral 2 year
      ∧ slice 2 4 date = decimal.numeral 2 month ∧ slice 4 6 date = decimal.numeral 2 day
      ∧ date = Idi.dateDigits year month day := by
  obtain ⟨year, hlt, hyear⟩ := (decimal.isRun_iff isDigit_iff).mp
    (isRun_slice (i := 0) (j := 2) h (by decide))
  obtain ⟨month, -, hmonth⟩ := (decimal.isRun_iff isDigit_iff).mp
    (isRun_slice (i := 2) (j := 4) h (by decide))
  obtain ⟨day, -, hday⟩ := (decimal.isRun_iff isDigit_iff).mp
    (isRun_slice (i := 4) (j := 6) h (by decide))
  refine ⟨year, month, day, hlt, hyear, hmonth, hday, ?_⟩
  have hlen := (isRun_eq_true_iff.mp h).1
  rw [Idi.dateDigits, ← hyear, ← hmonth, ← hday, slice_append_slice (by decide) (by decide),
    slice_append_slice (by decide) (by decide), slice_zero_of_length_le hlen.le]

theorem readRest_eq_some {rest : Str} {remainder v tail : ℕ}
    (h : readRest rest = some (remainder, v, tail)) :
    ∃ year month day, remainder < 2 ^ 16 ∧ year < 100 ∧ month < 16 ∧ day < 32 ∧ tail < 2 ^ 16
      ∧ v = year * 512 + month * 32 + day ∧ rest = Idi.body remainder year month day tail := by
  simp only [readRest, Option.ite_none_left_eq_some, not_not, Bool.not_eq_true',
    Bool.not_eq_false, Bool.or_eq_true, decide_eq_true_eq, not_or, not_lt, Option.some.injEq,
    Prod.mk.injEq] at h
  obtain ⟨hlen, hextra, hdate, hserial, ⟨hmonth, hday⟩, ⟨-, htail⟩, rfl, rfl, rfl⟩ := h
  obtain ⟨extra, hextra', he⟩ := (upperHex.isRun_iff isUpperHex_iff).mp hextra
  obtain ⟨serial, -, hs⟩ := (decimal.isRun_iff isDigit_iff).mp hserial
  obtain ⟨year, month, day, hyear, hy, hm, hd, hdigits⟩ := exists_dateDigits hdate
  have hparse : ∀ k n, parseInt 10 (decimal.numeral k n) = n := decimal.parseInt_numeral
  rw [hm, hparse] at hmonth
  rw [hd, hparse] at hday
  rw [hs, hparse] at htail
  refine ⟨year, month, day, ?_, hyear, by omega, by omega, ?_, ?_, ?_⟩
  · rw [he]
    exact lt_of_eq_of_lt (upperHex.parseInt_numeral 4 extra) hextra'
  · rw [hs, hparse]
    omega
  · rw [hy, hm, hd, hparse, hparse, hparse, date_or (by omega) (by omega)]
  · rw [he, hs, hparse, show parseInt 16 _ = extra from upperHex.parseInt_numeral 4 extra, Idi.body,
      ← he, ← hs, ← hdigits, slice_append_slice (by decide) (by decide),
      slice_append_slice (by decide) (by decide), slice_zero_of_length_le hlen.le]

/-- **The decoder reads the readings**, and nothing else. -/
theorem readCardNumber_eq_some_iff {s idi : Str} :
    readCardNumber s = some idi ↔ ∃ r : Reading, r.number = s ∧ r.idi.hex = idi := by
  constructor
  · intro h
    obtain ⟨⟨issuer, rest⟩, hhead, hrest⟩ := Option.bind_eq_some_iff.mp h
    obtain ⟨⟨remainder, v, tail⟩, hread, -⟩ := Option.bind_eq_some_iff.mp hrest
    obtain ⟨head, hreads, rfl⟩ := splitHead_eq_some hhead
    obtain ⟨year, month, day, hextra, hyear, hmonth, hday, hserial, rfl, rfl⟩ := readRest_eq_some hread
    let r : Reading := ⟨issuer, head, remainder, year, month, day, tail, hreads, hextra, hyear, hmonth,
      hday, hserial⟩
    exact ⟨r, rfl, Option.some.inj (r.readCardNumber_number.symm.trans h)⟩
  · rintro ⟨r, rfl, rfl⟩
    exact r.readCardNumber_number

/-! ### Readings outside the layout -/

/-- The four hex digits of an issuer that has letters. -/
def SpellsKnown (s : Str) : Prop :=
  isRun isUpperHex 4 s = true ∧ (issuerToPrefix.lookup (parseInt 16 s)).isSome = true

/-- The numbers that are read and not of the layout: their year takes more than six bits,
or their head is the four digits of an issuer that has letters. -/
def Overread (s : Str) : Prop :=
  ∃ head extra year month day serial : Str,
    s = head ++ (extra ++ ((year ++ (month ++ day)) ++ serial))
      ∧ (IsHead head ∨ SpellsKnown head) ∧ isRun isUpperHex 4 extra = true
      ∧ isRun isDigit 2 year = true
      ∧ (isRun isDigit 2 month = true ∧ parseInt 10 month < 16)
      ∧ (isRun isDigit 2 day = true ∧ parseInt 10 day < 32)
      ∧ (isRun isDigit 5 serial = true ∧ parseInt 10 serial < 2 ^ 16)
      ∧ (64 ≤ parseInt 10 year ∨ SpellsKnown head)

theorem spellsKnown_numeral_iff {issuer : ℕ} (h : issuer < 2 ^ 16) :
    SpellsKnown (upperHex.numeral 4 issuer) ↔ (issuerToPrefix.lookup issuer).isSome = true := by
  rw [SpellsKnown, show parseInt 16 _ = issuer from upperHex.parseInt_numeral 4 issuer]
  exact and_iff_right (upperHex.isRun_numeral isUpperHex_iff h)

/-- A head that is read is the one printed unless it spells out a known issuer. -/
theorem ReadsHead.head_eq_iff {issuer : ℕ} {s : Str} (h : ReadsHead issuer s) :
    Idi.head issuer = s ↔ ¬ SpellsKnown s := by
  cases h with
  | letters known =>
    refine iff_of_true (by rw [Idi.head, known, Option.getD_some]) fun hspells => ?_
    have hfour := (isRun_eq_true_iff.mp hspells.1).1
    rw [(prefixToIssuer_letters known).1] at hfour
    cases hfour
  | digits lt _ =>
    rw [spellsKnown_numeral_iff lt, Idi.head]
    cases hlookup : issuerToPrefix.lookup issuer with
    | none => simp
    | some letters =>
      refine iff_of_false (fun heq => ?_) (by simp)
      have hlen := congrArg List.length heq
      rw [Option.getD_some, (prefixToIssuer_letters hlookup).1, upperHex.length_numeral lt] at hlen
      cases hlen

theorem isHead_or_spellsKnown_iff {s : Str} :
    IsHead s ∨ SpellsKnown s ↔ ∃ issuer, ReadsHead issuer s := by
  constructor
  · rintro (h | ⟨hrun, hknown⟩)
    · obtain ⟨issuer, hissuer, hfc, rfl⟩ := isHead_iff.mp h
      rw [Idi.head]
      cases hlookup : issuerToPrefix.lookup issuer with
      | some letters => exact ⟨issuer, .letters hlookup⟩
      | none => exact ⟨issuer, .digits hissuer hfc⟩
    · obtain ⟨issuer, hissuer, rfl⟩ := (upperHex.isRun_iff isUpperHex_iff).mp hrun
      rw [show parseInt 16 _ = issuer from upperHex.parseInt_numeral 4 issuer] at hknown
      obtain ⟨letters, hlookup⟩ := Option.isSome_iff_exists.mp hknown
      exact ⟨issuer, .digits hissuer (prefixToIssuer_letters hlookup).2.2.1⟩
  · rintro ⟨issuer, h⟩
    by_cases hspells : SpellsKnown s
    · exact .inr hspells
    · refine .inl (isHead_iff.mpr ⟨issuer, h.lt, ?_, h.head_eq_iff.mpr hspells⟩)
      cases h with
      | letters known => exact (prefixToIssuer_letters known).2.2.1
      | digits _ unlike => exact unlike

namespace Reading

variable (r : Reading)

theorem parts : isRun isUpperHex 4 (upperHex.numeral 4 r.extra) = true
    ∧ (isRun isDigit 2 (decimal.numeral 2 r.year) = true ∧ parseInt 10 (decimal.numeral 2 r.year) = r.year)
    ∧ (isRun isDigit 2 (decimal.numeral 2 r.month) = true
      ∧ parseInt 10 (decimal.numeral 2 r.month) < 16)
    ∧ (isRun isDigit 2 (decimal.numeral 2 r.day) = true ∧ parseInt 10 (decimal.numeral 2 r.day) < 32)
    ∧ (isRun isDigit 5 (decimal.numeral 5 r.serial) = true
      ∧ parseInt 10 (decimal.numeral 5 r.serial) < 2 ^ 16) := by
  have hparse : ∀ k n, parseInt 10 (decimal.numeral k n) = n := decimal.parseInt_numeral
  simp only [hparse]
  exact ⟨upperHex.isRun_numeral isUpperHex_iff r.extra_lt,
    ⟨decimal.isRun_numeral isDigit_iff r.year_lt, trivial⟩,
    ⟨decimal.isRun_numeral isDigit_iff (lt_trans r.month_lt (by decide)), r.month_lt⟩,
    ⟨decimal.isRun_numeral isDigit_iff (lt_trans r.day_lt (by decide)), r.day_lt⟩,
    decimal.isRun_numeral isDigit_iff (lt_trans r.serial_lt (by decide)), r.serial_lt⟩

theorem exists_of_parts {head extra year month day serial : Str}
    (hhead : IsHead head ∨ SpellsKnown head) (hextra : isRun isUpperHex 4 extra = true)
    (hyear : isRun isDigit 2 year = true)
    (hmonth : isRun isDigit 2 month = true ∧ parseInt 10 month < 16)
    (hday : isRun isDigit 2 day = true ∧ parseInt 10 day < 32)
    (hserial : isRun isDigit 5 serial = true ∧ parseInt 10 serial < 2 ^ 16) :
    ∃ r : Reading, r.number = head ++ (extra ++ ((year ++ (month ++ day)) ++ serial))
      ∧ r.head = head ∧ r.year = parseInt 10 year := by
  obtain ⟨issuer, hreads⟩ := isHead_or_spellsKnown_iff.mp hhead
  obtain ⟨hmonth, hmonth'⟩ := hmonth
  obtain ⟨hday, hday'⟩ := hday
  obtain ⟨hserial, hserial'⟩ := hserial
  obtain ⟨extra, hlt, rfl⟩ := (upperHex.isRun_iff isUpperHex_iff).mp hextra
  obtain ⟨year, hyear', rfl⟩ := (decimal.isRun_iff isDigit_iff).mp hyear
  obtain ⟨month, -, rfl⟩ := (decimal.isRun_iff isDigit_iff).mp hmonth
  obtain ⟨day, -, rfl⟩ := (decimal.isRun_iff isDigit_iff).mp hday
  obtain ⟨serial, -, rfl⟩ := (decimal.isRun_iff isDigit_iff).mp hserial
  have hparse : ∀ k n, parseInt 10 (decimal.numeral k n) = n := decimal.parseInt_numeral
  rw [hparse] at hmonth' hday' hserial' ⊢
  exact ⟨⟨issuer, head, extra, year, month, day, serial, hreads, hlt, hyear', hmonth', hday', hserial'⟩,
    rfl, rfl, rfl⟩

end Reading

/-- **Overread are the readings that are not printed.** -/
theorem overread_iff {s : Str} : Overread s ↔ ∃ r : Reading, r.number = s ∧ ¬ r.Faithful := by
  constructor
  · rintro ⟨head, extra, year, month, day, serial, rfl, hhead, hextra, hyear, hmonth, hday, hserial,
      hover⟩
    obtain ⟨r, hnumber, hrhead, hryear⟩ :=
      Reading.exists_of_parts hhead hextra hyear hmonth hday hserial
    refine ⟨r, hnumber, fun hfaithful => ?_⟩
    rcases hover with hlate | hspells
    · exact absurd hfaithful.2 (by omega)
    · exact r.head_reads.head_eq_iff.mp hfaithful.1 (hrhead ▸ hspells)
  · rintro ⟨r, rfl, hover⟩
    obtain ⟨hextra, ⟨hyear, hparse⟩, hmonth, hday, hserial⟩ := r.parts
    refine ⟨r.head, _, _, _, _, _, rfl, isHead_or_spellsKnown_iff.mpr ⟨r.issuer, r.head_reads⟩, hextra,
      hyear, hmonth, hday, hserial, ?_⟩
    rw [hparse]
    by_contra hnot
    rw [not_or, not_le] at hnot
    exact hover ⟨r.head_reads.head_eq_iff.mpr hnot.2, hnot.1⟩

/-- The numbers of the layout are the faithful readings. -/
theorem printed_iff_faithful {s : Str} : Printed s ↔ ∃ r : Reading, r.number = s ∧ r.Faithful := by
  constructor
  · rintro ⟨head, extra, year, month, day, serial, rfl, hhead, hextra, ⟨hyear, hyear'⟩, hmonth, hday,
      hserial⟩
    obtain ⟨r, hnumber, hrhead, hryear⟩ :=
      Reading.exists_of_parts (.inl hhead) hextra hyear hmonth hday hserial
    refine ⟨r, hnumber, r.head_reads.head_eq_iff.mpr fun hspells => ?_, by omega⟩
    rw [hrhead] at hspells
    cases hhead with
    | letters known =>
      have htable : ∀ entry ∈ issuerToPrefix, entry.2.length = 2 := by decide
      have hfour := (isRun_eq_true_iff.mp hspells.1).1
      rw [htable _ known] at hfour
      cases hfour
    | digits _ _ unknown =>
      rw [SpellsKnown, unknown] at hspells
      exact Bool.false_ne_true hspells.2
  · rintro ⟨r, rfl, hhead, hyear⟩
    obtain ⟨hextra, ⟨hrun, hparse⟩, hmonth, hday, hserial⟩ := r.parts
    rcases isHead_or_spellsKnown_iff.mpr ⟨r.issuer, r.head_reads⟩ with hishead | hspells
    · exact ⟨r.head, _, _, _, _, _, rfl, hishead, hextra, ⟨hrun, by rwa [hparse]⟩, hmonth, hday, hserial⟩
    · exact absurd hspells (r.head_reads.head_eq_iff.mp hhead)

/-! ### What the decoder promises -/

/-- What comes out of the decoder is an IDi that the encoder prints as the number that
went in, and nothing comes out for a number outside the layout. -/
def Inverts (js : CaseMaps) (card : Str) : Prop :=
  (∀ idi, cardNumberToIdi js card = some idi →
      IsCanonical idi ∧ idiToCardNumber js idi = some (normalizeCardNumber js card))
    ∧ (¬ Printed (normalizeCardNumber js card) → cardNumberToIdi js card = none)

/-- **The decoder inverts or refuses** every number but the overread ones. -/
theorem inverts_iff (js : CaseMaps) (card : Str) :
    Inverts js card ↔ ¬ Overread (normalizeCardNumber js card) := by
  rw [Inverts, cardNumberToIdi, ← normalizeCardNumber, overread_iff]
  constructor
  · rintro ⟨hinverts, -⟩ ⟨r, hnumber, hover⟩
    have hback := (hinverts _ (hnumber ▸ r.readCardNumber_number)).2
    rw [idiToCardNumber_hex, ← hnumber, Option.some.injEq] at hback
    exact hover (r.cardNumber_idi_iff.mp hback)
  · intro hnone
    have hfaithful : ∀ r : Reading, r.number = normalizeCardNumber js card → r.Faithful :=
      fun r hnumber => by_contra fun hover => hnone ⟨r, hnumber, hover⟩
    constructor
    · intro idi hidi
      obtain ⟨r, hnumber, rfl⟩ := readCardNumber_eq_some_iff.mp hidi
      refine ⟨isRun_eq_true_iff.mpr ⟨r.idi.length_hex, fun u => isLowerHex_of_mem_bytesToHex⟩, ?_⟩
      rw [idiToCardNumber_hex, r.cardNumber_idi_iff.mpr (hfaithful r hnumber), hnumber]
    · intro hprinted
      rw [Option.eq_none_iff_forall_ne_some]
      intro idi hidi
      obtain ⟨r, hnumber, -⟩ := readCardNumber_eq_some_iff.mp hidi
      exact hprinted (printed_iff_faithful.mpr ⟨r, hnumber, hfaithful r hnumber⟩)

/-- **Two numbers that are read and not inverted**: one of the year 64, and one with the
digits of an issuer that has letters. -/
theorem inverts_fails :
    (cardNumberToIdi .ascii (text "NR807E64010600517") = some (text "05d5807e80260205")
      ∧ idiToCardNumber .ascii (text "05d5807e80260205") = some (text "NR807E00010600517")
      ∧ ¬ Inverts .ascii (text "NR807E64010600517"))
    ∧ cardNumberToIdi .ascii (text "05D5807E20010600517") = some (text "05d5807e28260205")
      ∧ idiToCardNumber .ascii (text "05d5807e28260205") = some (text "NR807E20010600517")
      ∧ ¬ Inverts .ascii (text "05D5807E20010600517") := by
  have hlate : cardNumberToIdi .ascii (text "NR807E64010600517") = some (text "05d5807e80260205") := by
    decide +kernel
  have hspelled : cardNumberToIdi .ascii (text "05D5807E20010600517")
      = some (text "05d5807e28260205") := by decide +kernel
  refine ⟨⟨hlate, by decide +kernel, fun h => ?_⟩, hspelled, by decide +kernel, fun h => ?_⟩
  · exact absurd (h.1 _ hlate).2 (by decide +kernel)
  · exact absurd (h.1 _ hspelled).2 (by decide +kernel)

end SuiCash.Regist
