import SuiCash.Regist.Idi

/-!
# Scanned card numbers

`cleanCardNumber` of `regist-web/src/lib/ocr.ts` and the way of a scanned number into the
form: cleaned, formatted, and normalised when it is read from the input field.

Both ends of that way know the layout with two letters only.  Place by place the cleaning
keeps the letters, four hex digits and eleven decimals (`cleanCardNumber_eq`), and it and
the formatting cut at 17 places.  `camera_iff`: a number of 17 places survives, one of 19
does not.
-/

namespace SuiCash.Regist

open Js

/-! ### The functions -/

def letterToDigit : List (UInt16 × UInt16) :=
  [(unit 'O', unit '0'), (unit 'Q', unit '0'), (unit 'D', unit '0'), (unit 'C', unit '0'),
    (unit 'U', unit '0'), (unit 'I', unit '1'), (unit 'L', unit '1'), (unit 'Z', unit '2'),
    (unit 'A', unit '4'), (unit 'S', unit '5'), (unit 'G', unit '6'), (unit 'T', unit '7'),
    (unit 'B', unit '8'), (unit 'P', unit '9')]

/-- `class.test(ch) ? ch : (LETTER_TO_DIGIT[ch] ?? ch)`. -/
def toDigit (kept : UInt16 → Bool) (u : UInt16) : UInt16 :=
  if kept u then u else (letterToDigit.lookup u).getD u

def isAlnum (u : UInt16) : Bool := isDigit u || between 'A' 'Z' u

/-- Shape the OCR result into a card number. -/
def cleanCardNumber (js : CaseMaps) (rawText : Str) : Str :=
  let s := (js.toUpperCase rawText).filter isAlnum
  let out := slice 0 2 s ++ (slice 2 6 s).map (toDigit isUpperHex) ++ (s.drop 6).map (toDigit isDigit)
  slice 0 17 out

/-- Format a card number for display, in groups of 5, 4, 4 and 4. -/
def formatCardNumber (js : CaseMaps) (card : Str) : Str :=
  let s := compact js card
  let groups := [slice 0 5 s, slice 5 9 s, slice 9 13 s, slice 13 17 s]
  [unit ' '].intercalate (groups.filter fun g => !g.isEmpty)

/-- The card number in the form after the camera has read a text. -/
def scanned (js : CaseMaps) (text : Str) : Str :=
  normalizeCardNumber js (formatCardNumber js (cleanCardNumber js text))

/-! ### Letters and digits -/

theorem isAlnum_spec {u : UInt16} (hu : isAlnum u = true) :
    u < 128 ∧ (!(isSpace u || u == unit '-')) = true ∧ asciiUpper u = u := by
  obtain ⟨hlt, hspace, hhyphen, hupper⟩ := printed_spec hu
  exact ⟨hlt, by rw [hspace, hhyphen]; rfl, hupper⟩

theorem compact_of_alnum (js : CaseMaps) {s : Str} (hs : ∀ u ∈ s, isAlnum u = true) :
    compact js s = s := by
  have hkept : s.filter (fun u => !(isSpace u || u == unit '-')) = s :=
    List.filter_eq_self.mpr fun u hu => (isAlnum_spec (hs u hu)).2.1
  have hupper : s.map asciiUpper = s.map id :=
    List.map_congr_left fun u hu => (isAlnum_spec (hs u hu)).2.2
  rw [compact, hkept, js.toUpperCase_ascii s fun u hu => (isAlnum_spec (hs u hu)).1, hupper, List.map_id]

theorem isAlnum_toDigit {kept : UInt16 → Bool} {u : UInt16} (hu : isAlnum u = true) :
    isAlnum (toDigit kept u) = true := by
  rw [toDigit]
  split
  · exact hu
  · cases hlookup : letterToDigit.lookup u with
    | none => exact hu
    | some d =>
      have htable : (letterToDigit.all fun entry => isAlnum entry.2) = true := by decide
      exact List.all_eq_true.mp htable (u, d) (mem_of_lookup hlookup)

theorem toDigit_toDigit {kept : UInt16 → Bool} (hkept : ∀ u, isDigit u = true → kept u = true)
    (u : UInt16) : toDigit kept (toDigit kept u) = toDigit kept u := by
  by_cases hu : kept u = true
  · have hself : toDigit kept u = u := if_pos hu
    rw [hself, hself]
  · have hcorrected : toDigit kept u = (letterToDigit.lookup u).getD u := if_neg hu
    rw [hcorrected]
    cases hlookup : letterToDigit.lookup u with
    | none => rw [Option.getD_none, hcorrected, hlookup, Option.getD_none]
    | some d =>
      have htable : (letterToDigit.all fun entry => isDigit entry.2) = true := by decide
      have hdigit := List.all_eq_true.mp htable (u, d) (mem_of_lookup hlookup)
      exact if_pos (hkept d hdigit)

/-! ### Place by place -/

def correction (i : ℕ) : UInt16 → UInt16 :=
  if i < 2 then id else if i < 6 then toDigit isUpperHex else toDigit isDigit

theorem correction_correction (i : ℕ) (u : UInt16) :
    correction i (correction i u) = correction i u := by
  unfold correction
  split
  · rfl
  · split
    · exact toDigit_toDigit (fun v hv => by rw [isUpperHex, ← isDigit, hv, Bool.true_or]) u
    · exact toDigit_toDigit (fun v hv => hv) u

theorem isAlnum_correction {i : ℕ} {u : UInt16} (hu : isAlnum u = true) :
    isAlnum (correction i u) = true := by
  unfold correction
  split
  · exact hu
  · split <;> exact isAlnum_toDigit hu

/-- What the cleaning makes of letters and digits. -/
def shape (s : Str) : Str := (s.mapIdx correction).take 17

theorem getElem?_shape (s : Str) (i : ℕ) :
    (shape s)[i]? = if i < 17 then s[i]?.map (correction i) else none := by
  rw [shape, List.getElem?_take]
  split
  · rw [List.getElem?_mapIdx]
  · rfl

theorem shape_shape (s : Str) : shape (shape s) = shape s := by
  refine List.ext_getElem? fun i => ?_
  rw [getElem?_shape, getElem?_shape]
  split
  · rw [Option.map_map]
    exact congrArg (Option.map · s[i]?) (funext fun u => correction_correction i u)
  · rfl

/-- **The cleaning corrects place by place.** -/
theorem cleanCardNumber_eq (js : CaseMaps) (rawText : Str) :
    cleanCardNumber js rawText = shape ((js.toUpperCase rawText).filter isAlnum) := by
  refine congrArg (List.take 17) (List.ext_getElem? fun i => ?_)
  generalize (js.toUpperCase rawText).filter isAlnum = s
  have hcases : i < 2 ∨ (2 ≤ i ∧ i < 6) ∨ 6 ≤ i := by omega
  simp only [List.getElem?_mapIdx, List.append_assoc]
  rcases Nat.lt_or_ge i s.length with hi | hi
  · rcases hcases with h2 | ⟨h2, h6⟩ | h6
    · rw [List.getElem?_append_left (by simp [slice]; omega)]
      simp [slice, h2, correction, hi]
    · rw [List.getElem?_append_right (by simp [slice]; omega),
        List.getElem?_append_left (by simp [slice]; omega)]
      have hplace : 2 + (i - min 2 s.length) = i := by omega
      simp [slice, h6, correction, hi, hplace, show ¬ i < 2 by omega]
    · rw [List.getElem?_append_right (by simp [slice]; omega),
        List.getElem?_append_right (by simp [slice]; omega)]
      have hplace : 6 + (i - min 2 s.length - (min 6 s.length - 2)) = i := by omega
      simp [slice, correction, hi, hplace, show ¬ i < 2 by omega, show ¬ i < 6 by omega]
  · rw [List.getElem?_eq_none (by simp [slice]; omega), List.getElem?_eq_none hi]
    rfl

theorem isAlnum_of_mem_shape {s : Str} (hs : ∀ u ∈ s, isAlnum u = true) {u : UInt16}
    (hu : u ∈ shape s) : isAlnum u = true := by
  obtain ⟨i, hi, rfl⟩ := List.mem_mapIdx.mp (List.mem_of_mem_take hu)
  exact isAlnum_correction (hs _ (List.getElem_mem hi))

theorem length_shape (s : Str) : (shape s).length = min 17 s.length := by
  rw [shape, List.length_take, List.length_mapIdx]

theorem cleanCardNumber_cleanCardNumber (js : CaseMaps) (s : Str) :
    cleanCardNumber js (cleanCardNumber js s) = cleanCardNumber js s := by
  have halnum : ∀ u ∈ cleanCardNumber js s, isAlnum u = true := by
    intro u hu
    rw [cleanCardNumber_eq] at hu
    exact isAlnum_of_mem_shape (fun v hv => (List.mem_filter.mp hv).2) hu
  have hupper : js.toUpperCase (cleanCardNumber js s) = cleanCardNumber js s := by
    rw [js.toUpperCase_ascii _ fun u hu => (isAlnum_spec (halnum u hu)).1]
    exact (List.map_congr_left fun u hu => (isAlnum_spec (halnum u hu)).2.2).trans (List.map_id _)
  rw [cleanCardNumber_eq js (cleanCardNumber js s), hupper, List.filter_eq_self.mpr halnum,
    cleanCardNumber_eq, shape_shape]

/-! ### Formatting -/

theorem filter_intercalate {kept : UInt16 → Bool} {blank : UInt16} (hblank : kept blank = false)
    {groups : List Str} (h : ∀ g ∈ groups, ∀ u ∈ g, kept u = true) :
    ([blank].intercalate groups).filter kept = groups.flatten := by
  induction groups with
  | nil => rfl
  | cons g groups ih =>
    obtain ⟨hg, hgroups⟩ := List.forall_mem_cons.mp h
    cases groups with
    | nil => simpa using hg
    | cons g' groups =>
      rw [List.intercalate_cons_cons, List.append_assoc, List.filter_append, List.filter_append,
        ih hgroups, List.filter_eq_self.mpr hg, List.flatten_cons]
      simp [hblank]

/-- **What is left of a formatted number** is its first 17 places. -/
theorem compact_formatCardNumber (js : CaseMaps) {s : Str} (hs : ∀ u ∈ s, isAlnum u = true) :
    compact js (formatCardNumber js s) = s.take 17 := by
  have hgroups : ([slice 0 5 s, slice 5 9 s, slice 9 13 s, slice 13 17 s].filter
      fun g => !g.isEmpty).flatten = s.take 17 := by
    rw [List.flatten_filter_not_isEmpty]
    simp only [List.flatten_cons, List.flatten_nil, List.append_nil]
    rw [slice_append_slice (by decide) (by decide), slice_append_slice (by decide) (by decide),
      slice_append_slice (by decide) (by decide)]
    rfl
  have halnum : ∀ u ∈ s.take 17, isAlnum u = true := fun u hu => hs u (List.mem_of_mem_take hu)
  have hkept : (formatCardNumber js s).filter (fun u => !(isSpace u || u == unit '-'))
      = s.take 17 := by
    rw [formatCardNumber, compact_of_alnum js hs]
    refine (filter_intercalate (by decide) fun g hg u hu => ?_).trans hgroups
    have hmem : u ∈ s.take 17 := by
      rw [← hgroups]
      exact List.mem_flatten.mpr ⟨g, hg, hu⟩
    exact (isAlnum_spec (halnum u hmem)).2.1
  have hupper := List.map_congr_left fun u hu => (isAlnum_spec (halnum u hu)).2.2
  rw [compact, hkept, js.toUpperCase_ascii _ fun u hu => (isAlnum_spec (halnum u hu)).1, hupper,
    List.map_id']

theorem scanned_eq (js : CaseMaps) (text : Str) :
    scanned js text = shape ((js.toUpperCase text).filter isAlnum) := by
  have halnum : ∀ u ∈ shape ((js.toUpperCase text).filter isAlnum), isAlnum u = true := fun u =>
    isAlnum_of_mem_shape fun v hv => (List.mem_filter.mp hv).2
  rw [scanned, normalizeCardNumber, cleanCardNumber_eq, compact_formatCardNumber js halnum]
  refine List.take_of_length_le ?_
  rw [length_shape]
  exact Nat.min_le_left _ _

/-! ### The numbers accepted -/

/-- What upper case leaves alone and the filter takes out may be taken out before. -/
theorem filter_flatMap_filter {up : UInt16 → Str} {kept p : UInt16 → Bool}
    (hblank : ∀ u, kept u = false → up u = [u] ∧ p u = false) {s : Str}
    (hs : ∀ v ∈ (s.filter kept).flatMap up, p v = true) :
    (s.flatMap up).filter p = (s.filter kept).flatMap up := by
  induction s with
  | nil => rfl
  | cons u s ih =>
    rw [List.flatMap_cons, List.filter_append]
    cases hu : kept u with
    | false =>
      obtain ⟨hup, hp⟩ := hblank u hu
      rw [List.filter_cons_of_neg (by rw [hu]; exact Bool.false_ne_true)] at hs ⊢
      rw [hup, List.filter_cons_of_neg (by rw [hp]; exact Bool.false_ne_true), List.filter_nil,
        List.nil_append, ih hs]
    | true =>
      rw [List.filter_cons_of_pos hu, List.flatMap_cons] at hs ⊢
      rw [List.filter_eq_self.mpr fun v hv => hs v (List.mem_append_left _ hv),
        ih fun v hv => hs v (List.mem_append_right _ hv)]

/-- A blank or a hyphen is left alone by upper case, and is no letter and no digit. -/
theorem blank_spec {js : CaseMaps} (hjs : js.Pointwise) {u : UInt16}
    (hu : (!(isSpace u || u == unit '-')) = false) :
    isSurrogate u = false ∧ js.toUpperCase [u] = [u] ∧ isAlnum u = false := by
  have halnum : isAlnum u = false := by
    rw [← Bool.not_eq_true]
    intro halnum
    rw [(isAlnum_spec halnum).2.1] at hu
    cases hu
  rw [Bool.not_eq_false', Bool.or_eq_true, beq_iff_eq] at hu
  rcases hu with hspace | rfl
  · have hplain : (whitespace.all fun v => !isSurrogate v) = true := by decide
    have hnone := List.all_eq_true.mp hplain u (List.contains_iff_mem.mp hspace)
    exact ⟨(Bool.not_eq_true' _).mp hnone, hjs.upper_space u hspace, halnum⟩
  · exact ⟨by decide, js.toUpperCase_ascii _ (List.forall_mem_singleton.mpr (by decide)), halnum⟩

/-- Where upper case is taken code point by code point, an accepted number reads the same
whether blanks are taken out first or last. -/
theorem filter_toUpperCase {js : CaseMaps} (hjs : js.Pointwise) {s : Str}
    (hs : ∀ u ∈ compact js s, isAlnum u = true) : (js.toUpperCase s).filter isAlnum = compact js s := by
  have hkept : ∀ u ∈ s.filter fun u => !(isSpace u || u == unit '-'), isSurrogate u = false := by
    by_contra hnot
    push Not at hnot
    obtain ⟨u, hu, hsurrogate⟩ := hnot
    obtain ⟨v, hv, hsurrogate'⟩ := hjs.upper_surrogate _ ⟨u, hu, Bool.ne_false_iff.mp hsurrogate⟩
    have hlt := (isAlnum_spec (hs v hv)).1
    rw [isSurrogate, Bool.and_eq_true, decide_eq_true_iff] at hsurrogate'
    exact absurd (UInt16.lt_of_le_of_lt hsurrogate'.1 hlt) (by decide)
  have hplain : ∀ u ∈ s, isSurrogate u = false := by
    intro u hu
    cases hu' : !(isSpace u || u == unit '-') with
    | true => exact hkept u (List.mem_filter.mpr ⟨hu, hu'⟩)
    | false => exact (blank_spec hjs hu').1
  rw [compact, hjs.upper_flatMap _ hkept] at hs ⊢
  rw [hjs.upper_flatMap _ hplain]
  exact filter_flatMap_filter (fun u hu => (blank_spec hjs hu).2) hs

theorem correction_eq_self {i : ℕ} {u : UInt16}
    (h : i < 2 ∨ i < 6 ∧ isUpperHex u = true ∨ isDigit u = true) : correction i u = u := by
  unfold correction
  split
  · rfl
  · rename_i h2
    split
    · refine if_pos ?_
      rcases h with h | ⟨-, h⟩ | h
      · exact absurd h h2
      · exact h
      · rw [isUpperHex, ← isDigit, h, Bool.true_or]
    · rename_i h6
      refine if_pos ?_
      rcases h with h | ⟨h, -⟩ | h
      · exact absurd h h2
      · exact absurd h h6
      · exact h

theorem shape_cardNumber {idi : Idi} (h : (Idi.head idi.issuer).length = 2) :
    shape idi.cardNumber = idi.cardNumber := by
  have hlen : idi.cardNumber.length = 17 := by
    rw [Idi.cardNumber, List.length_append, h, idi.length_body_eq]
  have hsame : ∀ i u, idi.cardNumber[i]? = some u → correction i u = u := by
    intro i u hu
    refine correction_eq_self ?_
    have hextra := upperHex.length_numeral (k := 4) idi.extra_lt
    rcases Nat.lt_or_ge i 2 with h2 | h2
    · exact .inl h2
    · rw [Idi.cardNumber, List.getElem?_append_right (by omega), Idi.body] at hu
      rcases Nat.lt_or_ge i 6 with h6 | h6
      · rw [List.getElem?_append_left (by omega)] at hu
        have hwrites := upperHex.writes_of_mem_numeral (List.mem_of_getElem? hu)
        exact .inr (.inl ⟨h6, (isUpperHex_iff u).mpr hwrites⟩)
      · rw [List.getElem?_append_right (by omega)] at hu
        have hmem := List.mem_of_getElem? hu
        simp only [Idi.dateDigits, List.mem_append] at hmem
        refine .inr (.inr ((isDigit_iff u).mpr ?_))
        rcases hmem with (hmem | hmem | hmem) | hmem <;> exact decimal.writes_of_mem_numeral hmem
  have hmap : idi.cardNumber.mapIdx correction = idi.cardNumber := by
    refine List.ext_getElem? fun i => ?_
    rw [List.getElem?_mapIdx]
    cases hu : idi.cardNumber[i]? with
    | none => rfl
    | some u => rw [Option.map_some, hsame i u hu]
  rw [shape, hmap, List.take_of_length_le hlen.le]

/-- An accepted number has 17 places or 19, and the form has it again after the camera has
read it exactly if it has 17. -/
theorem scanned_eq_iff {js : CaseMaps} (hjs : js.Pointwise) {card : Str}
    (h : isValidCardNumber js card = true) :
    ((normalizeCardNumber js card).length = 17 ∨ (normalizeCardNumber js card).length = 19)
      ∧ (scanned js card = normalizeCardNumber js card ↔ (normalizeCardNumber js card).length = 17) := by
  obtain ⟨idi, -, hidi⟩ := printed_iff.mp ((isValidCardNumber_iff js card).mp h)
  have halnum : ∀ u ∈ compact js card, isAlnum u = true := by
    rw [← normalizeCardNumber, ← hidi]
    exact fun u hu => printed_of_mem_cardNumber hu
  have hlen : idi.cardNumber.length = (Idi.head idi.issuer).length + 15 := by
    rw [Idi.cardNumber, List.length_append, idi.length_body_eq]
  have hhead : (Idi.head idi.issuer).length = 2 ∨ (Idi.head idi.issuer).length = 4 :=
    (Idi.head_cases idi.issuer_lt).imp And.left And.left
  rw [scanned_eq, filter_toUpperCase hjs halnum, ← normalizeCardNumber, ← hidi]
  refine ⟨by omega, fun hsame => ?_, fun hlen17 => shape_cardNumber (by omega)⟩
  have hcut := congrArg List.length hsame
  rw [length_shape] at hcut
  omega

/-- **Numbers of 17 places survive the camera**, those of 19 do not; and cleaning twice is
cleaning once. -/
theorem camera_iff {js : CaseMaps} (hjs : js.Pointwise) :
    (∀ card, isValidCardNumber js card = true →
      ((normalizeCardNumber js card).length = 17 ∨ (normalizeCardNumber js card).length = 19)
        ∧ (scanned js card = normalizeCardNumber js card
          ↔ (normalizeCardNumber js card).length = 17))
    ∧ ∀ s, cleanCardNumber js (cleanCardNumber js s) = cleanCardNumber js s :=
  ⟨fun _ h => scanned_eq_iff hjs h, cleanCardNumber_cleanCardNumber js⟩

theorem camera_iff_nimoca :
    scanned .ascii (text "NR807 E200 1060 0517") = text "NR807E20010600517" :=
  (((camera_iff CaseMaps.ascii_pointwise).1 (text "NR807 E200 1060 0517") (by decide +kernel)).2.mpr
    (by decide +kernel)).trans (by decide +kernel)

/-- **A number that does not survive**: accepted, with the four digits of its issuer, and
two digits short when it comes back. -/
theorem camera_fails :
    isValidCardNumber .ascii (text "0001807E20010600517") = true
      ∧ scanned .ascii (text "0001807E20010600517") = text "0001807E200106005"
      ∧ scanned .ascii (text "0001807E20010600517")
        ≠ normalizeCardNumber .ascii (text "0001807E20010600517") := by
  decide +kernel

end SuiCash.Regist
