import Mathlib.Data.List.DropRight
import Mathlib.Data.Nat.Digits.Lemmas
import Mathlib.Tactic.Common

/-!
# Strings of JavaScript

A string is a list of UTF-16 code units.  The case maps of the language are a
parameter: on ASCII they are the ASCII maps, and nothing is asked of them elsewhere
(`CaseMaps`).

An `Alphabet` writes the digits of a radix, and `Alphabet.numeral` is a number
padded with zeros to a width.

* `Alphabet.padStart_toStringRadix`: what `toString` and `padStart` write is a numeral.
* `Alphabet.parseInt_numeral`, `Alphabet.numeral_parseInt`: `parseInt` reads numerals
  of one width back, and every string of that many digits is one.
* `Alphabet.isRun_iff`: a test for so many digits finds the numerals of that width.
-/

namespace Js

/-- A string, as its UTF-16 code units. -/
abbrev Str : Type := List UInt16

def unit (ch : Char) : UInt16 := UInt16.ofNat ch.toNat

def text (s : String) : Str := s.toList.map unit

/-- What `\s` matches: `WhiteSpace` and `LineTerminator`. -/
def whitespace : Str :=
  [0x0009, 0x000A, 0x000B, 0x000C, 0x000D, 0x0020, 0x00A0, 0x1680, 0x2000, 0x2001, 0x2002, 0x2003,
    0x2004, 0x2005, 0x2006, 0x2007, 0x2008, 0x2009, 0x200A, 0x2028, 0x2029, 0x202F, 0x205F, 0x3000,
    0xFEFF]

def isSpace (u : UInt16) : Bool := whitespace.contains u

def trim (s : Str) : Str := (s.dropWhile isSpace).rdropWhile isSpace

/-- `s.padStart(k, fill)`, for a fill of one code unit. -/
def padStart (k : ℕ) (fill : UInt16) (s : Str) : Str := List.replicate (k - s.length) fill ++ s

/-- `s.slice(i, j)`, for `i` at most `j`. -/
def slice (i j : ℕ) (s : Str) : Str := (s.take j).drop i

theorem slice_append {a b : Str} (rest : Str) {i j : ℕ} (ha : a.length = i)
    (hb : i + b.length = j) : slice i j (a ++ (b ++ rest)) = b := by
  rw [slice, ← List.append_assoc, List.take_left' (by rw [List.length_append, ha, hb]),
    List.drop_left' ha]

theorem slice_zero_append {b : Str} (rest : Str) {j : ℕ} (hb : b.length = j) :
    slice 0 j (b ++ rest) = b :=
  slice_append (a := []) rest rfl (by omega)

theorem slice_append_end {a b : Str} {i j : ℕ} (ha : a.length = i) (hb : i + b.length = j) :
    slice i j (a ++ b) = b := by
  have hslice := slice_append (b := b) [] ha hb
  rwa [List.append_nil] at hslice

theorem slice_append_slice {i j k : ℕ} (hij : i ≤ j) (hjk : j ≤ k) (s : Str) :
    slice i j s ++ slice j k s = slice i k s := by
  have htake : s.take j = (s.take k).take j := by rw [List.take_take, Nat.min_eq_left hjk]
  rw [slice, slice, slice, htake, List.drop_take]
  have hsplit := List.take_append_drop (j - i) ((s.take k).drop i)
  rwa [List.drop_drop, Nat.add_sub_cancel' hij] at hsplit

theorem slice_zero_of_length_le {k : ℕ} {s : Str} (h : s.length ≤ k) : slice 0 k s = s :=
  List.take_of_length_le h

theorem trim_of_forall {s : Str} (h : ∀ u ∈ s, isSpace u = false) : trim s = s := by
  have hdrop : s.dropWhile isSpace = s := by
    cases s with
    | nil => rfl
    | cons u s => rw [List.dropWhile_cons_of_neg (by simp [h u List.mem_cons_self])]
  rw [trim, hdrop, List.rdropWhile_eq_self_iff]
  intro hs
  simp [h _ (List.getLast_mem hs)]

/-! ### Case -/

def IsAscii (s : Str) : Prop := ∀ u ∈ s, u < 128

def asciiUpper (u : UInt16) : UInt16 := if 97 ≤ u ∧ u ≤ 122 then u - 32 else u

def asciiLower (u : UInt16) : UInt16 := if 65 ≤ u ∧ u ≤ 90 then u + 32 else u

/-- `toUpperCase` and `toLowerCase`.  Outside ASCII they follow the tables of
Unicode, of which nothing is used here. -/
structure CaseMaps where
  toUpperCase : Str → Str
  toLowerCase : Str → Str
  toUpperCase_ascii : ∀ s, IsAscii s → toUpperCase s = s.map asciiUpper
  toLowerCase_ascii : ∀ s, IsAscii s → toLowerCase s = s.map asciiLower

/-- The case maps that leave every other code unit alone. -/
def CaseMaps.ascii : CaseMaps where
  toUpperCase s := s.map asciiUpper
  toLowerCase s := s.map asciiLower
  toUpperCase_ascii _ _ := rfl
  toLowerCase_ascii _ _ := rfl

/-- Half of a surrogate pair. -/
def isSurrogate (u : UInt16) : Bool := 0xD800 ≤ u && u ≤ 0xDFFF

/-- `toUpperCase` takes one code point after the other, whatever stands around it.  White
space has no case, and a code point of two units is in upper case one of two units. -/
structure CaseMaps.Pointwise (js : CaseMaps) : Prop where
  upper_flatMap : ∀ s, (∀ u ∈ s, isSurrogate u = false) →
    js.toUpperCase s = s.flatMap fun u => js.toUpperCase [u]
  upper_surrogate : ∀ s, (∃ u ∈ s, isSurrogate u = true) →
    ∃ v ∈ js.toUpperCase s, isSurrogate v = true
  upper_space : ∀ u, isSpace u = true → js.toUpperCase [u] = [u]

theorem CaseMaps.ascii_pointwise : CaseMaps.ascii.Pointwise where
  upper_flatMap s _ := (List.flatMap_pure_eq_map asciiUpper s).symm
  upper_surrogate s := by
    rintro ⟨u, hu, hsurrogate⟩
    have hsame : asciiUpper u = u := by
      rw [isSurrogate, Bool.and_eq_true, decide_eq_true_iff] at hsurrogate
      refine if_neg fun hlower => ?_
      exact absurd (UInt16.le_trans hsurrogate.1 hlower.2) (by decide)
    exact ⟨u, List.mem_map.mpr ⟨u, hu, hsame⟩, hsurrogate⟩
  upper_space u hu := by
    have hcaseless : (whitespace.all fun v => asciiUpper v == v) = true := by decide
    have hsame := List.all_eq_true.mp hcaseless u (List.contains_iff_mem.mp hu)
    exact congrArg (fun v => [v]) (beq_iff_eq.mp hsame)

/-! ### Digits -/

/-- The value of a digit, letters of either case counting from ten. -/
def digitValue (u : UInt16) : ℕ :=
  if 48 ≤ u ∧ u ≤ 57 then (u - 48).toNat
  else if 97 ≤ u ∧ u ≤ 122 then (u - 97).toNat + 10
  else if 65 ≤ u ∧ u ≤ 90 then (u - 65).toNat + 10
  else 0

/-- `parseInt(s, radix)` on a string of digits of that radix, the only kind it is
given here. -/
def parseInt (radix : ℕ) (s : Str) : ℕ := s.foldl (fun n u => n * radix + digitValue u) 0

def lowerDigit (d : ℕ) : UInt16 := UInt16.ofNat (if d < 10 then 48 + d else 87 + d)

def upperDigit (d : ℕ) : UInt16 := UInt16.ofNat (if d < 10 then 48 + d else 55 + d)

def toStringRadix (radix n : ℕ) : Str :=
  if n = 0 then [lowerDigit 0] else (Nat.digits radix n).reverse.map lowerDigit

theorem mem_toStringRadix {radix n : ℕ} (hradix : 1 < radix) {u : UInt16}
    (hu : u ∈ toStringRadix radix n) : ∃ d < radix, u = lowerDigit d := by
  rw [toStringRadix] at hu
  split at hu
  case isTrue => exact ⟨0, Nat.zero_lt_of_lt hradix, List.mem_singleton.mp hu⟩
  case isFalse =>
    obtain ⟨d, hd, rfl⟩ := List.mem_map.mp hu
    exact ⟨d, Nat.digits_lt_base hradix (List.mem_reverse.mp hd), rfl⟩

theorem isAscii_toStringRadix (n : ℕ) : IsAscii (toStringRadix 16 n) := by
  intro u hu
  obtain ⟨d, hd, rfl⟩ := mem_toStringRadix (by decide) hu
  exact (show ∀ d < 16, lowerDigit d < 128 by decide) d hd

/-- The digits of a radix, each written by one code unit. -/
structure Alphabet where
  radix : ℕ
  one_lt : 1 < radix
  digit : ℕ → UInt16
  value_digit : ∀ d < radix, digitValue (digit d) = d

def lowerHex : Alphabet := ⟨16, by decide, lowerDigit, by decide⟩

def upperHex : Alphabet := ⟨16, by decide, upperDigit, by decide⟩

def decimal : Alphabet := ⟨10, by decide, lowerDigit, by decide⟩

def between (lo hi : Char) (u : UInt16) : Bool := unit lo ≤ u && u ≤ unit hi

def isDigit (u : UInt16) : Bool := between '0' '9' u

theorem mem_of_lookup {α β : Type} [BEq α] [LawfulBEq α] {table : List (α × β)} {a : α} {b : β}
    (h : table.lookup a = some b) : (a, b) ∈ table := by
  obtain ⟨before, after, rfl, -⟩ := List.lookup_eq_some_iff.mp h
  exact List.mem_append_right before List.mem_cons_self

def isUpperHex (u : UInt16) : Bool := between '0' '9' u || between 'A' 'F' u

def isLowerHex (u : UInt16) : Bool := between '0' '9' u || between 'a' 'f' u

/-- A test of `/^p{k}$/`. -/
def isRun (p : UInt16 → Bool) (k : ℕ) (s : Str) : Bool := s.length = k && s.all p

theorem isRun_eq_true_iff {p : UInt16 → Bool} {k : ℕ} {s : Str} :
    isRun p k s = true ↔ s.length = k ∧ ∀ u ∈ s, p u = true := by
  rw [isRun, Bool.and_eq_true, decide_eq_true_iff, List.all_eq_true]

theorem isRun_slice {p : UInt16 → Bool} {n i j : ℕ} {s : Str} (hs : isRun p n s = true)
    (hj : j ≤ n) : isRun p (j - i) (slice i j s) = true := by
  obtain ⟨hlen, hall⟩ := isRun_eq_true_iff.mp hs
  refine isRun_eq_true_iff.mpr ⟨?_, fun u hu => hall u (List.mem_of_mem_take (List.mem_of_mem_drop hu))⟩
  rw [slice, List.length_drop, List.length_take, hlen, Nat.min_eq_left hj]

theorem isRun_append {p : UInt16 → Bool} {j k : ℕ} {s t : Str} (hs : isRun p j s = true)
    (ht : isRun p k t = true) : isRun p (j + k) (s ++ t) = true := by
  rw [isRun, Bool.and_eq_true, decide_eq_true_iff] at hs ht ⊢
  rw [List.length_append, hs.1, ht.1, List.all_append, hs.2, ht.2]
  exact ⟨rfl, rfl⟩

theorem parseInt_eq_ofDigits (radix : ℕ) (s : Str) :
    parseInt radix s = Nat.ofDigits radix (s.reverse.map digitValue) := by
  rw [Nat.ofDigits_eq_foldr, List.map_reverse, List.foldr_reverse, List.foldl_map, parseInt]
  congr 1
  funext n u
  rw [Nat.cast_id, Nat.mul_comm, Nat.add_comm]

theorem parseInt_append (radix : ℕ) (s t : Str) :
    parseInt radix (s ++ t) = parseInt radix s * radix ^ t.length + parseInt radix t := by
  rw [parseInt_eq_ofDigits, List.reverse_append, List.map_append, Nat.ofDigits_append,
    ← parseInt_eq_ofDigits, ← parseInt_eq_ofDigits, List.length_map, List.length_reverse,
    Nat.mul_comm, Nat.add_comm]

namespace Alphabet

variable (A : Alphabet)

def Writes (u : UInt16) : Prop := digitValue u < A.radix ∧ A.digit (digitValue u) = u

instance (u : UInt16) : Decidable (A.Writes u) := inferInstanceAs (Decidable (_ ∧ _))

def numeral (k n : ℕ) : Str := (Nat.digitsAppend A.radix k n).reverse.map A.digit

theorem writes_digit {d : ℕ} (hd : d < A.radix) : A.Writes (A.digit d) := by
  rw [Writes, A.value_digit d hd]
  exact ⟨hd, rfl⟩

theorem length_numeral {k n : ℕ} (hn : n < A.radix ^ k) : (A.numeral k n).length = k := by
  rw [numeral, List.length_map, List.length_reverse, Nat.length_digitsAppend A.one_lt k hn]

theorem writes_of_mem_numeral {k n : ℕ} {u : UInt16} (hu : u ∈ A.numeral k n) : A.Writes u := by
  obtain ⟨d, hd, rfl⟩ := List.mem_map.mp hu
  exact A.writes_digit (Nat.lt_of_mem_digitsAppend A.one_lt k d (List.mem_reverse.mp hd))

/-- **A numeral is read back.** -/
@[simp] theorem parseInt_numeral (k n : ℕ) : parseInt A.radix (A.numeral k n) = n := by
  have hvalue : ∀ d ∈ Nat.digitsAppend A.radix k n, (digitValue ∘ A.digit) d = id d := fun d hd =>
    A.value_digit d (Nat.lt_of_mem_digitsAppend A.one_lt k d hd)
  rw [parseInt_eq_ofDigits, numeral, ← List.map_reverse, List.reverse_reverse, List.map_map,
    List.map_congr_left hvalue, List.map_id, Nat.digitsAppend,
    Nat.ofDigits_append_replicate_zero, Nat.ofDigits_digits]

/-- **A string of digits is the numeral of what it says.** -/
theorem numeral_parseInt {k : ℕ} {s : Str} (hlen : s.length = k) (hs : ∀ u ∈ s, A.Writes u) :
    A.numeral k (parseInt A.radix s) = s := by
  have hdigits : s.reverse.map digitValue
      ∈ {L : List ℕ | L.length = k ∧ ∀ d ∈ L, d < A.radix} := by
    refine ⟨by rw [List.length_map, List.length_reverse, hlen], fun d hd => ?_⟩
    obtain ⟨u, hu, rfl⟩ := List.mem_map.mp hd
    exact (hs u (List.mem_reverse.mp hu)).1
  have hwritten : ∀ u ∈ s, A.digit (digitValue u) = id u := fun u hu => (hs u hu).2
  rw [numeral, parseInt_eq_ofDigits, (Nat.setInvOn_digitsAppend_ofDigits A.one_lt k).1 hdigits,
    ← List.map_reverse, List.reverse_reverse, List.map_map]
  exact (List.map_congr_left hwritten).trans (List.map_id s)

theorem parseInt_lt {s : Str} (hs : ∀ u ∈ s, A.Writes u) :
    parseInt A.radix s < A.radix ^ s.length := by
  have hdigits : ∀ d ∈ s.reverse.map digitValue, d < A.radix := by
    intro d hd
    obtain ⟨u, hu, rfl⟩ := List.mem_map.mp hd
    exact (hs u (List.mem_reverse.mp hu)).1
  have hlt := Nat.ofDigits_lt_base_pow_length A.one_lt hdigits
  rwa [List.length_map, List.length_reverse, ← parseInt_eq_ofDigits] at hlt

/-- **Padding writes a numeral.** -/
theorem padStart_toStringRadix {f : UInt16 → UInt16}
    (hf : ∀ d < A.radix, f (lowerDigit d) = A.digit d) {k : ℕ} (hk : 0 < k) (n : ℕ) :
    padStart k (A.digit 0) ((toStringRadix A.radix n).map f) = A.numeral k n := by
  have hzero : f (lowerDigit 0) = A.digit 0 := hf 0 (Nat.zero_lt_of_lt A.one_lt)
  rw [toStringRadix, padStart, numeral, Nat.digitsAppend]
  split
  case isTrue h =>
    subst h
    obtain ⟨k, rfl⟩ := Nat.exists_eq_succ_of_ne_zero hk.ne'
    simp [hzero, ← List.replicate_succ']
  case isFalse h =>
    have hwritten : ∀ d ∈ Nat.digits A.radix n, (f ∘ lowerDigit) d = A.digit d := fun d hd =>
      hf d (Nat.digits_lt_base A.one_lt hd)
    simp [List.map_congr_left hwritten]

theorem numeral_append {j k m n : ℕ} (hm : m < A.radix ^ j) (hn : n < A.radix ^ k) :
    A.numeral j m ++ A.numeral k n = A.numeral (j + k) (m * A.radix ^ k + n) := by
  have hparse : parseInt A.radix (A.numeral j m ++ A.numeral k n) = m * A.radix ^ k + n := by
    rw [parseInt_append, A.parseInt_numeral, A.parseInt_numeral, A.length_numeral hn]
  rw [← hparse]
  refine (A.numeral_parseInt ?_ fun u hu => ?_).symm
  · rw [List.length_append, A.length_numeral hm, A.length_numeral hn]
  · rcases List.mem_append.mp hu with hu | hu
    · exact A.writes_of_mem_numeral hu
    · exact A.writes_of_mem_numeral hu

theorem isRun_iff {p : UInt16 → Bool} (hp : ∀ u, p u = true ↔ A.Writes u) {k : ℕ} {s : Str} :
    isRun p k s = true ↔ ∃ n < A.radix ^ k, s = A.numeral k n := by
  rw [isRun_eq_true_iff]
  constructor
  · rintro ⟨hlen, hs⟩
    have hwrites : ∀ u ∈ s, A.Writes u := fun u hu => (hp u).mp (hs u hu)
    exact ⟨parseInt A.radix s, hlen ▸ A.parseInt_lt hwrites, (A.numeral_parseInt hlen hwrites).symm⟩
  · rintro ⟨n, hn, rfl⟩
    exact ⟨A.length_numeral hn, fun u hu => (hp u).mpr (A.writes_of_mem_numeral hu)⟩

theorem isRun_numeral {p : UInt16 → Bool} (hp : ∀ u, p u = true ↔ A.Writes u) {k n : ℕ}
    (hn : n < A.radix ^ k) : isRun p k (A.numeral k n) = true :=
  (A.isRun_iff hp).mpr ⟨n, hn, rfl⟩

end Alphabet

/-! ### The classes of digits -/

/-- A statement about ASCII code units is decided by looking at those. -/
theorem of_forall_ascii {P : UInt16 → Prop} (h : ∀ n < 128, P (UInt16.ofNat n)) {u : UInt16}
    (hu : u < 128) : P u := by
  have := h u.toNat (UInt16.lt_iff_toNat_lt.mp hu)
  rwa [UInt16.ofNat_toNat] at this

/-- A class that holds the digits of an alphabet and nothing else. -/
theorem Alphabet.class_iff (A : Alphabet) {p : UInt16 → Bool} (hascii : ∀ u, p u = true → u < 128)
    (hwrites : ∀ n < 128, p (UInt16.ofNat n) = true → A.Writes (UInt16.ofNat n))
    (hdigit : ∀ d < A.radix, p (A.digit d) = true) (u : UInt16) : p u = true ↔ A.Writes u := by
  constructor
  · intro h
    exact of_forall_ascii (P := fun u => p u = true → A.Writes u) hwrites (hascii u h) h
  · rintro ⟨hlt, hu⟩
    rw [← hu]
    exact hdigit _ hlt

theorem between_lt {lo hi : Char} (hhi : unit hi < 128) {u : UInt16} (h : between lo hi u = true) :
    u < 128 := by
  rw [between, Bool.and_eq_true, decide_eq_true_iff, decide_eq_true_iff,
    UInt16.le_iff_toNat_le, UInt16.le_iff_toNat_le] at h
  exact UInt16.lt_iff_toNat_lt.mpr (Nat.lt_of_le_of_lt h.2 (UInt16.lt_iff_toNat_lt.mp hhi))

theorem isDigit_lt (u : UInt16) (h : isDigit u = true) : u < 128 := between_lt (by decide) h

theorem isUpperHex_lt (u : UInt16) (h : isUpperHex u = true) : u < 128 :=
  (Bool.or_eq_true_iff.mp h).elim (between_lt (by decide)) (between_lt (by decide))

theorem isLowerHex_lt (u : UInt16) (h : isLowerHex u = true) : u < 128 :=
  (Bool.or_eq_true_iff.mp h).elim (between_lt (by decide)) (between_lt (by decide))

theorem isDigit_iff : ∀ u, isDigit u = true ↔ decimal.Writes u :=
  decimal.class_iff isDigit_lt (by decide) (by decide)

theorem isUpperHex_iff : ∀ u, isUpperHex u = true ↔ upperHex.Writes u :=
  upperHex.class_iff isUpperHex_lt (by decide) (by decide)

theorem isLowerHex_iff : ∀ u, isLowerHex u = true ↔ lowerHex.Writes u :=
  lowerHex.class_iff isLowerHex_lt (by decide) (by decide)

end Js
