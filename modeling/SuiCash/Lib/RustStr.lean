import Mathlib.Data.List.DropRight
import Mathlib.Tactic.Common

/-!
# Strings of Rust

A `str` as its characters.  Places in it are counted in characters, not in bytes: a place
that was found is the start of a character either way.

`debugNat`, `debugList` and `debugStruct` print what `{:?}` does, and `parseUnsigned` reads
an unsigned integer.  `parseUnsigned_debugNat` reads back a number, `filterMap_split` a
list of them, by splitting at the commas and trimming.
-/

namespace Rust

abbrev Str : Type := List Char

def find (c : Char) (s : Str) : Option ℕ := s.idxOf? c

def split (c : Char) (s : Str) : List Str := s.splitOn c

/-- The property `White_Space` of Unicode. -/
def whitespace : List ℕ :=
  [0x0009, 0x000A, 0x000B, 0x000C, 0x000D, 0x0020, 0x0085, 0x00A0, 0x1680, 0x2000, 0x2001, 0x2002,
    0x2003, 0x2004, 0x2005, 0x2006, 0x2007, 0x2008, 0x2009, 0x200A, 0x2028, 0x2029, 0x202F, 0x205F,
    0x3000]

def isWhitespace (c : Char) : Bool := whitespace.contains c.toNat

def trim (s : Str) : Str := (s.dropWhile isWhitespace).rdropWhile isWhitespace

def toDigit (c : Char) : Option ℕ := if c.isDigit then some (c.toNat - '0'.toNat) else none

/-- One more digit; `none` on anything else, and on overflow. -/
def pushDigit (bound n : ℕ) (c : Char) : Option ℕ := do
  let d ← toDigit c
  if n * 10 + d < bound then some (n * 10 + d) else none

/-- `s.parse()` into the unsigned integers below `bound`; a plus sign may stand in front. -/
def parseUnsigned (bound : ℕ) : Str → Option ℕ
  | [] | ['+'] => none
  | '+' :: digits | digits => digits.foldlM (pushDigit bound) 0

/-! ### What `{:?}` prints -/

def debugNat (n : ℕ) : Str := Nat.toDigits 10 n

def debugList (items : List Str) : Str := '[' :: ([',', ' '].intercalate items ++ [']'])

def debugStruct (name field : String) (value : Str) : Str :=
  name.toList ++ (" \x7b ".toList ++ (field.toList ++ (": ".toList ++ (value ++ " \x7d".toList))))

/-! ### Finding and trimming -/

theorem find_append {c : Char} {s : Str} (h : c ∉ s) (rest : Str) :
    find c (s ++ c :: rest) = some s.length := by
  have hnone : s.idxOf? c = none := List.idxOf?_eq_none_iff.mpr h
  simp only [find, List.idxOf?] at hnone ⊢
  rw [List.findIdx?_append, hnone, List.findIdx?_cons]
  simp

theorem getElem_of_find {c : Char} {s : Str} {i : ℕ} (h : find c s = some i) :
    ∃ hi : i < s.length, s[i] = c := by
  obtain ⟨hi, hc, -⟩ := List.findIdx?_eq_some_iff_getElem.mp h
  exact ⟨hi, beq_iff_eq.mp hc⟩

theorem trim_eq_self {s : Str} (h : ∀ c ∈ s, isWhitespace c = false) : trim s = s := by
  have hdrop : s.dropWhile isWhitespace = s := by
    cases s with
    | nil => rfl
    | cons c s => exact List.dropWhile_cons_of_neg (by simp [h c List.mem_cons_self])
  rw [trim, hdrop, List.rdropWhile_eq_self_iff]
  intro hne
  simp [h _ (List.getLast_mem hne)]

theorem trim_space {s : Str} (h : ∀ c ∈ s, isWhitespace c = false) : trim (' ' :: s) = s := by
  rw [trim, List.dropWhile_cons_of_pos (by decide)]
  exact trim_eq_self h

/-! ### Numbers -/

theorem isDigit_of_mem_debugNat {n : ℕ} {c : Char} (h : c ∈ debugNat n) : c.isDigit = true :=
  Nat.isDigit_of_mem_toDigits (by decide) (by decide) h

theorem isWhitespace_of_isDigit {c : Char} (h : c.isDigit = true) : isWhitespace c = false := by
  have key : ∀ n < 58, 48 ≤ n → whitespace.contains n = false := by decide
  obtain ⟨hlo, hhi⟩ := Char.isDigit_iff_toNat.mp h
  exact key c.toNat (Nat.lt_succ_of_le hhi) hlo

theorem toDigit_digitChar {d : ℕ} (h : d < 10) : toDigit (Nat.digitChar d) = some d := by
  have key : ∀ d < 10, toDigit (Nat.digitChar d) = some d := by decide
  exact key d h

theorem foldlM_debugNat {bound n : ℕ} (h : n < bound) :
    (debugNat n).foldlM (pushDigit bound) 0 = some n := by
  induction n using Nat.strong_induction_on with
  | h n ih =>
    rw [debugNat, Nat.toDigits_eq_if (by decide)]
    split
    · rename_i hlt
      simp [pushDigit, toDigit_digitChar hlt, h]
    · have hquot := ih (n / 10) (by omega) (by omega)
      have hsplit : n / 10 * 10 + n % 10 = n := Nat.div_add_mod' n 10
      rw [debugNat] at hquot
      rw [List.foldlM_append, hquot]
      simp [pushDigit, toDigit_digitChar (Nat.mod_lt n (by decide : 0 < 10)), hsplit, h]

/-- **A number is read back** where it fits. -/
theorem parseUnsigned_debugNat {bound n : ℕ} (h : n < bound) :
    parseUnsigned bound (debugNat n) = some n := by
  have hfold := foldlM_debugNat h
  have hdigits : ∀ c ∈ debugNat n, c.isDigit = true := fun c => isDigit_of_mem_debugNat
  have hne : debugNat n ≠ [] := Nat.toDigits_ne_nil
  generalize debugNat n = s at hfold hdigits hne
  rw [parseUnsigned.eq_def]
  split
  · exact absurd rfl hne
  · exact absurd (hdigits '+' List.mem_cons_self) (by decide)
  · exact absurd (hdigits '+' List.mem_cons_self) (by decide)
  · exact hfold

/-! ### Lists of numbers -/

theorem intercalate_comma_space (d : Str) (ds : List Str) :
    [',', ' '].intercalate (d :: ds) = [','].intercalate (d :: ds.map (' ' :: ·)) := by
  induction ds generalizing d with
  | nil => simp
  | cons d' ds ih =>
    rw [List.map_cons, List.intercalate_cons_cons, ih d']
    simp [List.intercalate_cons_cons]

/-- Nothing but digits, commas and blanks is printed between the brackets. -/
theorem not_mem_intercalate {c : Char} (hdigit : c.isDigit = false) (hsep : c ∉ [',', ' '])
    (ns : List ℕ) : c ∉ [',', ' '].intercalate (ns.map debugNat) := by
  have hnat : ∀ n, c ∉ debugNat n := by
    intro n hc
    rw [isDigit_of_mem_debugNat hc] at hdigit
    cases hdigit
  induction ns with
  | nil => exact List.not_mem_nil
  | cons n ns ih =>
    cases ns with
    | nil =>
      rw [List.map_singleton, List.intercalate_singleton]
      exact hnat n
    | cons m ns =>
      rw [List.map_cons, List.map_cons, List.intercalate_cons_cons, ← List.map_cons]
      intro hc
      rcases List.mem_append.mp hc with hc | hc
      · rcases List.mem_append.mp hc with hc | hc
        · exact hnat n hc
        · exact hsep hc
      · exact ih hc

theorem split_intercalate {d : Str} {ds : List Str} (h : ∀ s ∈ d :: ds, ',' ∉ s) :
    split ',' ([',', ' '].intercalate (d :: ds)) = d :: ds.map (' ' :: ·) := by
  rw [split, intercalate_comma_space]
  refine List.splitOn_intercalate ',' (fun s hs => ?_) (List.cons_ne_nil _ _)
  rcases List.mem_cons.mp hs with rfl | hs
  · exact h s List.mem_cons_self
  · obtain ⟨s', hs', rfl⟩ := List.mem_map.mp hs
    exact List.not_mem_cons_of_ne_of_not_mem (by decide) (h s' (List.mem_cons_of_mem d hs'))

/-- **A list of numbers is read back** token by token; an empty one is one token that is no
number. -/
theorem filterMap_split {bound : ℕ} {ns : List ℕ} (h : ∀ n ∈ ns, n < bound) :
    (split ',' ([',', ' '].intercalate (ns.map debugNat))).filterMap
      (fun t => parseUnsigned bound (trim t)) = ns := by
  have hspace : ∀ n, ∀ c ∈ debugNat n, isWhitespace c = false := fun n c hc =>
    isWhitespace_of_isDigit (isDigit_of_mem_debugNat hc)
  have hcomma : ∀ n, ',' ∉ debugNat n := fun n hc => absurd (isDigit_of_mem_debugNat hc) (by decide)
  cases ns with
  | nil => rfl
  | cons n ns =>
    obtain ⟨hn, hns⟩ := List.forall_mem_cons.mp h
    have htokens : ∀ s ∈ debugNat n :: ns.map debugNat, ',' ∉ s := by
      rw [← List.map_cons]
      simp only [List.forall_mem_map, hcomma, not_false_eq_true, implies_true]
    have hrest : ∀ m ∈ ns, parseUnsigned bound (trim (' ' :: debugNat m)) = some m := by
      intro m hm
      rw [trim_space (hspace m), parseUnsigned_debugNat (hns m hm)]
    rw [List.map_cons, split_intercalate htokens, List.filterMap_cons, trim_eq_self (hspace n),
      parseUnsigned_debugNat hn, List.map_map, List.filterMap_map]
    exact congrArg (n :: ·) ((List.filterMap_congr hrest).trans List.filterMap_some)

end Rust
