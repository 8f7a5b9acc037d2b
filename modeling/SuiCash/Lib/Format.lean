import SuiCash.Lib.Bytes

/-!
# Self-delimiting formats

A `Format` writes values as byte strings, and reads one back from the front of a string.
One law makes the two sides each other's inverse: what is read from a string is what was
written at its front, and a value is read back wherever it fits.

Formats are put together from bytes, words and arrays with `seq` and `counted`, the latter
with a count of one byte in front; `Fits` is what such a count leaves room for.  `whole`
reads a string to its end.
-/

namespace Bytes

structure Format (α : Type) where
  /-- The values that the format has room for. -/
  Fits : α → Prop
  write : α → List UInt8
  /-- The value at the front, and the rest. -/
  read : List UInt8 → Option (α × List UInt8)
  read_eq_some_iff : ∀ {bytes : List UInt8} {a : α} {rest : List UInt8},
    read bytes = some (a, rest) ↔ Fits a ∧ bytes = write a ++ rest

namespace Format

variable {α β : Type} (f : Format α) (g : Format β)

def whole (bytes : List UInt8) : Option α :=
  match f.read bytes with
  | some (a, []) => some a
  | _ => none

variable {f g}

theorem read_write {a : α} (h : f.Fits a) (rest : List UInt8) :
    f.read (f.write a ++ rest) = some (a, rest) :=
  f.read_eq_some_iff.mpr ⟨h, rfl⟩

theorem whole_eq_some_iff {bytes : List UInt8} {a : α} :
    f.whole bytes = some a ↔ f.Fits a ∧ bytes = f.write a := by
  have hread : f.whole bytes = some a ↔ f.read bytes = some (a, []) := by
    rw [whole]
    split
    · rename_i a' heq
      simp [heq]
    · rename_i hno
      exact iff_of_false (by simp) (hno a)
  rw [hread, f.read_eq_some_iff, List.append_nil]

theorem whole_write {a : α} (h : f.Fits a) : f.whole (f.write a) = some a :=
  whole_eq_some_iff.mpr ⟨h, rfl⟩

/-! ### Bytes, words and arrays -/

def byte : Format UInt8 where
  Fits _ := True
  write b := [b]
  read
    | b :: rest => some (b, rest)
    | [] => none
  read_eq_some_iff {bytes a rest} := by
    cases bytes with
    | nil => simp
    | cons b bytes => simp

/-- A word of two bytes, in an order that `bytesOf` writes and `wordOf` reads. -/
def word (bytesOf : UInt16 → List UInt8) (wordOf : UInt8 → UInt8 → UInt16)
    (hlen : ∀ w, (bytesOf w).length = 2) (h : ∀ {a b w}, wordOf a b = w ↔ bytesOf w = [a, b]) :
    Format UInt16 where
  Fits _ := True
  write := bytesOf
  read
    | a :: b :: rest => some (wordOf a b, rest)
    | _ => none
  read_eq_some_iff {bytes w rest} := by
    obtain ⟨a, b, hw⟩ := List.length_eq_two.mp (hlen w)
    match bytes with
    | [] | [_] => simp [hw]
    | a' :: b' :: bytes =>
      rw [Option.some.injEq, Prod.mk.injEq, h, hw]
      simp [eq_comm, and_assoc]

def wordLe : Format UInt16 := word toLeBytes fromLeBytes length_toLeBytes fromLeBytes_eq_iff

def wordBe : Format UInt16 := word toBeBytes fromBeBytes length_toBeBytes fromBeBytes_eq_iff

def array (n : ℕ) : Format (Vector UInt8 n) where
  Fits _ := True
  write := Vector.toList
  read bytes :=
    if h : n ≤ bytes.length then
      some (⟨(bytes.take n).toArray, by simpa using h⟩, bytes.drop n)
    else none
  read_eq_some_iff {bytes v rest} := by
    rw [true_and]
    constructor
    · intro h
      split at h
      · obtain ⟨rfl, rfl⟩ := Prod.mk.inj (Option.some.inj h)
        exact (List.take_append_drop n bytes).symm
      · cases h
    · rintro rfl
      have hlen : v.toList.length = n := v.length_toList
      rw [dif_pos (by rw [List.length_append, hlen]; exact Nat.le_add_right n _)]
      simp only [List.take_left' hlen, List.drop_left' hlen]
      rfl

/-! ### Sequences -/

def seq (f : Format α) (g : Format β) : Format (α × β) where
  Fits p := f.Fits p.1 ∧ g.Fits p.2
  write p := f.write p.1 ++ g.write p.2
  read bytes := do
    let (a, bytes) ← f.read bytes
    let (b, bytes) ← g.read bytes
    some ((a, b), bytes)
  read_eq_some_iff {bytes p rest} := by
    constructor
    · intro h
      obtain ⟨⟨a, bytes'⟩, ha, h⟩ := Option.bind_eq_some_iff.mp h
      obtain ⟨⟨b, bytes''⟩, hb, h⟩ := Option.bind_eq_some_iff.mp h
      cases h
      obtain ⟨hfits, rfl⟩ := f.read_eq_some_iff.mp ha
      obtain ⟨hfits', rfl⟩ := g.read_eq_some_iff.mp hb
      exact ⟨⟨hfits, hfits'⟩, (List.append_assoc _ _ _).symm⟩
    · rintro ⟨⟨hfits, hfits'⟩, rfl⟩
      rw [List.append_assoc, read_write hfits]
      show (g.read (g.write p.2 ++ rest) >>= _) = _
      rw [read_write hfits']
      rfl

def readRepeated (f : Format α) : ℕ → List UInt8 → Option (List α × List UInt8)
  | 0, bytes => some ([], bytes)
  | n + 1, bytes => do
    let (a, bytes) ← f.read bytes
    let (as, bytes) ← readRepeated f n bytes
    some (a :: as, bytes)

theorem readRepeated_eq_some_iff {n : ℕ} {bytes rest : List UInt8} {as : List α} :
    readRepeated f n bytes = some (as, rest)
      ↔ (as.length = n ∧ ∀ a ∈ as, f.Fits a) ∧ bytes = as.flatMap f.write ++ rest := by
  induction n generalizing bytes as with
  | zero =>
    rw [readRepeated, Option.some.injEq, Prod.mk.injEq, List.length_eq_zero_iff]
    constructor
    · rintro ⟨rfl, rfl⟩
      exact ⟨⟨rfl, fun a ha => absurd ha List.not_mem_nil⟩, rfl⟩
    · rintro ⟨⟨rfl, -⟩, rfl⟩
      exact ⟨rfl, rfl⟩
  | succ n ih =>
    constructor
    · intro h
      obtain ⟨⟨a, bytes'⟩, ha, h⟩ := Option.bind_eq_some_iff.mp h
      obtain ⟨⟨as', bytes''⟩, has, h⟩ := Option.bind_eq_some_iff.mp h
      cases h
      obtain ⟨hfits, rfl⟩ := f.read_eq_some_iff.mp ha
      obtain ⟨⟨rfl, hall⟩, rfl⟩ := ih.mp has
      refine ⟨⟨rfl, List.forall_mem_cons.mpr ⟨hfits, hall⟩⟩, ?_⟩
      rw [List.flatMap_cons, List.append_assoc]
    · rintro ⟨⟨hlen, hall⟩, rfl⟩
      cases as with
      | nil => cases hlen
      | cons a as =>
        obtain ⟨hfits, hall⟩ := List.forall_mem_cons.mp hall
        rw [readRepeated, List.flatMap_cons, List.append_assoc, read_write hfits]
        show (readRepeated f n _ >>= _) = _
        rw [ih.mpr ⟨⟨Nat.succ.inj hlen, hall⟩, rfl⟩]
        rfl

/-- A list with its length in front, in one byte. -/
def counted (f : Format α) : Format (List α) where
  Fits as := as.length < 256 ∧ ∀ a ∈ as, f.Fits a
  write as := UInt8.ofNat as.length :: as.flatMap f.write
  read
    | count :: bytes => readRepeated f count.toNat bytes
    | [] => none
  read_eq_some_iff {bytes as rest} := by
    have hcount : ∀ count : UInt8, as.length = count.toNat
        ↔ as.length < 256 ∧ count = UInt8.ofNat as.length := by
      intro count
      have hlt := count.toNat_lt
      constructor
      · intro h
        exact ⟨by omega, by rw [h, UInt8.ofNat_toNat]⟩
      · rintro ⟨h, rfl⟩
        rw [UInt8.toNat_ofNat', Nat.mod_eq_of_lt h]
    cases bytes with
    | nil => simp
    | cons count bytes =>
      show readRepeated f count.toNat bytes = some (as, rest) ↔ _
      rw [readRepeated_eq_some_iff, hcount, List.cons_append, List.cons.injEq]
      tauto

end Format

end Bytes
