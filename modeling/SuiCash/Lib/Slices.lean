import SuiCash.Lib.Fallible

/-!
# Slices that panic

Indexing, slicing and cutting a list into chunks, in a computation that panics where an
index is out of bounds.

`mapM_chunksExact` reads a stretch of entries of one width: where the width divides the
stretch nothing panics, and what is read writes the stretch.
-/

namespace Slices

open Fallible

variable {ε α β : Type}

def index (s : List α) (i : ℕ) : Except (Stop ε) α :=
  match s[i]? with
  | some a => .ok a
  | none => .error .panic

def slice (s : List α) (i j : ℕ) : Except (Stop ε) (List α) :=
  if i ≤ j ∧ j ≤ s.length then .ok ((s.take j).drop i) else .error .panic

/-- `s.get(i..j)`, which is missing where `s[i..j]` would panic. -/
def getSlice (s : List α) (i j : ℕ) : Option (List α) :=
  if i ≤ j ∧ j ≤ s.length then some ((s.take j).drop i) else none

/-- `s.try_into().expect(..)`, into an array of `n`. -/
def array (n : ℕ) (s : List α) : Except (Stop ε) (Vector α n) :=
  match copyFromSlice n s with
  | some v => .ok v
  | none => .error .panic

/-- `s.chunks_exact(k)`: what is left over at the end is in no chunk. -/
def chunksExact (k : ℕ) (s : List α) : List (List α) :=
  (List.range (s.length / k)).map fun i => (s.drop (i * k)).take k

theorem index_of_getElem? {s : List α} {i : ℕ} {a : α} (h : s[i]? = some a) :
    (index s i : Except (Stop ε) α) = .ok a := by
  rw [index, h]

theorem slice_of_le {s : List α} {i j : ℕ} (hij : i ≤ j) (hj : j ≤ s.length) :
    (slice s i j : Except (Stop ε) (List α)) = .ok ((s.take j).drop i) :=
  if_pos ⟨hij, hj⟩

theorem slice_of_eq_length {s : List α} {i j : ℕ} (hij : i ≤ j) (hj : j = s.length) :
    (slice s i j : Except (Stop ε) (List α)) = .ok (s.drop i) := by
  rw [slice_of_le hij (Nat.le_of_eq hj), hj, List.take_length]

theorem slice_append {a b c : List α} {i j : ℕ} (ha : a.length = i) (hb : i + b.length = j) :
    (slice (a ++ (b ++ c)) i j : Except (Stop ε) (List α)) = .ok b := by
  have hle : i ≤ j ∧ j ≤ (a ++ (b ++ c)).length := by
    simp only [List.length_append]
    omega
  rw [slice, if_pos hle, ← List.append_assoc, List.take_left' (by rw [List.length_append, ha, hb]),
    List.drop_left' ha]

theorem slice_append_end {a b : List α} {i j : ℕ} (ha : a.length = i) (hb : i + b.length = j) :
    (slice (a ++ b) i j : Except (Stop ε) (List α)) = .ok b := by
  have h := slice_append (ε := ε) (c := []) ha hb
  rwa [List.append_nil] at h

/-- A stretch that is there is the middle of three parts. -/
theorem getSlice_eq_some_iff {s t : List α} {i j : ℕ} (hij : i ≤ j) :
    getSlice s i j = some t ↔ t.length = j - i ∧ ∃ a c, a.length = i ∧ s = a ++ (t ++ c) := by
  rw [getSlice, Option.ite_none_right_eq_some, Option.some.injEq]
  constructor
  · rintro ⟨⟨-, hj⟩, rfl⟩
    have hfirst : (s.take j).take i = s.take i := by
      rw [List.take_take, Nat.min_eq_left hij]
    refine ⟨?_, s.take i, s.drop j, List.length_take_of_le (Nat.le_trans hij hj), ?_⟩
    · rw [List.length_drop, List.length_take_of_le hj]
    · rw [← List.append_assoc, ← hfirst, List.take_append_drop, List.take_append_drop]
  · rintro ⟨hlen, a, c, rfl, rfl⟩
    have hj : a.length + t.length = j := by omega
    refine ⟨⟨hij, by rw [List.length_append, List.length_append]; omega⟩, ?_⟩
    rw [← List.append_assoc, List.take_left' (by rw [List.length_append, hj]),
      List.drop_left' rfl]

theorem array_of_length {n : ℕ} {s : List α} (h : s.length = n) :
    ∃ v : Vector α n, (array n s : Except (Stop ε) (Vector α n)) = .ok v ∧ v.toList = s := by
  refine ⟨⟨s.toArray, by simpa using h⟩, ?_, rfl⟩
  rw [array, copyFromSlice, dif_pos h]

theorem drop_eq_cons {s : List α} {i : ℕ} {a : α} (h : s[i]? = some a) :
    s.drop i = a :: s.drop (i + 1) := by
  obtain ⟨hi, rfl⟩ := List.getElem?_eq_some_iff.mp h
  exact List.drop_eq_getElem_cons hi

theorem drop_eq_append (s : List α) {i j : ℕ} (h : i ≤ j) :
    s.drop i = (s.take j).drop i ++ s.drop j := by
  have hrest : s.drop j = (s.drop i).drop (j - i) := by
    rw [List.drop_drop, Nat.add_sub_cancel' h]
  rw [hrest, List.drop_take, List.take_append_drop]

theorem length_take_drop {s : List α} {i j : ℕ} (h : j ≤ s.length) :
    ((s.take j).drop i).length = j - i := by
  rw [List.length_drop, List.length_take, Nat.min_eq_left h]

/-! ### Checkers that index -/

section Decides

variable {s : List α} {i j : ℕ} {p : Prop} {q : β → Prop}

theorem decides_index {f : α → Except (Stop ε) β} (hi : i < s.length)
    (h : ∀ a, s[i]? = some a → Decides (f a) p q) : Decides (index s i >>= f) p q := by
  have ha := List.getElem?_eq_getElem hi
  exact decides_step (index_of_getElem? ha) (h s[i] ha)

theorem decides_slice {f : List α → Except (Stop ε) β} (hij : i ≤ j) (hj : j ≤ s.length)
    (h : Decides (f ((s.take j).drop i)) p q) : Decides (slice s i j >>= f) p q :=
  decides_step (slice_of_le hij hj) h

end Decides

/-! ### Chunks -/

theorem chunksExact_append {k : ℕ} (hk : 0 < k) {a : List α} (ha : a.length = k) (s : List α) :
    chunksExact k (a ++ s) = a :: chunksExact k s := by
  have hcount : (a ++ s).length / k = s.length / k + 1 := by
    rw [List.length_append, ha, Nat.add_comm, Nat.add_div_right _ hk]
  have hchunk : ∀ i, ((a ++ s).drop ((i + 1) * k)).take k = (s.drop (i * k)).take k := by
    intro i
    rw [Nat.succ_mul, Nat.add_comm, ← ha, List.drop_length_add_append]
  rw [chunksExact, hcount, List.range_succ_eq_map, List.map_cons, List.map_map, Nat.zero_mul,
    List.drop_zero, List.take_left' ha]
  exact congrArg (a :: ·) (List.map_congr_left fun i _ => hchunk i)

@[simp] theorem chunksExact_nil (k : ℕ) : chunksExact k ([] : List α) = [] := by
  rw [chunksExact, List.length_nil, Nat.zero_div, List.range_zero, List.map_nil]

/-- **Entries that are read write the stretch they are read from.** -/
theorem mapM_chunksExact {k : ℕ} (hk : 0 < k) {read : List α → Except (Stop ε) β}
    {write : β → List α} (hread : ∀ c : List α, c.length = k → ∃ b, read c = .ok b ∧ write b = c) :
    ∀ {n : ℕ} {s : List α}, s.length = n * k →
      ∃ bs : List β, (chunksExact k s).mapM read = .ok bs ∧ bs.length = n ∧ bs.flatMap write = s
  | 0, s, hlen => by
    rw [Nat.zero_mul] at hlen
    cases List.length_eq_zero_iff.mp hlen
    exact ⟨[], by rw [chunksExact_nil, List.mapM_nil]; rfl, rfl, rfl⟩
  | n + 1, s, hlen => by
    have hsplit := List.take_append_drop k s
    rw [Nat.succ_mul] at hlen
    have hfirst : (s.take k).length = k := by
      rw [List.length_take]
      omega
    have hrest : (s.drop k).length = n * k := by
      rw [List.length_drop]
      omega
    obtain ⟨b, hb, hwrite⟩ := hread (s.take k) hfirst
    obtain ⟨bs, hbs, hcount, hwrites⟩ := mapM_chunksExact hk hread hrest
    refine ⟨b :: bs, ?_, by rw [List.length_cons, hcount], ?_⟩
    · rw [← hsplit, chunksExact_append hk hfirst, List.mapM_cons, hb, hbs]
      rfl
    · rw [List.flatMap_cons, hwrite, hwrites, hsplit]

end Slices
