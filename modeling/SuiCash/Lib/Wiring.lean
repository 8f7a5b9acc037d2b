import Mathlib.Data.Vector.Basic
import Mathlib.Tactic.Common

/-!
# Wiring: fixed-length vectors moved about without looking inside

A bit permutation, a rotation or a slice only moves entries.  The same table
can therefore be applied to bits, to circuit variables, or to anything else,
and what it does is natural in the entries: `Along R v x` says two vectors are
related entry by entry, and every operation here carries `Along R` across
(`Along.gather`, `Along.scatter`, `Along.rotateLeft`, `Along.chunk`,
`Along.append`).  So one table applied to variables and to the values they
carry keeps each variable on its own value.

`scatter` writes where `gather` reads.  `getElem_scatter` says that along an
injective table the entry written is the entry found.
-/

namespace Wiring

variable {α β : Type} {n m : ℕ}

/-- A loop invariant that holds before the first pass and survives each pass
holds after the last one. -/
theorem fold_invariant {σ : Type} {f : (i : ℕ) → i < n → σ → σ} {s : σ}
    (I : ℕ → σ → Prop) (h0 : I 0 s)
    (hs : ∀ (i : ℕ) (h : i < n) (s : σ), I i s → I (i + 1) (f i h s)) :
    I n (Nat.fold n f s) := by
  induction n with
  | zero => simpa using h0
  | succ n ih =>
    rw [Nat.fold_succ]
    exact hs n (Nat.lt_succ_self n) _ (ih fun i h s => hs i (Nat.lt_succ_of_lt h) s)

/-! ### The operations -/

/-- Entry `k` of the result is entry `t k` of `v`. -/
def gather (v : Vector α n) (t : Vector (Fin n) m) : Vector α m :=
  t.map fun j => v.get j

@[simp] theorem getElem_gather (v : Vector α n) (t : Vector (Fin n) m) {k : ℕ} (h : k < m) :
    (gather v t)[k] = v[t[k]] := by
  rw [gather, Vector.getElem_map]
  rfl

/-- Entry `k` of `v` is written over entry `t k` of `init`, for each `k` in turn. -/
def scatter (init : Vector α n) (t : Vector (Fin n) m) (v : Vector α m) : Vector α n :=
  Nat.fold m (fun k _ out => out.set t[k] v[k]) init

/-- Along an injective table the entry written is the entry found. -/
theorem getElem_scatter (init : Vector α n) (t : Vector (Fin n) m) (v : Vector α m)
    (ht : ∀ (i j : ℕ) (hi : i < m) (hj : j < m), t[i] = t[j] → i = j) {k : ℕ} (hk : k < m) :
    (scatter init t v)[t[k]] = v[k] := by
  have inv := fold_invariant (n := m) (f := fun k _ (out : Vector α n) => out.set t[k] v[k])
    (s := init) (fun i out => ∀ j (hj : j < m), j < i → out[t[j]] = v[j])
    (fun j hj h => absurd h (Nat.not_lt_zero j)) ?_
  · exact inv k hk hk
  · intro i hi s ih j hj hlt
    simp only [Fin.getElem_fin, Vector.getElem_set]
    by_cases he : i = j
    · subst he; simp
    · have hne : ¬ (t[i].val = t[j].val) := fun h => he (ht i j hi hj (Fin.ext h))
      rw [if_neg hne]
      exact ih j hj (by omega)

/-- The entries moved `k` places towards the front, the first `k` to the back. -/
def rotateLeft (v : Vector α n) (k : ℕ) : Vector α n :=
  Vector.ofFn fun i =>
    getElem v ((i.val + k) % n) (Nat.mod_lt _ (Nat.lt_of_le_of_lt (Nat.zero_le _) i.isLt))

theorem place_lt (i : Fin n) {j : ℕ} (hj : j < m) : i.val * m + j < n * m :=
  calc i.val * m + j < i.val * m + m := Nat.add_lt_add_left hj _
    _ = (i.val + 1) * m := (Nat.succ_mul _ _).symm
    _ ≤ n * m := Nat.mul_le_mul_right m i.isLt

/-- The `i`-th of the `n` consecutive stretches of length `m`. -/
def chunk (v : Vector α (n * m)) (i : Fin n) : Vector α m :=
  Vector.ofFn fun j => getElem v (i.val * m + j.val) (place_lt i j.isLt)

theorem getElem_chunk (v : Vector α (n * m)) (i : Fin n) {j : ℕ} (hj : j < m) :
    (chunk v i)[j] = getElem v (i.val * m + j) (place_lt i hj) := by simp [chunk]

@[simp] theorem chunk_flatten (v : Vector (Vector α m) n) {k : ℕ} (h : k < n) :
    chunk v.flatten ⟨k, h⟩ = v[k] := by
  ext j hj
  have hm : 0 < m := Nat.lt_of_le_of_lt (Nat.zero_le j) hj
  have hd : (k * m + j) / m = k := by
    rw [Nat.mul_comm, Nat.mul_add_div hm, Nat.div_eq_of_lt hj, Nat.add_zero]
  have hr : (k * m + j) % m = j := by
    rw [Nat.mul_comm, Nat.mul_add_mod, Nat.mod_eq_of_lt hj]
  simp only [getElem_chunk, Vector.getElem_flatten, hd, hr]

/-! ### Entry-by-entry relations -/

/-- `v` and `x` are related entry by entry. -/
def Along (R : α → β → Prop) (v : Vector α n) (x : Vector β n) : Prop :=
  ∀ (i : ℕ) (h : i < n), R v[i] x[i]

namespace Along

variable {R : α → β → Prop}

theorem gather {v : Vector α n} {x : Vector β n} (h : Along R v x) (t : Vector (Fin n) m) :
    Along R (gather v t) (Wiring.gather x t) := by
  intro i hi
  simpa using h t[i].val t[i].isLt

theorem rotateLeft {v : Vector α n} {x : Vector β n} (h : Along R v x) (k : ℕ) :
    Along R (rotateLeft v k) (Wiring.rotateLeft x k) := by
  intro i hi
  simpa [Wiring.rotateLeft] using h _ (Nat.mod_lt _ (Nat.lt_of_le_of_lt (Nat.zero_le i) hi))

theorem chunk {v : Vector α (n * m)} {x : Vector β (n * m)} (h : Along R v x) (i : Fin n) :
    Along R (chunk v i) (Wiring.chunk x i) := by
  intro j hj
  rw [getElem_chunk v i hj, getElem_chunk x i hj]
  exact h _ _

theorem append {v : Vector α n} {x : Vector β n} {v' : Vector α m} {x' : Vector β m}
    (h : Along R v x) (h' : Along R v' x') : Along R (v ++ v') (x ++ x') := by
  intro i hi
  rw [Vector.getElem_append hi, Vector.getElem_append hi]
  split
  · exact h i ‹_›
  · exact h' _ _

theorem flatten {v : Vector (Vector α m) n} {x : Vector (Vector β m) n}
    (h : ∀ (i : ℕ) (hi : i < n), Along R v[i] x[i]) : Along R v.flatten x.flatten := by
  intro i hi
  rw [Vector.getElem_flatten hi, Vector.getElem_flatten hi]
  exact h _ _ _ _

theorem scatter {init : Vector α n} {init' : Vector β n} {v : Vector α m} {x : Vector β m}
    (h0 : Along R init init') (h : Along R v x) (t : Vector (Fin n) m) :
    Along R (scatter init t v) (Wiring.scatter init' t x) := by
  have key : ∀ (k : ℕ) (hk : k ≤ m),
      Along R (Nat.fold k (fun j hj out => out.set t[j] v[j]) init)
        (Nat.fold k (fun j hj out => out.set t[j] x[j]) init') := by
    intro k
    induction k with
    | zero => intro _; simpa using h0
    | succ k ih =>
      intro hk i hi
      rw [Nat.fold_succ, Nat.fold_succ, Vector.getElem_set, Vector.getElem_set]
      split
      · exact h k (by omega)
      · exact ih (by omega) i hi
  exact key m le_rfl

end Along

end Wiring
