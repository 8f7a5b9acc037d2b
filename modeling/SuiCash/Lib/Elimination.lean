import Mathlib.Algebra.BigOperators.Fin
import Mathlib.Algebra.Field.Basic
import Mathlib.Algebra.BigOperators.Ring.Finset
import Mathlib.Data.Fintype.BigOperators
import Mathlib.Tactic.Ring
import Mathlib.LinearAlgebra.Vandermonde
import SuiCash.Lib.Wiring

/-!
# Gauss–Jordan elimination

`n` equations in `n` unknowns, stored as rows of `n + 1` entries with the right
hand side last.  `eliminate` clears one column after another: find a row with a
nonzero entry at or below the diagonal, bring it up, divide it by the pivot, and
subtract it from every other row.  A column without a pivot stops the run.

A row is read as a linear form on `n + 1` entries.  `Kernel mat y` says `y` is a
zero of every row, so `(x, -1)` is in the kernel exactly when `x` solves the
system, and `(x, 0)` exactly when `x` solves the homogeneous one.  The row
operations keep the kernel (`kernel_swap`, `kernel_normalize`,
`kernel_clearRow`), and this carries the whole argument:

* with no homogeneous solution but zero, every column has a pivot
  (`exists_pivot`): without one, the cleared columns would express it;
* when the last column is cleared, what stands on the right is in the kernel of
  the start (`eliminate_spec`).

On a Vandermonde system this is interpolation (`eliminate_powers`), and `horner`
evaluates what comes out.
-/

namespace Elimination

open Wiring

variable {F : Type} [Field F] {n : ℕ}

/-- The rows of a system of `n` equations in `n` unknowns. -/
abbrev Rows (F : Type) (n : ℕ) := Vector (Vector F (n + 1)) n

/-! ### The operations -/

/-- The first row from `col` on whose entry in column `col` is not zero. -/
def findPivot [DecidableEq F] (mat : Rows F n) (col : Fin n) : Option (Fin n) :=
  (List.finRange n).find? fun i => decide (col ≤ i) && decide (mat[i][col.val] ≠ 0)

/-- Row `col` multiplied by `inv` from the diagonal on. -/
def normalize (mat : Rows F n) (col : Fin n) (inv : F) : Rows F n :=
  mat.set col (Vector.ofFn fun j : Fin (n + 1) =>
    if col.val ≤ j.val then mat[col][j] * inv else mat[col][j])

/-- Row `col` taken off row `row`, from the diagonal of `col` on, as often as
the entry of `row` in column `col` says. -/
def clearRow [DecidableEq F] (col row : Fin n) (mat : Rows F n) : Rows F n :=
  if row = col then mat
  else
    let factor := mat[row][col.val]
    if factor = 0 then mat
    else mat.set row (Vector.ofFn fun j : Fin (n + 1) =>
      if col.val ≤ j.val then mat[row][j] - mat[col][j] * factor else mat[row][j])

/-- One column.  `none` where there is no pivot. -/
def clearColumn [DecidableEq F] (mat : Rows F n) (col : Fin n) : Option (Rows F n) := do
  let pivot ← findPivot mat col
  let mat := mat.swap col pivot
  if mat[col][col.val] = 0 then none
  else
    let mat := normalize mat col (mat[col][col.val])⁻¹
    some (Nat.fold n (fun row h mat => clearRow col ⟨row, h⟩ mat) mat)

/-- All columns, then the right hand side. -/
def eliminate [DecidableEq F] (mat : Rows F n) : Option (Vector F n) := do
  let mat ← (List.finRange n).foldlM clearColumn mat
  some (Vector.ofFn fun i => mat[i][n])

/-! ### The kernel -/

def form (row : Vector F (n + 1)) (y : Fin (n + 1) → F) : F := ∑ j : Fin (n + 1), row[j] * y j

def Kernel (mat : Rows F n) (y : Fin (n + 1) → F) : Prop := ∀ i : Fin n, form mat[i] y = 0

theorem kernel_swap (mat : Rows F n) (i j : Fin n) (y : Fin (n + 1) → F) :
    Kernel (mat.swap i j) y ↔ Kernel mat y := by
  have hrow : ∀ k : Fin n, (mat.swap i j)[k]
      = mat[(if k = i then j else if k = j then i else k : Fin n)] := by
    intro k
    simp only [Fin.getElem_fin, Vector.getElem_swap, Fin.ext_iff]
    split
    · rfl
    · split <;> rfl
  constructor
  · intro h k
    have := h (if k = i then j else if k = j then i else k)
    rw [hrow] at this
    convert this using 3
    split_ifs <;> simp_all
  · intro h k
    rw [hrow]
    exact h _

theorem kernel_normalize {mat : Rows F n} {col : Fin n} {inv : F} (hinv : inv ≠ 0)
    (hzero : ∀ j : Fin (n + 1), j.val < col.val → mat[col][j] = 0) (y : Fin (n + 1) → F) :
    Kernel (normalize mat col inv) y ↔ Kernel mat y := by
  have hcol : form (normalize mat col inv)[col] y = inv * form mat[col] y := by
    rw [form, form, Finset.mul_sum]
    refine Finset.sum_congr rfl fun j _ => ?_
    simp only [normalize, Fin.getElem_fin, Vector.getElem_set_self, Vector.getElem_ofFn]
    split
    · ring
    · have := hzero j (by omega)
      simp only [Fin.getElem_fin] at this
      rw [this]
      ring
  have hother : ∀ i : Fin n, i ≠ col → (normalize mat col inv)[i] = mat[i] := by
    intro i hi
    have : col.val ≠ i.val := fun h => hi (Fin.ext h.symm)
    simp [normalize, Vector.getElem_set_ne _ _ this]
  refine forall_congr' fun i => ?_
  by_cases hi : i = col
  · subst hi
    rw [hcol, mul_eq_zero, or_iff_right hinv]
  · rw [hother i hi]

theorem kernel_clearRow [DecidableEq F] {mat : Rows F n} {col row : Fin n}
    (hzero : ∀ j : Fin (n + 1), j.val < col.val → mat[col][j] = 0) (y : Fin (n + 1) → F) :
    Kernel (clearRow col row mat) y ↔ Kernel mat y := by
  unfold clearRow
  split
  · exact Iff.rfl
  · rename_i hrc
    dsimp only
    split
    · exact Iff.rfl
    · set factor := mat[row][col.val]
      set mat' : Rows F n := mat.set row (Vector.ofFn fun j : Fin (n + 1) =>
        if col.val ≤ j.val then mat[row][j] - mat[col][j] * factor else mat[row][j])
      have hrow : form mat'[row] y = form mat[row] y - factor * form mat[col] y := by
        rw [form, form, form, Finset.mul_sum, ← Finset.sum_sub_distrib]
        refine Finset.sum_congr rfl fun j _ => ?_
        simp only [mat', Fin.getElem_fin, Vector.getElem_set_self, Vector.getElem_ofFn]
        split
        · ring
        · have := hzero j (by omega)
          simp only [Fin.getElem_fin] at this
          rw [this]
          ring
      have hother : ∀ i : Fin n, i ≠ row → mat'[i] = mat[i] := by
        intro i hi
        have : row.val ≠ i.val := fun h => hi (Fin.ext h.symm)
        simp [mat', Vector.getElem_set_ne _ _ this]
      constructor
      · intro h i
        by_cases hi : i = row
        · subst hi
          have hcol := h col
          rw [hother col (Ne.symm hrc)] at hcol
          have := h i
          rwa [hrow, hcol, mul_zero, sub_zero] at this
        · rw [← hother i hi]
          exact h i
      · intro h i
        by_cases hi : i = row
        · subst hi
          rw [hrow, h i, h col, mul_zero, sub_zero]
        · rw [hother i hi]
          exact h i

/-! ### Cleared columns -/

/-- The first `k` columns are columns of the identity. -/
def Cleared (k : ℕ) (mat : Rows F n) : Prop :=
  ∀ (i : Fin n) (j : Fin n), j.val < k → mat[i][j.val] = if i = j then 1 else 0

/-- The row of the column itself is zero before the diagonal. -/
theorem Cleared.pivot_row {mat : Rows F n} {col : Fin n} (h : Cleared col mat) {j : Fin (n + 1)}
    (hj : j.val < col.val) : mat[col][j] = 0 := by
  have hentry := h col ⟨j.val, by omega⟩ hj
  refine hentry.trans (if_neg fun he => ?_)
  have hval : col.val = j.val := congrArg Fin.val he
  omega

/-- The vector that is `z` on the first `k` entries, `t` at entry `k` and zero
after it. -/
def stub (k : ℕ) (z : Fin n → F) (t : F) (j : Fin (n + 1)) : F :=
  if hj : j.val < n then
    if j.val < k then z ⟨j, hj⟩ else if j.val = k then t else 0
  else 0

theorem form_stub {k : Fin n} {mat : Rows F n} (h : Cleared k mat) (i : Fin n)
    (z : Fin n → F) (t : F) :
    form mat[i] (stub k z t) = (if i < k then z i else 0) + mat[i][k.val] * t := by
  have hterm : ∀ j : Fin n, mat[i][j.val] * stub k z t j.castSucc
      = (if j = i then (if i < k then z i else 0) else 0)
        + (if j = k then mat[i][k.val] * t else 0) := by
    intro j
    simp only [stub, Fin.val_castSucc, j.isLt, dif_pos, Fin.eta]
    by_cases hjk : j.val < k.val
    · have hne : j ≠ k := fun he => absurd (congrArg Fin.val he) (by omega)
      rw [if_pos hjk, h i j hjk, if_neg hne, add_zero]
      by_cases hij : j = i
      · subst hij
        rw [if_pos rfl, if_pos rfl, if_pos (Fin.lt_def.mpr hjk), one_mul]
      · rw [if_neg hij, if_neg (Ne.symm hij), zero_mul]
    · rw [if_neg hjk]
      have hij : (if j = i then (if i < k then z i else 0) else 0) = 0 := by
        by_cases hij : j = i
        · subst hij
          rw [if_pos rfl, if_neg (fun hlt => hjk (Fin.lt_def.mp hlt))]
        · exact if_neg hij
      rw [hij, zero_add]
      by_cases hj : j = k
      · subst hj
        rw [if_pos rfl, if_pos rfl]
      · rw [if_neg (fun he => hj (Fin.ext he)), if_neg hj, mul_zero]
  have hlast : stub k z t (Fin.last n) = 0 := by
    simp [stub]
  rw [form, Fin.sum_univ_castSucc, hlast, mul_zero, add_zero]
  simp only [Fin.getElem_fin, Fin.val_castSucc] at hterm ⊢
  rw [Finset.sum_congr rfl fun j _ => hterm j, Finset.sum_add_distrib, Finset.sum_ite_eq',
    Finset.sum_ite_eq']
  simp

/-- **Every column has a pivot** where the homogeneous system has no solution
but zero: otherwise the cleared columns express this one. -/
theorem exists_pivot [DecidableEq F] {mat : Rows F n} {col : Fin n} (h : Cleared col mat)
    (hker : ∀ y, Kernel mat y → y (Fin.last n) = 0 → y = 0) :
    ∃ p, findPivot mat col = some p ∧ col ≤ p ∧ mat[p][col.val] ≠ 0 := by
  have hex : ∃ p : Fin n, col ≤ p ∧ mat[p][col.val] ≠ 0 := by
    by_contra hno
    push Not at hno
    let y := stub col.val (fun j : Fin n => -mat[j][col.val]) (1 : F)
    have hy : Kernel mat y := by
      intro i
      rw [form_stub h, mul_one]
      by_cases hi : i < col
      · rw [if_pos hi, neg_add_cancel]
      · rw [if_neg hi, hno i (not_lt.mp hi), add_zero]
    have hz := congrFun (hker y hy (by simp [y, stub])) col.castSucc
    simp [y, stub] at hz
  obtain ⟨p, hcp, hp⟩ := hex
  have hsome : ((List.finRange n).find?
      fun i => decide (col ≤ i) && decide (mat[i][col.val] ≠ 0)).isSome := by
    rw [List.find?_isSome]
    exact ⟨p, List.mem_finRange p, by simp [hcp]; simpa using hp⟩
  obtain ⟨q, hq⟩ := Option.isSome_iff_exists.mp hsome
  have := List.find?_some hq
  simp only [Bool.and_eq_true, decide_eq_true_eq] at this
  exact ⟨q, hq, this.1, this.2⟩

/-! ### One column -/

theorem cleared_swap {mat : Rows F n} {col p : Fin n} (h : Cleared col mat) (hp : col ≤ p) :
    Cleared col (mat.swap col p) := by
  intro i j hj
  have hc := h col j hj
  have hpj := h p j hj
  have hlt := Fin.lt_def.mpr hj
  rw [if_neg (ne_of_gt hlt)] at hc
  rw [if_neg (ne_of_gt (lt_of_lt_of_le hlt hp))] at hpj
  simp only [Fin.getElem_fin, Vector.getElem_swap] at hc hpj ⊢
  by_cases hi : i = col
  · subst hi
    simp [hpj, ne_of_gt hlt]
  · by_cases hip : i = p
    · subst hip
      simp [hc, ne_of_gt (lt_of_lt_of_le hlt hp), Fin.val_ne_of_ne hi]
    · simpa [Fin.val_ne_of_ne hi, Fin.val_ne_of_ne hip] using h i j hj

theorem cleared_normalize {mat : Rows F n} {col : Fin n} (h : Cleared col mat) (inv : F) :
    Cleared col (normalize mat col inv) := by
  intro i j hj
  rw [← h i j hj]
  by_cases hi : i = col
  · subst hi
    simp [normalize, not_le.mpr hj]
  · have : col.val ≠ i.val := fun he => hi (Fin.ext he.symm)
    simp [normalize, Vector.getElem_set_ne _ _ this]

section ClearRow

variable [DecidableEq F]

theorem clearRow_of_ne {mat : Rows F n} {col row i : Fin n} (hi : i ≠ row) :
    (clearRow col row mat)[i] = mat[i] := by
  have : row.val ≠ i.val := fun he => hi (Fin.ext he.symm)
  unfold clearRow
  split
  · rfl
  · dsimp only
    split
    · rfl
    · simp [Vector.getElem_set_ne _ _ this]

@[simp] theorem clearRow_pivot {mat : Rows F n} {col row : Fin n} :
    (clearRow col row mat)[col] = mat[col] := by
  by_cases h : col = row
  · rw [clearRow, if_pos h.symm]
  · exact clearRow_of_ne h

theorem clearRow_self {mat : Rows F n} {col row : Fin n} (hrow : row ≠ col)
    (hone : mat[col][col.val] = 1) : (clearRow col row mat)[row][col.val] = 0 := by
  rw [clearRow, if_neg hrow]
  dsimp only
  split
  · assumption
  · simp only [Fin.getElem_fin] at hone ⊢
    simp [hone]

theorem cleared_clearRow {mat : Rows F n} {col row : Fin n} (h : Cleared col mat) :
    Cleared col (clearRow col row mat) := by
  intro i j hj
  rw [← h i j hj]
  by_cases hi : i = row
  · subst hi
    unfold clearRow
    split
    · rfl
    · dsimp only
      split
      · rfl
      · simp [not_le.mpr hj]
  · rw [clearRow_of_ne hi]

/-- The pivot taken off every other row: the column is cleared, the kernel stays. -/
theorem clearRows_spec {mat : Rows F n} {col : Fin n} (h : Cleared col mat)
    (hone : mat[col][col.val] = 1) :
    Cleared (col.val + 1) (Nat.fold n (fun row h mat => clearRow col ⟨row, h⟩ mat) mat)
      ∧ ∀ y, Kernel (Nat.fold n (fun row h mat => clearRow col ⟨row, h⟩ mat) mat) y
        ↔ Kernel mat y := by
  -- the rows already passed are clear of the pivot, and the pivot row stands
  have inv := fold_invariant (f := fun row h mat => clearRow col ⟨row, h⟩ mat) (s := mat)
    (fun k m => Cleared col m ∧ m[col][col.val] = 1
      ∧ (∀ i : Fin n, i.val < k → i ≠ col → m[i][col.val] = 0)
      ∧ ∀ y, Kernel m y ↔ Kernel mat y)
    ⟨h, hone, fun i hi => absurd hi (Nat.not_lt_zero _), fun y => Iff.rfl⟩ ?_
  · obtain ⟨hcl, hdiag, hoff, hk⟩ := inv
    refine ⟨fun i j hj => ?_, hk⟩
    by_cases hjc : j = col
    · subst hjc
      split
      · subst_vars; exact hdiag
      · exact hoff i i.isLt ‹_›
    · have := Fin.val_ne_of_ne hjc
      exact hcl i j (by omega)
  · rintro k hk m ⟨hcl, hdiag, hoff, hker⟩
    refine ⟨cleared_clearRow hcl, by rw [clearRow_pivot]; exact hdiag, ?_, fun y => ?_⟩
    · intro i hi hic
      by_cases hik : i = ⟨k, hk⟩
      · rw [hik]
        exact clearRow_self (hik ▸ hic) hdiag
      · rw [clearRow_of_ne hik]
        have := Fin.val_ne_of_ne hik
        exact hoff i (by simp at this; omega) hic
    · rw [kernel_clearRow (fun j hj => hcl.pivot_row hj), hker]

/-- **One column**: a pivot is found, the column is cleared, the kernel stays. -/
theorem clearColumn_spec {mat : Rows F n} {col : Fin n} (h : Cleared col mat)
    (hker : ∀ y, Kernel mat y → y (Fin.last n) = 0 → y = 0) :
    ∃ mat', clearColumn mat col = some mat' ∧ Cleared (col.val + 1) mat'
      ∧ ∀ y, Kernel mat' y ↔ Kernel mat y := by
  obtain ⟨p, hfind, hcp, hp⟩ := exists_pivot h hker
  set mat1 : Rows F n := mat.swap col p
  have h1 : Cleared col mat1 := cleared_swap h hcp
  have hpiv : mat1[col][col.val] ≠ 0 := by simpa [mat1] using hp
  set mat2 := normalize mat1 col (mat1[col][col.val])⁻¹
  have h2 : Cleared col mat2 := cleared_normalize h1 _
  have hone : mat2[col][col.val] = 1 := by
    have : mat2[col][col.val] = mat1[col][col.val] * (mat1[col][col.val])⁻¹ := by
      simp [mat2, normalize]
    rw [this, mul_inv_cancel₀ hpiv]
  obtain ⟨hcleared, hkernel⟩ := clearRows_spec h2 hone
  refine ⟨_, ?_, hcleared, fun y => ?_⟩
  · rw [clearColumn, hfind]
    exact if_neg hpiv
  · rw [hkernel, kernel_normalize (inv_ne_zero hpiv) fun j hj => h1.pivot_row hj, kernel_swap]

/-! ### The whole run -/

/-- From column `k` on to the last, one column after another. -/
theorem clearColumns_spec {mat : Rows F n}
    (hker : ∀ y, Kernel mat y → y (Fin.last n) = 0 → y = 0) (cols : List (Fin n)) :
    ∀ (k : ℕ) (m : Rows F n), cols = (List.finRange n).drop k → Cleared k m →
      (∀ y, Kernel m y ↔ Kernel mat y) →
      ∃ m', cols.foldlM clearColumn m = some m' ∧ Cleared n m'
        ∧ ∀ y, Kernel m' y ↔ Kernel mat y := by
  induction cols with
  | nil =>
    intro k m hk hm hy
    have hlen := congrArg List.length hk
    simp only [List.length_nil, List.length_drop, List.length_finRange] at hlen
    exact ⟨m, rfl, fun i j _ => hm i j (by omega), hy⟩
  | cons col cols ih =>
    intro k m hk hm hy
    have hlt : k < n := by
      have hlen := congrArg List.length hk
      simp only [List.length_cons, List.length_drop, List.length_finRange] at hlen
      omega
    rw [List.drop_eq_getElem_cons (by simpa using hlt)] at hk
    obtain ⟨hcol, hcols⟩ := List.cons.inj hk
    have hcv : col.val = k := by rw [hcol]; simp
    have hcol' : Cleared col.val m := by rw [hcv]; exact hm
    obtain ⟨m', hm', hcl, hker'⟩ :=
      clearColumn_spec hcol' fun y hk hz => hker y ((hy y).mp hk) hz
    obtain ⟨m'', hm'', hrest⟩ := ih (k + 1) m' hcols (by rw [← hcv]; exact hcl)
      (fun y => (hker' y).trans (hy y))
    exact ⟨m'', by rw [List.foldlM_cons, hm']; exact hm'', hrest⟩

/-- **Elimination solves the system** whose homogeneous part has only the zero
solution. -/
theorem eliminate_spec {mat : Rows F n}
    (hker : ∀ y, Kernel mat y → y (Fin.last n) = 0 → y = 0) :
    ∃ x, eliminate mat = some x
      ∧ Kernel mat (Fin.snoc (fun i : Fin n => x[i]) (-1) : Fin (n + 1) → F) := by
  obtain ⟨m, hm, hcl, hk⟩ := clearColumns_spec hker (List.finRange n) 0 mat rfl
    (fun i j h => absurd h (Nat.not_lt_zero _)) (fun y => Iff.rfl)
  refine ⟨Vector.ofFn fun i => m[i][n], by rw [eliminate, hm]; rfl, ?_⟩
  rw [← hk]
  intro i
  have hrow : ∀ j : Fin n, m[i][j.val] = if i = j then 1 else 0 := fun j => hcl i j j.isLt
  rw [form, Fin.sum_univ_castSucc]
  simp only [Fin.getElem_fin, Fin.val_castSucc, Fin.snoc_castSucc, Fin.snoc_last, Fin.val_last,
    Vector.getElem_ofFn] at hrow ⊢
  rw [Finset.sum_congr rfl fun j _ => by rw [hrow j]]
  simp

end ClearRow

/-! ### Interpolation -/

def powers (xs : Fin n → F) (ys : Fin n → F) : Rows F n :=
  Vector.ofFn fun i => Vector.ofFn fun j : Fin (n + 1) =>
    if j.val < n then xs i ^ j.val else ys i

theorem form_powers (xs ys : Fin n → F) (i : Fin n) (y : Fin (n + 1) → F) :
    form (powers xs ys)[i] y
      = ∑ j : Fin n, xs i ^ j.val * y j.castSucc + ys i * y (Fin.last n) := by
  rw [form, Fin.sum_univ_castSucc]
  simp [powers]

/-- **Elimination interpolates**: at distinct nodes it returns the coefficients of
a polynomial through the given values. -/
theorem eliminate_powers [DecidableEq F] {xs : Fin n → F} (hxs : Function.Injective xs)
    (ys : Fin n → F) :
    ∃ coeffs, eliminate (powers xs ys) = some coeffs
      ∧ ∀ i, ∑ j : Fin n, xs i ^ j.val * coeffs[j] = ys i := by
  have hpowers : ∀ y, Kernel (powers xs ys) y → y (Fin.last n) = 0 → y = 0 := by
    intro y hy hlast
    have hzero := Matrix.eq_zero_of_forall_index_sum_pow_mul_eq_zero hxs
      (v := fun j => y j.castSucc) fun i => by
        have h := hy i
        rwa [form_powers, hlast, mul_zero, add_zero] at h
    funext j
    exact Fin.lastCases hlast (fun j => congrFun hzero j) j
  obtain ⟨coeffs, hcoeffs, hker⟩ := eliminate_spec hpowers
  refine ⟨coeffs, hcoeffs, fun i => ?_⟩
  have h := hker i
  rw [form_powers, Fin.snoc_last, mul_neg_one, add_neg_eq_zero] at h
  simpa only [Fin.snoc_castSucc] using h

def horner (x : F) (coeffs : Vector F (n + 1)) : F :=
  coeffs.pop.toList.reverse.foldl (fun acc a => acc * x + a) coeffs[n]

theorem foldl_horner (x top : F) (l : List F) :
    l.reverse.foldl (fun acc a => acc * x + a) top
      = ∑ j : Fin l.length, x ^ j.val * l[j] + x ^ l.length * top := by
  induction l with
  | nil => simp
  | cons a l ih =>
    rw [List.reverse_cons, List.foldl_append, ih]
    simp only [List.foldl_cons, List.foldl_nil, List.length_cons]
    rw [Fin.sum_univ_succ, add_mul, Finset.sum_mul]
    have hterm : ∀ j : Fin l.length, x ^ j.val * l[j] * x
        = x ^ (j.succ).val * (a :: l)[j.succ] := by
      intro j
      simp only [Fin.getElem_fin, Fin.val_succ, List.getElem_cons_succ, pow_succ]
      ring
    rw [Finset.sum_congr rfl fun j _ => hterm j]
    simp only [Fin.getElem_fin, Fin.val_zero, List.getElem_cons_zero, pow_succ]
    ring

theorem horner_eq (x : F) (coeffs : Vector F (n + 1)) :
    horner x coeffs = ∑ j : Fin (n + 1), x ^ j.val * coeffs[j] := by
  rw [horner, foldl_horner, Fin.sum_univ_castSucc]
  have hlen : coeffs.pop.toList.length = n := by simp
  congr 1
  · refine Fintype.sum_equiv (finCongr hlen) _ _ fun j => ?_
    simp
  · rw [hlen]
    rfl

end Elimination
