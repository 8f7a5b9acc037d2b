import Mathlib.Algebra.BigOperators.Group.List.Basic
import Mathlib.Data.UInt

/-!
# Additive checksums

A checksum is the entry that makes a sum vanish.  One changed entry always shows
(`sum_set_eq_iff`), for the group cancels.
-/

namespace Checksum

variable {G : Type} [AddCommGroup G]

/-- **One changed entry changes the sum.** -/
theorem sum_set_eq_iff {s : List G} {i : ℕ} (hi : i < s.length) {x : G} :
    (s.set i x).sum = s.sum ↔ x = s[i] := by
  rw [List.sum_set', dif_pos hi, add_eq_left, neg_add_eq_zero, eq_comm]

/-- The entry that makes the sum vanish is the only one that does. -/
theorem sum_add_eq_zero_iff {s : List G} {c : G} : s.sum + c = 0 ↔ c = -s.sum := by
  rw [add_comm, add_eq_zero_iff_eq_neg]

/-! ### Bytes summed in a wider word -/

theorem toUInt8_sum (bytes : List UInt8) :
    (bytes.map UInt8.toUInt16).sum.toUInt8 = bytes.sum := by
  induction bytes with
  | nil => rfl
  | cons b bytes ih =>
    rw [List.map_cons, List.sum_cons, List.sum_cons, UInt16.toUInt8_add, ih,
      UInt8.toUInt8_toUInt16]

end Checksum
