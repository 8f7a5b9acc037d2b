import SuiCash.Lib.RustStr
import SuiCash.Lib.Slices

/-!
# AUTH2 out of a debug text

`extract_ciphertext` of `facepay-host/src/main.rs`.  The card library keeps the payload of
`Authentication2Response` private, and the host takes it out of what `{:?}` prints: the
first bracketed list, its tokens parsed as bytes, those that do not parse left out.

`extractCiphertext_debug`: on what is printed nothing is left out, whatever the payload.
-/

namespace SuiCash.Facepay

open Fallible Rust Slices

/-- The answer of the card library, as far as it is printed. -/
structure Authentication2Response where
  encryptedPayload : List UInt8

def Authentication2Response.debug (resp : Authentication2Response) : Str :=
  debugStruct "Authentication2Response" "encrypted_payload"
    (debugList ((resp.encryptedPayload.map UInt8.toNat).map debugNat))

/-- Extract the ciphertext of `Authentication2Response` from its debug output. -/
def extractCiphertext (dbg : Str) : Except (Stop Empty) (Option (List UInt8)) :=
  match find '[' dbg with
  | none => .ok none
  | some start => do
    let rest ← slice dbg start dbg.length
    match find ']' rest with
    | none => .ok none
    | some offset => do
      let stop := offset + start
      let inner ← slice dbg (start + 1) stop
      let bytes := (split ',' inner).filterMap fun t =>
        (parseUnsigned 256 (trim t)).map UInt8.ofNat
      .ok (if bytes.length = 32 then some bytes else none)

/-- No text makes the slicing panic: the closing bracket is behind the opening one. -/
theorem extractCiphertext_returns (dbg : Str) : ∃ found, extractCiphertext dbg = .ok found := by
  rw [extractCiphertext]
  cases hstart : find '[' dbg with
  | none => exact ⟨none, rfl⟩
  | some start =>
    obtain ⟨hlt, hopen⟩ := getElem_of_find hstart
    have hrest := slice_of_eq_length (ε := Empty) (Nat.le_of_lt hlt) rfl
    simp only [hrest, ok_bind]
    cases hclose : find ']' (dbg.drop start) with
    | none => exact ⟨none, rfl⟩
    | some offset =>
      obtain ⟨hlt', hclose⟩ := getElem_of_find hclose
      rw [List.length_drop] at hlt'
      rw [List.getElem_drop] at hclose
      have hpos : 0 < offset := by
        by_contra hzero
        have hsame : start + offset = start := by omega
        simp only [hsame, hopen] at hclose
        cases hclose
      simp only [slice_of_le (ε := Empty) (show start + 1 ≤ offset + start by omega)
        (show offset + start ≤ dbg.length by omega), ok_bind]
      exact ⟨_, rfl⟩

theorem extractCiphertext_brackets (before inner after : Str) (hopen : '[' ∉ before)
    (hclose : ']' ∉ inner) :
    extractCiphertext (before ++ '[' :: (inner ++ ']' :: after)) =
      let bytes := (split ',' inner).filterMap fun t =>
        (parseUnsigned 256 (trim t)).map UInt8.ofNat
      .ok (if bytes.length = 32 then some bytes else none) := by
  have hstart := find_append hopen (inner ++ ']' :: after)
  have hrest := slice_append_end (ε := Empty) (a := before) (b := '[' :: (inner ++ ']' :: after))
    rfl List.length_append.symm
  have hstop : find ']' ('[' :: (inner ++ ']' :: after)) = some (inner.length + 1) :=
    find_append (s := '[' :: inner) (List.not_mem_cons_of_ne_of_not_mem (by decide) hclose) after
  have hinner := slice_append (ε := Empty) (a := before ++ ['[']) (b := inner) (c := ']' :: after)
    (i := before.length + 1) (j := inner.length + 1 + before.length)
    (by rw [List.length_append, List.length_singleton]) (by omega)
  rw [List.append_assoc, List.singleton_append] at hinner
  simp only [extractCiphertext, hstart, hrest, ok_bind, hstop, hinner]

/-- **The ciphertext is what was printed**, where it has the 32 bytes that are asked for. -/
theorem extractCiphertext_debug (v : List UInt8) :
    extractCiphertext (Authentication2Response.debug ⟨v⟩)
      = .ok (if v.length = 32 then some v else none) := by
  have hbytes : ((split ',' ([',', ' '].intercalate ((v.map UInt8.toNat).map debugNat))).filterMap
      fun t => (parseUnsigned 256 (trim t)).map UInt8.ofNat) = v := by
    have hlt : ∀ n ∈ v.map UInt8.toNat, n < 256 := List.forall_mem_map.mpr fun b _ => b.toNat_lt
    rw [← List.map_filterMap, filterMap_split hlt, List.map_map]
    exact (List.map_congr_left fun b _ => UInt8.ofNat_toNat).trans v.map_id
  have h := extractCiphertext_brackets "Authentication2Response \x7b encrypted_payload: ".toList
    ([',', ' '].intercalate ((v.map UInt8.toNat).map debugNat)) " \x7d".toList (by decide)
    (not_mem_intercalate (c := ']') (by decide) (by decide) (v.map UInt8.toNat))
  simp only [hbytes] at h
  rw [← h]
  simp [Authentication2Response.debug, debugStruct, debugList]

end SuiCash.Facepay
