import SuiCash.Prover.Field
import SuiCash.Des.Chain
import SuiCash.Lib.Fallible

/-!
# The public-input packing

`prover/src/abi.rs`, the one mapping between wire bytes and field elements.

Every limb is eight bytes, so a limb as a number is far below the field order.
`PublicInputs.toFr_eq` says that encoding therefore never fails, and
`PublicInputs.fromFr_eq_ok_iff` that decoding is its inverse: a vector of field
elements decodes to `p` exactly when it is the encoding of `p`.
-/

namespace SuiCash.Prover

open Bytes Des Fallible

structure NonCanonical where
  deriving DecidableEq, Repr

def SUPPORTED_ALG : String := "groth16-bn254"

def PUBLIC_INPUT_COUNT : ℕ := 3

/-! ### One limb -/

/-- Canonical little-endian encoding of `f` in exactly eight bytes. -/
def frToLe (f : Fr) : Except NonCanonical Block :=
  let le := frToBytes f
  if (le.drop 8).any (· ≠ 0) then throw ⟨⟩
  else pure (Vector.ofFn fun i => getElem le i.val (by simp [le]; omega))

/-- Canonical field element for `bytes`, rejecting non-canonical encodings. -/
def canonicalFr (bytes : List UInt8) : Except NonCanonical Fr :=
  if bytes.length > 32 then throw ⟨⟩
  else
    let f := frFromBytesModOrder bytes
    let round := frToBytes f
    if round.take bytes.length ≠ bytes then throw ⟨⟩ else pure f

def limb (b : Block) : ℕ := leNat b.toList

theorem limb_lt (b : Block) : limb b < 2 ^ 64 := by
  have := leNat_lt b.toList
  simpa [limb] using this

theorem limb_lt_r (b : Block) : limb b < r :=
  lt_r_of_lt (lt_trans (limb_lt b) (by decide))

theorem exists_limb {n : ℕ} (h : n < 2 ^ 64) : ∃ b : Block, limb b = n :=
  ⟨⟨(leBytes 8 n).toArray, by simp⟩, by simpa [limb] using leNat_leBytes (n := 8) h⟩

theorem frToLe_eq_ok_iff {f : Fr} {b : Block} : frToLe f = .ok b ↔ f.val = limb b := by
  have hlen : 8 ≤ (frToBytes f).length := by simp
  have hhigh : leNat ((frToBytes f).drop 8) = f.val / 256 ^ 8 := by
    rw [leNat_drop _ hlen, leNat_frToBytes]
  have hlow : leNat ((frToBytes f).take 8) = f.val % 256 ^ 8 := by
    rw [leNat_take _ hlen, leNat_frToBytes]
  have hany : ((frToBytes f).drop 8).any (· ≠ 0) = true ↔ ¬ f.val / 256 ^ 8 = 0 := by
    rw [← hhigh, leNat_eq_zero_iff]
    simp
  have hout : (Vector.ofFn fun i : Fin 8 =>
      getElem (frToBytes f) i.val (by simp; omega)).toList = (frToBytes f).take 8 := by
    apply List.ext_getElem (by simp)
    intro i h1 h2
    simp
  have hb := limb_lt b
  unfold frToLe
  by_cases hz : f.val / 256 ^ 8 = 0
  · rw [if_neg (by rw [hany]; exact not_not.mpr hz)]
    constructor
    · intro h
      rw [limb, ← Except.ok.inj h, hout, hlow]
      omega
    · intro h
      refine congrArg Except.ok (Vector.toList_inj.mp ?_)
      rw [hout]
      refine eq_of_leNat_eq (by simp) ?_
      rw [hlow, ← limb, ← h]
      omega
  · rw [if_pos (hany.mpr hz)]
    constructor
    · intro h; cases h
    · intro h; omega

/-- **What is canonical**: at most 32 bytes, and a number below the order. -/
theorem canonicalFr_eq_ok_iff {bytes : List UInt8} {f : Fr} :
    canonicalFr bytes = .ok f ↔ bytes.length ≤ 32 ∧ leNat bytes < r ∧ f.val = leNat bytes := by
  by_cases hlen : bytes.length > 32
  · rw [canonicalFr, if_pos hlen]
    constructor
    · intro h; cases h
    · rintro ⟨h, -⟩; omega
  have hround : leNat ((frToBytes (frFromBytesModOrder bytes)).take bytes.length)
      = leNat bytes % r % 256 ^ bytes.length := by
    rw [leNat_take _ (by rw [frToBytes_length]; omega), leNat_frToBytes, frFromBytesModOrder,
      ZMod.val_natCast]
  have htake : (frToBytes (frFromBytesModOrder bytes)).take bytes.length = bytes ↔ leNat bytes < r := by
    constructor
    · intro h
      -- the reduced number is no larger than its low bytes, and below the order
      rw [h] at hround
      calc leNat bytes = leNat bytes % r % 256 ^ bytes.length := hround
        _ ≤ leNat bytes % r := Nat.mod_le _ _
        _ < r := Nat.mod_lt _ r_prime.pos
    · intro h
      refine eq_of_leNat_eq ?_ ?_
      · rw [List.length_take, frToBytes_length]
        omega
      · rw [hround, Nat.mod_eq_of_lt h, Nat.mod_eq_of_lt (leNat_lt bytes)]
  rw [canonicalFr, if_neg hlen]
  show (if (frToBytes (frFromBytesModOrder bytes)).take bytes.length ≠ bytes then _ else _) = _ ↔ _
  by_cases hlt : leNat bytes < r
  · rw [if_neg (not_not.mpr (htake.mpr hlt))]
    constructor
    · intro h
      rw [← Except.ok.inj h]
      exact ⟨by omega, hlt, val_natCast hlt⟩
    · rintro ⟨-, -, hval⟩
      refine congrArg Except.ok ?_
      rw [frFromBytesModOrder, ← hval, ZMod.natCast_zmod_val]
  · rw [if_pos fun h => hlt (htake.mp h)]
    constructor
    · intro h; cases h
    · rintro ⟨-, h, -⟩; exact absurd h hlt

theorem canonicalFr_limb (b : Block) : canonicalFr b.toList = .ok (limb b : Fr) :=
  canonicalFr_eq_ok_iff.mpr
    ⟨by rw [Vector.length_toList]; decide, limb_lt_r b, val_natCast (limb_lt_r b)⟩

/-! ### The public inputs -/

structure PublicInputs where
  idi : Block
  r1 : Block
  attestedAt : UInt64
  deriving DecidableEq

namespace PublicInputs

/-- Encode to the public-input vector. -/
def toFr (p : PublicInputs) : Except NonCanonical (Vector Fr 3) := do
  let idi ← canonicalFr p.idi.toList
  let r1 ← canonicalFr p.r1.toList
  pure #v[idi, r1, (p.attestedAt.toNat : Fr)]

/-- Decode a public-input vector back to wire bytes. -/
def fromFr (pis : List Fr) : Except NonCanonical PublicInputs :=
  match pis with
  | [idi, r1, attestedAt] => do
    let idi ← frToLe idi
    let r1 ← frToLe r1
    let attestedAt ← frToLe attestedAt
    pure ⟨idi, r1, UInt64.ofNat (limb attestedAt)⟩
  | _ => throw ⟨⟩

@[simp] theorem toFr_eq (p : PublicInputs) :
    p.toFr = .ok #v[(limb p.idi : Fr), (limb p.r1 : Fr), (p.attestedAt.toNat : Fr)] := by
  rw [toFr, canonicalFr_limb, canonicalFr_limb]
  rfl

/-- **Decoding is the inverse of encoding.** -/
theorem fromFr_eq_ok_iff {pis : List Fr} {p : PublicInputs} :
    fromFr pis = .ok p ↔ p.toFr.map Vector.toList = .ok pis := by
  have hcast : ∀ (f : Fr) (n : ℕ), n < r → (f.val = n ↔ (n : Fr) = f) := by
    intro f n hn
    constructor
    · rintro rfl; exact ZMod.natCast_zmod_val f
    · rintro rfl; exact val_natCast hn
  have htoFr : p.toFr.map Vector.toList
      = .ok [(limb p.idi : Fr), (limb p.r1 : Fr), (p.attestedAt.toNat : Fr)] := by
    rw [toFr_eq]
    rfl
  rw [htoFr, Except.ok.injEq]
  constructor
  · intro h
    unfold fromFr at h
    split at h
    · rename_i f0 f1 f2
      obtain ⟨idi, h0, h⟩ := bind_eq_ok.mp h
      obtain ⟨r1, h1, h⟩ := bind_eq_ok.mp h
      obtain ⟨time, h2, h⟩ := bind_eq_ok.mp h
      rw [frToLe_eq_ok_iff, hcast _ _ (limb_lt_r _)] at h0 h1 h2
      have hp := Except.ok.inj h
      have htime : (UInt64.ofNat (limb time)).toNat = limb time :=
        UInt64.toNat_ofNat_of_lt' (limb_lt time)
      simp only [← hp, ← h0, ← h1, ← h2, htime]
    · cases h
  · rintro rfl
    obtain ⟨time, htime'⟩ := exists_limb p.attestedAt.toNat_lt
    have ok : ∀ b : Block, frToLe (limb b : Fr) = .ok b :=
      fun b => frToLe_eq_ok_iff.mpr (val_natCast (limb_lt_r b))
    refine bind_eq_ok.mpr ⟨p.idi, ok _, bind_eq_ok.mpr ⟨p.r1, ok _, ?_⟩⟩
    refine bind_eq_ok.mpr ⟨time, htime' ▸ ok time, ?_⟩
    rw [htime', UInt64.ofNat_toNat]
    rfl

theorem fromFr_eq_ok_iff_eq {pis : List Fr} {p : PublicInputs} :
    fromFr pis = .ok p ↔ pis = [(limb p.idi : Fr), (limb p.r1 : Fr), (p.attestedAt.toNat : Fr)] := by
  rw [fromFr_eq_ok_iff, toFr_eq]
  show Except.ok [(limb p.idi : Fr), (limb p.r1 : Fr), (p.attestedAt.toNat : Fr)] = Except.ok pis ↔ _
  rw [Except.ok.injEq]
  exact eq_comm

theorem exists_fromFr_iff {pis : List Fr} :
    (∃ p, fromFr pis = .ok p) ↔ pis.length = 3 ∧ ∀ f ∈ pis, f.val < 2 ^ 64 := by
  simp only [fromFr_eq_ok_iff_eq]
  constructor
  · rintro ⟨p, rfl⟩
    refine ⟨rfl, fun f hf => ?_⟩
    have htime : p.attestedAt.toNat < r := lt_r_of_lt (lt_trans p.attestedAt.toNat_lt (by decide))
    simp only [List.mem_cons, List.not_mem_nil, or_false] at hf
    rcases hf with rfl | rfl | rfl
    · rw [val_natCast (limb_lt_r p.idi)]
      exact limb_lt p.idi
    · rw [val_natCast (limb_lt_r p.r1)]
      exact limb_lt p.r1
    · rw [val_natCast htime]
      exact p.attestedAt.toNat_lt
  · rintro ⟨hlen, hlt⟩
    obtain ⟨f0, f1, f2, rfl⟩ := List.length_eq_three.mp hlen
    simp only [List.forall_mem_cons] at hlt
    obtain ⟨idi, hidi⟩ := exists_limb hlt.1
    obtain ⟨r1, hr1⟩ := exists_limb hlt.2.1
    refine ⟨⟨idi, r1, UInt64.ofNat f2.val⟩, ?_⟩
    rw [hidi, hr1, UInt64.toNat_ofNat_of_lt' hlt.2.2.1, ZMod.natCast_zmod_val,
      ZMod.natCast_zmod_val, ZMod.natCast_zmod_val]

theorem fromFr_eq_error_iff {pis : List Fr} :
    (∃ e, fromFr pis = .error e) ↔ pis.length ≠ 3 ∨ ∃ f ∈ pis, 2 ^ 64 ≤ f.val := by
  have hnot : (∃ e, fromFr pis = .error e) ↔ ¬ ∃ p, fromFr pis = .ok p := by
    cases fromFr pis with
    | error e => exact ⟨fun _ ⟨_, hp⟩ => (nomatch hp), fun _ => ⟨e, rfl⟩⟩
    | ok p => exact ⟨fun ⟨_, he⟩ => (nomatch he), fun h => absurd ⟨p, rfl⟩ h⟩
  rw [hnot, exists_fromFr_iff, not_and_or]
  push Not
  rfl

/-- **The packing is a bijection** between public inputs and the vectors of three
limbs, and a byte string is canonical exactly when it is at most 32 bytes with a
number below the order. -/
theorem toFr_bijection :
    (∀ p : PublicInputs, ∃ v : Vector Fr 3, p.toFr = .ok v ∧ v.toList.length = 3
      ∧ fromFr v.toList = .ok p)
    ∧ (∀ (pis : List Fr) (p : PublicInputs), fromFr pis = .ok p →
      ∃ v : Vector Fr 3, p.toFr = .ok v ∧ v.toList = pis)
    ∧ (∀ pis : List Fr, (∃ e, fromFr pis = .error e) ↔
      pis.length ≠ PUBLIC_INPUT_COUNT ∨ ∃ f ∈ pis, 2 ^ 64 ≤ f.val)
    ∧ (∀ (bytes : List UInt8) (f : Fr), canonicalFr bytes = .ok f ↔
      bytes.length ≤ 32 ∧ leNat bytes < r ∧ f.val = leNat bytes) := by
  refine ⟨?_, ?_, fun pis => fromFr_eq_error_iff, fun bytes f => canonicalFr_eq_ok_iff⟩
  · intro p
    refine ⟨_, toFr_eq p, Vector.length_toList, fromFr_eq_ok_iff.mpr ?_⟩
    rw [toFr_eq]
    rfl
  · intro pis p h
    rw [fromFr_eq_ok_iff, toFr_eq] at h
    exact ⟨_, toFr_eq p, Except.ok.inj h⟩

end PublicInputs

end SuiCash.Prover
