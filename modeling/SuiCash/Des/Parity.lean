import SuiCash.Des.Chain

/-!
# Parity bits

A DES key has 56 bits that count.  The key schedule reads a key through `PC1`
alone, and no entry of `PC1` names the low bit of a byte (`PC1_skips_parity`), so
keys that agree above those bits have the same round keys (`roundKeys_congr`) and
the same block functions.

The command MAC takes each payload block as a DES key.  What is a parity bit of
the key is then the low bit of a payload byte, and the MAC does not see it
(`commandMac_congr`).
-/

namespace SuiCash.Des

open Wiring Bytes

/-! ### The high seven bits -/

/-- Two bytes agree except possibly in the lowest bit. -/
def SameHigh (a b : UInt8) : Prop := a &&& 0xFE = b &&& 0xFE

instance (a b : UInt8) : Decidable (SameHigh a b) := inferInstanceAs (Decidable (_ = _))

theorem bit_highMask : ∀ j < 8, bit 0xFE j = decide (0 < j) := by decide

theorem SameHigh.bit_eq {a b : UInt8} (h : SameHigh a b) {j : ℕ} (h0 : 0 < j) (hj : j < 8) :
    bit a j = bit b j := by
  have := congrArg (bit · j) h
  simpa [bit_and _ _ hj, bit_highMask j hj, h0] using this

theorem SameHigh.xor_low (a : UInt8) {m : UInt8} (hm : m &&& 0xFE = 0) : SameHigh (a ^^^ m) a := by
  apply eq_of_bit
  intro j hj
  have hmj := congrArg (bit · j) hm
  simp only [bit_and _ _ hj, bit_zero] at hmj
  simp only [bit_and _ _ hj, bit_xor _ _ hj]
  cases hbit : bit 0xFE j with
  | false => simp
  | true =>
    rw [hbit, Bool.and_true] at hmj
    rw [hmj, Bool.xor_false]

/-! ### The key schedule -/

theorem PC1_skips_parity : ∀ k : Fin 56, PC1[k].val % 8 ≠ 7 := by decide +kernel

/-- **The parity bits do not reach the round keys.** -/
theorem roundKeys_congr {k k' : Block} (h : Along SameHigh k k') : roundKeys k = roundKeys k' := by
  have hpc1 : permute (bytesToDesBits k) PC1 = permute (bytesToDesBits k') PC1 := by
    ext i hi
    have hskip : PC1[i].val % 8 ≠ 7 := PC1_skips_parity ⟨i, hi⟩
    simp only [permute, getElem_gather, Fin.getElem_fin, getElem_bytesToDesBits _ (Fin.isLt _)]
    exact (h _ _).bit_eq (by omega) (by omega)
  rw [roundKeys, roundKeys, hpc1]

variable {k k' k1 k1' k2 k2' : Block} (d : Block)

theorem desEncrypt_congr (h : Along SameHigh k k') : desEncrypt d k = desEncrypt d k' := by
  rw [desEncrypt, desEncrypt, desBlock, desBlock, roundKeys_congr h]

theorem desDecrypt_congr (h : Along SameHigh k k') : desDecrypt d k = desDecrypt d k' := by
  rw [desDecrypt, desDecrypt, desBlock, desBlock, roundKeys_congr h]

theorem tdesEncrypt_congr (h1 : Along SameHigh k1 k1') (h2 : Along SameHigh k2 k2') :
    tdesEncrypt d k1 k2 = tdesEncrypt d k1' k2' := by
  simp only [tdesEncrypt, desEncrypt_congr _ h1, desDecrypt_congr _ h2]

theorem tdesDecrypt_congr (h1 : Along SameHigh k1 k1') (h2 : Along SameHigh k2 k2') :
    tdesDecrypt d k1 k2 = tdesDecrypt d k1' k2' := by
  simp only [tdesDecrypt, desDecrypt_congr _ h1, desEncrypt_congr _ h2]

/-! ### The command MAC -/

/-- One chain of encryptions for two payloads, whatever it starts from. -/
theorem foldl_blocks_congr {x y : List UInt8} (h : List.Forall₂ SameHigh x y) (mac : Block) :
    (blocks x).map (fun bs => bs.foldl desEncrypt mac)
      = (blocks y).map fun bs => bs.foldl desEncrypt mac := by
  have hnone : ∀ {z : List UInt8}, blocks z = none ↔ z.length % 8 ≠ 0 := by
    intro z
    rw [← not_iff_not, not_ne_iff, ← exists_join_iff, Option.eq_none_iff_forall_ne_some]
    simp [blocks_eq_some_iff]
  induction x using blocks.induct generalizing y mac with
  | case1 => cases h; rfl
  | case2 a b c d e f g i rest ih =>
    obtain _ | ⟨ha, _ | ⟨hb, _ | ⟨hc, _ | ⟨hd, _ | ⟨he, _ | ⟨hf, _ | ⟨hg, _ | ⟨hi, hrest⟩⟩⟩⟩⟩⟩⟩⟩ := h
    rename_i a' b' c' d' e' f' g' i' rest'
    have hkey : Along SameHigh #v[a, b, c, d, e, f, g, i] #v[a', b', c', d', e', f', g', i'] := by
      intro j hj
      have : j = 0 ∨ j = 1 ∨ j = 2 ∨ j = 3 ∨ j = 4 ∨ j = 5 ∨ j = 6 ∨ j = 7 := by omega
      rcases this with rfl | rfl | rfl | rfl | rfl | rfl | rfl | rfl <;> assumption
    have := ih hrest (desEncrypt mac #v[a, b, c, d, e, f, g, i])
    rw [blocks, blocks, Option.map_map, Option.map_map]
    simp only [Function.comp_def, List.foldl_cons]
    rw [this, desEncrypt_congr mac hkey]
  | case3 t h1 h2 =>
    have ht : blocks t = none := by rw [blocks] <;> assumption
    have hy : blocks y = none := by
      rw [hnone, ← h.length_eq]
      exact hnone.mp ht
    rw [ht, hy]

/-- **The low bit of a payload byte is outside the MAC.** -/
theorem commandMac_congr (code : UInt8) {x y : List UInt8} (h : List.Forall₂ SameHigh x y) :
    commandMac code x = commandMac code y := by
  rw [commandMac, commandMac, h.length_eq]
  exact foldl_blocks_congr h _

end SuiCash.Des
