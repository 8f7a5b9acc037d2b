import SuiCash.Des.Parity
import SuiCash.Prover.Satisfiable

/-!
# Sessions that differ in low bits

The MAC of AUTH2 takes the card identifier as a DES key, so the low bits of the
identifier are parity bits to it.  `Transcript.Consistent.replaceIdi` carries that
through the statement, and `lowBits_outside_mac` through the circuit: with the
identifier changed in low bits and AUTH2 encrypted again around the same MAC block, a
satisfying circuit still satisfies.
-/

namespace SuiCash.Prover

open Des Wiring

/-- Every byte of the mask is `0` or `1`. -/
def LowMask (m : Block) : Prop := ∀ (i : ℕ) (h : i < 8), m[i] &&& 0xFE = 0

theorem LowMask.sameHigh {m : Block} (hm : LowMask m) (b : Block) : Along SameHigh (xor8 b m) b := by
  intro i hi
  rw [xor8, Vector.getElem_zipWith]
  exact SameHigh.xor_low _ (hm i hi)

theorem macBlock_lowBits {m : Block} (hm : LowMask m) (p0 idi pmi : Block) :
    macBlock p0 (xor8 idi m) pmi = macBlock p0 idi pmi := by
  rw [macBlock, desEncrypt_congr _ (hm.sameHigh idi), ← macBlock]

/-- **A consistent transcript stays consistent** with another identifier of the same
MAC, in an AUTH2 that holds it between the header, the PMi and the MAC of the first. -/
theorem Transcript.Consistent.replaceIdi {t : Transcript} (h : t.Consistent) {idi : Block}
    {auth2 : Vector UInt8 32}
    (hmac : macBlock (plainBlock t.auth2 t.r2 0) idi (plainBlock t.auth2 t.r2 2)
      = macBlock (plainBlock t.auth2 t.r2 0) t.idi (plainBlock t.auth2 t.r2 2))
    (hplain : plainBlocks auth2 t.r2 = [plainBlock t.auth2 t.r2 0, idi, plainBlock t.auth2 t.r2 2,
      plainBlock t.auth2 t.r2 3]) :
    { t with idi := idi, auth2 := auth2 }.Consistent := by
  obtain ⟨hc1b, hc2a, hmac', htid, hidi⟩ := (consistent_iff_blocks t).mp h
  simp only [plainBlocks, List.cons.injEq, and_true] at hplain
  obtain ⟨h0, h1, h2, h3⟩ := hplain
  refine (consistent_iff_blocks _).mpr ⟨hc1b, hc2a, ?_, ?_, h1⟩
  · rw [h0, h1, h2, h3, hmac, ← hidi]
    exact hmac'
  · rw [h0]
    exact htid

theorem cbcEncrypt_replaceIdi (auth2 : Vector UInt8 32) (r2 idi : Block) :
    ∃ p, cbcDecrypt auth2.toList r2 = some p
      ∧ cbcEncryptZeroIv (p.extract 0 8 ++ idi.toList ++ p.extract 16 32) r2
        = some (encryptAuth2 (plainBlock auth2 r2 0) idi (plainBlock auth2 r2 2)
            (plainBlock auth2 r2 3) r2).toList := by
  refine ⟨_, cbcDecrypt_toList auth2 r2, ?_⟩
  have htail : ∀ p0 p1 p2 p3 : Block, (join [p0, p1, p2, p3]).extract 16 32 = join [p2, p3] := by
    intro p0 p1 p2 p3
    have hsplit : join [p0, p1, p2, p3] = join [p0, p1] ++ join [p2, p3] := by simp
    rw [hsplit, List.extract_eq_take_drop, List.drop_left' (by simp)]
    exact List.take_of_length_le (by simp)
  have hhead : (join (plainBlocks auth2 r2)).extract 0 8 = (plainBlock auth2 r2 0).toList :=
    extract_join (i := 0) (by simp [plainBlocks])
  rw [hhead, plainBlocks, htail, ← cbcEncryptZeroIv_encryptAuth2]
  simp

/-- **Low bits are outside the MAC.**  Keys that differ in parity bits give one
cipher, payloads that differ in low bits give one MAC, and a satisfying circuit
still satisfies after the low bits of its identifier change, with AUTH2 encrypted
again around the same MAC block and nothing else touched. -/
theorem lowBits_outside_mac {std : R1csStd} (law : std.Lawful) :
    (∀ k k' d : Block, Along SameHigh k k' →
      desEncrypt d k = desEncrypt d k' ∧ desDecrypt d k = desDecrypt d k')
    ∧ (∀ k1 k1' k2 k2' d : Block, Along SameHigh k1 k1' → Along SameHigh k2 k2' →
      tdesEncrypt d k1 k2 = tdesEncrypt d k1' k2' ∧ tdesDecrypt d k1 k2 = tdesDecrypt d k1' k2')
    ∧ (∀ (code : UInt8) (x y : List UInt8), x.length % 8 = 0 → List.Forall₂ SameHigh x y →
      ∃ mac, commandMac code x = some mac ∧ commandMac code y = some mac)
    ∧ ∀ (circuit : FelicaCircuit) (m : Block), checkSatisfiable std circuit = true → LowMask m →
      let idi := xor8 circuit.idi m
      ∃ p auth2, cbcDecrypt circuit.auth2.toList circuit.r2 = some p
        ∧ cbcEncryptZeroIv (p.extract 0 8 ++ idi.toList ++ p.extract 16 32) circuit.r2
          = some auth2.toList
        ∧ checkSatisfiable std { circuit with idi := idi, auth2 := auth2 } = true := by
  refine ⟨fun _ _ d h => ⟨desEncrypt_congr d h, desDecrypt_congr d h⟩,
    fun _ _ _ _ d h1 h2 => ⟨tdesEncrypt_congr d h1 h2, tdesDecrypt_congr d h1 h2⟩, ?_, ?_⟩
  · intro code x y hx h
    obtain ⟨bs, rfl⟩ := (exists_join_iff x).mpr hx
    refine ⟨_, commandMac_join code bs, ?_⟩
    rw [← commandMac_congr code h, commandMac_join]
  · intro circuit m hsat hm idi
    obtain ⟨p, hdec, henc⟩ := cbcEncrypt_replaceIdi circuit.auth2 circuit.r2 idi
    have hcons := ((checkSatisfiable_iff law circuit).mp hsat).replaceIdi
      (macBlock_lowBits hm _ _ _) (plainBlocks_encryptAuth2 _ _ _ _ _)
    exact ⟨p, _, hdec, henc, (checkSatisfiable_iff law _).mpr hcons⟩

/-- An honest session with every low bit of its identifier set, and a key and a
payload that differ from another in every low bit. -/
theorem lowBits_outside_mac_honest :
    let k : Block := Vector.replicate 8 0xE0
    let k' : Block := Vector.replicate 8 0xE1
    let ones : Block := Vector.replicate 8 1
    let circuit := FelicaCircuit.ofTranscript (.honest k k k k k k k) 0
    desEncrypt zeroBlock k = desEncrypt zeroBlock k'
      ∧ tdesEncrypt zeroBlock k k' = tdesEncrypt zeroBlock k' k
      ∧ (∃ mac, commandMac 0x13 (List.replicate 24 0) = some mac
        ∧ commandMac 0x13 (List.replicate 24 1) = some mac)
      ∧ ∃ auth2, checkSatisfiable arkStd { circuit with idi := xor8 k ones, auth2 := auth2 } = true := by
  intro k k' ones circuit
  have hk : Along SameHigh k k' := by
    intro i hi
    rw [Vector.getElem_replicate, Vector.getElem_replicate]
    decide
  have hk' : Along SameHigh k' k := fun i hi => (hk i hi).symm
  have hones : LowMask ones := by
    intro i hi
    rw [Vector.getElem_replicate]
    decide
  have hsat : checkSatisfiable arkStd circuit = true :=
    (checkSatisfiable_iff arkStd_lawful _).mpr (Transcript.honest_consistent _ _ _ _ _ _ _)
  obtain ⟨hdes, htdes, hmac, hcircuit⟩ := lowBits_outside_mac arkStd_lawful
  obtain ⟨_, auth2, -, -, hsat'⟩ := hcircuit circuit ones hsat hones
  exact ⟨(hdes _ _ _ hk).1, (htdes _ _ _ _ _ hk hk').1,
    hmac 0x13 _ _ (by decide) (by decide), auth2, hsat'⟩

end SuiCash.Prover
