import SuiCash.Des.Chain

/-!
# The statement about a session

What the circuit of `prover/src/circuit.rs` is meant to prove of a session, in
terms of the native functions of `prover/src/des.rs`: the key schedule D1–D3,
the two challenge responses, and the contents of AUTH2.

`Transcript.Consistent` states it on byte strings, the way the native
pre-checks read it.  AUTH2 is four blocks, and `consistent_iff_blocks` states the
same relation on the four blocks of its decryption, the way the circuit reads
it.  For given keys and ciphertexts at most one `(idi, r1, r2)` is consistent
(`Consistent.unique`): decryption determines each of them.  And the relation is
not empty: a card that knows the keys makes a consistent session out of any
challenge, session key and identifier (`Transcript.honest_consistent`).
-/

namespace SuiCash.Prover

open Des Wiring

/-- Keys, card responses and the claim made about them. -/
structure Transcript where
  gsk : Block
  usk : Block
  idm : Block
  c1b : Block
  c2a : Block
  r2 : Block
  auth2 : Vector UInt8 32
  idi : Block
  r1 : Block
  deriving DecidableEq

namespace Transcript

variable (t : Transcript)

def l : Block := xor8 t.gsk t.idm

/-- D2: `alpha = DES_l(usk)`. -/
def alpha : Block := desEncrypt t.usk t.l

/-- D3: `beta = DES_alpha(l)`. -/
def beta : Block := desEncrypt t.l t.alpha

/-- Both challenge responses are right, and AUTH2 decrypts to a plaintext with a
valid MAC that carries the tail of `r1` and the card identifier. -/
structure Consistent : Prop where
  c1b_eq : tdesEncrypt t.r1 t.l t.beta = t.c1b
  c2a_eq : tdesEncrypt t.r2 t.l t.beta = t.c2a
  auth2_eq : ∃ p, cbcDecrypt t.auth2.toList t.r2 = some p
    ∧ (commandMac 0x13 (p.extract 0 24)).map Vector.toList = some (p.extract 24 32)
    ∧ p.extract 2 8 = t.r1.toList.extract 2 8
    ∧ p.extract 8 16 = t.idi.toList

end Transcript

/-! ### The four blocks of AUTH2 -/

def cipherBlock (auth2 : Vector UInt8 32) (i : Fin 4) : Block := chunk (n := 4) (m := 8) auth2 i

/-- The block a plaintext block is mixed with: the zero IV, then the ciphertext
block before. -/
def prevBlock (auth2 : Vector UInt8 32) (i : Fin 4) : Block :=
  if i.val = 0 then zeroBlock else cipherBlock auth2 (i - 1)

def plainBlock (auth2 : Vector UInt8 32) (r2 : Block) (i : Fin 4) : Block :=
  xor8 (desDecrypt (cipherBlock auth2 i) r2) (prevBlock auth2 i)

def plainBlocks (auth2 : Vector UInt8 32) (r2 : Block) : List Block :=
  [plainBlock auth2 r2 0, plainBlock auth2 r2 1, plainBlock auth2 r2 2, plainBlock auth2 r2 3]

theorem cbcDecrypt_toList (auth2 : Vector UInt8 32) (r2 : Block) :
    cbcDecrypt auth2.toList r2 = some (join (plainBlocks auth2 r2)) := by
  rw [← join_blocks4, cbcDecrypt_join]
  rfl

def macBlock (p0 p1 p2 : Block) : Block :=
  desEncrypt (desEncrypt (desEncrypt (macHeader 34 0x13) p0) p1) p2

theorem commandMac_three (p0 p1 p2 : Block) :
    commandMac 0x13 (join [p0, p1, p2]) = some (macBlock p0 p1 p2) := by
  have hlen : UInt8.ofNat (2 + 8 * [p0, p1, p2].length + 8) = 34 := by simp
  rw [commandMac_join, hlen, List.foldl_cons, List.foldl_cons, List.foldl_cons, List.foldl_nil,
    macBlock]

section Slices

variable (p0 p1 p2 p3 : Block)

theorem extract_payload : (join [p0, p1, p2, p3]).extract 0 24 = join [p0, p1, p2] := by
  have hsplit : join [p0, p1, p2, p3] = join [p0, p1, p2] ++ p3.toList := by simp [join]
  rw [hsplit, List.extract_eq_take_drop, List.drop_zero, List.take_left' (by simp)]

theorem extract_mac : (join [p0, p1, p2, p3]).extract 24 32 = p3.toList :=
  extract_join (i := 3) (by simp)

theorem extract_idi (rest : List Block) : (join (p0 :: p1 :: rest)).extract 8 16 = p1.toList :=
  extract_join (i := 1) (by simp)

theorem extract_pmi (rest : List Block) : (join (p0 :: p1 :: p2 :: rest)).extract 16 24 = p2.toList :=
  extract_join (i := 2) (by simp)

theorem extract_tid (rest : List Block) :
    (join (p0 :: rest)).extract 2 8 = p0.toList.extract 2 8 := by
  rw [join_cons, List.extract_eq_take_drop, List.extract_eq_take_drop,
    List.drop_append_of_le_length (by simp), List.take_append_of_le_length (by simp)]

end Slices

/-- Two blocks agree on the six bytes of the transaction identifier. -/
def SameTid (a b : Block) : Prop := ∀ (j : ℕ) (h : j < 8), 2 ≤ j → a[j] = b[j]

theorem extract_tid_eq_iff {a b : Block} :
    a.toList.extract 2 8 = b.toList.extract 2 8 ↔ SameTid a b := by
  constructor
  · intro h j hj h2
    have := congrArg (fun l => l[j - 2]?) h
    simpa [List.extract_eq_take_drop, List.getElem?_take, List.getElem?_drop, hj,
      show j - 2 < 6 by omega, show 2 + (j - 2) = j by omega] using this
  · intro h
    apply List.ext_getElem (by simp [List.extract_eq_take_drop])
    intro i h1 h2
    have hi : i < 6 := by
      simp [List.extract_eq_take_drop] at h1
      omega
    simpa [List.extract_eq_take_drop] using h (2 + i) (by omega) (by omega)

/-- **The statement, block by block.** -/
theorem Transcript.consistent_iff_blocks (t : Transcript) :
    t.Consistent ↔ tdesEncrypt t.r1 t.l t.beta = t.c1b ∧ tdesEncrypt t.r2 t.l t.beta = t.c2a
      ∧ macBlock (plainBlock t.auth2 t.r2 0) (plainBlock t.auth2 t.r2 1)
          (plainBlock t.auth2 t.r2 2) = plainBlock t.auth2 t.r2 3
      ∧ SameTid (plainBlock t.auth2 t.r2 0) t.r1 ∧ plainBlock t.auth2 t.r2 1 = t.idi := by
  have hauth2 : (∃ p, cbcDecrypt t.auth2.toList t.r2 = some p
      ∧ (commandMac 0x13 (p.extract 0 24)).map Vector.toList = some (p.extract 24 32)
      ∧ p.extract 2 8 = t.r1.toList.extract 2 8 ∧ p.extract 8 16 = t.idi.toList)
      ↔ macBlock (plainBlock t.auth2 t.r2 0) (plainBlock t.auth2 t.r2 1)
          (plainBlock t.auth2 t.r2 2) = plainBlock t.auth2 t.r2 3
        ∧ SameTid (plainBlock t.auth2 t.r2 0) t.r1 ∧ plainBlock t.auth2 t.r2 1 = t.idi := by
    rw [cbcDecrypt_toList]
    simp only [Option.some.injEq, exists_eq_left', plainBlocks, extract_payload, extract_mac,
      extract_idi, extract_tid, commandMac_three, Option.map_some, Vector.toList_inj,
      extract_tid_eq_iff]
  constructor
  · rintro ⟨h1, h2, h3⟩
    exact ⟨h1, h2, hauth2.mp h3⟩
  · rintro ⟨h1, h2, h3⟩
    exact ⟨h1, h2, hauth2.mpr h3⟩

/-- **The claim is determined** by the keys and the ciphertexts. -/
theorem Transcript.Consistent.unique {t : Transcript} {idi r1 r2 : Block} (h : t.Consistent)
    (h' : { t with idi := idi, r1 := r1, r2 := r2 }.Consistent) :
    idi = t.idi ∧ r1 = t.r1 ∧ r2 = t.r2 := by
  have hr1 : r1 = t.r1 := by
    rw [tdesEncrypt_eq_iff.mp h.c1b_eq]
    exact tdesEncrypt_eq_iff.mp h'.c1b_eq
  have hr2 : r2 = t.r2 := by
    rw [tdesEncrypt_eq_iff.mp h.c2a_eq]
    exact tdesEncrypt_eq_iff.mp h'.c2a_eq
  refine ⟨?_, hr1, hr2⟩
  have hi : plainBlock t.auth2 t.r2 1 = t.idi := ((consistent_iff_blocks _).mp h).2.2.2.2
  have hi' : plainBlock t.auth2 r2 1 = idi := ((consistent_iff_blocks _).mp h').2.2.2.2
  rw [← hi, ← hi', hr2]

/-! ### An honest session -/

/-- AUTH2 over four plaintext blocks: their CBC encryption under the session key. -/
def encryptAuth2 (p0 p1 p2 p3 r2 : Block) : Vector UInt8 32 :=
  ⟨(join (Cipher.cbcEnc xor8 (fun x => desEncrypt x r2) zeroBlock [p0, p1, p2, p3])).toArray, by
    simp⟩

theorem toList_mk_toArray {α : Type} {n : ℕ} (as : List α) (h : as.toArray.size = n) :
    (Vector.mk as.toArray h).toList = as := rfl

theorem cbcEncryptZeroIv_encryptAuth2 (p0 p1 p2 p3 r2 : Block) :
    cbcEncryptZeroIv (join [p0, p1, p2, p3]) r2 = some (encryptAuth2 p0 p1 p2 p3 r2).toList := by
  rw [cbcEncryptZeroIv_join, encryptAuth2, toList_mk_toArray]

theorem cbcDecrypt_encryptAuth2 (p0 p1 p2 p3 r2 : Block) :
    cbcDecrypt (encryptAuth2 p0 p1 p2 p3 r2).toList r2 = some (join [p0, p1, p2, p3]) := by
  have hlen : (join [p0, p1, p2, p3]).length % 8 = 0 := by simp
  obtain ⟨c, hc, -, hdecrypt⟩ := cbcDecrypt_encrypted hlen r2
  rw [cbcEncryptZeroIv_encryptAuth2, Option.some.injEq] at hc
  rw [hc, hdecrypt]

theorem plainBlocks_encryptAuth2 (p0 p1 p2 p3 r2 : Block) :
    plainBlocks (encryptAuth2 p0 p1 p2 p3 r2) r2 = [p0, p1, p2, p3] := by
  apply join_inj
  rw [← Option.some.injEq, ← cbcDecrypt_toList, cbcDecrypt_encryptAuth2]

theorem encryptAuth2_plainBlock (auth2 : Vector UInt8 32) (r2 : Block) :
    encryptAuth2 (plainBlock auth2 r2 0) (plainBlock auth2 r2 1) (plainBlock auth2 r2 2)
      (plainBlock auth2 r2 3) r2 = auth2 := by
  obtain ⟨-, hencrypt⟩ := cbcEncrypt_decrypted (cbcDecrypt_toList auth2 r2)
  rw [plainBlocks, cbcEncryptZeroIv_encryptAuth2, Option.some.injEq] at hencrypt
  exact Vector.toList_inj.mp hencrypt

theorem plainBlocks_eq_iff {auth2 : Vector UInt8 32} {p0 p1 p2 p3 r2 : Block} :
    plainBlocks auth2 r2 = [p0, p1, p2, p3] ↔ auth2 = encryptAuth2 p0 p1 p2 p3 r2 := by
  constructor
  · intro h
    simp only [plainBlocks, List.cons.injEq, and_true] at h
    obtain ⟨rfl, rfl, rfl, rfl⟩ := h
    exact (encryptAuth2_plainBlock auth2 r2).symm
  · rintro rfl
    exact plainBlocks_encryptAuth2 p0 p1 p2 p3 r2

/-- **The statement, from the side of encryption**: AUTH2 is the encryption of a
header that names the challenge, the card identifier, any PMi, and their MAC. -/
theorem Transcript.consistent_iff_encryptAuth2 (t : Transcript) :
    t.Consistent ↔ tdesEncrypt t.r1 t.l t.beta = t.c1b ∧ tdesEncrypt t.r2 t.l t.beta = t.c2a
      ∧ ∃ p0 pmi, SameTid p0 t.r1
        ∧ t.auth2 = encryptAuth2 p0 t.idi pmi (macBlock p0 t.idi pmi) t.r2 := by
  rw [consistent_iff_blocks, and_congr_right_iff]
  intro _
  rw [and_congr_right_iff]
  intro _
  simp only [← plainBlocks_eq_iff, plainBlocks, List.cons.injEq, and_true]
  constructor
  · rintro ⟨hmac, htid, hidi⟩
    exact ⟨_, _, htid, rfl, hidi, rfl, by rw [← hidi, hmac]⟩
  · rintro ⟨p0, pmi, htid, rfl, hidi, rfl, hmac⟩
    exact ⟨by rw [hidi, hmac], htid, hidi⟩

/-- The first plaintext block of a fresh session: transaction number zero, then
the tail of the challenge. -/
def freshHeader (r1 : Block) : Block := Vector.ofFn fun i => if i.val < 2 then 0 else r1.get i

theorem sameTid_freshHeader (r1 : Block) : SameTid (freshHeader r1) r1 := by
  intro j hj h2
  rw [freshHeader, Vector.getElem_ofFn, if_neg (Nat.not_lt.mpr h2)]
  rfl

/-- What a card with these keys answers to the challenge `r1` when it picks the
session key `r2`. -/
def Transcript.honest (gsk usk idm r1 r2 idi pmi : Block) : Transcript :=
  let l := xor8 gsk idm
  let beta := desEncrypt l (desEncrypt usk l)
  let p0 := freshHeader r1
  { gsk := gsk, usk := usk, idm := idm
    c1b := tdesEncrypt r1 l beta
    c2a := tdesEncrypt r2 l beta
    r2 := r2
    auth2 := encryptAuth2 p0 idi pmi (macBlock p0 idi pmi) r2
    idi := idi
    r1 := r1 }

/-- **An honest session is consistent.** -/
theorem Transcript.honest_consistent (gsk usk idm r1 r2 idi pmi : Block) :
    (honest gsk usk idm r1 r2 idi pmi).Consistent := by
  refine (consistent_iff_encryptAuth2 _).mpr ⟨?_, ?_, freshHeader r1, pmi, ?_, ?_⟩
  · simp only [honest, l, alpha, beta]
  · simp only [honest, l, alpha, beta]
  · exact sameTid_freshHeader r1
  · simp only [honest]

end SuiCash.Prover
