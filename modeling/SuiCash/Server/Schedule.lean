import SuiCash.Des.Chain

/-!
# The server's challenge schedule

`server/src/oracle/schedule.rs`: the keys `L`, `α` and `β` of one card, and the
four challenge blocks over them.  The server does not run `prover/src/des.rs`; it
runs the `des` crate, which is a parameter here.

What is relied on of the crate is that it computes DES, and three-key EDE under a
stacked key (`DesCrate.Standard`).  Under that, stacking `K1 | K2 | K1` makes the
server's block functions those of the prover (`DesCrate.Standard.tdesEncrypt_eq`,
`DesCrate.Standard.tdesDecrypt_eq`).
-/

namespace SuiCash.Server

open Des

/-- What is used of the `des` crate: one block under `Des`, and one block either
way under `TdesEde3` with its 24-byte key. -/
structure DesCrate where
  encryptBlock : (key : Block) → (block : Block) → Block
  ede3EncryptBlock : (key : Vector UInt8 24) → (block : Block) → Block
  ede3DecryptBlock : (key : Vector UInt8 24) → (block : Block) → Block

/-- The three keys of a 24-byte key, laid end to end. -/
def stackedKey (k1 k2 k3 : Block) : Vector UInt8 24 := k1 ++ k2 ++ k3

/-- The crate computes DES, and EDE under the three keys of a stacked key. -/
structure DesCrate.Standard (crate : DesCrate) : Prop where
  encryptBlock_eq : ∀ key block, crate.encryptBlock key block = desEncrypt block key
  ede3EncryptBlock_eq : ∀ k1 k2 k3 block, crate.ede3EncryptBlock (stackedKey k1 k2 k3) block
    = desEncrypt (desDecrypt (desEncrypt block k1) k2) k3
  ede3DecryptBlock_eq : ∀ k1 k2 k3 block, crate.ede3DecryptBlock (stackedKey k1 k2 k3) block
    = desDecrypt (desEncrypt (desDecrypt block k3) k2) k1

namespace DesCrate

variable (crate : DesCrate)

def desEncrypt (data key : Block) : Block := crate.encryptBlock key data

def tdesEncrypt (data k1 k2 : Block) : Block := crate.ede3EncryptBlock (stackedKey k1 k2 k1) data

def tdesDecrypt (data k1 k2 : Block) : Block := crate.ede3DecryptBlock (stackedKey k1 k2 k1) data

variable {crate} (std : crate.Standard)
include std

theorem Standard.desEncrypt_eq (data key : Block) :
    crate.desEncrypt data key = Des.desEncrypt data key := std.encryptBlock_eq key data

/-- Under a stacked key `K1 | K2 | K1` the crate computes the prover's EDE. -/
theorem Standard.tdesEncrypt_eq (data k1 k2 : Block) :
    crate.tdesEncrypt data k1 k2 = Des.tdesEncrypt data k1 k2 := std.ede3EncryptBlock_eq k1 k2 k1 data

theorem Standard.tdesDecrypt_eq (data k1 k2 : Block) :
    crate.tdesDecrypt data k1 k2 = Des.tdesDecrypt data k1 k2 := std.ede3DecryptBlock_eq k1 k2 k1 data

end DesCrate

/-! ### Intermediate keys -/

structure IntermediateKeys where
  l : Block
  alpha : Block
  beta : Block
  deriving DecidableEq

namespace IntermediateKeys

variable (crate : DesCrate)

def derive (gsk usk idm : Block) : IntermediateKeys :=
  let l := xor8 gsk idm
  let alpha := crate.desEncrypt usk l
  let beta := crate.desEncrypt l alpha
  ⟨l, alpha, beta⟩

variable (keys : IntermediateKeys)

def c1a (r1 : Block) : Block := crate.tdesEncrypt r1 keys.alpha keys.l

/-- The C1B that a card answering `r1` must give. -/
def c1bExpected (r1 : Block) : Block := crate.tdesEncrypt r1 keys.l keys.beta

def c2b (r2 : Block) : Block := crate.tdesEncrypt r2 keys.alpha keys.l

/-- The session key of a C2A. -/
def r2FromC2a (c2a : Block) : Block := crate.tdesDecrypt c2a keys.l keys.beta

/-- The challenge a C1B answers. -/
def r1FromC1b (c1b : Block) : Block := crate.tdesDecrypt c1b keys.l keys.beta

end IntermediateKeys

theorem derive_eq {crate : DesCrate} (std : crate.Standard) (gsk usk idm : Block) :
    IntermediateKeys.derive crate gsk usk idm
      = ⟨xor8 gsk idm, desEncrypt usk (xor8 gsk idm),
          desEncrypt (xor8 gsk idm) (desEncrypt usk (xor8 gsk idm))⟩ := by
  rw [IntermediateKeys.derive, std.desEncrypt_eq, std.desEncrypt_eq]

/-! ### A crate that computes DES -/

def keyBlock (key : Vector UInt8 24) (i : Fin 3) : Block := @Wiring.chunk UInt8 3 8 key i

theorem keyBlock_stackedKey (k1 k2 k3 : Block) (i : Fin 3) :
    keyBlock (stackedKey k1 k2 k3) i = #v[k1, k2, k3].get i := by
  apply Vector.ext
  intro j hj
  have hi : i = 0 ∨ i = 1 ∨ i = 2 := by omega
  rw [keyBlock, Wiring.getElem_chunk]
  rcases hi with rfl | rfl | rfl
  · show (k1 ++ k2 ++ k3 : Vector UInt8 (8 + 8 + 8))[0 * 8 + j] = k1[j]
    rw [Vector.getElem_append_left (by omega), Vector.getElem_append_left (by omega)]
    simp
  · show (k1 ++ k2 ++ k3 : Vector UInt8 (8 + 8 + 8))[1 * 8 + j] = k2[j]
    rw [Vector.getElem_append_left (by omega), Vector.getElem_append_right _ (by omega)]
    simp
  · show (k1 ++ k2 ++ k3 : Vector UInt8 (8 + 8 + 8))[2 * 8 + j] = k3[j]
    rw [Vector.getElem_append_right _ (by omega)]
    simp

/-- The crate's three functions, by the prover's DES. -/
def nativeCrate : DesCrate where
  encryptBlock key block := desEncrypt block key
  ede3EncryptBlock key block :=
    desEncrypt (desDecrypt (desEncrypt block (keyBlock key 0)) (keyBlock key 1)) (keyBlock key 2)
  ede3DecryptBlock key block :=
    desDecrypt (desEncrypt (desDecrypt block (keyBlock key 2)) (keyBlock key 1)) (keyBlock key 0)

theorem nativeCrate_standard : nativeCrate.Standard where
  encryptBlock_eq _ _ := rfl
  ede3EncryptBlock_eq k1 k2 k3 block := by
    show desEncrypt (desDecrypt (desEncrypt block (keyBlock _ 0)) (keyBlock _ 1)) (keyBlock _ 2) = _
    simp only [keyBlock_stackedKey]
    rfl
  ede3DecryptBlock_eq k1 k2 k3 block := by
    show desDecrypt (desEncrypt (desDecrypt block (keyBlock _ 2)) (keyBlock _ 1)) (keyBlock _ 0) = _
    simp only [keyBlock_stackedKey]
    rfl

end SuiCash.Server
