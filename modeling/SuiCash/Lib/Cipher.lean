import Mathlib.Tactic.Common

/-!
# Keyed permutations: Feistel ladders, EDE, chaining

A block cipher is a family of permutations indexed by keys.  `KeyedPerm` says
so with the two inverse laws as fields, so nothing built from one has to argue
invertibility again.

* `Feistel.rounds_reverse`: a Feistel ladder run over the reversed keys, on the
  swapped result, gives the swapped start back, whatever the round function.
* `KeyedPerm.ede`: encrypt, decrypt, encrypt under two keys is a keyed
  permutation again.
* `KeyedPerm.foldl_enc_eq_iff`: a chain that encrypts one block under a list of
  keys in turn can be checked from either end.
* `cbcDec_cbcEnc`, `cbcEnc_cbcDec`: cipher block chaining is inverted by its
  other direction at every length.
* `cbcDec_change`: a decrypted block depends on its own ciphertext block and the
  one before, so one changed block reaches two and no more.
-/

namespace Cipher

/-! ### Feistel ladders -/

namespace Feistel

variable {α κ : Type} (mix : α → α → α) (f : α → κ → α)

def round (s : α × α) (k : κ) : α × α := (s.2, mix s.1 (f s.2 k))

/-- The rounds under a list of keys, first key first. -/
def rounds (ks : List κ) (s : α × α) : α × α := ks.foldl (round mix f) s

variable {mix f}

theorem round_swap (hmix : ∀ a b, mix (mix a b) b = a) (s : α × α) (k : κ) :
    round mix f (round mix f s k).swap k = s.swap := by
  obtain ⟨l, r⟩ := s
  simp [round, hmix]

/-- **A ladder is undone by its reversed keys**, up to the swap of halves. -/
theorem rounds_reverse (hmix : ∀ a b, mix (mix a b) b = a) (ks : List κ) (s : α × α) :
    rounds mix f ks.reverse (rounds mix f ks s).swap = s.swap := by
  induction ks generalizing s with
  | nil => rfl
  | cons k ks ih =>
    have hcons : rounds mix f (k :: ks) s = rounds mix f ks (round mix f s k) := rfl
    have hsnoc : ∀ t, rounds mix f (k :: ks).reverse t
        = round mix f (rounds mix f ks.reverse t) k := by
      intro t
      rw [rounds, List.reverse_cons, List.foldl_append]
      rfl
    rw [hcons, hsnoc, ih, round_swap hmix]

end Feistel

/-! ### Keyed permutations -/

structure KeyedPerm (κ β : Type) where
  enc : β → κ → β
  dec : β → κ → β
  dec_enc : ∀ x k, dec (enc x k) k = x
  enc_dec : ∀ x k, enc (dec x k) k = x

namespace KeyedPerm

variable {κ β : Type} (c : KeyedPerm κ β)

theorem enc_eq_iff {x y : β} {k : κ} : c.enc x k = y ↔ x = c.dec y k := by
  constructor
  · rintro rfl; exact (c.dec_enc x k).symm
  · rintro rfl; exact c.enc_dec y k

/-- Encrypt, decrypt, encrypt under a pair of keys. -/
def ede : KeyedPerm (κ × κ) β where
  enc x k := c.enc (c.dec (c.enc x k.1) k.2) k.1
  dec x k := c.dec (c.enc (c.dec x k.1) k.2) k.1
  dec_enc x k := by rw [c.dec_enc, c.enc_dec, c.dec_enc]
  enc_dec x k := by rw [c.enc_dec, c.dec_enc, c.enc_dec]

/-- Under one key twice the middle step cancels and one encryption is left. -/
@[simp] theorem ede_enc_self (x : β) (k : κ) : c.ede.enc x (k, k) = c.enc x k :=
  congrArg (fun y => c.enc y k) (c.dec_enc x k)

@[simp] theorem ede_dec_self (x : β) (k : κ) : c.ede.dec x (k, k) = c.dec x k :=
  congrArg (fun y => c.dec y k) (c.enc_dec x k)

theorem dec_inj {x y : β} {k : κ} (h : c.dec x k = c.dec y k) : x = y := by
  have := congrArg (fun z => c.enc z k) h
  rwa [c.enc_dec, c.enc_dec] at this

/-- **A chain of encryptions is checked from either end**: forwards from the
start by encrypting, or backwards from the result by decrypting. -/
theorem foldl_enc_eq_iff (ks : List κ) (a b : β) :
    ks.foldl c.enc a = b ↔ ks.foldr (fun k x => c.dec x k) b = a := by
  induction ks generalizing a with
  | nil => exact eq_comm
  | cons k ks ih =>
    rw [List.foldl_cons, List.foldr_cons, ih]
    constructor
    · intro h; rw [h, c.dec_enc]
    · intro h; rw [← h, c.enc_dec]

end KeyedPerm

/-! ### Cipher block chaining -/

section Chaining

variable {β : Type} (mix : β → β → β)

/-- Each block is mixed with the previous ciphertext block and encrypted. -/
def cbcEnc (e : β → β) : β → List β → List β
  | _, [] => []
  | prev, p :: ps => e (mix p prev) :: cbcEnc e (e (mix p prev)) ps

/-- Each block is decrypted and mixed with the previous ciphertext block. -/
def cbcDec (d : β → β) : β → List β → List β
  | _, [] => []
  | prev, c :: cs => mix (d c) prev :: cbcDec d c cs

variable {mix}

@[simp] theorem cbcEnc_length (e : β → β) (prev : β) (ps : List β) :
    (cbcEnc mix e prev ps).length = ps.length := by
  induction ps generalizing prev with
  | nil => rfl
  | cons p ps ih => simp [cbcEnc, ih]

@[simp] theorem cbcDec_length (d : β → β) (prev : β) (cs : List β) :
    (cbcDec mix d prev cs).length = cs.length := by
  induction cs generalizing prev with
  | nil => rfl
  | cons c cs ih => simp [cbcDec, ih]

/-- **A decrypted block is its own ciphertext block decrypted, mixed with the
ciphertext block before**, the start value standing before the first. -/
theorem cbcDec_eq_zipWith (d : β → β) (prev : β) (cs : List β) :
    cbcDec mix d prev cs = List.zipWith (fun c p => mix (d c) p) cs (prev :: cs) := by
  induction cs generalizing prev with
  | nil => rfl
  | cons c cs ih => rw [cbcDec, List.zipWith_cons_cons, ih]

theorem getElem?_cbcDec (d : β → β) (prev : β) (cs : List β) (i : ℕ) :
    (cbcDec mix d prev cs)[i]?
      = cs[i]?.bind fun c => (prev :: cs)[i]?.map fun p => mix (d c) p := by
  rw [cbcDec_eq_zipWith, List.getElem?_zipWith']
  cases cs[i]? <;> rfl

/-- **The reach of one changed block**, for an injective block function: the
plaintext block at its place changes, the next one differs by the same
difference, and no other changes. -/
theorem cbcDec_change (hmix : ∀ a b, mix (mix a b) b = a)
    (hdiff : ∀ x a b, mix (mix x a) (mix x b) = mix a b) {d : β → β} (hd : Function.Injective d)
    (prev : β) {cs cs' : List β} {i : ℕ} (hlen : cs'.length = cs.length) (hi : i < cs.length)
    (hne : cs'[i]? ≠ cs[i]?) (hrest : ∀ j ≠ i, cs'[j]? = cs[j]?) :
    let ps := cbcDec mix d prev cs
    let ps' := cbcDec mix d prev cs'
    ps'[i]? ≠ ps[i]?
      ∧ (i + 1 < cs.length → ∃ p p' c c', ps[i + 1]? = some p ∧ ps'[i + 1]? = some p'
        ∧ cs[i]? = some c ∧ cs'[i]? = some c' ∧ mix p' p = mix c' c)
      ∧ ∀ j, j ≠ i → j ≠ i + 1 → ps'[j]? = ps[j]? := by
  obtain ⟨c, hc⟩ : ∃ c, cs[i]? = some c := ⟨_, List.getElem?_eq_getElem hi⟩
  obtain ⟨c', hc'⟩ : ∃ c', cs'[i]? = some c' := ⟨_, List.getElem?_eq_getElem (hlen ▸ hi)⟩
  -- a block is mixed with the one before it, so `prev :: cs` changes one place later
  have hprev : ∀ j, j ≠ i + 1 → (prev :: cs')[j]? = (prev :: cs)[j]? := by
    intro j hj
    cases j with
    | zero => rfl
    | succ j => exact hrest j fun h => hj (congrArg (· + 1) h)
  have hcancel : ∀ {x y z : β}, mix x z = mix y z → x = y := by
    intro x y z h
    rw [← hmix x z, h, hmix]
  simp only [getElem?_cbcDec]
  refine ⟨?_, fun hnext => ?_, fun j hj hj' => by rw [hrest j hj, hprev j hj']⟩
  · obtain ⟨p, hp⟩ : ∃ p, (prev :: cs)[i]? = some p :=
      ⟨_, List.getElem?_eq_getElem (Nat.lt_succ_of_lt hi)⟩
    intro h
    rw [hprev i (Nat.ne_of_lt (Nat.lt_succ_self i)), hc, hc', hp] at h
    apply hne
    rw [hc, hc', hd (hcancel (Option.some.inj h))]
  · obtain ⟨b, hb⟩ : ∃ b, cs[i + 1]? = some b := ⟨_, List.getElem?_eq_getElem hnext⟩
    refine ⟨mix (d b) c, mix (d b) c', c, c', ?_, ?_, hc, hc', hdiff _ _ _⟩
    · rw [hb, List.getElem?_cons_succ, hc]
      rfl
    · rw [hrest (i + 1) (Nat.succ_ne_self i), hb, List.getElem?_cons_succ, hc']
      rfl

theorem cbcDec_cbcEnc (hmix : ∀ a b, mix (mix a b) b = a) {e d : β → β}
    (hde : ∀ x, d (e x) = x) (prev : β) (ps : List β) :
    cbcDec mix d prev (cbcEnc mix e prev ps) = ps := by
  induction ps generalizing prev with
  | nil => rfl
  | cons p ps ih => rw [cbcEnc, cbcDec, hde, hmix, ih]

theorem cbcEnc_cbcDec (hmix : ∀ a b, mix (mix a b) b = a) {e d : β → β}
    (hed : ∀ x, e (d x) = x) (prev : β) (cs : List β) :
    cbcEnc mix e prev (cbcDec mix d prev cs) = cs := by
  induction cs generalizing prev with
  | nil => rfl
  | cons c cs ih => rw [cbcDec, cbcEnc, hmix, hed, ih]

end Chaining

end Cipher
