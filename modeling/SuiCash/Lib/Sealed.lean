import SuiCash.Lib.Cipher

/-!
# Sealed messages

A message that carries its own chained MAC and is then chained under a session key.
The MAC runs a header through the message, each block of it a key; the opener takes
the last block back through the others and compares what is left with the header.

`foldr_dec_eq_header_iff` says the comparison accepts the MAC and nothing else, and
`sealBlocks_inj` that messages sealed alike under one key are one message.
-/

namespace Cipher

section Sealed

variable {β : Type} (c : KeyedPerm β β) (mix : β → β → β) (iv : β) (header : ℕ → β)

/-- The MAC of a message: the header for its length, encrypted under each block in turn. -/
def chainMac (ps : List β) : β := ps.foldl c.enc (header ps.length)

/-- The message and its MAC, chained under the key. -/
def sealBlocks (key : β) (ps : List β) : List β :=
  cbcEnc mix (fun x => c.enc x key) iv (ps ++ [chainMac c header ps])

variable {c mix iv header}

@[simp] theorem sealBlocks_length (key : β) (ps : List β) :
    (sealBlocks c mix iv header key ps).length = ps.length + 1 := by
  rw [sealBlocks, cbcEnc_length, List.length_append, List.length_singleton]

theorem cbcDec_sealBlocks (hmix : ∀ a b, mix (mix a b) b = a) (key : β) (ps : List β) :
    cbcDec mix (fun x => c.dec x key) iv (sealBlocks c mix iv header key ps)
      = ps ++ [chainMac c header ps] :=
  cbcDec_cbcEnc hmix (fun x => c.dec_enc x key) iv _

/-- The MAC taken back is the header exactly when it is the MAC. -/
theorem foldr_dec_eq_header_iff {ps : List β} {mac : β} :
    ps.foldr (fun k x => c.dec x k) mac = header ps.length ↔ mac = chainMac c header ps := by
  rw [← c.foldl_enc_eq_iff, chainMac, eq_comm]

/-- What is sealed alike under one key, whatever the headers, is one message. -/
theorem sealBlocks_inj (hmix : ∀ a b, mix (mix a b) b = a) {header' : ℕ → β} {key : β}
    {ps qs : List β} (h : sealBlocks c mix iv header key ps = sealBlocks c mix iv header' key qs) :
    ps = qs := by
  have hdec := congrArg (cbcDec mix (fun x => c.dec x key) iv) h
  rw [cbcDec_sealBlocks hmix, cbcDec_sealBlocks hmix] at hdec
  exact (List.append_inj' hdec rfl).1

end Sealed

end Cipher
