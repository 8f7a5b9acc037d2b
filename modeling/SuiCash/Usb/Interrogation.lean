import SuiCash.Usb.Responses

/-!
# Key-free interrogation

Four commands ask a card about itself without a key, and read the answer from the frame
alone: neither the IDm that it echoes nor the number of nodes that was asked is compared
with anything, where `Card.readAuthentication1` does compare the IDm.  Callers put the
entries beside the nodes one by one.

`answersBelong_iff`: the answers are the addressed card's, with an entry for each node,
exactly when every response that is accepted happens to be.
-/

namespace SuiCash.Usb

open Bytes Device Fallible Slices

variable (card : Card) (rx : List UInt8)

/-- A response repeats the IDm that was addressed. -/
def Echoes : Prop := (rx.take 10).drop 2 = card.idm.toList

/-- The entries of a response, one for each node, in order. -/
def EntryPerNode (nodes entries : List UInt16) : Prop :=
  entries.length = nodes.length ∧ entries.flatMap toLeBytes = rx.drop 11

/-- What comes of a command that is answered with `rx` is what the addressed card answers. -/
def Belongs {α : Type} (c : Exchange α) (Asked : α → Prop) : Prop :=
  ∀ a, c.outcome (fun _ => .ok rx) = .ok a → Echoes card rx ∧ Asked a

/-- The answers that are accepted are the addressed card's, and about the asked nodes. -/
structure AnswersBelong (nodes : List UInt16) (parent index timeoutMs : UInt16) : Prop where
  requestService : Belongs card rx (card.requestService nodes timeoutMs) fun info =>
    EntryPerNode rx nodes info.keyVersions
  requestBlockInformation : Belongs card rx (card.requestBlockInformation nodes timeoutMs)
    (EntryPerNode rx nodes)
  requestCodeList : Belongs card rx (card.requestCodeList parent index timeoutMs) fun _ => True
  requestSystemCodes : Belongs card rx (card.requestSystemCodes timeoutMs) fun _ => True

variable {card rx}

theorem belongs_of_refused {α : Type} {payload : List UInt8} {timeoutMs : UInt16}
    {read : List UInt8 → Reading α} {Asked : α → Prop} (h : 0xFF < payload.length + 1) :
    Belongs card rx (command payload timeoutMs read) Asked := by
  intro a ha
  rw [(command_refused (fun _ => .ok rx) timeoutMs read h).2] at ha
  cases ha

theorem belongs_iff {α : Type} {payload : List UInt8} {timeoutMs : UInt16}
    {read : List UInt8 → Reading α} {Asked : α → Prop} {p asked : Prop} {q : α → Prop}
    (hlen : payload.length + 1 ≤ 0xFF) (hread : Decides (read rx) p q)
    (hasked : ∀ a, q a → (Asked a ↔ asked)) :
    Belongs card rx (command payload timeoutMs read) Asked ↔ (p → Echoes card rx ∧ asked) := by
  have hout := (command_sent (fun _ => .ok rx) timeoutMs read hlen).2 rx rfl
  constructor
  · intro h hp
    obtain ⟨a, ha⟩ := hread.ok_iff.mpr hp
    obtain ⟨hechoes, hof⟩ := h a (hout.trans ha)
    exact ⟨hechoes, (hasked a (hread.of_ok ha).2).mp hof⟩
  · intro h a ha
    obtain ⟨hp, hq⟩ := hread.of_ok (hout.symm.trans ha)
    exact ⟨(h hp).1, (hasked a hq).mpr (h hp).2⟩

/-- The count of a response is the number of its words, which fill the rest. -/
theorem words_of_whole {word : Format UInt16} {idm : Block} {words : List UInt16}
    (h : (wordsFormat word).whole (rx.drop 2) = some (idm, words)) :
    rx[10]?.map UInt8.toNat = some words.length ∧ words.flatMap word.write = rx.drop 11 := by
  obtain ⟨⟨-, hlt, -⟩, hwrite⟩ := Format.whole_eq_some_iff.mp h
  have hwrite : rx.drop 2 = idm.toList ++ (UInt8.ofNat words.length :: words.flatMap word.write) :=
    hwrite
  have hidm : idm.toList.length = 8 := idm.length_toList
  constructor
  · have hplace : rx[10]? = (rx.drop 2)[8]? := by rw [List.getElem?_drop]
    rw [hplace, hwrite, List.getElem?_append_right (by omega), hidm, Nat.sub_self,
      List.getElem?_cons_zero, Option.map_some, UInt8.toNat_ofNat', Nat.mod_eq_of_lt hlt]
  · have hrest : rx.drop 11 = ((rx.drop 2).drop 8).drop 1 := by rw [List.drop_drop, List.drop_drop]
    rw [hrest, hwrite, List.drop_left' hidm, List.drop_one, List.tail_cons]

theorem entryPerNode_iff {nodes words : List UInt16}
    (h : ∃ idm, (wordsFormat .wordLe).whole (rx.drop 2) = some (idm, words)) :
    EntryPerNode rx nodes words ↔ rx[10]?.map UInt8.toNat = some nodes.length := by
  obtain ⟨idm, h⟩ := h
  obtain ⟨hcount, hrest⟩ := words_of_whole h
  rw [hcount, Option.some.injEq]
  exact and_iff_left hrest

/-- A list of nodes is sent in a frame that has room for it, or not at all. -/
theorem belongs_nodes_iff {α : Type} {command : UInt8} {nodes : List UInt16} {timeoutMs : UInt16}
    {read : List UInt8 → Reading α} {Asked : α → Prop} {p asked : Prop} {q : α → Prop}
    (hread : Decides (read rx) p q) (hasked : ∀ a, q a → (Asked a ↔ asked)) :
    Belongs card rx (Usb.command (command :: (card.idm.toList ++ codes nodes)) timeoutMs read) Asked
      ↔ (11 + 2 * nodes.length ≤ 0xFF ∧ p → Echoes card rx ∧ asked) := by
  have hlen : (command :: (card.idm.toList ++ codes nodes)).length + 1 = 11 + 2 * nodes.length := by
    rw [List.length_cons, List.length_append, length_codes, Vector.length_toList]
    omega
  rw [and_imp]
  by_cases hfits : 11 + 2 * nodes.length ≤ 0xFF
  · rw [belongs_iff (hlen ▸ hfits) hread hasked, forall_prop_of_true hfits]
  · exact iff_of_true (belongs_of_refused (hlen ▸ Nat.not_le.mp hfits)) fun h => absurd h hfits

theorem belongs_requestService_iff (card : Card) (nodes : List UInt16) (timeoutMs : UInt16)
    (rx : List UInt8) :
    (Belongs card rx (card.requestService nodes timeoutMs) fun info =>
        EntryPerNode rx nodes info.keyVersions)
      ↔ (11 + 2 * nodes.length ≤ 0xFF ∧ Answers rx (code.REQUEST_SERVICE + 1) ∧ CountsWords rx →
        Echoes card rx ∧ rx[10]?.map UInt8.toNat = some nodes.length) :=
  belongs_nodes_iff (readRequestService_decides rx) fun _ h => entryPerNode_iff h

theorem belongs_requestBlockInformation_iff (card : Card) (nodes : List UInt16)
    (timeoutMs : UInt16) (rx : List UInt8) :
    Belongs card rx (card.requestBlockInformation nodes timeoutMs) (EntryPerNode rx nodes)
      ↔ (11 + 2 * nodes.length ≤ 0xFF ∧ Answers rx (code.REQUEST_BLOCK_INFORMATION + 1)
          ∧ CountsWords rx →
        Echoes card rx ∧ rx[10]?.map UInt8.toNat = some nodes.length) :=
  belongs_nodes_iff (readRequestBlockInformation_decides rx) fun _ h => entryPerNode_iff h

theorem belongs_echo_iff {α : Type} {payload : List UInt8} {timeoutMs : UInt16}
    {read : List UInt8 → Reading α} {p : Prop} {q : α → Prop} (hlen : payload.length + 1 ≤ 0xFF)
    (hread : Decides (read rx) p q) :
    (Belongs card rx (command payload timeoutMs read) fun _ => True) ↔ (p → Echoes card rx) := by
  have h : (Belongs card rx (command payload timeoutMs read) fun _ => True)
      ↔ (p → Echoes card rx ∧ True) := belongs_iff hlen hread fun _ _ => Iff.rfl
  rwa [and_true] at h

theorem belongs_requestCodeList_iff (card : Card) (parent index timeoutMs : UInt16)
    (rx : List UInt8) :
    (Belongs card rx (card.requestCodeList parent index timeoutMs) fun _ => True)
      ↔ (Answers rx (code.REQUEST_CODE_LIST + 1) ∧ CountsCodes rx → Echoes card rx) :=
  belongs_echo_iff (by simp) (readRequestCodeList_decides rx)

theorem belongs_requestSystemCodes_iff (card : Card) (timeoutMs : UInt16) (rx : List UInt8) :
    (Belongs card rx (card.requestSystemCodes timeoutMs) fun _ => True)
      ↔ (Answers rx (code.REQUEST_SYSTEM_CODE + 1) ∧ CountsWords rx → Echoes card rx) :=
  belongs_echo_iff (by simp) (readRequestSystemCodes_decides rx)

/-- **When the answers are the addressed card's**: the frames that are accepted echo its
IDm, and count as many words as there are nodes. -/
theorem answersBelong_iff (card : Card) (nodes : List UInt16) (parent index timeoutMs : UInt16)
    (rx : List UInt8) :
    AnswersBelong card rx nodes parent index timeoutMs ↔
      (∀ want ∈ [code.REQUEST_SERVICE + 1, code.REQUEST_BLOCK_INFORMATION + 1],
        11 + 2 * nodes.length ≤ 0xFF ∧ Answers rx want ∧ CountsWords rx →
          Echoes card rx ∧ rx[10]?.map UInt8.toNat = some nodes.length)
      ∧ (Answers rx (code.REQUEST_CODE_LIST + 1) ∧ CountsCodes rx → Echoes card rx)
      ∧ (Answers rx (code.REQUEST_SYSTEM_CODE + 1) ∧ CountsWords rx → Echoes card rx) := by
  rw [List.forall_mem_cons, List.forall_mem_singleton, ← belongs_requestService_iff card nodes timeoutMs,
    ← belongs_requestBlockInformation_iff card nodes timeoutMs,
    ← belongs_requestCodeList_iff card parent index timeoutMs,
    ← belongs_requestSystemCodes_iff card timeoutMs]
  constructor
  · rintro ⟨hservice, hblocks, hcodes, hsystems⟩
    exact ⟨⟨hservice, hblocks⟩, hcodes, hsystems⟩
  · rintro ⟨⟨hservice, hblocks⟩, hcodes, hsystems⟩
    exact ⟨hservice, hblocks, hcodes, hsystems⟩

/-- Another card's answer is taken for the addressed one's, and a short one for a whole. -/
theorem answersBelong_fails :
    ¬ AnswersBelong ⟨#v[1, 2, 3, 4, 5, 6, 7, 8]⟩
        [0x0D, 0x03, 1, 2, 3, 4, 5, 6, 7, 9, 1, 0, 0] [0x090F] 0 0 500
      ∧ ¬ AnswersBelong ⟨#v[1, 2, 3, 4, 5, 6, 7, 8]⟩
        [0x0B, 0x0F, 1, 2, 3, 4, 5, 6, 7, 8, 0] [0x090F] 0 0 500 := by
  constructor
  · intro h
    exact absurd (h.requestService ⟨[0]⟩ rfl).1 (by unfold Echoes; decide)
  · intro h
    exact absurd (h.requestBlockInformation [] rfl).2.1 (by decide)

end SuiCash.Usb
