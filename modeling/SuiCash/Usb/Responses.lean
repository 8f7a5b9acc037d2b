import SuiCash.Usb.Frames

/-!
# What a response says

The response half of each command, for any bytes that a reader may return.  The grammar of
a response is written as a `Format`, apart from the code that reads it, and its length as
what its own counts make of it (`CountsWords`, `CountsCodes`).

`responses_exact`: no reading panics, each accepts exactly its grammar, and returns what
the format decodes.
-/

namespace SuiCash.Usb

open Bytes Fallible Slices

/-! ### Grammars -/

/-- A frame that begins with its own length and the response code. -/
def Answers (rx : List UInt8) (want : UInt8) : Prop :=
  rx[0]?.map UInt8.toNat = some rx.length ∧ rx[1]? = some want

/-- Words are counted at place 10 and fill the frame. -/
def CountsWords (rx : List UInt8) : Prop :=
  ∃ n, rx[10]? = some n ∧ rx.length = 11 + 2 * n.toNat

/-- Areas are counted at place 13, services behind the areas, and both fill the frame of a
command that was not refused. -/
def CountsCodes (rx : List UInt8) : Prop :=
  rx[10]? = some 0 ∧ ∃ areas services, rx[13]? = some areas
    ∧ rx[14 + 4 * areas.toNat]? = some services
    ∧ rx.length = 15 + 4 * areas.toNat + 2 * services.toNat

def wordsFormat (word : Format UInt16) : Format (Block × List UInt16) :=
  blockFormat.seq (.counted word)

def codeListFormat :
    Format (Block × UInt8 × UInt8 × UInt8 × List (UInt16 × UInt16) × List UInt16) :=
  blockFormat.seq (.seq .byte (.seq .byte (.seq .byte
    (.seq (.counted (.seq .wordLe .wordLe)) (.counted .wordLe)))))

/-- A reading that is total, accepts exactly a grammar, and returns what is encoded. -/
structure ReadsExactly {α : Type} (read : List UInt8 → Reading α) (want : UInt8)
    (Fills : List UInt8 → Prop) (Encodes : List UInt8 → α → Prop) : Prop where
  total : ∀ rx, read rx ≠ .error .panic
  accepts_iff : ∀ rx, (∃ a, read rx = .ok a) ↔ Answers rx want ∧ Fills rx
  encoded : ∀ rx a, read rx = .ok a → Encodes (rx.drop 2) a

theorem readsExactly_of_decides {α : Type} {read : List UInt8 → Reading α} {want : UInt8}
    {Fills : List UInt8 → Prop} {Encodes : List UInt8 → α → Prop}
    (h : ∀ rx, Decides (read rx) (Answers rx want ∧ Fills rx) (Encodes (rx.drop 2))) :
    ReadsExactly read want Fills Encodes :=
  ⟨fun rx => (h rx).ne_panic, fun rx => (h rx).ok_iff, fun rx _ ha => ((h rx).of_ok ha).2⟩

/-! ### Response codes -/

theorem expectResponseCode_decides (rx : List UInt8) (want : UInt8) (what : String) :
    Decides (expectResponseCode rx want what) (Answers rx want) fun _ => True := by
  refine decides_guard (fun hshort h => ?_) fun hlong => ?_
  · obtain ⟨hi, -⟩ := List.getElem?_eq_some_iff.mp h.2
    omega
  refine decides_index (by omega) fun length hlength => ?_
  have hlen : rx[0]?.map UInt8.toNat = some rx.length ↔ length.toNat = rx.length := by
    rw [hlength, Option.map_some, Option.some.injEq]
  refine decides_unless (fun h => hlen.mp h.1) fun heq => ?_
  refine decides_index (by omega) fun code hcode => ?_
  by_cases hwant : code = want
  · rw [if_neg (not_not.mpr hwant)]
    exact decides_ok ⟨hlen.mpr heq, hcode.trans (congrArg some hwant)⟩ trivial
  · rw [if_pos hwant]
    have hno : ¬ Answers rx want := fun h => hwant (Option.some.inj (hcode.symm.trans h.2))
    -- the status flags are read only where there are any
    by_cases hflags : 12 ≤ rx.length
    · rw [if_pos hflags]
      exact decides_index (by omega) fun _ _ => decides_index (by omega) fun _ _ => decides_error hno
    · rw [if_neg hflags]
      exact decides_error hno

theorem exists_block (rx : List UInt8) (h : 10 ≤ rx.length) :
    ∃ idm : Block, (array 8 ((rx.take 10).drop 2) : Reading Block) = .ok idm
      ∧ idm.toList = (rx.take 10).drop 2 ∧ rx.drop 2 = idm.toList ++ rx.drop 10 := by
  have hlen : ((rx.take 10).drop 2).length = 8 := length_take_drop h
  obtain ⟨idm, harray, hidm⟩ := array_of_length (ε := Error) hlen
  exact ⟨idm, harray, hidm, hidm ▸ drop_eq_append rx (by omega)⟩

/-! ### Words -/

theorem wordLe_read (c : List UInt8) (h : c.length = 2) :
    ∃ w, wordLe c = .ok w ∧ Format.wordLe.write w = c := by
  obtain ⟨lo, hi, rfl⟩ := List.length_eq_two.mp h
  exact ⟨fromLeBytes lo hi, rfl, toLeBytes_fromLeBytes lo hi⟩

theorem wordBe_read (c : List UInt8) (h : c.length = 2) :
    ∃ w, wordBe c = .ok w ∧ Format.wordBe.write w = c := by
  obtain ⟨hi, lo, rfl⟩ := List.length_eq_two.mp h
  exact ⟨fromBeBytes hi lo, rfl, toBeBytes_fromBeBytes hi lo⟩

theorem areaRange_read (c : List UInt8) (h : c.length = 4) :
    ∃ a, areaRange c = .ok a ∧ (Format.wordLe.seq .wordLe).write a = c := by
  obtain ⟨b0, b1, b2, b3, rfl⟩ : ∃ b0 b1 b2 b3, c = [b0, b1, b2, b3] := by
    match c, h with
    | [b0, b1, b2, b3], _ => exact ⟨b0, b1, b2, b3, rfl⟩
  refine ⟨(fromLeBytes b0 b1, fromLeBytes b2 b3), rfl, ?_⟩
  show toLeBytes (fromLeBytes b0 b1) ++ toLeBytes (fromLeBytes b2 b3) = _
  rw [toLeBytes_fromLeBytes, toLeBytes_fromLeBytes]
  rfl

/-- A table in the frame, counted by the byte in front of it, is read to its end. -/
theorem exists_table {α : Type} {f : Format α} {read : List UInt8 → Reading α} {k off : ℕ}
    {count : UInt8} {rx : List UInt8} (hk : 0 < k) (hfits : ∀ a, f.Fits a)
    (hread : ∀ c : List UInt8, c.length = k → ∃ a, read c = .ok a ∧ f.write a = c)
    (hle : off + count.toNat * k ≤ rx.length) :
    ∃ as, (chunksExact k ((rx.take (off + count.toNat * k)).drop off)).mapM read = .ok as
      ∧ (Format.counted f).Fits as
      ∧ count :: rx.drop off = (Format.counted f).write as ++ rx.drop (off + count.toNat * k) := by
  have hlen : ((rx.take (off + count.toNat * k)).drop off).length = count.toNat * k :=
    (length_take_drop hle).trans (Nat.add_sub_cancel_left off _)
  obtain ⟨as, has, hcount, hwrite⟩ := mapM_chunksExact hk hread hlen
  refine ⟨as, has, ⟨hcount ▸ count.toNat_lt, fun a _ => hfits a⟩, ?_⟩
  show _ = UInt8.ofNat as.length :: as.flatMap f.write ++ _
  rw [hcount, UInt8.ofNat_toNat, hwrite, List.cons_append, ← drop_eq_append rx (Nat.le_add_right _ _)]

theorem readWords_decides {word : Format UInt16} {read : List UInt8 → Reading UInt16}
    (hfits : ∀ w, word.Fits w)
    (hread : ∀ c : List UInt8, c.length = 2 → ∃ w, read c = .ok w ∧ word.write w = c)
    (want : UInt8) (what : String) (disagrees : ℕ → ℕ → String) (rx : List UInt8) :
    Decides (readWords want what disagrees read rx) (Answers rx want ∧ CountsWords rx)
      fun words => ∃ idm, (wordsFormat word).whole (rx.drop 2) = some (idm, words) := by
  refine (expectResponseCode_decides rx want what).bind And.left fun _ hanswers _ => ?_
  refine decides_guard (fun hshort h => ?_) fun hlong => ?_
  · obtain ⟨-, n, -, hlen⟩ := h
    omega
  refine decides_index (by omega) fun n hn => decides_unless (fun h => ?_) fun hlen => ?_
  · obtain ⟨-, n', hn', hlen⟩ := h
    cases hn.symm.trans hn'
    omega
  obtain ⟨words, hwords, hcounted, hwrite⟩ := exists_table (by decide) hfits hread (Nat.le_of_eq hlen.symm)
  refine decides_slice (Nat.le_add_right 11 _) (Nat.le_of_eq hlen.symm) ?_
  obtain ⟨idm, -, -, hsplit⟩ := exists_block rx (by omega)
  refine hwords ▸ decides_ok ⟨hanswers, n, hn, by omega⟩ ⟨idm, ?_⟩
  rw [← hlen, List.drop_length, List.append_nil] at hwrite
  rw [hsplit, drop_eq_cons hn, hwrite]
  exact Format.whole_write (f := wordsFormat word) (a := (idm, words)) ⟨trivial, hcounted⟩

theorem readRequestService_decides (rx : List UInt8) :
    Decides (readRequestService rx) (Answers rx (code.REQUEST_SERVICE + 1) ∧ CountsWords rx)
      fun info => ∃ idm, (wordsFormat .wordLe).whole (rx.drop 2) = some (idm, info.keyVersions) :=
  (readWords_decides (fun _ => trivial) wordLe_read _ _ _ rx).map fun _ h => h

theorem readRequestBlockInformation_decides (rx : List UInt8) :
    Decides (readRequestBlockInformation rx)
      (Answers rx (code.REQUEST_BLOCK_INFORMATION + 1) ∧ CountsWords rx)
      fun counts => ∃ idm, (wordsFormat .wordLe).whole (rx.drop 2) = some (idm, counts) :=
  readWords_decides (fun _ => trivial) wordLe_read _ _ _ rx

theorem readRequestSystemCodes_decides (rx : List UInt8) :
    Decides (readRequestSystemCodes rx)
      (Answers rx (code.REQUEST_SYSTEM_CODE + 1) ∧ CountsWords rx)
      fun systems => ∃ idm, (wordsFormat .wordBe).whole (rx.drop 2) = some (idm, systems) :=
  readWords_decides (fun _ => trivial) wordBe_read _ _ _ rx

/-! ### The code list -/

theorem readRequestCodeList_decides (rx : List UInt8) :
    Decides (readRequestCodeList rx) (Answers rx (code.REQUEST_CODE_LIST + 1) ∧ CountsCodes rx)
      fun list => ∃ idm sf2, codeListFormat.whole (rx.drop 2)
        = some (idm, 0, sf2, list.continueFlag, list.areas, list.services) := by
  refine (expectResponseCode_decides rx _ _).bind And.left fun _ hanswers _ => ?_
  refine decides_guard (fun hshort h => ?_) fun hlong => ?_
  · obtain ⟨-, -, a, s, -, -, hlen⟩ := h
    omega
  refine decides_index (by omega) fun sf1 hsf1 => decides_index (by omega) fun sf2 hsf2 => ?_
  refine decides_unless (fun h => Option.some.inj (hsf1.symm.trans h.2.1)) ?_
  rintro rfl
  refine decides_guard (fun hshort h => ?_) fun hlong => ?_
  · obtain ⟨-, -, a, s, -, -, hlen⟩ := h
    omega
  refine decides_index (by omega) fun flag hflag => decides_index (by omega) fun a ha => ?_
  refine decides_guard (fun hshort h => ?_) fun hlong => ?_
  · obtain ⟨-, -, a', s, ha', -, hlen⟩ := h
    cases ha.symm.trans ha'
    omega
  have hle : 14 + a.toNat * 4 ≤ rx.length := by omega
  obtain ⟨areas, hareas, hfits, hwrite⟩ :=
    exists_table (by decide) (fun _ => And.intro trivial trivial) areaRange_read hle
  refine decides_slice (Nat.le_add_right 14 _) hle (decides_step hareas ?_)
  -- the place of the second count is behind the first table
  refine decides_index (by omega) fun s hs => decides_unless (fun h => ?_) fun hlen => ?_
  · obtain ⟨-, -, a', s', ha', hs', hlen⟩ := h
    cases ha.symm.trans ha'
    rw [Nat.mul_comm] at hs'
    cases hs.symm.trans hs'
    omega
  obtain ⟨services, hservices, hfits', hwrite'⟩ :=
    exists_table (by decide) (fun _ => trivial) wordLe_read (Nat.le_of_eq hlen.symm)
  refine decides_slice (Nat.le_add_right _ _) (Nat.le_of_eq hlen.symm) (decides_step hservices ?_)
  obtain ⟨idm, -, -, hsplit⟩ := exists_block rx (by omega)
  refine decides_ok ⟨hanswers, hsf1, a, s, ha, ?_, by omega⟩ ⟨idm, sf2, ?_⟩
  · rw [Nat.mul_comm]
    exact hs
  · rw [← hlen, List.drop_length, List.append_nil] at hwrite'
    rw [hsplit, drop_eq_cons hsf1, drop_eq_cons hsf2, drop_eq_cons hflag, drop_eq_cons ha, hwrite,
      drop_eq_cons hs, hwrite']
    exact Format.whole_write (f := codeListFormat) (a := (idm, 0, sf2, flag, areas, services))
      ⟨trivial, trivial, trivial, trivial, hfits, hfits'⟩

/-! ### Authentication -/

theorem readAuthentication1_decides (card : Card) (rx : List UInt8) :
    Decides (card.readAuthentication1 rx)
      (Answers rx (code.AUTHENTICATION1 + 1)
        ∧ rx.length = 26 ∧ (rx.take 10).drop 2 = card.idm.toList)
      fun p => (blockFormat.seq (blockFormat.seq blockFormat)).whole (rx.drop 2)
        = some (card.idm, p) := by
  refine (expectResponseCode_decides rx _ _).bind And.left fun _ hanswers _ => ?_
  refine decides_unless (fun h => h.2.1) fun hlen => ?_
  obtain ⟨idm, harray, hidm, hsplit⟩ := exists_block rx (by omega)
  refine decides_slice (by decide) (by omega) (decides_step harray ?_)
  refine decides_unless (fun h => Vector.toList_inj.mp (hidm.trans h.2.2)) ?_
  rintro rfl
  obtain ⟨c1b, hc1b, hwrite⟩ := array_of_length (ε := Error) (n := 8)
    (length_take_drop (i := 10) (j := 18) (s := rx) (by omega))
  have hrest : (rx.drop 18).length = 8 := by rw [List.length_drop, hlen]
  obtain ⟨c2a, hc2a, hwrite'⟩ := array_of_length (ε := Error) hrest
  refine decides_slice (by decide) (by omega) (decides_step hc1b ?_)
  refine decides_step (slice_of_eq_length (by decide) hlen.symm) (decides_step hc2a ?_)
  refine decides_ok ⟨hanswers, hlen, hidm.symm⟩ ?_
  rw [hsplit, drop_eq_append rx (show 10 ≤ 18 by decide), ← hwrite, ← hwrite']
  exact Format.whole_write (f := blockFormat.seq (blockFormat.seq blockFormat))
    (a := (card.idm, c1b, c2a)) ⟨trivial, trivial, trivial⟩

/-- The response code is compared a second time, to no effect. -/
theorem readAuthentication2_decides (rx : List UInt8) :
    Decides (readAuthentication2 rx) (Answers rx (code.AUTHENTICATION2 + 1) ∧ rx.length = 34)
      fun auth2 => ((Format.array 32).whole (rx.drop 2)).map Vector.toList = some auth2 := by
  refine (expectResponseCode_decides rx _ _).bind And.left fun _ hanswers _ => ?_
  refine decides_unless (fun h => h.2) fun hlen => ?_
  refine decides_step (index_of_getElem? hanswers.2) (decides_unless (fun _ => rfl) fun _ => ?_)
  obtain ⟨auth2, -, hauth2⟩ := array_of_length (ε := Error) (n := 32) (s := rx.drop 2)
    (by rw [List.length_drop, hlen])
  rw [slice_of_eq_length (by omega) rfl]
  refine decides_ok ⟨hanswers, hlen⟩ ?_
  rw [← hauth2]
  exact congrArg (Option.map Vector.toList)
    (Format.whole_write (f := Format.array 32) (a := auth2) trivial)

/-! ### The six responses -/

/-- **Responses are read in full or refused**, whatever bytes the reader returns. -/
theorem responses_exact :
    ReadsExactly readRequestService (code.REQUEST_SERVICE + 1) CountsWords
        (fun bytes info => ∃ idm, (wordsFormat .wordLe).whole bytes = some (idm, info.keyVersions))
    ∧ ReadsExactly readRequestBlockInformation (code.REQUEST_BLOCK_INFORMATION + 1) CountsWords
        (fun bytes counts => ∃ idm, (wordsFormat .wordLe).whole bytes = some (idm, counts))
    ∧ ReadsExactly readRequestSystemCodes (code.REQUEST_SYSTEM_CODE + 1) CountsWords
        (fun bytes systems => ∃ idm, (wordsFormat .wordBe).whole bytes = some (idm, systems))
    ∧ ReadsExactly readRequestCodeList (code.REQUEST_CODE_LIST + 1) CountsCodes
        (fun bytes list => ∃ idm sf2, codeListFormat.whole bytes
          = some (idm, 0, sf2, list.continueFlag, list.areas, list.services))
    ∧ (∀ card : Card, ReadsExactly card.readAuthentication1 (code.AUTHENTICATION1 + 1)
        (fun rx => rx.length = 26 ∧ (rx.take 10).drop 2 = card.idm.toList)
        (fun bytes p => (blockFormat.seq (blockFormat.seq blockFormat)).whole bytes
          = some (card.idm, p)))
    ∧ ReadsExactly readAuthentication2 (code.AUTHENTICATION2 + 1) (fun rx => rx.length = 34)
        (fun bytes auth2 => ((Format.array 32).whole bytes).map Vector.toList = some auth2) :=
  ⟨readsExactly_of_decides readRequestService_decides,
    readsExactly_of_decides readRequestBlockInformation_decides,
    readsExactly_of_decides readRequestSystemCodes_decides,
    readsExactly_of_decides readRequestCodeList_decides,
    fun card => readsExactly_of_decides (readAuthentication1_decides card),
    readsExactly_of_decides readAuthentication2_decides⟩

end SuiCash.Usb
