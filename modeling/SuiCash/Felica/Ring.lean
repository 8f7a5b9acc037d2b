import SuiCash.Felica.Resent
import SuiCash.Lib.RingBuffer

/-!
# A ring of an emulated card over a run

The blocks of a cyclic service are a log.  `pushes` is what a run of commands brings to a vector:
the data of the elements that name it, a batch for each run of elements, of the writes that are
carried out.  `ring_only_pushed` says that the vector is then what these pushes make of it, and
`store_handle` and `applyBlockWrites_ring` say so of one command and of one block list.

All of it is about cards that share blocks exactly within service numbers, as the calls of a builder
that succeed leave them.
-/

namespace SuiCash.Felica

open Des Bytes Fallible Cipher

/-! ### One run of elements -/

theorem applyCyclicWrite_push {stored commandBlocks : List DataBlock} {written : CyclicWrite}
    (h : applyCyclicWrite stored commandBlocks = .ok written) :
    RingBuffer.push stored commandBlocks = match written with
      | .updated blocks => blocks
      | .unchanged => stored := by
  rw [applyCyclicWrite] at h
  simp only [guard_eq_ok, not_lt] at h
  obtain ⟨hlen, h⟩ := h
  rw [RingBuffer.push]
  split at h
  · rename_i hsame
    rw [if_pos hsame]
    obtain rfl := Except.ok.inj h
    rfl
  · rename_i hother
    rw [if_neg hother, List.take_append, List.take_of_length_le hlen]
    obtain rfl := Except.ok.inj h
    rfl

theorem applyRun_ring {bs bs' : List DataBlock} {run : List Planned}
    (hkind : ∀ write ∈ run, write.1.serviceAttribute.kind = .cyclic)
    (h : applyRun bs run = .ok bs') : bs' = RingBuffer.push bs (run.map Prod.snd) := by
  match run, h with
  | [], h =>
    obtain rfl := Except.ok.inj h
    exact (RingBuffer.push_nil bs).symm
  | first :: rest, h =>
    rw [applyRun, hkind first List.mem_cons_self] at h
    dsimp only at h
    split at h
    · cases h
    · split at h
      · next hring =>
        obtain rfl := Except.ok.inj h
        exact (applyCyclicWrite_push hring).symm
      · next hring =>
        obtain rfl := Except.ok.inj h
        exact (applyCyclicWrite_push hring).symm
      · cases h

/-! ### A block list -/

/-- A run of elements is for a vector. -/
def isFor (area : EmulatedArea) (ref : BlocksRef) (run : List Planned) : Bool :=
  run.any fun write => (area.findService write.1.serviceCode).any (·.blocks = ref)

/-- What runs of elements bring to a vector. -/
def batches (area : EmulatedArea) (ref : BlocksRef) (rs : List (List Planned)) :
    List (List DataBlock) :=
  (rs.filter (isFor area ref)).map (·.map Prod.snd)

theorem isFor_iff {area : EmulatedArea} {ref : BlocksRef} {run : List Planned} :
    isFor area ref run = true
      ↔ ∃ write ∈ run, ∃ s, area.findService write.1.serviceCode = some s ∧ s.blocks = ref := by
  simp only [isFor, List.any_eq_true, Option.any_eq_true, decide_eq_true_eq]

theorem exists_mem_stage {area : EmulatedArea} {store : Store} {planned : List Planned}
    {write : Planned} (hwrite : write ∈ planned) {s : EmulatedService}
    (hfind : area.findService write.1.serviceCode = some s) :
    ∃ entry ∈ stage area store planned, entry.number = write.1.serviceCode.number := by
  have hmem : ∀ {staged : List Staged} (other : Planned) {n : UInt16},
      (∃ entry ∈ staged, entry.number = n) → ∃ entry ∈ stageWrite area store staged other,
        entry.number = n := by
    rintro staged other n ⟨entry, hentry, hn⟩
    refine ⟨entry, ?_, hn⟩
    rw [stageWrite]
    split
    · exact hentry
    · split
      · exact hentry
      · exact List.mem_append_left _ hentry
  obtain ⟨before, after, rfl⟩ := List.append_of_mem hwrite
  rw [stage, List.foldl_append, List.foldl_cons]
  refine List.foldlRecOn (motive := fun staged : List Staged => ∃ entry ∈ staged,
    entry.number = write.1.serviceCode.number) after _ ?_ fun staged hstaged other _ =>
      hmem other hstaged
  rw [stageWrite]
  split
  · next hany =>
    obtain ⟨entry, hentry, hn⟩ := List.any_eq_true.mp hany
    exact ⟨entry, hentry, of_decide_eq_true hn⟩
  · rw [hfind]
    exact ⟨_, List.mem_append_right _ (List.mem_singleton_self _), rfl⟩

section Ring

variable {area : EmulatedArea} (hoverlap : Overlapping area) (hseparate : Separate area)
  {ref : BlocksRef} (hring : ∀ s ∈ area.services, s.blocks = ref → s.serviceCode.kind = some .cyclic)
  {serviceCodes : List ServiceCode} {requireAuthFree : Bool} {store : Store}
include hoverlap hseparate hring

theorem applyRunStaged_ring {ring : List DataBlock} {staged staged' : List Staged}
    {run : List Planned}
    (hwritable : ∀ write ∈ run, Writable area serviceCodes requireAuthFree write.1)
    (hnumber : ∀ first, run.head? = some first →
      ∀ write ∈ run, write.1.serviceCode.number = first.1.serviceCode.number)
    (hstaged : StagedFrom (fun _ bs => bs = ring) area store ref staged)
    (h : applyRunStaged staged run = .ok staged') :
    StagedFrom (fun _ bs => bs = (batches area ref [run]).foldl RingBuffer.push ring) area store ref
      staged' := by
  match run, h with
  | [], h =>
    obtain rfl := Except.ok.inj h
    exact hstaged
  | first :: rest, h =>
    have hnumber := hnumber first rfl
    intro entry' hentry'
    obtain ⟨entry, hentry, hcase⟩ := exists_of_mem_applyRunStaged h hentry'
    obtain ⟨⟨s, hs, hblocks, hn⟩, hkept⟩ := hstaged entry hentry
    -- the runs that are for the vector are those of the number of its services
    have hfor : entry.ref = ref → (isFor area ref (first :: rest) = true
        ↔ entry.number = first.1.serviceCode.number) := by
      intro href
      rw [isFor_iff]
      constructor
      · rintro ⟨write, hwrite, t, hfind, ht⟩
        obtain ⟨hmem, hcode⟩ := EmulatedArea.findService_mem hfind
        rw [← hn, ← hnumber write hwrite, ← hcode]
        exact hseparate s hs t hmem (hblocks.trans (href.trans ht.symm))
      · intro hsame
        obtain ⟨t, hfind, -⟩ := (hwritable first List.mem_cons_self).found
        obtain ⟨hmem, hcode⟩ := EmulatedArea.findService_mem hfind
        refine ⟨first, List.mem_cons_self, t, hfind, ?_⟩
        rw [← href, ← hblocks]
        exact hoverlap t hmem s hs (by rw [hcode, hn, hsame])
    rcases hcase with ⟨hsame, blocks, hrun, rfl⟩ | ⟨hother, rfl⟩
    · refine ⟨⟨s, hs, hblocks, hn⟩, fun href => ?_⟩
      have hfirst := (hfor href).mpr hsame
      rw [batches, List.filter_cons_of_pos hfirst]
      show blocks = RingBuffer.push ring ((first :: rest).map Prod.snd)
      rw [← hkept href]
      refine applyRun_ring (fun write hwrite => ?_) hrun
      obtain ⟨t, ht⟩ := (hwritable write hwrite).managed hoverlap
        ⟨s, hs, hblocks.trans href, hn.trans (hsame.trans (hnumber write hwrite).symm)⟩ rfl
      have hkind := hring t ht.mem ht.blocks
      rw [ht.kind_eq] at hkind
      exact Option.some.inj hkind
    · refine ⟨⟨s, hs, hblocks, hn⟩, fun href => ?_⟩
      have hnot : ¬ isFor area ref (first :: rest) = true := fun hfirst =>
        hother ((hfor href).mp hfirst)
      rw [batches, List.filter_cons_of_neg hnot]
      exact hkept href

theorem foldlM_ring {ring : List DataBlock} {staged staged' : List Staged}
    {rs : List (List Planned)}
    (hwritable : ∀ run ∈ rs, ∀ write ∈ run, Writable area serviceCodes requireAuthFree write.1)
    (hnumber : ∀ run ∈ rs, ∀ first, run.head? = some first →
      ∀ write ∈ run, write.1.serviceCode.number = first.1.serviceCode.number)
    (hstaged : StagedFrom (fun _ bs => bs = ring) area store ref staged)
    (h : rs.foldlM applyRunStaged staged = .ok staged') :
    StagedFrom (fun _ bs => bs = (batches area ref rs).foldl RingBuffer.push ring) area store ref
      staged' := by
  induction rs generalizing ring staged with
  | nil =>
    obtain rfl := Except.ok.inj h
    exact hstaged
  | cons run rs ih =>
    obtain ⟨staged1, hrun, h⟩ := bind_eq_ok.mp h
    obtain ⟨hwritable, hwritables⟩ := List.forall_mem_cons.mp hwritable
    obtain ⟨hnumber, hnumbers⟩ := List.forall_mem_cons.mp hnumber
    have hfirst := applyRunStaged_ring hoverlap hseparate hring hwritable hnumber hstaged hrun
    have hbatches : batches area ref (run :: rs) = batches area ref [run] ++ batches area ref rs := by
      rw [batches, ← List.singleton_append, List.filter_append, List.map_append]
      rfl
    rw [hbatches, List.foldl_append]
    exact ih hwritables hnumbers hfirst h

/-- **What a block list makes of a ring.** -/
theorem applyBlockWrites_ring {store' : Store} {blockList : List BlockListElement}
    {data : List UInt8} {planned : List Planned}
    (hplanned : planWrites area store serviceCodes data requireAuthFree 0 blockList = .ok planned)
    (h : applyBlockWrites area store serviceCodes blockList data requireAuthFree = .ok store') :
    store'.getD ref [] = (batches area ref (runs planned)).foldl RingBuffer.push (store.getD ref []) := by
  obtain ⟨_, staged, hplanned', hstaged, rfl⟩ := applyBlockWrites_eq_ok_iff.mp h
  obtain rfl := Except.ok.inj (hplanned.symm.trans hplanned')
  have hwritable := planWrites_writable hplanned
  have hstage : StagedFrom Eq area store ref (stage area store planned) :=
    stage_stagedFrom (fun _ => rfl) planned
  have hfirst : StagedFrom (fun _ bs => bs = store.getD ref []) area store ref
      (stage area store planned) := fun entry hentry =>
    ⟨(hstage entry hentry).1, fun href => ((hstage entry hentry).2 href).symm⟩
  have hring' := foldlM_ring hoverlap hseparate hring
    (fun run hrun write hwrite => hwritable write ((mem_runs hrun).1 write hwrite))
    (fun run hrun => (mem_runs hrun).2) hfirst hstaged
  by_cases hentry : ∃ entry ∈ staged, entry.ref = ref
  · obtain ⟨entry, hentry, href⟩ := hentry
    rw [← (hring' entry hentry).2 href, ← getD_commit_staged hseparate hstaged entry hentry, href]
  · -- a vector that nothing is staged for has no run of elements either
    rw [← commit_rel (R := Eq) (fun entry hmem href => absurd ⟨entry, hmem, href⟩ hentry) rfl]
    suffices hnone : batches area ref (runs planned) = [] by rw [hnone]; rfl
    rw [batches, List.map_eq_nil_iff, List.filter_eq_nil_iff]
    intro run hrun hfor
    obtain ⟨write, hwrite, t, hfind, ht⟩ := isFor_iff.mp hfor
    obtain ⟨hmem, hcode⟩ := EmulatedArea.findService_mem hfind
    obtain ⟨entry, hentry0, hn⟩ : ∃ entry ∈ stage area store planned,
        entry.number = write.1.serviceCode.number :=
      exists_mem_stage ((mem_runs hrun).1 write hwrite) hfind
    have hkey : entry.key ∈ staged.map Staged.key :=
      foldlM_keys hstaged ▸ List.mem_map_of_mem hentry0
    obtain ⟨entry', hentry', hsame⟩ := List.mem_map.mp hkey
    obtain ⟨⟨s, hs, hblocks, hn'⟩, -⟩ := hring' entry' hentry'
    refine hentry ⟨entry', hentry', ?_⟩
    rw [← hblocks, ← ht]
    refine hoverlap s hs t hmem ?_
    rw [hn', hcode, ← hn]
    exact (Prod.mk.inj hsame).1

end Ring

/-! ### A run of commands -/

namespace EmulatedSystem

/-- The elements of a write that is carried out; a write that is refused has none. -/
def elements (sys : EmulatedSystem) (w : BlockWrite) : List Planned :=
  if w.data.length < w.blockList.length * BLOCK_SIZE then []
  else
    match applyBlockWrites sys.rootArea sys.store w.serviceCodes w.blockList w.data
      w.requireAuthFree with
    | .error _ => []
    | .ok _ =>
      (planWrites sys.rootArea sys.store w.serviceCodes w.data w.requireAuthFree 0
        w.blockList).toOption.getD []

/-- What the commands of a run bring to a vector, in their order. -/
def pushes (crates : CipherCrates) (ref : BlocksRef) :
    EmulatedSystem → List Command → List (List DataBlock)
  | _, [] => []
  | sys, c :: cs =>
    ((sys.writeOf crates c).elim [] fun w => batches sys.rootArea ref (runs (sys.elements w)))
      ++ pushes crates ref (sys.handle crates c).2 cs

theorem written_ring {sys : EmulatedSystem} (hoverlap : Overlapping sys.rootArea)
    (hseparate : Separate sys.rootArea) {ref : BlocksRef}
    (hring : ∀ s ∈ sys.rootArea.services, s.blocks = ref → s.serviceCode.kind = some .cyclic)
    (w : BlockWrite) :
    (sys.written w).store.getD ref []
      = (batches sys.rootArea ref (runs (sys.elements w))).foldl RingBuffer.push
        (sys.store.getD ref []) := by
  rw [written, accessWrite, elements]
  split
  · rfl
  · cases h : applyBlockWrites sys.rootArea sys.store w.serviceCodes w.blockList w.data
      w.requireAuthFree with
    | error flags => rfl
    | ok store =>
      obtain ⟨planned, -, hplanned, -⟩ := applyBlockWrites_eq_ok_iff.mp h
      dsimp only
      rw [hplanned]
      exact applyBlockWrites_ring hoverlap hseparate hring hplanned h

variable {crates : CipherCrates} {cipher : KeyedPerm Block Block} (std : crates.Computes cipher)

include std in
/-- **A ring is only pushed.**  Over any commands, a vector that only cyclic services manage is what
the pushes of the run make of it: what it was, behind data of the elements that name it in the
writes that are carried out, the newest first, and cut to its length. -/
theorem ring_only_pushed {sys : EmulatedSystem} (hoverlap : Overlapping sys.rootArea)
    (hseparate : Separate sys.rootArea) {ref : BlocksRef}
    (hring : ∀ s ∈ sys.rootArea.services, s.blocks = ref → s.serviceCode.kind = some .cyclic)
    (cs : List Command) :
    (sys.after crates cs).store.getD ref []
        = (sys.pushes crates ref cs).foldl RingBuffer.push (sys.store.getD ref [])
      ∧ RingBuffer.Pushed (sys.pushes crates ref cs).reverse.flatten (sys.store.getD ref [])
        ((sys.after crates cs).store.getD ref []) := by
  have hlog : (sys.after crates cs).store.getD ref []
      = (sys.pushes crates ref cs).foldl RingBuffer.push (sys.store.getD ref []) := by
    induction cs generalizing sys with
    | nil => rfl
    | cons c cs ih =>
      have harea := (handled std sys c).sameCard.rootArea
      rw [after_cons, pushes, List.foldl_append,
        ih (by rwa [harea]) (by rwa [harea]) (by rwa [harea]), store_handle std]
      congr 1
      cases sys.writeOf crates c with
      | none => rfl
      | some w => exact written_ring hoverlap hseparate hring w
  exact ⟨hlog, hlog ▸ RingBuffer.pushed_foldl _ _⟩

theorem ring_only_pushed_fixture :
    (Fixture.purses.after nativeCrates Fixture.writes).store.getD 2 [] = [Vector.replicate 16 0x05] := by
  have hpushes : Fixture.purses.pushes nativeCrates 2 Fixture.writes = [[Vector.replicate 16 0x05]] := by
    decide
  rw [(ring_only_pushed nativeCrates_computes Fixture.overlapping_purses Fixture.separate_purses
    (by decide) _).1, hpushes]
  rfl

end EmulatedSystem

end SuiCash.Felica
