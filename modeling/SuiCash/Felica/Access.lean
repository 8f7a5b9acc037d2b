import SuiCash.Felica.Blocks
import Mathlib.Data.List.SplitBy

/-!
# Block access of an emulated card

The checks of `emulator/system.rs` on a block list element, and the write of a whole
block list.  A write is planned element by element before anything is stored; the
blocks of each service number are staged, the elements are applied to the staged blocks
in runs of one number, and only then are the staged blocks put in place.  An error on
the way leaves the store as it was.
-/

namespace SuiCash.Felica

open Bytes Fallible

/-! ### Block lists -/

structure BlockListElement where
  blockNumberOrKeyVersion : UInt16
  serviceCodeListIndex : UInt8
  accessMode : UInt8
  deriving DecidableEq

inductive AccessType where
  | read
  | write
  deriving DecidableEq

structure ValidatedBlock where
  position : UInt8
  serviceCode : ServiceCode
  serviceAttribute : ServiceAttribute
  blockNumber : ℕ
  accessMode : UInt8
  limitPurse : Option LimitPurseProperty
  deriving DecidableEq

abbrev StatusFlags := UInt8 × UInt8

def listErrorIndex (index : ℕ) : UInt8 :=
  let value := index + 1
  if value > 255 then 255 else UInt8.ofNat value

def SYSTEM_NODE_CODE : UInt16 := 0xFFFF

def BLOCK_SIZE : ℕ := 16

abbrev Store := List (List DataBlock)

/-- The blocks a service manages. -/
def Store.blocksOf (store : Store) (s : EmulatedService) : List DataBlock :=
  store.getD s.blocks []

def validateBlockElement (rootArea : EmulatedArea) (store : Store)
    (serviceCodes : List ServiceCode) (index : ℕ) (block : BlockListElement) (access : AccessType)
    (requireAuthFree : Bool) : Except StatusFlags ValidatedBlock :=
  let position := listErrorIndex index
  match serviceCodes[block.serviceCodeListIndex.toNat]? with
  | none => .error (position, 0xA3)
  | some serviceCode =>
    let accessModeAllowed : Bool :=
      match access with
      | .read => block.accessMode = 0b000
      | .write => block.accessMode = 0b000 ∨ block.accessMode = 0b001
    if ¬ accessModeAllowed then .error (position, 0xA7)
    else if serviceCode.raw = SYSTEM_NODE_CODE then .error (position, 0xA4)
    else
      match serviceCode.serviceAttribute with
      | none => .error (position, 0xA4)
      | some serviceAttribute =>
        match rootArea.findService serviceCode with
        | none => .error (position, 0xA6)
        | some service =>
          if requireAuthFree ∧ serviceCode.requiresKey then .error (position, 0xA5)
          else if access = .write ∧ ¬ serviceAttribute.allowsWrite then .error (position, 0xA5)
          else if access = .write ∧ block.accessMode = 0b001 ∧ ¬ serviceAttribute.allowsCashback then
            .error (position, 0xA5)
          else if access = .read ∧ block.accessMode ≠ 0b000 then .error (position, 0xA7)
          else
            let blockNumber := block.blockNumberOrKeyVersion.toNat
            if blockNumber ≥ (store.blocksOf service).length then .error (position, 0xA8)
            else
              .ok ⟨position, serviceCode, serviceAttribute, blockNumber, block.accessMode,
                service.limitPurse⟩

/-- `handle_read` and `handle_secure_read`: the blocks of the elements, in order; the check of
an element has found its service. -/
def readBlocks (rootArea : EmulatedArea) (store : Store) (serviceCodes : List ServiceCode)
    (requireAuthFree : Bool) : ℕ → List BlockListElement → Except StatusFlags (List DataBlock)
  | _, [] => .ok []
  | index, element :: rest => do
    let validated ←
      validateBlockElement rootArea store serviceCodes index element .read requireAuthFree
    let blocks ← readBlocks rootArea store serviceCodes requireAuthFree (index + 1) rest
    match rootArea.findService validated.serviceCode with
    | none => .ok blocks
    | some service =>
      .ok ((store.blocksOf service).getD validated.blockNumber (Vector.replicate 16 0) :: blocks)

/-! ### A write of a block list -/

/-- The sixteen bytes of an element; the callers check that the data has them. -/
def dataBlock (data : List UInt8) (index : ℕ) : DataBlock :=
  Vector.ofFn fun i => data.getD (index * BLOCK_SIZE + i) 0

abbrev Planned := ValidatedBlock × DataBlock

def planWrites (rootArea : EmulatedArea) (store : Store) (serviceCodes : List ServiceCode)
    (data : List UInt8) (requireAuthFree : Bool) : ℕ → List BlockListElement → Except StatusFlags (List Planned)
  | _, [] => .ok []
  | index, element :: rest => do
    let validated ←
      validateBlockElement rootArea store serviceCodes index element .write requireAuthFree
    let planned ← planWrites rootArea store serviceCodes data requireAuthFree (index + 1) rest
    .ok ((validated, dataBlock data index) :: planned)

/-- The blocks staged for one service number, and where they go. -/
structure Staged where
  number : UInt16
  ref : BlocksRef
  blocks : List DataBlock

/-- The first element of each number stages the blocks of its service. -/
def stageWrite (rootArea : EmulatedArea) (store : Store) (staged : List Staged) (write : Planned) :
    List Staged :=
  let number := write.1.serviceCode.number
  if staged.any (·.number = number) then staged
  else match rootArea.findService write.1.serviceCode with
    | none => staged
    | some service => staged ++ [⟨number, service.blocks, store.blocksOf service⟩]

def stage (rootArea : EmulatedArea) (store : Store) (planned : List Planned) : List Staged :=
  planned.foldl (stageWrite rootArea store) []

/-- One element of a run of a purse. -/
def applyPurseElement (blocks : List DataBlock) (write : Planned) :
    Except StatusFlags (List DataBlock) := do
  let operation ← (PurseOperation.resolve write.1.serviceAttribute write.1.accessMode).mapError
    fun sf2 => (write.1.position, sf2)
  let stored := blocks.getD write.1.blockNumber (Vector.replicate 16 0)
  let result ← (applyPurseWrite stored write.2 operation write.1.limitPurse).mapError
    fun sf2 => (write.1.position, sf2)
  match result with
  | some updated => .ok (blocks.set write.1.blockNumber updated)
  | none => .ok blocks

/-- The elements of a run on the blocks that are staged for their number.  Where services of one
number share their blocks, the check of an element has its block in range; elsewhere it need not
be, and then the code panics where this leaves the blocks as they are. -/
def applyRun (blocks : List DataBlock) : List Planned → Except StatusFlags (List DataBlock)
  | [] => .ok blocks
  | first :: rest =>
    let run := first :: rest
    match first.1.serviceAttribute.kind with
    | .random => .ok (run.foldl (fun blocks write => blocks.set write.1.blockNumber write.2) blocks)
    | .cyclic =>
      match run.find? (·.1.blockNumber ≠ 0) with
      | some write => .error (write.1.position, 0xA5)
      | none =>
        match applyCyclicWrite blocks (run.map Prod.snd) with
        | .ok (.updated updated) => .ok updated
        | .ok .unchanged => .ok blocks
        | .error sf2 => .error (first.1.position, sf2)
    | .purse => run.foldlM applyPurseElement blocks

/-- A run on the staged blocks of its number. -/
def applyRunStaged (staged : List Staged) (run : List Planned) :
    Except StatusFlags (List Staged) :=
  match run with
  | [] => .ok staged
  | first :: _ =>
    staged.mapM fun entry =>
      if entry.number = first.1.serviceCode.number then do
        let blocks ← applyRun entry.blocks run
        .ok { entry with blocks }
      else .ok entry

def commit (store : Store) (staged : List Staged) : Store :=
  staged.foldl (fun store entry => store.set entry.ref entry.blocks) store

/-- Elements of one service number that follow each other are one run. -/
def runs (planned : List Planned) : List (List Planned) :=
  planned.splitBy fun a b => a.1.serviceCode.number == b.1.serviceCode.number

def applyBlockWrites (rootArea : EmulatedArea) (store : Store) (serviceCodes : List ServiceCode)
    (blockList : List BlockListElement) (data : List UInt8) (requireAuthFree : Bool) :
    Except StatusFlags Store := do
  let planned ← planWrites rootArea store serviceCodes data requireAuthFree 0 blockList
  let staged ← (runs planned).foldlM applyRunStaged (stage rootArea store planned)
  .ok (commit store staged)

theorem applyBlockWrites_eq_ok_iff {rootArea : EmulatedArea} {store store' : Store}
    {serviceCodes : List ServiceCode} {blockList : List BlockListElement} {data : List UInt8}
    {requireAuthFree : Bool} :
    applyBlockWrites rootArea store serviceCodes blockList data requireAuthFree = .ok store'
      ↔ ∃ planned staged,
        planWrites rootArea store serviceCodes data requireAuthFree 0 blockList = .ok planned
        ∧ (runs planned).foldlM applyRunStaged (stage rootArea store planned) = .ok staged
        ∧ store' = commit store staged := by
  rw [applyBlockWrites, bind_eq_ok]
  simp only [bind_eq_ok, Except.ok.injEq]
  constructor
  · rintro ⟨planned, hplanned, staged, hstaged, rfl⟩
    exact ⟨planned, staged, hplanned, hstaged, rfl⟩
  · rintro ⟨planned, staged, hplanned, hstaged, rfl⟩
    exact ⟨planned, hplanned, staged, hstaged, rfl⟩

/-! ### What a checked element says -/

/-- An element that passed the checks for a write. -/
structure Writable (rootArea : EmulatedArea) (serviceCodes : List ServiceCode)
    (requireAuthFree : Bool) (v : ValidatedBlock) : Prop where
  listed : v.serviceCode ∈ serviceCodes
  attribute_eq : v.serviceCode.serviceAttribute = some v.serviceAttribute
  allowsWrite : v.serviceAttribute.allowsWrite = true
  authFree : requireAuthFree = true → v.serviceCode.requiresKey = false
  found : ∃ s, rootArea.findService v.serviceCode = some s ∧ v.limitPurse = s.limitPurse

theorem validateBlockElement_writable {rootArea : EmulatedArea} {store : Store}
    {serviceCodes : List ServiceCode} {index : ℕ} {block : BlockListElement}
    {requireAuthFree : Bool} {v : ValidatedBlock}
    (h : validateBlockElement rootArea store serviceCodes index block .write requireAuthFree = .ok v) :
    Writable rootArea serviceCodes requireAuthFree v := by
  unfold validateBlockElement at h
  dsimp only at h
  cases hcode : serviceCodes[block.serviceCodeListIndex.toNat]? with
  | none => rw [hcode] at h; cases h
  | some code =>
    rw [hcode] at h
    simp only [guard_eq_ok] at h
    obtain ⟨-, -, h⟩ := h
    cases hattr : code.serviceAttribute with
    | none => rw [hattr] at h; cases h
    | some serviceAttribute =>
      rw [hattr] at h
      cases hfind : rootArea.findService code with
      | none => rw [hfind] at h; cases h
      | some service =>
        rw [hfind] at h
        simp only [guard_eq_ok, Except.ok.injEq] at h
        obtain ⟨hfree, hwrite, -, -, -, rfl⟩ := h
        exact {
          listed := List.mem_of_getElem? hcode
          attribute_eq := hattr
          allowsWrite := by simpa using hwrite
          authFree := by simpa using hfree
          found := ⟨service, hfind, rfl⟩ }

theorem planWrites_writable {rootArea : EmulatedArea} {store : Store}
    {serviceCodes : List ServiceCode} {data : List UInt8} {requireAuthFree : Bool} {index : ℕ}
    {blockList : List BlockListElement} {planned : List Planned}
    (h : planWrites rootArea store serviceCodes data requireAuthFree index blockList = .ok planned) :
    ∀ write ∈ planned, Writable rootArea serviceCodes requireAuthFree write.1 := by
  induction blockList generalizing index planned with
  | nil =>
    obtain rfl := Except.ok.inj h
    intro write hwrite
    cases hwrite
  | cons element rest ih =>
    rw [planWrites, bind_eq_ok] at h
    obtain ⟨v, hv, h⟩ := h
    obtain ⟨tail, htail, h⟩ := bind_eq_ok.mp h
    obtain rfl := Except.ok.inj h
    rw [List.forall_mem_cons]
    exact ⟨validateBlockElement_writable hv, ih htail⟩

/-! ### What is staged -/

/-- An entry is staged for the service of a planned element. -/
theorem exists_of_mem_stage {rootArea : EmulatedArea} {store : Store} {planned : List Planned}
    {entry : Staged} (h : entry ∈ stage rootArea store planned) :
    ∃ write ∈ planned, ∃ s, rootArea.findService write.1.serviceCode = some s
      ∧ entry = ⟨write.1.serviceCode.number, s.blocks, store.blocksOf s⟩ := by
  rw [stage] at h
  refine List.foldlRecOn (motive := fun staged : List Staged => ∀ entry ∈ staged, ∃ write ∈ planned,
    ∃ s, rootArea.findService write.1.serviceCode = some s
      ∧ entry = ⟨write.1.serviceCode.number, s.blocks, store.blocksOf s⟩) planned _ ?_
    (fun staged hstaged write hwrite => ?_) entry h
  · intro entry hentry
    cases hentry
  · rw [stageWrite]
    split
    · exact hstaged
    · cases hfind : rootArea.findService write.1.serviceCode with
      | none => exact hstaged
      | some s =>
        intro entry hentry
        rcases List.mem_append.mp hentry with hentry | hentry
        · exact hstaged entry hentry
        · obtain rfl := List.mem_singleton.mp hentry
          exact ⟨write, hwrite, s, hfind, rfl⟩

/-- The number of a staged entry, and where it goes. -/
def Staged.key (entry : Staged) : UInt16 × BlocksRef := (entry.number, entry.ref)

theorem applyRunStaged_keys {staged staged' : List Staged} {run : List Planned}
    (h : applyRunStaged staged run = .ok staged') : staged'.map Staged.key = staged.map Staged.key := by
  cases run with
  | nil =>
    obtain rfl := Except.ok.inj h
    rfl
  | cons first rest =>
    have hall := mapM_eq_ok_iff.mp h
    clear h
    induction hall with
    | nil => rfl
    | cons hf _ ih =>
      rw [List.map_cons, List.map_cons, ih]
      congr 1
      split at hf
      · obtain ⟨blocks, -, hf⟩ := bind_eq_ok.mp hf
        rw [← Except.ok.inj hf]
        rfl
      · rw [← Except.ok.inj hf]

theorem foldlM_keys {staged staged' : List Staged} {rs : List (List Planned)}
    (h : rs.foldlM applyRunStaged staged = .ok staged') :
    staged'.map Staged.key = staged.map Staged.key :=
  foldlM_invariant (I := fun staged' : List Staged =>
    staged'.map Staged.key = staged.map Staged.key) (fun _ hf hI => (applyRunStaged_keys hf).trans hI)
    rfl h

/-! ### What a write does to one block vector -/

section OneVector

variable {R : List DataBlock → List DataBlock → Prop} {rootArea : EmulatedArea} {store : Store}
  {ref : BlocksRef}

/-- Staged blocks belong to a service of the number they are staged for, and those for `ref`
have come from the stored ones. -/
def StagedFrom (R : List DataBlock → List DataBlock → Prop) (rootArea : EmulatedArea)
    (store : Store) (ref : BlocksRef) (staged : List Staged) : Prop :=
  ∀ entry ∈ staged,
    (∃ s ∈ rootArea.services, s.blocks = entry.ref ∧ s.serviceCode.number = entry.number)
      ∧ (entry.ref = ref → R (store.getD ref []) entry.blocks)

theorem stage_stagedFrom (hrefl : ∀ bs, R bs bs) (planned : List Planned) :
    StagedFrom R rootArea store ref (stage rootArea store planned) := by
  intro entry hentry
  obtain ⟨write, -, s, hfind, rfl⟩ := exists_of_mem_stage hentry
  obtain ⟨hmem, hcode⟩ := EmulatedArea.findService_mem hfind
  refine ⟨⟨s, hmem, rfl, by rw [hcode]⟩, ?_⟩
  rintro rfl
  exact hrefl _

theorem applyRunStaged_stagedFrom (htrans : ∀ {as bs cs}, R as bs → R bs cs → R as cs)
    {staged staged' : List Staged} {run : List Planned}
    (hrun : ∀ {bs bs' : List DataBlock} {n : UInt16},
      (∃ s ∈ rootArea.services, s.blocks = ref ∧ s.serviceCode.number = n) →
      (∀ first, run.head? = some first → first.1.serviceCode.number = n) →
      applyRun bs run = .ok bs' → R bs bs')
    (hstaged : StagedFrom R rootArea store ref staged)
    (h : applyRunStaged staged run = .ok staged') : StagedFrom R rootArea store ref staged' := by
  match run, h with
  | [], h =>
    obtain rfl := Except.ok.inj h
    exact hstaged
  | first :: rest, h =>
    intro entry' hentry'
    obtain ⟨entry, hentry, hf⟩ := exists_of_mem_mapM h hentry'
    obtain ⟨hservice, hR⟩ := hstaged entry hentry
    by_cases hn : entry.number = first.1.serviceCode.number
    · rw [if_pos hn, bind_eq_ok] at hf
      obtain ⟨blocks, hblocks, hf⟩ := hf
      obtain rfl := Except.ok.inj hf
      refine ⟨hservice, fun href => htrans (hR href) ?_⟩
      obtain ⟨s, hs, hsref, hsn⟩ := hservice
      refine hrun ⟨s, hs, hsref.trans href, hsn⟩ ?_ hblocks
      rintro _ ⟨⟩
      exact hn.symm
    · rw [if_neg hn] at hf
      obtain rfl := Except.ok.inj hf
      exact ⟨hservice, hR⟩

theorem commit_rel {base : List DataBlock} {staged : List Staged}
    (hstaged : ∀ entry ∈ staged, entry.ref = ref → R base entry.blocks)
    (hbase : R base (store.getD ref [])) : R base ((commit store staged).getD ref []) := by
  rw [commit]
  refine List.foldlRecOn (motive := fun st : Store => R base (st.getD ref [])) staged _ hbase
    fun st hst entry hentry => ?_
  rw [List.getD_eq_getElem?_getD] at hst ⊢
  by_cases href : entry.ref = ref
  · rw [href, List.getElem?_set]
    by_cases hlt : ref < st.length
    · rw [if_pos rfl, if_pos hlt]
      exact hstaged entry hentry href
    · rw [if_pos rfl, if_neg hlt]
      rwa [List.getElem?_eq_none (Nat.le_of_not_lt hlt)] at hst
  · rw [List.getElem?_set_ne href]
    exact hst

theorem mem_runs {planned run : List Planned} (h : run ∈ runs planned) :
    (∀ write ∈ run, write ∈ planned)
      ∧ ∀ first, run.head? = some first →
        ∀ write ∈ run, write.1.serviceCode.number = first.1.serviceCode.number := by
  refine ⟨fun write hwrite => ?_, fun first hfirst => ?_⟩
  · rw [← List.flatten_splitBy (fun a b : Planned =>
      a.1.serviceCode.number == b.1.serviceCode.number) planned]
    exact List.mem_flatten.mpr ⟨run, h, hwrite⟩
  · have hchain := List.isChain_of_mem_splitBy h
    match run, hfirst, hchain with
    | head :: rest, hfirst, hchain =>
      obtain rfl := Option.some.inj hfirst
      have hsame : (head :: rest).IsChain fun a b : Planned =>
          a.1.serviceCode.number = b.1.serviceCode.number :=
        hchain.imp fun _ _ hab => beq_iff_eq.mp hab
      have htrans : Trans (fun a b : Planned => a.1.serviceCode.number = b.1.serviceCode.number)
          (fun a b : Planned => a.1.serviceCode.number = b.1.serviceCode.number)
          (fun a b : Planned => a.1.serviceCode.number = b.1.serviceCode.number) := ⟨Eq.trans⟩
      intro write hwrite
      rcases List.mem_cons.mp hwrite with rfl | hwrite
      · rfl
      · exact (hsame.rel_cons hwrite).symm

theorem foldlM_stagedFrom (hrefl : ∀ bs, R bs bs)
    (htrans : ∀ {as bs cs}, R as bs → R bs cs → R as cs) {P : Planned → Prop}
    {planned : List Planned} (hplanned : ∀ write ∈ planned, P write)
    (hrun : ∀ {bs bs' : List DataBlock} {run : List Planned} {n : UInt16},
      (∃ s ∈ rootArea.services, s.blocks = ref ∧ s.serviceCode.number = n) →
      (∀ write ∈ run, P write ∧ write.1.serviceCode.number = n) →
      applyRun bs run = .ok bs' → R bs bs')
    {staged : List Staged}
    (h : (runs planned).foldlM applyRunStaged (stage rootArea store planned) = .ok staged) :
    StagedFrom R rootArea store ref staged := by
  refine foldlM_invariant (I := StagedFrom R rootArea store ref) (fun hmem hf hI => ?_)
    (stage_stagedFrom hrefl planned) h
  obtain ⟨hsub, hnumber⟩ := mem_runs hmem
  refine applyRunStaged_stagedFrom (R := R) htrans (fun {bs bs' n} hs hfirst hr => ?_) hI hf
  refine hrun hs (fun write hwrite => ⟨hplanned write (hsub write hwrite), ?_⟩) hr
  obtain ⟨first, rest, rfl⟩ := List.exists_cons_of_ne_nil (List.ne_nil_of_mem hwrite)
  rw [hnumber first rfl write hwrite]
  exact hfirst first rfl

/-- A reflexive and transitive relation that every run of writes keeps is kept by the write of
a block list, on each block vector: the runs in question are those of checked elements with the
number of a service that manages it. -/
theorem applyBlockWrites_rel (hrefl : ∀ bs, R bs bs)
    (htrans : ∀ {as bs cs}, R as bs → R bs cs → R as cs) {serviceCodes : List ServiceCode}
    {blockList : List BlockListElement} {data : List UInt8} {requireAuthFree : Bool}
    (hrun : ∀ {bs bs' : List DataBlock} {run : List Planned} {n : UInt16},
      (∃ s ∈ rootArea.services, s.blocks = ref ∧ s.serviceCode.number = n) →
      (∀ write ∈ run, Writable rootArea serviceCodes requireAuthFree write.1
        ∧ write.1.serviceCode.number = n) →
      applyRun bs run = .ok bs' → R bs bs')
    {store' : Store}
    (h : applyBlockWrites rootArea store serviceCodes blockList data requireAuthFree = .ok store') :
    R (store.getD ref []) (store'.getD ref []) := by
  obtain ⟨planned, staged, hplanned, hstaged, rfl⟩ := applyBlockWrites_eq_ok_iff.mp h
  have hfrom := foldlM_stagedFrom hrefl htrans (planWrites_writable hplanned) hrun hstaged
  exact commit_rel (fun entry hentry => (hfrom entry hentry).2) (hrefl _)

/-- A vector that no service manages whose elements pass the checks is left as it is. -/
theorem applyBlockWrites_untouched {serviceCodes : List ServiceCode}
    {blockList : List BlockListElement} {data : List UInt8} {requireAuthFree : Bool}
    (hnone : ∀ v s, Writable rootArea serviceCodes requireAuthFree v →
      rootArea.findService v.serviceCode = some s → s.blocks ≠ ref) {store' : Store}
    (h : applyBlockWrites rootArea store serviceCodes blockList data requireAuthFree = .ok store') :
    store'.getD ref [] = store.getD ref [] := by
  obtain ⟨planned, staged, hplanned, hstaged, rfl⟩ := applyBlockWrites_eq_ok_iff.mp h
  refine (commit_rel (R := Eq) (fun entry hentry href => ?_) rfl).symm
  have hkey : entry.key ∈ (stage rootArea store planned).map Staged.key :=
    foldlM_keys hstaged ▸ List.mem_map_of_mem hentry
  obtain ⟨entry', hentry', hsame⟩ := List.mem_map.mp hkey
  obtain ⟨write, hwrite, s, hfind, rfl⟩ := exists_of_mem_stage hentry'
  exact absurd ((Prod.mk.inj hsame).2.trans href)
    (hnone _ s (planWrites_writable hplanned write hwrite) hfind)

end OneVector

end SuiCash.Felica
