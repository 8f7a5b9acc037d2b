import SuiCash.Felica.Session

/-!
# The blocks of an emulated card over a run

What the commands of a run, in any order and from anyone, can do to one block vector.
`store_handle` says what one command does to the blocks.  What one run of writes keeps of a
vector (`applyRun_purse`) is carried to the write of a block list by `applyBlockWrites_rel` and to
a run of commands by `store_after`.

* `purse_never_gains`: what an ordinary purse holds and would give back are together never more
  than they were.
* `limit_purse_within`: a limit purse that is within its limits stays there.
* `unnamed_untouched`: a vector that can only be written with a key is not changed while no
  authentication names a service that writes it.

The first two are about systems whose services of one number share their blocks.  A system has
that after an `add_service` or `add_area` that succeeds.  One that fails leaves its node with
blocks of its own, and there a write stages the blocks of the first service named of a number for
all of them.
-/

namespace SuiCash.Felica

open Des Bytes Fallible Cipher

/-! ### Services of one number -/

/-- Services of one number share their blocks. -/
def Overlapping (area : EmulatedArea) : Prop :=
  ∀ s ∈ area.services, ∀ s' ∈ area.services,
    s.serviceCode.number = s'.serviceCode.number → s.blocks = s'.blocks

instance (area : EmulatedArea) : Decidable (Overlapping area) :=
  inferInstanceAs (Decidable (∀ s ∈ area.services, ∀ s' ∈ area.services,
    s.serviceCode.number = s'.serviceCode.number → s.blocks = s'.blocks))

/-- Services that share their blocks are of one number. -/
def Separate (area : EmulatedArea) : Prop :=
  ∀ s ∈ area.services, ∀ s' ∈ area.services,
    s.blocks = s'.blocks → s.serviceCode.number = s'.serviceCode.number

instance (area : EmulatedArea) : Decidable (Separate area) :=
  inferInstanceAs (Decidable (∀ s ∈ area.services, ∀ s' ∈ area.services,
    s.blocks = s'.blocks → s.serviceCode.number = s'.serviceCode.number))

/-- A checked element whose service manages a block vector. -/
structure Managed (area : EmulatedArea) (ref : BlocksRef) (serviceCodes : List ServiceCode)
    (requireAuthFree : Bool) (v : ValidatedBlock) (s : EmulatedService) : Prop
    extends Writable area serviceCodes requireAuthFree v where
  mem : s ∈ area.services
  blocks : s.blocks = ref
  code : s.serviceCode = v.serviceCode
  limit : v.limitPurse = s.limitPurse

theorem Writable.managed {area : EmulatedArea} (hoverlap : Overlapping area) {ref : BlocksRef}
    {n : UInt16} (hservice : ∃ s ∈ area.services, s.blocks = ref ∧ s.serviceCode.number = n)
    {serviceCodes : List ServiceCode} {requireAuthFree : Bool} {v : ValidatedBlock}
    (h : Writable area serviceCodes requireAuthFree v) (hn : v.serviceCode.number = n) :
    ∃ s, Managed area ref serviceCodes requireAuthFree v s := by
  obtain ⟨s, hs, hblocks, hnumber⟩ := hservice
  obtain ⟨s', hfind, hlimit⟩ := h.found
  obtain ⟨hs', hcode⟩ := EmulatedArea.findService_mem hfind
  refine ⟨s', { toWritable := h, mem := hs', blocks := ?_, code := hcode, limit := hlimit }⟩
  rw [← hblocks]
  exact hoverlap s' hs' s hs (by rw [hcode, hn, hnumber])

theorem Managed.kind_eq {area : EmulatedArea} {ref : BlocksRef} {serviceCodes : List ServiceCode}
    {requireAuthFree : Bool} {v : ValidatedBlock} {s : EmulatedService}
    (h : Managed area ref serviceCodes requireAuthFree v s) :
    s.serviceCode.kind = some v.serviceAttribute.kind := by
  rw [h.code, ServiceCode.kind, h.attribute_eq]
  rfl

/-- What the writes of checked elements keep of a block vector. -/
def KeptBy (area : EmulatedArea) (ref : BlocksRef) (serviceCodes : List ServiceCode)
    (requireAuthFree : Bool) (R : List DataBlock → List DataBlock → Prop) : Prop :=
  ∀ (bs bs' : List DataBlock) (run : List Planned),
    (∀ write ∈ run, ∃ s, Managed area ref serviceCodes requireAuthFree write.1 s) →
    applyRun bs run = .ok bs' → R bs bs'

theorem KeptBy.applyBlockWrites {area : EmulatedArea} (hoverlap : Overlapping area)
    {ref : BlocksRef} {serviceCodes : List ServiceCode} {requireAuthFree : Bool}
    {R : List DataBlock → List DataBlock → Prop} (hrefl : ∀ bs, R bs bs)
    (htrans : ∀ {as bs cs}, R as bs → R bs cs → R as cs)
    (hkept : KeptBy area ref serviceCodes requireAuthFree R) {store store' : Store}
    {blockList : List BlockListElement} {data : List UInt8}
    (h : applyBlockWrites area store serviceCodes blockList data requireAuthFree = .ok store') :
    R (store.getD ref []) (store'.getD ref []) :=
  applyBlockWrites_rel hrefl htrans
    (fun hservice hwrites hrun => hkept _ _ _ (fun write hwrite =>
      (hwrites write hwrite).1.managed hoverlap hservice (hwrites write hwrite).2) hrun) h

/-! ### One run of writes -/

theorem forall₂_set {α : Type} {r : α → α → Prop} (hrefl : ∀ a, r a a) (bs : List α) (i : ℕ)
    {b d : α} (h : r (bs.getD i d) b) : List.Forall₂ r bs (bs.set i b) := by
  induction bs generalizing i with
  | nil => exact .nil
  | cons a bs ih =>
    cases i with
    | zero => exact .cons h (List.forall₂_same.mpr fun a _ => hrefl a)
    | succ i => exact .cons (hrefl a) (ih i h)

theorem forall₂_trans {α : Type} {r : α → α → Prop} (htrans : ∀ {a b c}, r a b → r b c → r a c)
    {as bs cs : List α} (h : List.Forall₂ r as bs) (h' : List.Forall₂ r bs cs) :
    List.Forall₂ r as cs := by
  induction h generalizing cs with
  | nil => exact h'
  | cons hab _ ih =>
    cases h' with
    | cons hbc htail => exact .cons (htrans hab hbc) (ih htail)

theorem forall₂_right {α : Type} {P : α → Prop} {as bs : List α}
    (h : List.Forall₂ (fun a b => P a → P b) as bs) (has : ∀ a ∈ as, P a) : ∀ b ∈ bs, P b := by
  induction h with
  | nil => exact has
  | cons hab _ ih =>
    rw [List.forall_mem_cons] at has ⊢
    exact ⟨hab has.1, ih has.2⟩

/-- A run of purse writes does to each block what one write can do. -/
theorem applyRun_purse {r : DataBlock → DataBlock → Prop} (hrefl : ∀ b, r b b)
    (htrans : ∀ {a b c}, r a b → r b c → r a c) {bs bs' : List DataBlock} {run : List Planned}
    (hkind : ∀ write ∈ run, write.1.serviceAttribute.kind = .purse)
    (hone : ∀ write ∈ run, ∀ {stored updated : DataBlock} {operation : PurseOperation},
      applyPurseWrite stored write.2 operation write.1.limitPurse = .ok (some updated) →
      r stored updated)
    (h : applyRun bs run = .ok bs') : List.Forall₂ r bs bs' := by
  match run, h with
  | [], h =>
    obtain rfl := Except.ok.inj h
    exact List.forall₂_same.mpr fun b _ => hrefl b
  | first :: rest, h =>
    rw [applyRun, hkind first List.mem_cons_self] at h
    refine foldlM_invariant (I := fun bs' => List.Forall₂ r bs bs') (fun {a b c} hmem hf hI => ?_)
      (List.forall₂_same.mpr fun b _ => hrefl b) h
    obtain ⟨operation, -, hf⟩ := bind_eq_ok.mp hf
    obtain ⟨result, hwrite, hf⟩ := bind_eq_ok.mp hf
    rw [mapError_eq_ok] at hwrite
    cases result with
    | none =>
      obtain rfl := Except.ok.inj hf
      exact hI
    | some updated =>
      obtain rfl := Except.ok.inj hf
      exact forall₂_trans (r := r) htrans hI (forall₂_set hrefl _ _ (hone _ hmem hwrite))

theorem KeptBy.purse {area : EmulatedArea} {ref : BlocksRef} {limit : Option LimitPurseProperty}
    (hpurse : ∀ s ∈ area.services, s.blocks = ref →
      s.serviceCode.kind = some .purse ∧ s.limitPurse = limit)
    {r : DataBlock → DataBlock → Prop} (hrefl : ∀ b, r b b)
    (htrans : ∀ {a b c}, r a b → r b c → r a c)
    (hone : ∀ {stored command updated : DataBlock} {operation : PurseOperation},
      applyPurseWrite stored command operation limit = .ok (some updated) → r stored updated)
    {serviceCodes : List ServiceCode} {requireAuthFree : Bool} :
    KeptBy area ref serviceCodes requireAuthFree (List.Forall₂ r) := by
  intro bs bs' run hwrites hrun
  have hmanaged : ∀ write ∈ run, write.1.serviceAttribute.kind = .purse
      ∧ write.1.limitPurse = limit := by
    intro write hwrite
    obtain ⟨s, hs⟩ := hwrites write hwrite
    obtain ⟨hkind, hlimit⟩ := hpurse s hs.mem hs.blocks
    rw [hs.kind_eq] at hkind
    exact ⟨Option.some.inj hkind, hs.limit.trans hlimit⟩
  refine applyRun_purse hrefl htrans (fun write hwrite => (hmanaged write hwrite).1)
    (fun write hwrite _ _ _ h => ?_) hrun
  rw [(hmanaged write hwrite).2] at h
  exact hone h

def valueOf (block : DataBlock) : ℤ := purseOf block false + cashbackOf block false

def Within (limit : LimitPurseProperty) (block : DataBlock) : Prop :=
  limit.lowerLimit.toInt ≤ purseOf block true ∧ purseOf block true ≤ limit.upperLimit.toInt

instance (limit : LimitPurseProperty) : DecidablePred (Within limit) := fun block =>
  inferInstanceAs (Decidable (limit.lowerLimit.toInt ≤ purseOf block true
    ∧ purseOf block true ≤ limit.upperLimit.toInt))

/-! ### A card with a purse of each kind -/

namespace Fixture

/-- A purse, a limit purse and a ring that need no key, and a service that does. -/
def purses : EmulatedSystem :=
  { system with
    rootArea := ⟨0x0000, 0xFFFE, zeroBlock,
      [.service ⟨⟨0x0055⟩, zeroBlock, none, 0⟩, .service ⟨⟨0x0095⟩, zeroBlock, some ⟨100, -100⟩, 1⟩,
        .service ⟨⟨0x00CD⟩, zeroBlock, none, 2⟩, .service ⟨⟨0x0108⟩, SERVICE_KEY, none, 3⟩]⟩
    store := [[Vector.replicate 16 0x01], [Vector.replicate 16 0x00], [Vector.replicate 16 0x02],
      [Vector.replicate 16 0x03]] }

def writes : List EmulatedSystem.Command :=
  [0x0055, 0x0095, 0x00CD, 0x0108].map fun raw =>
    .writeWithoutEncryption [⟨raw⟩] [⟨0, 0, 0⟩] (List.replicate 16 0x05)

theorem overlapping_purses : Overlapping purses.rootArea := by decide

theorem separate_purses : Separate purses.rootArea := by decide

end Fixture

/-! ### What a command writes -/

structure BlockWrite where
  serviceCodes : List ServiceCode
  blockList : List BlockListElement
  data : List UInt8
  requireAuthFree : Bool

namespace EmulatedSystem

variable {crates : CipherCrates} {cipher : KeyedPerm Block Block} (std : crates.Computes cipher)

/-- The write that a system takes up from a command: of the services it lists itself, outside a
session, or of those of the session. -/
def writeOf (sys : EmulatedSystem) (crates : CipherCrates) : Command → Option BlockWrite
  | .writeWithoutEncryption serviceCodes blockList data =>
    if sys.mode.permits .unauthenticated then some ⟨serviceCodes, blockList, data, true⟩ else none
  | .secure commandCode encryptedPayload =>
    match sys.acceptSecureFrame crates commandCode encryptedPayload with
    | some ⟨session, _, .write blockList data⟩ =>
      some ⟨session.serviceCodes, blockList, data, false⟩
    | _ => none
  | _ => none

/-- The system with a write carried out, or refused. -/
def written (sys : EmulatedSystem) (w : BlockWrite) : EmulatedSystem :=
  (sys.accessWrite w.serviceCodes w.blockList w.data w.requireAuthFree).2

include std in
theorem handle_write_accepted {sys : EmulatedSystem} {code : UInt8} {payload : List UInt8}
    {a : Accepted} (haccept : sys.acceptSecureFrame crates code payload = some a)
    {blockList : List BlockListElement} {data : List UInt8}
    (hcommand : a.command = .write blockList data) :
    ∃ frame, sys.handle crates (.secure code payload) = (some frame,
      { (sys.handleSecureWrite a.session.serviceCodes blockList data).2 with
        secureSession := some { a.session with transactionNumber := a.transactionNumber + 1 } }) := by
  obtain ⟨flags, store, heq, -⟩ :=
    sys.accessWrite_cases a.session.serviceCodes blockList data false
  obtain ⟨frame, hframe⟩ := frame_of_flags std (code + 1) (a.transactionNumber + 1)
    a.session.transactionId a.session.transactionKey flags
  have hexec : sys.execute a.session.serviceCodes a.command
      = some (⟨flags, none⟩, { sys with store }) := by
    rw [hcommand]
    exact congrArg some heq
  obtain ⟨-, -, -, -, -, body, -, -, hparse⟩ := (acceptSecureFrame_eq_some_iff std).mp haccept
  have hissue : ¬ (isRegisterCommand code = true ∧ [flags.1, flags.2].head? = some 0) := by
    rintro ⟨hcode, hflags⟩
    have hregister := parseSecurePayload_register hcode hparse sys a.session.serviceCodes
    rw [hexec] at hregister
    obtain rfl : flags = STATUS_UNSUPPORTED :=
      congrArg (fun r : AccessResponse × EmulatedSystem => r.1.flags) (Option.some.inj hregister)
    exact absurd hflags (by decide)
  refine ⟨frame, ?_⟩
  rw [handle, handleSecureFrame_eq haccept hexec rfl hframe hissue, handleSecureWrite, heq]

include std in
/-- **What a command does to the blocks** is what the write does that is taken up from it. -/
theorem store_handle (sys : EmulatedSystem) (c : Command) :
    (sys.handle crates c).2.store = ((sys.writeOf crates c).elim sys sys.written).store := by
  have h := handled std sys c
  cases c with
  | writeWithoutEncryption serviceCodes blockList data =>
    rw [handle, writeOf]
    by_cases hmode : sys.mode.permits .unauthenticated = true
    · rw [if_neg (not_not.mpr hmode), if_pos hmode]
      rfl
    · rw [if_pos hmode, if_neg hmode]
      rfl
  | secure code payload =>
    rw [writeOf]
    cases haccept : sys.acceptSecureFrame crates code payload with
    | none =>
      rw [handle, handleSecureFrame, haccept]
      rfl
    | some a =>
      obtain ⟨session, n, command⟩ := a
      cases command with
      | write blockList data =>
        obtain ⟨frame, hframe⟩ := handle_write_accepted std haccept rfl
        rw [hframe]
        rfl
      | read _ | registerIssueId | registerArea | registerService | changeSystemBlock | v2 =>
        -- nothing but a write moves the blocks
        generalize sys.handle crates (.secure code payload) = r at h
        cases h with
        | silent => rfl
        | carriedOut frame haccept' hstore =>
          rcases hstore with rfl | ⟨blockList, data, hcommand, -⟩
          · rfl
          · rw [haccept] at haccept'
            cases haccept'
            cases hcommand
  | readWithoutEncryption | resetMode | authentication1 | authentication2 =>
    generalize sys.handle crates _ = r at h
    cases h <;> rfl

include std in
/-- A write that is taken up is one for services without a key, or for those of the session. -/
theorem writeOf_eq_some {sys : EmulatedSystem} {c : Command} {w : BlockWrite}
    (h : sys.writeOf crates c = some w) : w.requireAuthFree = true
      ∨ ∃ session, sys.secureSession = some session ∧ w.serviceCodes = session.serviceCodes := by
  cases c with
  | writeWithoutEncryption serviceCodes blockList data =>
    obtain ⟨-, h⟩ := Option.ite_none_right_eq_some.mp h
    cases h
    exact .inl rfl
  | secure code payload =>
    rw [writeOf] at h
    split at h
    · rename_i haccept
      cases h
      exact .inr ⟨_, ((acceptSecureFrame_eq_some_iff std).mp haccept).2.1, rfl⟩
    · cases h
  | readWithoutEncryption | resetMode | authentication1 | authentication2 => cases h

theorem written_cases (sys : EmulatedSystem) (w : BlockWrite) :
    (sys.written w).store = sys.store
      ∨ applyBlockWrites sys.rootArea sys.store w.serviceCodes w.blockList w.data w.requireAuthFree
        = .ok (sys.written w).store := by
  obtain ⟨flags, store, heq, hstore⟩ :=
    sys.accessWrite_cases w.serviceCodes w.blockList w.data w.requireAuthFree
  rw [written, heq]
  exact hstore

/-! ### A run of commands -/

include std in
/-- **What every write keeps of a block vector, a run of commands keeps.** -/
theorem store_after {sys : EmulatedSystem} (hoverlap : Overlapping sys.rootArea) {ref : BlocksRef}
    {R : List DataBlock → List DataBlock → Prop} (hrefl : ∀ bs, R bs bs)
    (htrans : ∀ {as bs cs}, R as bs → R bs cs → R as cs)
    (hkept : ∀ serviceCodes requireAuthFree,
      KeptBy sys.rootArea ref serviceCodes requireAuthFree R) (cs : List Command) :
    R (sys.store.getD ref []) ((sys.after crates cs).store.getD ref []) := by
  refine (after_invariant (I := fun s => s.rootArea = sys.rootArea
    ∧ R (sys.store.getD ref []) (s.store.getD ref [])) (fun s c _ hs => ?_) ⟨rfl, hrefl _⟩).2
  obtain ⟨harea, hrel⟩ := hs
  refine ⟨(handled std s c).sameCard.rootArea.trans harea, htrans hrel ?_⟩
  rw [store_handle std]
  cases s.writeOf crates c with
  | none => exact hrefl _
  | some w =>
    show R (s.store.getD ref []) ((s.written w).store.getD ref [])
    rcases s.written_cases w with hsame | hwritten
    · rw [hsame]
      exact hrefl _
    · rw [harea] at hwritten
      exact (hkept w.serviceCodes w.requireAuthFree).applyBlockWrites hoverlap hrefl htrans hwritten

include std in
theorem blocks_after {sys : EmulatedSystem} (hoverlap : Overlapping sys.rootArea)
    {ref : BlocksRef} {limit : Option LimitPurseProperty}
    (hpurse : ∀ s ∈ sys.rootArea.services, s.blocks = ref →
      s.serviceCode.kind = some .purse ∧ s.limitPurse = limit)
    (r : DataBlock → DataBlock → Prop) (hrefl : ∀ b, r b b)
    (htrans : ∀ {a b c}, r a b → r b c → r a c)
    (hone : ∀ {stored command updated : DataBlock} {operation : PurseOperation},
      applyPurseWrite stored command operation limit = .ok (some updated) → r stored updated)
    (cs : List Command) :
    List.Forall₂ r (sys.store.getD ref []) ((sys.after crates cs).store.getD ref []) :=
  store_after std hoverlap (fun _ => List.forall₂_same.mpr fun b _ => hrefl b)
    (forall₂_trans (r := r) htrans) (fun _ _ => .purse hpurse hrefl htrans hone) cs

include std in
/-- **An ordinary purse never gains.**  Over any commands, the value of each block of a vector
that only purses without limits manage is at most what it was. -/
theorem purse_never_gains {sys : EmulatedSystem} (hoverlap : Overlapping sys.rootArea)
    {ref : BlocksRef} (hpurse : ∀ s ∈ sys.rootArea.services, s.blocks = ref →
      s.serviceCode.kind = some .purse ∧ s.limitPurse = none) (cs : List Command) :
    List.Forall₂ (fun before later => valueOf later ≤ valueOf before)
      (sys.store.getD ref []) ((sys.after crates cs).store.getD ref []) :=
  blocks_after std hoverlap hpurse (fun before later => valueOf later ≤ valueOf before)
    (fun _ => le_rfl) (fun h h' => h'.trans h) applyPurseWrite_total_le cs

theorem purse_never_gains_fixture :
    List.Forall₂ (fun before later => valueOf later ≤ valueOf before)
      (Fixture.purses.store.getD 0 [])
      ((Fixture.purses.after nativeCrates Fixture.writes).store.getD 0 []) :=
  purse_never_gains nativeCrates_computes Fixture.overlapping_purses (by decide) _

include std in
/-- **A limit purse stays within its limits.**  Over any commands, the blocks of a vector that only
purses with these limits manage are within them if they were. -/
theorem limit_purse_within {sys : EmulatedSystem} (hoverlap : Overlapping sys.rootArea)
    {ref : BlocksRef} {limit : LimitPurseProperty}
    (hpurse : ∀ s ∈ sys.rootArea.services, s.blocks = ref →
      s.serviceCode.kind = some .purse ∧ s.limitPurse = some limit)
    (hbefore : ∀ block ∈ sys.store.getD ref [], Within limit block) (cs : List Command) :
    ∀ block ∈ (sys.after crates cs).store.getD ref [], Within limit block := by
  have hrel := blocks_after std hoverlap hpurse
    (fun before later => Within limit before → Within limit later) (fun _ h => h)
    (fun h h' hw => h' (h hw)) (fun h _ => applyPurseWrite_within h) cs
  exact forall₂_right hrel hbefore

theorem limit_purse_within_fixture :
    List.Forall (Within ⟨100, -100⟩)
      ((Fixture.purses.after nativeCrates Fixture.writes).store.getD 1 []) :=
  List.forall_iff_forall_mem.mpr (limit_purse_within nativeCrates_computes
    Fixture.overlapping_purses (by decide) (List.forall_mem_singleton.mpr ⟨by decide, by decide⟩) _)

/-! ### Vectors under a key -/

/-- A code of a service that may write a block vector. -/
def Writes (area : EmulatedArea) (ref : BlocksRef) (code : ServiceCode) : Prop :=
  ∃ s ∈ area.services, s.blocks = ref ∧ s.serviceCode = code
    ∧ ∃ serviceAttribute, code.serviceAttribute = some serviceAttribute
      ∧ serviceAttribute.allowsWrite = true

/-- The codes that a system has been authenticated for, or is being, have a property. -/
structure NamedAll (P : ServiceCode → Prop) (sys : EmulatedSystem) : Prop where
  pending : ∀ pending, sys.pendingAuth = some pending → ∀ code ∈ pending.serviceCodes, P code
  session : ∀ session, sys.secureSession = some session → ∀ code ∈ session.serviceCodes, P code

/-- The codes that a command names for an authentication have a property. -/
def Command.NamesAll (P : ServiceCode → Prop) : Command → Prop
  | .authentication1 _ services _ _ => ∀ raw ∈ services, P ⟨raw⟩
  | _ => True

theorem Fresh.namedAll {sys : EmulatedSystem} (h : Fresh sys) (P : ServiceCode → Prop) :
    NamedAll P sys where
  pending pending hpending := by
    rw [h.pendingAuth] at hpending
    cases hpending
  session session hsession := by
    rw [h.secureSession] at hsession
    cases hsession

include std in
theorem Handled.namedAll {P : ServiceCode → Prop} {sys : EmulatedSystem} {c : Command} {r : Answer}
    (h : Handled crates sys c r) (hc : c.NamesAll P) (hnamed : NamedAll P sys) :
    NamedAll P r.2 := by
  cases h with
  | silent => exact hnamed
  | read response => exact hnamed
  | refused frame => exact hnamed
  | written frame _ _ => exact ⟨hnamed.pending, hnamed.session⟩
  | reset frame => exact ⟨fun _ h => (by cases h), fun _ h => (by cases h)⟩
  | started =>
    refine ⟨?_, fun _ h => (by cases h)⟩
    rintro _ ⟨⟩ code hcode
    obtain ⟨raw, hraw, rfl⟩ := List.mem_map.mp hcode
    exact hc raw hraw
  | opened frame hpending _ =>
    refine ⟨hnamed.pending, ?_⟩
    rintro _ ⟨⟩
    exact hnamed.pending _ hpending
  | carriedOut frame haccept _ =>
    have hcodes := hnamed.session _ ((acceptSecureFrame_eq_some_iff std).mp haccept).2.1
    refine ⟨hnamed.pending, ?_⟩
    rintro _ ⟨⟩
    exact hcodes

include std in
/-- **What is under a key is not written without it being named.**  A block vector whose every
writing service requires a key is untouched over any commands to a fresh system, as long as no
Authentication1 among them lists one of those services. -/
theorem unnamed_untouched {sys : EmulatedSystem} (hfresh : Fresh sys) {ref : BlocksRef}
    (hkeyed : ∀ code, Writes sys.rootArea ref code → code.requiresKey = true) {cs : List Command}
    (hunnamed : ∀ c ∈ cs, c.NamesAll fun code => ¬ Writes sys.rootArea ref code) :
    (sys.after crates cs).store.getD ref [] = sys.store.getD ref [] := by
  refine (after_invariant (I := fun s => s.rootArea = sys.rootArea
    ∧ NamedAll (fun code => ¬ Writes sys.rootArea ref code) s
    ∧ s.store.getD ref [] = sys.store.getD ref []) (fun s c hc hs => ?_) ⟨rfl, ?_, rfl⟩).2.2
  · obtain ⟨harea, hnamed, hstore⟩ := hs
    have h := handled std s c
    refine ⟨h.sameCard.rootArea.trans harea, h.namedAll std (hunnamed c hc) hnamed, ?_⟩
    rw [store_handle std, ← hstore]
    cases hw : s.writeOf crates c with
    | none => rfl
    | some w =>
      show (s.written w).store.getD ref [] = _
      rcases s.written_cases w with hsame | hwritten
      · rw [hsame]
      · rw [harea] at hwritten
        refine applyBlockWrites_untouched (fun v t hv hfind href => ?_) hwritten
        obtain ⟨hmem, hcode⟩ := EmulatedArea.findService_mem hfind
        have hwrites : Writes sys.rootArea ref v.serviceCode :=
          ⟨t, hmem, href, hcode, _, hv.attribute_eq, hv.allowsWrite⟩
        rcases writeOf_eq_some std hw with hfree | ⟨session, hsession, hcodes⟩
        · -- outside a session only a service without a key is written
          have hkeyless := hv.authFree hfree
          rw [hkeyed _ hwrites] at hkeyless
          cases hkeyless
        · exact hnamed.session session hsession _ (hcodes ▸ hv.listed) hwrites
  · exact hfresh.namedAll _

theorem unnamed_untouched_fixture :
    (Fixture.purses.after nativeCrates Fixture.writes).store.getD 3 []
      = Fixture.purses.store.getD 3 [] := by
  have hkeyed : ∀ s ∈ Fixture.purses.rootArea.services, s.blocks = 3 →
      s.serviceCode.requiresKey = true := by decide
  refine unnamed_untouched nativeCrates_computes ⟨rfl, rfl⟩ ?_ fun c hc => ?_
  · rintro _ ⟨s, hs, hblocks, rfl, -⟩
    exact hkeyed s hs hblocks
  · obtain ⟨raw, -, rfl⟩ := List.mem_map.mp hc
    trivial

end EmulatedSystem

end SuiCash.Felica
