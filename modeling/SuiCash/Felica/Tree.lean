import SuiCash.Felica.Purse

/-!
# The tree of an emulated card

The builder of `structure.rs` and `system.rs`: the checks of an Area and of what is put below one,
and the pass that links up the services of one number after something was added to a system.  The
pass walks the tree with a registry of the numbers seen and gives every later service of a number
the blocks of the first; it stops at a service of another kind than the first of its number, and
what it has linked up to there stays.

`AreaChild.sync_services` says the walk is a loop over the services, and
`syncOverlappingServices_spec` when it goes through and what it then leaves.
-/

namespace SuiCash.Felica

open Des Fallible

/-! ### The checks -/

inductive EmulatorConfigError where
  | invalidAreaRange (areaCode endServiceCode : UInt16)
  | invalidRootAreaRange (endServiceCode : UInt16)
  | nodeCodeOutOfRange (nodeCode : UInt16)
  | invalidAreaAttribute (areaCode : UInt16) (areaAttribute : UInt8)
  | childAreaForbidden (areaCode : UInt16)
  | undefinedServiceAttribute (serviceCode : UInt16) (attributes : UInt8)
  | serviceOutOfRange (areaCode endServiceCode serviceCode : UInt16)
  | areaOutOfRange (areaCode endServiceCode childAreaCode childEndServiceCode : UInt16)
  | overlapKindMismatch (serviceCode serviceNumber : UInt16) (existingKind addedKind : ServiceKind)
  deriving DecidableEq

def ROOT_AREA_CODE : UInt16 := 0x0000

def ROOT_END_SERVICE_CODE : UInt16 := 0xFFFE

def MAX_NODE_CODE : UInt16 := 0xFFFE

def AREA_ATTRIBUTE_CHILD_AREAS_ALLOWED : UInt8 := 0b000000

def AREA_ATTRIBUTE_CHILD_AREAS_FORBIDDEN : UInt8 := 0b000001

def validateNodeCode (nodeCode : UInt16) : Except EmulatorConfigError Unit :=
  if nodeCode > MAX_NODE_CODE then .error (.nodeCodeOutOfRange nodeCode) else .ok ()

def validateAreaRange (areaCode endServiceCode : UInt16) : Except EmulatorConfigError Unit := do
  validateNodeCode areaCode
  validateNodeCode endServiceCode
  if areaCode = ROOT_AREA_CODE ∧ endServiceCode ≠ ROOT_END_SERVICE_CODE then
    .error (.invalidRootAreaRange endServiceCode)
  else
    let areaAttribute := (areaCode &&& 0x3F).toUInt8
    if areaAttribute ≠ AREA_ATTRIBUTE_CHILD_AREAS_ALLOWED
        ∧ areaAttribute ≠ AREA_ATTRIBUTE_CHILD_AREAS_FORBIDDEN then
      .error (.invalidAreaAttribute areaCode areaAttribute)
    else if areaCode > endServiceCode then .error (.invalidAreaRange areaCode endServiceCode)
    else .ok ()

namespace EmulatedArea

def new (areaCode endServiceCode : UInt16) : Except EmulatorConfigError EmulatedArea := do
  validateAreaRange areaCode endServiceCode
  .ok ⟨areaCode, endServiceCode, zeroBlock, []⟩

variable (area : EmulatedArea)

/-- `attribute`. -/
def areaAttribute : UInt8 := (area.areaCode &&& 0x3F).toUInt8

def allowsChildAreas : Bool := area.areaAttribute = AREA_ATTRIBUTE_CHILD_AREAS_ALLOWED

def setKey (key : Block) : EmulatedArea := { area with key }

def validateChildService (service : EmulatedService) : Except EmulatorConfigError Unit := do
  let code := service.serviceCode.raw
  validateNodeCode code
  if service.serviceCode.serviceAttribute.isNone then
    .error (.undefinedServiceAttribute code service.serviceCode.attributes)
  else if code < area.areaCode ∨ code > area.endServiceCode then
    .error (.serviceOutOfRange area.areaCode area.endServiceCode code)
  else .ok ()

def validateChildArea (child : EmulatedArea) : Except EmulatorConfigError Unit :=
  if ¬ area.allowsChildAreas then .error (.childAreaForbidden area.areaCode)
  else if child.areaCode < area.areaCode ∨ child.endServiceCode > area.endServiceCode then
    .error (.areaOutOfRange area.areaCode area.endServiceCode child.areaCode child.endServiceCode)
  else .ok ()

def addService (service : EmulatedService) : Except EmulatorConfigError EmulatedArea := do
  area.validateChildService service
  .ok { area with children := area.children ++ [.service service] }

def toChild : AreaChild := .area area.areaCode area.endServiceCode area.key area.children

def addArea (child : EmulatedArea) : Except EmulatorConfigError EmulatedArea := do
  area.validateChildArea child
  .ok { area with children := area.children ++ [child.toChild] }

end EmulatedArea

/-! ### The pass over the tree -/

/-- The kind and the blocks of the first service of a number. -/
structure OverlapGroup where
  kind : ServiceKind
  blocks : BlocksRef
  deriving DecidableEq

abbrev Registry := UInt16 → Option OverlapGroup

def Registry.insert (registry : Registry) (number : UInt16) (group : OverlapGroup) : Registry :=
  fun n => if n = number then some group else registry n

/-- What the pass leaves of what it walks over, and the registry or what stopped it. -/
abbrev Synced (α : Type) := α × Except (Stop EmulatorConfigError) Registry

/-- A service in the pass; one without a kind is a panic. -/
def EmulatedService.sync (service : EmulatedService) (registry : Registry) : Synced EmulatedService :=
  let number := service.serviceCode.number
  match service.serviceCode.kind with
  | none => (service, .error .panic)
  | some kind =>
    match registry number with
    | some group =>
      if group.kind ≠ kind then
        (service, .error (.error
          (.overlapKindMismatch service.serviceCode.raw number group.kind kind)))
      else ({ service with blocks := group.blocks }, .ok registry)
    | none => (service, .ok (registry.insert number ⟨kind, service.blocks⟩))

mutual

def AreaChild.sync (registry : Registry) : AreaChild → Synced AreaChild
  | .area areaCode endServiceCode key children =>
    let r := syncIn registry children
    (.area areaCode endServiceCode key r.1, r.2)
  | .service s =>
    let r := s.sync registry
    (.service r.1, r.2)

def syncIn (registry : Registry) : List AreaChild → Synced (List AreaChild)
  | [] => ([], .ok registry)
  | child :: rest =>
    let r := child.sync registry
    match r.2 with
    | .ok registry =>
      let r' := syncIn registry rest
      (r.1 :: r'.1, r'.2)
    | .error e => (r.1 :: rest, .error e)

end

namespace EmulatedSystem

def new (systemCode : UInt16) (idm pmm : Block) (store : Store) :
    Except EmulatorConfigError EmulatedSystem := do
  let rootArea ← EmulatedArea.new ROOT_AREA_CODE ROOT_END_SERVICE_CODE
  .ok
    { systemCode, idm, pmm, rootArea, store
      mode := .mode0
      systemKey := zeroBlock
      idi := zeroBlock
      pmi := zeroBlock
      pendingAuth := none
      secureSession := none }

variable (sys : EmulatedSystem)

def syncOverlappingServices : EmulatedSystem × Except (Stop EmulatorConfigError) Unit :=
  let r := syncIn (fun _ => none) sys.rootArea.children
  ({ sys with rootArea := { sys.rootArea with children := r.1 } }, r.2.map fun _ => ())

/-- What both calls do with an Area 0 that took their node. -/
def synced (taken : Except EmulatorConfigError EmulatedArea) :
    EmulatedSystem × Except (Stop EmulatorConfigError) Unit :=
  match taken with
  | .error e => (sys, .error (.error e))
  | .ok rootArea => { sys with rootArea }.syncOverlappingServices

def addService (service : EmulatedService) : EmulatedSystem × Except (Stop EmulatorConfigError) Unit :=
  sys.synced (sys.rootArea.addService service)

def addArea (area : EmulatedArea) : EmulatedSystem × Except (Stop EmulatorConfigError) Unit :=
  sys.synced (sys.rootArea.addArea area)

end EmulatedSystem

/-! ### The pass over the services in order -/

/-- The pass as a loop over the services. -/
def syncServices : Registry → List EmulatedService → Synced (List EmulatedService)
  | registry, [] => ([], .ok registry)
  | registry, s :: rest =>
    let r := s.sync registry
    match r.2 with
    | .ok registry =>
      let r' := syncServices registry rest
      (r.1 :: r'.1, r'.2)
    | .error e => (r.1 :: rest, .error e)

theorem syncServices_append (registry : Registry) (ss ss' : List EmulatedService) :
    syncServices registry (ss ++ ss') =
      let r := syncServices registry ss
      match r.2 with
      | .ok registry =>
        let r' := syncServices registry ss'
        (r.1 ++ r'.1, r'.2)
      | .error e => (r.1 ++ ss', .error e) := by
  induction ss generalizing registry with
  | nil => rfl
  | cons s ss ih =>
    rw [List.cons_append, syncServices, syncServices]
    dsimp only
    cases (s.sync registry).2 with
    | error e => rfl
    | ok registry =>
      dsimp only
      rw [ih]
      dsimp only
      cases (syncServices registry ss).2 with
      | error e => rfl
      | ok registry => rfl

mutual

/-- **The pass over a tree is the loop over its services.** -/
theorem AreaChild.sync_services (registry : Registry) (child : AreaChild) :
    ((child.sync registry).1.services, (child.sync registry).2)
      = syncServices registry child.services := by
  match child with
  | .area areaCode endServiceCode key children =>
    rw [AreaChild.sync, AreaChild.services]
    exact syncIn_services registry children
  | .service s =>
    rw [AreaChild.sync, AreaChild.services, AreaChild.services, syncServices]
    dsimp only
    cases (s.sync registry).2 <;> rfl

theorem syncIn_services (registry : Registry) (children : List AreaChild) :
    (servicesIn (syncIn registry children).1, (syncIn registry children).2)
      = syncServices registry (servicesIn children) := by
  match children with
  | [] => rfl
  | child :: rest =>
    have hchild := AreaChild.sync_services registry child
    rw [servicesIn, syncServices_append, ← hchild, syncIn]
    dsimp only
    cases (child.sync registry).2 with
    | error e => rfl
    | ok registry =>
      dsimp only
      rw [servicesIn, ← syncIn_services registry rest]

end

/-! ### What the pass makes of the services -/

/-- Codes each of some kind, those of one number of one kind. -/
def OneKind (codes : List ServiceCode) : Prop :=
  (∀ c ∈ codes, c.kind ≠ none) ∧ ∀ c ∈ codes, ∀ c' ∈ codes, c.number = c'.number → c.kind = c'.kind

/-- The first service of the number of a service. -/
def leader (ss : List EmulatedService) (s : EmulatedService) : EmulatedService :=
  (ss.find? (·.serviceCode.number = s.serviceCode.number)).getD s

def registryOf (ss : List EmulatedService) : Registry := fun number =>
  (ss.find? (·.serviceCode.number = number)).bind fun s =>
    s.serviceCode.kind.map fun kind => ⟨kind, s.blocks⟩

/-- A service with the blocks of the first of its number. -/
def relink (ss : List EmulatedService) (s : EmulatedService) : EmulatedService :=
  { s with blocks := (leader ss s).blocks }

/-- What lets a service pass behind the services before it. -/
def Joins (seen : List EmulatedService) (s : EmulatedService) : Prop :=
  s.serviceCode.kind ≠ none ∧ (leader seen s).serviceCode.kind = s.serviceCode.kind

theorem leader_number (ss : List EmulatedService) (s : EmulatedService) :
    (leader ss s).serviceCode.number = s.serviceCode.number := by
  rw [leader]
  cases h : ss.find? (·.serviceCode.number = s.serviceCode.number) with
  | none => rfl
  | some t => simpa using List.find?_some h

theorem leader_append_self (ss ss' : List EmulatedService) (s : EmulatedService) :
    leader (ss ++ s :: ss') s = leader ss s := by
  rw [leader, leader, List.find?_append, List.find?_cons_of_pos (by simp)]
  cases ss.find? (·.serviceCode.number = s.serviceCode.number) <;> rfl

theorem leader_mem {ss : List EmulatedService} {s : EmulatedService} (hs : s ∈ ss) :
    leader ss s ∈ ss := by
  rw [leader]
  cases h : ss.find? (·.serviceCode.number = s.serviceCode.number) with
  | none => exact hs
  | some t => exact List.mem_of_find?_eq_some h

theorem leader_congr {ss : List EmulatedService} {s s' : EmulatedService} (hs : s ∈ ss)
    (h : s.serviceCode.number = s'.serviceCode.number) : leader ss s = leader ss s' := by
  rw [leader, leader, ← h]
  cases hfind : ss.find? (·.serviceCode.number = s.serviceCode.number) with
  | none =>
    rw [List.find?_eq_none] at hfind
    exact absurd (hfind s hs) (by simp)
  | some t => rfl

theorem oneKind_iff_joins {ss : List EmulatedService} :
    OneKind (ss.map (·.serviceCode)) ↔ ∀ s ∈ ss, Joins ss s := by
  simp only [OneKind, List.forall_mem_map]
  constructor
  · exact fun h s hs => ⟨h.1 s hs, h.2 _ (leader_mem hs) s hs (leader_number ss s)⟩
  · refine fun h => ⟨fun s hs => (h s hs).1, fun s hs s' hs' hn => ?_⟩
    rw [← (h s hs).2, ← (h s' hs').2, leader_congr hs hn]

theorem sync_registryOf {seen : List EmulatedService}
    (hseen : ∀ t ∈ seen, t.serviceCode.kind ≠ none) (s : EmulatedService) :
    (Joins seen s ∧ s.sync (registryOf seen) = (relink seen s, .ok (registryOf (seen ++ [s]))))
      ∨ (¬ Joins seen s ∧ ∃ e, s.sync (registryOf seen) = (s, .error e)) := by
  rw [EmulatedService.sync, Joins]
  cases hkind : s.serviceCode.kind with
  | none => exact .inr ⟨fun h => h.1 rfl, _, rfl⟩
  | some kind =>
    dsimp only
    cases hfind : seen.find? (·.serviceCode.number = s.serviceCode.number) with
    | none =>
      have hleader : leader seen s = s := by rw [leader, hfind, Option.getD_none]
      have hregistry : registryOf seen s.serviceCode.number = none := by
        rw [registryOf, hfind, Option.bind_none]
      have hinsert : (registryOf seen).insert s.serviceCode.number ⟨kind, s.blocks⟩
          = registryOf (seen ++ [s]) := by
        funext n
        rw [Registry.insert, registryOf, registryOf, List.find?_append]
        by_cases hn : n = s.serviceCode.number
        · rw [if_pos hn, hn, hfind, Option.none_or, List.find?_cons_of_pos (by simp),
            Option.bind_some, hkind]
          rfl
        · rw [if_neg hn, List.find?_cons_of_neg (by simpa using Ne.symm hn), List.find?_nil,
            Option.or_none]
      refine .inl ⟨⟨Option.some_ne_none _, by rw [hleader, hkind]⟩, ?_⟩
      rw [hregistry, relink, hleader, ← hinsert]
    | some t =>
      have hleader : leader seen s = t := by rw [leader, hfind, Option.getD_some]
      obtain ⟨kindT, hkindT⟩ := Option.ne_none_iff_exists'.mp (hseen t (List.mem_of_find?_eq_some hfind))
      have hregistry : registryOf seen s.serviceCode.number = some ⟨kindT, t.blocks⟩ := by
        rw [registryOf, hfind, Option.bind_some, hkindT]
        rfl
      rw [hregistry, hleader, hkindT]
      dsimp only
      by_cases hk : kindT = kind
      · -- the first of the number stays the first
        have hsame : registryOf (seen ++ [s]) = registryOf seen := by
          funext n
          rw [registryOf, registryOf, List.find?_append]
          by_cases hn : s.serviceCode.number = n
          · rw [← hn, hfind, Option.some_or]
          · rw [List.find?_cons_of_neg (by simpa using hn), List.find?_nil, Option.or_none]
        rw [if_neg (not_not.mpr hk), relink, hleader, hsame]
        exact .inl ⟨⟨Option.some_ne_none _, congrArg some hk⟩, rfl⟩
      · rw [if_pos hk]
        exact .inr ⟨fun h => hk (Option.some.inj h.2), _, rfl⟩

/-- **The pass goes through exactly where every service joins**, and then links each to the first
of its number. -/
theorem syncServices_registryOf {seen ss : List EmulatedService}
    (hseen : ∀ t ∈ seen, t.serviceCode.kind ≠ none) :
    ((∀ s ∈ ss, Joins (seen ++ ss) s) ∧ syncServices (registryOf seen) ss
        = (ss.map (relink (seen ++ ss)), .ok (registryOf (seen ++ ss))))
      ∨ (¬ (∀ s ∈ ss, Joins (seen ++ ss) s)
        ∧ ∃ ss' e, syncServices (registryOf seen) ss = (ss', .error e)) := by
  induction ss generalizing seen with
  | nil =>
    refine .inl ⟨fun s hs => absurd hs List.not_mem_nil, ?_⟩
    rw [syncServices, List.map_nil, List.append_nil]
  | cons s ss ih =>
    have happend : (seen ++ [s]) ++ ss = seen ++ s :: ss := by
      rw [List.append_assoc, List.singleton_append]
    have hself : Joins (seen ++ s :: ss) s ↔ Joins seen s := by
      rw [Joins, Joins, leader_append_self]
    rcases sync_registryOf hseen s with ⟨hjoins, hsync⟩ | ⟨hnot, e, hsync⟩
    · -- a service that has passed is one of those seen
      have hseen' : ∀ t ∈ seen ++ [s], t.serviceCode.kind ≠ none := by
        intro t ht
        rcases List.mem_append.mp ht with ht | ht
        · exact hseen t ht
        · rw [List.mem_singleton.mp ht]
          exact hjoins.1
      have ih := ih hseen'
      rw [happend] at ih
      rcases ih with ⟨hrest, hrun⟩ | ⟨hrest, ss', e, hrun⟩
      · refine .inl ⟨List.forall_mem_cons.mpr ⟨hself.mpr hjoins, hrest⟩, ?_⟩
        have hrelink : relink (seen ++ s :: ss) s = relink seen s := by
          rw [relink, relink, leader_append_self]
        rw [syncServices, hsync]
        dsimp only
        rw [hrun, List.map_cons, hrelink]
      · refine .inr ⟨fun h => hrest (List.forall_mem_cons.mp h).2, relink seen s :: ss', e, ?_⟩
        rw [syncServices, hsync]
        dsimp only
        rw [hrun]
    · refine .inr ⟨fun h => hnot (hself.mp (List.forall_mem_cons.mp h).1), s :: ss, e, ?_⟩
      rw [syncServices, hsync]

theorem syncServices_ne_panic {registry : Registry} {ss : List EmulatedService}
    (hss : ∀ s ∈ ss, s.serviceCode.kind ≠ none) :
    (syncServices registry ss).2 ≠ .error .panic := by
  induction ss generalizing registry with
  | nil =>
    rw [syncServices]
    intro h
    cases h
  | cons s ss ih =>
    obtain ⟨hs, hss⟩ := List.forall_mem_cons.mp hss
    obtain ⟨kind, hkind⟩ := Option.ne_none_iff_exists'.mp hs
    have hone : (s.sync registry).2 ≠ .error .panic := by
      rw [EmulatedService.sync, hkind]
      dsimp only
      split
      · split
        · intro h
          cases h
        · intro h
          cases h
      · intro h
        cases h
    rw [syncServices]
    dsimp only
    split
    · exact ih hss
    · rename_i e herror
      rwa [herror] at hone

theorem syncServices_codes (registry : Registry) (ss : List EmulatedService) :
    (syncServices registry ss).1.map (·.serviceCode) = ss.map (·.serviceCode) := by
  have hcode : ∀ (registry : Registry) (s : EmulatedService),
      (s.sync registry).1.serviceCode = s.serviceCode := by
    intro registry s
    rw [EmulatedService.sync]
    split
    · rfl
    · split
      · split <;> rfl
      · rfl
  induction ss generalizing registry with
  | nil => rfl
  | cons s ss ih =>
    rw [syncServices]
    dsimp only
    split
    · rw [List.map_cons, List.map_cons, hcode, ih]
    · rw [List.map_cons, List.map_cons, hcode]

namespace EmulatedSystem

variable {sys : EmulatedSystem}

def codes (sys : EmulatedSystem) : List ServiceCode := sys.rootArea.services.map (·.serviceCode)

theorem services_sync (sys : EmulatedSystem) :
    sys.syncOverlappingServices.1.rootArea.services
      = (syncServices (registryOf []) sys.rootArea.services).1 :=
  congrArg Prod.fst (syncIn_services (registryOf []) sys.rootArea.children)

theorem result_sync (sys : EmulatedSystem) :
    sys.syncOverlappingServices.2
      = (syncServices (registryOf []) sys.rootArea.services).2.map fun _ => () :=
  congrArg (fun r : List EmulatedService × Except (Stop EmulatorConfigError) Registry =>
    r.2.map fun _ => ()) (syncIn_services (registryOf []) sys.rootArea.children)

/-- **The pass over a card.** -/
theorem syncOverlappingServices_spec (sys : EmulatedSystem) :
    sys.syncOverlappingServices.1.codes = sys.codes
      ∧ (sys.syncOverlappingServices.2 = .ok () ↔ OneKind sys.codes)
      ∧ (sys.syncOverlappingServices.2 = .ok () → sys.syncOverlappingServices.1.rootArea.services
        = sys.rootArea.services.map (relink sys.rootArea.services)) := by
  refine ⟨?_, ?_⟩
  · rw [codes, services_sync, syncServices_codes, codes]
  have hnil : ∀ t ∈ ([] : List EmulatedService), t.serviceCode.kind ≠ none :=
    fun t ht => absurd ht List.not_mem_nil
  rw [result_sync, services_sync, codes, oneKind_iff_joins]
  rcases syncServices_registryOf hnil with ⟨hjoins, hrun⟩ | ⟨hjoins, ss', e, hrun⟩
  · rw [hrun]
    exact ⟨⟨fun _ => hjoins, fun _ => rfl⟩, fun _ => rfl⟩
  · rw [hrun]
    refine ⟨⟨fun h => ?_, fun h => absurd h hjoins⟩, fun h => ?_⟩
    · cases h
    · cases h

theorem syncOverlappingServices_ne_panic {sys : EmulatedSystem}
    (hkinds : ∀ c ∈ sys.codes, c.kind ≠ none) :
    sys.syncOverlappingServices.2 ≠ .error .panic := by
  have hpanic : (syncServices (registryOf []) sys.rootArea.services).2 ≠ .error .panic :=
    syncServices_ne_panic fun s hs => hkinds _ (List.mem_map_of_mem hs)
  rw [result_sync]
  cases hrun : (syncServices (registryOf []) sys.rootArea.services).2 with
  | ok registry =>
    intro h
    cases h
  | error e =>
    intro h
    exact hpanic (hrun.trans (congrArg _ (Except.error.inj h)))

end EmulatedSystem

/-- Services that are linked to the first of their number overlap. -/
theorem overlapping_of_relink {area : EmulatedArea} {ss : List EmulatedService}
    (h : area.services = ss.map (relink ss)) : Overlapping area := by
  intro s hs s' hs' hn
  rw [h] at hs hs'
  obtain ⟨t, ht, rfl⟩ := List.mem_map.mp hs
  obtain ⟨t', -, rfl⟩ := List.mem_map.mp hs'
  have hnumber : t.serviceCode.number = t'.serviceCode.number := hn
  show (leader ss t).blocks = (leader ss t').blocks
  rw [leader_congr ht hnumber]

/-! ### Whose the blocks are -/

/-- Each block vector is for the services of one number. -/
def OwnedBy (owner : BlocksRef → UInt16) (ss : List EmulatedService) : Prop :=
  ∀ s ∈ ss, owner s.blocks = s.serviceCode.number

section Owned

variable {owner : BlocksRef → UInt16} {registry : Registry}
  (hregistry : ∀ number group, registry number = some group → owner group.blocks = number)
include hregistry

theorem sync_ownedBy {s : EmulatedService} (hs : owner s.blocks = s.serviceCode.number) :
    owner (s.sync registry).1.blocks = (s.sync registry).1.serviceCode.number
      ∧ ∀ after, (s.sync registry).2 = .ok after →
        ∀ number group, after number = some group → owner group.blocks = number := by
  rw [EmulatedService.sync]
  split
  · refine ⟨hs, fun after h => ?_⟩
    cases h
  · rename_i kind hkind
    split
    · rename_i group hgroup
      split
      · refine ⟨hs, fun after h => ?_⟩
        cases h
      · refine ⟨hregistry _ _ hgroup, fun after h => ?_⟩
        cases h
        exact hregistry
    · refine ⟨hs, fun after h number group hgroup => ?_⟩
      cases h
      rw [Registry.insert] at hgroup
      split at hgroup
      · rename_i hnumber
        cases hgroup
        rw [hnumber]
        exact hs
      · exact hregistry number group hgroup

/-- The pass hands blocks on among the services of one number. -/
theorem syncServices_ownedBy {ss : List EmulatedService} (hss : OwnedBy owner ss) :
    OwnedBy owner (syncServices registry ss).1 := by
  induction ss generalizing registry with
  | nil => exact fun s hs => absurd hs List.not_mem_nil
  | cons s ss ih =>
    obtain ⟨hs, hss⟩ := List.forall_mem_cons.mp hss
    obtain ⟨hone, hafter⟩ := sync_ownedBy hregistry hs
    rw [syncServices]
    dsimp only
    split
    · rename_i after hok
      exact List.forall_mem_cons.mpr ⟨hone, ih (hafter after hok) hss⟩
    · exact List.forall_mem_cons.mpr ⟨hone, hss⟩

end Owned

/-- The pass over a card leaves every block vector to its number. -/
theorem EmulatedSystem.sync_ownedBy {owner : BlocksRef → UInt16} {sys : EmulatedSystem}
    (hsys : OwnedBy owner sys.rootArea.services) :
    OwnedBy owner sys.syncOverlappingServices.1.rootArea.services := by
  rw [services_sync]
  refine syncServices_ownedBy (fun number group h => ?_) hsys
  cases h

end SuiCash.Felica
