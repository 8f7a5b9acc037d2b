import SuiCash.Felica.Resent
import SuiCash.Felica.Tree

/-!
# Building an emulated card

Calls of `add_service` and `add_area` on one system, one after the other.  A call that fails in the
pass has put its node into the tree, and the node stays.

* `build_iff`: which call of a run succeeds.
* `build_defined`: no call panics, and every service lies in the range of Area 0.
* `build_shares`: what a successful call leaves is what is assumed of a card's tree elsewhere.
-/

namespace SuiCash.Felica

open Des Fallible

/-! ### Runs of the builder -/

inductive Put where
  | service (s : EmulatedService)
  | area (a : EmulatedArea)

namespace Put

def child : Put → AreaChild
  | .service s => .service s
  | .area a => a.toChild

def codes (p : Put) : List ServiceCode := p.child.services.map (·.serviceCode)

/-- The checks of an Area on what is put below it. -/
def check (area : EmulatedArea) : Put → Except EmulatorConfigError Unit
  | .service s => area.validateChildService s
  | .area a => area.validateChildArea a

def fits (area : EmulatedArea) (p : Put) : Bool := (p.check area).isOk

end Put

theorem servicesIn_append (cs cs' : List AreaChild) :
    servicesIn (cs ++ cs') = servicesIn cs ++ servicesIn cs' := by
  induction cs with
  | nil => rfl
  | cons c cs ih => rw [List.cons_append, servicesIn, servicesIn, ih, List.append_assoc]

namespace EmulatedSystem

variable (sys : EmulatedSystem)

def put : Put → EmulatedSystem × Except (Stop EmulatorConfigError) Unit
  | .service service => sys.addService service
  | .area area => sys.addArea area

/-- The system after the calls of a builder, whether they succeed or not. -/
def built : EmulatedSystem → List Put → EmulatedSystem
  | sys, [] => sys
  | sys, p :: ps => (sys.put p).1.built ps

theorem put_eq (p : Put) : sys.put p = sys.synced ((p.check sys.rootArea).map fun _ =>
    { sys.rootArea with children := sys.rootArea.children ++ [p.child] }) := by
  cases p with
  | service service =>
    rw [put, addService, EmulatedArea.addService, Put.check]
    cases sys.rootArea.validateChildService service <;> rfl
  | area area =>
    rw [put, addArea, EmulatedArea.addArea, Put.check]
    cases sys.rootArea.validateChildArea area <;> rfl

theorem codes_append (p : Put) :
    codes { sys with rootArea := { sys.rootArea with children := sys.rootArea.children ++ [p.child] } }
      = sys.codes ++ p.codes := by
  rw [codes, EmulatedArea.services, servicesIn_append, List.map_append, servicesIn, servicesIn,
    List.append_nil]
  rfl

/-- **One call of the builder.** -/
theorem put_spec (p : Put) :
    (sys.put p).1.codes = sys.codes ++ (if p.fits sys.rootArea then p.codes else [])
      ∧ ((sys.put p).2 = .ok () ↔ p.fits sys.rootArea = true ∧ OneKind (sys.codes ++ p.codes))
      ∧ ((sys.put p).2 = .ok () → Overlapping (sys.put p).1.rootArea)
      ∧ ∀ q : Put, q.fits (sys.put p).1.rootArea = q.fits sys.rootArea := by
  rw [put_eq, Put.fits]
  cases p.check sys.rootArea with
  | error e =>
    refine ⟨(List.append_nil _).symm, ⟨fun h => ?_, fun h => ?_⟩, fun h => ?_, fun _ => rfl⟩
    · cases h
    · cases h.1
    · cases h
  | ok _ =>
    obtain ⟨hcodes, hok, hlinked⟩ := syncOverlappingServices_spec
      { sys with rootArea := { sys.rootArea with children := sys.rootArea.children ++ [p.child] } }
    rw [codes_append] at hcodes hok
    refine ⟨hcodes, hok.trans ⟨fun h => ⟨rfl, h⟩, fun h => h.2⟩,
      fun h => overlapping_of_relink (hlinked h), fun q => ?_⟩
    -- the checks read the range of Area 0 alone, and no call changes it
    cases q <;> rfl

theorem put_ne_panic {p : Put} (hcodes : ∀ c ∈ sys.codes, c.kind ≠ none)
    (hput : p.fits sys.rootArea = true → ∀ c ∈ p.codes, c.kind ≠ none) :
    (sys.put p).2 ≠ .error .panic := by
  rw [Put.fits] at hput
  rw [put_eq]
  cases hcheck : p.check sys.rootArea with
  | error e =>
    intro h
    cases h
  | ok _ =>
    rw [hcheck] at hput
    refine syncOverlappingServices_ne_panic fun c hc => ?_
    rw [codes_append] at hc
    rcases List.mem_append.mp hc with hc | hc
    · exact hcodes c hc
    · exact hput rfl c hc

/-- The codes that a run of the builder puts into the tree, kept or complained about. -/
theorem codes_built (ps : List Put) :
    (sys.built ps).codes = sys.codes ++ (ps.filter (·.fits sys.rootArea)).flatMap Put.codes
      ∧ ∀ q : Put, q.fits (sys.built ps).rootArea = q.fits sys.rootArea := by
  induction ps generalizing sys with
  | nil => exact ⟨(List.append_nil _).symm, fun _ => rfl⟩
  | cons p ps ih =>
    obtain ⟨hcodes, -, -, hfits⟩ := sys.put_spec p
    obtain ⟨ihcodes, ihfits⟩ := ih (sys.put p).1
    refine ⟨?_, fun q => (ihfits q).trans (hfits q)⟩
    rw [built, ihcodes, hcodes, funext hfits, List.filter_cons, List.append_assoc]
    split
    · rw [List.flatMap_cons]
    · rfl

/-- **How far a card can be built.**  After any calls of the builder, failed ones included, a call
succeeds exactly if its node passes the checks of Area 0 and, with everything that has passed them
before, no number has services of two kinds; and then services of one number share their blocks.
A node that brought two kinds together is in the tree, so no call succeeds after it. -/
theorem build_iff (ps : List Put) (p : Put) :
    (((sys.built ps).put p).2 = .ok () ↔ p.fits sys.rootArea = true
      ∧ OneKind (sys.codes ++ ((ps.filter (·.fits sys.rootArea)) ++ [p]).flatMap Put.codes))
    ∧ (((sys.built ps).put p).2 = .ok () → Overlapping ((sys.built ps).put p).1.rootArea) := by
  obtain ⟨hcodes, hfits⟩ := sys.codes_built ps
  obtain ⟨-, hok, hoverlap, -⟩ := (sys.built ps).put_spec p
  refine ⟨?_, hoverlap⟩
  rw [hok, hfits, hcodes, List.flatMap_append, List.flatMap_singleton, List.append_assoc]

end EmulatedSystem

/-! ### What the checks establish -/

namespace EmulatedArea

/-- A code with a kind, in the range of an Area. -/
def Owns (area : EmulatedArea) (code : ServiceCode) : Prop :=
  code.kind ≠ none ∧ area.areaCode ≤ code.raw ∧ code.raw ≤ area.endServiceCode

/-- The Areas that a builder can make. -/
inductive Buildable : EmulatedArea → Prop where
  | new {areaCode endServiceCode : UInt16} {area : EmulatedArea}
      (h : EmulatedArea.new areaCode endServiceCode = .ok area) : Buildable area
  | setKey {area : EmulatedArea} (h : Buildable area) (key : Block) : Buildable (area.setKey key)
  | addService {area result : EmulatedArea} {s : EmulatedService} (h : Buildable area)
      (hadd : area.addService s = .ok result) : Buildable result
  | addArea {area child result : EmulatedArea} (h : Buildable area) (hchild : Buildable child)
      (hadd : area.addArea child = .ok result) : Buildable result

theorem owns_of_validateChildService {area : EmulatedArea} {s : EmulatedService}
    (h : area.validateChildService s = .ok ()) : area.Owns s.serviceCode := by
  obtain ⟨-, -, h⟩ := bind_eq_ok.mp h
  obtain ⟨hattribute, h⟩ := guard_eq_ok.mp h
  obtain ⟨hrange, -⟩ := guard_eq_ok.mp h
  obtain ⟨hlow, hhigh⟩ := not_or.mp hrange
  refine ⟨?_, UInt16.not_lt.mp hlow, UInt16.not_lt.mp hhigh⟩
  rw [Option.isNone_iff_eq_none] at hattribute
  rwa [ServiceCode.kind, ne_eq, Option.map_eq_none_iff]

theorem owns_of_validateChildArea {area child : EmulatedArea}
    (h : area.validateChildArea child = .ok ()) {code : ServiceCode} (hcode : child.Owns code) :
    area.Owns code := by
  obtain ⟨-, h⟩ := guard_eq_ok.mp h
  obtain ⟨hrange, -⟩ := guard_eq_ok.mp h
  obtain ⟨hlow, hhigh⟩ := not_or.mp hrange
  exact ⟨hcode.1, UInt16.le_trans (UInt16.not_lt.mp hlow) hcode.2.1,
    UInt16.le_trans hcode.2.2 (UInt16.not_lt.mp hhigh)⟩

theorem services_new {areaCode endServiceCode : UInt16} {area : EmulatedArea}
    (h : EmulatedArea.new areaCode endServiceCode = .ok area) : area.services = [] := by
  obtain ⟨-, -, h⟩ := bind_eq_ok.mp h
  cases h
  rfl

/-- **What an Area owns is in its range and has a kind.** -/
theorem Buildable.owns {area : EmulatedArea} (h : Buildable area) :
    ∀ s ∈ area.services, area.Owns s.serviceCode := by
  induction h with
  | new h =>
    rw [services_new h]
    exact fun s hs => absurd hs List.not_mem_nil
  | setKey h key ih => exact ih
  | @addService area result s h hadd ih =>
    obtain ⟨_, hcheck, hadd⟩ := bind_eq_ok.mp hadd
    cases hadd
    intro t ht
    rw [services, servicesIn_append] at ht
    rcases List.mem_append.mp ht with ht | ht
    · exact ih t ht
    · rw [List.mem_singleton.mp ht]
      exact owns_of_validateChildService hcheck
  | @addArea area child result h hchild hadd ih ihchild =>
    -- the child's range lies in its parent's
    obtain ⟨_, hcheck, hadd⟩ := bind_eq_ok.mp hadd
    cases hadd
    intro t ht
    rw [services, servicesIn_append] at ht
    rcases List.mem_append.mp ht with ht | ht
    · exact ih t ht
    · rw [servicesIn, servicesIn, List.append_nil] at ht
      exact owns_of_validateChildArea hcheck (ihchild t ht)

end EmulatedArea

def Put.Buildable : Put → Prop
  | .service _ => True
  | .area a => a.Buildable

theorem Put.owns_of_fits {area : EmulatedArea} {p : Put} (hbuild : p.Buildable)
    (hfits : p.fits area = true) : ∀ c ∈ p.codes, area.Owns c := by
  have hcheck : p.check area = .ok () := by
    rw [Put.fits] at hfits
    cases hp : p.check area with
    | error e =>
      rw [hp] at hfits
      cases hfits
    | ok u => rfl
  refine List.forall_mem_map.mpr fun s hs => ?_
  cases p with
  | service t =>
    rw [List.mem_singleton.mp hs]
    exact EmulatedArea.owns_of_validateChildService hcheck
  | area a => exact EmulatedArea.owns_of_validateChildArea hcheck (hbuild.owns s hs)

namespace EmulatedSystem

/-- **A registered service always has a kind.**  On a card that was built from nothing, no call
panics in the pass, and every service lies in the range of Area 0. -/
theorem build_defined {systemCode : UInt16} {idm pmm : Block} {store : Store}
    {sys : EmulatedSystem} (hnew : new systemCode idm pmm store = .ok sys) {ps : List Put} {p : Put}
    (hps : ∀ q ∈ ps ++ [p], q.Buildable) :
    ((sys.built ps).put p).2 ≠ .error .panic
      ∧ ∀ c ∈ ((sys.built ps).put p).1.codes, sys.rootArea.Owns c := by
  have hempty : sys.codes = [] := by
    obtain ⟨rootArea, hroot, hsys⟩ := bind_eq_ok.mp hnew
    cases hsys
    exact congrArg (List.map _) (EmulatedArea.services_new hroot)
  obtain ⟨hcodes, hfits⟩ := sys.codes_built ps
  obtain ⟨hput, -, -, -⟩ := (sys.built ps).put_spec p
  have hp : p.Buildable := hps p (List.mem_append_right _ (List.mem_singleton_self p))
  -- what is in the tree has passed the checks, whether its call then succeeded or not
  have hbefore : ∀ c ∈ (sys.built ps).codes, sys.rootArea.Owns c := by
    rw [hcodes, hempty, List.nil_append]
    intro c hc
    obtain ⟨q, hq, hc⟩ := List.mem_flatMap.mp hc
    obtain ⟨hq, hqfits⟩ := List.mem_filter.mp hq
    exact Put.owns_of_fits (hps q (List.mem_append_left _ hq)) hqfits c hc
  constructor
  · refine put_ne_panic _ (fun c hc => (hbefore c hc).1) fun h c hc => ?_
    rw [hfits] at h
    exact (Put.owns_of_fits hp h c hc).1
  · rw [hput, hfits]
    intro c hc
    rcases List.mem_append.mp hc with hc | hc
    · exact hbefore c hc
    · split at hc
      · rename_i hfit
        exact Put.owns_of_fits hp hfit c hc
      · exact absurd hc List.not_mem_nil

theorem build_defined_fixture :
    ∃ sys, new 0x0003 zeroBlock zeroBlock [[]] = .ok sys
      ∧ ((sys.built [.service ⟨⟨0x0048⟩, zeroBlock, none, 0⟩]).put
        (.service ⟨⟨0x004A⟩, zeroBlock, none, 0⟩)).2 ≠ .error .panic := by
  refine ⟨_, rfl, (build_defined rfl ?_).1⟩
  exact List.forall_mem_cons.mpr ⟨trivial, List.forall_mem_singleton.mpr trivial⟩

end EmulatedSystem

/-! ### Whose the blocks are -/

theorem separate_of_ownedBy {owner : BlocksRef → UInt16} {area : EmulatedArea}
    (h : OwnedBy owner area.services) : Separate area := by
  intro s hs s' hs' hblocks
  rw [← h s hs, ← h s' hs', hblocks]

namespace EmulatedSystem

theorem put_ownedBy {owner : BlocksRef → UInt16} {sys : EmulatedSystem}
    (hsys : OwnedBy owner sys.rootArea.services) {p : Put} (hp : OwnedBy owner p.child.services) :
    OwnedBy owner (sys.put p).1.rootArea.services := by
  rw [put_eq]
  cases p.check sys.rootArea with
  | error e => exact hsys
  | ok _ =>
    refine sync_ownedBy ?_
    rw [EmulatedArea.services, servicesIn_append, servicesIn, servicesIn, List.append_nil]
    exact List.forall_mem_append.mpr ⟨hsys, hp⟩

theorem built_ownedBy {owner : BlocksRef → UInt16} {sys : EmulatedSystem}
    (hsys : OwnedBy owner sys.rootArea.services) {ps : List Put}
    (hps : ∀ p ∈ ps, OwnedBy owner p.child.services) :
    OwnedBy owner (sys.built ps).rootArea.services := by
  induction ps generalizing sys with
  | nil => exact hsys
  | cons p ps ih =>
    obtain ⟨hp, hps⟩ := List.forall_mem_cons.mp hps
    exact ih (put_ownedBy hsys hp) hps

/-- **Services share their blocks exactly within a number.**  Where a builder makes a block vector
for the services of one number, the card that a successful call returns has what is assumed of a
tree: services of one number share their blocks, and no others do. -/
theorem build_shares {systemCode : UInt16} {idm pmm : Block} {store : Store} {sys : EmulatedSystem}
    (hnew : new systemCode idm pmm store = .ok sys) {owner : BlocksRef → UInt16} {ps : List Put}
    {p : Put} (hps : ∀ q ∈ ps ++ [p], OwnedBy owner q.child.services)
    (hok : ((sys.built ps).put p).2 = .ok ()) :
    Overlapping ((sys.built ps).put p).1.rootArea ∧ Separate ((sys.built ps).put p).1.rootArea := by
  have hempty : OwnedBy owner sys.rootArea.services := by
    obtain ⟨rootArea, hroot, hsys⟩ := bind_eq_ok.mp hnew
    cases hsys
    intro s hs
    rw [EmulatedArea.services_new hroot] at hs
    exact absurd hs List.not_mem_nil
  obtain ⟨hbefore, hp⟩ := List.forall_mem_append.mp hps
  obtain ⟨-, -, hoverlap, -⟩ := (sys.built ps).put_spec p
  exact ⟨hoverlap hok, separate_of_ownedBy
    (put_ownedBy (built_ownedBy hempty hbefore) (hp p (List.mem_singleton_self p)))⟩

theorem build_shares_fixture :
    ∃ sys, new 0x0003 zeroBlock zeroBlock [[], []] = .ok sys
      ∧ let later := ((sys.built [.service ⟨⟨0x0048⟩, zeroBlock, none, 0⟩]).put
          (.service ⟨⟨0x004A⟩, zeroBlock, none, 1⟩)).1
        Overlapping later.rootArea ∧ Separate later.rootArea := by
  have hps : ∀ q ∈ [Put.service ⟨⟨0x0048⟩, zeroBlock, none, 0⟩]
      ++ [Put.service ⟨⟨0x004A⟩, zeroBlock, none, 1⟩], OwnedBy (fun _ => 1) q.child.services := by
    refine List.forall_mem_cons.mpr ⟨?_, List.forall_mem_singleton.mpr ?_⟩
    · exact List.forall_mem_singleton.mpr rfl
    · exact List.forall_mem_singleton.mpr rfl
  exact ⟨_, rfl, build_shares rfl hps rfl⟩

end EmulatedSystem

end SuiCash.Felica
