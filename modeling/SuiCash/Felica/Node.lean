import SuiCash.Felica.Secure

/-!
# Services and areas of an emulated card

`ServiceCode` and the attribute table of `types.rs`, and the tree of `structure.rs`: an
area owns areas and services, a service has a code, a key and the blocks it manages.
Services that overlap share their blocks, so a service holds a reference into the store
and not the blocks (`BlocksRef`).

The lookups walk the tree in order and take the first match; `findService_mem` says what
they find is a service of the tree with that code.
-/

namespace SuiCash.Felica

open Des

/-! ### Service codes -/

inductive ServiceKind where
  | random
  | cyclic
  | purse
  deriving DecidableEq

inductive ServiceAttribute where
  | randomReadWrite
  | randomReadOnly
  | cyclicReadWrite
  | cyclicReadOnly
  | purseDirect
  | purseCashback
  | purseDecrement
  | purseReadOnly
  deriving DecidableEq

namespace ServiceAttribute

/-- The attribute of six bits, the lowest of which, the authentication bit, is not looked at. -/
def fromAttributeBits (attributeBits : UInt8) : Option ServiceAttribute :=
  match (attributeBits &&& 0x3F) >>> 1 with
  | 0b00100 => some randomReadWrite
  | 0b00101 => some randomReadOnly
  | 0b00110 => some cyclicReadWrite
  | 0b00111 => some cyclicReadOnly
  | 0b01000 => some purseDirect
  | 0b01001 => some purseCashback
  | 0b01010 => some purseDecrement
  | 0b01011 => some purseReadOnly
  | _ => none

def kind : ServiceAttribute → ServiceKind
  | randomReadWrite | randomReadOnly => .random
  | cyclicReadWrite | cyclicReadOnly => .cyclic
  | purseDirect | purseCashback | purseDecrement | purseReadOnly => .purse

def allowsWrite : ServiceAttribute → Bool
  | randomReadOnly | cyclicReadOnly | purseReadOnly => false
  | _ => true

/-- Whether access mode `001b` is accepted. -/
def allowsCashback : ServiceAttribute → Bool
  | purseCashback => true
  | _ => false

end ServiceAttribute

/-- Ten bits of service number and six of attribute. -/
structure ServiceCode where
  raw : UInt16
  deriving DecidableEq

namespace ServiceCode

variable (code : ServiceCode)

def number : UInt16 := code.raw >>> 6

def attributes : UInt8 := (code.raw &&& 0x3F).toUInt8

/-- `attribute`. -/
def serviceAttribute : Option ServiceAttribute := ServiceAttribute.fromAttributeBits code.attributes

def kind : Option ServiceKind := code.serviceAttribute.map ServiceAttribute.kind

/-- Whether authentication comes before access: the low bit is clear. -/
def requiresKey : Bool := code.raw &&& 1 = 0

end ServiceCode

/-! ### The tree -/

/-- The limits of a limit purse; its generation number, which no access reads, is left out. -/
structure LimitPurseProperty where
  upperLimit : Int32
  lowerLimit : Int32
  deriving DecidableEq

/-- A shared block vector, by its place in the store. -/
abbrev BlocksRef := ℕ

structure EmulatedService where
  serviceCode : ServiceCode
  key : Block
  limitPurse : Option LimitPurseProperty
  blocks : BlocksRef
  deriving DecidableEq

inductive AreaChild where
  | area (areaCode endServiceCode : UInt16) (key : Block) (children : List AreaChild)
  | service (s : EmulatedService)

structure EmulatedArea where
  areaCode : UInt16
  endServiceCode : UInt16
  key : Block
  children : List AreaChild

mutual

def AreaChild.findService (code : ServiceCode) : AreaChild → Option EmulatedService
  | .area _ _ _ children => findServiceIn code children
  | .service s => if s.serviceCode = code then some s else none

def findServiceIn (code : ServiceCode) : List AreaChild → Option EmulatedService
  | [] => none
  | child :: rest =>
    match child.findService code with
    | some s => some s
    | none => findServiceIn code rest

end

mutual

/-- The area of a code, the area itself before what it owns. -/
def AreaChild.findArea (code : UInt16) : AreaChild → Option EmulatedArea
  | .area areaCode endServiceCode key children =>
    if areaCode = code then some ⟨areaCode, endServiceCode, key, children⟩
    else findAreaIn code children
  | .service _ => none

def findAreaIn (code : UInt16) : List AreaChild → Option EmulatedArea
  | [] => none
  | child :: rest =>
    match child.findArea code with
    | some a => some a
    | none => findAreaIn code rest

end

namespace EmulatedArea

variable (area : EmulatedArea)

def findService (code : ServiceCode) : Option EmulatedService := findServiceIn code area.children

def findArea (code : UInt16) : Option EmulatedArea :=
  if area.areaCode = code then some area else findAreaIn code area.children

end EmulatedArea

mutual

def AreaChild.services : AreaChild → List EmulatedService
  | .area _ _ _ children => servicesIn children
  | .service s => [s]

def servicesIn : List AreaChild → List EmulatedService
  | [] => []
  | child :: rest => child.services ++ servicesIn rest

end

def EmulatedArea.services (area : EmulatedArea) : List EmulatedService := servicesIn area.children

/-! ### What is found -/

mutual

theorem AreaChild.findService_eq (code : ServiceCode) (child : AreaChild) :
    child.findService code = child.services.find? (·.serviceCode = code) := by
  match child with
  | .area _ _ _ children =>
    rw [AreaChild.findService, AreaChild.services]
    exact findServiceIn_eq code children
  | .service s =>
    rw [AreaChild.findService, AreaChild.services, List.find?_singleton]
    simp

theorem findServiceIn_eq (code : ServiceCode) (children : List AreaChild) :
    findServiceIn code children = (servicesIn children).find? (·.serviceCode = code) := by
  match children with
  | [] => rfl
  | child :: rest =>
    rw [findServiceIn, servicesIn, List.find?_append, AreaChild.findService_eq code child,
      findServiceIn_eq code rest]
    cases child.services.find? (·.serviceCode = code) <;> rfl

end

/-- The service found is the first of the tree with that code. -/
theorem EmulatedArea.findService_eq (area : EmulatedArea) (code : ServiceCode) :
    area.findService code = area.services.find? (·.serviceCode = code) :=
  findServiceIn_eq code area.children

theorem EmulatedArea.findService_mem {area : EmulatedArea} {code : ServiceCode}
    {s : EmulatedService} (h : area.findService code = some s) :
    s ∈ area.services ∧ s.serviceCode = code := by
  rw [EmulatedArea.findService_eq] at h
  exact ⟨List.mem_of_find?_eq_some h, by simpa using List.find?_some h⟩

end SuiCash.Felica
