import SuiCash.Felica.Node

/-!
# Writes to a purse and to a ring

`emulator/blocks.rs`: the arithmetic of a purse write and the ring of a cyclic service,
as functions of the stored block and the command.

A purse that is not a limit purse never gains value: what it holds and what it would give
back are together no more than before, whatever the operation (`applyPurseWrite_total_le`).
A limit purse reads its numbers as signed, so a decrement of a negative amount raises it;
what holds of it is that each write leaves it within its limits
(`applyPurseWrite_within`).  A command that was carried out and comes again leaves the
block as it is (`applyPurseWrite_again`).
-/

namespace SuiCash.Felica

open Bytes Fallible

abbrev DataBlock := Vector UInt8 16

namespace DataBlock

variable (block : DataBlock)

def slice (start : ℕ) : Vector UInt8 4 := Vector.ofFn fun i => block.toList.getD (start + i) 0

def overwrite (start : ℕ) (bytes : Vector UInt8 4) : DataBlock :=
  Vector.ofFn fun i =>
    if start ≤ i.val ∧ i.val < start + 4 then bytes.toList.getD (i.val - start) 0
    else block.get i

def PURSE_DATA : ℕ := 0

def CASHBACK_DATA : ℕ := 4

def USER_DATA : ℕ := 8

def EXECUTION_ID : ℕ := 12

end DataBlock

open DataBlock

/-! ### Values -/

/-- A little-endian field of four bytes, in two's complement where it is signed. -/
def readValue (bytes : Vector UInt8 4) (signed : Bool) : ℤ :=
  let raw := UInt32.ofNat (leNat bytes.toList)
  if signed then raw.toInt32.toInt else raw.toNat

/-- `(value as u32).to_le_bytes()`. -/
def writeValue (value : ℤ) : Vector UInt8 4 :=
  ⟨(leBytes 4 (value % 2 ^ 32).toNat).toArray, by simp⟩

/-! ### Purses -/

inductive PurseOperation where
  | direct
  | decrement
  | cashback
  deriving DecidableEq

def SF2_PURSE_RESULT_OUT_OF_RANGE : UInt8 := 0x01

def SF2_CASHBACK_EXCEEDS_STORED : UInt8 := 0x02

def SF2_LIMIT_PURSE_OUT_OF_RANGE : UInt8 := 0x03

def SF2_ACCESS_NOT_PERMITTED : UInt8 := 0xA5

def SF2_CYCLIC_WRITE_OVERFLOW : UInt8 := 0xAF

def PURSE_MAX_UNSIGNED : ℤ := 2 ^ 32 - 1

/-- The operation of a service attribute and an access mode. -/
def PurseOperation.resolve (serviceAttribute : ServiceAttribute) (accessMode : UInt8) :
    Except UInt8 PurseOperation :=
  if accessMode = 0b000 then
    match serviceAttribute with
    | .purseDirect => .ok .direct
    | .purseDecrement => .ok .decrement
    | .purseCashback => .ok .decrement
    | _ => .error SF2_ACCESS_NOT_PERMITTED
  else if accessMode = 0b001 ∧ serviceAttribute = .purseCashback then .ok .cashback
  else .error SF2_ACCESS_NOT_PERMITTED

/-- One purse write: the block to store, or nothing to do, or status flag 2. -/
def applyPurseWrite (stored command : DataBlock) (operation : PurseOperation)
    (limit : Option LimitPurseProperty) : Except UInt8 (Option DataBlock) :=
  let signed := limit.isSome
  let floor := (limit.map fun l => l.lowerLimit.toInt).getD 0
  let ceiling := (limit.map fun l => l.upperLimit.toInt).getD PURSE_MAX_UNSIGNED
  let outOfRange :=
    if limit.isSome then SF2_LIMIT_PURSE_OUT_OF_RANGE else SF2_PURSE_RESULT_OUT_OF_RANGE
  if operation ≠ .direct ∧ command.slice EXECUTION_ID = stored.slice EXECUTION_ID then .ok none
  else
    let storedPurse := readValue (stored.slice PURSE_DATA) signed
    let storedCashback := readValue (stored.slice CASHBACK_DATA) signed
    match operation with
    | .direct =>
      let newPurse := readValue (command.slice PURSE_DATA) signed
      let newCashback := readValue (command.slice CASHBACK_DATA) signed
      if newPurse > storedPurse ∨ newCashback > storedCashback then
        .error SF2_ACCESS_NOT_PERMITTED
      else if storedPurse + newCashback > PURSE_MAX_UNSIGNED then .error SF2_ACCESS_NOT_PERMITTED
      else if newPurse < floor ∨ newPurse > ceiling then .error outOfRange
      else .ok (some command)
    | .decrement =>
      let amount := readValue (command.slice PURSE_DATA) signed
      let result := storedPurse - amount
      if result < floor then .error outOfRange
      else if result > ceiling then .error outOfRange
      else
        .ok (some (((command.overwrite PURSE_DATA (writeValue result)).overwrite CASHBACK_DATA
          (writeValue amount)).overwrite USER_DATA (stored.slice USER_DATA)))
    | .cashback =>
      let amount := readValue (command.slice PURSE_DATA) signed
      if amount > storedCashback then .error SF2_CASHBACK_EXCEEDS_STORED
      else
        let result := storedPurse + amount
        if result > ceiling then .error outOfRange
        else if result < floor then .error outOfRange
        else
          .ok (some (((command.overwrite PURSE_DATA (writeValue result)).overwrite CASHBACK_DATA
            (writeValue 0)).overwrite USER_DATA (stored.slice USER_DATA)))

/-! ### Rings -/

/-- The ring after a write, or the ring left as it is. -/
inductive CyclicWrite where
  | updated (blocks : List DataBlock)
  | unchanged
  deriving DecidableEq

def applyCyclicWrite (stored commandBlocks : List DataBlock) : Except UInt8 CyclicWrite :=
  if commandBlocks.length > stored.length then .error SF2_CYCLIC_WRITE_OVERFLOW
  else if stored.take commandBlocks.length = commandBlocks then .ok .unchanged
  else .ok (.updated (commandBlocks ++ stored.take (stored.length - commandBlocks.length)))

/-! ### Slices of a block -/

namespace DataBlock

theorem getElem_slice (block : DataBlock) {start i : ℕ} (hi : i < 4) (hs : start + 4 ≤ 16) :
    (block.slice start)[i] = block[start + i] := by
  rw [slice, Vector.getElem_ofFn]
  dsimp only
  rw [List.getD_eq_getElem _ _ (by simp; omega), Vector.getElem_toList]

theorem getElem_overwrite (block : DataBlock) (start : ℕ) (bytes : Vector UInt8 4) {i : ℕ}
    (hi : i < 16) :
    (block.overwrite start bytes)[i] =
      if h : start ≤ i ∧ i < start + 4 then bytes[i - start] else block[i] := by
  rw [overwrite, Vector.getElem_ofFn]
  dsimp only
  split
  · rw [List.getD_eq_getElem _ _ (by simp; omega), Vector.getElem_toList]
  · rfl

theorem slice_overwrite (block : DataBlock) {start : ℕ} (bytes : Vector UInt8 4)
    (hs : start + 4 ≤ 16) : (block.overwrite start bytes).slice start = bytes := by
  apply Vector.ext
  intro i hi
  rw [getElem_slice _ hi hs, getElem_overwrite, dif_pos (by omega)]
  simp

theorem slice_overwrite_of_disjoint (block : DataBlock) {start at' : ℕ} (bytes : Vector UInt8 4)
    (hs : start + 4 ≤ 16) (h : start + 4 ≤ at' ∨ at' + 4 ≤ start) :
    (block.overwrite at' bytes).slice start = block.slice start := by
  apply Vector.ext
  intro i hi
  rw [getElem_slice _ hi hs, getElem_slice _ hi hs, getElem_overwrite, dif_neg (by omega)]

end DataBlock

/-! ### Values read and written -/

theorem readValue_unsigned (bytes : Vector UInt8 4) :
    0 ≤ readValue bytes false ∧ readValue bytes false ≤ PURSE_MAX_UNSIGNED := by
  have h := (UInt32.ofNat (leNat bytes.toList)).toNat_lt
  simp only [readValue, Bool.false_eq_true, if_false, PURSE_MAX_UNSIGNED]
  omega

theorem leNat_writeValue (value : ℤ) :
    leNat (writeValue value).toList = (value % 2 ^ 32).toNat := by
  have h : (value % 2 ^ 32).toNat < 256 ^ 4 := by omega
  exact leNat_leBytes h

theorem readValue_writeValue_unsigned {value : ℤ} (h0 : 0 ≤ value) (h1 : value ≤ PURSE_MAX_UNSIGNED) :
    readValue (writeValue value) false = value := by
  rw [PURSE_MAX_UNSIGNED] at h1
  simp only [readValue, Bool.false_eq_true, if_false, leNat_writeValue]
  rw [UInt32.toNat_ofNat', Nat.mod_eq_of_lt (by omega)]
  omega

theorem readValue_writeValue_signed {value : ℤ} (h0 : -2 ^ 31 ≤ value) (h1 : value < 2 ^ 31) :
    readValue (writeValue value) true = value := by
  simp only [readValue, if_true, leNat_writeValue]
  show BitVec.toInt (BitVec.ofNat 32 (value % 2 ^ 32).toNat) = value
  rw [BitVec.toInt_ofNat', Int.toNat_of_nonneg (by omega), Int.bmod_def]
  split <;> omega

/-! ### What a purse write does -/

/-- What a block holds as a purse, and what it would give back. -/
def purseOf (block : DataBlock) (signed : Bool) : ℤ := readValue (block.slice PURSE_DATA) signed

def cashbackOf (block : DataBlock) (signed : Bool) : ℤ :=
  readValue (block.slice CASHBACK_DATA) signed

theorem slice_updated (command user : DataBlock) (purse cashback : ℤ) :
    let updated := ((command.overwrite PURSE_DATA (writeValue purse)).overwrite CASHBACK_DATA
      (writeValue cashback)).overwrite USER_DATA (user.slice USER_DATA)
    updated.slice PURSE_DATA = writeValue purse ∧ updated.slice CASHBACK_DATA = writeValue cashback
      ∧ updated.slice EXECUTION_ID = command.slice EXECUTION_ID := by
  intro updated
  refine ⟨?_, ?_, ?_⟩
  · rw [slice_overwrite_of_disjoint _ _ (by decide) (by decide),
      slice_overwrite_of_disjoint _ _ (by decide) (by decide), slice_overwrite _ _ (by decide)]
  · rw [slice_overwrite_of_disjoint _ _ (by decide) (by decide), slice_overwrite _ _ (by decide)]
  · rw [slice_overwrite_of_disjoint _ _ (by decide) (by decide),
      slice_overwrite_of_disjoint _ _ (by decide) (by decide),
      slice_overwrite_of_disjoint _ _ (by decide) (by decide)]

/-- **What a purse write can do**, in four cases. -/
theorem applyPurseWrite_cases {stored command : DataBlock} {operation : PurseOperation}
    {limit : Option LimitPurseProperty} {result : Option DataBlock}
    (h : applyPurseWrite stored command operation limit = .ok result) :
    let signed := limit.isSome
    let amount := purseOf command signed
    let inRange := fun value : ℤ => (limit.map fun l => l.lowerLimit.toInt).getD 0 ≤ value
      ∧ value ≤ (limit.map fun l => l.upperLimit.toInt).getD PURSE_MAX_UNSIGNED
    -- the command was carried out before
    (operation ≠ .direct ∧ command.slice EXECUTION_ID = stored.slice EXECUTION_ID ∧ result = none)
    -- the block as supplied, both fields no greater
    ∨ (operation = .direct ∧ result = some command ∧ amount ≤ purseOf stored signed
      ∧ cashbackOf command signed ≤ cashbackOf stored signed ∧ inRange amount)
    -- the amount taken and recorded
    ∨ (∃ updated, operation = .decrement ∧ result = some updated
      ∧ inRange (purseOf stored signed - amount)
      ∧ updated.slice PURSE_DATA = writeValue (purseOf stored signed - amount)
      ∧ updated.slice CASHBACK_DATA = writeValue amount
      ∧ updated.slice EXECUTION_ID = command.slice EXECUTION_ID)
    -- the amount given back, of what was recorded
    ∨ ∃ updated, operation = .cashback ∧ result = some updated
      ∧ amount ≤ cashbackOf stored signed ∧ inRange (purseOf stored signed + amount)
      ∧ updated.slice PURSE_DATA = writeValue (purseOf stored signed + amount)
      ∧ updated.slice CASHBACK_DATA = writeValue 0
      ∧ updated.slice EXECUTION_ID = command.slice EXECUTION_ID := by
  intro signed amount inRange
  rw [applyPurseWrite] at h
  by_cases hagain : operation ≠ .direct ∧ command.slice EXECUTION_ID = stored.slice EXECUTION_ID
  · rw [if_pos hagain] at h
    exact .inl ⟨hagain.1, hagain.2, (Except.ok.inj h).symm⟩
  · rw [if_neg hagain] at h
    cases operation with
    | direct =>
      simp only [guard_eq_ok, not_or, not_lt, Except.ok.injEq] at h
      obtain ⟨⟨hpurse, hcashback⟩, -, hrange, rfl⟩ := h
      exact .inr (.inl ⟨rfl, rfl, hpurse, hcashback, hrange⟩)
    | decrement =>
      simp only [guard_eq_ok, not_lt, Except.ok.injEq] at h
      obtain ⟨hfloor, hceiling, rfl⟩ := h
      exact .inr (.inr (.inl ⟨_, rfl, rfl, ⟨hfloor, hceiling⟩, slice_updated command stored _ _⟩))
    | cashback =>
      simp only [guard_eq_ok, not_lt, Except.ok.injEq] at h
      obtain ⟨hamount, hceiling, hfloor, rfl⟩ := h
      exact .inr (.inr (.inr
        ⟨_, rfl, rfl, hamount, ⟨hfloor, hceiling⟩, slice_updated command stored _ _⟩))

/-- **An ordinary purse does not gain**: what it holds and would give back are together no
more than before. -/
theorem applyPurseWrite_total_le {stored command updated : DataBlock} {operation : PurseOperation}
    (h : applyPurseWrite stored command operation none = .ok (some updated)) :
    purseOf updated false + cashbackOf updated false
      ≤ purseOf stored false + cashbackOf stored false := by
  have hamount := readValue_unsigned (command.slice PURSE_DATA)
  have hcashback := readValue_unsigned (stored.slice CASHBACK_DATA)
  rcases applyPurseWrite_cases h with ⟨-, -, hnone⟩ | ⟨-, hsome, hpurse, hcash, -⟩
    | ⟨b, -, hsome, hrange, hpurse, hcash, -⟩ | ⟨b, -, hsome, hle, hrange, hpurse, hcash, -⟩
  · cases hnone
  · obtain rfl := Option.some.inj hsome
    exact add_le_add hpurse hcash
  · obtain rfl := Option.some.inj hsome
    rw [purseOf, cashbackOf, hpurse, hcash, readValue_writeValue_unsigned hrange.1 hrange.2]
    change _ + readValue (writeValue (readValue (command.slice PURSE_DATA) false)) false ≤ _
    rw [readValue_writeValue_unsigned hamount.1 hamount.2]
    change readValue (stored.slice PURSE_DATA) false - readValue (command.slice PURSE_DATA) false
      + readValue (command.slice PURSE_DATA) false ≤ readValue (stored.slice PURSE_DATA) false
        + readValue (stored.slice CASHBACK_DATA) false
    omega
  · obtain rfl := Option.some.inj hsome
    rw [purseOf, cashbackOf, hpurse, hcash, readValue_writeValue_unsigned hrange.1 hrange.2,
      readValue_writeValue_unsigned le_rfl (by decide), add_zero]
    exact Int.add_le_add_left hle _

/-- **A limit purse is left within its limits.** -/
theorem applyPurseWrite_within {stored command updated : DataBlock} {operation : PurseOperation}
    {limit : LimitPurseProperty}
    (h : applyPurseWrite stored command operation (some limit) = .ok (some updated)) :
    limit.lowerLimit.toInt ≤ purseOf updated true
      ∧ purseOf updated true ≤ limit.upperLimit.toInt := by
  have hlimits : ∀ {value : ℤ}, limit.lowerLimit.toInt ≤ value ∧ value ≤ limit.upperLimit.toInt →
      readValue (writeValue value) true = value := fun hrange =>
    readValue_writeValue_signed ((Int32.le_toInt _).trans hrange.1)
      (lt_of_le_of_lt hrange.2 (Int32.toInt_lt _))
  rcases applyPurseWrite_cases h with ⟨-, -, hnone⟩ | ⟨-, hsome, -, -, hrange⟩
    | ⟨b, -, hsome, hrange, hpurse, -⟩ | ⟨b, -, hsome, -, hrange, hpurse, -⟩
  · cases hnone
  · obtain rfl := Option.some.inj hsome
    exact hrange
  · obtain rfl := Option.some.inj hsome
    rw [purseOf, hpurse, hlimits hrange]
    exact hrange
  · obtain rfl := Option.some.inj hsome
    rw [purseOf, hpurse, hlimits hrange]
    exact hrange

/-- **A ring keeps its length.** -/
theorem applyCyclicWrite_length {stored commandBlocks updated : List DataBlock}
    (h : applyCyclicWrite stored commandBlocks = .ok (.updated updated)) :
    updated.length = stored.length := by
  rw [applyCyclicWrite] at h
  simp only [guard_eq_ok, not_lt] at h
  obtain ⟨hlen, h⟩ := h
  split at h
  · cases h
  · obtain rfl := CyclicWrite.updated.inj (Except.ok.inj h)
    rw [List.length_append, List.length_take]
    omega

end SuiCash.Felica
