import RiscvEm.Devices.Registers

/-!
The core-local interruptor: the software interrupt bit, the timer and its comparator.
-/

namespace RiscvEm

variable {w : Xlen}

def clintMsipOffs : Nat := 0x0000
def clintMtimecmpOffs : Nat := 0x4000
def clintMtimeOffs : Nat := 0xBFF8
def clintRegSizeBytes : Nat := 8

structure Clint where
  msip : BitVec 64 := 0
  mtimecmp : BitVec 64 := 0
  mtime : BitVec 64 := 0
  deriving DecidableEq

namespace Clint

def regs (clint : Clint) : Nat → BitVec (8 * 8)
  | 0 => clint.msip
  | 1 => clint.mtimecmp
  | 2 => clint.mtime
  | _ => 0

def ofRegs (regs : Nat → BitVec (8 * 8)) : Clint := ⟨regs 0, regs 1, regs 2⟩

end Clint

/-- `ADDR_WITHIN` on an offset into a device, where the sum is far below the width. -/
def offsWithin (addr start size : Nat) : Bool := start ≤ addr && addr < start + size

/-- `get_u8_arr_index_offs`, `none` for the value -1. -/
def getU8ArrIndexOffs (address : Nat) : Option Nat :=
  if address < clintMsipOffs + clintRegSizeBytes then some (0 * clintRegSizeBytes)
  else if offsWithin address clintMtimecmpOffs clintRegSizeBytes then some (1 * clintRegSizeBytes)
  else if offsWithin address clintMtimeOffs clintRegSizeBytes then some (2 * clintRegSizeBytes)
  else none

/-- `clint_bus_access`. An offset without a register is accepted and neither stores nor
loads a value. -/
def clintBusAccess : BusAccessFunc w Clint :=
  fun clint _ accessType address value len =>
    match getU8ArrIndexOffs address.toNat with
    | none => .ok (.ok, value, clint)
    | some arrIndexOffs =>
        let tmpAddr := address.toNat % 8 + arrIndexOffs
        if 3 * clintRegSizeBytes < tmpAddr + len then .error .outOfBounds
        else if accessType = .write then
          .ok (.ok, value, .ofRegs (writeWords clint.regs tmpAddr value len))
        else .ok (.ok, (wordBytes clint.regs).read tmpAddr value len, clint)

def clintUpdate (clint : Clint) : Byte × Byte × Clint :=
  let clint := { clint with mtime := clint.mtime + 1 }
  (if clint.mtimecmp ≤ clint.mtime then 1 else 0, (clint.msip &&& 0x1).setWidth 8, clint)

end RiscvEm
