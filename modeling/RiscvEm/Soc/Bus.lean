import RiscvEm.Types

/-!
The bus of the example system: the memories, the table of address ranges, and the
dispatch of an access to the entry that claims it.

The callbacks of the devices are a parameter; an entry names its callback and the
object behind `priv` together.
-/

namespace RiscvEm

variable {w : Xlen} {δ : Type}

/-! ### Configuration -/

def ramBaseAddr : Nat := 0x80000000
def ramSizeBytes : Nat := 0x8000000
def clintBaseAddr : Nat := 0x2000000
def clintSizeBytes : Nat := 0x10000
def plicBaseAddr : Nat := 0x0C000000
def plicSizeBytes : Nat := 0x3FFF004
def simpleUartTxRegAddr : Nat := 0x3000000
def simpleUartSizeBytes : Nat := 0x2
def uart8250TxRegAddr : Nat := 0x10000000
def uartNs8250NrRegs : Nat := 12
def mromSizeBytes : Nat := 0xf000
def fromBaseAddr : Nat := 0xc0000000
def fromSizeBytes : Nat := 0xc800000

/-! ### Memories -/

abbrev Memory := Nat → Byte

/-- `memcpy(&mem_ptr[address], value, len)`. -/
def Memory.write (mem : Memory) (address : Nat) (value : List Byte) (len : Nat) : Memory :=
  fun a => if address ≤ a ∧ a < address + len then value.getD (a - address) 0 else mem a

/-- The bytes at the address after a write of as many. -/
theorem Memory.map_write (mem : Memory) (address : Nat) {value : List Byte} {len : Nat}
    (hvalue : value.length = len) :
    ((List.range len).map fun i => mem.write address value len (address + i)) = value := by
  refine List.ext_getElem (by simp [hvalue]) fun i hi hi' => ?_
  have hlt : i < len := hvalue ▸ hi'
  rw [List.getElem_map, List.getElem_range, Memory.write, if_pos (by omega),
    Nat.add_sub_cancel_left, List.getD_eq_getElem?_getD, List.getElem?_eq_getElem hi',
    Option.getD_some]

/-- `memcpy(value, &mem_ptr[address], len)`. -/
def Memory.read (mem : Memory) (address : Nat) (value : List Byte) (len : Nat) : List Byte :=
  (List.range len).map (fun i => mem (address + i)) ++ value.drop len

/-- `memory_bus_access` on an array of `size` bytes. -/
def memoryBusAccess (size : Nat) : BusAccessFunc w Memory :=
  fun mem _ accessType address value len =>
    if size < address.toNat + len then .error .outOfBounds
    else if accessType = .write then .ok (.ok, value, mem.write address.toNat value len)
    else .ok (.ok, mem.read address.toNat value len, mem)

/-! ### The table -/

/-- The objects that entries of `mem_access_cbs` give access to; `from` is a
keyword here. -/
inductive BusTarget | ram | clint | plic | uart | mrom | fromMem
  deriving DecidableEq, Inhabited

structure MemAccessCb (w : Xlen) where
  target : BusTarget
  addrStart : RvUintXlen w
  memSize : RvUintXlen w
  deriving DecidableEq

def initMemAccessStruct (target : BusTarget) (addrStart memSize : Nat) : MemAccessCb w :=
  ⟨target, BitVec.ofNat w.bits addrStart, BitVec.ofNat w.bits memSize⟩

/-- `rv_soc_init_mem_access_cbs`; the flag is `USE_SIMPLE_UART`. -/
def rvSocInitMemAccessCbs (w : Xlen) (useSimpleUart : Bool) : List (MemAccessCb w) :=
  [ initMemAccessStruct .ram ramBaseAddr ramSizeBytes,
    initMemAccessStruct .clint clintBaseAddr clintSizeBytes,
    initMemAccessStruct .plic plicBaseAddr plicSizeBytes,
    if useSimpleUart then initMemAccessStruct .uart simpleUartTxRegAddr simpleUartSizeBytes
    else initMemAccessStruct .uart uart8250TxRegAddr uartNs8250NrRegs,
    initMemAccessStruct .mrom mromBaseAddr mromSizeBytes,
    initMemAccessStruct .fromMem fromBaseAddr fromSizeBytes ]

/-! ### The dispatch -/

/-- `rv_soc_td`, without the core. -/
structure RvSoc (δ : Type) where
  ram : Memory := fun _ => 0
  mrom : Memory := fun _ => 0
  fromMem : Memory := fun _ => 0
  devices : δ

/-- `ADDR_WITHIN_LEN`, with the sums taken at the width of an address. -/
def addrWithinLen (addr : RvUintXlen w) (len : Nat) (start size : RvUintXlen w) : Bool :=
  start ≤ addr && addr + BitVec.ofNat w.bits len ≤ start + size

/-- The entry that `rv_soc_bus_access` dispatches to, with its index and the
offset it is given. -/
def dispatch (table : List (MemAccessCb w)) (address : RvUintXlen w) (len : Nat) :
    Option (Nat × MemAccessCb w × RvUintXlen w) :=
  (table.zipIdx.find? fun e => addrWithinLen address len e.1.addrStart e.1.memSize).map
    fun e => (e.2, e.1, address - e.1.addrStart)

def busTargetAccess (deviceAccess : BusTarget → BusAccessFunc w δ) (target : BusTarget) :
    BusAccessFunc w (RvSoc δ) := fun soc privLevel accessType offset value len =>
  match target with
  | .ram => do
      let (ret, value, mem) ←
        memoryBusAccess ramSizeBytes soc.ram privLevel accessType offset value len
      return (ret, value, { soc with ram := mem })
  | .mrom => do
      let (ret, value, mem) ←
        memoryBusAccess mromSizeBytes soc.mrom privLevel accessType offset value len
      return (ret, value, { soc with mrom := mem })
  | .fromMem => do
      let (ret, value, mem) ←
        memoryBusAccess fromSizeBytes soc.fromMem privLevel accessType offset value len
      return (ret, value, { soc with fromMem := mem })
  | device => do
      let (ret, value, devices) ←
        deviceAccess device soc.devices privLevel accessType offset value len
      return (ret, value, { soc with devices := devices })

def rvSocBusAccess (useSimpleUart : Bool) (deviceAccess : BusTarget → BusAccessFunc w δ) :
    BusAccessFunc w (RvSoc δ) := fun soc privLevel accessType address value len =>
  match dispatch (rvSocInitMemAccessCbs w useSimpleUart) address len with
  | some (_, entry, tmpAddr) =>
      busTargetAccess deviceAccess entry.target soc privLevel accessType tmpAddr value len
  | none => .error (.die (.invalidAddress address.toNat len))

end RiscvEm
