import RiscvEm.Core.Run
import RiscvEm.Devices.Plic
import RiscvEm.Devices.Uart8250
import RiscvEm.Lib.Except
import RiscvEm.Lib.Transition

/-!
The example system: its devices on the bus, the state that `rv_soc_init` leaves, and
one round of the main loop.
-/

namespace RiscvEm

variable {w : Xlen}

/-- The devices of `rv_soc_td`. A build has one of the two UARTs. -/
structure Devices where
  clint : Clint := {}
  plic : Plic := {}
  uart : SimpleUart := {}
  uart8250 : UartNs8250 := {}

/-- The callbacks that `rv_soc_init_mem_access_cbs` installs for the devices. The memory
entries have their callback in `busTargetAccess`. -/
def deviceAccess (useSimpleUart : Bool) : BusTarget → BusAccessFunc w Devices :=
  fun target devices privLevel accessType address value len =>
    match target with
    | .clint => do
        let (ret, value, clint) ←
          clintBusAccess devices.clint privLevel accessType address value len
        return (ret, value, { devices with clint := clint })
    | .plic => do
        let (ret, value, plic) ← plicBusAccess devices.plic privLevel accessType address value len
        return (ret, value, { devices with plic := plic })
    | .uart =>
        if useSimpleUart then do
          let (ret, value, uart) ←
            simpleUartBusAccess devices.uart privLevel accessType address value len
          return (ret, value, { devices with uart := uart })
        else do
          let (ret, value, uart8250) ←
            uartBusAccess devices.uart8250 privLevel accessType address value len
          return (ret, value, { devices with uart8250 := uart8250 })
    | _ => .error .nullCallback

def socBusAccess (useSimpleUart : Bool) : BusAccessFunc w (RvSoc Devices) :=
  rvSocBusAccess useSimpleUart (deviceAccess useSimpleUart)

/-! ### The initial state -/

def writeMemFromFile (contents : List Byte) (mem : Memory) (start : Nat) (memSize : Int) :
    Except Halt Memory :=
  if memSize < contents.length then
    .error (.die (.fileTooLarge contents.length memSize.toNat))
  else .ok (mem.write start contents contents.length)

def resetVec (fdtAddr : BitVec 64) : Xlen → List (BitVec 32)
  | .rv32 =>
      [ 0x00000297, 0x02828613, 0xf1402573, 0x0202a583, 0x0182a283, 0x00028067,
        BitVec.ofNat 32 ramBaseAddr, 0, fdtAddr.setWidth 32, 0 ]
  | .rv64 =>
      [ 0x00000297, 0x02828613, 0xf1402573, 0x0202b583, 0x0182b283, 0x00028067,
        BitVec.ofNat 32 ramBaseAddr, 0, fdtAddr.setWidth 32, 0 ]

/-- `fdt_addr`: the device tree lies at a multiple of 16 MiB below the end of the RAM. -/
def fdtAddrOf (fdtSize : Nat) : BitVec 64 :=
  let ramAddrEnd := BitVec.ofNat 64 (ramBaseAddr + ramSizeBytes)
  (ramAddrEnd - BitVec.ofNat 64 fdtSize) / 0x1000000 * 0x1000000

/-- `rv_soc_init`, with the contents of the firmware, the device tree and the initial
file system. -/
def rvSocInit (w : Xlen) (fw : List Byte) (dtb initrd : Option (List Byte)) :
    Except Halt (RvCore w (RvSoc Devices)) := do
  let fdtAddr := (dtb.map fun contents => fdtAddrOf contents.length).getD 0
  let ram ← match dtb with
    | some contents =>
        let tmp := fdtAddr - BitVec.ofNat 64 ramBaseAddr
        writeMemFromFile contents (fun _ => 0) tmp.toNat
          (BitVec.ofNat 64 ramSizeBytes - tmp).toInt
    | none => .ok fun _ => 0
  let ram ← writeMemFromFile fw ram 0 ramSizeBytes
  let fromMem ← match initrd with
    | some contents => writeMemFromFile contents (fun _ => 0) 0 fromSizeBytes
    | none => .ok fun _ => 0
  let vector := (resetVec fdtAddr w).flatMap fun word => leBytes 4 word.toNat
  let mrom := Memory.write (fun _ => 0) 0 vector vector.length
  return rvCoreInit { ram := ram, mrom := mrom, fromMem := fromMem, devices := {} }

/-! ### The main loop -/

def uartUpdateOf (useSimpleUart : Bool) (devices : Devices) :
    Except Halt (Byte × List Byte × Devices) :=
  if useSimpleUart then do
    let (irq, printed, uart) ← simpleUartUpdate devices.uart
    return (irq, printed, { devices with uart := uart })
  else do
    let (irq, printed, uart8250) ← uartUpdate devices.uart8250
    return (irq, printed, { devices with uart8250 := uart8250 })

/-- The updates of the devices in one round: the lines `mei`, `mti` and `msi`, and the
bytes that are printed. -/
def updateDevices (useSimpleUart : Bool) (devices : Devices) :
    Except Halt (Byte × Byte × Byte × List Byte × Devices) := do
  let (uartIrqPending, printed, devices) ← uartUpdateOf useSimpleUart devices
  let (mei, plic) := plicUpdate (plicUpdatePending devices.plic 10 uartIrqPending)
  let (mti, msi, clint) := clintUpdate devices.clint
  return (mei, mti, msi, printed, { devices with plic := plic, clint := clint })

def rvSocRound (useSimpleUart : Bool) (s : RvCore w (RvSoc Devices)) :
    Except Stop (List Byte × RvCore w (RvSoc Devices)) := do
  let s ← rvCoreRun (socBusAccess useSimpleUart) s
  let (mei, mti, msi, printed, devices) ← updateDevices useSimpleUart s.priv.devices
  let s ← rvCoreProcessInterrupts mei mti msi { s with priv := { s.priv with devices := devices } }
  return (printed, s)

def rvSocRounds (useSimpleUart : Bool) :
    Nat → RvCore w (RvSoc Devices) → Except Stop (RvCore w (RvSoc Devices))
  | 0, s => .ok s
  | n + 1, s => do
      let (_, s) ← rvSocRound useSimpleUart s
      rvSocRounds useSimpleUart n s

/-! ### Runs -/

def addRxChar (useSimpleUart : Bool) (devices : Devices) (x : Byte) : Except Halt Devices :=
  if useSimpleUart then do
    let uart ← simpleUartAddRxChar devices.uart x
    return { devices with uart := uart }
  else do
    let uart8250 ← uartAddRxChar devices.uart8250 x
    return { devices with uart8250 := uart8250 }

inductive SocStep (useSimpleUart : Bool) :
    RvCore w (RvSoc Devices) → RvCore w (RvSoc Devices) → Prop
  | round {s s' : RvCore w (RvSoc Devices)} {printed : List Byte}
      (h : rvSocRound useSimpleUart s = .ok (printed, s')) : SocStep useSimpleUart s s'
  | arrival {s : RvCore w (RvSoc Devices)} {x : Byte} {devices : Devices}
      (h : addRxChar useSimpleUart s.priv.devices x = .ok devices) :
      SocStep useSimpleUart s { s with priv := { s.priv with devices := devices } }

def SocReachable (useSimpleUart : Bool) : RvCore w (RvSoc Devices) → Prop :=
  Transition.Reachable (fun s => ∃ fw dtb initrd, rvSocInit w fw dtb initrd = .ok s)
    (SocStep useSimpleUart)

theorem rvSocRounds_reaches {useSimpleUart : Bool} {n : Nat} {s s' : RvCore w (RvSoc Devices)}
    (h : rvSocRounds useSimpleUart n s = .ok s') :
    Relation.ReflTransGen (SocStep useSimpleUart) s s' := by
  induction n generalizing s with
  | zero =>
      obtain rfl := Except.ok.inj h
      exact .refl
  | succ n ih =>
      obtain ⟨⟨printed, s₁⟩, hround, hrest⟩ := Except.bind_eq_ok.mp h
      exact .head (.round hround) (ih hrest)

end RiscvEm
