import RiscvEm.Core.Decode

/-!
The public functions of `core.c`: one instruction, the interrupt processing that
follows it, and the initial state.
-/

namespace RiscvEm

variable {w : Xlen} {σ : Type}

/-! ### One instruction -/

/-- The bytes of the core from `instruction` on. The 64-bit build fetches eight
bytes, so that the four decoder fields after `instruction` are written too. -/
def instructionBytes (s : RvCore w σ) : List Byte :=
  leBytes 4 s.instruction.toNat ++
    match w with
    | .rv32 => []
    | .rv64 => [s.opcode, s.rd.setWidth 8, s.rs1.setWidth 8, s.rs2.setWidth 8]

/-- Stores the bytes of a fetch. The decoder overwrites all fields but
`instruction` before it reads them. -/
def storeInstruction (s : RvCore w σ) (bytes : List Byte) : RvCore w σ :=
  match w with
  | .rv32 => { s with instruction := leLoad 4 bytes }
  | .rv64 => { s with
      instruction := leLoad 4 bytes
      opcode := bytes.getD 4 0, rd := (bytes.getD 5 0).setWidth 5
      rs1 := (bytes.getD 6 0).setWidth 5, rs2 := (bytes.getD 7 0).setWidth 5 }

def rvCoreFetch (busAccess : BusAccessFunc w σ) (s : RvCore w σ) :
    Except Stop (RvRet × RvCore w σ) := do
  let (ret, bytes, s) ←
    mmuCheckedBusAccess busAccess s .instr s.pc (instructionBytes s) w.bytes
  return (ret, storeInstruction s bytes)

def rvCoreExecute (busAccess : BusAccessFunc w σ) : Handler w σ := fun s =>
  match s.executeCb with
  | none => .error (.halt .nullCallback)
  | some cb => do
      let s ← cb.handler busAccess s
      return s.setX 0 0

/-- The counters that follow `curr_cycle`, with the part of it they show. -/
def cycleCsrs : Xlen → List (Nat × Nat)
  | .rv32 =>
      [ (csrAddrMcycle, 0), (csrAddrMinstret, 0), (csrAddrCycle, 0), (csrAddrTime, 0),
        (csrAddrMcycleh, 32), (csrAddrMinstreth, 32), (csrAddrCycleh, 32), (csrAddrTimeh, 32) ]
  | .rv64 => [ (csrAddrMcycle, 0), (csrAddrMinstret, 0), (csrAddrCycle, 0), (csrAddrTime, 0) ]

/-- The end of `rv_core_run`: the program counter, the cycle and its copies in
the CSR table are advanced. -/
def advance (s : RvCore w σ) : RvCore w σ :=
  let cycle := s.currCycle + 1
  { s with
    pc := if s.nextPc ≠ 0 then s.nextPc else s.pc + 4
    currCycle := cycle
    csrRegs := (cycleCsrs w).foldl
      (fun table entry => setCsrValue table entry.1 ((cycle >>> entry.2).setWidth w.bits))
      s.csrRegs }

def rvCoreRun (busAccess : BusAccessFunc w σ) : Handler w σ := fun s => do
  let (ret, s) ← rvCoreFetch busAccess { s with nextPc := 0 }
  let s ← if ret = .ok then do
      let s ← rvCoreDecode s
      rvCoreExecute busAccess s
    else pure s
  return advance s

/-! ### Interrupt processing -/

/-- The trap of level `serving` is entered: the serving level's vector becomes the
program counter. -/
def serveTrap (s : RvCore w σ) (serving : PrivilegeLevel) (isInterrupt : Bool)
    (cause : RvUintXlen w) : Except Stop (RvCore w σ) := do
  let (pc, trap) ←
    trapServeInterrupt s.trap serving s.currPrivMode isInterrupt cause s.pc s.syncTrapTval
  return { s with pc := pc, trap := trap, currPrivMode := serving }

def interruptLoop (s : RvCore w σ) : List Nat → Except Stop (RvCore w σ)
  | [] => .ok s
  | cause :: rest => do
      match ← trapCheckInterruptPending s.trap s.currPrivMode cause with
      | some serving => serveTrap s serving true (BitVec.ofNat w.bits cause)
      | none => interruptLoop s rest

/-- The causes from `trap_cause_machine_exti` down to `trap_cause_user_swi`. -/
def interruptCauses : List Nat := (List.range (trapCauseMachineExti + 1)).reverse

/-- `rv_core_prepare_interrupts`. A synchronous trap is served before any
interrupt. -/
def rvCorePrepareInterrupts : Handler w σ := fun s =>
  if s.syncTrapPending then do
    let serving ← trapCheckExceptionDelegation s.trap s.currPrivMode s.syncTrapCause
    let s ← serveTrap s serving false s.syncTrapCause
    return { s with syncTrapPending := false, syncTrapCause := 0, syncTrapTval := 0 }
  else interruptLoop s interruptCauses

def rvCoreUpdateInterrupts (s : RvCore w σ) (mei mti msi : Byte) : RvCore w σ :=
  { s with trap := trapSetPendingBits s.trap mei mti msi }

def rvCoreProcessInterrupts (mei mti msi : Byte) : Handler w σ := fun s =>
  rvCorePrepareInterrupts (rvCoreUpdateInterrupts s mei mti msi)

/-! ### The initial state -/

/-- `RV_EXTENSION_TO_MISA`, as a bit number. -/
def rvExtensionToMisa (extension : Char) : Nat := extension.toNat - 'A'.toNat

def initialIsa (w : Xlen) : RvUintXlen w :=
  (['I', 'M', 'A', 'S', 'U'].foldl (fun isa e => isa ||| 1#w.bits <<< rvExtensionToMisa e) 0) |||
    match w with
    | .rv32 => 1#32 <<< 30
    | .rv64 => 2#64 <<< 62

def rvCoreInit (priv : σ) : RvCore w σ :=
  { currPrivMode := .machine
    pc := BitVec.ofNat w.bits mromBaseAddr
    priv := priv
    csrRegs := rvCoreInitCsrRegs w
    trap := ({} : Trap w).setReg .m .isa (initialIsa w) }

end RiscvEm
