import RiscvEm.Helper

/-!
The trap registers and the routines of `trap.c`: pending bits, the choice of the
level that serves an interrupt or an exception, trap entry and trap return.

The registers of the three levels live in one block. `status`, `ie` and `ip` are
shared by all levels; the setup and handling groups exist once for each.
-/

namespace RiscvEm

/-- The register sets `get_priv_regs` can return: `trap->m`, `trap->s`, `trap->u`. -/
inductive TrapLevel | m | s | u
  deriving DecidableEq, Inhabited

inductive TrapReg
  | status | isa | edeleg | ideleg | ie | tvec | counteren
  | scratch | epc | cause | tval | ip
  deriving DecidableEq, Inhabited

structure TrapShared (w : Xlen) where
  status : RvUintXlen w := 0
  ie : RvUintXlen w := 0
  ip : RvUintXlen w := 0
  deriving DecidableEq

structure TrapSetup (w : Xlen) where
  isa : RvUintXlen w := 0
  edeleg : RvUintXlen w := 0
  ideleg : RvUintXlen w := 0
  tvec : RvUintXlen w := 0
  counteren : RvUintXlen w := 0
  deriving DecidableEq

structure TrapHandling (w : Xlen) where
  scratch : RvUintXlen w := 0
  epc : RvUintXlen w := 0
  cause : RvUintXlen w := 0
  tval : RvUintXlen w := 0
  deriving DecidableEq

/-- `trap_td`. The field `setup .m` is `regs_data.m_setup`, and so on. -/
structure Trap (w : Xlen) where
  shared : TrapShared w := {}
  setup : TrapLevel → TrapSetup w := fun _ => {}
  handling : TrapLevel → TrapHandling w := fun _ => {}

variable {w : Xlen}

namespace Trap

/-- `*trap->l.regs[r]`, through the pointers that `trap_init` sets up. -/
def reg (t : Trap w) (l : TrapLevel) : TrapReg → RvUintXlen w
  | .status => t.shared.status
  | .isa => (t.setup l).isa
  | .edeleg => (t.setup l).edeleg
  | .ideleg => (t.setup l).ideleg
  | .ie => t.shared.ie
  | .tvec => (t.setup l).tvec
  | .counteren => (t.setup l).counteren
  | .scratch => (t.handling l).scratch
  | .epc => (t.handling l).epc
  | .cause => (t.handling l).cause
  | .tval => (t.handling l).tval
  | .ip => t.shared.ip

/-- `*trap->l.regs[r] = v`. -/
def setReg (t : Trap w) (l : TrapLevel) (r : TrapReg) (v : RvUintXlen w) : Trap w :=
  match r with
  | .status => { t with shared := { t.shared with status := v } }
  | .isa => { t with setup := Function.update t.setup l { t.setup l with isa := v } }
  | .edeleg => { t with setup := Function.update t.setup l { t.setup l with edeleg := v } }
  | .ideleg => { t with setup := Function.update t.setup l { t.setup l with ideleg := v } }
  | .ie => { t with shared := { t.shared with ie := v } }
  | .tvec => { t with setup := Function.update t.setup l { t.setup l with tvec := v } }
  | .counteren =>
      { t with setup := Function.update t.setup l { t.setup l with counteren := v } }
  | .scratch =>
      { t with handling := Function.update t.handling l { t.handling l with scratch := v } }
  | .epc => { t with handling := Function.update t.handling l { t.handling l with epc := v } }
  | .cause =>
      { t with handling := Function.update t.handling l { t.handling l with cause := v } }
  | .tval =>
      { t with handling := Function.update t.handling l { t.handling l with tval := v } }
  | .ip => { t with shared := { t.shared with ip := v } }

end Trap

def TrapReg.shared : TrapReg → Bool
  | .status | .ie | .ip => true
  | _ => false

/-- A write is seen through the same register of the same level, and through the
shared registers of every level. -/
theorem Trap.reg_setReg (t : Trap w) (l l' : TrapLevel) (r r' : TrapReg) (v : RvUintXlen w) :
    (t.setReg l r v).reg l' r' =
      if r' = r ∧ (l' = l ∨ r.shared = true) then v else t.reg l' r' := by
  by_cases hl : l' = l
  · subst hl
    cases r <;> cases r' <;> simp [setReg, reg]
  · cases r <;> cases r' <;> simp [setReg, reg, TrapReg.shared, hl]

/-! ### Status bits -/

def trapXstatusUpieBit : Nat := 4
def trapXstatusSppBit : Nat := 8
def trapXstatusMppBit : Nat := 11
def trapXstatusMprvBit : Nat := 17
def trapXstatusSumBit : Nat := 18
def trapXstatusMxrBit : Nat := 19

/-! ### Causes -/

def trapCauseMachineSwi : Nat := 3
def trapCauseMachineTi : Nat := 7
def trapCauseSuperExti : Nat := 9
def trapCauseMachineExti : Nat := 11

def trapCauseInstrAccessFault : Nat := 1
def trapCauseIllegalInstr : Nat := 2
def trapCauseLoadAccessFault : Nat := 5
def trapCauseStoreAmoAccessFault : Nat := 7
def trapCauseUserEcall : Nat := 8
def trapCauseInstrPageFault : Nat := 12
def trapCauseLoadPageFault : Nat := 13
def trapCauseStoreAmoPageFault : Nat := 15

/-! ### The routines of `trap.c` -/

/-- `get_priv_regs`. Every caller dereferences the result at once, so a null
result is the caller's crash. -/
def getPrivRegs : PrivilegeLevel → Except Stop TrapLevel
  | .machine => .ok .m
  | .supervisor => .ok .s
  | .user => .ok .u
  | _ => .error .nullPrivRegs

def trapMWrite (trap : Trap w) (r : TrapReg) (csrVal : RvUintXlen w) : Trap w :=
  trap.setReg .m r csrVal

def trapMRead (trap : Trap w) (r : TrapReg) : RvUintXlen w := trap.reg .m r

def trapSWrite (trap : Trap w) (r : TrapReg) (csrVal : RvUintXlen w) : Trap w :=
  trap.setReg .s r csrVal

def trapSRead (trap : Trap w) (r : TrapReg) : RvUintXlen w := trap.reg .s r

/-- One line of `trap_set_pending_bits`: the pending bit follows the line while
the interrupt is enabled. -/
def trapSetPendingBit (irq : Nat) (line : Byte) (trap : Trap w) : Trap w :=
  if checkBit (trap.reg .m .ie) irq then
    trap.setReg .m .ip (assignXlenBit (trap.reg .m .ip) irq (line.setWidth w.bits))
  else trap

def trapSetPendingBits (trap : Trap w) (extInt timInt swInt : Byte) : Trap w :=
  let trap := trapSetPendingBit trapCauseMachineExti extInt trap
  let trap := trapSetPendingBit trapCauseSuperExti extInt trap
  let trap := trapSetPendingBit trapCauseMachineTi timInt trap
  trapSetPendingBit trapCauseMachineSwi swInt trap

/-- The values a loop that counts down from machine mode goes through. -/
def PrivilegeLevel.countDown : List PrivilegeLevel := [.machine, .reserved, .supervisor, .user]

/-- The loop of `trap_check_interrupt_pending` over the levels still to be
visited. It ends on the first level that does not delegate the interrupt, or one
step below the current mode. -/
def delegationLoop (trap : Trap w) (curr : PrivilegeLevel) (interruptBit : RvUintXlen w) :
    List PrivilegeLevel → Except Stop PrivilegeLevel
  | [] => .ok .unknown
  | level :: rest =>
      if ¬ curr ≤ level then .ok level
      else if level = .reserved then delegationLoop trap curr interruptBit rest
      else do
        let regs ← getPrivRegs level
        if trap.reg regs .ideleg &&& interruptBit = 0 then .ok level
        else delegationLoop trap curr interruptBit rest

def trapCheckInterruptPending (trap : Trap w) (curr : PrivilegeLevel) (irq : Nat) :
    Except Stop (Option PrivilegeLevel) := do
  let interruptBit := 1#w.bits <<< irq
  let x ← getPrivRegs curr
  if trap.reg x .ip &&& interruptBit = 0 ∨ trap.reg x .ie &&& interruptBit = 0 then
    return none
  let level ← delegationLoop trap curr interruptBit PrivilegeLevel.countDown
  -- the first mask keeps the xIE bits from the current mode up, the second those
  -- from the serving level down
  if (0xF0#w.bits >>> (PrivilegeLevel.max - curr.toInt).toNat &&&
        (trap.reg x .status &&& 0xF#w.bits)) &&&
      0xF#w.bits >>> (PrivilegeLevel.machine.toInt - level.toInt).toNat ≠ 0 then
    return some level
  return none

def exceptionLoop (trap : Trap w) (curr : PrivilegeLevel) (exceptionBit : RvUintXlen w) :
    List PrivilegeLevel → Except Stop PrivilegeLevel
  | [] => .ok .unknown
  | level :: rest =>
      if level = .reserved then exceptionLoop trap curr exceptionBit rest
      else do
        let regs ← getPrivRegs level
        if trap.reg regs .edeleg &&& exceptionBit = 0 then .ok level
        else if level ≤ curr then .ok level
        else exceptionLoop trap curr exceptionBit rest

def trapCheckExceptionDelegation (trap : Trap w) (curr : PrivilegeLevel)
    (cause : RvUintXlen w) : Except Stop PrivilegeLevel :=
  exceptionLoop trap curr (1#w.bits <<< cause.toNat) PrivilegeLevel.countDown

/-- The status word after `trap_serve_interrupt`: the previous mode goes to xPP,
xIE to xPIE, and xIE is cleared. -/
def servedStatus (status : RvUintXlen w) (serving previous : PrivilegeLevel) : RvUintXlen w :=
  let prev := BitVec.ofInt w.bits previous.toInt
  let status :=
    if serving = .machine then assignXlenValueWithinReg status trapXstatusMppBit prev 0x3
    else if serving = .supervisor then
      assignXlenValueWithinReg status trapXstatusSppBit prev 0x1
    else status
  let ie := (status >>> serving.toInt.toNat) &&& 0x1
  let status := assignXlenBit status (trapXstatusUpieBit + serving.toInt.toNat) ie
  clearBit status serving.toInt.toNat

/-- Trap entry. Returns the new program counter and the trap registers. -/
def trapServeInterrupt (trap : Trap w) (serving previous : PrivilegeLevel) (isInterrupt : Bool)
    (cause currPc tval : RvUintXlen w) : Except Stop (RvUintXlen w × Trap w) := do
  let x ← getPrivRegs serving
  let trap := trap.setReg x .epc (if isInterrupt then currPc else currPc - 4)
  let trap := trap.setReg x .cause
    ((BitVec.ofNat w.bits isInterrupt.toNat <<< (w.bits - 1)) ||| cause)
  let trap := trap.setReg x .status (servedStatus (trap.reg x .status) serving previous)
  let trap := trap.setReg x .tval tval
  return (trap.reg x .tvec, trap)

def restoredStatus (status : RvUintXlen w) (serving : PrivilegeLevel) : RvUintXlen w :=
  let pie := (status >>> (trapXstatusUpieBit + serving.toInt.toNat)) &&& 0x1
  let status := assignXlenBit status serving.toInt.toNat pie
  clearBit status (trapXstatusUpieBit + serving.toInt.toNat)

def restoredMode (status : RvUintXlen w) : PrivilegeLevel → PrivilegeLevel
  | .machine => .ofField (extract status trapXstatusMppBit 2).toNat
  | .supervisor => .ofField (extract status trapXstatusSppBit 1).toNat
  | _ => .user

def trapRestoreIrqSettings (trap : Trap w) (serving : PrivilegeLevel) :
    Except Stop (PrivilegeLevel × Trap w) := do
  let x ← getPrivRegs serving
  let status := trap.reg x .status
  return (restoredMode status serving, trap.setReg x .status (restoredStatus status serving))

end RiscvEm
