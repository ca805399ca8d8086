import RiscvEm.Core.Access

/-!
The control and status registers: the access rules of `csr.c`, the six CSR
instructions, and the table that `rv_core_init_csr_regs` builds.
-/

namespace RiscvEm

variable {w : Xlen} {σ : Type}

/-! ### Access flags -/

def csrAccessRo (privLevel : PrivilegeLevel) : BitVec 16 := 1#16 <<< (privLevel.toInt * 2).toNat

def csrAccessWo (privLevel : PrivilegeLevel) : BitVec 16 := 2#16 <<< (privLevel.toInt * 2).toNat

def csrAccessRw (privLevel : PrivilegeLevel) : BitVec 16 := 3#16 <<< (privLevel.toInt * 2).toNat

def csrAccessReadGranted (privLevel : PrivilegeLevel) (accessFlags : BitVec 16) : Bool :=
  csrAccessRo privLevel &&& accessFlags != 0

def csrAccessWriteGranted (privLevel : PrivilegeLevel) (accessFlags : BitVec 16) : Bool :=
  csrAccessWo privLevel &&& accessFlags != 0

/-! ### Addresses and masks -/

def csrAddrMax : Nat := 0xFFF

def csrAddrMcycle : Nat := 0xB00
def csrAddrMinstret : Nat := 0xB02
def csrAddrMcycleh : Nat := 0xB80
def csrAddrMinstreth : Nat := 0xB82
def csrAddrCycle : Nat := 0xC00
def csrAddrTime : Nat := 0xC01
def csrAddrCycleh : Nat := 0xC80
def csrAddrTimeh : Nat := 0xC81

def csrAddrSstatus : Nat := 0x100
def csrAddrSie : Nat := 0x104
def csrAddrSip : Nat := 0x144

def csrMaskWrAll (w : Xlen) : RvUintXlen w := BitVec.allOnes w.bits

def csrMstatusMask : (w : Xlen) → RvUintXlen w
  | .rv32 => 0x807FF9BB
  | .rv64 => 0x8000000F007FF9BB

def csrMtvecMask : (w : Xlen) → RvUintXlen w
  | .rv32 => 0xFFFFFFFC
  | .rv64 => 0xFFFFFFFFFFFFFFFC

def csrSstatusMask : (w : Xlen) → RvUintXlen w
  | .rv32 => 0x800DE133
  | .rv64 => 0x80000003000DE133

def csrSatpMask : (w : Xlen) → RvUintXlen w
  | .rv32 => 0x803FFFFF
  | .rv64 => 0xF0000FFFFFFFFFFF

def csrMipMieMask (w : Xlen) : RvUintXlen w := 0xBBB#w.bits
def csrMidelegMask (w : Xlen) : RvUintXlen w := csrMipMieMask w
def csrMedelegMask (w : Xlen) : RvUintXlen w := 0xF3FF#w.bits
def csrStvecMask (w : Xlen) : RvUintXlen w := csrMtvecMask w
def csrSipSieMask (w : Xlen) : RvUintXlen w := 0x333#w.bits
def csrSidelegMask (w : Xlen) : RvUintXlen w := csrSipSieMask w
def csrSedelegMask (w : Xlen) : RvUintXlen w := 0xF1FF#w.bits

/-! ### Reading and writing a register -/

/-- `csr_regs[address]`; the array has `CSR_ADDR_MAX` entries. -/
def csrEntry (s : RvCore w σ) (address : Nat) : Except Stop (CsrReg w) :=
  if address < csrAddrMax then .ok (s.csrRegs address) else .error (.halt .outOfBounds)

def csrGetMask (s : RvCore w σ) (address : Nat) : Except Stop (RvUintXlen w) := do
  let entry ← csrEntry s address
  return entry.mask

/-- The `read_cb` callbacks. All of them succeed. -/
def csrReadCb (s : RvCore w σ) : CsrCallback → RvUintXlen w
  | .trapM r => trapMRead s.trap r
  | .trapS r => trapSRead s.trap r
  | .pmpCfg i => pmpReadCsrCfg s.pmp i
  | .pmpAddr i => pmpReadCsrAddr s.pmp i
  | .mmu => s.mmu.satpReg

def csrWriteCb (s : RvCore w σ) (currPriv : PrivilegeLevel) (csrVal : RvUintXlen w) :
    CsrCallback → RvRet × RvCore w σ
  | .trapM r => (.ok, { s with trap := trapMWrite s.trap r csrVal })
  | .trapS r => (.ok, { s with trap := trapSWrite s.trap r csrVal })
  | .pmpCfg i =>
      let (ret, pmp) := pmpWriteCsrCfg s.pmp currPriv i csrVal
      (ret, { s with pmp := pmp })
  | .pmpAddr i =>
      let (ret, pmp) := pmpWriteCsrAddr s.pmp currPriv i csrVal
      (ret, { s with pmp := pmp })
  | .mmu => (.ok, { s with mmu := { s.mmu with satpReg := csrVal } })

/-- The value read, `none` for `rv_err`. -/
def csrReadReg (s : RvCore w σ) (currPrivMode : PrivilegeLevel) (address : Nat) :
    Except Stop (Option (RvUintXlen w)) := do
  -- the bound admits the index one past the end of the table
  if csrAddrMax < address then return none
  let entry ← csrEntry s address
  if csrAccessReadGranted currPrivMode entry.accessFlags then
    let tmpOutVal := match entry.callback with
      | some cb => csrReadCb s cb
      | none => entry.value
    return some (tmpOutVal ||| entry.warlAlwaysEnabled)
  return none

/-- `csr_regs[address].value = v`. -/
def setCsrValue (table : Nat → CsrReg w) (address : Nat) (v : RvUintXlen w) : Nat → CsrReg w :=
  Function.update table address { table address with value := v }

def csrWriteReg (s : RvCore w σ) (currPrivMode : PrivilegeLevel) (address : Nat)
    (val : RvUintXlen w) : Except Stop (RvRet × RvCore w σ) := do
  if csrAddrMax < address then return (.err, s)
  let entry ← csrEntry s address
  if csrAccessWriteGranted currPrivMode entry.accessFlags then
    match entry.callback with
    | some cb => return csrWriteCb s currPrivMode val cb
    | none =>
        return (.ok, { s with csrRegs := setCsrValue s.csrRegs address (val &&& entry.mask) })
  return (.err, s)

/-! ### The CSR instructions -/

def illegalInstr (s : RvCore w σ) : RvCore w σ :=
  prepareSyncTrap s (BitVec.ofNat w.bits trapCauseIllegalInstr) 0

/-- `CSRRWx`. The old value is read only when it is wanted; otherwise it counts
as zero. -/
def csrrwx (s : RvCore w σ) (newVal : RvUintXlen w) : Except Stop (RvCore w σ) := do
  let csrAddr := (s.immediate.setWidth 16).toNat
  let csrMask ← csrGetMask s csrAddr
  let oldVal := if s.rd ≠ 0 then csrReadReg s s.currPrivMode csrAddr else .ok (some 0#w.bits)
  match ← oldVal with
  | none => return illegalInstr s
  | some csrVal =>
      let notAllowedBits := csrVal &&& ~~~csrMask
      let newCsrVal := notAllowedBits ||| (newVal &&& csrMask)
      match ← csrWriteReg s s.currPrivMode csrAddr newCsrVal with
      | (.err, s) => return illegalInstr s
      | (.ok, s) => return s.setX s.rd (csrVal &&& csrMask)

/-- The shape `CSRRSx` and `CSRRCx` share; `merge` forms the value written from
the old value and the masked operand. -/
def csrrReadModifyWrite (merge : RvUintXlen w → RvUintXlen w → RvUintXlen w)
    (s : RvCore w σ) (newVal : RvUintXlen w) : Except Stop (RvCore w σ) := do
  let csrAddr := (s.immediate.setWidth 16).toNat
  let csrMask ← csrGetMask s csrAddr
  match ← csrReadReg s s.currPrivMode csrAddr with
  | none => return illegalInstr s
  | some csrVal =>
      let newCsrVal := newVal &&& csrMask
      let written := if s.rs1 ≠ 0 then
          csrWriteReg s s.currPrivMode csrAddr (merge csrVal newCsrVal)
        else .ok (.ok, s)
      match ← written with
      | (.err, s) => return illegalInstr s
      | (.ok, s) => return s.setX s.rd (csrVal &&& csrMask)

def csrrsx : RvCore w σ → RvUintXlen w → Except Stop (RvCore w σ) :=
  csrrReadModifyWrite fun csrVal newCsrVal => csrVal ||| newCsrVal

def csrrcx : RvCore w σ → RvUintXlen w → Except Stop (RvCore w σ) :=
  csrrReadModifyWrite fun csrVal newCsrVal => csrVal &&& ~~~newCsrVal

def uimm (s : RvCore w σ) : RvUintXlen w := s.rs1.setWidth w.bits

def instrCsrrw (s : RvCore w σ) : Except Stop (RvCore w σ) := csrrwx s (s.x s.rs1)
def instrCsrrs (s : RvCore w σ) : Except Stop (RvCore w σ) := csrrsx s (s.x s.rs1)
def instrCsrrc (s : RvCore w σ) : Except Stop (RvCore w σ) := csrrcx s (s.x s.rs1)
def instrCsrrwi (s : RvCore w σ) : Except Stop (RvCore w σ) := csrrwx s (uimm s)
def instrCsrrsi (s : RvCore w σ) : Except Stop (RvCore w σ) := csrrsx s (uimm s)
def instrCsrrci (s : RvCore w σ) : Except Stop (RvCore w σ) := csrrcx s (uimm s)

/-! ### The table -/

def initCsrRegDefault (index : Nat) (accessFlags : BitVec 16) (initVal mask warl : RvUintXlen w) :
    Nat × CsrReg w :=
  (index, { accessFlags := accessFlags, value := initVal, mask := mask,
            warlAlwaysEnabled := warl })

def initCsrRegSpecial (index : Nat) (accessFlags : BitVec 16) (mask warl : RvUintXlen w)
    (callback : CsrCallback) : Nat × CsrReg w :=
  (index, { accessFlags := accessFlags, mask := mask, warlAlwaysEnabled := warl,
            callback := some callback })

def xstatusWarlBits : (w : Xlen) → RvUintXlen w
  | .rv32 => 0
  | .rv64 => (2#64 <<< 32) ||| (2#64 <<< 34)

def accessMs : BitVec 16 := csrAccessRw .machine ||| csrAccessRw .supervisor

def accessRoAll : BitVec 16 :=
  csrAccessRo .machine ||| csrAccessRo .supervisor ||| csrAccessRo .user

def csrInitMachine (w : Xlen) : List (Nat × CsrReg w) :=
  [ initCsrRegDefault 0xF11 (csrAccessRo .machine) 0 0 0,
    initCsrRegDefault 0xF12 (csrAccessRo .machine) 0 0 0,
    initCsrRegDefault 0xF13 (csrAccessRo .machine) 0 0 0,
    initCsrRegDefault 0xF14 (csrAccessRo .machine) 0 0 0,
    initCsrRegSpecial 0x300 (csrAccessRw .machine) (csrMstatusMask w) (xstatusWarlBits w)
      (.trapM .status),
    initCsrRegSpecial 0x301 (csrAccessRo .machine) (csrMaskWrAll w) 0 (.trapM .isa),
    initCsrRegSpecial 0x302 (csrAccessRw .machine) (csrMedelegMask w) 0 (.trapM .edeleg),
    initCsrRegSpecial 0x303 (csrAccessRw .machine) (csrMidelegMask w) 0 (.trapM .ideleg),
    initCsrRegSpecial 0x304 (csrAccessRw .machine) (csrMipMieMask w) 0 (.trapM .ie),
    initCsrRegSpecial 0x305 (csrAccessRw .machine) (csrMtvecMask w) 0 (.trapM .tvec),
    initCsrRegDefault 0x306 (csrAccessRw .machine) 0 0 0,
    initCsrRegSpecial 0x340 (csrAccessRw .machine) (csrMaskWrAll w) 0 (.trapM .scratch),
    initCsrRegSpecial 0x341 (csrAccessRw .machine) (csrMaskWrAll w) 0 (.trapM .epc),
    initCsrRegSpecial 0x342 (csrAccessRw .machine) (csrMaskWrAll w) 0 (.trapM .cause),
    initCsrRegSpecial 0x343 (csrAccessRw .machine) (csrMaskWrAll w) 0 (.trapM .tval),
    initCsrRegSpecial 0x344 (csrAccessRw .machine) (csrMipMieMask w) 0 (.trapM .ip) ]

/-- The PMP registers; those the build does not have are read-only zeros. -/
def csrInitPmp (w : Xlen) : List (Nat × CsrReg w) :=
  ((List.range (pmpNrCfgRegs w)).map fun i =>
      initCsrRegSpecial (0x3A0 + i) (csrAccessRw .machine) (csrMaskWrAll w) 0 (.pmpCfg i)) ++
    ((List.range' (pmpNrCfgRegs w) (16 - pmpNrCfgRegs w)).map fun i =>
      initCsrRegDefault (0x3A0 + i) (csrAccessRo .machine) 0 0 0) ++
    ((List.finRange 16).map fun i =>
      initCsrRegSpecial (0x3B0 + i.val) (csrAccessRw .machine) (csrMaskWrAll w) 0 (.pmpAddr i)) ++
    ((List.range' 16 48).map fun i =>
      initCsrRegDefault (0x3B0 + i) (csrAccessRo .machine) 0 0 0)

def csrInitSupervisor (w : Xlen) : List (Nat × CsrReg w) :=
  [ initCsrRegSpecial csrAddrSstatus accessMs (csrSstatusMask w) 0 (.trapS .status),
    initCsrRegSpecial 0x102 accessMs (csrSedelegMask w) 0 (.trapS .edeleg),
    initCsrRegSpecial 0x103 accessMs (csrSidelegMask w) 0 (.trapS .ideleg),
    initCsrRegSpecial csrAddrSie accessMs (csrSipSieMask w) 0 (.trapS .ie),
    initCsrRegSpecial 0x105 accessMs (csrStvecMask w) 0 (.trapS .tvec),
    initCsrRegDefault 0x106 accessMs 0 0 0,
    initCsrRegSpecial 0x140 accessMs (csrMaskWrAll w) 0 (.trapS .scratch),
    initCsrRegSpecial 0x141 accessMs (csrMaskWrAll w) 0 (.trapS .epc),
    initCsrRegSpecial 0x142 accessMs (csrMaskWrAll w) 0 (.trapS .cause),
    initCsrRegSpecial 0x143 accessMs (csrMaskWrAll w) 0 (.trapS .tval),
    initCsrRegSpecial csrAddrSip accessMs (csrSipSieMask w) 0 (.trapS .ip),
    initCsrRegSpecial 0x180 accessMs (csrSatpMask w) 0 .mmu ]

/-- The counters. The second statement under each of the two closing loops of the
source is outside the loop and runs once, with the final index 32. -/
def csrInitCounters (w : Xlen) : List (Nat × CsrReg w) :=
  [ initCsrRegDefault csrAddrMcycle (csrAccessRw .machine) 0 (csrMaskWrAll w) 0,
    initCsrRegDefault csrAddrMcycleh (csrAccessRw .machine) 0 (csrMaskWrAll w) 0,
    initCsrRegDefault csrAddrMinstret (csrAccessRw .machine) 0 (csrMaskWrAll w) 0,
    initCsrRegDefault csrAddrMinstreth (csrAccessRw .machine) 0 (csrMaskWrAll w) 0,
    initCsrRegDefault csrAddrCycle accessRoAll 0 (csrMaskWrAll w) 0,
    initCsrRegDefault csrAddrCycleh accessRoAll 0 (csrMaskWrAll w) 0,
    initCsrRegDefault csrAddrTime accessRoAll 0 (csrMaskWrAll w) 0,
    initCsrRegDefault csrAddrTimeh accessRoAll 0 (csrMaskWrAll w) 0 ] ++
    ((List.range' 3 29).map fun i =>
      initCsrRegDefault (csrAddrMcycle + i) (csrAccessRo .machine) 0 0 0) ++
    [ initCsrRegDefault (csrAddrCycle + 32) accessRoAll 0 0 0 ] ++
    ((List.range' 3 29).map fun i =>
      initCsrRegDefault (csrAddrMcycleh + i) (csrAccessRw .machine) 0 0 0) ++
    [ initCsrRegDefault (csrAddrCycleh + 32) accessRoAll 0 0 0 ]

def csrInitList (w : Xlen) : List (Nat × CsrReg w) :=
  csrInitMachine w ++ csrInitPmp w ++ csrInitSupervisor w ++ csrInitCounters w

def rvCoreInitCsrRegs (w : Xlen) : Nat → CsrReg w :=
  (csrInitList w).foldl (fun table entry => Function.update table entry.1 entry.2) fun _ => {}

end RiscvEm
