import RiscvEm.Core.State

/-!
Memory accesses of the core: the PMP-checked access, the page-table walk of
`mmu.c`, and the translated access that the instruction handlers use.
-/

namespace RiscvEm

variable {w : Xlen} {σ : Type}

def prepareSyncTrap (s : RvCore w σ) (cause tval : RvUintXlen w) : RvCore w σ :=
  if s.syncTrapPending then s
  else { s with syncTrapPending := true, syncTrapCause := cause, syncTrapTval := tval }

/-- The mode an access is made with: with MPRV set, data accesses use MPP. -/
def checkMprvOverride (s : RvCore w σ) (accessType : BusAccessType) : PrivilegeLevel :=
  if accessType = .instr then s.currPrivMode
  else
    let mprv := extract s.status trapXstatusMprvBit 1
    let retVal := PrivilegeLevel.ofField (extract s.status trapXstatusMppBit 2).toNat
    if mprv ≠ 0 then retVal else s.currPrivMode

def accessFaultCause : BusAccessType → Nat
  | .instr => trapCauseInstrAccessFault
  | .read => trapCauseLoadAccessFault
  | .write => trapCauseStoreAmoAccessFault

def pageFaultCause : BusAccessType → Nat
  | .instr => trapCauseInstrPageFault
  | .read => trapCauseLoadPageFault
  | .write => trapCauseStoreAmoPageFault

def pmpCheckedBusAccess (busAccess : BusAccessFunc w σ) : BusAccessFunc w (RvCore w σ) :=
  fun s privLevel accessType addr value len => do
    let trapCause := BitVec.ofNat w.bits (accessFaultCause accessType)
    if pmpMemCheck s.pmp privLevel addr len accessType = .err then
      return (.err, value, prepareSyncTrap s trapCause addr)
    let (ret, value, priv) ← busAccess s.priv privLevel accessType addr value len
    return (ret, value, { s with priv := priv })

/-! ### Translation -/

def mmuPageValid : Nat := 0
def mmuPageRead : Nat := 1
def mmuPageWrite : Nat := 2
def mmuPageExec : Nat := 3
def mmuPageUser : Nat := 4
def mmuPageAccessed : Nat := 6
def mmuPageDirty : Nat := 7

/-- `extractxlen(satp, MMU_SATP_MODE_BIT, MMU_SATP_MODE_NR_BITS)`. -/
def satpMode (satp : RvUintXlen w) : RvUintXlen w :=
  match w with
  | .rv32 => extract satp 31 1
  | .rv64 => extract satp 60 4

def vpn (virtAddr : RvUintXlen w) (i : Nat) : RvUintXlen w :=
  (virtAddr >>> (12 + 10 * i)) &&& 0x3ff

def pteFlags (pte : RvUintXlen w) : Byte := pte.setWidth 8

/-- Step 3 of the walk: the entry is not valid, or writable without being
readable. -/
def pteInvalid (flags : Byte) : Bool :=
  !checkBit flags mmuPageValid || (!checkBit flags mmuPageRead && checkBit flags mmuPageWrite)

/-- Steps 2 to 4 of the walk, from level `i` down. The result is the level and
the entry of the leaf, `none` for a page fault. The entry variable keeps its
value when its read is refused. -/
def mmuWalk (busAccess : BusAccessFunc w σ) (currPriv : PrivilegeLevel)
    (virtAddr : RvUintXlen w) : Nat → RvUintXlen w → RvUintXlen w → RvCore w σ →
      Except Halt (Option (Nat × RvUintXlen w) × RvCore w σ)
  | i, a, pte, s => do
    let pteAddr := a + vpn virtAddr i * 4
    let (_, bytes, s) ← pmpCheckedBusAccess busAccess s currPriv .read pteAddr
      (leBytes w.bytes pte.toNat) w.bytes
    let pte := BitVec.ofNat w.bits (leNat (bytes.take w.bytes))
    let flags := pteFlags pte
    if pteInvalid flags then return (none, s)
    else if flags &&& 0xA ≠ 0 then return (some (i, pte), s)
    else
      match i with
      | 0 => return (none, s)
      | i + 1 => mmuWalk busAccess currPriv virtAddr i ((pte >>> 10) * 4096) pte s

/-- Steps 5 to 8 on the leaf `pte` of level `i`: the physical address, `none`
for a page fault. -/
def mmuLeaf (currPriv : PrivilegeLevel) (virtAddr : RvUintXlen w) (accessType : BusAccessType)
    (mxr sum : Bool) (i : Nat) (pte : RvUintXlen w) : Option (BitVec 64) :=
  let flags := pteFlags pte
  let userPage := checkBit flags mmuPageUser
  let flags := if accessType = .read ∧ checkBit flags mmuPageExec ∧ mxr then
    flags ||| 0x2 else flags
  let pte := pte <<< 2
  let ppn0 := (pte >>> 12) &&& 0x3ff
  let ppn1 := (pte >>> 22) &&& 0xfff
  -- the sums are formed at the width of a register and widened afterwards
  let physAddr := if i = 0 then
      (ppn1 <<< 22) ||| (ppn0 <<< 12) ||| (virtAddr &&& 0xfff)
    else (ppn1 <<< 22) ||| (virtAddr &&& 0x3fffff)
  if currPriv = .user ∧ !userPage then none
  else if currPriv = .supervisor ∧ userPage ∧ !sum then none
  else if !checkBit flags (accessType.toNat + 1) then none
  else if 0 < i ∧ ppn0 ≠ 0 then none
  else if !checkBit flags mmuPageAccessed ∨
      (accessType = .write ∧ !checkBit flags mmuPageDirty) then none
  else some (physAddr.setWidth 64)

/-- The physical address of `virtAddr`, `none` for `mmu_page_fault`. -/
def mmuVirtToPhys (busAccess : BusAccessFunc w σ) (s : RvCore w σ) (currPriv : PrivilegeLevel)
    (virtAddr : RvUintXlen w) (accessType : BusAccessType) (mxr sum : Bool) :
    Except Halt (Option (BitVec 64) × RvCore w σ) := do
  if currPriv = .machine ∨ satpMode s.mmu.satpReg = 0 then
    return (some (virtAddr.setWidth 64), s)
  let a := (s.mmu.satpReg &&& 0x3FFFFF) * 4096
  match ← mmuWalk busAccess currPriv virtAddr 1 a 0 s with
  | (none, s) => return (none, s)
  | (some (i, pte), s) =>
      match mmuLeaf currPriv virtAddr accessType mxr sum i pte with
      | none => return (none, s)
      | some physAddr =>
          if accessType = .instr then
            return (some physAddr, { s with
              mmu := { s.mmu with
                lastPhysPc := physAddr.setWidth w.bits, lastVirtPc := virtAddr } })
          else return (some physAddr, s)

/-- The access every instruction makes: translation, then the checked access to
the physical address, which the callback takes at the width of a register. -/
def mmuCheckedBusAccess (busAccess : BusAccessFunc w σ) (s : RvCore w σ)
    (accessType : BusAccessType) (addr : RvUintXlen w) (value : List Byte) (len : Nat) :
    Except Halt (RvRet × List Byte × RvCore w σ) := do
  let internalPrivLevel := checkMprvOverride s accessType
  let trapCause := BitVec.ofNat w.bits (pageFaultCause accessType)
  let mxr := checkBit s.status trapXstatusMxrBit
  let sum := checkBit s.status trapXstatusSumBit
  match ← mmuVirtToPhys busAccess s internalPrivLevel addr accessType mxr sum with
  | (none, s) => return (.err, value, prepareSyncTrap s trapCause addr)
  | (some physAddr, s) =>
      pmpCheckedBusAccess busAccess s internalPrivLevel accessType
        (physAddr.setWidth w.bits) value len

end RiscvEm
