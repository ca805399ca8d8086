import RiscvEm.Devices.Clint

/-!
The platform-level interrupt controller: its registers, the selection of the interrupt
that it reports, and the claim register.
-/

namespace RiscvEm

variable {w : Xlen}

/-! ### Registers -/

abbrev nrPrioMemRegs : Nat := 256
abbrev nrPendingRegs : Nat := 8
abbrev nrEnableRegs : Nat := 8
abbrev nrClaimedBitsRegs : Nat := 8

structure Plic where
  priority : Fin nrPrioMemRegs → BitVec 32 := fun _ => 0
  pendingBits : Fin nrPendingRegs → BitVec 32 := fun _ => 0
  enableBits : Fin nrEnableRegs → BitVec 32 := fun _ => 0
  priorityThreshold : BitVec 32 := 0
  claimComplete : BitVec 32 := 0
  claimedBits : Fin nrClaimedBitsRegs → BitVec 32 := fun _ => 0

def assignU32Bit (outVar : BitVec 32) (nbit : Nat) (bitValue : Bool) : BitVec 32 :=
  (outVar &&& ~~~(1#32 <<< nbit)) ||| ((if bitValue then 1#32 else 0#32) <<< nbit)

def assignArrayBit {n : Nat} (words : Fin n → BitVec 32) (reg : Fin n) (bit : Nat)
    (value : Bool) : Fin n → BitVec 32 :=
  Function.update words reg (assignU32Bit (words reg) bit value)

namespace Plic

def pendingWord : Nat := nrPrioMemRegs
def enableWord : Nat := pendingWord + nrPendingRegs
def thresholdWord : Nat := enableWord + nrEnableRegs
def claimWord : Nat := thresholdWord + 1
def claimedWord : Nat := claimWord + 1
def nrWords : Nat := claimedWord + nrClaimedBitsRegs

def words (plic : Plic) : Nat → BitVec (8 * 4) := fun i =>
  if h : i < pendingWord then plic.priority ⟨i, h⟩
  else if h : i - pendingWord < nrPendingRegs then plic.pendingBits ⟨i - pendingWord, h⟩
  else if h : i - enableWord < nrEnableRegs then plic.enableBits ⟨i - enableWord, h⟩
  else if i = thresholdWord then plic.priorityThreshold
  else if i = claimWord then plic.claimComplete
  else if h : i - claimedWord < nrClaimedBitsRegs then plic.claimedBits ⟨i - claimedWord, h⟩
  else 0

def ofWords (words : Nat → BitVec (8 * 4)) : Plic where
  priority i := words i
  pendingBits i := words (pendingWord + i)
  enableBits i := words (enableWord + i)
  priorityThreshold := words thresholdWord
  claimComplete := words claimWord
  claimedBits i := words (claimedWord + i)

end Plic

/-! ### Bus accesses -/

/-- `get_u8_reg_ptr`: the byte of the structure, if there is one, and whether it belongs
to the claim register. The first priority is reserved. -/
def getU8RegPtr (address : Nat) : Option (Nat × Bool) :=
  if address < 0x400 then
    if 0x4 ≤ address then some (address, false) else none
  else if offsWithin address 0x1000 0x20 then
    some (4 * Plic.pendingWord + (address - 0x1000), false)
  else if offsWithin address 0x2000 0x20 then
    some (4 * Plic.enableWord + (address - 0x2000), false)
  else if offsWithin address 0x200000 0x4 then
    some (4 * Plic.thresholdWord + (address - 0x200000), false)
  else if offsWithin address 0x200004 0x4 then
    some (4 * Plic.claimWord + (address - 0x200004), true)
  else none

def plicCheckSanity (plic : Plic) : Plic :=
  { plic with
    priority := fun i => plic.priority i &&& 0x7
    priorityThreshold := plic.priorityThreshold &&& 0x7 }

/-- A completion: the source is no longer claimed. -/
def plicComplete (plic : Plic) (tmpVal : Nat) : Except Halt Plic :=
  if h : tmpVal / 32 < nrClaimedBitsRegs then
    .ok { plic with
      claimedBits := assignArrayBit plic.claimedBits ⟨tmpVal / 32, h⟩ (tmpVal % 32) false }
  else .error .outOfBounds

/-- A claim: the source is claimed if it is pending. -/
def plicClaim (plic : Plic) (tmpVal : Nat) : Except Halt Plic :=
  if h : tmpVal / 32 < nrClaimedBitsRegs then
    if checkBit (plic.pendingBits ⟨tmpVal / 32, h⟩) (tmpVal % 32) then
      .ok { plic with
        claimedBits := assignArrayBit plic.claimedBits ⟨tmpVal / 32, h⟩ (tmpVal % 32) true }
    else .ok plic
  else .error .outOfBounds

/-- `plic_bus_access`. An offset without a register is accepted and neither stores nor
loads a value. The claim register is looked at as four bytes whatever the length. -/
def plicBusAccess : BusAccessFunc w Plic :=
  fun plic _ accessType address value len =>
    match getU8RegPtr address.toNat with
    | none => .ok (.ok, value, plic)
    | some (u8Ptr, isClaimComplete) =>
        if 4 * Plic.nrWords < u8Ptr + len then .error .outOfBounds
        else if accessType = .write then do
          let plic := Plic.ofWords (writeWords plic.words u8Ptr value len)
          let plic ← if isClaimComplete then
              -- a shorter buffer is read past its end
              if value.length < 4 then .error .outOfBounds
              else plicComplete plic (leNat (value.take 4))
            else pure plic
          return (.ok, value, plicCheckSanity plic)
        else do
          let bytes := wordBytes plic.words
          let plic ← if isClaimComplete then plicClaim plic (leNat (bytes.read u8Ptr [] 4))
            else pure plic
          return (.ok, bytes.read u8Ptr value len, plic)

theorem Plic.leNat_claimBytes (plic : Plic) :
    leNat ((wordBytes plic.words).read (4 * claimWord) [] 4) = plic.claimComplete.toNat := by
  rw [read_aligned (by decide) plic.words claimWord [], List.drop_nil, List.append_nil,
    leNat_leBytes]
  exact Nat.mod_eq_of_lt plic.claimComplete.isLt

/-! ### Updates -/

/-- `plic_update_pending`, for an identifier below 256. -/
def plicUpdatePending (plic : Plic) (interruptId : Fin nrPrioMemRegs) (pending : Byte) : Plic :=
  { plic with
    pendingBits := assignArrayBit plic.pendingBits
      ⟨interruptId / 32, Nat.div_lt_of_lt_mul interruptId.isLt⟩ (interruptId % 32)
      (pending.getLsbD 0) }

/-- The variables of the loops of `plic_update`, with the words that they write. -/
structure PlicScan where
  irqIdCount : Nat := 0
  irqToTrigger : Nat := 0
  highestPrio : Byte := 0
  pendingBits : Fin nrPendingRegs → BitVec 32

/-- `plic->priority[irq_id_count]`. The counter is at most the number of the bits that
have been looked at. -/
def Plic.prio (plic : Plic) (irqIdCount : Nat) : BitVec 32 :=
  if h : irqIdCount < nrPrioMemRegs then plic.priority ⟨irqIdCount, h⟩ else 0

def plicScanBit (plic : Plic) (i : Fin nrEnableRegs) (scan : PlicScan) (j : Nat) : PlicScan :=
  let prio := plic.prio scan.irqIdCount
  let scan :=
    if checkBit (plic.enableBits i) j && checkBit (scan.pendingBits i) j &&
        plic.priorityThreshold ≤ prio then
      if checkBit (plic.claimedBits i) j then
        { scan with pendingBits := assignArrayBit scan.pendingBits i j false }
      else if scan.highestPrio.setWidth 32 ≤ prio then
        { scan with highestPrio := prio.setWidth 8, irqToTrigger := scan.irqIdCount }
      else scan
    else scan
  { scan with irqIdCount := scan.irqIdCount + 1 }

/-- One round of the outer loop. A word without an enabled or a pending interrupt is
passed over, and the counter with it. -/
def plicScanWord (plic : Plic) (scan : PlicScan) (i : Fin nrEnableRegs) : PlicScan :=
  if plic.enableBits i = 0 ∨ scan.pendingBits i = 0 then scan
  else (List.range 32).foldl (plicScanBit plic i) scan

def plicScan (plic : Plic) : PlicScan :=
  (List.finRange nrEnableRegs).foldl (plicScanWord plic) { pendingBits := plic.pendingBits }

def plicUpdate (plic : Plic) : Byte × Plic :=
  let scan := plicScan plic
  let plic := { plic with pendingBits := scan.pendingBits }
  if 0 < scan.irqToTrigger then
    (1, { plic with claimComplete := BitVec.ofNat 32 scan.irqToTrigger })
  else (0, { plic with claimComplete := 0 })

end RiscvEm
