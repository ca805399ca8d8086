import RiscvEm.Devices.Plic
import RiscvEm.Devices.Uart8250
import RiscvEm.Lib.Logged

/-!
What the bus callbacks do in memory through the pointers that they have: the buffer of
the caller, a pointer to the bytes of the registers, and an index into an array of bits.

Each callback is given once more, with every such access logged where the source makes
it, also where the value that is loaded is not used. Without the log it is the callback.
-/

namespace RiscvEm

open Logged

variable {w : Xlen} {σ : Type}

/-! ### Touches -/

/-- An access of a callback. The buffer is touched from its first byte on. -/
inductive Touch
  | loadValue (len : Nat)
  | storeValue (len : Nat)
  | loadReg (start len : Nat)
  | storeReg (start len : Nat)
  | pendingBits (irqReg : Nat)
  | claimedBits (irqReg : Nat)
  deriving DecidableEq

abbrev TouchingFunc (w : Xlen) (σ : Type) :=
  σ → PrivilegeLevel → BusAccessType → RvUintXlen w → List Byte → Nat →
    Logged Touch Halt (RvRet × List Byte × σ)

/-- `memcpy(&mem[start], value, len)` in an array of `size` bytes. -/
def copyIn (size : Nat) (mem : Memory) (start : Nat) (value : List Byte) (len : Nat) :
    Logged Touch Halt Memory := do
  emit (.loadValue len)
  emit (.storeReg start len)
  quiet (if size < start + len then .error .outOfBounds else .ok (mem.write start value len))

/-- `memcpy(value, &mem[start], len)` from an array of `size` bytes. -/
def copyOut (size : Nat) (mem : Memory) (start : Nat) (value : List Byte) (len : Nat) :
    Logged Touch Halt (List Byte) := do
  emit (.loadReg start len)
  emit (.storeValue len)
  quiet (if size < start + len then .error .outOfBounds else .ok (mem.read start value len))

section Copies

variable {size start len : Nat} {mem : Memory} {value : List Byte}

@[simp] theorem log_copyIn :
    (copyIn size mem start value len).log = [.loadValue len, .storeReg start len] := rfl

@[simp] theorem result_copyIn : (copyIn size mem start value len).result =
    if size < start + len then .error .outOfBounds else .ok (mem.write start value len) := rfl

@[simp] theorem log_copyOut :
    (copyOut size mem start value len).log = [.loadReg start len, .storeValue len] := rfl

@[simp] theorem result_copyOut : (copyOut size mem start value len).result =
    if size < start + len then .error .outOfBounds else .ok (mem.read start value len) := rfl

end Copies

/-! ### The callbacks -/

def memoryBusTouching (size : Nat) : TouchingFunc w Memory :=
  fun mem _ accessType address value len =>
    if accessType = .write then do
      let mem ← copyIn size mem address.toNat value len
      return (.ok, value, mem)
    else do
      let value ← copyOut size mem address.toNat value len
      return (.ok, value, mem)

def clintBusTouching : TouchingFunc w Clint :=
  fun clint _ accessType address value len =>
    match getU8ArrIndexOffs address.toNat with
    | none => return (.ok, value, clint)
    | some arrIndexOffs =>
        let tmpAddr := address.toNat % 8 + arrIndexOffs
        if accessType = .write then do
          let bytes ← copyIn (3 * clintRegSizeBytes) (wordBytes clint.regs) tmpAddr value len
          return (.ok, value, .ofRegs (bytesWords 8 bytes))
        else do
          let value ← copyOut (3 * clintRegSizeBytes) (wordBytes clint.regs) tmpAddr value len
          return (.ok, value, clint)

/-- A completion uses the identifier as an index, whatever it is. -/
def plicCompleteTouching (plic : Plic) (tmpVal : Nat) : Logged Touch Halt Plic := do
  emit (.claimedBits (tmpVal / 32))
  quiet (plicComplete plic tmpVal)

/-- So does a claim, which looks at the pending bit first. -/
def plicClaimTouching (plic : Plic) (tmpVal : Nat) : Logged Touch Halt Plic := do
  emit (.pendingBits (tmpVal / 32))
  if h : tmpVal / 32 < nrClaimedBitsRegs then
    if checkBit (plic.pendingBits ⟨tmpVal / 32, h⟩) (tmpVal % 32) then do
      emit (.claimedBits (tmpVal / 32))
      return { plic with
        claimedBits := assignArrayBit plic.claimedBits ⟨tmpVal / 32, h⟩ (tmpVal % 32) true }
    else return plic
  else quiet (.error .outOfBounds)

/-- `plic_bus_access`. The four bytes of `tmp_val` are loaded at every register. -/
def plicBusTouching : TouchingFunc w Plic :=
  fun plic _ accessType address value len =>
    match getU8RegPtr address.toNat with
    | none => return (.ok, value, plic)
    | some (u8Ptr, isClaimComplete) =>
        if accessType = .write then do
          let bytes ← copyIn (4 * Plic.nrWords) (wordBytes plic.words) u8Ptr value len
          let plic := Plic.ofWords (bytesWords 4 bytes)
          emit (.loadValue 4)
          let plic ← if isClaimComplete then
              if value.length < 4 then quiet (.error .outOfBounds)
              else plicCompleteTouching plic (leNat (value.take 4))
            else pure plic
          return (.ok, value, plicCheckSanity plic)
        else do
          let bytes := wordBytes plic.words
          let value ← copyOut (4 * Plic.nrWords) bytes u8Ptr value len
          emit (.loadReg u8Ptr 4)
          let plic ← if isClaimComplete then plicClaimTouching plic (leNat (bytes.read u8Ptr [] 4))
            else pure plic
          return (.ok, value, plic)

/-- `simple_uart_bus_access`: one byte is loaded before the switch, or stored in the cases
of a read that do not stop the emulator. -/
def simpleUartBusTouching : TouchingFunc w SimpleUart :=
  fun uart privLevel accessType address value len =>
    if len ≠ 1 then quiet (.error (.die .uartSingleByte))
    else if accessType = .write then do
      emit (.loadValue 1)
      quiet (simpleUartBusAccess uart privLevel accessType address value len)
    else do
      let answer ← quiet (simpleUartBusAccess uart privLevel accessType address value len)
      emit (.storeValue 1)
      return answer

def uartBusTouching : TouchingFunc w UartNs8250 :=
  fun uart _ accessType address value len =>
    if len ≠ 1 then quiet (.error (.die .uartSingleByte))
    else if accessType = .write then do
      emit (.loadValue 1)
      let uart ← quiet (uartWrite uart address.toNat (value.headD 0))
      return (.ok, value, uart)
    else do
      let (outval, uart) ← quiet (uartRead uart address.toNat)
      match outval with
      | some v => do
          -- `*outval` is a whole `rv_uint_xlen`
          emit (.storeValue w.bytes)
          if value.length < w.bytes then quiet (.error .outOfBounds)
          else return (.ok, leBytes w.bytes v.toNat ++ value.drop w.bytes, uart)
      | none => return (.ok, value, uart)

/-! ### Without the log -/

section Results

variable {privLevel : PrivilegeLevel} {accessType : BusAccessType} {address : RvUintXlen w}
  {value : List Byte} {len : Nat}

theorem result_memoryBusTouching (size : Nat) (mem : Memory) :
    (memoryBusTouching size mem privLevel accessType address value len).result =
      memoryBusAccess size mem privLevel accessType address value len := by
  rw [memoryBusTouching, memoryBusAccess]
  by_cases hsize : size < address.toNat + len
  · split <;> simp [hsize]
  · split <;> simp [hsize]

theorem result_clintBusTouching (clint : Clint) :
    (clintBusTouching clint privLevel accessType address value len).result =
      clintBusAccess clint privLevel accessType address value len := by
  rw [clintBusTouching, clintBusAccess]
  cases getU8ArrIndexOffs address.toNat with
  | none => rfl
  | some arrIndexOffs =>
      simp only
      by_cases hsize : 3 * clintRegSizeBytes < address.toNat % 8 + arrIndexOffs + len
      · split <;> simp [hsize]
      · split <;> simp [hsize, writeWords]

theorem result_plicClaimTouching (plic : Plic) (tmpVal : Nat) :
    (plicClaimTouching plic tmpVal).result = plicClaim plic tmpVal := by
  rw [plicClaimTouching, plicClaim, result_emit_bind]
  split
  · split <;> rfl
  · rfl

theorem result_plicBusTouching (plic : Plic) :
    (plicBusTouching plic privLevel accessType address value len).result =
      plicBusAccess plic privLevel accessType address value len := by
  rw [plicBusTouching, plicBusAccess]
  cases getU8RegPtr address.toNat with
  | none => rfl
  | some reg =>
      obtain ⟨u8Ptr, isClaimComplete⟩ := reg
      simp only
      by_cases hsize : 4 * Plic.nrWords < u8Ptr + len
      · split <;> simp [hsize]
      · split
        · cases isClaimComplete with
          | false => simp [hsize, writeWords]
          | true =>
              by_cases hvalue : value.length < 4
              · simp [hsize, hvalue]
              · simp [hsize, hvalue, writeWords, plicCompleteTouching]
        · cases isClaimComplete with
          | false => simp [hsize]
          | true => simp [hsize, result_plicClaimTouching]

theorem result_simpleUartBusTouching (uart : SimpleUart) :
    (simpleUartBusTouching uart privLevel accessType address value len).result =
      simpleUartBusAccess uart privLevel accessType address value len := by
  rw [simpleUartBusTouching]
  split
  · next hlen => rw [simpleUartBusAccess, if_pos hlen, result_quiet]
  · split
    · rw [result_emit_bind, result_quiet]
    · rw [result_bind, result_quiet]
      exact bind_pure _

theorem result_uartBusTouching (uart : UartNs8250) :
    (uartBusTouching uart privLevel accessType address value len).result =
      uartBusAccess uart privLevel accessType address value len := by
  rw [uartBusTouching, uartBusAccess]
  split
  · rfl
  · split
    · simp
    · rw [result_bind, result_quiet]
      congr 1
      funext answer
      obtain ⟨outval, uart'⟩ := answer
      cases outval with
      | none => rfl
      | some v =>
          simp only [result_emit_bind, result_ite, result_quiet]
          rfl

end Results

end RiscvEm
