import RiscvEm.Devices.SimpleUart

/-!
The 8250 UART. Its lock is always released again and is left out, and so are the two
fields that nothing reads.
-/

namespace RiscvEm

variable {w : Xlen}

def uartNs8250FifoSize : Nat := 16

@[match_pattern] abbrev regRxTxDivLatchLo : Nat := 0
@[match_pattern] abbrev regIerLatchHi : Nat := 1
@[match_pattern] abbrev regIir : Nat := 2
@[match_pattern] abbrev regFcr : Nat := 2
@[match_pattern] abbrev regLcr : Nat := 3
@[match_pattern] abbrev regMcr : Nat := 4
@[match_pattern] abbrev regLsr : Nat := 5
@[match_pattern] abbrev regMsr : Nat := 6

/-- `uart_ns8250_td`. The array `regs` is used at the interrupt enable, interrupt
identification, line control and modem control registers. -/
structure UartNs8250 where
  dlab : Bool := false
  irqEnabledRxDataAvailable : Bool := false
  irqEnabledTxHoldingRegEmpty : Bool := false
  irqEnabledRlsrChange : Bool := false
  irqEnabledMsrChange : Bool := false
  irqEnabledSleep : Bool := false
  irqEnabledLowPower : Bool := false
  fifoEnabled : Bool := false
  txFifo : Fifo uartNs8250FifoSize := {}
  txNeedsFlush : Bool := false
  txStopTriggering : Bool := false
  rxFifo : Fifo uartNs8250FifoSize := {}
  rxIrqFifoLevel : Byte := 1
  lsrChange : Bool := false
  currIirId : Byte := 1
  ier : Byte := 0
  iir : Byte := 0
  lcr : Byte := 0
  mcr : Byte := 0

/-- `rx_irq_fifo_level` for the two high bits of `REG_FCR`. -/
def rxIrqFifoLevelOf (tmpBits : Byte) : Byte :=
  if tmpBits = 3 then 14 else if tmpBits = 2 then 8 else if tmpBits = 1 then 4 else 1

def uartWrite (uart : UartNs8250) (address : Nat) (valU8 : Byte) : Except Halt UartNs8250 :=
  match address with
  | regRxTxDivLatchLo =>
      if uart.dlab then .ok uart
      else do
        let (_, txFifo) ← fifoIn uart.txFifo [valU8]
        return { uart with
          txFifo := txFifo
          txNeedsFlush := uart.txNeedsFlush || !uart.fifoEnabled || valU8 == 10
          txStopTriggering := uart.iir != 2 && uart.txStopTriggering }
  | regIerLatchHi =>
      if uart.dlab then .ok uart
      else .ok { uart with
        irqEnabledRxDataAvailable := checkBit valU8 0
        irqEnabledTxHoldingRegEmpty := checkBit valU8 1
        irqEnabledRlsrChange := checkBit valU8 2
        irqEnabledMsrChange := checkBit valU8 3
        irqEnabledSleep := checkBit valU8 4
        irqEnabledLowPower := checkBit valU8 5
        ier := valU8 }
  | regFcr =>
      if checkBit valU8 3 then .error (.die .uartDmaMode)
      else .ok { uart with
        rxFifo := if checkBit valU8 1 then uart.rxFifo.reset else uart.rxFifo
        txFifo := if checkBit valU8 2 then uart.txFifo.reset else uart.txFifo
        fifoEnabled := checkBit valU8 0
        rxIrqFifoLevel := rxIrqFifoLevelOf (extract valU8 6 2) }
  | regLcr => .ok { uart with lcr := valU8, dlab := checkBit valU8 7 }
  | regMcr => .ok { uart with mcr := valU8 }
  | address => .error (.die (.uartWriteReg address))

/-- The read of a register: the byte that is stored, `none` where nothing is. -/
def uartRead (uart : UartNs8250) (address : Nat) : Except Halt (Option Byte × UartNs8250) :=
  match address with
  | regRxTxDivLatchLo =>
      if uart.dlab then .ok (none, uart)
      else do
        let (bytes, rxFifo) ← fifoOut uart.rxFifo 1
        return (some (bytes.headD 0), { uart with rxFifo := rxFifo })
  | regIerLatchHi =>
      if uart.dlab then .ok (none, uart)
      else .ok (some (flagBit uart.irqEnabledRxDataAvailable 0 |||
        flagBit uart.irqEnabledTxHoldingRegEmpty 1 ||| flagBit uart.irqEnabledRlsrChange 2 |||
        flagBit uart.irqEnabledMsrChange 3 ||| flagBit uart.irqEnabledSleep 4 |||
        flagBit uart.irqEnabledLowPower 5), uart)
  | regIir =>
      .ok (some uart.iir,
        if uart.iir = 2 then { uart with currIirId := 1, txStopTriggering := true } else uart)
  | regLsr =>
      let thrEmpty := uart.txFifo.isEmpty
      .ok (some (flagBit (!uart.rxFifo.isEmpty) 0 ||| flagBit thrEmpty 5 ||| flagBit thrEmpty 6),
        { uart with lsrChange := false })
  | regLcr => .ok (some uart.lcr, uart)
  | regMsr => .ok (some 0xb0, uart)
  | regMcr => .ok (some 0x8, uart)
  | address => .error (.die (.uartReadReg address))

/-- `uart_bus_access`. A read stores a whole `rv_uint_xlen`, which the buffer may not hold. -/
def uartBusAccess : BusAccessFunc w UartNs8250 :=
  fun uart _ accessType address value len =>
    if len ≠ 1 then .error (.die .uartSingleByte)
    else if accessType = .write then do
      let uart ← uartWrite uart address.toNat (value.headD 0)
      return (.ok, value, uart)
    else do
      let (outval, uart) ← uartRead uart address.toNat
      match outval with
      | some v =>
          if value.length < w.bytes then .error .outOfBounds
          else return (.ok, leBytes w.bytes v.toNat ++ value.drop w.bytes, uart)
      | none => return (.ok, value, uart)

def UartNs8250.irqCause (uart : UartNs8250) : Option Byte :=
  if (uart.irqEnabledRlsrChange || uart.irqEnabledRxDataAvailable) && uart.lsrChange then
    some 0xC
  else if uart.irqEnabledRxDataAvailable && uart.rxIrqFifoLevel.setWidth 32 ≤ uart.rxFifo.len then
    some 0x4
  else if uart.irqEnabledTxHoldingRegEmpty && uart.txFifo.isEmpty && !uart.txStopTriggering then
    some 0x2
  else none

def uartUpdate (uart : UartNs8250) : Except Halt (Byte × List Byte × UartNs8250) := do
  let (printed, txFifo) ← updateTxFifo uart.txFifo uart.txNeedsFlush
  let uart := { uart with txFifo := txFifo }
  let irqTrigger : Byte := if uart.irqCause.isSome then 1 else 0
  let currIirId := uart.irqCause.getD uart.currIirId
  return (irqTrigger, printed, { uart with currIirId := currIirId, iir := currIirId })

def uartAddRxChar (uart : UartNs8250) (x : Byte) : Except Halt UartNs8250 := do
  let (_, rxFifo) ← fifoIn uart.rxFifo [x]
  return { uart with rxFifo := rxFifo, lsrChange := true }

end RiscvEm
