import RiscvEm.Devices.Fifo

/-!
The simple UART: one data register, one status register, and FIFOs of one byte. Its
lock is always released again and is left out.
-/

namespace RiscvEm

variable {w : Xlen}

def simpleUartFifoSize : Nat := 1

structure SimpleUart where
  rxTriggered : Bool := false
  rxFifo : Fifo simpleUartFifoSize := {}
  rxIrqEnabled : Bool := false
  txTriggered : Bool := false
  txFifo : Fifo simpleUartFifoSize := {}
  txIrqEnabled : Bool := false
  txNeedsFlush : Bool := false

def flagBit (flag : Bool) (nbit : Nat) : Byte := (if flag then 1#8 else 0#8) <<< nbit

/-- `SIMPLE_UART_STATUS_REG`, as it is read. -/
def SimpleUart.status (uart : SimpleUart) : Byte :=
  flagBit uart.rxFifo.isEmpty 0 ||| flagBit uart.txFifo.isEmpty 2 |||
    flagBit uart.rxIrqEnabled 1 ||| flagBit uart.txIrqEnabled 3

def simpleUartBusAccess : BusAccessFunc w SimpleUart :=
  fun uart _ accessType address value len =>
    if len ≠ 1 then .error (.die .uartSingleByte)
    else if accessType = .write then
      let valU8 := value.headD 0
      match address.toNat with
      | 0 => do
          let (_, txFifo) ← fifoIn uart.txFifo [valU8]
          return (.ok, value, { uart with
            txFifo := txFifo
            txNeedsFlush := uart.txNeedsFlush || valU8 == 10
            txTriggered := false })
      | 1 => .ok (.ok, value, { uart with
          rxIrqEnabled := checkBit valU8 1, txIrqEnabled := checkBit valU8 3 })
      | address => .error (.die (.uartWriteReg address))
    else
      match address.toNat with
      | 0 => do
          let (bytes, rxFifo) ← fifoOut uart.rxFifo 1
          return (.ok, bytes.headD 0 :: value.drop 1, { uart with rxFifo := rxFifo })
      | 1 => .ok (.ok, uart.status :: value.drop 1, uart)
      | address => .error (.die (.uartReadReg address))

/-- The loop that empties a transmit FIFO: `count` bytes are printed, and a byte that
the FIFO does not have is the one before it. -/
def flushFifo {size : Nat} (f : Fifo size) (tmpChar : Byte) :
    Nat → Except Halt (List Byte × Fifo size)
  | 0 => .ok ([], f)
  | count + 1 => do
      let (bytes, f) ← fifoOut f 1
      let tmpChar := bytes.headD tmpChar
      let (printed, f) ← flushFifo f tmpChar count
      return (tmpChar :: printed, f)

/-- A transmit FIFO after an update: it is emptied if it is full or a flush is wanted. -/
def updateTxFifo {size : Nat} (f : Fifo size) (needsFlush : Bool) :
    Except Halt (List Byte × Fifo size) :=
  if f.isFull || needsFlush then flushFifo f 0 (f.len.setWidth 8).toNat else .ok ([], f)

def simpleUartUpdate (uart : SimpleUart) : Except Halt (Byte × List Byte × SimpleUart) := do
  let flush := uart.txFifo.isFull || uart.txNeedsFlush
  let (printed, txFifo) ← updateTxFifo uart.txFifo uart.txNeedsFlush
  let uart := { uart with txFifo := txFifo, txNeedsFlush := !flush && uart.txNeedsFlush }
  if uart.rxIrqEnabled && uart.rxFifo.isFull then
    return (1, printed, { uart with rxTriggered := true })
  else if uart.txIrqEnabled && uart.txFifo.isEmpty then
    return (1, printed, { uart with txTriggered := true })
  else return (0, printed, uart)

def simpleUartAddRxChar (uart : SimpleUart) (x : Byte) : Except Halt SimpleUart := do
  let (_, rxFifo) ← fifoIn uart.rxFifo [x]
  return { uart with rxFifo := rxFifo }

end RiscvEm
