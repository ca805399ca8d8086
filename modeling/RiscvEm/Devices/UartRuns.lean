import RiscvEm.Devices.UartFlow

/-!
Runs of the 8250 UART on its own: register accesses, arrivals and updates in any order.
A run remembers its calls and the states that they were made in.
-/

namespace RiscvEm

variable {w : Xlen}

/-- A call of `uart_bus_access`, `uart_add_rx_char` or `uart_update`. -/
inductive UartCall (w : Xlen)
  | access (privLevel : PrivilegeLevel) (accessType : BusAccessType) (address : RvUintXlen w)
      (value : List Byte) (len : Nat)
  | arrival (x : Byte)
  | update

def uartCall : UartCall w → UartNs8250 → Except Halt UartNs8250
  | .access privLevel accessType address value len, uart => do
      let (_, _, uart) ← uartBusAccess uart privLevel accessType address value len
      return uart
  | .arrival x, uart => uartAddRxChar uart x
  | .update, uart => do
      let (_, _, uart) ← uartUpdate uart
      return uart

abbrev UartStep (w : Xlen) := UartNs8250 × UartCall w

/-- The states that can be reached after `uart_init`, with the calls that led there, the
last one first. -/
inductive UartDeviceRun (w : Xlen) : List (UartStep w) → UartNs8250 → Prop
  | init : UartDeviceRun w [] {}
  | call {history : List (UartStep w)} {uart uart' : UartNs8250} {c : UartCall w}
      (hrun : UartDeviceRun w history uart) (h : uartCall c uart = .ok uart') :
      UartDeviceRun w ((uart, c) :: history) uart'

theorem uartCall_access_cases {uart uart' : UartNs8250} {privLevel : PrivilegeLevel}
    {accessType : BusAccessType} {address : RvUintXlen w} {value : List Byte} {len : Nat}
    (h : uartCall (.access privLevel accessType address value len) uart = .ok uart') :
    (accessType = .write ∧ uartWrite uart address.toNat (value.headD 0) = .ok uart') ∨
      (accessType ≠ .write ∧ ∃ outval, uartRead uart address.toNat = .ok (outval, uart')) := by
  obtain ⟨⟨ret, bytes, after⟩, haccess, hrest⟩ := Except.bind_eq_ok.mp h
  obtain rfl := Except.ok.inj hrest
  rcases uartBusAccess_cases haccess with hwrite | ⟨hread, outval, hregister, -⟩
  · exact .inl hwrite
  · exact .inr ⟨hread, outval, hregister⟩

/-! ### The FIFOs over runs -/

section Holds

variable {uart uart' : UartNs8250} {txq rxq : List Byte}

theorem holds_of_kept {k : Nat} {f f' : Fifo (2 ^ k)} {q : List Byte} {p : Prop} (hf : f.Holds q)
    (h : f' = f ∨ p ∧ f' = f.reset) : ∃ q', f'.Holds q' := by
  rcases h with rfl | ⟨-, rfl⟩
  · exact ⟨q, hf⟩
  · exact ⟨[], .empty f.data⟩

/-- Every call leaves queues in the FIFOs, also where a byte does not fit. -/
theorem uartCall_holds {c : UartCall w} (h : uart.Holds txq rxq)
    (hcall : uartCall c uart = .ok uart') : ∃ txq' rxq', uart'.Holds txq' rxq' := by
  cases c with
  | access privLevel accessType address value len =>
      rcases uartCall_access_cases hcall with ⟨-, hwrite⟩ | ⟨-, outval, hread⟩
      · rcases uartWrite_cases hwrite with ⟨-, -, n, txFifo, hin, rfl⟩ | ⟨-, hkept⟩
        · obtain ⟨txq', htx, -⟩ := fifoIn_flow (by decide) h.tx hin
          exact ⟨txq', rxq, htx, h.rx⟩
        · obtain ⟨txq', htx⟩ := holds_of_kept h.tx hkept.txFifo
          obtain ⟨rxq', hrx⟩ := holds_of_kept h.rx hkept.rxFifo
          exact ⟨txq', rxq', htx, hrx⟩
      · obtain ⟨rxq', hholds, -⟩ := uartRead_flow h hread
        exact ⟨txq, rxq', hholds⟩
  | arrival x =>
      obtain ⟨rxq', hholds, -⟩ := uartAddRxChar_flow h hcall
      exact ⟨txq, rxq', hholds⟩
  | update =>
      obtain ⟨⟨irq, printed, after⟩, hupdate, hrest⟩ := Except.bind_eq_ok.mp hcall
      obtain rfl := Except.ok.inj hrest
      obtain ⟨txq', hholds, -⟩ := uartUpdate_flow h hupdate
      exact ⟨txq', rxq, hholds⟩

theorem UartDeviceRun.holds {history : List (UartStep w)} (hrun : UartDeviceRun w history uart) :
    ∃ txq rxq, uart.Holds txq rxq := by
  induction hrun with
  | init => exact ⟨[], [], .empty _, .empty _⟩
  | call _ hcall ih =>
      obtain ⟨txq, rxq, hholds⟩ := ih
      exact uartCall_holds hholds hcall

end Holds

/-! ### The two streams -/

def callEvents (uart : UartNs8250) : UartCall w → List UartEvent
  | .access privLevel accessType address value len =>
      match uartBusAccess uart privLevel accessType address value len with
      | .ok (_, bytes, _) =>
          accessEvents (address.toNat == 0 && !uart.dlab) uart.rxFifo.isEmpty accessType value bytes
      | .error _ => []
  | .arrival x => [.arrive x uart.rxFifo.isFull]
  | .update =>
      match uartUpdate uart with
      | .ok (_, printed, _) => printed.map .print
      | .error _ => []

def runEvents : List (UartStep w) → List UartEvent
  | [] => []
  | (uart, c) :: history => runEvents history ++ callEvents uart c

/-- Nothing is written while `tx_fifo` is full, and no FIFO is cleared. -/
def UartCall.Lossless (uart : UartNs8250) : UartCall w → Prop
  | .access _ accessType address value _ =>
      (accessType = .write → uart.txFifo.isFull = false) ∧
        ¬ FcrClear accessType address.toNat (value.headD 0)
  | _ => True

section Streams

variable {uart uart' : UartNs8250} {txq rxq : List Byte}

theorem uartCall_flow {c : UartCall w} (h : uart.Holds txq rxq) (hlossless : c.Lossless uart)
    (hcall : uartCall c uart = .ok uart') :
    ∃ txq' rxq', uart'.Holds txq' rxq' ∧ UartFlow txq rxq (callEvents uart c) txq' rxq' := by
  cases c with
  | access privLevel accessType address value len =>
      obtain ⟨⟨ret, bytes, after⟩, haccess, hrest⟩ := Except.bind_eq_ok.mp hcall
      obtain rfl := Except.ok.inj hrest
      obtain ⟨hfull, hkeep⟩ := hlossless
      have hroom : accessType = .write → txq.length < 2 ^ 4 := by
        intro hwrite
        have hisFull := (h.tx.reports (by decide)).isFull
        exact Nat.lt_of_le_of_ne h.tx.length_le
          (of_decide_eq_false (hisFull.symm.trans (hfull hwrite)))
      rw [callEvents, haccess]
      exact uartBusAccess_flow h hroom hkeep haccess
  | arrival x =>
      obtain ⟨rxq', hholds, hflow⟩ := uartAddRxChar_flow h hcall
      exact ⟨txq, rxq', hholds, hflow⟩
  | update =>
      obtain ⟨⟨irq, printed, after⟩, hupdate, hrest⟩ := Except.bind_eq_ok.mp hcall
      obtain rfl := Except.ok.inj hrest
      obtain ⟨txq', hholds, -, hflow⟩ := uartUpdate_flow h hupdate
      rw [callEvents, hupdate]
      exact ⟨txq', rxq, hholds, hflow⟩

theorem UartDeviceRun.flow {history : List (UartStep w)} (hrun : UartDeviceRun w history uart)
    (hlossless : ∀ step ∈ history, step.2.Lossless step.1) :
    ∃ txq rxq, uart.Holds txq rxq ∧ UartFlow [] [] (runEvents history) txq rxq := by
  induction hrun with
  | init => exact ⟨[], [], ⟨.empty _, .empty _⟩, .refl [] []⟩
  | call _ hcall ih =>
      rw [List.forall_mem_cons] at hlossless
      obtain ⟨txq, rxq, hholds, hflow⟩ := ih hlossless.2
      obtain ⟨txq', rxq', hholds', hflow'⟩ := uartCall_flow hholds hlossless.1 hcall
      exact ⟨txq', rxq', hholds', hflow.trans hflow'⟩

/-- The streams of the device on its own, whose reads store into buffers of any length. -/
theorem UartDeviceRun.streams {history : List (UartStep w)} (hrun : UartDeviceRun w history uart)
    (hlossless : ∀ step ∈ history, step.2.Lossless step.1) :
    bytesPrinted (runEvents history) ++ uart.txFifo.bytes = bytesWritten (runEvents history) ∧
      bytesRead (runEvents history) ++ uart.rxFifo.bytes = bytesArrived (runEvents history) := by
  obtain ⟨txq, rxq, hholds, htx, hrx⟩ := hrun.flow hlossless
  have htxq : uart.txFifo.bytes = txq := hholds.tx.bytes_eq
  have hrxq : uart.rxFifo.bytes = rxq := hholds.rx.bytes_eq
  rw [htxq, hrxq]
  exact ⟨htx.symm, hrx.symm⟩

end Streams

/-! ### One update -/

section Update

variable {uart uart' : UartNs8250} {irq : Byte} {printed : List Byte}

/-- The next update leaves `tx_fifo` empty. -/
def UartNs8250.drains (uart : UartNs8250) : Bool :=
  uart.txFifo.isEmpty || uart.txFifo.isFull || uart.txNeedsFlush

/-- An update changes the identification by what it finds, and nothing but `tx_fifo`
besides. -/
theorem uartUpdate_eq_ok (h : uartUpdate uart = .ok (irq, printed, uart')) :
    ∃ txFifo currIirId, updateTxFifo uart.txFifo uart.txNeedsFlush = .ok (printed, txFifo) ∧
      uart' = { uart with txFifo := txFifo, currIirId := currIirId, iir := currIirId } ∧
      irq = (if uart'.irqCause.isSome then 1 else 0) ∧
      currIirId = uart'.irqCause.getD uart.currIirId := by
  obtain ⟨⟨printed', txFifo⟩, hflush, hrest⟩ := Except.bind_eq_ok.mp h
  obtain ⟨hirq, hrest⟩ := Prod.mk.inj (Except.ok.inj hrest)
  obtain ⟨rfl, rfl⟩ := Prod.mk.inj hrest
  exact ⟨txFifo, _, hflush, rfl, hirq.symm, rfl⟩

theorem uartUpdate_isEmpty {txq rxq : List Byte} (hholds : uart.Holds txq rxq)
    (h : uartUpdate uart = .ok (irq, printed, uart')) : uart'.txFifo.isEmpty = uart.drains := by
  obtain ⟨txFifo, currIirId, hflush, rfl, -, -⟩ := uartUpdate_eq_ok h
  exact updateTxFifo_isEmpty (by decide) hholds.tx hflush

end Update

/-! ### Runs of given calls -/

/-- The calls, one after the other. -/
def uartCalls : List (UartCall w) → UartNs8250 → Except Halt UartNs8250
  | [], uart => .ok uart
  | c :: rest, uart => do
      let uart ← uartCall c uart
      uartCalls rest uart

theorem exists_run_of_uartCalls {history : List (UartStep w)} {uart uart' : UartNs8250}
    {cs : List (UartCall w)} (hrun : UartDeviceRun w history uart)
    (h : uartCalls cs uart = .ok uart') : ∃ history', UartDeviceRun w history' uart' := by
  induction cs generalizing history uart with
  | nil =>
      obtain rfl := Except.ok.inj h
      exact ⟨history, hrun⟩
  | cons c rest ih =>
      obtain ⟨after, hcall, hrest⟩ := Except.bind_eq_ok.mp h
      exact ih (hrun.call hcall) hrest

/-- A test that an update passes after some calls is passed by an update of a run. -/
theorem exists_update_of_any (cs : List (UartCall w))
    (test : UartNs8250 → Byte × List Byte × UartNs8250 → Bool)
    (h : ((uartCalls cs {}).toOption.any fun uart =>
      (uartUpdate uart).toOption.any (test uart)) = true) :
    ∃ history uart irq printed uart', UartDeviceRun w history uart ∧
      uartUpdate uart = .ok (irq, printed, uart') ∧ test uart (irq, printed, uart') = true := by
  obtain ⟨uart, hcalls, hupdates⟩ := Except.exists_of_any_toOption h
  obtain ⟨⟨irq, printed, uart'⟩, hupdate, htest⟩ := Except.exists_of_any_toOption hupdates
  obtain ⟨history, hrun⟩ := exists_run_of_uartCalls .init hcalls
  exact ⟨history, uart, irq, printed, uart', hrun, hupdate, htest⟩

def writeByte (address : RvUintXlen w) (valU8 : Byte) : UartCall w :=
  .access .machine .write address [valU8] 1

def readByte (address : RvUintXlen w) : UartCall w :=
  .access .machine .read address (.replicate w.bytes 0) 1

end RiscvEm
