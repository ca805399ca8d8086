import RiscvEm.Devices.FifoQueue
import RiscvEm.Devices.Uart8250
import RiscvEm.Lib.Queue

/-!
The bytes that pass through the two UARTs. What happens at a UART is a list of events, and
the accesses, the updates and the arrivals move through the FIFOs the bytes of their events.
-/

namespace RiscvEm

variable {w : Xlen}

/-! ### Emptying a FIFO -/

section Flush

variable {k : Nat} {f : Fifo (2 ^ k)} {q : List Byte}

theorem flushFifo_eq (hk : k < 32) (hf : f.Holds q) (tmpChar : Byte) :
    ∃ f', flushFifo f tmpChar q.length = .ok (q, f') ∧ f'.Holds [] := by
  induction q generalizing f tmpChar with
  | nil => exact ⟨f, rfl, hf⟩
  | cons b q ih =>
      obtain ⟨f₁, hout, hf₁⟩ := Fifo.fifoOut_eq hk hf (by decide : 1 < 2 ^ 32)
      have hf₁ : f₁.Holds q := hf₁
      obtain ⟨f', hflush, hf'⟩ := ih hf₁ b
      refine ⟨f', ?_, hf'⟩
      have hhead : ((b :: q).take 1).headD tmpChar = b := rfl
      simp only [List.length_cons, flushFifo, hout, Except.ok_bind, hhead, hflush,
        Except.pure_eq_ok]

/-- An update empties a FIFO that is full or to be flushed, and leaves any other alone. -/
theorem updateTxFifo_cases (hk : k < 8) (hf : f.Holds q) (needsFlush : Bool) :
    ((f.isFull || needsFlush) = true ∧
        ∃ f', updateTxFifo f needsFlush = .ok (q, f') ∧ f'.Holds []) ∨
      ((f.isFull || needsFlush) = false ∧ updateTxFifo f needsFlush = .ok ([], f)) := by
  have hpow : 2 ^ k < 2 ^ 8 := Nat.pow_lt_pow_right (by decide) hk
  have hreports := hf.reports (by omega : k < 32)
  have hle := hf.length_le
  have hcount : (f.len.setWidth 8).toNat = q.length := by
    rw [BitVec.toNat_setWidth, hreports.len]
    exact Nat.mod_eq_of_lt (by omega)
  rw [updateTxFifo, hcount]
  split
  · next hflushes =>
      obtain ⟨f', hflush, hf'⟩ := flushFifo_eq (by omega : k < 32) hf 0
      exact .inl ⟨hflushes, f', hflush, hf'⟩
  · next hkeep => exact .inr ⟨Bool.eq_false_iff.mpr hkeep, rfl⟩

/-- An update prints everything or nothing, and leaves room in the FIFO. -/
theorem updateTxFifo_flow (hk : k < 8) (hf : f.Holds q) (needsFlush : Bool) :
    ∃ printed f' q', updateTxFifo f needsFlush = .ok (printed, f') ∧ f'.Holds q' ∧
      q'.length < 2 ^ k ∧ QueueFlow q [] printed q' := by
  rcases updateTxFifo_cases hk hf needsFlush with ⟨-, f', hflush, hf'⟩ | ⟨hkeep, hsame⟩
  · refine ⟨q, f', [], hflush, hf', Nat.pow_pos (by decide), ?_⟩
    rw [QueueFlow]
  · have hle := hf.length_le
    rw [Bool.or_eq_false_iff, (hf.reports (by omega)).isFull, decide_eq_false_iff_not] at hkeep
    exact ⟨[], f, q, hsame, hf, by omega, .refl q⟩

/-- After an update a FIFO is empty if it was before, or if it was full or to be flushed. -/
theorem updateTxFifo_isEmpty (hk : k < 8) (hf : f.Holds q) {needsFlush : Bool}
    {f' : Fifo (2 ^ k)} {printed : List Byte}
    (h : updateTxFifo f needsFlush = .ok (printed, f')) :
    f'.isEmpty = (f.isEmpty || f.isFull || needsFlush) := by
  rcases updateTxFifo_cases hk hf needsFlush with ⟨hflushes, f'', hflush, hf''⟩ | ⟨hkeep, hsame⟩
  · obtain ⟨-, rfl⟩ := Prod.mk.inj (Except.ok.inj (hflush.symm.trans h))
    rw [(hf''.reports (by omega)).isEmpty, Bool.or_assoc, hflushes, Bool.or_true]
    rfl
  · obtain ⟨-, rfl⟩ := Prod.mk.inj (Except.ok.inj (hsame.symm.trans h))
    rw [Bool.or_assoc, hkeep, Bool.or_false]

theorem fifoIn_flow (hk : k < 32) (hf : f.Holds q) {b : Byte} {n : Nat} {f' : Fifo (2 ^ k)}
    (h : fifoIn f [b] = .ok (n, f')) :
    ∃ q', f'.Holds q' ∧ QueueFlow q (if f.isFull then [] else [b]) [] q' := by
  have hle := hf.length_le
  obtain ⟨f'', hin, hf''⟩ := Fifo.fifoIn_eq hk hf [b]
  obtain ⟨-, rfl⟩ := Prod.mk.inj (Except.ok.inj (hin.symm.trans h))
  refine ⟨_, hf'', ?_⟩
  have htake : [b].take (2 ^ k - q.length) = if f.isFull then [] else [b] := by
    rw [(hf.reports hk).isFull]
    by_cases hfull : q.length = 2 ^ k
    · rw [hfull, Nat.sub_self, decide_eq_true rfl, if_pos rfl, List.take_zero]
    · rw [decide_eq_false hfull, if_neg (by decide)]
      exact List.take_of_length_le (by rw [List.length_singleton]; omega)
  rw [htake]
  exact .push q _

theorem fifoIn_flow_of_room (hk : k < 32) (hf : f.Holds q) (hroom : q.length < 2 ^ k) {b : Byte}
    {n : Nat} {f' : Fifo (2 ^ k)} (h : fifoIn f [b] = .ok (n, f')) :
    ∃ q', f'.Holds q' ∧ QueueFlow q [b] [] q' := by
  have hfull : f.isFull = false := by
    rw [(hf.reports hk).isFull]
    exact decide_eq_false (by omega)
  have hflow := fifoIn_flow hk hf h
  rwa [hfull] at hflow

/-- The oldest byte is taken out unless the FIFO is empty. -/
theorem fifoOut_flow (hk : k < 32) (hf : f.Holds q) {bytes : List Byte} {f' : Fifo (2 ^ k)}
    (h : fifoOut f 1 = .ok (bytes, f')) :
    ∃ q', f'.Holds q' ∧ QueueFlow q [] (if f.isEmpty then [] else [bytes.headD 0]) q' := by
  obtain ⟨f'', hout, hf''⟩ := Fifo.fifoOut_eq hk hf (by decide : 1 < 2 ^ 32)
  obtain ⟨rfl, rfl⟩ := Prod.mk.inj (Except.ok.inj (hout.symm.trans h))
  refine ⟨_, hf'', ?_⟩
  rw [(hf.reports hk).isEmpty]
  cases q with
  | nil => exact .refl []
  | cons b q => exact .pop [b] q

end Flush

/-! ### Events -/

inductive UartEvent
  /-- A byte is written to the transmit register. -/
  | write (byte : Byte)
  /-- A byte is printed with `putchar`. -/
  | print (byte : Byte)
  /-- A byte is read from the receive register; `empty` tells whether `rx_fifo` was. -/
  | read (byte : Byte) (empty : Bool)
  /-- A byte arrives; `full` tells whether `rx_fifo` was. -/
  | arrive (byte : Byte) (full : Bool)
  deriving DecidableEq

def bytesWritten (events : List UartEvent) : List Byte :=
  events.filterMap fun
    | .write byte => some byte
    | _ => none

def bytesPrinted (events : List UartEvent) : List Byte :=
  events.filterMap fun
    | .print byte => some byte
    | _ => none

/-- The bytes that are read while `rx_fifo` is not empty. -/
def bytesRead (events : List UartEvent) : List Byte :=
  events.filterMap fun
    | .read byte false => some byte
    | _ => none

/-- The bytes that arrive, without those that find `rx_fifo` full. -/
def bytesArrived (events : List UartEvent) : List Byte :=
  events.filterMap fun
    | .arrive byte false => some byte
    | _ => none

structure UartFlow (txq rxq : List Byte) (events : List UartEvent) (txq' rxq' : List Byte) :
    Prop where
  tx : QueueFlow txq (bytesWritten events) (bytesPrinted events) txq'
  rx : QueueFlow rxq (bytesArrived events) (bytesRead events) rxq'

namespace UartFlow

variable {txq rxq txq' rxq' txq'' rxq'' : List Byte} {events events' : List UartEvent}

theorem refl (txq rxq : List Byte) : UartFlow txq rxq [] txq rxq := ⟨.refl txq, .refl rxq⟩

theorem trans (h : UartFlow txq rxq events txq' rxq')
    (h' : UartFlow txq' rxq' events' txq'' rxq'') :
    UartFlow txq rxq (events ++ events') txq'' rxq'' := by
  have htx := h.tx.trans h'.tx
  have hrx := h.rx.trans h'.rx
  constructor
  · rwa [bytesWritten, bytesPrinted, List.filterMap_append, List.filterMap_append]
  · rwa [bytesArrived, bytesRead, List.filterMap_append, List.filterMap_append]

theorem write {byte : Byte} (h : QueueFlow txq [byte] [] txq') (rxq : List Byte) :
    UartFlow txq rxq [.write byte] txq' rxq := ⟨h, .refl rxq⟩

theorem print {printed : List Byte} (h : QueueFlow txq [] printed txq') (rxq : List Byte) :
    UartFlow txq rxq (printed.map .print) txq' rxq := by
  have hwritten : bytesWritten (printed.map .print) = [] := by
    rw [bytesWritten, List.filterMap_map]
    exact List.filterMap_eq_nil_iff.mpr fun _ _ => rfl
  have hprinted : bytesPrinted (printed.map .print) = printed := by
    rw [bytesPrinted, List.filterMap_map]
    exact List.filterMap_some
  have harrived : bytesArrived (printed.map .print) = [] := by
    rw [bytesArrived, List.filterMap_map]
    exact List.filterMap_eq_nil_iff.mpr fun _ _ => rfl
  have hread : bytesRead (printed.map .print) = [] := by
    rw [bytesRead, List.filterMap_map]
    exact List.filterMap_eq_nil_iff.mpr fun _ _ => rfl
  constructor
  · rwa [hwritten, hprinted]
  · rw [harrived, hread]
    exact .refl rxq

theorem read {byte : Byte} {empty : Bool} (h : QueueFlow rxq [] (if empty then [] else [byte]) rxq')
    (txq : List Byte) : UartFlow txq rxq [.read byte empty] txq rxq' := by
  refine ⟨.refl txq, ?_⟩
  cases empty with
  | true => exact h
  | false => exact h

theorem arrive {byte : Byte} {full : Bool} (h : QueueFlow rxq (if full then [] else [byte]) [] rxq')
    (txq : List Byte) : UartFlow txq rxq [.arrive byte full] txq rxq' := by
  refine ⟨.refl txq, ?_⟩
  cases full with
  | true => exact h
  | false => exact h

end UartFlow

/-- The event of an access that returns `bytes`; `data` tells whether it is one to the
data register, and `rxEmpty` whether there was no byte to read. -/
def accessEvents (data rxEmpty : Bool) (accessType : BusAccessType) (value bytes : List Byte) :
    List UartEvent :=
  if data then
    if accessType = .write then [.write (value.headD 0)] else [.read (bytes.headD 0) rxEmpty]
  else []

theorem accessEvents_read {accessType : BusAccessType} (htype : accessType ≠ .write)
    (rxEmpty : Bool) (value bytes : List Byte) :
    accessEvents true rxEmpty accessType value bytes = [.read (bytes.headD 0) rxEmpty] := by
  rw [accessEvents, if_pos rfl, if_neg htype]

/-! ### The simple UART -/

structure SimpleUart.Holds (uart : SimpleUart) (txq rxq : List Byte) : Prop where
  tx : Fifo.Holds (k := 0) uart.txFifo txq
  rx : Fifo.Holds (k := 0) uart.rxFifo rxq

section SimpleUart

variable {uart uart' : SimpleUart} {txq rxq : List Byte}

theorem simpleUartBusAccess_flow {privLevel : PrivilegeLevel} {accessType : BusAccessType}
    {address : RvUintXlen w} {value bytes : List Byte} {len : Nat} {ret : RvRet}
    (h : uart.Holds txq rxq) (hroom : txq.length < 2 ^ 0)
    (haccess : simpleUartBusAccess uart privLevel accessType address value len =
      .ok (ret, bytes, uart')) :
    ∃ txq' rxq', uart'.Holds txq' rxq' ∧
      UartFlow txq rxq
        (accessEvents (address.toNat == 0) uart.rxFifo.isEmpty accessType value bytes)
        txq' rxq' := by
  rw [simpleUartBusAccess] at haccess
  split at haccess
  · cases haccess
  · by_cases hwrite : accessType = .write
    · subst hwrite
      simp only [if_true] at haccess
      split at haccess
      · next haddr =>
          rw [haddr]
          obtain ⟨⟨n, txFifo⟩, hin, hrest⟩ := Except.bind_eq_ok.mp haccess
          obtain rfl := (Prod.mk.inj (Prod.mk.inj (Except.ok.inj hrest)).2).2
          obtain ⟨txq', htx, hflow⟩ := fifoIn_flow_of_room (by decide) h.tx hroom hin
          exact ⟨txq', rxq, ⟨htx, h.rx⟩, .write hflow rxq⟩
      · next haddr =>
          rw [haddr]
          obtain rfl := (Prod.mk.inj (Prod.mk.inj (Except.ok.inj haccess)).2).2
          exact ⟨txq, rxq, ⟨h.tx, h.rx⟩, .refl txq rxq⟩
      · cases haccess
    · simp only [if_neg hwrite] at haccess
      split at haccess
      · next haddr =>
          obtain ⟨⟨taken, rxFifo⟩, hout, hrest⟩ := Except.bind_eq_ok.mp haccess
          obtain ⟨-, hrest⟩ := Prod.mk.inj (Except.ok.inj hrest)
          obtain ⟨rfl, rfl⟩ := Prod.mk.inj hrest
          obtain ⟨rxq', hrx, hflow⟩ := fifoOut_flow (by decide) h.rx hout
          refine ⟨txq, rxq', ⟨h.tx, hrx⟩, ?_⟩
          have hevents := accessEvents_read hwrite uart.rxFifo.isEmpty value
            (taken.headD 0 :: value.drop 1)
          rw [haddr]
          exact hevents ▸ .read hflow txq
      · next haddr =>
          obtain rfl := (Prod.mk.inj (Prod.mk.inj (Except.ok.inj haccess)).2).2
          rw [haddr]
          exact ⟨txq, rxq, h, .refl txq rxq⟩
      · cases haccess

theorem simpleUartUpdate_flow {irq : Byte} {printed : List Byte} (h : uart.Holds txq rxq)
    (hupdate : simpleUartUpdate uart = .ok (irq, printed, uart')) :
    ∃ txq', uart'.Holds txq' rxq ∧ txq'.length < 2 ^ 0 ∧
      UartFlow txq rxq (printed.map .print) txq' rxq := by
  obtain ⟨printed', f', txq', hflush, htx, hroom, hflow⟩ :=
    updateTxFifo_flow (by decide) h.tx uart.txNeedsFlush
  have hflush : updateTxFifo uart.txFifo uart.txNeedsFlush = .ok (printed', f') := hflush
  simp only [simpleUartUpdate, hflush, Except.ok_bind] at hupdate
  -- the FIFOs are the same, whichever line is raised
  repeat' split at hupdate
  all_goals
    obtain ⟨-, hrest⟩ := Prod.mk.inj (Except.ok.inj hupdate)
    obtain ⟨rfl, rfl⟩ := Prod.mk.inj hrest
    exact ⟨txq', ⟨htx, h.rx⟩, hroom, .print hflow rxq⟩

theorem simpleUartAddRxChar_flow {x : Byte} (h : uart.Holds txq rxq)
    (harrival : simpleUartAddRxChar uart x = .ok uart') :
    ∃ rxq', uart'.Holds txq rxq' ∧
      UartFlow txq rxq [.arrive x uart.rxFifo.isFull] txq rxq' := by
  obtain ⟨⟨n, rxFifo⟩, hin, hrest⟩ := Except.bind_eq_ok.mp harrival
  obtain rfl := Except.ok.inj hrest
  obtain ⟨rxq', hrx, hflow⟩ := fifoIn_flow (by decide) h.rx hin
  exact ⟨rxq', ⟨h.tx, hrx⟩, .arrive hflow txq⟩

end SimpleUart

/-! ### The 8250 -/

structure UartNs8250.Holds (uart : UartNs8250) (txq rxq : List Byte) : Prop where
  tx : Fifo.Holds (k := 4) uart.txFifo txq
  rx : Fifo.Holds (k := 4) uart.rxFifo rxq

def FcrClear (accessType : BusAccessType) (address : Nat) (valU8 : Byte) : Prop :=
  accessType = .write ∧ address = regFcr ∧ (checkBit valU8 1 ∨ checkBit valU8 2)

section Uart8250

variable {uart uart' : UartNs8250} {txq rxq : List Byte}

/-- What all writes but those of a byte to transmit leave as it is: the FIFOs, unless they
are reset, and the two fields that other calls wait for. -/
structure WriteKept (address : Nat) (valU8 : Byte) (uart uart' : UartNs8250) : Prop where
  txFifo : uart'.txFifo = uart.txFifo ∨
    (address = regFcr ∧ checkBit valU8 2 = true) ∧ uart'.txFifo = uart.txFifo.reset
  rxFifo : uart'.rxFifo = uart.rxFifo ∨
    (address = regFcr ∧ checkBit valU8 1 = true) ∧ uart'.rxFifo = uart.rxFifo.reset
  txNeedsFlush : uart'.txNeedsFlush = uart.txNeedsFlush
  currIirId : uart'.currIirId = uart.currIirId

theorem uartWrite_cases {address : Nat} {valU8 : Byte}
    (h : uartWrite uart address valU8 = .ok uart') :
    (address = regRxTxDivLatchLo ∧ uart.dlab = false ∧
      ∃ n txFifo, fifoIn uart.txFifo [valU8] = .ok (n, txFifo) ∧
        uart' = { uart with
          txFifo := txFifo
          txNeedsFlush := uart.txNeedsFlush || !uart.fifoEnabled || valU8 == 10
          txStopTriggering := uart.iir != 2 && uart.txStopTriggering }) ∨
      ((address = regRxTxDivLatchLo → uart.dlab = true) ∧
        WriteKept address valU8 uart uart') := by
  unfold uartWrite at h
  split at h
  · cases hdlab : uart.dlab with
    | true =>
        rw [hdlab, if_pos rfl] at h
        obtain rfl := Except.ok.inj h
        exact .inr ⟨fun _ => rfl, .inl rfl, .inl rfl, rfl, rfl⟩
    | false =>
        rw [hdlab, if_neg (by decide)] at h
        obtain ⟨⟨n, txFifo⟩, hin, hrest⟩ := Except.bind_eq_ok.mp h
        obtain rfl := Except.ok.inj hrest
        exact .inl ⟨rfl, rfl, n, txFifo, hin, rfl⟩
  · split at h
    · obtain rfl := Except.ok.inj h
      exact .inr ⟨nofun, .inl rfl, .inl rfl, rfl, rfl⟩
    · obtain rfl := Except.ok.inj h
      exact .inr ⟨nofun, .inl rfl, .inl rfl, rfl, rfl⟩
  · split at h
    · cases h
    · obtain rfl := Except.ok.inj h
      refine .inr ⟨nofun, ?_, ?_, rfl, rfl⟩
      · cases checkBit valU8 2 with
        | true => exact .inr ⟨⟨rfl, rfl⟩, rfl⟩
        | false => exact .inl rfl
      · cases checkBit valU8 1 with
        | true => exact .inr ⟨⟨rfl, rfl⟩, rfl⟩
        | false => exact .inl rfl
  · obtain rfl := Except.ok.inj h
    exact .inr ⟨nofun, .inl rfl, .inl rfl, rfl, rfl⟩
  · obtain rfl := Except.ok.inj h
    exact .inr ⟨nofun, .inl rfl, .inl rfl, rfl, rfl⟩
  · cases h

theorem data_eq_false {address : Nat} (h : address = regRxTxDivLatchLo → uart.dlab = true) :
    (address == regRxTxDivLatchLo && !uart.dlab) = false := by
  rw [Bool.eq_false_iff, Ne, Bool.and_eq_true, beq_iff_eq, Bool.not_eq_true']
  rintro ⟨haddress, hdlab⟩
  rw [h haddress] at hdlab
  cases hdlab

theorem uartWrite_flow {address : Nat} {valU8 : Byte} (h : uart.Holds txq rxq)
    (hroom : txq.length < 2 ^ 4) (hkeep : ¬ FcrClear .write address valU8)
    (hwrite : uartWrite uart address valU8 = .ok uart') :
    ∃ txq', uart'.Holds txq' rxq ∧
      UartFlow txq rxq (if address == 0 && !uart.dlab then [.write valU8] else []) txq' rxq := by
  rcases uartWrite_cases hwrite with ⟨rfl, hdlab, n, txFifo, hin, rfl⟩ | ⟨hother, hkept⟩
  · rw [hdlab]
    obtain ⟨txq', htx, hflow⟩ := fifoIn_flow_of_room (by decide) h.tx hroom hin
    exact ⟨txq', ⟨htx, h.rx⟩, .write hflow rxq⟩
  · have htx : uart'.txFifo = uart.txFifo :=
      hkept.txFifo.resolve_right fun hreset => hkeep ⟨rfl, hreset.1.1, .inr hreset.1.2⟩
    have hrx : uart'.rxFifo = uart.rxFifo :=
      hkept.rxFifo.resolve_right fun hreset => hkeep ⟨rfl, hreset.1.1, .inl hreset.1.2⟩
    rw [data_eq_false hother]
    exact ⟨txq, ⟨htx ▸ h.tx, hrx ▸ h.rx⟩, .refl txq rxq⟩

/-- The first byte of a byte that is stored as a whole `rv_uint_xlen`. -/
theorem headD_leBytes (v : Byte) (rest : List Byte) :
    (leBytes w.bytes v.toNat ++ rest).headD 0 = v := by
  have hhead : BitVec.ofNat 8 v.toNat = v := by rw [BitVec.ofNat_toNat, BitVec.setWidth_eq]
  cases w with
  | rv32 => exact hhead
  | rv64 => exact hhead

/-- What all reads but those of a received byte leave as it is. The identification of an empty
transmitter is taken back where it is read. -/
structure ReadKept (address : Nat) (uart uart' : UartNs8250) : Prop where
  txFifo : uart'.txFifo = uart.txFifo
  rxFifo : uart'.rxFifo = uart.rxFifo
  txNeedsFlush : uart'.txNeedsFlush = uart.txNeedsFlush
  currIirId : uart'.currIirId = if address = regIir ∧ uart.iir = 2 then 1 else uart.currIirId

theorem uartRead_cases {address : Nat} {outval : Option Byte}
    (h : uartRead uart address = .ok (outval, uart')) :
    (address = regRxTxDivLatchLo ∧ uart.dlab = false ∧
      ∃ taken rxFifo, fifoOut uart.rxFifo 1 = .ok (taken, rxFifo) ∧
        outval = some (taken.headD 0) ∧ uart' = { uart with rxFifo := rxFifo }) ∨
      ((address = regRxTxDivLatchLo → uart.dlab = true) ∧ ReadKept address uart uart') := by
  unfold uartRead at h
  split at h
  · cases hdlab : uart.dlab with
    | true =>
        rw [hdlab, if_pos rfl] at h
        obtain ⟨-, rfl⟩ := Prod.mk.inj (Except.ok.inj h)
        exact .inr ⟨fun _ => rfl, rfl, rfl, rfl, rfl⟩
    | false =>
        rw [hdlab, if_neg (by decide)] at h
        obtain ⟨⟨taken, rxFifo⟩, hout, hrest⟩ := Except.bind_eq_ok.mp h
        obtain ⟨rfl, rfl⟩ := Prod.mk.inj (Except.ok.inj hrest)
        exact .inl ⟨rfl, rfl, taken, rxFifo, hout, rfl, rfl⟩
  · split at h
    · obtain ⟨-, rfl⟩ := Prod.mk.inj (Except.ok.inj h)
      exact .inr ⟨nofun, rfl, rfl, rfl, rfl⟩
    · obtain ⟨-, rfl⟩ := Prod.mk.inj (Except.ok.inj h)
      exact .inr ⟨nofun, rfl, rfl, rfl, rfl⟩
  · obtain ⟨-, rfl⟩ := Prod.mk.inj (Except.ok.inj h)
    refine .inr ⟨nofun, ?_⟩
    by_cases hiir : uart.iir = 2
    · rw [if_pos hiir]
      exact ⟨rfl, rfl, rfl, (if_pos ⟨rfl, hiir⟩).symm⟩
    · rw [if_neg hiir]
      exact ⟨rfl, rfl, rfl, (if_neg fun h => hiir h.2).symm⟩
  · obtain ⟨-, rfl⟩ := Prod.mk.inj (Except.ok.inj h)
    exact .inr ⟨nofun, rfl, rfl, rfl, rfl⟩
  · obtain ⟨-, rfl⟩ := Prod.mk.inj (Except.ok.inj h)
    exact .inr ⟨nofun, rfl, rfl, rfl, rfl⟩
  · obtain ⟨-, rfl⟩ := Prod.mk.inj (Except.ok.inj h)
    exact .inr ⟨nofun, rfl, rfl, rfl, rfl⟩
  · obtain ⟨-, rfl⟩ := Prod.mk.inj (Except.ok.inj h)
    exact .inr ⟨nofun, rfl, rfl, rfl, rfl⟩
  · cases h

theorem uartRead_txNeedsFlush {address : Nat} {outval : Option Byte}
    (h : uartRead uart address = .ok (outval, uart')) : uart'.txNeedsFlush = uart.txNeedsFlush := by
  rcases uartRead_cases h with ⟨-, -, taken, rxFifo, -, -, rfl⟩ | ⟨-, hkept⟩
  · rfl
  · exact hkept.txNeedsFlush

theorem uartRead_currIirId {address : Nat} {outval : Option Byte}
    (h : uartRead uart address = .ok (outval, uart')) :
    uart'.currIirId = if address = regIir ∧ uart.iir = 2 then 1 else uart.currIirId := by
  rcases uartRead_cases h with ⟨rfl, -, taken, rxFifo, -, -, rfl⟩ | ⟨-, hkept⟩
  · exact (if_neg fun h => absurd h.1 (by decide)).symm
  · exact hkept.currIirId

/-- A read takes a byte from the receive register, or it moves nothing. -/
theorem uartRead_flow {address : Nat} {outval : Option Byte} (h : uart.Holds txq rxq)
    (hread : uartRead uart address = .ok (outval, uart')) :
    ∃ rxq', uart'.Holds txq rxq' ∧
      UartFlow txq rxq
        (if address == 0 && !uart.dlab then [.read (outval.getD 0) uart.rxFifo.isEmpty] else [])
        txq rxq' ∧ ((address == 0 && !uart.dlab) = true → outval.isSome) := by
  rcases uartRead_cases hread with ⟨rfl, hdlab, taken, rxFifo, hout, rfl, rfl⟩ | ⟨hother, hkept⟩
  · rw [hdlab]
    obtain ⟨rxq', hrx, hflow⟩ := fifoOut_flow (by decide) h.rx hout
    exact ⟨rxq', ⟨h.tx, hrx⟩, .read hflow txq, fun _ => rfl⟩
  · rw [data_eq_false hother]
    exact ⟨rxq, ⟨hkept.txFifo ▸ h.tx, hkept.rxFifo ▸ h.rx⟩, .refl txq rxq, nofun⟩

/-- An access of one byte is the write or the read of one register. -/
theorem uartBusAccess_cases {privLevel : PrivilegeLevel} {accessType : BusAccessType}
    {address : RvUintXlen w} {value bytes : List Byte} {len : Nat} {ret : RvRet}
    (h : uartBusAccess uart privLevel accessType address value len = .ok (ret, bytes, uart')) :
    (accessType = .write ∧ uartWrite uart address.toNat (value.headD 0) = .ok uart') ∨
      (accessType ≠ .write ∧ ∃ outval, uartRead uart address.toNat = .ok (outval, uart') ∧
        (outval.isSome → bytes.headD 0 = outval.getD 0)) := by
  rw [uartBusAccess] at h
  split at h
  · cases h
  · split at h
    · next hwrite =>
        obtain ⟨written, hregister, hrest⟩ := Except.bind_eq_ok.mp h
        obtain rfl := (Prod.mk.inj (Prod.mk.inj (Except.ok.inj hrest)).2).2
        exact .inl ⟨hwrite, hregister⟩
    · next hread =>
        obtain ⟨⟨outval, after⟩, hregister, hrest⟩ := Except.bind_eq_ok.mp h
        refine .inr ⟨hread, outval, ?_⟩
        cases outval with
        | none =>
            obtain rfl := (Prod.mk.inj (Prod.mk.inj (Except.ok.inj hrest)).2).2
            exact ⟨hregister, nofun⟩
        | some v =>
            simp only at hrest
            split at hrest
            · cases hrest
            · obtain ⟨rfl, rfl⟩ := Prod.mk.inj (Prod.mk.inj (Except.ok.inj hrest)).2
              exact ⟨hregister, fun _ => headD_leBytes v _⟩

theorem uartBusAccess_flow {privLevel : PrivilegeLevel} {accessType : BusAccessType}
    {address : RvUintXlen w} {value bytes : List Byte} {len : Nat} {ret : RvRet}
    (h : uart.Holds txq rxq) (hroom : accessType = .write → txq.length < 2 ^ 4)
    (hkeep : ¬ FcrClear accessType address.toNat (value.headD 0))
    (haccess : uartBusAccess uart privLevel accessType address value len =
      .ok (ret, bytes, uart')) :
    ∃ txq' rxq', uart'.Holds txq' rxq' ∧
      UartFlow txq rxq
        (accessEvents (address.toNat == 0 && !uart.dlab) uart.rxFifo.isEmpty accessType value
          bytes)
        txq' rxq' := by
  rcases uartBusAccess_cases haccess with ⟨rfl, hregister⟩ | ⟨hread, outval, hregister, hbytes⟩
  · obtain ⟨txq', hholds, hflow⟩ := uartWrite_flow h (hroom rfl) hkeep hregister
    exact ⟨txq', rxq, hholds, hflow⟩
  · obtain ⟨rxq', hholds, hflow, hsome⟩ := uartRead_flow h hregister
    refine ⟨txq, rxq', hholds, ?_⟩
    cases hdata : address.toNat == 0 && !uart.dlab with
    | false =>
        rw [hdata] at hflow
        exact hflow
    | true =>
        rw [accessEvents_read hread, hbytes (hsome hdata)]
        rw [hdata] at hflow
        exact hflow

theorem uartUpdate_flow {irq : Byte} {printed : List Byte} (h : uart.Holds txq rxq)
    (hupdate : uartUpdate uart = .ok (irq, printed, uart')) :
    ∃ txq', uart'.Holds txq' rxq ∧ txq'.length < 2 ^ 4 ∧
      UartFlow txq rxq (printed.map .print) txq' rxq := by
  obtain ⟨printed', f', txq', hflush, htx, hroom, hflow⟩ :=
    updateTxFifo_flow (by decide) h.tx uart.txNeedsFlush
  have hflush : updateTxFifo uart.txFifo uart.txNeedsFlush = .ok (printed', f') := hflush
  simp only [uartUpdate, hflush, Except.ok_bind] at hupdate
  obtain ⟨-, hrest⟩ := Prod.mk.inj (Except.ok.inj hupdate)
  obtain ⟨rfl, rfl⟩ := Prod.mk.inj hrest
  exact ⟨txq', ⟨htx, h.rx⟩, hroom, .print hflow rxq⟩

theorem uartAddRxChar_flow {x : Byte} (h : uart.Holds txq rxq)
    (harrival : uartAddRxChar uart x = .ok uart') :
    ∃ rxq', uart'.Holds txq rxq' ∧
      UartFlow txq rxq [.arrive x uart.rxFifo.isFull] txq rxq' := by
  obtain ⟨⟨n, rxFifo⟩, hin, hrest⟩ := Except.bind_eq_ok.mp harrival
  obtain rfl := Except.ok.inj hrest
  obtain ⟨rxq', hrx, hflow⟩ := fifoIn_flow (by decide) h.rx hin
  exact ⟨rxq', ⟨h.tx, hrx⟩, .arrive hflow txq⟩

end Uart8250

end RiscvEm
