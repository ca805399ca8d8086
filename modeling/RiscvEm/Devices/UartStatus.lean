import RiscvEm.Devices.UartRuns

/-!
What the 8250 UART reports after an update: the identification in `REG_IIR`, against the
interrupt line, and the transmitter bits of `REG_LSR`.
-/

namespace RiscvEm

variable {w : Xlen} {uart uart' : UartNs8250} {irq : Byte} {printed : List Byte}
  {history : List (UartStep w)}

/-! ### Causes -/

def UartNs8250.hasCause (uart : UartNs8250) : Bool :=
  (uart.irqEnabledRlsrChange || uart.irqEnabledRxDataAvailable) && uart.lsrChange ||
    uart.irqEnabledRxDataAvailable && uart.rxIrqFifoLevel.setWidth 32 ≤ uart.rxFifo.len ||
    uart.irqEnabledTxHoldingRegEmpty && uart.drains && !uart.txStopTriggering

theorem checkBit_irqCause {cause : Byte} (h : uart.irqCause = some cause) :
    checkBit cause 0 = false := by
  rw [UartNs8250.irqCause] at h
  split_ifs at h
  all_goals
    obtain rfl := Option.some.inj h
    rfl

theorem isSome_irqCause (uart : UartNs8250) :
    uart.irqCause.isSome =
      ((uart.irqEnabledRlsrChange || uart.irqEnabledRxDataAvailable) && uart.lsrChange ||
        uart.irqEnabledRxDataAvailable && uart.rxIrqFifoLevel.setWidth 32 ≤ uart.rxFifo.len ||
        uart.irqEnabledTxHoldingRegEmpty && uart.txFifo.isEmpty && !uart.txStopTriggering) := by
  rw [UartNs8250.irqCause]
  split_ifs with hrlsr hrx htx
  · rw [hrlsr]
    rfl
  · rw [hrx, Bool.or_true]
    rfl
  · rw [htx, Bool.or_true]
    rfl
  · rw [Bool.eq_false_iff.mpr hrlsr, Bool.eq_false_iff.mpr hrx, Bool.eq_false_iff.mpr htx]
    rfl

theorem uartUpdate_isSome_irqCause {txq rxq : List Byte} (hholds : uart.Holds txq rxq)
    (h : uartUpdate uart = .ok (irq, printed, uart')) :
    uart'.irqCause.isSome = uart.hasCause := by
  have hempty := uartUpdate_isEmpty hholds h
  obtain ⟨txFifo, currIirId, -, rfl, -, -⟩ := uartUpdate_eq_ok h
  rw [isSome_irqCause, hempty]
  rfl

/-! ### The identification over runs -/

def UartCall.raises : UartCall w → UartNs8250 → Bool
  | .update, uart => uart.hasCause
  | .access .., _ | .arrival _, _ => false

/-- The call reads `REG_IIR` with the identification of an empty transmitter in it. -/
def UartCall.takesBack : UartCall w → UartNs8250 → Bool
  | .access _ accessType address _ _, uart =>
      accessType != .write && address.toNat == regIir && uart.iir == 2
  | .arrival _, _ | .update, _ => false

/-- An update has found a cause, and the identification was not taken back since. -/
def outstanding : List (UartStep w) → Bool
  | [] => false
  | (uart, c) :: earlier => c.raises uart || !c.takesBack uart && outstanding earlier

theorem uartCall_currIirId {c : UartCall w} {txq rxq : List Byte} (hholds : uart.Holds txq rxq)
    (hcall : uartCall c uart = .ok uart') :
    checkBit uart'.currIirId 0 =
      !(c.raises uart || !c.takesBack uart && !checkBit uart.currIirId 0) := by
  cases c with
  | access privLevel accessType address value len =>
      rcases uartCall_access_cases hcall with ⟨rfl, hwrite⟩ | ⟨hread, outval, hregister⟩
      · have hsame : uart'.currIirId = uart.currIirId := by
          rcases uartWrite_cases hwrite with ⟨-, -, n, txFifo, -, rfl⟩ | ⟨-, hkept⟩
          · rfl
          · exact hkept.currIirId
        rw [hsame]
        simp [UartCall.raises, UartCall.takesBack]
      · have htype : (accessType != .write) = true := bne_iff_ne.mpr hread
        rw [uartRead_currIirId hregister, UartCall.raises, UartCall.takesBack, htype]
        by_cases hiir : address.toNat = regIir ∧ uart.iir = 2
        · rw [if_pos hiir, hiir.1, hiir.2]
          rfl
        · have hnot : (address.toNat == regIir && uart.iir == 2) = false := by
            rw [Bool.eq_false_iff, Ne, Bool.and_eq_true, beq_iff_eq, beq_iff_eq]
            exact hiir
          rw [if_neg hiir, Bool.true_and, hnot]
          simp
  | arrival x =>
      obtain ⟨⟨n, rxFifo⟩, -, hrest⟩ := Except.bind_eq_ok.mp hcall
      obtain rfl := Except.ok.inj hrest
      simp [UartCall.raises, UartCall.takesBack]
  | update =>
      obtain ⟨⟨irq, printed, after⟩, hupdate, hrest⟩ := Except.bind_eq_ok.mp hcall
      obtain rfl := Except.ok.inj hrest
      have hcause := uartUpdate_isSome_irqCause hholds hupdate
      obtain ⟨txFifo, currIirId, -, hafter, -, hid⟩ := uartUpdate_eq_ok hupdate
      have hfield : after.currIirId = currIirId := by rw [hafter]
      rw [hfield, hid, UartCall.raises, UartCall.takesBack, ← hcause]
      cases hfound : after.irqCause with
      | none => simp
      | some cause =>
          rw [Option.getD_some, checkBit_irqCause hfound]
          rfl

theorem UartDeviceRun.currIirId (hrun : UartDeviceRun w history uart) :
    checkBit uart.currIirId 0 = !outstanding history := by
  induction hrun with
  | init => rfl
  | call hrun hcall ih =>
      obtain ⟨txq, rxq, hholds⟩ := hrun.holds
      rw [uartCall_currIirId hholds hcall, ih, Bool.not_not]
      rfl

/-- The interrupt line and the identification after an update: bit 0 is clear if and only
if the line is raised, and then the cause that is named is there. -/
structure IirAgrees (irq : Byte) (uart : UartNs8250) : Prop where
  line : irq = 1 ↔ checkBit uart.iir 0 = false
  named : checkBit uart.iir 0 = false → uart.irqCause = some uart.iir

/-- After an update in any run the identification agrees with the line if and only if the
update finds a cause, or no earlier identification is outstanding. -/
theorem iirAgrees_iff (hrun : UartDeviceRun w history uart)
    (h : uartUpdate uart = .ok (irq, printed, uart')) :
    IirAgrees irq uart' ↔ uart.hasCause = true ∨ outstanding history = false := by
  obtain ⟨txq, rxq, hholds⟩ := hrun.holds
  have hcause := uartUpdate_isSome_irqCause hholds h
  have hold := hrun.currIirId
  obtain ⟨txFifo, currIirId, -, hafter, hirq, hid⟩ := uartUpdate_eq_ok h
  have hiir : uart'.iir = uart'.irqCause.getD uart.currIirId := by
    rw [← hid, hafter]
  rw [← hcause]
  cases hfound : uart'.irqCause with
  | some cause =>
      rw [hfound, Option.getD_some] at hiir
      rw [hfound, Option.isSome_some, if_pos rfl] at hirq
      have hbit := checkBit_irqCause hfound
      rw [← hiir] at hbit hfound
      exact iff_of_true ⟨iff_of_true hirq hbit, fun _ => hfound⟩ (.inl rfl)
  | none =>
      rw [hfound, Option.getD_none] at hiir
      rw [hfound, Option.isSome_none, if_neg (by decide)] at hirq
      rw [← hiir] at hold
      constructor
      · intro hagrees
        right
        cases hout : outstanding history with
        | false => rfl
        | true =>
            rw [hout] at hold
            have hnamed := hagrees.named hold
            rw [hfound] at hnamed
            cases hnamed
      · rintro (hfalse | hout)
        · cases hfalse
        · rw [hout] at hold
          have hclear : ¬ checkBit uart'.iir 0 = false := by
            rw [hold]
            decide
          refine ⟨iff_of_false ?_ hclear, fun h => absurd h hclear⟩
          rw [hirq]
          decide

/-- The empty transmitter has been reported and taken back when a byte arrives. -/
theorem iirAgrees_iff_arrival :
    ∃ history uart printed uart', UartDeviceRun .rv32 history uart ∧ uart.hasCause = true ∧
      uartUpdate uart = .ok (1, printed, uart') ∧ uart'.iir = 0xC ∧ IirAgrees 1 uart' := by
  obtain ⟨history, uart, irq, printed, uart', hrun, hupdate, htest⟩ := exists_update_of_any
    (w := .rv32) [writeByte 1 3, .update, readByte 2, .update, .arrival 65]
    (fun uart r => uart.hasCause && (r.1 == 1 && r.2.2.iir == 0xC)) (by decide)
  simp only [Bool.and_eq_true, beq_iff_eq] at htest
  obtain ⟨hcause, rfl, hiir⟩ := htest
  exact ⟨history, uart, printed, uart', hrun, hcause, hupdate, hiir,
    (iirAgrees_iff hrun hupdate).mpr (.inl hcause)⟩

/-- A byte that is received, reported and read is still reported after the next update. -/
theorem served_byte_reported :
    ¬ ∀ (history : List (UartStep .rv32)) (uart : UartNs8250) (irq : Byte) (printed : List Byte)
        (uart' : UartNs8250), UartDeviceRun .rv32 history uart →
      uartUpdate uart = .ok (irq, printed, uart') → (checkBit uart'.iir 0 = false ↔ irq = 1) := by
  intro hall
  obtain ⟨history, uart, irq, printed, uart', hrun, hupdate, htest⟩ := exists_update_of_any
    (w := .rv32) [writeByte 1 1, .arrival 65, .update, readByte 2, readByte 5, readByte 0]
    (fun _ r => r.1 == 0 && !checkBit r.2.2.iir 0) (by decide)
  rw [Bool.and_eq_true, beq_iff_eq, Bool.not_eq_true'] at htest
  have hirq := (hall history uart irq printed uart' hrun hupdate).mp htest.2
  exact absurd (htest.1.symm.trans hirq) (by decide)

/-! ### The transmitter -/

/-- The call writes a byte to transmit, with the FIFOs disabled or a newline. -/
def UartCall.asksForFlush : UartCall w → UartNs8250 → Bool
  | .access _ accessType address value _, uart =>
      accessType == .write && (address.toNat == regRxTxDivLatchLo && !uart.dlab) &&
        (!uart.fifoEnabled || value.headD 0 == 10)
  | .arrival _, _ | .update, _ => false

theorem uartCall_txNeedsFlush {c : UartCall w} (hcall : uartCall c uart = .ok uart') :
    uart'.txNeedsFlush = (c.asksForFlush uart || uart.txNeedsFlush) := by
  cases c with
  | access privLevel accessType address value len =>
      rw [UartCall.asksForFlush]
      rcases uartCall_access_cases hcall with ⟨rfl, hwrite⟩ | ⟨hread, outval, hregister⟩
      · rcases uartWrite_cases hwrite with ⟨haddress, hdlab, n, txFifo, -, rfl⟩ | ⟨hother, hkept⟩
        · rw [haddress, hdlab]
          show (uart.txNeedsFlush || !uart.fifoEnabled || value.headD 0 == 10) =
            ((!uart.fifoEnabled || value.headD 0 == 10) || uart.txNeedsFlush)
          rw [Bool.or_assoc, Bool.or_comm]
        · rw [hkept.txNeedsFlush, data_eq_false hother]
          rfl
      · have htype : (accessType == .write) = false := beq_eq_false_iff_ne.mpr hread
        rw [uartRead_txNeedsFlush hregister, htype]
        rfl
  | arrival x =>
      obtain ⟨⟨n, rxFifo⟩, -, hrest⟩ := Except.bind_eq_ok.mp hcall
      obtain rfl := Except.ok.inj hrest
      rfl
  | update =>
      obtain ⟨⟨irq, printed, after⟩, hupdate, hrest⟩ := Except.bind_eq_ok.mp hcall
      obtain rfl := Except.ok.inj hrest
      obtain ⟨txFifo, currIirId, -, hafter, -, -⟩ := uartUpdate_eq_ok hupdate
      rw [hafter]
      rfl

theorem UartDeviceRun.txNeedsFlush (hrun : UartDeviceRun w history uart) :
    uart.txNeedsFlush = history.any fun step => step.2.asksForFlush step.1 := by
  induction hrun with
  | init => rfl
  | call _ hcall ih => rw [uartCall_txNeedsFlush hcall, ih, List.any_cons]

/-- Every read of `REG_LSR`, into a buffer that holds what it stores, has the two bits of an
empty transmitter set. -/
def TransmitterEmpty (w : Xlen) (uart : UartNs8250) : Prop :=
  ∀ (privLevel : PrivilegeLevel) (accessType : BusAccessType) (address : RvUintXlen w)
    (value : List Byte), accessType ≠ .write → address.toNat = regLsr →
    w.bytes ≤ value.length → ∃ bytes uart',
      uartBusAccess uart privLevel accessType address value 1 = .ok (.ok, bytes, uart') ∧
      checkBit (bytes.headD 0) 5 = true ∧ checkBit (bytes.headD 0) 6 = true

theorem checkBit_lsr (dataAvail thrEmpty : Bool) :
    checkBit (flagBit dataAvail 0 ||| flagBit thrEmpty 5 ||| flagBit thrEmpty 6) 5 = thrEmpty ∧
      checkBit (flagBit dataAvail 0 ||| flagBit thrEmpty 5 ||| flagBit thrEmpty 6) 6 =
        thrEmpty := by
  revert dataAvail thrEmpty
  decide

theorem uartBusAccess_lsr (uart : UartNs8250) (privLevel : PrivilegeLevel)
    {accessType : BusAccessType} {address : RvUintXlen w} {value : List Byte}
    (htype : accessType ≠ .write) (haddress : address.toNat = regLsr)
    (hroom : w.bytes ≤ value.length) :
    ∃ bytes uart', uartBusAccess uart privLevel accessType address value 1 =
        .ok (.ok, bytes, uart') ∧
      bytes.headD 0 = flagBit (!uart.rxFifo.isEmpty) 0 ||| flagBit uart.txFifo.isEmpty 5 |||
        flagBit uart.txFifo.isEmpty 6 := by
  rw [uartBusAccess, if_neg (by decide), if_neg htype, haddress]
  exact ⟨_, _, if_neg (Nat.not_lt.mpr hroom), headD_leBytes _ _⟩

theorem transmitterEmpty_iff (uart : UartNs8250) :
    TransmitterEmpty w uart ↔ uart.txFifo.isEmpty = true := by
  constructor
  · intro h
    have hlsr : (BitVec.ofNat w.bits regLsr).toNat = regLsr := w.toNat_ofNat (by decide)
    have hroom : w.bytes ≤ (List.replicate w.bytes (0 : Byte)).length :=
      Nat.le_of_eq List.length_replicate.symm
    obtain ⟨bytes, uart', haccess, hbit, -⟩ := h .machine .read _ _ (by decide) hlsr hroom
    obtain ⟨bytes', uart'', haccess', hhead⟩ :=
      uartBusAccess_lsr uart .machine (by decide : BusAccessType.read ≠ .write) hlsr hroom
    obtain ⟨-, hrest⟩ := Prod.mk.inj (Except.ok.inj (haccess'.symm.trans haccess))
    obtain ⟨rfl, -⟩ := Prod.mk.inj hrest
    rw [hhead, (checkBit_lsr _ _).1] at hbit
    exact hbit
  · intro hempty privLevel accessType address value htype haddress hroom
    obtain ⟨bytes, uart', haccess, hhead⟩ := uartBusAccess_lsr uart privLevel htype haddress hroom
    have hbits := checkBit_lsr (!uart.rxFifo.isEmpty) uart.txFifo.isEmpty
    rw [← hhead, hempty] at hbits
    exact ⟨bytes, uart', haccess, hbits⟩

/-- After an update in any run the transmitter reads as empty if and only if `tx_fifo` was
empty or full, or one of the calls so far has asked for a flush. -/
theorem transmitterEmpty_after_update_iff (hrun : UartDeviceRun w history uart)
    (h : uartUpdate uart = .ok (irq, printed, uart')) :
    TransmitterEmpty w uart' ↔ uart.txFifo.isEmpty = true ∨ uart.txFifo.isFull = true ∨
      ∃ step ∈ history, step.2.asksForFlush step.1 = true := by
  obtain ⟨txq, rxq, hholds⟩ := hrun.holds
  rw [transmitterEmpty_iff, uartUpdate_isEmpty hholds h, UartNs8250.drains, hrun.txNeedsFlush,
    Bool.or_eq_true, Bool.or_eq_true, List.any_eq_true, or_assoc]

/-- A byte that is kept, and the newline that drains it. -/
theorem transmitterEmpty_after_newline :
    ∃ history uart irq uart', UartDeviceRun .rv32 history uart ∧ uart.txFifo.isEmpty = false ∧
      uartUpdate uart = .ok (irq, [65, 10], uart') ∧ TransmitterEmpty .rv32 uart' := by
  obtain ⟨history, uart, irq, printed, uart', hrun, hupdate, htest⟩ := exists_update_of_any
    (w := .rv32) [writeByte 2 1, writeByte 0 65, .update, writeByte 0 10]
    (fun uart r => !uart.txFifo.isEmpty && (uart.txNeedsFlush && r.2.1 == [65, 10]))
    (by decide)
  simp only [Bool.and_eq_true, Bool.not_eq_true', beq_iff_eq] at htest
  obtain ⟨hkept, hflush, rfl⟩ := htest
  rw [hrun.txNeedsFlush, List.any_eq_true] at hflush
  exact ⟨history, uart, irq, uart', hrun, hkept, hupdate,
    (transmitterEmpty_after_update_iff hrun hupdate).mpr (.inr (.inr hflush))⟩

/-- With the FIFOs enabled a single byte that is no newline stays in `tx_fifo`. -/
theorem byte_not_drained :
    ¬ ∀ (history : List (UartStep .rv32)) (uart : UartNs8250) (irq : Byte) (printed : List Byte)
        (uart' : UartNs8250), UartDeviceRun .rv32 history uart →
      uartUpdate uart = .ok (irq, printed, uart') → TransmitterEmpty .rv32 uart' := by
  intro hall
  obtain ⟨history, uart, irq, printed, uart', hrun, hupdate, htest⟩ := exists_update_of_any
    (w := .rv32) [writeByte 2 1, writeByte 0 65] (fun _ r => !r.2.2.txFifo.isEmpty)
    (by decide)
  have hempty := (transmitterEmpty_iff uart').mp (hall history uart irq printed uart' hrun hupdate)
  rw [hempty] at htest
  exact absurd htest (by decide)

end RiscvEm
