import RiscvEm.Core.Behind
import RiscvEm.Devices.UartFlow
import RiscvEm.Soc.System

/-!
The two streams of the UART over the runs of the system. An instruction makes at most one
access of a single byte, and no other reaches the UART; after every update the transmit
FIFO has room for the byte that the next instruction may write.
-/

namespace RiscvEm

variable {w : Xlen} {useSimpleUart : Bool}

/-! ### The UART of the build -/

namespace Devices

variable (useSimpleUart) (devices : Devices)

def txBytes : List Byte :=
  if useSimpleUart then devices.uart.txFifo.bytes else devices.uart8250.txFifo.bytes

def rxBytes : List Byte :=
  if useSimpleUart then devices.uart.rxFifo.bytes else devices.uart8250.rxFifo.bytes

def rxEmpty : Bool :=
  if useSimpleUart then devices.uart.rxFifo.isEmpty else devices.uart8250.rxFifo.isEmpty

def rxFull : Bool :=
  if useSimpleUart then devices.uart.rxFifo.isFull else devices.uart8250.rxFifo.isFull

/-- The register at the offset is the transmit and receive register; that of the 8250 is
it only while `dlab` is clear. -/
def dataRegister (offset : RvUintXlen w) : Bool :=
  if useSimpleUart then offset.toNat == 0 else offset.toNat == 0 && !devices.uart8250.dlab

def UartHolds (txq rxq : List Byte) : Prop :=
  if useSimpleUart then devices.uart.Holds txq rxq else devices.uart8250.Holds txq rxq

structure SameUarts (devices devices' : Devices) : Prop where
  uart : devices'.uart = devices.uart
  uart8250 : devices'.uart8250 = devices.uart8250

end Devices

def uartFifoSize (useSimpleUart : Bool) : Nat :=
  if useSimpleUart then simpleUartFifoSize else uartNs8250FifoSize

section UartOfTheBuild

variable {devices devices' : Devices} {txq rxq : List Byte}

theorem Devices.UartHolds.bytes_eq (h : devices.UartHolds useSimpleUart txq rxq) :
    devices.txBytes useSimpleUart = txq ∧ devices.rxBytes useSimpleUart = rxq := by
  cases useSimpleUart with
  | true => exact ⟨(SimpleUart.Holds.tx h).bytes_eq, (SimpleUart.Holds.rx h).bytes_eq⟩
  | false => exact ⟨(UartNs8250.Holds.tx h).bytes_eq, (UartNs8250.Holds.rx h).bytes_eq⟩

theorem Devices.UartHolds.of_sameUarts (h : devices.UartHolds useSimpleUart txq rxq)
    (hsame : devices.SameUarts devices') : devices'.UartHolds useSimpleUart txq rxq := by
  rwa [Devices.UartHolds, hsame.uart, hsame.uart8250]

theorem Devices.UartHolds.init (useSimpleUart : Bool) :
    ({} : Devices).UartHolds useSimpleUart [] [] := by
  cases useSimpleUart with
  | true => exact SimpleUart.Holds.mk (.empty _) (.empty _)
  | false => exact UartNs8250.Holds.mk (.empty _) (.empty _)

/-- An access of the UART, with room for a byte, moves what it writes or returns. -/
theorem deviceAccess_uart_flow {privLevel : PrivilegeLevel} {accessType : BusAccessType}
    {offset : RvUintXlen w} {value bytes : List Byte} {len : Nat} {ret : RvRet}
    (h : devices.UartHolds useSimpleUart txq rxq) (hroom : txq.length < uartFifoSize useSimpleUart)
    (hkeep : useSimpleUart = false → ¬ FcrClear accessType offset.toNat (value.headD 0))
    (haccess : deviceAccess useSimpleUart .uart devices privLevel accessType offset value len =
      .ok (ret, bytes, devices')) :
    ∃ txq' rxq', devices'.UartHolds useSimpleUart txq' rxq' ∧
      UartFlow txq rxq
        (accessEvents (devices.dataRegister useSimpleUart offset) (devices.rxEmpty useSimpleUart)
          accessType value bytes)
        txq' rxq' := by
  cases useSimpleUart with
  | true =>
      obtain ⟨⟨ret', bytes', uart⟩, huart, hrest⟩ := Except.bind_eq_ok.mp haccess
      obtain ⟨-, hrest⟩ := Prod.mk.inj (Except.ok.inj hrest)
      obtain ⟨rfl, rfl⟩ := Prod.mk.inj hrest
      exact simpleUartBusAccess_flow h hroom huart
  | false =>
      obtain ⟨⟨ret', bytes', uart⟩, huart, hrest⟩ := Except.bind_eq_ok.mp haccess
      obtain ⟨-, hrest⟩ := Prod.mk.inj (Except.ok.inj hrest)
      obtain ⟨rfl, rfl⟩ := Prod.mk.inj hrest
      exact uartBusAccess_flow h (fun _ => hroom) (hkeep rfl) huart

theorem uartUpdateOf_flow {irq : Byte} {printed : List Byte}
    (h : devices.UartHolds useSimpleUart txq rxq)
    (hupdate : uartUpdateOf useSimpleUart devices = .ok (irq, printed, devices')) :
    ∃ txq', devices'.UartHolds useSimpleUart txq' rxq ∧
      txq'.length < uartFifoSize useSimpleUart ∧
      UartFlow txq rxq (printed.map .print) txq' rxq := by
  cases useSimpleUart with
  | true =>
      obtain ⟨⟨irq', printed', uart⟩, huart, hrest⟩ := Except.bind_eq_ok.mp hupdate
      obtain ⟨-, hrest⟩ := Prod.mk.inj (Except.ok.inj hrest)
      obtain ⟨rfl, rfl⟩ := Prod.mk.inj hrest
      exact simpleUartUpdate_flow h huart
  | false =>
      obtain ⟨⟨irq', printed', uart⟩, huart, hrest⟩ := Except.bind_eq_ok.mp hupdate
      obtain ⟨-, hrest⟩ := Prod.mk.inj (Except.ok.inj hrest)
      obtain ⟨rfl, rfl⟩ := Prod.mk.inj hrest
      exact uartUpdate_flow h huart

theorem updateDevices_flow {mei mti msi : Byte} {printed : List Byte}
    (h : devices.UartHolds useSimpleUart txq rxq)
    (hupdate : updateDevices useSimpleUart devices = .ok (mei, mti, msi, printed, devices')) :
    ∃ txq', devices'.UartHolds useSimpleUart txq' rxq ∧
      txq'.length < uartFifoSize useSimpleUart ∧
      UartFlow txq rxq (printed.map .print) txq' rxq := by
  obtain ⟨⟨irq, printed', updated⟩, huart, hrest⟩ := Except.bind_eq_ok.mp hupdate
  obtain ⟨txq', hholds, hroom, hflow⟩ := uartUpdateOf_flow h huart
  -- the interrupt controllers are updated after the UART
  generalize plicUpdate (plicUpdatePending updated.plic 10 irq) = updatedPlic at hrest
  generalize clintUpdate updated.clint = updatedClint at hrest
  obtain ⟨mei', plic⟩ := updatedPlic
  obtain ⟨mti', msi', clint⟩ := updatedClint
  cases hrest
  exact ⟨txq', hholds.of_sameUarts ⟨rfl, rfl⟩, hroom, hflow⟩

theorem addRxChar_flow {x : Byte} (h : devices.UartHolds useSimpleUart txq rxq)
    (harrival : addRxChar useSimpleUart devices x = .ok devices') :
    ∃ rxq', devices'.UartHolds useSimpleUart txq rxq' ∧
      UartFlow txq rxq [.arrive x (devices.rxFull useSimpleUart)] txq rxq' := by
  cases useSimpleUart with
  | true =>
      obtain ⟨uart, huart, hrest⟩ := Except.bind_eq_ok.mp harrival
      obtain rfl := Except.ok.inj hrest
      exact simpleUartAddRxChar_flow h huart
  | false =>
      obtain ⟨uart, huart, hrest⟩ := Except.bind_eq_ok.mp harrival
      obtain rfl := Except.ok.inj hrest
      exact uartAddRxChar_flow h huart

end UartOfTheBuild

/-! ### The bus -/

def SameUarts (soc soc' : RvSoc Devices) : Prop := soc.devices.SameUarts soc'.devices

instance isPreorder_sameUarts : IsPreorder (RvSoc Devices) SameUarts where
  refl _ := ⟨rfl, rfl⟩
  trans _ _ _ h h' := ⟨h'.uart.trans h.uart, h'.uart8250.trans h.uart8250⟩

/-- The other entries of the bus do not reach the UARTs. -/
theorem busTargetAccess_sameUarts {target : BusTarget} (htarget : target ≠ .uart)
    {soc : RvSoc Devices} {privLevel : PrivilegeLevel} {accessType : BusAccessType}
    {offset : RvUintXlen w} {value : List Byte} {len : Nat}
    {r : RvRet × List Byte × RvSoc Devices}
    (h : busTargetAccess (deviceAccess useSimpleUart) target soc privLevel accessType offset value
      len = .ok r) : SameUarts soc r.2.2 := by
  cases target with
  | ram | mrom | fromMem =>
      obtain ⟨a, -, h⟩ := Except.bind_eq_ok.mp h
      obtain rfl := Except.ok.inj h
      exact ⟨rfl, rfl⟩
  | clint | plic =>
      obtain ⟨b, hb, h⟩ := Except.bind_eq_ok.mp h
      obtain rfl := Except.ok.inj h
      obtain ⟨a, -, hb⟩ := Except.bind_eq_ok.mp hb
      obtain rfl := Except.ok.inj hb
      exact ⟨rfl, rfl⟩
  | uart => exact absurd rfl htarget

theorem respects_sameUarts (accessType : BusAccessType) (len : Nat) (hlen : len ≠ 1) :
    Respects (w := w) (socBusAccess useSimpleUart) SameUarts accessType len := by
  intro soc privLevel address value r h
  rw [socBusAccess, rvSocBusAccess] at h
  cases hdispatch : dispatch (rvSocInitMemAccessCbs w useSimpleUart) address len with
  | none =>
      rw [hdispatch] at h
      cases h
  | some found =>
      obtain ⟨index, entry, offset⟩ := found
      simp only [hdispatch] at h
      by_cases htarget : entry.target = .uart
      · simp only [htarget, busTargetAccess, deviceAccess, simpleUartBusAccess, uartBusAccess,
          if_pos hlen] at h
        cases useSimpleUart <;> cases h
      · exact busTargetAccess_sameUarts htarget h

/-! ### The events of an instruction -/

def UartAccess (useSimpleUart : Bool) (s : RvCore w (RvSoc Devices)) (soc : RvSoc Devices)
    (accessType : BusAccessType) (offset : RvUintXlen w) (value bytes : List Byte) : Prop :=
  ∃ privLevel phys index entry ret soc',
    ByteAccess (socBusAccess useSimpleUart) s soc privLevel accessType phys value ∧
    dispatch (rvSocInitMemAccessCbs w useSimpleUart) phys 1 = some (index, entry, offset) ∧
    entry.target = .uart ∧
    socBusAccess useSimpleUart soc privLevel accessType phys value 1 = .ok (ret, bytes, soc')

def ClearsFifo (useSimpleUart : Bool) (s : RvCore w (RvSoc Devices)) : Prop :=
  useSimpleUart = false ∧ ∃ soc accessType offset value bytes,
    UartAccess useSimpleUart s soc accessType offset value bytes ∧
      FcrClear accessType offset.toNat (value.headD 0)

inductive CoreEvents (useSimpleUart : Bool) (s : RvCore w (RvSoc Devices)) :
    List UartEvent → Prop
  | access {soc : RvSoc Devices} {accessType : BusAccessType} {offset : RvUintXlen w}
      {value bytes : List Byte}
      (h : UartAccess useSimpleUart s soc accessType offset value bytes) :
      CoreEvents useSimpleUart s
        (accessEvents (soc.devices.dataRegister useSimpleUart offset)
          (soc.devices.rxEmpty useSimpleUart) accessType value bytes)
  | quiet
      (h : ∀ soc accessType offset value bytes,
        ¬ UartAccess useSimpleUart s soc accessType offset value bytes) :
      CoreEvents useSimpleUart s []

theorem exists_coreEvents (useSimpleUart : Bool) (s : RvCore w (RvSoc Devices)) :
    ∃ events, CoreEvents useSimpleUart s events := by
  by_cases hsome : ∃ soc accessType offset value bytes,
      UartAccess useSimpleUart s soc accessType offset value bytes
  · obtain ⟨soc, accessType, offset, value, bytes, h⟩ := hsome
    exact ⟨_, .access h⟩
  · refine ⟨[], .quiet ?_⟩
    intro soc accessType offset value bytes h
    exact hsome ⟨soc, accessType, offset, value, bytes, h⟩

theorem UartAccess.unique {s : RvCore w (RvSoc Devices)} {soc soc' : RvSoc Devices}
    {accessType accessType' : BusAccessType} {offset offset' : RvUintXlen w}
    {value value' bytes bytes' : List Byte}
    (h : UartAccess useSimpleUart s soc accessType offset value bytes)
    (h' : UartAccess useSimpleUart s soc' accessType' offset' value' bytes') :
    soc' = soc ∧ accessType' = accessType ∧ offset' = offset ∧ value' = value ∧
      bytes' = bytes := by
  obtain ⟨privLevel, phys, index, entry, ret, after, hbyte, hdispatch, -, hbus⟩ := h
  obtain ⟨privLevel', phys', index', entry', ret', after', hbyte', hdispatch', -, hbus'⟩ := h'
  obtain ⟨rfl, rfl, rfl, rfl, rfl⟩ := hbyte.unique hbyte'
  obtain ⟨-, hentry⟩ := Prod.mk.inj (Option.some.inj (hdispatch'.symm.trans hdispatch))
  obtain ⟨-, hresult⟩ := Prod.mk.inj (Except.ok.inj (hbus'.symm.trans hbus))
  exact ⟨rfl, rfl, (Prod.mk.inj hentry).2, rfl, (Prod.mk.inj hresult).1⟩

theorem CoreEvents.unique {s : RvCore w (RvSoc Devices)} {events events' : List UartEvent}
    (h : CoreEvents useSimpleUart s events) (h' : CoreEvents useSimpleUart s events') :
    events' = events := by
  cases h with
  | access haccess =>
      cases h' with
      | access haccess' =>
          obtain ⟨rfl, rfl, rfl, rfl, rfl⟩ := haccess.unique haccess'
          rfl
      | quiet hquiet => exact absurd haccess (hquiet _ _ _ _ _)
  | quiet hquiet =>
      cases h' with
      | access haccess => exact absurd haccess (hquiet _ _ _ _ _)
      | quiet => rfl

section Instruction

variable {s s' : RvCore w (RvSoc Devices)} {txq rxq : List Byte} {events : List UartEvent}

theorem deviceAccess_of_dispatch {soc soc' : RvSoc Devices} {privLevel : PrivilegeLevel}
    {accessType : BusAccessType} {address offset : RvUintXlen w} {value bytes : List Byte}
    {len index : Nat} {entry : MemAccessCb w} {ret : RvRet}
    (hdispatch : dispatch (rvSocInitMemAccessCbs w useSimpleUart) address len =
      some (index, entry, offset))
    (htarget : entry.target = .uart)
    (h : socBusAccess useSimpleUart soc privLevel accessType address value len =
      .ok (ret, bytes, soc')) :
    deviceAccess useSimpleUart .uart soc.devices privLevel accessType offset value len =
      .ok (ret, bytes, soc'.devices) := by
  rw [socBusAccess, rvSocBusAccess] at h
  simp only [hdispatch, htarget, busTargetAccess] at h
  obtain ⟨⟨ret', bytes', devices⟩, haccess, hrest⟩ := Except.bind_eq_ok.mp h
  cases hrest
  exact haccess

theorem rvCoreRun_sameUarts
    (hquiet : ∀ soc accessType offset value bytes,
      ¬ UartAccess useSimpleUart s soc accessType offset value bytes)
    (hrun : rvCoreRun (socBusAccess useSimpleUart) s = .ok s') : SameUarts s.priv s'.priv := by
  by_cases hbyte : ∃ soc privLevel accessType phys value,
      ByteAccess (socBusAccess useSimpleUart) s soc privLevel accessType phys value
  · obtain ⟨soc, privLevel, accessType, phys, value, hbyte⟩ := hbyte
    obtain ⟨hbefore, ret, bytes, hbus⟩ := hbyte.behind respects_sameUarts hrun
    refine trans_of SameUarts hbefore ?_
    cases hdispatch : dispatch (rvSocInitMemAccessCbs w useSimpleUart) phys 1 with
    | none =>
        rw [socBusAccess, rvSocBusAccess, hdispatch] at hbus
        cases hbus
    | some found =>
        obtain ⟨index, entry, offset⟩ := found
        by_cases htarget : entry.target = .uart
        · exact absurd
            ⟨privLevel, phys, index, entry, ret, s'.priv, hbyte, hdispatch, htarget, hbus⟩
            (hquiet soc accessType offset value bytes)
        · rw [socBusAccess, rvSocBusAccess] at hbus
          simp only [hdispatch] at hbus
          exact busTargetAccess_sameUarts htarget hbus
  · refine rvCoreRun_behind respects_sameUarts ?_ hrun
    intro soc privLevel accessType phys value h
    exact hbyte ⟨soc, privLevel, accessType, phys, value, h⟩

/-- With room for a byte, an instruction moves the bytes of its events. -/
theorem rvCoreRun_flow (h : s.priv.devices.UartHolds useSimpleUart txq rxq)
    (hroom : txq.length < uartFifoSize useSimpleUart) (hclear : ¬ ClearsFifo useSimpleUart s)
    (hevents : CoreEvents useSimpleUart s events)
    (hrun : rvCoreRun (socBusAccess useSimpleUart) s = .ok s') :
    ∃ txq' rxq', s'.priv.devices.UartHolds useSimpleUart txq' rxq' ∧
      UartFlow txq rxq events txq' rxq' := by
  cases hevents with
  | @access soc accessType offset value bytes haccess =>
      obtain ⟨privLevel, phys, index, entry, ret, soc', hbyte, hdispatch, htarget, hbus⟩ :=
        id haccess
      obtain ⟨hbefore, ret', bytes', hbus'⟩ := hbyte.behind respects_sameUarts hrun
      obtain ⟨-, hrest⟩ := Prod.mk.inj (Except.ok.inj (hbus'.symm.trans hbus))
      obtain ⟨-, hsoc⟩ := Prod.mk.inj hrest
      rw [← hsoc] at hbus
      refine deviceAccess_uart_flow (h.of_sameUarts hbefore) hroom ?_
        (deviceAccess_of_dispatch hdispatch htarget hbus)
      intro huart hfcr
      exact hclear ⟨huart, soc, accessType, offset, value, bytes, haccess, hfcr⟩
  | quiet hquiet =>
      have hsame := rvCoreRun_sameUarts hquiet hrun
      exact ⟨txq, rxq, h.of_sameUarts hsame, .refl txq rxq⟩

end Instruction

/-! ### Runs -/

/-- The second half of a round of `rv_soc_run`: the updates of the devices and the
interrupts. -/
def rvSocUpdate (useSimpleUart : Bool) (s : RvCore w (RvSoc Devices)) :
    Except Stop (List Byte × RvCore w (RvSoc Devices)) := do
  let (mei, mti, msi, printed, devices) ← updateDevices useSimpleUart s.priv.devices
  let s ← rvCoreProcessInterrupts mei mti msi { s with priv := { s.priv with devices := devices } }
  return (printed, s)

theorem rvSocRound_eq (useSimpleUart : Bool) (s : RvCore w (RvSoc Devices)) :
    rvSocRound useSimpleUart s =
      rvCoreRun (socBusAccess useSimpleUart) s >>= rvSocUpdate useSimpleUart := rfl

inductive RoundPart | instruction | updates
  deriving DecidableEq

/-- The runs of `rv_soc_run` that clear no FIFO of the 8250, with what has happened at the
UART. Bytes arrive before and after any instruction. -/
inductive UartRun (useSimpleUart : Bool) :
    List UartEvent → RoundPart → RvCore w (RvSoc Devices) → Prop
  | init {fw : List Byte} {dtb initrd : Option (List Byte)} {s : RvCore w (RvSoc Devices)}
      (h : rvSocInit w fw dtb initrd = .ok s) : UartRun useSimpleUart [] .instruction s
  | instruction {history events : List UartEvent} {s s' : RvCore w (RvSoc Devices)}
      (hrun : UartRun useSimpleUart history .instruction s)
      (hclear : ¬ ClearsFifo useSimpleUart s) (hevents : CoreEvents useSimpleUart s events)
      (h : rvCoreRun (socBusAccess useSimpleUart) s = .ok s') :
      UartRun useSimpleUart (history ++ events) .updates s'
  | updates {history : List UartEvent} {s s' : RvCore w (RvSoc Devices)} {printed : List Byte}
      (hrun : UartRun useSimpleUart history .updates s)
      (h : rvSocUpdate useSimpleUart s = .ok (printed, s')) :
      UartRun useSimpleUart (history ++ printed.map .print) .instruction s'
  | arrival {history : List UartEvent} {part : RoundPart} {s : RvCore w (RvSoc Devices)} {x : Byte}
      {devices : Devices} (hrun : UartRun useSimpleUart history part s)
      (h : addRxChar useSimpleUart s.priv.devices x = .ok devices) :
      UartRun useSimpleUart (history ++ [.arrive x (s.priv.devices.rxFull useSimpleUart)]) part
        { s with priv := { s.priv with devices := devices } }

section Runs

variable {s s' : RvCore w (RvSoc Devices)} {history : List UartEvent} {part : RoundPart}

theorem rvSocInit_devices {fw : List Byte} {dtb initrd : Option (List Byte)}
    (h : rvSocInit w fw dtb initrd = .ok s) : s.priv.devices = {} := by
  simp only [rvSocInit] at h
  cases dtb <;> cases initrd
  -- with or without the two files, what is loaded goes to the memories
  all_goals
    obtain ⟨ram, -, h⟩ := Except.bind_eq_ok.mp h
    obtain ⟨loaded, -, h⟩ := Except.bind_eq_ok.mp h
    obtain ⟨fromMem, -, h⟩ := Except.bind_eq_ok.mp h
    obtain rfl := Except.ok.inj h
    rfl

/-- Every step of the system that clears no FIFO continues the run. -/
theorem UartRun.step (hrun : UartRun useSimpleUart history .instruction s)
    (hclear : ¬ ClearsFifo useSimpleUart s) (hstep : SocStep useSimpleUart s s') :
    ∃ events, UartRun useSimpleUart (history ++ events) .instruction s' := by
  cases hstep with
  | @round _ printed h =>
      rw [rvSocRound_eq] at h
      obtain ⟨s₁, hcore, hupdates⟩ := Except.bind_eq_ok.mp h
      obtain ⟨events, hevents⟩ := exists_coreEvents useSimpleUart s
      refine ⟨events ++ printed.map .print, ?_⟩
      rw [← List.append_assoc]
      exact (hrun.instruction hclear hevents hcore).updates hupdates
  | arrival h => exact ⟨_, hrun.arrival h⟩

theorem rvSocUpdate_flow {txq rxq printed : List Byte}
    (h : s.priv.devices.UartHolds useSimpleUart txq rxq)
    (hupdate : rvSocUpdate useSimpleUart s = .ok (printed, s')) :
    ∃ txq', s'.priv.devices.UartHolds useSimpleUart txq' rxq ∧
      txq'.length < uartFifoSize useSimpleUart ∧
      UartFlow txq rxq (printed.map .print) txq' rxq := by
  obtain ⟨⟨mei, mti, msi, printed', devices⟩, hdevices, hrest⟩ := Except.bind_eq_ok.mp hupdate
  obtain ⟨s₁, hinterrupts, hrest⟩ := Except.bind_eq_ok.mp hrest
  obtain ⟨rfl, rfl⟩ := Prod.mk.inj (Except.ok.inj hrest)
  rw [rvCoreProcessInterrupts_frame hinterrupts]
  exact updateDevices_flow h (liftM_eq_ok.mp hdevices)

/-- The invariant of the runs: the FIFOs hold what has been written and not printed, and
what has arrived and not been read, and an instruction finds room for a byte. -/
theorem UartRun.flow (hrun : UartRun useSimpleUart history part s) :
    ∃ txq rxq, s.priv.devices.UartHolds useSimpleUart txq rxq ∧
      (part = .instruction → txq.length < uartFifoSize useSimpleUart) ∧
      UartFlow [] [] history txq rxq := by
  induction hrun with
  | init h =>
      rw [rvSocInit_devices h]
      refine ⟨[], [], .init useSimpleUart, fun _ => ?_, .refl [] []⟩
      cases useSimpleUart <;> decide
  | instruction hrun hclear hevents h ih =>
      obtain ⟨txq, rxq, hholds, hroom, hflow⟩ := ih
      obtain ⟨txq', rxq', hholds', hflow'⟩ := rvCoreRun_flow hholds (hroom rfl) hclear hevents h
      exact ⟨txq', rxq', hholds', nofun, hflow.trans hflow'⟩
  | updates hrun h ih =>
      obtain ⟨txq, rxq, hholds, -, hflow⟩ := ih
      obtain ⟨txq', hholds', hroom, hflow'⟩ := rvSocUpdate_flow hholds h
      exact ⟨txq', rxq, hholds', fun _ => hroom, hflow.trans hflow'⟩
  | arrival hrun h ih =>
      obtain ⟨txq, rxq, hholds, hroom, hflow⟩ := ih
      obtain ⟨rxq', hholds', hflow'⟩ := addRxChar_flow hholds h
      exact ⟨txq, rxq', hholds', hroom, hflow.trans hflow'⟩

/-- Every byte passes the UART once and in order. Whatever the guest has written to the
transmit register has been printed or is in `tx_fifo`; whatever has arrived has been read
or is in `rx_fifo`, but for the bytes that found it full. -/
theorem uart_streams (hrun : UartRun useSimpleUart history part s) :
    bytesPrinted history ++ s.priv.devices.txBytes useSimpleUart = bytesWritten history ∧
      bytesRead history ++ s.priv.devices.rxBytes useSimpleUart = bytesArrived history := by
  obtain ⟨txq, rxq, hholds, -, htx, hrx⟩ := hrun.flow
  obtain ⟨htxq, hrxq⟩ := hholds.bytes_eq
  rw [htxq, hrxq]
  exact ⟨htx.symm, hrx.symm⟩

end Runs

/-! ### Runs of the simple UART, computed -/

/-- The events of an instruction in machine mode that accesses the UART or none of one
byte. -/
def machineEvents (cb : ExecutionCb) (d : RvCore w (RvSoc Devices)) :
    Option (List UartEvent) :=
  match cb.byteRequest d with
  | none => some []
  | some (accessType, value) =>
      if checkMprvOverride d accessType = .machine ∧
          pmpMemCheck d.pmp .machine (effectiveAddress d) 1 accessType = .ok then
        match dispatch (rvSocInitMemAccessCbs w true) (effectiveAddress d) 1 with
        | none => none
        | some (_, entry, offset) =>
            match socBusAccess true d.priv .machine accessType (effectiveAddress d) value 1 with
            | .error _ => none
            | .ok (_, bytes, _) =>
                if entry.target = .uart then
                  some (accessEvents (d.priv.devices.dataRegister true offset)
                    (d.priv.devices.rxEmpty true) accessType value bytes)
                else none
      else none

theorem Executes.coreEvents {s d : RvCore w (RvSoc Devices)} {cb : ExecutionCb}
    {events : List UartEvent} (hexec : Executes (socBusAccess true) s cb d)
    (h : machineEvents cb d = some events) : CoreEvents true s events := by
  rw [machineEvents] at h
  split at h
  · next hrequest =>
      obtain rfl := Option.some.inj h
      refine .quiet ?_
      rintro soc accessType offset value bytes ⟨_, _, _, _, _, _, hbyte, -⟩
      exact hexec.no_byteAccess hrequest hbyte
  · next accessType value hrequest =>
      split at h
      · next hallow =>
          split at h
          · cases h
          · next index entry offset hdispatch =>
              split at h
              · cases h
              · next ret bytes soc hbus =>
                  split at h
                  · next htarget =>
                      obtain rfl := Option.some.inj h
                      rw [← hallow.1] at hbus
                      exact .access ⟨_, _, index, entry, ret, soc,
                        hexec.byteAccess_machine hrequest hallow.1 hallow.2, hdispatch, htarget,
                        hbus⟩
                  · cases h
      · cases h

/-- The run of the arrivals, with a round for each `none`, ends in a history and a state
that pass the test. -/
def uartRunAny (p : List UartEvent → RvCore w (RvSoc Devices) → Bool) :
    List (Option Byte) → List UartEvent → RvCore w (RvSoc Devices) → Bool
  | [], history, s => p history s
  | some x :: rest, history, s =>
      (addRxChar true s.priv.devices x).toOption.any fun devices =>
        uartRunAny p rest (history ++ [.arrive x (s.priv.devices.rxFull true)])
          { s with priv := { s.priv with devices := devices } }
  | none :: rest, history, s =>
      executesAny (socBusAccess true) s fun cb d =>
        (machineEvents cb d).any fun events =>
          (rvCoreRun (socBusAccess true) s).toOption.any fun s₁ =>
            (rvSocUpdate true s₁).toOption.any fun update =>
              uartRunAny p rest (history ++ events ++ update.1.map .print) update.2

theorem exists_of_uartRunAny {p : List UartEvent → RvCore w (RvSoc Devices) → Bool}
    {arrivals : List (Option Byte)} {history : List UartEvent} {s : RvCore w (RvSoc Devices)}
    (hrun : UartRun true history .instruction s) (h : uartRunAny p arrivals history s = true) :
    ∃ history' s', UartRun true history' .instruction s' ∧ p history' s' = true := by
  induction arrivals generalizing history s with
  | nil => exact ⟨history, s, hrun, h⟩
  | cons arrival rest ih =>
      cases arrival with
      | some x =>
          obtain ⟨devices, hdevices, h⟩ := Except.exists_of_any_toOption h
          exact ih (hrun.arrival hdevices) h
      | none =>
          obtain ⟨cb, d, hexec, h⟩ := exists_of_executesAny h
          obtain ⟨events, hevents, h⟩ := (Option.any_eq_true _ _).mp h
          obtain ⟨s₁, hcore, h⟩ := Except.exists_of_any_toOption h
          obtain ⟨⟨printed, s'⟩, hupdate, h⟩ := Except.exists_of_any_toOption h
          have hclear : ¬ ClearsFifo true s := fun hclear => Bool.noConfusion hclear.1
          exact ih ((hrun.instruction hclear (hexec.coreEvents hevents) hcore).updates hupdate) h

/-- `lui a5, 0x3000; lbu a0, 0(a5); sb a0, 0(a5)` -/
def echoFirmware : List Byte :=
  leBytes 4 0x030007B7 ++ leBytes 4 0x0007C503 ++ leBytes 4 0x00A78023

/-- The firmware above sends back the first byte that arrives. The second finds `rx_fifo`
full, and the third is still there at the end. -/
theorem uart_streams_echo :
    ∃ s : RvCore .rv64 (RvSoc Devices),
      UartRun true [.arrive 65 false, .arrive 66 true, .read 65 false, .arrive 67 false,
        .write 65, .print 65] .instruction s ∧
      s.priv.devices.txBytes true = [] ∧ s.priv.devices.rxBytes true = [67] := by
  have hcheck : ((rvSocInit .rv64 echoFirmware none none).toOption.any fun init =>
      uartRunAny (fun history _ => history == [.arrive 65 false, .arrive 66 true,
          .read 65 false, .arrive 67 false, .write 65, .print 65])
        (List.replicate 7 none ++ [some 65, some 66, none, some 67, none]) [] init) = true := by
    decide +kernel
  obtain ⟨init, hinit, hcheck⟩ := Except.exists_of_any_toOption hcheck
  obtain ⟨history, s, hrun, hhistory⟩ := exists_of_uartRunAny (.init hinit) hcheck
  obtain rfl := eq_of_beq hhistory
  obtain ⟨htx, hrx⟩ := uart_streams hrun
  exact ⟨s, hrun, List.append_cancel_left htx, List.append_cancel_left hrx⟩

end RiscvEm
