import RiscvEm.Devices.PlicSelect
import RiscvEm.Devices.UartRuns
import RiscvEm.Isa.Preempt
import RiscvEm.Soc.UartStreams

/-!
A character that arrives and the program: the UART raises its line, the interrupt controller
reports the UART, and the program is interrupted in the first round after the arrival.
-/

namespace RiscvEm

variable {w : Xlen} {useSimpleUart : Bool} {A : AddressSpace w useSimpleUart}

/-! ### The interrupt controller -/

namespace Plic

/-- Only the UART is enabled, it is not claimed, and its priority reaches the threshold. -/
structure OnlyUart (plic : Plic) : Prop where
  only : ∀ i j, checkBit (plic.enableBits i) j = true → i = 0 ∧ j = 10
  enabled : checkBit (plic.enableBits 0) 10 = true
  unclaimed : checkBit (plic.claimedBits 0) 10 = false
  priority : plic.priorityThreshold ≤ plic.priority 10

variable {plic : Plic}

/-- Nothing but the UART is looked at, under its own number. -/
theorem OnlyUart.numbered_iff (h : plic.OnlyUart) (m : Nat) :
    plic.Numbered m ↔ m = 10 ∧ checkBit (plic.pendingBits 0) 10 = true := by
  have hcount : plic.countBefore 0 = 0 := rfl
  constructor
  · rintro ⟨i, j, hj, ⟨⟨henable, hpending, -⟩, -⟩, rfl⟩
    obtain ⟨rfl, rfl⟩ := h.only i j henable
    exact ⟨by rw [Fin.val_zero, hcount], hpending⟩
  · rintro ⟨rfl, hpending⟩
    exact ⟨0, 10, by decide, ⟨⟨h.enabled, hpending, h.unclaimed⟩, h.priority⟩, rfl⟩

theorem OnlyUart.of_plicUpdate (h : plic.OnlyUart) : (plicUpdate plic).2.OnlyUart := by
  rw [plicUpdate]
  by_cases hpos : 0 < (plicScan plic).irqToTrigger
  · simp only [if_pos hpos]
    exact ⟨h.only, h.enabled, h.unclaimed, h.priority⟩
  · simp only [if_neg hpos]
    exact ⟨h.only, h.enabled, h.unclaimed, h.priority⟩

/-- The controller reports the UART just when its line is high. -/
theorem OnlyUart.update (h : plic.OnlyUart) (pending : Byte) :
    (plicUpdate (plicUpdatePending plic 10 pending)).1.getLsbD 0 = pending.getLsbD 0 ∧
      (pending.getLsbD 0 = true →
        (plicUpdate (plicUpdatePending plic 10 pending)).2.claimComplete = 10) ∧
      (plicUpdate (plicUpdatePending plic 10 pending)).2.OnlyUart := by
  have hpending : (plicUpdatePending plic 10 pending).OnlyUart :=
    ⟨h.only, h.enabled, h.unclaimed, h.priority⟩
  have hbit : checkBit ((plicUpdatePending plic 10 pending).pendingBits 0) 10 =
      pending.getLsbD 0 := by
    rw [← sourceBit_eq _ 0 (by decide : 10 < 32)]
    exact (sourceBit_assign _ _ _ _).trans (if_pos rfl)
  have hnumbered := hpending.numbered_iff
  rw [hbit] at hnumbered
  obtain ⟨hreport, hnothing⟩ := plicUpdate_iff (plicUpdatePending plic 10 pending)
  rcases plicScan_chosen (plicUpdatePending plic 10 pending) with ⟨hnone, hzero⟩ | hchosen
  · have hlow : pending.getLsbD 0 = false := by
      rw [← Bool.not_eq_true]
      exact fun hhigh => hnone 10 ((hnumbered 10).mpr ⟨rfl, hhigh⟩)
    rw [(hnothing.mpr hzero).1, hlow]
    exact ⟨rfl, fun hhigh => absurd hhigh (by decide), hpending.of_plicUpdate⟩
  · obtain ⟨hid, hhigh⟩ := (hnumbered _).mp hchosen.mem
    obtain ⟨hline, hclaim⟩ := (hreport 10 (by decide)).mpr hid
    rw [hline, hhigh]
    exact ⟨rfl, fun _ => BitVec.eq_of_toNat_eq hclaim, hpending.of_plicUpdate⟩

end Plic

/-! ### The UART -/

/-- The UART interrupts for what it receives and for nothing else, and no one has looked
since the bytes of the queue arrived. -/
structure UartNs8250.Listens (uart : UartNs8250) (rxq : List Byte) : Prop where
  holds : ∃ txq, uart.Holds txq rxq
  rxEnabled : uart.irqEnabledRxDataAvailable = true
  txDisabled : uart.irqEnabledTxHoldingRegEmpty = false
  level : uart.rxIrqFifoLevel ≠ 0
  lsrChange : uart.lsrChange = !rxq.isEmpty

structure SimpleUart.Listens (uart : SimpleUart) (rxq : List Byte) : Prop where
  holds : ∃ txq, uart.Holds txq rxq
  rxEnabled : uart.rxIrqEnabled = true
  txDisabled : uart.txIrqEnabled = false

section Uart

variable {rxq : List Byte} {irq x : Byte} {printed : List Byte}

theorem UartNs8250.Listens.isSome_irqCause {uart : UartNs8250} (h : uart.Listens rxq) :
    uart.irqCause.isSome = !rxq.isEmpty := by
  obtain ⟨txq, hholds⟩ := h.holds
  rw [irqCause, h.rxEnabled, h.txDisabled, h.lsrChange, Bool.or_true, Bool.true_and,
    Bool.true_and, Bool.false_and, Bool.false_and]
  cases rxq with
  | nil =>
      -- an empty FIFO does not reach the level
      have hlen : uart.rxFifo.len.toNat = 0 := (hholds.rx.reports (by decide)).len
      have hlevel : ¬ uart.rxIrqFifoLevel.setWidth 32 ≤ uart.rxFifo.len := by
        have hpos := BitVec.toNat_ne_iff_ne.mpr h.level
        rw [BitVec.le_def, BitVec.toNat_setWidth, hlen]
        have hlt := uart.rxIrqFifoLevel.isLt
        rw [Nat.mod_eq_of_lt (by omega)]
        exact fun hle => hpos (Nat.le_zero.mp hle)
      rw [decide_eq_false hlevel]
      rfl
  | cons y rest => rfl

theorem uartUpdate_listens {uart uart' : UartNs8250} (h : uart.Listens rxq)
    (hupdate : uartUpdate uart = .ok (irq, printed, uart')) :
    irq.getLsbD 0 = !rxq.isEmpty ∧ uart'.Listens rxq := by
  obtain ⟨txq, hholds⟩ := h.holds
  obtain ⟨txq', hholds', -⟩ := uartUpdate_flow hholds hupdate
  obtain ⟨txFifo, currIirId, -, rfl, hirq, -⟩ := uartUpdate_eq_ok hupdate
  have hlistens : UartNs8250.Listens _ rxq :=
    ⟨⟨txq', hholds'⟩, h.rxEnabled, h.txDisabled, h.level, h.lsrChange⟩
  refine ⟨?_, hlistens⟩
  rw [hirq, hlistens.isSome_irqCause]
  cases rxq.isEmpty <;> rfl

theorem uartAddRxChar_listens {uart uart' : UartNs8250} (h : uart.Listens [])
    (harrival : uartAddRxChar uart x = .ok uart') : uart'.Listens [x] := by
  obtain ⟨txq, hholds⟩ := h.holds
  obtain ⟨⟨n, rxFifo⟩, hin, hrest⟩ := Except.bind_eq_ok.mp harrival
  obtain rfl := Except.ok.inj hrest
  obtain ⟨rxq, hrx, hflow⟩ := fifoIn_flow_of_room (by decide) hholds.rx (by decide) hin
  obtain rfl : [x] = rxq := hflow
  exact ⟨⟨txq, hholds.tx, hrx⟩, h.rxEnabled, h.txDisabled, h.level, rfl⟩

theorem simpleUartUpdate_listens {uart uart' : SimpleUart} (h : uart.Listens rxq)
    (hupdate : simpleUartUpdate uart = .ok (irq, printed, uart')) :
    irq.getLsbD 0 = !rxq.isEmpty ∧ uart'.Listens rxq := by
  obtain ⟨txq, hholds⟩ := h.holds
  obtain ⟨txq', hholds', -⟩ := simpleUartUpdate_flow hholds hupdate
  obtain ⟨⟨printed', txFifo⟩, hflush, hrest⟩ := Except.bind_eq_ok.mp hupdate
  have hfull : uart.rxFifo.isFull = !rxq.isEmpty := by
    have hle := hholds.rx.length_le
    have hreports : uart.rxFifo.isFull = decide (rxq.length = 2 ^ 0) :=
      (hholds.rx.reports (by decide)).isFull
    rw [hreports]
    cases rxq with
    | nil => rfl
    | cons y rest =>
        refine decide_eq_true ?_
        rw [List.length_cons] at hle ⊢
        omega
  have hlistens (hrx : uart'.rxIrqEnabled = uart.rxIrqEnabled)
      (htx : uart'.txIrqEnabled = uart.txIrqEnabled) : uart'.Listens rxq :=
    ⟨⟨txq', hholds'⟩, hrx.trans h.rxEnabled, htx.trans h.txDisabled⟩
  simp only [h.rxEnabled, h.txDisabled, hfull, Bool.true_and, Bool.false_and] at hrest
  cases hempty : rxq.isEmpty with
  | true =>
      rw [hempty] at hrest
      obtain ⟨rfl, hpair⟩ := Prod.mk.inj (Except.ok.inj hrest)
      obtain ⟨-, rfl⟩ := Prod.mk.inj hpair
      exact ⟨rfl, hlistens h.rxEnabled.symm h.txDisabled.symm⟩
  | false =>
      rw [hempty] at hrest
      obtain ⟨rfl, hpair⟩ := Prod.mk.inj (Except.ok.inj hrest)
      obtain ⟨-, rfl⟩ := Prod.mk.inj hpair
      exact ⟨rfl, hlistens h.rxEnabled.symm h.txDisabled.symm⟩

theorem simpleUartAddRxChar_listens {uart uart' : SimpleUart} (h : uart.Listens [])
    (harrival : simpleUartAddRxChar uart x = .ok uart') : uart'.Listens [x] := by
  obtain ⟨txq, hholds⟩ := h.holds
  obtain ⟨⟨n, rxFifo⟩, hin, hrest⟩ := Except.bind_eq_ok.mp harrival
  obtain rfl := Except.ok.inj hrest
  obtain ⟨rxq, hrx, hflow⟩ := fifoIn_flow_of_room (by decide) hholds.rx (by decide) hin
  obtain rfl : [x] = rxq := hflow
  exact ⟨⟨txq, hholds.tx, hrx⟩, h.rxEnabled, h.txDisabled⟩

end Uart

/-! ### The devices -/

structure Devices.Listens (useSimpleUart : Bool) (devices : Devices) (rxq : List Byte) : Prop where
  uart : if useSimpleUart then devices.uart.Listens rxq else devices.uart8250.Listens rxq
  plic : devices.plic.OnlyUart

section Devices

variable {devices devices' : Devices} {rxq : List Byte} {mei mti msi x : Byte}
  {printed : List Byte}

theorem Devices.Listens.rxBytes (h : devices.Listens useSimpleUart rxq) :
    devices.rxBytes useSimpleUart = rxq := by
  cases useSimpleUart with
  | true =>
      obtain ⟨txq, hholds⟩ := SimpleUart.Listens.holds h.uart
      have hqueues : devices.UartHolds true txq rxq := hholds
      exact hqueues.bytes_eq.2
  | false =>
      obtain ⟨txq, hholds⟩ := UartNs8250.Listens.holds h.uart
      have hqueues : devices.UartHolds false txq rxq := hholds
      exact hqueues.bytes_eq.2

theorem uartUpdateOf_listens {irq : Byte} (h : devices.Listens useSimpleUart rxq)
    (hupdate : uartUpdateOf useSimpleUart devices = .ok (irq, printed, devices')) :
    irq.getLsbD 0 = !rxq.isEmpty ∧ devices'.Listens useSimpleUart rxq := by
  cases useSimpleUart with
  | true =>
      obtain ⟨⟨irq', printed', uart⟩, huart, hrest⟩ := Except.bind_eq_ok.mp hupdate
      obtain ⟨rfl, hpair⟩ := Prod.mk.inj (Except.ok.inj hrest)
      obtain ⟨-, rfl⟩ := Prod.mk.inj hpair
      obtain ⟨hirq, hlistens⟩ := simpleUartUpdate_listens h.uart huart
      exact ⟨hirq, hlistens, h.plic⟩
  | false =>
      obtain ⟨⟨irq', printed', uart⟩, huart, hrest⟩ := Except.bind_eq_ok.mp hupdate
      obtain ⟨rfl, hpair⟩ := Prod.mk.inj (Except.ok.inj hrest)
      obtain ⟨-, rfl⟩ := Prod.mk.inj hpair
      obtain ⟨hirq, hlistens⟩ := uartUpdate_listens h.uart huart
      exact ⟨hirq, hlistens, h.plic⟩

/-- The external line is high just while bytes wait in the UART, and the claim register
then holds the number of the UART. -/
theorem updateDevices_listens (h : devices.Listens useSimpleUart rxq)
    (hupdate : updateDevices useSimpleUart devices = .ok (mei, mti, msi, printed, devices')) :
    mei.getLsbD 0 = !rxq.isEmpty ∧ devices'.Listens useSimpleUart rxq ∧
      (rxq ≠ [] → devices'.plic.claimComplete = 10) := by
  obtain ⟨⟨irq, printed', updated⟩, huart, hrest⟩ := Except.bind_eq_ok.mp hupdate
  obtain ⟨hirq, hlistens⟩ := uartUpdateOf_listens h huart
  obtain ⟨hline, hclaim, honly⟩ := hlistens.plic.update irq
  simp only [Except.pure_eq_ok, Except.ok.injEq, Prod.mk.injEq] at hrest
  obtain ⟨rfl, -, -, -, rfl⟩ := hrest
  refine ⟨hline.trans hirq, ⟨hlistens.uart, honly⟩, fun hne => hclaim ?_⟩
  rw [hirq]
  cases rxq with
  | nil => exact absurd rfl hne
  | cons y rest => rfl

theorem addRxChar_listens (h : devices.Listens useSimpleUart [])
    (harrival : addRxChar useSimpleUart devices x = .ok devices') :
    devices'.Listens useSimpleUart [x] := by
  cases useSimpleUart with
  | true =>
      obtain ⟨uart, huart, hrest⟩ := Except.bind_eq_ok.mp harrival
      obtain rfl := Except.ok.inj hrest
      exact ⟨simpleUartAddRxChar_listens h.uart huart, h.plic⟩
  | false =>
      obtain ⟨uart, huart, hrest⟩ := Except.bind_eq_ok.mp harrival
      obtain rfl := Except.ok.inj hrest
      exact ⟨uartAddRxChar_listens h.uart huart, h.plic⟩

end Devices

/-! ### Preemption -/

/-- The program runs as it did in `s₀`, and nothing has arrived. -/
structure Waits (A : AddressSpace w useSimpleUart) (cause : Nat)
    (s₀ : RvCore w (RvSoc Devices)) (m : IsaState w) (s : RvCore w (RvSoc Devices)) : Prop where
  hosts : Hosts A m s
  sameTraps : SameTraps (interruptTarget s₀.trap cause) s₀ s
  listens : s.priv.devices.Listens useSimpleUart []

section Preemption

variable {m m' : IsaState w} {s₀ s s₁ t : RvCore w (RvSoc Devices)} {cause : Nat}

theorem interruptLine_external (hcause : cause = trapCauseSuperExti ∨ cause = trapCauseMachineExti)
    (mei mti msi : Byte) : interruptLine mei mti msi cause = some mei := by
  rcases hcause with rfl | rfl
  · rfl
  · rfl

theorem Stepped.listens {mei mti msi : Byte} {printed rxq : List Byte}
    (ht : Stepped A m' s s₁ t mei mti msi printed) (hquiet : Undisturbed s s₁)
    (hlistens : s.priv.devices.Listens useSimpleUart rxq) :
    mei.getLsbD 0 = !rxq.isEmpty ∧ t.priv.devices.Listens useSimpleUart rxq ∧
      (rxq ≠ [] → t.priv.devices.plic.claimComplete = 10) := by
  have hupdate := ht.update
  rw [hquiet.devices] at hupdate
  exact updateDevices_listens hlistens hupdate

theorem Waits.round (h : Waits A cause s₀ m s) (h₀ : s₀.Preemptible cause)
    (hcause : cause = trapCauseSuperExti ∨ cause = trapCauseMachineExti)
    (hstep : EmulatedStep A m m') :
    ∃ printed s', rvSocRound useSimpleUart s = .ok (printed, s') ∧ Waits A cause s₀ m' s' := by
  obtain ⟨s₁, t, mei, mti, msi, printed, hquiet, ht⟩ := h.hosts.round hstep
  obtain ⟨hmei, hlistens, -⟩ := ht.listens hquiet h.listens
  have hsame := h.sameTraps.trans (.of_trap hquiet.currPrivMode fun _ _ _ => by rw [hquiet.trap])
  obtain ⟨s', hround, hhosts, hsame', hpriv⟩ :=
    ht.continues hsame h₀ (interruptLine_external hcause mei mti msi) hmei
  refine ⟨printed, s', hround, hhosts, hsame', ?_⟩
  rw [hpriv]
  exact hlistens

theorem Waits.rounds {n : Nat} (h : Waits A cause s₀ m s) (h₀ : s₀.Preemptible cause)
    (hcause : cause = trapCauseSuperExti ∨ cause = trapCauseMachineExti)
    (hsteps : Simulation.StepsIn (EmulatedStep A) n m m') :
    ∃ outs s', rvSocEvents useSimpleUart (.replicate n .round) s = .ok (outs, s') ∧
      Waits A cause s₀ m' s' := by
  induction n generalizing m s with
  | zero =>
      obtain rfl : m = m' := hsteps
      exact ⟨[], s, rfl, h⟩
  | succ n ih =>
      obtain ⟨m₁, hstep, hrest⟩ := hsteps
      obtain ⟨printed, s₁, hround, h₁⟩ := h.round h₀ hcause hstep
      obtain ⟨outs, s', hcalls, h'⟩ := ih h₁ hrest
      exact ⟨printed :: outs, s',
        Simulation.calls_cons_eq_ok.mpr ⟨printed, s₁, outs, hround, hcalls, rfl⟩, h'⟩

/-- A program that waits for a character is interrupted in the first round after one arrives,
and in none before: it has then made one step in each round, the claim register holds the
number of the UART, and the character waits in its FIFO. -/
theorem arrival_preempts {n : Nat} {x : Byte} (hs : Hosts A m s)
    (hpreemptible : s.Preemptible cause)
    (hcause : cause = trapCauseSuperExti ∨ cause = trapCauseMachineExti)
    (hlistens : s.priv.devices.Listens useSimpleUart [])
    (hsteps : Simulation.StepsIn (EmulatedStep A) (n + 1) m m') :
    ∃ outs s', rvSocEvents useSimpleUart (.replicate n .round ++ [.arrival x] ++ [.round]) s =
        .ok (outs, s') ∧
      Preempted A cause m' s s' ∧ s'.priv.devices.plic.claimComplete = 10 ∧
      s'.priv.devices.rxBytes useSimpleUart = [x] := by
  obtain ⟨m₁, hbefore, hlast⟩ := hsteps.last
  obtain ⟨outs, s₁, hcalls, hwaits⟩ :=
    Waits.rounds ⟨hs, .refl _ s, hlistens⟩ hpreemptible hcause hbefore
  obtain ⟨devices, hadd, hexec, hhosts⟩ := hwaits.hosts.arrival x
  have hreceived := addRxChar_listens hwaits.listens hadd
  obtain ⟨s₂, t, mei, mti, msi, printed, hquiet, ht⟩ := hhosts.round hlast
  obtain ⟨hmei, hlistens', hclaim⟩ := ht.listens hquiet hreceived
  have hsame := hwaits.sameTraps.trans
    (.of_trap hquiet.currPrivMode fun _ _ _ => by rw [hquiet.trap])
  obtain ⟨s', hround, hpreempted, hpriv⟩ :=
    ht.preempted hsame hpreemptible (interruptLine_external hcause mei mti msi) hmei
  refine ⟨_, s', Simulation.calls_concat (Simulation.calls_concat hcalls hexec) hround,
    hpreempted, ?_, ?_⟩
  · rw [hpriv]
    exact hclaim (List.cons_ne_nil x [])
  · rw [hpriv]
    exact hlistens'.rxBytes

end Preemption

/-- The two instructions with the 8250 listening, and `mtvec` at 0x80000100. -/
def listeningProgram : RvCore .rv32 (RvSoc Devices) :=
  { storeProgram with
    trap := ((storeProgram.trap.setReg .m .status 0x8).setReg .m .ie 0x800).setReg .m .tvec
      0x80000100
    priv := { storeProgram.priv with
      devices := {
        plic := { enableBits := Function.update (fun _ => 0) 0 0x400 }
        uart8250 := { irqEnabledRxDataAvailable := true } } } }

theorem listeningProgram_hosts :
    Hosts (flatSpace .rv32 false) storeMachine listeningProgram where
  represents := ⟨rfl, rfl, ⟨flat_machine rfl rfl fun _ =>
    (by decide : checkBit (0 : Byte) pmpCfgLBit = false), rfl⟩, rfl⟩
  between := ⟨.inr (.inr rfl), rfl⟩

theorem listeningProgram_preemptible : listeningProgram.Preemptible trapCauseMachineExti where
  only := by
    have hbits : ∀ i < 32, (0x800#32).getLsbD i = true → i = trapCauseMachineExti := by decide
    exact fun cause hie => hbits cause (BitVec.lt_of_getLsbD hie) hie
  enabled := by decide
  notUser := by decide
  xie := by decide
  mprvClear := rfl

theorem listeningProgram_listens : listeningProgram.priv.devices.Listens false [] where
  uart := UartNs8250.Listens.mk ⟨[], .empty _, .empty _⟩ rfl rfl (by decide) rfl
  plic := by
    refine ⟨fun i j henable => ?_, by decide, by decide, by decide⟩
    have hbits : ∀ j < 32, (0x400#32).getLsbD j = true → j = 10 := by decide
    by_cases hi : i = 0
    · subst hi
      rw [checkBit_eq_getLsbD] at henable
      exact ⟨rfl, hbits j (BitVec.lt_of_getLsbD henable) henable⟩
    · have hzero : listeningProgram.priv.devices.plic.enableBits i = 0 := by
        show Function.update (fun _ : Fin nrEnableRegs => (0 : BitVec 32)) 0 0x400 i = 0
        rw [Function.update_of_ne hi]
      rw [hzero, Plic.checkBit_zero_word] at henable
      cases henable

theorem arrival_preempts_store : ∃ outs s',
    rvSocEvents false (.replicate 1 .round ++ [.arrival 65] ++ [.round]) listeningProgram =
        .ok (outs, s') ∧
      Preempted (flatSpace .rv32 false) trapCauseMachineExti
        (storeMachine₁.store 0x80000010 4 0x80000000).next listeningProgram s' ∧
      s'.priv.devices.plic.claimComplete = 10 ∧ s'.priv.devices.rxBytes false = [65] :=
  arrival_preempts listeningProgram_hosts listeningProgram_preemptible (.inr rfl)
    listeningProgram_listens storeMachine_steps

end RiscvEm
