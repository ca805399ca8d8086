import RiscvEm.Core.Delivery
import RiscvEm.HelperSpec
import RiscvEm.Soc.System

/-!
The machine pending bits at the end of a round of `rv_soc_run`, against the devices that
raise the lines.

`trap_set_pending_bits` looks at a line only while its interrupt is enabled.
-/

namespace RiscvEm

variable {w : Xlen}

/-! ### The trap registers after the interrupts -/

theorem servedTrap_reg (t : Trap w) (serving previous : PrivilegeLevel) (isInterrupt : Bool)
    (cause currPc tval : RvUintXlen w) {r : TrapReg} (hr : r = .ie ∨ r = .ip) :
    (servedTrap t serving previous isInterrupt cause currPc tval).reg .m r = t.reg .m r := by
  rcases hr with rfl | rfl
  · simp only [servedTrap, Trap.reg_setReg, reduceCtorEq, false_and, if_false]
  · simp only [servedTrap, Trap.reg_setReg, reduceCtorEq, false_and, if_false]

/-- Processing the interrupts updates the pending bits, and an entry leaves them. -/
theorem rvCoreProcessInterrupts_reg {σ : Type} {s s' : RvCore w σ} {mei mti msi : Byte}
    (h : rvCoreProcessInterrupts mei mti msi s = .ok s') {r : TrapReg}
    (hr : r = .ie ∨ r = .ip) :
    s'.trap.reg .m r = (trapSetPendingBits s.trap mei mti msi).reg .m r := by
  rcases rvCorePrepareInterrupts_cases h with
    ⟨-, serving, -, rfl⟩ | ⟨-, rfl | ⟨serving, cause, -, rfl⟩⟩
  · exact servedTrap_reg _ _ _ _ _ _ _ hr
  · rfl
  · exact servedTrap_reg _ _ _ _ _ _ _ hr

/-! ### The lines -/

theorem clintUpdate_mti (clint : Clint) :
    (clintUpdate clint).1.getLsbD 0 =
      decide ((clintUpdate clint).2.2.mtimecmp ≤ (clintUpdate clint).2.2.mtime) := by
  by_cases h : clint.mtimecmp ≤ clint.mtime + 1
  · simp only [clintUpdate, if_pos h, decide_eq_true h]
    rfl
  · simp only [clintUpdate, if_neg h, decide_eq_false h]
    rfl

theorem clintUpdate_msi (clint : Clint) :
    (clintUpdate clint).2.1.getLsbD 0 = (clintUpdate clint).2.2.msip.getLsbD 0 := by
  simp only [clintUpdate, BitVec.getLsbD_setWidth, BitVec.getLsbD_and]
  simp

/-! ### One round -/

/-- A pending bit after the round: that of its source while the interrupt is enabled, and
the one that the instruction has left otherwise. -/
def PendingFollows (s₁ s' : RvCore w (RvSoc Devices)) (cause : Nat) (source : Bool) : Prop :=
  (s'.trap.reg .m .ip).getLsbD cause =
    if (s'.trap.reg .m .ie).getLsbD cause then source
    else (s₁.trap.reg .m .ip).getLsbD cause

/-- At the end of every round the pending bits of the three machine interrupts that are
enabled are those of the timer, of the software interrupt register and of the result of
`plic_update`; those of the others are what the instruction of the round has left. -/
theorem pending_bits_of_round {useSimpleUart : Bool} {s s' : RvCore w (RvSoc Devices)}
    {printed : List Byte} (h : rvSocRound useSimpleUart s = .ok (printed, s')) :
    ∃ s₁ irq devices, rvCoreRun (socBusAccess useSimpleUart) s = .ok s₁ ∧
      uartUpdateOf useSimpleUart s₁.priv.devices = .ok (irq, printed, devices) ∧
      s'.trap.reg .m .ie = s₁.trap.reg .m .ie ∧
      PendingFollows s₁ s' trapCauseMachineTi
        (decide (s'.priv.devices.clint.mtimecmp ≤ s'.priv.devices.clint.mtime)) ∧
      PendingFollows s₁ s' trapCauseMachineSwi (s'.priv.devices.clint.msip.getLsbD 0) ∧
      PendingFollows s₁ s' trapCauseMachineExti
        ((plicUpdate (plicUpdatePending devices.plic 10 irq)).1.getLsbD 0) := by
  obtain ⟨s₁, hrun, h⟩ := Except.bind_eq_ok.mp h
  obtain ⟨⟨mei, mti, msi, printed', devices'⟩, hdevices, h⟩ := Except.bind_eq_ok.mp h
  obtain ⟨s₂, hint, h⟩ := Except.bind_eq_ok.mp h
  obtain ⟨rfl, rfl⟩ := Prod.mk.inj (Except.ok.inj h)
  obtain ⟨⟨irq, bytes, devices⟩, huart, hlines⟩ :=
    Except.bind_eq_ok.mp (liftM_eq_ok.mp hdevices)
  simp only [Except.pure_eq_ok, Except.ok.injEq, Prod.mk.injEq] at hlines
  obtain ⟨rfl, rfl, rfl, rfl, rfl⟩ := hlines
  have hclint : s₂.priv.devices.clint = (clintUpdate devices.clint).2.2 := by
    rw [rvCoreProcessInterrupts_frame hint]
  have hie := rvCoreProcessInterrupts_reg hint (.inl rfl)
  rw [trapSetPendingBits_reg _ _ _ _ _ (by decide)] at hie
  have hip := rvCoreProcessInterrupts_reg hint (.inr rfl)
  -- one argument for the three lines
  have hfollows {cause : Nat} {line : Byte} (hline : interruptLine
      (plicUpdate (plicUpdatePending devices.plic 10 irq)).1 (clintUpdate devices.clint).1
      (clintUpdate devices.clint).2.1 cause = some line) :
      PendingFollows s₁ s₂ cause (line.getLsbD 0) := by
    rw [PendingFollows, hip, hie]
    cases hbit : (s₁.trap.reg .m .ie).getLsbD cause with
    | true => exact getLsbD_trapSetPendingBits hline hbit
    | false => exact getLsbD_trapSetPendingBits_of_disabled _ _ _ hbit
  refine ⟨s₁, irq, devices, hrun, huart, hie, ?_, ?_, ?_⟩
  · rw [hclint, ← clintUpdate_mti]
    exact hfollows rfl
  · rw [hclint, ← clintUpdate_msi]
    exact hfollows rfl
  · exact hfollows rfl

/-- `li t1, -1912; csrw mie, t1; lui t0, 0x2000; li t2, 1; sw t2, 0(t0)` -/
def linesFirmware : List Byte :=
  leBytes 4 0x88800313 ++ leBytes 4 0x30431073 ++ leBytes 4 0x020002B7 ++
    leBytes 4 0x00100393 ++ leBytes 4 0x0072A023

/-- The firmware above enables the three machine interrupts and raises the software
interrupt. With the round of its store that bit follows, and that of the timer, which has
passed its comparator, is set as well. -/
theorem pending_bits_of_store_round :
    ∃ (s s' : RvCore .rv32 (RvSoc Devices)) (printed : List Byte), SocReachable true s ∧
      rvSocRound true s = .ok (printed, s') ∧ s'.trap.reg .m .ie = 0x888 ∧
      (s.trap.reg .m .ip).getLsbD trapCauseMachineSwi = false ∧
      (s'.trap.reg .m .ip).getLsbD trapCauseMachineSwi = true ∧
      (s'.trap.reg .m .ip).getLsbD trapCauseMachineTi = true := by
  have hcheck : ((rvSocInit .rv32 linesFirmware none none).toOption.any fun init =>
      (rvSocRounds true 10 init).toOption.any fun s =>
        s.trap.reg .m .ip == 0x80 && (rvSocRound true s).toOption.any fun r =>
          r.2.trap.reg .m .ie == 0x888 && r.2.priv.devices.clint == ⟨1, 0, 11⟩) = true := by
    decide +kernel
  obtain ⟨init, hinit, hrounds⟩ := Except.exists_of_any_toOption hcheck
  obtain ⟨s, hrounds, hs⟩ := Except.exists_of_any_toOption hrounds
  obtain ⟨hip, hround⟩ := Bool.and_eq_true_iff.mp hs
  obtain ⟨⟨printed, s'⟩, hround, hs'⟩ := Except.exists_of_any_toOption hround
  rw [Bool.and_eq_true, beq_iff_eq, beq_iff_eq] at hs'
  obtain ⟨hie, hclint⟩ := hs'
  obtain ⟨s₁, irq, devices, -, -, -, htimer, hsoftware, -⟩ := pending_bits_of_round hround
  rw [PendingFollows, hie, hclint] at htimer hsoftware
  have hbefore : (s.trap.reg .m .ip).getLsbD trapCauseMachineSwi = false := by
    rw [eq_of_beq hip]
    decide
  exact ⟨s, s', printed, ⟨init, ⟨_, _, _, hinit⟩, rvSocRounds_reaches hrounds⟩, hround, hie,
    hbefore, hsoftware, htimer⟩

theorem exists_first_round :
    ∃ (s s' : RvCore .rv32 (RvSoc Devices)) (printed : List Byte), SocReachable true s ∧
      rvSocRound true s = .ok (printed, s') ∧ s'.priv.devices.clint = ⟨0, 0, 1⟩ ∧
      s'.trap.reg .m .ip = 0 := by
  have hcheck : ((rvSocInit .rv32 [] none none).toOption.any fun init =>
      (rvSocRound true init).toOption.any fun r =>
        r.2.priv.devices.clint == ⟨0, 0, 1⟩ && r.2.trap.reg .m .ip == 0) = true := by
    decide
  obtain ⟨s, hinit, hs⟩ := Except.exists_of_any_toOption hcheck
  obtain ⟨⟨printed, s'⟩, hround, hs'⟩ := Except.exists_of_any_toOption hs
  rw [Bool.and_eq_true, beq_iff_eq, beq_iff_eq] at hs'
  exact ⟨s, s', printed, .of_init ⟨_, _, _, hinit⟩, hround, hs'.1, hs'.2⟩

/-- After the first round the timer has passed its comparator, but its interrupt is not
enabled and not pending. -/
theorem timer_not_pending :
    ¬ ∀ (useSimpleUart : Bool) (s s' : RvCore .rv32 (RvSoc Devices)) (printed : List Byte),
      SocReachable useSimpleUart s → rvSocRound useSimpleUart s = .ok (printed, s') →
        ((s'.trap.reg .m .ip).getLsbD trapCauseMachineTi = true ↔
          s'.priv.devices.clint.mtimecmp ≤ s'.priv.devices.clint.mtime) := by
  intro h
  obtain ⟨s, s', printed, hreach, hround, hclint, hip⟩ := exists_first_round
  have hiff := h true s s' printed hreach hround
  rw [hclint, hip] at hiff
  exact absurd hiff (by decide)

end RiscvEm
