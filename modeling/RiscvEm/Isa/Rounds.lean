import RiscvEm.Core.Delivery
import RiscvEm.Isa.Flat
import RiscvEm.Isa.Refinement
import RiscvEm.Lib.Simulation
import RiscvEm.Soc.Progress

/-!
Programs of the instruction set on the whole system: with the interrupts masked, the rounds
of the main loop run through the states of the machine, whatever the devices do in between.
-/

namespace RiscvEm

variable {w : Xlen} {useSimpleUart : Bool} {A : AddressSpace w useSimpleUart}

/-! ### Masked interrupts -/

/-- Every interrupt that is enabled waits for a level whose xIE bits are clear. -/
def RvCore.Masked {σ : Type} (s : RvCore w σ) : Prop :=
  ∀ cause, (s.trap.reg .m .ie).getLsbD cause = true →
    ¬ XieBetween (s.trap.reg .m .status) s.currPrivMode (interruptTarget s.trap cause)

section Masked

variable {σ : Type} {s s' : RvCore w σ}

theorem RvCore.Masked.of_same (h : s.Masked) (hmode : s'.currPrivMode = s.currPrivMode)
    (htrap : ∀ l r, r ≠ .ip → s'.trap.reg l r = s.trap.reg l r) : s'.Masked := by
  intro cause hie
  have htarget : interruptTarget s'.trap cause = interruptTarget s.trap cause := by
    simp only [interruptTarget, htrap _ .ideleg (by decide)]
  rw [htrap _ _ (by decide)] at hie
  rw [htarget, htrap _ _ (by decide), hmode]
  exact h cause hie

/-- In machine mode it is enough that the enable bit of the level is clear. -/
theorem masked_machine (hmode : s.currPrivMode = .machine) (hmie : s.status.getLsbD 3 = false) :
    s.Masked := by
  intro cause _
  rintro ⟨k, hk, hlow, -, hbit⟩
  rw [hmode] at hlow
  have hmachine : PrivilegeLevel.machine.toInt = 3 := rfl
  obtain rfl : k = 3 := by omega
  rw [RvCore.status] at hmie
  rw [hmie] at hbit
  cases hbit

theorem RvCore.Masked.not_taken (h : s.Masked) (mei mti msi : Byte) (cause : Nat) :
    ¬ InterruptTaken (trapSetPendingBits s.trap mei mti msi) s.currPrivMode cause := by
  rintro ⟨-, hie, -, hxie⟩
  rw [trapSetPendingBits_reg _ _ _ _ _ (by decide)] at hie
  rw [trapSetPendingBits_reg _ _ _ _ _ (by decide), interruptTarget_setPendingBits] at hxie
  exact h cause hie hxie

end Masked

/-! ### Rounds -/

structure Hosts (A : AddressSpace w useSimpleUart) (m : IsaState w)
    (s : RvCore w (RvSoc Devices)) : Prop where
  represents : Represents A m s
  between : s.BetweenRounds

structure Emulates (A : AddressSpace w useSimpleUart) (m : IsaState w)
    (s : RvCore w (RvSoc Devices)) : Prop extends Hosts A m s where
  masked : s.Masked

/-- A step that the emulator makes: it fetches a whole register, and takes address zero for
no target. -/
def EmulatedStep (A : AddressSpace w useSimpleUart) (m m' : IsaState w) : Prop :=
  IsaStep A.grants m m' ∧ m.Present m.pc.toNat w.bytes ∧
    A.grants .instr m.pc.toNat w.bytes ∧ m'.pc ≠ 0

section Rounds

variable {m m' : IsaState w} {s : RvCore w (RvSoc Devices)}

theorem Hosts.of_devices (h : Hosts A m s) (devices : Devices) :
    Hosts A m { s with priv := { s.priv with devices := devices } } :=
  ⟨⟨h.represents.pc, h.represents.x,
      h.represents.mem_of_same (.of_status rfl rfl rfl rfl) rfl, h.represents.reservation⟩,
    h.between.legal, h.between.noTrap⟩

theorem Hosts.updateInterrupts (h : Hosts A m s) (mei mti msi : Byte) :
    Hosts A m (rvCoreUpdateInterrupts s mei mti msi) := by
  have hstatus : (rvCoreUpdateInterrupts s mei mti msi).status = s.status :=
    trapSetPendingBits_reg _ _ _ _ _ (by decide)
  exact ⟨⟨h.represents.pc, h.represents.x,
      h.represents.mem_of_same (.of_status rfl hstatus rfl rfl) rfl,
      h.represents.reservation⟩, h.between.legal, h.between.noTrap⟩

/-- The core where the interrupts of a round from `s` are processed, in which the call of
`rv_core_run` leaves `s₁`: the program has its step behind it, and the devices and the lines
are those of the update. -/
structure Stepped (A : AddressSpace w useSimpleUart) (m' : IsaState w)
    (s s₁ t : RvCore w (RvSoc Devices)) (mei mti msi : Byte) (printed : List Byte) : Prop where
  hosts : Hosts A m' t
  mode : t.currPrivMode = s₁.currPrivMode
  trap : t.trap = s₁.trap
  update : updateDevices useSimpleUart s₁.priv.devices =
    .ok (mei, mti, msi, printed, t.priv.devices)
  round : ∀ s', rvCoreProcessInterrupts mei mti msi t = .ok s' →
    rvSocRound useSimpleUart s = .ok (printed, s')

/-- A call that leaves the system with a program takes the round that far. -/
theorem Hosts.stepped {s₁ : RvCore w (RvSoc Devices)} (h : Hosts A m' s₁)
    (hrun : rvCoreRun (socBusAccess useSimpleUart) s = .ok s₁) :
    ∃ t mei mti msi printed, Stepped A m' s s₁ t mei mti msi printed := by
  obtain ⟨mei, mti, msi, printed, devices, hupdate⟩ :=
    exists_updateDevices useSimpleUart s₁.priv.devices
  exact ⟨_, mei, mti, msi, printed, h.of_devices devices, rfl, rfl, hupdate,
    fun s' hint => rvSocRound_of_run useSimpleUart hrun hupdate hint⟩

theorem Hosts.of_undisturbed (h : Hosts A m s) {s₁ : RvCore w (RvSoc Devices)}
    (hrep : Represents A m' s₁) (hquiet : Undisturbed s s₁) : Hosts A m' s₁ := by
  refine ⟨hrep, ?_, pendingTrap_eq_none.mpr ?_⟩
  · rw [hquiet.currPrivMode]
    exact h.between.legal
  · rw [hquiet.syncTrapPending]
    exact pendingTrap_eq_none.mp h.between.noTrap

theorem Hosts.round (h : Hosts A m s) (hstep : EmulatedStep A m m') :
    ∃ s₁ t mei mti msi printed, Undisturbed s s₁ ∧ Stepped A m' s s₁ t mei mti msi printed := by
  obtain ⟨hisa, hfetch, hgrant, hpc⟩ := hstep
  obtain ⟨s₁, hrun, hrep, hquiet⟩ := rvCoreRun_isaStep h.represents hfetch hgrant hisa hpc
  obtain ⟨t, mei, mti, msi, printed, ht⟩ := (h.of_undisturbed hrep hquiet).stepped hrun
  exact ⟨s₁, t, mei, mti, msi, printed, hquiet, ht⟩

theorem Hosts.arrival (h : Hosts A m s) (x : Byte) :
    ∃ devices, addRxChar useSimpleUart s.priv.devices x = .ok devices ∧
      (SocEvent.arrival x).exec useSimpleUart s =
        .ok ([], { s with priv := { s.priv with devices := devices } }) ∧
      Hosts A m { s with priv := { s.priv with devices := devices } } := by
  obtain ⟨devices, hdevices⟩ := exists_addRxChar useSimpleUart s.priv.devices x
  refine ⟨devices, hdevices, ?_, h.of_devices devices⟩
  rw [SocEvent.exec, hdevices]
  rfl

theorem Stepped.emulates {s₁ t : RvCore w (RvSoc Devices)} {mei mti msi : Byte}
    {printed : List Byte} (ht : Stepped A m' s s₁ t mei mti msi printed)
    (hquiet : Undisturbed s s₁) (hmasked : s.Masked) :
    ∃ s', rvSocRound useSimpleUart s = .ok (printed, s') ∧ Emulates A m' s' ∧
      s'.currPrivMode = s.currPrivMode := by
  have hmode : t.currPrivMode = s.currPrivMode := ht.mode.trans hquiet.currPrivMode
  have hmasked : t.Masked := hmasked.of_same hmode fun _ _ _ => by rw [ht.trap, hquiet.trap]
  have hint := rvCoreProcessInterrupts_none ht.hosts.between.legal
    (pendingTrap_eq_none.mp ht.hosts.between.noTrap) fun cause _ =>
      hmasked.not_taken mei mti msi cause
  refine ⟨_, ht.round _ hint, ⟨ht.hosts.updateInterrupts mei mti msi, ?_⟩, hmode⟩
  exact hmasked.of_same rfl fun _ _ hr => trapSetPendingBits_reg _ _ _ _ _ hr

theorem rvSocRound_emulates (h : Emulates A m s) (hstep : EmulatedStep A m m') :
    ∃ printed s', rvSocRound useSimpleUart s = .ok (printed, s') ∧ Emulates A m' s' ∧
      s'.currPrivMode = s.currPrivMode := by
  obtain ⟨s₁, t, mei, mti, msi, printed, hquiet, ht⟩ := h.toHosts.round hstep
  obtain ⟨s', hround, hs', hmode⟩ := ht.emulates hquiet h.masked
  exact ⟨printed, s', hround, hs', hmode⟩

theorem Emulates.arrival (h : Emulates A m s) (x : Byte) :
    ∃ s', (SocEvent.arrival x).exec useSimpleUart s = .ok ([], s') ∧ Emulates A m s' ∧
      s'.currPrivMode = s.currPrivMode ∧ s'.csrRegs = s.csrRegs := by
  obtain ⟨devices, -, hexec, hhosts⟩ := h.toHosts.arrival x
  exact ⟨_, hexec, ⟨hhosts, h.masked.of_same rfl fun _ _ _ => rfl⟩, rfl, rfl⟩

/-- The rounds follow the program, the arrivals do not touch it. -/
theorem emulates_follows (A : AddressSpace w useSimpleUart) :
    Simulation.Follows (SocEvent.exec useSimpleUart) (· == .round) (EmulatedStep A)
      (Emulates A) where
  step e m m' s he hstep h := by
    obtain rfl := eq_of_beq he
    obtain ⟨printed, s', hround, hs', -⟩ := rvSocRound_emulates h hstep
    exact ⟨printed, s', hround, hs'⟩
  silent e m s he h := by
    cases e with
    | round => cases he
    | arrival x =>
        obtain ⟨s', hexec, hs', -⟩ := h.arrival x
        exact ⟨[], s', hexec, hs'⟩

/-- A program of the instruction set that runs for `n` steps in an address space is run by
every `n` rounds of the main loop, whatever characters arrive between them and whatever the
devices do: the system ends with the program counter, the registers, the memory and the
reservation of the machine. -/
theorem program_refinement {events : List SocEvent} (hs : Emulates A m s)
    (hsteps : Simulation.StepsIn (EmulatedStep A) (events.countP (· == .round)) m m') :
    ∃ outs s', rvSocEvents useSimpleUart events s = .ok (outs, s') ∧ Emulates A m' s' :=
  (emulates_follows A).calls hsteps hs

end Rounds

/-- `auipc x1, 0` and `sw x1, 16(x1)` at the start of the RAM. -/
def storeProgram : RvCore .rv32 (RvSoc Devices) :=
  { rvCoreInit {
      ram := fun a => ([0x00000097, 0x0010A823].flatMap (leBytes 4)).getD a 0, devices := {} } with
    pc := 0x80000000 }

def storeMachine : IsaState .rv32 where
  pc := 0x80000000
  aligned := rfl
  x _ := 0
  zero := rfl
  mem := storeProgram.priv.byteAt
  reservation := none

theorem storeProgram_emulates : Emulates (flatSpace .rv32 false) storeMachine storeProgram where
  represents := ⟨rfl, rfl, ⟨flat_machine rfl rfl fun _ =>
    (by decide : checkBit (0 : Byte) pmpCfgLBit = false), rfl⟩, rfl⟩
  masked := masked_machine rfl rfl
  between := ⟨.inr (.inr rfl), rfl⟩

def storeMachine₁ : IsaState .rv32 := (storeMachine.setX 1 0x80000000).next

theorem storeMachine_steps : Simulation.StepsIn (EmulatedStep (flatSpace .rv32 false)) 2
    storeMachine (storeMachine₁.store 0x80000010 4 0x80000000).next := by
  have hauipc : Encodes .rv32 .auipc (.u 1 0) (storeMachine.word 4 0x80000000) := by
    have hmem : (ExecutionCb.auipc, 0x17#7) ∈ uTypeCodes := by decide
    exact Encodes.uType hmem 1 0
  have hsw : Encodes .rv32 .sw (.s 1 1 16) (storeMachine₁.word 4 0x80000004) := by
    have hmem : (ExecutionCb.sw, 2#3) ∈ sTypeCodes .rv32 := by decide
    exact Encodes.sType hmem 1 1 16
  exact ⟨storeMachine₁,
    ⟨⟨by decide, trivial, _, _, hauipc, .value rfl⟩, by decide, trivial, by decide⟩,
    _, ⟨⟨by decide, trivial, _, _, hsw, .store rfl (by decide) trivial⟩, by decide, trivial,
      by decide⟩, rfl⟩

theorem program_refinement_store : ∃ outs s',
    rvSocEvents false [.round, .arrival 65, .round] storeProgram = .ok (outs, s') ∧
      Emulates (flatSpace .rv32 false) (storeMachine₁.store 0x80000010 4 0x80000000).next s' :=
  program_refinement storeProgram_emulates storeMachine_steps

end RiscvEm
