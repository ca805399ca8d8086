import RiscvEm.Core.Reach

/-!
The levels of the return instructions.

`trap_restore_irq_settings` goes by the current mode and the address of the return by the
instruction, so that the two agree only where an instruction is executed at its own level.
-/

namespace RiscvEm

variable {w : Xlen} {σ : Type}

/-! ### The rule -/

inductive ReturnBelow : ExecutionCb → PrivilegeLevel → Prop
  | mret {mode : PrivilegeLevel} (h : mode < .machine) : ReturnBelow .mret mode
  | sret {mode : PrivilegeLevel} (h : mode = .user) : ReturnBelow .sret mode

/-- A return instruction is executed at a mode that may return with it, from the level
that the instruction belongs to. -/
inductive ReturnFrom : ExecutionCb → PrivilegeLevel → PrivilegeLevel → Prop
  | mret {mode : PrivilegeLevel} (h : mode = .machine) : ReturnFrom .mret mode .machine
  | sret {mode : PrivilegeLevel} (h : mode = .supervisor ∨ mode = .machine) :
      ReturnFrom .sret mode .supervisor

def previousMode (status : RvUintXlen w) : PrivilegeLevel → PrivilegeLevel
  | .machine =>
      .ofBits (status.getLsbD (trapXstatusMppBit + 1)) (status.getLsbD trapXstatusMppBit)
  | .supervisor => .ofBits false (status.getLsbD trapXstatusSppBit)
  | _ => .user

structure ReturnRefused (s s' : RvCore w σ) : Prop where
  pendingTrap : ∃ tval, s'.pendingTrap = some (BitVec.ofNat w.bits trapCauseIllegalInstr, tval)
  status : s'.status = s.status
  mode : s'.currPrivMode = s.currPrivMode
  pc : s'.pc = s.pc + 4

structure ReturnedFrom (level : PrivilegeLevel) (s s' : RvCore w σ) : Prop where
  mode : s'.currPrivMode = previousMode s.status level
  enable : s'.status.getLsbD level.toInt.toNat =
    s.status.getLsbD (trapXstatusUpieBit + level.toInt.toNat)
  pc : s'.pc = s.trap.reg level.trapLevel .epc

structure ReturnRule (busAccess : BusAccessFunc w σ) (s : RvCore w σ) : Prop where
  below : ∀ cb d, Executes busAccess s cb d → ReturnBelow cb s.currPrivMode →
    ∃ s', rvCoreRun busAccess s = .ok s' ∧ ReturnRefused s s'
  from_level : ∀ cb d level, Executes busAccess s cb d → ReturnFrom cb s.currPrivMode level →
    ∃ s', rvCoreRun busAccess s = .ok s' ∧ ReturnedFrom level s s'

/-! ### What a return instruction does -/

structure Returned (level : TrapLevel) (s s' : RvCore w σ) : Prop where
  status : s'.status = restoredStatus s.status s.currPrivMode
  mode : s'.currPrivMode = restoredMode s.status s.currPrivMode
  pc : s'.pc = if s.trap.reg level .epc ≠ 0 then s.trap.reg level .epc else s.pc + 4
  pendingTrap : s'.pendingTrap = s.pendingTrap

theorem Executes.pendingTrap_eq {busAccess : BusAccessFunc w σ} {s d : RvCore w σ}
    {cb : ExecutionCb} (h : Executes busAccess s cb d) : d.pendingTrap = s.pendingTrap := by
  cases hs : s.pendingTrap with
  | none => exact h.pendingTrap hs
  | some t =>
      obtain ⟨f, hfetch, hdecode, -⟩ := h
      obtain ⟨bytes, s₁, haccess, rfl⟩ := rvCoreFetch_eq_ok.mp hfetch
      have hs₁ : s₁.pendingTrap = some t :=
        mmuCheckedBusAccess_pendingTrap_of_some (s := s.atFetch) hs haccess
      rw [rvCoreDecode_frame hdecode]
      exact (storeInstruction_pendingTrap s₁ bytes).trans hs₁

/-- A call with a return instruction returns at the legal modes. -/
theorem Executes.returned {busAccess : BusAccessFunc w σ} {s d : RvCore w σ} {cb : ExecutionCb}
    {level : TrapLevel} (hexec : Executes busAccess s cb d) (hcb : cb.kind = .xret level)
    (hs : s.currPrivMode.Legal) :
    ∃ s', rvCoreRun busAccess s = .ok s' ∧ Returned level s s' := by
  have hmode : d.currPrivMode = s.currPrivMode := by rw [hexec.frame]
  have htrap : d.trap = s.trap := by rw [hexec.frame]
  have hstatus : d.status = s.status := by rw [hexec.frame]
  have hpc : d.pc = s.pc := by rw [hexec.frame]
  have hhandler := xret_eq level (s := d) (hmode.symm ▸ hs)
  rw [← handler_xret busAccess hcb] at hhandler
  refine ⟨_, hexec.run hhandler, ?_, ?_, ?_, hexec.pendingTrap_eq⟩
  · rw [← hmode, ← hstatus]
    rfl
  · rw [← hmode, ← hstatus]
    rfl
  · rw [← htrap, ← hpc]
    rfl

theorem Executes.returned_of_run {busAccess : BusAccessFunc w σ} {s s' d : RvCore w σ}
    {cb : ExecutionCb} {level : TrapLevel} (hexec : Executes busAccess s cb d)
    (hcb : cb.kind = .xret level) (hrun : rvCoreRun busAccess s = .ok s') :
    s.currPrivMode.Legal ∧ Returned level s s' := by
  have hmode : d.currPrivMode = s.currPrivMode := by rw [hexec.frame]
  obtain ⟨e, hhandler, -⟩ := hexec.handler_of_run hrun
  rw [handler_xret busAccess hcb] at hhandler
  have hlegal : s.currPrivMode.Legal := hmode ▸ (xret_eq_ok hhandler).1
  obtain ⟨s'', hrun', hreturned⟩ := hexec.returned hcb hlegal
  obtain rfl := Except.ok.inj (hrun.symm.trans hrun')
  exact ⟨hlegal, hreturned⟩

/-- The mode that a return goes to is the one in the field of the current level. -/
theorem restoredMode_eq_previousMode (status : RvUintXlen w) {p : PrivilegeLevel}
    (hp : p.Legal) : restoredMode status p = previousMode status p := by
  rcases hp with rfl | rfl | rfl
  · rfl
  · rw [restoredMode_supervisor, previousMode]
    cases status.getLsbD trapXstatusSppBit <;> rfl
  · exact restoredMode_machine status

/-! ### Where the rule holds -/

/-- A return has no effect on the status word and the mode and goes on with the next
instruction, while an illegal instruction is waiting to be served. -/
structure ReturnUnnoticed (level : TrapLevel) (s : RvCore w σ) : Prop where
  pendingTrap : ∃ tval, s.pendingTrap = some (BitVec.ofNat w.bits trapCauseIllegalInstr, tval)
  legal : s.currPrivMode.Legal
  status : restoredStatus s.status s.currPrivMode = s.status
  mode : previousMode s.status s.currPrivMode = s.currPrivMode
  epc : s.trap.reg level .epc = 0 ∨ s.trap.reg level .epc = s.pc + 4

/-- The saved address can be told from no address at all, and what the level of the
instruction has saved is what the current level has saved. -/
structure ReturnAgrees (level : PrivilegeLevel) (s : RvCore w σ) : Prop where
  epc : s.trap.reg level.trapLevel .epc ≠ 0 ∨ s.pc + 4 = 0
  mode : previousMode s.status s.currPrivMode = previousMode s.status level
  enable : level = s.currPrivMode ∨ s.status.getLsbD level.toInt.toNat =
    s.status.getLsbD (trapXstatusUpieBit + level.toInt.toNat)

/-- The rule cannot be met by an instruction below its level: nothing refuses it. -/
theorem returnRefused_iff {busAccess : BusAccessFunc w σ} {s d : RvCore w σ} {cb : ExecutionCb}
    {level : TrapLevel} (hexec : Executes busAccess s cb d) (hcb : cb.kind = .xret level) :
    (∃ s', rvCoreRun busAccess s = .ok s' ∧ ReturnRefused s s') ↔ ReturnUnnoticed level s := by
  have hpc : (if s.trap.reg level .epc ≠ 0 then s.trap.reg level .epc else s.pc + 4) =
      s.pc + 4 ↔ s.trap.reg level .epc = 0 ∨ s.trap.reg level .epc = s.pc + 4 := by
    split
    · next h => rw [or_iff_right h]
    · next h => exact iff_of_true rfl (.inl (not_not.mp h))
  constructor
  · rintro ⟨s', hrun, hrefused⟩
    obtain ⟨hlegal, hreturned⟩ := hexec.returned_of_run hcb hrun
    refine ⟨hreturned.pendingTrap ▸ hrefused.pendingTrap, hlegal, ?_, ?_, ?_⟩
    · rw [← hreturned.status, hrefused.status]
    · rw [← restoredMode_eq_previousMode _ hlegal, ← hreturned.mode, hrefused.mode]
    · exact hpc.mp (hreturned.pc ▸ hrefused.pc)
  · intro h
    obtain ⟨s', hrun, hreturned⟩ := hexec.returned hcb h.legal
    refine ⟨s', hrun, hreturned.pendingTrap ▸ h.pendingTrap, ?_, ?_, ?_⟩
    · rw [hreturned.status, h.status]
    · rw [hreturned.mode, restoredMode_eq_previousMode _ h.legal, h.mode]
    · rw [hreturned.pc]
      exact hpc.mpr h.epc

/-- A return at machine mode leaves the enable bit of supervisor mode. -/
theorem getLsbD_restoredStatus_enable (status : RvUintXlen w) {mode level : PrivilegeLevel}
    (hlevel : level = mode ∨ (level = .supervisor ∧ mode = .machine)) (hmode : mode.Legal) :
    (restoredStatus status mode).getLsbD level.toInt.toNat =
      if level = mode then status.getLsbD (trapXstatusUpieBit + level.toInt.toNat)
      else status.getLsbD level.toInt.toNat := by
  rw [getLsbD_restoredStatus status hmode]
  rcases hlevel with rfl | ⟨rfl, rfl⟩
  · rw [if_pos rfl, if_pos rfl, if_neg (by simp only [trapXstatusUpieBit]; omega)]
  · rfl

theorem returnedFrom_iff {busAccess : BusAccessFunc w σ} {s d : RvCore w σ} {cb : ExecutionCb}
    {level : PrivilegeLevel} (hexec : Executes busAccess s cb d)
    (hfrom : ReturnFrom cb s.currPrivMode level) :
    (∃ s', rvCoreRun busAccess s = .ok s' ∧ ReturnedFrom level s s') ↔ ReturnAgrees level s := by
  have hcb : cb.kind = .xret level.trapLevel := by
    cases hfrom <;> rfl
  have hlevel : level = s.currPrivMode ∨
      (level = .supervisor ∧ s.currPrivMode = .machine) := by
    cases hfrom with
    | mret h => exact .inl h.symm
    | sret h => exact h.elim (fun h => .inl h.symm) fun h => .inr ⟨rfl, h⟩
  have hlegal : s.currPrivMode.Legal := by
    cases hfrom with
    | mret h => exact .inr (.inr h)
    | sret h => exact .inr h
  obtain ⟨s', hrun, hreturned⟩ := hexec.returned hcb hlegal
  have hmode : s'.currPrivMode = previousMode s.status level ↔
      previousMode s.status s.currPrivMode = previousMode s.status level := by
    rw [hreturned.mode, restoredMode_eq_previousMode _ hlegal]
  have henable : s'.status.getLsbD level.toInt.toNat =
      s.status.getLsbD (trapXstatusUpieBit + level.toInt.toNat) ↔
      (level = s.currPrivMode ∨ s.status.getLsbD level.toInt.toNat =
        s.status.getLsbD (trapXstatusUpieBit + level.toInt.toNat)) := by
    rw [hreturned.status, getLsbD_restoredStatus_enable _ hlevel hlegal]
    split
    · next h => exact iff_of_true rfl (.inl h)
    · next h => exact (or_iff_right h).symm
  have hpc : s'.pc = s.trap.reg level.trapLevel .epc ↔
      (s.trap.reg level.trapLevel .epc ≠ 0 ∨ s.pc + 4 = 0) := by
    rw [hreturned.pc]
    split
    · next h => exact iff_of_true rfl (.inl h)
    · next h => rw [not_not.mp h, or_iff_right (fun h => h rfl)]
  constructor
  · rintro ⟨s'', hrun', hdone⟩
    obtain rfl := Except.ok.inj (hrun.symm.trans hrun')
    exact ⟨hpc.mp hdone.pc, hmode.mp hdone.mode, henable.mp hdone.enable⟩
  · intro h
    exact ⟨s', hrun, hmode.mpr h.mode, henable.mpr h.enable, hpc.mpr h.epc⟩

/-- The rule holds where no return instruction is executed below its level, except
unnoticed, and where the level of the instruction and the current mode agree on what has
been saved. -/
theorem returnRule_iff (busAccess : BusAccessFunc w σ) (s : RvCore w σ) :
    ReturnRule busAccess s ↔
      (∀ cb d level, Executes busAccess s cb d → cb.kind = .xret level →
        ReturnBelow cb s.currPrivMode → ReturnUnnoticed level s) ∧
      ∀ cb d level, Executes busAccess s cb d → ReturnFrom cb s.currPrivMode level →
        ReturnAgrees level s := by
  constructor
  · intro h
    refine ⟨fun cb d level hexec hcb hbelow => ?_, fun cb d level hexec hfrom => ?_⟩
    · exact (returnRefused_iff hexec hcb).mp (h.below cb d hexec hbelow)
    · exact (returnedFrom_iff hexec hfrom).mp (h.from_level cb d level hexec hfrom)
  · rintro ⟨hbelow, hfrom⟩
    constructor
    case below =>
      intro cb d hexec h
      have hcb : ∃ level, cb.kind = .xret level := by
        cases h with
        | mret => exact ⟨.m, rfl⟩
        | sret => exact ⟨.s, rfl⟩
      obtain ⟨level, hcb⟩ := hcb
      exact (returnRefused_iff hexec hcb).mpr (hbelow cb d level hexec hcb h)
    case from_level =>
      intro cb d level hexec h
      exact (returnedFrom_iff hexec h).mpr (hfrom cb d level hexec h)

/-- Machine mode opens the memory to user mode and returns there, where the second
`mret` is. -/
def userMretProgram : List (BitVec 32) :=
  [ 0xFFF00093, 0x3B009073, -- pmpaddr0 = all ones
    0x01F00113, 0x3A011073, -- pmpcfg0: NAPOT, all accesses
    0x30200073, 0x30200073 ]

/-- User mode executes `mret` without a trap. -/
theorem user_mret_executed :
    ¬ ∀ (busAccess : BusAccessFunc .rv32 Unit) (s : RvCore .rv32 Unit),
      CoreReachable busAccess s → ReturnRule busAccess s := by
  intro h
  have hcheck : (CoreCall.execAll (romBus userMretProgram) (List.replicate 5 .run)
      (rvCoreInit () : RvCore .rv32 Unit)).toOption.any (fun s =>
        decide (s.currPrivMode = .user) &&
          (executesAny (romBus userMretProgram) s (fun cb _ => cb == .mret) &&
          (rvCoreRun (romBus userMretProgram) s).toOption.any fun s' => !s'.syncTrapPending)) =
        true := by
    decide +kernel
  obtain ⟨s, hreach, hs⟩ := CoreCall.exists_of_execAll hcheck
  rw [Bool.and_eq_true, Bool.and_eq_true, decide_eq_true_eq] at hs
  obtain ⟨hmode, hfetch, hrun⟩ := hs
  obtain ⟨cb, d, hexec, hcb⟩ := exists_of_executesAny hfetch
  obtain rfl := beq_iff_eq.mp hcb
  obtain ⟨s', hrun, hpending⟩ := Except.exists_of_any_toOption hrun
  have hrule := h (romBus userMretProgram) s ⟨_, ⟨(), rfl⟩, hreach⟩
  obtain ⟨s'', hrun', hrefused⟩ := hrule.below .mret d hexec (.mret (hmode ▸ by decide))
  obtain rfl := Except.ok.inj (hrun.symm.trans hrun')
  obtain ⟨tval, htrap⟩ := hrefused.pendingTrap
  rw [(pendingTrap_eq_some.mp htrap).1] at hpending
  cases hpending

end RiscvEm
