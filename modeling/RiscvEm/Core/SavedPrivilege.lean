import RiscvEm.Core.Delivery
import RiscvEm.Core.ReturnLevels
import RiscvEm.Trap.Nesting

/-!
What a return leaves in the fields that it has read.

The saved enable bit is cleared and the previous mode stays. Both are read again by the
next return at the level, and the previous mode of machine level by every access that is
made with `MPRV`.
-/

namespace RiscvEm

variable {w : Xlen} {σ : Type}

/-! ### Returns, entries and writes -/

structure ReturnsAt (busAccess : BusAccessFunc w σ) (level : PrivilegeLevel)
    (s s' : RvCore w σ) : Prop where
  mode : s.currPrivMode = level
  instr : ∃ cb d l, Executes busAccess s cb d ∧ cb.kind = .xret l
  run : rvCoreRun busAccess s = .ok s'

/-- The call of `rv_core_process_interrupts` enters the level: for the pending
synchronous trap, or for the interrupt that is taken. -/
def EntersLevel (mei mti msi : Byte) (level : PrivilegeLevel) (s : RvCore w σ) : Prop :=
  if s.syncTrapPending then
    trapCheckExceptionDelegation (trapSetPendingBits s.trap mei mti msi) s.currPrivMode
      s.syncTrapCause = .ok level
  else ∃ cause, interruptTrap s mei mti msi = .ok (some (cause, level))

structure SameSaved (level : PrivilegeLevel) (status status' : RvUintXlen w) : Prop where
  enable : status'.getLsbD (trapXstatusUpieBit + level.toInt.toNat) =
    status.getLsbD (trapXstatusUpieBit + level.toInt.toNat)
  mode : previousMode status' level = previousMode status level

theorem SameSaved.refl (level : PrivilegeLevel) (status : RvUintXlen w) :
    SameSaved level status status := ⟨rfl, rfl⟩

inductive QuietStep (busAccess : BusAccessFunc w σ) (level : PrivilegeLevel) :
    RvCore w σ → RvCore w σ → Prop
  | run {s s' : RvCore w σ} (h : rvCoreRun busAccess s = .ok s')
      (hcsr : ∀ cb d, Executes busAccess s cb d → cb.kind = .csrWrite ∨ cb.kind = .csrModify →
        SameSaved level s.status s'.status) : QuietStep busAccess level s s'
  | processInterrupts {s s' : RvCore w σ} {mei mti msi : Byte}
      (h : rvCoreProcessInterrupts mei mti msi s = .ok s')
      (hentry : ¬ EntersLevel mei mti msi level s) : QuietStep busAccess level s s'
  | environment (s : RvCore w σ) (priv : σ) :
      QuietStep busAccess level s { s with priv := priv }

/-- The saved enable bit of the level is clear, and the mode is still in its xPP
field. -/
structure LeftBehind (level mode : PrivilegeLevel) (status : RvUintXlen w) : Prop where
  enable : status.getLsbD (trapXstatusUpieBit + level.toInt.toNat) = false
  mode : previousMode status level = mode

theorem LeftBehind.of_same {level mode : PrivilegeLevel} {status status' : RvUintXlen w}
    (h : LeftBehind level mode status) (hsame : SameSaved level status status') :
    LeftBehind level mode status' :=
  ⟨hsame.enable.trans h.enable, hsame.mode.trans h.mode⟩

/-! ### What a call does to the saved fields -/

theorem sameSaved_servedStatus {level serving : PrivilegeLevel} (hlevel : level.Legal)
    (hserving : serving.Legal) (hne : serving ≠ level) (status : RvUintXlen w)
    (previous : PrivilegeLevel) :
    SameSaved level status (servedStatus status serving previous) := by
  obtain ⟨hmode, henable⟩ :=
    TrapNest.servedStatus_other status hserving hlevel hne.symm previous
  rw [restoredMode_eq_previousMode _ hlevel, restoredMode_eq_previousMode _ hlevel] at hmode
  exact ⟨henable, hmode⟩

theorem previousMode_restoredStatus {level p : PrivilegeLevel} (hlevel : level.Legal)
    (hp : p.Legal) (status : RvUintXlen w) :
    previousMode (restoredStatus status p) level = previousMode status level := by
  have hkept : ∀ k, 8 ≤ k → (restoredStatus status p).getLsbD k = status.getLsbD k := by
    intro k hk
    have hlow := TrapNest.toNat_of_legal hp
    have hupie : trapXstatusUpieBit = 4 := rfl
    exact TrapNest.getLsbD_restoredStatus_of_ne status hp (by omega) (by omega)
  rcases hlevel with rfl | rfl | rfl
  · rfl
  · rw [previousMode, previousMode, hkept _ (by decide)]
  · rw [previousMode, previousMode, hkept _ (by decide), hkept _ (by decide)]

/-- A return at the level clears the saved enable bit, and one at another level leaves
it. -/
theorem LeftBehind.restored {level mode p : PrivilegeLevel} {status : RvUintXlen w}
    (hlevel : level.Legal) (hp : p.Legal) (h : LeftBehind level mode status) :
    LeftBehind level mode (restoredStatus status p) := by
  refine ⟨?_, (previousMode_restoredStatus hlevel hp status).trans h.mode⟩
  by_cases hne : level = p
  · rw [hne, getLsbD_restoredStatus status hp, if_pos rfl]
  · rw [(TrapNest.restoredStatus_other status hp hlevel hne).2]
    exact h.enable

theorem status_rvCoreUpdateInterrupts (s : RvCore w σ) (mei mti msi : Byte) :
    (rvCoreUpdateInterrupts s mei mti msi).status = s.status :=
  trapSetPendingBits_reg s.trap mei mti msi .m (by decide)

/-- Processing the interrupts writes the status word only where a level is entered. -/
theorem rvCoreProcessInterrupts_status {s s' : RvCore w σ} {mei mti msi : Byte}
    (h : rvCoreProcessInterrupts mei mti msi s = .ok s') :
    s'.status = s.status ∨ ∃ serving, serving.Legal ∧ EntersLevel mei mti msi serving s ∧
      s'.status = servedStatus s.status serving s.currPrivMode := by
  have hserved {serving : PrivilegeLevel} {isInterrupt : Bool} {cause : RvUintXlen w} :
      ((rvCoreUpdateInterrupts s mei mti msi).served serving isInterrupt cause).status =
        servedStatus s.status serving s.currPrivMode := by
    rw [← status_rvCoreUpdateInterrupts s mei mti msi]
    exact TrapNest.servedTrap_status _ _ _ _ _ _ _
  cases hpending : s.syncTrapPending with
  | true =>
      have hu : (rvCoreUpdateInterrupts s mei mti msi).syncTrapPending = true := hpending
      rw [rvCoreProcessInterrupts, rvCorePrepareInterrupts, if_pos hu] at h
      obtain ⟨serving, hcheck, h⟩ := Except.bind_eq_ok.mp h
      obtain ⟨u, hserve, h⟩ := Except.bind_eq_ok.mp h
      obtain ⟨hserving, rfl⟩ := serveTrap_eq_ok hserve
      obtain rfl := Except.ok.inj h
      refine .inr ⟨serving, hserving, ?_, hserved⟩
      rw [EntersLevel, if_pos hpending]
      exact hcheck
  | false =>
      rw [rvCoreProcessInterrupts_of_not_pending hpending] at h
      obtain ⟨taken, htaken, h⟩ := Except.bind_eq_ok.mp h
      cases taken with
      | none =>
          obtain rfl := Except.ok.inj h
          exact .inl (status_rvCoreUpdateInterrupts s mei mti msi)
      | some t =>
          obtain ⟨hserving, rfl⟩ := serveTrap_eq_ok h
          refine .inr ⟨t.2, hserving, ?_, hserved⟩
          rw [EntersLevel, if_neg (by rw [hpending]; decide)]
          exact ⟨t.1, htaken⟩

/-- An instruction writes the status word only as a return or a CSR instruction. -/
theorem rvCoreRun_status {busAccess : BusAccessFunc w σ} {s s' : RvCore w σ}
    (h : rvCoreRun busAccess s = .ok s') :
    s'.status = s.status ∨
      (∃ cb d, Executes busAccess s cb d ∧ (cb.kind = .csrWrite ∨ cb.kind = .csrModify)) ∨
      (s.currPrivMode.Legal ∧ s'.status = restoredStatus s.status s.currPrivMode) := by
  rcases rvCoreRun_cases h with ⟨f, hfetch, rfl⟩ | ⟨cb, d, e, hexec, hhandler, rfl⟩
  · have hframe : SetupFrame s.atFetch f := rvCoreFetch_frame hfetch
    refine .inl ?_
    show f.status = s.status
    rw [hframe]
    rfl
  · rcases handler_cases hhandler with ⟨-, huser⟩ | ⟨hk, -⟩ | ⟨hk, -⟩ | ⟨level, hk, -⟩
    · have hd : d.status = s.status := by rw [hexec.frame]
      refine .inl ?_
      show e.status = s.status
      rw [huser]
      exact hd
    · exact .inr (.inl ⟨cb, d, hexec, .inl hk⟩)
    · exact .inr (.inl ⟨cb, d, hexec, .inr hk⟩)
    · obtain ⟨hlegal, hreturned⟩ := hexec.returned_of_run hk h
      exact .inr (.inr ⟨hlegal, hreturned.status⟩)

theorem LeftBehind.step {busAccess : BusAccessFunc w σ} {level mode : PrivilegeLevel}
    (hlevel : level.Legal) {s s' : RvCore w σ} (h : LeftBehind level mode s.status)
    (hstep : QuietStep busAccess level s s') : LeftBehind level mode s'.status := by
  cases hstep with
  | run hrun hcsr =>
      rcases rvCoreRun_status hrun with hs | ⟨cb, d, hexec, hk⟩ | ⟨hlegal, hs⟩
      · rw [hs]
        exact h
      · exact h.of_same (hcsr cb d hexec hk)
      · rw [hs]
        exact h.restored hlevel hlegal
  | processInterrupts hint hentry =>
      rcases rvCoreProcessInterrupts_status hint with hs | ⟨serving, hserving, henters, hs⟩
      · rw [hs]
        exact h
      · rw [hs]
        have hne : serving ≠ level := fun heq => hentry (heq ▸ henters)
        exact h.of_same (sameSaved_servedStatus hlevel hserving hne _ _)
  | environment priv => exact h

theorem LeftBehind.steps {busAccess : BusAccessFunc w σ} {level mode : PrivilegeLevel}
    (hlevel : level.Legal) {s s' : RvCore w σ} (h : LeftBehind level mode s.status)
    (hsteps : Relation.ReflTransGen (QuietStep busAccess level) s s') :
    LeftBehind level mode s'.status := by
  induction hsteps with
  | refl => exact h
  | tail _ hstep ih => exact ih.step hlevel hstep

/-! ### What is read later -/

theorem ReturnsAt.returned {busAccess : BusAccessFunc w σ} {level : PrivilegeLevel}
    {s s' : RvCore w σ} (h : ReturnsAt busAccess level s s') :
    level.Legal ∧ s'.status = restoredStatus s.status level ∧
      s'.currPrivMode = previousMode s.status level := by
  obtain ⟨rfl, ⟨cb, d, l, hexec, hk⟩, hrun⟩ := h
  obtain ⟨hlegal, hreturned⟩ := hexec.returned_of_run hk hrun
  refine ⟨hlegal, hreturned.status, ?_⟩
  rw [hreturned.mode, restoredMode_eq_previousMode _ hlegal]

/-- With `MPRV` set the data accesses use the mode in the `MPP` field. -/
theorem checkMprvOverride_of_mprv {s : RvCore w σ} {accessType : BusAccessType}
    (hdata : accessType ≠ .instr) (hmprv : s.status.getLsbD trapXstatusMprvBit = true) :
    checkMprvOverride s accessType = previousMode s.status .machine := by
  have hbit : extract s.status trapXstatusMprvBit 1 ≠ 0 := by
    intro hzero
    have hvalue := toNat_extract_one s.status trapXstatusMprvBit (by have := w.bits_ge; omega)
    rw [hzero, hmprv] at hvalue
    cases w <;> cases hvalue
  rw [checkMprvOverride, if_neg hdata]
  simp only [if_pos hbit]
  exact restoredMode_machine s.status

/-- A return leaves the previous mode where it was and the saved enable bit clear. As long
as the level is not entered and the fields are not written, the next return at the
level goes to the same mode with the interrupts of the level disabled, and after a
return from machine level the accesses with `MPRV` set are made at that mode. -/
theorem return_leaves_mode {busAccess : BusAccessFunc w σ} {level : PrivilegeLevel}
    {s₀ s₁ : RvCore w σ} (hreturn : ReturnsAt busAccess level s₀ s₁) :
    s₁.status.getLsbD (trapXstatusUpieBit + level.toInt.toNat) = false ∧
      previousMode s₁.status level = previousMode s₀.status level ∧
      ∀ s₂, Relation.ReflTransGen (QuietStep busAccess level) s₁ s₂ →
        (∀ s₃, ReturnsAt busAccess level s₂ s₃ → s₃.currPrivMode = s₁.currPrivMode ∧
          s₃.status.getLsbD level.toInt.toNat = false) ∧
        (level = .machine → s₂.status.getLsbD trapXstatusMprvBit = true →
          ∀ accessType, accessType ≠ .instr →
            checkMprvOverride s₂ accessType = s₁.currPrivMode) := by
  obtain ⟨hlevel, hstatus, hmode⟩ := hreturn.returned
  have hleft : LeftBehind level s₁.currPrivMode s₁.status := by
    rw [hstatus, hmode]
    refine ⟨?_, previousMode_restoredStatus hlevel hlevel _⟩
    rw [getLsbD_restoredStatus _ hlevel, if_pos rfl]
  refine ⟨hleft.enable, hleft.mode.trans hmode, fun s₂ hquiet => ?_⟩
  have hlater := hleft.steps hlevel hquiet
  constructor
  · intro s₃ hnext
    obtain ⟨-, hstatus', hmode'⟩ := hnext.returned
    refine ⟨hmode'.trans hlater.mode, ?_⟩
    rw [hstatus', TrapNest.getLsbD_restoredStatus_ie _ hlevel]
    exact hlater.enable
  · intro hm hmprv accessType hdata
    rw [checkMprvOverride_of_mprv hdata hmprv, ← hm]
    exact hlater.mode

/-- Machine mode returns to itself twice. -/
def twoReturnsProgram : List (BitVec 32) :=
  [ 0x000021B7, 0x80018193, 0x30019073, -- mstatus.MPP = machine
    0x30200073, 0x30200073 ]

def returnsAny (busAccess : BusAccessFunc w σ) (level : PrivilegeLevel) (s : RvCore w σ)
    (p : RvCore w σ → Bool) : Bool :=
  decide (s.currPrivMode = level) &&
    (executesAny busAccess s (fun cb _ => cb == .mret) &&
      (rvCoreRun busAccess s).toOption.any p)

theorem exists_of_returnsAny {busAccess : BusAccessFunc w σ} {level : PrivilegeLevel}
    {s : RvCore w σ} {p : RvCore w σ → Bool} (h : returnsAny busAccess level s p = true) :
    ∃ s', ReturnsAt busAccess level s s' ∧ p s' = true := by
  rw [returnsAny, Bool.and_eq_true, Bool.and_eq_true, decide_eq_true_eq] at h
  obtain ⟨hmode, hexec, hrun⟩ := h
  obtain ⟨cb, d, hexec, hcb⟩ := exists_of_executesAny hexec
  obtain ⟨s', hrun, hp⟩ := Except.exists_of_any_toOption hrun
  exact ⟨s', ⟨hmode, ⟨cb, d, .m, hexec, by rw [beq_iff_eq.mp hcb]; rfl⟩, hrun⟩, hp⟩

theorem return_leaves_mode_twice :
    ∃ s₀ s₁ s₂ : RvCore .rv32 Unit, ReturnsAt (romBus twoReturnsProgram) .machine s₀ s₁ ∧
      ReturnsAt (romBus twoReturnsProgram) .machine s₁ s₂ ∧
      s₂.currPrivMode = s₁.currPrivMode ∧ s₂.status.getLsbD 3 = false := by
  have hcheck : (CoreCall.execAll (romBus twoReturnsProgram) (List.replicate 3 .run)
      (rvCoreInit () : RvCore .rv32 Unit)).toOption.any (fun s =>
        returnsAny (romBus twoReturnsProgram) .machine s fun s₁ =>
          returnsAny (romBus twoReturnsProgram) .machine s₁ fun _ => true) = true := by
    decide +kernel
  obtain ⟨s₀, -, h⟩ := CoreCall.exists_of_execAll hcheck
  obtain ⟨s₁, hfirst, h⟩ := exists_of_returnsAny h
  obtain ⟨s₂, hsecond, -⟩ := exists_of_returnsAny h
  have hlater := (return_leaves_mode hfirst).2.2 s₁ .refl
  exact ⟨s₀, s₁, s₂, hfirst, hsecond, hlater.1 s₂ hsecond⟩

/-- After a return to machine mode `MPP` still holds machine mode. -/
theorem mret_keeps_mpp :
    ¬ ∀ (busAccess : BusAccessFunc .rv32 Unit) (s s' : RvCore .rv32 Unit),
      CoreReachable busAccess s → ReturnsAt busAccess .machine s s' →
        s'.status.getLsbD (trapXstatusUpieBit + PrivilegeLevel.machine.toInt.toNat) = true ∧
          previousMode s'.status .machine = .user := by
  intro h
  have hcheck : (CoreCall.execAll (romBus twoReturnsProgram) (List.replicate 3 .run)
      (rvCoreInit () : RvCore .rv32 Unit)).toOption.any (fun s =>
        returnsAny (romBus twoReturnsProgram) .machine s fun s' =>
          previousMode s'.status .machine == .machine) = true := by
    decide +kernel
  obtain ⟨s, hreach, hs⟩ := CoreCall.exists_of_execAll hcheck
  obtain ⟨s', hreturn, hmode⟩ := exists_of_returnsAny hs
  obtain ⟨-, huser⟩ := h _ s s' ⟨_, ⟨(), rfl⟩, hreach⟩ hreturn
  rw [beq_iff_eq, huser] at hmode
  cases hmode

end RiscvEm
