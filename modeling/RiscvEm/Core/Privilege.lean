import Mathlib.Data.Int.Order.Basic
import RiscvEm.Core.StopSpec

/-!
The privilege mode over runs: no instruction raises it, and it stays one of the
three legal modes as long as no return takes the reserved value from `MPP`.
-/

namespace RiscvEm

variable {w : Xlen} {σ : Type}

/-! ### Where the mode rises -/

/-- The interrupts are processed, and the program goes on at the vector of the mode
that is left behind. -/
def EntersTrap (s s' : RvCore w σ) : Prop :=
  ∃ mei mti msi, rvCorePrepareInterrupts (rvCoreUpdateInterrupts s mei mti msi) = .ok s' ∧
    ∃ l, getPrivRegs s'.currPrivMode = .ok l ∧ s'.pc = s'.trap.reg l .tvec

theorem rvCoreRun_mode_le {busAccess : BusAccessFunc w σ} {s s' : RvCore w σ}
    (h : rvCoreRun busAccess s = .ok s') : s'.currPrivMode ≤ s.currPrivMode := by
  rcases rvCoreRun_mode h with heq | ⟨cb, d, level, -, -, hlegal, heq⟩
  · rw [heq]
    exact PrivilegeLevel.le_rfl' _
  · rw [heq]
    exact restoredMode_le s.status s.currPrivMode hlegal

/-- A step that raises the mode is the entry into a trap. -/
theorem CoreStep.entersTrap {busAccess : BusAccessFunc w σ} {s s' : RvCore w σ}
    (h : CoreStep busAccess s s') (hlt : s.currPrivMode < s'.currPrivMode) : EntersTrap s s' := by
  have hnot : ¬ s'.currPrivMode ≤ s.currPrivMode := by
    rw [PrivilegeLevel.lt_def] at hlt
    rw [PrivilegeLevel.le_def]
    omega
  obtain ⟨call, hcall⟩ := h
  cases call with
  | run => exact absurd (rvCoreRun_mode_le hcall) hnot
  | environment priv =>
      obtain rfl := Except.ok.inj hcall
      exact absurd (PrivilegeLevel.le_rfl' _) hnot
  | processInterrupts mei mti msi =>
      refine ⟨mei, mti, msi, hcall, ?_⟩
      rcases rvCorePrepareInterrupts_cases hcall with
        ⟨-, serving, hserving, rfl⟩ | ⟨-, rfl | ⟨serving, cause, hserving, rfl⟩⟩
      · exact ⟨_, getPrivRegs_eq_trapLevel hserving, (RvCore.served_tvec _ _ _ _ _).symm⟩
      · exact absurd (PrivilegeLevel.le_rfl' _) hnot
      · exact ⟨_, getPrivRegs_eq_trapLevel hserving, (RvCore.served_tvec _ _ _ _ _).symm⟩

/-- Whatever a run has led to, no instruction raises the mode, a step that raises it
enters a trap, and a run that ends at a higher mode contains such a step. -/
theorem mode_rises_at_trap_entry (busAccess : BusAccessFunc w σ) {s t : RvCore w σ}
    (hrun : Relation.ReflTransGen (CoreStep busAccess) s t) :
    (∀ t', rvCoreRun busAccess t = .ok t' → t'.currPrivMode ≤ t.currPrivMode) ∧
      (∀ t', CoreStep busAccess t t' → t.currPrivMode < t'.currPrivMode → EntersTrap t t') ∧
      (s.currPrivMode < t.currPrivMode → ∃ u u',
        Relation.ReflTransGen (CoreStep busAccess) s u ∧ EntersTrap u u' ∧
          Relation.ReflTransGen (CoreStep busAccess) u' t ∧
          u.currPrivMode < u'.currPrivMode) := by
  refine ⟨fun t' h => rvCoreRun_mode_le h, fun t' h hlt => h.entersTrap hlt, fun hlt => ?_⟩
  have hlt' : s.currPrivMode.toInt < t.currPrivMode.toInt := hlt
  obtain ⟨u, u', hsu, hstep, hut, hrise⟩ :=
    Transition.exists_step_lt (fun s : RvCore w σ => s.currPrivMode.toInt) hrun hlt'
  exact ⟨u, u', hsu, hstep.entersTrap hrise, hut, hrise⟩

def userEcall : RvCore .rv32 Unit :=
  { rvCoreInit () with
    currPrivMode := .user, syncTrapPending := true, syncTrapCause := 8 }

theorem mode_rises_at_trap_entry_ecall :
    ∃ u u', Relation.ReflTransGen (CoreStep (romBus [])) userEcall u ∧ EntersTrap u u' ∧
      Relation.ReflTransGen (CoreStep (romBus [])) u'
        ((rvCoreUpdateInterrupts userEcall 0 0 0).servedSync .machine) ∧
      u.currPrivMode < u'.currPrivMode :=
  (mode_rises_at_trap_entry (romBus []) (.single (CoreStep.processInterrupts
    (rvCoreProcessInterrupts_of_pending (.inl rfl) rfl 0 0 0)))).2.2 (by decide)

/-! ### Legal modes -/

def mppReserved (status : RvUintXlen w) : Prop :=
  status.getLsbD (trapXstatusMppBit + 1) = true ∧ status.getLsbD trapXstatusMppBit = false

/-- The instruction at hand is a return in machine mode that takes the reserved mode
from the status word. -/
def ReservedReturn (busAccess : BusAccessFunc w σ) (s : RvCore w σ) : Prop :=
  s.currPrivMode = .machine ∧ mppReserved s.status ∧
    ∃ cb d level, Executes busAccess s cb d ∧ cb.kind = .xret level

/-- A step that executes no such return. -/
def GuardedStep (busAccess : BusAccessFunc w σ) (s s' : RvCore w σ) : Prop :=
  ∃ call : CoreCall σ, call.exec busAccess s = .ok s' ∧
    (call = .run → ¬ ReservedReturn busAccess s)

theorem restoredMode_legal_iff (status : RvUintXlen w) {p : PrivilegeLevel} (hp : p.Legal) :
    (restoredMode status p).Legal ↔ ¬ (p = .machine ∧ mppReserved status) := by
  rcases hp with rfl | rfl | rfl
  · exact iff_of_true (.inl rfl) (fun h => nomatch h.1)
  · rw [restoredMode_supervisor]
    refine iff_of_true ?_ (fun h => nomatch h.1)
    split
    · exact .inr (.inl rfl)
    · exact .inl rfl
  · rw [restoredMode_machine, mppReserved]
    cases status.getLsbD (trapXstatusMppBit + 1) <;>
      cases status.getLsbD trapXstatusMppBit <;> decide

/-- One instruction leaves a legal mode unless it is the return above. -/
theorem rvCoreRun_legal_iff {busAccess : BusAccessFunc w σ} {s s' : RvCore w σ}
    (hs : s.currPrivMode.Legal) (h : rvCoreRun busAccess s = .ok s') :
    s'.currPrivMode.Legal ↔ ¬ ReservedReturn busAccess s := by
  rcases rvCoreRun_cases h with ⟨f, hfetch, rfl⟩ | ⟨cb, d, e, hexec, hhandler, rfl⟩
  · have hmode : (advance f).currPrivMode = s.currPrivMode := by
      show f.currPrivMode = s.currPrivMode
      rw [rvCoreFetch_frame hfetch]
      rfl
    refine iff_of_true (hmode ▸ hs) ?_
    rintro ⟨-, -, cb, d, level, ⟨f', hfetch', -, -⟩, -⟩
    rw [hfetch] at hfetch'
    cases hfetch'
  · have hd : d.currPrivMode = s.currPrivMode := by rw [hexec.frame]
    have hstatus : d.status = s.status := by rw [hexec.frame]
    -- only a return changes the mode
    have hother (hmode : e.currPrivMode = d.currPrivMode)
        (hk : ∀ level, cb.kind ≠ .xret level) :
        e.currPrivMode.Legal ↔ ¬ ReservedReturn busAccess s := by
      rw [hmode, hd]
      refine iff_of_true hs ?_
      rintro ⟨-, -, cb', d', level, hexec', hk'⟩
      obtain ⟨rfl, -⟩ := hexec.unique hexec'
      exact hk level hk'
    show e.currPrivMode.Legal ↔ _
    rcases handler_cases hhandler with ⟨hk, huser⟩ | ⟨hk, newVal, hcsr⟩ |
        ⟨hk, merge, newVal, -, hcsr⟩ | ⟨level, hk, hxret⟩
    · refine hother (by rw [huser]) fun level hk' => ?_
      rw [hk'] at hk
      cases hk
    · refine hother (by rw [csrrwx_frame hcsr]) fun level hk' => ?_
      rw [hk] at hk'
      cases hk'
    · refine hother (by rw [csrrReadModifyWrite_frame hcsr]) fun level hk' => ?_
      rw [hk] at hk'
      cases hk'
    · obtain ⟨-, rfl⟩ := xret_eq_ok hxret
      show (restoredMode d.status d.currPrivMode).Legal ↔ _
      rw [hd, hstatus, restoredMode_legal_iff _ hs, not_iff_not]
      constructor
      · rintro ⟨hm, hmpp⟩
        exact ⟨hm, hmpp, cb, d, level, hexec, hk⟩
      · rintro ⟨hm, hmpp, -⟩
        exact ⟨hm, hmpp⟩

theorem GuardedStep.legal {busAccess : BusAccessFunc w σ} {s s' : RvCore w σ}
    (hs : s.currPrivMode.Legal) (h : GuardedStep busAccess s s') : s'.currPrivMode.Legal := by
  obtain ⟨call, hcall, hguard⟩ := h
  cases call with
  | run => exact (rvCoreRun_legal_iff hs hcall).mpr (hguard rfl)
  | environment priv =>
      obtain rfl := Except.ok.inj hcall
      exact hs
  | processInterrupts mei mti msi =>
      rcases rvCorePrepareInterrupts_cases hcall with
        ⟨-, serving, hserving, rfl⟩ | ⟨-, rfl | ⟨serving, cause, hserving, rfl⟩⟩
      · exact hserving
      · exact hs
      · exact hserving

/-- Along a run without such returns the mode is legal and no call looks up the
registers of another one. The condition is exact: a legal mode is left by just
these returns. -/
theorem guarded_run_legal (busAccess : BusAccessFunc w σ) {s₀ s : RvCore w σ}
    (h₀ : s₀.Initial) (hrun : Relation.ReflTransGen (GuardedStep busAccess) s₀ s) :
    s.currPrivMode.Legal ∧
      (∀ call : CoreCall σ, call.exec busAccess s ≠ .error .nullPrivRegs) ∧
      ∀ s', rvCoreRun busAccess s = .ok s' →
        (s'.currPrivMode.Legal ↔ ¬ ReservedReturn busAccess s) := by
  have hlegal : s.currPrivMode.Legal := by
    induction hrun with
    | refl =>
        obtain ⟨priv, rfl⟩ := h₀
        exact .inr (.inr rfl)
    | tail _ hstep ih => exact hstep.legal ih
  exact ⟨hlegal, fun call => CoreCall.exec_notNull busAccess hlegal call,
    fun s' h => rvCoreRun_legal_iff hlegal h⟩

theorem GuardedStep.of_run {busAccess : BusAccessFunc w σ} {s s' : RvCore w σ}
    (h : rvCoreRun busAccess s = .ok s') (hmpp : ¬ mppReserved s.status) :
    GuardedStep busAccess s s' :=
  ⟨.run, h, fun _ hreserved => hmpp hreserved.2.1⟩

/-- `lui x1, 1; addi x1, x1, -2048; csrw mstatus, x1; mret` -/
def supervisorReturnProgram : List (BitVec 32) :=
  [0x000010B7, 0x80008093, 0x30009073, 0x30200073]

/-- The program above sets `MPP` to supervisor mode and returns there. -/
theorem guarded_run_legal_return :
    ∃ s s' : RvCore .rv32 Unit,
      Relation.ReflTransGen (GuardedStep (romBus supervisorReturnProgram)) (rvCoreInit ()) s ∧
      (∃ d, Executes (romBus supervisorReturnProgram) s .mret d) ∧
      GuardedStep (romBus supervisorReturnProgram) s s' ∧
      s'.currPrivMode = .supervisor ∧ s'.currPrivMode.Legal ∧
      ∀ call : CoreCall Unit,
        call.exec (romBus supervisorReturnProgram) s' ≠ .error .nullPrivRegs := by
  let busAccess : BusAccessFunc .rv32 Unit := romBus supervisorReturnProgram
  have hcheck : (rvCoreRun busAccess (rvCoreInit () : RvCore .rv32 Unit)).toOption.any
      (fun s₁ => s₁.status == 0 && (rvCoreRun busAccess s₁).toOption.any
        (fun s₂ => s₂.status == 0 && (rvCoreRun busAccess s₂).toOption.any
          (fun s => s.status == 0x800 && (executesAny busAccess s fun cb _ => cb == .mret) &&
            (rvCoreRun busAccess s).toOption.any
              fun s' => s'.currPrivMode == .supervisor))) = true := by
    decide +kernel
  -- the status word before each of the four steps
  obtain ⟨s₁, h₁, hcheck⟩ := Except.exists_of_any_toOption hcheck
  obtain ⟨hstatus₁, hcheck⟩ := (Bool.and_eq_true_iff).mp hcheck
  obtain ⟨s₂, h₂, hcheck⟩ := Except.exists_of_any_toOption hcheck
  obtain ⟨hstatus₂, hcheck⟩ := (Bool.and_eq_true_iff).mp hcheck
  obtain ⟨s, h₃, hcheck⟩ := Except.exists_of_any_toOption hcheck
  obtain ⟨hcheck, hlast⟩ := (Bool.and_eq_true_iff).mp hcheck
  obtain ⟨hstatus, hmret⟩ := (Bool.and_eq_true_iff).mp hcheck
  obtain ⟨s', h', hmode⟩ := Except.exists_of_any_toOption hlast
  obtain ⟨cb, d, hexec, hcb⟩ := exists_of_executesAny hmret
  obtain rfl := eq_of_beq hcb
  have hguarded (status : RvUintXlen .rv32) (h : status = 0 ∨ status = 0x800) :
      ¬ mppReserved status := by
    rcases h with rfl | rfl <;> unfold mppReserved <;> decide
  have hrun : Relation.ReflTransGen (GuardedStep busAccess) (rvCoreInit ()) s :=
    .tail (.tail (.single (.of_run h₁ (hguarded _ (.inl rfl))))
      (.of_run h₂ (hguarded _ (.inl (eq_of_beq hstatus₁)))))
      (.of_run h₃ (hguarded _ (.inl (eq_of_beq hstatus₂))))
  have hstep : GuardedStep busAccess s s' :=
    .of_run h' (hguarded _ (.inr (eq_of_beq hstatus)))
  obtain ⟨hlegal, hnull, -⟩ := guarded_run_legal busAccess ⟨(), rfl⟩ (hrun.tail hstep)
  exact ⟨s, s', hrun, ⟨d, hexec⟩, hstep, eq_of_beq hmode, hlegal, hnull⟩

/-- `lui x1, 1; csrw mstatus, x1; mret` -/
def reservedReturnProgram : List (BitVec 32) := [0x000010B7, 0x30009073, 0x30200073]

/-- The program above leaves machine mode for the reserved one, and the interrupt
processing that follows looks up its registers. -/
theorem reserved_mode_reached :
    ¬ ∀ (busAccess : BusAccessFunc .rv32 Unit) (s₀ s : RvCore .rv32 Unit), s₀.Initial →
      Relation.ReflTransGen (CoreStep busAccess) s₀ s →
        s.currPrivMode.Legal ∧
          ∀ call : CoreCall Unit, call.exec busAccess s ≠ .error .nullPrivRegs := by
  intro h
  have hcheck : (CoreCall.execAll (romBus reservedReturnProgram) [.run, .run, .run]
      (rvCoreInit () : RvCore .rv32 Unit)).toOption.any (fun s =>
        match rvCoreProcessInterrupts 0 0 0 s with
        | .error .nullPrivRegs => true
        | _ => false) = true := by
    decide +kernel
  obtain ⟨s, hrun, hnull⟩ := CoreCall.exists_of_execAll hcheck
  obtain ⟨-, hcalls⟩ := h _ _ s ⟨(), rfl⟩ hrun
  have hcall := hcalls (.processInterrupts 0 0 0)
  rw [CoreCall.exec] at hcall
  split at hnull
  · next heq => exact hcall heq
  · cases hnull

end RiscvEm
