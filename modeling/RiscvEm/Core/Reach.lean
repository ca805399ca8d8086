import RiscvEm.Core.InterruptSpec
import RiscvEm.Core.RunSpec
import RiscvEm.Lib.Transition

/-!
The states of a core over whole runs: those reached by calls of its two routines in
any order, and those at the head of the main loop of the system.
-/

namespace RiscvEm

variable {w : Xlen} {σ : Type}

/-! ### Runs -/

/-- What can happen to a core: a call of one of its two routines, or a change of
the memory and the devices by someone else. -/
inductive CoreCall (σ : Type)
  | run
  | processInterrupts (mei mti msi : Byte)
  | environment (priv : σ)

def CoreCall.exec (busAccess : BusAccessFunc w σ) : CoreCall σ → Handler w σ
  | run => rvCoreRun busAccess
  | processInterrupts mei mti msi => rvCoreProcessInterrupts mei mti msi
  | environment priv => fun s => .ok { s with priv := priv }

def CoreStep (busAccess : BusAccessFunc w σ) (s s' : RvCore w σ) : Prop :=
  ∃ call : CoreCall σ, call.exec busAccess s = .ok s'

/-- One round of `rv_soc_run`: an instruction, the updates of the devices, and the
interrupts for the lines that they raise. -/
def LoopStep (busAccess : BusAccessFunc w σ) (s s' : RvCore w σ) : Prop :=
  ∃ s₁ priv mei mti msi, rvCoreRun busAccess s = .ok s₁ ∧
    rvCoreProcessInterrupts mei mti msi { s₁ with priv := priv } = .ok s'

def RvCore.Initial (s : RvCore w σ) : Prop := ∃ priv, s = rvCoreInit priv

/-- Reached from `rv_core_init` by calls in any order. -/
def CoreReachable (busAccess : BusAccessFunc w σ) : RvCore w σ → Prop :=
  Transition.Reachable RvCore.Initial (CoreStep busAccess)

/-- Reached from `rv_core_init` by rounds of `rv_soc_run`. -/
def LoopReachable (busAccess : BusAccessFunc w σ) : RvCore w σ → Prop :=
  Transition.Reachable RvCore.Initial (LoopStep busAccess)

section Runs

variable {busAccess : BusAccessFunc w σ}

theorem CoreStep.run {s s' : RvCore w σ} (h : rvCoreRun busAccess s = .ok s') :
    CoreStep busAccess s s' := ⟨.run, h⟩

theorem CoreStep.processInterrupts {s s' : RvCore w σ} {mei mti msi : Byte}
    (h : rvCoreProcessInterrupts mei mti msi s = .ok s') : CoreStep busAccess s s' :=
  ⟨.processInterrupts mei mti msi, h⟩

theorem CoreStep.environment (s : RvCore w σ) (priv : σ) :
    CoreStep busAccess s { s with priv := priv } := ⟨.environment priv, rfl⟩

theorem LoopStep.calls {s s' : RvCore w σ} (h : LoopStep busAccess s s') :
    Relation.ReflTransGen (CoreStep busAccess) s s' := by
  obtain ⟨s₁, priv, mei, mti, msi, hrun, hint⟩ := h
  exact ((Relation.ReflTransGen.single (CoreStep.run hrun)).tail
    (CoreStep.environment s₁ priv)).tail (CoreStep.processInterrupts hint)

theorem LoopReachable.core {s : RvCore w σ} (h : LoopReachable busAccess s) :
    CoreReachable busAccess s :=
  Transition.Reachable.of_steps (fun _ _ => LoopStep.calls) h

def CoreCall.execAll (busAccess : BusAccessFunc w σ) : List (CoreCall σ) → Handler w σ
  | [] => fun s => .ok s
  | call :: rest => fun s => do
      let s ← call.exec busAccess s
      execAll busAccess rest s

theorem CoreCall.execAll_reaches {calls : List (CoreCall σ)} {s s' : RvCore w σ}
    (h : CoreCall.execAll busAccess calls s = .ok s') :
    Relation.ReflTransGen (CoreStep busAccess) s s' := by
  induction calls generalizing s with
  | nil =>
      obtain rfl := Except.ok.inj h
      exact .refl
  | cons call rest ih =>
      obtain ⟨s₁, hcall, hrest⟩ := Except.bind_eq_ok.mp h
      exact .head ⟨call, hcall⟩ (ih hrest)

/-- A property that holds after a sequence of calls holds of a reachable state. -/
theorem CoreCall.exists_of_execAll {calls : List (CoreCall σ)} {s : RvCore w σ}
    {P : RvCore w σ → Bool}
    (h : (CoreCall.execAll busAccess calls s).toOption.any P = true) :
    ∃ s', Relation.ReflTransGen (CoreStep busAccess) s s' ∧ P s' = true := by
  obtain ⟨s', hcalls, hP⟩ := Except.exists_of_any_toOption h
  exact ⟨s', CoreCall.execAll_reaches hcalls, hP⟩

end Runs

def executesAny (busAccess : BusAccessFunc w σ) (s : RvCore w σ)
    (p : ExecutionCb → RvCore w σ → Bool) : Bool :=
  (rvCoreFetch busAccess s.atFetch).toOption.any fun f =>
    f.1 == .ok && (rvCoreDecode f.2).toOption.any fun d => d.executeCb.any fun cb => p cb d

theorem exists_of_executesAny {busAccess : BusAccessFunc w σ} {s : RvCore w σ}
    {p : ExecutionCb → RvCore w σ → Bool} (h : executesAny busAccess s p = true) :
    ∃ cb d, Executes busAccess s cb d ∧ p cb d = true := by
  obtain ⟨⟨ret, f⟩, hfetch, hf⟩ := Except.exists_of_any_toOption h
  rw [Bool.and_eq_true, beq_iff_eq] at hf
  obtain ⟨rfl, hdecode⟩ := hf
  obtain ⟨d, hdecode, hd⟩ := Except.exists_of_any_toOption hdecode
  obtain ⟨cb, hcb, hp⟩ := (Option.any_eq_true _ _).mp hd
  exact ⟨cb, d, ⟨f, hfetch, hdecode, hcb⟩, hp⟩

/-- The bus of a read-only memory that holds a program where a core starts. -/
def romBus (program : List (BitVec 32)) : BusAccessFunc w Unit :=
  fun priv _ accessType addr value _ =>
    let word := program.getD ((addr.toNat - mromBaseAddr) / 4) 0
    .ok (.ok, if accessType = .write then value else leBytes 4 word.toNat ++ value.drop 4, priv)

/-! ### The frame of an instruction -/

/-- A handler stays within the frame of an unprivileged instruction or of a CSR
instruction, or it is a return. -/
theorem handler_cases {busAccess : BusAccessFunc w σ} {cb : ExecutionCb} {s s' : RvCore w σ}
    (h : cb.handler busAccess s = .ok s') :
    (cb.kind.system = false ∧ UserFrame s s') ∨
      (cb.kind = .csrWrite ∧ ∃ newVal, csrrwx s newVal = .ok s') ∨
      (cb.kind = .csrModify ∧ ∃ merge newVal, MaskedMerge merge ∧
        csrrReadModifyWrite merge s newVal = .ok s') ∨
      ∃ level, cb.kind = .xret level ∧ xret level s = .ok s' := by
  cases hsystem : cb.kind.system with
  | false => exact .inl ⟨rfl, handler_user_frame hsystem h⟩
  | true =>
      cases hk : cb.kind with
      | csrWrite =>
          rw [handler_csrWrite busAccess hk] at h
          exact .inr (.inl ⟨rfl, _, h⟩)
      | csrModify =>
          obtain ⟨merge, hmerge, -, heq⟩ := handler_csrModify busAccess hk
          rw [heq] at h
          exact .inr (.inr (.inl ⟨rfl, _, _, hmerge, h⟩))
      | xret level =>
          rw [handler_xret busAccess hk] at h
          exact .inr (.inr (.inr ⟨level, rfl, h⟩))
      | _ => simp [hk, HandlerKind.system] at hsystem

/-- A return at a legal mode goes on at the saved address in the restored mode. -/
theorem xret_eq (level : TrapLevel) {s : RvCore w σ} (h : s.currPrivMode.Legal) :
    xret level s = .ok { s with
      trap := s.trap.setReg .m .status (restoredStatus s.status s.currPrivMode)
      currPrivMode := restoredMode s.status s.currPrivMode
      nextPc := s.trap.reg level .epc } := by
  rw [xret, trapRestoreIrqSettings_eq _ h]
  simp only [Except.ok_bind, Except.pure_eq_ok, Trap.reg_setReg, reduceCtorEq, false_and, if_false]

theorem xret_eq_ok {level : TrapLevel} {s s' : RvCore w σ} (h : xret level s = .ok s') :
    s.currPrivMode.Legal ∧
      s' = { s with
        trap := s.trap.setReg .m .status (restoredStatus s.status s.currPrivMode)
        currPrivMode := restoredMode s.status s.currPrivMode
        nextPc := s.trap.reg level .epc } := by
  have hlegal : s.currPrivMode.Legal := by
    by_contra hnot
    have herr : getPrivRegs s.currPrivMode = .error .nullPrivRegs := by
      cases hmode : s.currPrivMode with
      | unknown => rfl
      | reserved => rfl
      | user => exact absurd (.inl hmode) hnot
      | supervisor => exact absurd (.inr (.inl hmode)) hnot
      | machine => exact absurd (.inr (.inr hmode)) hnot
    simp only [xret, trapRestoreIrqSettings, herr, Except.error_bind] at h
    cases h
  rw [xret_eq level hlegal] at h
  exact ⟨hlegal, (Except.ok.inj h).symm⟩

/-- An instruction that raises a trap and makes no access of its own does nothing
else; one that makes an access stays within the frame of an access. -/
theorem handler_pending_cases {busAccess : BusAccessFunc w σ} {cb : ExecutionCb}
    {s s' : RvCore w σ} (hs : s.syncTrapPending = false) (hs' : s'.syncTrapPending = true)
    (h : cb.handler busAccess s = .ok s') :
    (cb.kind.memory = false ∧ ∃ cause tval, s' = prepareSyncTrap s cause tval) ∨
      (cb.kind.memory = true ∧ MemoryFrame s s') := by
  have hdiff : s'.syncTrapPending ≠ s.syncTrapPending := by
    rw [hs, hs']
    decide
  rcases handler_cases h with ⟨hk, -⟩ | ⟨hk, newVal, hcsr⟩ | ⟨hk, merge, newVal, -, hcsr⟩ |
      ⟨level, hk, hxret⟩
  · cases hkind : cb.kind with
    | compute =>
        refine absurd ?_ hdiff
        rw [handler_compute_frame busAccess hkind h]
    | ecall =>
        rw [handler_ecall busAccess hkind] at h
        exact .inl ⟨rfl, _, _, (Except.ok.inj h).symm⟩
    | hang =>
        rw [handler_hang busAccess hkind] at h
        cases h
    | csrWrite => simp [hkind, HandlerKind.system] at hk
    | csrModify => simp [hkind, HandlerKind.system] at hk
    | xret level => simp [hkind, HandlerKind.system] at hk
    | _ =>
        have hframe : MemoryFrame s s' := handler_memory_frame (by simp [hkind]) hk h
        exact .inr ⟨rfl, hframe⟩
  · refine .inl ⟨by rw [hk]; rfl, ?_⟩
    obtain ⟨-, rfl | ⟨csrVal, s₁, -, -, hwritten, rfl⟩⟩ := csrrwx_cases hcsr
    · exact ⟨_, _, rfl⟩
    · -- a write that was granted records nothing
      exact absurd hwritten.syncTrapPending hdiff
  · refine .inl ⟨by rw [hk]; rfl, ?_⟩
    obtain ⟨-, rfl | ⟨csrVal, s₁, -, hwritten, hkept, rfl⟩⟩ := csrrReadModifyWrite_cases hcsr
    · exact ⟨_, _, rfl⟩
    · refine absurd ?_ hdiff
      by_cases hrs1 : s.rs1 = 0
      · rw [hkept hrs1]
        rfl
      · exact (hwritten hrs1).syncTrapPending
  · refine absurd ?_ hdiff
    rw [(xret_eq_ok hxret).2]

theorem handler_pending_frame {busAccess : BusAccessFunc w σ} {cb : ExecutionCb}
    {s s' : RvCore w σ} (hs : s.syncTrapPending = false) (hs' : s'.syncTrapPending = true)
    (h : cb.handler busAccess s = .ok s') : MemoryFrame s s' := by
  rcases handler_pending_cases hs hs' h with ⟨-, cause, tval, rfl⟩ | ⟨-, hframe⟩
  · exact (prepareSyncTrap_frame s cause tval).memory
  · exact hframe

/-- The mode after one instruction: a return restores the mode of the status word,
and nothing else changes it. -/
theorem rvCoreRun_mode {busAccess : BusAccessFunc w σ} {s s' : RvCore w σ}
    (h : rvCoreRun busAccess s = .ok s') :
    s'.currPrivMode = s.currPrivMode ∨
      (∃ cb d level, Executes busAccess s cb d ∧ cb.kind = .xret level ∧
        s.currPrivMode.Legal ∧ s'.currPrivMode = restoredMode s.status s.currPrivMode) := by
  rcases rvCoreRun_cases h with ⟨f, hfetch, rfl⟩ | ⟨cb, d, e, hexec, hhandler, rfl⟩
  · left
    have hframe : SetupFrame s.atFetch f := rvCoreFetch_frame hfetch
    show f.currPrivMode = s.currPrivMode
    rw [hframe]
    rfl
  · have hd : d.currPrivMode = s.currPrivMode := by rw [hexec.frame]
    have hstatus : d.status = s.status := by rw [hexec.frame]
    rcases handler_cases hhandler with ⟨-, huser⟩ | ⟨-, newVal, hcsr⟩ |
        ⟨-, merge, newVal, -, hcsr⟩ | ⟨level, hk, hxret⟩
    · left
      show e.currPrivMode = s.currPrivMode
      rw [huser]
      exact hd
    · left
      show e.currPrivMode = s.currPrivMode
      rw [csrrwx_frame hcsr]
      exact hd
    · left
      show e.currPrivMode = s.currPrivMode
      rw [csrrReadModifyWrite_frame hcsr]
      exact hd
    · right
      obtain ⟨hlegal, rfl⟩ := xret_eq_ok hxret
      refine ⟨cb, d, level, hexec, hk, hd ▸ hlegal, ?_⟩
      show restoredMode d.status d.currPrivMode = _
      rw [hd, hstatus]

/-! ### The head of the loop -/

/-- What holds whenever an instruction is about to be executed: no trap waits to be
served, and the zero register is zero. -/
structure RvCore.Ready (s : RvCore w σ) : Prop where
  pendingTrap : s.pendingTrap = none
  x_zero : s.x 0 = 0

theorem rvCoreRun_x_zero {busAccess : BusAccessFunc w σ} {s s' : RvCore w σ} (hs : s.x 0 = 0)
    (h : rvCoreRun busAccess s = .ok s') : s'.x 0 = 0 := by
  rcases rvCoreRun_cases h with ⟨f, hfetch, rfl⟩ | ⟨cb, d, e, -, -, rfl⟩
  · have hframe : SetupFrame s.atFetch f := rvCoreFetch_frame hfetch
    show f.x 0 = 0
    rw [hframe]
    exact hs
  · show Function.update e.x 0 0 0 = 0
    rw [Function.update_self]

/-- After the interrupts have been processed no synchronous trap is pending. -/
theorem rvCoreProcessInterrupts_pendingTrap {s s' : RvCore w σ} {mei mti msi : Byte}
    (h : rvCoreProcessInterrupts mei mti msi s = .ok s') : s'.pendingTrap = none := by
  rw [pendingTrap_eq_none]
  rcases rvCorePrepareInterrupts_cases h with
    ⟨-, serving, -, rfl⟩ | ⟨hs, rfl | ⟨serving, cause, -, rfl⟩⟩
  · rfl
  · exact hs
  · exact hs

theorem LoopReachable.ready {busAccess : BusAccessFunc w σ} {s : RvCore w σ}
    (h : LoopReachable busAccess s) : s.Ready := by
  refine Transition.Reachable.invariant h ?_ ?_
  · rintro a ⟨priv, rfl⟩
    exact ⟨rfl, rfl⟩
  · rintro a b ha ⟨a₁, priv, mei, mti, msi, hrun, hint⟩
    refine ⟨rvCoreProcessInterrupts_pendingTrap hint, ?_⟩
    have hx : a₁.x 0 = 0 := rvCoreRun_x_zero ha.x_zero hrun
    rw [rvCoreProcessInterrupts_frame hint]
    exact hx

end RiscvEm
