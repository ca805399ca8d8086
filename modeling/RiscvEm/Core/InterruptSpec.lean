import RiscvEm.Core.AccessSpec
import RiscvEm.Core.Run
import RiscvEm.Trap.Spec

/-!
What one call of `rv_core_process_interrupts` can do: it enters the level of the
pending synchronous trap, or that of the first interrupt to be taken, or it leaves
the core alone.
-/

namespace RiscvEm

variable {w : Xlen} {σ : Type}

/-! ### Trap entry -/

def RvCore.served (s : RvCore w σ) (serving : PrivilegeLevel) (isInterrupt : Bool)
    (cause : RvUintXlen w) : RvCore w σ :=
  { s with
    pc := s.trap.reg serving.trapLevel .tvec
    trap := servedTrap s.trap serving s.currPrivMode isInterrupt cause s.pc s.syncTrapTval
    currPrivMode := serving }

theorem serveTrap_eq (s : RvCore w σ) {serving : PrivilegeLevel} (hserving : serving.Legal)
    (isInterrupt : Bool) (cause : RvUintXlen w) :
    serveTrap s serving isInterrupt cause = .ok (s.served serving isInterrupt cause) := by
  rw [serveTrap, trapServeInterrupt_eq _ hserving]
  rfl

theorem serveTrap_eq_ok {s s' : RvCore w σ} {serving : PrivilegeLevel} {isInterrupt : Bool}
    {cause : RvUintXlen w} (h : serveTrap s serving isInterrupt cause = .ok s') :
    serving.Legal ∧ s' = s.served serving isInterrupt cause := by
  have hserving : serving.Legal := by
    rw [serveTrap, trapServeInterrupt] at h
    cases serving with
    | user => exact .inl rfl
    | supervisor => exact .inr (.inl rfl)
    | machine => exact .inr (.inr rfl)
    | unknown => cases h
    | reserved => cases h
  rw [serveTrap_eq s hserving] at h
  exact ⟨hserving, (Except.ok.inj h).symm⟩

theorem RvCore.served_tvec (s : RvCore w σ) (serving : PrivilegeLevel) (isInterrupt : Bool)
    (cause : RvUintXlen w) (l : TrapLevel) :
    (s.served serving isInterrupt cause).trap.reg l .tvec = s.trap.reg l .tvec := by
  simp only [RvCore.served, servedTrap, Trap.reg_setReg, reduceCtorEq, false_and, if_false]

/-! ### The interrupt that is taken -/

/-- The first of the causes still to be looked at for which an interrupt is taken,
and the level that serves it. -/
def takenInterrupt (trap : Trap w) (curr : PrivilegeLevel) :
    List Nat → Except Stop (Option (Nat × PrivilegeLevel))
  | [] => .ok none
  | cause :: rest => do
      match ← trapCheckInterruptPending trap curr cause with
      | some serving => .ok (some (cause, serving))
      | none => takenInterrupt trap curr rest

/-- The loop enters the level of the interrupt that is taken. -/
theorem interruptLoop_eq (s : RvCore w σ) (causes : List Nat) :
    interruptLoop s causes = (do
      match ← takenInterrupt s.trap s.currPrivMode causes with
      | some (cause, serving) => serveTrap s serving true (BitVec.ofNat w.bits cause)
      | none => .ok s) := by
  induction causes with
  | nil => rfl
  | cons cause rest ih =>
      rw [interruptLoop, takenInterrupt]
      cases hcheck : trapCheckInterruptPending s.trap s.currPrivMode cause with
      | error e => rfl
      | ok serving =>
          cases serving with
          | none => exact ih
          | some serving => rfl

/-- At a legal mode the first cause for which an interrupt is taken goes to its
target. -/
theorem takenInterrupt_eq (trap : Trap w) {curr : PrivilegeLevel} (hcurr : curr.Legal)
    (causes : List Nat) :
    takenInterrupt trap curr causes =
      .ok ((causes.find? fun cause => InterruptTaken trap curr cause).map
        fun cause => (cause, interruptTarget trap cause)) := by
  induction causes with
  | nil => rfl
  | cons cause rest ih =>
      rw [takenInterrupt, trapCheckInterruptPending_eq trap hcurr]
      by_cases htaken : InterruptTaken trap curr cause
      · simp only [List.find?_cons, htaken, if_true, decide_true]
        rfl
      · simp only [List.find?_cons, htaken, if_false, decide_false]
        exact ih

def interruptTrap (s : RvCore w σ) (mei mti msi : Byte) :
    Except Stop (Option (Nat × PrivilegeLevel)) :=
  if s.syncTrapPending then .ok none
  else takenInterrupt (trapSetPendingBits s.trap mei mti msi) s.currPrivMode interruptCauses

/-! ### The whole call -/

def RvCore.servedSync (s : RvCore w σ) (serving : PrivilegeLevel) : RvCore w σ :=
  { s.served serving false s.syncTrapCause with
    syncTrapPending := false, syncTrapCause := 0, syncTrapTval := 0 }

/-- A call that returns has entered a legal level or left the core alone. -/
theorem rvCorePrepareInterrupts_cases {s s' : RvCore w σ}
    (h : rvCorePrepareInterrupts s = .ok s') :
    (s.syncTrapPending = true ∧ ∃ serving, serving.Legal ∧ s' = s.servedSync serving) ∨
      (s.syncTrapPending = false ∧ (s' = s ∨ ∃ serving cause, serving.Legal ∧
        s' = s.served serving true cause)) := by
  rw [rvCorePrepareInterrupts] at h
  cases hpending : s.syncTrapPending with
  | true =>
      rw [if_pos hpending, Except.bind_eq_ok] at h
      obtain ⟨serving, -, h⟩ := h
      obtain ⟨u, hserve, h⟩ := Except.bind_eq_ok.mp h
      obtain ⟨hserving, rfl⟩ := serveTrap_eq_ok hserve
      exact .inl ⟨rfl, serving, hserving, (Except.ok.inj h).symm⟩
  | false =>
      rw [if_neg (by rw [hpending]; decide), interruptLoop_eq] at h
      obtain ⟨taken, -, h⟩ := Except.bind_eq_ok.mp h
      refine .inr ⟨rfl, ?_⟩
      cases taken with
      | none => exact .inl (Except.ok.inj h).symm
      | some t =>
          obtain ⟨hserving, hs'⟩ := serveTrap_eq_ok h
          exact .inr ⟨_, _, hserving, hs'⟩

def InterruptFrame (s s' : RvCore w σ) : Prop :=
  s' = { s with
    pc := s'.pc, trap := s'.trap, currPrivMode := s'.currPrivMode
    syncTrapPending := s'.syncTrapPending
    syncTrapCause := s'.syncTrapCause
    syncTrapTval := s'.syncTrapTval }

theorem rvCoreProcessInterrupts_frame {s s' : RvCore w σ} {mei mti msi : Byte}
    (h : rvCoreProcessInterrupts mei mti msi s = .ok s') : InterruptFrame s s' := by
  rcases rvCorePrepareInterrupts_cases h with
    ⟨-, serving, -, rfl⟩ | ⟨-, rfl | ⟨serving, cause, -, rfl⟩⟩
  · rfl
  · rfl
  · rfl

theorem rvCoreProcessInterrupts_of_pending {s : RvCore w σ} (hs : s.currPrivMode.Legal)
    (hpending : s.syncTrapPending = true) (mei mti msi : Byte) :
    rvCoreProcessInterrupts mei mti msi s =
      .ok ((rvCoreUpdateInterrupts s mei mti msi).servedSync
        (exceptionTarget (trapSetPendingBits s.trap mei mti msi) s.currPrivMode
          s.syncTrapCause.toNat)) := by
  have hu : (rvCoreUpdateInterrupts s mei mti msi).syncTrapPending = true := hpending
  rw [rvCoreProcessInterrupts, rvCorePrepareInterrupts, if_pos hu]
  have hcheck : trapCheckExceptionDelegation (rvCoreUpdateInterrupts s mei mti msi).trap
      (rvCoreUpdateInterrupts s mei mti msi).currPrivMode
      (rvCoreUpdateInterrupts s mei mti msi).syncTrapCause = _ :=
    trapCheckExceptionDelegation_eq _ hs _
  rw [hcheck, Except.ok_bind, serveTrap_eq _ (exceptionTarget_legal _ _ _)]
  rfl

/-- Without a pending synchronous trap the call enters the level of the interrupt
that is taken, if there is one. -/
theorem rvCoreProcessInterrupts_of_not_pending {s : RvCore w σ}
    (hpending : s.syncTrapPending = false) (mei mti msi : Byte) :
    rvCoreProcessInterrupts mei mti msi s = (do
      match ← interruptTrap s mei mti msi with
      | some (cause, serving) =>
          serveTrap (rvCoreUpdateInterrupts s mei mti msi) serving true (BitVec.ofNat w.bits cause)
      | none => .ok (rvCoreUpdateInterrupts s mei mti msi)) := by
  have hu : ¬ (rvCoreUpdateInterrupts s mei mti msi).syncTrapPending = true := by
    rw [show (rvCoreUpdateInterrupts s mei mti msi).syncTrapPending = s.syncTrapPending from rfl,
      hpending]
    decide
  have hs : ¬ s.syncTrapPending = true := by
    rw [hpending]
    decide
  rw [rvCoreProcessInterrupts, rvCorePrepareInterrupts, if_neg hu, interruptLoop_eq,
    interruptTrap, if_neg hs]
  rfl

theorem rvCoreProcessInterrupts_returns {s : RvCore w σ} (hs : s.currPrivMode.Legal)
    (mei mti msi : Byte) : ∃ s', rvCoreProcessInterrupts mei mti msi s = .ok s' := by
  cases hpending : s.syncTrapPending with
  | true => exact ⟨_, rvCoreProcessInterrupts_of_pending hs hpending mei mti msi⟩
  | false =>
      rw [rvCoreProcessInterrupts_of_not_pending hpending, interruptTrap,
        if_neg (by rw [hpending]; decide), takenInterrupt_eq _ hs, Except.ok_bind]
      cases interruptCauses.find? fun cause =>
          InterruptTaken (trapSetPendingBits s.trap mei mti msi) s.currPrivMode cause with
      | none => exact ⟨_, rfl⟩
      | some cause => exact ⟨_, serveTrap_eq _ (interruptTarget_legal _ cause) _ _⟩

end RiscvEm
