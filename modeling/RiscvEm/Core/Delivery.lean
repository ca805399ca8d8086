import RiscvEm.Core.Reach

/-!
The delivery of traps: a synchronous trap is served by the interrupt processing
that follows its instruction, and an interrupt is taken when its cause, its
delegation and the status word say so.
-/

namespace RiscvEm

variable {w : Xlen} {σ : Type}

/-! ### Pending bits -/

theorem trapSetPendingBit_reg (irq : Nat) (line : Byte) (t : Trap w) (l : TrapLevel)
    {r : TrapReg} (hr : r ≠ .ip) : (trapSetPendingBit irq line t).reg l r = t.reg l r := by
  rw [trapSetPendingBit]
  split
  · rw [Trap.reg_setReg, if_neg (fun h => hr h.1)]
  · rfl

theorem trapSetPendingBits_reg (t : Trap w) (mei mti msi : Byte) (l : TrapLevel) {r : TrapReg}
    (hr : r ≠ .ip) : (trapSetPendingBits t mei mti msi).reg l r = t.reg l r := by
  simp only [trapSetPendingBits, trapSetPendingBit_reg _ _ _ _ hr]

theorem getLsbD_trapSetPendingBit {irq : Nat} (hirq : irq < 32) (line : Byte) (t : Trap w)
    (k : Nat) :
    ((trapSetPendingBit irq line t).reg .m .ip).getLsbD k =
      if k = irq ∧ (t.reg .m .ie).getLsbD irq = true then line.getLsbD 0
      else (t.reg .m .ip).getLsbD k := by
  have hn := w.bits_ge
  rw [trapSetPendingBit, checkBit_eq_getLsbD]
  cases hie : (t.reg .m .ie).getLsbD irq with
  | false => simp only [Bool.false_eq_true, and_false, if_false]
  | true =>
      have hline : (line.setWidth w.bits).getLsbD 0 = line.getLsbD 0 := by
        rw [BitVec.getLsbD_setWidth, decide_eq_true (by omega : 0 < w.bits), Bool.true_and]
      rw [if_pos rfl, Trap.reg_setReg, if_pos ⟨rfl, .inl rfl⟩,
        getLsbD_assignXlenBit (by omega) _ _ _ _ (by omega), hline]
      simp only [and_true]

def interruptLine (mei mti msi : Byte) (cause : Nat) : Option Byte :=
  if cause = trapCauseMachineSwi then some msi
  else if cause = trapCauseMachineTi then some mti
  else if cause = trapCauseSuperExti ∨ cause = trapCauseMachineExti then some mei
  else none

/-- An enabled cause with a line is pending just when the line is asserted. -/
theorem getLsbD_trapSetPendingBits {t : Trap w} {mei mti msi line : Byte} {cause : Nat}
    (hline : interruptLine mei mti msi cause = some line)
    (hie : (t.reg .m .ie).getLsbD cause = true) :
    ((trapSetPendingBits t mei mti msi).reg .m .ip).getLsbD cause = line.getLsbD 0 := by
  have hne : (.ie : TrapReg) ≠ .ip := by decide
  simp only [trapSetPendingBits,
    getLsbD_trapSetPendingBit (show trapCauseMachineSwi < 32 by decide),
    getLsbD_trapSetPendingBit (show trapCauseMachineTi < 32 by decide),
    getLsbD_trapSetPendingBit (show trapCauseSuperExti < 32 by decide),
    getLsbD_trapSetPendingBit (show trapCauseMachineExti < 32 by decide),
    trapSetPendingBit_reg _ _ _ _ hne]
  rw [interruptLine] at hline
  split at hline
  · next hc =>
      obtain rfl := Option.some.inj hline
      rw [if_pos ⟨hc, hc ▸ hie⟩]
  · next hswi =>
      rw [if_neg (fun h => hswi h.1)]
      split at hline
      · next hc =>
          obtain rfl := Option.some.inj hline
          rw [if_pos ⟨hc, hc ▸ hie⟩]
      · next hti =>
          rw [if_neg (fun h => hti h.1)]
          split at hline
          · next hc =>
              obtain rfl := Option.some.inj hline
              rcases hc with hc | hc
              · rw [if_pos ⟨hc, hc ▸ hie⟩]
              · rw [if_pos (c := cause = trapCauseMachineExti ∧ _) ⟨hc, hc ▸ hie⟩, ite_self]
          · cases hline

/-- The pending bit of a cause that is not enabled is left as it was. -/
theorem getLsbD_trapSetPendingBits_of_disabled {t : Trap w} (mei mti msi : Byte) {cause : Nat}
    (hie : (t.reg .m .ie).getLsbD cause = false) :
    ((trapSetPendingBits t mei mti msi).reg .m .ip).getLsbD cause =
      (t.reg .m .ip).getLsbD cause := by
  have hne : (.ie : TrapReg) ≠ .ip := by decide
  have hoff {irq : Nat} : ¬ (cause = irq ∧ (t.reg .m .ie).getLsbD irq = true) := by
    rintro ⟨rfl, hon⟩
    rw [hie] at hon
    cases hon
  simp only [trapSetPendingBits,
    getLsbD_trapSetPendingBit (show trapCauseMachineSwi < 32 by decide),
    getLsbD_trapSetPendingBit (show trapCauseMachineTi < 32 by decide),
    getLsbD_trapSetPendingBit (show trapCauseSuperExti < 32 by decide),
    getLsbD_trapSetPendingBit (show trapCauseMachineExti < 32 by decide),
    trapSetPendingBit_reg _ _ _ _ hne, if_neg hoff]

/-! ### Trap entry -/

/-- The trap with cause `c` and value `v`, raised at address `a` in mode `p` of the
core `s`, has been entered at level `y` of the core `s'`. -/
structure TrapDelivered (s s' : RvCore w σ) (p y : PrivilegeLevel) (a c v : RvUintXlen w) :
    Prop where
  mode : s'.currPrivMode = y
  epc : s'.trap.reg y.trapLevel .epc = a
  cause : s'.trap.reg y.trapLevel .cause = c
  tval : s'.trap.reg y.trapLevel .tval = v
  pc : s'.pc = s.trap.reg y.trapLevel .tvec
  previousEnable : s'.status.getLsbD (trapXstatusUpieBit + y.toInt.toNat) =
    s.status.getLsbD y.toInt.toNat
  enable : s'.status.getLsbD y.toInt.toNat = false
  mpp : y = .machine → PrivilegeLevel.ofField (extract s'.status trapXstatusMppBit 2).toNat = p
  spp : y = .supervisor → PrivilegeLevel.ofField (extract s'.status trapXstatusSppBit 1).toNat = p
  otherStatus : ∀ k, k ≠ y.toInt.toNat → k ≠ trapXstatusUpieBit + y.toInt.toNat →
    (y = .machine → k ≠ trapXstatusMppBit ∧ k ≠ trapXstatusMppBit + 1) →
    (y = .supervisor → k ≠ trapXstatusSppBit) → s'.status.getLsbD k = s.status.getLsbD k
  pending : s'.syncTrapPending = false

theorem served_status (s : RvCore w σ) (y : PrivilegeLevel) (isInterrupt : Bool)
    (cause : RvUintXlen w) :
    (s.served y isInterrupt cause).status = servedStatus s.status y s.currPrivMode := by
  simp only [RvCore.served, RvCore.status, servedTrap, Trap.reg_setReg, TrapReg.shared,
    reduceCtorEq, false_and, true_and, or_true, if_false, if_true]

theorem served_delivered (s : RvCore w σ) {y : PrivilegeLevel} (hs : s.currPrivMode.Legal)
    (hy : y.Legal) (hle : s.currPrivMode ≤ y) (isInterrupt : Bool) (cause : RvUintXlen w)
    {s' : RvCore w σ} (htrap : s'.trap = (s.served y isInterrupt cause).trap)
    (hmode : s'.currPrivMode = y) (hpc : s'.pc = s.trap.reg y.trapLevel .tvec)
    (hpending : s'.syncTrapPending = false) :
    TrapDelivered s s' s.currPrivMode y (if isInterrupt then s.pc else s.pc - 4)
      ((BitVec.ofNat w.bits isInterrupt.toNat <<< (w.bits - 1)) ||| cause) s.syncTrapTval := by
  have hstatus : s'.status = servedStatus s.status y s.currPrivMode := by
    rw [← served_status s y isInterrupt cause, RvCore.status, RvCore.status, htrap]
  have hrestored : restoredMode s'.status y = s.currPrivMode := by
    rw [hstatus]
    exact restoredMode_servedStatus s.status hy hs.user_le hle
  constructor
  case mode => exact hmode
  case epc =>
    rw [htrap]
    simp only [RvCore.served, servedTrap, Trap.reg_setReg, reduceCtorEq, false_and, true_and,
      true_or, if_false, if_true]
  case cause =>
    rw [htrap]
    simp only [RvCore.served, servedTrap, Trap.reg_setReg, reduceCtorEq, false_and, true_and,
      true_or, if_false, if_true]
  case tval =>
    rw [htrap]
    simp only [RvCore.served, servedTrap, Trap.reg_setReg, true_and, true_or, if_true]
  case pc => exact hpc
  case previousEnable =>
    rw [hstatus, getLsbD_servedStatus _ hy, if_neg (by simp only [trapXstatusUpieBit]; omega),
      if_pos rfl]
  case enable => rw [hstatus, getLsbD_servedStatus _ hy, if_pos rfl]
  case mpp =>
    rintro rfl
    exact hrestored
  case spp =>
    rintro rfl
    exact hrestored
  case otherStatus =>
    intro k hie hpie hmpp hspp
    rw [hstatus, getLsbD_servedStatus _ hy, if_neg hie, if_neg hpie,
      if_neg (fun h => h.2.elim (hmpp h.1).1 (hmpp h.1).2), if_neg (fun h => hspp h.1 h.2)]
  case pending => exact hpending

theorem servedSync_delivered (s : RvCore w σ) {y : PrivilegeLevel} (hs : s.currPrivMode.Legal)
    (hy : y.Legal) (hle : s.currPrivMode ≤ y) :
    TrapDelivered s (s.servedSync y) s.currPrivMode y (s.pc - 4) s.syncTrapCause
      s.syncTrapTval := by
  have hdelivered : TrapDelivered s (s.servedSync y) s.currPrivMode y (s.pc - 4)
      ((BitVec.ofNat w.bits false.toNat <<< (w.bits - 1)) ||| s.syncTrapCause) s.syncTrapTval :=
    served_delivered s hs hy hle false s.syncTrapCause rfl rfl rfl rfl
  have hcause : (BitVec.ofNat w.bits false.toNat <<< (w.bits - 1)) ||| s.syncTrapCause =
      s.syncTrapCause := by simp
  rw [hcause] at hdelivered
  exact hdelivered

/-- The trap registers other than the pending bits are those from which it was raised. -/
theorem TrapDelivered.of_reg {s t s' : RvCore w σ} {p y : PrivilegeLevel}
    {a c v : RvUintXlen w} (h : TrapDelivered t s' p y a c v)
    (hreg : ∀ l r, r ≠ .ip → t.trap.reg l r = s.trap.reg l r) :
    TrapDelivered s s' p y a c v := by
  have hstatus : t.status = s.status := hreg .m .status (by decide)
  exact {
    h with
    pc := h.pc.trans (hreg _ _ (by decide))
    previousEnable := hstatus ▸ h.previousEnable
    otherStatus := hstatus ▸ h.otherStatus }

/-! ### Interrupts -/

theorem interruptTarget_setPendingBits (t : Trap w) (mei mti msi : Byte) (irq : Nat) :
    interruptTarget (trapSetPendingBits t mei mti msi) irq = interruptTarget t irq := by
  have hne : (.ideleg : TrapReg) ≠ .ip := by decide
  simp only [interruptTarget, trapSetPendingBits_reg t mei mti msi _ hne]

theorem XieBetween.le {status : RvUintXlen w} {p y : PrivilegeLevel} (h : XieBetween status p y) :
    p ≤ y := by
  obtain ⟨k, -, hlow, hhigh, -⟩ := h
  exact PrivilegeLevel.le_def.mpr (by omega)

/-- From a mode to itself there is only its own bit. -/
theorem XieBetween.self {status : RvUintXlen w} {p : PrivilegeLevel} (h : XieBetween status p p) :
    status.getLsbD p.toInt.toNat = true := by
  obtain ⟨k, -, hlow, hhigh, hbit⟩ := h
  have hk : p.toInt.toNat = k := by omega
  rw [hk]
  exact hbit

theorem mem_interruptCauses {c : Nat} : c ∈ interruptCauses ↔ c ≤ 11 := by
  rw [interruptCauses, List.mem_reverse, List.mem_range]
  exact Nat.lt_succ_iff

theorem rvCoreProcessInterrupts_of_find {s : RvCore w σ} (hs : s.currPrivMode.Legal)
    (hpending : s.syncTrapPending = false) {mei mti msi : Byte} {c : Nat}
    (hfind : (interruptCauses.find? fun cause =>
      InterruptTaken (trapSetPendingBits s.trap mei mti msi) s.currPrivMode cause) = some c) :
    rvCoreProcessInterrupts mei mti msi s =
      .ok ((rvCoreUpdateInterrupts s mei mti msi).served (interruptTarget s.trap c) true
        (BitVec.ofNat w.bits c)) := by
  rw [rvCoreProcessInterrupts_of_not_pending hpending, interruptTrap,
    if_neg (by rw [hpending]; decide), takenInterrupt_eq _ hs, hfind, Option.map_some,
    interruptTarget_setPendingBits]
  exact serveTrap_eq _ (interruptTarget_legal _ _) _ _

/-- Without an interrupt to be taken only the pending bits are updated. -/
theorem rvCoreProcessInterrupts_none {s : RvCore w σ} (hs : s.currPrivMode.Legal)
    (hpending : s.syncTrapPending = false) {mei mti msi : Byte}
    (h : ∀ c, c ≤ 11 →
      ¬ InterruptTaken (trapSetPendingBits s.trap mei mti msi) s.currPrivMode c) :
    rvCoreProcessInterrupts mei mti msi s = .ok (rvCoreUpdateInterrupts s mei mti msi) := by
  have hnone : (interruptCauses.find? fun cause =>
      InterruptTaken (trapSetPendingBits s.trap mei mti msi) s.currPrivMode cause) = none :=
    List.find?_eq_none.mpr fun c hc htaken =>
      h c (mem_interruptCauses.mp hc) (of_decide_eq_true htaken)
  rw [rvCoreProcessInterrupts_of_not_pending hpending, interruptTrap,
    if_neg (by rw [hpending]; decide), takenInterrupt_eq _ hs, hnone]
  rfl

/-- A call without a synchronous trap takes an interrupt if there is one to be taken. -/
theorem rvCoreProcessInterrupts_taken_or_none {s : RvCore w σ} (hs : s.currPrivMode.Legal)
    (hpending : s.syncTrapPending = false) (mei mti msi : Byte) :
    (∃ c, c ≤ 11 ∧ InterruptTaken (trapSetPendingBits s.trap mei mti msi) s.currPrivMode c ∧
      rvCoreProcessInterrupts mei mti msi s =
        .ok ((rvCoreUpdateInterrupts s mei mti msi).served (interruptTarget s.trap c) true
          (BitVec.ofNat w.bits c))) ∨
    ((∀ c, c ≤ 11 →
        ¬ InterruptTaken (trapSetPendingBits s.trap mei mti msi) s.currPrivMode c) ∧
      rvCoreProcessInterrupts mei mti msi s = .ok (rvCoreUpdateInterrupts s mei mti msi)) := by
  cases hfind : interruptCauses.find? fun cause =>
      InterruptTaken (trapSetPendingBits s.trap mei mti msi) s.currPrivMode cause with
  | some c =>
      have htaken := List.find?_some hfind
      exact .inl ⟨c, mem_interruptCauses.mp (List.mem_of_find?_eq_some hfind),
        of_decide_eq_true htaken, rvCoreProcessInterrupts_of_find hs hpending hfind⟩
  | none =>
      have hnot (c : Nat) (hc : c ≤ 11) :
          ¬ InterruptTaken (trapSetPendingBits s.trap mei mti msi) s.currPrivMode c :=
        fun htaken => List.find?_eq_none.mp hfind c (mem_interruptCauses.mpr hc)
          (decide_eq_true htaken)
      exact .inr ⟨hnot, rvCoreProcessInterrupts_none hs hpending hnot⟩

/-- The interrupt `c`, taken in the core `s`, has been entered at level `y` of the core `s'`,
which is another mode or had its interrupts enabled. -/
structure InterruptEntered (s s' : RvCore w σ) (c : Nat) (y : PrivilegeLevel) : Prop where
  delivered : TrapDelivered s s' s.currPrivMode y s.pc
    ((1#w.bits <<< (w.bits - 1)) ||| BitVec.ofNat w.bits c) s.syncTrapTval
  entered : y ≠ s.currPrivMode ∨ s.status.getLsbD y.toInt.toNat = true

theorem served_entered {s : RvCore w σ} (hs : s.currPrivMode.Legal)
    (hpending : s.syncTrapPending = false) {mei mti msi : Byte} {c : Nat}
    (htaken : InterruptTaken (trapSetPendingBits s.trap mei mti msi) s.currPrivMode c) :
    InterruptEntered s ((rvCoreUpdateInterrupts s mei mti msi).served (interruptTarget s.trap c)
      true (BitVec.ofNat w.bits c)) c (interruptTarget s.trap c) := by
  obtain ⟨-, -, -, hxie⟩ := htaken
  rw [interruptTarget_setPendingBits, trapSetPendingBits_reg _ _ _ _ _ (by decide)] at hxie
  constructor
  case delivered =>
    have hdelivered := served_delivered (rvCoreUpdateInterrupts s mei mti msi) hs
      (interruptTarget_legal s.trap c) hxie.le true (BitVec.ofNat w.bits c) rfl rfl rfl hpending
    exact hdelivered.of_reg fun l _ hr => trapSetPendingBits_reg _ _ _ _ l hr
  case entered =>
    by_cases hy : interruptTarget s.trap c = s.currPrivMode
    · rw [← hy] at hxie
      exact .inr hxie.self
    · exact .inl hy

theorem not_interruptEntered_update {s : RvCore w σ} {mei mti msi : Byte} {c : Nat}
    {y : PrivilegeLevel} : ¬ InterruptEntered s (rvCoreUpdateInterrupts s mei mti msi) c y := by
  rintro ⟨hdelivered, hmode | henabled⟩
  · exact hmode hdelivered.mode.symm
  · have hstatus : (rvCoreUpdateInterrupts s mei mti msi).status = s.status :=
      trapSetPendingBits_reg _ _ _ _ _ (by decide)
    have hdisabled := hdelivered.enable
    rw [hstatus, henabled] at hdisabled
    cases hdisabled

/-- A call that changes more than the pending bits has entered an interrupt, which is pending
and enabled, whose line is asserted, and whose delegation target is the level that is entered:
not below the current mode, enabled if it is that mode, and with the instruction that comes
next to return to. -/
theorem interrupt_sound (s : RvCore w σ) (hs : s.currPrivMode.Legal)
    (hpending : s.syncTrapPending = false) (mei mti msi : Byte) {s' : RvCore w σ}
    (h : rvCoreProcessInterrupts mei mti msi s = .ok s')
    (hchange : s' ≠ rvCoreUpdateInterrupts s mei mti msi) :
    let t := trapSetPendingBits s.trap mei mti msi
    ∃ c y, InterruptEntered s s' c y ∧ c ≤ 11 ∧
      (t.reg .m .ie).getLsbD c = true ∧ (t.reg .m .ip).getLsbD c = true ∧
      (∀ line, interruptLine mei mti msi c = some line → line.getLsbD 0 = true) ∧
      y = interruptTarget s.trap c ∧ s.currPrivMode ≤ y ∧
      (y = s.currPrivMode → s.status.getLsbD y.toInt.toNat = true) ∧
      s'.trap.reg y.trapLevel .epc = s.pc := by
  intro t
  rcases rvCoreProcessInterrupts_taken_or_none hs hpending mei mti msi with
    ⟨c, hc, htaken, hcall⟩ | ⟨-, hcall⟩
  · obtain rfl := Except.ok.inj (h.symm.trans hcall)
    have hentered := served_entered hs hpending htaken
    have hie : t.reg .m .ie = s.trap.reg .m .ie := trapSetPendingBits_reg _ _ _ _ _ (by decide)
    obtain ⟨hip, hen, -, hxie⟩ := htaken
    rw [interruptTarget_setPendingBits] at hxie
    refine ⟨c, _, hentered, hc, hen, hip, fun line hline => ?_, rfl, hxie.le, fun hy => ?_,
      hentered.delivered.epc⟩
    · rw [← getLsbD_trapSetPendingBits hline (hie ▸ hen)]
      exact hip
    · exact hentered.entered.resolve_left fun hne => hne hy
  · exact absurd (Except.ok.inj (h.symm.trans hcall)) hchange

def timerEnabled (mode : PrivilegeLevel) (status : BitVec 32) : RvCore .rv32 Unit :=
  { rvCoreInit () with
    currPrivMode := mode
    trap := { ({} : Trap .rv32) with
      shared := { status := status, ie := 1#32 <<< trapCauseMachineTi, ip := 0 } } }

theorem interrupt_sound_timer :
    ∃ s' c y, rvCoreProcessInterrupts 0 1 0 (timerEnabled .supervisor 2) = .ok s' ∧
      InterruptEntered (timerEnabled .supervisor 2) s' c y ∧
      y = interruptTarget (timerEnabled .supervisor 2).trap c := by
  obtain ⟨s', hs', hmode⟩ := Except.exists_of_any_toOption
    (show ((rvCoreProcessInterrupts 0 1 0 (timerEnabled .supervisor 2)).toOption.any
      fun s' => s'.currPrivMode == .machine) = true by decide)
  have hchange : s' ≠ rvCoreUpdateInterrupts (timerEnabled .supervisor 2) 0 1 0 := by
    rintro rfl
    exact absurd hmode (by decide)
  obtain ⟨c, y, hentered, -, -, -, -, hy, -⟩ := interrupt_sound (timerEnabled .supervisor 2)
    (.inr (.inl rfl)) rfl 0 1 0 hs' hchange
  exact ⟨s', c, y, hs', hentered, hy⟩

/-- An interrupt is entered just when some cause is pending, enabled and not delegated away,
with an enable bit set between the current mode and its target. -/
theorem interrupt_taken_iff (s : RvCore w σ) (hs : s.currPrivMode.Legal)
    (hpending : s.syncTrapPending = false) (mei mti msi : Byte) :
    (∃ s' c y, rvCoreProcessInterrupts mei mti msi s = .ok s' ∧ InterruptEntered s s' c y) ↔
      ∃ c, c ≤ 11 ∧ InterruptTaken (trapSetPendingBits s.trap mei mti msi) s.currPrivMode c := by
  rcases rvCoreProcessInterrupts_taken_or_none hs hpending mei mti msi with
    ⟨c, hc, htaken, hcall⟩ | ⟨hnone, hcall⟩
  · exact iff_of_true ⟨_, c, _, hcall, served_entered hs hpending htaken⟩ ⟨c, hc, htaken⟩
  · refine iff_of_false ?_ fun ⟨c, hc, htaken⟩ => hnone c hc htaken
    rintro ⟨s', c, y, hcall', hentered⟩
    obtain rfl := Except.ok.inj (hcall'.symm.trans hcall)
    exact not_interruptEntered_update hentered

theorem interrupt_taken_iff_timer :
    ∃ s' c y, rvCoreProcessInterrupts 0 1 0 (timerEnabled .machine 8) = .ok s' ∧
      InterruptEntered (timerEnabled .machine 8) s' c y :=
  (interrupt_taken_iff (timerEnabled .machine 8) (.inr (.inr rfl)) rfl 0 1 0).mpr
    ⟨7, by decide, by decide⟩

/-- The machine timer is not taken in supervisor mode while all enable bits are
clear, although its target is the higher mode. -/
theorem higher_interrupt_not_taken :
    ¬ ∀ (s : RvCore .rv32 Unit) (mei mti msi : Byte), s.currPrivMode.Legal →
      s.syncTrapPending = false →
      (∃ c, c ≤ 11 ∧
        let t := trapSetPendingBits s.trap mei mti msi
        (t.reg .m .ie).getLsbD c = true ∧ (t.reg .m .ip).getLsbD c = true ∧
          (s.currPrivMode < interruptTarget t c ∨ (s.currPrivMode = interruptTarget t c ∧
            s.status.getLsbD s.currPrivMode.toInt.toNat = true))) →
      ∃ s' c y, rvCoreProcessInterrupts mei mti msi s = .ok s' ∧ InterruptEntered s s' c y := by
  intro h
  have hpremise : (7 ≤ 11 ∧
      let t := trapSetPendingBits (timerEnabled .supervisor 0).trap 0 1 0
      (t.reg .m .ie).getLsbD 7 = true ∧ (t.reg .m .ip).getLsbD 7 = true ∧
        (PrivilegeLevel.supervisor < interruptTarget t 7 ∨
          (PrivilegeLevel.supervisor = interruptTarget t 7 ∧ false = true))) := by
    decide
  obtain ⟨s', c, y, hcall, hentered⟩ :=
    h (timerEnabled .supervisor 0) 0 1 0 (.inr (.inl rfl)) rfl ⟨7, hpremise⟩
  obtain ⟨s'', hcall', hmode⟩ := Except.exists_of_any_toOption
    (show ((rvCoreProcessInterrupts 0 1 0 (timerEnabled .supervisor 0)).toOption.any
      fun s' => s'.currPrivMode == .supervisor && s'.status == 0) = true by decide)
  obtain rfl := Except.ok.inj (hcall.symm.trans hcall')
  -- the mode is still the same, and its interrupts were not enabled
  rw [Bool.and_eq_true, beq_iff_eq] at hmode
  rcases hentered.entered with hne | henabled
  · exact hne (hentered.delivered.mode.symm.trans hmode.1)
  · have hy : y = .supervisor := hentered.delivered.mode.symm.trans hmode.1
    rw [hy] at henabled
    cases henabled

/-! ### Synchronous traps -/

/-- An instruction that leaves a trap pending has neither jumped nor changed the
mode. -/
theorem rvCoreRun_of_pending {busAccess : BusAccessFunc w σ} {s s' : RvCore w σ}
    (hs : s.pendingTrap = none) (h : rvCoreRun busAccess s = .ok s')
    (hpending : s'.syncTrapPending = true) :
    s'.pc = s.pc + 4 ∧ s'.currPrivMode = s.currPrivMode := by
  have hadvance (e : RvCore w σ) (hnext : e.nextPc = 0) (hpc : e.pc = s.pc) :
      (advance e).pc = s.pc + 4 := by
    show (if e.nextPc ≠ 0 then e.nextPc else e.pc + 4) = s.pc + 4
    rw [hnext, if_neg (fun hne => hne rfl), hpc]
  rcases rvCoreRun_cases h with ⟨f, hfetch, rfl⟩ | ⟨cb, d, e, hexec, hhandler, rfl⟩
  · have hframe : SetupFrame s.atFetch f := rvCoreFetch_frame hfetch
    refine ⟨hadvance f (rvCoreFetch_nextPc hfetch) (by rw [hframe]; rfl), ?_⟩
    show f.currPrivMode = s.currPrivMode
    rw [hframe]
    rfl
  · have hnone : d.syncTrapPending = false := pendingTrap_eq_none.mp (hexec.pendingTrap hs)
    have hnext : d.nextPc = 0 := hexec.nextPc
    have hpc : d.pc = s.pc := by rw [hexec.frame]
    have hmode : d.currPrivMode = s.currPrivMode := by rw [hexec.frame]
    have hkept : e.nextPc = d.nextPc ∧ e.pc = d.pc ∧ e.currPrivMode = d.currPrivMode := by
      have hraised : e.syncTrapPending = true := hpending
      rw [handler_pending_frame hnone hraised hhandler]
      exact ⟨rfl, rfl, rfl⟩
    exact ⟨hadvance (e.setX 0 0) (hkept.1.trans hnext) (hkept.2.1.trans hpc),
      hkept.2.2.trans hmode⟩

/-- A trap left pending by an instruction at the head of the loop is served by the
interrupt processing that follows, whatever the lines are, and no interrupt is. -/
theorem sync_trap_delivered (busAccess : BusAccessFunc w σ) {s s₁ : RvCore w σ}
    (hs : LoopReachable busAccess s) (hmode : s.currPrivMode.Legal)
    (hrun : rvCoreRun busAccess s = .ok s₁) (hpending : s₁.syncTrapPending = true)
    (priv : σ) (mei mti msi : Byte) :
    let y := exceptionTarget s₁.trap s.currPrivMode s₁.syncTrapCause.toNat
    s.currPrivMode ≤ y ∧ interruptTrap { s₁ with priv := priv } mei mti msi = .ok none ∧
      ∃ s₂, rvCoreProcessInterrupts mei mti msi { s₁ with priv := priv } = .ok s₂ ∧
        TrapDelivered s₁ s₂ s.currPrivMode y s.pc s₁.syncTrapCause s₁.syncTrapTval := by
  intro y
  obtain ⟨hpc, hmode₁⟩ := rvCoreRun_of_pending hs.ready.pendingTrap hrun hpending
  have hle : s.currPrivMode ≤ y := le_exceptionTarget s₁.trap hmode _
  have hlegal : ({ s₁ with priv := priv } : RvCore w σ).currPrivMode.Legal := by
    show s₁.currPrivMode.Legal
    rw [hmode₁]
    exact hmode
  let u := rvCoreUpdateInterrupts { s₁ with priv := priv } mei mti msi
  have hreg (l : TrapLevel) {r : TrapReg} (hr : r ≠ .ip) : u.trap.reg l r = s₁.trap.reg l r :=
    trapSetPendingBits_reg s₁.trap mei mti msi l hr
  have htarget : exceptionTarget u.trap s₁.currPrivMode s₁.syncTrapCause.toNat = y := by
    show exceptionTarget u.trap s₁.currPrivMode _ = exceptionTarget s₁.trap s.currPrivMode _
    simp only [exceptionTarget, hmode₁, hreg _ (show (.edeleg : TrapReg) ≠ .ip by decide)]
  have hdelivered : TrapDelivered u (u.servedSync y) s₁.currPrivMode y (s₁.pc - 4)
      s₁.syncTrapCause s₁.syncTrapTval :=
    servedSync_delivered u hlegal (exceptionTarget_legal _ _ _) (hmode₁ ▸ hle)
  have hepc : s₁.pc - 4 = s.pc := by rw [hpc, BitVec.add_sub_cancel]
  rw [hmode₁, hepc] at hdelivered
  refine ⟨hle, if_pos hpending, u.servedSync y, ?_, ?_⟩
  · rw [rvCoreProcessInterrupts_of_pending hlegal hpending]
    exact congrArg (fun y => Except.ok (u.servedSync y)) htarget
  · exact hdelivered.of_reg fun l _ hr => hreg l hr

/-- An environment call right after the start. -/
theorem sync_trap_delivered_ecall :
    ∃ s₁ s₂, rvCoreRun (romBus [0x00000073]) (rvCoreInit () : RvCore .rv32 Unit) = .ok s₁ ∧
      rvCoreProcessInterrupts 1 1 1 s₁ = .ok s₂ ∧ s₂.trap.reg .m .epc = 0x1000#32 := by
  have hcheck : (rvCoreRun (romBus [0x00000073])
      (rvCoreInit () : RvCore .rv32 Unit)).toOption.any (fun s => s.syncTrapPending) = true := by
    decide +kernel
  obtain ⟨s₁, hrun, hpending⟩ := Except.exists_of_any_toOption hcheck
  obtain ⟨-, -, s₂, hs₂, hdelivered⟩ := sync_trap_delivered (romBus [0x00000073])
    (Transition.Reachable.of_init ⟨(), rfl⟩) (.inr (.inr rfl)) hrun hpending () 1 1 1
  exact ⟨s₁, s₂, hrun, hs₂, hdelivered.epc⟩

end RiscvEm
