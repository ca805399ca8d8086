import RiscvEm.Isa.Rounds
import RiscvEm.Trap.Nesting

/-!
Interrupts against a program: with one cause enabled, a round whose line for it is low goes on
with the program, and a round whose line is high ends with the program saved in the registers
of the level that is entered.
-/

namespace RiscvEm

variable {w : Xlen} {useSimpleUart : Bool} {A : AddressSpace w useSimpleUart}

/-! ### Entry -/

/-- The registers that the entry of a level does not write. -/
theorem served_reg {σ : Type} (s : RvCore w σ) {y : PrivilegeLevel} {isInterrupt : Bool}
    {cause : RvUintXlen w} {l : TrapLevel} {r : TrapReg} (hstatus : r ≠ .status)
    (hne : ¬ (l = y.trapLevel ∧ (r = .epc ∨ r = .cause ∨ r = .tval))) :
    (s.served y isInterrupt cause).trap.reg l r = s.trap.reg l r := by
  have hepc : ¬ (r = .epc ∧ (l = y.trapLevel ∨ TrapReg.epc.shared = true)) :=
    fun h => hne ⟨h.2.resolve_right (by decide), .inl h.1⟩
  have hcause : ¬ (r = .cause ∧ (l = y.trapLevel ∨ TrapReg.cause.shared = true)) :=
    fun h => hne ⟨h.2.resolve_right (by decide), .inr (.inl h.1)⟩
  have htval : ¬ (r = .tval ∧ (l = y.trapLevel ∨ TrapReg.tval.shared = true)) :=
    fun h => hne ⟨h.2.resolve_right (by decide), .inr (.inr h.1)⟩
  rw [RvCore.served, servedTrap, Trap.reg_setReg, if_neg htval, Trap.reg_setReg,
    if_neg fun h => hstatus h.1, Trap.reg_setReg, if_neg hcause, Trap.reg_setReg, if_neg hepc]

/-- The bits of the status word in which the entry of a level saves what it changes. -/
def SavedBit (y : PrivilegeLevel) (k : Nat) : Prop :=
  k = trapXstatusUpieBit + y.toInt.toNat ∨
    (y = .machine ∧ (k = trapXstatusMppBit ∨ k = trapXstatusMppBit + 1)) ∨
    (y = .supervisor ∧ k = trapXstatusSppBit)

/-- The mode and the trap registers are the same but for the pending bits and what the entry
of the level writes. -/
structure SameTraps {σ : Type} (y : PrivilegeLevel) (s s' : RvCore w σ) : Prop where
  mode : s'.currPrivMode = s.currPrivMode
  reg : ∀ l r, r ≠ .ip → r ≠ .status → ¬ (l = y.trapLevel ∧ (r = .epc ∨ r = .cause ∨ r = .tval)) →
    s'.trap.reg l r = s.trap.reg l r
  status : ∀ k, ¬ SavedBit y k → s'.status.getLsbD k = s.status.getLsbD k

section SameTraps

variable {σ : Type} {y : PrivilegeLevel} {s s' s'' : RvCore w σ}

theorem SameTraps.refl (y : PrivilegeLevel) (s : RvCore w σ) : SameTraps y s s :=
  ⟨rfl, fun _ _ _ _ _ => rfl, fun _ _ => rfl⟩

theorem SameTraps.trans (h : SameTraps y s s') (h' : SameTraps y s' s'') : SameTraps y s s'' :=
  ⟨h'.mode.trans h.mode, fun l r hip hstatus hne =>
    (h'.reg l r hip hstatus hne).trans (h.reg l r hip hstatus hne),
    fun k hk => (h'.status k hk).trans (h.status k hk)⟩

theorem SameTraps.of_trap (hmode : s'.currPrivMode = s.currPrivMode)
    (htrap : ∀ l r, r ≠ .ip → s'.trap.reg l r = s.trap.reg l r) : SameTraps y s s' := by
  refine ⟨hmode, fun l r hip _ _ => htrap l r hip, fun k _ => ?_⟩
  rw [RvCore.status, RvCore.status, htrap _ _ (by decide)]

theorem SameTraps.interruptTarget (h : SameTraps y s s') (cause : Nat) :
    RiscvEm.interruptTarget s'.trap cause = RiscvEm.interruptTarget s.trap cause := by
  simp only [RiscvEm.interruptTarget, h.reg _ .ideleg (by decide) (by decide) (by simp)]

theorem not_savedBit_low {k : Nat} (hk : k < 4) : ¬ SavedBit y k := by
  rw [SavedBit, trapXstatusUpieBit, trapXstatusMppBit, trapXstatusSppBit]
  omega

/-- The bits that decide about accesses are not among those that are saved. -/
theorem not_savedBit_high (hy : y.Legal) {k : Nat} (hk : 16 < k) : ¬ SavedBit y k := by
  have hlow := TrapNest.toNat_of_legal hy
  rw [SavedBit, trapXstatusUpieBit, trapXstatusMppBit, trapXstatusSppBit]
  omega

/-- With the MPRV bit clear the accesses are those of the mode. -/
theorem checkMprvOverride_of_mprvClear (h : s.MprvClear) (accessType : BusAccessType) :
    checkMprvOverride s accessType = s.currPrivMode := by
  rcases checkMprvOverride_mode s accessType with hmode | hmode
  · exact hmode
  · rw [hmode, dataMode_of_mprvClear h]

/-- The accesses are then decided by the mode and the high bits of the status word. -/
theorem sameView_of_bits {s s' : RvCore w (RvSoc Devices)}
    (hmode : s'.currPrivMode = s.currPrivMode)
    (hbit : ∀ k, 16 < k → s'.status.getLsbD k = s.status.getLsbD k) (hclear : s.MprvClear)
    (hpmp : s'.pmp = s.pmp) (hsatp : s'.mmu.satpReg = s.mmu.satpReg) : SameView s s' := by
  have hclear' : s'.MprvClear := (hbit trapXstatusMprvBit (by decide)).trans hclear
  refine ⟨fun accessType => ?_, ?_, ?_, hpmp, hsatp⟩
  · rw [checkMprvOverride_of_mprvClear hclear, checkMprvOverride_of_mprvClear hclear', hmode]
  · rw [checkBit_eq_getLsbD, checkBit_eq_getLsbD, hbit _ (by decide)]
  · rw [checkBit_eq_getLsbD, checkBit_eq_getLsbD, hbit _ (by decide)]

theorem SameTraps.sameView {s s' : RvCore w (RvSoc Devices)} (h : SameTraps y s s')
    (hy : y.Legal) (hclear : s.MprvClear) (hpmp : s'.pmp = s.pmp)
    (hsatp : s'.mmu.satpReg = s.mmu.satpReg) : SameView s s' :=
  sameView_of_bits h.mode (fun k hk => h.status k (not_savedBit_high hy hk)) hclear hpmp hsatp

/-- A delivery to the level tells the same from every state with these traps. -/
theorem TrapDelivered.of_same {t : RvCore w σ} {a a' c v : RvUintXlen w}
    (h : TrapDelivered t s' t.currPrivMode y a c v) (hsame : SameTraps y s t) (ha : a = a') :
    TrapDelivered s s' s.currPrivMode y a' c v := by
  subst ha
  rw [hsame.mode] at h
  constructor
  case mode => exact h.mode
  case epc => exact h.epc
  case cause => exact h.cause
  case tval => exact h.tval
  case pc => exact h.pc.trans (hsame.reg _ _ (by decide) (by decide) (by simp))
  case previousEnable =>
    have hlow : y.toInt.toNat < 4 := by cases y <;> decide
    exact h.previousEnable.trans (hsame.status _ (not_savedBit_low hlow))
  case enable => exact h.enable
  case mpp => exact h.mpp
  case spp => exact h.spp
  case otherStatus =>
    intro k hie hpie hmpp hspp
    rw [h.otherStatus k hie hpie hmpp hspp]
    exact hsame.status k fun hsaved => hsaved.elim hpie fun h => h.elim
      (fun h => h.2.elim (hmpp h.1).1 (hmpp h.1).2) fun h => hspp h.1 h.2
  case pending => exact h.pending

theorem SameTraps.updateInterrupts (h : SameTraps y s s') (mei mti msi : Byte) :
    SameTraps y s (rvCoreUpdateInterrupts s' mei mti msi) :=
  h.trans (.of_trap rfl fun _ _ hr => trapSetPendingBits_reg _ _ _ _ _ hr)

end SameTraps

/-- A level has been entered from the program: its state is saved in the registers of the
level, or still where it was, and its memory will be in sight when its mode is back. -/
structure Entered (A : AddressSpace w useSimpleUart) (y : PrivilegeLevel) (c : RvUintXlen w)
    (m : IsaState w) (s s' : RvCore w (RvSoc Devices)) : Prop where
  delivered : ∃ tval, TrapDelivered s s' s.currPrivMode y m.pc c tval
  trap : ∀ l r, r ≠ .ip → r ≠ .status →
    ¬ (l = y.trapLevel ∧ (r = .epc ∨ r = .cause ∨ r = .tval)) → s'.trap.reg l r = s.trap.reg l r
  x : s'.x = m.x
  mem : A.Sees m.mem { s' with currPrivMode := s.currPrivMode, trap := s.trap }
  reservation : s'.reservation = m.reservation

/-- The core that serves a trap has entered the level from the program. -/
theorem entered_of_served {m : IsaState w} {s u s' : RvCore w (RvSoc Devices)}
    {y : PrivilegeLevel} {isInterrupt : Bool} {cause c tval : RvUintXlen w}
    (hframe : InterruptFrame u s') (htrap : s'.trap = (u.served y isInterrupt cause).trap)
    (hdelivered : TrapDelivered u s' u.currPrivMode y m.pc c tval) (hsame : SameTraps y s u)
    (hy : y.Legal) (hclear : s.MprvClear) (hx : u.x = m.x) (hmem : A.Sees m.mem u)
    (hreservation : u.reservation = m.reservation) : Entered A y c m s s' := by
  constructor
  case delivered => exact ⟨tval, hdelivered.of_same hsame rfl⟩
  case trap =>
    intro l r hip hstatus hne
    rw [htrap, served_reg u hstatus hne]
    exact hsame.reg l r hip hstatus hne
  case x =>
    rw [hframe]
    exact hx
  case mem =>
    have hback : SameTraps y { u with currPrivMode := s.currPrivMode, trap := s.trap } u :=
      ⟨hsame.mode, hsame.reg, hsame.status⟩
    have hview := (hback.sameView hy hclear rfl rfl).symm
    rw [hframe]
    exact A.of_same hmem ⟨hview.mode, hview.mxr, hview.sum, rfl, rfl⟩ rfl
  case reservation =>
    rw [hframe]
    exact hreservation

/-! ### One enabled cause -/

/-- Only this cause is enabled, nothing keeps it from its level, and the accesses are those
of the current mode. -/
structure RvCore.Preemptible {σ : Type} (s : RvCore w σ) (cause : Nat) : Prop where
  only : ∀ c, (s.trap.reg .m .ie).getLsbD c = true → c = cause
  enabled : (s.trap.reg .m .ie).getLsbD cause = true
  notUser : interruptTarget s.trap cause = .user → (s.trap.reg .u .ideleg).getLsbD cause = false
  xie : XieBetween s.status s.currPrivMode (interruptTarget s.trap cause)
  mprvClear : s.MprvClear

section Preemptible

variable {σ : Type} {s s' : RvCore w σ} {cause : Nat} {mei mti msi line : Byte}

theorem RvCore.Preemptible.of_same (h : s.Preemptible cause)
    (hsame : SameTraps (interruptTarget s.trap cause) s s') : s'.Preemptible cause := by
  have hie : s'.trap.reg .m .ie = s.trap.reg .m .ie :=
    hsame.reg _ _ (by decide) (by decide) (by simp)
  constructor
  case only =>
    intro c hc
    rw [hie] at hc
    exact h.only c hc
  case enabled =>
    rw [hie]
    exact h.enabled
  case notUser =>
    rw [hsame.interruptTarget, hsame.reg _ _ (by decide) (by decide) (by simp)]
    exact h.notUser
  case xie =>
    obtain ⟨k, hk, hlow, hhigh, hbit⟩ := h.xie
    rw [hsame.interruptTarget]
    exact ⟨k, hk, hsame.mode ▸ hlow, hhigh, (hsame.status k (not_savedBit_low hk)).trans hbit⟩
  case mprvClear =>
    have hbit := hsame.status trapXstatusMprvBit
      (not_savedBit_high (interruptTarget_legal _ _) (by decide))
    exact hbit.trans h.mprvClear

/-- The interrupt that is taken is the one that is enabled, when its line is asserted. -/
theorem RvCore.Preemptible.taken_iff (h : s.Preemptible cause)
    (hline : interruptLine mei mti msi cause = some line) (c : Nat) :
    InterruptTaken (trapSetPendingBits s.trap mei mti msi) s.currPrivMode c ↔
      c = cause ∧ line.getLsbD 0 = true := by
  have hpending : ((trapSetPendingBits s.trap mei mti msi).reg .m .ip).getLsbD cause =
      line.getLsbD 0 := getLsbD_trapSetPendingBits hline h.enabled
  rw [InterruptTaken, interruptTarget_setPendingBits,
    trapSetPendingBits_reg _ _ _ _ .m (show TrapReg.ie ≠ .ip by decide),
    trapSetPendingBits_reg _ _ _ _ .u (show TrapReg.ideleg ≠ .ip by decide),
    trapSetPendingBits_reg _ _ _ _ .m (show TrapReg.status ≠ .ip by decide)]
  constructor
  · rintro ⟨hip, hie, -, -⟩
    obtain rfl := h.only c hie
    exact ⟨rfl, hpending ▸ hip⟩
  · rintro ⟨rfl, hasserted⟩
    exact ⟨hpending.trans hasserted, h.enabled, h.notUser, h.xie⟩

def lineCauses : List Nat :=
  [trapCauseMachineSwi, trapCauseMachineTi, trapCauseSuperExti, trapCauseMachineExti]

theorem mem_lineCauses (hline : interruptLine mei mti msi cause = some line) :
    cause ∈ lineCauses := by
  rw [interruptLine] at hline
  by_contra hnot
  simp only [lineCauses, List.mem_cons, List.not_mem_nil, or_false, not_or] at hnot
  rw [if_neg hnot.1, if_neg hnot.2.1, if_neg (not_or.mpr hnot.2.2)] at hline
  cases hline

theorem exists_interruptLine (h : cause ∈ lineCauses) (mei mti msi : Byte) :
    ∃ line, interruptLine mei mti msi cause = some line := by
  simp only [lineCauses, List.mem_cons, List.not_mem_nil, or_false] at h
  rcases h with rfl | rfl | rfl | rfl
  · exact ⟨msi, rfl⟩
  · exact ⟨mti, rfl⟩
  · exact ⟨mei, rfl⟩
  · exact ⟨mei, rfl⟩

theorem find_interruptCauses (h : cause ∈ lineCauses) :
    (interruptCauses.find? fun c => c = cause) = some cause := by
  simp only [lineCauses, List.mem_cons, List.not_mem_nil, or_false] at h
  rcases h with rfl | rfl | rfl | rfl
  · decide
  · decide
  · decide
  · decide

theorem RvCore.Preemptible.processInterrupts (h : s.Preemptible cause)
    (hmode : s.currPrivMode.Legal) (hpending : s.syncTrapPending = false)
    (hline : interruptLine mei mti msi cause = some line) (hasserted : line.getLsbD 0 = true) :
    rvCoreProcessInterrupts mei mti msi s =
      .ok ((rvCoreUpdateInterrupts s mei mti msi).served (interruptTarget s.trap cause) true
        (BitVec.ofNat w.bits cause)) := by
  have hfind : (interruptCauses.find? fun c =>
      InterruptTaken (trapSetPendingBits s.trap mei mti msi) s.currPrivMode c) = some cause := by
    simp only [h.taken_iff hline, hasserted, and_true]
    exact find_interruptCauses (mem_lineCauses hline)
  exact rvCoreProcessInterrupts_of_find hmode hpending hfind

end Preemptible

/-! ### The end of a round -/

abbrev Preempted (A : AddressSpace w useSimpleUart) (cause : Nat) (m' : IsaState w)
    (s s' : RvCore w (RvSoc Devices)) : Prop :=
  Entered A (interruptTarget s.trap cause)
    (1#w.bits <<< (w.bits - 1) ||| BitVec.ofNat w.bits cause) m' s s'

section EndOfRound

variable {m' : IsaState w} {s₀ s s₁ t : RvCore w (RvSoc Devices)} {mei mti msi line : Byte}
  {printed : List Byte} {cause : Nat} {y : PrivilegeLevel}

theorem Stepped.sameTraps (ht : Stepped A m' s s₁ t mei mti msi printed)
    (h : SameTraps y s₀ s₁) : SameTraps y s₀ t :=
  h.trans (.of_trap ht.mode fun _ _ _ => by rw [ht.trap])

theorem Stepped.continues (ht : Stepped A m' s s₁ t mei mti msi printed)
    (hsame : SameTraps (interruptTarget s₀.trap cause) s₀ s₁) (h₀ : s₀.Preemptible cause)
    (hline : interruptLine mei mti msi cause = some line) (hlow : line.getLsbD 0 = false) :
    ∃ s', rvSocRound useSimpleUart s = .ok (printed, s') ∧ Hosts A m' s' ∧
      SameTraps (interruptTarget s₀.trap cause) s₀ s' ∧ s'.priv = t.priv := by
  have ht₀ := ht.sameTraps hsame
  have hint := rvCoreProcessInterrupts_none ht.hosts.between.legal
    (pendingTrap_eq_none.mp ht.hosts.between.noTrap) fun c _ htaken => by
      have hhigh := (((h₀.of_same ht₀).taken_iff hline c).mp htaken).2
      rw [hlow] at hhigh
      cases hhigh
  exact ⟨_, ht.round _ hint, ht.hosts.updateInterrupts mei mti msi,
    ht₀.updateInterrupts mei mti msi, rfl⟩

/-- The round in which it is high ends with the interrupt. -/
theorem Stepped.preempted (ht : Stepped A m' s s₁ t mei mti msi printed)
    (hsame : SameTraps (interruptTarget s₀.trap cause) s₀ s₁) (h₀ : s₀.Preemptible cause)
    (hline : interruptLine mei mti msi cause = some line) (hhigh : line.getLsbD 0 = true) :
    ∃ s', rvSocRound useSimpleUart s = .ok (printed, s') ∧ Preempted A cause m' s₀ s' ∧
      s'.priv = t.priv := by
  have hy := interruptTarget_legal s₀.trap cause
  have hpending := pendingTrap_eq_none.mp ht.hosts.between.noTrap
  have hu := ht.hosts.updateInterrupts mei mti msi
  have hu₀ := (ht.sameTraps hsame).updateInterrupts mei mti msi
  have hint := (h₀.of_same (ht.sameTraps hsame)).processInterrupts ht.hosts.between.legal
    hpending hline hhigh
  rw [(ht.sameTraps hsame).interruptTarget] at hint
  have hle : t.currPrivMode ≤ interruptTarget s₀.trap cause := by
    rw [(ht.sameTraps hsame).mode]
    exact h₀.xie.le
  have hdelivered := served_delivered (rvCoreUpdateInterrupts t mei mti msi)
    ht.hosts.between.legal hy hle true (BitVec.ofNat w.bits cause) rfl rfl rfl hpending
  have hpc : (rvCoreUpdateInterrupts t mei mti msi).pc = m'.pc := hu.represents.pc
  rw [hpc] at hdelivered
  exact ⟨_, ht.round _ hint, entered_of_served rfl rfl hdelivered hu₀ hy h₀.mprvClear
    hu.represents.x hu.represents.mem hu.represents.reservation, rfl⟩

end EndOfRound

end RiscvEm
