import RiscvEm.HelperSpec
import RiscvEm.Lib.Except
import RiscvEm.Trap.Basic

/-!
What the routines of `trap.c` compute, bit by bit: which level serves a trap, when
an interrupt is taken, and what entry and return do to the status word.
-/

namespace RiscvEm

variable {w : Xlen}

/-! ### Legal modes -/

def PrivilegeLevel.trapLevel : PrivilegeLevel → TrapLevel
  | .machine => .m
  | .supervisor => .s
  | _ => .u

theorem getPrivRegs_eq_trapLevel {p : PrivilegeLevel} (hp : p.Legal) :
    getPrivRegs p = .ok p.trapLevel := by
  rcases hp with rfl | rfl | rfl <;> rfl

theorem Trap.reg_shared {r : TrapReg} (hr : r.shared = true) (t : Trap w) (l : TrapLevel) :
    t.reg l r = t.reg .m r := by
  cases r <;> first | rfl | cases hr

theorem Trap.reg_status (t : Trap w) (l : TrapLevel) : t.reg l .status = t.reg .m .status := rfl

theorem Trap.reg_ie (t : Trap w) (l : TrapLevel) : t.reg l .ie = t.reg .m .ie := rfl

theorem Trap.reg_ip (t : Trap w) (l : TrapLevel) : t.reg l .ip = t.reg .m .ip := rfl

/-! ### Delegation -/

def interruptTarget (trap : Trap w) (irq : Nat) : PrivilegeLevel :=
  if (trap.reg .m .ideleg).getLsbD irq = false then .machine
  else if (trap.reg .s .ideleg).getLsbD irq = false then .supervisor
  else .user

def exceptionTarget (trap : Trap w) (curr : PrivilegeLevel) (cause : Nat) : PrivilegeLevel :=
  if curr = .machine ∨ (trap.reg .m .edeleg).getLsbD cause = false then .machine
  else if curr = .supervisor ∨ (trap.reg .s .edeleg).getLsbD cause = false then .supervisor
  else .user

theorem interruptTarget_legal (trap : Trap w) (irq : Nat) : (interruptTarget trap irq).Legal := by
  rw [interruptTarget]
  split
  · exact .inr (.inr rfl)
  · split
    · exact .inr (.inl rfl)
    · exact .inl rfl

theorem exceptionTarget_legal (trap : Trap w) (curr : PrivilegeLevel) (cause : Nat) :
    (exceptionTarget trap curr cause).Legal := by
  rw [exceptionTarget]
  split
  · exact .inr (.inr rfl)
  · split
    · exact .inr (.inl rfl)
    · exact .inl rfl

/-- An exception is never served below the mode that raised it. -/
theorem le_exceptionTarget (trap : Trap w) {curr : PrivilegeLevel} (hcurr : curr.Legal)
    (cause : Nat) : curr ≤ exceptionTarget trap curr cause := by
  rw [exceptionTarget]
  rcases hcurr with rfl | rfl | rfl
  · split
    · decide
    · split <;> decide
  · split
    · decide
    · simp
  · simp

theorem trapCheckExceptionDelegation_eq (trap : Trap w) {curr : PrivilegeLevel}
    (hcurr : curr.Legal) (cause : RvUintXlen w) :
    trapCheckExceptionDelegation trap curr cause =
      .ok (exceptionTarget trap curr cause.toNat) := by
  have hms : ¬ PrivilegeLevel.machine ≤ .supervisor := by decide
  have hmu : ¬ PrivilegeLevel.machine ≤ .user := by decide
  have hsu : ¬ PrivilegeLevel.supervisor ≤ .user := by decide
  have hus : PrivilegeLevel.user ≤ .supervisor := by decide
  simp only [trapCheckExceptionDelegation, PrivilegeLevel.countDown, exceptionLoop, getPrivRegs,
    Except.ok_bind, BitVec.ofNat_eq_ofNat, BitField.and_one_shiftLeft_eq_zero, reduceCtorEq,
    if_false, if_true, exceptionTarget]
  rcases hcurr with rfl | rfl | rfl
  · by_cases hm : (trap.reg .m .edeleg).getLsbD cause.toNat = false
    · simp [hm]
    · by_cases hs : (trap.reg .s .edeleg).getLsbD cause.toNat = false
      · simp [hm, hs, hmu]
      · simp [hm, hs, hmu, hsu]
  · by_cases hm : (trap.reg .m .edeleg).getLsbD cause.toNat = false
    · simp [hm]
    · simp [hm, hms]
  · simp

/-- The level that the delegation loop ends on. -/
def loopLevel (trap : Trap w) (curr : PrivilegeLevel) (irq : Nat) : PrivilegeLevel :=
  if interruptTarget trap irq = .machine then .machine
  else if curr = .machine then .reserved
  else if curr = .user ∧ interruptTarget trap irq = .user ∧
      (trap.reg .u .ideleg).getLsbD irq = true then .unknown
  else interruptTarget trap irq

theorem delegationLoop_eq (trap : Trap w) {curr : PrivilegeLevel} (hcurr : curr.Legal)
    (irq : Nat) :
    delegationLoop trap curr (1#w.bits <<< irq) PrivilegeLevel.countDown =
      .ok (loopLevel trap curr irq) := by
  have hmr : ¬ PrivilegeLevel.machine ≤ .reserved := by decide
  have hsm : PrivilegeLevel.supervisor ≤ .machine := by decide
  have hsr : PrivilegeLevel.supervisor ≤ .reserved := by decide
  have hsu : ¬ PrivilegeLevel.supervisor ≤ .user := by decide
  have hum : PrivilegeLevel.user ≤ .machine := by decide
  have hur : PrivilegeLevel.user ≤ .reserved := by decide
  have hus : PrivilegeLevel.user ≤ .supervisor := by decide
  simp only [PrivilegeLevel.countDown, delegationLoop, getPrivRegs, Except.ok_bind,
    BitVec.ofNat_eq_ofNat, BitField.and_one_shiftLeft_eq_zero, reduceCtorEq, if_false, if_true,
    loopLevel, interruptTarget]
  by_cases hm : (trap.reg .m .ideleg).getLsbD irq = false
  · rcases hcurr with rfl | rfl | rfl
    · simp [hm, hum]
    · simp [hm, hsm]
    · simp [hm]
  · by_cases hs : (trap.reg .s .ideleg).getLsbD irq = false
    · rcases hcurr with rfl | rfl | rfl
      · simp [hm, hs, hum, hur, hus]
      · simp [hm, hs, hsm, hsr]
      · simp [hm, hs, hmr]
    · by_cases hu : (trap.reg .u .ideleg).getLsbD irq = false
      · rcases hcurr with rfl | rfl | rfl
        · simp [hm, hs, hu, hum, hur, hus]
        · simp [hm, hs, hsm, hsr, hsu]
        · simp [hm, hs, hmr]
      · rcases hcurr with rfl | rfl | rfl
        · simp [hm, hs, hu, hum, hur, hus]
        · simp [hm, hs, hsm, hsr, hsu]
        · simp [hm, hs, hmr]

/-! ### When an interrupt is taken -/

theorem getLsbD_highMask {n : Nat} (hn : 32 ≤ n) (k : Nat) :
    (0xF0#n).getLsbD k = (decide (4 ≤ k) && decide (k < 8)) := by
  have hshift : 0xF0 = (2 ^ 4 - 1) <<< 4 := rfl
  rw [BitVec.getLsbD_ofNat, hshift, Nat.testBit_shiftLeft, Nat.testBit_two_pow_sub_one,
    Bool.eq_iff_iff]
  simp only [Bool.and_eq_true, decide_eq_true_eq]
  omega

def XieBetween (status : RvUintXlen w) (p y : PrivilegeLevel) : Prop :=
  ∃ k : Nat, k < 4 ∧ p.toInt ≤ k ∧ k ≤ y.toInt ∧ status.getLsbD k = true

instance (status : RvUintXlen w) (p y : PrivilegeLevel) : Decidable (XieBetween status p y) :=
  inferInstanceAs (Decidable (∃ k : Nat, k < 4 ∧ _))

theorem not_xieBetween {status : RvUintXlen w} {p y : PrivilegeLevel} (h : y < p) :
    ¬ XieBetween status p y := by
  rintro ⟨k, -, hlow, hhigh, -⟩
  have hlt := PrivilegeLevel.lt_def.mp h
  omega

/-- The two masks of `trap_check_interrupt_pending` leave the xIE bits from the
current mode up to the serving level. -/
theorem enableMask_ne_zero (status : RvUintXlen w) {curr : PrivilegeLevel} (hcurr : curr.Legal)
    (level : PrivilegeLevel) :
    (0xF0#w.bits >>> (PrivilegeLevel.max - curr.toInt).toNat &&& (status &&& 0xF#w.bits)) &&&
        0xF#w.bits >>> (PrivilegeLevel.machine.toInt - level.toInt).toNat ≠ 0#w.bits ↔
      XieBetween status curr level := by
  have hn := w.bits_ge
  have hones : ∀ k, (0xF#w.bits).getLsbD k = (decide (k < w.bits) && decide (k < 4)) :=
    BitField.getLsbD_ones 4
  have hcurr' : 0 ≤ curr.toInt ∧ curr.toInt ≤ 3 := by
    rcases hcurr with rfl | rfl | rfl <;> decide
  have hlevel : -1 ≤ level.toInt ∧ level.toInt ≤ 3 := by
    cases level <;> decide
  have hmax : PrivilegeLevel.max = 4 := rfl
  have hmachine : PrivilegeLevel.machine.toInt = 3 := rfl
  rw [BitField.and_ne_zero_iff]
  simp only [BitVec.getLsbD_and, BitVec.getLsbD_ushiftRight, getLsbD_highMask hn, hones,
    Bool.and_eq_true, decide_eq_true_eq, hmax, hmachine]
  constructor
  · rintro ⟨k, ⟨⟨hlow, -⟩, hbit, -, hk⟩, -, hhigh⟩
    exact ⟨k, hk, by omega, by omega, hbit⟩
  · rintro ⟨k, hk, hlow, hhigh, hbit⟩
    exact ⟨k, ⟨⟨by omega, by omega⟩, hbit, by omega, hk⟩, by omega, by omega⟩

/-- The interrupt is pending and enabled, it is not delegated away from the level
that is to serve it, and one of the xIE bits from the current mode up to that
level is set. -/
def InterruptTaken (trap : Trap w) (curr : PrivilegeLevel) (irq : Nat) : Prop :=
  (trap.reg .m .ip).getLsbD irq = true ∧ (trap.reg .m .ie).getLsbD irq = true ∧
    (interruptTarget trap irq = .user → (trap.reg .u .ideleg).getLsbD irq = false) ∧
    XieBetween (trap.reg .m .status) curr (interruptTarget trap irq)

instance (trap : Trap w) (curr : PrivilegeLevel) (irq : Nat) :
    Decidable (InterruptTaken trap curr irq) :=
  inferInstanceAs (Decidable (_ ∧ _ ∧ (_ → _) ∧ _))

/-- Where the loop ends on another level than the target, neither of them has an
xIE bit at or above the current mode, or the target delegates the interrupt. -/
theorem xieBetween_loopLevel (trap : Trap w) {curr : PrivilegeLevel} (hcurr : curr.Legal)
    (irq : Nat) (status : RvUintXlen w) :
    XieBetween status curr (loopLevel trap curr irq) ↔
      (interruptTarget trap irq = .user → (trap.reg .u .ideleg).getLsbD irq = false) ∧
        XieBetween status curr (interruptTarget trap irq) := by
  rw [loopLevel]
  by_cases hm : interruptTarget trap irq = .machine
  · simp [hm]
  · rw [if_neg hm]
    by_cases hcm : curr = .machine
    · subst hcm
      have hlow : interruptTarget trap irq < .machine := by
        rcases interruptTarget_legal trap irq with ht | ht | ht
        · rw [ht]
          decide
        · rw [ht]
          decide
        · exact absurd ht hm
      simp [not_xieBetween hlow, not_xieBetween (show PrivilegeLevel.reserved < .machine by decide)]
    · rw [if_neg hcm]
      split
      · next hu => simp [hu.2.1, hu.2.2, hu.1, not_xieBetween
          (show PrivilegeLevel.unknown < .user by decide)]
      · next hu =>
          constructor
          · intro h
            refine ⟨fun ht => ?_, h⟩
            rcases hcurr with rfl | rfl | rfl
            · simpa [ht] using hu
            · rw [ht] at h
              exact absurd h (not_xieBetween (by decide))
            · exact absurd rfl hcm
          · exact fun h => h.2

theorem loopLevel_of_xieBetween {trap : Trap w} {curr : PrivilegeLevel} {irq : Nat}
    {status : RvUintXlen w} (h : XieBetween status curr (loopLevel trap curr irq)) :
    loopLevel trap curr irq = interruptTarget trap irq := by
  rw [loopLevel] at h ⊢
  split
  · next hm => exact hm.symm
  · next hm =>
      rw [if_neg hm] at h
      split
      · next hcm =>
          rw [if_pos hcm, hcm] at h
          exact absurd h (not_xieBetween (by decide))
      · next hcm =>
          rw [if_neg hcm] at h
          split
          · next hu =>
              rw [if_pos hu, hu.1] at h
              exact absurd h (not_xieBetween (by decide))
          · rfl

theorem trapCheckInterruptPending_eq (trap : Trap w) {curr : PrivilegeLevel}
    (hcurr : curr.Legal) (irq : Nat) :
    trapCheckInterruptPending trap curr irq =
      .ok (if InterruptTaken trap curr irq then some (interruptTarget trap irq) else none) := by
  simp only [trapCheckInterruptPending, getPrivRegs_eq_trapLevel hcurr, Except.ok_bind,
    BitVec.ofNat_eq_ofNat, BitField.and_one_shiftLeft_eq_zero, trap.reg_ip, trap.reg_ie,
    trap.reg_status, delegationLoop_eq trap hcurr]
  by_cases hpend : (trap.reg .m .ip).getLsbD irq = false ∨ (trap.reg .m .ie).getLsbD irq = false
  · have hnot : ¬ InterruptTaken trap curr irq := by
      rintro ⟨hip, hie, -⟩
      rcases hpend with h | h
      · rw [hip] at h
        cases h
      · rw [hie] at h
        cases h
    rw [if_pos hpend, if_neg hnot]
    rfl
  · rw [if_neg hpend]
    have hiff : InterruptTaken trap curr irq ↔
        XieBetween (trap.reg .m .status) curr (loopLevel trap curr irq) := by
      rw [xieBetween_loopLevel trap hcurr, InterruptTaken]
      have hboth := not_or.mp hpend
      simp [Bool.not_eq_false _ ▸ hboth.1, Bool.not_eq_false _ ▸ hboth.2]
    by_cases hmask : XieBetween (trap.reg .m .status) curr (loopLevel trap curr irq)
    · rw [if_pos (hiff.mpr hmask), ← loopLevel_of_xieBetween hmask]
      exact if_pos ((enableMask_ne_zero _ hcurr _).mpr hmask)
    · rw [if_neg (mt hiff.mp hmask)]
      exact if_neg (mt (enableMask_ne_zero _ hcurr _).mp hmask)

/-! ### The status word -/

/-- The status bits that entry into a level writes: the level's own enable bit, its
copy, and the field for the previous mode. -/
theorem getLsbD_servedStatus (status : RvUintXlen w) {serving : PrivilegeLevel}
    (hserving : serving.Legal) (previous : PrivilegeLevel) (k : Nat) :
    (servedStatus status serving previous).getLsbD k =
      if k = serving.toInt.toNat then false
      else if k = trapXstatusUpieBit + serving.toInt.toNat then
        status.getLsbD serving.toInt.toNat
      else if serving = .machine ∧ (k = trapXstatusMppBit ∨ k = trapXstatusMppBit + 1) then
        (BitVec.ofInt w.bits previous.toInt).getLsbD (k - trapXstatusMppBit)
      else if serving = .supervisor ∧ k = trapXstatusSppBit then
        (BitVec.ofInt w.bits previous.toInt).getLsbD 0
      else status.getLsbD k := by
  have hn := w.bits_ge
  have hie : ∀ (v : RvUintXlen w) (i : Nat), ((v >>> i) &&& 0x1).getLsbD 0 = v.getLsbD i := by
    intro v i
    have hone : (0x1 : RvUintXlen w).getLsbD 0 = true := by simp; omega
    rw [BitVec.getLsbD_and, hone, BitVec.getLsbD_ushiftRight, Bool.and_true, Nat.add_zero]
  rcases hserving with rfl | rfl | rfl
  · simp only [servedStatus, PrivilegeLevel.toInt, trapXstatusUpieBit, Int.toNat_zero,
      reduceCtorEq, if_false, false_and]
    rw [getLsbD_clearBit _ (by omega), getLsbD_assignXlenBit (by omega) _ _ _ _ (by omega), hie]
  · simp only [servedStatus, PrivilegeLevel.toInt, trapXstatusUpieBit, trapXstatusSppBit,
      Int.toNat_one, reduceCtorEq, if_false, if_true, false_and, true_and]
    rw [getLsbD_clearBit _ (by omega), getLsbD_assignXlenBit (by omega) _ _ _ _ (by omega), hie,
      getLsbD_assign_one _ _ (by omega), getLsbD_assign_one _ _ (by omega)]
    rfl
  · have h3 : (3 : Int).toNat = 3 := rfl
    simp only [servedStatus, PrivilegeLevel.toInt, trapXstatusUpieBit, trapXstatusMppBit, h3,
      reduceCtorEq, if_false, if_true, false_and, true_and]
    rw [getLsbD_clearBit _ (by omega), getLsbD_assignXlenBit (by omega) _ _ _ _ (by omega), hie,
      getLsbD_assign_two _ _ (by omega), getLsbD_assign_two _ _ (by omega)]
    rfl

theorem getLsbD_restoredStatus (status : RvUintXlen w) {serving : PrivilegeLevel}
    (hserving : serving.Legal) (k : Nat) :
    (restoredStatus status serving).getLsbD k =
      if k = trapXstatusUpieBit + serving.toInt.toNat then false
      else if k = serving.toInt.toNat then
        status.getLsbD (trapXstatusUpieBit + serving.toInt.toNat)
      else status.getLsbD k := by
  have hn := w.bits_ge
  have hy : serving.toInt.toNat < 4 := by
    rcases hserving with rfl | rfl | rfl <;> decide
  have hpie : ∀ i : Nat, ((status >>> i) &&& 0x1).getLsbD 0 = status.getLsbD i := by
    intro i
    have hone : (0x1 : RvUintXlen w).getLsbD 0 = true := by simp; omega
    rw [BitVec.getLsbD_and, hone, BitVec.getLsbD_ushiftRight, Bool.and_true, Nat.add_zero]
  rw [restoredStatus, getLsbD_clearBit _ (by simp only [trapXstatusUpieBit]; omega),
    getLsbD_assignXlenBit (by omega) _ _ _ _ (by omega), hpie]

/-! ### The previous mode -/

def PrivilegeLevel.ofBits : Bool → Bool → PrivilegeLevel
  | false, false => .user
  | false, true => .supervisor
  | true, false => .reserved
  | true, true => .machine

theorem PrivilegeLevel.ofField_eq_ofBits (hi lo : Bool) :
    PrivilegeLevel.ofField (lo.toNat + 2 * hi.toNat) = .ofBits hi lo := by
  cases hi <;> cases lo <;> rfl

theorem restoredMode_machine (status : RvUintXlen w) :
    restoredMode status .machine =
      .ofBits (status.getLsbD (trapXstatusMppBit + 1)) (status.getLsbD trapXstatusMppBit) := by
  rw [restoredMode, toNat_extract_two status _ (by have := w.bits_ge; omega),
    PrivilegeLevel.ofField_eq_ofBits]

theorem restoredMode_supervisor (status : RvUintXlen w) :
    restoredMode status .supervisor =
      if status.getLsbD trapXstatusSppBit then .supervisor else .user := by
  rw [restoredMode, toNat_extract_one status _ (by have := w.bits_ge; omega)]
  cases status.getLsbD trapXstatusSppBit <;> rfl

theorem restoredMode_le (status : RvUintXlen w) (p : PrivilegeLevel) (hp : p.Legal) :
    restoredMode status p ≤ p := by
  rcases hp with rfl | rfl | rfl
  · exact PrivilegeLevel.le_rfl' _
  · rw [restoredMode_supervisor]
    split <;> decide
  · rw [restoredMode_machine]
    cases status.getLsbD (trapXstatusMppBit + 1) <;>
      cases status.getLsbD trapXstatusMppBit <;> decide

/-- Entry stores the previous mode where the return looks for it. -/
theorem restoredMode_servedStatus (status : RvUintXlen w) {serving previous : PrivilegeLevel}
    (hserving : serving.Legal) (hprevious : .user ≤ previous) (hle : previous ≤ serving) :
    restoredMode (servedStatus status serving previous) serving = previous := by
  have hn := w.bits_ge
  have hbit : ∀ k, (BitVec.ofInt w.bits previous.toInt).getLsbD k =
      (decide (k < w.bits) && previous.toInt.toNat.testBit k) := by
    intro k
    cases previous with
    | unknown => exact absurd hprevious (by decide)
    | user => exact BitVec.getLsbD_ofNat w.bits 0 k
    | supervisor => exact BitVec.getLsbD_ofNat w.bits 1 k
    | reserved => exact BitVec.getLsbD_ofNat w.bits 2 k
    | machine => exact BitVec.getLsbD_ofNat w.bits 3 k
  rcases hserving with rfl | rfl | rfl
  · cases previous with
    | user => rfl
    | unknown => exact absurd hprevious (by decide)
    | supervisor | reserved | machine => exact absurd hle (by decide)
  · rw [restoredMode_supervisor, getLsbD_servedStatus _ (.inr (.inl rfl)), hbit]
    cases previous with
    | unknown => exact absurd hprevious (by decide)
    | user => simp [trapXstatusSppBit, trapXstatusUpieBit, PrivilegeLevel.toInt]
    | supervisor =>
        have h0 : 0 < w.bits := by omega
        simp [trapXstatusSppBit, trapXstatusUpieBit, PrivilegeLevel.toInt, h0]
    | reserved | machine => exact absurd hle (by decide)
  · have h0 : 0 < w.bits := by omega
    have h1 : 1 < w.bits := by omega
    have hlow : (servedStatus status .machine previous).getLsbD trapXstatusMppBit =
        previous.toInt.toNat.testBit 0 := by
      rw [getLsbD_servedStatus _ (.inr (.inr rfl)), if_neg (by decide), if_neg (by decide),
        if_pos ⟨rfl, .inl rfl⟩, hbit, Nat.sub_self, decide_eq_true h0, Bool.true_and]
    have hhigh : (servedStatus status .machine previous).getLsbD (trapXstatusMppBit + 1) =
        previous.toInt.toNat.testBit 1 := by
      rw [getLsbD_servedStatus _ (.inr (.inr rfl)), if_neg (by decide), if_neg (by decide),
        if_pos ⟨rfl, .inr rfl⟩, hbit, Nat.add_sub_cancel_left, decide_eq_true h1, Bool.true_and]
    rw [restoredMode_machine, hlow, hhigh]
    cases previous with
    | unknown => exact absurd hprevious (by decide)
    | user | supervisor | reserved | machine => rfl

/-! ### Entry and return -/

def servedTrap (trap : Trap w) (serving previous : PrivilegeLevel) (isInterrupt : Bool)
    (cause currPc tval : RvUintXlen w) : Trap w :=
  let l := serving.trapLevel
  (((trap.setReg l .epc (if isInterrupt then currPc else currPc - 4)).setReg l .cause
    ((BitVec.ofNat w.bits isInterrupt.toNat <<< (w.bits - 1)) ||| cause)).setReg l .status
      (servedStatus (trap.reg .m .status) serving previous)).setReg l .tval tval

theorem trapServeInterrupt_eq (trap : Trap w) {serving : PrivilegeLevel}
    (hserving : serving.Legal) (previous : PrivilegeLevel) (isInterrupt : Bool)
    (cause currPc tval : RvUintXlen w) :
    trapServeInterrupt trap serving previous isInterrupt cause currPc tval =
      .ok (trap.reg serving.trapLevel .tvec,
        servedTrap trap serving previous isInterrupt cause currPc tval) := by
  rw [trapServeInterrupt, getPrivRegs_eq_trapLevel hserving]
  simp only [Except.ok_bind, Except.pure_eq_ok, servedTrap, Trap.reg_setReg, reduceCtorEq,
    false_and, if_false]
  rfl

theorem trapRestoreIrqSettings_eq (trap : Trap w) {serving : PrivilegeLevel}
    (hserving : serving.Legal) :
    trapRestoreIrqSettings trap serving =
      .ok (restoredMode (trap.reg .m .status) serving,
        trap.setReg .m .status (restoredStatus (trap.reg .m .status) serving)) := by
  rw [trapRestoreIrqSettings, getPrivRegs_eq_trapLevel hserving]
  rfl

end RiscvEm
