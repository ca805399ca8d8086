import RiscvEm.Core.BusRelation
import RiscvEm.Core.Confinement
import RiscvEm.Core.SavedPrivilege
import RiscvEm.Pmp.Decision

/-!
The core below machine mode: what the PMP lets it reach, and what it leaves as machine mode
has set it up, over calls in any order.
-/

namespace RiscvEm

variable {w : Xlen} {σ : Type}

/-! ### Covered bytes -/

def PmpCovers (pmp : Pmp w) (accessType : BusAccessType) (byteAddr : Nat) : Prop :=
  ∃ i, addrMode (pmp.cfg i) ≠ .off ∧ Permits pmp accessType i ∧
    WordWithin pmp (BitVec.ofNat w.bits byteAddr) i

instance decidableWordWithin (pmp : Pmp w) (byteAddr : RvUintXlen w) (i : Fin 16) :
    Decidable (WordWithin pmp byteAddr i) :=
  inferInstanceAs (Decidable (addrWithin byteAddr (pmpAddrStartSize pmp i
    (addrMode (pmp.cfg i))).1 (pmpAddrStartSize pmp i (addrMode (pmp.cfg i))).2 = true))

instance decidablePmpCovers (pmp : Pmp w) (accessType : BusAccessType) (byteAddr : Nat) :
    Decidable (PmpCovers pmp accessType byteAddr) :=
  inferInstanceAs (Decidable (∃ i, addrMode (pmp.cfg i) ≠ .off ∧
    (pmp.cfg i).getLsbD accessType.toNat = true ∧ WordWithin pmp (BitVec.ofNat w.bits byteAddr) i))

/-- Between two addresses in the range of an entry all are in it. -/
theorem WordWithin.between {pmp : Pmp w} {i : Fin 16} {a b c : RvUintXlen w}
    (ha : WordWithin pmp a i) (hb : WordWithin pmp b i) (hac : a.toNat ≤ c.toNat)
    (hcb : c.toNat ≤ b.toNat) : WordWithin pmp c i := by
  simp only [WordWithin, addrWithin, Bool.and_eq_true, decide_eq_true_eq, BitVec.le_def,
    BitVec.lt_def] at ha hb ⊢
  exact ⟨Nat.le_trans ha.1 hac, Nat.lt_of_le_of_lt hcb hb.2⟩

/-- Below machine mode the bytes of a granted access are covered. -/
theorem pmpCovers_of_granted {pmp : Pmp w} {p : PrivilegeLevel} (hp : p ≠ .machine)
    {addr : RvUintXlen w} {len : Nat} {t : BusAccessType} (hlen : 0 < len ∧ len ≤ 8)
    (hend : addr.toNat + len ≤ 2 ^ w.bits) (hgrant : pmpMemCheck pmp p addr len t = .ok)
    {byteAddr : Nat} (hlow : addr.toNat ≤ byteAddr) (hhigh : byteAddr < addr.toNat + len) :
    PmpCovers pmp t byteAddr := by
  obtain ⟨i, ⟨⟨hon, -⟩, -⟩, ⟨hfirst, hlast⟩, hpermits⟩ :=
    (pmpMemCheck_eq_ok_iff pmp hp addr len t).mp hgrant
  have hbyte : (BitVec.ofNat w.bits byteAddr).toNat = byteAddr := by
    rw [BitVec.toNat_ofNat, Nat.mod_eq_of_lt (by omega)]
  refine ⟨i, hon, hpermits, hfirst.between hlast ?_ ?_⟩
  · rw [hbyte]
    exact hlow
  · rw [hbyte, toNat_lastByte hlen.1 hlen.2 hend]
    omega

/-! ### What stays as it is -/

def RvCore.BelowMachine (s : RvCore w σ) : Prop :=
  s.currPrivMode = .supervisor ∨ s.currPrivMode = .user

instance decidableBelowMachine (s : RvCore w σ) : Decidable s.BelowMachine :=
  inferInstanceAs (Decidable (s.currPrivMode = .supervisor ∨ s.currPrivMode = .user))

theorem RvCore.BelowMachine.ne_machine {s : RvCore w σ} (h : s.BelowMachine) :
    s.currPrivMode ≠ .machine := by
  rcases h with hs | hs
  · rw [hs]
    decide
  · rw [hs]
    decide

/-- Machine mode has set up the protection: the data accesses are made with the rights of
the current mode. -/
def RvCore.MprvClear (s : RvCore w σ) : Prop := s.status.getLsbD trapXstatusMprvBit = false

theorem dataMode_of_mprvClear {s : RvCore w σ} (h : s.MprvClear) :
    s.dataMode = s.currPrivMode := by
  have hbit : extract s.status trapXstatusMprvBit 1 = 0 := by
    have hvalue := toNat_extract_one s.status trapXstatusMprvBit (by have := w.bits_ge; omega)
    rw [show s.status.getLsbD trapXstatusMprvBit = false from h] at hvalue
    exact BitVec.eq_of_toNat_eq hvalue
  simp only [RvCore.dataMode, checkMprvOverride, hbit, ne_eq, not_true_eq_false, if_false,
    reduceCtorEq]

structure SetupKept (s s' : RvCore w σ) : Prop where
  pmp : s'.pmp = s.pmp
  mprvClear : s.MprvClear → s'.MprvClear

theorem SetupKept.refl (s : RvCore w σ) : SetupKept s s := ⟨rfl, id⟩

theorem SetupKept.trans {a b c : RvCore w σ} (hab : SetupKept a b) (hbc : SetupKept b c) :
    SetupKept a c := ⟨hbc.pmp.trans hab.pmp, fun h => hbc.mprvClear (hab.mprvClear h)⟩

theorem SetupKept.of_trap {s s' : RvCore w σ} (hpmp : s'.pmp = s.pmp) (htrap : s'.trap = s.trap) :
    SetupKept s s' := by
  refine ⟨hpmp, fun h => ?_⟩
  rw [RvCore.MprvClear, RvCore.status, htrap]
  exact h

/-- A write of the supervisor's registers, which keeps the bit or clears it. -/
theorem setupKept_setReg_s {s : RvCore w σ} {r : TrapReg} {v : RvUintXlen w}
    (hv : r = .status → s.MprvClear → v.getLsbD trapXstatusMprvBit = false) :
    SetupKept s { s with trap := s.trap.setReg .s r v } := by
  refine ⟨rfl, fun h => ?_⟩
  show ((s.trap.setReg .s r v).reg .m .status).getLsbD trapXstatusMprvBit = false
  rw [Trap.reg_setReg]
  split
  · next hr => exact hv hr.1.symm h
  · exact h

theorem csrSstatusMask_mprv : (csrSstatusMask w).getLsbD trapXstatusMprvBit = false := by
  cases w <;> decide

theorem setupKept_illegalInstr (s : RvCore w σ) : SetupKept s (illegalInstr s) :=
  .of_trap (illegalInstr_trap s).2 (illegalInstr_trap s).1

/-- Without a destination `CSRRW` merges into zero, which clears the bit. -/
theorem csrrwx_setupKept {s s' : RvCore w σ} (htable : TableKept s.csrRegs)
    (hmode : s.BelowMachine) {newVal : RvUintXlen w} (h : csrrwx s newVal = .ok s') :
    SetupKept s s' := by
  obtain ⟨-, rfl | ⟨csrVal, s₁, hread, hzero, hwritten, rfl⟩⟩ := csrrwx_cases h
  · exact setupKept_illegalInstr s
  · refine SetupKept.trans (b := s₁) ?_ (.of_trap rfl rfl)
    rcases hwritten.below htable hmode with ⟨htrap, hpmp⟩ | ⟨-, r, hcb, hview, rfl⟩
    · exact .of_trap hpmp htrap
    · refine setupKept_setReg_s fun hr hclear => ?_
      subst hr
      obtain ⟨hwarl, hmask, -⟩ := hview rfl
      have hentry : (s.csrRegs s.csrAddr).mask = csrSstatusMask w :=
        (Option.some.inj hmask).symm
      rw [hentry, BitVec.getLsbD_or, BitVec.getLsbD_and, BitVec.getLsbD_and, csrSstatusMask_mprv,
        Bool.and_false, Bool.or_false]
      by_cases hrd : s.rd = 0
      · rw [hzero hrd, BitVec.ofNat_eq_ofNat, BitVec.getLsbD_zero, Bool.false_and]
      · have hval : csrVal = s.trap.reg .m .status :=
          (csrReadReg_view hcb hwarl (hread hrd)).trans (Trap.reg_shared rfl s.trap .s)
        rw [hval, show (s.trap.reg .m .status).getLsbD trapXstatusMprvBit = false from hclear,
          Bool.false_and]

theorem csrrReadModifyWrite_setupKept {merge : RvUintXlen w → RvUintXlen w → RvUintXlen w}
    (hmerge : MaskedMerge merge) {s s' : RvCore w σ} (htable : TableKept s.csrRegs)
    (hmode : s.BelowMachine) {newVal : RvUintXlen w}
    (h : csrrReadModifyWrite merge s newVal = .ok s') : SetupKept s s' := by
  obtain ⟨htrap, hpmp⟩ := csrrReadModifyWrite_kept hmerge htable hmode h
  refine ⟨hpmp, fun hclear => ?_⟩
  have hagree := (BitField.agreeOff_iff.mp (htrap.shared .status _ rfl)) trapXstatusMprvBit
    csrSstatusMask_mprv
  rw [RvCore.MprvClear, RvCore.status, ← hagree]
  exact hclear

theorem restoredStatus_mprv (status : RvUintXlen w) {p : PrivilegeLevel} (hp : p.Legal) :
    (restoredStatus status p).getLsbD trapXstatusMprvBit =
      status.getLsbD trapXstatusMprvBit := by
  have hlow := TrapNest.toNat_of_legal hp
  have hbits : trapXstatusUpieBit = 4 ∧ trapXstatusMprvBit = 17 := ⟨rfl, rfl⟩
  exact TrapNest.getLsbD_restoredStatus_of_ne status hp (by omega) (by omega)

theorem handler_setupKept {busAccess : BusAccessFunc w σ} {cb : ExecutionCb}
    {s s' : RvCore w σ} (htable : TableKept s.csrRegs) (hmode : s.BelowMachine)
    (h : cb.handler busAccess s = .ok s') : SetupKept s s' := by
  rcases handler_cases h with ⟨-, huser⟩ | ⟨-, newVal, hcsr⟩ | ⟨-, merge, newVal, hmerge, hcsr⟩ |
      ⟨level, -, hxret⟩
  · refine .of_trap ?_ ?_
    · rw [huser]
    · rw [huser]
  · exact csrrwx_setupKept htable hmode hcsr
  · exact csrrReadModifyWrite_setupKept hmerge htable hmode hcsr
  · obtain ⟨hlegal, rfl⟩ := xret_eq_ok hxret
    refine ⟨rfl, fun hclear => ?_⟩
    have hstatus : (s.trap.setReg .m .status (restoredStatus s.status s.currPrivMode)).reg .m
        .status = restoredStatus s.status s.currPrivMode := by
      rw [Trap.reg_setReg, if_pos ⟨rfl, .inl rfl⟩]
    show ((s.trap.setReg .m .status _).reg .m .status).getLsbD trapXstatusMprvBit = false
    rw [hstatus, restoredStatus_mprv _ hlegal]
    exact hclear

/-- One instruction below machine mode keeps what machine mode has set up. -/
theorem rvCoreRun_setupKept {busAccess : BusAccessFunc w σ} {s s' : RvCore w σ}
    (htable : TableKept s.csrRegs) (hmode : s.BelowMachine)
    (h : rvCoreRun busAccess s = .ok s') : SetupKept s s' := by
  rcases rvCoreRun_cases h with ⟨f, hfetch, rfl⟩ | ⟨cb, d, e, hexec, hhandler, rfl⟩
  · have hframe : SetupFrame s.atFetch f := rvCoreFetch_frame hfetch
    refine SetupKept.of_trap ?_ ?_
    · show f.pmp = s.pmp
      rw [hframe]
      rfl
    · show f.trap = s.trap
      rw [hframe]
      rfl
  · have hd : TableKept d.csrRegs ∧ d.BelowMachine ∧ d.pmp = s.pmp ∧ d.trap = s.trap := by
      rw [hexec.frame]
      exact ⟨htable, hmode, rfl, rfl⟩
    have hde : SetupKept d e := handler_setupKept hd.1 hd.2.1 hhandler
    exact ((SetupKept.of_trap hd.2.2.1 hd.2.2.2).trans hde).trans (.of_trap rfl rfl)

theorem rvCoreProcessInterrupts_setupKept {s s' : RvCore w σ} {mei mti msi : Byte}
    (h : rvCoreProcessInterrupts mei mti msi s = .ok s') : SetupKept s s' := by
  refine ⟨?_, fun hclear => ?_⟩
  · rw [rvCoreProcessInterrupts_frame h]
  · rcases rvCoreProcessInterrupts_status h with hs | ⟨serving, hserving, -, hs⟩
    · rw [RvCore.MprvClear, hs]
      exact hclear
    · have hlow := TrapNest.toNat_of_legal hserving
      have hbits : trapXstatusUpieBit = 4 ∧ trapXstatusMprvBit = 17 ∧ trapXstatusMppBit = 11 ∧
        trapXstatusSppBit = 8 := ⟨rfl, rfl, rfl, rfl⟩
      rw [RvCore.MprvClear, hs, TrapNest.getLsbD_servedStatus_of_ne _ hserving _ (by omega)
        (by omega) (fun _ => by omega) (fun _ => by omega)]
      exact hclear

end RiscvEm
