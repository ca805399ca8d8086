import RiscvEm.Core.CsrTable

/-!
What a mode below machine mode can change of the machine's state: nothing, except
that `CSRRW` without a destination zeroes the bits of a shared register that its
supervisor view does not show.
-/

namespace RiscvEm

variable {w : Xlen} {σ : Type}

/-! ### Trap registers -/

/-- The machine's own registers are the same, and the shared ones are outside the
bits of their supervisor view. -/
structure TrapKept (t t' : Trap w) : Prop where
  setup : t'.setup .m = t.setup .m
  handling : t'.handling .m = t.handling .m
  shared : ∀ r mask, sharedMask w r = some mask →
    BitField.AgreeOff mask (t.reg .m r) (t'.reg .m r)

theorem TrapKept.refl (t : Trap w) : TrapKept t t :=
  ⟨rfl, rfl, fun _ _ _ => .refl _ _⟩

theorem TrapKept.setReg_s {t : Trap w} {r : TrapReg} {v : RvUintXlen w}
    (h : ∀ mask, sharedMask w r = some mask → BitField.AgreeOff mask (t.reg .m r) v) :
    TrapKept t (t.setReg .s r v) := by
  have hsetup : (t.setReg .s r v).setup .m = t.setup .m := by
    cases r <;> rfl
  have hhandling : (t.setReg .s r v).handling .m = t.handling .m := by
    cases r <;> rfl
  refine ⟨hsetup, hhandling, fun r' mask hmask => ?_⟩
  rw [Trap.reg_setReg]
  split
  · next hr =>
      obtain rfl := hr.1
      exact h mask hmask
  · exact .refl _ _

/-- A return below machine mode writes two enable bits of its own. -/
theorem restoredStatus_agreeOff (status : RvUintXlen w) {p : PrivilegeLevel}
    (hp : p = .supervisor ∨ p = .user) :
    BitField.AgreeOff (csrSstatusMask w) status (restoredStatus status p) := by
  have hlegal : p.Legal := hp.elim (fun h => .inr (.inl h)) .inl
  have hmask : (csrSstatusMask w).getLsbD p.toInt.toNat = true ∧
      (csrSstatusMask w).getLsbD (trapXstatusUpieBit + p.toInt.toNat) = true := by
    rcases hp with rfl | rfl <;> cases w <;> decide
  rw [BitField.agreeOff_iff]
  intro k hk
  have hne : k ≠ p.toInt.toNat := by
    intro h
    rw [h, hmask.1] at hk
    cases hk
  have hne' : k ≠ trapXstatusUpieBit + p.toInt.toNat := by
    intro h
    rw [h, hmask.2] at hk
    cases hk
  rw [getLsbD_restoredStatus _ hlegal, if_neg hne', if_neg hne]

/-! ### CSR writes -/

/-- A granted write below machine mode is one of supervisor mode, to a value, to
`satp` or to a trap register of the supervisor. -/
theorem CsrWritten.below {s s' : RvCore w σ} (htable : TableKept s.csrRegs)
    (hmode : s.currPrivMode = .supervisor ∨ s.currPrivMode = .user) {address : Nat}
    {val : RvUintXlen w} (h : CsrWritten s s.currPrivMode address val s') :
    (s'.trap = s.trap ∧ s'.pmp = s.pmp) ∨
      s.currPrivMode = .supervisor ∧ ∃ r, (s.csrRegs address).callback = some (.trapS r) ∧
        (r.shared = true → (s.csrRegs address).warlAlwaysEnabled = 0 ∧
          sharedMask w r = some (s.csrRegs address).mask ∧ sharedView address = some r) ∧
        s' = { s with trap := s.trap.setReg .s r val } := by
  have hbelow := htable.belowMachine address
  simp only [CsrReg.belowMachine, Bool.and_eq_true, Bool.not_eq_true', Bool.or_eq_true] at hbelow
  obtain ⟨huser, hsuper⟩ := hbelow
  obtain ⟨hgrant, hwrite⟩ := h
  have hsupervisor : s.currPrivMode = .supervisor := by
    rcases hmode with hm | hm
    · exact hm
    · rw [hm, huser] at hgrant
      cases hgrant
  rw [hsupervisor] at hgrant
  rw [hgrant] at hsuper
  have hview := hsuper.resolve_left (by decide)
  rcases hwrite with ⟨cb, hcb, hs'⟩ | ⟨-, rfl⟩
  · rw [hcb] at hview
    cases cb with
    | trapM r => cases hview
    | pmpCfg i => cases hview
    | pmpAddr i => cases hview
    | mmu =>
        obtain ⟨-, rfl⟩ := Prod.mk.inj hs'
        exact .inl ⟨rfl, rfl⟩
    | trapS r =>
        obtain ⟨-, rfl⟩ := Prod.mk.inj hs'
        refine .inr ⟨hsupervisor, r, hcb, fun hr => ?_, rfl⟩
        simpa [hr, and_assoc] using hview
  · exact .inl ⟨rfl, rfl⟩

theorem shared_of_sharedMask {r : TrapReg} {mask : RvUintXlen w}
    (h : sharedMask w r = some mask) : r.shared = true := by
  cases r <;> first | rfl | cases h

theorem csrReadReg_view {s : RvCore w σ} {privLevel : PrivilegeLevel} {address : Nat}
    {r : TrapReg} {csrVal : RvUintXlen w} (hcb : (s.csrRegs address).callback = some (.trapS r))
    (hwarl : (s.csrRegs address).warlAlwaysEnabled = 0)
    (h : csrReadReg s privLevel address = .ok (some csrVal)) : csrVal = s.trap.reg .s r :=
  csrReadReg_callback hcb hwarl h

theorem illegalInstr_trap (s : RvCore w σ) :
    (illegalInstr s).trap = s.trap ∧ (illegalInstr s).pmp = s.pmp := by
  rw [illegalInstr, prepareSyncTrap]
  split
  · exact ⟨rfl, rfl⟩
  · exact ⟨rfl, rfl⟩

/-- The write without a destination through a view is harmless: the register has no
bit outside the view. -/
def HarmlessWrite (s : RvCore w σ) : Prop :=
  s.rd = 0 → ∀ r mask, sharedView s.csrAddr = some r → sharedMask w r = some mask →
    s.trap.reg .m r &&& ~~~mask = 0#w.bits

theorem csrrwx_kept {s s' : RvCore w σ} (htable : TableKept s.csrRegs)
    (hmode : s.currPrivMode = .supervisor ∨ s.currPrivMode = .user) {newVal : RvUintXlen w}
    (hharmless : s.currPrivMode = .supervisor → HarmlessWrite s) (h : csrrwx s newVal = .ok s') :
    TrapKept s.trap s'.trap ∧ s'.pmp = s.pmp := by
  obtain ⟨-, rfl | ⟨csrVal, s₁, hread, hzero, hwritten, rfl⟩⟩ := csrrwx_cases h
  · rw [(illegalInstr_trap s).1]
    exact ⟨.refl _, (illegalInstr_trap s).2⟩
  · show TrapKept s.trap s₁.trap ∧ s₁.pmp = s.pmp
    rcases hwritten.below htable hmode with ⟨htrap, hpmp⟩ | ⟨hsuper, r, hcb, hview, rfl⟩
    · rw [htrap]
      exact ⟨.refl _, hpmp⟩
    · refine ⟨TrapKept.setReg_s fun mask hmask => ?_, rfl⟩
      have hshared := shared_of_sharedMask hmask
      obtain ⟨hwarl, hentry, haddr⟩ := hview hshared
      obtain rfl := Option.some.inj (hentry.symm.trans hmask)
      by_cases hrd : s.rd = 0
      · rw [hzero hrd, BitVec.ofNat_eq_ofNat, BitVec.zero_and, BitVec.zero_or,
          BitField.agreeOff_masked_iff]
        exact hharmless hsuper hrd r _ haddr hmask
      · rw [csrReadReg_view hcb hwarl (hread hrd), Trap.reg_shared hshared s.trap .s]
        exact BitField.agreeOff_replace _ _ _

theorem csrrReadModifyWrite_kept {merge : RvUintXlen w → RvUintXlen w → RvUintXlen w}
    (hmerge : MaskedMerge merge) {s s' : RvCore w σ} (htable : TableKept s.csrRegs)
    (hmode : s.currPrivMode = .supervisor ∨ s.currPrivMode = .user) {newVal : RvUintXlen w}
    (h : csrrReadModifyWrite merge s newVal = .ok s') :
    TrapKept s.trap s'.trap ∧ s'.pmp = s.pmp := by
  obtain ⟨-, rfl | ⟨csrVal, s₁, hread, hwritten, hkept, rfl⟩⟩ := csrrReadModifyWrite_cases h
  · rw [(illegalInstr_trap s).1]
    exact ⟨.refl _, (illegalInstr_trap s).2⟩
  · show TrapKept s.trap s₁.trap ∧ s₁.pmp = s.pmp
    by_cases hrs1 : s.rs1 = 0
    · rw [hkept hrs1]
      exact ⟨.refl _, rfl⟩
    · rcases (hwritten hrs1).below htable hmode with ⟨htrap, hpmp⟩ | ⟨-, r, hcb, hview, rfl⟩
      · rw [htrap]
        exact ⟨.refl _, hpmp⟩
      · refine ⟨TrapKept.setReg_s fun mask hmask => ?_, rfl⟩
        have hshared := shared_of_sharedMask hmask
        obtain ⟨hwarl, hentry, -⟩ := hview hshared
        obtain rfl := Option.some.inj (hentry.symm.trans hmask)
        rw [csrReadReg_view hcb hwarl hread, Trap.reg_shared hshared s.trap .s]
        exact hmerge _ _ _

theorem csrrwx_view {s : RvCore w σ} (htable : TableKept s.csrRegs)
    (hmode : s.currPrivMode = .supervisor) (hrd : s.rd = 0) {r : TrapReg} {mask : RvUintXlen w}
    (hview : sharedView s.csrAddr = some r) (hmask : sharedMask w r = some mask)
    (newVal : RvUintXlen w) :
    ∃ s', csrrwx s newVal = .ok s' ∧ s'.trap = s.trap.setReg .s r (newVal &&& mask) := by
  obtain ⟨haddr, mask', hmask', hentry⟩ := rvCoreInitCsrRegs_sharedView (w := w) hview
  obtain rfl := Option.some.inj (hmask'.symm.trans hmask)
  have hattr := htable s.csrAddr
  rw [hentry] at hattr
  have hflags : (s.csrRegs s.csrAddr).accessFlags = accessMs :=
    congrArg CsrReg.accessFlags hattr
  have hregMask : (s.csrRegs s.csrAddr).mask = mask' := congrArg CsrReg.mask hattr
  have hcb : (s.csrRegs s.csrAddr).callback = some (.trapS r) := congrArg CsrReg.callback hattr
  have hgrant : csrAccessWriteGranted s.currPrivMode accessMs = true := by
    rw [hmode]
    decide
  have hbound : ¬ csrAddrMax < s.csrAddr := by omega
  have hwrite (val : RvUintXlen w) : csrWriteReg s s.currPrivMode s.csrAddr val =
      .ok (.ok, { s with trap := s.trap.setReg .s r val }) := by
    simp only [csrWriteReg, hbound, if_false, csrEntry, haddr, if_true, Except.ok_bind, hflags,
      hgrant, hcb]
    rfl
  let val := 0#w.bits &&& ~~~mask' ||| newVal &&& mask'
  refine ⟨RvCore.setX { s with trap := s.trap.setReg .s r val } s.rd (0#w.bits &&& mask'), ?_, ?_⟩
  · have hmaskOk : csrGetMask s s.csrAddr = .ok mask' := by
      simp only [csrGetMask, csrEntry, haddr, if_true, Except.ok_bind, hregMask,
        Except.pure_eq_ok]
    have hnot : ¬ s.rd ≠ 0 := not_not.mpr hrd
    simp only [RvCore.csrAddr] at hmaskOk hwrite
    simp only [csrrwx, hmaskOk, hnot, if_false, Except.ok_bind, hwrite, Except.pure_eq_ok]
    rfl
  · show s.trap.setReg .s r (0#w.bits &&& ~~~mask' ||| newVal &&& mask') = _
    rw [BitVec.zero_and, BitVec.zero_or]

/-! ### The whole instruction -/

structure MachineKept (s s' : RvCore w σ) : Prop where
  trap : TrapKept s.trap s'.trap
  pmp : s'.pmp = s.pmp

def CsrInTable (busAccess : BusAccessFunc w σ) (s : RvCore w σ) : Prop :=
  ∀ cb d, Executes busAccess s cb d → cb.kind = .csrWrite ∨ cb.kind = .csrModify →
    d.csrAddr < csrAddrMax

/-- The instruction at hand cannot reach the machine's state: it returns with that
state as it was, and it does not go past the end of the CSR table, where the PMP and
trap registers lie. -/
def MachineConfined (busAccess : BusAccessFunc w σ) (s : RvCore w σ) : Prop :=
  CsrInTable busAccess s ∧ ∀ s', rvCoreRun busAccess s = .ok s' → MachineKept s s'

theorem rvCoreRun_machineKept {busAccess : BusAccessFunc w σ} {s s' : RvCore w σ}
    (htable : TableKept s.csrRegs)
    (hmode : s.currPrivMode = .supervisor ∨ s.currPrivMode = .user)
    (hharmless : s.currPrivMode = .supervisor → ∀ cb d, Executes busAccess s cb d →
      cb.kind = .csrWrite → HarmlessWrite d)
    (h : rvCoreRun busAccess s = .ok s') : MachineKept s s' := by
  rcases rvCoreRun_cases h with ⟨f, hfetch, rfl⟩ | ⟨cb, d, e, hexec, hhandler, rfl⟩
  · have htrap : f.trap = s.trap := by
      rw [rvCoreFetch_frame hfetch]
      rfl
    have hpmp : f.pmp = s.pmp := by
      rw [rvCoreFetch_frame hfetch]
      rfl
    refine ⟨?_, hpmp⟩
    show TrapKept s.trap f.trap
    rw [htrap]
    exact .refl _
  · have htrap : d.trap = s.trap := by rw [hexec.frame]
    have hpmp : d.pmp = s.pmp := by rw [hexec.frame]
    have hd : d.currPrivMode = s.currPrivMode := by rw [hexec.frame]
    have htable' : TableKept d.csrRegs := by
      rw [hexec.frame]
      exact htable
    have hkept : TrapKept d.trap e.trap ∧ e.pmp = d.pmp := by
      rcases handler_cases hhandler with ⟨-, huser⟩ | ⟨hk, newVal, hcsr⟩ |
          ⟨-, merge, newVal, hmerge, hcsr⟩ | ⟨level, -, hxret⟩
      · rw [huser]
        exact ⟨.refl _, rfl⟩
      · exact csrrwx_kept htable' (hd ▸ hmode)
          (fun hm => hharmless (hd ▸ hm) cb d hexec hk) hcsr
      · exact csrrReadModifyWrite_kept hmerge htable' (hd ▸ hmode) hcsr
      · rw [(xret_eq_ok hxret).2]
        refine ⟨⟨rfl, rfl, fun r mask hmask => ?_⟩, rfl⟩
        rw [Trap.reg_setReg]
        split
        · next hr =>
            obtain rfl := hr.1
            obtain rfl := Option.some.inj hmask
            exact restoredStatus_agreeOff d.status (hd ▸ hmode)
        · exact .refl _ _
    rw [htrap, hpmp] at hkept
    exact ⟨hkept.1, hkept.2⟩

/-- Below machine mode the machine's state is out of reach of an instruction, unless
it is a CSR instruction that names no register of the table, or `CSRRW` in
supervisor mode without a destination, through a view of a register that has other
bits set. -/
theorem machineConfined_iff (busAccess : BusAccessFunc w σ) {s : RvCore w σ}
    (hs : CoreReachable busAccess s)
    (hmode : s.currPrivMode = .supervisor ∨ s.currPrivMode = .user) :
    MachineConfined busAccess s ↔
      CsrInTable busAccess s ∧ (s.currPrivMode = .supervisor → ∀ cb d,
        Executes busAccess s cb d → cb.kind = .csrWrite → HarmlessWrite d) := by
  have htable := hs.tableKept
  refine and_congr_right fun _ => ⟨fun hkept hsuper cb d hexec hk hrd r mask hview hmask => ?_,
    fun hharmless s' hrun => rvCoreRun_machineKept htable hmode hharmless hrun⟩
  have htrap : d.trap = s.trap := by rw [hexec.frame]
  have hd : d.currPrivMode = .supervisor := by
    rw [hexec.frame]
    exact hsuper
  have htable' : TableKept d.csrRegs := by
    rw [hexec.frame]
    exact htable
  have hhandler := handler_csrWrite busAccess hk d
  obtain ⟨e, hcsr, he⟩ := csrrwx_view htable' hd hrd hview hmask (cb.csrOperand d)
  have hagree := (hkept _ (hexec.run (hhandler.trans hcsr))).trap.shared r mask hmask
  have hreg : (advance (e.setX 0 0)).trap.reg .m r = cb.csrOperand d &&& mask := by
    have hshared := shared_of_sharedMask hmask
    show e.trap.reg .m r = cb.csrOperand d &&& mask
    rw [he, Trap.reg_setReg, if_pos ⟨rfl, .inr hshared⟩]
  rw [hreg, BitField.agreeOff_masked_iff] at hagree
  rw [htrap]
  exact hagree

/-- Machine mode opens the memory to supervisor mode and returns there with the
previous mode still in `MPP`; the last two instructions are `csrw sstatus, x0`. -/
def sstatusProgram : List (BitVec 32) :=
  [ 0xFFF00093, 0x3B009073,             -- pmpaddr0 = all ones
    0x01F00113, 0x3A011073,             -- pmpcfg0: NAPOT, all accesses
    0x000011B7, 0x0011D193, 0x30019073, -- mstatus.MPP = supervisor
    0x00001237, 0x02C20213, 0x34121073, -- mepc = 0x102C
    0x30200073, 0x10001073, 0x10001073 ]

/-- The calls that lead to the first write of `sstatus`. -/
def sstatusCalls : List (CoreCall Unit) := List.replicate 11 .run

/-- The second write of `sstatus` is harmless: there is nothing left to clear. -/
theorem machineConfined_iff_sstatus :
    ∃ s : RvCore .rv32 Unit, CoreReachable (romBus sstatusProgram) s ∧
      s.currPrivMode = .supervisor ∧ (∃ d, Executes (romBus sstatusProgram) s .csrrw d) ∧
      MachineConfined (romBus sstatusProgram) s := by
  have hcheck : (CoreCall.execAll (romBus sstatusProgram) (sstatusCalls ++ [.run])
      (rvCoreInit () : RvCore .rv32 Unit)).toOption.any (fun s =>
        s.currPrivMode == .supervisor && executesAny (romBus sstatusProgram) s fun cb d =>
          cb == .csrrw && d.csrAddr == csrAddrSstatus && d.trap.reg .m .status == 0) = true := by
    decide +kernel
  obtain ⟨s, hrun, hs⟩ := CoreCall.exists_of_execAll hcheck
  obtain ⟨hmode, hexec⟩ := Bool.and_eq_true_iff.mp hs
  obtain ⟨cb, d, hexec, hd⟩ := exists_of_executesAny hexec
  simp only [Bool.and_eq_true, beq_iff_eq] at hd
  obtain ⟨⟨rfl, haddr⟩, hstatus⟩ := hd
  have hreach : CoreReachable (romBus sstatusProgram) s := ⟨_, ⟨(), rfl⟩, hrun⟩
  have hmode : s.currPrivMode = .supervisor := eq_of_beq hmode
  refine ⟨s, hreach, hmode, ⟨d, hexec⟩,
    (machineConfined_iff _ hreach (.inl hmode)).mpr ⟨?_, fun _ cb d' hexec' _ => ?_⟩⟩
  · intro cb d' hexec' _
    obtain ⟨-, rfl⟩ := hexec.unique hexec'
    rw [haddr]
    decide
  · obtain ⟨-, rfl⟩ := hexec.unique hexec'
    intro _ r mask hview _
    rw [haddr] at hview
    obtain rfl := Option.some.inj hview
    rw [hstatus]
    exact BitVec.zero_and

/-- Supervisor mode clears `MPP`. -/
theorem supervisor_clears_mpp :
    ¬ ∀ (busAccess : BusAccessFunc .rv32 Unit) (s s' : RvCore .rv32 Unit),
      CoreReachable busAccess s → s.currPrivMode = .supervisor ∨ s.currPrivMode = .user →
        rvCoreRun busAccess s = .ok s' → MachineKept s s' := by
  intro h
  have hcheck : (CoreCall.execAll (romBus sstatusProgram) sstatusCalls
      (rvCoreInit () : RvCore .rv32 Unit)).toOption.any (fun s =>
        decide (s.currPrivMode = .supervisor) &&
          (rvCoreRun (romBus sstatusProgram) s).toOption.any fun s' =>
            s.status &&& ~~~csrSstatusMask .rv32 != s'.status &&& ~~~csrSstatusMask .rv32) =
        true := by
    decide +kernel
  obtain ⟨s, hrun, hs⟩ := CoreCall.exists_of_execAll hcheck
  rw [Bool.and_eq_true, decide_eq_true_eq] at hs
  obtain ⟨hmode, hdiff⟩ := hs
  obtain ⟨s', hlast, hbits⟩ := Except.exists_of_any_toOption hdiff
  have hagree := (h _ s s' ⟨_, ⟨(), rfl⟩, hrun⟩ (.inl hmode) hlast).trap.shared .status _ rfl
  exact bne_iff_ne.mp hbits hagree

end RiscvEm
