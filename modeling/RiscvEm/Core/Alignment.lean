import RiscvEm.Core.CsrTable
import RiscvEm.Core.Delivery
import RiscvEm.Core.Transfer

/-!
The alignment of the program counter over runs.

Jumps and branches check their targets, and the trap vectors are aligned by the masks of
their CSRs. The saved addresses that a return goes on at are plain words.
-/

namespace RiscvEm

variable {w : Xlen} {σ : Type}

/-! ### The trap vectors -/

/-- An entry for a trap vector has no low bits to write, and none that reads as one. -/
def CsrReg.vectorMasked (r : CsrReg w) : Bool :=
  match r.callback with
  | some (.trapM .tvec) | some (.trapS .tvec) =>
      r.mask.toNat % 2 ^ 2 == 0 && r.warlAlwaysEnabled == 0
  | _ => true

theorem csrInitList_vectorMasked :
    (csrInitList w).all (fun entry => entry.2.vectorMasked) = true := by
  cases w <;> decide

theorem TableKept.vectorMasked {table : Nat → CsrReg w} (h : TableKept table) (a : Nat) :
    (table a).vectorMasked = true :=
  h.check (fun _ r => r.vectorMasked) (fun _ _ => rfl) (fun _ => rfl) csrInitList_vectorMasked a

structure RvCore.VectorsAligned (s : RvCore w σ) : Prop where
  tvec : ∀ l, (s.trap.reg l .tvec).toNat % 4 = 0
  table : TableKept s.csrRegs

theorem RvCore.VectorsAligned.of_trap {s s' : RvCore w σ} (hs : s.VectorsAligned)
    (htrap : s'.trap = s.trap) (htable : TableKept s'.csrRegs) : s'.VectorsAligned :=
  ⟨fun l => by rw [htrap]; exact hs.tvec l, htable⟩

/-- A write through the masks of the table leaves the vectors aligned. -/
theorem RvCore.VectorsAligned.written {s s' : RvCore w σ} (hs : s.VectorsAligned)
    {address : Nat} {csrVal val : RvUintXlen w}
    (hold : csrVal = 0 ∨ csrReadReg s s.currPrivMode address = .ok (some csrVal))
    (hval : BitField.AgreeOff (s.csrRegs address).mask csrVal val)
    (h : CsrWritten s s.currPrivMode address val s') : s'.VectorsAligned := by
  have htable' : TableKept s'.csrRegs := hs.table.written h
  have hcheck := hs.table.vectorMasked address
  -- a vector takes the low bits of the value that was read from it
  have hvector {l : TrapLevel} {cb : CsrCallback}
      (hcb : (s.csrRegs address).callback = some cb) (hread : csrReadCb s cb = s.trap.reg l .tvec)
      (hmask : (s.csrRegs address).mask.toNat % 2 ^ 2 = 0)
      (hwarl : (s.csrRegs address).warlAlwaysEnabled = 0) : val.toNat % 4 = 0 := by
    have hmod : csrVal.toNat % 4 = val.toNat % 4 := hval.mod_eq hmask
    rw [← hmod]
    rcases hold with rfl | hold
    · rfl
    · rw [csrReadReg_callback hcb hwarl hold, hread]
      exact hs.tvec l
  have hset {l : TrapLevel} {r : TrapReg} (hr : r = .tvec → val.toNat % 4 = 0)
      (htrap : s'.trap = s.trap.setReg l r val) : s'.VectorsAligned := by
    refine ⟨fun l' => ?_, htable'⟩
    rw [htrap, Trap.reg_setReg]
    split
    · next hreg => exact hr hreg.1.symm
    · exact hs.tvec l'
  obtain ⟨-, ⟨cb, hcb, hwrite⟩ | ⟨-, rfl⟩⟩ := h
  · rw [CsrReg.vectorMasked, hcb] at hcheck
    cases cb with
    | trapM r =>
        obtain ⟨-, rfl⟩ := Prod.mk.inj hwrite
        refine hset (l := .m) (r := r) (fun hr => ?_) rfl
        subst hr
        rw [Bool.and_eq_true, beq_iff_eq, beq_iff_eq] at hcheck
        exact hvector hcb (l := .m) rfl hcheck.1 hcheck.2
    | trapS r =>
        obtain ⟨-, rfl⟩ := Prod.mk.inj hwrite
        refine hset (l := .s) (r := r) (fun hr => ?_) rfl
        subst hr
        rw [Bool.and_eq_true, beq_iff_eq, beq_iff_eq] at hcheck
        exact hvector hcb (l := .s) rfl hcheck.1 hcheck.2
    | mmu =>
        obtain ⟨-, rfl⟩ := Prod.mk.inj hwrite
        exact hs.of_trap rfl htable'
    | pmpCfg i =>
        obtain ⟨-, rfl⟩ := Prod.mk.inj hwrite
        exact hs.of_trap rfl htable'
    | pmpAddr i =>
        obtain ⟨-, rfl⟩ := Prod.mk.inj hwrite
        exact hs.of_trap rfl htable'
  · exact hs.of_trap rfl htable'

theorem illegalInstr_reg (s : RvCore w σ) : (illegalInstr s).trap = s.trap := by
  rw [illegalInstr, prepareSyncTrap]
  split
  · rfl
  · rfl

theorem RvCore.VectorsAligned.handler {busAccess : BusAccessFunc w σ} {cb : ExecutionCb}
    {s s' : RvCore w σ} (hs : s.VectorsAligned) (h : cb.handler busAccess s = .ok s') :
    s'.VectorsAligned := by
  have htable' : TableKept s'.csrRegs := hs.table.handler h
  rcases handler_cases h with ⟨-, huser⟩ | ⟨-, newVal, hcsr⟩ | ⟨-, merge, newVal, hmerge, hcsr⟩ |
      ⟨level, -, hxret⟩
  · refine hs.of_trap ?_ htable'
    rw [huser]
  · obtain ⟨-, rfl | ⟨csrVal, s₁, hread, hzero, hwritten, rfl⟩⟩ := csrrwx_cases hcsr
    · exact hs.of_trap (illegalInstr_reg s) htable'
    · have hold : csrVal = 0 ∨ csrReadReg s s.currPrivMode s.csrAddr = .ok (some csrVal) := by
        by_cases hrd : s.rd = 0
        · exact .inl (hzero hrd)
        · exact .inr (hread hrd)
      exact (hs.written hold (BitField.agreeOff_replace _ _ _) hwritten).of_trap rfl htable'
  · obtain ⟨-, rfl | ⟨csrVal, s₁, hread, hwritten, hkept, rfl⟩⟩ :=
      csrrReadModifyWrite_cases hcsr
    · exact hs.of_trap (illegalInstr_reg s) htable'
    · by_cases hrs1 : s.rs1 = 0
      · refine hs.of_trap ?_ htable'
        rw [hkept hrs1]
        rfl
      · exact (hs.written (.inr hread) (hmerge _ _ _) (hwritten hrs1)).of_trap rfl htable'
  · refine ⟨fun l => ?_, htable'⟩
    rw [(xret_eq_ok hxret).2]
    show ((s.trap.setReg .m .status _).reg l .tvec).toNat % 4 = 0
    rw [Trap.reg_setReg, if_neg (fun hr => nomatch hr.1)]
    exact hs.tvec l

/-! ### One call -/

def MisalignedReturn (busAccess : BusAccessFunc w σ) (s : RvCore w σ) : Prop :=
  ∃ cb d level, Executes busAccess s cb d ∧ cb.kind = .xret level ∧
    (s.trap.reg level .epc).toNat % 4 ≠ 0

def AlignedStep (busAccess : BusAccessFunc w σ) (s s' : RvCore w σ) : Prop :=
  ∃ call : CoreCall σ, call.exec busAccess s = .ok s' ∧
    (call = .run → ¬ MisalignedReturn busAccess s)

theorem aligned_add {a b : RvUintXlen w} (ha : a.toNat % 4 = 0) (hb : b.toNat % 4 = 0) :
    (a + b).toNat % 4 = 0 := by
  rw [BitVec.toNat_add, Nat.mod_mod_of_dvd _ four_dvd_pow]
  omega

theorem four_aligned : (4#w.bits).toNat % 4 = 0 := by
  cases w <;> rfl

theorem aligned_of_check {v : RvUintXlen w} (h : ¬ addrMisaligned v = true) :
    v.toNat % 4 = 0 := by
  rw [addrMisaligned_eq, decide_eq_true_iff, not_not] at h
  exact h

theorem ComputeShape.nextPc_aligned {handler : Handler w σ} (hshape : ComputeShape handler)
    {s s' : RvCore w σ} (hpc : s.pc.toNat % 4 = 0) (hnext : s.nextPc.toNat % 4 = 0)
    (h : handler s = .ok s') : s'.nextPc.toNat % 4 = 0 := by
  cases hshape with
  | setRd value =>
      obtain rfl := Except.ok.inj h
      exact hnext
  | extendImmediate value =>
      obtain rfl := Except.ok.inj h
      exact hnext
  | branch taken =>
      rw [RiscvEm.branch] at h
      split at h
      · split at h
        · cases h
        · next hcheck =>
            obtain rfl := Except.ok.inj h
            exact aligned_add hpc (aligned_of_check hcheck)
      · obtain rfl := Except.ok.inj h
        exact hnext
  | nop =>
      obtain rfl := Except.ok.inj h
      exact hnext
  | jal =>
      simp only [instrJal] at h
      split at h
      · cases h
      · next hcheck =>
          obtain rfl := Except.ok.inj h
          exact aligned_add hpc (aligned_of_check hcheck)
  | jalr =>
      simp only [instrJalr] at h
      split at h
      · cases h
      · next hcheck =>
          obtain rfl := Except.ok.inj h
          exact aligned_of_check hcheck

/-- Every instruction but a return leaves an aligned target, or none, and the program
counter as it was. -/
theorem handler_nextPc_aligned {busAccess : BusAccessFunc w σ} {cb : ExecutionCb}
    {s s' : RvCore w σ} (hpc : s.pc.toNat % 4 = 0) (hnext : s.nextPc.toNat % 4 = 0)
    (hcb : ∀ level, cb.kind ≠ .xret level) (h : cb.handler busAccess s = .ok s') :
    s'.pc = s.pc ∧ s'.nextPc.toNat % 4 = 0 := by
  rcases handler_cases h with ⟨hk, huser⟩ | ⟨-, newVal, hcsr⟩ | ⟨-, merge, newVal, -, hcsr⟩ |
      ⟨level, hk, -⟩
  · refine ⟨by rw [huser], ?_⟩
    by_cases hcompute : cb.kind = .compute
    · exact (handler_compute_shape busAccess hcompute).nextPc_aligned hpc hnext h
    · rw [handler_memory_frame hcompute hk h]
      exact hnext
  · rw [csrrwx_frame hcsr]
    exact ⟨rfl, hnext⟩
  · rw [csrrReadModifyWrite_frame hcsr]
    exact ⟨rfl, hnext⟩
  · exact absurd hk (hcb level)

theorem advance_aligned {s : RvCore w σ} (hpc : s.pc.toNat % 4 = 0)
    (hnext : s.nextPc.toNat % 4 = 0) : (advance s).pc.toNat % 4 = 0 := by
  rw [advance_pc]
  split
  · exact hnext
  · exact aligned_add hpc four_aligned

/-- One instruction leaves an aligned program counter aligned unless it is a return to
another address. -/
theorem rvCoreRun_aligned_iff {busAccess : BusAccessFunc w σ} {s s' : RvCore w σ}
    (hs : s.pc.toNat % 4 = 0) (h : rvCoreRun busAccess s = .ok s') :
    s'.pc.toNat % 4 = 0 ↔ ¬ MisalignedReturn busAccess s := by
  rcases rvCoreRun_cases h with ⟨f, hfetch, rfl⟩ | ⟨cb, d, e, hexec, hhandler, rfl⟩
  · refine iff_of_true (advance_aligned ?_ ?_) ?_
    · rw [rvCoreFetch_frame hfetch]
      exact hs
    · rw [rvCoreFetch_nextPc hfetch]
      rfl
    · rintro ⟨cb, d, level, ⟨f', hfetch', -, -⟩, -⟩
      cases hfetch.symm.trans hfetch'
  · have hpc : d.pc.toNat % 4 = 0 := by
      rw [hexec.frame]
      exact hs
    have hnext : d.nextPc.toNat % 4 = 0 := by
      rw [hexec.nextPc]
      rfl
    by_cases hcb : ∃ level, cb.kind = .xret level
    · obtain ⟨level, hk⟩ := hcb
      have htrap : d.trap = s.trap := by rw [hexec.frame]
      rw [handler_xret busAccess hk] at hhandler
      obtain ⟨-, rfl⟩ := xret_eq_ok hhandler
      have hiff : MisalignedReturn busAccess s ↔ (d.trap.reg level .epc).toNat % 4 ≠ 0 := by
        rw [htrap]
        constructor
        · rintro ⟨cb', d', level', hexec', hk', hmis⟩
          obtain ⟨rfl, -⟩ := hexec.unique hexec'
          obtain rfl := HandlerKind.xret.inj (hk'.symm.trans hk)
          exact hmis
        · exact fun hmis => ⟨cb, d, level, hexec, hk, hmis⟩
      rw [hiff, not_not, advance_pc]
      split
      · exact Iff.rfl
      · next hzero =>
          -- a return to zero goes on with the next instruction
          have hepc : d.trap.reg level .epc = 0 := not_not.mp hzero
          rw [hepc]
          exact iff_of_true (aligned_add hpc four_aligned) rfl
    · have hother (level : TrapLevel) : cb.kind ≠ .xret level := fun hk => hcb ⟨level, hk⟩
      obtain ⟨hepc, henext⟩ := handler_nextPc_aligned hpc hnext hother hhandler
      refine iff_of_true (advance_aligned (s := e.setX 0 0) ?_ henext) ?_
      · exact (congrArg (fun v => v.toNat % 4) hepc).trans hpc
      · rintro ⟨cb', d', level, hexec', hk', -⟩
        obtain ⟨rfl, -⟩ := hexec.unique hexec'
        exact hother level hk'

/-! ### Over runs -/

theorem RvCore.VectorsAligned.updated {s : RvCore w σ} (hs : s.VectorsAligned)
    (mei mti msi : Byte) : (rvCoreUpdateInterrupts s mei mti msi).VectorsAligned := by
  refine ⟨fun l => ?_, hs.table⟩
  show ((trapSetPendingBits s.trap mei mti msi).reg l .tvec).toNat % 4 = 0
  rw [trapSetPendingBits_reg _ _ _ _ _ (by decide)]
  exact hs.tvec l

theorem RvCore.VectorsAligned.step {busAccess : BusAccessFunc w σ} {s s' : RvCore w σ}
    (hs : s.VectorsAligned) (h : CoreStep busAccess s s') : s'.VectorsAligned := by
  obtain ⟨call, hcall⟩ := h
  cases call with
  | run =>
      have htable' : TableKept s'.csrRegs := hs.table.rvCoreRun hcall
      rcases rvCoreRun_cases hcall with ⟨f, hfetch, rfl⟩ | ⟨cb, d, e, hexec, hhandler, rfl⟩
      · refine hs.of_trap ?_ htable'
        show f.trap = s.trap
        rw [rvCoreFetch_frame hfetch]
        rfl
      · have hd : d.VectorsAligned := by
          rw [hexec.frame]
          exact ⟨hs.tvec, hs.table⟩
        exact (hd.handler hhandler).of_trap rfl htable'
  | environment priv =>
      obtain rfl := Except.ok.inj hcall
      exact ⟨hs.tvec, hs.table⟩
  | processInterrupts mei mti msi =>
      have hupdate := hs.updated mei mti msi
      have hserved (serving : PrivilegeLevel) (isInterrupt : Bool) (cause : RvUintXlen w) :
          ((rvCoreUpdateInterrupts s mei mti msi).served serving isInterrupt
            cause).VectorsAligned := by
        refine ⟨fun l => ?_, hupdate.table⟩
        rw [RvCore.served_tvec]
        exact hupdate.tvec l
      rcases rvCorePrepareInterrupts_cases hcall with
        ⟨-, serving, -, rfl⟩ | ⟨-, rfl | ⟨serving, cause, -, rfl⟩⟩
      · exact ⟨(hserved serving false _).tvec, (hserved serving false 0).table⟩
      · exact hupdate
      · exact hserved serving true cause

theorem CoreReachable.vectorsAligned {busAccess : BusAccessFunc w σ} {s : RvCore w σ}
    (h : CoreReachable busAccess s) : s.VectorsAligned := by
  refine Transition.Reachable.invariant (P := RvCore.VectorsAligned) h ?_ ?_
  · rintro a ⟨priv, rfl⟩
    refine ⟨fun l => ?_, fun _ => rfl⟩
    show ((Trap.setReg {} .m .isa (initialIsa w)).reg l .tvec).toNat % 4 = 0
    rw [Trap.reg_setReg, if_neg (fun hr => nomatch hr.1)]
    cases l <;> rfl
  · exact fun a b ha hstep => ha.step hstep

theorem AlignedStep.pc_aligned {busAccess : BusAccessFunc w σ} {s s' : RvCore w σ}
    (hs : s.pc.toNat % 4 = 0) (hvectors : s.VectorsAligned) (h : AlignedStep busAccess s s') :
    s'.pc.toNat % 4 = 0 := by
  obtain ⟨call, hcall, hguard⟩ := h
  cases call with
  | run => exact (rvCoreRun_aligned_iff hs hcall).mpr (hguard rfl)
  | environment priv =>
      obtain rfl := Except.ok.inj hcall
      exact hs
  | processInterrupts mei mti msi =>
      -- a trap goes on at the vector of its level
      have hupdate := hvectors.updated mei mti msi
      rcases rvCorePrepareInterrupts_cases hcall with
        ⟨-, serving, -, rfl⟩ | ⟨-, rfl | ⟨serving, cause, -, rfl⟩⟩
      · exact hupdate.tvec serving.trapLevel
      · exact hs
      · exact hupdate.tvec serving.trapLevel

/-- Along a run without returns to misaligned addresses the program counter is aligned,
and the next instruction leaves it so just if it is no such return either. -/
theorem aligned_run_pc (busAccess : BusAccessFunc w σ) {s₀ s : RvCore w σ} (h₀ : s₀.Initial)
    (hrun : Relation.ReflTransGen (AlignedStep busAccess) s₀ s) :
    s.pc.toNat % 4 = 0 ∧ ∀ s', rvCoreRun busAccess s = .ok s' →
      (s'.pc.toNat % 4 = 0 ↔ ¬ MisalignedReturn busAccess s) := by
  have hsteps : s.pc.toNat % 4 = 0 ∧ CoreReachable busAccess s := by
    induction hrun with
    | refl =>
        refine ⟨?_, .of_init h₀⟩
        obtain ⟨priv, rfl⟩ := h₀
        show (BitVec.ofNat w.bits mromBaseAddr).toNat % 4 = 0
        cases w <;> decide
    | tail _ hstep ih =>
        obtain ⟨hpc, hreach⟩ := ih
        refine ⟨hstep.pc_aligned hpc hreach.vectorsAligned, hreach.tail ?_⟩
        obtain ⟨call, hcall, -⟩ := hstep
        exact ⟨call, hcall⟩
  exact ⟨hsteps.1, fun s' h => rvCoreRun_aligned_iff hsteps.1 h⟩

/-- One step with `jal x0, 8`. -/
theorem aligned_run_pc_jal :
    ∃ s, Relation.ReflTransGen (AlignedStep (romBus [0x0080006F]))
        (rvCoreInit () : RvCore .rv32 Unit) s ∧ s.pc = 0x1008 ∧ s.pc.toNat % 4 = 0 := by
  have hcheck : (rvCoreRun (romBus [0x0080006F]) (rvCoreInit () : RvCore .rv32 Unit)).toOption.any
      (fun s => s.pc == 0x1008) = true := by
    decide
  obtain ⟨s, hs, hpc⟩ := Except.exists_of_any_toOption hcheck
  have hstep : AlignedStep (romBus [0x0080006F]) (rvCoreInit ()) s := by
    refine ⟨.run, hs, fun _ => ?_⟩
    rintro ⟨cb, d, level, -, -, hmis⟩
    exact hmis rfl
  have hrun := Relation.ReflTransGen.single hstep
  exact ⟨s, hrun, eq_of_beq hpc, (aligned_run_pc (romBus [0x0080006F]) ⟨(), rfl⟩ hrun).1⟩

/-- `addi x1, x0, 2; csrw mepc, x1; mret` -/
def misalignedReturnProgram : List (BitVec 32) := [0x00200093, 0x34109073, 0x30200073]

/-- The program above goes on at the address two. -/
theorem misaligned_pc_reached :
    ¬ ∀ (busAccess : BusAccessFunc .rv32 Unit) (s : RvCore .rv32 Unit),
      CoreReachable busAccess s → s.pc.toNat % 4 = 0 := by
  intro h
  have hcheck : (CoreCall.execAll (romBus misalignedReturnProgram) [.run, .run, .run]
      (rvCoreInit () : RvCore .rv32 Unit)).toOption.any (fun s => s.pc == 2) = true := by
    decide +kernel
  obtain ⟨s, hrun, hpc⟩ := CoreCall.exists_of_execAll hcheck
  have haligned := h (romBus misalignedReturnProgram) s ⟨_, ⟨(), rfl⟩, hrun⟩
  rw [eq_of_beq hpc] at haligned
  exact absurd haligned (by decide)

end RiscvEm
