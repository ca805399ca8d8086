import RiscvEm.Core.CsrAccess

/-!
The two views of the registers that machine and supervisor mode share.

Each view has its own entry in the CSR table, with its own mask and its own bits that
always read as one, over one word.
-/

namespace RiscvEm

variable {w : Xlen} {σ : Type}

/-! ### Reading a register -/

def csrRead (s : RvCore w σ) (p : PrivilegeLevel) (address : Nat) :
    Except Stop (Option (RvUintXlen w)) := do
  let mask ← csrGetMask s address
  let csrVal ← csrReadReg s p address
  return csrVal.map (· &&& mask)

/-- A CSR instruction that completes and reads leaves that value in its destination. -/
theorem CsrCompletes.csrRead {cb : ExecutionCb} {s s' : RvCore w σ} (h : CsrCompletes cb s s')
    (hread : ReadsCsr cb s) (haddr : s.csrAddr < csrAddrMax) :
    RiscvEm.csrRead s s.currPrivMode s.csrAddr = .ok (some (s'.x s'.rd)) := by
  obtain ⟨-, csrVal, s₁, hval, -, -, rfl⟩ := h
  have hdest : (s₁.setX s₁.rd (csrVal &&& (s.csrRegs s.csrAddr).mask)).x s₁.rd =
      csrVal &&& (s.csrRegs s.csrAddr).mask := Function.update_self _ _ _
  rw [RiscvEm.csrRead, csrGetMask, csrEntry_eq haddr, hval hread]
  exact congrArg (fun v => Except.ok (some v)) hdest.symm

def csrAddrMstatus : Nat := 0x300
def csrAddrMie : Nat := 0x304
def csrAddrMip : Nat := 0x344

def machineView (address : Nat) : Option TrapReg :=
  if address = csrAddrMstatus then some .status
  else if address = csrAddrMie then some .ie
  else if address = csrAddrMip then some .ip
  else none

/-- A read of a supervisor view is a read of the machine view at the same moment,
restricted to the mask of the supervisor view. -/
def SharedViewsAgree (s : RvCore w σ) : Prop :=
  ∀ address address' r mask p, sharedView address = some r → machineView address' = some r →
    sharedMask w r = some mask → p = .supervisor ∨ p = .machine →
      ∃ v, csrRead s .machine address' = .ok (some v) ∧
        csrRead s p address = .ok (some (v &&& mask))

/-! ### The entries of the views -/

/-- The bits of a shared register that its machine view shows, and those that it always
shows as one. -/
def machineMask (w : Xlen) : TrapReg → RvUintXlen w × RvUintXlen w
  | .status => (csrMstatusMask w, xstatusWarlBits w)
  | _ => (csrMipMieMask w, 0)

theorem rvCoreInitCsrRegs_machineView {a : Nat} {r : TrapReg} (h : machineView a = some r) :
    a < csrAddrMax ∧ rvCoreInitCsrRegs w a =
      { accessFlags := csrAccessRw .machine, mask := (machineMask w r).1
        warlAlwaysEnabled := (machineMask w r).2, callback := some (.trapM r) } := by
  rw [machineView] at h
  split at h
  · next ha =>
      obtain rfl := Option.some.inj h
      subst ha
      exact ⟨by decide, by cases w <;> decide +kernel⟩
  · split at h
    · next ha =>
        obtain rfl := Option.some.inj h
        subst ha
        exact ⟨by decide, by cases w <;> decide +kernel⟩
    · split at h
      · next ha =>
          obtain rfl := Option.some.inj h
          subst ha
          exact ⟨by decide, by cases w <;> decide +kernel⟩
      · cases h

theorem csrRead_eq {s : RvCore w σ} {p : PrivilegeLevel} {address : Nat}
    (haddr : address < csrAddrMax) {entry : CsrReg w} {cb : CsrCallback}
    (hentry : (s.csrRegs address).attributes = entry) (hcb : entry.callback = some cb)
    (hgrant : csrAccessReadGranted p entry.accessFlags = true) :
    csrRead s p address =
      .ok (some ((csrReadCb s cb ||| entry.warlAlwaysEnabled) &&& entry.mask)) := by
  subst hentry
  have hcb' : (s.csrRegs address).callback = some cb := hcb
  have hgrant' : csrAccessReadGranted p (s.csrRegs address).accessFlags = true := hgrant
  have hbound : ¬ csrAddrMax < address := by omega
  have hvalue : csrReadReg s p address =
      .ok (some (csrReadCb s cb ||| (s.csrRegs address).warlAlwaysEnabled)) := by
    rw [csrReadReg, if_neg hbound, csrEntry_eq haddr]
    simp only [Except.ok_bind, if_pos hgrant', hcb']
    rfl
  rw [csrRead, csrGetMask, csrEntry_eq haddr, hvalue]
  rfl

theorem csrRead_views {s : RvCore w σ} (htable : TableKept s.csrRegs) {address address' : Nat}
    {r : TrapReg} {mask : RvUintXlen w} {p : PrivilegeLevel} (hview : sharedView address = some r)
    (hmachine : machineView address' = some r) (hmask : sharedMask w r = some mask)
    (hp : p = .supervisor ∨ p = .machine) :
    csrRead s .machine address' = .ok (some
        ((s.trap.reg .m r ||| (machineMask w r).2) &&& (machineMask w r).1)) ∧
      csrRead s p address = .ok (some (s.trap.reg .m r &&& mask)) := by
  obtain ⟨haddr, mask', hmask', hentry⟩ := rvCoreInitCsrRegs_sharedView (w := w) hview
  obtain ⟨haddr', hentry'⟩ := rvCoreInitCsrRegs_machineView (w := w) hmachine
  obtain rfl := Option.some.inj (hmask.symm.trans hmask')
  have hattr := htable address
  have hattr' := htable address'
  rw [hentry] at hattr
  rw [hentry'] at hattr'
  have hshared : r.shared = true := by
    cases r <;> first | rfl | cases hmask
  constructor
  · have hgrant : csrAccessReadGranted .machine (csrAccessRw .machine) = true := by decide
    exact csrRead_eq haddr' hattr' rfl hgrant
  · have hgrant : csrAccessReadGranted p accessMs = true := by
      rcases hp with rfl | rfl
      · decide
      · decide
    rw [csrRead_eq haddr hattr rfl hgrant, ← Trap.reg_shared hshared s.trap .s]
    simp only [CsrReg.attributes, csrReadCb, trapSRead, BitVec.ofNat_eq_ofNat, BitVec.or_zero]

/-- The bits that both views show are those of the supervisor view, and one of them is
shown as one by the machine view only. -/
theorem status_views_iff (v : RvUintXlen w) :
    (v ||| xstatusWarlBits w) &&& csrMstatusMask w &&& csrSstatusMask w =
        v &&& csrSstatusMask w ↔ (w = .rv64 → v.getLsbD 33 = true) := by
  cases w with
  | rv32 =>
      have hsub : csrMstatusMask .rv32 &&& csrSstatusMask .rv32 = csrSstatusMask .rv32 := by
        decide
      refine iff_of_true ?_ (fun h => by cases h)
      rw [BitVec.and_assoc, hsub, xstatusWarlBits, BitVec.ofNat_eq_ofNat, BitVec.or_zero]
  | rv64 =>
      have hsub : csrMstatusMask .rv64 &&& csrSstatusMask .rv64 = csrSstatusMask .rv64 := by
        decide
      have hbit : ∀ k < 64, (csrSstatusMask .rv64).getLsbD k = true →
          (xstatusWarlBits .rv64).getLsbD k = decide (k = 33) := by
        decide
      rw [BitVec.and_assoc, hsub]
      constructor
      · rintro h -
        have h33 := congrArg (fun v : RvUintXlen .rv64 => v.getLsbD 33) h
        have hmask : (csrSstatusMask .rv64).getLsbD 33 = true := by decide
        simp only [BitVec.getLsbD_and, BitVec.getLsbD_or, hmask, hbit 33 (by decide) hmask,
          decide_true, Bool.or_true, Bool.and_true] at h33
        exact h33.symm
      · intro h
        have h33 := h rfl
        apply BitVec.eq_of_getLsbD_eq
        intro k hk
        rw [BitVec.getLsbD_and, BitVec.getLsbD_and, BitVec.getLsbD_or]
        cases hmask : (csrSstatusMask .rv64).getLsbD k with
        | false => rw [Bool.and_false, Bool.and_false]
        | true =>
            rw [hbit k hk hmask]
            by_cases hk33 : k = 33
            · rw [hk33, h33]
              rfl
            · rw [decide_eq_false hk33, Bool.or_false]

theorem interrupt_views (v : RvUintXlen w) :
    (v ||| 0) &&& csrMipMieMask w &&& csrSipSieMask w = v &&& csrSipSieMask w := by
  have hsub : csrMipMieMask w &&& csrSipSieMask w = csrSipSieMask w := by
    cases w <;> decide
  rw [BitVec.and_assoc, hsub, BitVec.ofNat_eq_ofNat, BitVec.or_zero]

/-! ### Over runs -/

/-- In every state that is reached the views agree, but in the 64-bit build only while
the upper bit of the field `UXL` is set in the shared word. -/
theorem sharedViewsAgree_iff {busAccess : BusAccessFunc w σ} {s : RvCore w σ}
    (hreach : CoreReachable busAccess s) :
    SharedViewsAgree s ↔ (w = .rv64 → s.status.getLsbD 33 = true) := by
  have htable := hreach.tableKept
  constructor
  · intro h
    obtain ⟨v, hv, hs⟩ := h csrAddrSstatus csrAddrMstatus .status _ .machine rfl rfl rfl (.inr rfl)
    have hview : sharedView csrAddrSstatus = some .status := rfl
    have hview' : machineView csrAddrMstatus = some .status := rfl
    have hmask : sharedMask w .status = some (csrSstatusMask w) := rfl
    obtain ⟨hmachine, hsupervisor⟩ := csrRead_views htable hview hview' hmask (.inr rfl)
    obtain rfl := Option.some.inj (Except.ok.inj (hv.symm.trans hmachine))
    exact (status_views_iff _).mp (Option.some.inj (Except.ok.inj (hs.symm.trans hsupervisor)))
  · intro h address address' r mask p hview hmachine hmask hp
    obtain ⟨hread, hread'⟩ := csrRead_views htable hview hmachine hmask hp
    refine ⟨_, hread, hread'.trans ?_⟩
    congr 2
    cases r with
    | status =>
        obtain rfl := Option.some.inj hmask
        exact ((status_views_iff _).mpr h).symm
    | ie =>
        obtain rfl := Option.some.inj hmask
        exact (interrupt_views _).symm
    | ip =>
        obtain rfl := Option.some.inj hmask
        exact (interrupt_views _).symm
    | _ => cases hmask

/-- `li x1, 1; slli x1, x1, 33; csrw sstatus, x1; csrsi mie, 8; ecall` -/
def userWidthProgram : List (BitVec 32) :=
  [0x00100093, 0x02109093, 0x10009073, 0x30446073, 0x00000073]

/-- After writes through both names and a trap the views agree, as the program above has
set the upper bit of `UXL`. -/
theorem sharedViewsAgree_iff_user_width :
    ∃ s : RvCore .rv64 Unit, CoreReachable (romBus userWidthProgram) s ∧
      s.trap.reg .m .cause = 11 ∧ s.trap.reg .m .ie = 8 ∧ SharedViewsAgree s := by
  have hcheck : (CoreCall.execAll (romBus userWidthProgram)
      (List.replicate 5 .run ++ [.processInterrupts 0 0 0])
      (rvCoreInit () : RvCore .rv64 Unit)).toOption.any (fun s =>
        s.status.getLsbD 33 && s.trap.reg .m .cause == 11 && s.trap.reg .m .ie == 8) = true := by
    decide +kernel
  obtain ⟨s, hrun, hs⟩ := CoreCall.exists_of_execAll hcheck
  rw [Bool.and_eq_true, Bool.and_eq_true, beq_iff_eq, beq_iff_eq] at hs
  obtain ⟨⟨hwidth, hcause⟩, hie⟩ := hs
  have hreach : CoreReachable (romBus userWidthProgram) s := ⟨_, ⟨(), rfl⟩, hrun⟩
  exact ⟨s, hreach, hcause, hie, (sharedViewsAgree_iff hreach).mpr fun _ => hwidth⟩

/-- Right after the start `sstatus` shows no user width where `mstatus` shows one. -/
theorem uxl_read_differently :
    ¬ ∀ (busAccess : BusAccessFunc .rv64 Unit) (s : RvCore .rv64 Unit),
      CoreReachable busAccess s → SharedViewsAgree s := by
  intro h
  have hagree := h (romBus []) (rvCoreInit ()) (.of_init ⟨(), rfl⟩)
  obtain ⟨v, hv, hs⟩ := hagree csrAddrSstatus csrAddrMstatus .status _ .supervisor rfl rfl rfl
    (.inl rfl)
  have hread : csrRead (rvCoreInit () : RvCore .rv64 Unit) .machine csrAddrMstatus =
      .ok (some 0xA00000000) := by
    decide +kernel
  obtain rfl := Option.some.inj (Except.ok.inj (hv.symm.trans hread))
  have hread' : csrRead (rvCoreInit () : RvCore .rv64 Unit) .supervisor csrAddrSstatus =
      .ok (some 0) := by
    decide
  have hdiff := Option.some.inj (Except.ok.inj (hs.symm.trans hread'))
  exact absurd hdiff (by decide)

end RiscvEm
