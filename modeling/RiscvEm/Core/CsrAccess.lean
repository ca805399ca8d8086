import RiscvEm.Core.CsrTable
import RiscvEm.Core.Returns

/-!
Access control of the CSR instructions over runs: each of them completes or is
refused as illegal with nothing else changed, and the encoding of an address bounds
what the table grants for it.
-/

namespace RiscvEm

variable {w : Xlen} {σ : Type}

/-! ### The table against the addresses -/

/-- Bits 9:8 of an address: the lowest mode with access. -/
def csrAddrPrivilege (address : Nat) : Nat := address / 256 % 4

/-- Bits 11:10 of an address mark a read-only register. -/
def csrAddrReadOnly (address : Nat) : Bool := address / 1024 % 4 == 3

def CsrReg.flagsWithin (address : Nat) (r : CsrReg w) (p : PrivilegeLevel) : Bool :=
  (!csrAccessReadGranted p r.accessFlags || csrAddrPrivilege address ≤ p.toInt) &&
    (!csrAccessWriteGranted p r.accessFlags ||
      csrAddrPrivilege address ≤ p.toInt && !csrAddrReadOnly address)

theorem csrInitList_flagsWithin {p : PrivilegeLevel} (hp : p.Legal) :
    (csrInitList w).all (fun entry => entry.2.flagsWithin entry.1 p) = true := by
  rcases hp with rfl | rfl | rfl <;> cases w <;> decide +kernel

theorem TableKept.flagsWithin {table : Nat → CsrReg w} (h : TableKept table) (a : Nat)
    {p : PrivilegeLevel} (hp : p.Legal) : (table a).flagsWithin a p = true := by
  refine h.check (fun a r => r.flagsWithin a p) (fun _ _ => rfl) (fun a => ?_)
    (csrInitList_flagsWithin hp) a
  simp [CsrReg.flagsWithin, csrAccessReadGranted, csrAccessWriteGranted]

theorem TableKept.read_granted {table : Nat → CsrReg w} (h : TableKept table) {a : Nat}
    {p : PrivilegeLevel} (hp : p.Legal) (hread : csrAccessReadGranted p (table a).accessFlags) :
    csrAddrPrivilege a ≤ p.toInt := by
  have hflags := h.flagsWithin a hp
  simp only [CsrReg.flagsWithin, hread, Bool.and_eq_true, Bool.or_eq_true, Bool.not_true,
    decide_eq_true_eq] at hflags
  exact hflags.1.resolve_left (by decide)

theorem TableKept.write_granted {table : Nat → CsrReg w} (h : TableKept table) {a : Nat}
    {p : PrivilegeLevel} (hp : p.Legal) (hwrite : csrAccessWriteGranted p (table a).accessFlags) :
    csrAddrPrivilege a ≤ p.toInt ∧ csrAddrReadOnly a = false := by
  have hflags := h.flagsWithin a hp
  simp only [CsrReg.flagsWithin, hwrite, Bool.and_eq_true, Bool.or_eq_true, Bool.not_true,
    Bool.not_eq_true', decide_eq_true_eq] at hflags
  exact hflags.2.resolve_left (by decide)

theorem csrReadReg_granted {s : RvCore w σ} {p : PrivilegeLevel} {address : Nat}
    {csrVal : RvUintXlen w} (h : csrReadReg s p address = .ok (some csrVal)) :
    csrAccessReadGranted p (s.csrRegs address).accessFlags = true := by
  rw [csrReadReg] at h
  split at h
  · cases h
  · obtain ⟨entry, hentry, h⟩ := Except.bind_eq_ok.mp h
    obtain ⟨-, rfl⟩ := csrEntry_eq_ok.mp hentry
    split at h
    · next hgrant => exact hgrant
    · cases h

/-! ### The outcome of a CSR instruction -/

/-- The swaps write always, the others if they name an operand. -/
def WritesCsr (cb : ExecutionCb) (s : RvCore w σ) : Prop := cb.kind = .csrWrite ∨ s.rs1 ≠ 0

/-- The swaps read only for a destination. -/
def ReadsCsr (cb : ExecutionCb) (s : RvCore w σ) : Prop := cb.kind = .csrWrite → s.rd ≠ 0

/-- The instruction does all that it is there for: what it reads and writes is
granted, the register holds the new value if one is written, the destination the
old one, and no trap is raised. -/
def CsrCompletes (cb : ExecutionCb) (s s' : RvCore w σ) : Prop :=
  s'.pendingTrap = none ∧ ∃ csrVal s₁,
    (ReadsCsr cb s → csrReadReg s s.currPrivMode s.csrAddr = .ok (some csrVal)) ∧
    (WritesCsr cb s → CsrWritten s s.currPrivMode s.csrAddr
      (cb.csrMerge (s.csrRegs s.csrAddr).mask csrVal (cb.csrOperand s)) s₁) ∧
    (¬ WritesCsr cb s → s₁ = s) ∧
    s' = s₁.setX s₁.rd (csrVal &&& (s.csrRegs s.csrAddr).mask)

def CsrRefused (s s' : RvCore w σ) : Prop :=
  s' = { s with
    syncTrapPending := true
    syncTrapCause := BitVec.ofNat w.bits trapCauseIllegalInstr
    syncTrapTval := 0 }

theorem csrRefused_illegalInstr {s : RvCore w σ} (hs : s.pendingTrap = none) :
    CsrRefused s (illegalInstr s) := by
  have hpending := pendingTrap_eq_none.mp hs
  rw [CsrRefused, illegalInstr, prepareSyncTrap, if_neg (by rw [hpending]; decide)]

theorem CsrWritten.pendingTrap {s s' : RvCore w σ} {privLevel : PrivilegeLevel} {address : Nat}
    {val : RvUintXlen w} (hs : s.pendingTrap = none) (h : CsrWritten s privLevel address val s') :
    s'.pendingTrap = none := by
  rw [pendingTrap_eq_none] at hs ⊢
  rw [h.syncTrapPending, hs]

theorem csrrwx_outcome {cb : ExecutionCb} (hcb : cb.kind = .csrWrite) {s s' : RvCore w σ}
    (hs : s.pendingTrap = none) (h : csrrwx s (cb.csrOperand s) = .ok s') :
    CsrCompletes cb s s' ∨ CsrRefused s s' := by
  obtain ⟨-, rfl | ⟨csrVal, s₁, hread, -, hwritten, rfl⟩⟩ := csrrwx_cases h
  · exact .inr (csrRefused_illegalInstr hs)
  · have htrap : s₁.pendingTrap = none := hwritten.pendingTrap hs
    refine .inl ⟨htrap, csrVal, s₁, fun hreads => hread (hreads hcb),
      fun _ => ?_, fun hnot => absurd (.inl hcb) hnot, rfl⟩
    have hmerge : cb.csrMerge (s.csrRegs s.csrAddr).mask csrVal (cb.csrOperand s) =
        (csrVal &&& ~~~(s.csrRegs s.csrAddr).mask) |||
          (cb.csrOperand s &&& (s.csrRegs s.csrAddr).mask) := by
      cases cb <;> first | (cases hcb; done) | rfl
    rw [hmerge]
    exact hwritten

theorem csrrReadModifyWrite_outcome {cb : ExecutionCb} (hcb : cb.kind = .csrModify)
    {merge : RvUintXlen w → RvUintXlen w → RvUintXlen w} {s s' : RvCore w σ}
    (hmerge : ∀ mask csrVal operand, cb.csrMerge mask csrVal operand =
      merge csrVal (operand &&& mask))
    (hs : s.pendingTrap = none)
    (h : csrrReadModifyWrite merge s (cb.csrOperand s) = .ok s') :
    CsrCompletes cb s s' ∨ CsrRefused s s' := by
  obtain ⟨-, rfl | ⟨csrVal, s₁, hread, hwritten, hkept, rfl⟩⟩ := csrrReadModifyWrite_cases h
  · exact .inr (csrRefused_illegalInstr hs)
  · have hwrites (hw : WritesCsr cb s) : s.rs1 ≠ 0 := by
      refine hw.resolve_left fun hk => ?_
      rw [hcb] at hk
      cases hk
    have htrap : s₁.pendingTrap = none := by
      by_cases hrs1 : s.rs1 = 0
      · rw [hkept hrs1]
        exact hs
      · exact (hwritten hrs1).pendingTrap hs
    refine .inl ⟨htrap, csrVal, s₁, fun _ => hread, fun hw => ?_, fun hnot => ?_, rfl⟩
    · rw [hmerge]
      exact hwritten (hwrites hw)
    · refine hkept ?_
      by_contra hrs1
      exact hnot (.inr hrs1)

theorem handler_csr_outcome {busAccess : BusAccessFunc w σ} {cb : ExecutionCb}
    (hcb : cb.kind = .csrWrite ∨ cb.kind = .csrModify) {s s' : RvCore w σ}
    (hs : s.pendingTrap = none) (h : cb.handler busAccess s = .ok s') :
    CsrCompletes cb s s' ∨ CsrRefused s s' := by
  rcases hcb with hk | hk
  · rw [handler_csrWrite busAccess hk] at h
    exact csrrwx_outcome hk hs h
  · obtain ⟨merge, -, hmerge, heq⟩ := handler_csrModify busAccess hk
    rw [heq] at h
    exact csrrReadModifyWrite_outcome hk hmerge hs h

theorem CsrCompletes.granted {cb : ExecutionCb}
    (hcb : cb.kind = .csrWrite ∨ cb.kind = .csrModify) {s s' : RvCore w σ}
    (htable : TableKept s.csrRegs) (hmode : s.currPrivMode.Legal) (h : CsrCompletes cb s s') :
    csrAddrPrivilege s.csrAddr ≤ s.currPrivMode.toInt ∧
      (WritesCsr cb s → csrAddrReadOnly s.csrAddr = false) := by
  obtain ⟨-, csrVal, s₁, hread, hwritten, -, -⟩ := h
  have hwrite (hw : WritesCsr cb s) := htable.write_granted hmode (hwritten hw).1
  refine ⟨?_, fun hw => (hwrite hw).2⟩
  rcases hcb with hk | hk
  · exact (hwrite (.inl hk)).1
  · refine htable.read_granted hmode (csrReadReg_granted (hread fun hk' => ?_))
    rw [hk] at hk'
    cases hk'

/-! ### Over runs -/

def RvCore.withCsrOperands (s : RvCore w σ) (p : PrivilegeLevel) (rd rs1 : RegIndex)
    (immediate : RvUintXlen w) : RvCore w σ :=
  { s with currPrivMode := p, rd := rd, rs1 := rs1, immediate := immediate }

/-- The instruction returns, having completed or having been refused; an address of
a higher mode and a write to a read-only address are refused. -/
def CsrControlled (busAccess : BusAccessFunc w σ) (cb : ExecutionCb) (s : RvCore w σ) : Prop :=
  ∃ s', cb.handler busAccess s = .ok s' ∧ (CsrCompletes cb s s' ∨ CsrRefused s s') ∧
    (s.currPrivMode.toInt < csrAddrPrivilege s.csrAddr → ¬ CsrCompletes cb s s') ∧
    (WritesCsr cb s → csrAddrReadOnly s.csrAddr = true → ¬ CsrCompletes cb s s')

theorem csrControlled {busAccess : BusAccessFunc w σ} {cb : ExecutionCb}
    (hcb : cb.kind = .csrWrite ∨ cb.kind = .csrModify) {s : RvCore w σ}
    (htable : TableKept s.csrRegs) (hmode : s.currPrivMode.Legal) (hs : s.pendingTrap = none)
    (haddr : s.csrAddr < csrAddrMax) : CsrControlled busAccess cb s := by
  have hreturns : Except.Returns (cb.handler busAccess s) := by
    rcases hcb with hk | hk
    · rw [handler_csrWrite busAccess hk]
      exact csrrwx_returns_iff.mpr haddr
    · obtain ⟨merge, -, -, heq⟩ := handler_csrModify busAccess hk
      rw [heq]
      exact csrrReadModifyWrite_returns_iff.mpr haddr
  obtain ⟨s', h⟩ := hreturns
  refine ⟨s', h, handler_csr_outcome hcb hs h, fun hlow hdone => ?_, fun hw hro hdone => ?_⟩
  · have hpriv := (hdone.granted hcb htable hmode).1
    omega
  · have hrw := (hdone.granted hcb htable hmode).2 hw
    rw [hro] at hrw
    cases hrw

/-- In every state that a run of the main loop reaches, each CSR instruction with any
operands, at any mode, is controlled; so is each one that the run executes there. -/
theorem csr_access_control (busAccess : BusAccessFunc w σ) {s : RvCore w σ}
    (hs : LoopReachable busAccess s) {cb : ExecutionCb}
    (hcb : cb.kind = .csrWrite ∨ cb.kind = .csrModify) :
    (∀ (p : PrivilegeLevel) (rd rs1 : RegIndex) (immediate : RvUintXlen w), p.Legal →
      (s.withCsrOperands p rd rs1 immediate).csrAddr < csrAddrMax →
        CsrControlled busAccess cb (s.withCsrOperands p rd rs1 immediate)) ∧
      ∀ d, Executes busAccess s cb d → s.currPrivMode.Legal → d.csrAddr < csrAddrMax →
        CsrControlled busAccess cb d := by
  have htable : TableKept s.csrRegs := hs.core.tableKept
  have htrap : s.pendingTrap = none := hs.ready.pendingTrap
  constructor
  · intro p rd rs1 immediate hp haddr
    exact csrControlled hcb htable hp htrap haddr
  · intro d hexec hmode haddr
    have hd : TableKept d.csrRegs ∧ d.currPrivMode.Legal := by
      rw [hexec.frame]
      exact ⟨htable, hmode⟩
    exact csrControlled hcb hd.1 hd.2 (hexec.pendingTrap htrap) haddr

/-- User mode asks for `mstatus`. -/
theorem csr_access_control_user :
    CsrControlled (romBus []) .csrrs
      ((rvCoreInit () : RvCore .rv32 Unit).withCsrOperands .user 1 0 0x300) :=
  (csr_access_control (romBus []) (.of_init ⟨(), rfl⟩) (.inr rfl)).1 .user 1 0 0x300
    (.inl rfl) (by decide)

end RiscvEm
