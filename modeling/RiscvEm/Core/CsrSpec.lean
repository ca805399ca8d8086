import RiscvEm.Core.Csr
import RiscvEm.Core.HandlerSpec

/-!
What the CSR instructions can do to the core: they are refused as illegal, or they
write one register and the destination.
-/

namespace RiscvEm

variable {w : Xlen} {σ : Type}

theorem csrEntry_eq_ok {s : RvCore w σ} {address : Nat} {entry : CsrReg w} :
    csrEntry s address = .ok entry ↔ address < csrAddrMax ∧ s.csrRegs address = entry := by
  rw [csrEntry]
  split
  · next h => simp [h]
  · next h => simp [h]

def CsrWritten (s : RvCore w σ) (privLevel : PrivilegeLevel) (address : Nat)
    (val : RvUintXlen w) (s' : RvCore w σ) : Prop :=
  csrAccessWriteGranted privLevel (s.csrRegs address).accessFlags = true ∧
    ((∃ cb, (s.csrRegs address).callback = some cb ∧ csrWriteCb s privLevel val cb = (.ok, s')) ∨
      ((s.csrRegs address).callback = none ∧
        s' = { s with
          csrRegs := setCsrValue s.csrRegs address (val &&& (s.csrRegs address).mask) }))

theorem csrWriteCb_err {s s' : RvCore w σ} {privLevel : PrivilegeLevel} {val : RvUintXlen w}
    {cb : CsrCallback} (h : csrWriteCb s privLevel val cb = (.err, s')) : s' = s := by
  cases cb with
  | trapM r => cases h
  | trapS r => cases h
  | mmu => cases h
  | pmpCfg i =>
      simp only [csrWriteCb, pmpWriteCsrCfg] at h
      split at h
      · exact (Prod.mk.inj h).2.symm
      · cases h
  | pmpAddr i =>
      simp only [csrWriteCb, pmpWriteCsrAddr] at h
      split at h
      · exact (Prod.mk.inj h).2.symm
      · split at h
        · cases h
        · split at h <;> cases h

theorem csrWriteReg_cases {s s' : RvCore w σ} {privLevel : PrivilegeLevel} {address : Nat}
    {val : RvUintXlen w} {ret : RvRet}
    (h : csrWriteReg s privLevel address val = .ok (ret, s')) :
    (ret = .err ∧ s' = s) ∨
      (ret = .ok ∧ address < csrAddrMax ∧ CsrWritten s privLevel address val s') := by
  rw [csrWriteReg] at h
  split at h
  · obtain ⟨rfl, rfl⟩ := Prod.mk.inj (Except.ok.inj h)
    exact .inl ⟨rfl, rfl⟩
  · simp only [Except.bind_eq_ok, csrEntry_eq_ok] at h
    obtain ⟨entry, ⟨haddr, rfl⟩, h⟩ := h
    split at h
    · next hgrant =>
        cases hcb : (s.csrRegs address).callback with
        | some cb =>
            simp only [hcb, Except.pure_eq_ok, Except.ok.injEq] at h
            cases ret with
            | err => exact .inl ⟨rfl, csrWriteCb_err h⟩
            | ok => exact .inr ⟨rfl, haddr, hgrant, .inl ⟨cb, hcb, h⟩⟩
        | none =>
            simp only [hcb, Except.pure_eq_ok, Except.ok.injEq, Prod.mk.injEq] at h
            exact .inr ⟨h.1.symm, haddr, hgrant, .inr ⟨hcb, h.2.symm⟩⟩
    · obtain ⟨rfl, rfl⟩ := Prod.mk.inj (Except.ok.inj h)
      exact .inl ⟨rfl, rfl⟩

theorem csrReadReg_callback {s : RvCore w σ} {privLevel : PrivilegeLevel} {address : Nat}
    {cb : CsrCallback} {csrVal : RvUintXlen w} (hcb : (s.csrRegs address).callback = some cb)
    (hwarl : (s.csrRegs address).warlAlwaysEnabled = 0)
    (h : csrReadReg s privLevel address = .ok (some csrVal)) : csrVal = csrReadCb s cb := by
  rw [csrReadReg] at h
  split at h
  · cases h
  · obtain ⟨entry, hentry, h⟩ := Except.bind_eq_ok.mp h
    obtain ⟨-, rfl⟩ := csrEntry_eq_ok.mp hentry
    split at h
    · simp only [hcb, hwarl, Except.pure_eq_ok, Except.ok.injEq, Option.some.injEq] at h
      rw [← h]
      simp
    · cases h

def RvCore.csrAddr (s : RvCore w σ) : Nat := (s.immediate.setWidth 16).toNat

/-- `CSRRWx` is refused, or it writes the register and the destination. The old
value counts as zero when it is not read. -/
theorem csrrwx_cases {s s' : RvCore w σ} {newVal : RvUintXlen w}
    (h : csrrwx s newVal = .ok s') :
    s.csrAddr < csrAddrMax ∧
      (s' = illegalInstr s ∨ ∃ csrVal s₁,
        (s.rd ≠ 0 → csrReadReg s s.currPrivMode s.csrAddr = .ok (some csrVal)) ∧
        (s.rd = 0 → csrVal = 0) ∧
        CsrWritten s s.currPrivMode s.csrAddr
          ((csrVal &&& ~~~(s.csrRegs s.csrAddr).mask) |||
            (newVal &&& (s.csrRegs s.csrAddr).mask)) s₁ ∧
        s' = s₁.setX s₁.rd (csrVal &&& (s.csrRegs s.csrAddr).mask)) := by
  simp only [csrrwx, csrGetMask, Except.bind_eq_ok, csrEntry_eq_ok] at h
  obtain ⟨mask, ⟨entry, ⟨haddr, rfl⟩, hmask⟩, old, hold, h⟩ := h
  obtain rfl := Except.ok.inj hmask
  refine ⟨haddr, ?_⟩
  cases old with
  | none => exact .inl (Except.ok.inj h).symm
  | some csrVal =>
      simp only [Except.bind_eq_ok] at h
      obtain ⟨⟨ret, s₁⟩, hwrite, h⟩ := h
      rcases csrWriteReg_cases hwrite with ⟨rfl, rfl⟩ | ⟨rfl, -, hwritten⟩
      · exact .inl (Except.ok.inj h).symm
      · refine .inr ⟨csrVal, s₁, fun hrd => ?_, fun hrd => ?_, hwritten, (Except.ok.inj h).symm⟩
        · rwa [if_pos hrd] at hold
        · rw [if_neg (not_not.mpr hrd)] at hold
          exact (Option.some.inj (Except.ok.inj hold)).symm

/-- `CSRRSx` and `CSRRCx` are refused, or they write the register, if an operand
is named, and the destination. -/
theorem csrrReadModifyWrite_cases {merge : RvUintXlen w → RvUintXlen w → RvUintXlen w}
    {s s' : RvCore w σ} {newVal : RvUintXlen w}
    (h : csrrReadModifyWrite merge s newVal = .ok s') :
    s.csrAddr < csrAddrMax ∧
      (s' = illegalInstr s ∨ ∃ csrVal s₁,
        csrReadReg s s.currPrivMode s.csrAddr = .ok (some csrVal) ∧
        (s.rs1 ≠ 0 → CsrWritten s s.currPrivMode s.csrAddr
          (merge csrVal (newVal &&& (s.csrRegs s.csrAddr).mask)) s₁) ∧
        (s.rs1 = 0 → s₁ = s) ∧
        s' = s₁.setX s₁.rd (csrVal &&& (s.csrRegs s.csrAddr).mask)) := by
  simp only [csrrReadModifyWrite, csrGetMask, Except.bind_eq_ok, csrEntry_eq_ok] at h
  obtain ⟨mask, ⟨entry, ⟨haddr, rfl⟩, hmask⟩, old, hold, h⟩ := h
  obtain rfl := Except.ok.inj hmask
  refine ⟨haddr, ?_⟩
  cases old with
  | none => exact .inl (Except.ok.inj h).symm
  | some csrVal =>
      simp only [Except.bind_eq_ok] at h
      obtain ⟨⟨ret, s₁⟩, hwrite, h⟩ := h
      by_cases hrs1 : s.rs1 ≠ 0
      · rw [if_pos hrs1] at hwrite
        rcases csrWriteReg_cases hwrite with ⟨rfl, rfl⟩ | ⟨rfl, -, hwritten⟩
        · exact .inl (Except.ok.inj h).symm
        · exact .inr ⟨csrVal, s₁, hold, fun _ => hwritten, fun h0 => absurd h0 hrs1,
            (Except.ok.inj h).symm⟩
      · rw [if_neg hrs1] at hwrite
        obtain ⟨rfl, rfl⟩ := Prod.mk.inj (Except.ok.inj hwrite)
        exact .inr ⟨csrVal, s, hold, fun h0 => absurd h0 hrs1, fun _ => rfl,
          (Except.ok.inj h).symm⟩

/-! ### The frame of a CSR instruction -/

/-- `s'` differs from `s` at most in the registers that a CSR names, the integer
registers and the recorded trap. -/
def CsrFrame (s s' : RvCore w σ) : Prop :=
  s' = { s with
    x := s'.x, csrRegs := s'.csrRegs, pmp := s'.pmp, trap := s'.trap
    mmu := { s.mmu with satpReg := s'.mmu.satpReg }
    syncTrapPending := s'.syncTrapPending
    syncTrapCause := s'.syncTrapCause
    syncTrapTval := s'.syncTrapTval }

theorem CsrFrame.refl (s : RvCore w σ) : CsrFrame s s := rfl

theorem illegalInstr_frame (s : RvCore w σ) : CsrFrame s (illegalInstr s) := by
  rw [illegalInstr, prepareSyncTrap]
  split <;> rfl

theorem CsrWritten.frame {s s' : RvCore w σ} {privLevel : PrivilegeLevel} {address : Nat}
    {val : RvUintXlen w} (h : CsrWritten s privLevel address val s') : CsrFrame s s' := by
  obtain ⟨-, ⟨cb, -, hcb⟩ | ⟨-, rfl⟩⟩ := h
  · cases cb <;> simp only [csrWriteCb, Prod.mk.injEq] at hcb <;> obtain ⟨-, rfl⟩ := hcb <;> rfl
  · rfl

theorem CsrWritten.syncTrapPending {s s' : RvCore w σ} {privLevel : PrivilegeLevel}
    {address : Nat} {val : RvUintXlen w} (h : CsrWritten s privLevel address val s') :
    s'.syncTrapPending = s.syncTrapPending := by
  obtain ⟨-, ⟨cb, -, hcb⟩ | ⟨-, rfl⟩⟩ := h
  · cases cb <;> simp only [csrWriteCb, Prod.mk.injEq] at hcb <;> obtain ⟨-, rfl⟩ := hcb <;> rfl
  · rfl

theorem CsrFrame.setX {s s' : RvCore w σ} (h : CsrFrame s s') (r : RegIndex)
    (v : RvUintXlen w) : CsrFrame s (s'.setX r v) := by
  rw [CsrFrame] at h ⊢
  rw [h]
  rfl

theorem csrrwx_frame {s s' : RvCore w σ} {newVal : RvUintXlen w}
    (h : csrrwx s newVal = .ok s') : CsrFrame s s' := by
  obtain ⟨-, rfl | ⟨csrVal, s₁, -, -, hwritten, rfl⟩⟩ := csrrwx_cases h
  · exact illegalInstr_frame s
  · exact hwritten.frame.setX _ _

theorem csrrReadModifyWrite_frame {merge : RvUintXlen w → RvUintXlen w → RvUintXlen w}
    {s s' : RvCore w σ} {newVal : RvUintXlen w}
    (h : csrrReadModifyWrite merge s newVal = .ok s') : CsrFrame s s' := by
  obtain ⟨-, rfl | ⟨csrVal, s₁, -, hwritten, hkept, rfl⟩⟩ := csrrReadModifyWrite_cases h
  · exact illegalInstr_frame s
  · by_cases hrs1 : s.rs1 = 0
    · rw [hkept hrs1]
      exact (CsrFrame.refl s).setX _ _
    · exact (hwritten hrs1).frame.setX _ _

end RiscvEm
