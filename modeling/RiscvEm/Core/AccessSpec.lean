import RiscvEm.Core.Access
import RiscvEm.Lib.Except

/-!
What a memory access can do to the core, and how it can be refused.

An access reaches the memory and the devices through the bus callback and records
at most one synchronous trap. The refusals are described on the state before the
access, without the pending trap that reports them.
-/

namespace RiscvEm

variable {w : Xlen} {σ : Type}

@[simp] theorem liftM_eq_ok {α : Type} {x : Except Halt α} {a : α} :
    (liftM x : Except Stop α) = .ok a ↔ x = .ok a := Except.mapError_eq_ok

/-! ### The frame of an access -/

/-- `s'` differs from `s` at most behind `priv`, in the recorded trap and in the
last translated program counter. -/
def AccessFrame (s s' : RvCore w σ) : Prop :=
  s' = { s with
    priv := s'.priv
    syncTrapPending := s'.syncTrapPending
    syncTrapCause := s'.syncTrapCause
    syncTrapTval := s'.syncTrapTval
    mmu := { s.mmu with lastVirtPc := s'.mmu.lastVirtPc, lastPhysPc := s'.mmu.lastPhysPc } }

theorem AccessFrame.refl (s : RvCore w σ) : AccessFrame s s := rfl

theorem AccessFrame.trans {s s' s'' : RvCore w σ} (h : AccessFrame s s')
    (h' : AccessFrame s' s'') : AccessFrame s s'' := by
  rw [AccessFrame] at h h' ⊢
  rw [h', h]

theorem prepareSyncTrap_frame (s : RvCore w σ) (cause tval : RvUintXlen w) :
    AccessFrame s (prepareSyncTrap s cause tval) := by
  rw [prepareSyncTrap]
  split <;> rfl

@[simp] theorem prepareSyncTrap_x (s : RvCore w σ) (cause tval : RvUintXlen w) :
    (prepareSyncTrap s cause tval).x = s.x := by
  rw [prepareSyncTrap]
  split <;> rfl

@[simp] theorem prepareSyncTrap_priv (s : RvCore w σ) (cause tval : RvUintXlen w) :
    (prepareSyncTrap s cause tval).priv = s.priv := by
  rw [prepareSyncTrap]
  split <;> rfl

/-- A physical access is refused by the PMP, or it is the access of the bus. -/
theorem pmpCheckedBusAccess_cases {busAccess : BusAccessFunc w σ} {s s' : RvCore w σ}
    {privLevel : PrivilegeLevel} {accessType : BusAccessType} {addr : RvUintXlen w}
    {value value' : List Byte} {len : Nat} {ret : RvRet}
    (h : pmpCheckedBusAccess busAccess s privLevel accessType addr value len =
      .ok (ret, value', s')) :
    (pmpMemCheck s.pmp privLevel addr len accessType = .err ∧ ret = .err ∧ value' = value ∧
        s' = prepareSyncTrap s (BitVec.ofNat w.bits (accessFaultCause accessType)) addr) ∨
      (pmpMemCheck s.pmp privLevel addr len accessType = .ok ∧
        busAccess s.priv privLevel accessType addr value len = .ok (ret, value', s'.priv) ∧
        s' = { s with priv := s'.priv }) := by
  simp only [pmpCheckedBusAccess] at h
  by_cases hpmp : pmpMemCheck s.pmp privLevel addr len accessType = .err
  · simp only [hpmp, if_true, Except.pure_eq_ok, Except.ok.injEq, Prod.mk.injEq] at h
    obtain ⟨rfl, rfl, rfl⟩ := h
    exact .inl ⟨hpmp, rfl, rfl, rfl⟩
  · rw [if_neg hpmp, Except.bind_eq_ok] at h
    obtain ⟨⟨ret', bytes, priv⟩, hbus, h⟩ := h
    simp only [Except.pure_eq_ok, Except.ok.injEq, Prod.mk.injEq] at h
    obtain ⟨rfl, rfl, rfl⟩ := h
    refine .inr ⟨?_, hbus, rfl⟩
    cases hret : pmpMemCheck s.pmp privLevel addr len accessType with
    | ok => rfl
    | err => exact absurd hret hpmp

theorem pmpCheckedBusAccess_frame {busAccess : BusAccessFunc w σ} {s s' : RvCore w σ}
    {privLevel : PrivilegeLevel} {accessType : BusAccessType} {addr : RvUintXlen w}
    {value value' : List Byte} {len : Nat} {ret : RvRet}
    (h : pmpCheckedBusAccess busAccess s privLevel accessType addr value len =
      .ok (ret, value', s')) : AccessFrame s s' := by
  rcases pmpCheckedBusAccess_cases h with ⟨-, -, -, rfl⟩ | ⟨-, -, hs'⟩
  · exact prepareSyncTrap_frame s _ _
  · rw [hs']
    rfl

/-- One level of the walk: the entry that is read, and how the walk goes on. -/
theorem mmuWalk_eq_ok {busAccess : BusAccessFunc w σ} {currPriv : PrivilegeLevel}
    {virtAddr a pte : RvUintXlen w} {i : Nat} {s s' : RvCore w σ}
    {leaf : Option (Nat × RvUintXlen w)}
    (h : mmuWalk busAccess currPriv virtAddr i a pte s = .ok (leaf, s')) :
    ∃ ret bytes s₁,
      pmpCheckedBusAccess busAccess s currPriv .read (a + vpn virtAddr i * 4)
        (leBytes w.bytes pte.toNat) w.bytes = .ok (ret, bytes, s₁) ∧
      let pte := BitVec.ofNat w.bits (leNat (bytes.take w.bytes))
      (pteInvalid (pteFlags pte) = true ∧ leaf = none ∧ s' = s₁) ∨
      (pteInvalid (pteFlags pte) = false ∧ pteFlags pte &&& 0xA ≠ 0 ∧ leaf = some (i, pte) ∧
        s' = s₁) ∨
      (pteInvalid (pteFlags pte) = false ∧ pteFlags pte &&& 0xA = 0 ∧ i = 0 ∧ leaf = none ∧
        s' = s₁) ∨
      (pteInvalid (pteFlags pte) = false ∧ pteFlags pte &&& 0xA = 0 ∧ ∃ j, i = j + 1 ∧
        mmuWalk busAccess currPriv virtAddr j ((pte >>> 10) * 4096) pte s₁ = .ok (leaf, s')) := by
  rw [mmuWalk.eq_def] at h
  simp only [Except.bind_eq_ok] at h
  obtain ⟨⟨ret, bytes, s₁⟩, hread, h⟩ := h
  refine ⟨ret, bytes, s₁, hread, ?_⟩
  intro pte
  by_cases hinv : pteInvalid (pteFlags pte) = true
  · rw [if_pos hinv] at h
    simp only [Except.pure_eq_ok, Except.ok.injEq, Prod.mk.injEq] at h
    exact .inl ⟨hinv, h.1.symm, h.2.symm⟩
  · rw [if_neg hinv] at h
    have hval := Bool.eq_false_iff.mpr hinv
    by_cases hleaf : pteFlags pte &&& 0xA ≠ 0
    · rw [if_pos hleaf] at h
      simp only [Except.pure_eq_ok, Except.ok.injEq, Prod.mk.injEq] at h
      exact .inr (.inl ⟨hval, hleaf, h.1.symm, h.2.symm⟩)
    · rw [if_neg hleaf] at h
      have hptr := not_not.mp hleaf
      cases i with
      | zero =>
          simp only [Except.pure_eq_ok, Except.ok.injEq, Prod.mk.injEq] at h
          exact .inr (.inr (.inl ⟨hval, hptr, rfl, h.1.symm, h.2.symm⟩))
      | succ j => exact .inr (.inr (.inr ⟨hval, hptr, j, rfl, h⟩))

theorem mmuWalk_frame {busAccess : BusAccessFunc w σ} {currPriv : PrivilegeLevel}
    {virtAddr a pte : RvUintXlen w} {i : Nat} {s s' : RvCore w σ}
    {leaf : Option (Nat × RvUintXlen w)}
    (h : mmuWalk busAccess currPriv virtAddr i a pte s = .ok (leaf, s')) :
    AccessFrame s s' := by
  induction i generalizing a pte s with
  | zero =>
      obtain ⟨_, _, s₁, hread, hcases⟩ := mmuWalk_eq_ok h
      have hframe := pmpCheckedBusAccess_frame hread
      rcases hcases with ⟨-, -, rfl⟩ | ⟨-, -, -, rfl⟩ | ⟨-, -, -, -, rfl⟩ | ⟨-, -, _, hj, -⟩
      · exact hframe
      · exact hframe
      · exact hframe
      · omega
  | succ i ih =>
      obtain ⟨_, _, s₁, hread, hcases⟩ := mmuWalk_eq_ok h
      have hframe := pmpCheckedBusAccess_frame hread
      rcases hcases with ⟨-, -, rfl⟩ | ⟨-, -, -, rfl⟩ | ⟨-, -, -, -, rfl⟩ | ⟨-, -, _, hj, hwalk⟩
      · exact hframe
      · exact hframe
      · exact hframe
      · obtain rfl := Nat.succ.inj hj
        exact hframe.trans (ih hwalk)

/-- The translation of an access: the leaf of the walk, if the walk is made and
reaches one, decides. -/
theorem mmuVirtToPhys_cases {busAccess : BusAccessFunc w σ} {s s' : RvCore w σ}
    {currPriv : PrivilegeLevel} {virtAddr : RvUintXlen w} {accessType : BusAccessType}
    {mxr sum : Bool} {physAddr : Option (BitVec 64)}
    (h : mmuVirtToPhys busAccess s currPriv virtAddr accessType mxr sum = .ok (physAddr, s')) :
    ((currPriv = .machine ∨ satpMode s.mmu.satpReg = 0) ∧
        physAddr = some (virtAddr.setWidth 64) ∧ s' = s) ∨
      (¬ (currPriv = .machine ∨ satpMode s.mmu.satpReg = 0) ∧ ∃ leaf s₁,
        mmuWalk busAccess currPriv virtAddr 1 ((s.mmu.satpReg &&& 0x3FFFFF) * 4096) 0 s =
          .ok (leaf, s₁) ∧
        physAddr = leaf.bind (fun l => mmuLeaf currPriv virtAddr accessType mxr sum l.1 l.2) ∧
        s' = { s₁ with
          mmu := { s₁.mmu with
            lastVirtPc := s'.mmu.lastVirtPc, lastPhysPc := s'.mmu.lastPhysPc } }) := by
  simp only [mmuVirtToPhys] at h
  by_cases hbare : currPriv = .machine ∨ satpMode s.mmu.satpReg = 0
  · simp only [hbare, if_true, Except.pure_eq_ok, Except.ok.injEq, Prod.mk.injEq] at h
    exact .inl ⟨hbare, h.1.symm, h.2.symm⟩
  · rw [if_neg hbare, Except.bind_eq_ok] at h
    obtain ⟨⟨leaf, s₁⟩, hwalk, h⟩ := h
    refine .inr ⟨hbare, leaf, s₁, hwalk, ?_⟩
    cases leaf with
    | none =>
        simp only [Except.pure_eq_ok, Except.ok.injEq, Prod.mk.injEq] at h
        obtain ⟨rfl, rfl⟩ := h
        exact ⟨rfl, rfl⟩
    | some l =>
        obtain ⟨i, pte⟩ := l
        cases hleaf : mmuLeaf currPriv virtAddr accessType mxr sum i pte with
        | none =>
            simp only [hleaf, Except.pure_eq_ok, Except.ok.injEq, Prod.mk.injEq] at h
            obtain ⟨rfl, rfl⟩ := h
            exact ⟨hleaf.symm, rfl⟩
        | some phys =>
            simp only [hleaf] at h
            split at h <;>
              simp only [Except.pure_eq_ok, Except.ok.injEq, Prod.mk.injEq] at h <;>
              obtain ⟨rfl, rfl⟩ := h <;> exact ⟨hleaf.symm, rfl⟩

theorem mmuVirtToPhys_frame {busAccess : BusAccessFunc w σ} {s s' : RvCore w σ}
    {currPriv : PrivilegeLevel} {virtAddr : RvUintXlen w} {accessType : BusAccessType}
    {mxr sum : Bool} {physAddr : Option (BitVec 64)}
    (h : mmuVirtToPhys busAccess s currPriv virtAddr accessType mxr sum = .ok (physAddr, s')) :
    AccessFrame s s' := by
  rcases mmuVirtToPhys_cases h with ⟨-, -, rfl⟩ | ⟨-, leaf, s₁, hwalk, -, hs'⟩
  · exact .refl _
  · refine (mmuWalk_frame hwalk).trans ?_
    rw [hs']
    rfl

/-- A translated access is refused by the translation, or it is the checked access
to the physical address. -/
theorem mmuCheckedBusAccess_cases {busAccess : BusAccessFunc w σ} {s s' : RvCore w σ}
    {accessType : BusAccessType} {addr : RvUintXlen w} {value value' : List Byte} {len : Nat}
    {ret : RvRet}
    (h : mmuCheckedBusAccess busAccess s accessType addr value len = .ok (ret, value', s')) :
    ∃ physAddr s₁,
      mmuVirtToPhys busAccess s (checkMprvOverride s accessType) addr accessType
        (checkBit s.status trapXstatusMxrBit) (checkBit s.status trapXstatusSumBit) =
          .ok (physAddr, s₁) ∧
      ((physAddr = none ∧ ret = .err ∧ value' = value ∧
          s' = prepareSyncTrap s₁ (BitVec.ofNat w.bits (pageFaultCause accessType)) addr) ∨
        ∃ phys, physAddr = some phys ∧
          pmpCheckedBusAccess busAccess s₁ (checkMprvOverride s accessType) accessType
            (phys.setWidth w.bits) value len = .ok (ret, value', s')) := by
  simp only [mmuCheckedBusAccess, Except.bind_eq_ok] at h
  obtain ⟨⟨physAddr, s₁⟩, htrans, h⟩ := h
  refine ⟨physAddr, s₁, htrans, ?_⟩
  cases physAddr with
  | none =>
      simp only [Except.pure_eq_ok, Except.ok.injEq, Prod.mk.injEq] at h
      obtain ⟨rfl, rfl, rfl⟩ := h
      exact .inl ⟨rfl, rfl, rfl, rfl⟩
  | some phys => exact .inr ⟨phys, rfl, h⟩

theorem mmuCheckedBusAccess_frame {busAccess : BusAccessFunc w σ} {s s' : RvCore w σ}
    {accessType : BusAccessType} {addr : RvUintXlen w} {value value' : List Byte} {len : Nat}
    {ret : RvRet}
    (h : mmuCheckedBusAccess busAccess s accessType addr value len = .ok (ret, value', s')) :
    AccessFrame s s' := by
  obtain ⟨physAddr, s₁, htrans, ⟨-, -, -, rfl⟩ | ⟨phys, -, haccess⟩⟩ :=
    mmuCheckedBusAccess_cases h
  · exact (mmuVirtToPhys_frame htrans).trans (prepareSyncTrap_frame s₁ _ _)
  · exact (mmuVirtToPhys_frame htrans).trans (pmpCheckedBusAccess_frame haccess)

end RiscvEm
