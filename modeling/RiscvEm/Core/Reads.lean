import RiscvEm.Core.Reach

/-!
What an access reads on the bus: the entries of the page tables on its way, and the word
itself. Where a read does no more behind `priv` than its address says, the reads of an
access say what it leaves there.
-/

namespace RiscvEm

variable {w : Xlen} {σ : Type}

section Reads

variable (busAccess : BusAccessFunc w σ)

def walkReads (pmp : Pmp w) (currPriv : PrivilegeLevel) (virtAddr : RvUintXlen w) :
    Nat → RvUintXlen w → RvUintXlen w → σ → List (RvUintXlen w)
  | i, a, pte, priv =>
      let pteAddr := a + vpn virtAddr i * 4
      if pmpMemCheck pmp currPriv pteAddr w.bytes .read = .err then []
      else
        match busAccess priv currPriv .read pteAddr (leBytes w.bytes pte.toNat) w.bytes with
        | .error _ => [pteAddr]
        | .ok (_, bytes, priv) =>
            let pte := BitVec.ofNat w.bits (leNat (bytes.take w.bytes))
            if pteInvalid (pteFlags pte) ∨ pteFlags pte &&& 0xA ≠ 0 then [pteAddr]
            else
              match i with
              | 0 => [pteAddr]
              | i + 1 => pteAddr :: walkReads pmp currPriv virtAddr i ((pte >>> 10) * 4096) pte priv

variable (s : RvCore w σ) (accessType : BusAccessType) (addr : RvUintXlen w) (len : Nat)

def tableReads : List (RvUintXlen w) :=
  let currPriv := checkMprvOverride s accessType
  if currPriv = .machine ∨ satpMode s.mmu.satpReg = 0 then []
  else walkReads busAccess s.pmp currPriv addr 1 ((s.mmu.satpReg &&& 0x3FFFFF) * 4096) 0 s.priv

/-- The physical address of an access that is not refused. -/
def grantedAddr : Option (RvUintXlen w) :=
  let currPriv := checkMprvOverride s accessType
  match mmuVirtToPhys busAccess s currPriv addr accessType (checkBit s.status trapXstatusMxrBit)
      (checkBit s.status trapXstatusSumBit) with
  | .ok (some physAddr, _) =>
      let physAddr := physAddr.setWidth w.bits
      if pmpMemCheck s.pmp currPriv physAddr len accessType = .ok then some physAddr else none
  | _ => none

def accessReads : List (RvUintXlen w) :=
  tableReads busAccess s accessType addr ++
    if accessType = .write then [] else (grantedAddr busAccess s accessType addr len).toList

end Reads

/-! ### What the reads leave -/

/-- A read of four to eight bytes takes what is behind `priv` from `priv` to `step priv addr`. -/
def ReadsStep (busAccess : BusAccessFunc w σ) (step : σ → RvUintXlen w → σ) : Prop :=
  ∀ priv privLevel accessType addr value len r, accessType ≠ .write → 4 ≤ len → len ≤ 8 →
    busAccess priv privLevel accessType addr value len = .ok r → r.2.2 = step priv addr

section Step

variable {busAccess : BusAccessFunc w σ} {step : σ → RvUintXlen w → σ}
  (hstep : ReadsStep busAccess step) {s s' : RvCore w σ}

theorem xlen_bytes_range : 4 ≤ w.bytes ∧ w.bytes ≤ 8 := by cases w <;> decide

include hstep

theorem mmuWalk_reads {currPriv : PrivilegeLevel} {virtAddr a pte : RvUintXlen w} {i : Nat}
    {leaf : Option (Nat × RvUintXlen w)} (hi : i ≤ 1)
    (hstop : pteInvalid (pteFlags pte) = true ∨ (i = 0 ∧ pteFlags pte &&& 0xA = 0))
    (h : mmuWalk busAccess currPriv virtAddr i a pte s = .ok (leaf, s')) :
    s'.priv = (walkReads busAccess s.pmp currPriv virtAddr i a pte s.priv).foldl step s.priv := by
  induction i using Nat.strongRecOn generalizing a pte s with
  | _ i ih =>
      obtain ⟨_, bytes, s₁, hread, hcases⟩ := mmuWalk_eq_ok h
      rw [walkReads.eq_def]
      rcases pmpCheckedBusAccess_cases hread with ⟨hpmp, -, rfl, rfl⟩ | ⟨hpmp, hbus, hs₁⟩
      · -- a refused read leaves the entry that it had, which ends the walk
        rw [ofNat_leNat_leBytes] at hcases
        have hs' : s' = prepareSyncTrap s (BitVec.ofNat w.bits (accessFaultCause .read))
            (a + vpn virtAddr i * 4) := by
          rcases hcases with h' | ⟨hval, hleaf, -⟩ | h' | ⟨hval, -, j, hj, -⟩
          · exact h'.2.2
          · rcases hstop with hinv | ⟨-, hptr⟩
            · exact absurd hinv (by simp [hval])
            · exact absurd hptr hleaf
          · exact h'.2.2.2.2
          · rcases hstop with hinv | ⟨h0, -⟩
            · exact absurd hinv (by simp [hval])
            · omega
        simp only [hpmp, if_true, List.foldl_nil]
        rw [hs', prepareSyncTrap_priv]
      · have hallow :
            ¬ pmpMemCheck s.pmp currPriv (a + vpn virtAddr i * 4) w.bytes .read = .err := by
          rw [hpmp]
          decide
        have hone : s₁.priv = step s.priv (a + vpn virtAddr i * 4) :=
          hstep _ _ _ _ _ _ _ (by decide) xlen_bytes_range.1 xlen_bytes_range.2 hbus
        simp only [hallow, if_false, hbus]
        rcases hcases with ⟨hbad, -, rfl⟩ | ⟨-, hleaf, -, rfl⟩ | ⟨hval, hptr, rfl, -, rfl⟩ |
            ⟨hval, hptr, j, rfl, hwalk⟩
        · rw [if_pos (.inl hbad)]
          exact hone
        · rw [if_pos (.inr hleaf)]
          exact hone
        · rw [if_neg (not_or.mpr ⟨by rw [hval]; decide, not_not.mpr hptr⟩)]
          exact hone
        · rw [if_neg (not_or.mpr ⟨by rw [hval]; decide, not_not.mpr hptr⟩)]
          have hrest := ih j (by omega) (by omega) (.inr ⟨by omega, hptr⟩) hwalk
          have hpmp₁ : s₁.pmp = s.pmp := by rw [hs₁]
          rw [hrest, hpmp₁, List.foldl_cons, ← hone]

theorem mmuVirtToPhys_reads {accessType : BusAccessType} {addr : RvUintXlen w} {mxr sum : Bool}
    {physAddr : Option (BitVec 64)}
    (h : mmuVirtToPhys busAccess s (checkMprvOverride s accessType) addr accessType mxr sum =
      .ok (physAddr, s')) :
    s'.priv = (tableReads busAccess s accessType addr).foldl step s.priv := by
  rw [tableReads]
  rcases mmuVirtToPhys_cases h with ⟨hbare, -, rfl⟩ | ⟨hbare, leaf, s₁, hwalk, -, hs'⟩
  · rw [if_pos hbare, List.foldl_nil]
  · have hzero : pteInvalid (pteFlags (0 : RvUintXlen w)) = true := by
      simp [pteInvalid, pteFlags, checkBit]
    rw [if_neg hbare, ← mmuWalk_reads hstep (Nat.le_refl 1) (.inl hzero) hwalk, hs']

/-- An access is refused after its page-table reads, or it is made on the bus as they left
it. -/
theorem mmuCheckedBusAccess_reads {accessType : BusAccessType} {addr : RvUintXlen w}
    {value value' : List Byte} {len : Nat} {ret : RvRet}
    (h : mmuCheckedBusAccess busAccess s accessType addr value len = .ok (ret, value', s')) :
    (grantedAddr busAccess s accessType addr len = none ∧ ret = .err ∧
        s'.priv = (tableReads busAccess s accessType addr).foldl step s.priv) ∨
      ∃ phys, grantedAddr busAccess s accessType addr len = some phys ∧
        busAccess ((tableReads busAccess s accessType addr).foldl step s.priv)
          (checkMprvOverride s accessType) accessType phys value len =
            .ok (ret, value', s'.priv) := by
  obtain ⟨physAddr, s₁, htrans, hcases⟩ := mmuCheckedBusAccess_cases h
  have hpriv := mmuVirtToPhys_reads hstep htrans
  have hpmp : s₁.pmp = s.pmp := by rw [mmuVirtToPhys_frame htrans]
  simp only [grantedAddr, htrans]
  rw [← hpriv]
  rcases hcases with ⟨rfl, rfl, -, rfl⟩ | ⟨physAddr, rfl, hphys⟩
  · exact .inl ⟨rfl, rfl, prepareSyncTrap_priv s₁ _ _⟩
  · rcases pmpCheckedBusAccess_cases hphys with ⟨hrefused, rfl, -, rfl⟩ | ⟨hallow, hbus, -⟩
    · left
      rw [hpmp] at hrefused
      simp only [hrefused, reduceCtorEq, if_false, true_and]
      exact prepareSyncTrap_priv s₁ _ _
    · right
      rw [hpmp] at hallow
      exact ⟨_, if_pos hallow, hbus⟩

/-- An access that is refused or does not write leaves what its reads leave. -/
theorem mmuCheckedBusAccess_reads_priv {accessType : BusAccessType} {addr : RvUintXlen w}
    {value value' : List Byte} {len : Nat} {ret : RvRet}
    (hkind : accessType ≠ .write ∧ 4 ≤ len ∧ len ≤ 8 ∨
      grantedAddr busAccess s accessType addr len = none)
    (h : mmuCheckedBusAccess busAccess s accessType addr value len = .ok (ret, value', s')) :
    s'.priv = (accessReads busAccess s accessType addr len).foldl step s.priv := by
  rw [accessReads, List.foldl_append]
  rcases mmuCheckedBusAccess_reads hstep h with ⟨hnone, -, hpriv⟩ | ⟨phys, hsome, hbus⟩
  · rw [hnone, Option.toList_none, ite_self, List.foldl_nil]
    exact hpriv
  · obtain ⟨htype, hlow, hhigh⟩ := hkind.resolve_right fun hnone => by
      cases hsome.symm.trans hnone
    rw [if_neg htype, hsome, Option.toList_some, List.foldl_cons, List.foldl_nil]
    exact hstep _ _ _ _ _ _ _ htype hlow hhigh hbus

end Step

theorem grantedAddr_eq_none_iff {busAccess : BusAccessFunc w σ} {s s' : RvCore w σ}
    {accessType : BusAccessType} {addr : RvUintXlen w} {value value' : List Byte} {len : Nat}
    {ret : RvRet} (hs : s.pendingTrap = none)
    (h : mmuCheckedBusAccess busAccess s accessType addr value len = .ok (ret, value', s')) :
    grantedAddr busAccess s accessType addr len = none ↔ s'.syncTrapPending = true := by
  obtain ⟨physAddr, s₁, htrans, hcases⟩ := mmuCheckedBusAccess_cases h
  obtain ⟨r, -, htrap, hnone⟩ := mmuVirtToPhys_refusal hs htrans
  have hpmp : s₁.pmp = s.pmp := by rw [mmuVirtToPhys_frame htrans]
  have hraised (cause tval : RvUintXlen w) :
      (prepareSyncTrap s₁ cause tval).syncTrapPending = true := by
    rw [prepareSyncTrap]
    split
    · assumption
    · rfl
  simp only [grantedAddr, htrans]
  rcases hcases with ⟨rfl, -, -, rfl⟩ | ⟨physAddr, rfl, hphys⟩
  · exact iff_of_true rfl (hraised _ _)
  · have hr : r = none := by
      by_contra hne
      cases hnone hne
    rw [hr, Option.map_none, pendingTrap_eq_none] at htrap
    rcases pmpCheckedBusAccess_cases hphys with ⟨hrefused, -, -, rfl⟩ | ⟨hallow, -, hs'⟩
    · rw [hpmp] at hrefused
      simp only [hrefused, reduceCtorEq, if_false, true_iff]
      exact hraised _ _
    · rw [hpmp] at hallow
      have hpending : s'.syncTrapPending = false := by
        rw [hs']
        exact htrap
      simp only [hallow, if_true, hpending, reduceCtorEq, Bool.false_eq_true]

/-! ### The state that an access looks at -/

structure AccessAlike (s t : RvCore w σ) : Prop where
  pmp : t.pmp = s.pmp
  satp : t.mmu.satpReg = s.mmu.satpReg
  trap : t.trap = s.trap
  mode : t.currPrivMode = s.currPrivMode
  priv : t.priv = s.priv

section Alike

variable {busAccess : BusAccessFunc w σ} {s s' t : RvCore w σ}

theorem AccessAlike.frames {t' : RvCore w σ} (h : AccessAlike s t) (hs : AccessFrame s s')
    (ht : AccessFrame t t') (hpriv : t'.priv = s'.priv) : AccessAlike s' t' where
  pmp := by rw [hs, ht]; exact h.pmp
  satp := by rw [hs, ht]; exact h.satp
  trap := by rw [hs, ht]; exact h.trap
  mode := by rw [hs, ht]; exact h.mode
  priv := hpriv

theorem pmpCheckedBusAccess_accessAlike (hst : AccessAlike s t) {privLevel : PrivilegeLevel}
    {accessType : BusAccessType} {addr : RvUintXlen w} {value value' : List Byte} {len : Nat}
    {ret : RvRet} (h : pmpCheckedBusAccess busAccess s privLevel accessType addr value len =
      .ok (ret, value', s')) :
    ∃ t', pmpCheckedBusAccess busAccess t privLevel accessType addr value len =
      .ok (ret, value', t') ∧ AccessAlike s' t' := by
  have hframe := pmpCheckedBusAccess_frame h
  rcases pmpCheckedBusAccess_cases h with ⟨hpmp, rfl, rfl, rfl⟩ | ⟨hpmp, hbus, hs'⟩
  · have ht : pmpCheckedBusAccess busAccess t privLevel accessType addr value' len = .ok (.err,
        value', prepareSyncTrap t (BitVec.ofNat w.bits (accessFaultCause accessType)) addr) := by
      simp only [pmpCheckedBusAccess, hst.pmp, hpmp, if_true, Except.pure_eq_ok]
    refine ⟨_, ht, hst.frames hframe (pmpCheckedBusAccess_frame ht) ?_⟩
    rw [prepareSyncTrap_priv, prepareSyncTrap_priv, hst.priv]
  · have hallow : ¬ pmpMemCheck s.pmp privLevel addr len accessType = .err := by
      rw [hpmp]
      decide
    have ht : pmpCheckedBusAccess busAccess t privLevel accessType addr value len =
        .ok (ret, value', { t with priv := s'.priv }) := by
      simp only [pmpCheckedBusAccess, hst.pmp, if_neg hallow, hst.priv, hbus, Except.ok_bind,
        Except.pure_eq_ok]
    exact ⟨_, ht, hst.frames hframe (pmpCheckedBusAccess_frame ht) rfl⟩

theorem mmuWalk_accessAlike (hst : AccessAlike s t) {currPriv : PrivilegeLevel}
    {virtAddr a pte : RvUintXlen w} {i : Nat} {leaf : Option (Nat × RvUintXlen w)}
    (h : mmuWalk busAccess currPriv virtAddr i a pte s = .ok (leaf, s')) :
    ∃ t', mmuWalk busAccess currPriv virtAddr i a pte t = .ok (leaf, t') ∧ AccessAlike s' t' := by
  induction i using Nat.strongRecOn generalizing a pte s t with
  | _ i ih =>
      obtain ⟨ret, bytes, s₁, hread, hcases⟩ := mmuWalk_eq_ok h
      obtain ⟨t₁, hread', h₁⟩ := pmpCheckedBusAccess_accessAlike hst hread
      rw [mmuWalk.eq_def]
      simp only [hread', Except.ok_bind]
      rcases hcases with ⟨hbad, rfl, rfl⟩ | ⟨hval, hleaf, rfl, rfl⟩ |
          ⟨hval, hptr, rfl, rfl, rfl⟩ | ⟨hval, hptr, j, rfl, hwalk⟩
      · exact ⟨t₁, if_pos hbad, h₁⟩
      · refine ⟨t₁, ?_, h₁⟩
        rw [if_neg (by rw [hval]; decide), if_pos hleaf]
        rfl
      · refine ⟨t₁, ?_, h₁⟩
        rw [if_neg (by rw [hval]; decide), if_neg (not_not.mpr hptr)]
        rfl
      · obtain ⟨t', ht', halike⟩ := ih j (by omega) h₁ hwalk
        refine ⟨t', ?_, halike⟩
        rw [if_neg (by rw [hval]; decide), if_neg (not_not.mpr hptr)]
        exact ht'

theorem mmuVirtToPhys_accessAlike (hst : AccessAlike s t) {currPriv : PrivilegeLevel}
    {virtAddr : RvUintXlen w} {accessType : BusAccessType} (htype : accessType ≠ .instr)
    {mxr sum : Bool} {physAddr : Option (BitVec 64)}
    (h : mmuVirtToPhys busAccess s currPriv virtAddr accessType mxr sum = .ok (physAddr, s')) :
    ∃ t', mmuVirtToPhys busAccess t currPriv virtAddr accessType mxr sum =
      .ok (physAddr, t') := by
  rcases mmuVirtToPhys_cases h with ⟨hbare, rfl, rfl⟩ | ⟨hbare, leaf, s₂, hwalk, rfl, -⟩
  · refine ⟨t, ?_⟩
    simp only [mmuVirtToPhys, hst.satp, hbare, if_true, Except.pure_eq_ok]
  · obtain ⟨t₂, hwalk', -⟩ := mmuWalk_accessAlike hst hwalk
    refine ⟨t₂, ?_⟩
    simp only [mmuVirtToPhys, hst.satp, hbare, if_false, hwalk', Except.ok_bind]
    cases leaf with
    | none => rfl
    | some l =>
        simp only [Option.bind_some]
        cases mmuLeaf currPriv virtAddr accessType mxr sum l.1 l.2 with
        | none => rfl
        | some phys => simp only [if_neg htype, Except.pure_eq_ok]

/-- A load or a store makes the same reads from both states, and is granted alike. -/
theorem AccessAlike.reads (hst : AccessAlike s t) {accessType : BusAccessType}
    (htype : accessType ≠ .instr) {addr : RvUintXlen w} {value value' : List Byte} {len : Nat}
    {ret : RvRet}
    (h : mmuCheckedBusAccess busAccess s accessType addr value len = .ok (ret, value', s')) :
    tableReads busAccess t accessType addr = tableReads busAccess s accessType addr ∧
      grantedAddr busAccess t accessType addr len =
        grantedAddr busAccess s accessType addr len := by
  have hmode : checkMprvOverride t accessType = checkMprvOverride s accessType := by
    rw [checkMprvOverride, checkMprvOverride, RvCore.status, RvCore.status, hst.trap, hst.mode]
  have hstatus : t.status = s.status := by rw [RvCore.status, RvCore.status, hst.trap]
  constructor
  · rw [tableReads, tableReads, hmode, hst.satp, hst.pmp, hst.priv]
  · obtain ⟨physAddr, s₁, htrans, -⟩ := mmuCheckedBusAccess_cases h
    obtain ⟨t₁, htrans'⟩ := mmuVirtToPhys_accessAlike hst htype htrans
    simp only [grantedAddr, hmode, hstatus, htrans, htrans', hst.pmp]
    cases physAddr with
    | none => rfl
    | some physAddr => rfl

end Alike

end RiscvEm
