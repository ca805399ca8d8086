import RiscvEm.Core.Erasure
import RiscvEm.Core.RunSpec

/-!
Two runs of the core from states with the same architectural state: they end in states
with the same architectural state, if the bus stores the instruction that is fetched.
-/

namespace RiscvEm

variable {w : Xlen} {σ : Type} {busAccess : BusAccessFunc w σ}

/-! ### Fetching -/

theorem eq_fields_of_arch {s t : RvCore w σ} (harch : s.arch = t.arch) :
    s.pc = t.pc ∧ s.currPrivMode = t.currPrivMode ∧ s.trap = t.trap ∧ s.pmp = t.pmp ∧
      s.priv = t.priv := by
  have hpc : s.arch.pc = t.arch.pc := congrArg RvCore.pc harch
  have hmode : s.arch.currPrivMode = t.arch.currPrivMode := congrArg RvCore.currPrivMode harch
  have htrap : s.arch.trap = t.arch.trap := congrArg RvCore.trap harch
  have hpmp : s.arch.pmp = t.arch.pmp := congrArg RvCore.pmp harch
  have hpriv : s.arch.priv = t.arch.priv := congrArg RvCore.priv harch
  exact ⟨hpc, hmode, htrap, hpmp, hpriv⟩

theorem mmuVirtToPhys_arch (s : RvCore w σ) (currPriv : PrivilegeLevel)
    (virtAddr : RvUintXlen w) (accessType : BusAccessType) (mxr sum : Bool) :
    (fun r => (r.1, RvCore.arch r.2)) <$>
        mmuVirtToPhys busAccess s currPriv virtAddr accessType mxr sum =
      (fun r => (r.1, RvCore.arch r.2)) <$>
        mmuVirtToPhys busAccess s.arch currPriv virtAddr accessType mxr sum := by
  have hsatp : s.arch.mmu.satpReg = s.mmu.satpReg := rfl
  simp only [mmuVirtToPhys, hsatp]
  split
  · rfl
  · simp only [mmuWalk_unseen unseen_arch, map_bind, bind_map_left]
    refine bind_congr fun r => ?_
    obtain ⟨leaf, s₁⟩ := r
    cases leaf with
    | none => rfl
    | some l =>
        simp only
        cases mmuLeaf currPriv virtAddr accessType mxr sum l.1 l.2 with
        | none => rfl
        | some phys =>
            by_cases htype : accessType = .instr
            · simp only [if_pos htype]
              rfl
            · simp only [if_neg htype]
              rfl

/-- The translation of a fetch: the physical address, if there is one, and the state after
the page-table reads. -/
def FetchTranslates (busAccess : BusAccessFunc w σ) (s : RvCore w σ)
    (physAddr : Option (BitVec 64)) (s' : RvCore w σ) : Prop :=
  mmuVirtToPhys busAccess s s.currPrivMode s.pc .instr (checkBit s.status trapXstatusMxrBit)
    (checkBit s.status trapXstatusSumBit) = .ok (physAddr, s')

theorem FetchTranslates.arch {s t s' : RvCore w σ} {physAddr : Option (BitVec 64)}
    (harch : s.arch = t.arch) (h : FetchTranslates busAccess s physAddr s') :
    ∃ t', FetchTranslates busAccess t physAddr t' ∧ s'.arch = t'.arch := by
  obtain ⟨hpc, hmode, htrap, -, -⟩ := eq_fields_of_arch harch
  have hmap := @mmuVirtToPhys_arch w σ busAccess s s.currPrivMode s.pc .instr
    (checkBit s.status trapXstatusMxrBit) (checkBit s.status trapXstatusSumBit)
  rw [harch, ← mmuVirtToPhys_arch] at hmap
  obtain ⟨⟨physAddr', t'⟩, ht', hsame⟩ := Except.exists_of_map_eq hmap h
  obtain ⟨rfl, harch'⟩ := Prod.mk.inj hsame
  refine ⟨t', ?_, harch'.symm⟩
  rw [FetchTranslates, ← hpc, ← hmode, RvCore.status, ← htrap]
  exact ht'

/-- The bus answers the fetch without looking at what the buffer held. -/
def FetchStores (busAccess : BusAccessFunc w σ) (s : RvCore w σ) : Prop :=
  ∀ phys s', FetchTranslates busAccess s (some phys) s' →
    pmpMemCheck s'.pmp s.currPrivMode (phys.setWidth w.bits) w.bytes .instr = .ok →
      ∀ value value' : List Byte, value.length = w.bytes → value'.length = w.bytes →
        busAccess s'.priv s.currPrivMode .instr (phys.setWidth w.bits) value w.bytes =
          busAccess s'.priv s.currPrivMode .instr (phys.setWidth w.bits) value' w.bytes

theorem length_instructionBytes (s : RvCore w σ) : (instructionBytes s).length = w.bytes := by
  cases w <;> rfl

theorem storeInstruction_arch (s : RvCore w σ) (bytes : List Byte) :
    (storeInstruction s bytes).arch = s.arch := by
  cases w <;> rfl

theorem storeInstruction_instruction (s : RvCore w σ) (bytes : List Byte) :
    (storeInstruction s bytes).instruction = leLoad 4 bytes := by
  cases w <;> rfl

theorem rvCoreFetch_arch {s t f g : RvCore w σ} {ret ret' : RvRet} (harch : s.arch = t.arch)
    (hstores : FetchStores busAccess s) (h : rvCoreFetch busAccess s = .ok (ret, f))
    (h' : rvCoreFetch busAccess t = .ok (ret', g)) :
    ret' = ret ∧ f.arch = g.arch ∧ (ret = .ok → f.instruction = g.instruction) := by
  obtain ⟨bytes, s₂, haccess, rfl⟩ := rvCoreFetch_eq_ok.mp h
  obtain ⟨bytes', t₂, haccess', rfl⟩ := rvCoreFetch_eq_ok.mp h'
  obtain ⟨physAddr, s₁, htrans, hcases⟩ := mmuCheckedBusAccess_cases haccess
  obtain ⟨physAddr', t₁, htrans', hcases'⟩ := mmuCheckedBusAccess_cases haccess'
  obtain ⟨hpc, hmode, -, -, -⟩ := eq_fields_of_arch harch
  obtain ⟨t₁', ht₁', harch₁⟩ := FetchTranslates.arch harch htrans
  obtain ⟨rfl, rfl⟩ := Prod.mk.inj (Except.ok.inj (ht₁'.symm.trans htrans'))
  rw [storeInstruction_arch, storeInstruction_arch, storeInstruction_instruction,
    storeInstruction_instruction]
  -- both runs translate alike, so that they take the same branch
  rcases hcases with ⟨hnone, rfl, rfl, rfl⟩ | ⟨phys, rfl, hphys⟩
  · rcases hcases' with ⟨-, rfl, rfl, rfl⟩ | ⟨phys, hsome, -⟩
    · -- a page fault
      refine ⟨rfl, ?_, nofun⟩
      rw [unseen_arch.syncTrap, unseen_arch.syncTrap, harch₁, hpc]
    · rw [hnone] at hsome
      cases hsome
  · rcases hcases' with ⟨hnone, -⟩ | ⟨phys', hsome, hphys'⟩
    · cases hnone
    · obtain rfl := Option.some.inj hsome
      obtain ⟨-, -, -, hpmp, hpriv⟩ := eq_fields_of_arch harch₁
      -- a fetch has the current privilege
      have hover : checkMprvOverride s .instr = s.currPrivMode := rfl
      have hover' : checkMprvOverride t .instr = s.currPrivMode := hmode.symm
      rw [hover] at hphys
      rw [hover'] at hphys'
      rcases pmpCheckedBusAccess_cases hphys with ⟨hrefused, rfl, rfl, rfl⟩ | ⟨hgrant, hbus, hs₂⟩
      · rcases pmpCheckedBusAccess_cases hphys' with ⟨-, rfl, rfl, rfl⟩ | ⟨hgrant', -, -⟩
        · -- refused by the PMP
          refine ⟨rfl, ?_, nofun⟩
          rw [unseen_arch.syncTrap, unseen_arch.syncTrap, harch₁]
        · rw [← hpmp, hrefused] at hgrant'
          cases hgrant'
      · rcases pmpCheckedBusAccess_cases hphys' with ⟨hrefused', -⟩ | ⟨-, hbus', ht₂⟩
        · rw [← hpmp, hgrant] at hrefused'
          cases hrefused'
        · -- the only place where what the buffer held could be seen
          have hsame := hstores phys s₁ htrans hgrant (instructionBytes s) (instructionBytes t)
            (length_instructionBytes s) (length_instructionBytes t)
          rw [← hpriv, ← hsame] at hbus'
          obtain ⟨rfl, hrest⟩ := Prod.mk.inj (Except.ok.inj (hbus.symm.trans hbus'))
          obtain ⟨rfl, hpriv₂⟩ := Prod.mk.inj hrest
          refine ⟨rfl, ?_, fun _ => rfl⟩
          calc s₂.arch = { s₁.arch with priv := s₂.priv } := congrArg RvCore.arch hs₂
            _ = { t₁'.arch with priv := t₂.priv } := by rw [harch₁, hpriv₂]
            _ = t₂.arch := (congrArg RvCore.arch ht₂).symm

/-! ### Running -/

theorem advance_arch {s t : RvCore w σ} (harch : s.arch = t.arch) (hnext : s.nextPc = t.nextPc) :
    (advance s).arch = (advance t).arch := by
  have hs (s : RvCore w σ) :
      (advance s).arch = (advance { s.arch with nextPc := s.nextPc }).arch := rfl
  rw [hs s, hs t, harch, hnext]

theorem advance_visible {s t : RvCore w σ} (h : s.visible = t.visible) :
    (advance (s.setX 0 0)).arch = (advance (t.setX 0 0)).arch := by
  have hs (s : RvCore w σ) :
      (advance (s.setX 0 0)).arch = (advance (s.visible.setX 0 0)).arch := rfl
  rw [hs s, hs t, h]

/-- Two calls of `rv_core_run` that return leave the same architectural state. -/
theorem rvCoreRun_arch {s t s' t' : RvCore w σ} (harch : s.arch = t.arch)
    (hstores : FetchStores busAccess s.atFetch) (h : rvCoreRun busAccess s = .ok s')
    (h' : rvCoreRun busAccess t = .ok t') : s'.arch = t'.arch := by
  have hfetch : s.atFetch.arch = t.atFetch.arch := harch
  rcases rvCoreRun_cases h with ⟨f, hf, rfl⟩ | ⟨cb, d, e, hexec, hhandler, rfl⟩
  · rcases rvCoreRun_cases h' with ⟨g, hg, rfl⟩ | ⟨cb', d', e', hexec', -, -⟩
    · obtain ⟨-, hfg, -⟩ := rvCoreFetch_arch hfetch hstores hf hg
      refine advance_arch hfg ?_
      rw [rvCoreFetch_nextPc hf, rvCoreFetch_nextPc hg]
      rfl
    · obtain ⟨g, hg, -, -⟩ := hexec'
      cases (rvCoreFetch_arch hfetch hstores hf hg).1
  · obtain ⟨f, hf, hdecode, hcb⟩ := hexec
    rcases rvCoreRun_cases h' with ⟨g, hg, -⟩ | ⟨cb', d', e', hexec', hhandler', rfl⟩
    · cases (rvCoreFetch_arch hfetch hstores hf hg).1
    · obtain ⟨g, hg, hdecode', hcb'⟩ := hexec'
      obtain ⟨-, hfg, hinstr⟩ := rvCoreFetch_arch hfetch hstores hf hg
      have hnext : f.nextPc = g.nextPc := by
        rw [rvCoreFetch_nextPc hf, rvCoreFetch_nextPc hg]
        rfl
      -- the same instruction from the same architectural state: the operands agree
      obtain ⟨hvisible, hsame⟩ := rvCoreDecode_visible hfg (hinstr rfl) hnext hdecode hdecode'
      rw [hcb, hcb'] at hsame
      obtain rfl := Option.some.inj hsame
      have hmap : RvCore.visible <$> cb.handler busAccess d =
          RvCore.visible <$> cb.handler busAccess d' := by
        rw [← blind_handler busAccess cb d, ← blind_handler busAccess cb d', hvisible]
      rw [hhandler, hhandler'] at hmap
      exact advance_visible (Except.ok.inj hmap)

end RiscvEm
