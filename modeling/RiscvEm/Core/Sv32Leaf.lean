import RiscvEm.Core.Run
import RiscvEm.Core.Sv32

/-!
What `mmu_virt_to_phys` makes of the leaf that its walk reaches, in the 32-bit build: the
pages of user mode that supervisor mode may execute, and the width of the address.
-/

namespace RiscvEm

variable {σ : Type}

/-! ### Calls of the translation -/

/-- The arguments of `mmu_virt_to_phys`, with the memory behind `mmu->bus_access`. -/
structure MmuCall (σ : Type) where
  busAccess : BusAccessFunc .rv32 σ
  core : RvCore .rv32 σ
  currPriv : PrivilegeLevel
  virtAddr : BitVec 32
  accessType : BusAccessType
  mxr : Bool
  sum : Bool

namespace MmuCall

/-- The call returns with the address, `none` for `mmu_page_fault`. -/
def Yields (c : MmuCall σ) (physAddr : Option (BitVec 64)) : Prop :=
  ∃ s', mmuVirtToPhys (w := .rv32) c.busAccess c.core c.currPriv c.virtAddr c.accessType c.mxr
    c.sum = .ok (physAddr, s')

def Reaches (c : MmuCall σ) (i : Nat) (pte : BitVec 32) : Prop :=
  c.currPriv ≠ .machine ∧ satpMode c.core.mmu.satpReg = 1 ∧ ∃ s₁,
    mmuWalk (w := .rv32) c.busAccess c.currPriv c.virtAddr 1
      ((c.core.mmu.satpReg &&& 0x3FFFFF) * 4096) 0 c.core = .ok (some (i, pte), s₁)

structure Granted (c : MmuCall σ) (i : Nat) (pte : BitVec 32) : Prop where
  user : c.currPriv = .user → pte.getLsbD 4 = true
  supervisor : c.currPriv = .supervisor → pte.getLsbD 4 = false ∨ c.sum = true
  grants : Sv32.Grants c.accessType c.mxr i pte

theorem yields_iff {c : MmuCall σ} {i : Nat} {pte : BitVec 32} (h : c.Reaches i pte)
    {physAddr : Option (BitVec 64)} :
    c.Yields physAddr ↔
      physAddr = mmuLeaf (w := .rv32) c.currPriv c.virtAddr c.accessType c.mxr c.sum i pte := by
  obtain ⟨hmachine, hmode, s₁, hwalk⟩ := h
  have hactive : ¬ (c.currPriv = .machine ∨ satpMode c.core.mmu.satpReg = 0) := by
    rw [hmode]
    exact not_or.mpr ⟨hmachine, by decide⟩
  obtain ⟨s', htrans⟩ := mmuVirtToPhys_of_walk c.accessType c.mxr c.sum hactive hwalk
  constructor
  · rintro ⟨s'', h⟩
    exact (Prod.mk.inj (Except.ok.inj (h.symm.trans htrans))).1
  · rintro rfl
    exact ⟨s', htrans⟩

theorem yields_some_iff {c : MmuCall σ} {i : Nat} {pte : BitVec 32} (h : c.Reaches i pte)
    {pa : BitVec 64} :
    c.Yields (some pa) ↔ c.Granted i pte ∧ leafAddress c.virtAddr i pte = pa := by
  rw [yields_iff h, eq_comm, mmuLeaf_eq_some_iff]
  constructor
  · rintro ⟨huser, hsupervisor, hgrants, hpa⟩
    exact ⟨⟨huser, hsupervisor, hgrants⟩, hpa⟩
  · rintro ⟨⟨huser, hsupervisor, hgrants⟩, hpa⟩
    exact ⟨huser, hsupervisor, hgrants, hpa⟩

theorem yields_none_iff {c : MmuCall σ} {i : Nat} {pte : BitVec 32} (h : c.Reaches i pte) :
    c.Yields none ↔ ¬ c.Granted i pte := by
  rw [yields_iff h]
  constructor
  · intro hnone hgranted
    have hsome := (yields_iff h).mp ((yields_some_iff h).mpr ⟨hgranted, rfl⟩)
    rw [← hnone] at hsome
    cases hsome
  · intro hnot
    cases hleaf : mmuLeaf (w := .rv32) c.currPriv c.virtAddr c.accessType c.mxr c.sum i pte with
    | none => rfl
    | some pa => exact absurd ((yields_some_iff h).mp ((yields_iff h).mpr hleaf.symm)).1 hnot

theorem Reaches.level_le {c : MmuCall σ} {i : Nat} {pte : BitVec 32} (h : c.Reaches i pte) :
    i ≤ 1 := by
  have hlevel : ∀ {n : Nat} {a entry : BitVec 32} {s s₁ : RvCore .rv32 σ},
      mmuWalk (w := .rv32) c.busAccess c.currPriv c.virtAddr n a entry s =
        .ok (some (i, pte), s₁) → i ≤ n := by
    intro n
    induction n with
    | zero =>
        intro a entry s s₁ hwalk
        obtain ⟨_, _, s₂, -, hcases⟩ := mmuWalk_eq_ok hwalk
        rcases hcases with ⟨-, hleaf, -⟩ | ⟨-, -, hleaf, -⟩ | ⟨-, -, -, hleaf, -⟩ | ⟨-, -, j, hj, -⟩
        · cases hleaf
        · cases hleaf
          exact Nat.le_refl _
        · cases hleaf
        · cases hj
    | succ n ih =>
        intro a entry s s₁ hwalk
        obtain ⟨_, _, s₂, -, hcases⟩ := mmuWalk_eq_ok hwalk
        rcases hcases with ⟨-, hleaf, -⟩ | ⟨-, -, hleaf, -⟩ | ⟨-, -, -, hleaf, -⟩ |
          ⟨-, -, j, hj, hrest⟩
        · cases hleaf
        · cases hleaf
          exact Nat.le_refl _
        · cases hleaf
        · obtain rfl := Nat.succ.inj hj
          exact Nat.le_succ_of_le (ih hrest)
  obtain ⟨-, -, s₁, hwalk⟩ := h
  exact hlevel hwalk

end MmuCall

/-! ### User pages in supervisor mode -/

def supervisorFetch (busAccess : BusAccessFunc .rv32 σ) (s : RvCore .rv32 σ) (va : BitVec 32)
    (mxr sum : Bool) : MmuCall σ :=
  ⟨busAccess, s, .supervisor, va, .instr, mxr, sum⟩

/-- Supervisor mode does not execute the user page at the address: its translation is
refused, and so is the fetch that asks for it. -/
structure UserPageNotExecuted (busAccess : BusAccessFunc .rv32 σ) (s : RvCore .rv32 σ)
    (va : BitVec 32) (mxr sum : Bool) : Prop where
  translation : ∀ i pte, (supervisorFetch busAccess s va mxr sum).Reaches i pte →
    pte.getLsbD 4 = true → (supervisorFetch busAccess s va mxr sum).Yields none
  fetch : s.currPrivMode = .supervisor → s.pc = va →
    checkBit s.status trapXstatusMxrBit = mxr → checkBit s.status trapXstatusSumBit = sum →
      ∀ i pte, (supervisorFetch busAccess s va mxr sum).Reaches i pte → pte.getLsbD 4 = true →
        ∀ f, rvCoreFetch busAccess s ≠ .ok (.ok, f)

theorem rvCoreFetch_refused {w : Xlen} {busAccess : BusAccessFunc w σ} {s s' : RvCore w σ}
    (htrans : mmuVirtToPhys busAccess s s.currPrivMode s.pc .instr
      (checkBit s.status trapXstatusMxrBit) (checkBit s.status trapXstatusSumBit) =
        .ok (none, s')) (f : RvCore w σ) : rvCoreFetch busAccess s ≠ .ok (.ok, f) := by
  intro hfetch
  simp only [rvCoreFetch, Except.bind_eq_ok, liftM_eq_ok, Except.pure_eq_ok, Except.ok.injEq,
    Prod.mk.injEq] at hfetch
  obtain ⟨⟨ret, bytes, s₁⟩, haccess, hret, -⟩ := hfetch
  obtain ⟨physAddr, s₂, htrans', hcases⟩ := mmuCheckedBusAccess_cases haccess
  obtain ⟨rfl, -⟩ := Prod.mk.inj (Except.ok.inj (htrans.symm.trans htrans'))
  rcases hcases with ⟨-, herr, -⟩ | ⟨phys, hphys, -⟩
  · cases herr.symm.trans hret
  · cases hphys

/-- The user pages that supervisor mode does not execute are those it may not even read,
with `SUM` clear, and those that no mode may execute. -/
theorem userPageNotExecuted_iff (busAccess : BusAccessFunc .rv32 σ) (s : RvCore .rv32 σ)
    (va : BitVec 32) (mxr sum : Bool) :
    UserPageNotExecuted busAccess s va mxr sum ↔
      ∀ i pte, (supervisorFetch busAccess s va mxr sum).Reaches i pte → pte.getLsbD 4 = true →
        sum = false ∨ ¬ Sv32.Grants .instr mxr i pte := by
  have hrefused : ∀ {i pte}, (supervisorFetch busAccess s va mxr sum).Reaches i pte →
      pte.getLsbD 4 = true → ((supervisorFetch busAccess s va mxr sum).Yields none ↔
        sum = false ∨ ¬ Sv32.Grants .instr mxr i pte) := by
    intro i pte hreach huser
    rw [MmuCall.yields_none_iff hreach]
    constructor
    · intro hnot
      by_cases hsum : sum = true
      · exact .inr fun hgrants => hnot
          ⟨fun h => (by cases h), fun _ => .inr hsum, hgrants⟩
      · exact .inl (Bool.eq_false_iff.mpr hsum)
    · rintro h ⟨-, hsupervisor, hgrants⟩
      rcases hsupervisor rfl with huser' | hsum
      · rw [huser] at huser'
        cases huser'
      · rcases h with h | h
        · rw [show sum = true from hsum] at h
          cases h
        · exact h hgrants
  constructor
  · intro h i pte hreach huser
    exact (hrefused hreach huser).mp (h.translation i pte hreach huser)
  · intro h
    constructor
    case translation =>
      intro i pte hreach huser
      exact (hrefused hreach huser).mpr (h i pte hreach huser)
    case fetch =>
      intro hmode hpc hmxr hsum i pte hreach huser f
      obtain ⟨s', htrans⟩ := (hrefused hreach huser).mpr (h i pte hreach huser)
      have hfetch : mmuVirtToPhys busAccess s s.currPrivMode s.pc .instr
          (checkBit s.status trapXstatusMxrBit) (checkBit s.status trapXstatusSumBit) =
            .ok (none, s') := by
        rw [hmode, hpc, hmxr, hsum]
        exact htrans
      exact rvCoreFetch_refused hfetch f

/-- The page of `0x12080` is mapped as a user page that can be executed. -/
def userWords (addr : Nat) : BitVec 32 :=
  if addr = 0x1000 then 0x801 else if addr = 0x2048 then 0x105F else 0

/-- With `SUM` set supervisor mode executes a user page. -/
theorem supervisor_executes_user_page :
    ¬ ∀ (busAccess : BusAccessFunc .rv32 Unit) (s : RvCore .rv32 Unit) (va : BitVec 32)
      (mxr sum : Bool), UserPageNotExecuted busAccess s va mxr sum := by
  intro h
  have hwalk : (mmuWalk (wordBus userWords) .supervisor (0x12080 : RvUintXlen .rv32) 1
      ((mappedCore.mmu.satpReg &&& 0x3FFFFF) * 4096) 0 mappedCore).toOption.any
        (fun r => r.1 == some (0, 0x105F)) = true := by
    decide
  obtain ⟨⟨leaf, s₁⟩, hwalk, hleaf⟩ := Except.exists_of_any_toOption hwalk
  obtain rfl := beq_iff_eq.mp hleaf
  have hreach : (supervisorFetch (wordBus userWords) mappedCore 0x12080 false true).Reaches 0
      0x105F := ⟨by decide, by decide, s₁, hwalk⟩
  have hgranted := (h (wordBus userWords) mappedCore 0x12080 false true).translation 0 0x105F
    hreach (by decide)
  rw [MmuCall.yields_iff hreach] at hgranted
  exact absurd hgranted (by decide)

/-! ### The width of the address -/

/-- The address that the call returns is the whole page number of the leaf with the
offset of the page. -/
def FullAddress (c : MmuCall σ) : Prop :=
  ∀ i pte pa, c.Reaches i pte → c.Yields (some pa) → pa.toNat = Sv32.address c.virtAddr i pte

/-- Two calls for one virtual address that end on pages of one size return one address
only from one page number. -/
def NoAlias (c c' : MmuCall σ) : Prop :=
  c'.virtAddr = c.virtAddr → ∀ i pte pte' pa, c.Reaches i pte → c'.Reaches i pte' →
    c.Yields (some pa) → c'.Yields (some pa) → Sv32.ppn pte' = Sv32.ppn pte

def LowLeaf (c : MmuCall σ) : Prop :=
  ∀ i pte, c.Reaches i pte → c.Granted i pte → Sv32.ppn pte < 2 ^ 20

theorem fullAddress_iff_lowLeaf (c : MmuCall σ) : FullAddress c ↔ LowLeaf c := by
  have hexact : ∀ {i pte}, c.Reaches i pte → c.Granted i pte →
      ((leafAddress c.virtAddr i pte).toNat = Sv32.address c.virtAddr i pte ↔
        Sv32.ppn pte < 2 ^ 20) := by
    intro i pte hreach hgranted
    rw [toNat_leafAddress hreach.level_le hgranted.grants.aligned, Sv32.address]
    omega
  constructor
  · intro h i pte hreach hgranted
    exact (hexact hreach hgranted).mp
      (h i pte _ hreach ((MmuCall.yields_some_iff hreach).mpr ⟨hgranted, rfl⟩))
  · intro h i pte pa hreach hpa
    obtain ⟨hgranted, rfl⟩ := (MmuCall.yields_some_iff hreach).mp hpa
    exact (hexact hreach hgranted).mpr (h i pte hreach hgranted)

/-- Two calls return full addresses, and one address only from one page number, just
where both leaves lie in the low 32 bits of the address space. -/
theorem fullAddress_noAlias_iff (c c' : MmuCall σ) :
    (FullAddress c ∧ FullAddress c' ∧ NoAlias c c') ↔ LowLeaf c ∧ LowLeaf c' := by
  rw [fullAddress_iff_lowLeaf, fullAddress_iff_lowLeaf]
  constructor
  · rintro ⟨h, h', -⟩
    exact ⟨h, h'⟩
  · rintro ⟨h, h'⟩
    refine ⟨h, h', fun hva i pte pte' pa hreach hreach' hpa hpa' => ?_⟩
    have haddr := (fullAddress_iff_lowLeaf c).mpr h i pte pa hreach hpa
    have haddr' := (fullAddress_iff_lowLeaf c').mpr h' i pte' pa hreach' hpa'
    rw [haddr, hva, Sv32.address, Sv32.address] at haddr'
    omega

/-- The page of `0x12080` is mapped to the fourth page behind the first 4 GiB. -/
def highWords (addr : Nat) : BitVec 32 :=
  if addr = 0x1000 then 0x801 else if addr = 0x2048 then 0x4000104F else 0

/-- A page behind the first 4 GiB is taken for the one at its low 32 bits. -/
theorem high_page_aliased :
    ¬ ∀ c c' : MmuCall Unit, FullAddress c ∧ FullAddress c' ∧ NoAlias c c' := by
  intro h
  have hwalk : (mmuWalk (wordBus highWords) .supervisor (0x12080 : RvUintXlen .rv32) 1
      ((mappedCore.mmu.satpReg &&& 0x3FFFFF) * 4096) 0 mappedCore).toOption.any
        (fun r => r.1 == some (0, 0x4000104F)) = true := by
    decide
  obtain ⟨⟨leaf, s₁⟩, hwalk, hleaf⟩ := Except.exists_of_any_toOption hwalk
  obtain rfl := beq_iff_eq.mp hleaf
  have hreach : MmuCall.Reaches
      ⟨wordBus highWords, mappedCore, .supervisor, 0x12080, .read, false, false⟩ 0 0x4000104F :=
    ⟨by decide, by decide, s₁, hwalk⟩
  have hyields : MmuCall.Yields
      ⟨wordBus highWords, mappedCore, .supervisor, 0x12080, .read, false, false⟩ (some 0x4080) :=
    (MmuCall.yields_iff hreach).mpr (by decide)
  obtain ⟨hfull, -⟩ := h ⟨wordBus highWords, mappedCore, .supervisor, 0x12080, .read, false, false⟩
    ⟨wordBus highWords, mappedCore, .supervisor, 0x12080, .read, false, false⟩
  have haddr := hfull 0 0x4000104F 0x4080 hreach hyields
  exact absurd haddr (by decide)

end RiscvEm
