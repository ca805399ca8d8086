import RiscvEm.Core.AccessSpec

/-!
Why an access is refused, as a function of the state before it, and the trap that
records the refusal.
-/

namespace RiscvEm

variable {w : Xlen} {σ : Type}

inductive Refusal (w : Xlen)
  /-- the PMP refuses the read of the page-table entry at this address -/
  | pte (pteAddr : RvUintXlen w)
  /-- the page tables grant no translation -/
  | page
  /-- the PMP refuses the access to the translated address -/
  | phys (physAddr : RvUintXlen w)
  deriving DecidableEq

def Refusal.cause (accessType : BusAccessType) : Refusal w → Nat
  | .pte _ => accessFaultCause .read
  | .page => pageFaultCause accessType
  | .phys _ => accessFaultCause accessType

def Refusal.tval (addr : RvUintXlen w) : Refusal w → RvUintXlen w
  | .pte pteAddr => pteAddr
  | .page => addr
  | .phys physAddr => physAddr

def RvCore.pendingTrap (s : RvCore w σ) : Option (RvUintXlen w × RvUintXlen w) :=
  if s.syncTrapPending then some (s.syncTrapCause, s.syncTrapTval) else none

def Refusal.trap (accessType : BusAccessType) (addr : RvUintXlen w) (r : Refusal w) :
    RvUintXlen w × RvUintXlen w :=
  (BitVec.ofNat w.bits (r.cause accessType), r.tval addr)

/-- The first page-table entry from level `i` down that the PMP keeps the walk
from reading. -/
def refusedPte (busAccess : BusAccessFunc w σ) (pmp : Pmp w) (currPriv : PrivilegeLevel)
    (virtAddr : RvUintXlen w) : Nat → RvUintXlen w → RvUintXlen w → σ →
      Except Halt (Option (RvUintXlen w))
  | i, a, pte, priv =>
      let pteAddr := a + vpn virtAddr i * 4
      if pmpMemCheck pmp currPriv pteAddr w.bytes .read = .err then .ok (some pteAddr)
      else do
        let (_, bytes, priv) ←
          busAccess priv currPriv .read pteAddr (leBytes w.bytes pte.toNat) w.bytes
        let pte := BitVec.ofNat w.bits (leNat (bytes.take w.bytes))
        if pteInvalid (pteFlags pte) ∨ pteFlags pte &&& 0xA ≠ 0 then return none
        else
          match i with
          | 0 => return none
          | i + 1 => refusedPte busAccess pmp currPriv virtAddr i ((pte >>> 10) * 4096) pte priv

/-- The page-table entry whose read is refused when `addr` is translated. -/
def refusedTableRead (busAccess : BusAccessFunc w σ) (s : RvCore w σ)
    (currPriv : PrivilegeLevel) (addr : RvUintXlen w) : Except Halt (Option (RvUintXlen w)) :=
  if currPriv = .machine ∨ satpMode s.mmu.satpReg = 0 then .ok none
  else refusedPte busAccess s.pmp currPriv addr 1 ((s.mmu.satpReg &&& 0x3FFFFF) * 4096) 0 s.priv

/-- The reason for which an access of `len` bytes to `addr` is refused, if it is. -/
def accessRefusal (busAccess : BusAccessFunc w σ) (s : RvCore w σ) (accessType : BusAccessType)
    (addr : RvUintXlen w) (len : Nat) : Except Halt (Option (Refusal w)) := do
  let currPriv := checkMprvOverride s accessType
  match ← refusedTableRead busAccess s currPriv addr with
  | some pteAddr => return some (.pte pteAddr)
  | none =>
      let mxr := checkBit s.status trapXstatusMxrBit
      let sum := checkBit s.status trapXstatusSumBit
      let (physAddr, _) ← mmuVirtToPhys busAccess s currPriv addr accessType mxr sum
      match physAddr with
      | none => return some .page
      | some physAddr =>
          let physAddr := physAddr.setWidth w.bits
          if pmpMemCheck s.pmp currPriv physAddr len accessType = .err then
            return some (.phys physAddr)
          else return none

/-! ### The recorded trap -/

theorem pendingTrap_eq_none {s : RvCore w σ} :
    s.pendingTrap = none ↔ s.syncTrapPending = false := by
  rw [RvCore.pendingTrap]
  split
  · next h => simp [h]
  · next h => simp [h]

theorem pendingTrap_eq_some {s : RvCore w σ} {cause tval : RvUintXlen w} :
    s.pendingTrap = some (cause, tval) ↔
      s.syncTrapPending = true ∧ s.syncTrapCause = cause ∧ s.syncTrapTval = tval := by
  rw [RvCore.pendingTrap]
  split
  · next h => simp [h]
  · next h => simp [h]

theorem pendingTrap_prepareSyncTrap (s : RvCore w σ) (cause tval : RvUintXlen w) :
    (prepareSyncTrap s cause tval).pendingTrap = (s.pendingTrap <|> some (cause, tval)) := by
  rw [prepareSyncTrap]
  split
  · next h => simp [RvCore.pendingTrap, h]
  · next h => simp [RvCore.pendingTrap, h]

theorem pendingTrap_prepareSyncTrap_of_none {s : RvCore w σ} (hs : s.pendingTrap = none)
    (cause tval : RvUintXlen w) :
    (prepareSyncTrap s cause tval).pendingTrap = some (cause, tval) := by
  rw [pendingTrap_prepareSyncTrap, hs]
  rfl

theorem pmpCheckedBusAccess_pendingTrap_of_some {busAccess : BusAccessFunc w σ}
    {s s' : RvCore w σ} {privLevel : PrivilegeLevel} {accessType : BusAccessType}
    {addr : RvUintXlen w} {value value' : List Byte} {len : Nat} {ret : RvRet}
    {t : RvUintXlen w × RvUintXlen w} (hs : s.pendingTrap = some t)
    (h : pmpCheckedBusAccess busAccess s privLevel accessType addr value len =
      .ok (ret, value', s')) : s'.pendingTrap = some t := by
  rcases pmpCheckedBusAccess_cases h with ⟨-, -, -, rfl⟩ | ⟨-, -, hs'⟩
  · rw [pendingTrap_prepareSyncTrap, hs]
    rfl
  · rw [hs', ← hs]
    rfl

theorem mmuWalk_pendingTrap_of_some {busAccess : BusAccessFunc w σ} {currPriv : PrivilegeLevel}
    {virtAddr a pte : RvUintXlen w} {i : Nat} {s s' : RvCore w σ}
    {leaf : Option (Nat × RvUintXlen w)} {t : RvUintXlen w × RvUintXlen w}
    (hs : s.pendingTrap = some t)
    (h : mmuWalk busAccess currPriv virtAddr i a pte s = .ok (leaf, s')) :
    s'.pendingTrap = some t := by
  induction i generalizing a pte s with
  | zero =>
      obtain ⟨_, _, s₁, hread, hcases⟩ := mmuWalk_eq_ok h
      have hs₁ := pmpCheckedBusAccess_pendingTrap_of_some hs hread
      rcases hcases with ⟨-, -, rfl⟩ | ⟨-, -, -, rfl⟩ | ⟨-, -, -, -, rfl⟩ | ⟨-, -, _, hj, -⟩
      · exact hs₁
      · exact hs₁
      · exact hs₁
      · omega
  | succ i ih =>
      obtain ⟨_, _, s₁, hread, hcases⟩ := mmuWalk_eq_ok h
      have hs₁ := pmpCheckedBusAccess_pendingTrap_of_some hs hread
      rcases hcases with ⟨-, -, rfl⟩ | ⟨-, -, -, rfl⟩ | ⟨-, -, -, -, rfl⟩ | ⟨-, -, _, hj, hwalk⟩
      · exact hs₁
      · exact hs₁
      · exact hs₁
      · obtain rfl := Nat.succ.inj hj
        exact ih hs₁ hwalk

theorem mmuCheckedBusAccess_pendingTrap_of_some {busAccess : BusAccessFunc w σ}
    {s s' : RvCore w σ} {accessType : BusAccessType} {addr : RvUintXlen w}
    {value value' : List Byte} {len : Nat} {ret : RvRet} {t : RvUintXlen w × RvUintXlen w}
    (hs : s.pendingTrap = some t)
    (h : mmuCheckedBusAccess busAccess s accessType addr value len = .ok (ret, value', s')) :
    s'.pendingTrap = some t := by
  obtain ⟨physAddr, s₁, htrans, hcases⟩ := mmuCheckedBusAccess_cases h
  have hs₁ : s₁.pendingTrap = some t := by
    rcases mmuVirtToPhys_cases htrans with ⟨-, -, rfl⟩ | ⟨-, leaf, s₂, hwalk, -, hs₂⟩
    · exact hs
    · rw [hs₂, ← mmuWalk_pendingTrap_of_some hs hwalk]
      rfl
  rcases hcases with ⟨-, -, -, rfl⟩ | ⟨phys, -, haccess⟩
  · rw [pendingTrap_prepareSyncTrap, hs₁]
    rfl
  · exact pmpCheckedBusAccess_pendingTrap_of_some hs₁ haccess

/-! ### The recorded trap is the refusal -/

/-- The trap recorded by a walk of at most two levels. A refused read leaves the
entry variable as it was; at the top it is zero and one level further down it is
a pointer, so that the walk ends there in a page fault. -/
theorem mmuWalk_refusal {busAccess : BusAccessFunc w σ} {currPriv : PrivilegeLevel}
    {virtAddr a pte : RvUintXlen w} {i : Nat} {s s' : RvCore w σ}
    {leaf : Option (Nat × RvUintXlen w)} (hi : i ≤ 1)
    (hstop : pteInvalid (pteFlags pte) = true ∨ (i = 0 ∧ pteFlags pte &&& 0xA = 0))
    (hs : s.pendingTrap = none)
    (h : mmuWalk busAccess currPriv virtAddr i a pte s = .ok (leaf, s')) :
    ∃ r, refusedPte busAccess s.pmp currPriv virtAddr i a pte s.priv = .ok r ∧
      s'.pendingTrap =
        r.map (fun pteAddr => (BitVec.ofNat w.bits trapCauseLoadAccessFault, pteAddr)) ∧
      (r ≠ none → leaf = none) := by
  induction i using Nat.strongRecOn generalizing a pte s with
  | _ i ih =>
      obtain ⟨_, bytes, s₁, hread, hcases⟩ := mmuWalk_eq_ok h
      rw [refusedPte.eq_def]
      rcases pmpCheckedBusAccess_cases hread with ⟨hpmp, -, rfl, rfl⟩ | ⟨hpmp, hbus, hs₁⟩
      · -- the read is refused: the walk goes on with the entry it had, which ends it
        rw [ofNat_leNat_leBytes] at hcases
        have hnone : leaf = none ∧ s' = prepareSyncTrap s
            (BitVec.ofNat w.bits trapCauseLoadAccessFault) (a + vpn virtAddr i * 4) := by
          rcases hcases with h' | ⟨hval, hleaf, -⟩ | h' | ⟨hval, -, j, hj, -⟩
          · exact h'.2
          · rcases hstop with hinv | ⟨-, hptr⟩
            · exact absurd hinv (by simp [hval])
            · exact absurd hptr hleaf
          · exact h'.2.2.2
          · rcases hstop with hinv | ⟨h0, -⟩
            · exact absurd hinv (by simp [hval])
            · omega
        refine ⟨_, if_pos hpmp, ?_, fun _ => hnone.1⟩
        rw [hnone.2, pendingTrap_prepareSyncTrap_of_none hs]
        rfl
      · have hallow :
            ¬ pmpMemCheck s.pmp currPriv (a + vpn virtAddr i * 4) w.bytes .read = .err := by
          rw [hpmp]
          decide
        have hs₁' : s₁.pendingTrap = none := by
          rw [hs₁]
          exact hs
        simp only [hallow, if_false, hbus, Except.ok_bind]
        rcases hcases with ⟨hbad, -, rfl⟩ | ⟨-, hleaf, -, rfl⟩ | ⟨hval, hptr, rfl, -, rfl⟩ |
            ⟨hval, hptr, j, rfl, hwalk⟩
        · exact ⟨none, if_pos (.inl hbad), hs₁', fun hne => absurd rfl hne⟩
        · exact ⟨none, if_pos (.inr hleaf), hs₁', fun hne => absurd rfl hne⟩
        · exact ⟨none, if_neg (not_or.mpr ⟨by rw [hval]; decide, not_not.mpr hptr⟩), hs₁',
            fun hne => absurd rfl hne⟩
        · obtain ⟨r, hr, hrest⟩ :=
            ih j (by omega) (by omega) (.inr ⟨by omega, hptr⟩) hs₁' hwalk
          have hpmp₁ : s₁.pmp = s.pmp := by rw [hs₁]
          rw [hpmp₁] at hr
          refine ⟨r, ?_, hrest⟩
          rw [if_neg (not_or.mpr ⟨by rw [hval]; decide, not_not.mpr hptr⟩)]
          exact hr

theorem mmuVirtToPhys_refusal {busAccess : BusAccessFunc w σ} {s s' : RvCore w σ}
    {currPriv : PrivilegeLevel} {virtAddr : RvUintXlen w} {accessType : BusAccessType}
    {mxr sum : Bool} {physAddr : Option (BitVec 64)} (hs : s.pendingTrap = none)
    (h : mmuVirtToPhys busAccess s currPriv virtAddr accessType mxr sum = .ok (physAddr, s')) :
    ∃ r, refusedTableRead busAccess s currPriv virtAddr = .ok r ∧
      s'.pendingTrap =
        r.map (fun pteAddr => (BitVec.ofNat w.bits trapCauseLoadAccessFault, pteAddr)) ∧
      (r ≠ none → physAddr = none) := by
  rw [refusedTableRead]
  rcases mmuVirtToPhys_cases h with ⟨hbare, -, rfl⟩ | ⟨hbare, leaf, s₁, hwalk, hphys, hs'⟩
  · exact ⟨none, if_pos hbare, hs, fun hne => absurd rfl hne⟩
  · have hzero : pteInvalid (pteFlags (0 : RvUintXlen w)) = true := by
      simp [pteInvalid, pteFlags, checkBit]
    obtain ⟨r, hr, htrap, hleaf⟩ := mmuWalk_refusal (Nat.le_refl 1) (.inl hzero) hs hwalk
    refine ⟨r, by rw [if_neg hbare, hr], ?_, fun hne => ?_⟩
    · rw [hs', ← htrap]
      rfl
    · rw [hphys, hleaf hne]
      rfl

/-- An access of the core records its refusal, and only then. -/
theorem mmuCheckedBusAccess_refusal {busAccess : BusAccessFunc w σ} {s s' : RvCore w σ}
    {accessType : BusAccessType} {addr : RvUintXlen w} {value value' : List Byte} {len : Nat}
    {ret : RvRet} (hs : s.pendingTrap = none)
    (h : mmuCheckedBusAccess busAccess s accessType addr value len = .ok (ret, value', s')) :
    ∃ r, accessRefusal busAccess s accessType addr len = .ok r ∧
      s'.pendingTrap = r.map (Refusal.trap accessType addr) ∧
      (r ≠ none → ret = .err ∧ value' = value) := by
  obtain ⟨physAddr, s₁, htrans, hcases⟩ := mmuCheckedBusAccess_cases h
  obtain ⟨r, hr, htrap, hnone⟩ := mmuVirtToPhys_refusal hs htrans
  simp only [accessRefusal, hr, Except.ok_bind]
  cases r with
  | some pteAddr =>
      rcases hcases with ⟨-, rfl, rfl, rfl⟩ | ⟨phys, hphys, -⟩
      · -- the page fault does not replace the access fault of the table read
        refine ⟨_, rfl, ?_, fun _ => ⟨rfl, rfl⟩⟩
        rw [pendingTrap_prepareSyncTrap, htrap]
        rfl
      · rw [hnone (by simp)] at hphys
        cases hphys
  | none =>
      rw [Option.map_none] at htrap
      simp only [htrans, Except.ok_bind]
      rcases hcases with ⟨rfl, rfl, rfl, rfl⟩ | ⟨phys, rfl, haccess⟩
      · refine ⟨_, rfl, ?_, fun _ => ⟨rfl, rfl⟩⟩
        rw [pendingTrap_prepareSyncTrap_of_none htrap]
        rfl
      · have hpmp : s₁.pmp = s.pmp := by rw [mmuVirtToPhys_frame htrans]
        rcases pmpCheckedBusAccess_cases haccess with ⟨href, rfl, rfl, rfl⟩ | ⟨hallow, -, hs'⟩
        · rw [hpmp] at href
          refine ⟨_, if_pos href, ?_, fun _ => ⟨rfl, rfl⟩⟩
          rw [pendingTrap_prepareSyncTrap_of_none htrap]
          rfl
        · rw [hpmp] at hallow
          refine ⟨none, if_neg (by rw [hallow]; decide), ?_, fun hne => absurd rfl hne⟩
          rw [hs']
          exact htrap

end RiscvEm
