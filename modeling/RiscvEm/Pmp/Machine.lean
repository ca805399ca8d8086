import RiscvEm.Pmp.Decision

/-!
The decision of `pmp_mem_check` in machine mode, where only the locked entries are
looked at.
-/

namespace RiscvEm

variable {w : Xlen}

section MachineMode

variable (pmp : Pmp w) (addr : RvUintXlen w) (len : Nat) (accessType : BusAccessType)

def LockedMatch (i : Fin 16) : Prop :=
  checkBit (pmp.cfg i) pmpCfgLBit = true ∧ EndsMatch pmp addr len i

/-- One entry in machine mode: it decides if it is locked and an end byte is within
it, and then by its permission alone. -/
theorem pmpEntryCheck_machine (i : Fin 16) :
    (pmpEntryCheck pmp .machine addr len accessType i = none ↔ ¬ LockedMatch pmp addr len i) ∧
      (pmpEntryCheck pmp .machine addr len accessType i = some .err ↔
        LockedMatch pmp addr len i ∧ ¬ Permits pmp accessType i) := by
  simp only [pmpEntryCheck, checkBit_low_three, true_and, LockedMatch, EndsMatch, WordWithin,
    lastByte, Permits]
  by_cases hlock : checkBit (pmp.cfg i) pmpCfgLBit = true
  · by_cases hoff : addrMode (pmp.cfg i) = .off
    · simp [hlock, hoff]
    · rw [if_neg hoff]
      cases addrWithin addr (pmpAddrStartSize pmp i (addrMode (pmp.cfg i))).1
          (pmpAddrStartSize pmp i (addrMode (pmp.cfg i))).2 <;>
        cases addrWithin (addr + (BitVec.ofNat w.bits len - 1))
            (pmpAddrStartSize pmp i (addrMode (pmp.cfg i))).1
            (pmpAddrStartSize pmp i (addrMode (pmp.cfg i))).2 <;>
          cases (pmp.cfg i).getLsbD accessType.toNat <;> simp [hlock, hoff]
  · simp [hlock]

/-- In machine mode only the first locked entry with an end byte of the access can
refuse it. -/
theorem pmpMemCheck_machine_eq_err_iff :
    pmpMemCheck pmp .machine addr len accessType = .err ↔
      ∃ k, FirstMatch.First (LockedMatch pmp addr len) k ∧ ¬ Permits pmp accessType k := by
  have hsearch := FirstMatch.findSome?_eq_some_iff_first (List.pairwise_lt_finRange 16)
    List.mem_finRange (f := pmpEntryCheck pmp .machine addr len accessType) (b := .err)
  have hcheck : pmpMemCheck pmp .machine addr len accessType = .err ↔
      (List.finRange 16).findSome? (pmpEntryCheck pmp .machine addr len accessType) =
        some .err := by
    rw [pmpMemCheck]
    cases (List.finRange 16).findSome? (pmpEntryCheck pmp .machine addr len accessType) with
    | none => simp
    | some ret => simp
  rw [hcheck, hsearch]
  refine exists_congr fun k => ?_
  rw [(pmpEntryCheck_machine pmp addr len accessType k).2, FirstMatch.First]
  constructor
  · rintro ⟨⟨hmatch, hrefuse⟩, hbefore⟩
    exact ⟨⟨hmatch, fun j hj => (pmpEntryCheck_machine pmp addr len accessType j).1.mp
      (hbefore j hj)⟩, hrefuse⟩
  · rintro ⟨⟨hmatch, hbefore⟩, hrefuse⟩
    exact ⟨⟨hmatch, hrefuse⟩, fun j hj =>
      (pmpEntryCheck_machine pmp addr len accessType j).1.mpr (hbefore j hj)⟩

end MachineMode

theorem RvRet.ne_err_iff {r : RvRet} : r ≠ .err ↔ r = .ok := by
  cases r with
  | ok => simp
  | err => simp

/-- The first locked entry with an end byte of the access decides by its permission. -/
theorem pmpMemCheck_machine_of_first {pmp : Pmp w} {addr : RvUintXlen w} {len : Nat} {k : Fin 16}
    (hfirst : FirstMatch.First (LockedMatch pmp addr len) k) (accessType : BusAccessType) :
    pmpMemCheck pmp .machine addr len accessType = .ok ↔ Permits pmp accessType k := by
  rw [← RvRet.ne_err_iff, ne_eq, pmpMemCheck_machine_eq_err_iff]
  constructor
  · intro h
    by_contra hrefuse
    exact h ⟨k, hfirst, hrefuse⟩
  · rintro hpermit ⟨k', hfirst', hrefuse⟩
    rw [hfirst.unique hfirst'] at hpermit
    exact hrefuse hpermit

/-- Machine mode: the lowest-numbered locked entry in use that has an end byte of the
access decides. It refuses what it does not permit, also when it has only one of the
end bytes, and where it has both it grants what it permits. Without such an entry the
access is granted. -/
theorem pmpMemCheck_machine (pmp : Pmp w) (addr : RvUintXlen w) (len : Nat)
    (accessType : BusAccessType) :
    (∀ k, FirstMatch.First (LockedMatch pmp addr len) k →
        (WordWithin pmp addr k ∧ WordWithin pmp (lastByte addr len) k →
          (pmpMemCheck pmp .machine addr len accessType = .ok ↔ Permits pmp accessType k)) ∧
        (¬ Permits pmp accessType k →
          pmpMemCheck pmp .machine addr len accessType = .err)) ∧
      ((∀ k, ¬ LockedMatch pmp addr len k) →
        pmpMemCheck pmp .machine addr len accessType = .ok) := by
  constructor
  · intro k hfirst
    constructor
    · intro _
      exact pmpMemCheck_machine_of_first hfirst accessType
    · intro hrefuse
      rw [pmpMemCheck_machine_eq_err_iff]
      exact ⟨k, hfirst, hrefuse⟩
  · intro hnone
    rw [← RvRet.ne_err_iff, ne_eq, pmpMemCheck_machine_eq_err_iff]
    rintro ⟨k, ⟨hk, _⟩, _⟩
    exact hnone k hk

/-- An unlocked entry with all permissions before a locked one with none, for the same
four bytes. -/
def shadowedPmp : Pmp .rv32 :=
  { cfg := Function.update (Function.update (fun _ => 0) 0 0x17) 1 0x90
    addr := Function.update (Function.update (fun _ => 0) 0 0x400) 1 0x400 }

/-- An unlocked entry does not hide a locked one with a higher number. -/
theorem unlocked_entry_passed_over :
    ¬ ∀ (pmp : Pmp .rv32) (addr : RvUintXlen .rv32) (len : Nat) (accessType : BusAccessType),
      1 ≤ len →
        (∀ k, FirstMatch.First (EndsMatch pmp addr len) k →
          (WordWithin pmp addr k ∧ WordWithin pmp (lastByte addr len) k →
            (checkBit (pmp.cfg k) pmpCfgLBit = false →
              pmpMemCheck pmp .machine addr len accessType = .ok) ∧
            (checkBit (pmp.cfg k) pmpCfgLBit = true →
              (pmpMemCheck pmp .machine addr len accessType = .ok ↔
                Permits pmp accessType k))) ∧
          (¬ (WordWithin pmp addr k ∧ WordWithin pmp (lastByte addr len) k) →
            pmpMemCheck pmp .machine addr len accessType = .err)) ∧
        ((∀ k, ¬ EndsMatch pmp addr len k) →
          pmpMemCheck pmp .machine addr len accessType = .ok) := by
  intro h
  have hrefused : pmpMemCheck shadowedPmp .machine 0x1000 4 .read = .err := by
    decide
  have hmode : addrMode (shadowedPmp.cfg 0) = .na4 := by decide
  have hends : WordWithin shadowedPmp 0x1000 0 ∧
      WordWithin shadowedPmp (lastByte 0x1000 4) 0 := by
    rw [WordWithin, WordWithin, hmode]
    exact ⟨by decide, by decide⟩
  have hmatch : EndsMatch shadowedPmp 0x1000 4 0 := by
    rw [EndsMatch, hmode]
    exact ⟨by decide, .inl hends.1⟩
  have hfirst : FirstMatch.First (EndsMatch shadowedPmp 0x1000 4) 0 :=
    ⟨hmatch, fun j hj => absurd hj (Fin.not_lt_zero j)⟩
  have hgranted := (((h shadowedPmp 0x1000 4 .read (by decide)).1 0 hfirst).1 hends).1 (by decide)
  rw [hrefused] at hgranted
  cases hgranted

end RiscvEm
