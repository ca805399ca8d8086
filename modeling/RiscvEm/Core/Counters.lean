import RiscvEm.Core.CsrTable

/-!
The counters: every call of `rv_core_run` counts one cycle, whatever it executes, and leaves
the registers that show the count with it, whatever the guest has written to them.
-/

namespace RiscvEm

variable {w : Xlen} {σ : Type} {busAccess : BusAccessFunc w σ} {s s' : RvCore w σ}

/-! ### One call -/

theorem handler_currCycle {cb : ExecutionCb} (h : cb.handler busAccess s = .ok s') :
    s'.currCycle = s.currCycle := by
  rcases handler_cases h with ⟨-, huser⟩ | ⟨-, newVal, hcsr⟩ | ⟨-, merge, newVal, -, hcsr⟩ |
      ⟨level, -, hxret⟩
  · rw [huser]
  · rw [csrrwx_frame hcsr]
  · rw [csrrReadModifyWrite_frame hcsr]
  · rw [(xret_eq_ok hxret).2]

theorem rvCoreRun_currCycle (h : rvCoreRun busAccess s = .ok s') :
    s'.currCycle = s.currCycle + 1 := by
  rcases rvCoreRun_cases h with ⟨f, hfetch, rfl⟩ | ⟨cb, d, e, hexec, hhandler, rfl⟩
  · have hf : f.currCycle = s.currCycle := by
      rw [rvCoreFetch_frame hfetch]
      rfl
    rw [← hf]
    rfl
  · have hd : d.currCycle = s.currCycle := by rw [hexec.frame]
    rw [← hd, ← handler_currCycle hhandler]
    rfl

def RvCore.ShowsCycle (s : RvCore w σ) : Prop :=
  ∀ entry ∈ cycleCsrs w, (s.csrRegs entry.1).value = (s.currCycle >>> entry.2).setWidth w.bits

theorem cycleCsrs_nodup (w : Xlen) : ((cycleCsrs w).map Prod.fst).Nodup := by
  cases w <;> decide

theorem foldl_setCsrValue_of_not_mem {entries : List (Nat × Nat)} (value : Nat → RvUintXlen w)
    (table : Nat → CsrReg w) {a : Nat} (ha : a ∉ entries.map Prod.fst) :
    entries.foldl (fun table entry => setCsrValue table entry.1 (value entry.2)) table a =
      table a := by
  induction entries generalizing table with
  | nil => rfl
  | cons first rest ih =>
      rw [List.map_cons, List.mem_cons, not_or] at ha
      rw [List.foldl_cons, ih _ ha.2]
      exact Function.update_of_ne ha.1 _ _

/-- Assignments to different places leave each place with its own value. -/
theorem foldl_setCsrValue {entries : List (Nat × Nat)} (value : Nat → RvUintXlen w)
    (hnodup : (entries.map Prod.fst).Nodup) (table : Nat → CsrReg w) {entry : Nat × Nat}
    (hentry : entry ∈ entries) :
    (entries.foldl (fun table entry => setCsrValue table entry.1 (value entry.2)) table
      entry.1).value = value entry.2 := by
  induction entries generalizing table with
  | nil => cases hentry
  | cons first rest ih =>
      rw [List.map_cons, List.nodup_cons] at hnodup
      rw [List.foldl_cons]
      rcases List.mem_cons.mp hentry with rfl | hrest
      · rw [foldl_setCsrValue_of_not_mem value _ hnodup.1, setCsrValue, Function.update_self]
      · exact ih hnodup.2 _ hrest

theorem advance_showsCycle (s : RvCore w σ) : (advance s).ShowsCycle := by
  intro entry hentry
  exact foldl_setCsrValue (fun shift => ((s.currCycle + 1) >>> shift).setWidth w.bits)
    (cycleCsrs_nodup w) s.csrRegs hentry

theorem rvCoreRun_showsCycle (h : rvCoreRun busAccess s = .ok s') : s'.ShowsCycle := by
  rcases rvCoreRun_cases h with ⟨f, -, rfl⟩ | ⟨cb, d, e, -, -, rfl⟩
  · exact advance_showsCycle f
  · exact advance_showsCycle (e.setX 0 0)

theorem RvCore.ShowsCycle.of_same (h : s.ShowsCycle) (hcycle : s'.currCycle = s.currCycle)
    (htable : s'.csrRegs = s.csrRegs) : s'.ShowsCycle := by
  intro entry hentry
  rw [hcycle, htable]
  exact h entry hentry

/-! ### Reading -/

/-- The counters read as they are, at machine mode and, those that are not for machine mode
alone, at every mode. -/
def CounterReadable (privLevel : PrivilegeLevel) (address : Nat) : Prop :=
  privLevel = .machine ∨ csrAddrCycle ≤ address ∧ privLevel.Legal

theorem cycleCsrs_entry {entry : Nat × Nat} (hentry : entry ∈ cycleCsrs w) :
    entry.1 < csrAddrMax ∧ (rvCoreInitCsrRegs w entry.1).callback = none ∧
      (rvCoreInitCsrRegs w entry.1).warlAlwaysEnabled = 0 ∧
      csrAccessReadGranted .machine (rvCoreInitCsrRegs w entry.1).accessFlags = true ∧
      (csrAddrCycle ≤ entry.1 → (rvCoreInitCsrRegs w entry.1).accessFlags = accessRoAll) := by
  revert entry
  cases w <;> decide

theorem readGranted_roAll {p : PrivilegeLevel} (hp : p.Legal) :
    csrAccessReadGranted p accessRoAll = true := by
  rcases hp with rfl | rfl | rfl
  · decide
  · decide
  · decide

theorem csrReadReg_counter (htable : TableKept s.csrRegs) (hshows : s.ShowsCycle)
    {entry : Nat × Nat} (hentry : entry ∈ cycleCsrs w) {p : PrivilegeLevel}
    (hp : CounterReadable p entry.1) :
    csrReadReg s p entry.1 = .ok (some ((s.currCycle >>> entry.2).setWidth w.bits)) := by
  obtain ⟨haddr, hcb, hwarl, hmachine, hall⟩ := cycleCsrs_entry hentry
  have hattr := htable entry.1
  simp only [CsrReg.attributes, CsrReg.mk.injEq, true_and] at hattr
  obtain ⟨hflags, -, hwarl', hcb'⟩ := hattr
  rw [hwarl] at hwarl'
  rw [hcb] at hcb'
  have hgrant : csrAccessReadGranted p (s.csrRegs entry.1).accessFlags = true := by
    rw [hflags]
    rcases hp with rfl | ⟨hlow, hlegal⟩
    · exact hmachine
    · rw [hall hlow]
      exact readGranted_roAll hlegal
  have hbound : ¬ csrAddrMax < entry.1 := by omega
  rw [csrReadReg, if_neg hbound, csrEntry_eq_ok.mpr ⟨haddr, rfl⟩]
  simp only [Except.ok_bind, if_pos hgrant, hcb', hwarl', hshows entry hentry,
    BitVec.ofNat_eq_ofNat, BitVec.or_zero, Except.pure_eq_ok]

end RiscvEm
