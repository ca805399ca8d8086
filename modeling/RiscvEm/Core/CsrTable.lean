import RiscvEm.Core.Reach

/-!
The CSR table over runs: only the values change. What the table lets a mode below
machine mode write is read off the list of its initial entries.
-/

namespace RiscvEm

variable {w : Xlen} {σ : Type}

/-! ### The initial table -/

/-- Each place of a table filled by assignments holds what it held before or one of
the assigned entries. -/
theorem foldl_update_cases {α : Type} (entries : List (Nat × α)) (table : Nat → α) (a : Nat) :
    entries.foldl (fun table entry => Function.update table entry.1 entry.2) table a = table a ∨
      (a, entries.foldl (fun table entry => Function.update table entry.1 entry.2) table a) ∈
        entries := by
  induction entries generalizing table with
  | nil => exact .inl rfl
  | cons entry rest ih =>
      rw [List.foldl_cons]
      rcases ih (Function.update table entry.1 entry.2) with heq | hmem
      · by_cases ha : a = entry.1
        · right
          subst ha
          rw [Function.update_self] at heq
          rw [heq]
          exact List.mem_cons_self
        · left
          rw [heq, Function.update_of_ne ha]
      · exact .inr (List.mem_cons_of_mem _ hmem)

theorem rvCoreInitCsrRegs_cases (a : Nat) :
    rvCoreInitCsrRegs w a = {} ∨ (a, rvCoreInitCsrRegs w a) ∈ csrInitList w :=
  foldl_update_cases (csrInitList w) (fun _ => {}) a

/-! ### What stays fixed -/

def CsrReg.attributes (r : CsrReg w) : CsrReg w := { r with value := 0 }

/-- The table differs from the initial one in values only. -/
def TableKept (table : Nat → CsrReg w) : Prop :=
  ∀ a, (table a).attributes = (rvCoreInitCsrRegs w a).attributes

theorem TableKept.setCsrValue {table : Nat → CsrReg w} (h : TableKept table) (address : Nat)
    (v : RvUintXlen w) : TableKept (setCsrValue table address v) := by
  intro a
  by_cases ha : a = address
  · subst ha
    rw [RiscvEm.setCsrValue, Function.update_self]
    exact h a
  · rw [RiscvEm.setCsrValue, Function.update_of_ne ha]
    exact h a

theorem TableKept.written {s s' : RvCore w σ} (hs : TableKept s.csrRegs)
    {privLevel : PrivilegeLevel} {address : Nat} {val : RvUintXlen w}
    (h : CsrWritten s privLevel address val s') : TableKept s'.csrRegs := by
  obtain ⟨-, ⟨cb, -, hcb⟩ | ⟨-, rfl⟩⟩ := h
  · cases cb <;> simp only [csrWriteCb, Prod.mk.injEq] at hcb <;> obtain ⟨-, rfl⟩ := hcb <;>
      exact hs
  · exact hs.setCsrValue _ _

theorem TableKept.illegalInstr {s : RvCore w σ} (hs : TableKept s.csrRegs) :
    TableKept (illegalInstr s).csrRegs := by
  rw [RiscvEm.illegalInstr, prepareSyncTrap]
  split
  · exact hs
  · exact hs

theorem TableKept.handler {busAccess : BusAccessFunc w σ} {cb : ExecutionCb} {s s' : RvCore w σ}
    (hs : TableKept s.csrRegs) (h : cb.handler busAccess s = .ok s') :
    TableKept s'.csrRegs := by
  rcases handler_cases h with ⟨-, huser⟩ | ⟨-, newVal, hcsr⟩ | ⟨-, merge, newVal, -, hcsr⟩ |
      ⟨level, -, hxret⟩
  · rw [huser]
    exact hs
  · obtain ⟨-, rfl | ⟨csrVal, s₁, -, -, hwritten, rfl⟩⟩ := csrrwx_cases hcsr
    · exact hs.illegalInstr
    · show TableKept s₁.csrRegs
      exact hs.written hwritten
  · obtain ⟨-, rfl | ⟨csrVal, s₁, -, hwritten, hkept, rfl⟩⟩ := csrrReadModifyWrite_cases hcsr
    · exact hs.illegalInstr
    · show TableKept s₁.csrRegs
      by_cases hrs1 : s.rs1 = 0
      · rw [hkept hrs1]
        exact hs
      · exact hs.written (hwritten hrs1)
  · rw [(xret_eq_ok hxret).2]
    exact hs

theorem TableKept.advance {s : RvCore w σ} (hs : TableKept s.csrRegs) :
    TableKept (advance s).csrRegs := by
  have hfold (entries : List (Nat × Nat)) {table : Nat → CsrReg w} (htable : TableKept table) :
      TableKept (entries.foldl (fun table entry => RiscvEm.setCsrValue table entry.1
        (((s.currCycle + 1) >>> entry.2).setWidth w.bits)) table) := by
    induction entries generalizing table with
    | nil => exact htable
    | cons entry rest ih => exact ih (htable.setCsrValue _ _)
  exact hfold (cycleCsrs w) hs

theorem TableKept.rvCoreRun {busAccess : BusAccessFunc w σ} {s s' : RvCore w σ}
    (hs : TableKept s.csrRegs) (h : rvCoreRun busAccess s = .ok s') : TableKept s'.csrRegs := by
  rcases rvCoreRun_cases h with ⟨f, hfetch, rfl⟩ | ⟨cb, d, e, hexec, hhandler, rfl⟩
  · have hf : TableKept f.csrRegs := by
      rw [rvCoreFetch_frame hfetch]
      exact hs
    exact hf.advance
  · have hd : TableKept d.csrRegs := by
      rw [hexec.frame]
      exact hs
    have he : TableKept e.csrRegs := hd.handler hhandler
    exact TableKept.advance (s := e.setX 0 0) he

theorem CoreReachable.tableKept {busAccess : BusAccessFunc w σ} {s : RvCore w σ}
    (h : CoreReachable busAccess s) : TableKept s.csrRegs := by
  refine Transition.Reachable.invariant (P := fun s => TableKept s.csrRegs) h ?_ ?_
  · rintro a ⟨priv, rfl⟩
    exact fun _ => rfl
  · rintro a b ha ⟨call, hcall⟩
    cases call with
    | run => exact ha.rvCoreRun hcall
    | environment priv =>
        obtain rfl := Except.ok.inj hcall
        exact ha
    | processInterrupts mei mti msi =>
        rw [rvCoreProcessInterrupts_frame hcall]
        exact ha

/-! ### What a lower mode can write -/

/-- The bits of a shared register that its supervisor view may change. -/
def sharedMask (w : Xlen) : TrapReg → Option (RvUintXlen w)
  | .status => some (csrSstatusMask w)
  | .ie | .ip => some (csrSipSieMask w)
  | _ => none

def sharedView (address : Nat) : Option TrapReg :=
  if address = csrAddrSstatus then some .status
  else if address = csrAddrSie then some .ie
  else if address = csrAddrSip then some .ip
  else none

/-- User mode writes no register. Supervisor mode writes its own trap registers,
`satp` and plain values; where its register is a view of a shared one, the mask of
the entry is that of the view and no bit reads as a constant. -/
def CsrReg.belowMachine (address : Nat) (r : CsrReg w) : Bool :=
  !csrAccessWriteGranted .user r.accessFlags &&
    (!csrAccessWriteGranted .supervisor r.accessFlags ||
      match r.callback with
      | none | some .mmu => true
      | some (.trapS reg) => !reg.shared ||
          r.warlAlwaysEnabled == 0 && sharedMask w reg == some r.mask &&
            sharedView address == some reg
      | _ => false)

theorem csrInitList_belowMachine :
    (csrInitList w).all (fun entry => entry.2.belowMachine entry.1) = true := by
  cases w <;> decide

/-- A check that does not look at the value holds of every entry, if it holds of the
entries that the initialisation sets and of an empty one. -/
theorem TableKept.check {table : Nat → CsrReg w} (h : TableKept table)
    (check : Nat → CsrReg w → Bool) (hvalue : ∀ a r, check a r = check a r.attributes)
    (hempty : ∀ a, check a {} = true)
    (hinit : (csrInitList w).all (fun entry => check entry.1 entry.2) = true) (a : Nat) :
    check a (table a) = true := by
  have hattr : check a (table a) = check a (rvCoreInitCsrRegs w a) := by
    rw [hvalue, h a, ← hvalue]
  rw [hattr]
  rcases rvCoreInitCsrRegs_cases (w := w) a with heq | hmem
  · rw [heq]
    exact hempty a
  · exact List.all_eq_true.mp hinit _ hmem

theorem TableKept.belowMachine {table : Nat → CsrReg w} (h : TableKept table) (a : Nat) :
    (table a).belowMachine a = true := by
  refine h.check (fun a r => r.belowMachine a) (fun _ _ => rfl) (fun a => ?_)
    csrInitList_belowMachine a
  simp [CsrReg.belowMachine, csrAccessWriteGranted]

theorem rvCoreInitCsrRegs_sharedView {a : Nat} {r : TrapReg} (h : sharedView a = some r) :
    a < csrAddrMax ∧ ∃ mask, sharedMask w r = some mask ∧
      rvCoreInitCsrRegs w a =
        { accessFlags := accessMs, mask := mask, callback := some (.trapS r) } := by
  rw [sharedView] at h
  split at h
  · next ha =>
      obtain rfl := Option.some.inj h
      subst ha
      exact ⟨by decide, _, rfl, by cases w <;> decide +kernel⟩
  · split at h
    · next ha =>
        obtain rfl := Option.some.inj h
        subst ha
        exact ⟨by decide, _, rfl, by cases w <;> decide +kernel⟩
    · split at h
      · next ha =>
          obtain rfl := Option.some.inj h
          subst ha
          exact ⟨by decide, _, rfl, by cases w <;> decide⟩
      · cases h

end RiscvEm
