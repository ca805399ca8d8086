import RiscvEm.Core.Reads

/-!
What a call that raises a trap has to leave as it was, and what the handlers with an
access leave when that is refused.
-/

namespace RiscvEm

variable {w : Xlen} {σ : Type}

/-- Nothing has changed but the program counter, the counters, the decoder fields,
the reservation and the recorded trap. -/
structure ArchKept (s s' : RvCore w σ) : Prop where
  x : s'.x = s.x
  priv : s'.priv = s.priv
  trap : s'.trap = s.trap
  pmp : s'.pmp = s.pmp
  satp : s'.mmu.satpReg = s.mmu.satpReg
  mode : s'.currPrivMode = s.currPrivMode
  csrRegs : ∀ a, a ∉ (cycleCsrs w).map Prod.fst → s'.csrRegs a = s.csrRegs a

/-- The end of a call writes no CSR but the counters. -/
theorem advance_csrRegs (s : RvCore w σ) {a : Nat} (ha : a ∉ (cycleCsrs w).map Prod.fst) :
    (advance s).csrRegs a = s.csrRegs a := by
  have hfold (entries : List (Nat × Nat)) (table : Nat → CsrReg w)
      (hentries : a ∉ entries.map Prod.fst) :
      entries.foldl (fun table entry => setCsrValue table entry.1
        (((s.currCycle + 1) >>> entry.2).setWidth w.bits)) table a = table a := by
    induction entries generalizing table with
    | nil => rfl
    | cons entry rest ih =>
        rw [List.map_cons, List.mem_cons, not_or] at hentries
        rw [List.foldl_cons, ih _ hentries.2]
        exact Function.update_of_ne hentries.1 _ _
  exact hfold (cycleCsrs w) s.csrRegs ha

/-- A call within the frame of an access keeps everything if it keeps the registers and what
is behind the bus. -/
theorem archKept_advance_iff {s d e : RvCore w σ} (hsetup : SetupFrame s d)
    (hframe : MemoryFrame d e) : ArchKept s (advance e) ↔ e.x = s.x ∧ e.priv = s.priv := by
  constructor
  · exact fun h => ⟨h.x, h.priv⟩
  · rintro ⟨hx, hpriv⟩
    have hrest : e.trap = s.trap ∧ e.pmp = s.pmp ∧ e.mmu.satpReg = s.mmu.satpReg ∧
        e.currPrivMode = s.currPrivMode ∧ e.csrRegs = s.csrRegs := by
      rw [hframe, hsetup]
      exact ⟨rfl, rfl, rfl, rfl, rfl⟩
    obtain ⟨htrap, hpmp, hsatp, hmode, hcsr⟩ := hrest
    exact {
      x := hx
      priv := hpriv
      trap := htrap
      pmp := hpmp
      satp := hsatp
      mode := hmode
      csrRegs := fun a ha => (advance_csrRegs e ha).trans (congrFun hcsr a) }

/-- A value in `rd` is seen unless that is the zero register. -/
theorem update_zero_eq_iff {x : RegIndex → RvUintXlen w} (hx : x 0 = 0) (rd : RegIndex)
    (v : RvUintXlen w) : Function.update (Function.update x rd v) 0 0 = x ↔ rd = 0 ∨ x rd = v := by
  by_cases hrd : rd = 0
  · subst hrd
    refine iff_of_true ?_ (.inl rfl)
    rw [Function.update_idem, ← hx, Function.update_eq_self]
  · rw [or_iff_right hrd]
    constructor
    · intro heq
      rw [← congrFun heq rd, Function.update_of_ne hrd, Function.update_self]
    · intro hv
      rw [← hv, Function.update_eq_self, ← hx, Function.update_eq_self]

theorem update_zero_self {x : RegIndex → RvUintXlen w} (hx : x 0 = 0) :
    Function.update x 0 0 = x := by
  rw [← hx, Function.update_eq_self]

/-! ### Handlers whose access is refused -/

section Refused

variable {busAccess : BusAccessFunc w σ} {step : σ → RvUintXlen w → σ}
  (hstep : ReadsStep busAccess step) {s e : RvCore w σ} {len : Nat}

include hstep

theorem load_refused_leaves {ext : BitVec (8 * len) → RvUintXlen w} (hs : s.pendingTrap = none)
    (h : load busAccess len ext s = .ok e) (he : e.syncTrapPending = true) :
    e.x = s.x ∧
      e.priv = (accessReads busAccess s .read (effectiveAddress s) len).foldl step s.priv := by
  obtain ⟨ret, bytes, s₁, haccess, rfl⟩ := load_eq_ok.mp h
  have hpending : s₁.syncTrapPending = true := by
    split at he
    · exact he
    · exact he
  have hnone := (grantedAddr_eq_none_iff hs haccess).mpr hpending
  have hret : ret ≠ .ok := by
    rcases mmuCheckedBusAccess_reads hstep haccess with ⟨-, rfl, -⟩ | ⟨phys, hsome, -⟩
    · decide
    · cases hnone.symm.trans hsome
  rw [if_neg hret]
  refine ⟨?_, mmuCheckedBusAccess_reads_priv hstep (.inr hnone) haccess⟩
  rw [mmuCheckedBusAccess_frame haccess]

theorem store_refused_leaves (hs : s.pendingTrap = none) (h : store busAccess len s = .ok e)
    (he : e.syncTrapPending = true) :
    e.x = s.x ∧
      e.priv = (accessReads busAccess s .write (effectiveAddress s) len).foldl step s.priv := by
  obtain ⟨ret, bytes, haccess⟩ := store_eq_ok.mp h
  have hnone := (grantedAddr_eq_none_iff hs haccess).mpr he
  refine ⟨?_, mmuCheckedBusAccess_reads_priv hstep (.inr hnone) haccess⟩
  rw [mmuCheckedBusAccess_frame haccess]

/-- A store-conditional raises a trap only if its reservation matches. It clears `rd` all the
same. -/
theorem storeConditional_refused_leaves (hs : s.pendingTrap = none)
    (h : storeConditional (store busAccess len) s = .ok e) (he : e.syncTrapPending = true) :
    e.x = Function.update s.x s.rd 0 ∧
      e.priv = (accessReads busAccess s .write (effectiveAddress s) len).foldl step s.priv := by
  by_cases hreserved : s.reserved
  · obtain ⟨s₁, hstore, rfl⟩ := storeConditional_of_reserved hreserved h
    have hpending : s₁.syncTrapPending = true := he
    obtain ⟨hx, hpriv⟩ := store_refused_leaves hstep hs hstore hpending
    have hrd : s₁.rd = s.rd := by rw [store_frame hstore]
    refine ⟨?_, hpriv⟩
    show (s₁.setX s₁.rd 0).x = _
    rw [RvCore.setX_x, hx, hrd]
  · rw [storeConditional_of_not_reserved hreserved] at h
    obtain rfl := Except.ok.inj h
    have hpending : s.syncTrapPending = true := he
    rw [pendingTrap_eq_none.mp hs] at hpending
    cases hpending

end Refused

end RiscvEm
