import RiscvEm.Core.Reach

/-!
The causes and values of memory faults: the trap that a refused access records, and
the trap that the kind of the instruction and its virtual address call for.

A refusal is recorded where it happens, with the kind and the address of the access
made there; the first record stays.
-/

namespace RiscvEm

variable {w : Xlen} {σ : Type}

/-! ### Recorded and expected traps -/

/-- The cause of a refusal for an instruction of this kind: a page fault or, wherever
it occurs, a PMP violation. -/
def Refusal.ownCause (kind : BusAccessType) : Refusal w → Nat
  | .page => pageFaultCause kind
  | .pte _ | .phys _ => accessFaultCause kind

/-- The trap that an instruction of this kind calls for when its access to the
virtual address is refused. -/
def Refusal.ownTrap (kind : BusAccessType) (virtAddr : RvUintXlen w) (r : Refusal w) :
    RvUintXlen w × RvUintXlen w :=
  (BitVec.ofNat w.bits (r.ownCause kind), virtAddr)

/-- The record of a refused access is the trap its instruction calls for: the access
is of the kind of the instruction and the address refused is the virtual one. A
page-table read is an access of its own, of the kind of a load. -/
def Refusal.Reported (kind accessType : BusAccessType) (virtAddr : RvUintXlen w) :
    Refusal w → Prop
  | .page => accessType = kind
  | .pte pteAddr => kind = .read ∧ pteAddr = virtAddr
  | .phys physAddr => accessType = kind ∧ physAddr = virtAddr

theorem accessFaultCause_lt (t : BusAccessType) : accessFaultCause t < 16 := by
  cases t <;> decide

theorem pageFaultCause_lt (t : BusAccessType) : pageFaultCause t < 16 := by
  cases t <;> decide

theorem accessFaultCause_inj {t t' : BusAccessType} :
    accessFaultCause t = accessFaultCause t' ↔ t = t' := by
  cases t <;> cases t' <;> decide

theorem pageFaultCause_inj {t t' : BusAccessType} :
    pageFaultCause t = pageFaultCause t' ↔ t = t' := by
  cases t <;> cases t' <;> decide

theorem ofNat_cause_inj {a b : Nat} (ha : a < 16) (hb : b < 16) :
    BitVec.ofNat w.bits a = BitVec.ofNat w.bits b ↔ a = b := by
  constructor
  · intro h
    have hnat := congrArg BitVec.toNat h
    rwa [w.toNat_ofNat (by omega), w.toNat_ofNat (by omega)] at hnat
  · intro h
    rw [h]

theorem Refusal.trap_eq_ownTrap_iff {kind accessType : BusAccessType} {virtAddr : RvUintXlen w}
    {r : Refusal w} :
    r.trap accessType virtAddr = r.ownTrap kind virtAddr ↔
      r.Reported kind accessType virtAddr := by
  rw [Refusal.trap, Refusal.ownTrap, Prod.mk.injEq]
  cases r with
  | page =>
      rw [cause, ownCause, ofNat_cause_inj (pageFaultCause_lt _) (pageFaultCause_lt _),
        pageFaultCause_inj]
      exact and_iff_left rfl
  | pte pteAddr =>
      rw [cause, ownCause, ofNat_cause_inj (accessFaultCause_lt _) (accessFaultCause_lt _),
        accessFaultCause_inj, eq_comm]
      rfl
  | phys physAddr =>
      rw [cause, ownCause, ofNat_cause_inj (accessFaultCause_lt _) (accessFaultCause_lt _),
        accessFaultCause_inj]
      rfl

/-! ### The refused access of a call -/

/-- A call of `rv_core_run` from `s` executes an instruction of the kind `kind` whose
access of the kind `accessType` to the virtual address `addr` is refused. The fetch is
an access of every instruction; the two kinds differ in the load that an atomic
operation begins with. -/
inductive Faulted (busAccess : BusAccessFunc w σ) (s : RvCore w σ) :
    BusAccessType → BusAccessType → RvUintXlen w → Refusal w → Prop
  | fetch {r : Refusal w}
      (h : accessRefusal busAccess s.atFetch .instr s.pc w.bytes = .ok (some r)) :
      Faulted busAccess s .instr .instr s.pc r
  | load {cb : ExecutionCb} {d : RvCore w σ} {r : Refusal w} (hexec : Executes busAccess s cb d)
      (hk : cb.kind = .load)
      (h : accessRefusal busAccess d .read (effectiveAddress d) cb.accessLen = .ok (some r)) :
      Faulted busAccess s .read .read (effectiveAddress d) r
  | loadReserved {cb : ExecutionCb} {d : RvCore w σ} {r : Refusal w}
      (hexec : Executes busAccess s cb d) (hk : cb.kind = .loadReserved)
      (h : accessRefusal busAccess d.reserve .read (d.x d.rs1) cb.accessLen = .ok (some r)) :
      Faulted busAccess s .read .read (d.x d.rs1) r
  | store {cb : ExecutionCb} {d : RvCore w σ} {r : Refusal w} (hexec : Executes busAccess s cb d)
      (hk : cb.kind = .store)
      (h : accessRefusal busAccess d .write (effectiveAddress d) cb.accessLen = .ok (some r)) :
      Faulted busAccess s .write .write (effectiveAddress d) r
  | storeConditional {cb : ExecutionCb} {d : RvCore w σ} {r : Refusal w}
      (hexec : Executes busAccess s cb d) (hk : cb.kind = .storeConditional)
      (hreserved : d.reserved)
      (h : accessRefusal busAccess d .write (d.x d.rs1) cb.accessLen = .ok (some r)) :
      Faulted busAccess s .write .write (d.x d.rs1) r
  | amoLoad {cb : ExecutionCb} {d : RvCore w σ} {r : Refusal w} (hexec : Executes busAccess s cb d)
      (hk : cb.kind = .amo)
      (h : accessRefusal busAccess d .read (d.x d.rs1) cb.accessLen = .ok (some r)) :
      Faulted busAccess s .write .read (d.x d.rs1) r
  | amoStore {cb : ExecutionCb} {d m : RvCore w σ} {r : Refusal w}
      (hexec : Executes busAccess s cb d) (hk : cb.kind = .amo)
      (hload : cb.amoLoad busAccess d = .ok m) (hm : m.pendingTrap = none)
      (h : accessRefusal busAccess m .write (d.x d.rs1) cb.accessLen = .ok (some r)) :
      Faulted busAccess s .write .write (d.x d.rs1) r

section Recorded

variable {busAccess : BusAccessFunc w σ} {s s' : RvCore w σ}

theorem load_refused {len : Nat} {ext : BitVec (8 * len) → RvUintXlen w} {r : Refusal w}
    (hs : s.pendingTrap = none) (h : load busAccess len ext s = .ok s')
    (hr : accessRefusal busAccess s .read (effectiveAddress s) len = .ok (some r)) :
    s'.pendingTrap = some (r.trap .read (effectiveAddress s)) := by
  obtain ⟨ret, bytes, s₁, haccess, rfl⟩ := load_eq_ok.mp h
  obtain ⟨r', hr', htrap, -⟩ := mmuCheckedBusAccess_refusal hs haccess
  obtain rfl := Except.ok.inj (hr.symm.trans hr')
  split
  · exact htrap
  · exact htrap

theorem store_refused {len : Nat} {r : Refusal w} (hs : s.pendingTrap = none)
    (h : store busAccess len s = .ok s')
    (hr : accessRefusal busAccess s .write (effectiveAddress s) len = .ok (some r)) :
    s'.pendingTrap = some (r.trap .write (effectiveAddress s)) := by
  obtain ⟨ret, bytes, haccess⟩ := store_eq_ok.mp h
  obtain ⟨r', hr', htrap, -⟩ := mmuCheckedBusAccess_refusal hs haccess
  obtain rfl := Except.ok.inj (hr.symm.trans hr')
  exact htrap

/-- A call whose access is refused leaves the record of that access. -/
theorem Faulted.recorded {kind accessType : BusAccessType} {addr : RvUintXlen w} {r : Refusal w}
    (h : Faulted busAccess s kind accessType addr r) (hs : s.pendingTrap = none)
    (hrun : rvCoreRun busAccess s = .ok s') :
    s'.pendingTrap = some (r.trap accessType addr) := by
  cases h with
  | fetch hr =>
      rcases rvCoreRun_cases hrun with ⟨f, hfetch, rfl⟩ | ⟨cb, d, e, hexec, -, -⟩
      · obtain ⟨r', hr', htrap, -⟩ := rvCoreFetch_refusal (s := s.atFetch) hs hfetch
        obtain rfl := Except.ok.inj (hr.symm.trans hr')
        exact htrap
      · obtain ⟨f, hfetch, -⟩ := hexec
        obtain ⟨r', hr', -, herr⟩ := rvCoreFetch_refusal (s := s.atFetch) hs hfetch
        obtain rfl := Except.ok.inj (hr.symm.trans hr')
        cases herr (by simp)
  | load hexec hk hr =>
      obtain ⟨e, hhandler, rfl⟩ := hexec.handler_of_run hrun
      show e.pendingTrap = _
      obtain ⟨ext, hload⟩ := handler_load busAccess hk
      rw [hload] at hhandler
      exact load_refused (hexec.pendingTrap hs) hhandler hr
  | @loadReserved cb d r hexec hk hr =>
      obtain ⟨e, hhandler, rfl⟩ := hexec.handler_of_run hrun
      show e.pendingTrap = _
      obtain ⟨ext, hload⟩ := handler_loadReserved busAccess hk
      rw [hload, loadReserved_eq] at hhandler
      have hd := hexec.pendingTrap hs
      have hnone : d.reserve.pendingTrap = none := hd
      rw [← hexec.atomic_address (ExecutionCb.atomic_of_kind (.inl hk))] at hr ⊢
      exact load_refused (s := d.reserve) hnone hhandler hr
  | store hexec hk hr =>
      obtain ⟨e, hhandler, rfl⟩ := hexec.handler_of_run hrun
      show e.pendingTrap = _
      rw [handler_store busAccess hk] at hhandler
      exact store_refused (hexec.pendingTrap hs) hhandler hr
  | storeConditional hexec hk hreserved hr =>
      obtain ⟨e, hhandler, rfl⟩ := hexec.handler_of_run hrun
      show e.pendingTrap = _
      rw [handler_storeConditional busAccess hk] at hhandler
      obtain ⟨s₁, hstore, rfl⟩ := storeConditional_of_reserved hreserved hhandler
      show s₁.pendingTrap = _
      rw [← hexec.atomic_address (ExecutionCb.atomic_of_kind (.inr (.inl hk)))] at hr ⊢
      exact store_refused (hexec.pendingTrap hs) hstore hr
  | amoLoad hexec hk hr =>
      obtain ⟨e, hhandler, rfl⟩ := hexec.handler_of_run hrun
      show e.pendingTrap = _
      obtain ⟨op, hamo⟩ := handler_amo busAccess hk
      obtain ⟨ext, hload⟩ := amoLoad_eq busAccess hk
      rw [hamo, amo_eq_ok] at hhandler
      obtain ⟨m, hm, ret, bytes, haccess⟩ := hhandler
      rw [hload] at hm
      rw [← hexec.atomic_address (ExecutionCb.atomic_of_kind (.inr (.inr hk)))] at hr ⊢
      -- the store half is made all the same, and the first record stays
      exact mmuCheckedBusAccess_pendingTrap_of_some (load_refused (hexec.pendingTrap hs) hm hr)
        haccess
  | amoStore hexec hk hload hm hr =>
      obtain ⟨e, hhandler, rfl⟩ := hexec.handler_of_run hrun
      show e.pendingTrap = _
      obtain ⟨op, hamo⟩ := handler_amo busAccess hk
      rw [hamo, amo_eq_ok] at hhandler
      obtain ⟨m', hload', ret, bytes, haccess⟩ := hhandler
      obtain rfl := Except.ok.inj (hload.symm.trans hload')
      obtain ⟨r', hr', htrap, -⟩ := mmuCheckedBusAccess_refusal hm haccess
      obtain rfl := Except.ok.inj (hr.symm.trans hr')
      exact htrap

end Recorded

/-! ### The call -/

/-- A call leaves the trap that its instruction calls for just when its refused
access is of the kind of the instruction and the refused address is the virtual one. -/
theorem faultsReported_iff (busAccess : BusAccessFunc w σ) {s s' : RvCore w σ} (hs : s.Ready)
    (hrun : rvCoreRun busAccess s = .ok s') :
    (∀ kind accessType addr r, Faulted busAccess s kind accessType addr r →
        s'.pendingTrap = some (r.ownTrap kind addr)) ↔
      ∀ kind accessType addr r, Faulted busAccess s kind accessType addr r →
        r.Reported kind accessType addr := by
  refine forall_congr' fun kind => forall_congr' fun accessType => forall_congr' fun addr =>
    forall_congr' fun r => imp_congr_right fun hfault => ?_
  rw [hfault.recorded hs.pendingTrap hrun, Option.some.injEq]
  exact Refusal.trap_eq_ownTrap_iff

/-- Machine mode locks all memory against everything but execution and exchanges the
first word of its program. -/
def executeOnlySwapProgram : List (BitVec 32) :=
  [ 0xFFF00093, 0x3B009073, -- pmpaddr0 = all ones
    0x09C00113, 0x3A011073, -- pmpcfg0: locked NAPOT, execute
    0x000011B7, 0x0821A0AF ] -- amoswap.w x1, x2, (x3), with x3 = 0x1000

/-- The state before the exchange, which is refused at its load. -/
theorem exists_refused_swap :
    ∃ s s' d : RvCore .rv32 Unit, CoreReachable (romBus executeOnlySwapProgram) s ∧ s.Ready ∧
      rvCoreRun (romBus executeOnlySwapProgram) s = .ok s' ∧ s'.syncTrapCause = 5 ∧
      Executes (romBus executeOnlySwapProgram) s .amoswapW d ∧
      accessRefusal (romBus executeOnlySwapProgram) d .read (d.x d.rs1) 4 =
        .ok (some (.phys 0x1000)) := by
  have hcheck : (CoreCall.execAll (romBus executeOnlySwapProgram) (List.replicate 5 .run)
      (rvCoreInit () : RvCore .rv32 Unit)).toOption.any (fun s =>
        (!s.syncTrapPending && s.x 0 == 0) &&
        ((rvCoreRun (romBus executeOnlySwapProgram) s).toOption.any
          fun s' => s'.syncTrapCause == 5) &&
        executesAny (romBus executeOnlySwapProgram) s fun cb d => cb == .amoswapW &&
          (accessRefusal (romBus executeOnlySwapProgram) d .read (d.x d.rs1) 4).toOption.any
            fun r => r == some (.phys 0x1000)) = true := by
    decide +kernel
  obtain ⟨s, hcalls, hs⟩ := CoreCall.exists_of_execAll hcheck
  simp only [Bool.and_eq_true, Bool.not_eq_true', beq_iff_eq] at hs
  obtain ⟨⟨⟨hnone, hzero⟩, hrun⟩, hexec⟩ := hs
  obtain ⟨s', hrun, hcause⟩ := Except.exists_of_any_toOption hrun
  obtain ⟨cb, d, hexec, hd⟩ := exists_of_executesAny hexec
  rw [Bool.and_eq_true, beq_iff_eq] at hd
  obtain ⟨rfl, hrefused⟩ := hd
  obtain ⟨r, hrefused, hr⟩ := Except.exists_of_any_toOption hrefused
  rw [beq_iff_eq.mp hr] at hrefused
  exact ⟨s, s', d, ⟨_, ⟨(), rfl⟩, hcalls⟩, ⟨pendingTrap_eq_none.mpr hnone, hzero⟩, hrun,
    beq_iff_eq.mp hcause, hexec, hrefused⟩

/-- `executeOnlySwapProgram` with `lw x1, 0(x3)` in place of the exchange. -/
def executeOnlyLoadProgram : List (BitVec 32) :=
  [0xFFF00093, 0x3B009073, 0x09C00113, 0x3A011073, 0x000011B7, 0x0001A083]

theorem faultsReported_iff_load :
    ∃ s s' d : RvCore .rv32 Unit, CoreReachable (romBus executeOnlyLoadProgram) s ∧
      rvCoreRun (romBus executeOnlyLoadProgram) s = .ok s' ∧
      Executes (romBus executeOnlyLoadProgram) s .lw d ∧
      s'.pendingTrap = some ((Refusal.phys 0x1000).ownTrap .read (effectiveAddress d)) := by
  have hcheck : (CoreCall.execAll (romBus executeOnlyLoadProgram) (List.replicate 5 .run)
      (rvCoreInit () : RvCore .rv32 Unit)).toOption.any (fun s =>
        (!s.syncTrapPending && s.x 0 == 0) &&
        (accessRefusal (romBus executeOnlyLoadProgram) s.atFetch .instr s.pc 4).toOption.any
          (fun r => r == none) &&
        (rvCoreRun (romBus executeOnlyLoadProgram) s).toOption.any (fun _ => true) &&
        executesAny (romBus executeOnlyLoadProgram) s fun cb d =>
          cb == .lw && effectiveAddress d == 0x1000 &&
          (accessRefusal (romBus executeOnlyLoadProgram) d .read (effectiveAddress d)
            4).toOption.any fun r => r == some (.phys 0x1000)) = true := by
    decide +kernel
  obtain ⟨s, hcalls, hs⟩ := CoreCall.exists_of_execAll hcheck
  simp only [Bool.and_eq_true, Bool.not_eq_true', beq_iff_eq] at hs
  obtain ⟨⟨⟨⟨hnone, hzero⟩, hfetch⟩, hrun⟩, hexec⟩ := hs
  obtain ⟨r, hfetch, hr⟩ := Except.exists_of_any_toOption hfetch
  rw [beq_iff_eq.mp hr] at hfetch
  obtain ⟨s', hrun, -⟩ := Except.exists_of_any_toOption hrun
  obtain ⟨cb, d, hexec, hd⟩ := exists_of_executesAny hexec
  simp only [Bool.and_eq_true, beq_iff_eq] at hd
  obtain ⟨⟨rfl, haddr⟩, hrefused⟩ := hd
  obtain ⟨r, hrefused, hr⟩ := Except.exists_of_any_toOption hrefused
  rw [beq_iff_eq.mp hr] at hrefused
  have hready : s.Ready := ⟨pendingTrap_eq_none.mpr hnone, hzero⟩
  have hfault : Faulted (romBus executeOnlyLoadProgram) s .read .read (effectiveAddress d)
      (.phys 0x1000) := .load hexec rfl hrefused
  refine ⟨s, s', d, ⟨_, ⟨(), rfl⟩, hcalls⟩, hrun, hexec,
    (faultsReported_iff _ hready hrun).mpr ?_ _ _ _ _ hfault⟩
  intro kind accessType addr r h
  -- the load makes the only access that is refused
  cases h with
  | fetch h => cases hfetch.symm.trans h
  | load hexec' _ h =>
      obtain ⟨rfl, rfl⟩ := hexec.unique hexec'
      obtain rfl := Option.some.inj (Except.ok.inj (hrefused.symm.trans h))
      exact ⟨rfl, haddr.symm⟩
  | loadReserved hexec' hk | store hexec' hk | storeConditional hexec' hk | amoLoad hexec' hk
  | amoStore hexec' hk =>
      obtain ⟨rfl, -⟩ := hexec.unique hexec'
      cases hk

/-- The exchange reports the fault of a load. -/
theorem swap_reports_load_fault :
    ¬ ∀ (busAccess : BusAccessFunc .rv32 Unit) (s s' : RvCore .rv32 Unit),
      CoreReachable busAccess s → s.Ready → rvCoreRun busAccess s = .ok s' →
        ∀ kind accessType addr r, Faulted busAccess s kind accessType addr r →
          s'.pendingTrap = some (r.ownTrap kind addr) := by
  intro h
  obtain ⟨s, s', d, hreach, hready, hrun, hcause, hexec, hrefused⟩ := exists_refused_swap
  have htrap := h _ s s' hreach hready hrun _ _ _ _ (.amoLoad hexec rfl hrefused)
  have hown := (pendingTrap_eq_some.mp htrap).2.1
  rw [hcause] at hown
  revert hown
  decide

end RiscvEm
