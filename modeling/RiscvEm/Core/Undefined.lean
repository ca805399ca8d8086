import RiscvEm.Core.FaultCauses
import RiscvEm.Core.Precise
import RiscvEm.Core.RoundTrip

/-!
Words that encode no instruction. The decoder knows two ends for them: the message for
unknown instructions, and the handler of an instruction that ignores the field in which
the word is wrong. Neither records an illegal-instruction trap, which only the CSR
instructions do.
-/

namespace RiscvEm

variable {w : Xlen} {σ : Type}

/-! ### The words of the CSR instructions -/

theorem iLayout_fields (word : BitVec 32) :
    iLayout (word.extractLsb' 20 12) (word.extractLsb' 15 5) (word.extractLsb' 12 3)
      (word.extractLsb' 7 5) (word.extractLsb' 0 7) = word := by
  have hword := word.isLt
  apply BitVec.eq_of_toNat_eq
  rw [iLayout, toNat_layout]
  simp only [toNat_extractLsb']
  omega

/-- The search through one list: the entry that it finds has the callback or leads on. -/
theorem InstructionList.search_cases {n opcode : Nat} {list : InstructionList (n + 1)}
    {codes : SubCodes} {cb : ExecutionCb} (h : list.search w codes opcode = some cb) :
    ∃ hook, (list.hooks w).lookup opcode = some hook ∧
      ((hook.next = none ∧ hook.executionCb = some cb) ∨
        ∃ prep next subcode, hook.preparationCb = some prep ∧ hook.next = some next ∧
          prep.subcode codes = some subcode ∧ next.search w codes subcode = some cb) := by
  rw [InstructionList.search] at h
  obtain ⟨hook, hlookup, hfound⟩ := Option.bind_eq_some_iff.mp h
  refine ⟨hook, hlookup, ?_⟩
  cases hnext : hook.next with
  | none =>
      rw [hnext] at hfound
      exact .inl ⟨rfl, hfound⟩
  | some next =>
      simp only [hnext, Option.bind_eq_some_iff] at hfound
      obtain ⟨subcode, ⟨prep, hprep, hsubcode⟩, hsearch⟩ := hfound
      exact .inr ⟨prep, next, subcode, hprep, rfl, hsubcode, hsearch⟩

theorem InstructionList.search_mem {n opcode : Nat} {list : InstructionList n}
    {codes : SubCodes} {cb : ExecutionCb} (h : list.search w codes opcode = some cb) :
    cb ∈ list.callbacks w := by
  induction n generalizing opcode with
  | zero => nomatch list
  | succ n ih =>
      obtain ⟨hook, hlookup, hcases⟩ := InstructionList.search_cases h
      refine List.mem_flatMap.mpr ⟨_, InstructionList.mem_of_lookup hlookup, ?_⟩
      rcases hcases with ⟨-, hcb⟩ | ⟨prep, next, subcode, -, hnext, -, hsearch⟩
      · exact List.mem_append_left _ (by rw [hcb]; exact List.mem_singleton_self cb)
      · exact List.mem_append_right _ (by rw [hnext]; exact ih hsearch)

/-- A check of all entries holds of the entry through which a callback is found. -/
theorem InstructionList.search_checked {n opcode : Nat} {list : InstructionList (n + 1)}
    {codes : SubCodes} {cb : ExecutionCb} {p : Nat → InstructionHook n → Bool}
    {q : ExecutionCb → Bool}
    (hall : (list.hooks w).all (fun entry =>
      p entry.1 entry.2 || (entry.2.callbacks w).all fun cb => !q cb) = true)
    (hq : q cb = true) (h : list.search w codes opcode = some cb) :
    ∃ hook, (list.hooks w).lookup opcode = some hook ∧ p opcode hook = true ∧
      ((hook.next = none ∧ hook.executionCb = some cb) ∨
        ∃ prep next subcode, hook.preparationCb = some prep ∧ hook.next = some next ∧
          prep.subcode codes = some subcode ∧ next.search w codes subcode = some cb) := by
  obtain ⟨hook, hlookup, hcases⟩ := InstructionList.search_cases h
  refine ⟨hook, hlookup, ?_, hcases⟩
  have hmem : cb ∈ hook.callbacks w := by
    rcases hcases with ⟨-, hcb⟩ | ⟨prep, next, subcode, -, hnext, -, hsearch⟩
    · exact List.mem_append_left _ (by rw [hcb]; exact List.mem_singleton_self cb)
    · exact List.mem_append_right _ (by rw [hnext]; exact InstructionList.search_mem hsearch)
  have hentry := List.all_eq_true.mp hall _ (InstructionList.mem_of_lookup hlookup)
  rw [Bool.or_eq_true] at hentry
  refine hentry.resolve_right fun hnot => ?_
  have hcb := List.all_eq_true.mp hnot cb hmem
  rw [hq] at hcb
  cases hcb

def ExecutionCb.csr (cb : ExecutionCb) : Bool := cb.kind == .csrWrite || cb.kind == .csrModify

theorem rvOpcode_hooks_csr :
    (InstructionList.rvOpcode.hooks w).all (fun entry =>
      entry.1 == 0x73 || (entry.2.callbacks w).all fun cb => !cb.csr) = true := by
  cases w <;> rfl

theorem csrrwFunc3_hooks_csr :
    (InstructionList.csrrwFunc3.hooks w).all (fun entry =>
      (entry.2.next.isNone && entry.2.executionCb.any fun cb =>
        decide ((cb, BitVec.ofNat 3 entry.1) ∈ csrCodes)) ||
        (entry.2.callbacks w).all fun cb => !cb.csr) = true := by
  cases w <;> rfl

theorem rvOpcode_lookup_system :
    (InstructionList.rvOpcode.hooks w).lookup 0x73 = some (nextHook .iType .csrrwFunc3) := by
  cases w <;> rfl

theorem defined_of_csr {word : BitVec 32} {cb : ExecutionCb} (hcb : cb.csr = true)
    (h : searchWord w word = some cb) : Defined w word := by
  obtain ⟨hook, hlookup, hopcode, hcases⟩ :=
    InstructionList.search_checked (p := fun opcode _ => opcode == 0x73) rvOpcode_hooks_csr hcb h
  rw [beq_iff_eq] at hopcode
  rw [hopcode, rvOpcode_lookup_system] at hlookup
  obtain rfl := Option.some.inj hlookup
  rcases hcases with ⟨hnone, -⟩ | ⟨prep, next, subcode, hprep, hnext, hsubcode, hsearch⟩
  · cases hnone
  · -- the list of the system opcode, searched with `func3`
    obtain rfl := Option.some.inj hprep
    obtain rfl := Option.some.inj hnext
    obtain rfl := Option.some.inj hsubcode
    obtain ⟨hook, -, hcode, hcases⟩ := InstructionList.search_checked
      (p := fun func3 hook => hook.next.isNone && hook.executionCb.any fun cb =>
        decide ((cb, BitVec.ofNat 3 func3) ∈ csrCodes)) csrrwFunc3_hooks_csr hcb hsearch
    rw [Bool.and_eq_true, Option.isNone_iff_eq_none] at hcode
    obtain ⟨hnone, hcode⟩ := hcode
    have hexec : hook.executionCb = some cb := by
      rcases hcases with ⟨-, hexec⟩ | ⟨prep, next, subcode, -, hnext, -, -⟩
      · exact hexec
      · rw [hnone] at hnext
        cases hnext
    rw [hexec, Option.any_some, decide_eq_true_eq] at hcode
    have hfunc3 : BitVec.ofNat 3 (subCodes word).func3 = word.extractLsb' 12 3 := by
      apply BitVec.eq_of_toNat_eq
      rw [subCodes, toNat_extract _ _ (by decide), toNat_extractLsb', BitVec.toNat_ofNat,
        Nat.mod_mod]
    have hlow : word.extractLsb' 0 7 = 0x73 := by
      rw [BitField.toNat_and_ones (k := 7) _ rfl] at hopcode
      apply BitVec.eq_of_toNat_eq
      rw [toNat_extractLsb', Nat.pow_zero, Nat.div_one, hopcode]
      rfl
    rw [hfunc3] at hcode
    have hword := iLayout_fields word
    rw [hlow] at hword
    exact ⟨cb, _, hword ▸ Encodes.csr hcode _ _ _⟩

/-! ### The recorded causes -/

def RvCore.NotIllegal (s : RvCore w σ) : Prop :=
  ∀ tval, s.pendingTrap ≠ some (BitVec.ofNat w.bits trapCauseIllegalInstr, tval)

theorem RvCore.NotIllegal.prepareSyncTrap {s : RvCore w σ} {cause : RvUintXlen w}
    (hs : s.NotIllegal) (hcause : cause ≠ BitVec.ofNat w.bits trapCauseIllegalInstr)
    (tval : RvUintXlen w) : (prepareSyncTrap s cause tval).NotIllegal := by
  intro t h
  rw [pendingTrap_prepareSyncTrap] at h
  cases hpending : s.pendingTrap with
  | none =>
      rw [hpending] at h
      exact hcause (Prod.mk.inj (Option.some.inj h)).1
  | some trap =>
      rw [hpending] at h
      exact hs t (hpending.trans h)

theorem accessFaultCause_range (t : BusAccessType) :
    accessFaultCause t < 16 ∧ accessFaultCause t ≠ trapCauseIllegalInstr := by
  cases t <;> decide

theorem pageFaultCause_range (t : BusAccessType) :
    pageFaultCause t < 16 ∧ pageFaultCause t ≠ trapCauseIllegalInstr := by
  cases t <;> decide

theorem Refusal.cause_ne_illegal (accessType : BusAccessType) (r : Refusal w) :
    BitVec.ofNat w.bits (r.cause accessType) ≠ BitVec.ofNat w.bits trapCauseIllegalInstr := by
  have hrange : r.cause accessType < 16 ∧ r.cause accessType ≠ trapCauseIllegalInstr := by
    cases r with
    | pte pteAddr => exact accessFaultCause_range .read
    | page => exact pageFaultCause_range accessType
    | phys physAddr => exact accessFaultCause_range accessType
  rw [Ne, ofNat_cause_inj hrange.1 (by decide)]
  exact hrange.2

theorem mmuCheckedBusAccess_notIllegal {busAccess : BusAccessFunc w σ} {s s' : RvCore w σ}
    {accessType : BusAccessType} {addr : RvUintXlen w} {value value' : List Byte} {len : Nat}
    {ret : RvRet} (hs : s.NotIllegal)
    (h : mmuCheckedBusAccess busAccess s accessType addr value len = .ok (ret, value', s')) :
    s'.NotIllegal := by
  intro tval htrap
  cases hpending : s.pendingTrap with
  | none =>
      obtain ⟨r, -, hrecorded, -⟩ := mmuCheckedBusAccess_refusal hpending h
      rw [hrecorded, Option.map_eq_some_iff] at htrap
      obtain ⟨r', -, hr'⟩ := htrap
      exact r'.cause_ne_illegal accessType (Prod.mk.inj hr').1
  | some trap =>
      rw [mmuCheckedBusAccess_pendingTrap_of_some hpending h] at htrap
      exact hs tval (hpending.trans htrap)

section Handlers

variable {busAccess : BusAccessFunc w σ} {s s' : RvCore w σ} {len : Nat}

theorem load_notIllegal {ext : BitVec (8 * len) → RvUintXlen w} (hs : s.NotIllegal)
    (h : load busAccess len ext s = .ok s') : s'.NotIllegal := by
  obtain ⟨ret, bytes, s₁, haccess, rfl⟩ := load_eq_ok.mp h
  have hs₁ := mmuCheckedBusAccess_notIllegal hs haccess
  split
  · exact hs₁
  · exact hs₁

theorem store_notIllegal (hs : s.NotIllegal) (h : store busAccess len s = .ok s') :
    s'.NotIllegal := by
  obtain ⟨ret, bytes, haccess⟩ := store_eq_ok.mp h
  exact mmuCheckedBusAccess_notIllegal hs haccess

theorem ecall_cause_ne_illegal (mode : PrivilegeLevel) :
    BitVec.ofInt w.bits (trapCauseUserEcall + mode.toInt) ≠
      BitVec.ofNat w.bits trapCauseIllegalInstr := by
  cases w <;> cases mode <;> decide

theorem handler_notIllegal {cb : ExecutionCb} (hcb : cb.csr = false) (hs : s.NotIllegal)
    (h : cb.handler busAccess s = .ok s') : s'.NotIllegal := by
  cases hk : cb.kind with
  | compute =>
      rw [handler_compute_frame busAccess hk h]
      exact hs
  | ecall =>
      rw [handler_ecall busAccess hk] at h
      obtain rfl := Except.ok.inj h
      exact hs.prepareSyncTrap (ecall_cause_ne_illegal _) _
  | csrWrite => simp [ExecutionCb.csr, hk] at hcb
  | csrModify => simp [ExecutionCb.csr, hk] at hcb
  | xret level =>
      rw [handler_xret busAccess hk] at h
      rw [(xret_eq_ok h).2]
      exact hs
  | hang =>
      rw [handler_hang busAccess hk] at h
      cases h
  | load =>
      obtain ⟨ext, hload⟩ := handler_load busAccess hk
      rw [hload] at h
      exact load_notIllegal hs h
  | store =>
      rw [handler_store busAccess hk] at h
      exact store_notIllegal hs h
  | loadReserved =>
      obtain ⟨ext, hload⟩ := handler_loadReserved busAccess hk
      rw [hload, loadReserved_eq] at h
      exact load_notIllegal (s := s.reserve) hs h
  | storeConditional =>
      rw [handler_storeConditional busAccess hk] at h
      by_cases hreserved : s.reserved
      · obtain ⟨s₁, hstore, rfl⟩ := storeConditional_of_reserved hreserved h
        have hs₁ : s₁.NotIllegal := store_notIllegal hs hstore
        exact hs₁
      · rw [storeConditional_of_not_reserved hreserved] at h
        obtain rfl := Except.ok.inj h
        exact hs
  | amo =>
      obtain ⟨op, hamo⟩ := handler_amo busAccess hk
      obtain ⟨ext, hload⟩ := amoLoad_eq busAccess hk
      rw [hamo, hload, amo_eq_ok] at h
      obtain ⟨s₁, hs₁, ret, bytes, haccess⟩ := h
      -- the store is made even after the load was refused
      exact mmuCheckedBusAccess_notIllegal (load_notIllegal hs hs₁) haccess

end Handlers

/-! ### Undefined words -/

/-- The call returns with an illegal-instruction trap pending and has changed no
register, no memory and not the mode. -/
def TrapsAsIllegal (busAccess : BusAccessFunc w σ) (s : RvCore w σ) : Prop :=
  ∃ s' tval, rvCoreRun busAccess s = .ok s' ∧
    s'.pendingTrap = some (BitVec.ofNat w.bits trapCauseIllegalInstr, tval) ∧ ArchKept s s'

/-- A word that encodes no instruction is never trapped: it stops the emulator, or it is
executed as the instruction that the tables lead to. -/
theorem undefined_not_trapped {busAccess : BusAccessFunc w σ} {s f : RvCore w σ}
    (hfetch : rvCoreFetch busAccess s.atFetch = .ok (.ok, f))
    (hundef : ¬ Defined w f.instruction) :
    (rvCoreRun busAccess s = .error (unknownInstruction f) ∨
        ∃ cb d, Executes busAccess s cb d) ∧
      (s.pendingTrap = none → ¬ TrapsAsIllegal busAccess s) := by
  cases hsearch : searchWord w f.instruction with
  | none =>
      have hrun : rvCoreRun busAccess s = .error (unknownInstruction f) := by
        have hfetch' : rvCoreFetch busAccess { s with nextPc := 0 } = .ok (.ok, f) := hfetch
        simp only [rvCoreRun, hfetch', Except.ok_bind, if_true, rvCoreDecode_of_search_none hsearch,
          Except.error_bind]
      refine ⟨.inl hrun, ?_⟩
      rintro - ⟨s', tval, hreturns, -⟩
      rw [hrun] at hreturns
      cases hreturns
  | some cb =>
      obtain ⟨d, _, hdecode, hcb, -, -⟩ := rvCoreDecode_of_search hsearch
      have hexec : Executes busAccess s cb d := ⟨f, hfetch, hdecode, hcb⟩
      refine ⟨.inr ⟨cb, d, hexec⟩, ?_⟩
      rintro hs ⟨s', tval, hrun, htrap, -⟩
      -- only a CSR instruction records the cause, and its words are defined
      have hcsr : cb.csr = false := by
        by_contra h
        exact hundef (defined_of_csr (Bool.not_eq_false _ ▸ h) hsearch)
      obtain ⟨e, hhandler, rfl⟩ := hexec.handler_of_run hrun
      have hd : d.NotIllegal := by
        intro tval h
        rw [hexec.pendingTrap hs] at h
        cases h
      exact handler_notIllegal hcsr hd hhandler tval htrap

theorem Encodes.low_bits {cb : ExecutionCb} {o : Operands} {word : BitVec 32}
    (h : Encodes w cb o word) : word.toNat % 4 = 3 := by
  have hlayout {opcode : BitVec 7} (func7 : BitVec 7) (rs2 rs1 : BitVec 5) (func3 : BitVec 3)
      (rd : BitVec 5) (hlow : (opcode.toNat % 4 == 3) = true) :
      (layout func7 rs2 rs1 func3 rd opcode).toNat % 4 = 3 := by
    rw [beq_iff_eq] at hlow
    rw [toNat_layout]
    omega
  cases h with
  | rType hcode rd rs1 rs2 =>
      have htable : (rTypeCodes w).all (fun c => c.2.1.toNat % 4 == 3) = true := by
        cases w <;> rfl
      exact hlayout _ _ _ _ _ (List.all_eq_true.mp htable _ hcode)
  | iType hcode rd rs1 imm =>
      have htable : (iTypeCodes w).all (fun c => c.2.1.toNat % 4 == 3) = true := by
        cases w <;> rfl
      exact hlayout _ _ _ _ _ (List.all_eq_true.mp htable _ hcode)
  | shift5 hcode rd rs1 shamt =>
      have htable : (shift5Codes w).all (fun c => c.2.1.toNat % 4 == 3) = true := by
        cases w <;> rfl
      exact hlayout _ _ _ _ _ (List.all_eq_true.mp htable _ hcode)
  | uType hcode rd imm =>
      have htable : uTypeCodes.all (fun c => c.2.toNat % 4 == 3) = true := rfl
      exact hlayout _ _ _ _ _ (List.all_eq_true.mp htable _ hcode)
  | _ => exact hlayout _ _ _ _ _ rfl

/-- The initial state of a core that finds the word zero where it starts. -/
theorem zero_word_fetched :
    ∃ f : RvCore .rv32 Unit, rvCoreFetch (romBus [0]) (rvCoreInit () : RvCore .rv32 Unit).atFetch =
      .ok (.ok, f) ∧ ¬ Defined .rv32 f.instruction := by
  have hcheck : (rvCoreFetch (romBus [0]) (rvCoreInit () : RvCore .rv32 Unit).atFetch).toOption.any
      (fun f => f.1 == .ok && f.2.instruction == 0) = true := by
    decide
  obtain ⟨⟨ret, f⟩, hfetch, hf⟩ := Except.exists_of_any_toOption hcheck
  rw [Bool.and_eq_true, beq_iff_eq, beq_iff_eq] at hf
  obtain ⟨rfl, hzero⟩ := hf
  refine ⟨f, hfetch, ?_⟩
  rintro ⟨cb, o, h⟩
  have hlow := h.low_bits
  rw [hzero] at hlow
  cases hlow

theorem undefined_not_trapped_zero :
    ∃ s f : RvCore .rv32 Unit, ¬ Defined .rv32 f.instruction ∧
      (rvCoreRun (romBus [0]) s = .error (unknownInstruction f) ∨
          ∃ cb d, Executes (romBus [0]) s cb d) ∧
        ¬ TrapsAsIllegal (romBus [0]) s := by
  obtain ⟨f, hfetch, hundef⟩ := zero_word_fetched
  obtain ⟨hend, htrap⟩ := undefined_not_trapped hfetch hundef
  exact ⟨rvCoreInit (), f, hundef, hend, htrap rfl⟩

/-- The word zero stops the emulator. -/
theorem zero_word_stops :
    ¬ ∀ (busAccess : BusAccessFunc .rv32 Unit) (s f : RvCore .rv32 Unit),
      s.pendingTrap = none → rvCoreFetch busAccess s.atFetch = .ok (.ok, f) →
        ¬ Defined .rv32 f.instruction → TrapsAsIllegal busAccess s := by
  intro h
  obtain ⟨f, hfetch, hundef⟩ := zero_word_fetched
  obtain ⟨s', tval, hrun, -⟩ := h (romBus [0]) (rvCoreInit ()) f rfl hfetch hundef
  have hstop : (rvCoreRun (romBus [0]) (rvCoreInit () : RvCore .rv32 Unit)).toOption.isNone =
      true := by
    decide
  rw [hrun] at hstop
  cases hstop

end RiscvEm
