import RiscvEm.Core.Undefined
import RiscvEm.Lib.Logged

/-!
The indices into the table of the control and status registers, against its length.

The functions of `csr.c` and the instructions that call them are given once more, each with
the index logged that it uses for the fields of an entry. Without the log they are the
functions of the source.
-/

namespace RiscvEm

open Logged

variable {w : Xlen} {σ : Type}

/-! ### Lookups -/

def csrEntryLookup (s : RvCore w σ) (address : Nat) : Logged Nat Stop (CsrReg w) := do
  emit address
  quiet (csrEntry s address)

/-- `csr_get_mask`, which has no bound of its own. -/
def csrGetMaskLookups (s : RvCore w σ) (address : Nat) : Logged Nat Stop (RvUintXlen w) := do
  let entry ← csrEntryLookup s address
  return entry.mask

def csrReadRegLookups (s : RvCore w σ) (currPrivMode : PrivilegeLevel) (address : Nat) :
    Logged Nat Stop (Option (RvUintXlen w)) :=
  if csrAddrMax < address then return none
  else do
    let entry ← csrEntryLookup s address
    if csrAccessReadGranted currPrivMode entry.accessFlags then
      let tmpOutVal := match entry.callback with
        | some cb => csrReadCb s cb
        | none => entry.value
      return some (tmpOutVal ||| entry.warlAlwaysEnabled)
    else return none

def csrWriteRegLookups (s : RvCore w σ) (currPrivMode : PrivilegeLevel) (address : Nat)
    (val : RvUintXlen w) : Logged Nat Stop (RvRet × RvCore w σ) :=
  if csrAddrMax < address then return (.err, s)
  else do
    let entry ← csrEntryLookup s address
    if csrAccessWriteGranted currPrivMode entry.accessFlags then
      match entry.callback with
      | some cb => return csrWriteCb s currPrivMode val cb
      | none =>
          return (.ok, { s with csrRegs := setCsrValue s.csrRegs address (val &&& entry.mask) })
    else return (.err, s)

def csrrwxLookups (s : RvCore w σ) (newVal : RvUintXlen w) : Logged Nat Stop (RvCore w σ) := do
  let csrMask ← csrGetMaskLookups s s.csrAddr
  let oldVal := if s.rd ≠ 0 then csrReadRegLookups s s.currPrivMode s.csrAddr
    else quiet (.ok (some 0#w.bits))
  match ← oldVal with
  | none => return illegalInstr s
  | some csrVal =>
      let notAllowedBits := csrVal &&& ~~~csrMask
      let newCsrVal := notAllowedBits ||| (newVal &&& csrMask)
      match ← csrWriteRegLookups s s.currPrivMode s.csrAddr newCsrVal with
      | (.err, s) => return illegalInstr s
      | (.ok, s) => return s.setX s.rd (csrVal &&& csrMask)

/-- The shape `CSRRSx` and `CSRRCx` share. -/
def csrrReadModifyWriteLookups (merge : RvUintXlen w → RvUintXlen w → RvUintXlen w)
    (s : RvCore w σ) (newVal : RvUintXlen w) : Logged Nat Stop (RvCore w σ) := do
  let csrMask ← csrGetMaskLookups s s.csrAddr
  match ← csrReadRegLookups s s.currPrivMode s.csrAddr with
  | none => return illegalInstr s
  | some csrVal =>
      let newCsrVal := newVal &&& csrMask
      let written := if s.rs1 ≠ 0 then
          csrWriteRegLookups s s.currPrivMode s.csrAddr (merge csrVal newCsrVal)
        else quiet (.ok (.ok, s))
      match ← written with
      | (.err, s) => return illegalInstr s
      | (.ok, s) => return s.setX s.rd (csrVal &&& csrMask)

/-- The handlers: only the CSR instructions look into the table. -/
def ExecutionCb.lookups (busAccess : BusAccessFunc w σ) (cb : ExecutionCb) (s : RvCore w σ) :
    Logged Nat Stop (RvCore w σ) :=
  match cb with
  | .csrrw => csrrwxLookups s (s.x s.rs1)
  | .csrrs =>
      csrrReadModifyWriteLookups (fun csrVal newCsrVal => csrVal ||| newCsrVal) s (s.x s.rs1)
  | .csrrc =>
      csrrReadModifyWriteLookups (fun csrVal newCsrVal => csrVal &&& ~~~newCsrVal) s (s.x s.rs1)
  | .csrrwi => csrrwxLookups s (uimm s)
  | .csrrsi =>
      csrrReadModifyWriteLookups (fun csrVal newCsrVal => csrVal ||| newCsrVal) s (uimm s)
  | .csrrci =>
      csrrReadModifyWriteLookups (fun csrVal newCsrVal => csrVal &&& ~~~newCsrVal) s (uimm s)
  | cb => quiet (cb.handler busAccess s)

def rvCoreExecuteLookups (busAccess : BusAccessFunc w σ) (s : RvCore w σ) :
    Logged Nat Stop (RvCore w σ) :=
  match s.executeCb with
  | none => quiet (.error (.halt .nullCallback))
  | some cb => do
      let s ← cb.lookups busAccess s
      return s.setX 0 0

def rvCoreRunLookups (busAccess : BusAccessFunc w σ) (s : RvCore w σ) :
    Logged Nat Stop (RvCore w σ) := do
  let (ret, s) ← quiet (rvCoreFetch busAccess { s with nextPc := 0 })
  let s ← if ret = .ok then do
      let s ← quiet (rvCoreDecode s)
      rvCoreExecuteLookups busAccess s
    else pure s
  return advance s

/-! ### Without the log -/

section Results

variable {s : RvCore w σ} {currPrivMode : PrivilegeLevel} {address : Nat}

@[simp] theorem result_csrGetMaskLookups :
    (csrGetMaskLookups s address).result = csrGetMask s address := by
  rw [csrGetMaskLookups, csrGetMask, result_bind]
  rfl

@[simp] theorem result_csrReadRegLookups :
    (csrReadRegLookups s currPrivMode address).result = csrReadReg s currPrivMode address := by
  rw [csrReadRegLookups, csrReadReg]
  split
  · rfl
  · rw [result_bind]
    refine bind_congr fun entry => ?_
    split
    · rfl
    · rfl

@[simp] theorem result_csrWriteRegLookups {val : RvUintXlen w} :
    (csrWriteRegLookups s currPrivMode address val).result =
      csrWriteReg s currPrivMode address val := by
  rw [csrWriteRegLookups, csrWriteReg]
  split
  · rfl
  · rw [result_bind]
    refine bind_congr fun entry => ?_
    split
    · cases entry.callback <;> rfl
    · rfl

@[simp] theorem result_csrrwxLookups {newVal : RvUintXlen w} :
    (csrrwxLookups s newVal).result = csrrwx s newVal := by
  rw [csrrwxLookups, csrrwx, result_bind, result_csrGetMaskLookups]
  refine bind_congr fun csrMask => ?_
  rw [result_bind, result_ite, result_csrReadRegLookups, result_quiet]
  refine bind_congr fun oldVal => ?_
  cases oldVal with
  | none => rfl
  | some csrVal =>
      show (csrWriteRegLookups _ _ _ _ >>= _).result = _
      rw [result_bind, result_csrWriteRegLookups]
      refine bind_congr fun written => ?_
      obtain ⟨ret, s₁⟩ := written
      cases ret <;> rfl

@[simp] theorem result_csrrReadModifyWriteLookups
    {merge : RvUintXlen w → RvUintXlen w → RvUintXlen w} {newVal : RvUintXlen w} :
    (csrrReadModifyWriteLookups merge s newVal).result = csrrReadModifyWrite merge s newVal := by
  rw [csrrReadModifyWriteLookups, csrrReadModifyWrite, result_bind, result_csrGetMaskLookups]
  refine bind_congr fun csrMask => ?_
  rw [result_bind, result_csrReadRegLookups]
  refine bind_congr fun oldVal => ?_
  cases oldVal with
  | none => rfl
  | some csrVal =>
      show ((if _ then csrWriteRegLookups _ _ _ _ else _) >>= _).result = _
      rw [result_bind, result_ite, result_csrWriteRegLookups, result_quiet]
      refine bind_congr fun written => ?_
      obtain ⟨ret, s₁⟩ := written
      cases ret <;> rfl

end Results

theorem result_lookups (busAccess : BusAccessFunc w σ) (cb : ExecutionCb) (s : RvCore w σ) :
    (cb.lookups busAccess s).result = cb.handler busAccess s := by
  cases cb
  case csrrw => rw [ExecutionCb.lookups, result_csrrwxLookups, ExecutionCb.handler, instrCsrrw]
  case csrrwi => rw [ExecutionCb.lookups, result_csrrwxLookups, ExecutionCb.handler, instrCsrrwi]
  case csrrs =>
    rw [ExecutionCb.lookups, result_csrrReadModifyWriteLookups, ExecutionCb.handler, instrCsrrs,
      csrrsx]
  case csrrsi =>
    rw [ExecutionCb.lookups, result_csrrReadModifyWriteLookups, ExecutionCb.handler, instrCsrrsi,
      csrrsx]
  case csrrc =>
    rw [ExecutionCb.lookups, result_csrrReadModifyWriteLookups, ExecutionCb.handler, instrCsrrc,
      csrrcx]
  case csrrci =>
    rw [ExecutionCb.lookups, result_csrrReadModifyWriteLookups, ExecutionCb.handler, instrCsrrci,
      csrrcx]
  all_goals rfl

theorem result_rvCoreExecuteLookups (busAccess : BusAccessFunc w σ) (s : RvCore w σ) :
    (rvCoreExecuteLookups busAccess s).result = rvCoreExecute busAccess s := by
  rw [rvCoreExecuteLookups, rvCoreExecute]
  cases s.executeCb with
  | none => rfl
  | some cb =>
      rw [result_bind, result_lookups]
      rfl

theorem result_rvCoreRunLookups (busAccess : BusAccessFunc w σ) (s : RvCore w σ) :
    (rvCoreRunLookups busAccess s).result = rvCoreRun busAccess s := by
  rw [rvCoreRunLookups, rvCoreRun, result_bind, result_quiet]
  refine bind_congr fun fetched => ?_
  obtain ⟨ret, f⟩ := fetched
  cases ret with
  | err => rfl
  | ok =>
      show Logged.result (quiet (rvCoreDecode f) >>= fun d =>
        rvCoreExecuteLookups busAccess d >>= fun s => pure (advance s)) = _
      rw [result_bind, result_quiet]
      refine bind_congr fun d => ?_
      rw [result_bind, result_rvCoreExecuteLookups]
      rfl

/-! ### The indices -/

section Indices

variable {s : RvCore w σ} {currPrivMode : PrivilegeLevel} {address index : Nat}

@[simp] theorem log_csrEntryLookup : (csrEntryLookup s address).log = [address] := rfl

@[simp] theorem log_csrGetMaskLookups : (csrGetMaskLookups s address).log = [address] :=
  log_bind_of_nil fun _ => rfl

theorem eq_of_mem_csrReadRegLookups
    (h : index ∈ (csrReadRegLookups s currPrivMode address).log) : index = address := by
  rw [csrReadRegLookups] at h
  split at h
  · cases h
  · rw [log_bind_of_nil, log_csrEntryLookup, List.mem_singleton] at h
    · exact h
    · intro entry
      split
      · rfl
      · rfl

theorem eq_of_mem_csrWriteRegLookups {val : RvUintXlen w}
    (h : index ∈ (csrWriteRegLookups s currPrivMode address val).log) : index = address := by
  rw [csrWriteRegLookups] at h
  split at h
  · cases h
  · rw [log_bind_of_nil, log_csrEntryLookup, List.mem_singleton] at h
    · exact h
    · intro entry
      split
      · cases entry.callback <;> rfl
      · rfl

theorem mem_csrrwxLookups {newVal : RvUintXlen w} :
    index ∈ (csrrwxLookups s newVal).log ↔ index = s.csrAddr := by
  rw [csrrwxLookups, mem_log_bind, log_csrGetMaskLookups, List.mem_singleton]
  refine or_iff_left_of_imp ?_
  rintro ⟨csrMask, -, h⟩
  rw [mem_log_bind] at h
  rcases h with hread | ⟨oldVal, -, h⟩
  · split at hread
    · exact eq_of_mem_csrReadRegLookups hread
    · cases hread
  · cases oldVal with
    | none => cases h
    | some csrVal =>
        rcases mem_log_bind.mp h with hwrite | ⟨⟨ret, s₁⟩, -, h⟩
        · exact eq_of_mem_csrWriteRegLookups hwrite
        · cases ret <;> cases h

theorem mem_csrrReadModifyWriteLookups {merge : RvUintXlen w → RvUintXlen w → RvUintXlen w}
    {newVal : RvUintXlen w} :
    index ∈ (csrrReadModifyWriteLookups merge s newVal).log ↔ index = s.csrAddr := by
  rw [csrrReadModifyWriteLookups, mem_log_bind, log_csrGetMaskLookups, List.mem_singleton]
  refine or_iff_left_of_imp ?_
  rintro ⟨csrMask, -, h⟩
  rw [mem_log_bind] at h
  rcases h with hread | ⟨oldVal, -, h⟩
  · exact eq_of_mem_csrReadRegLookups hread
  · cases oldVal with
    | none => cases h
    | some csrVal =>
        rcases mem_log_bind.mp h with hwrite | ⟨⟨ret, s₁⟩, -, h⟩
        · split at hwrite
          · exact eq_of_mem_csrWriteRegLookups hwrite
          · cases hwrite
        · cases ret <;> cases h

/-- Only the CSR instructions look into the table, all of them at the address in
`immediate`. -/
theorem mem_lookups {busAccess : BusAccessFunc w σ} {cb : ExecutionCb} :
    index ∈ (cb.lookups busAccess s).log ↔ cb.csr = true ∧ index = s.csrAddr := by
  cases cb
  case csrrw | csrrwi =>
    rw [ExecutionCb.lookups, mem_csrrwxLookups]
    exact (and_iff_right rfl).symm
  case csrrs | csrrsi | csrrc | csrrci =>
    rw [ExecutionCb.lookups, mem_csrrReadModifyWriteLookups]
    exact (and_iff_right rfl).symm
  all_goals
    refine iff_of_false (List.not_mem_nil) ?_
    rintro ⟨hcsr, -⟩
    cases hcsr

theorem mem_rvCoreExecuteLookups {busAccess : BusAccessFunc w σ} :
    index ∈ (rvCoreExecuteLookups busAccess s).log ↔
      ∃ cb, s.executeCb = some cb ∧ cb.csr = true ∧ index = s.csrAddr := by
  rw [rvCoreExecuteLookups]
  cases hcb : s.executeCb with
  | none =>
      refine iff_of_false List.not_mem_nil ?_
      rintro ⟨cb, hnone, -⟩
      cases hnone
  | some cb =>
      rw [log_bind_of_nil fun _ => rfl, mem_lookups]
      constructor
      · exact fun h => ⟨cb, rfl, h⟩
      · rintro ⟨cb', hsome, h⟩
        obtain rfl := Option.some.inj hsome
        exact h

/-- One call looks into the table for the CSR instruction that it executes. -/
theorem mem_rvCoreRunLookups {busAccess : BusAccessFunc w σ} :
    index ∈ (rvCoreRunLookups busAccess s).log ↔
      ∃ cb d, Executes busAccess s cb d ∧ cb.csr = true ∧ index = d.csrAddr := by
  rw [rvCoreRunLookups, mem_log_bind, log_quiet, result_quiet]
  constructor
  · rintro (hnil | ⟨⟨ret, f⟩, hfetch, h⟩)
    · cases hnil
    · cases ret with
      | err => cases h
      | ok =>
          rcases mem_log_bind.mp h with hnil | ⟨d, hdecode, h⟩
          · cases hnil
          · rw [log_bind_of_nil fun _ => rfl] at h
            obtain ⟨cb, hcb, hcsr, haddr⟩ := mem_rvCoreExecuteLookups.mp h
            exact ⟨cb, d, ⟨f, hfetch, hdecode, hcb⟩, hcsr, haddr⟩
  · rintro ⟨cb, d, ⟨f, hfetch, hdecode, hcb⟩, hcsr, haddr⟩
    refine .inr ⟨(.ok, f), hfetch, ?_⟩
    refine mem_log_bind.mpr (.inr ⟨d, hdecode, ?_⟩)
    rw [log_bind_of_nil fun _ => rfl]
    exact mem_rvCoreExecuteLookups.mpr ⟨cb, hcb, hcsr, haddr⟩

end Indices

/-! ### The addresses of the instructions -/

/-- A decoded CSR instruction has the highest twelve bits of the word for its address. -/
theorem csrAddr_of_decode {s d : RvCore w σ} {cb : ExecutionCb} (hdecode : rvCoreDecode s = .ok d)
    (hcb : d.executeCb = some cb) (hcsr : cb.csr = true) :
    d.csrAddr = (s.instruction.extractLsb' 20 12).toNat := by
  have hsearch : searchWord w s.instruction = some cb :=
    (searchWord_of_decode hdecode).trans hcb
  obtain ⟨d', hook, hdecode', -, hlookup, hkept⟩ := rvCoreDecode_of_search hsearch
  obtain rfl := Except.ok.inj (hdecode.symm.trans hdecode')
  obtain ⟨hook', hlookup', hopcode, -⟩ := InstructionList.search_checked
    (p := fun opcode _ => opcode == 0x73) rvOpcode_hooks_csr hcsr hsearch
  rw [beq_iff_eq] at hopcode
  rw [hopcode, rvOpcode_lookup_system] at hlookup
  obtain rfl := Option.some.inj hlookup
  obtain ⟨-, -, -, himm, -⟩ := hkept
  have hfield : d.immediate = (extract s.instruction 20 12).setWidth w.bits := himm
  have hlt : s.instruction.toNat / 2 ^ 20 % 2 ^ 12 < 2 ^ 12 := Nat.mod_lt _ (by decide)
  have hbits : 2 ^ 32 ≤ 2 ^ w.bits := w.two_pow_le
  have hwidth : s.instruction.toNat / 2 ^ 20 % 2 ^ 12 % 2 ^ w.bits =
      s.instruction.toNat / 2 ^ 20 % 2 ^ 12 := Nat.mod_eq_of_lt (by omega)
  rw [RvCore.csrAddr, BitVec.toNat_setWidth, hfield, BitVec.toNat_setWidth,
    toNat_extract _ _ (by decide), toNat_extractLsb', hwidth]
  exact Nat.mod_eq_of_lt (by omega)

theorem Executes.csrAddr {busAccess : BusAccessFunc w σ} {s d : RvCore w σ} {cb : ExecutionCb}
    (h : Executes busAccess s cb d) (hcsr : cb.csr = true) :
    d.csrAddr = (d.instruction.extractLsb' 20 12).toNat := by
  obtain ⟨f, -, hdecode, hcb⟩ := h
  rw [csrAddr_of_decode hdecode hcb hcsr, rvCoreDecode_frame hdecode]

/-- In any state, all indices into the table that a call uses are below its length if and only
if the CSR instruction that it executes, if it executes one, does not name the last
address. -/
theorem csr_lookups_inRange_iff (busAccess : BusAccessFunc w σ) (s : RvCore w σ) :
    (∀ index ∈ (rvCoreRunLookups busAccess s).log, index < csrAddrMax) ↔
      ∀ cb d, Executes busAccess s cb d → cb.csr = true →
        d.instruction.extractLsb' 20 12 ≠ 0xFFF := by
  constructor
  · intro hall cb d hexec hcsr hlast
    have hlt := hall _ (mem_rvCoreRunLookups.mpr ⟨cb, d, hexec, hcsr, rfl⟩)
    rw [hexec.csrAddr hcsr, hlast] at hlt
    exact absurd hlt (by decide)
  · intro hall index hmem
    obtain ⟨cb, d, hexec, hcsr, rfl⟩ := mem_rvCoreRunLookups.mp hmem
    have hne := hall cb d hexec hcsr
    have hlt := (d.instruction.extractLsb' 20 12).isLt
    have hfield : (d.instruction.extractLsb' 20 12).toNat ≠ 0xFFF := fun h =>
      hne (BitVec.eq_of_toNat_eq h)
    rw [hexec.csrAddr hcsr, csrAddrMax]
    omega

/-- The first instruction reads the register at the last address. -/
theorem csr_lookup_past_end :
    ¬ ∀ (busAccess : BusAccessFunc .rv32 Unit) (s : RvCore .rv32 Unit),
      LoopReachable busAccess s →
      ∀ index ∈ (rvCoreRunLookups busAccess s).log, index < csrAddrMax := by
  intro hall
  have hcheck : executesAny (romBus [0xFFF02073]) (rvCoreInit () : RvCore .rv32 Unit)
      (fun cb d => cb.csr && d.csrAddr == 0xFFF) = true := by decide +kernel
  obtain ⟨cb, d, hexec, htest⟩ := exists_of_executesAny hcheck
  rw [Bool.and_eq_true, beq_iff_eq] at htest
  have hlt := hall (romBus [0xFFF02073]) (rvCoreInit ()) (.of_init ⟨(), rfl⟩) _
    (mem_rvCoreRunLookups.mpr ⟨cb, d, hexec, htest.1, rfl⟩)
  rw [htest.2] at hlt
  exact absurd hlt (by decide)

end RiscvEm
