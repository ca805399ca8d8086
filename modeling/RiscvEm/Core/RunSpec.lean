import RiscvEm.Core.CsrSpec
import RiscvEm.Core.DecodeSpec
import RiscvEm.Core.Refusal
import RiscvEm.Core.Run

/-!
What one call of `rv_core_run` can do: the fetch is refused, or one decoded
instruction is executed on a state that differs from the first in scratch fields
and in what the fetch left on the bus.
-/

namespace RiscvEm

variable {w : Xlen} {σ : Type}

/-! ### Fetch and decode -/

def SetupFrame (s s' : RvCore w σ) : Prop :=
  s' = { s with
    nextPc := s'.nextPc, instruction := s'.instruction
    opcode := s'.opcode, rd := s'.rd, rs1 := s'.rs1, rs2 := s'.rs2
    func3 := s'.func3, func7 := s'.func7, func6 := s'.func6, func5 := s'.func5
    immediate := s'.immediate, jumpOffset := s'.jumpOffset, executeCb := s'.executeCb
    priv := s'.priv
    syncTrapPending := s'.syncTrapPending
    syncTrapCause := s'.syncTrapCause
    syncTrapTval := s'.syncTrapTval
    mmu := { s.mmu with lastVirtPc := s'.mmu.lastVirtPc, lastPhysPc := s'.mmu.lastPhysPc } }

theorem SetupFrame.trans {s s' s'' : RvCore w σ} (h : SetupFrame s s') (h' : SetupFrame s' s'') :
    SetupFrame s s'' := by
  rw [SetupFrame] at h h' ⊢
  rw [h', h]

theorem AccessFrame.setup {s s' : RvCore w σ} (h : AccessFrame s s') : SetupFrame s s' := by
  rw [AccessFrame] at h
  rw [SetupFrame, h]

theorem DecodeFrame.setup {s s' : RvCore w σ} (h : DecodeFrame s s') : SetupFrame s s' := by
  rw [DecodeFrame] at h
  rw [SetupFrame, h]

theorem storeInstruction_frame (s : RvCore w σ) (bytes : List Byte) :
    SetupFrame s (storeInstruction s bytes) := by
  cases w <;> rfl

theorem storeInstruction_nextPc (s : RvCore w σ) (bytes : List Byte) :
    (storeInstruction s bytes).nextPc = s.nextPc := by
  cases w <;> rfl

theorem storeInstruction_pendingTrap (s : RvCore w σ) (bytes : List Byte) :
    (storeInstruction s bytes).pendingTrap = s.pendingTrap := by
  cases w <;> rfl

theorem storeInstruction_syncTrapPending (s : RvCore w σ) (bytes : List Byte) :
    (storeInstruction s bytes).syncTrapPending = s.syncTrapPending := by
  cases w <;> rfl

theorem storeInstruction_priv (s : RvCore w σ) (bytes : List Byte) :
    (storeInstruction s bytes).priv = s.priv := by
  cases w <;> rfl

theorem rvCoreFetch_eq_ok {busAccess : BusAccessFunc w σ} {s s' : RvCore w σ} {ret : RvRet} :
    rvCoreFetch busAccess s = .ok (ret, s') ↔ ∃ bytes s₁,
      mmuCheckedBusAccess busAccess s .instr s.pc (instructionBytes s) w.bytes =
        .ok (ret, bytes, s₁) ∧ s' = storeInstruction s₁ bytes := by
  simp only [rvCoreFetch, Except.bind_eq_ok, liftM_eq_ok, Prod.exists, Except.pure_eq_ok,
    Except.ok.injEq, Prod.mk.injEq]
  constructor
  · rintro ⟨_, bytes, s₁, h, rfl, rfl⟩
    exact ⟨bytes, s₁, h, rfl⟩
  · rintro ⟨bytes, s₁, h, rfl⟩
    exact ⟨ret, bytes, s₁, h, rfl, rfl⟩

theorem rvCoreFetch_frame {busAccess : BusAccessFunc w σ} {s s' : RvCore w σ} {ret : RvRet}
    (h : rvCoreFetch busAccess s = .ok (ret, s')) : SetupFrame s s' := by
  obtain ⟨bytes, s₁, haccess, rfl⟩ := rvCoreFetch_eq_ok.mp h
  exact (mmuCheckedBusAccess_frame haccess).setup.trans (storeInstruction_frame s₁ bytes)

theorem rvCoreFetch_nextPc {busAccess : BusAccessFunc w σ} {s s' : RvCore w σ} {ret : RvRet}
    (h : rvCoreFetch busAccess s = .ok (ret, s')) : s'.nextPc = s.nextPc := by
  obtain ⟨bytes, s₁, haccess, rfl⟩ := rvCoreFetch_eq_ok.mp h
  rw [storeInstruction_nextPc, mmuCheckedBusAccess_frame haccess]

/-- A fetch that is refused, and no other, records a trap. -/
theorem rvCoreFetch_refusal {busAccess : BusAccessFunc w σ} {s s' : RvCore w σ} {ret : RvRet}
    (hs : s.pendingTrap = none) (h : rvCoreFetch busAccess s = .ok (ret, s')) :
    ∃ r, accessRefusal busAccess s .instr s.pc w.bytes = .ok r ∧
      s'.pendingTrap = r.map (Refusal.trap .instr s.pc) ∧ (r ≠ none → ret = .err) := by
  obtain ⟨bytes, s₁, haccess, rfl⟩ := rvCoreFetch_eq_ok.mp h
  obtain ⟨r, hr, htrap, herr⟩ := mmuCheckedBusAccess_refusal hs haccess
  exact ⟨r, hr, (storeInstruction_pendingTrap s₁ bytes).trans htrap, fun hne => (herr hne).1⟩

/-! ### The instruction that is executed -/

def RvCore.atFetch (s : RvCore w σ) : RvCore w σ := { s with nextPc := 0 }

theorem rvCoreRun_of_refused {busAccess : BusAccessFunc w σ} {s f : RvCore w σ}
    (hfetch : rvCoreFetch busAccess s.atFetch = .ok (.err, f)) :
    rvCoreRun busAccess s = .ok (advance f) := by
  have hfetch' : rvCoreFetch busAccess { s with nextPc := 0 } = .ok (.err, f) := hfetch
  rw [rvCoreRun, hfetch']
  rfl

/-- The fetch from `s` succeeds and decodes to `cb`; the handler runs on `d`. -/
def Executes (busAccess : BusAccessFunc w σ) (s : RvCore w σ) (cb : ExecutionCb)
    (d : RvCore w σ) : Prop :=
  ∃ f, rvCoreFetch busAccess s.atFetch = .ok (.ok, f) ∧ rvCoreDecode f = .ok d ∧
    d.executeCb = some cb

/-- One call either has its fetch refused or executes an instruction. -/
theorem rvCoreRun_cases {busAccess : BusAccessFunc w σ} {s s' : RvCore w σ}
    (h : rvCoreRun busAccess s = .ok s') :
    (∃ f, rvCoreFetch busAccess s.atFetch = .ok (.err, f) ∧ s' = advance f) ∨
      ∃ cb d e, Executes busAccess s cb d ∧ cb.handler busAccess d = .ok e ∧
        s' = advance (e.setX 0 0) := by
  simp only [rvCoreRun, Except.bind_eq_ok] at h
  obtain ⟨⟨ret, f⟩, hfetch, h⟩ := h
  cases ret with
  | err => exact .inl ⟨f, hfetch, (Except.ok.inj h).symm⟩
  | ok =>
      simp only [if_true, Except.bind_eq_ok] at h
      obtain ⟨d, hdecode, e, hexec, h⟩ := h
      obtain ⟨cb, hcb⟩ := rvCoreDecode_callback hdecode
      simp only [rvCoreExecute, hcb, Except.bind_eq_ok] at hexec
      obtain ⟨e', hhandler, hexec⟩ := hexec
      obtain rfl := Except.ok.inj hexec
      exact .inr ⟨cb, d, e', ⟨f, hfetch, hdecode, hcb⟩, hhandler, (Except.ok.inj h).symm⟩

theorem Executes.run {busAccess : BusAccessFunc w σ} {s d e : RvCore w σ} {cb : ExecutionCb}
    (h : Executes busAccess s cb d) (hhandler : cb.handler busAccess d = .ok e) :
    rvCoreRun busAccess s = .ok (advance (e.setX 0 0)) := by
  obtain ⟨f, hfetch, hdecode, hcb⟩ := h
  have hfetch' : rvCoreFetch busAccess { s with nextPc := 0 } = .ok (.ok, f) := hfetch
  simp only [rvCoreRun, hfetch', Except.ok_bind, if_true, hdecode, rvCoreExecute, hcb, hhandler,
    Except.pure_eq_ok]

theorem Executes.frame {busAccess : BusAccessFunc w σ} {s d : RvCore w σ} {cb : ExecutionCb}
    (h : Executes busAccess s cb d) : SetupFrame s d := by
  obtain ⟨f, hfetch, hdecode, -⟩ := h
  refine SetupFrame.trans ?_ (rvCoreDecode_frame hdecode).setup
  refine SetupFrame.trans ?_ (rvCoreFetch_frame hfetch)
  exact rfl

theorem Executes.nextPc {busAccess : BusAccessFunc w σ} {s d : RvCore w σ} {cb : ExecutionCb}
    (h : Executes busAccess s cb d) : d.nextPc = 0 := by
  obtain ⟨f, hfetch, hdecode, -⟩ := h
  rw [rvCoreDecode_frame hdecode]
  exact rvCoreFetch_nextPc hfetch

theorem Executes.pendingTrap {busAccess : BusAccessFunc w σ} {s d : RvCore w σ}
    {cb : ExecutionCb} (hs : s.pendingTrap = none) (h : Executes busAccess s cb d) :
    d.pendingTrap = none := by
  obtain ⟨f, hfetch, hdecode, -⟩ := h
  obtain ⟨r, -, htrap, herr⟩ := rvCoreFetch_refusal (s := s.atFetch) hs hfetch
  have hr : r = none := by
    by_contra hne
    cases herr hne
  rw [rvCoreDecode_frame hdecode]
  rw [hr] at htrap
  exact htrap

theorem Executes.unique {busAccess : BusAccessFunc w σ} {s d d' : RvCore w σ}
    {cb cb' : ExecutionCb} (h : Executes busAccess s cb d) (h' : Executes busAccess s cb' d') :
    cb' = cb ∧ d' = d := by
  obtain ⟨f, hfetch, hdecode, hcb⟩ := h
  obtain ⟨f', hfetch', hdecode', hcb'⟩ := h'
  obtain ⟨-, rfl⟩ := Prod.mk.inj (Except.ok.inj (hfetch.symm.trans hfetch'))
  obtain rfl := Except.ok.inj (hdecode.symm.trans hdecode')
  exact ⟨Option.some.inj (hcb'.symm.trans hcb), rfl⟩

/-- A call that returns after an instruction was executed returns what its handler
left. -/
theorem Executes.handler_of_run {busAccess : BusAccessFunc w σ} {s s' d : RvCore w σ}
    {cb : ExecutionCb} (h : Executes busAccess s cb d) (hrun : rvCoreRun busAccess s = .ok s') :
    ∃ e, cb.handler busAccess d = .ok e ∧ s' = advance (e.setX 0 0) := by
  rcases rvCoreRun_cases hrun with ⟨f, hfetch, -⟩ | ⟨cb', d', e, hexec, hhandler, rfl⟩
  · obtain ⟨f', hfetch', -⟩ := h
    cases hfetch.symm.trans hfetch'
  · obtain ⟨rfl, rfl⟩ := hexec.unique h
    exact ⟨e, hhandler, rfl⟩

/-- The kinds of the instructions that reuse the load and store handlers. -/
theorem ExecutionCb.atomic_of_kind {cb : ExecutionCb}
    (hk : cb.kind = .loadReserved ∨ cb.kind = .storeConditional ∨ cb.kind = .amo) :
    cb.atomic = true := by
  cases cb <;> first | rfl | (rcases hk with hk | hk | hk <;> cases hk)

theorem Executes.atomic_address {busAccess : BusAccessFunc w σ} {s d : RvCore w σ}
    {cb : ExecutionCb} (h : Executes busAccess s cb d) (hcb : cb.atomic = true) :
    effectiveAddress d = d.x d.rs1 := by
  obtain ⟨f, -, hdecode, hexec⟩ := h
  have himm := rvCoreDecode_atomic_immediate hdecode hexec hcb
  have hzero : signedImmediate d = 0 := by
    rw [signedImmediate, himm]
    cases w <;> rfl
  rw [effectiveAddress, hzero, BitVec.ofNat_eq_ofNat, BitVec.add_zero]

/-- The decoder of the narrow build knows no atomic operation on a double word. -/
theorem Executes.amo_width {busAccess : BusAccessFunc w σ} {s d : RvCore w σ} {cb : ExecutionCb}
    (h : Executes busAccess s cb d) (hcb : cb.kind = .amo) (hlen : cb.accessLen = 8) :
    w = .rv64 := by
  cases w with
  | rv64 => rfl
  | rv32 =>
      have hall : ((InstructionList.rvOpcode.callbacks .rv32).all fun cb =>
          cb.kind != .amo || cb.accessLen == 4) = true := by rfl
      obtain ⟨f, -, hdecode, hexec⟩ := h
      rw [rvCoreDecode] at hdecode
      obtain ⟨cb', hmem, hexec'⟩ := rvCallFromOpcodeList_callback hdecode
      obtain rfl := Option.some.inj (hexec.symm.trans hexec')
      have hword := List.all_eq_true.mp hall cb hmem
      rw [hcb, hlen] at hword
      cases hword

end RiscvEm
