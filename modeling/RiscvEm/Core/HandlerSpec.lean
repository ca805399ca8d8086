import RiscvEm.Core.AccessSpec
import RiscvEm.Core.Instr
import RiscvEm.Lib.BitField

/-!
What each kind of instruction can do to the core.

The handlers are sorted by the shape they are an instance of. One lemma for each
shape says what a successful handler leaves behind.
-/

namespace RiscvEm

variable {w : Xlen} {σ : Type}

/-! ### The shapes -/

inductive HandlerKind
  | compute
  | ecall
  | csrWrite
  | csrModify
  | xret (level : TrapLevel)
  | hang
  | load
  | store
  | loadReserved
  | storeConditional
  | amo
  deriving DecidableEq

def ExecutionCb.kind : ExecutionCb → HandlerKind
  | .ecall => .ecall
  | .csrrw | .csrrwi => .csrWrite
  | .csrrs | .csrrc | .csrrsi | .csrrci => .csrModify
  | .mret => .xret .m
  | .sret => .xret .s
  | .uret => .hang
  | .lb | .lh | .lw | .lbu | .lhu | .lwu | .ld => .load
  | .sb | .sh | .sw | .sd => .store
  | .lrW | .lrD => .loadReserved
  | .scW | .scD => .storeConditional
  | .amoswapW | .amoaddW | .amoxorW | .amoandW | .amoorW
  | .amominW | .amomaxW | .amominuW | .amomaxuW
  | .amoswapD | .amoaddD | .amoxorD | .amoandD | .amoorD
  | .amominD | .amomaxD | .amominuD | .amomaxuD => .amo
  | _ => .compute

def ExecutionCb.accessLen : ExecutionCb → Nat
  | .lb | .lbu | .sb => 1
  | .lh | .lhu | .sh => 2
  | .ld | .sd | .lrD | .scD
  | .amoswapD | .amoaddD | .amoxorD | .amoandD | .amoorD
  | .amominD | .amomaxD | .amominuD | .amomaxuD => 8
  | _ => 4

inductive ComputeShape : Handler w σ → Prop
  | setRd (value : RvCore w σ → RvUintXlen w) : ComputeShape (setRd value)
  | extendImmediate (value : RvCore w σ → RvUintXlen w) : ComputeShape (extendImmediate value)
  | branch (taken : RvUintXlen w → RvUintXlen w → Bool) : ComputeShape (branch taken)
  | nop : ComputeShape instrNop
  | jal : ComputeShape instrJal
  | jalr : ComputeShape instrJalr

section Shapes

variable (busAccess : BusAccessFunc w σ) {cb : ExecutionCb}

theorem handler_compute_shape (hcb : cb.kind = .compute) :
    ComputeShape (cb.handler busAccess) := by
  cases cb <;> first
    | (cases hcb; done)
    | rw [ExecutionCb.handler]
  all_goals first
    | exact .setRd _
    | exact .extendImmediate _
    | exact .branch _
    | exact .nop
    | exact .jal
    | exact .jalr

theorem handler_load (hcb : cb.kind = .load) :
    ∃ ext, cb.handler busAccess = load busAccess cb.accessLen ext := by
  cases cb <;> first
    | (cases hcb; done)
    | (rw [ExecutionCb.handler]; exact ⟨_, rfl⟩)

theorem handler_store (hcb : cb.kind = .store) :
    cb.handler busAccess = store busAccess cb.accessLen := by
  cases cb <;> first | (cases hcb; done) | rfl

theorem handler_loadReserved (hcb : cb.kind = .loadReserved) :
    ∃ ext, cb.handler busAccess = loadReserved (load busAccess cb.accessLen ext) := by
  cases cb <;> first
    | (cases hcb; done)
    | (rw [ExecutionCb.handler]; exact ⟨_, rfl⟩)

theorem handler_storeConditional (hcb : cb.kind = .storeConditional) :
    cb.handler busAccess = storeConditional (store busAccess cb.accessLen) := by
  cases cb <;> first | (cases hcb; done) | rfl

def ExecutionCb.amoLoad (cb : ExecutionCb) : Handler w σ :=
  if cb.accessLen = 8 then instrLd busAccess else instrLw busAccess

theorem amoW_eq (op : BitVec 32 → BitVec 32 → BitVec 32) :
    ∃ op', amoW busAccess op = amo busAccess 4 (instrLw busAccess) op' :=
  ⟨_, rfl⟩

theorem amoD_eq (op : RvUintXlen w → RvUintXlen w → RvUintXlen w) :
    ∃ op', amoD busAccess op = amo busAccess 8 (instrLd busAccess) op' :=
  ⟨_, rfl⟩

theorem handler_amo (hcb : cb.kind = .amo) :
    ∃ op, cb.handler busAccess = amo busAccess cb.accessLen (cb.amoLoad busAccess) op := by
  cases cb <;> first
    | (cases hcb; done)
    | simp only [ExecutionCb.handler, ExecutionCb.amoLoad, ExecutionCb.accessLen, instrAmoswapW,
        instrAmoaddW, instrAmoxorW, instrAmoandW, instrAmoorW, instrAmominW, instrAmomaxW,
        instrAmominuW, instrAmomaxuW, instrAmoswapD, instrAmoaddD, instrAmoxorD, instrAmoandD,
        instrAmoorD, instrAmominD, instrAmomaxD, instrAmominuD, instrAmomaxuD,
        Nat.reduceEqDiff, if_true, if_false]
  all_goals first
    | with_reducible exact amoW_eq busAccess _
    | with_reducible exact amoD_eq busAccess _

theorem amoLoad_eq (hcb : cb.kind = .amo) :
    ∃ ext, cb.amoLoad busAccess = load busAccess cb.accessLen ext := by
  have hlen : cb.accessLen = 8 ∨ cb.accessLen = 4 := by
    cases cb <;> first | (cases hcb; done) | (left; rfl) | (right; rfl)
  rcases hlen with hlen | hlen
  · rw [ExecutionCb.amoLoad, hlen, if_pos rfl]
    exact ⟨_, rfl⟩
  · rw [ExecutionCb.amoLoad, hlen, if_neg (by decide)]
    exact ⟨_, rfl⟩

theorem handler_ecall (hcb : cb.kind = .ecall) : cb.handler busAccess = instrEcall := by
  cases cb <;> first | (cases hcb; done) | rfl

def ExecutionCb.csrOperand (s : RvCore w σ) : ExecutionCb → RvUintXlen w
  | .csrrw | .csrrs | .csrrc => s.x s.rs1
  | _ => uimm s

def ExecutionCb.csrMerge (mask csrVal operand : RvUintXlen w) : ExecutionCb → RvUintXlen w
  | .csrrw | .csrrwi => (csrVal &&& ~~~mask) ||| (operand &&& mask)
  | .csrrs | .csrrsi => csrVal ||| (operand &&& mask)
  | _ => csrVal &&& ~~~(operand &&& mask)

theorem handler_csrWrite (hcb : cb.kind = .csrWrite) (s : RvCore w σ) :
    cb.handler busAccess s = csrrwx s (cb.csrOperand s) := by
  cases cb <;> first | (cases hcb; done) | rfl

def MaskedMerge (merge : RvUintXlen w → RvUintXlen w → RvUintXlen w) : Prop :=
  ∀ mask v value, BitField.AgreeOff mask v (merge v (value &&& mask))

theorem handler_csrModify (hcb : cb.kind = .csrModify) :
    ∃ merge, MaskedMerge merge ∧
      (∀ mask csrVal operand : RvUintXlen w, cb.csrMerge mask csrVal operand =
        merge csrVal (operand &&& mask)) ∧
      ∀ s, cb.handler busAccess s = csrrReadModifyWrite merge s (cb.csrOperand s) := by
  have hset : MaskedMerge (w := w) fun old new => old ||| new := BitField.agreeOff_set
  have hclear : MaskedMerge (w := w) fun old new => old &&& ~~~new := BitField.agreeOff_clear
  cases cb <;> first | (cases hcb; done) | skip
  case csrrs => exact ⟨_, hset, fun _ _ _ => rfl, fun _ => rfl⟩
  case csrrc => exact ⟨_, hclear, fun _ _ _ => rfl, fun _ => rfl⟩
  case csrrsi => exact ⟨_, hset, fun _ _ _ => rfl, fun _ => rfl⟩
  case csrrci => exact ⟨_, hclear, fun _ _ _ => rfl, fun _ => rfl⟩

theorem handler_xret {level : TrapLevel} (hcb : cb.kind = .xret level) :
    cb.handler busAccess = xret level := by
  cases cb <;> first | (cases hcb; done) | (cases hcb; rfl)

theorem handler_hang (hcb : cb.kind = .hang) (s : RvCore w σ) :
    cb.handler busAccess s = .error (.halt .hang) := by
  cases cb <;> first | (cases hcb; done) | rfl

end Shapes

/-! ### Computations -/

/-- `s'` differs from `s` at most in the integer registers, the jump target and
the fields that a handler extends in place. -/
def ComputeFrame (s s' : RvCore w σ) : Prop :=
  s' = { s with
    x := s'.x, nextPc := s'.nextPc, immediate := s'.immediate, jumpOffset := s'.jumpOffset }

theorem setRd_frame {value : RvCore w σ → RvUintXlen w} {s s' : RvCore w σ}
    (h : setRd value s = .ok s') : ComputeFrame s s' := by
  obtain rfl := Except.ok.inj h
  rfl

theorem extendImmediate_frame {value : RvCore w σ → RvUintXlen w} {s s' : RvCore w σ}
    (h : extendImmediate value s = .ok s') : ComputeFrame s s' := by
  obtain rfl := Except.ok.inj h
  rfl

theorem branch_frame {taken : RvUintXlen w → RvUintXlen w → Bool} {s s' : RvCore w σ}
    (h : branch taken s = .ok s') : ComputeFrame s s' := by
  rw [branch] at h
  split at h
  · split at h
    · cases h
    · obtain rfl := Except.ok.inj h
      rfl
  · obtain rfl := Except.ok.inj h
    rfl

theorem instrJal_frame {s s' : RvCore w σ} (h : instrJal s = .ok s') : ComputeFrame s s' := by
  simp only [instrJal] at h
  split at h
  · cases h
  · obtain rfl := Except.ok.inj h
    rfl

theorem instrJalr_frame {s s' : RvCore w σ} (h : instrJalr s = .ok s') : ComputeFrame s s' := by
  simp only [instrJalr] at h
  split at h
  · cases h
  · obtain rfl := Except.ok.inj h
    rfl

theorem instrNop_frame {s s' : RvCore w σ} (h : instrNop s = .ok s') : ComputeFrame s s' := by
  obtain rfl := Except.ok.inj h
  rfl

theorem ComputeShape.frame {handler : Handler w σ} (hshape : ComputeShape handler)
    {s s' : RvCore w σ} (h : handler s = .ok s') : ComputeFrame s s' := by
  cases hshape with
  | setRd => exact setRd_frame h
  | extendImmediate => exact extendImmediate_frame h
  | branch => exact branch_frame h
  | nop => exact instrNop_frame h
  | jal => exact instrJal_frame h
  | jalr => exact instrJalr_frame h

theorem handler_compute_frame (busAccess : BusAccessFunc w σ) {cb : ExecutionCb}
    (hcb : cb.kind = .compute) {s s' : RvCore w σ} (h : cb.handler busAccess s = .ok s') :
    ComputeFrame s s' :=
  (handler_compute_shape busAccess hcb).frame h

/-! ### Memory accesses -/

section Memory

variable {busAccess : BusAccessFunc w σ} {len : Nat} {s s' : RvCore w σ}

theorem load_eq_ok {ext : BitVec (8 * len) → RvUintXlen w} :
    load busAccess len ext s = .ok s' ↔ ∃ ret bytes s₁,
      mmuCheckedBusAccess busAccess s .read (effectiveAddress s) (leBytes len 0) len =
        .ok (ret, bytes, s₁) ∧
      s' = if ret = .ok then s₁.setX s₁.rd (ext (leLoad len bytes)) else s₁ := by
  simp only [load, Except.bind_eq_ok, liftM_eq_ok, Prod.exists]
  refine exists_congr fun ret => exists_congr fun bytes => exists_congr fun s₁ =>
    and_congr_right fun _ => ?_
  split
  · rw [Except.pure_eq_ok, Except.ok.injEq, eq_comm]
  · rw [Except.pure_eq_ok, Except.ok.injEq, eq_comm]

theorem store_eq_ok :
    store busAccess len s = .ok s' ↔ ∃ ret bytes,
      mmuCheckedBusAccess busAccess s .write (effectiveAddress s)
        (leBytes len (s.x s.rs2).toNat) len = .ok (ret, bytes, s') := by
  simp only [store, Except.bind_eq_ok, liftM_eq_ok, Prod.exists, Except.pure_eq_ok,
    Except.ok.injEq, exists_eq_right]

def RvCore.reserve (s : RvCore w σ) : RvCore w σ :=
  { s with lrAddress := s.x s.rs1, lrValid := true }

theorem loadReserved_eq (load : Handler w σ) : loadReserved load s = load s.reserve := rfl

def RvCore.reserved (s : RvCore w σ) : Prop := s.lrValid = true ∧ s.lrAddress = s.x s.rs1

theorem storeConditional_of_reserved {store : Handler w σ} (hs : s.reserved)
    (h : storeConditional store s = .ok s') :
    ∃ s₁, store s = .ok s₁ ∧ s' = { s₁.setX s₁.rd 0 with lrValid := false, lrAddress := 0 } := by
  have hcond : s.lrValid = true ∧ s.lrAddress = s.x s.rs1 := hs
  rw [storeConditional, if_pos hcond] at h
  obtain ⟨s₁, hstore, hs'⟩ := Except.bind_eq_ok.mp h
  exact ⟨s₁, hstore, (Except.ok.inj hs').symm⟩

theorem storeConditional_of_not_reserved {store : Handler w σ} (hs : ¬ s.reserved) :
    storeConditional store s = .ok { s.setX s.rd 1 with lrValid := false, lrAddress := 0 } := by
  have hcond : ¬ (s.lrValid = true ∧ s.lrAddress = s.x s.rs1) := hs
  simp only [storeConditional, hcond, if_false, Except.pure_eq_ok, Except.ok_bind]

theorem amo_eq_ok {load : Handler w σ} {op : RvUintXlen w → RvUintXlen w → Nat} :
    amo busAccess len load op s = .ok s' ↔ ∃ s₁, load s = .ok s₁ ∧ ∃ ret bytes,
      mmuCheckedBusAccess busAccess s₁ .write (s.x s.rs1)
        (leBytes len (op (s₁.x s₁.rd) (s.x s.rs2))) len = .ok (ret, bytes, s') := by
  simp only [amo, Except.bind_eq_ok, liftM_eq_ok, Prod.exists, Except.pure_eq_ok,
    Except.ok.injEq, exists_eq_right]

end Memory

/-! ### The frame of an unprivileged instruction -/

/-- `s'` differs from `s` at most in what an instruction that accesses memory or
raises a trap can change: it never jumps. -/
def MemoryFrame (s s' : RvCore w σ) : Prop :=
  s' = { s with
    x := s'.x, priv := s'.priv
    syncTrapPending := s'.syncTrapPending
    syncTrapCause := s'.syncTrapCause
    syncTrapTval := s'.syncTrapTval
    mmu := { s.mmu with lastVirtPc := s'.mmu.lastVirtPc, lastPhysPc := s'.mmu.lastPhysPc }
    lrValid := s'.lrValid, lrAddress := s'.lrAddress }

theorem MemoryFrame.trans {s s' s'' : RvCore w σ} (h : MemoryFrame s s')
    (h' : MemoryFrame s' s'') : MemoryFrame s s'' := by
  rw [MemoryFrame] at h h' ⊢
  rw [h', h]

theorem AccessFrame.memory {s s' : RvCore w σ} (h : AccessFrame s s') : MemoryFrame s s' := by
  rw [AccessFrame] at h
  rw [MemoryFrame, h]

theorem MemoryFrame.setX {s s' : RvCore w σ} (h : MemoryFrame s s') (r : RegIndex)
    (v : RvUintXlen w) : MemoryFrame s (s'.setX r v) := by
  rw [MemoryFrame] at h ⊢
  rw [h]
  rfl

theorem load_frame {busAccess : BusAccessFunc w σ} {len : Nat} {s s' : RvCore w σ}
    {ext : BitVec (8 * len) → RvUintXlen w} (h : load busAccess len ext s = .ok s') :
    MemoryFrame s s' := by
  obtain ⟨ret, bytes, s₁, haccess, rfl⟩ := load_eq_ok.mp h
  have hframe := (mmuCheckedBusAccess_frame haccess).memory
  split
  · exact hframe.setX _ _
  · exact hframe

theorem store_frame {busAccess : BusAccessFunc w σ} {len : Nat} {s s' : RvCore w σ}
    (h : store busAccess len s = .ok s') : MemoryFrame s s' := by
  obtain ⟨ret, bytes, haccess⟩ := store_eq_ok.mp h
  exact (mmuCheckedBusAccess_frame haccess).memory

theorem storeConditional_frame {store : Handler w σ} {s s' : RvCore w σ}
    (hstore : ∀ {s₁}, store s = .ok s₁ → MemoryFrame s s₁)
    (h : storeConditional store s = .ok s') : MemoryFrame s s' := by
  by_cases hs : s.reserved
  · obtain ⟨s₁, hs₁, rfl⟩ := storeConditional_of_reserved hs h
    exact ((hstore hs₁).setX s₁.rd 0).trans rfl
  · rw [storeConditional_of_not_reserved hs] at h
    obtain rfl := Except.ok.inj h
    rfl

theorem amo_frame {busAccess : BusAccessFunc w σ} {len : Nat} {load : Handler w σ}
    {op : RvUintXlen w → RvUintXlen w → Nat} {s s' : RvCore w σ}
    (hload : ∀ {s₁}, load s = .ok s₁ → MemoryFrame s s₁)
    (h : amo busAccess len load op s = .ok s') : MemoryFrame s s' := by
  obtain ⟨s₁, hs₁, ret, bytes, haccess⟩ := amo_eq_ok.mp h
  exact (hload hs₁).trans (mmuCheckedBusAccess_frame haccess).memory

def HandlerKind.system : HandlerKind → Bool
  | .csrWrite | .csrModify | .xret _ => true
  | _ => false

def HandlerKind.memory : HandlerKind → Bool
  | .load | .store | .loadReserved | .storeConditional | .amo => true
  | _ => false

theorem handler_memory_frame {busAccess : BusAccessFunc w σ} {cb : ExecutionCb}
    (hcompute : cb.kind ≠ .compute) (hcb : cb.kind.system = false) {s s' : RvCore w σ}
    (h : cb.handler busAccess s = .ok s') : MemoryFrame s s' := by
  cases hk : cb.kind with
  | compute => exact absurd hk hcompute
  | ecall =>
      rw [handler_ecall busAccess hk] at h
      obtain rfl := Except.ok.inj h
      exact (prepareSyncTrap_frame s _ _).memory
  | csrWrite => simp [hk, HandlerKind.system] at hcb
  | csrModify => simp [hk, HandlerKind.system] at hcb
  | xret level => simp [hk, HandlerKind.system] at hcb
  | hang =>
      rw [handler_hang busAccess hk] at h
      cases h
  | load =>
      obtain ⟨ext, hload⟩ := handler_load busAccess hk
      rw [hload] at h
      exact load_frame h
  | store =>
      rw [handler_store busAccess hk] at h
      exact store_frame h
  | loadReserved =>
      obtain ⟨ext, hload⟩ := handler_loadReserved busAccess hk
      rw [hload, loadReserved_eq] at h
      refine MemoryFrame.trans ?_ (load_frame h)
      exact rfl
  | storeConditional =>
      rw [handler_storeConditional busAccess hk] at h
      exact storeConditional_frame store_frame h
  | amo =>
      obtain ⟨op, hamo⟩ := handler_amo busAccess hk
      obtain ⟨ext, hload⟩ := amoLoad_eq busAccess hk
      rw [hamo, hload] at h
      exact amo_frame load_frame h

def UserFrame (s s' : RvCore w σ) : Prop :=
  s' = { s with
    x := s'.x, nextPc := s'.nextPc, immediate := s'.immediate, jumpOffset := s'.jumpOffset
    priv := s'.priv
    syncTrapPending := s'.syncTrapPending
    syncTrapCause := s'.syncTrapCause
    syncTrapTval := s'.syncTrapTval
    mmu := { s.mmu with lastVirtPc := s'.mmu.lastVirtPc, lastPhysPc := s'.mmu.lastPhysPc }
    lrValid := s'.lrValid, lrAddress := s'.lrAddress }

theorem ComputeFrame.user {s s' : RvCore w σ} (h : ComputeFrame s s') : UserFrame s s' := by
  rw [ComputeFrame] at h
  rw [UserFrame, h]

theorem MemoryFrame.user {s s' : RvCore w σ} (h : MemoryFrame s s') : UserFrame s s' := by
  rw [MemoryFrame] at h
  rw [UserFrame, h]

/-- Every instruction but the system instructions stays within the frame of an
unprivileged instruction. -/
theorem handler_user_frame {busAccess : BusAccessFunc w σ} {cb : ExecutionCb}
    (hcb : cb.kind.system = false) {s s' : RvCore w σ} (h : cb.handler busAccess s = .ok s') :
    UserFrame s s' := by
  by_cases hcompute : cb.kind = .compute
  · exact (handler_compute_frame busAccess hcompute h).user
  · exact (handler_memory_frame hcompute hcb h).user

end RiscvEm
