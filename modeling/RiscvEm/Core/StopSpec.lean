import RiscvEm.Core.Reach

/-!
Which routines can look up the trap registers of a mode that has none. An
instruction does so only as a return, and only for the mode it is executed in.
-/

namespace RiscvEm

variable {w : Xlen} {σ α β : Type}

def NotNull (x : Except Stop α) : Prop := x ≠ .error .nullPrivRegs

theorem notNull_ok (a : α) : NotNull (.ok a) := by
  intro h
  cases h

theorem notNull_halt (h : Halt) : NotNull (.error (.halt h) : Except Stop α) := by
  intro heq
  cases heq

theorem notNull_liftM (x : Except Halt α) : NotNull (liftM x : Except Stop α) := by
  cases x with
  | ok a => exact notNull_ok a
  | error h => exact notNull_halt h

theorem NotNull.bind_of_ok {x : Except Stop α} {f : α → Except Stop β} (hx : NotNull x)
    (hf : ∀ a, x = .ok a → NotNull (f a)) : NotNull (x >>= f) := by
  intro h
  rcases Except.bind_eq_error.mp h with hx' | ⟨a, hxa, hfa⟩
  · exact hx hx'
  · exact hf a hxa hfa

theorem NotNull.bind {x : Except Stop α} {f : α → Except Stop β} (hx : NotNull x)
    (hf : ∀ a, NotNull (f a)) : NotNull (x >>= f) :=
  hx.bind_of_ok fun a _ => hf a

theorem NotNull.ite {c : Prop} [Decidable c] {x y : Except Stop α} (hx : NotNull x)
    (hy : NotNull y) : NotNull (if c then x else y) := by
  split
  · exact hx
  · exact hy

/-! ### CSR instructions -/

theorem csrEntry_notNull (s : RvCore w σ) (address : Nat) : NotNull (csrEntry s address) :=
  (notNull_ok _).ite (notNull_halt _)

theorem csrGetMask_notNull (s : RvCore w σ) (address : Nat) : NotNull (csrGetMask s address) :=
  (csrEntry_notNull s address).bind fun _ => notNull_ok _

theorem csrReadReg_notNull (s : RvCore w σ) (privLevel : PrivilegeLevel) (address : Nat) :
    NotNull (csrReadReg s privLevel address) := by
  rw [csrReadReg]
  refine NotNull.ite (notNull_ok _) ((csrEntry_notNull s address).bind fun entry => ?_)
  exact (notNull_ok _).ite (notNull_ok _)

theorem csrWriteReg_notNull (s : RvCore w σ) (privLevel : PrivilegeLevel) (address : Nat)
    (val : RvUintXlen w) : NotNull (csrWriteReg s privLevel address val) := by
  rw [csrWriteReg]
  refine NotNull.ite (notNull_ok _) ((csrEntry_notNull s address).bind fun entry => ?_)
  refine NotNull.ite ?_ (notNull_ok _)
  cases entry.callback with
  | none => exact notNull_ok _
  | some cb => exact notNull_ok _

theorem csrrwx_notNull (s : RvCore w σ) (newVal : RvUintXlen w) : NotNull (csrrwx s newVal) := by
  rw [csrrwx]
  refine (csrGetMask_notNull s _).bind fun mask => ?_
  refine ((csrReadReg_notNull s _ _).ite (notNull_ok _)).bind fun old => ?_
  cases old with
  | none => exact notNull_ok _
  | some csrVal =>
      refine (csrWriteReg_notNull s _ _ _).bind fun written => ?_
      obtain ⟨ret, s₁⟩ := written
      cases ret with
      | err => exact notNull_ok _
      | ok => exact notNull_ok _

theorem csrrReadModifyWrite_notNull (merge : RvUintXlen w → RvUintXlen w → RvUintXlen w)
    (s : RvCore w σ) (newVal : RvUintXlen w) : NotNull (csrrReadModifyWrite merge s newVal) := by
  rw [csrrReadModifyWrite]
  refine (csrGetMask_notNull s _).bind fun mask => ?_
  refine (csrReadReg_notNull s _ _).bind fun old => ?_
  cases old with
  | none => exact notNull_ok _
  | some csrVal =>
      refine ((csrWriteReg_notNull s _ _ _).ite (notNull_ok _)).bind fun written => ?_
      obtain ⟨ret, s₁⟩ := written
      cases ret with
      | err => exact notNull_ok _
      | ok => exact notNull_ok _

/-! ### The other instructions -/

theorem branch_notNull (taken : RvUintXlen w → RvUintXlen w → Bool) (s : RvCore w σ) :
    NotNull (branch taken s) :=
  ((notNull_halt _).ite (notNull_ok _)).ite (notNull_ok _)

theorem instrJal_notNull (s : RvCore w σ) : NotNull (instrJal s) :=
  (notNull_halt _).ite (notNull_ok _)

theorem instrJalr_notNull (s : RvCore w σ) : NotNull (instrJalr s) :=
  (notNull_halt _).ite (notNull_ok _)

theorem ComputeShape.notNull {handler : Handler w σ} (hshape : ComputeShape handler)
    (s : RvCore w σ) : NotNull (handler s) := by
  cases hshape with
  | setRd => exact notNull_ok _
  | extendImmediate => exact notNull_ok _
  | branch taken => exact branch_notNull taken s
  | nop => exact notNull_ok _
  | jal => exact instrJal_notNull s
  | jalr => exact instrJalr_notNull s

section Memory

variable (busAccess : BusAccessFunc w σ)

theorem load_notNull (len : Nat) (ext : BitVec (8 * len) → RvUintXlen w) (s : RvCore w σ) :
    NotNull (load busAccess len ext s) :=
  (notNull_liftM _).bind fun _ => (notNull_ok _).ite (notNull_ok _)

theorem store_notNull (len : Nat) (s : RvCore w σ) : NotNull (store busAccess len s) :=
  (notNull_liftM _).bind fun _ => notNull_ok _

theorem storeConditional_notNull {store : Handler w σ} (hstore : ∀ s, NotNull (store s))
    (s : RvCore w σ) : NotNull (storeConditional store s) := by
  by_cases hs : s.reserved
  · intro h
    have hcond : s.lrValid = true ∧ s.lrAddress = s.x s.rs1 := hs
    rw [storeConditional, if_pos hcond] at h
    exact (hstore s).bind (fun _ => notNull_ok _) h
  · rw [storeConditional_of_not_reserved hs]
    exact notNull_ok _

theorem amo_notNull (len : Nat) {load : Handler w σ} (hload : ∀ s, NotNull (load s))
    (op : RvUintXlen w → RvUintXlen w → Nat) (s : RvCore w σ) :
    NotNull (amo busAccess len load op s) :=
  (hload s).bind fun _ => (notNull_liftM _).bind fun _ => notNull_ok _

theorem handler_notNull {cb : ExecutionCb} {s : RvCore w σ} (hs : s.currPrivMode.Legal) :
    NotNull (cb.handler busAccess s) := by
  cases hk : cb.kind with
  | compute => exact (handler_compute_shape busAccess hk).notNull s
  | ecall =>
      rw [handler_ecall busAccess hk]
      exact notNull_ok _
  | csrWrite =>
      rw [handler_csrWrite busAccess hk]
      exact csrrwx_notNull s _
  | csrModify =>
      obtain ⟨merge, -, -, heq⟩ := handler_csrModify busAccess hk
      rw [heq]
      exact csrrReadModifyWrite_notNull merge s _
  | xret level =>
      rw [handler_xret busAccess hk, xret, trapRestoreIrqSettings_eq _ hs]
      exact notNull_ok _
  | hang =>
      rw [handler_hang busAccess hk]
      exact notNull_halt _
  | load =>
      obtain ⟨ext, heq⟩ := handler_load busAccess hk
      rw [heq]
      exact load_notNull busAccess _ ext s
  | store =>
      rw [handler_store busAccess hk]
      exact store_notNull busAccess _ s
  | loadReserved =>
      obtain ⟨ext, heq⟩ := handler_loadReserved busAccess hk
      rw [heq]
      exact load_notNull busAccess _ ext _
  | storeConditional =>
      rw [handler_storeConditional busAccess hk]
      exact storeConditional_notNull (store_notNull busAccess _) s
  | amo =>
      obtain ⟨op, heq⟩ := handler_amo busAccess hk
      obtain ⟨ext, hload⟩ := amoLoad_eq busAccess hk
      rw [heq, hload]
      exact amo_notNull busAccess _ (load_notNull busAccess _ ext) op s

/-! ### The public routines -/

theorem rvCallFromOpcodeList_notNull {n : Nat} (list : InstructionList n) (opcode : Nat)
    (s : RvCore w σ) : NotNull (rvCallFromOpcodeList list opcode s) := by
  induction n generalizing opcode s with
  | zero => nomatch list
  | succ n ih =>
      rw [rvCallFromOpcodeList]
      cases (list.hooks w).lookup opcode with
      | none => exact notNull_halt _
      | some hook =>
          simp only
          cases (hook.prepare s).2 with
          | none => exact notNull_ok _
          | some subcode =>
              cases hook.next with
              | none => exact notNull_ok _
              | some next => exact ih next subcode _

theorem rvCoreExecute_notNull {s : RvCore w σ} (hs : s.currPrivMode.Legal) :
    NotNull (rvCoreExecute busAccess s) := by
  rw [rvCoreExecute]
  cases s.executeCb with
  | none => exact notNull_halt _
  | some cb => exact (handler_notNull busAccess hs).bind fun _ => notNull_ok _

theorem rvCoreRun_notNull {s : RvCore w σ} (hs : s.currPrivMode.Legal) :
    NotNull (rvCoreRun busAccess s) := by
  have hfetch : NotNull (rvCoreFetch busAccess s.atFetch) :=
    (notNull_liftM _).bind fun _ => notNull_ok _
  refine hfetch.bind_of_ok ?_
  rintro ⟨ret, f⟩ hf
  have hlegal : f.currPrivMode.Legal := by
    rw [rvCoreFetch_frame hf]
    exact hs
  refine NotNull.ite ?_ (notNull_ok _)
  refine (rvCallFromOpcodeList_notNull _ _ _).bind_of_ok fun d hd => ?_
  have hdlegal : d.currPrivMode.Legal := by
    rw [rvCoreDecode_frame hd]
    exact hlegal
  exact (rvCoreExecute_notNull busAccess hdlegal).bind fun _ => notNull_ok _

end Memory

theorem CoreCall.exec_notNull (busAccess : BusAccessFunc w σ) {s : RvCore w σ}
    (hs : s.currPrivMode.Legal) (call : CoreCall σ) : NotNull (call.exec busAccess s) := by
  cases call with
  | run => exact rvCoreRun_notNull busAccess hs
  | environment priv => exact notNull_ok _
  | processInterrupts mei mti msi =>
      obtain ⟨s', hs'⟩ := rvCoreProcessInterrupts_returns hs mei mti msi
      show NotNull (rvCoreProcessInterrupts mei mti msi s)
      rw [hs']
      exact notNull_ok _

end RiscvEm
