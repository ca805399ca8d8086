import RiscvEm.Core.Reach
import RiscvEm.Core.Search

/-!
Routines that do not look behind `priv`: they run on a state with something else there as
they run on the state itself.
-/

namespace RiscvEm

variable {w : Xlen} {σ : Type}

def RvCore.withPriv (s : RvCore w σ) (priv : σ) : RvCore w σ := { s with priv := priv }

@[simp] theorem RvCore.withPriv_priv (s : RvCore w σ) (b : σ) : (s.withPriv b).priv = b := rfl

/-- A routine that does not look behind `priv`. -/
def Indifferent (f : Handler w σ) : Prop := ∀ s b, f (s.withPriv b) = (·.withPriv b) <$> f s

theorem Indifferent.priv {f : Handler w σ} (hf : Indifferent f) {s e : RvCore w σ}
    (h : f s = .ok e) : e.priv = s.priv := by
  have hself : f s = (·.withPriv s.priv) <$> f s := hf s s.priv
  rw [h] at hself
  have he : e = e.withPriv s.priv := Except.ok.inj hself
  calc e.priv = (e.withPriv s.priv).priv := congrArg RvCore.priv he
    _ = s.priv := rfl

/-! ### Computations -/

theorem indifferent_setRd {value : RvCore w σ → RvUintXlen w}
    (hvalue : ∀ s b, value (s.withPriv b) = value s) : Indifferent (setRd value) := by
  intro s b
  show Except.ok ((s.withPriv b).setX s.rd (value (s.withPriv b))) = _
  rw [hvalue]
  rfl

theorem indifferent_setRdWord {value : RvCore w σ → BitVec 32}
    (hvalue : ∀ s b, value (s.withPriv b) = value s) : Indifferent (setRdWord value) :=
  indifferent_setRd fun s b => by rw [hvalue]

theorem indifferent_extendImmediate {value : RvCore w σ → RvUintXlen w}
    (hvalue : ∀ s b, value (s.withPriv b) = value s) : Indifferent (extendImmediate value) :=
  fun s b => indifferent_setRd hvalue { s with immediate := signedImmediate s } b

theorem indifferent_branch (taken : RvUintXlen w → RvUintXlen w → Bool) :
    Indifferent (branch taken : Handler w σ) := by
  intro s b
  show (if taken (s.x s.rs1) (s.x s.rs2) then _ else _) = _
  rw [branch]
  split
  · show (if addrMisaligned s.jumpOffset then _ else _) = _
    split <;> rfl
  · rfl

theorem indifferent_instrJal : Indifferent (instrJal : Handler w σ) := by
  intro s b
  show (if addrMisaligned s.jumpOffset then _ else _) =
    (fun e : RvCore w σ => e.withPriv b) <$> (if addrMisaligned s.jumpOffset then _ else _)
  split <;> rfl

theorem indifferent_instrJalr : Indifferent (instrJalr : Handler w σ) := by
  intro s b
  simp only [instrJalr]
  show (if addrMisaligned (clearBit (s.x s.rs1 + signedImmediate s) 0) then _ else _) =
    (fun e : RvCore w σ => e.withPriv b) <$>
      (if addrMisaligned (clearBit (s.x s.rs1 + signedImmediate s) 0) then _ else _)
  split <;> rfl

theorem indifferent_instrNop : Indifferent (instrNop : Handler w σ) := fun _ _ => rfl

theorem indifferent_compute (busAccess : BusAccessFunc w σ) {cb : ExecutionCb}
    (hcb : cb.kind = .compute) : Indifferent (cb.handler busAccess) := by
  cases cb <;> first
    | (cases hcb; done)
    | rw [ExecutionCb.handler]
  all_goals first
    | exact indifferent_setRd fun _ _ => rfl
    | exact indifferent_setRdWord fun _ _ => rfl
    | exact indifferent_extendImmediate fun _ _ => rfl
    | exact indifferent_branch _
    | exact indifferent_instrNop
    | exact indifferent_instrJal
    | exact indifferent_instrJalr

theorem prepareSyncTrap_withPriv (s : RvCore w σ) (b : σ) (cause tval : RvUintXlen w) :
    prepareSyncTrap (s.withPriv b) cause tval = (prepareSyncTrap s cause tval).withPriv b := by
  rw [prepareSyncTrap, prepareSyncTrap]
  show (if s.syncTrapPending then _ else _) = _
  split <;> rfl

theorem indifferent_instrEcall : Indifferent (instrEcall : Handler w σ) :=
  fun s b => congrArg Except.ok (prepareSyncTrap_withPriv s b _ _)

theorem indifferent_xret (level : TrapLevel) : Indifferent (xret level : Handler w σ) := by
  intro s b
  simp only [xret, map_bind]
  rfl

/-! ### CSR instructions -/

theorem csrWriteReg_withPriv (s : RvCore w σ) (b : σ) (privLevel : PrivilegeLevel)
    (address : Nat) (val : RvUintXlen w) :
    csrWriteReg (s.withPriv b) privLevel address val =
      (fun r => (r.1, r.2.withPriv b)) <$> csrWriteReg s privLevel address val := by
  rw [csrWriteReg, csrWriteReg]
  split
  · rfl
  · have hentry : csrEntry (s.withPriv b) address = csrEntry s address := rfl
    rw [hentry, map_bind]
    refine bind_congr fun entry => ?_
    split
    · cases entry.callback with
      | none => rfl
      | some cb => cases cb <;> rfl
    · rfl

theorem illegalInstr_withPriv (s : RvCore w σ) (b : σ) :
    illegalInstr (s.withPriv b) = (illegalInstr s).withPriv b :=
  prepareSyncTrap_withPriv s b _ _

theorem csrrwx_withPriv (s : RvCore w σ) (b : σ) (newVal : RvUintXlen w) :
    csrrwx (s.withPriv b) newVal = (·.withPriv b) <$> csrrwx s newVal := by
  rw [csrrwx, csrrwx]
  have hmask (a : Nat) : csrGetMask (s.withPriv b) a = csrGetMask s a := rfl
  have hread (p : PrivilegeLevel) (a : Nat) :
      csrReadReg (s.withPriv b) p a = csrReadReg s p a := rfl
  simp only [hmask, hread, map_bind]
  refine bind_congr fun mask => bind_congr fun old => ?_
  cases old with
  | none => exact congrArg Except.ok (illegalInstr_withPriv s b)
  | some csrVal =>
      simp only [csrWriteReg_withPriv, map_bind, bind_map_left]
      refine bind_congr fun r => ?_
      obtain ⟨ret, s₁⟩ := r
      cases ret with
      | ok => rfl
      | err => exact congrArg Except.ok (illegalInstr_withPriv s₁ b)

theorem csrrReadModifyWrite_withPriv (merge : RvUintXlen w → RvUintXlen w → RvUintXlen w)
    (s : RvCore w σ) (b : σ) (newVal : RvUintXlen w) :
    csrrReadModifyWrite merge (s.withPriv b) newVal =
      (·.withPriv b) <$> csrrReadModifyWrite merge s newVal := by
  rw [csrrReadModifyWrite, csrrReadModifyWrite]
  have hmask (a : Nat) : csrGetMask (s.withPriv b) a = csrGetMask s a := rfl
  have hread (p : PrivilegeLevel) (a : Nat) :
      csrReadReg (s.withPriv b) p a = csrReadReg s p a := rfl
  simp only [hmask, hread, map_bind]
  refine bind_congr fun mask => bind_congr fun old => ?_
  cases old with
  | none => exact congrArg Except.ok (illegalInstr_withPriv s b)
  | some csrVal =>
      have hwrite (val : RvUintXlen w) :
          (if (s.withPriv b).rs1 ≠ 0 then csrWriteReg (s.withPriv b) (s.withPriv b).currPrivMode
              ((s.withPriv b).immediate.setWidth 16).toNat val else .ok (.ok, s.withPriv b)) =
            (fun r => (r.1, r.2.withPriv b)) <$> (if s.rs1 ≠ 0 then
              csrWriteReg s s.currPrivMode (s.immediate.setWidth 16).toNat val
              else .ok (.ok, s)) := by
        show (if s.rs1 ≠ 0 then _ else _) = _
        split
        · exact csrWriteReg_withPriv s b _ _ _
        · rfl
      simp only [hwrite, map_bind, bind_map_left]
      refine bind_congr fun r => ?_
      obtain ⟨ret, s₁⟩ := r
      cases ret with
      | ok => rfl
      | err => exact congrArg Except.ok (illegalInstr_withPriv s₁ b)

theorem csrOperand_withPriv (cb : ExecutionCb) (s : RvCore w σ) (b : σ) :
    cb.csrOperand (s.withPriv b) = cb.csrOperand s := by
  cases cb <;> rfl

theorem indifferent_handler (busAccess : BusAccessFunc w σ) {cb : ExecutionCb}
    (hk : cb.kind.memory = false) : Indifferent (cb.handler busAccess) := by
  cases hkind : cb.kind with
  | compute => exact indifferent_compute busAccess hkind
  | ecall =>
      rw [handler_ecall busAccess hkind]
      exact indifferent_instrEcall
  | csrWrite =>
      intro s b
      rw [handler_csrWrite busAccess hkind, handler_csrWrite busAccess hkind, csrOperand_withPriv]
      exact csrrwx_withPriv s b _
  | csrModify =>
      obtain ⟨merge, -, -, heq⟩ := handler_csrModify busAccess hkind
      intro s b
      rw [heq, heq, csrOperand_withPriv]
      exact csrrReadModifyWrite_withPriv merge s b _
  | xret level =>
      rw [handler_xret busAccess hkind]
      exact indifferent_xret level
  | hang =>
      intro s b
      rw [handler_hang busAccess hkind, handler_hang busAccess hkind]
      rfl
  | _ => simp [hkind, HandlerKind.memory] at hk

theorem handler_bus (busAccess busAccess' : BusAccessFunc w σ) {cb : ExecutionCb}
    (hk : cb.kind.memory = false) : cb.handler busAccess' = cb.handler busAccess := by
  cases cb <;> first | (cases hk; done) | rfl

/-! ### Decoding -/

theorem run_withPriv (cb : PreparationCb) (s : RvCore w σ) (b : σ) :
    cb.run (s.withPriv b) = ((cb.run s).1.withPriv b, (cb.run s).2) := by
  cases cb <;> rfl

theorem prepare_withPriv {n : Nat} (hook : InstructionHook n) (s : RvCore w σ) (b : σ) :
    hook.prepare (s.withPriv b) = ((hook.prepare s).1.withPriv b, (hook.prepare s).2) := by
  rw [InstructionHook.prepare, InstructionHook.prepare]
  cases hook.preparationCb with
  | none => rfl
  | some cb => exact run_withPriv cb s b

theorem indifferent_rvCallFromOpcodeList {n : Nat} (list : InstructionList n) (opcode : Nat) :
    Indifferent (rvCallFromOpcodeList list opcode : Handler w σ) := by
  induction n generalizing opcode with
  | zero => nomatch list
  | succ n ih =>
      intro s b
      rw [rvCallFromOpcodeList]
      cases (list.hooks w).lookup opcode with
      | none => rfl
      | some hook =>
          simp only [prepare_withPriv]
          cases (hook.prepare s).2 with
          | none => rfl
          | some subcode =>
              cases hook.next with
              | none => rfl
              | some next =>
                  exact ih next subcode { (hook.prepare s).1 with
                    executeCb := hook.executionCb <|> (hook.prepare s).1.executeCb } b

theorem indifferent_rvCoreDecode : Indifferent (rvCoreDecode : Handler w σ) :=
  fun s b => indifferent_rvCallFromOpcodeList .rvOpcode _ s.resetDecode b

/-! ### Interrupts -/

theorem serveTrap_withPriv (s : RvCore w σ) (b : σ) (serving : PrivilegeLevel)
    (isInterrupt : Bool) (cause : RvUintXlen w) :
    serveTrap (s.withPriv b) serving isInterrupt cause =
      (fun e : RvCore w σ => e.withPriv b) <$> serveTrap s serving isInterrupt cause := by
  simp only [serveTrap, map_bind]
  rfl

theorem indifferent_interruptLoop (causes : List Nat) :
    Indifferent (fun s : RvCore w σ => interruptLoop s causes) := by
  induction causes with
  | nil => exact fun _ _ => rfl
  | cons cause rest ih =>
      intro s b
      simp only [interruptLoop, map_bind]
      refine bind_congr fun serving => ?_
      cases serving with
      | none => exact ih s b
      | some serving => exact serveTrap_withPriv s b serving true _

theorem indifferent_rvCorePrepareInterrupts :
    Indifferent (rvCorePrepareInterrupts : Handler w σ) := by
  intro s b
  have hpending : (s.withPriv b).syncTrapPending = s.syncTrapPending := rfl
  have hcause : (s.withPriv b).syncTrapCause = s.syncTrapCause := rfl
  have hmode : (s.withPriv b).currPrivMode = s.currPrivMode := rfl
  have htrap : (s.withPriv b).trap = s.trap := rfl
  rw [rvCorePrepareInterrupts, rvCorePrepareInterrupts, hpending]
  split
  · simp only [hcause, hmode, htrap, map_bind, serveTrap_withPriv, bind_map_left]
    rfl
  · exact indifferent_interruptLoop _ s b

theorem indifferent_rvCoreProcessInterrupts (mei mti msi : Byte) :
    Indifferent (rvCoreProcessInterrupts mei mti msi : Handler w σ) :=
  fun s b => indifferent_rvCorePrepareInterrupts (rvCoreUpdateInterrupts s mei mti msi) b

end RiscvEm
