import RiscvEm.Core.CsrSpec
import RiscvEm.Core.Search

/-!
The scratch fields of the core do not take part in what it does: a routine runs on a
state without them as it runs on the state itself. An access looks at no scratch field,
a handler at the operands only.
-/

namespace RiscvEm

variable {w : Xlen} {σ : Type}

/-! ### States without scratch fields -/

/-- The architectural state: the scratch fields are cleared. -/
def RvCore.arch (s : RvCore w σ) : RvCore w σ :=
  { s with
    nextPc := 0, instruction := 0, opcode := 0, rd := 0, rs1 := 0, rs2 := 0
    func3 := 0, func7 := 0, func6 := 0, func5 := 0, immediate := 0, jumpOffset := 0
    executeCb := none
    mmu := { s.mmu with lastVirtPc := 0, lastPhysPc := 0 } }

/-- What a handler sees: the operands are left. -/
def RvCore.visible (s : RvCore w σ) : RvCore w σ :=
  { s with
    instruction := 0, opcode := 0, func3 := 0, func7 := 0, func6 := 0, func5 := 0
    executeCb := none
    mmu := { s.mmu with lastVirtPc := 0, lastPhysPc := 0 } }

/-- A map of states that changes nothing an access looks at or writes. -/
structure Unseen (g : RvCore w σ → RvCore w σ) : Prop where
  currPrivMode : ∀ s, (g s).currPrivMode = s.currPrivMode
  pmp : ∀ s, (g s).pmp = s.pmp
  trap : ∀ s, (g s).trap = s.trap
  satpReg : ∀ s, (g s).mmu.satpReg = s.mmu.satpReg
  priv : ∀ s, (g s).priv = s.priv
  setPriv : ∀ s priv, g { s with priv := priv } = { g s with priv := priv }
  syncTrap : ∀ s cause tval, g (prepareSyncTrap s cause tval) = prepareSyncTrap (g s) cause tval

theorem unseen_arch : Unseen (RvCore.arch : RvCore w σ → RvCore w σ) where
  currPrivMode _ := rfl
  pmp _ := rfl
  trap _ := rfl
  satpReg _ := rfl
  priv _ := rfl
  setPriv _ _ := rfl
  syncTrap s cause tval := by
    rw [prepareSyncTrap, prepareSyncTrap]
    show _ = if s.syncTrapPending then _ else _
    split <;> rfl

theorem unseen_visible : Unseen (RvCore.visible : RvCore w σ → RvCore w σ) where
  currPrivMode _ := rfl
  pmp _ := rfl
  trap _ := rfl
  satpReg _ := rfl
  priv _ := rfl
  setPriv _ _ := rfl
  syncTrap s cause tval := by
    rw [prepareSyncTrap, prepareSyncTrap]
    show _ = if s.syncTrapPending then _ else _
    split <;> rfl

/-! ### Accesses -/

section Accesses

variable {g : RvCore w σ → RvCore w σ} (hg : Unseen g) (busAccess : BusAccessFunc w σ)

include hg

theorem pmpCheckedBusAccess_unseen (s : RvCore w σ) (privLevel : PrivilegeLevel)
    (accessType : BusAccessType) (addr : RvUintXlen w) (value : List Byte) (len : Nat) :
    pmpCheckedBusAccess busAccess (g s) privLevel accessType addr value len =
      (fun r => (r.1, r.2.1, g r.2.2)) <$>
        pmpCheckedBusAccess busAccess s privLevel accessType addr value len := by
  have hpmp : pmpMemCheck (g s).pmp privLevel addr len accessType =
      pmpMemCheck s.pmp privLevel addr len accessType := by rw [hg.pmp]
  simp only [pmpCheckedBusAccess, hpmp, hg.priv]
  split
  · rw [← hg.syncTrap]
    rfl
  · rw [map_bind]
    refine bind_congr fun r => ?_
    obtain ⟨ret, bytes, priv⟩ := r
    exact congrArg (fun s' => Except.ok (ret, bytes, s')) (hg.setPriv s priv).symm

theorem mmuWalk_unseen (currPriv : PrivilegeLevel) (virtAddr : RvUintXlen w) (i : Nat)
    (a pte : RvUintXlen w) (s : RvCore w σ) :
    mmuWalk busAccess currPriv virtAddr i a pte (g s) =
      (fun r => (r.1, g r.2)) <$> mmuWalk busAccess currPriv virtAddr i a pte s := by
  induction i generalizing a pte s with
  | zero =>
      rw [mmuWalk.eq_def, mmuWalk.eq_def]
      simp only [pmpCheckedBusAccess_unseen hg, map_bind, bind_map_left]
      refine bind_congr fun r => ?_
      split
      · rfl
      · split <;> rfl
  | succ i ih =>
      rw [mmuWalk.eq_def, mmuWalk.eq_def]
      simp only [pmpCheckedBusAccess_unseen hg, map_bind, bind_map_left]
      refine bind_congr fun r => ?_
      split
      · rfl
      · split
        · rfl
        · exact ih _ _ _

theorem mmuVirtToPhys_unseen (s : RvCore w σ) (currPriv : PrivilegeLevel)
    (virtAddr : RvUintXlen w) {accessType : BusAccessType} (htype : accessType ≠ .instr)
    (mxr sum : Bool) :
    mmuVirtToPhys busAccess (g s) currPriv virtAddr accessType mxr sum =
      (fun r => (r.1, g r.2)) <$>
        mmuVirtToPhys busAccess s currPriv virtAddr accessType mxr sum := by
  simp only [mmuVirtToPhys, hg.satpReg]
  split
  · rfl
  · rw [mmuWalk_unseen hg, map_bind, bind_map_left]
    refine bind_congr fun r => ?_
    obtain ⟨leaf, s₁⟩ := r
    cases leaf with
    | none => rfl
    | some l =>
        simp only
        cases mmuLeaf currPriv virtAddr accessType mxr sum l.1 l.2 <;> rfl

theorem mmuCheckedBusAccess_unseen (s : RvCore w σ) {accessType : BusAccessType}
    (htype : accessType ≠ .instr) (addr : RvUintXlen w) (value : List Byte) (len : Nat) :
    mmuCheckedBusAccess busAccess (g s) accessType addr value len =
      (fun r => (r.1, r.2.1, g r.2.2)) <$>
        mmuCheckedBusAccess busAccess s accessType addr value len := by
  have hmode : checkMprvOverride (g s) accessType = checkMprvOverride s accessType := by
    rw [checkMprvOverride, checkMprvOverride, RvCore.status, RvCore.status, hg.trap,
      hg.currPrivMode]
  simp only [mmuCheckedBusAccess, hmode, RvCore.status, hg.trap]
  rw [mmuVirtToPhys_unseen hg busAccess s _ _ htype, map_bind, bind_map_left]
  refine bind_congr fun r => ?_
  obtain ⟨phys, s₁⟩ := r
  cases phys with
  | none =>
      simp only [← hg.syncTrap]
      rfl
  | some p => exact pmpCheckedBusAccess_unseen hg busAccess s₁ _ _ _ _ _

end Accesses

/-! ### Handlers -/

/-- A handler that runs on what it sees as it runs on the whole state. -/
def Blind (f : Handler w σ) : Prop := ∀ s, f s.visible = RvCore.visible <$> f s

theorem liftM_map {α β : Type} (f : α → β) (x : Except Halt α) :
    (liftM (f <$> x) : Except Stop β) = f <$> (liftM x : Except Stop α) := by
  cases x <;> rfl

theorem blind_setRd {value : RvCore w σ → RvUintXlen w}
    (hvalue : ∀ s, value s.visible = value s) : Blind (setRd value) := by
  intro s
  show Except.ok (s.visible.setX s.rd (value s.visible)) = _
  rw [hvalue]
  rfl

theorem blind_setRdWord {value : RvCore w σ → BitVec 32}
    (hvalue : ∀ s, value s.visible = value s) : Blind (setRdWord value) :=
  blind_setRd fun s => by rw [hvalue]

theorem blind_extendImmediate {value : RvCore w σ → RvUintXlen w}
    (hvalue : ∀ s, value s.visible = value s) : Blind (extendImmediate value) :=
  fun s => blind_setRd hvalue { s with immediate := signedImmediate s }

theorem blind_branch (taken : RvUintXlen w → RvUintXlen w → Bool) :
    Blind (branch taken : Handler w σ) := by
  intro s
  show (if taken (s.x s.rs1) (s.x s.rs2) then _ else _) = _
  rw [branch]
  split
  · show (if addrMisaligned s.jumpOffset then _ else _) = _
    split <;> rfl
  · rfl

theorem blind_instrJal : Blind (instrJal : Handler w σ) := by
  intro s
  show (if addrMisaligned s.jumpOffset then _ else _) =
    RvCore.visible <$> (if addrMisaligned s.jumpOffset then _ else _)
  split <;> rfl

theorem blind_instrJalr : Blind (instrJalr : Handler w σ) := by
  intro s
  simp only [instrJalr]
  show (if addrMisaligned (clearBit (s.x s.rs1 + signedImmediate s) 0) then _ else _) =
    RvCore.visible <$>
      (if addrMisaligned (clearBit (s.x s.rs1 + signedImmediate s) 0) then _ else _)
  split <;> rfl

theorem blind_instrNop : Blind (instrNop : Handler w σ) := fun _ => rfl

theorem blind_compute (busAccess : BusAccessFunc w σ) {cb : ExecutionCb}
    (hcb : cb.kind = .compute) : Blind (cb.handler busAccess) := by
  cases cb <;> first
    | (cases hcb; done)
    | rw [ExecutionCb.handler]
  all_goals first
    | exact blind_setRd fun _ => rfl
    | exact blind_setRdWord fun _ => rfl
    | exact blind_extendImmediate fun _ => rfl
    | exact blind_branch _
    | exact blind_instrNop
    | exact blind_instrJal
    | exact blind_instrJalr

theorem blind_instrEcall : Blind (instrEcall : Handler w σ) := by
  intro s
  exact congrArg Except.ok (unseen_visible.syncTrap s _ _).symm

theorem blind_xret (level : TrapLevel) : Blind (xret level : Handler w σ) := by
  intro s
  rw [xret, xret, map_bind]
  rfl

section Memory

variable (busAccess : BusAccessFunc w σ)

theorem blind_load (len : Nat) (ext : BitVec (8 * len) → RvUintXlen w) :
    Blind (load busAccess len ext) := by
  intro s
  have haddr : effectiveAddress s.visible = effectiveAddress s := rfl
  simp only [load, haddr]
  rw [mmuCheckedBusAccess_unseen unseen_visible busAccess s (by decide), liftM_map, map_bind,
    bind_map_left]
  refine bind_congr fun r => ?_
  obtain ⟨ret, bytes, s₁⟩ := r
  show (if ret = .ok then _ else _) = RvCore.visible <$> (if ret = .ok then _ else _)
  split <;> rfl

theorem blind_store (len : Nat) : Blind (store busAccess len) := by
  intro s
  have haddr : effectiveAddress s.visible = effectiveAddress s := rfl
  have hvalue : s.visible.x s.visible.rs2 = s.x s.rs2 := rfl
  simp only [store, haddr, hvalue]
  rw [mmuCheckedBusAccess_unseen unseen_visible busAccess s (by decide), liftM_map, map_bind,
    bind_map_left]
  rfl

theorem blind_loadReserved {load : Handler w σ} (hload : Blind load) :
    Blind (loadReserved load) := fun s => hload s.reserve -- the reservation is not hidden

theorem blind_storeConditional {store : Handler w σ} (hstore : Blind store) :
    Blind (storeConditional store) := by
  intro s
  by_cases hs : s.lrValid = true ∧ s.lrAddress = s.x s.rs1
  · have hs' : s.visible.lrValid = true ∧ s.visible.lrAddress = s.visible.x s.visible.rs1 := hs
    have hrun : store s.visible = RvCore.visible <$> store s := hstore s
    simp only [storeConditional, if_pos hs, if_pos hs', hrun, map_bind, bind_map_left]
    rfl
  · have hs' : ¬ (s.visible.lrValid = true ∧ s.visible.lrAddress = s.visible.x s.visible.rs1) := hs
    simp only [storeConditional, if_neg hs, if_neg hs']
    rfl

theorem blind_amo {load : Handler w σ} (hload : Blind load) (len : Nat)
    (op : RvUintXlen w → RvUintXlen w → Nat) : Blind (amo busAccess len load op) := by
  intro s
  have hrun : load s.visible = RvCore.visible <$> load s := hload s
  simp only [amo, hrun, map_bind, bind_map_left]
  refine bind_congr fun s₁ => ?_
  have haddr : s.visible.x s.visible.rs1 = s.x s.rs1 := rfl
  have hvalue : op (s₁.visible.x s₁.visible.rd) (s.visible.x s.visible.rs2) =
      op (s₁.x s₁.rd) (s.x s.rs2) := rfl
  rw [haddr, hvalue, mmuCheckedBusAccess_unseen unseen_visible busAccess s₁ (by decide),
    liftM_map, bind_map_left]
  rfl

end Memory

/-! ### CSR instructions -/

theorem csrWriteReg_visible (s : RvCore w σ) (privLevel : PrivilegeLevel) (address : Nat)
    (val : RvUintXlen w) :
    csrWriteReg s.visible privLevel address val =
      (fun r => (r.1, r.2.visible)) <$> csrWriteReg s privLevel address val := by
  rw [csrWriteReg, csrWriteReg]
  split
  · rfl
  · have hentry : csrEntry s.visible address = csrEntry s address := rfl
    rw [hentry, map_bind]
    refine bind_congr fun entry => ?_
    split
    · cases entry.callback with
      | none => rfl
      | some cb => cases cb <;> rfl
    · rfl

theorem illegalInstr_visible (s : RvCore w σ) :
    illegalInstr s.visible = (illegalInstr s).visible :=
  (unseen_visible.syncTrap s _ _).symm

theorem csrrwx_visible (s : RvCore w σ) (newVal : RvUintXlen w) :
    csrrwx s.visible newVal = RvCore.visible <$> csrrwx s newVal := by
  rw [csrrwx, csrrwx]
  have hmask (a : Nat) : csrGetMask s.visible a = csrGetMask s a := rfl
  have hread (p : PrivilegeLevel) (a : Nat) : csrReadReg s.visible p a = csrReadReg s p a := rfl
  simp only [hmask, hread, map_bind]
  refine bind_congr fun mask => bind_congr fun old => ?_
  cases old with
  | none => exact congrArg Except.ok (illegalInstr_visible s)
  | some csrVal =>
      simp only [csrWriteReg_visible, map_bind, bind_map_left]
      refine bind_congr fun r => ?_
      obtain ⟨ret, s₁⟩ := r
      cases ret with
      | ok => rfl
      | err => exact congrArg Except.ok (illegalInstr_visible s₁)

theorem csrrReadModifyWrite_visible (merge : RvUintXlen w → RvUintXlen w → RvUintXlen w)
    (s : RvCore w σ) (newVal : RvUintXlen w) :
    csrrReadModifyWrite merge s.visible newVal =
      RvCore.visible <$> csrrReadModifyWrite merge s newVal := by
  rw [csrrReadModifyWrite, csrrReadModifyWrite]
  have hmask (a : Nat) : csrGetMask s.visible a = csrGetMask s a := rfl
  have hread (p : PrivilegeLevel) (a : Nat) : csrReadReg s.visible p a = csrReadReg s p a := rfl
  simp only [hmask, hread, map_bind]
  refine bind_congr fun mask => bind_congr fun old => ?_
  cases old with
  | none => exact congrArg Except.ok (illegalInstr_visible s)
  | some csrVal =>
      have hwrite (val : RvUintXlen w) :
          (if s.visible.rs1 ≠ 0 then csrWriteReg s.visible s.visible.currPrivMode
              (s.visible.immediate.setWidth 16).toNat val else .ok (.ok, s.visible)) =
            (fun r => (r.1, RvCore.visible r.2)) <$> (if s.rs1 ≠ 0 then csrWriteReg s s.currPrivMode
              (s.immediate.setWidth 16).toNat val else .ok (.ok, s)) := by
        show (if s.rs1 ≠ 0 then _ else _) = _
        split
        · exact csrWriteReg_visible s _ _ _
        · rfl
      simp only [hwrite, map_bind, bind_map_left]
      refine bind_congr fun r => ?_
      obtain ⟨ret, s₁⟩ := r
      cases ret with
      | ok => rfl
      | err => exact congrArg Except.ok (illegalInstr_visible s₁)

theorem csrOperand_visible (cb : ExecutionCb) (s : RvCore w σ) :
    cb.csrOperand s.visible = cb.csrOperand s := by
  cases cb <;> rfl

theorem blind_handler (busAccess : BusAccessFunc w σ) (cb : ExecutionCb) :
    Blind (cb.handler busAccess) := by
  cases hk : cb.kind with
  | compute => exact blind_compute busAccess hk
  | ecall =>
      rw [handler_ecall busAccess hk]
      exact blind_instrEcall
  | csrWrite =>
      intro s
      rw [handler_csrWrite busAccess hk, handler_csrWrite busAccess hk, csrOperand_visible]
      exact csrrwx_visible s _
  | csrModify =>
      obtain ⟨merge, -, -, heq⟩ := handler_csrModify busAccess hk
      intro s
      rw [heq, heq, csrOperand_visible]
      exact csrrReadModifyWrite_visible merge s _
  | xret level =>
      rw [handler_xret busAccess hk]
      exact blind_xret level
  | hang =>
      intro s
      rw [handler_hang busAccess hk, handler_hang busAccess hk]
      rfl
  | load =>
      obtain ⟨ext, hload⟩ := handler_load busAccess hk
      rw [hload]
      exact blind_load busAccess _ ext
  | store =>
      rw [handler_store busAccess hk]
      exact blind_store busAccess _
  | loadReserved =>
      obtain ⟨ext, hload⟩ := handler_loadReserved busAccess hk
      rw [hload]
      exact blind_loadReserved (blind_load busAccess _ ext)
  | storeConditional =>
      rw [handler_storeConditional busAccess hk]
      exact blind_storeConditional (blind_store busAccess _)
  | amo =>
      obtain ⟨op, hamo⟩ := handler_amo busAccess hk
      obtain ⟨ext, hload⟩ := amoLoad_eq busAccess hk
      rw [hamo, hload]
      exact blind_amo busAccess (blind_load busAccess _ ext) _ op

/-! ### Decoding -/

/-- The operands that an entry of the top list prepares are those of the instruction. -/
theorem prepare_operands {n : Nat} (hook : InstructionHook n) {s t : RvCore w σ}
    (hinstr : s.instruction = t.instruction) :
    OperandsKept (hook.prepare s.resetDecode).1 (hook.prepare t.resetDecode).1 := by
  have hfield (start length : Nat) :
      field t.resetDecode start length = field s.resetDecode start length := by
    show extract t.instruction start length = extract s.instruction start length
    rw [hinstr]
  have hword : t.resetDecode.instruction = s.resetDecode.instruction := hinstr.symm
  rw [InstructionHook.prepare, InstructionHook.prepare]
  cases hook.preparationCb with
  | none => exact ⟨rfl, rfl, rfl, rfl, rfl⟩
  | some cb =>
      cases cb <;> refine ⟨?_, ?_, ?_, ?_, ?_⟩ <;> first
        | rfl
        | simp only [PreparationCb.run, regField, bTypeOffset, jTypeOffset, sTypeImmediate,
            hfield, hword]

theorem rvCoreDecode_visible_eq {f d : RvCore w σ} (h : rvCoreDecode f = .ok d) :
    d.visible = { f.arch with
      nextPc := f.nextPc, rd := d.rd, rs1 := d.rs1, rs2 := d.rs2
      immediate := d.immediate, jumpOffset := d.jumpOffset } := by
  rw [rvCoreDecode_frame h]
  rfl

/-- What a handler sees is determined by the architectural state and the instruction. -/
theorem rvCoreDecode_visible {f₁ f₂ d₁ d₂ : RvCore w σ} (harch : f₁.arch = f₂.arch)
    (hinstr : f₁.instruction = f₂.instruction) (hnext : f₁.nextPc = f₂.nextPc)
    (h₁ : rvCoreDecode f₁ = .ok d₁) (h₂ : rvCoreDecode f₂ = .ok d₂) :
    d₁.visible = d₂.visible ∧ d₁.executeCb = d₂.executeCb := by
  -- both words are found by the same entry, and all operands come from that entry
  have hcb₁ := searchWord_of_decode h₁
  have hcb₂ := searchWord_of_decode h₂
  obtain ⟨cb, hcb⟩ := rvCoreDecode_callback h₁
  rw [hcb] at hcb₁
  rw [← hinstr, hcb₁] at hcb₂
  obtain ⟨d₁', hook, hdecode₁, -, hlookup₁, hkept₁⟩ := rvCoreDecode_of_search hcb₁
  have hsearch₂ : searchWord w f₂.instruction = some cb := by rw [← hinstr, hcb₁]
  obtain ⟨d₂', hook', hdecode₂, -, hlookup₂, hkept₂⟩ := rvCoreDecode_of_search hsearch₂
  obtain rfl := Except.ok.inj (h₁.symm.trans hdecode₁)
  obtain rfl := Except.ok.inj (h₂.symm.trans hdecode₂)
  rw [← hinstr, hlookup₁] at hlookup₂
  obtain rfl := Option.some.inj hlookup₂
  obtain ⟨hrd, hrs1, hrs2, himm, hjump⟩ :=
    (prepare_operands hook hinstr).trans hkept₂
  obtain ⟨hrd', hrs1', hrs2', himm', hjump'⟩ := hkept₁
  refine ⟨?_, hcb.trans hcb₂⟩
  rw [rvCoreDecode_visible_eq h₁, rvCoreDecode_visible_eq h₂, harch, hnext, hrd', hrs1', hrs2',
    himm', hjump', hrd, hrs1, hrs2, himm, hjump]

end RiscvEm
