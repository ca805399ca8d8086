import RiscvEm.Core.Reach
import RiscvEm.Core.Search

/-!
When a call of `rv_core_run` returns: the accesses that it makes are answered by the
bus, its jump goes to an aligned target, its CSR is in the table, and it is not the
return instruction that waits for ever.

The bus is described by the accesses that it answers.
-/

namespace RiscvEm

open Except (Returns)

variable {w : Xlen} {σ : Type}

/-! ### Instructions without an access -/

theorem liftM_returns_iff {α : Type} {x : Except Halt α} :
    Returns (liftM x : Except Stop α) ↔ Returns x := Except.returns_mapError_iff

def branchAligned (taken : RvUintXlen w → RvUintXlen w → Bool) (d : RvCore w σ) : Prop :=
  taken (d.x d.rs1) (d.x d.rs2) = true → addrMisaligned d.jumpOffset = false

def ExecutionCb.TargetAligned (cb : ExecutionCb) (d : RvCore w σ) : Prop :=
  match cb with
  | .jal => addrMisaligned d.jumpOffset = false
  | .jalr => addrMisaligned (clearBit (d.x d.rs1 + signedImmediate d) 0) = false
  | .beq => branchAligned (fun a b => a == b) d
  | .bne => branchAligned (fun a b => a != b) d
  | .blt => branchAligned (fun a b => a.slt b) d
  | .bge => branchAligned (fun a b => b.sle a) d
  | .bltu => branchAligned (fun a b => a.ult b) d
  | .bgeu => branchAligned (fun a b => b.ule a) d
  | _ => True

theorem returns_ite_die {c : Bool} {e : Stop} {s : RvCore w σ} :
    Returns (if c then .error e else .ok s : Except Stop (RvCore w σ)) ↔ c = false := by
  rw [Except.returns_ite_error, Bool.not_eq_true]
  exact and_iff_left (Except.returns_ok s)

theorem branch_returns_iff (taken : RvUintXlen w → RvUintXlen w → Bool) {d : RvCore w σ} :
    Returns (branch taken d) ↔ branchAligned taken d := by
  rw [branch, branchAligned]
  split
  · next h => rw [returns_ite_die, imp_iff_right h]
  · next h => exact iff_of_true (Except.returns_ok d) fun htaken => absurd htaken h

theorem handler_compute_returns_iff (busAccess : BusAccessFunc w σ) {cb : ExecutionCb}
    (hcb : cb.kind = .compute) {d : RvCore w σ} :
    Returns (cb.handler busAccess d) ↔ cb.TargetAligned d := by
  cases cb <;> first
    | (cases hcb; done)
    | rw [ExecutionCb.handler]
  case bge => exact branch_returns_iff fun a b => b.sle a
  case bgeu => exact branch_returns_iff fun a b => b.ule a
  all_goals first
    | exact branch_returns_iff _
    | exact returns_ite_die
    | exact iff_of_true (Except.returns_ok _) trivial

theorem csrEntry_eq {s : RvCore w σ} {address : Nat} (h : address < csrAddrMax) :
    csrEntry s address = .ok (s.csrRegs address) := if_pos h

theorem csrReadReg_returns {s : RvCore w σ} {mode : PrivilegeLevel} {address : Nat}
    (h : address < csrAddrMax) : Returns (csrReadReg s mode address) := by
  rw [csrReadReg, if_neg (by omega), csrEntry_eq h]
  simp only [Except.ok_bind]
  split
  · exact Except.returns_pure _
  · exact Except.returns_pure _

theorem csrWriteReg_returns {s : RvCore w σ} {mode : PrivilegeLevel} {address : Nat}
    {val : RvUintXlen w} (h : address < csrAddrMax) :
    Returns (csrWriteReg s mode address val) := by
  rw [csrWriteReg, if_neg (by omega), csrEntry_eq h]
  simp only [Except.ok_bind]
  split
  · split
    · exact Except.returns_pure _
    · exact Except.returns_pure _
  · exact Except.returns_pure _

theorem csrrwx_returns_iff {s : RvCore w σ} {newVal : RvUintXlen w} :
    Returns (csrrwx s newVal) ↔ s.csrAddr < csrAddrMax := by
  constructor
  · rintro ⟨s', h⟩
    exact (csrrwx_cases h).1
  · intro h
    have hentry : csrEntry s (s.immediate.setWidth 16).toNat =
        .ok (s.csrRegs (s.immediate.setWidth 16).toNat) := csrEntry_eq h
    have hread : Returns (if s.rd ≠ 0 then
        csrReadReg s s.currPrivMode (s.immediate.setWidth 16).toNat else .ok (some 0#w.bits)) := by
      split
      · exact csrReadReg_returns h
      · exact Except.returns_ok _
    simp only [csrrwx, csrGetMask, hentry, Except.ok_bind, Except.pure_eq_ok]
    refine Except.returns_bind_iff.mpr ⟨hread, fun old _ => ?_⟩
    cases old with
    | none => exact Except.returns_ok _
    | some csrVal =>
        refine Except.returns_bind_iff.mpr ⟨csrWriteReg_returns h, ?_⟩
        rintro ⟨ret, s₁⟩ -
        cases ret with
        | ok => exact Except.returns_ok _
        | err => exact Except.returns_ok _

theorem csrrReadModifyWrite_returns_iff {merge : RvUintXlen w → RvUintXlen w → RvUintXlen w}
    {s : RvCore w σ} {newVal : RvUintXlen w} :
    Returns (csrrReadModifyWrite merge s newVal) ↔ s.csrAddr < csrAddrMax := by
  constructor
  · rintro ⟨s', h⟩
    exact (csrrReadModifyWrite_cases h).1
  · intro h
    have hentry : csrEntry s (s.immediate.setWidth 16).toNat =
        .ok (s.csrRegs (s.immediate.setWidth 16).toNat) := csrEntry_eq h
    simp only [csrrReadModifyWrite, csrGetMask, hentry, Except.ok_bind, Except.pure_eq_ok]
    refine Except.returns_bind_iff.mpr ⟨csrReadReg_returns h, fun old _ => ?_⟩
    cases old with
    | none => exact Except.returns_ok _
    | some csrVal =>
        refine Except.returns_bind_iff.mpr ⟨?_, ?_⟩
        · split
          · exact csrWriteReg_returns h
          · exact Except.returns_ok _
        · rintro ⟨ret, s₁⟩ -
          cases ret with
          | ok => exact Except.returns_ok _
          | err => exact Except.returns_ok _

theorem xret_returns_iff {level : TrapLevel} {s : RvCore w σ} :
    Returns (xret level s) ↔ s.currPrivMode.Legal := by
  constructor
  · rintro ⟨s', h⟩
    exact (xret_eq_ok h).1
  · intro h
    rw [xret, trapRestoreIrqSettings_eq _ h]
    exact Except.returns_ok _

/-! ### Accesses -/

section Accesses

variable (busAccess : BusAccessFunc w σ)
  (serves : σ → BusAccessType → RvUintXlen w → List Byte → Nat → Prop)

def PhysServed (s : RvCore w σ) (privLevel : PrivilegeLevel) (accessType : BusAccessType)
    (addr : RvUintXlen w) (value : List Byte) (len : Nat) : Prop :=
  pmpMemCheck s.pmp privLevel addr len accessType = .err ∨ serves s.priv accessType addr value len

def WalkServed (currPriv : PrivilegeLevel) (virtAddr : RvUintXlen w) :
    Nat → RvUintXlen w → RvUintXlen w → RvCore w σ → Prop
  | i, a, pte, s =>
    PhysServed serves s currPriv .read (a + vpn virtAddr i * 4) (leBytes w.bytes pte.toNat)
      w.bytes ∧
    ∀ ret bytes s₁, pmpCheckedBusAccess busAccess s currPriv .read (a + vpn virtAddr i * 4)
        (leBytes w.bytes pte.toNat) w.bytes = .ok (ret, bytes, s₁) →
      let pte := BitVec.ofNat w.bits (leNat (bytes.take w.bytes))
      pteInvalid (pteFlags pte) = false → pteFlags pte &&& 0xA = 0 →
        match i with
        | 0 => True
        | i + 1 => WalkServed currPriv virtAddr i ((pte >>> 10) * 4096) pte s₁

def TranslationServed (s : RvCore w σ) (currPriv : PrivilegeLevel) (virtAddr : RvUintXlen w) :
    Prop :=
  currPriv = .machine ∨ satpMode s.mmu.satpReg = 0 ∨
    WalkServed busAccess serves currPriv virtAddr 1 ((s.mmu.satpReg &&& 0x3FFFFF) * 4096) 0 s

/-- The page-table reads of an access are answered, and so is the access to the physical
address, if there is one and the PMP allows it. -/
def AccessServed (s : RvCore w σ) (accessType : BusAccessType) (addr : RvUintXlen w)
    (value : List Byte) (len : Nat) : Prop :=
  TranslationServed busAccess serves s (checkMprvOverride s accessType) addr ∧
    ∀ phys s₁, mmuVirtToPhys busAccess s (checkMprvOverride s accessType) addr accessType
        (checkBit s.status trapXstatusMxrBit) (checkBit s.status trapXstatusSumBit) =
          .ok (some phys, s₁) →
      PhysServed serves s₁ (checkMprvOverride s accessType) accessType (phys.setWidth w.bits)
        value len

variable {busAccess serves}
  (hserves : ∀ priv privLevel accessType addr value len,
    Returns (busAccess priv privLevel accessType addr value len) ↔
      serves priv accessType addr value len)

include hserves

theorem pmpCheckedBusAccess_returns_iff {s : RvCore w σ} {privLevel : PrivilegeLevel}
    {accessType : BusAccessType} {addr : RvUintXlen w} {value : List Byte} {len : Nat} :
    Returns (pmpCheckedBusAccess busAccess s privLevel accessType addr value len) ↔
      PhysServed serves s privLevel accessType addr value len := by
  rw [pmpCheckedBusAccess, PhysServed]
  by_cases hpmp : pmpMemCheck s.pmp privLevel addr len accessType = .err
  · simp only [hpmp, if_true]
    exact iff_of_true (Except.returns_ok _) (.inl trivial)
  · simp only [hpmp, if_false, false_or]
    rw [Except.returns_bind_of_returns fun _ _ => Except.returns_pure _]
    exact hserves _ _ _ _ _ _

theorem mmuWalk_returns_iff {currPriv : PrivilegeLevel} {virtAddr a pte : RvUintXlen w} {i : Nat}
    {s : RvCore w σ} :
    Returns (mmuWalk busAccess currPriv virtAddr i a pte s) ↔
      WalkServed busAccess serves currPriv virtAddr i a pte s := by
  induction i generalizing a pte s with
  | zero =>
      rw [mmuWalk.eq_def, WalkServed.eq_def, Except.returns_bind_iff,
        pmpCheckedBusAccess_returns_iff hserves]
      refine and_congr_right fun _ => ?_
      refine iff_of_true ?_ fun _ _ _ _ _ _ => trivial
      rintro ⟨ret, bytes, s₁⟩ -
      simp only
      split
      · exact Except.returns_ok _
      · split
        · exact Except.returns_ok _
        · exact Except.returns_ok _
  | succ i ih =>
      rw [mmuWalk.eq_def, WalkServed.eq_def, Except.returns_bind_iff,
        pmpCheckedBusAccess_returns_iff hserves]
      refine and_congr_right fun _ => ?_
      constructor
      · intro h ret bytes s₁ hread pte' hval hptr
        have hrest := h _ hread
        simp only at hrest
        rw [if_neg (by rw [hval]; decide), if_neg (by rw [hptr]; decide)] at hrest
        exact ih.mp hrest
      · rintro h ⟨ret, bytes, s₁⟩ hread
        simp only
        split
        · exact Except.returns_ok _
        · next hval =>
            split
            · exact Except.returns_ok _
            · next hptr =>
                exact ih.mpr (h ret bytes s₁ hread (Bool.eq_false_iff.mpr hval)
                  (not_not.mp hptr))

theorem mmuVirtToPhys_returns_iff {s : RvCore w σ} {currPriv : PrivilegeLevel}
    {virtAddr : RvUintXlen w} {accessType : BusAccessType} {mxr sum : Bool} :
    Returns (mmuVirtToPhys busAccess s currPriv virtAddr accessType mxr sum) ↔
      TranslationServed busAccess serves s currPriv virtAddr := by
  rw [mmuVirtToPhys, TranslationServed]
  by_cases hbare : currPriv = .machine ∨ satpMode s.mmu.satpReg = 0
  · rw [if_pos hbare]
    refine iff_of_true (Except.returns_ok _) ?_
    rcases hbare with h | h
    · exact .inl h
    · exact .inr (.inl h)
  · obtain ⟨hmode, hsatp⟩ := not_or.mp hbare
    rw [if_neg hbare, or_iff_right hmode, or_iff_right hsatp, ← mmuWalk_returns_iff hserves]
    refine Except.returns_bind_of_returns ?_
    rintro ⟨leaf, s₁⟩ -
    cases leaf with
    | none => exact Except.returns_ok _
    | some l =>
        simp only
        split
        · exact Except.returns_ok _
        · split
          · exact Except.returns_ok _
          · exact Except.returns_ok _

theorem mmuCheckedBusAccess_returns_iff {s : RvCore w σ} {accessType : BusAccessType}
    {addr : RvUintXlen w} {value : List Byte} {len : Nat} :
    Returns (mmuCheckedBusAccess busAccess s accessType addr value len) ↔
      AccessServed busAccess serves s accessType addr value len := by
  rw [mmuCheckedBusAccess, AccessServed, Except.returns_bind_iff,
    mmuVirtToPhys_returns_iff hserves]
  refine and_congr_right fun _ => ?_
  constructor
  · intro h phys s₁ htrans
    exact (pmpCheckedBusAccess_returns_iff hserves).mp (h _ htrans)
  · rintro h ⟨physAddr, s₁⟩ htrans
    cases physAddr with
    | none => exact Except.returns_ok _
    | some phys => exact (pmpCheckedBusAccess_returns_iff hserves).mpr (h phys s₁ htrans)

/-! ### Instructions -/

theorem load_returns_iff {len : Nat} {ext : BitVec (8 * len) → RvUintXlen w} {s : RvCore w σ} :
    Returns (load busAccess len ext s) ↔
      AccessServed busAccess serves s .read (effectiveAddress s) (leBytes len 0) len := by
  rw [load, ← mmuCheckedBusAccess_returns_iff hserves, ← liftM_returns_iff]
  refine Except.returns_bind_of_returns ?_
  rintro ⟨ret, bytes, s₁⟩ -
  simp only
  split
  · exact Except.returns_ok _
  · exact Except.returns_ok _

theorem store_returns_iff {len : Nat} {s : RvCore w σ} :
    Returns (store busAccess len s) ↔
      AccessServed busAccess serves s .write (effectiveAddress s)
        (leBytes len (s.x s.rs2).toNat) len := by
  rw [store, ← mmuCheckedBusAccess_returns_iff hserves, ← liftM_returns_iff]
  exact Except.returns_bind_of_returns fun _ _ => Except.returns_pure _

theorem storeConditional_returns_iff {len : Nat} {s : RvCore w σ} :
    Returns (storeConditional (store busAccess len) s) ↔ (s.reserved →
      AccessServed busAccess serves s .write (effectiveAddress s)
        (leBytes len (s.x s.rs2).toNat) len) := by
  by_cases hs : s.reserved
  · have hcond : s.lrValid = true ∧ s.lrAddress = s.x s.rs1 := hs
    rw [storeConditional, if_pos hcond, imp_iff_right hs, ← store_returns_iff hserves]
    exact Except.returns_bind_of_returns fun _ _ => Except.returns_pure _
  · rw [storeConditional_of_not_reserved hs]
    exact iff_of_true (Except.returns_ok _) fun h => absurd h hs

theorem amo_returns_iff {len : Nat} {load : Handler w σ} {op : RvUintXlen w → RvUintXlen w → Nat}
    {s : RvCore w σ} :
    Returns (amo busAccess len load op s) ↔ Returns (load s) ∧ ∀ m, load s = .ok m →
      AccessServed busAccess serves m .write (s.x s.rs1)
        (leBytes len (op (m.x m.rd) (s.x s.rs2))) len := by
  rw [amo, Except.returns_bind_iff]
  refine and_congr_right fun _ => forall_congr' fun m => imp_congr_right fun _ => ?_
  rw [← mmuCheckedBusAccess_returns_iff hserves, ← liftM_returns_iff]
  exact Except.returns_bind_of_returns fun _ _ => Except.returns_pure _

end Accesses

section Instructions

variable (busAccess : BusAccessFunc w σ)
  (serves : σ → BusAccessType → RvUintXlen w → List Byte → Nat → Prop)

/-- The condition under which the instruction comes to its end: by completing, or by
raising a trap. -/
def ExecutionCb.Ends (cb : ExecutionCb) (d : RvCore w σ) : Prop :=
  match cb.kind with
  | .compute => cb.TargetAligned d
  | .ecall => True
  | .csrWrite | .csrModify => d.csrAddr < csrAddrMax
  | .xret _ => d.currPrivMode.Legal
  | .hang => False
  | .load => AccessServed busAccess serves d .read (effectiveAddress d) (leBytes cb.accessLen 0)
      cb.accessLen
  | .loadReserved => AccessServed busAccess serves d.reserve .read (effectiveAddress d)
      (leBytes cb.accessLen 0) cb.accessLen
  | .store => AccessServed busAccess serves d .write (effectiveAddress d)
      (leBytes cb.accessLen (d.x d.rs2).toNat) cb.accessLen
  | .storeConditional => d.reserved → AccessServed busAccess serves d .write (effectiveAddress d)
      (leBytes cb.accessLen (d.x d.rs2).toNat) cb.accessLen
  | .amo =>
      AccessServed busAccess serves d .read (effectiveAddress d) (leBytes cb.accessLen 0)
        cb.accessLen ∧
      ∀ op m, cb.handler busAccess = amo busAccess cb.accessLen (cb.amoLoad busAccess) op →
        cb.amoLoad busAccess d = .ok m →
          AccessServed busAccess serves m .write (d.x d.rs1)
            (leBytes cb.accessLen (op (m.x m.rd) (d.x d.rs2))) cb.accessLen

/-- The condition for the whole call: the fetch is answered, and the instruction that is
executed, if one is, comes to its end. -/
def RvCore.Ends (s : RvCore w σ) : Prop :=
  AccessServed busAccess serves s.atFetch .instr s.pc (instructionBytes s.atFetch) w.bytes ∧
    ∀ cb d, Executes busAccess s cb d → cb.Ends busAccess serves d

variable {busAccess serves}
  (hserves : ∀ priv privLevel accessType addr value len,
    Returns (busAccess priv privLevel accessType addr value len) ↔
      serves priv accessType addr value len)

include hserves

theorem handler_returns_iff {cb : ExecutionCb} {d : RvCore w σ} :
    Returns (cb.handler busAccess d) ↔ cb.Ends busAccess serves d := by
  rw [ExecutionCb.Ends]
  cases hk : cb.kind with
  | compute => exact handler_compute_returns_iff busAccess hk
  | ecall =>
      rw [handler_ecall busAccess hk]
      exact iff_of_true (Except.returns_ok _) trivial
  | csrWrite =>
      rw [handler_csrWrite busAccess hk]
      exact csrrwx_returns_iff
  | csrModify =>
      obtain ⟨merge, -, -, heq⟩ := handler_csrModify busAccess hk
      rw [heq]
      exact csrrReadModifyWrite_returns_iff
  | xret level =>
      rw [handler_xret busAccess hk]
      exact xret_returns_iff
  | hang =>
      rw [handler_hang busAccess hk]
      exact iff_of_false (Except.not_returns_error _) not_false
  | load =>
      obtain ⟨ext, hload⟩ := handler_load busAccess hk
      rw [hload]
      exact load_returns_iff hserves
  | loadReserved =>
      obtain ⟨ext, hload⟩ := handler_loadReserved busAccess hk
      rw [hload, loadReserved_eq]
      exact load_returns_iff hserves
  | store =>
      rw [handler_store busAccess hk]
      exact store_returns_iff hserves
  | storeConditional =>
      rw [handler_storeConditional busAccess hk]
      exact storeConditional_returns_iff hserves
  | amo =>
      obtain ⟨ext, hload⟩ := amoLoad_eq busAccess hk
      constructor
      · intro h
        have hparts (op) (hop : cb.handler busAccess =
            amo busAccess cb.accessLen (cb.amoLoad busAccess) op) := by
          have h' := h
          rw [hop, amo_returns_iff hserves] at h'
          exact h'
        obtain ⟨op, hamo⟩ := handler_amo busAccess hk
        refine ⟨?_, fun op m hop hm => (hparts op hop).2 m hm⟩
        have hread := (hparts op hamo).1
        rw [hload] at hread
        exact (load_returns_iff hserves).mp hread
      · rintro ⟨hread, hwrite⟩
        obtain ⟨op, hamo⟩ := handler_amo busAccess hk
        rw [hamo, amo_returns_iff hserves]
        refine ⟨?_, fun m hm => hwrite op m hamo hm⟩
        rw [hload]
        exact (load_returns_iff hserves).mpr hread

/-- A call on an instruction that the decoder accepts returns just under the condition. -/
theorem rvCoreRun_returns_iff {s : RvCore w σ}
    (haccept : ∀ f, rvCoreFetch busAccess s.atFetch = .ok (.ok, f) →
      searchWord w f.instruction ≠ none) :
    Returns (rvCoreRun busAccess s) ↔ s.Ends busAccess serves := by
  rw [RvCore.Ends, ← mmuCheckedBusAccess_returns_iff hserves]
  constructor
  · rintro ⟨s', hrun⟩
    constructor
    · have hfetch : Returns (rvCoreFetch busAccess s.atFetch) := by
        rcases rvCoreRun_cases hrun with ⟨f, hfetch, -⟩ | ⟨cb, d, e, ⟨f, hfetch, -⟩, -, -⟩
        · exact ⟨_, hfetch⟩
        · exact ⟨_, hfetch⟩
      obtain ⟨⟨ret, f⟩, hfetch⟩ := hfetch
      obtain ⟨bytes, s₁, haccess, -⟩ := rvCoreFetch_eq_ok.mp hfetch
      exact ⟨_, haccess⟩
    · intro cb d hexec
      obtain ⟨e, hhandler, -⟩ := hexec.handler_of_run hrun
      exact (handler_returns_iff hserves).mp ⟨e, hhandler⟩
  · rintro ⟨⟨⟨ret, bytes, s₁⟩, haccess⟩, hends⟩
    have hfetch : rvCoreFetch busAccess s.atFetch = .ok (ret, storeInstruction s₁ bytes) :=
      rvCoreFetch_eq_ok.mpr ⟨bytes, s₁, haccess, rfl⟩
    cases ret with
    | err =>
        rw [rvCoreRun_of_refused hfetch]
        exact Except.returns_ok _
    | ok =>
        -- a word that is fetched is one that the decoder accepts
        obtain ⟨cb, hcb⟩ := Option.ne_none_iff_exists'.mp (haccept _ hfetch)
        obtain ⟨d, _, hdecode, hexec, -, -⟩ := rvCoreDecode_of_search hcb
        have hexecutes : Executes busAccess s cb d := ⟨_, hfetch, hdecode, hexec⟩
        obtain ⟨e, hhandler⟩ := (handler_returns_iff hserves).mpr (hends cb d hexecutes)
        exact ⟨_, hexecutes.run hhandler⟩

end Instructions

end RiscvEm
