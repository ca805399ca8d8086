import RiscvEm.Core.Indifference
import RiscvEm.Lib.Except
import RiscvEm.Pmp.Decision

/-!
Two runs of the core that differ in what is behind `priv`, and in the bus: as long as the
buses answer alike the accesses that the PMP grants, the runs go alike. What the buses do
with the other accesses does not matter.
-/

namespace RiscvEm

open Except (Alike)

variable {w : Xlen} {σ : Type}

/-! ### Accesses that reach the bus -/

def RvCore.dataMode (s : RvCore w σ) : PrivilegeLevel := checkMprvOverride s .read

/-- The core can make the access: it has one of the lengths of the instructions and one of
the two modes of the core, and the PMP grants it. -/
structure RvCore.Reaches (s : RvCore w σ) (privLevel : PrivilegeLevel)
    (accessType : BusAccessType) (addr : RvUintXlen w) (len : Nat) : Prop where
  length : 0 < len ∧ len ≤ 8
  mode : privLevel = s.currPrivMode ∨ privLevel = s.dataMode
  granted : pmpMemCheck s.pmp privLevel addr len accessType = .ok

theorem checkMprvOverride_mode (s : RvCore w σ) (accessType : BusAccessType) :
    checkMprvOverride s accessType = s.currPrivMode ∨
      checkMprvOverride s accessType = s.dataMode := by
  cases accessType with
  | instr => exact .inl rfl
  | read => exact .inr rfl
  | write => exact .inr rfl

def SameRights (s s' : RvCore w σ) : Prop :=
  s'.currPrivMode = s.currPrivMode ∧ s'.trap = s.trap ∧ s'.pmp = s.pmp

theorem SameRights.dataMode {s s' : RvCore w σ} (h : SameRights s s') :
    s'.dataMode = s.dataMode := by
  obtain ⟨hmode, htrap, -⟩ := h
  simp only [RvCore.dataMode, checkMprvOverride, RvCore.status, hmode, htrap]

theorem SameRights.reaches {s s' : RvCore w σ} (h : SameRights s s') {p : PrivilegeLevel}
    {t : BusAccessType} {addr : RvUintXlen w} {len : Nat} (hreach : s'.Reaches p t addr len) :
    s.Reaches p t addr len := by
  obtain ⟨hlen, hp, hgrant⟩ := hreach
  rw [h.1, h.dataMode] at hp
  rw [h.2.2] at hgrant
  exact ⟨hlen, hp, hgrant⟩

theorem SameRights.mode {s s' : RvCore w σ} (h : SameRights s s') {p : PrivilegeLevel}
    (hp : p = s.currPrivMode ∨ p = s.dataMode) : p = s'.currPrivMode ∨ p = s'.dataMode := by
  rw [h.1, h.dataMode]
  exact hp

theorem SetupFrame.rights {s s' : RvCore w σ} (h : SetupFrame s s') : SameRights s s' := by
  rw [h]
  exact ⟨rfl, rfl, rfl⟩

theorem MemoryFrame.rights {s s' : RvCore w σ} (h : MemoryFrame s s') : SameRights s s' := by
  rw [h]
  exact ⟨rfl, rfl, rfl⟩

/-- The buses answer alike, in related states, what the core can reach. -/
def BusAlike (R : σ → σ → Prop) (s : RvCore w σ) (busAccess busAccess' : BusAccessFunc w σ) :
    Prop :=
  ∀ a b p t addr value len, R a b → s.Reaches p t addr len →
    Alike (fun r r' => r'.1 = r.1 ∧ r'.2.1 = r.2.1 ∧ R r.2.2 r'.2.2)
      (busAccess a p t addr value len) (busAccess' b p t addr value len)

theorem BusAlike.of_rights {R : σ → σ → Prop} {s s' : RvCore w σ}
    {busAccess busAccess' : BusAccessFunc w σ} (h : BusAlike R s busAccess busAccess')
    (hrights : SameRights s s') : BusAlike R s' busAccess busAccess' :=
  fun a b p t addr value len hab hreach =>
    h a b p t addr value len hab (hrights.reaches hreach)

/-! ### Related states -/

/-- The states differ at most behind `priv`, where they are related. -/
structure Beside (R : σ → σ → Prop) (s s' : RvCore w σ) : Prop where
  core : s' = s.withPriv s'.priv
  priv : R s.priv s'.priv

theorem Beside.exists_priv {R : σ → σ → Prop} {s s' : RvCore w σ} (h : Beside R s s') :
    ∃ b, R s.priv b ∧ s' = s.withPriv b := ⟨_, h.priv, h.core⟩

theorem beside_withPriv {R : σ → σ → Prop} (s : RvCore w σ) {b : σ} (h : R s.priv b) :
    Beside R s (s.withPriv b) := ⟨rfl, h⟩

/-- A routine that does not look behind `priv` goes alike on related states. -/
theorem Indifferent.alike {f : Handler w σ} (hf : Indifferent f) {R : σ → σ → Prop}
    {s s' : RvCore w σ} (h : Beside R s s') : Alike (Beside R) (f s) (f s') := by
  obtain ⟨b, hb, rfl⟩ := h.exists_priv
  rw [hf]
  refine (Except.alike_map _ _).mono fun e e' he _ heq => ?_
  subst heq
  exact beside_withPriv e (hf.priv he ▸ hb)

/-! ### Accesses -/

section Accesses

variable {R : σ → σ → Prop} {s s' : RvCore w σ} {busAccess busAccess' : BusAccessFunc w σ}

def AnswerAlike {α : Type} (R : σ → σ → Prop) (r r' : α × RvCore w σ) : Prop :=
  r'.1 = r.1 ∧ Beside R r.2 r'.2

theorem Beside.prepareSyncTrap (h : Beside R s s') (cause tval : RvUintXlen w) :
    Beside R (prepareSyncTrap s cause tval) (RiscvEm.prepareSyncTrap s' cause tval) := by
  obtain ⟨b, hb, rfl⟩ := h.exists_priv
  rw [prepareSyncTrap_withPriv]
  exact beside_withPriv _ (by rw [prepareSyncTrap_priv]; exact hb)

theorem pmpCheckedBusAccess_alike (h : Beside R s s') (hbus : BusAlike R s busAccess busAccess')
    {p : PrivilegeLevel} (hp : p = s.currPrivMode ∨ p = s.dataMode) (t : BusAccessType)
    (addr : RvUintXlen w) (value : List Byte) {len : Nat} (hlen : 0 < len ∧ len ≤ 8) :
    Alike (fun r r' => r'.1 = r.1 ∧ AnswerAlike R r.2 r'.2)
      (pmpCheckedBusAccess busAccess s p t addr value len)
      (pmpCheckedBusAccess busAccess' s' p t addr value len) := by
  obtain ⟨b, hb, rfl⟩ := h.exists_priv
  have hpmp : (s.withPriv b).pmp = s.pmp := rfl
  simp only [pmpCheckedBusAccess, hpmp]
  by_cases hgrant : pmpMemCheck s.pmp p addr len t = .err
  · rw [if_pos hgrant, if_pos hgrant]
    exact .ok ⟨rfl, rfl, h.prepareSyncTrap _ _⟩
  · rw [if_neg hgrant, if_neg hgrant]
    have hok : pmpMemCheck s.pmp p addr len t = .ok := by
      cases hret : pmpMemCheck s.pmp p addr len t with
      | ok => rfl
      | err => exact absurd hret hgrant
    refine (hbus _ _ p t addr value len hb ⟨hlen, hp, hok⟩).bind ?_
    rintro r r' - - ⟨hret, hbytes, hpriv⟩
    exact .ok ⟨hret, hbytes, rfl, hpriv⟩

theorem bytes_length : 0 < w.bytes ∧ w.bytes ≤ 8 := by
  cases w <;> decide

theorem mmuWalk_alike (h : Beside R s s') (hbus : BusAlike R s busAccess busAccess')
    {p : PrivilegeLevel} (hp : p = s.currPrivMode ∨ p = s.dataMode) (virtAddr : RvUintXlen w)
    (i : Nat) (a pte : RvUintXlen w) :
    Alike (AnswerAlike R) (mmuWalk busAccess p virtAddr i a pte s)
      (mmuWalk busAccess' p virtAddr i a pte s') := by
  induction i generalizing a pte s s' with
  | zero =>
      rw [mmuWalk.eq_def, mmuWalk.eq_def]
      refine (pmpCheckedBusAccess_alike h hbus hp _ _ _ bytes_length).bind ?_
      rintro ⟨ret, bytes, s₁⟩ ⟨ret', bytes', s₁'⟩ - - ⟨-, hbytes, h₁⟩
      obtain rfl : bytes = bytes' := hbytes.symm
      simp only
      split
      · exact .ok ⟨rfl, h₁⟩
      · split
        · exact .ok ⟨rfl, h₁⟩
        · exact .ok ⟨rfl, h₁⟩
  | succ i ih =>
      rw [mmuWalk.eq_def, mmuWalk.eq_def]
      refine (pmpCheckedBusAccess_alike h hbus hp _ _ _ bytes_length).bind ?_
      rintro ⟨ret, bytes, s₁⟩ ⟨ret', bytes', s₁'⟩ haccess - ⟨-, hbytes, h₁⟩
      obtain rfl : bytes = bytes' := hbytes.symm
      have hrights : SameRights s s₁ := (pmpCheckedBusAccess_frame haccess).memory.rights
      have hp₁ : p = s₁.currPrivMode ∨ p = s₁.dataMode := hrights.mode hp
      simp only
      split
      · exact .ok ⟨rfl, h₁⟩
      · split
        · exact .ok ⟨rfl, h₁⟩
        · exact ih h₁ (hbus.of_rights hrights) hp₁ _ _

theorem mmuVirtToPhys_alike (h : Beside R s s') (hbus : BusAlike R s busAccess busAccess')
    {p : PrivilegeLevel} (hp : p = s.currPrivMode ∨ p = s.dataMode) (virtAddr : RvUintXlen w)
    (t : BusAccessType) (mxr sum : Bool) :
    Alike (AnswerAlike R) (mmuVirtToPhys busAccess s p virtAddr t mxr sum)
      (mmuVirtToPhys busAccess' s' p virtAddr t mxr sum) := by
  have hmmu : s'.mmu = s.mmu := by rw [h.core]; rfl
  simp only [mmuVirtToPhys, hmmu]
  split
  · exact .ok ⟨rfl, h⟩
  · refine (mmuWalk_alike h hbus hp virtAddr _ _ _).bind ?_
    rintro ⟨leaf, s₁⟩ ⟨leaf', s₁'⟩ - - ⟨hleaf, h₁⟩
    obtain rfl : leaf = leaf' := hleaf.symm
    cases leaf with
    | none => exact .ok ⟨rfl, h₁⟩
    | some l =>
        simp only
        cases mmuLeaf p virtAddr t mxr sum l.1 l.2 with
        | none => exact .ok ⟨rfl, h₁⟩
        | some phys =>
            simp only
            split
            · obtain ⟨b, hb, rfl⟩ := h₁.exists_priv
              exact .ok ⟨rfl, rfl, hb⟩
            · exact .ok ⟨rfl, h₁⟩

theorem mmuCheckedBusAccess_alike (h : Beside R s s') (hbus : BusAlike R s busAccess busAccess')
    (t : BusAccessType) (addr : RvUintXlen w) (value : List Byte) {len : Nat}
    (hlen : 0 < len ∧ len ≤ 8) :
    Alike (fun r r' => r'.1 = r.1 ∧ AnswerAlike R r.2 r'.2)
      (mmuCheckedBusAccess busAccess s t addr value len)
      (mmuCheckedBusAccess busAccess' s' t addr value len) := by
  have hmode : checkMprvOverride s' t = checkMprvOverride s t := by rw [h.core]; rfl
  have hstatus : s'.status = s.status := by rw [h.core]; rfl
  have hp := checkMprvOverride_mode s t
  simp only [mmuCheckedBusAccess, hmode, hstatus]
  refine (mmuVirtToPhys_alike h hbus hp addr t _ _).bind ?_
  rintro ⟨physAddr, s₁⟩ ⟨physAddr', s₁'⟩ htrans - ⟨hphys, h₁⟩
  obtain rfl : physAddr = physAddr' := hphys.symm
  have hrights : SameRights s s₁ := (mmuVirtToPhys_frame htrans).memory.rights
  cases physAddr with
  | none => exact .ok ⟨rfl, rfl, h₁.prepareSyncTrap _ _⟩
  | some physAddr =>
      exact pmpCheckedBusAccess_alike h₁ (hbus.of_rights hrights) (hrights.mode hp) _ _ _ hlen

end Accesses

/-! ### Instructions -/

section Instructions

variable {R : σ → σ → Prop} {s s' : RvCore w σ} {busAccess busAccess' : BusAccessFunc w σ}

theorem Beside.setX (h : Beside R s s') (r : RegIndex) (v : RvUintXlen w) :
    Beside R (s.setX r v) (s'.setX r v) := by
  obtain ⟨b, hb, rfl⟩ := h.exists_priv
  exact ⟨rfl, hb⟩

theorem accessLen_length (cb : ExecutionCb) : 0 < cb.accessLen ∧ cb.accessLen ≤ 8 := by
  cases cb <;> decide

theorem load_alike (h : Beside R s s') (hbus : BusAlike R s busAccess busAccess') {len : Nat}
    (hlen : 0 < len ∧ len ≤ 8) (ext : BitVec (8 * len) → RvUintXlen w) :
    Alike (Beside R) (load busAccess len ext s) (load busAccess' len ext s') := by
  have haddr : effectiveAddress s' = effectiveAddress s := by rw [h.core]; rfl
  simp only [load, haddr]
  refine ((mmuCheckedBusAccess_alike h hbus .read _ _ hlen).mapError Stop.halt).bind ?_
  rintro ⟨ret, bytes, s₁⟩ ⟨ret', bytes', s₁'⟩ - - ⟨hret, hbytes, h₁⟩
  obtain rfl : ret = ret' := hret.symm
  obtain rfl : bytes = bytes' := hbytes.symm
  replace h₁ : Beside R s₁ s₁' := h₁
  have hrd : s₁'.rd = s₁.rd := by rw [h₁.core]; rfl
  simp only [hrd]
  split
  · exact .ok (Beside.setX h₁ _ _)
  · exact .ok h₁

theorem store_alike (h : Beside R s s') (hbus : BusAlike R s busAccess busAccess') {len : Nat}
    (hlen : 0 < len ∧ len ≤ 8) :
    Alike (Beside R) (store busAccess len s) (store busAccess' len s') := by
  have haddr : effectiveAddress s' = effectiveAddress s := by rw [h.core]; rfl
  have hvalue : s'.x s'.rs2 = s.x s.rs2 := by rw [h.core]; rfl
  simp only [store, haddr, hvalue]
  refine ((mmuCheckedBusAccess_alike h hbus .write _ _ hlen).mapError Stop.halt).bind ?_
  rintro r r' - - ⟨-, -, h₁⟩
  exact .ok h₁

theorem storeConditional_alike (h : Beside R s s') (hbus : BusAlike R s busAccess busAccess')
    {len : Nat} (hlen : 0 < len ∧ len ≤ 8) :
    Alike (Beside R) (storeConditional (store busAccess len) s)
      (storeConditional (store busAccess' len) s') := by
  have hreserved : s'.reserved ↔ s.reserved := by rw [h.core]; rfl
  by_cases hs : s.reserved
  · have hs' := hreserved.mpr hs
    rw [RvCore.reserved] at hs hs'
    simp only [storeConditional, if_pos hs, if_pos hs']
    refine (store_alike h hbus hlen).bind fun e e' _ _ he => ?_
    obtain ⟨b, hb, rfl⟩ := he.exists_priv
    exact .ok ⟨rfl, hb⟩
  · rw [storeConditional_of_not_reserved hs,
      storeConditional_of_not_reserved (fun hs' => hs (hreserved.mp hs'))]
    obtain ⟨b, hb, rfl⟩ := h.exists_priv
    exact .ok ⟨rfl, hb⟩

theorem amo_alike (h : Beside R s s') (hbus : BusAlike R s busAccess busAccess') {len : Nat}
    (hlen : 0 < len ∧ len ≤ 8) (ext : BitVec (8 * len) → RvUintXlen w)
    (op : RvUintXlen w → RvUintXlen w → Nat) :
    Alike (Beside R) (amo busAccess len (load busAccess len ext) op s)
      (amo busAccess' len (load busAccess' len ext) op s') := by
  have haddr : s'.x s'.rs1 = s.x s.rs1 := by rw [h.core]; rfl
  have hsrc : s'.x s'.rs2 = s.x s.rs2 := by rw [h.core]; rfl
  simp only [amo, haddr, hsrc]
  refine (load_alike h hbus hlen ext).bind ?_
  intro s₁ s₁' hload _ h₁
  have hvalue : s₁'.x s₁'.rd = s₁.x s₁.rd := by rw [h₁.core]; rfl
  have hbus₁ := hbus.of_rights (load_frame hload).rights
  rw [hvalue]
  refine ((mmuCheckedBusAccess_alike h₁ hbus₁ .write _ _ hlen).mapError Stop.halt).bind ?_
  rintro r r' - - ⟨-, -, h₂⟩
  exact .ok h₂

/-! The shapes of the handlers are the same on every bus. -/

theorem handler_load_ext {cb : ExecutionCb} (hcb : cb.kind = .load) :
    ∃ ext, ∀ bus : BusAccessFunc w σ, cb.handler bus = load bus cb.accessLen ext := by
  cases cb <;> first
    | (cases hcb; done)
    | exact ⟨_, fun bus => by rw [ExecutionCb.handler]; rfl⟩

theorem handler_loadReserved_ext {cb : ExecutionCb} (hcb : cb.kind = .loadReserved) :
    ∃ ext, ∀ bus : BusAccessFunc w σ,
      cb.handler bus = loadReserved (load bus cb.accessLen ext) := by
  cases cb <;> first
    | (cases hcb; done)
    | exact ⟨_, fun bus => by rw [ExecutionCb.handler]; rfl⟩

theorem amoW_ext (op : BitVec 32 → BitVec 32 → BitVec 32) :
    ∃ ext op', ∀ bus : BusAccessFunc w σ, amoW bus op = amo bus 4 (load bus 4 ext) op' :=
  ⟨_, _, fun _ => rfl⟩

theorem amoD_ext (op : RvUintXlen w → RvUintXlen w → RvUintXlen w) :
    ∃ ext op', ∀ bus : BusAccessFunc w σ, amoD bus op = amo bus 8 (load bus 8 ext) op' :=
  ⟨_, _, fun _ => rfl⟩

theorem handler_amo_ext {cb : ExecutionCb} (hcb : cb.kind = .amo) :
    ∃ ext op, ∀ bus : BusAccessFunc w σ,
      cb.handler bus = amo bus cb.accessLen (load bus cb.accessLen ext) op := by
  cases cb <;> first
    | (cases hcb; done)
    | simp only [ExecutionCb.handler, ExecutionCb.accessLen, instrAmoswapW, instrAmoaddW,
        instrAmoxorW, instrAmoandW, instrAmoorW, instrAmominW, instrAmomaxW, instrAmominuW,
        instrAmomaxuW, instrAmoswapD, instrAmoaddD, instrAmoxorD, instrAmoandD, instrAmoorD,
        instrAmominD, instrAmomaxD, instrAmominuD, instrAmomaxuD]
  all_goals first
    | exact amoW_ext _
    | exact amoD_ext _

theorem handler_alike (h : Beside R s s') (hbus : BusAlike R s busAccess busAccess')
    (cb : ExecutionCb) : Alike (Beside R) (cb.handler busAccess s) (cb.handler busAccess' s') := by
  cases hmemory : cb.kind.memory with
  | false =>
      rw [handler_bus busAccess busAccess' hmemory]
      exact (indifferent_handler busAccess hmemory).alike h
  | true =>
      cases hk : cb.kind with
      | load =>
          obtain ⟨ext, hload⟩ := handler_load_ext hk
          rw [hload, hload]
          exact load_alike h hbus (accessLen_length cb) ext
      | store =>
          rw [handler_store busAccess hk, handler_store busAccess' hk]
          exact store_alike h hbus (accessLen_length cb)
      | loadReserved =>
          obtain ⟨ext, hload⟩ := handler_loadReserved_ext hk
          rw [hload, hload]
          have hreserve : Beside R s.reserve s'.reserve := by
            obtain ⟨b, hb, rfl⟩ := h.exists_priv
            exact ⟨rfl, hb⟩
          exact load_alike hreserve (hbus.of_rights ⟨rfl, rfl, rfl⟩) (accessLen_length cb) ext
      | storeConditional =>
          rw [handler_storeConditional busAccess hk, handler_storeConditional busAccess' hk]
          exact storeConditional_alike h hbus (accessLen_length cb)
      | amo =>
          obtain ⟨ext, op, hamo⟩ := handler_amo_ext hk
          rw [hamo, hamo]
          exact amo_alike h hbus (accessLen_length cb) ext op
      | _ => simp [hk, HandlerKind.memory] at hmemory

/-! ### Calls -/

theorem rvCoreFetch_alike (h : Beside R s s') (hbus : BusAlike R s busAccess busAccess') :
    Alike (AnswerAlike R) (rvCoreFetch busAccess s) (rvCoreFetch busAccess' s') := by
  obtain ⟨b, hb, rfl⟩ := h.exists_priv
  have hbytes : instructionBytes (s.withPriv b) = instructionBytes s := by cases w <;> rfl
  have hpc : (s.withPriv b).pc = s.pc := rfl
  simp only [rvCoreFetch, hbytes, hpc]
  refine ((mmuCheckedBusAccess_alike h hbus .instr _ _ bytes_length).mapError Stop.halt).bind ?_
  rintro ⟨ret, bytes, s₁⟩ ⟨ret', bytes', s₁'⟩ - - ⟨hret, hbytes, h₁⟩
  obtain rfl : bytes = bytes' := hbytes.symm
  replace h₁ : Beside R s₁ s₁' := h₁
  obtain ⟨b₁, hb₁, rfl⟩ := h₁.exists_priv
  refine .ok ⟨hret, ?_⟩
  have hstore : storeInstruction (s₁.withPriv b₁) bytes =
      (storeInstruction s₁ bytes).withPriv b₁ := by cases w <;> rfl
  rw [hstore]
  exact beside_withPriv _ (by rw [storeInstruction_priv]; exact hb₁)

/-- One call goes alike on two buses that answer alike what the PMP grants. -/
theorem rvCoreRun_alike (h : Beside R s s') (hbus : BusAlike R s busAccess busAccess') :
    Alike (Beside R) (rvCoreRun busAccess s) (rvCoreRun busAccess' s') := by
  obtain ⟨b, hb, rfl⟩ := h.exists_priv
  have hstart : Beside R s.atFetch (s.withPriv b).atFetch := ⟨rfl, hb⟩
  have hbus₀ : BusAlike R s.atFetch busAccess busAccess' := hbus.of_rights ⟨rfl, rfl, rfl⟩
  rw [rvCoreRun, rvCoreRun]
  refine (rvCoreFetch_alike hstart hbus₀).bind ?_
  rintro ⟨ret, f⟩ ⟨ret', f'⟩ hfetch - ⟨hret, hf⟩
  obtain rfl : ret = ret' := hret.symm
  replace hf : Beside R f f' := hf
  have hadvance {e e' : RvCore w σ} (he : Beside R e e') : Beside R (advance e) (advance e') := by
    obtain ⟨b, hb, rfl⟩ := he.exists_priv
    exact ⟨rfl, hb⟩
  have hrights : SameRights s.atFetch f := (rvCoreFetch_frame hfetch).rights
  by_cases hok : ret = .ok
  · simp only [if_pos hok]
    refine (indifferent_rvCoreDecode.alike hf).bind fun d d' hdecode _ hd => ?_
    refine Alike.bind (R := Beside R) ?_ fun e e' _ _ he => .ok (hadvance he)
    have hbus' := (hbus₀.of_rights hrights).of_rights (rvCoreDecode_frame hdecode).setup.rights
    have hcb : d'.executeCb = d.executeCb := by rw [hd.core]; rfl
    rw [rvCoreExecute, rvCoreExecute, hcb]
    cases d.executeCb with
    | none => exact .error _
    | some cb => exact (handler_alike hd hbus' cb).bind fun e e' _ _ he => .ok (he.setX 0 0)
  · simp only [if_neg hok]
    exact .ok (hadvance hf)

end Instructions

/-! ### One bus -/

section OneBus

variable {s s' : RvCore w σ} {busAccess busAccess' : BusAccessFunc w σ}

theorem alike_eq_beside {x y : Except Stop (RvCore w σ)} (h : Alike (Beside Eq) x y) : x = y := by
  refine (h.mono fun a b _ _ hab => ?_).eq
  rw [hab.core, ← hab.priv]
  rfl

/-- A property of what is behind `priv` that the granted accesses keep is kept by a call. -/
theorem rvCoreRun_keeps {Q : σ → Prop}
    (hbus : ∀ a p t addr value len r, Q a → s.Reaches p t addr len →
      busAccess a p t addr value len = .ok r → Q r.2.2)
    (hs : Q s.priv) (h : rvCoreRun busAccess s = .ok s') : Q s'.priv := by
  have hself : BusAlike (fun a b => b = a ∧ Q a) s busAccess busAccess := by
    rintro a b p t addr value len ⟨rfl, ha⟩ hreach
    exact Except.alike_self fun r hr => ⟨rfl, rfl, rfl, hbus _ p t addr value len r ha hreach hr⟩
  have hstart : Beside (fun a b => b = a ∧ Q a) s s := ⟨rfl, rfl, hs⟩
  obtain ⟨t, -, hrelated⟩ := (rvCoreRun_alike hstart hself).exists_of_ok h
  exact hrelated.priv.2

/-- What the bus does with the accesses that the PMP refuses does not matter: a call takes
the same course on every two buses that agree on the accesses that the core can make. -/
theorem refused_accesses_irrelevant
    (hbus : ∀ a p t addr value len, s.Reaches p t addr len →
      busAccess a p t addr value len = busAccess' a p t addr value len) :
    rvCoreRun busAccess s = rvCoreRun busAccess' s := by
  refine alike_eq_beside (rvCoreRun_alike ⟨rfl, rfl⟩ ?_)
  rintro a b p t addr value len rfl hreach
  rw [hbus a p t addr value len hreach]
  exact Except.alike_self fun r _ => ⟨rfl, rfl, rfl⟩

end OneBus

/-- User mode where the core starts, with the first word of the memory to itself. -/
def oneWordUser : RvCore .rv32 Unit :=
  { (rvCoreInit () : RvCore .rv32 Unit) with
    currPrivMode := .user
    pmp := { cfg := Function.update (fun _ => 0) 0 0x17, addr := fun _ => 0x400 } }

theorem oneWordUser_reaches {p : PrivilegeLevel} {t : BusAccessType} {addr : RvUintXlen .rv32}
    {len : Nat} (h : oneWordUser.Reaches p t addr len) : addr.toNat < 0x1004 := by
  have hp : p ≠ .machine := by
    rcases h.mode with rfl | rfl <;> decide
  obtain ⟨i, ⟨⟨hon, -⟩, -⟩, ⟨hfirst, -⟩, -⟩ :=
    (pmpMemCheck_eq_ok_iff oneWordUser.pmp hp addr len t).mp h.granted
  have hentry : ∀ i : Fin 16, addrMode (oneWordUser.pmp.cfg i) ≠ .off → i = 0 := by decide
  obtain rfl := hentry i hon
  rw [WordWithin, show addrMode (oneWordUser.pmp.cfg 0) = .na4 by decide] at hfirst
  have hend : (0x1000#32 + 4#32).toNat = 0x1004 := rfl
  exact ((addrWithin_iff rfl hend).mp hfirst).2

/-- A second program that differs from its second word on. -/
theorem refused_accesses_irrelevant_word :
    rvCoreRun (romBus [0x02A00093]) oneWordUser =
      rvCoreRun (romBus [0x02A00093, 0x00200073, 0x30200073]) oneWordUser := by
  refine refused_accesses_irrelevant fun a p t addr value len hreach => ?_
  have hlow := oneWordUser_reaches hreach
  have hindex : (addr.toNat - mromBaseAddr) / 4 = 0 := by
    rw [mromBaseAddr]
    omega
  simp only [romBus, hindex, List.getD_cons_zero]

end RiscvEm
