import Mathlib.Order.Defs.Unbundled
import RiscvEm.Core.Reach

/-!
What a call does behind `priv`: page-table reads, the fetch and the accesses of the
instruction are all that reaches there, so that a preorder which these accesses respect
relates the states before and after.
-/

namespace RiscvEm

variable {w : Xlen} {σ : Type}

/-- The accesses of this kind and length that the bus answers respect the relation. -/
def Respects (busAccess : BusAccessFunc w σ) (R : σ → σ → Prop) (accessType : BusAccessType)
    (len : Nat) : Prop :=
  ∀ priv privLevel addr value r,
    busAccess priv privLevel accessType addr value len = .ok r → R priv r.2.2

section Accesses

variable {busAccess : BusAccessFunc w σ} {R : σ → σ → Prop} [IsPreorder σ R] {s s' : RvCore w σ}

theorem pmpCheckedBusAccess_behind {privLevel : PrivilegeLevel} {accessType : BusAccessType}
    {addr : RvUintXlen w} {value value' : List Byte} {len : Nat} {ret : RvRet}
    (haccess : Respects busAccess R accessType len)
    (h : pmpCheckedBusAccess busAccess s privLevel accessType addr value len =
      .ok (ret, value', s')) : R s.priv s'.priv := by
  rcases pmpCheckedBusAccess_cases h with ⟨-, -, -, rfl⟩ | ⟨-, hbus, -⟩
  · rw [prepareSyncTrap_priv]
    exact refl_of R s.priv
  · exact haccess _ _ _ _ _ hbus

variable (htable : Respects busAccess R .read w.bytes)

include htable

theorem mmuWalk_behind {currPriv : PrivilegeLevel} {virtAddr a pte : RvUintXlen w} {i : Nat}
    {leaf : Option (Nat × RvUintXlen w)}
    (h : mmuWalk busAccess currPriv virtAddr i a pte s = .ok (leaf, s')) :
    R s.priv s'.priv := by
  induction i generalizing a pte s with
  | zero =>
      obtain ⟨_, _, s₁, hread, hcases⟩ := mmuWalk_eq_ok h
      have hstep := pmpCheckedBusAccess_behind htable hread
      rcases hcases with ⟨-, -, rfl⟩ | ⟨-, -, -, rfl⟩ | ⟨-, -, -, -, rfl⟩ | ⟨-, -, _, hj, -⟩
      · exact hstep
      · exact hstep
      · exact hstep
      · omega
  | succ i ih =>
      obtain ⟨_, _, s₁, hread, hcases⟩ := mmuWalk_eq_ok h
      have hstep := pmpCheckedBusAccess_behind htable hread
      rcases hcases with ⟨-, -, rfl⟩ | ⟨-, -, -, rfl⟩ | ⟨-, -, -, -, rfl⟩ | ⟨-, -, _, hj, hwalk⟩
      · exact hstep
      · exact hstep
      · exact hstep
      · obtain rfl := Nat.succ.inj hj
        exact trans_of R hstep (ih hwalk)

theorem mmuVirtToPhys_behind {currPriv : PrivilegeLevel} {virtAddr : RvUintXlen w}
    {accessType : BusAccessType} {mxr sum : Bool} {physAddr : Option (BitVec 64)}
    (h : mmuVirtToPhys busAccess s currPriv virtAddr accessType mxr sum = .ok (physAddr, s')) :
    R s.priv s'.priv := by
  rcases mmuVirtToPhys_cases h with ⟨-, -, rfl⟩ | ⟨-, leaf, s₁, hwalk, -, hs'⟩
  · exact refl_of R _
  · have hstep : R s.priv s₁.priv := mmuWalk_behind htable hwalk
    rw [hs']
    exact hstep

theorem mmuCheckedBusAccess_behind {accessType : BusAccessType} {addr : RvUintXlen w}
    {value value' : List Byte} {len : Nat} {ret : RvRet}
    (haccess : Respects busAccess R accessType len)
    (h : mmuCheckedBusAccess busAccess s accessType addr value len = .ok (ret, value', s')) :
    R s.priv s'.priv := by
  obtain ⟨physAddr, s₁, htrans, ⟨-, -, -, rfl⟩ | ⟨phys, -, hphys⟩⟩ := mmuCheckedBusAccess_cases h
  · rw [prepareSyncTrap_priv]
    exact mmuVirtToPhys_behind htable htrans
  · exact trans_of R (mmuVirtToPhys_behind htable htrans) (pmpCheckedBusAccess_behind haccess hphys)

variable (hfetch : Respects busAccess R .instr w.bytes)

include hfetch

theorem rvCoreFetch_behind {ret : RvRet} (h : rvCoreFetch busAccess s = .ok (ret, s')) :
    R s.priv s'.priv := by
  obtain ⟨bytes, s₁, haccess, rfl⟩ := rvCoreFetch_eq_ok.mp h
  rw [storeInstruction_priv]
  exact mmuCheckedBusAccess_behind htable hfetch haccess

/-- The instruction is executed with what fetching it left behind `priv`. -/
theorem Executes.behind {cb : ExecutionCb} {d : RvCore w σ} (h : Executes busAccess s cb d) :
    R s.priv d.priv := by
  obtain ⟨f, hf, hdecode, -⟩ := h
  have hsame : d.priv = f.priv := by rw [rvCoreDecode_frame hdecode]
  have hstep := rvCoreFetch_behind htable hfetch hf
  rw [hsame]
  exact hstep

end Accesses

/-! ### The access of a load or a store of one byte -/

/-- The access is translated to `phys` and granted there, with `priv` behind the bus. -/
def Grants (busAccess : BusAccessFunc w σ) (s : RvCore w σ) (accessType : BusAccessType)
    (addr : RvUintXlen w) (len : Nat) (priv : σ) (phys : RvUintXlen w) : Prop :=
  ∃ physAddr s', mmuVirtToPhys busAccess s (checkMprvOverride s accessType) addr accessType
      (checkBit s.status trapXstatusMxrBit) (checkBit s.status trapXstatusSumBit) =
        .ok (some physAddr, s') ∧
    priv = s'.priv ∧ phys = physAddr.setWidth w.bits ∧
    pmpMemCheck s'.pmp (checkMprvOverride s accessType) phys len accessType = .ok

inductive ByteAccess (busAccess : BusAccessFunc w σ) (s : RvCore w σ) :
    σ → PrivilegeLevel → BusAccessType → RvUintXlen w → List Byte → Prop
  | load {cb : ExecutionCb} {d : RvCore w σ} {priv : σ} {phys : RvUintXlen w}
      (hexec : Executes busAccess s cb d) (hk : cb.kind = .load) (hlen : cb.accessLen = 1)
      (hgrant : Grants busAccess d .read (effectiveAddress d) 1 priv phys) :
      ByteAccess busAccess s priv (checkMprvOverride d .read) .read phys (leBytes 1 0)
  | store {cb : ExecutionCb} {d : RvCore w σ} {priv : σ} {phys : RvUintXlen w}
      (hexec : Executes busAccess s cb d) (hk : cb.kind = .store) (hlen : cb.accessLen = 1)
      (hgrant : Grants busAccess d .write (effectiveAddress d) 1 priv phys) :
      ByteAccess busAccess s priv (checkMprvOverride d .write) .write phys
        (leBytes 1 (d.x d.rs2).toNat)

def ExecutionCb.byteRequest (cb : ExecutionCb) (d : RvCore w σ) :
    Option (BusAccessType × List Byte) :=
  if cb.accessLen = 1 then
    match cb.kind with
    | .load => some (.read, leBytes 1 0)
    | .store => some (.write, leBytes 1 (d.x d.rs2).toNat)
    | _ => none
  else none

theorem bytes_ne_one : w.bytes ≠ 1 := by cases w <;> decide

/-- The other instructions that access memory access at least a word. -/
theorem ExecutionCb.accessLen_ne_one {cb : ExecutionCb} (h : cb.atomic = true) :
    cb.accessLen ≠ 1 := by
  cases cb <;> first | (cases h; done) | decide

section ByteAccesses

variable {busAccess : BusAccessFunc w σ} {R : σ → σ → Prop} [IsPreorder σ R] {s s' : RvCore w σ}

theorem Grants.unique {accessType : BusAccessType} {addr phys phys' : RvUintXlen w} {len : Nat}
    {priv priv' : σ} (h : Grants busAccess s accessType addr len priv phys)
    (h' : Grants busAccess s accessType addr len priv' phys') : priv' = priv ∧ phys' = phys := by
  obtain ⟨physAddr, s₁, htrans, rfl, rfl, -⟩ := h
  obtain ⟨physAddr', s₂, htrans', rfl, rfl, -⟩ := h'
  obtain ⟨hphys, rfl⟩ := Prod.mk.inj (Except.ok.inj (htrans.symm.trans htrans'))
  obtain rfl := Option.some.inj hphys
  exact ⟨rfl, rfl⟩

theorem grants_machine {d : RvCore w σ} {accessType : BusAccessType} {addr : RvUintXlen w}
    {len : Nat} (hmode : checkMprvOverride d accessType = .machine)
    (hpmp : pmpMemCheck d.pmp .machine addr len accessType = .ok) :
    Grants busAccess d accessType addr len d.priv addr := by
  have hphys : addr = (addr.setWidth 64).setWidth w.bits := by cases w <;> simp [Xlen.bits]
  refine ⟨addr.setWidth 64, d, ?_, rfl, hphys, by rw [hmode]; exact hpmp⟩
  rw [mmuVirtToPhys, if_pos (.inl hmode)]
  rfl

/-- Without a request the call makes no access of one byte. -/
theorem Executes.no_byteAccess {cb : ExecutionCb} {d : RvCore w σ}
    (hexec : Executes busAccess s cb d) (hrequest : cb.byteRequest d = none) {priv : σ}
    {privLevel : PrivilegeLevel} {accessType : BusAccessType} {phys : RvUintXlen w}
    {value : List Byte} : ¬ ByteAccess busAccess s priv privLevel accessType phys value := by
  intro h
  cases h with
  | load hexec' hk hlen =>
      obtain ⟨rfl, rfl⟩ := hexec.unique hexec'
      rw [ExecutionCb.byteRequest, if_pos hlen, hk] at hrequest
      cases hrequest
  | store hexec' hk hlen =>
      obtain ⟨rfl, rfl⟩ := hexec.unique hexec'
      rw [ExecutionCb.byteRequest, if_pos hlen, hk] at hrequest
      cases hrequest

/-- In machine mode a request that the PMP grants is made at the effective address. -/
theorem Executes.byteAccess_machine {cb : ExecutionCb} {d : RvCore w σ}
    (hexec : Executes busAccess s cb d) {accessType : BusAccessType} {value : List Byte}
    (hrequest : cb.byteRequest d = some (accessType, value))
    (hmode : checkMprvOverride d accessType = .machine)
    (hpmp : pmpMemCheck d.pmp .machine (effectiveAddress d) 1 accessType = .ok) :
    ByteAccess busAccess s d.priv (checkMprvOverride d accessType) accessType
      (effectiveAddress d) value := by
  have hgrants : Grants busAccess d accessType (effectiveAddress d) 1 d.priv
      (effectiveAddress d) := grants_machine hmode hpmp
  rw [ExecutionCb.byteRequest] at hrequest
  split at hrequest
  · next hlen =>
      split at hrequest
      · next hk =>
          obtain ⟨rfl, rfl⟩ := Prod.mk.inj (Option.some.inj hrequest)
          exact .load hexec hk hlen hgrants
      · next hk =>
          obtain ⟨rfl, rfl⟩ := Prod.mk.inj (Option.some.inj hrequest)
          exact .store hexec hk hlen hgrants
      · cases hrequest
  · cases hrequest

theorem ByteAccess.unique {priv priv' : σ} {privLevel privLevel' : PrivilegeLevel}
    {accessType accessType' : BusAccessType} {phys phys' : RvUintXlen w} {value value' : List Byte}
    (h : ByteAccess busAccess s priv privLevel accessType phys value)
    (h' : ByteAccess busAccess s priv' privLevel' accessType' phys' value') :
    priv' = priv ∧ privLevel' = privLevel ∧ accessType' = accessType ∧ phys' = phys ∧
      value' = value := by
  cases h with
  | load hexec hk hlen hgrant =>
      cases h' with
      | load hexec' hk' hlen' hgrant' =>
          obtain ⟨rfl, rfl⟩ := hexec.unique hexec'
          obtain ⟨rfl, rfl⟩ := hgrant.unique hgrant'
          exact ⟨rfl, rfl, rfl, rfl, rfl⟩
      | store hexec' hk' hlen' hgrant' =>
          obtain ⟨rfl, rfl⟩ := hexec.unique hexec'
          cases hk.symm.trans hk'
  | store hexec hk hlen hgrant =>
      cases h' with
      | load hexec' hk' hlen' hgrant' =>
          obtain ⟨rfl, rfl⟩ := hexec.unique hexec'
          cases hk.symm.trans hk'
      | store hexec' hk' hlen' hgrant' =>
          obtain ⟨rfl, rfl⟩ := hexec.unique hexec'
          obtain ⟨rfl, rfl⟩ := hgrant.unique hgrant'
          exact ⟨rfl, rfl, rfl, rfl, rfl⟩

variable (hlong : ∀ accessType len, len ≠ 1 → Respects busAccess R accessType len)

include hlong

/-- An access reaches the bus at the physical address, or it does no more than its
translation. -/
theorem mmuCheckedBusAccess_behind_cases {accessType : BusAccessType} {addr : RvUintXlen w}
    {value value' : List Byte} {len : Nat} {ret : RvRet}
    (h : mmuCheckedBusAccess busAccess s accessType addr value len = .ok (ret, value', s')) :
    ((∀ priv phys, ¬ Grants busAccess s accessType addr len priv phys) ∧ R s.priv s'.priv) ∨
      ∃ priv phys, Grants busAccess s accessType addr len priv phys ∧ R s.priv priv ∧
        busAccess priv (checkMprvOverride s accessType) accessType phys value len =
          .ok (ret, value', s'.priv) := by
  obtain ⟨physAddr, s₁, htrans, hcases⟩ := mmuCheckedBusAccess_cases h
  have hstep := mmuVirtToPhys_behind (hlong .read w.bytes bytes_ne_one) htrans
  rcases hcases with ⟨rfl, -, -, rfl⟩ | ⟨physAddr, rfl, hphys⟩
  · left
    refine ⟨?_, by rw [prepareSyncTrap_priv]; exact hstep⟩
    rintro priv phys ⟨physAddr', s₂, htrans', -⟩
    cases htrans.symm.trans htrans'
  · rcases pmpCheckedBusAccess_cases hphys with ⟨hrefused, -, -, rfl⟩ | ⟨hgrant, hbus, -⟩
    · left
      refine ⟨?_, by rw [prepareSyncTrap_priv]; exact hstep⟩
      rintro priv phys ⟨physAddr', s₂, htrans', -, rfl, hgrant⟩
      obtain ⟨hsome, rfl⟩ := Prod.mk.inj (Except.ok.inj (htrans.symm.trans htrans'))
      obtain rfl := Option.some.inj hsome
      cases hrefused.symm.trans hgrant
    · exact .inr ⟨_, _, ⟨physAddr, s₁, htrans, rfl, rfl, hgrant⟩, hstep, hbus⟩

theorem mmuCheckedBusAccess_behind_long {accessType : BusAccessType} {addr : RvUintXlen w}
    {value value' : List Byte} {len : Nat} {ret : RvRet} (hlen : len ≠ 1)
    (h : mmuCheckedBusAccess busAccess s accessType addr value len = .ok (ret, value', s')) :
    R s.priv s'.priv :=
  mmuCheckedBusAccess_behind (hlong .read w.bytes bytes_ne_one) (hlong accessType len hlen) h

/-- A load of more than one byte, or one that does not reach the bus. -/
theorem load_behind {len : Nat} {ext : BitVec (8 * len) → RvUintXlen w}
    (hquiet : len = 1 → ∀ priv phys, ¬ Grants busAccess s .read (effectiveAddress s) len priv phys)
    (h : load busAccess len ext s = .ok s') : R s.priv s'.priv := by
  obtain ⟨ret, bytes, s₁, haccess, rfl⟩ := load_eq_ok.mp h
  have hstep : R s.priv s₁.priv := by
    rcases mmuCheckedBusAccess_behind_cases hlong haccess with ⟨-, hstep⟩ | ⟨priv, phys, hgrant, -⟩
    · exact hstep
    · by_cases hlen : len = 1
      · exact absurd hgrant (hquiet hlen priv phys)
      · exact mmuCheckedBusAccess_behind_long hlong hlen haccess
  split
  · exact hstep
  · exact hstep

theorem store_behind {len : Nat}
    (hquiet : len = 1 → ∀ priv phys, ¬ Grants busAccess s .write (effectiveAddress s) len priv phys)
    (h : store busAccess len s = .ok s') : R s.priv s'.priv := by
  obtain ⟨ret, bytes, haccess⟩ := store_eq_ok.mp h
  rcases mmuCheckedBusAccess_behind_cases hlong haccess with ⟨-, hstep⟩ | ⟨priv, phys, hgrant, -⟩
  · exact hstep
  · by_cases hlen : len = 1
    · exact absurd hgrant (hquiet hlen priv phys)
    · exact mmuCheckedBusAccess_behind_long hlong hlen haccess

theorem atomicHandler_behind {cb : ExecutionCb}
    (hk : cb.kind = .loadReserved ∨ cb.kind = .storeConditional ∨ cb.kind = .amo)
    (h : cb.handler busAccess s = .ok s') : R s.priv s'.priv := by
  have hlen : cb.accessLen ≠ 1 := ExecutionCb.accessLen_ne_one (ExecutionCb.atomic_of_kind hk)
  rcases hk with hkind | hkind | hkind
  · obtain ⟨ext, heq⟩ := handler_loadReserved busAccess hkind
    rw [heq, loadReserved_eq] at h
    exact load_behind (s := s.reserve) hlong (fun hone => absurd hone hlen) h
  · rw [handler_storeConditional busAccess hkind] at h
    by_cases hreserved : s.reserved
    · obtain ⟨s₁, hs₁, rfl⟩ := storeConditional_of_reserved hreserved h
      have hstep : R s.priv s₁.priv := store_behind hlong (fun hone => absurd hone hlen) hs₁
      exact hstep
    · rw [storeConditional_of_not_reserved hreserved] at h
      obtain rfl := Except.ok.inj h
      exact refl_of R s.priv
  · obtain ⟨op, hamo⟩ := handler_amo busAccess hkind
    obtain ⟨ext, heq⟩ := amoLoad_eq busAccess hkind
    rw [hamo, heq] at h
    obtain ⟨s₁, hs₁, ret, bytes, haccess⟩ := amo_eq_ok.mp h
    have hfirst : R s.priv s₁.priv := load_behind hlong (fun hone => absurd hone hlen) hs₁
    exact trans_of R hfirst (mmuCheckedBusAccess_behind_long hlong hlen haccess)

theorem handler_behind {cb : ExecutionCb}
    (hload : cb.kind = .load → cb.accessLen = 1 →
      ∀ priv phys, ¬ Grants busAccess s .read (effectiveAddress s) cb.accessLen priv phys)
    (hstore : cb.kind = .store → cb.accessLen = 1 →
      ∀ priv phys, ¬ Grants busAccess s .write (effectiveAddress s) cb.accessLen priv phys)
    (h : cb.handler busAccess s = .ok s') : R s.priv s'.priv := by
  rcases handler_cases h with ⟨hk, -⟩ | ⟨-, newVal, hcsr⟩ | ⟨-, merge, newVal, -, hcsr⟩ |
      ⟨level, -, hxret⟩
  · cases hkind : cb.kind with
    | compute =>
        rw [handler_compute_frame busAccess hkind h]
        exact refl_of R s.priv
    | ecall =>
        rw [handler_ecall busAccess hkind] at h
        obtain rfl := Except.ok.inj h
        rw [prepareSyncTrap_priv]
        exact refl_of R s.priv
    | hang =>
        rw [handler_hang busAccess hkind] at h
        cases h
    | load =>
        obtain ⟨ext, heq⟩ := handler_load busAccess hkind
        rw [heq] at h
        exact load_behind hlong (hload hkind) h
    | store =>
        rw [handler_store busAccess hkind] at h
        exact store_behind hlong (hstore hkind) h
    | loadReserved => exact atomicHandler_behind hlong (.inl hkind) h
    | storeConditional => exact atomicHandler_behind hlong (.inr (.inl hkind)) h
    | amo => exact atomicHandler_behind hlong (.inr (.inr hkind)) h
    | csrWrite => simp [hkind, HandlerKind.system] at hk
    | csrModify => simp [hkind, HandlerKind.system] at hk
    | xret level => simp [hkind, HandlerKind.system] at hk
  · rw [csrrwx_frame hcsr]
    exact refl_of R s.priv
  · rw [csrrReadModifyWrite_frame hcsr]
    exact refl_of R s.priv
  · rw [(xret_eq_ok hxret).2]
    exact refl_of R s.priv

theorem rvCoreRun_behind
    (hquiet : ∀ priv privLevel accessType phys value,
      ¬ ByteAccess busAccess s priv privLevel accessType phys value)
    (h : rvCoreRun busAccess s = .ok s') : R s.priv s'.priv := by
  have htable := hlong .read w.bytes bytes_ne_one
  have hfetch := hlong .instr w.bytes bytes_ne_one
  rcases rvCoreRun_cases h with ⟨f, hf, rfl⟩ | ⟨cb, d, e, hexec, hhandler, rfl⟩
  · have hstep : R s.atFetch.priv f.priv := rvCoreFetch_behind htable hfetch hf
    exact hstep
  · have hstep : R d.priv e.priv := by
      refine handler_behind hlong ?_ ?_ hhandler
      · intro hk hlen priv phys hgrant
        exact hquiet _ _ _ _ _ (.load hexec hk hlen (hlen ▸ hgrant))
      · intro hk hlen priv phys hgrant
        exact hquiet _ _ _ _ _ (.store hexec hk hlen (hlen ▸ hgrant))
    exact trans_of R (hexec.behind htable hfetch) hstep

/-- A call with an access of one byte makes no other that matters. -/
theorem ByteAccess.behind {priv : σ} {privLevel : PrivilegeLevel} {accessType : BusAccessType}
    {phys : RvUintXlen w} {value : List Byte}
    (h : ByteAccess busAccess s priv privLevel accessType phys value)
    (hrun : rvCoreRun busAccess s = .ok s') :
    R s.priv priv ∧ ∃ ret bytes,
      busAccess priv privLevel accessType phys value 1 = .ok (ret, bytes, s'.priv) := by
  have htable := hlong .read w.bytes bytes_ne_one
  have hfetch := hlong .instr w.bytes bytes_ne_one
  cases h with
  | load hexec hk hlen hgrant =>
      obtain ⟨e, hhandler, rfl⟩ := hexec.handler_of_run hrun
      obtain ⟨ext, heq⟩ := handler_load busAccess hk
      rw [heq] at hhandler
      obtain ⟨ret, bytes, s₁, haccess, rfl⟩ := load_eq_ok.mp hhandler
      rw [hlen] at haccess
      rcases mmuCheckedBusAccess_behind_cases hlong haccess with
        ⟨hnone, -⟩ | ⟨p, a, hgrant', hstep, hbus⟩
      · exact absurd hgrant (hnone _ _)
      · obtain ⟨rfl, rfl⟩ := hgrant.unique hgrant'
        refine ⟨trans_of R (hexec.behind htable hfetch) hstep, ret, bytes, ?_⟩
        rw [hbus]
        split <;> rfl
  | store hexec hk hlen hgrant =>
      obtain ⟨e, hhandler, rfl⟩ := hexec.handler_of_run hrun
      rw [handler_store busAccess hk, hlen] at hhandler
      obtain ⟨ret, bytes, haccess⟩ := store_eq_ok.mp hhandler
      rcases mmuCheckedBusAccess_behind_cases hlong haccess with
        ⟨hnone, -⟩ | ⟨p, a, hgrant', hstep, hbus⟩
      · exact absurd hgrant (hnone _ _)
      · obtain ⟨rfl, rfl⟩ := hgrant.unique hgrant'
        exact ⟨trans_of R (hexec.behind htable hfetch) hstep, ret, bytes, hbus⟩

omit hlong in
theorem rvCoreRun_behind_all (hall : ∀ accessType len, Respects busAccess R accessType len)
    (h : rvCoreRun busAccess s = .ok s') : R s.priv s'.priv := by
  have hlong : ∀ accessType len, len ≠ 1 → Respects busAccess R accessType len :=
    fun accessType len _ => hall accessType len
  by_cases hbyte : ∃ priv privLevel accessType phys value,
      ByteAccess busAccess s priv privLevel accessType phys value
  · obtain ⟨priv, privLevel, accessType, phys, value, hbyte⟩ := hbyte
    obtain ⟨hbefore, ret, bytes, hbus⟩ := hbyte.behind hlong h
    exact trans_of R hbefore (hall _ _ _ _ _ _ _ hbus)
  · refine rvCoreRun_behind hlong ?_ h
    intro priv privLevel accessType phys value haccess
    exact hbyte ⟨priv, privLevel, accessType, phys, value, haccess⟩

end ByteAccesses

end RiscvEm
