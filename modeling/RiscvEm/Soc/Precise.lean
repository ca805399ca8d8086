import RiscvEm.Core.Indifference
import RiscvEm.Core.Precise
import RiscvEm.Core.Reads
import RiscvEm.Devices.PlicClaims
import RiscvEm.Soc.Atomic
import RiscvEm.Soc.PhysMemory

/-!
Precise exceptions: which traps leave the registers, the memory and the devices as they
were, so that the instruction can be run again.

The reads that a call makes on its way to a trap change nothing but the claimed bits of
the PLIC, and these only where they fall on its claim register. A store-conditional and
the atomic operations do not look at the results of their accesses.
-/

namespace RiscvEm

variable {w : Xlen} {useSimpleUart : Bool}

/-! ### Reads of the claim register -/

def claimAddr : Nat := plicBaseAddr + 0x200004

def AtClaim (addr : RvUintXlen w) : Prop := claimAddr ≤ addr.toNat ∧ addr.toNat < claimAddr + 4

instance decidableAtClaim (addr : RvUintXlen w) : Decidable (AtClaim addr) :=
  inferInstanceAs (Decidable (_ ∧ _))

/-- The source that a read there claims. -/
def Plic.claimId (plic : Plic) (addr : RvUintXlen w) : Nat :=
  leNat ((wordBytes plic.words).read (4 * Plic.claimWord + (addr.toNat - claimAddr)) [] 4)

def RvSoc.Claims (soc : RvSoc Devices) (addr : RvUintXlen w) : Prop :=
  AtClaim addr ∧ sourceBit soc.devices.plic.pendingBits (soc.devices.plic.claimId addr) = true ∧
    sourceBit soc.devices.plic.claimedBits (soc.devices.plic.claimId addr) = false

def RvSoc.readStep (soc : RvSoc Devices) (addr : RvUintXlen w) : RvSoc Devices :=
  if AtClaim addr then
    { soc with devices := { soc.devices with
      plic := (plicClaim soc.devices.plic (soc.devices.plic.claimId addr)).toOption.getD
        soc.devices.plic } }
  else soc

def RvSoc.afterReads (soc : RvSoc Devices) (reads : List (RvUintXlen w)) : RvSoc Devices :=
  reads.foldl RvSoc.readStep soc

section Claims

theorem assignU32Bit_of_set {v : BitVec 32} {n : Nat} (hn : n < 32) (hset : checkBit v n = true) :
    assignU32Bit v n true = v := by
  apply BitVec.eq_of_getLsbD_eq
  intro i hi
  have hbit := checkBit_assignU32Bit v hn true i
  rw [checkBit_eq_getLsbD, checkBit_eq_getLsbD] at hbit
  rw [hbit]
  split
  · next heq => rw [heq, ← checkBit_eq_getLsbD, hset]
  · rfl

/-- A claim of a source that is not pending, or is claimed, changes nothing. -/
theorem plicClaim_same {plic plic' : Plic} {id : Nat} (h : plicClaim plic id = .ok plic')
    (hnot : ¬ (sourceBit plic.pendingBits id = true ∧ sourceBit plic.claimedBits id = false)) :
    plic' = plic := by
  rw [plicClaim] at h
  split at h
  · next hreg =>
      split at h
      · next hbit =>
          obtain rfl := Except.ok.inj h
          have hpending : sourceBit plic.pendingBits id = true := (dif_pos hreg).trans hbit
          have hclaimed : sourceBit plic.claimedBits id = true := by
            rw [← Bool.not_eq_false]
            exact fun hfalse => hnot ⟨hpending, hfalse⟩
          have hset : checkBit (plic.claimedBits ⟨id / 32, hreg⟩) (id % 32) = true :=
            (dif_pos hreg).symm.trans hclaimed
          rw [assignArrayBit, assignU32Bit_of_set (Nat.mod_lt _ (by decide)) hset,
            Function.update_eq_self]
      · exact (Except.ok.inj h).symm
  · cases h

variable {soc : RvSoc Devices} {addr : RvUintXlen w}

theorem RvSoc.readStep_eq_self (h : ¬ soc.Claims addr) : soc.readStep addr = soc := by
  rw [readStep]
  split
  · next hat =>
      cases hclaim : plicClaim soc.devices.plic (soc.devices.plic.claimId addr) with
      | error halt => rfl
      | ok plic =>
          obtain rfl := plicClaim_same hclaim fun hboth => h ⟨hat, hboth⟩
          rfl
  · rfl

theorem RvSoc.claimed_readStep {id : Nat}
    (h : sourceBit soc.devices.plic.claimedBits id = true ∨
      soc.Claims addr ∧ id = soc.devices.plic.claimId addr) :
    sourceBit (soc.readStep addr).devices.plic.claimedBits id = true := by
  rw [readStep]
  by_cases hat : AtClaim addr
  · rw [if_pos hat]
    cases hclaim : plicClaim soc.devices.plic (soc.devices.plic.claimId addr) with
    | error halt =>
        refine h.elim (fun hset => hset) fun hnew => ?_
        obtain ⟨⟨-, hpending, -⟩, rfl⟩ := hnew
        rw [plicClaim] at hclaim
        rw [sourceBit] at hpending
        split at hpending
        · next hreg =>
            rw [dif_pos hreg] at hclaim
            split at hclaim
            · cases hclaim
            · cases hclaim
        · cases hpending
    | ok plic =>
        have hbits := plicClaim_claimedBits hclaim id
        show sourceBit plic.claimedBits id = true
        rw [hbits]
        split
        · rfl
        · next hother =>
            refine h.elim (fun hset => hset) fun hnew => ?_
            exact absurd ⟨hnew.2, hnew.1.2.1⟩ hother
  · rw [if_neg hat]
    exact h.elim (fun hset => hset) fun hnew => absurd hnew.1.1 hat

theorem RvSoc.claimed_afterReads {id : Nat} (reads : List (RvUintXlen w)) {soc : RvSoc Devices}
    (h : sourceBit soc.devices.plic.claimedBits id = true) :
    sourceBit (soc.afterReads reads).devices.plic.claimedBits id = true := by
  induction reads generalizing soc with
  | nil => exact h
  | cons addr reads ih => exact ih (RvSoc.claimed_readStep (.inl h))

/-- The reads leave the system as it was just if none of them claims a source. -/
theorem RvSoc.afterReads_eq_self_iff (reads : List (RvUintXlen w)) :
    soc.afterReads reads = soc ↔ ∀ addr ∈ reads, ¬ soc.Claims addr := by
  induction reads with
  | nil => exact iff_of_true rfl fun addr h => absurd h List.not_mem_nil
  | cons addr reads ih =>
      rw [List.forall_mem_cons]
      by_cases hclaims : soc.Claims addr
      · refine iff_of_false (fun heq => ?_) fun h => h.1 hclaims
        have hstep := RvSoc.claimed_readStep (.inr ⟨hclaims, rfl⟩)
        have hset := RvSoc.claimed_afterReads reads hstep
        have hsame : (soc.readStep addr).afterReads reads = soc := heq
        rw [hsame, hclaims.2.2] at hset
        cases hset
      · rw [and_iff_right hclaims, ← ih]
        show (soc.readStep addr).afterReads reads = soc ↔ _
        rw [RvSoc.readStep_eq_self hclaims]

/-- The reads change the devices at most. -/
theorem RvSoc.afterReads_eq (reads : List (RvUintXlen w)) (soc : RvSoc Devices) :
    soc.afterReads reads = { soc with devices := (soc.afterReads reads).devices } := by
  induction reads generalizing soc with
  | nil => rfl
  | cons addr reads ih =>
      have hstep : soc.readStep addr = { soc with devices := (soc.readStep addr).devices } := by
        rw [RvSoc.readStep]
        split <;> rfl
      exact (ih (soc.readStep addr)).trans (congrArg (fun s : RvSoc Devices =>
        { s with devices := ((soc.readStep addr).afterReads reads).devices }) hstep)

theorem RvSoc.afterReads_append (soc : RvSoc Devices) (reads reads' : List (RvUintXlen w)) :
    soc.afterReads (reads ++ reads') = (soc.afterReads reads).afterReads reads' :=
  List.foldl_append

end Claims

/-! ### The reads of the bus -/

/-- The claim register is at four offsets, and nothing else is there. -/
theorem getU8RegPtr_atClaim (offset : Nat) :
    (0x200004 ≤ offset ∧ offset < 0x200008 ∧
        getU8RegPtr offset = some (4 * Plic.claimWord + (offset - 0x200004), true)) ∨
      (¬ (0x200004 ≤ offset ∧ offset < 0x200008) ∧
        ∀ u8Ptr, getU8RegPtr offset ≠ some (u8Ptr, true)) := by
  rw [getU8RegPtr]
  simp only [offsWithin, Bool.and_eq_true, decide_eq_true_eq]
  by_cases hat : 0x200004 ≤ offset ∧ offset < 0x200008
  · left
    refine ⟨hat.1, hat.2, ?_⟩
    rw [if_neg (by omega), if_neg (by omega), if_neg (by omega), if_neg (by omega),
      if_pos (by omega)]
  · right
    refine ⟨hat, fun u8Ptr => ?_⟩
    split
    · split
      · simp
      · simp
    · split
      · simp
      · split
        · simp
        · split
          · simp
          · simp

/-- A read of the PLIC at an offset claims what its bytes at the claim register say. -/
theorem plicBusAccess_read {plic : Plic} {privLevel : PrivilegeLevel}
    {accessType : BusAccessType} {offset : RvUintXlen w} {value : List Byte} {len : Nat}
    {r : RvRet × List Byte × Plic} (htype : accessType ≠ .write)
    (h : plicBusAccess plic privLevel accessType offset value len = .ok r) :
    r.2.2 = if 0x200004 ≤ offset.toNat ∧ offset.toNat < 0x200008 then
      (plicClaim plic (leNat ((wordBytes plic.words).read
        (4 * Plic.claimWord + (offset.toNat - 0x200004)) [] 4))).toOption.getD plic
      else plic := by
  rw [plicBusAccess] at h
  rcases getU8RegPtr_atClaim offset.toNat with ⟨hlow, hhigh, hclaim⟩ | ⟨hnot, hother⟩
  · rw [if_pos ⟨hlow, hhigh⟩]
    simp only [hclaim, if_neg htype, if_true] at h
    split at h
    · cases h
    · obtain ⟨plic', hplic', h⟩ := Except.bind_eq_ok.mp h
      obtain rfl := Except.ok.inj h
      rw [hplic']
      rfl
  · rw [if_neg hnot]
    cases hptr : getU8RegPtr offset.toNat with
    | none =>
        rw [hptr] at h
        obtain rfl := Except.ok.inj h
        rfl
    | some reg =>
        obtain ⟨u8Ptr, isClaimComplete⟩ := reg
        cases isClaimComplete with
        | true => exact absurd hptr (hother u8Ptr)
        | false =>
            simp only [hptr, if_neg htype] at h
            split at h
            · cases h
            · obtain rfl := Except.ok.inj h
              rfl

/-- The entries of the table other than that of the PLIC keep away from its claim register. -/
theorem memAccessCbs_claim (useSimpleUart : Bool) (entry : MemAccessCb w)
    (h : entry ∈ rvSocInitMemAccessCbs w useSimpleUart) :
    (entry.target = .plic → entry.addrStart.toNat = plicBaseAddr) ∧
      (entry.target ≠ .plic → entry.region.Apart ⟨claimAddr, 4⟩) := by
  revert h entry
  cases w <;> cases useSimpleUart <;> decide

theorem offset_claim {base addr offset : Nat} (hlow : base ≤ addr)
    (hoffset : offset = addr - base) :
    (0x200004 ≤ offset ∧ offset < 0x200008 ↔
        base + 0x200004 ≤ addr ∧ addr < base + 0x200004 + 4) ∧
      offset - 0x200004 = addr - (base + 0x200004) := by
  omega

theorem socBusAccess_readsStep :
    ReadsStep (w := w) (socBusAccess useSimpleUart) RvSoc.readStep := by
  intro soc privLevel accessType addr value len r htype hlow hhigh h
  obtain ⟨i, entry, offset, hdispatch, ⟨htarget, hsame⟩ | ⟨htarget, ret, bytes, plic, ha, rfl⟩⟩ :=
    socBusAccess_read_target htype hlow h
  · rw [hsame, RvSoc.readStep_eq_self]
    rintro ⟨hat, -⟩
    have hnowrap : addr.toNat + len < 2 ^ w.bits := by
      have hlarge : 2 ^ 32 ≤ 2 ^ w.bits := w.two_pow_le
      have hbelow : claimAddr + 4 + 8 < 2 ^ 32 := by decide
      have hend := hat.2
      omega
    obtain ⟨hentry, hregion, -⟩ :=
      (dispatch_eq_some_iff useSimpleUart (by omega) hnowrap).mp hdispatch
    have hapart := (memAccessCbs_claim useSimpleUart entry (List.mem_of_getElem? hentry)).2 htarget
    have hclaim : Region.Contains ⟨claimAddr, 4⟩ addr.toNat 1 := hat
    have hend := hregion.2
    exact hapart.not_contains (by decide) ⟨hregion.1, by omega⟩ hclaim
  · obtain ⟨hentry, htest, hoffset⟩ := dispatch_eq_some hdispatch
    have hstart := (memAccessCbs_claim useSimpleUart entry (List.mem_of_getElem? hentry)).1 htarget
    rw [addrWithinLen, Bool.and_eq_true, decide_eq_true_eq] at htest
    have hlow' : plicBaseAddr ≤ addr.toNat := hstart ▸ BitVec.le_def.mp htest.1
    have hat : offset.toNat = addr.toNat - plicBaseAddr := by
      rw [hoffset, BitVec.toNat_sub_of_le htest.1, hstart]
    obtain ⟨hiff, hptr⟩ := offset_claim hlow' hat
    have hclaim := plicBusAccess_read htype ha
    rw [hptr] at hclaim
    show { soc with devices := { soc.devices with plic := plic } } = soc.readStep addr
    rw [RvSoc.readStep]
    by_cases hread : AtClaim addr
    · rw [if_pos (hiff.mpr hread)] at hclaim
      rw [if_pos hread, show plic = _ from hclaim]
      rfl
    · rw [if_neg fun h => hread (hiff.mp h)] at hclaim
      rw [if_neg hread, show plic = _ from hclaim]

/-! ### The condition -/

/-- None of the reads claims a source. -/
def NoClaim (soc : RvSoc Devices) (reads : List (RvUintXlen w)) : Prop :=
  ∀ addr ∈ reads, ¬ soc.Claims addr

section Restartable

variable (useSimpleUart : Bool)

def fetchReads (s : RvCore w (RvSoc Devices)) : List (RvUintXlen w) :=
  accessReads (socBusAccess useSimpleUart) s.atFetch .instr s.pc w.bytes

variable (cb : ExecutionCb) (d : RvCore w (RvSoc Devices))

def loadHalfReads : List (RvUintXlen w) :=
  accessReads (socBusAccess useSimpleUart) d .read (d.x d.rs1) cb.accessLen

/-- The state in which the store half of an atomic operation is translated. -/
def afterLoadHalf : RvCore w (RvSoc Devices) :=
  d.withPriv (d.priv.afterReads (loadHalfReads useSimpleUart cb d))

def storeHalfReads : List (RvUintXlen w) :=
  accessReads (socBusAccess useSimpleUart) (afterLoadHalf useSimpleUart cb d) .write (d.x d.rs1)
    cb.accessLen

def handlerReads : List (RvUintXlen w) :=
  match cb.kind with
  | .load => accessReads (socBusAccess useSimpleUart) d .read (effectiveAddress d) cb.accessLen
  | .loadReserved =>
      accessReads (socBusAccess useSimpleUart) d.reserve .read (effectiveAddress d) cb.accessLen
  | .store | .storeConditional =>
      accessReads (socBusAccess useSimpleUart) d .write (effectiveAddress d) cb.accessLen
  | .amo => loadHalfReads useSimpleUart cb d ++ storeHalfReads useSimpleUart cb d
  | _ => []

/-- The physical address of the load half, unless that is refused. -/
def loadHalfAddr : Option (RvUintXlen w) :=
  grantedAddr (socBusAccess useSimpleUart) d .read (d.x d.rs1) cb.accessLen

def storeHalfAddr : Option (RvUintXlen w) :=
  grantedAddr (socBusAccess useSimpleUart) (afterLoadHalf useSimpleUart cb d) .write (d.x d.rs1)
    cb.accessLen

/-- The word of an atomic operation at a physical address, as it is loaded, is `v`. -/
def HoldsWord (soc : RvSoc Devices) (phys v : RvUintXlen w) : Prop :=
  ∃ r, socBusAccess useSimpleUart soc (checkMprvOverride d .read) .read phys
      (leBytes cb.accessLen 0) cb.accessLen = .ok r ∧
    (leLoad cb.accessLen r.2.1).signExtend w.bits = v

/-- What an atomic operation stores when its load half was refused: `rd` has its old value. -/
def staleBytes : List Byte :=
  leBytes cb.accessLen (cb.amoOp ((d.x d.rd).setWidth (8 * cb.accessLen))
    ((d.x d.rs2).setWidth (8 * cb.accessLen))).toNat

/-- The store of these bytes at a physical address takes `soc` to `soc'`. -/
def StoreHalfLeaves (soc : RvSoc Devices) (phys : RvUintXlen w) (soc' : RvSoc Devices) : Prop :=
  ∃ ret value, socBusAccess useSimpleUart soc (checkMprvOverride d .write) .write phys
    (staleBytes cb d) cb.accessLen = .ok (ret, value, soc')

/-- An atomic operation one half of which is refused leaves everything as it was: `soc` is
behind the bus before the call, and `reads` is what the fetch reads. -/
inductive AmoRestartable (soc : RvSoc Devices) (reads : List (RvUintXlen w)) : Prop
  /-- Only the store half is refused: `rd` is the zero register, or has the word already. -/
  | storeRefused {phys : RvUintXlen w} (hload : loadHalfAddr useSimpleUart cb d = some phys)
      (hstore : storeHalfAddr useSimpleUart cb d = none)
      (hreads : NoClaim soc (reads ++ handlerReads useSimpleUart cb d))
      (hrd : d.rd = 0 ∨ HoldsWord useSimpleUart cb d soc phys (d.x d.rd))
  | bothRefused (hload : loadHalfAddr useSimpleUart cb d = none)
      (hstore : storeHalfAddr useSimpleUart cb d = none)
      (hreads : NoClaim soc (reads ++ handlerReads useSimpleUart cb d))
  /-- Only the load half is refused, and the memory has the bytes of the store half already. -/
  | memoryStored {phys : RvUintXlen w} (hload : loadHalfAddr useSimpleUart cb d = none)
      (hstore : storeHalfAddr useSimpleUart cb d = some phys)
      (hmapped : Mapped phys.toNat cb.accessLen)
      (hreads : NoClaim soc (reads ++ handlerReads useSimpleUart cb d))
      (hbytes : soc.bytesAt phys.toNat cb.accessLen = staleBytes cb d)
  /-- Only the load half is refused, and the store half is one to a register of a device. -/
  | deviceStored {phys : RvUintXlen w} (hload : loadHalfAddr useSimpleUart cb d = none)
      (hstore : storeHalfAddr useSimpleUart cb d = some phys)
      (hmapped : ¬ Mapped phys.toNat cb.accessLen)
      (hwrite : StoreHalfLeaves useSimpleUart cb d
        (soc.afterReads (reads ++ handlerReads useSimpleUart cb d)) phys soc)

/-- What an instruction that raises a trap needs for everything to be as it was. -/
def ExecutionCb.Restartable (soc : RvSoc Devices) (reads : List (RvUintXlen w)) : Prop :=
  match cb.kind with
  -- `rd` is cleared also when the store is refused
  | .storeConditional =>
      (d.rd = 0 ∨ d.x d.rd = 0) ∧ NoClaim soc (reads ++ handlerReads useSimpleUart cb d)
  | .amo => AmoRestartable useSimpleUart cb d soc reads
  | _ => NoClaim soc (reads ++ handlerReads useSimpleUart cb d)

/-- What a call that raises a trap needs for it: the fetch is refused, or an instruction is
executed. -/
def RvCore.Restartable (s : RvCore w (RvSoc Devices)) : Prop :=
  (grantedAddr (socBusAccess useSimpleUart) s.atFetch .instr s.pc w.bytes = none →
    NoClaim s.priv (fetchReads useSimpleUart s)) ∧
  ∀ cb d, Executes (socBusAccess useSimpleUart) s cb d →
    cb.Restartable useSimpleUart d s.priv (fetchReads useSimpleUart s)

end Restartable

/-! ### Atomic operations -/

section Amo

variable {cb : ExecutionCb} {d e : RvCore w (RvSoc Devices)}

/-- The three ways in which an atomic operation raises a trap. -/
inductive AmoTrap (useSimpleUart : Bool) (cb : ExecutionCb) (d e : RvCore w (RvSoc Devices)) : Prop
  | storeRefused {phys : RvUintXlen w} {v : RvUintXlen w}
      (hload : loadHalfAddr useSimpleUart cb d = some phys)
      (hstore : storeHalfAddr useSimpleUart cb d = none)
      (hpriv : e.priv = d.priv.afterReads (handlerReads useSimpleUart cb d))
      (hword : ∀ u, HoldsWord useSimpleUart cb d (d.priv.afterReads
        (tableReads (socBusAccess useSimpleUart) d .read (d.x d.rs1))) phys u ↔ v = u)
      (hx : e.x = Function.update d.x d.rd v)
  | bothRefused (hload : loadHalfAddr useSimpleUart cb d = none)
      (hstore : storeHalfAddr useSimpleUart cb d = none)
      (hpriv : e.priv = d.priv.afterReads (handlerReads useSimpleUart cb d)) (hx : e.x = d.x)
  | storeMade {phys : RvUintXlen w} (hload : loadHalfAddr useSimpleUart cb d = none)
      (hstore : storeHalfAddr useSimpleUart cb d = some phys)
      (hwrite : ∀ soc', StoreHalfLeaves useSimpleUart cb d
        (d.priv.afterReads (handlerReads useSimpleUart cb d)) phys soc' ↔ e.priv = soc')
      (hx : e.x = d.x)

/-- The store half looks at nothing but what the reads of the load half have left. -/
theorem accessAlike_afterLoadHalf {m m₁ : RvCore w (RvSoc Devices)} (hframe : AccessFrame d m₁)
    (hpriv : m₁.priv = d.priv.afterReads (loadHalfReads useSimpleUart cb d))
    (hm : m = m₁ ∨ ∃ r v, m = m₁.setX r v) :
    AccessAlike m (afterLoadHalf useSimpleUart cb d) := by
  have hsame : m.pmp = m₁.pmp ∧ m.mmu = m₁.mmu ∧ m.trap = m₁.trap ∧
      m.currPrivMode = m₁.currPrivMode ∧ m.priv = m₁.priv := by
    rcases hm with rfl | ⟨r, v, rfl⟩
    · exact ⟨rfl, rfl, rfl, rfl, rfl⟩
    · exact ⟨rfl, rfl, rfl, rfl, rfl⟩
  obtain ⟨hpmp, hmmu, htrap, hmode, hsoc⟩ := hsame
  refine ⟨?_, ?_, ?_, ?_, ?_⟩
  · rw [hpmp, hframe]
    rfl
  · rw [hmmu, hframe]
    rfl
  · rw [htrap, hframe]
    rfl
  · rw [hmode, hframe]
    rfl
  · rw [hsoc, hpriv]
    rfl

theorem amo_trap (hk : cb.kind = .amo) (hw : cb.accessLen = 8 → w = .rv64)
    (hd : d.pendingTrap = none)
    (haddr : effectiveAddress d = d.x d.rs1)
    (h : cb.handler (socBusAccess useSimpleUart) d = .ok e) (he : e.syncTrapPending = true) :
    AmoTrap useSimpleUart cb d e := by
  have hlen : 4 ≤ cb.accessLen ∧ cb.accessLen ≤ 8 := by
    cases cb <;> first | (cases hk; done) | decide
  have hreads : handlerReads useSimpleUart cb d =
      loadHalfReads useSimpleUart cb d ++ storeHalfReads useSimpleUart cb d := by
    rw [handlerReads, hk]
  obtain ⟨-, op, hhandler, hop⟩ := handler_amoShape (socBusAccess useSimpleUart) hk hw
  rw [hhandler, amo_eq_ok] at h
  obtain ⟨m, hm, ret, value, hstore⟩ := h
  obtain ⟨ret₁, bytes, m₁, hload, hmeq⟩ := load_eq_ok.mp hm
  rw [haddr] at hload
  have hframe := mmuCheckedBusAccess_frame hload
  have hx₁ : m₁.x = d.x := by rw [hframe]
  have hrd₁ : m₁.rd = d.rd := by rw [hframe]
  have hex : e.x = m.x := by rw [mmuCheckedBusAccess_frame hstore]
  have hm₁priv : m₁.priv = d.priv.afterReads (loadHalfReads useSimpleUart cb d) :=
    mmuCheckedBusAccess_reads_priv socBusAccess_readsStep (.inl ⟨by decide, hlen⟩) hload
  have halike : AccessAlike m (afterLoadHalf useSimpleUart cb d) := by
    refine accessAlike_afterLoadHalf hframe hm₁priv ?_
    rw [hmeq]
    split
    · exact .inr ⟨_, _, rfl⟩
    · exact .inl rfl
  obtain ⟨htables, hgrant⟩ := halike.reads (by decide) hstore
  have hmpriv : m.priv = d.priv.afterReads (loadHalfReads useSimpleUart cb d) := halike.priv.symm
  have hmode : checkMprvOverride m .write = checkMprvOverride d .write := by
    rw [checkMprvOverride, checkMprvOverride, RvCore.status, RvCore.status, ← halike.trap,
      ← halike.mode]
    rfl
  have hafter : (tableReads (socBusAccess useSimpleUart) m .write (d.x d.rs1)).foldl
      RvSoc.readStep m.priv = d.priv.afterReads (handlerReads useSimpleUart cb d) := by
    rw [hreads, RvSoc.afterReads_append, ← hmpriv, storeHalfReads, accessReads, if_pos rfl,
      List.append_nil, htables]
    rfl
  rcases mmuCheckedBusAccess_reads socBusAccess_readsStep hload with
    ⟨hloadNone, rfl, -⟩ | ⟨phys, hloadSome, hread⟩
  · -- the load half is refused: `rd` keeps its value
    obtain rfl : m = m₁ := by rw [hmeq, if_neg (by decide)]
    have hx : e.x = d.x := hex.trans hx₁
    rcases mmuCheckedBusAccess_reads socBusAccess_readsStep hstore with
      ⟨hstoreNone, -, hpriv⟩ | ⟨phys, hstoreSome, hwrite⟩
    · exact .bothRefused hloadNone (hgrant.trans hstoreNone) (hpriv.trans hafter) hx
    · refine .storeMade hloadNone (hgrant.trans hstoreSome) (fun soc' => ?_) hx
      rw [hafter, hmode, hx₁, hrd₁, hop] at hwrite
      constructor
      · rintro ⟨ret', value', hwrite'⟩
        exact (Prod.mk.inj (Prod.mk.inj (Except.ok.inj (hwrite.symm.trans hwrite'))).2).2
      · rintro rfl
        exact ⟨_, _, hwrite⟩
  · -- the load half is made, so that the trap is that of the store half
    obtain rfl : ret₁ = .ok := socBusAccess_neverErr useSimpleUart _ _ _ _ _ _ _ hread
    rw [if_pos rfl] at hmeq
    have hm₁ : m₁.pendingTrap = none := by
      rw [pendingTrap_eq_none, ← Bool.not_eq_true, ← grantedAddr_eq_none_iff hd hload]
      exact fun hnone => by cases hnone.symm.trans hloadSome
    have hmnone : m.pendingTrap = none := by
      rw [hmeq]
      exact hm₁
    have hstoreNone := (grantedAddr_eq_none_iff hmnone hstore).mpr he
    have hpriv : e.priv = d.priv.afterReads (handlerReads useSimpleUart cb d) := by
      rcases mmuCheckedBusAccess_reads socBusAccess_readsStep hstore with
        ⟨-, -, hpriv⟩ | ⟨phys', hsome, -⟩
      · exact hpriv.trans hafter
      · cases hstoreNone.symm.trans hsome
    refine .storeRefused (v := (leLoad cb.accessLen bytes).signExtend w.bits) hloadSome
      (hgrant.trans hstoreNone) hpriv (fun u => ?_) ?_
    · constructor
      · rintro ⟨r, hr, rfl⟩
        obtain rfl := Except.ok.inj (hread.symm.trans hr)
        rfl
      · exact fun hu => ⟨_, hread, hu⟩
    · rw [hex, hmeq, RvCore.setX_x, hx₁, hrd₁]

end Amo

/-- A store to a memory undoes no claim, so that it leaves everything as it was just if
nothing is claimed and its bytes are there. -/
theorem storeHalfLeaves_mapped_iff {reads : List (RvUintXlen w)} {soc : RvSoc Devices}
    {phys : RvUintXlen w} (hmapped : Mapped phys.toNat cb.accessLen) :
    StoreHalfLeaves useSimpleUart cb d (soc.afterReads reads) phys soc ↔
      NoClaim soc reads ∧ soc.bytesAt phys.toNat cb.accessLen = staleBytes cb d := by
  have hwritten : StoreHalfLeaves useSimpleUart cb d (soc.afterReads reads) phys soc ↔
      (soc.afterReads reads).writeBytes phys.toNat (staleBytes cb d) cb.accessLen = soc := by
    rw [StoreHalfLeaves, socBusAccess, rvSocBusAccess_mapped _ _ _ _ _ (accessLen_pos cb) hmapped,
      if_pos rfl]
    constructor
    · rintro ⟨ret, value, heq⟩
      exact (Prod.mk.inj (Prod.mk.inj (Except.ok.inj heq)).2).2
    · intro heq
      exact ⟨_, _, congrArg (fun soc' => Except.ok (_, _, soc')) heq⟩
  have hlen : (staleBytes cb d).length = cb.accessLen := length_leBytes _ _
  rw [hwritten, ← soc.writeBytes_eq_self_iff hmapped hlen]
  constructor
  · intro heq
    have hdevices : (soc.afterReads reads).devices = soc.devices := by
      rw [← RvSoc.devices_writeBytes, heq]
    have hsame : soc.afterReads reads = soc := by
      rw [RvSoc.afterReads_eq, hdevices]
    rw [hsame] at heq
    exact ⟨(RvSoc.afterReads_eq_self_iff reads).mp hsame, heq⟩
  · rintro ⟨hreads, heq⟩
    rw [(RvSoc.afterReads_eq_self_iff reads).mpr hreads, heq]

/-! ### Calls that raise a trap -/

section Calls

variable {s s' d e : RvCore w (RvSoc Devices)} {cb : ExecutionCb}

/-- An atomic operation keeps the registers, and what was behind the bus before its fetch. -/
theorem amoTrap_keeps_iff {reads : List (RvUintXlen w)} {soc : RvSoc Devices}
    (hsoc : d.priv = soc.afterReads reads) (hx : d.x 0 = 0) (hk : cb.kind = .amo)
    (h : AmoTrap useSimpleUart cb d e) :
    (e.setX 0 0).x = d.x ∧ e.priv = soc ↔ AmoRestartable useSimpleUart cb d soc reads := by
  have hall (hpriv : e.priv = d.priv.afterReads (handlerReads useSimpleUart cb d)) :
      e.priv = soc ↔ NoClaim soc (reads ++ handlerReads useSimpleUart cb d) := by
    rw [hpriv, hsoc, ← RvSoc.afterReads_append, RvSoc.afterReads_eq_self_iff]
    rfl
  rw [RvCore.setX_x]
  cases h with
  | @storeRefused phys v hload hstore hpriv hword hxe =>
      -- where no source is claimed the word is read from the system before the call
      have hbefore (hreads : NoClaim soc (reads ++ handlerReads useSimpleUart cb d)) :
          d.priv.afterReads (tableReads (socBusAccess useSimpleUart) d .read (d.x d.rs1)) =
            soc := by
        rw [hsoc, ← RvSoc.afterReads_append, RvSoc.afterReads_eq_self_iff]
        refine fun addr haddr => hreads addr ?_
        rw [List.mem_append] at haddr ⊢
        refine haddr.imp_right fun htable => ?_
        rw [handlerReads, hk]
        exact List.mem_append_left _ (List.mem_append_left _ htable)
      rw [hxe, update_zero_eq_iff hx, hall hpriv]
      constructor
      · rintro ⟨hrd, hreads⟩
        refine .storeRefused hload hstore hreads (hrd.imp_right fun heq => ?_)
        rw [← hbefore hreads]
        exact (hword _).mpr heq.symm
      · intro hrestart
        cases hrestart with
        | storeRefused hload' hstore' hreads hrd =>
            obtain rfl := Option.some.inj (hload'.symm.trans hload)
            refine ⟨hrd.imp_right fun hholds => ?_, hreads⟩
            rw [← hbefore hreads] at hholds
            exact ((hword _).mp hholds).symm
        | bothRefused hload' => cases hload'.symm.trans hload
        | memoryStored hload' => cases hload'.symm.trans hload
        | deviceStored hload' => cases hload'.symm.trans hload
  | bothRefused hload hstore hpriv hxe =>
      rw [hxe, and_iff_right (update_zero_self hx), hall hpriv]
      constructor
      · exact fun hreads => .bothRefused hload hstore hreads
      · intro hrestart
        cases hrestart with
        | storeRefused hload' => cases hload'.symm.trans hload
        | bothRefused hload' hstore' hreads => exact hreads
        | memoryStored hload' hstore' => cases hstore'.symm.trans hstore
        | deviceStored hload' hstore' => cases hstore'.symm.trans hstore
  | @storeMade phys hload hstore hwrite hxe =>
      rw [hxe, and_iff_right (update_zero_self hx), ← hwrite, hsoc, ← RvSoc.afterReads_append]
      constructor
      · intro hleaves
        by_cases hmapped : Mapped phys.toNat cb.accessLen
        · obtain ⟨hreads, hbytes⟩ := (storeHalfLeaves_mapped_iff hmapped).mp hleaves
          exact .memoryStored hload hstore hmapped hreads hbytes
        · exact .deviceStored hload hstore hmapped hleaves
      · intro hrestart
        cases hrestart with
        | storeRefused hload' => cases hload'.symm.trans hload
        | bothRefused hload' hstore' => cases hstore'.symm.trans hstore
        | memoryStored hload' hstore' hmapped hreads hbytes =>
            obtain rfl := Option.some.inj (hstore'.symm.trans hstore)
            exact (storeHalfLeaves_mapped_iff hmapped).mpr ⟨hreads, hbytes⟩
        | deviceStored hload' hstore' hmapped hleaves =>
            obtain rfl := Option.some.inj (hstore'.symm.trans hstore)
            exact hleaves

/-- The other instructions leave what their reads leave, and a store-conditional clears `rd`. -/
theorem handler_trap_leaves (hk : cb.kind ≠ .amo) (hd : d.pendingTrap = none)
    (h : cb.handler (socBusAccess useSimpleUart) d = .ok e) (he : e.syncTrapPending = true) :
    e.x = (if cb.kind = .storeConditional then Function.update d.x d.rd 0 else d.x) ∧
      e.priv = d.priv.afterReads (handlerReads useSimpleUart cb d) := by
  rw [handlerReads]
  cases hkind : cb.kind with
  | amo => exact absurd hkind hk
  | load =>
      obtain ⟨ext, hload⟩ := handler_load (socBusAccess useSimpleUart) hkind
      rw [hload] at h
      exact load_refused_leaves socBusAccess_readsStep hd h he
  | loadReserved =>
      obtain ⟨ext, hload⟩ := handler_loadReserved (socBusAccess useSimpleUart) hkind
      rw [hload, loadReserved_eq] at h
      exact load_refused_leaves (s := d.reserve) socBusAccess_readsStep hd h he
  | store =>
      rw [handler_store (socBusAccess useSimpleUart) hkind] at h
      exact store_refused_leaves socBusAccess_readsStep hd h he
  | storeConditional =>
      rw [handler_storeConditional (socBusAccess useSimpleUart) hkind] at h
      exact storeConditional_refused_leaves socBusAccess_readsStep hd h he
  | _ =>
      rcases handler_pending_cases (pendingTrap_eq_none.mp hd) he h with
        ⟨-, cause, tval, rfl⟩ | ⟨hmemory, -⟩
      · exact ⟨prepareSyncTrap_x d cause tval, prepareSyncTrap_priv d cause tval⟩
      · rw [hkind] at hmemory
        cases hmemory

theorem handler_keeps_iff {reads : List (RvUintXlen w)} {soc : RvSoc Devices}
    (hsoc : d.priv = soc.afterReads reads) (hx : d.x 0 = 0) (hk : cb.kind ≠ .amo)
    (hd : d.pendingTrap = none) (h : cb.handler (socBusAccess useSimpleUart) d = .ok e)
    (he : e.syncTrapPending = true) :
    (e.setX 0 0).x = d.x ∧ e.priv = soc ↔ cb.Restartable useSimpleUart d soc reads := by
  obtain ⟨hxe, hpriv⟩ := handler_trap_leaves hk hd h he
  have hall : e.priv = soc ↔ NoClaim soc (reads ++ handlerReads useSimpleUart cb d) := by
    rw [hpriv, hsoc, ← RvSoc.afterReads_append, RvSoc.afterReads_eq_self_iff]
    rfl
  rw [hall, RvCore.setX_x, hxe, ExecutionCb.Restartable]
  cases hkind : cb.kind with
  | amo => exact absurd hkind hk
  | storeConditional =>
      rw [if_pos rfl, update_zero_eq_iff hx]
  | _ =>
      rw [if_neg (by simp), and_iff_right (update_zero_self hx)]

theorem Executes.priv_eq (h : Executes (socBusAccess useSimpleUart) s cb d) :
    d.priv = s.priv.afterReads (fetchReads useSimpleUart s) := by
  obtain ⟨f, hfetch, hdecode, -⟩ := h
  obtain ⟨value, s₁, haccess, rfl⟩ := rvCoreFetch_eq_ok.mp hfetch
  rw [rvCoreDecode_frame hdecode]
  show (storeInstruction s₁ value).priv = _
  rw [storeInstruction_priv]
  exact mmuCheckedBusAccess_reads_priv socBusAccess_readsStep
    (.inl ⟨by decide, xlen_bytes_range⟩) haccess

/-- The fetch of an instruction that is executed is not refused. -/
theorem Executes.fetch_granted
    (h : Executes (socBusAccess useSimpleUart) s cb d) :
    grantedAddr (socBusAccess useSimpleUart) s.atFetch .instr s.pc w.bytes ≠ none := by
  intro hnone
  obtain ⟨f, hfetch, -⟩ := h
  obtain ⟨value, s₁, haccess, rfl⟩ := rvCoreFetch_eq_ok.mp hfetch
  rcases mmuCheckedBusAccess_reads socBusAccess_readsStep haccess with
    ⟨-, hret, -⟩ | ⟨phys, hsome, -⟩
  · cases hret
  · cases hnone.symm.trans hsome

/-- A trap leaves everything as it was just if the call was restartable. -/
theorem precise_iff (hs : s.Ready) (hrun : rvCoreRun (socBusAccess useSimpleUart) s = .ok s')
    (htrap : s'.syncTrapPending = true) : ArchKept s s' ↔ s.Restartable useSimpleUart := by
  rcases rvCoreRun_cases hrun with ⟨f, hfetch, rfl⟩ | ⟨cb, d, e, hexec, hhandler, rfl⟩
  · -- the fetch is refused
    obtain ⟨value, s₁, haccess, rfl⟩ := rvCoreFetch_eq_ok.mp hfetch
    have hpending : s₁.syncTrapPending = true :=
      (storeInstruction_syncTrapPending s₁ value).symm.trans htrap
    have hnone := (grantedAddr_eq_none_iff (s := s.atFetch) hs.pendingTrap haccess).mpr hpending
    have hpriv : s₁.priv = s.priv.afterReads (fetchReads useSimpleUart s) :=
      mmuCheckedBusAccess_reads_priv socBusAccess_readsStep (.inr hnone) haccess
    have hsetup : SetupFrame s (storeInstruction s₁ value) :=
      SetupFrame.trans (show SetupFrame s s.atFetch from rfl) (rvCoreFetch_frame hfetch)
    have hx : (storeInstruction s₁ value).x = s.x := by rw [hsetup]
    rw [archKept_advance_iff (e := storeInstruction s₁ value) hsetup rfl, and_iff_right hx,
      storeInstruction_priv, hpriv,
      RvSoc.afterReads_eq_self_iff]
    constructor
    · intro hreads
      refine ⟨fun _ => hreads, fun cb d hexec => ?_⟩
      exact absurd hnone hexec.fetch_granted
    · exact fun hrestart => hrestart.1 hnone
  · -- an instruction raises it
    have hd : d.pendingTrap = none := hexec.pendingTrap hs.pendingTrap
    have hx : d.x = s.x := by rw [hexec.frame]
    have hzero : d.x 0 = 0 := by rw [hx, hs.x_zero]
    have he : e.syncTrapPending = true := htrap
    have hframe := handler_pending_frame (pendingTrap_eq_none.mp hd) he hhandler
    rw [archKept_advance_iff hexec.frame (hframe.setX 0 0), ← hx]
    have hcall : s.Restartable useSimpleUart ↔
        cb.Restartable useSimpleUart d s.priv (fetchReads useSimpleUart s) := by
      constructor
      · exact fun h => h.2 cb d hexec
      · intro h
        refine ⟨fun hnone => absurd hnone hexec.fetch_granted, fun cb' d' hexec' => ?_⟩
        obtain ⟨rfl, rfl⟩ := hexec.unique hexec'
        exact h
    show (e.setX 0 0).x = d.x ∧ e.priv = s.priv ↔ _
    rw [hcall]
    by_cases hk : cb.kind = .amo
    · have haddr := hexec.atomic_address (ExecutionCb.atomic_of_kind (.inr (.inr hk)))
      rw [amoTrap_keeps_iff hexec.priv_eq hzero hk
        (amo_trap hk (hexec.amo_width hk) hd haddr hhandler he), ExecutionCb.Restartable, hk]
    · exact handler_keeps_iff hexec.priv_eq hzero hk hd hhandler he

end Calls

/-! ### A refused exchange -/

/-- Machine mode locks all memory against stores and executes an exchange with the first word
of the boot memory; `x1` holds all ones before it. -/
def swapFirmware (swap : BitVec 32) : List Byte :=
  [ 0xFFF00093, 0x3B009073, -- pmpaddr0 = all ones
    0x09D00113, 0x3A011073, -- pmpcfg0: locked NAPOT, read and execute
    0x000011B7, swap ].flatMap fun word => leBytes 4 word.toNat -- x3 = 0x1000

/-- A call reached with the firmware that raises a trap, if one is found by running it. -/
theorem exists_swap_trap (swap : BitVec 32)
    (p : ExecutionCb → RvCore .rv32 (RvSoc Devices) → RvCore .rv32 (RvSoc Devices) → Bool)
    (hcheck : ((rvSocInit .rv32 (swapFirmware swap) none none).toOption.any fun init =>
      (rvSocRounds false 11 init).toOption.any fun s =>
        !s.syncTrapPending && s.x 0 == 0 &&
          (List.finRange 8).all (fun i => s.priv.devices.plic.pendingBits i == 0) &&
          (rvCoreRun (socBusAccess false) s).toOption.any fun s' =>
            s'.syncTrapPending && executesAny (socBusAccess false) s fun cb d => p cb d s') =
        true) :
    ∃ s s' cb d, SocReachable false s ∧ s.Ready ∧
      (∀ i, s.priv.devices.plic.pendingBits i = 0) ∧
      rvCoreRun (socBusAccess false) s = .ok s' ∧ s'.syncTrapPending = true ∧
      Executes (socBusAccess false) s cb d ∧ p cb d s' = true := by
  obtain ⟨init, hinit, hrounds⟩ := Except.exists_of_any_toOption hcheck
  obtain ⟨s, hrounds, hs⟩ := Except.exists_of_any_toOption hrounds
  simp only [Bool.and_eq_true, Bool.not_eq_true', beq_iff_eq, List.all_eq_true] at hs
  obtain ⟨⟨⟨hnone, hzero⟩, hquiet⟩, hrun⟩ := hs
  obtain ⟨s', hrun, hs'⟩ := Except.exists_of_any_toOption hrun
  rw [Bool.and_eq_true] at hs'
  obtain ⟨cb, d, hexec, hp⟩ := exists_of_executesAny hs'.2
  exact ⟨s, s', cb, d, ⟨init, ⟨_, _, _, hinit⟩, rvSocRounds_reaches hrounds⟩,
    ⟨pendingTrap_eq_none.mpr hnone, hzero⟩, fun i => hquiet i (List.mem_finRange i), hrun, hs'.1,
    hexec, hp⟩

/-- An exchange that drops the old word can be run again. -/
theorem precise_iff_swap :
    ∃ s s' : RvCore .rv32 (RvSoc Devices), SocReachable false s ∧
      rvCoreRun (socBusAccess false) s = .ok s' ∧ s'.syncTrapPending = true ∧ ArchKept s s' := by
  obtain ⟨s, s', cb, d, hreach, hready, hquiet, hrun, htrap, hexec, hp⟩ :=
    exists_swap_trap 0x0821A02F (fun cb d _ => cb.kind == .amo && d.rd == 0 &&
      (loadHalfAddr false cb d).isSome && (storeHalfAddr false cb d).isNone) (by decide +kernel)
  simp only [Bool.and_eq_true, beq_iff_eq, Option.isSome_iff_exists, Option.isNone_iff_eq_none]
    at hp
  obtain ⟨⟨⟨hk, hrd⟩, phys, hload⟩, hstore⟩ := hp
  have hclaim (reads : List (RvUintXlen .rv32)) : NoClaim s.priv reads := by
    rintro addr - ⟨-, hpending, -⟩
    rw [sourceBit] at hpending
    split at hpending
    · rw [hquiet, checkBit_eq_getLsbD] at hpending
      cases hpending.symm.trans BitVec.getLsbD_zero
    · cases hpending
  refine ⟨s, s', hreach, hrun, htrap, (precise_iff hready hrun htrap).mpr ⟨fun _ => hclaim _, ?_⟩⟩
  intro cb' d' hexec'
  obtain ⟨rfl, rfl⟩ := hexec.unique hexec'
  rw [ExecutionCb.Restartable, hk]
  exact .storeRefused hload hstore (hclaim _) (.inl hrd)

/-- An exchange leaves the loaded word in its destination when its store is refused. -/
theorem refused_swap_writes_rd :
    ¬ ∀ (useSimpleUart : Bool) (s s' : RvCore .rv32 (RvSoc Devices)),
      SocReachable useSimpleUart s → s.Ready → rvCoreRun (socBusAccess useSimpleUart) s = .ok s' →
      s'.syncTrapPending = true → ArchKept s s' := by
  intro h
  obtain ⟨s, s', cb, d, hreach, hready, -, hrun, htrap, hexec, hdiff⟩ :=
    exists_swap_trap 0x0821A0AF (fun _ d s' => s'.x 1 != d.x 1) (by decide +kernel)
  have hx : d.x = s.x := by rw [hexec.frame]
  rw [bne_iff_ne, hx] at hdiff
  exact hdiff (congrFun (h false s s' hreach hready hrun htrap).x 1)

end RiscvEm
