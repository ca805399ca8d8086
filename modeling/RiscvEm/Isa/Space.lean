import RiscvEm.Isa.Machine
import RiscvEm.Soc.PhysMemory

/-!
The memory of a program in the emulator: which bytes the core finds at the addresses of the
program, and which accesses it makes there. The instructions are then the same for every
such memory, whether its addresses are translated or not.
-/

namespace RiscvEm

variable {w : Xlen} {useSimpleUart : Bool}

/-! ### Bytes -/

def memBytes (mem : Nat → Option Byte) (a len : Nat) : List Byte :=
  (List.range len).map fun i => (mem (a + i)).getD 0

@[simp] theorem length_memBytes (mem : Nat → Option Byte) (a len : Nat) :
    (memBytes mem a len).length = len := by
  rw [memBytes, List.length_map, List.length_range]

theorem leBytes_getD {k i : Nat} (hi : i < k) (value : Nat) :
    (leBytes k value).getD i 0 = .ofNat 8 (value / 256 ^ i) := by
  induction k generalizing i value with
  | zero => omega
  | succ k ih =>
      cases i with
      | zero => rw [leBytes, List.getD_cons_zero, Nat.pow_zero, Nat.div_one]
      | succ i =>
          rw [leBytes, List.getD_cons_succ, ih (by omega), Nat.div_div_eq_div_mul,
            Nat.pow_succ, Nat.mul_comm]

theorem leLoad_memBytes (m : IsaState w) {k len : Nat} (hk : k ≤ len) (a : Nat)
    (rest : List Byte) : leLoad k (memBytes m.mem a len ++ rest) = m.word k a := by
  rw [leLoad, List.take_append_of_le_length (by rw [length_memBytes]; exact hk), memBytes,
    ← List.map_take, List.take_range, Nat.min_eq_left hk, IsaState.word]

/-! ### Physical accesses -/

/-- An access that the PMP grants finds the bytes of the memories. -/
theorem pmpCheckedBusAccess_mapped (useSimpleUart : Bool) {s : RvCore w (RvSoc Devices)}
    {p : PrivilegeLevel} {t : BusAccessType} (addr : RvUintXlen w) {len : Nat} (hlen : 0 < len)
    (hmapped : Mapped addr.toNat len) (hgrant : pmpMemCheck s.pmp p addr len t = .ok)
    (value : List Byte) :
    pmpCheckedBusAccess (socBusAccess useSimpleUart) s p t addr value len =
      if t = .write then
        .ok (.ok, value, { s with priv := s.priv.writeBytes addr.toNat value len })
      else .ok (.ok, s.priv.bytesAt addr.toNat len ++ value.drop len, s) := by
  have hbus := rvSocBusAccess_mapped useSimpleUart (deviceAccess useSimpleUart) s.priv p value
    hlen hmapped t
  rw [← socBusAccess] at hbus
  rw [pmpCheckedBusAccess, if_neg (by rw [hgrant]; decide), hbus]
  by_cases ht : t = .write
  · rw [if_pos ht, if_pos ht]
    rfl
  · rw [if_neg ht, if_neg ht]
    rfl

/-! ### Address spaces -/

structure SameView (s s' : RvCore w (RvSoc Devices)) : Prop where
  mode : ∀ t, checkMprvOverride s' t = checkMprvOverride s t
  mxr : checkBit s'.status trapXstatusMxrBit = checkBit s.status trapXstatusMxrBit
  sum : checkBit s'.status trapXstatusSumBit = checkBit s.status trapXstatusSumBit
  pmp : s'.pmp = s.pmp
  satpReg : s'.mmu.satpReg = s.mmu.satpReg

theorem SameView.of_status {s s' : RvCore w (RvSoc Devices)}
    (hmode : s'.currPrivMode = s.currPrivMode) (hstatus : s'.status = s.status)
    (hpmp : s'.pmp = s.pmp) (hsatp : s'.mmu.satpReg = s.mmu.satpReg) : SameView s s' := by
  refine ⟨fun t => ?_, by rw [hstatus], by rw [hstatus], hpmp, hsatp⟩
  simp only [checkMprvOverride, hmode, hstatus]

theorem SameView.symm {s s' : RvCore w (RvSoc Devices)} (h : SameView s s') : SameView s' s :=
  ⟨fun t => (h.mode t).symm, h.mxr.symm, h.sum.symm, h.pmp.symm, h.satpReg.symm⟩

/-- A memory as the core sees it, with the accesses that are granted there. An access that is
granted and finds its bytes succeeds: a read finds them, and a write replaces them. -/
structure AddressSpace (w : Xlen) (useSimpleUart : Bool) where
  grants : AccessRights
  Sees : (Nat → Option Byte) → RvCore w (RvSoc Devices) → Prop
  of_same : ∀ {mem : Nat → Option Byte} {s s' : RvCore w (RvSoc Devices)}, Sees mem s →
    SameView s s' → s'.priv.byteAt = s.priv.byteAt → Sees mem s'
  read : ∀ {mem : Nat → Option Byte} {s : RvCore w (RvSoc Devices)} {t : BusAccessType}
    {addr : RvUintXlen w} {len : Nat}, Sees mem s → t ≠ .write → 0 < len ∧ len ≤ 8 →
    (∀ i < len, (mem (addr.toNat + i)).isSome = true) → grants t addr.toNat len →
    ∀ value : List Byte, ∃ mmu : Mmu w, mmu.satpReg = s.mmu.satpReg ∧
      mmuCheckedBusAccess (socBusAccess useSimpleUart) s t addr value len =
        .ok (.ok, memBytes mem addr.toNat len ++ value.drop len, { s with mmu := mmu })
  write : ∀ {mem : Nat → Option Byte} {s : RvCore w (RvSoc Devices)} {addr : RvUintXlen w}
    {len : Nat}, Sees mem s → 0 < len ∧ len ≤ 8 →
    (∀ i < len, (mem (addr.toNat + i)).isSome = true) → grants .write addr.toNat len →
    ∀ value : Nat, ∃ soc : RvSoc Devices, soc.devices = s.priv.devices ∧
      mmuCheckedBusAccess (socBusAccess useSimpleUart) s .write addr (leBytes len value) len =
        .ok (.ok, leBytes len value, { s with priv := soc }) ∧
      Sees (storeBytes mem addr.toNat len value) { s with priv := soc }

section Accesses

variable (A : AddressSpace w useSimpleUart) {m : IsaState w} {s : RvCore w (RvSoc Devices)}
  {len : Nat}

theorem AddressSpace.load (h : A.Sees m.mem s) (ext : BitVec (8 * len) → RvUintXlen w)
    (hlen : 0 < len ∧ len ≤ 8) (hbytes : m.Present (effectiveAddress s).toNat len)
    (hread : A.grants .read (effectiveAddress s).toNat len) :
    ∃ mmu : Mmu w, mmu.satpReg = s.mmu.satpReg ∧
      RiscvEm.load (socBusAccess useSimpleUart) len ext s =
        .ok ({ s with mmu := mmu }.setX s.rd (ext (m.word len (effectiveAddress s).toNat))) := by
  obtain ⟨mmu, hsatp, haccess⟩ := A.read h (by decide) hlen hbytes hread (leBytes len 0)
  refine ⟨mmu, hsatp, load_eq_ok.mpr ⟨_, _, _, haccess, ?_⟩⟩
  rw [if_pos rfl, leLoad_memBytes m (Nat.le_refl len)]

theorem AddressSpace.store (h : A.Sees m.mem s) (hlen : 0 < len ∧ len ≤ 8)
    (hbytes : m.Present (effectiveAddress s).toNat len)
    (hwrite : A.grants .write (effectiveAddress s).toNat len) :
    ∃ soc : RvSoc Devices, soc.devices = s.priv.devices ∧
      RiscvEm.store (socBusAccess useSimpleUart) len s = .ok { s with priv := soc } ∧
      A.Sees (m.store (effectiveAddress s).toNat len (s.x s.rs2).toNat).mem
        { s with priv := soc } := by
  obtain ⟨soc, hdevices, haccess, hsees⟩ := A.write h hlen hbytes hwrite (s.x s.rs2).toNat
  exact ⟨soc, hdevices, store_eq_ok.mpr ⟨_, _, haccess⟩, hsees⟩

end Accesses

end RiscvEm
