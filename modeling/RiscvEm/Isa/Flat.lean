import RiscvEm.Core.BelowMachine
import RiscvEm.Isa.Space
import RiscvEm.Pmp.Machine

/-!
The emulator where a program has the memories to itself: addresses are not translated, and
no access to the memories is refused. There an access reads or writes the bytes at its
address and does nothing else.
-/

namespace RiscvEm

variable {w : Xlen} {useSimpleUart : Bool}

/-- The memories lie more than eight bytes apart, so that an access finds all of its bytes
in one of them, or misses one. -/
theorem mapped_of_bytes (soc : RvSoc Devices) {a len : Nat} (hlen : 0 < len ∧ len ≤ 8)
    (h : ∀ i < len, (soc.byteAt (a + i)).isSome = true) : Mapped a len := by
  have hat {i : Nat} (hi : i < len) : ∃ target, memoryAt (a + i) = some target := by
    have hbyte := h i hi
    rw [RvSoc.byteAt, Option.isSome_map] at hbyte
    exact Option.isSome_iff_exists.mp hbyte
  obtain ⟨first, hfirst⟩ := hat hlen.1
  obtain ⟨last, hlast⟩ := hat (i := len - 1) (by omega)
  obtain ⟨hmem, hin⟩ := isMemory_of_memoryAt hfirst
  obtain ⟨hmem', hin'⟩ := isMemory_of_memoryAt hlast
  refine ⟨first, hfirst, hin.1, ?_⟩
  have hlow := hin.1
  have hhigh := hin.2
  have hlow' := hin'.1
  have hhigh' := hin'.2
  rcases hmem with rfl | rfl | rfl <;> rcases hmem' with rfl | rfl | rfl <;>
    simp only [BusTarget.memory, ramBaseAddr, ramSizeBytes, mromBaseAddr, mromSizeBytes,
      fromBaseAddr, fromSizeBytes] at hlow hhigh hlow' hhigh' ⊢ <;> omega

/-! ### Flat memory -/

/-- No translation is made, and the PMP grants the accesses to the memories. -/
structure RvCore.Flat (s : RvCore w (RvSoc Devices)) : Prop where
  bare : ∀ t, checkMprvOverride s t = .machine ∨ satpMode s.mmu.satpReg = 0
  granted : ∀ (t : BusAccessType) (addr : RvUintXlen w) (len : Nat), 0 < len ∧ len ≤ 8 →
    Mapped addr.toNat len → pmpMemCheck s.pmp (checkMprvOverride s t) addr len t = .ok

theorem RvCore.Flat.of_same {s s' : RvCore w (RvSoc Devices)} (h : s.Flat)
    (hsame : SameView s s') : s'.Flat := by
  refine ⟨fun t => ?_, fun t addr len hlen hmapped => ?_⟩
  · rw [hsame.mode, hsame.satpReg]
    exact h.bare t
  · rw [hsame.mode, hsame.pmp]
    exact h.granted t addr len hlen hmapped

section Accesses

variable {s : RvCore w (RvSoc Devices)} {len : Nat}

/-- An access to flat memory is the access of the bus at the same address. -/
theorem mmuCheckedBusAccess_flat (useSimpleUart : Bool) (h : s.Flat) (addr : RvUintXlen w)
    (hlen : 0 < len ∧ len ≤ 8) (hmapped : Mapped addr.toNat len) (t : BusAccessType)
    (value : List Byte) :
    mmuCheckedBusAccess (socBusAccess useSimpleUart) s t addr value len =
      if t = .write then
        .ok (.ok, value, { s with priv := s.priv.writeBytes addr.toNat value len })
      else .ok (.ok, s.priv.bytesAt addr.toNat len ++ value.drop len, s) := by
  have hbits : w.bits ≤ 64 := by cases w <;> decide
  have hphys : (addr.setWidth 64).setWidth w.bits = addr := by
    rw [BitVec.setWidth_setWidth_of_le _ hbits, BitVec.setWidth_eq]
  simp only [mmuCheckedBusAccess, mmuVirtToPhys, if_pos (h.bare t), Except.pure_eq_ok,
    Except.ok_bind, hphys]
  exact pmpCheckedBusAccess_mapped useSimpleUart addr hlen.1 hmapped
    (h.granted t addr len hlen hmapped) value

end Accesses

theorem byteAt_writeBytes_store (soc : RvSoc Devices) {a len : Nat} (hmapped : Mapped a len)
    (value : Nat) :
    (soc.writeBytes a (leBytes len value) len).byteAt = storeBytes soc.byteAt a len value := by
  funext b
  rw [soc.byteAt_writeBytes hmapped, storeBytes]
  by_cases hb : a ≤ b ∧ b < a + len
  · rw [if_pos hb, if_pos hb, leBytes_getD (by omega)]
  · rw [if_neg hb, if_neg hb]

/-- Flat memory as an address space, which is the physical one and grants every access. -/
def flatSpace (w : Xlen) (useSimpleUart : Bool) : AddressSpace w useSimpleUart where
  grants _ _ _ := True
  Sees mem s := s.Flat ∧ s.priv.byteAt = mem
  of_same := by
    rintro mem s s' ⟨hflat, hmem⟩ hview hpriv
    exact ⟨hflat.of_same hview, hpriv.trans hmem⟩
  read := by
    rintro mem s t addr len ⟨hflat, rfl⟩ ht hlen hbytes - value
    have haccess := mmuCheckedBusAccess_flat useSimpleUart hflat addr hlen
      (mapped_of_bytes s.priv hlen hbytes) t value
    rw [if_neg ht] at haccess
    exact ⟨s.mmu, rfl, haccess⟩
  write := by
    rintro mem s addr len ⟨hflat, rfl⟩ hlen hbytes - value
    have hmapped := mapped_of_bytes s.priv hlen hbytes
    have haccess := mmuCheckedBusAccess_flat useSimpleUart hflat addr hlen hmapped .write
      (leBytes len value)
    rw [if_pos rfl] at haccess
    exact ⟨_, s.priv.devices_writeBytes _ _ _, haccess, hflat.of_same (.of_status rfl rfl rfl rfl),
      byteAt_writeBytes_store s.priv hmapped value⟩

theorem flat_machine {s : RvCore w (RvSoc Devices)} (hmode : s.currPrivMode = .machine)
    (hclear : s.MprvClear) (hlock : ∀ i, checkBit (s.pmp.cfg i) pmpCfgLBit = false) : s.Flat := by
  have hpriv (t : BusAccessType) : checkMprvOverride s t = .machine := by
    rcases checkMprvOverride_mode s t with h | h
    · rw [h, hmode]
    · rw [h, dataMode_of_mprvClear hclear, hmode]
  refine ⟨fun t => .inl (hpriv t), fun t addr len _ _ => ?_⟩
  rw [hpriv, ← RvRet.ne_err_iff, ne_eq, pmpMemCheck_machine_eq_err_iff]
  rintro ⟨i, ⟨hmatch, -⟩, -⟩
  rw [LockedMatch, hlock] at hmatch
  cases hmatch.1

end RiscvEm
