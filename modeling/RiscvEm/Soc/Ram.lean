import RiscvEm.Lib.Except
import RiscvEm.Soc.Containment

/-!
Accesses to the RAM: the bus hands out the bytes at the address and stores them there, and
does nothing else.
-/

namespace RiscvEm

variable {w : Xlen} {δ : Type}

/-! ### Memories -/

/-- The first bytes of a read are those of a shorter one. -/
theorem take_memoryRead (mem : Memory) (address : Nat) (value value' : List Byte) {k len : Nat}
    (hk : k ≤ len) : (mem.read address value len).take k = (mem.read address value' k).take k := by
  have hlen (n : Nat) : ((List.range n).map fun i => mem (address + i)).length = n := by
    rw [List.length_map, List.length_range]
  rw [Memory.read, Memory.read, List.take_append_of_le_length ((hlen len).symm ▸ hk),
    List.take_append_of_le_length (Nat.le_of_eq (hlen k).symm), ← List.map_take, ← List.map_take,
    List.take_range, List.take_range, Nat.min_eq_left hk, Nat.min_self]

theorem Memory.read_write (mem : Memory) (address : Nat) {value : List Byte} {len : Nat}
    (hvalue : value.length = len) (buffer : List Byte) :
    (mem.write address value len).read address buffer len = value ++ buffer.drop len := by
  rw [Memory.read, mem.map_write address hvalue]

/-- A write leaves the memory as it was just if its bytes are there already. -/
theorem Memory.write_eq_self_iff (mem : Memory) (address : Nat) {value : List Byte} {len : Nat}
    (hvalue : value.length = len) :
    mem.write address value len = mem ↔
      (List.range len).map (fun i => mem (address + i)) = value := by
  constructor
  · intro heq
    calc (List.range len).map (fun i => mem (address + i))
        = (List.range len).map (fun i => mem.write address value len (address + i)) := by rw [heq]
      _ = value := mem.map_write address hvalue
  · rintro rfl
    funext a
    rw [Memory.write]
    split
    · next hin =>
        have hi : a - address < len := by omega
        rw [List.getD_eq_getElem?_getD, List.getElem?_map, List.getElem?_range hi, Option.map_some,
          Option.getD_some, Nat.add_sub_cancel' hin.1]
    · rfl

/-! ### The RAM -/

def ramRegion : Region := ⟨ramBaseAddr, ramSizeBytes⟩

def InRam (address : RvUintXlen w) (len : Nat) : Prop := ramRegion.Contains address.toNat len

instance decidableInRam (address : RvUintXlen w) (len : Nat) : Decidable (InRam address len) :=
  inferInstanceAs (Decidable (ramRegion.Contains address.toNat len))

theorem InRam.no_wrap {address : RvUintXlen w} {len : Nat} (h : InRam address len) :
    address.toNat + len < 2 ^ w.bits := by
  have hlarge : 2 ^ 32 ≤ 2 ^ w.bits := w.two_pow_le
  have hend : address.toNat + len ≤ ramBaseAddr + ramSizeBytes := h.2
  have hsize : ramBaseAddr + ramSizeBytes < 2 ^ 32 := by decide
  omega

theorem dispatch_ram (useSimpleUart : Bool) {address : RvUintXlen w} {len : Nat}
    (hlen : 0 < len) (h : InRam address len) :
    dispatch (rvSocInitMemAccessCbs w useSimpleUart) address len =
      some (0, initMemAccessStruct .ram ramBaseAddr ramSizeBytes,
        address - BitVec.ofNat w.bits ramBaseAddr) := by
  rw [dispatch_eq_some_iff useSimpleUart hlen h.no_wrap]
  refine ⟨rfl, ?_, rfl⟩
  have hregion : (initMemAccessStruct .ram ramBaseAddr ramSizeBytes : MemAccessCb w).region =
      ramRegion := by
    cases w <;> rfl
  rw [hregion]
  exact h

def ramIndex (address : RvUintXlen w) : Nat := address.toNat - ramBaseAddr

theorem InRam.offset {address : RvUintXlen w} {len : Nat} (h : InRam address len) :
    (address - BitVec.ofNat w.bits ramBaseAddr).toNat = ramIndex address := by
  have hbase : (BitVec.ofNat w.bits ramBaseAddr).toNat = ramBaseAddr := by
    cases w <;> rfl
  rw [BitVec.toNat_sub_of_le (BitVec.le_def.mpr (by rw [hbase]; exact h.1)), hbase, ramIndex]

theorem InRam.index_le {address : RvUintXlen w} {len : Nat} (h : InRam address len) :
    ramIndex address + len ≤ ramSizeBytes := by
  obtain ⟨hlow, hhigh⟩ := h
  simp only [ramRegion] at hlow hhigh
  rw [ramIndex]
  omega

section Accesses

variable (useSimpleUart : Bool) (deviceAccess : BusTarget → BusAccessFunc w δ) (soc : RvSoc δ)
  (privLevel : PrivilegeLevel) {address : RvUintXlen w} {len : Nat} (value : List Byte)

theorem rvSocBusAccess_ram_read {accessType : BusAccessType} (hread : accessType ≠ .write)
    (hlen : 0 < len) (h : InRam address len) :
    rvSocBusAccess useSimpleUart deviceAccess soc privLevel accessType address value len =
      .ok (.ok, soc.ram.read (ramIndex address) value len, soc) := by
  have hsize : ¬ ramSizeBytes < ramIndex address + len := Nat.not_lt.mpr h.index_le
  simp only [rvSocBusAccess, dispatch_ram useSimpleUart hlen h, busTargetAccess,
    initMemAccessStruct, memoryBusAccess, h.offset, if_neg hsize, if_neg hread, Except.ok_bind,
    Except.pure_eq_ok]

theorem rvSocBusAccess_ram_write (hlen : 0 < len) (h : InRam address len) :
    rvSocBusAccess useSimpleUart deviceAccess soc privLevel .write address value len =
      .ok (.ok, value, { soc with ram := soc.ram.write (ramIndex address) value len }) := by
  have hsize : ¬ ramSizeBytes < ramIndex address + len := Nat.not_lt.mpr h.index_le
  simp only [rvSocBusAccess, dispatch_ram useSimpleUart hlen h, busTargetAccess,
    initMemAccessStruct, memoryBusAccess, h.offset, if_neg hsize, if_true, Except.ok_bind,
    Except.pure_eq_ok]

end Accesses

end RiscvEm
