import RiscvEm.Lib.Region
import RiscvEm.Soc.Bus

/-!
Which accesses the bus dispatch keeps inside the claimed object.

The test of an entry adds the address and the length at the width of a register.
As long as that sum does not wrap, the test is exact and the entries are apart
from each other; when it wraps, the first entry accepts the access.
-/

namespace RiscvEm

variable {w : Xlen} {δ : Type}

def MemAccessCb.region (entry : MemAccessCb w) : Region :=
  .ofWords entry.addrStart entry.memSize

def BusTarget.IsMemory (target : BusTarget) : Prop :=
  target = .ram ∨ target = .mrom ∨ target = .fromMem

/-- The access is handed over with an offset that leaves room for all its bytes,
so that no array is indexed past its end, and it belongs to no other entry. -/
def BusContained (useSimpleUart : Bool) (deviceAccess : BusTarget → BusAccessFunc w δ)
    (address : RvUintXlen w) (len : Nat) : Prop :=
  ∀ i entry offset,
    dispatch (rvSocInitMemAccessCbs w useSimpleUart) address len = some (i, entry, offset) →
      offset.toNat + len ≤ entry.memSize.toNat ∧
      (entry.target.IsMemory → ∀ soc privLevel accessType value,
        busTargetAccess deviceAccess entry.target soc privLevel accessType offset value len ≠
          .error .outOfBounds) ∧
      ∀ j other, (rvSocInitMemAccessCbs w useSimpleUart)[j]? = some other → j ≠ i →
        ¬ other.region.Contains address.toNat len

/-- Device callbacks that accept every access and leave no trace of it. -/
def noDevices : BusTarget → BusAccessFunc w Unit :=
  fun _ devices _ _ _ value _ => .ok (.ok, value, devices)

/-! ### The table -/

theorem memAccessCbs_end_lt (useSimpleUart : Bool) (entry : MemAccessCb w)
    (h : entry ∈ rvSocInitMemAccessCbs w useSimpleUart) :
    entry.addrStart.toNat + entry.memSize.toNat < 2 ^ w.bits := by
  revert h entry
  cases w <;> cases useSimpleUart <;> decide

theorem memAccessCbs_apart (useSimpleUart : Bool) :
    (rvSocInitMemAccessCbs w useSimpleUart).Pairwise fun e e' => e.region.Apart e'.region := by
  cases w <;> cases useSimpleUart <;> decide

/-- An entry of a memory is as long as the memory. -/
theorem memAccessCbs_memory_size (useSimpleUart : Bool) (entry : MemAccessCb w)
    (h : entry ∈ rvSocInitMemAccessCbs w useSimpleUart) :
    (entry.target = .ram → entry.memSize.toNat = ramSizeBytes) ∧
      (entry.target = .mrom → entry.memSize.toNat = mromSizeBytes) ∧
      (entry.target = .fromMem → entry.memSize.toNat = fromSizeBytes) := by
  revert h entry
  cases w <;> cases useSimpleUart <;> decide

theorem memAccessCbs_apart_of_ne (useSimpleUart : Bool) {i j : Nat} {entry other : MemAccessCb w}
    (hi : (rvSocInitMemAccessCbs w useSimpleUart)[i]? = some entry)
    (hj : (rvSocInitMemAccessCbs w useSimpleUart)[j]? = some other) (hne : j ≠ i) :
    entry.region.Apart other.region := by
  have hpair := List.pairwise_iff_getElem.mp (memAccessCbs_apart (w := w) useSimpleUart)
  obtain ⟨hi', rfl⟩ := List.getElem?_eq_some_iff.mp hi
  obtain ⟨hj', rfl⟩ := List.getElem?_eq_some_iff.mp hj
  rcases Nat.lt_or_gt_of_ne hne with hlt | hgt
  · exact (hpair j i hj' hi' hlt).symm
  · exact hpair i j hi' hj' hgt

/-! ### The dispatch -/

theorem dispatch_eq_some {table : List (MemAccessCb w)} {address : RvUintXlen w} {len i : Nat}
    {entry : MemAccessCb w} {offset : RvUintXlen w}
    (h : dispatch table address len = some (i, entry, offset)) :
    table[i]? = some entry ∧ addrWithinLen address len entry.addrStart entry.memSize = true ∧
      offset = address - entry.addrStart := by
  simp only [dispatch, Option.map_eq_some_iff, Prod.mk.injEq] at h
  obtain ⟨⟨entry', i'⟩, hfind, rfl, rfl, rfl⟩ := h
  have hmem := List.mem_of_find?_eq_some hfind
  have htest := List.find?_some hfind
  exact ⟨List.mk_mem_zipIdx_iff_getElem?.mp hmem, htest, rfl⟩

/-- An access to one of the memories within its size touches only its bytes. -/
theorem busTargetAccess_ne_outOfBounds (deviceAccess : BusTarget → BusAccessFunc w δ)
    {target : BusTarget} (hmem : target.IsMemory) {offset : RvUintXlen w} {len : Nat}
    (hram : target = .ram → offset.toNat + len ≤ ramSizeBytes)
    (hmrom : target = .mrom → offset.toNat + len ≤ mromSizeBytes)
    (hfrom : target = .fromMem → offset.toNat + len ≤ fromSizeBytes)
    (soc : RvSoc δ) (privLevel : PrivilegeLevel) (accessType : BusAccessType)
    (value : List Byte) :
    busTargetAccess deviceAccess target soc privLevel accessType offset value len ≠
      .error .outOfBounds := by
  rcases hmem with rfl | rfl | rfl
  · have hsize := Nat.not_lt.mpr (hram rfl)
    by_cases hw : accessType = .write <;>
      simp [busTargetAccess, memoryBusAccess, hsize, hw, bind, Except.bind, pure, Except.pure]
  · have hsize := Nat.not_lt.mpr (hmrom rfl)
    by_cases hw : accessType = .write <;>
      simp [busTargetAccess, memoryBusAccess, hsize, hw, bind, Except.bind, pure, Except.pure]
  · have hsize := Nat.not_lt.mpr (hfrom rfl)
    by_cases hw : accessType = .write <;>
      simp [busTargetAccess, memoryBusAccess, hsize, hw, bind, Except.bind, pure, Except.pure]

/-- A sum that wraps is below the end of the first entry, and the address is above
its start. -/
theorem dispatch_of_wrap (useSimpleUart : Bool) {address : RvUintXlen w} {len : Nat}
    (hlen : len ≤ 8) (hwrap : 2 ^ w.bits ≤ address.toNat + len) :
    dispatch (rvSocInitMemAccessCbs w useSimpleUart) address len =
      some (0, initMemAccessStruct .ram ramBaseAddr ramSizeBytes,
        address - BitVec.ofNat w.bits ramBaseAddr) := by
  have htest : addrWithinLen address len (BitVec.ofNat w.bits ramBaseAddr)
      (BitVec.ofNat w.bits ramSizeBytes) = true := by
    have hlt := address.isLt
    cases w with
    | rv32 =>
        simp only [Xlen.bits] at hlt hwrap
        simp only [addrWithinLen, Bool.and_eq_true, decide_eq_true_eq, BitVec.le_def,
          BitVec.toNat_add, BitVec.toNat_ofNat, ramBaseAddr, ramSizeBytes, Xlen.bits]
        omega
    | rv64 =>
        simp only [Xlen.bits] at hlt hwrap
        simp only [addrWithinLen, Bool.and_eq_true, decide_eq_true_eq, BitVec.le_def,
          BitVec.toNat_add, BitVec.toNat_ofNat, ramBaseAddr, ramSizeBytes, Xlen.bits]
        omega
  simp [dispatch, rvSocInitMemAccessCbs, initMemAccessStruct, List.zipIdx, htest]

/-- Past the end of the RAM lies the offset that a sum that wraps is given. -/
theorem offset_of_wrap {address : RvUintXlen w} {len : Nat} (hlen : len ≤ 8)
    (hwrap : 2 ^ w.bits ≤ address.toNat + len) :
    ramSizeBytes < (address - BitVec.ofNat w.bits ramBaseAddr).toNat + len := by
  have hlt := address.isLt
  cases w with
  | rv32 =>
      simp only [Xlen.bits] at hlt hwrap
      simp only [ramBaseAddr, ramSizeBytes, Xlen.bits, BitVec.toNat_sub, BitVec.toNat_ofNat]
      omega
  | rv64 =>
      simp only [Xlen.bits] at hlt hwrap
      simp only [ramBaseAddr, ramSizeBytes, Xlen.bits, BitVec.toNat_sub, BitVec.toNat_ofNat]
      omega

/-- Without a wrap the access goes to the one entry that contains it. -/
theorem dispatch_eq_some_iff (useSimpleUart : Bool) {address : RvUintXlen w} {len i : Nat}
    (hlen : 0 < len) (hnowrap : address.toNat + len < 2 ^ w.bits) {entry : MemAccessCb w}
    {offset : RvUintXlen w} :
    dispatch (rvSocInitMemAccessCbs w useSimpleUart) address len = some (i, entry, offset) ↔
      (rvSocInitMemAccessCbs w useSimpleUart)[i]? = some entry ∧
        entry.region.Contains address.toNat len ∧ offset = address - entry.addrStart := by
  have htest {j : Nat} {e : MemAccessCb w}
      (hj : (rvSocInitMemAccessCbs w useSimpleUart)[j]? = some e) :
      addrWithinLen address len e.addrStart e.memSize = true ↔
        e.region.Contains address.toNat len := by
    rw [addrWithinLen, Bool.and_eq_true, decide_eq_true_eq, decide_eq_true_eq]
    exact Region.contains_iff_le_add
      (memAccessCbs_end_lt useSimpleUart e (List.mem_of_getElem? hj)) hnowrap
  constructor
  · intro h
    obtain ⟨hi, hwithin, hoffset⟩ := dispatch_eq_some h
    exact ⟨hi, (htest hi).mp hwithin, hoffset⟩
  · rintro ⟨hi, hcontains, rfl⟩
    cases hfound : dispatch (rvSocInitMemAccessCbs w useSimpleUart) address len with
    | none =>
        -- the entry would have been found
        simp only [dispatch, Option.map_eq_none_iff, List.find?_eq_none] at hfound
        exact absurd ((htest hi).mpr hcontains)
          (hfound (entry, i) (List.mk_mem_zipIdx_iff_getElem?.mpr hi))
    | some found =>
        obtain ⟨j, e, offset⟩ := found
        obtain ⟨hj, hwithin, rfl⟩ := dispatch_eq_some hfound
        have hsame : j = i := by
          by_contra hne
          exact (memAccessCbs_apart_of_ne useSimpleUart hi hj hne).not_contains hlen hcontains
            ((htest hj).mp hwithin)
        subst hsame
        obtain rfl := Option.some.inj (hi.symm.trans hj)
        rfl

/-- The access is contained exactly when its last byte is below the top of the
address space by at least one byte. -/
theorem busContained_iff (useSimpleUart : Bool) (deviceAccess : BusTarget → BusAccessFunc w δ)
    (address : RvUintXlen w) (len : Nat) (hlen : len ∈ [1, 2, 4, 8]) :
    BusContained useSimpleUart deviceAccess address len ↔
      address.toNat + len < 2 ^ w.bits := by
  have hpos : 0 < len := by simp at hlen; omega
  have hle : len ≤ 8 := by simp at hlen; omega
  constructor
  · intro hcont
    by_contra hwrap
    have hdisp := dispatch_of_wrap useSimpleUart hle (Nat.not_lt.mp hwrap)
    obtain ⟨hroom, -⟩ := hcont _ _ _ hdisp
    have hpast := offset_of_wrap hle (Nat.not_lt.mp hwrap)
    have hsize : (initMemAccessStruct .ram ramBaseAddr ramSizeBytes : MemAccessCb w).memSize.toNat =
        ramSizeBytes := by
      cases w <;> rfl
    rw [hsize] at hroom
    exact absurd hroom (Nat.not_le.mpr hpast)
  · intro hnowrap i entry offset hdisp
    obtain ⟨hi, hcontains, rfl⟩ := (dispatch_eq_some_iff useSimpleUart hpos hnowrap).mp hdisp
    have hentry := List.mem_of_getElem? hi
    have hroom := hcontains.offset_le
    obtain ⟨hram, hmrom, hfrom⟩ := memAccessCbs_memory_size useSimpleUart entry hentry
    refine ⟨hroom, fun hmem soc privLevel accessType value => ?_, fun j other hj hne => ?_⟩
    · exact busTargetAccess_ne_outOfBounds deviceAccess hmem
        (fun h => hram h ▸ hroom) (fun h => hmrom h ▸ hroom) (fun h => hfrom h ▸ hroom)
        soc privLevel accessType value
    · exact (memAccessCbs_apart_of_ne useSimpleUart hi hj hne).not_contains hpos hcontains

theorem busContained_mrom_word : BusContained false noDevices 0x1000#(Xlen.rv32).bits 4 :=
  (busContained_iff false noDevices 0x1000#(Xlen.rv32).bits 4 (by decide)).mpr (by decide)

/-- The last word of the 32-bit address space goes to RAM, far past its end. -/
theorem not_busContained_last_word :
    ¬ ∀ (address : RvUintXlen .rv32) (len : Nat), len ∈ [1, 2, 4, 8] →
      BusContained false noDevices address len := by
  intro h
  have hdisp : dispatch (rvSocInitMemAccessCbs .rv32 false) 0xFFFFFFFC#32 4 =
      some (0, initMemAccessStruct .ram ramBaseAddr ramSizeBytes, 0x7FFFFFFC#32) := by
    decide
  obtain ⟨hroom, -⟩ := h 0xFFFFFFFC#32 4 (by decide) _ _ _ hdisp
  revert hroom
  decide

end RiscvEm
