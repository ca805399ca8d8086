import RiscvEm.Soc.Ram

/-!
The physical memory of the system: the bytes of the three memories by their addresses on
the bus, whichever memory they are in. An access to a memory reads or writes those bytes,
every other access is one to a device or is refused.
-/

namespace RiscvEm

variable {w : Xlen} {δ : Type}

/-! ### Bytes by address -/

def BusTarget.memory : BusTarget → Region
  | .ram => ⟨ramBaseAddr, ramSizeBytes⟩
  | .mrom => ⟨mromBaseAddr, mromSizeBytes⟩
  | .fromMem => ⟨fromBaseAddr, fromSizeBytes⟩
  | _ => ⟨0, 0⟩

def memoryAt (a : Nat) : Option BusTarget :=
  [.ram, .mrom, .fromMem].find? fun target => target.memory.Contains a 1

def RvSoc.array (soc : RvSoc δ) : BusTarget → Memory
  | .ram => soc.ram
  | .mrom => soc.mrom
  | .fromMem => soc.fromMem
  | _ => fun _ => 0

def RvSoc.setArray (soc : RvSoc δ) (target : BusTarget) (mem : Memory) : RvSoc δ :=
  match target with
  | .ram => { soc with ram := mem }
  | .mrom => { soc with mrom := mem }
  | .fromMem => { soc with fromMem := mem }
  | _ => soc

def RvSoc.byteAt (soc : RvSoc δ) (a : Nat) : Option Byte :=
  (memoryAt a).map fun target => soc.array target (a - target.memory.start)

def RvSoc.bytesAt (soc : RvSoc δ) (a len : Nat) : List Byte :=
  (List.range len).map fun i => (soc.byteAt (a + i)).getD 0

def RvSoc.writeBytes (soc : RvSoc δ) (a : Nat) (value : List Byte) (len : Nat) : RvSoc δ :=
  match memoryAt a with
  | some target =>
      soc.setArray target ((soc.array target).write (a - target.memory.start) value len)
  | none => soc

def Mapped (a len : Nat) : Prop := ∃ target ∈ memoryAt a, target.memory.Contains a len

instance decidableMapped (a len : Nat) : Decidable (Mapped a len) :=
  inferInstanceAs (Decidable (∃ target ∈ memoryAt a, target.memory.Contains a len))

theorem isMemory_of_memoryAt {a : Nat} {target : BusTarget} (h : memoryAt a = some target) :
    target.IsMemory ∧ target.memory.Contains a 1 := by
  have hmem := List.mem_of_find?_eq_some h
  have htest := List.find?_some h
  refine ⟨?_, of_decide_eq_true htest⟩
  simpa [BusTarget.IsMemory] using hmem

theorem memory_apart {target other : BusTarget} (hmem : target.IsMemory) (hother : other.IsMemory)
    (hne : target ≠ other) : target.memory.Apart other.memory := by
  rcases hmem with rfl | rfl | rfl <;> rcases hother with rfl | rfl | rfl <;>
    first
    | exact absurd rfl hne
    | decide

theorem memoryAt_eq {a : Nat} {target : BusTarget} (hmem : target.IsMemory)
    (h : target.memory.Contains a 1) : memoryAt a = some target := by
  cases hfound : memoryAt a with
  | none =>
      have hall := List.find?_eq_none.mp hfound target (by simpa [BusTarget.IsMemory] using hmem)
      exact absurd (decide_eq_true h) hall
  | some other =>
      obtain ⟨hother, hcontains⟩ := isMemory_of_memoryAt hfound
      by_contra hne
      have hne' : target ≠ other := fun heq => hne (by rw [heq])
      exact (memory_apart hmem hother hne').not_contains (by decide) h hcontains

theorem mapped_of_contains {a len : Nat} {target : BusTarget} (hlen : 0 < len)
    (hmem : target.IsMemory) (h : target.memory.Contains a len) : Mapped a len := by
  refine ⟨target, memoryAt_eq hmem ⟨h.1, ?_⟩, h⟩
  have hend := h.2
  omega

/-- The bytes of a mapped access are all in the memory of the first one. -/
theorem memoryAt_add {a len i : Nat} {target : BusTarget} (h : memoryAt a = some target)
    (hcontains : target.memory.Contains a len) (hi : i < len) :
    memoryAt (a + i) = some target := by
  obtain ⟨hmem, -⟩ := isMemory_of_memoryAt h
  obtain ⟨hlow, hhigh⟩ := hcontains
  exact memoryAt_eq hmem ⟨by omega, by omega⟩

theorem RvSoc.byteAt_of_memoryAt (soc : RvSoc δ) {a : Nat} {target : BusTarget}
    (h : memoryAt a = some target) :
    soc.byteAt a = some (soc.array target (a - target.memory.start)) := by
  rw [RvSoc.byteAt, h]
  rfl

theorem RvSoc.bytesAt_eq (soc : RvSoc δ) {a len : Nat} {target : BusTarget}
    (h : memoryAt a = some target) (hcontains : target.memory.Contains a len) :
    soc.bytesAt a len = (List.range len).map fun i =>
      soc.array target (a - target.memory.start + i) := by
  refine List.map_congr_left fun i hi => ?_
  have hlow := hcontains.1
  rw [soc.byteAt_of_memoryAt (memoryAt_add h hcontains (List.mem_range.mp hi)), Option.getD_some,
    Nat.sub_add_comm hlow]

@[simp] theorem RvSoc.length_bytesAt (soc : RvSoc δ) (a len : Nat) :
    (soc.bytesAt a len).length = len := by
  rw [RvSoc.bytesAt, List.length_map, List.length_range]

theorem RvSoc.array_setArray (soc : RvSoc δ) {target : BusTarget} (hmem : target.IsMemory)
    (mem : Memory) (other : BusTarget) :
    (soc.setArray target mem).array other = if other = target then mem else soc.array other := by
  rcases hmem with rfl | rfl | rfl <;> cases other <;> rfl

/-- A write is seen at its own addresses and nowhere else. -/
theorem RvSoc.byteAt_writeBytes (soc : RvSoc δ) {a len : Nat} (hmapped : Mapped a len)
    (value : List Byte) (b : Nat) :
    (soc.writeBytes a value len).byteAt b =
      if a ≤ b ∧ b < a + len then some (value.getD (b - a) 0) else soc.byteAt b := by
  obtain ⟨target, hat, hcontains⟩ := hmapped
  obtain ⟨hmem, hfirst⟩ := isMemory_of_memoryAt hat
  rw [RvSoc.writeBytes, hat]
  by_cases hb : a ≤ b ∧ b < a + len
  · have hbat := memoryAt_add hat hcontains (i := b - a) (by omega)
    rw [Nat.add_sub_cancel' hb.1] at hbat
    have hlow := hcontains.1
    rw [if_pos hb, RvSoc.byteAt_of_memoryAt _ hbat, RvSoc.array_setArray _ hmem, if_pos rfl,
      Memory.write, if_pos (by omega)]
    congr 2
    omega
  · rw [if_neg hb, RvSoc.byteAt, RvSoc.byteAt]
    cases hbat : memoryAt b with
    | none => rfl
    | some other =>
        simp only [Option.map_some, RvSoc.array_setArray _ hmem, Option.some.injEq]
        split
        · next heq =>
            subst heq
            have hlow := (isMemory_of_memoryAt hbat).2.1
            have hlow' := hcontains.1
            rw [Memory.write, if_neg (by omega)]
        · rfl

theorem RvSoc.devices_setArray (soc : RvSoc δ) (target : BusTarget) (mem : Memory) :
    (soc.setArray target mem).devices = soc.devices := by
  cases target <;> rfl

theorem RvSoc.devices_writeBytes (soc : RvSoc δ) (a : Nat) (value : List Byte) (len : Nat) :
    (soc.writeBytes a value len).devices = soc.devices := by
  rw [RvSoc.writeBytes]
  split
  · exact soc.devices_setArray _ _
  · rfl

theorem RvSoc.setArray_eq_self_iff (soc : RvSoc δ) {target : BusTarget} (hmem : target.IsMemory)
    (mem : Memory) : soc.setArray target mem = soc ↔ mem = soc.array target := by
  constructor
  · intro heq
    have harray := soc.array_setArray hmem mem target
    rw [heq, if_pos rfl] at harray
    exact harray.symm
  · rintro rfl
    rcases hmem with rfl | rfl | rfl <;> rfl

theorem RvSoc.writeBytes_eq_self_iff (soc : RvSoc δ) {a len : Nat} (hmapped : Mapped a len)
    {value : List Byte} (hvalue : value.length = len) :
    soc.writeBytes a value len = soc ↔ soc.bytesAt a len = value := by
  obtain ⟨target, hat, hcontains⟩ := hmapped
  obtain ⟨hmem, -⟩ := isMemory_of_memoryAt hat
  rw [RvSoc.writeBytes, hat, soc.bytesAt_eq hat hcontains]
  exact (soc.setArray_eq_self_iff hmem _).trans (Memory.write_eq_self_iff _ _ hvalue)

/-! ### Accesses -/

instance decidableIsMemory (target : BusTarget) : Decidable target.IsMemory :=
  inferInstanceAs (Decidable (target = .ram ∨ target = .mrom ∨ target = .fromMem))

theorem memAccessCbs_memory (useSimpleUart : Bool) (entry : MemAccessCb w)
    (h : entry ∈ rvSocInitMemAccessCbs w useSimpleUart) (hmem : entry.target.IsMemory) :
    entry.region = entry.target.memory := by
  revert h hmem entry
  cases w <;> cases useSimpleUart <;> decide

theorem exists_memory_entry (w : Xlen) (useSimpleUart : Bool) {target : BusTarget}
    (hmem : target.IsMemory) :
    ∃ (i : Nat) (entry : MemAccessCb w),
      (rvSocInitMemAccessCbs w useSimpleUart)[i]? = some entry ∧ entry.target = target := by
  rcases hmem with rfl | rfl | rfl
  · exact ⟨0, _, rfl, rfl⟩
  · exact ⟨4, _, rfl, rfl⟩
  · exact ⟨5, _, rfl, rfl⟩

/-- An offset that a memory entry is given leaves room for the access. -/
theorem offset_toNat {entry : MemAccessCb w} {address : RvUintXlen w} {len : Nat}
    (h : entry.region.Contains address.toNat len) :
    (address - entry.addrStart).toNat = address.toNat - entry.region.start :=
  BitVec.toNat_sub_of_le (BitVec.le_def.mpr h.1)

section Accesses

variable (useSimpleUart : Bool) (deviceAccess : BusTarget → BusAccessFunc w δ) (soc : RvSoc δ)
  (privLevel : PrivilegeLevel) (value : List Byte)

/-- The callback of a memory, at the offset of a mapped access. -/
theorem busTargetAccess_memory {target : BusTarget} {a len : Nat} (hat : memoryAt a = some target)
    (hcontains : target.memory.Contains a len) {offset : RvUintXlen w}
    (hoffset : offset.toNat = a - target.memory.start) (accessType : BusAccessType) :
    busTargetAccess deviceAccess target soc privLevel accessType offset value len =
      if accessType = .write then .ok (.ok, value, soc.writeBytes a value len)
      else .ok (.ok, soc.bytesAt a len ++ value.drop len, soc) := by
  obtain ⟨hmem, -⟩ := isMemory_of_memoryAt hat
  have hroom : ¬ target.memory.size < offset.toNat + len := by
    obtain ⟨hlow, hhigh⟩ := hcontains
    omega
  rw [hoffset] at hroom
  rw [RvSoc.writeBytes, hat, soc.bytesAt_eq hat hcontains]
  by_cases hwrite : accessType = .write
  · rw [if_pos hwrite]
    rcases hmem with rfl | rfl | rfl <;> simp only [BusTarget.memory] at hroom hoffset ⊢ <;>
      simp only [busTargetAccess, memoryBusAccess, if_neg hroom, if_pos hwrite, hoffset,
        Except.ok_bind, Except.pure_eq_ok, RvSoc.setArray, RvSoc.array]
  · rw [if_neg hwrite]
    rcases hmem with rfl | rfl | rfl <;> simp only [BusTarget.memory] at hroom hoffset ⊢ <;>
      simp only [busTargetAccess, memoryBusAccess, if_neg hroom, if_neg hwrite, hoffset,
        Memory.read, Except.ok_bind, Except.pure_eq_ok, RvSoc.array]

theorem rvSocBusAccess_mapped {address : RvUintXlen w} {len : Nat} (hlen : 0 < len)
    (hmapped : Mapped address.toNat len) (accessType : BusAccessType) :
    rvSocBusAccess useSimpleUart deviceAccess soc privLevel accessType address value len =
      if accessType = .write then .ok (.ok, value, soc.writeBytes address.toNat value len)
      else .ok (.ok, soc.bytesAt address.toNat len ++ value.drop len, soc) := by
  obtain ⟨target, hat, hcontains⟩ := hmapped
  obtain ⟨hmem, -⟩ := isMemory_of_memoryAt hat
  obtain ⟨i, entry, hentry, rfl⟩ := exists_memory_entry w useSimpleUart hmem
  have hregion := memAccessCbs_memory useSimpleUart entry (List.mem_of_getElem? hentry) hmem
  have hwithin : entry.region.Contains address.toNat len := hregion ▸ hcontains
  have hend := memAccessCbs_end_lt useSimpleUart entry (List.mem_of_getElem? hentry)
  have hnowrap : address.toNat + len < 2 ^ w.bits := Nat.lt_of_le_of_lt hwithin.2 hend
  have hdispatch := (dispatch_eq_some_iff useSimpleUart hlen hnowrap).mpr ⟨hentry, hwithin, rfl⟩
  rw [rvSocBusAccess, hdispatch]
  refine busTargetAccess_memory deviceAccess soc privLevel value hat hcontains ?_ accessType
  rw [offset_toNat hwithin, hregion]

end Accesses

/-- Where an access goes: nowhere, to mapped bytes, or to a device. -/
theorem rvSocBusAccess_route (useSimpleUart : Bool) (deviceAccess : BusTarget → BusAccessFunc w δ)
    (address : RvUintXlen w) {len : Nat} (hlen : 0 < len ∧ len ≤ 8) :
    (∃ e, ∀ soc privLevel accessType value, rvSocBusAccess useSimpleUart deviceAccess soc privLevel
        accessType address value len = .error e) ∨
      address.toNat + len < 2 ^ w.bits ∧ (Mapped address.toNat len ∨
        ∃ target offset, ∀ soc privLevel accessType value,
          rvSocBusAccess useSimpleUart deviceAccess soc privLevel accessType address value len =
            (deviceAccess target soc.devices privLevel accessType offset value len).map
              fun r => (r.1, r.2.1, { soc with devices := r.2.2 })) := by
  by_cases hwrap : 2 ^ w.bits ≤ address.toNat + len
  · refine .inl ⟨.outOfBounds, fun soc privLevel accessType value => ?_⟩
    have hpast := offset_of_wrap hlen.2 hwrap
    simp only [rvSocBusAccess, dispatch_of_wrap useSimpleUart hlen.2 hwrap, initMemAccessStruct,
      busTargetAccess, memoryBusAccess, if_pos hpast, Except.error_bind]
  · have hnowrap := Nat.not_le.mp hwrap
    cases hdispatch : dispatch (rvSocInitMemAccessCbs w useSimpleUart) address len with
    | none =>
        refine .inl ⟨.die (.invalidAddress address.toNat len), fun soc _ _ _ => ?_⟩
        rw [rvSocBusAccess, hdispatch]
    | some found =>
        obtain ⟨i, entry, offset⟩ := found
        obtain ⟨hentry, hcontains, -⟩ :=
          (dispatch_eq_some_iff useSimpleUart hlen.1 hnowrap).mp hdispatch
        refine .inr ⟨hnowrap, ?_⟩
        by_cases hmem : entry.target.IsMemory
        · refine .inl (mapped_of_contains hlen.1 hmem ?_)
          rw [← memAccessCbs_memory useSimpleUart entry (List.mem_of_getElem? hentry) hmem]
          exact hcontains
        · refine .inr ⟨entry.target, offset, fun soc privLevel accessType value => ?_⟩
          rw [rvSocBusAccess, hdispatch]
          obtain ⟨access, haccess⟩ : ∃ access, deviceAccess entry.target soc.devices privLevel
            accessType offset value len = access := ⟨_, rfl⟩
          show busTargetAccess deviceAccess entry.target soc privLevel accessType offset value
            len = _
          rw [haccess]
          cases htarget : entry.target <;> rw [htarget] at hmem haccess <;>
            simp only [busTargetAccess, haccess]
          case ram | mrom | fromMem => exact absurd (by simp [BusTarget.IsMemory]) hmem
          all_goals cases access <;> rfl

end RiscvEm
