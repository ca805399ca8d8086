import RiscvEm.Core.Behind
import RiscvEm.Core.Sv32
import RiscvEm.Soc.FetchBytes

/-!
What a translation does to the system. The reads of page tables change nothing, with one
exception: where a table lies on the claim register of the PLIC, its read is a claim. An
entry that was read there holds an identifier below 256, and no such entry leads into the
RAM.
-/

namespace RiscvEm

variable {w : Xlen} {useSimpleUart : Bool}

/-! ### Reads -/

/-- A claim looks at an identifier below 256, and changes nothing but the claimed bits. -/
theorem plicBusAccess_read_cases {plic : Plic} {privLevel : PrivilegeLevel}
    {accessType : BusAccessType} {address : RvUintXlen w} {value : List Byte} {len : Nat}
    {r : RvRet × List Byte × Plic} (htype : accessType ≠ .write) (hlen : 4 ≤ len)
    (h : plicBusAccess plic privLevel accessType address value len = .ok r) :
    r.2.2 = plic ∨ leNat (r.2.1.take 4) < 256 := by
  rw [plicBusAccess] at h
  cases hptr : getU8RegPtr address.toNat with
  | none =>
      rw [hptr] at h
      obtain rfl := Except.ok.inj h
      exact .inl rfl
  | some reg =>
      obtain ⟨u8Ptr, isClaimComplete⟩ := reg
      rw [hptr] at h
      simp only [if_neg htype] at h
      split at h
      · cases h
      · cases isClaimComplete with
        | false =>
            obtain rfl := Except.ok.inj h
            exact .inl rfl
        | true =>
            obtain ⟨plic', hclaim, h⟩ := Except.bind_eq_ok.mp h
            obtain rfl := Except.ok.inj h
            refine .inr ?_
            have hid := plicClaim_returns_iff.mp ⟨plic', hclaim⟩
            have hfour : (Memory.read (wordBytes plic.words) u8Ptr [] 4).take 4 =
                Memory.read (wordBytes plic.words) u8Ptr [] 4 :=
              List.take_of_length_le (by simp [Memory.read])
            rw [take_memoryRead _ _ value [] hlen, hfour]
            exact hid

/-- A read of at least four bytes leaves the system as it was, or is one of the PLIC. -/
theorem socBusAccess_read_target {soc : RvSoc Devices} {privLevel : PrivilegeLevel}
    {accessType : BusAccessType} {address : RvUintXlen w} {value : List Byte} {len : Nat}
    {r : RvRet × List Byte × RvSoc Devices} (htype : accessType ≠ .write) (hlen : 4 ≤ len)
    (h : socBusAccess useSimpleUart soc privLevel accessType address value len = .ok r) :
    ∃ i entry offset,
      dispatch (rvSocInitMemAccessCbs w useSimpleUart) address len = some (i, entry, offset) ∧
      ((entry.target ≠ .plic ∧ r.2.2 = soc) ∨ (entry.target = .plic ∧ ∃ ret bytes plic,
        plicBusAccess soc.devices.plic privLevel accessType offset value len =
          .ok (ret, bytes, plic) ∧
        r = (ret, bytes, { soc with devices := { soc.devices with plic := plic } }))) := by
  rw [socBusAccess, rvSocBusAccess] at h
  cases hdispatch : dispatch (rvSocInitMemAccessCbs w useSimpleUart) address len with
  | none =>
      rw [hdispatch] at h
      cases h
  | some found =>
      obtain ⟨index, entry, offset⟩ := found
      rw [hdispatch] at h
      refine ⟨index, entry, offset, rfl, ?_⟩
      simp only [busTargetAccess] at h
      cases htarget : entry.target with
      | ram | mrom | fromMem =>
          simp only [htarget, memoryBusAccess, if_neg htype] at h
          split at h
          · cases h
          · obtain rfl := Except.ok.inj h
            exact .inl ⟨by decide, rfl⟩
      | clint =>
          simp only [htarget, deviceAccess, clintBusAccess, if_neg htype] at h
          obtain ⟨b, hb, h⟩ := Except.bind_eq_ok.mp h
          obtain rfl := Except.ok.inj h
          obtain ⟨a, ha, h⟩ := Except.bind_eq_ok.mp hb
          obtain rfl := Except.ok.inj h
          have hsame : a.2.2 = soc.devices.clint := by
            split at ha
            · obtain rfl := Except.ok.inj ha
              rfl
            · split at ha
              · cases ha
              · obtain rfl := Except.ok.inj ha
                rfl
          refine .inl ⟨by decide, ?_⟩
          rw [hsame]
      | plic =>
          simp only [htarget, deviceAccess] at h
          obtain ⟨b, hb, h⟩ := Except.bind_eq_ok.mp h
          obtain rfl := Except.ok.inj h
          obtain ⟨⟨ret, bytes, plic⟩, ha, h⟩ := Except.bind_eq_ok.mp hb
          obtain rfl := Except.ok.inj h
          exact .inr ⟨rfl, ret, bytes, plic, ha, rfl⟩
      | uart =>
          -- both UARTs stop on accesses of more than one byte
          have hone : len ≠ 1 := by omega
          simp only [htarget, deviceAccess, simpleUartBusAccess, uartBusAccess, if_pos hone] at h
          cases useSimpleUart <;> cases h

/-- A read of at least four bytes leaves the system as it was, or is a claim. -/
theorem socBusAccess_read_cases {soc : RvSoc Devices} {privLevel : PrivilegeLevel}
    {accessType : BusAccessType} {address : RvUintXlen w} {value : List Byte} {len : Nat}
    {r : RvRet × List Byte × RvSoc Devices} (htype : accessType ≠ .write) (hlen : 4 ≤ len)
    (h : socBusAccess useSimpleUart soc privLevel accessType address value len = .ok r) :
    r.2.2 = soc ∨ (leNat (r.2.1.take 4) < 256 ∧
      ∃ plic, r.2.2 = { soc with devices := { soc.devices with plic := plic } }) := by
  obtain ⟨i, entry, offset, -, ⟨-, hsame⟩ | ⟨-, ret, bytes, plic, hplic, rfl⟩⟩ :=
    socBusAccess_read_target htype hlen h
  · exact .inl hsame
  · rcases plicBusAccess_read_cases htype hlen hplic with hsame | hid
    · refine .inl ?_
      show { soc with devices := { soc.devices with plic := plic } } = soc
      rw [show plic = soc.devices.plic from hsame]
    · exact .inr ⟨hid, plic, rfl⟩

/-! ### The memories -/

def SameMemories (soc soc' : RvSoc Devices) : Prop :=
  soc'.ram = soc.ram ∧ soc'.mrom = soc.mrom ∧ soc'.fromMem = soc.fromMem

instance isPreorder_sameMemories : IsPreorder (RvSoc Devices) SameMemories where
  refl _ := ⟨rfl, rfl, rfl⟩
  trans _ _ _ h h' :=
    ⟨h'.1.trans h.1, h'.2.1.trans h.2.1, h'.2.2.trans h.2.2⟩

theorem respects_sameMemories {accessType : BusAccessType} (htype : accessType ≠ .write) :
    Respects (w := w) (socBusAccess useSimpleUart) SameMemories accessType w.bytes := by
  intro soc privLevel addr value r h
  rcases socBusAccess_read_cases htype four_le_bytes.1 h with hsame | ⟨-, plic, hplic⟩
  · rw [hsame]
    exact refl_of SameMemories soc
  · rw [hplic]
    exact ⟨rfl, rfl, rfl⟩

/-! ### Entries that a claim has read -/

/-- The low word of the entry is an identifier below 256. -/
def LowEntry (pte : RvUintXlen w) : Prop := pte.toNat % 2 ^ 32 < 256

theorem lowEntry_of_bytes {bytes : List Byte} (h : leNat (bytes.take 4) < 256) :
    LowEntry (BitVec.ofNat w.bits (leNat (bytes.take w.bytes))) := by
  have hfour : leNat (bytes.take 4) = leNat bytes % 2 ^ 32 := leNat_take 4 bytes
  rw [LowEntry, BitVec.toNat_ofNat, leNat_take]
  cases w with
  | rv32 =>
      simp only [Xlen.bytes, Xlen.bits]
      omega
  | rv64 =>
      simp only [Xlen.bytes, Xlen.bits]
      omega

theorem LowEntry.ppn {pte : RvUintXlen w} (h : LowEntry pte) :
    (pte <<< 2 >>> 12) &&& 0x3ff = 0#w.bits ∧ (pte <<< 2 >>> 22) &&& 0xfff = 0#w.bits := by
  rw [LowEntry] at h
  have hlt := pte.isLt
  have hfield (shift k : Nat) (mask : RvUintXlen w) (hmask : mask.toNat = 2 ^ k - 1) :
      ((pte <<< 2 >>> shift) &&& mask).toNat = pte.toNat * 4 % 2 ^ w.bits / 2 ^ shift % 2 ^ k := by
    rw [BitField.toNat_and_ones _ hmask, BitVec.toNat_ushiftRight, BitVec.toNat_shiftLeft,
      Nat.shiftRight_eq_div_pow, Nat.shiftLeft_eq]
  have hzero : (0#w.bits).toNat = 0 := by cases w <;> rfl
  constructor
  · apply BitVec.eq_of_toNat_eq
    rw [hfield 12 10 0x3ff (by cases w <;> rfl), hzero]
    cases w with
    | rv32 =>
        simp only [Xlen.bits] at hlt ⊢
        omega
    | rv64 =>
        simp only [Xlen.bits] at hlt ⊢
        omega
  · apply BitVec.eq_of_toNat_eq
    rw [hfield 22 12 0xfff (by cases w <;> rfl), hzero]
    cases w with
    | rv32 =>
        simp only [Xlen.bits] at hlt ⊢
        omega
    | rv64 =>
        simp only [Xlen.bits] at hlt ⊢
        omega

/-- The entries of the bus begin above the first page and end within the first 4 GiB. -/
theorem memAccessCbs_bounds (useSimpleUart : Bool) (entry : MemAccessCb w)
    (h : entry ∈ rvSocInitMemAccessCbs w useSimpleUart) :
    2 ^ 12 ≤ entry.addrStart.toNat ∧
      entry.addrStart.toNat + entry.memSize.toNat ≤ 2 ^ 32 := by
  revert h entry
  cases w <;> cases useSimpleUart <;> decide

theorem socBusAccess_firstPage {soc : RvSoc Devices} {privLevel : PrivilegeLevel}
    {accessType : BusAccessType} {address : RvUintXlen w} {value : List Byte} {len : Nat}
    {r : RvRet × List Byte × RvSoc Devices} (hlen : 0 < len) (hlen' : len ≤ 8)
    (hlow : address.toNat % 2 ^ 32 < 2 ^ 12) :
    socBusAccess useSimpleUart soc privLevel accessType address value len ≠ .ok r := by
  have hnowrap : address.toNat + len < 2 ^ w.bits := by
    have hlt := address.isLt
    cases w with
    | rv32 =>
        simp only [Xlen.bits] at hlt ⊢
        omega
    | rv64 =>
        simp only [Xlen.bits] at hlt ⊢
        omega
  rw [socBusAccess, rvSocBusAccess]
  cases hdispatch : dispatch (rvSocInitMemAccessCbs w useSimpleUart) address len with
  | none =>
      intro h
      cases h
  | some found =>
      obtain ⟨index, entry, offset⟩ := found
      obtain ⟨hentry, ⟨hstart, hend⟩, -⟩ :=
        (dispatch_eq_some_iff useSimpleUart hlen hnowrap).mp hdispatch
      obtain ⟨habove, hbelow⟩ :=
        memAccessCbs_bounds useSimpleUart entry (List.mem_of_getElem? hentry)
      have hstart' : entry.addrStart.toNat ≤ address.toNat := hstart
      have hend' : address.toNat + len ≤ entry.addrStart.toNat + entry.memSize.toNat := hend
      omega

theorem LowEntry.nextTable {pte : RvUintXlen w} (h : LowEntry pte) (virtAddr : RvUintXlen w)
    (i : Nat) : ((pte >>> 10) * 4096 + vpn virtAddr i * 4).toNat % 2 ^ 32 < 2 ^ 12 := by
  rw [LowEntry] at h
  have hlt := pte.isLt
  have hvpn : (vpn virtAddr i).toNat < 2 ^ 10 := by
    rw [vpn, BitField.toNat_and_ones (k := 10) _ (by cases w <;> rfl)]
    exact Nat.mod_lt _ (by decide)
  have hpage : (4096 : RvUintXlen w).toNat = 4096 := by cases w <;> rfl
  have hfour : (4 : RvUintXlen w).toNat = 4 := by cases w <;> rfl
  rw [BitVec.toNat_add, BitVec.toNat_mul, BitVec.toNat_mul, BitVec.toNat_ushiftRight,
    Nat.shiftRight_eq_div_pow, hpage, hfour]
  cases w with
  | rv32 =>
      simp only [Xlen.bits] at hlt hvpn ⊢
      omega
  | rv64 =>
      simp only [Xlen.bits] at hlt hvpn ⊢
      omega

def pageAddress (virtAddr pte : RvUintXlen w) (i : Nat) : BitVec 64 :=
  let ppn0 := (pte <<< 2 >>> 12) &&& 0x3ff
  let ppn1 := (pte <<< 2 >>> 22) &&& 0xfff
  BitVec.setWidth 64 (if i = 0 then (ppn1 <<< 22) ||| (ppn0 <<< 12) ||| (virtAddr &&& 0xfff)
    else (ppn1 <<< 22) ||| (virtAddr &&& 0x3fffff))

/-- The checks on a leaf decide whether there is an address, and not which. -/
theorem mmuLeaf_address {p : PrivilegeLevel} {virtAddr pte : RvUintXlen w}
    {accessType : BusAccessType} {mxr sum : Bool} {i : Nat} {phys : BitVec 64}
    (h : mmuLeaf p virtAddr accessType mxr sum i pte = some phys) :
    phys = pageAddress virtAddr pte i := by
  simp only [mmuLeaf, Option.ite_none_left_eq_some, Option.some.injEq] at h
  exact h.2.2.2.2.2.symm

theorem LowEntry.pageAddress_lt {pte : RvUintXlen w} (h : LowEntry pte) (virtAddr : RvUintXlen w)
    (i : Nat) : (pageAddress virtAddr pte i).toNat < 2 ^ 22 := by
  obtain ⟨h0, h1⟩ := h.ppn
  have hpage : (virtAddr &&& 0xfff).toNat = virtAddr.toNat % 2 ^ 12 :=
    BitField.toNat_and_ones virtAddr (by cases w <;> rfl)
  have hmega : (virtAddr &&& 0x3fffff).toNat = virtAddr.toNat % 2 ^ 22 :=
    BitField.toNat_and_ones virtAddr (by cases w <;> rfl)
  have hle {v : RvUintXlen w} : (v.setWidth 64).toNat ≤ v.toNat := by
    rw [BitVec.toNat_setWidth]
    exact Nat.mod_le _ _
  simp only [pageAddress, h0, h1, BitVec.zero_shiftLeft, BitVec.zero_or]
  split
  · refine Nat.lt_of_le_of_lt hle ?_
    rw [hpage]
    omega
  · refine Nat.lt_of_le_of_lt hle ?_
    rw [hmega]
    omega

/-! ### Walks -/

section Walks

variable {s s' : RvCore w (RvSoc Devices)} {p : PrivilegeLevel} {virtAddr a pte : RvUintXlen w}

/-- The read of an entry is refused, or it leaves the state as it was, or it is a claim. -/
theorem tableRead_cases {addr : RvUintXlen w} {bytes : List Byte} {ret : RvRet}
    (h : pmpCheckedBusAccess (socBusAccess useSimpleUart) s p .read addr
      (leBytes w.bytes pte.toNat) w.bytes = .ok (ret, bytes, s')) :
    BitVec.ofNat w.bits (leNat (bytes.take w.bytes)) = pte ∨ s' = s ∨
      LowEntry (BitVec.ofNat w.bits (leNat (bytes.take w.bytes))) := by
  rcases pmpCheckedBusAccess_cases h with ⟨-, -, rfl, -⟩ | ⟨-, hbus, hs'⟩
  · exact .inl (ofNat_leNat_leBytes pte)
  · rcases socBusAccess_read_cases (by decide) four_le_bytes.1 hbus with hsame | ⟨hid, -⟩
    · have hpriv : s'.priv = s.priv := hsame
      rw [hpriv] at hs'
      exact .inr (.inl hs')
    · exact .inr (.inr (lowEntry_of_bytes hid))

theorem pteInvalid_zero : pteInvalid (pteFlags (0 : RvUintXlen w)) = true := by
  simp [pteInvalid, pteFlags, checkBit]

theorem mmuWalk_last {i : Nat} {leaf : RvUintXlen w} (hptr : pteFlags pte &&& 0xA = 0)
    (h : mmuWalk (socBusAccess useSimpleUart) p virtAddr 0 a pte s = .ok (some (i, leaf), s')) :
    s' = s ∨ LowEntry leaf := by
  obtain ⟨ret, bytes, s₁, hread, hcases⟩ := mmuWalk_eq_ok h
  rcases hcases with ⟨-, hnone, -⟩ | ⟨-, hflags, hleaf, rfl⟩ | ⟨-, -, -, hnone, -⟩ |
      ⟨-, -, j, hj, -⟩
  · cases hnone
  · obtain ⟨-, rfl⟩ := Prod.mk.inj (Option.some.inj hleaf)
    rcases tableRead_cases hread with hstale | hsame | hlow
    · -- a refused read leaves the pointer, which is no leaf
      rw [hstale] at hflags
      exact absurd hptr hflags
    · exact .inl hsame
    · exact .inr hlow
  · cases hnone
  · omega

/-- From an entry that a claim has read the walk goes on to the first page, where nothing
is read. -/
theorem mmuWalk_of_low {i : Nat} {leaf : RvUintXlen w} (hlow : LowEntry pte)
    (hptr : pteFlags pte &&& 0xA = 0) :
    mmuWalk (socBusAccess useSimpleUart) p virtAddr 0 ((pte >>> 10) * 4096) pte s ≠
      .ok (some (i, leaf), s') := by
  intro h
  obtain ⟨ret, bytes, s₁, hread, hcases⟩ := mmuWalk_eq_ok h
  obtain ⟨hfour, height⟩ := four_le_bytes (w := w)
  rcases pmpCheckedBusAccess_cases hread with ⟨-, -, rfl, -⟩ | ⟨-, hbus, -⟩
  · rw [ofNat_leNat_leBytes] at hcases
    rcases hcases with ⟨-, hnone, -⟩ | ⟨-, hflags, -, -⟩ | ⟨-, -, -, hnone, -⟩ | ⟨-, -, j, hj, -⟩
    · cases hnone
    · exact hflags hptr
    · cases hnone
    · omega
  · exact socBusAccess_firstPage (by omega) height (hlow.nextTable virtAddr 0) hbus

/-- A walk that reaches a leaf leaves the state as it was, or the leaf is an entry that a
claim has read. -/
theorem mmuWalk_leaf {i : Nat} {leaf : RvUintXlen w}
    (h : mmuWalk (socBusAccess useSimpleUart) p virtAddr 1 a 0 s = .ok (some (i, leaf), s')) :
    s' = s ∨ LowEntry leaf := by
  obtain ⟨ret, bytes, s₁, hread, hcases⟩ := mmuWalk_eq_ok h
  have hread' := tableRead_cases hread
  -- a refused read leaves zero, which is not valid
  have hvalid (hval : pteInvalid (pteFlags (BitVec.ofNat w.bits (leNat (bytes.take w.bytes)))) =
      false) : BitVec.ofNat w.bits (leNat (bytes.take w.bytes)) ≠ 0 := by
    intro hzero
    rw [hzero, pteInvalid_zero] at hval
    cases hval
  rcases hcases with ⟨-, hnone, -⟩ | ⟨hval, -, hleaf, rfl⟩ | ⟨-, -, hi, -⟩ |
      ⟨hval, hptr, j, hj, hwalk⟩
  · cases hnone
  · obtain ⟨-, rfl⟩ := Prod.mk.inj (Option.some.inj hleaf)
    exact hread'.resolve_left (hvalid hval)
  · omega
  · obtain rfl : j = 0 := by omega
    rcases hread'.resolve_left (hvalid hval) with rfl | hlow
    · exact mmuWalk_last hptr hwalk
    · exact absurd hwalk (mmuWalk_of_low hlow hptr)

end Walks

/-! ### Translations into the RAM -/

/-- The translation of a load or a store: it leaves what its walk does. -/
theorem mmuVirtToPhys_data_cases {σ : Type} {busAccess : BusAccessFunc w σ} {s s' : RvCore w σ}
    {p : PrivilegeLevel} {virtAddr : RvUintXlen w} {accessType : BusAccessType}
    (htype : accessType ≠ .instr) {mxr sum : Bool} {physAddr : Option (BitVec 64)}
    (h : mmuVirtToPhys busAccess s p virtAddr accessType mxr sum = .ok (physAddr, s')) :
    ((p = .machine ∨ satpMode s.mmu.satpReg = 0) ∧
        physAddr = some (virtAddr.setWidth 64) ∧ s' = s) ∨
      (¬ (p = .machine ∨ satpMode s.mmu.satpReg = 0) ∧ ∃ leaf,
        mmuWalk busAccess p virtAddr 1 ((s.mmu.satpReg &&& 0x3FFFFF) * 4096) 0 s =
          .ok (leaf, s') ∧
        physAddr = leaf.bind fun l => mmuLeaf p virtAddr accessType mxr sum l.1 l.2) := by
  simp only [mmuVirtToPhys] at h
  by_cases hbare : p = .machine ∨ satpMode s.mmu.satpReg = 0
  · rw [if_pos hbare] at h
    obtain ⟨rfl, rfl⟩ := Prod.mk.inj (Except.ok.inj h)
    exact .inl ⟨hbare, rfl, rfl⟩
  · rw [if_neg hbare, Except.bind_eq_ok] at h
    obtain ⟨⟨leaf, s₁⟩, hwalk, h⟩ := h
    refine .inr ⟨hbare, leaf, ?_⟩
    cases leaf with
    | none =>
        obtain ⟨rfl, rfl⟩ := Prod.mk.inj (Except.ok.inj h)
        exact ⟨hwalk, rfl⟩
    | some l =>
        simp only [Option.bind_some]
        cases hleaf : mmuLeaf p virtAddr accessType mxr sum l.1 l.2 with
        | none =>
            simp only [hleaf] at h
            obtain ⟨rfl, rfl⟩ := Prod.mk.inj (Except.ok.inj h)
            exact ⟨hwalk, rfl⟩
        | some phys =>
            simp only [hleaf, if_neg htype] at h
            obtain ⟨rfl, rfl⟩ := Prod.mk.inj (Except.ok.inj h)
            exact ⟨hwalk, rfl⟩

section IntoRam

variable {s s' : RvCore w (RvSoc Devices)} {p : PrivilegeLevel} {virtAddr : RvUintXlen w}
  {mxr sum : Bool} {phys : BitVec 64} {len : Nat}

/-- A load or a store that is translated into the RAM finds the state as it was. -/
theorem mmuVirtToPhys_into_ram {accessType : BusAccessType} (htype : accessType ≠ .instr)
    (h : mmuVirtToPhys (socBusAccess useSimpleUart) s p virtAddr accessType mxr sum =
      .ok (some phys, s')) (hram : InRam (phys.setWidth w.bits : RvUintXlen w) len) : s' = s := by
  rcases mmuVirtToPhys_data_cases htype h with ⟨-, -, rfl⟩ | ⟨-, leaf, hwalk, hphys⟩
  · rfl
  · obtain ⟨⟨i, pte⟩, rfl, hleaf⟩ := Option.bind_eq_some_iff.mp hphys.symm
    rcases mmuWalk_leaf hwalk with rfl | hlow
    · rfl
    · have haddr : phys.toNat < 2 ^ 22 := by
        rw [mmuLeaf_address hleaf]
        exact hlow.pageAddress_lt virtAddr i
      have hle : (phys.setWidth w.bits).toNat ≤ phys.toNat := by
        rw [BitVec.toNat_setWidth]
        exact Nat.mod_le _ _
      have hbase : ramBaseAddr ≤ (phys.setWidth w.bits).toNat := hram.1
      rw [ramBaseAddr] at hbase
      omega

/-- Where a load is translated into the RAM, a store is translated to the same address or
not at all. -/
theorem mmuVirtToPhys_store_of_load
    (h : mmuVirtToPhys (socBusAccess useSimpleUart) s p virtAddr .read mxr sum =
      .ok (some phys, s)) :
    ∃ physAddr, mmuVirtToPhys (socBusAccess useSimpleUart) s p virtAddr .write mxr sum =
      .ok (physAddr, s) ∧ ∀ phys' ∈ physAddr, phys' = phys := by
  rcases mmuVirtToPhys_data_cases (by decide) h with
    ⟨hbare, hphys, -⟩ | ⟨hactive, leaf, hwalk, hphys⟩
  · refine ⟨some (virtAddr.setWidth 64), ?_, ?_⟩
    · rw [mmuVirtToPhys, if_pos hbare]
      rfl
    · rintro phys' hphys'
      exact Option.some.inj (hphys'.symm.trans hphys.symm)
  · obtain ⟨s₁, htrans⟩ := mmuVirtToPhys_of_walk .write mxr sum hactive hwalk
    rcases mmuVirtToPhys_data_cases (by decide) htrans with ⟨hbare, -⟩ | ⟨-, leaf', hwalk', -⟩
    · exact absurd hbare hactive
    · obtain ⟨-, rfl⟩ := Prod.mk.inj (Except.ok.inj (hwalk.symm.trans hwalk'))
      refine ⟨_, htrans, ?_⟩
      intro phys' hphys'
      obtain ⟨⟨i, pte⟩, rfl, hleaf⟩ := Option.bind_eq_some_iff.mp hphys.symm
      have hleaf' : mmuLeaf p virtAddr .write mxr sum i pte = some phys' := hphys'
      rw [mmuLeaf_address hleaf, mmuLeaf_address hleaf']

end IntoRam

end RiscvEm
