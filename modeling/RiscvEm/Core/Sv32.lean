import RiscvEm.Core.AccessSpec
import RiscvEm.HelperSpec

/-!
Sv32 translation as the specification describes it, over exact addresses and a memory
of page-table entries, and the refinement of it by `mmu_virt_to_phys`.
-/

namespace RiscvEm

variable {σ : Type}

/-! ### The walk of the specification -/

namespace Sv32

def vpn (va : BitVec 32) (i : Nat) : Nat := va.toNat / 2 ^ (12 + 10 * i) % 2 ^ 10

def ppn (pte : BitVec 32) : Nat := pte.toNat / 2 ^ 10

/-- The entry is valid, and not writable without being readable. -/
def Valid (pte : BitVec 32) : Prop :=
  pte.getLsbD 0 = true ∧ ¬ (pte.getLsbD 1 = false ∧ pte.getLsbD 2 = true)

instance decidableValid (pte : BitVec 32) : Decidable (Valid pte) :=
  inferInstanceAs (Decidable (_ ∧ _))

/-- The entry can be read or executed through, so that it is not a pointer. -/
def IsLeaf (pte : BitVec 32) : Prop := pte.getLsbD 1 = true ∨ pte.getLsbD 3 = true

instance decidableIsLeaf (pte : BitVec 32) : Decidable (IsLeaf pte) :=
  inferInstanceAs (Decidable (_ ∨ _))

/-- The walk through `n` more levels of tables, the first of which is at `base`: the
level of the leaf and its entry, `none` for a page fault. -/
def walk (mem : Nat → BitVec 32) (va : BitVec 32) : Nat → Nat → Option (Nat × BitVec 32)
  | 0, _ => none
  | i + 1, base =>
      let pte := mem (base + 4 * vpn va i)
      if ¬ Valid pte then none
      else if IsLeaf pte then some (i, pte)
      else walk mem va i (4096 * ppn pte)

def entries (mem : Nat → BitVec 32) (va : BitVec 32) : Nat → Nat → List Nat
  | 0, _ => []
  | i + 1, base =>
      let addr := base + 4 * vpn va i
      if Valid (mem addr) ∧ ¬ IsLeaf (mem addr) then
        addr :: entries mem va i (4096 * ppn (mem addr))
      else [addr]

/-- The page is open to mode `p`. A page of user mode is open to supervisor mode for
data only. -/
structure OpenTo (p : PrivilegeLevel) (accessType : BusAccessType) (sum : Bool)
    (pte : BitVec 32) : Prop where
  user : p = .user → pte.getLsbD 4 = true
  supervisor : p = .supervisor → pte.getLsbD 4 = false ∨ (sum = true ∧ accessType ≠ .instr)

/-- The leaf of level `i` grants the access to the modes its page is open to. -/
structure Grants (accessType : BusAccessType) (mxr : Bool) (i : Nat) (pte : BitVec 32) :
    Prop where
  read : accessType = .read → pte.getLsbD 1 = true ∨ (pte.getLsbD 3 = true ∧ mxr = true)
  write : accessType = .write → pte.getLsbD 2 = true
  execute : accessType = .instr → pte.getLsbD 3 = true
  aligned : 0 < i → ppn pte % 2 ^ 10 = 0
  accessed : pte.getLsbD 6 = true
  dirty : accessType = .write → pte.getLsbD 7 = true

def address (va : BitVec 32) (i : Nat) (pte : BitVec 32) : Nat :=
  4096 * ppn pte + va.toNat % 2 ^ (12 + 10 * i)

/-- The leaf of a walk is one of the entries that it reads. -/
theorem walk_eq_some {mem : Nat → BitVec 32} {va : BitVec 32} {n base i : Nat} {pte : BitVec 32}
    (h : walk mem va n base = some (i, pte)) :
    i < n ∧ ∃ addr ∈ entries mem va n base, mem addr = pte := by
  induction n generalizing base with
  | zero => cases h
  | succ n ih =>
      rw [walk] at h
      rw [entries]
      split at h
      · cases h
      · split at h
        · next hvalid hleaf =>
            obtain ⟨rfl, rfl⟩ := Prod.mk.inj (Option.some.inj h)
            rw [if_neg (fun hptr => hptr.2 hleaf)]
            exact ⟨Nat.lt_succ_self _, _, List.mem_singleton_self _, rfl⟩
        · next hvalid hleaf =>
            obtain ⟨hi, addr, haddr, hpte⟩ := ih h
            rw [if_pos ⟨not_not.mp hvalid, hleaf⟩]
            exact ⟨Nat.lt_succ_of_lt hi, addr, List.mem_cons_of_mem _ haddr, hpte⟩

theorem vpn_lt (va : BitVec 32) (i : Nat) : vpn va i < 2 ^ 10 := Nat.mod_lt _ (by decide)

end Sv32

/-! ### Fields of an entry -/

theorem toNat_vpn (va : BitVec 32) (i : Nat) : (vpn (w := .rv32) va i).toNat = Sv32.vpn va i := by
  have hmask : (0x3ff : BitVec 32).toNat = 2 ^ 10 - 1 := rfl
  rw [vpn, BitVec.toNat_and, BitVec.toNat_ushiftRight, Nat.shiftRight_eq_div_pow, hmask,
    Nat.and_two_pow_sub_one_eq_mod, Sv32.vpn]

theorem checkBit_pteFlags (pte : BitVec 32) {k : Nat} (hk : k < 8) :
    checkBit (pteFlags (w := .rv32) pte) k = pte.getLsbD k := by
  rw [checkBit_eq_getLsbD, pteFlags, BitVec.getLsbD_setWidth]
  simp [hk]

theorem pteInvalid_iff (pte : BitVec 32) :
    pteInvalid (pteFlags (w := .rv32) pte) = true ↔ ¬ Sv32.Valid pte := by
  rw [pteInvalid, mmuPageValid, mmuPageRead, mmuPageWrite, checkBit_pteFlags pte (by decide),
    checkBit_pteFlags pte (by decide), checkBit_pteFlags pte (by decide), Sv32.Valid]
  cases pte.getLsbD 0 <;> cases pte.getLsbD 1 <;> cases pte.getLsbD 2 <;> simp

theorem flags_and_rx (flags : Byte) :
    flags &&& 0xA ≠ 0 ↔ flags.getLsbD 1 = true ∨ flags.getLsbD 3 = true := by
  revert flags
  decide

theorem pteLeaf_iff (pte : BitVec 32) :
    pteFlags (w := .rv32) pte &&& 0xA ≠ 0 ↔ Sv32.IsLeaf pte := by
  rw [flags_and_rx, ← checkBit_eq_getLsbD, ← checkBit_eq_getLsbD,
    checkBit_pteFlags pte (by decide), checkBit_pteFlags pte (by decide), Sv32.IsLeaf]

/-! ### The walk -/

/-- The reads of page-table entries at `addrs`, made one after the other, succeed and
find the contents of `mem`. -/
def TableReads (busAccess : BusAccessFunc .rv32 σ) (p : PrivilegeLevel) (mem : Nat → BitVec 32) :
    List Nat → RvCore .rv32 σ → Prop
  | [], _ => True
  | addr :: rest, s => ∃ s₁,
      (∀ value : List Byte, value.length = 4 →
        pmpCheckedBusAccess busAccess s p .read (BitVec.ofNat 32 addr) value 4 =
          .ok (.ok, leBytes 4 (mem addr).toNat, s₁)) ∧
      TableReads busAccess p mem rest s₁

/-- One level of the walk, on the entry that is read. -/
theorem mmuWalk_of_read {busAccess : BusAccessFunc .rv32 σ} {p : PrivilegeLevel} {i : Nat}
    {va a pte entry : BitVec 32} {s s₁ : RvCore .rv32 σ} {ret : RvRet}
    (hread : pmpCheckedBusAccess busAccess s p .read (a + vpn (w := .rv32) va i * 4)
      (leBytes 4 pte.toNat) 4 = .ok (ret, leBytes 4 entry.toNat, s₁)) :
    (¬ Sv32.Valid entry → mmuWalk busAccess p va i a pte s = .ok (none, s₁)) ∧
      (Sv32.Valid entry → Sv32.IsLeaf entry →
        mmuWalk busAccess p va i a pte s = .ok (some (i, entry), s₁)) ∧
      (Sv32.Valid entry → ¬ Sv32.IsLeaf entry →
        (i = 0 → mmuWalk busAccess p va i a pte s = .ok (none, s₁)) ∧
        ∀ j, i = j + 1 → mmuWalk busAccess p va i a pte s =
          mmuWalk busAccess p va j ((entry >>> 10) * 4096) entry s₁) := by
  have hentry : BitVec.ofNat Xlen.rv32.bits
      (leNat ((leBytes 4 entry.toNat).take Xlen.rv32.bytes)) = entry :=
    ofNat_leNat_leBytes (w := .rv32) entry
  have hread' : pmpCheckedBusAccess busAccess s p .read (a + vpn (w := .rv32) va i * 4)
      (leBytes Xlen.rv32.bytes pte.toNat) Xlen.rv32.bytes =
        .ok (ret, leBytes 4 entry.toNat, s₁) := hread
  refine ⟨fun hinv => ?_, fun hvalid hleaf => ?_, fun hvalid hptr => ?_⟩
  · rw [mmuWalk.eq_def]
    simp only [hread', Except.ok_bind, hentry]
    rw [if_pos ((pteInvalid_iff entry).mpr hinv)]
    rfl
  · rw [mmuWalk.eq_def]
    simp only [hread', Except.ok_bind, hentry]
    rw [if_neg (mt (pteInvalid_iff entry).mp (not_not_intro hvalid)),
      if_pos ((pteLeaf_iff entry).mpr hleaf)]
    rfl
  · rw [mmuWalk.eq_def]
    simp only [hread', Except.ok_bind, hentry]
    rw [if_neg (mt (pteInvalid_iff entry).mp (not_not_intro hvalid)),
      if_neg (mt (pteLeaf_iff entry).mp hptr)]
    constructor
    · rintro rfl
      rfl
    · rintro j rfl
      rfl

theorem entryAddress_eq {va a : BitVec 32} {i base : Nat} (ha : a.toNat = base) :
    a + vpn (w := .rv32) va i * 4 = BitVec.ofNat 32 (base + 4 * Sv32.vpn va i) := by
  have hvpn := Sv32.vpn_lt va i
  apply BitVec.eq_of_toNat_eq
  rw [BitVec.toNat_add, BitVec.toNat_mul, toNat_vpn, BitVec.toNat_ofNat, ha]
  show (base + Sv32.vpn va i * 4 % 2 ^ 32) % 2 ^ 32 = (base + 4 * Sv32.vpn va i) % 2 ^ 32
  omega

theorem toNat_nextTable {pte : BitVec 32} (h : Sv32.ppn pte < 2 ^ 20) :
    ((pte >>> 10) * 4096).toNat = 4096 * Sv32.ppn pte := by
  rw [Sv32.ppn] at h
  rw [BitVec.toNat_mul, BitVec.toNat_ushiftRight, Nat.shiftRight_eq_div_pow, Sv32.ppn]
  show pte.toNat / 2 ^ 10 * 4096 % 2 ^ 32 = 4096 * (pte.toNat / 2 ^ 10)
  omega

theorem TableReads.first {busAccess : BusAccessFunc .rv32 σ} {p : PrivilegeLevel}
    {mem : Nat → BitVec 32} {va a : BitVec 32} {i base : Nat} {rest : List Nat}
    {s : RvCore .rv32 σ} (ha : a.toNat = base) (pte : BitVec 32)
    (h : TableReads busAccess p mem ((base + 4 * Sv32.vpn va i) :: rest) s) :
    ∃ s₁, pmpCheckedBusAccess busAccess s p .read (a + vpn (w := .rv32) va i * 4)
        (leBytes 4 pte.toNat) 4 =
          .ok (.ok, leBytes 4 (mem (base + 4 * Sv32.vpn va i)).toNat, s₁) ∧
      TableReads busAccess p mem rest s₁ := by
  obtain ⟨s₁, hread, hrest⟩ := h
  rw [entryAddress_eq ha]
  exact ⟨s₁, hread _ (length_leBytes 4 _), hrest⟩

/-- Where the tables lie in the address space of the bus, the walk is that of the
specification. -/
theorem mmuWalk_eq_walk {busAccess : BusAccessFunc .rv32 σ} {p : PrivilegeLevel}
    {mem : Nat → BitVec 32} {va : BitVec 32} {i base : Nat} {a pte : BitVec 32}
    {s : RvCore .rv32 σ} (ha : a.toNat = base)
    (hreads : TableReads busAccess p mem (Sv32.entries mem va (i + 1) base) s)
    (hppn : ∀ addr ∈ Sv32.entries mem va (i + 1) base, Sv32.ppn (mem addr) < 2 ^ 20) :
    ∃ s', mmuWalk busAccess p va i a pte s = .ok (Sv32.walk mem va (i + 1) base, s') := by
  induction i generalizing base a pte s with
  | zero =>
      have hentries : Sv32.entries mem va 1 base = [base + 4 * Sv32.vpn va 0] := by
        simp [Sv32.entries]
      rw [hentries] at hreads
      obtain ⟨s₁, hread, -⟩ := hreads.first ha pte
      obtain ⟨hinvalid, hleaf, hptr⟩ := mmuWalk_of_read hread
      refine ⟨s₁, ?_⟩
      rw [Sv32.walk]
      by_cases hvalid : Sv32.Valid (mem (base + 4 * Sv32.vpn va 0))
      · by_cases hl : Sv32.IsLeaf (mem (base + 4 * Sv32.vpn va 0))
        · rw [if_neg (not_not_intro hvalid), if_pos hl]
          exact hleaf hvalid hl
        · rw [if_neg (not_not_intro hvalid), if_neg hl, Sv32.walk]
          exact (hptr hvalid hl).1 rfl
      · rw [if_pos hvalid]
        exact hinvalid hvalid
  | succ i ih =>
      rw [Sv32.walk]
      rw [Sv32.entries] at hreads hppn
      by_cases hvalid : Sv32.Valid (mem (base + 4 * Sv32.vpn va (i + 1)))
      · by_cases hl : Sv32.IsLeaf (mem (base + 4 * Sv32.vpn va (i + 1)))
        · rw [if_neg (fun h => h.2 hl)] at hreads
          obtain ⟨s₁, hread, -⟩ := hreads.first ha pte
          refine ⟨s₁, ?_⟩
          rw [if_neg (not_not_intro hvalid), if_pos hl]
          exact (mmuWalk_of_read hread).2.1 hvalid hl
        · -- a pointer: the rest of the walk is that of the table it names
          rw [if_pos ⟨hvalid, hl⟩] at hreads hppn
          obtain ⟨s₁, hread, hrest⟩ := hreads.first ha pte
          have hnext : Sv32.ppn (mem (base + 4 * Sv32.vpn va (i + 1))) < 2 ^ 20 :=
            hppn _ List.mem_cons_self
          have hppn' := fun addr haddr => hppn addr (List.mem_cons_of_mem _ haddr)
          obtain ⟨s', hwalk⟩ := @ih _ _ (mem (base + 4 * Sv32.vpn va (i + 1))) _
            (toNat_nextTable hnext) hrest hppn'
          refine ⟨s', ?_⟩
          rw [if_neg (not_not_intro hvalid), if_neg hl,
            ((mmuWalk_of_read hread).2.2 hvalid hl).2 i rfl]
          exact hwalk
      · rw [if_neg (fun h => hvalid h.1)] at hreads
        obtain ⟨s₁, hread, -⟩ := hreads.first ha pte
        refine ⟨s₁, ?_⟩
        rw [if_pos hvalid]
        exact (mmuWalk_of_read hread).1 hvalid

/-! ### The leaf -/

/-- The physical address that the source forms for a leaf of level `i`. -/
def leafAddress (va : BitVec 32) (i : Nat) (pte : BitVec 32) : BitVec 64 :=
  let ppn0 := (pte <<< 2 >>> 12) &&& 0x3ff
  let ppn1 := (pte <<< 2 >>> 22) &&& 0xfff
  (if i = 0 then (ppn1 <<< 22) ||| (ppn0 <<< 12) ||| (va &&& 0xfff)
    else (ppn1 <<< 22) ||| (va &&& 0x3fffff)).setWidth 64

theorem toNat_ppn0 (pte : BitVec 32) :
    ((pte <<< 2 >>> 12) &&& 0x3ff).toNat = Sv32.ppn pte % 2 ^ 10 := by
  rw [BitField.toNat_and_ones (k := 10) _ rfl, BitVec.toNat_ushiftRight, BitVec.toNat_shiftLeft,
    Nat.shiftRight_eq_div_pow, Nat.shiftLeft_eq, Sv32.ppn]
  omega

theorem toNat_ppn1 (pte : BitVec 32) :
    ((pte <<< 2 >>> 22) &&& 0xfff).toNat = Sv32.ppn pte / 2 ^ 10 % 2 ^ 10 := by
  rw [BitField.toNat_and_ones (k := 12) _ rfl, BitVec.toNat_ushiftRight, BitVec.toNat_shiftLeft,
    Nat.shiftRight_eq_div_pow, Nat.shiftLeft_eq, Sv32.ppn]
  omega

/-- The page number loses its two highest bits, which the bus cannot address. -/
theorem toNat_leafAddress {va pte : BitVec 32} {i : Nat} (hi : i ≤ 1)
    (haligned : 0 < i → Sv32.ppn pte % 2 ^ 10 = 0) :
    (leafAddress va i pte).toNat =
      4096 * (Sv32.ppn pte % 2 ^ 20) + va.toNat % 2 ^ (12 + 10 * i) := by
  have h0 := toNat_ppn0 pte
  have h1 := toNat_ppn1 pte
  have hhigh : (((pte <<< 2 >>> 22) &&& 0xfff) <<< 22).toNat =
      Sv32.ppn pte / 2 ^ 10 % 2 ^ 10 * 2 ^ 22 := by
    rw [BitVec.toNat_shiftLeft, Nat.shiftLeft_eq, h1]
    omega
  have hlow : (((pte <<< 2 >>> 12) &&& 0x3ff) <<< 12).toNat = Sv32.ppn pte % 2 ^ 10 * 2 ^ 12 := by
    rw [BitVec.toNat_shiftLeft, Nat.shiftLeft_eq, h0]
    omega
  rw [leafAddress, BitVec.toNat_setWidth]
  rcases Nat.le_one_iff_eq_zero_or_eq_one.mp hi with rfl | rfl
  · have hoff : (va &&& 0xfff).toNat = va.toNat % 2 ^ 12 := BitField.toNat_and_ones va rfl
    have hframe : ((((pte <<< 2 >>> 22) &&& 0xfff) <<< 22) |||
        (((pte <<< 2 >>> 12) &&& 0x3ff) <<< 12)).toNat = _ :=
      BitField.toNat_or_low (k := 22) (by rw [hhigh]; omega) (by rw [hlow]; omega)
    rw [if_pos rfl, BitField.toNat_or_low (k := 12) (by rw [hframe, hhigh, hlow]; omega)
      (by rw [hoff]; omega), hframe, hhigh, hlow, hoff]
    omega
  · have hoff : (va &&& 0x3fffff).toNat = va.toNat % 2 ^ 22 := BitField.toNat_and_ones va rfl
    have hzero := haligned (by decide)
    rw [if_neg (by decide),
      BitField.toNat_or_low (k := 22) (by rw [hhigh]; omega) (by rw [hoff]; omega), hhigh, hoff]
    omega

/-- The flags of a leaf after the executable page has been made readable. -/
def leafFlags (accessType : BusAccessType) (mxr : Bool) (flags : Byte) : Byte :=
  if accessType = .read ∧ checkBit flags mmuPageExec ∧ mxr then flags ||| 0x2 else flags

theorem getLsbD_leafFlags (accessType : BusAccessType) (mxr : Bool) (flags : Byte) {k : Nat}
    (hk : k ≠ 1) : (leafFlags accessType mxr flags).getLsbD k = flags.getLsbD k := by
  have hbit : (0x2#8).getLsbD k = decide (k = 1) := by
    have hone : (0x2#8) = 1#8 <<< 1 := rfl
    rw [hone, BitField.getLsbD_one_shiftLeft (by decide)]
  rw [leafFlags]
  split
  · rw [BitVec.getLsbD_or, BitVec.ofNat_eq_ofNat, hbit]
    simp [hk]
  · rfl

theorem getLsbD_leafFlags_one (accessType : BusAccessType) (mxr : Bool) (flags : Byte) :
    (leafFlags accessType mxr flags).getLsbD 1 = true ↔
      flags.getLsbD 1 = true ∨ (accessType = .read ∧ flags.getLsbD 3 = true ∧ mxr = true) := by
  rw [leafFlags, mmuPageExec, checkBit_eq_getLsbD]
  split
  · next h => simp [h]
  · next h =>
      constructor
      · exact .inl
      · rintro (hread | hexec)
        · exact hread
        · exact absurd hexec h

theorem mmuLeaf_eq_some_iff {p : PrivilegeLevel} {va pte : BitVec 32}
    {accessType : BusAccessType} {mxr sum : Bool} {i : Nat} {pa : BitVec 64} :
    mmuLeaf (w := .rv32) p va accessType mxr sum i pte = some pa ↔
      (p = .user → pte.getLsbD 4 = true) ∧
        (p = .supervisor → pte.getLsbD 4 = false ∨ sum = true) ∧
        Sv32.Grants accessType mxr i pte ∧ leafAddress va i pte = pa := by
  have hbit : ∀ {k : Nat}, k < 8 → (pteFlags (w := .rv32) pte).getLsbD k = pte.getLsbD k := by
    intro k hk
    rw [← checkBit_eq_getLsbD]
    exact checkBit_pteFlags pte hk
  have hread := getLsbD_leafFlags_one accessType mxr (pteFlags (w := .rv32) pte)
  have hkept : ∀ {k : Nat}, k ≠ 1 → k < 8 →
      (leafFlags accessType mxr (pteFlags (w := .rv32) pte)).getLsbD k = pte.getLsbD k := by
    intro k hk hk'
    rw [getLsbD_leafFlags accessType mxr _ hk, hbit hk']
  have hppn0 : (pte <<< 2 >>> 12) &&& 0x3ff ≠ 0 ↔ Sv32.ppn pte % 2 ^ 10 ≠ 0 := by
    rw [← toNat_ppn0, ne_eq, ne_eq, ← BitVec.toNat_inj]
    rfl
  -- the checks in the order of the source, on the bits of the entry
  have hleaf : mmuLeaf (w := .rv32) p va accessType mxr sum i pte =
      if p = .user ∧ !pte.getLsbD 4 then none
      else if p = .supervisor ∧ pte.getLsbD 4 ∧ !sum then none
      else if !(leafFlags accessType mxr (pteFlags (w := .rv32) pte)).getLsbD
        (accessType.toNat + 1) then none
      else if 0 < i ∧ Sv32.ppn pte % 2 ^ 10 ≠ 0 then none
      else if !pte.getLsbD 6 ∨ (accessType = .write ∧ !pte.getLsbD 7) then none
      else some (leafAddress va i pte) := by
    have hmodel : mmuLeaf (w := .rv32) p va accessType mxr sum i pte =
        if p = .user ∧ !checkBit (pteFlags (w := .rv32) pte) mmuPageUser then none
        else if p = .supervisor ∧ checkBit (pteFlags (w := .rv32) pte) mmuPageUser ∧ !sum then none
        else if !checkBit (leafFlags accessType mxr (pteFlags (w := .rv32) pte))
          (accessType.toNat + 1) then none
        else if 0 < i ∧ (pte <<< 2 >>> 12) &&& 0x3ff ≠ 0 then none
        else if !checkBit (leafFlags accessType mxr (pteFlags (w := .rv32) pte)) mmuPageAccessed ∨
            (accessType = .write ∧ !checkBit (leafFlags accessType mxr
              (pteFlags (w := .rv32) pte)) mmuPageDirty) then none
        else some (leafAddress va i pte) := rfl
    rw [hmodel]
    simp only [checkBit_eq_getLsbD, mmuPageUser, mmuPageAccessed, mmuPageDirty, hppn0,
      hbit (k := 4) (by decide), hkept (k := 6) (by decide) (by decide),
      hkept (k := 7) (by decide) (by decide)]
  -- MXR has been merged into the read bit, so that one bit decides
  have hperm : (leafFlags accessType mxr (pteFlags (w := .rv32) pte)).getLsbD
        (accessType.toNat + 1) = true ↔
      (accessType = .read → pte.getLsbD 1 = true ∨ (pte.getLsbD 3 = true ∧ mxr = true)) ∧
        (accessType = .write → pte.getLsbD 2 = true) ∧
        (accessType = .instr → pte.getLsbD 3 = true) := by
    rw [hbit (k := 1) (by decide), hbit (k := 3) (by decide)] at hread
    cases accessType with
    | read => simpa [BusAccessType.toNat] using hread
    | write =>
        have hwrite := hkept (k := 2) (by decide) (by decide)
        simpa [BusAccessType.toNat] using hwrite
    | instr =>
        have hexec := hkept (k := 3) (by decide) (by decide)
        simpa [BusAccessType.toNat] using hexec
  have hgrants : Sv32.Grants accessType mxr i pte ↔
      (leafFlags accessType mxr (pteFlags (w := .rv32) pte)).getLsbD (accessType.toNat + 1) =
          true ∧
        ¬ (0 < i ∧ Sv32.ppn pte % 2 ^ 10 ≠ 0) ∧ pte.getLsbD 6 = true ∧
        (accessType = .write → pte.getLsbD 7 = true) := by
    rw [hperm]
    constructor
    · rintro ⟨hr, hw, hx, haligned, ha, hd⟩
      exact ⟨⟨hr, hw, hx⟩, fun ⟨hi, hne⟩ => hne (haligned hi), ha, hd⟩
    · rintro ⟨⟨hr, hw, hx⟩, haligned, ha, hd⟩
      exact ⟨hr, hw, hx, fun hi => by_contra fun hne => haligned ⟨hi, hne⟩, ha, hd⟩
  have huser : ¬ (p = .user ∧ (!pte.getLsbD 4) = true) ↔
      (p = .user → pte.getLsbD 4 = true) := by simp
  have hsupervisor : ¬ (p = .supervisor ∧ pte.getLsbD 4 = true ∧ (!sum) = true) ↔
      (p = .supervisor → pte.getLsbD 4 = false ∨ sum = true) := by
    cases pte.getLsbD 4 <;> simp
  have hbits : ¬ ((!pte.getLsbD 6) = true ∨ (accessType = .write ∧ (!pte.getLsbD 7) = true)) ↔
      pte.getLsbD 6 = true ∧ (accessType = .write → pte.getLsbD 7 = true) := by simp
  rw [hleaf, hgrants]
  simp only [Option.ite_none_left_eq_some]
  rw [huser, hsupervisor, hbits, Bool.not_eq_true', Bool.not_eq_false, Option.some.injEq]
  simp only [and_assoc]

/-! ### The translation -/

/-- A translation that is made ends as its walk does, and then as the checks on the
leaf do. -/
theorem mmuVirtToPhys_of_walk {w : Xlen} {busAccess : BusAccessFunc w σ} {s s₁ : RvCore w σ}
    {p : PrivilegeLevel} {va : RvUintXlen w} (accessType : BusAccessType) (mxr sum : Bool)
    {leaf : Option (Nat × RvUintXlen w)}
    (hactive : ¬ (p = .machine ∨ satpMode s.mmu.satpReg = 0))
    (hwalk : mmuWalk busAccess p va 1 ((s.mmu.satpReg &&& 0x3FFFFF) * 4096) 0 s =
      .ok (leaf, s₁)) :
    ∃ s', mmuVirtToPhys busAccess s p va accessType mxr sum =
      .ok (leaf.bind (fun l => mmuLeaf p va accessType mxr sum l.1 l.2), s') := by
  rw [mmuVirtToPhys, if_neg hactive]
  simp only [hwalk, Except.ok_bind]
  cases leaf with
  | none => exact ⟨s₁, rfl⟩
  | some l =>
      obtain ⟨i, pte⟩ := l
      simp only [Option.bind_some]
      cases mmuLeaf p va accessType mxr sum i pte with
      | none => exact ⟨s₁, rfl⟩
      | some pa =>
          simp only
          split
          · exact ⟨_, rfl⟩
          · exact ⟨s₁, rfl⟩

/-- Sv32: where the entries that the walk reads can be read and no page number leaves
the address space of the bus, the translation succeeds just when the walk of the
specification reaches a leaf that is open to the mode and grants the access, and then
yields its address. -/
theorem mmuVirtToPhys_sv32 {busAccess : BusAccessFunc .rv32 σ} {s : RvCore .rv32 σ}
    {mem : Nat → BitVec 32} {p : PrivilegeLevel} {va : BitVec 32} {accessType : BusAccessType}
    {mxr sum : Bool} (hp : p = .user ∨ p = .supervisor)
    (hexec : ¬ (p = .supervisor ∧ accessType = .instr)) (hmode : satpMode s.mmu.satpReg = 1)
    (hroot : s.mmu.satpReg.toNat % 2 ^ 22 < 2 ^ 20)
    (hreads : TableReads busAccess p mem
      (Sv32.entries mem va 2 (4096 * (s.mmu.satpReg.toNat % 2 ^ 22))) s)
    (hppn : ∀ addr ∈ Sv32.entries mem va 2 (4096 * (s.mmu.satpReg.toNat % 2 ^ 22)),
      Sv32.ppn (mem addr) < 2 ^ 20) :
    ∃ physAddr s', mmuVirtToPhys busAccess s p va accessType mxr sum = .ok (physAddr, s') ∧
      ∀ pa : BitVec 64, physAddr = some pa ↔
        ∃ i pte, Sv32.walk mem va 2 (4096 * (s.mmu.satpReg.toNat % 2 ^ 22)) = some (i, pte) ∧
          Sv32.OpenTo p accessType sum pte ∧ Sv32.Grants accessType mxr i pte ∧
          pa.toNat = Sv32.address va i pte := by
  have hroot' : ((s.mmu.satpReg &&& 0x3FFFFF) * 4096).toNat =
      4096 * (s.mmu.satpReg.toNat % 2 ^ 22) := by
    rw [BitVec.toNat_mul, BitField.toNat_and_ones (k := 22) _ rfl]
    show s.mmu.satpReg.toNat % 2 ^ 22 * 4096 % 2 ^ 32 = 4096 * (s.mmu.satpReg.toNat % 2 ^ 22)
    omega
  have hactive : ¬ (p = .machine ∨ satpMode s.mmu.satpReg = 0) := by
    rw [hmode]
    rcases hp with rfl | rfl
    · decide
    · decide
  obtain ⟨s₁, hwalk⟩ := @mmuWalk_eq_walk _ _ _ _ _ _ _ _ 0 _ hroot' hreads hppn
  -- the source lets SUM open a user page to a supervisor fetch, which is excluded here
  have hopen : ∀ pte : BitVec 32, Sv32.OpenTo p accessType sum pte ↔
      (p = .user → pte.getLsbD 4 = true) ∧
        (p = .supervisor → pte.getLsbD 4 = false ∨ sum = true) := by
    intro pte
    constructor
    · rintro ⟨huser, hsupervisor⟩
      exact ⟨huser, fun h => (hsupervisor h).imp_right fun hsum => hsum.1⟩
    · rintro ⟨huser, hsupervisor⟩
      exact ⟨huser, fun h => (hsupervisor h).imp_right fun hsum =>
        ⟨hsum, fun hinstr => hexec ⟨h, hinstr⟩⟩⟩
  obtain ⟨s', htrans⟩ := mmuVirtToPhys_of_walk accessType mxr sum hactive hwalk
  refine ⟨_, s', htrans, fun pa => ?_⟩
  rw [Option.bind_eq_some_iff]
  constructor
  · rintro ⟨⟨i, pte⟩, hleaf, hchecks⟩
    obtain ⟨huser, hsupervisor, hgrants, rfl⟩ := mmuLeaf_eq_some_iff.mp hchecks
    obtain ⟨hi, addr, haddr, rfl⟩ := Sv32.walk_eq_some hleaf
    refine ⟨i, _, hleaf, (hopen _).mpr ⟨huser, hsupervisor⟩, hgrants, ?_⟩
    rw [toNat_leafAddress (Nat.le_of_lt_succ hi) hgrants.aligned,
      Nat.mod_eq_of_lt (hppn addr haddr), Sv32.address]
  · rintro ⟨i, pte, hleaf, hopen', hgrants, hpa⟩
    obtain ⟨hi, addr, haddr, rfl⟩ := Sv32.walk_eq_some hleaf
    refine ⟨(i, _), hleaf, mmuLeaf_eq_some_iff.mpr ⟨((hopen _).mp hopen').1,
      ((hopen _).mp hopen').2, hgrants, ?_⟩⟩
    apply BitVec.eq_of_toNat_eq
    rw [toNat_leafAddress (Nat.le_of_lt_succ hi) hgrants.aligned,
      Nat.mod_eq_of_lt (hppn addr haddr), hpa, Sv32.address]

/-- A bus to a memory of words, for reads of one word. -/
def wordBus (mem : Nat → BitVec 32) : BusAccessFunc .rv32 Unit :=
  fun _ _ _ address _ len => .ok (.ok, leBytes len (mem address.toNat).toNat, ())

/-- The page of `0x12080` is mapped to the fourth page of memory. -/
def mappedWords (addr : Nat) : BitVec 32 :=
  if addr = 0x1000 then 0x801 else if addr = 0x2048 then 0x104F else 0

def mappedCore : RvCore .rv32 Unit :=
  { currPrivMode := .supervisor
    pc := 0
    priv := ()
    pmp := { cfg := Function.update (fun _ => 0) 0 0x1F
             addr := Function.update (fun _ => 0) 0 (BitVec.allOnes 32) }
    mmu := { satpReg := 0x80000001 } }

theorem mmuVirtToPhys_sv32_mapped :
    ∃ physAddr s', mmuVirtToPhys (wordBus mappedWords) mappedCore .supervisor 0x12080 .read
        false false = .ok (physAddr, s') ∧
      ∀ pa : BitVec 64, physAddr = some pa ↔
        ∃ i pte, Sv32.walk mappedWords 0x12080 2
            (4096 * (mappedCore.mmu.satpReg.toNat % 2 ^ 22)) = some (i, pte) ∧
          Sv32.OpenTo .supervisor .read false pte ∧ Sv32.Grants .read false i pte ∧
          pa.toNat = Sv32.address 0x12080 i pte := by
  have hread : ∀ addr, addr = 0x1000 ∨ addr = 0x2048 → ∀ value : List Byte, value.length = 4 →
      pmpCheckedBusAccess (wordBus mappedWords) mappedCore .supervisor .read
        (BitVec.ofNat 32 addr) value 4 =
          .ok (.ok, leBytes 4 (mappedWords addr).toNat, mappedCore) := by
    intro addr haddr value _
    have hpmp : pmpMemCheck mappedCore.pmp .supervisor (BitVec.ofNat 32 addr) 4 .read = .ok := by
      rcases haddr with rfl | rfl
      · decide
      · decide
    have haddr' : (BitVec.ofNat 32 addr).toNat = addr := by
      rcases haddr with rfl | rfl
      · rfl
      · rfl
    rw [pmpCheckedBusAccess, hpmp]
    simp only [wordBus, haddr']
    rfl
  have hentries : Sv32.entries mappedWords 0x12080 2
      (4096 * (mappedCore.mmu.satpReg.toNat % 2 ^ 22)) = [0x1000, 0x2048] := by
    decide
  refine mmuVirtToPhys_sv32 (.inr rfl) (by decide) (by decide) (by decide) ?_ ?_
  · rw [hentries]
    exact ⟨mappedCore, hread 0x1000 (.inl rfl), mappedCore, hread 0x2048 (.inr rfl), trivial⟩
  · rw [hentries]
    decide

end RiscvEm
