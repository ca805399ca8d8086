import RiscvEm.Core.Sv32
import RiscvEm.Isa.Flat

/-!
Programs behind page tables: the pages of a program as a map into the physical memory, the
tables that make the walk of `mmu.c` follow it, and the address space that the program has
there. What it writes stays in its own pages.
-/

namespace RiscvEm

variable {useSimpleUart : Bool}

/-! ### Pages -/

/-- The pages of a program: the physical page of each of them, which no other one has, and
the accesses that it grants. -/
structure PageMap where
  frame : Nat → Option Nat
  grants : BusAccessType → Nat → Prop
  injective : ∀ {v v' f : Nat}, frame v = some f → frame v' = some f → v = v'

namespace PageMap

variable (map : PageMap)

def phys (a : Nat) : Option Nat := (map.frame (a / 4096)).map fun f => 4096 * f + a % 4096

def view (mem : Nat → Option Byte) (a : Nat) : Option Byte := (map.phys a).bind mem

/-- The physical address is in a page that the program writes. -/
def Writes (b : Nat) : Prop := ∃ v, map.frame v = some (b / 4096) ∧ map.grants .write v

variable {map} {a b pa pb : Nat}

theorem phys_eq_some : map.phys a = some pa ↔
    ∃ f, map.frame (a / 4096) = some f ∧ 4096 * f + a % 4096 = pa := by
  rw [phys, Option.map_eq_some_iff]

theorem phys_add (h : map.phys a = some pa) {i : Nat} (hi : a % 4096 + i < 4096) :
    map.phys (a + i) = some (pa + i) := by
  obtain ⟨f, hframe, rfl⟩ := phys_eq_some.mp h
  have hpage : (a + i) / 4096 = a / 4096 := by omega
  have hoffset : (a + i) % 4096 = a % 4096 + i := by omega
  exact phys_eq_some.mpr ⟨f, hpage ▸ hframe, by rw [hoffset, Nat.add_assoc]⟩

/-- Physical addresses are as far apart as virtual ones within a page, and addresses of two
pages have theirs in two. -/
theorem phys_between (ha : map.phys a = some pa) (hb : map.phys b = some pb) {len : Nat}
    (hpage : a % 4096 + len ≤ 4096) :
    (pa ≤ pb ∧ pb < pa + len ↔ a ≤ b ∧ b < a + len) ∧
      (a ≤ b ∧ b < a + len → pb - pa = b - a) := by
  obtain ⟨f, hf, rfl⟩ := phys_eq_some.mp ha
  obtain ⟨g, hg, rfl⟩ := phys_eq_some.mp hb
  by_cases hsame : a / 4096 = b / 4096
  · have hfg : f = g := Option.some.inj (hf.symm.trans (hsame ▸ hg))
    subst hfg
    constructor
    · omega
    · omega
  · have hfg : f ≠ g := by
      rintro rfl
      exact hsame (map.injective hf hg)
    constructor
    · omega
    · omega

theorem view_storeBytes (mem : Nat → Option Byte) (h : map.phys a = some pa) {len : Nat}
    (hpage : a % 4096 + len ≤ 4096) (value : Nat) :
    map.view (storeBytes mem pa len value) = storeBytes (map.view mem) a len value := by
  funext b
  rw [view, storeBytes]
  cases hb : map.phys b with
  | none =>
      have hout : ¬ (a ≤ b ∧ b < a + len) := by
        rintro ⟨hlow, hhigh⟩
        have hin := phys_add h (i := b - a) (by omega)
        rw [Nat.add_sub_cancel' hlow, hb] at hin
        cases hin
      rw [if_neg hout, view, hb]
      rfl
  | some pb =>
      obtain ⟨hiff, hdiff⟩ := phys_between h hb hpage
      rw [Option.bind_some, view, hb, Option.bind_some, storeBytes]
      by_cases hin : a ≤ b ∧ b < a + len
      · rw [if_pos hin, if_pos (hiff.mpr hin), hdiff hin]
      · rw [if_neg hin, if_neg (mt hiff.mp hin)]

theorem memBytes_view (mem : Nat → Option Byte) (h : map.phys a = some pa) {len : Nat}
    (hpage : a % 4096 + len ≤ 4096) : memBytes (map.view mem) a len = memBytes mem pa len := by
  refine List.map_congr_left fun i hi => ?_
  have hlt := List.mem_range.mp hi
  rw [view, phys_add h (by omega), Option.bind_some]

end PageMap

/-! ### Page tables -/

def tableWord (mem : Nat → Option Byte) (addr : Nat) : BitVec 32 :=
  .ofNat 32 (leNat (memBytes mem addr 4))

def tableRoot (satp : BitVec 32) : Nat := 4096 * (satp.toNat % 2 ^ 22)

/-- An entry that the walk reads is in a memory, can be read, names a page that the bus can
address, and is not written by the program. -/
structure TableEntry (map : PageMap) (p : PrivilegeLevel) (pmp : Pmp .rv32)
    (mem : Nat → Option Byte) (addr : Nat) : Prop where
  mapped : Mapped addr 4
  readable : pmpMemCheck pmp p (BitVec.ofNat 32 addr) 4 .read = .ok
  inBus : Sv32.ppn (tableWord mem addr) < 2 ^ 20
  unwritten : ∀ i < 4, ¬ map.Writes (addr + i)

/-- The tables of the program at mode `p`: the walk of each address of a page ends at a leaf
of it that grants what the page does, and the PMP grants it as well. -/
structure PageTables (map : PageMap) (p : PrivilegeLevel) (mxr sum : Bool) (satp : BitVec 32)
    (pmp : Pmp .rv32) (mem : Nat → Option Byte) : Prop where
  active : satpMode (w := .rv32) satp = 1
  root : satp.toNat % 2 ^ 22 < 2 ^ 20
  entries : ∀ {va : BitVec 32} {f : Nat}, map.frame (va.toNat / 4096) = some f →
    ∀ addr ∈ Sv32.entries (tableWord mem) va 2 (tableRoot satp), TableEntry map p pmp mem addr
  leaf : ∀ {va : BitVec 32} {f : Nat} {t : BusAccessType},
    map.frame (va.toNat / 4096) = some f → map.grants t (va.toNat / 4096) →
    ∃ i pte, Sv32.walk (tableWord mem) va 2 (tableRoot satp) = some (i, pte) ∧
      Sv32.OpenTo p t sum pte ∧ Sv32.Grants t mxr i pte ∧
      Sv32.address va i pte = 4096 * f + va.toNat % 4096
  granted : ∀ {v f : Nat} {t : BusAccessType} {addr : BitVec 32} {len : Nat},
    map.frame v = some f → map.grants t v → 0 < len ∧ len ≤ 8 → 4096 * f ≤ addr.toNat →
    addr.toNat + len ≤ 4096 * f + 4096 → pmpMemCheck pmp p addr len t = .ok

/-! ### The tables while the program runs -/

theorem Sv32.walk_congr {mem mem' : Nat → BitVec 32} {va : BitVec 32} {n base : Nat}
    (h : ∀ addr ∈ Sv32.entries mem va n base, mem' addr = mem addr) :
    Sv32.walk mem' va n base = Sv32.walk mem va n base ∧
      Sv32.entries mem' va n base = Sv32.entries mem va n base := by
  induction n generalizing base with
  | zero => exact ⟨rfl, rfl⟩
  | succ n ih =>
      have hfirst : mem' (base + 4 * Sv32.vpn va n) = mem (base + 4 * Sv32.vpn va n) := by
        refine h _ ?_
        rw [Sv32.entries]
        split
        · exact List.mem_cons_self
        · exact List.mem_singleton_self _
      rw [Sv32.walk, Sv32.walk, Sv32.entries, Sv32.entries, hfirst]
      by_cases hptr : Sv32.Valid (mem (base + 4 * Sv32.vpn va n)) ∧
          ¬ Sv32.IsLeaf (mem (base + 4 * Sv32.vpn va n))
      · rw [Sv32.entries, if_pos hptr] at h
        obtain ⟨hwalk, hentries⟩ := ih fun addr haddr => h addr (List.mem_cons_of_mem _ haddr)
        rw [if_pos hptr, if_pos hptr, hwalk, hentries]
        exact ⟨rfl, rfl⟩
      · rw [if_neg hptr, if_neg hptr]
        refine ⟨?_, rfl⟩
        by_cases hvalid : Sv32.Valid (mem (base + 4 * Sv32.vpn va n))
        · have hleaf : Sv32.IsLeaf (mem (base + 4 * Sv32.vpn va n)) :=
            by_contra fun hleaf => hptr ⟨hvalid, hleaf⟩
          rw [if_neg (not_not_intro hvalid), if_neg (not_not_intro hvalid), if_pos hleaf,
            if_pos hleaf]
        · rw [if_pos hvalid, if_pos hvalid]

theorem tableWord_storeBytes {mem : Nat → Option Byte} {a len addr : Nat} (value : Nat)
    (h : ∀ i < 4, ¬ (a ≤ addr + i ∧ addr + i < a + len)) :
    tableWord (storeBytes mem a len value) addr = tableWord mem addr := by
  have hbytes : memBytes (storeBytes mem a len value) addr 4 = memBytes mem addr 4 := by
    refine List.map_congr_left fun i hi => ?_
    rw [storeBytes, if_neg (h i (List.mem_range.mp hi))]
  rw [tableWord, tableWord, hbytes]

section Tables

variable {map : PageMap} {p : PrivilegeLevel} {mxr sum : Bool} {satp : BitVec 32}
  {pmp : Pmp .rv32} {mem : Nat → Option Byte}

/-- A write of the program leaves the tables as they are. -/
theorem PageTables.storeBytes (h : PageTables map p mxr sum satp pmp mem) {a len : Nat}
    (hwrites : ∀ b, a ≤ b ∧ b < a + len → map.Writes b) (value : Nat) :
    PageTables map p mxr sum satp pmp (RiscvEm.storeBytes mem a len value) := by
  have hword {addr : Nat} (hkept : TableEntry map p pmp mem addr) :
      tableWord (RiscvEm.storeBytes mem a len value) addr = tableWord mem addr :=
    tableWord_storeBytes value fun i hi hin => hkept.unwritten i hi (hwrites _ hin)
  have hwalk {va : BitVec 32} {f : Nat} (hframe : map.frame (va.toNat / 4096) = some f) :=
    Sv32.walk_congr fun addr haddr => hword (h.entries hframe addr haddr)
  constructor
  case active => exact h.active
  case root => exact h.root
  case entries =>
    intro va f hframe addr haddr
    rw [(hwalk hframe).2] at haddr
    have hkept := h.entries hframe addr haddr
    exact ⟨hkept.mapped, hkept.readable, (hword hkept).symm ▸ hkept.inBus, hkept.unwritten⟩
  case leaf =>
    intro va f t hframe hgrant
    rw [(hwalk hframe).1]
    exact h.leaf hframe hgrant
  case granted => exact h.granted

end Tables

/-! ### Translation -/

theorem mapped_lt {a len : Nat} (h : Mapped a len) : a + len < 2 ^ 32 := by
  obtain ⟨target, hat, hcontains⟩ := h
  obtain ⟨hmem, -⟩ := isMemory_of_memoryAt hat
  have hhigh := hcontains.2
  rcases hmem with rfl | rfl | rfl <;>
    simp only [BusTarget.memory, ramBaseAddr, ramSizeBytes, mromBaseAddr, mromSizeBytes,
      fromBaseAddr, fromSizeBytes] at hhigh <;> omega

section Translation

variable {map : PageMap} {p : PrivilegeLevel} {mxr sum : Bool}
  {s : RvCore .rv32 (RvSoc Devices)}

/-- The read of an entry finds it and does nothing else. -/
theorem TableEntry.read (useSimpleUart : Bool) {addr : Nat}
    (h : TableEntry map p s.pmp s.priv.byteAt addr) {value : List Byte}
    (hvalue : value.length = 4) :
    pmpCheckedBusAccess (socBusAccess useSimpleUart) s p .read (BitVec.ofNat 32 addr) value 4 =
      .ok (.ok, leBytes 4 (tableWord s.priv.byteAt addr).toNat, s) := by
  have haddr : (BitVec.ofNat 32 addr).toNat = addr := by
    have hlt := mapped_lt h.mapped
    rw [BitVec.toNat_ofNat, Nat.mod_eq_of_lt (by omega)]
  have haccess := pmpCheckedBusAccess_mapped useSimpleUart (s := s) (p := p) (t := .read)
    (BitVec.ofNat 32 addr) (by decide) (haddr.symm ▸ h.mapped) h.readable value
  rw [if_neg (by decide), haddr, List.drop_eq_nil_of_le (Nat.le_of_eq hvalue),
    List.append_nil] at haccess
  rw [haccess, tableWord, BitVec.toNat_ofNat]
  have hlength : (memBytes s.priv.byteAt addr 4).length = 4 := length_memBytes _ _ _
  have hlt := leNat_lt (memBytes s.priv.byteAt addr 4)
  rw [hlength] at hlt
  have hbytes := leBytes_leNat (memBytes s.priv.byteAt addr 4)
  rw [hlength] at hbytes
  rw [Nat.mod_eq_of_lt (Nat.lt_of_lt_of_eq hlt (by decide)), hbytes]
  rfl

theorem read_first (useSimpleUart : Bool) {va a : BitVec 32} {i base : Nat} (ha : a.toNat = base)
    (hkept : ∀ addr ∈ Sv32.entries (tableWord s.priv.byteAt) va (i + 1) base,
      TableEntry map p s.pmp s.priv.byteAt addr) (pte : BitVec 32) :
    pmpCheckedBusAccess (socBusAccess useSimpleUart) s p .read (a + vpn (w := .rv32) va i * 4)
      (leBytes 4 pte.toNat) 4 =
        .ok (.ok, leBytes 4 (tableWord s.priv.byteAt (base + 4 * Sv32.vpn va i)).toNat, s) := by
  have hfirst : base + 4 * Sv32.vpn va i ∈
      Sv32.entries (tableWord s.priv.byteAt) va (i + 1) base := by
    rw [Sv32.entries]
    split
    · exact List.mem_cons_self
    · exact List.mem_singleton_self _
  rw [entryAddress_eq ha]
  exact (hkept _ hfirst).read useSimpleUart (length_leBytes 4 pte.toNat)

/-- The walk is that of the specification, and does nothing else. -/
theorem mmuWalk_kept (useSimpleUart : Bool) {va a : BitVec 32} {i base : Nat}
    (ha : a.toNat = base)
    (hkept : ∀ addr ∈ Sv32.entries (tableWord s.priv.byteAt) va (i + 1) base,
      TableEntry map p s.pmp s.priv.byteAt addr) (pte : BitVec 32) :
    mmuWalk (socBusAccess useSimpleUart) p va i a pte s =
      .ok (Sv32.walk (tableWord s.priv.byteAt) va (i + 1) base, s) := by
  induction i generalizing base a pte with
  | zero =>
      obtain ⟨hinvalid, hleaf, hptr⟩ := mmuWalk_of_read (read_first useSimpleUart ha hkept pte)
      rw [Sv32.walk]
      by_cases hvalid : Sv32.Valid (tableWord s.priv.byteAt (base + 4 * Sv32.vpn va 0))
      · rw [if_neg (not_not_intro hvalid)]
        by_cases hl : Sv32.IsLeaf (tableWord s.priv.byteAt (base + 4 * Sv32.vpn va 0))
        · rw [if_pos hl]
          exact hleaf hvalid hl
        · rw [if_neg hl]
          exact (hptr hvalid hl).1 rfl
      · rw [if_pos hvalid]
        exact hinvalid hvalid
  | succ i ih =>
      obtain ⟨hinvalid, hleaf, hptr⟩ := mmuWalk_of_read (read_first useSimpleUart ha hkept pte)
      rw [Sv32.walk]
      by_cases hvalid : Sv32.Valid (tableWord s.priv.byteAt (base + 4 * Sv32.vpn va (i + 1)))
      · rw [if_neg (not_not_intro hvalid)]
        by_cases hl : Sv32.IsLeaf (tableWord s.priv.byteAt (base + 4 * Sv32.vpn va (i + 1)))
        · rw [if_pos hl]
          exact hleaf hvalid hl
        · -- a pointer: the rest of the walk is that of the table it names
          rw [if_neg hl, (hptr hvalid hl).2 i rfl]
          rw [Sv32.entries, if_pos ⟨hvalid, hl⟩] at hkept
          exact ih (toNat_nextTable (hkept _ List.mem_cons_self).inBus)
            (fun addr haddr => hkept addr (List.mem_cons_of_mem _ haddr)) _
      · rw [if_pos hvalid]
        exact hinvalid hvalid

/-- The addresses of a page that grants the access are translated, and but for the variables
of the translation nothing else happens. -/
theorem PageTables.translate (useSimpleUart : Bool)
    (h : PageTables map p mxr sum s.mmu.satpReg s.pmp s.priv.byteAt) (hp : p ≠ .machine)
    {va : BitVec 32} {f : Nat} {t : BusAccessType}
    (hframe : map.frame (va.toNat / 4096) = some f) (hgrant : map.grants t (va.toNat / 4096)) :
    ∃ (pa : BitVec 64) (mmu : Mmu .rv32), pa.toNat = 4096 * f + va.toNat % 4096 ∧
      mmu.satpReg = s.mmu.satpReg ∧ (t ≠ .instr → mmu = s.mmu) ∧
      mmuVirtToPhys (socBusAccess useSimpleUart) s p va t mxr sum =
        .ok (some pa, { s with mmu := mmu }) := by
  have hactive : ¬ (p = .machine ∨ satpMode s.mmu.satpReg = 0) := by
    rw [h.active]
    exact not_or.mpr ⟨hp, by decide⟩
  have hroot : ((s.mmu.satpReg &&& 0x3FFFFF) * 4096).toNat = tableRoot s.mmu.satpReg := by
    have hlt := h.root
    rw [BitVec.toNat_mul, BitField.toNat_and_ones (k := 22) _ rfl, tableRoot]
    show s.mmu.satpReg.toNat % 2 ^ 22 * 4096 % 2 ^ 32 = 4096 * (s.mmu.satpReg.toNat % 2 ^ 22)
    omega
  obtain ⟨i, pte, hwalk, hopen, hgrants, haddress⟩ := h.leaf hframe hgrant
  have hmodel := mmuWalk_kept useSimpleUart hroot (h.entries hframe) 0
  rw [hwalk] at hmodel
  have hleaf : mmuLeaf (w := .rv32) p va t mxr sum i pte = some (leafAddress va i pte) :=
    mmuLeaf_eq_some_iff.mpr
      ⟨hopen.user, fun hs => (hopen.supervisor hs).imp_right And.left, hgrants, rfl⟩
  have hpa : (leafAddress va i pte).toNat = 4096 * f + va.toNat % 4096 := by
    obtain ⟨hi, addr, haddr, rfl⟩ := Sv32.walk_eq_some hwalk
    rw [toNat_leafAddress (Nat.le_of_lt_succ hi) hgrants.aligned,
      Nat.mod_eq_of_lt (h.entries hframe addr haddr).inBus, ← haddress, Sv32.address]
  have hphys : mmuVirtToPhys (socBusAccess useSimpleUart) s p va t mxr sum =
      if t = .instr then .ok (some (leafAddress va i pte), { s with
        mmu := { s.mmu with
          lastPhysPc := (leafAddress va i pte).setWidth 32, lastVirtPc := va } })
      else .ok (some (leafAddress va i pte), s) := by
    rw [mmuVirtToPhys, if_neg hactive]
    simp only [hmodel, Except.ok_bind, hleaf]
    rfl
  by_cases ht : t = .instr
  · rw [if_pos ht] at hphys
    exact ⟨leafAddress va i pte, { s.mmu with
      lastPhysPc := (leafAddress va i pte).setWidth 32, lastVirtPc := va }, hpa, rfl,
      fun hne => absurd ht hne, hphys⟩
  · rw [if_neg ht] at hphys
    exact ⟨_, s.mmu, hpa, rfl, fun _ => rfl, hphys⟩

end Translation

/-! ### The address space -/

/-- The program at mode `p` sees this memory in its pages, and `outside` has the bytes that it
does not write. -/
structure PagedView (map : PageMap) (p : PrivilegeLevel) (outside mem : Nat → Option Byte)
    (s : RvCore .rv32 (RvSoc Devices)) : Prop where
  notMachine : p ≠ .machine
  mode : ∀ t, checkMprvOverride s t = p
  tables : PageTables map p (checkBit s.status trapXstatusMxrBit)
    (checkBit s.status trapXstatusSumBit) s.mmu.satpReg s.pmp s.priv.byteAt
  mem : map.view s.priv.byteAt = mem
  outside : ∀ b, ¬ map.Writes b → s.priv.byteAt b = outside b

section View

variable {map : PageMap} {p : PrivilegeLevel} {outside mem : Nat → Option Byte}
  {s s' : RvCore .rv32 (RvSoc Devices)}

theorem PagedView.of_same (h : PagedView map p outside mem s) (hview : SameView s s')
    (hpriv : s'.priv.byteAt = s.priv.byteAt) : PagedView map p outside mem s' := by
  constructor
  case notMachine => exact h.notMachine
  case mode =>
    intro t
    rw [hview.mode]
    exact h.mode t
  case tables =>
    rw [hview.mxr, hview.sum, hview.satpReg, hview.pmp, hpriv]
    exact h.tables
  case mem =>
    rw [hpriv]
    exact h.mem
  case outside =>
    rw [hpriv]
    exact h.outside

theorem PagedView.exists_frame (h : PagedView map p outside mem s) {a len : Nat} (hlen : 0 < len)
    (hbytes : ∀ i < len, (mem (a + i)).isSome = true) :
    ∃ f, map.frame (a / 4096) = some f := by
  have hfirst := hbytes 0 hlen
  rw [← h.mem, PageMap.view, PageMap.phys, Nat.add_zero] at hfirst
  cases hframe : map.frame (a / 4096) with
  | none =>
      rw [hframe] at hfirst
      cases hfirst
  | some f => exact ⟨f, rfl⟩

/-- A granted access is made at the physical address of its first byte. -/
theorem PagedView.access (useSimpleUart : Bool) (h : PagedView map p outside mem s)
    {t : BusAccessType} {addr : BitVec 32} {len : Nat} (hlen : 0 < len ∧ len ≤ 8)
    (hbytes : ∀ i < len, (mem (addr.toNat + i)).isSome = true)
    (hgrant : map.grants t (addr.toNat / 4096)) (hpage : addr.toNat % 4096 + len ≤ 4096)
    (value : List Byte) :
    ∃ (pa : BitVec 32) (mmu : Mmu .rv32), map.phys addr.toNat = some pa.toNat ∧
      Mapped pa.toNat len ∧ mmu.satpReg = s.mmu.satpReg ∧ (t ≠ .instr → mmu = s.mmu) ∧
      mmuCheckedBusAccess (socBusAccess useSimpleUart) s t addr value len =
        if t = .write then .ok (.ok, value, { s with
          mmu := mmu, priv := s.priv.writeBytes pa.toNat value len })
        else .ok (.ok, s.priv.bytesAt pa.toNat len ++ value.drop len, { s with mmu := mmu }) := by
  obtain ⟨f, hframe⟩ := h.exists_frame hlen.1 hbytes
  obtain ⟨pa, mmu, hpa, hsatp, hmmu, hphys⟩ :=
    h.tables.translate useSimpleUart h.notMachine hframe hgrant
  have hat : map.phys addr.toNat = some pa.toNat := PageMap.phys_eq_some.mpr ⟨f, hframe, hpa.symm⟩
  have hmapped : Mapped pa.toNat len := by
    refine mapped_of_bytes s.priv hlen fun i hi => ?_
    have hbyte := hbytes i hi
    rw [← h.mem, PageMap.view, PageMap.phys_add hat (by omega)] at hbyte
    exact hbyte
  have hlow : (pa.setWidth 32).toNat = pa.toNat := by
    have hlt := mapped_lt hmapped
    rw [BitVec.toNat_setWidth, Nat.mod_eq_of_lt (by omega)]
  have hmapped' : Mapped (pa.setWidth 32).toNat len := by
    rw [hlow]
    exact hmapped
  have hpmp : pmpMemCheck s.pmp p (pa.setWidth 32) len t = .ok := by
    refine h.tables.granted hframe hgrant hlen ?_ ?_
    · rw [hlow, hpa]
      omega
    · rw [hlow, hpa]
      omega
  have haccess := pmpCheckedBusAccess_mapped useSimpleUart (s := { s with mmu := mmu })
    (pa.setWidth 32) hlen.1 hmapped' hpmp value
  refine ⟨pa.setWidth 32, mmu, ?_, hmapped', hsatp, hmmu, ?_⟩
  · rw [hlow]
    exact hat
  · rw [mmuCheckedBusAccess, h.mode t]
    simp only [hphys, Except.ok_bind]
    exact haccess

/-- A write of the program, seen from it and from outside. -/
theorem PagedView.store (h : PagedView map p outside mem s) {a pa len : Nat}
    (hat : map.phys a = some pa) (hgrant : map.grants .write (a / 4096))
    (hpage : a % 4096 + len ≤ 4096) (hmapped : Mapped pa len) (value : Nat) :
    PagedView map p outside (storeBytes mem a len value)
      { s with priv := s.priv.writeBytes pa (leBytes len value) len } := by
  have hwrites : ∀ b, pa ≤ b ∧ b < pa + len → map.Writes b := by
    intro b hb
    obtain ⟨f, hframe, hpa⟩ := PageMap.phys_eq_some.mp hat
    have hf : b / 4096 = f := by omega
    exact ⟨a / 4096, hf ▸ hframe, hgrant⟩
  have hbytes := byteAt_writeBytes_store s.priv hmapped value
  constructor
  case notMachine => exact h.notMachine
  case mode => exact h.mode
  case tables =>
    rw [hbytes]
    exact h.tables.storeBytes hwrites value
  case mem =>
    rw [hbytes, PageMap.view_storeBytes _ hat hpage, h.mem]
  case outside =>
    intro b hb
    rw [hbytes, RiscvEm.storeBytes, if_neg (fun hin => hb (hwrites b hin))]
    exact h.outside b hb

end View

/-- The address space of the program: an access is granted that its page grants and that does
not leave the page. -/
def pagedSpace (useSimpleUart : Bool) (map : PageMap) (p : PrivilegeLevel)
    (outside : Nat → Option Byte) : AddressSpace .rv32 useSimpleUart where
  grants t a len := map.grants t (a / 4096) ∧ a % 4096 + len ≤ 4096
  Sees := PagedView map p outside
  of_same h := h.of_same
  read := by
    intro mem s t addr len h ht hlen hbytes hgrants value
    obtain ⟨hgrant, hpage⟩ := hgrants
    obtain ⟨pa, mmu, hat, -, hsatp, -, haccess⟩ :=
      h.access useSimpleUart hlen hbytes hgrant hpage value
    rw [if_neg ht] at haccess
    refine ⟨mmu, hsatp, ?_⟩
    rw [haccess, ← h.mem, PageMap.memBytes_view s.priv.byteAt hat hpage]
    rfl
  write := by
    intro mem s addr len h hlen hbytes hgrants value
    obtain ⟨hgrant, hpage⟩ := hgrants
    obtain ⟨pa, mmu, hat, hmapped, -, hmmu, haccess⟩ :=
      h.access useSimpleUart hlen hbytes hgrant hpage (leBytes len value)
    rw [if_pos rfl, hmmu (by decide)] at haccess
    exact ⟨_, s.priv.devices_writeBytes _ _ _, haccess, h.store hat hgrant hpage hmapped value⟩

end RiscvEm
