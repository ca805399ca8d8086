import RiscvEm.Isa.Rounds
import RiscvEm.Soc.Images
import RiscvEm.Soc.MainLoop

/-!
The way from `rv_soc_init` into the firmware: the six instructions of the reset vector are
steps of the machine but for one, which reads the number of the hart, and leave the machine
with the arguments of the firmware in its registers.
-/

namespace RiscvEm

variable {w : Xlen} {useSimpleUart : Bool}

/-! ### The number of the hart -/

def csrAddrMhartid : Nat := 0xF14

/-- A read of the number of the hart at machine mode is a read of zero. -/
theorem instrCsrrs_mhartid {σ : Type} {s : RvCore w σ} (htable : TableKept s.csrRegs)
    (hmode : s.currPrivMode = .machine) (haddr : s.csrAddr = csrAddrMhartid)
    (hrs1 : s.rs1 = 0) : instrCsrrs s = .ok (s.setX s.rd 0) := by
  have hattr := htable csrAddrMhartid
  have hentry : rvCoreInitCsrRegs w csrAddrMhartid = { accessFlags := csrAccessRo .machine } := by
    cases w <;> decide +kernel
  rw [hentry] at hattr
  simp only [CsrReg.attributes, CsrReg.mk.injEq, true_and] at hattr
  obtain ⟨hflags, hmask, -, -⟩ := hattr
  have hlookup : csrEntry s s.csrAddr = .ok (s.csrRegs csrAddrMhartid) :=
    csrEntry_eq_ok.mpr ⟨haddr ▸ (by decide), congrArg s.csrRegs haddr⟩
  have hbound : ¬ csrAddrMax < s.csrAddr := haddr ▸ (by decide)
  have hgrant : csrAccessReadGranted s.currPrivMode (s.csrRegs csrAddrMhartid).accessFlags =
      true := by
    rw [hmode, hflags]
    decide
  rw [RvCore.csrAddr] at hlookup hbound
  simp only [instrCsrrs, csrrsx, csrrReadModifyWrite, csrGetMask, csrReadReg, hlookup,
    if_neg hbound, if_pos hgrant, Except.ok_bind, Except.pure_eq_ok, hmask, hrs1, ne_eq,
    not_true_eq_false, if_false, BitVec.ofNat_eq_ofNat, BitVec.and_zero]

/-- The step of `csrr rd, mhartid` on the only hart. -/
def ReadsHartid (m m' : IsaState w) : Prop :=
  ∃ rd, m.Present m.pc.toNat w.bytes ∧
    Encodes w .csrrs (.csr rd 0 (BitVec.ofNat 12 csrAddrMhartid)) (m.word 4 m.pc.toNat) ∧
      m' = (m.setX rd 0).next

theorem rvCoreRun_readsHartid {m m' : IsaState w} {s : RvCore w (RvSoc Devices)}
    (hrep : Represents (flatSpace w useSimpleUart) m s) (hmode : s.currPrivMode = .machine)
    (htable : TableKept s.csrRegs) (h : ReadsHartid m m') :
    ∃ s', rvCoreRun (socBusAccess useSimpleUart) s = .ok s' ∧
      Represents (flatSpace w useSimpleUart) m' s' ∧ Undisturbed s s' := by
  obtain ⟨rd, hfetch, henc, rfl⟩ := h
  obtain ⟨d, hd, hrepd, hquiet, hnext, hrd, hrs1, haddr⟩ :=
    exists_executes hrep hfetch trivial henc (by rintro _ _ ⟨⟩)
  have htable' : TableKept d.csrRegs := by
    rw [hd.frame]
    exact htable
  have hmode' : d.currPrivMode = .machine := hquiet.currPrivMode.trans hmode
  have hread := instrCsrrs_mhartid htable' hmode' haddr hrs1
  have hperforms : Performs (flatSpace w useSimpleUart) (m.setX rd 0).next d (d.setX d.rd 0) :=
    performs_value hrepd hnext hrd (writes_setX d 0)
  obtain ⟨hrep', hquiet'⟩ := hperforms.represents
  exact ⟨_, hd.run hread, hrep', hquiet.trans hquiet'⟩

/-! ### Rounds -/

def BootStep (useSimpleUart : Bool) (m m' : IsaState w) : Prop :=
  EmulatedStep (flatSpace w useSimpleUart) m m' ∨ ReadsHartid m m'

/-- The system runs such a program at machine mode. -/
structure Boots (useSimpleUart : Bool) (m : IsaState w) (s : RvCore w (RvSoc Devices)) : Prop
    extends Emulates (flatSpace w useSimpleUart) m s where
  mode : s.currPrivMode = .machine
  table : TableKept s.csrRegs

theorem rvSocRound_boots {m m' : IsaState w} {s : RvCore w (RvSoc Devices)}
    (h : Boots useSimpleUart m s) (hstep : BootStep useSimpleUart m m') :
    ∃ printed s', rvSocRound useSimpleUart s = .ok (printed, s') ∧
      Boots useSimpleUart m' s' := by
  have hround : ∃ printed s', rvSocRound useSimpleUart s = .ok (printed, s') ∧
      Emulates (flatSpace w useSimpleUart) m' s' ∧ s'.currPrivMode = s.currPrivMode := by
    rcases hstep with hstep | hread
    · exact rvSocRound_emulates h.toEmulates hstep
    · obtain ⟨s₁, hrun, hrep, hquiet⟩ :=
        rvCoreRun_readsHartid h.represents h.mode h.table hread
      obtain ⟨t, mei, mti, msi, printed, ht⟩ := (h.toHosts.of_undisturbed hrep hquiet).stepped hrun
      obtain ⟨s', hround, hs', hmode⟩ := ht.emulates hquiet h.masked
      exact ⟨printed, s', hround, hs', hmode⟩
  obtain ⟨printed, s', hround, hs', hmode⟩ := hround
  exact ⟨printed, s', hround, hs', hmode.trans h.mode, rvSocRound_tableKept h.table hround⟩

theorem boots_follows (w : Xlen) (useSimpleUart : Bool) :
    Simulation.Follows (SocEvent.exec useSimpleUart) (· == .round)
      (BootStep (w := w) useSimpleUart) (Boots useSimpleUart) where
  step e m m' s he hstep h := by
    obtain rfl := eq_of_beq he
    exact rvSocRound_boots h hstep
  silent e m s he h := by
    cases e with
    | round => cases he
    | arrival x =>
        obtain ⟨s', hexec, hs', hmode, htable⟩ := h.toEmulates.arrival x
        exact ⟨[], s', hexec, hs', hmode.trans h.mode, htable ▸ h.table⟩

/-! ### The reset vector -/

section ResetVector

variable {fw : List Byte} {dtb initrd : Option (List Byte)} {s : RvCore w (RvSoc Devices)}

/-- The address of the device tree, zero without one. -/
def fdtLaddr (dtb : Option (List Byte)) : BitVec 64 :=
  (dtb.map fun contents => fdtAddrOf contents.length).getD 0

def wordBytesOf (words : List (BitVec 32)) : List Byte :=
  words.flatMap fun word => leBytes 4 word.toNat

theorem rvSocInit_mrom (h : rvSocInit w fw dtb initrd = .ok s) :
    s.priv.mrom = Memory.write (fun _ => 0) 0 (wordBytesOf (resetVec (fdtLaddr dtb) w))
      (wordBytesOf (resetVec (fdtLaddr dtb) w)).length := by
  simp only [rvSocInit] at h
  cases dtb <;> cases initrd
  all_goals
    obtain ⟨ram, -, h⟩ := Except.bind_eq_ok.mp h
    obtain ⟨loaded, -, h⟩ := Except.bind_eq_ok.mp h
    obtain ⟨fromMem, -, h⟩ := Except.bind_eq_ok.mp h
    obtain rfl := Except.ok.inj h
    rfl

theorem getD_wordBytesOf {words : List (BitVec 32)} {k i : Nat} (hk : k < words.length)
    (hi : i < 4) :
    (wordBytesOf words).getD (4 * k + i) 0 = (leBytes 4 (words.getD k 0).toNat).getD i 0 := by
  induction words generalizing k with
  | nil => cases hk
  | cons word words ih =>
      have hlen : (leBytes 4 word.toNat).length = 4 := length_leBytes 4 _
      rw [wordBytesOf, List.flatMap_cons, List.getD_eq_getElem?_getD]
      cases k with
      | zero =>
          rw [Nat.mul_zero, Nat.zero_add, List.getElem?_append_left (by omega),
            List.getD_cons_zero, List.getD_eq_getElem?_getD]
      | succ k =>
          have hindex : 4 * (k + 1) + i - 4 = 4 * k + i := by omega
          rw [List.getElem?_append_right (by omega), hlen, hindex, List.getD_cons_succ,
            ← ih (Nat.lt_of_succ_lt_succ hk), wordBytesOf, List.getD_eq_getElem?_getD]

theorem length_wordBytesOf (words : List (BitVec 32)) :
    (wordBytesOf words).length = 4 * words.length := by
  induction words with
  | nil => rfl
  | cons word words ih =>
      rw [wordBytesOf] at ih ⊢
      rw [List.flatMap_cons, List.length_append, length_leBytes, ih, List.length_cons]
      omega

theorem memoryAt_mrom {i : Nat} (hi : i < mromSizeBytes) :
    memoryAt (mromBaseAddr + i) = some .mrom := by
  refine memoryAt_eq (by simp [BusTarget.IsMemory]) ⟨?_, ?_⟩
  · show mromBaseAddr ≤ mromBaseAddr + i
    omega
  · show mromBaseAddr + i + 1 ≤ mromBaseAddr + mromSizeBytes
    omega

theorem present_mrom {m : IsaState w} (hmem : s.priv.byteAt = m.mem) {i len : Nat}
    (hi : i + len ≤ mromSizeBytes) : m.Present (mromBaseAddr + i) len := by
  intro j hj
  rw [← hmem, Nat.add_assoc, RvSoc.byteAt_of_memoryAt _ (memoryAt_mrom (by omega))]
  rfl

theorem word_resetVec (h : rvSocInit w fw dtb initrd = .ok s) {m : IsaState w}
    (hmem : s.priv.byteAt = m.mem) {k : Nat} (hk : k < 10) :
    m.word 4 (mromBaseAddr + 4 * k) = (resetVec (fdtLaddr dtb) w).getD k 0 := by
  have hlen : (resetVec (fdtLaddr dtb) w).length = 10 := by cases w <;> rfl
  have hbyte : ∀ i < 4, (m.mem (mromBaseAddr + 4 * k + i)).getD 0 =
      (leBytes 4 ((resetVec (fdtLaddr dtb) w).getD k 0).toNat).getD i 0 := by
    intro i hi
    have hsize : 4 * k + i < mromSizeBytes := by
      rw [mromSizeBytes]
      omega
    rw [← hmem, Nat.add_assoc, RvSoc.byteAt_of_memoryAt _ (memoryAt_mrom hsize),
      ← getD_wordBytesOf (hlen.symm ▸ hk) hi, Option.getD_some, RvSoc.array, rvSocInit_mrom h,
      BusTarget.memory, Nat.add_sub_cancel_left, Memory.write, if_pos, Nat.sub_zero]
    rw [length_wordBytesOf, hlen]
    omega
  rw [IsaState.word, List.map_congr_left fun i hi => hbyte i (List.mem_range.mp hi)]
  have hread : ∀ v : Nat, (List.range 4).map (fun i => (leBytes 4 v).getD i 0) = leBytes 4 v :=
    fun v => rfl
  rw [hread, leNat_leBytes]
  refine BitVec.eq_of_toNat_eq ?_
  rw [BitVec.toNat_ofNat]
  have hlt := ((resetVec (fdtLaddr dtb) w).getD k 0).isLt
  rw [Nat.mod_eq_of_lt (by omega), Nat.mod_eq_of_lt (by omega)]

theorem leNat_append (low high : List Byte) :
    leNat (low ++ high) = 256 ^ low.length * leNat high + leNat low := by
  induction low with
  | nil => rw [List.nil_append, List.length_nil, Nat.pow_zero, Nat.one_mul, leNat, Nat.add_zero]
  | cons b low ih =>
      rw [List.cons_append, leNat, ih, leNat, List.length_cons, Nat.pow_succ', Nat.mul_assoc]
      omega

theorem IsaState.word_eight (m : IsaState w) (a : Nat) :
    m.word 8 a = m.word 4 (a + 4) ++ m.word 4 a := by
  have hsplit : (List.range 8).map (fun i => (m.mem (a + i)).getD 0) =
      (List.range 4).map (fun i => (m.mem (a + i)).getD 0) ++
        (List.range 4).map fun i => (m.mem (a + 4 + i)).getD 0 := rfl
  have hbytes (b : Nat) : leNat ((List.range 4).map fun i => (m.mem (b + i)).getD 0) < 2 ^ 32 := by
    have hlt := leNat_lt ((List.range 4).map fun i => (m.mem (b + i)).getD 0)
    rw [List.length_map, List.length_range] at hlt
    exact Nat.lt_of_lt_of_eq hlt (by decide)
  refine BitVec.eq_of_toNat_eq ?_
  rw [BitVec.toNat_append, IsaState.word, IsaState.word, IsaState.word, hsplit, leNat_append,
    List.length_map, List.length_range]
  simp only [BitVec.toNat_ofNat]
  have hlow := hbytes a
  have hhigh := hbytes (a + 4)
  rw [Nat.mod_eq_of_lt hlow, Nat.mod_eq_of_lt hhigh, Nat.mod_eq_of_lt (by omega),
    ← Nat.shiftLeft_add_eq_or_of_lt hlow, Nat.shiftLeft_eq]
  omega

/-! ### The steps of the vector -/

variable {m m' : IsaState w} {k : Nat}

structure AtVector (mem : Nat → Option Byte) (k : Nat) (m : IsaState w) : Prop where
  pc : m.pc.toNat = mromBaseAddr + 4 * k
  mem : mem = m.mem

theorem AtVector.next {mem : Nat → Option Byte} (h : AtVector mem k m) (hk : k < 6)
    (rd : RegIndex) (v : RvUintXlen w) : AtVector mem (k + 1) (m.setX rd v).next := by
  refine ⟨?_, h.mem⟩
  have hfour : (4 : RvUintXlen w).toNat = 4 := w.toNat_ofNat (by decide)
  have hpow : 2 ^ 32 ≤ 2 ^ w.bits := w.two_pow_le
  show (m.pc + 4).toNat = _
  rw [BitVec.toNat_add, hfour, h.pc, mromBaseAddr, Nat.mod_eq_of_lt (by omega)]
  omega

/-- The instructions of the vector are fetched from where it lies. -/
theorem boot_fetch (h : rvSocInit w fw dtb initrd = .ok s) (hat : AtVector s.priv.byteAt k m)
    (hk : k < 6) :
    m.Present m.pc.toNat 4 ∧ m.Present m.pc.toNat w.bytes ∧
      m.word 4 m.pc.toNat = (resetVec (fdtLaddr dtb) w).getD k 0 := by
  have hbytes : w.bytes ≤ 8 := by cases w <;> decide
  have hroom : 4 * k + 8 ≤ mromSizeBytes := by
    rw [mromSizeBytes]
    omega
  rw [hat.pc]
  exact ⟨present_mrom hat.mem (by omega), present_mrom hat.mem (by omega),
    word_resetVec h hat.mem (by omega)⟩

theorem boot_step (h : rvSocInit w fw dtb initrd = .ok s) (hat : AtVector s.priv.byteAt k m)
    (hk : k < 6) {cb : ExecutionCb} {o : Operands}
    (henc : Encodes w cb o ((resetVec (fdtLaddr dtb) w).getD k 0))
    (hexec : IsaExec (flatSpace w useSimpleUart).grants m cb o m')
    (hne : m'.pc.toNat ≠ 0) : BootStep useSimpleUart m m' := by
  obtain ⟨hfour, hfetch, hword⟩ := boot_fetch h hat hk
  refine .inl ⟨⟨hfour, trivial, cb, o, hword ▸ henc, hexec⟩, hfetch, trivial, ?_⟩
  rintro hzero
  rw [hzero] at hne
  exact hne rfl

theorem boot_setX (useSimpleUart : Bool) (h : rvSocInit w fw dtb initrd = .ok s)
    (hat : AtVector s.priv.byteAt k m) (hk : k < 6) {cb : ExecutionCb} {o : Operands}
    (rd : RegIndex) (v : RvUintXlen w)
    (henc : Encodes w cb o ((resetVec (fdtLaddr dtb) w).getD k 0))
    (hexec : IsaExec (flatSpace w useSimpleUart).grants m cb o (m.setX rd v).next) :
    BootStep useSimpleUart m (m.setX rd v).next ∧
      AtVector s.priv.byteAt (k + 1) (m.setX rd v).next := by
  have hnext := hat.next hk rd v
  refine ⟨boot_step h hat hk henc hexec ?_, hnext⟩
  rw [hnext.pc, mromBaseAddr]
  omega

def bootLoad : Xlen → ExecutionCb
  | .rv32 => .lw
  | .rv64 => .ld

/-- A register is loaded with a word of the vector that is followed by a zero. -/
theorem loadExt_resetVec (h : rvSocInit w fw dtb initrd = .ok s) (hmem : s.priv.byteAt = m.mem)
    (hk : k < 9) (hzero : (resetVec (fdtLaddr dtb) w).getD (k + 1) 0 = 0) :
    ((bootLoad w).loadExt (m.word (bootLoad w).accessLen (mromBaseAddr + 4 * k)) :
      RvUintXlen w) = ((resetVec (fdtLaddr dtb) w).getD k 0).setWidth w.bits := by
  have hword := word_resetVec h hmem (Nat.lt_of_lt_of_le hk (by decide : 9 ≤ 10))
  have hnext := word_resetVec h hmem (Nat.succ_lt_succ hk)
  rw [hzero] at hnext
  cases w with
  | rv32 =>
      show (m.word 4 (mromBaseAddr + 4 * k)).signExtend 32 = _
      rw [hword, BitVec.signExtend_eq]
      exact (BitVec.setWidth_eq _).symm
  | rv64 =>
      show (m.word 8 (mromBaseAddr + 4 * k)).signExtend 64 = _
      have haddr : mromBaseAddr + 4 * k + 4 = mromBaseAddr + 4 * (k + 1) := by omega
      have hlt := ((resetVec (fdtLaddr dtb) .rv64).getD k 0).isLt
      rw [m.word_eight, haddr, hword, hnext, BitVec.signExtend_eq]
      refine BitVec.eq_of_toNat_eq ?_
      rw [BitVec.toNat_append, BitVec.toNat_setWidth]
      show 0 <<< 32 ||| _ = ((resetVec (fdtLaddr dtb) .rv64).getD k 0).toNat % 2 ^ 64
      rw [Nat.zero_shiftLeft, Nat.zero_or, Nat.mod_eq_of_lt (by omega)]

/-- The loads of the vector: `t0` holds its address, and the offset leads to a word of it. -/
theorem boot_load (useSimpleUart : Bool) (h : rvSocInit w fw dtb initrd = .ok s)
    (hat : AtVector s.priv.byteAt k m) (hk : k < 6) {rd : BitVec 5} {imm : BitVec 12} {j : Nat}
    (hj : j < 9)
    (henc : Encodes w (bootLoad w) (.i rd 5 imm) ((resetVec (fdtLaddr dtb) w).getD k 0))
    (hx : m.x 5 = BitVec.ofNat w.bits mromBaseAddr)
    (haddr : (BitVec.ofNat w.bits mromBaseAddr + imm.signExtend w.bits).toNat =
      mromBaseAddr + 4 * j)
    (hzero : (resetVec (fdtLaddr dtb) w).getD (j + 1) 0 = 0) :
    BootStep useSimpleUart m
        (m.setX rd (((resetVec (fdtLaddr dtb) w).getD j 0).setWidth w.bits)).next ∧
      AtVector s.priv.byteAt (k + 1)
        (m.setX rd (((resetVec (fdtLaddr dtb) w).getD j 0).setWidth w.bits)).next := by
  have hkind : (bootLoad w).kind = .load := by cases w <;> rfl
  have hlen : (bootLoad w).accessLen ≤ 8 := by cases w <;> decide
  have hroom : 4 * j + 8 ≤ mromSizeBytes := by
    rw [mromSizeBytes]
    omega
  rw [← loadExt_resetVec h hat.mem hj hzero, ← haddr, ← hx]
  refine boot_setX useSimpleUart h hat hk _ _ henc (.load hkind ?_ trivial)
  rw [hx, haddr]
  exact present_mrom hat.mem (by omega)

structure AtFirmware (dtb : Option (List Byte)) (mem : Nat → Option Byte) (m : IsaState w) :
    Prop where
  pc : m.pc = BitVec.ofNat w.bits ramBaseAddr
  hart : m.x 10 = 0
  fdt : m.x 11 = ((fdtLaddr dtb).setWidth 32).setWidth w.bits
  dynamicInfo : m.x 12 = BitVec.ofNat w.bits (mromBaseAddr + 40)
  mem : mem = m.mem

def resetMachine (w : Xlen) (mem : Nat → Option Byte) : IsaState w where
  pc := BitVec.ofNat w.bits mromBaseAddr
  aligned := by cases w <;> rfl
  x _ := 0
  zero := rfl
  mem := mem
  reservation := none

section Encodings

variable (fdtAddr : BitVec 64)

theorem resetVec_auipc : Encodes w .auipc (.u 5 0) ((resetVec fdtAddr w).getD 0 0) := by
  have hmem : (ExecutionCb.auipc, 0x17#7) ∈ uTypeCodes := by decide
  have henc := Encodes.uType (w := w) hmem 5 0
  cases w <;> exact henc

theorem resetVec_addi : Encodes w .addi (.i 12 5 40) ((resetVec fdtAddr w).getD 1 0) := by
  have hmem : (ExecutionCb.addi, 0x13#7, 0#3) ∈ iTypeCodes w := by cases w <;> decide
  have henc := Encodes.iType hmem 12 5 40
  cases w <;> exact henc

theorem resetVec_csrr : Encodes w .csrrs (.csr 10 0 (BitVec.ofNat 12 csrAddrMhartid))
    ((resetVec fdtAddr w).getD 2 0) := by
  have hmem : (ExecutionCb.csrrs, 2#3) ∈ csrCodes := by decide
  have henc := Encodes.csr (w := w) hmem 10 0 (BitVec.ofNat 12 csrAddrMhartid)
  cases w <;> exact henc

theorem resetVec_loads :
    Encodes w (bootLoad w) (.i 11 5 32) ((resetVec fdtAddr w).getD 3 0) ∧
      Encodes w (bootLoad w) (.i 5 5 24) ((resetVec fdtAddr w).getD 4 0) := by
  cases w with
  | rv32 =>
      have hmem : (ExecutionCb.lw, 0x03#7, 2#3) ∈ iTypeCodes .rv32 := by decide
      exact ⟨Encodes.iType hmem 11 5 32, Encodes.iType hmem 5 5 24⟩
  | rv64 =>
      have hmem : (ExecutionCb.ld, 0x03#7, 3#3) ∈ iTypeCodes .rv64 := by decide
      exact ⟨Encodes.iType hmem 11 5 32, Encodes.iType hmem 5 5 24⟩

theorem resetVec_jr : Encodes w .jalr (.i 0 5 0) ((resetVec fdtAddr w).getD 5 0) := by
  have hmem : (ExecutionCb.jalr, 0x67#7, 0#3) ∈ iTypeCodes w := by cases w <;> decide
  have henc := Encodes.iType hmem 0 5 0
  cases w <;> exact henc

end Encodings

theorem boot_jump (useSimpleUart : Bool) (h : rvSocInit w fw dtb initrd = .ok s)
    (hat : AtVector s.priv.byteAt 5 m) (hx : m.x 5 = BitVec.ofNat w.bits ramBaseAddr) :
    ∃ m', BootStep useSimpleUart m m' ∧ m'.pc = BitVec.ofNat w.bits ramBaseAddr ∧
      (∀ r, r ≠ 0 → m'.x r = m.x r) ∧ m'.mem = m.mem := by
  have htarget : (m.x 5 + (0#12).signExtend w.bits) &&& ~~~1#w.bits =
      BitVec.ofNat w.bits ramBaseAddr := by
    rw [hx]
    cases w <;> decide
  have haligned : ((m.x 5 + (0#12).signExtend w.bits) &&& ~~~1#w.bits).toNat % 4 = 0 := by
    rw [htarget]
    cases w <;> rfl
  refine ⟨(m.setX 0 (m.pc + 4)).goto _ haligned, ?_, htarget, ?_, rfl⟩
  · refine boot_step h hat (by decide) (resetVec_jr _) (.jalr haligned) ?_
    show ((m.x 5 + (0#12).signExtend w.bits) &&& ~~~1#w.bits).toNat ≠ 0
    rw [htarget]
    cases w <;> decide
  · intro r hr
    show Function.update (Function.update m.x 0 _) 0 0 r = m.x r
    rw [Function.update_of_ne hr, Function.update_of_ne hr]

theorem resetMachine_steps (useSimpleUart : Bool) (h : rvSocInit w fw dtb initrd = .ok s) :
    ∃ m, Simulation.StepsIn (BootStep useSimpleUart) 6 (resetMachine w s.priv.byteAt) m ∧
      AtFirmware dtb s.priv.byteAt m := by
  have hat₀ : AtVector s.priv.byteAt 0 (resetMachine w s.priv.byteAt) :=
    ⟨by cases w <;> rfl, rfl⟩
  obtain ⟨h₀, hat₁⟩ := boot_setX useSimpleUart h hat₀ (by decide) 5
    (BitVec.ofNat w.bits mromBaseAddr) (resetVec_auipc _) (.value (by cases w <;> rfl))
  obtain ⟨h₁, hat₂⟩ := boot_setX useSimpleUart h hat₁ (by decide) 12
    (BitVec.ofNat w.bits (mromBaseAddr + 40)) (resetVec_addi _) (.value (by cases w <;> rfl))
  -- the number of the hart
  obtain ⟨-, hfetch, hword⟩ := boot_fetch h hat₂ (by decide)
  have h₂ : BootStep useSimpleUart _ _ := .inr ⟨10, hfetch, hword ▸ resetVec_csrr _, rfl⟩
  have hat₃ := hat₂.next (by decide) 10 0
  -- the device tree and the firmware
  obtain ⟨h₃, hat₄⟩ := boot_load (j := 8) useSimpleUart h hat₃ (by decide) (by decide)
    (resetVec_loads _).1 rfl (by cases w <;> rfl) (by cases w <;> rfl)
  obtain ⟨h₄, hat₅⟩ := boot_load (j := 6) useSimpleUart h hat₄ (by decide) (by decide)
    (resetVec_loads _).2 rfl (by cases w <;> rfl) (by cases w <;> rfl)
  obtain ⟨m, h₅, hpc, hx, hmem⟩ := boot_jump useSimpleUart h hat₅ (by cases w <;> rfl)
  refine ⟨m, ⟨_, h₀, _, h₁, _, h₂, _, h₃, _, h₄, _, h₅, rfl⟩, hpc, ?_, ?_, ?_, ?_⟩
  · rw [hx 10 (by decide)]
    rfl
  · rw [hx 11 (by decide)]
    cases w <;> rfl
  · rw [hx 12 (by decide)]
    rfl
  · rw [hmem]
    exact hat₅.mem

/-! ### Into the firmware -/

theorem initial_boots (useSimpleUart : Bool) (h : s.Initial) :
    Boots useSimpleUart (resetMachine w s.priv.byteAt) s := by
  obtain ⟨priv, rfl⟩ := h
  have hlock : ∀ i, checkBit ((rvCoreInit priv : RvCore w (RvSoc Devices)).pmp.cfg i) pmpCfgLBit =
      false := fun _ => (by decide : checkBit (0 : Byte) pmpCfgLBit = false)
  have hstatus : (rvCoreInit priv : RvCore w (RvSoc Devices)).status = 0 := rfl
  constructor
  case toEmulates =>
    constructor
    case toHosts =>
      refine ⟨⟨rfl, rfl, ⟨flat_machine rfl ?_ hlock, rfl⟩, rfl⟩, ⟨.inr (.inr rfl), rfl⟩⟩
      rw [RvCore.MprvClear, hstatus]
      exact BitVec.getLsbD_zero
    case masked =>
      refine masked_machine rfl ?_
      rw [hstatus]
      exact BitVec.getLsbD_zero
  case mode => rfl
  case table => exact fun _ => rfl

/-- The firmware is about to be executed, with the number of the hart and the address of the
device tree for arguments, and both images are where they are said to be. -/
structure FirmwareEntered (fw : List Byte) (dtb : Option (List Byte))
    (s : RvCore w (RvSoc Devices)) : Prop where
  mode : s.currPrivMode = .machine
  pc : s.pc = BitVec.ofNat w.bits ramBaseAddr
  hart : s.x 10 = 0
  dynamicInfo : s.x 12 = BitVec.ofNat w.bits (mromBaseAddr + 40)
  firmware : ∀ i < fw.length, s.priv.byteAt (s.pc.toNat + i) = fw[i]?
  deviceTree : ∀ contents, dtb = some contents → FitsBelow fw.length contents.length →
    ∀ i < contents.length, s.priv.byteAt ((s.x 11).toNat + i) = contents[i]?

/-- What the RAM has in a region are the bytes at its addresses. -/
theorem byteAt_of_ramBytes {soc : RvSoc Devices} {r : Region} {contents : List Byte}
    (hram : ramBytes soc.ram r = contents) (hin : ramRegion.Contains r.start r.size) {i : Nat}
    (hi : i < r.size) : soc.byteAt (r.start + i) = contents[i]? := by
  have hlow : ramBaseAddr ≤ r.start := hin.1
  have hhigh : r.start + r.size ≤ ramBaseAddr + ramSizeBytes := hin.2
  have hat : memoryAt (r.start + i) = some .ram := by
    refine memoryAt_eq (by simp [BusTarget.IsMemory]) ⟨?_, ?_⟩
    · show ramBaseAddr ≤ r.start + i
      omega
    · show r.start + i + 1 ≤ ramBaseAddr + ramSizeBytes
      omega
  have hindex : r.start - ramBaseAddr + i = r.start + i - ramBaseAddr := by omega
  rw [RvSoc.byteAt_of_memoryAt _ hat, ← hram, ramBytes, Memory.read,
    List.getElem?_append_left (by rw [List.length_map, List.length_range]; exact hi),
    List.getElem?_map, List.getElem?_range hi, Option.map_some, hindex]
  rfl

/-- The address of a device tree that fits the RAM fits the word for it. -/
theorem toNat_fdtLaddr {contents : List Byte} (hsize : contents.length ≤ ramSizeBytes) :
    (((fdtLaddr (some contents)).setWidth 32).setWidth w.bits).toNat =
      (fdtAddrOf contents.length).toNat := by
  have hstart := toNat_fdtAddrOf hsize
  have hend : ramBaseAddr + ramSizeBytes < 2 ^ 32 := by decide
  have hpow : 2 ^ 32 ≤ 2 ^ w.bits := w.two_pow_le
  show (((fdtAddrOf contents.length).setWidth 32).setWidth w.bits).toNat = _
  rw [BitVec.toNat_setWidth, BitVec.toNat_setWidth, Nat.mod_eq_of_lt (by omega),
    Nat.mod_eq_of_lt (by omega)]

/-- Six rounds after `rv_soc_init` the firmware is entered, whatever images were accepted and
whatever characters arrive meanwhile; the system runs it as a program of the machine. -/
theorem boot_enters_firmware {events : List SocEvent} (h : rvSocInit w fw dtb initrd = .ok s)
    (hevents : events.countP (· == .round) = 6) :
    ∃ outs s' m, rvSocEvents useSimpleUart events s = .ok (outs, s') ∧
      Emulates (flatSpace w useSimpleUart) m s' ∧ FirmwareEntered fw dtb s' := by
  obtain ⟨m, hsteps, hm⟩ := resetMachine_steps useSimpleUart h
  rw [← hevents] at hsteps
  obtain ⟨outs, s', hcalls, hboots⟩ :=
    (boots_follows w useSimpleUart).calls hsteps (initial_boots useSimpleUart (rvSocInit_initial h))
  have hmem : s'.priv.byteAt = s.priv.byteAt := hboots.represents.mem.2.trans hm.mem.symm
  have hpc : s'.pc = BitVec.ofNat w.bits ramBaseAddr := hboots.represents.pc.trans hm.pc
  have hbase : (BitVec.ofNat w.bits ramBaseAddr).toNat = ramBaseAddr := by cases w <;> rfl
  obtain ⟨hsize, hram⟩ := rvSocInit_ram h
  refine ⟨outs, s', m, hcalls, hboots.toEmulates, hboots.mode, hpc, ?_, ?_, ?_, ?_⟩
  · rw [hboots.represents.x, hm.hart]
  · rw [hboots.represents.x, hm.dynamicInfo]
  · intro i hi
    have hfw : ramBytes s.priv.ram (fwRegion fw) = fw := by
      rw [hram, ramBytes, fwRegion, Nat.sub_self, Memory.read_write _ _ rfl, List.drop_nil,
        List.append_nil]
    rw [hpc, hbase, hmem]
    exact byteAt_of_ramBytes hfw ⟨Nat.le_refl _, Nat.add_le_add_left hsize _⟩ hi
  · rintro contents rfl hfits i hi
    have hfdt : ramBytes s.priv.ram (dtbRegion contents) = contents := by
      rw [hram]
      exact ramBytes_dtb hfits
    have hin : ramRegion.Contains (dtbRegion contents).start (dtbRegion contents).size := by
      have hstart := toNat_fdtAddrOf hfits.1
      have hfit := hfits.1
      constructor
      · show ramBaseAddr ≤ (fdtAddrOf contents.length).toNat
        omega
      · show (fdtAddrOf contents.length).toNat + contents.length ≤ ramBaseAddr + ramSizeBytes
        omega
    rw [hboots.represents.x, hm.fdt, toNat_fdtLaddr hfits.1, hmem]
    exact byteAt_of_ramBytes hfdt hin hi

end ResetVector

/-- The firmware of one word under its device tree, with a character that arrives. -/
theorem boot_enters_firmware_small :
    ∃ s, rvSocInit .rv64 [0x6F, 0, 0, 0] (some [0xD0]) none = .ok s ∧ ∃ outs s' m,
      rvSocEvents false (.arrival 65 :: List.replicate 6 .round) s = .ok (outs, s') ∧
        Emulates (flatSpace .rv64 false) m s' ∧
          FirmwareEntered [0x6F, 0, 0, 0] (some [0xD0]) s' := by
  have hfw : [0x6F#8, 0, 0, 0].length ≤ ramSizeBytes := by decide
  have hdtb : [0xD0#8].length ≤ ramSizeBytes := by decide
  obtain ⟨s, h⟩ := exists_rvSocInit .rv64 hfw hdtb
  exact ⟨s, h, boot_enters_firmware h (by decide)⟩

end RiscvEm
