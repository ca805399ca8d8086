import RiscvEm.Soc.HiddenState
import RiscvEm.Soc.Ram
import RiscvEm.Soc.Stops

/-!
How many bytes a fetch depends on. The instruction has four, but the fetch asks the PMP
and the bus for as many as a register has.
-/

namespace RiscvEm

variable {w : Xlen}

/-! ### A fetch of some length -/

/-- The program counter is mapped and executable, the PMP permits the fetch of `len` bytes
there, and the bus hands out bytes that begin with the instruction `word`. -/
def FetchOf (useSimpleUart : Bool) (s : RvCore w (RvSoc Devices)) (len : Nat)
    (word : BitVec 32) : Prop :=
  ∃ phys s₁ bytes soc, FetchTranslates (socBusAccess useSimpleUart) s (some phys) s₁ ∧
    pmpMemCheck s.pmp s.currPrivMode (phys.setWidth w.bits) len .instr = .ok ∧
      socBusAccess useSimpleUart s₁.priv s.currPrivMode .instr (phys.setWidth w.bits)
        ((instructionBytes s).take len) len = .ok (.ok, bytes, soc) ∧ word = leLoad 4 bytes

/-- `rv_core_fetch` succeeds with the instruction `word`. -/
def Fetches (useSimpleUart : Bool) (s : RvCore w (RvSoc Devices)) (word : BitVec 32) : Prop :=
  ∃ s', rvCoreFetch (socBusAccess useSimpleUart) s = .ok (.ok, s') ∧ s'.instruction = word

section Lengths

variable {useSimpleUart : Bool} {s : RvCore w (RvSoc Devices)} {word : BitVec 32}

/-- The fetch of the core is that of the bytes of a register. -/
theorem fetches_iff : Fetches useSimpleUart s word ↔ FetchOf useSimpleUart s w.bytes word := by
  have hbuffer : (instructionBytes s).take w.bytes = instructionBytes s :=
    List.take_of_length_le (Nat.le_of_eq (length_instructionBytes s))
  have hover : checkMprvOverride s .instr = s.currPrivMode := rfl
  rw [FetchOf, hbuffer]
  constructor
  · rintro ⟨s', hfetch, rfl⟩
    obtain ⟨bytes, s₂, haccess, rfl⟩ := rvCoreFetch_eq_ok.mp hfetch
    rw [storeInstruction_instruction]
    obtain ⟨physAddr, s₁, htrans, ⟨-, herr, -⟩ | ⟨phys, rfl, hphys⟩⟩ :=
      mmuCheckedBusAccess_cases haccess
    · cases herr
    · rcases pmpCheckedBusAccess_cases hphys with ⟨-, herr, -⟩ | ⟨hgrant, hbus, -⟩
      · cases herr
      · rw [hover, FetchTranslates.pmp htrans] at hgrant
        exact ⟨phys, s₁, bytes, s₂.priv, htrans, hgrant, hbus, rfl⟩
  · rintro ⟨phys, s₁, bytes, soc, htrans, hgrant, hbus, rfl⟩
    rw [← htrans.pmp] at hgrant
    have hpermitted : ¬ pmpMemCheck s₁.pmp s.currPrivMode (phys.setWidth w.bits) w.bytes .instr =
        .err := by
      rw [hgrant]
      decide
    rw [FetchTranslates] at htrans
    have haccess : mmuCheckedBusAccess (socBusAccess useSimpleUart) s .instr s.pc
        (instructionBytes s) w.bytes = .ok (.ok, bytes, { s₁ with priv := soc }) := by
      simp only [mmuCheckedBusAccess, hover, htrans, Except.ok_bind, pmpCheckedBusAccess,
        if_neg hpermitted, hbus, Except.pure_eq_ok]
    exact ⟨_, rvCoreFetch_eq_ok.mpr ⟨bytes, _, haccess, rfl⟩, storeInstruction_instruction _ _⟩

theorem FetchTranslates.unique {σ : Type} {busAccess : BusAccessFunc w σ} {s s₁ s₂ : RvCore w σ}
    {physAddr physAddr' : Option (BitVec 64)} (h : FetchTranslates busAccess s physAddr s₁)
    (h' : FetchTranslates busAccess s physAddr' s₂) : physAddr' = physAddr ∧ s₂ = s₁ := by
  obtain ⟨rfl, rfl⟩ := Prod.mk.inj (Except.ok.inj (h.symm.trans h'))
  exact ⟨rfl, rfl⟩

end Lengths

/-! ### A shorter access -/

section Shorter

variable {privLevel : PrivilegeLevel} {address : RvUintXlen w} {value : List Byte} {len : Nat}

theorem instr_ne_write : ¬ BusAccessType.instr = .write := by
  decide

theorem memoryBusAccess_shorter {size : Nat} {mem : Memory} {r : RvRet × List Byte × Memory}
    (hlen : 4 ≤ len)
    (h : memoryBusAccess size mem privLevel .instr address value len = .ok r) :
    ∃ r', memoryBusAccess size mem privLevel .instr address (value.take 4) 4 = .ok r' ∧
      r'.2.1.take 4 = r.2.1.take 4 := by
  rw [memoryBusAccess] at h ⊢
  split at h
  · cases h
  · next hsize =>
      have hsize' : ¬ size < address.toNat + 4 := by omega
      rw [if_neg instr_ne_write] at h
      rw [if_neg hsize', if_neg instr_ne_write]
      obtain rfl := Except.ok.inj h
      exact ⟨_, rfl, (take_memoryRead mem _ value _ hlen).symm⟩

theorem clintBusAccess_shorter {clint : Clint} {r : RvRet × List Byte × Clint} (hlen : 4 ≤ len)
    (h : clintBusAccess clint privLevel .instr address value len = .ok r) :
    ∃ r', clintBusAccess clint privLevel .instr address (value.take 4) 4 = .ok r' ∧
      r'.2.1.take 4 = r.2.1.take 4 := by
  rw [clintBusAccess] at h ⊢
  cases hoffs : getU8ArrIndexOffs address.toNat with
  | none =>
      rw [hoffs] at h
      obtain rfl := Except.ok.inj h
      refine ⟨_, rfl, ?_⟩
      rw [List.take_take, Nat.min_self]
  | some arrIndexOffs =>
      rw [hoffs] at h
      simp only at h ⊢
      split at h
      · cases h
      · next hsize =>
          have hsize' : ¬ 3 * clintRegSizeBytes < address.toNat % 8 + arrIndexOffs + 4 := by omega
          rw [if_neg instr_ne_write] at h
          rw [if_neg hsize', if_neg instr_ne_write]
          obtain rfl := Except.ok.inj h
          exact ⟨_, rfl, (take_memoryRead _ _ value _ hlen).symm⟩

theorem plicBusAccess_shorter {plic : Plic} {r : RvRet × List Byte × Plic} (hlen : 4 ≤ len)
    (h : plicBusAccess plic privLevel .instr address value len = .ok r) :
    ∃ r', plicBusAccess plic privLevel .instr address (value.take 4) 4 = .ok r' ∧
      r'.2.1.take 4 = r.2.1.take 4 := by
  rw [plicBusAccess] at h ⊢
  cases hptr : getU8RegPtr address.toNat with
  | none =>
      rw [hptr] at h
      obtain rfl := Except.ok.inj h
      refine ⟨_, rfl, ?_⟩
      rw [List.take_take, Nat.min_self]
  | some reg =>
      obtain ⟨u8Ptr, isClaimComplete⟩ := reg
      rw [hptr] at h
      simp only at h ⊢
      split at h
      · cases h
      · next hsize =>
          have hsize' : ¬ 4 * Plic.nrWords < u8Ptr + 4 := by omega
          rw [if_neg instr_ne_write] at h
          rw [if_neg hsize', if_neg instr_ne_write]
          -- a claim does not look at the length
          cases isClaimComplete with
          | false =>
              obtain rfl := Except.ok.inj h
              exact ⟨_, rfl, (take_memoryRead _ _ value _ hlen).symm⟩
          | true =>
              obtain ⟨plic', hclaim, h⟩ := Except.bind_eq_ok.mp h
              obtain rfl := Except.ok.inj h
              exact ⟨_, Except.bind_eq_ok.mpr ⟨plic', hclaim, rfl⟩,
                (take_memoryRead _ _ value _ hlen).symm⟩

/-- An access that the bus answers begins like one of four bytes. -/
theorem socBusAccess_shorter {useSimpleUart : Bool} {soc : RvSoc Devices}
    {r : RvRet × List Byte × RvSoc Devices} (hlen : 4 ≤ len) (hlen' : len ≤ 8)
    (h : socBusAccess useSimpleUart soc privLevel .instr address value len = .ok r) :
    ∃ r', socBusAccess useSimpleUart soc privLevel .instr address (value.take 4) 4 = .ok r' ∧
      r'.2.1.take 4 = r.2.1.take 4 := by
  rw [socBusAccess, rvSocBusAccess] at h ⊢
  cases hdispatch : dispatch (rvSocInitMemAccessCbs w useSimpleUart) address len with
  | none =>
      rw [hdispatch] at h
      cases h
  | some found =>
      obtain ⟨index, entry, offset⟩ := found
      rw [hdispatch] at h
      -- where the sum wraps, the access is past the end of the RAM
      have hnowrap : address.toNat + len < 2 ^ w.bits := by
        by_contra hwrap
        have hwrap' := dispatch_of_wrap useSimpleUart hlen' (Nat.not_lt.mp hwrap)
        have hpast := offset_of_wrap hlen' (Nat.not_lt.mp hwrap)
        rw [hwrap'] at hdispatch
        obtain ⟨rfl, rfl, rfl⟩ := by simpa using hdispatch
        simp only [initMemAccessStruct, busTargetAccess, memoryBusAccess, if_pos hpast,
          Except.error_bind] at h
        cases h
      obtain ⟨hentry, ⟨hlow, hhigh⟩, hoffset⟩ :=
        (dispatch_eq_some_iff useSimpleUart (by omega) hnowrap).mp hdispatch
      have hshort : dispatch (rvSocInitMemAccessCbs w useSimpleUart) address 4 =
          some (index, entry, offset) := by
        rw [dispatch_eq_some_iff useSimpleUart (by decide) (by omega)]
        exact ⟨hentry, ⟨hlow, by omega⟩, hoffset⟩
      rw [hshort]
      simp only [busTargetAccess] at h ⊢
      cases htarget : entry.target with
      | ram | mrom | fromMem =>
          simp only [htarget] at h ⊢
          obtain ⟨a, ha, h⟩ := Except.bind_eq_ok.mp h
          obtain rfl := Except.ok.inj h
          obtain ⟨a', ha', hsame⟩ := memoryBusAccess_shorter hlen ha
          exact ⟨_, Except.bind_eq_ok.mpr ⟨a', ha', rfl⟩, hsame⟩
      | clint =>
          simp only [htarget, deviceAccess] at h ⊢
          obtain ⟨b, hb, h⟩ := Except.bind_eq_ok.mp h
          obtain rfl := Except.ok.inj h
          obtain ⟨a, ha, h⟩ := Except.bind_eq_ok.mp hb
          obtain rfl := Except.ok.inj h
          obtain ⟨a', ha', hsame⟩ := clintBusAccess_shorter hlen ha
          exact ⟨_, Except.bind_eq_ok.mpr ⟨_, Except.bind_eq_ok.mpr ⟨a', ha', rfl⟩, rfl⟩, hsame⟩
      | plic =>
          simp only [htarget, deviceAccess] at h ⊢
          obtain ⟨b, hb, h⟩ := Except.bind_eq_ok.mp h
          obtain rfl := Except.ok.inj h
          obtain ⟨a, ha, h⟩ := Except.bind_eq_ok.mp hb
          obtain rfl := Except.ok.inj h
          obtain ⟨a', ha', hsame⟩ := plicBusAccess_shorter hlen ha
          exact ⟨_, Except.bind_eq_ok.mpr ⟨_, Except.bind_eq_ok.mpr ⟨a', ha', rfl⟩, rfl⟩, hsame⟩
      | uart =>
          -- both UARTs stop on accesses of more than one byte
          have hone : len ≠ 1 := by omega
          simp only [htarget, deviceAccess, simpleUartBusAccess, uartBusAccess, if_pos hone] at h
          cases useSimpleUart <;> cases h

end Shorter

/-! ### Four bytes -/

/-- The fetch succeeds just if the four bytes at the program counter are there to be
executed, and with them as the instruction. -/
def FetchesFourBytes (useSimpleUart : Bool) (s : RvCore w (RvSoc Devices)) : Prop :=
  ∀ word, Fetches useSimpleUart s word ↔ FetchOf useSimpleUart s 4 word

/-- The PMP permits the fetch of `len` bytes, and they lie in a range of the bus and are
answered by what is behind it. -/
def FetchServed (useSimpleUart : Bool) (s : RvCore w (RvSoc Devices)) (phys : BitVec 64)
    (soc : RvSoc Devices) (len : Nat) : Prop :=
  pmpMemCheck s.pmp s.currPrivMode (phys.setWidth w.bits) len .instr = .ok ∧
    SocServes useSimpleUart soc .instr (phys.setWidth w.bits : RvUintXlen w)
      ((instructionBytes s).take len) len

/-- What follows the four bytes, up to the length of a register, makes no difference to
whether the fetch is served. -/
def NextBytesAlike (useSimpleUart : Bool) (s : RvCore w (RvSoc Devices)) : Prop :=
  ∀ phys s₁, FetchTranslates (socBusAccess useSimpleUart) s (some phys) s₁ →
    (FetchServed useSimpleUart s phys s₁.priv w.bytes ↔
      FetchServed useSimpleUart s phys s₁.priv 4)

section Served

variable {useSimpleUart : Bool} {s s₁ : RvCore w (RvSoc Devices)} {phys : BitVec 64} {len : Nat}

theorem four_le_bytes : 4 ≤ w.bytes ∧ w.bytes ≤ 8 := by
  cases w <;> decide

theorem FetchServed.fetchOf (htrans : FetchTranslates (socBusAccess useSimpleUart) s (some phys) s₁)
    (h : FetchServed useSimpleUart s phys s₁.priv len) :
    ∃ word, FetchOf useSimpleUart s len word := by
  obtain ⟨hgrant, hserves⟩ := h
  obtain ⟨⟨ret, bytes, soc⟩, hbus⟩ :=
    (socBusAccess_returns_iff useSimpleUart s₁.priv s.currPrivMode .instr _ _ len).mpr hserves
  have hret : ret = .ok := socBusAccess_neverErr useSimpleUart _ _ _ _ _ _ _ hbus
  rw [hret] at hbus
  exact ⟨_, phys, s₁, bytes, soc, htrans, hgrant, hbus, rfl⟩

theorem FetchOf.served {word : BitVec 32}
    (htrans : FetchTranslates (socBusAccess useSimpleUart) s (some phys) s₁)
    (h : FetchOf useSimpleUart s len word) : FetchServed useSimpleUart s phys s₁.priv len := by
  obtain ⟨phys', s₁', bytes, soc, htrans', hgrant, hbus, -⟩ := h
  obtain ⟨hphys, rfl⟩ := htrans.unique htrans'
  obtain rfl := Option.some.inj hphys
  exact ⟨hgrant, (socBusAccess_returns_iff useSimpleUart _ _ _ _ _ _).mp ⟨_, hbus⟩⟩

/-- A fetch of the bytes of a register and one of four bytes find the same instruction. -/
theorem FetchOf.word_eq {word word' : BitVec 32} (h : FetchOf useSimpleUart s w.bytes word)
    (h' : FetchOf useSimpleUart s 4 word') : word' = word := by
  obtain ⟨phys, s₁, bytes, soc, htrans, -, hbus, rfl⟩ := h
  obtain ⟨phys', s₁', bytes', soc', htrans', -, hbus', rfl⟩ := h'
  obtain ⟨hphys, rfl⟩ := htrans.unique htrans'
  obtain rfl := Option.some.inj hphys
  obtain ⟨hlen, hlen'⟩ := four_le_bytes (w := w)
  obtain ⟨r, hshort, htake⟩ := socBusAccess_shorter hlen hlen' hbus
  rw [List.take_take, Nat.min_eq_left hlen] at hshort
  obtain rfl := Except.ok.inj (hshort.symm.trans hbus')
  rw [leLoad, leLoad, htake]

end Served

/-- The outcome of a fetch is the same in all states in which the four bytes at the
program counter are. -/
def FetchAlone (w : Xlen) (useSimpleUart : Bool) : Prop :=
  ∀ s t : RvCore w (RvSoc Devices),
    (∀ word, FetchOf useSimpleUart s 4 word ↔ FetchOf useSimpleUart t 4 word) →
      ∀ word, Fetches useSimpleUart s word ↔ Fetches useSimpleUart t word

theorem fetchesFourBytes_iff_alike (useSimpleUart : Bool) (s : RvCore w (RvSoc Devices)) :
    FetchesFourBytes useSimpleUart s ↔ NextBytesAlike useSimpleUart s := by
  constructor
  · intro h phys s₁ htrans
    constructor
    · intro hserved
      obtain ⟨word, hword⟩ := hserved.fetchOf htrans
      exact ((h word).mp (fetches_iff.mpr hword)).served htrans
    · intro hserved
      obtain ⟨word, hword⟩ := hserved.fetchOf htrans
      exact (fetches_iff.mp ((h word).mpr hword)).served htrans
  · intro h word
    rw [fetches_iff]
    constructor
    · intro hword
      have hword' := hword
      obtain ⟨phys, s₁, -, -, htrans, -⟩ := hword'
      obtain ⟨word', hfour⟩ := ((h phys s₁ htrans).mp (hword.served htrans)).fetchOf htrans
      rw [← hword.word_eq hfour]
      exact hfour
    · intro hfour
      have hfour' := hfour
      obtain ⟨phys, s₁, -, -, htrans, -⟩ := hfour'
      obtain ⟨word', hword⟩ := ((h phys s₁ htrans).mpr (hfour.served htrans)).fetchOf htrans
      rw [hword.word_eq hfour]
      exact hword

/-! ### Instructions in the RAM -/

theorem fetchOf_ram {useSimpleUart : Bool} {s : RvCore w (RvSoc Devices)} {len : Nat}
    {word : BitVec 32} (hmode : s.currPrivMode = .machine)
    (hgrant : pmpMemCheck s.pmp .machine s.pc len .instr = .ok) (hlen : 0 < len)
    (hram : InRam s.pc len) :
    FetchOf useSimpleUart s len word ↔ word = leLoad 4
      (s.priv.ram.read (ramIndex s.pc) ((instructionBytes s).take len) len) := by
  have htrans : FetchTranslates (socBusAccess useSimpleUart) s (some (s.pc.setWidth 64)) s := by
    rw [FetchTranslates, mmuVirtToPhys, if_pos (.inl hmode)]
    rfl
  have hbits : w.bits ≤ 64 := by
    clear * -
    cases w <;> decide
  have hphys : (s.pc.setWidth 64).setWidth w.bits = s.pc := by
    rw [BitVec.setWidth_setWidth_of_le s.pc hbits, BitVec.setWidth_eq]
  have hbus := rvSocBusAccess_ram_read useSimpleUart (deviceAccess useSimpleUart) s.priv .machine
    ((instructionBytes s).take len) instr_ne_write hlen hram
  constructor
  · rintro ⟨phys, s₁, bytes, soc, htrans', -, hbus', rfl⟩
    obtain ⟨heq, rfl⟩ := htrans.unique htrans'
    obtain rfl := Option.some.inj heq
    rw [hphys, hmode] at hbus'
    obtain ⟨-, hrest⟩ := Prod.mk.inj (Except.ok.inj (hbus.symm.trans hbus'))
    rw [(Prod.mk.inj hrest).1]
  · rintro rfl
    refine ⟨_, s, _, s.priv, htrans, ?_, ?_, rfl⟩
    · rw [hphys, hmode]
      exact hgrant
    · rw [hphys, hmode]
      exact hbus

def inEmptyRam (pc : RvUintXlen .rv64) : RvCore .rv64 (RvSoc Devices) :=
  { rvCoreInit { devices := {} } with pc := pc }

theorem inEmptyRam_four {useSimpleUart : Bool} {pc : RvUintXlen .rv64} (hram : InRam pc 4)
    (word : BitVec 32) : FetchOf useSimpleUart (inEmptyRam pc) 4 word ↔ word = 0 := by
  have hunlocked : (!checkBit (0 : Byte) pmpCfgLBit) = true := by decide
  have hpass : ∀ i ∈ List.finRange 16, pmpEntryCheck (inEmptyRam pc).pmp .machine
      (inEmptyRam pc).pc 4 .instr i = none := fun i _ => if_pos ⟨rfl, hunlocked⟩
  have hgrant : pmpMemCheck (inEmptyRam pc).pmp .machine (inEmptyRam pc).pc 4 .instr = .ok := by
    rw [pmpMemCheck, List.findSome?_eq_none_iff.mpr hpass]
    rfl
  rw [fetchOf_ram rfl hgrant (by decide) hram]
  exact Iff.rfl

/-- The last word of the RAM is not fetched with the four bytes that follow it. -/
theorem not_fetches_last (useSimpleUart : Bool) (word : BitVec 32) :
    ¬ Fetches useSimpleUart (inEmptyRam 0x87FFFFFC) word := by
  rw [fetches_iff]
  intro h
  have htrans : FetchTranslates (socBusAccess useSimpleUart) (inEmptyRam 0x87FFFFFC)
      (some 0x87FFFFFC) (inEmptyRam 0x87FFFFFC) := rfl
  obtain ⟨-, index, entry, offset, hdispatch, -⟩ := h.served htrans
  have hnone : dispatch (rvSocInitMemAccessCbs .rv64 useSimpleUart) 0x87FFFFFC 8 = none := by
    cases useSimpleUart <;> decide
  cases hnone.symm.trans hdispatch

/-! ### The two builds -/

def FourByteBuild (w : Xlen) (useSimpleUart : Bool) : Prop :=
  (∀ s : RvCore w (RvSoc Devices), FetchesFourBytes useSimpleUart s) ∧ FetchAlone w useSimpleUart

theorem fourByteBuild_rv32 (useSimpleUart : Bool) : FourByteBuild .rv32 useSimpleUart :=
  ⟨fun _ _ => fetches_iff, fun _ _ hsame word => fetches_iff.trans ((hsame word).trans
    fetches_iff.symm)⟩

theorem not_fourByteBuild_rv64 (useSimpleUart : Bool) : ¬ FourByteBuild .rv64 useSimpleUart := by
  rintro ⟨hfour, -⟩
  refine not_fetches_last useSimpleUart 0 ((hfour (inEmptyRam 0x87FFFFFC) 0).mpr ?_)
  exact (inEmptyRam_four (by decide) 0).mpr rfl

/-- The 32-bit build fetches four bytes and the other one does not. In both, a fetch is one
of four bytes just where the bytes that are fetched with them make no difference. -/
theorem fetch_four_bytes_iff (w : Xlen) (useSimpleUart : Bool) :
    (FourByteBuild w useSimpleUart ↔ w = .rv32) ∧
      ∀ s : RvCore w (RvSoc Devices),
        FetchesFourBytes useSimpleUart s ↔ NextBytesAlike useSimpleUart s := by
  refine ⟨?_, fetchesFourBytes_iff_alike useSimpleUart⟩
  cases w with
  | rv32 => exact iff_of_true (fourByteBuild_rv32 useSimpleUart) rfl
  | rv64 => exact iff_of_false (not_fourByteBuild_rv64 useSimpleUart) (fun h => nomatch h)

/-- The instruction in the last word of the RAM is not executed on the 64-bit build. -/
theorem last_word_not_fetched :
    ¬ ∀ (w : Xlen) (useSimpleUart : Bool) (s : RvCore w (RvSoc Devices)),
      s.pc.toNat % 4 = 0 → FetchesFourBytes useSimpleUart s := by
  intro h
  have hfour := h .rv64 false (inEmptyRam 0x87FFFFFC) (by decide) 0
  exact not_fetches_last false 0 (hfour.mpr ((inEmptyRam_four (by decide) 0).mpr rfl))

end RiscvEm
