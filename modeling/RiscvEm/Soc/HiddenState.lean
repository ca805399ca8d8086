import RiscvEm.Core.TwoRuns
import RiscvEm.Soc.System

/-!
Hidden state in the system: the architectural state determines the architectural state
after one instruction, unless the fetch is answered by a device that has no register at
the address.
-/

namespace RiscvEm

variable {w : Xlen}

/-! ### Accesses that store nothing -/

/-- The CLINT or the PLIC takes the access, at an offset without a register. -/
def NoRegister (useSimpleUart : Bool) (address : RvUintXlen w) (len : Nat) : Prop :=
  match dispatch (rvSocInitMemAccessCbs w useSimpleUart) address len with
  | some (_, entry, tmpAddr) =>
      (entry.target = .clint ∧ getU8ArrIndexOffs tmpAddr.toNat = none) ∨
        (entry.target = .plic ∧ getU8RegPtr tmpAddr.toNat = none)
  | none => False

section Reads

variable {privLevel : PrivilegeLevel} {accessType : BusAccessType} {address : RvUintXlen w}
  {value value' : List Byte} {len : Nat}

theorem Memory.read_overwrites (mem : Memory) (a : Nat) (hvalue : value.length = len)
    (hvalue' : value'.length = len) : mem.read a value len = mem.read a value' len := by
  rw [Memory.read, Memory.read, List.drop_eq_nil_of_le (Nat.le_of_eq hvalue),
    List.drop_eq_nil_of_le (Nat.le_of_eq hvalue')]

theorem memoryBusAccess_overwrites (size : Nat) (mem : Memory) (hread : accessType ≠ .write)
    (hvalue : value.length = len) (hvalue' : value'.length = len) :
    memoryBusAccess size mem privLevel accessType address value len =
      memoryBusAccess size mem privLevel accessType address value' len := by
  rw [memoryBusAccess, memoryBusAccess, if_neg hread, if_neg hread,
    Memory.read_overwrites mem _ hvalue hvalue']

theorem clintBusAccess_overwrites (clint : Clint) (hread : accessType ≠ .write)
    (hreg : getU8ArrIndexOffs address.toNat ≠ none) (hvalue : value.length = len)
    (hvalue' : value'.length = len) :
    clintBusAccess clint privLevel accessType address value len =
      clintBusAccess clint privLevel accessType address value' len := by
  obtain ⟨arrIndexOffs, hoffs⟩ := Option.ne_none_iff_exists'.mp hreg
  simp only [clintBusAccess, hoffs, if_neg hread]
  rw [Memory.read_overwrites _ _ hvalue hvalue']

theorem plicBusAccess_overwrites (plic : Plic) (hread : accessType ≠ .write)
    (hreg : getU8RegPtr address.toNat ≠ none) (hvalue : value.length = len)
    (hvalue' : value'.length = len) :
    plicBusAccess plic privLevel accessType address value len =
      plicBusAccess plic privLevel accessType address value' len := by
  obtain ⟨⟨u8Ptr, isClaimComplete⟩, hptr⟩ := Option.ne_none_iff_exists'.mp hreg
  simp only [plicBusAccess, hptr, if_neg hread]
  rw [Memory.read_overwrites _ _ hvalue hvalue']

/-- A device with a register at the address fills the buffer, or stops the emulator. -/
theorem socBusAccess_overwrites {useSimpleUart : Bool} (soc : RvSoc Devices)
    (hreg : ¬ NoRegister useSimpleUart address len) (hread : accessType ≠ .write)
    (hlen : len ≠ 1) (hvalue : value.length = len) (hvalue' : value'.length = len) :
    socBusAccess useSimpleUart soc privLevel accessType address value len =
      socBusAccess useSimpleUart soc privLevel accessType address value' len := by
  rw [NoRegister] at hreg
  simp only [socBusAccess, rvSocBusAccess]
  cases hdispatch : dispatch (rvSocInitMemAccessCbs w useSimpleUart) address len with
  | none => rfl
  | some found =>
      obtain ⟨index, entry, offset⟩ := found
      simp only [hdispatch, not_or, not_and] at hreg
      obtain ⟨hclint, hplic⟩ := hreg
      simp only [busTargetAccess]
      cases htarget : entry.target with
      | ram | mrom | fromMem =>
          simp only
          rw [memoryBusAccess_overwrites _ _ hread hvalue hvalue']
      | clint =>
          simp only [deviceAccess]
          rw [clintBusAccess_overwrites _ hread (hclint htarget) hvalue hvalue']
      | plic =>
          simp only [deviceAccess]
          rw [plicBusAccess_overwrites _ hread (hplic htarget) hvalue hvalue']
      | uart =>
          -- both UARTs stop on accesses of more than one byte
          simp only [deviceAccess, simpleUartBusAccess, uartBusAccess, if_pos hlen]

/-- Without a register the access succeeds and the buffer keeps what it held. -/
theorem socBusAccess_noRegister {useSimpleUart : Bool} (soc : RvSoc Devices)
    (hreg : NoRegister useSimpleUart address len) :
    socBusAccess useSimpleUart soc privLevel accessType address value len =
      .ok (.ok, value, soc) := by
  rw [NoRegister] at hreg
  simp only [socBusAccess, rvSocBusAccess]
  cases hdispatch : dispatch (rvSocInitMemAccessCbs w useSimpleUart) address len with
  | none => simp only [hdispatch] at hreg
  | some found =>
      obtain ⟨index, entry, offset⟩ := found
      simp only [hdispatch] at hreg
      rcases hreg with ⟨htarget, hoffs⟩ | ⟨htarget, hptr⟩
      · simp only [busTargetAccess, htarget, deviceAccess, clintBusAccess, hoffs,
          Except.ok_bind, Except.pure_eq_ok]
      · simp only [busTargetAccess, htarget, deviceAccess, plicBusAccess, hptr,
          Except.ok_bind, Except.pure_eq_ok]

end Reads

/-! ### Fetches that store nothing -/

/-- The fetch is translated and granted, and no device stores an instruction. -/
def StaleFetch (useSimpleUart : Bool) (s : RvCore w (RvSoc Devices)) : Prop :=
  ∃ phys s', FetchTranslates (socBusAccess useSimpleUart) s (some phys) s' ∧
    pmpMemCheck s.pmp s.currPrivMode (phys.setWidth w.bits) w.bytes .instr = .ok ∧
      NoRegister useSimpleUart (phys.setWidth w.bits : RvUintXlen w) w.bytes

variable {useSimpleUart : Bool}

theorem FetchTranslates.pmp {σ : Type} {busAccess : BusAccessFunc w σ} {s s' : RvCore w σ}
    {physAddr : Option (BitVec 64)} (h : FetchTranslates busAccess s physAddr s') :
    s'.pmp = s.pmp := by
  rw [mmuVirtToPhys_frame h]

theorem StaleFetch.arch {s t : RvCore w (RvSoc Devices)} (harch : s.arch = t.arch)
    (h : StaleFetch useSimpleUart s) : StaleFetch useSimpleUart t := by
  obtain ⟨phys, s', htrans, hpmp, hreg⟩ := h
  obtain ⟨t', htrans', -⟩ := htrans.arch harch
  obtain ⟨-, hmode, -, hsame, -⟩ := eq_fields_of_arch harch
  rw [hmode, hsame] at hpmp
  exact ⟨phys, t', htrans', hpmp, hreg⟩

theorem fetchStores_of_not_stale {s : RvCore w (RvSoc Devices)}
    (h : ¬ StaleFetch useSimpleUart s) : FetchStores (socBusAccess useSimpleUart) s := by
  intro phys s' htrans hpmp value value' hvalue hvalue'
  rw [htrans.pmp] at hpmp
  have hreg : ¬ NoRegister useSimpleUart (phys.setWidth w.bits : RvUintXlen w) w.bytes :=
    fun hreg => h ⟨phys, s', htrans, hpmp, hreg⟩
  have hlen : w.bytes ≠ 1 := by cases w <;> decide
  exact socBusAccess_overwrites s'.priv hreg (by decide) hlen hvalue hvalue'

/-- The bytes that a fetch finds are the instruction that was there. -/
theorem leLoad_instructionBytes {σ : Type} (s : RvCore w σ) :
    leLoad 4 (instructionBytes s) = s.instruction := by
  have htake : (instructionBytes s).take 4 = leBytes 4 s.instruction.toNat :=
    List.take_left' (length_leBytes 4 _)
  rw [leLoad, htake]
  exact ofNat_leNat_word (k := 4) s.instruction

/-- The instruction that is decoded is the one that was there. -/
theorem StaleFetch.fetch {s : RvCore w (RvSoc Devices)} (h : StaleFetch useSimpleUart s) :
    ∃ f, rvCoreFetch (socBusAccess useSimpleUart) s = .ok (.ok, f) ∧
      f.instruction = s.instruction := by
  obtain ⟨phys, s', htrans, hpmp, hreg⟩ := h
  rw [← htrans.pmp] at hpmp
  have haccess : mmuCheckedBusAccess (socBusAccess useSimpleUart) s .instr s.pc
      (instructionBytes s) w.bytes = .ok (.ok, instructionBytes s, s') := by
    have hover : checkMprvOverride s .instr = s.currPrivMode := rfl
    have hgrant : ¬ pmpMemCheck s'.pmp s.currPrivMode (phys.setWidth w.bits) w.bytes .instr =
        .err := by
      rw [hpmp]
      decide
    rw [FetchTranslates] at htrans
    simp only [mmuCheckedBusAccess, hover, htrans, Except.ok_bind, pmpCheckedBusAccess,
      if_neg hgrant, socBusAccess_noRegister s'.priv hreg, Except.pure_eq_ok]
  refine ⟨storeInstruction s' (instructionBytes s), rvCoreFetch_eq_ok.mpr ⟨_, _, haccess, rfl⟩, ?_⟩
  rw [storeInstruction_instruction, leLoad_instructionBytes]

/-! ### A stale instruction -/

theorem rvCoreDecode_lui {σ : Type} {s : RvCore w σ}
    (hop : (s.instruction &&& 0x7F).toNat = 0x37) :
    rvCoreDecode s = .ok { s.resetDecode with
      rd := regField s 7, immediate := signexBit 19 ((field s 12 20).setWidth w.bits)
      executeCb := some .lui } := by
  rw [rvCoreDecode_eq, hop]
  cases w <;> rfl

/-- `lui x1, 1` and `lui x1, 2`. -/
def luiX1 : Bool → BitVec 32
  | false => 0x000010B7
  | true => 0x000020B7

def RvCore.afterLui {σ : Type} (s : RvCore w σ) (second : Bool) : RvCore w σ :=
  { s with instruction := luiX1 second }

theorem StaleFetch.run_lui {s : RvCore w (RvSoc Devices)} (h : StaleFetch useSimpleUart s)
    (second : Bool) :
    ∃ s', rvCoreRun (socBusAccess useSimpleUart) (s.afterLui second) = .ok s' ∧
      s'.x 1 = if second then 0x2000 else 0x1000 := by
  have harch : s.arch = (s.afterLui second).atFetch.arch := rfl
  have hstale : StaleFetch useSimpleUart (s.afterLui second).atFetch := h.arch harch
  obtain ⟨f, hfetch, hinstr⟩ := hstale.fetch
  have hword : f.instruction = luiX1 second := hinstr
  have hop : (f.instruction &&& 0x7F).toNat = 0x37 := by
    rw [hword]
    cases second <;> rfl
  have hdecode := rvCoreDecode_lui hop
  have hexec : Executes (socBusAccess useSimpleUart) (s.afterLui second) .lui _ :=
    ⟨f, hfetch, hdecode, rfl⟩
  refine ⟨_, hexec.run rfl, ?_⟩
  simp only [field, regField, hword]
  cases second <;> cases w <;> rfl

/-! ### The two runs -/

/-- One instruction from the architectural state of `s` ends in one architectural state,
whatever the scratch fields hold. -/
def NoHiddenState (useSimpleUart : Bool) (s : RvCore w (RvSoc Devices)) : Prop :=
  ∀ s₁ s₂ s₁' s₂' : RvCore w (RvSoc Devices), s₁.arch = s.arch → s₂.arch = s.arch →
    rvCoreRun (socBusAccess useSimpleUart) s₁ = .ok s₁' →
      rvCoreRun (socBusAccess useSimpleUart) s₂ = .ok s₂' → s₁'.arch = s₂'.arch

theorem noHiddenState_of_not_stale {s : RvCore w (RvSoc Devices)}
    (h : ¬ StaleFetch useSimpleUart s) : NoHiddenState useSimpleUart s := by
  intro s₁ s₂ s₁' s₂' h₁ h₂ hrun₁ hrun₂
  have harch : s₁.atFetch.arch = s.arch := h₁
  have hstale : ¬ StaleFetch useSimpleUart s₁.atFetch := fun hs => h (hs.arch harch)
  exact rvCoreRun_arch (h₁.trans h₂.symm) (fetchStores_of_not_stale hstale) hrun₁ hrun₂

theorem not_noHiddenState_of_stale {s : RvCore w (RvSoc Devices)}
    (h : StaleFetch useSimpleUart s) : ¬ NoHiddenState useSimpleUart s := by
  intro hno
  obtain ⟨s₁, hrun₁, hx₁⟩ := h.run_lui false
  obtain ⟨s₂, hrun₂, hx₂⟩ := h.run_lui true
  have harch := hno (s.afterLui false) (s.afterLui true) s₁ s₂ rfl rfl hrun₁ hrun₂
  have hx : s₁.x 1 = s₂.x 1 := congrFun (congrArg RvCore.x harch : s₁.arch.x = s₂.arch.x) 1
  rw [hx₁, hx₂] at hx
  cases w <;> exact absurd hx (by decide)

/-- The scratch fields matter exactly where a fetch is answered without a register. -/
theorem noHiddenState_iff (useSimpleUart : Bool) (s : RvCore w (RvSoc Devices)) :
    NoHiddenState useSimpleUart s ↔ ¬ StaleFetch useSimpleUart s :=
  ⟨fun hno hstale => not_noHiddenState_of_stale hstale hno, noHiddenState_of_not_stale⟩

def clintGap : RvCore .rv32 (RvSoc Devices) :=
  { rvCoreInit { devices := {} } with pc := 0x2001000 }

theorem staleFetch_clintGap : StaleFetch false clintGap := by
  have hdispatch : dispatch (rvSocInitMemAccessCbs .rv32 false) 0x2001000 4 =
      some (1, initMemAccessStruct .clint clintBaseAddr clintSizeBytes, 0x1000) := by decide
  refine ⟨0x2001000, clintGap, rfl, by decide, ?_⟩
  show NoRegister false (0x2001000 : RvUintXlen .rv32) 4
  rw [NoRegister, hdispatch]
  exact .inl ⟨rfl, by decide⟩

/-- The two instructions set the register to two values. -/
theorem clintGap_stale :
    (∃ s₁ s₂, rvCoreRun (socBusAccess false) (clintGap.afterLui false) = .ok s₁ ∧
      rvCoreRun (socBusAccess false) (clintGap.afterLui true) = .ok s₂ ∧
        s₁.x 1 = 0x1000 ∧ s₂.x 1 = 0x2000) ∧
      ¬ NoHiddenState false clintGap := by
  obtain ⟨s₁, hrun₁, hx₁⟩ := staleFetch_clintGap.run_lui false
  obtain ⟨s₂, hrun₂, hx₂⟩ := staleFetch_clintGap.run_lui true
  exact ⟨⟨s₁, s₂, hrun₁, hrun₂, hx₁, hx₂⟩, not_noHiddenState_of_stale staleFetch_clintGap⟩

end RiscvEm
