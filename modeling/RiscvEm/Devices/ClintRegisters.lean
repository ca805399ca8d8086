import RiscvEm.Devices.Touches
import RiscvEm.Lib.Region
import RiscvEm.Lib.Simulation

/-!
Accesses to the registers of the CLINT: when they stay inside the register that the offset
belongs to, and the window of the device as a memory that keeps what was last written.
-/

namespace RiscvEm

open Logged

variable {w : Xlen}

/-! ### Registers -/

inductive ClintReg | msip | mtimecmp | mtime
  deriving DecidableEq

namespace ClintReg

def index : ClintReg → Nat
  | msip => 0
  | mtimecmp => 1
  | mtime => 2

def offset : ClintReg → Nat
  | msip => clintMsipOffs
  | mtimecmp => clintMtimecmpOffs
  | mtime => clintMtimeOffs

def window (reg : ClintReg) : Region := ⟨reg.offset, clintRegSizeBytes⟩

def bytes (reg : ClintReg) : Region := ⟨reg.index * clintRegSizeBytes, clintRegSizeBytes⟩

/-- The low bits of an offset are its place in the window. -/
theorem mod_eq {reg : ClintReg} {address : Nat} (h : reg.window.Contains address 1) :
    address % 8 = address - reg.offset := by
  obtain ⟨hlow, hhigh⟩ := h
  have hsize : clintRegSizeBytes = 8 := rfl
  have hmod : reg.offset % 8 = 0 := by cases reg <;> rfl
  simp only [window] at hlow hhigh
  omega

def Covers (address : Nat) : Prop := ∃ reg : ClintReg, reg.window.Contains address 1

instance instDecidableCovers (address : Nat) : Decidable (Covers address) :=
  decidable_of_iff (msip.window.Contains address 1 ∨ mtimecmp.window.Contains address 1 ∨
      mtime.window.Contains address 1) (by
    constructor
    · rintro (h | h | h)
      · exact ⟨msip, h⟩
      · exact ⟨mtimecmp, h⟩
      · exact ⟨mtime, h⟩
    · rintro ⟨reg, h⟩
      cases reg with
      | msip => exact .inl h
      | mtimecmp => exact .inr (.inl h)
      | mtime => exact .inr (.inr h))

end ClintReg

/-- The array index is that of the register whose window the offset belongs to. -/
theorem getU8ArrIndexOffs_of_window {reg : ClintReg} {address : Nat}
    (h : reg.window.Contains address 1) :
    getU8ArrIndexOffs address = some (reg.index * clintRegSizeBytes) := by
  obtain ⟨hlow, hhigh⟩ := h
  rw [getU8ArrIndexOffs]
  simp only [offsWithin, Bool.and_eq_true, decide_eq_true_eq]
  cases reg with
  | msip => exact if_pos hhigh
  | mtimecmp =>
      simp only [ClintReg.window, ClintReg.offset, clintMtimecmpOffs, clintRegSizeBytes]
        at hlow hhigh
      rw [if_neg (by rw [clintMsipOffs, clintRegSizeBytes]; omega), if_pos ⟨hlow, hhigh⟩]
      rfl
  | mtime =>
      simp only [ClintReg.window, ClintReg.offset, clintMtimeOffs, clintRegSizeBytes] at hlow hhigh
      rw [if_neg (by rw [clintMsipOffs, clintRegSizeBytes]; omega),
        if_neg (by rw [clintMtimecmpOffs, clintRegSizeBytes]; omega), if_pos ⟨hlow, hhigh⟩]
      rfl

theorem getU8ArrIndexOffs_cases (address : Nat) :
    (getU8ArrIndexOffs address = none ∧ ¬ ClintReg.Covers address) ∨
      ∃ reg : ClintReg, reg.window.Contains address 1 ∧
        getU8ArrIndexOffs address = some (reg.index * clintRegSizeBytes) := by
  by_cases hin : ClintReg.Covers address
  · obtain ⟨reg, hreg⟩ := hin
    exact .inr ⟨reg, hreg, getU8ArrIndexOffs_of_window hreg⟩
  · refine .inl ⟨?_, hin⟩
    have hmsip : ¬ address < clintMsipOffs + clintRegSizeBytes :=
      fun h => hin ⟨.msip, Nat.zero_le _, h⟩
    have hmtimecmp : ¬ (clintMtimecmpOffs ≤ address ∧
        address < clintMtimecmpOffs + clintRegSizeBytes) := fun h => hin ⟨.mtimecmp, h⟩
    have hmtime : ¬ (clintMtimeOffs ≤ address ∧ address < clintMtimeOffs + clintRegSizeBytes) :=
      fun h => hin ⟨.mtime, h⟩
    simp only [getU8ArrIndexOffs, offsWithin, Bool.and_eq_true, decide_eq_true_eq]
    rw [if_neg hmsip, if_neg hmtimecmp, if_neg hmtime]

theorem ClintReg.eq_of_index {reg reg' : ClintReg} (h : reg.index = reg'.index) : reg = reg' := by
  cases reg <;> cases reg' <;> first | rfl | cases h

theorem ClintReg.eq_of_window {reg reg' : ClintReg} {address : Nat}
    (h : reg.window.Contains address 1) (h' : reg'.window.Contains address 1) : reg = reg' := by
  have hindex : reg.index * clintRegSizeBytes = reg'.index * clintRegSizeBytes :=
    Option.some.inj ((getU8ArrIndexOffs_of_window h).symm.trans (getU8ArrIndexOffs_of_window h'))
  exact eq_of_index (Nat.eq_of_mul_eq_mul_right (by decide) hindex)

/-! ### Confinement -/

/-- The access touches only bytes of the register whose window the offset belongs to,
none of them past the end of the array. -/
structure ClintConfined (access : Logged Touch Halt (RvRet × List Byte × Clint))
    (address : Nat) : Prop where
  registers : ∀ start n, .loadReg start n ∈ access.log ∨ .storeReg start n ∈ access.log →
    ∃ reg : ClintReg, reg.window.Contains address 1 ∧ reg.bytes.Contains start n
  below : ∀ start n, .loadReg start n ∈ access.log ∨ .storeReg start n ∈ access.log →
    start + n ≤ 24

def Clint.Fits (address len : Nat) : Prop :=
  ∀ reg : ClintReg, reg.window.Contains address 1 → address % 8 + len ≤ clintRegSizeBytes

section Confined

variable {clint : Clint} {privLevel : PrivilegeLevel} {accessType : BusAccessType}
  {address : RvUintXlen w} {value : List Byte} {len : Nat} {reg : ClintReg}

/-- An access at a register copies from or to the bytes of the array from there on. -/
theorem mem_log_clint (hreg : reg.window.Contains address.toNat 1) {start n : Nat} :
    (.loadReg start n ∈ (clintBusTouching clint privLevel accessType address value len).log ∨
      .storeReg start n ∈ (clintBusTouching clint privLevel accessType address value len).log) ↔
        start = address.toNat % 8 + reg.index * clintRegSizeBytes ∧ n = len := by
  simp only [clintBusTouching, getU8ArrIndexOffs_of_window hreg]
  split
  · simp
  · simp

theorem clintConfined_iff :
    ClintConfined (clintBusTouching clint privLevel accessType address value len) address.toNat ↔
      Clint.Fits address.toNat len := by
  rcases getU8ArrIndexOffs_cases address.toNat with ⟨hnone, hout⟩ | ⟨reg, hreg, -⟩
  · refine iff_of_true ?_ fun reg hreg => absurd ⟨reg, hreg⟩ hout
    constructor
    · intro start n hmem
      simp [clintBusTouching, hnone] at hmem
    · intro start n hmem
      simp [clintBusTouching, hnone] at hmem
  · constructor
    · intro h _ _
      obtain ⟨reg', hreg', -, hend⟩ := h.registers _ len ((mem_log_clint hreg).mpr ⟨rfl, rfl⟩)
      obtain rfl := ClintReg.eq_of_window hreg hreg'
      simp only [ClintReg.bytes] at hend
      omega
    · intro h
      have hfit := h reg hreg
      have hmax : reg.index * clintRegSizeBytes + clintRegSizeBytes ≤ 24 := by
        cases reg <;> decide
      constructor
      · intro start n hmem
        obtain ⟨rfl, rfl⟩ := (mem_log_clint hreg).mp hmem
        exact ⟨reg, hreg, Nat.le_add_left _ _, by simp only [ClintReg.bytes]; omega⟩
      · intro start n hmem
        obtain ⟨rfl, rfl⟩ := (mem_log_clint hreg).mp hmem
        omega

end Confined

/-! ### The window as a memory -/

def Clint.view (clint : Clint) : Memory := fun a =>
  match getU8ArrIndexOffs a with
  | some arrIndexOffs => wordBytes clint.regs (a % 8 + arrIndexOffs)
  | none => 0

theorem Clint.view_of_window {clint : Clint} {reg : ClintReg} {a : Nat}
    (h : reg.window.Contains a 1) :
    clint.view a = wordBytes clint.regs (a - reg.offset + reg.index * clintRegSizeBytes) := by
  rw [view, getU8ArrIndexOffs_of_window h, ← ClintReg.mod_eq h]

theorem Clint.regs_ofRegs (regs : Nat → BitVec (8 * 8)) {i : Nat} (hi : i < 3) :
    (ofRegs regs).regs i = regs i := by
  match i, hi with
  | 0, _ => rfl
  | 1, _ => rfl
  | 2, _ => rfl

/-- The bytes of the registers after all of them have been stored. -/
theorem Clint.wordBytes_ofRegs (mem : Memory) {a : Nat} (ha : a < 24) :
    wordBytes (ofRegs (bytesWords 8 mem)).regs a = mem a := by
  have hword : (ofRegs (bytesWords 8 mem)).regs (a / 8) = bytesWords 8 mem (a / 8) :=
    regs_ofRegs _ (by omega)
  calc wordBytes (ofRegs (bytesWords 8 mem)).regs a
      = wordBytes (bytesWords 8 mem) a := by rw [wordBytes, wordBytes, hword]
    _ = mem a := by rw [wordBytes_bytesWords (by decide)]

/-- What goes on at the device: accesses, and the increments of the timer. -/
inductive ClintOp (w : Xlen)
  | access (privLevel : PrivilegeLevel) (accessType : BusAccessType) (address : RvUintXlen w)
      (value : List Byte) (len : Nat)
  | update

namespace ClintOp

def exec : ClintOp w → Clint → Except Halt (List Byte × Clint)
  | access privLevel accessType address value len, clint => do
      let (_, value, clint) ← clintBusAccess clint privLevel accessType address value len
      return (value, clint)
  | update, clint => .ok ([], (clintUpdate clint).2.2)

/-- The operation on a memory: a read returns what was written last, and the increment is
one of the eight bytes of the timer. -/
def spec : ClintOp w → Memory → List Byte × Memory
  | access _ accessType address value len, mem =>
      if ClintReg.Covers address.toNat then
        if accessType = .write then (value, mem.write address.toNat value len)
        else (mem.read address.toNat value len, mem)
      else (value, mem)
  | update, mem =>
      ([], mem.write clintMtimeOffs (leBytes 8 (leNat (mem.read clintMtimeOffs [] 8) + 1)) 8)

def Fits : ClintOp w → Prop
  | access _ _ address _ len => Clint.Fits address.toNat len
  | update => True

end ClintOp

section Refinement

variable {clint : Clint} {reg : ClintReg} {address len : Nat} {value : List Byte}

theorem ClintReg.index_le (reg : ClintReg) : reg.index * clintRegSizeBytes ≤ 16 := by
  cases reg <;> decide

/-- All bytes of an access that fits belong to the register. -/
theorem ClintReg.window_of_fits (hreg : reg.window.Contains address 1)
    (hfit : Clint.Fits address len) {a : Nat} (hlow : address ≤ a) (hhigh : a < address + len) :
    reg.window.Contains a 1 := by
  have hend := hfit reg hreg
  rw [mod_eq hreg] at hend
  obtain ⟨hstart, -⟩ := hreg
  simp only [window] at hstart
  exact ⟨Nat.le_trans hstart hlow, by simp only [window]; omega⟩

theorem Clint.view_write (clint : Clint) (value : List Byte)
    (hreg : reg.window.Contains address 1) (hfit : Fits address len) :
    (ofRegs (writeWords clint.regs (address % 8 + reg.index * clintRegSizeBytes) value len)).view =
      clint.view.write address value len := by
  funext a
  rw [Memory.write]
  rcases getU8ArrIndexOffs_cases a with ⟨hnone, hout⟩ | ⟨reg', hreg', -⟩
  · rw [if_neg fun h => hout ⟨reg, ClintReg.window_of_fits hreg hfit h.1 h.2⟩, view, view, hnone]
  · have hsize : clintRegSizeBytes = 8 := rfl
    have hend := hfit reg hreg
    have hindex := reg'.index_le
    have hmod := Nat.mod_lt a (show 0 < 8 by decide)
    rw [ClintReg.mod_eq hreg'] at hmod
    rw [ClintReg.mod_eq hreg] at hend ⊢
    have hlow : reg.offset ≤ address := hreg.1
    have hlow' : reg'.offset ≤ a := hreg'.1
    rw [view_of_window hreg', view_of_window hreg', writeWords, wordBytes_ofRegs _ (by omega),
      Memory.write]
    by_cases hsame : reg' = reg
    · subst hsame
      by_cases hin : address ≤ a ∧ a < address + len
      · rw [if_pos hin, if_pos (by omega)]
        congr 1
        omega
      · rw [if_neg hin, if_neg (by omega)]
    · have hne : reg'.index ≠ reg.index := mt ClintReg.eq_of_index hsame
      have hmul (r : ClintReg) : r.index * clintRegSizeBytes = 8 * r.index := Nat.mul_comm _ _
      rw [hmul, hmul] at *
      rw [if_neg (by omega), if_neg fun h => hsame
        (ClintReg.eq_of_window hreg' (ClintReg.window_of_fits hreg hfit h.1 h.2))]

theorem Clint.read_view (hreg : reg.window.Contains address 1) (hfit : Fits address len) :
    (wordBytes clint.regs).read (address % 8 + reg.index * clintRegSizeBytes) value len =
      clint.view.read address value len := by
  rw [Memory.read, Memory.read]
  congr 1
  refine List.map_congr_left fun i hi => ?_
  have hlow : reg.offset ≤ address := hreg.1
  rw [view_of_window (ClintReg.window_of_fits hreg hfit (Nat.le_add_right _ i)
    (Nat.add_lt_add_left (List.mem_range.mp hi) _)), ClintReg.mod_eq hreg]
  congr 1
  omega

theorem Clint.fits_offset (reg : ClintReg) (hlen : len ≤ 8) : Fits reg.offset len := by
  intro _ _
  have hmod : reg.offset % 8 = 0 := by cases reg <;> rfl
  rw [hmod, Nat.zero_add]
  exact hlen

theorem ClintReg.window_offset (reg : ClintReg) : reg.window.Contains reg.offset 1 :=
  ⟨Nat.le_refl _, Nat.add_le_add_left (show 1 ≤ clintRegSizeBytes by decide) _⟩

theorem ClintReg.start_eq (reg : ClintReg) :
    reg.offset % 8 + reg.index * clintRegSizeBytes = 8 * reg.index := by
  cases reg <;> rfl

theorem Clint.read_view_reg (clint : Clint) (reg : ClintReg) :
    clint.view.read reg.offset [] 8 = leBytes 8 (clint.regs reg.index).toNat := by
  rw [← read_view reg.window_offset (fits_offset reg (Nat.le_refl 8)), reg.start_eq,
    read_aligned (by decide) clint.regs reg.index [], List.drop_nil, List.append_nil]

theorem Clint.eq_of_view {clint clint' : Clint} (h : clint.view = clint'.view) :
    clint = clint' := by
  have hreg (reg : ClintReg) : clint.regs reg.index = clint'.regs reg.index := by
    rw [← ofNat_leNat_word (clint.regs reg.index), ← clint.read_view_reg, h,
      clint'.read_view_reg, ofNat_leNat_word]
  obtain ⟨msip, mtimecmp, mtime⟩ := clint
  obtain ⟨msip', mtimecmp', mtime'⟩ := clint'
  obtain rfl : msip = msip' := hreg .msip
  obtain rfl : mtimecmp = mtimecmp' := hreg .mtimecmp
  obtain rfl : mtime = mtime' := hreg .mtime
  rfl

theorem Clint.view_update (clint : Clint) :
    (clintUpdate clint).2.2.view = clint.view.write clintMtimeOffs
      (leBytes 8 (leNat (clint.view.read clintMtimeOffs [] 8) + 1)) 8 := by
  have hread : clint.view.read clintMtimeOffs [] 8 = leBytes 8 clint.mtime.toNat :=
    clint.read_view_reg .mtime
  have hvalue : leLoad 8 (leBytes 8 (leNat (leBytes 8 clint.mtime.toNat) + 1)) =
      clint.mtime + 1 := by
    have hnat : leNat (leBytes 8 clint.mtime.toNat) = clint.mtime.toNat := by
      rw [leNat_leBytes]
      exact Nat.mod_eq_of_lt clint.mtime.isLt
    rw [leLoad_leBytes, hnat, BitVec.ofNat_add, BitVec.ofNat_toNat, BitVec.setWidth_eq]
    rfl
  have hwrite := clint.view_write (leBytes 8 (leNat (leBytes 8 clint.mtime.toNat) + 1))
    ClintReg.mtime.window_offset (fits_offset .mtime (Nat.le_refl 8))
  rw [ClintReg.start_eq, writeWords_aligned (by decide) clint.regs _ (length_leBytes 8 _),
    hvalue] at hwrite
  rw [hread]
  exact hwrite

theorem clint_refines : Simulation.Refines (ClintOp.exec (w := w)) ClintOp.spec ClintOp.Fits
    fun clint mem => mem = clint.view := by
  rintro op clint mem hfit rfl
  cases op with
  | update =>
      refine ⟨_, rfl, ?_⟩
      exact (clint.view_update).symm
  | access privLevel accessType address value len =>
      have hmax : ∀ reg : ClintReg, reg.window.Contains address.toNat 1 →
          ¬ 3 * clintRegSizeBytes <
            address.toNat % 8 + reg.index * clintRegSizeBytes + len := by
        intro reg hreg
        have hend := hfit reg hreg
        have hindex := reg.index_le
        have hsize : clintRegSizeBytes = 8 := rfl
        omega
      rcases getU8ArrIndexOffs_cases address.toNat with ⟨hnone, hout⟩ | ⟨reg, hreg, hsome⟩
      · simp only [ClintOp.exec, ClintOp.spec, clintBusAccess, hnone, if_neg hout]
        exact ⟨clint, rfl, rfl⟩
      · simp only [ClintOp.exec, ClintOp.spec, clintBusAccess, hsome, if_neg (hmax reg hreg),
          if_pos (show ClintReg.Covers address.toNat from ⟨reg, hreg⟩)]
        by_cases hwrite : accessType = .write
        · simp only [if_pos hwrite]
          exact ⟨_, rfl, (clint.view_write value hreg hfit).symm⟩
        · simp only [if_neg hwrite]
          rw [Clint.read_view hreg hfit]
          exact ⟨clint, rfl, rfl⟩

end Refinement

/-! ### Halves -/

section Halves

variable {low high : List Byte} {n : Nat}

theorem Memory.write_append (mem : Memory) (a m : Nat) (hlow : low.length = n) :
    (mem.write a low n).write (a + n) high m = mem.write a (low ++ high) (n + m) := by
  funext b
  simp only [Memory.write]
  subst hlow
  by_cases hhigh : a + low.length ≤ b ∧ b < a + low.length + m
  · rw [if_pos hhigh, if_pos (by omega), List.getD_eq_getElem?_getD, List.getD_eq_getElem?_getD,
      List.getElem?_append_right (by omega), Nat.sub_add_eq]
  · rw [if_neg hhigh]
    by_cases hin : a ≤ b ∧ b < a + low.length
    · rw [if_pos hin, if_pos (by omega), List.getD_eq_getElem?_getD, List.getD_eq_getElem?_getD,
        List.getElem?_append_left (by omega)]
    · rw [if_neg hin, if_neg (by omega)]

/-- Writes that do not overlap can be made in either order. -/
theorem Memory.write_comm (mem : Memory) (a m : Nat) :
    (mem.write (a + n) high m).write a low n = (mem.write a low n).write (a + n) high m := by
  funext b
  simp only [Memory.write]
  by_cases hhigh : a + n ≤ b ∧ b < a + n + m
  · rw [if_neg (show ¬ (a ≤ b ∧ b < a + n) by omega), if_pos hhigh, if_pos hhigh]
  · rw [if_neg hhigh, if_neg hhigh]

end Halves

/-- Two writes of four bytes to the halves of a register, in either order, against one of
eight bytes. -/
def Clint.HalvesAgree (w : Xlen) (clint : Clint) (reg : ClintReg) (privLevel : PrivilegeLevel)
    (low high : List Byte) : Prop :=
  let lowHalf : ClintOp w := .access privLevel .write (BitVec.ofNat w.bits reg.offset) low 4
  let highHalf : ClintOp w :=
    .access privLevel .write (BitVec.ofNat w.bits (reg.offset + 4)) high 4
  let whole : ClintOp w :=
    .access privLevel .write (BitVec.ofNat w.bits reg.offset) (low ++ high) 8
  ∃ clint', Simulation.calls ClintOp.exec [whole] clint = .ok ([low ++ high], clint') ∧
    Simulation.calls ClintOp.exec [lowHalf, highHalf] clint = .ok ([low, high], clint') ∧
      Simulation.calls ClintOp.exec [highHalf, lowHalf] clint = .ok ([high, low], clint')

/-- The results and the window after operations that all fit are those of the memory. -/
theorem Clint.calls_of_fits (clint : Clint) {ops : List (ClintOp w)}
    (hops : ∀ op ∈ ops, op.Fits) :
    ∃ clint', Simulation.calls ClintOp.exec ops clint =
        .ok ((Simulation.specCalls ClintOp.spec ops clint.view).1, clint') ∧
      (Simulation.specCalls ClintOp.spec ops clint.view).2 = clint'.view :=
  clint_refines.calls hops rfl

theorem Clint.halvesAgree (clint : Clint) (reg : ClintReg) (privLevel : PrivilegeLevel)
    {low high : List Byte} (hlow : low.length = 4) :
    clint.HalvesAgree w reg privLevel low high := by
  have hlt : reg.offset + 4 < 2 ^ 32 := by cases reg <;> decide
  have haddr : (BitVec.ofNat w.bits reg.offset).toNat = reg.offset := w.toNat_ofNat (by omega)
  have haddr' : (BitVec.ofNat w.bits (reg.offset + 4)).toNat = reg.offset + 4 :=
    w.toNat_ofNat hlt
  have hhigh : reg.window.Contains (reg.offset + 4) 1 := by
    constructor
    · exact Nat.le_add_right _ _
    · exact Nat.add_le_add_left (show 5 ≤ clintRegSizeBytes by decide) _
  have hfit (v : List Byte) {n : Nat} (hn : n ≤ 8) : (ClintOp.access privLevel .write
      (BitVec.ofNat w.bits reg.offset) v n).Fits := by
    rw [ClintOp.Fits, haddr]
    exact fits_offset reg hn
  have hfit' : (ClintOp.access privLevel .write (BitVec.ofNat w.bits (reg.offset + 4))
      high 4).Fits := by
    rw [ClintOp.Fits, haddr']
    intro _ _
    cases reg <;> decide
  -- the writes on the memory
  have hspec (v : List Byte) (n : Nat) (mem : Memory) : ClintOp.spec (.access privLevel .write
      (BitVec.ofNat w.bits reg.offset) v n) mem = (v, mem.write reg.offset v n) := by
    simp only [ClintOp.spec, haddr, if_pos (show ClintReg.Covers reg.offset from
      ⟨reg, reg.window_offset⟩), if_true]
  have hspec' (mem : Memory) : ClintOp.spec (.access privLevel .write
      (BitVec.ofNat w.bits (reg.offset + 4)) high 4) mem =
        (high, mem.write (reg.offset + 4) high 4) := by
    simp only [ClintOp.spec, haddr', if_pos (show ClintReg.Covers (reg.offset + 4) from
      ⟨reg, hhigh⟩), if_true]
  obtain ⟨clint₁, hwhole, hview₁⟩ := clint.calls_of_fits
    (List.forall_mem_singleton.mpr (hfit (low ++ high) (Nat.le_refl 8)))
  obtain ⟨clint₂, hupward, hview₂⟩ := clint.calls_of_fits (List.forall_mem_cons.mpr
    ⟨hfit low (show 4 ≤ 8 by decide), List.forall_mem_singleton.mpr hfit'⟩)
  obtain ⟨clint₃, hdownward, hview₃⟩ := clint.calls_of_fits (List.forall_mem_cons.mpr
    ⟨hfit', List.forall_mem_singleton.mpr (hfit low (show 4 ≤ 8 by decide))⟩)
  simp only [Simulation.specCalls, hspec, hspec'] at hwhole hupward hdownward
  simp only [Simulation.specCalls, hspec, hspec'] at hview₁ hview₂ hview₃
  rw [Memory.write_append _ _ _ hlow] at hview₂
  rw [Memory.write_comm, Memory.write_append _ _ _ hlow] at hview₃
  obtain rfl := eq_of_view (hview₂.symm.trans hview₁)
  obtain rfl := eq_of_view (hview₃.symm.trans hview₂)
  exact ⟨_, hwhole, hupward, hdownward⟩

/-! ### The contract of the registers -/

/-- Exactly the accesses that end with their register are confined to it; in every run of
such accesses and of updates, reads return what was written last; and a register can be
written in halves. -/
theorem clint_registers (w : Xlen) :
    (∀ (clint : Clint) (privLevel : PrivilegeLevel) (accessType : BusAccessType)
      (address : RvUintXlen w) (value : List Byte) (len : Nat),
        ClintConfined (clintBusTouching clint privLevel accessType address value len)
          address.toNat ↔ Clint.Fits address.toNat len) ∧
    (∀ (clint : Clint) (ops : List (ClintOp w)), (∀ op ∈ ops, op.Fits) →
      ∃ clint', Simulation.calls ClintOp.exec ops clint =
        .ok ((Simulation.specCalls ClintOp.spec ops clint.view).1, clint')) ∧
    ∀ (clint : Clint) (reg : ClintReg) (privLevel : PrivilegeLevel) (low high : List Byte),
      low.length = 4 → high.length = 4 → clint.HalvesAgree w reg privLevel low high := by
  refine ⟨fun clint privLevel accessType address value len => clintConfined_iff, ?_, ?_⟩
  · intro clint ops hops
    obtain ⟨clint', hcalls, -⟩ := clint.calls_of_fits hops
    exact ⟨clint', hcalls⟩
  · intro clint reg privLevel low high hlow _
    exact clint.halvesAgree reg privLevel hlow

/-- Eight bytes from the middle of the first register on also store the second one. -/
theorem middle_write_not_confined :
    ¬ ∀ (clint : Clint) (privLevel : PrivilegeLevel) (accessType : BusAccessType)
      (address : RvUintXlen .rv64) (value : List Byte) (len : Nat), len ∈ [1, 2, 4, 8] →
        address.toNat + len ≤ clintSizeBytes → value.length = len →
          ClintConfined (clintBusTouching clint privLevel accessType address value len)
            address.toNat := by
  intro h
  have hconfined := h {} .machine .write 4 (List.replicate 8 0) 8 (by decide) (by decide) rfl
  have hstore : .storeReg 4 8 ∈ (clintBusTouching {} .machine .write (4 : RvUintXlen .rv64)
      (List.replicate 8 0) 8).log := by
    decide
  obtain ⟨reg, hreg, -, hend⟩ := hconfined.registers 4 8 (.inr hstore)
  revert hreg hend
  cases reg <;> decide

end RiscvEm
