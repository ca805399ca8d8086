import RiscvEm.Core.Csr

/-!
The instruction handlers of `core.c`. A handler maps the state after decoding to
the state before the program counter is advanced.

Handlers that differ in an operator, a width or an extension only are instances
of one shape, which stands before them.
-/

namespace RiscvEm

variable {w : Xlen} {σ : Type}

abbrev Handler (w : Xlen) (σ : Type) := RvCore w σ → Except Stop (RvCore w σ)

/-- A handler that stores `value` in `rd`. -/
def setRd (value : RvCore w σ → RvUintXlen w) : Handler w σ :=
  fun s => .ok (s.setX s.rd (value s))

/-- `SIGNEX_BIT_11(rv_core->immediate)`. -/
def signedImmediate (s : RvCore w σ) : RvUintXlen w := signexBit 11 s.immediate

def addrMisaligned (addr : RvUintXlen w) : Bool := addr &&& 0x3 != 0

def instrNop : Handler w σ := fun s => .ok s

/-! ### Upper immediates, jumps and branches -/

def instrLui : Handler w σ := setRd fun s => s.immediate <<< 12
def instrAuipc : Handler w σ := setRd fun s => s.pc + s.immediate <<< 12

def instrJal : Handler w σ := fun s =>
  let s := s.setX s.rd (s.pc + 4)
  if addrMisaligned s.jumpOffset then .error (.halt (.die .addrMisaligned))
  else .ok { s with nextPc := s.pc + s.jumpOffset }

def instrJalr : Handler w σ := fun s =>
  let currPc := s.pc + 4
  let s := { s with jumpOffset := signedImmediate s }
  let s := { s with nextPc := clearBit (s.x s.rs1 + s.jumpOffset) 0 }
  if addrMisaligned s.nextPc then .error (.halt (.die .addrMisaligned))
  else .ok (s.setX s.rd currPc)

def branch (taken : RvUintXlen w → RvUintXlen w → Bool) : Handler w σ := fun s =>
  if taken (s.x s.rs1) (s.x s.rs2) then
    if addrMisaligned s.jumpOffset then .error (.halt (.die .addrMisaligned))
    else .ok { s with nextPc := s.pc + s.jumpOffset }
  else .ok s

def instrBeq : Handler w σ := branch fun a b => a == b
def instrBne : Handler w σ := branch fun a b => a != b
def instrBlt : Handler w σ := branch fun a b => a.slt b
def instrBge : Handler w σ := branch fun a b => b.sle a
def instrBltu : Handler w σ := branch fun a b => a.ult b
def instrBgeu : Handler w σ := branch fun a b => b.ule a

/-! ### Integer instructions -/

def ofCond (c : Bool) : RvUintXlen w := if c then 1 else 0

/-- The shift count `rv_core->immediate & SHIFT_OP_MASK`. -/
def shiftImmediate (s : RvCore w σ) : Nat :=
  (s.immediate &&& BitVec.ofNat w.bits (shiftOpMask w)).toNat

/-- The shift count `rv_core->x[rv_core->rs2] & SHIFT_OP_MASK`. -/
def shiftRs2 (s : RvCore w σ) : Nat :=
  (s.x s.rs2 &&& BitVec.ofNat w.bits (shiftOpMask w)).toNat

def extendImmediate (value : RvCore w σ → RvUintXlen w) : Handler w σ := fun s =>
  setRd value { s with immediate := signedImmediate s }

def instrAddi : Handler w σ := setRd fun s => signedImmediate s + s.x s.rs1
def instrSlti : Handler w σ := setRd fun s => ofCond ((s.x s.rs1).slt (signedImmediate s))
def instrSltiu : Handler w σ := setRd fun s => ofCond ((s.x s.rs1).ult (signedImmediate s))
def instrXori : Handler w σ := extendImmediate fun s =>
  if s.immediate = BitVec.allOnes w.bits then s.x s.rs1 ^^^ BitVec.allOnes w.bits
  else s.x s.rs1 ^^^ s.immediate
def instrOri : Handler w σ := extendImmediate fun s => s.x s.rs1 ||| s.immediate
def instrAndi : Handler w σ := extendImmediate fun s => s.x s.rs1 &&& s.immediate
def instrSlli : Handler w σ := setRd fun s => s.x s.rs1 <<< shiftImmediate s
def instrSrai : Handler w σ := setRd fun s => (s.x s.rs1).sshiftRight (shiftImmediate s)
def instrSrli : Handler w σ := setRd fun s => s.x s.rs1 >>> shiftImmediate s
def instrAdd : Handler w σ := setRd fun s => s.x s.rs1 + s.x s.rs2
def instrSub : Handler w σ := setRd fun s => s.x s.rs1 - s.x s.rs2
def instrSll : Handler w σ := setRd fun s => s.x s.rs1 <<< shiftRs2 s
def instrSlt : Handler w σ := setRd fun s => ofCond ((s.x s.rs1).slt (s.x s.rs2))
def instrSltu : Handler w σ := setRd fun s =>
  if s.rs1 = 0 then ofCond (s.x s.rs2 != 0) else ofCond ((s.x s.rs1).ult (s.x s.rs2))
def instrXor : Handler w σ := setRd fun s => s.x s.rs1 ^^^ s.x s.rs2
def instrSrl : Handler w σ := setRd fun s => s.x s.rs1 >>> shiftRs2 s
def instrOr : Handler w σ := setRd fun s => s.x s.rs1 ||| s.x s.rs2
def instrAnd : Handler w σ := setRd fun s => s.x s.rs1 &&& s.x s.rs2
def instrSra : Handler w σ := setRd fun s => (s.x s.rs1).sshiftRight (shiftRs2 s)

/-! ### Word instructions of the 64-bit build -/

def setRdWord (value : RvCore w σ → BitVec 32) : Handler w σ :=
  setRd fun s => (value s).signExtend w.bits

def rs1Word (s : RvCore w σ) : BitVec 32 := (s.x s.rs1).setWidth 32

def rs2Word (s : RvCore w σ) : BitVec 32 := (s.x s.rs2).setWidth 32

/-- The shift count `rv_core->immediate & 0x1F`. -/
def shiftImmediateWord (s : RvCore w σ) : Nat := (s.immediate &&& 0x1F#w.bits).toNat

/-- The shift count `rv_core->x[rv_core->rs2] & 0x1F`. -/
def shiftRs2Word (s : RvCore w σ) : Nat := (s.x s.rs2 &&& 0x1F#w.bits).toNat

def instrSraiw : Handler w σ := setRdWord fun s => (rs1Word s).sshiftRight (shiftImmediateWord s)
def instrAddiw : Handler w σ := setRdWord fun s => rs1Word s + (signedImmediate s).setWidth 32
def instrSlliw : Handler w σ := setRdWord fun s =>
  (s.x s.rs1 <<< shiftImmediateWord s &&& 0xFFFFFFFF#w.bits).setWidth 32
def instrSrliw : Handler w σ := setRdWord fun s => rs1Word s >>> shiftImmediateWord s
def instrSrlw : Handler w σ := setRdWord fun s => rs1Word s >>> shiftRs2Word s
def instrSraw : Handler w σ := setRdWord fun s => (rs1Word s).sshiftRight (shiftRs2Word s)
def instrSllw : Handler w σ := setRdWord fun s => rs1Word s <<< shiftRs2Word s
def instrAddw : Handler w σ := setRdWord fun s => rs1Word s + rs2Word s
def instrSubw : Handler w σ := setRdWord fun s => rs1Word s - rs2Word s

/-! ### Multiplication and division -/

/-- Division with the two special cases that C leaves undefined. -/
def divBy {n : Nat} (intMin rs rs2 : BitVec n) : BitVec n :=
  if rs2 = 0#n then BitVec.allOnes n
  else if rs = intMin ∧ rs2 = BitVec.allOnes n then intMin
  else rs.sdiv rs2

/-- The remainder with the two special cases that C leaves undefined. -/
def remBy {n : Nat} (intMin rs rs2 : BitVec n) : BitVec n :=
  if rs2 = 0#n then rs
  else if rs = intMin ∧ rs2 = BitVec.allOnes n then 0#n
  else rs.srem rs2

def divuBy {n : Nat} (rs rs2 : BitVec n) : BitVec n :=
  if rs2 = 0#n then BitVec.allOnes n else rs / rs2

def remuBy {n : Nat} (rs rs2 : BitVec n) : BitVec n := if rs2 = 0#n then rs else rs % rs2

def instrDiv : Handler w σ := setRd fun s => divBy (xlenIntMin w) (s.x s.rs1) (s.x s.rs2)
def instrDivu : Handler w σ := setRd fun s => divuBy (s.x s.rs1) (s.x s.rs2)
def instrRem : Handler w σ := setRd fun s => remBy (xlenIntMin w) (s.x s.rs1) (s.x s.rs2)
def instrRemu : Handler w σ := setRd fun s => remuBy (s.x s.rs1) (s.x s.rs2)
def instrMul : Handler w σ := setRd fun s => s.x s.rs1 * s.x s.rs2
def instrMulh : Handler w σ := setRd fun s => (mul w (s.x s.rs1) (s.x s.rs2)).1
def instrMulhu : Handler w σ := setRd fun s => (umul w (s.x s.rs1) (s.x s.rs2)).1
def instrMulhsu : Handler w σ := setRd fun s => (mulhsu w (s.x s.rs1) (s.x s.rs2)).1

def int32Min : BitVec 32 := 0x80000000

def instrMulw : Handler w σ := setRdWord fun s => rs1Word s * rs2Word s
def instrDivw : Handler w σ := setRdWord fun s => divBy int32Min (rs1Word s) (rs2Word s)
def instrDivuw : Handler w σ := setRdWord fun s => divuBy (rs1Word s) (rs2Word s)
def instrRemw : Handler w σ := setRdWord fun s => remBy int32Min (rs1Word s) (rs2Word s)
def instrRemuw : Handler w σ := setRdWord fun s => remuBy (rs1Word s) (rs2Word s)

/-! ### Environment calls and returns -/

def instrEcall : Handler w σ := fun s =>
  .ok (prepareSyncTrap s (BitVec.ofInt w.bits (trapCauseUserEcall + s.currPrivMode.toInt)) 0)

/-- Not implemented in the source. -/
def instrEbreak : Handler w σ := fun s => .ok s

/-- The shape of `MRET` and `SRET`. The routine that restores the status bits is
selected by the current mode; only the source of the return address depends on
the instruction. -/
def xret (level : TrapLevel) : Handler w σ := fun s => do
  let (restored, trap) ← trapRestoreIrqSettings s.trap s.currPrivMode
  let s := { s with trap := trap, currPrivMode := restored }
  return { s with nextPc := s.trap.reg level .epc }

def instrMret : Handler w σ := xret .m
def instrSret : Handler w σ := xret .s

/-- Not implemented in the source: it loops for ever. -/
def instrUret : Handler w σ := fun _ => .error (.halt .hang)

/-! ### Loads and stores -/

section Memory

variable (busAccess : BusAccessFunc w σ)

def effectiveAddress (s : RvCore w σ) : RvUintXlen w := s.x s.rs1 + signedImmediate s

/-- A load of `len` bytes, extended by `ext`. The register is written only if the
access succeeds. -/
def load (len : Nat) (ext : BitVec (8 * len) → RvUintXlen w) : Handler w σ := fun s => do
  let (ret, bytes, s) ←
    mmuCheckedBusAccess busAccess s .read (effectiveAddress s) (leBytes len 0) len
  if ret = .ok then return s.setX s.rd (ext (leLoad len bytes)) else return s

/-- A store of the low `len` bytes of `x[rs2]`. -/
def store (len : Nat) : Handler w σ := fun s => do
  let (_, _, s) ←
    mmuCheckedBusAccess busAccess s .write (effectiveAddress s) (leBytes len (s.x s.rs2).toNat) len
  return s

def instrLb : Handler w σ := load busAccess 1 fun v => v.signExtend w.bits
def instrLh : Handler w σ := load busAccess 2 fun v => v.signExtend w.bits
def instrLw : Handler w σ := load busAccess 4 fun v => v.signExtend w.bits
def instrLbu : Handler w σ := load busAccess 1 fun v => v.setWidth w.bits
def instrLhu : Handler w σ := load busAccess 2 fun v => v.setWidth w.bits
def instrLwu : Handler w σ := load busAccess 4 fun v => v.setWidth w.bits
def instrLd : Handler w σ := load busAccess 8 fun v => v.setWidth w.bits

def instrSb : Handler w σ := store busAccess 1
def instrSh : Handler w σ := store busAccess 2
def instrSw : Handler w σ := store busAccess 4
def instrSd : Handler w σ := store busAccess 8

/-! ### Atomic instructions -/

/-- `LR`: the reservation is taken before the load. -/
def loadReserved (load : Handler w σ) : Handler w σ := fun s =>
  load { s with lrAddress := s.x s.rs1, lrValid := true }

/-- `SC`: the result of the store is not looked at. -/
def storeConditional (store : Handler w σ) : Handler w σ := fun s => do
  let s ← if s.lrValid ∧ s.lrAddress = s.x s.rs1 then do
      let s ← store s
      pure (s.setX s.rd 0)
    else pure (s.setX s.rd 1)
  return { s with lrValid := false, lrAddress := 0 }

/-- An atomic operation on `len` bytes: a load into `rd`, then a store of the
combination of `x[rd]` and the old `x[rs2]`, whether or not the load succeeded. -/
def amo (len : Nat) (load : Handler w σ) (op : RvUintXlen w → RvUintXlen w → Nat) :
    Handler w σ := fun s => do
  let address := s.x s.rs1
  let rs2Val := s.x s.rs2
  let s ← load s
  let rdVal := s.x s.rd
  let (_, _, s) ← mmuCheckedBusAccess busAccess s .write address (leBytes len (op rdVal rs2Val)) len
  return s

/-- An operation of the word instructions on the low words of the operands. -/
def amoW (op : BitVec 32 → BitVec 32 → BitVec 32) : Handler w σ :=
  amo busAccess 4 (instrLw busAccess) fun rdVal rs2Val =>
    (op (rdVal.setWidth 32) (rs2Val.setWidth 32)).toNat

def amoD (op : RvUintXlen w → RvUintXlen w → RvUintXlen w) : Handler w σ :=
  amo busAccess 8 (instrLd busAccess) fun rdVal rs2Val => (op rdVal rs2Val).toNat

def instrLrW : Handler w σ := loadReserved (instrLw busAccess)
def instrScW : Handler w σ := storeConditional (instrSw busAccess)
def instrAmoswapW : Handler w σ := amoW busAccess fun _ b => b
def instrAmoaddW : Handler w σ := amoW busAccess fun a b => a + b
def instrAmoxorW : Handler w σ := amoW busAccess fun a b => a ^^^ b
def instrAmoandW : Handler w σ := amoW busAccess fun a b => a &&& b
def instrAmoorW : Handler w σ := amoW busAccess fun a b => a ||| b
def instrAmominW : Handler w σ := amoW busAccess fun a b => if a.slt b then a else b
def instrAmomaxW : Handler w σ := amoW busAccess fun a b => if b.slt a then a else b
def instrAmominuW : Handler w σ := amoW busAccess fun a b => if a.ult b then a else b
def instrAmomaxuW : Handler w σ := amoW busAccess fun a b => if b.ult a then a else b

def instrLrD : Handler w σ := loadReserved (instrLd busAccess)
def instrScD : Handler w σ := storeConditional (instrSd busAccess)
def instrAmoswapD : Handler w σ := amoD busAccess fun _ b => b
def instrAmoaddD : Handler w σ := amoD busAccess fun a b => a + b
def instrAmoxorD : Handler w σ := amoD busAccess fun a b => a ^^^ b
def instrAmoandD : Handler w σ := amoD busAccess fun a b => a &&& b
def instrAmoorD : Handler w σ := amoD busAccess fun a b => a ||| b
def instrAmominD : Handler w σ := amoD busAccess fun a b => if a.slt b then a else b
def instrAmomaxD : Handler w σ := amoD busAccess fun a b => if b.slt a then a else b
def instrAmominuD : Handler w σ := amoD busAccess fun a b => if a.ult b then a else b
def instrAmomaxuD : Handler w σ := amoD busAccess fun a b => if b.ult a then a else b

def ExecutionCb.handler : ExecutionCb → Handler w σ
  | .nop => instrNop
  | .lui => instrLui
  | .auipc => instrAuipc
  | .jal => instrJal
  | .jalr => instrJalr
  | .beq => instrBeq
  | .bne => instrBne
  | .blt => instrBlt
  | .bge => instrBge
  | .bltu => instrBltu
  | .bgeu => instrBgeu
  | .addi => instrAddi
  | .slti => instrSlti
  | .sltiu => instrSltiu
  | .xori => instrXori
  | .ori => instrOri
  | .andi => instrAndi
  | .slli => instrSlli
  | .srai => instrSrai
  | .srli => instrSrli
  | .add => instrAdd
  | .sub => instrSub
  | .sll => instrSll
  | .slt => instrSlt
  | .sltu => instrSltu
  | .xor => instrXor
  | .srl => instrSrl
  | .or => instrOr
  | .and => instrAnd
  | .sra => instrSra
  | .lb => instrLb busAccess
  | .lh => instrLh busAccess
  | .lw => instrLw busAccess
  | .lbu => instrLbu busAccess
  | .lhu => instrLhu busAccess
  | .sb => instrSb busAccess
  | .sh => instrSh busAccess
  | .sw => instrSw busAccess
  | .lwu => instrLwu busAccess
  | .ld => instrLd busAccess
  | .sd => instrSd busAccess
  | .sraiw => instrSraiw
  | .addiw => instrAddiw
  | .slliw => instrSlliw
  | .srliw => instrSrliw
  | .srlw => instrSrlw
  | .sraw => instrSraw
  | .sllw => instrSllw
  | .addw => instrAddw
  | .subw => instrSubw
  | .csrrw => instrCsrrw
  | .csrrs => instrCsrrs
  | .csrrc => instrCsrrc
  | .csrrwi => instrCsrrwi
  | .csrrsi => instrCsrrsi
  | .csrrci => instrCsrrci
  | .ecall => instrEcall
  | .ebreak => instrEbreak
  | .mret => instrMret
  | .sret => instrSret
  | .uret => instrUret
  | .lrW => instrLrW busAccess
  | .scW => instrScW busAccess
  | .amoswapW => instrAmoswapW busAccess
  | .amoaddW => instrAmoaddW busAccess
  | .amoxorW => instrAmoxorW busAccess
  | .amoandW => instrAmoandW busAccess
  | .amoorW => instrAmoorW busAccess
  | .amominW => instrAmominW busAccess
  | .amomaxW => instrAmomaxW busAccess
  | .amominuW => instrAmominuW busAccess
  | .amomaxuW => instrAmomaxuW busAccess
  | .lrD => instrLrD busAccess
  | .scD => instrScD busAccess
  | .amoswapD => instrAmoswapD busAccess
  | .amoaddD => instrAmoaddD busAccess
  | .amoxorD => instrAmoxorD busAccess
  | .amoandD => instrAmoandD busAccess
  | .amoorD => instrAmoorD busAccess
  | .amominD => instrAmominD busAccess
  | .amomaxD => instrAmomaxD busAccess
  | .amominuD => instrAmominuD busAccess
  | .amomaxuD => instrAmomaxuD busAccess
  | .div => instrDiv
  | .divu => instrDivu
  | .rem => instrRem
  | .remu => instrRemu
  | .mul => instrMul
  | .mulh => instrMulh
  | .mulhu => instrMulhu
  | .mulhsu => instrMulhsu
  | .mulw => instrMulw
  | .divw => instrDivw
  | .divuw => instrDivuw
  | .remw => instrRemw
  | .remuw => instrRemuw

end Memory

end RiscvEm
