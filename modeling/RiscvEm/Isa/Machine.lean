import RiscvEm.Core.Integer
import RiscvEm.Core.Transfer
import RiscvEm.Core.WideProducts
import RiscvEm.Core.WordInstr
import RiscvEm.Soc.Atomic

/-!
The unprivileged instruction set as a machine: what a program sees of a hart, and what each
instruction does to it. Nothing here is taken from the emulator but the names of the
instructions.

Control and status registers, environment calls, breakpoints and returns from traps are not
part of it, nor is an access that the memory does not grant, an access to an address without
a byte, or a jump to an address that is not a multiple of four.
-/

namespace RiscvEm

variable {w : Xlen}

/-! ### States -/

def storeBytes (mem : Nat → Option Byte) (a len value : Nat) : Nat → Option Byte :=
  fun b => if a ≤ b ∧ b < a + len then some (.ofNat 8 (value / 256 ^ (b - a))) else mem b

/-- Which accesses a memory grants: their kind, their address and their length. -/
def AccessRights := BusAccessType → Nat → Nat → Prop

structure IsaState (w : Xlen) where
  pc : RvUintXlen w
  aligned : pc.toNat % 4 = 0
  x : RegIndex → RvUintXlen w
  zero : x 0 = 0
  mem : Nat → Option Byte
  reservation : Option (RvUintXlen w)

namespace IsaState

variable (m : IsaState w)

/-- The register file after a write. The zero register keeps its value. -/
def setX (rd : RegIndex) (v : RvUintXlen w) : IsaState w :=
  { m with
    x := Function.update (Function.update m.x rd v) 0 0
    zero := Function.update_self _ _ _ }

theorem aligned_add_four {pc : RvUintXlen w} (h : pc.toNat % 4 = 0) :
    (pc + 4).toNat % 4 = 0 := by
  have hfour : (4 : RvUintXlen w).toNat = 4 := w.toNat_ofNat (by decide)
  rw [BitVec.toNat_add, hfour, Nat.mod_mod_of_dvd _ four_dvd_pow]
  omega

def next : IsaState w := { m with pc := m.pc + 4, aligned := aligned_add_four m.aligned }

def goto (target : RvUintXlen w) (h : target.toNat % 4 = 0) : IsaState w :=
  { m with pc := target, aligned := h }

def Present (a len : Nat) : Prop := ∀ i < len, (m.mem (a + i)).isSome = true

instance decidablePresent (a len : Nat) : Decidable (m.Present a len) :=
  inferInstanceAs (Decidable (∀ i < len, (m.mem (a + i)).isSome = true))

def word (len a : Nat) : BitVec (8 * len) :=
  .ofNat (8 * len) (leNat ((List.range len).map fun i => (m.mem (a + i)).getD 0))

def store (a len value : Nat) : IsaState w := { m with mem := storeBytes m.mem a len value }

def reserve (r : Option (RvUintXlen w)) : IsaState w := { m with reservation := r }

end IsaState

/-! ### Values -/

def isaWord (cb : ExecutionCb) (o : Operands) (x : RegIndex → RvUintXlen w) :
    Option (BitVec 32) :=
  match wordInstructions.lookup cb, o with
  | some cb32, .i _ rs1 imm => isaImmediate (w := .rv32) ((x rs1).setWidth 32) imm cb32
  | some cb32, .shift5 _ rs1 shamt => isaShift (w := .rv32) ((x rs1).setWidth 32) shamt.toNat cb32
  | some cb32, .r _ rs1 rs2 =>
      isaRegister (w := .rv32) ((x rs1).setWidth 32) ((x rs2).setWidth 32) cb32
  | _, _ => none

def isaHigh (cb : ExecutionCb) (o : Operands) (x : RegIndex → RvUintXlen w) :
    Option (RvUintXlen w) :=
  match cb, o with
  | .mulh, .r _ rs1 rs2 => some (.ofInt w.bits ((x rs1).toInt * (x rs2).toInt / 2 ^ w.bits))
  | .mulhu, .r _ rs1 rs2 => some (.ofNat w.bits ((x rs1).toNat * (x rs2).toNat / 2 ^ w.bits))
  | .mulhsu, .r _ rs1 rs2 => some (.ofInt w.bits ((x rs1).toInt * (x rs2).toNat / 2 ^ w.bits))
  | _, _ => none

def ExecutionCb.loadExt {k : Nat} (v : BitVec k) : ExecutionCb → RvUintXlen w
  | .lbu | .lhu | .lwu => v.setWidth w.bits
  | _ => v.signExtend w.bits

/-! ### Steps -/

inductive IsaExec (grants : AccessRights) (m : IsaState w) :
    ExecutionCb → Operands → IsaState w → Prop
  | value {cb : ExecutionCb} {o : Operands} {v : RvUintXlen w}
      (h : isaValue cb o m.pc m.x = some v) : IsaExec grants m cb o (m.setX o.rd v).next
  | word {cb : ExecutionCb} {o : Operands} {v : BitVec 32} (h : isaWord cb o m.x = some v) :
      IsaExec grants m cb o (m.setX o.rd (v.signExtend w.bits)).next
  | high {cb : ExecutionCb} {o : Operands} {v : RvUintXlen w} (h : isaHigh cb o m.x = some v) :
      IsaExec grants m cb o (m.setX o.rd v).next
  | jal {rd : BitVec 5} {half : BitVec 20}
      (h : (m.pc + (half ++ 0#1).signExtend w.bits).toNat % 4 = 0) :
      IsaExec grants m .jal (.j rd half) ((m.setX rd (m.pc + 4)).goto _ h)
  | jalr {rd rs1 : BitVec 5} {imm : BitVec 12}
      (h : ((m.x rs1 + imm.signExtend w.bits) &&& ~~~1#w.bits).toNat % 4 = 0) :
      IsaExec grants m .jalr (.i rd rs1 imm) ((m.setX rd (m.pc + 4)).goto _ h)
  | branch {cb : ExecutionCb} {rs1 rs2 : BitVec 5} {half : BitVec 12}
      (htaken : cb.branchTaken (m.x rs1) (m.x rs2) = some true)
      (h : (m.pc + (half ++ 0#1).signExtend w.bits).toNat % 4 = 0) :
      IsaExec grants m cb (.b rs1 rs2 half) (m.goto _ h)
  | noBranch {cb : ExecutionCb} {rs1 rs2 : BitVec 5} {half : BitVec 12}
      (htaken : cb.branchTaken (m.x rs1) (m.x rs2) = some false) :
      IsaExec grants m cb (.b rs1 rs2 half) m.next
  | load {cb : ExecutionCb} {rd rs1 : BitVec 5} {imm : BitVec 12} (hcb : cb.kind = .load)
      (h : m.Present (m.x rs1 + imm.signExtend w.bits).toNat cb.accessLen)
      (hread : grants .read (m.x rs1 + imm.signExtend w.bits).toNat cb.accessLen) :
      IsaExec grants m cb (.i rd rs1 imm) (m.setX rd
        (cb.loadExt (m.word cb.accessLen (m.x rs1 + imm.signExtend w.bits).toNat))).next
  | store {cb : ExecutionCb} {rs1 rs2 : BitVec 5} {imm : BitVec 12} (hcb : cb.kind = .store)
      (h : m.Present (m.x rs1 + imm.signExtend w.bits).toNat cb.accessLen)
      (hwrite : grants .write (m.x rs1 + imm.signExtend w.bits).toNat cb.accessLen) :
      IsaExec grants m cb (.s rs1 rs2 imm)
        (m.store (m.x rs1 + imm.signExtend w.bits).toNat cb.accessLen (m.x rs2).toNat).next
  | loadReserved {cb : ExecutionCb} {rd rs1 rs2 : BitVec 5} (hcb : cb.kind = .loadReserved)
      (h : m.Present (m.x rs1).toNat cb.accessLen)
      (hread : grants .read (m.x rs1).toNat cb.accessLen) :
      IsaExec grants m cb (.r rd rs1 rs2) ((m.setX rd
        ((m.word cb.accessLen (m.x rs1).toNat).signExtend w.bits)).reserve (some (m.x rs1))).next
  | storeConditional {cb : ExecutionCb} {rd rs1 rs2 : BitVec 5}
      (hcb : cb.kind = .storeConditional) (hreserved : m.reservation = some (m.x rs1))
      (h : m.Present (m.x rs1).toNat cb.accessLen)
      (hwrite : grants .write (m.x rs1).toNat cb.accessLen) :
      IsaExec grants m cb (.r rd rs1 rs2)
        (((m.store (m.x rs1).toNat cb.accessLen (m.x rs2).toNat).setX rd 0).reserve none).next
  | noStore {cb : ExecutionCb} {rd rs1 rs2 : BitVec 5} (hcb : cb.kind = .storeConditional)
      (hreserved : m.reservation ≠ some (m.x rs1)) :
      IsaExec grants m cb (.r rd rs1 rs2) ((m.setX rd 1).reserve none).next
  | amo {cb : ExecutionCb} {rd rs1 rs2 : BitVec 5} (hcb : cb.kind = .amo)
      (h : m.Present (m.x rs1).toNat cb.accessLen)
      (hread : grants .read (m.x rs1).toNat cb.accessLen)
      (hwrite : grants .write (m.x rs1).toNat cb.accessLen) :
      IsaExec grants m cb (.r rd rs1 rs2) ((m.store (m.x rs1).toNat cb.accessLen
        (cb.amoOp (m.word cb.accessLen (m.x rs1).toNat) ((m.x rs2).setWidth _)).toNat).setX rd
          ((m.word cb.accessLen (m.x rs1).toNat).signExtend w.bits)).next
  /-- FENCE and its kind, which order accesses that are made in order, and WFI, which need
  not wait. -/
  | fence : IsaExec grants m .nop .none m.next

def IsaStep (grants : AccessRights) (m m' : IsaState w) : Prop :=
  m.Present m.pc.toNat 4 ∧ grants .instr m.pc.toNat 4 ∧
    ∃ cb o, Encodes w cb o (m.word 4 m.pc.toNat) ∧ IsaExec grants m cb o m'

end RiscvEm
