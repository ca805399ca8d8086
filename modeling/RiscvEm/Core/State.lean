import RiscvEm.Pmp.Basic
import RiscvEm.Trap.Basic

/-!
The state of one core, `rv_core_td`, and the table entries it contains.

Function pointers become names: the instruction handlers, and the register
callbacks of the CSR table together with the `priv` and `internal_reg` values
they are installed with. The callbacks `bus_access` and `mmu.bus_access`, which
no code changes after initialisation, are parameters of the routines instead of
fields; the state that `priv` points to is a field.
-/

namespace RiscvEm

inductive ExecutionCb
  | nop | lui | auipc | jal | jalr
  | beq | bne | blt | bge | bltu | bgeu
  | addi | slti | sltiu | xori | ori | andi | slli | srai | srli
  | add | sub | sll | slt | sltu | xor | srl | or | and | sra
  | lb | lh | lw | lbu | lhu | sb | sh | sw | lwu | ld | sd
  | sraiw | addiw | slliw | srliw | srlw | sraw | sllw | addw | subw
  | csrrw | csrrs | csrrc | csrrwi | csrrsi | csrrci
  | ecall | ebreak | mret | sret | uret
  | lrW | scW | amoswapW | amoaddW | amoxorW | amoandW | amoorW
  | amominW | amomaxW | amominuW | amomaxuW
  | lrD | scD | amoswapD | amoaddD | amoxorD | amoandD | amoorD
  | amominD | amomaxD | amominuD | amomaxuD
  | div | divu | rem | remu | mul | mulh | mulhu | mulhsu
  | mulw | divw | divuw | remw | remuw
  deriving DecidableEq, Inhabited

/-- The pairs of `read_cb` and `write_cb` in the CSR table, with the register
they are installed for. -/
inductive CsrCallback
  | trapM (r : TrapReg)
  | trapS (r : TrapReg)
  | pmpCfg (regIndex : Nat)
  | pmpAddr (regIndex : Fin 16)
  | mmu
  deriving DecidableEq

structure CsrReg (w : Xlen) where
  accessFlags : BitVec 16 := 0
  value : RvUintXlen w := 0
  mask : RvUintXlen w := 0
  warlAlwaysEnabled : RvUintXlen w := 0
  callback : Option CsrCallback := none
  deriving DecidableEq

/-- `mmu_td`, without its callback. -/
structure Mmu (w : Xlen) where
  satpReg : RvUintXlen w := 0
  lastVirtPc : RvUintXlen w := 0
  lastPhysPc : RvUintXlen w := 0
  deriving DecidableEq

/-- The index of an integer register: the decoder masks it to five bits. -/
abbrev RegIndex := BitVec 5

structure RvCore (w : Xlen) (σ : Type) where
  currPrivMode : PrivilegeLevel
  currCycle : BitVec 64 := 0
  x : RegIndex → RvUintXlen w := fun _ => 0
  pc : RvUintXlen w
  nextPc : RvUintXlen w := 0
  instruction : BitVec 32 := 0
  opcode : Byte := 0
  rd : RegIndex := 0
  rs1 : RegIndex := 0
  rs2 : RegIndex := 0
  func3 : Byte := 0
  func7 : Byte := 0
  func6 : Byte := 0
  func5 : Byte := 0
  immediate : RvUintXlen w := 0
  jumpOffset : RvUintXlen w := 0
  syncTrapPending : Bool := false
  syncTrapCause : RvUintXlen w := 0
  syncTrapTval : RvUintXlen w := 0
  executeCb : Option ExecutionCb := none
  /-- the state behind `priv`: memory and devices -/
  priv : σ
  csrRegs : Nat → CsrReg w := fun _ => {}
  pmp : Pmp w := {}
  trap : Trap w := {}
  mmu : Mmu w := {}
  lrValid : Bool := false
  lrAddress : RvUintXlen w := 0

variable {w : Xlen} {σ : Type}

namespace RvCore

/-- `rv_core->x[r] = v`. -/
def setX (s : RvCore w σ) (r : RegIndex) (v : RvUintXlen w) : RvCore w σ :=
  { s with x := Function.update s.x r v }

@[simp] theorem setX_x (s : RvCore w σ) (r : RegIndex) (v : RvUintXlen w) :
    (s.setX r v).x = Function.update s.x r v := rfl

/-- `*rv_core->trap.m.regs[trap_reg_status]`. -/
abbrev status (s : RvCore w σ) : RvUintXlen w := s.trap.reg .m .status

end RvCore

end RiscvEm
