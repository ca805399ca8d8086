import RiscvEm.Core.Instr

/-!
The instruction decoder: the preparation callbacks, the nested opcode tables, and
the search through them.

A table is named by the sub-code it is indexed with. Its type counts the tables a
search can still go through, so that the recursion over nested tables is
structural.
-/

namespace RiscvEm

variable {w : Xlen} {σ : Type}

/-! ### Preparation callbacks -/

inductive PreparationCb
  | func5 | func6 | func7 | func7Func12Sub5
  | rType | iType | sType | bType | uType | jType
  deriving DecidableEq, Inhabited

/-- `(instruction >> start) & mask` for a mask of `length` ones. -/
def field (s : RvCore w σ) (start length : Nat) : BitVec 32 := extract s.instruction start length

def regField (s : RvCore w σ) (start : Nat) : RegIndex := (field s start 5).setWidth 5

def func3Field (s : RvCore w σ) : Byte := (field s 12 3).setWidth 8

def bTypeOffset (s : RvCore w σ) : RvUintXlen w :=
  signexBit 12 <| ((field s 8 4 <<< 1) ||| (field s 25 6 <<< 5) ||| (field s 7 1 <<< 11) |||
    (field s 31 1 <<< 12)).setWidth w.bits

def jTypeOffset (s : RvCore w σ) : RvUintXlen w :=
  signexBit 20 <| ((field s 21 10 <<< 1) ||| (field s 20 1 <<< 11) ||| (field s 12 8 <<< 12) |||
    (field s 31 1 <<< 20)).setWidth w.bits

def sTypeImmediate (s : RvCore w σ) : RvUintXlen w :=
  (((s.instruction >>> 25) <<< 5) ||| field s 7 5).setWidth w.bits

/-- A preparation callback. The second component is `next_subcode`, `none` for
the value -1. -/
def PreparationCb.run (cb : PreparationCb) (s : RvCore w σ) : RvCore w σ × Option Nat :=
  match cb with
  | .func5 =>
      let s := { s with func5 := (field s 27 5).setWidth 8 }
      (s, some s.func5.toNat)
  | .func6 =>
      let s := { s with func6 := (field s 26 6).setWidth 8 }
      (s, some s.func6.toNat)
  | .func7 =>
      let s := { s with func7 := (field s 25 7).setWidth 8 }
      (s, some s.func7.toNat)
  | .func7Func12Sub5 =>
      let s := { s with func5 := (field s 20 5).setWidth 8 }
      (s, some s.func5.toNat)
  | .rType =>
      let s := { s with
        rd := regField s 7, func3 := func3Field s, rs1 := regField s 15, rs2 := regField s 20 }
      (s, some s.func3.toNat)
  | .iType =>
      let s := { s with
        rd := regField s 7, func3 := func3Field s, rs1 := regField s 15,
        immediate := (field s 20 12).setWidth w.bits }
      (s, some s.func3.toNat)
  | .sType =>
      let s := { s with
        func3 := func3Field s, rs1 := regField s 15, rs2 := regField s 20,
        immediate := sTypeImmediate s }
      (s, some s.func3.toNat)
  | .bType =>
      let s := { s with
        rd := regField s 7, func3 := func3Field s, rs1 := regField s 15, rs2 := regField s 20,
        jumpOffset := bTypeOffset s }
      (s, some s.func3.toNat)
  | .uType =>
      ({ s with
        rd := regField s 7, immediate := signexBit 19 ((field s 12 20).setWidth w.bits) }, none)
  | .jType => ({ s with rd := regField s 7, jumpOffset := jTypeOffset s }, none)

/-! ### The tables -/

inductive InstructionList : Nat → Type
  | rvOpcode : InstructionList 4
  | jalrFunc3 : InstructionList 3
  | beqFunc3 : InstructionList 3
  | lbFunc3 : InstructionList 3
  | sbFunc3 : InstructionList 3
  | addiFunc3 : InstructionList 3
  | addFunc3 : InstructionList 3
  | slliwFunc3 : InstructionList 3
  | addwFunc3 : InstructionList 3
  | csrrwFunc3 : InstructionList 3
  | wLrFunc3 : InstructionList 3
  | srliFunc6 : InstructionList 2
  | srliFunc7 : InstructionList 2
  | addSubMulFunc7 : InstructionList 2
  | sllMulhFunc7 : InstructionList 2
  | sltMulhsuFunc7 : InstructionList 2
  | sltuMulhuFunc7 : InstructionList 2
  | xorDivFunc7 : InstructionList 2
  | srlSraDivuFunc7 : InstructionList 2
  | orRemFunc7 : InstructionList 2
  | andRemuFunc7 : InstructionList 2
  | srliwFunc7 : InstructionList 2
  | srlwFunc7 : InstructionList 2
  | addwFunc7 : InstructionList 2
  | ecallFunc7 : InstructionList 2
  | wLrFunc5 : InstructionList 2
  | dLrFunc5 : InstructionList 2
  | ecallFunc12Sub5 : InstructionList 1
  | sretFunc12Sub5 : InstructionList 1

structure InstructionHook (n : Nat) where
  preparationCb : Option PreparationCb := none
  executionCb : Option ExecutionCb := none
  next : Option (InstructionList n) := none

/-- An entry `{NULL, cb, NULL}`. -/
abbrev execHook {n : Nat} (cb : ExecutionCb) : InstructionHook n := { executionCb := some cb }

/-- An entry `{prep, NULL, &list}`. -/
abbrev nextHook {n : Nat} (prep : PreparationCb) (list : InstructionList n) :
    InstructionHook n :=
  { preparationCb := some prep, next := some list }

def InstructionList.hooks (w : Xlen) :
    {n : Nat} → InstructionList (n + 1) → List (Nat × InstructionHook n)
  | _, .rvOpcode =>
      [ (0x37, { preparationCb := some .uType, executionCb := some .lui }),
        (0x17, { preparationCb := some .uType, executionCb := some .auipc }),
        (0x6F, { preparationCb := some .jType, executionCb := some .jal }),
        (0x67, nextHook .iType .jalrFunc3),
        (0x63, nextHook .bType .beqFunc3),
        (0x03, nextHook .iType .lbFunc3),
        (0x23, nextHook .sType .sbFunc3),
        (0x13, nextHook .iType .addiFunc3),
        (0x33, nextHook .rType .addFunc3),
        (0x0F, execHook .nop) ] ++
      (match w with
        | .rv32 => []
        | .rv64 => [ (0x1B, nextHook .iType .slliwFunc3), (0x3B, nextHook .rType .addwFunc3) ]) ++
      [ (0x73, nextHook .iType .csrrwFunc3),
        (0x2F, nextHook .rType .wLrFunc3) ]
  | _, .jalrFunc3 => [ (0x0, execHook .jalr) ]
  | _, .beqFunc3 =>
      [ (0x0, execHook .beq), (0x1, execHook .bne), (0x4, execHook .blt), (0x5, execHook .bge),
        (0x6, execHook .bltu), (0x7, execHook .bgeu) ]
  | _, .lbFunc3 =>
      [ (0x0, execHook .lb), (0x1, execHook .lh), (0x2, execHook .lw), (0x4, execHook .lbu),
        (0x5, execHook .lhu) ] ++
      (match w with
        | .rv32 => []
        | .rv64 => [ (0x6, execHook .lwu), (0x3, execHook .ld) ])
  | _, .sbFunc3 =>
      [ (0x0, execHook .sb), (0x1, execHook .sh), (0x2, execHook .sw) ] ++
      (match w with
        | .rv32 => []
        | .rv64 => [ (0x3, execHook .sd) ])
  | _, .addiFunc3 =>
      [ (0x0, execHook .addi), (0x2, execHook .slti), (0x3, execHook .sltiu),
        (0x4, execHook .xori), (0x6, execHook .ori), (0x7, execHook .andi),
        (0x1, execHook .slli),
        (0x5, match w with
          | .rv32 => nextHook .func7 .srliFunc7
          | .rv64 => nextHook .func6 .srliFunc6) ]
  | _, .addFunc3 =>
      [ (0x0, nextHook .func7 .addSubMulFunc7), (0x1, nextHook .func7 .sllMulhFunc7),
        (0x2, nextHook .func7 .sltMulhsuFunc7), (0x3, nextHook .func7 .sltuMulhuFunc7),
        (0x4, nextHook .func7 .xorDivFunc7), (0x5, nextHook .func7 .srlSraDivuFunc7),
        (0x6, nextHook .func7 .orRemFunc7), (0x7, nextHook .func7 .andRemuFunc7) ]
  | _, .slliwFunc3 =>
      [ (0x1, execHook .slliw), (0x5, nextHook .func7 .srliwFunc7), (0x0, execHook .addiw) ]
  | _, .addwFunc3 =>
      [ (0x0, nextHook .func7 .addwFunc7), (0x1, execHook .sllw),
        (0x5, nextHook .func7 .srlwFunc7), (0x4, execHook .divw), (0x6, execHook .remw),
        (0x7, execHook .remuw) ]
  | _, .csrrwFunc3 =>
      [ (0x1, execHook .csrrw), (0x2, execHook .csrrs), (0x3, execHook .csrrc),
        (0x5, execHook .csrrwi), (0x6, execHook .csrrsi), (0x7, execHook .csrrci),
        (0x0, nextHook .func7 .ecallFunc7) ]
  | _, .wLrFunc3 =>
      (0x2, nextHook .func5 .wLrFunc5) ::
      (match w with
        | .rv32 => []
        | .rv64 => [ (0x3, nextHook .func5 .dLrFunc5) ])
  | _, .srliFunc6 => [ (0x0, execHook .srli), (0x10, execHook .srai) ]
  | _, .srliFunc7 => [ (0x0, execHook .srli), (0x20, execHook .srai) ]
  | _, .addSubMulFunc7 => [ (0x00, execHook .add), (0x20, execHook .sub), (0x01, execHook .mul) ]
  | _, .sllMulhFunc7 => [ (0x00, execHook .sll), (0x01, execHook .mulh) ]
  | _, .sltMulhsuFunc7 => [ (0x00, execHook .slt), (0x01, execHook .mulhsu) ]
  | _, .sltuMulhuFunc7 => [ (0x00, execHook .sltu), (0x01, execHook .mulhu) ]
  | _, .xorDivFunc7 => [ (0x00, execHook .xor), (0x01, execHook .div) ]
  | _, .srlSraDivuFunc7 => [ (0x00, execHook .srl), (0x20, execHook .sra), (0x01, execHook .divu) ]
  | _, .orRemFunc7 => [ (0x00, execHook .or), (0x01, execHook .rem) ]
  | _, .andRemuFunc7 => [ (0x00, execHook .and), (0x01, execHook .remu) ]
  | _, .srliwFunc7 => [ (0x00, execHook .srliw), (0x20, execHook .sraiw) ]
  | _, .srlwFunc7 => [ (0x00, execHook .srlw), (0x20, execHook .sraw), (0x01, execHook .divuw) ]
  | _, .addwFunc7 => [ (0x00, execHook .addw), (0x20, execHook .subw), (0x01, execHook .mulw) ]
  | _, .ecallFunc7 =>
      [ (0x00, nextHook .func7Func12Sub5 .ecallFunc12Sub5),
        (0x08, nextHook .func7Func12Sub5 .sretFunc12Sub5), (0x18, execHook .mret),
        (0x09, execHook .nop) ]
  | _, .wLrFunc5 =>
      [ (0x02, execHook .lrW), (0x03, execHook .scW), (0x01, execHook .amoswapW),
        (0x00, execHook .amoaddW), (0x04, execHook .amoxorW), (0x0C, execHook .amoandW),
        (0x08, execHook .amoorW), (0x10, execHook .amominW), (0x14, execHook .amomaxW),
        (0x18, execHook .amominuW), (0x1C, execHook .amomaxuW) ]
  | _, .dLrFunc5 =>
      [ (0x02, execHook .lrD), (0x03, execHook .scD), (0x01, execHook .amoswapD),
        (0x00, execHook .amoaddD), (0x04, execHook .amoxorD), (0x0C, execHook .amoandD),
        (0x08, execHook .amoorD), (0x10, execHook .amominD), (0x14, execHook .amomaxD),
        (0x18, execHook .amominuD), (0x1C, execHook .amomaxuD) ]
  | _, .ecallFunc12Sub5 =>
      [ (0x00, execHook .ecall), (0x01, execHook .ebreak), (0x02, execHook .uret) ]
  | _, .sretFunc12Sub5 => [ (0x02, execHook .sret), (0x05, execHook .nop) ]

/-! ### The search -/

/-- The message for an instruction without an entry. -/
def unknownInstruction (s : RvCore w σ) : Stop :=
  .halt <| .die <| .unknownInstruction s.instruction s.pc.toNat s.currCycle.toNat

def InstructionHook.prepare {n : Nat} (hook : InstructionHook n) (s : RvCore w σ) :
    RvCore w σ × Option Nat :=
  match hook.preparationCb with
  | some cb => cb.run s
  | none => (s, none)

/-- `rv_call_from_opcode_list`. An index past the end of a list ends in the same
message as an entry that is all null. -/
def rvCallFromOpcodeList : {n : Nat} → InstructionList n → Nat → Handler w σ
  | 0, list, _ => nomatch list
  | _ + 1, list, opcode => fun s =>
      match (list.hooks w).lookup opcode with
      | none => .error (unknownInstruction s)
      | some hook =>
          let (s, nextSubcode) := hook.prepare s
          let s := { s with executeCb := hook.executionCb <|> s.executeCb }
          match nextSubcode, hook.next with
          | some subcode, some list => rvCallFromOpcodeList list subcode s
          | _, _ => .ok s

def rvCoreDecode : Handler w σ := fun s =>
  let opcode := s.instruction &&& 0x7F
  rvCallFromOpcodeList .rvOpcode opcode.toNat
    { s with
      opcode := opcode.setWidth 8, rd := 0, rs1 := 0, rs2 := 0, func3 := 0, func7 := 0,
      immediate := 0, jumpOffset := 0 }

end RiscvEm
