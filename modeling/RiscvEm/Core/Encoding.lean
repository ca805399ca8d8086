import RiscvEm.Core.State

/-!
The encodings of the instruction set: the formats as layouts of six fields, the codes
of the instructions of each format, and the words that they define.

An instruction is named by its handler. The instructions without an effect in the
emulator, which are FENCE, FENCE.I, WFI and SFENCE.VMA, share the empty one.
-/

namespace RiscvEm

/-! ### Formats -/

/-- A word from its fields, highest first. -/
def layout (func7 : BitVec 7) (rs2 rs1 : BitVec 5) (func3 : BitVec 3) (rd : BitVec 5)
    (opcode : BitVec 7) : BitVec 32 :=
  func7 ++ rs2 ++ rs1 ++ func3 ++ rd ++ opcode

/-- The I format: twelve bits in the place of `func7` and `rs2`. -/
def iLayout (imm : BitVec 12) (rs1 : BitVec 5) (func3 : BitVec 3) (rd : BitVec 5)
    (opcode : BitVec 7) : BitVec 32 :=
  layout (imm.extractLsb' 5 7) (imm.extractLsb' 0 5) rs1 func3 rd opcode

def sLayout (imm : BitVec 12) (rs2 rs1 : BitVec 5) (func3 : BitVec 3) (opcode : BitVec 7) :
    BitVec 32 :=
  layout (imm.extractLsb' 5 7) rs2 rs1 func3 (imm.extractLsb' 0 5) opcode

/-- The B format. The offset is given in half-words. -/
def bLayout (half : BitVec 12) (rs2 rs1 : BitVec 5) (func3 : BitVec 3) (opcode : BitVec 7) :
    BitVec 32 :=
  layout (half.extractLsb' 11 1 ++ half.extractLsb' 4 6) rs2 rs1 func3
    (half.extractLsb' 0 4 ++ half.extractLsb' 10 1) opcode

def uLayout (imm : BitVec 20) (rd : BitVec 5) (opcode : BitVec 7) : BitVec 32 :=
  layout (imm.extractLsb' 13 7) (imm.extractLsb' 8 5) (imm.extractLsb' 3 5)
    (imm.extractLsb' 0 3) rd opcode

/-- The J format. The offset is given in half-words. -/
def jLayout (half : BitVec 20) (rd : BitVec 5) (opcode : BitVec 7) : BitVec 32 :=
  uLayout (half.extractLsb' 19 1 ++ half.extractLsb' 0 10 ++ half.extractLsb' 10 1 ++
    half.extractLsb' 11 8) rd opcode

/-! ### Codes -/

/-- The codes `opcode`, `func3` and `func7` of the register-register instructions. -/
def rTypeCodes (w : Xlen) : List (ExecutionCb × BitVec 7 × BitVec 3 × BitVec 7) :=
  [ (.add, 0x33, 0, 0x00), (.sub, 0x33, 0, 0x20), (.sll, 0x33, 1, 0x00), (.slt, 0x33, 2, 0x00),
    (.sltu, 0x33, 3, 0x00), (.xor, 0x33, 4, 0x00), (.srl, 0x33, 5, 0x00), (.sra, 0x33, 5, 0x20),
    (.or, 0x33, 6, 0x00), (.and, 0x33, 7, 0x00),
    (.mul, 0x33, 0, 0x01), (.mulh, 0x33, 1, 0x01), (.mulhsu, 0x33, 2, 0x01),
    (.mulhu, 0x33, 3, 0x01), (.div, 0x33, 4, 0x01), (.divu, 0x33, 5, 0x01),
    (.rem, 0x33, 6, 0x01), (.remu, 0x33, 7, 0x01) ] ++
  match w with
  | .rv32 => []
  | .rv64 =>
      [ (.addw, 0x3B, 0, 0x00), (.subw, 0x3B, 0, 0x20), (.sllw, 0x3B, 1, 0x00),
        (.srlw, 0x3B, 5, 0x00), (.sraw, 0x3B, 5, 0x20),
        (.mulw, 0x3B, 0, 0x01), (.divw, 0x3B, 4, 0x01), (.divuw, 0x3B, 5, 0x01),
        (.remw, 0x3B, 6, 0x01), (.remuw, 0x3B, 7, 0x01) ]

def iTypeCodes (w : Xlen) : List (ExecutionCb × BitVec 7 × BitVec 3) :=
  [ (.jalr, 0x67, 0),
    (.lb, 0x03, 0), (.lh, 0x03, 1), (.lw, 0x03, 2), (.lbu, 0x03, 4), (.lhu, 0x03, 5),
    (.addi, 0x13, 0), (.slti, 0x13, 2), (.sltiu, 0x13, 3), (.xori, 0x13, 4), (.ori, 0x13, 6),
    (.andi, 0x13, 7) ] ++
  match w with
  | .rv32 => []
  | .rv64 => [ (.lwu, 0x03, 6), (.ld, 0x03, 3), (.addiw, 0x1B, 0) ]

/-- The codes `func3` and `func7` of the shifts by a 5-bit amount: the shifts of the
32-bit build, and the word shifts of the 64-bit build. -/
def shift5Codes (w : Xlen) : List (ExecutionCb × BitVec 7 × BitVec 3 × BitVec 7) :=
  match w with
  | .rv32 => [ (.slli, 0x13, 1, 0x00), (.srli, 0x13, 5, 0x00), (.srai, 0x13, 5, 0x20) ]
  | .rv64 => [ (.slliw, 0x1B, 1, 0x00), (.srliw, 0x1B, 5, 0x00), (.sraiw, 0x1B, 5, 0x20) ]

def shift6Codes (w : Xlen) : List (ExecutionCb × BitVec 3 × BitVec 6) :=
  match w with
  | .rv32 => []
  | .rv64 => [ (.slli, 1, 0x00), (.srli, 5, 0x00), (.srai, 5, 0x10) ]

def sTypeCodes (w : Xlen) : List (ExecutionCb × BitVec 3) :=
  [ (.sb, 0), (.sh, 1), (.sw, 2) ] ++
  match w with
  | .rv32 => []
  | .rv64 => [ (.sd, 3) ]

def bTypeCodes : List (ExecutionCb × BitVec 3) :=
  [ (.beq, 0), (.bne, 1), (.blt, 4), (.bge, 5), (.bltu, 6), (.bgeu, 7) ]

def uTypeCodes : List (ExecutionCb × BitVec 7) := [ (.lui, 0x37), (.auipc, 0x17) ]

def csrCodes : List (ExecutionCb × BitVec 3) :=
  [ (.csrrw, 1), (.csrrs, 2), (.csrrc, 3), (.csrrwi, 5), (.csrrsi, 6), (.csrrci, 7) ]

/-- The codes `func3` and `func5` of the load-reserved instructions. -/
def lrCodes (w : Xlen) : List (ExecutionCb × BitVec 3 × BitVec 5) :=
  (.lrW, 2, 0x02) ::
  match w with
  | .rv32 => []
  | .rv64 => [ (.lrD, 3, 0x02) ]

/-- The codes `func3` and `func5` of the other atomic instructions. -/
def amoCodes (w : Xlen) : List (ExecutionCb × BitVec 3 × BitVec 5) :=
  [ (.scW, 2, 0x03), (.amoswapW, 2, 0x01), (.amoaddW, 2, 0x00), (.amoxorW, 2, 0x04),
    (.amoandW, 2, 0x0C), (.amoorW, 2, 0x08), (.amominW, 2, 0x10), (.amomaxW, 2, 0x14),
    (.amominuW, 2, 0x18), (.amomaxuW, 2, 0x1C) ] ++
  match w with
  | .rv32 => []
  | .rv64 =>
      [ (.scD, 3, 0x03), (.amoswapD, 3, 0x01), (.amoaddD, 3, 0x00), (.amoxorD, 3, 0x04),
        (.amoandD, 3, 0x0C), (.amoorD, 3, 0x08), (.amominD, 3, 0x10), (.amomaxD, 3, 0x14),
        (.amominuD, 3, 0x18), (.amomaxuD, 3, 0x1C) ]

/-- The twelve high bits of the privileged instructions without operands. -/
def privCodes : List (ExecutionCb × BitVec 12) :=
  [ (.ecall, 0x000), (.ebreak, 0x001), (.uret, 0x002), (.sret, 0x102), (.mret, 0x302),
    (.nop, 0x105) ]

/-! ### Instructions -/

inductive Operands
  | r (rd rs1 rs2 : BitVec 5)
  | i (rd rs1 : BitVec 5) (imm : BitVec 12)
  | shift5 (rd rs1 : BitVec 5) (shamt : BitVec 5)
  | shift6 (rd rs1 : BitVec 5) (shamt : BitVec 6)
  | s (rs1 rs2 : BitVec 5) (imm : BitVec 12)
  | b (rs1 rs2 : BitVec 5) (half : BitVec 12)
  | u (rd : BitVec 5) (imm : BitVec 20)
  | j (rd : BitVec 5) (half : BitVec 20)
  | csr (rd rs1 : BitVec 5) (csr : BitVec 12)
  | rs1rs2 (rs1 rs2 : BitVec 5)
  | none

inductive Encodes (w : Xlen) : ExecutionCb → Operands → BitVec 32 → Prop
  | rType {cb opcode func3 func7} (h : (cb, opcode, func3, func7) ∈ rTypeCodes w)
      (rd rs1 rs2 : BitVec 5) :
      Encodes w cb (.r rd rs1 rs2) (layout func7 rs2 rs1 func3 rd opcode)
  | iType {cb opcode func3} (h : (cb, opcode, func3) ∈ iTypeCodes w) (rd rs1 : BitVec 5)
      (imm : BitVec 12) : Encodes w cb (.i rd rs1 imm) (iLayout imm rs1 func3 rd opcode)
  | shift5 {cb opcode func3 func7} (h : (cb, opcode, func3, func7) ∈ shift5Codes w)
      (rd rs1 shamt : BitVec 5) :
      Encodes w cb (.shift5 rd rs1 shamt) (layout func7 shamt rs1 func3 rd opcode)
  | shift6 {cb func3 func6} (h : (cb, func3, func6) ∈ shift6Codes w) (rd rs1 : BitVec 5)
      (shamt : BitVec 6) :
      Encodes w cb (.shift6 rd rs1 shamt) (iLayout (func6 ++ shamt) rs1 func3 rd 0x13)
  | sType {cb func3} (h : (cb, func3) ∈ sTypeCodes w) (rs1 rs2 : BitVec 5) (imm : BitVec 12) :
      Encodes w cb (.s rs1 rs2 imm) (sLayout imm rs2 rs1 func3 0x23)
  | bType {cb func3} (h : (cb, func3) ∈ bTypeCodes) (rs1 rs2 : BitVec 5) (half : BitVec 12) :
      Encodes w cb (.b rs1 rs2 half) (bLayout half rs2 rs1 func3 0x63)
  | uType {cb opcode} (h : (cb, opcode) ∈ uTypeCodes) (rd : BitVec 5) (imm : BitVec 20) :
      Encodes w cb (.u rd imm) (uLayout imm rd opcode)
  | jal (rd : BitVec 5) (half : BitVec 20) :
      Encodes w .jal (.j rd half) (jLayout half rd 0x6F)
  | csr {cb func3} (h : (cb, func3) ∈ csrCodes) (rd rs1 : BitVec 5) (csr : BitVec 12) :
      Encodes w cb (.csr rd rs1 csr) (iLayout csr rs1 func3 rd 0x73)
  | lr {cb func3 func5} (h : (cb, func3, func5) ∈ lrCodes w) (aq rl : BitVec 1)
      (rd rs1 : BitVec 5) :
      Encodes w cb (.r rd rs1 0) (layout (func5 ++ aq ++ rl) 0 rs1 func3 rd 0x2F)
  | amo {cb func3 func5} (h : (cb, func3, func5) ∈ amoCodes w) (aq rl : BitVec 1)
      (rd rs1 rs2 : BitVec 5) :
      Encodes w cb (.r rd rs1 rs2) (layout (func5 ++ aq ++ rl) rs2 rs1 func3 rd 0x2F)
  /-- FENCE, whose fields other than the ordering are to be ignored. -/
  | fence (imm : BitVec 12) (rd rs1 : BitVec 5) :
      Encodes w .nop .none (iLayout imm rs1 0 rd 0x0F)
  /-- FENCE.I, whose fields are all to be ignored. -/
  | fenceI (imm : BitVec 12) (rd rs1 : BitVec 5) :
      Encodes w .nop .none (iLayout imm rs1 1 rd 0x0F)
  | priv {cb func12} (h : (cb, func12) ∈ privCodes) :
      Encodes w cb .none (iLayout func12 0 0 0 0x73)
  | sfenceVma (rs1 rs2 : BitVec 5) :
      Encodes w .nop (.rs1rs2 rs1 rs2) (layout 0x09 rs2 rs1 0 0 0x73)

def Defined (w : Xlen) (word : BitVec 32) : Prop := ∃ cb o, Encodes w cb o word

end RiscvEm
