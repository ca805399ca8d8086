import RiscvEm.Core.HandlerSpec

/-!
The word instructions of the 64-bit build against the 32-bit build.

A word instruction looks only at the low halves of its operands and stores the sign
extension of what the 32-bit build computes on them.
-/

namespace RiscvEm

variable {σ τ : Type}

/-- The word instructions, each with the instruction of the 32-bit build that it is to
agree with. -/
def wordInstructions : List (ExecutionCb × ExecutionCb) :=
  [ (.addiw, .addi), (.slliw, .slli), (.srliw, .srli), (.sraiw, .srai),
    (.addw, .add), (.subw, .sub), (.sllw, .sll), (.srlw, .srl), (.sraw, .sra),
    (.mulw, .mul), (.divw, .div), (.divuw, .divu), (.remw, .rem), (.remuw, .remu) ]

structure LowHalves (s : RvCore .rv64 σ) (t : RvCore .rv32 τ) : Prop where
  rs1 : rs1Word s = t.x t.rs1
  rs2 : rs2Word s = t.x t.rs2
  immediate : s.immediate.setWidth 32 = t.immediate

/-! ### Operands -/

section Operands

variable {s : RvCore .rv64 σ} {t : RvCore .rv32 τ}

/-- The low five bits of a word are those of its low half. -/
theorem toNat_and_shift (v : BitVec 64) :
    (v &&& 0x1F#64).toNat = (v.setWidth 32 &&& BitVec.ofNat 32 (shiftOpMask .rv32)).toNat := by
  have hlong : (v &&& 0x1F#64).toNat = v.toNat % 2 ^ 5 := BitField.toNat_and_ones v rfl
  have hshort : (v.setWidth 32 &&& BitVec.ofNat 32 (shiftOpMask .rv32)).toNat =
      (v.setWidth 32).toNat % 2 ^ 5 := BitField.toNat_and_ones _ rfl
  rw [hlong, hshort, BitVec.toNat_setWidth]
  omega

theorem LowHalves.shiftImmediate (h : LowHalves s t) :
    shiftImmediateWord s = shiftImmediate t := by
  rw [RiscvEm.shiftImmediate, ← h.immediate]
  exact toNat_and_shift s.immediate

theorem LowHalves.shiftRs2 (h : LowHalves s t) : shiftRs2Word s = shiftRs2 t := by
  rw [RiscvEm.shiftRs2, ← h.rs2]
  exact toNat_and_shift (s.x s.rs2)

theorem LowHalves.signedImmediate (h : LowHalves s t) :
    (signedImmediate s).setWidth 32 = signedImmediate t := by
  rw [RiscvEm.signedImmediate, RiscvEm.signedImmediate, ← h.immediate, signexBit, signexBit,
    BitVec.setWidth_setWidth_of_le _ (by decide)]
  apply BitVec.eq_of_getLsbD_eq
  intro i hi
  rw [BitVec.getLsbD_setWidth, BitVec.getLsbD_signExtend, BitVec.getLsbD_signExtend]
  have hlong : i < 64 := by omega
  simp [hi, hlong]

/-- The low half of a shifted word is the shifted low half. -/
theorem setWidth_shiftLeft (v : BitVec 64) (k : Nat) :
    (v <<< k &&& 0xFFFFFFFF#64).setWidth 32 = v.setWidth 32 <<< k := by
  apply BitVec.eq_of_getLsbD_eq
  intro i hi
  have hlong : i < 64 := by omega
  have hones : (0xFFFFFFFF#64).getLsbD i = true := by
    have hbits := BitField.getLsbD_ones (n := 64) 32 i
    rw [decide_eq_true hlong, decide_eq_true hi] at hbits
    exact hbits
  rw [BitVec.getLsbD_setWidth, BitVec.getLsbD_and, hones, BitVec.getLsbD_shiftLeft,
    BitVec.getLsbD_shiftLeft, BitVec.getLsbD_setWidth]
  have hlow : i - k < 32 := by omega
  simp [hi, hlong, hlow]

end Operands

/-! ### The pairs -/

/-- A word instruction whose operands have the low halves `a` and `b` stores the sign
extension of what the 32-bit instruction stores for `a` and `b`. -/
theorem wordInstruction_agrees (busAccess : BusAccessFunc .rv64 σ)
    (busAccess32 : BusAccessFunc .rv32 τ) {cb cb32 : ExecutionCb}
    (hcb : (cb, cb32) ∈ wordInstructions) {s : RvCore .rv64 σ} {t : RvCore .rv32 τ}
    (h : LowHalves s t) :
    ∃ v : BitVec 32, cb32.handler busAccess32 t = .ok (t.setX t.rd v) ∧
      cb.handler busAccess s = .ok (s.setX s.rd (v.signExtend 64)) := by
  have hagree {value : RvCore .rv64 σ → BitVec 32} {value32 : RvCore .rv32 τ → BitVec 32}
      (heq : value s = value32 t) :
      ∃ v : BitVec 32, setRd value32 t = .ok (t.setX t.rd v) ∧
        setRdWord value s = .ok (s.setX s.rd (v.signExtend 64)) :=
    ⟨value32 t, rfl, by rw [← heq]; rfl⟩
  simp only [wordInstructions, List.mem_cons, Prod.mk.injEq, List.not_mem_nil, or_false] at hcb
  rcases hcb with ⟨rfl, rfl⟩ | ⟨rfl, rfl⟩ | ⟨rfl, rfl⟩ | ⟨rfl, rfl⟩ | ⟨rfl, rfl⟩ | ⟨rfl, rfl⟩ |
    ⟨rfl, rfl⟩ | ⟨rfl, rfl⟩ | ⟨rfl, rfl⟩ | ⟨rfl, rfl⟩ | ⟨rfl, rfl⟩ | ⟨rfl, rfl⟩ | ⟨rfl, rfl⟩ |
    ⟨rfl, rfl⟩
  all_goals rw [ExecutionCb.handler, ExecutionCb.handler]
  · exact hagree (by rw [h.rs1, h.signedImmediate, BitVec.add_comm])
  · exact hagree (by rw [setWidth_shiftLeft, h.shiftImmediate]; exact congrArg (· <<< _) h.rs1)
  · exact hagree (by rw [h.rs1, h.shiftImmediate])
  · exact hagree (by rw [h.rs1, h.shiftImmediate])
  · exact hagree (by rw [h.rs1, h.rs2])
  · exact hagree (by rw [h.rs1, h.rs2])
  · exact hagree (by rw [h.rs1, h.shiftRs2])
  · exact hagree (by rw [h.rs1, h.shiftRs2])
  · exact hagree (by rw [h.rs1, h.shiftRs2])
  · exact hagree (by rw [h.rs1, h.rs2])
  · exact hagree (by rw [h.rs1, h.rs2]; rfl)
  · exact hagree (by rw [h.rs1, h.rs2])
  · exact hagree (by rw [h.rs1, h.rs2]; rfl)
  · exact hagree (by rw [h.rs1, h.rs2])

def dividing {w : Xlen} (a b : RvUintXlen w) : RvCore w Unit :=
  { currPrivMode := .machine, pc := 0, priv := (), x := fun r => if r = 1 then a else b,
    rd := 3, rs1 := 1, rs2 := 2 }

/-- The smallest number by minus one, below upper halves that are no sign extension. -/
theorem wordInstruction_agrees_overflow :
    ∃ v : BitVec 32,
      instrDiv (w := .rv32) (dividing 0x80000000#32 0xFFFFFFFF#32) =
        .ok ((dividing 0x80000000#32 0xFFFFFFFF#32).setX 3 v) ∧
      instrDivw (w := .rv64) (dividing 0xDEADBEEF80000000#64 0x12345678FFFFFFFF#64) =
        .ok ((dividing 0xDEADBEEF80000000#64 0x12345678FFFFFFFF#64).setX 3 (v.signExtend 64)) := by
  have hlow : LowHalves (dividing (w := .rv64) 0xDEADBEEF80000000#64 0x12345678FFFFFFFF#64)
      (dividing (w := .rv32) 0x80000000#32 0xFFFFFFFF#32) := ⟨by decide, by decide, by decide⟩
  have hmem : (ExecutionCb.divw, ExecutionCb.div) ∈ wordInstructions := by decide
  exact wordInstruction_agrees (fun _ _ _ _ _ _ => .error .hang)
    (fun _ _ _ _ _ _ => .error .hang) hmem hlow

end RiscvEm
