import Mathlib.Algebra.Ring.Int.Defs
import RiscvEm.Core.HandlerSpec
import RiscvEm.Core.RoundTrip

/-!
The integer instructions compute what the instruction set defines.

The definition is given over the integers: a register is read as a signed or an unsigned
number, and a result is stored modulo the register width.
-/

namespace RiscvEm

variable {w : Xlen} {σ : Type}

/-! ### The values that the instruction set defines -/

def isaUpper (pc : RvUintXlen w) (imm : BitVec 20) : ExecutionCb → Option (RvUintXlen w)
  | .lui => some (.ofInt w.bits (imm.toInt * 2 ^ 12))
  | .auipc => some (.ofInt w.bits (pc.toInt + imm.toInt * 2 ^ 12))
  | _ => none

/-- The instructions with a 12-bit immediate, which is extended by its sign also where
it is compared as an unsigned number. -/
def isaImmediate (a : RvUintXlen w) (imm : BitVec 12) : ExecutionCb → Option (RvUintXlen w)
  | .addi => some (.ofInt w.bits (a.toInt + imm.toInt))
  | .slti => some (if a.toInt < imm.toInt then 1 else 0)
  | .sltiu => some (if a.toNat < (imm.signExtend w.bits).toNat then 1 else 0)
  | .xori => some (a ^^^ imm.signExtend w.bits)
  | .ori => some (a ||| imm.signExtend w.bits)
  | .andi => some (a &&& imm.signExtend w.bits)
  | _ => none

def isaSll (a : RvUintXlen w) (shamt : Nat) : RvUintXlen w :=
  .ofNat w.bits (a.toNat * 2 ^ (shamt % w.bits))

def isaSrl (a : RvUintXlen w) (shamt : Nat) : RvUintXlen w :=
  .ofNat w.bits (a.toNat / 2 ^ (shamt % w.bits))

/-- The quotient is rounded down, so that the sign is shifted in. -/
def isaSra (a : RvUintXlen w) (shamt : Nat) : RvUintXlen w :=
  .ofInt w.bits (a.toInt / 2 ^ (shamt % w.bits))

def isaShift (a : RvUintXlen w) (shamt : Nat) : ExecutionCb → Option (RvUintXlen w)
  | .slli => some (isaSll a shamt)
  | .srli => some (isaSrl a shamt)
  | .srai => some (isaSra a shamt)
  | _ => none

def isaDiv (a b : RvUintXlen w) : RvUintXlen w :=
  if b.toInt = 0 then .ofInt w.bits (-1)
  else if a.toInt = -2 ^ (w.bits - 1) ∧ b.toInt = -1 then .ofInt w.bits (-2 ^ (w.bits - 1))
  else .ofInt w.bits (a.toInt.tdiv b.toInt)

def isaRem (a b : RvUintXlen w) : RvUintXlen w :=
  if b.toInt = 0 then a
  else if a.toInt = -2 ^ (w.bits - 1) ∧ b.toInt = -1 then 0
  else .ofInt w.bits (a.toInt.tmod b.toInt)

def isaDivu (a b : RvUintXlen w) : RvUintXlen w :=
  if b.toNat = 0 then .ofInt w.bits (-1) else .ofNat w.bits (a.toNat / b.toNat)

def isaRemu (a b : RvUintXlen w) : RvUintXlen w :=
  if b.toNat = 0 then a else .ofNat w.bits (a.toNat % b.toNat)

def isaRegister (a b : RvUintXlen w) : ExecutionCb → Option (RvUintXlen w)
  | .add => some (.ofInt w.bits (a.toInt + b.toInt))
  | .sub => some (.ofInt w.bits (a.toInt - b.toInt))
  | .sll => some (isaSll a b.toNat)
  | .slt => some (if a.toInt < b.toInt then 1 else 0)
  | .sltu => some (if a.toNat < b.toNat then 1 else 0)
  | .xor => some (a ^^^ b)
  | .srl => some (isaSrl a b.toNat)
  | .sra => some (isaSra a b.toNat)
  | .or => some (a ||| b)
  | .and => some (a &&& b)
  | .mul => some (.ofInt w.bits (a.toInt * b.toInt))
  | .div => some (isaDiv a b)
  | .divu => some (isaDivu a b)
  | .rem => some (isaRem a b)
  | .remu => some (isaRemu a b)
  | _ => none

/-- The value of an instruction with these operands, from the program counter and the
registers. -/
def isaValue (cb : ExecutionCb) (o : Operands) (pc : RvUintXlen w)
    (x : RegIndex → RvUintXlen w) : Option (RvUintXlen w) :=
  match o with
  | .u _ imm => isaUpper pc imm cb
  | .i _ rs1 imm => isaImmediate (x rs1) imm cb
  | .shift5 _ rs1 shamt => isaShift (x rs1) shamt.toNat cb
  | .shift6 _ rs1 shamt => isaShift (x rs1) shamt.toNat cb
  | .r _ rs1 rs2 => isaRegister (x rs1) (x rs2) cb
  | _ => none

/-- The instructions of the base integer set and of its multiplication extension that
compute one word from two. -/
def integerInstructions : List ExecutionCb :=
  [ .lui, .auipc, .addi, .slti, .sltiu, .xori, .ori, .andi, .slli, .srli, .srai,
    .add, .sub, .sll, .slt, .sltu, .xor, .srl, .sra, .or, .and,
    .mul, .div, .divu, .rem, .remu ]

/-! ### Words and the integers they stand for -/

section Words

variable {n : Nat}

theorem ofInt_toInt_add (a b : BitVec n) : BitVec.ofInt n (a.toInt + b.toInt) = a + b := by
  rw [BitVec.ofInt_add, BitVec.ofInt_toInt, BitVec.ofInt_toInt]

theorem ofInt_toInt_sub (a b : BitVec n) : BitVec.ofInt n (a.toInt - b.toInt) = a - b := by
  apply BitVec.eq_of_toInt_eq
  rw [BitVec.toInt_ofInt, BitVec.toInt_sub]

theorem ofInt_toInt_mul (a b : BitVec n) : BitVec.ofInt n (a.toInt * b.toInt) = a * b := by
  rw [BitVec.ofInt_mul, BitVec.ofInt_toInt, BitVec.ofInt_toInt]

theorem ofNat_mul_two_pow (a : BitVec n) (k : Nat) :
    BitVec.ofNat n (a.toNat * 2 ^ k) = a <<< k := by
  apply BitVec.eq_of_toNat_eq
  rw [BitVec.toNat_ofNat, BitVec.toNat_shiftLeft, Nat.shiftLeft_eq]

theorem ofNat_div_two_pow (a : BitVec n) (k : Nat) :
    BitVec.ofNat n (a.toNat / 2 ^ k) = a >>> k := by
  apply BitVec.eq_of_toNat_eq
  rw [BitVec.toNat_ofNat, BitVec.toNat_ushiftRight, Nat.shiftRight_eq_div_pow]
  exact Nat.mod_eq_of_lt (Nat.lt_of_le_of_lt (Nat.div_le_self _ _) a.isLt)

theorem ofInt_div_two_pow (a : BitVec n) (k : Nat) :
    BitVec.ofInt n (a.toInt / 2 ^ k) = a.sshiftRight k := by
  rw [BitVec.sshiftRight, Int.shiftRight_eq_div_pow]
  rfl

theorem ofInt_tdiv (a b : BitVec n) : BitVec.ofInt n (a.toInt.tdiv b.toInt) = a.sdiv b := by
  apply BitVec.eq_of_toInt_eq
  rw [BitVec.toInt_ofInt, BitVec.toInt_sdiv]

theorem ofInt_tmod (a b : BitVec n) : BitVec.ofInt n (a.toInt.tmod b.toInt) = a.srem b := by
  rw [← BitVec.toInt_srem, BitVec.ofInt_toInt]

theorem toInt_eq_zero_iff (a : BitVec n) : a.toInt = 0 ↔ a = 0#n := by
  rw [← BitVec.toInt_inj, BitVec.toInt_zero]

theorem toNat_eq_zero_iff (a : BitVec n) : a.toNat = 0 ↔ a = 0#n := by
  rw [← BitVec.toNat_inj]
  exact Iff.rfl

theorem toInt_eq_min_iff (a : RvUintXlen w) : a.toInt = -2 ^ (w.bits - 1) ↔ a = xlenIntMin w := by
  cases w with
  | rv32 => exact BitVec.toInt_inj (y := 0x80000000#32)
  | rv64 => exact BitVec.toInt_inj (y := 0x8000000000000000#64)

theorem toInt_eq_neg_one_iff (a : RvUintXlen w) :
    a.toInt = -1 ↔ a = BitVec.allOnes w.bits := by
  cases w with
  | rv32 => exact BitVec.toInt_inj (y := BitVec.allOnes 32)
  | rv64 => exact BitVec.toInt_inj (y := BitVec.allOnes 64)

theorem ofInt_neg_one : BitVec.ofInt w.bits (-1) = BitVec.allOnes w.bits := by
  cases w <;> rfl

theorem ofInt_min : BitVec.ofInt w.bits (-2 ^ (w.bits - 1)) = xlenIntMin w := by
  cases w <;> rfl

end Words

theorem ofCond_decide (p : Prop) [Decidable p] :
    (ofCond (decide p) : RvUintXlen w) = if p then 1 else 0 := by
  by_cases h : p
  · rw [if_pos h, decide_eq_true h]
    rfl
  · rw [if_neg h, decide_eq_false h]
    rfl

theorem isaSll_eq (a : RvUintXlen w) (shamt : Nat) : isaSll a shamt = a <<< (shamt % w.bits) :=
  ofNat_mul_two_pow a _

theorem isaSrl_eq (a : RvUintXlen w) (shamt : Nat) : isaSrl a shamt = a >>> (shamt % w.bits) :=
  ofNat_div_two_pow a _

theorem isaSra_eq (a : RvUintXlen w) (shamt : Nat) :
    isaSra a shamt = a.sshiftRight (shamt % w.bits) :=
  ofInt_div_two_pow a _

theorem shiftRs2_eq (s : RvCore w σ) : shiftRs2 s = (s.x s.rs2).toNat % w.bits := by
  cases w with
  | rv32 => exact BitField.toNat_and_ones (k := 5) _ rfl
  | rv64 => exact BitField.toNat_and_ones (k := 6) _ rfl

theorem isaDiv_eq (a b : RvUintXlen w) : isaDiv a b = divBy (xlenIntMin w) a b := by
  simp only [isaDiv, divBy, toInt_eq_zero_iff, toInt_eq_min_iff, toInt_eq_neg_one_iff,
    ofInt_neg_one, ofInt_min, ofInt_tdiv]

theorem isaRem_eq (a b : RvUintXlen w) : isaRem a b = remBy (xlenIntMin w) a b := by
  simp only [isaRem, remBy, toInt_eq_zero_iff, toInt_eq_min_iff, toInt_eq_neg_one_iff,
    ofInt_tmod, BitVec.ofNat_eq_ofNat]

theorem isaDivu_eq (a b : RvUintXlen w) : isaDivu a b = divuBy a b := by
  simp only [isaDivu, divuBy, toNat_eq_zero_iff, ofInt_neg_one, BitVec.udiv_def]

theorem isaRemu_eq (a b : RvUintXlen w) : isaRemu a b = remuBy a b := by
  have hmod : a % b = BitVec.ofNat w.bits (a.toNat % b.toNat) := BitVec.umod_def
  simp only [isaRemu, remuBy, toNat_eq_zero_iff, hmod]

/-! ### The handlers -/

/-- The value is stored in `rd`. Some handlers also extend `immediate` in place. -/
def Writes (d e : RvCore w σ) (v : RvUintXlen w) : Prop :=
  e = { d.setX d.rd v with immediate := e.immediate }

section Handlers

variable (busAccess : BusAccessFunc w σ) {d : RvCore w σ} {cb : ExecutionCb} {v : RvUintXlen w}

theorem exists_setRd {value : RvCore w σ → RvUintXlen w} (h : value d = v) :
    ∃ e, setRd value d = .ok e ∧ Writes d e v := by
  subst h
  exact ⟨_, rfl, rfl⟩

theorem exists_extendImmediate {value : RvCore w σ → RvUintXlen w}
    (h : value { d with immediate := signedImmediate d } = v) :
    ∃ e, extendImmediate value d = .ok e ∧ Writes d e v := by
  subst h
  exact ⟨_, rfl, rfl⟩

theorem handler_register (hx : d.x 0 = 0)
    (h : isaRegister (d.x d.rs1) (d.x d.rs2) cb = some v) :
    ∃ e, cb.handler busAccess d = .ok e ∧ Writes d e v := by
  cases cb <;> cases h <;> rw [ExecutionCb.handler]
  case add => exact exists_setRd (ofInt_toInt_add _ _).symm
  case sub => exact exists_setRd (ofInt_toInt_sub _ _).symm
  case sll => exact exists_setRd (by rw [isaSll_eq, shiftRs2_eq])
  case slt => exact exists_setRd (ofCond_decide _)
  case sltu =>
    refine exists_setRd ?_
    -- with x0 as the first operand the handler compares with zero
    split
    · next hrs1 =>
        rw [hrs1, hx, ← ofCond_decide]
        refine congrArg ofCond ?_
        rw [bne, Bool.eq_iff_iff, Bool.not_eq_true', decide_eq_true_iff, beq_eq_false_iff_ne, Ne,
          BitVec.ofNat_eq_ofNat, ← toNat_eq_zero_iff, BitVec.toNat_ofNat, Nat.zero_mod]
        exact Nat.pos_iff_ne_zero.symm
    · exact ofCond_decide _
  case xor => exact exists_setRd rfl
  case srl => exact exists_setRd (by rw [isaSrl_eq, shiftRs2_eq])
  case or => exact exists_setRd rfl
  case and => exact exists_setRd rfl
  case sra => exact exists_setRd (by rw [isaSra_eq, shiftRs2_eq])
  case div => exact exists_setRd (isaDiv_eq _ _).symm
  case divu => exact exists_setRd (isaDivu_eq _ _).symm
  case rem => exact exists_setRd (isaRem_eq _ _).symm
  case remu => exact exists_setRd (isaRemu_eq _ _).symm
  case mul => exact exists_setRd (ofInt_toInt_mul _ _).symm

theorem handler_immediate {imm : BitVec 12} (himm : signedImmediate d = imm.signExtend w.bits)
    (h : isaImmediate (d.x d.rs1) imm cb = some v) :
    ∃ e, cb.handler busAccess d = .ok e ∧ Writes d e v := by
  have hint : (imm.signExtend w.bits).toInt = imm.toInt :=
    BitVec.toInt_signExtend_of_le (by have := w.bits_ge; omega)
  cases cb <;> cases h <;> rw [ExecutionCb.handler]
  case addi =>
    refine exists_setRd ?_
    rw [himm, ← hint, Int.add_comm, ofInt_toInt_add]
  case slti =>
    refine exists_setRd ?_
    rw [himm, ← hint]
    exact ofCond_decide _
  case sltiu =>
    refine exists_setRd ?_
    rw [himm]
    exact ofCond_decide _
  case xori =>
    refine exists_extendImmediate ?_
    show (if signedImmediate d = BitVec.allOnes w.bits then d.x d.rs1 ^^^ BitVec.allOnes w.bits
      else d.x d.rs1 ^^^ signedImmediate d) = _
    split
    · next hones => rw [← himm, hones]
    · rw [himm]
  case ori =>
    refine exists_extendImmediate ?_
    rw [← himm]
  case andi =>
    refine exists_extendImmediate ?_
    rw [← himm]

theorem handler_shift {shamt : Nat} (hshamt : shiftImmediate d = shamt) (hlt : shamt < w.bits)
    (h : isaShift (d.x d.rs1) shamt cb = some v) :
    ∃ e, cb.handler busAccess d = .ok e ∧ Writes d e v := by
  have hmod : shamt % w.bits = shamt := Nat.mod_eq_of_lt hlt
  cases cb <;> cases h <;> rw [ExecutionCb.handler]
  case slli => exact exists_setRd (by rw [isaSll_eq, hmod, hshamt])
  case srai => exact exists_setRd (by rw [isaSra_eq, hmod, hshamt])
  case srli => exact exists_setRd (by rw [isaSrl_eq, hmod, hshamt])

theorem handler_upper {imm : BitVec 20}
    (himm : d.immediate <<< 12 = (imm ++ 0#12).signExtend w.bits)
    (h : isaUpper d.pc imm cb = some v) :
    ∃ e, cb.handler busAccess d = .ok e ∧ Writes d e v := by
  have hword : (imm ++ 0#12).signExtend w.bits = .ofInt w.bits (imm.toInt * 2 ^ 12) := by
    rw [BitVec.signExtend, BitVec.toInt_append_zero, Int.mul_comm]
  cases cb <;> cases h <;> rw [ExecutionCb.handler]
  case lui => exact exists_setRd (himm.trans hword)
  case auipc =>
    refine exists_setRd ?_
    rw [himm, hword, BitVec.ofInt_add, BitVec.ofInt_toInt]

end Handlers

/-! ### Divisions -/

section Divisions

variable {n : Nat}

/-- The quotient of two signed numbers, where C defines it. -/
def cSdiv (a b : BitVec n) : Option (BitVec n) :=
  if b = 0#n ∨ a = BitVec.intMin n ∧ b = BitVec.allOnes n then none else some (a.sdiv b)

/-- The remainder of two signed numbers, where C defines it. -/
def cSrem (a b : BitVec n) : Option (BitVec n) :=
  if b = 0#n ∨ a = BitVec.intMin n ∧ b = BitVec.allOnes n then none else some (a.srem b)

def cUdiv (a b : BitVec n) : Option (BitVec n) := if b = 0#n then none else some (a / b)

def cUrem (a b : BitVec n) : Option (BitVec n) := if b = 0#n then none else some (a % b)

/-- The handlers of the divisions, with the division operators of C. -/
def divByC (intMin rs rs2 : BitVec n) : Option (BitVec n) :=
  if rs2 = 0#n then some (BitVec.allOnes n)
  else if rs = intMin ∧ rs2 = BitVec.allOnes n then some intMin
  else cSdiv rs rs2

def remByC (intMin rs rs2 : BitVec n) : Option (BitVec n) :=
  if rs2 = 0#n then some rs
  else if rs = intMin ∧ rs2 = BitVec.allOnes n then some 0#n
  else cSrem rs rs2

def divuByC (rs rs2 : BitVec n) : Option (BitVec n) :=
  if rs2 = 0#n then some (BitVec.allOnes n) else cUdiv rs rs2

def remuByC (rs rs2 : BitVec n) : Option (BitVec n) :=
  if rs2 = 0#n then some rs else cUrem rs rs2

/-- The handlers divide only where the quotient is defined. -/
structure DivisionsDefined (intMin : BitVec n) : Prop where
  div : ∀ a b : BitVec n, divByC intMin a b = some (divBy intMin a b)
  rem : ∀ a b : BitVec n, remByC intMin a b = some (remBy intMin a b)
  divu : ∀ a b : BitVec n, divuByC a b = some (divuBy a b)
  remu : ∀ a b : BitVec n, remuByC a b = some (remuBy a b)

/-- The special cases of the handlers are those that C leaves undefined. -/
theorem divisionsDefined : DivisionsDefined (BitVec.intMin n) := by
  constructor
  case div =>
    intro a b
    rw [divByC, divBy]
    split
    · rfl
    · next hzero =>
        split
        · rfl
        · next hover => rw [cSdiv, if_neg (not_or.mpr ⟨hzero, hover⟩)]
  case rem =>
    intro a b
    rw [remByC, remBy]
    split
    · rfl
    · next hzero =>
        split
        · rfl
        · next hover => rw [cSrem, if_neg (not_or.mpr ⟨hzero, hover⟩)]
  case divu =>
    intro a b
    rw [divuByC, divuBy]
    split
    · rfl
    · next hzero => rw [cUdiv, if_neg hzero]
  case remu =>
    intro a b
    rw [remuByC, remuBy]
    split
    · rfl
    · next hzero => rw [cUrem, if_neg hzero]

theorem xlenIntMin_eq : xlenIntMin w = BitVec.intMin w.bits := by
  cases w <;> rfl

end Divisions

/-! ### Encoded instructions -/

def Operands.rd : Operands → RegIndex
  | .u rd _ | .i rd _ _ | .shift5 rd _ _ | .shift6 rd _ _ | .r rd _ _ => rd
  | _ => 0

section Codes

theorem rTypeCodes_integer (a b : RvUintXlen w) :
    (rTypeCodes w).all (fun c =>
      !integerInstructions.contains c.1 || (isaRegister a b c.1).isSome) = true := by
  cases w <;> rfl

theorem iTypeCodes_integer (a : RvUintXlen w) (imm : BitVec 12) :
    (iTypeCodes w).all (fun c =>
      !integerInstructions.contains c.1 || (isaImmediate a imm c.1).isSome) = true := by
  cases w <;> rfl

theorem shift5Codes_integer (a : RvUintXlen w) (shamt : Nat) :
    (shift5Codes w).all (fun c =>
      !integerInstructions.contains c.1 || (isaShift a shamt c.1).isSome) = true := by
  cases w <;> rfl

theorem shift6Codes_integer (a : RvUintXlen w) (shamt : Nat) :
    (shift6Codes w).all (fun c =>
      !integerInstructions.contains c.1 || (isaShift a shamt c.1).isSome) = true := by
  cases w <;> rfl

theorem uTypeCodes_integer (pc : RvUintXlen w) (imm : BitVec 20) :
    uTypeCodes.all (fun c =>
      !integerInstructions.contains c.1 || (isaUpper pc imm c.1).isSome) = true := by
  rfl

def otherInstructions (w : Xlen) : List ExecutionCb :=
  (sTypeCodes w).map Prod.fst ++ (bTypeCodes.map Prod.fst ++ (csrCodes.map Prod.fst ++
    ((lrCodes w).map Prod.fst ++ ((amoCodes w).map Prod.fst ++ (privCodes.map Prod.fst ++
      [.jal, .nop])))))

theorem otherInstructions_integer :
    (otherInstructions w).all (fun cb => !integerInstructions.contains cb) = true := by
  cases w <;> rfl

end Codes

theorem isaValue_isSome {cb : ExecutionCb} {o : Operands} {word : BitVec 32}
    (hcb : cb ∈ integerInstructions) (henc : Encodes w cb o word) (pc : RvUintXlen w)
    (x : RegIndex → RvUintXlen w) : (isaValue cb o pc x).isSome = true := by
  have hcontains : integerInstructions.contains cb = true := List.contains_iff_mem.mpr hcb
  have hother : cb ∉ otherInstructions w := fun hmem => by
    have hnot := List.all_eq_true.mp otherInstructions_integer cb hmem
    rw [hcontains] at hnot
    cases hnot
  simp only [otherInstructions, List.mem_append, not_or] at hother
  obtain ⟨hs, hb, hcsr, hlr, hamo, hpriv, hrest⟩ := hother
  have hfound {found : Bool} (h : (!integerInstructions.contains cb || found) = true) :
      found = true := by
    rw [hcontains] at h
    exact h
  cases henc with
  | rType hmem rd rs1 rs2 =>
      exact hfound (List.all_eq_true.mp (rTypeCodes_integer (x rs1) (x rs2)) _ hmem)
  | iType hmem rd rs1 imm =>
      exact hfound (List.all_eq_true.mp (iTypeCodes_integer (x rs1) imm) _ hmem)
  | shift5 hmem rd rs1 shamt =>
      exact hfound (List.all_eq_true.mp (shift5Codes_integer (x rs1) shamt.toNat) _ hmem)
  | shift6 hmem rd rs1 shamt =>
      exact hfound (List.all_eq_true.mp (shift6Codes_integer (x rs1) shamt.toNat) _ hmem)
  | uType hmem rd imm => exact hfound (List.all_eq_true.mp (uTypeCodes_integer pc imm) _ hmem)
  | sType hmem => exact absurd (List.mem_map_of_mem hmem) hs
  | bType hmem => exact absurd (List.mem_map_of_mem hmem) hb
  | csr hmem => exact absurd (List.mem_map_of_mem hmem) hcsr
  | lr hmem => exact absurd (List.mem_map_of_mem hmem) hlr
  | amo hmem => exact absurd (List.mem_map_of_mem hmem) hamo
  | priv hmem => exact absurd (List.mem_map_of_mem hmem) hpriv
  | jal => exact absurd (by simp) hrest
  | fence => exact absurd (by simp) hrest
  | fenceI => exact absurd (by simp) hrest
  | sfenceVma => exact absurd (by simp) hrest

/-- The shift amounts of the encodings are below the register width. -/
theorem shamt_lt {cb : ExecutionCb} {rd rs1 : BitVec 5} {shamt : BitVec 6} {word : BitVec 32}
    (henc : Encodes w cb (.shift6 rd rs1 shamt) word) : shamt.toNat < w.bits := by
  cases henc with
  | shift6 hmem =>
      cases w with
      | rv32 => cases hmem
      | rv64 => exact shamt.isLt

/-- The handler of an integer instruction stores the value of the instruction set. -/
theorem handler_integer (busAccess : BusAccessFunc w σ) {cb : ExecutionCb} {o : Operands}
    {word : BitVec 32} (henc : Encodes w cb o word) {d : RvCore w σ} (hx : d.x 0 = 0)
    (ho : o.DecodedTo d) {v : RvUintXlen w} (hv : isaValue cb o d.pc d.x = some v) :
    d.rd = o.rd ∧ ∃ e, cb.handler busAccess d = .ok e ∧ Writes d e v := by
  cases o with
  | r rd rs1 rs2 =>
      obtain ⟨hrd, rfl, rfl, -⟩ := ho
      exact ⟨hrd, handler_register busAccess hx hv⟩
  | i rd rs1 imm =>
      obtain ⟨hrd, rfl, himm⟩ := ho
      exact ⟨hrd, handler_immediate busAccess himm hv⟩
  | shift5 rd rs1 shamt =>
      obtain ⟨hrd, rfl, hshamt, -⟩ := ho
      have hlt := shamt.isLt
      have hn := w.bits_ge
      exact ⟨hrd, handler_shift busAccess hshamt (by omega) hv⟩
  | shift6 rd rs1 shamt =>
      obtain ⟨hrd, rfl, hshamt⟩ := ho
      exact ⟨hrd, handler_shift busAccess hshamt (shamt_lt henc) hv⟩
  | u rd imm =>
      obtain ⟨hrd, himm⟩ := ho
      exact ⟨hrd, handler_upper busAccess himm hv⟩
  | s | b | j | csr | rs1rs2 | none => cases hv

/-- The integer instructions: every encoding is decoded and executed, the destination
register receives the value of the instruction set, the zero register stays zero, nothing
but scratch fields changes otherwise, and no handler divides where C leaves the quotient
undefined. -/
theorem integer_semantics (busAccess : BusAccessFunc w σ) {cb : ExecutionCb} {o : Operands}
    {word : BitVec 32} (hcb : cb ∈ integerInstructions) (henc : Encodes w cb o word)
    {s : RvCore w σ} (hs : s.instruction = word) (hx : s.x 0 = 0) :
    (∃ d e v, rvCoreDecode s = .ok d ∧ rvCoreExecute busAccess d = .ok e ∧
      isaValue cb o s.pc s.x = some v ∧
      (∀ r, e.x r = if r = 0 then 0 else if r = o.rd then v else s.x r) ∧
      DecodeFrame { s with x := e.x } e) ∧
    DivisionsDefined (xlenIntMin w) := by
  refine ⟨?_, by rw [xlenIntMin_eq]; exact divisionsDefined⟩
  obtain ⟨v, hv⟩ := Option.isSome_iff_exists.mp (isaValue_isSome hcb henc s.pc s.x)
  have ho : ∀ rs1 rs2, o ≠ .rs1rs2 rs1 rs2 := by
    rintro rs1 rs2 rfl
    cases hv
  obtain ⟨d, hdecode, hexec, hoperands⟩ := rvCoreDecode_operands henc ho hs
  have hframe := rvCoreDecode_frame hdecode
  have hpc : d.pc = s.pc := by rw [hframe]
  have hregs : d.x = s.x := by rw [hframe]
  obtain ⟨hrd, e, hhandler, hwrites⟩ := handler_integer busAccess henc (hregs ▸ hx) hoperands
    (v := v) (by rw [hpc, hregs]; exact hv)
  refine ⟨d, e.setX 0 0, v, hdecode, ?_, hv, ?_, ?_⟩
  · simp only [rvCoreExecute, hexec, hhandler, Except.ok_bind, Except.pure_eq_ok]
  · intro r
    rw [hwrites]
    show Function.update (Function.update d.x d.rd v) 0 0 r = _
    by_cases hzero : r = 0
    · rw [hzero, Function.update_self, if_pos rfl]
    · rw [Function.update_of_ne hzero, if_neg hzero, hrd, hregs, Function.update_apply]
  · rw [hwrites, hframe]
    rfl

/-- `div x1, x1, x1` on the zero register file of the start. -/
theorem integer_semantics_div_zero :
    (∃ d e v, rvCoreDecode ({ rvCoreInit () with instruction := 0x0210C0B3 } :
        RvCore .rv64 Unit) = .ok d ∧
      rvCoreExecute (fun _ _ _ _ _ _ => .error .hang) d = .ok e ∧
      isaValue .div (.r 1 1 1) (rvCoreInit () : RvCore .rv64 Unit).pc (fun _ => 0) = some v ∧
      (∀ r, e.x r = if r = 0 then 0 else if r = 1 then v else 0) ∧
      DecodeFrame { ({ rvCoreInit () with instruction := 0x0210C0B3 } : RvCore .rv64 Unit) with
        x := e.x } e) ∧
    DivisionsDefined (xlenIntMin .rv64) := by
  have hmem : (ExecutionCb.div, 0x33#7, 4#3, 1#7) ∈ rTypeCodes .rv64 := by decide
  exact integer_semantics _ (by decide) (Encodes.rType hmem 1 1 1) rfl rfl

end RiscvEm
