import RiscvEm.Core.CsrSpec
import RiscvEm.Core.Encoding
import RiscvEm.Core.Run
import RiscvEm.Core.Search

/-!
Decoding undoes encoding: the handler and the operands of every instruction of the set
are found again.
-/

namespace RiscvEm

variable {w : Xlen} {σ : Type}

/-! ### Fields of a layout -/

section Layout

variable (func7 : BitVec 7) (rs2 rs1 : BitVec 5) (func3 : BitVec 3) (rd : BitVec 5)
  (opcode : BitVec 7)

theorem toNat_layout :
    (layout func7 rs2 rs1 func3 rd opcode).toNat =
      2 ^ 25 * func7.toNat + 2 ^ 20 * rs2.toNat + 2 ^ 15 * rs1.toNat + 2 ^ 12 * func3.toNat +
        2 ^ 7 * rd.toNat + opcode.toNat := by
  have hopcode := opcode.isLt
  have hrd := rd.isLt
  have hfunc3 := func3.isLt
  have hrs1 := rs1.isLt
  have hrs2 := rs2.isLt
  rw [layout, BitVec.toNat_append, BitVec.toNat_append, BitVec.toNat_append, BitVec.toNat_append,
    BitVec.toNat_append, ← Nat.shiftLeft_add_eq_or_of_lt hopcode,
    ← Nat.shiftLeft_add_eq_or_of_lt hrd, ← Nat.shiftLeft_add_eq_or_of_lt hfunc3,
    ← Nat.shiftLeft_add_eq_or_of_lt hrs1, ← Nat.shiftLeft_add_eq_or_of_lt hrs2]
  simp only [Nat.shiftLeft_eq]
  omega

theorem extract_layout (start : Nat) {length : Nat} (hlen : length ≤ 32) :
    (extract (layout func7 rs2 rs1 func3 rd opcode) start length).toNat =
      (2 ^ 25 * func7.toNat + 2 ^ 20 * rs2.toNat + 2 ^ 15 * rs1.toNat + 2 ^ 12 * func3.toNat +
        2 ^ 7 * rd.toNat + opcode.toNat) / 2 ^ start % 2 ^ length := by
  rw [toNat_extract _ _ hlen, toNat_layout]

theorem subCodes_layout :
    subCodes (layout func7 rs2 rs1 func3 rd opcode) =
      ⟨func3.toNat, func7.toNat / 4, func7.toNat / 2, func7.toNat, rs2.toNat⟩ := by
  have hopcode := opcode.isLt
  have hrd := rd.isLt
  have hfunc3 := func3.isLt
  have hrs1 := rs1.isLt
  have hrs2 := rs2.isLt
  have hfunc7 := func7.isLt
  simp only [subCodes, extract_layout _ _ _ _ _ _ _ (by decide : 3 ≤ 32),
    extract_layout _ _ _ _ _ _ _ (by decide : 5 ≤ 32),
    extract_layout _ _ _ _ _ _ _ (by decide : 6 ≤ 32),
    extract_layout _ _ _ _ _ _ _ (by decide : 7 ≤ 32), SubCodes.mk.injEq]
  omega

theorem opcode_layout :
    (layout func7 rs2 rs1 func3 rd opcode &&& 0x7F).toNat = opcode.toNat := by
  have hopcode := opcode.isLt
  rw [BitField.toNat_and_ones (k := 7) _ rfl, toNat_layout]
  omega

theorem setWidth_extract_layout {start : Nat} {r : BitVec 5}
    (h : (2 ^ 25 * func7.toNat + 2 ^ 20 * rs2.toNat + 2 ^ 15 * rs1.toNat + 2 ^ 12 * func3.toNat +
        2 ^ 7 * rd.toNat + opcode.toNat) / 2 ^ start % 2 ^ 5 = r.toNat) :
    (extract (layout func7 rs2 rs1 func3 rd opcode) start 5).setWidth 5 = r := by
  apply BitVec.eq_of_toNat_eq
  rw [BitVec.toNat_setWidth, extract_layout _ _ _ _ _ _ _ (by decide), h]
  exact Nat.mod_eq_of_lt r.isLt

variable {func7 rs2 rs1 func3 rd opcode} {s : RvCore w σ}

theorem regField_rd (h : s.instruction = layout func7 rs2 rs1 func3 rd opcode) :
    regField s 7 = rd := by
  have hopcode := opcode.isLt
  have hrd := rd.isLt
  rw [regField, field, h]
  exact setWidth_extract_layout _ _ _ _ _ _ (by omega)

theorem regField_rs1 (h : s.instruction = layout func7 rs2 rs1 func3 rd opcode) :
    regField s 15 = rs1 := by
  have hopcode := opcode.isLt
  have hrd := rd.isLt
  have hfunc3 := func3.isLt
  have hrs1 := rs1.isLt
  rw [regField, field, h]
  exact setWidth_extract_layout _ _ _ _ _ _ (by omega)

theorem regField_rs2 (h : s.instruction = layout func7 rs2 rs1 func3 rd opcode) :
    regField s 20 = rs2 := by
  have hopcode := opcode.isLt
  have hrd := rd.isLt
  have hfunc3 := func3.isLt
  have hrs1 := rs1.isLt
  have hrs2 := rs2.isLt
  rw [regField, field, h]
  exact setWidth_extract_layout _ _ _ _ _ _ (by omega)

end Layout

/-! ### Immediates -/

theorem toNat_extractLsb' {n : Nat} (v : BitVec n) (start length : Nat) :
    (v.extractLsb' start length).toNat = v.toNat / 2 ^ start % 2 ^ length := by
  rw [BitVec.extractLsb'_toNat, Nat.shiftRight_eq_div_pow]

theorem extract_iLayout (imm : BitVec 12) (rs1 : BitVec 5) (func3 : BitVec 3) (rd : BitVec 5)
    (opcode : BitVec 7) :
    extract (iLayout imm rs1 func3 rd opcode) 20 12 = imm.setWidth 32 := by
  have himm := imm.isLt
  have hopcode := opcode.isLt
  have hrd := rd.isLt
  have hfunc3 := func3.isLt
  have hrs1 := rs1.isLt
  apply BitVec.eq_of_toNat_eq
  rw [iLayout, extract_layout _ _ _ _ _ _ _ (by decide), toNat_extractLsb', toNat_extractLsb',
    BitVec.toNat_setWidth]
  omega

theorem toNat_uLayout_div (imm : BitVec 20) (rd : BitVec 5) (opcode : BitVec 7) :
    (uLayout imm rd opcode).toNat / 2 ^ 12 = imm.toNat := by
  have himm := imm.isLt
  have hopcode := opcode.isLt
  have hrd := rd.isLt
  rw [uLayout, toNat_layout, toNat_extractLsb', toNat_extractLsb', toNat_extractLsb',
    toNat_extractLsb']
  omega

theorem extract_uLayout (imm : BitVec 20) (rd : BitVec 5) (opcode : BitVec 7) :
    extract (uLayout imm rd opcode) 12 20 = imm.setWidth 32 := by
  have himm := imm.isLt
  apply BitVec.eq_of_toNat_eq
  rw [toNat_extract _ _ (by decide), toNat_uLayout_div, BitVec.toNat_setWidth]
  omega

/-- A bit-field of the source gives the sign-extended value of an immediate. -/
theorem signexBit_setWidth {k : Nat} (hk : k + 1 ≤ 32) (imm : BitVec (k + 1)) :
    signexBit k ((imm.setWidth 32).setWidth w.bits) = imm.signExtend w.bits := by
  have hn := w.bits_ge
  have hsame : (((imm.setWidth 32).setWidth w.bits).setWidth (k + 1)) = imm := by
    have hpow : 2 ^ (k + 1) ≤ 2 ^ 32 := Nat.pow_le_pow_right (by decide) hk
    have hpow' : 2 ^ 32 ≤ 2 ^ w.bits := w.two_pow_le
    have himm := imm.isLt
    apply BitVec.eq_of_toNat_eq
    rw [BitVec.toNat_setWidth, BitVec.toNat_setWidth, BitVec.toNat_setWidth,
      Nat.mod_eq_of_lt (by omega : imm.toNat < 2 ^ 32),
      Nat.mod_eq_of_lt (by omega : imm.toNat < 2 ^ w.bits), Nat.mod_eq_of_lt himm]
  rw [signexBit, hsame]

theorem sTypeImmediate_eq {s : RvCore w σ} {imm : BitVec 12} {rs2 rs1 : BitVec 5}
    {func3 : BitVec 3} {opcode : BitVec 7}
    (h : s.instruction = sLayout imm rs2 rs1 func3 opcode) :
    sTypeImmediate s = (imm.setWidth 32).setWidth w.bits := by
  have himm := imm.isLt
  have hopcode := opcode.isLt
  have hfunc3 := func3.isLt
  have hrs1 := rs1.isLt
  have hrs2 := rs2.isLt
  have hlow : (field s 7 5).toNat = imm.toNat % 2 ^ 5 := by
    rw [field, h, sLayout, extract_layout _ _ _ _ _ _ _ (by decide), toNat_extractLsb',
      toNat_extractLsb']
    omega
  have hhigh : ((s.instruction >>> 25) <<< 5).toNat = imm.toNat / 2 ^ 5 * 2 ^ 5 := by
    have hfunc7 : s.instruction.toNat / 2 ^ 25 = imm.toNat / 2 ^ 5 := by
      rw [h, sLayout, toNat_layout, toNat_extractLsb', toNat_extractLsb']
      omega
    rw [BitVec.toNat_shiftLeft, BitVec.toNat_ushiftRight, Nat.shiftRight_eq_div_pow,
      Nat.shiftLeft_eq, hfunc7]
    omega
  have hsum : ((s.instruction >>> 25) <<< 5) ||| field s 7 5 = imm.setWidth 32 := by
    apply BitVec.eq_of_toNat_eq
    rw [BitField.toNat_or_low (k := 5) (by omega) (by omega), hlow, hhigh, BitVec.toNat_setWidth]
    omega
  rw [sTypeImmediate, hsum]

theorem toNat_field_shiftLeft (s : RvCore w σ) (start length k : Nat)
    (hk : length + k ≤ 32) :
    (field s start length <<< k).toNat =
      s.instruction.toNat / 2 ^ start % 2 ^ length * 2 ^ k := by
  have hpos : 0 < 2 ^ length := Nat.pow_pos (by decide)
  have hlt := Nat.mod_lt (s.instruction.toNat / 2 ^ start) hpos
  have hprod : s.instruction.toNat / 2 ^ start % 2 ^ length * 2 ^ k < 2 ^ length * 2 ^ k :=
    Nat.mul_lt_mul_of_pos_right hlt (Nat.pow_pos (by decide))
  have hpow : 2 ^ length * 2 ^ k ≤ 2 ^ 32 := by
    rw [← Nat.pow_add]
    exact Nat.pow_le_pow_right (by decide) hk
  rw [BitVec.toNat_shiftLeft, field, toNat_extract _ _ (by omega), Nat.shiftLeft_eq]
  exact Nat.mod_eq_of_lt (by omega)

theorem toNat_or_four {n : Nat} {a b c d : BitVec n} {i j k : Nat} (hb : b.toNat % 2 ^ i = 0)
    (hc : c.toNat % 2 ^ j = 0) (hd : d.toNat % 2 ^ k = 0) (ha : a.toNat < 2 ^ i)
    (hab : a.toNat + b.toNat < 2 ^ j) (habc : a.toNat + b.toNat + c.toNat < 2 ^ k) :
    (a ||| b ||| c ||| d).toNat = a.toNat + b.toNat + c.toNat + d.toNat := by
  have h2 := BitField.toNat_or_high ha hb
  have h3 := BitField.toNat_or_high (by rw [h2]; exact hab) hc
  rw [BitField.toNat_or_high (by rw [h3, h2]; exact habc) hd, h3, h2]

theorem toNat_twice {n : Nat} (half : BitVec n) : (half ++ 0#1).toNat = 2 * half.toNat := by
  rw [BitVec.toNat_append, ← Nat.shiftLeft_add_eq_or_of_lt (BitVec.isLt _), Nat.shiftLeft_eq]
  show half.toNat * 2 ^ 1 + 0 = 2 * half.toNat
  omega

/-- The two fields at the ends of the formats that split an immediate. -/
theorem toNat_layout_ends {word : BitVec 32} {func7 : BitVec 7} {rs2 rs1 : BitVec 5}
    {func3 : BitVec 3} {rd : BitVec 5} {opcode : BitVec 7}
    (h : word = layout func7 rs2 rs1 func3 rd opcode) :
    word.toNat / 2 ^ 7 % 2 ^ 5 = rd.toNat ∧ word.toNat / 2 ^ 25 = func7.toNat := by
  have hopcode := opcode.isLt
  have hrd := rd.isLt
  have hfunc3 := func3.isLt
  have hrs1 := rs1.isLt
  have hrs2 := rs2.isLt
  rw [h, toNat_layout]
  omega

theorem split_func7 {word a b : Nat} (ha : a < 2 ^ 1) (hb : b < 2 ^ 6)
    (h : word / 2 ^ 25 = a * 2 ^ 6 + b) :
    word / 2 ^ 31 % 2 ^ 1 = a ∧ word / 2 ^ 25 % 2 ^ 6 = b := by
  omega

theorem split_rd {word a b : Nat} (hb : b < 2 ^ 1)
    (h : word / 2 ^ 7 % 2 ^ 5 = a * 2 ^ 1 + b) :
    word / 2 ^ 8 % 2 ^ 4 = a ∧ word / 2 ^ 7 % 2 ^ 1 = b := by
  omega

theorem bTypeOffset_parts {half : Nat} (h : half < 2 ^ 12) :
    half % 2 ^ 4 * 2 ^ 1 + half / 2 ^ 4 % 2 ^ 6 * 2 ^ 5 + half / 2 ^ 10 % 2 ^ 1 * 2 ^ 11 +
      half / 2 ^ 11 % 2 ^ 1 * 2 ^ 12 = 2 * half := by
  omega

theorem bTypeOffset_eq {s : RvCore w σ} {half : BitVec 12} {rs2 rs1 : BitVec 5}
    {func3 : BitVec 3} {opcode : BitVec 7}
    (h : s.instruction = bLayout half rs2 rs1 func3 opcode) :
    bTypeOffset s = (half ++ 0#1).signExtend w.bits := by
  have hhalf := half.isLt
  have hfunc7 : (half.extractLsb' 11 1 ++ half.extractLsb' 4 6).toNat =
      half.toNat / 2 ^ 11 % 2 ^ 1 * 2 ^ 6 + half.toNat / 2 ^ 4 % 2 ^ 6 := by
    rw [BitVec.toNat_append, ← Nat.shiftLeft_add_eq_or_of_lt (BitVec.isLt _), Nat.shiftLeft_eq,
      toNat_extractLsb', toNat_extractLsb']
  have hrd : (half.extractLsb' 0 4 ++ half.extractLsb' 10 1).toNat =
      half.toNat % 2 ^ 4 * 2 ^ 1 + half.toNat / 2 ^ 10 % 2 ^ 1 := by
    rw [BitVec.toNat_append, ← Nat.shiftLeft_add_eq_or_of_lt (BitVec.isLt _), Nat.shiftLeft_eq,
      toNat_extractLsb', toNat_extractLsb', Nat.pow_zero, Nat.div_one]
  obtain ⟨hlow, hhigh⟩ := toNat_layout_ends h
  rw [hfunc7] at hhigh
  rw [hrd] at hlow
  obtain ⟨h31, h25⟩ := split_func7 (Nat.mod_lt _ (by decide)) (Nat.mod_lt _ (by decide)) hhigh
  obtain ⟨h8, h7⟩ := split_rd (Nat.mod_lt _ (by decide)) hlow
  have hparts := bTypeOffset_parts hhalf
  clear hlow hhigh hfunc7 hrd
  have hsum : (field s 8 4 <<< 1) ||| (field s 25 6 <<< 5) ||| (field s 7 1 <<< 11) |||
      (field s 31 1 <<< 12) = (half ++ 0#1).setWidth 32 := by
    have hp1 := toNat_field_shiftLeft s 8 4 1 (by decide)
    have hp2 := toNat_field_shiftLeft s 25 6 5 (by decide)
    have hp3 := toNat_field_shiftLeft s 7 1 11 (by decide)
    have hp4 := toNat_field_shiftLeft s 31 1 12 (by decide)
    rw [h8] at hp1
    rw [h25] at hp2
    rw [h7] at hp3
    rw [h31] at hp4
    apply BitVec.eq_of_toNat_eq
    rw [toNat_or_four (i := 5) (j := 11) (k := 12) (by omega) (by omega) (by omega) (by omega)
      (by omega) (by omega), hp1, hp2, hp3, hp4, hparts, BitVec.toNat_setWidth, toNat_twice]
    omega
  rw [bTypeOffset, hsum]
  exact signexBit_setWidth (by decide) (half ++ 0#1)

theorem jTypeOffset_parts {half : Nat} (h : half < 2 ^ 20) :
    half % 2 ^ 10 * 2 ^ 1 + half / 2 ^ 10 % 2 ^ 1 * 2 ^ 11 + half / 2 ^ 11 % 2 ^ 8 * 2 ^ 12 +
      half / 2 ^ 19 % 2 ^ 1 * 2 ^ 20 = 2 * half := by
  omega

/-- The four parts of the place of an upper immediate that a jump uses. -/
theorem split_upper {word a b c d : Nat} (hb : b < 2 ^ 10) (hc : c < 2 ^ 1) (hd : d < 2 ^ 8)
    (ha : a < 2 ^ 1)
    (h : word / 2 ^ 12 = a * 2 ^ 19 + b * 2 ^ 9 + c * 2 ^ 8 + d) :
    word / 2 ^ 21 % 2 ^ 10 = b ∧ word / 2 ^ 20 % 2 ^ 1 = c ∧ word / 2 ^ 12 % 2 ^ 8 = d ∧
      word / 2 ^ 31 % 2 ^ 1 = a := by
  omega

theorem jTypeOffset_eq {s : RvCore w σ} {half : BitVec 20} {rd : BitVec 5} {opcode : BitVec 7}
    (h : s.instruction = jLayout half rd opcode) :
    jTypeOffset s = (half ++ 0#1).signExtend w.bits := by
  have hhalf := half.isLt
  have hupper : (half.extractLsb' 19 1 ++ half.extractLsb' 0 10 ++ half.extractLsb' 10 1 ++
      half.extractLsb' 11 8).toNat = half.toNat / 2 ^ 19 % 2 ^ 1 * 2 ^ 19 +
        half.toNat % 2 ^ 10 * 2 ^ 9 + half.toNat / 2 ^ 10 % 2 ^ 1 * 2 ^ 8 +
        half.toNat / 2 ^ 11 % 2 ^ 8 := by
    rw [BitVec.toNat_append, BitVec.toNat_append, BitVec.toNat_append,
      ← Nat.shiftLeft_add_eq_or_of_lt (BitVec.isLt _),
      ← Nat.shiftLeft_add_eq_or_of_lt (BitVec.isLt _),
      ← Nat.shiftLeft_add_eq_or_of_lt (BitVec.isLt _)]
    simp only [Nat.shiftLeft_eq, toNat_extractLsb', Nat.pow_zero, Nat.div_one]
    omega
  have hword : s.instruction.toNat / 2 ^ 12 = half.toNat / 2 ^ 19 % 2 ^ 1 * 2 ^ 19 +
      half.toNat % 2 ^ 10 * 2 ^ 9 + half.toNat / 2 ^ 10 % 2 ^ 1 * 2 ^ 8 +
      half.toNat / 2 ^ 11 % 2 ^ 8 := by
    rw [← hupper, h, jLayout, toNat_uLayout_div]
  obtain ⟨h21, h20, h12, h31⟩ := split_upper (Nat.mod_lt _ (by decide)) (Nat.mod_lt _ (by decide))
    (Nat.mod_lt _ (by decide)) (Nat.mod_lt _ (by decide)) hword
  have hparts := jTypeOffset_parts hhalf
  clear hword hupper
  have hsum : (field s 21 10 <<< 1) ||| (field s 20 1 <<< 11) ||| (field s 12 8 <<< 12) |||
      (field s 31 1 <<< 20) = (half ++ 0#1).setWidth 32 := by
    have hp1 := toNat_field_shiftLeft s 21 10 1 (by decide)
    have hp2 := toNat_field_shiftLeft s 20 1 11 (by decide)
    have hp3 := toNat_field_shiftLeft s 12 8 12 (by decide)
    have hp4 := toNat_field_shiftLeft s 31 1 20 (by decide)
    rw [h21] at hp1
    rw [h20] at hp2
    rw [h12] at hp3
    rw [h31] at hp4
    apply BitVec.eq_of_toNat_eq
    rw [toNat_or_four (i := 11) (j := 12) (k := 20) (by omega) (by omega) (by omega) (by omega)
      (by omega) (by omega), hp1, hp2, hp3, hp4, hparts, BitVec.toNat_setWidth, toNat_twice]
    omega
  rw [jTypeOffset, hsum]
  exact signexBit_setWidth (by decide) (half ++ 0#1)

/-! ### The entries of the codes -/

def topPreparation (w : Xlen) (opcode : Nat) : Option PreparationCb :=
  ((InstructionList.rvOpcode.hooks w).lookup opcode).bind (·.preparationCb)

/-- The lists lead to `cb`, after the operands have been prepared by `prep`. -/
def leadsTo (w : Xlen) (prep : Option PreparationCb) (cb : ExecutionCb) (opcode : Nat)
    (codes : SubCodes) : Bool :=
  InstructionList.rvOpcode.search w codes opcode == some cb && topPreparation w opcode == prep

theorem rTypeCodes_leadsTo (func12Sub5 : Nat) :
    (rTypeCodes w).all (fun c => leadsTo w (some .rType) c.1 c.2.1.toNat
      ⟨c.2.2.1.toNat, c.2.2.2.toNat / 4, c.2.2.2.toNat / 2, c.2.2.2.toNat, func12Sub5⟩) =
        true := by
  cases w <;> rfl

theorem iTypeCodes_leadsTo (func5 func6 func7 func12Sub5 : Nat) :
    (iTypeCodes w).all (fun c => leadsTo w (some .iType) c.1 c.2.1.toNat
      ⟨c.2.2.toNat, func5, func6, func7, func12Sub5⟩) = true := by
  cases w <;> rfl

theorem shift5Codes_leadsTo (func12Sub5 : Nat) :
    (shift5Codes w).all (fun c => leadsTo w (some .iType) c.1 c.2.1.toNat
      ⟨c.2.2.1.toNat, c.2.2.2.toNat / 4, c.2.2.2.toNat / 2, c.2.2.2.toNat, func12Sub5⟩) =
        true := by
  cases w <;> rfl

theorem shift5Codes_even : (shift5Codes w).all (fun c => c.2.2.2.toNat % 2 == 0) = true := by
  cases w <;> rfl

theorem shift6Codes_leadsTo (func5 func7 func12Sub5 : Nat) :
    (shift6Codes w).all (fun c => leadsTo w (some .iType) c.1 0x13
      ⟨c.2.1.toNat, func5, c.2.2.toNat, func7, func12Sub5⟩) = true := by
  cases w <;> rfl

theorem sTypeCodes_leadsTo (func5 func6 func7 func12Sub5 : Nat) :
    (sTypeCodes w).all (fun c => leadsTo w (some .sType) c.1 0x23
      ⟨c.2.toNat, func5, func6, func7, func12Sub5⟩) = true := by
  cases w <;> rfl

theorem bTypeCodes_leadsTo (func5 func6 func7 func12Sub5 : Nat) :
    bTypeCodes.all (fun c => leadsTo w (some .bType) c.1 0x63
      ⟨c.2.toNat, func5, func6, func7, func12Sub5⟩) = true := by
  cases w <;> rfl

theorem uTypeCodes_leadsTo (codes : SubCodes) :
    uTypeCodes.all (fun c => leadsTo w (some .uType) c.1 c.2.toNat codes) = true := by
  cases w <;> rfl

theorem jal_leadsTo (codes : SubCodes) : leadsTo w (some .jType) .jal 0x6F codes = true := by
  cases w <;> rfl

theorem csrCodes_leadsTo (func5 func6 func7 func12Sub5 : Nat) :
    csrCodes.all (fun c => leadsTo w (some .iType) c.1 0x73
      ⟨c.2.toNat, func5, func6, func7, func12Sub5⟩) = true := by
  cases w <;> rfl

theorem lrCodes_leadsTo (func6 func7 func12Sub5 : Nat) :
    (lrCodes w).all (fun c => leadsTo w (some .rType) c.1 0x2F
      ⟨c.2.1.toNat, c.2.2.toNat, func6, func7, func12Sub5⟩) = true := by
  cases w <;> rfl

theorem amoCodes_leadsTo (func6 func7 func12Sub5 : Nat) :
    (amoCodes w).all (fun c => leadsTo w (some .rType) c.1 0x2F
      ⟨c.2.1.toNat, c.2.2.toNat, func6, func7, func12Sub5⟩) = true := by
  cases w <;> rfl

theorem fence_leadsTo (codes : SubCodes) : leadsTo w none .nop 0x0F codes = true := by
  cases w <;> rfl

theorem privCodes_leadsTo :
    privCodes.all (fun c => leadsTo w (some .iType) c.1 0x73
      ⟨0, c.2.toNat / 2 ^ 7, c.2.toNat / 2 ^ 6, c.2.toNat / 2 ^ 5, c.2.toNat % 2 ^ 5⟩) =
        true := by
  cases w <;> rfl

theorem sfenceVma_leadsTo (func5 func6 func12Sub5 : Nat) :
    leadsTo w (some .iType) .nop 0x73 ⟨0, func5, func6, 0x09, func12Sub5⟩ = true := by
  cases w <;> rfl

def RvCore.prepared (s : RvCore w σ) : Option PreparationCb → RvCore w σ
  | none => s.resetDecode
  | some prep => (prep.run s.resetDecode).1

/-- A word whose codes lead to `cb` is decoded to it, with the operands prepared. -/
theorem rvCoreDecode_of_leadsTo {s : RvCore w σ} {func7 : BitVec 7} {rs2 rs1 : BitVec 5}
    {func3 : BitVec 3} {rd : BitVec 5} {opcode : BitVec 7} {prep : Option PreparationCb}
    {cb : ExecutionCb} {codes : SubCodes}
    (hword : s.instruction = layout func7 rs2 rs1 func3 rd opcode)
    (hcodes : codes = ⟨func3.toNat, func7.toNat / 4, func7.toNat / 2, func7.toNat, rs2.toNat⟩)
    (h : leadsTo w prep cb opcode.toNat codes = true) :
    ∃ s', rvCoreDecode s = .ok s' ∧ s'.executeCb = some cb ∧
      OperandsKept (s.prepared prep) s' := by
  rw [leadsTo, Bool.and_eq_true, beq_iff_eq, beq_iff_eq, hcodes,
    ← subCodes_layout _ _ _ _ rd opcode, ← opcode_layout func7 rs2 rs1 func3 rd opcode,
    ← hword] at h
  obtain ⟨hsearch, htop⟩ := h
  obtain ⟨s', hook, hdecode, hcb, hlookup, hkept⟩ := rvCoreDecode_of_search hsearch
  refine ⟨s', hdecode, hcb, ?_⟩
  rw [topPreparation, hlookup, Option.bind_some] at htop
  rw [InstructionHook.prepare, htop] at hkept
  cases prep with
  | none => exact hkept
  | some prep => exact hkept

/-! ### Operands -/

def Operands.DecodedTo (s : RvCore w σ) : Operands → Prop
  | .r rd rs1 rs2 => s.rd = rd ∧ s.rs1 = rs1 ∧ s.rs2 = rs2 ∧ s.immediate = 0
  | .i rd rs1 imm => s.rd = rd ∧ s.rs1 = rs1 ∧ signedImmediate s = imm.signExtend w.bits
  | .shift5 rd rs1 shamt =>
      s.rd = rd ∧ s.rs1 = rs1 ∧ shiftImmediate s = shamt.toNat ∧
        shiftImmediateWord s = shamt.toNat
  | .shift6 rd rs1 shamt => s.rd = rd ∧ s.rs1 = rs1 ∧ shiftImmediate s = shamt.toNat
  | .s rs1 rs2 imm => s.rs1 = rs1 ∧ s.rs2 = rs2 ∧ signedImmediate s = imm.signExtend w.bits
  | .b rs1 rs2 half => s.rs1 = rs1 ∧ s.rs2 = rs2 ∧ s.jumpOffset = (half ++ 0#1).signExtend w.bits
  | .u rd imm => s.rd = rd ∧ s.immediate <<< 12 = (imm ++ 0#12).signExtend w.bits
  | .j rd half => s.rd = rd ∧ s.jumpOffset = (half ++ 0#1).signExtend w.bits
  | .csr rd rs1 addr => s.rd = rd ∧ s.rs1 = rs1 ∧ s.csrAddr = addr.toNat
  | .rs1rs2 rs1 rs2 => s.rs1 = rs1 ∧ s.rs2 = rs2
  | .none => True

theorem immediate_iLayout {s : RvCore w σ} {imm : BitVec 12} {rs1 : BitVec 5} {func3 : BitVec 3}
    {rd : BitVec 5} {opcode : BitVec 7} (h : s.instruction = iLayout imm rs1 func3 rd opcode) :
    (s.prepared (some .iType)).immediate = (imm.setWidth 32).setWidth w.bits := by
  show (extract s.instruction 20 12).setWidth w.bits = _
  rw [h, extract_iLayout]

theorem toNat_immediate {imm : BitVec 12} :
    ((imm.setWidth 32).setWidth w.bits).toNat = imm.toNat := by
  have himm := imm.isLt
  have hpow : 2 ^ 32 ≤ 2 ^ w.bits := w.two_pow_le
  rw [BitVec.toNat_setWidth, BitVec.toNat_setWidth,
    Nat.mod_eq_of_lt (by omega : imm.toNat < 2 ^ 32), Nat.mod_eq_of_lt (by omega)]

theorem shiftImmediate_eq {s : RvCore w σ} {imm : BitVec 12} {k : Nat}
    (himm : s.immediate = (imm.setWidth 32).setWidth w.bits) (hmask : shiftOpMask w = 2 ^ k - 1)
    (hk : k ≤ 12) : shiftImmediate s = imm.toNat % 2 ^ k := by
  have hpow : 2 ^ k ≤ 2 ^ 12 := Nat.pow_le_pow_right (by decide) hk
  have hones : (BitVec.ofNat w.bits (shiftOpMask w)).toNat = 2 ^ k - 1 := by
    rw [hmask]
    exact w.toNat_ofNat (by omega)
  rw [shiftImmediate, BitField.toNat_and_ones _ hones, himm, toNat_immediate]

theorem shiftImmediateWord_eq {s : RvCore w σ} {imm : BitVec 12}
    (himm : s.immediate = (imm.setWidth 32).setWidth w.bits) :
    shiftImmediateWord s = imm.toNat % 2 ^ 5 := by
  have hpow' : 2 ^ 32 ≤ 2 ^ w.bits := w.two_pow_le
  have hones : (0x1F#w.bits).toNat = 2 ^ 5 - 1 := by
    rw [BitVec.toNat_ofNat]
    exact Nat.mod_eq_of_lt (by omega)
  rw [shiftImmediateWord, BitField.toNat_and_ones _ hones, himm, toNat_immediate]

theorem upperImmediate_eq (imm : BitVec 20) :
    signexBit 19 ((imm.setWidth 32).setWidth w.bits) <<< 12 =
      (imm ++ 0#12).signExtend w.bits := by
  have hn := w.bits_ge
  rw [signexBit_setWidth (by decide) imm]
  apply BitVec.eq_of_getLsbD_eq
  intro i hi
  rw [BitVec.getLsbD_shiftLeft, BitVec.getLsbD_signExtend, BitVec.getLsbD_signExtend,
    BitVec.getLsbD_append, BitVec.msb_append]
  have hlt : i - 12 < w.bits := by omega
  by_cases hlow : i < 12
  · have hword : i < 32 := by omega
    simp [hi, hlow, hword]
  · by_cases hword : i < 32
    · have himm : i - 12 < 20 := by omega
      simp [hi, hlow, hword, himm, hlt]
    · have himm : ¬ i - 12 < 20 := by omega
      simp [hi, hlow, hword, himm, hlt]

/-! ### The formats -/

section Formats

variable {s : RvCore w σ} {func7 : BitVec 7} {rs2 rs1 : BitVec 5} {func3 : BitVec 3}
  {rd : BitVec 5} {opcode : BitVec 7} {cb : ExecutionCb} {codes : SubCodes}

theorem rvCoreDecode_rType (hword : s.instruction = layout func7 rs2 rs1 func3 rd opcode)
    (hcodes : codes = ⟨func3.toNat, func7.toNat / 4, func7.toNat / 2, func7.toNat, rs2.toNat⟩)
    (h : leadsTo w (some .rType) cb opcode.toNat codes = true) :
    ∃ s', rvCoreDecode s = .ok s' ∧ s'.executeCb = some cb ∧ s'.rd = rd ∧ s'.rs1 = rs1 ∧
      s'.rs2 = rs2 ∧ s'.immediate = 0 := by
  obtain ⟨s', hdecode, hcb, hrd, hrs1, hrs2, himm, -⟩ := rvCoreDecode_of_leadsTo hword hcodes h
  have hword' : s.resetDecode.instruction = layout func7 rs2 rs1 func3 rd opcode := hword
  exact ⟨s', hdecode, hcb, hrd.trans (regField_rd hword'), hrs1.trans (regField_rs1 hword'),
    hrs2.trans (regField_rs2 hword'), himm⟩

theorem rvCoreDecode_iType {imm : BitVec 12}
    (hword : s.instruction = iLayout imm rs1 func3 rd opcode)
    (hcodes : codes =
      ⟨func3.toNat, imm.toNat / 2 ^ 7, imm.toNat / 2 ^ 6, imm.toNat / 2 ^ 5, imm.toNat % 2 ^ 5⟩)
    (h : leadsTo w (some .iType) cb opcode.toNat codes = true) :
    ∃ s', rvCoreDecode s = .ok s' ∧ s'.executeCb = some cb ∧ s'.rd = rd ∧ s'.rs1 = rs1 ∧
      s'.immediate = (imm.setWidth 32).setWidth w.bits := by
  have himm := imm.isLt
  have hcodes' : codes = ⟨func3.toNat, (imm.extractLsb' 5 7).toNat / 4,
      (imm.extractLsb' 5 7).toNat / 2, (imm.extractLsb' 5 7).toNat,
      (imm.extractLsb' 0 5).toNat⟩ := by
    rw [hcodes, toNat_extractLsb', toNat_extractLsb', SubCodes.mk.injEq]
    omega
  obtain ⟨s', hdecode, hcb, hrd, hrs1, -, himm', -⟩ := rvCoreDecode_of_leadsTo hword hcodes' h
  have hword' : s.resetDecode.instruction = iLayout imm rs1 func3 rd opcode := hword
  exact ⟨s', hdecode, hcb, hrd.trans (regField_rd hword'), hrs1.trans (regField_rs1 hword'),
    himm'.trans (immediate_iLayout hword)⟩

theorem rvCoreDecode_sType {imm : BitVec 12}
    (hword : s.instruction = sLayout imm rs2 rs1 func3 opcode)
    (hcodes : codes = ⟨func3.toNat, (imm.extractLsb' 5 7).toNat / 4,
      (imm.extractLsb' 5 7).toNat / 2, (imm.extractLsb' 5 7).toNat, rs2.toNat⟩)
    (h : leadsTo w (some .sType) cb opcode.toNat codes = true) :
    ∃ s', rvCoreDecode s = .ok s' ∧ s'.executeCb = some cb ∧ s'.rs1 = rs1 ∧ s'.rs2 = rs2 ∧
      s'.immediate = (imm.setWidth 32).setWidth w.bits := by
  obtain ⟨s', hdecode, hcb, -, hrs1, hrs2, himm, -⟩ := rvCoreDecode_of_leadsTo hword hcodes h
  have hword' : s.resetDecode.instruction = sLayout imm rs2 rs1 func3 opcode := hword
  exact ⟨s', hdecode, hcb, hrs1.trans (regField_rs1 hword'), hrs2.trans (regField_rs2 hword'),
    himm.trans (sTypeImmediate_eq hword')⟩

theorem rvCoreDecode_bType {half : BitVec 12}
    (hword : s.instruction = bLayout half rs2 rs1 func3 opcode)
    (hcodes : codes = ⟨func3.toNat, (half.extractLsb' 11 1 ++ half.extractLsb' 4 6).toNat / 4,
      (half.extractLsb' 11 1 ++ half.extractLsb' 4 6).toNat / 2,
      (half.extractLsb' 11 1 ++ half.extractLsb' 4 6).toNat, rs2.toNat⟩)
    (h : leadsTo w (some .bType) cb opcode.toNat codes = true) :
    ∃ s', rvCoreDecode s = .ok s' ∧ s'.executeCb = some cb ∧ s'.rs1 = rs1 ∧ s'.rs2 = rs2 ∧
      s'.jumpOffset = (half ++ 0#1).signExtend w.bits := by
  obtain ⟨s', hdecode, hcb, -, hrs1, hrs2, -, hjump⟩ := rvCoreDecode_of_leadsTo hword hcodes h
  have hword' : s.resetDecode.instruction = bLayout half rs2 rs1 func3 opcode := hword
  exact ⟨s', hdecode, hcb, hrs1.trans (regField_rs1 hword'), hrs2.trans (regField_rs2 hword'),
    hjump.trans (bTypeOffset_eq hword')⟩

theorem rvCoreDecode_uType {imm : BitVec 20} (hword : s.instruction = uLayout imm rd opcode)
    (h : ∀ codes, leadsTo w (some .uType) cb opcode.toNat codes = true) :
    ∃ s', rvCoreDecode s = .ok s' ∧ s'.executeCb = some cb ∧ s'.rd = rd ∧
      s'.immediate = signexBit 19 ((imm.setWidth 32).setWidth w.bits) := by
  obtain ⟨s', hdecode, hcb, hrd, -, -, himm, -⟩ := rvCoreDecode_of_leadsTo hword rfl (h _)
  have hword' : s.resetDecode.instruction = uLayout imm rd opcode := hword
  refine ⟨s', hdecode, hcb, hrd.trans (regField_rd hword'), himm.trans ?_⟩
  show signexBit 19 ((extract s.instruction 12 20).setWidth w.bits) = _
  rw [hword, extract_uLayout]

theorem rvCoreDecode_jType {half : BitVec 20} (hword : s.instruction = jLayout half rd opcode)
    (h : ∀ codes, leadsTo w (some .jType) cb opcode.toNat codes = true) :
    ∃ s', rvCoreDecode s = .ok s' ∧ s'.executeCb = some cb ∧ s'.rd = rd ∧
      s'.jumpOffset = (half ++ 0#1).signExtend w.bits := by
  obtain ⟨s', hdecode, hcb, hrd, -, -, -, hjump⟩ := rvCoreDecode_of_leadsTo hword rfl (h _)
  have hword' : s.resetDecode.instruction = jLayout half rd opcode := hword
  exact ⟨s', hdecode, hcb, hrd.trans (regField_rd hword'), hjump.trans (jTypeOffset_eq hword')⟩

end Formats

theorem toNat_signedImmediate {s : RvCore w σ} {imm : BitVec 12}
    (h : s.immediate = (imm.setWidth 32).setWidth w.bits) :
    signedImmediate s = imm.signExtend w.bits := by
  rw [signedImmediate, h]
  exact signexBit_setWidth (by decide) imm

theorem csrAddr_eq {s : RvCore w σ} {imm : BitVec 12}
    (h : s.immediate = (imm.setWidth 32).setWidth w.bits) : s.csrAddr = imm.toNat := by
  have himm := imm.isLt
  rw [RvCore.csrAddr, BitVec.toNat_setWidth, h, toNat_immediate]
  exact Nat.mod_eq_of_lt (by omega)

/-- The codes that the lists are searched with, for a code of high bits and an operand
below it. -/
theorem toNat_append_div {m n : Nat} (high : BitVec m) (low : BitVec n) :
    (high ++ low).toNat / 2 ^ n = high.toNat ∧ (high ++ low).toNat % 2 ^ n = low.toNat := by
  have hlow := low.isLt
  rw [BitVec.toNat_append, ← Nat.shiftLeft_add_eq_or_of_lt hlow, Nat.shiftLeft_eq,
    Nat.mul_comm, Nat.mul_add_div (Nat.pow_pos (by decide)), Nat.mul_add_mod,
    Nat.div_eq_of_lt hlow, Nat.mod_eq_of_lt hlow]
  exact ⟨Nat.add_zero _, rfl⟩

theorem iLayout_append (func7 : BitVec 7) (rs2 rs1 : BitVec 5) (func3 : BitVec 3) (rd : BitVec 5)
    (opcode : BitVec 7) :
    iLayout (func7 ++ rs2) rs1 func3 rd opcode = layout func7 rs2 rs1 func3 rd opcode := by
  obtain ⟨hhigh, hlow⟩ := toNat_append_div func7 rs2
  have h7 : (func7 ++ rs2).extractLsb' 5 7 = func7 := by
    apply BitVec.eq_of_toNat_eq
    rw [toNat_extractLsb', hhigh]
    exact Nat.mod_eq_of_lt func7.isLt
  have h5 : (func7 ++ rs2).extractLsb' 0 5 = rs2 := by
    apply BitVec.eq_of_toNat_eq
    rw [toNat_extractLsb', Nat.pow_zero, Nat.div_one, hlow]
  rw [iLayout, h7, h5]

/-- The ordering bits of an atomic instruction stand below its code. -/
theorem toNat_ordering (func5 : BitVec 5) (aq rl : BitVec 1) :
    (func5 ++ aq ++ rl).toNat / 4 = func5.toNat := by
  have hrl := (toNat_append_div (func5 ++ aq) rl).1
  have haq := (toNat_append_div func5 aq).1
  omega

theorem codes_ordering (func3 : BitVec 3) (func5 : BitVec 5) (aq rl : BitVec 1)
    (rs2 : BitVec 5) :
    (⟨func3.toNat, func5.toNat, (func5 ++ aq ++ rl).toNat / 2, (func5 ++ aq ++ rl).toNat,
      rs2.toNat⟩ : SubCodes) = ⟨func3.toNat, (func5 ++ aq ++ rl).toNat / 4,
        (func5 ++ aq ++ rl).toNat / 2, (func5 ++ aq ++ rl).toNat, rs2.toNat⟩ := by
  rw [toNat_ordering]

/-- Every instruction but SFENCE.VMA is decoded to its handler and its operands. -/
theorem rvCoreDecode_operands {cb : ExecutionCb} {o : Operands} {word : BitVec 32}
    (h : Encodes w cb o word) (ho : ∀ rs1 rs2, o ≠ .rs1rs2 rs1 rs2) {s : RvCore w σ}
    (hs : s.instruction = word) :
    ∃ s', rvCoreDecode s = .ok s' ∧ s'.executeCb = some cb ∧ o.DecodedTo s' := by
  cases h with
  | rType hmem rd rs1 rs2 =>
      have hlead := List.all_eq_true.mp (rTypeCodes_leadsTo rs2.toNat) _ hmem
      obtain ⟨s', hdecode, hcb, hoperands⟩ := rvCoreDecode_rType hs rfl hlead
      exact ⟨s', hdecode, hcb, hoperands⟩
  | iType hmem rd rs1 imm =>
      have hlead a b c d := List.all_eq_true.mp (iTypeCodes_leadsTo (w := w) a b c d) _ hmem
      obtain ⟨s', hdecode, hcb, hrd, hrs1, himm⟩ := rvCoreDecode_iType hs rfl (hlead _ _ _ _)
      exact ⟨s', hdecode, hcb, hrd, hrs1, toNat_signedImmediate himm⟩
  | @shift5 cb opcode func3 func7 hmem rd rs1 shamt =>
      obtain ⟨hhigh, hlow⟩ := toNat_append_div func7 shamt
      have hshamt := shamt.isLt
      have hword : s.instruction = iLayout (func7 ++ shamt) rs1 func3 rd opcode := by
        rw [hs, iLayout_append]
      have hcodes : (⟨func3.toNat, func7.toNat / 4, func7.toNat / 2, func7.toNat, shamt.toNat⟩ :
          SubCodes) = ⟨func3.toNat, (func7 ++ shamt).toNat / 2 ^ 7, (func7 ++ shamt).toNat / 2 ^ 6,
            (func7 ++ shamt).toNat / 2 ^ 5, (func7 ++ shamt).toNat % 2 ^ 5⟩ := by
        rw [SubCodes.mk.injEq]
        omega
      have hlead := List.all_eq_true.mp (shift5Codes_leadsTo (w := w) shamt.toNat) _ hmem
      obtain ⟨s', hdecode, hcb, hrd, hrs1, himm⟩ := rvCoreDecode_iType hword hcodes hlead
      refine ⟨s', hdecode, hcb, hrd, hrs1, ?_, ?_⟩
      · have heven := List.all_eq_true.mp (shift5Codes_even (w := w)) _ hmem
        have heven' : func7.toNat % 2 = 0 := beq_iff_eq.mp heven
        cases w with
        | rv32 =>
            rw [shiftImmediate_eq himm (k := 5) rfl (by decide)]
            exact hlow
        | rv64 =>
            rw [shiftImmediate_eq himm (k := 6) rfl (by decide)]
            omega
      · rw [shiftImmediateWord_eq himm]
        exact hlow
  | @shift6 cb func3 func6 hmem rd rs1 shamt =>
      obtain ⟨hhigh, hlow⟩ := toNat_append_div func6 shamt
      have hshamt := shamt.isLt
      have hcodes : (⟨func3.toNat, (func6 ++ shamt).toNat / 2 ^ 7, func6.toNat,
          (func6 ++ shamt).toNat / 2 ^ 5, (func6 ++ shamt).toNat % 2 ^ 5⟩ : SubCodes) =
          ⟨func3.toNat, (func6 ++ shamt).toNat / 2 ^ 7, (func6 ++ shamt).toNat / 2 ^ 6,
            (func6 ++ shamt).toNat / 2 ^ 5, (func6 ++ shamt).toNat % 2 ^ 5⟩ := by
        rw [hhigh]
      have hlead a b c := List.all_eq_true.mp (shift6Codes_leadsTo (w := w) a b c) _ hmem
      obtain ⟨s', hdecode, hcb, hrd, hrs1, himm⟩ := rvCoreDecode_iType hs hcodes (hlead _ _ _)
      refine ⟨s', hdecode, hcb, hrd, hrs1, ?_⟩
      cases w with
      | rv32 => cases hmem
      | rv64 =>
          rw [shiftImmediate_eq himm (k := 6) rfl (by decide)]
          exact hlow
  | sType hmem rs1 rs2 imm =>
      have hlead a b c d := List.all_eq_true.mp (sTypeCodes_leadsTo (w := w) a b c d) _ hmem
      obtain ⟨s', hdecode, hcb, hrs1, hrs2, himm⟩ := rvCoreDecode_sType hs rfl (hlead _ _ _ _)
      exact ⟨s', hdecode, hcb, hrs1, hrs2, toNat_signedImmediate himm⟩
  | bType hmem rs1 rs2 half =>
      have hlead a b c d := List.all_eq_true.mp (bTypeCodes_leadsTo (w := w) a b c d) _ hmem
      obtain ⟨s', hdecode, hcb, hoperands⟩ := rvCoreDecode_bType hs rfl (hlead _ _ _ _)
      exact ⟨s', hdecode, hcb, hoperands⟩
  | uType hmem rd imm =>
      have hlead codes := List.all_eq_true.mp (uTypeCodes_leadsTo (w := w) codes) _ hmem
      obtain ⟨s', hdecode, hcb, hrd, himm⟩ := rvCoreDecode_uType hs hlead
      refine ⟨s', hdecode, hcb, hrd, ?_⟩
      rw [himm, upperImmediate_eq]
  | jal rd half =>
      obtain ⟨s', hdecode, hcb, hoperands⟩ := rvCoreDecode_jType hs jal_leadsTo
      exact ⟨s', hdecode, hcb, hoperands⟩
  | csr hmem rd rs1 addr =>
      have hlead a b c d := List.all_eq_true.mp (csrCodes_leadsTo (w := w) a b c d) _ hmem
      obtain ⟨s', hdecode, hcb, hrd, hrs1, himm⟩ := rvCoreDecode_iType hs rfl (hlead _ _ _ _)
      exact ⟨s', hdecode, hcb, hrd, hrs1, csrAddr_eq himm⟩
  | @lr cb func3 func5 hmem aq rl rd rs1 =>
      have hlead a b c := List.all_eq_true.mp (lrCodes_leadsTo (w := w) a b c) _ hmem
      obtain ⟨s', hdecode, hcb, hoperands⟩ := rvCoreDecode_rType hs
        (codes_ordering func3 func5 aq rl 0) (hlead _ _ _)
      exact ⟨s', hdecode, hcb, hoperands⟩
  | @amo cb func3 func5 hmem aq rl rd rs1 rs2 =>
      have hlead a b c := List.all_eq_true.mp (amoCodes_leadsTo (w := w) a b c) _ hmem
      obtain ⟨s', hdecode, hcb, hoperands⟩ := rvCoreDecode_rType hs
        (codes_ordering func3 func5 aq rl rs2) (hlead _ _ _)
      exact ⟨s', hdecode, hcb, hoperands⟩
  | fence imm rd rs1 =>
      obtain ⟨s', hdecode, hcb, -⟩ := rvCoreDecode_of_leadsTo hs rfl (fence_leadsTo _)
      exact ⟨s', hdecode, hcb, trivial⟩
  | fenceI imm rd rs1 =>
      obtain ⟨s', hdecode, hcb, -⟩ := rvCoreDecode_of_leadsTo hs rfl (fence_leadsTo _)
      exact ⟨s', hdecode, hcb, trivial⟩
  | priv hmem =>
      have hlead := List.all_eq_true.mp (privCodes_leadsTo (w := w)) _ hmem
      obtain ⟨s', hdecode, hcb, -⟩ := rvCoreDecode_iType hs rfl hlead
      exact ⟨s', hdecode, hcb, trivial⟩
  | sfenceVma rs1 rs2 => exact absurd rfl (ho rs1 rs2)

/-- Decoding undoes encoding. SFENCE.VMA is decoded as an instruction of the I format,
which has no second source register; its handler does nothing. -/
theorem rvCoreDecode_encodes {cb : ExecutionCb} {o : Operands} {word : BitVec 32}
    (h : Encodes w cb o word) {s : RvCore w σ} (hs : s.instruction = word) :
    ∃ s', rvCoreDecode s = .ok s' ∧ s'.executeCb = some cb ∧
      ((∀ rs1 rs2, o ≠ .rs1rs2 rs1 rs2) → o.DecodedTo s') ∧
      ∀ rs1 rs2, o = .rs1rs2 rs1 rs2 → s'.rs1 = rs1 := by
  by_cases ho : ∃ rs1 rs2, o = .rs1rs2 rs1 rs2
  · obtain ⟨rs1, rs2, rfl⟩ := ho
    cases h with
    | sfenceVma rs1 rs2 =>
        obtain ⟨s', hdecode, hcb, -, hrs1, -⟩ :=
          rvCoreDecode_of_leadsTo hs rfl (sfenceVma_leadsTo _ _ _)
        refine ⟨s', hdecode, hcb, fun hne => absurd rfl (hne rs1 rs2), fun _ _ ho => ?_⟩
        cases ho
        exact hrs1.trans (regField_rs1 (s := s.resetDecode) hs)
  · have hne : ∀ rs1 rs2, o ≠ .rs1rs2 rs1 rs2 := fun rs1 rs2 heq => ho ⟨rs1, rs2, heq⟩
    obtain ⟨s', hdecode, hcb, hoperands⟩ := rvCoreDecode_operands h hne hs
    exact ⟨s', hdecode, hcb, fun _ => hoperands, fun rs1 rs2 heq => absurd heq (hne rs1 rs2)⟩

/-- `mul x3, x1, x2`. -/
theorem rvCoreDecode_encodes_mul :
    ∃ s', rvCoreDecode (w := .rv32) ({ rvCoreInit () with instruction := 0x022081B3 } :
        RvCore .rv32 Unit) = .ok s' ∧ s'.executeCb = some .mul ∧
      ((∀ rs1 rs2, Operands.r 3 1 2 ≠ .rs1rs2 rs1 rs2) → (Operands.r 3 1 2).DecodedTo s') ∧
      ∀ rs1 rs2, Operands.r 3 1 2 = .rs1rs2 rs1 rs2 → s'.rs1 = rs1 := by
  have hmem : (ExecutionCb.mul, 0x33#7, 0#3, 1#7) ∈ rTypeCodes .rv32 := by decide
  exact rvCoreDecode_encodes (Encodes.rType hmem 3 1 2) rfl

/-- `sfence.vma x0, x1` leaves the second source register at zero. -/
theorem sfenceVma_rs2_lost :
    ¬ ∀ (cb : ExecutionCb) (o : Operands) (word : BitVec 32), Encodes .rv32 cb o word →
        ∀ s : RvCore .rv32 Unit, s.instruction = word →
          ∃ s', rvCoreDecode s = .ok s' ∧ s'.executeCb = some cb ∧ o.DecodedTo s' := by
  intro h
  have hzero : (rvCoreDecode ({ rvCoreInit () with instruction := 0x12100073 } :
      RvCore .rv32 Unit)).toOption.any (fun s' => s'.rs2 == 0) = true := by
    decide +kernel
  obtain ⟨s₁, hdecode₁, hrs2₁⟩ := Except.exists_of_any_toOption hzero
  obtain ⟨s', hdecode, -, -, hrs2⟩ := h .nop (.rs1rs2 0 1) 0x12100073 (Encodes.sfenceVma 0 1)
    { rvCoreInit () with instruction := 0x12100073 } rfl
  rw [hdecode] at hdecode₁
  obtain rfl := Except.ok.inj hdecode₁
  rw [beq_iff_eq, hrs2] at hrs2₁
  exact absurd hrs2₁ (by decide)

end RiscvEm
