import RiscvEm.Core.Instr
import RiscvEm.Lib.WideProduct

/-!
The wide products of `riscv_helper.h` are exact, and the instructions that return a high
word return that of the exact product.
-/

namespace RiscvEm

variable {w : Xlen} {σ : Type}

/-! ### The unsigned product -/

section Unsigned

variable {half : Nat} {a b : BitVec (half + half)}

theorem two_pow_add_self (half : Nat) : 2 ^ (half + half) = 2 ^ half * 2 ^ half :=
  Nat.pow_add 2 half half

theorem toNat_lowHalf (v : BitVec (half + half)) :
    ((v.setWidth half).setWidth (half + half)).toNat = v.toNat % 2 ^ half := by
  rw [BitVec.toNat_setWidth_of_le (Nat.le_add_left half half), BitVec.toNat_setWidth]

theorem toNat_highHalf (v : BitVec (half + half)) : (v >>> half).toNat = v.toNat / 2 ^ half := by
  rw [BitVec.toNat_ushiftRight, Nat.shiftRight_eq_div_pow]

theorem highHalf_lt (v : BitVec (half + half)) : v.toNat / 2 ^ half < 2 ^ half :=
  Nat.div_lt_of_lt_mul (two_pow_add_self half ▸ v.isLt)

theorem toNat_mul_halves (ha : a.toNat < 2 ^ half) (hb : b.toNat < 2 ^ half) :
    (a * b).toNat = a.toNat * b.toNat := by
  rw [BitVec.toNat_mul, Nat.mod_eq_of_lt]
  rw [two_pow_add_self]
  exact Nat.mul_lt_mul'' ha hb

/-- The sum of the middle column: the upper half of the lowest product and the lower halves
of the middle ones. -/
theorem toNat_middle {p0 p1 p2 : BitVec (half + half)} (hhalf : 2 ≤ half) :
    (p0 >>> half + (p1.setWidth half).setWidth (half + half) +
        (p2.setWidth half).setWidth (half + half)).toNat =
      p0.toNat / 2 ^ half + p1.toNat % 2 ^ half + p2.toNat % 2 ^ half := by
  have hB : 2 ^ 2 ≤ 2 ^ half := Nat.pow_le_pow_right (by decide) hhalf
  have hlt := (WideProduct.middle_lt p1.toNat p2.toNat hB
    (two_pow_add_self half ▸ p0.isLt)).1
  rw [BitVec.toNat_add, BitVec.toNat_add, toNat_highHalf, toNat_lowHalf, toNat_lowHalf,
    Nat.mod_add_mod, Nat.mod_eq_of_lt (two_pow_add_self half ▸ hlt)]

theorem toNat_carry {p0 p1 p2 : BitVec (half + half)} (hhalf : 2 ≤ half) :
    ((((p0 >>> half + (p1.setWidth half).setWidth (half + half) +
        (p2.setWidth half).setWidth (half + half)) >>> half).setWidth half).setWidth
          (half + half)).toNat =
      (p0.toNat / 2 ^ half + p1.toNat % 2 ^ half + p2.toNat % 2 ^ half) / 2 ^ half := by
  have hB : 2 ^ 2 ≤ 2 ^ half := Nat.pow_le_pow_right (by decide) hhalf
  have hlt := (WideProduct.middle_lt p1.toNat p2.toNat hB
    (two_pow_add_self half ▸ p0.isLt)).2
  rw [toNat_lowHalf, toNat_highHalf, toNat_middle hhalf, Nat.mod_eq_of_lt hlt]

theorem toNat_lowWord (p0 p1 p2 : BitVec (half + half)) :
    (p0 + p1 <<< half + p2 <<< half).toNat =
      (p0.toNat + p1.toNat * 2 ^ half + p2.toNat * 2 ^ half) % (2 ^ half * 2 ^ half) := by
  rw [BitVec.toNat_add, BitVec.toNat_add, BitVec.toNat_shiftLeft, BitVec.toNat_shiftLeft,
    Nat.shiftLeft_eq, Nat.shiftLeft_eq, Nat.mod_add_mod, Nat.add_mod_mod, Nat.add_right_comm,
    Nat.add_mod_mod, two_pow_add_self, Nat.add_right_comm]

theorem toNat_highWord (p1 p2 p3 cy : BitVec (half + half)) :
    (p3 + p1 >>> half + p2 >>> half + cy).toNat =
      (p3.toNat + p1.toNat / 2 ^ half + p2.toNat / 2 ^ half + cy.toNat) % 2 ^ (half + half) := by
  have hsum : (p3 + p1 >>> half + p2 >>> half).toNat =
      (p3.toNat + p1.toNat / 2 ^ half + p2.toNat / 2 ^ half) % 2 ^ (half + half) := by
    rw [BitVec.toNat_add, BitVec.toNat_add, toNat_highHalf, toNat_highHalf, Nat.mod_add_mod]
  rw [BitVec.toNat_add, hsum, Nat.mod_add_mod]

/-- The high word: nothing is lost above it where the sum of the columns fits two words. -/
theorem toNat_columns {p0 p1 p2 p3 : BitVec (half + half)} (hhalf : 2 ≤ half)
    (hfits : p0.toNat + (p1.toNat + p2.toNat) * 2 ^ half + p3.toNat * (2 ^ half * 2 ^ half) <
      2 ^ (half + half) * (2 ^ half * 2 ^ half)) :
    (p3 + p1 >>> half + p2 >>> half +
          ((((p0 >>> half + (p1.setWidth half).setWidth (half + half) +
            (p2.setWidth half).setWidth (half + half)) >>> half).setWidth half).setWidth
              (half + half))).toNat * 2 ^ (half + half) +
        (p0 + p1 <<< half + p2 <<< half).toNat =
      p0.toNat + (p1.toNat + p2.toNat) * 2 ^ half + p3.toNat * (2 ^ half * 2 ^ half) := by
  have hcolumns := WideProduct.columns (Nat.two_pow_pos half) p0.toNat p1.toNat p2.toNat p3.toNat
  have hhigh : p3.toNat + p1.toNat / 2 ^ half + p2.toNat / 2 ^ half +
      (p0.toNat / 2 ^ half + p1.toNat % 2 ^ half + p2.toNat % 2 ^ half) / 2 ^ half <
        2 ^ (half + half) := by
    rw [← hcolumns] at hfits
    exact Nat.lt_of_mul_lt_mul_right (Nat.lt_of_le_of_lt (Nat.le_add_right _ _) hfits)
  rw [toNat_lowWord, toNat_highWord, toNat_carry hhalf, Nat.mod_eq_of_lt hhigh, two_pow_add_self]
  exact hcolumns

theorem umulWide_exact (hhalf : 2 ≤ half) (a b : BitVec (half + half)) :
    (umulWide half a b).1.toNat * 2 ^ (half + half) + (umulWide half a b).2.toNat =
      a.toNat * b.toNat := by
  have hB : 0 < 2 ^ half := Nat.two_pow_pos half
  have hlow (v : BitVec (half + half)) :
      ((v.setWidth half).setWidth (half + half)).toNat < 2 ^ half := by
    rw [toNat_lowHalf]
    exact Nat.mod_lt _ hB
  have hhigh (v : BitVec (half + half)) : (v >>> half).toNat < 2 ^ half := by
    rw [toNat_highHalf]
    exact highHalf_lt v
  -- the products of the halves are exact, and add up to the product
  have hproduct : ((a.setWidth half).setWidth (half + half) *
          (b.setWidth half).setWidth (half + half)).toNat +
        (((a.setWidth half).setWidth (half + half) * b >>> half).toNat +
          (a >>> half * (b.setWidth half).setWidth (half + half)).toNat) * 2 ^ half +
        (a >>> half * b >>> half).toNat * (2 ^ half * 2 ^ half) = a.toNat * b.toNat := by
    rw [toNat_mul_halves (hlow a) (hlow b), toNat_mul_halves (hlow a) (hhigh b),
      toNat_mul_halves (hhigh a) (hlow b), toNat_mul_halves (hhigh a) (hhigh b), toNat_lowHalf,
      toNat_lowHalf, toNat_highHalf, toNat_highHalf, WideProduct.halves, WideProduct.split,
      WideProduct.split]
  have hfits : a.toNat * b.toNat < 2 ^ (half + half) * (2 ^ half * 2 ^ half) := by
    rw [← two_pow_add_self]
    exact Nat.mul_lt_mul'' a.isLt b.isLt
  rw [← hproduct] at hfits ⊢
  exact toNat_columns hhalf hfits

end Unsigned

/-! ### The signed products -/

section Signed

variable {half : Nat} {a b : BitVec (half + half)}

theorem umulWide_agrees (hhalf : 2 ≤ half) (a b : BitVec (half + half)) :
    WideProduct.Agrees (a.toNat * b.toNat) (umulWide half a b).1 (umulWide half a b).2 :=
  WideProduct.agrees_of_eq (umulWide_exact hhalf a b)

theorem mulWide_exact (hhalf : 2 ≤ half) (a b : BitVec (half + half)) :
    (mulWide half a b).1.toInt * 2 ^ (half + half) + (mulWide half a b).2.toNat =
      a.toInt * b.toInt :=
  WideProduct.Agrees.exact (by omega) (umulWide_agrees hhalf a b).signed
    (WideProduct.abs_two_mul_lt (WideProduct.abs_two_mul_toInt_le a) (WideProduct.abs_toInt_lt b))

theorem mulhsuWide_exact (hhalf : 2 ≤ half) (a b : BitVec (half + half)) :
    (mulhsuWide half a b).1.toInt * 2 ^ (half + half) + (mulhsuWide half a b).2.toNat =
      a.toInt * b.toNat := by
  have hagrees := (umulWide_agrees hhalf a b).signed_left (by rw [sub_self]; exact dvd_zero _)
  exact hagrees.exact (by omega)
    (WideProduct.abs_two_mul_lt (WideProduct.abs_two_mul_toInt_le a) (WideProduct.abs_toNat_lt b))

end Signed

/-! ### The products of a build and their instructions -/

/-- The unsigned, the signed and the mixed product of two words return the exact product in
two words. -/
structure ExactProducts {n : Nat} (umul mul mulhsu : BitVec n → BitVec n → BitVec n × BitVec n) :
    Prop where
  umul : ∀ a b, (umul a b).1.toNat * 2 ^ n + (umul a b).2.toNat = a.toNat * b.toNat
  mul : ∀ a b, (mul a b).1.toInt * 2 ^ n + (mul a b).2.toNat = a.toInt * b.toInt
  mulhsu : ∀ a b, (mulhsu a b).1.toInt * 2 ^ n + (mulhsu a b).2.toNat = a.toInt * b.toNat

theorem exactProducts (half : Nat) (hhalf : 2 ≤ half) :
    ExactProducts (umulWide half) (mulWide half) (mulhsuWide (n := half + half) half) where
  umul := umulWide_exact hhalf
  mul := mulWide_exact hhalf
  mulhsu := mulhsuWide_exact hhalf

theorem exactProducts_xlen : (w : Xlen) → ExactProducts (umul w) (mul w) (mulhsu w)
  | .rv32 => exactProducts 16 (by decide)
  | .rv64 => exactProducts 32 (by decide)

def LeavesInRd (busAccess : BusAccessFunc w σ) (cb : ExecutionCb) (s : RvCore w σ)
    (Value : RvUintXlen w → Prop) : Prop :=
  ∃ v, cb.handler busAccess s = .ok (s.setX s.rd v) ∧ Value v

structure HighHalves (busAccess : BusAccessFunc w σ) (s : RvCore w σ) : Prop where
  mulh : LeavesInRd busAccess .mulh s fun v =>
    v.toInt = (s.x s.rs1).toInt * (s.x s.rs2).toInt / 2 ^ w.bits
  mulhu : LeavesInRd busAccess .mulhu s fun v =>
    v.toNat = (s.x s.rs1).toNat * (s.x s.rs2).toNat / 2 ^ w.bits
  mulhsu : LeavesInRd busAccess .mulhsu s fun v =>
    v.toInt = (s.x s.rs1).toInt * (s.x s.rs2).toNat / 2 ^ w.bits

theorem highHalves (busAccess : BusAccessFunc w σ) (s : RvCore w σ) : HighHalves busAccess s := by
  have hproducts := exactProducts_xlen w
  constructor
  case mulh => exact ⟨_, rfl, WideProduct.toInt_eq_ediv (hproducts.mul _ _)⟩
  case mulhu => exact ⟨_, rfl, WideProduct.toNat_eq_div (hproducts.umul _ _)⟩
  case mulhsu => exact ⟨_, rfl, WideProduct.toInt_eq_ediv (hproducts.mulhsu _ _)⟩

/-- The wide products are exact at both widths, and the instructions that return a high word
leave the high half of the exact product in `rd`, on both builds. -/
theorem wide_products (σ : Type) :
    ExactProducts umul64wide mul64wide mulhsu64wide ∧
      ExactProducts umul32wide mul32wide mulhsu32wide ∧
      ∀ (w : Xlen) (busAccess : BusAccessFunc w σ) (s : RvCore w σ), HighHalves busAccess s :=
  ⟨exactProducts_xlen .rv64, exactProducts_xlen .rv32, fun _ => highHalves⟩

end RiscvEm
