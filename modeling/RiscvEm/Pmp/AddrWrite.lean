import RiscvEm.Pmp.Lock

/-!
Writes to the address registers in machine mode: when they take effect, and on which
registers that depends.

The entry after the last one is looked for where the first address register is.
-/

namespace RiscvEm

variable {w : Xlen} {pmp pmp' : Pmp w} {i : Fin 16} {v : RvUintXlen w}

structure Pmp.Writable (pmp : Pmp w) (i : Fin 16) : Prop where
  own : ¬ pmp.Locked i
  next : ∀ j : Fin 16, i.val + 1 = j.val → ¬ LockedTor (pmp.cfg j)

def Pmp.writeAddr (pmp : Pmp w) (i : Fin 16) (v : RvUintXlen w) : Pmp w :=
  (pmpWriteCsrAddr pmp .machine i v).2

structure TakesEffect (pmp : Pmp w) (i : Fin 16) (v : RvUintXlen w) : Prop where
  ret : (pmpWriteCsrAddr pmp .machine i v).1 = .ok
  written : pmp.Writable i → (pmp.writeAddr i v).addr i = v
  kept : ¬ pmp.Writable i → (pmp.writeAddr i v).addr i = pmp.addr i
  others : ∀ j, j ≠ i → (pmp.writeAddr i v).addr j = pmp.addr j
  cfg : (pmp.writeAddr i v).cfg = pmp.cfg

/-- Both writes return the same, and both take effect or neither does. -/
def SameOutcome (pmp pmp' : Pmp w) (i : Fin 16) (v : RvUintXlen w) : Prop :=
  (pmpWriteCsrAddr pmp .machine i v).1 = (pmpWriteCsrAddr pmp' .machine i v).1 ∧
    (pmp.writeAddr i v = { pmp with addr := Function.update pmp.addr i v } ∧
        pmp'.writeAddr i v = { pmp' with addr := Function.update pmp'.addr i v } ∨
      pmp.writeAddr i v = pmp ∧ pmp'.writeAddr i v = pmp')

/-- The write takes effect exactly when the register is writable, and the outcome depends on
the configuration of its entry and of the next one only. -/
structure AddrWriteRule (pmp : Pmp w) (i : Fin 16) (v : RvUintXlen w) : Prop where
  effect : TakesEffect pmp i v
  independent : ∀ pmp' : Pmp w, pmp'.cfg i = pmp.cfg i →
    (∀ j : Fin 16, i.val + 1 = j.val → pmp'.cfg j = pmp.cfg j) → SameOutcome pmp pmp' i v

/-! ### The test of the next entry -/

theorem Pmp.writeAddr_eq (pmp : Pmp w) (i : Fin 16) (v : RvUintXlen w) :
    pmp.writeAddr i v =
      if LockedTor (pmp.byte (i.val + 1)) ∨ checkBit (pmp.cfg i) pmpCfgLBit then pmp
      else { pmp with addr := Function.update pmp.addr i v } := by
  rw [Pmp.writeAddr, pmpWriteCsrAddr_machine]

/-- Below the last entry the byte that is tested is the configuration of the next one. -/
theorem writable_iff (hi : i.val < 15) :
    pmp.Writable i ↔
      ¬ (LockedTor (pmp.byte (i.val + 1)) ∨ checkBit (pmp.cfg i) pmpCfgLBit = true) := by
  have hbyte : pmp.byte (i.val + 1) = pmp.cfg ⟨i.val + 1, by omega⟩ :=
    pmp.byte_cfg ⟨i.val + 1, by omega⟩
  rw [hbyte, not_or]
  constructor
  · exact fun h => ⟨h.next _ rfl, h.own⟩
  · rintro ⟨hnext, hown⟩
    refine ⟨hown, fun j hj => ?_⟩
    have hindex : j = ⟨i.val + 1, by omega⟩ := Fin.ext hj.symm
    rw [hindex]
    exact hnext

/-- At the last entry it is the lowest byte of the first address register. -/
theorem Pmp.byte_after_last (pmp : Pmp w) : pmp.byte 16 = byteOf (pmp.addr 0) 0 := by
  cases w <;> rfl

theorem writable_last (hi : i.val = 15) : pmp.Writable i ↔ ¬ pmp.Locked i :=
  ⟨fun h => h.own, fun h => ⟨h, fun j hj => absurd j.isLt (by omega)⟩⟩

/-! ### The effect -/

/-- A decision that is right where it matters makes the write take effect exactly when the
register is writable. -/
theorem takesEffect_of_decision
    (h : pmp.addr i = v ∨ (pmp.Writable i ↔
      ¬ (LockedTor (pmp.byte (i.val + 1)) ∨ checkBit (pmp.cfg i) pmpCfgLBit = true))) :
    TakesEffect pmp i v := by
  have hwrite := pmp.writeAddr_eq i v
  refine ⟨by rw [pmpWriteCsrAddr_machine], fun hw => ?_, fun hw => ?_, fun j hj => ?_, ?_⟩
  · rcases h with hv | hiff
    · rw [hwrite]
      split
      · exact hv
      · exact Function.update_self ..
    · rw [hwrite, if_neg (hiff.mp hw)]
      exact Function.update_self ..
  · rcases h with hv | hiff
    · rw [hwrite]
      split
      · rfl
      · exact (Function.update_self ..).trans hv.symm
    · rw [hwrite, if_pos (not_not.mp fun hfree => hw (hiff.mpr hfree))]
  · rw [hwrite]
    split
    · rfl
    · exact Function.update_of_ne hj _ _
  · rw [hwrite]
    split
    · rfl
    · rfl

theorem takesEffect_iff :
    TakesEffect pmp i v ↔
      i.val < 15 ∨ pmp.Locked i ∨ pmp.addr i = v ∨ ¬ LockedTor (byteOf (pmp.addr 0) 0) := by
  by_cases hi : i.val < 15
  · exact iff_of_true (takesEffect_of_decision (.inr (writable_iff hi))) (.inl hi)
  · have hlast : i.val = 15 := by omega
    have hbyte : pmp.byte (i.val + 1) = byteOf (pmp.addr 0) 0 := by
      rw [hlast]
      exact pmp.byte_after_last
    constructor
    · intro h
      by_contra hnone
      simp only [not_or, not_not] at hnone
      obtain ⟨-, hfree, hv, htor⟩ := hnone
      have hwritten := h.written ((writable_last hlast).mpr hfree)
      rw [pmp.writeAddr_eq, hbyte, if_pos (Or.inl htor)] at hwritten
      exact hv hwritten
    · rintro (h | hlocked | hv | htor)
      · exact absurd h hi
      · refine takesEffect_of_decision (.inr ?_)
        rw [writable_last hlast]
        exact iff_of_false (not_not_intro hlocked) (not_not_intro (.inr hlocked))
      · exact takesEffect_of_decision (.inl hv)
      · refine takesEffect_of_decision (.inr ?_)
        rw [writable_last hlast, hbyte, not_or]
        exact ⟨fun h => ⟨htor, h⟩, fun h => h.2⟩

/-! ### What the outcome depends on -/

theorem sameOutcome_of_decision
    (h : (LockedTor (pmp.byte (i.val + 1)) ∨ checkBit (pmp.cfg i) pmpCfgLBit = true) ↔
      (LockedTor (pmp'.byte (i.val + 1)) ∨ checkBit (pmp'.cfg i) pmpCfgLBit = true)) :
    SameOutcome pmp pmp' i v := by
  refine ⟨by rw [pmpWriteCsrAddr_machine, pmpWriteCsrAddr_machine], ?_⟩
  rw [pmp.writeAddr_eq, pmp'.writeAddr_eq]
  by_cases hrefused : LockedTor (pmp.byte (i.val + 1)) ∨ checkBit (pmp.cfg i) pmpCfgLBit = true
  · rw [if_pos hrefused, if_pos (h.mp hrefused)]
    exact .inr ⟨rfl, rfl⟩
  · rw [if_neg hrefused, if_neg (mt h.mpr hrefused)]
    exact .inl ⟨rfl, rfl⟩

/-- A write to a register that holds the value already has no outcome to compare. -/
theorem sameOutcome_of_eq (hv : pmp.addr i = v) : SameOutcome pmp pmp' i v := by
  have hsame : pmp.writeAddr i v = pmp := by
    rw [pmp.writeAddr_eq, ← hv, Function.update_eq_self]
    exact ite_self _
  refine ⟨by rw [pmpWriteCsrAddr_machine, pmpWriteCsrAddr_machine], ?_⟩
  rw [hsame, pmp'.writeAddr_eq]
  split
  · exact .inr ⟨rfl, rfl⟩
  · rw [← hv, Function.update_eq_self]
    exact .inl ⟨rfl, rfl⟩

/-- The first address register holds a byte that reads as a locked TOR entry. -/
def Pmp.withTorByte (pmp : Pmp w) : Pmp w :=
  { pmp with addr := Function.update pmp.addr 0 (BitVec.ofNat w.bits 0x88) }

theorem Pmp.withTorByte_refuses (pmp : Pmp w) (hi : i.val = 15) :
    pmp.withTorByte.writeAddr i v = pmp.withTorByte := by
  have hbyte : LockedTor (pmp.withTorByte.byte (i.val + 1)) := by
    rw [hi, pmp.withTorByte.byte_after_last]
    cases w with
    | rv32 => exact (by decide : LockedTor (byteOf (w := .rv32) 0x88 0))
    | rv64 => exact (by decide : LockedTor (byteOf (w := .rv64) 0x88 0))
  rw [pmp.withTorByte.writeAddr_eq, if_pos (Or.inl hbyte)]

/-- A write to an address register follows the rule below the last entry, where that entry
is locked, and where the register holds the value already. A single write to the last entry
takes effect as it should also where the lowest byte of the first address register does not
read as a locked TOR entry. -/
theorem addrWriteRule_iff (pmp : Pmp w) (i : Fin 16) (v : RvUintXlen w) :
    (AddrWriteRule pmp i v ↔ i.val < 15 ∨ pmp.Locked i ∨ pmp.addr i = v) ∧
      (TakesEffect pmp i v ↔
        i.val < 15 ∨ pmp.Locked i ∨ pmp.addr i = v ∨
          ¬ LockedTor (byteOf (pmp.addr 0) 0)) := by
  refine ⟨⟨fun h => ?_, fun h => ?_⟩, takesEffect_iff⟩
  · by_contra hnone
    simp only [not_or] at hnone
    obtain ⟨hi, hfree, hv⟩ := hnone
    have hlast : i.val = 15 := by omega
    have hwritten := h.effect.written ((writable_last hlast).mpr hfree)
    obtain ⟨-, ⟨-, hupdate⟩ | ⟨hkept, -⟩⟩ := h.independent pmp.withTorByte rfl fun _ _ => rfl
    · rw [pmp.withTorByte_refuses hlast] at hupdate
      have haddr : pmp.withTorByte.addr i = v := by
        rw [hupdate]
        exact Function.update_self ..
      have hne : i ≠ 0 := by
        rintro rfl
        exact absurd hlast (by decide)
      have hother : pmp.withTorByte.addr i = pmp.addr i := Function.update_of_ne hne _ _
      exact hv (hother.symm.trans haddr)
    · rw [hkept] at hwritten
      exact hv hwritten
  · refine ⟨takesEffect_iff.mpr ?_, fun pmp' hown hnext => ?_⟩
    · rcases h with hi | hlocked | hv
      · exact .inl hi
      · exact .inr (.inl hlocked)
      · exact .inr (.inr (.inl hv))
    · rcases h with hi | hlocked | hv
      · apply sameOutcome_of_decision
        have hbyte (p : Pmp w) : p.byte (i.val + 1) = p.cfg ⟨i.val + 1, by omega⟩ :=
          p.byte_cfg ⟨i.val + 1, by omega⟩
        rw [hbyte, hbyte, hown, hnext _ rfl]
      · apply sameOutcome_of_decision
        have hlocked' : checkBit (pmp'.cfg i) pmpCfgLBit = true := by
          rw [hown]
          exact hlocked
        exact iff_of_true (.inr hlocked) (.inr hlocked')
      · exact sameOutcome_of_eq hv

/-- The value that the first address register holds after a write keeps the last one from
being written. -/
theorem last_write_dropped :
    ¬ ∀ (pmp : Pmp .rv32) (i : Fin 16) (v : RvUintXlen .rv32), TakesEffect pmp i v := by
  intro h
  have hfree : ¬ (({} : Pmp .rv32).withTorByte.Locked 15) := by
    unfold Pmp.Locked
    decide
  have hwritten := (h ({} : Pmp .rv32).withTorByte 15 1).written ((writable_last rfl).mpr hfree)
  rw [Pmp.withTorByte_refuses _ rfl] at hwritten
  exact absurd hwritten (by decide)

end RiscvEm
