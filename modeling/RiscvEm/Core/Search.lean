import RiscvEm.Core.DecodeSpec
import RiscvEm.HelperSpec

/-!
The search through the opcode lists as a function of the instruction word: which
callback it finds, and which fields it leaves for the callback.
-/

namespace RiscvEm

variable {w : Xlen} {σ : Type}

/-! ### The sub-codes of an instruction -/

structure SubCodes where
  func3 : Nat
  func5 : Nat
  func6 : Nat
  func7 : Nat
  func12Sub5 : Nat

def subCodes (instruction : BitVec 32) : SubCodes where
  func3 := (extract instruction 12 3).toNat
  func5 := (extract instruction 27 5).toNat
  func6 := (extract instruction 26 6).toNat
  func7 := (extract instruction 25 7).toNat
  func12Sub5 := (extract instruction 20 5).toNat

def PreparationCb.subcode (codes : SubCodes) : PreparationCb → Option Nat
  | .func5 => some codes.func5
  | .func6 => some codes.func6
  | .func7 => some codes.func7
  | .func7Func12Sub5 => some codes.func12Sub5
  | .rType | .iType | .sType | .bType => some codes.func3
  | .uType | .jType => none

theorem toNat_field_setWidth (instruction : BitVec 32) (start : Nat) {length : Nat}
    (hlen : length ≤ 8) :
    ((extract instruction start length).setWidth 8).toNat =
      (extract instruction start length).toNat := by
  have hpow : 2 ^ length ≤ 2 ^ 8 := Nat.pow_le_pow_right (by decide) hlen
  have hpos : 0 < 2 ^ length := Nat.pow_pos (by decide)
  have hlt := Nat.mod_lt (instruction.toNat / 2 ^ start) hpos
  rw [BitVec.toNat_setWidth, toNat_extract _ _ (by omega)]
  exact Nat.mod_eq_of_lt (by omega)

theorem PreparationCb.run_snd (cb : PreparationCb) (s : RvCore w σ) :
    (cb.run s).2 = cb.subcode (subCodes s.instruction) := by
  cases cb with
  | func5 => exact congrArg some (toNat_field_setWidth s.instruction 27 (by decide))
  | func6 => exact congrArg some (toNat_field_setWidth s.instruction 26 (by decide))
  | func7 => exact congrArg some (toNat_field_setWidth s.instruction 25 (by decide))
  | func7Func12Sub5 => exact congrArg some (toNat_field_setWidth s.instruction 20 (by decide))
  | rType => exact congrArg some (toNat_field_setWidth s.instruction 12 (by decide))
  | iType => exact congrArg some (toNat_field_setWidth s.instruction 12 (by decide))
  | sType => exact congrArg some (toNat_field_setWidth s.instruction 12 (by decide))
  | bType => exact congrArg some (toNat_field_setWidth s.instruction 12 (by decide))
  | uType => rfl
  | jType => rfl

/-! ### The callback that is found -/

/-- The callback that a search finds, `none` where it ends in the message for unknown
instructions. -/
def InstructionList.search (w : Xlen) (codes : SubCodes) :
    {n : Nat} → InstructionList n → Nat → Option ExecutionCb
  | 0, list, _ => nomatch list
  | _ + 1, list, opcode =>
      (list.hooks w).lookup opcode |>.bind fun hook =>
        match hook.next with
        | none => hook.executionCb
        | some next =>
            (hook.preparationCb.bind fun cb => cb.subcode codes).bind fun subcode =>
              next.search w codes subcode

theorem unknownInstruction_prepare {n : Nat} (hook : InstructionHook n) (s : RvCore w σ) :
    unknownInstruction (hook.prepare s).1 = unknownInstruction s := by
  rw [hook.prepare_frame s]
  rfl

theorem instruction_prepare {n : Nat} (hook : InstructionHook n) (s : RvCore w σ) :
    (hook.prepare s).1.instruction = s.instruction := by
  rw [hook.prepare_frame s]

/-- The search of the source ends as the function of the instruction says. -/
theorem rvCallFromOpcodeList_search {n : Nat} (list : InstructionList n) (opcode : Nat)
    (s : RvCore w σ) :
    (list.search w (subCodes s.instruction) opcode = none →
        rvCallFromOpcodeList list opcode s = .error (unknownInstruction s)) ∧
      ∀ cb, list.search w (subCodes s.instruction) opcode = some cb →
        ∃ s', rvCallFromOpcodeList list opcode s = .ok s' ∧ s'.executeCb = some cb := by
  induction n generalizing opcode s with
  | zero => nomatch list
  | succ n ih =>
      rw [InstructionList.search, rvCallFromOpcodeList]
      cases hlookup : (list.hooks w).lookup opcode with
      | none =>
          refine ⟨fun _ => rfl, fun cb h => ?_⟩
          cases h
      | some hook =>
          rcases InstructionList.hook_cases hlookup with
            ⟨cb', hcb', hnext⟩ | ⟨prep, next, hexec, hprep, hnext, hfinal⟩
          · simp only [hnext, Option.bind_some]
            refine ⟨fun h => ?_, fun cb h => ?_⟩
            · rw [hcb'] at h
              cases h
            · cases (hook.prepare s).2 <;> exact ⟨_, rfl, by simp [h]⟩
          · have hsub : (hook.prepare s).2 = prep.subcode (subCodes s.instruction) := by
              rw [InstructionHook.prepare, hprep]
              exact prep.run_snd s
            obtain ⟨subcode, hsubcode⟩ := PreparationCb.run_subcode hfinal s
            rw [prep.run_snd s] at hsubcode
            rw [hsubcode] at hsub
            have hrec := ih next subcode (hook.prepare s).1
            rw [instruction_prepare, unknownInstruction_prepare] at hrec
            simp only [hnext, hexec, hsub, hprep, Option.bind_some, hsubcode]
            exact hrec

/-! ### The search of a word -/

def RvCore.resetDecode (s : RvCore w σ) : RvCore w σ :=
  { s with
    opcode := (s.instruction &&& 0x7F).setWidth 8, rd := 0, rs1 := 0, rs2 := 0, func3 := 0
    func7 := 0, immediate := 0, jumpOffset := 0 }

def searchWord (w : Xlen) (instruction : BitVec 32) : Option ExecutionCb :=
  InstructionList.rvOpcode.search w (subCodes instruction) (instruction &&& 0x7F).toNat

theorem rvCoreDecode_eq (s : RvCore w σ) :
    rvCoreDecode s =
      rvCallFromOpcodeList .rvOpcode (s.instruction &&& 0x7F).toNat s.resetDecode := rfl

theorem rvCoreDecode_of_search_none {s : RvCore w σ} (h : searchWord w s.instruction = none) :
    rvCoreDecode s = .error (unknownInstruction s) := by
  rw [rvCoreDecode_eq]
  exact (rvCallFromOpcodeList_search .rvOpcode _ s.resetDecode).1 h

/-- An instruction with a callback is decoded to it, with the operands that the entry
of the top list prepares. -/
theorem rvCoreDecode_of_search {s : RvCore w σ} {cb : ExecutionCb}
    (h : searchWord w s.instruction = some cb) :
    ∃ s' hook, rvCoreDecode s = .ok s' ∧ s'.executeCb = some cb ∧
      (InstructionList.rvOpcode.hooks w).lookup (s.instruction &&& 0x7F).toNat = some hook ∧
      OperandsKept (hook.prepare s.resetDecode).1 s' := by
  obtain ⟨s', hdecode, hcb⟩ :=
    (rvCallFromOpcodeList_search .rvOpcode _ s.resetDecode).2 cb h
  obtain ⟨hook, hlookup, hcases⟩ := rvCallFromOpcodeList_cases hdecode
  refine ⟨s', hook, hdecode, hcb, hlookup, ?_⟩
  rcases hcases with ⟨cb', -, -, rfl⟩ | ⟨subcode, next, -, -, hcall⟩
  · exact ⟨rfl, rfl, rfl, rfl, rfl⟩
  · exact rvCallFromOpcodeList_operands (Nat.le_refl 3) hcall

theorem searchWord_of_decode {s s' : RvCore w σ} (h : rvCoreDecode s = .ok s') :
    searchWord w s.instruction = s'.executeCb := by
  cases hsearch : searchWord w s.instruction with
  | none =>
      rw [rvCoreDecode_of_search_none hsearch] at h
      cases h
  | some cb =>
      obtain ⟨s₁, _, hdecode, hcb, -, -⟩ := rvCoreDecode_of_search hsearch
      rw [hdecode] at h
      rw [← Except.ok.inj h, hcb]

end RiscvEm
