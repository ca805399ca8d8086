import Mathlib.Tactic.IntervalCases
import RiscvEm.Core.Run
import RiscvEm.Core.Search
import RiscvEm.Lib.Logged

/-!
The elements of the instruction lists that a search reads, against the sizes of the lists.

An array of hooks ends with the largest sub-code that has an entry. The search is given once
more with the index logged where an element is read, which is before the test of the size.
-/

namespace RiscvEm

open Logged

variable {w : Xlen} {σ : Type}

/-! ### Reads -/

/-- `instruction_hook_list_size`: the array ends with its largest designated index. -/
def InstructionList.hookListSize {n : Nat} (w : Xlen) (list : InstructionList (n + 1)) : Nat :=
  ((list.hooks w).map fun entry => entry.1 + 1).foldr max 0

structure HookRead where
  depth : Nat
  list : InstructionList (depth + 1)
  index : Nat

def HookRead.InRange (w : Xlen) (read : HookRead) : Prop :=
  read.index < read.list.hookListSize w

def rvCallFromOpcodeListReads : {n : Nat} → InstructionList n → Nat → RvCore w σ →
    Logged HookRead Stop (RvCore w σ)
  | 0, list, _ => nomatch list
  | n + 1, list, opcode => fun s => do
      emit ⟨n, list, opcode⟩
      match (list.hooks w).lookup opcode with
      | none => quiet (.error (unknownInstruction s))
      | some hook =>
          let (s, nextSubcode) := hook.prepare s
          let s := { s with executeCb := hook.executionCb <|> s.executeCb }
          match nextSubcode, hook.next with
          | some subcode, some list => rvCallFromOpcodeListReads list subcode s
          | _, _ => return s

def rvCoreDecodeReads (s : RvCore w σ) : Logged HookRead Stop (RvCore w σ) :=
  rvCallFromOpcodeListReads .rvOpcode (s.instruction &&& 0x7F).toNat s.resetDecode

theorem result_rvCallFromOpcodeListReads {n : Nat} (list : InstructionList n) (opcode : Nat)
    (s : RvCore w σ) :
    (rvCallFromOpcodeListReads list opcode s).result = rvCallFromOpcodeList list opcode s := by
  induction n generalizing opcode s with
  | zero => nomatch list
  | succ n ih =>
      rw [rvCallFromOpcodeListReads, rvCallFromOpcodeList, result_emit_bind]
      cases (list.hooks w).lookup opcode with
      | none => rfl
      | some hook =>
          cases hsub : (hook.prepare s).2 with
          | none =>
              simp only [hsub]
              rfl
          | some subcode =>
              cases hnext : hook.next with
              | none =>
                  simp only [hsub, hnext]
                  rfl
              | some next =>
                  simp only [hsub, hnext]
                  exact ih next subcode _

theorem result_rvCoreDecodeReads (s : RvCore w σ) :
    (rvCoreDecodeReads s).result = rvCoreDecode s :=
  result_rvCallFromOpcodeListReads .rvOpcode _ _

/-! ### Searches that stay in their lists -/

/-- All reads of a search are in range, as a function of the sub-codes. -/
def InstructionList.fits (w : Xlen) (codes : SubCodes) :
    {n : Nat} → InstructionList n → Nat → Bool
  | 0, list, _ => nomatch list
  | _ + 1, list, opcode =>
      opcode < list.hookListSize w &&
        ((list.hooks w).lookup opcode).all fun hook =>
          hook.next.all fun next =>
            (hook.preparationCb.bind fun cb => cb.subcode codes).all fun subcode =>
              next.fits w codes subcode

theorem InstructionHook.prepare_snd {n : Nat} (hook : InstructionHook n) (s : RvCore w σ) :
    (hook.prepare s).2 =
      hook.preparationCb.bind fun cb => cb.subcode (subCodes s.instruction) := by
  rw [InstructionHook.prepare]
  cases hook.preparationCb with
  | none => rfl
  | some cb => exact cb.run_snd s

theorem forall_inRange_iff {n : Nat} (list : InstructionList n) (opcode : Nat) (s : RvCore w σ) :
    (∀ read ∈ (rvCallFromOpcodeListReads list opcode s).log, read.InRange w) ↔
      list.fits w (subCodes s.instruction) opcode = true := by
  induction n generalizing opcode s with
  | zero => nomatch list
  | succ n ih =>
      rw [rvCallFromOpcodeListReads, log_emit_bind, List.forall_mem_cons, InstructionList.fits,
        Bool.and_eq_true, decide_eq_true_eq]
      refine and_congr Iff.rfl ?_
      cases (list.hooks w).lookup opcode with
      | none => exact iff_of_true (List.forall_mem_nil _) rfl
      | some hook =>
          rw [Option.all_some, ← hook.prepare_snd s]
          cases hsub : (hook.prepare s).2 with
          | none =>
              simp only [hsub]
              refine iff_of_true (List.forall_mem_nil _) ?_
              cases hook.next <;> rfl
          | some subcode =>
              cases hnext : hook.next with
              | none =>
                  simp only [hsub, hnext]
                  exact iff_of_true (List.forall_mem_nil _) rfl
              | some next =>
                  simp only [hsub, hnext]
                  rw [← instruction_prepare hook s]
                  exact ih next subcode _

/-! ### The largest sub-codes with an entry -/

/-- Every sub-code that the search of a word looks up is at most the largest one that has an
entry in its list. -/
def SubCodes.withinLists (codes : SubCodes) (w : Xlen) (opcode : Nat) : Bool :=
  match opcode, w with
  | 0x67, _ => codes.func3 ≤ 0
  | 0x63, _ => codes.func3 ≤ 7
  | 0x03, .rv32 => codes.func3 ≤ 5
  | 0x03, .rv64 => codes.func3 ≤ 6
  | 0x23, .rv32 => codes.func3 ≤ 2
  | 0x23, .rv64 => codes.func3 ≤ 3
  | 0x13, .rv32 => codes.func3 != 5 || codes.func7 ≤ 0x20
  | 0x13, .rv64 => codes.func3 != 5 || codes.func6 ≤ 0x10
  | 0x33, _ => codes.func7 ≤ if codes.func3 = 0 ∨ codes.func3 = 5 then 0x20 else 1
  | 0x1B, .rv64 => codes.func3 ≤ 5 && (codes.func3 != 5 || codes.func7 ≤ 0x20)
  | 0x3B, .rv64 => codes.func3 != 0 && codes.func3 != 5 || codes.func7 ≤ 0x20
  | 0x73, _ =>
      codes.func3 != 0 ||
        codes.func7 ≤ 0x18 && (codes.func7 != 0 || codes.func12Sub5 ≤ 2) &&
          (codes.func7 != 8 || codes.func12Sub5 ≤ 5)
  | 0x2F, .rv32 => codes.func3 ≤ 2 && (codes.func3 != 2 || codes.func5 ≤ 0x1C)
  | 0x2F, .rv64 =>
      codes.func3 ≤ 3 && (codes.func3 != 2 && codes.func3 != 3 || codes.func5 ≤ 0x1C)
  | opcode, _ => opcode ≤ 0x73

/-- Of a list without further lists only the one element is read. -/
theorem InstructionList.fits_of_leaf {n : Nat} {list : InstructionList (n + 1)}
    (hleaf : (list.hooks w).all (fun entry => entry.2.next.isNone) = true) (codes : SubCodes)
    (opcode : Nat) : list.fits w codes opcode = decide (opcode < list.hookListSize w) := by
  rw [InstructionList.fits]
  cases hlookup : (list.hooks w).lookup opcode with
  | none => exact Bool.and_true _
  | some hook =>
      have hnext := List.all_eq_true.mp hleaf _ (InstructionList.mem_of_lookup hlookup)
      rw [Option.isNone_iff_eq_none] at hnext
      rw [Option.all_some, hnext]
      exact Bool.and_true _

/-- An entry that leads to a further list is in range, and leaves the reads there. -/
theorem InstructionList.fits_of_next {n opcode subcode : Nat} {list : InstructionList (n + 2)}
    {next : InstructionList (n + 1)} {prep : PreparationCb} {codes : SubCodes}
    (hlookup : (list.hooks w).lookup opcode = some (nextHook prep next))
    (hsize : opcode < list.hookListSize w) (hsubcode : prep.subcode codes = some subcode) :
    list.fits w codes opcode = next.fits w codes subcode := by
  rw [InstructionList.fits, decide_eq_true hsize, Bool.true_and, hlookup]
  show (prep.subcode codes).all (next.fits w codes) = _
  rw [hsubcode, Option.all_some]

/-- An entry that leads to a list without further lists leaves one sub-code to compare. -/
theorem InstructionList.fits_of_next_leaf {n opcode subcode last : Nat}
    {list : InstructionList (n + 2)} {next : InstructionList (n + 1)} {prep : PreparationCb}
    {codes : SubCodes} (hlookup : (list.hooks w).lookup opcode = some (nextHook prep next))
    (hsize : opcode < list.hookListSize w) (hsubcode : prep.subcode codes = some subcode)
    (hleaf : (next.hooks w).all (fun entry => entry.2.next.isNone) = true)
    (hlast : next.hookListSize w = last + 1) :
    list.fits w codes opcode = decide (subcode ≤ last) := by
  rw [InstructionList.fits_of_next hlookup hsize hsubcode, InstructionList.fits_of_leaf hleaf,
    hlast]
  exact decide_eq_decide.mpr Nat.lt_succ_iff

section Lists

variable {codes : SubCodes}

theorem fits_addFunc3 (hfunc3 : codes.func3 < 8) :
    InstructionList.addFunc3.fits w codes codes.func3 =
      decide (codes.func7 ≤ if codes.func3 = 0 ∨ codes.func3 = 5 then 0x20 else 1) := by
  generalize codes.func3 = func3 at hfunc3 ⊢
  interval_cases func3
  all_goals
    cases w <;> exact InstructionList.fits_of_next_leaf rfl (by decide) rfl rfl rfl

theorem fits_addiFunc3_rv32 (hfunc3 : codes.func3 < 8) :
    InstructionList.addiFunc3.fits .rv32 codes codes.func3 =
      (codes.func3 != 5 || codes.func7 ≤ 0x20) := by
  generalize codes.func3 = func3 at hfunc3 ⊢
  interval_cases func3
  case «5» => exact InstructionList.fits_of_next_leaf rfl (by decide) rfl rfl rfl
  all_goals rfl

theorem fits_addiFunc3_rv64 (hfunc3 : codes.func3 < 8) :
    InstructionList.addiFunc3.fits .rv64 codes codes.func3 =
      (codes.func3 != 5 || codes.func6 ≤ 0x10) := by
  generalize codes.func3 = func3 at hfunc3 ⊢
  interval_cases func3
  case «5» => exact InstructionList.fits_of_next_leaf rfl (by decide) rfl rfl rfl
  all_goals rfl

theorem fits_slliwFunc3 (hfunc3 : codes.func3 < 8) :
    InstructionList.slliwFunc3.fits w codes codes.func3 =
      (codes.func3 ≤ 5 && (codes.func3 != 5 || codes.func7 ≤ 0x20)) := by
  generalize codes.func3 = func3 at hfunc3 ⊢
  interval_cases func3
  case «5» => cases w <;> exact InstructionList.fits_of_next_leaf rfl (by decide) rfl rfl rfl
  all_goals cases w <;> rfl

theorem fits_addwFunc3 (hfunc3 : codes.func3 < 8) :
    InstructionList.addwFunc3.fits w codes codes.func3 =
      (codes.func3 != 0 && codes.func3 != 5 || codes.func7 ≤ 0x20) := by
  generalize codes.func3 = func3 at hfunc3 ⊢
  interval_cases func3
  case «0» | «5» => cases w <;> exact InstructionList.fits_of_next_leaf rfl (by decide) rfl rfl rfl
  all_goals cases w <;> rfl

theorem fits_ecallFunc7 :
    InstructionList.ecallFunc7.fits w codes codes.func7 =
      (codes.func7 ≤ 0x18 && (codes.func7 != 0 || codes.func12Sub5 ≤ 2) &&
        (codes.func7 != 8 || codes.func12Sub5 ≤ 5)) := by
  generalize codes.func7 = func7
  by_cases hlast : func7 ≤ 0x18
  · interval_cases func7
    case «0» =>
      rw [bne_self_eq_false, Bool.false_or, decide_eq_true hlast, Bool.true_and]
      refine Eq.trans ?_ (Bool.and_true _).symm
      cases w <;> exact InstructionList.fits_of_next_leaf rfl (by decide) rfl rfl rfl
    case «8» => cases w <;> exact InstructionList.fits_of_next_leaf rfl (by decide) rfl rfl rfl
    all_goals cases w <;> rfl
  · have hsize : InstructionList.ecallFunc7.hookListSize w = 0x19 := by
      cases w <;> rfl
    rw [InstructionList.fits, hsize, decide_eq_false (by omega), decide_eq_false hlast]
    rfl

theorem fits_csrrwFunc3 (hfunc3 : codes.func3 < 8) :
    InstructionList.csrrwFunc3.fits w codes codes.func3 =
      (codes.func3 != 0 ||
        codes.func7 ≤ 0x18 && (codes.func7 != 0 || codes.func12Sub5 ≤ 2) &&
          (codes.func7 != 8 || codes.func12Sub5 ≤ 5)) := by
  generalize codes.func3 = func3 at hfunc3 ⊢
  interval_cases func3
  case «0» =>
    refine Eq.trans ?_ (fits_ecallFunc7 (w := w))
    cases w <;> exact InstructionList.fits_of_next rfl (by decide) rfl
  all_goals cases w <;> rfl

theorem fits_wLrFunc3_rv32 (hfunc3 : codes.func3 < 8) :
    InstructionList.wLrFunc3.fits .rv32 codes codes.func3 =
      (codes.func3 ≤ 2 && (codes.func3 != 2 || codes.func5 ≤ 0x1C)) := by
  generalize codes.func3 = func3 at hfunc3 ⊢
  interval_cases func3
  case «2» => exact InstructionList.fits_of_next_leaf rfl (by decide) rfl rfl rfl
  all_goals rfl

theorem fits_wLrFunc3_rv64 (hfunc3 : codes.func3 < 8) :
    InstructionList.wLrFunc3.fits .rv64 codes codes.func3 =
      (codes.func3 ≤ 3 && (codes.func3 != 2 && codes.func3 != 3 || codes.func5 ≤ 0x1C)) := by
  generalize codes.func3 = func3 at hfunc3 ⊢
  interval_cases func3
  case «2» | «3» => exact InstructionList.fits_of_next_leaf rfl (by decide) rfl rfl rfl
  all_goals rfl

theorem rvOpcode_hooks_next :
    (InstructionList.rvOpcode.hooks w).all (fun entry =>
      entry.2.next.isNone ||
        ([0x67, 0x63, 0x03, 0x23, 0x13, 0x33, 0x73, 0x2F] ++ match w with
          | .rv32 => []
          | .rv64 => [0x1B, 0x3B]).contains entry.1) = true := by
  cases w <;> rfl

theorem fits_rvOpcode (hfunc3 : codes.func3 < 8) (opcode : Nat) :
    InstructionList.rvOpcode.fits w codes opcode = codes.withinLists w opcode := by
  unfold SubCodes.withinLists
  split
  case h_1 | h_2 => cases w <;> exact InstructionList.fits_of_next_leaf rfl (by decide) rfl rfl rfl
  case h_3 | h_4 | h_5 | h_6 => exact InstructionList.fits_of_next_leaf rfl (by decide) rfl rfl rfl
  case h_7 =>
    exact (InstructionList.fits_of_next rfl (by decide) rfl).trans (fits_addiFunc3_rv32 hfunc3)
  case h_8 =>
    exact (InstructionList.fits_of_next rfl (by decide) rfl).trans (fits_addiFunc3_rv64 hfunc3)
  case h_9 =>
    refine Eq.trans ?_ (fits_addFunc3 (w := w) hfunc3)
    cases w <;> exact InstructionList.fits_of_next rfl (by decide) rfl
  case h_10 =>
    exact (InstructionList.fits_of_next rfl (by decide) rfl).trans (fits_slliwFunc3 hfunc3)
  case h_11 =>
    exact (InstructionList.fits_of_next rfl (by decide) rfl).trans (fits_addwFunc3 hfunc3)
  case h_12 =>
    refine Eq.trans ?_ (fits_csrrwFunc3 (w := w) hfunc3)
    cases w <;> exact InstructionList.fits_of_next rfl (by decide) rfl
  case h_13 =>
    exact (InstructionList.fits_of_next rfl (by decide) rfl).trans (fits_wLrFunc3_rv32 hfunc3)
  case h_14 =>
    exact (InstructionList.fits_of_next rfl (by decide) rfl).trans (fits_wLrFunc3_rv64 hfunc3)
  case h_15 =>
    have hsize : InstructionList.rvOpcode.hookListSize w = 0x73 + 1 := by
      cases w <;> rfl
    have hin : decide (opcode < 0x73 + 1) = decide (opcode ≤ 0x73) :=
      decide_eq_decide.mpr Nat.lt_succ_iff
    rw [InstructionList.fits, hsize, hin]
    cases hlookup : (InstructionList.rvOpcode.hooks w).lookup opcode with
    | none => exact Bool.and_true _
    | some hook =>
        have hentry := List.all_eq_true.mp rvOpcode_hooks_next _
          (InstructionList.mem_of_lookup hlookup)
        -- the other entries of the top list have a callback
        have hnext : hook.next = none := by
          cases w <;> simp_all
        rw [Option.all_some, hnext]
        exact Bool.and_true _

end Lists

/-! ### The search of a word -/

theorem subCodes_func3_lt (instruction : BitVec 32) : (subCodes instruction).func3 < 8 := by
  show (extract instruction 12 3).toNat < 8
  rw [toNat_extract _ _ (by decide)]
  exact Nat.mod_lt _ (by decide)

/-- All elements that the decoder reads for a word belong to their lists if and only if each
sub-code that the search looks up is at most the largest one with an entry. -/
theorem decode_reads_inRange_iff (s : RvCore w σ) :
    (∀ read ∈ (rvCoreDecodeReads s).log, read.InRange w) ↔
      (subCodes s.instruction).withinLists w (s.instruction &&& 0x7F).toNat = true := by
  rw [← fits_rvOpcode (subCodes_func3_lt s.instruction)]
  exact forall_inRange_iff .rvOpcode _ s.resetDecode

/-- The top list ends with the opcode `0x73`. -/
theorem decode_reads_past_end :
    ¬ ∀ (s : RvCore .rv32 Unit), ∀ read ∈ (rvCoreDecodeReads s).log, read.InRange .rv32 := by
  intro hall
  have hread : HookRead.InRange .rv32 ⟨3, .rvOpcode, 0x7F⟩ :=
    hall { rvCoreInit () with instruction := 0x7F } _ List.mem_cons_self
  have hsize : InstructionList.rvOpcode.hookListSize .rv32 ≤ 0x7F := by decide
  exact absurd hread (Nat.not_lt.mpr hsize)

theorem InstructionList.lt_hookListSize {n opcode : Nat} {list : InstructionList (n + 1)}
    {hook : InstructionHook n} (hmem : (opcode, hook) ∈ list.hooks w) :
    opcode < list.hookListSize w := by
  rw [InstructionList.hookListSize]
  generalize list.hooks w = hooks at hmem ⊢
  induction hooks with
  | nil => cases hmem
  | cons entry rest ih =>
      rw [List.map_cons, List.foldr_cons]
      rcases List.mem_cons.mp hmem with rfl | hrest
      · exact Nat.lt_of_lt_of_le (Nat.lt_succ_self _) (Nat.le_max_left _ _)
      · exact Nat.lt_of_lt_of_le (ih hrest) (Nat.le_max_right _ _)

/-- A search that has read past the end of a list finds no callback. -/
theorem InstructionList.search_eq_none {n : Nat} {list : InstructionList n} {codes : SubCodes}
    {opcode : Nat} (h : list.fits w codes opcode = false) :
    list.search w codes opcode = none := by
  induction n generalizing opcode with
  | zero => nomatch list
  | succ n ih =>
      rw [InstructionList.fits] at h
      rw [InstructionList.search]
      cases hlookup : (list.hooks w).lookup opcode with
      | none => rfl
      | some hook =>
          have hin := InstructionList.lt_hookListSize (InstructionList.mem_of_lookup hlookup)
          rw [decide_eq_true hin, Bool.true_and, hlookup, Option.all_some] at h
          rw [Option.bind_some]
          cases hnext : hook.next with
          | none =>
              rw [hnext] at h
              cases h
          | some next =>
              rw [hnext, Option.all_some] at h
              cases hsub : hook.preparationCb.bind fun cb => cb.subcode codes with
              | none => rfl
              | some subcode =>
                  rw [hsub, Option.all_some] at h
                  exact ih h

theorem rvCoreDecode_of_not_withinLists {s : RvCore w σ}
    (h : (subCodes s.instruction).withinLists w (s.instruction &&& 0x7F).toNat = false) :
    rvCoreDecode s = .error (unknownInstruction s) := by
  rw [← fits_rvOpcode (subCodes_func3_lt s.instruction)] at h
  exact rvCoreDecode_of_search_none (InstructionList.search_eq_none h)

end RiscvEm
