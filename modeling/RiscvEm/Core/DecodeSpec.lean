import RiscvEm.Core.Decode
import RiscvEm.Lib.Except

/-!
What decoding can do to the core: it writes scratch fields only, it always leaves
a callback of the tables, and for the atomic instructions it leaves `immediate`
at zero.
-/

namespace RiscvEm

variable {w : Xlen} {σ : Type}

/-! ### One table -/

def PreparationCb.final : PreparationCb → Bool
  | .uType | .jType => true
  | _ => false

/-- The entry has a callback and no further list, or a further list and a
preparation callback that finds its index. -/
def InstructionHook.complete {n : Nat} (hook : InstructionHook n) : Bool :=
  match hook.next with
  | none => hook.executionCb.isSome
  | some _ => hook.executionCb.isNone && hook.preparationCb.any fun cb => !cb.final

theorem InstructionList.hooks_complete {n : Nat} (list : InstructionList (n + 1)) :
    (list.hooks w).all (fun entry => entry.2.complete) = true := by
  cases w <;> cases list <;> rfl

theorem PreparationCb.run_subcode {cb : PreparationCb} (hcb : cb.final = false)
    (s : RvCore w σ) : ∃ subcode, (cb.run s).2 = some subcode := by
  cases cb with
  | uType => cases hcb
  | jType => cases hcb
  | _ => exact ⟨_, rfl⟩

theorem InstructionList.mem_of_lookup {n opcode : Nat} {list : InstructionList (n + 1)}
    {hook : InstructionHook n} (h : (list.hooks w).lookup opcode = some hook) :
    (opcode, hook) ∈ list.hooks w := by
  obtain ⟨l₁, l₂, hl, -⟩ := List.lookup_eq_some_iff.mp h
  rw [hl]
  exact List.mem_append_right _ List.mem_cons_self

/-- An entry ends the search with its callback, or leads on to the next list with the
sub-code that it finds. -/
theorem InstructionList.hook_cases {n opcode : Nat} {list : InstructionList (n + 1)}
    {hook : InstructionHook n} (h : (list.hooks w).lookup opcode = some hook) :
    (∃ cb, hook.executionCb = some cb ∧ hook.next = none) ∨
      ∃ prep next, hook.executionCb = none ∧ hook.preparationCb = some prep ∧
        hook.next = some next ∧ prep.final = false := by
  have hcomplete := List.all_eq_true.mp (list.hooks_complete (w := w)) _
    (InstructionList.mem_of_lookup h)
  simp only [InstructionHook.complete] at hcomplete
  cases hnext : hook.next with
  | none =>
      rw [hnext] at hcomplete
      obtain ⟨cb, hcb⟩ := Option.isSome_iff_exists.mp hcomplete
      exact .inl ⟨cb, hcb, rfl⟩
  | some next =>
      simp only [hnext, Bool.and_eq_true, Option.any_eq_true, Bool.not_eq_true',
        Option.isNone_iff_eq_none] at hcomplete
      obtain ⟨hexec, prep, hprep, hfinal⟩ := hcomplete
      exact .inr ⟨prep, next, hexec, hprep, rfl, hfinal⟩

/-- The entry found in one list either ends the search with its callback or leads
on to the next list. -/
theorem rvCallFromOpcodeList_cases {n opcode : Nat} {list : InstructionList (n + 1)}
    {s s' : RvCore w σ} (h : rvCallFromOpcodeList list opcode s = .ok s') :
    ∃ hook, (list.hooks w).lookup opcode = some hook ∧
      ((∃ cb, hook.executionCb = some cb ∧ hook.next = none ∧
          s' = { (hook.prepare s).1 with executeCb := some cb }) ∨
        ∃ subcode next, hook.executionCb = none ∧ hook.next = some next ∧
          rvCallFromOpcodeList next subcode (hook.prepare s).1 = .ok s') := by
  rw [rvCallFromOpcodeList] at h
  cases hlookup : (list.hooks w).lookup opcode with
  | none =>
      rw [hlookup] at h
      cases h
  | some hook =>
      rw [hlookup] at h
      refine ⟨hook, rfl, ?_⟩
      rcases InstructionList.hook_cases hlookup with
        ⟨cb, hcb, hnext⟩ | ⟨prep, next, hexec, hprep, hnext, hfinal⟩
      · refine .inl ⟨cb, hcb, hnext, ?_⟩
        cases hsub : (hook.prepare s).2 with
        | none =>
            simp only [hnext, hcb, hsub] at h
            exact (Except.ok.inj h).symm
        | some subcode =>
            simp only [hnext, hcb, hsub] at h
            exact (Except.ok.inj h).symm
      · obtain ⟨subcode, hsubcode⟩ := PreparationCb.run_subcode hfinal s
        have hfound : (hook.prepare s).2 = some subcode := by
          rw [InstructionHook.prepare, hprep]
          exact hsubcode
        simp only [hnext, hexec, hfound] at h
        exact .inr ⟨subcode, next, hexec, hnext, h⟩

/-! ### The frame of decoding -/

def DecodeFrame (s s' : RvCore w σ) : Prop :=
  s' = { s with
    opcode := s'.opcode, rd := s'.rd, rs1 := s'.rs1, rs2 := s'.rs2
    func3 := s'.func3, func7 := s'.func7, func6 := s'.func6, func5 := s'.func5
    immediate := s'.immediate, jumpOffset := s'.jumpOffset, executeCb := s'.executeCb }

theorem DecodeFrame.refl (s : RvCore w σ) : DecodeFrame s s := rfl

theorem DecodeFrame.trans {s s' s'' : RvCore w σ} (h : DecodeFrame s s')
    (h' : DecodeFrame s' s'') : DecodeFrame s s'' := by
  rw [DecodeFrame] at h h' ⊢
  rw [h', h]

theorem PreparationCb.run_frame (cb : PreparationCb) (s : RvCore w σ) :
    DecodeFrame s (cb.run s).1 := by
  cases cb <;> rfl

theorem InstructionHook.prepare_frame {n : Nat} (hook : InstructionHook n) (s : RvCore w σ) :
    DecodeFrame s (hook.prepare s).1 := by
  rw [InstructionHook.prepare]
  cases hook.preparationCb with
  | none => exact .refl s
  | some cb => exact cb.run_frame s

theorem rvCallFromOpcodeList_frame {n opcode : Nat} {list : InstructionList n}
    {s s' : RvCore w σ} (h : rvCallFromOpcodeList list opcode s = .ok s') :
    DecodeFrame s s' := by
  induction n generalizing opcode s with
  | zero => nomatch list
  | succ n ih =>
      obtain ⟨hook, -, hcases⟩ := rvCallFromOpcodeList_cases h
      refine (hook.prepare_frame s).trans ?_
      rcases hcases with ⟨cb, -, -, rfl⟩ | ⟨subcode, next, -, -, hcall⟩
      · exact rfl
      · exact ih hcall

theorem rvCoreDecode_frame {s s' : RvCore w σ} (h : rvCoreDecode s = .ok s') :
    DecodeFrame s s' := by
  rw [rvCoreDecode] at h
  refine DecodeFrame.trans ?_ (rvCallFromOpcodeList_frame h)
  exact rfl

/-! ### The callback that is found -/

def InstructionList.callbacks (w : Xlen) : {n : Nat} → InstructionList n → List ExecutionCb
  | 0, list => nomatch list
  | _ + 1, list => (list.hooks w).flatMap fun entry =>
      entry.2.executionCb.toList ++ (entry.2.next.map (callbacks w)).getD []

def InstructionHook.callbacks {n : Nat} (w : Xlen) (hook : InstructionHook n) :
    List ExecutionCb :=
  hook.executionCb.toList ++ (hook.next.map (InstructionList.callbacks w)).getD []

/-- A search that succeeds leaves one of the callbacks of its lists. -/
theorem rvCallFromOpcodeList_callback {n opcode : Nat} {list : InstructionList n}
    {s s' : RvCore w σ} (h : rvCallFromOpcodeList list opcode s = .ok s') :
    ∃ cb ∈ list.callbacks w, s'.executeCb = some cb := by
  induction n generalizing opcode s with
  | zero => nomatch list
  | succ n ih =>
      obtain ⟨hook, hlookup, hcases⟩ := rvCallFromOpcodeList_cases h
      have hmem := InstructionList.mem_of_lookup hlookup
      have hsub {cb : ExecutionCb} (hcb : cb ∈ hook.callbacks w) : cb ∈ list.callbacks w :=
        List.mem_flatMap.mpr ⟨_, hmem, hcb⟩
      rcases hcases with ⟨cb, hexec, -, rfl⟩ | ⟨subcode, next, -, hnext, hcall⟩
      · exact ⟨cb, hsub (by simp [InstructionHook.callbacks, hexec]), rfl⟩
      · obtain ⟨cb, hcb, hexec⟩ := ih hcall
        exact ⟨cb, hsub (by simp [InstructionHook.callbacks, hnext, hcb]), hexec⟩

theorem rvCoreDecode_callback {s s' : RvCore w σ} (h : rvCoreDecode s = .ok s') :
    ∃ cb, s'.executeCb = some cb := by
  rw [rvCoreDecode] at h
  obtain ⟨cb, -, hcb⟩ := rvCallFromOpcodeList_callback h
  exact ⟨cb, hcb⟩

/-! ### The operands below the top list -/

/-- The preparation callbacks that only read a sub-code. -/
def PreparationCb.subcodeOnly : PreparationCb → Bool
  | .func5 | .func6 | .func7 | .func7Func12Sub5 => true
  | _ => false

theorem InstructionList.hooks_subcodeOnly {n : Nat} (list : InstructionList (n + 1))
    (hn : n < 3) :
    (list.hooks w).all (fun entry => entry.2.preparationCb.all PreparationCb.subcodeOnly) =
      true := by
  cases w <;> cases list <;> first | rfl | omega

def OperandsKept (s s' : RvCore w σ) : Prop :=
  s'.rd = s.rd ∧ s'.rs1 = s.rs1 ∧ s'.rs2 = s.rs2 ∧ s'.immediate = s.immediate ∧
    s'.jumpOffset = s.jumpOffset

theorem OperandsKept.trans {s s' s'' : RvCore w σ} (h : OperandsKept s s')
    (h' : OperandsKept s' s'') : OperandsKept s s'' := by
  obtain ⟨hrd, hrs1, hrs2, himm, hjump⟩ := h
  obtain ⟨hrd', hrs1', hrs2', himm', hjump'⟩ := h'
  exact ⟨hrd'.trans hrd, hrs1'.trans hrs1, hrs2'.trans hrs2, himm'.trans himm,
    hjump'.trans hjump⟩

theorem rvCallFromOpcodeList_operands {n opcode : Nat} {list : InstructionList n} (hn : n ≤ 3)
    {s s' : RvCore w σ} (h : rvCallFromOpcodeList list opcode s = .ok s') :
    OperandsKept s s' := by
  induction n generalizing opcode s with
  | zero => nomatch list
  | succ n ih =>
      obtain ⟨hook, hlookup, hcases⟩ := rvCallFromOpcodeList_cases h
      have honly := List.all_eq_true.mp (list.hooks_subcodeOnly (w := w) hn) _
        (InstructionList.mem_of_lookup hlookup)
      have hprep : OperandsKept s (hook.prepare s).1 := by
        rw [InstructionHook.prepare]
        cases hcb : hook.preparationCb with
        | none => exact ⟨rfl, rfl, rfl, rfl, rfl⟩
        | some cb =>
            simp only [hcb, Option.all_some] at honly
            cases cb <;> first | exact ⟨rfl, rfl, rfl, rfl, rfl⟩ | cases honly
      rcases hcases with ⟨cb, -, -, rfl⟩ | ⟨subcode, next, -, -, hcall⟩
      · exact hprep
      · exact hprep.trans (ih (by omega) hcall)

/-! ### The immediate of the atomic instructions -/

def ExecutionCb.atomic : ExecutionCb → Bool
  | .lrW | .scW | .amoswapW | .amoaddW | .amoxorW | .amoandW | .amoorW
  | .amominW | .amomaxW | .amominuW | .amomaxuW
  | .lrD | .scD | .amoswapD | .amoaddD | .amoxorD | .amoandD | .amoorD
  | .amominD | .amomaxD | .amominuD | .amomaxuD => true
  | _ => false

/-- An entry of the top list prepares the register format, which has no immediate,
or leads to no atomic instruction. -/
theorem rvOpcode_hooks_atomic :
    (InstructionList.rvOpcode.hooks w).all (fun entry =>
      entry.2.preparationCb == some .rType || (entry.2.callbacks w).all fun cb => !cb.atomic) =
        true := by
  cases w <;> rfl

/-- The atomic instructions reuse the load and store handlers with no offset. -/
theorem rvCoreDecode_atomic_immediate {s s' : RvCore w σ} {cb : ExecutionCb}
    (h : rvCoreDecode s = .ok s') (hexec : s'.executeCb = some cb) (hcb : cb.atomic = true) :
    s'.immediate = 0 := by
  rw [rvCoreDecode] at h
  obtain ⟨hook, hlookup, hcases⟩ := rvCallFromOpcodeList_cases h
  have htop := List.all_eq_true.mp (rvOpcode_hooks_atomic (w := w)) _
    (InstructionList.mem_of_lookup hlookup)
  simp only [Bool.or_eq_true, beq_iff_eq, List.all_eq_true, Bool.not_eq_true'] at htop
  rcases htop with hprep | hnot
  · rcases hcases with ⟨cb', -, -, rfl⟩ | ⟨subcode, next, -, -, hcall⟩
    · simp [InstructionHook.prepare, hprep, PreparationCb.run]
    · obtain ⟨-, -, -, himm, -⟩ := rvCallFromOpcodeList_operands (Nat.le_refl 3) hcall
      rw [himm]
      simp [InstructionHook.prepare, hprep, PreparationCb.run]
  · have hreach : cb ∈ hook.callbacks w := by
      rcases hcases with ⟨cb', hcb', -, rfl⟩ | ⟨subcode, next, -, hnext, hcall⟩
      · obtain rfl := Option.some.inj hexec
        simp [InstructionHook.callbacks, hcb']
      · obtain ⟨cb', hmem', hexec'⟩ := rvCallFromOpcodeList_callback hcall
        obtain rfl := Option.some.inj (hexec.symm.trans hexec')
        simp [InstructionHook.callbacks, hnext, hmem']
    have hfalse := hnot cb hreach
    rw [hcb] at hfalse
    cases hfalse

end RiscvEm
