import RiscvEm.Isa.Space

/-!
The handlers as the machine has them: the value that each computation stores, and the
accesses that the loads and the atomic instructions make.
-/

namespace RiscvEm

variable {w : Xlen} {σ : Type}

/-! ### The instructions of a build -/

def encodedInstructions (w : Xlen) : List ExecutionCb :=
  (rTypeCodes w).map Prod.fst ++ ((iTypeCodes w).map Prod.fst ++ ((shift5Codes w).map Prod.fst ++
    ((shift6Codes w).map Prod.fst ++ (uTypeCodes.map Prod.fst ++ otherInstructions w))))

theorem Encodes.mem {cb : ExecutionCb} {o : Operands} {word : BitVec 32}
    (h : Encodes w cb o word) : cb ∈ encodedInstructions w := by
  simp only [encodedInstructions, otherInstructions, List.mem_append]
  cases h with
  | rType hmem => exact .inl (List.mem_map_of_mem hmem)
  | iType hmem => exact .inr (.inl (List.mem_map_of_mem hmem))
  | shift5 hmem => exact .inr (.inr (.inl (List.mem_map_of_mem hmem)))
  | shift6 hmem => exact .inr (.inr (.inr (.inl (List.mem_map_of_mem hmem))))
  | uType hmem => exact .inr (.inr (.inr (.inr (.inl (List.mem_map_of_mem hmem)))))
  | sType hmem => simp [List.mem_map_of_mem (f := Prod.fst) hmem]
  | bType hmem => simp [List.mem_map_of_mem (f := Prod.fst) hmem]
  | csr hmem => simp [List.mem_map_of_mem (f := Prod.fst) hmem]
  | lr hmem => simp [List.mem_map_of_mem (f := Prod.fst) hmem]
  | amo hmem => simp [List.mem_map_of_mem (f := Prod.fst) hmem]
  | priv hmem => simp [List.mem_map_of_mem (f := Prod.fst) hmem]
  | jal => simp
  | fence => simp
  | fenceI => simp
  | sfenceVma => simp

/-- The double words and the word instructions are those of the 64-bit build. -/
theorem encodedInstructions_rv32 : (encodedInstructions .rv32).all (fun cb =>
    cb.accessLen != 8 && (wordInstructions.lookup cb).isNone) = true := by
  decide

theorem Encodes.rv64_of_double {cb : ExecutionCb} {o : Operands} {word : BitVec 32}
    (h : Encodes w cb o word) (hlen : cb.accessLen = 8) : w = .rv64 := by
  cases w with
  | rv64 => rfl
  | rv32 =>
      have hall := List.all_eq_true.mp encodedInstructions_rv32 cb h.mem
      rw [hlen] at hall
      cases hall

theorem Encodes.rv64_of_word {cb cb32 : ExecutionCb} {o : Operands} {word : BitVec 32}
    (h : Encodes w cb o word) (hcb : wordInstructions.lookup cb = some cb32) : w = .rv64 := by
  cases w with
  | rv64 => rfl
  | rv32 =>
      have hall := List.all_eq_true.mp encodedInstructions_rv32 cb h.mem
      rw [hcb, Bool.and_eq_true] at hall
      cases hall.2

/-! ### Computations -/

section Values

variable (busAccess : BusAccessFunc w σ) {cb : ExecutionCb} {o : Operands} {word : BitVec 32}
  {d : RvCore w σ}

/-- The low halves of the registers, and the operands, as a core of the 32-bit build. -/
def lowHalves (d : RvCore .rv64 σ) : RvCore .rv32 Unit :=
  { (rvCoreInit () : RvCore .rv32 Unit) with
    x := fun r => (d.x r).setWidth 32
    rd := d.rd, rs1 := d.rs1, rs2 := d.rs2, immediate := d.immediate.setWidth 32 }

theorem lowHalves_spec (d : RvCore .rv64 σ) : LowHalves d (lowHalves d) := ⟨rfl, rfl, rfl⟩

theorem setWidth_signExtend_half (imm : BitVec 12) :
    (imm.signExtend 64).setWidth 32 = imm.signExtend 32 := by
  apply BitVec.eq_of_getLsbD_eq
  intro i hi
  have hwide : i < 64 := Nat.lt_trans hi (by decide)
  rw [BitVec.getLsbD_setWidth, BitVec.getLsbD_signExtend, BitVec.getLsbD_signExtend]
  simp only [hi, hwide, decide_true, Bool.true_and]

theorem mem_wordInstructions {cb32 : ExecutionCb} (h : wordInstructions.lookup cb = some cb32) :
    (cb, cb32) ∈ wordInstructions := by
  have hall : ∀ cb' : ExecutionCb, ∀ cb32', wordInstructions.lookup cb' = some cb32' →
      (cb', cb32') ∈ wordInstructions := by
    intro cb' cb32' hlookup
    obtain ⟨l₁, l₂, heq, -⟩ := List.lookup_eq_some_iff.mp hlookup
    rw [heq]
    exact List.mem_append_right _ List.mem_cons_self
  exact hall cb cb32 h

/-- What the 32-bit handler stores on the low halves is the value of the instruction. -/
theorem lowHalves_value {d : RvCore .rv64 σ} (hx : d.x 0 = 0) (ho : o.DecodedTo d) {v : BitVec 32}
    {cb32 : ExecutionCb} (hcb : wordInstructions.lookup cb = some cb32)
    (hv : isaWord cb o d.x = some v) :
    d.rd = o.rd ∧ ∃ e, cb32.handler (fun _ _ _ _ _ _ => .error .hang) (lowHalves d) = .ok e ∧
      Writes (lowHalves d) e v := by
  have hlow := lowHalves_spec d
  have hzero : (lowHalves d).x 0 = 0 := by
    show (d.x 0).setWidth 32 = 0
    rw [hx]
    rfl
  cases o with
  | r rd rs1 rs2 =>
      simp only [isaWord, hcb] at hv
      obtain ⟨hrd, rfl, rfl, -⟩ := ho
      exact ⟨hrd, handler_register _ hzero hv⟩
  | i rd rs1 imm =>
      simp only [isaWord, hcb] at hv
      obtain ⟨hrd, rfl, himm⟩ := ho
      have himm' : signedImmediate (lowHalves d) = imm.signExtend 32 := by
        rw [← hlow.signedImmediate, himm]
        exact setWidth_signExtend_half imm
      exact ⟨hrd, handler_immediate _ himm' hv⟩
  | shift5 rd rs1 shamt =>
      simp only [isaWord, hcb] at hv
      obtain ⟨hrd, rfl, -, hshamt⟩ := ho
      have hshift : shiftImmediate (lowHalves d) = shamt.toNat := by
        rw [← hlow.shiftImmediate, hshamt]
      exact ⟨hrd, handler_shift _ hshift shamt.isLt hv⟩
  | shift6 | s | b | u | j | csr | rs1rs2 | none => simp [isaWord, hcb] at hv

/-- A word instruction extends what the 32-bit handler stores on the low halves. -/
theorem handler_lowHalves (busAccess : BusAccessFunc .rv64 σ) {d : RvCore .rv64 σ}
    {cb32 : ExecutionCb} (hcb : (cb, cb32) ∈ wordInstructions) {e : RvCore .rv32 Unit}
    {v : BitVec 32}
    (he : cb32.handler (fun _ _ _ _ _ _ => .error .hang) (lowHalves d) = .ok e)
    (hwrites : Writes (lowHalves d) e v) :
    cb.handler busAccess d = .ok (d.setX d.rd (v.signExtend 64)) := by
  have h := lowHalves_spec d
  have hstored {value : RvCore .rv64 σ → BitVec 32} {value32 : RvCore .rv32 Unit → BitVec 32}
      (heq : value d = value32 (lowHalves d)) (he : setRd value32 (lowHalves d) = .ok e) :
      setRdWord value d = .ok (d.setX d.rd (v.signExtend 64)) := by
    obtain rfl := Except.ok.inj he
    have hread := congrArg (fun t : RvCore .rv32 Unit => t.x (lowHalves d).rd) hwrites
    have hvalue : value32 (lowHalves d) = v := by
      simpa [RvCore.setX_x] using hread
    rw [← hvalue, ← heq]
    rfl
  simp only [wordInstructions, List.mem_cons, Prod.mk.injEq, List.not_mem_nil, or_false] at hcb
  rcases hcb with ⟨rfl, rfl⟩ | ⟨rfl, rfl⟩ | ⟨rfl, rfl⟩ | ⟨rfl, rfl⟩ | ⟨rfl, rfl⟩ | ⟨rfl, rfl⟩ |
    ⟨rfl, rfl⟩ | ⟨rfl, rfl⟩ | ⟨rfl, rfl⟩ | ⟨rfl, rfl⟩ | ⟨rfl, rfl⟩ | ⟨rfl, rfl⟩ | ⟨rfl, rfl⟩ |
    ⟨rfl, rfl⟩
  all_goals
    rw [ExecutionCb.handler] at he
    rw [ExecutionCb.handler]
  · exact hstored (by rw [h.rs1, h.signedImmediate, BitVec.add_comm]) he
  · refine hstored ?_ he
    rw [setWidth_shiftLeft, h.shiftImmediate]
    exact congrArg (· <<< _) h.rs1
  · exact hstored (by rw [h.rs1, h.shiftImmediate]) he
  · exact hstored (by rw [h.rs1, h.shiftImmediate]) he
  · exact hstored (by rw [h.rs1, h.rs2]) he
  · exact hstored (by rw [h.rs1, h.rs2]) he
  · exact hstored (by rw [h.rs1, h.shiftRs2]) he
  · exact hstored (by rw [h.rs1, h.shiftRs2]) he
  · exact hstored (by rw [h.rs1, h.shiftRs2]) he
  · exact hstored (by rw [h.rs1, h.rs2]) he
  · exact hstored (by rw [h.rs1, h.rs2]; rfl) he
  · exact hstored (by rw [h.rs1, h.rs2]) he
  · exact hstored (by rw [h.rs1, h.rs2]; rfl) he
  · exact hstored (by rw [h.rs1, h.rs2]) he

/-- The handler of a word instruction stores the value of the instruction. -/
theorem handler_word (henc : Encodes w cb o word) (hx : d.x 0 = 0) (ho : o.DecodedTo d)
    {v : BitVec 32} (hv : isaWord cb o d.x = some v) :
    d.rd = o.rd ∧ cb.handler busAccess d = .ok (d.setX d.rd (v.signExtend w.bits)) := by
  cases hcb : wordInstructions.lookup cb with
  | none => simp [isaWord, hcb] at hv
  | some cb32 =>
      obtain rfl := henc.rv64_of_word hcb
      obtain ⟨hrd, e, he, hwrites⟩ := lowHalves_value hx ho hcb hv
      exact ⟨hrd, handler_lowHalves busAccess (mem_wordInstructions hcb) he hwrites⟩

theorem handler_high (ho : o.DecodedTo d) {v : RvUintXlen w} (hv : isaHigh cb o d.x = some v) :
    d.rd = o.rd ∧ cb.handler busAccess d = .ok (d.setX d.rd v) := by
  have hhigh := highHalves busAccess d
  cases o with
  | r rd rs1 rs2 =>
      obtain ⟨hrd, rfl, rfl, -⟩ := ho
      refine ⟨hrd, ?_⟩
      cases cb with
      | mulh =>
          obtain ⟨v', hhandler, hvalue⟩ := hhigh.mulh
          obtain rfl := Option.some.inj hv
          rw [hhandler, ← hvalue, BitVec.ofInt_toInt]
      | mulhu =>
          obtain ⟨v', hhandler, hvalue⟩ := hhigh.mulhu
          obtain rfl := Option.some.inj hv
          rw [hhandler, ← hvalue, BitVec.ofNat_toNat, BitVec.setWidth_eq]
      | mulhsu =>
          obtain ⟨v', hhandler, hvalue⟩ := hhigh.mulhsu
          obtain rfl := Option.some.inj hv
          rw [hhandler, ← hvalue, BitVec.ofInt_toInt]
      | _ => cases hv
  | _ => cases cb <;> cases hv

end Values

/-! ### Loads -/

section Loads

variable (busAccess : BusAccessFunc w σ) {cb : ExecutionCb}

/-- The double word is as wide as the register, so that its load need not extend it. -/
theorem instrLd_eq (busAccess : BusAccessFunc .rv64 σ) :
    instrLd busAccess = load busAccess 8 fun v => v.signExtend 64 := by
  have hextend : (fun v : BitVec 64 => v.setWidth 64) = fun v => v.signExtend 64 := by
    funext v
    rw [BitVec.setWidth_eq, BitVec.signExtend_eq]
  exact congrArg (load busAccess 8) hextend

theorem handler_loadExt (hcb : cb.kind = .load) (hw : cb.accessLen = 8 → w = .rv64) :
    cb.handler busAccess = load busAccess cb.accessLen cb.loadExt := by
  by_cases hlen : cb.accessLen = 8
  · obtain rfl := hw hlen
    cases cb <;> first
      | (cases hcb; done)
      | (cases hlen; done)
      | exact instrLd_eq busAccess
  · cases cb <;> first
      | (cases hcb; done)
      | exact absurd rfl hlen
      | rfl

theorem handler_loadReservedExt (hcb : cb.kind = .loadReserved)
    (hw : cb.accessLen = 8 → w = .rv64) :
    cb.handler busAccess =
      loadReserved (load busAccess cb.accessLen fun v => v.signExtend w.bits) := by
  by_cases hlen : cb.accessLen = 8
  · obtain rfl := hw hlen
    cases cb <;> first
      | (cases hcb; done)
      | (cases hlen; done)
      | exact congrArg loadReserved (instrLd_eq busAccess)
  · cases cb <;> first
      | (cases hcb; done)
      | exact absurd rfl hlen
      | rfl

end Loads

end RiscvEm
