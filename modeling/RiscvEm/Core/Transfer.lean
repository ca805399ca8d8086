import RiscvEm.Core.Reach

/-!
Jumps, branches and returns, and the program counter after them.

A handler that transfers control stores the target in `next_pc`, where zero also stands
for an instruction that transfers nothing.
-/

namespace RiscvEm

variable {w : Xlen} {σ : Type}

/-! ### Targets -/

def ExecutionCb.branchTaken (a b : RvUintXlen w) : ExecutionCb → Option Bool
  | .beq => some (decide (a = b))
  | .bne => some (decide (a ≠ b))
  | .blt => some (decide (a.toInt < b.toInt))
  | .bge => some (decide (b.toInt ≤ a.toInt))
  | .bltu => some (decide (a.toNat < b.toNat))
  | .bgeu => some (decide (b.toNat ≤ a.toNat))
  | _ => none

inductive Transfers (d : RvCore w σ) : ExecutionCb → RvUintXlen w → Prop
  | jal : Transfers d .jal (d.pc + d.jumpOffset)
  | jalr : Transfers d .jalr ((d.x d.rs1 + signedImmediate d) &&& ~~~1#w.bits)
  | branch {cb : ExecutionCb} (h : cb.branchTaken (d.x d.rs1) (d.x d.rs2) = some true) :
      Transfers d cb (d.pc + d.jumpOffset)
  | mret (h : d.currPrivMode = .machine) : Transfers d .mret (d.trap.reg .m .epc)
  | sret (h : d.currPrivMode = .supervisor) : Transfers d .sret (d.trap.reg .s .epc)

def ExecutionCb.links : ExecutionCb → Bool
  | .jal | .jalr => true
  | _ => false

/-- The transfers whose offset is checked instead of their target. -/
def ExecutionCb.relative : ExecutionCb → Bool
  | .jal | .beq | .bne | .blt | .bge | .bltu | .bgeu => true
  | _ => false

/-- The call ends at the target, with the return address in the destination register
of a linking jump. -/
def TransferDone (busAccess : BusAccessFunc w σ) (s d : RvCore w σ) (cb : ExecutionCb)
    (target : RvUintXlen w) : Prop :=
  ∃ s', rvCoreRun busAccess s = .ok s' ∧ s'.pc = target ∧
    (cb.links = true → d.rd ≠ 0 → s'.x d.rd = s.pc + 4)

/-- The transfers of one call reach their targets, and a branch that is not taken goes
on with the next instruction. -/
structure ControlFlow (busAccess : BusAccessFunc w σ) (s : RvCore w σ) : Prop where
  taken : ∀ cb d target, Executes busAccess s cb d → Transfers d cb target →
    target.toNat % 4 = 0 → TransferDone busAccess s d cb target
  notTaken : ∀ cb d, Executes busAccess s cb d →
    cb.branchTaken (d.x d.rs1) (d.x d.rs2) = some false →
      ∃ s', rvCoreRun busAccess s = .ok s' ∧ s'.pc = s.pc + 4

/-! ### Alignment -/

theorem addrMisaligned_eq (v : RvUintXlen w) : addrMisaligned v = decide (v.toNat % 4 ≠ 0) := by
  have hmod : (v &&& 0x3#w.bits).toNat = v.toNat % 2 ^ 2 := by
    cases w with
    | rv32 => exact BitField.toNat_and_ones v rfl
    | rv64 => exact BitField.toNat_and_ones v rfl
  rw [addrMisaligned, BitVec.ofNat_eq_ofNat, Bool.eq_iff_iff, bne_iff_ne, decide_eq_true_iff, Ne,
    ← BitVec.toNat_inj, hmod]
  exact Iff.rfl

theorem four_dvd_pow : 4 ∣ 2 ^ w.bits :=
  Nat.pow_dvd_pow 2 (Nat.le_trans (by decide : 2 ≤ 32) w.bits_ge)

theorem aligned_of_add {a b : RvUintXlen w} (h : (a + b).toNat % 4 = 0) :
    b.toNat % 4 = 0 ↔ a.toNat % 4 = 0 := by
  rw [BitVec.toNat_add, Nat.mod_mod_of_dvd _ four_dvd_pow] at h
  omega

theorem clearBit_zero (v : RvUintXlen w) : clearBit v 0 = v &&& ~~~1#w.bits := by
  rw [clearBit, BitVec.shiftLeft_zero]

/-! ### The handlers -/

section Handlers

variable (busAccess : BusAccessFunc w σ) {d : RvCore w σ} {cb : ExecutionCb}

theorem handler_branch {taken : Bool}
    (h : cb.branchTaken (d.x d.rs1) (d.x d.rs2) = some taken) :
    cb.relative = true ∧ cb.links = false ∧ cb.handler busAccess d =
      if taken then
        if addrMisaligned d.jumpOffset then .error (.halt (.die .addrMisaligned))
        else .ok { d with nextPc := d.pc + d.jumpOffset }
      else .ok d := by
  cases cb <;> cases h <;> refine ⟨rfl, rfl, ?_⟩ <;> rw [ExecutionCb.handler]
  case beq =>
    have hcond : (d.x d.rs1 == d.x d.rs2) = decide (d.x d.rs1 = d.x d.rs2) := by
      rw [Bool.eq_iff_iff, beq_iff_eq, decide_eq_true_iff]
    rw [instrBeq, branch, hcond]
  case bne =>
    have hcond : (d.x d.rs1 != d.x d.rs2) = decide (d.x d.rs1 ≠ d.x d.rs2) := by
      rw [Bool.eq_iff_iff, bne_iff_ne, decide_eq_true_iff]
    rw [instrBne, branch, hcond]
  case blt => rfl
  case bge => rfl
  case bltu => rfl
  case bgeu => rfl

theorem instrJal_eq (h : addrMisaligned d.jumpOffset = false) :
    instrJal d = .ok { d.setX d.rd (d.pc + 4) with nextPc := d.pc + d.jumpOffset } := by
  have hcheck : ¬ addrMisaligned d.jumpOffset = true := by
    rw [h]
    decide
  exact if_neg hcheck

theorem instrJalr_eq
    (h : addrMisaligned (clearBit (d.x d.rs1 + signedImmediate d) 0) = false) :
    instrJalr d = .ok ({ d with
      jumpOffset := signedImmediate d
      nextPc := clearBit (d.x d.rs1 + signedImmediate d) 0 }.setX d.rd (d.pc + 4)) := by
  have hcheck : ¬ addrMisaligned (clearBit (d.x d.rs1 + signedImmediate d) 0) = true := by
    rw [h]
    decide
  exact if_neg hcheck

/-- A transfer to an aligned target stores it, unless the offset is refused. -/
theorem handler_transfer {target : RvUintXlen w} (h : Transfers d cb target)
    (haligned : target.toNat % 4 = 0) :
    (cb.relative = true ∧ d.pc.toNat % 4 ≠ 0 ∧
        cb.handler busAccess d = .error (.halt (.die .addrMisaligned))) ∨
      ((cb.relative = true → d.pc.toNat % 4 = 0) ∧ ∃ e, cb.handler busAccess d = .ok e ∧
        e.nextPc = target ∧ e.pc = d.pc ∧ (cb.links = true → e.x d.rd = d.pc + 4)) := by
  -- the offset of a relative transfer is aligned where the program counter is
  have hoffset {offset : RvUintXlen w} (h : (d.pc + offset).toNat % 4 = 0) :
      addrMisaligned offset = decide (d.pc.toNat % 4 ≠ 0) := by
    rw [addrMisaligned_eq, decide_eq_decide, not_iff_not]
    exact aligned_of_add h
  cases h with
  | jal =>
      rw [ExecutionCb.handler]
      by_cases hpc : d.pc.toNat % 4 = 0
      · refine .inr ⟨fun _ => hpc, ?_⟩
        have hcheck : addrMisaligned d.jumpOffset = false := by
          rw [hoffset haligned, hpc]
          rfl
        exact ⟨_, instrJal_eq hcheck, rfl, rfl, fun _ => Function.update_self _ _ _⟩
      · refine .inl ⟨rfl, hpc, ?_⟩
        have hcheck : addrMisaligned d.jumpOffset = true := by
          rw [hoffset haligned, decide_eq_true hpc]
        exact if_pos hcheck
  | jalr =>
      rw [ExecutionCb.handler]
      refine .inr ⟨(fun h => by cases h), ?_⟩
      rw [← clearBit_zero] at haligned ⊢
      have hcheck : addrMisaligned (clearBit (d.x d.rs1 + signedImmediate d) 0) = false := by
        rw [addrMisaligned_eq, haligned]
        rfl
      exact ⟨_, instrJalr_eq hcheck, rfl, rfl, fun _ => Function.update_self _ _ _⟩
  | branch htaken =>
      obtain ⟨hrelative, hlinks, hhandler⟩ := handler_branch busAccess htaken
      rw [hhandler, if_pos rfl, hoffset haligned, hlinks]
      by_cases hpc : d.pc.toNat % 4 = 0
      · refine .inr ⟨fun _ => hpc, ?_⟩
        rw [if_neg (by rw [hpc]; decide)]
        exact ⟨_, rfl, rfl, rfl, fun h => by cases h⟩
      · refine .inl ⟨hrelative, hpc, ?_⟩
        rw [if_pos (decide_eq_true hpc)]
  | mret hmode =>
      rw [ExecutionCb.handler]
      refine .inr ⟨(fun h => by cases h), ?_⟩
      exact ⟨_, xret_eq .m (.inr (.inr hmode)), rfl, rfl, fun h => by cases h⟩
  | sret hmode =>
      rw [ExecutionCb.handler]
      refine .inr ⟨(fun h => by cases h), ?_⟩
      exact ⟨_, xret_eq .s (.inr (.inl hmode)), rfl, rfl, fun h => by cases h⟩

end Handlers

/-! ### The program counter -/

theorem advance_pc (s : RvCore w σ) :
    (advance s).pc = if s.nextPc ≠ 0 then s.nextPc else s.pc + 4 := rfl

theorem advance_x (s : RvCore w σ) : (advance s).x = s.x := rfl

/-- A transfer reaches an aligned target where `next_pc` can tell it from no transfer and
the check of its offset is one of the target. -/
theorem transferDone_iff {busAccess : BusAccessFunc w σ} {s d : RvCore w σ} {cb : ExecutionCb}
    {target : RvUintXlen w} (hexec : Executes busAccess s cb d) (h : Transfers d cb target)
    (haligned : target.toNat % 4 = 0) :
    TransferDone busAccess s d cb target ↔
      (target ≠ 0 ∨ s.pc + 4 = 0) ∧ (cb.relative = true → s.pc.toNat % 4 = 0) := by
  have hpc : d.pc = s.pc := by rw [hexec.frame]
  rcases handler_transfer busAccess h haligned with
    ⟨hrelative, hmis, herr⟩ | ⟨hrel, e, he, hnext, hepc, hlink⟩
  · constructor
    · rintro ⟨s', hrun, -⟩
      obtain ⟨e, he, -⟩ := hexec.handler_of_run hrun
      rw [herr] at he
      cases he
    · rintro ⟨-, hrel⟩
      exact absurd (hrel hrelative) (hpc ▸ hmis)
  · have hrun := hexec.run he
    have hafter : (advance (e.setX 0 0)).pc = if target ≠ 0 then target else s.pc + 4 := by
      rw [advance_pc, ← hnext, ← hpc, ← hepc]
      rfl
    constructor
    · rintro ⟨s', hrun', htarget, -⟩
      obtain rfl := Except.ok.inj (hrun.symm.trans hrun')
      refine ⟨?_, hpc ▸ hrel⟩
      rw [hafter] at htarget
      by_cases hzero : target = 0
      · rw [if_neg (not_not.mpr hzero), hzero] at htarget
        exact .inr htarget
      · exact .inl hzero
    · rintro ⟨hzero, -⟩
      refine ⟨_, hrun, ?_, fun hlinks hrd => ?_⟩
      · rw [hafter]
        split
        · rfl
        · next hnot =>
            have htarget := not_not.mp hnot
            rw [htarget]
            exact hzero.resolve_left (not_not.mpr htarget)
      · rw [advance_x]
        show Function.update e.x 0 0 d.rd = _
        rw [Function.update_of_ne hrd, hlink hlinks, hpc]

/-- The transfers of a call reach their targets, except for the target zero, which is taken
for no transfer unless the next instruction is there anyway, and for the relative
transfers from a misaligned program counter, whose offset is then misaligned. -/
theorem controlFlow_iff (busAccess : BusAccessFunc w σ) (s : RvCore w σ) :
    ControlFlow busAccess s ↔ ∀ cb d target, Executes busAccess s cb d → Transfers d cb target →
      target.toNat % 4 = 0 →
        (target ≠ 0 ∨ s.pc + 4 = 0) ∧ (cb.relative = true → s.pc.toNat % 4 = 0) := by
  constructor
  · intro h cb d target hexec htransfer haligned
    exact (transferDone_iff hexec htransfer haligned).mp
      (h.taken cb d target hexec htransfer haligned)
  · intro h
    constructor
    case taken =>
      intro cb d target hexec htransfer haligned
      exact (transferDone_iff hexec htransfer haligned).mpr
        (h cb d target hexec htransfer haligned)
    case notTaken =>
      intro cb d hexec htaken
      obtain ⟨-, -, hhandler⟩ := handler_branch busAccess htaken
      refine ⟨_, hexec.run hhandler, ?_⟩
      have hnext : d.nextPc = 0 := hexec.nextPc
      have hpc : d.pc = s.pc := by rw [hexec.frame]
      rw [advance_pc, ← hpc]
      exact if_neg (not_not.mpr hnext)

/-- `jalr x0, 0(x0)` at the start goes on with the next instruction. -/
theorem jump_to_zero_lost :
    ¬ ∀ (busAccess : BusAccessFunc .rv32 Unit) (s : RvCore .rv32 Unit),
      CoreReachable busAccess s → ControlFlow busAccess s := by
  intro h
  have hcheck : executesAny (romBus [0x00000067]) (rvCoreInit () : RvCore .rv32 Unit)
      (fun cb d => cb == .jalr && (d.x d.rs1 + signedImmediate d) &&& ~~~1#32 == 0) = true := by
    decide
  have hrun : (rvCoreRun (romBus [0x00000067]) (rvCoreInit () : RvCore .rv32 Unit)).toOption.any
      (fun s' => s'.pc == 0x1004) = true := by
    decide +kernel
  obtain ⟨cb, d, hexec, hd⟩ := exists_of_executesAny hcheck
  rw [Bool.and_eq_true, beq_iff_eq, beq_iff_eq] at hd
  obtain ⟨rfl, htarget⟩ := hd
  obtain ⟨s', hs', hpc⟩ := Except.exists_of_any_toOption hrun
  have hflow := h (romBus [0x00000067]) (rvCoreInit ()) (.of_init ⟨(), rfl⟩)
  obtain ⟨s'', hs'', hzero, -⟩ := hflow.taken .jalr d 0 hexec
    (htarget ▸ Transfers.jalr) rfl
  obtain rfl := Except.ok.inj (hs'.symm.trans hs'')
  rw [beq_iff_eq, hzero] at hpc
  exact absurd hpc (by decide)

end RiscvEm
