import RiscvEm.Isa.Paging
import RiscvEm.Isa.Rounds
import RiscvEm.Pmp.Decision

/-!
Processes: a program behind page tables runs as it would on a machine of its own, and
nothing outside of the pages that it writes is changed.
-/

namespace RiscvEm

variable {useSimpleUart : Bool}

section Process

variable {map : PageMap} {p : PrivilegeLevel} {m m' : IsaState .rv32}
  {s : RvCore .rv32 (RvSoc Devices)} {events : List SocEvent}

/-- A process that makes `n` steps in its pages makes them in `n` rounds of the main loop,
whatever characters arrive and whatever the devices do: it finds its registers and its
memory as they would be on a machine of its own, its tables still map its pages, and the
bytes that are not in pages it writes are those from before. -/
theorem process_refinement
    (hs : Emulates (pagedSpace useSimpleUart map p s.priv.byteAt) m s)
    (hsteps : Simulation.StepsIn (EmulatedStep (pagedSpace useSimpleUart map p s.priv.byteAt))
      (events.countP (· == .round)) m m') :
    ∃ outs s', rvSocEvents useSimpleUart events s = .ok (outs, s') ∧
      Emulates (pagedSpace useSimpleUart map p s.priv.byteAt) m' s' ∧
      map.view s'.priv.byteAt = m'.mem ∧
      ∀ b, ¬ map.Writes b → s'.priv.byteAt b = s.priv.byteAt b := by
  obtain ⟨outs, s', hcalls, hs'⟩ := (emulates_follows _).calls hsteps hs
  exact ⟨outs, s', hcalls, hs', hs'.represents.mem.mem, hs'.represents.mem.outside⟩

end Process

/-- The two instructions in a page of user mode, behind a table of one entry. -/
def pagedProgram : RvCore .rv32 (RvSoc Devices) :=
  { rvCoreInit {
      ram := fun a =>
        if a < 4096 then ([0x00000097, 0x0010A823].flatMap (leBytes 4)).getD a 0
        else (leBytes 4 0x200000DF).getD (a - 0x1004) 0
      devices := {} } with
    pc := 0x400000
    currPrivMode := .user
    pmp := { cfg := Function.update (fun _ => 0) 0 0x1F
             addr := Function.update (fun _ => 0) 0 (BitVec.allOnes 32) }
    mmu := { satpReg := 0x80080001 } }

def processMap : PageMap where
  frame v := if v = 0x400 then some 0x80000 else none
  grants _ _ := True
  injective := by
    intro v v' f hv hv'
    split at hv
    · split at hv'
      · omega
      · cases hv'
    · cases hv

theorem processMap_frame {v f : Nat} (h : processMap.frame v = some f) :
    v = 0x400 ∧ f = 0x80000 := by
  simp only [processMap, Option.ite_none_right_eq_some, Option.some.injEq] at h
  exact ⟨h.1, h.2.symm⟩

/-- The first entry of the PMP has the whole address space but for its last byte. -/
theorem pagedProgram_granted {addr : BitVec 32} {len : Nat} (hlen : 0 < len ∧ len ≤ 8)
    (hend : addr.toNat + len < 2 ^ 32) (t : BusAccessType) :
    pmpMemCheck pagedProgram.pmp .user addr len t = .ok := by
  have hmode : addrMode (pagedProgram.pmp.cfg 0) = .napot := by decide
  have hall : pagedProgram.pmp.addr 0 = BitVec.allOnes 32 := rfl
  have hlast : (lastByte (w := .rv32) addr len).toNat = addr.toNat + len - 1 :=
    toNat_lastByte hlen.1 hlen.2 (Nat.le_of_lt hend)
  have hfirst : WordWithin pagedProgram.pmp addr 0 := by
    refine (wordWithin_all hmode hall addr).mpr ?_
    show addr.toNat < 2 ^ 32 - 1
    omega
  have hsecond : WordWithin pagedProgram.pmp (lastByte addr len) 0 := by
    refine (wordWithin_all hmode hall _).mpr ?_
    rw [hlast]
    show addr.toNat + len - 1 < 2 ^ 32 - 1
    omega
  have huser : PrivilegeLevel.user ≠ .machine := by decide
  refine (pmpMemCheck_eq_ok_iff pagedProgram.pmp huser addr len t).mpr
    ⟨0, ⟨⟨?_, .inl hfirst⟩, ?_⟩, ?_⟩
  · rw [hmode]
    decide
  · intro j hj
    exact absurd hj (Nat.not_lt_zero _)
  · refine ⟨⟨hfirst, hsecond⟩, ?_⟩
    show (0x1F#8).getLsbD t.toNat = true
    cases t <;> decide

/-- The walks of the page end at the entry of the root table. -/
theorem pagedProgram_walk {va : BitVec 32} {f : Nat}
    (hframe : processMap.frame (va.toNat / 4096) = some f) :
    Sv32.walk (tableWord pagedProgram.priv.byteAt) va 2 0x80001000 = some (1, 0x200000DF) ∧
      Sv32.entries (tableWord pagedProgram.priv.byteAt) va 2 0x80001000 = [0x80001004] := by
  have hpage := (processMap_frame hframe).1
  have hvpn : Sv32.vpn va 1 = 1 := by
    rw [Sv32.vpn]
    omega
  have hword : tableWord pagedProgram.priv.byteAt 0x80001004 = 0x200000DF := by decide
  have hvalid : Sv32.Valid 0x200000DF := by decide
  have hleaf : Sv32.IsLeaf 0x200000DF := by decide
  rw [Sv32.walk, Sv32.entries, hvpn]
  show (if ¬ Sv32.Valid (tableWord pagedProgram.priv.byteAt 0x80001004) then none
    else if Sv32.IsLeaf (tableWord pagedProgram.priv.byteAt 0x80001004) then
      some (1, tableWord pagedProgram.priv.byteAt 0x80001004) else _) = _ ∧
    (if Sv32.Valid (tableWord pagedProgram.priv.byteAt 0x80001004) ∧
      ¬ Sv32.IsLeaf (tableWord pagedProgram.priv.byteAt 0x80001004) then _ else [0x80001004]) = _
  rw [hword, if_neg (not_not_intro hvalid), if_pos hleaf, if_neg (fun h => h.2 hleaf)]
  exact ⟨rfl, rfl⟩

theorem pagedProgram_tables : PageTables processMap .user false false pagedProgram.mmu.satpReg
    pagedProgram.pmp pagedProgram.priv.byteAt where
  active := by decide
  root := by decide
  entries := by
    intro va f hframe addr haddr
    have hroot : tableRoot pagedProgram.mmu.satpReg = 0x80001000 := by decide
    rw [hroot, (pagedProgram_walk hframe).2, List.mem_singleton] at haddr
    subst haddr
    refine ⟨by decide, pagedProgram_granted (by decide) (by decide) _, by decide, ?_⟩
    rintro i hi ⟨v, hv, -⟩
    have := (processMap_frame hv).2
    omega
  leaf := by
    intro va f t hframe _
    obtain ⟨hpage, rfl⟩ := processMap_frame hframe
    have hroot : tableRoot pagedProgram.mmu.satpReg = 0x80001000 := by decide
    rw [hroot]
    refine ⟨1, 0x200000DF, (pagedProgram_walk hframe).1, ⟨fun _ => by decide, ?_⟩, ?_, ?_⟩
    · intro h
      cases h
    · exact ⟨fun _ => .inl (by decide), fun _ => by decide, fun _ => by decide, by decide,
        by decide, fun _ => by decide⟩
    · have hppn : Sv32.ppn 0x200000DF = 0x80000 := by decide
      rw [Sv32.address, hppn]
      omega
  granted := by
    intro v f t addr len hframe _ hlen hlow hhigh
    obtain ⟨-, rfl⟩ := processMap_frame hframe
    exact pagedProgram_granted hlen (by omega) t

def processMachine : IsaState .rv32 :=
  { storeMachine with
    pc := 0x400000
    aligned := rfl
    mem := processMap.view pagedProgram.priv.byteAt }

theorem pagedProgram_emulates :
    Emulates (pagedSpace false processMap .user pagedProgram.priv.byteAt) processMachine
      pagedProgram where
  represents := ⟨rfl, rfl, ⟨by decide, fun t => by cases t <;> decide, pagedProgram_tables, rfl,
    fun _ _ => rfl⟩, rfl⟩
  between := ⟨.inl rfl, rfl⟩
  masked := by
    intro cause hie
    have hzero : (pagedProgram.trap.reg .m .ie).getLsbD cause = false := BitVec.getLsbD_zero
    rw [hzero] at hie
    cases hie

def processMachine₁ : IsaState .rv32 := (processMachine.setX 1 0x400000).next

theorem processMachine_steps : Simulation.StepsIn
    (EmulatedStep (pagedSpace false processMap .user pagedProgram.priv.byteAt)) 2
    processMachine (processMachine₁.store 0x400010 4 0x400000).next := by
  have hauipc : Encodes .rv32 .auipc (.u 1 0) (processMachine.word 4 0x400000) := by
    have hmem : (ExecutionCb.auipc, 0x17#7) ∈ uTypeCodes := by decide
    exact Encodes.uType hmem 1 0
  have hsw : Encodes .rv32 .sw (.s 1 1 16) (processMachine₁.word 4 0x400004) := by
    have hmem : (ExecutionCb.sw, 2#3) ∈ sTypeCodes .rv32 := by decide
    exact Encodes.sType hmem 1 1 16
  have hfirst : (pagedSpace false processMap .user pagedProgram.priv.byteAt).grants .instr
      0x400000 4 := ⟨trivial, by decide⟩
  have hsecond : (pagedSpace false processMap .user pagedProgram.priv.byteAt).grants .instr
      0x400004 4 := ⟨trivial, by decide⟩
  have hwrite : (pagedSpace false processMap .user pagedProgram.priv.byteAt).grants .write
      0x400010 4 := ⟨trivial, by decide⟩
  exact ⟨processMachine₁,
    ⟨⟨by decide, hfirst, _, _, hauipc, .value rfl⟩, by decide, hfirst, by decide⟩,
    _, ⟨⟨by decide, hsecond, _, _, hsw, .store rfl (by decide) hwrite⟩, by decide, hsecond,
      by decide⟩, rfl⟩

theorem process_refinement_store : ∃ outs s',
    rvSocEvents false [.round, .arrival 65, .round] pagedProgram = .ok (outs, s') ∧
      Emulates (pagedSpace false processMap .user pagedProgram.priv.byteAt)
        (processMachine₁.store 0x400010 4 0x400000).next s' ∧
      processMap.view s'.priv.byteAt = (processMachine₁.store 0x400010 4 0x400000).next.mem ∧
      ∀ b, ¬ processMap.Writes b → s'.priv.byteAt b = pagedProgram.priv.byteAt b :=
  process_refinement pagedProgram_emulates processMachine_steps

end RiscvEm
