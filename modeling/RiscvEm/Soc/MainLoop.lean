import RiscvEm.Core.Counters
import RiscvEm.Lib.DoWhile
import RiscvEm.Soc.Runs

/-!
`rv_soc_run` with its two ends: a program counter that means success, and a number of cycles.
Characters may arrive before each round. The count of the rounds is what the guest reads from
its counters, and what ends the loop.
-/

namespace RiscvEm

open Simulation (rounds)

variable {w : Xlen} {useSimpleUart : Bool}

/-! ### The loop -/

def rvSocRoundAfter (useSimpleUart : Bool) (arrivals : List Byte) (s : RvCore w (RvSoc Devices)) :
    Except Stop (List Byte × RvCore w (RvSoc Devices)) := do
  let (_, s) ← rvSocEvents useSimpleUart (arrivals.map .arrival) s
  rvSocRound useSimpleUart s

def socStops (successPc : RvUintXlen w) (numCycles : BitVec 64) (s : RvCore w (RvSoc Devices)) :
    Bool :=
  s.pc == successPc || numCycles != 0 && numCycles.ule s.currCycle

/-- `rv_soc_run` for at most `fuel` rounds, with the characters that arrive before each of
them: what is printed round by round and the system at the end, or nothing while the loop goes
on. -/
def rvSocRun (useSimpleUart : Bool) (successPc : RvUintXlen w) (numCycles : BitVec 64)
    (fuel : Nat) (arrivals : Nat → List Byte) (s : RvCore w (RvSoc Devices)) :
    Except Stop (Option (List (List Byte) × RvCore w (RvSoc Devices))) :=
  Simulation.doWhile (rvSocRoundAfter useSimpleUart) (socStops successPc numCycles) fuel arrivals s

/-! ### The count of the rounds -/

structure RvCore.Counts (s : RvCore w (RvSoc Devices)) (n : Nat) : Prop where
  currCycle : s.currCycle = BitVec.ofNat 64 n
  shows : s.ShowsCycle
  table : TableKept s.csrRegs

theorem initial_counts {s : RvCore w (RvSoc Devices)} (h : s.Initial) : s.Counts 0 := by
  obtain ⟨priv, rfl⟩ := h
  refine ⟨rfl, ?_, fun _ => rfl⟩
  intro entry hentry
  have hvalue : ∀ entry ∈ cycleCsrs w, (rvCoreInitCsrRegs w entry.1).value = 0 := by
    cases w <;> decide
  show (rvCoreInitCsrRegs w entry.1).value = (0#64 >>> entry.2).setWidth w.bits
  rw [hvalue entry hentry, BitVec.ofNat_eq_ofNat, BitVec.zero_ushiftRight, BitVec.setWidth_zero]

variable {s s' : RvCore w (RvSoc Devices)} {n : Nat}

theorem rvSocRound_tableKept {printed : List Byte} (htable : TableKept s.csrRegs)
    (h : rvSocRound useSimpleUart s = .ok (printed, s')) : TableKept s'.csrRegs := by
  obtain ⟨s₁, mei, mti, msi, devices, hrun, -, hint⟩ := rvSocRound_cases h
  have hs₁ : TableKept s₁.csrRegs := htable.rvCoreRun hrun
  rw [rvCoreProcessInterrupts_frame hint]
  exact hs₁

theorem rvSocRound_counts {printed : List Byte} (hs : s.Counts n)
    (h : rvSocRound useSimpleUart s = .ok (printed, s')) : s'.Counts (n + 1) := by
  obtain ⟨s₁, mei, mti, msi, devices, hrun, -, hint⟩ := rvSocRound_cases h
  have hframe := rvCoreProcessInterrupts_frame hint
  have hcycle : s'.currCycle = s₁.currCycle := by rw [hframe]
  have htable : s'.csrRegs = s₁.csrRegs := by rw [hframe]
  refine ⟨?_, (rvCoreRun_showsCycle hrun).of_same hcycle htable, rvSocRound_tableKept hs.table h⟩
  rw [hcycle, rvCoreRun_currCycle hrun, hs.currCycle, BitVec.ofNat_add]
  rfl

theorem rvSocEvents_counts {events : List SocEvent} {outs : List (List Byte)} (hs : s.Counts n)
    (h : rvSocEvents useSimpleUart events s = .ok (outs, s')) :
    s'.Counts (n + events.countP (· == .round)) := by
  induction events generalizing s n outs with
  | nil =>
      obtain ⟨-, rfl⟩ := Prod.mk.inj (Except.ok.inj h)
      exact hs
  | cons e rest ih =>
      obtain ⟨out, s₁, outs', hexec, hrest, -⟩ := Simulation.calls_cons_eq_ok.mp h
      cases e with
      | round =>
          rw [List.countP_cons_of_pos (by rfl), ← Nat.add_assoc, Nat.add_right_comm]
          exact ih (rvSocRound_counts hs hexec) hrest
      | arrival x =>
          rw [List.countP_cons_of_neg (by simp)]
          refine ih ?_ hrest
          obtain ⟨devices, -, hexec⟩ := Except.bind_eq_ok.mp hexec
          obtain ⟨-, rfl⟩ := Prod.mk.inj (Except.ok.inj hexec)
          exact ⟨hs.currCycle, hs.shows, hs.table⟩

theorem countP_arrivals (arrivals : List Byte) :
    (arrivals.map SocEvent.arrival).countP (· == .round) = 0 := by
  rw [List.countP_eq_zero]
  intro e he
  obtain ⟨x, -, rfl⟩ := List.mem_map.mp he
  simp

theorem rvSocRoundAfter_counts {arrivals : List Byte} {printed : List Byte} (hs : s.Counts n)
    (h : rvSocRoundAfter useSimpleUart arrivals s = .ok (printed, s')) : s'.Counts (n + 1) := by
  obtain ⟨⟨outs, s₁⟩, harrivals, hround⟩ := Except.bind_eq_ok.mp h
  have hs₁ := rvSocEvents_counts hs harrivals
  rw [countP_arrivals] at hs₁
  exact rvSocRound_counts hs₁ hround

theorem rounds_counts {arrivals : Nat → List Byte} {k : Nat} {outs : List (List Byte)}
    (hs : s.Counts n) (h : rounds (rvSocRoundAfter useSimpleUart) arrivals k s = .ok (outs, s')) :
    s'.Counts (n + k) := by
  induction k generalizing s n arrivals outs with
  | zero =>
      obtain ⟨-, rfl⟩ := Prod.mk.inj (Except.ok.inj h)
      exact hs
  | succ k ih =>
      obtain ⟨out, s₁, outs', hexec, hrest, -⟩ := Simulation.rounds_succ_eq_ok.mp h
      rw [Nat.add_comm k, ← Nat.add_assoc]
      exact ih (rvSocRoundAfter_counts hs hexec) hrest

/-- After any number of rounds from the start, and whatever the guest has written to them, the
counters read that number: its low bits, and in the 32-bit build its upper half in the
registers for it. -/
theorem counters_read_rounds {fw : List Byte} {dtb initrd : Option (List Byte)}
    {events : List SocEvent} {outs : List (List Byte)} {p : PrivilegeLevel} {entry : Nat × Nat}
    (hinit : rvSocInit w fw dtb initrd = .ok s)
    (hrun : rvSocEvents useSimpleUart events s = .ok (outs, s')) (hentry : entry ∈ cycleCsrs w)
    (hp : CounterReadable p entry.1) :
    csrReadReg s' p entry.1 = .ok (some
      ((BitVec.ofNat 64 (events.countP (· == .round)) >>> entry.2).setWidth w.bits)) := by
  have hcounts := rvSocEvents_counts (initial_counts (rvSocInit_initial hinit)) hrun
  rw [Nat.zero_add] at hcounts
  rw [csrReadReg_counter hcounts.table hcounts.shows hentry hp, hcounts.currCycle]

theorem counters_read_rounds_two : ∃ s s' outs,
    rvSocInit .rv32 [] none none = .ok s ∧
      rvSocEvents false [.round, .arrival 65, .round] s = .ok (outs, s') ∧
        csrReadReg s' .user csrAddrTime = .ok (some 2) := by
  have hboth : (rvSocInit .rv32 [] none none).toOption.any (fun s =>
      (rvSocEvents false [.round, .arrival 65, .round] s).toOption.any fun _ => true) = true := by
    decide +kernel
  obtain ⟨s, hinit, hrun⟩ := Except.exists_of_any_toOption hboth
  obtain ⟨⟨outs, s'⟩, hrun, -⟩ := Except.exists_of_any_toOption hrun
  have htime : (csrAddrTime, 0) ∈ cycleCsrs .rv32 := by decide
  exact ⟨s, s', outs, hinit, hrun,
    counters_read_rounds hinit hrun htime (.inr ⟨by decide, .inl rfl⟩)⟩

/-! ### The end of the loop -/

/-- The loop ends after so many rounds: at the first of them that leaves the program counter
at the address of success, or when the cycles are used up. -/
structure RunEnds (useSimpleUart : Bool) (successPc : RvUintXlen w) (numCycles : BitVec 64)
    (arrivals : Nat → List Byte) (s : RvCore w (RvSoc Devices)) (n : Nat)
    (outs : List (List Byte)) (s' : RvCore w (RvSoc Devices)) : Prop where
  pos : 0 < n
  rounds : rounds (rvSocRoundAfter useSimpleUart) arrivals n s = .ok (outs, s')
  reason : s'.pc = successPc ∨ numCycles ≠ 0 ∧ n = numCycles.toNat
  first : ∀ k outs₁ s₁, 0 < k → k < n →
    Simulation.rounds (rvSocRoundAfter useSimpleUart) arrivals k s = .ok (outs₁, s₁) →
      s₁.pc ≠ successPc
  within : numCycles ≠ 0 → n ≤ numCycles.toNat

section Ends

variable {successPc : RvUintXlen w} {numCycles : BitVec 64} {arrivals : Nat → List Byte}

theorem socStops_iff (hs : s.Counts n) (hn : n < 2 ^ 64 ∨ numCycles = 0) :
    socStops successPc numCycles s = true ↔
      s.pc = successPc ∨ numCycles ≠ 0 ∧ numCycles.toNat ≤ n := by
  rw [socStops, Bool.or_eq_true, beq_iff_eq, Bool.and_eq_true, bne_iff_ne, BitVec.ule_eq_decide,
    decide_eq_true_eq, hs.currCycle, BitVec.toNat_ofNat]
  rcases hn with hn | rfl
  · rw [Nat.mod_eq_of_lt hn]
  · simp

/-- The loop does not go on when the cycles are used up. -/
theorem runsOn_le_cycles {k m : Nat} {outs : List (List Byte)} (hs : s.Counts 0)
    (hcycles : numCycles ≠ 0) (hk : numCycles.toNat ≤ k)
    (h : rounds (rvSocRoundAfter useSimpleUart) arrivals k s = .ok (outs, s'))
    (hfirst : Simulation.RunsOn (rvSocRoundAfter useSimpleUart) (socStops successPc numCycles)
      arrivals m s) : m ≤ numCycles.toNat := by
  by_contra hlt
  have hpos : 0 < numCycles.toNat := by
    rw [Nat.pos_iff_ne_zero]
    exact fun hzero => hcycles (BitVec.eq_of_toNat_eq hzero)
  obtain ⟨outs₁, s₁, hrounds⟩ := Simulation.rounds_prefix h hk
  have hcounts := rounds_counts hs hrounds
  rw [Nat.zero_add] at hcounts
  have hstop := hfirst _ outs₁ s₁ hpos (Nat.lt_of_not_le hlt) hrounds
  rw [(socStops_iff hcounts (.inl numCycles.isLt)).mpr (.inr ⟨hcycles, Nat.le_refl _⟩)] at hstop
  cases hstop

theorem runEnds_iff (hs : s.Counts 0) {outs : List (List Byte)} :
    Simulation.EndsAfter (rvSocRoundAfter useSimpleUart) (socStops successPc numCycles) arrivals n
        s outs s' ↔ RunEnds useSimpleUart successPc numCycles arrivals s n outs s' := by
  have hcounts {k : Nat} {outs₁ : List (List Byte)} {s₁ : RvCore w (RvSoc Devices)}
      (h : rounds (rvSocRoundAfter useSimpleUart) arrivals k s = .ok (outs₁, s₁)) :
      s₁.Counts k := by
    have hk := rounds_counts hs h
    rwa [Nat.zero_add] at hk
  constructor
  · intro h
    have hwithin : numCycles ≠ 0 → n ≤ numCycles.toNat := by
      intro hcycles
      by_contra hlt
      exact hlt (runsOn_le_cycles hs hcycles (Nat.le_of_not_le hlt) h.rounds h.first)
    have hsmall : ∀ k ≤ n, k < 2 ^ 64 ∨ numCycles = 0 := by
      intro k hk
      by_cases hcycles : numCycles = 0
      · exact .inr hcycles
      · exact .inl (Nat.lt_of_le_of_lt (hk.trans (hwithin hcycles)) numCycles.isLt)
    refine ⟨h.pos, h.rounds, ?_, ?_, hwithin⟩
    · have hlast := (socStops_iff (hcounts h.rounds) (hsmall n (Nat.le_refl n))).mp h.last
      refine hlast.imp_right ?_
      rintro ⟨hcycles, hle⟩
      exact ⟨hcycles, Nat.le_antisymm (hwithin hcycles) hle⟩
    · intro k outs₁ s₁ hpos hlt hrounds hpc
      have hstop := h.first k outs₁ s₁ hpos hlt hrounds
      rw [(socStops_iff (hcounts hrounds) (hsmall k (Nat.le_of_lt hlt))).mpr (.inl hpc)] at hstop
      cases hstop
  · intro h
    have hsmall : ∀ k ≤ n, k < 2 ^ 64 ∨ numCycles = 0 := by
      intro k hk
      by_cases hcycles : numCycles = 0
      · exact .inr hcycles
      · exact .inl (Nat.lt_of_le_of_lt (hk.trans (h.within hcycles)) numCycles.isLt)
    refine ⟨h.pos, h.rounds, ?_, ?_⟩
    · intro k outs₁ s₁ hpos hlt hrounds
      rw [← Bool.not_eq_true, socStops_iff (hcounts hrounds) (hsmall k (Nat.le_of_lt hlt))]
      rintro (hpc | ⟨hcycles, hle⟩)
      · exact h.first k outs₁ s₁ hpos hlt hrounds hpc
      · have := h.within hcycles
        omega
    · refine (socStops_iff (hcounts h.rounds) (hsmall n (Nat.le_refl n))).mpr ?_
      refine h.reason.imp_right ?_
      rintro ⟨hcycles, heq⟩
      exact ⟨hcycles, Nat.le_of_eq heq.symm⟩

/-- From the start the loop ends just where it should, and with a number of cycles it ends
within that many rounds unless the emulator itself stops. -/
theorem rvSocRun_ends_iff {fw : List Byte} {dtb initrd : Option (List Byte)} {fuel : Nat}
    (hinit : rvSocInit w fw dtb initrd = .ok s) :
    (∀ outs s', rvSocRun useSimpleUart successPc numCycles fuel arrivals s = .ok (some (outs, s')) ↔
        ∃ n ≤ fuel, RunEnds useSimpleUart successPc numCycles arrivals s n outs s') ∧
      (numCycles ≠ 0 → numCycles.toNat ≤ fuel →
        rvSocRun useSimpleUart successPc numCycles fuel arrivals s ≠ .ok none) := by
  have hs := initial_counts (rvSocInit_initial hinit)
  constructor
  · intro outs s'
    rw [rvSocRun, Simulation.doWhile_eq_some_iff]
    simp only [runEnds_iff hs]
  · intro hcycles hfuel hnone
    obtain ⟨outs, s', hrounds, hfirst⟩ := Simulation.doWhile_eq_none hnone
    have := runsOn_le_cycles hs hcycles hfuel hrounds hfirst
    omega

end Ends

theorem rvSocRun_ends_iff_two : ∃ s, rvSocInit .rv64 [] none none = .ok s ∧
    (∀ outs s', rvSocRun true 0x80000000 2 3 (fun _ => [65]) s = .ok (some (outs, s')) ↔
        ∃ n ≤ 3, RunEnds true 0x80000000 2 (fun _ => [65]) s n outs s') ∧
      rvSocRun true 0x80000000 2 3 (fun _ => [65]) s ≠ .ok none := by
  obtain ⟨s, hinit⟩ : ∃ s : RvCore .rv64 (RvSoc Devices), rvSocInit .rv64 [] none none = .ok s :=
    ⟨_, rfl⟩
  obtain ⟨hends, hnone⟩ := rvSocRun_ends_iff hinit
  exact ⟨s, hinit, hends, hnone (by decide) (by decide)⟩

end RiscvEm
