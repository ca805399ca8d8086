import RiscvEm.Isa.Preempt
import RiscvEm.Soc.PendingLines

/-!
The machine timer against a program: it advances by one in every round, and in the round in
which it reaches its comparator the program is interrupted, neither earlier nor later and
between two of its instructions.
-/

namespace RiscvEm

variable {w : Xlen} {useSimpleUart : Bool} {A : AddressSpace w useSimpleUart}

/-! ### The timer -/

section Devices

variable {devices devices' : Devices}

theorem uartUpdateOf_clint {irq : Byte} {printed : List Byte}
    (h : uartUpdateOf useSimpleUart devices = .ok (irq, printed, devices')) :
    devices'.clint = devices.clint := by
  cases useSimpleUart with
  | true =>
      obtain ⟨⟨irq', printed', uart⟩, -, hrest⟩ := Except.bind_eq_ok.mp h
      obtain ⟨-, hrest⟩ := Prod.mk.inj (Except.ok.inj hrest)
      rw [← (Prod.mk.inj hrest).2]
  | false =>
      obtain ⟨⟨irq', printed', uart⟩, -, hrest⟩ := Except.bind_eq_ok.mp h
      obtain ⟨-, hrest⟩ := Prod.mk.inj (Except.ok.inj hrest)
      rw [← (Prod.mk.inj hrest).2]

theorem updateDevices_clint {mei mti msi : Byte} {printed : List Byte}
    (h : updateDevices useSimpleUart devices = .ok (mei, mti, msi, printed, devices')) :
    (mti, msi, devices'.clint) = clintUpdate devices.clint := by
  obtain ⟨⟨irq, printed', updated⟩, huart, hrest⟩ := Except.bind_eq_ok.mp h
  rw [← uartUpdateOf_clint huart]
  simp only [Except.pure_eq_ok, Except.ok.injEq, Prod.mk.injEq] at hrest
  obtain ⟨-, rfl, rfl, -, rfl⟩ := hrest
  rfl

theorem addRxChar_clint {x : Byte} (h : addRxChar useSimpleUart devices x = .ok devices') :
    devices'.clint = devices.clint := by
  cases useSimpleUart with
  | true =>
      obtain ⟨uart, -, hrest⟩ := Except.bind_eq_ok.mp h
      rw [← Except.ok.inj hrest]
  | false =>
      obtain ⟨uart, -, hrest⟩ := Except.bind_eq_ok.mp h
      rw [← Except.ok.inj hrest]

end Devices

def Clint.DueIn (clint : Clint) (n : Nat) : Prop := clint.mtime.toNat + n = clint.mtimecmp.toNat

theorem Clint.DueIn.mti {clint : Clint} {n : Nat} (h : clint.DueIn (n + 1)) :
    (clintUpdate clint).1.getLsbD 0 = decide (n = 0) ∧ (clintUpdate clint).2.2.DueIn n := by
  have hcmp := clint.mtimecmp.isLt
  have htime : (clint.mtime + 1).toNat = clint.mtime.toNat + 1 := by
    rw [BitVec.toNat_add, Nat.mod_eq_of_lt]
    · rfl
    · rw [Clint.DueIn] at h
      have hone : (1 : BitVec 64).toNat = 1 := rfl
      omega
  have hdue : (clint.mtime + 1).toNat + n = clint.mtimecmp.toNat := by
    rw [Clint.DueIn] at h
    omega
  refine ⟨?_, hdue⟩
  rw [clintUpdate_mti, decide_eq_decide]
  show clint.mtimecmp ≤ clint.mtime + 1 ↔ n = 0
  rw [BitVec.le_def]
  omega

/-! ### Preemption -/

/-- The program runs as it did in `s₀`, and the timer is due in a number of rounds. -/
structure Awaits (A : AddressSpace w useSimpleUart) (s₀ : RvCore w (RvSoc Devices))
    (b : IsaState w × Nat) (s : RvCore w (RvSoc Devices)) : Prop where
  hosts : Hosts A b.1 s
  sameTraps : SameTraps (interruptTarget s₀.trap trapCauseMachineTi) s₀ s
  due : s.priv.devices.clint.DueIn b.2

section Preemption

variable {m m' : IsaState w} {s₀ s s₁ t : RvCore w (RvSoc Devices)} {events : List SocEvent}

/-- The timer and its line at the end of the step. -/
theorem Stepped.clint {mei mti msi : Byte} {printed : List Byte}
    (ht : Stepped A m' s s₁ t mei mti msi printed) (hquiet : Undisturbed s s₁) {n : Nat}
    (hdue : s.priv.devices.clint.DueIn (n + 1)) :
    mti.getLsbD 0 = decide (n = 0) ∧ t.priv.devices.clint.DueIn n := by
  have hclint := updateDevices_clint ht.update
  rw [hquiet.devices] at hclint
  obtain ⟨hmti, hdue⟩ := hdue.mti
  rw [← hclint] at hmti hdue
  exact ⟨hmti, hdue⟩

/-- A call that makes a step of the program leaves its traps. -/
theorem Awaits.undisturbed {b : IsaState w × Nat} (h : Awaits A s₀ b s)
    (hquiet : Undisturbed s s₁) :
    SameTraps (interruptTarget s₀.trap trapCauseMachineTi) s₀ s₁ :=
  h.sameTraps.trans (.of_trap hquiet.currPrivMode fun _ _ _ => by rw [hquiet.trap])

theorem awaits_follows (A : AddressSpace w useSimpleUart)
    (h₀ : s₀.Preemptible trapCauseMachineTi) :
    Simulation.Follows (SocEvent.exec useSimpleUart) (· == .round)
      (Simulation.CountedStep (EmulatedStep A)) (Awaits A s₀) where
  step e b b' s he hstep h := by
    obtain rfl := eq_of_beq he
    obtain ⟨hstep, hcount, hne⟩ := hstep
    obtain ⟨s₁, t, mei, mti, msi, printed, hquiet, ht⟩ := h.hosts.round hstep
    obtain ⟨hmti, hdue⟩ := ht.clint hquiet (hcount ▸ h.due)
    rw [decide_eq_false hne] at hmti
    obtain ⟨s', hround, hhosts, hsame, hpriv⟩ := ht.continues (h.undisturbed hquiet) h₀ rfl hmti
    refine ⟨printed, s', hround, hhosts, hsame, ?_⟩
    rw [hpriv]
    exact hdue
  silent e b s he h := by
    cases e with
    | round => cases he
    | arrival x =>
        obtain ⟨devices, hadd, hexec, hhosts⟩ := h.hosts.arrival x
        refine ⟨[], _, hexec, hhosts, h.sameTraps.trans (.of_trap rfl fun _ _ _ => rfl), ?_⟩
        rw [addRxChar_clint hadd]
        exact h.due

/-- A program whose timer is due in `n + 1` rounds makes `n + 1` steps and is interrupted
after the last of them, whatever characters arrive meanwhile. -/
theorem timer_preempts {n : Nat} (hs : Hosts A m s) (htimer : s.Preemptible trapCauseMachineTi)
    (hdue : s.priv.devices.clint.DueIn (n + 1)) (hevents : events.countP (· == .round) = n)
    (hsteps : Simulation.StepsIn (EmulatedStep A) (n + 1) m m') :
    ∃ outs s', rvSocEvents useSimpleUart (events ++ [.round]) s = .ok (outs, s') ∧
      Preempted A trapCauseMachineTi m' s s' := by
  obtain ⟨m₁, hbefore, hlast⟩ := hsteps.last
  have hcounted : Simulation.StepsIn (Simulation.CountedStep (EmulatedStep A))
      (events.countP (· == .round)) (m, n + 1) (m₁, 1) := by
    rw [hevents]
    exact hbefore.counted (by decide)
  obtain ⟨outs, s₁, hcalls, hawaits⟩ := (awaits_follows A htimer).calls hcounted
    ⟨hs, .refl _ s, hdue⟩
  obtain ⟨s₂, t, mei, mti, msi, printed, hquiet, ht⟩ := hawaits.hosts.round hlast
  have hmti : mti.getLsbD 0 = true := (ht.clint hquiet (n := 0) hawaits.due).1
  obtain ⟨s', hround, hpreempted, -⟩ := ht.preempted (hawaits.undisturbed hquiet) htimer rfl hmti
  exact ⟨_, s', Simulation.calls_concat hcalls hround, hpreempted⟩

end Preemption

/-- The two instructions with the timer due after them, and `mtvec` at 0x80000100. -/
def timerProgram : RvCore .rv32 (RvSoc Devices) :=
  { storeProgram with
    trap := ((storeProgram.trap.setReg .m .status 0x8).setReg .m .ie 0x80).setReg .m .tvec
      0x80000100
    priv := { storeProgram.priv with devices := { clint := { mtimecmp := 2 } } } }

theorem timerProgram_hosts : Hosts (flatSpace .rv32 false) storeMachine timerProgram where
  represents := ⟨rfl, rfl, ⟨flat_machine rfl rfl fun _ =>
    (by decide : checkBit (0 : Byte) pmpCfgLBit = false), rfl⟩, rfl⟩
  between := ⟨.inr (.inr rfl), rfl⟩

theorem timerProgram_preemptible : timerProgram.Preemptible trapCauseMachineTi where
  only := by
    have hbits : ∀ i < 32, (0x80#32).getLsbD i = true → i = trapCauseMachineTi := by decide
    exact fun cause hie => hbits cause (BitVec.lt_of_getLsbD hie) hie
  enabled := by decide
  notUser := by decide
  xie := by decide
  mprvClear := rfl

theorem timer_preempts_store : ∃ outs s',
    rvSocEvents false ([.round, .arrival 65] ++ [.round]) timerProgram = .ok (outs, s') ∧
      Preempted (flatSpace .rv32 false) trapCauseMachineTi
        (storeMachine₁.store 0x80000010 4 0x80000000).next timerProgram s' :=
  timer_preempts (n := 1) timerProgram_hosts timerProgram_preemptible rfl rfl storeMachine_steps

end RiscvEm
