import RiscvEm.Core.ReturnLevels
import RiscvEm.Isa.Preempt

/-!
A program and the handler of its traps. The program calls its environment and is interrupted,
and the handler returns to it: as long as the handler puts back what it has used, every run
is one of the program with the rounds of the handler in between.
-/

namespace RiscvEm

variable {w : Xlen} {useSimpleUart : Bool} {A : AddressSpace w useSimpleUart}

/-! ### The suspended program -/

/-- The program waits at a return: its state is saved in the registers of the level, or
where the program has it. -/
structure Suspended (A : AddressSpace w useSimpleUart) (y : PrivilegeLevel) (m : IsaState w)
    (s₀ s : RvCore w (RvSoc Devices)) : Prop where
  mode : s.currPrivMode = y
  epc : s.trap.reg y.trapLevel .epc = m.pc
  previousMode : restoredMode s.status y = s₀.currPrivMode
  previousEnable : s.status.getLsbD (trapXstatusUpieBit + y.toInt.toNat) =
    s₀.status.getLsbD y.toInt.toNat
  status : ∀ k, k ≠ y.toInt.toNat → ¬ SavedBit y k → s.status.getLsbD k = s₀.status.getLsbD k
  trap : ∀ l r, r ≠ .ip → r ≠ .status →
    ¬ (l = y.trapLevel ∧ (r = .epc ∨ r = .cause ∨ r = .tval)) → s.trap.reg l r = s₀.trap.reg l r
  x : s.x = m.x
  mem : A.Sees m.mem { s with currPrivMode := s₀.currPrivMode, trap := s₀.trap }
  reservation : s.reservation = m.reservation

def ReturnsFrom (useSimpleUart : Bool) (y : PrivilegeLevel) (s : RvCore w (RvSoc Devices)) : Prop :=
  ∃ cb d, Executes (socBusAccess useSimpleUart) s cb d ∧ cb.kind = .xret y.trapLevel

structure Fetched (s d : RvCore w (RvSoc Devices)) : Prop where
  currPrivMode : d.currPrivMode = s.currPrivMode
  trap : d.trap = s.trap
  x : d.x = s.x
  reservation : d.reservation = s.reservation
  pmp : d.pmp = s.pmp
  satpReg : d.mmu.satpReg = s.mmu.satpReg
  byteAt : d.priv.byteAt = s.priv.byteAt

theorem SameMemories.byteAt {soc soc' : RvSoc Devices} (h : SameMemories soc soc') :
    soc'.byteAt = soc.byteAt := by
  obtain ⟨hram, hmrom, hfrom⟩ := h
  have harray (target : BusTarget) : soc'.array target = soc.array target := by
    cases target with
    | ram => exact hram
    | mrom => exact hmrom
    | fromMem => exact hfrom
    | _ => rfl
  funext a
  simp only [RvSoc.byteAt, harray]

theorem Executes.fetched {s d : RvCore w (RvSoc Devices)} {cb : ExecutionCb}
    (h : Executes (socBusAccess useSimpleUart) s cb d) : Fetched s d := by
  have hmemories : SameMemories s.priv d.priv :=
    h.behind (respects_sameMemories (by decide)) (respects_sameMemories (by decide))
  have hframe := h.frame
  refine ⟨?_, ?_, ?_, ?_, ?_, ?_, hmemories.byteAt⟩
  · rw [hframe]
  · rw [hframe]
  · rw [hframe]
  · rw [hframe]
    rfl
  · rw [hframe]
  · rw [hframe]

section Suspended

variable {y : PrivilegeLevel} {c : RvUintXlen w} {m : IsaState w}
  {s₀ s s' : RvCore w (RvSoc Devices)}

theorem Entered.suspended (h : Entered A y c m s₀ s) (hy : y.Legal)
    (h₀ : s₀.currPrivMode.Legal) (hle : s₀.currPrivMode ≤ y) : Suspended A y m s₀ s := by
  obtain ⟨tval, hdelivered⟩ := h.delivered
  constructor
  case mode => exact hdelivered.mode
  case epc => exact hdelivered.epc
  case previousMode =>
    rcases hy with rfl | rfl | rfl
    · rcases h₀ with hmode | hmode | hmode
      · exact hmode.symm
      · rw [hmode] at hle
        exact absurd hle (by decide)
      · rw [hmode] at hle
        exact absurd hle (by decide)
    · exact hdelivered.spp rfl
    · exact hdelivered.mpp rfl
  case previousEnable => exact hdelivered.previousEnable
  case status =>
    intro k hne hk
    refine hdelivered.otherStatus k hne (fun hpie => hk (.inl hpie)) ?_ ?_
    · exact fun hy => ⟨fun h => hk (.inr (.inl ⟨hy, .inl h⟩)),
        fun h => hk (.inr (.inl ⟨hy, .inr h⟩))⟩
    · exact fun hy h => hk (.inr (.inr ⟨hy, h⟩))
  case trap => exact h.trap
  case x => exact h.x
  case mem => exact h.mem
  case reservation => exact h.reservation

theorem Entered.of_devices (h : Entered A y c m s₀ s) (devices : Devices) :
    Entered A y c m s₀ { s with priv := { s.priv with devices := devices } } := by
  obtain ⟨tval, hdelivered⟩ := h.delivered
  refine ⟨⟨tval, ?_⟩, h.trap, h.x, A.of_same h.mem (.of_status rfl rfl rfl rfl) rfl,
    h.reservation⟩
  exact ⟨hdelivered.mode, hdelivered.epc, hdelivered.cause, hdelivered.tval, hdelivered.pc,
    hdelivered.previousEnable, hdelivered.enable, hdelivered.mpp, hdelivered.spp,
    hdelivered.otherStatus, hdelivered.pending⟩

/-- The core after the return, of which the word has been fetched. -/
def RvCore.resumed (d : RvCore w (RvSoc Devices)) (m : IsaState w) (p y : PrivilegeLevel) :
    RvCore w (RvSoc Devices) :=
  advance (RvCore.setX { d with
    trap := d.trap.setReg .m .status (restoredStatus d.status y)
    currPrivMode := p
    nextPc := m.pc } 0 0)

theorem resumed_reg (d : RvCore w (RvSoc Devices)) {m : IsaState w} {p y : PrivilegeLevel}
    (l : TrapLevel) {r : TrapReg} (hr : r ≠ .status) :
    (d.resumed m p y).trap.reg l r = d.trap.reg l r := by
  show (d.trap.setReg .m .status _).reg l r = _
  rw [Trap.reg_setReg, if_neg fun h => hr h.1]

theorem resumed_status (d : RvCore w (RvSoc Devices)) {m : IsaState w} {p y : PrivilegeLevel} :
    (d.resumed m p y).status = restoredStatus d.status y := by
  show (d.trap.setReg .m .status _).reg .m .status = _
  rw [Trap.reg_setReg, if_pos ⟨rfl, .inl rfl⟩]

theorem Suspended.sameTraps (h : Suspended A y m s₀ s) (hy : y.Legal)
    (d : RvCore w (RvSoc Devices)) (htrap : d.trap = s.trap) :
    SameTraps y s₀ (d.resumed m s₀.currPrivMode y) := by
  have hstatus : d.status = s.status := by rw [RvCore.status, RvCore.status, htrap]
  refine ⟨rfl, fun l r hip hr hne => ?_, fun k hk => ?_⟩
  · rw [resumed_reg d l hr, htrap]
    exact h.trap l r hip hr hne
  · rw [resumed_status, hstatus]
    by_cases hie : k = y.toInt.toNat
    -- the enable bit of the level, which the entry has saved
    · rw [hie, TrapNest.getLsbD_restoredStatus_ie _ hy]
      exact h.previousEnable
    · rw [TrapNest.getLsbD_restoredStatus_of_ne _ hy hie fun hpie => hk (.inl hpie)]
      exact h.status k hie hk

theorem Suspended.returned (h : Suspended A y m s₀ s) (hy : y.Legal)
    (h₀ : s₀.currPrivMode.Legal) (hclear : s₀.MprvClear) (hpending : s.pendingTrap = none)
    (hpc : m.pc ≠ 0) (hret : ReturnsFrom useSimpleUart y s) :
    ∃ s₁, rvCoreRun (socBusAccess useSimpleUart) s = .ok s₁ ∧ Hosts A m s₁ ∧
      SameTraps y s₀ s₁ := by
  obtain ⟨cb, d, hexec, hk⟩ := hret
  have hd := hexec.fetched
  have hstatus : d.status = s.status := by rw [RvCore.status, RvCore.status, hd.trap]
  have hmode : d.currPrivMode = y := hd.currPrivMode.trans h.mode
  have hhandler := xret_eq (s := d) y.trapLevel (hmode ▸ hy)
  rw [← handler_xret (socBusAccess useSimpleUart) hk, hmode, hstatus, hd.trap, h.epc,
    h.previousMode, ← hstatus, ← hd.trap] at hhandler
  have hsame := h.sameTraps hy d hd.trap
  have hback : SameTraps y { s with currPrivMode := s₀.currPrivMode, trap := s₀.trap }
      (d.resumed m s₀.currPrivMode y) := ⟨hsame.mode, hsame.reg, hsame.status⟩
  refine ⟨_, hexec.run hhandler, ⟨⟨if_pos hpc, ?_, ?_, ?_⟩, h₀, ?_⟩, hsame⟩
  · show Function.update d.x 0 0 = m.x
    rw [hd.x, h.x]
    exact m.update_zero
  · exact A.of_same h.mem (hback.sameView hy hclear hd.pmp hd.satpReg) hd.byteAt
  · exact hd.reservation.trans h.reservation
  · exact (hexec.pendingTrap hpending : d.pendingTrap = none)

end Suspended

/-! ### Environment calls -/

structure CallsEnvironment (A : AddressSpace w useSimpleUart) (m : IsaState w) : Prop where
  fetch : m.Present m.pc.toNat w.bytes
  granted : A.grants .instr m.pc.toNat w.bytes
  encodes : Encodes w .ecall .none (m.word 4 m.pc.toNat)

def environmentCall (w : Xlen) (p : PrivilegeLevel) : RvUintXlen w :=
  BitVec.ofInt w.bits (trapCauseUserEcall + p.toInt)

def RvCore.callTarget {σ : Type} (s : RvCore w σ) : PrivilegeLevel :=
  exceptionTarget s.trap s.currPrivMode (environmentCall w s.currPrivMode).toNat

section Calls

variable {y : PrivilegeLevel} {m : IsaState w} {s₀ s : RvCore w (RvSoc Devices)}

theorem SameTraps.callTarget {σ : Type} {s s' : RvCore w σ} (h : SameTraps y s s') :
    s'.callTarget = s.callTarget := by
  have hreg (l : TrapLevel) : s'.trap.reg l .edeleg = s.trap.reg l .edeleg :=
    h.reg l .edeleg (by decide) (by decide) (by simp)
  simp only [RvCore.callTarget, exceptionTarget, h.mode, hreg]

theorem prepareSyncTrap_of_noTrap {σ : Type} {s : RvCore w σ} (h : s.syncTrapPending = false)
    (cause tval : RvUintXlen w) : prepareSyncTrap s cause tval =
      { s with syncTrapPending := true, syncTrapCause := cause, syncTrapTval := tval } := by
  rw [prepareSyncTrap, if_neg (by rw [h]; decide)]

def RvCore.called (d : RvCore w (RvSoc Devices)) : RvCore w (RvSoc Devices) :=
  advance (RvCore.setX { d with
    syncTrapPending := true
    syncTrapCause := environmentCall w d.currPrivMode
    syncTrapTval := 0 } 0 0)

theorem Hosts.run_call (h : Hosts A m s) (hcall : CallsEnvironment A m) :
    ∃ d, rvCoreRun (socBusAccess useSimpleUart) s = .ok d.called ∧ Represents A m d ∧
      Undisturbed s d ∧ d.nextPc = 0 := by
  obtain ⟨d, hexec, hrep, hquiet, hnext, -⟩ := exists_executes h.represents hcall.fetch
    hcall.granted hcall.encodes fun _ _ hne => by cases hne
  have hpending : d.syncTrapPending = false :=
    hquiet.syncTrapPending.trans (pendingTrap_eq_none.mp h.between.noTrap)
  have hhandler : ExecutionCb.ecall.handler (socBusAccess useSimpleUart) d =
      .ok (prepareSyncTrap d (environmentCall w d.currPrivMode) 0) := by
    rw [handler_ecall _ rfl]
    rfl
  rw [prepareSyncTrap_of_noTrap hpending] at hhandler
  exact ⟨d, hexec.run hhandler, hrep, hquiet, hnext⟩

/-- Serving a synchronous trap enters its level with the address of the instruction before. -/
theorem entered_servedSync {u : RvCore w (RvSoc Devices)} {cause : RvUintXlen w}
    (hsame : SameTraps y s₀ u) (hlegal : u.currPrivMode.Legal) (hy : y.Legal)
    (hle : u.currPrivMode ≤ y) (hclear : s₀.MprvClear) (hpc : u.pc - 4 = m.pc)
    (hcause : u.syncTrapCause = cause) (hx : u.x = m.x) (hmem : A.Sees m.mem u)
    (hreservation : u.reservation = m.reservation) :
    Entered A y cause m s₀ (u.servedSync y) := by
  have hdelivered := servedSync_delivered u hlegal hy hle
  rw [hpc, hcause] at hdelivered
  exact entered_of_served (u := u) rfl rfl hdelivered hsame hy hclear hx hmem hreservation

/-- A call enters the level that is called, with the address of the call. -/
theorem Hosts.call (h : Hosts A m s) (hcall : CallsEnvironment A m) (hsame : SameTraps y s₀ s)
    (htarget : s₀.callTarget = y) (hclear : s₀.MprvClear) :
    ∃ printed s', rvSocRound useSimpleUart s = .ok (printed, s') ∧
      Entered A y (environmentCall w s₀.currPrivMode) m s₀ s' := by
  obtain ⟨d, hrun, hrep, hquiet, hnext⟩ := h.run_call hcall
  have hd : SameTraps y s₀ d :=
    hsame.trans (.of_trap hquiet.currPrivMode fun _ _ _ => by rw [hquiet.trap])
  have hlegal : d.currPrivMode.Legal := by
    rw [hquiet.currPrivMode]
    exact h.between.legal
  obtain ⟨mei, mti, msi, printed, devices, hupdate⟩ :=
    exists_updateDevices useSimpleUart d.called.priv.devices
  -- the core where the interrupts of the round are processed
  let t : RvCore w (RvSoc Devices) :=
    { d.called with priv := { d.called.priv with devices := devices } }
  have hdt : SameTraps y d t := .of_trap rfl fun _ _ _ => rfl
  have hu := (hd.trans hdt).updateInterrupts mei mti msi
  have hserving : exceptionTarget (trapSetPendingBits t.trap mei mti msi) t.currPrivMode
      t.syncTrapCause.toNat = y := hu.callTarget.trans htarget
  have hint := rvCoreProcessInterrupts_of_pending (s := t) hlegal rfl mei mti msi
  rw [hserving] at hint
  refine ⟨printed, _, rvSocRound_of_run useSimpleUart hrun hupdate hint, ?_⟩
  apply entered_servedSync hu hlegal
  case hy =>
    rw [← htarget]
    exact exceptionTarget_legal _ _ _
  case hle =>
    rw [← hserving]
    exact le_exceptionTarget _ hlegal _
  case hclear => exact hclear
  case hpc =>
    have hpc : (rvCoreUpdateInterrupts t mei mti msi).pc = d.pc + 4 := if_neg (not_not.mpr hnext)
    rw [hpc, hrep.pc, BitVec.add_sub_cancel]
  case hcause =>
    show environmentCall w d.currPrivMode = environmentCall w s₀.currPrivMode
    rw [hd.mode]
  case hx =>
    show Function.update d.x 0 0 = m.x
    rw [hrep.x]
    exact m.update_zero
  case hmem =>
    have hstatus : (rvCoreUpdateInterrupts t mei mti msi).status = d.status :=
      trapSetPendingBits_reg _ _ _ _ _ (by decide)
    exact hrep.mem_of_same (.of_status rfl hstatus rfl rfl) rfl
  case hreservation => exact hrep.reservation

end Calls

/-! ### Runs -/

/-- A step of a program that may call its environment, whose result is what the handler
makes it. -/
inductive ProgramStep (A : AddressSpace w useSimpleUart) (s₀ : RvCore w (RvSoc Devices))
    (y : PrivilegeLevel) (m m' : IsaState w) : Prop
  | instruction (h : EmulatedStep A m m')
  | call (h : CallsEnvironment A m) (htarget : s₀.callTarget = y) (hpc : m'.pc ≠ 0)

/-- The core has just left the program, which is to go on with its state number `k`: it has
been interrupted there, or its last step is a call. -/
inductive LeftAt (A : AddressSpace w useSimpleUart) (cause : Nat)
    (s₀ : RvCore w (RvSoc Devices)) (m : Nat → IsaState w) : Nat → RvCore w (RvSoc Devices) → Prop
  | interrupted {k : Nat} {s : RvCore w (RvSoc Devices)} (h : Preempted A cause (m k) s₀ s) :
      LeftAt A cause s₀ m k s
  | called {k : Nat} {s : RvCore w (RvSoc Devices)} (hcall : CallsEnvironment A (m k))
      (h : Entered A (interruptTarget s₀.trap cause) (environmentCall w s₀.currPrivMode) (m k)
        s₀ s) : LeftAt A cause s₀ m (k + 1) s

/-- An event while the program waits: a character that arrives, or a round that does not
return to it. -/
def HandlerStep (useSimpleUart : Bool) (y : PrivilegeLevel) (s s' : RvCore w (RvSoc Devices)) :
    Prop :=
  ∃ (e : SocEvent) (printed : List Byte), e.exec useSimpleUart s = .ok (printed, s') ∧
    (e = .round → ¬ ReturnsFrom useSimpleUart y s)

structure Running (A : AddressSpace w useSimpleUart) (cause : Nat) (s₀ : RvCore w (RvSoc Devices))
    (m : IsaState w) (s : RvCore w (RvSoc Devices)) : Prop where
  hosts : Hosts A m s
  sameTraps : SameTraps (interruptTarget s₀.trap cause) s₀ s

/-- The handler has not yet returned to the program. -/
structure Away (A : AddressSpace w useSimpleUart) (cause : Nat) (s₀ : RvCore w (RvSoc Devices))
    (m : Nat → IsaState w) (k : Nat) (s : RvCore w (RvSoc Devices)) : Prop where
  pc : (m k).pc ≠ 0
  between : s.BetweenRounds
  run : ∃ s₁, LeftAt A cause s₀ m k s₁ ∧
    Relation.ReflTransGen (HandlerStep useSimpleUart (interruptTarget s₀.trap cause)) s₁ s

/-- The handler puts back what it has used: wherever it comes to its return, the program is
suspended in the state that it is to go on with. -/
def Handles (A : AddressSpace w useSimpleUart) (cause : Nat) (s₀ : RvCore w (RvSoc Devices))
    (m : Nat → IsaState w) : Prop :=
  ∀ k s, Away A cause s₀ m k s → ReturnsFrom useSimpleUart (interruptTarget s₀.trap cause) s →
    Suspended A (interruptTarget s₀.trap cause) (m k) s₀ s

/-- A program and the handler of its traps, by the number of the steps that the program has
made and whether the handler is running: a round is either the next step of the program or
one of the handler. -/
inductive Shares : SocEvent → Nat × Bool → Nat × Bool → Prop
  | arrival (x : Byte) (c : Nat × Bool) : Shares (.arrival x) c c
  | program (k : Nat) (away : Bool) : Shares .round (k, false) (k + 1, away)
  | handler (k : Nat) (away : Bool) : Shares .round (k, true) (k, away)

def StandsAt (A : AddressSpace w useSimpleUart) (cause : Nat) (s₀ : RvCore w (RvSoc Devices))
    (m : Nat → IsaState w) (c : Nat × Bool) (s : RvCore w (RvSoc Devices)) : Prop :=
  if c.2 then Away A cause s₀ m c.1 s else Running A cause s₀ (m c.1) s

section Runs

variable {cause : Nat} {m : Nat → IsaState w} {s₀ s s' s₁ t : RvCore w (RvSoc Devices)}
  {mei mti msi : Byte} {printed printed' : List Byte} {events : List SocEvent}

/-- Where the line is taken the program is left again, else it goes on. -/
theorem Stepped.next {k : Nat} (ht : Stepped A (m k) s s₁ t mei mti msi printed)
    (hsame : SameTraps (interruptTarget s₀.trap cause) s₀ s₁) (h₀ : s₀.Preemptible cause)
    (hcause : cause ∈ lineCauses) (hpc : (m k).pc ≠ 0) (hbetween : s'.BetweenRounds)
    (hround : rvSocRound useSimpleUart s = .ok (printed', s')) :
    ∃ away, StandsAt A cause s₀ m (k, away) s' := by
  obtain ⟨line, hline⟩ := exists_interruptLine hcause mei mti msi
  cases hlevel : line.getLsbD 0 with
  | false =>
      obtain ⟨s'', hround', hhosts, hsame', -⟩ := ht.continues hsame h₀ hline hlevel
      obtain ⟨-, rfl⟩ := Prod.mk.inj (Except.ok.inj (hround.symm.trans hround'))
      exact ⟨false, hhosts, hsame'⟩
  | true =>
      obtain ⟨s'', hround', hpreempted, -⟩ := ht.preempted hsame h₀ hline hlevel
      obtain ⟨-, rfl⟩ := Prod.mk.inj (Except.ok.inj (hround.symm.trans hround'))
      exact ⟨true, hpc, hbetween, s', .interrupted hpreempted, .refl⟩

theorem Running.round {k : Nat} (h : Running A cause s₀ (m k) s) (h₀ : s₀.Preemptible cause)
    (hcause : cause ∈ lineCauses)
    (hstep : ProgramStep A s₀ (interruptTarget s₀.trap cause) (m k) (m (k + 1)))
    (hround : rvSocRound useSimpleUart s = .ok (printed, s')) :
    ∃ away, StandsAt A cause s₀ m (k + 1, away) s' := by
  have hbetween : s'.BetweenRounds :=
    SocEvent.betweenRounds (e := .round) h.hosts.between hround
  cases hstep with
  | instruction hstep =>
      obtain ⟨s₁, t, mei, mti, msi, printed', hquiet, ht⟩ := h.hosts.round hstep
      have hsame := h.sameTraps.trans
        (.of_trap hquiet.currPrivMode fun _ _ _ => by rw [hquiet.trap])
      exact ht.next hsame h₀ hcause hstep.2.2.2 hbetween hround
  | call hcall htarget hpc =>
      obtain ⟨printed', s'', hround', hentered⟩ :=
        h.hosts.call hcall h.sameTraps htarget h₀.mprvClear
      obtain ⟨-, rfl⟩ := Prod.mk.inj (Except.ok.inj (hround.symm.trans hround'))
      exact ⟨true, hpc, hbetween, s', .called hcall hentered, .refl⟩

theorem Away.returns {k : Nat} (h : Away A cause s₀ m k s) (h₀ : s₀.Preemptible cause)
    (hlegal : s₀.currPrivMode.Legal) (hcause : cause ∈ lineCauses)
    (hhandler : Handles A cause s₀ m)
    (hret : ReturnsFrom useSimpleUart (interruptTarget s₀.trap cause) s)
    (hround : rvSocRound useSimpleUart s = .ok (printed, s')) :
    ∃ away, StandsAt A cause s₀ m (k, away) s' := by
  have hbetween : s'.BetweenRounds := SocEvent.betweenRounds (e := .round) h.between hround
  obtain ⟨s₁, hrun, hhosts, hsame⟩ := (hhandler k s h hret).returned
    (interruptTarget_legal s₀.trap cause) hlegal h₀.mprvClear h.between.noTrap h.pc hret
  obtain ⟨t, mei, mti, msi, printed', ht⟩ := hhosts.stepped hrun
  exact ht.next hsame h₀ hcause h.pc hbetween hround

theorem shares_simulates (h₀ : s₀.Preemptible cause) (hlegal : s₀.currPrivMode.Legal)
    (hcause : cause ∈ lineCauses)
    (hprogram : ∀ k, ProgramStep A s₀ (interruptTarget s₀.trap cause) (m k) (m (k + 1)))
    (hhandler : Handles A cause s₀ m) :
    Simulation.Simulates (SocEvent.exec useSimpleUart) Shares (StandsAt A cause s₀ m) := by
  rintro e ⟨k, away⟩ s printed s' hs hexec
  cases away with
  | false =>
      have hs : Running A cause s₀ (m k) s := hs
      cases e with
      | round =>
          obtain ⟨away, hnext⟩ := hs.round h₀ hcause (hprogram k) hexec
          exact ⟨_, .program k away, hnext⟩
      | arrival x =>
          obtain ⟨devices, -, hexec', hhosts⟩ := hs.hosts.arrival x
          obtain ⟨-, rfl⟩ := Prod.mk.inj (Except.ok.inj (hexec.symm.trans hexec'))
          exact ⟨_, .arrival x _, hhosts, hs.sameTraps.trans (.of_trap rfl fun _ _ _ => rfl)⟩
  | true =>
      have hs : Away A cause s₀ m k s := hs
      by_cases hret : e = .round ∧
          ReturnsFrom useSimpleUart (interruptTarget s₀.trap cause) s
      · obtain ⟨rfl, hret⟩ := hret
        obtain ⟨away, hnext⟩ := hs.returns h₀ hlegal hcause hhandler hret hexec
        exact ⟨_, .handler k away, hnext⟩
      · obtain ⟨s₁, hleft, hsteps⟩ := hs.run
        have hstep : HandlerStep useSimpleUart (interruptTarget s₀.trap cause) s s' :=
          ⟨e, printed, hexec, fun he hret' => hret ⟨he, hret'⟩⟩
        have hs' : StandsAt A cause s₀ m (k, true) s' :=
          ⟨hs.pc, SocEvent.betweenRounds hs.between hexec, s₁, hleft, hsteps.tail hstep⟩
        cases e with
        | round => exact ⟨_, .handler k true, hs'⟩
        | arrival x => exact ⟨_, .arrival x _, hs'⟩

/-- A program whose interrupts and calls are handled runs as on a machine of its own: in every
run of the main loop, each round is the next step of the program or one of the handler, which
leaves the program in the state that it is to go on with. -/
theorem traps_transparent (hs : Hosts A (m 0) s) (hpreemptible : s.Preemptible cause)
    (hcause : cause ∈ lineCauses)
    (hprogram : ∀ k, ProgramStep A s (interruptTarget s.trap cause) (m k) (m (k + 1)))
    (hhandler : Handles A cause s m) {outs : List (List Byte)}
    (hrun : rvSocEvents useSimpleUart events s = .ok (outs, s')) :
    ∃ k away, Simulation.Along Shares events (0, false) (k, away) ∧
      StandsAt A cause s m (k, away) s' := by
  have hstart : StandsAt A cause s m (0, false) s := ⟨hs, .refl _ s⟩
  obtain ⟨⟨k, away⟩, hpath, hs'⟩ := (shares_simulates hpreemptible hs.between.legal
    hcause hprogram hhandler).calls hstart hrun
  exact ⟨k, away, hpath, hs'⟩

end Runs

/-- `addi x0, x0, 0` and `ecall` in machine mode with the timer interrupt enabled, whose
handler returns to the call. -/
def callingProgram : RvCore .rv32 (RvSoc Devices) :=
  { rvCoreInit {
      ram := fun a =>
        if a < 0x100 then ([0x00000013, 0x00000073].flatMap (leBytes 4)).getD a 0
        else (leBytes 4 0x30200073).getD (a - 0x100) 0
      devices := { clint := { mtimecmp := 2 } } } with
    pc := 0x80000000
    trap := (({} : Trap .rv32).setReg .m .status 0x8).setReg .m .ie 0x80 |>.setReg .m .tvec
      0x80000100 }

def callingMachine : Nat → IsaState .rv32
  | 0 => { storeMachine with mem := callingProgram.priv.byteAt }
  | _ + 1 => IsaState.next { storeMachine with mem := callingProgram.priv.byteAt }

theorem callingProgram_hosts : Hosts (flatSpace .rv32 false) (callingMachine 0) callingProgram where
  represents := ⟨rfl, rfl, ⟨flat_machine rfl rfl fun _ =>
    (by decide : checkBit (0 : Byte) pmpCfgLBit = false), rfl⟩, rfl⟩
  between := ⟨.inr (.inr rfl), rfl⟩

theorem callingProgram_preemptible : callingProgram.Preemptible trapCauseMachineTi where
  only := by
    have hbits : ∀ i < 32, (0x80#32).getLsbD i = true → i = trapCauseMachineTi := by decide
    exact fun cause hie => hbits cause (BitVec.lt_of_getLsbD hie) hie
  enabled := by decide
  notUser := by decide
  xie := by decide
  mprvClear := rfl

theorem callingProgram_target :
    interruptTarget callingProgram.trap trapCauseMachineTi = .machine := by
  decide

theorem IsaState.setX_zero (m : IsaState w) (v : RvUintXlen w) : m.setX 0 v = m := by
  have hx : Function.update (Function.update m.x 0 v) 0 0 = m.x := by
    rw [Function.update_idem]
    exact m.update_zero
  simp only [IsaState.setX, hx]

theorem callingMachine_step (k : Nat) : ProgramStep (flatSpace .rv32 false) callingProgram
    .machine (callingMachine k) (callingMachine (k + 1)) := by
  cases k with
  | zero =>
      have hmem : (ExecutionCb.addi, 0x13#7, 0#3) ∈ iTypeCodes .rv32 := by decide
      have haddi : Encodes .rv32 .addi (.i 0 0 0) ((callingMachine 0).word 4 0x80000000) :=
        Encodes.iType hmem 0 0 0
      have hexec : IsaExec (flatSpace .rv32 false).grants (callingMachine 0) .addi (.i 0 0 0)
          ((callingMachine 0).setX 0 0).next := .value rfl
      rw [IsaState.setX_zero] at hexec
      exact .instruction ⟨⟨by decide, trivial, _, _, haddi, hexec⟩, by decide, trivial, by decide⟩
  | succ k =>
      have hmem : (ExecutionCb.ecall, 0x000#12) ∈ privCodes := by decide
      show ProgramStep _ _ _ (callingMachine 1) (callingMachine 1)
      exact .call ⟨by decide, trivial, Encodes.priv hmem⟩ (by decide) (by decide)

theorem callingMachine_calls {k : Nat}
    (h : CallsEnvironment (flatSpace .rv32 false) (callingMachine k)) : k ≠ 0 := by
  rintro rfl
  obtain ⟨-, -, henc⟩ := h
  generalize hword : (callingMachine 0).word 4 (callingMachine 0).pc.toNat = word at henc
  cases henc with
  | priv hmem =>
      obtain rfl : _ = 0x000#12 := by simpa [privCodes] using hmem
      revert hword
      decide

section Calling

variable {s : RvCore .rv32 (RvSoc Devices)} {c : RvUintXlen .rv32} {k : Nat}

/-- Where the program has been left, the next instruction is the return. -/
theorem callingProgram_returns
    (h : Entered (flatSpace .rv32 false) .machine c (callingMachine k) callingProgram s) :
    ReturnsFrom false .machine s := by
  obtain ⟨tval, hdelivered⟩ := h.delivered
  have hmode : s.currPrivMode = .machine := hdelivered.mode
  have hclear : callingProgram.MprvClear := rfl
  have hbits : ∀ k, 16 < k → s.status.getLsbD k = callingProgram.status.getLsbD k := by
    intro k hk
    have hlow : PrivilegeLevel.machine.toInt.toNat = 3 := rfl
    have hupie : trapXstatusUpieBit = 4 := rfl
    have hspp : trapXstatusSppBit = 8 := rfl
    have hmpp : trapXstatusMppBit = 11 := rfl
    exact hdelivered.otherStatus k (by omega) (by omega) (fun _ => by omega) (fun _ => by omega)
  have hview : SameView
      { s with currPrivMode := callingProgram.currPrivMode, trap := callingProgram.trap } s :=
    sameView_of_bits hmode hbits hclear rfl rfl
  have hstart : (callingMachine k).x = (callingMachine 0).x ∧
      (callingMachine k).mem = (callingMachine 0).mem ∧ (callingMachine k).reservation = none := by
    cases k with
    | zero => exact ⟨rfl, rfl, rfl⟩
    | succ k => exact ⟨rfl, rfl, rfl⟩
  have hrep : Represents (flatSpace .rv32 false)
      { callingMachine 0 with pc := 0x80000100, aligned := rfl } s :=
    ⟨hdelivered.pc, h.x.trans hstart.1,
      (flatSpace .rv32 false).of_same (hstart.2.1 ▸ h.mem) hview rfl,
      h.reservation.trans hstart.2.2⟩
  have hmret : (ExecutionCb.mret, 0x302#12) ∈ privCodes := by decide
  obtain ⟨d, hexec, -⟩ := exists_executes hrep (by decide) trivial (Encodes.priv hmret)
    fun rs1 rs2 hne => by cases hne
  exact ⟨_, d, hexec, rfl⟩

theorem callingProgram_handles : Handles (flatSpace .rv32 false) trapCauseMachineTi callingProgram
    callingMachine := by
  rintro k s h -
  obtain ⟨s₁, hleft, hsteps⟩ := h.run
  clear h
  rw [callingProgram_target] at hsteps ⊢
  have hs₁ : ∃ c,
      Entered (flatSpace .rv32 false) .machine c (callingMachine k) callingProgram s₁ := by
    cases hleft with
    | interrupted h =>
        rw [Preempted, callingProgram_target] at h
        exact ⟨_, h⟩
    | @called k s hcall h =>
        obtain ⟨k, rfl⟩ := Nat.exists_eq_succ_of_ne_zero (callingMachine_calls hcall)
        rw [callingProgram_target] at h
        exact ⟨_, h⟩
  have hs : ∃ c,
      Entered (flatSpace .rv32 false) .machine c (callingMachine k) callingProgram s := by
    induction hsteps with
    | refl => exact hs₁
    | tail _ hstep ih =>
        obtain ⟨c, ih⟩ := ih
        obtain ⟨e, printed, hexec, hround⟩ := hstep
        cases e with
        | round => exact absurd (callingProgram_returns ih) (hround rfl)
        | arrival x =>
            obtain ⟨devices, -, hexec⟩ := Except.bind_eq_ok.mp hexec
            obtain ⟨-, rfl⟩ := Prod.mk.inj (Except.ok.inj hexec)
            exact ⟨c, ih.of_devices devices⟩
  obtain ⟨c, hs⟩ := hs
  exact hs.suspended (by decide) (by decide) (by decide)

end Calling

theorem traps_transparent_calling : ∃ outs s',
    rvSocEvents false [.round, .arrival 65, .round, .round, .round] callingProgram =
      .ok (outs, s') ∧
      ∃ k away, Simulation.Along Shares [.round, .arrival 65, .round, .round, .round]
        (0, false) (k, away) ∧
        StandsAt (flatSpace .rv32 false) trapCauseMachineTi callingProgram callingMachine
          (k, away) s' := by
  have hreturns : (rvSocEvents false [.round, .arrival 65, .round, .round, .round]
      callingProgram).toOption.any (fun _ => true) = true := by decide +kernel
  obtain ⟨⟨outs, s'⟩, hrun, -⟩ := Except.exists_of_any_toOption hreturns
  have hprogram (k : Nat) : ProgramStep (flatSpace .rv32 false) callingProgram
      (interruptTarget callingProgram.trap trapCauseMachineTi) (callingMachine k)
      (callingMachine (k + 1)) := by
    rw [callingProgram_target]
    exact callingMachine_step k
  exact ⟨outs, s', hrun, traps_transparent callingProgram_hosts callingProgram_preemptible
    (by decide) hprogram callingProgram_handles hrun⟩

end RiscvEm
