import RiscvEm.Core.Privilege
import RiscvEm.Lib.Simulation
import RiscvEm.Soc.Runs

/-!
The main loop goes on: the updates of the devices, the arrivals and the processing of the
interrupts return from every state, so that only an instruction can end a round.
-/

namespace RiscvEm

open Except (Returns)

variable {w : Xlen} (useSimpleUart : Bool)

/-! ### Devices -/

section Fifos

variable {n k : Nat}

theorem exists_flushFifo (hn : n = 2 ^ k) (hk : k < 32) (f : Fifo n) (tmpChar : Byte)
    (count : Nat) : ∃ r, flushFifo f tmpChar count = .ok r := by
  induction count generalizing f tmpChar with
  | zero => exact ⟨_, rfl⟩
  | succ count ih =>
      obtain ⟨bytes, f', hout⟩ := exists_fifoOut_one f hn hk
      obtain ⟨⟨printed, f''⟩, hrest⟩ := ih f' (bytes.headD tmpChar)
      refine ⟨(bytes.headD tmpChar :: printed, f''), ?_⟩
      simp only [flushFifo, hout, Except.ok_bind, hrest, Except.pure_eq_ok]

theorem exists_updateTxFifo (hn : n = 2 ^ k) (hk : k < 32) (f : Fifo n)
    (needsFlush : Bool) : ∃ r, updateTxFifo f needsFlush = .ok r := by
  rw [updateTxFifo]
  split
  · exact exists_flushFifo hn hk f 0 _
  · exact ⟨_, rfl⟩

end Fifos

theorem exists_uartUpdateOf (devices : Devices) :
    ∃ r, uartUpdateOf useSimpleUart devices = .ok r := by
  cases useSimpleUart with
  | true =>
      obtain ⟨r, hr⟩ := exists_updateTxFifo (n := simpleUartFifoSize) (k := 0) rfl (by decide)
        devices.uart.txFifo devices.uart.txNeedsFlush
      rw [uartUpdateOf, if_pos rfl, simpleUartUpdate, hr]
      simp only [Except.ok_bind]
      split
      · exact ⟨_, rfl⟩
      · split <;> exact ⟨_, rfl⟩
  | false =>
      obtain ⟨r, hr⟩ := exists_updateTxFifo (n := uartNs8250FifoSize) (k := 4) rfl (by decide)
        devices.uart8250.txFifo devices.uart8250.txNeedsFlush
      rw [uartUpdateOf, if_neg (by decide), uartUpdate, hr]
      exact ⟨_, rfl⟩

theorem exists_updateDevices (devices : Devices) :
    ∃ mei mti msi printed devices',
      updateDevices useSimpleUart devices = .ok (mei, mti, msi, printed, devices') := by
  obtain ⟨r, hr⟩ := exists_uartUpdateOf useSimpleUart devices
  rw [updateDevices, hr]
  exact ⟨_, _, _, _, _, rfl⟩

theorem exists_addRxChar (devices : Devices) (x : Byte) :
    ∃ devices', addRxChar useSimpleUart devices x = .ok devices' := by
  cases useSimpleUart with
  | true =>
      obtain ⟨count, f', hin⟩ := exists_fifoIn_one (k := 0) devices.uart.rxFifo rfl (by decide) x
      rw [addRxChar, if_pos rfl, simpleUartAddRxChar, hin]
      exact ⟨_, rfl⟩
  | false =>
      obtain ⟨count, f', hin⟩ :=
        exists_fifoIn_one (k := 4) devices.uart8250.rxFifo rfl (by decide) x
      rw [addRxChar, if_neg (by decide), uartAddRxChar, hin]
      exact ⟨_, rfl⟩

/-! ### Rounds -/

theorem rvSocRound_of_run {s s₁ s' : RvCore w (RvSoc Devices)} {mei mti msi : Byte}
    {printed : List Byte} {devices : Devices}
    (hrun : rvCoreRun (socBusAccess useSimpleUart) s = .ok s₁)
    (hupdate : updateDevices useSimpleUart s₁.priv.devices = .ok (mei, mti, msi, printed, devices))
    (hint : rvCoreProcessInterrupts mei mti msi
      { s₁ with priv := { s₁.priv with devices := devices } } = .ok s') :
    rvSocRound useSimpleUart s = .ok (printed, s') := by
  rw [rvSocRound, hrun, Except.ok_bind, liftM_eq_ok.mpr hupdate, Except.ok_bind]
  simp only [hint, Except.ok_bind, Except.pure_eq_ok]

structure RvCore.BetweenRounds {σ : Type} (s : RvCore w σ) : Prop where
  legal : s.currPrivMode.Legal
  noTrap : s.pendingTrap = none

/-- Only the registers of a legal mode can be looked up. -/
theorem legal_of_processInterrupts {σ : Type} {s s' : RvCore w σ} {mei mti msi : Byte}
    (hpending : s.syncTrapPending = false)
    (h : rvCoreProcessInterrupts mei mti msi s = .ok s') : s.currPrivMode.Legal := by
  rw [rvCoreProcessInterrupts_of_not_pending hpending, interruptTrap,
    if_neg (by rw [hpending]; decide)] at h
  obtain ⟨taken, htaken, -⟩ := Except.bind_eq_ok.mp h
  have hcauses : interruptCauses = trapCauseMachineExti :: (List.range 11).reverse := by decide
  rw [hcauses, takenInterrupt] at htaken
  obtain ⟨serving, hcheck, -⟩ := Except.bind_eq_ok.mp htaken
  obtain ⟨x, hx, -⟩ := Except.bind_eq_ok.mp hcheck
  cases hmode : s.currPrivMode with
  | user => exact .inl rfl
  | supervisor => exact .inr (.inl rfl)
  | machine => exact .inr (.inr rfl)
  | unknown =>
      rw [hmode] at hx
      cases hx
  | reserved =>
      rw [hmode] at hx
      cases hx

theorem reservedReturn_pending {busAccess : BusAccessFunc w (RvSoc Devices)}
    {s s₁ : RvCore w (RvSoc Devices)} (hs : s.pendingTrap = none) (h : ReservedReturn busAccess s)
    (hrun : rvCoreRun busAccess s = .ok s₁) : s₁.syncTrapPending = false := by
  obtain ⟨-, -, cb, d, level, hexec, hk⟩ := h
  obtain ⟨e, hhandler, rfl⟩ := hexec.handler_of_run hrun
  have hd := pendingTrap_eq_none.mp (hexec.pendingTrap hs)
  rw [handler_xret busAccess hk] at hhandler
  obtain ⟨-, rfl⟩ := xret_eq_ok hhandler
  exact hd

/-- A round returns just when its instruction does and is not a return to the reserved
mode. -/
theorem rvSocRound_returns_iff {s : RvCore w (RvSoc Devices)} (hs : s.BetweenRounds) :
    Returns (rvSocRound useSimpleUart s) ↔
      Returns (rvCoreRun (socBusAccess useSimpleUart) s) ∧
        ¬ ReservedReturn (socBusAccess useSimpleUart) s := by
  constructor
  · rintro ⟨⟨printed, s'⟩, hround⟩
    obtain ⟨s₁, mei, mti, msi, devices, hrun, -, hint⟩ := rvSocRound_cases hround
    refine ⟨⟨s₁, hrun⟩, fun hreserved => ?_⟩
    have hpending := reservedReturn_pending hs.noTrap hreserved hrun
    obtain ⟨soc, hsoc⟩ : ∃ soc, soc = { s₁.priv with devices := devices } := ⟨_, rfl⟩
    rw [← hsoc] at hint
    have hlegal : s₁.currPrivMode.Legal :=
      legal_of_processInterrupts (s := { s₁ with priv := soc }) hpending hint
    exact (rvCoreRun_legal_iff hs.legal hrun).mp hlegal hreserved
  · rintro ⟨⟨s₁, hrun⟩, hreserved⟩
    have hlegal := (rvCoreRun_legal_iff hs.legal hrun).mpr hreserved
    obtain ⟨mei, mti, msi, printed, devices, hupdate⟩ :=
      exists_updateDevices useSimpleUart s₁.priv.devices
    obtain ⟨s', hint⟩ := rvCoreProcessInterrupts_returns
      (s := { s₁ with priv := { s₁.priv with devices := devices } }) hlegal mei mti msi
    exact ⟨_, rvSocRound_of_run useSimpleUart hrun hupdate hint⟩

/-! ### Runs -/

section Runs

variable {useSimpleUart} {s s' : RvCore w (RvSoc Devices)} {events : List SocEvent}

theorem SocEvent.betweenRounds {e : SocEvent} (hs : s.BetweenRounds) {printed : List Byte}
    (h : e.exec useSimpleUart s = .ok (printed, s')) : s'.BetweenRounds := by
  cases e with
  | round =>
      have hreturns := (rvSocRound_returns_iff useSimpleUart hs).mp ⟨_, h⟩
      obtain ⟨s₁, mei, mti, msi, devices, hrun, -, hint⟩ := rvSocRound_cases h
      have hlegal : s₁.currPrivMode.Legal := (rvCoreRun_legal_iff hs.legal hrun).mpr hreturns.2
      have hguarded : GuardedStep (socBusAccess useSimpleUart) _ s' :=
        ⟨.processInterrupts mei mti msi, hint, fun hcall => nomatch hcall⟩
      refine ⟨hguarded.legal ?_, rvCoreProcessInterrupts_pendingTrap hint⟩
      exact hlegal
  | arrival x =>
      obtain ⟨devices, -, h⟩ := Except.bind_eq_ok.mp h
      obtain ⟨-, rfl⟩ := Prod.mk.inj (Except.ok.inj h)
      exact ⟨hs.legal, hs.noTrap⟩

theorem arrival_returns (x : Byte) (s : RvCore w (RvSoc Devices)) :
    Returns ((SocEvent.arrival x).exec useSimpleUart s) := by
  obtain ⟨devices, hdevices⟩ := exists_addRxChar useSimpleUart s.priv.devices x
  exact ⟨_, by rw [SocEvent.exec, hdevices]; rfl⟩

/-- The main loop goes on as long as its instructions return and none of them returns to the
reserved mode: nothing else ends it, whatever characters arrive and in whatever state the
devices are. -/
theorem rvSocEvents_returns_iff (hs : s.BetweenRounds) :
    Returns (rvSocEvents useSimpleUart events s) ↔ ∀ pre rest outs s₁,
      events = pre ++ .round :: rest → rvSocEvents useSimpleUart pre s = .ok (outs, s₁) →
        Returns (rvCoreRun (socBusAccess useSimpleUart) s₁) ∧
          ¬ ReservedReturn (socBusAccess useSimpleUart) s₁ := by
  have hbetween {pre : List SocEvent} {outs : List (List Byte)} {s₁ : RvCore w (RvSoc Devices)}
      (h : rvSocEvents useSimpleUart pre s = .ok (outs, s₁)) : s₁.BetweenRounds :=
    Simulation.calls_invariant (fun _ _ _ _ ha hexec => SocEvent.betweenRounds ha hexec) hs h
  rw [rvSocEvents, Simulation.calls_returns_iff]
  constructor
  · intro h pre rest outs s₁ hpre hbefore
    have hround := h pre .round rest outs s₁ hpre hbefore
    exact (rvSocRound_returns_iff useSimpleUart (hbetween hbefore)).mp hround
  · intro h pre e rest outs s₁ hpre hbefore
    cases e with
    | round =>
        exact (rvSocRound_returns_iff useSimpleUart (hbetween hbefore)).mpr
          (h pre rest outs s₁ hpre hbefore)
    | arrival x => exact arrival_returns x s₁

end Runs

/-- The bytes of `reservedReturnProgram`. -/
def reservedReturnFirmware : List Byte :=
  reservedReturnProgram.flatMap fun word => leBytes 4 word.toNat

/-- A character, the reset vector, and the firmware up to its return. -/
def beforeReturn : List SocEvent := .arrival 65 :: .replicate 8 .round

/-- The main loop goes on up to the return to the reserved mode, and the round of the
return ends it. -/
theorem rvSocEvents_returns_iff_reserved :
    ∃ s : RvCore .rv32 (RvSoc Devices),
      rvSocInit .rv32 reservedReturnFirmware none none = .ok s ∧
      (∀ pre rest outs s₁, beforeReturn = pre ++ .round :: rest →
        rvSocEvents false pre s = .ok (outs, s₁) → ¬ ReservedReturn (socBusAccess false) s₁) ∧
      ¬ Returns (rvSocEvents false (beforeReturn ++ [.round]) s) := by
  have hcheck : ((rvSocInit .rv32 reservedReturnFirmware none none).toOption.any fun s =>
      (rvSocEvents false beforeReturn s).toOption.any fun r =>
        r.2.currPrivMode == .machine && r.2.status == 0x1000 &&
          executesAny (socBusAccess false) r.2 fun cb _ => cb == .mret) = true := by
    decide +kernel
  obtain ⟨s, hinit, hcheck⟩ := Except.exists_of_any_toOption hcheck
  obtain ⟨⟨outs, s₁⟩, hbefore, hcheck⟩ := Except.exists_of_any_toOption hcheck
  obtain ⟨hstate, hmret⟩ := Bool.and_eq_true_iff.mp hcheck
  obtain ⟨hmode, hstatus⟩ := Bool.and_eq_true_iff.mp hstate
  obtain ⟨cb, d, hexec, hcb⟩ := exists_of_executesAny hmret
  obtain rfl := eq_of_beq hcb
  have hs : s.BetweenRounds := by
    obtain ⟨priv, rfl⟩ := rvSocInit_initial hinit
    exact ⟨.inr (.inr rfl), rfl⟩
  refine ⟨s, hinit, ?_, fun hreturns => ?_⟩
  · intro pre rest outs' s' hpre hrun
    exact ((rvSocEvents_returns_iff hs).mp ⟨_, hbefore⟩ pre rest outs' s' hpre hrun).2
  · have hreserved : ReservedReturn (socBusAccess false) s₁ := by
      refine ⟨eq_of_beq hmode, ?_, .mret, d, _, hexec, rfl⟩
      rw [eq_of_beq hstatus, mppReserved]
      decide
    exact ((rvSocEvents_returns_iff hs).mp hreturns beforeReturn [] outs s₁ rfl hbefore).2 hreserved

end RiscvEm
