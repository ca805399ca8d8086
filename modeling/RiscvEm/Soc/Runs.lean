import RiscvEm.Core.CsrTable
import RiscvEm.Lib.Simulation
import RiscvEm.Soc.UartStreams

/-!
What happens to the system as a list of events, and what its runs have from those of the
core.
-/

namespace RiscvEm

variable {w : Xlen} {useSimpleUart : Bool}

/-! ### Events -/

inductive SocEvent
  | round
  | arrival (x : Byte)
  deriving DecidableEq

def SocEvent.exec (useSimpleUart : Bool) (e : SocEvent) (s : RvCore w (RvSoc Devices)) :
    Except Stop (List Byte × RvCore w (RvSoc Devices)) :=
  match e with
  | .round => rvSocRound useSimpleUart s
  | .arrival x => do
      let devices ← (addRxChar useSimpleUart s.priv.devices x).mapError .halt
      return ([], { s with priv := { s.priv with devices := devices } })

def rvSocEvents (useSimpleUart : Bool) (events : List SocEvent)
    (s : RvCore w (RvSoc Devices)) :
    Except Stop (List (List Byte) × RvCore w (RvSoc Devices)) :=
  Simulation.calls (SocEvent.exec useSimpleUart) events s

theorem rvSocEvents_cons (e : SocEvent) (rest : List SocEvent) (s : RvCore w (RvSoc Devices)) :
    rvSocEvents useSimpleUart (e :: rest) s = (do
      let (out, s) ← e.exec useSimpleUart s
      let (outs, s) ← rvSocEvents useSimpleUart rest s
      return (out :: outs, s)) := rfl

theorem SocEvent.step {e : SocEvent} {s s' : RvCore w (RvSoc Devices)} {printed : List Byte}
    (h : e.exec useSimpleUart s = .ok (printed, s')) : SocStep useSimpleUart s s' := by
  cases e with
  | round => exact .round h
  | arrival x =>
      obtain ⟨devices, hdevices, h⟩ := Except.bind_eq_ok.mp h
      obtain ⟨-, rfl⟩ := Prod.mk.inj (Except.ok.inj h)
      exact .arrival (Except.mapError_eq_ok.mp hdevices)

/-! ### Rounds -/

/-- A round is an instruction, the updates of the devices and the interrupts. -/
theorem rvSocRound_cases {s s' : RvCore w (RvSoc Devices)} {printed : List Byte}
    (h : rvSocRound useSimpleUart s = .ok (printed, s')) :
    ∃ s₁ mei mti msi devices, rvCoreRun (socBusAccess useSimpleUart) s = .ok s₁ ∧
      updateDevices useSimpleUart s₁.priv.devices = .ok (mei, mti, msi, printed, devices) ∧
      rvCoreProcessInterrupts mei mti msi
        { s₁ with priv := { s₁.priv with devices := devices } } = .ok s' := by
  obtain ⟨s₁, hrun, h⟩ := Except.bind_eq_ok.mp h
  obtain ⟨⟨mei, mti, msi, printed', devices⟩, hupdate, h⟩ := Except.bind_eq_ok.mp h
  obtain ⟨s₂, hint, h⟩ := Except.bind_eq_ok.mp h
  obtain ⟨rfl, rfl⟩ := Prod.mk.inj (Except.ok.inj h)
  exact ⟨s₁, mei, mti, msi, devices, hrun, liftM_eq_ok.mp hupdate, hint⟩

/-- The steps of the system are calls of the core and changes behind it. -/
theorem SocStep.calls {s s' : RvCore w (RvSoc Devices)} (h : SocStep useSimpleUart s s') :
    Relation.ReflTransGen (CoreStep (socBusAccess useSimpleUart)) s s' := by
  cases h with
  | round h =>
      obtain ⟨s₁, mei, mti, msi, devices, hrun, -, hint⟩ := rvSocRound_cases h
      exact ((Relation.ReflTransGen.single (CoreStep.run hrun)).tail
        (CoreStep.environment s₁ _)).tail (CoreStep.processInterrupts hint)
  | arrival h => exact .single (CoreStep.environment s _)

theorem rvSocInit_initial {fw : List Byte} {dtb initrd : Option (List Byte)}
    {s : RvCore w (RvSoc Devices)} (h : rvSocInit w fw dtb initrd = .ok s) : s.Initial := by
  simp only [rvSocInit] at h
  cases dtb <;> cases initrd
  all_goals
    obtain ⟨ram, -, h⟩ := Except.bind_eq_ok.mp h
    obtain ⟨loaded, -, h⟩ := Except.bind_eq_ok.mp h
    obtain ⟨fromMem, -, h⟩ := Except.bind_eq_ok.mp h
    exact ⟨_, (Except.ok.inj h).symm⟩

theorem SocReachable.core {s : RvCore w (RvSoc Devices)} (h : SocReachable useSimpleUart s) :
    CoreReachable (socBusAccess useSimpleUart) s := by
  obtain ⟨s₀, ⟨fw, dtb, initrd, hinit⟩, hrun⟩ := h
  refine ⟨s₀, rvSocInit_initial hinit, ?_⟩
  induction hrun with
  | refl => exact .refl
  | tail _ hstep ih => exact ih.trans hstep.calls

end RiscvEm
