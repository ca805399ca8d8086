import RiscvEm.Lib.Transition
import RiscvEm.Trap.Spec

/-!
Nested trap entry and return.

The status word holds one saved enable bit and one previous mode for each level. A
run of entries and returns uses it as a stack, as long as no level is entered again
before its return.
-/

namespace RiscvEm

variable {w : Xlen}

/-! ### Runs of entries and returns -/

/-- A trap that has been entered and not been returned from: its level, the mode it
was taken from, and the enable bit of the level just before the entry. -/
structure OpenTrap where
  level : PrivilegeLevel
  previous : PrivilegeLevel
  enabled : Bool
  deriving DecidableEq

structure TrapNest (w : Xlen) where
  trap : Trap w
  mode : PrivilegeLevel
  opened : List OpenTrap

namespace TrapNest

abbrev status (c : TrapNest w) : RvUintXlen w := c.trap.reg .m .status

/-- Entry into a level that is not open, return at the level of the innermost open
trap, and everything else that leaves the status word alone. -/
inductive Step : TrapNest w → TrapNest w → Prop
  | entry {c : TrapNest w} {y : PrivilegeLevel} {isInterrupt : Bool}
      {cause currPc tval vector : RvUintXlen w} {trap : Trap w} (hlevel : y.Legal)
      (hle : c.mode ≤ y) (hclosed : ∀ e ∈ c.opened, e.level ≠ y)
      (hserve : trapServeInterrupt c.trap y c.mode isInterrupt cause currPc tval =
        .ok (vector, trap)) :
      Step c ⟨trap, y, ⟨y, c.mode, c.status.getLsbD y.toInt.toNat⟩ :: c.opened⟩
  | ret {c : TrapNest w} {e : OpenTrap} {rest : List OpenTrap} {mode : PrivilegeLevel}
      {trap : Trap w} (hopened : c.opened = e :: rest)
      (hrestore : trapRestoreIrqSettings c.trap e.level = .ok (mode, trap)) :
      Step c ⟨trap, mode, rest⟩
  | other {c : TrapNest w} {trap : Trap w}
      (hstatus : trap.reg .m .status = c.status) : Step c ⟨trap, c.mode, c.opened⟩

def entered (c : TrapNest w) (y : PrivilegeLevel) (isInterrupt : Bool)
    (cause currPc tval : RvUintXlen w) : TrapNest w where
  trap := servedTrap c.trap y c.mode isInterrupt cause currPc tval
  mode := y
  opened := ⟨y, c.mode, c.status.getLsbD y.toInt.toNat⟩ :: c.opened

theorem Step.entered {c : TrapNest w} {y : PrivilegeLevel} {isInterrupt : Bool}
    {cause currPc tval : RvUintXlen w} (hlevel : y.Legal) (hle : c.mode ≤ y)
    (hclosed : ∀ e ∈ c.opened, e.level ≠ y) :
    Step c (c.entered y isInterrupt cause currPc tval) :=
  .entry hlevel hle hclosed
    (trapServeInterrupt_eq c.trap hlevel c.mode isInterrupt cause currPc tval)

/-- The bits of the status word in which an entry saves something: xPIE, SPP, MPP. -/
def SavedBit (k : Nat) : Prop :=
  k = trapXstatusUpieBit ∨ k = trapXstatusUpieBit + 1 ∨ k = trapXstatusUpieBit + 3 ∨
    k = trapXstatusSppBit ∨ k = trapXstatusMppBit ∨ k = trapXstatusMppBit + 1

def modeWithin (mode : PrivilegeLevel) : List OpenTrap → PrivilegeLevel
  | [] => mode
  | e :: _ => e.level

/-- Each trap was taken from the level of the next outer one, the outermost from the
initial mode. -/
def Chained (mode : PrivilegeLevel) : List OpenTrap → Prop
  | [] => True
  | e :: rest => e.previous = modeWithin mode rest ∧ Chained mode rest

/-- What holds of a run from the given status word and mode: the saved bits of each
open level are those of its entry, and the other bits are the initial ones, up to
the enable bits of the open levels. -/
structure Kept (status : RvUintXlen w) (mode : PrivilegeLevel) (c : TrapNest w) : Prop where
  mode_eq : c.mode = modeWithin mode c.opened
  chained : Chained mode c.opened
  distinct : c.opened.Pairwise fun e e' => e.level ≠ e'.level
  legal : ∀ e ∈ c.opened, e.level.Legal
  previous : ∀ e ∈ c.opened, restoredMode c.status e.level = e.previous
  enabled : ∀ e ∈ c.opened,
    c.status.getLsbD (trapXstatusUpieBit + e.level.toInt.toNat) = e.enabled
  initial : ∀ e ∈ c.opened, e.enabled = status.getLsbD e.level.toInt.toNat
  others : ∀ k, ¬ SavedBit k → (∀ e ∈ c.opened, k ≠ e.level.toInt.toNat) →
    c.status.getLsbD k = status.getLsbD k

/-! ### What one level leaves to the others -/

theorem toNat_of_legal {p : PrivilegeLevel} (hp : p.Legal) :
    p.toInt.toNat = 0 ∨ p.toInt.toNat = 1 ∨ p.toInt.toNat = 3 := by
  rcases hp with rfl | rfl | rfl
  · exact .inl rfl
  · exact .inr (.inl rfl)
  · exact .inr (.inr rfl)

theorem toNat_ne_of_ne {p q : PrivilegeLevel} (hp : p.Legal) (hq : q.Legal) (h : p ≠ q) :
    p.toInt.toNat ≠ q.toInt.toNat := by
  rcases hp with rfl | rfl | rfl <;> rcases hq with rfl | rfl | rfl <;>
    first | exact absurd rfl h | decide

/-- The number of a level is not that of a saved bit. -/
theorem not_savedBit_toNat {p : PrivilegeLevel} (hp : p.Legal) : ¬ SavedBit p.toInt.toNat := by
  have hcases := toNat_of_legal hp
  simp only [SavedBit, trapXstatusUpieBit, trapXstatusSppBit, trapXstatusMppBit]
  omega

theorem savedBit_pie {p : PrivilegeLevel} (hp : p.Legal) :
    SavedBit (trapXstatusUpieBit + p.toInt.toNat) := by
  rcases hp with rfl | rfl | rfl
  · exact .inl rfl
  · exact .inr (.inl rfl)
  · exact .inr (.inr (.inl rfl))

/-- The mode saved for a level does not depend on the bits that are no mode field. -/
theorem restoredMode_congr {st st' : RvUintXlen w} {level : PrivilegeLevel} (hl : level.Legal)
    (hspp : level = .supervisor →
      st'.getLsbD trapXstatusSppBit = st.getLsbD trapXstatusSppBit)
    (hmpp : level = .machine →
      st'.getLsbD trapXstatusMppBit = st.getLsbD trapXstatusMppBit ∧
        st'.getLsbD (trapXstatusMppBit + 1) = st.getLsbD (trapXstatusMppBit + 1)) :
    restoredMode st' level = restoredMode st level := by
  rcases hl with rfl | rfl | rfl
  · rfl
  · rw [restoredMode_supervisor, restoredMode_supervisor, hspp rfl]
  · rw [restoredMode_machine, restoredMode_machine, (hmpp rfl).1, (hmpp rfl).2]

/-- A bit outside the fields of a level keeps its value when the level is entered. -/
theorem getLsbD_servedStatus_of_ne (st : RvUintXlen w) {y : PrivilegeLevel} (hy : y.Legal)
    (previous : PrivilegeLevel) {k : Nat} (hie : k ≠ y.toInt.toNat)
    (hpie : k ≠ trapXstatusUpieBit + y.toInt.toNat)
    (hmpp : y = .machine → k ≠ trapXstatusMppBit ∧ k ≠ trapXstatusMppBit + 1)
    (hspp : y = .supervisor → k ≠ trapXstatusSppBit) :
    (servedStatus st y previous).getLsbD k = st.getLsbD k := by
  rw [getLsbD_servedStatus st hy previous, if_neg hie, if_neg hpie,
    if_neg (fun h => h.2.elim (hmpp h.1).1 (hmpp h.1).2), if_neg (fun h => hspp h.1 h.2)]

theorem getLsbD_servedStatus_pie (st : RvUintXlen w) {y : PrivilegeLevel} (hy : y.Legal)
    (previous : PrivilegeLevel) :
    (servedStatus st y previous).getLsbD (trapXstatusUpieBit + y.toInt.toNat) =
      st.getLsbD y.toInt.toNat := by
  have hne : trapXstatusUpieBit + y.toInt.toNat ≠ y.toInt.toNat := by
    simp only [trapXstatusUpieBit]
    omega
  rw [getLsbD_servedStatus st hy previous, if_neg hne, if_pos rfl]

theorem getLsbD_restoredStatus_ie (st : RvUintXlen w) {y : PrivilegeLevel} (hy : y.Legal) :
    (restoredStatus st y).getLsbD y.toInt.toNat =
      st.getLsbD (trapXstatusUpieBit + y.toInt.toNat) := by
  have hne : y.toInt.toNat ≠ trapXstatusUpieBit + y.toInt.toNat := by
    simp only [trapXstatusUpieBit]
    omega
  rw [getLsbD_restoredStatus st hy, if_neg hne, if_pos rfl]

theorem getLsbD_restoredStatus_of_ne (st : RvUintXlen w) {y : PrivilegeLevel} (hy : y.Legal)
    {k : Nat} (hie : k ≠ y.toInt.toNat) (hpie : k ≠ trapXstatusUpieBit + y.toInt.toNat) :
    (restoredStatus st y).getLsbD k = st.getLsbD k := by
  rw [getLsbD_restoredStatus st hy, if_neg hpie, if_neg hie]

/-- Entry into one level leaves the fields of another one alone. -/
theorem servedStatus_other (st : RvUintXlen w) {y level : PrivilegeLevel} (hy : y.Legal)
    (hl : level.Legal) (hne : level ≠ y) (previous : PrivilegeLevel) :
    restoredMode (servedStatus st y previous) level = restoredMode st level ∧
      (servedStatus st y previous).getLsbD (trapXstatusUpieBit + level.toInt.toNat) =
        st.getLsbD (trapXstatusUpieBit + level.toInt.toNat) := by
  have hycases := toNat_of_legal hy
  have hlcases := toNat_of_legal hl
  have hnum := toNat_ne_of_ne hl hy hne
  have hupie : trapXstatusUpieBit = 4 := rfl
  have hspp : trapXstatusSppBit = 8 := rfl
  have hmpp : trapXstatusMppBit = 11 := rfl
  refine ⟨restoredMode_congr hl (fun hs => ?_) (fun hm => ⟨?_, ?_⟩), ?_⟩
  · exact getLsbD_servedStatus_of_ne st hy previous (by omega) (by omega) (by omega)
      (fun h => absurd (hs.trans h.symm) hne)
  · exact getLsbD_servedStatus_of_ne st hy previous (by omega) (by omega)
      (fun h => absurd (hm.trans h.symm) hne) (by omega)
  · exact getLsbD_servedStatus_of_ne st hy previous (by omega) (by omega)
      (fun h => absurd (hm.trans h.symm) hne) (by omega)
  · exact getLsbD_servedStatus_of_ne st hy previous (by omega) (by omega) (by omega) (by omega)

/-- Return from one level leaves the saved mode of every level alone, and the saved
enable bit of another one. -/
theorem restoredStatus_other (st : RvUintXlen w) {y level : PrivilegeLevel} (hy : y.Legal)
    (hl : level.Legal) (hne : level ≠ y) :
    restoredMode (restoredStatus st y) level = restoredMode st level ∧
      (restoredStatus st y).getLsbD (trapXstatusUpieBit + level.toInt.toNat) =
        st.getLsbD (trapXstatusUpieBit + level.toInt.toNat) := by
  have hycases := toNat_of_legal hy
  have hlcases := toNat_of_legal hl
  have hnum := toNat_ne_of_ne hl hy hne
  have hupie : trapXstatusUpieBit = 4 := rfl
  have hspp : trapXstatusSppBit = 8 := rfl
  have hmpp : trapXstatusMppBit = 11 := rfl
  refine ⟨restoredMode_congr hl (fun _ => ?_) (fun _ => ⟨?_, ?_⟩), ?_⟩
  · exact getLsbD_restoredStatus_of_ne st hy (by omega) (by omega)
  · exact getLsbD_restoredStatus_of_ne st hy (by omega) (by omega)
  · exact getLsbD_restoredStatus_of_ne st hy (by omega) (by omega)
  · exact getLsbD_restoredStatus_of_ne st hy (by omega) (by omega)

/-! ### One step -/

theorem servedTrap_status (trap : Trap w) (serving previous : PrivilegeLevel)
    (isInterrupt : Bool) (cause currPc tval : RvUintXlen w) :
    (servedTrap trap serving previous isInterrupt cause currPc tval).reg .m .status =
      servedStatus (trap.reg .m .status) serving previous := by
  simp only [servedTrap, Trap.reg_setReg, TrapReg.shared, reduceCtorEq, false_and, true_and,
    or_true, if_false, if_true]

theorem Kept.entry {status : RvUintXlen w} {mode : PrivilegeLevel} (hmode : .user ≤ mode)
    {c : TrapNest w} (hc : c.Kept status mode) {y : PrivilegeLevel} (hlevel : y.Legal)
    (hle : c.mode ≤ y) (hclosed : ∀ e ∈ c.opened, e.level ≠ y) {trap : Trap w}
    (htrap : trap.reg .m .status = servedStatus c.status y c.mode) :
    Kept status mode ⟨trap, y, ⟨y, c.mode, c.status.getLsbD y.toInt.toNat⟩ :: c.opened⟩ := by
  have huser : .user ≤ c.mode := by
    rw [hc.mode_eq]
    cases hopened : c.opened with
    | nil => exact hmode
    | cons e rest => exact (hc.legal e (by rw [hopened]; exact List.mem_cons_self)).user_le
  constructor
  case mode_eq => rfl
  case chained => exact ⟨hc.mode_eq, hc.chained⟩
  case distinct =>
    rw [List.pairwise_cons]
    exact ⟨fun e he => (hclosed e he).symm, hc.distinct⟩
  case legal =>
    intro e he
    rcases List.mem_cons.mp he with rfl | he
    · exact hlevel
    · exact hc.legal e he
  case previous =>
    intro e he
    show restoredMode (trap.reg .m .status) e.level = e.previous
    rw [htrap]
    rcases List.mem_cons.mp he with rfl | he
    · exact restoredMode_servedStatus c.status hlevel huser hle
    · rw [(servedStatus_other c.status hlevel (hc.legal e he) (hclosed e he) c.mode).1]
      exact hc.previous e he
  case enabled =>
    intro e he
    show (trap.reg .m .status).getLsbD _ = e.enabled
    rw [htrap]
    rcases List.mem_cons.mp he with rfl | he
    · exact getLsbD_servedStatus_pie c.status hlevel c.mode
    · rw [(servedStatus_other c.status hlevel (hc.legal e he) (hclosed e he) c.mode).2]
      exact hc.enabled e he
  case initial =>
    intro e he
    rcases List.mem_cons.mp he with rfl | he
    -- the level is not open, so that its enable bit is still the initial one
    · exact hc.others _ (not_savedBit_toNat hlevel) fun e he =>
        (toNat_ne_of_ne (hc.legal e he) hlevel (hclosed e he)).symm
    · exact hc.initial e he
  case others =>
    intro k hk hopen
    show (trap.reg .m .status).getLsbD k = _
    rw [htrap, getLsbD_servedStatus_of_ne c.status hlevel c.mode
      (hopen _ List.mem_cons_self) (fun h => hk (h ▸ savedBit_pie hlevel))]
    · exact hc.others k hk fun e he => hopen e (List.mem_cons_of_mem _ he)
    · exact fun _ => ⟨fun h => hk (by simp [SavedBit, h]), fun h => hk (by simp [SavedBit, h])⟩
    · exact fun _ h => hk (by simp [SavedBit, h])

theorem Kept.ret {status : RvUintXlen w} {mode : PrivilegeLevel} {c : TrapNest w}
    (hc : c.Kept status mode) {e : OpenTrap} {rest : List OpenTrap}
    (hopened : c.opened = e :: rest) {trap : Trap w}
    (htrap : trap.reg .m .status = restoredStatus c.status e.level) :
    Kept status mode ⟨trap, e.previous, rest⟩ := by
  have he : e ∈ c.opened := by rw [hopened]; exact List.mem_cons_self
  have hrest : ∀ e' ∈ rest, e' ∈ c.opened := fun e' he' => by
    rw [hopened]
    exact List.mem_cons_of_mem _ he'
  have hlevel := hc.legal e he
  have hchained := hc.chained
  have hdistinct := hc.distinct
  rw [hopened] at hchained hdistinct
  rw [List.pairwise_cons] at hdistinct
  constructor
  case mode_eq => exact hchained.1
  case chained => exact hchained.2
  case distinct => exact hdistinct.2
  case legal => exact fun e' he' => hc.legal e' (hrest e' he')
  case previous =>
    intro e' he'
    show restoredMode (trap.reg .m .status) e'.level = e'.previous
    rw [htrap, (restoredStatus_other c.status hlevel (hc.legal e' (hrest e' he'))
      (hdistinct.1 e' he').symm).1]
    exact hc.previous e' (hrest e' he')
  case enabled =>
    intro e' he'
    show (trap.reg .m .status).getLsbD _ = e'.enabled
    rw [htrap, (restoredStatus_other c.status hlevel (hc.legal e' (hrest e' he'))
      (hdistinct.1 e' he').symm).2]
    exact hc.enabled e' (hrest e' he')
  case initial => exact fun e' he' => hc.initial e' (hrest e' he')
  case others =>
    intro k hk hopen
    show (trap.reg .m .status).getLsbD k = _
    rw [htrap]
    by_cases hke : k = e.level.toInt.toNat
    -- the enable bit of the level that is closed
    · rw [hke, getLsbD_restoredStatus_ie c.status hlevel, hc.enabled e he, hc.initial e he]
    · rw [getLsbD_restoredStatus_of_ne c.status hlevel hke
        (fun h => hk (h ▸ savedBit_pie hlevel))]
      refine hc.others k hk fun e' he' => ?_
      rw [hopened] at he'
      rcases List.mem_cons.mp he' with rfl | he'
      · exact hke
      · exact hopen e' he'

theorem Kept.restore {status : RvUintXlen w} {mode : PrivilegeLevel} {c : TrapNest w}
    (hc : c.Kept status mode) {e : OpenTrap} (he : e ∈ c.opened) :
    ∃ trap, trapRestoreIrqSettings c.trap e.level = .ok (e.previous, trap) ∧
      trap.reg .m .status = restoredStatus c.status e.level := by
  refine ⟨c.trap.setReg .m .status (restoredStatus c.status e.level), ?_, ?_⟩
  · rw [trapRestoreIrqSettings_eq c.trap (hc.legal e he), hc.previous e he]
  · rw [Trap.reg_setReg, if_pos ⟨rfl, .inl rfl⟩]

theorem Kept.step {status : RvUintXlen w} {mode : PrivilegeLevel} (hmode : .user ≤ mode)
    {c c' : TrapNest w} (hc : c.Kept status mode) (h : Step c c') : c'.Kept status mode := by
  cases h with
  | @entry y isInterrupt cause currPc tval vector trap hlevel hle hclosed hserve =>
      rw [trapServeInterrupt_eq c.trap hlevel] at hserve
      obtain ⟨-, rfl⟩ := Prod.mk.inj (Except.ok.inj hserve)
      exact hc.entry hmode hlevel hle hclosed (servedTrap_status _ _ _ _ _ _ _)
  | @ret e rest mode' trap hopened hrestore =>
      have he : e ∈ c.opened := by rw [hopened]; exact List.mem_cons_self
      obtain ⟨trap', hrestore', htrap⟩ := hc.restore he
      rw [hrestore'] at hrestore
      obtain ⟨rfl, rfl⟩ := Prod.mk.inj (Except.ok.inj hrestore)
      exact hc.ret hopened htrap
  | @other trap hstatus =>
      have hsame : TrapNest.status ⟨trap, c.mode, c.opened⟩ = c.status := hstatus
      constructor
      case mode_eq => exact hc.mode_eq
      case chained => exact hc.chained
      case distinct => exact hc.distinct
      case legal => exact hc.legal
      case previous => exact fun e he => hsame ▸ hc.previous e he
      case enabled => exact fun e he => hsame ▸ hc.enabled e he
      case initial => exact hc.initial
      case others => exact fun k hk hopen => hsame ▸ hc.others k hk hopen

/-! ### Runs -/

theorem Kept.of_closed {c : TrapNest w} (h : c.opened = []) : c.Kept c.status c.mode := by
  constructor
  case mode_eq => rw [h]; rfl
  case chained => rw [h]; trivial
  case distinct => rw [h]; exact .nil
  case others => exact fun _ _ _ => rfl
  all_goals
    rw [h]
    exact fun e he => absurd he List.not_mem_nil

theorem Kept.run {c c' : TrapNest w} (hmode : .user ≤ c.mode) (hclosed : c.opened = [])
    (hrun : Relation.ReflTransGen Step c c') : c'.Kept c.status c.mode := by
  induction hrun with
  | refl => exact .of_closed hclosed
  | tail _ hstep ih => exact ih.step hmode hstep

end TrapNest

/-- Nested entry and return undo each other. Along every run that starts with no open
trap, the return at the level of the innermost open trap goes back to the mode the
trap was taken from and restores the enable bit of its level, and when no trap is open
any more the mode and every bit that is no saved one have their initial values. -/
theorem trap_nesting {c c' : TrapNest w} (hmode : .user ≤ c.mode) (hclosed : c.opened = [])
    (hrun : Relation.ReflTransGen TrapNest.Step c c') :
    (∀ e rest, c'.opened = e :: rest → c'.mode = e.level ∧
      ∃ trap, trapRestoreIrqSettings c'.trap e.level = .ok (e.previous, trap) ∧
        (trap.reg .m .status).getLsbD e.level.toInt.toNat = e.enabled) ∧
    (c'.opened = [] → c'.mode = c.mode ∧
      ∀ k, ¬ TrapNest.SavedBit k → c'.status.getLsbD k = c.status.getLsbD k) := by
  have hkept := TrapNest.Kept.run hmode hclosed hrun
  constructor
  · intro e rest hopened
    have he : e ∈ c'.opened := by rw [hopened]; exact List.mem_cons_self
    obtain ⟨trap, hrestore, htrap⟩ := hkept.restore he
    refine ⟨?_, trap, hrestore, ?_⟩
    · rw [hkept.mode_eq, hopened]
      rfl
    · rw [htrap, TrapNest.getLsbD_restoredStatus_ie _ (hkept.legal e he)]
      exact hkept.enabled e he
  · intro hopened
    refine ⟨?_, fun k hk => hkept.others k hk ?_⟩
    · rw [hkept.mode_eq, hopened]
      rfl
    · rw [hopened]
      exact fun e he => absurd he List.not_mem_nil

/-- A supervisor trap taken from user mode and interrupted by a machine trap. -/
theorem trap_nesting_machine_in_supervisor :
    ∃ c : TrapNest .rv32,
      c.opened = [⟨.machine, .supervisor, true⟩, ⟨.supervisor, .user, true⟩] ∧
      ∃ trap, trapRestoreIrqSettings c.trap .machine = .ok (.supervisor, trap) ∧
        (trap.reg .m .status).getLsbD 3 = true := by
  let start : TrapNest .rv32 := ⟨({} : Trap .rv32).setReg .m .status 0xB, .user, []⟩
  let inner := start.entered .supervisor true 5 0x100 0
  have hinner : TrapNest.Step start inner := .entered (.inr (.inl rfl)) (by decide) (by decide)
  let outer := inner.entered .machine true 7 0x200 0
  have houter : TrapNest.Step inner outer := .entered (.inr (.inr rfl)) (by decide) (by decide)
  have hopened : outer.opened =
      [⟨.machine, .supervisor, true⟩, ⟨.supervisor, .user, true⟩] := by decide
  have hnest := trap_nesting (c := start) (by decide) rfl (.tail (.single hinner) houter)
  exact ⟨outer, hopened, (hnest.1 _ _ hopened).2⟩

end RiscvEm
