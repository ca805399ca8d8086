import RiscvEm.Core.Reach

/-!
Load-reserved and store-conditional over runs.

A run keeps a list of the two instructions that it has executed, the last one first.
The reservation that the core holds is the one of the head of that list; whether the
load behind it was granted is in the list only.
-/

namespace RiscvEm

variable {w : Xlen} {σ : Type}

/-! ### What a call executes of the two -/

inductive AtomicEvent (w : Xlen)
  | lr (address : RvUintXlen w) (completed : Bool)
  | sc

/-- The load of `LR` is answered with `ret`. -/
def LrAccess (busAccess : BusAccessFunc w σ) (cb : ExecutionCb) (d : RvCore w σ) (ret : RvRet) :
    Prop :=
  ∃ bytes s₁, mmuCheckedBusAccess busAccess d.reserve .read (d.x d.rs1) (leBytes cb.accessLen 0)
    cb.accessLen = .ok (ret, bytes, s₁)

/-- The store of `SC` is answered with `ret` and leaves the state `s₁`. -/
def ScAccess (busAccess : BusAccessFunc w σ) (cb : ExecutionCb) (d : RvCore w σ) (ret : RvRet)
    (s₁ : RvCore w σ) : Prop :=
  ∃ bytes, mmuCheckedBusAccess busAccess d .write (d.x d.rs1)
    (leBytes cb.accessLen (d.x d.rs2).toNat) cb.accessLen = .ok (ret, bytes, s₁)

inductive Adds (busAccess : BusAccessFunc w σ) (s : RvCore w σ) :
    CoreCall σ → List (AtomicEvent w) → Prop
  | lr {cb : ExecutionCb} {d : RvCore w σ} {completed : Bool}
      (hexec : Executes busAccess s cb d) (hcb : cb.kind = .loadReserved)
      (hload : completed = true ↔ LrAccess busAccess cb d .ok) :
      Adds busAccess s .run [.lr (d.x d.rs1) completed]
  | sc {cb : ExecutionCb} {d : RvCore w σ} (hexec : Executes busAccess s cb d)
      (hcb : cb.kind = .storeConditional) : Adds busAccess s .run [.sc]
  | other {call : CoreCall σ} (hother : call = .run → ∀ cb d, Executes busAccess s cb d →
      cb.kind ≠ .loadReserved ∧ cb.kind ≠ .storeConditional) : Adds busAccess s call []

inductive AtomicRun (busAccess : BusAccessFunc w σ) : List (AtomicEvent w) → RvCore w σ → Prop
  | init {s : RvCore w σ} (h : s.Initial) : AtomicRun busAccess [] s
  | call {history events : List (AtomicEvent w)} {s s' : RvCore w σ} {call : CoreCall σ}
      (hrun : AtomicRun busAccess history s) (hcall : call.exec busAccess s = .ok s')
      (hadds : Adds busAccess s call events) : AtomicRun busAccess (events ++ history) s'

theorem exists_adds (busAccess : BusAccessFunc w σ) (s : RvCore w σ) (call : CoreCall σ) :
    ∃ events, Adds busAccess s call events := by
  classical
  by_cases hlr : call = .run ∧ ∃ cb d, Executes busAccess s cb d ∧ cb.kind = .loadReserved
  · obtain ⟨rfl, cb, d, hexec, hcb⟩ := hlr
    have hload : decide (LrAccess busAccess cb d .ok) = true ↔ LrAccess busAccess cb d .ok :=
      decide_eq_true_iff
    exact ⟨_, .lr hexec hcb hload⟩
  · by_cases hsc : call = .run ∧ ∃ cb d, Executes busAccess s cb d ∧ cb.kind = .storeConditional
    · obtain ⟨rfl, cb, d, hexec, hcb⟩ := hsc
      exact ⟨_, .sc hexec hcb⟩
    · refine ⟨_, .other fun hrun cb d hexec => ⟨fun hcb => ?_, fun hcb => ?_⟩⟩
      · exact hlr ⟨hrun, cb, d, hexec, hcb⟩
      · exact hsc ⟨hrun, cb, d, hexec, hcb⟩

theorem CoreReachable.atomicRun {busAccess : BusAccessFunc w σ} {s : RvCore w σ}
    (h : CoreReachable busAccess s) : ∃ history, AtomicRun busAccess history s := by
  refine Transition.Reachable.invariant (P := fun s => ∃ history, AtomicRun busAccess history s)
    h ?_ ?_
  · exact fun a ha => ⟨[], .init ha⟩
  · rintro a b ⟨history, hrun⟩ ⟨call, hcall⟩
    obtain ⟨events, hadds⟩ := exists_adds busAccess a call
    exact ⟨_, hrun.call hcall hadds⟩

/-! ### The reservation -/

/-- The reservation of `s'` is that of `s`. -/
def ReservationKept (s s' : RvCore w σ) : Prop :=
  s'.lrValid = s.lrValid ∧ s'.lrAddress = s.lrAddress

theorem AccessFrame.reservationKept {s s' : RvCore w σ} (h : AccessFrame s s') :
    ReservationKept s s' := by
  rw [AccessFrame] at h
  rw [h]
  exact ⟨rfl, rfl⟩

theorem load_reservationKept {busAccess : BusAccessFunc w σ} {len : Nat}
    {ext : BitVec (8 * len) → RvUintXlen w} {s s' : RvCore w σ}
    (h : load busAccess len ext s = .ok s') : ReservationKept s s' := by
  obtain ⟨ret, bytes, s₁, haccess, rfl⟩ := load_eq_ok.mp h
  have hkept := (mmuCheckedBusAccess_frame haccess).reservationKept
  split
  · exact hkept
  · exact hkept

theorem handler_reservationKept {busAccess : BusAccessFunc w σ} {cb : ExecutionCb}
    {s s' : RvCore w σ} (hlr : cb.kind ≠ .loadReserved) (hsc : cb.kind ≠ .storeConditional)
    (h : cb.handler busAccess s = .ok s') : ReservationKept s s' := by
  rcases handler_cases h with ⟨hk, -⟩ | ⟨-, newVal, hcsr⟩ | ⟨-, merge, newVal, -, hcsr⟩ |
      ⟨level, -, hxret⟩
  · cases hkind : cb.kind with
    | compute =>
        rw [handler_compute_frame busAccess hkind h]
        exact ⟨rfl, rfl⟩
    | ecall =>
        rw [handler_ecall busAccess hkind] at h
        obtain rfl := Except.ok.inj h
        exact (prepareSyncTrap_frame s _ _).reservationKept
    | hang =>
        rw [handler_hang busAccess hkind] at h
        cases h
    | load =>
        obtain ⟨ext, hload⟩ := handler_load busAccess hkind
        rw [hload] at h
        exact load_reservationKept h
    | store =>
        rw [handler_store busAccess hkind] at h
        obtain ⟨ret, bytes, haccess⟩ := store_eq_ok.mp h
        exact (mmuCheckedBusAccess_frame haccess).reservationKept
    | amo =>
        obtain ⟨op, hamo⟩ := handler_amo busAccess hkind
        obtain ⟨ext, hload⟩ := amoLoad_eq busAccess hkind
        rw [hamo, hload] at h
        obtain ⟨s₁, hs₁, ret, bytes, haccess⟩ := amo_eq_ok.mp h
        have hfirst := load_reservationKept hs₁
        have hsecond := (mmuCheckedBusAccess_frame haccess).reservationKept
        exact ⟨hsecond.1.trans hfirst.1, hsecond.2.trans hfirst.2⟩
    | loadReserved => exact absurd hkind hlr
    | storeConditional => exact absurd hkind hsc
    | csrWrite => simp [hkind, HandlerKind.system] at hk
    | csrModify => simp [hkind, HandlerKind.system] at hk
    | xret level => simp [hkind, HandlerKind.system] at hk
  · rw [csrrwx_frame hcsr]
    exact ⟨rfl, rfl⟩
  · rw [csrrReadModifyWrite_frame hcsr]
    exact ⟨rfl, rfl⟩
  · rw [(xret_eq_ok hxret).2]
    exact ⟨rfl, rfl⟩

/-- `LR` leaves a reservation for its address, whatever becomes of its load. -/
theorem handler_loadReserved_reserves {busAccess : BusAccessFunc w σ} {cb : ExecutionCb}
    {s s' : RvCore w σ} (hcb : cb.kind = .loadReserved) (h : cb.handler busAccess s = .ok s') :
    s'.lrValid = true ∧ s'.lrAddress = s.x s.rs1 := by
  obtain ⟨ext, hload⟩ := handler_loadReserved busAccess hcb
  rw [hload, loadReserved_eq] at h
  exact load_reservationKept h

section StoreConditional

variable {busAccess : BusAccessFunc w σ} {s s' d : RvCore w σ} {cb : ExecutionCb}

theorem atomic_of_storeConditional (hcb : cb.kind = .storeConditional) : cb.atomic = true := by
  cases cb <;> first | (cases hcb; done) | rfl

/-- A call that executes `SC`: the store is made just if the reservation covers its
address, and whether it was refused is not looked at. -/
theorem storeConditional_run (hexec : Executes busAccess s cb d)
    (hcb : cb.kind = .storeConditional) (hrun : rvCoreRun busAccess s = .ok s') :
    s'.lrValid = false ∧
      ((d.reserved ∧ s'.x = Function.update (Function.update s.x d.rd 0) 0 0 ∧
          ∃ ret s₁, ScAccess busAccess cb d ret s₁ ∧ s'.priv = s₁.priv) ∨
        (¬ d.reserved ∧ s'.x = Function.update (Function.update s.x d.rd 1) 0 0)) := by
  have hx : d.x = s.x := by rw [hexec.frame]
  obtain ⟨e, hhandler, rfl⟩ := hexec.handler_of_run hrun
  rw [handler_storeConditional busAccess hcb] at hhandler
  by_cases hreserved : d.reserved
  · obtain ⟨s₁, hstore, rfl⟩ := storeConditional_of_reserved hreserved hhandler
    obtain ⟨ret, bytes, haccess⟩ := store_eq_ok.mp hstore
    rw [hexec.atomic_address (atomic_of_storeConditional hcb)] at haccess
    have hframe := mmuCheckedBusAccess_frame haccess
    have hx₁ : s₁.x = s.x := by rw [← hx, hframe]
    have hrd : s₁.rd = d.rd := by rw [hframe]
    refine ⟨rfl, .inl ⟨hreserved, ?_, ret, s₁, ⟨bytes, haccess⟩, rfl⟩⟩
    rw [← hx₁, ← hrd]
    rfl
  · rw [storeConditional_of_not_reserved hreserved] at hhandler
    obtain rfl := Except.ok.inj hhandler
    refine ⟨rfl, .inr ⟨hreserved, ?_⟩⟩
    rw [← hx]
    rfl

/-- With its reservation, an `SC` whose access returns leaves zero in its destination. -/
theorem storeConditional_run_of_access (hexec : Executes busAccess s cb d)
    (hcb : cb.kind = .storeConditional) (hreserved : d.reserved) {ret : RvRet}
    {s₁ : RvCore w σ} (haccess : ScAccess busAccess cb d ret s₁) :
    ∃ s', rvCoreRun busAccess s = .ok s' ∧ (d.rd ≠ 0 → s'.x d.rd = 0) := by
  obtain ⟨bytes, haccess⟩ := haccess
  have hstore : store busAccess cb.accessLen d = .ok s₁ := by
    rw [store_eq_ok, hexec.atomic_address (atomic_of_storeConditional hcb)]
    exact ⟨ret, bytes, haccess⟩
  have hcond : d.lrValid = true ∧ d.lrAddress = d.x d.rs1 := hreserved
  have hhandler : cb.handler busAccess d =
      .ok { s₁.setX s₁.rd 0 with lrValid := false, lrAddress := 0 } := by
    rw [handler_storeConditional busAccess hcb, storeConditional, if_pos hcond, hstore]
    rfl
  have hrun := hexec.run hhandler
  obtain ⟨-, ⟨-, hx, -⟩ | ⟨hnot, -⟩⟩ := storeConditional_run hexec hcb hrun
  · refine ⟨_, hrun, fun hrd => ?_⟩
    rw [hx, Function.update_of_ne hrd, Function.update_self]
  · exact absurd hreserved hnot

/-- `SC` stores: its reservation covers the address, the access is granted, and the call
leaves the memory and the devices as the access does. -/
def ScStores (busAccess : BusAccessFunc w σ) (cb : ExecutionCb) (d s' : RvCore w σ) : Prop :=
  d.reserved ∧ ∃ s₁, ScAccess busAccess cb d .ok s₁ ∧ s'.priv = s₁.priv

structure ScOutcome (busAccess : BusAccessFunc w σ) (history : List (AtomicEvent w))
    (s : RvCore w σ) (cb : ExecutionCb) (d s' : RvCore w σ) : Prop where
  success : d.rd ≠ 0 → s'.x d.rd = 0 →
    ScStores busAccess cb d s' ∧ history.head? = some (.lr (d.x d.rs1) true)
  failure : ¬ ScStores busAccess cb d s' → ∀ r, s.x r ≠ 0 → s'.x r ≠ 0
  released : s'.lrValid = false

def ScCorrect (busAccess : BusAccessFunc w σ) (history : List (AtomicEvent w))
    (s : RvCore w σ) : Prop :=
  ∀ cb d s', Executes busAccess s cb d → cb.kind = .storeConditional →
    rvCoreRun busAccess s = .ok s' → ScOutcome busAccess history s cb d s'

/-- An `SC` at hand with a reservation and a destination is not refused its store, and the
last `LR` was not refused its load. -/
def ScUnrefused (busAccess : BusAccessFunc w σ) (history : List (AtomicEvent w))
    (s : RvCore w σ) : Prop :=
  ∀ cb d, Executes busAccess s cb d → cb.kind = .storeConditional → d.reserved → d.rd ≠ 0 →
    ∀ ret s₁, ScAccess busAccess cb d ret s₁ →
      ret = .ok ∧ ∀ address, history.head? ≠ some (.lr address false)

end StoreConditional

/-! ### Over runs -/

/-- A reservation is that of the last of the two instructions. -/
structure Reservation (history : List (AtomicEvent w)) (s : RvCore w σ) : Prop where
  x_zero : s.x 0 = 0
  covered : s.lrValid = true → ∃ completed, history.head? = some (.lr s.lrAddress completed)

theorem Reservation.of_kept {history : List (AtomicEvent w)} {s s' : RvCore w σ}
    (h : Reservation history s) (hx : s'.x 0 = 0) (hkept : ReservationKept s s') :
    Reservation history s' := by
  refine ⟨hx, fun hvalid => ?_⟩
  rw [hkept.1] at hvalid
  rw [hkept.2]
  exact h.covered hvalid

theorem Reservation.run {busAccess : BusAccessFunc w σ} {history events : List (AtomicEvent w)}
    {s s' : RvCore w σ} (hs : Reservation history s) (hrun : rvCoreRun busAccess s = .ok s')
    (hadds : Adds busAccess s .run events) : Reservation (events ++ history) s' := by
  have hx : s'.x 0 = 0 := rvCoreRun_x_zero hs.x_zero hrun
  cases hadds with
  | @lr cb d completed hexec hcb hload =>
      obtain ⟨e, hhandler, rfl⟩ := hexec.handler_of_run hrun
      obtain ⟨-, haddress⟩ := handler_loadReserved_reserves hcb hhandler
      refine ⟨hx, fun _ => ⟨completed, ?_⟩⟩
      rw [← haddress]
      rfl
  | sc hexec hcb =>
      obtain ⟨hvalid, -⟩ := storeConditional_run hexec hcb hrun
      refine ⟨hx, fun hnot => ?_⟩
      rw [hvalid] at hnot
      cases hnot
  | other hother =>
      refine hs.of_kept hx ?_
      rcases rvCoreRun_cases hrun with ⟨f, hfetch, rfl⟩ | ⟨cb, d, e, hexec, hhandler, rfl⟩
      · show ReservationKept s f
        rw [rvCoreFetch_frame hfetch]
        exact ⟨rfl, rfl⟩
      · obtain ⟨hlr, hsc⟩ := hother rfl cb d hexec
        have hd : ReservationKept s d := by
          rw [hexec.frame]
          exact ⟨rfl, rfl⟩
        have he := handler_reservationKept hlr hsc hhandler
        exact ⟨he.1.trans hd.1, he.2.trans hd.2⟩

theorem AtomicRun.reservation {busAccess : BusAccessFunc w σ} {history : List (AtomicEvent w)}
    {s : RvCore w σ} (h : AtomicRun busAccess history s) : Reservation history s := by
  induction h with
  | init h =>
      obtain ⟨priv, rfl⟩ := h
      exact ⟨rfl, fun h => by cases h⟩
  | @call history events s s' call hrun hcall hadds ih =>
      cases call with
      | run => exact ih.run hcall hadds
      | environment priv =>
          cases hadds with
          | other hother =>
              obtain rfl := Except.ok.inj hcall
              exact ih.of_kept ih.x_zero ⟨rfl, rfl⟩
      | processInterrupts mei mti msi =>
          cases hadds with
          | other hother =>
              rw [rvCoreProcessInterrupts_frame hcall]
              exact ih.of_kept ih.x_zero ⟨rfl, rfl⟩

theorem one_ne_zero_xlen : (1#w.bits) ≠ 0 := by
  cases w <;> decide

/-- After every run, an `SC` does what is expected of it just if neither its store nor the
load of the last `LR` is refused, as far as they matter. -/
theorem scCorrect_iff (busAccess : BusAccessFunc w σ) {history : List (AtomicEvent w)}
    {s : RvCore w σ} (h : AtomicRun busAccess history s) :
    ScCorrect busAccess history s ↔ ScUnrefused busAccess history s := by
  constructor
  · intro hcorrect cb d hexec hcb hreserved hrd ret s₁ haccess
    obtain ⟨s', hrun, hzero⟩ := storeConditional_run_of_access hexec hcb hreserved haccess
    obtain ⟨⟨-, s₂, hstored, -⟩, hlast⟩ :=
      (hcorrect cb d s' hexec hcb hrun).success hrd (hzero hrd)
    obtain ⟨bytes, haccess⟩ := haccess
    obtain ⟨bytes', hstored⟩ := hstored
    obtain ⟨rfl, -⟩ := Prod.mk.inj (Except.ok.inj (haccess.symm.trans hstored))
    refine ⟨rfl, fun address hrefused => ?_⟩
    rw [hlast] at hrefused
    cases hrefused
  · intro hunrefused cb d s' hexec hcb hrun
    have hreservation := h.reservation
    have hlr : d.lrValid = s.lrValid ∧ d.lrAddress = s.lrAddress := by
      rw [hexec.frame]
      exact ⟨rfl, rfl⟩
    obtain ⟨hvalid, ⟨hreserved, hx, ret, s₁, haccess, hpriv⟩ | ⟨hnot, hx⟩⟩ :=
      storeConditional_run hexec hcb hrun
    · -- the store is made
      have hgranted (hrd : d.rd ≠ 0) : ScStores busAccess cb d s' ∧
          ∀ address, history.head? ≠ some (.lr address false) := by
        obtain ⟨rfl, hlast⟩ := hunrefused cb d hexec hcb hreserved hrd ret s₁ haccess
        exact ⟨⟨hreserved, s₁, haccess, hpriv⟩, hlast⟩
      refine ⟨fun hrd _ => ⟨(hgranted hrd).1, ?_⟩, fun hstores r hr => ?_, hvalid⟩
      · obtain ⟨completed, hlast⟩ := hreservation.covered (hlr.1.symm.trans hreserved.1)
        have haddress : s.lrAddress = d.x d.rs1 := hlr.2.symm.trans hreserved.2
        cases completed with
        | true => rw [hlast, haddress]
        | false => exact absurd hlast ((hgranted hrd).2 _)
      · have hrd : d.rd = 0 := by
          by_contra hrd
          exact hstores (hgranted hrd).1
        have hr0 : r ≠ 0 := fun hr0 => hr (hr0 ▸ hreservation.x_zero)
        rw [hx, Function.update_of_ne hr0, hrd, Function.update_of_ne hr0]
        exact hr
    · -- the store is not made, and the destination holds one
      refine ⟨fun hrd hzero => ?_, fun _ r hr => ?_, hvalid⟩
      · rw [hx, Function.update_of_ne hrd, Function.update_self] at hzero
        exact absurd hzero one_ne_zero_xlen
      · have hr0 : r ≠ 0 := fun hr0 => hr (hr0 ▸ hreservation.x_zero)
        rw [hx, Function.update_of_ne hr0]
        by_cases hrd : r = d.rd
        · rw [hrd, Function.update_self]
          exact one_ne_zero_xlen
        · rw [Function.update_of_ne hrd]
          exact hr

/-- `lui x1, 0x80000; lr.w x3, (x1); sc.w x4, x0, (x1)` -/
def reservedProgram : List (BitVec 32) := [0x800000B7, 0x1000A1AF, 0x1800A22F]

/-- The last instruction of the program above stores and reports it. -/
theorem scCorrect_iff_reserved :
    ∃ history s d s', AtomicRun (romBus reservedProgram) history (s : RvCore .rv32 Unit) ∧
      Executes (romBus reservedProgram) s .scW d ∧ s'.x 4 = 0 ∧
      ScOutcome (romBus reservedProgram) history s .scW d s' := by
  let busAccess : BusAccessFunc .rv32 Unit := romBus reservedProgram
  have hcheck : (CoreCall.execAll busAccess [.run] (rvCoreInit () : RvCore .rv32 Unit)).toOption.any
      (fun s₀ => executesAny busAccess s₀ (fun cb d => cb == .lrW &&
          (mmuCheckedBusAccess busAccess d.reserve .read (d.x d.rs1) (leBytes 4 0) 4).toOption.any
            fun r => r.1 == .ok) &&
        (rvCoreRun busAccess s₀).toOption.any (fun s =>
          executesAny busAccess s (fun cb d => cb == .scW &&
            (mmuCheckedBusAccess busAccess d .write (d.x d.rs1)
              (leBytes 4 (d.x d.rs2).toNat) 4).toOption.any fun r => r.1 == .ok) &&
          (rvCoreRun busAccess s).toOption.any fun s' => s'.x 4 == 0)) = true := by
    decide +kernel
  obtain ⟨s₀, hrun₀, hcheck⟩ := CoreCall.exists_of_execAll hcheck
  obtain ⟨hlr, hcheck⟩ := Bool.and_eq_true_iff.mp hcheck
  obtain ⟨s, hrun, hcheck⟩ := Except.exists_of_any_toOption hcheck
  obtain ⟨hsc, hcheck⟩ := Bool.and_eq_true_iff.mp hcheck
  obtain ⟨s', hrun', hzero⟩ := Except.exists_of_any_toOption hcheck
  -- the load and the store are both granted
  obtain ⟨cb, d₀, hexec₀, hd₀⟩ := exists_of_executesAny hlr
  obtain ⟨hcb, hload⟩ := Bool.and_eq_true_iff.mp hd₀
  obtain rfl := eq_of_beq hcb
  obtain ⟨⟨ret, bytes, s₁⟩, hload, hret⟩ := Except.exists_of_any_toOption hload
  obtain rfl := eq_of_beq hret
  obtain ⟨cb, d, hexec, hd⟩ := exists_of_executesAny hsc
  obtain ⟨hcb, hstore⟩ := Bool.and_eq_true_iff.mp hd
  obtain rfl := eq_of_beq hcb
  obtain ⟨⟨ret, bytes', s₂⟩, hstore, hret⟩ := Except.exists_of_any_toOption hstore
  obtain rfl := eq_of_beq hret
  have hreach : CoreReachable busAccess s₀ := ⟨_, ⟨(), rfl⟩, hrun₀⟩
  obtain ⟨history, hhistory⟩ := hreach.atomicRun
  have hadds : Adds busAccess s₀ .run [.lr (d₀.x d₀.rs1) true] :=
    .lr hexec₀ rfl (iff_of_true rfl ⟨bytes, s₁, hload⟩)
  have hatomic : AtomicRun busAccess ([.lr (d₀.x d₀.rs1) true] ++ history) s :=
    hhistory.call (show CoreCall.run.exec busAccess s₀ = .ok s from hrun) hadds
  have hunrefused : ScUnrefused busAccess ([.lr (d₀.x d₀.rs1) true] ++ history) s := by
    rintro cb d' hexec' - - - ret s₃ ⟨bytes₃, haccess⟩
    obtain ⟨rfl, rfl⟩ := hexec.unique hexec'
    obtain ⟨rfl, -⟩ := Prod.mk.inj (Except.ok.inj (haccess.symm.trans hstore))
    refine ⟨rfl, fun address h => ?_⟩
    cases h
  have houtcome := (scCorrect_iff busAccess hatomic).mpr hunrefused _ _ _ hexec rfl hrun'
  exact ⟨_, s, d, s', hatomic, hexec, eq_of_beq hzero, houtcome⟩

/-- Makes all memory read-only also for machine mode, and stores conditionally at the base
of the RAM: `lui x1, 0x80000; lr.w x3, (x1); sc.w x2, x0, (x1)`. -/
def refusedStoreProgram : List (BitVec 32) :=
  [ 0xFFF00093, 0x3B009073,             -- pmpaddr0 = all ones
    0x09D00113, 0x3A011073,             -- pmpcfg0: locked, NAPOT, read and execute
    0x800000B7, 0x1000A1AF, 0x1800A12F ]

/-- The last instruction of the program above reports success for a store that was
refused. -/
theorem refused_store_succeeds :
    ¬ ∀ (busAccess : BusAccessFunc .rv32 Unit) (history : List (AtomicEvent .rv32))
      (s : RvCore .rv32 Unit), AtomicRun busAccess history s → ScCorrect busAccess history s := by
  intro h
  have hcheck : (CoreCall.execAll (romBus refusedStoreProgram) (List.replicate 6 .run)
      (rvCoreInit () : RvCore .rv32 Unit)).toOption.any (fun s =>
        executesAny (romBus refusedStoreProgram) s (fun cb d => cb == .scW && d.rd == 2 &&
          (mmuCheckedBusAccess (romBus refusedStoreProgram) d .write (d.x d.rs1)
            (leBytes 4 (d.x d.rs2).toNat) 4).toOption.any (fun r => r.1 == .err)) &&
          (rvCoreRun (romBus refusedStoreProgram) s).toOption.any (fun s' => s'.x 2 == 0)) =
        true := by
    decide +kernel
  obtain ⟨s, hrun, hs⟩ := CoreCall.exists_of_execAll hcheck
  rw [Bool.and_eq_true] at hs
  obtain ⟨hexec, hlast⟩ := hs
  obtain ⟨cb, d, hexec, hd⟩ := exists_of_executesAny hexec
  simp only [Bool.and_eq_true, beq_iff_eq] at hd
  obtain ⟨⟨rfl, hrd⟩, haccess⟩ := hd
  obtain ⟨⟨ret, bytes, s₁⟩, haccess, hret⟩ := Except.exists_of_any_toOption haccess
  obtain ⟨s', hs', hzero⟩ := Except.exists_of_any_toOption hlast
  have hreach : CoreReachable (romBus refusedStoreProgram) s := ⟨_, ⟨(), rfl⟩, hrun⟩
  obtain ⟨history, hhistory⟩ := hreach.atomicRun
  have houtcome := h _ history s hhistory .scW d s' hexec rfl hs'
  obtain ⟨⟨-, s₂, ⟨bytes', hstored⟩, -⟩, -⟩ :=
    houtcome.success (by rw [hrd]; decide) (by rw [hrd]; exact eq_of_beq hzero)
  have hsame := (Prod.mk.inj (Except.ok.inj (haccess.symm.trans hstored))).1
  rw [hsame] at hret
  cases hret

end RiscvEm
