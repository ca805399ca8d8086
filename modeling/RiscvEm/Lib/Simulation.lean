import RiscvEm.Lib.Except

/-!
Objects whose calls return results.

A refinement by a simpler object whose calls cannot fail: a relation that every call keeps,
with equal results, carries over to sequences of calls. Schedules of an executable system:
when all of their calls return, and how the calls that are visible follow the steps of an
abstract system while the others go on behind it.
-/

namespace Simulation

open Except (Returns)

variable {ε ι ρ α β : Type}

/-! ### Sequences of calls -/

/-- The results of a sequence of calls, and the state after it. -/
def calls (exec : ι → α → Except ε (ρ × α)) : List ι → α → Except ε (List ρ × α)
  | [], a => .ok ([], a)
  | c :: rest, a => do
      let (r, a) ← exec c a
      let (rs, a) ← calls exec rest a
      return (r :: rs, a)

/-- The same for calls that cannot fail. -/
def specCalls (spec : ι → β → ρ × β) : List ι → β → List ρ × β
  | [], b => ([], b)
  | c :: rest, b =>
      let (r, b) := spec c b
      let (rs, b) := specCalls spec rest b
      (r :: rs, b)

/-- The calls of one kind, made in related states, succeed with the results of the
abstract object, and lead to related states. -/
def Refines (exec : ι → α → Except ε (ρ × α)) (spec : ι → β → ρ × β) (ok : ι → Prop)
    (Rel : α → β → Prop) : Prop :=
  ∀ c a b, ok c → Rel a b → ∃ a', exec c a = .ok ((spec c b).1, a') ∧ Rel a' (spec c b).2

theorem Refines.calls {exec : ι → α → Except ε (ρ × α)} {spec : ι → β → ρ × β} {ok : ι → Prop}
    {Rel : α → β → Prop} (h : Refines exec spec ok Rel) {cs : List ι} (hcs : ∀ c ∈ cs, ok c)
    {a : α} {b : β} (hab : Rel a b) :
    ∃ a', calls exec cs a = .ok ((specCalls spec cs b).1, a') ∧ Rel a' (specCalls spec cs b).2 := by
  induction cs generalizing a b with
  | nil => exact ⟨a, rfl, hab⟩
  | cons c rest ih =>
      obtain ⟨a₁, hexec, hab₁⟩ := h c a b (hcs c List.mem_cons_self) hab
      obtain ⟨a', hrest, hab'⟩ := ih (fun c' hc' => hcs c' (List.mem_cons_of_mem _ hc')) hab₁
      refine ⟨a', ?_, hab'⟩
      simp only [Simulation.calls, hexec, Except.ok_bind, hrest, Except.pure_eq_ok, specCalls]

variable {exec : ι → α → Except ε (ρ × α)}

/-! ### Calls that return -/

theorem calls_cons_eq_ok {c : ι} {cs : List ι} {a a' : α} {rs : List ρ} :
    calls exec (c :: cs) a = .ok (rs, a') ↔
      ∃ r a₁ rs', exec c a = .ok (r, a₁) ∧ calls exec cs a₁ = .ok (rs', a') ∧ rs = r :: rs' := by
  simp only [calls, Except.bind_eq_ok, Prod.exists, Except.pure_eq_ok, Except.ok.injEq,
    Prod.mk.injEq]
  constructor
  · rintro ⟨r, a₁, hexec, rs', a₂, hrest, rfl, rfl⟩
    exact ⟨r, a₁, rs', hexec, hrest, rfl⟩
  · rintro ⟨r, a₁, rs', hexec, hrest, rfl⟩
    exact ⟨r, a₁, hexec, rs', a', hrest, rfl, rfl⟩

theorem calls_concat {cs : List ι} {c : ι} {a a₁ a' : α} {rs : List ρ} {r : ρ}
    (hcalls : calls exec cs a = .ok (rs, a₁)) (hexec : exec c a₁ = .ok (r, a')) :
    calls exec (cs ++ [c]) a = .ok (rs ++ [r], a') := by
  induction cs generalizing a rs with
  | nil =>
      obtain ⟨rfl, rfl⟩ := Prod.mk.inj (Except.ok.inj hcalls)
      exact calls_cons_eq_ok.mpr ⟨r, a', [], hexec, rfl, rfl⟩
  | cons d cs ih =>
      obtain ⟨r', a₂, rs', hfirst, hrest, rfl⟩ := calls_cons_eq_ok.mp hcalls
      exact calls_cons_eq_ok.mpr ⟨r', a₂, rs' ++ [r], hfirst, ih hrest, rfl⟩

/-- A schedule returns just when each of its calls does after those before it. -/
theorem calls_returns_iff {cs : List ι} {a : α} :
    Returns (calls exec cs a) ↔ ∀ pre c rest rs a', cs = pre ++ c :: rest →
      calls exec pre a = .ok (rs, a') → Returns (exec c a') := by
  induction cs generalizing a with
  | nil =>
      refine iff_of_true ⟨_, rfl⟩ ?_
      intro pre c rest rs a' hnil
      cases pre <;> cases hnil
  | cons d cs ih =>
      constructor
      · rintro ⟨⟨rs, a''⟩, hcalls⟩ pre c rest rs' a' hpre hbefore
        obtain ⟨r, a₁, rs₁, hexec, hrest, -⟩ := calls_cons_eq_ok.mp hcalls
        cases pre with
        | nil =>
            obtain ⟨rfl, -⟩ := List.cons.inj hpre
            obtain ⟨-, rfl⟩ := Prod.mk.inj (Except.ok.inj hbefore)
            exact ⟨_, hexec⟩
        | cons d' pre =>
            obtain ⟨rfl, htail⟩ := List.cons.inj hpre
            obtain ⟨r', a₁', rs₁', hexec', hbefore', -⟩ := calls_cons_eq_ok.mp hbefore
            obtain ⟨-, rfl⟩ := Prod.mk.inj (Except.ok.inj (hexec'.symm.trans hexec))
            exact ih.mp ⟨_, hrest⟩ pre c rest rs₁' a' htail hbefore'
      · intro h
        obtain ⟨⟨r, a₁⟩, hexec⟩ := h [] d cs [] a rfl rfl
        have hrest : Returns (calls exec cs a₁) := by
          refine ih.mpr fun pre c rest rs a' hpre hbefore => ?_
          exact h (d :: pre) c rest (r :: rs) a' (by rw [hpre, List.cons_append])
            (calls_cons_eq_ok.mpr ⟨r, a₁, rs, hexec, hbefore, rfl⟩)
        obtain ⟨⟨rs, a'⟩, hrest⟩ := hrest
        exact ⟨_, calls_cons_eq_ok.mpr ⟨r, a₁, rs, hexec, hrest, rfl⟩⟩

theorem calls_invariant {P : α → Prop} (h : ∀ c a r a', P a → exec c a = .ok (r, a') → P a')
    {cs : List ι} {a a' : α} {rs : List ρ} (ha : P a) (hcalls : calls exec cs a = .ok (rs, a')) :
    P a' := by
  induction cs generalizing a rs with
  | nil =>
      obtain ⟨-, rfl⟩ := Prod.mk.inj (Except.ok.inj hcalls)
      exact ha
  | cons c cs ih =>
      obtain ⟨r, a₁, rs', hexec, hrest, -⟩ := calls_cons_eq_ok.mp hcalls
      exact ih (h c a r a₁ ha hexec) hrest

/-! ### Labelled steps -/

def Along (R : ι → β → β → Prop) : List ι → β → β → Prop
  | [], b, b' => b = b'
  | c :: cs, b, b' => ∃ b₁, R c b b₁ ∧ Along R cs b₁ b'

def Simulates (exec : ι → α → Except ε (ρ × α)) (R : ι → β → β → Prop) (Rel : β → α → Prop) :
    Prop :=
  ∀ c b a r a', Rel b a → exec c a = .ok (r, a') → ∃ b', R c b b' ∧ Rel b' a'

theorem Simulates.calls {R : ι → β → β → Prop} {Rel : β → α → Prop} (h : Simulates exec R Rel)
    {cs : List ι} {b : β} {a a' : α} {rs : List ρ} (hba : Rel b a)
    (hcalls : calls exec cs a = .ok (rs, a')) : ∃ b', Along R cs b b' ∧ Rel b' a' := by
  induction cs generalizing b a rs with
  | nil =>
      obtain ⟨-, rfl⟩ := Prod.mk.inj (Except.ok.inj hcalls)
      exact ⟨b, rfl, hba⟩
  | cons c cs ih =>
      obtain ⟨r, a₁, rs', hexec, hrest, -⟩ := calls_cons_eq_ok.mp hcalls
      obtain ⟨b₁, hstep, hba₁⟩ := h c b a r a₁ hba hexec
      obtain ⟨b', hpath, hba'⟩ := ih hba₁ hrest
      exact ⟨b', ⟨b₁, hstep, hpath⟩, hba'⟩

/-! ### Visible calls -/

def StepsIn (R : β → β → Prop) : Nat → β → β → Prop
  | 0, b, b' => b = b'
  | n + 1, b, b' => ∃ b₁, R b b₁ ∧ StepsIn R n b₁ b'

theorem StepsIn.last {R : β → β → Prop} {n : Nat} {b b' : β} (h : StepsIn R (n + 1) b b') :
    ∃ b₁, StepsIn R n b b₁ ∧ R b₁ b' := by
  induction n generalizing b with
  | zero =>
      obtain ⟨b₁, hstep, hend⟩ := h
      obtain rfl : b₁ = b' := hend
      exact ⟨b, rfl, hstep⟩
  | succ n ih =>
      obtain ⟨b₁, hstep, hrest⟩ := h
      obtain ⟨b₂, hsteps, hlast⟩ := ih hrest
      exact ⟨b₂, ⟨b₁, hstep, hsteps⟩, hlast⟩

/-- A step with the number of those that remain, which does not become zero. -/
def CountedStep (R : β → β → Prop) (b b' : β × Nat) : Prop :=
  R b.1 b'.1 ∧ b.2 = b'.2 + 1 ∧ b'.2 ≠ 0

theorem StepsIn.counted {R : β → β → Prop} {n k : Nat} {b b' : β} (h : StepsIn R n b b')
    (hk : k ≠ 0) : StepsIn (CountedStep R) n (b, n + k) (b', k) := by
  induction n generalizing b with
  | zero =>
      obtain rfl : b = b' := h
      show (b, 0 + k) = (b, k)
      rw [Nat.zero_add]
  | succ n ih =>
      obtain ⟨b₁, hstep, hrest⟩ := h
      refine ⟨(b₁, n + k), ⟨hstep, ?_, ?_⟩, ih hrest⟩
      · show n + 1 + k = n + k + 1
        omega
      · show n + k ≠ 0
        omega

/-- Every visible call can be made along every step of the abstract system, and the
others at any time. -/
structure Follows (exec : ι → α → Except ε (ρ × α)) (visible : ι → Bool) (R : β → β → Prop)
    (Rel : β → α → Prop) : Prop where
  step : ∀ c b b' a, visible c = true → R b b' → Rel b a →
    ∃ r a', exec c a = .ok (r, a') ∧ Rel b' a'
  silent : ∀ c b a, visible c = false → Rel b a → ∃ r a', exec c a = .ok (r, a') ∧ Rel b a'

/-- Every path is followed by every schedule that has as many visible calls. -/
theorem Follows.calls {visible : ι → Bool}
    {R : β → β → Prop} {Rel : β → α → Prop}
    (h : Follows exec visible R Rel) {cs : List ι} {b b' : β} {a : α}
    (hsteps : StepsIn R (cs.countP visible) b b') (hba : Rel b a) :
    ∃ rs a', Simulation.calls exec cs a = .ok (rs, a') ∧ Rel b' a' := by
  induction cs generalizing b a with
  | nil =>
      obtain rfl : b = b' := hsteps
      exact ⟨[], a, rfl, hba⟩
  | cons c rest ih =>
      cases hc : visible c with
      | true =>
          rw [List.countP_cons_of_pos hc] at hsteps
          obtain ⟨b₁, hstep, hsteps⟩ := hsteps
          obtain ⟨r, a₁, hexec, hba₁⟩ := h.step c b b₁ a hc hstep hba
          obtain ⟨rs, a', hrest, hba'⟩ := ih hsteps hba₁
          refine ⟨r :: rs, a', ?_, hba'⟩
          exact calls_cons_eq_ok.mpr ⟨r, a₁, rs, hexec, hrest, rfl⟩
      | false =>
          rw [List.countP_cons_of_neg (by rw [hc]; decide)] at hsteps
          obtain ⟨r, a₁, hexec, hba₁⟩ := h.silent c b a hc hba
          obtain ⟨rs, a', hrest, hba'⟩ := ih hsteps hba₁
          refine ⟨r :: rs, a', ?_, hba'⟩
          exact calls_cons_eq_ok.mpr ⟨r, a₁, rs, hexec, hrest, rfl⟩

end Simulation
