import RiscvEm.Lib.Simulation

/-!
A loop that makes one call of a schedule after the other and tests the state after each of
them: it ends at the first state that passes the test, and a number that every call lowers
until then bounds its rounds.
-/

namespace Simulation

variable {ε ι ρ α : Type} {exec : ι → α → Except ε (ρ × α)} {stop : α → Bool}

/-- `do … while (!stop)` along the schedule, for at most so many rounds: what the calls return
and the state at the end, or nothing when the loop has not ended by then. -/
def doWhile (exec : ι → α → Except ε (ρ × α)) (stop : α → Bool) :
    Nat → (Nat → ι) → α → Except ε (Option (List ρ × α))
  | 0, _, _ => .ok none
  | fuel + 1, c, a => do
      let (r, a) ← exec (c 0) a
      if stop a then return some ([r], a)
      let ended ← doWhile exec stop fuel (fun i => c (i + 1)) a
      return ended.map fun (rs, a) => (r :: rs, a)

/-- The first rounds, without the test. -/
def rounds (exec : ι → α → Except ε (ρ × α)) (c : Nat → ι) (n : Nat) (a : α) :
    Except ε (List ρ × α) := calls exec ((List.range n).map c) a

theorem rounds_succ_eq_ok {c : Nat → ι} {n : Nat} {a a' : α} {rs : List ρ} :
    rounds exec c (n + 1) a = .ok (rs, a') ↔
      ∃ r a₁ rs', exec (c 0) a = .ok (r, a₁) ∧
        rounds exec (fun i => c (i + 1)) n a₁ = .ok (rs', a') ∧ rs = r :: rs' := by
  rw [rounds, List.range_succ_eq_map, List.map_cons, List.map_map, calls_cons_eq_ok]
  rfl

/-- What has been run has run in all of its rounds. -/
theorem rounds_prefix {c : Nat → ι} {n k : Nat} {a a' : α} {rs : List ρ}
    (h : rounds exec c n a = .ok (rs, a')) (hk : k ≤ n) :
    ∃ rs' a₁, rounds exec c k a = .ok (rs', a₁) := by
  induction k generalizing c n a rs with
  | zero => exact ⟨[], a, rfl⟩
  | succ k ih =>
      obtain ⟨n, rfl⟩ : ∃ m, n = m + 1 := ⟨n - 1, by omega⟩
      obtain ⟨r, a₁, rs', hexec, hrest, -⟩ := rounds_succ_eq_ok.mp h
      obtain ⟨rs'', a₂, hprefix⟩ := ih hrest (by omega)
      exact ⟨_, _, rounds_succ_eq_ok.mpr ⟨r, a₁, rs'', hexec, hprefix, rfl⟩⟩

theorem rounds_last {c : Nat → ι} {n : Nat} {a a' : α} {rs : List ρ}
    (h : rounds exec c (n + 1) a = .ok (rs, a')) :
    ∃ rs' a₁ r, rounds exec c n a = .ok (rs', a₁) ∧ exec (c n) a₁ = .ok (r, a') := by
  induction n generalizing c a rs with
  | zero =>
      obtain ⟨r, a₁, rs', hexec, hrest, -⟩ := rounds_succ_eq_ok.mp h
      obtain ⟨-, rfl⟩ := Prod.mk.inj (Except.ok.inj hrest)
      exact ⟨[], a, r, rfl, hexec⟩
  | succ n ih =>
      obtain ⟨r, a₁, rs', hexec, hrest, -⟩ := rounds_succ_eq_ok.mp h
      obtain ⟨rs'', a₂, r', hbefore, hlast⟩ := ih hrest
      exact ⟨_, a₂, r', rounds_succ_eq_ok.mpr ⟨r, a₁, rs'', hexec, hbefore, rfl⟩, hlast⟩

def RunsOn (exec : ι → α → Except ε (ρ × α)) (stop : α → Bool) (c : Nat → ι) (n : Nat) (a : α) :
    Prop :=
  ∀ k rs a', 0 < k → k < n → rounds exec c k a = .ok (rs, a') → stop a' = false

theorem RunsOn.one (c : Nat → ι) (a : α) : RunsOn exec stop c 1 a := by
  intro k rs a' hpos hlt
  omega

theorem RunsOn.cons {c : Nat → ι} {n : Nat} {a a₁ : α} {r : ρ} (hexec : exec (c 0) a = .ok (r, a₁))
    (hstop : stop a₁ = false) (h : RunsOn exec stop (fun i => c (i + 1)) n a₁) :
    RunsOn exec stop c (n + 1) a := by
  intro k rs a' _ hlt hrounds
  obtain ⟨k, rfl⟩ : ∃ j, k = j + 1 := ⟨k - 1, by omega⟩
  obtain ⟨r', a₂, rs', hexec', hrest, -⟩ := rounds_succ_eq_ok.mp hrounds
  obtain ⟨-, rfl⟩ := Prod.mk.inj (Except.ok.inj (hexec.symm.trans hexec'))
  cases k with
  | zero =>
      obtain ⟨-, rfl⟩ := Prod.mk.inj (Except.ok.inj hrest)
      exact hstop
  | succ k => exact h (k + 1) rs' a' (Nat.succ_pos k) (by omega) hrest

structure EndsAfter (exec : ι → α → Except ε (ρ × α)) (stop : α → Bool) (c : Nat → ι) (n : Nat)
    (a : α) (rs : List ρ) (a' : α) : Prop where
  pos : 0 < n
  rounds : rounds exec c n a = .ok (rs, a')
  first : RunsOn exec stop c n a
  last : stop a' = true

/-- A loop ends at the first state that passes the test, fails with the first call that
does, or goes on. -/
theorem doWhile_cases (exec : ι → α → Except ε (ρ × α)) (stop : α → Bool) (fuel : Nat)
    (c : Nat → ι) (a : α) :
    (∃ n e rs a', n < fuel ∧ rounds exec c n a = .ok (rs, a') ∧ RunsOn exec stop c (n + 1) a ∧
        exec (c n) a' = .error e ∧ doWhile exec stop fuel c a = .error e) ∨
      (∃ n rs a', n ≤ fuel ∧ EndsAfter exec stop c n a rs a' ∧
        doWhile exec stop fuel c a = .ok (some (rs, a'))) ∨
      (∃ rs a', rounds exec c fuel a = .ok (rs, a') ∧ RunsOn exec stop c (fuel + 1) a ∧
        doWhile exec stop fuel c a = .ok none) := by
  induction fuel generalizing c a with
  | zero => exact .inr (.inr ⟨[], a, rfl, RunsOn.one c a, rfl⟩)
  | succ fuel ih =>
      cases hexec : exec (c 0) a with
      | error e =>
          refine .inl ⟨0, e, [], a, Nat.succ_pos fuel, rfl, RunsOn.one c a, hexec, ?_⟩
          rw [doWhile, hexec, Except.error_bind]
      | ok result =>
          obtain ⟨r, a₁⟩ := result
          have hloop : doWhile exec stop (fuel + 1) c a =
              if stop a₁ then .ok (some ([r], a₁)) else do
                let ended ← doWhile exec stop fuel (fun i => c (i + 1)) a₁
                return ended.map fun (rs, a) => (r :: rs, a) := by
            rw [doWhile, hexec, Except.ok_bind]
            rfl
          cases hstop : stop a₁ with
          | true =>
              rw [hstop, if_pos rfl] at hloop
              have hone : rounds exec c 1 a = .ok ([r], a₁) :=
                rounds_succ_eq_ok.mpr ⟨r, a₁, [], hexec, rfl, rfl⟩
              exact .inr (.inl ⟨1, _, _, by omega,
                ⟨Nat.one_pos, hone, RunsOn.one c a, hstop⟩, hloop⟩)
          | false =>
              rw [hstop, if_neg (by decide)] at hloop
              rcases ih (fun i => c (i + 1)) a₁ with
                ⟨n, e, rs, a', hlt, hrounds, hfirst, hfail, hrest⟩ |
                ⟨n, rs, a', hle, hends, hrest⟩ | ⟨rs, a', hrounds, hfirst, hrest⟩
              · rw [hrest, Except.error_bind] at hloop
                exact .inl ⟨n + 1, e, _, _, by omega,
                  rounds_succ_eq_ok.mpr ⟨r, a₁, rs, hexec, hrounds, rfl⟩,
                  hfirst.cons hexec hstop, hfail, hloop⟩
              · rw [hrest, Except.ok_bind] at hloop
                refine .inr (.inl ⟨n + 1, _, _, by omega, ?_, hloop⟩)
                exact {
                  pos := Nat.succ_pos n
                  rounds := rounds_succ_eq_ok.mpr ⟨r, a₁, rs, hexec, hends.rounds, rfl⟩
                  first := hends.first.cons hexec hstop
                  last := hends.last }
              · rw [hrest, Except.ok_bind] at hloop
                exact .inr (.inr ⟨_, _,
                  rounds_succ_eq_ok.mpr ⟨r, a₁, rs, hexec, hrounds, rfl⟩,
                  hfirst.cons hexec hstop, hloop⟩)

/-- A loop that has ended has ended at the first state that passes the test. -/
theorem doWhile_eq_some_iff {fuel : Nat} {c : Nat → ι} {a a' : α} {rs : List ρ} :
    doWhile exec stop fuel c a = .ok (some (rs, a')) ↔
      ∃ n ≤ fuel, EndsAfter exec stop c n a rs a' := by
  constructor
  · intro h
    rcases doWhile_cases exec stop fuel c a with
      ⟨n, e, rs', a₁, -, -, -, -, herr⟩ | ⟨n, rs', a₁, hle, hends, hsome⟩ | ⟨rs', a₁, -, -, hnone⟩
    · rw [herr] at h
      cases h
    · rw [hsome] at h
      obtain ⟨rfl, rfl⟩ := Prod.mk.inj (Option.some.inj (Except.ok.inj h))
      exact ⟨n, hle, hends⟩
    · rw [hnone] at h
      cases h
  · rintro ⟨n, hle, hends⟩
    have hstops : ∀ m, RunsOn exec stop c m a → m ≤ n := by
      intro m hrun
      by_contra hlt
      have hstop := hrun n rs a' hends.pos (by omega) hends.rounds
      rw [hends.last] at hstop
      cases hstop
    rcases doWhile_cases exec stop fuel c a with
      ⟨m, e, rs', a₁, hlt, hrounds, hfirst, hfail, -⟩ | ⟨m, rs', a₁, -, hends', hsome⟩ |
      ⟨rs', a₁, -, hfirst, -⟩
    · obtain ⟨_, a₂, hm⟩ := rounds_prefix hends.rounds (hstops _ hfirst)
      obtain ⟨_, a₃, r, hm', hexec⟩ := rounds_last hm
      obtain ⟨-, rfl⟩ := Prod.mk.inj (Except.ok.inj (hrounds.symm.trans hm'))
      rw [hfail] at hexec
      cases hexec
    · -- neither loop ends before the other
      have hmn : m = n := by
        refine Nat.le_antisymm (hstops m hends'.first) ?_
        by_contra hlt
        have hstop := hends.first m rs' a₁ hends'.pos (by omega) hends'.rounds
        rw [hends'.last] at hstop
        cases hstop
      subst hmn
      obtain ⟨rfl, rfl⟩ := Prod.mk.inj (Except.ok.inj (hends'.rounds.symm.trans hends.rounds))
      exact hsome
    · have := hstops _ hfirst
      omega

/-- A loop that goes on has made all of its rounds. -/
theorem doWhile_eq_none {fuel : Nat} {c : Nat → ι} {a : α}
    (h : doWhile exec stop fuel c a = .ok none) :
    ∃ rs a', rounds exec c fuel a = .ok (rs, a') ∧ RunsOn exec stop c (fuel + 1) a := by
  rcases doWhile_cases exec stop fuel c a with
    ⟨n, e, rs', a₁, -, -, -, -, herr⟩ | ⟨n, rs', a₁, -, -, hsome⟩ | ⟨rs', a₁, hrounds, hfirst, -⟩
  · rw [herr] at h
    cases h
  · rw [hsome] at h
    cases h
  · exact ⟨rs', a₁, hrounds, hfirst⟩

end Simulation
