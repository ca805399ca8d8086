import RiscvEm.Lib.Except

/-!
Computations that can fail and log events as they go.

The result of such a computation is the computation without the log. A failure keeps the
events before it.
-/

structure Logged (τ ε α : Type) where
  log : List τ
  result : Except ε α

namespace Logged

variable {τ ε α β : Type}

/-- A sequence logs the events of its first part, and of the rest if the first part
returns. -/
protected def bind (x : Logged τ ε α) (f : α → Logged τ ε β) : Logged τ ε β :=
  match x.result with
  | .ok a => ⟨x.log ++ (f a).log, (f a).result⟩
  | .error e => ⟨x.log, .error e⟩

instance instMonadLogged : Monad (Logged τ ε) where
  pure a := ⟨[], .ok a⟩
  bind := Logged.bind

def emit (t : τ) : Logged τ ε Unit := ⟨[t], .ok ()⟩

def quiet (x : Except ε α) : Logged τ ε α := ⟨[], x⟩

@[simp] theorem result_pure (a : α) : (pure a : Logged τ ε α).result = .ok a := rfl

@[simp] theorem log_pure (a : α) : (pure a : Logged τ ε α).log = [] := rfl

@[simp] theorem result_quiet (x : Except ε α) : (quiet x : Logged τ ε α).result = x := rfl

@[simp] theorem log_quiet (x : Except ε α) : (quiet x : Logged τ ε α).log = [] := rfl

/-- Without its log a sequence is the sequence of the results. -/
@[simp] theorem result_bind (x : Logged τ ε α) (f : α → Logged τ ε β) :
    (x >>= f).result = x.result >>= fun a => (f a).result := by
  obtain ⟨log, result⟩ := x
  cases result with
  | ok a => rfl
  | error e => rfl

@[simp] theorem result_emit (t : τ) : (emit t : Logged τ ε Unit).result = .ok () := rfl

@[simp] theorem log_emit (t : τ) : (emit t : Logged τ ε Unit).log = [t] := rfl

theorem result_ite (c : Prop) [Decidable c] (x y : Logged τ ε α) :
    (if c then x else y).result = if c then x.result else y.result := by
  split
  · rfl
  · rfl

theorem result_emit_bind (t : τ) (f : Unit → Logged τ ε β) :
    (emit t >>= f).result = (f ()).result := rfl

theorem log_emit_bind (t : τ) (f : Unit → Logged τ ε β) :
    (emit t >>= f).log = t :: (f ()).log := rfl

/-- A rest that logs nothing does not add to the log. -/
theorem log_bind_of_nil {x : Logged τ ε α} {f : α → Logged τ ε β} (h : ∀ a, (f a).log = []) :
    (x >>= f).log = x.log := by
  obtain ⟨log, result⟩ := x
  cases result with
  | ok a => exact (congrArg (log ++ ·) (h a)).trans (List.append_nil log)
  | error e => rfl

@[simp] theorem mem_log_bind {x : Logged τ ε α} {f : α → Logged τ ε β} {t : τ} :
    t ∈ (x >>= f).log ↔ t ∈ x.log ∨ ∃ a, x.result = .ok a ∧ t ∈ (f a).log := by
  obtain ⟨log, result⟩ := x
  cases result with
  | ok a =>
      refine List.mem_append.trans (or_congr_right ?_)
      constructor
      · exact fun h => ⟨a, rfl, h⟩
      · rintro ⟨a', ha', h⟩
        obtain rfl := Except.ok.inj ha'
        exact h
  | error e =>
      refine (or_iff_left ?_).symm
      rintro ⟨a, ha, -⟩
      cases ha

end Logged
