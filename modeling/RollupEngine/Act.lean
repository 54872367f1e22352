import RollupEngine.Failure

/-!
# Operations that may fail

Every operation of the engine is an `Act`: it changes a state and ends with a value or a failure,
and what it did before failing stays done. The state grows from layer to layer, so an operation on
a part is brought to the whole by `Act.focus`. There are two ways to go on after a failure:
`Act.attempt` turns every failure into a value, and `Act.rescue` handles the ordinary ones and
lets interrupts pass.
-/

namespace RollupEngine

/-- An operation on a state that ends with a value or a failure. -/
abbrev Act (σ α : Type) := EStateM Failure σ α

namespace Act

variable {σ τ α : Type}

/-- A result with another state in the place of its own. -/
def mapState (f : σ → τ) : EStateM.Result Failure σ α → EStateM.Result Failure τ α
  | .ok a s => .ok a (f s)
  | .error e s => .error e (f s)

/-- Do to a part of a state what `act` does. -/
def focus (get : τ → σ) (set : σ → τ → τ) (act : Act σ α) : Act τ α := fun t =>
  mapState (set · t) (act.run (get t))

/-- End with the outcome of `act`, whatever it is. -/
def attempt (act : Act σ α) : Act σ (Except Failure α) := fun s =>
  match act.run s with
  | .ok a s => .ok (.ok a) s
  | .error f s => .ok (.error f) s

/-- Handle an ordinary failure of `act`. -/
def rescue (act : Act σ α) (handler : Failure → Act σ α) : Act σ α := fun s =>
  match act.run s with
  | .ok a s => .ok a s
  | .error f s => if f.ordinary then (handler f).run s else .error f s

/-- What an operation ends with. -/
def outcome (act : Act σ α) (s : σ) : Except Failure α :=
  match act.run s with
  | .ok a _ => .ok a
  | .error f _ => .error f

/-- The state that an operation leaves, whether it fails or not. -/
def final (act : Act σ α) (s : σ) : σ :=
  match act.run s with
  | .ok _ s => s
  | .error _ s => s

/-! ## Running the combinators -/

@[simp]
theorem mapState_ok (f : σ → τ) (a : α) (s : σ) :
    mapState f (.ok a s : EStateM.Result Failure σ α) = .ok a (f s) := rfl

@[simp]
theorem mapState_error (f : σ → τ) (e : Failure) (s : σ) :
    mapState f (.error e s : EStateM.Result Failure σ α) = .error e (f s) := rfl

theorem run_focus (get : τ → σ) (set : σ → τ → τ) (act : Act σ α) (t : τ) :
    (focus get set act).run t = mapState (set · t) (act.run (get t)) := rfl

theorem run_attempt (act : Act σ α) (s : σ) :
    (attempt act).run s = .ok (outcome act s) (final act s) := by
  change attempt act s = _
  unfold attempt outcome final
  cases act.run s <;> rfl

theorem run_rescue (act : Act σ α) (handler : Failure → Act σ α) (s : σ) :
    (rescue act handler).run s = match act.run s with
      | .ok a s => .ok a s
      | .error f s => if f.ordinary then (handler f).run s else .error f s := rfl

theorem final_focus (get : τ → σ) (set : σ → τ → τ) (act : Act σ α) (t : τ) :
    final (focus get set act) t = set (final act (get t)) t := by
  unfold final
  rw [run_focus]
  cases act.run (get t) <;> rfl

theorem outcome_focus (get : τ → σ) (set : σ → τ → τ) (act : Act σ α) (t : τ) :
    outcome (focus get set act) t = outcome act (get t) := by
  unfold outcome
  rw [run_focus]
  cases act.run (get t) <;> rfl

end Act

end RollupEngine
