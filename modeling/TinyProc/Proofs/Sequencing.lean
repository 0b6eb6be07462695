import TinyProc.Diagnostic

/-!
# Steps in sequence

Parsers and runs are both made of steps that work on a state and may stop with an error, the state
being kept in either case. These are the equations of two such steps in a row.
-/

namespace TinyProc

variable {ε σ α β : Type} {x : EStateM ε σ α} {f : α → EStateM ε σ β} {s s' : σ}

/-- After a step that succeeds, the next one goes on from where it has ended. -/
theorem bind_of_ok {a : α} (h : x s = .ok a s') : (x >>= f) s = f a s' := by
  simp only [bind, EStateM.bind, h]

/-- After a step that fails, nothing is done. -/
theorem bind_of_error {e : ε} (h : x s = .error e s') : (x >>= f) s = .error e s' := by
  simp only [bind, EStateM.bind, h]

/-- Two steps succeed only if both do. -/
theorem exists_of_bind_eq_ok {b : β} (h : (x >>= f) s = .ok b s') :
    ∃ a t, x s = .ok a t ∧ f a t = .ok b s' := by
  cases hx : x s with
  | ok a t =>
    rw [bind_of_ok hx] at h
    exact ⟨a, t, rfl, h⟩
  | error e t =>
    rw [bind_of_error hx] at h
    cases h

/-- A step that begins by looking at the state. -/
theorem get_bind (f : σ → EStateM ε σ α) (s : σ) : (get >>= f) s = f s s := rfl

/-- The state that a step has left, however it has ended. -/
def stateLeft : EStateM.Result ε σ α → σ
  | .ok _ s => s
  | .error _ s => s

@[simp] theorem stateLeft_ok (a : α) (s : σ) : stateLeft (.ok a s : EStateM.Result ε σ α) = s :=
  rfl

@[simp] theorem stateLeft_error (e : ε) (s : σ) :
    stateLeft (.error e s : EStateM.Result ε σ α) = s := rfl

end TinyProc
