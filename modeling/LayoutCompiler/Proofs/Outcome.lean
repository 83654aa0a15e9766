/-
Outcomes that are a value or an error. A computation in steps gives a value if and
only if all its steps do, and otherwise the error of the first step that fails:
`failure?` forgets the value, and over steps it is the first failure of either.
-/

namespace LayoutCompiler.Outcome

variable {ε α β : Type}

/-- Steps give a value only if both do. -/
theorem exists_of_bind_eq_ok {x : Except ε α} {f : α → Except ε β} {b : β}
    (h : x >>= f = .ok b) : ∃ a, x = .ok a ∧ f a = .ok b := by
  cases x with
  | error e => cases h
  | ok a => exact ⟨a, rfl, h⟩

theorem ok_bind (a : α) (f : α → Except ε β) : (Except.ok a >>= f) = f a :=
  rfl

theorem mapError_eq_ok {ε' : Type} {x : Except ε α} {f : ε → ε'} {a : α} :
    x.mapError f = .ok a ↔ x = .ok a := by
  cases x with
  | error e => exact iff_of_false (by rintro ⟨⟩) (by rintro ⟨⟩)
  | ok a' => exact ⟨fun h => congrArg Except.ok (Except.ok.inj h), congrArg _⟩

/-- The error, if that is the outcome. -/
def failure? : Except ε α → Option ε
  | .error e => some e
  | .ok _ => none

theorem failure?_eq_some {x : Except ε α} {e : ε} : failure? x = some e ↔ x = .error e := by
  cases x with
  | error e' => simp [failure?]
  | ok a => simp [failure?]

theorem failure?_eq_none {x : Except ε α} : failure? x = none ↔ ∃ a, x = .ok a := by
  cases x with
  | error e => simp [failure?]
  | ok a => simp [failure?]

theorem failure?_map (f : α → β) (x : Except ε α) : failure? (x.map f) = failure? x := by
  cases x <;> rfl

theorem failure?_bind_pure (f : α → β) (x : Except ε α) :
    failure? (x >>= fun a => pure (f a)) = failure? x := by
  cases x <;> rfl

/-- Two steps fail as the first one does, or else as the second one does; `second` is the failure
of the second step where that does not depend on the value of the first. -/
theorem failure?_bind {x : Except ε α} {f : α → Except ε β} {second : Option ε}
    (hf : ∀ a, x = .ok a → failure? (f a) = second) :
    failure? (x >>= f) = (failure? x).or second := by
  cases x with
  | error e => rfl
  | ok a => exact hf a rfl

end LayoutCompiler.Outcome
