import TcpState.Foundation.Fallible

/-!
# Agreeing computations

Two computations agree when both return related values or both stop with the
same error. Agreement goes through a sequence of steps, so that two programs
built in the same way are compared step by step.
-/

namespace Fallible

universe u

variable {ε α β γ δ : Type u}

/-- Both return, and the values are related, or both stop with the same error. -/
inductive Agree (R : α → β → Prop) : Except ε α → Except ε β → Prop
  | ok {a : α} {b : β} (h : R a b) : Agree R (.ok a) (.ok b)
  | error (e : ε) : Agree R (.error e) (.error e)

namespace Agree

variable {R : α → β → Prop} {S : γ → δ → Prop} {x : Except ε α} {y : Except ε β}

/-- A step on both sides, and then whatever keeps the values related. -/
theorem bind (h : Agree R x y) {f : α → Except ε γ} {g : β → Except ε δ}
    (hfg : ∀ a b, R a b → Agree S (f a) (g b)) : Agree S (x >>= f) (y >>= g) := by
  cases h with
  | error e => exact .error e
  | ok h => exact hfg _ _ h

/-- A step that does not tell the two sides apart. -/
theorem bind_same (x : Except ε α) {f : α → Except ε γ} {g : α → Except ε δ}
    (hfg : ∀ a, Agree S (f a) (g a)) : Agree S (x >>= f) (x >>= g) := by
  cases x with
  | error e => exact .error e
  | ok a => exact hfg a

theorem pure {a : α} {b : β} (h : R a b) :
    Agree R (Pure.pure a : Except ε α) (Pure.pure b) := .ok h

/-- Both sides branch on the same condition. -/
theorem ite {p : Prop} [Decidable p] {x' : Except ε α} {y' : Except ε β}
    (h : p → Agree R x y) (h' : ¬ p → Agree R x' y') :
    Agree R (if p then x else x') (if p then y else y') := by
  split
  · exact h ‹_›
  · exact h' ‹_›

theorem error_iff {e : ε} (h : Agree R x y) : x = .error e ↔ y = .error e := by
  cases h with
  | error e' => rw [Except.error.injEq, Except.error.injEq]
  | ok => exact ⟨nofun, nofun⟩

end Agree

end Fallible
