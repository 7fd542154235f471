import Mathlib

/-!
# Success of sequenced computations

A computation in `Except` either returns or stops with an error. These rules
take a successful sequence apart into its successful parts, so that a proof
about a long `do` block never unfolds the monad.
-/

namespace Fallible

universe u

variable {ε α β : Type u}

@[simp] theorem ok_bind (a : α) (f : α → Except ε β) : (Except.ok a >>= f) = f a := rfl

@[simp] theorem error_bind (e : ε) (f : α → Except ε β) :
    (Except.error e >>= f) = Except.error e := rfl

theorem bind_ok_iff {x : Except ε α} {f : α → Except ε β} {b : β} :
    (x >>= f) = Except.ok b ↔ ∃ a, x = Except.ok a ∧ f a = Except.ok b := by
  rcases x with e | a <;> simp

theorem bind_error_iff {x : Except ε α} {f : α → Except ε β} {e : ε} :
    (x >>= f) = Except.error e ↔
      x = Except.error e ∨ ∃ a, x = Except.ok a ∧ f a = Except.error e := by
  rcases x with e' | a <;> simp

theorem pure_ok_iff {a b : α} : (pure a : Except ε α) = Except.ok b ↔ a = b :=
  Except.ok.injEq a b ▸ Iff.rfl

/-- A computation succeeds when it returns some value. -/
def Succeeds (x : Except ε α) : Prop := ∃ a, x = Except.ok a

instance (x : Except ε α) : Decidable (Succeeds x) :=
  match x with
  | .ok a => .isTrue ⟨a, rfl⟩
  | .error _ => .isFalse fun ⟨_, h⟩ => nomatch h

@[simp] theorem succeeds_ok (a : α) : Succeeds (Except.ok a : Except ε α) := ⟨a, rfl⟩

@[simp] theorem succeeds_pure (a : α) : Succeeds (pure a : Except ε α) := ⟨a, rfl⟩

@[simp] theorem not_succeeds_error (e : ε) : ¬ Succeeds (Except.error e : Except ε α) :=
  fun ⟨_, h⟩ => nomatch h

theorem succeeds_bind {x : Except ε α} {f : α → Except ε β} :
    Succeeds (x >>= f) ↔ ∃ a, x = Except.ok a ∧ Succeeds (f a) := by
  rcases x with e | a <;> simp

/-- A test that succeeds on the result shows the result. -/
theorem exists_of_toOption_any {x : Except ε α} {p : α → Bool}
    (h : x.toOption.any p = true) : ∃ a, x = Except.ok a ∧ p a = true := by
  cases x with
  | error e => cases h
  | ok a => exact ⟨a, rfl, h⟩

/-- A checked result is the result when the check holds. -/
theorem ite_ok_iff {p : Prop} [Decidable p] {a b : α} {e : ε} :
    (if p then Except.ok a else Except.error e) = Except.ok b ↔ p ∧ b = a := by
  split
  · rename_i h
    exact ⟨fun heq => ⟨h, (Except.ok.inj heq).symm⟩, fun ⟨_, heq⟩ => congrArg _ heq.symm⟩
  · rename_i h
    exact ⟨nofun, fun ⟨hp, _⟩ => absurd hp h⟩

/-- Continue only when the condition holds. -/
def ensure {ε : Type} (e : ε) (p : Prop) [Decidable p] : Except ε Unit :=
  if p then Except.ok () else Except.error e

@[simp] theorem ensure_eq_ok {ε : Type} {e : ε} {p : Prop} [Decidable p] {u : Unit} :
    ensure e p = Except.ok u ↔ p := by
  by_cases h : p <;> simp [ensure, h]

/-- The computation does not stop with this error. -/
def Avoids (e : ε) (x : Except ε α) : Prop := x ≠ Except.error e

instance [DecidableEq ε] (e : ε) (x : Except ε α) : Decidable (Avoids e x) :=
  match x with
  | .ok _ => .isTrue fun h => by cases h
  | .error e' => if h : e' = e then .isFalse fun hx => hx (congrArg _ h)
      else .isTrue fun hx => h (Except.error.inj hx)

section Avoids

variable {e e' : ε} {x : Except ε α}

@[simp] theorem avoids_ok (a : α) : Avoids e (Except.ok a : Except ε α) := fun h => by cases h

@[simp] theorem avoids_pure (a : α) : Avoids e (pure a : Except ε α) := avoids_ok a

@[simp] theorem avoids_error : Avoids e (Except.error e' : Except ε α) ↔ e' ≠ e := by
  simp [Avoids]

/-- A sequence stops with an error where one of its parts does. -/
theorem avoids_bind {f : α → Except ε β} (hx : Avoids e x)
    (hf : ∀ a, x = Except.ok a → Avoids e (f a)) : Avoids e (x >>= f) := by
  intro h
  rcases bind_error_iff.mp h with hstop | ⟨a, ha, hstop⟩
  · exact hx hstop
  · exact hf a ha hstop

/-- A check stops with its own error only. -/
theorem avoids_ensure {ε : Type} {e e' : ε} {p : Prop} [Decidable p] (h : p ∨ e' ≠ e) :
    Avoids e (ensure e' p) := by
  unfold ensure
  split
  · exact avoids_ok ()
  · rename_i hp
    exact avoids_error.mpr (h.resolve_left hp)

end Avoids

end Fallible
