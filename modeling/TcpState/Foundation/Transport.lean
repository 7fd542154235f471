import TcpState.Foundation.Fallible

/-!
# Computations carried along a renaming

A second computation follows a first one when it returns the renamed values.
The rules go through sequences and branches; `Carries` asks it only for the
values that are kept.
-/

namespace Fallible

universe u

variable {ε α α' β β' : Type u}

/-- Two sequences agree up to a renaming of their results when both steps do. -/
theorem bind_transport {x : Except ε α} {y : Except ε α'} {f : α → Except ε β}
    {g : α' → Except ε β'} (s : α → α') {t : β → β'} (hx : y = x.map s)
    (hf : ∀ a, g (s a) = (f a).map t) : (y >>= g) = (x >>= f).map t := by
  subst hx
  cases x with
  | error => rfl
  | ok a => exact hf a

/-- Two sequences with the same first step. -/
theorem bind_transport_right {x : Except ε α} {f : α → Except ε β} {g : α → Except ε β'}
    {t : β → β'} (hf : ∀ a, g a = (f a).map t) : (x >>= g) = (x >>= f).map t := by
  cases x with
  | error => rfl
  | ok a => exact hf a

theorem ite_transport {p q : Prop} [Decidable p] [Decidable q] {x x' : Except ε α}
    {y y' : Except ε α'} {s : α → α'} (hpq : q ↔ p) (hpos : p → y = x.map s)
    (hneg : ¬ p → y' = x'.map s) : (if q then y else y') = (if p then x else x').map s := by
  by_cases hp : p
  · rw [if_pos hp, if_pos (hpq.mpr hp)]
    exact hpos hp
  · rw [if_neg hp, if_neg (mt hpq.mp hp)]
    exact hneg hp

/-- What the first computation returns, if it is kept, the second returns renamed. -/
def Carries (keep : α → Prop) (s : α → α') (x : Except ε α) (y : Except ε α') : Prop :=
  ∀ a, x = .ok a → keep a → y = .ok (s a)

section Carries

variable {keep : α → Prop} {s : α → α'} {x x₁ : Except ε α} {y y₁ : Except ε α'}

theorem carries_of_eq_map (h : y = x.map s) : Carries keep s x y := by
  rintro a rfl -
  exact h

/-- What is never kept is carried nowhere. -/
theorem carries_of_lost (h : ∀ a, x = .ok a → ¬ keep a) : Carries keep s x y :=
  fun a ha hkeep => absurd hkeep (h a ha)

theorem Carries.mono {keep' : α → Prop} (h : Carries keep' s x y)
    (hkeep : ∀ a, keep a → keep' a) : Carries keep s x y :=
  fun a ha hk => h a ha (hkeep a hk)

theorem carries_ok {a : α} {a' : α'} (h : keep a → a' = s a) :
    Carries keep s (.ok a : Except ε α) (.ok a') := by
  rintro _ heq hkeep
  obtain rfl := Except.ok.inj heq
  exact congrArg _ (h hkeep)

theorem carries_ite {p q : Prop} [Decidable p] [Decidable q] (hpq : q ↔ p)
    (hpos : p → Carries keep s x y) (hneg : ¬ p → Carries keep s x₁ y₁) :
    Carries keep s (if p then x else x₁) (if q then y else y₁) := by
  by_cases hp : p
  · rw [if_pos hp, if_pos (hpq.mpr hp)]
    exact hpos hp
  · rw [if_neg hp, if_neg (mt hpq.mp hp)]
    exact hneg hp

/-- A sequence carries over when both steps do, and what the first step lost is not kept. -/
theorem Carries.bind {keep' : β → Prop} {t : β → β'} {f : α → Except ε β}
    {g : α' → Except ε β'} (hx : Carries keep s x y)
    (hf : ∀ a, keep a → Carries keep' t (f a) (g (s a)))
    (hlost : ∀ a b, ¬ keep a → f a = .ok b → ¬ keep' b) :
    Carries keep' t (x >>= f) (y >>= g) := by
  intro b hb hkeep
  obtain ⟨a, ha, hb⟩ := bind_ok_iff.mp hb
  have hka : keep a := by
    by_contra hno
    exact hlost a b hno hb hkeep
  rw [hx a ha hka]
  exact hf a hka b hb hkeep

/-- Two sequences whose first steps agree on every value. -/
theorem carries_bind {keep' : β → Prop} (s : α → α') {t : β → β'} {f : α → Except ε β}
    {g : α' → Except ε β'} (hx : y = x.map s) (hf : ∀ a, Carries keep' t (f a) (g (s a))) :
    Carries keep' t (x >>= f) (y >>= g) := by
  have hall : Carries (fun _ => True) s x y := carries_of_eq_map hx
  exact hall.bind (fun a _ => hf a) fun _ _ h => absurd trivial h

/-- Two sequences with the same first step. -/
theorem carries_bind_right {γ : Type u} {keep' : β → Prop} {t : β → β'} {z : Except ε γ}
    {f : γ → Except ε β} {g : γ → Except ε β'} (hf : ∀ a, Carries keep' t (f a) (g a)) :
    Carries keep' t (z >>= f) (z >>= g) := by
  cases z with
  | error => exact carries_of_eq_map rfl
  | ok a => exact hf a

end Carries

end Fallible
