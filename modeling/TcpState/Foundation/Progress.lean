import TcpState.Foundation.Transition

/-!
# What a system can still reach

Steps with allowed labels lead from one state to another. A goal can be reached
as long as every state short of it can be led closer.
-/

namespace Transition

variable {σ ι : Type*} {sys : System σ ι} {allowed : ι → Prop} {s t u : σ}

/-- Steps with allowed labels lead from one state to the other. -/
def Leads (sys : System σ ι) (allowed : ι → Prop) : σ → σ → Prop :=
  Relation.ReflTransGen fun s t => ∃ i, allowed i ∧ sys.step s i t

namespace Leads

theorem refl (s : σ) : Leads sys allowed s s := Relation.ReflTransGen.refl

theorem step (i : ι) (ha : allowed i) (hs : sys.step s i t) : Leads sys allowed s t :=
  .single ⟨i, ha, hs⟩

theorem trans (h : Leads sys allowed s t) (h' : Leads sys allowed t u) :
    Leads sys allowed s u := Relation.ReflTransGen.trans h h'

/-- More labels lead further. -/
theorem mono {more : ι → Prop} (hmore : ∀ i, allowed i → more i) (h : Leads sys allowed s t) :
    Leads sys more s t :=
  Relation.ReflTransGen.mono (fun _ _ ⟨i, ha, hs⟩ => ⟨i, hmore i ha, hs⟩) _ _ h

theorem reachable (h : Leads sys allowed s t) (run : Reachable sys s) : Reachable sys t := by
  induction h with
  | refl => exact run
  | tail _ hs ih =>
      obtain ⟨i, -, hs⟩ := hs
      exact ih.step hs

/-- A goal is reached once every state short of it can be led to one that
measures less. -/
theorem exists_goal {P : σ → Prop} (goal : σ → Prop) (measure : σ → Nat)
    (hprogress : ∀ s, P s → ¬ goal s → ∃ t, Leads sys allowed s t ∧ P t ∧ measure t < measure s)
    (hs : P s) : ∃ t, Leads sys allowed s t ∧ P t ∧ goal t := by
  induction hm : measure s using Nat.strong_induction_on generalizing s with
  | _ m ih =>
      by_cases hgoal : goal s
      · exact ⟨s, refl s, hs, hgoal⟩
      · obtain ⟨t, hlead, ht, hlt⟩ := hprogress s hs hgoal
        obtain ⟨u, hlead', hu, hgoal'⟩ := ih (measure t) (hm ▸ hlt) ht rfl
        exact ⟨u, hlead.trans hlead', hu, hgoal'⟩

end Leads

end Transition
