import Mathlib

/-!
# Labelled transition systems and their invariants

A system has initial states and labelled steps. A run may be restricted to
steps whose source state and label satisfy a condition; an unrestricted run
takes every step.
-/

namespace Transition

/-- Initial states and labelled steps over states `σ` and labels `ι`. -/
structure System (σ ι : Type*) where
  init : σ → Prop
  step : σ → ι → σ → Prop

variable {σ ι : Type*} (sys : System σ ι)

/-- The states reached by runs whose every step meets the condition. -/
inductive ReachableUnder (allowed : σ → ι → Prop) : σ → Prop
  | start {s : σ} (h : sys.init s) : ReachableUnder allowed s
  | next {s t : σ} {i : ι} (run : ReachableUnder allowed s) (ha : allowed s i)
      (hs : sys.step s i t) : ReachableUnder allowed t

/-- The states reached by any run. -/
def Reachable (s : σ) : Prop := ReachableUnder sys (fun _ _ => True) s

variable {sys}

theorem ReachableUnder.mono {P Q : σ → ι → Prop} (hPQ : ∀ s i, P s i → Q s i) {s : σ}
    (run : ReachableUnder sys P s) : ReachableUnder sys Q s := by
  induction run with
  | start h => exact .start h
  | next _ ha hs ih => exact .next ih (hPQ _ _ ha) hs

theorem ReachableUnder.reachable {P : σ → ι → Prop} {s : σ}
    (run : ReachableUnder sys P s) : Reachable sys s :=
  run.mono fun _ _ _ => trivial

theorem Reachable.init {s : σ} (h : sys.init s) : Reachable sys s := .start h

theorem Reachable.step {s t : σ} {i : ι} (run : Reachable sys s) (hs : sys.step s i t) :
    Reachable sys t := .next run trivial hs

/-- A property that holds initially and survives every allowed step holds
along every restricted run. The step may use that its source is reachable. -/
theorem ReachableUnder.invariant {allowed : σ → ι → Prop} {P : σ → Prop}
    (hinit : ∀ s, sys.init s → P s)
    (hstep : ∀ s i t, Reachable sys s → P s → allowed s i → sys.step s i t → P t)
    {s : σ} (run : ReachableUnder sys allowed s) : P s := by
  induction run with
  | start h => exact hinit _ h
  | next run ha hs ih => exact hstep _ _ _ run.reachable ih ha hs

theorem Reachable.invariant {P : σ → Prop} (hinit : ∀ s, sys.init s → P s)
    (hstep : ∀ s i t, P s → sys.step s i t → P t) {s : σ}
    (run : Reachable sys s) : P s :=
  ReachableUnder.invariant hinit (fun s i t _ hp _ hs => hstep s i t hp hs) run

/-- The same steps, taken from one state. -/
def System.startingAt (sys : System σ ι) (s : σ) : System σ ι where
  init t := t = s
  step := sys.step

section Run

variable (allowed : σ → ι → Prop) [∀ s i, Decidable (allowed s i)] (next : σ → ι → Option σ)

/-- Follow the labels with a step function, as long as every step is allowed. -/
def run : σ → List ι → Option σ
  | s, [] => some s
  | s, i :: is => if allowed s i then (next s i).bind fun t => run t is else none

variable {allowed next}

/-- A computed run is a run of any system that has the computed steps. -/
theorem ReachableUnder.run (hnext : ∀ s i t, next s i = some t → sys.step s i t) {s t : σ}
    {is : List ι} (h : ReachableUnder sys allowed s) (hr : run allowed next s is = some t) :
    ReachableUnder sys allowed t := by
  induction is generalizing s with
  | nil =>
      obtain rfl := Option.some.inj hr
      exact h
  | cons i is ih =>
      rw [Transition.run] at hr
      split at hr
      · rename_i ha
        obtain ⟨u, hu, hr⟩ := Option.bind_eq_some_iff.mp hr
        exact ih (.next h ha (hnext s i u hu)) hr
      · cases hr

/-- A computed run that ends in a property shows a reachable state with it. -/
theorem exists_reachableUnder (hnext : ∀ s i t, next s i = some t → sys.step s i t) {s : σ}
    (hinit : sys.init s) (is : List ι) {P : σ → Prop} [DecidablePred P]
    (h : (run allowed next s is).any (fun t => decide (P t)) = true) :
    ∃ t, ReachableUnder sys allowed t ∧ P t := by
  cases hr : run allowed next s is with
  | none => rw [hr] at h; cases h
  | some t =>
      rw [hr, Option.any_some, decide_eq_true_iff] at h
      exact ⟨t, .run hnext (.start hinit) hr, h⟩

end Run

end Transition
