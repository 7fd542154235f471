import TcpState.Foundation.Transition

/-!
# Forward simulation

A run of a concrete system shows a list of labels of an abstract one, none, one
or several with each step. When the abstract system can follow every step, the
abstract labels a run shows are those of an abstract run.
-/

namespace Transition

variable {σ ι τ κ : Type*}

/-- Several steps in a row. -/
inductive Steps (sys : System τ κ) : τ → List κ → τ → Prop
  | nil {t : τ} : Steps sys t [] t
  | cons {t u v : τ} {k : κ} {ks : List κ} (hs : sys.step t k u) (rest : Steps sys u ks v) :
      Steps sys t (k :: ks) v

namespace Steps

variable {sys : System τ κ} {t u v w : τ} {k : κ} {ks ls : List κ}

theorem single (hs : sys.step t k u) : Steps sys t [k] u := .cons hs .nil

theorem append (h : Steps sys t ks u) (h' : Steps sys u ls v) : Steps sys t (ks ++ ls) v := by
  induction h with
  | nil => exact h'
  | cons hs _ ih => exact .cons hs (ih h')

/-- Two runs of the same inputs go in lockstep when the output of a step is
fixed by its input up to a relation that every step keeps. -/
theorem lockstep {α : Type*} {input : κ → α} {R : τ → τ → Prop}
    (hstep : ∀ s t k l s' t', R s t → input l = input k → sys.step s k s' → sys.step t l t' →
      l = k ∧ R s' t')
    (run : Steps sys t ks u) (run' : Steps sys v ls w)
    (hinputs : ls.map input = ks.map input) (h : R t v) : ls = ks ∧ R u w := by
  induction run generalizing v ls with
  | nil =>
      obtain rfl := List.map_eq_nil_iff.mp hinputs
      cases run'
      exact ⟨rfl, h⟩
  | cons hs _ ih =>
      cases run' with
      | nil => cases hinputs
      | cons hs' rest' =>
          obtain ⟨hhead, htail⟩ := List.cons.inj hinputs
          obtain ⟨rfl, h'⟩ := hstep _ _ _ _ _ _ h hhead hs hs'
          obtain ⟨rfl, hr⟩ := ih rest' htail h'
          exact ⟨rfl, hr⟩

end Steps

/-- A run together with the labels it has shown. -/
inductive Shown (sys : System σ ι) (shows : σ → ι → σ → List κ → Prop) : σ → List κ → Prop
  | start {s : σ} (h : sys.init s) : Shown sys shows s []
  | next {s s' : σ} {i : ι} {ks ls : List κ} (run : Shown sys shows s ks)
      (hs : sys.step s i s') (hshows : shows s i s' ls) : Shown sys shows s' (ks ++ ls)

variable {sys : System σ ι} {spec : System τ κ} {shows : σ → ι → σ → List κ → Prop}
  {s : σ} {ks : List κ}

theorem Shown.reachable (run : Shown sys shows s ks) : Reachable sys s := by
  induction run with
  | start h => exact .init h
  | next _ hs _ ih => exact ih.step hs

/-- Every run shows something when every step does. -/
theorem Shown.of_reachable (hshows : ∀ s i s', sys.step s i s' → ∃ ls, shows s i s' ls)
    (run : Reachable sys s) : ∃ ks, Shown sys shows s ks := by
  induction run with
  | start h => exact ⟨[], .start h⟩
  | @next s s' i _ _ hs ih =>
      obtain ⟨ks, hks⟩ := ih
      obtain ⟨ls, hls⟩ := hshows s i s' hs
      exact ⟨ks ++ ls, .next hks hs hls⟩

/-- When related states stay related and initial states have a partner, an
abstract run shows the same labels. The bound may be given up along the way. -/
theorem Shown.simulated (R : σ → τ → Prop) (bound : σ → Prop)
    (hbound : ∀ s i s', sys.step s i s' → bound s' → bound s)
    (hinit : ∀ s, sys.init s → ∃ t, spec.init t ∧ R s t)
    (hstep : ∀ s i s' ls t, Reachable sys s → bound s' → R s t → sys.step s i s' →
      shows s i s' ls → ∃ t', Steps spec t ls t' ∧ R s' t')
    (run : Shown sys shows s ks) (hs : bound s) :
    ∃ t₀ t, spec.init t₀ ∧ Steps spec t₀ ks t ∧ R s t := by
  induction run with
  | start h =>
      obtain ⟨t, ht, hr⟩ := hinit _ h
      exact ⟨t, t, ht, .nil, hr⟩
  | @next s s' i ks ls run hstep' hshows ih =>
      obtain ⟨t₀, t, ht₀, hsteps, hr⟩ := ih (hbound s i s' hstep' hs)
      obtain ⟨t', hmore, hr'⟩ := hstep s i s' ls t run.reachable hs hr hstep' hshows
      exact ⟨t₀, t', ht₀, hsteps.append hmore, hr'⟩

end Transition
