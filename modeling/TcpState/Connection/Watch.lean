import TcpState.Connection.CallsPreserved

/-!
# Runs with a note

An observer keeps a note next to a connection and adds to it after every
operation. The note is only kept: the connection takes the same run.
-/

namespace TcpState

/-- What is noted before the first operation and after each one. -/
structure Watch (Addr Time Note : Type) where
  start : Note
  note : Note → Connection Addr Time → Op Time → Output → Connection Addr Time → Note

namespace Watch

open Connection

variable {Addr Time Note : Type} [UserTime Time] (w : Watch Addr Time Note)

/-- The runs of one connection with the note. -/
def system : Transition.System (Connection Addr Time × Note) (Op Time) where
  init s := Initial s.1 ∧ s.2 = w.start
  step s op s' := ∃ c' out, s.1.step op = .ok (c', out) ∧ s' = (c', w.note s.2 s.1 op out c')

/-- The connections a run reaches, with the note of the run. -/
abbrev Reachable (c : Connection Addr Time) (n : Note) : Prop :=
  Transition.Reachable w.system (c, n)

variable {w} {c : Connection Addr Time} {n : Note}

theorem conn_of_reachable {s : Connection Addr Time × Note}
    (h : Transition.Reachable w.system s) : Connection.Reachable s.1 := by
  induction h with
  | start h => exact .start h.1
  | next _ _ hs ih =>
      obtain ⟨c', out, hc, rfl⟩ := hs
      exact ih.next hc

theorem Reachable.conn (h : w.Reachable c n) : Connection.Reachable c := conn_of_reachable h

/-- A relation of connection and note that starts and that every operation
keeps holds after every run. -/
theorem Reachable.invariant {P : Connection Addr Time → Note → Prop}
    (hinit : ∀ c, Initial c → P c w.start)
    (hstep : ∀ c n op out c', Connection.Reachable c → P c n → c.step op = .ok (c', out) →
      P c' (w.note n c op out c')) (h : w.Reachable c n) : P c n := by
  refine Transition.ReachableUnder.invariant (P := fun s => P s.1 s.2) ?_ ?_ h
  · rintro ⟨c, n⟩ ⟨hinitial, rfl⟩
    exact hinit c hinitial
  · rintro ⟨c, n⟩ op s' hreach hp - ⟨c', out, hc, rfl⟩
    exact hstep c n op out c' (conn_of_reachable hreach) hp hc

variable (w)

/-- The step as a partial function. -/
def next (s : Connection Addr Time × Note) (op : Op Time) :
    Option (Connection Addr Time × Note) :=
  match s.1.step op with
  | .ok (c', out) => some (c', w.note s.2 s.1 op out c')
  | .error _ => none

theorem step_of_next (s : Connection Addr Time × Note) (op : Op Time)
    (s' : Connection Addr Time × Note) (h : w.next s op = some s') : w.system.step s op s' := by
  unfold next at h
  split at h
  · rename_i c' out hc
    exact ⟨c', out, hc, (Option.some.inj h).symm⟩
  · cases h

theorem init_start (h : Initial c) : w.system.init (c, w.start) := ⟨h, rfl⟩

end Watch

end TcpState
