import TcpState.Foundation.Simulation

/-!
# Reliable pipes

A pipe keeps what was written and not yet read. Its writer may close it, after
which nothing is written; its reader takes what is next in order, and sees the
end when the pipe is closed and empty.
-/

/-- A pipe between a writer and a reader. -/
structure Pipe (α : Type*) where
  /-- Written and not yet read, oldest first. -/
  pending : List α
  closed : Bool

namespace Pipe

variable {α ι : Type*}

inductive Act (α : Type*)
  | write (data : List α)
  | close
  | read (data : List α)
  | finish

def empty : Pipe α := ⟨[], false⟩

inductive Step : Pipe α → Act α → Pipe α → Prop
  | write {p : Pipe α} (data : List α) (hopen : p.closed = false) :
      Step p (.write data) { p with pending := p.pending ++ data }
  | close {p : Pipe α} (hopen : p.closed = false) : Step p .close { p with closed := true }
  | read {p : Pipe α} {data rest : List α} (h : p.pending = data ++ rest) :
      Step p (.read data) { p with pending := rest }
  | finish {p : Pipe α} (hclosed : p.closed = true) (hempty : p.pending = []) : Step p .finish p

/-- One pipe. -/
def system (α : Type*) : Transition.System (Pipe α) (Act α) where
  init p := p = .empty
  step := Step

variable [DecidableEq ι]

/-- A pipe for every index, each with its own acts. -/
def family (ι α : Type*) [DecidableEq ι] : Transition.System (ι → Pipe α) (ι × Act α) where
  init P := P = fun _ => .empty
  step P i P' := ∃ p, Step (P i.1) i.2 p ∧ P' = Function.update P i.1 p

/-- The steps of one pipe are steps of the family. -/
theorem steps_family {p p' : Pipe α} {acts : List (Act α)}
    (h : Transition.Steps (system α) p acts p') {P : ι → Pipe α} {i : ι} (hp : P i = p) :
    Transition.Steps (family ι α) P (acts.map fun a => (i, a)) (Function.update P i p') := by
  induction h generalizing P with
  | nil =>
      rw [← hp, Function.update_eq_self]
      exact .nil
  | @cons p q p' a acts hs _ ih =>
      have hrest := @ih (Function.update P i q) (Function.update_self ..)
      rw [Function.update_idem] at hrest
      exact .cons ⟨q, by rwa [hp], rfl⟩ hrest

end Pipe
