import Mathlib

/-!
# Streams written and read in pieces

The account of a first-in first-out stream: the pieces put in and the pieces
taken out, in order. It balances with what is still pending when the taken
pieces and the pending elements together are the pieces put in.
-/

namespace Fifo

variable {α : Type*}

structure Account (α : Type*) where
  put : List (List α)
  taken : List (List α)
deriving DecidableEq, Repr

namespace Account

def empty : Account α := ⟨[], []⟩

/-- What was put in and not taken out, as the account knows it. -/
def pending (a : Account α) : List α := a.put.flatten.drop a.taken.flatten.length

def onPut (a : Account α) (piece : List α) : Account α := { a with put := a.put ++ [piece] }

def onTake (a : Account α) (piece : List α) : Account α := { a with taken := a.taken ++ [piece] }

/-- Nothing is lost, repeated or put out of order. -/
def Balances (a : Account α) (content : List α) : Prop :=
  a.taken.flatten ++ content = a.put.flatten

variable {a : Account α} {content : List α}

theorem balances_empty : (empty : Account α).Balances [] := rfl

theorem Balances.pending_eq (h : a.Balances content) : a.pending = content := by
  rw [pending, ← h, List.drop_left]

/-- A piece put in joins the end of what is pending. -/
theorem Balances.onPut (h : a.Balances content) (piece : List α) :
    (a.onPut piece).Balances (content ++ piece) := by
  unfold Balances at h ⊢
  simp [Account.onPut, ← h]

/-- A piece taken out is a prefix of what is pending. -/
theorem Balances.onTake (h : a.Balances content) (n : Nat) :
    (a.onTake (content.take n)).Balances (content.drop n) := by
  unfold Balances at h ⊢
  simp [Account.onTake, ← h]

end Account

end Fifo
