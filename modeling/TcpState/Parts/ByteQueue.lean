import TcpState.Foundation.Fifo
import TcpState.Foundation.Transition
import TcpState.Model.Queue

/-!
# The blob queue as a stream of bytes

A queue is followed together with the account of the blobs written and the
bytes read. Whatever the blob boundaries are, reading takes the bytes in the
order in which they were written.
-/

namespace TcpState

structure QueueLog where
  queue : BlobQueue
  account : Fifo.Account UInt8
  /-- `mark_fin` has been called. -/
  marked : Bool
deriving DecidableEq, Repr

/-- What can be done to a queue. -/
inductive QueueOp
  | writeBytes (data : List UInt8)
  | markFin
  | readBytes (limit : Nat)

namespace QueueLog

def start : QueueLog := ⟨.new, .empty, false⟩

/-- The operation on the queue, with what it put in or took out. -/
def step (s : QueueLog) : QueueOp → Res QueueLog
  | .writeBytes data => do
      let queue ← s.queue.writeBytes data
      return { s with queue := queue, account := s.account.onPut data }
  | .markFin => return { s with queue := s.queue.markFin, marked := true }
  | .readBytes limit => do
      let (queue, result, _) ← s.queue.readBytes limit
      return { s with queue := queue, account := s.account.onTake result }

/-- The operations in any order, as long as none panics. -/
def system : Transition.System QueueLog QueueOp where
  init s := s = start
  step s op s' := s.step op = .ok s'

abbrev Reachable (s : QueueLog) : Prop := Transition.Reachable system s

/-- The account balances with the content of the queue. -/
structure Accounted (s : QueueLog) : Prop where
  balances : s.account.Balances s.queue.bytes
  fin : s.queue.fin = s.marked

variable {s s' : QueueLog}

theorem Accounted.step {op : QueueOp} (h : Accounted s) (hs : s.step op = .ok s') :
    Accounted s' := by
  cases op with
  | writeBytes data =>
      simp only [QueueLog.step, Fallible.bind_ok_iff, Fallible.pure_ok_iff] at hs
      obtain ⟨q, hq, rfl⟩ := hs
      obtain ⟨hbytes, hfin, -⟩ := BlobQueue.writeBytes_spec hq
      refine ⟨?_, hfin.trans h.fin⟩
      rw [hbytes]
      exact h.balances.onPut data
  | markFin =>
      obtain rfl := Fallible.pure_ok_iff.mp hs
      exact ⟨h.balances, rfl⟩
  | readBytes limit =>
      simp only [QueueLog.step, Fallible.bind_ok_iff, Prod.exists, Fallible.pure_ok_iff] at hs
      obtain ⟨q, result, done, hq, rfl⟩ := hs
      obtain ⟨rfl, hrest, hfin, -⟩ := BlobQueue.readBytes_spec hq
      refine ⟨?_, hfin.trans h.fin⟩
      rw [hrest]
      exact h.balances.onTake limit

theorem accounted_of_reachable (h : Reachable s) : Accounted s := by
  refine Transition.Reachable.invariant (P := Accounted) ?_ ?_ h
  · rintro _ rfl
    exact ⟨Fifo.Account.balances_empty, rfl⟩
  · exact fun _ _ _ hp hs => hp.step hs

/-- A first-in first-out queue of bytes. -/
structure IsFifo (s : QueueLog) : Prop where
  /-- All reads and then the remaining content are all writes. -/
  conserves : s.account.taken.flatten ++ s.queue.buffer.flatten = s.account.put.flatten
  /-- Before the marker every write is taken over. -/
  writes : s.marked = false → ∀ data, ∃ q, s.queue.writeBytes data = .ok q
  /-- A read returns the first bytes that are pending, and reports the end when
  there were fewer than it asked for behind the marker. -/
  reads : ∀ limit, 0 < limit → ∃ q done,
    s.queue.readBytes limit =
        .ok (q, s.account.pending.take (min limit s.queue.availableBytes), done) ∧
      (done = true ↔ s.account.pending.length < limit ∧ s.marked = true)

theorem isFifo (h : Reachable s) : IsFifo s := by
  have hacc := accounted_of_reachable h
  have hpending := hacc.balances.pending_eq
  constructor
  · exact hacc.balances
  · intro hmarked data
    exact BlobQueue.writeBytes_succeeds_iff.mpr (.inr (hacc.fin.trans hmarked))
  · intro limit hlimit
    obtain ⟨q, data, done, hq⟩ := BlobQueue.readBytes_succeeds (q := s.queue) hlimit.ne'
    obtain ⟨hdata, -, -, hdone⟩ := BlobQueue.readBytes_spec hq
    have htake : data = s.account.pending.take (min limit s.queue.availableBytes) := by
      rw [hdata, hpending, BlobQueue.availableBytes_eq, ← List.take_take, List.take_length]
    refine ⟨q, done, by rw [hq, htake], ?_⟩
    rw [hdone, hpending, Bool.and_eq_true, decide_eq_true_iff, hacc.fin]

/-- The step as a partial function. -/
def next (s : QueueLog) (op : QueueOp) : Option QueueLog := (s.step op).toOption

theorem step_of_next (s : QueueLog) (op : QueueOp) (s' : QueueLog) (h : s.next op = some s') :
    system.step s op s' := by
  change s.step op = .ok s'
  unfold next at h
  cases hs : s.step op with
  | error e =>
      rw [hs] at h
      cases h
  | ok u =>
      rw [hs] at h
      exact congrArg _ (Option.some.inj h)

/-- A read that ends with its blob leaves an empty rest in front. -/
theorem isFifo_rest : ∃ s : QueueLog, s.queue.buffer = [[], [3]] ∧
    s.account.pending = [3] ∧ s.marked = true ∧ IsFifo s := by
  obtain ⟨s, hreach, hbuffer, hpending, hmarked⟩ : ∃ s, Reachable s ∧
      s.queue.buffer = [[], [3]] ∧ s.account.pending = [3] ∧ s.marked = true :=
    Transition.exists_reachableUnder step_of_next rfl
      [.writeBytes [1, 2], .writeBytes [3], .readBytes 2, .markFin] (by decide)
  exact ⟨s, hbuffer, hpending, hmarked, isFifo hreach⟩

end QueueLog

end TcpState
