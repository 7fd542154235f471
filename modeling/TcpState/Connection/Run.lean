import TcpState.Foundation.Transition
import TcpState.Model.Listen
import TcpState.Model.Timers

/-!
# Runs of one connection

A connection starts closed, or in Listen as `call_accept` hands it the queued
segment. From there it is driven by the application, the network and the
clock in any order. A panic ends the run.
-/

namespace TcpState

/-- What can be done to a connection. -/
inductive Op (Time : Type)
  | callConnect
  | callSend (inputData : List UInt8)
  | callRecv (bufferLen : Nat)
  | callShutdown
  | callClose
  | callAbort
  | setOptions (options : SocketOptions)
  | onSegment (seg : SegmentMeta)
  | onTimeTick (time : Time)

/-- What an operation returns. -/
inductive Output
  | none
  | call (r : Except Error Unit)
  | recv (r : Except Error (List UInt8))

namespace Connection

variable {Addr Time : Type} [UserTime Time]

def step (c : Connection Addr Time) : Op Time → Res (Connection Addr Time × Output)
  | .callConnect => do
      let (c, r) ← c.callConnect
      return (c, .call r)
  | .callSend inputData => do
      let (c, r) ← c.callSend inputData
      return (c, .call r)
  | .callRecv bufferLen => do
      let (c, r) ← c.callRecv bufferLen
      return (c, .recv r)
  | .callShutdown => do
      let (c, r) ← c.callShutdown
      return (c, .call r)
  | .callClose => do
      let (c, r) ← c.callClose
      return (c, .call r)
  | .callAbort => do
      let (c, r) ← c.callAbort
      return (c, .call r)
  | .setOptions options => return ({ c with options := options }, .none)
  | .onSegment seg => do
      let c ← c.onSegment seg
      return (c, .none)
  | .onTimeTick time => do
      let c ← c.onTimeTick time
      return (c, .none)

/-- The operations that return, each with what it runs. -/
inductive OpStep (c : Connection Addr Time) : Op Time → Output → Connection Addr Time → Prop
  | callConnect {c' : Connection Addr Time} {r : Except Error Unit}
      (hc : c.callConnect = .ok (c', r)) : OpStep c .callConnect (.call r) c'
  | callSend {inputData : List UInt8} {c' : Connection Addr Time} {r : Except Error Unit}
      (hc : c.callSend inputData = .ok (c', r)) : OpStep c (.callSend inputData) (.call r) c'
  | callRecv {bufferLen : Nat} {c' : Connection Addr Time} {r : Except Error (List UInt8)}
      (hc : c.callRecv bufferLen = .ok (c', r)) : OpStep c (.callRecv bufferLen) (.recv r) c'
  | callShutdown {c' : Connection Addr Time} {r : Except Error Unit}
      (hc : c.callShutdown = .ok (c', r)) : OpStep c .callShutdown (.call r) c'
  | callClose {c' : Connection Addr Time} {r : Except Error Unit}
      (hc : c.callClose = .ok (c', r)) : OpStep c .callClose (.call r) c'
  | callAbort {c' : Connection Addr Time} {r : Except Error Unit}
      (hc : c.callAbort = .ok (c', r)) : OpStep c .callAbort (.call r) c'
  | setOptions {options : SocketOptions} :
      OpStep c (.setOptions options) .none { c with options := options }
  | onSegment {seg : SegmentMeta} {c' : Connection Addr Time} (hc : c.onSegment seg = .ok c') :
      OpStep c (.onSegment seg) .none c'
  | onTimeTick {time : Time} {c' : Connection Addr Time} (hc : c.onTimeTick time = .ok c') :
      OpStep c (.onTimeTick time) .none c'

theorem opStep_of_ok {c c' : Connection Addr Time} {op : Op Time} {out : Output}
    (hc : c.step op = .ok (c', out)) : OpStep c op out c' := by
  cases op <;> simp only [step, Fallible.bind_ok_iff, Fallible.pure_ok_iff, Prod.exists,
    Prod.mk.injEq] at hc
  case callConnect =>
    obtain ⟨_, _, hc, rfl, rfl⟩ := hc
    exact .callConnect hc
  case callSend =>
    obtain ⟨_, _, hc, rfl, rfl⟩ := hc
    exact .callSend hc
  case callRecv =>
    obtain ⟨_, _, hc, rfl, rfl⟩ := hc
    exact .callRecv hc
  case callShutdown =>
    obtain ⟨_, _, hc, rfl, rfl⟩ := hc
    exact .callShutdown hc
  case callClose =>
    obtain ⟨_, _, hc, rfl, rfl⟩ := hc
    exact .callClose hc
  case callAbort =>
    obtain ⟨_, _, hc, rfl, rfl⟩ := hc
    exact .callAbort hc
  case setOptions =>
    obtain ⟨rfl, rfl⟩ := hc
    exact .setOptions
  case onSegment =>
    obtain ⟨_, hc, rfl, rfl⟩ := hc
    exact .onSegment hc
  case onTimeTick =>
    obtain ⟨_, hc, rfl, rfl⟩ := hc
    exact .onTimeTick hc

/-- A connection as `Connection::new` or `call_accept` builds it. -/
def Initial (c : Connection Addr Time) : Prop :=
  (∃ remote userData, c = new remote userData) ∨
    ∃ (l : ListenSocket Addr Time) (addr : Addr) (userData : UserData Addr Time),
      l.acceptor addr userData = .ok c

/-- The runs of one connection. -/
def system (Addr Time : Type) [UserTime Time] :
    Transition.System (Connection Addr Time) (Op Time) where
  init := Initial
  step c op c' := ∃ out, c.step op = .ok (c', out)

/-- The states a connection reaches. -/
abbrev Reachable (c : Connection Addr Time) : Prop := Transition.Reachable (system Addr Time) c

/-- The states reached while every step meets a condition. -/
abbrev ReachableUnder (allowed : Connection Addr Time → Op Time → Prop)
    (c : Connection Addr Time) : Prop :=
  Transition.ReachableUnder (system Addr Time) allowed c

theorem Reachable.next {c c' : Connection Addr Time} {op : Op Time} {out : Output}
    (h : Reachable c) (hs : c.step op = .ok (c', out)) : Reachable c' :=
  h.step ⟨out, hs⟩

/-- The step as a partial function, without its result. -/
def next (c : Connection Addr Time) (op : Op Time) : Option (Connection Addr Time) :=
  match c.step op with
  | .ok (c', _) => some c'
  | .error _ => none

theorem step_of_next (c : Connection Addr Time) (op : Op Time) (c' : Connection Addr Time)
    (h : c.next op = some c') : (system Addr Time).step c op c' := by
  unfold next at h
  split at h
  · rename_i out heq
    obtain rfl := Option.some.inj h
    exact ⟨out, heq⟩
  · cases h

/-- The connection a listening socket prepares for a queued segment. -/
def listening (addr : Addr) (options : SocketOptions) (userData : UserData Addr Time) :
    Connection Addr Time :=
  { new addr userData with connectionState := .listen, options := options }

theorem acceptor_eq (l : ListenSocket Addr Time) (addr : Addr) (userData : UserData Addr Time) :
    l.acceptor addr userData = .ok (listening addr l.options userData) := rfl

theorem initial_new (remote : Addr) (userData : UserData Addr Time) :
    Initial (new remote userData) := .inl ⟨remote, userData, rfl⟩

theorem initial_listening (addr : Addr) (options : SocketOptions)
    (userData : UserData Addr Time) : Initial (listening addr options userData) :=
  .inr ⟨⟨[], 1, true, .new, options, userData⟩, addr, userData, rfl⟩

theorem step_onSegment {c c' : Connection Addr Time} {seg : SegmentMeta} {out : Output} :
    c.step (.onSegment seg) = .ok (c', out) ↔ c.onSegment seg = .ok c' ∧ out = .none := by
  simp only [step, Fallible.bind_ok_iff, Fallible.pure_ok_iff, Prod.mk.injEq]
  constructor
  · rintro ⟨_, h, rfl, rfl⟩
    exact ⟨h, rfl⟩
  · rintro ⟨h, rfl⟩
    exact ⟨c', h, rfl, rfl⟩

/-- Accepting a queued segment is delivering it to a listening connection. -/
theorem callAccept_delivers {l l' : ListenSocket Addr Time}
    {mk : ListenSocket Addr Time → UserData Addr Time} {addr : Addr}
    {c : Connection Addr Time} (h : l.callAccept mk = .ok (l', .ok (addr, c))) :
    ∃ seg l₁, (addr, seg) ∈ l.queue ∧
      (listening addr l.options (mk l₁)).step (.onSegment seg) = .ok (c, .none) := by
  unfold ListenSocket.callAccept at h
  split at h
  · simp [pure, Except.pure] at h
  · split at h
    · rename_i addr' seg queue hqueue
      simp only [Fallible.bind_ok_iff, Fallible.pure_ok_iff, Prod.mk.injEq,
        Except.ok.injEq] at h
      obtain ⟨c₀, h₀, _, hseg, -, rfl, rfl⟩ := h
      rw [acceptor_eq] at h₀
      obtain rfl := Except.ok.inj h₀
      exact ⟨seg, _, by rw [hqueue]; exact List.mem_cons_self, step_onSegment.mpr ⟨hseg, rfl⟩⟩
    · simp only [Fallible.bind_ok_iff, Fallible.pure_ok_iff, Prod.mk.injEq, Prod.exists,
        Events.returnRetryAfter_ok_iff] at h
      obtain ⟨_, _, ⟨-, -, rfl⟩, -, h⟩ := h
      cases h

/-- The connection `call_accept` returns is reachable. -/
theorem reachable_of_callAccept {l l' : ListenSocket Addr Time}
    {mk : ListenSocket Addr Time → UserData Addr Time} {addr : Addr}
    {c : Connection Addr Time} (h : l.callAccept mk = .ok (l', .ok (addr, c))) :
    Reachable c := by
  obtain ⟨seg, l₁, -, hstep⟩ := callAccept_delivers h
  exact Reachable.next (.init (initial_listening addr l.options (mk l₁))) hstep

end Connection

end TcpState
