import TcpState.Connection.Settings
import TcpState.Connection.Waiting
import TcpState.Listener.Steps
import TcpState.Model.Socket

/-!
# The life of one socket

A socket that was closed is used again, so one socket goes through any number
of connections and listening sockets. Next to it stands what the application
knows of it: the options it wrote last and the cookies it was given.
-/

namespace TcpState

/-- What can be done to a socket. -/
inductive Request (Addr Time : Type)
  /-- A write through `options_mut`. -/
  | setOptions (options : SocketOptions)
  | callConnect (remote : Addr)
  | callListen (backlog : Nat)
  | callAccept (makeUserData : ListenSocket Addr Time → UserData Addr Time)
  | callClose
  | callAbort
  | callShutdown
  | callSend (data : List UInt8)
  | callRecv (bufferLen : Nat)
  | onSegment (src : Addr) (seg : SegmentMeta)
  | onTimeTick (time : Time)
  /-- The hash set of suspended accepts may be walked in any order. -/
  | reorder (suspended : List (Unit × Cookie))

/-- What a request returns. -/
inductive Reply (Addr Time : Type)
  | none
  | call (r : Except Error Unit)
  | recv (r : Except Error (List UInt8))
  | accept (r : Except Error (Addr × Connection Addr Time))

/-- The cookie a request returns. -/
def Reply.cookie {Addr Time : Type} : Reply Addr Time → Option Cookie
  | .call (.error e) | .recv (.error e) | .accept (.error e) => e.cookie
  | _ => Option.none

/-- What a connection returns to its socket. -/
def Output.reply {Addr Time : Type} : Output → Reply Addr Time
  | .none => .none
  | .call r => .call r
  | .recv r => .recv r

theorem Output.cookie_reply {Addr Time : Type} (out : Output) :
    (out.reply : Reply Addr Time).cookie = out.cookie := by
  cases out with
  | none => rfl
  | call r => cases r <;> rfl
  | recv r => cases r <;> rfl

/-- A request that makes a new connection or listening socket. -/
def Request.rebuilds {Addr Time : Type} : Request Addr Time → Bool
  | .callConnect _ | .callListen _ => true
  | _ => false

/-- What a request asks of the connection in the socket. -/
def Request.op {Addr Time : Type} : Request Addr Time → Option (Op Time)
  | .callClose => some .callClose
  | .callAbort => some .callAbort
  | .callShutdown => some .callShutdown
  | .callSend data => some (.callSend data)
  | .callRecv bufferLen => some (.callRecv bufferLen)
  | .onSegment _ seg => some (.onSegment seg)
  | .onTimeTick time => some (.onTimeTick time)
  | _ => none

/-- A socket is not rebuilt by its connection. -/
theorem Request.op_of_rebuilds {Addr Time : Type} (req : Request Addr Time)
    (h : req.rebuilds = true) : req.op = none := by
  cases req <;> first | rfl | cases h

/-- An operation that returns is a step. -/
theorem Connection.OpStep.step_ok {Addr Time : Type} [UserTime Time] {c c' : Connection Addr Time}
    {op : Op Time} {out : Output} (h : c.OpStep op out c') : c.step op = .ok (c', out) := by
  cases h with
  | setOptions => rfl
  | callConnect h | callSend h | callRecv h | callShutdown h | callClose h | callAbort h
  | onSegment h | onTimeTick h =>
      simp only [Connection.step, h]
      rfl

namespace Socket

variable {Addr Time : Type}

/-- A write through `options_mut`. -/
def setOptions (s : Socket Addr Time) (options : SocketOptions) : Socket Addr Time :=
  match s.inner with
  | .closed common => ⟨.closed { common with options := options }⟩
  | .listen l => ⟨.listen { l with options := options }⟩
  | .connection c => ⟨.connection { c with options := options }⟩

@[simp] theorem setOptions_options (s : Socket Addr Time) (options : SocketOptions) :
    (s.setOptions options).options = options := by
  unfold setOptions
  split <;> rfl

/-- The suspended accepts in another order. -/
def reorder (s : Socket Addr Time) (suspended : List (Unit × Cookie)) : Socket Addr Time :=
  match s.inner with
  | .listen l =>
      if suspended.isPerm l.events.suspended then
        ⟨.listen { l with events := { l.events with suspended := suspended } }⟩
      else s
  | _ => s

variable [UserTime Time]

def step (s : Socket Addr Time) : Request Addr Time → Res (Socket Addr Time × Reply Addr Time)
  | .setOptions options => return (s.setOptions options, .none)
  | .callConnect remote => do
      let (s, r) ← s.callConnect remote
      return (s, .call r)
  | .callListen backlog =>
      let (s, r) := s.callListen backlog
      return (s, .call r)
  | .callAccept makeUserData => do
      let (s, r) ← s.callAccept makeUserData
      return (s, .accept r)
  | .callClose => do
      let (s, r) ← s.callClose
      return (s, .call r)
  | .callAbort => do
      let (s, r) ← s.callAbort
      return (s, .call r)
  | .callShutdown => do
      let (s, r) ← s.callShutdown
      return (s, .call r)
  | .callSend data => do
      let (s, r) ← s.callSend data
      return (s, .call r)
  | .callRecv bufferLen => do
      let (s, r) ← s.callRecv bufferLen
      return (s, .recv r)
  | .onSegment src seg => do
      let s ← s.onSegment src seg
      return (s, .none)
  | .onTimeTick time => do
      let s ← s.onTimeTick time
      return (s, .none)
  | .reorder suspended => return (s.reorder suspended, .none)

/-- What a request does to a socket. -/
inductive Used (s : Socket Addr Time) :
    Request Addr Time → Reply Addr Time → Socket Addr Time → Prop
  | written {options : SocketOptions} : Used s (.setOptions options) .none (s.setOptions options)
  /-- Nothing changes, and nothing was closed. -/
  | kept {req : Request Addr Time} {reply : Reply Addr Time} (hcookie : reply.cookie = none)
      (hreply : reply ≠ .call (.ok ())) (hset : ∀ options, req ≠ .setOptions options) :
      Used s req reply s
  | connected {remote : Addr} {c : Connection Addr Time} {r : Except Error Unit}
      (hclosed : s.state = .closed)
      (hc : { Connection.new remote s.userData with options := s.options }.callConnect =
        .ok (c, r)) : Used s (.callConnect remote) (.call r) ⟨.connection c⟩
  | listened {backlog : Nat} (hclosed : s.state = .closed) :
      Used s (.callListen backlog) (.call (.ok ())) ⟨.listen (.callListen backlog s.userData)⟩
  | connection {req : Request Addr Time} {op : Op Time} {out : Output}
      {c c' : Connection Addr Time} (hinner : s.inner = .connection c) (hop : req.op = some op)
      (hc : c.OpStep op out c') : Used s req out.reply ⟨.connection c'⟩
  | accepted {makeUserData : ListenSocket Addr Time → UserData Addr Time}
      {l l' : ListenSocket Addr Time} {r : Except Error (Addr × Connection Addr Time)}
      (hinner : s.inner = .listen l) (hr : l.callAccept makeUserData = .ok (l', r)) :
      Used s (.callAccept makeUserData) (.accept r) ⟨.listen l'⟩
  | ended {req : Request Addr Time} {l : ListenSocket Addr Time} (hinner : s.inner = .listen l)
      (hreq : req = .callClose ∨ req = .callAbort) :
      Used s req (.call (.ok ())) ⟨.listen l.callClose⟩
  | arrived {src : Addr} {seg : SegmentMeta} {l : ListenSocket Addr Time}
      (hinner : s.inner = .listen l) :
      Used s (.onSegment src seg) .none ⟨.listen (l.onSegment src seg)⟩
  | answered {src : Addr} {seg : SegmentMeta} {common : SocketCommon Addr Time}
      (userData : UserData Addr Time) (hinner : s.inner = .closed common) :
      Used s (.onSegment src seg) .none ⟨.closed { common with userData := userData }⟩
  | reordered {suspended : List (Unit × Cookie)} {l : ListenSocket Addr Time}
      (hinner : s.inner = .listen l) :
      Used s (.reorder suspended) .none
        ⟨.listen { l with events := { l.events with suspended := suspended } }⟩

variable {s s' : Socket Addr Time}

section Calls

variable {α : Type} {req : Request Addr Time}

omit [UserTime Time] in
/-- A call the socket passes on to its connection. -/
theorem passed_on_ok_iff {x : Res (Connection Addr Time × Except Error α)} {r : Except Error α} :
    (do let (c, r) ← x; return (⟨.connection c⟩, r) : Res (Socket Addr Time × Except Error α)) =
      .ok (s', r) ↔ ∃ c, x = .ok (c, r) ∧ s' = ⟨.connection c⟩ := by
  simp only [Fallible.bind_ok_iff, Fallible.pure_ok_iff, Prod.exists, Prod.mk.injEq]
  constructor
  · rintro ⟨c, _, hx, rfl, rfl⟩
    exact ⟨c, hx, rfl⟩
  · rintro ⟨c, hx, rfl⟩
    exact ⟨c, r, hx, rfl, rfl⟩

/-- A call the socket refuses. -/
theorem used_refused {e : Error} {r : Except Error α} {reply : Except Error α → Reply Addr Time}
    (hs : (pure (s, .error e) : Res (Socket Addr Time × Except Error α)) = .ok (s', r))
    (hcookie : (reply (.error e)).cookie = none) (hreply : reply (.error e) ≠ .call (.ok ()))
    (hset : ∀ options, req ≠ .setOptions options) : Used s req (reply r) s' := by
  obtain ⟨rfl, rfl⟩ := Prod.mk.inj (Fallible.pure_ok_iff.mp hs)
  exact .kept hcookie hreply hset

end Calls

theorem used_callConnect {remote : Addr} {r : Except Error Unit}
    (hs : s.callConnect remote = .ok (s', r)) : Used s (.callConnect remote) (.call r) s' := by
  unfold callConnect at hs
  split at hs
  · exact used_refused hs rfl nofun nofun
  · rename_i hclosed
    simp only [Fallible.bind_ok_iff, Fallible.pure_ok_iff, Prod.exists, Prod.mk.injEq] at hs
    obtain ⟨c, _, hc, rfl, rfl⟩ := hs
    exact .connected (not_not.mp hclosed) hc

theorem used_callAccept {makeUserData : ListenSocket Addr Time → UserData Addr Time}
    {r : Except Error (Addr × Connection Addr Time)}
    (hs : s.callAccept makeUserData = .ok (s', r)) :
    Used s (.callAccept makeUserData) (.accept r) s' := by
  unfold callAccept at hs
  split at hs
  · exact used_refused hs rfl nofun nofun
  · exact used_refused hs rfl nofun nofun
  · rename_i l hinner
    simp only [Fallible.bind_ok_iff, Fallible.pure_ok_iff, Prod.exists, Prod.mk.injEq] at hs
    obtain ⟨l', _, hr, rfl, rfl⟩ := hs
    exact .accepted hinner hr

theorem used_onSegment {src : Addr} {seg : SegmentMeta} (hs : s.onSegment src seg = .ok s') :
    Used s (.onSegment src seg) .none s' := by
  unfold onSegment at hs
  split at hs
  · rename_i common hinner
    obtain ⟨resp, -, hs⟩ := Fallible.bind_ok_iff.mp hs
    cases resp with
    | none =>
        obtain rfl := Fallible.pure_ok_iff.mp hs
        exact .kept rfl nofun nofun
    | some resp =>
        obtain rfl := Fallible.pure_ok_iff.mp hs
        exact .answered _ hinner
  · rename_i l hinner
    obtain rfl := Fallible.pure_ok_iff.mp hs
    exact .arrived hinner
  · rename_i c hinner
    simp only [Fallible.bind_ok_iff, Fallible.pure_ok_iff] at hs
    obtain ⟨c', hc, rfl⟩ := hs
    exact .connection hinner rfl (.onSegment hc)

theorem used_reorder (suspended : List (Unit × Cookie)) :
    Used s (.reorder suspended) .none (s.reorder suspended) := by
  unfold reorder
  split
  · rename_i l hinner
    split
    · exact .reordered hinner
    · exact .kept rfl nofun nofun
  · exact .kept rfl nofun nofun

theorem used_of_ok {req : Request Addr Time} {reply : Reply Addr Time}
    (hs : s.step req = .ok (s', reply)) : Used s req reply s' := by
  cases req <;> simp only [step, Fallible.bind_ok_iff, Fallible.pure_ok_iff, Prod.exists,
    Prod.mk.injEq] at hs
  case setOptions =>
    obtain ⟨rfl, rfl⟩ := hs
    exact .written
  case callConnect =>
    obtain ⟨_, _, hs, rfl, rfl⟩ := hs
    exact used_callConnect hs
  case callListen backlog =>
    obtain ⟨rfl, rfl⟩ := hs
    unfold callListen
    split
    · exact .kept rfl nofun nofun
    · rename_i hclosed
      exact .listened (not_not.mp hclosed)
  case callAccept =>
    obtain ⟨_, _, hs, rfl, rfl⟩ := hs
    exact used_callAccept hs
  case callClose =>
    obtain ⟨_, _, hs, rfl, rfl⟩ := hs
    unfold callClose at hs
    split at hs
    · exact used_refused hs rfl nofun nofun
    · rename_i c hinner
      obtain ⟨c', hc, rfl⟩ := passed_on_ok_iff.mp hs
      exact .connection hinner rfl (.callClose hc)
    · rename_i l hinner
      obtain ⟨rfl, rfl⟩ := Prod.mk.inj (Fallible.pure_ok_iff.mp hs)
      exact .ended hinner (.inl rfl)
  case callAbort =>
    obtain ⟨_, _, hs, rfl, rfl⟩ := hs
    unfold callAbort at hs
    split at hs
    · exact used_refused hs rfl nofun nofun
    · rename_i c hinner
      obtain ⟨c', hc, rfl⟩ := passed_on_ok_iff.mp hs
      exact .connection hinner rfl (.callAbort hc)
    · rename_i l hinner
      obtain ⟨rfl, rfl⟩ := Prod.mk.inj (Fallible.pure_ok_iff.mp hs)
      exact .ended hinner (.inr rfl)
  case callShutdown =>
    obtain ⟨_, _, hs, rfl, rfl⟩ := hs
    unfold callShutdown at hs
    split at hs
    · exact used_refused hs rfl nofun nofun
    · exact used_refused hs rfl nofun nofun
    · rename_i c hinner
      obtain ⟨c', hc, rfl⟩ := passed_on_ok_iff.mp hs
      exact .connection hinner rfl (.callShutdown hc)
  case callSend data =>
    obtain ⟨_, _, hs, rfl, rfl⟩ := hs
    unfold callSend at hs
    split at hs
    · exact used_refused hs rfl nofun nofun
    · exact used_refused hs rfl nofun nofun
    · rename_i c hinner
      obtain ⟨c', hc, rfl⟩ := passed_on_ok_iff.mp hs
      exact .connection hinner rfl (.callSend hc)
  case callRecv bufferLen =>
    obtain ⟨_, _, hs, rfl, rfl⟩ := hs
    unfold callRecv at hs
    split at hs
    · exact used_refused hs rfl nofun nofun
    · exact used_refused hs rfl nofun nofun
    · rename_i c hinner
      obtain ⟨c', hc, rfl⟩ := passed_on_ok_iff.mp hs
      exact .connection hinner rfl (.callRecv hc)
  case onSegment =>
    obtain ⟨_, hs, rfl, rfl⟩ := hs
    exact used_onSegment hs
  case onTimeTick time =>
    obtain ⟨_, hs, rfl, rfl⟩ := hs
    unfold onTimeTick at hs
    split at hs
    · obtain rfl := Fallible.pure_ok_iff.mp hs
      exact .kept rfl nofun nofun
    · obtain rfl := Fallible.pure_ok_iff.mp hs
      exact .kept rfl nofun nofun
    · rename_i c hinner
      simp only [Fallible.bind_ok_iff, Fallible.pure_ok_iff] at hs
      obtain ⟨c', hc, rfl⟩ := hs
      exact .connection hinner rfl (.onTimeTick hc)
  case reorder suspended =>
    obtain ⟨rfl, rfl⟩ := hs
    exact used_reorder suspended

end Socket

/-- A socket and what the application knows of it. -/
structure Lifetime (Addr Time : Type) where
  socket : Socket Addr Time
  /-- The options written last, or those the socket began with. -/
  written : SocketOptions
  /-- The cookies returned, oldest first. -/
  issued : List Cookie

/-- The options a request writes. -/
def Request.options {Addr Time : Type} : Request Addr Time → Option SocketOptions
  | .setOptions options => some options
  | _ => none

namespace Lifetime

variable {Addr Time : Type}

def after (s : Lifetime Addr Time) (req : Request Addr Time) (reply : Reply Addr Time)
    (socket : Socket Addr Time) : Lifetime Addr Time where
  socket := socket
  written := req.options.getD s.written
  issued := s.issued ++ reply.cookie.toList

variable [UserTime Time]

/-- A new socket, or one made of a connection or of a listening socket. -/
def Initial (socket : Socket Addr Time) : Prop :=
  (∃ userData, socket = .new userData) ∨
    (∃ c, Connection.Reachable c ∧ socket = ⟨.connection c⟩) ∨ ∃ l, socket = ⟨.listen l⟩

/-- The runs of one socket. A panic ends the run. -/
def system (Addr Time : Type) [UserTime Time] :
    Transition.System (Lifetime Addr Time) (Request Addr Time) where
  init s := ∃ socket, Initial socket ∧ s = ⟨socket, socket.options, []⟩
  step s req s' := ∃ socket reply, s.socket.step req = .ok (socket, reply) ∧
    s' = s.after req reply socket

abbrev Reachable (s : Lifetime Addr Time) : Prop := Transition.Reachable (system Addr Time) s

/-- The state after a request, if it does not panic. -/
def next (s : Lifetime Addr Time) (req : Request Addr Time) : Option (Lifetime Addr Time) :=
  match s.socket.step req with
  | .ok (socket, reply) => some (s.after req reply socket)
  | .error _ => none

theorem step_of_next (s : Lifetime Addr Time) (req : Request Addr Time) (s' : Lifetime Addr Time)
    (h : s.next req = some s') : (system Addr Time).step s req s' := by
  unfold next at h
  split at h
  · rename_i socket reply hs
    exact ⟨socket, reply, hs, (Option.some.inj h).symm⟩
  · cases h

theorem init_new (userData : UserData Addr Time) :
    (system Addr Time).init ⟨.new userData, .default, []⟩ :=
  ⟨.new userData, .inl ⟨userData, rfl⟩, rfl⟩

/-- The connection of a new socket is one that `Connection::new` began. -/
theorem reachable_connected {remote : Addr} {userData : UserData Addr Time}
    {options : SocketOptions} {c : Connection Addr Time} {r : Except Error Unit}
    (hc : { Connection.new remote userData with options := options }.callConnect = .ok (c, r)) :
    Connection.Reachable c := by
  have hnew : Connection.Reachable (Connection.new remote userData) :=
    .init (Connection.initial_new remote userData)
  have hset : (Connection.new remote userData).step (.setOptions options) =
      .ok ({ Connection.new remote userData with options := options }, .none) := rfl
  have hconnect : { Connection.new remote userData with options := options }.step .callConnect =
      .ok (c, .call r) := by
    simp only [Connection.step, hc]
    rfl
  exact (hnew.next hset).next hconnect

/-- The connection in a socket is reached by a run of its own. -/
theorem reachable_connection {s : Lifetime Addr Time} (run : Reachable s)
    {c : Connection Addr Time} (hinner : s.socket.inner = .connection c) :
    Connection.Reachable c := by
  refine Transition.Reachable.invariant
    (P := fun s => ∀ c, s.socket.inner = .connection c → Connection.Reachable c)
    ?_ ?_ run c hinner
  · rintro s ⟨socket, hinit, rfl⟩ c hinner
    rcases hinit with ⟨userData, rfl⟩ | ⟨c₀, hreach, rfl⟩ | ⟨l, rfl⟩
    · cases hinner
    · cases hinner
      exact hreach
    · cases hinner
  · rintro s req s' ih ⟨socket, reply, hs, rfl⟩ c hinner
    change socket.inner = .connection c at hinner
    cases Socket.used_of_ok hs with
    | @written options =>
        unfold Socket.setOptions at hinner
        split at hinner
        · cases hinner
        · cases hinner
        · rename_i c₀ hinner₀
          cases hinner
          have hset : c₀.step (.setOptions options) = .ok ({ c₀ with options := options }, .none) :=
            rfl
          exact (ih c₀ hinner₀).next hset
    | kept => exact ih c hinner
    | connected _ hc =>
        cases hinner
        exact reachable_connected hc
    | connection hinner₀ _ hc =>
        cases hinner
        exact (ih _ hinner₀).next hc.step_ok
    | listened | accepted | ended | arrived | answered | reordered => cases hinner

end Lifetime

end TcpState
