import TcpState.Connection.Send

/-!
# Two connections and the segments between them

Each endpoint is a connection with what its application wrote and read. Every
segment it ever sent stays deliverable: the wire may lose, repeat and reorder
them. The client has called `call_connect` once; the server is the connection
`call_accept` prepares, so that delivering the client's SYN to it is what
`call_accept` does.
-/

namespace TcpState

/-- A read of the application that came back short. -/
def Output.short {Time : Type} : Op Time → Output → Bool
  | .callRecv bufferLen, .recv (.ok data) => decide (data.length < bufferLen)
  | _, _ => false

structure Endpoint (Addr Time : Type) where
  conn : Connection Addr Time
  /-- The bytes of every vector `call_send` accepted, in order. -/
  written : List UInt8
  /-- The bytes every `call_recv` returned, in order. -/
  read : List UInt8
  /-- Some `call_recv` has returned fewer bytes than its buffer holds. -/
  ended : Bool
  /-- The number of bytes put on the wire, without repetitions. -/
  carried : Nat

namespace Endpoint

variable {Addr Time : Type}

/-- An endpoint whose application has not written or read. -/
def start (c : Connection Addr Time) : Endpoint Addr Time := ⟨c, [], [], false, 0⟩

/-- The endpoint after an operation that left `c'` and returned `out`. -/
def after (e : Endpoint Addr Time) (op : Op Time) (c' : Connection Addr Time) (out : Output) :
    Endpoint Addr Time where
  conn := c'
  written := e.written ++ out.accepted op
  read := e.read ++ out.data
  ended := e.ended || out.short op
  carried := e.carried + ((e.conn.fresh op c').map (·.data.length)).sum

/-- The segments the endpoint has sent. -/
abbrev log (e : Endpoint Addr Time) : List SegmentMeta := e.conn.userData.sent

abbrev state (e : Endpoint Addr Time) : ConnectionState := e.conn.connectionState

end Endpoint

inductive Side
  | client
  | server
deriving DecidableEq, Repr

def Side.other : Side → Side
  | client => server
  | server => client

/-- The joint state. -/
structure Net (Addr Time : Type) where
  client : Endpoint Addr Time
  server : Endpoint Addr Time

namespace Net

variable {Addr Time : Type}

def get (n : Net Addr Time) : Side → Endpoint Addr Time
  | .client => n.client
  | .server => n.server

def set (n : Net Addr Time) (x : Side) (e : Endpoint Addr Time) : Net Addr Time :=
  match x with
  | .client => { n with client := e }
  | .server => { n with server := e }

/-- What may happen at one side: any call but `call_connect`, any tick, and
the delivery of any segment the other side has sent. -/
def Permitted (n : Net Addr Time) (x : Side) : Op Time → Prop
  | .callConnect => False
  | .onSegment seg => seg ∈ (n.get x.other).log
  | _ => True

instance (n : Net Addr Time) (x : Side) : DecidablePred (n.Permitted x)
  | .callConnect => .isFalse id
  | .onSegment seg => inferInstanceAs (Decidable (seg ∈ (n.get x.other).log))
  | .callSend _ | .callRecv _ | .callShutdown | .callClose | .callAbort | .setOptions _
  | .onTimeTick _ =>
      .isTrue trivial

variable [UserTime Time]

/-- The client has called `call_connect` on a new connection, and the server
listens. Neither has sent anything before. -/
structure Initial (n : Net Addr Time) : Prop where
  client : ∃ (remote : Addr) (options : SocketOptions) (userData : UserData Addr Time)
    (c : Connection Addr Time) (r : Except Error Unit), userData.sent = [] ∧
      { Connection.new remote userData with options := options }.callConnect = .ok (c, r) ∧
      n.client = .start c
  server : ∃ (addr : Addr) (options : SocketOptions) (userData : UserData Addr Time),
    userData.sent = [] ∧ n.server = .start (Connection.listening addr options userData)

/-- The joint runs. -/
def system (Addr Time : Type) [UserTime Time] :
    Transition.System (Net Addr Time) (Side × Op Time) where
  init := Initial
  step n i n' := n.Permitted i.1 i.2 ∧ ∃ c' out,
    (n.get i.1).conn.step i.2 = .ok (c', out) ∧
      n' = n.set i.1 ((n.get i.1).after i.2 c' out)

abbrev Reachable (n : Net Addr Time) : Prop := Transition.Reachable (system Addr Time) n

/-- The joint step as a partial function. -/
def next (n : Net Addr Time) (i : Side × Op Time) : Option (Net Addr Time) :=
  if n.Permitted i.1 i.2 then
    match (n.get i.1).conn.step i.2 with
    | .ok (c', out) => some (n.set i.1 ((n.get i.1).after i.2 c' out))
    | .error _ => none
  else none

theorem step_of_next (n : Net Addr Time) (i : Side × Op Time) (n' : Net Addr Time)
    (h : n.next i = some n') : (system Addr Time).step n i n' := by
  unfold next at h
  split at h
  · rename_i hp
    split at h
    · rename_i c' out hstep
      exact ⟨hp, c', out, hstep, (Option.some.inj h).symm⟩
    · cases h
  · cases h

section Get

variable (n : Net Addr Time) (x : Side) (e : Endpoint Addr Time)

omit [UserTime Time] in
@[simp] theorem get_set : (n.set x e).get x = e := by cases x <;> rfl

omit [UserTime Time] in
@[simp] theorem get_set_other : (n.set x e).get x.other = n.get x.other := by cases x <;> rfl

end Get

/-- Each endpoint of a joint run is reached by a run of its own. -/
theorem Reachable.conn {n : Net Addr Time} (run : Reachable n) (x : Side) :
    Connection.Reachable (n.get x).conn := by
  refine Transition.Reachable.invariant (P := fun n => ∀ x, Connection.Reachable (n.get x).conn)
    (fun n hinit x => ?_) (fun n i n' ih hs x => ?_) run x
  · obtain ⟨⟨remote, options, userData, c, r, -, hc, hclient⟩,
      ⟨addr, options', userData', -, hserver⟩⟩ := hinit
    cases x with
    | client =>
        have hnew : Connection.Reachable (Connection.new remote userData : Connection Addr Time) :=
          .init (.inl ⟨remote, userData, rfl⟩)
        have hset : (Connection.new remote userData : Connection Addr Time).step
            (.setOptions options) =
              .ok ({ Connection.new remote userData with options := options }, .none) := rfl
        have hstep : { Connection.new remote userData with options := options }.step .callConnect =
            .ok (c, .call r) := by
          simp only [Connection.step, hc]
          rfl
        rw [Net.get, hclient]
        exact (hnew.next hset).next hstep
    | server =>
        rw [Net.get, hserver]
        exact .init (Connection.initial_listening addr options' userData')
  · obtain ⟨-, c', out, hstep, rfl⟩ := hs
    obtain ⟨y, op⟩ := i
    cases x <;> cases y
    case client.client => exact (ih .client).next hstep
    case server.server => exact (ih .server).next hstep
    case client.server => exact ih .client
    case server.client => exact ih .server

end Net

end TcpState
