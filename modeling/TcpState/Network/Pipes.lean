import TcpState.Foundation.Pipe
import TcpState.Network.GracefulEnd

/-!
# Two endpoints are two pipes

What the applications see of two endpoints is what two reliable pipes would show
them, one in each direction. The FIN marker, or the end of the writer, closes a
pipe; a short read sees its end. The wire, the timers and the windows are hidden.
-/

namespace TcpState

variable {Addr Time : Type}

namespace Endpoint

/-- No byte is taken over any more. -/
def closed (e : Endpoint Addr Time) : Bool := e.state.gone || e.conn.tx.tx.fin

/-- The acts of an operation on the pipe the endpoint writes. -/
def writes (e : Endpoint Addr Time) (op : Op Time) (out : Output) (e' : Endpoint Addr Time) :
    List (Pipe.Act UInt8) :=
  (if out.accepted op = [] then [] else [.write (out.accepted op)]) ++
    if !e.closed && e'.closed then [.close] else []

/-- The acts of an operation on the pipe the endpoint reads. -/
def reads (op : Op Time) (out : Output) : List (Pipe.Act UInt8) :=
  (if out.data = [] then [] else [.read out.data]) ++ if out.short op then [.finish] else []

variable {e : Endpoint Addr Time} {op : Op Time} {out : Output} {c' : Connection Addr Time}

/-- A closed endpoint stays closed. -/
theorem closed_after (hwf : Connection.WellFormed e.conn)
    (effect : Connection.TxEffect e.conn op out c') (hop : op ≠ .callConnect)
    (h : e.closed = true) : (e.after op c' out).closed = true := by
  rw [closed, Bool.or_eq_true] at h ⊢
  rcases h with hgone | hfin
  · exact .inl ((effect.moves hop).gone hgone)
  · exact effect.fin_kept hwf hop hfin

/-- The writer's pipe follows an operation. -/
theorem steps_writes (hwf : Connection.WellFormed e.conn)
    (effect : Connection.TxEffect e.conn op out c') (hop : op ≠ .callConnect) {p : Pipe UInt8}
    (hclosed : p.closed = e.closed) :
    Transition.Steps (Pipe.system UInt8) p (e.writes op out (e.after op c' out))
      ⟨p.pending ++ out.accepted op, (e.after op c' out).closed⟩ := by
  cases hc : e.closed with
  | true =>
      have hc' := closed_after hwf effect hop hc
      have hnil : out.accepted op = [] := by
        rw [closed, Bool.or_eq_true] at hc
        exact effect.accepted_eq_nil (hc.imp_left ConnectionState.idle_of_gone)
      have hpipe : (⟨p.pending ++ [], true⟩ : Pipe UInt8) = p := by
        rw [List.append_nil, ← hc, ← hclosed]
      rw [writes, hnil, if_pos rfl, hc, hc', hpipe]
      exact .nil
  | false =>
      rw [hc] at hclosed
      have hwrite : Transition.Steps (Pipe.system UInt8) p
          (if out.accepted op = [] then [] else [.write (out.accepted op)])
          ⟨p.pending ++ out.accepted op, false⟩ := by
        split
        · rename_i hnil
          rw [hnil, List.append_nil, ← hclosed]
          exact .nil
        · rw [← hclosed]
          exact .single (.write _ hclosed)
      refine hwrite.append ?_
      rw [hc]
      cases (e.after op c' out).closed with
      | true => exact .single (.close rfl)
      | false => exact .nil

/-- The reader's pipe follows an operation that reads what is next and comes
back short only at the end. -/
theorem steps_reads {p : Pipe UInt8} {rest : List UInt8} (hdata : p.pending = out.data ++ rest)
    (hshort : out.short op = true → p.closed = true ∧ rest = []) :
    Transition.Steps (Pipe.system UInt8) p (reads op out) ⟨rest, p.closed⟩ := by
  have hread : Transition.Steps (Pipe.system UInt8) p
      (if out.data = [] then [] else [.read out.data]) ⟨rest, p.closed⟩ := by
    split
    · rename_i hnil
      rw [hnil, List.nil_append] at hdata
      rw [← hdata]
      exact .nil
    · exact .single (.read hdata)
  refine hread.append ?_
  split
  · rename_i hend
    obtain ⟨hclosed, hrest⟩ := hshort hend
    exact .single (.finish hclosed hrest)
  · exact .nil

end Endpoint

namespace Net

/-- The pipes two endpoints stand for, each under the side that writes it. -/
structure Represents (n : Net Addr Time) (P : Side → Pipe UInt8) : Prop where
  written : ∀ x, (n.get x).written = (n.get x.other).read ++ (P x).pending
  closed : ∀ x, (P x).closed = (n.get x).closed

/-- What the applications see of a step. -/
def Shows [UserTime Time] (n : Net Addr Time) (i : Side × Op Time) (n' : Net Addr Time)
    (acts : List (Side × Pipe.Act UInt8)) : Prop :=
  ∃ c' out, (n.get i.1).conn.step i.2 = .ok (c', out) ∧
    n' = n.set i.1 ((n.get i.1).after i.2 c' out) ∧
    acts = ((n.get i.1).writes i.2 out (n'.get i.1)).map (fun a => (i.1, a)) ++
      (Endpoint.reads i.2 out).map fun a => (i.1.other, a)

variable [UserTime Time] {n n' : Net Addr Time} {i : Side × Op Time}
  {acts : List (Side × Pipe.Act UInt8)}

theorem shows_of_step (n : Net Addr Time) (i : Side × Op Time) (n' : Net Addr Time)
    (hs : (system Addr Time).step n i n') : ∃ acts, Shows n i n' acts := by
  obtain ⟨-, c', out, hc, rfl⟩ := hs
  exact ⟨_, c', out, hc, rfl, rfl⟩

theorem Represents.of_initial (h : Initial n) : Represents n fun _ => .empty := by
  have hwf := (Joint.of_initial h).wellFormed
  obtain ⟨⟨remote, options, userData, c, r, -, hc, hclient⟩,
    ⟨addr, options', userData', -, hserver⟩⟩ := h
  have unclosed (x : Side) (hgone : (n.get x).state.gone = false)
      (hsync : (n.get x).state.synced = false) : false = (n.get x).closed := by
    rw [Endpoint.closed, hgone, ((hwf x).early hsync).1]
    rfl
  constructor
  · rintro (_ | _) <;> simp only [Net.get, Side.other, hclient, hserver] <;> rfl
  · rintro (_ | _)
    · have hst : (n.get .client).state = .synSent := by
        rw [Net.get, hclient]
        cases Connection.connectStep_of_ok hc with
        | refused hs => exact absurd rfl hs.1
        | connecting _ ha => exact ha.state
      exact unclosed .client (by rw [hst]; rfl) (by rw [hst]; rfl)
    · have hst : (n.get .server).state = .listen := by
        rw [Net.get, hserver]
        rfl
      exact unclosed .server (by rw [hst]; rfl) (by rw [hst]; rfl)

/-- The pipes follow every step of the joint system. -/
theorem Represents.step {P : Side → Pipe UInt8} (h : Represents n P) (run : Reachable n)
    (hshort : n'.Short) (hs : (system Addr Time).step n i n') (hshows : Shows n i n' acts) :
    ∃ P', Transition.Steps (Pipe.family Side UInt8) P acts P' ∧ Represents n' P' := by
  have hjoint := Joint.of_reachable run fun x =>
    Nat.lt_of_le_of_lt (Joint.carried_mono hs x) (hshort x)
  have hjoint' := Joint.of_reachable (run.step hs) hshort
  obtain ⟨x, op⟩ := i
  have hop : op ≠ .callConnect := by
    rintro rfl
    exact hs.1
  obtain ⟨c', out, hc, rfl, rfl⟩ := hshows
  change (n.get x).conn.step op = .ok (c', out) at hc
  have effect := (hjoint.wellFormed x).txEffect hc
  have hother : x.other ≠ x := by cases x <;> decide
  have hback : x.other.other = x := by cases x <;> rfl
  have hwrites := Endpoint.steps_writes (hjoint.wellFormed x) effect hop (h.closed x)
  -- What is read is next in the other pipe, and a short read is at its end.
  have hfinal := finished_back hjoint' x
  rw [get_set, get_set_other] at hfinal
  have hwritten := h.written x.other
  rw [hback] at hwritten
  have hread : (n.get x).read ++ out.data <+: (n.get x.other).written := hfinal.read
  rw [hwritten, List.prefix_append_right_inj] at hread
  obtain ⟨rest, hrest⟩ := hread
  have hend (hout : out.short op = true) : (P x.other).closed = true ∧ rest = [] := by
    obtain ⟨hall, hsealed⟩ := hfinal.ended (Bool.or_eq_true_iff.mpr (.inr hout))
    change (n.get x).read ++ out.data = _ at hall
    rw [hwritten, ← hrest, List.append_cancel_left_eq, List.self_eq_append_right] at hall
    rw [h.closed, Endpoint.closed, Bool.or_eq_true]
    exact ⟨hsealed, hall⟩
  have hreads := Endpoint.steps_reads hrest.symm hend
  refine ⟨Function.update (Function.update P x
    ⟨(P x).pending ++ out.accepted op, ((n.get x).after op c' out).closed⟩) x.other
      ⟨rest, (P x.other).closed⟩, ?_, ?_⟩
  · rw [get_set]
    exact (Pipe.steps_family hwrites rfl).append
      (Pipe.steps_family hreads (Function.update_of_ne hother ..))
  · have each (Q : Side → Prop) (hx : Q x) (hy : Q x.other) : ∀ y, Q y := by
      intro y
      cases x <;> cases y <;> assumption
    constructor
    · refine each _ ?_ ?_
      · rw [get_set, get_set_other, Function.update_of_ne hother.symm, Function.update_self]
        change (n.get x).written ++ _ = _
        rw [h.written x, List.append_assoc]
      · rw [hback, get_set, get_set_other, Function.update_self]
        change _ = (n.get x).read ++ out.data ++ rest
        rw [hwritten, List.append_assoc, hrest]
    · refine each _ ?_ ?_
      · rw [get_set, Function.update_of_ne hother.symm, Function.update_self]
      · rw [get_set_other, Function.update_self]
        exact h.closed x.other

/-- Whatever the wire does, what the applications see of two endpoints is what
two reliable pipes show. -/
theorem shown_by_pipes (run : Transition.Shown (system Addr Time) Shows n acts)
    (hshort : n.Short) : ∃ P, Transition.Steps (Pipe.family Side UInt8) (fun _ => .empty) acts P ∧
      ∀ x, (n.get x).written = (n.get x.other).read ++ (P x).pending := by
  have hinit (n : Net Addr Time) (h : Initial n) :
      ∃ P, (Pipe.family Side UInt8).init P ∧ Represents n P := ⟨_, rfl, .of_initial h⟩
  obtain ⟨P₀, P, rfl, hsteps, h⟩ := run.simulated Represents Short
    (fun n i n' hs hshort x => Nat.lt_of_le_of_lt (Joint.carried_mono hs x) (hshort x)) hinit
    (fun n i n' acts P run hshort h hs hshows => h.step run hshort hs hshows) hshort
  exact ⟨P, hsteps, h.written⟩

/-- Two of three bytes are read before the writer shuts down. -/
theorem shown_by_pipes_three : ∃ (n : Net Unit Nat) (acts : List (Side × Pipe.Act UInt8))
    (P : Side → Pipe UInt8), Transition.Shown (system Unit Nat) Shows n acts ∧
      Transition.Steps (Pipe.family Side UInt8) (fun _ => .empty) acts P ∧
        n.client.written = [1, 2, 3] ∧ n.server.read = [1, 2] ∧ (P .client).pending = [3] := by
  obtain ⟨n, run, hclient, hserver, hwritten, hread⟩ : ∃ n : Net Unit Nat, Reachable n ∧
      n.client.carried < 2 ^ 31 ∧ n.server.carried < 2 ^ 31 ∧
        n.client.written = [1, 2, 3] ∧ n.server.read = [1, 2] :=
    Transition.exists_reachableUnder step_of_next initial_zeroStart
      [(.server, .onSegment ⟨0#32, 0#32, 4096#16, .syn, []⟩),
       (.client, .onSegment ⟨0#32, 1#32, 4096#16, .syn ||| .ack, []⟩),
       (.server, .onSegment ⟨1#32, 1#32, 4096#16, .ack, []⟩),
       (.client, .callSend [1, 2, 3]),
       (.server, .onSegment ⟨1#32, 1#32, 4096#16, .ack, [1, 2, 3]⟩),
       (.server, .callRecv 2),
       (.client, .onSegment ⟨1#32, 4#32, 4093#16, .ack, []⟩),
       (.client, .callShutdown)] (by decide)
  have hshort : n.Short := by
    rintro (_ | _)
    · exact hclient
    · exact hserver
  obtain ⟨acts, hshown⟩ := Transition.Shown.of_reachable shows_of_step run
  obtain ⟨P, hsteps, hpipes⟩ := shown_by_pipes hshown hshort
  have hpending : n.client.written = n.server.read ++ (P .client).pending := hpipes .client
  rw [hwritten, hread] at hpending
  exact ⟨n, acts, P, hshown, hsteps, hwritten, hread, (List.append_cancel_left
    (show [1, 2] ++ [3] = [1, 2] ++ (P .client).pending from hpending)).symm⟩

end Net

end TcpState
