import TcpState.Network.Departing
import TcpState.Network.Flight
import TcpState.Network.OneWay

/-!
# A finished exchange can always be closed

Both sides are open, and everything written has been read and acknowledged.
Whatever the wire has done so far and whatever windows were shown last,
deliveries, a close and a read on each side, and the timers close both.
-/

namespace TcpState

open Transfer (Channel)

namespace Net

variable {Addr Time : Type}

/-- Both sides are open with nothing left to send, to acknowledge or to read, no
send is suspended, and the calls of `call_close` find a cookie. -/
structure Quiescent (n : Net Addr Time) : Prop where
  opened : ∀ x, (n.get x).state = .fullyOpen
  acked : ∀ x, (n.get x).conn.tx.unack = (n.get x).conn.tx.next
  flushed : ∀ x, (n.get x).conn.tx.tx.bytes = []
  unread : ∀ x, (n.get x).conn.rx.bytes = []
  noSenders : ∀ x, (n.get x).conn.noSenders
  hasCookie : ∀ x, (n.get x).conn.HasCookie
  short : ∀ x, (n.get x).written.length < 2 ^ 31

variable [UserTime Time] {n m : Net Addr Time} {x : Side}

/-- The client and then the server do one of the allowed things. -/
def EachDoes (allowed : Op Time → Prop) (n n' : Net Addr Time) : Prop :=
  ∃ op op' m, allowed op ∧ allowed op' ∧
    (system Addr Time).step n (.client, op) m ∧ (system Addr Time).step m (.server, op') n'

/-- Deliveries, a close on each side, deliveries, a read on each side, and a tick
on each side. -/
def Departs (n n' : Net Addr Time) : Prop :=
  ∃ n₁ n₂ n₃ n₄, Transition.Leads (system Addr Time) Delivery n n₁ ∧
    EachDoes (· = .callClose) n₁ n₂ ∧ Transition.Leads (system Addr Time) Delivery n₂ n₃ ∧
      EachDoes (· = .callRecv 1) n₃ n₄ ∧ EachDoes (fun op => ∃ time, op = .onTimeTick time) n₄ n'

/-- The operation is a delivery. -/
def Delivers (op : Op Time) : Prop := ∃ seg, op = .onSegment seg

theorem EachDoes.delivers (h : EachDoes Delivers n m) :
    Transition.Leads (system Addr Time) Delivery n m := by
  obtain ⟨op, op', m₁, hop, hop', hs, hs'⟩ := h
  exact (Transition.Leads.step (.client, op) hop hs).trans (.step (.server, op') hop' hs')

/-- An allowed step of one side leads there, and hands out nothing. -/
def CanReach (m : Net Addr Time) (allowed : Op Time → Prop) (x : Side)
    (Q : Side → Endpoint Addr Time → Prop) : Prop :=
  ∃ op c' out, allowed op ∧ m.Permitted x op ∧
    (m.get x).conn.step op = .ok (c', out) ∧ out.data = [] ∧ Q x ((m.get x).after op c' out)

/-- Both sides take one step each. Each looks at the other side
before or after its own step. -/
theorem both_step {P Q : Side → Endpoint Addr Time → Prop} {allowed : Op Time → Prop}
    (run : Reachable n) (hP : ∀ x, P x (n.get x))
    (hmove : ∀ m x, Reachable m → P x (m.get x) →
      P x.other (m.get x.other) ∨ Q x.other (m.get x.other) →
      m.CanReach allowed x Q) :
    ∃ n', EachDoes allowed n n' ∧ Reachable n' ∧
      (∀ x, Q x (n'.get x)) ∧ ∀ x, (n'.get x).read = (n.get x).read := by
  obtain ⟨op, c', out, hop, hperm, hc, hdata, hQ⟩ :=
    hmove n .client run (hP .client) (.inl (hP .server))
  have hs : (system Addr Time).step n (.client, op)
      (n.set .client ((n.get .client).after op c' out)) := ⟨hperm, c', out, hc, rfl⟩
  generalize hm : n.set .client ((n.get .client).after op c' out) = m at hs
  have hclient : m.get .client = (n.get .client).after op c' out := by
    rw [← hm]
    rfl
  have hserver : m.get .server = n.get .server := by
    rw [← hm]
    rfl
  obtain ⟨op', d', out', hop', hperm', hd, hdata', hQ'⟩ :=
    hmove m .server (run.step hs) (hserver ▸ hP .server) (.inr (hclient ▸ hQ))
  have hs' : (system Addr Time).step m (.server, op')
      (m.set .server ((m.get .server).after op' d' out')) := ⟨hperm', d', out', hd, rfl⟩
  refine ⟨_, ⟨op, op', m, hop, hop', hs, hs'⟩, (run.step hs).step hs', fun x => ?_, fun x => ?_⟩
  · cases x with
    | client =>
        change Q .client (m.get .client)
        rw [hclient]
        exact hQ
    | server => exact hQ'
  · cases x with
    | client =>
        change (m.get .client).read = _
        rw [hclient, Endpoint.after, hdata, List.append_nil]
    | server =>
        change (m.get .server).read ++ out'.data = _
        rw [hserver, hdata', List.append_nil]

section Stages

variable (n₀ : Net Addr Time)

omit [UserTime Time]

/-- The next number of a side before it closes. -/
def number (x : Side) : SeqN := (n₀.get x).conn.tx.next

/-- At rest, with the numbers before the close. -/
structure Resting (x : Side) (e : Endpoint Addr Time) : Prop where
  rest : e.conn.AtRest
  next : e.conn.tx.next = n₀.number x
  ackd : e.conn.rx.ackd = n₀.number x.other
  noSenders : e.conn.noSenders
  hasCookie : e.conn.HasCookie
  /-- A segment of this side ends where the other side waits. -/
  ends : ∃ s ∈ e.log, s.Carries ∧ s.seqSize.toNat ≤ 2 ^ 31 ∧ s.seqnAfter = n₀.number x

/-- At rest, and its open window is on the wire. -/
structure Showing (x : Side) (e : Endpoint Addr Time) : Prop extends Resting n₀ x e where
  shown : ∃ s ∈ e.log, (s.seqn = n₀.number x ∧ s.ackn = n₀.number x.other) ∧ s.data = [] ∧
    s.window ≠ 0#16 ∧
    s.hasRst = false ∧ s.hasSyn = false ∧ s.hasFin = false ∧ s.hasAck = true

/-- At rest, and the window of the other side has been seen open. -/
structure Ready (x : Side) (e : Endpoint Addr Time) : Prop extends Showing n₀ x e where
  window : e.conn.tx.window ≠ 0#16

/-- The connection as it was when its side closed. -/
structure Before (x : Side) (c₀ : Connection Addr Time) : Prop where
  rest : c₀.AtRest
  next : c₀.tx.next = n₀.number x
  ackd : c₀.rx.ackd = n₀.number x.other

/-- The FIN is out. -/
def SentFin (x : Side) (e : Endpoint Addr Time) : Prop :=
  ∃ c₀, Before n₀ x c₀ ∧ Connection.FinOut c₀ e.conn

/-- The FIN of the other side has arrived. -/
def HeardFin (x : Side) (e : Endpoint Addr Time) : Prop :=
  ∃ c₀, Before n₀ x c₀ ∧ Connection.FinBoth c₀ e.conn ∧ c₀.finSegment ∈ e.log

/-- Our own FIN is acknowledged. -/
def HeardAck (x : Side) (e : Endpoint Addr Time) : Prop :=
  ∃ c₀, Before n₀ x c₀ ∧ Connection.FinDone e.conn ∧ c₀.lastAck ∈ e.log

end Stages

omit [UserTime Time] in
/-- In TimeWait, with the end of the stream read. -/
def Waiting (_ : Side) (e : Endpoint Addr Time) : Prop :=
  e.state = .timeWait ∧ e.ended = true ∧ ∃ deadline, e.conn.timers.timewait = some deadline

/-- Closed, with the end of the stream read. -/
def Over (_ : Side) (e : Endpoint Addr Time) : Prop := e.state = .closed ∧ e.ended = true

section Moves

variable {n₀ : Net Addr Time} {e : Endpoint Addr Time}

/-- What is on the wire stays there. -/
theorem log_subset (run : Reachable m) {op : Op Time} {out : Output} {c' : Connection Addr Time}
    (hc : (m.get x).conn.step op = .ok (c', out)) :
    (m.get x).log ⊆ ((m.get x).after op c' out).log :=
  ((run.conn x).wellFormed.txEffect hc).sent_isPrefix.subset

/-- An old segment of the other side is answered with the window. -/
theorem Resting.shows (run : Reachable m) (h : Resting n₀ x (m.get x))
    (hother : Resting n₀ x.other (m.get x.other)) :
    m.CanReach Delivers x (Showing n₀) := by
  obtain ⟨s, hs, hcarries, hsize, hstop⟩ := hother.ends
  have hwf := (run.conn x).wellFormed
  have hpeer : (m.get x).conn.Peered := .inl (by rw [h.rest.state]; rfl)
  have hcheck := Connection.check_of_stored hwf hcarries.2 hsize (hstop.trans h.ackd.symm)
  have hc := Connection.onSegment_unacceptable hpeer hcheck
  rw [hcarries.1, if_neg Bool.false_ne_true] at hc
  have hstep := Connection.step_onSegment.mpr ⟨hc, rfl⟩
  refine ⟨.onSegment s, _, _, ⟨s, rfl⟩, hs, hstep, rfl, ⟨⟨?_, h.next, h.ackd, h.noSenders,
    h.hasCookie, ?_⟩, ?_⟩⟩
  · exact ⟨h.rest.state, h.rest.acked, h.rest.flushed, h.rest.reTx, h.rest.unread, h.rest.unmarked⟩
  · obtain ⟨g, hg, hends⟩ := h.ends
    exact ⟨g, log_subset run hstep hg, hends⟩
  · refine ⟨(m.get x).conn.bareSegment (m.get x).conn.rx.ackd .ack, ?_, ⟨h.next, h.ackd⟩, rfl,
      hwf.currWindow_of_empty h.rest.unread h.rest.unmarked, ?_⟩
    · change _ ∈ ((m.get x).conn.send _).userData.sent
      rw [Connection.send_sent]
      exact List.mem_append_right _ (List.mem_singleton_self _)
    · simp only [SegmentMeta.hasRst, SegmentMeta.hasSyn, SegmentMeta.hasFin, SegmentMeta.hasAck,
        Connection.bareSegment]
      decide

/-- The answer of the other side opens the window. -/
theorem Showing.readies (run : Reachable m) (h : Showing n₀ x (m.get x))
    (hother : Showing n₀ x.other (m.get x.other)) :
    m.CanReach Delivers x (Ready n₀) := by
  obtain ⟨s, hs, ⟨hseqn, hackn⟩, hdata, hwindow, hflags⟩ := hother.shown
  rw [Side.other_other] at hackn
  obtain ⟨c', hc, hrest, hnext, hrx, hopen, hresumes⟩ := h.rest.updates (run.conn x)
    (hseqn.trans h.ackd.symm) (hackn.trans h.next.symm) hdata hflags hwindow
  have hstep := Connection.step_onSegment.mpr ⟨hc, rfl⟩
  have hlog := log_subset run hstep
  refine ⟨.onSegment s, c', .none, ⟨s, rfl⟩, hs, hstep, rfl, ⟨⟨⟨hrest, hnext.trans h.next,
    (congrArg RxBuffer.ackd hrx).trans h.ackd, hresumes.noSenders h.noSenders,
    hresumes.hasCookie_iff.mpr h.hasCookie, ?_⟩, ?_⟩, hopen⟩⟩
  · obtain ⟨g, hg, hends⟩ := h.ends
    exact ⟨g, hlog hg, hends⟩
  · obtain ⟨g, hg, hshown⟩ := h.shown
    exact ⟨g, hlog hg, hshown⟩

/-- The close sends the FIN. -/
theorem Ready.closes (h : Ready n₀ x (m.get x)) :
    m.CanReach (· = .callClose) x (SentFin n₀) := by
  obtain ⟨c', r, hc, hfin⟩ := h.rest.close h.window h.noSenders h.hasCookie
  refine ⟨.callClose, c', .call r, rfl, trivial, ?_, rfl, (m.get x).conn,
    ⟨h.rest, h.next, h.ackd⟩, hfin⟩
  rw [Connection.step, hc]
  rfl

/-- The FIN of the other side arrives. -/
theorem SentFin.hears (run : Reachable m) (h : SentFin n₀ x (m.get x))
    (hother : SentFin n₀ x.other (m.get x.other) ∨ HeardFin n₀ x.other (m.get x.other)) :
    m.CanReach Delivers x (HeardFin n₀) := by
  obtain ⟨c₀, hb, hfin⟩ := h
  obtain ⟨d₀, hb', hmem⟩ : ∃ d₀, Before n₀ x.other d₀ ∧ d₀.finSegment ∈ (m.get x.other).log := by
    rcases hother with ⟨d₀, hb', hfin'⟩ | ⟨d₀, hb', -, hmem⟩
    · exact ⟨d₀, hb', hfin'.sent⟩
    · exact ⟨d₀, hb', hmem⟩
  have hackn : d₀.finSegment.ackn = c₀.tx.next := by
    refine (hb'.ackd.trans ?_).trans hb.next.symm
    rw [Side.other_other]
  obtain ⟨c', hc, hboth⟩ := hfin.hears hb.rest (run.conn x) (hb'.next.trans hb.ackd.symm) hackn rfl
    d₀.finSegment_flags
  have hstep := Connection.step_onSegment.mpr ⟨hc, rfl⟩
  exact ⟨.onSegment d₀.finSegment, c', .none, ⟨_, rfl⟩, hmem, hstep, rfl, c₀, hb, hboth,
    log_subset run hstep hfin.sent⟩

/-- The acknowledgement of the other side arrives. -/
theorem HeardFin.hears (run : Reachable m) (h : HeardFin n₀ x (m.get x))
    (hother : HeardFin n₀ x.other (m.get x.other) ∨ HeardAck n₀ x.other (m.get x.other)) :
    m.CanReach Delivers x (HeardAck n₀) := by
  obtain ⟨c₀, hb, hboth, -⟩ := h
  obtain ⟨d₀, hb', hmem⟩ : ∃ d₀, Before n₀ x.other d₀ ∧ d₀.lastAck ∈ (m.get x.other).log := by
    rcases hother with ⟨d₀, hb', hboth', -⟩ | ⟨d₀, hb', -, hmem⟩
    · exact ⟨d₀, hb', hboth'.sent⟩
    · exact ⟨d₀, hb', hmem⟩
  have hackn : d₀.lastAck.ackn = c₀.tx.next + 1#32 := by
    refine congrArg (· + 1#32) ((hb'.ackd.trans ?_).trans hb.next.symm)
    rw [Side.other_other]
  obtain ⟨c', hc, hdone⟩ := hboth.hears (run.conn x)
    (congrArg (· + 1#32) (hb'.next.trans hb.ackd.symm)) hackn rfl d₀.lastAck_flags
  have hstep := Connection.step_onSegment.mpr ⟨hc, rfl⟩
  exact ⟨.onSegment d₀.lastAck, c', .none, ⟨_, rfl⟩, hmem, hstep, rfl, c₀, hb, hdone,
    log_subset run hstep hboth.sent⟩

/-- The end of the stream is read. -/
theorem HeardAck.reads (run : Reachable m) (h : HeardAck n₀ x (m.get x)) :
    m.CanReach (· = .callRecv 1) x Waiting := by
  obtain ⟨c₀, -, hdone, -⟩ := h
  obtain ⟨c', hc, hst, hdeadline⟩ := hdone.read (run.conn x)
  refine ⟨.callRecv 1, c', .recv (.ok []), rfl, trivial, ?_, rfl, hst, ?_, hdeadline⟩
  · rw [Connection.step, hc]
    rfl
  · exact Bool.or_true _

/-- The timer runs out. -/
theorem Waiting.expires (run : Reachable m) (h : Waiting x (m.get x)) :
    m.CanReach (fun op => ∃ time, op = .onTimeTick time) x Over := by
  obtain ⟨hst, hended, deadline, hd⟩ := h
  obtain ⟨c', hc, hclosed⟩ := Connection.closes_timeWait (run.conn x) hst hd
  refine ⟨.onTimeTick deadline, c', .none, ⟨_, rfl⟩, trivial, ?_, rfl, hclosed, ?_⟩
  · rw [Connection.step, hc]
    rfl
  · exact Bool.or_eq_true_iff.mpr (.inl hended)

end Moves

namespace Quiescent

theorem joint_short (h : Quiescent n) (run : Reachable n) : n.Short := by
  intro x
  have hpaid := paid_of_reachable run x
  have hwritten := h.short x
  unfold Paid at hpaid
  omega

theorem linked (h : Quiescent n) (run : Reachable n) (x : Side) :
    ∃ isn ch, Linked (n.get x) (n.get x.other) isn ch := by
  cases (Joint.of_reachable run (h.joint_short run)).link x with
  | final hgone =>
      rw [h.opened] at hgone
      cases hgone
  | live _ hl => exact ⟨_, _, hl⟩

omit [UserTime Time] in
theorem peered (h : Quiescent n) (x : Side) : (n.get x).conn.Peered :=
  .inl (by rw [← Endpoint.state, h.opened]; rfl)

omit [UserTime Time] in
theorem not_idle (h : Quiescent n) (x : Side) : (n.get x).state.idle = false := by
  rw [h.opened]
  rfl

/-- The other side waits for the next number, has read everything, and no FIN has come. -/
theorem received (h : Quiescent n) (run : Reachable n) (x : Side) :
    (n.get x.other).conn.rx.ackd = (n.get x).conn.tx.next ∧
      (n.get x.other).conn.rx.buffer.fin = false ∧
      (n.get x.other).read = (n.get x).written := by
  obtain ⟨isn, ch, hl⟩ := h.linked run x
  have hb := hl.sending.buffered (h.not_idle x)
  have hh := hl.receiving.holds (h.peered x.other)
  have hstored := hl.stored_of_settled (h.not_idle x) (h.joint_short run x) (h.acked x)
  refine ⟨by rw [hh.ackd, hb.realises.next, hstored], ?_, ?_⟩
  · rw [Bool.eq_false_iff]
    intro hmark
    exact hl.fin_notMem (h.opened x) (hstored ▸ hh.fin.mp hmark)
  · have hread := hh.bytes
    rw [h.unread, List.append_nil, hstored] at hread
    rw [hread, ← hb.queue, h.flushed, List.append_nil]

theorem resting (h : Quiescent n) (run : Reachable n) (x : Side) : Resting n x (n.get x) := by
  obtain ⟨isn, ch, hl⟩ := h.linked run x
  obtain ⟨hackd, hunmarked, -⟩ := h.received run x.other
  rw [Side.other_other] at hackd hunmarked
  refine ⟨⟨h.opened x, h.acked x, h.flushed x, ?_, h.unread x, hunmarked⟩, rfl, hackd,
    h.noSenders x, h.hasCookie x, ?_⟩
  · exact hl.reTx_nil (h.not_idle x) (h.joint_short run x) (h.acked x)
  · obtain ⟨s, hs, hcarries, hstop⟩ :=
      (Whole.of_reachable run (h.joint_short run)).ends x (h.peered x.other)
    have hret := (hl.sending.wired.segments s hs hcarries.1).retransmittable
    exact ⟨s, hs, hcarries, Connection.seqSize_le_of_retransmittable hret,
      hstop.trans (h.received run x).1⟩

end Quiescent

/-- Whatever the wire has done so far and whatever windows were shown last, two
open sides that have read and acknowledged everything can close: deliveries, one
close and one read on each side, and the timers close both, and each application
has read what the other wrote, to its end. -/
theorem teardown_completes (run : Reachable n) (h : Quiescent n) :
    ∃ n', Departs n n' ∧
      ∀ x, (n'.get x).state = .closed ∧ (n'.get x).ended = true ∧
        (n'.get x).read = (n.get x.other).written := by
  obtain ⟨n₁, each₁, run₁, h₁, read₁⟩ := both_step run (h.resting run)
    fun m x run h hother => h.shows run (hother.elim id Showing.toResting)
  obtain ⟨n₂, each₂, run₂, h₂, read₂⟩ := both_step run₁ h₁
    fun m x run h hother => h.readies run (hother.elim id Ready.toShowing)
  obtain ⟨n₃, each₃, run₃, h₃, read₃⟩ := both_step run₂ h₂ fun m x _ h _ => h.closes
  obtain ⟨n₄, each₄, run₄, h₄, read₄⟩ := both_step run₃ h₃
    fun m x run h hother => SentFin.hears run h hother
  obtain ⟨n₅, each₅, run₅, h₅, read₅⟩ := both_step run₄ h₄
    fun m x run h hother => HeardFin.hears run h hother
  obtain ⟨n₆, each₆, run₆, h₆, read₆⟩ := both_step run₅ h₅ fun m x run h _ => HeardAck.reads run h
  obtain ⟨n₇, each₇, -, h₇, read₇⟩ := both_step run₆ h₆ fun m x run h _ => Waiting.expires run h
  refine ⟨n₇, ⟨n₂, n₃, n₅, n₆, each₁.delivers.trans each₂.delivers, each₃,
    each₄.delivers.trans each₅.delivers, each₆, each₇⟩, fun x => ⟨(h₇ x).1, (h₇ x).2, ?_⟩⟩
  have hread := (h.received run x.other).2.2
  rw [Side.other_other] at hread
  rw [read₇, read₆, read₅, read₄, read₃, read₂, read₁, hread]

/-- Two bytes have crossed, and both sides close. -/
theorem teardown_completes_two : ∃ n n' : Net Unit Nat, n.client.written = [1, 2] ∧
    Departs n n' ∧ n'.client.state = .closed ∧ n'.server.state = .closed ∧
      n'.server.read = [1, 2] := by
  obtain ⟨n, run, hclient, hserver⟩ : ∃ n : Net Unit Nat, Reachable n ∧
      (n.client.state = .fullyOpen ∧ n.client.conn.tx.unack = n.client.conn.tx.next ∧
        n.client.conn.tx.tx.bytes = [] ∧ n.client.conn.rx.bytes = [] ∧
        n.client.conn.OutputDone ∧ n.client.conn.HasCookie ∧ n.client.written = [1, 2]) ∧
      n.server.state = .fullyOpen ∧ n.server.conn.tx.unack = n.server.conn.tx.next ∧
        n.server.conn.tx.tx.bytes = [] ∧ n.server.conn.rx.bytes = [] ∧
        n.server.conn.OutputDone ∧ n.server.conn.HasCookie ∧ n.server.written = [] :=
    Transition.exists_reachableUnder step_of_next initial_zeroStart
      [(.server, .onSegment ⟨0#32, 0#32, 4096#16, .syn, []⟩),
       (.client, .onSegment ⟨0#32, 1#32, 4096#16, .syn ||| .ack, []⟩),
       (.server, .onSegment ⟨1#32, 1#32, 4096#16, .ack, []⟩),
       (.client, .callSend [1, 2]),
       (.server, .onSegment ⟨1#32, 1#32, 4096#16, .ack, [1, 2]⟩),
       (.server, .callRecv 2),
       (.client, .onSegment ⟨1#32, 3#32, 4094#16, .ack, []⟩)] (by decide)
  obtain ⟨hopen, hacked, hflushed, hunread, hdone, hcookie, hwritten⟩ := hclient
  obtain ⟨hopen', hacked', hflushed', hunread', hdone', hcookie', hwritten'⟩ := hserver
  have h : Quiescent n := by
    constructor <;> rintro (_ | _)
    all_goals first | assumption | exact hdone.2 | exact hdone'.2 | skip
    · rw [Net.get, hwritten]
      decide
    · rw [Net.get, hwritten']
      decide
  obtain ⟨n', hlead, hover⟩ := teardown_completes run h
  exact ⟨n, n', hwritten, hlead, (hover .client).1, (hover .server).1,
    (hover .server).2.2.trans hwritten⟩

end Net

end TcpState
