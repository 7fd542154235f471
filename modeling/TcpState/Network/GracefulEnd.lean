import TcpState.Connection.Retransmit
import TcpState.Network.Closing

/-!
# A graceful end loses nothing

An endpoint ends gracefully when it enters TimeWait, or Closed by the close
reduction. By then its peer has acknowledged everything it wrote, and its own
application has read everything the peer wrote.
-/

namespace TcpState

open Transfer (Piece Channel)

namespace ConnectionState

theorem not_idle_of_wroteFin {s : ConnectionState} (h : s.wroteFin = true) : s.idle = false := by
  cases s <;> first | rfl | cases h

theorem not_gone_of_readClosed {s : ConnectionState} (h : s.readClosed = true) :
    s.gone = false := by
  cases s <;> first | rfl | cases h

end ConnectionState

variable {Addr Time : Type}

namespace Connection

/-- A closed write side has nothing left to be acknowledged. -/
def AllAcknowledged (c : Connection Addr Time) : Prop :=
  c.connectionState.txClosed = true → c.tx.unack = c.tx.next

variable {c c' : Connection Addr Time} {op : Op Time} {out : Output}

theorem AllAcknowledged.of_not_wroteFin (hwrote : c.connectionState.wroteFin = false) :
    AllAcknowledged c := fun hclosed =>
  absurd ((ConnectionState.wroteFin_of_txClosed hclosed).symm.trans hwrote) (by decide)

/-- Only the number after our FIN acknowledges a closed write side. -/
theorem AllAcknowledged.ackn_eq (h : AllAcknowledged c) {seg : SegmentMeta}
    (hrange : seg.ackn.inRangeInclusive c.tx.unack c.tx.next = true)
    (hclosed : c.connectionState.txClosed = true ∨
      c.connectionState.wroteFin = true ∧ seg.ackn = c.tx.next) : seg.ackn = c.tx.next := by
  rcases hclosed with hcl | ⟨-, hackn⟩
  · rw [h hcl, SeqN.inRangeInclusive_iff, Circular.span_self, Nat.le_zero,
      Circular.span_eq_zero_iff] at hrange
    exact hrange
  · exact hackn

theorem AllAcknowledged.step (h : AllAcknowledged c) (hwf : WellFormed c)
    (effect : TxEffect c op out c') : AllAcknowledged c' := by
  have early {state : ConnectionState} (hst : c'.connectionState = state)
      (hw : state.wroteFin = false) : AllAcknowledged c' :=
    .of_not_wroteFin (by rw [hst, hw])
  cases effect with
  | kept _ htx hstate =>
      intro hclosed
      have hclosed' : c.connectionState.txClosed = true := by
        rcases hstate with heq | ⟨-, -, -, heq⟩
        · rw [← heq]
          exact hclosed
        · exact heq.symm.trans hclosed
      rw [htx.unack, htx.next]
      exact h hclosed'
  | cleared _ hidle =>
      intro hclosed
      cases hst : c'.connectionState <;>
        simp_all [ConnectionState.idle, ConnectionState.txClosed]
  | connecting _ _ hc => exact early hc.state rfl
  | answered _ _ _ hc => exact early hc.state rfl
  | queued _ hs _ _ hstate =>
      refine early hstate ?_
      rcases hs with hs | ⟨-, hwrote⟩
      · cases hst : c.connectionState <;>
          simp_all [ConnectionState.opening, ConnectionState.wroteFin]
      · exact hwrote
  | appended _ _ _ hwrote _ _ _ hstate => exact early hstate hwrote
  | marked _ _ _ _ _ _ _ _ _ _ _ _ _ _ hopen =>
      exact fun hclosed => absurd (hopen.symm.trans hclosed) (by decide)
  | acked _ _ _ hrange htx hstate =>
      intro hclosed
      rw [htx]
      exact h.ackn_eq hrange (hstate.txClosed hclosed)
  | @stored seg c₀ _ _ hstores htx _ hwrote _ ht hstate =>
      intro hclosed
      have hwas := hstate.txClosed hclosed
      have hw : c.connectionState.wroteFin = true :=
        hwas.elim ConnectionState.wroteFin_of_txClosed And.left
      have hqueue : c₀.tx.tx = c.tx.tx := by
        rw [htx]
        rfl
      rw [ht.unack, ht.next, Traced.outSegment_of_wroteFin hwf hqueue hwrote hw, BitVec.add_zero,
        htx]
      exact h.ackn_eq hstores.range hwas
  | synAcked hst => exact early hst rfl
  | opened _ _ _ _ _ _ _ hstate => exact early hstate rfl

section Close

variable [UserTime Time]

theorem Reachable.allAcknowledged (h : Reachable c) : AllAcknowledged c := by
  refine txInvariant ?_ (fun c op out c' hwf hp _ effect => hp.step hwf effect) h
  intro c hinit
  have hidle := hinit.fresh.2.2
  refine .of_not_wroteFin ?_
  cases hst : c.connectionState <;> simp_all [ConnectionState.idle, ConnectionState.wroteFin]

/-- What the close reduction of a step shows about the connection before it. -/
inductive Concludes (c : Connection Addr Time) : Op Time → Output → Prop
  /-- Both directions were closed already. -/
  | called {out : Output} (htx : c.connectionState.txClosed = true)
      (hread : c.connectionState.readClosed = true) : Concludes c .callClose out
  /-- The last read comes back short. -/
  | drained {bufferLen : Nat} {data : List UInt8} (htx : c.connectionState.txClosed = true)
      (hshort : data.length < bufferLen) :
      Concludes c (.callRecv bufferLen) (.recv (.ok data))
  /-- Our FIN is acknowledged. -/
  | finAcked {seg : SegmentMeta} {out : Output} (hwrote : c.connectionState.wroteFin = true)
      (hread : c.connectionState.readClosed = true) (hrst : seg.hasRst = false)
      (hack : seg.hasAck = true) (hackn : seg.ackn = c.tx.next) : Concludes c (.onSegment seg) out

/-- The close reduction takes a connection to Closed in three ways. -/
theorem ClosesDirectly.concludes (h : c.ClosesDirectly op c') (hop : op ≠ .callConnect)
    (hc : c.step op = .ok (c', out)) : c.Concludes op out := by
  obtain ⟨hest, hclosed, hclears⟩ := h
  have hpeer : c.Peered := .inl (ConnectionState.synced_of_isEstablished hest)
  cases opStep_of_ok hc with
  | callConnect => exact absurd rfl hop
  | callAbort | onTimeTick => cases hclears
  | setOptions => exact absurd hclosed hpeer.not_closed
  | callSend hc =>
      cases (sendStep_of_ok hc).2 with
      | refused | delayed | queued => exact absurd hclosed hpeer.not_closed
      | @sent q _ _ _ _ _ _ _ hsend =>
          exact absurd hclosed (sendAck_not_closed (c := c.withQueue q) hpeer hsend)
  | callRecv hc =>
      cases recvStep_of_ok hc with
      | refused | ended | early | waiting | read | full => exact absurd hclosed hpeer.not_closed
      | drained hs _ hlen =>
          rw [stateSet_connectionState, reduced_eq_closed_iff] at hclosed
          rcases hclosed with h | h
          · obtain ⟨rfl, -, rfl, rfl⟩ := ConnectionState.established.inj h
            exact .drained (by rw [hs]; rfl) hlen
          · cases h
  | callShutdown hc =>
      cases shutdownStep_of_ok hc with
      | refused | delayed => exact absurd hclosed hpeer.not_closed
      | cleared hs => rcases hs with hs | hs <;> rw [hs] at hest <;> cases hest
      | early hs => rw [hs] at hest; cases hest
      | active _ _ _ _ hsend =>
          refine absurd hclosed (sendAck_not_closed (.inl ?_) hsend)
          rw [withQueue_connectionState, entered_connectionState]
          rfl
      | passive _ _ _ _ hsend =>
          exact absurd hclosed (sendAck_not_closed (c := c.marked) hpeer hsend)
  | callClose hc =>
      cases closeStep_of_ok hc with
      | refused | delayed => exact absurd hclosed hpeer.not_closed
      | cleared hs => rcases hs with hs | hs <;> rw [hs] at hest <;> cases hest
      | early hs => rw [hs] at hest; cases hest
      | opened hs _ _ hsend =>
          have hstate := (sendAck_spec hsend).state
          rw [closing_connectionState, reduced_eq_closed_iff] at hclosed
          rcases hclosed with h | h
          · obtain ⟨htx, -⟩ := ConnectionState.established.inj h
            rw [withQueue_connectionState, hs] at hstate
            rw [hstate] at htx
            split at htx <;> cases htx
          · cases h
      | ended hs =>
          rw [closing_connectionState, reduced_eq_closed_iff, hs] at hclosed
          rcases hclosed with h | h
          · obtain ⟨rfl, hr, -, hca⟩ := ConnectionState.established.inj h
            have hr : _ = ChannelState.closed := hr
            subst hr
            exact .called (by rw [hs]; rfl) (by rw [hs]; rfl)
          · cases h
  | @onSegment seg _ hc =>
      obtain ⟨-, -, hrst, -, hack, -, c₁, c₂, h₁, h₂, hst₂⟩ :=
        reachesClose_of_closed hpeer hc hclosed
      have hframe := h₁.acknowledged.frame
      rcases onFinAcked_peered (h₁.peered (c := c.windowed seg) hpeer).1 h₂ with
        ⟨-, hs₂, -⟩ | ⟨⟨hst₁, hackn⟩, -⟩
      · exact absurd hst₂ hs₂.not_closed
      · rw [hframe.1, opened_connectionState, if_neg, windowed_connectionState] at hst₁
        · exact .finAcked (by rw [hst₁]; rfl) (by rw [hst₁]; rfl) hrst hack
            (hackn.trans hframe.2.2.2.1)
        · intro hrec
          rw [windowed_connectionState] at hrec
          rw [hrec] at hest
          cases hest

end Close

end Connection

/-- Everything the application of `x` wrote has been stored by its peer, which
has read it or still holds it unless it is gone. -/
def HandedOver (x y : Endpoint Addr Time) : Prop :=
  y.state.gone = false → y.read ++ y.conn.rx.bytes = x.written

namespace Linked

variable {x y : Endpoint Addr Time} {isn : SeqN} {ch : Channel Symbol}

/-- What is acknowledged up to the next number is all that was sent. -/
theorem stored_all (h : Linked x y isn ch) (hidle : x.state.idle = false)
    (hshort : x.carried < 2 ^ 31) {m : Nat} (hm : m ≤ ch.stored.length)
    (hnext : x.conn.tx.next = isn + BitVec.ofNat 32 m) : ch.stored = ch.sent := by
  have hlen := h.sending.wired.length_le hshort
  have hle := h.delivers.stored.length_le
  rw [TxBuffer.maxLength] at hlen
  have heq := (h.sending.buffered hidle).realises.next.symm.trans hnext
  have hall : ch.sent.length = m := (Circular.add_ofNat_inj isn (by omega) (by omega)).mp heq
  exact h.delivers.stored.eq_of_length (by omega)

/-- Once the FIN is written, nothing waits in the output queue. -/
theorem handedOver (h : Linked x y isn ch) (hwf : Connection.WellFormed x.conn)
    (hwrote : x.state.wroteFin = true) (hall : ch.stored = ch.sent) : HandedOver x y := by
  intro hgone
  have hb := h.sending.buffered (ConnectionState.not_idle_of_wroteFin hwrote)
  have hqueue := hb.queue
  rw [hwf.marked (hwf.wroteFin hwrote), List.append_nil] at hqueue
  have hpeer : y.conn.Peered := by
    by_contra hno
    exact hb.opened (hall.symm.trans (h.receiving.unopened hno))
  rw [(h.receiving.holds hpeer).bytes, hall, hqueue]

end Linked

namespace Net

variable {n n' : Net Addr Time} {x : Side} {op : Op Time}

theorem Joint.finished (h : Joint n) (x : Side) : Finished (n.get x) (n.get x.other) := by
  cases h.link x with
  | final _ hf => exact hf
  | live _ hl => exact .of_received hl.delivers hl.sending (h.wellFormed x) hl.receiving.received

/-- The other side of the other side. -/
theorem link_back (h : Joint n) (x : Side) : Link (n.get x.other) (n.get x) := by
  have := h.link x.other
  rwa [show x.other.other = x by cases x <;> rfl] at this

theorem finished_back (h : Joint n) (x : Side) : Finished (n.get x.other) (n.get x) := by
  have := h.finished x.other
  rwa [show x.other.other = x by cases x <;> rfl] at this

/-- A side whose stream was read to its end has read everything. -/
theorem read_of_ended (h : Joint n) (hended : (n.get x).ended = true) :
    (n.get x).read = (n.get x.other).written := ((finished_back h x).ended hended).1

/-- A closed read side has read to the end. -/
theorem ended_of_readClosed (h : Joint n) (hread : (n.get x).state.readClosed = true) :
    (n.get x).ended = true := by
  have hlive := ConnectionState.not_gone_of_readClosed hread
  cases link_back h x with
  | final hgone => exact absurd (hgone.symm.trans hlive) (by decide)
  | live _ hl => exact hl.receiving.readClosed hread

/-- A write side whose every number is acknowledged has handed over its stream. -/
theorem handedOver_of_ackn (h : Joint n) (hshort : n.Short)
    (hwrote : (n.get x).state.wroteFin = true)
    (hacked : ∀ isn ch, Linked (n.get x) (n.get x.other) isn ch →
      ∃ m, m ≤ ch.stored.length ∧ (n.get x).conn.tx.next = isn + BitVec.ofNat 32 m) :
    HandedOver (n.get x) (n.get x.other) := by
  intro hgone
  cases h.link x with
  | final hgone' => exact absurd (hgone'.symm.trans hgone) (by decide)
  | @live _ isn ch hl =>
      have hidle := ConnectionState.not_idle_of_wroteFin hwrote
      obtain ⟨m, hm, hnext⟩ := hacked isn ch hl
      exact hl.handedOver (h.wellFormed x) hwrote (hl.stored_all hidle (hshort x) hm hnext) hgone

variable [UserTime Time]

/-- A closed write side has handed over its stream. -/
theorem handedOver_of_txClosed (run : Reachable n) (h : Joint n) (hshort : n.Short)
    (hclosed : (n.get x).state.txClosed = true) : HandedOver (n.get x) (n.get x.other) := by
  have hwrote := ConnectionState.wroteFin_of_txClosed hclosed
  refine handedOver_of_ackn h hshort hwrote fun isn ch hl => ?_
  have hidle := ConnectionState.not_idle_of_wroteFin hwrote
  obtain ⟨hack, -⟩ := hl.acks (ConnectionState.not_gone_of_not_idle hidle)
  refine ⟨ch.acked, hack.acked, ?_⟩
  rw [← Connection.Reachable.allAcknowledged (run.conn x) hclosed]
  exact (hl.sending.buffered hidle).realises.unack

/-- The step that concludes a close finds the stream handed over. -/
theorem handedOver_of_concludes (run : Reachable n) (h : Joint n) (hshort : n.Short)
    (hperm : n.Permitted x op) {out : Output} (hend : (n.get x).conn.Concludes op out) :
    HandedOver (n.get x) (n.get x.other) := by
  cases hend with
  | called htx => exact handedOver_of_txClosed run h hshort htx
  | drained htx => exact handedOver_of_txClosed run h hshort htx
  | @finAcked seg _ hwrote hread hrst hack hackn =>
      refine handedOver_of_ackn h hshort hwrote fun isn ch hl => ?_
      have hlive := ConnectionState.not_gone_of_readClosed hread
      obtain ⟨m, -, hm, heq⟩ := (hl.acks hlive).2 seg hperm hrst hack
      exact ⟨m, hm, hackn.symm.trans heq⟩

/-- The step that reduces a close to Closed. -/
theorem complete_of_closesDirectly (run : Reachable n)
    (hs : (system Addr Time).step n (x, op) n') (hshort : n'.Short)
    (hdirect : (n.get x).conn.ClosesDirectly op (n'.get x).conn) :
    (n'.get x).read = (n'.get x.other).written ∧ HandedOver (n'.get x) (n'.get x.other) := by
  have hshort₀ : n.Short := fun y => Nat.lt_of_le_of_lt (Joint.carried_mono hs y) (hshort y)
  have h := Joint.of_reachable run hshort₀
  have whole := read_of_ended (x := x) (h.step hshort₀ hs)
  obtain ⟨hperm, c', out, hc, rfl⟩ := hs
  change (n.get x).conn.step op = .ok (c', out) at hc
  have hop : op ≠ .callConnect := by
    rintro rfl
    exact hperm
  rw [get_set] at hdirect whole ⊢
  rw [get_set_other] at whole ⊢
  have hconcl := hdirect.concludes hop hc
  have hover := handedOver_of_concludes run h hshort₀ hperm hconcl
  refine ⟨whole ?_, ?_⟩
  · -- Either the read side was closed before, or this read closes it.
    cases hconcl with
    | called _ hread | finAcked _ hread =>
        exact Bool.or_eq_true_iff.mpr (.inl (ended_of_readClosed h hread))
    | drained _ hlen => exact Bool.or_eq_true_iff.mpr (.inr (decide_eq_true hlen))
  · -- The step writes nothing.
    have hwritten : ((n.get x).after op c' out).written = (n.get x).written := by
      cases hconcl <;> exact List.append_nil _
    intro hgone
    rw [hwritten]
    exact hover hgone

/-- When an endpoint is in TimeWait, or goes to Closed by the close reduction,
its application has read everything the peer's wrote, and the peer has stored
everything its own wrote. -/
theorem graceful_end_complete (run : Reachable n) :
    (n.Short → ∀ x, (n.get x).state = .timeWait →
      (n.get x).read = (n.get x.other).written ∧ HandedOver (n.get x) (n.get x.other)) ∧
    ∀ x op n', (system Addr Time).step n (x, op) n' → n'.Short →
      (n.get x).conn.ClosesDirectly op (n'.get x).conn →
        (n'.get x).read = (n'.get x.other).written ∧
          HandedOver (n'.get x) (n'.get x.other) := by
  refine ⟨fun hshort x hwait => ?_, fun x op n' hs hshort hdirect => ?_⟩
  · have h := Joint.of_reachable run hshort
    refine ⟨read_of_ended h (ended_of_readClosed h (by rw [hwait]; rfl)), ?_⟩
    exact handedOver_of_txClosed run h hshort (by rw [hwait]; rfl)
  · exact complete_of_closesDirectly run hs hshort hdirect

/-- After an exchange in both directions the server closes directly. -/
theorem graceful_end_complete_server : ∃ n' : Net Unit Nat, n'.server.state = .closed ∧
    n'.server.read = n'.client.written ∧ HandedOver n'.server n'.client ∧
      n'.client.written = [1, 2] ∧ n'.server.written = [3] := by
  obtain ⟨n, run, hlast⟩ : ∃ n : Net Unit Nat, Reachable n ∧
      ((n.next (.server, .onSegment ⟨4#32, 3#32, 0#16, .ack, []⟩)).any fun n' =>
        decide (n'.client.carried < 2 ^ 31 ∧ n'.server.carried < 2 ^ 31 ∧
          n.server.conn.ClosesDirectly (.onSegment ⟨4#32, 3#32, 0#16, .ack, []⟩) n'.server.conn ∧
            n'.client.written = [1, 2] ∧ n'.server.written = [3])) = true :=
    Transition.exists_reachableUnder step_of_next initial_zeroStart
      [(.server, .onSegment ⟨0#32, 0#32, 4096#16, .syn, []⟩),
       (.client, .onSegment ⟨0#32, 1#32, 4096#16, .syn ||| .ack, []⟩),
       (.server, .onSegment ⟨1#32, 1#32, 4096#16, .ack, []⟩),
       (.client, .callSend [1, 2]),
       (.server, .onSegment ⟨1#32, 1#32, 4096#16, .ack, [1, 2]⟩),
       (.server, .callRecv 2),
       (.client, .onSegment ⟨1#32, 3#32, 4094#16, .ack, []⟩),
       (.server, .callSend [3]),
       (.client, .onSegment ⟨1#32, 3#32, 4096#16, .ack, [3]⟩),
       (.client, .callRecv 1),
       (.server, .onSegment ⟨3#32, 2#32, 4095#16, .ack, []⟩),
       (.client, .callClose),
       (.server, .onSegment ⟨3#32, 2#32, 4096#16, .fin ||| .ack, []⟩),
       (.server, .callRecv 1), (.server, .callClose),
       (.client, .onSegment ⟨2#32, 4#32, 0#16, .fin ||| .ack, []⟩)] (by decide)
  obtain ⟨n', hnext, hall⟩ := (Option.any_eq_true _ _).mp hlast
  obtain ⟨hclient, hserver, hdirect, hwritten, hanswer⟩ := of_decide_eq_true hall
  have hshort : n'.Short := by
    rintro (_ | _)
    · exact hclient
    · exact hserver
  obtain ⟨hread, hover⟩ :=
    (graceful_end_complete run).2 _ _ n' (step_of_next n _ n' hnext) hshort hdirect
  exact ⟨n', hdirect.2.1, hread, hover, hwritten, hanswer⟩

end Net

end TcpState
