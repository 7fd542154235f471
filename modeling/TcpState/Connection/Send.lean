import TcpState.Connection.TxEffect

/-!
# The send side along a run

A run is followed together with the segments it puts on the wire for the first
time since the connection was last opened, each with the limits it was sent
under. On this trace the send window and the FIN are accounted for.
-/

namespace TcpState

/-- A segment put on the wire for the first time, with the oldest
unacknowledged number and the window at that moment. -/
structure Emission where
  seg : SegmentMeta
  unack : SeqN
  window : BitVec 16
deriving DecidableEq, Repr

/-- A connection with what it emitted since it was last opened. -/
structure Traced (Addr Time : Type) where
  conn : Connection Addr Time
  emitted : List Emission

namespace Connection

variable {Addr Time : Type}

/-- The segments of a step that were not sent before. A tick only repeats. -/
def fresh (c : Connection Addr Time) (op : Op Time) (c' : Connection Addr Time) :
    List SegmentMeta :=
  match op with
  | .onTimeTick _ => []
  | _ => c'.userData.sent.drop c.userData.sent.length

variable {c c' : Connection Addr Time} {op : Op Time} {s : SegmentMeta}

theorem mem_fresh {new : List SegmentMeta} (hs : s ∈ c.fresh op c')
    (hsent : c'.userData.sent = c.userData.sent ++ new) :
    s ∈ new ∧ ∀ time, op ≠ .onTimeTick time := by
  unfold fresh at hs
  split at hs
  · cases hs
  · rename_i hop
    rw [hsent, List.drop_left] at hs
    exact ⟨hs, hop⟩

theorem fresh_of_sent {new : List SegmentMeta} (hop : ∀ time, op ≠ .onTimeTick time)
    (hsent : c'.userData.sent = c.userData.sent ++ new) : c.fresh op c' = new := by
  unfold fresh
  split
  · exact absurd rfl (hop _)
  · rw [hsent, List.drop_left]

/-- Besides new data, FIN and SYN only repetitions take sequence numbers. -/
theorem Remark.seqSize (h : Remark c op s) (hop : ∀ time, op ≠ .onTimeTick time) :
    s.seqSize = 0#32 := by
  cases h with
  | resend htick => exact absurd htick (hop _)
  | ack _ hflags hdata =>
      exact SegmentMeta.seqSize_of_empty (by rw [SegmentMeta.hasSyn, hflags]; decide)
        (by rw [SegmentMeta.hasFin, hflags]; decide) hdata
  | refusal _ _ hsize => exact hsize.2

theorem Parting.seqSize (h : Parting c op s) (hop : ∀ time, op ≠ .onTimeTick time) :
    s.seqSize = 0#32 := by
  cases h with
  | resend htick => exact absurd htick (hop _)
  | abort _ hsize => exact hsize.2
  | stray hflags hdata =>
      exact SegmentMeta.seqSize_of_empty (by rw [SegmentMeta.hasSyn, hflags]; decide)
        (by rw [SegmentMeta.hasFin, hflags]; decide) hdata

end Connection

namespace Traced

open Connection

variable {Addr Time : Type}

/-- The trace starts over when a connection attempt begins. -/
def after (s : Traced Addr Time) (op : Op Time) (c' : Connection Addr Time) :
    Traced Addr Time where
  conn := c'
  emitted :=
    (if s.conn.connectionState.opening = false ∧ c'.connectionState.opening = true then []
      else s.emitted) ++
    (s.conn.fresh op c').map fun seg => ⟨seg, c'.tx.unack, c'.tx.window⟩

variable [UserTime Time]

/-- The runs of one connection with their trace. -/
def system (Addr Time : Type) [UserTime Time] :
    Transition.System (Traced Addr Time) (Op Time) where
  init s := Initial s.conn ∧ s.emitted = []
  step s op s' := ∃ c' out, s.conn.step op = .ok (c', out) ∧ s' = s.after op c'

/-- The traced states reached while every step meets a condition. -/
abbrev ReachableUnder (allowed : Connection Addr Time → Op Time → Prop)
    (s : Traced Addr Time) : Prop :=
  Transition.ReachableUnder (system Addr Time) (fun s op => allowed s.conn op) s

abbrev Reachable (s : Traced Addr Time) : Prop :=
  Transition.Reachable (system Addr Time) s

/-- A connection before its first step. -/
def start (c : Connection Addr Time) : Traced Addr Time := ⟨c, []⟩

theorem init_start {c : Connection Addr Time} (h : Initial c) :
    (system Addr Time).init (start c) :=
  ⟨h, rfl⟩

/-- The trace is only watched: the connection takes the same run. -/
theorem ReachableUnder.conn {allowed : Connection Addr Time → Op Time → Prop}
    {s : Traced Addr Time} (h : ReachableUnder allowed s) :
    Connection.ReachableUnder allowed s.conn := by
  induction h with
  | start h => exact .start h.1
  | next _ ha hs ih =>
      obtain ⟨c', out, hc, rfl⟩ := hs
      exact .next ih ha ⟨out, hc⟩

theorem ReachableUnder.wellFormed {allowed : Connection Addr Time → Op Time → Prop}
    {s : Traced Addr Time} (h : ReachableUnder allowed s) : WellFormed s.conn :=
  Reachable.wellFormed h.conn.reachable

/-- A property of traces that every effect on the send side preserves holds
along every run. -/
theorem invariant {allowed : Connection Addr Time → Op Time → Prop}
    {P : Traced Addr Time → Prop}
    (hinit : ∀ s : Traced Addr Time, Initial s.conn → s.emitted = [] → P s)
    (hstep : ∀ (s : Traced Addr Time) op out c', WellFormed s.conn → P s →
      allowed s.conn op → TxEffect s.conn op out c' → P (s.after op c'))
    {s : Traced Addr Time} (h : ReachableUnder allowed s) : P s := by
  induction h with
  | start h => exact hinit _ h.1 h.2
  | next run ha hs ih =>
      obtain ⟨c', out, hc, rfl⟩ := hs
      have hwf := ReachableUnder.wellFormed run
      exact hstep _ _ out _ hwf ih ha (hwf.txEffect hc)

/-- The traced step as a partial function. -/
def next (s : Traced Addr Time) (op : Op Time) : Option (Traced Addr Time) :=
  (s.conn.next op).map (s.after op)

theorem step_of_next (s : Traced Addr Time) (op : Op Time) (s' : Traced Addr Time)
    (h : s.next op = some s') : (system Addr Time).step s op s' := by
  obtain ⟨c', hc, rfl⟩ := Option.map_eq_some_iff.mp h
  obtain ⟨out, hc⟩ := Connection.step_of_next _ _ _ hc
  exact ⟨c', out, hc, rfl⟩

end Traced

namespace Connection

variable {Addr Time : Type} [UserTime Time]

section Window

/-- The sequence numbers in flight. -/
def inFlight (c : Connection Addr Time) : Nat := Circular.span c.tx.unack c.tx.next

/-- Where `send_ack` finds something to send, no more is in flight than the
window allows. -/
def WindowHolds (c : Connection Addr Time) : Op Time → Prop
  | .callSend inputData =>
      c.connectionState.isEstablished = true → c.tx.unackHasSpace = true →
        maxSegmentSize ≤ c.tx.tx.bytes.length + inputData.length ∨
            c.options.nagleDelay = Duration.zero →
          c.inFlight ≤ c.tx.window.toNat
  | .callShutdown | .callClose =>
      c.Peered → c.connectionState.wroteFin = false → c.tx.tx.bytes = [] → c.noSenders →
        c.inFlight ≤ c.tx.window.toNat
  | .onSegment seg =>
      c.Stores seg →
        c.tx.tx.bytes ≠ [] ∨ c.tx.tx.fin = true ∧ c.connectionState.wroteFin = false →
          Circular.span seg.ackn c.tx.next ≤ (c.windowAfter seg).toNat
  | _ => True

instance (c : Connection Addr Time) : DecidablePred c.WindowHolds
  | .callSend _ => inferInstanceAs (Decidable (_ → _))
  | .callShutdown | .callClose => inferInstanceAs (Decidable (_ → _))
  | .onSegment _ => inferInstanceAs (Decidable (_ → _))
  | .callConnect | .callRecv _ | .callAbort | .setOptions _ | .onTimeTick _ => .isTrue trivial

omit [UserTime Time] in
/-- What `send_ack` takes ends within a window that covers what is in flight. -/
theorem outSegment_withinWindow {c : Connection Addr Time}
    (h : c.inFlight ≤ c.tx.window.toNat) :
    Circular.span c.tx.unack c.outSegment.seqnAfter ≤ c.tx.window.toNat := by
  have hfits := c.outSegment_fits
  have hwin := c.tx.window.isLt
  have hspan := Circular.add_ofNat_span c.tx.unack c.tx.next
  have hspace : c.tx.spaceAvailable.toNat = c.tx.window.toNat - c.inFlight :=
    c.tx.spaceAvailable_toNat.trans (if_pos h)
  have hafter : c.outSegment.seqnAfter = c.tx.unack +
      BitVec.ofNat 32 (c.inFlight + (c.outData.length + c.sendsFin.toNat)) := by
    rw [SegmentMeta.seqnAfter, outSegment_seqSize, ← Circular.add_ofNat_add c.tx.unack, inFlight,
      hspan]
    rfl
  rw [hafter, Circular.span_add_ofNat _ (by omega)]
  omega

omit [UserTime Time] in
/-- The trace of a call of `send_ack`. -/
theorem TxSent.mem_fresh {c c₀ c' : Connection Addr Time} {op : Op Time} {s : SegmentMeta}
    (h : TxSent c₀ c') (hsent : c₀.userData.sent = c.userData.sent) (hs : s ∈ c.fresh op c') :
    s = c₀.outSegment := by
  have hlog := h.sent
  rw [hsent] at hlog
  have hmem := (Connection.mem_fresh hs hlog).1
  split at hmem
  · cases hmem
  · exact List.mem_singleton.mp hmem

omit [UserTime Time] in
/-- One step emits within the window it leaves. -/
theorem TxEffect.withinWindow {c c' : Connection Addr Time} {op : Op Time} {out : Output}
    (effect : TxEffect c op out c') (h : WellFormed c) (hallowed : c.WindowHolds op)
    {s : SegmentMeta} (hs : s ∈ c.fresh op c') (hsyn : s.hasSyn = false)
    (hsize : s.seqSize ≠ 0#32) :
    Circular.span c'.tx.unack s.seqnAfter ≤ c'.tx.window.toNat := by
  have sent {c₀ : Connection Addr Time} (ht : TxSent c₀ c')
      (hsent : c₀.userData.sent = c.userData.sent)
      (hwin : c₀.outSegment.seqSize ≠ 0#32 → c₀.inFlight ≤ c₀.tx.window.toNat) :
      Circular.span c'.tx.unack s.seqnAfter ≤ c'.tx.window.toNat := by
    obtain rfl := ht.mem_fresh hsent hs
    rw [ht.unack, ht.window]
    exact outSegment_withinWindow (hwin hsize)
  cases effect with
  | kept _ _ _ hlog hnew =>
      obtain ⟨hmem, hop⟩ := mem_fresh hs hlog
      exact absurd ((hnew s hmem).seqSize hop) hsize
  | cleared _ _ _ _ hlog hnew =>
      obtain ⟨hmem, hop⟩ := mem_fresh hs hlog
      exact absurd ((hnew s hmem).seqSize hop) hsize
  | acked _ _ _ _ _ _ hlog hnew =>
      obtain ⟨hmem, hop⟩ := mem_fresh hs hlog
      exact absurd ((hnew s hmem).seqSize hop) hsize
  | connecting _ _ hc =>
      obtain ⟨hmem, -⟩ := mem_fresh hs hc.sent
      rw [List.mem_singleton.mp hmem] at hsyn
      exact absurd (SegmentFlags.contains_syn.1.symm.trans hsyn) (by decide)
  | answered _ _ _ hc =>
      obtain ⟨hmem, -⟩ := mem_fresh hs hc.sent
      rw [List.mem_singleton.mp hmem] at hsyn
      exact absurd (SegmentFlags.contains_synAck.1.symm.trans hsyn) (by decide)
  | queued _ _ _ _ _ hsent =>
      obtain ⟨hmem, -⟩ := mem_fresh hs (hsent.trans (List.append_nil _).symm)
      cases hmem
  | @appended inputData q _ _ _ hout hopen hwrote hq hspace ht =>
      obtain ⟨r, cc, ca, hst⟩ := ConnectionState.eq_established_opened hopen hwrote
      refine sent ht rfl fun _ => hallowed (by rw [hst]; rfl) hspace.1 ?_
      obtain ⟨hbytes, -⟩ := BlobQueue.writeBytes_spec hq
      rw [← List.length_append, ← hbytes, ← BlobQueue.availableBytes_eq]
      exact hspace.2.imp_right And.right
  | @marked _ _ c₀ _ hop hpeer hwrote hempty hw htx hrx _ hsent ht =>
      have hwin : c.inFlight ≤ c.tx.window.toNat := by
        rcases hop with rfl | rfl <;> exact hallowed hpeer hwrote hempty hw
      refine sent ht hsent fun _ => ?_
      rw [inFlight, htx]
      exact hwin
  | @stored seg c₀ _ hpeer hstores htx hrx hwrote hsent ht =>
      refine sent ht hsent fun hsize' => ?_
      have hqueue : c₀.tx.tx = c.tx.tx := by rw [htx]; rfl
      have hsomething : c.tx.tx.bytes ≠ [] ∨
          c.tx.tx.fin = true ∧ c.connectionState.wroteFin = false := by
        by_contra hnone
        obtain ⟨hbytes, hfin⟩ := not_or.mp hnone
        rw [not_not] at hbytes
        refine hsize' (c₀.outSegment_seqSize_eq_zero.mpr ⟨?_, ?_⟩)
        · rw [outData, hqueue, hbytes, List.take_nil]
        · by_contra hs
          obtain ⟨-, hf, hw⟩ := sendsFin_iff.mp (by simpa using hs)
          rw [hqueue] at hf
          exact hfin ⟨hf, hwrote.symm.trans hw⟩
      have := hallowed hstores hsomething
      rw [inFlight, htx]
      exact this
  | synAcked =>
      obtain ⟨hmem, -⟩ := mem_fresh hs
        ((clearReTxRange_sent _ _).trans (List.append_nil _).symm)
      cases hmem
  | @opened seg _ hst _ _ _ _ heq ht =>
      have hsent : ((c.synAcked seg).entered .fullyOpen).userData.sent = c.userData.sent := by
        rw [entered_sent]
        exact clearReTxRange_sent _ _
      refine sent ht hsent fun _ => ?_
      have hzero : ((c.synAcked seg).entered .fullyOpen).inFlight = 0 := by
        rw [inFlight, entered_tx]
        change Circular.span seg.ackn c.tx.next = 0
        rw [heq, (h.opening (by rw [hst]; rfl)).2, Circular.span_self]
      rw [hzero]
      exact Nat.zero_le _

/-- Every segment `send_ack` emits with data or FIN ends within the window,
while no more is in flight than the window whenever it has something to send. -/
theorem emitted_withinWindow {s : Traced Addr Time} (h : Traced.ReachableUnder WindowHolds s) :
    ∀ e ∈ s.emitted, e.seg.hasSyn = false → e.seg.seqSize ≠ 0#32 →
      Circular.span e.unack e.seg.seqnAfter ≤ e.window.toNat := by
  refine Traced.invariant (P := fun s => ∀ e ∈ s.emitted, e.seg.hasSyn = false →
    e.seg.seqSize ≠ 0#32 → Circular.span e.unack e.seg.seqnAfter ≤ e.window.toNat) ?_ ?_ h
  · intro s _ hempty
    rw [hempty]
    exact nofun
  · intro s op out c' hwf hp hallowed effect e he hsyn hsize
    rcases List.mem_append.mp he with he | he
    · refine hp e ?_ hsyn hsize
      split at he
      · cases he
      · exact he
    · obtain ⟨seg, hseg, rfl⟩ := List.mem_map.mp he
      exact effect.withinWindow hwf hallowed hseg hsyn hsize

/-- Two bytes are sent within a window of three. -/
theorem emitted_withinWindow_two : ∃ s : Traced Unit Nat,
    s.emitted.map (·.seg.data) = [[], [], [1, 2]] ∧
      ∀ e ∈ s.emitted, e.seg.hasSyn = false → e.seg.seqSize ≠ 0#32 →
        Circular.span e.unack e.seg.seqnAfter ≤ e.window.toNat := by
  obtain ⟨s, hreach, hdata⟩ : ∃ s : Traced Unit Nat, Traced.ReachableUnder WindowHolds s ∧
      s.emitted.map (·.seg.data) = [[], [], [1, 2]] :=
    Transition.exists_reachableUnder Traced.step_of_next
      (Traced.init_start (initial_listening () .default zeroUser))
      [.onSegment ⟨100#32, 0#32, 3#16, .syn, []⟩,
       .onSegment ⟨101#32, 1#32, 3#16, .ack, []⟩, .callSend [1, 2]] (by decide)
  exact ⟨s, hdata, emitted_withinWindow hreach⟩

/-- Once the peer's window is smaller than what is in flight, more is sent. -/
theorem emitted_exceeds : ¬ ∀ s : Traced Unit Nat, Traced.Reachable s →
    ∀ e ∈ s.emitted, e.seg.hasSyn = false → e.seg.seqSize ≠ 0#32 →
      Circular.span e.unack e.seg.seqnAfter ≤ e.window.toNat := by
  intro hall
  obtain ⟨s, hreach, e, he, hsyn, hsize, hspan⟩ : ∃ s : Traced Unit Nat, Traced.Reachable s ∧
      ∃ e ∈ s.emitted, e.seg.hasSyn = false ∧ e.seg.seqSize ≠ 0#32 ∧
        ¬ Circular.span e.unack e.seg.seqnAfter ≤ e.window.toNat :=
    Transition.exists_reachableUnder Traced.step_of_next
      (Traced.init_start (initial_listening () .default zeroUser))
      [.onSegment ⟨100#32, 0#32, 3#16, .syn, []⟩,
       .onSegment ⟨101#32, 1#32, 3#16, .ack, []⟩, .callSend [1, 2, 3],
       .callSend [4], .onSegment ⟨101#32, 1#32, 1#16, .ack, [9]⟩] (by decide)
  exact hspan (hall s hreach e he hsyn hsize)

end Window

section Fin

/-- A shutdown or close during the handshake finds room for its FIN. -/
def FinDeparts (c : Connection Addr Time) : Op Time → Prop
  | .callShutdown | .callClose =>
      c.connectionState = .synReceived → c.noSenders → c.tx.spaceAvailable ≠ 0#32
  | _ => True

instance (c : Connection Addr Time) : DecidablePred c.FinDeparts
  | .callShutdown | .callClose => inferInstanceAs (Decidable (_ → _))
  | .callConnect | .callSend _ | .callRecv _ | .callAbort | .setOptions _ | .onTimeTick _
  | .onSegment _ =>
      .isTrue trivial

end Fin

end Connection

namespace Traced

variable {Addr Time : Type}

/-- Our FIN was emitted and takes the sequence number before the next one. -/
def FinEmitted (s : Traced Addr Time) : Prop :=
  ∃ e ∈ s.emitted, e.seg.hasFin = true ∧ e.seg.lastSeqn = s.conn.tx.next - 1#32

/-- The write state and the FIN on the wire agree. -/
structure FinAccounted (s : Traced Addr Time) : Prop where
  emitted : s.conn.connectionState.wroteFin = true → s.FinEmitted
  acknowledged : s.conn.connectionState.txClosed = true → s.conn.tx.unack = s.conn.tx.next

variable {s : Traced Addr Time} {op : Op Time} {c' : Connection Addr Time}

/-- A FIN stays accounted for while nothing else is sent. -/
theorem FinEmitted.after (h : s.FinEmitted) (hopen : c'.connectionState.opening = false)
    (hnext : c'.tx.next = s.conn.tx.next) : (s.after op c').FinEmitted := by
  obtain ⟨e, he, hfin, hlast⟩ := h
  refine ⟨e, List.mem_append_left _ ?_, hfin, ?_⟩
  · rw [if_neg (by rw [hopen]; exact nofun)]
    exact he
  · change _ = c'.tx.next - 1#32
    rw [hnext, hlast]

/-- A FIN that `send_ack` took is on the wire. -/
theorem finEmitted_of_sendsFin {c₀ : Connection Addr Time} (hop : ∀ time, op ≠ .onTimeTick time)
    (ht : Connection.TxSent c₀ c') (hsent : c₀.userData.sent = s.conn.userData.sent)
    (hfin : c₀.sendsFin = true) : (s.after op c').FinEmitted := by
  have hskip : ¬ c₀.skipsRepeat := by
    rintro ⟨hsize, -⟩
    rw [Connection.outSegment_seqSize_eq_zero, hfin] at hsize
    cases hsize.2
  have hlog := ht.sent
  rw [hsent, if_neg hskip] at hlog
  refine ⟨⟨c₀.outSegment, c'.tx.unack, c'.tx.window⟩, List.mem_append_right _ ?_, ?_, ?_⟩
  · rw [Connection.fresh_of_sent hop hlog]
    exact List.mem_singleton_self _
  · exact c₀.outSegment_hasFin.trans hfin
  · change c₀.outSegment.seqnAfter - 1#32 = c'.tx.next - 1#32
    rw [ht.next]
    rfl

theorem FinAccounted.of_notWritten (hwrote : s.conn.connectionState.wroteFin = false) :
    FinAccounted s where
  emitted := fun h => by rw [hwrote] at h; cases h
  acknowledged := fun h => by
    have := ConnectionState.wroteFin_of_txClosed h
    rw [hwrote] at this
    cases this

/-- After our FIN `send_ack` has nothing more to send. -/
theorem outSegment_of_wroteFin {c c₀ : Connection Addr Time} (h : Connection.WellFormed c)
    (hqueue : c₀.tx.tx = c.tx.tx)
    (hwrote : c₀.connectionState.wroteFin = c.connectionState.wroteFin)
    (hw : c.connectionState.wroteFin = true) : c₀.outSegment.seqSize = 0#32 := by
  refine c₀.outSegment_seqSize_eq_zero.mpr ⟨?_, ?_⟩
  · rw [Connection.outData, hqueue, h.marked (h.wroteFin hw), List.take_nil]
  · rw [Connection.sendsFin, hwrote, hw]
    simp

/-- An acknowledgement in range of a closed write side is for everything. -/
theorem FinAccounted.acked_next (hp : FinAccounted s) {seg : SegmentMeta}
    (hrange : seg.ackn.inRangeInclusive s.conn.tx.unack s.conn.tx.next = true)
    (hclosed : s.conn.connectionState.txClosed = true ∨
      s.conn.connectionState.wroteFin = true ∧ seg.ackn = s.conn.tx.next) :
    seg.ackn = s.conn.tx.next := by
  rcases hclosed with hcl | ⟨-, hackn⟩
  · rw [hp.acknowledged hcl, SeqN.inRangeInclusive_iff, Circular.span_self, Nat.le_zero,
      Circular.span_eq_zero_iff] at hrange
    exact hrange
  · exact hackn

/-- One step keeps the FIN accounted for. -/
theorem FinAccounted.step {out : Output} (hp : FinAccounted s)
    (effect : Connection.TxEffect s.conn op out c') (h : Connection.WellFormed s.conn)
    (hallowed : s.conn.FinDeparts op) : FinAccounted (s.after op c') := by
  have open_of (hw : c'.connectionState.wroteFin = true) :
      c'.connectionState.opening = false :=
    ConnectionState.opening_of_wroteFin hw
  cases effect with
  | kept _ htx hstate =>
      rcases hstate with heq | ⟨-, hsync, hwrote, hclosed⟩
      · constructor
        · intro hw
          have hw' : s.conn.connectionState.wroteFin = true := by rw [← heq]; exact hw
          exact (hp.emitted hw').after (open_of hw) htx.next
        · intro hcl
          have hcl' : s.conn.connectionState.txClosed = true := by rw [← heq]; exact hcl
          exact htx.unack.trans ((hp.acknowledged hcl').trans htx.next.symm)
      · constructor
        · exact fun hw => (hp.emitted (hwrote.symm.trans hw)).after (open_of hw) htx.next
        · exact fun hcl => htx.unack.trans
            ((hp.acknowledged (hclosed.symm.trans hcl)).trans htx.next.symm)
  | cleared _ hidle =>
      refine .of_notWritten (s := s.after op c') ?_
      change c'.connectionState.wroteFin = false
      cases hst : c'.connectionState <;>
        simp_all [ConnectionState.idle, ConnectionState.wroteFin]
  | connecting _ _ hc =>
      exact .of_notWritten (s := s.after _ c') (by rw [after, hc.state]; rfl)
  | answered _ _ _ hc =>
      exact .of_notWritten (s := s.after _ c') (by rw [after, hc.state]; rfl)
  | queued _ hs _ _ hstate =>
      refine .of_notWritten (s := s.after _ c') ?_
      change c'.connectionState.wroteFin = false
      rw [hstate]
      rcases hs with hs | ⟨-, hs⟩
      · cases hst : s.conn.connectionState <;>
          simp_all [ConnectionState.opening, ConnectionState.wroteFin]
      · exact hs
  | appended _ _ _ hwrote _ _ _ hstate =>
      refine .of_notWritten (s := s.after _ c') ?_
      change c'.connectionState.wroteFin = false
      rw [hstate, hwrote]
  | @marked _ _ c₀ _ hop hpeer hwrote hempty hw htx hrx hwrote₀ hsent ht hsync hfin hearly _
      hopen =>
      constructor
      · intro hw'
        have htick (time : Time) : op ≠ .onTimeTick time := by
          rcases hop with rfl | rfl <;> exact fun h => by cases h
        refine finEmitted_of_sendsFin htick ht hsent ?_
        rcases hearly hw' with hs | hst
        · exact hs
        · have hroom : s.conn.tx.spaceAvailable ≠ 0#32 := by
            rcases hop with rfl | rfl <;> exact hallowed hst hw
          have hbytes : c₀.tx.tx.bytes = [] := by rw [htx]; exact hempty
          have hmark : c₀.tx.tx.fin = true := by rw [htx]; rfl
          have hspace : c₀.tx.spaceAvailable ≠ 0#32 := by rw [htx]; exact hroom
          rw [ne_eq, ← BitVec.toNat_inj, BitVec.toNat_ofNat] at hspace
          refine Connection.sendsFin_iff.mpr ⟨?_, hmark, hwrote₀⟩
          rw [hbytes, Connection.outLimit, maxSegmentSize, List.length_nil]
          omega
      · intro hcl
        exact absurd (hopen.symm.trans hcl) (by decide)
  | @acked seg _ _ hpeer _ _ hrange htx hstate =>
      have hnext : c'.tx.next = s.conn.tx.next := by rw [htx]; rfl
      constructor
      · intro hw
        have hw' : s.conn.connectionState.wroteFin = true :=
          (Bool.or_false _).symm.trans (hstate.wroteFin.symm.trans hw)
        exact (hp.emitted hw').after (open_of hw) hnext
      · intro hcl
        change c'.tx.unack = c'.tx.next
        rw [hnext, htx]
        exact hp.acked_next hrange (hstate.txClosed hcl)
  | @stored seg c₀ _ hpeer hstores htx hrx hwrote hsent ht hstate =>
      have hqueue : c₀.tx.tx = s.conn.tx.tx := by rw [htx]; rfl
      have hnext (hw : s.conn.connectionState.wroteFin = true) :
          c'.tx.next = s.conn.tx.next := by
        rw [ht.next, outSegment_of_wroteFin h hqueue hwrote hw, BitVec.add_zero, htx]
        rfl
      constructor
      · intro hw
        rcases Bool.or_eq_true_iff.mp (hstate.wroteFin.symm.trans hw) with hw' | hfin
        · exact (hp.emitted hw').after (open_of hw) (hnext hw')
        · exact finEmitted_of_sendsFin (fun _ h => by cases h) ht hsent hfin
      · intro hcl
        have hwas := hstate.txClosed hcl
        have hw : s.conn.connectionState.wroteFin = true :=
          hwas.elim ConnectionState.wroteFin_of_txClosed And.left
        change c'.tx.unack = c'.tx.next
        rw [hnext hw, ht.unack, htx]
        exact hp.acked_next hstores.range hwas
  | synAcked hst =>
      exact .of_notWritten (s := s.after _ _) (by
        change s.conn.connectionState.wroteFin = false
        rw [hst]
        rfl)
  | opened _ _ _ _ _ _ _ hstate =>
      exact .of_notWritten (s := s.after _ c') (by rw [after, hstate]; rfl)

variable [UserTime Time]

/-- A write side that is reported closed has its FIN on the wire, acknowledged
once closed, while every close during the handshake finds room for its FIN. -/
theorem finAccounted {s : Traced Addr Time} (h : ReachableUnder Connection.FinDeparts s) :
    s.FinAccounted := by
  refine invariant ?_ ?_ h
  · intro s hinit _
    refine .of_notWritten ?_
    have hidle := hinit.fresh.2.2
    cases hst : s.conn.connectionState <;>
      simp_all [ConnectionState.idle, ConnectionState.wroteFin]
  · intro s op out c' hwf hp hallowed effect
    exact hp.step effect hwf hallowed

/-- A shutdown whose FIN has been acknowledged. -/
theorem finAccounted_shutdown : ∃ s : Traced Unit Nat,
    s.conn.connectionState.txClosed = true ∧ s.FinAccounted := by
  obtain ⟨s, hreach, hclosed⟩ : ∃ s : Traced Unit Nat,
      ReachableUnder Connection.FinDeparts s ∧ s.conn.connectionState.txClosed = true :=
    Transition.exists_reachableUnder step_of_next
      (init_start (Connection.initial_listening () .default Connection.zeroUser))
      [.onSegment ⟨100#32, 0#32, 1000#16, .syn, []⟩, .callShutdown,
       .onSegment ⟨101#32, 2#32, 1000#16, .ack, []⟩] (by decide)
  exact ⟨s, hclosed, finAccounted hreach⟩

/-- A shutdown against a window of one reports a FIN that is never sent. -/
theorem fin_unaccounted : ¬ ∀ s : Traced Unit Nat, Reachable s → s.FinAccounted := by
  intro hall
  obtain ⟨s, hreach, hwrote, hnone⟩ : ∃ s : Traced Unit Nat, Reachable s ∧
      s.conn.connectionState.wroteFin = true ∧
        (s.emitted.any fun e => e.seg.hasFin) = false :=
    Transition.exists_reachableUnder step_of_next
      (init_start (Connection.initial_listening () .default Connection.zeroUser))
      [.onSegment ⟨100#32, 0#32, 1#16, .syn, []⟩, .callShutdown] (by decide)
  obtain ⟨e, he, hfin, -⟩ := (hall s hreach).emitted hwrote
  rw [List.any_eq_false] at hnone
  exact hnone e he hfin

end Traced

end TcpState
