import TcpState.Network.Connecting
import TcpState.Network.Windows

/-!
# A one-way transfer can always be finished

One of two endpoints has written nothing, and neither has left the handshake but
by opening. Whatever has been lost, repeated and reordered so far, deliveries and
reads of the silent side alone bring everything the other side wrote to it, and
the acknowledgement back.
-/

namespace TcpState

open Transfer (Channel)

namespace Connection

variable {Addr Time : Type} {c c' : Connection Addr Time} {seg : SegmentMeta}

/-- With everything acknowledged, an open window and something queued, a segment
takes sequence numbers. -/
theorem outSegment_carries (hsettled : c.tx.unack = c.tx.next) (hfree : c.tx.window ≠ 0#16)
    (hbytes : c.tx.tx.bytes ≠ []) : c.outSegment.Carries := by
  refine ⟨c.outSegment_hasRst, fun hzero => ?_⟩
  have hnil := ((outSegment_seqSize_eq_zero c).mp hzero).1
  rw [outData, List.take_eq_nil_iff] at hnil
  have hlimit := hnil.resolve_right hbytes
  have hspace : c.tx.spaceAvailable.toNat ≠ 0 := fun hz =>
    spaceAvailable_ne_zero hsettled hfree (BitVec.eq_of_toNat_eq hz)
  rw [outLimit, maxSegmentSize] at hlimit
  omega

theorem bareSegment_flags (c : Connection Addr Time) (ackn : SeqN) :
    (c.bareSegment ackn .ack).hasRst = false ∧ (c.bareSegment ackn .ack).hasSyn = false ∧
      (c.bareSegment ackn .ack).hasFin = false ∧ (c.bareSegment ackn .ack).hasAck = true := by
  simp only [SegmentMeta.hasRst, SegmentMeta.hasSyn, SegmentMeta.hasFin, SegmentMeta.hasAck,
    bareSegment]
  decide

variable [UserTime Time]

/-- A segment that carries at most data keeps a fully open connection open. -/
theorem Reachable.stays_open (h : Reachable c) (hst : c.connectionState = .fullyOpen)
    (hplain : seg.Plain) (hfin : seg.hasFin = false) (hc : c.onSegment seg = .ok c') :
    c'.connectionState = .fullyOpen := by
  have hwaits : c.finWaits = false := by
    rw [finWaits, h.queue_unmarked hst, Bool.false_and]
  have hpath := path_onSegment h.wellFormed h.marksActive hc
  rw [hwaits, hst] at hpath
  exact ConnectionState.Path.of_fullyOpen hpath hplain hfin

/-- What a stored segment makes of an open connection. -/
structure TakesOpen (c : Connection Addr Time) (seg : SegmentMeta) (c' : Connection Addr Time) :
    Prop where
  state : c'.connectionState = .fullyOpen
  rx : c.rx.write seg = .ok c'.rx
  tx : ∃ c₀ : Connection Addr Time, c₀.tx = c.ackedTx seg ∧
    c₀.connectionState.wroteFin = false ∧ TxSent c₀ c'

/-- An open connection takes what is next in order unless its congestion
window overflows. -/
theorem Reachable.takes_open (h : Reachable c) (hst : c.connectionState = .fullyOpen)
    (hstores : c.Stores seg) (hfin : seg.hasFin = false) (hmark : c.rx.buffer.fin = false)
    (hover : ¬ c.ackOverflows seg) : ∃ c', c.onSegment seg = .ok c' ∧ TakesOpen c seg c' := by
  have hs : c.Peered := .inl (by rw [hst]; rfl)
  have hwf := h.wellFormed
  have hpanics : ¬ c.ackPanics seg := by
    rintro (hbad | ⟨⟨htx, -⟩, -⟩ | ⟨⟨hclosing, -⟩, -⟩ | ⟨-, -, hbad | ⟨hbad, -⟩⟩)
    · exact hover hbad
    · rw [hst] at htx
      cases htx
    · rw [hst] at hclosing
      cases hclosing
    · rcases hbad with ⟨hbad, -⟩ | ⟨hbad, -⟩
      · exact absurd (hmark.symm.trans hbad) (by decide)
      · exact absurd (hfin.symm.trans hbad) (by decide)
    · exact absurd (hfin.symm.trans hbad) (by decide)
  obtain ⟨c', hc₁⟩ := hwf.onSegment_of_stores hs hstores hpanics
  have hc := hc₁
  rw [onSegment_of_peered hs] at hc
  have hst' := h.stays_open hst ⟨hstores.noRst, hstores.noSyn⟩ hfin hc₁
  refine ⟨c', hc₁, hst', ?_, ?_⟩
  · refine ((onSegment_stores hs hstores hc₁).resolve_left ?_).2
    rw [hst']
    exact Bool.false_ne_true
  · cases synchronizedStep_iff.mp hc with
    | dropped hcheck | rejected hcheck =>
        exact absurd (hcheck.symm.trans hstores.check) Bool.false_ne_true
    | reset _ hrst => exact absurd (hstores.noRst.symm.trans hrst) Bool.false_ne_true
    | syn _ _ hsyn => exact absurd (hstores.noSyn.symm.trans hsyn) Bool.false_ne_true
    | accepted _ _ _ hacc =>
        cases acceptedTx_of_ok hwf hs hstores.check hstores.noRst hstores.noSyn hacc with
        | aside haside => exact absurd hstores haside
        | cleared hidle => rw [hst'] at hidle; cases hidle
        | @stored c₀ _ _ htx hwrote ht =>
            refine ⟨c₀, htx.trans (if_pos ⟨hstores.ack, hstores.range⟩), ?_, ht⟩
            rw [hwrote, hst]
            rfl

/-- An open connection hands out everything it has stored. -/
theorem callRecv_all (hwf : WellFormed c) (hst : c.connectionState = .fullyOpen)
    (hbytes : c.rx.bytes ≠ []) : ∃ rx, c.callRecv c.rx.bytes.length =
      .ok ({ c with rx := rx }, .ok c.rx.bytes) ∧ rx.bytes = [] := by
  have hlen : c.rx.bytes.length ≤ c.rx.availableBytes := le_of_eq c.rx.availableBytes_eq.symm
  obtain ⟨rx, data, hread⟩ : ∃ rx data, c.rx.readBytes c.rx.bytes.length = .ok (rx, data) :=
    RxBuffer.readBytes_succeeds (hwf.readable (by rw [hst]; rfl))
      (Nat.pos_iff_ne_zero.mp (List.length_pos_of_ne_nil hbytes))
      fun hlt => absurd hlt (Nat.lt_irrefl _)
  obtain ⟨hdata, hrest, -⟩ := RxBuffer.readBytes_spec hread
  rw [List.take_length] at hdata
  rw [List.drop_length] at hrest
  subst hdata
  refine ⟨rx, ?_, hrest⟩
  rw [callRecv, hst]
  simp only [ConnectionState.fullyOpen, if_pos hlen, hread]
  rfl

end Connection

variable {Addr Time : Type} {x y : Endpoint Addr Time} {isn : SeqN} {ch : Channel Symbol}

/-- The receiver has sent nothing but its SYN, and everything on the way to it
acknowledges that. -/
structure Quiet (x y : Endpoint Addr Time) : Prop where
  settled : y.conn.tx.unack = y.conn.tx.next
  ackd : x.conn.rx.ackd = y.conn.tx.next
  unread : x.conn.rx.bytes = []
  unmarked : x.conn.rx.buffer.fin = false
  ackns : ∀ s ∈ x.log, s.hasRst = false → s.hasAck = true → s.ackn = y.conn.tx.next

namespace Linked

/-- A side that wrote nothing is quiet once both are open. -/
theorem quiet (h : Linked y x isn ch) (hx : x.state = .fullyOpen) (hy : y.state = .fullyOpen)
    (hsilent : y.written = []) : Quiet x y := by
  have hidle : y.state.idle = false := by rw [hy]; rfl
  have hb := h.sending.buffered hidle
  have hfin := h.fin_notMem hy
  have hqueue := hb.queue
  rw [hsilent, List.append_eq_nil_iff] at hqueue
  have hsent : ch.sent = [.syn] := by
    rcases h.sending.wired.framed.cases with hnil | ⟨data, heq | heq⟩
    · exact absurd hnil hb.opened
    · have hbytes : Symbol.bytes ch.sent = data := by
        rw [heq]
        exact Symbol.bytes_map_byte data
      rw [heq, ← hbytes, hqueue.1]
      rfl
    · rw [heq] at hfin
      simp at hfin
  have hpeer : x.conn.Peered := .inl (by rw [← Endpoint.state, hx]; rfl)
  have hh := h.receiving.holds hpeer
  have hle := h.delivers.stored.length_le
  have hone : ch.stored.length = 1 := by
    have := hh.opened
    rw [hsent] at hle
    exact Nat.le_antisymm hle this
  have hstored : ch.stored = ch.sent :=
    h.delivers.stored.eq_of_length (by rw [hone, hsent]; rfl)
  obtain ⟨hacks, hacked⟩ := h.acks (by rw [hy]; rfl)
  have hackedOne : ch.acked = 1 := by
    have hle := hacks.acked
    have hpos : ch.acked ≠ 0 := fun hzero => by
      rcases (h.sending.handshake hidle hzero).2 with hbad | hbad <;> rw [hy] at hbad <;> cases hbad
    omega
  have hnext : y.conn.tx.next = isn + BitVec.ofNat 32 1 := by
    rw [hb.realises.next, hsent]
    rfl
  constructor
  · rw [hb.realises.unack, hackedOne, hnext]
  · rw [hh.ackd, hone, hnext]
  · have hbytes := hh.bytes
    rw [hstored, hqueue.1, List.append_eq_nil_iff] at hbytes
    exact hbytes.2
  · rw [Bool.eq_false_iff]
    intro hmark
    exact hfin (hstored ▸ hh.fin.mp hmark)
  · intro s hs hrst hack
    obtain ⟨k, hpos, hk, hackn⟩ := hacked s hs hrst hack
    obtain rfl : k = 1 := by omega
    rw [hackn, hnext]

/-- Everything sent is acknowledged when the two numbers of the sender meet. -/
theorem acked_all (h : Linked x y isn ch) (hidle : x.state.idle = false)
    (hshort : x.carried < 2 ^ 31) (hsettled : x.conn.tx.unack = x.conn.tx.next) :
    ch.acked = ch.sent.length := by
  have hr := (h.sending.buffered hidle).realises
  have hlen := h.sending.wired.length_le hshort
  have hle := hr.acked
  rw [TxBuffer.maxLength] at hlen
  rwa [hr.unack, hr.next, Circular.add_ofNat_inj isn (by omega) (by omega)] at hsettled

/-- With nothing left unacknowledged nothing is kept for resending. -/
theorem reTx_nil (h : Linked x y isn ch) (hidle : x.state.idle = false)
    (hshort : x.carried < 2 ^ 31) (hsettled : x.conn.tx.unack = x.conn.tx.next) :
    x.conn.tx.reTx = [] := by
  have hacked := h.acked_all hidle hshort hsettled
  have hnone : ch.pending = [] := by
    rw [List.eq_nil_iff_forall_not_mem]
    intro p hp
    have := (h.acks (ConnectionState.not_gone_of_not_idle hidle)).1.unacked p hp
    omega
  have hcopies := (h.sending.buffered hidle).realises.reTx
  rw [hnone] at hcopies
  exact List.forall₂_nil_right_iff.mp hcopies

/-- What is acknowledged in full is stored in full. -/
theorem stored_of_settled (h : Linked x y isn ch) (hidle : x.state.idle = false)
    (hshort : x.carried < 2 ^ 31) (hsettled : x.conn.tx.unack = x.conn.tx.next) :
    ch.stored = ch.sent := by
  have hacked := h.acked_all hidle hshort hsettled
  have hle := (h.acks (ConnectionState.not_gone_of_not_idle hidle)).1.acked
  have hprefix := h.delivers.stored
  exact List.IsPrefix.eq_of_length_le hprefix (by omega)

end Linked

namespace Net

variable [UserTime Time] {n n' : Net Addr Time} {z : Side}

/-- Deliveries on both sides and reads of the receiver. -/
def Undisturbed (y : Side) (i : Side × Op Time) : Prop :=
  match i.2 with
  | .onSegment _ => True
  | .callRecv _ => i.1 = y
  | _ => False

omit [UserTime Time] in
theorem Undisturbed.of_delivery (y : Side) {i : Side × Op Time} (h : Delivery i) :
    Undisturbed y i := by
  obtain ⟨seg, heq⟩ := h
  rw [Undisturbed, heq]
  trivial

/-- Both endpoints are open, and only one application has written. -/
structure OneWay (x : Side) (data : List UInt8) (n : Net Addr Time) : Prop where
  run : Reachable n
  opened : ∀ z, (n.get z).state = .fullyOpen
  written : (n.get x).written = data
  silent : (n.get x.other).written = []
  short : data.length < 2 ^ 31

namespace OneWay

variable {x : Side} {data : List UInt8} {op : Op Time} {out : Output} {c' : Connection Addr Time}
  {s : SegmentMeta}

theorem joint_short (h : OneWay x data n) : n.Short := by
  intro z
  have hpaid := paid_of_reachable h.run z
  have hx := h.written
  have hy := h.silent
  have hlen := h.short
  have hwritten : (n.get z).written.length < 2 ^ 31 := by
    cases x <;> cases z <;> simp_all [Net.get, Side.other]
  unfold Paid at hpaid
  omega

theorem joint (h : OneWay x data n) : Joint n := Joint.of_reachable h.run h.joint_short

theorem linked (h : OneWay x data n) (z : Side) :
    ∃ isn ch, Linked (n.get z) (n.get z.other) isn ch := by
  cases h.joint.link z with
  | final hgone =>
      rw [h.opened] at hgone
      cases hgone
  | live _ hl => exact ⟨_, _, hl⟩

theorem peered (h : OneWay x data n) (z : Side) : (n.get z).conn.Peered :=
  .inl (by rw [← Endpoint.state, h.opened]; rfl)

theorem quiet (h : OneWay x data n) : Quiet (n.get x) (n.get x.other) := by
  obtain ⟨isn, ch, hl⟩ := h.linked x.other
  have hback : x.other.other = x := by cases x <;> rfl
  rw [hback] at hl
  exact hl.quiet (h.opened x) (h.opened x.other) h.silent

/-- What has arrived begins what was written. -/
theorem arrived (h : OneWay x data n) :
    (n.get x.other).read ++ (n.get x.other).conn.rx.bytes <+: data := by
  obtain ⟨isn, ch, hl⟩ := h.linked x
  rw [(hl.receiving.holds (h.peered _)).bytes, ← h.written]
  exact (Symbol.bytes_isPrefix hl.delivers.stored).trans hl.sending.bytes_isPrefix

/-- The receiver has not been sent a FIN. -/
theorem unmarked (h : OneWay x data n) : (n.get x.other).conn.rx.buffer.fin = false := by
  obtain ⟨isn, ch, hl⟩ := h.linked x
  rw [Bool.eq_false_iff]
  intro hmark
  exact hl.fin_notMem (h.opened x)
    (hl.delivers.stored.subset ((hl.receiving.holds (h.peered x.other)).fin.mp hmark))

/-- A step that keeps the connection open and takes nothing over. -/
theorem after (h : OneWay x data n) (z : Side) (op : Op Time) (hperm : n.Permitted z op)
    (hc : (n.get z).conn.step op = .ok (c', out)) (hst : c'.connectionState = .fullyOpen)
    (hout : out.accepted op = []) :
    (system Addr Time).step n (z, op) (n.set z ((n.get z).after op c' out)) ∧
      OneWay x data (n.set z ((n.get z).after op c' out)) := by
  have hs : (system Addr Time).step n (z, op) (n.set z ((n.get z).after op c' out)) :=
    ⟨hperm, c', out, hc, rfl⟩
  have hwritten : ((n.get z).after op c' out).written = (n.get z).written := by
    rw [Endpoint.after, hout, List.append_nil]
  have hopened := h.opened
  have hx := h.written
  have hy := h.silent
  refine ⟨hs, h.run.step hs, fun w => ?_, ?_, ?_, h.short⟩
  · cases z <;> cases w
    case client.client | server.server => exact hst
    case client.server => exact hopened .server
    case server.client => exact hopened .client
  · cases z <;> cases x
    case client.client | server.server => exact hwritten.trans hx
    case client.server | server.client => exact hx
  · cases z <;> cases x
    case client.server | server.client => exact hwritten.trans hy
    case client.client | server.server => exact hy

/-- The receiver reads everything it has stored. -/
theorem read_all (h : OneWay x data n) (hbytes : (n.get x.other).conn.rx.bytes ≠ []) :
    ∃ n', Transition.Leads (system Addr Time) (Undisturbed x.other) n n' ∧ OneWay x data n' ∧
      (n.get x.other).read.length < (n'.get x.other).read.length := by
  obtain ⟨rx, hc, -⟩ := Connection.callRecv_all (h.run.conn x.other).wellFormed
    (h.opened x.other) hbytes
  have hstep : (n.get x.other).conn.step (.callRecv (n.get x.other).conn.rx.bytes.length) =
      .ok ({ (n.get x.other).conn with rx := rx }, .recv (.ok (n.get x.other).conn.rx.bytes)) := by
    simp only [Connection.step, hc]
    rfl
  obtain ⟨hs, h'⟩ := h.after x.other (.callRecv _) trivial hstep (h.opened x.other) rfl
  refine ⟨_, .step (_, .callRecv _) rfl hs, h', ?_⟩
  rw [get_set]
  change _ < ((n.get x.other).read ++ (n.get x.other).conn.rx.bytes).length
  rw [List.length_append]
  have := List.length_pos_of_ne_nil hbytes
  omega

/-- The receiver takes the segment it waits for. -/
theorem takes (h : OneWay x data n) (hempty : (n.get x.other).conn.rx.bytes = [])
    (hs : s ∈ (n.get x).log) (hcarries : s.Carries)
    (hseqn : s.seqn = (n.get x.other).conn.rx.ackd) :
    ∃ c', (n.get x.other).conn.onSegment s = .ok c' ∧
      Connection.TakesOpen (n.get x.other).conn s c' ∧ (n.get x.other).conn.Stores s ∧
      s.data ≠ [] ∧ s.data.length ≤ maxSegmentSize ∧ s.hasFin = false := by
  obtain ⟨isn, ch, hl⟩ := h.linked x
  have hpeer := h.peered x.other
  obtain ⟨hdata, hsyn, hfin, hack, hlen⟩ :=
    hl.carries_data (h.joint_short x) (h.opened x) hpeer hs hcarries hseqn
  have hquiet := h.quiet
  have hwf := (h.run.conn x.other).wellFormed
  have hmark := h.unmarked
  have hackn := hquiet.ackns s hs hcarries.1 hack
  have hwindow := hwf.currWindow_of_empty hempty hmark
  have hsize : s.seqSize.toNat ≤ 4096 := by
    rw [s.seqSize_eq, hsyn, hfin, BitVec.toNat_ofNat]
    rw [maxSegmentSize] at hlen
    exact Nat.le_trans (Nat.mod_le _ _) (by simp only [Bool.toNat_false]; omega)
  have hstores : (n.get x.other).conn.Stores s := by
    refine ⟨Connection.check_of_inOrder hwf hwindow hseqn hsize, hcarries.1, hsyn, hack, ?_, hseqn⟩
    rw [hackn, hquiet.settled, SeqN.inRangeInclusive_iff]
  obtain ⟨c', hc, htakes⟩ := (h.run.conn x.other).takes_open (h.opened x.other) hstores hfin hmark
    fun hover => hover.1 (hquiet.settled.trans hackn.symm)
  exact ⟨c', hc, htakes, hstores, hdata, hlen, hfin⟩

/-- The receiver stores the segment it waits for. -/
theorem deliver (h : OneWay x data n) (hempty : (n.get x.other).conn.rx.bytes = [])
    (hs : s ∈ (n.get x).log) (hcarries : s.Carries)
    (hseqn : s.seqn = (n.get x.other).conn.rx.ackd) :
    ∃ n', Transition.Leads (system Addr Time) (Undisturbed x.other) n n' ∧ OneWay x data n' ∧
      (n'.get x.other).read = (n.get x.other).read ∧ (n'.get x.other).conn.rx.bytes ≠ [] := by
  obtain ⟨c', hc, htakes, -, hdata, -⟩ := h.takes hempty hs hcarries hseqn
  have hback : x.other.other = x := by cases x <;> rfl
  obtain ⟨hstep, h'⟩ := h.after x.other (.onSegment s) (by
    change s ∈ (n.get x.other.other).log
    rw [hback]
    exact hs) (Connection.step_onSegment.mpr ⟨hc, rfl⟩) htakes.state rfl
  refine ⟨_, .step (_, .onSegment s) trivial hstep, h', ?_, ?_⟩
  · rw [get_set]
    exact List.append_nil _
  · rw [get_set]
    change c'.rx.bytes ≠ []
    rw [(RxBuffer.write_spec htakes.rx).1]
    exact List.append_ne_nil_of_right_ne_nil _ hdata

/-- The receiver repeats its acknowledgement for a segment it has stored. -/
theorem prompt (h : OneWay x data n) (hs : s ∈ (n.get x).log) (hcarries : s.Carries)
    (hstop : s.seqnAfter = (n.get x.other).conn.rx.ackd) :
    ∃ n', Transition.Leads (system Addr Time) (Undisturbed x.other) n n' ∧ OneWay x data n' ∧
      n'.get x = n.get x ∧ (n'.get x.other).read = (n.get x.other).read ∧
      (n'.get x.other).conn = (n.get x.other).conn.send
        ((n.get x.other).conn.bareSegment (n.get x.other).conn.rx.ackd .ack) := by
  obtain ⟨isn, ch, hl⟩ := h.linked x
  have hret := (hl.sending.wired.segments s hs hcarries.1).retransmittable
  have hcheck := Connection.check_of_stored (h.run.conn x.other).wellFormed hcarries.2
    (Connection.seqSize_le_of_retransmittable hret) hstop
  have hc := Connection.onSegment_unacceptable (h.peered x.other) hcheck
  rw [hcarries.1, if_neg Bool.false_ne_true] at hc
  have hback : x.other.other = x := by cases x <;> rfl
  obtain ⟨hstep, h'⟩ := h.after x.other (.onSegment s) (by
    change s ∈ (n.get x.other.other).log
    rw [hback]
    exact hs) (Connection.step_onSegment.mpr ⟨hc, rfl⟩) (h.opened x.other) rfl
  refine ⟨_, .step (_, .onSegment s) trivial hstep, h', ?_, ?_, ?_⟩
  · have hother := get_set_other n x.other ((n.get x.other).after (.onSegment s)
      ((n.get x.other).conn.send
        ((n.get x.other).conn.bareSegment (n.get x.other).conn.rx.ackd .ack)) .none)
    rw [hback] at hother
    exact hother
  · rw [get_set]
    exact List.append_nil _
  · rw [get_set]
    rfl

/-- The sender takes a bare acknowledgement of everything it sent. -/
theorem hears (h : OneWay x data n)
    (hall : (n.get x.other).conn.rx.ackd = (n.get x).conn.tx.next) :
    ∃ c', (n.get x).conn.onSegment
        ((n.get x.other).conn.bareSegment (n.get x.other).conn.rx.ackd .ack) = .ok c' ∧
      Connection.TakesOpen (n.get x).conn
        ((n.get x.other).conn.bareSegment (n.get x.other).conn.rx.ackd .ack) c' := by
  have hquiet := h.quiet
  have hwf := (h.run.conn x).wellFormed
  obtain ⟨hrst, hsyn, hfin, hack⟩ :=
    (n.get x.other).conn.bareSegment_flags (n.get x.other).conn.rx.ackd
  have hwindow := hwf.currWindow_of_empty hquiet.unread hquiet.unmarked
  refine (h.run.conn x).takes_open (h.opened x)
    ⟨Connection.check_of_inOrder hwf hwindow hquiet.ackd.symm ?_, hrst, hsyn, hack, ?_,
      hquiet.ackd.symm⟩ hfin hquiet.unmarked fun hover => ?_
  · rw [SegmentMeta.seqSize_of_empty hsyn hfin rfl]
    exact Nat.zero_le _
  · change (n.get x.other).conn.rx.ackd.inRangeInclusive _ _ = true
    rw [SeqN.inRangeInclusive_iff, hall]
  · have hbound := (n.get x).conn.congestionWindow.isLt
    have hbad : 2 ^ 16 ≤ (n.get x).conn.congestionWindow.toNat + 0 := hover.2
    omega

/-- The sender hears that everything it sent is stored, and goes on. -/
theorem answer (h : OneWay x data n) (hempty : (n.get x.other).conn.rx.bytes = [])
    (hall : (n.get x.other).conn.rx.ackd = (n.get x).conn.tx.next)
    (hlog : (n.get x.other).conn.bareSegment (n.get x.other).conn.rx.ackd .ack ∈
      (n.get x.other).log) :
    ∃ n', Transition.Leads (system Addr Time) (Undisturbed x.other) n n' ∧ OneWay x data n' ∧
      n'.get x.other = n.get x.other ∧ (n'.get x).conn.tx.unack = (n.get x).conn.tx.next ∧
      ((n.get x).conn.tx.tx.bytes = [] → (n'.get x).conn.tx.tx.bytes = [] ∧
        (n'.get x).conn.tx.next = (n.get x).conn.tx.next) ∧
      ((n.get x).conn.tx.tx.bytes ≠ [] → ∃ s ∈ (n'.get x).log, s.Carries ∧
        s.seqn = (n.get x.other).conn.rx.ackd) := by
  have hwf := (h.run.conn x).wellFormed
  obtain ⟨c', hc, htakes⟩ := h.hears hall
  obtain ⟨c₀, htx, -, ht⟩ := htakes.tx
  obtain ⟨hstep, h'⟩ := h.after x (.onSegment _) hlog
    (Connection.step_onSegment.mpr ⟨hc, rfl⟩) htakes.state rfl
  have hqueue : c₀.tx.tx = (n.get x).conn.tx.tx := by
    rw [htx]
    rfl
  have hnofin : c₀.sendsFin = false := by
    rw [Connection.sendsFin, hqueue, (h.run.conn x).queue_unmarked (h.opened x), Bool.and_false,
      Bool.false_and]
  have hnext : c₀.tx.next = (n.get x).conn.tx.next := by
    rw [htx]
    rfl
  have hunack : c₀.tx.unack = (n.get x).conn.tx.next := by
    rw [htx]
    exact hall
  refine ⟨_, .step (_, .onSegment _) trivial hstep, h', get_set_other _ _ _, ?_, ?_, ?_⟩
  · rw [get_set]
    exact ht.unack.trans hunack
  · intro hnil
    have hbytes := ht.bytes
    have hnext' := ht.next
    rw [hqueue, hnil, List.drop_nil] at hbytes
    have hsize : c₀.outSegment.seqSize = 0#32 := by
      rw [Connection.outSegment_seqSize_eq_zero, Connection.outData, hqueue, hnil]
      exact ⟨List.take_nil, hnofin⟩
    rw [hsize, BitVec.add_zero] at hnext'
    rw [get_set]
    exact ⟨hbytes, hnext'.trans hnext⟩
  · intro hmore
    -- The whole window of the receiver is free.
    have hfree : c₀.tx.window ≠ 0#16 := by
      intro hzero
      rw [htx] at hzero
      have hreplied := Connection.shown_of_closed (by
        rw [show ((n.get x.other).conn.bareSegment _ .ack).data = [] from rfl, List.length_nil,
          BitVec.add_zero, ite_self]
        exact hwf.congestion) hzero
      exact (h.run.conn x.other).wellFormed.currWindow_of_empty hempty h.unmarked hreplied
    have hcarries : c₀.outSegment.Carries :=
      Connection.outSegment_carries (hunack.trans hnext.symm) hfree (hqueue.symm ▸ hmore)
    refine ⟨c₀.outSegment, ?_, hcarries, ?_⟩
    · rw [get_set]
      change c₀.outSegment ∈ c'.userData.sent
      rw [ht.sent, if_neg fun hskip : c₀.skipsRepeat => hcarries.2 hskip.1]
      exact List.mem_append_right _ (List.mem_singleton_self _)
    · rw [hall]
      exact hnext

/-- Once everything sent is stored, only the queue is missing. -/
theorem read_append_queue (h : OneWay x data n) (hempty : (n.get x.other).conn.rx.bytes = [])
    (hall : (n.get x.other).conn.rx.ackd = (n.get x).conn.tx.next) :
    (n.get x.other).read ++ (n.get x).conn.tx.tx.bytes = data := by
  obtain ⟨isn, ch, hl⟩ := h.linked x
  have hidle : (n.get x).state.idle = false := by rw [h.opened]; rfl
  have hb := hl.sending.buffered hidle
  have hh := hl.receiving.holds (h.peered x.other)
  have hstored := hl.stored_all hidle (h.joint_short x) (Nat.le_refl _) (hall.symm.trans hh.ackd)
  have hread := hh.bytes
  rw [hempty, List.append_nil, hstored] at hread
  rw [hread, hb.queue, h.written]

/-- With nothing left unacknowledged nothing is kept for resending. -/
theorem reTx_nil (h : OneWay x data n)
    (hsettled : (n.get x).conn.tx.unack = (n.get x).conn.tx.next) :
    (n.get x).conn.tx.reTx = [] := by
  obtain ⟨isn, ch, hl⟩ := h.linked x
  exact hl.reTx_nil (by rw [h.opened]; rfl) (h.joint_short x) hsettled

/-- The segment the receiver waits for has been sent, or it has everything. -/
theorem next_or_all (h : OneWay x data n) : ∃ s ∈ (n.get x).log, s.Carries ∧
    (s.seqn = (n.get x.other).conn.rx.ackd ∨ s.seqnAfter = (n.get x.other).conn.rx.ackd ∧
      (n.get x.other).conn.rx.ackd = (n.get x).conn.tx.next) := by
  have hwhole := Whole.of_reachable h.run h.joint_short
  obtain ⟨s, hs, hcarries, hstop⟩ := hwhole.ends x (h.peered x.other)
  rcases hwhole.gapless x (by rw [h.opened]; rfl) (by rw [h.opened]; rfl) s hs hcarries with
    hlast | ⟨g, hg, hgcarries, hseqn⟩
  · exact ⟨s, hs, hcarries, .inr ⟨hstop, hstop.symm.trans hlast⟩⟩
  · exact ⟨g, hg, hgcarries, .inl (hseqn.trans hstop)⟩

/-- Both sides learn that everything sent is stored. -/
theorem settle (h : OneWay x data n) (hempty : (n.get x.other).conn.rx.bytes = [])
    (hs : s ∈ (n.get x).log) (hcarries : s.Carries)
    (hstop : s.seqnAfter = (n.get x.other).conn.rx.ackd)
    (hall : (n.get x.other).conn.rx.ackd = (n.get x).conn.tx.next) :
    ∃ n', Transition.Leads (system Addr Time) (Undisturbed x.other) n n' ∧ OneWay x data n' ∧
      (n'.get x.other).read = (n.get x.other).read ∧ (n'.get x.other).conn.rx.bytes = [] ∧
      (n'.get x).conn.tx.unack = (n.get x).conn.tx.next ∧
      ((n.get x).conn.tx.tx.bytes = [] → (n'.get x).conn.tx.tx.bytes = [] ∧
        (n'.get x).conn.tx.next = (n.get x).conn.tx.next) ∧
      ((n.get x).conn.tx.tx.bytes ≠ [] → ∃ g ∈ (n'.get x).log, g.Carries ∧
        g.seqn = (n'.get x.other).conn.rx.ackd) := by
  obtain ⟨n₁, hlead₁, h₁, hx, hread, hconn⟩ := h.prompt hs hcarries hstop
  have hrx : (n₁.get x.other).conn.rx = (n.get x.other).conn.rx := by
    rw [hconn]
    rfl
  have hlog : (n₁.get x.other).conn.bareSegment (n₁.get x.other).conn.rx.ackd .ack ∈
      (n₁.get x.other).log := by
    rw [Endpoint.log, hconn, Connection.send_sent]
    exact List.mem_append_right _ (List.mem_singleton_self _)
  obtain ⟨n₂, hlead₂, h₂, hy, hunack, hnil, hmore⟩ := h₁.answer (by rw [hrx, hempty])
    (by rw [hrx, hx, hall]) hlog
  rw [hx] at hunack hnil hmore
  refine ⟨n₂, hlead₁.trans hlead₂, h₂, by rw [hy, hread], by rw [hy, hrx, hempty], hunack, hnil, ?_⟩
  rw [hy]
  exact hmore

/-- While something is missing, the receiver can be brought to read more. -/
theorem progress (h : OneWay x data n) (hmore : (n.get x.other).read ≠ data) :
    ∃ n', Transition.Leads (system Addr Time) (Undisturbed x.other) n n' ∧ OneWay x data n' ∧
      data.length - (n'.get x.other).read.length < data.length - (n.get x.other).read.length := by
  have hshort : (n.get x.other).read.length < data.length := by
    have hprefix := (List.prefix_append _ _).trans h.arrived
    refine Nat.lt_of_le_of_ne hprefix.length_le fun heq => hmore ?_
    exact List.IsPrefix.eq_of_length hprefix heq
  by_cases hempty : (n.get x.other).conn.rx.bytes = []
  · obtain ⟨s, hs, hcarries, hseqn | ⟨hstop, hall⟩⟩ := h.next_or_all
    · obtain ⟨n₁, hlead₁, h₁, hread, hbytes⟩ := h.deliver hempty hs hcarries hseqn
      obtain ⟨n₂, hlead₂, h₂, hlt⟩ := h₁.read_all hbytes
      refine ⟨n₂, hlead₁.trans hlead₂, h₂, ?_⟩
      rw [hread] at hlt
      omega
    · -- Everything sent has been read, so something waits in the queue.
      have hqueue : (n.get x).conn.tx.tx.bytes ≠ [] := by
        intro hnil
        have hread := h.read_append_queue hempty hall
        rw [hnil, List.append_nil] at hread
        exact hmore hread
      obtain ⟨n₁, hlead₁, h₁, hread₁, hempty₁, -, -, hsent⟩ :=
        h.settle hempty hs hcarries hstop hall
      obtain ⟨g, hg, hgcarries, hgseqn⟩ := hsent hqueue
      obtain ⟨n₂, hlead₂, h₂, hread₂, hbytes⟩ := h₁.deliver hempty₁ hg hgcarries hgseqn
      obtain ⟨n₃, hlead₃, h₃, hlt⟩ := h₂.read_all hbytes
      refine ⟨n₃, (hlead₁.trans hlead₂).trans hlead₃, h₃, ?_⟩
      rw [hread₂, hread₁] at hlt
      omega
  · obtain ⟨n₁, hlead, h₁, hlt⟩ := h.read_all hempty
    exact ⟨n₁, hlead, h₁, by omega⟩

/-- Once everything is read, the sender can be brought to know it. -/
theorem settled (h : OneWay x data n) (hread : (n.get x.other).read = data) :
    ∃ n', Transition.Leads (system Addr Time) (Undisturbed x.other) n n' ∧ OneWay x data n' ∧
      (n'.get x.other).read = data ∧ (n'.get x).conn.tx.unack = (n'.get x).conn.tx.next ∧
      (n'.get x).conn.tx.tx.bytes = [] := by
  have unread {n : Net Addr Time} (h : OneWay x data n) (hread : (n.get x.other).read = data) :
      (n.get x.other).conn.rx.bytes = [] := by
    have hle := h.arrived.length_le
    rw [hread, List.length_append] at hle
    exact List.eq_nil_of_length_eq_zero (by omega)
  have hempty := unread h hread
  obtain ⟨s, hs, hcarries, hseqn | ⟨hstop, hall⟩⟩ := h.next_or_all
  · -- What is still to come has no place in what was written.
    obtain ⟨n₁, -, h₁, hread₁, hbytes⟩ := h.deliver hempty hs hcarries hseqn
    exact absurd (unread h₁ (hread₁.trans hread)) hbytes
  · have hqueue : (n.get x).conn.tx.tx.bytes = [] := by
      have hall' := h.read_append_queue hempty hall
      rwa [hread, List.append_right_eq_self] at hall'
    obtain ⟨n₁, hlead, h₁, hread₁, -, hunack, hnil, -⟩ := h.settle hempty hs hcarries hstop hall
    obtain ⟨hqueue₁, hnext⟩ := hnil hqueue
    exact ⟨n₁, hlead, h₁, hread₁.trans hread, hunack.trans hnext.symm, hqueue₁⟩

end OneWay

/-- While neither endpoint has left the handshake but by opening and only one has
written, whatever the wire has done so far, deliveries and reads of the other
side alone lead to a state in which both are open, that side has read everything,
and the sender knows it. -/
theorem one_way_completes (run : Reachable n) (x : Side)
    (hclient : n.client.state = .synSent ∨ n.client.state = .fullyOpen)
    (hserver : n.server.state = .listen ∨ n.server.state = .synReceived ∨
      n.server.state = .fullyOpen)
    (hsilent : (n.get x.other).written = []) (hshort : (n.get x).written.length < 2 ^ 31) :
    ∃ n', Transition.Leads (system Addr Time) (Undisturbed x.other) n n' ∧
      (∀ z, (n'.get z).state = .fullyOpen) ∧
      (n'.get x.other).read = (n.get x).written ∧ (n'.get x).written = (n.get x).written ∧
      (n'.get x).conn.tx.unack = (n'.get x).conn.tx.next ∧ (n'.get x).conn.tx.reTx = [] ∧
      (n'.get x).conn.tx.tx.bytes = [] := by
  have hconnecting : Connecting n := by
    refine ⟨run, hclient, hserver, fun z => ?_⟩
    cases x <;> cases z <;> simp_all [Net.get, Side.other]
  obtain ⟨n₀, hlead₀, h₀, hopen, hwritten⟩ := hconnecting.opens
  have h : OneWay x (n.get x).written n₀ :=
    ⟨h₀.run, hopen, hwritten x, (hwritten x.other).trans hsilent, hshort⟩
  obtain ⟨n₁, hlead₁, h₁, hread⟩ := Transition.Leads.exists_goal
    (fun m : Net Addr Time => (m.get x.other).read = (n.get x).written)
    (fun m => (n.get x).written.length - (m.get x.other).read.length)
    (fun _ hm hmore => OneWay.progress hm hmore) h
  obtain ⟨n₂, hlead₂, h₂, hread₂, hunack, hqueue⟩ := h₁.settled hread
  have hopening := hlead₀.mono fun _ hi => Undisturbed.of_delivery x.other hi
  exact ⟨n₂, (hopening.trans hlead₁).trans hlead₂, h₂.opened, hread₂, h₂.written, hunack,
    h₂.reTx_nil hunack, hqueue⟩

/-- The client has written before it has heard from the server, and a reply is lost. -/
theorem one_way_completes_early : ∃ n n' : Net Unit Nat, n.client.state = .synSent ∧
    Transition.Leads (system Unit Nat) (Undisturbed .server) n n' ∧
      n'.server.read = [1, 2, 3] := by
  obtain ⟨n, run, hclient, hserver, hsilent, hwritten⟩ : ∃ n : Net Unit Nat, Reachable n ∧
      n.client.state = .synSent ∧ n.server.state = .synReceived ∧ n.server.written = [] ∧
        n.client.written = [1, 2, 3] :=
    Transition.exists_reachableUnder step_of_next initial_zeroStart
      [(.server, .onSegment ⟨0#32, 0#32, 4096#16, .syn, []⟩),
       (.client, .callSend [1, 2]), (.client, .callSend [3])] (by decide)
  obtain ⟨n', hlead, -, hall, -⟩ := one_way_completes run .client (.inl hclient)
    (.inr (.inl hserver)) hsilent (by
      change n.client.written.length < _
      rw [hwritten]
      decide)
  exact ⟨n, n', hclient, hlead, hall.trans hwritten⟩

end Net

end TcpState
