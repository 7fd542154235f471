import TcpState.Connection.Retransmit
import TcpState.Network.Gapless
import TcpState.Network.GracefulEnd

/-!
# The deliveries that make an endpoint panic

Many segments make a connection panic, and another endpoint of this library
sends few of them. What it has sent is a piece of one stream with the FIN at
its end, what it acknowledges it has stored, and what is in flight is counted
by what was carried.
-/

namespace TcpState

open Fallible
open Transfer (Piece Channel)

variable {Addr Time : Type} {op : Op Time} {out : Output}

namespace Connection

variable {c c₀ c' : Connection Addr Time} {seg : SegmentMeta}

/-- Every segment of the log fits in one segment size. -/
def LogShort (c : Connection Addr Time) : Prop :=
  ∀ s ∈ c.userData.sent, s.data.length ≤ maxSegmentSize

theorem LogShort.append (h : LogShort c) {new : List SegmentMeta}
    (hsent : c'.userData.sent = c.userData.sent ++ new)
    (hnew : ∀ s ∈ new, s.data.length ≤ maxSegmentSize) : LogShort c' := by
  intro s hs
  rw [hsent] at hs
  exact (List.mem_append.mp hs).elim (h s) (hnew s)

theorem LogShort.sends (h : LogShort c) (ht : TxSent c₀ c')
    (hsent : c₀.userData.sent = c.userData.sent) : LogShort c' := by
  intro s hs
  rcases ht.mem_sent hs with hold | rfl
  · exact h s (hsent ▸ hold)
  · exact c₀.outData_length_le

/-- An operation adds short segments to the log. -/
theorem TxEffect.logShort (effect : TxEffect c op out c') (hwf : WellFormed c)
    (h : LogShort c) : LogShort c' := by
  have bare {s : SegmentMeta} (hdata : s.data = []) : s.data.length ≤ maxSegmentSize := by
    rw [hdata]
    exact Nat.zero_le _
  have remark {op : Op Time} {s : SegmentMeta} (hs : Remark c op s) :
      s.data.length ≤ maxSegmentSize := by
    cases hs with
    | resend _ hmem => exact (hwf.reTx s hmem).short
    | ack _ _ hdata => exact bare hdata
    | refusal _ _ hsize => exact bare hsize.1
  cases effect with
  | kept _ _ _ hsent hnew => exact h.append hsent fun s hs => remark (hnew s hs)
  | cleared _ _ _ _ hsent hnew =>
      refine h.append hsent fun s hs => ?_
      cases hnew s hs with
      | resend _ hmem => exact (hwf.reTx s hmem).short
      | abort _ hsize => exact bare hsize.1
      | stray _ hdata => exact bare hdata
  | connecting _ _ hc =>
      refine h.append hc.sent fun s hs => ?_
      rw [List.mem_singleton.mp hs]
      exact Nat.zero_le _
  | answered _ _ _ hc =>
      refine h.append hc.sent fun s hs => ?_
      rw [List.mem_singleton.mp hs]
      exact Nat.zero_le _
  | queued _ _ _ _ _ hsent =>
      exact h.append (hsent.trans (List.append_nil _).symm) (List.forall_mem_nil _)
  | appended _ _ _ _ _ _ ht => exact h.sends ht rfl
  | marked _ _ _ _ _ _ _ _ hsent ht => exact h.sends ht hsent
  | acked _ _ _ _ _ _ hsent hnew => exact h.append hsent fun s hs => remark (hnew s hs)
  | stored _ _ _ _ _ hsent ht => exact h.sends ht hsent
  | synAcked =>
      exact h.append ((synAcked_sent _ _).trans (List.append_nil _).symm) (List.forall_mem_nil _)
  | opened _ _ _ _ _ _ ht => exact h.sends ht ((entered_sent _ _).trans (synAcked_sent _ _))

theorem TxSent.inFlight_le (ht : TxSent c₀ c') :
    c'.inFlight ≤ c₀.inFlight + (c₀.outData.length + c₀.sendsFin.toNat) := by
  rw [inFlight, ht.unack, ht.next, ← outSegment_seqSize_toNat]
  exact Circular.span_add_le _ _ _

/-- An acknowledgement in range leaves no more in flight. -/
theorem inFlight_acked (hrange : seg.ackn.inRangeInclusive c.tx.unack c.tx.next = true) :
    Circular.span seg.ackn c.tx.next ≤ c.inFlight := by
  rw [SeqN.inRangeInclusive_iff] at hrange
  rw [Circular.span_rebase hrange]
  exact Nat.sub_le _ _

/-- An acknowledgement of everything leaves nothing to resend. -/
theorem unackedAfter_eq_nil (h : c.tx.Tiled) (hflight : c.inFlight < 2 ^ 31)
    (hackn : seg.ackn = c.tx.next) : c.unackedAfter seg = [] := by
  have hrange : seg.ackn.inRangeInclusive c.tx.unack c.tx.next = true := by
    rw [hackn, SeqN.inRangeInclusive_iff]
  exact (tiled_ackedTx h hflight hrange).ordered.empty.mpr hackn

end Connection

namespace Endpoint

variable {e : Endpoint Addr Time} {c₀ c' : Connection Addr Time}

/-- What is in flight was carried, apart from a SYN and a FIN. -/
def Counted (e : Endpoint Addr Time) : Prop :=
  e.conn.inFlight ≤ e.carried + 1 + e.state.wroteFin.toNat

namespace Counted

theorem quiet (h : Counted e) (hflight : c'.inFlight ≤ e.conn.inFlight)
    (hwrote : e.state.wroteFin = true → c'.connectionState.wroteFin = true) :
    Counted (e.after op c' out) := by
  have hcarried := Sending.carried_le e op c' out
  have hbit := Bool.toNat_le_toNat hwrote
  unfold Counted at h ⊢
  change c'.inFlight ≤ _ + 1 + c'.connectionState.wroteFin.toNat
  omega

/-- A FIN is sent once, and the write side remembers it. -/
theorem sends (h : Counted e) (hop : ∀ time, op ≠ .onTimeTick time)
    (ht : Connection.TxSent c₀ c') (hsent : c₀.userData.sent = e.log)
    (hflight : c₀.inFlight ≤ e.conn.inFlight)
    (hwrote : e.state.wroteFin = true → c'.connectionState.wroteFin = true)
    (hfin : c₀.sendsFin = true → e.state.wroteFin = false ∧
      c'.connectionState.wroteFin = true) : Counted (e.after op c' out) := by
  have hcarried : (e.after op c' out).carried = e.carried + c₀.outData.length :=
    congrArg (e.carried + ·) (ht.fresh_data hop hsent)
  have hsize := ht.inFlight_le
  have hbits : e.state.wroteFin.toNat + c₀.sendsFin.toNat ≤
      c'.connectionState.wroteFin.toNat := by
    cases hs : c₀.sendsFin with
    | false => exact Bool.toNat_le_toNat hwrote
    | true =>
        obtain ⟨hno, hyes⟩ := hfin hs
        rw [hno, hyes]
        exact Nat.le_refl _
  unfold Counted at h ⊢
  rw [hcarried]
  change c'.inFlight ≤ _ + 1 + c'.connectionState.wroteFin.toNat
  omega

theorem step (h : Counted e) (hwf : Connection.WellFormed e.conn)
    (effect : Connection.TxEffect e.conn op out c') (hop : op ≠ .callConnect) :
    Counted (e.after op c' out) := by
  have unmarked {c₀ : Connection Addr Time} {p : Prop} (hmark : c₀.tx.tx.fin = false)
      (hfin : c₀.sendsFin = true) : p := by
    rw [(Connection.sendsFin_iff.mp hfin).2.1] at hmark
    cases hmark
  have delivered (seg : SegmentMeta) (time : Time) :
      (.onSegment seg : Op Time) ≠ .onTimeTick time := fun hbad => by cases hbad
  cases effect with
  | kept _ htx hstate =>
      refine h.quiet (by rw [Connection.inFlight, htx.unack, htx.next]; exact Nat.le_refl _)
        fun hwrote => ?_
      rcases hstate with heq | ⟨-, -, hkept, -⟩
      · rw [heq]
        exact hwrote
      · exact hkept.trans hwrote
  | cleared _ _ _ htx =>
      change c'.inFlight ≤ _
      rw [Connection.inFlight, htx, TxBuffer.default, Circular.span_self]
      exact Nat.zero_le _
  | connecting => exact absurd rfl hop
  | answered hst _ _ hc =>
      change c'.inFlight ≤ _
      have hone : c'.inFlight ≤ 1 := by
        rw [Connection.inFlight, hc.tx, TxBuffer.onSend_unack, TxBuffer.onSend_next,
          seqSize_of_syn (.inr rfl) rfl]
        exact Circular.span_add_ofNat_le _ 1
      exact Nat.le_add_right_of_le (Nat.le_add_left_of_le hone)
  | queued _ _ _ htx hstate =>
      refine h.quiet (by rw [Connection.inFlight, htx]; exact Nat.le_refl _) fun hwrote => ?_
      rw [hstate]
      exact hwrote
  | appended hdata _ _ _ hq _ ht hstate =>
      obtain ⟨-, hqfin, hopen⟩ := BlobQueue.writeBytes_spec hq
      refine h.sends (fun _ hbad => by cases hbad) ht rfl (Nat.le_refl _) (fun hwrote => ?_)
        (unmarked (hqfin.trans (hopen.resolve_left hdata)))
      rw [hstate]
      exact hwrote
  | marked hcall _ hwrote _ _ htx _ _ hsent ht _ hfin =>
      refine h.sends ?_ ht hsent ?_ (fun hbad => absurd (hwrote.symm.trans hbad) (by decide))
        fun hs => ⟨hwrote, hfin hs⟩
      · rcases hcall with rfl | rfl <;> exact fun _ hbad => by cases hbad
      · rw [Connection.inFlight, htx]
        exact Nat.le_refl _
  | acked _ _ _ hrange htx hstate =>
      refine h.quiet ?_ fun hwrote => ?_
      · rw [Connection.inFlight, htx]
        exact Connection.inFlight_acked hrange
      · rw [hstate.wroteFin, Bool.or_false]
        exact hwrote
  | stored _ hstores htx _ hkept hsent ht hstate =>
      refine h.sends (delivered _) ht hsent ?_ (fun hwrote => ?_) fun hs => ?_
      · rw [Connection.inFlight, htx]
        exact Connection.inFlight_acked hstores.range
      · rw [hstate.wroteFin, Bool.or_eq_true]
        exact .inl hwrote
      · refine ⟨hkept.symm.trans (Connection.sendsFin_iff.mp hs).2.2, ?_⟩
        rw [hstate.wroteFin, Bool.or_eq_true]
        exact .inr hs
  | synAcked hst hrange =>
      exact h.quiet (Connection.inFlight_acked hrange) id
  | opened hst hrange _ _ _ _ ht hstate =>
      have hearly : e.conn.tx.tx.fin = false := (hwf.early (by rw [hst]; rfl)).1
      refine h.sends (delivered _) ht
        ((Connection.entered_sent _ _).trans (Connection.synAcked_sent _ _)) ?_
        (fun hwrote => ?_) (unmarked ?_)
      · rw [Connection.inFlight, Connection.entered_tx]
        exact Connection.inFlight_acked hrange
      · rw [Endpoint.state, hst] at hwrote
        cases hwrote
      · rw [Connection.entered_tx]
        exact hearly

end Counted

end Endpoint

namespace Connection

variable (c : Connection Addr Time) (seg : SegmentMeta)

/-- An acknowledgement of another endpoint that panics: it overflows the
congestion window, it finishes a passive close with the number zero, or it
brings the FIN while our own FIN waits for room. -/
def ackCrashes : Prop :=
  c.ackOverflows seg ∨ c.finishes seg ∧ seg.seqn = .zero ∨
    ¬ c.finishes seg ∧ seg.seqn = c.rx.ackd ∧ c.finPanics seg

/-- A segment of another endpoint that panics: a RST in TimeWait, or one of
these acknowledgements. -/
def Crashes : Prop :=
  c.Peered ∧ c.checkSegmentSeqOk seg = true ∧
    (seg.hasRst = true ∧ c.connectionState = .timeWait ∨
      seg.hasRst = false ∧ seg.hasSyn = false ∧ seg.hasAck = true ∧
        seg.ackn.inRangeInclusive c.tx.unack c.tx.next = true ∧ c.ackCrashes seg)

instance : Decidable (c.Crashes seg) := by
  unfold Crashes ackCrashes ackOverflows finishes finPanics
  infer_instance

end Connection

section Deliveries

variable {x y : Endpoint Addr Time} {isn : SeqN} {ch : Channel Symbol} {seg : SegmentMeta}

/-- Behind the FIN of its peer an endpoint is sent nothing that it would have
to store. -/
theorem Linked.not_storePanics (h : Linked x y isn ch) (hshort : x.carried < 2 ^ 31)
    (hpeer : y.conn.Peered) (hseg : seg ∈ x.log) (hrst : seg.hasRst = false)
    (hseqn : seg.seqn = y.conn.rx.ackd) : ¬ y.conn.storePanics seg := by
  have hw := h.sending.wired.segments seg hseg hrst
  have hh := h.receiving.holds hpeer
  rintro (⟨hmark, hmore⟩ | ⟨hfin, hdata⟩)
  · -- The FIN is the end of the stream, so the piece lies behind the stream.
    have hall : ch.stored = ch.sent :=
      h.sending.wired.framed.finLast.eq_of_isPrefix h.delivers.stored (hh.fin.mp hmark)
    have hsymbols : seg.symbols ≠ [] := by
      intro hnil
      rcases hmore with hdata | hfin
      · refine hdata ?_
        rw [← seg.bytes_symbols, hnil]
        rfl
      · have hmem := SegmentMeta.fin_mem_symbols.mpr hfin
        rw [hnil] at hmem
        cases hmem
    obtain ⟨p, hp, hstart, hbody⟩ := hw.continues h.delivers (h.sending.wired.length_le hshort)
      hsymbols h.delivers.stored.length_le (hseqn.trans hh.ackd)
    have hwithin := (h.delivers.wire p hp).2
    rw [hstart, hbody, hall, List.drop_length] at hwithin
    exact hsymbols (List.prefix_nil.mp hwithin)
  · exact hdata (hw.retransmittable.alone hfin)

end Deliveries

namespace Net

variable {n n' : Net Addr Time} {x : Side} {seg : SegmentMeta}

/-- Each direction carries fewer than `2 ^ 31` sequence numbers, the SYN and the
FIN included. -/
def Narrow (n : Net Addr Time) : Prop := ∀ x, (n.get x).carried + 2 < 2 ^ 31

theorem Narrow.short (h : Narrow n) : n.Short := fun x => Nat.lt_of_le_of_lt (by omega) (h x)

/-- What each endpoint keeps of its own. -/
structure Measured (e : Endpoint Addr Time) : Prop where
  wellFormed : Connection.WellFormed e.conn
  counted : e.Counted
  tiled : e.conn.tx.Tiled
  logShort : e.conn.LogShort

theorem Measured.inFlight_lt {e : Endpoint Addr Time} (h : Measured e)
    (hnarrow : e.carried + 2 < 2 ^ 31) : e.conn.inFlight < 2 ^ 31 := by
  have hcounted := h.counted
  have hbit := Bool.toNat_le e.state.wroteFin
  unfold Endpoint.Counted at hcounted
  omega

variable [UserTime Time]

theorem Measured.step {e : Endpoint Addr Time} {c' : Connection Addr Time} (h : Measured e)
    (hnarrow : e.carried + 2 < 2 ^ 31) (hop : op ≠ .callConnect)
    (hc : e.conn.step op = .ok (c', out)) : Measured (e.after op c' out) := by
  have effect := h.wellFormed.txEffect hc
  exact ⟨h.wellFormed.step hc, h.counted.step h.wellFormed effect hop,
    (effect.tiled h.wellFormed h.tiled (h.inFlight_lt hnarrow)).1,
    effect.logShort h.wellFormed h.logShort⟩

/-- A connection after its first `call_connect`. -/
theorem Measured.connecting {c₀ c : Connection Addr Time} {r : Except Error Unit}
    (hwf : Connection.WellFormed c₀) (hclosed : c₀.connectionState = .closed)
    (hsent : c₀.userData.sent = []) (hc : c₀.callConnect = .ok (c, r)) : Measured (.start c) := by
  cases Connection.connectStep_of_ok hc with
  | refused hs => exact absurd hclosed hs.1
  | connecting _ ha =>
      have hsize : c₀.synSegment.seqSize = 1#32 := seqSize_of_syn (.inl rfl) rfl
      have hre : c₀.tx.reTx = [] := by
        rw [(hwf.idle (by rw [hclosed]; rfl)).1]
        rfl
      refine ⟨hwf.callConnect hc, ?_, Connection.tiled_opening ha.tx hre rfl hsize, ?_⟩
      · change c.inFlight ≤ 0 + 1 + c.connectionState.wroteFin.toNat
        rw [Connection.inFlight, ha.tx, TxBuffer.onSend_unack, TxBuffer.onSend_next, hsize]
        exact Nat.le_add_right_of_le (Circular.span_add_ofNat_le _ 1)
      · intro s hs
        change s ∈ c.userData.sent at hs
        rw [ha.sent, hsent, List.nil_append, List.mem_singleton] at hs
        rw [hs]
        exact Nat.zero_le _

theorem Measured.of_initial (h : Initial n) (x : Side) : Measured (n.get x) := by
  obtain ⟨⟨remote, options, userData, c, r, hsent, hc, hclient⟩,
    ⟨addr, options', userData', hsent', hserver⟩⟩ := h
  cases x with
  | client =>
      have hnew : Connection.WellFormed
          { Connection.new remote userData with options := options } :=
        (Connection.Initial.wellFormed (.inl ⟨remote, userData, rfl⟩)).congr rfl rfl rfl rfl rfl
          (Connection.dataWaiters_congr rfl)
      rw [Net.get, hclient]
      exact .connecting hnew rfl hsent hc
  | server =>
      rw [Net.get, hserver]
      refine ⟨(Connection.initial_listening addr options' userData').wellFormed,
        ?_, .of_nil rfl rfl, fun s hs => ?_⟩
      · change Circular.span SeqN.zero SeqN.zero ≤ _
        rw [Circular.span_self]
        exact Nat.zero_le _
      change s ∈ userData'.sent at hs
      rw [hsent'] at hs
      cases hs

/-- Both endpoints of a joint run, as long as the directions are narrow. -/
theorem measured_of_reachable (run : Reachable n) (hnarrow : n.Narrow) (x : Side) :
    Measured (n.get x) := by
  refine Transition.Reachable.invariant (P := fun n => n.Narrow → ∀ x, Measured (n.get x))
    (fun _ h _ x => .of_initial h x) (fun n i n' ih hs hnarrow x => ?_) run hnarrow x
  have hbefore : n.Narrow := fun x =>
    Nat.lt_of_le_of_lt (Nat.add_le_add_right (Joint.carried_mono hs x) 2) (hnarrow x)
  obtain ⟨y, op⟩ := i
  obtain ⟨hperm, c', out, hc, rfl⟩ := hs
  have hop : op ≠ .callConnect := by
    rintro rfl
    exact hperm
  have hstep := (ih hbefore y).step (hbefore y) hop hc
  by_cases hxy : x = y
  · rw [hxy, get_set]
    exact hstep
  · have hother : x = y.other := by cases x <;> cases y <;> first | rfl | exact absurd rfl hxy
    rw [hother, get_set_other]
    exact ih hbefore y.other

omit [UserTime Time] in
/-- An endpoint with a peer is still joined to it. -/
theorem Joint.linked_back (h : Joint n) (hs : (n.get x).conn.Peered) :
    ∃ isn ch, Linked (n.get x.other) (n.get x) isn ch := by
  cases link_back h x with
  | final hgone =>
      exact absurd (hgone.symm.trans (ConnectionState.not_gone_of_not_idle hs.not_idle)) (by decide)
  | live _ hl => exact ⟨_, _, hl⟩

omit [UserTime Time] in
/-- What the peer acknowledges and sends rules out the other failures. -/
theorem ackPanics_iff (h : Joint n) (hnarrow : n.Narrow) (hx : Measured (n.get x))
    (hs : (n.get x).conn.Peered) (hseg : seg ∈ (n.get x.other).log) (hrst : seg.hasRst = false) :
    (n.get x).conn.ackPanics seg ↔ (n.get x).conn.ackCrashes seg := by
  obtain ⟨isn, ch, hl⟩ := h.linked_back hs
  have hacked (hfin : (n.get x).conn.acksFin seg) : (n.get x).conn.unackedAfter seg = [] :=
    Connection.unackedAfter_eq_nil hx.tiled (hx.inFlight_lt (hnarrow x)) hfin.2
  have hstore (hseqn : seg.seqn = (n.get x).conn.rx.ackd) : ¬ (n.get x).conn.storePanics seg :=
    hl.not_storePanics (hnarrow.short x.other) hs hseg hrst hseqn
  unfold Connection.ackPanics Connection.ackCrashes
  constructor
  · rintro (hover | ⟨hfin, hne⟩ | hfinish | ⟨hno, hseqn, hbad⟩)
    · exact .inl hover
    · exact absurd (hacked hfin) hne
    · exact .inr (.inl hfinish)
    · exact .inr (.inr ⟨hno, hseqn, hbad.resolve_left (hstore hseqn)⟩)
  · rintro (hover | hfinish | ⟨hno, hseqn, hbad⟩)
    · exact .inl hover
    · exact .inr (.inr (.inl hfinish))
    · exact .inr (.inr (.inr ⟨hno, hseqn, .inr hbad⟩))

/-- An endpoint with a peer. -/
theorem succeeds_of_peered (h : Joint n) (hnarrow : n.Narrow) (hx : Measured (n.get x))
    (hs : (n.get x).conn.Peered) (hseg : seg ∈ (n.get x.other).log) :
    Succeeds ((n.get x).conn.onSegment seg) ↔ ¬ (n.get x).conn.Crashes seg := by
  obtain ⟨isn, ch, hl⟩ := h.linked_back hs
  rw [Connection.onSegment_of_peered hs, hx.wellFormed.onSegmentSynchronized_succeeds_iff hs,
    Connection.Crashes, not_iff_not]
  simp only [hs, true_and]
  refine and_congr_right fun _ => or_congr_right (and_congr_right fun hrst => ?_)
  have hbare (hsyn : seg.hasSyn = false) :
      ¬ (seg.hasAck = false ∧ seg.hasFin = true ∧
        (n.get x).conn.connectionState.refusesFin = true) := fun ⟨hack, hfin, _⟩ =>
    hl.sending.wired.not_bareFin hseg ⟨hrst, hsyn, hack, hfin⟩
  refine and_congr_right fun hsyn => ?_
  rw [or_iff_left (hbare hsyn), ackPanics_iff h hnarrow hx hs hseg hrst]

/-- An endpoint without a peer takes every segment the other side has sent. -/
theorem succeeds_of_not_peered (h : Joint n) (hx : Measured (n.get x))
    (hy : Measured (n.get x.other)) (hs : ¬ (n.get x).conn.Peered)
    (hseg : seg ∈ (n.get x.other).log) : Succeeds ((n.get x).conn.onSegment seg) := by
  have hshort := hy.logShort seg hseg
  unfold Connection.onSegment
  cases hst : (n.get x).conn.connectionState with
  | closed | reset =>
      simp only [succeeds_bind]
      have hlong : ¬ 2 ^ 32 ≤ seg.data.length := by
        rw [maxSegmentSize] at hshort
        omega
      obtain ⟨resp, hresp⟩ : Succeeds (responseToClosed seg) :=
        Connection.responseToClosed_succeeds_iff.mpr fun hbad => hlong hbad.2.2
      refine ⟨resp, hresp, ?_⟩
      cases resp <;> simp
  | listen =>
      refine (Connection.onSegmentListen_succeeds_iff hst).mpr fun hbad => ?_
      obtain ⟨hrst, -, hsyn, hdata⟩ := hbad
      cases link_back h x with
      | final hgone =>
          rw [Endpoint.state, hst] at hgone
          cases hgone
      | live _ hl =>
          exact hdata ((hl.sending.wired.segments seg hseg hrst).retransmittable.bare hsyn).1
  | synSent => exact Connection.onSegmentSynSent_succeeds seg hst hx.wellFormed
  | synReceived => exact absurd (.inr hst) hs
  | timeWait | established => exact absurd (.inl (by rw [hst]; rfl)) hs

/-- Between two endpoints a segment that was sent can be delivered unless it is
one of these, whatever was lost, repeated and reordered before. -/
theorem delivery_panics_iff (run : Reachable n) (hnarrow : n.Narrow)
    (hseg : seg ∈ (n.get x.other).log) :
    (¬ ∃ n', (system Addr Time).step n (x, .onSegment seg) n') ↔
      (n.get x).conn.Crashes seg := by
  have h := Joint.of_reachable run hnarrow.short
  have hx := measured_of_reachable run hnarrow x
  have hstep : (∃ n', (system Addr Time).step n (x, .onSegment seg) n') ↔
      Succeeds ((n.get x).conn.onSegment seg) := by
    constructor
    · rintro ⟨n', -, c', out, hc, -⟩
      exact ⟨c', (Connection.step_onSegment.mp hc).1⟩
    · rintro ⟨c', hc⟩
      exact ⟨_, hseg, c', .none, Connection.step_onSegment.mpr ⟨hc, rfl⟩, rfl⟩
  rw [hstep]
  by_cases hs : (n.get x).conn.Peered
  · rw [succeeds_of_peered h hnarrow hx hs hseg, not_not]
  · refine iff_of_false (not_not.mpr ?_) fun hbad => hs hbad.1
    exact succeeds_of_not_peered h hx (measured_of_reachable run hnarrow x.other) hs hseg

/-- The client fills the buffer of the server, and both close before the server reads. -/
def crossedCloses : List (Side × Op Nat) :=
  [(.server, .onSegment ⟨0#32, 0#32, 4096#16, .syn, []⟩),
   (.client, .onSegment ⟨0#32, 1#32, 4096#16, .syn ||| .ack, []⟩),
   (.server, .onSegment ⟨1#32, 1#32, 4096#16, .ack, []⟩),
   (.client, .callSend (List.replicate 4096 7))] ++
  ((List.range 8).flatMap fun k =>
    [(.server, .onSegment
       ⟨BitVec.ofNat 32 (1 + 512 * k), 1#32, 4096#16, .ack, List.replicate 512 7⟩),
     (.client, .onSegment
       ⟨1#32, BitVec.ofNat 32 (513 + 512 * k), BitVec.ofNat 16 (3584 - 512 * k), .ack, []⟩)]) ++
  [(.client, .callClose), (.server, .callClose)]

set_option maxRecDepth 20000 in
/-- The FIN of the server makes the client panic. -/
theorem delivery_panics_iff_full : ∃ n : Net Unit Nat, Reachable n ∧
    n.client.state = .established .opened .opened true true ∧
      ¬ ∃ n', (system Unit Nat).step n
        (.client, .onSegment ⟨1#32, 4097#32, 0#16, .fin ||| .ack, []⟩) n' := by
  obtain ⟨n, run, hst, ⟨hclient, hserver⟩, hseg, hcrash⟩ : ∃ n : Net Unit Nat, Reachable n ∧
      n.client.state = .established .opened .opened true true ∧
      (n.client.carried + 2 < 2 ^ 31 ∧ n.server.carried + 2 < 2 ^ 31) ∧
      ⟨1#32, 4097#32, 0#16, .fin ||| .ack, []⟩ ∈ n.server.log ∧
      n.client.conn.Crashes ⟨1#32, 4097#32, 0#16, .fin ||| .ack, []⟩ :=
    Transition.exists_reachableUnder step_of_next initial_zeroStart crossedCloses
      (by decide +kernel)
  have hnarrow : n.Narrow := by
    rintro (_ | _)
    · exact hclient
    · exact hserver
  exact ⟨n, run, hst, (delivery_panics_iff (x := .client) run hnarrow hseg).mpr hcrash⟩

end Net

end TcpState
