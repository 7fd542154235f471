import TcpState.Network.Joint

/-!
# The log of a sender has no gaps

Behind every segment that takes sequence numbers another one begins, up to the
next number, and a receiver has acknowledged whole segments. So the segment a
receiver waits for has been sent, unless it has everything. What was carried
and what is queued are never more than what was written.
-/

namespace TcpState

/-- The segment takes sequence numbers of its sender. -/
def SegmentMeta.Carries (s : SegmentMeta) : Prop := s.hasRst = false ∧ s.seqSize ≠ 0#32

variable {Addr Time : Type} {e x y : Endpoint Addr Time} {op : Op Time} {out : Output}
  {c₀ c' : Connection Addr Time}

/-- A segment that takes sequence numbers is followed by another one, or ends
at the next number. -/
def Gapless (e : Endpoint Addr Time) : Prop :=
  e.state.idle = false → ∀ s ∈ e.log, s.Carries →
    s.seqnAfter = e.conn.tx.next ∨ ∃ g ∈ e.log, g.Carries ∧ g.seqn = s.seqnAfter

/-- The receiver has acknowledged up to the end of a segment. -/
def EndsSegment (x y : Endpoint Addr Time) : Prop :=
  y.conn.Peered → ∃ s ∈ x.log, s.Carries ∧ s.seqnAfter = y.conn.rx.ackd

/-- The bytes on the wire and in the queue have been written. -/
def Paid (e : Endpoint Addr Time) : Prop :=
  e.carried + e.conn.tx.tx.bytes.length ≤ e.written.length

namespace Connection

/-- Besides repetitions, what a step adds to new data carries none. -/
theorem Remark.data_eq_nil {c : Connection Addr Time} {s : SegmentMeta} (h : Remark c op s)
    (hop : ∀ time, op ≠ .onTimeTick time) : s.data = [] := by
  cases h with
  | resend htick => exact absurd htick (hop _)
  | ack _ _ hdata => exact hdata
  | refusal _ _ hsize => exact hsize.1

theorem Parting.data_eq_nil {c : Connection Addr Time} {s : SegmentMeta} (h : Parting c op s)
    (hop : ∀ time, op ≠ .onTimeTick time) : s.data = [] := by
  cases h with
  | resend htick => exact absurd htick (hop _)
  | abort _ hsize => exact hsize.1
  | stray _ hdata => exact hdata

end Connection

namespace Gapless

/-- Segments that repeat or take no sequence numbers leave no gap. -/
theorem remarks (h : Gapless e) (hidle : e.state.idle = false)
    (hlogged : ∀ s ∈ e.conn.tx.reTx, s ∈ e.log) (out : Output) (new : List SegmentMeta)
    (hnext : c'.tx.next = e.conn.tx.next) (hsent : c'.userData.sent = e.log ++ new)
    (hnew : ∀ s ∈ new, Connection.Remark e.conn op s) : Gapless (e.after op c' out) := by
  intro _ s hs hcarries
  change s ∈ c'.userData.sent at hs
  change s.seqnAfter = c'.tx.next ∨ ∃ g ∈ c'.userData.sent, _
  have old (hmem : s ∈ e.log) : s.seqnAfter = c'.tx.next ∨
      ∃ g ∈ c'.userData.sent, g.Carries ∧ g.seqn = s.seqnAfter := by
    rw [hnext, hsent]
    refine (h hidle s hmem hcarries).imp_right ?_
    rintro ⟨g, hg, hgap⟩
    exact ⟨g, List.mem_append_left _ hg, hgap⟩
  rw [hsent, List.mem_append] at hs
  rcases hs with hs | hs
  · exact old hs
  · have hremark := hnew s hs
    cases hremark with
    | resend _ hmem => exact old (hlogged s hmem)
    | ack _ hflags hdata =>
        have hbits : s.hasSyn = false ∧ s.hasFin = false := by
          simp only [SegmentMeta.hasSyn, SegmentMeta.hasFin, hflags]
          decide
        exact absurd (SegmentMeta.seqSize_of_empty hbits.1 hbits.2 hdata) hcarries.2
    | refusal _ hrst => exact absurd (hcarries.1.symm.trans hrst) (by decide)

/-- A segment of `send_ack` begins where the last one ended. -/
theorem sends (h : Gapless e) (hidle : e.state.idle = false) (ht : Connection.TxSent c₀ c')
    (hnext : c₀.tx.next = e.conn.tx.next) (hsent : c₀.userData.sent = e.log) :
    Gapless (e.after op c' out) := by
  intro _ s hs hcarries
  change s ∈ c'.userData.sent at hs
  change s.seqnAfter = c'.tx.next ∨ ∃ g ∈ c'.userData.sent, _
  have hseqn : c₀.outSegment.seqn = e.conn.tx.next := hnext
  rcases ht.mem_sent hs with hs | rfl
  · rw [hsent] at hs
    rw [ht.next, ht.sent, hsent, hnext]
    rcases h hidle s hs hcarries with hlast | ⟨g, hg, hgap⟩
    · by_cases hsize : c₀.outSegment.seqSize = 0#32
      · rw [hsize, BitVec.add_zero]
        exact .inl hlast
      · rw [if_neg fun hskip : c₀.skipsRepeat => hsize hskip.1]
        exact .inr ⟨_, List.mem_append_right _ (List.mem_singleton_self _),
          ⟨c₀.outSegment_hasRst, hsize⟩, hseqn.trans hlast.symm⟩
    · exact .inr ⟨g, List.mem_append_left _ hg, hgap⟩
  · rw [ht.next, hnext]
    exact .inl (congrArg (· + _) hseqn)

/-- One segment that begins the log. -/
theorem begins {s : SegmentMeta} (hlog : e.log = [s]) (hnext : e.conn.tx.next = s.seqnAfter) :
    Gapless e := by
  intro _ g hg _
  rw [hlog, List.mem_singleton] at hg
  rw [hg, hnext]
  exact .inl rfl

theorem step (h : Gapless e) (hlogged : ∀ s ∈ e.conn.tx.reTx, s ∈ e.log)
    (effect : Connection.TxEffect e.conn op out c') (hop : op ≠ .callConnect)
    (hlisten : e.state = .listen → e.log = []) : Gapless (e.after op c' out) := by
  have peered {c : Connection Addr Time} (hs : c.Peered) : c.connectionState.idle = false :=
    hs.not_idle
  cases effect with
  | kept _ htx hstate hsent hnew =>
      intro hidle'
      have hidle : e.state.idle = false := by
        rcases hstate with heq | ⟨hs, -⟩
        · exact (congrArg ConnectionState.idle heq).symm.trans hidle'
        · exact peered (hs.elim .inl And.left)
      exact h.remarks hidle hlogged _ _ htx.next hsent hnew hidle'
  | cleared _ hidle =>
      intro hidle'
      exact absurd (hidle.symm.trans hidle') (by decide)
  | connecting => exact absurd rfl hop
  | @answered seg _ hst _ _ hc =>
      refine begins (hc.sent.trans (by rw [← Endpoint.log, hlisten hst]; rfl)) ?_
      change c'.tx.next = _
      rw [hc.tx, TxBuffer.onSend_next]
      rfl
  | queued _ hs _ htx _ hsent =>
      have hidle : e.state.idle = false :=
        hs.elim ConnectionState.not_idle_of_opening
          fun hs => ConnectionState.not_idle_of_synced hs.1
      exact h.remarks hidle hlogged _ [] (by rw [htx]) (hsent.trans (List.append_nil _).symm)
        (List.forall_mem_nil _)
  | appended _ _ hs _ _ _ ht =>
      exact h.sends (ConnectionState.not_idle_of_synced hs) ht rfl rfl
  | marked _ hs _ _ _ htx _ _ hsent ht =>
      exact h.sends (peered hs) ht (by rw [htx]; rfl) hsent
  | acked hs _ _ _ htx _ hsent hnew =>
      exact h.remarks (peered hs) hlogged _ _ (by rw [htx]; rfl) hsent hnew
  | stored hs _ htx _ _ hsent ht =>
      exact h.sends (peered hs) ht (by rw [htx]; rfl) hsent
  | @synAcked seg hst =>
      exact h.remarks (by rw [Endpoint.state, hst]; rfl) hlogged _ [] rfl
        (by rw [Connection.synAcked_sent, List.append_nil]) (List.forall_mem_nil _)
  | @opened seg _ hst _ _ _ _ _ ht =>
      exact h.sends (by rw [Endpoint.state, hst]; rfl) ht (by rw [Connection.entered_tx]; rfl)
        (by rw [Connection.entered_sent, Connection.synAcked_sent])

end Gapless

namespace EndsSegment

theorem mono (h : EndsSegment x y) {x' : Endpoint Addr Time} (hlog : x.log ⊆ x'.log) :
    EndsSegment x' y := fun hpeer =>
  (h hpeer).imp fun _ hs => hs.imp_left fun hmem => hlog hmem

theorem congr (h : EndsSegment x y) (hpeer : c'.Peered → y.conn.Peered)
    (hackd : c'.rx.ackd = y.conn.rx.ackd) : EndsSegment x (y.after op c' out) := by
  intro hp
  change ∃ s ∈ x.log, s.Carries ∧ s.seqnAfter = c'.rx.ackd
  rw [hackd]
  exact h (hpeer hp)

/-- A SYN of the sender opens the receive buffer behind it. -/
theorem opens {seg : SegmentMeta} (hseg : seg ∈ x.log) (hrst : seg.hasRst = false)
    (hsize : seg.seqSize = 1#32) (hrx : c'.rx = y.conn.rx.init seg.seqn) :
    EndsSegment x (y.after op c' out) := by
  intro _
  refine ⟨seg, hseg, ⟨hrst, by rw [hsize]; decide⟩, ?_⟩
  change seg.seqn + seg.seqSize = c'.rx.ackd
  rw [hsize, hrx]
  rfl

theorem step (h : EndsSegment x y) (hsent : ∀ seg, op = .onSegment seg → seg ∈ x.log)
    (hsyn : ∀ seg ∈ x.log, seg.hasRst = false → seg.hasSyn = true → seg.seqSize = 1#32)
    (effect : Connection.RxEffect y.conn op out c') : EndsSegment x (y.after op c' out) := by
  cases effect with
  | kept _ hrx hstate =>
      refine h.congr (fun hp => ?_) (by rw [hrx])
      rcases hstate with heq | ⟨hs, -⟩
      · unfold Connection.Peered at hp ⊢
        rw [← heq]
        exact hp
      · exact hs
  | cleared _ hidle => exact fun hp => absurd (hp.not_idle.symm.trans hidle) (by decide)
  | connecting _ _ hstate =>
      intro hp
      change c'.Peered at hp
      rcases hp with hs | hs <;> rw [hstate] at hs <;> cases hs
  | answered _ hrst hflag _ hrx =>
      exact opens (hsent _ rfl) hrst (hsyn _ (hsent _ rfl) hrst hflag) hrx
  | synAcked _ hrst _ hflag _ _ hrx =>
      exact opens (hsent _ rfl) hrst (hsyn _ (hsent _ rfl) hrst hflag) hrx
  | @stored seg _ hpeer hs hrx =>
      have hackd := (RxBuffer.write_spec hrx).2.2.1
      by_cases hsize : seg.seqSize = 0#32
      · rw [hsize, BitVec.add_zero] at hackd
        exact h.congr (fun _ => hpeer) hackd
      · refine fun _ => ⟨seg, hsent _ rfl, ⟨hs.noRst, hsize⟩, ?_⟩
        change seg.seqn + seg.seqSize = c'.rx.ackd
        rw [hackd, hs.inOrder]
  | finOnly hpeer _ _ _ _ _ _ _ hrx => exact h.congr (fun _ => hpeer) (by rw [hrx])
  | waiting | ended => exact h.congr id rfl
  | read hst hread _ _ hrx =>
      refine h.congr (fun _ => .inl (ConnectionState.synced_of_isEstablished hst)) ?_
      rw [hrx]
      exact (RxBuffer.readBytes_spec hread).2.2.2.1
  | drained hst _ hread _ hstate =>
      intro hp
      refine h.congr (fun _ => .inl (ConnectionState.synced_of_isEstablished hst)) ?_ hp
      rcases hstate with ⟨-, -, hrx⟩ | ⟨hidle, -⟩
      · rw [hrx]
        exact (RxBuffer.readBytes_spec hread).2.2.2.1
      · exact absurd (hp.not_idle.symm.trans hidle) (by decide)

end EndsSegment

namespace Paid

/-- A step that puts no new data on the wire. -/
theorem quiet (h : Paid e) (new : List SegmentMeta)
    (hqueue : c'.tx.tx.bytes.length ≤ e.conn.tx.tx.bytes.length)
    (hsent : c'.userData.sent = e.log ++ new)
    (hnew : (∀ time, op ≠ .onTimeTick time) → ∀ s ∈ new, s.data = []) :
    Paid (e.after op c' out) := by
  have hfresh : ((e.conn.fresh op c').map (·.data.length)).sum = 0 := by
    rw [List.sum_eq_zero_iff_forall_eq_nat]
    intro k hk
    obtain ⟨s, hs, rfl⟩ := List.mem_map.mp hk
    obtain ⟨hmem, hop⟩ := Connection.mem_fresh hs hsent
    rw [hnew hop s hmem]
    rfl
  have hwritten : e.written.length ≤ (e.after op c' out).written.length := by
    rw [Endpoint.after, List.length_append]
    exact Nat.le_add_right _ _
  unfold Paid at h ⊢
  change e.carried + _ + c'.tx.tx.bytes.length ≤ _
  rw [hfresh]
  omega

/-- What `send_ack` puts on the wire leaves the queue. -/
theorem sends (h : Paid e) (hop : ∀ time, op ≠ .onTimeTick time) (ht : Connection.TxSent c₀ c')
    (hqueue : c₀.tx.tx.bytes.length ≤ e.conn.tx.tx.bytes.length + (out.accepted op).length)
    (hsent : c₀.userData.sent = e.log) : Paid (e.after op c' out) := by
  have hfresh := ht.fresh_data hop hsent
  have hdata : c₀.outData.length = min c₀.outLimit c₀.tx.tx.bytes.length := by
    rw [Connection.outData, List.length_take]
  unfold Paid at h ⊢
  change e.carried + _ + c'.tx.tx.bytes.length ≤ (e.written ++ out.accepted op).length
  rw [hfresh, ht.bytes, List.length_drop, List.length_append]
  omega

theorem step (h : Paid e) (effect : Connection.TxEffect e.conn op out c') :
    Paid (e.after op c' out) := by
  have drop (seg : SegmentMeta) : ∀ time, (.onSegment seg : Op Time) ≠ .onTimeTick time :=
    fun _ h => nomatch h
  cases effect with
  | kept _ htx _ hsent hnew =>
      exact h.quiet _ (by rw [htx.queue]) hsent fun hop s hs => (hnew s hs).data_eq_nil hop
  | cleared _ _ _ htx hsent hnew =>
      refine h.quiet _ ?_ hsent fun hop s hs => (hnew s hs).data_eq_nil hop
      rw [htx]
      exact Nat.zero_le _
  | connecting _ _ hc =>
      refine h.quiet _ (le_of_eq ?_) hc.sent fun _ s hs => ?_
      · rw [hc.tx, TxBuffer.onSend_tx]
        rfl
      · rw [List.mem_singleton.mp hs]
        rfl
  | answered _ _ _ hc =>
      refine h.quiet _ (le_of_eq ?_) hc.sent fun _ s hs => ?_
      · rw [hc.tx, TxBuffer.onSend_tx]
        rfl
      · rw [List.mem_singleton.mp hs]
        rfl
  | @queued inputData q _ _ hout _ hq htx _ hsent =>
      have hbytes := (BlobQueue.writeBytes_spec hq).1
      have hfresh : e.conn.fresh (.callSend inputData) c' = [] :=
        Connection.fresh_of_sent (fun _ h => nomatch h) (hsent.trans (List.append_nil _).symm)
      unfold Paid at h ⊢
      change e.carried + ((e.conn.fresh _ c').map _).sum + c'.tx.tx.bytes.length ≤
        (e.written ++ out.accepted _).length
      rw [hfresh, htx, hout, hbytes, List.length_append, List.length_append, List.map_nil,
        List.sum_nil]
      omega
  | appended _ hout _ _ hq _ ht =>
      refine h.sends (fun _ h => (nomatch h)) ht (le_of_eq ?_) rfl
      rw [hout]
      exact (congrArg List.length (BlobQueue.writeBytes_spec hq).1).trans List.length_append
  | marked hop _ _ _ _ htx _ _ hsent ht =>
      refine h.sends ?_ ht ?_ hsent
      · rcases hop with rfl | rfl <;> exact fun _ h => nomatch h
      · rw [htx]
        exact Nat.le_add_right _ _
  | acked _ _ _ _ htx _ hsent hnew =>
      refine h.quiet _ ?_ hsent fun hop s hs => (hnew s hs).data_eq_nil hop
      rw [htx]
      exact Nat.le_refl _
  | stored _ _ htx _ _ hsent ht =>
      refine h.sends (drop _) ht ?_ hsent
      rw [htx]
      exact Nat.le_add_right _ _
  | @synAcked seg =>
      exact h.quiet [] (Nat.le_refl _)
        (by rw [Connection.synAcked_sent, List.append_nil]) fun _ => List.forall_mem_nil _
  | @opened seg _ _ _ _ _ _ _ ht =>
      refine h.sends (drop _) ht ?_ (by rw [Connection.entered_sent, Connection.synAcked_sent])
      rw [Connection.entered_tx]
      exact Nat.le_add_right _ _

end Paid

section Linked

open Transfer (Channel)

variable {isn : SeqN} {ch : Channel Symbol}

/-- An open sender has not put out its FIN. -/
theorem Linked.fin_notMem (h : Linked x y isn ch) (hst : x.state = .fullyOpen) :
    .fin ∉ ch.sent := by
  intro hfin
  have hwrote := h.sending.wroteFin (by rw [hst]; rfl) hfin
  rw [hst] at hwrote
  cases hwrote

/-- What the receiver waits for is data. -/
theorem Linked.carries_data (h : Linked x y isn ch) (hshort : x.carried < 2 ^ 31)
    (hx : x.state = .fullyOpen) (hy : y.conn.Peered) {s : SegmentMeta} (hs : s ∈ x.log)
    (hcarries : s.Carries) (hseqn : s.seqn = y.conn.rx.ackd) :
    s.data ≠ [] ∧ s.hasSyn = false ∧ s.hasFin = false ∧ s.hasAck = true ∧
      s.data.length ≤ maxSegmentSize := by
  have hw := h.sending.wired.segments s hs hcarries.1
  have hh := h.receiving.holds hy
  have hlen := Nat.le_trans h.delivers.stored.length_le (h.sending.wired.length_le hshort)
  have hsyn : s.hasSyn = false := by
    rw [Bool.eq_false_iff]
    intro hsyn
    have heq : isn + BitVec.ofNat 32 ch.stored.length = isn + BitVec.ofNat 32 0 := by
      rw [← hh.ackd, ← hseqn, hw.first hsyn]
      exact (BitVec.add_zero _).symm
    have hopened := hh.opened
    rw [TxBuffer.maxLength] at hlen
    have := (Circular.add_ofNat_inj isn (by omega) (by decide)).mp heq
    omega
  have hsize : s.symbols ≠ [] := by
    intro hnil
    refine hcarries.2 ?_
    rw [s.seqSize_eq_ofNat, hnil]
    rfl
  have hfin : s.hasFin = false := by
    rw [Bool.eq_false_iff]
    intro hfin
    obtain ⟨p, hp, hcopy⟩ := hw.copies hsize
    have hmem : .fin ∈ p.body := by
      rw [hcopy.body]
      exact SegmentMeta.fin_mem_symbols.mpr hfin
    exact h.fin_notMem hx
      (List.drop_subset _ _ ((h.delivers.wire p hp).2.subset hmem))
  refine ⟨fun hdata => ?_, hsyn, hfin, hw.retransmittable.acked hsyn, hw.retransmittable.short⟩
  exact hcarries.2 (SegmentMeta.seqSize_of_empty hsyn hfin hdata)

end Linked

namespace Net

variable {n n' : Net Addr Time}

/-- What a run leaves of the logs. -/
structure Whole (n : Net Addr Time) : Prop where
  gapless : ∀ x : Side, (n.get x.other).state.gone = false → Gapless (n.get x)
  ends : ∀ x : Side, EndsSegment (n.get x) (n.get x.other)

theorem Joint.syn_size (h : Joint n) {x : Side} (hlive : (n.get x.other).state.gone = false)
    {seg : SegmentMeta} (hseg : seg ∈ (n.get x).log) (hrst : seg.hasRst = false)
    (hsyn : seg.hasSyn = true) : seg.seqSize = 1#32 := by
  cases h.link x with
  | final hgone => exact absurd (hgone.symm.trans hlive) (by decide)
  | live _ hl =>
      have hret := (hl.sending.wired.segments seg hseg hrst).retransmittable
      rw [seg.seqSize_eq_ofNat, hret.symbols_of_syn hsyn]
      rfl

variable [UserTime Time]

theorem Whole.of_initial (h : Initial n) : Whole n := by
  obtain ⟨⟨remote, options, userData, c, r, hsent, hc, hclient⟩,
    ⟨addr, options', userData', -, hserver⟩⟩ := h
  have unpeered {c : Connection Addr Time} (hst : c.connectionState = .listen ∨
      c.connectionState = .synSent) : ¬ c.Peered := by
    rintro (hs | hs) <;> rcases hst with hst | hst <;> rw [hst] at hs <;> cases hs
  cases Connection.connectStep_of_ok hc with
  | refused hs => exact absurd rfl hs.1
  | connecting _ ha =>
      have hlog := ha.sent
      have hnext : c.tx.next = _ := (congrArg TxBuffer.next ha.tx).trans (TxBuffer.onSend_next _ _)
      refine ⟨?_, ?_⟩
      · rintro (_ | _) -
        · rw [Net.get, hclient]
          exact Gapless.begins (hlog.trans (congrArg (· ++ _) hsent)) hnext
        · intro hidle
          rw [Net.get, hserver] at hidle
          cases hidle
      · rintro (_ | _) hp
        · refine absurd hp (unpeered (.inl ?_))
          change n.server.conn.connectionState = _
          rw [hserver]
          rfl
        · refine absurd hp (unpeered (.inr ?_))
          change n.client.conn.connectionState = _
          rw [hclient]
          exact ha.state

theorem Whole.step (h : Whole n) (hjoint : Joint n) {i : Side × Op Time}
    (hs : (system Addr Time).step n i n') : Whole n' := by
  obtain ⟨hperm, c', out, hc, rfl⟩ := hs
  obtain ⟨x, op⟩ := i
  dsimp only at hperm hc ⊢
  have hop : op ≠ .callConnect := by
    rintro rfl
    exact hperm
  have hsent (seg : SegmentMeta) (heq : op = .onSegment seg) : seg ∈ (n.get x.other).log := by
    rw [heq] at hperm
    exact hperm
  have hwf := hjoint.wellFormed x
  have effect := hwf.txEffect hc
  have hback : x.other.other = x := by cases x <;> rfl
  -- The side that steps, and then the other one.
  have sides {P : Side → Prop} (hx : P x) (hy : P x.other) (z : Side) : P z := by
    cases x <;> cases z <;> assumption
  refine ⟨sides (fun hlive => ?_) (fun hlive => ?_), sides ?_ ?_⟩
  · rw [get_set_other] at hlive
    rw [get_set]
    refine (h.gapless x hlive).step (hjoint.logged x) effect hop fun hst => ?_
    cases x with
    | client => exact absurd hst hjoint.client.1
    | server => exact ((hjoint.waiting hst).resolve_left fun hgone =>
        absurd (hgone.symm.trans hlive) (by decide)).2.1
  · rw [hback, get_set] at hlive
    rw [get_set_other]
    refine h.gapless x.other ?_
    rw [hback]
    by_contra hgone
    exact absurd (((effect.moves hop).gone (by simpa using hgone)).symm.trans hlive) (by decide)
  · rw [get_set, get_set_other]
    exact (h.ends x).mono effect.sent_isPrefix.subset
  · rw [hback, get_set, get_set_other]
    have hends := h.ends x.other
    rw [hback] at hends
    cases hgone : (n.get x).state.gone with
    | true =>
        -- A connection that is gone finds no peer any more.
        intro hp
        have hgone' : c'.connectionState.gone = true := (effect.moves hop).gone hgone
        exact absurd ((ConnectionState.idle_of_gone hgone').symm.trans
          (Connection.Peered.not_idle hp)) (by decide)
    | false =>
        refine hends.step hsent (fun seg hseg => ?_) (hwf.rxEffect hc)
        refine hjoint.syn_size ?_ hseg
        rw [hback]
        exact hgone

theorem Whole.of_reachable (run : Reachable n) (hshort : n.Short) : Whole n := by
  refine (Transition.Reachable.invariant (P := fun n => n.Short → Joint n ∧ Whole n)
    (fun _ h _ => ⟨Joint.of_initial h, .of_initial h⟩) (fun n i n' ih hs hshort => ?_) run
    hshort).2
  have hbefore : n.Short := fun x => Nat.lt_of_le_of_lt (Joint.carried_mono hs x) (hshort x)
  obtain ⟨hjoint, hwhole⟩ := ih hbefore
  exact ⟨hjoint.step hbefore hs, hwhole.step hjoint hs⟩

/-- No side carries more than its application wrote. -/
theorem paid_of_reachable (run : Reachable n) (x : Side) : Paid (n.get x) := by
  refine Transition.ReachableUnder.invariant (P := fun n => ∀ x, Paid (n.get x)) ?_ ?_ run x
  · rintro n ⟨⟨remote, options, userData, c, r, -, hc, hclient⟩,
      ⟨addr, options', userData', -, hserver⟩⟩ (_ | _)
    · rw [Net.get, hclient]
      cases Connection.connectStep_of_ok hc with
      | refused hs => exact absurd rfl hs.1
      | connecting _ ha =>
          have hqueue : c.tx.tx = _ := (congrArg TxBuffer.tx ha.tx).trans (TxBuffer.onSend_tx _ _)
          change 0 + c.tx.tx.bytes.length ≤ 0
          rw [hqueue]
          exact Nat.le_refl _
    · rw [Net.get, hserver]
      exact Nat.le_refl _
  · rintro n ⟨y, op⟩ n' hreach ih - ⟨-, c', out, hc, rfl⟩ x
    have hwf := (Reachable.conn hreach y).wellFormed
    have hpaid := (ih y).step (hwf.txEffect hc)
    cases x <;> cases y
    case client.client | server.server => exact hpaid
    case client.server => exact ih .client
    case server.client => exact ih .server

end Net

end TcpState
