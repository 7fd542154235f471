import TcpState.Network.Moves
import TcpState.Network.Receiving

/-!
# One direction between two endpoints

A sender and a receiver that is not cleared are joined by a channel. Once the
receiver is cleared for good, what it read is final. The channel is unknown
again after the receiver has fallen back to Listen, which only happens to it
once the sender is gone.
-/

namespace TcpState

open Transfer (Piece Channel)

variable {Addr Time : Type}

/-- What the receiver read is final. -/
structure Finished (x y : Endpoint Addr Time) : Prop where
  read : y.read <+: x.written
  ended : y.ended = true → y.read = x.written ∧
    (x.state.gone = true ∨ x.conn.tx.tx.fin = true)

/-- The channel from a sender to a receiver. -/
structure Linked (x y : Endpoint Addr Time) (isn : SeqN) (ch : Channel Symbol) : Prop where
  delivers : ch.Delivers
  sending : Sending x isn ch
  receiving : Receiving y isn ch
  acks : x.state.gone = false → ch.Acknowledges ∧ AcksStored y.log isn ch

inductive Link (x y : Endpoint Addr Time) : Prop
  | final (hgone : y.state.gone = true) (h : Finished x y)
  | live (hgone : y.state.gone = false) {isn : SeqN} {ch : Channel Symbol}
      (h : Linked x y isn ch)

variable {x y : Endpoint Addr Time} {isn : SeqN} {ch : Channel Symbol} {op : Op Time}
  {out : Output} {c' : Connection Addr Time}

section Store

variable {log : List SegmentMeta} {carried : Nat} {written : List UInt8} {tx : TxBuffer}

/-- The sender does not see what the receiver stores. -/
theorem OnWire.congr {ch' : Channel Symbol} {s : SegmentMeta} (h : OnWire isn ch s)
    (hwire : ch'.wire = ch.wire) : OnWire isn ch' s :=
  ⟨h.retransmittable, h.first, by rw [hwire]; exact h.copies⟩

theorem Sending.of_stored {e : Endpoint Addr Time} (h : Sending e isn ch) (s : List Symbol) :
    Sending e isn { ch with stored := s } where
  wired := ⟨fun g hg hrst => (h.wired.segments g hg hrst).congr rfl, h.wired.framed, h.wired.size⟩
  idle := h.idle
  buffered := fun hidle =>
    have hb := h.buffered hidle
    ⟨⟨hb.realises.initSeqn, hb.realises.unack, hb.realises.next, hb.realises.acked,
      hb.realises.reTx⟩, hb.opened, hb.queue⟩
  wroteFin := h.wroteFin
  handshake := h.handshake

/-- The receiver sees only what it stored. -/
theorem Receiving.congr {e : Endpoint Addr Time} {ch' : Channel Symbol}
    (h : Receiving e isn ch) (hstored : ch'.stored = ch.stored) : Receiving e isn ch' where
  holds := fun hs =>
    have hh := h.holds hs
    ⟨by rw [hstored]; exact hh.ackd, by rw [hstored]; exact hh.bytes,
      by rw [hstored]; exact hh.opened, by rw [hstored]; exact hh.fin⟩
  unopened := by rw [hstored]; exact h.unopened
  early := h.early
  ended := by rw [hstored]; exact h.ended
  readClosed := h.readClosed

/-- An endpoint that waits for the SYN of its peer has received nothing. -/
theorem Receiving.connecting {e : Endpoint Addr Time}
    (hst : e.state = .synSent ∨ e.state = .listen) (hread : e.read = [])
    (hended : e.ended = false) (hstored : ch.stored = []) : Receiving e isn ch where
  holds := by
    rintro (hs | hs) <;> rcases hst with hst | hst <;> rw [← Endpoint.state, hst] at hs <;> cases hs
  unopened := fun _ => hstored
  early := fun _ => ⟨hread, hended⟩
  ended := fun h => absurd (hended.symm.trans h) Bool.false_ne_true
  readClosed := by
    rcases hst with hst | hst <;> rw [hst] <;> exact fun h => absurd h Bool.false_ne_true

theorem AcksStored.of_noAck (h : ∀ s ∈ log, s.hasAck = false) : AcksStored log isn ch :=
  fun s hs _ hack => absurd (hack.symm.trans (h s hs)) (by decide)

end Store

namespace Finished

/-- What is read of a channel is final. -/
theorem of_received (hd : ch.Delivers) (hs : Sending x isn ch)
    (hwf : Connection.WellFormed x.conn) (hr : Received y ch) : Finished x y where
  read := (hr.read.trans (Symbol.bytes_isPrefix hd.stored)).trans hs.bytes_isPrefix
  ended := fun hend => by
    obtain ⟨hfin, hread⟩ := hr.ended hend
    have hall : ch.stored = ch.sent := hs.wired.framed.finLast.eq_of_isPrefix hd.stored hfin
    rw [hall] at hfin hread
    obtain ⟨hwritten, hsealed⟩ := hs.complete hwf hfin
    exact ⟨hread.trans hwritten, hsealed⟩

theorem send (h : Finished x y) (hwf : Connection.WellFormed x.conn)
    (effect : Connection.TxEffect x.conn op out c') (hop : op ≠ .callConnect) :
    Finished (x.after op c' out) y where
  read := h.read.trans (List.prefix_append _ _)
  ended := fun hend => by
    obtain ⟨hread, hsealed⟩ := h.ended hend
    have hnil : out.accepted op = [] :=
      effect.accepted_eq_nil (hsealed.imp_left ConnectionState.idle_of_gone)
    refine ⟨?_, ?_⟩
    · change _ = x.written ++ _
      rw [hnil, List.append_nil]
      exact hread
    · rcases hsealed with hgone | hfin
      · exact .inl ((effect.moves hop).gone hgone)
      · exact effect.fin_kept hwf hop hfin

/-- A receiver that is gone reads nothing. -/
theorem receive (h : Finished x y) (hgone : y.state.gone = true)
    (effect : Connection.RxEffect y.conn op out c') : Finished x (y.after op c' out) := by
  have hidle := ConnectionState.idle_of_gone hgone
  have hest (hst : y.state.isEstablished = true) : False := by
    rw [ConnectionState.not_idle_of_synced (ConnectionState.synced_of_isEstablished hst)] at hidle
    cases hidle
  have unread (hout : ∀ data, out ≠ .recv (.ok data)) : Finished x (y.after op c' out) := by
    obtain ⟨hread, hended⟩ := Receiving.after_unread y op c' hout
    constructor
    · rw [hread]
      exact h.read
    · rw [hread, hended]
      exact h.ended
  cases effect with
  | kept hout => exact unread hout
  | cleared hout => exact unread hout
  | connecting hout => exact unread hout
  | answered => exact unread nofun
  | synAcked => exact unread nofun
  | stored => exact unread nofun
  | finOnly => exact unread nofun
  | waiting _ _ hr => exact unread fun data hdata => hr data (Output.recv.inj hdata)
  | ended hst => exact (hest hst).elim
  | read hst => exact (hest hst).elim
  | drained hst => exact (hest hst).elim

end Finished

namespace Linked

/-- The acknowledgements an operation adds are for what is stored then. -/
theorem acksStored (h : AcksStored y.log isn ch) (hr : Receiving y isn ch) {b : List Symbol}
    (hr' : Receiving (y.after op c' out) isn (ch.store b))
    (hlogged : ∀ s ∈ y.conn.tx.reTx, s ∈ y.log)
    (hputs : ∀ s ∈ c'.userData.sent, s ∈ y.log ∨ Connection.Puts y.conn op c' s)
    (hgone : c'.connectionState.gone = false)
    (hlisten : c'.connectionState = .listen → y.state = .listen) :
    AcksStored (y.after op c' out).log isn (ch.store b) := by
  have hlen : ch.stored.length ≤ (ch.store b).stored.length := by
    rw [Channel.store, List.length_append]
    exact Nat.le_add_right _ _
  intro s hs hrst hack
  have old (hmem : s ∈ y.log) : ∃ n, 1 ≤ n ∧ n ≤ (ch.store b).stored.length ∧
      s.ackn = isn + BitVec.ofNat 32 n := by
    obtain ⟨n, hpos, hn, hackn⟩ := h s hmem hrst hack
    exact ⟨n, hpos, Nat.le_trans hn hlen, hackn⟩
  rcases hputs s hs with hmem | hput
  · exact old hmem
  cases hput with
  | remark hrem =>
      cases hrem with
      | resend _ hmem => exact old (hlogged s hmem)
      | ack hpeer _ _ hackn =>
          have hh := hr.holds hpeer
          exact ⟨_, hh.opened, hlen, hackn.trans hh.ackd⟩
      | refusal _ hbad => rw [hrst] at hbad; cases hbad
  | parting hidle hfrom =>
      have hst' : c'.connectionState = .listen := by
        by_contra hne
        rw [ConnectionState.gone_of_idle hidle hne] at hgone
        cases hgone
      have hst := hlisten hst'
      rw [Endpoint.state, hfrom hst'] at hst
      cases hst
  | built hpeer _ hackn =>
      have hh := hr'.holds hpeer
      exact ⟨_, hh.opened, Nat.le_refl _, hackn.trans hh.ackd⟩

/-- The sender takes a step that does not start its stream. -/
theorem send (h : Linked x y isn ch) (hwf : Connection.WellFormed x.conn)
    (hlogged : ∀ s ∈ x.conn.tx.reTx, s ∈ x.log) (hbound : x.carried < 2 ^ 31)
    (told : x.state.idle = false → Sending.Told op isn ch)
    (effect : Connection.TxEffect x.conn op out c') (hop : op ≠ .callConnect)
    (hanswer : x.state = .listen → c'.connectionState ≠ .synReceived)
    (hrelisten : c'.connectionState = .listen → x.state ≠ .synReceived) :
    ∃ ch', Linked (x.after op c' out) y isn ch' := by
  have hkept (hgone : (x.after op c' out).state.gone = false) : x.state.gone = false := by
    by_contra hwas
    have hgone' : c'.connectionState.gone = true := (effect.moves hop).gone (by simpa using hwas)
    exact absurd (hgone'.symm.trans hgone) (by decide)
  obtain ⟨ch', ev⟩ := h.sending.evolves hwf hlogged hbound h.delivers
    (fun hidle => (h.acks (ConnectionState.not_gone_of_not_idle hidle)).1) told effect hop hanswer
    hrelisten
  refine ⟨ch', ev.delivers h.delivers, ev.sending, h.receiving.congr ev.stored, fun hgone => ?_⟩
  obtain ⟨hacks, hstored⟩ := h.acks (hkept hgone)
  refine ⟨ev.acknowledges h.delivers hacks, ?_⟩
  unfold AcksStored
  rw [ev.stored]
  exact hstored

/-- The receiver takes a step that does not throw its stream away. -/
theorem receive (h : Linked x y isn ch) (hwfx : Connection.WellFormed x.conn)
    (hwf : Connection.WellFormed y.conn) (hlogged : ∀ s ∈ y.conn.tx.reTx, s ∈ y.log)
    (hbound : x.carried < 2 ^ 31) (hsent : ∀ seg, op = .onSegment seg → seg ∈ x.log)
    (hrx : Connection.RxEffect y.conn op out c') (htx : Connection.TxEffect y.conn op out c')
    (hop : op ≠ .callConnect) (hrelisten : c'.connectionState = .listen → y.state ≠ .synReceived) :
    Link x (y.after op c' out) := by
  have hmoves := htx.moves hop
  have hlisten (hl : c'.connectionState = .listen) : y.state = .listen :=
    (hmoves.of_listen hl).resolve_right fun hrec => hrelisten hl hrec.1
  obtain ⟨b, adv⟩ := h.receiving.advances hwf h.delivers (h.sending.wired.length_le hbound)
    (fun seg heq hrst => h.sending.wired.segments seg (hsent seg heq) hrst) hrx hop
    hmoves.of_synReceived hlisten
  have hd : (ch.store b).Delivers := by
    rcases adv.next with rfl | ⟨p, hp, hstart, rfl⟩
    · rw [Channel.store_nil]
      exact h.delivers
    · exact h.delivers.store hp hstart
  have hs : Sending x isn (ch.store b) := h.sending.of_stored _
  cases hgone : (y.after op c' out).state.gone with
  | true => exact .final hgone (.of_received hd hs hwfx adv.received)
  | false =>
      have hr := adv.receiving hgone
      refine .live hgone ⟨hd, hs, hr, fun hx => ?_⟩
      obtain ⟨hacks, hstored⟩ := h.acks hx
      exact ⟨hacks.store b, acksStored hstored h.receiving hr hlogged
        (fun s hmem => htx.puts hop hmem) hgone hlisten⟩

/-- The receiver falls back to Listen after the sender is gone. -/
theorem relisten (h : Linked x y isn ch) (hgone : x.state.gone = true)
    (hst : y.state = .synReceived) (hst' : c'.connectionState = .listen)
    (hout : ∀ data, out ≠ .recv (.ok data)) : Link x (y.after op c' out) := by
  obtain ⟨hread, hended⟩ := Receiving.after_unread y op c' hout
  have hs' : ¬ c'.Peered := by
    rintro (hs | hs) <;> rw [hst'] at hs <;> cases hs
  have hlive : (y.after op c' out).state.gone = false := by
    change c'.connectionState.gone = false
    rw [hst']
    rfl
  obtain ⟨hread₀, hended₀⟩ := h.receiving.early (by rw [hst]; rfl)
  refine .live hlive ⟨h.delivers.restart, h.sending.of_stored [], ?_, fun hx => ?_⟩
  · constructor
    · exact fun hp => absurd hp hs'
    · exact fun _ => rfl
    · rw [hread, hended]
      exact fun _ => ⟨hread₀, hended₀⟩
    · rw [hended, hended₀]
      exact nofun
    · rw [show (y.after op c' out).state.readClosed = false by
        change c'.connectionState.readClosed = false
        rw [hst']
        rfl]
      exact nofun
  · exact absurd (hgone.symm.trans hx) (by decide)

/-- What was written is what the peer has read and stores, followed by the rest
of what is kept for resending, and by the queue. -/
theorem written_eq (h : Linked x y isn ch) (hidle : x.state.idle = false) (hy : y.conn.Peered) :
    ∃ k, x.written =
      y.read ++ y.conn.rx.bytes ++ x.conn.tx.keptData.drop k ++ x.conn.tx.tx.bytes := by
  have hb := h.sending.buffered hidle
  obtain ⟨hacks, -⟩ := h.acks (ConnectionState.not_gone_of_not_idle hidle)
  obtain ⟨k, hsent⟩ := hacks.sent_eq h.delivers
  refine ⟨(Symbol.bytes ((Piece.bodies ch.pending).take k)).length, ?_⟩
  rw [← hb.queue, hsent, Symbol.bytes_append, Symbol.bytes_drop, (h.receiving.holds hy).bytes,
    TxBuffer.keptData, ← bytes_bodies hb.realises.reTx]

end Linked

namespace Sending

/-- The stream that a SYN opens. -/
theorem opening {e : Endpoint Addr Time} {s : SegmentMeta} (hlog : e.log = [s])
    (hflags : s.flags = .syn ∨ s.flags = .syn ||| .ack) (hdata : s.data = [])
    (hopening : e.state.opening = true) (hwritten : e.written = [])
    (hqueue : e.conn.tx.tx.bytes = []) (hinit : e.conn.tx.initSeqn = s.seqn)
    (hunack : e.conn.tx.unack = s.seqn) (hnext : e.conn.tx.next = s.seqn + 1#32)
    (hre : e.conn.tx.reTx = [s]) : Sending e s.seqn (Channel.empty.emit [.syn]) := by
  have hret := Retransmittable.of_syn hflags hdata
  have hsyn : s.hasSyn = true := by
    rcases hflags with hflags | hflags <;> simp [SegmentMeta.hasSyn, hflags]
  have hidle := ConnectionState.not_idle_of_opening hopening
  have hcopy : Copies s.seqn s ⟨0, [.syn]⟩ :=
    ⟨(hret.symbols_of_syn hsyn).symm, (BitVec.add_zero _).symm⟩
  refine ⟨⟨?_, ?_, ?_⟩, ?_, fun _ => ⟨⟨hinit, ?_, ?_, ?_, ?_⟩, ?_, ?_⟩, ?_, ?_⟩
  · intro g hg _
    rw [hlog] at hg
    rw [List.mem_singleton.mp hg]
    exact ⟨hret, fun _ => rfl, fun _ => ⟨_, List.mem_singleton_self _, hcopy⟩⟩
  · exact ⟨[], List.prefix_append [Symbol.syn] [.fin]⟩
  · simp [Channel.emit, Channel.empty]
  · intro hi
    rw [hidle] at hi
    cases hi
  · rw [hunack]
    exact (BitVec.add_zero _).symm
  · exact hnext
  · exact Nat.zero_le _
  · rw [hre]
    exact .cons hcopy .nil
  · exact List.cons_ne_nil _ _
  · rw [hqueue, hwritten]
    rfl
  · intro _ hfin
    simp [Channel.emit, Channel.empty] at hfin
  · intro _ _
    exact ⟨by simp [Channel.emit, Channel.empty], .inl hopening⟩

end Sending

/-- Nothing is on the way before the sender has answered. -/
theorem Linked.unopened (hidle : x.state.idle = true) (hlog : x.log = []) (hread : y.read = [])
    (hended : y.ended = false) (hst : y.state = .synSent)
    (hack : ∀ s ∈ y.log, s.hasAck = false) : Linked x y isn Channel.empty where
  delivers := Channel.delivers_empty
  sending := by
    refine ⟨⟨?_, Symbol.framed_nil, Nat.zero_le _⟩, fun _ => ⟨⟨_, rfl⟩, nofun⟩, ?_, ?_, ?_⟩
    · rw [hlog]
      exact nofun
    all_goals
      intro h
      exact absurd (hidle.symm.trans h) (by decide)
  receiving := .connecting (.inl hst) hread hended rfl
  acks := fun _ => ⟨Channel.acknowledges_empty, .of_noAck hack⟩

/-- The sender answers the SYN of a receiver that has sent nothing else. -/
theorem Linked.answer (h : Receiving y isn ch) (hwf : Connection.WellFormed x.conn)
    (hst : y.state = .synSent) (hack : ∀ s ∈ y.log, s.hasAck = false) (hlog : x.log = [])
    (hwritten : x.written = []) {seg : SegmentMeta} (hlisten : x.state = .listen)
    (hc : Connection.SynAnswered x.conn seg c') :
    Linked (x.after (.onSegment seg) c' .none) y (x.conn.synReply seg).seqn
      (Channel.empty.emit [.syn]) := by
  obtain ⟨htx, -⟩ := hwf.idle (by rw [← Endpoint.state, hlisten]; rfl)
  have hsize : (x.conn.synReply seg).seqSize = 1#32 := seqSize_of_syn (.inr rfl) rfl
  obtain ⟨hread, hended⟩ := h.early (by rw [hst]; rfl)
  have hlog' : (x.after (.onSegment seg) c' .none).log = [x.conn.synReply seg] := by
    refine hc.sent.trans ?_
    rw [show x.conn.userData.sent = [] from hlog, List.nil_append]
  refine ⟨Channel.delivers_empty.emit _, ?_, .connecting (.inl hst) hread hended ?_,
    fun _ => ⟨Channel.acknowledges_empty.emit Channel.delivers_empty _, .of_noAck hack⟩⟩
  · have htx' : c'.tx = { TxBuffer.default.init x.conn.userData.newSeqn.1 with
        window := seg.window }.onSend (x.conn.synReply seg) := by
      rw [hc.tx, htx]
    have hopening : (x.after (.onSegment seg) c' .none).state.opening = true := by
      change c'.connectionState.opening = true
      rw [hc.state]
      rfl
    refine Sending.opening hlog' (.inr rfl) rfl hopening ((List.append_nil _).trans hwritten)
      ?_ ?_ ?_ ?_ ?_
    all_goals
      simp only [Endpoint.after, htx']
      simp [TxBuffer.init, TxBuffer.default, hsize]
    all_goals rfl
  · exact Channel.emit_stored _ _

end TcpState
