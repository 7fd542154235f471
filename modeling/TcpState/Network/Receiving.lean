import TcpState.Network.Sending

/-!
# An endpoint as the receiver of a channel

While it has a peer, an endpoint has acknowledged exactly what it stored, and
what its application read followed by what is buffered are the stored bytes.
An operation stores at most one piece of what the peer put on the wire, and
acknowledges no more than is stored.
-/

namespace TcpState

open Transfer (Piece Channel)

variable {Addr Time : Type}

/-- The read bytes begin the stored stream, and a short read ends it. -/
structure Received (e : Endpoint Addr Time) (ch : Channel Symbol) : Prop where
  read : e.read <+: Symbol.bytes ch.stored
  ended : e.ended = true → .fin ∈ ch.stored ∧ e.read = Symbol.bytes ch.stored

/-- The receive buffer of a connection with a peer. -/
structure Holds (rx : RxBuffer) (read : List UInt8) (isn : SeqN) (ch : Channel Symbol) :
    Prop where
  ackd : rx.ackd = isn + BitVec.ofNat 32 ch.stored.length
  bytes : read ++ rx.bytes = Symbol.bytes ch.stored
  opened : 1 ≤ ch.stored.length
  fin : rx.buffer.fin = true ↔ .fin ∈ ch.stored

/-- The endpoint receives the channel's stream. -/
structure Receiving (e : Endpoint Addr Time) (isn : SeqN) (ch : Channel Symbol) : Prop where
  holds : e.conn.Peered → Holds e.conn.rx e.read isn ch
  unopened : ¬ e.conn.Peered → ch.stored = []
  early : e.state.synced = false → e.read = [] ∧ e.ended = false
  ended : e.ended = true → .fin ∈ ch.stored ∧ e.read = Symbol.bytes ch.stored
  readClosed : e.state.readClosed = true → e.ended = true

/-- Every acknowledgement in the log is for something, and for no more than is
stored. -/
def AcksStored (log : List SegmentMeta) (isn : SeqN) (ch : Channel Symbol) : Prop :=
  ∀ s ∈ log, s.hasRst = false → s.hasAck = true →
    ∃ n, 1 ≤ n ∧ n ≤ ch.stored.length ∧ s.ackn = isn + BitVec.ofNat 32 n

/-- A segment that starts at a place of the stream is a piece from there. -/
theorem OnWire.continues {isn : SeqN} {ch : Channel Symbol} {s : SegmentMeta}
    (h : OnWire isn ch s) (hd : ch.Delivers) (hlen : ch.sent.length ≤ TxBuffer.maxLength)
    (hs : s.symbols ≠ []) {n : Nat} (hn : n ≤ ch.sent.length)
    (hseqn : s.seqn = isn + BitVec.ofNat 32 n) :
    ∃ p ∈ ch.wire, p.start = n ∧ p.body = s.symbols := by
  obtain ⟨p, hp, hcopy⟩ := h.copies hs
  have hstart := (hd.wire p hp).1
  have heq := hcopy.seqn.symm.trans hseqn
  rw [TxBuffer.maxLength] at hlen
  exact ⟨p, hp, (Circular.add_ofNat_inj isn (by omega) (by omega)).mp heq, hcopy.body⟩

/-- A SYN carries nothing else. -/
theorem Retransmittable.symbols_of_syn {s : SegmentMeta} (h : Retransmittable s)
    (hsyn : s.hasSyn = true) : s.symbols = [.syn] := by
  obtain ⟨hdata, hfin⟩ := h.bare hsyn
  rw [SegmentMeta.symbols, hsyn, hdata, hfin]
  rfl

namespace Receiving

variable {e : Endpoint Addr Time} {isn : SeqN} {ch : Channel Symbol} {op : Op Time}
  {out : Output} {c' : Connection Addr Time}

theorem received (h : Receiving e isn ch) : Received e ch := by
  refine ⟨?_, h.ended⟩
  by_cases hs : e.conn.Peered
  · exact ⟨_, (h.holds hs).bytes⟩
  · have hsync : e.state.synced = false := by
      simpa using fun hsync => hs (.inl hsync)
    rw [(h.early hsync).1]
    exact List.nil_prefix

/-- What an operation makes of the receiver: it stores nothing or the next
piece, and the relation is kept unless the connection is gone. -/
structure Advances (e : Endpoint Addr Time) (isn : SeqN) (ch : Channel Symbol)
    (b : List Symbol) : Prop where
  next : b = [] ∨ ∃ p ∈ ch.wire, p.start = ch.stored.length ∧ p.body = b
  received : Received e (ch.store b)
  receiving : e.state.gone = false → Receiving e isn (ch.store b)

/-- Nothing is stored. -/
theorem Advances.same (h : Receiving (e.after op c' out) isn ch) :
    Advances (e.after op c' out) isn ch [] := by
  refine ⟨.inl rfl, ?_, fun _ => ?_⟩
  · rw [Channel.store_nil]
    exact h.received
  · rw [Channel.store_nil]
    exact h

/-- No read of the application returns. -/
theorem after_unread (e : Endpoint Addr Time) (op : Op Time) (c' : Connection Addr Time)
    (hout : ∀ data, out ≠ .recv (.ok data)) :
    (e.after op c' out).read = e.read ∧ (e.after op c' out).ended = e.ended := by
  have hdata : out.data = [] := by
    unfold Output.data
    split
    · exact absurd rfl (hout _)
    · rfl
  have hshort : out.short op = false := by
    unfold Output.short
    split
    · exact absurd rfl (hout _)
    · rfl
  exact ⟨(congrArg (e.read ++ ·) hdata).trans (List.append_nil _),
    (congrArg (e.ended || ·) hshort).trans (Bool.or_false _)⟩

theorem rx_closed_of_readClosed {s : ConnectionState} (h : s.readClosed = true) :
    s.rx = .closed := by
  cases s with
  | established t r cc ca => cases r <;> first | rfl | cases h
  | timeWait => rfl
  | _ => cases h

theorem advances_kept (h : Receiving e isn ch) (hout : ∀ data, out ≠ .recv (.ok data))
    (hrx : c'.rx = e.conn.rx) (hstate : Connection.RxStateKept e.conn c')
    (hrec : c'.connectionState = .synReceived → e.state = .synReceived ∨ e.state = .listen) :
    Advances (e.after op c' out) isn ch [] := by
  obtain ⟨hread, hended⟩ := after_unread e op c' hout
  refine .same ?_
  rcases hstate with heq | ⟨hs, hs', hkept⟩
  · have hpeer : (e.after op c' out).conn.Peered ↔ e.conn.Peered := by
      unfold Connection.Peered
      change c'.connectionState.synced = true ∨ c'.connectionState = _ ↔ _
      rw [heq]
    have hst : (e.after op c' out).state = e.state := heq
    constructor
    · intro hp
      rw [hread, show (e.after op c' out).conn.rx = e.conn.rx from hrx]
      exact h.holds (hpeer.mp hp)
    · exact fun hp => h.unopened (mt hpeer.mpr hp)
    · rw [hst, hread, hended]
      exact h.early
    · rw [hread, hended]
      exact h.ended
    · rw [hst, hended]
      exact h.readClosed
  · constructor
    · intro _
      rw [hread, show (e.after op c' out).conn.rx = e.conn.rx from hrx]
      exact h.holds hs
    · exact fun hp => absurd hs' hp
    · intro hsync
      have hst' : c'.connectionState = .synReceived :=
        hs'.resolve_left fun h => absurd (hsync.symm.trans h) (by decide)
      rw [hread, hended]
      refine h.early ?_
      rcases hrec hst' with hst | hst <;> rw [hst] <;> rfl
    · rw [hread, hended]
      exact h.ended
    · intro hclosed
      rw [hended]
      exact h.readClosed (Connection.readClosed_of_rx hs
        (hkept.symm.trans (rx_closed_of_readClosed hclosed)))

/-- No peer before and after, and the application reads nothing. -/
theorem of_unpeered (h : Receiving e isn ch) (hs : ¬ e.conn.Peered)
    (hread : (e.after op c' out).read = e.read) (hended : (e.after op c' out).ended = e.ended)
    (hs' : ¬ c'.Peered) : Receiving (e.after op c' out) isn ch where
  holds := fun hp => absurd hp hs'
  unopened := fun _ => h.unopened hs
  early := fun _ => by
    rw [hread, hended]
    exact h.early (by simpa using fun hsync => hs (.inl hsync))
  ended := by
    rw [hread, hended]
    exact h.ended
  readClosed := fun hclosed => by
    refine absurd ?_ hs'
    change c'.connectionState.readClosed = true at hclosed
    cases hst : c'.connectionState <;> rw [hst] at hclosed
    case established | timeWait => exact .inl (by rw [hst]; rfl)
    all_goals cases hclosed

/-- A cleared connection has read no more. -/
theorem advances_cleared (h : Receiving e isn ch) (hout : ∀ data, out ≠ .recv (.ok data))
    (hidle : c'.connectionState.idle = true)
    (hlisten : c'.connectionState = .listen → e.state = .listen) :
    Advances (e.after op c' out) isn ch [] := by
  obtain ⟨hread, hended⟩ := after_unread e op c' hout
  refine ⟨.inl rfl, ?_, fun hgone => ?_⟩
  · rw [Channel.store_nil]
    constructor
    · rw [hread]
      exact h.received.read
    · rw [hread, hended]
      exact h.received.ended
  · rw [Channel.store_nil]
    have hst' : c'.connectionState = .listen := by
      by_contra hne
      exact absurd ((ConnectionState.gone_of_idle hidle hne).symm.trans hgone) (by decide)
    have hst := hlisten hst'
    refine h.of_unpeered ?_ hread hended ?_
    · have hidle₀ : e.state.idle = true := by
        rw [hst]
        rfl
      exact Connection.not_peered_of_idle hidle₀
    · exact Connection.not_peered_of_idle hidle

/-- The SYN of the peer is stored. -/
theorem advances_opened (h : Receiving e isn ch) (hwf : Connection.WellFormed e.conn)
    {seg : SegmentMeta} (hw : OnWire isn ch seg) (hd : ch.Delivers)
    (hlen : ch.sent.length ≤ TxBuffer.maxLength) (hsyn : seg.hasSyn = true)
    (hs : ¬ e.conn.Peered) (hs' : c'.Peered) (hopen : c'.connectionState.readClosed = false)
    (hrx : c'.rx = e.conn.rx.init seg.seqn) :
    Advances (e.after (.onSegment seg) c' .none) isn ch [.syn] := by
  have hsync : e.state.synced = false := by simpa using fun hsync => hs (.inl hsync)
  have hnil := h.unopened hs
  obtain ⟨hread, hended⟩ := h.early hsync
  have hread' : (e.after (.onSegment seg) c' .none).read = [] := by
    rw [Endpoint.after, hread]
    rfl
  have hended' : (e.after (.onSegment seg) c' .none).ended = false := by
    rw [Endpoint.after, hended]
    rfl
  have hfirst : seg.seqn = isn + BitVec.ofNat 32 0 := (hw.first hsyn).trans (BitVec.add_zero _).symm
  have hsome : seg.symbols ≠ [] := by
    rw [hw.retransmittable.symbols_of_syn hsyn]
    exact List.cons_ne_nil _ _
  obtain ⟨p, hp, hstart, hbody⟩ := hw.continues hd hlen hsome (Nat.zero_le _) hfirst
  have hreceiving : Receiving (e.after (.onSegment seg) c' .none) isn (ch.store [.syn]) := by
    obtain ⟨-, hbytes, hmark⟩ := hwf.early hsync
    constructor
    · intro _
      rw [show (e.after (.onSegment seg) c' .none).conn.rx = e.conn.rx.init seg.seqn from hrx,
        hread']
      constructor
      · rw [Channel.store, hnil, RxBuffer.init, hw.first hsyn]
        rfl
      · rw [Channel.store, hnil, RxBuffer.bytes_init, hbytes]
        rfl
      · rw [Channel.store, hnil]
        exact Nat.le_refl 1
      · rw [RxBuffer.buffer_init, hmark]
        simp [Channel.store, hnil]
    · exact fun hp => absurd hs' hp
    · exact fun _ => ⟨hread', hended'⟩
    · rw [hended']
      exact fun h => absurd h Bool.false_ne_true
    · rw [show (e.after (.onSegment seg) c' .none).state.readClosed = false from hopen]
      exact fun h => absurd h Bool.false_ne_true
  refine ⟨.inr ⟨p, hp, ?_, ?_⟩, hreceiving.received, fun _ => hreceiving⟩
  · rw [hstart, hnil]
    rfl
  · rw [hbody, hw.retransmittable.symbols_of_syn hsyn]

theorem advances_stored (h : Receiving e isn ch) {seg : SegmentMeta} (hw : OnWire isn ch seg)
    (hd : ch.Delivers) (hlen : ch.sent.length ≤ TxBuffer.maxLength) (hs : e.conn.Peered)
    (hstores : e.conn.Stores seg) (hrx : e.conn.rx.write seg = .ok c'.rx) (hs' : c'.Peered)
    (hstate : c'.connectionState.rx = if seg.hasFin then .fin else e.conn.connectionState.rx)
    (hrec : c'.connectionState = .synReceived → e.state = .synReceived ∨ e.state = .listen) :
    Advances (e.after (.onSegment seg) c' .none) isn ch seg.symbols := by
  have hh := h.holds hs
  obtain ⟨hbytes, hmark, hackd, -⟩ := RxBuffer.write_spec hrx
  have hread : (e.after (.onSegment seg) c' .none).read = e.read := List.append_nil _
  have hended : (e.after (.onSegment seg) c' .none).ended = e.ended := Bool.or_false _
  have hreceiving : Receiving (e.after (.onSegment seg) c' .none) isn
      (ch.store seg.symbols) := by
    constructor
    · intro _
      rw [hread]
      constructor
      · refine hackd.trans ?_
        rw [hh.ackd, seg.seqSize_eq_ofNat, Circular.add_ofNat_add, Channel.store,
          List.length_append]
      · change e.read ++ c'.rx.bytes = _
        rw [hbytes, ← List.append_assoc, hh.bytes, Channel.store, Symbol.bytes_append,
          SegmentMeta.bytes_symbols]
      · rw [Channel.store, List.length_append]
        exact Nat.le_add_right_of_le hh.opened
      · change c'.rx.buffer.fin = true ↔ _
        rw [hmark, Bool.or_eq_true, hh.fin, Channel.store, List.mem_append,
          SegmentMeta.fin_mem_symbols]
    · exact fun hp => absurd hs' hp
    · intro hsync
      have hst' : c'.connectionState = .synReceived :=
        hs'.resolve_left fun h => absurd (hsync.symm.trans h) (by decide)
      rw [hread, hended]
      refine h.early ?_
      rcases hrec hst' with hst | hst <;> rw [hst] <;> rfl
    · -- Nothing is stored behind the FIN.
      rw [hread, hended]
      intro hend
      obtain ⟨hfin, hall⟩ := h.ended hend
      have hclosed := hh.fin.mpr hfin
      have hdata : seg.data = [] := by
        refine (RxBuffer.write_succeeds_iff.mp ⟨_, hrx⟩).2.resolve_right fun hopen => ?_
        rw [hclosed] at hopen
        cases hopen
      rw [Channel.store, List.mem_append, Symbol.bytes_append, SegmentMeta.bytes_symbols, hdata,
        List.append_nil]
      exact ⟨.inl hfin, hall⟩
    · intro hclosed
      rw [hended]
      have hcl : c'.connectionState.rx = .closed := rx_closed_of_readClosed hclosed
      rw [hstate] at hcl
      split at hcl
      · cases hcl
      · exact h.readClosed (Connection.readClosed_of_rx hs hcl)
  refine ⟨?_, hreceiving.received, fun _ => hreceiving⟩
  by_cases hnil : seg.symbols = []
  · exact .inl hnil
  · obtain ⟨p, hp, hstart, hbody⟩ := hw.continues hd hlen hnil hd.stored.length_le
      (hstores.inOrder.trans hh.ackd)
    exact .inr ⟨p, hp, hstart, hbody⟩

/-- The application takes bytes out of the buffer. -/
theorem holds_read {rx rx' : RxBuffer} {read data : List UInt8} {bufferLen : Nat}
    (h : Holds rx read isn ch) (hread : rx.readBytes bufferLen = .ok (rx', data)) :
    Holds rx' (read ++ data) isn ch := by
  obtain ⟨hdata, hbytes, hmark, hackd, -⟩ := RxBuffer.readBytes_spec hread
  refine ⟨hackd.trans h.ackd, ?_, h.opened, ?_⟩
  · rw [hdata, hbytes, List.append_assoc, List.take_append_drop]
    exact h.bytes
  · rw [hmark]
    exact h.fin

theorem advances_read (h : Receiving e isn ch) {bufferLen : Nat} {data : List UInt8}
    {rx : RxBuffer} (hst : e.state.isEstablished = true)
    (hread : e.conn.rx.readBytes bufferLen = .ok (rx, data)) (hlen : bufferLen ≤ data.length)
    (hstate : c'.connectionState = e.state) (hrx : c'.rx = rx) :
    Advances (e.after (.callRecv bufferLen) c' (.recv (.ok data))) isn ch [] := by
  have hsync := ConnectionState.synced_of_isEstablished hst
  have hh := h.holds (.inl hsync)
  have hst' : (e.after (.callRecv bufferLen) c' (.recv (.ok data))).state = e.state := hstate
  have hended : (e.after (.callRecv bufferLen) c' (.recv (.ok data))).ended = e.ended := by
    simp [Endpoint.after, Output.short, Nat.not_lt.mpr hlen]
  refine .same ⟨fun _ => ?_, fun hp => ?_, fun hs => ?_, fun hend => ?_, ?_⟩
  · rw [show (e.after (.callRecv bufferLen) c' (.recv (.ok data))).conn.rx = rx from hrx]
    exact holds_read hh hread
  · exact absurd (.inl (by rw [← Endpoint.state, hst']; exact hsync)) hp
  · rw [hst', hsync] at hs
    cases hs
  · rw [hended] at hend
    obtain ⟨hfin, hall⟩ := h.ended hend
    have hrest : e.conn.rx.bytes = [] := by
      have := hh.bytes
      rw [hall] at this
      exact List.append_right_eq_self.mp this
    obtain ⟨hdata, -⟩ := RxBuffer.readBytes_spec hread
    refine ⟨hfin, ?_⟩
    change e.read ++ data = _
    rw [hdata, hrest, List.take_nil, List.append_nil]
    exact hall
  · rw [hst', hended]
    exact h.readClosed

/-- The short read at the end of the stream. -/
theorem advances_drained (h : Receiving e isn ch) {bufferLen : Nat} {data : List UInt8}
    {rx : RxBuffer} (hst : e.state.isEstablished = true)
    (hread : e.conn.rx.readBytes bufferLen = .ok (rx, data)) (hlen : data.length < bufferLen)
    (hstate : c'.Peered ∧ c'.connectionState.rx = .closed ∧ c'.rx = rx ∨
      c'.connectionState.idle = true ∧ c'.rx = .default)
    (hlisten : c'.connectionState ≠ .listen)
    (hrec : c'.connectionState = .synReceived → e.state = .synReceived ∨ e.state = .listen) :
    Advances (e.after (.callRecv bufferLen) c' (.recv (.ok data))) isn ch [] := by
  have hsync := ConnectionState.synced_of_isEstablished hst
  have hh := h.holds (.inl hsync)
  obtain ⟨hdata, hbytes, -, -, -, -, -, hshort⟩ := RxBuffer.readBytes_spec hread
  have hfin : .fin ∈ ch.stored := hh.fin.mp (hshort hlen)
  have hall : e.read ++ data = Symbol.bytes ch.stored := by
    have hle : e.conn.rx.bytes.length ≤ bufferLen := by
      rw [hdata, List.length_take] at hlen
      omega
    rw [hdata, List.take_of_length_le hle]
    exact hh.bytes
  have hended : (e.after (.callRecv bufferLen) c' (.recv (.ok data))).ended = true := by
    simp [Endpoint.after, Output.short, hlen]
  rcases hstate with ⟨hs', -, hrx⟩ | ⟨hidle, -⟩
  · refine .same ⟨fun _ => ?_, fun hp => absurd hs' hp, fun hs => ?_, fun _ => ⟨hfin, hall⟩,
      fun _ => hended⟩
    · rw [show (e.after (.callRecv bufferLen) c' (.recv (.ok data))).conn.rx = rx from hrx]
      exact holds_read hh hread
    · have hst' : c'.connectionState = .synReceived :=
        hs'.resolve_left fun h => absurd (hs.symm.trans h) (by decide)
      rcases hrec hst' with hst | hst <;> rw [hst] at hsync <;> cases hsync
  · refine ⟨.inl rfl, ?_, fun hgone => ?_⟩
    · rw [Channel.store_nil]
      exact ⟨hall ▸ List.prefix_refl _, fun _ => ⟨hfin, hall⟩⟩
    · exact absurd ((ConnectionState.gone_of_idle hidle hlisten).symm.trans hgone) (by decide)

/-- Each operation stores at most the next piece of the stream. -/
theorem advances (h : Receiving e isn ch) (hwf : Connection.WellFormed e.conn)
    (hd : ch.Delivers) (hlen : ch.sent.length ≤ TxBuffer.maxLength)
    (hw : ∀ seg, op = .onSegment seg → seg.hasRst = false → OnWire isn ch seg)
    (effect : Connection.RxEffect e.conn op out c') (hop : op ≠ .callConnect)
    (hrec : c'.connectionState = .synReceived → e.state = .synReceived ∨ e.state = .listen)
    (hlisten : c'.connectionState = .listen → e.state = .listen) :
    ∃ b, Advances (e.after op c' out) isn ch b := by
  cases effect with
  | kept hout hrx hstate => exact ⟨_, h.advances_kept hout hrx hstate hrec⟩
  | cleared hout hidle => exact ⟨_, h.advances_cleared hout hidle hlisten⟩
  | connecting => exact absurd rfl hop
  | answered hst hrst hsyn hstate hrx =>
      have hs : ¬ e.conn.Peered := by
        rintro (hs | hs) <;> rw [hst] at hs <;> cases hs
      exact ⟨_, h.advances_opened hwf (hw _ rfl hrst) hd hlen hsyn hs (.inr hstate)
        (by rw [hstate]; rfl) hrx⟩
  | synAcked hst hrst _ hsyn _ hstate hrx =>
      have hs : ¬ e.conn.Peered := by
        rintro (hs | hs) <;> rw [hst] at hs <;> cases hs
      rcases hstate with ⟨hst', -⟩ | ⟨hest, hopen⟩
      · have hs' : ¬ c'.Peered := by
          rintro (hs | hs) <;> rw [hst'] at hs <;> cases hs
        exact ⟨_, .same (h.of_unpeered hs (List.append_nil _) (Bool.or_false _) hs')⟩
      · refine ⟨_, h.advances_opened hwf (hw _ rfl hrst) hd hlen hsyn hs
          (.inl (ConnectionState.synced_of_isEstablished hest)) ?_ hrx⟩
        · cases hclosed : c'.connectionState.readClosed with
          | false => rfl
          | true =>
              rw [rx_closed_of_readClosed hclosed] at hopen
              cases hopen
  | stored hpeer hs hrx hpeer' hstate =>
      exact ⟨_, h.advances_stored (hw _ rfl hs.noRst) hd hlen hpeer hs hrx hpeer' hstate hrec⟩
  | finOnly _ _ hrst hsyn hack =>
      have := (hw _ rfl hrst).retransmittable.acked hsyn
      rw [hack] at this
      cases this
  | @waiting bufferLen r hst hlen hr =>
      exact ⟨_, h.advances_kept (fun data hdata => hr data (Output.recv.inj hdata)) rfl (.inl rfl)
        .inl⟩
  | @ended bufferLen hst hrx =>
      have hsync := ConnectionState.synced_of_isEstablished hst
      have hend := h.readClosed (Connection.readClosed_of_rx (.inl hsync) hrx)
      have hread : (e.after (.callRecv bufferLen) e.conn (.recv (.ok []))).read = e.read :=
        List.append_nil _
      refine ⟨_, .same ⟨?_, h.unopened, fun hs => ?_, fun _ => ?_, fun _ => ?_⟩⟩
      · rw [hread]
        exact h.holds
      · exact absurd (hs.symm.trans hsync) (by decide)
      · rw [hread]
        exact h.ended hend
      · rw [Endpoint.after, hend]
        rfl
  | read hst hread hlen hstate hrx => exact ⟨_, h.advances_read hst hread hlen hstate hrx⟩
  | drained hst _ hread hlen hstate =>
      refine ⟨_, h.advances_drained hst hread hlen hstate (fun hl => ?_) hrec⟩
      have hst' : e.state.isEstablished = true := hst
      rw [hlisten hl] at hst'
      cases hst'

end Receiving

end TcpState
