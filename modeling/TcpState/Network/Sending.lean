import TcpState.Network.Endpoint
import TcpState.Network.SendBuffer

/-!
# An endpoint as the sender of a channel

Against any peer, what an endpoint puts on the wire are copies of pieces of one
stream, and while it is not idle its send buffer is the sending half of that
channel. Each operation emits at most one piece and takes at most one
acknowledgement.
-/

namespace TcpState

open Transfer (Piece Channel)

/-- A segment on the wire: retransmittable, a SYN only at the start of the
stream, and a copy of a piece unless it is empty. -/
structure OnWire (isn : SeqN) (ch : Channel Symbol) (s : SegmentMeta) : Prop where
  retransmittable : Retransmittable s
  first : s.hasSyn = true → s.seqn = isn
  copies : s.symbols ≠ [] → ∃ p ∈ ch.wire, Copies isn s p

theorem OnWire.emit {isn : SeqN} {ch : Channel Symbol} {s : SegmentMeta} (h : OnWire isn ch s)
    (b : List Symbol) : OnWire isn (ch.emit b) s where
  retransmittable := h.retransmittable
  first := h.first
  copies := fun hs => by
    obtain ⟨p, hp, hcopy⟩ := h.copies hs
    exact ⟨p, Channel.mem_wire_emit hp, hcopy⟩

/-- An empty acknowledgement carries nothing. -/
theorem OnWire.of_ack {isn : SeqN} {ch : Channel Symbol} {s : SegmentMeta}
    (hflags : s.flags = .ack) (hdata : s.data = []) : OnWire isn ch s := by
  have hbits : s.hasRst = false ∧ s.hasSyn = false ∧ s.hasFin = false ∧ s.hasAck = true := by
    simp only [SegmentMeta.hasRst, SegmentMeta.hasSyn, SegmentMeta.hasFin, SegmentMeta.hasAck,
      hflags]
    decide
  obtain ⟨hrst, hsyn, hfin, hack⟩ := hbits
  have hno {p : Prop} (h : s.hasSyn = true) : p := absurd (hsyn.symm.trans h) (by decide)
  refine ⟨⟨hrst, by rw [hdata]; exact Nat.zero_le _, fun _ => hdata, fun _ => hack, hno⟩, hno,
    fun h => absurd ?_ h⟩
  rw [SegmentMeta.symbols, hsyn, hfin, hdata]
  rfl

/-- The log of an endpoint as the wire of a channel. -/
structure Wired (log : List SegmentMeta) (carried : Nat) (isn : SeqN) (ch : Channel Symbol) :
    Prop where
  segments : ∀ s ∈ log, s.hasRst = false → OnWire isn ch s
  framed : Symbol.Framed ch.sent
  size : ch.sent.length ≤ carried + 1 + if .fin ∈ ch.sent then 1 else 0

/-- The send buffer of an endpoint as the sending half of a channel: what was
emitted and what is queued make up what was written. -/
structure Buffered (tx : TxBuffer) (written : List UInt8) (isn : SeqN) (ch : Channel Symbol) :
    Prop where
  realises : tx.Realises isn ch
  opened : ch.sent ≠ []
  queue : Symbol.bytes ch.sent ++ tx.tx.bytes = written

namespace Wired

variable {log new : List SegmentMeta} {carried carried' : Nat} {isn : SeqN}
  {ch : Channel Symbol}

theorem length_le (h : Wired log carried isn ch) (hcarried : carried < 2 ^ 31) :
    ch.sent.length ≤ TxBuffer.maxLength := by
  have := h.size
  rw [TxBuffer.maxLength]
  split at this <;> omega

theorem append (h : Wired log carried isn ch) (hcarried : carried ≤ carried')
    (hnew : ∀ s ∈ new, s.hasRst = false → OnWire isn ch s) :
    Wired (log ++ new) carried' isn ch where
  segments := fun s hs => (List.mem_append.mp hs).elim (h.segments s) (hnew s)
  framed := h.framed
  size := by have := h.size; omega

/-- The wire does not see acknowledgements. -/
theorem ack (h : Wired log carried isn ch) (n : Nat) : Wired log carried isn (ch.ack n) :=
  ⟨fun s hs hrst => ⟨(h.segments s hs hrst).retransmittable, (h.segments s hs hrst).first,
    (h.segments s hs hrst).copies⟩, h.framed, h.size⟩

/-- A segment without RST and SYN acknowledges, so a FIN is never bare. -/
theorem not_bareFin (h : Wired log carried isn ch) {seg : SegmentMeta} (hseg : seg ∈ log) :
    ¬ Connection.BareFin seg := by
  rintro ⟨hrst, hsyn, hack, -⟩
  have := (h.segments seg hseg hrst).retransmittable.acked hsyn
  rw [hack] at this
  cases this

end Wired

namespace Connection

variable {Addr Time : Type} {c c₀ c' : Connection Addr Time} {op : Op Time}

/-- What `send_ack` builds may be queued for retransmission whenever a marked
queue is empty. -/
theorem outSegment_onWire {isn : SeqN} {ch : Channel Symbol}
    (hmarked : c₀.tx.tx.fin = true → c₀.tx.tx.bytes = [])
    (hnext : c₀.tx.next = isn + BitVec.ofNat 32 ch.sent.length) :
    OnWire isn (ch.emit c₀.outSegment.symbols) c₀.outSegment where
  retransmittable := outSegment_retransmittable hmarked
  first := fun h => by rw [outSegment_hasSyn] at h; cases h
  copies := fun h => ⟨_, Channel.last_mem_wire_emit h, rfl, hnext⟩

/-- The bytes a call of `send_ack` puts on the wire for the first time. -/
theorem TxSent.fresh_data (ht : TxSent c₀ c') (hop : ∀ time, op ≠ .onTimeTick time)
    (hsent : c₀.userData.sent = c.userData.sent) :
    ((c.fresh op c').map (·.data.length)).sum = c₀.outData.length := by
  have hlog := ht.sent
  rw [hsent] at hlog
  rw [fresh_of_sent hop hlog]
  split
  · rename_i hskip
    rw [(outSegment_seqSize_eq_zero c₀).mp hskip.1 |>.1]
    rfl
  · exact Nat.add_zero _

theorem outSegment_symbols (c : Connection Addr Time) : c.outSegment.symbols =
    c.outData.map .byte ++ if c.sendsFin then [.fin] else [] := by
  rw [SegmentMeta.symbols, outSegment_hasSyn, outSegment_hasFin]
  rfl

theorem outSegment_symbols_length (c : Connection Addr Time) :
    c.outSegment.symbols.length = c.outData.length + c.sendsFin.toNat := by
  rw [SegmentMeta.length_symbols, outSegment_hasSyn, outSegment_hasFin]
  rfl

theorem fin_mem_emit {ch : Channel Symbol} : .fin ∈ (ch.emit c.outSegment.symbols).sent ↔
    .fin ∈ ch.sent ∨ c.sendsFin = true := by
  rw [Channel.emit_sent, List.mem_append, SegmentMeta.fin_mem_symbols, outSegment_hasFin]

end Connection

/-- The endpoint sends the channel's stream. While it is idle nothing more
comes; a stream with its FIN is then complete. -/
structure Sending {Addr Time : Type} (e : Endpoint Addr Time) (isn : SeqN)
    (ch : Channel Symbol) : Prop where
  wired : Wired e.log e.carried isn ch
  idle : e.state.idle = true → Symbol.bytes ch.sent <+: e.written ∧
    (.fin ∈ ch.sent → Symbol.bytes ch.sent = e.written ∧ e.state.gone = true)
  buffered : e.state.idle = false → Buffered e.conn.tx e.written isn ch
  wroteFin : e.state.idle = false → .fin ∈ ch.sent → e.state.wroteFin = true
  /-- Before the first acknowledgement at most SYN and FIN are out. -/
  handshake : e.state.idle = false → ch.acked = 0 →
    ch.sent.length ≤ 2 ∧ (e.state.opening = true ∨ e.state.wroteFin = true)

/-- What an operation makes of a channel on the sender's side. -/
structure Evolves {Addr Time : Type} (e : Endpoint Addr Time) (isn : SeqN)
    (ch ch' : Channel Symbol) : Prop where
  sending : Sending e isn ch'
  delivers : ch.Delivers → ch'.Delivers
  acknowledges : ch.Delivers → ch.Acknowledges → ch'.Acknowledges
  stored : ch'.stored = ch.stored

namespace Sending

variable {Addr Time : Type} {e : Endpoint Addr Time} {isn : SeqN} {ch : Channel Symbol}

/-- What was emitted is part of what was written. -/
theorem bytes_isPrefix (h : Sending e isn ch) : Symbol.bytes ch.sent <+: e.written := by
  cases hidle : e.state.idle with
  | true => exact (h.idle hidle).1
  | false => exact ⟨_, (h.buffered hidle).queue⟩

/-- After the FIN everything written was emitted, and nothing more is taken. -/
theorem complete (h : Sending e isn ch) (hwf : Connection.WellFormed e.conn)
    (hfin : .fin ∈ ch.sent) : Symbol.bytes ch.sent = e.written ∧
      (e.state.gone = true ∨ e.conn.tx.tx.fin = true) := by
  cases hidle : e.state.idle with
  | true => exact ⟨((h.idle hidle).2 hfin).1, .inl ((h.idle hidle).2 hfin).2⟩
  | false =>
      have hmark := hwf.wroteFin (h.wroteFin hidle hfin)
      have hqueue := (h.buffered hidle).queue
      rw [hwf.marked hmark, List.append_nil] at hqueue
      exact ⟨hqueue, .inr hmark⟩

variable {op : Op Time} {out : Output} {c₀ c' : Connection Addr Time} {written : List UInt8}

/-- A call of `send_ack` emits what its segment carries. -/
theorem emits (op : Op Time) (out : Output) (c' : Connection Addr Time)
    (hw : Wired e.log e.carried isn ch) (hb : Buffered c₀.tx written isn ch)
    (hop : ∀ time, op ≠ .onTimeTick time) (hsent : c₀.userData.sent = e.log)
    (ht : Connection.TxSent c₀ c') (hmarked : c₀.tx.tx.fin = true → c₀.tx.tx.bytes = [])
    (hfin : .fin ∈ ch.sent → c₀.outSegment.seqSize = 0#32) :
    Wired (e.after op c' out).log (e.after op c' out).carried isn
        (ch.emit c₀.outSegment.symbols) ∧
      Buffered c'.tx written isn (ch.emit c₀.outSegment.symbols) := by
  have hcarried : (e.after op c' out).carried = e.carried + c₀.outData.length :=
    congrArg (e.carried + ·) (ht.fresh_data hop hsent)
  have hlen := c₀.outSegment_symbols_length
  have hdone : .fin ∈ ch.sent → c₀.outSegment.symbols = [] := by
    intro h
    obtain ⟨hdata, hno⟩ := c₀.outSegment_seqSize_eq_zero.mp (hfin h)
    rw [c₀.outSegment_symbols, hdata, hno]
    rfl
  have hopened : (ch.emit c₀.outSegment.symbols).sent ≠ [] := by
    rw [Channel.emit_sent]
    exact List.append_ne_nil_of_left_ne_nil hb.opened _
  refine ⟨⟨?_, ?_, ?_⟩, ?_, hopened, ?_⟩
  · intro s hs hrst
    have hlog : (e.after op c' out).log = e.log ++ _ := ht.sent.trans (by rw [hsent])
    rw [hlog] at hs
    rcases List.mem_append.mp hs with hs | hs
    · exact (hw.segments s hs hrst).emit _
    · split at hs
      · cases hs
      · rw [List.mem_singleton.mp hs]
        exact Connection.outSegment_onWire hmarked hb.realises.next
  · rw [Channel.emit_sent]
    by_cases h : .fin ∈ ch.sent
    · rw [hdone h, List.append_nil]
      exact hw.framed
    · rw [c₀.outSegment_symbols]
      exact hw.framed.append hb.opened h _ _
  · have hsize := hw.size
    by_cases h : .fin ∈ ch.sent
    · rw [hdone h, Channel.emit_nil, hcarried]
      omega
    · have hmem : .fin ∈ (ch.emit c₀.outSegment.symbols).sent ↔ c₀.sendsFin = true := by
        rw [Connection.fin_mem_emit]
        exact ⟨fun hm => hm.resolve_left h, .inr⟩
      rw [if_neg h] at hsize
      rw [Channel.emit_sent] at hmem
      rw [Channel.emit_sent, List.length_append, hcarried]
      cases hs : c₀.sendsFin with
      | false =>
          rw [hs] at hlen
          simp only [Bool.toNat_false] at hlen
          omega
      | true =>
          rw [if_pos (hmem.mpr hs)]
          rw [hs] at hlen
          simp only [Bool.toNat_true] at hlen
          omega
  · have hbound := c₀.outData_length_le
    have hbit := Bool.toNat_le c₀.sendsFin
    rw [maxSegmentSize] at hbound
    exact hb.realises.emit rfl (by omega) ht.initSeqn ht.unack ht.next ht.reTx
  · rw [Channel.emit_sent, Symbol.bytes_append, SegmentMeta.bytes_symbols, ht.bytes,
      List.append_assoc]
    refine Eq.trans ?_ hb.queue
    congr 1
    exact List.take_append_drop _ _

theorem carried_le (e : Endpoint Addr Time) (op : Op Time) (c' : Connection Addr Time)
    (out : Output) : e.carried ≤ (e.after op c' out).carried := Nat.le_add_right _ _

/-- A step that puts nothing new on the wire keeps the wire. -/
theorem wired_remarks (h : Sending e isn ch) (out : Output)
    (hlogged : ∀ s ∈ e.conn.tx.reTx, s ∈ e.log) {new : List SegmentMeta}
    (hsent : c'.userData.sent = e.log ++ new)
    (hnew : ∀ s ∈ new, Connection.Remark e.conn op s) :
    Wired (e.after op c' out).log (e.after op c' out).carried isn ch := by
  have hlog : (e.after op c' out).log = e.log ++ new := hsent
  rw [hlog]
  refine h.wired.append (carried_le e op c' out) fun s hs hrst => ?_
  cases hnew s hs with
  | resend _ hmem => exact h.wired.segments s (hlogged s hmem) hrst
  | ack _ hflags hdata => exact .of_ack hflags hdata
  | refusal _ hbad => rw [hrst] at hbad; cases hbad

/-- The channel does not move. -/
theorem evolves_same (h : Sending (e.after op c' out) isn ch) :
    Evolves (e.after op c' out) isn ch ch :=
  ⟨h, id, fun _ => id, rfl⟩

theorem evolves_kept (h : Sending e isn ch) (hlogged : ∀ s ∈ e.conn.tx.reTx, s ∈ e.log)
    {new : List SegmentMeta} (hout : out.accepted op = []) (htx : Connection.TxKept e.conn c')
    (hstate : Connection.TxStateKept e.conn op c')
    (hbare : e.state.idle = false → ∀ seg, op = .onSegment seg → ¬ Connection.BareFin seg)
    (hsent : c'.userData.sent = e.log ++ new)
    (hnew : ∀ s ∈ new, Connection.Remark e.conn op s) :
    Evolves (e.after op c' out) isn ch ch := by
  have hwritten : (e.after op c' out).written = e.written := by
    change e.written ++ _ = _
    rw [hout, List.append_nil]
  have hbuffered (hidle : e.state.idle = false) : Buffered c'.tx e.written isn ch := by
    have hb := h.buffered hidle
    refine ⟨hb.realises.congr htx.initSeqn htx.unack htx.next htx.reTx, hb.opened, ?_⟩
    rw [htx.queue]
    exact hb.queue
  have hwired := h.wired_remarks out hlogged hsent hnew
  refine evolves_same ?_
  rcases hstate with heq | ⟨hwas, hsync, hwrote, -⟩
  · constructor
    case wired => exact hwired
    all_goals simp only [Endpoint.state, hwritten]
    all_goals simp only [Endpoint.after, heq]
    exacts [h.idle, hbuffered, h.wroteFin, h.handshake]
  · have hwas : e.state.synced = true := by
      refine hwas.resolve_right ?_
      rintro ⟨hpeer, seg, rfl, hseg⟩
      exact hbare hpeer.not_idle seg rfl hseg
    have hidle := ConnectionState.not_idle_of_synced hwas
    have hidle' : (e.after op c' out).state.idle = false :=
      ConnectionState.not_idle_of_synced hsync
    constructor
    case wired => exact hwired
    case idle => exact fun hi => by rw [hidle'] at hi; cases hi
    case buffered => exact fun _ => by rw [hwritten]; exact hbuffered hidle
    case wroteFin => exact fun _ hfin => hwrote.trans (h.wroteFin hidle hfin)
    case handshake =>
      intro _ hzero
      obtain ⟨hsmall, hopen⟩ := h.handshake hidle hzero
      refine ⟨hsmall, .inr (hwrote.trans ?_)⟩
      refine hopen.resolve_left fun ho => ?_
      rw [ConnectionState.not_opening_of_synced hwas] at ho
      cases ho

theorem evolves_cleared (h : Sending e isn ch) (hwf : Connection.WellFormed e.conn)
    (hlogged : ∀ s ∈ e.conn.tx.reTx, s ∈ e.log) {new : List SegmentMeta}
    (hout : out.accepted op = []) (hidle' : c'.connectionState.idle = true)
    (hlisten : c'.connectionState ≠ .listen) (hsent : c'.userData.sent = e.log ++ new)
    (hnew : ∀ s ∈ new, Connection.Parting e.conn op s) :
    Evolves (e.after op c' out) isn ch ch := by
  have hwritten : (e.after op c' out).written = e.written := by
    change e.written ++ _ = _
    rw [hout, List.append_nil]
  have hlog : (e.after op c' out).log = e.log ++ new := hsent
  refine evolves_same ⟨?_, fun _ => ?_, ?_, ?_, ?_⟩
  · rw [hlog]
    refine h.wired.append (carried_le e op c' out) fun s hs hrst => ?_
    cases hnew s hs with
    | resend _ hmem => exact h.wired.segments s (hlogged s hmem) hrst
    | abort hbad => rw [hrst] at hbad; cases hbad
    | stray hflags hdata => exact .of_ack hflags hdata
  · rw [hwritten]
    exact ⟨h.bytes_isPrefix, fun hfin => ⟨(h.complete hwf hfin).1,
      ConnectionState.gone_of_idle hidle' hlisten⟩⟩
  all_goals
    intro hidle
    exact absurd (hidle'.symm.trans hidle) (by decide)

/-- The endpoint is told of nothing but what the peer has stored. -/
structure Told (op : Op Time) (isn : SeqN) (ch : Channel Symbol) : Prop where
  bare : ∀ seg, op = .onSegment seg → ¬ Connection.BareFin seg
  acks : ∀ seg, op = .onSegment seg → seg.hasRst = false → seg.hasAck = true →
    ∃ n, 1 ≤ n ∧ n ≤ ch.stored.length ∧ seg.ackn = isn + BitVec.ofNat 32 n

/-- An acknowledgement in range moves the channel's count forward. -/
theorem buffered_ack (h : Sending e isn ch) (hidle : e.state.idle = false)
    (hbound : e.carried < 2 ^ 31) (hd : ch.Delivers) (ha : ch.Acknowledges) {seg : SegmentMeta}
    (told : Told (.onSegment seg : Op Time) isn ch) (hrst : seg.hasRst = false)
    (hack : seg.hasAck = true)
    (hrange : seg.ackn.inRangeInclusive e.conn.tx.unack e.conn.tx.next = true) (tx : TxBuffer)
    (hqueue : tx.tx = e.conn.tx.tx) (hinit : tx.initSeqn = e.conn.tx.initSeqn)
    (hunack : tx.unack = seg.ackn) (hnext : tx.next = e.conn.tx.next)
    (hre : tx.reTx = if e.conn.tx.unack = seg.ackn then e.conn.tx.reTx
      else e.conn.tx.reTx.dropWhile fun head => head.seqnAfter.lte seg.ackn) :
    ∃ n, 1 ≤ n ∧ ch.acked ≤ n ∧ n ≤ ch.stored.length ∧ Buffered tx e.written isn (ch.ack n) := by
  obtain ⟨n, hpos, hn, hackn⟩ := told.acks seg rfl hrst hack
  have hb := h.buffered hidle
  have hlen := h.wired.length_le hbound
  have hsent := Nat.le_trans hn hd.stored.length_le
  have hacked := hb.realises.acked_le hlen hackn hrange
  refine ⟨n, hpos, hacked, hn, ?_, hb.opened, ?_⟩
  · exact hb.realises.ack ha hlen (fun hz => (h.handshake hidle hz).1) hpos hacked hsent hackn
      hinit hunack hnext hre
  · rw [hqueue]
    exact hb.queue

/-- A sender that has settled on its open state after the acknowledgement. -/
theorem of_synced (hw : Wired (e.after op c' out).log (e.after op c' out).carried isn ch)
    (hb : Buffered c'.tx (e.after op c' out).written isn ch)
    (hsync : c'.connectionState.synced = true)
    (hfin : .fin ∈ ch.sent → c'.connectionState.wroteFin = true)
    (hzero : ch.acked = 0 → ch.sent.length ≤ 2 ∧ c'.connectionState.wroteFin = true) :
    Sending (e.after op c' out) isn ch where
  wired := hw
  idle := fun hidle => by
    rw [show (e.after op c' out).state.idle = false from
      ConnectionState.not_idle_of_synced hsync] at hidle
    cases hidle
  buffered := fun _ => hb
  wroteFin := fun _ => hfin
  handshake := fun _ hz => ⟨(hzero hz).1, .inr (hzero hz).2⟩

theorem evolves_queued (h : Sending e isn ch) {inputData : List UInt8} {q : BlobQueue}
    (hout : out.accepted (.callSend inputData : Op Time) = inputData)
    (hidle : e.state.idle = false) (hq : e.conn.tx.tx.writeBytes inputData = .ok q)
    (htx : c'.tx = { e.conn.tx with tx := q })
    (hstate : c'.connectionState = e.conn.connectionState)
    (hsent : c'.userData.sent = e.log) :
    Evolves (e.after (.callSend inputData) c' out) isn ch ch := by
  have hb := h.buffered hidle
  have hwired : Wired (e.after (.callSend inputData) c' out).log
      (e.after (.callSend inputData) c' out).carried isn ch := by
    have hlog : (e.after (.callSend inputData) c' out).log = e.log ++ [] := by
      rw [List.append_nil]
      exact hsent
    rw [hlog]
    exact h.wired.append (carried_le e (.callSend inputData) c' out) nofun
  have hstate' : (e.after (.callSend inputData) c' out).state = e.state := hstate
  refine evolves_same ⟨hwired, ?_, fun _ => ⟨?_, hb.opened, ?_⟩, ?_, ?_⟩
  · rw [hstate', hidle]
    exact nofun
  · have htx' : (e.after (.callSend inputData) c' out).conn.tx = { e.conn.tx with tx := q } := htx
    exact hb.realises.congr (by rw [htx']) (by rw [htx']) (by rw [htx']) (by rw [htx'])
  · have hqueue : (e.after (.callSend inputData) c' out).conn.tx.tx = q := by
      change c'.tx.tx = q
      rw [htx]
    have hwritten : (e.after (.callSend inputData) c' out).written = e.written ++ inputData :=
      congrArg (e.written ++ ·) hout
    rw [hqueue, (BlobQueue.writeBytes_spec hq).1, ← List.append_assoc, hb.queue, hwritten]
  · rw [hstate']
    exact h.wroteFin
  · rw [hstate']
    exact h.handshake

theorem evolves_appended (h : Sending e isn ch) {inputData : List UInt8} {q : BlobQueue}
    (hdata : inputData ≠ []) (hout : out.accepted (.callSend inputData : Op Time) = inputData)
    (hs : e.state.synced = true) (hwrote : e.state.wroteFin = false)
    (hq : e.conn.tx.tx.writeBytes inputData = .ok q)
    (ht : Connection.TxSent (e.conn.withQueue q) c')
    (hstate : c'.connectionState = e.conn.connectionState) :
    Evolves (e.after (.callSend inputData) c' out) isn ch
      (ch.emit (e.conn.withQueue q).outSegment.symbols) := by
  have hidle := ConnectionState.not_idle_of_synced hs
  have hb := h.buffered hidle
  obtain ⟨hbytes, hqfin, hopen⟩ := BlobQueue.writeBytes_spec hq
  have hopen := hopen.resolve_left hdata
  have hno : (e.conn.withQueue q).tx.tx.fin = false := hqfin.trans hopen
  have hnofin : .fin ∉ ch.sent := fun hfin => by
    have := h.wroteFin hidle hfin
    rw [hwrote] at this
    cases this
  have hb₀ : Buffered (e.conn.withQueue q).tx (e.written ++ inputData) isn ch := by
    refine ⟨hb.realises.congr rfl rfl rfl rfl, hb.opened, ?_⟩
    change _ ++ q.bytes = _
    rw [hbytes, ← List.append_assoc, hb.queue]
  obtain ⟨hwired, hbuffered⟩ := emits (.callSend inputData) out c' h.wired
    hb₀ nofun rfl ht (fun hf => by rw [hno] at hf; cases hf) (fun hf => absurd hf hnofin)
  have hwritten : (e.after (.callSend inputData) c' out).written = e.written ++ inputData :=
    congrArg (e.written ++ ·) hout
  refine ⟨of_synced hwired (by rw [hwritten]; exact hbuffered) (by rw [hstate]; exact hs) ?_ ?_,
    fun hd => hd.emit _, fun hd ha => ha.emit hd _, Channel.emit_stored _ _⟩
  · intro hfin
    rw [Connection.fin_mem_emit] at hfin
    have := (Connection.sendsFin_iff.mp (hfin.resolve_left hnofin)).2.1
    rw [hno] at this
    cases this
  · intro hz
    rw [Channel.emit_acked] at hz
    rcases (h.handshake hidle hz).2 with ho | hw
    · rw [ConnectionState.not_opening_of_synced hs] at ho
      cases ho
    · rw [hwrote] at hw
      cases hw

/-- During the handshake the stream is the SYN alone. -/
theorem length_of_opening (h : Sending e isn ch) (hwf : Connection.WellFormed e.conn)
    (hbound : e.carried < 2 ^ 31) (ho : e.state.opening = true) :
    ch.sent.length = 1 ∧ ch.acked = 0 := by
  have hidle := ConnectionState.not_idle_of_opening ho
  have hr := (h.buffered hidle).realises
  have hlen := h.wired.length_le hbound
  have hacked := hr.acked
  rw [TxBuffer.maxLength] at hlen
  obtain ⟨hun, hnext⟩ := hwf.opening ho
  rw [hr.next, hr.initSeqn] at hnext
  rw [hr.unack, hr.initSeqn] at hun
  refine ⟨(Circular.add_ofNat_inj isn (by omega) (by decide)).mp hnext, ?_⟩
  refine (Circular.add_ofNat_inj isn (j := 0) (by omega) (by decide)).mp ?_
  rw [hun]
  exact (BitVec.add_zero isn).symm

theorem evolves_marked (h : Sending e isn ch) (hwf : Connection.WellFormed e.conn)
    (hbound : e.carried < 2 ^ 31) (hop : op = .callShutdown ∨ op = .callClose)
    (hs : Connection.Peered e.conn) (hwrote : e.state.wroteFin = false)
    (hempty : e.conn.tx.tx.bytes = []) (htx : c₀.tx = (Connection.marked e.conn).tx)
    (hsent : c₀.userData.sent = e.log) (ht : Connection.TxSent c₀ c')
    (hsync : c'.connectionState.synced = true)
    (hfin : c₀.sendsFin = true → c'.connectionState.wroteFin = true)
    (hrec : e.state = .synReceived → c'.connectionState.wroteFin = true) :
    Evolves (e.after op c' out) isn ch (ch.emit c₀.outSegment.symbols) := by
  have hidle : e.state.idle = false := hs.not_idle
  have hb := h.buffered hidle
  have hnofin : .fin ∉ ch.sent := fun hf => by
    have := h.wroteFin hidle hf
    rw [hwrote] at this
    cases this
  have hout : out.accepted op = [] := by
    rcases hop with rfl | rfl <;> rfl
  have hwritten : (e.after op c' out).written = e.written := by
    change e.written ++ _ = _
    rw [hout, List.append_nil]
  have hbytes : c₀.tx.tx.bytes = [] := by
    rw [htx]
    exact hempty
  have hb₀ : Buffered c₀.tx e.written isn ch := by
    refine ⟨hb.realises.congr ?_ ?_ ?_ ?_, hb.opened, ?_⟩
    · rw [htx]; rfl
    · rw [htx]; rfl
    · rw [htx]; rfl
    · rw [htx]; rfl
    · rw [hbytes, ← hempty]
      exact hb.queue
  have htick (time : Time) : op ≠ .onTimeTick time := by
    rcases hop with rfl | rfl <;> exact nofun
  obtain ⟨hwired, hbuffered⟩ := emits op out c' h.wired hb₀ htick hsent ht
    (fun _ => hbytes) (fun hf => absurd hf hnofin)
  refine ⟨of_synced hwired (by rw [hwritten]; exact hbuffered) hsync ?_ ?_, fun hd => hd.emit _,
    fun hd ha => ha.emit hd _, Channel.emit_stored _ _⟩
  · intro hf
    rw [Connection.fin_mem_emit] at hf
    exact hfin (hf.resolve_left hnofin)
  · intro hz
    rw [Channel.emit_acked] at hz
    have ho : e.state.opening = true :=
      (h.handshake hidle hz).2.resolve_right fun hw => by
        rw [hwrote] at hw
        cases hw
    have hst : e.state = .synReceived := by
      refine hs.resolve_left fun hsync => ?_
      rw [ConnectionState.not_opening_of_synced hsync] at ho
      cases ho
    refine ⟨?_, hrec hst⟩
    have hdata : c₀.outData = [] := by
      rw [Connection.outData, hbytes, List.take_nil]
    have hone := (h.length_of_opening hwf hbound ho).1
    have hbit := Bool.toNat_le c₀.sendsFin
    rw [Channel.emit_sent, List.length_append, c₀.outSegment_symbols_length, hdata,
      List.length_nil, hone]
    omega

theorem evolves_acked (h : Sending e isn ch) (hlogged : ∀ s ∈ e.conn.tx.reTx, s ∈ e.log)
    (hbound : e.carried < 2 ^ 31) (hd : ch.Delivers) (ha : ch.Acknowledges) {seg : SegmentMeta}
    (told : Told (.onSegment seg : Op Time) isn ch) (hs : Connection.Peered e.conn)
    (hack : seg.hasAck = true) (hrst : seg.hasRst = false)
    (hrange : seg.ackn.inRangeInclusive e.conn.tx.unack e.conn.tx.next = true)
    (htx : c'.tx = e.conn.ackedTx seg) (hstate : Connection.AckedState e.conn seg c' false)
    {new : List SegmentMeta} (hsent : c'.userData.sent = e.log ++ new)
    (hnew : ∀ s ∈ new, Connection.Remark e.conn (.onSegment seg) s) :
    ∃ ch', Evolves (e.after (.onSegment seg) c' .none) isn ch ch' := by
  have hidle : e.state.idle = false := hs.not_idle
  obtain ⟨n, hpos, hacked, hn, hb⟩ := h.buffered_ack hidle hbound hd ha told hrst hack hrange
    c'.tx (by rw [htx]; rfl) (by rw [htx]; rfl) (by rw [htx]; rfl) (by rw [htx]; rfl)
    (by rw [htx]; rfl)
  have hwired := (h.wired_remarks .none hlogged hsent hnew).ack n
  have hwritten : (e.after (.onSegment seg) c' .none).written = e.written := List.append_nil _
  refine ⟨ch.ack n, of_synced hwired (by rw [hwritten]; exact hb) hstate.synced ?_ ?_,
    fun hd => hd.ack n, fun _ ha => ha.ack hacked hn, rfl⟩
  · intro hf
    rw [hstate.wroteFin, h.wroteFin hidle hf]
    rfl
  · intro hz
    exact absurd (show n = 0 from hz) (by omega)

theorem evolves_stored (h : Sending e isn ch) (hwf : Connection.WellFormed e.conn)
    (hbound : e.carried < 2 ^ 31) (hd : ch.Delivers) (ha : ch.Acknowledges) {seg : SegmentMeta}
    (told : Told (.onSegment seg : Op Time) isn ch) (hs : Connection.Peered e.conn)
    (hstores : e.conn.Stores seg) (htx : c₀.tx = e.conn.ackedTx seg)
    (hwrote : c₀.connectionState.wroteFin = e.state.wroteFin)
    (hsent : c₀.userData.sent = e.log) (ht : Connection.TxSent c₀ c')
    (hstate : Connection.AckedState e.conn seg c' c₀.sendsFin) :
    ∃ ch', Evolves (e.after (.onSegment seg) c' .none) isn ch ch' := by
  have hidle : e.state.idle = false := hs.not_idle
  have hqueue : c₀.tx.tx = e.conn.tx.tx := by rw [htx]; rfl
  obtain ⟨n, hpos, hacked, hn, hb⟩ := h.buffered_ack hidle hbound hd ha told hstores.noRst
    hstores.ack hstores.range c₀.tx hqueue (by rw [htx]; rfl) (by rw [htx]; rfl)
    (by rw [htx]; rfl) (by rw [htx]; rfl)
  have hmarked : c₀.tx.tx.fin = true → c₀.tx.tx.bytes = [] := by
    rw [hqueue]
    exact hwf.marked
  obtain ⟨hwired, hbuffered⟩ := emits (.onSegment seg) .none c'
    (h.wired.ack n) hb nofun hsent ht hmarked
    (fun hf => Traced.outSegment_of_wroteFin hwf hqueue hwrote (h.wroteFin hidle hf))
  have hwritten : (e.after (.onSegment seg) c' .none).written = e.written := List.append_nil _
  refine ⟨_, of_synced hwired (by rw [hwritten]; exact hbuffered) hstate.synced ?_ ?_,
    fun hd => (hd.ack n).emit _, fun hd ha => (ha.ack hacked hn).emit (hd.ack n) _,
    Channel.emit_stored _ _⟩
  · intro hf
    rw [Connection.fin_mem_emit] at hf
    rw [hstate.wroteFin, Bool.or_eq_true]
    exact hf.imp_left (h.wroteFin hidle)
  · intro hz
    rw [Channel.emit_acked] at hz
    exact absurd (show n = 0 from hz) (by omega)

theorem evolves_opened (h : Sending e isn ch) (hwf : Connection.WellFormed e.conn)
    (hbound : e.carried < 2 ^ 31) (hd : ch.Delivers) (ha : ch.Acknowledges) {seg : SegmentMeta}
    (told : Told (.onSegment seg : Op Time) isn ch) (hst : e.conn.connectionState = .synSent)
    (hrange : seg.ackn.inRangeInclusive e.conn.tx.unack e.conn.tx.next = true)
    (hrst : seg.hasRst = false) (hack : seg.hasAck = true)
    (heq : seg.ackn = e.conn.tx.initSeqn + 1#32)
    (ht : Connection.TxSent ((e.conn.synAcked seg).entered .fullyOpen) c')
    (hstate : c'.connectionState = .fullyOpen) :
    ∃ ch', Evolves (e.after (.onSegment seg) c' .none) isn ch ch' := by
  have hidle : e.state.idle = false := by
    rw [Endpoint.state, hst]
    rfl
  have htx : ((e.conn.synAcked seg).entered .fullyOpen).tx = (e.conn.synAcked seg).tx :=
    Connection.entered_tx _ _
  have hne : e.conn.tx.unack ≠ seg.ackn := by
    rw [heq, (hwf.opening (by rw [hst]; rfl)).1]
    intro hself
    have hone := Circular.span_add_ofNat e.conn.tx.initSeqn (show 1 < 2 ^ 32 by decide)
    rw [← hself] at hone
    simp at hone
  obtain ⟨n, hpos, hacked, hn, hb⟩ := h.buffered_ack hidle hbound hd ha told hrst hack hrange
    ((e.conn.synAcked seg).entered .fullyOpen).tx (by rw [htx]; rfl) (by rw [htx]; rfl)
    (by rw [htx]; rfl) (by rw [htx]; rfl) (by rw [htx, if_neg hne]; rfl)
  have hearly : e.conn.tx.tx.fin = false := (hwf.early (by rw [hst]; rfl)).1
  have hsent : ((e.conn.synAcked seg).entered .fullyOpen).userData.sent = e.log := by
    rw [Connection.entered_sent]
    exact Connection.clearReTxRange_sent _ _
  have hnofin : .fin ∉ ch.sent := fun hf => by
    have := h.wroteFin hidle hf
    rw [Endpoint.state, hst] at this
    cases this
  have hmark : ((e.conn.synAcked seg).entered .fullyOpen).tx.tx.fin = false := by
    rw [htx]
    exact hearly
  obtain ⟨hwired, hbuffered⟩ := emits (.onSegment seg) .none c'
    (h.wired.ack n) hb nofun hsent ht (fun hf => by rw [hmark] at hf; cases hf)
    (fun hf => absurd hf hnofin)
  have hwritten : (e.after (.onSegment seg) c' .none).written = e.written := List.append_nil _
  refine ⟨_, of_synced hwired (by rw [hwritten]; exact hbuffered) (by rw [hstate]; rfl) ?_ ?_,
    fun hd => (hd.ack n).emit _, fun hd ha => (ha.ack hacked hn).emit (hd.ack n) _,
    Channel.emit_stored _ _⟩
  · intro hf
    rw [Connection.fin_mem_emit] at hf
    have := (Connection.sendsFin_iff.mp (hf.resolve_left hnofin)).2.1
    rw [hmark] at this
    cases this
  · intro hz
    rw [Channel.emit_acked] at hz
    exact absurd (show n = 0 from hz) (by omega)

/-- Each operation that does not start a stream over moves the channel on. -/
theorem evolves (h : Sending e isn ch) (hwf : Connection.WellFormed e.conn)
    (hlogged : ∀ s ∈ e.conn.tx.reTx, s ∈ e.log) (hbound : e.carried < 2 ^ 31) (hd : ch.Delivers)
    (ha : e.state.idle = false → ch.Acknowledges) (told : e.state.idle = false → Told op isn ch)
    (effect : Connection.TxEffect e.conn op out c') (hop : op ≠ .callConnect)
    (hanswer : e.state = .listen → c'.connectionState ≠ .synReceived)
    (hrelisten : c'.connectionState = .listen → e.state ≠ .synReceived) :
    ∃ ch', Evolves (e.after op c' out) isn ch ch' := by
  cases effect with
  | kept hout htx hstate hsent hnew =>
      exact ⟨ch, h.evolves_kept hlogged hout htx hstate (fun hidle => (told hidle).bare) hsent hnew⟩
  | cleared hout hidle hlisten htx hsent hnew =>
      exact ⟨ch, h.evolves_cleared hwf hlogged hout hidle
        (fun hl => hrelisten hl (hlisten hl).1) hsent hnew⟩
  | connecting => exact absurd rfl hop
  | answered hst _ _ hc => exact absurd hc.state (hanswer hst)
  | queued hout hs hq htx hstate hsent =>
      have hidle : e.state.idle = false := by
        rcases hs with hs | ⟨hs, -⟩
        · exact ConnectionState.not_idle_of_opening hs
        · exact ConnectionState.not_idle_of_synced hs
      exact ⟨ch, h.evolves_queued hout hidle hq htx hstate hsent⟩
  | appended hdata hout hs hwrote hq _ ht hstate =>
      exact ⟨_, h.evolves_appended hdata hout hs hwrote hq ht hstate⟩
  | marked hop hs hwrote hempty _ htx _ _ hsent ht hsync hfin _ hrec =>
      exact ⟨_, h.evolves_marked hwf hbound hop hs hwrote hempty htx hsent ht hsync hfin hrec⟩
  | acked hs hack hrst hrange htx hstate hsent hnew =>
      exact h.evolves_acked hlogged hbound hd (ha hs.not_idle) (told hs.not_idle) hs hack hrst
        hrange htx hstate hsent hnew
  | stored hs hstores htx _ hwrote hsent ht hstate =>
      exact h.evolves_stored hwf hbound hd (ha hs.not_idle) (told hs.not_idle) hs hstores htx
        hwrote hsent ht hstate
  | @synAcked seg hst hrange hrst hack _ hne =>
      -- The peer has stored our SYN, so its acknowledgement is not for less.
      have hidle : e.state.idle = false := by
        rw [Endpoint.state, hst]
        rfl
      obtain ⟨n, hpos, hn, hackn⟩ := (told hidle).acks seg rfl hrst hack
      obtain ⟨hone, -⟩ := h.length_of_opening hwf hbound (by rw [Endpoint.state, hst]; rfl)
      have hle := Nat.le_trans hn hd.stored.length_le
      obtain rfl : n = 1 := by omega
      rw [← (h.buffered hidle).realises.initSeqn] at hackn
      exact absurd hackn hne
  | opened hst hrange hrst hack _ heq ht hstate =>
      have hidle : e.state.idle = false := by
        rw [Endpoint.state, hst]
        rfl
      exact h.evolves_opened hwf hbound hd (ha hidle) (told hidle) hst hrange hrst hack heq ht
        hstate

end Sending

end TcpState
