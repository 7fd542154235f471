import TcpState.Connection.AcceptedStep
import TcpState.Connection.Receive

/-!
# What an operation does to the send side

Every operation changes the send buffer and the wire in one of a few ways.
`TxEffect` names the way, with the connection `send_ack` was called on where it
was, and the write state after it.
-/

namespace TcpState

/-- The bytes a call took over for sending. -/
def Output.accepted {Time : Type} : Op Time → Output → List UInt8
  | .callSend inputData, .call (.ok ()) => inputData
  | .callSend inputData, .call (.error (.continueAfter _)) => inputData
  | _, _ => []

namespace ConnectionState

/-- Our FIN has been acknowledged. -/
def txClosed : ConnectionState → Bool
  | .established .closed _ _ _ | .timeWait => true
  | _ => false

theorem wroteFin_of_txClosed {s : ConnectionState} (h : s.txClosed = true) :
    s.wroteFin = true := by
  cases s with
  | established t r cc ca =>
      cases t with
      | closed => rfl
      | opened => cases h
      | fin => cases h
  | timeWait => rfl
  | _ => cases h

theorem opening_of_wroteFin {s : ConnectionState} (h : s.wroteFin = true) :
    s.opening = false := by
  cases s <;> first | rfl | cases h

end ConnectionState

namespace Connection

variable {Addr Time : Type}

/-- The send buffer apart from the window and the last segment. -/
structure TxKept (c c' : Connection Addr Time) : Prop where
  queue : c'.tx.tx = c.tx.tx
  reTx : c'.tx.reTx = c.tx.reTx
  unack : c'.tx.unack = c.tx.unack
  next : c'.tx.next = c.tx.next
  initSeqn : c'.tx.initSeqn = c.tx.initSeqn

/-- A FIN without an acknowledgement, which opens a connection. -/
def BareFin (seg : SegmentMeta) : Prop :=
  seg.hasRst = false ∧ seg.hasSyn = false ∧ seg.hasAck = false ∧ seg.hasFin = true

/-- The step stays in one state, or among the open states without touching the
write state. Only a bare FIN moves on from the handshake. -/
def TxStateKept (c : Connection Addr Time) (op : Op Time) (c' : Connection Addr Time) : Prop :=
  c'.connectionState = c.connectionState ∨
    (c.connectionState.synced = true ∨
      Peered c ∧ ∃ seg, op = .onSegment seg ∧ BareFin seg) ∧
      c'.connectionState.synced = true ∧
      c'.connectionState.wroteFin = c.connectionState.wroteFin ∧
      c'.connectionState.txClosed = c.connectionState.txClosed

/-- What a step may put on the wire besides new data, FIN and SYN. -/
inductive Remark (c : Connection Addr Time) (op : Op Time) (s : SegmentMeta) : Prop
  | resend {time : Time} (hop : op = .onTimeTick time) (h : s ∈ c.tx.reTx)
  | ack (hs : Peered c) (hflags : s.flags = .ack) (hdata : s.data = [])
      (hackn : s.ackn = c.rx.ackd)
  | refusal {seg : SegmentMeta} (hop : op = .onSegment seg) (hrst : s.hasRst = true)
      (hsize : s.data = [] ∧ s.seqSize = 0#32)
      (hack : s.hasAck = true → c.connectionState = .closed ∨ c.connectionState = .reset)
      (hst : (c.connectionState = .closed ∨ c.connectionState = .reset) ∨
        seg.hasAck = true ∧ (c.connectionState = .listen ∨ c.connectionState = .synSent ∧
          seg.ackn.inRangeInclusive c.tx.unack c.tx.next = false))

/-- What a connection that is cleared may leave on the wire. -/
inductive Parting (c : Connection Addr Time) (op : Op Time) (s : SegmentMeta) : Prop
  | resend {time : Time} (hop : op = .onTimeTick time) (h : s ∈ c.tx.reTx)
  | abort (hrst : s.hasRst = true) (hsize : s.data = [] ∧ s.seqSize = 0#32)
      (hack : s.hasAck = false)
  | stray (hflags : s.flags = .ack) (hdata : s.data = [])
      (hread : c.connectionState.readClosed = true)

/-- The send buffer after an acknowledgement. -/
def ackedTx (c : Connection Addr Time) (seg : SegmentMeta) : TxBuffer :=
  { c.tx with window := c.windowAfter seg, reTx := c.unackedAfter seg, unack := seg.ackn }

/-- The write state after an acknowledgement in range, and before our FIN is
counted if one was sent with it. -/
structure AckedState (c : Connection Addr Time) (seg : SegmentMeta)
    (c' : Connection Addr Time) (sent : Bool) : Prop where
  synced : c'.connectionState.synced = true
  wroteFin : c'.connectionState.wroteFin = (c.connectionState.wroteFin || sent)
  txClosed : c'.connectionState.txClosed = true →
    c.connectionState.txClosed = true ∨
      c.connectionState.wroteFin = true ∧ seg.ackn = c.tx.next

/-- The send side after `send_ack` on `c₀`. -/
structure TxSent (c₀ c' : Connection Addr Time) : Prop where
  rx : c'.rx = c₀.rx
  bytes : c'.tx.tx.bytes = c₀.tx.tx.bytes.drop c₀.outLimit
  fin : c'.tx.tx.fin = c₀.tx.tx.fin
  unack : c'.tx.unack = c₀.tx.unack
  next : c'.tx.next = c₀.tx.next + c₀.outSegment.seqSize
  initSeqn : c'.tx.initSeqn = c₀.tx.initSeqn
  window : c'.tx.window = c₀.tx.window
  reTx : c'.tx.reTx = c₀.tx.reTx ++
    if c₀.outSegment.seqSize = 0#32 then [] else [c₀.outSegment]
  sent : c'.userData.sent = c₀.userData.sent ++
    if c₀.skipsRepeat then [] else [c₀.outSegment]

/-- The ways an operation affects the send side. -/
inductive TxEffect (c : Connection Addr Time) : Op Time → Output → Connection Addr Time → Prop
  | kept {op : Op Time} {out : Output} {c' : Connection Addr Time} {new : List SegmentMeta}
      (hout : out.accepted op = []) (htx : TxKept c c') (hstate : TxStateKept c op c')
      (hsent : c'.userData.sent = c.userData.sent ++ new) (hnew : ∀ s ∈ new, Remark c op s) :
      TxEffect c op out c'
  | cleared {op : Op Time} {out : Output} {c' : Connection Addr Time} {new : List SegmentMeta}
      (hout : out.accepted op = []) (hidle : c'.connectionState.idle = true)
      (hlisten : c'.connectionState = .listen → c.connectionState = .synReceived ∧
        ∃ seg, op = .onSegment seg ∧ seg.hasRst = true)
      (htx : c'.tx = .default) (hsent : c'.userData.sent = c.userData.sent ++ new)
      (hnew : ∀ s ∈ new, Parting c op s) : TxEffect c op out c'
  | connecting {out : Output} {c' : Connection Addr Time}
      (hs : c.connectionState = .closed ∨ c.connectionState = .reset)
      (hout : out.accepted (.callConnect : Op Time) = []) (hc : SynSent c c') :
      TxEffect c .callConnect out c'
  | answered {seg : SegmentMeta} {c' : Connection Addr Time}
      (hst : c.connectionState = .listen) (hrst : seg.hasRst = false) (hsyn : seg.hasSyn = true)
      (hc : SynAnswered c seg c') : TxEffect c (.onSegment seg) .none c'
  | queued {inputData : List UInt8} {q : BlobQueue} {out : Output} {c' : Connection Addr Time}
      (hout : out.accepted (.callSend inputData : Op Time) = inputData)
      (hs : c.connectionState.opening = true ∨ c.connectionState.synced = true ∧
        c.connectionState.wroteFin = false)
      (hq : c.tx.tx.writeBytes inputData = .ok q) (htx : c'.tx = { c.tx with tx := q })
      (hstate : c'.connectionState = c.connectionState)
      (hsent : c'.userData.sent = c.userData.sent) : TxEffect c (.callSend inputData) out c'
  | appended {inputData : List UInt8} {q : BlobQueue} {out : Output} {c' : Connection Addr Time}
      (hdata : inputData ≠ []) (hout : out.accepted (.callSend inputData : Op Time) = inputData)
      (hs : c.connectionState.synced = true) (hwrote : c.connectionState.wroteFin = false)
      (hq : c.tx.tx.writeBytes inputData = .ok q) (hspace : c.SendsNow q)
      (h : TxSent (c.withQueue q) c') (hstate : c'.connectionState = c.connectionState) :
      TxEffect c (.callSend inputData) out c'
  | marked {op : Op Time} {out : Output} {c₀ c' : Connection Addr Time}
      (hop : op = .callShutdown ∨ op = .callClose) (hs : Peered c)
      (hwrote : c.connectionState.wroteFin = false) (hempty : c.tx.tx.bytes = [])
      (hw : c.noSenders) (htx : c₀.tx = c.marked.tx) (hrx : c₀.rx = c.rx)
      (hwrote₀ : c₀.connectionState.wroteFin = false)
      (hsent : c₀.userData.sent = c.userData.sent) (h : TxSent c₀ c')
      (hsync : c'.connectionState.synced = true)
      (hfin : c₀.sendsFin = true → c'.connectionState.wroteFin = true)
      (hearly : c'.connectionState.wroteFin = true →
        c₀.sendsFin = true ∨ c.connectionState = .synReceived)
      (hrec : c.connectionState = .synReceived → c'.connectionState.wroteFin = true)
      (hopen : c'.connectionState.txClosed = false) : TxEffect c op out c'
  | acked {seg : SegmentMeta} {c' : Connection Addr Time} {new : List SegmentMeta}
      (hs : Peered c) (hack : seg.hasAck = true) (hrst : seg.hasRst = false)
      (hrange : seg.ackn.inRangeInclusive c.tx.unack c.tx.next = true)
      (htx : c'.tx = c.ackedTx seg) (hstate : AckedState c seg c' false)
      (hsent : c'.userData.sent = c.userData.sent ++ new)
      (hnew : ∀ s ∈ new, Remark c (.onSegment seg) s) : TxEffect c (.onSegment seg) .none c'
  | stored {seg : SegmentMeta} {c₀ c' : Connection Addr Time} (hs : Peered c)
      (hstores : c.Stores seg) (htx : c₀.tx = c.ackedTx seg)
      (hrx : c.rx.write seg = .ok c₀.rx)
      (hwrote : c₀.connectionState.wroteFin = c.connectionState.wroteFin)
      (hsent : c₀.userData.sent = c.userData.sent) (h : TxSent c₀ c')
      (hstate : AckedState c seg c' c₀.sendsFin) : TxEffect c (.onSegment seg) .none c'
  | synAcked {seg : SegmentMeta} (hst : c.connectionState = .synSent)
      (hrange : seg.ackn.inRangeInclusive c.tx.unack c.tx.next = true)
      (hrst : seg.hasRst = false) (hack : seg.hasAck = true) (hsyn : seg.hasSyn = true)
      (hne : seg.ackn ≠ c.tx.initSeqn + 1#32) :
      TxEffect c (.onSegment seg) .none (c.synAcked seg)
  | opened {seg : SegmentMeta} {c' : Connection Addr Time} (hst : c.connectionState = .synSent)
      (hrange : seg.ackn.inRangeInclusive c.tx.unack c.tx.next = true)
      (hrst : seg.hasRst = false) (hack : seg.hasAck = true) (hsyn : seg.hasSyn = true)
      (heq : seg.ackn = c.tx.initSeqn + 1#32)
      (h : TxSent ((c.synAcked seg).entered .fullyOpen) c')
      (hstate : c'.connectionState = .fullyOpen) : TxEffect c (.onSegment seg) .none c'

/-- A refusal carries nothing. -/
theorem bare_of_rst (s : SegmentMeta) (hdata : s.data = [])
    (hflags : s.flags = .rst ∨ s.flags = .rst ||| .ack) : s.data = [] ∧ s.seqSize = 0#32 := by
  refine ⟨hdata, ?_⟩
  rcases hflags with hflags | hflags <;>
    exact SegmentMeta.seqSize_of_empty (by simp [SegmentMeta.hasSyn, hflags])
      (by simp [SegmentMeta.hasFin, hflags]) hdata

variable [UserTime Time] {c c' : Connection Addr Time} {seg : SegmentMeta}

theorem closed_ne_listen {p : Prop} (h : ConnectionState.closed = .listen) : p := by cases h

omit [UserTime Time] in
theorem TxKept.refl (c : Connection Addr Time) : TxKept c c := ⟨rfl, rfl, rfl, rfl, rfl⟩

omit [UserTime Time] in
theorem TxKept.of_eq (htx : c'.tx = c.tx) : TxKept c c' := by
  constructor <;> rw [htx]

namespace TxEffect

variable {op : Op Time} {out : Output}

omit [UserTime Time] in
/-- An operation that leaves the send buffer, the state and the wire. -/
theorem same (hout : out.accepted op = []) (htx : TxKept c c')
    (hstate : c'.connectionState = c.connectionState)
    (hsent : c'.userData.sent = c.userData.sent) : TxEffect c op out c' :=
  .kept hout htx (.inl hstate) (hsent.trans (List.append_nil _).symm) (List.forall_mem_nil _)

omit [UserTime Time] in
/-- An operation that leaves the send buffer and the state, and sends one segment. -/
theorem said {s : SegmentMeta} (hout : out.accepted op = []) (hs : Remark c op s) :
    TxEffect c op out (c.send s) := by
  refine .kept hout (.of_eq rfl) (.inl rfl) (send_sent c s) fun s' hmem => ?_
  rw [List.mem_singleton.mp hmem]
  exact hs

omit [UserTime Time] in
/-- An operation that clears the connection and sends nothing. -/
theorem emptied {c₀ : Connection Addr Time} (hout : out.accepted op = [])
    (hsent : c₀.userData.sent = c.userData.sent) : TxEffect c op out c₀.clear := by
  have hlog : c₀.clear.userData.sent = c.userData.sent ++ [] := by
    rw [clear_sent, hsent, List.append_nil]
  exact .cleared hout rfl closed_ne_listen rfl hlog (List.forall_mem_nil _)

omit [UserTime Time] in
/-- An operation that clears the connection and sends one last segment. -/
theorem parted {s : SegmentMeta} (hout : out.accepted op = [])
    (hidle : c'.connectionState.idle = true) (hlisten : c'.connectionState ≠ .listen)
    (htx : c'.tx = .default) (hsent : c'.userData.sent = c.userData.sent ++ [s])
    (hs : Parting c op s) : TxEffect c op out c' := by
  refine .cleared hout hidle (fun h => absurd h hlisten) htx hsent fun s' hmem => ?_
  rw [List.mem_singleton.mp hmem]
  exact hs

omit [UserTime Time] in
/-- The abort of a connection is a bare RST. -/
theorem aborted (hout : out.accepted op = []) (hidle : c'.connectionState.idle = true)
    (hlisten : c'.connectionState ≠ .listen) (htx : c'.tx = .default) {s : SegmentMeta}
    (hsent : c'.userData.sent = c.userData.sent ++ [s]) (hflags : s.flags = .rst)
    (hdata : s.data = []) : TxEffect c op out c' := by
  refine parted hout hidle hlisten htx hsent (.abort ?_ (bare_of_rst s hdata (.inl hflags)) ?_)
  · rw [SegmentMeta.hasRst, hflags]
    exact SegmentFlags.contains_rst.1
  · rw [SegmentMeta.hasAck, hflags]
    exact SegmentFlags.contains_rst.2.1

end TxEffect

omit [UserTime Time] in
theorem AckSent.txSent (a : AckSent c c') : TxSent c c' :=
  ⟨a.rx, a.bytes, a.fin, a.unack, a.next, a.initSeqn, a.window, a.reTx, a.sent⟩

omit [UserTime Time] in
/-- What follows `send_ack` in a step leaves the send side alone. -/
theorem TxSent.congr {c₁ : Connection Addr Time} (h : TxSent c c₁) (htx : c'.tx = c₁.tx)
    (hrx : c'.rx = c₁.rx) (hsent : c'.userData.sent = c₁.userData.sent) : TxSent c c' := by
  constructor
  · rw [hrx, h.rx]
  · rw [htx, h.bytes]
  · rw [htx, h.fin]
  · rw [htx, h.unack]
  · rw [htx, h.next]
  · rw [htx, h.initSeqn]
  · rw [htx, h.window]
  · rw [htx, h.reTx]
  · rw [hsent, h.sent]

omit [UserTime Time] in
theorem AckSent.txState (a : AckSent c c') (hs : c.connectionState.synced = true) :
    c'.connectionState.synced = true ∧
      c'.connectionState.wroteFin = (c.connectionState.wroteFin || c.sendsFin) ∧
      c'.connectionState.txClosed = c.connectionState.txClosed := by
  rw [a.state]
  cases hfin : c.sendsFin with
  | false => simp [hs]
  | true =>
      have hwrote := (sendsFin_iff.mp hfin).2.2
      obtain ⟨r, cc, ca, hst⟩ := ConnectionState.eq_established_opened hs hwrote
      rw [hst]
      simp [ConnectionState.withFin, ConnectionState.synced, ConnectionState.wroteFin,
        ConnectionState.txClosed]

/-- Entering an open state leaves the send side alone, or clears everything. -/
theorem stateSet_tx (c : Connection Addr Time) (t r : ChannelState) (cc ca : Bool) :
    ((c.stateSet (.established t r cc ca)).tx = c.tx ∧
      (c.stateSet (.established t r cc ca)).userData.sent = c.userData.sent ∧
      (c.stateSet (.established t r cc ca)).connectionState.synced = true ∧
      (c.stateSet (.established t r cc ca)).connectionState.wroteFin = decide (t ≠ .opened) ∧
      (c.stateSet (.established t r cc ca)).connectionState.txClosed = decide (t = .closed)) ∨
    ∃ c₀ : Connection Addr Time, c.stateSet (.established t r cc ca) = c₀.clear ∧
      c₀.userData.sent = c.userData.sent ∧ t = .closed ∧ r = .closed := by
  unfold stateSet
  split
  · rename_i heq
    obtain ⟨rfl, rfl, rfl, rfl⟩ := ConnectionState.established.inj heq
    left
    refine ⟨by simp, by simp, by simp [ConnectionState.synced],
      by simp [ConnectionState.wroteFin], by simp [ConnectionState.txClosed]⟩
  · rename_i heq
    obtain ⟨rfl, rfl, -, -⟩ := ConnectionState.established.inj heq
    exact .inr ⟨_, rfl, by simp, rfl, rfl⟩
  · left
    refine ⟨by simp, by simp, by simp [ConnectionState.synced], ?_, ?_⟩
    · cases t <;> simp [ConnectionState.wroteFin]
    · cases t <;> simp [ConnectionState.txClosed]

omit [UserTime Time] in
/-- A closed connection answers with a RST and nothing else. -/
theorem responseToClosed_reply {resp : SegmentMeta}
    (hresp : responseToClosed seg = .ok (some resp)) :
    resp.hasRst = true ∧ resp.data = [] ∧ resp.seqSize = 0#32 := by
  unfold responseToClosed at hresp
  split at hresp
  · cases hresp
  split at hresp
  · split at hresp
    · cases hresp
      exact ⟨SegmentFlags.contains_rstAck.1, bare_of_rst _ rfl (.inr rfl)⟩
    · cases hresp
  · cases hresp
    exact ⟨SegmentFlags.contains_rst.1, bare_of_rst _ rfl (.inl rfl)⟩

theorem onFin_tx (hs : Peered c) {isNew : Bool} (hc : c.onFin isNew = .ok c') :
    c'.tx = c.tx ∧ c'.userData.sent = c.userData.sent ∧ c'.rx = c.rx ∧
      c'.connectionState.synced = true ∧
      c'.connectionState.wroteFin = c.connectionState.wroteFin ∧
      c'.connectionState.txClosed = c.connectionState.txClosed := by
  have hrx := (onFin_rx hs hc).2.1
  unfold onFin at hc
  split at hc
  case h_1 hst | h_2 hst | h_3 hst | h_7 hst =>
    rcases hs with hs | hs <;> rw [hst] at hs <;> cases hs
  case h_4 hst =>
    split at hc
    · obtain rfl := Fallible.pure_ok_iff.mp hc
      simp [hst, ConnectionState.synced]
    · obtain rfl := Fallible.pure_ok_iff.mp hc
      simp [hst, ConnectionState.synced]
  case h_5 hst =>
    obtain ⟨-, -, rfl⟩ := setState_ok_iff.mp hc
    rw [stateSet_eq_entered _ (.inl (by decide))]
    simp [hst, ConnectionState.synced, ConnectionState.wroteFin, ConnectionState.txClosed]
  case h_6 t r cc ca hst =>
    obtain ⟨-, -, rfl⟩ := setState_ok_iff.mp hc
    rw [stateSet_eq_entered _ (.inr (.inl (by decide)))]
    cases t <;>
      simp [hst, ConnectionState.synced, ConnectionState.wroteFin, ConnectionState.txClosed]

/-- The ACK of our FIN only moves the write state, or clears everything. -/
theorem onFinAcked_tx {ackn : SeqN} (hs : c.connectionState.synced = true)
    (hc : c.onFinAcked ackn = .ok c') :
    (c'.tx = c.tx ∧ c'.userData.sent = c.userData.sent ∧ c'.connectionState.synced = true ∧
      c'.connectionState.wroteFin = c.connectionState.wroteFin ∧
      (c'.connectionState.txClosed = true → c.connectionState.txClosed = true ∨
        c.connectionState.wroteFin = true ∧ ackn = c.tx.next)) ∨
    ∃ c₀ : Connection Addr Time, c' = c₀.clear ∧ c₀.userData.sent = c.userData.sent ∧
      c.connectionState.readClosed = true := by
  rcases onFinAcked_ok_iff.mp hc with ⟨r, cc, ca, hst, hackn, -, -, rfl⟩ | ⟨-, rfl⟩
  · rcases stateSet_tx c .closed r cc ca with ⟨h₁, h₂, h₃, h₄, -⟩ | ⟨c₀, h₁, h₂, -, rfl⟩
    · refine .inl ⟨h₁, h₂, h₃, ?_, fun _ => .inr ⟨by rw [hst]; rfl, hackn⟩⟩
      rw [h₄, hst]
      rfl
    · exact .inr ⟨c₀, h₁, h₂, by rw [hst]; rfl⟩
  · exact .inl ⟨rfl, rfl, hs, rfl, .inl⟩

omit [UserTime Time] in
/-- The buffer that the acknowledgement bookkeeping leaves. -/
theorem Acknowledged.ackedTx {c₁ : Connection Addr Time} (h : WellFormed c)
    (hack : Acknowledged (c.windowed seg) seg c₁) : c₁.tx = c.ackedTx seg := by
  obtain ⟨-, -, hqueue, hnext, hinit, hunack, -⟩ := hack.frame
  obtain ⟨hre, hwin⟩ := Acknowledged.tx (c := c.windowed seg) h.dupAck h.congestion hack
  have hlast : c₁.tx.lastSent = c.tx.lastSent := by
    cases hack with
    | repeated => simp [windowed]
    | new _ hc => simp [hc.tx, windowed]
  have hwin := hwin rfl
  cases htx : c₁.tx with
  | mk tx reTx unack next initSeqn window lastSent =>
      simp only [htx] at hqueue hnext hinit hunack hre hwin hlast
      subst hqueue hnext hinit hunack hre hwin hlast
      rfl

omit [UserTime Time] in
theorem opened_txState (c : Connection Addr Time) :
    c.opened.connectionState.wroteFin = c.connectionState.wroteFin ∧
      c.opened.connectionState.txClosed = c.connectionState.txClosed ∧
      c.opened.connectionState.readClosed = c.connectionState.readClosed := by
  rw [opened_connectionState]
  split
  · rename_i hst
    rw [hst]
    exact ⟨rfl, rfl, rfl⟩
  · exact ⟨rfl, rfl, rfl⟩

/-- The acknowledgement bookkeeping sends nothing. -/
theorem sent_of_taken {c₀ c₁ : Connection Addr Time} (hs : Peered c) (h₁ : c.Takes seg c₀)
    (h₂ : c₀.onFinAcked seg.ackn = .ok c₁) : c₁.userData.sent = c.userData.sent := by
  obtain ⟨hstate, -, -, -, -, -, -, hsent⟩ := h₁.acknowledged.frame
  have hsync : c₀.connectionState.synced = true := by
    rw [hstate]
    exact opened_synced hs
  rcases onFinAcked_tx hsync h₂ with ⟨-, hsent', -⟩ | ⟨c₂, rfl, hsent', -⟩
  · exact hsent'.trans hsent
  · exact (clear_sent c₂).trans (hsent'.trans hsent)

/-- The acknowledgement bookkeeping and the ACK of our FIN leave the buffer of
the acknowledgement, unless they finish a passive close. -/
theorem Takes.finAcked {c₁ c₂ : Connection Addr Time} (h : WellFormed c) (hs : Peered c)
    (h₁ : (c.windowed seg).Takes seg c₁) (h₂ : c₁.onFinAcked seg.ackn = .ok c₂) :
    (c₂.tx = c.ackedTx seg ∧ c₂.rx = c.rx ∧ c₂.userData.sent = c.userData.sent ∧
      AckedState c seg c₂ false) ∨
    c.connectionState.readClosed = true ∧ ∃ c₀ : Connection Addr Time, c₂ = c₀.clear ∧
      c₀.userData.sent = c.userData.sent := by
  obtain ⟨hstate₁, hrx₁, -, -, -, -, -, hsent₁⟩ := h₁.acknowledged.frame
  obtain ⟨hwrote₁, hclosed₁, hread₁⟩ := opened_txState (c.windowed seg)
  have htx₁ := h₁.acknowledged.ackedTx h
  have hsync₁ : c₁.connectionState.synced = true := by
    rw [hstate₁]
    exact opened_synced hs
  rcases onFinAcked_tx hsync₁ h₂ with
    ⟨htx₂, hsent₂, hsync₂, hwrote₂, hclosed₂⟩ | ⟨c₀, rfl, hsent₂, hread₂⟩
  · have hrx₂ : c₂.rx = c₁.rx := by
      rcases onFinAcked_rx (.inl hsync₁) h₂ with ⟨-, -, hrx₂, -⟩ | ⟨c₀, rfl⟩
      · exact hrx₂
      · cases hsync₂
    refine .inl ⟨htx₂.trans htx₁, hrx₂.trans hrx₁, hsent₂.trans hsent₁, hsync₂, ?_, fun hcl => ?_⟩
    · rw [hwrote₂, hstate₁, hwrote₁, Bool.or_false]
      rfl
    · have hwas := hclosed₂ hcl
      rw [hstate₁, hclosed₁, hwrote₁, htx₁] at hwas
      exact hwas
  · rw [hstate₁, hread₁] at hread₂
    exact .inr ⟨hread₂, c₀, rfl, hsent₂.trans hsent₁⟩

namespace WellFormed

/-- An acceptable segment. -/
theorem txEffect_onAccepted (h : WellFormed c) (hs : Peered c)
    (hcheck : c.checkSegmentSeqOk seg = true) (hrst : seg.hasRst = false)
    (hsyn : seg.hasSyn = false) (hc : (c.windowed seg).onAccepted seg = .ok c') :
    TxEffect c (.onSegment seg) .none c' := by
  have keep : TxEffect c (.onSegment seg) .none (c.windowed seg) :=
    .same rfl ⟨rfl, rfl, rfl, rfl, rfl⟩ rfl rfl
  cases acceptedStep_of_ok hc with
  | unacknowledged hack hfin =>
      split at hfin
      · rename_i hseg
        obtain ⟨htx, hsent, -, hsync, hw, hcl⟩ := onFin_tx (c := c.windowed seg) hs hfin
        have hlog : c'.userData.sent = c.userData.sent ++ [] := by
          rw [hsent, List.append_nil]
          rfl
        refine .kept rfl ?_ (.inr ⟨.inr ⟨hs, seg, rfl, hrst, hsyn, hack, hseg⟩, hsync, hw, hcl⟩)
          hlog (List.forall_mem_nil _)
        constructor <;> rw [htx] <;> rfl
      · obtain rfl := Except.ok.inj hfin
        exact keep
  | invalid => exact keep
  | @discarded c₁ c₂ hack hrange h₁ h₂ =>
      rcases h₁.finAcked h hs h₂ with ⟨htx₂, hrx₂, hsent₂, hstate⟩ | ⟨hread, c₀, rfl, hsent⟩
      · split
        · have hlog : (c₂.send (c₂.bareSegment c₂.rx.ackd .ack)).userData.sent =
              c.userData.sent ++ [c₂.bareSegment c₂.rx.ackd .ack] := by
            rw [send_sent, hsent₂]
          refine .acked hs hack hrst hrange htx₂ ⟨hstate.synced, hstate.wroteFin, hstate.txClosed⟩
            hlog fun s hmem => ?_
          rw [List.mem_singleton.mp hmem]
          exact .ack hs rfl rfl (by rw [hrx₂]; rfl)
        · have hlog : c₂.userData.sent = c.userData.sent ++ [] := by
            rw [hsent₂, List.append_nil]
          exact .acked hs hack hrst hrange htx₂ hstate hlog (List.forall_mem_nil _)
      · split
        · have hlog : (c₀.clear.send (c₀.clear.bareSegment c₀.clear.rx.ackd .ack)).userData.sent =
              c.userData.sent ++ [c₀.clear.bareSegment c₀.clear.rx.ackd .ack] := by
            simp [hsent]
          exact .parted rfl rfl closed_ne_listen rfl hlog (.stray rfl rfl hread)
        · exact .emptied rfl hsent
  | @stored c₁ c₂ c₃ _ rx hack hrange h₁ h₂ hseq hrx h₃ hfin =>
      rcases h₁.finAcked h hs h₂ with ⟨htx₂, hrx₂, hsent₂, hstate⟩ | ⟨-, c₀, rfl, -⟩
      · have a := sendAck_spec h₃
        obtain ⟨hsync₃, hwrote₃, hclosed₃⟩ := AckSent.txState a hstate.synced
        have hwrote : c₂.connectionState.wroteFin = c.connectionState.wroteFin :=
          hstate.wroteFin.trans (Bool.or_false _)
        -- a FIN that comes with the data leaves the send side alone
        obtain ⟨htx, hsent, hrx', hsync, hw, hcl⟩ : c'.tx = c₃.tx ∧
            c'.userData.sent = c₃.userData.sent ∧ c'.rx = c₃.rx ∧
              c'.connectionState.synced = true ∧
              c'.connectionState.wroteFin = c₃.connectionState.wroteFin ∧
              c'.connectionState.txClosed = c₃.connectionState.txClosed := by
          split at hfin
          · exact onFin_tx (.inl hsync₃) hfin
          · obtain rfl := Except.ok.inj hfin
            exact ⟨rfl, rfl, rfl, hsync₃, rfl, rfl⟩
        rw [hrx₂] at hseq hrx
        refine @TxEffect.stored _ _ c seg { c₂ with rx := rx } c' hs
          ⟨hcheck, hrst, hsyn, hack, hrange, hseq⟩ htx₂ hrx hwrote hsent₂
          (a.txSent.congr htx hrx' hsent) ⟨hsync, ?_, ?_⟩
        · rw [hw, hwrote₃]
          exact congrArg (· || _) hwrote
        · rw [hcl, hclosed₃]
          exact hstate.txClosed
      · exact absurd h₃ (sendAck_closed rfl)

theorem txEffect_onSegment (h : WellFormed c) (hc : c.onSegment seg = .ok c') :
    TxEffect c (.onSegment seg) .none c' := by
  unfold Connection.onSegment at hc
  have none_kept : TxEffect c (.onSegment seg) .none c :=
    .same rfl (.refl _) rfl rfl
  have sync (hs : Peered c) (hc : c.onSegmentSynchronized seg = .ok c') :
      TxEffect c (.onSegment seg) .none c' := by
    cases synchronizedStep_iff.mp hc with
    | dropped => exact none_kept
    | rejected => exact .said rfl (.ack hs rfl rfl rfl)
    | reset _ hflag hrst =>
        have hwiped := onRst_spec hrst
        refine .cleared rfl hwiped.idle (fun hst => ?_) hwiped.tx hwiped.sent
          (List.forall_mem_nil _)
        rcases hwiped.state with hreset | ⟨hrec, -⟩
        · rw [hst] at hreset
          cases hreset
        · exact ⟨hrec, seg, rfl, hflag⟩
    | syn _ _ _ hsyn =>
        have hwiped := onSyn_spec hsyn
        have hreset : c'.connectionState = .reset :=
          hwiped.state.resolve_right fun h => List.cons_ne_nil _ _ h.2.2
        exact .aborted rfl hwiped.idle (by rw [hreset]; nofun) hwiped.tx hwiped.sent rfl rfl
    | accepted hcheck hrst hsyn hacc => exact h.txEffect_onAccepted hs hcheck hrst hsyn hacc
  split at hc
  case h_1 hst | h_2 hst =>
    simp only [Fallible.bind_ok_iff] at hc
    obtain ⟨resp, hresp, hc⟩ := hc
    cases resp with
    | none =>
        obtain rfl := Fallible.pure_ok_iff.mp hc
        exact none_kept
    | some resp =>
        obtain rfl := Fallible.pure_ok_iff.mp hc
        have hrefusal := responseToClosed_reply hresp
        exact .said rfl (.refusal rfl hrefusal.1 hrefusal.2 (fun _ => by simp [hst])
          (.inl (by simp [hst])))
  case h_3 hst =>
    cases listened_of_ok hc with
    | ignored => exact none_kept
    | refused _ hflag =>
        exact .said rfl (.refusal rfl SegmentFlags.contains_rst.1 (bare_of_rst _ rfl (.inl rfl))
          (fun hack => absurd (SegmentFlags.contains_rst.2.1.symm.trans hack) Bool.false_ne_true)
          (.inr ⟨hflag, .inl hst⟩))
    | answered hrst _ hsyn _ ha => exact .answered hst hrst hsyn ha
  case h_4 hst =>
    cases synSentStep_of_ok hc with
    | ignored => exact none_kept
    | refused hack hrange =>
        exact .said rfl (.refusal rfl SegmentFlags.contains_rst.1 (bare_of_rst _ rfl (.inl rfl))
          (fun hack => absurd (SegmentFlags.contains_rst.2.1.symm.trans hack) Bool.false_ne_true)
          (.inr ⟨hack, .inr ⟨hst, hrange⟩⟩))
    | reset =>
        have hlog : c.reset.userData.sent = c.userData.sent ++ [] := by
          rw [List.append_nil]
          exact clear_sent c
        exact .cleared rfl rfl (fun h => by cases h) rfl hlog (List.forall_mem_nil _)
    | waiting hrange hrst hack hsyn hne => exact .synAcked hst hrange hrst hack hsyn hne
    | opened hrange hrst hack hsyn heq hsend =>
        have a := sendAck_spec hsend
        refine .opened hst hrange hrst hack hsyn heq a.txSent ?_
        have hno : ((c.synAcked seg).entered .fullyOpen).sendsFin = false := by
          have hfin := (h.early (by rw [hst]; rfl)).1
          by_contra hs
          have := (sendsFin_iff.mp (by simpa using hs)).2.1
          rw [entered_tx] at this
          exact absurd (this.symm.trans hfin) (by decide)
        rw [a.state, hno]
        simp
  case h_5 hst | h_6 hst | h_7 hst =>
    exact sync (by simp [Peered, hst, ConnectionState.synced]) hc

end WellFormed

theorem txEffect_callRecv {bufferLen : Nat} {r : Except Error (List UInt8)}
    (hc : c.callRecv bufferLen = .ok (c', r)) : TxEffect c (.callRecv bufferLen) (.recv r) c' := by
  cases recvStep_of_ok hc with
  | refused => exact .same rfl (.of_eq rfl) rfl rfl
  | ended => exact .same rfl (.of_eq rfl) rfl rfl
  | early => exact .same rfl (.of_eq rfl) rfl rfl
  | waiting => exact .same rfl (.of_eq rfl) rfl rfl
  | read => exact .same rfl (.of_eq rfl) rfl rfl
  | full => exact .same rfl (.of_eq rfl) rfl rfl
  | @drained t cc ca rx data hs hread hlen hv =>
      rcases stateSet_tx { c with rx := rx } t .closed cc ca with
        ⟨htx, hsent, hsync, hwrote, hclosed⟩ | ⟨c₀, heq, hsent, -⟩
      · have hlog : ({ c with rx := rx }.stateSet (.established t .closed cc ca)).userData.sent =
            c.userData.sent ++ [] := by
          rw [hsent, List.append_nil]
        refine .kept rfl (.of_eq htx) (.inr ⟨.inl (by rw [hs]; rfl), hsync, ?_, ?_⟩) hlog
          (List.forall_mem_nil _)
        · rw [hwrote, hs]
          cases t <;> rfl
        · rw [hclosed, hs]
          cases t <;> rfl
      · rw [heq]
        exact .emptied rfl hsent

theorem txEffect_callSend {inputData : List UInt8} {r : Except Error Unit}
    (hc : c.callSend inputData = .ok (c', r)) : TxEffect c (.callSend inputData) (.call r) c' := by
  obtain ⟨hdata, step⟩ := sendStep_of_ok hc
  cases step with
  | @refused e he =>
      refine .same ?_ (.refl c) rfl rfl
      unfold Output.accepted
      split
      · rename_i heq
        cases heq
      · rename_i heq
        cases heq
        exact absurd rfl (he _)
      · rfl
  | delayed hs hq => exact .queued rfl (.inl hs) hq rfl rfl rfl
  | queued hs hq => exact .queued rfl (.inr (by rw [hs]; exact ⟨rfl, rfl⟩)) hq rfl rfl rfl
  | @sent q r cc ca _ hs hq hspace hsend =>
      have a := sendAck_spec hsend
      have hno : (c.withQueue q).sendsFin = false := by
        by_contra hf
        have hfin := (sendsFin_iff.mp (by simpa using hf)).2.1
        obtain ⟨-, hq', hopen⟩ := BlobQueue.writeBytes_spec hq
        change q.fin = true at hfin
        rw [hq', hopen.resolve_left hdata] at hfin
        cases hfin
      refine .appended hdata rfl (by rw [hs]; rfl) (by rw [hs]; rfl) hq hspace a.txSent ?_
      rw [a.state, hno]
      simp

omit [UserTime Time] in
/-- A FIN that leaves with `send_ack` from an open write side. -/
theorem AckSent.openState {c₀ : Connection Addr Time} (a : AckSent c₀ c') {r : ChannelState}
    {cc ca : Bool} (hs : c₀.connectionState = .established .opened r cc ca) :
    c'.connectionState.synced = true ∧ c'.connectionState.wroteFin = c₀.sendsFin ∧
      c'.connectionState.txClosed = false := by
  obtain ⟨h₁, h₂, h₃⟩ := a.txState (by rw [hs]; rfl)
  rw [hs] at h₂ h₃
  exact ⟨h₁, by simpa [ConnectionState.wroteFin] using h₂, h₃⟩

omit [UserTime Time] in
/-- The FIN of a shutdown or close during the handshake. -/
theorem txEffect_early {op : Op Time} {out : Output} {c₁ : Connection Addr Time}
    (hop : op = .callShutdown ∨ op = .callClose) (hs : c.connectionState = .synReceived)
    (hempty : c.tx.tx.bytes = []) (hw : c.noSenders) (a : AckSent c.marked c₁)
    (htx : c'.tx = c₁.tx) (hrx : c'.rx = c₁.rx) (hsent : c'.userData.sent = c₁.userData.sent)
    {cc ca : Bool} (hstate : c'.connectionState = .established .fin .opened cc ca) :
    TxEffect c op out c' := by
  refine @TxEffect.marked _ _ c op out c.marked c' hop (.inr hs) (by rw [hs]; rfl) hempty hw rfl
    rfl (by change c.connectionState.wroteFin = false; rw [hs]; rfl) rfl
    (a.txSent.congr htx hrx hsent) (by rw [hstate]; rfl) (fun _ => by rw [hstate]; rfl)
    (fun _ => .inr hs) (fun _ => by rw [hstate]; rfl) (by rw [hstate]; rfl)

theorem txEffect_callShutdown (h : WellFormed c) {r : Except Error Unit}
    (hc : c.callShutdown = .ok (c', r)) : TxEffect c .callShutdown (.call r) c' := by
  cases shutdownStep_of_ok hc with
  | refused => exact .same rfl (.refl c) rfl rfl
  | @cleared c₀ _ hsent =>
      exact .emptied rfl hsent
  | delayed => exact .same rfl (.of_eq rfl) rfl rfl
  | early hs hw hsend =>
      have a := sendAck_spec hsend
      exact txEffect_early (.inl rfl) hs (h.queue_empty hs hw) hw a (by simp) (by simp) (by simp)
        (entered_connectionState _ _)
  | active hs hcc hempty hw hsend =>
      have a := sendAck_spec hsend
      obtain ⟨hsync, hwrote, hclosed⟩ := a.openState (entered_connectionState c _)
      exact .marked (.inl rfl) (.inl (by rw [hs]; rfl)) (by rw [hs]; rfl) hempty hw
        (by simp [withQueue]) (by simp) (by simp [ConnectionState.wroteFin])
        (by simp [withQueue]) a.txSent hsync (fun hf => hwrote.trans hf)
        (fun hf => .inl (hwrote.symm.trans hf)) (fun hrec => by rw [hs] at hrec; cases hrec) hclosed
  | passive hs _ hempty hw hsend =>
      have a := sendAck_spec hsend
      obtain ⟨hsync, hwrote, hclosed⟩ := a.openState hs
      exact .marked (.inl rfl) (.inl (by rw [hs]; rfl)) (by rw [hs]; rfl) hempty hw rfl rfl
        (by rw [withQueue_connectionState, hs]; rfl) rfl a.txSent hsync (fun hf => hwrote.trans hf)
        (fun hf => .inl (hwrote.symm.trans hf)) (fun hrec => by rw [hs] at hrec; cases hrec) hclosed

/-- The end of a close leaves the send side alone, or clears everything. -/
theorem closing_tx (c : Connection Addr Time) (closeActive : Bool)
    (hs : c.connectionState.isEstablished = true) :
    ((c.closing closeActive).tx = c.tx ∧ (c.closing closeActive).userData.sent = c.userData.sent ∧
      (c.closing closeActive).rx = c.rx ∧
      (c.closing closeActive).connectionState.synced = true ∧
      (c.closing closeActive).connectionState.wroteFin = c.connectionState.wroteFin ∧
      (c.closing closeActive).connectionState.txClosed = c.connectionState.txClosed) ∨
    c.connectionState.txClosed = true ∧
      ∃ c₀ : Connection Addr Time, c.closing closeActive = c₀.clear ∧
        c₀.userData.sent = c.userData.sent := by
  obtain ⟨t, r, cc, ca, hst⟩ := ConnectionState.isEstablished_iff.mp hs
  have hkept : (c.closing closeActive).tx = (c.stateSet (.established t r true closeActive)).tx ∧
      (c.closing closeActive).userData.sent =
        (c.stateSet (.established t r true closeActive)).userData.sent ∧
      (c.closing closeActive).rx = (c.stateSet (.established t r true closeActive)).rx ∧
      (c.closing closeActive).connectionState =
        (c.stateSet (.established t r true closeActive)).connectionState := by
    unfold closing
    rw [hst]
    dsimp only
    split <;> exact ⟨rfl, rfl, rfl, rfl⟩
  obtain ⟨hk₁, hk₂, hk₃, hk₄⟩ := hkept
  rcases stateSet_tx c t r true closeActive with
    ⟨h₁, h₂, h₃, h₄, h₅⟩ | ⟨c₀, h₁, h₂, rfl, rfl⟩
  · have hrx : (c.stateSet (.established t r true closeActive)).rx = c.rx := by
      rcases stateSet_rx c t r true closeActive with ⟨-, -, h, -⟩ | ⟨hidle, -⟩
      · exact h
      · cases hst' : (c.stateSet (.established t r true closeActive)).connectionState <;>
          simp_all [ConnectionState.idle, ConnectionState.synced]
    refine .inl ⟨hk₁.trans h₁, hk₂.trans h₂, hk₃.trans hrx, by rw [hk₄, h₃], ?_, ?_⟩
    · rw [hk₄, h₄, hst]
      cases t <;> rfl
    · rw [hk₄, h₅, hst]
      cases t <;> rfl
  · refine .inr ⟨by rw [hst]; rfl, c₀, ?_, h₂⟩
    rw [← h₁]
    unfold closing
    rw [hst]
    exact if_pos ⟨rfl, rfl⟩

theorem txEffect_callClose {r : Except Error Unit}
    (hc : c.callClose = .ok (c', r)) : TxEffect c .callClose (.call r) c' := by
  cases closeStep_of_ok hc with
  | refused => exact .same rfl (.refl c) rfl rfl
  | @cleared c₀ _ hsent =>
      exact .emptied rfl hsent
  | delayed => exact .same rfl (.of_eq rfl) rfl rfl
  | @early c₁ _ hs hempty hw hsend =>
      have a := sendAck_spec hsend
      exact txEffect_early (.inr rfl) hs hempty hw a (entered_tx c₁ _) (entered_rx c₁ _)
        (entered_sent c₁ _) (entered_connectionState c₁ _)
  | @opened rx cc ca c₁ _ hs hempty hw hsend =>
      have a := sendAck_spec hsend
      have hmarked : c.marked.connectionState = .established .opened rx cc ca := hs
      obtain ⟨hsync, hwrote, hclosed⟩ := a.openState hmarked
      have hest : c₁.connectionState.isEstablished = true :=
        sendAck_isEstablished (by rw [withQueue_connectionState, hs]; rfl) hsend
      rcases closing_tx c₁ (ca || decide (rx = .opened)) hest with
        ⟨htx, hsent, hrx, hsync', hwrote', hclosed'⟩ | ⟨hcl, -⟩
      · exact .marked (.inr rfl) (.inl (by rw [hs]; rfl)) (by rw [hs]; rfl) hempty hw rfl rfl
          (by rw [withQueue_connectionState, hs]; rfl) rfl (a.txSent.congr htx hrx hsent) hsync'
          (fun hf => (hwrote'.trans hwrote).trans hf)
          (fun hf => .inl ((hwrote'.trans hwrote).symm.trans hf))
          (fun hrec => by rw [hs] at hrec; cases hrec) (hclosed'.trans hclosed)
      · rw [hclosed] at hcl
        cases hcl
  | @ended tx rx cc ca _ hs ht =>
      rcases closing_tx c (ca || decide (rx = .opened)) (by rw [hs]; rfl) with
        ⟨htx, hsent, -, hsync, hwrote, hclosed⟩ | ⟨-, c₀, heq, hsent⟩
      · have hlog : (c.closing (ca || decide (rx = .opened))).userData.sent =
            c.userData.sent ++ [] := by
          rw [hsent, List.append_nil]
        exact .kept rfl (.of_eq htx)
          (.inr ⟨.inl (by rw [hs]; rfl), hsync, hwrote, hclosed⟩) hlog (List.forall_mem_nil _)
      · rw [heq]
        exact .emptied rfl hsent

theorem txEffect_callConnect {r : Except Error Unit} (hc : c.callConnect = .ok (c', r)) :
    TxEffect c .callConnect (.call r) c' := by
  cases connectStep_of_ok hc with
  | refused => exact .same rfl (.refl c) rfl rfl
  | connecting hs hsyn => exact .connecting hs rfl hsyn

omit [UserTime Time] in
theorem txEffect_callAbort {r : Except Error Unit} (hc : c.callAbort = .ok (c', r)) :
    TxEffect c .callAbort (.call r) c' := by
  cases abortStep_of_ok hc with
  | refused => exact .same rfl (.refl c) rfl rfl
  | @cleared c₀ hsent =>
      exact .emptied rfl hsent
  | @reset c₀ hsent =>
      exact .aborted rfl rfl closed_ne_listen rfl ((clear_sent c₀).trans hsent) rfl rfl

omit [UserTime Time] in
/-- A tick sends at most a segment that waits for its acknowledgement. -/
theorem Resends.new (h : Resends c c') :
    ∃ new, c'.userData.sent = c.userData.sent ++ new ∧ ∀ s ∈ new, s ∈ c.tx.reTx := by
  rcases h with h | ⟨seg, rest, hre, h⟩
  · exact ⟨[], by rw [h, List.append_nil], List.forall_mem_nil _⟩
  · refine ⟨[seg], h, fun s hmem => ?_⟩
    rw [List.mem_singleton.mp hmem, hre]
    exact List.mem_cons_self

theorem txEffect_onTimeTick {time : Time} (hc : c.onTimeTick time = .ok c') :
    TxEffect c (.onTimeTick time) .none c' := by
  cases tickStep_of_ok hc with
  | kept hstate htx hrx hdup hcw hw hsent =>
      obtain ⟨new, hlog, hnew⟩ := hsent.new
      exact .kept rfl (.of_eq htx) (.inl hstate) hlog
        fun s hs => .resend rfl (hnew s hs)
  | @cleared c₀ hsent =>
      obtain ⟨new, hlog, hnew⟩ := hsent.new
      exact .cleared rfl rfl closed_ne_listen rfl ((clear_sent c₀).trans hlog)
        fun s hs => .resend rfl (hnew s hs)

/-- The send side of one operation. -/
theorem WellFormed.txEffect (h : WellFormed c) {op : Op Time} {out : Output}
    (hc : c.step op = .ok (c', out)) : TxEffect c op out c' := by
  cases opStep_of_ok hc with
  | callConnect hc => exact txEffect_callConnect hc
  | callSend hc => exact txEffect_callSend hc
  | callRecv hc => exact txEffect_callRecv hc
  | callShutdown hc => exact txEffect_callShutdown h hc
  | callClose hc => exact txEffect_callClose hc
  | callAbort hc => exact txEffect_callAbort hc
  | setOptions => exact .same rfl (.of_eq rfl) rfl rfl
  | onSegment hc => exact h.txEffect_onSegment hc
  | onTimeTick hc => exact txEffect_onTimeTick hc

omit [UserTime Time] in
/-- The FIN marker stays until the connection is cleared for good. -/
theorem TxEffect.fin_kept {op : Op Time} {out : Output} (effect : TxEffect c op out c')
    (hwf : WellFormed c) (hop : op ≠ .callConnect)
    (hfin : c.tx.tx.fin = true) : c'.connectionState.gone = true ∨ c'.tx.tx.fin = true := by
  have hsync : c.connectionState.synced = true := by
    by_contra h
    rw [(hwf.early (by simpa using h)).1] at hfin
    cases hfin
  cases effect with
  | kept _ htx => exact .inr (by rw [htx.queue, hfin])
  | cleared _ hidle hlisten =>
      refine .inl (ConnectionState.gone_of_idle hidle fun hl => ?_)
      rw [(hlisten hl).1] at hsync
      cases hsync
  | connecting => exact absurd rfl hop
  | answered hst => rw [hst] at hsync; cases hsync
  | queued _ _ hq htx =>
      refine .inr ?_
      rw [htx]
      exact (BlobQueue.writeBytes_spec hq).2.1.trans hfin
  | appended hdata _ _ _ hq =>
      have := (BlobQueue.writeBytes_spec hq).2.2.resolve_left hdata
      rw [hfin] at this
      cases this
  | marked _ _ _ _ _ htx _ _ _ h =>
      refine .inr ?_
      rw [h.fin, htx]
      rfl
  | acked _ _ _ _ htx => exact .inr (by rw [htx]; exact hfin)
  | stored _ _ htx _ _ _ h => exact .inr (by rw [h.fin, htx]; exact hfin)
  | synAcked hst => rw [hst] at hsync; cases hsync
  | opened hst => rw [hst] at hsync; cases hsync

end Connection

end TcpState
