import TcpState.Network.Joint

/-!
# Integrity of the two streams

What one application reads is what the other wrote, and no byte is given up
before the peer has it.
-/

namespace TcpState

open Transfer (Piece Channel)

namespace Net

variable {Addr Time : Type} [UserTime Time] {n : Net Addr Time}

/-- The two endpoints once the client has called `call_connect`. -/
def beginning (remote addr : Addr) (options options' : SocketOptions)
    (userData userData' : UserData Addr Time) : Option (Net Addr Time) :=
  match { Connection.new remote userData with options := options }.callConnect with
  | .ok (c, _) => some ⟨.start c, .start (Connection.listening addr options' userData')⟩
  | .error _ => none

theorem initial_of_beginning {remote addr : Addr} {options options' : SocketOptions}
    {userData userData' : UserData Addr Time}
    (h : beginning remote addr options options' userData userData' = some n)
    (hsent : userData.sent = []) (hsent' : userData'.sent = []) : Initial n := by
  unfold beginning at h
  split at h
  · rename_i c r hc
    obtain rfl := Option.some.inj h
    exact ⟨⟨remote, options, userData, c, r, hsent, hc, rfl⟩,
      ⟨addr, options', userData', hsent', rfl⟩⟩
  · cases h

/-- Two endpoints whose initial sequence numbers and clocks are zero. -/
def zeroStart : Net Unit Nat :=
  (beginning () () .default .default Connection.zeroUser Connection.zeroUser).get
    (by decide)

theorem initial_zeroStart : Initial zeroStart :=
  initial_of_beginning (Option.some_get _).symm rfl rfl

/-- Where `call_accept` answers the SYN of the client, it is a step of a joint run. -/
theorem reachable_of_callAccept {l l' : ListenSocket Addr Time}
    {mk : ListenSocket Addr Time → UserData Addr Time} {addr : Addr}
    {c : Connection Addr Time} (hmk : ∀ l, (mk l).sent = [])
    (h : l.callAccept mk = .ok (l', .ok (addr, c)))
    (hclient : ∃ (remote : Addr) (options : SocketOptions) (userData : UserData Addr Time)
      (c : Connection Addr Time) (r : Except Error Unit), userData.sent = [] ∧
        { Connection.new remote userData with options := options }.callConnect = .ok (c, r) ∧
        n.client = .start c)
    (hqueue : ∀ p ∈ l.queue, p.2 ∈ n.client.log) :
    ∃ n', Reachable n' ∧ n'.client = n.client ∧ n'.server.conn = c ∧ n'.server.written = [] ∧
      n'.server.read = [] := by
  obtain ⟨seg, l₁, hseg, hstep⟩ := Connection.callAccept_delivers h
  let start : Net Addr Time :=
    ⟨n.client, .start (Connection.listening addr l.options (mk l₁))⟩
  have hinit : Initial start := ⟨hclient, ⟨addr, l.options, mk l₁, hmk l₁, rfl⟩⟩
  have hnext : (system Addr Time).step start (.server, .onSegment seg)
      (start.set .server (start.server.after (.onSegment seg) c .none)) :=
    ⟨hqueue _ hseg, c, .none, hstep, rfl⟩
  exact ⟨_, (Transition.Reachable.init hinit).step hnext, rfl, rfl, rfl, rfl⟩

/-- What one side reads is a prefix of what the other side wrote, and all of it
after a short read. -/
theorem read_isPrefix (run : Reachable n) (hshort : n.Short) (x : Side) :
    (n.get x.other).read <+: (n.get x).written ∧
      ((n.get x.other).ended = true → (n.get x.other).read = (n.get x).written) := by
  have h := Joint.of_reachable run hshort
  have hfinal : Finished (n.get x) (n.get x.other) := by
    cases h.link x with
    | final _ h => exact h
    | live _ hl => exact .of_received hl.delivers hl.sending (h.wellFormed x) hl.receiving.received
  exact ⟨hfinal.read, fun hend => (hfinal.ended hend).1⟩

/-- Three bytes and the end of the stream. -/
theorem read_isPrefix_three : ∃ n : Net Unit Nat, n.server.ended = true ∧
    n.client.written = [1, 2, 3] ∧ n.server.read = n.client.written := by
  obtain ⟨n, run, hclient, hserver, hended, hwritten⟩ : ∃ n : Net Unit Nat, Reachable n ∧
      n.client.carried < 2 ^ 31 ∧ n.server.carried < 2 ^ 31 ∧ n.server.ended = true ∧
        n.client.written = [1, 2, 3] :=
    Transition.exists_reachableUnder step_of_next initial_zeroStart
      [(.server, .onSegment ⟨0#32, 0#32, 4096#16, .syn, []⟩),
       (.client, .onSegment ⟨0#32, 1#32, 4096#16, .syn ||| .ack, []⟩),
       (.server, .onSegment ⟨1#32, 1#32, 4096#16, .ack, []⟩),
       (.client, .callSend [1, 2, 3]),
       (.server, .onSegment ⟨1#32, 1#32, 4096#16, .ack, [1, 2, 3]⟩),
       (.server, .callRecv 2),
       (.client, .onSegment ⟨1#32, 4#32, 4093#16, .ack, []⟩),
       (.client, .callShutdown),
       (.server, .onSegment ⟨4#32, 1#32, 4096#16, .fin ||| .ack, []⟩),
       (.server, .callRecv 2)] (by decide)
  have hshort : n.Short := by
    rintro (_ | _)
    · exact hclient
    · exact hserver
  exact ⟨n, hended, hwritten, (read_isPrefix run hshort .client).2 hended⟩

/-- The sequence numbers of one direction as offsets from the sender's first
one: acknowledged, stored and sent. -/
structure Offsets (x y : Endpoint Addr Time) (u d k : Nat) : Prop where
  unack : x.conn.tx.unack = x.conn.tx.initSeqn + BitVec.ofNat 32 u
  ackd : y.conn.rx.ackd = x.conn.tx.initSeqn + BitVec.ofNat 32 d
  next : x.conn.tx.next = x.conn.tx.initSeqn + BitVec.ofNat 32 k
  /-- A SYN, the bytes and a FIN. -/
  size : k ≤ x.carried + 2

/-- A segment that was sent is still queued for retransmission, or its bytes
have been appended to the peer's receive buffer at their offset. -/
def KeptOrStored (x y : Endpoint Addr Time) (s : SegmentMeta) : Prop :=
  (∃ g ∈ x.conn.tx.reTx, g.seqn = s.seqn ∧ g.data = s.data) ∨
    s.data <+: (y.read ++ y.conn.rx.bytes).drop (Circular.span x.conn.tx.initSeqn s.seqn - 1)

omit [UserTime Time] in
theorem keptOrStored_of_linked {x y : Endpoint Addr Time} {isn : SeqN} {ch : Channel Symbol}
    (h : Linked x y isn ch) (hx : x.conn.Peered) (hy : y.conn.Peered)
    (hlen : ch.sent.length ≤ TxBuffer.maxLength) {s : SegmentMeta} (hs : s ∈ x.log)
    (hrst : s.hasRst = false) (hdata : s.data ≠ []) : KeptOrStored x y s := by
  have hidle : x.state.idle = false := hx.not_idle
  have hr := (h.sending.buffered hidle).realises
  have hh := h.receiving.holds hy
  have hack := (h.acks (ConnectionState.not_gone_of_not_idle hidle)).1
  have hw := h.sending.wired.segments s hs hrst
  have hsyn : s.hasSyn = false := by
    by_contra hsyn
    exact hdata (hw.retransmittable.bare (by simpa using hsyn)).1
  have hsym : s.symbols ≠ [] := fun hnil => hdata (by rw [← s.bytes_symbols, hnil]; rfl)
  obtain ⟨p, hp, hcopy⟩ := hw.copies hsym
  rcases hack.within_stored h.delivers hp with hpend | ⟨hstart, hbody⟩
  · obtain ⟨g, hg, hcopy'⟩ := forall₂_exists_left hr.reTx hpend
    refine .inl ⟨g, hg, hcopy'.seqn.trans hcopy.seqn.symm, ?_⟩
    rw [← g.bytes_symbols, ← hcopy'.body, hcopy.body, s.bytes_symbols]
  · have hle := h.delivers.stored.length_le
    rw [TxBuffer.maxLength] at hlen
    -- The stream begins with the SYN, which the segment does not carry.
    have hpos : 0 < p.start := by
      by_contra hzero
      have hprefix := (h.delivers.wire p hp).2
      rw [Nat.eq_zero_of_not_pos hzero, List.drop_zero, hcopy.body] at hprefix
      have := (h.sending.wired.framed.of_isPrefix hprefix).syn_mem hsym
      rw [SegmentMeta.syn_mem_symbols, hsyn] at this
      cases this
    refine .inr ?_
    rw [hh.bytes, hr.initSeqn, hcopy.seqn, Circular.span_add_ofNat isn (by omega),
      ← (h.sending.wired.framed.of_isPrefix h.delivers.stored).bytes_drop,
      Nat.sub_add_cancel hpos, ← s.bytes_symbols, ← hcopy.body]
    exact Symbol.bytes_isPrefix hbody

/-- With both sides past the handshake, no more is acknowledged than stored and
no more is stored than sent, and no byte is given up before the peer has it. -/
theorem acked_le_stored (run : Reachable n) (hshort : n.Short) (x : Side)
    (hx : (n.get x).conn.Peered) (hy : (n.get x.other).conn.Peered) :
    (∃ u d k, Offsets (n.get x) (n.get x.other) u d k ∧ u ≤ d ∧ d ≤ k) ∧
      (∀ s ∈ (n.get x).conn.tx.reTx, s ∈ (n.get x).log ∧ s.hasRst = false) ∧
      ∀ s ∈ (n.get x).log, s.hasRst = false → s.data ≠ [] →
        KeptOrStored (n.get x) (n.get x.other) s := by
  have h := Joint.of_reachable run hshort
  have hidle : (n.get x).state.idle = false := hx.not_idle
  cases h.link x with
  | final hgone =>
      have hlive := ConnectionState.not_gone_of_not_idle hy.not_idle
      exact absurd (hgone.symm.trans hlive) (by decide)
  | @live _ isn ch hl =>
      have hr := (hl.sending.buffered hidle).realises
      have hh := hl.receiving.holds hy
      have hlen := hl.sending.wired.length_le (hshort x)
      obtain ⟨hack, -⟩ := hl.acks (ConnectionState.not_gone_of_not_idle hidle)
      refine ⟨⟨ch.acked, ch.stored.length, ch.sent.length, ⟨?_, ?_, ?_, ?_⟩, hack.acked,
        hl.delivers.stored.length_le⟩, fun s hs => ⟨h.logged x s hs,
          ((h.wellFormed x).reTx s hs).noRst⟩, fun s hs hrst hdata => ?_⟩
      · rw [hr.unack, hr.initSeqn]
      · rw [hh.ackd, hr.initSeqn]
      · rw [hr.next, hr.initSeqn]
      · have := hl.sending.wired.size
        split at this <;> omega
      · exact keptOrStored_of_linked hl hx hy hlen hs hrst hdata

/-- After the first bytes have been acknowledged they are kept no longer. -/
theorem acked_le_stored_three : ∃ n : Net Unit Nat, n.client.conn.tx.reTx = [] ∧
    KeptOrStored n.client n.server ⟨1#32, 1#32, 4096#16, .ack, [1, 2, 3]⟩ := by
  obtain ⟨n, run, ⟨hclient, hserver⟩, ⟨hx, hy⟩, hre, hmem⟩ : ∃ n : Net Unit Nat, Reachable n ∧
      (n.client.carried < 2 ^ 31 ∧ n.server.carried < 2 ^ 31) ∧
      (n.client.state.synced = true ∧ n.server.state.synced = true) ∧
      n.client.conn.tx.reTx = [] ∧
      (⟨1#32, 1#32, 4096#16, .ack, [1, 2, 3]⟩ : SegmentMeta) ∈ n.client.log :=
    Transition.exists_reachableUnder step_of_next initial_zeroStart
      [(.server, .onSegment ⟨0#32, 0#32, 4096#16, .syn, []⟩),
       (.client, .onSegment ⟨0#32, 1#32, 4096#16, .syn ||| .ack, []⟩),
       (.server, .onSegment ⟨1#32, 1#32, 4096#16, .ack, []⟩),
       (.client, .callSend [1, 2, 3]),
       (.server, .onSegment ⟨1#32, 1#32, 4096#16, .ack, [1, 2, 3]⟩),
       (.client, .onSegment ⟨1#32, 4#32, 4093#16, .ack, []⟩)] (by decide)
  have hshort : n.Short := by
    rintro (_ | _)
    · exact hclient
    · exact hserver
  exact ⟨n, hre, (acked_le_stored run hshort .client (.inl hx) (.inl hy)).2.2 _ hmem (by decide)
    (by decide)⟩

end Net

end TcpState
