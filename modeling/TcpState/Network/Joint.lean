import TcpState.Network.Link

/-!
# The joint invariant of two endpoints

The client and the server keep to their roles, and each direction between them
is a channel or final. The server waits in Listen only before the client has
heard from it or after the client is gone, and the client refuses nothing the
server sends while both live.
-/

namespace TcpState

open Transfer (Piece Channel)

variable {Addr Time : Type}

namespace Net

/-- What the two roles never do. -/
structure Roles (n : Net Addr Time) : Prop where
  client : n.client.state ≠ .listen ∧ n.client.state ≠ .synReceived
  server : n.server.state ≠ .synSent
  /-- The client acknowledges nothing before it is open. -/
  connecting : n.client.state = .synSent → ∀ s ∈ n.client.log, s.hasAck = false
  aborted : ∀ s ∈ n.client.log, s.hasRst = true →
    n.client.state.gone = true ∨ n.server.state.gone = true
  /-- A RST of the server that acknowledges comes after its end. -/
  refused : n.server.state.gone = false → ∀ s ∈ n.server.log, s.hasRst = true →
    s.hasAck = false
  waiting : n.server.state = .listen → n.client.state.gone = true ∨
    n.client.state = .synSent ∧ n.server.log = [] ∧ n.server.written = []

/-- The invariant of the joint runs. -/
structure Joint (n : Net Addr Time) : Prop extends Roles n where
  wellFormed : ∀ x, Connection.WellFormed (n.get x).conn
  logged : ∀ x, ∀ s ∈ (n.get x).conn.tx.reTx, s ∈ (n.get x).log
  link : ∀ x, Link (n.get x) (n.get x.other)

/-- Each direction carries fewer than `2 ^ 31` bytes. -/
def Short (n : Net Addr Time) : Prop := ∀ x, (n.get x).carried < 2 ^ 31

end Net

variable {x y : Endpoint Addr Time} {isn : SeqN} {ch : Channel Symbol} {op : Op Time}
  {out : Output} {c' : Connection Addr Time}

/-- An endpoint with a peer hears only of what the peer has stored. -/
theorem Linked.told (h : Linked x y isn ch) (hyx : Link y x)
    (hsent : ∀ seg, op = .onSegment seg → seg ∈ y.log) (hidle : x.state.idle = false) :
    Sending.Told op isn ch where
  bare := fun seg heq => by
    cases hyx with
    | final hgone =>
        exact absurd (hgone.symm.trans (ConnectionState.not_gone_of_not_idle hidle)) (by decide)
    | live _ h' => exact h'.sending.wired.not_bareFin (hsent seg heq)
  acks := fun seg heq hrst hack =>
    (h.acks (ConnectionState.not_gone_of_not_idle hidle)).2 seg (hsent seg heq) hrst hack

/-- A sender that connects refuses no acknowledgement of its peer. -/
theorem Linked.inRange (h : Linked x y isn ch) (hwf : Connection.WellFormed x.conn)
    (hbound : x.carried < 2 ^ 31) (hst : x.state.opening = true) {seg : SegmentMeta}
    (hseg : seg ∈ y.log) (hrst : seg.hasRst = false) (hack : seg.hasAck = true) :
    seg.ackn.inRangeInclusive x.conn.tx.unack x.conn.tx.next = true := by
  have hidle := ConnectionState.not_idle_of_opening hst
  obtain ⟨n, hpos, hn, hackn⟩ :=
    (h.acks (ConnectionState.not_gone_of_not_idle hidle)).2 seg hseg hrst hack
  obtain ⟨hone, hzero⟩ := h.sending.length_of_opening hwf hbound hst
  have hr := (h.sending.buffered hidle).realises
  have hle := Nat.le_trans hn h.delivers.stored.length_le
  obtain rfl : n = 1 := by omega
  rw [SeqN.inRangeInclusive_iff, hackn, hr.unack, hr.next, hone, hzero]

namespace Net.Roles

variable {n : Net Addr Time}

/-- What the client puts on the wire in a step, apart from what it may repeat. -/
theorem client_puts (h : Roles n) (hlogged : ∀ s ∈ n.client.conn.tx.reTx, s ∈ n.client.log)
    (effect : Connection.TxEffect n.client.conn op out c') (hop : op ≠ .callConnect)
    {s : SegmentMeta} (hs : s ∈ c'.userData.sent) : s ∈ n.client.log ∨
      (c'.connectionState = .synSent → s.hasAck = false) ∧
      (s.hasRst = true → c'.connectionState.gone = true ∨ n.client.state = .synSent ∧
        ∃ seg, op = .onSegment seg ∧ seg.hasAck = true ∧
          seg.ackn.inRangeInclusive n.client.conn.tx.unack n.client.conn.tx.next = false) := by
  have hmoves := effect.moves hop
  rcases effect.puts hop hs with hs | hput
  · exact .inl hs
  cases hput with
  | remark hrem =>
      cases hrem with
      | resend _ hmem => exact .inl (hlogged s hmem)
      | ack hpeer hflags =>
          refine .inr ⟨fun hst => ?_, fun hrst => ?_⟩
          · have hst := hmoves.of_synSent hst
            rcases hpeer with hs | hs <;> rw [hst] at hs <;> cases hs
          · rw [SegmentMeta.hasRst, hflags] at hrst
            cases hrst
      | refusal heq _ _ hack hst =>
          refine .inr ⟨fun hst' => ?_, fun _ => ?_⟩
          · have hsyn := hmoves.of_synSent hst'
            cases hs : s.hasAck with
            | false => rfl
            | true => rcases hack hs with hst | hst <;> rw [hsyn] at hst <;> cases hst
          · rcases hst with hst | ⟨hseg, hst | ⟨hst, hrange⟩⟩
            · exact .inl (hmoves.gone (by rcases hst with hst | hst <;> rw [hst] <;> rfl))
            · exact absurd hst h.client.1
            · exact .inr ⟨hst, _, heq, hseg, hrange⟩
  | parting hidle hlisten =>
      refine .inr ⟨fun hst => ?_, fun _ => .inl ?_⟩
      · rw [hst] at hidle
        cases hidle
      · exact ConnectionState.gone_of_idle hidle fun hl => absurd (hlisten hl) h.client.2
  | built hpeer hrst =>
      refine .inr ⟨fun hst => ?_, fun hbad => absurd (hrst.symm.trans hbad) (by decide)⟩
      rcases hpeer with hs | hs <;> rw [hst] at hs <;> cases hs

/-- What the server puts on the wire in a step, apart from what it may repeat. -/
theorem server_puts (hlogged : ∀ s ∈ n.server.conn.tx.reTx, s ∈ n.server.log)
    (effect : Connection.TxEffect n.server.conn op out c') (hop : op ≠ .callConnect)
    {s : SegmentMeta} (hs : s ∈ c'.userData.sent) : s ∈ n.server.log ∨
      (c'.connectionState.gone = false → s.hasRst = true → s.hasAck = false) ∧
      (n.server.state = .listen → c'.connectionState = .listen →
        ∃ seg, op = .onSegment seg ∧ seg.hasAck = true) := by
  have hmoves := effect.moves hop
  rcases effect.puts hop hs with hs | hput
  · exact .inl hs
  cases hput with
  | remark hrem =>
      cases hrem with
      | resend _ hmem => exact .inl (hlogged s hmem)
      | ack hpeer hflags =>
          refine .inr ⟨fun _ hrst => ?_, fun hst => ?_⟩
          · rw [SegmentMeta.hasRst, hflags] at hrst
            cases hrst
          · rcases hpeer with hs | hs <;> rw [← Endpoint.state, hst] at hs <;> cases hs
      | refusal heq _ _ hack hst =>
          refine .inr ⟨fun hlive _ => ?_, fun hl _ => ?_⟩
          · cases hs : s.hasAck with
            | false => rfl
            | true =>
                have hgone : n.server.conn.connectionState.gone = true := by
                  rcases hack hs with hst | hst <;> rw [hst] <;> rfl
                exact absurd ((hmoves.gone hgone).symm.trans hlive) (by decide)
          · rcases hst with (hst | hst) | ⟨hseg, -⟩
            · rw [Endpoint.state, hst] at hl
              cases hl
            · rw [Endpoint.state, hst] at hl
              cases hl
            · exact ⟨_, heq, hseg⟩
  | parting _ hlisten hpart =>
      cases hpart with
      | resend _ hmem => exact .inl (hlogged s hmem)
      | abort _ _ hack =>
          refine .inr ⟨fun _ _ => hack, fun hl hl' => ?_⟩
          rw [Endpoint.state, hlisten hl'] at hl
          cases hl
      | stray hflags =>
          refine .inr ⟨fun _ hrst => ?_, fun hl hl' => ?_⟩
          · rw [SegmentMeta.hasRst, hflags] at hrst
            cases hrst
          · rw [Endpoint.state, hlisten hl'] at hl
            cases hl
  | built hpeer hrst =>
      refine .inr ⟨fun _ hbad => absurd (hrst.symm.trans hbad) (by decide), fun _ hl' => ?_⟩
      rcases hpeer with hs | hs <;> rw [hl'] at hs <;> cases hs

end Net.Roles

namespace Net.Joint

variable {n : Net Addr Time}

/-- The server falls back to Listen only after the client is gone. -/
theorem client_gone (h : Joint n) (hst : n.server.state = .synReceived) {seg : SegmentMeta}
    (hseg : seg ∈ n.client.log) (hrst : seg.hasRst = true) : n.client.state.gone = true :=
  (h.aborted seg hseg hrst).resolve_right fun hgone => by
    rw [hst] at hgone
    cases hgone

theorem roles_client (h : Joint n) (hshort : n.Short)
    (effect : Connection.TxEffect n.client.conn op out c') (hop : op ≠ .callConnect)
    (hsent : ∀ seg, op = .onSegment seg → seg ∈ n.server.log) :
    Roles (n.set .client (n.client.after op c' out)) where
  client := by
    have hmoves := effect.moves hop
    refine ⟨fun hst => ?_, fun hst => ?_⟩
    · rcases hmoves.of_listen hst with hst | ⟨hst, -⟩
      · exact h.client.1 hst
      · exact h.client.2 hst
    · rcases hmoves.of_synReceived hst with hst | hst
      · exact h.client.2 hst
      · exact h.client.1 hst
  server := h.server
  connecting := fun hst s hs => by
    rcases h.client_puts (h.logged .client) effect hop hs with hs | ⟨hack, -⟩
    · exact h.connecting ((effect.moves hop).of_synSent hst) s hs
    · exact hack hst
  aborted := fun s hs hrst => by
    rcases h.client_puts (h.logged .client) effect hop hs with hs | ⟨-, hnew⟩
    · exact (h.aborted s hs hrst).imp_left (effect.moves hop).gone
    rcases hnew hrst with hgone | ⟨hst, seg, heq, hack, hrange⟩
    · exact .inl hgone
    -- A live server acknowledges the SYN of the client and nothing else.
    refine .inr ?_
    by_contra hlive
    have hlive : n.server.state.gone = false := Bool.eq_false_iff.mpr hlive
    have hseg := hsent seg heq
    cases hseg' : seg.hasRst with
    | true =>
        rw [h.refused hlive seg hseg hseg'] at hack
        cases hack
    | false =>
        cases h.link .client with
        | final hgone => exact absurd (hgone.symm.trans hlive) (by decide)
        | live _ hl =>
            have := hl.inRange (h.wellFormed .client) (hshort .client)
              (by rw [show (n.get .client).state = .synSent from hst]; rfl) hseg hseg' hack
            exact absurd (this.symm.trans hrange) (by decide)
  refused := h.refused
  waiting := fun hst => by
    refine (h.waiting hst).elim (fun hgone => .inl ((effect.moves hop).gone hgone)) ?_
    rintro ⟨hsyn, hlog, hwritten⟩
    cases effect.moves hop with
    | same heq => exact .inr ⟨heq.trans hsyn, hlog, hwritten⟩
    | opened hs =>
        rcases hs with (hs | hs) | ⟨-, seg, heq⟩
        · rw [show n.client.conn.connectionState = .synSent from hsyn] at hs
          cases hs
        · rw [show n.client.conn.connectionState = .synSent from hsyn] at hs
          cases hs
        · have := hsent seg heq
          rw [hlog] at this
          cases this
    | cleared hidle hlisten =>
        exact .inl (ConnectionState.gone_of_idle hidle fun hl => h.client.2 (hlisten hl).1)
    | answered _ hl => exact absurd hl h.client.1

theorem roles_server (h : Joint n) (effect : Connection.TxEffect n.server.conn op out c')
    (hop : op ≠ .callConnect) (hsent : ∀ seg, op = .onSegment seg → seg ∈ n.client.log) :
    Roles (n.set .server (n.server.after op c' out)) where
  client := h.client
  server := fun hst => h.server ((effect.moves hop).of_synSent hst)
  connecting := h.connecting
  aborted := fun s hs hrst => (h.aborted s hs hrst).imp_right (effect.moves hop).gone
  refused := fun hlive s hs hrst => by
    rcases Roles.server_puts (h.logged .server) effect hop hs with hs | ⟨hack, -⟩
    · refine h.refused ?_ s hs hrst
      by_contra hgone
      have hgone' : c'.connectionState.gone = true :=
        (effect.moves hop).gone (by simpa using hgone)
      exact absurd (hgone'.symm.trans hlive) (by decide)
    · exact hack hlive hrst
  waiting := fun hst => by
    have hst' : c'.connectionState = .listen := hst
    rcases (effect.moves hop).of_listen hst' with hl | ⟨hrec, seg, heq, hrst⟩
    · refine (h.waiting hl).imp_right ?_
      rintro ⟨hsyn, hlog, hwritten⟩
      refine ⟨hsyn, List.eq_nil_iff_forall_not_mem.mpr fun s hs => ?_, ?_⟩
      · rcases Roles.server_puts (h.logged .server) effect hop hs with hs | ⟨-, hnew⟩
        · rw [hlog] at hs
          cases hs
        · obtain ⟨seg, heq, hack⟩ := hnew hl hst'
          rw [h.connecting hsyn seg (hsent seg heq)] at hack
          cases hack
      · change n.server.written ++ out.accepted op = []
        rw [hwritten, effect.accepted_eq_nil (.inl (by rw [hl]; rfl))]
        rfl
    · exact .inl (h.client_gone hrec (hsent seg heq) hrst)

/-- A direction when its sender takes a step. -/
theorem link_send (hlink : Link x y) (hyx : Link y x) (hwf : Connection.WellFormed x.conn)
    (hlogged : ∀ s ∈ x.conn.tx.reTx, s ∈ x.log) (hbound : x.carried < 2 ^ 31)
    (hsent : ∀ seg, op = .onSegment seg → seg ∈ y.log)
    (effect : Connection.TxEffect x.conn op out c') (hop : op ≠ .callConnect)
    (hrelisten : y.state.gone = false → c'.connectionState = .listen → x.state ≠ .synReceived)
    (hanswer : y.state.gone = false → x.state = .listen → y.state = .synSent ∧
      (∀ s ∈ y.log, s.hasAck = false) ∧ x.log = [] ∧ x.written = []) :
    Link (x.after op c' out) y := by
  cases hlink with
  | final hgone h => exact .final hgone (h.send hwf effect hop)
  | live hlive h =>
      by_cases hst : x.state = .listen ∧ c'.connectionState = .synReceived
      · obtain ⟨hsyn, hack, hlog, hwritten⟩ := hanswer hlive hst.1
        cases effect with
        | answered _ _ _ hc =>
            exact .live hlive (Linked.answer h.receiving hwf hsyn hack hlog hwritten hst.1 hc)
        | kept _ _ hstate =>
            rcases hstate with heq | ⟨-, hsync, -⟩
            · rw [Endpoint.state, ← heq, hst.2] at hst
              cases hst.1
            · rw [hst.2] at hsync
              cases hsync
        | cleared _ hidle => rw [hst.2] at hidle; cases hidle
        | connecting => exact absurd rfl hop
        | queued _ _ _ _ hstate =>
            rw [Endpoint.state, ← hstate, hst.2] at hst
            cases hst.1
        | appended _ _ _ _ _ _ _ hstate =>
            rw [Endpoint.state, ← hstate, hst.2] at hst
            cases hst.1
        | marked _ _ _ _ _ _ _ _ _ _ hsync => rw [hst.2] at hsync; cases hsync
        | acked _ _ _ _ _ hstate =>
            have := hstate.synced
            rw [hst.2] at this
            cases this
        | stored _ _ _ _ _ _ _ hstate =>
            have := hstate.synced
            rw [hst.2] at this
            cases this
        | synAcked hconn => rw [Endpoint.state, hconn] at hst; cases hst.1
        | opened hconn => rw [Endpoint.state, hconn] at hst; cases hst.1
      · obtain ⟨ch', h'⟩ := h.send hwf hlogged hbound (h.told hyx hsent) effect hop
          (fun hl hr => hst ⟨hl, hr⟩) (hrelisten hlive)
        exact .live hlive h'

/-- A direction when its receiver takes a step. -/
theorem link_receive (hlink : Link x y) (hwfx : Connection.WellFormed x.conn)
    (hwf : Connection.WellFormed y.conn) (hlogged : ∀ s ∈ y.conn.tx.reTx, s ∈ y.log)
    (hbound : x.carried < 2 ^ 31) (hsent : ∀ seg, op = .onSegment seg → seg ∈ x.log)
    (hrx : Connection.RxEffect y.conn op out c') (htx : Connection.TxEffect y.conn op out c')
    (hop : op ≠ .callConnect)
    (hrelisten : c'.connectionState = .listen → y.state = .synReceived →
      x.state.gone = true ∧ ∀ data, out ≠ .recv (.ok data)) :
    Link x (y.after op c' out) := by
  cases hlink with
  | final hgone h => exact .final ((htx.moves hop).gone hgone) (h.receive hgone hrx)
  | live hlive h =>
      by_cases hst : c'.connectionState = .listen ∧ y.state = .synReceived
      · obtain ⟨hgone, hout⟩ := hrelisten hst.1 hst.2
        exact h.relisten hgone hst.2 hst.1 hout
      · exact h.receive hwfx hwf hlogged hbound hsent hrx htx hop fun hl hr => hst ⟨hl, hr⟩

variable [UserTime Time]

theorem step_client (h : Joint n) (hshort : n.Short) (hop : op ≠ .callConnect)
    (hsent : ∀ seg, op = .onSegment seg → seg ∈ n.server.log)
    (hc : n.client.conn.step op = .ok (c', out)) :
    Joint (n.set .client (n.client.after op c' out)) := by
  have htx := (h.wellFormed .client).txEffect hc
  have hrx := (h.wellFormed .client).rxEffect hc
  refine ⟨h.roles_client hshort htx hop hsent, ?_, ?_, ?_⟩
  · rintro (_ | _)
    · exact (h.wellFormed .client).step hc
    · exact h.wellFormed .server
  · rintro (_ | _)
    · exact htx.reTx_logged hop (h.logged .client)
    · exact h.logged .server
  · rintro (_ | _)
    · refine link_send (h.link .client) (h.link .server) (h.wellFormed .client)
        (h.logged .client) (hshort .client) hsent htx hop (fun _ hl => ?_) (fun _ hl => ?_)
      · exact fun hrec => h.client.2 hrec
      · exact absurd hl h.client.1
    · refine link_receive (h.link .server) (h.wellFormed .server) (h.wellFormed .client)
        (h.logged .client) (hshort .server) hsent hrx htx hop fun _ hrec => ?_
      exact absurd hrec h.client.2

theorem step_server (h : Joint n) (hshort : n.Short) (hop : op ≠ .callConnect)
    (hsent : ∀ seg, op = .onSegment seg → seg ∈ n.client.log)
    (hc : n.server.conn.step op = .ok (c', out)) :
    Joint (n.set .server (n.server.after op c' out)) := by
  have htx := (h.wellFormed .server).txEffect hc
  have hrx := (h.wellFormed .server).rxEffect hc
  have hrelisten (hl : c'.connectionState = .listen) (hrec : n.server.state = .synReceived) :
      n.client.state.gone = true ∧ ∀ data, out ≠ .recv (.ok data) := by
    rcases (htx.moves hop).of_listen hl with hst | ⟨-, seg, rfl, hrst⟩
    · exact absurd (hst.symm.trans hrec) (by decide)
    · refine ⟨h.client_gone hrec (hsent seg rfl) hrst, ?_⟩
      rw [(Connection.step_onSegment.mp hc).2]
      exact nofun
  refine ⟨h.roles_server htx hop hsent, ?_, ?_, ?_⟩
  · rintro (_ | _)
    · exact h.wellFormed .client
    · exact (h.wellFormed .server).step hc
  · rintro (_ | _)
    · exact h.logged .client
    · exact htx.reTx_logged hop (h.logged .server)
  · rintro (_ | _)
    · exact link_receive (h.link .client) (h.wellFormed .client) (h.wellFormed .server)
        (h.logged .server) (hshort .client) hsent hrx htx hop hrelisten
    · refine link_send (h.link .server) (h.link .client) (h.wellFormed .server)
        (h.logged .server) (hshort .server) hsent htx hop (fun hlive hl hrec => ?_)
        (fun hlive hl => ?_)
      · exact absurd ((hrelisten hl hrec).1.symm.trans hlive) (by decide)
      · obtain ⟨hsyn, hlog, hwritten⟩ := (h.waiting hl).resolve_left fun hgone =>
          absurd (hgone.symm.trans hlive) (by decide)
        exact ⟨hsyn, h.connecting hsyn, hlog, hwritten⟩

/-- A connection after its first `call_connect`. -/
theorem client_start {c₀ c : Connection Addr Time} {r : Except Error Unit}
    (hwf : Connection.WellFormed c₀) (hclosed : c₀.connectionState = .closed)
    (hsent : c₀.userData.sent = []) (hc : c₀.callConnect = .ok (c, r)) :
    ∃ s : SegmentMeta, s.flags = .syn ∧ s.data = [] ∧
      c.connectionState = .synSent ∧ c.userData.sent = [s] ∧ c.tx.reTx = [s] ∧
      Sending (.start c) s.seqn (Channel.empty.emit [.syn]) := by
  cases Connection.connectStep_of_ok hc with
  | refused hs => exact absurd hclosed hs.1
  | connecting _ ha =>
      have hlog := ha.sent
      have htx := ha.tx
      rw [hsent, List.nil_append] at hlog
      rw [(hwf.idle (by rw [hclosed]; rfl)).1] at htx
      have hsize : c₀.synSegment.seqSize = 1#32 := seqSize_of_syn (.inl rfl) rfl
      have hopening : (Endpoint.start c).state.opening = true := by
        change c.connectionState.opening = true
        rw [ha.state]
        rfl
      refine ⟨_, rfl, rfl, ha.state, hlog, ?_, ?_⟩
      · simp [htx, TxBuffer.init, TxBuffer.default, hsize]
      · refine Sending.opening hlog (.inl rfl) rfl hopening rfl ?_ ?_ ?_ ?_ ?_
        all_goals
          simp only [Endpoint.start, htx]
          simp [TxBuffer.init, TxBuffer.default, hsize]
        all_goals rfl

theorem of_initial (h : Initial n) : Joint n := by
  obtain ⟨⟨remote, options, userData, c, r, hsent, hc, hclient⟩,
    ⟨addr, options', userData', hsent', hserver⟩⟩ := h
  have hnew : Connection.WellFormed { Connection.new remote userData with options := options } :=
    (Connection.Initial.wellFormed (.inl ⟨remote, userData, rfl⟩)).congr rfl rfl rfl rfl rfl
      (Connection.dataWaiters_congr rfl)
  have hwf := hnew.callConnect hc
  obtain ⟨s, hflags, hdata, hst, hlog, hre, hsending⟩ := client_start hnew rfl hsent hc
  have hst' : n.client.state = .synSent := by
    rw [hclient]
    exact hst
  have hlog' : n.client.log = [s] := by
    rw [hclient]
    exact hlog
  have hnoAck : ∀ g ∈ n.client.log, g.hasAck = false := by
    intro g hg
    rw [hlog', List.mem_singleton] at hg
    rw [hg, SegmentMeta.hasAck, hflags]
    decide
  have hempty : n.server.log = [] := by
    rw [hserver]
    exact hsent'
  refine ⟨⟨?_, ?_, fun _ => hnoAck, ?_, ?_, ?_⟩, ?_, ?_, ?_⟩
  · rw [hst']
    exact ⟨by decide, by decide⟩
  · rw [hserver]
    exact fun h => by cases h
  · intro g hg hrst
    rw [hlog', List.mem_singleton] at hg
    rw [hg, SegmentMeta.hasRst, hflags] at hrst
    cases hrst
  · rw [hempty]
    exact fun _ => List.forall_mem_nil _
  · exact fun _ => .inr ⟨hst', hempty, by rw [hserver]; rfl⟩
  · rintro (_ | _)
    · rw [Net.get, hclient]
      exact hwf
    · rw [Net.get, hserver]
      exact (Connection.initial_listening addr options' userData').wellFormed
  · rintro (_ | _)
    · intro g hg
      have hmem : g ∈ c.tx.reTx := by
        rw [Net.get, hclient] at hg
        exact hg
      rw [hre] at hmem
      rw [Net.get, hlog']
      exact hmem
    · rw [Net.get, hserver]
      exact List.forall_mem_nil _
  · rintro (_ | _)
    · have hlive : n.server.state.gone = false := by
        rw [hserver]
        rfl
      change Link n.client n.server
      refine @Link.live _ _ _ _ hlive s.seqn (Channel.empty.emit [.syn])
        ⟨Channel.delivers_empty.emit _, ?_, .connecting (.inr ?_) ?_ ?_ ?_,
          fun _ => ⟨Channel.acknowledges_empty.emit Channel.delivers_empty _, ?_⟩⟩
      · rw [hclient]
        exact hsending
      · rw [hserver]
        rfl
      · rw [hserver]
        rfl
      · rw [hserver]
        rfl
      · exact Channel.emit_stored _ _
      · rw [hempty]
        exact List.forall_mem_nil _
    · have hlive : n.client.state.gone = false := by
        rw [hst']
        rfl
      change Link n.server n.client
      have hidle : n.server.state.idle = true := by
        rw [hserver]
        rfl
      refine .live hlive (@Linked.unopened _ _ _ _ .zero hidle hempty ?_ ?_ hst' hnoAck)
      · rw [hclient]
        rfl
      · rw [hclient]
        rfl

/-- The bytes a direction has carried never shrink. -/
theorem carried_mono {i : Side × Op Time} {n' : Net Addr Time}
    (hs : (system Addr Time).step n i n') (x : Side) :
    (n.get x).carried ≤ (n'.get x).carried := by
  obtain ⟨-, c', out, -, rfl⟩ := hs
  cases hi : i.1 <;> cases x <;>
    first | exact Nat.le_refl _ | exact Sending.carried_le _ _ _ _

theorem step {i : Side × Op Time} {n' : Net Addr Time} (h : Joint n) (hshort : n.Short)
    (hs : (system Addr Time).step n i n') : Joint n' := by
  obtain ⟨hperm, c', out, hc, rfl⟩ := hs
  obtain ⟨x, op⟩ := i
  have hop : op ≠ .callConnect := by
    rintro rfl
    exact hperm
  have hsent (seg : SegmentMeta) (heq : op = .onSegment seg) : seg ∈ (n.get x.other).log := by
    rw [heq] at hperm
    exact hperm
  cases x with
  | client => exact h.step_client hshort hop hsent hc
  | server => exact h.step_server hshort hop hsent hc

/-- The invariant of every joint run that is short in both directions. -/
theorem of_reachable (run : Reachable n) (hshort : n.Short) : Joint n := by
  refine Transition.Reachable.invariant (P := fun n => n.Short → Joint n)
    (fun _ h _ => of_initial h) (fun n i n' ih hs hshort => ?_) run hshort
  have hbefore : n.Short := fun x => Nat.lt_of_le_of_lt (carried_mono hs x) (hshort x)
  exact (ih hbefore).step hbefore hs

end Net.Joint

end TcpState
