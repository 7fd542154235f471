import TcpState.Foundation.Progress
import TcpState.Network.Opening
import TcpState.Network.ResetCause

/-!
# The handshake can always be finished

Neither endpoint has left the handshake but by opening. Whatever has been lost,
repeated and reordered so far, deliveries alone open both.
-/

namespace TcpState

open Transfer (Channel)

variable {Addr Time : Type} {x y : Endpoint Addr Time} {isn : SeqN} {ch : Channel Symbol}

/-- The only number that acknowledges a sender that connects is the next one. -/
theorem Linked.ackn_opening (h : Linked x y isn ch) (hwf : Connection.WellFormed x.conn)
    (hbound : x.carried < 2 ^ 31) (hst : x.state.opening = true) {seg : SegmentMeta}
    (hseg : seg ∈ y.log) (hrst : seg.hasRst = false) (hack : seg.hasAck = true) :
    seg.ackn = x.conn.tx.initSeqn + 1#32 := by
  have hidle := ConnectionState.not_idle_of_opening hst
  obtain ⟨k, hpos, hk, hackn⟩ :=
    (h.acks (ConnectionState.not_gone_of_not_idle hidle)).2 seg hseg hrst hack
  have hone := (h.sending.length_of_opening hwf hbound hst).1
  have hle := Nat.le_trans hk h.delivers.stored.length_le
  obtain rfl : k = 1 := by omega
  rw [hackn, (h.sending.buffered hidle).realises.initSeqn]

namespace Net

variable [UserTime Time] {n n' : Net Addr Time}

/-- The SYN of each side stays on the wire, and the server acknowledges with its own. -/
structure Greeted (n : Net Addr Time) : Prop where
  client : ∃ s ∈ n.client.log, s.hasSyn = true ∧ s.hasRst = false
  server : n.server.conn.Peered →
    ∃ s ∈ n.server.log, s.hasSyn = true ∧ s.hasRst = false ∧ s.hasAck = true

theorem Greeted.of_initial (h : Initial n) : Greeted n := by
  obtain ⟨⟨remote, options, userData, c, r, -, hc, hclient⟩,
    ⟨addr, options', userData', -, hserver⟩⟩ := h
  constructor
  · rw [hclient]
    cases Connection.connectStep_of_ok hc with
    | refused hs => exact absurd rfl hs.1
    | connecting _ ha =>
        change ∃ s ∈ c.userData.sent, _
        rw [ha.sent]
        exact ⟨_, List.mem_append_right _ (List.mem_singleton_self _),
          show SegmentFlags.contains .syn .syn = true ∧ SegmentFlags.contains .syn .rst = false by
            decide⟩
  · rw [hserver]
    rintro (hs | hs) <;> cases hs

theorem Greeted.step {i : Side × Op Time} (h : Greeted n) (hjoint : Joint n)
    (hs : (system Addr Time).step n i n') : Greeted n' := by
  obtain ⟨hperm, c', out, hc, rfl⟩ := hs
  obtain ⟨x, op⟩ := i
  have hop : op ≠ .callConnect := by
    rintro rfl
    exact hperm
  have effect := (hjoint.wellFormed x).txEffect hc
  cases x with
  | client =>
      refine ⟨?_, h.server⟩
      obtain ⟨s, hs, hsyn⟩ := h.client
      exact ⟨s, effect.sent_isPrefix.subset hs, hsyn⟩
  | server =>
      refine ⟨h.client, fun hpeer => ?_⟩
      have kept (hwas : n.server.conn.Peered) :
          ∃ s ∈ c'.userData.sent, s.hasSyn = true ∧ s.hasRst = false ∧ s.hasAck = true := by
        obtain ⟨s, hs, hsyn⟩ := h.server hwas
        exact ⟨s, effect.sent_isPrefix.subset hs, hsyn⟩
      have hpeer' : Connection.Peered c' := hpeer
      cases effect.moves hop with
      | same heq => exact kept (by rwa [Connection.Peered, heq] at hpeer')
      | opened hs => exact kept (hs.resolve_right fun hst => hjoint.server hst.1)
      | cleared hidle => exact absurd (hpeer'.not_idle.symm.trans hidle) (by decide)
      | @answered seg heq hst =>
          subst heq
          obtain ⟨hc, -⟩ := Connection.step_onSegment.mp hc
          change n.server.conn.onSegment seg = .ok c' at hc
          change n.server.conn.connectionState = .listen at hst
          rw [Connection.onSegment, hst] at hc
          cases Connection.listened_of_ok hc with
          | ignored => exact absurd hpeer' (by rintro (hs | hs) <;> rw [hst] at hs <;> cases hs)
          | refused =>
              refine absurd hpeer' ?_
              rintro (hs | hs) <;> rw [Connection.send_connectionState, hst] at hs <;> cases hs
          | answered _ _ _ _ ha =>
              change ∃ s ∈ c'.userData.sent, _
              rw [ha.sent]
              exact ⟨_, List.mem_append_right _ (List.mem_singleton_self _),
                show SegmentFlags.contains (.syn ||| .ack) .syn = true ∧
                  SegmentFlags.contains (.syn ||| .ack) .rst = false ∧
                    SegmentFlags.contains (.syn ||| .ack) .ack = true by decide⟩

theorem Greeted.of_reachable (run : Reachable n) (hshort : n.Short) : Greeted n := by
  refine Transition.ReachableUnder.invariant (P := fun n => n.Short → Greeted n)
    (fun _ h _ => .of_initial h) (fun n i n' run ih _ hs hshort => ?_) run hshort
  have hbefore : n.Short := fun x => Nat.lt_of_le_of_lt (Joint.carried_mono hs x) (hshort x)
  exact (ih hbefore).step (Joint.of_reachable run hbefore) hs

/-- A segment of the other side is delivered. -/
def Delivery (i : Side × Op Time) : Prop := ∃ seg, i.2 = .onSegment seg

/-- Both endpoints are on the way through the handshake, or open. -/
structure Connecting (n : Net Addr Time) : Prop where
  run : Reachable n
  client : n.client.state = .synSent ∨ n.client.state = .fullyOpen
  server : n.server.state = .listen ∨ n.server.state = .synReceived ∨
    n.server.state = .fullyOpen
  short : ∀ z, (n.get z).written.length < 2 ^ 31

namespace Connecting

variable {z : Side} {seg : SegmentMeta} {c' : Connection Addr Time}

theorem joint_short (h : Connecting n) : n.Short := fun z => by
  have hpaid := paid_of_reachable h.run z
  have hshort := h.short z
  unfold Paid at hpaid
  omega

theorem joint (h : Connecting n) : Joint n := Joint.of_reachable h.run h.joint_short

/-- Neither side is gone. -/
theorem alive (h : Connecting n) (z : Side) : (n.get z).state.gone = false := by
  cases z with
  | client => rcases h.client with hst | hst <;> rw [Net.get, hst] <;> rfl
  | server => rcases h.server with hst | hst | hst <;> rw [Net.get, hst] <;> rfl

theorem linked (h : Connecting n) (z : Side) :
    ∃ isn ch, Linked (n.get z) (n.get z.other) isn ch := by
  cases h.joint.link z with
  | final hgone => exact absurd ((h.alive z.other).symm.trans hgone) (by decide)
  | live _ hl => exact ⟨_, _, hl⟩

/-- The server waits only for a client that has not heard from it. -/
theorem synSent_of_listen (h : Connecting n) (hst : n.server.state = .listen) :
    n.client.state = .synSent :=
  ((h.joint.waiting hst).resolve_left fun hgone =>
    absurd ((h.alive .client).symm.trans hgone) (by decide)).1

/-- The server is open only to a client that is open. -/
theorem open_of_open (h : Connecting n) (hst : n.server.state = .fullyOpen) :
    n.client.state = .fullyOpen := by
  refine h.client.resolve_left fun hsyn => ?_
  obtain ⟨isn, ch, hl⟩ := h.linked .server
  have hidle : (n.get .server).state.idle = false := by rw [Net.get, hst]; rfl
  have hnone : ch.stored = [] := by
    refine hl.receiving.unopened ?_
    change ¬ n.client.conn.Peered
    rintro (hs | hs) <;> rw [← Endpoint.state, hsyn] at hs <;> cases hs
  have hacked := (hl.acks (h.alive .server)).1.acked
  rw [hnone, List.length_nil, Nat.le_zero] at hacked
  rcases (hl.sending.handshake hidle hacked).2 with hbad | hbad <;> rw [Net.get, hst] at hbad <;>
    cases hbad

/-- A delivery that keeps to the handshake. -/
theorem deliver (h : Connecting n) (hseg : seg ∈ (n.get z.other).log)
    (hc : (n.get z).conn.onSegment seg = .ok c')
    (hst : z = .client ∧ c'.connectionState = .fullyOpen ∨
      z = .server ∧ (c'.connectionState = .synReceived ∨ c'.connectionState = .fullyOpen)) :
    ∃ n', Transition.Leads (system Addr Time) Delivery n n' ∧ Connecting n' ∧
      n' = n.set z ((n.get z).after (.onSegment seg) c' .none) ∧
        ∀ w, (n'.get w).written = (n.get w).written := by
  have hs : (system Addr Time).step n (z, .onSegment seg)
      (n.set z ((n.get z).after (.onSegment seg) c' .none)) :=
    ⟨hseg, c', .none, Connection.step_onSegment.mpr ⟨hc, rfl⟩, rfl⟩
  have hwritten (w : Side) :
      ((n.set z ((n.get z).after (.onSegment seg) c' .none)).get w).written =
        (n.get w).written := by
    cases z <;> cases w <;> first | rfl | exact List.append_nil _
  refine ⟨_, .step _ ⟨seg, rfl⟩ hs, ⟨h.run.step hs, ?_, ?_, fun w => ?_⟩, rfl, hwritten⟩
  · rcases hst with ⟨rfl, hst⟩ | ⟨rfl, -⟩
    · exact .inr hst
    · exact h.client
  · rcases hst with ⟨rfl, -⟩ | ⟨rfl, hst⟩
    · exact h.server
    · exact .inr hst
  · rw [hwritten]
    exact h.short w

/-- The server answers the SYN of the client. -/
theorem answer (h : Connecting n) (hst : n.server.state = .listen) :
    ∃ n', Transition.Leads (system Addr Time) Delivery n n' ∧ Connecting n' ∧
      n'.server.state = .synReceived ∧ ∀ w, (n'.get w).written = (n.get w).written := by
  obtain ⟨s, hs, hsyn, hrst⟩ := (Greeted.of_reachable h.run h.joint_short).client
  obtain ⟨isn, ch, hl⟩ := h.linked .client
  have hdata := ((hl.sending.wired.segments s hs hrst).retransmittable.bare hsyn).1
  have hack := h.joint.connecting (h.synSent_of_listen hst) s hs
  obtain ⟨c', hc, hst'⟩ := Connection.answers_syn hst hrst hack hsyn hdata
  obtain ⟨n', hlead, h', rfl, hwritten⟩ :=
    @deliver _ _ _ _ .server _ _ h hs hc (.inr ⟨rfl, .inl hst'⟩)
  exact ⟨_, hlead, h', hst', hwritten⟩

/-- The client hears the reply to its SYN. -/
theorem reply (h : Connecting n) (hclient : n.client.state = .synSent)
    (hserver : n.server.state = .synReceived) :
    ∃ n', Transition.Leads (system Addr Time) Delivery n n' ∧ Connecting n' ∧
      n'.client.state = .fullyOpen ∧ n'.server = n.server ∧
      ∀ w, (n'.get w).written = (n.get w).written := by
  obtain ⟨s, hs, hsyn, hrst, hack⟩ :=
    (Greeted.of_reachable h.run h.joint_short).server (.inr hserver)
  obtain ⟨isn, ch, hl⟩ := h.linked .client
  have hwf := h.joint.wellFormed .client
  have hopening : (n.get .client).state.opening = true := by rw [Net.get, hclient]; rfl
  have hrange := hl.inRange hwf (h.joint_short .client) hopening hs hrst hack
  have hackn := hl.ackn_opening hwf (h.joint_short .client) hopening hs hrst hack
  obtain ⟨c', hc, hst'⟩ := Connection.opens_synAck hwf hclient hrange hrst hack hsyn hackn
  obtain ⟨n', hlead, h', rfl, hwritten⟩ := @deliver _ _ _ _ .client _ _ h hs hc (.inl ⟨rfl, hst'⟩)
  exact ⟨_, hlead, h', hst', rfl, hwritten⟩

/-- A segment that is next in order opens the server. -/
theorem accept (h : Connecting n) (hserver : n.server.state = .synReceived)
    (hseg : seg ∈ n.client.log) (hrst : seg.hasRst = false) (hsyn : seg.hasSyn = false)
    (hfin : seg.hasFin = false) (hack : seg.hasAck = true)
    (hlen : seg.data.length ≤ maxSegmentSize) (hseqn : seg.seqn = n.server.conn.rx.ackd) :
    ∃ n', Transition.Leads (system Addr Time) Delivery n n' ∧ Connecting n' ∧
      n'.server.state = .fullyOpen ∧ ∀ w, (n'.get w).written = (n.get w).written := by
  have hwf : n.server.conn.WellFormed := h.joint.wellFormed .server
  obtain ⟨-, hempty, hmark⟩ := hwf.early (by rw [← Endpoint.state, hserver]; rfl)
  have hwindow := hwf.currWindow_of_empty hempty hmark
  have hsize : seg.seqSize.toNat ≤ 4096 := by
    rw [seg.seqSize_eq, hsyn, hfin, BitVec.toNat_ofNat]
    rw [maxSegmentSize] at hlen
    exact Nat.le_trans (Nat.mod_le _ _) (by simp only [Bool.toNat_false]; omega)
  obtain ⟨isn, ch, hl⟩ := h.linked .server
  have hopening : (n.get .server).state.opening = true := by rw [Net.get, hserver]; rfl
  have hrange := hl.inRange hwf (h.joint_short .server) hopening hseg hrst hack
  obtain ⟨c', hc, hst'⟩ := (h.run.conn .server).opens_ack hserver
    ⟨Connection.check_of_inOrder hwf hwindow hseqn hsize, hrst, hsyn, hack, hrange, hseqn⟩ hfin hlen
  obtain ⟨n', hlead, h', rfl, hwritten⟩ :=
    @deliver _ _ _ _ .server _ _ h hseg hc (.inr ⟨rfl, .inr hst'⟩)
  exact ⟨_, hlead, h', hst', hwritten⟩

/-- An open client repeats its acknowledgement for the reply it has heard before. -/
theorem repeats (h : Connecting n) (hclient : n.client.state = .fullyOpen)
    (hserver : n.server.state = .synReceived) :
    ∃ n', Transition.Leads (system Addr Time) Delivery n n' ∧ Connecting n' ∧
      n'.server = n.server ∧ (∀ w, (n'.get w).written = (n.get w).written) ∧
      n.client.conn.bareSegment n.client.conn.rx.ackd .ack ∈ n'.client.log := by
  obtain ⟨s, hs, hsyn, hrst, -⟩ :=
    (Greeted.of_reachable h.run h.joint_short).server (.inr hserver)
  obtain ⟨isn, ch, hl⟩ := h.linked .server
  have hpeer : n.client.conn.Peered := .inl (by rw [← Endpoint.state, hclient]; rfl)
  have hsize := h.joint.syn_size (x := .server) (h.alive .client) hs hrst hsyn
  have hlen := hl.sending.wired.length_le (h.joint_short .server)
  have hcheck := (hl.receiving.holds hpeer).syn_rejected (h.joint.wellFormed .client).rxWindow
    (Nat.le_trans hl.delivers.stored.length_le hlen)
    ((hl.sending.wired.segments s hs hrst).first hsyn) hsize
  have hc := Connection.onSegment_unacceptable hpeer hcheck
  rw [hrst, if_neg Bool.false_ne_true] at hc
  obtain ⟨n', hlead, h', rfl, hwritten⟩ :=
    @deliver _ _ _ _ .client _ _ h hs hc (.inl ⟨rfl, hclient⟩)
  refine ⟨_, hlead, h', rfl, hwritten, ?_⟩
  change _ ∈ (n.client.conn.send _).userData.sent
  rw [Connection.send_sent]
  exact List.mem_append_right _ (List.mem_singleton_self _)

/-- An open client can bring the server to open. -/
theorem finish (h : Connecting n) (hclient : n.client.state = .fullyOpen)
    (hserver : n.server.state = .synReceived) :
    ∃ n', Transition.Leads (system Addr Time) Delivery n n' ∧ Connecting n' ∧
      n'.server.state = .fullyOpen ∧ ∀ w, (n'.get w).written = (n.get w).written := by
  have hpeer : n.server.conn.Peered := .inr hserver
  have hwhole := Whole.of_reachable h.run h.joint_short
  obtain ⟨s, hs, hcarries, hstop⟩ := hwhole.ends .client hpeer
  rcases hwhole.gapless .client (h.alive .server) (by rw [Net.get, hclient]; rfl) s hs hcarries with
    hlast | ⟨g, hg, hgcarries, hgseqn⟩
  · -- The client has sent nothing behind its SYN.
    obtain ⟨n₁, hlead₁, h₁, heq, hwritten₁, hlog⟩ := h.repeats hclient hserver
    have hbits : SegmentFlags.contains .ack .rst = false ∧ SegmentFlags.contains .ack .syn = false ∧
        SegmentFlags.contains .ack .fin = false ∧ SegmentFlags.contains .ack .ack = true := by
      decide
    obtain ⟨n₂, hlead₂, h₂, hst, hwritten₂⟩ := h₁.accept (by rw [heq, hserver]) hlog hbits.1
      hbits.2.1 hbits.2.2.1 hbits.2.2.2 (Nat.zero_le _) (by rw [heq]; exact hlast.symm.trans hstop)
    exact ⟨n₂, hlead₁.trans hlead₂, h₂, hst, fun w => (hwritten₂ w).trans (hwritten₁ w)⟩
  · obtain ⟨isn, ch, hl⟩ := h.linked .client
    have hseqn : g.seqn = n.server.conn.rx.ackd := hgseqn.trans hstop
    obtain ⟨-, hsyn, hfin, hack, hlen⟩ :=
      hl.carries_data (h.joint_short .client) hclient hpeer hg hgcarries hseqn
    exact h.accept hserver hg hgcarries.1 hsyn hfin hack hlen hseqn

/-- Deliveries alone open both endpoints. -/
theorem opens (h : Connecting n) : ∃ n', Transition.Leads (system Addr Time) Delivery n n' ∧
    Connecting n' ∧ (∀ z, (n'.get z).state = .fullyOpen) ∧
      ∀ w, (n'.get w).written = (n.get w).written := by
  have both {m : Net Addr Time} (h : Connecting m) (hst : m.server.state = .fullyOpen) :
      ∀ z, (m.get z).state = .fullyOpen := by
    rintro (_ | _)
    · exact h.open_of_open hst
    · exact hst
  have received {m : Net Addr Time} (h : Connecting m) (hst : m.server.state = .synReceived) :
      ∃ n', Transition.Leads (system Addr Time) Delivery m n' ∧ Connecting n' ∧
        (∀ z, (n'.get z).state = .fullyOpen) ∧ ∀ w, (n'.get w).written = (m.get w).written := by
    rcases h.client with hsyn | hopen
    · obtain ⟨n₁, hlead₁, h₁, hopen, heq, hwritten₁⟩ := h.reply hsyn hst
      obtain ⟨n₂, hlead₂, h₂, hst₂, hwritten₂⟩ := h₁.finish hopen (by rw [heq, hst])
      exact ⟨n₂, hlead₁.trans hlead₂, h₂, both h₂ hst₂,
        fun w => (hwritten₂ w).trans (hwritten₁ w)⟩
    · obtain ⟨n₁, hlead, h₁, hst₁, hwritten⟩ := h.finish hopen hst
      exact ⟨n₁, hlead, h₁, both h₁ hst₁, hwritten⟩
  rcases h.server with hst | hst | hst
  · obtain ⟨n₁, hlead₁, h₁, hst₁, hwritten₁⟩ := h.answer hst
    obtain ⟨n₂, hlead₂, h₂, hopen, hwritten₂⟩ := received h₁ hst₁
    exact ⟨n₂, hlead₁.trans hlead₂, h₂, hopen, fun w => (hwritten₂ w).trans (hwritten₁ w)⟩
  · exact received h hst
  · exact ⟨n, .refl n, h, both h hst, fun _ => rfl⟩

end Connecting

/-- While neither endpoint has left the handshake but by opening, whatever the
wire has done and the applications have written so far, deliveries alone lead to
a state in which both are open. Nothing written is lost: it is what the other
side has read and stores, followed by what is kept for resending and queued. -/
theorem handshake_completes (run : Reachable n)
    (hclient : n.client.state = .synSent ∨ n.client.state = .fullyOpen)
    (hserver : n.server.state = .listen ∨ n.server.state = .synReceived ∨
      n.server.state = .fullyOpen) (hshort : ∀ z, (n.get z).written.length < 2 ^ 31) :
    ∃ n', Transition.Leads (system Addr Time) Delivery n n' ∧
      (∀ z, (n'.get z).state = .fullyOpen) ∧
        ∀ z, (n'.get z).written = (n.get z).written ∧ ∃ k, (n.get z).written =
          (n'.get z.other).read ++ (n'.get z.other).conn.rx.bytes ++
            (n'.get z).conn.tx.keptData.drop k ++ (n'.get z).conn.tx.tx.bytes := by
  have h : Connecting n := ⟨run, hclient, hserver, hshort⟩
  obtain ⟨n', hlead, h', hopen, hwritten⟩ := h.opens
  refine ⟨n', hlead, hopen, fun z => ⟨hwritten z, ?_⟩⟩
  obtain ⟨isn, ch, hl⟩ := h'.linked z
  rw [← hwritten z]
  exact hl.written_eq (by rw [hopen]; rfl) (.inl (by rw [← Endpoint.state, hopen]; rfl))

/-- Both applications have written, and the reply of the server is still missing. -/
theorem handshake_completes_early : ∃ n n' : Net Unit Nat, n.client.state = .synSent ∧
    Transition.Leads (system Unit Nat) Delivery n n' ∧ n'.client.state = .fullyOpen ∧
      n'.client.written = [1, 2] ∧ n'.server.written = [3] ∧
        ∃ k, [1, 2] = n'.server.read ++ n'.server.conn.rx.bytes ++
          n'.client.conn.tx.keptData.drop k ++ n'.client.conn.tx.tx.bytes := by
  obtain ⟨n, run, hclient, hserver, hwritten, hanswer⟩ : ∃ n : Net Unit Nat, Reachable n ∧
      n.client.state = .synSent ∧ n.server.state = .synReceived ∧ n.client.written = [1, 2] ∧
        n.server.written = [3] :=
    Transition.exists_reachableUnder step_of_next initial_zeroStart
      [(.client, .callSend [1, 2]), (.server, .onSegment ⟨0#32, 0#32, 4096#16, .syn, []⟩),
       (.server, .callSend [3])] (by decide)
  obtain ⟨n', hlead, hopen, hkept⟩ := handshake_completes run (.inl hclient) (.inr (.inl hserver))
    (by
      rintro (_ | _)
      · rw [Net.get, hwritten]
        decide
      · rw [Net.get, hanswer]
        decide)
  obtain ⟨hsame, hparts⟩ := hkept .client
  rw [show (n.get .client).written = [1, 2] from hwritten] at hsame hparts
  exact ⟨n, n', hclient, hlead, hopen .client, hsame, (hkept .server).1.trans hanswer, hparts⟩

end Net

end TcpState
