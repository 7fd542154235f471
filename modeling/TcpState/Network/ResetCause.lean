import TcpState.Connection.Acceptance
import TcpState.Connection.Diagram
import TcpState.Connection.Resets
import TcpState.Network.Gapless
import TcpState.Network.GracefulEnd

/-!
# Every reset has a cause

Between two endpoints of this library nothing the wire does resets a
connection: no loss, repetition or reordering puts a RST on the wire. The first
endpoint that ends does so by itself and is Closed, and the other can be reset
only after that.
-/

namespace TcpState

open Transfer (Channel)

variable {Addr Time : Type}

namespace Connection

variable {c c' : Connection Addr Time} {seg : SegmentMeta}

/-- The segments that reset a connection. -/
inductive Resetting (c : Connection Addr Time) (seg : SegmentMeta) : Prop
  | rst (hidle : c.connectionState.idle = false) (h : seg.hasRst = true)
  | syn (hpeer : Peered c) (hrst : seg.hasRst = false) (hsyn : seg.hasSyn = true)
      (hcheck : c.checkSegmentSeqOk seg = true)

variable [UserTime Time]

theorem resetting_of_ok (hs : c.connectionState ≠ .reset) (hc : c.onSegment seg = .ok c')
    (hreset : c'.connectionState = .reset) : Resetting c seg := by
  have synchronized (hpeer : Peered c) (hc : c.onSegmentSynchronized seg = .ok c') :
      Resetting c seg := by
    cases synchronizedStep_iff.mp hc with
    | dropped => exact absurd hreset hs
    | rejected => exact absurd hreset hs
    | reset _ hrst => exact .rst hpeer.not_idle hrst
    | syn hcheck hrst hsyn => exact .syn hpeer hrst hsyn hcheck
    | accepted _ _ _ hacc =>
        have hpeer' : (c.windowed seg).Peered := hpeer
        exact absurd hreset (onAccepted_not_reset hpeer' hacc)
  cases hst : c.connectionState with
  | synSent =>
      cases hrst : seg.hasRst with
      | true => exact .rst (by rw [hst]; rfl) hrst
      | false => exact absurd hreset (onSegment_not_reset hst hrst hc)
  | listen =>
      rw [onSegment, hst] at hc
      cases listened_of_ok hc with
      | ignored => exact absurd hreset hs
      | refused => exact absurd hreset hs
      | answered _ _ _ _ ha => exact absurd (ha.state.symm.trans hreset) (by decide)
  | reset => exact absurd hst hs
  | closed =>
      rw [onSegment, hst] at hc
      simp only [Fallible.bind_ok_iff] at hc
      obtain ⟨resp, -, hc⟩ := hc
      split at hc
      all_goals
        obtain rfl := Fallible.pure_ok_iff.mp hc
        exact absurd hreset hs
  | synReceived =>
      rw [onSegment, hst] at hc
      exact synchronized (.inr hst) hc
  | timeWait =>
      rw [onSegment, hst] at hc
      exact synchronized (.inl (by rw [hst]; rfl)) hc
  | established =>
      rw [onSegment, hst] at hc
      exact synchronized (.inl (by rw [hst]; rfl)) hc

end Connection

/-- Behind the SYN that opened it the window does not reach back to that SYN. -/
theorem Holds.syn_rejected {c : Connection Addr Time} {read : List UInt8} {isn : SeqN}
    {ch : Channel Symbol} {seg : SegmentMeta} (h : Holds c.rx read isn ch)
    (hwindow : c.rx.window = initialWindowSize) (hlen : ch.stored.length ≤ TxBuffer.maxLength)
    (hseqn : seg.seqn = isn) (hsize : seg.seqSize = 1#32) : c.checkSegmentSeqOk seg = false := by
  have hopened := h.opened
  rw [TxBuffer.maxLength] at hlen
  have hback : Circular.span c.rx.ackd seg.seqn = 2 ^ 32 - ch.stored.length := by
    have := Circular.span_add_back isn (w := 32) (show 0 < ch.stored.length from hopened)
      (by omega)
    rw [Nat.sub_zero, show BitVec.ofNat 32 0 = 0#32 from rfl, BitVec.add_zero] at this
    rw [h.ackd, hseqn, this]
  rw [Bool.eq_false_iff]
  intro hcheck
  rw [Connection.checkSegmentSeqOk_iff] at hcheck
  split at hcheck
  · exact absurd (hsize.symm.trans hcheck.1) (by decide)
  · have hin := (RxBuffer.inWindow_iff (by rw [hwindow]; decide) seg.seqn).mp hcheck.1
    rw [hback, hwindow, show initialWindowSize.toNat = 4096 from rfl] at hin
    omega

namespace Net

variable {n : Net Addr Time} {op : Op Time} {out : Output} {c' : Connection Addr Time}

/-- No endpoint refuses or is reset before one of them has ended. -/
structure Calm (n : Net Addr Time) : Prop where
  refused : ∀ s ∈ n.server.log, s.hasRst = true →
    n.client.state.gone = true ∨ n.server.state.gone = true
  closed : ∀ x, (n.get x).state = .reset → (n.get x.other).state = .closed

/-- A RST on the wire comes after an end. -/
theorem Calm.rst_gone (h : Calm n) (hjoint : Joint n) (x : Side) {s : SegmentMeta}
    (hs : s ∈ (n.get x).log) (hrst : s.hasRst = true) :
    (n.get x).state.gone = true ∨ (n.get x.other).state.gone = true := by
  cases x with
  | client => exact hjoint.aborted s hs hrst
  | server => exact (h.refused s hs hrst).symm

/-- The server refuses only what it hears from a client that has ended. -/
theorem Calm.refused_server (h : Calm n) (hjoint : Joint n)
    (effect : Connection.TxEffect n.server.conn op out c') (hop : op ≠ .callConnect)
    (hsent : ∀ seg, op = .onSegment seg → seg ∈ n.client.log) {s : SegmentMeta}
    (hs : s ∈ c'.userData.sent) (hrst : s.hasRst = true) :
    n.client.state.gone = true ∨ c'.connectionState.gone = true := by
  have hmoves := effect.moves hop
  have old (hs : s ∈ n.server.log) : n.client.state.gone = true ∨ c'.connectionState.gone = true :=
    (h.refused s hs hrst).imp_right hmoves.gone
  rcases effect.puts hop hs with hs | hput
  · exact old hs
  cases hput with
  | remark hrem =>
      cases hrem with
      | resend _ hmem => exact old (hjoint.logged .server s hmem)
      | ack _ hflags =>
          rw [SegmentMeta.hasRst, hflags] at hrst
          cases hrst
      | refusal heq _ _ _ hst =>
          rcases hst with hst | ⟨hack, hst | ⟨hst, -⟩⟩
          · exact .inr (hmoves.gone (by rcases hst with hst | hst <;> rw [hst] <;> rfl))
          · -- A client that connects has not acknowledged anything yet.
            refine .inl ((hjoint.waiting hst).resolve_right ?_)
            rintro ⟨hsyn, -⟩
            have := hjoint.connecting hsyn _ (hsent _ heq)
            exact absurd (this.symm.trans hack) (by decide)
          · exact absurd hst hjoint.server
  | parting hidle hlisten =>
      by_cases hl : c'.connectionState = .listen
      · rcases hmoves.of_listen hl with hst | ⟨hst, seg, heq, hseg⟩
        · exact absurd (hst.symm.trans (hlisten hl)) (by decide)
        · exact .inl (hjoint.client_gone hst (hsent seg heq) hseg)
      · exact .inr (ConnectionState.gone_of_idle hidle hl)
  | built _ hno => exact absurd (hno.symm.trans hrst) (by decide)

variable [UserTime Time]

theorem Calm.of_initial (h : Initial n) : Calm n := by
  obtain ⟨⟨remote, options, userData, c, r, -, hc, hclient⟩,
    ⟨addr, options', userData', hsent', hserver⟩⟩ := h
  constructor
  · intro s hs
    rw [hserver] at hs
    change s ∈ userData'.sent at hs
    rw [hsent'] at hs
    cases hs
  · rintro (_ | _) hreset
    · rw [Net.get, hclient] at hreset
      change c.connectionState = .reset at hreset
      cases Connection.connectStep_of_ok hc with
      | refused hs => exact absurd rfl hs.1
      | connecting _ ha => exact absurd (ha.state.symm.trans hreset) (by decide)
    · rw [Net.get, hserver] at hreset
      cases hreset

/-- An endpoint is reset only by what its peer sends after its end. -/
theorem Calm.reset_gone (h : Calm n) (hjoint : Joint n) (hshort : n.Short) {x : Side}
    (hsent : ∀ seg, op = .onSegment seg → seg ∈ (n.get x.other).log)
    (hwas : (n.get x).state ≠ .reset) (hc : (n.get x).conn.step op = .ok (c', out))
    (hpath : ConnectionState.Path (n.get x).conn.finWaits op (n.get x).state c'.connectionState)
    (hreset : c'.connectionState = .reset) :
    (n.get x).state.gone = false ∧ (n.get x.other).state.gone = true := by
  rw [hreset] at hpath
  obtain ⟨seg, rfl⟩ := hpath.into_reset hwas
  obtain ⟨hc, -⟩ := Connection.step_onSegment.mp hc
  have hseg := hsent seg rfl
  cases Connection.resetting_of_ok hwas hc hreset with
  | rst hidle hrst =>
      have hlive := ConnectionState.not_gone_of_not_idle hidle
      refine ⟨hlive, (h.rst_gone hjoint x.other hseg hrst).resolve_right fun hgone => ?_⟩
      rw [show x.other.other = x by cases x <;> rfl] at hgone
      exact absurd (hgone.symm.trans hlive) (by decide)
  | syn hpeer hrst hsyn hcheck =>
      have hlive := ConnectionState.not_gone_of_not_idle hpeer.not_idle
      refine ⟨hlive, ?_⟩
      -- The SYN of a peer that has not ended lies behind the window.
      cases link_back hjoint x with
      | final hgone => exact absurd (hgone.symm.trans hlive) (by decide)
      | live _ hl =>
          by_contra hother
          have hsize : seg.seqSize = 1#32 := by
            refine hjoint.syn_size ?_ hseg hrst hsyn
            rw [show x.other.other = x by cases x <;> rfl]
            exact hlive
          have hfirst := (hl.sending.wired.segments seg hseg hrst).first hsyn
          have hlen := hl.sending.wired.length_le (hshort x.other)
          have hno := (hl.receiving.holds hpeer).syn_rejected (hjoint.wellFormed x).rxWindow
            (Nat.le_trans hl.delivers.stored.length_le hlen) hfirst hsize
          exact absurd (hno.symm.trans hcheck) (by decide)

theorem Calm.step {i : Side × Op Time} {n' : Net Addr Time} (h : Calm n) (hjoint : Joint n)
    (hshort : n.Short) (run : Reachable n) (hs : (system Addr Time).step n i n') : Calm n' := by
  obtain ⟨hperm, c', out, hc, rfl⟩ := hs
  obtain ⟨x, op⟩ := i
  have hop : op ≠ .callConnect := by
    rintro rfl
    exact hperm
  have hsent (seg : SegmentMeta) (heq : op = .onSegment seg) : seg ∈ (n.get x.other).log := by
    rw [heq] at hperm
    exact hperm
  have effect := (hjoint.wellFormed x).txEffect hc
  have hmoves := effect.moves hop
  constructor
  · cases x with
    | client => exact fun s hs hrst => (h.refused s hs hrst).imp_left hmoves.gone
    | server => exact fun s hs hrst => h.refused_server hjoint effect hop hsent hs hrst
  · intro y hreset
    by_cases hy : y = x
    · subst hy
      rw [get_set] at hreset
      rw [get_set_other]
      by_cases hwas : (n.get y).state = .reset
      · exact h.closed y hwas
      · obtain ⟨hlive, hgone⟩ := h.reset_gone hjoint hshort hsent hwas hc
          (Connection.path_of_reachable (run.conn y) hc) hreset
        cases hst : (n.get y.other).state with
        | closed => rfl
        | reset =>
            have hclosed := h.closed y.other hst
            rw [show y.other.other = y by cases y <;> rfl] at hclosed
            rw [hclosed] at hlive
            cases hlive
        | _ => rw [hst] at hgone; cases hgone
    · obtain rfl : y = x.other := by cases x <;> cases y <;> first | rfl | exact absurd rfl hy
      rw [get_set_other] at hreset
      have hclosed := h.closed x.other hreset
      rw [show x.other.other = x by cases x <;> rfl] at hclosed ⊢
      rw [get_set]
      change c'.connectionState = .closed
      have hgone : c'.connectionState.gone = true :=
        hmoves.gone (congrArg ConnectionState.gone hclosed)
      cases hst : c'.connectionState with
      | closed => rfl
      | reset =>
          have hlive := (h.reset_gone hjoint hshort hsent (by rw [hclosed]; nofun) hc
            (Connection.path_of_reachable (run.conn x) hc) hst).1
          rw [hclosed] at hlive
          cases hlive
      | _ => rw [hst] at hgone; cases hgone

theorem Calm.of_reachable (run : Reachable n) (hshort : n.Short) : Calm n := by
  refine Transition.ReachableUnder.invariant (P := fun n => n.Short → Calm n)
    (fun _ h _ => .of_initial h) (fun n i n' run ih _ hs hshort => ?_) run hshort
  have hbefore : n.Short := fun x => Nat.lt_of_le_of_lt (Joint.carried_mono hs x) (hshort x)
  exact (ih hbefore).step (Joint.of_reachable run hbefore) hbefore run hs

/-- A RST is on the wire only after one of the endpoints is Closed, and an
endpoint is Reset only once its peer is Closed. -/
theorem reset_after_end (run : Reachable n) (hshort : n.Short) (x : Side) :
    ((n.get x).state = .reset → (n.get x.other).state = .closed) ∧
      ((∃ s ∈ (n.get x).log, s.hasRst = true) →
        (n.get x).state = .closed ∨ (n.get x.other).state = .closed) := by
  have h := Calm.of_reachable run hshort
  refine ⟨h.closed x, ?_⟩
  rintro ⟨s, hs, hrst⟩
  have ended {y : Side} (hgone : (n.get y).state.gone = true) :
      (n.get y).state = .closed ∨ (n.get y.other).state = .closed := by
    cases hst : (n.get y).state with
    | closed => exact .inl rfl
    | reset => exact .inr (h.closed y hst)
    | _ => rw [hst] at hgone; cases hgone
  rcases h.rst_gone (Joint.of_reachable run hshort) x hs hrst with hgone | hgone
  · exact ended hgone
  · have := ended hgone
    rw [show x.other.other = x by cases x <;> rfl] at this
    exact this.symm

/-- The server aborts and its RST resets the client. -/
theorem reset_after_end_abort : ∃ n : Net Unit Nat, n.client.state = .reset ∧
    n.server.state = .closed ∧ ∃ s ∈ n.server.log, s.hasRst = true := by
  obtain ⟨n, run, hclient, hserver, hreset, hrst⟩ : ∃ n : Net Unit Nat, Reachable n ∧
      n.client.carried < 2 ^ 31 ∧ n.server.carried < 2 ^ 31 ∧ n.client.state = .reset ∧
        ∃ s ∈ n.server.log, s.hasRst = true :=
    Transition.exists_reachableUnder step_of_next initial_zeroStart
      [(.server, .onSegment ⟨0#32, 0#32, 4096#16, .syn, []⟩),
       (.client, .onSegment ⟨0#32, 1#32, 4096#16, .syn ||| .ack, []⟩),
       (.server, .onSegment ⟨1#32, 1#32, 4096#16, .ack, []⟩),
       (.server, .callAbort),
       (.client, .onSegment ⟨1#32, 0#32, 4096#16, .rst, []⟩)] (by decide)
  have hshort : n.Short := by
    rintro (_ | _)
    · exact hclient
    · exact hserver
  exact ⟨n, hreset, (reset_after_end run hshort .client).1 hreset, hrst⟩

end Net

end TcpState
