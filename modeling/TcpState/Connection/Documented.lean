import TcpState.Connection.CallPanic
import TcpState.Connection.Diagram

/-!
# The documented state diagram

`docs/state.dot` draws the states of a connection and labels the moves between
them with calls, segments and timeouts. It leaves out what the application has
read, and resets. Runs whose ends find room for the FIN follow the drawing with
its labels, apart from six moves that it does not show.
-/

namespace TcpState

/-- The nodes of the drawing. `closeCalled` selects the variant with close called. -/
inductive DiagramNode
  | closed
  | listen
  | synSent
  | synReceived
  | established
  | closeWait
  | lastAck (closeCalled : Bool)
  | finWait1 (closeCalled : Bool)
  | finWait2 (closeCalled : Bool)
  | simultaneousClose (closeCalled : Bool)
  | timeWait (closeCalled : Bool)
  | waitForCloseCall
  | closedAgain
deriving DecidableEq, Repr

/-- The calls that end the output. -/
def Op.Ends {Time : Type} (op : Op Time) : Prop := op = .callShutdown ∨ op = .callClose

namespace DiagramNode

/-- The edges of the drawing with their labels, except for `listen`, which is a
call of the listening socket. The edge back to the start has no label. -/
inductive Edge {Time : Type} : Op Time → DiagramNode → DiagramNode → Prop
  | connect : Edge .callConnect .closed .synSent
  | syn {seg : SegmentMeta} (hsyn : seg.hasSyn = true) :
      Edge (.onSegment seg) .listen .synReceived
  | closeListen : Edge .callClose .listen .closed
  | rst {seg : SegmentMeta} (hrst : seg.hasRst = true) : Edge (.onSegment seg) .synReceived .listen
  | ack {seg : SegmentMeta} (hack : seg.hasAck = true) :
      Edge (.onSegment seg) .synReceived .established
  | synAck {seg : SegmentMeta} (hsyn : seg.hasSyn = true) (hack : seg.hasAck = true) :
      Edge (.onSegment seg) .synSent .established
  | closeSynSent : Edge .callClose .synSent .closed
  | shutdown : Edge .callShutdown .established (.finWait1 false)
  | close : Edge .callClose .established (.finWait1 true)
  | fin {seg : SegmentMeta} (hfin : seg.hasFin = true) :
      Edge (.onSegment seg) .established .closeWait
  | shutdownCloseWait : Edge .callShutdown .closeWait (.lastAck false)
  | finFinWait1 {seg : SegmentMeta} (hfin : seg.hasFin = true) (closeCalled : Bool) :
      Edge (.onSegment seg) (.finWait1 closeCalled) (.simultaneousClose closeCalled)
  | finFinWait2 {seg : SegmentMeta} (hfin : seg.hasFin = true) (closeCalled : Bool) :
      Edge (.onSegment seg) (.finWait2 closeCalled) (.timeWait closeCalled)
  | ackFinWait1 {seg : SegmentMeta} (hack : seg.hasAck = true) (closeCalled : Bool) :
      Edge (.onSegment seg) (.finWait1 closeCalled) (.finWait2 closeCalled)
  | ackSimultaneousClose {seg : SegmentMeta} (hack : seg.hasAck = true) (closeCalled : Bool) :
      Edge (.onSegment seg) (.simultaneousClose closeCalled) (.timeWait closeCalled)
  | ackLastAck {seg : SegmentMeta} (hack : seg.hasAck = true) :
      Edge (.onSegment seg) (.lastAck false) .waitForCloseCall
  | ackLastAckClose {seg : SegmentMeta} (hack : seg.hasAck = true) :
      Edge (.onSegment seg) (.lastAck true) .closedAgain
  | closeFinWait1 : Edge .callClose (.finWait1 false) (.finWait1 true)
  | closeFinWait2 : Edge .callClose (.finWait2 false) (.finWait2 true)
  | closeLastAck : Edge .callClose (.lastAck false) (.lastAck true)
  | closeSimultaneousClose : Edge .callClose (.simultaneousClose false) (.simultaneousClose true)
  | closeWaitForCloseCall : Edge .callClose .waitForCloseCall .closedAgain
  | closeTimeWait : Edge .callClose (.timeWait false) (.timeWait true)
  | timeout {time : Time} : Edge (.onTimeTick time) (.timeWait false) .waitForCloseCall
  | timeoutClose {time : Time} : Edge (.onTimeTick time) (.timeWait true) .closedAgain
  | back {op : Op Time} : Edge op .closedAgain .closed

/-- A walk along the edges that carry one label. -/
abbrev Walk {Time : Type} (op : Op Time) : DiagramNode → DiagramNode → Prop :=
  Relation.ReflTransGen (Edge op)

end DiagramNode

namespace ConnectionState

open DiagramNode (Walk)

/-- The node of the drawing a state belongs to. -/
def node : ConnectionState → DiagramNode
  | .listen => .listen
  | .synSent => .synSent
  | .synReceived => .synReceived
  | .established .opened .opened _ _ => .established
  | .established .opened _ _ _ => .closeWait
  | .established .fin .opened closeCalled _ => .finWait1 closeCalled
  | .established .closed .opened closeCalled _ => .finWait2 closeCalled
  | .established .fin _ closeCalled true => .simultaneousClose closeCalled
  | .established .closed _ closeCalled true => .timeWait closeCalled
  | .established .fin _ closeCalled false => .lastAck closeCalled
  | .established .closed _ true false => .closedAgain
  | .established .closed _ false false => .waitForCloseCall
  | .timeWait => .timeWait true
  | .reset | .closed => .closed

/-- Nobody has asked for an end while our side is open, and we took the active
part if our FIN came first. -/
def InOrder : ConnectionState → Prop
  | .established t r closeCalled closeActive =>
      (t = .opened → closeCalled = false ∧ closeActive = false) ∧
        (t ≠ .opened → r = .opened → closeActive = true)
  | _ => True

theorem InOrder.reduced {s : ConnectionState} (h : s.InOrder) : s.reduced.InOrder := by
  unfold ConnectionState.reduced
  split
  · trivial
  · trivial
  · exact h

/-- Reducing a state follows the drawing. -/
theorem walk_reduced {Time : Type} (op : Op Time) (s : ConnectionState) :
    Walk op s.node s.reduced.node := by
  unfold ConnectionState.reduced
  split
  · exact .refl
  · exact .single .back
  · exact .refl

/-- The moves that the drawing does not show. -/
inductive Undrawn {Time : Type} : Op Time → ConnectionState → ConnectionState → Prop
  | abort {s s' : ConnectionState} : Undrawn .callAbort s s'
  | reset {op : Op Time} {s : ConnectionState} : Undrawn op s .reset
  /-- The output is ended before the handshake is over. -/
  | early {op : Op Time} {s' : ConnectionState} (hop : op.Ends) : Undrawn op .synReceived s'
  | bareFin {seg : SegmentMeta} {s' : ConnectionState} (hfin : Connection.BareFin seg) :
      Undrawn (.onSegment seg) .synReceived s'
  /-- A shutdown before there is a peer, where the drawing has a close. -/
  | cancel {s : ConnectionState} (hs : s = .listen ∨ s = .synSent) :
      Undrawn .callShutdown s .closed
  /-- A close behind the FIN of the peer, where the drawing has a shutdown first. -/
  | closeWait {s s' : ConnectionState} (hs : s.node = .closeWait)
      (hs' : s'.node = .lastAck true) : Undrawn .callClose s s'

variable {Time : Type} {op : Op Time} {s s' : ConnectionState}

/-- An arrow of an operation that ends nothing follows the drawing. -/
theorem Arrow.inOrder (harrow : Arrow false op s s') (h : s.InOrder) (hop : ¬ op.Ends) :
    s'.InOrder ∧ (Undrawn op s s' ∨ Walk op s.node s'.node) := by
  cases harrow with
  | connect hs =>
      refine ⟨trivial, .inr ?_⟩
      rcases hs with rfl | rfl <;> exact .single .connect
  | syn _ _ hsyn => exact ⟨trivial, .inr (.single (.syn hsyn))⟩
  | synAck _ hack hsyn =>
      exact ⟨⟨fun _ => ⟨rfl, rfl⟩, fun ht => absurd rfl ht⟩, .inr (.single (.synAck hsyn hack))⟩
  | ack _ hack =>
      exact ⟨⟨fun _ => ⟨rfl, rfl⟩, fun ht => absurd rfl ht⟩, .inr (.single (.ack hack))⟩
  | bareFin hfin => exact ⟨⟨fun _ => ⟨rfl, rfl⟩, fun ht => absurd rfl ht⟩, .inl (.bareFin hfin)⟩
  | earlyShutdown | closeActive => exact absurd (.inl rfl) hop
  | earlyClose | closeCalled => exact absurd (.inr rfl) hop
  | finSent hsent =>
      rcases hsent with hshut | hclose | ⟨hwaits, -⟩
      · exact absurd (.inl hshut) hop
      · exact absurd (.inr hclose) hop
      · cases hwaits
  | @finAcked _ r cc ca _ hack =>
      refine ⟨⟨fun ht => (nomatch ht), fun _ hr => h.2 (by decide) hr⟩, .inr ?_⟩
      cases r with
      | opened => exact .single (.ackFinWait1 hack cc)
      | fin | closed =>
          cases ca with
          | true => exact .single (.ackSimultaneousClose hack cc)
          | false =>
              cases cc with
              | true => exact .single (.ackLastAckClose hack)
              | false => exact .single (.ackLastAck hack)
  | @fin _ t r cc ca _ hfin hr =>
      refine ⟨⟨h.1, fun _ hr => (nomatch hr)⟩, .inr ?_⟩
      cases r with
      | closed => exact absurd rfl hr
      | fin => exact .refl
      | opened =>
          cases t with
          | opened => exact .single (.fin hfin)
          | fin =>
              obtain rfl : ca = true := h.2 (by decide) rfl
              exact .single (.finFinWait1 hfin cc)
          | closed =>
              obtain rfl : ca = true := h.2 (by decide) rfl
              exact .single (.finFinWait2 hfin cc)
  | @readEnd _ t cc ca =>
      refine ⟨⟨h.1, fun _ hr => (nomatch hr)⟩, .inr ?_⟩
      cases t with
      | opened => exact .refl
      | fin => cases ca <;> exact .refl
      | closed => cases ca <;> cases cc <;> exact .refl
  | wait => exact ⟨trivial, .inr .refl⟩
  | finish => exact ⟨trivial, .inr (.single .back)⟩
  | cancel hend => exact absurd hend hop
  | abort => exact ⟨trivial, .inl .abort⟩
  | timeout => exact ⟨trivial, .inr (Relation.ReflTransGen.head .timeoutClose (.single .back))⟩
  | refused | rst | badSyn => exact ⟨trivial, .inl .reset⟩
  | relisten hrst => exact ⟨trivial, .inr (.single (.rst hrst))⟩

/-- A segment finds no way on from Reset. -/
theorem Path.from_reset {seg : SegmentMeta} {waits : Bool}
    (h : Path waits (.onSegment seg : Op Time) .reset s') : s' = .reset := by
  rcases h.cases_head with heq | ⟨_, harrow, -⟩
  · exact heq.symm
  · cases harrow with
    | badSyn _ _ hs => rcases hs with hs | hs <;> cases hs
    | cancel hop => rcases hop with hop | hop <;> cases hop

/-- A path of an operation that ends nothing follows the drawing. -/
theorem Path.inOrder (hpath : Path false op s s') (h : s.InOrder) (hop : ¬ op.Ends) :
    s'.InOrder ∧ (Undrawn op s s' ∨ Walk op s.node s'.node) := by
  induction hpath using Relation.ReflTransGen.head_induction_on with
  | refl => exact ⟨h, .inr .refl⟩
  | @head a b harrow hpath ih =>
      obtain ⟨hb, hfirst⟩ := harrow.inOrder h hop
      obtain ⟨hlast, hrest⟩ := ih hb
      refine ⟨hlast, ?_⟩
      rcases hfirst with hundrawn | hfirst
      · cases hundrawn with
        | abort => exact .inl .abort
        | early hend => exact absurd hend hop
        | bareFin hfin => exact .inl (.bareFin hfin)
        | cancel => exact absurd (.inl rfl) hop
        | closeWait => exact absurd (.inr rfl) hop
        | reset =>
            by_cases ha : a = .reset
            · subst ha
              exact hrest.imp_left fun hundrawn => hundrawn
            · obtain ⟨seg, rfl⟩ := Path.into_reset (.single harrow) ha
              obtain rfl := Path.from_reset hpath
              exact .inl .reset
      · rcases hrest with hundrawn | hrest
        · left
          cases hundrawn with
          | abort => exact .abort
          | reset => exact .reset
          | early hend => exact absurd hend hop
          | cancel => exact absurd (.inl rfl) hop
          | closeWait => exact absurd (.inr rfl) hop
          | bareFin hfin =>
              -- Only a SYN enters SynReceived.
              cases harrow with
              | syn _ _ hsyn => exact absurd (hfin.2.1.symm.trans hsyn) (by decide)
        · exact .inr (hfirst.trans hrest)

end ConnectionState

namespace Connection

open ConnectionState
open DiagramNode (Walk)

variable {Addr Time : Type} [UserTime Time] {c c₁ c' : Connection Addr Time} {op : Op Time}
  {out : Output}

/-- A call that ends an open output finds room for a FIN in the send window.
Otherwise the FIN waits for a segment, which the drawing does not show. -/
def EndsWithRoom (c : Connection Addr Time) : Op Time → Prop
  | .callShutdown | .callClose => c.connectionState.isEstablished = true →
      c.connectionState.tx = .opened → c.tx.spaceAvailable ≠ 0#32
  | _ => True

instance (c : Connection Addr Time) : DecidablePred (EndsWithRoom c)
  | .callShutdown | .callClose => inferInstanceAs (Decidable (_ → _))
  | .callConnect | .callSend _ | .callRecv _ | .callAbort | .setOptions _ | .onSegment _
  | .onTimeTick _ => .isTrue trivial

/-- No FIN waits for room, and the state is in order. -/
structure Prompt (c : Connection Addr Time) : Prop where
  order : c.connectionState.InOrder
  sent : c.finWaits = false

omit [UserTime Time] in
theorem finWaits_of_wroteFin (h : c.connectionState.wroteFin = true) : c.finWaits = false := by
  rw [finWaits, h]
  exact Bool.and_false _

omit [UserTime Time] in
/-- A written FIN stays written as long as the queue is marked. -/
theorem TxEffect.keeps_wroteFin (effect : TxEffect c op out c')
    (hwrote : c.connectionState.wroteFin = true) (hfin : c'.tx.tx.fin = true) :
    c'.connectionState.wroteFin = true := by
  cases effect with
  | kept _ _ hstate =>
      rcases hstate with heq | ⟨-, -, heq, -⟩
      · rw [heq, hwrote]
      · rw [heq, hwrote]
  | cleared _ _ _ htx =>
      rw [htx] at hfin
      cases hfin
  | connecting hs =>
      rcases hs with hs | hs
      · rw [hs] at hwrote; cases hwrote
      · rw [hs] at hwrote; cases hwrote
  | answered hst => rw [hst] at hwrote; cases hwrote
  | queued _ hs =>
      rcases hs with hs | ⟨-, hs⟩
      · exact absurd (hs.symm.trans (ConnectionState.opening_of_wroteFin hwrote)) (by decide)
      · exact absurd (hs.symm.trans hwrote) (by decide)
  | appended _ _ _ hs | marked _ _ hs => exact absurd (hs.symm.trans hwrote) (by decide)
  | acked _ _ _ _ _ hstate => rw [hstate.wroteFin, hwrote]; rfl
  | stored _ _ _ _ _ _ _ hstate => rw [hstate.wroteFin, hwrote]; rfl
  | synAcked hst | opened hst => rw [hst] at hwrote; cases hwrote

omit [UserTime Time] in
/-- A marked queue whose FIN is written leaves no FIN waiting. -/
theorem TxEffect.keeps_sent (effect : TxEffect c op out c')
    (hwrote : c'.tx.tx.fin = true → c.connectionState.wroteFin = true) : c'.finWaits = false := by
  cases hfin : c'.tx.tx.fin with
  | false => rw [finWaits, hfin]; rfl
  | true => exact finWaits_of_wroteFin (effect.keeps_wroteFin (hwrote hfin) hfin)

/-- An operation that ends nothing leaves no FIN waiting. -/
theorem Prompt.finWaits_step (h : Prompt c) (hwf : WellFormed c) (hop : ¬ op.Ends)
    (hc : c.step op = .ok (c', out)) : c'.finWaits = false := by
  have effect := hwf.txEffect hc
  refine effect.keeps_sent fun hfin => ?_
  have hmarked : c.tx.tx.fin = true := (effect.marks_fin hfin).resolve_right hop
  have hsent := h.sent
  rw [finWaits, hmarked, Bool.true_and, Bool.not_eq_false'] at hsent
  exact hsent

/-- With room the FIN of an end leaves at once. -/
theorem sendAck_ends {r : ChannelState} {cc ca : Bool}
    (hst : c.connectionState = .established .opened r cc ca) (hempty : c.tx.tx.bytes = [])
    (hroom : c.tx.spaceAvailable ≠ 0#32) (h : c.marked.sendAck = .ok c') :
    c'.connectionState = .established .fin r cc ca := by
  rw [(sendAck_spec h).state, if_pos ((marked_sendsFin_iff hst hempty).mpr hroom),
    withQueue_connectionState, hst]
  rfl

omit [UserTime Time] in
/-- Recording a close moves to the variant with close called. -/
theorem walk_closeCalled {t r : ChannelState} {cc ca : Bool} (ht : t ≠ .opened)
    (h : (ConnectionState.established t r cc ca).InOrder) :
    (ConnectionState.established t r true ca).InOrder ∧
      Walk (.callClose : Op Time) (ConnectionState.established t r cc ca).node
        (ConnectionState.established t r true ca).node := by
  refine ⟨⟨fun hopen => absurd hopen ht, h.2⟩, ?_⟩
  cases cc with
  | true => exact .refl
  | false =>
      cases t with
      | opened => exact absurd rfl ht
      | fin =>
          cases r with
          | opened => exact .single .closeFinWait1
          | fin | closed =>
              cases ca with
              | true => exact .single .closeSimultaneousClose
              | false => exact .single .closeLastAck
      | closed =>
          cases r with
          | opened => exact .single .closeFinWait2
          | fin | closed =>
              cases ca with
              | true => exact .single .closeTimeWait
              | false => exact .single .closeWaitForCloseCall

/-- A close of an ended output is recorded. -/
theorem walk_closing {t r : ChannelState} {cc ca : Bool}
    (hst : c.connectionState = .established t r cc ca) (ht : t ≠ .opened)
    (h : c.connectionState.InOrder) :
    (c.closing (ca || decide (r = .opened))).connectionState.InOrder ∧
      Walk (.callClose : Op Time) c.connectionState.node
        (c.closing (ca || decide (r = .opened))).connectionState.node := by
  rw [hst] at h
  have hactive : (ca || decide (r = .opened)) = ca := by
    cases r with
    | opened => rw [h.2 ht rfl]; rfl
    | fin | closed => simp
  obtain ⟨horder, hwalk⟩ : (ConnectionState.established t r true ca).InOrder ∧
      Walk (.callClose : Op Time) _ _ := walk_closeCalled ht h
  have hstate : (c.closing (ca || decide (r = .opened))).connectionState =
      (ConnectionState.established t r true ca).reduced := by
    rw [closing_connectionState, hactive, hst]
    rfl
  rw [hstate, hst]
  exact ⟨horder.reduced, hwalk.trans (walk_reduced _ _)⟩

theorem walk_callShutdown (h : Prompt c) (hroom : EndsWithRoom c (.callShutdown : Op Time))
    {r : Except Error Unit} (hc : c.callShutdown = .ok (c', r)) :
    Prompt c' ∧ (Undrawn (.callShutdown : Op Time) c.connectionState c'.connectionState ∨
      Walk (.callShutdown : Op Time) c.connectionState.node c'.connectionState.node) := by
  have hend : Op.Ends (.callShutdown : Op Time) := .inl rfl
  have sent {r : ChannelState} {cc ca : Bool}
      (hst : c'.connectionState = .established .fin r cc ca) : c'.finWaits = false :=
    finWaits_of_wroteFin (by rw [hst]; rfl)
  cases shutdownStep_of_ok hc with
  | refused => exact ⟨h, .inr .refl⟩
  | delayed => exact ⟨⟨h.order, h.sent⟩, .inr .refl⟩
  | cleared hs => exact ⟨⟨trivial, rfl⟩, .inl (.cancel hs)⟩
  | @early c₁ hs =>
      have hstate := entered_connectionState c₁ (.established .fin .opened false true)
      refine ⟨⟨?_, sent hstate⟩, .inl ?_⟩
      · rw [hstate]
        exact ⟨fun ht => (nomatch ht), fun _ _ => rfl⟩
      · rw [hs]
        exact .early hend
  | @active cc ca _ hs hcc hempty _ hsend =>
      subst hcc
      have hentered := entered_connectionState c (.established .opened .opened false true)
      have hstate := sendAck_ends hentered (by rw [entered_tx]; exact hempty)
        (by rw [entered_tx]; exact hroom (by rw [hs]; rfl) (by rw [hs]; rfl)) hsend
      refine ⟨⟨?_, sent hstate⟩, .inr ?_⟩
      · rw [hstate]
        exact ⟨fun ht => (nomatch ht), fun _ _ => rfl⟩
      · rw [hstate, hs]
        exact .single .shutdown
  | @passive r cc ca _ hs hr hempty _ hsend =>
      have horder := h.order
      rw [hs] at horder
      obtain ⟨rfl, rfl⟩ := horder.1 rfl
      have hstate := sendAck_ends hs hempty (hroom (by rw [hs]; rfl) (by rw [hs]; rfl)) hsend
      refine ⟨⟨?_, sent hstate⟩, .inr ?_⟩
      · rw [hstate]
        exact ⟨fun ht => (nomatch ht), fun _ hopen => absurd hopen hr⟩
      · rw [hstate, hs]
        cases r with
        | opened => exact absurd rfl hr
        | fin | closed => exact .single .shutdownCloseWait

theorem walk_callClose (h : Prompt c) (hroom : EndsWithRoom c (.callClose : Op Time))
    (effect : TxEffect c .callClose out c') {r : Except Error Unit}
    (hc : c.callClose = .ok (c', r)) :
    Prompt c' ∧ (Undrawn (.callClose : Op Time) c.connectionState c'.connectionState ∨
      Walk (.callClose : Op Time) c.connectionState.node c'.connectionState.node) := by
  have hend : Op.Ends (.callClose : Op Time) := .inr rfl
  cases closeStep_of_ok hc with
  | refused => exact ⟨h, .inr .refl⟩
  | delayed => exact ⟨⟨h.order, h.sent⟩, .inr .refl⟩
  | cleared hs =>
      refine ⟨⟨trivial, rfl⟩, .inr ?_⟩
      rcases hs with hs | hs
      · rw [hs]
        exact .single .closeListen
      · rw [hs]
        exact .single .closeSynSent
  | @early c₁ _ hs =>
      have hstate : ((c₁.entered (.established .fin .opened true true)).suspend
          .bothClosed).connectionState = .established .fin .opened true true :=
        entered_connectionState c₁ _
      refine ⟨⟨?_, finWaits_of_wroteFin (by rw [hstate]; rfl)⟩, .inl ?_⟩
      · rw [hstate]
        exact ⟨fun ht => (nomatch ht), fun _ _ => rfl⟩
      · rw [hs]
        exact .early hend
  | @opened r cc ca c₁ _ hs hempty _ hsend =>
      have horder := h.order
      rw [hs] at horder
      obtain ⟨rfl, rfl⟩ := horder.1 rfl
      have hsent := sendAck_ends hs hempty (hroom (by rw [hs]; rfl) (by rw [hs]; rfl)) hsend
      have hstate : (c₁.closing (false || decide (r = .opened))).connectionState =
          .established .fin r true (decide (r = .opened)) := by
        rw [closing_connectionState, hsent]
        rfl
      refine ⟨⟨?_, finWaits_of_wroteFin (by rw [hstate]; rfl)⟩, ?_⟩
      · rw [hstate]
        exact ⟨fun ht => (nomatch ht), fun _ hr => decide_eq_true hr⟩
      · rw [hstate, hs]
        cases r with
        | opened => exact .inr (.single .close)
        | fin | closed => exact .inl (.closeWait rfl rfl)
  | @ended t _ _ _ _ hs ht =>
      obtain ⟨horder, hwalk⟩ := walk_closing hs ht h.order
      refine ⟨⟨horder, effect.keeps_sent fun _ => ?_⟩, .inr hwalk⟩
      rw [hs]
      cases t with
      | opened => exact absurd rfl ht
      | fin | closed => rfl

/-- One operation walks along the drawing, or makes a move that it does not show. -/
theorem Prompt.step (h : Prompt c) (hwf : WellFormed c) (hold : TimersHold c)
    (hmarks : MarksActive c) (hroom : EndsWithRoom c op) (hc : c.step op = .ok (c', out)) :
    Prompt c' ∧ (Undrawn op c.connectionState c'.connectionState ∨
      Walk op c.connectionState.node c'.connectionState.node) := by
  have effect := hwf.txEffect hc
  have other (hop : ¬ op.Ends) : Prompt c' ∧ (Undrawn op c.connectionState c'.connectionState ∨
      Walk op c.connectionState.node c'.connectionState.node) := by
    have hpath := path_step hwf hold hmarks hc
    rw [h.sent] at hpath
    obtain ⟨horder, hmove⟩ := hpath.inOrder h.order hop
    exact ⟨⟨horder, h.finWaits_step hwf hop hc⟩, hmove⟩
  cases opStep_of_ok hc with
  | callShutdown hc => exact walk_callShutdown h hroom hc
  | callClose hc => exact walk_callClose h hroom effect hc
  | callConnect | callSend | callRecv | callAbort | setOptions | onSegment | onTimeTick =>
      exact other (by rintro (h | h) <;> cases h)

theorem prompt_of_room (h : ReachableUnder EndsWithRoom c) : Prompt c := by
  refine Transition.ReachableUnder.invariant (P := Prompt) ?_ ?_ h
  · intro c hinit
    have hidle := hinit.fresh.2.2
    refine ⟨?_, ?_⟩
    · cases hst : c.connectionState with
      | established => rw [hst] at hidle; cases hidle
      | listen | synSent | synReceived | timeWait | reset | closed => trivial
    · rw [finWaits, ((Reachable.wellFormed (.init hinit)).idle hidle).1]
      rfl
  · rintro c op c' hreach hp hroom ⟨out, hc⟩
    exact (hp.step (Reachable.wellFormed hreach) (Reachable.timersHold hreach)
      (Reachable.marksActive hreach) hroom hc).1

/-- In a run whose ends find room, every operation walks along edges of the
drawing that carry its label, or makes a move that the drawing does not show. -/
theorem follows_diagram (h : ReachableUnder EndsWithRoom c) (hroom : EndsWithRoom c op)
    (hc : c.step op = .ok (c', out)) :
    Undrawn op c.connectionState c'.connectionState ∨
      Walk op c.connectionState.node c'.connectionState.node := by
  have hreach := h.reachable
  exact ((prompt_of_room h).step (Reachable.wellFormed hreach) (Reachable.timersHold hreach)
    (Reachable.marksActive hreach) hroom hc).2

/-- A FIN that acknowledges ours takes two edges at once. -/
theorem follows_diagram_finWait : ∃ (c c' : Connection Unit Nat) (seg : SegmentMeta),
    seg.hasFin = true ∧ seg.hasAck = true ∧
      c.connectionState.node = .finWait1 false ∧ c'.connectionState.node = .timeWait false ∧
        (Undrawn (.onSegment seg : Op Nat) c.connectionState c'.connectionState ∨
          Walk (.onSegment seg : Op Nat) (.finWait1 false) (.timeWait false)) := by
  obtain ⟨c, run, hroom, hnode, hlast⟩ : ∃ c : Connection Unit Nat, ReachableUnder EndsWithRoom c ∧
      EndsWithRoom c (.onSegment ⟨1#32, 2#32, 4096#16, .fin ||| .ack, []⟩) ∧
        c.connectionState.node = .finWait1 false ∧
          ((c.next (.onSegment ⟨1#32, 2#32, 4096#16, .fin ||| .ack, []⟩)).any fun c' =>
            decide (c'.connectionState.node = .timeWait false)) = true :=
    Transition.exists_reachableUnder step_of_next (initial_listening () .default zeroUser)
      [.onSegment ⟨0#32, 0#32, 4096#16, .syn, []⟩, .onSegment ⟨1#32, 1#32, 4096#16, .ack, []⟩,
        .callShutdown] (by decide)
  obtain ⟨c', hnext, hnode'⟩ := (Option.any_eq_true _ _).mp hlast
  obtain ⟨out, hc⟩ := step_of_next _ _ _ hnext
  have hwalk := follows_diagram run hroom hc
  rw [hnode, of_decide_eq_true hnode'] at hwalk
  exact ⟨c, c', _, rfl, rfl, hnode, of_decide_eq_true hnode', hwalk⟩

end Connection

end TcpState
