import TcpState.Connection.Stream
import TcpState.Listener.Steps
import TcpState.Model.Socket

/-!
# Segments that refuse

A RST is meant to end the other half of a connection and is never to be
answered itself. Who sends it chooses its fields from the refused segment
alone, and who receives it tests them against its own numbers.
-/

namespace TcpState

theorem responseToClosed_rst {seg : SegmentMeta} (hrst : seg.hasRst = true) :
    responseToClosed seg = .ok none := if_pos hrst

namespace Connection

variable {Addr Time : Type} [UserTime Time] {c c' : Connection Addr Time} {seg : SegmentMeta}

/-- The branch of SynSent that looks at the ACK before the RST. -/
def AnswersRst (c : Connection Addr Time) (seg : SegmentMeta) : Prop :=
  c.connectionState = .synSent ∧ seg.hasAck = true ∧
    seg.ackn.inRangeInclusive c.tx.unack c.tx.next = false

omit [UserTime Time] in
instance (c : Connection Addr Time) (seg : SegmentMeta) : Decidable (c.AnswersRst seg) := by
  unfold AnswersRst
  infer_instance

/-- The segments a RST is answered with. -/
def rstReplies (c : Connection Addr Time) (seg : SegmentMeta) : List SegmentMeta :=
  if c.AnswersRst seg then
    [{ seqn := seg.ackn, ackn := .zero, window := c.rx.currWindow, flags := .rst, data := [] }]
  else []

omit [UserTime Time] in
theorem rstReplies_eq_nil_iff : c.rstReplies seg = [] ↔ ¬ c.AnswersRst seg := by
  unfold rstReplies
  split
  · rename_i h
    exact ⟨fun hnil => absurd hnil (List.cons_ne_nil _ _), fun hno => absurd h hno⟩
  · rename_i h
    exact ⟨fun _ => h, fun _ => rfl⟩

/-- Outside that branch a RST is not answered. -/
theorem onSegment_rst (hrst : seg.hasRst = true) (hc : c.onSegment seg = .ok c') :
    c'.userData.sent = c.userData.sent ++ c.rstReplies seg := by
  have quiet (hst : c.connectionState ≠ .synSent) : c.userData.sent ++ c.rstReplies seg =
      c.userData.sent := by
    rw [rstReplies_eq_nil_iff.mpr fun h => hst h.1, List.append_nil]
  unfold Connection.onSegment at hc
  split at hc
  case h_1 hst | h_2 hst =>
    rw [quiet (by rw [hst]; decide)]
    rw [responseToClosed_rst hrst, Fallible.ok_bind] at hc
    obtain rfl := Fallible.pure_ok_iff.mp hc
    rfl
  case h_3 hst =>
    rw [quiet (by rw [hst]; decide)]
    cases listened_of_ok hc with
    | ignored => rfl
    | refused hrst' => exact absurd (hrst'.symm.trans hrst) Bool.false_ne_true
    | answered hrst' => exact absurd (hrst'.symm.trans hrst) Bool.false_ne_true
  case h_4 hst =>
    unfold onSegmentSynSent at hc
    split at hc
    · rename_i hack
      obtain rfl := Fallible.pure_ok_iff.mp hc
      have hanswers : c.AnswersRst seg := ⟨hst, by simpa using hack⟩
      rw [rstReplies, if_pos hanswers, send_sent]
    · rename_i hack
      have hquiet : ¬ c.AnswersRst seg := fun h => hack (by simpa using h.2)
      rw [rstReplies_eq_nil_iff.mpr hquiet, List.append_nil]
      obtain rfl := Fallible.pure_ok_iff.mp hc
      exact clear_sent c
  case h_5 hst | h_6 hst | h_7 hst =>
    rw [quiet (by rw [hst]; exact fun h => by cases h)]
    cases synchronizedStep_iff.mp hc with
    | dropped => rfl
    | rejected _ hrst' => exact absurd (hrst'.symm.trans hrst) Bool.false_ne_true
    | reset _ _ h => exact (Connection.onRst_spec h).sent.trans (List.append_nil _)
    | syn _ hrst' => exact absurd (hrst'.symm.trans hrst) Bool.false_ne_true
    | accepted _ hrst' => exact absurd (hrst'.symm.trans hrst) Bool.false_ne_true

end Connection

namespace Socket

variable {Addr Time : Type} [UserTime Time]

/-- A socket answers a RST where the connection in it does. -/
def AnswersRst (s : Socket Addr Time) (seg : SegmentMeta) : Prop :=
  ∃ c, s.inner = .connection c ∧ c.AnswersRst seg

theorem onSegment_rst {s s' : Socket Addr Time} {src : Addr} {seg : SegmentMeta}
    (hrst : seg.hasRst = true) (hs : s.onSegment src seg = .ok s') :
    s'.userData.sent = s.userData.sent ↔ ¬ s.AnswersRst seg := by
  unfold onSegment at hs
  split at hs
  · rename_i common hinner
    rw [responseToClosed_rst hrst, Fallible.ok_bind] at hs
    obtain rfl := Fallible.pure_ok_iff.mp hs
    refine ⟨fun _ => ?_, fun _ => rfl⟩
    rintro ⟨c, hc, -⟩
    rw [hinner] at hc
    cases hc
  · rename_i l hinner
    obtain rfl := Fallible.pure_ok_iff.mp hs
    have hignored : l.onSegment src seg = l := by
      unfold ListenSocket.onSegment
      rw [if_pos hrst]
    rw [hignored, ← hinner]
    refine ⟨fun _ => ?_, fun _ => rfl⟩
    rintro ⟨c, hc, -⟩
    rw [hinner] at hc
    cases hc
  · rename_i c hinner
    simp only [Fallible.bind_ok_iff, Fallible.pure_ok_iff] at hs
    obtain ⟨c', hc, rfl⟩ := hs
    have hsent := Connection.onSegment_rst hrst hc
    have hanswers : s.AnswersRst seg ↔ c.AnswersRst seg := by
      refine ⟨?_, fun h => ⟨c, hinner, h⟩⟩
      rintro ⟨c₁, hc₁, h⟩
      rw [hinner] at hc₁
      obtain rfl := SocketInner.connection.inj hc₁
      exact h
    have huser : s.userData = c.userData := by
      rw [userData, hinner]
      rfl
    rw [huser, hanswers, ← Connection.rstReplies_eq_nil_iff]
    change c'.userData.sent = c.userData.sent ↔ _
    rw [hsent, List.append_right_eq_self]

/-- On none of the three kinds of sockets a RST is answered, apart from the
connection that has sent its SYN and hears an ACK out of range. -/
theorem rst_unanswered_iff {seg : SegmentMeta} (hrst : seg.hasRst = true) :
    (∀ c c' : Connection Addr Time, c.onSegment seg = .ok c' →
      (c'.userData.sent = c.userData.sent ↔ ¬ c.AnswersRst seg)) ∧
    (∀ (l : ListenSocket Addr Time) (addr : Addr), l.onSegment addr seg = l) ∧
    ∀ (s s' : Socket Addr Time) (src : Addr), s.onSegment src seg = .ok s' →
      (s'.userData.sent = s.userData.sent ↔ ¬ s.AnswersRst seg) := by
  refine ⟨fun c c' hc => ?_, fun l addr => ?_, fun s s' src hs => onSegment_rst hrst hs⟩
  · rw [Connection.onSegment_rst hrst hc, List.append_right_eq_self]
    exact Connection.rstReplies_eq_nil_iff
  · unfold ListenSocket.onSegment
    rw [if_pos hrst]

/-- The RST of an established pair is taken without an answer. -/
theorem rst_unanswered_reset : ∃ c c' : Connection Unit Nat,
    c.connectionState.isEstablished = true ∧
      c.onSegment ⟨101#32, 0#32, 0#16, .rst, []⟩ = .ok c' ∧
      (c'.userData.sent = c.userData.sent ↔ ¬ c.AnswersRst ⟨101#32, 0#32, 0#16, .rst, []⟩) := by
  obtain ⟨c, -, hest, c', hc⟩ : ∃ c : Connection Unit Nat, Connection.Reachable c ∧
      c.connectionState.isEstablished = true ∧
        Fallible.Succeeds (c.onSegment ⟨101#32, 0#32, 0#16, .rst, []⟩) :=
    Transition.exists_reachableUnder Connection.step_of_next
      (Connection.initial_listening () .default Connection.zeroUser)
      [.onSegment ⟨100#32, 0#32, 1000#16, .syn, []⟩,
       .onSegment ⟨101#32, 1#32, 1000#16, .ack, []⟩] (by decide)
  exact ⟨c, c', hest, hc, (rst_unanswered_iff (by decide)).1 c c' hc⟩

/-- A connection that waits for the SYN-ACK answers the RST to another one. -/
theorem rst_answered : ¬ ∀ c c' : Connection Unit Nat, Connection.Reachable c →
    ∀ seg : SegmentMeta, seg.hasRst = true → c.onSegment seg = .ok c' →
      c'.userData.sent = c.userData.sent := by
  intro hall
  obtain ⟨c, hreach, hst, hsent⟩ : ∃ c : Connection Unit Nat, Connection.Reachable c ∧
      Fallible.Succeeds (c.onSegment ⟨0#32, 7#32, 0#16, .rst ||| .ack, []⟩) ∧
        c.rstReplies ⟨0#32, 7#32, 0#16, .rst ||| .ack, []⟩ ≠ [] :=
    Transition.exists_reachableUnder Connection.step_of_next
      (Connection.initial_new () Connection.zeroUser) [.callConnect] (by decide)
  obtain ⟨c', hc⟩ := hst
  have hquiet := hall c c' hreach _ (by decide) hc
  rw [Connection.onSegment_rst (by decide) hc, List.append_right_eq_self] at hquiet
  exact hsent hquiet

end Socket

namespace Connection

variable {Addr Time : Type} [UserTime Time] {c c' : Connection Addr Time} {seg : SegmentMeta}
  {t : Transcript}

/-- What a closed socket answers to an acknowledging segment. -/
theorem responseToClosed_ack (hrst : seg.hasRst = false) (hack : seg.hasAck = true)
    (hsize : seg.data.length < 2 ^ 32) : responseToClosed seg =
      .ok (some { seqn := .zero, ackn := seg.seqn + BitVec.ofNat 32 seg.data.length,
                  window := 0#16, flags := .rst ||| .ack, data := [] }) := by
  unfold responseToClosed
  rw [if_neg (Bool.eq_false_iff.mp hrst), if_pos hack, if_pos hsize]
  rfl

/-- The RST ends an established connection exactly when it is acceptable. -/
theorem onSegment_resets_iff (hest : c.connectionState.isEstablished = true)
    (hrst : seg.hasRst = true) :
    (∃ c', c.onSegment seg = .ok c' ∧ c'.connectionState = .reset) ↔
      c.checkSegmentSeqOk seg = true := by
  obtain ⟨t, r, cc, ca, hst⟩ : ∃ t r cc ca, c.connectionState = .established t r cc ca := by
    cases hst : c.connectionState with
    | established t r cc ca => exact ⟨t, r, cc, ca, rfl⟩
    | _ => rw [hst] at hest; cases hest
  have hseg (c' : Connection Addr Time) : c.onSegment seg = .ok c' ↔ SynchronizedStep c seg c' := by
    rw [Connection.onSegment, hst]
    exact synchronizedStep_iff
  constructor
  · rintro ⟨c', hc, hreset⟩
    by_contra hcheck
    cases (hseg c').mp hc with
    | dropped => rw [hst] at hreset; cases hreset
    | rejected _ hrst' => exact absurd (hrst'.symm.trans hrst) Bool.false_ne_true
    | reset h | syn h | accepted h => exact hcheck h
  · intro hcheck
    let c₀ := ((c.windowed seg).triggerEvent (fun _ => true) (.error .connectionReset)).clear
    have hreset : (c.windowed seg).onRst = .ok (c₀.stateSet .reset) := by
      unfold onRst
      rw [show (c.windowed seg).connectionState = .established t r cc ca from hst]
      exact setState_eq_ok trivial (by simp)
    refine ⟨_, (hseg _).mpr (.reset hcheck hrst hreset), ?_⟩
    rw [stateSet_reset, entered_connectionState]

/-- The number zero is one the connection expects. -/
def ExpectsZero (c : Connection Addr Time) : Prop :=
  if c.rx.currWindow = 0#16 then c.rx.ackd = .zero else c.rx.inWindow .zero = true

omit [UserTime Time] in
theorem checkSegmentSeqOk_zero (hseqn : seg.seqn = .zero) (hsize : seg.seqSize = 0#32) :
    c.checkSegmentSeqOk seg = true ↔ c.ExpectsZero := by
  unfold checkSegmentSeqOk ExpectsZero
  rw [hseqn, hsize]
  split
  · simp [eq_comm]
  · simp

/-- A closed socket that hears a segment of an established connection resets it
exactly when the connection expects the number zero. -/
theorem half_open_detected_iff (run : (Transcript.watch Addr Time).Reachable c t)
    (hest : c.connectionState.isEstablished = true) {s : SegmentMeta}
    (hs : s ∈ t.fresh ++ t.repeated)
    (hack : s.hasAck = true) (hrst : s.hasRst = false) :
    (∃ reply, responseToClosed s = .ok (some reply) ∧
      ∃ c', c.onSegment reply = .ok c' ∧ c'.connectionState = .reset) ↔ c.ExpectsZero := by
  have hshort := (Transcript.transcribes_of_reachable run).faithful.size s hs
  rw [maxSegmentSize] at hshort
  have hreply := responseToClosed_ack hrst hack (by omega)
  rw [hreply]
  have hflags : (SegmentFlags.rst ||| SegmentFlags.ack).contains .rst = true := by decide
  have hsize : (⟨.zero, s.seqn + BitVec.ofNat 32 s.data.length, 0#16, .rst ||| .ack, []⟩ :
      SegmentMeta).seqSize = 0#32 := (bare_of_rst _ rfl (.inr rfl)).2
  constructor
  · rintro ⟨reply, hr, hreset⟩
    obtain rfl := Option.some.inj (Except.ok.inj hr)
    rw [onSegment_resets_iff hest hflags] at hreset
    exact (checkSegmentSeqOk_zero rfl hsize).mp hreset
  · intro hzero
    refine ⟨_, rfl, (onSegment_resets_iff hest hflags).mpr ?_⟩
    exact (checkSegmentSeqOk_zero rfl hsize).mpr hzero

/-- Close to the wrap of the peer's numbers the connection expects zero. -/
theorem half_open_detected_wrap : ∃ (c : Connection Unit Nat) (s : SegmentMeta),
    c.connectionState.isEstablished = true ∧ s.data = [1] ∧ c.ExpectsZero ∧
      ((∃ reply, responseToClosed s = .ok (some reply) ∧
        ∃ c', c.onSegment reply = .ok c' ∧ c'.connectionState = .reset) ↔ c.ExpectsZero) := by
  obtain ⟨⟨c, t⟩, hreach, hest, hzero, hmem⟩ : ∃ s : Connection Unit Nat × Transcript,
      Transition.Reachable (Transcript.watch Unit Nat).system s ∧
        s.1.connectionState.isEstablished = true ∧
        (if s.1.rx.currWindow = 0#16 then s.1.rx.ackd = .zero else s.1.rx.inWindow .zero = true) ∧
        (⟨1#32, 0xffffffff#32, 4096#16, .ack, [1]⟩ : SegmentMeta) ∈ s.2.fresh ++ s.2.repeated :=
    Transition.exists_reachableUnder (Transcript.watch Unit Nat).step_of_next
      ((Transcript.watch Unit Nat).init_start (initial_listening () .default zeroUser))
      [.onSegment ⟨0xfffffffe#32, 0#32, 1000#16, .syn, []⟩,
       .onSegment ⟨0xffffffff#32, 1#32, 1000#16, .ack, []⟩, .callSend [1]] (by decide)
  exact ⟨c, _, hest, rfl, hzero, half_open_detected_iff hreach hest hmem (by decide) (by decide)⟩

/-- Anywhere else the RST is dropped and the connection stays half open. -/
theorem half_open_undetected : ¬ ∀ (c : Connection Unit Nat) (t : Transcript),
    (Transcript.watch Unit Nat).Reachable c t → c.connectionState.isEstablished = true →
      ∀ s ∈ t.fresh ++ t.repeated, s.hasAck = true → s.hasRst = false →
        ∃ reply, responseToClosed s = .ok (some reply) ∧
          ∃ c', c.onSegment reply = .ok c' ∧ c'.connectionState = .reset := by
  intro hall
  obtain ⟨⟨c, t⟩, hreach, hest, hcheck, hmem⟩ : ∃ s : Connection Unit Nat × Transcript,
      Transition.Reachable (Transcript.watch Unit Nat).system s ∧
        s.1.connectionState.isEstablished = true ∧
        s.1.checkSegmentSeqOk ⟨0#32, 2#32, 0#16, .rst ||| .ack, []⟩ = false ∧
        (⟨1#32, 101#32, 4096#16, .ack, [1]⟩ : SegmentMeta) ∈ s.2.fresh ++ s.2.repeated :=
    Transition.exists_reachableUnder (Transcript.watch Unit Nat).step_of_next
      ((Transcript.watch Unit Nat).init_start (initial_listening () .default zeroUser))
      [.onSegment ⟨100#32, 0#32, 1000#16, .syn, []⟩,
       .onSegment ⟨101#32, 1#32, 1000#16, .ack, []⟩, .callSend [1]] (by decide)
  obtain ⟨reply, hreply, hreset⟩ := hall c t hreach hest _ hmem (by decide) (by decide)
  have hzero : responseToClosed ⟨1#32, 101#32, 4096#16, .ack, [1]⟩ =
      .ok (some ⟨0#32, 2#32, 0#16, .rst ||| .ack, []⟩) := by decide
  rw [hzero] at hreply
  obtain rfl := Option.some.inj (Except.ok.inj hreply)
  rw [onSegment_resets_iff hest (by decide), hcheck] at hreset
  cases hreset

/-- The SYN of a connection that waits for the SYN-ACK. -/
structure Syn (c : Connection Addr Time) (s : SegmentMeta) : Prop where
  seqn : s.seqn = c.tx.initSeqn
  ackn : s.ackn = .zero
  flags : s.flags = .syn
  data : s.data = []

/-- Only its SYN waits for an acknowledgement. -/
theorem syn_of_reachable (h : Reachable c) (hst : c.connectionState = .synSent) :
    ∀ s ∈ c.tx.reTx, c.Syn s := by
  refine txInvariant (P := fun c => c.connectionState = .synSent → ∀ s ∈ c.tx.reTx, c.Syn s)
    ?_ ?_ h hst
  · intro c hinit _
    rw [((Reachable.wellFormed (.init hinit)).idle hinit.fresh.2.2).1]
    exact List.forall_mem_nil _
  · intro c op out c' hwf hp _ effect hst'
    have keep (hwas : c.connectionState = .synSent) (hre : c'.tx.reTx ⊆ c.tx.reTx)
        (hinit : c'.tx.initSeqn = c.tx.initSeqn) : ∀ s ∈ c'.tx.reTx, c'.Syn s := by
      intro s hs
      have hsyn := hp hwas s (hre hs)
      exact ⟨hsyn.seqn.trans hinit.symm, hsyn.ackn, hsyn.flags, hsyn.data⟩
    have unsynced (hsync : c'.connectionState.synced = true) : ∀ s ∈ c'.tx.reTx, c'.Syn s := by
      rw [hst'] at hsync
      cases hsync
    cases effect with
    | kept _ htx hstate =>
        rcases hstate with hsame | ⟨-, hsync, -⟩
        · have hre : c'.tx.reTx ⊆ c.tx.reTx := by
            rw [htx.reTx]
            exact List.Subset.refl _
          exact keep (hsame.symm.trans hst') hre htx.initSeqn
        · exact unsynced hsync
    | cleared _ hidle => rw [hst'] at hidle; cases hidle
    | connecting hs _ hc =>
        have hidle : c.connectionState.idle = true := by
          rcases hs with hs | hs <;> rw [hs] <;> rfl
        have hsize : c.synSegment.seqSize = 1#32 := seqSize_of_syn (.inl rfl) rfl
        intro s hmem
        rw [hc.tx, (hwf.idle hidle).1, TxBuffer.onSend_reTx, if_neg (by rw [hsize]; decide)] at hmem
        obtain rfl := List.mem_singleton.mp hmem
        refine ⟨?_, rfl, rfl, rfl⟩
        rw [hc.tx, TxBuffer.onSend_initSeqn]
        rfl
    | answered _ _ _ hc => rw [hc.state] at hst'; cases hst'
    | queued _ _ _ htx hstate =>
        refine keep (hstate.symm.trans hst') ?_ ?_ <;> rw [htx]
        exact List.Subset.refl _
    | appended _ _ hsync _ _ _ _ hstate => exact unsynced (by rw [hstate]; exact hsync)
    | marked _ _ _ _ _ _ _ _ _ _ hsync => exact unsynced hsync
    | acked _ _ _ _ _ hstate => exact unsynced hstate.synced
    | stored _ _ _ _ _ _ _ hstate => exact unsynced hstate.synced
    | synAcked hwas => exact keep hwas (List.dropWhile_sublist _).subset rfl
    | opened _ _ _ _ _ _ _ hstate => exact unsynced (by rw [hstate]; rfl)

/-- A RST ends a connection that waits for the SYN-ACK unless it is answered. -/
theorem onSegment_refused_iff (hst : c.connectionState = .synSent) (hrst : seg.hasRst = true) :
    (∃ c', c.onSegment seg = .ok c' ∧ c'.connectionState = .reset ∧
      c'.userData.sent = c.userData.sent) ↔ ¬ c.AnswersRst seg := by
  constructor
  · rintro ⟨c', hc, -, hsent⟩
    rw [onSegment_rst hrst hc, List.append_right_eq_self] at hsent
    exact rstReplies_eq_nil_iff.mp hsent
  · intro hquiet
    refine ⟨c.reset, ?_, rfl, clear_sent c⟩
    have hack : ¬ (seg.hasAck && !seg.ackn.inRangeInclusive c.tx.unack c.tx.next) = true :=
      fun h => hquiet ⟨hst, by simpa using h⟩
    rw [Connection.onSegment, hst]
    change c.onSegmentSynSent seg = _
    unfold onSegmentSynSent
    rw [if_neg hack, if_pos hrst]
    rfl

/-- Zero acknowledges a SYN only with the two numbers around it. -/
theorem inRange_zero_iff {isn : SeqN} : SeqN.inRangeInclusive .zero isn (isn + 1#32) = true ↔
    isn = 0#32 ∨ isn = 0xffffffff#32 := by
  have hone : Circular.span isn (isn + 1#32) = 1 := Circular.span_add_ofNat isn (by decide)
  rw [SeqN.inRangeInclusive_iff, hone, Circular.span, SeqN.zero]
  constructor
  · intro h
    have hlt := isn.isLt
    rw [BitVec.toNat_sub, BitVec.toNat_ofNat] at h
    by_cases hzero : isn.toNat = 0
    · exact .inl (BitVec.eq_of_toNat_eq hzero)
    · refine .inr (BitVec.eq_of_toNat_eq ?_)
      rw [BitVec.toNat_ofNat]
      omega
  · rintro (rfl | rfl) <;> decide

end Connection

namespace ListenSocket

variable {Addr Time : Type} {l : ListenSocket Addr Time} {addr : Addr} {s answer : SegmentMeta}

/-- How a listening socket turns down a segment. -/
inductive Turn
  | backlogFull
  | closed
  | drained
deriving DecidableEq

/-- The listening socket turns the segment down with the answer: on arrival,
because the backlog is full or the socket closed, or as an entry of the queue
that `call_close` empties. -/
def TurnsDown (l : ListenSocket Addr Time) (addr : Addr) (s answer : SegmentMeta) : Turn → Prop
  | .backlogFull => l.isOpen = true ∧ l.backlog ≤ l.queue.length ∧
      (l.onSegment addr s).userData.outgoing = l.userData.outgoing ++ [(addr, answer)]
  | .closed => l.isOpen = false ∧
      (l.onSegment addr s).userData.outgoing = l.userData.outgoing ++ [(addr, answer)]
  | .drained => ∃ i : Nat, l.queue[i]? = some (addr, s) ∧
      (l.callClose.userData.outgoing.drop l.userData.outgoing.length)[i]? = some (addr, answer)

/-- The answer is the refusal of the source for that case. -/
theorem TurnsDown.answer_eq {turn : Turn} (h : l.TurnsDown addr s answer turn)
    (hflags : s.flags = .syn) : answer = match turn with
      | .backlogFull => backlogRefusal s
      | .closed | .drained => refusal s := by
  have hrst : s.hasRst = false := by rw [SegmentMeta.hasRst, hflags]; decide
  have hack : s.hasAck = false := by rw [SegmentMeta.hasAck, hflags]; decide
  have hsyn : s.hasSyn = true := by rw [SegmentMeta.hasSyn, hflags]; decide
  have said {g : SegmentMeta} {l' : ListenSocket Addr Time}
      (hout : l'.userData.outgoing = l.userData.outgoing ++ [(addr, answer)])
      (hl' : l'.userData = l.userData.send addr g) : answer = g := by
    rw [hl', UserData.outgoing_send] at hout
    have := List.append_cancel_left hout
    simpa using this.symm
  have harrived := l.arrived addr s
  generalize hl' : l.onSegment addr s = l' at harrived
  cases turn with
  | backlogFull =>
      obtain ⟨hopen, hfull, hout⟩ := h
      rw [hl'] at hout
      cases harrived with
      | ignored h =>
          rcases h with h | ⟨-, -, h⟩
          · exact absurd (hrst.symm.trans h) Bool.false_ne_true
          · exact absurd (h.symm.trans hsyn) Bool.false_ne_true
      | refused _ h =>
          rcases h with h | h
          · exact absurd (hack.symm.trans h) Bool.false_ne_true
          · exact absurd (h.symm.trans hopen) Bool.false_ne_true
      | full => exact said hout rfl
      | queued _ _ _ _ hroom => omega
      | woke _ _ _ _ hroom => omega
  | closed =>
      obtain ⟨hclosed, hout⟩ := h
      rw [hl'] at hout
      cases harrived with
      | ignored h =>
          rcases h with h | ⟨h, -⟩
          · exact absurd (hrst.symm.trans h) Bool.false_ne_true
          · exact absurd (hclosed.symm.trans h) Bool.false_ne_true
      | refused => exact said hout rfl
      | full _ _ _ hopen => exact absurd (hclosed.symm.trans hopen) Bool.false_ne_true
      | queued _ _ _ hopen => exact absurd (hclosed.symm.trans hopen) Bool.false_ne_true
      | woke _ _ _ hopen => exact absurd (hclosed.symm.trans hopen) Bool.false_ne_true
  | drained =>
      obtain ⟨i, hi, hanswer⟩ := h
      rw [l.callClose_spec.2.2.2.2.2, List.drop_left, List.getElem?_map, hi] at hanswer
      exact (Prod.mk.inj (Option.some.inj hanswer)).2.symm

variable [UserTime Time] {c : Connection Addr Time}

/-- A connection whose SYN is turned down ends without a word, unless the
backlog was full and its initial number is neither zero nor the last one. -/
theorem refused_is_told_iff (run : Connection.Reachable c) (hst : c.connectionState = .synSent)
    (hs : s ∈ c.tx.reTx) {turn : Turn} (h : l.TurnsDown addr s answer turn) :
    (∃ c', c.onSegment answer = .ok c' ∧ c'.connectionState = .reset ∧
      c'.userData.sent = c.userData.sent) ↔
    turn ≠ .backlogFull ∨ c.tx.initSeqn = 0#32 ∨ c.tx.initSeqn = 0xffffffff#32 := by
  have hsyn := Connection.syn_of_reachable run hst s hs
  have hanswer := h.answer_eq hsyn.flags
  obtain ⟨hunack, hnext⟩ := run.wellFormed.opening (by rw [hst]; rfl)
  have hrst : answer.hasRst = true := by
    rw [hanswer]
    cases turn with
    | backlogFull =>
        change (SegmentFlags.ack ||| SegmentFlags.rst).contains .rst = true
        decide
    | closed | drained =>
        change SegmentFlags.rst.contains .rst = true
        decide
  rw [Connection.onSegment_refused_iff hst hrst, Connection.AnswersRst, hunack, hnext]
  cases turn with
  | backlogFull =>
      have hack : answer.hasAck = true := by
        rw [hanswer]
        change (SegmentFlags.ack ||| SegmentFlags.rst).contains .ack = true
        decide
      have hackn : answer.ackn = .zero := by rw [hanswer]; rfl
      rw [hackn, ← Connection.inRange_zero_iff, ← Bool.not_eq_true]
      simp [hst, hack]
  | closed | drained =>
      have hack : answer.hasAck = false := by
        rw [hanswer]
        change SegmentFlags.rst.contains .ack = false
        decide
      simp [hack]

/-- A full backlog leaves a connection with the initial number 7 waiting, and
has it answer. -/
theorem refusal_not_told : ¬ ∀ (c : Connection Unit Nat) (l : ListenSocket Unit Nat)
    (addr : Unit) (s answer : SegmentMeta) (turn : Turn), Connection.Reachable c →
      c.connectionState = .synSent → s ∈ c.tx.reTx → l.TurnsDown addr s answer turn →
      ∃ c', c.onSegment answer = .ok c' ∧ c'.connectionState = .reset ∧
        c'.userData.sent = c.userData.sent := by
  intro hall
  let user : UserData Unit Nat := ⟨[], fun _ => 7#32, fun _ => 0⟩
  let syn : SegmentMeta := ⟨7#32, 0#32, 4096#16, .syn, []⟩
  obtain ⟨c, hreach, hst, hsyn, hanswers⟩ : ∃ c : Connection Unit Nat, Connection.Reachable c ∧
      c.connectionState = .synSent ∧ (⟨7#32, 0#32, 4096#16, .syn, []⟩ : SegmentMeta) ∈ c.tx.reTx ∧
        c.AnswersRst ⟨1#32, 0#32, 0#16, .ack ||| .rst, []⟩ :=
    Transition.exists_reachableUnder Connection.step_of_next
      (Connection.initial_new () user) [.callConnect] (by decide)
  obtain hreset := hall c { (callListen 1 user) with queue := [((), syn)] } () syn
    ⟨1#32, 0#32, 0#16, .ack ||| .rst, []⟩ .backlogFull hreach hst hsyn ⟨rfl, Nat.le_refl _, by
      decide⟩
  exact (Connection.onSegment_refused_iff hst (by decide)).mp hreset hanswers

/-- A connection whose SYN finds the socket closed ends without a word. -/
theorem refused_is_told_closed : ∃ (c : Connection Unit Nat) (answer : SegmentMeta),
    c.connectionState = .synSent ∧ ∃ c', c.onSegment answer = .ok c' ∧
      c'.connectionState = .reset ∧ c'.userData.sent = c.userData.sent := by
  let user : UserData Unit Nat := ⟨[], fun _ => 7#32, fun _ => 0⟩
  let syn : SegmentMeta := ⟨7#32, 0#32, 4096#16, .syn, []⟩
  obtain ⟨c, hreach, hst, hsyn⟩ : ∃ c : Connection Unit Nat, Connection.Reachable c ∧
      c.connectionState = .synSent ∧ (⟨7#32, 0#32, 4096#16, .syn, []⟩ : SegmentMeta) ∈ c.tx.reTx :=
    Transition.exists_reachableUnder Connection.step_of_next
      (Connection.initial_new () user) [.callConnect] (by decide)
  have hturn : (callListen 1 user).callClose.TurnsDown () syn ⟨0#32, 0#32, 0#16, .rst, []⟩
      .closed := ⟨rfl, by decide⟩
  exact ⟨c, _, hst, (refused_is_told_iff hreach hst hsyn hturn).mpr (.inl (by decide))⟩

end ListenSocket

end TcpState
