import TcpState.Connection.Backoff
import TcpState.Connection.Idling

/-!
# The two tests of the send window

`unack_has_space` compares circularly and counts the end of the window as
inside, `space_available` subtracts wrapped values. They agree about the room
in the window exactly while there is some. A full window, and a window that has
shrunk below what is in flight, part them.
-/

namespace TcpState

namespace TxBuffer

/-- Both tests know the room in the window: one tells whether there is any, and
the other how much. -/
def TestsAgree (tx : TxBuffer) : Prop :=
  (tx.unackHasSpace = true ↔ tx.flight < tx.window.toNat) ∧
    tx.spaceAvailable.toNat =
      if tx.flight < tx.window.toNat then tx.window.toNat - tx.flight else 0

/-- Without room one of the tests is wrong: at the end of the window the first,
behind it the second. -/
theorem testsAgree_iff (tx : TxBuffer) : tx.TestsAgree ↔ tx.flight < tx.window.toNat := by
  have hflight : tx.flight < 2 ^ 32 := (tx.next - tx.unack).isLt
  have hwindow := tx.window.isLt
  have hspace := tx.spaceAvailable_toNat
  rw [TestsAgree, unackHasSpace_iff]
  constructor
  · rintro ⟨htest, hcount⟩
    by_contra hfull
    rw [if_neg hfull] at hcount
    split at hspace
    · exact hfull (htest.mp (by omega))
    · omega
  · intro hlt
    rw [if_pos (Nat.le_of_lt hlt), room] at hspace
    rw [if_pos hlt, hspace]
    exact ⟨iff_of_true (by omega) hlt, rfl⟩

end TxBuffer

namespace Connection

variable {Addr Time : Type}

/-- One segment takes what is unsent and leaves room: either it takes
everything, or it is full and there is room for more than a full segment. -/
def FitsIn (unsent room : Nat) : Prop := unsent < room ∨ maxSegmentSize < room

instance (unsent room : Nat) : Decidable (FitsIn unsent room) :=
  inferInstanceAs (Decidable (_ ∨ _))

theorem FitsIn.room_pos {unsent room : Nat} (h : FitsIn unsent room) : 0 < room := by
  rcases h with h | h
  · exact Nat.zero_lt_of_lt h
  · exact Nat.zero_lt_of_lt h

/-- The sequence numbers that wait to be sent, with a FIN that is marked. -/
def unsent (c : Connection Addr Time) : Nat :=
  c.tx.tx.bytes.length + (c.tx.tx.fin && !c.connectionState.wroteFin).toNat

/-- An accepted segment leads to Established, or leaves the connection there. -/
def staysOpen (c : Connection Addr Time) (seg : SegmentMeta) : Bool :=
  match c.connectionState with
  | .synReceived =>
      if seg.hasAck then seg.ackn.inRangeInclusive c.tx.unack c.tx.next else seg.hasFin
  | .established .fin .closed true _ => !(seg.hasAck && decide (seg.ackn = c.tx.next))
  | .established _ _ _ _ => true
  | _ => false

/-- The operation leaves room in the send window of an open connection. -/
def LeavesRoom (c : Connection Addr Time) : Op Time → Prop
  | .callSend inputData =>
      c.connectionState.isEstablished = true →
        maxSegmentSize ≤ c.tx.tx.bytes.length + inputData.length ∨
            c.options.nagleDelay = Duration.zero →
          FitsIn (c.tx.tx.bytes.length + inputData.length) c.tx.room
  | .callShutdown | .callClose =>
      c.Peered → c.connectionState.wroteFin = false → c.tx.tx.bytes = [] → c.noSenders →
        FitsIn 1 c.tx.room
  | .onSegment seg =>
      (c.OpensBy (.onSegment seg : Op Time) → FitsIn c.unsent seg.window.toNat) ∧
        (c.checkSegmentSeqOk seg = true → seg.hasRst = false → seg.hasSyn = false →
          c.staysOpen seg = true →
            if c.Stores seg then FitsIn c.unsent (c.takenTx seg).room
            else 0 < (c.takenTx seg).room)
  | _ => True

instance (c : Connection Addr Time) : DecidablePred c.LeavesRoom
  | .callSend _ => inferInstanceAs (Decidable (_ → _))
  | .callShutdown | .callClose => inferInstanceAs (Decidable (_ → _))
  | .onSegment _ => inferInstanceAs (Decidable (_ ∧ _))
  | .callConnect | .callRecv _ | .callAbort | .setOptions _ | .onTimeTick _ => .isTrue trivial

variable {c c₀ c₁ c₂ c' : Connection Addr Time} {seg : SegmentMeta}

/-- No segment takes more than what is unsent. -/
theorem outSegment_le_unsent (c : Connection Addr Time) :
    c.outData.length + c.sendsFin.toNat ≤ c.unsent := by
  have hdata : c.outData.length ≤ c.tx.tx.bytes.length := List.length_take_le' _ _
  have hfin : c.sendsFin.toNat ≤ (c.tx.tx.fin && !c.connectionState.wroteFin).toNat := by
    apply Bool.toNat_le_toNat
    intro h
    obtain ⟨-, hmarked, hwrote⟩ := sendsFin_iff.mp h
    rw [hmarked, hwrote]
    rfl
  exact Nat.add_le_add hdata hfin

/-- Sending what fits leaves room. -/
theorem TxSent.room_pos (ht : TxSent c₀ c') (h : FitsIn c₀.unsent c₀.tx.room) :
    0 < c'.tx.room := by
  have hroom := h.room_pos
  have hwindow := c₀.tx.window.isLt
  have htaken : c₀.outData.length + c₀.sendsFin.toNat < c₀.tx.room := by
    rcases h with hall | hfull
    · exact c₀.outSegment_le_unsent.trans_lt hall
    · exact (c₀.outSegment_le_outLimit.trans (min_le_left _ _)).trans_lt hfull
  rw [TxBuffer.room] at hroom htaken
  have hflight : c'.tx.flight = c₀.tx.flight + (c₀.outData.length + c₀.sendsFin.toNat) := by
    have hnext := Circular.add_ofNat_span c₀.tx.unack c₀.tx.next
    rw [TxBuffer.flight, ht.unack, ht.next, outSegment_seqSize, ← hnext, Circular.add_ofNat_add]
    exact Circular.span_add_ofNat _ (by rw [← TxBuffer.flight]; omega)
  rw [TxBuffer.room, hflight, ht.window]
  omega

theorem room_congr (hunack : c'.tx.unack = c.tx.unack) (hnext : c'.tx.next = c.tx.next)
    (hwindow : c'.tx.window = c.tx.window) : c'.tx.room = c.tx.room := by
  rw [TxBuffer.room, TxBuffer.room, TxBuffer.flight, TxBuffer.flight, hunack, hnext, hwindow]

variable [UserTime Time]

/-- The connection is over. -/
def Ended (c : Connection Addr Time) : Prop :=
  c.connectionState = .timeWait ∨ c.connectionState = .closed

omit [UserTime Time] in
theorem Ended.not_established (h : Ended c) : c.connectionState.isEstablished = false := by
  rcases h with h | h <;> rw [h] <;> rfl

/-- The connection is over, or the segment acknowledges the FIN of a connection
that has read everything and was asked to close. -/
def Finishes (c : Connection Addr Time) (seg : SegmentMeta) : Prop :=
  c.connectionState = .timeWait ∨ (∃ ca, c.connectionState = .established .fin .closed true ca) ∧
    seg.hasAck = true ∧ seg.ackn = c.tx.next

theorem Finishes.onFinAcked (h : c.Finishes seg) (hc : c.onFinAcked seg.ackn = .ok c') :
    Ended c' := by
  rcases onFinAcked_ok_iff.mp hc with ⟨r, cc, ca, hfin, -, -, -, rfl⟩ | ⟨hno, rfl⟩
  · rcases h with hwait | ⟨⟨ca', hest⟩, -⟩
    · rw [hwait] at hfin
      cases hfin
    · obtain ⟨-, rfl, rfl, rfl⟩ := ConnectionState.established.inj (hfin.symm.trans hest)
      cases ca with
      | true => exact .inl rfl
      | false => exact .inr rfl
  · rcases h with hwait | ⟨⟨ca', hest⟩, -, hackn⟩
    · exact .inl hwait
    · exact absurd hackn (hno (by rw [hest]; rfl))

/-- Neither `send_ack` nor a FIN opens a connection that is over. -/
theorem Ended.stored {rx : RxBuffer} {isNew : Bool} (hended : Ended c₂)
    (h₁ : { c₂ with rx := rx }.sendAck = .ok c₁)
    (hfin : (if seg.hasFin then c₁.onFin isNew else .ok c₁) = .ok c') : Ended c' := by
  rcases hended with hst | hst
  · have hst₁ : c₁.connectionState = .timeWait :=
      timeWait_of_sendAck (c := { c₂ with rx := rx }) hst h₁
    exact .inl (timeWait_of_onFin hst₁ hfin)
  · exact absurd h₁ (sendAck_closed hst)

/-- The ACK of our FIN ends the connection. -/
theorem Finishes.taken (h : c.Finishes seg) (h₁ : (c.windowed seg).Takes seg c₁)
    (h₂ : c₁.onFinAcked seg.ackn = .ok c₂) : Ended c₂ := by
  have hno : (c.windowed seg).connectionState ≠ .synReceived := by
    rw [windowed_connectionState]
    rcases h with hst | ⟨⟨ca, hst⟩, -⟩
    all_goals
      rw [hst]
      intro hno
      cases hno
  obtain ⟨hstate, -, -, hnext, -⟩ := h₁.acknowledged.frame
  rw [opened_connectionState, if_neg hno] at hstate
  refine Finishes.onFinAcked ?_ h₂
  rw [Finishes, hstate, hnext]
  exact h

theorem Finishes.onAccepted (h : c.Finishes seg)
    (hc : (c.windowed seg).onAccepted seg = .ok c') : Ended c' := by
  cases acceptedStep_of_ok hc with
  | unacknowledged hack hfin =>
      rcases h with hst | ⟨-, hack', -⟩
      · exact .inl (timeWait_of_onFin (c := c.windowed seg) hst hfin)
      · exact absurd (hack.symm.trans hack') Bool.false_ne_true
  | invalid _ hrange =>
      rcases h with hst | ⟨-, -, hackn⟩
      · exact .inl hst
      · have hin := (SeqN.inRangeInclusive_iff seg.ackn c.tx.unack c.tx.next).mpr (by rw [hackn])
        exact absurd (hrange.symm.trans hin) Bool.false_ne_true
  | discarded _ _ h₁ h₂ =>
      have hended := h.taken h₁ h₂
      split
      · exact hended
      · exact hended
  | stored _ _ h₁ h₂ _ _ h₃ hfin => exact (h.taken h₁ h₂).stored h₃ hfin

/-- A connection that is Established after an accepted segment was kept open or
opened by it. -/
theorem staysOpen_of_onAccepted (hs : c.Peered) (hc : (c.windowed seg).onAccepted seg = .ok c')
    (hest : c'.connectionState.isEstablished = true) : c.staysOpen seg = true := by
  have hgoes : ¬ c.Finishes seg := by
    intro hfinish
    rw [(hfinish.onAccepted hc).not_established] at hest
    cases hest
  cases hst : c.connectionState with
  | synReceived =>
      rw [staysOpen, hst]
      cases acceptedStep_of_ok hc with
      | unacknowledged hack hfin =>
          rw [if_neg (by simp [hack])]
          by_contra hno
          rw [if_neg hno] at hfin
          obtain rfl := Except.ok.inj hfin
          rw [windowed_connectionState, hst] at hest
          cases hest
      | invalid =>
          rw [windowed_connectionState, hst] at hest
          cases hest
      | discarded hack hrange => rw [if_pos hack]; exact hrange
      | stored hack hrange => rw [if_pos hack]; exact hrange
  | established t r cc ca =>
      rw [staysOpen, hst]
      by_cases hall : t = .fin ∧ r = .closed ∧ cc = true
      · obtain ⟨rfl, rfl, rfl⟩ := hall
        by_contra hack
        exact hgoes (.inr ⟨⟨ca, hst⟩, by simpa using hack⟩)
      · cases t <;> cases r <;> cases cc <;> first | rfl | exact absurd ⟨rfl, rfl, rfl⟩ hall
  | timeWait => exact absurd (.inl hst) hgoes
  | closed | listen | synSent | reset =>
      rcases hs with h | h <;> rw [hst] at h <;> cases h

omit [UserTime Time] in
theorem not_established_of_idle (hidle : c.connectionState.idle = true) :
    ¬ c.connectionState.isEstablished = true := by
  intro hest
  have hsync := ConnectionState.synced_of_isEstablished hest
  exact not_peered_of_idle hidle (.inl hsync)

/-- An accepted segment that leaves room leaves it in the buffer after it. -/
theorem room_onAccepted (hwf : WellFormed c) (hs : c.Peered)
    (hcheck : c.checkSegmentSeqOk seg = true) (hrst : seg.hasRst = false)
    (hsyn : seg.hasSyn = false)
    (hroom : if c.Stores seg then FitsIn c.unsent (c.takenTx seg).room
      else 0 < (c.takenTx seg).room)
    (hc : (c.windowed seg).onAccepted seg = .ok c')
    (hest : c'.connectionState.isEstablished = true) : 0 < c'.tx.room := by
  cases acceptedTx_of_ok hwf hs hcheck hrst hsyn hc with
  | aside haside htx =>
      rw [if_neg haside] at hroom
      rw [htx]
      exact hroom
  | stored hstores htx hwrote ht =>
      rw [if_pos hstores] at hroom
      apply ht.room_pos
      rw [unsent, htx, hwrote, takenTx_queue]
      exact hroom
  | cleared hidle => exact absurd hest (not_established_of_idle hidle)

/-- An open connection has room in its send window. -/
def Roomy (c : Connection Addr Time) : Prop :=
  c.connectionState.isEstablished = true → 0 < c.tx.room

/-- A segment that leaves room leaves it in the buffer after it. -/
theorem roomy_onSegment (hwf : WellFormed c) (hroom : Roomy c)
    (hallowed : c.LeavesRoom (.onSegment seg)) (hc : c.onSegment seg = .ok c') : Roomy c' := by
  intro hest
  have closed {st : ConnectionState} (hst : c.connectionState = st)
      (hno : st.isEstablished = false)
      (h : c.connectionState.isEstablished = true) : 0 < c'.tx.room := by
    rw [hst, hno] at h
    cases h
  unfold Connection.onSegment at hc
  split at hc
  case h_1 hst | h_2 hst =>
    simp only [Fallible.bind_ok_iff] at hc
    obtain ⟨resp, -, hc⟩ := hc
    split at hc
    all_goals
      obtain rfl := Fallible.pure_ok_iff.mp hc
      exact closed hst rfl hest
  case h_3 hst =>
    cases listened_of_ok hc with
    | ignored | refused => exact closed hst rfl hest
    | answered _ _ _ _ hsyn =>
        rw [hsyn.state] at hest
        cases hest
  case h_4 hst =>
    cases synSentStep_of_ok hc with
    | ignored | refused | waiting => exact closed hst rfl hest
    | reset => cases hest
    | opened hrange hrst hack hsyn heq hsend =>
        apply (sendAck_spec hsend).txSent.room_pos
        have hunsent : ((c.synAcked seg).entered .fullyOpen).unsent = c.unsent := by
          rw [unsent, unsent, entered_tx, hst]
          rfl
        have hflight : ((c.synAcked seg).entered .fullyOpen).tx.flight = 0 := by
          rw [entered_tx]
          change Circular.span seg.ackn c.tx.next = 0
          rw [heq, (hwf.opening (by rw [hst]; rfl)).2, Circular.span_self]
        rw [hunsent, TxBuffer.room, hflight, entered_tx]
        exact hallowed.1 ⟨hst, hrst, hsyn, hack, heq⟩
  case h_5 hst | h_6 hst | h_7 hst =>
    have hs : c.Peered := by simp [Peered, hst, ConnectionState.synced]
    cases synchronizedStep_iff.mp hc with
    | dropped | rejected => exact hroom hest
    | reset _ _ hrst => exact absurd hest (not_established_of_idle (onRst_spec hrst).idle)
    | syn _ _ _ hsyn => exact absurd hest (not_established_of_idle (onSyn_spec hsyn).idle)
    | accepted hcheck hrst hsyn hacc =>
        have hstays := staysOpen_of_onAccepted hs hacc hest
        exact room_onAccepted hwf hs hcheck hrst hsyn (hallowed.2 hcheck hrst hsyn hstays) hacc hest

/-- Besides segments nothing moves a connection in TimeWait but its end. -/
theorem Ended.of_step {op : Op Time} {out : Output} (hst : c.connectionState = .timeWait)
    (hop : ∀ seg, op ≠ .onSegment seg) (hc : c.step op = .ok (c', out)) : Ended c' := by
  cases opStep_of_ok hc with
  | @onSegment seg => exact absurd rfl (hop seg)
  | callConnect hc =>
      cases connectStep_of_ok hc with
      | refused => exact .inl hst
      | connecting hs => rcases hs with hs | hs <;> rw [hst] at hs <;> cases hs
  | callSend hc =>
      cases (sendStep_of_ok hc).2 with
      | refused => exact .inl hst
      | delayed hs | queued hs | sent hs =>
          rw [hst] at hs
          cases hs
  | callRecv hc =>
      cases recvStep_of_ok hc with
      | refused => exact .inl hst
      | ended hs | early hs | waiting hs | read hs | full hs | drained hs =>
          rw [hst] at hs
          cases hs
  | callShutdown hc =>
      cases shutdownStep_of_ok hc with
      | refused => exact .inl hst
      | cleared => exact .inr rfl
      | delayed hs | early hs | active hs | passive hs =>
          rw [hst] at hs
          cases hs
  | callClose hc =>
      cases closeStep_of_ok hc with
      | refused => exact .inl hst
      | cleared => exact .inr rfl
      | delayed hs | early hs | opened hs | ended hs =>
          rw [hst] at hs
          cases hs
  | callAbort hc =>
      cases abortStep_of_ok hc with
      | refused => exact .inl hst
      | cleared | reset => exact .inr rfl
  | setOptions => exact .inl hst
  | onTimeTick hc =>
      cases tickStep_of_ok hc with
      | kept hstate => exact .inl (hstate.trans hst)
      | cleared => exact .inr rfl

/-- One operation that leaves room keeps it. -/
theorem roomy_step {op : Op Time} {out : Output} (hwf : WellFormed c) (hroom : Roomy c)
    (hallowed : c.LeavesRoom op) (hc : c.step op = .ok (c', out)) : Roomy c' := by
  by_cases hseg : ∃ seg, op = .onSegment seg
  · obtain ⟨seg, rfl⟩ := hseg
    exact roomy_onSegment hwf hroom hallowed (step_onSegment.mp hc).1
  have hop (seg : SegmentMeta) : op ≠ .onSegment seg := fun h => hseg ⟨seg, h⟩
  intro hest
  have hlive := not_established_of_idle (c := c')
  cases hwf.txEffect hc with
  | kept _ htx hstate =>
      have hwas : c.connectionState.isEstablished = true := by
        rcases hstate with heq | ⟨hsync | ⟨-, seg, rfl, -⟩, -⟩
        · rw [← heq]
          exact hest
        · cases hst : c.connectionState with
          | established => rfl
          | timeWait =>
              rw [(Ended.of_step hst hop hc).not_established] at hest
              cases hest
          | closed | reset | listen | synSent | synReceived =>
              rw [hst] at hsync
              cases hsync
        · exact absurd rfl (hop seg)
      rcases window_of_step hc hop with hwindow | ⟨hidle, -⟩
      · rw [room_congr htx.unack htx.next hwindow]
        exact hroom hwas
      · exact absurd hest (hlive hidle)
  | cleared _ hidle => exact absurd hest (hlive hidle)
  | connecting _ _ hsyn =>
      rw [hsyn.state] at hest
      cases hest
  | queued _ _ _ htx hstate =>
      rw [hstate] at hest
      rw [htx]
      exact hroom hest
  | @appended inputData q _ _ hdata _ _ _ hq hspace ht hstate =>
      rw [hstate] at hest
      obtain ⟨hbytes, hfin, hopen⟩ := BlobQueue.writeBytes_spec hq
      have hlength : q.bytes.length = c.tx.tx.bytes.length + inputData.length := by
        rw [hbytes, List.length_append]
      have hunsent : (c.withQueue q).unsent = c.tx.tx.bytes.length + inputData.length := by
        rw [unsent, ← hlength]
        change q.bytes.length + (q.fin && !_).toNat = q.bytes.length
        rw [hfin, hopen.resolve_left hdata]
        rfl
      apply ht.room_pos
      rw [hunsent]
      refine hallowed hest ?_
      rw [← hlength, ← BlobQueue.availableBytes_eq]
      exact hspace.2.imp_right And.right
  | @marked _ _ c₀ _ hop' hs hwrote hempty hw htx _ hwrote₀ _ ht =>
      have hfits : FitsIn 1 c.tx.room := by
        rcases hop' with rfl | rfl <;> exact hallowed hs hwrote hempty hw
      have hunsent : c₀.unsent = 1 := by
        rw [unsent, hwrote₀, htx]
        change c.tx.tx.bytes.length + 1 = 1
        rw [hempty, List.length_nil]
      apply ht.room_pos
      rw [hunsent, htx]
      exact hfits
  | answered | acked | stored | synAcked | opened => exact absurd rfl (hop _)

theorem roomy_of_reachable (h : ReachableUnder LeavesRoom c) : Roomy c := by
  refine Transition.ReachableUnder.invariant (P := Roomy) ?_ ?_ h
  · intro c hinit hest
    exact absurd hest (not_established_of_idle hinit.fresh.2.2)
  · rintro c op c' hreach hroom hallowed ⟨out, hc⟩
    exact roomy_step (Reachable.wellFormed hreach) hroom hallowed hc

/-- In an open connection both tests know the room exactly while less is in
flight than the window, and this stays so while every operation leaves room. -/
theorem windowTests_agree (c : Connection Addr Time)
    (hest : c.connectionState.isEstablished = true) :
    (c.tx.TestsAgree ↔ c.tx.flight < c.tx.window.toNat) ∧
      (ReachableUnder LeavesRoom c → c.tx.TestsAgree) := by
  refine ⟨c.tx.testsAgree_iff, fun h => c.tx.testsAgree_iff.mpr ?_⟩
  have hroom := roomy_of_reachable h hest
  rw [TxBuffer.room] at hroom
  omega

/-- Two bytes in flight leave room in a window of three. -/
theorem windowTests_agree_two : ∃ c : Connection Unit Nat,
    c.connectionState.isEstablished = true ∧ c.tx.flight = 2 ∧ c.tx.spaceAvailable = 1#32 ∧
      c.tx.TestsAgree := by
  obtain ⟨c, hreach, hest, hflight, hspace⟩ : ∃ c : Connection Unit Nat,
      ReachableUnder LeavesRoom c ∧ c.connectionState.isEstablished = true ∧
        c.tx.flight = 2 ∧ c.tx.spaceAvailable = 1#32 :=
    Transition.exists_reachableUnder step_of_next (initial_listening () .default zeroUser)
      [.onSegment ⟨100#32, 0#32, 3#16, .syn, []⟩,
       .onSegment ⟨101#32, 1#32, 3#16, .ack, []⟩, .callSend [1, 2]] (by decide)
  exact ⟨c, hest, hflight, hspace, (windowTests_agree c hest).2 hreach⟩

/-- Three bytes fill the window, and `unack_has_space` still sees room. -/
theorem windowTests_differ : ¬ ∀ c : Connection Unit Nat, Reachable c →
    c.connectionState.isEstablished = true → c.tx.TestsAgree := by
  intro hall
  obtain ⟨c, hreach, hest, htest, hfull⟩ : ∃ c : Connection Unit Nat, Reachable c ∧
      c.connectionState.isEstablished = true ∧ c.tx.unackHasSpace = true ∧
        ¬ c.tx.flight < c.tx.window.toNat :=
    Transition.exists_reachableUnder step_of_next (initial_listening () .default zeroUser)
      [.onSegment ⟨100#32, 0#32, 3#16, .syn, []⟩,
       .onSegment ⟨101#32, 1#32, 3#16, .ack, []⟩, .callSend [1, 2, 3]] (by decide)
  exact hfull ((hall c hreach hest).1.mp htest)

end Connection

end TcpState
