import TcpState.Connection.Forward
import TcpState.Connection.Intake

/-!
# Data and FIN in one segment

The receive buffer marks the FIN before it stores the data, and refuses data
behind the mark. A segment that carries both is therefore never taken over.
-/

namespace TcpState

namespace Connection

open ConnectionState Fallible

variable {Addr Time : Type}

/-- The last segment `send_ack` built acknowledges everything received. -/
def AckNoted (c : Connection Addr Time) : Prop :=
  ∃ seqn window, c.tx.lastSent = some (seqn, c.rx.ackd, window)

variable [UserTime Time] {c c₁ c' : Connection Addr Time} {seg : SegmentMeta}

section AckNoted

omit [UserTime Time] in
theorem AckNoted.congr (h : AckNoted c) (htx : c'.tx.lastSent = c.tx.lastSent)
    (hrx : c'.rx.ackd = c.rx.ackd) : AckNoted c' := by
  unfold AckNoted
  rw [htx, hrx]
  exact h

theorem sendAck_notes (h : c.sendAck = .ok c') : AckNoted c' := by
  obtain ⟨q, -, -, rfl⟩ := sendAck_eq h
  have hrx : ((c.taken q).emit c.outSegment).rx = c.rx := (emit_spec _ _).2.1.trans (taken_rx c q)
  refine ⟨c.outSegment.seqn, c.outSegment.window, ?_⟩
  rw [hrx]
  unfold emit
  split
  · rename_i hskip
    exact hskip.2.symm
  · have hsent : ((c.taken q).tx.onSend c.outSegment).lastSent =
        some (c.outSegment.seqn, c.rx.ackd, c.outSegment.window) := by
      unfold TxBuffer.onSend
      split <;> rfl
    dsimp only
    split
    · exact hsent
    · exact hsent

/-- Entering an open state keeps the note, or clears the connection. -/
theorem AckNoted.stateSet (h : AckNoted c) (t r : ChannelState) (cc ca : Bool)
    (hs : Peered (c.stateSet (.established t r cc ca))) :
    AckNoted (c.stateSet (.established t r cc ca)) := by
  rcases stateSet_tx c t r cc ca with ⟨htx, -⟩ | ⟨c₀, heq, -⟩
  · rcases stateSet_rx c t r cc ca with ⟨-, -, hrx, -⟩ | ⟨hidle, -⟩
    · exact h.congr (by rw [htx]) (by rw [hrx])
    · exact absurd hs (not_peered_of_idle hidle)
  · rw [heq] at hs
    exact absurd hs (not_peered_of_idle rfl)

theorem AckNoted.closing (h : AckNoted c) (ca : Bool) (hs : Peered (c.closing ca)) :
    AckNoted (c.closing ca) := by
  unfold Connection.closing at hs ⊢
  split
  · rename_i hboth
    rw [if_pos hboth] at hs
    exact h.stateSet _ _ _ _ hs
  · rename_i hboth
    rw [if_neg hboth] at hs
    exact h.stateSet _ _ _ _ hs

theorem AckNoted.onFin (h : AckNoted c) (hs : Peered c) {isNew : Bool}
    (hc : c.onFin isNew = .ok c') : AckNoted c' := by
  obtain ⟨htx, -, hrx, -⟩ := onFin_tx hs hc
  exact h.congr (by rw [htx]) (by rw [hrx])

theorem AckNoted.takes (h : AckNoted c) (hc : c.Takes seg c₁) : AckNoted c₁ := by
  cases hc.acknowledged with
  | repeated => exact h.congr (by rw [opened_tx]) (by rw [opened_rx])
  | new _ hnew => exact h.congr (by rw [hnew.tx, opened_tx]) (by rw [hnew.rx, opened_rx])

theorem AckNoted.onFinAcked (h : AckNoted c) {ackn : SeqN} (hs' : Peered c')
    (hc : c.onFinAcked ackn = .ok c') : AckNoted c' := by
  rcases onFinAcked_ok_iff.mp hc with ⟨r, cc, ca, -, -, -, -, rfl⟩ | ⟨-, rfl⟩
  · exact h.stateSet _ _ _ _ hs'
  · exact h

theorem AckNoted.onAccepted (h : AckNoted c) (hs : Peered c) (hc : c.onAccepted seg = .ok c')
    (hs' : Peered c') : AckNoted c' := by
  cases acceptedStep_of_ok hc with
  | unacknowledged _ hfin =>
      split at hfin
      · exact h.onFin hs hfin
      · obtain rfl := Except.ok.inj hfin
        exact h
  | invalid => exact h
  | @discarded c₁ c₂ _ _ h₁ h₂ =>
      have hs₂ : Peered c₂ := by
        split at hs'
        · exact hs'
        · exact hs'
      have hnoted : AckNoted c₂ := (h.takes h₁).onFinAcked hs₂ h₂
      split
      · exact hnoted.congr rfl rfl
      · exact hnoted
  | @stored c₁ c₂ c₃ _ rx _ _ h₁ h₂ _ _ h₃ hfin =>
      have hnoted := sendAck_notes h₃
      split at hfin
      · rcases onFinAcked_peered (h₁.peered hs).1 h₂ with ⟨-, hs₂, -⟩ | ⟨-, rfl⟩
        · have hs₂' : Peered { c₂ with rx := rx } := hs₂
          exact hnoted.onFin (AckSent.rxState (sendAck_spec h₃) hs₂').1 hfin
        · exact absurd h₃ (sendAck_closed rfl)
      · obtain rfl := Except.ok.inj hfin
        exact hnoted

theorem ackNoted_onSegment (h : Peered c → AckNoted c) (hc : c.onSegment seg = .ok c')
    (hs' : Peered c') : AckNoted c' := by
  unfold Connection.onSegment at hc
  split at hc
  case h_1 hst | h_2 hst =>
    have hidle : c.connectionState.idle = true := by
      rw [hst]
      rfl
    simp only [Fallible.bind_ok_iff] at hc
    obtain ⟨resp, -, hc⟩ := hc
    split at hc
    all_goals
      obtain rfl := Fallible.pure_ok_iff.mp hc
      exact absurd hs' (not_peered_of_idle hidle)
  case h_3 hst =>
    cases listened_of_ok hc with
    | ignored => exact absurd hs' (not_peered_of_idle (by rw [hst]; rfl))
    | refused => exact absurd hs' (not_peered_of_idle (by rw [send_connectionState, hst]; rfl))
    | answered _ _ _ _ ha =>
        refine ⟨(c.synReply seg).seqn, (c.synReply seg).window, ?_⟩
        rw [ha.tx, ha.rx]
        unfold TxBuffer.onSend
        split <;> rfl
  case h_4 hst =>
    have hno : ¬ Peered c := by
      rw [Peered, hst]
      decide
    cases synSentStep_of_ok hc with
    | ignored => exact absurd hs' hno
    | refused => exact absurd hs' hno
    | waiting => exact absurd hs' hno
    | reset => exact absurd hs' (not_peered_of_idle rfl)
    | opened _ _ _ _ _ hsend => exact sendAck_notes hsend
  case h_5 hst | h_6 hst | h_7 hst =>
    have hs : Peered c := by simp [Peered, hst, synced]
    cases synchronizedStep_iff.mp hc with
    | dropped => exact h hs
    | rejected => exact (h hs).congr rfl rfl
    | reset _ _ hrst =>
        unfold Connection.onRst at hrst
        split at hrst
        · obtain ⟨-, -, rfl⟩ := setState_ok_iff.mp hrst
          exact absurd hs' (not_peered_of_idle (by rw [stateSet_connectionState]; rfl))
        · obtain ⟨-, -, rfl⟩ := setState_ok_iff.mp hrst
          exact absurd hs' (not_peered_of_idle (by rw [stateSet_connectionState]; rfl))
        · cases hrst
    | syn _ _ _ hsyn =>
        obtain ⟨-, -, rfl⟩ := setState_ok_iff.mp hsyn
        exact absurd hs' (not_peered_of_idle (by rw [stateSet_connectionState]; rfl))
    | accepted _ _ _ hacc =>
        have hnoted : AckNoted (c.windowed seg) := (h hs).congr rfl rfl
        exact hnoted.onAccepted hs hacc hs'

/-- One operation. -/
theorem ackNoted_step (h : Peered c → AckNoted c) {op : Op Time} {out : Output}
    (hc : c.step op = .ok (c', out)) (hs' : Peered c') : AckNoted c' := by
  cases opStep_of_ok hc with
  | callConnect hc =>
      cases connectStep_of_ok hc with
      | refused => exact h hs'
      | connecting _ hsyn =>
          rcases hs' with hs' | hs'
          all_goals
            rw [hsyn.state] at hs'
            cases hs'
  | callSend hc =>
      cases (sendStep_of_ok hc).2 with
      | refused => exact h hs'
      | delayed => exact (h hs').congr rfl rfl
      | queued => exact (h hs').congr rfl rfl
      | sent _ _ _ hsend => exact sendAck_notes hsend
  | callRecv hc =>
      cases recvStep_of_ok hc with
      | refused => exact h hs'
      | ended => exact h hs'
      | early => exact (h hs').congr rfl rfl
      | waiting => exact (h hs').congr rfl rfl
      | read _ _ hread => exact (h hs').congr rfl (RxBuffer.readBytes_spec hread).2.2.2.1
      | full _ hread => exact (h hs').congr rfl (RxBuffer.readBytes_spec hread).2.2.2.1
      | @drained t cc ca rx _ hs hread =>
          have hpeer : Peered c := .inl (by rw [hs]; rfl)
          have hnoted : AckNoted { c with rx := rx } :=
            (h hpeer).congr rfl (RxBuffer.readBytes_spec hread).2.2.2.1
          exact hnoted.stateSet _ _ _ _ hs'
  | callShutdown hc =>
      cases shutdownStep_of_ok hc with
      | refused => exact h hs'
      | cleared => exact absurd hs' (not_peered_of_idle rfl)
      | delayed => exact (h hs').congr rfl rfl
      | early _ _ hsend =>
          exact (sendAck_notes hsend).congr (by rw [entered_tx]) (by rw [entered_rx])
      | active _ _ _ _ hsend => exact sendAck_notes hsend
      | passive _ _ _ _ hsend => exact sendAck_notes hsend
  | callClose hc =>
      cases closeStep_of_ok hc with
      | refused => exact h hs'
      | cleared => exact absurd hs' (not_peered_of_idle rfl)
      | delayed => exact (h hs').congr rfl rfl
      | @early c₁ _ _ _ _ hsend =>
          have hnoted : AckNoted (c₁.entered (.established .fin .opened true true)) :=
            (sendAck_notes hsend).congr (by rw [entered_tx]) (by rw [entered_rx])
          exact hnoted.congr rfl rfl
      | opened _ _ _ hsend => exact (sendAck_notes hsend).closing _ hs'
      | ended hs => exact (h (.inl (by rw [hs]; rfl))).closing _ hs'
  | callAbort hc =>
      cases abortStep_of_ok hc with
      | refused => exact h hs'
      | cleared => exact absurd hs' (not_peered_of_idle rfl)
      | reset => exact absurd hs' (not_peered_of_idle rfl)
  | setOptions => exact (h hs').congr rfl rfl
  | @onSegment seg _ hc => exact ackNoted_onSegment h hc hs'
  | onTimeTick hc =>
      cases tickStep_of_ok hc with
      | kept hstate htx hrx =>
          refine (h ?_).congr (by rw [htx]) (by rw [hrx])
          rw [Peered, ← hstate]
          exact hs'
      | cleared => exact absurd hs' (not_peered_of_idle rfl)

theorem ackNoted_of_reachable (h : Reachable c) (hs : Peered c) : AckNoted c := by
  refine Transition.ReachableUnder.invariant (P := fun c => Peered c → AckNoted c) ?_ ?_ h hs
  · exact fun c hinit hs => absurd hs (not_peered_of_idle hinit.fresh.2.2)
  · rintro c op c' - hnoted - ⟨out, hc⟩ hs'
    exact ackNoted_step hnoted hc hs'

end AckNoted

/-- Calls of `call_recv` one after the other, and the bytes they return. -/
def reads (c : Connection Addr Time) : List Nat → Res (Connection Addr Time × List UInt8)
  | [] => return (c, [])
  | bufferLen :: lens => do
      let (c, r) ← c.callRecv bufferLen
      match r with
      | .ok data => do
          let (c, rest) ← reads c lens
          return (c, data ++ rest)
      | .error _ => return (c, [])

/-- Behind a stored FIN the stream is read to its end, and a read beyond it is short. -/
theorem reads_behindFin {lens : List Nat} (h : WellFormed c)
    (hst : c.connectionState.isEstablished = true) (hrx : c.connectionState.rx = .fin)
    (hfin : c.rx.buffer.fin = true) (hp : c.connectionState.closePending = false)
    (hne : ∀ len ∈ lens, len ≠ 0) (hlens : lens.dropLast.sum ≤ c.rx.bytes.length) :
    ∃ c', c.reads lens = .ok (c', c.rx.bytes.take lens.sum) := by
  induction lens generalizing c with
  | nil => exact ⟨c, rfl⟩
  | cons bufferLen lens ih =>
      have hlen : bufferLen ≠ 0 := hne bufferLen List.mem_cons_self
      obtain ⟨c₁, data, hc⟩ := (callRecv_fin_succeeds_iff h hst hrx hfin bufferLen).mpr
        ⟨hlen, fun hbad => absurd (hp.symm.trans hbad.1) Bool.false_ne_true⟩
      rw [reads, hc]
      cases recvStep_of_ok hc with
      | ended hs =>
          rw [hs] at hrx
          cases hrx
      | read hs =>
          rw [hs] at hrx
          cases hrx
      | @full t cc ca rx _ hs hread hfull =>
          obtain ⟨rfl, hrest, hmark, hackd, -, -, -, -⟩ := RxBuffer.readBytes_spec hread
          have hbound : bufferLen ≤ c.rx.bytes.length := by
            rw [List.length_take] at hfull
            omega
          have hmore : lens.dropLast.sum ≤ rx.bytes.length := by
            rw [hrest, List.length_drop]
            cases lens with
            | nil => exact Nat.zero_le _
            | cons len lens =>
                rw [List.dropLast_cons_cons, List.sum_cons] at hlens
                omega
          have hwf : WellFormed { c with rx := rx } := h.callRecv hc
          obtain ⟨c', hc'⟩ := ih hwf hst hrx (hmark.trans hfin) hp
            (fun len hmem => hne len (List.mem_cons_of_mem _ hmem)) hmore
          refine ⟨c', ?_⟩
          change ({ c with rx := rx } : Connection Addr Time).reads lens =
            .ok (c', rx.bytes.take lens.sum) at hc'
          simp only [ok_bind, hc', hrest, List.sum_cons]
          rw [List.take_add]
          rfl
      | @drained t cc ca rx _ hs hread hshort =>
          obtain ⟨rfl, -⟩ := RxBuffer.readBytes_spec hread
          rw [List.length_take] at hshort
          -- The read beyond the end is the last one.
          cases lens with
          | nil =>
              refine ⟨{ c with rx := rx }.stateSet (.established t .closed cc ca), ?_⟩
              simp only [reads, ok_bind, List.sum_cons, List.sum_nil, Nat.add_zero]
              exact congrArg (fun data => Except.ok (_, data)) (List.append_nil _)
          | cons len lens =>
              rw [List.dropLast_cons_cons, List.sum_cons] at hlens
              omega

/-- A segment with data and FIN has been taken over: the data is appended, the
end is marked behind it, both are acknowledged, and the data can be read. -/
structure FinTaken (c : Connection Addr Time) (seg : SegmentMeta) (c' : Connection Addr Time) :
    Prop where
  bytes : c'.rx.bytes = c.rx.bytes ++ seg.data
  marked : c'.rx.buffer.fin = true
  ackd : c'.rx.ackd = c.rx.ackd + BitVec.ofNat 32 (seg.data.length + 1)
  acked : ∃ ack, c'.userData.sent = c.userData.sent ++ [ack] ∧ ack.hasAck = true ∧
    ack.ackn = c'.rx.ackd
  state : c'.connectionState.isEstablished = true ∧ c'.connectionState.rx = .fin
  read : ∀ lens : List Nat, (∀ len ∈ lens, len ≠ 0) → lens.dropLast.sum ≤ c'.rx.bytes.length →
    ∃ c₁, c'.reads lens = .ok (c₁, (c.rx.bytes ++ seg.data).take lens.sum)

/-- Behind the FIN of the peer no close waits. -/
theorem onFin_settles (hst : c.connectionState.isEstablished = true) {isNew : Bool}
    (hc : c.onFin isNew = .ok c') : c'.connectionState.isEstablished = true ∧
      c'.connectionState.rx = .fin ∧ c'.connectionState.closePending = false := by
  obtain ⟨t, r, cc, ca, hst⟩ := isEstablished_iff.mp hst
  rw [Connection.onFin, hst] at hc
  obtain ⟨hv, -, rfl⟩ := setState_ok_iff.mp hc
  rw [triggerEvent_connectionState, hst] at hv
  rw [stateSet_eq_entered _ (.inr (.inl (by decide))), entered_connectionState]
  refine ⟨rfl, rfl, ?_⟩
  cases t with
  | opened =>
      cases cc with
      | false => rfl
      | true => exact absurd (hv.2.2.2.2 rfl) (by decide)
  | fin | closed => rfl

/-- While the read channel is open, our acknowledged FIN does not clear the connection. -/
theorem Takes.not_finishes (h : c.Takes seg c₁) (hs : Peered c)
    (hrx : c.connectionState.rx = .opened) {ackn : SeqN} : ¬ c₁.FinishesClose ackn := by
  intro hfinishes
  have hstate := (h.peered hs).2.1
  rw [hrx, hfinishes.1] at hstate
  cases hstate

/-- The FIN is stored without data, acknowledged and recorded. -/
theorem finTaken_of_stored {c₂ c₃ : Connection Addr Time} {rx : RxBuffer} {isNew : Bool}
    (hwf : WellFormed c') (hsync : c₂.connectionState.synced = true)
    (hread : c₂.connectionState.rx = .opened) (hrx : c₂.rx = c.rx)
    (hsent : c₂.userData.sent = c.userData.sent) (hnoted : AckNoted c₂)
    (hwrite : c.rx.write seg = .ok rx) (hsend : { c₂ with rx := rx }.sendAck = .ok c₃)
    (hc : c₃.onFin isNew = .ok c') (hfin : seg.hasFin = true) (hsyn : seg.hasSyn = false)
    (hdata : seg.data = []) : FinTaken c seg c' := by
  have a := sendAck_spec hsend
  have hs₂ : Peered { c₂ with rx := rx } := .inl hsync
  have hread₃ : c₃.connectionState.rx = .opened := (AckSent.rxState a hs₂).2.trans hread
  have hest : c₃.connectionState.isEstablished = true := by
    have hsync₃ : c₃.connectionState.synced = true := (a.txState hsync).1
    cases hst : c₃.connectionState with
    | established => rfl
    | timeWait =>
        rw [hst] at hread₃
        cases hread₃
    | _ => rw [hst] at hsync₃; cases hsync₃
  obtain ⟨hest', hfin', hpending⟩ := onFin_settles hest hc
  obtain ⟨-, hsent', hrx', -⟩ := onFin_tx (.inl (synced_of_isEstablished hest)) hc
  have hstored : c'.rx = rx := hrx'.trans a.rx
  obtain ⟨hbytes, hmark, hackd, -⟩ := RxBuffer.write_spec hwrite
  have hsize : seg.seqSize = BitVec.ofNat 32 (seg.data.length + 1) := by
    rw [SegmentMeta.seqSize_eq, hsyn, hfin]
    rfl
  have hmarked : c'.rx.buffer.fin = true := by
    rw [hstored, hmark, hfin, Bool.or_true]
  have hnew : ¬ { c₂ with rx := rx }.skipsRepeat := by
    -- The number after the FIN was not acknowledged before.
    rintro ⟨-, hlast⟩
    obtain ⟨seqn, window, hnoted⟩ := hnoted
    have hsame := (Prod.mk.inj (Prod.mk.inj (Option.some.inj (hlast.trans hnoted))).2).1
    change rx.ackd = c₂.rx.ackd at hsame
    rw [hackd, hrx, hsize, hdata] at hsame
    simp at hsame
  refine ⟨?_, hmarked, ?_, ⟨{ c₂ with rx := rx }.outSegment, ?_, ?_, ?_⟩, ⟨hest', hfin'⟩, ?_⟩
  · rw [hstored, hbytes]
  · rw [hstored, hackd, hsize]
  · rw [hsent', a.sent, if_neg hnew]
    exact congrArg (· ++ _) hsent
  · simp
  · rw [hstored]
    rfl
  · intro lens hne hlens
    obtain ⟨c₁, hread⟩ := reads_behindFin hwf hest' hfin' hmarked hpending hne hlens
    refine ⟨c₁, hread.trans ?_⟩
    rw [hstored, hbytes]

/-- A FIN next in order that returns has been taken over. -/
theorem finTaken_of_ok (h : Reachable c) (hrx : c.connectionState.rx = .opened)
    (hs : Peered c) (hstores : c.Stores seg) (hfin : seg.hasFin = true) (hdata : seg.data = [])
    (hc : c.onSegment seg = .ok c') : FinTaken c seg c' := by
  have hwf := h.wellFormed
  have hwf' : WellFormed c' := (h.next (step_onSegment.mpr ⟨hc, rfl⟩)).wellFormed
  rw [onSegment_of_peered hs] at hc
  cases synchronizedStep_iff.mp hc with
  | dropped hcheck => exact absurd (hcheck.symm.trans hstores.check) Bool.false_ne_true
  | rejected hcheck => exact absurd (hcheck.symm.trans hstores.check) Bool.false_ne_true
  | reset _ hrst => exact absurd (hstores.noRst.symm.trans hrst) Bool.false_ne_true
  | syn _ _ hsyn => exact absurd (hstores.noSyn.symm.trans hsyn) Bool.false_ne_true
  | accepted _ _ _ hacc =>
      have hs₀ : Peered (c.windowed seg) := hs
      have hnoted₀ : AckNoted (c.windowed seg) := (ackNoted_of_reachable h hs).congr rfl rfl
      cases acceptedStep_of_ok hacc with
      | unacknowledged hack => exact absurd (hack.symm.trans hstores.ack) Bool.false_ne_true
      | invalid _ hrange => exact absurd (hrange.symm.trans hstores.range) Bool.false_ne_true
      | @discarded c₁ c₂ _ _ h₁ h₂ hseq =>
          obtain ⟨hs₁, -, hrx₁⟩ := h₁.peered hs₀
          rcases onFinAcked_peered hs₁ h₂ with ⟨-, -, hrx₂⟩ | ⟨hfinishes, -⟩
          · exact absurd (hstores.inOrder.trans (by rw [hrx₂, hrx₁]; rfl)) hseq
          · exact absurd hfinishes (h₁.not_finishes hs₀ hrx)
      | stored _ _ h₁ h₂ _ hwrite h₃ hrest =>
          obtain ⟨hs₁, hstate₁, hrx₁⟩ := h₁.peered hs₀
          rw [if_pos hfin] at hrest
          rcases onFinAcked_rx hs₁ h₂ with ⟨hs₂, hread₂, hrx₂, -⟩ | ⟨c₀, rfl⟩
          · rw [hrx₂, hrx₁] at hwrite
            have hsync₁ := (h₁.acknowledged.frame.1 ▸ opened_synced hs₀ :)
            rcases onFinAcked_tx hsync₁ h₂ with ⟨-, hsent₂, hsync₂, -⟩ | ⟨c₀, rfl, -⟩
            · refine finTaken_of_stored hwf' hsync₂ ((hread₂.trans hstate₁).trans hrx)
                (hrx₂.trans hrx₁) ?_ ((hnoted₀.takes h₁).onFinAcked hs₂ h₂) hwrite h₃ hrest hfin
                hstores.noSyn hdata
              exact hsent₂.trans h₁.acknowledged.frame.2.2.2.2.2.2.2
            · exact absurd h₃ (sendAck_closed rfl)
          · exact absurd h₃ (sendAck_closed rfl)

/-- A segment next in order with the FIN of the peer is taken over exactly when
it has no data, leaves nothing of ours behind our acknowledged FIN, and leaves
room for a FIN that a close has requested. -/
theorem finTaken_iff (h : Reachable c) (hst : c.connectionState.isEstablished = true)
    (hrx : c.connectionState.rx = .opened) (hstores : c.Stores seg) (hfin : seg.hasFin = true) :
    (∃ c', c.onSegment seg = .ok c' ∧ FinTaken c seg c') ↔
      seg.data = [] ∧ ¬ (c.connectionState.tx = .fin ∧ seg.ackn = c.tx.next ∧
          c.unackedAfter seg ≠ []) ∧
        ¬ (c.connectionState.closePending = true ∧
          seg.ackn + (minU16 seg.window c.congestionWindow).setWidth 32 = c.tx.next) := by
  have hs : Peered c := .inl (synced_of_isEstablished hst)
  have hfinishes : ¬ c.finishes seg := by
    rintro ⟨hclosed, -⟩
    rw [hclosed] at hrx
    cases hrx
  have hreturns : Succeeds (c.onSegment seg) ↔ ¬ c.ackPanics seg := by
    rw [onSegment_of_peered hs, h.wellFormed.onSegmentSynchronized_succeeds_iff hs seg]
    simp [hstores.check, hstores.noRst, hstores.noSyn, hstores.ack, hstores.range]
  have hwindow (hdata : seg.data = []) :
      c.windowAfter seg = minU16 seg.window c.congestionWindow := by
    rw [windowAfter, hdata]
    split
    · rfl
    · rw [List.length_nil, BitVec.add_zero]
  constructor
  · rintro ⟨c', hc, -⟩
    have hno := hreturns.mp ⟨c', hc⟩
    have hdata : seg.data = [] := by
      by_contra hdata
      exact hno (.inr (.inr (.inr ⟨hfinishes, hstores.inOrder, .inl (.inr ⟨hfin, hdata⟩)⟩)))
    refine ⟨hdata, ?_, ?_⟩
    · rintro ⟨htx, hackn, hqueue⟩
      exact hno (.inr (.inl ⟨⟨htx, hackn⟩, hqueue⟩))
    · rintro ⟨hpending, hroom⟩
      rw [← hwindow hdata] at hroom
      exact hno (.inr (.inr (.inr
        ⟨hfinishes, hstores.inOrder, .inr ⟨hfin, hpending, hroom⟩⟩)))
  · rintro ⟨hdata, hqueue, hroom⟩
    have hopen := unmarked_of_fin hstores.check hstores.noSyn hfin (by rw [hdata]; decide)
    have hno : ¬ c.ackPanics seg := by
      rintro (⟨-, hover⟩ | ⟨hacks, hleft⟩ | ⟨hf, -⟩ | ⟨-, -, hstore | hpending⟩)
      · rw [hdata, List.length_nil] at hover
        have := c.congestionWindow.isLt
        omega
      · exact hqueue ⟨hacks.1, hacks.2, hleft⟩
      · exact hfinishes hf
      · rcases hstore with ⟨hmark, -⟩ | ⟨-, hne⟩
        · exact absurd (hopen.symm.trans hmark) Bool.false_ne_true
        · exact hne hdata
      · obtain ⟨-, hclose, hzero⟩ := hpending
        rw [hwindow hdata] at hzero
        exact hroom ⟨hclose, hzero⟩
    obtain ⟨c', hc⟩ := hreturns.mpr hno
    exact ⟨c', hc, finTaken_of_ok h hrx hs hstores hfin hdata hc⟩

/-- The FIN of the peer behind two unread bytes. -/
theorem finTaken_bare : ∃ c : Connection Unit Nat, c.rx.bytes = [1, 2] ∧
    ((∃ c', c.onSegment ⟨103#32, 1#32, 1000#16, .fin ||| .ack, []⟩ = .ok c' ∧
        FinTaken c ⟨103#32, 1#32, 1000#16, .fin ||| .ack, []⟩ c') ↔
      ([] : List UInt8) = [] ∧ ¬ (c.connectionState.tx = .fin ∧ (1#32 : SeqN) = c.tx.next ∧
          c.unackedAfter ⟨103#32, 1#32, 1000#16, .fin ||| .ack, []⟩ ≠ []) ∧
        ¬ (c.connectionState.closePending = true ∧
          (1#32 : SeqN) + (minU16 1000#16 c.congestionWindow).setWidth 32 = c.tx.next)) := by
  obtain ⟨c, hreach, hst, hrx, hbytes, hcheck, hrange, hseq⟩ : ∃ c : Connection Unit Nat,
      Reachable c ∧ c.connectionState.isEstablished = true ∧
        c.connectionState.rx = .opened ∧ c.rx.bytes = [1, 2] ∧
        c.checkSegmentSeqOk ⟨103#32, 1#32, 1000#16, .fin ||| .ack, []⟩ = true ∧
        SeqN.inRangeInclusive 1#32 c.tx.unack c.tx.next = true ∧ 103#32 = c.rx.ackd :=
    Transition.exists_reachableUnder step_of_next (initial_listening () .default zeroUser)
      [.onSegment ⟨100#32, 0#32, 1000#16, .syn, []⟩,
       .onSegment ⟨101#32, 1#32, 1000#16, .ack, [1, 2]⟩] (by decide)
  exact ⟨c, hbytes, finTaken_iff hreach hst hrx ⟨hcheck, rfl, rfl, rfl, hrange, hseq⟩ rfl⟩

/-- One byte in the segment of the FIN. -/
theorem finTaken_fails : ¬ ∀ (c : Connection Unit Nat) (seg : SegmentMeta), Reachable c →
    c.connectionState.isEstablished = true → c.connectionState.rx = .opened →
      c.Stores seg → seg.hasFin = true → ∃ c', c.onSegment seg = .ok c' ∧ FinTaken c seg c' := by
  intro hall
  obtain ⟨c, hreach, hst, hrx, hcheck, hrange, hseq, hpanic⟩ : ∃ c : Connection Unit Nat,
      Reachable c ∧ c.connectionState.isEstablished = true ∧
        c.connectionState.rx = .opened ∧
        c.checkSegmentSeqOk ⟨101#32, 1#32, 1000#16, .fin ||| .ack, [7]⟩ = true ∧
        SeqN.inRangeInclusive 1#32 c.tx.unack c.tx.next = true ∧ 101#32 = c.rx.ackd ∧
        ¬ Succeeds (c.onSegment ⟨101#32, 1#32, 1000#16, .fin ||| .ack, [7]⟩) :=
    Transition.exists_reachableUnder step_of_next (initial_listening () .default zeroUser)
      [.onSegment ⟨100#32, 0#32, 1000#16, .syn, []⟩,
       .onSegment ⟨101#32, 1#32, 1000#16, .ack, []⟩] (by decide)
  obtain ⟨c', hc, -⟩ := hall c _ hreach hst hrx ⟨hcheck, rfl, rfl, rfl, hrange, hseq⟩ rfl
  exact hpanic ⟨c', hc⟩

end Connection

end TcpState
