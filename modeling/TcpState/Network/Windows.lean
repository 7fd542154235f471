import TcpState.Connection.Idling
import TcpState.Network.Moves

/-!
# The windows that segments show

Every segment but a RST shows the receive window of its sender. A closed
window opens again only when the application reads, and a read sends nothing.
-/

namespace TcpState

namespace Connection

variable {Addr Time : Type}

/-- A segment on the wire is a RST, repeats one in flight, or shows the receive
window after the step. -/
def Shows (c c' : Connection Addr Time) : Prop :=
  ∀ s ∈ c'.userData.sent, s ∈ c.userData.sent ∨ s ∈ c.tx.reTx ∨ s.hasRst = true ∨
    s.window = c'.rx.currWindow

variable {c c₀ c₁ c' : Connection Addr Time} {seg : SegmentMeta}

namespace Shows

theorem of_sent (h : c'.userData.sent = c.userData.sent) : Shows c c' := by
  intro s hs
  rw [h] at hs
  exact .inl hs

theorem said {s : SegmentMeta} (h : c'.userData.sent = c.userData.sent ++ [s])
    (hs : s.hasRst = true ∨ s.window = c'.rx.currWindow) : Shows c c' := by
  intro s' hmem
  rw [h, List.mem_append, List.mem_singleton] at hmem
  rcases hmem with hold | rfl
  · exact .inl hold
  · exact .inr (.inr hs)

/-- The segment of `send_ack` shows the window. -/
theorem sends (ht : TxSent c₀ c') (h : c₀.userData.sent = c.userData.sent) : Shows c c' := by
  intro s hs
  rcases ht.mem_sent hs with hold | rfl
  · rw [h] at hold
    exact .inl hold
  · refine .inr (.inr (.inr ?_))
    rw [ht.rx]
    rfl

/-- What follows in a step sends nothing more and leaves the receive side. -/
theorem congr (h : Shows c c₁) (hsent : c'.userData.sent = c₁.userData.sent)
    (hrx : c'.rx = c₁.rx) : Shows c c' := by
  intro s hs
  rw [hsent] at hs
  rw [hrx]
  exact h s hs

theorem resends (h : Resends c c') : Shows c c' := by
  obtain ⟨new, hlog, hnew⟩ := h.new
  intro s hs
  rw [hlog, List.mem_append] at hs
  exact hs.imp_right fun hs => .inl (hnew s hs)

end Shows

variable [UserTime Time]

theorem shows_onAccepted (hs : Peered c) (hc : c.onAccepted seg = .ok c') : Shows c c' := by
  cases acceptedStep_of_ok hc with
  | unacknowledged _ hfin =>
      split at hfin
      · exact .of_sent (onFin_tx hs hfin).2.1
      · obtain rfl := Except.ok.inj hfin
        exact .of_sent rfl
  | invalid => exact .of_sent rfl
  | @discarded c₁ c₂ _ _ h₁ h₂ =>
      have hsent := sent_of_taken hs h₁ h₂
      split
      · exact .said ((send_sent c₂ _).trans (congrArg (· ++ _) hsent)) (.inr rfl)
      · exact .of_sent hsent
  | @stored c₁ c₂ c₃ _ rx _ _ h₁ h₂ _ _ h₃ hfin =>
      have hsent : c₂.userData.sent = c.userData.sent := sent_of_taken hs h₁ h₂
      have hshows : Shows c c₃ := .sends (sendAck_spec h₃).txSent hsent
      split at hfin
      · rcases onFinAcked_peered (h₁.peered hs).1 h₂ with ⟨-, hs₂, -⟩ | ⟨-, rfl⟩
        · have hs₃ := (AckSent.rxState (sendAck_spec h₃) hs₂).1
          obtain ⟨-, hsent', hrx, -⟩ := onFin_tx hs₃ hfin
          exact hshows.congr hsent' hrx
        · exact absurd h₃ (sendAck_closed rfl)
      · obtain rfl := Except.ok.inj hfin
        exact hshows

theorem shows_onSegment (hc : c.onSegment seg = .ok c') : Shows c c' := by
  unfold Connection.onSegment at hc
  split at hc
  case h_1 | h_2 =>
    simp only [Fallible.bind_ok_iff] at hc
    obtain ⟨resp, hresp, hc⟩ := hc
    cases resp with
    | none =>
        obtain rfl := Fallible.pure_ok_iff.mp hc
        exact .of_sent rfl
    | some resp =>
        obtain rfl := Fallible.pure_ok_iff.mp hc
        exact .said (send_sent c resp) (.inl (responseToClosed_reply hresp).1)
  case h_3 =>
    cases listened_of_ok hc with
    | ignored => exact .of_sent rfl
    | refused => exact .said (send_sent c _) (.inl SegmentFlags.contains_rst.1)
    | answered _ _ _ _ ha =>
        refine .said ha.sent (.inr ?_)
        rw [ha.rx]
        rfl
  case h_4 =>
    cases synSentStep_of_ok hc with
    | ignored => exact .of_sent rfl
    | refused => exact .said (send_sent c _) (.inl SegmentFlags.contains_rst.1)
    | reset => exact .of_sent (clear_sent c)
    | waiting => exact .of_sent (synAcked_sent c seg)
    | opened _ _ _ _ _ hsend =>
        refine .sends (sendAck_spec hsend).txSent ?_
        rw [entered_sent, synAcked_sent]
  case h_5 hst | h_6 hst | h_7 hst =>
    have hs : c.Peered := by simp [Peered, hst, ConnectionState.synced]
    cases synchronizedStep_iff.mp hc with
    | dropped => exact .of_sent rfl
    | rejected => exact .said (send_sent c _) (.inr rfl)
    | reset _ _ hrst => exact .of_sent ((onRst_spec hrst).sent.trans (List.append_nil _))
    | syn _ _ _ hsyn =>
        exact .said (onSyn_spec hsyn).sent (.inl SegmentFlags.contains_rst.1)
    | accepted _ _ _ hacc => exact shows_onAccepted (c := c.windowed seg) hs hacc

/-- What an operation puts on the wire shows the receive window after it. -/
theorem shows_step {op : Op Time} {out : Output} (hc : c.step op = .ok (c', out)) :
    Shows c c' := by
  cases opStep_of_ok hc with
  | callConnect hc =>
      cases connectStep_of_ok hc with
      | refused => exact .of_sent rfl
      | connecting _ hsyn =>
          refine .said hsyn.sent (.inr ?_)
          rw [hsyn.rx]
          rfl
  | callSend hc =>
      cases (sendStep_of_ok hc).2 with
      | refused | delayed | queued => exact .of_sent rfl
      | sent _ _ _ hsend => exact .sends (sendAck_spec hsend).txSent rfl
  | callRecv hc =>
      cases recvStep_of_ok hc with
      | refused | ended | early | waiting | read | full => exact .of_sent rfl
      | @drained t cc ca rx _ =>
          rcases stateSet_tx { c with rx := rx } t .closed cc ca with
            ⟨-, hsent, -⟩ | ⟨c₀, heq, hsent, -⟩
          · exact .of_sent hsent
          · rw [heq]
            exact .of_sent ((clear_sent c₀).trans hsent)
  | callShutdown hc =>
      cases shutdownStep_of_ok hc with
      | refused | delayed => exact .of_sent rfl
      | @cleared c₀ _ hsent => exact .of_sent ((clear_sent c₀).trans hsent)
      | @early c₁ _ _ hsend =>
          have hshows : Shows c c₁ := .sends (sendAck_spec hsend).txSent rfl
          exact hshows.congr (entered_sent c₁ _) (entered_rx c₁ _)
      | active _ _ _ _ hsend =>
          exact .sends (sendAck_spec hsend).txSent (by simp [withQueue])
      | passive _ _ _ _ hsend => exact .sends (sendAck_spec hsend).txSent rfl
  | callClose hc =>
      cases closeStep_of_ok hc with
      | refused | delayed => exact .of_sent rfl
      | @cleared c₀ _ hsent => exact .of_sent ((clear_sent c₀).trans hsent)
      | @early c₁ _ _ _ _ hsend =>
          have hshows : Shows c c₁ := .sends (sendAck_spec hsend).txSent rfl
          exact hshows.congr (entered_sent c₁ _) (entered_rx c₁ _)
      | @opened rx _ ca c₁ _ hs _ _ hsend =>
          have a := sendAck_spec hsend
          have hmarked : c.marked.connectionState = .established .opened rx _ ca := hs
          have hshows : Shows c c₁ := .sends a.txSent rfl
          have hest : c₁.connectionState.isEstablished = true :=
            sendAck_isEstablished (by rw [withQueue_connectionState, hs]; rfl) hsend
          rcases closing_tx c₁ (ca || decide (rx = .opened)) hest with
            ⟨-, hsent, hrx, -⟩ | ⟨hclosed, -⟩
          · exact hshows.congr hsent hrx
          · exact absurd ((a.openState hmarked).2.2.symm.trans hclosed) Bool.false_ne_true
      | @ended _ rx _ ca _ hs =>
          rcases closing_tx c (ca || decide (rx = .opened)) (by rw [hs]; rfl) with
            ⟨-, hsent, -⟩ | ⟨-, c₀, heq, hsent⟩
          · exact .of_sent hsent
          · rw [heq]
            exact .of_sent ((clear_sent c₀).trans hsent)
  | callAbort hc =>
      cases abortStep_of_ok hc with
      | refused => exact .of_sent rfl
      | @cleared c₀ hsent => exact .of_sent ((clear_sent c₀).trans hsent)
      | @reset c₀ hsent =>
          exact .said ((clear_sent c₀).trans hsent) (.inl SegmentFlags.contains_rst.1)
  | setOptions => exact .of_sent rfl
  | onSegment hc => exact shows_onSegment hc
  | onTimeTick hc =>
      cases tickStep_of_ok hc with
      | kept _ _ _ _ _ _ hsent => exact .resends hsent
      | @cleared c₀ hsent =>
          have hcleared : Resends c c₀.clear := by
            unfold Resends
            rw [clear_sent]
            exact hsent
          exact .resends hcleared

/-- The congestion window never closes the send window. -/
theorem shown_of_closed {a b : BitVec 16} (hb : initialWindowSize.toNat ≤ b.toNat)
    (h : minU16 a b = 0#16) : a = 0#16 := by
  unfold minU16 at h
  split at h
  · exact h
  · rw [h] at hb
    exact absurd hb (by decide)

/-- After the acknowledgement bookkeeping only the segment can have closed the
send window. -/
theorem shown_of_taken (hwf : WellFormed c) (hs : Peered c)
    (h₁ : (c.windowed seg).Takes seg c₁) (hzero : c₁.tx.window = 0#16) : seg.window = 0#16 := by
  have hs' : (c.windowed seg).Peered := hs
  have hwf₁ := (hwf.windowed hs.not_idle seg).acknowledged (opened_synced hs') h₁.acknowledged
  cases h₁.acknowledged with
  | repeated =>
      rw [opened_tx] at hzero
      exact shown_of_closed hwf.congestion hzero
  | new _ hnew =>
      rw [hnew.tx] at hzero
      exact shown_of_closed hwf₁.congestion hzero

theorem shown_onAccepted (hwf : WellFormed c) (hs : Peered c)
    (hc : (c.windowed seg).onAccepted seg = .ok c') (hs' : Peered c')
    (hzero : c'.tx.window = 0#16) : seg.window = 0#16 := by
  have hpeer : (c.windowed seg).Peered := hs
  have aside (htx : c'.tx.window = (c.windowed seg).tx.window) : seg.window = 0#16 :=
    shown_of_closed hwf.congestion (htx.symm.trans hzero)
  have taken {c₁ c₂ : Connection Addr Time} (h₁ : (c.windowed seg).Takes seg c₁)
      (h₂ : c₁.onFinAcked seg.ackn = .ok c₂) (hs₂ : Peered c₂) (hzero : c₂.tx.window = 0#16) :
      seg.window = 0#16 := by
    have hsync : c₁.connectionState.synced = true := by
      rw [h₁.acknowledged.frame.1]
      exact opened_synced hpeer
    rcases onFinAcked_tx hsync h₂ with ⟨htx, -⟩ | ⟨c₀, rfl, -⟩
    · rw [htx] at hzero
      exact shown_of_taken hwf hs h₁ hzero
    · exact absurd hs₂ (not_peered_of_idle rfl)
  cases acceptedStep_of_ok hc with
  | unacknowledged _ hfin =>
      split at hfin
      · exact aside (by rw [(onFin_tx hpeer hfin).1])
      · obtain rfl := Except.ok.inj hfin
        exact aside rfl
  | invalid => exact aside rfl
  | @discarded c₁ c₂ _ _ h₁ h₂ =>
      by_cases hlt : seg.seqn.lt c₂.rx.ackd = true
      · rw [if_pos hlt] at hs' hzero
        exact taken h₁ h₂ hs' hzero
      · rw [if_neg hlt] at hs' hzero
        exact taken h₁ h₂ hs' hzero
  | @stored c₁ c₂ c₃ _ rx _ _ h₁ h₂ _ _ h₃ hfin =>
      rcases onFinAcked_peered (h₁.peered hpeer).1 h₂ with ⟨-, hs₂, -⟩ | ⟨-, rfl⟩
      · have a := sendAck_spec h₃
        have hwindow : c₃.tx.window = c₂.tx.window := a.window
        refine taken h₁ h₂ hs₂ (hwindow.symm.trans ?_)
        split at hfin
        · rw [(onFin_tx (AckSent.rxState a hs₂).1 hfin).1] at hzero
          exact hzero
        · obtain rfl := Except.ok.inj hfin
          exact hzero
      · exact absurd h₃ (sendAck_closed rfl)

/-- A segment leaves the send window alone, or was no RST and closes the send
window only by showing a closed one. -/
theorem window_onSegment (hwf : WellFormed c) (hc : c.onSegment seg = .ok c') (hs' : Peered c') :
    Peered c ∧ c'.tx.window = c.tx.window ∨
      seg.hasRst = false ∧ (c'.tx.window = 0#16 → seg.window = 0#16) := by
  have unpeered {p : Prop} (hstate : c'.connectionState = c.connectionState)
      (hs : ¬ Peered c) : p := by
    unfold Peered at hs' hs
    rw [hstate] at hs'
    exact absurd hs' hs
  unfold Connection.onSegment at hc
  split at hc
  case h_1 hst | h_2 hst =>
    simp only [Fallible.bind_ok_iff] at hc
    obtain ⟨resp, -, hc⟩ := hc
    split at hc
    all_goals
      obtain rfl := Fallible.pure_ok_iff.mp hc
      exact unpeered rfl (not_peered_of_idle (by rw [hst]; rfl))
  case h_3 hst =>
    cases listened_of_ok hc with
    | ignored | refused => exact unpeered rfl (not_peered_of_idle (by rw [hst]; rfl))
    | answered hrst _ _ _ ha =>
        refine .inr ⟨hrst, fun hzero => ?_⟩
        rw [ha.tx, TxBuffer.onSend_window] at hzero
        exact hzero
  case h_4 hst =>
    have hno : ¬ Peered c := by simp [Peered, hst, ConnectionState.synced]
    cases synSentStep_of_ok hc with
    | ignored | refused | waiting => exact unpeered rfl hno
    | reset => exact absurd hs' (not_peered_of_idle rfl)
    | opened _ hrst _ _ _ hsend =>
        refine .inr ⟨hrst, fun hzero => ?_⟩
        rw [(sendAck_spec hsend).window, entered_tx] at hzero
        exact hzero
  case h_5 hst | h_6 hst | h_7 hst =>
    have hs : c.Peered := by simp [Peered, hst, ConnectionState.synced]
    cases synchronizedStep_iff.mp hc with
    | dropped | rejected => exact .inl ⟨hs, rfl⟩
    | reset _ _ hrst => exact absurd hs' (not_peered_of_idle (onRst_spec hrst).idle)
    | syn _ _ _ hsyn => exact absurd hs' (not_peered_of_idle (onSyn_spec hsyn).idle)
    | accepted _ hrst _ hacc => exact .inr ⟨hrst, shown_onAccepted hwf hs hacc hs'⟩

/-- A read takes so much out of a full buffer that its window opens again. -/
def Reopens (c : Connection Addr Time) (bufferLen : Nat) : Prop :=
  c.connectionState.isEstablished = true ∧ c.rx.currWindow = 0#16 ∧ c.rx.buffer.fin = false ∧
    bufferLen ≤ c.rx.availableBytes ∧ c.rx.availableBytes - bufferLen < c.rx.window.toNat

instance (c : Connection Addr Time) (bufferLen : Nat) : Decidable (c.Reopens bufferLen) := by
  unfold Reopens
  infer_instance

omit [UserTime Time] in
/-- Before the connection is open the receive window is, too. -/
theorem open_of_early (hwf : WellFormed c) (hs : c.connectionState.synced = false) :
    c.rx.currWindow ≠ 0#16 := by
  obtain ⟨-, hbytes, hfin⟩ := hwf.early hs
  intro hzero
  have hnat := c.rx.currWindow_toNat
  rw [hzero, hfin, hbytes, hwf.rxWindow] at hnat
  exact absurd hnat (by decide)

/-- A closed window stays closed until a read opens it or the connection ends. -/
theorem shut_step {op : Op Time} {out : Output} (hwf : WellFormed c)
    (hc : c.step op = .ok (c', out)) (hop : op ≠ .callConnect)
    (hno : ∀ bufferLen, op = .callRecv bufferLen → ¬ c.Reopens bufferLen)
    (hs : c.connectionState.synced = true) (hzero : c.rx.currWindow = 0#16) :
    c'.connectionState.gone = true ∨
      c'.connectionState.synced = true ∧ c'.rx.currWindow = 0#16 := by
  have hstate : c'.connectionState.gone = true ∨ c'.connectionState.synced = true := by
    cases (hwf.txEffect hc).moves hop with
    | same h => exact .inr (by rw [h, hs])
    | opened _ hs' => exact .inr hs'
    | cleared hidle hlisten =>
        refine .inl (ConnectionState.gone_of_idle hidle fun hl => ?_)
        rw [(hlisten hl).1] at hs
        cases hs
    | answered _ hst =>
        rw [hst] at hs
        cases hs
  refine hstate.imp_right fun hs' => ⟨hs', ?_⟩
  have unsynced {p : Prop} (hidle : c'.connectionState.idle = true) : p :=
    absurd hidle (by simp [ConnectionState.not_idle_of_synced hs'])
  have hnat := c.rx.currWindow_toNat
  rw [hzero] at hnat
  apply BitVec.eq_of_toNat_eq
  rw [c'.rx.currWindow_toNat]
  cases hwf.rxEffect hc with
  | kept _ hrx => rw [hrx, ← hnat]
  | cleared _ hidle => exact unsynced hidle
  | connecting _ hidle =>
      rw [ConnectionState.not_idle_of_synced hs] at hidle
      cases hidle
  | answered hst => rw [hst] at hs; cases hs
  | synAcked hst => rw [hst] at hs; cases hs
  | @stored seg _ _ _ hwrite =>
      obtain ⟨hbytes, hfin, -, -, hwindow, -⟩ := RxBuffer.write_spec hwrite
      rw [hbytes, hfin, hwindow, List.length_append]
      cases hmark : c.rx.buffer.fin with
      | true => rfl
      | false =>
          rw [hmark, if_neg Bool.false_ne_true] at hnat
          simp only [BitVec.toNat_ofNat, Nat.zero_mod] at hnat ⊢
          split <;> omega
  | finOnly _ _ _ _ _ _ _ _ hrx => rw [hrx, ← hnat]
  | waiting => exact hnat.symm
  | ended => exact hnat.symm
  | @read bufferLen data rx _ hst hread hlen _ hrx =>
      obtain ⟨hdata, hbytes, hfin, -, hwindow, -⟩ := RxBuffer.readBytes_spec hread
      rw [hrx, hbytes, hfin, hwindow]
      cases hmark : c.rx.buffer.fin with
      | true => rfl
      | false =>
          have hno := hno bufferLen rfl
          have htaken : bufferLen ≤ c.rx.availableBytes := by
            rw [hdata, List.length_take] at hlen
            rw [RxBuffer.availableBytes_eq]
            omega
          have hfull : c.rx.window.toNat ≤ c.rx.availableBytes - bufferLen := by
            by_contra hlt
            exact hno ⟨hst, hzero, hmark, htaken, by omega⟩
          rw [RxBuffer.availableBytes_eq] at hfull
          rw [if_neg Bool.false_ne_true, List.length_drop]
          simp only [BitVec.toNat_ofNat, Nat.zero_mod]
          omega
  | drained _ _ hread hlen hstate =>
      rcases hstate with ⟨-, -, hrx⟩ | ⟨hidle, -⟩
      · obtain ⟨-, -, hfin, -, -, -, -, hend⟩ := RxBuffer.readBytes_spec hread
        rw [hrx, hfin, hend hlen]
        rfl
      · exact unsynced hidle

/-- Every closed window on the wire is still closed, unless the connection has
ended. -/
def Honest (c : Connection Addr Time) : Prop :=
  ∀ s ∈ c.userData.sent, s.hasRst = false → s.window = 0#16 →
    c.connectionState.gone = true ∨
      c.connectionState.synced = true ∧ c.rx.currWindow = 0#16

omit [UserTime Time] in
/-- Only an open connection has a closed window. -/
theorem synced_of_shut (hwf : WellFormed c) (hshut : c.rx.currWindow = 0#16) :
    c.connectionState.synced = true := by
  by_contra hearly
  exact open_of_early hwf (Bool.eq_false_iff.mpr hearly) hshut

omit [UserTime Time] in
theorem Shows.honest (h : Shows c c') (hsent : c.userData.sent = []) (hre : c.tx.reTx = [])
    (hwf : WellFormed c') : Honest c' := by
  intro s hs hrst hzero
  rcases h s hs with hold | hold | hbad | hshown
  · rw [hsent] at hold
    cases hold
  · rw [hre] at hold
    cases hold
  · exact absurd (hrst.symm.trans hbad) Bool.false_ne_true
  · have hshut : c'.rx.currWindow = 0#16 := hshown.symm.trans hzero
    exact .inr ⟨synced_of_shut hwf hshut, hshut⟩

/-- An operation that opens no closed window leaves the wire honest. -/
theorem Honest.step {op : Op Time} {out : Output} (h : Honest c) (hwf : WellFormed c)
    (hlogged : ∀ s ∈ c.tx.reTx, s ∈ c.userData.sent) (hc : c.step op = .ok (c', out))
    (hop : op ≠ .callConnect)
    (hno : ∀ bufferLen, op = .callRecv bufferLen → ¬ c.Reopens bufferLen) : Honest c' := by
  intro s hs hrst hzero
  have old (hs : s ∈ c.userData.sent) : c'.connectionState.gone = true ∨
      c'.connectionState.synced = true ∧ c'.rx.currWindow = 0#16 := by
    rcases h s hs hrst hzero with hgone | ⟨hsync, hshut⟩
    · exact .inl (((hwf.txEffect hc).moves hop).gone hgone)
    · exact shut_step hwf hc hop hno hsync hshut
  rcases shows_step hc s hs with hold | hre | hbad | hshown
  · exact old hold
  · exact old (hlogged s hre)
  · exact absurd (hrst.symm.trans hbad) Bool.false_ne_true
  · have hshut : c'.rx.currWindow = 0#16 := hshown.symm.trans hzero
    exact .inr ⟨synced_of_shut (hwf.step hc) hshut, hshut⟩

/-- A closed send window was shown by a segment among those. -/
def ToldBy (c : Connection Addr Time) (log : List SegmentMeta) : Prop :=
  Peered c → c.tx.window = 0#16 → ∃ s ∈ log, s.hasRst = false ∧ s.window = 0#16

omit [UserTime Time] in
theorem ToldBy.mono {log log' : List SegmentMeta} (h : ToldBy c log) (hlog : log ⊆ log') :
    ToldBy c log' := by
  intro hs hzero
  obtain ⟨s, hmem, hshown⟩ := h hs hzero
  exact ⟨s, hlog hmem, hshown⟩

theorem ToldBy.step {log : List SegmentMeta} {op : Op Time} {out : Output} (h : ToldBy c log)
    (hwf : WellFormed c) (hc : c.step op = .ok (c', out)) (hop : op ≠ .callConnect)
    (hsent : ∀ seg, op = .onSegment seg → seg ∈ log) : ToldBy c' log := by
  intro hs' hzero
  by_cases hseg : ∃ seg, op = .onSegment seg
  · obtain ⟨seg, rfl⟩ := hseg
    rcases window_onSegment hwf (step_onSegment.mp hc).1 hs' with ⟨hs, hsame⟩ | ⟨hrst, hshown⟩
    · exact h hs (hsame.symm.trans hzero)
    · exact ⟨seg, hsent seg rfl, hrst, hshown hzero⟩
  · have hseg (seg : SegmentMeta) : op ≠ .onSegment seg := fun heq => hseg ⟨seg, heq⟩
    rcases window_of_step hc hseg with hsame | ⟨hidle, -⟩
    · refine h ?_ (hsame.symm.trans hzero)
      cases (hwf.txEffect hc).moves hop with
      | same heq =>
          unfold Peered at hs' ⊢
          rw [heq] at hs'
          exact hs'
      | opened hs => exact hs.elim id fun hs => absurd hs.2 fun ⟨seg, heq⟩ => hseg seg heq
      | cleared hidle => exact absurd hs' (not_peered_of_idle hidle)
      | answered heq => exact absurd heq (hseg _)
    · exact absurd hs' (not_peered_of_idle hidle)

end Connection

end TcpState
