import TcpState.Connection.AcceptedStep
import TcpState.Connection.Watch

/-!
# The congestion window along a run

The window of 16 bits starts at 4096 and grows by the length of every segment
that acknowledges something new. Nothing shrinks it before the connection is
cleared, and nothing bounds it before it overflows.
-/

namespace TcpState

namespace Connection

variable {Addr Time : Type} {c c' : Connection Addr Time} {seg : SegmentMeta}

/-- The segment is acceptable and acknowledges something new, so that it runs
the window update. -/
def UpdatesWindow (c : Connection Addr Time) (seg : SegmentMeta) : Prop :=
  Peered c ∧ c.checkSegmentSeqOk seg = true ∧ seg.hasRst = false ∧ seg.hasSyn = false ∧
    seg.hasAck = true ∧ seg.ackn.inRangeInclusive c.tx.unack c.tx.next = true ∧
      c.tx.unack ≠ seg.ackn

instance (c : Connection Addr Time) (seg : SegmentMeta) : Decidable (c.UpdatesWindow seg) := by
  unfold UpdatesWindow
  infer_instance

/-- The update does not overflow and neither shrinks nor closes the window. -/
def WindowKept (c : Connection Addr Time) (seg : SegmentMeta) : Prop :=
  ∃ w, c.nextCongestionWindow seg = .ok w ∧ c.congestionWindow.toNat ≤ w.toNat ∧ w ≠ 0#16

theorem nextCongestionWindow_ok (h : WellFormed c) {w : BitVec 16}
    (hw : c.nextCongestionWindow seg = .ok w) :
    w.toNat = c.congestionWindow.toNat + seg.data.length % 2 ^ 16 := by
  rw [nextCongestionWindow_eq h.dupAck h.congestion] at hw
  obtain ⟨hlt, rfl⟩ := addU16_ok_iff.mp hw
  rw [BitVec.toNat_add, Nat.mod_eq_of_lt hlt, BitVec.toNat_ofNat]

theorem windowKept_iff (h : WellFormed c) : c.WindowKept seg ↔
    c.congestionWindow.toNat + seg.data.length % 2 ^ 16 < 2 ^ 16 := by
  constructor
  · rintro ⟨w, hw, -⟩
    rw [← nextCongestionWindow_ok h hw]
    exact w.isLt
  · intro hlt
    have hw : c.nextCongestionWindow seg =
        .ok (c.congestionWindow + BitVec.ofNat 16 seg.data.length) := by
      rw [nextCongestionWindow_eq h.dupAck h.congestion]
      exact addU16_ok_iff.mpr ⟨by rw [BitVec.toNat_ofNat]; exact hlt, rfl⟩
    have hsum := nextCongestionWindow_ok h hw
    have hcw := h.congestion
    refine ⟨_, hw, by omega, fun hzero => ?_⟩
    rw [hzero] at hsum
    simp [initialWindowSize] at hsum hcw
    omega

variable [UserTime Time]

/-- The window is kept, or the connection is cleared. -/
def CongestionKept (c c' : Connection Addr Time) : Prop :=
  c'.congestionWindow = c.congestionWindow ∧
      (c'.connectionState.idle = true → c.connectionState.idle = true) ∨
    c'.connectionState.idle = true ∧ c'.congestionWindow = initialWindowSize

/-- What an operation does to the congestion window. -/
inductive CongestionStep (c : Connection Addr Time) (op : Op Time) (c' : Connection Addr Time) :
    Prop
  | kept (hno : ∀ seg, op = .onSegment seg → ¬ c.UpdatesWindow seg) (h : CongestionKept c c')
  | updated {seg : SegmentMeta} (hop : op = .onSegment seg) (hs : c.UpdatesWindow seg)
      (hw : c.nextCongestionWindow seg = .ok c'.congestionWindow)
      (hlive : c'.connectionState.idle = false)
  | finished {seg : SegmentMeta} (hop : op = .onSegment seg)
      (hw : c.UpdatesWindow seg → ∃ w, c.nextCongestionWindow seg = .ok w)
      (hidle : c'.connectionState.idle = true) (hcw : c'.congestionWindow = initialWindowSize)

omit [UserTime Time] in
theorem CongestionKept.of_eq (hcw : c'.congestionWindow = c.congestionWindow)
    (hst : c'.connectionState = c.connectionState) : CongestionKept c c' :=
  .inl ⟨hcw, fun h => by rw [← hst]; exact h⟩

omit [UserTime Time] in
theorem CongestionKept.of_live (hcw : c'.congestionWindow = c.congestionWindow)
    (hlive : c'.connectionState.idle = false) : CongestionKept c c' :=
  .inl ⟨hcw, fun h => absurd (hlive.symm.trans h) Bool.false_ne_true⟩

omit [UserTime Time] in
theorem CongestionKept.clear (c c₀ : Connection Addr Time) : CongestionKept c c₀.clear :=
  .inr ⟨rfl, rfl⟩

omit [UserTime Time] in
theorem CongestionKept.cleared {state : ConnectionState} (c₀ : Connection Addr Time)
    (hidle : state.idle = true) : CongestionKept c (c₀.clear.entered state) := by
  refine .inr ⟨?_, entered_congestionWindow _ _⟩
  rw [entered_connectionState]
  exact hidle

/-- Entering an open state keeps the window or clears the connection. -/
theorem stateSet_congestion (c : Connection Addr Time) (t r : ChannelState) (cc ca : Bool) :
    CongestionKept c (c.stateSet (.established t r cc ca)) := by
  unfold stateSet
  split
  · exact .of_live (by simp) rfl
  · exact .clear _ _
  · refine .of_live (entered_congestionWindow _ _) ?_
    rw [entered_connectionState]
    rfl

theorem closing_congestion (c : Connection Addr Time) (ca : Bool) :
    CongestionKept c (c.closing ca) := by
  have h := stateSet_congestion c c.connectionState.tx c.connectionState.rx true ca
  unfold closing
  split
  · exact h
  · exact h

omit [UserTime Time] in
theorem CongestionKept.after {c₁ : Connection Addr Time} (h : CongestionKept c₁ c')
    (hcw : c₁.congestionWindow = c.congestionWindow) (hlive : c₁.connectionState.idle = false) :
    CongestionKept c c' := by
  rcases h with ⟨hcw', hidle⟩ | h
  · exact .inl ⟨hcw'.trans hcw, fun h => absurd (hlive.symm.trans (hidle h)) Bool.false_ne_true⟩
  · exact .inr h

theorem onFin_congestion {isNew : Bool} (hc : c.onFin isNew = .ok c') :
    c'.congestionWindow = c.congestionWindow := by
  unfold onFin at hc
  split at hc
  case h_1 | h_2 | h_3 | h_7 =>
    obtain rfl := Fallible.pure_ok_iff.mp hc
    rfl
  case h_4 =>
    split at hc
    · obtain rfl := Fallible.pure_ok_iff.mp hc
      rfl
    · obtain rfl := Fallible.pure_ok_iff.mp hc
      rfl
  case h_5 hst =>
    obtain ⟨-, -, rfl⟩ := setState_ok_iff.mp hc
    rw [stateSet_eq_entered _ (.inl (by decide)), entered_congestionWindow]
    rfl
  case h_6 t r cc ca hst =>
    obtain ⟨-, -, rfl⟩ := setState_ok_iff.mp hc
    rw [stateSet_eq_entered _ (.inr (.inl (by decide))), entered_congestionWindow]
    rfl

theorem onFinAcked_congestion {ackn : SeqN} (hs : Peered c) (hc : c.onFinAcked ackn = .ok c') :
    Peered c' ∧ c'.congestionWindow = c.congestionWindow ∨
      ∃ c₀ : Connection Addr Time, c' = c₀.clear := by
  rcases onFinAcked_peered hs hc with ⟨-, hs', -⟩ | ⟨-, rfl⟩
  · refine .inl ⟨hs', ?_⟩
    rcases onFinAcked_ok_iff.mp hc with ⟨r, cc, ca, -, -, -, -, rfl⟩ | ⟨-, rfl⟩
    · rcases stateSet_congestion c .closed r cc ca with ⟨hcw, -⟩ | ⟨hidle, -⟩
      · exact hcw
      · rw [hs'.not_idle] at hidle
        cases hidle
    · rfl
  · exact .inr ⟨_, rfl⟩

/-- An acceptable segment. -/
theorem congestion_onAccepted (hs : Peered c) (hcheck : c.checkSegmentSeqOk seg = true)
    (hrst : seg.hasRst = false) (hsyn : seg.hasSyn = false)
    (hc : (c.windowed seg).onAccepted seg = .ok c') : CongestionStep c (.onSegment seg) c' := by
  have hs₀ : Peered (c.windowed seg) := hs
  have counts {c₁ c₂ : Connection Addr Time} (hack : seg.hasAck = true)
      (hrange : seg.ackn.inRangeInclusive c.tx.unack c.tx.next = true)
      (h₁ : (c.windowed seg).Takes seg c₁) (h₂ : c₁.onFinAcked seg.ackn = .ok c₂)
      (hlive : Peered c₂ → c'.connectionState.idle = false ∧
        c'.congestionWindow = c₂.congestionWindow)
      (hcleared : ∀ c₀ : Connection Addr Time, c₂ = c₀.clear →
        c'.connectionState.idle = true ∧ c'.congestionWindow = initialWindowSize) :
      CongestionStep c (.onSegment seg) c' := by
    have hupdate (hne : (c.windowed seg).tx.unack ≠ seg.ackn)
        (hnew : NewAck (c.windowed seg).opened seg c₁) :
        c.nextCongestionWindow seg = .ok c₁.congestionWindow := by
      rw [← hnew.congestion]
      simp only [nextCongestionWindow, opened_congestionWindow, opened_dupAckCount]
      rfl
    rcases onFinAcked_congestion (h₁.peered hs₀).1 h₂ with ⟨hs₂, hcw₂⟩ | ⟨c₀, hc₀⟩
    · obtain ⟨hidle, hcw⟩ := hlive hs₂
      cases h₁.acknowledged with
      | repeated heq =>
          refine .kept (fun s hop hupdates => ?_) (.of_live ?_ hidle)
          · obtain rfl := Op.onSegment.inj hop
            exact hupdates.2.2.2.2.2.2 heq
          · rw [hcw, hcw₂, opened_congestionWindow]
            rfl
      | new hne hnew =>
          refine .updated rfl ⟨hs, hcheck, hrst, hsyn, hack, hrange, hne⟩ ?_ hidle
          rw [hcw, hcw₂]
          exact hupdate hne hnew
    · obtain ⟨hidle, hcw⟩ := hcleared c₀ hc₀
      refine .finished rfl (fun hupdates => ?_) hidle hcw
      cases h₁.acknowledged with
      | repeated heq => exact absurd heq hupdates.2.2.2.2.2.2
      | new hne hnew => exact ⟨_, hupdate hne hnew⟩
  cases acceptedStep_of_ok hc with
  | unacknowledged hack hfin =>
      refine .kept (fun s hop hupdates => ?_) ?_
      · obtain rfl := Op.onSegment.inj hop
        exact absurd (hack.symm.trans hupdates.2.2.2.2.1) Bool.false_ne_true
      split at hfin
      · have hcw := onFin_congestion hfin
        exact .of_live hcw (onFin_rx hs₀ hfin).1.not_idle
      · obtain rfl := Except.ok.inj hfin
        exact .of_eq rfl rfl
  | invalid _ hrange =>
      refine .kept (fun s hop hupdates => ?_) (.of_eq rfl rfl)
      obtain rfl := Op.onSegment.inj hop
      exact absurd (hrange.symm.trans hupdates.2.2.2.2.2.1) Bool.false_ne_true
  | @discarded c₁ c₂ hack hrange h₁ h₂ =>
      refine counts hack hrange h₁ h₂ (fun hs₂ => ?_) (fun c₀ hc₀ => ?_)
      · split
        · exact ⟨hs₂.not_idle, rfl⟩
        · exact ⟨hs₂.not_idle, rfl⟩
      · rw [hc₀]
        split
        · exact ⟨rfl, rfl⟩
        · exact ⟨rfl, rfl⟩
  | @stored c₁ c₂ c₃ _ rx hack hrange h₁ h₂ _ _ h₃ hfin =>
      refine counts hack hrange h₁ h₂ (fun hs₂ => ?_) (fun c₀ hc₀ => ?_)
      · have a := sendAck_spec h₃
        have hs₃ := (AckSent.rxState a hs₂).1
        split at hfin
        · exact ⟨(onFin_rx hs₃ hfin).1.not_idle,
            (onFin_congestion hfin).trans a.congestionWindow⟩
        · obtain rfl := Except.ok.inj hfin
          exact ⟨hs₃.not_idle, a.congestionWindow⟩
      · rw [hc₀] at h₃
        exact absurd h₃ (sendAck_closed rfl)

/-- An incoming segment. -/
theorem congestion_onSegment (hc : c.onSegment seg = .ok c') :
    CongestionStep c (.onSegment seg) c' := by
  have aside (hs : ¬ Peered c) (h : CongestionKept c c') :
      CongestionStep c (.onSegment seg) c' := by
    refine .kept (fun s hop hupdates => ?_) h
    obtain rfl := Op.onSegment.inj hop
    exact hs hupdates.1
  unfold Connection.onSegment at hc
  split at hc
  case h_1 hst | h_2 hst =>
    refine aside (by rw [Peered, hst]; decide) ?_
    simp only [Fallible.bind_ok_iff] at hc
    obtain ⟨response, -, hc⟩ := hc
    split at hc
    · obtain rfl := Fallible.pure_ok_iff.mp hc
      exact .of_eq rfl rfl
    · obtain rfl := Fallible.pure_ok_iff.mp hc
      exact .of_eq rfl rfl
  case h_3 hst =>
    refine aside (by rw [Peered, hst]; decide) ?_
    cases listened_of_ok hc with
    | ignored | refused => exact .of_eq rfl rfl
    | answered _ _ _ _ h => exact .of_live h.congestionWindow (by rw [h.state]; rfl)
  case h_4 hst =>
    refine aside (by rw [Peered, hst]; decide) ?_
    cases synSentStep_of_ok hc with
    | ignored | refused | waiting => exact .of_eq rfl rfl
    | reset => exact .inr ⟨rfl, rfl⟩
    | opened _ _ _ _ _ h =>
        have a := sendAck_spec h
        have hs : Peered ((c.synAcked seg).entered .fullyOpen) := by
          rw [Peered, entered_connectionState]
          exact .inl rfl
        refine .of_live (a.congestionWindow.trans ?_) (AckSent.rxState a hs).1.not_idle
        exact entered_congestionWindow _ _
  case h_5 hst | h_6 hst | h_7 hst =>
    have hs : Peered c := by simp [Peered, hst, ConnectionState.synced]
    have quiet (hno : ¬ c.UpdatesWindow seg) (h : CongestionKept c c') :
        CongestionStep c (.onSegment seg) c' := by
      refine .kept (fun s hop => ?_) h
      obtain rfl := Op.onSegment.inj hop
      exact hno
    cases synchronizedStep_iff.mp hc with
    | dropped hcheck | rejected hcheck =>
        refine quiet (fun h => ?_) (.of_eq rfl rfl)
        exact absurd (hcheck.symm.trans h.2.1) Bool.false_ne_true
    | reset _ hrst h =>
        refine quiet (fun h => ?_) ?_
        · exact absurd (h.2.2.1.symm.trans hrst) Bool.false_ne_true
        · unfold onRst at h
          split at h
          · obtain ⟨-, -, rfl⟩ := setState_ok_iff.mp h
            rw [stateSet_listen]
            exact .cleared _ rfl
          · obtain ⟨-, -, rfl⟩ := setState_ok_iff.mp h
            rw [stateSet_reset]
            exact .cleared _ rfl
          · cases h
    | syn _ _ hsyn h =>
        refine quiet (fun h => ?_) ?_
        · exact absurd (h.2.2.2.1.symm.trans hsyn) Bool.false_ne_true
        · obtain ⟨-, -, rfl⟩ := setState_ok_iff.mp h
          rw [stateSet_reset]
          exact .cleared _ rfl
    | accepted hcheck hrst hsyn h => exact congestion_onAccepted hs hcheck hrst hsyn h

/-- One step of a run. -/
theorem congestion_of_step {op : Op Time} {out : Output} (hc : c.step op = .ok (c', out)) :
    CongestionStep c op c' := by
  by_cases hseg : ∃ seg, op = .onSegment seg
  · obtain ⟨seg, rfl⟩ := hseg
    exact congestion_onSegment (step_onSegment.mp hc).1
  have hop (seg : SegmentMeta) : op ≠ .onSegment seg := fun h => hseg ⟨seg, h⟩
  refine .kept (fun seg h => absurd h (hop seg)) ?_
  cases opStep_of_ok hc with
  | @onSegment seg _ _ => exact absurd rfl (hop seg)
  | callConnect hc =>
      cases connectStep_of_ok hc with
      | refused => exact .of_eq rfl rfl
      | connecting _ hsyn => exact .of_live hsyn.congestionWindow (by rw [hsyn.state]; rfl)
  | callSend hc =>
      cases (sendStep_of_ok hc).2 with
      | refused | delayed | queued => exact .of_eq rfl rfl
      | sent hs _ _ hsend =>
          have a := sendAck_spec hsend
          refine .of_live a.congestionWindow (AckSent.rxState a ?_).1.not_idle
          rw [Peered, withQueue_connectionState, hs]
          exact .inl rfl
  | callRecv hc =>
      cases recvStep_of_ok hc with
      | refused | ended | early | waiting | read | full => exact .of_eq rfl rfl
      | @drained t cc ca rx _ hs =>
          refine (stateSet_congestion { c with rx := rx } t .closed cc ca).after rfl ?_
          rw [hs]
          rfl
  | callShutdown hc =>
      cases shutdownStep_of_ok hc with
      | refused | delayed => exact .of_eq rfl rfl
      | cleared => exact .clear _ _
      | early _ _ hsend =>
          refine .of_live ?_ (by rw [entered_connectionState]; rfl)
          rw [entered_congestionWindow, (sendAck_spec hsend).congestionWindow]
          rfl
      | @active cc _ _ _ _ _ _ hsend =>
          have a := sendAck_spec hsend
          have hs : Peered (c.entered (.established .opened .opened cc true)).marked := by
            rw [Peered, withQueue_connectionState, entered_connectionState]
            exact .inl rfl
          refine .of_live (a.congestionWindow.trans ?_) (AckSent.rxState a hs).1.not_idle
          exact entered_congestionWindow _ _
      | passive hs _ _ _ hsend =>
          have a := sendAck_spec hsend
          refine .of_live a.congestionWindow (AckSent.rxState a ?_).1.not_idle
          rw [Peered, withQueue_connectionState, hs]
          exact .inl rfl
  | callClose hc =>
      cases closeStep_of_ok hc with
      | refused | delayed => exact .of_eq rfl rfl
      | cleared => exact .clear _ _
      | early _ _ _ hsend =>
          refine .of_live ?_ ?_
          · exact (entered_congestionWindow _ _).trans (sendAck_spec hsend).congestionWindow
          · change (Connection.entered _ _).connectionState.idle = false
            rw [entered_connectionState]
            rfl
      | @opened rx _ ca c₁ _ hs _ _ hsend =>
          have a := sendAck_spec hsend
          refine (closing_congestion c₁ (ca || decide (rx = .opened))).after
            a.congestionWindow (AckSent.rxState a ?_).1.not_idle
          rw [Peered, withQueue_connectionState, hs]
          exact .inl rfl
      | @ended _ rx _ ca _ hs =>
          refine (closing_congestion c (ca || decide (rx = .opened))).after rfl ?_
          rw [hs]
          rfl
  | callAbort hc =>
      cases abortStep_of_ok hc with
      | refused => exact .of_eq rfl rfl
      | cleared | reset => exact .clear _ _
  | setOptions => exact .of_eq rfl rfl
  | onTimeTick hc =>
      cases tickStep_of_ok hc with
      | kept hstate _ _ _ hcw => exact .of_eq hcw hstate
      | cleared => exact .clear _ _

/-- The bytes carried by the segments that updated the window since the
connection was last cleared. -/
def growth (Addr Time : Type) [UserTime Time] : Watch Addr Time Nat where
  start := 0
  note n c op _ c' :=
    if c'.connectionState.idle then 0
    else match op with
      | .onSegment seg => if c.UpdatesWindow seg then n + seg.data.length % 2 ^ 16 else n
      | _ => n

/-- The window is the initial window and what the segments carried. -/
structure Grown (c : Connection Addr Time) (n : Nat) : Prop where
  window : c.congestionWindow.toNat = initialWindowSize.toNat + n
  idle : c.connectionState.idle = true → n = 0

omit [UserTime Time] in
theorem Grown.kept {n : Nat} (h : Grown c n) (hkept : CongestionKept c c') :
    Grown c' (if c'.connectionState.idle then 0 else n) := by
  rcases hkept with ⟨hcw, hidle⟩ | ⟨hidle, hcw⟩
  · split
    · rename_i hidle'
      refine ⟨?_, fun _ => rfl⟩
      rw [hcw, h.window, h.idle (hidle hidle')]
    · rename_i hlive
      exact ⟨by rw [hcw, h.window], fun h' => absurd h' hlive⟩
  · rw [if_pos hidle]
    exact ⟨by rw [hcw, Nat.add_zero], fun _ => rfl⟩

/-- One operation moves the window as the note says. -/
theorem Grown.step {n : Nat} {op : Op Time} {out : Output} (hreach : Reachable c)
    (h : Grown c n) (hc : c.step op = .ok (c', out)) :
    Grown c' ((growth Addr Time).note n c op out c') := by
  cases congestion_of_step hc with
  | kept hno hkept =>
      have hnote : (growth Addr Time).note n c op out c' =
          if c'.connectionState.idle then 0 else n := by
        cases op with
        | onSegment seg => simp only [growth, if_neg (hno seg rfl)]
        | _ => rfl
      rw [hnote]
      exact h.kept hkept
  | @updated seg hop hs hw hlive =>
      subst hop
      have hnote : (growth Addr Time).note n c (.onSegment seg) out c' =
          n + seg.data.length % 2 ^ 16 := by
        simp only [growth, hlive, if_pos hs, Bool.false_eq_true, if_false]
      rw [hnote]
      refine ⟨?_, fun h' => absurd (hlive.symm.trans h') Bool.false_ne_true⟩
      rw [nextCongestionWindow_ok hreach.wellFormed hw, h.window, Nat.add_assoc]
  | finished hop _ hidle hcw =>
      have hnote : (growth Addr Time).note n c op out c' = 0 := by
        simp only [growth, hidle, if_true]
      rw [hnote]
      exact ⟨by rw [hcw, Nat.add_zero], fun _ => rfl⟩

theorem Initial.grown (h : Initial c) : Grown c 0 := by
  rcases h with ⟨remote, userData, rfl⟩ | ⟨l, addr, userData, h⟩
  · exact ⟨rfl, fun _ => rfl⟩
  · rw [acceptor_eq] at h
    obtain rfl := Except.ok.inj h
    exact ⟨rfl, fun _ => rfl⟩

theorem grown_of_reachable {n : Nat} (h : (growth Addr Time).Reachable c n) : Grown c n := by
  refine h.invariant (P := Grown) (fun c hinit => hinit.grown) ?_
  intro c n op out c' hreach hn hc
  exact hn.step hreach hc

/-- Nothing gets past an update that overflows. -/
theorem windowKept_of_ok (h : WellFormed c) (hs : c.UpdatesWindow seg)
    (hc : c.onSegment seg = .ok c') : c.WindowKept seg := by
  have kept {w : BitVec 16} (hw : c.nextCongestionWindow seg = .ok w) : c.WindowKept seg := by
    rw [windowKept_iff h, ← nextCongestionWindow_ok h hw]
    exact w.isLt
  cases congestion_onSegment hc with
  | kept hno => exact absurd hs (hno seg rfl)
  | updated hop _ hw =>
      obtain rfl := Op.onSegment.inj hop
      exact kept hw
  | finished hop hw =>
      obtain rfl := Op.onSegment.inj hop
      obtain ⟨w, hw⟩ := hw hs
      exact kept hw

/-- In every run an update keeps the window exactly as long as the segments
that updated it carry fewer than 61440 bytes, and only then the segment is
processed. -/
theorem congestion_kept_iff {n : Nat} (h : (growth Addr Time).Reachable c n)
    (hs : c.UpdatesWindow seg) :
    (c.WindowKept seg ↔ n + seg.data.length % 2 ^ 16 < 61440) ∧
      ∀ c', c.onSegment seg = .ok c' → c.WindowKept seg := by
  refine ⟨?_, fun c' hc => windowKept_of_ok h.conn.wellFormed hs hc⟩
  rw [windowKept_iff h.conn.wellFormed, (grown_of_reachable h).window]
  simp only [initialWindowSize, BitVec.toNat_ofNat]
  omega

/-- The acknowledgement of one byte, with a full receive window of data. -/
def replyRound (i : Nat) : List (Op Nat) :=
  [.callSend [1], .onSegment ⟨101#32 + BitVec.ofNat 32 (4096 * i), 2#32 + BitVec.ofNat 32 i,
    4096#16, .ack, List.replicate 4096 7⟩, .callRecv 4096]

/-- One such reply grows the window. -/
theorem congestion_kept_reply : ∃ c : Connection Unit Nat,
    c.UpdatesWindow ⟨101#32, 2#32, 4096#16, .ack, [5]⟩ ∧
      (c.WindowKept ⟨101#32, 2#32, 4096#16, .ack, [5]⟩ ↔ 0 + [5].length % 2 ^ 16 < 61440) := by
  obtain ⟨⟨c, n⟩, hreach, hs, rfl⟩ : ∃ s : Connection Unit Nat × Nat,
      Transition.Reachable (growth Unit Nat).system s ∧
        s.1.UpdatesWindow ⟨101#32, 2#32, 4096#16, .ack, [5]⟩ ∧ s.2 = 0 :=
    Transition.exists_reachableUnder (growth Unit Nat).step_of_next
      ((growth Unit Nat).init_start (initial_listening () .default zeroUser))
      [.onSegment ⟨100#32, 0#32, 4096#16, .syn, []⟩,
       .onSegment ⟨101#32, 1#32, 4096#16, .ack, []⟩, .callSend [1]] (by decide)
  exact ⟨c, hs, (congestion_kept_iff hreach hs).1⟩

set_option maxRecDepth 20000 in
/-- Fourteen replies of 4096 bytes bring the window to its end. -/
theorem congestion_overflows : ¬ ∀ (c : Connection Unit Nat) (seg : SegmentMeta), Reachable c →
    c.UpdatesWindow seg → c.WindowKept seg := by
  intro hall
  obtain ⟨c, hreach, hs, hover⟩ : ∃ c : Connection Unit Nat, Reachable c ∧
      c.UpdatesWindow ⟨57445#32, 16#32, 4096#16, .ack, List.replicate 4096 7⟩ ∧
        2 ^ 16 ≤ c.congestionWindow.toNat + 4096 :=
    Transition.exists_reachableUnder step_of_next (initial_listening () .default zeroUser)
      ([.onSegment ⟨100#32, 0#32, 4096#16, .syn, []⟩,
        .onSegment ⟨101#32, 1#32, 4096#16, .ack, []⟩] ++ (List.range 14).flatMap replyRound ++
        [.callSend [1]]) (by decide)
  have hkept := (windowKept_iff hreach.wellFormed).mp (hall c _ hreach hs)
  rw [List.length_replicate] at hkept
  omega

end Connection

end TcpState
