import TcpState.Connection.Resets

/-!
# Sends before the connection is open

A send during the handshake waits for the acknowledgement of a sequence number
that is computed from the length of its own bytes. A run notes where the bytes
of every such send end, counted from our SYN, and how far the peer has
acknowledged.
-/

namespace TcpState

/-- A send during the handshake. Its bytes end at `stop`, and it is `foremost`
when they were queued first and are short of half the sequence numbers. -/
structure EarlySend where
  cookie : Cookie
  stop : Nat
  foremost : Bool
deriving DecidableEq

/-- What is noted of a connection from its SYN on, which counts as the first
number: the numbers sent and acknowledged, and the sends during the handshake. -/
structure SendLog where
  sent : Nat
  acked : Nat
  early : List EarlySend

namespace Connection

variable {Addr Time : Type} {c c' : Connection Addr Time}

/-- No byte is queued before these, and the number to wait for is not half way
round from what a handshake acknowledges. -/
def Foremost (c : Connection Addr Time) (inputData : List UInt8) : Prop :=
  c.tx.tx.bytes = [] ∧
    inputData.length + (if c.connectionState = .synSent then 1 else 0) ≤ 2 ^ 31

instance (c : Connection Addr Time) (inputData : List UInt8) :
    Decidable (c.Foremost inputData) := by
  unfold Foremost
  infer_instance

/-- The send during the handshake that an operation is. -/
def earlySend (c : Connection Addr Time) : Op Time → Output → List EarlySend
  | .callSend inputData, .call (.error (.continueAfter k)) =>
      [⟨k, 1 + c.tx.tx.bytes.length + inputData.length, decide (c.Foremost inputData)⟩]
  | _, _ => []

end Connection

namespace SendLog

open Connection

variable {Addr Time : Type}

/-- The note starts over when a connection is cleared or opened anew. -/
def watch (Addr Time : Type) : Watch Addr Time SendLog where
  start := ⟨1, 0, []⟩
  note n c op out c' :=
    if c.connectionState.idle || c'.connectionState.idle then ⟨1, 0, []⟩
    else ⟨n.sent + Circular.span c.tx.next c'.tx.next,
      n.acked + Circular.span c.tx.unack c'.tx.unack, n.early ++ c.earlySend op out⟩

variable {c c' : Connection Addr Time} {n : SendLog} {op : Op Time} {out : Output}

theorem note_eq (hidle : c.connectionState.idle = false)
    (hidle' : c'.connectionState.idle = false) :
    (watch Addr Time).note n c op out c' =
      ⟨n.sent + Circular.span c.tx.next c'.tx.next,
        n.acked + Circular.span c.tx.unack c'.tx.unack, n.early ++ c.earlySend op out⟩ := by
  change (if _ then _ else _) = _
  rw [hidle, hidle']
  rfl

end SendLog

namespace Connection

variable {Addr Time : Type} [UserTime Time] {c c' : Connection Addr Time} {seg : SegmentMeta}

section Advances

omit [UserTime Time] in
/-- Between clears the initial number stays, and `unack` moves up to `next`. -/
theorem TxEffect.advances {op : Op Time} {out : Output} (effect : TxEffect c op out c')
    (hidle : c.connectionState.idle = false) (hidle' : c'.connectionState.idle = false) :
    c'.tx.initSeqn = c.tx.initSeqn ∧
      c'.tx.unack.inRangeInclusive c.tx.unack c.tx.next = true := by
  have still {x : SeqN} (h : x = c.tx.unack) : x.inRangeInclusive c.tx.unack c.tx.next = true := by
    rw [h, SeqN.inRangeInclusive_iff, Circular.span_self]
    exact Nat.zero_le _
  have busy {state : ConnectionState} (hst : c.connectionState = state)
      (h : state.idle = true) : False := by
    rw [hst, h] at hidle
    cases hidle
  cases effect with
  | kept _ htx => exact ⟨htx.initSeqn, still htx.unack⟩
  | cleared _ h => exact absurd (hidle'.symm.trans h) Bool.false_ne_true
  | connecting hs => rcases hs with hs | hs <;> exact (busy hs rfl).elim
  | answered hst => exact (busy hst rfl).elim
  | queued _ _ _ htx =>
      rw [htx]
      exact ⟨rfl, still rfl⟩
  | appended _ _ _ _ _ _ h => exact ⟨h.initSeqn, still h.unack⟩
  | marked _ _ _ _ _ htx _ _ _ h =>
      rw [h.initSeqn, h.unack, htx]
      exact ⟨rfl, still rfl⟩
  | acked _ _ _ hrange htx =>
      rw [htx]
      exact ⟨rfl, hrange⟩
  | stored _ hstores htx _ _ _ h =>
      rw [h.initSeqn, h.unack, htx]
      exact ⟨rfl, hstores.range⟩
  | synAcked _ hrange => exact ⟨rfl, hrange⟩
  | opened _ hrange _ _ _ _ h =>
      rw [h.initSeqn, h.unack, entered_tx]
      exact ⟨rfl, hrange⟩

omit [UserTime Time] in
/-- A cleared or new connection is used again by a handshake. -/
theorem TxEffect.opening {op : Op Time} {out : Output} (effect : TxEffect c op out c')
    (hidle : c.connectionState.idle = true) (hidle' : c'.connectionState.idle = false) :
    c'.connectionState.opening = true := by
  have hpeer : ¬ c.Peered := not_peered_of_idle hidle
  have kept {p : Prop} (h : c'.connectionState = c.connectionState) : p := by
    rw [h, hidle] at hidle'
    cases hidle'
  cases effect with
  | kept _ _ hstate =>
      rcases hstate with h | ⟨hs | ⟨hs, -⟩, -⟩
      · exact kept h
      · exact absurd (.inl hs) hpeer
      · exact absurd hs hpeer
  | cleared _ h => exact absurd (hidle'.symm.trans h) Bool.false_ne_true
  | connecting _ _ h => rw [h.state]; rfl
  | answered _ _ _ h => rw [h.state]; rfl
  | queued _ _ _ _ hstate => exact kept hstate
  | appended _ _ _ _ _ _ _ hstate => exact kept hstate
  | marked _ hs => exact absurd hs hpeer
  | acked hs => exact absurd hs hpeer
  | stored hs => exact absurd hs hpeer
  | synAcked hst | opened hst =>
      rw [hst] at hidle
      cases hidle

end Advances

section Reported

/-- A SYN-ACK in range is taken over. -/
theorem unack_of_synAck (hst : c.connectionState = .synSent)
    (hrange : seg.ackn.inRangeInclusive c.tx.unack c.tx.next = true) (hrst : seg.hasRst = false)
    (hack : seg.hasAck = true) (hsyn : seg.hasSyn = true) (hc : c.onSegment seg = .ok c') :
    c'.tx.unack = seg.ackn ∧ c'.connectionState.idle = false := by
  unfold Connection.onSegment at hc
  rw [hst] at hc
  have hflags : seg.flags.contains (.syn ||| .ack) = true := by
    rw [SegmentFlags.contains_union, Bool.and_eq_true]
    exact ⟨hsyn, hack⟩
  simp only [onSegmentSynSent, show seg.flags.contains .ack = true from hack, hrange,
    show seg.flags.contains .rst = false from hrst, hflags, Bool.not_true, Bool.and_false,
    Bool.false_eq_true, if_false, if_true] at hc
  split at hc
  · simp only [Fallible.bind_ok_iff, setState_ok_iff] at hc
    obtain ⟨c₁, ⟨-, -, hc₁⟩, hsend⟩ := hc
    have hfull : c₁.connectionState = .fullyOpen := by
      rw [hc₁, stateSet_fullyOpen, entered_connectionState]
    constructor
    · rw [(sendAck_spec hsend).unack, hc₁, stateSet_fullyOpen, entered_tx]
    · rw [(sendAck_spec hsend).state, hfull]
      split <;> rfl
  · obtain rfl := Fallible.pure_ok_iff.mp hc
    exact ⟨rfl, by rw [show _ = c.connectionState from rfl, hst]; rfl⟩

/-- An acknowledgement in range is taken over by a connection that has not sent
its FIN. -/
theorem unack_of_accepts (hwf : WellFormed c) (ha : c.Accepts seg) (hack : seg.hasAck = true)
    (hrange : seg.ackn.inRangeInclusive c.tx.unack c.tx.next = true)
    (hopen : c.tx.tx.fin = false) (hc : c.onSegment seg = .ok c') :
    c'.tx.unack = seg.ackn ∧ c'.connectionState.idle = false := by
  have hwrote : c.connectionState.wroteFin = false := by
    refine Bool.eq_false_iff.mpr fun h => ?_
    exact Bool.false_ne_true (hopen.symm.trans (hwf.wroteFin h))
  have taken {c₁ c₂ : Connection Addr Time} (h₁ : (c.windowed seg).Takes seg c₁)
      (h₂ : c₁.onFinAcked seg.ackn = .ok c₂) :
      c₂.tx.unack = seg.ackn ∧ c₂.connectionState.synced = true := by
    obtain ⟨hstate, -, -, -, -, hunack, -⟩ := h₁.acknowledged.frame
    rcases onFinAcked_ok_iff.mp h₂ with ⟨r, cc, ca, hst, -⟩ | ⟨-, rfl⟩
    · have hwrote₁ := (opened_txState (c.windowed seg)).1
      rw [← hstate, hst, windowed_connectionState, hwrote] at hwrote₁
      cases hwrote₁
    · refine ⟨hunack, ?_⟩
      rw [hstate]
      exact opened_synced ha.peered
  rw [onSegment_of_peered ha.peered] at hc
  cases synchronizedStep_iff.mp hc with
  | dropped h => exact absurd (h.symm.trans ha.check) Bool.false_ne_true
  | rejected h => exact absurd (h.symm.trans ha.check) Bool.false_ne_true
  | reset _ h => exact absurd (ha.noRst.symm.trans h) Bool.false_ne_true
  | syn _ _ h => exact absurd (ha.noSyn.symm.trans h) Bool.false_ne_true
  | accepted _ _ _ hacc =>
      cases acceptedStep_of_ok hacc with
      | unacknowledged h => exact absurd (h.symm.trans hack) Bool.false_ne_true
      | invalid _ h => exact absurd (h.symm.trans hrange) Bool.false_ne_true
      | discarded _ _ h₁ h₂ =>
          obtain ⟨hunack, hsync⟩ := taken h₁ h₂
          have hidle := ConnectionState.not_idle_of_synced hsync
          split
          · exact ⟨hunack, hidle⟩
          · exact ⟨hunack, hidle⟩
      | @stored c₁ c₂ c₃ _ rx _ _ h₁ h₂ _ _ h₃ hfin =>
          obtain ⟨hunack, hsync⟩ := taken h₁ h₂
          have hsync₃ := (AckSent.txState (sendAck_spec h₃) hsync).1
          have hunack₃ : c₃.tx.unack = seg.ackn := (sendAck_spec h₃).unack.trans hunack
          split at hfin
          · obtain ⟨htx, -, -, hsync', -⟩ := onFin_tx (.inl hsync₃) hfin
            exact ⟨by rw [htx, hunack₃], ConnectionState.not_idle_of_synced hsync'⟩
          · obtain rfl := Except.ok.inj hfin
            exact ⟨hunack₃, ConnectionState.not_idle_of_synced hsync₃⟩

/-- A reported number is at or behind the `unack` after the step, which is new
unless the connection was connecting. -/
theorem Reports.unack {op : Op Time} {out : Output} {seqn : SeqN} (hr : c.Reports op seqn)
    (hwf : WellFormed c) (hopen : c.tx.tx.fin = false) (hc : c.step op = .ok (c', out)) :
    seqn.lte c'.tx.unack = true ∧ c'.connectionState.idle = false ∧
      (c.connectionState = .synSent ∨ c.connectionState.idle = false ∧
        c'.tx.unack ≠ c.tx.unack) := by
  cases hr with
  | opening hst hrange hrst hack hsyn hlte =>
      obtain ⟨hunack, hidle⟩ := unack_of_synAck hst hrange hrst hack hsyn (step_onSegment.mp hc).1
      exact ⟨by rw [hunack, hlte], hidle, .inl hst⟩
  | new ha hack hrange hne hlte =>
      obtain ⟨hunack, hidle⟩ := unack_of_accepts hwf ha hack hrange hopen (step_onSegment.mp hc).1
      refine ⟨by rw [hunack, hlte], hidle, .inr ⟨ha.peered.not_idle, ?_⟩⟩
      rw [hunack]
      exact hne.symm

end Reported

section Held

omit [UserTime Time] in
/-- A step suspends at most one call, with the next cookie. -/
theorem EventStep.suspended_from {k : Option Cookie} (h : EventStep c k c') :
    c.events.nextCookie ≤ c'.events.nextCookie ∧
      ∀ p ∈ c'.events.suspended, p ∈ c.events.suspended ∨ p.2 = c.events.nextCookie := by
  cases h with
  | resumed h =>
      exact ⟨h.counter.ge, fun p hp => .inl (h.suspended.subset hp)⟩
  | @suspended c₀ w h =>
      constructor
      · rw [← h.counter]
        exact Nat.le_succ _
      · intro p hp
        rcases List.mem_append.mp hp with hp | hp
        · exact .inl (h.suspended.subset hp)
        · rw [List.mem_singleton.mp hp]
          exact .inr h.counter

omit [UserTime Time] in
theorem EventStep.cookie_eq {k : Cookie} (h : EventStep c (some k) c') :
    k = c.events.nextCookie := by
  cases h with
  | suspended h => exact h.counter

/-- The send during the handshake that an operation is, after it. -/
structure Queued (c : Connection Addr Time) (s : EarlySend) (c' : Connection Addr Time) :
    Prop where
  cookie : s.cookie = c.events.nextCookie
  counter : c'.events.nextCookie = c.events.nextCookie + 1
  state : c'.connectionState = c.connectionState
  awaited : s.foremost = true → ∀ p ∈ c'.events.suspended, p.2 = s.cookie →
    p.1 = .acknowledged (c'.tx.initSeqn + BitVec.ofNat 32 s.stop)
  short : s.foremost = true →
    s.stop ≤ 2 ^ 31 + 1 ∧ (c.connectionState = .synSent → s.stop ≤ 2 ^ 31)

theorem queued_of_ok (h : Reachable c) {op : Op Time} {out : Output}
    (hc : c.step op = .ok (c', out)) {s : EarlySend} (hs : s ∈ c.earlySend op out) :
    Queued c s c' := by
  have hevent := eventStep h.wellFormed h.waits hc
  unfold earlySend at hs
  split at hs
  case h_2 => cases hs
  case h_1 inputData k =>
    rw [List.mem_singleton.mp hs]
    cases opStep_of_ok hc with
    | callSend hc =>
        cases (sendStep_of_ok hc).2 with
        | refused he => exact absurd rfl (he k)
        | @delayed q _ hopening hq =>
            have hnext := (h.wellFormed.opening hopening).2
            refine ⟨hevent.cookie_eq, rfl, rfl, fun hfore p hp hcookie => ?_, fun hfore => ?_⟩
            · obtain ⟨hempty, -⟩ : c.Foremost inputData := of_decide_eq_true hfore
              have hstop : c.tx.next + BitVec.ofNat 32 inputData.length = c.tx.initSeqn +
                  BitVec.ofNat 32 (1 + c.tx.tx.bytes.length + inputData.length) := by
                rw [hnext, hempty]
                exact Circular.add_ofNat_add c.tx.initSeqn 1 inputData.length
              rcases List.mem_append.mp hp with hp | hp
              · -- The cookie is fresh, so that no other call has it.
                have hlt := h.cookies.lt p.2 (List.mem_map_of_mem hp)
                rw [hcookie, hevent.cookie_eq] at hlt
                exact absurd hlt (Nat.lt_irrefl _)
              · rw [List.mem_singleton.mp hp]
                exact congrArg WaitUntil.acknowledged hstop
            · obtain ⟨hempty, hlen⟩ : c.Foremost inputData := of_decide_eq_true hfore
              rw [hempty]
              constructor
              · change 1 + 0 + inputData.length ≤ 2 ^ 31 + 1
                omega
              · intro hst
                rw [if_pos hst] at hlen
                change 1 + 0 + inputData.length ≤ 2 ^ 31
                omega

/-- What is noted about a connection: the places of `unack` and `next`, and the
number that each foremost send waits for. -/
structure EarlyHeld (c : Connection Addr Time) (n : SendLog) : Prop where
  cleared : c.connectionState.idle = true → n.early = []
  fresh : ∀ s ∈ n.early, s.cookie < c.events.nextCookie
  unack : c.connectionState.idle = false →
    c.tx.unack = c.tx.initSeqn + BitVec.ofNat 32 n.acked
  next : c.connectionState.idle = false → c.tx.next = c.tx.initSeqn + BitVec.ofNat 32 n.sent
  acked : n.acked ≤ n.sent
  awaited : ∀ s ∈ n.early, s.foremost = true → ∀ p ∈ c.events.suspended, p.2 = s.cookie →
    p.1 = .acknowledged (c.tx.initSeqn + BitVec.ofNat 32 s.stop)
  short : ∀ s ∈ n.early, s.foremost = true →
    s.stop ≤ 2 ^ 31 + 1 ∧ (c.connectionState = .synSent → s.stop ≤ 2 ^ 31)

omit [UserTime Time] in
/-- The note of a cleared or newly used connection. -/
theorem EarlyHeld.start (hwf : WellFormed c)
    (h : c.connectionState.idle = false → c.connectionState.opening = true) :
    EarlyHeld c ⟨1, 0, []⟩ where
  cleared _ := rfl
  fresh := nofun
  unack hidle := by
    rw [(hwf.opening (h hidle)).1]
    exact (BitVec.add_zero _).symm
  next hidle := (hwf.opening (h hidle)).2
  acked := Nat.zero_le _
  awaited := nofun
  short := nofun

theorem EarlyHeld.step {n : SendLog} {op : Op Time} {out : Output} (hn : EarlyHeld c n)
    (h : Reachable c) (hc : c.step op = .ok (c', out)) :
    EarlyHeld c' ((SendLog.watch Addr Time).note n c op out c') := by
  have hwf := h.wellFormed
  have hwf' : WellFormed c' := (h.next hc).wellFormed
  have effect := hwf.txEffect hc
  change EarlyHeld c' (if _ then _ else _)
  split
  · rename_i hidle
    apply EarlyHeld.start hwf'
    intro hidle'
    rw [hidle', Bool.or_false] at hidle
    exact effect.opening hidle hidle'
  · rename_i hidle
    obtain ⟨hidle, hidle'⟩ := Bool.or_eq_false_iff.mp (Bool.eq_false_iff.mpr hidle)
    obtain ⟨hinit, hrange⟩ := effect.advances hidle hidle'
    obtain ⟨hcount, hfrom⟩ := (eventStep hwf h.waits hc).suspended_from
    have hunack := hn.unack hidle
    have hnext := hn.next hidle
    constructor
    · intro hidle''
      exact absurd (hidle'.symm.trans hidle'') Bool.false_ne_true
    · intro s hs
      rcases List.mem_append.mp hs with hs | hs
      · exact Nat.lt_of_lt_of_le (hn.fresh s hs) hcount
      · have hq := queued_of_ok h hc hs
        rw [hq.cookie, hq.counter]
        exact Nat.lt_succ_self _
    · intro _
      rw [hinit, ← Circular.add_ofNat_add, ← hunack, Circular.add_ofNat_span]
    · intro _
      rw [hinit, ← Circular.add_ofNat_add, ← hnext, Circular.add_ofNat_span]
    · have hspan : Circular.span c.tx.unack c.tx.next ≤ n.sent - n.acked := by
        have hle := Circular.span_add_ofNat_le c.tx.unack (n.sent - n.acked)
        rwa [hunack, Circular.add_ofNat_add, Nat.add_sub_cancel' hn.acked, ← hnext,
          ← hunack] at hle
      have hmoved := (SeqN.inRangeInclusive_iff _ _ _).mp hrange
      have := hn.acked
      change n.acked + _ ≤ n.sent + _
      omega
    · intro s hs hfore p hp hcookie
      rcases List.mem_append.mp hs with hs | hs
      · rw [hinit]
        rcases hfrom p hp with hp | hnew
        · exact hn.awaited s hs hfore p hp hcookie
        · have hlt := hn.fresh s hs
          rw [← hcookie, hnew] at hlt
          exact absurd hlt (Nat.lt_irrefl _)
      · exact (queued_of_ok h hc hs).awaited hfore p hp hcookie
    · intro s hs hfore
      rcases List.mem_append.mp hs with hs | hs
      · obtain ⟨hstop, hsyn⟩ := hn.short s hs hfore
        refine ⟨hstop, fun hst => hsyn ?_⟩
        refine (synSent_entered (hwf.rxEffect hc) hst).resolve_right ?_
        rintro ⟨-, hidle''⟩
        exact Bool.false_ne_true (hidle.symm.trans hidle'')
      · have hq := queued_of_ok h hc hs
        rw [hq.state]
        exact hq.short hfore

end Held

section Cleared

omit [UserTime Time] in
/-- Only a RST takes a used connection back to Listen. -/
theorem TxEffect.listen {op : Op Time} {out : Output} (effect : TxEffect c op out c')
    (hidle : c.connectionState.idle = false) (hst' : c'.connectionState = .listen) :
    c.connectionState = .synReceived ∧ ∃ seg, op = .onSegment seg ∧ seg.hasRst = true := by
  have hunsynced : c'.connectionState.synced ≠ true := by
    rw [hst']
    nofun
  have kept {p : Prop} (h : c'.connectionState = c.connectionState) : p := by
    rw [← h, hst'] at hidle
    cases hidle
  cases effect with
  | kept _ _ hstate =>
      rcases hstate with h | ⟨-, hs, -⟩
      · exact kept h
      · exact absurd hs hunsynced
  | cleared _ _ hlisten => exact hlisten hst'
  | connecting _ _ h => cases h.state.symm.trans hst'
  | answered _ _ _ h => cases h.state.symm.trans hst'
  | queued _ _ _ _ hstate => exact kept hstate
  | appended _ _ _ _ _ _ _ hstate => exact kept hstate
  | marked _ _ _ _ _ _ _ _ _ _ hs => exact absurd hs hunsynced
  | acked _ _ _ _ _ hstate => exact absurd hstate.synced hunsynced
  | stored _ _ _ _ _ _ _ hstate => exact absurd hstate.synced hunsynced
  | synAcked => exact kept rfl
  | opened _ _ _ _ _ _ _ hstate => cases hstate.symm.trans hst'

/-- Clearing a used connection leaves nothing suspended. -/
theorem suspended_of_cleared (h : Reachable c) {op : Op Time} {out : Output}
    (hc : c.step op = .ok (c', out)) (hidle : c.connectionState.idle = false)
    (hidle' : c'.connectionState.idle = true) : c'.events.suspended = [] := by
  have hsettled := (h.next hc).waits.settled
  cases hst' : c'.connectionState with
  | closed | reset =>
      apply hsettled
      rw [hst']
      rfl
  | listen =>
      obtain ⟨hst, seg, rfl, hrst⟩ := (h.wellFormed.txEffect hc).listen hidle hst'
      have hrun := (step_onSegment.mp hc).1
      rw [onSegment_of_peered (.inr hst)] at hrun
      cases synchronizedStep_iff.mp hrun with
      | dropped => cases hst.symm.trans hst'
      | rejected _ h => exact absurd (h.symm.trans hrst) Bool.false_ne_true
      | reset _ _ hreset =>
          rw [onRst_synReceived (c := c.windowed seg) hst] at hreset
          obtain rfl := Except.ok.inj hreset
          exact clear_suspended (c.windowed seg)
      | syn _ h => exact absurd (h.symm.trans hrst) Bool.false_ne_true
      | accepted _ h => exact absurd (h.symm.trans hrst) Bool.false_ne_true
  | _ =>
      rw [hst'] at hidle'
      cases hidle'

end Cleared

end Connection

namespace SendLog

open Connection

variable {Addr Time : Type} [UserTime Time] {c c' : Connection Addr Time} {n : SendLog}

theorem earlyHeld (h : (watch Addr Time).Reachable c n) : EarlyHeld c n := by
  refine Watch.Reachable.invariant (P := EarlyHeld) ?_ ?_ h
  · intro c hinit
    refine EarlyHeld.start (Reachable.wellFormed (.init hinit)) fun hidle => ?_
    exact absurd (hidle.symm.trans hinit.fresh.2.2) Bool.false_ne_true
  · exact fun c n op out c' hreach hn hc => hn.step hreach hc

/-- The numbers below `stop` have been sent and acknowledged. -/
structure Passed (c : Connection Addr Time) (n : SendLog) (stop : Nat) : Prop where
  stop : stop ≤ n.acked
  sent : n.acked ≤ n.sent
  unack : c.tx.unack = c.tx.initSeqn + BitVec.ofNat 32 n.acked
  next : c.tx.next = c.tx.initSeqn + BitVec.ofNat 32 n.sent

omit [UserTime Time] in
/-- A number at most half a turn ahead is not reached early. -/
theorem le_of_lte {isn : SeqN} {stop acked : Nat}
    (hlte : SeqN.lte (isn + BitVec.ofNat 32 stop) (isn + BitVec.ofNat 32 acked) = true)
    (hstop : stop < 2 ^ 32) (hhalf : stop ≤ acked + 2 ^ 31) : stop ≤ acked := by
  by_contra hlt
  rw [SeqN.lte_iff, Circular.span_add_back isn (Nat.lt_of_not_le hlt) hstop] at hlte
  omega

/-- A foremost send that is told of its completion waited for the number that
the step reports, before the end of the stream was marked. -/
theorem reports_of_done (hn : EarlyHeld c n) (hreach : Reachable c) {op : Op Time} {out : Output}
    (hc : c.step op = .ok (c', out)) {s : EarlySend} (hs : s ∈ n.early) (hfore : s.foremost = true)
    (hdone : (s.cookie, .ok ()) ∈ c'.answers.drop c.answers.length) :
    c.tx.tx.fin = false ∧ c.Reports op (c.tx.initSeqn + BitVec.ofNat 32 s.stop) := by
  obtain ⟨p, hp, hcookie, hreason⟩ := (toldStep hc).answered hdone
  have hwaits := hn.awaited s hs hfore p hp hcookie
  constructor
  · refine Bool.eq_false_iff.mpr fun hfin => ?_
    have hsender : p.1.isAcknowledged = true := by rw [hwaits]; rfl
    have hany := Events.anySuspended_iff.mpr ⟨p, hp, hsender⟩
    exact absurd hany (by simpa [noSenders] using hreach.waits.senders hfin)
  · cases hreason with
    | emptied => cases hwaits
    | acked hreports =>
        cases hwaits
        exact hreports
    | other _ hack =>
        obtain rfl := hwaits
        cases hack

/-- When its number is reported, all of the bytes of a foremost send have been
acknowledged. -/
theorem passed_of_reports (hn : EarlyHeld c n) (hreach : Reachable c) {op : Op Time} {out : Output}
    (hc : c.step op = .ok (c', out)) {s : EarlySend} (hs : s ∈ n.early) (hfore : s.foremost = true)
    (hopen : c.tx.tx.fin = false)
    (hreports : c.Reports op (c.tx.initSeqn + BitVec.ofNat 32 s.stop)) :
    Passed c' ((watch Addr Time).note n c op out c') s.stop := by
  have hn' := hn.step hreach hc
  obtain ⟨hlte, hidle', hmoved⟩ := hreports.unack hreach.wellFormed hopen hc
  have hidle : c.connectionState.idle = false := by
    rcases hmoved with hst | ⟨hidle, -⟩
    · rw [hst]
      rfl
    · exact hidle
  have hunack := hn'.unack hidle'
  refine ⟨?_, hn'.acked, hunack, hn'.next hidle'⟩
  rw [hunack, (hreach.wellFormed.txEffect hc).advances hidle hidle' |>.1] at hlte
  obtain ⟨hstop, hsyn⟩ := hn.short s hs hfore
  apply le_of_lte hlte (by omega)
  rcases hmoved with hst | ⟨-, hne⟩
  · have := hsyn hst
    omega
  · -- The handshake itself has been acknowledged.
    have hpos : Circular.span c.tx.unack c'.tx.unack ≠ 0 :=
      fun hzero => hne (Circular.span_eq_zero_iff.mp hzero)
    rw [note_eq hidle hidle']
    change s.stop ≤ n.acked + Circular.span c.tx.unack c'.tx.unack + 2 ^ 31
    omega

/-- The sends that a step forgets wait no longer. -/
theorem not_pending_of_forgotten (hn : EarlyHeld c n) (hreach : Reachable c) {op : Op Time}
    {out : Output} (hc : c.step op = .ok (c', out)) {s : EarlySend} (hs : s ∈ n.early)
    (hgone : s ∉ ((watch Addr Time).note n c op out c').early) : s.cookie ∉ c'.pending := by
  intro hpending
  cases hidle : c.connectionState.idle with
  | true =>
      rw [hn.cleared hidle] at hs
      cases hs
  | false =>
      cases hidle' : c'.connectionState.idle with
      | true =>
          rw [pending, suspended_of_cleared hreach hc hidle hidle'] at hpending
          cases hpending
      | false =>
          apply hgone
          rw [note_eq hidle hidle']
          exact List.mem_append_left _ hs

/-- A foremost send is told of its completion when all of its bytes have been
acknowledged, and one that is forgotten is told an error. -/
theorem foremost_completes (h : (watch Addr Time).Reachable c n) {op : Op Time} {out : Output}
    (hc : c.step op = .ok (c', out)) :
    (∀ s ∈ n.early, s.foremost = true → (s.cookie, .ok ()) ∈ c'.answers.drop c.answers.length →
      Passed c' ((watch Addr Time).note n c op out c') s.stop) ∧
    ∀ s ∈ n.early, s ∉ ((watch Addr Time).note n c op out c').early → s.cookie ∉ c'.pending := by
  have hreach := h.conn
  have hn := earlyHeld h
  constructor
  · intro s hs hfore hdone
    obtain ⟨hopen, hreports⟩ := reports_of_done hn hreach hc hs hfore hdone
    exact passed_of_reports hn hreach hc hs hfore hopen hreports
  · intro s hs hgone
    exact not_pending_of_forgotten hn hreach hc hs hgone

/-- A send of two bytes in SynSent is told of its completion by the
acknowledgement of the second one. -/
theorem foremost_completes_two : ∃ (c c' : Connection Unit Nat) (n : SendLog) (s : EarlySend),
    s ∈ n.early ∧ s.stop = 3 ∧ (s.cookie, .ok ()) ∈ c'.answers.drop c.answers.length ∧
      Passed c' ((watch Unit Nat).note n c (.onSegment ⟨101#32, 3#32, 1000#16, .ack, []⟩) .none c')
        s.stop := by
  obtain ⟨⟨c, n⟩, hreach, hearly, hnext⟩ : ∃ s : Connection Unit Nat × SendLog,
      Transition.Reachable (watch Unit Nat).system s ∧ ⟨1, 3, true⟩ ∈ s.2.early ∧
      (s.1.onSegment ⟨101#32, 3#32, 1000#16, .ack, []⟩).toOption.any
        (fun c' => decide ((1, .ok ()) ∈ c'.answers.drop s.1.answers.length)) = true :=
    Transition.exists_reachableUnder (watch Unit Nat).step_of_next
      ((watch Unit Nat).init_start (initial_new () zeroUser))
      [.callConnect, .callSend [1, 2], .onSegment ⟨100#32, 1#32, 1000#16, .syn ||| .ack, []⟩]
      (by decide)
  obtain ⟨c', hc, hdone⟩ := Fallible.exists_of_toOption_any hnext
  have hdone := of_decide_eq_true hdone
  have hpassed := (foremost_completes hreach (step_onSegment.mpr ⟨hc, rfl⟩)).1 _ hearly rfl hdone
  exact ⟨c, c', n, _, hearly, rfl, hdone, hpassed⟩

/-- Of two sends of one byte the second is told of its completion by the
acknowledgement of the first byte. -/
theorem second_completes_early : ¬ ∀ (c : Connection Unit Nat) (n : SendLog),
    (watch Unit Nat).Reachable c n → ∀ op out c', c.step op = .ok (c', out) →
      ∀ s ∈ n.early, (s.cookie, .ok ()) ∈ c'.answers.drop c.answers.length →
        Passed c' ((watch Unit Nat).note n c op out c') s.stop := by
  intro hall
  obtain ⟨⟨c, n⟩, hreach, hearly, hnext⟩ : ∃ s : Connection Unit Nat × SendLog,
      Transition.Reachable (watch Unit Nat).system s ∧ ⟨1, 3, false⟩ ∈ s.2.early ∧
      (s.1.onSegment ⟨101#32, 2#32, 1000#16, .ack, []⟩).toOption.any
        (fun c' => decide ((1, .ok ()) ∈ c'.answers.drop s.1.answers.length ∧
          ((watch Unit Nat).note s.2 s.1 (.onSegment ⟨101#32, 2#32, 1000#16, .ack, []⟩) .none
            c').acked = 2)) = true :=
    Transition.exists_reachableUnder (watch Unit Nat).step_of_next
      ((watch Unit Nat).init_start (initial_listening () .default zeroUser))
      [.onSegment ⟨100#32, 0#32, 1000#16, .syn, []⟩, .callSend [1], .callSend [2],
       .onSegment ⟨101#32, 1#32, 1000#16, .ack, []⟩] (by decide)
  obtain ⟨c', hc, hafter⟩ := Fallible.exists_of_toOption_any hnext
  obtain ⟨hdone, hacked⟩ := of_decide_eq_true hafter
  have hpassed := hall c n hreach _ _ c' (step_onSegment.mpr ⟨hc, rfl⟩) _ hearly hdone
  have hstop := hpassed.stop
  rw [hacked] at hstop
  exact absurd hstop (by decide)

end SendLog

end TcpState
