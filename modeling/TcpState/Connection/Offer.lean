import TcpState.Connection.Intake

/-!
# What the receiver offers

The right edge of the receive window counts the accepted bytes and the window
advertised with them. It only moves forward. A suspended reader finds the window
open as long as it asks for no more than the window holds.
-/

namespace TcpState

namespace Record

/-- The bytes accepted so far and the window behind them, not wrapped. -/
def rightEdge (r : Record) (rx : RxBuffer) : Nat := r.data.length + rx.currWindow.toNat

/-- The edge lies one full window behind what was read, unless more than that
has been accepted. -/
theorem InOrder.rightEdge_eq {r : Record} {rx : RxBuffer} (h : r.InOrder rx)
    (hended : r.ended = false) :
    r.rightEdge rx = max r.data.length (r.read.length + rx.window.toNat) := by
  have hfin : rx.buffer.fin = false := h.ended.symm.trans hended
  have hlen := congrArg List.length h.bytes
  rw [List.length_append] at hlen
  rw [rightEdge, RxBuffer.currWindow_toNat, hfin, if_neg Bool.false_ne_true]
  omega

end Record

namespace Recorded

open Connection

variable {Addr Time : Type} [UserTime Time] {s : Recorded Addr Time} {op : Op Time}
  {out : Output} {c' : Connection Addr Time}

/-- In SynSent nothing has been accepted since the last initialisation. -/
theorem nothing_accepted (h : Reachable s) (hst : s.conn.connectionState = .synSent) :
    ∀ r ∈ s.record, r = ⟨[], []⟩ := by
  refine Transition.ReachableUnder.invariant
    (P := fun s : Recorded Addr Time => s.conn.connectionState = .synSent →
      ∀ r ∈ s.record, r = ⟨[], []⟩) ?_ ?_ h hst
  · rintro s ⟨-, hnone⟩ - r hr
    rw [hnone] at hr
    cases hr
  · rintro s op _ hreach hp - ⟨c', out, hc, rfl⟩ hst'
    change c'.connectionState = .synSent at hst'
    intro r hr
    by_cases hinits : s.conn.Inits op
    · rw [after, if_pos hinits] at hr
      exact (Option.some.inj hr).symm
    rw [after, if_neg hinits, if_neg (by rw [hst']; decide)] at hr
    obtain ⟨r₀, hr₀, rfl⟩ := Option.mem_map.mp hr
    have hwf := Connection.Reachable.wellFormed (Reachable.conn hreach)
    have hnone (hpeer : ¬ s.conn.Peered) : s.conn.stores op = [] := by
      cases op with
      | onSegment seg => exact if_neg fun hs => hpeer hs.1
      | _ => rfl
    have hopening : ¬ c'.Peered := by
      rintro (hs | hs) <;> rw [hst'] at hs <;> cases hs
    cases hwf.rxEffect hc with
    | kept hout _ hstate =>
        rcases hstate with heq | ⟨-, hpeer, -⟩
        · have hpeer : ¬ s.conn.Peered := by
            unfold Peered at hopening ⊢
            rwa [← heq]
          rw [hp (heq ▸ hst') r₀ hr₀, hnone hpeer, Output.data_eq_nil hout]
          rfl
        · exact absurd hpeer hopening
    | cleared _ hidle => rw [hst'] at hidle; cases hidle
    | connecting _ hidle =>
        rw [(Reachable.holds hreach).idle hidle] at hr₀
        cases hr₀
    | answered _ _ _ hstate => rw [hst'] at hstate; cases hstate
    | synAcked hst hrst hack hsyn hrange =>
        exact absurd ⟨hrst, hsyn, .inr ⟨hst, hack, hrange⟩⟩ hinits
    | stored _ _ _ hpeer | finOnly _ _ _ _ _ _ _ _ _ hpeer => exact absurd hpeer hopening
    | waiting hopen => change s.conn.connectionState = _ at hst'; rw [hst'] at hopen; cases hopen
    | ended hest => rw [hst'] at hest; cases hest
    | read hest _ _ hstate => rw [← hstate, hst'] at hest; cases hest
    | drained _ _ _ _ hstate =>
        rcases hstate with ⟨hpeer, -⟩ | ⟨hidle, -⟩
        · exact absurd hpeer hopening
        · rw [hst'] at hidle
          cases hidle

/-- The right edge of the receive window never moves back from one operation to
the next, as long as no FIN is stored and the connection is not cleared. -/
theorem rightEdge_le (h : Reachable s) (hc : s.conn.step op = .ok (c', out)) {r r' : Record}
    (hr : r ∈ s.record) (hr' : r' ∈ (s.after op out c').record) (hended : r'.ended = false) :
    r.rightEdge s.conn.rx ≤ r'.rightEdge c'.rx := by
  have hnext : Reachable (s.after op out c') := Transition.Reachable.step h ⟨c', out, hc, rfl⟩
  have hwindow : s.conn.rx.window = c'.rx.window :=
    (Connection.Reachable.wellFormed h.conn).rxWindow.trans
      (Connection.Reachable.wellFormed hnext.conn).rxWindow.symm
  have horder := h.holds.inOrder r hr
  have horder' : r'.InOrder c'.rx := hnext.holds.inOrder r' hr'
  rw [horder'.rightEdge_eq hended, ← hwindow]
  by_cases hinits : s.conn.Inits op
  · -- the SYN is answered anew: nothing was accepted since the first answer
    have hempty : r = ⟨[], []⟩ := by
      cases op with
      | onSegment seg =>
          obtain ⟨-, -, ⟨hst, -⟩ | ⟨hst, -⟩⟩ := hinits
          · rw [h.holds.idle (by rw [hst]; rfl)] at hr
            cases hr
          · exact nothing_accepted h hst r hr
      | _ => exact absurd hinits id
    rw [horder.rightEdge_eq (by rw [hempty]; rfl), hempty]
    simp only [Record.data, List.map_nil, List.flatten_nil, List.length_nil]
    omega
  rw [after, if_neg hinits] at hr'
  split at hr'
  · cases hr'
  obtain ⟨r₀, hr₀, rfl⟩ := Option.mem_map.mp hr'
  obtain rfl : r = r₀ := Option.some.inj (hr.symm.trans hr₀)
  have hdata : r.data.length ≤ (Record.data ⟨r.accepted ++ s.conn.stores op,
      r.read ++ out.data⟩).length := by
    simp [Record.data]
  have hfirst : r.ended = false := by
    simp only [Record.ended, List.any_append, Bool.or_eq_false_iff] at hended ⊢
    exact hended.1
  rw [horder.rightEdge_eq hfirst]
  simp only [List.length_append] at hdata ⊢
  omega

/-- Of three bytes stored two are read: the edge moves on by two. -/
theorem rightEdge_le_read : ∃ (s : Recorded Unit Nat) (out : Output) (c' : Connection Unit Nat)
    (r r' : Record), s.conn.step (.callRecv 2) = .ok (c', out) ∧ r ∈ s.record ∧
      r' ∈ (s.after (.callRecv 2) out c').record ∧ r.rightEdge s.conn.rx = 4096 ∧
      r'.rightEdge c'.rx = 4098 ∧ r.rightEdge s.conn.rx ≤ r'.rightEdge c'.rx := by
  obtain ⟨s, hreach, hread⟩ : ∃ s : Recorded Unit Nat,
      Transition.ReachableUnder (system Unit Nat) (fun _ _ => True) s ∧
        (match s.conn.step (.callRecv 2) with
          | .ok (c', out) => s.record.any fun r =>
              (s.after (.callRecv 2) out c').record.any fun r' => r'.ended = false ∧
                r.rightEdge s.conn.rx = 4096 ∧ r'.rightEdge c'.rx = 4098
          | .error _ => false) = true :=
    Transition.exists_reachableUnder step_of_next
      (init_start (Connection.initial_listening () .default zeroUser))
      [.onSegment ⟨100#32, 0#32, 1000#16, .syn, []⟩,
       .onSegment ⟨101#32, 1#32, 1000#16, .ack, [1, 2, 3]⟩] (by decide)
  split at hread
  · rename_i c' out hc
    obtain ⟨r, hr, hread⟩ := (Option.any_eq_true _ _).mp hread
    obtain ⟨r', hr', hread⟩ := (Option.any_eq_true _ _).mp hread
    obtain ⟨hended, hedge, hedge'⟩ := of_decide_eq_true hread
    exact ⟨s, out, c', r, r', hc, hr, hr', hedge, hedge', rightEdge_le hreach hc hr hr' hended⟩
  · cases hread

end Recorded

namespace Connection

variable {Addr Time : Type}

/-- A suspended reader faces an open window. -/
def OffersRoom (c : Connection Addr Time) : Prop :=
  c.connectionState.readOpen = true →
    ∀ p ∈ c.events.suspended, ∀ count, p.1 = .recv count →
      c.rx.availableBytes < count.toNat → c.rx.currWindow ≠ 0#16

/-- A reader that has to wait asks for no more than the full window. -/
def ReadsWithinWindow (c : Connection Addr Time) : Op Time → Prop
  | .callRecv bufferLen => c.connectionState.readOpen = true →
      c.rx.availableBytes < bufferLen → bufferLen % 2 ^ 32 ≤ c.rx.windowSize.toNat
  | _ => True

instance (c : Connection Addr Time) : DecidablePred c.ReadsWithinWindow
  | .callRecv bufferLen => inferInstanceAs (Decidable (c.connectionState.readOpen = true →
      c.rx.availableBytes < bufferLen → bufferLen % 2 ^ 32 ≤ c.rx.windowSize.toNat))
  | .callConnect | .callSend _ | .callShutdown | .callClose | .callAbort | .setOptions _
  | .onSegment _ | .onTimeTick _ => .isTrue trivial

/-- The counts of the suspended readers. -/
def ReadersWithinWindow (c : Connection Addr Time) : Prop :=
  ∀ p ∈ c.dataWaiters, p.1.isRecv = true → p.1.readsWithin initialWindowSize.toNat = true

/-- No FIN is stored while the receive state is open. -/
def OpenUnended (c : Connection Addr Time) : Prop :=
  Peered c → c.connectionState.rx = .opened → c.rx.buffer.fin = false

variable {c c' : Connection Addr Time} {op : Op Time} {out : Output}

/-- Only `call_recv` on an open stream adds a reader. -/
theorem RxEffect.readersFrom (effect : RxEffect c op out c') :
    ReadersFrom c c' ∨ ∃ bufferLen, op = .callRecv bufferLen ∧
      c.connectionState.readOpen = true ∧ c.rx.availableBytes < bufferLen ∧
      c' = c.suspend (.recv (BitVec.ofNat 32 bufferLen)) := by
  have none_left (h : NoReaders c') : ReadersFrom c c' := fun p hp hr =>
    absurd ((h p hp).symm.trans hr) Bool.false_ne_true
  cases effect with
  | kept _ _ _ hreaders | connecting _ _ _ _ hreaders | answered _ _ _ _ _ hreaders
  | synAcked _ _ _ _ _ _ _ hreaders | stored _ _ _ _ _ hreaders | read _ _ _ _ _ hreaders
  | drained _ _ _ _ _ hreaders => exact .inl hreaders
  | cleared _ _ _ hreaders => exact .inl (none_left hreaders)
  | finOnly _ _ _ _ _ _ _ _ _ _ _ hreaders => exact .inl (none_left hreaders)
  | ended => exact .inl (.of_eq rfl)
  | waiting hst hlen => exact .inr ⟨_, rfl, hst, hlen, rfl⟩

/-- Storing a FIN ends the open receive state in the same operation. -/
theorem RxEffect.openUnended (effect : RxEffect c op out c') (h : WellFormed c)
    (hp : OpenUnended c) : OpenUnended c' := by
  intro hpeer hopen
  cases effect with
  | kept _ hrx hstate =>
      rw [hrx]
      rcases hstate with heq | ⟨hs, -, heq⟩
      · refine hp ?_ (heq ▸ hopen)
        unfold Peered at hpeer ⊢
        rwa [heq] at hpeer
      · exact hp hs (heq.symm.trans hopen)
  | cleared _ hidle => exact absurd (hidle.symm.trans hpeer.not_idle) (by decide)
  | connecting _ _ hstate => rcases hpeer with hs | hs <;> rw [hstate] at hs <;> cases hs
  | answered hst _ _ _ hrx =>
      rw [hrx]
      exact (h.early (by rw [hst]; rfl)).2.2
  | synAcked hst _ _ _ _ _ hrx =>
      rw [hrx]
      exact (h.early (by rw [hst]; rfl)).2.2
  | stored hs _ hrx _ hstate =>
      rw [hstate] at hopen
      split at hopen
      · cases hopen
      · rename_i hseg
        rw [(RxBuffer.write_spec hrx).2.1, hp hs hopen, Bool.false_or]
        exact Bool.eq_false_iff.mpr hseg
  | finOnly _ _ _ _ _ _ _ _ _ _ hstate =>
      rw [hstate] at hopen
      cases hopen
  | waiting => exact hp hpeer hopen
  | ended => exact hp hpeer hopen
  | read _ hread _ hstate hrx =>
      rw [hrx, (RxBuffer.readBytes_spec hread).2.2.1]
      refine hp ?_ (hstate ▸ hopen)
      unfold Peered at hpeer ⊢
      rwa [hstate] at hpeer
  | drained _ _ _ _ hstate =>
      rcases hstate with ⟨-, hclosed, -⟩ | ⟨hidle, -⟩
      · exact absurd (hclosed.symm.trans hopen) (by decide)
      · exact absurd (hidle.symm.trans hpeer.not_idle) (by decide)

theorem RxEffect.readersWithinWindow (effect : RxEffect c op out c') (h : WellFormed c)
    (hp : ReadersWithinWindow c) (hallowed : c.ReadsWithinWindow op) :
    ReadersWithinWindow c' := by
  rcases effect.readersFrom with hfrom | ⟨bufferLen, rfl, hopen, hlen, rfl⟩
  · exact fun p hmem hr => hp p (hfrom p hmem hr) hr
  · intro p hmem hr
    rw [dataWaiters_suspend, List.mem_append] at hmem
    rcases hmem with hmem | hmem
    · exact hp p hmem hr
    · obtain rfl := List.mem_singleton.mp hmem
      have hcount : bufferLen % 2 ^ 32 ≤ initialWindowSize.toNat :=
        h.rxWindow ▸ hallowed hopen hlen
      simpa [WaitUntil.readsWithin] using hcount

variable [UserTime Time]

theorem openUnended (h : Reachable c) : OpenUnended c := by
  refine rxInvariant ?_ ?_ h
  · intro c hinit hs
    exact absurd (hinit.fresh.2.2.symm.trans hs.not_idle) (by decide)
  · intro c op out c' hwf hp _ effect
    exact effect.openUnended hwf hp

/-- What a reader lacks fits into the advertised window. -/
theorem reader_le_currWindow (h : ReachableUnder ReadsWithinWindow c)
    (hopen : c.connectionState.readOpen = true) {p : WaitUntil × Cookie}
    (hp : p ∈ c.events.suspended) {count : BitVec 32} (hcount : p.1 = .recv count) :
    count.toNat ≤ c.rx.availableBytes + c.rx.currWindow.toNat := by
  have hreaders : ReadersWithinWindow c := by
    refine rxInvariant ?_ ?_ h
    · intro c hinit p hp
      rw [dataWaiters, hinit.fresh.2.1] at hp
      cases hp
    · intro c op out c' hwf hp hallowed effect
      exact effect.readersWithinWindow hwf hp hallowed
  have hwindow := (Reachable.wellFormed h.reachable).rxWindow
  have hmem : p ∈ c.dataWaiters := mem_dataWaiters.mpr ⟨hp, .inl (by rw [hcount]; rfl)⟩
  have hle := hreaders p hmem (by rw [hcount]; rfl)
  rw [hcount, WaitUntil.readsWithin, decide_eq_true_iff] at hle
  have hfin : c.rx.buffer.fin = false := by
    cases hst : c.connectionState with
    | established t r cc ca =>
        rw [hst] at hopen
        cases r with
        | opened =>
            exact openUnended h.reachable (.inl (by rw [hst]; rfl)) (by rw [hst]; rfl)
        | _ => cases hopen
    | _ => rw [hst] at hopen; cases hopen
  rw [RxBuffer.currWindow_toNat, hfin, if_neg Bool.false_ne_true, hwindow,
    RxBuffer.availableBytes_eq]
  omega

/-- While no reader waits for more than the full window, each one that waits
finds the window open. -/
theorem offersRoom (h : ReachableUnder ReadsWithinWindow c) : OffersRoom c := by
  intro hopen p hp count hcount hlen hclosed
  have hle := reader_le_currWindow h hopen hp hcount
  rw [hclosed, BitVec.toNat_zero] at hle
  omega

/-- A reader of five bytes waits behind three. -/
theorem offersRoom_five : ∃ c : Connection Unit Nat,
    c.events.suspended = [(.recv 5#32, 0)] ∧ OffersRoom c := by
  obtain ⟨c, hreach, hwait⟩ : ∃ c : Connection Unit Nat,
      ReachableUnder ReadsWithinWindow c ∧ c.events.suspended = [(.recv 5#32, 0)] :=
    Transition.exists_reachableUnder step_of_next (initial_listening () .default zeroUser)
      [.onSegment ⟨100#32, 0#32, 1000#16, .syn, []⟩,
       .onSegment ⟨101#32, 1#32, 1000#16, .ack, [1, 2, 3]⟩, .callRecv 5] (by decide)
  exact ⟨c, hwait, offersRoom hreach⟩

/-- A reader of 4097 bytes waits for one more while the full window is taken. -/
theorem offersNoRoom : ¬ ∀ c : Connection Unit Nat, Reachable c → OffersRoom c := by
  intro hall
  obtain ⟨c, hreach, hopen, hwait, hlen, hclosed⟩ : ∃ c : Connection Unit Nat, Reachable c ∧
      c.connectionState.readOpen = true ∧ c.events.suspended = [(.recv 4097#32, 0)] ∧
        c.rx.availableBytes = 4096 ∧ c.rx.currWindow = 0#16 :=
    Transition.exists_reachableUnder step_of_next (initial_listening () .default zeroUser)
      [.onSegment ⟨100#32, 0#32, 1000#16, .syn, []⟩,
       .onSegment ⟨101#32, 1#32, 1000#16, .ack, []⟩, .callRecv 4097,
       .onSegment ⟨101#32, 1#32, 1000#16, .ack, List.replicate 4096 7⟩] (by decide +kernel)
  exact hall c hreach hopen (.recv 4097#32, 0) (by simp [hwait]) 4097#32 rfl
    (by rw [hlen]; decide) hclosed

end Connection

end TcpState
