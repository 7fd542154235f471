import TcpState.Connection.RxEffect

/-!
# The receive buffer along a run

How full the buffer gets, who still waits for it, and how the end of the
stream is recorded. Each invariant is proved once for the effects of a step;
where a segment or a call can break it, the runs are those without such a step.
-/

namespace TcpState

namespace WaitUntil

/-- A reader that `n` available bytes satisfy. -/
def readsWithin (n : Nat) : WaitUntil → Bool
  | recv count => decide (count.toNat ≤ n)
  | _ => false

end WaitUntil

namespace Connection

variable {Addr Time : Type}

instance (c : Connection Addr Time) (seg : SegmentMeta) : Decidable (c.Stores seg) :=
  decidable_of_iff (c.checkSegmentSeqOk seg = true ∧ seg.hasRst = false ∧ seg.hasSyn = false ∧
      seg.hasAck = true ∧ seg.ackn.inRangeInclusive c.tx.unack c.tx.next = true ∧
      seg.seqn = c.rx.ackd)
    ⟨fun ⟨h₁, h₂, h₃, h₄, h₅, h₆⟩ => ⟨h₁, h₂, h₃, h₄, h₅, h₆⟩,
      fun h => ⟨h.check, h.noRst, h.noSyn, h.ack, h.range, h.inOrder⟩⟩

variable [UserTime Time]

/-- A property that every effect on the receive side preserves holds along
every run. -/
theorem rxInvariant {allowed : Connection Addr Time → Op Time → Prop}
    {P : Connection Addr Time → Prop} (hinit : ∀ c, Initial c → P c)
    (hstep : ∀ c op out c', WellFormed c → P c → allowed c op → RxEffect c op out c' → P c')
    {c : Connection Addr Time} (h : ReachableUnder allowed c) : P c := by
  refine Transition.ReachableUnder.invariant hinit ?_ h
  rintro c op c' hreach hp hallowed ⟨out, hc⟩
  have hwf : WellFormed c := Reachable.wellFormed hreach
  exact hstep c op out c' hwf hp hallowed (hwf.rxEffect hc)

theorem Initial.fresh {c : Connection Addr Time} (h : Initial c) :
    c.rx = .default ∧ c.events.suspended = [] ∧ c.connectionState.idle = true := by
  rcases h with ⟨remote, userData, rfl⟩ | ⟨l, addr, userData, h⟩
  · exact ⟨rfl, rfl, rfl⟩
  · rw [acceptor_eq] at h
    obtain rfl := Except.ok.inj h
    exact ⟨rfl, rfl, rfl⟩

section Occupancy

/-- The stored part of a segment is within the window advertised before it. -/
def StoresWithinWindow (c : Connection Addr Time) : Op Time → Prop
  | .onSegment seg => c.Stores seg → seg.data.length ≤ c.rx.currWindow.toNat
  | _ => True

instance (c : Connection Addr Time) (op : Op Time) : Decidable (c.StoresWithinWindow op) := by
  unfold StoresWithinWindow
  cases op <;> infer_instance

omit [UserTime Time] in
theorem RxEffect.occupancy {c c' : Connection Addr Time} {op : Op Time} {out : Output}
    (effect : RxEffect c op out c') (hp : c.rx.bytes.length ≤ c.rx.window.toNat)
    (hallowed : c.StoresWithinWindow op) : c'.rx.bytes.length ≤ c'.rx.window.toNat := by
  -- Reading only takes bytes away.
  have shrink {rx rx' : RxBuffer} {n : Nat} {data : List UInt8}
      (hread : rx.readBytes n = .ok (rx', data)) (h : rx.bytes.length ≤ rx.window.toNat) :
      rx'.bytes.length ≤ rx'.window.toNat := by
    obtain ⟨-, hbytes, -, -, hwin, -⟩ := RxBuffer.readBytes_spec hread
    rw [hbytes, hwin, List.length_drop]
    omega
  cases effect with
  | kept _ hrx => rwa [hrx]
  | cleared _ _ hrx => simp [hrx]
  | connecting _ _ _ hrx => rwa [hrx]
  | answered _ _ _ _ hrx => simpa [hrx] using hp
  | synAcked _ _ _ _ _ _ hrx => simpa [hrx] using hp
  | stored _ hs hrx =>
      obtain ⟨hbytes, -, -, -, hwin, -⟩ := RxBuffer.write_spec hrx
      have hlen := hallowed hs
      rw [RxBuffer.currWindow_toNat] at hlen
      rw [hbytes, hwin, List.length_append]
      split at hlen <;> omega
  | finOnly _ _ _ _ _ _ _ _ hrx => rwa [hrx]
  | waiting => exact hp
  | ended => exact hp
  | read _ hread _ _ hrx => rw [hrx]; exact shrink hread hp
  | drained _ _ hread _ hstate =>
      rcases hstate with ⟨-, -, hrx⟩ | ⟨-, hrx⟩
      · rw [hrx]
        exact shrink hread hp
      · simp [hrx]

/-- The receive buffer stays within its window while no segment brings more
than the window it finds. -/
theorem availableBytes_le_windowSize {c : Connection Addr Time}
    (h : ReachableUnder StoresWithinWindow c) :
    c.rx.availableBytes ≤ c.rx.windowSize.toNat := by
  rw [RxBuffer.availableBytes_eq]
  refine rxInvariant (P := fun c => c.rx.bytes.length ≤ c.rx.window.toNat) ?_ ?_ h
  · intro c hinit
    simp [hinit.fresh.1]
  · intro c op out c' _ hp hallowed effect
    exact effect.occupancy hp hallowed

/-- A segment of two bytes is within the window. -/
theorem availableBytes_le_windowSize_two : ∃ c : Connection Unit Nat,
    c.rx.availableBytes = 2 ∧ c.rx.availableBytes ≤ c.rx.windowSize.toNat := by
  obtain ⟨c, hreach, hlen⟩ : ∃ c : Connection Unit Nat,
      ReachableUnder StoresWithinWindow c ∧ c.rx.availableBytes = 2 :=
    Transition.exists_reachableUnder step_of_next (initial_listening () .default zeroUser)
      [.onSegment ⟨100#32, 0#32, 1000#16, .syn, []⟩,
       .onSegment ⟨101#32, 1#32, 1000#16, .ack, [1, 2]⟩] (by decide)
  exact ⟨c, hlen, availableBytes_le_windowSize hreach⟩

/-- A second segment is tested against the full window, not the advertised
one, and fills the buffer beyond it. -/
theorem availableBytes_exceeds : ¬ ∀ c : Connection Unit Nat, Reachable c →
    c.rx.availableBytes ≤ c.rx.windowSize.toNat := by
  intro hall
  obtain ⟨c, hreach, hlen⟩ : ∃ c : Connection Unit Nat, Reachable c ∧
      c.rx.windowSize.toNat < c.rx.availableBytes :=
    Transition.exists_reachableUnder step_of_next (initial_listening () .default zeroUser)
      [.onSegment ⟨100#32, 0#32, 1000#16, .syn, []⟩,
       .onSegment ⟨101#32, 1#32, 1000#16, .ack, List.replicate 4000 7⟩,
       .onSegment ⟨4101#32, 1#32, 1000#16, .ack, List.replicate 1000 7⟩] (by decide +kernel)
  exact absurd (hall c hreach) (by omega)

end Occupancy

section Readers

/-- No suspended reader could be served, and none waits at the end of the
stream. -/
def ReadersWait (c : Connection Addr Time) : Prop :=
  ∀ p ∈ c.events.suspended, ∀ count, p.1 = .recv count →
    ¬ count.toNat ≤ c.rx.availableBytes ∧ c.connectionState.rx ≠ .fin ∧
      c.connectionState.rx ≠ .closed

/-- New data serves no suspended reader, and a reader that has to wait asks
for more than is there also after the cut of its count to 32 bits. -/
def LeavesReadersWaiting (c : Connection Addr Time) : Op Time → Prop
  | .onSegment seg => c.Stores seg → seg.data ≠ [] →
      c.events.anySuspended (·.readsWithin (c.rx.availableBytes + seg.data.length)) = false
  | .callRecv bufferLen => c.connectionState.readOpen = true →
      c.rx.availableBytes < bufferLen → c.rx.availableBytes < bufferLen % 2 ^ 32
  | _ => True

instance (c : Connection Addr Time) (op : Op Time) : Decidable (c.LeavesReadersWaiting op) := by
  unfold LeavesReadersWaiting
  cases op <;> infer_instance

/-- The readers' counts alone. -/
def ReadersShort (c : Connection Addr Time) : Prop :=
  ∀ p ∈ c.dataWaiters, p.1.readsWithin c.rx.bytes.length = false

omit [UserTime Time] in
theorem ReadersShort.mono {c c' : Connection Addr Time} (h : ReadersShort c)
    (hlen : c'.rx.bytes.length ≤ c.rx.bytes.length) (hreaders : ReadersFrom c c') :
    ReadersShort c' := by
  rintro ⟨w, k⟩ hp
  cases w with
  | recv count =>
      have := h _ (hreaders _ hp rfl)
      simp only [WaitUntil.readsWithin, decide_eq_false_iff_not] at this ⊢
      omega
  | _ => rfl

omit [UserTime Time] in
theorem ReadersShort.of_noReaders {c : Connection Addr Time} (h : NoReaders c) :
    ReadersShort c := by
  rintro ⟨w, k⟩ hp
  cases w with
  | recv count => exact absurd (h _ hp) (by simp [WaitUntil.isRecv])
  | _ => rfl

omit [UserTime Time] in
theorem RxEffect.readersShort {c c' : Connection Addr Time} {op : Op Time} {out : Output}
    (effect : RxEffect c op out c') (hp : ReadersShort c)
    (hallowed : c.LeavesReadersWaiting op) : ReadersShort c' := by
  cases effect with
  | kept _ hrx _ hreaders => exact hp.mono (by rw [hrx]) hreaders
  | cleared _ _ _ hreaders => exact .of_noReaders hreaders
  | connecting _ _ _ hrx hreaders => exact hp.mono (by rw [hrx]) hreaders
  | answered _ _ _ _ hrx hreaders => exact hp.mono (by simp [hrx]) hreaders
  | synAcked _ _ _ _ _ _ hrx hreaders => exact hp.mono (by simp [hrx]) hreaders
  | @stored seg _ _ hs hrx _ _ hreaders hwake =>
      obtain ⟨hbytes, -⟩ := RxBuffer.write_spec hrx
      by_cases hdata : seg.data = []
      · exact hp.mono (by rw [hbytes, hdata, List.append_nil]) hreaders
      · have hfree := hallowed hs hdata
        rintro p hmem
        cases hread : p.1.isRecv with
        | false =>
            cases hw : p.1 <;> simp_all [WaitUntil.readsWithin, WaitUntil.isRecv]
        | true =>
            have hsusp := (mem_dataWaiters.mp (hreaders p hmem hread)).1
            rw [hbytes, List.length_append, ← RxBuffer.availableBytes_eq]
            by_contra hsat
            have hany := Events.anySuspended_iff.mpr ⟨p, hsusp, by simpa using hsat⟩
            rw [hfree] at hany
            cases hany
  | finOnly _ _ _ _ _ _ _ _ _ _ _ hreaders => exact .of_noReaders hreaders
  | waiting hst hlen =>
      have hcount := hallowed hst hlen
      rintro p hmem
      rw [dataWaiters_suspend, List.mem_append] at hmem
      rcases hmem with hmem | hmem
      · exact hp p hmem
      · change p ∈ [_] at hmem
        rw [List.mem_singleton] at hmem
        subst hmem
        rw [RxBuffer.availableBytes_eq] at hcount
        simpa [WaitUntil.readsWithin] using! hcount
  | ended => exact hp
  | read _ hread _ _ hrx hreaders =>
      refine hp.mono ?_ hreaders
      rw [hrx, (RxBuffer.readBytes_spec hread).2.1, List.length_drop]
      omega
  | drained _ _ hread _ hstate hreaders =>
      refine hp.mono ?_ hreaders
      rcases hstate with ⟨-, -, hrx⟩ | ⟨-, hrx⟩
      · rw [hrx, (RxBuffer.readBytes_spec hread).2.1, List.length_drop]
        omega
      · simp [hrx]

/-- No reader that could be served stays suspended, and none at the end of the
stream, while each step leaves its readers waiting. -/
theorem readersWait {c : Connection Addr Time} (h : ReachableUnder LeavesReadersWaiting c) :
    ReadersWait c := by
  have hshort : ReadersShort c := by
    refine rxInvariant ?_ ?_ h
    · intro c hinit
      exact .of_noReaders (.of_nil (by simp [dataWaiters, hinit.fresh.2.1]))
    · intro c op out c' _ hp hallowed effect
      exact effect.readersShort hp hallowed
  have hwf : WellFormed c := Reachable.wellFormed h.reachable
  intro p hp count hcount
  have hmem : p ∈ c.dataWaiters := mem_dataWaiters.mpr ⟨hp, .inl (by rw [hcount]; rfl)⟩
  have hopen := hwf.readers ⟨p, hmem, by rw [hcount]; rfl⟩
  refine ⟨?_, ?_⟩
  · have hno := hshort p hmem
    rw [hcount, ← RxBuffer.availableBytes_eq] at hno
    simpa [WaitUntil.readsWithin] using hno
  · cases hst : c.connectionState with
    | established t r cc ca =>
        rw [hst] at hopen
        cases r <;> simp [ConnectionState.readOpen, ConnectionState.rx] at hopen ⊢
    | _ => rw [hst] at hopen; cases hopen

/-- A reader of three bytes waits while two are there. -/
theorem readersWait_three : ∃ c : Connection Unit Nat,
    c.events.suspended.length = 1 ∧ ReadersWait c := by
  obtain ⟨c, hreach, hlen⟩ : ∃ c : Connection Unit Nat,
      ReachableUnder LeavesReadersWaiting c ∧ c.events.suspended.length = 1 :=
    Transition.exists_reachableUnder step_of_next (initial_listening () .default zeroUser)
      [.onSegment ⟨100#32, 0#32, 1000#16, .syn, []⟩,
       .onSegment ⟨101#32, 1#32, 1000#16, .ack, [1, 2]⟩, .callRecv 3] (by decide)
  exact ⟨c, hlen, readersWait hreach⟩

/-- Data that comes with an old acknowledgement does not wake its reader. -/
theorem readers_forgotten : ¬ ∀ c : Connection Unit Nat, Reachable c → ReadersWait c := by
  intro hall
  obtain ⟨c, hreach, hany⟩ : ∃ c : Connection Unit Nat, Reachable c ∧
      c.events.suspended = [(.recv 3#32, 0)] ∧ c.rx.availableBytes = 3 :=
    Transition.exists_reachableUnder step_of_next (initial_listening () .default zeroUser)
      [.onSegment ⟨100#32, 0#32, 1000#16, .syn, []⟩,
       .onSegment ⟨101#32, 1#32, 1000#16, .ack, []⟩, .callRecv 3,
       .onSegment ⟨101#32, 1#32, 1000#16, .ack, [1, 2, 3]⟩] (by decide)
  have hwait := hall c hreach (.recv 3#32, 0) (by simp [hany.1]) 3#32 rfl
  exact hwait.1 (by simp [hany.2])

end Readers

section EndOfStream

/-- The receive state and the FIN marker of the buffer agree. -/
def EndMarked (c : Connection Addr Time) : Prop :=
  c.connectionState.rx ≠ .opened ↔ c.rx.buffer.fin = true

/-- A FIN that closes the receive state carries an acknowledgement, unless one
was stored before. -/
def FinAcknowledges (c : Connection Addr Time) : Op Time → Prop
  | .onSegment seg =>
      c.connectionState.isEstablished = true ∨ c.connectionState = .synReceived →
        c.checkSegmentSeqOk seg = true → seg.hasRst = false → seg.hasSyn = false →
          seg.hasFin = true → c.rx.buffer.fin = false → seg.hasAck = true
  | _ => True

instance (c : Connection Addr Time) (op : Op Time) : Decidable (c.FinAcknowledges op) := by
  unfold FinAcknowledges
  cases op <;> infer_instance

omit [UserTime Time] in
theorem RxEffect.endMarked {c c' : Connection Addr Time} {op : Op Time} {out : Output}
    (effect : RxEffect c op out c') (h : WellFormed c) (hp : Peered c → EndMarked c)
    (hallowed : c.FinAcknowledges op) (hpeer : Peered c') : EndMarked c' := by
  have idle_not (hidle : c'.connectionState.idle = true) : False := by
    rcases hpeer with hs | hs
    · cases hst : c'.connectionState <;>
        simp_all [ConnectionState.idle, ConnectionState.synced]
    · rw [hs] at hidle
      cases hidle
  unfold EndMarked at hp ⊢
  cases effect with
  | kept _ hrx hstate =>
      rw [hrx]
      rcases hstate with heq | ⟨hs, -, heq⟩
      · rw [heq]
        refine hp ?_
        unfold Peered at hpeer ⊢
        rwa [heq] at hpeer
      · rw [heq]
        exact hp hs
  | cleared _ hidle => exact (idle_not hidle).elim
  | connecting _ _ hstate =>
      rcases hpeer with hs | hs <;> rw [hstate] at hs <;> cases hs
  | answered hst _ _ hstate hrx =>
      have hfin := (h.early (by rw [hst]; rfl)).2.2
      simp [hstate, hrx, hfin, ConnectionState.rx]
  | synAcked hst _ _ _ _ hstate hrx =>
      have hfin := (h.early (by rw [hst]; rfl)).2.2
      rcases hstate with ⟨hs', -⟩ | ⟨-, hopen⟩
      · rcases hpeer with hs | hs <;> rw [hs'] at hs <;> cases hs
      · simp [hopen, hrx, hfin]
  | stored hs _ hrx _ hstate =>
      obtain ⟨-, hfin, -⟩ := RxBuffer.write_spec hrx
      rw [hfin, hstate]
      split
      · rename_i hseg
        simp [hseg]
      · rename_i hseg
        simpa [hseg] using hp hs
  | finOnly hs hcheck hrst hsyn hack hfin hwait _ hrx _ hstate =>
      have hmark : c.rx.buffer.fin = true := by
        by_contra hno
        have hcond : c.connectionState.isEstablished = true ∨
            c.connectionState = .synReceived := by
          rcases hs with hs | hs
          · cases hst : c.connectionState with
            | established => exact .inl rfl
            | timeWait => exact absurd hst hwait
            | _ => rw [hst] at hs; cases hs
          · exact .inr hs
        have := hallowed hcond hcheck hrst hsyn hfin (by simpa using hno)
        rw [hack] at this
        cases this
      simp [hstate, hrx, hmark]
  | waiting => exact hp hpeer
  | ended => exact hp hpeer
  | read hst hread _ hstate hrx =>
      rw [hrx, hstate, (RxBuffer.readBytes_spec hread).2.2.1]
      refine hp ?_
      unfold Peered at hpeer ⊢
      rwa [hstate] at hpeer
  | drained hst hfin hread _ hstate =>
      rcases hstate with ⟨-, hclosed, hrx⟩ | ⟨hidle, -⟩
      · have hs : Peered c := by
          obtain ⟨t, r, cc, ca, hst⟩ := ConnectionState.isEstablished_iff.mp hst
          exact .inl (by rw [hst]; rfl)
        have hmark := (hp hs).mp (by rw [hfin]; decide)
        simp [hclosed, hrx, (RxBuffer.readBytes_spec hread).2.2.1, hmark]
      · exact (idle_not hidle).elim

theorem endMarked {c : Connection Addr Time} (h : ReachableUnder FinAcknowledges c)
    (hs : Peered c) : EndMarked c := by
  refine rxInvariant (P := fun c => Peered c → EndMarked c) ?_ ?_ h hs
  · intro c hinit hs
    have hidle := hinit.fresh.2.2
    rcases hs with hs | hs
    · cases hst : c.connectionState <;> simp_all [ConnectionState.idle, ConnectionState.synced]
    · rw [hs] at hidle
      cases hidle
  · intro c op out c' hwf hp hallowed effect
    exact effect.endMarked hwf hp hallowed

/-- Behind a stored FIN a call of `call_recv` panics only on an empty buffer,
and on the last read while our own FIN has been requested but not sent. -/
theorem callRecv_fin_succeeds_iff {c : Connection Addr Time} (h : WellFormed c)
    (hst : c.connectionState.isEstablished = true) (hfin : c.connectionState.rx = .fin)
    (hmark : c.rx.buffer.fin = true) (bufferLen : Nat) :
    (∃ c' data, c.callRecv bufferLen = .ok (c', .ok data)) ↔ bufferLen ≠ 0 ∧
      ¬ (c.connectionState.closePending = true ∧ c.rx.availableBytes < bufferLen) := by
  obtain ⟨t, r, cc, ca, hst⟩ := ConnectionState.isEstablished_iff.mp hst
  rw [hst] at hfin
  obtain rfl : r = .fin := hfin
  have hpending : c.connectionState.closePending = true ↔ cc = true ∧ t = .opened := by
    rw [hst]
    cases t <;> cases cc <;> simp [ConnectionState.closePending]
  have hvalid : c.connectionState.ValidTransition (.established t .closed cc ca) ↔
      ¬ (cc = true ∧ t = .opened) := by
    rw [hst]
    cases t <;> cases cc <;> simp [ConnectionState.ValidTransition] <;> decide
  rw [hpending, RxBuffer.availableBytes_eq]
  constructor
  · rintro ⟨c', data, hc⟩
    cases recvStep_of_ok hc with
    | ended hs => rw [hst] at hs; cases hs
    | read hs => rw [hst] at hs; cases hs
    | full _ hread hfull =>
        refine ⟨RxBuffer.readBytes_limit hread, ?_⟩
        rintro ⟨_, hlen⟩
        rw [(RxBuffer.readBytes_spec hread).1, List.length_take] at hfull
        omega
    | drained hs hread _ hv =>
        refine ⟨RxBuffer.readBytes_limit hread, ?_⟩
        rintro ⟨hbad, _⟩
        rw [hst] at hs
        obtain ⟨rfl, -, rfl, rfl⟩ := ConnectionState.established.inj hs
        exact hvalid.mp hv hbad
  · rintro ⟨hlimit, hgood⟩
    obtain ⟨rx, data, hread⟩ := RxBuffer.readBytes_succeeds (h.readable (by rw [hst]; rfl))
      hlimit fun _ => hmark
    have hdata := (RxBuffer.readBytes_spec hread).1
    rw [callRecv, hst]
    simp only [hread, Fallible.ok_bind]
    by_cases hlen : data.length < bufferLen
    · have hv : { c with rx := rx }.connectionState.ValidTransition
          (.established t .closed cc ca) := by
        refine hvalid.mpr fun hbad => hgood ⟨hbad, ?_⟩
        rw [hdata, List.length_take] at hlen
        omega
      rw [if_pos hlen, ← hst, setState_eq_ok hv (by simp)]
      exact ⟨_, data, rfl⟩
    · rw [if_neg hlen]
      exact ⟨_, data, rfl⟩

end EndOfStream

end Connection

end TcpState
