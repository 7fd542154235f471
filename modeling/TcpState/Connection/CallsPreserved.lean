import TcpState.Connection.CallSteps
import TcpState.Connection.SegmentPreserved

/-!
# Calls and ticks keep a connection well formed

With the incoming segments this gives every operation, and by induction every
reachable connection.
-/

namespace TcpState

namespace Connection

variable {Addr Time : Type}

namespace WellFormed

variable {c c' : Connection Addr Time}

/-- Another output queue on an open connection. -/
theorem withQueue (h : WellFormed c) (hs : c.connectionState.synced = true) {q : BlobQueue}
    (hmarked : q.fin = true → q.bytes = []) (hfin : c.tx.tx.fin = true → q.fin = true) :
    WellFormed (c.withQueue q) := by
  refine of_synced hs ⟨h.dupAck, h.congestion, h.rxWindow, hmarked, h.reTx⟩ ?_ h.readClosed
    h.readable h.readers
  rintro (hw | hp)
  · exact hfin (h.wroteFin hw)
  · exact hfin (h.closePending hp)

theorem marked_steady (h : WellFormed c) (hempty : c.tx.tx.bytes = []) : Steady c.marked :=
  ⟨h.dupAck, h.congestion, h.rxWindow, fun _ => hempty, h.reTx⟩

theorem withMark (h : WellFormed c) (hs : c.connectionState.synced = true)
    (hempty : c.tx.tx.bytes = []) : WellFormed c.marked :=
  h.withQueue hs (fun _ => hempty) fun _ => rfl

/-- Without suspended senders nothing was queued during the handshake. -/
theorem queue_empty (h : WellFormed c) (hs : c.connectionState = .synReceived)
    (hw : c.noSenders) : c.tx.tx.bytes = [] := by
  by_contra hb
  obtain ⟨p, hp, ha⟩ := h.queued hs hb
  have hany := anySuspended_iff.mpr ⟨p, hp, ha⟩
  rw [hw] at hany
  cases hany

theorem not_reading (h : WellFormed c) (hs : c.connectionState.readOpen = false) :
    ¬ ∃ p ∈ c.dataWaiters, p.1.isRecv = true := fun hw => by
  rw [h.readers hw] at hs
  cases hs

variable [UserTime Time]

theorem callConnect (h : WellFormed c) {r : Except Error Unit}
    (hc : c.callConnect = .ok (c', r)) : WellFormed c' := by
  cases connectStep_of_ok hc with
  | refused => exact h
  | connecting hs ha =>
      have hidle : c.connectionState.idle = true := by
        rcases hs with hs | hs <;> rw [hs] <;> rfl
      obtain ⟨htx, hrx⟩ := h.idle hidle
      have hsize : c.synSegment.seqSize = 1#32 := seqSize_of_syn (.inl rfl) rfl
      refine of_opening ?_ ?_ ?_ (.of_syn (.inl rfl) rfl : Retransmittable c.synSegment)
        ?_ ?_ ?_ ?_ ?_ ?_ ?_ ?_
      · rw [ha.state]
        rfl
      · rw [ha.dupAckCount, h.dupAck]
      · rw [ha.congestionWindow]
        exact h.congestion
      · simp [ha.tx, htx, TxBuffer.init, TxBuffer.default]
      · simp [ha.tx, htx, TxBuffer.init, TxBuffer.default, hsize]
      · simp [ha.tx, TxBuffer.init]
      · simp [ha.tx, TxBuffer.init, hsize]
      · simp [ha.rx, hrx, RxBuffer.default]
      · simp [ha.rx, hrx, RxBuffer.default]
      · simp [ha.rx, hrx, RxBuffer.default]
      · rw [ha.waiters]
        apply h.not_reading
        rcases hs with hs | hs <;> rw [hs] <;> rfl

theorem callSend (h : WellFormed c) {inputData : List UInt8} {r : Except Error Unit}
    (hc : c.callSend inputData = .ok (c', r)) : WellFormed c' := by
  obtain ⟨hdata, step⟩ := sendStep_of_ok hc
  have appended {q : BlobQueue} (hq : c.tx.tx.writeBytes inputData = .ok q)
      (hs : c.connectionState.synced = true) : WellFormed (c.withQueue q) := by
    obtain ⟨-, hfin, hopen⟩ := BlobQueue.writeBytes_spec hq
    refine h.withQueue hs ?_ ?_
    · rw [hfin, hopen.resolve_left hdata]
      simp
    · rw [hfin]
      exact id
  cases step with
  | refused => exact h
  | @delayed q k hs hq =>
      obtain ⟨hbytes, hfin, hopen⟩ := BlobQueue.writeBytes_spec hq
      have hnofin := hopen.resolve_left hdata
      constructor
      case toSteady =>
        refine ⟨h.dupAck, h.congestion, h.rxWindow, ?_, h.reTx⟩
        intro hmark
        change q.fin = true at hmark
        rw [hfin, hnofin] at hmark
        cases hmark
      case queued =>
        intro _ _
        refine ⟨(.acknowledged (c.tx.next + BitVec.ofNat 32 inputData.length),
          c.events.nextCookie), ?_, rfl⟩
        rw [dataWaiters_suspend]
        exact List.mem_append_right _ (List.mem_singleton.mpr rfl)
      case early =>
        intro hsync
        exact ⟨hfin.trans hnofin, (h.early hsync).2⟩
      case idle =>
        intro hidle
        change c.connectionState.idle = true at hidle
        cases hst : c.connectionState <;>
          simp_all [ConnectionState.idle, ConnectionState.opening]
      case wroteFin => exact fun hw => hfin.trans (h.wroteFin hw)
      case closePending => exact fun hp => hfin.trans (h.closePending hp)
      case readers =>
        rintro ⟨p, hp, hr⟩
        rw [dataWaiters_suspend, List.mem_append] at hp
        rcases hp with hp | hp
        · exact h.readers ⟨p, hp, hr⟩
        · rw [List.mem_singleton.mp hp] at hr
          cases hr
      exacts [h.readClosed, h.readable, h.opening]
  | queued hs hq => exact appended hq (by rw [hs]; rfl)
  | sent hs hq _ hsend =>
      have hsync : c.connectionState.synced = true := by rw [hs]; rfl
      exact (appended hq hsync).sendAck hsync hsend

theorem callRecv (h : WellFormed c) {bufferLen : Nat} {r : Except Error (List UInt8)}
    (hc : c.callRecv bufferLen = .ok (c', r)) : WellFormed c' := by
  -- A read that is not short leaves the stream readable.
  have kept {t rxState : ChannelState} {cc ca : Bool} {rx : RxBuffer} {data : List UInt8}
      (hs : c.connectionState = .established t rxState cc ca)
      (hread : c.rx.readBytes bufferLen = .ok (rx, data))
      (hlen : bufferLen ≤ c.rx.bytes.length) : WellFormed { c with rx := rx } := by
    obtain ⟨-, -, hfin, -, hwin, -, hdone, -⟩ := RxBuffer.readBytes_spec hread
    refine of_synced (by simp [hs, ConnectionState.synced])
      ⟨h.dupAck, h.congestion, hwin.trans h.rxWindow, h.marked, h.reTx⟩ ?_ ?_ ?_ h.readers
    · rintro (hw | hp)
      · exact h.wroteFin hw
      · exact h.closePending hp
    · exact fun hr => hfin.trans (h.readClosed hr)
    · intro _
      rw [hdone, decide_eq_false (by omega), Bool.false_and]
  cases recvStep_of_ok hc with
  | refused => exact h
  | ended => exact h
  | early => exact h.suspend (by simp [WaitUntil.isRecv])
  | waiting hs => exact h.suspend fun _ => by rw [hs]; rfl
  | read hs hlen hread => exact kept hs hread (by rwa [RxBuffer.availableBytes_eq] at hlen)
  | full hs hread hlen =>
      refine kept hs hread ?_
      rw [(RxBuffer.readBytes_spec hread).1, List.length_take] at hlen
      omega
  | @drained t cc ca rx data hs hread hlen hv =>
      obtain ⟨-, -, hfin, -, hwin, -, -, hend⟩ := RxBuffer.readBytes_spec hread
      refine stateSet_established
        ⟨h.dupAck, h.congestion, hwin.trans h.rxWindow, h.marked, h.reTx⟩ ?_ ?_ ?_ ?_
      · rintro (ht | rfl)
        · apply h.wroteFin
          rw [hs]
          cases t <;> simp [ConnectionState.wroteFin] at ht ⊢
        · cases t with
          | opened => exact h.closePending (by rw [hs]; rfl)
          | fin => exact h.wroteFin (by rw [hs]; rfl)
          | closed => exact h.wroteFin (by rw [hs]; rfl)
      · exact fun _ => hfin.trans (hend hlen)
      · simp
      · exact fun hw => absurd hw (h.not_reading (by rw [hs]; rfl))

/-- The handshake state is left for a half-closed one once the FIN is queued. -/
theorem early_marked (h : WellFormed c) (hs : c.connectionState = .synReceived)
    (hempty : c.tx.tx.bytes = []) {c₁ : Connection Addr Time} (hc : c.marked.sendAck = .ok c₁)
    {cc ca : Bool} : WellFormed (c₁.entered (.established .fin .opened cc ca)) := by
  have a := sendAck_spec hc
  rw [← stateSet_eq_entered c₁ (.inl (by decide))]
  refine stateSet_established (a.steady (h.marked_steady hempty)) ?_ (by simp) ?_ ?_
  · exact fun _ => a.fin
  · intro _
    rw [a.rx]
    exact h.readable (by rw [hs]; rfl)
  · exact fun _ => rfl

theorem callShutdown (h : WellFormed c) {r : Except Error Unit}
    (hc : c.callShutdown = .ok (c', r)) : WellFormed c' := by
  cases shutdownStep_of_ok hc with
  | refused => exact h
  | cleared => exact .clear _
  | delayed => exact h.suspend (by simp [WaitUntil.isRecv])
  | early hs hw hsend => exact h.early_marked hs (h.queue_empty hs hw) hsend
  | @active cc ca _ hs hcc hempty hw hsend =>
      subst hcc
      have hwf : WellFormed (c.entered (.established .opened .opened false true)) := by
        rw [← stateSet_eq_entered c (.inl (by decide))]
        refine stateSet_established h.toSteady (by simp) (by simp) ?_ fun _ => rfl
        exact fun _ => h.readable (by rw [hs]; rfl)
      have hsync : (c.entered (.established .opened .opened false true)).connectionState.synced
          = true := by simp [ConnectionState.synced]
      exact (hwf.withMark hsync (by simpa using hempty)).sendAck hsync hsend
  | passive hs _ hempty _ hsend =>
      have hsync : c.connectionState.synced = true := by rw [hs]; rfl
      exact (h.withMark hsync hempty).sendAck hsync hsend

/-- Recording the close of a connection whose FIN is queued. -/
theorem closing (h : WellFormed c) {t r : ChannelState} {cc ca : Bool}
    (hs : c.connectionState = .established t r cc ca) (hfin : c.tx.tx.fin = true)
    (closeActive : Bool) : WellFormed (c.closing closeActive) := by
  have hset : WellFormed (c.stateSet
      (.established c.connectionState.tx c.connectionState.rx true closeActive)) := by
    rw [hs]
    refine stateSet_established h.toSteady (fun _ => hfin) ?_ ?_ ?_
    · rintro rfl
      exact h.readClosed (by rw [hs]; rfl)
    · intro hr
      apply h.readable
      rw [hs]
      cases r <;> simp [ConnectionState.rx, ConnectionState.readClosed] at hr ⊢
    · intro hw
      have := h.readers hw
      rw [hs] at this
      cases r <;> simp [ConnectionState.readOpen, ConnectionState.rx] at this ⊢
  unfold Connection.closing
  dsimp only
  split
  · exact hset
  · exact hset.suspend (by simp [WaitUntil.isRecv])

theorem callClose (h : WellFormed c) {r : Except Error Unit}
    (hc : c.callClose = .ok (c', r)) : WellFormed c' := by
  cases closeStep_of_ok hc with
  | refused => exact h
  | cleared => exact .clear _
  | delayed => exact h.suspend (by simp [WaitUntil.isRecv])
  | early hs hempty _ hsend =>
      exact (h.early_marked hs hempty hsend).suspend (by simp [WaitUntil.isRecv])
  | @opened rx cc ca c₁ r hs hempty hw hsend hv =>
      have hsync : c.connectionState.synced = true := by rw [hs]; rfl
      have a := sendAck_spec hsend
      have hstate : ∃ t, c₁.connectionState = .established t rx cc ca := by
        rw [a.state]
        change ∃ t, (if c.marked.sendsFin = true then c.connectionState.withFin
          else c.connectionState) = _
        rw [hs]
        split
        · exact ⟨.fin, rfl⟩
        · exact ⟨.opened, rfl⟩
      obtain ⟨t, ht⟩ := hstate
      exact ((h.withMark hsync hempty).sendAck hsync hsend).closing ht a.fin _
  | @ended t rx cc ca r hs ht =>
      refine h.closing hs (h.wroteFin ?_) _
      rw [hs]
      cases t <;> simp [ConnectionState.wroteFin] at ht ⊢

omit [UserTime Time] in
theorem callAbort (h : WellFormed c) {r : Except Error Unit}
    (hc : c.callAbort = .ok (c', r)) : WellFormed c' := by
  cases abortStep_of_ok hc with
  | refused => exact h
  | cleared => exact .clear _
  | reset => exact .clear _

theorem onTimeTick (h : WellFormed c) {time : Time} (hc : c.onTimeTick time = .ok c') :
    WellFormed c' := by
  cases tickStep_of_ok hc with
  | kept hstate htx hrx hdup hcw hw => exact h.congr hstate hdup hcw htx hrx hw
  | cleared => exact .clear _

/-- Every operation keeps a connection well formed. -/
theorem step (h : WellFormed c) {op : Op Time} {out : Output}
    (hc : c.step op = .ok (c', out)) : WellFormed c' := by
  cases opStep_of_ok hc with
  | callConnect hc => exact h.callConnect hc
  | callSend hc => exact h.callSend hc
  | callRecv hc => exact h.callRecv hc
  | callShutdown hc => exact h.callShutdown hc
  | callClose hc => exact h.callClose hc
  | callAbort hc => exact h.callAbort hc
  | setOptions => exact h.congr rfl rfl rfl rfl rfl (dataWaiters_congr rfl)
  | onSegment hc => exact h.onSegment hc
  | onTimeTick hc => exact h.onTimeTick hc

end WellFormed

variable [UserTime Time]

/-- A fresh connection, closed or in Listen. -/
theorem Initial.wellFormed {c : Connection Addr Time} (h : Initial c) : WellFormed c := by
  rcases h with ⟨remote, userData, rfl⟩ | ⟨l, addr, userData, h⟩
  · exact .of_idle rfl rfl rfl rfl rfl rfl
  · obtain ⟨-, -, rfl⟩ := setState_ok_iff.mp h
    rw [stateSet_listen]
    exact .of_idle rfl rfl rfl rfl rfl rfl

theorem Reachable.wellFormed {c : Connection Addr Time} (h : Reachable c) : WellFormed c := by
  refine Transition.Reachable.invariant ?_ ?_ h
  · exact fun _ hinit => Initial.wellFormed hinit
  · rintro _ _ _ hwf ⟨_, hstep⟩
    exact hwf.step hstep

end Connection

end TcpState
