import TcpState.Network.Sending

/-!
# The moves of a state and of the log

What one operation does to the state and to the log of a connection, whatever
its branch.
-/

namespace TcpState

namespace Connection

variable {Addr Time : Type}

/-- The moves between states without `call_connect`. -/
inductive Moves (c : Connection Addr Time) (op : Op Time) (c' : Connection Addr Time) : Prop
  | same (h : c'.connectionState = c.connectionState)
  | opened (hs : Peered c ∨ c.connectionState = .synSent ∧ ∃ seg, op = .onSegment seg)
      (hs' : c'.connectionState.synced = true)
  | cleared (hidle : c'.connectionState.idle = true)
      (hlisten : c'.connectionState = .listen → c.connectionState = .synReceived ∧
        ∃ seg, op = .onSegment seg ∧ seg.hasRst = true)
  | answered {seg : SegmentMeta} (hop : op = .onSegment seg)
      (hst : c.connectionState = .listen) (hst' : c'.connectionState = .synReceived)

/-- A segment that an operation puts on the wire. -/
inductive Puts (c : Connection Addr Time) (op : Op Time) (c' : Connection Addr Time)
    (s : SegmentMeta) : Prop
  | remark (h : Remark c op s)
  | parting (hidle : c'.connectionState.idle = true)
      (hlisten : c'.connectionState = .listen → c.connectionState = .synReceived)
      (h : Parting c op s)
  | built (hs : Peered c') (hrst : s.hasRst = false) (hackn : s.ackn = c'.rx.ackd)

variable {c c₀ c' : Connection Addr Time} {op : Op Time} {out : Output}

theorem TxSent.mem_sent (h : TxSent c₀ c') {s : SegmentMeta} (hs : s ∈ c'.userData.sent) :
    s ∈ c₀.userData.sent ∨ s = c₀.outSegment := by
  rw [h.sent, List.mem_append] at hs
  refine hs.imp_right fun hs => ?_
  split at hs
  · cases hs
  · exact List.mem_singleton.mp hs

theorem TxSent.puts (h : TxSent c₀ c') (hs' : c'.connectionState.synced = true)
    {s : SegmentMeta} (hs : s ∈ c'.userData.sent) : s ∈ c₀.userData.sent ∨ Puts c op c' s := by
  refine (h.mem_sent hs).imp_right fun heq => ?_
  rw [heq]
  exact .built (.inl hs') c₀.outSegment_hasRst (congrArg RxBuffer.ackd h.rx.symm)

/-- What is queued for retransmission has been sent. -/
theorem TxSent.reTx_logged (h : TxSent c₀ c')
    (hlogged : ∀ s ∈ c₀.tx.reTx, s ∈ c₀.userData.sent) :
    ∀ s ∈ c'.tx.reTx, s ∈ c'.userData.sent := by
  intro s hs
  rw [h.reTx, List.mem_append] at hs
  rw [h.sent, List.mem_append]
  refine hs.imp (hlogged s) fun hs => ?_
  split at hs
  · cases hs
  · rename_i hsize
    rw [if_neg fun hskip : c₀.skipsRepeat => hsize hskip.1]
    exact hs

namespace TxEffect

theorem moves (effect : TxEffect c op out c') (hop : op ≠ .callConnect) : Moves c op c' := by
  cases effect with
  | kept _ _ hstate =>
      rcases hstate with h | ⟨hs, hs', -⟩
      · exact .same h
      · exact .opened (.inl (hs.elim .inl And.left)) hs'
  | cleared _ hidle hlisten => exact .cleared hidle hlisten
  | connecting => exact absurd rfl hop
  | answered hst _ _ hc => exact .answered rfl hst hc.state
  | queued _ _ _ _ hstate => exact .same hstate
  | appended _ _ _ _ _ _ _ hstate => exact .same hstate
  | marked _ hs _ _ _ _ _ _ _ _ hsync => exact .opened (.inl hs) hsync
  | acked hs _ _ _ _ hstate => exact .opened (.inl hs) hstate.synced
  | stored hs _ _ _ _ _ _ hstate => exact .opened (.inl hs) hstate.synced
  | synAcked => exact .same rfl
  | opened hst _ _ _ _ _ _ hstate => exact .opened (.inr ⟨hst, _, rfl⟩) (by rw [hstate]; rfl)

theorem puts (effect : TxEffect c op out c') (hop : op ≠ .callConnect) {s : SegmentMeta}
    (hs : s ∈ c'.userData.sent) : s ∈ c.userData.sent ∨ Puts c op c' s := by
  cases effect with
  | kept _ _ _ hsent hnew =>
      rw [hsent, List.mem_append] at hs
      exact hs.imp_right fun hs => .remark (hnew s hs)
  | cleared _ hidle hlisten _ hsent hnew =>
      rw [hsent, List.mem_append] at hs
      exact hs.imp_right fun hs => .parting hidle (fun hl => (hlisten hl).1) (hnew s hs)
  | connecting => exact absurd rfl hop
  | @answered seg _ _ _ _ hc =>
      rw [hc.sent, List.mem_append, List.mem_singleton] at hs
      refine hs.imp_right fun heq => ?_
      rw [heq]
      refine .built (.inr hc.state) ?_ ?_
      · simp [SegmentMeta.hasRst, synReply]
      · rw [hc.rx]
        rfl
  | queued _ _ _ _ _ hsent =>
      rw [hsent] at hs
      exact .inl hs
  | appended _ _ hsync _ _ _ h hstate =>
      exact h.puts (by rw [hstate]; exact hsync) hs
  | marked _ _ _ _ _ _ _ _ hsent h hsync =>
      rw [← hsent]
      exact h.puts hsync hs
  | acked _ _ _ _ _ _ hsent hnew =>
      rw [hsent, List.mem_append] at hs
      exact hs.imp_right fun hs => .remark (hnew s hs)
  | stored _ _ _ _ _ hsent h hstate =>
      rw [← hsent]
      exact h.puts hstate.synced hs
  | @synAcked seg =>
      rw [synAcked_sent] at hs
      exact .inl hs
  | @opened seg _ _ _ _ _ _ _ h hstate =>
      rw [← synAcked_sent c seg, ← entered_sent (c.synAcked seg) .fullyOpen]
      exact h.puts (by rw [hstate]; rfl) hs

/-- The wire only grows. -/
theorem sent_isPrefix (effect : TxEffect c op out c') : c.userData.sent <+: c'.userData.sent := by
  cases effect with
  | kept _ _ _ hsent | cleared _ _ _ _ hsent | acked _ _ _ _ _ _ hsent =>
      rw [hsent]
      exact List.prefix_append _ _
  | connecting _ _ hc | answered _ _ _ hc =>
      rw [hc.sent]
      exact List.prefix_append _ _
  | queued _ _ _ _ _ hsent => rw [hsent]
  | appended _ _ _ _ _ _ h =>
      rw [h.sent]
      exact List.prefix_append _ _
  | marked _ _ _ _ _ _ _ _ hsent h | stored _ _ _ _ _ hsent h =>
      rw [h.sent, hsent]
      exact List.prefix_append _ _
  | synAcked => rw [synAcked_sent]
  | opened _ _ _ _ _ _ h =>
      rw [h.sent, entered_sent, synAcked_sent]
      exact List.prefix_append _ _

theorem reTx_logged (effect : TxEffect c op out c') (hop : op ≠ .callConnect)
    (hlogged : ∀ s ∈ c.tx.reTx, s ∈ c.userData.sent) : ∀ s ∈ c'.tx.reTx, s ∈ c'.userData.sent := by
  cases effect with
  | kept _ htx _ hsent =>
      intro s hs
      rw [htx.reTx] at hs
      rw [hsent]
      exact List.mem_append_left _ (hlogged s hs)
  | cleared _ _ _ htx =>
      rw [htx]
      exact nofun
  | connecting => exact absurd rfl hop
  | answered _ _ _ hc =>
      intro s hs
      rw [hc.tx, TxBuffer.onSend_reTx, List.mem_append] at hs
      rw [hc.sent, List.mem_append]
      refine hs.imp (hlogged s) fun hs => ?_
      split at hs
      · cases hs
      · exact hs
  | queued _ _ _ htx _ hsent =>
      rw [htx, hsent]
      exact hlogged
  | appended _ _ _ _ _ _ h => exact h.reTx_logged hlogged
  | marked _ _ _ _ _ htx _ _ hsent h =>
      refine h.reTx_logged ?_
      rw [htx, hsent]
      exact hlogged
  | acked _ _ _ _ htx _ hsent =>
      intro s hs
      rw [htx] at hs
      rw [hsent]
      exact List.mem_append_left _ (hlogged s (unackedAfter_subset hs))
  | stored _ _ htx _ _ hsent h =>
      refine h.reTx_logged fun s hs => ?_
      rw [htx] at hs
      rw [hsent]
      exact hlogged s (unackedAfter_subset hs)
  | @synAcked seg =>
      intro s hs
      rw [synAcked_sent]
      exact hlogged s (List.dropWhile_subset _ hs)
  | @opened seg _ _ _ _ _ _ _ h =>
      refine h.reTx_logged fun s hs => ?_
      rw [entered_tx] at hs
      rw [entered_sent, synAcked_sent]
      exact hlogged s (List.dropWhile_subset _ hs)

/-- Without a peer to come, or behind the FIN marker, nothing is taken over. -/
theorem accepted_eq_nil (effect : TxEffect c op out c')
    (hs : c.connectionState.idle = true ∨ c.tx.tx.fin = true) : out.accepted op = [] := by
  cases effect with
  | kept hout => exact hout
  | cleared hout => exact hout
  | connecting _ hout => exact hout
  | queued hout hopen hq =>
      rw [hout]
      rcases hs with hidle | hfin
      · rcases hopen with ho | ⟨hsync, -⟩
        · exact absurd (hidle.symm.trans (ConnectionState.not_idle_of_opening ho)) (by decide)
        · exact absurd (hidle.symm.trans (ConnectionState.not_idle_of_synced hsync)) (by decide)
      · refine (BlobQueue.writeBytes_spec hq).2.2.resolve_right fun hopen => ?_
        rw [hfin] at hopen
        cases hopen
  | appended hdata hout hsync _ hq =>
      rcases hs with hidle | hfin
      · exact absurd (hidle.symm.trans (ConnectionState.not_idle_of_synced hsync)) (by decide)
      · have := (BlobQueue.writeBytes_spec hq).2.2.resolve_left hdata
        rw [hfin] at this
        cases this
  | marked hop => rcases hop with rfl | rfl <;> rfl
  | _ => rfl

end TxEffect

namespace Moves

theorem gone (h : Moves c op c') (hgone : c.connectionState.gone = true) :
    c'.connectionState.gone = true := by
  cases h with
  | same h => rw [h, hgone]
  | opened hs =>
      rcases hs with hs | hs
      · exact absurd hs (not_peered_of_idle (ConnectionState.idle_of_gone hgone))
      · rw [hs.1] at hgone
        cases hgone
  | cleared hidle hlisten =>
      refine ConnectionState.gone_of_idle hidle fun hl => ?_
      rw [(hlisten hl).1] at hgone
      cases hgone
  | answered _ hst =>
      rw [hst] at hgone
      cases hgone

theorem of_synSent (h : Moves c op c') (hst : c'.connectionState = .synSent) :
    c.connectionState = .synSent := by
  cases h with
  | same h => rw [← h, hst]
  | opened _ hs' => rw [hst] at hs'; cases hs'
  | cleared hidle => rw [hst] at hidle; cases hidle
  | answered _ _ hst' => rw [hst] at hst'; cases hst'

theorem of_synReceived (h : Moves c op c') (hst : c'.connectionState = .synReceived) :
    c.connectionState = .synReceived ∨ c.connectionState = .listen := by
  cases h with
  | same h => exact .inl (h.symm.trans hst)
  | opened _ hs' => rw [hst] at hs'; cases hs'
  | cleared hidle => rw [hst] at hidle; cases hidle
  | answered _ hst => exact .inr hst

theorem of_listen (h : Moves c op c') (hst : c'.connectionState = .listen) :
    c.connectionState = .listen ∨ c.connectionState = .synReceived ∧
      ∃ seg, op = .onSegment seg ∧ seg.hasRst = true := by
  cases h with
  | same h => exact .inl (h.symm.trans hst)
  | opened _ hs' => rw [hst] at hs'; cases hs'
  | cleared _ hlisten => exact .inr (hlisten hst)
  | answered _ _ hst' => rw [hst] at hst'; cases hst'

end Moves

end Connection

end TcpState
