import TcpState.Connection.Acceptance
import TcpState.Connection.Exact
import TcpState.Connection.TxEffect

/-!
# What a segment can still set off

A segment sets off at most one other. Each is weighed by what it can set off
in turn, and a connection by what it has yet to send. A segment takes more
weight along than it leaves behind, unless it is unacceptable.
-/

namespace TcpState

namespace SegmentMeta

/-- An acknowledgement weighs more than the RST that may answer it, one that
carries something more than a bare one, and a SYN or FIN without it the most. -/
def weight (seg : SegmentMeta) : Nat :=
  if seg.hasRst then if seg.hasAck then 2 else 1
  else if seg.hasAck then
    if seg.data = [] ∧ seg.hasSyn = false ∧ seg.hasFin = false then 3 else 4
  else 11

variable {seg : SegmentMeta}

theorem weight_pos : 0 < seg.weight := by
  unfold weight
  repeat' split
  all_goals decide

theorem weight_of_ack (hack : seg.hasAck = true) : 1 < seg.weight := by
  unfold weight
  rw [hack]
  repeat' split
  all_goals simp_all

theorem weight_of_not_rst (hrst : seg.hasRst = false) : 2 < seg.weight := by
  unfold weight
  rw [hrst]
  repeat' split
  all_goals simp_all

theorem weight_of_no_ack (hrst : seg.hasRst = false) (hack : seg.hasAck = false) :
    seg.weight = 11 := by
  simp [weight, hrst, hack]

/-- Only a bare acknowledgement weighs as much as one. -/
theorem bare_or_heavy (hrst : seg.hasRst = false) :
    (seg.data = [] ∧ seg.hasSyn = false ∧ seg.hasFin = false) ∨ 3 < seg.weight := by
  by_cases hbare : seg.data = [] ∧ seg.hasSyn = false ∧ seg.hasFin = false
  · exact .inl hbare
  · right
    simp only [weight, hrst, if_neg hbare, Bool.false_eq_true, if_false]
    cases seg.hasAck <;> decide

end SegmentMeta

namespace Connection

variable {Addr Time : Type}

/-- `send_ack` would not skip an empty segment as a repeated one. -/
def stale (c : Connection Addr Time) : Bool :=
  decide (some (c.tx.next, c.rx.ackd, c.rx.currWindow) ≠ c.tx.lastSent)

/-- The weight of what is still to be sent: the bytes and the FIN, an
acknowledgement, and the answer to the segment that ends the connection. -/
def backlog (c : Connection Addr Time) : Nat :=
  if c.connectionState.idle then 0
  else 4 * (c.tx.tx.bytes.length + (!c.connectionState.wroteFin).toNat) + c.stale.toNat + 1

/-- The answer to an unacceptable segment. -/
def answer (c : Connection Addr Time) : SegmentMeta := c.bareSegment c.rx.ackd .ack

/-- A segment that is answered because it is unacceptable. -/
def Rejects (c : Connection Addr Time) (seg : SegmentMeta) : Prop :=
  c.Peered ∧ seg.hasRst = false ∧ c.checkSegmentSeqOk seg = false

instance (c : Connection Addr Time) (seg : SegmentMeta) : Decidable (c.Rejects seg) := by
  unfold Rejects
  infer_instance

/-- The weight after a step, the new segments included, is less than before. -/
def Lightens (c : Connection Addr Time) (weight : Nat) (c' : Connection Addr Time) : Prop :=
  ∃ new, c'.userData.sent = c.userData.sent ++ new ∧
    (new.map SegmentMeta.weight).sum + c'.backlog < weight + c.backlog

variable {c c₀ c₁ c₂ c' : Connection Addr Time} {seg : SegmentMeta} {weight : Nat}

theorem answer_weight (c : Connection Addr Time) : c.answer.weight = 3 := by
  have hrst : c.answer.hasRst = false := (by decide : SegmentFlags.ack.contains .rst = false)
  have hack : c.answer.hasAck = true := (by decide : SegmentFlags.ack.contains .ack = true)
  have hsyn : c.answer.hasSyn = false := (by decide : SegmentFlags.ack.contains .syn = false)
  have hfin : c.answer.hasFin = false := (by decide : SegmentFlags.ack.contains .fin = false)
  have hdata : c.answer.data = [] := rfl
  simp [SegmentMeta.weight, hrst, hack, hsyn, hfin, hdata]

section Backlog

theorem backlog_of_idle (hidle : c.connectionState.idle = true) : c.backlog = 0 := if_pos hidle

theorem backlog_of_live (hidle : c.connectionState.idle = false) : c.backlog =
    4 * (c.tx.tx.bytes.length + (!c.connectionState.wroteFin).toNat) + c.stale.toNat + 1 :=
  if_neg (Bool.eq_false_iff.mp hidle)

/-- What decides whether `send_ack` repeats itself. -/
structure SaysAlike (c c' : Connection Addr Time) : Prop where
  lastSent : c'.tx.lastSent = c.tx.lastSent
  next : c'.tx.next = c.tx.next
  ackd : c'.rx.ackd = c.rx.ackd
  currWindow : c'.rx.currWindow = c.rx.currWindow

theorem SaysAlike.stale (h : SaysAlike c c') : c'.stale = c.stale := by
  rw [Connection.stale, Connection.stale, h.lastSent, h.next, h.ackd, h.currWindow]

theorem SaysAlike.of_eq (htx : c'.tx = c.tx) (hrx : c'.rx = c.rx) : SaysAlike c c' := by
  constructor <;> simp only [htx, hrx]

/-- The same queue and the same FIN weigh the same, up to the acknowledgement. -/
theorem backlog_le (hidle : c.connectionState.idle = false)
    (hbytes : c'.tx.tx.bytes = c.tx.tx.bytes)
    (hwrote : c'.connectionState.wroteFin = c.connectionState.wroteFin) :
    c'.backlog ≤ c.backlog + 1 := by
  have hstale := Bool.toNat_le c'.stale
  rw [backlog_of_live hidle]
  unfold backlog
  split
  · omega
  · rw [hbytes, hwrote]
    omega

theorem SaysAlike.backlog_le (h : SaysAlike c c') (hidle : c.connectionState.idle = false)
    (hbytes : c'.tx.tx.bytes = c.tx.tx.bytes)
    (hwrote : c'.connectionState.wroteFin = c.connectionState.wroteFin) :
    c'.backlog ≤ c.backlog := by
  rw [backlog_of_live hidle]
  unfold backlog
  split
  · omega
  · rw [hbytes, hwrote, h.stale]

end Backlog

namespace Lightens

theorem silent (hsent : c'.userData.sent = c.userData.sent)
    (hlt : c'.backlog < weight + c.backlog) : Lightens c weight c' :=
  ⟨[], by rw [hsent, List.append_nil], by simpa using hlt⟩

theorem said {s : SegmentMeta} (hsent : c'.userData.sent = c.userData.sent ++ [s])
    (hlt : s.weight + c'.backlog < weight + c.backlog) : Lightens c weight c' :=
  ⟨[s], hsent, by simpa using hlt⟩

/-- What goes before in a step sends nothing. -/
theorem of_silent {weight' : Nat} (h : Lightens c₀ weight' c')
    (hsent : c₀.userData.sent = c.userData.sent)
    (hle : weight' + c₀.backlog ≤ weight + c.backlog) : Lightens c weight c' := by
  obtain ⟨new, hnew, hlt⟩ := h
  exact ⟨new, by rw [hnew, hsent], by omega⟩

/-- What follows in a step sends nothing. -/
theorem congr (h : Lightens c weight c₁) (hsent : c'.userData.sent = c₁.userData.sent)
    (hle : c'.backlog ≤ c₁.backlog) : Lightens c weight c' := by
  obtain ⟨new, hnew, hlt⟩ := h
  exact ⟨new, by rw [hsent, hnew], by omega⟩

end Lightens

section Send

variable [UserTime Time]

/-- What `send_ack` says is no longer stale, unless it said more. -/
theorem sendAck_stale (h : c.sendAck = .ok c') (hsize : c.outSegment.seqSize = 0#32) :
    c'.stale = false := by
  have a := sendAck_spec h
  have hnext : c'.tx.next = c.tx.next := by rw [a.next, hsize, BitVec.add_zero]
  have hlast : c'.tx.lastSent = some (c.tx.next, c.rx.ackd, c.rx.currWindow) := by
    obtain ⟨q, -, -, rfl⟩ := sendAck_eq h
    have htx := taken_tx c q
    unfold emit
    split
    · rename_i hskip
      exact hskip.2.symm
    · have hsaid : ((c.taken q).tx.onSend c.outSegment).lastSent =
          some (c.tx.next, c.rx.ackd, c.rx.currWindow) := by
        unfold TxBuffer.onSend
        split <;> rfl
      dsimp only
      split <;> exact hsaid
  rw [stale, hlast, hnext, a.rx]
  simp

/-- A segment from `send_ack` weighs less than what made it possible. -/
theorem sendAck_lightens (hsync : c.connectionState.synced = true) (h : c.sendAck = .ok c') :
    Lightens c 3 c' := by
  have a := sendAck_spec h
  obtain ⟨hsync', hwrote, -⟩ := a.txState hsync
  have hb := backlog_of_live (ConnectionState.not_idle_of_synced hsync)
  have hb' := backlog_of_live (ConnectionState.not_idle_of_synced hsync')
  have hlen := congrArg List.length a.bytes
  rw [List.length_drop] at hlen
  by_cases hsize : c.outSegment.seqSize = 0#32
  · obtain ⟨hdata, hfin⟩ := (outSegment_seqSize_eq_zero c).mp hsize
    rw [hfin, Bool.or_false] at hwrote
    rw [sendAck_stale h hsize, hwrote, Bool.toNat_false] at hb'
    by_cases hskip : c.skipsRepeat
    · refine .silent (by rw [a.sent, if_pos hskip, List.append_nil]) ?_
      omega
    · refine .said (by rw [a.sent, if_neg hskip]) ?_
      have hstale : c.stale = true := decide_eq_true fun heq => hskip ⟨hsize, heq⟩
      have hweight : c.outSegment.weight = 3 := by
        have hnone : c.outSegment.data = [] := hdata
        simp [SegmentMeta.weight, hnone, hfin]
      rw [hstale, Bool.toNat_true] at hb
      omega
  · have hskip : ¬ c.skipsRepeat := fun hskip => hsize hskip.1
    refine .said (by rw [a.sent, if_neg hskip]) ?_
    have hstale := Bool.toNat_le c'.stale
    have hweight : c.outSegment.weight ≤ 4 := by
      simp only [SegmentMeta.weight, outSegment_hasRst, outSegment_hasAck, Bool.false_eq_true,
        if_false, if_true]
      split <;> decide
    have hless : c'.tx.tx.bytes.length + (!c'.connectionState.wroteFin).toNat + 1 ≤
        c.tx.tx.bytes.length + (!c.connectionState.wroteFin).toNat := by
      rw [hlen, hwrote]
      cases hfin : c.sendsFin with
      | true =>
          rw [(sendsFin_iff.mp hfin).2.2]
          simp only [Bool.or_true, Bool.not_true, Bool.toNat_false, Bool.not_false, Bool.toNat_true]
          omega
      | false =>
          have hdata : c.outData ≠ [] := fun hdata =>
            hsize ((outSegment_seqSize_eq_zero c).mpr ⟨hdata, hfin⟩)
          have hpos := List.length_pos_of_ne_nil hdata
          rw [outData, List.length_take] at hpos
          rw [Bool.or_false]
          omega
    omega

end Send

section Step

variable [UserTime Time]

/-- The acknowledgement bookkeeping leaves what is to be said alone, unless it
ends the connection. -/
theorem alike_of_taken (hs : c.Peered) (h₁ : (c.windowed seg).Takes seg c₁)
    (h₂ : c₁.onFinAcked seg.ackn = .ok c₂) : c₂.connectionState.idle = true ∨
      c₂.connectionState.synced = true ∧ SaysAlike c c₂ ∧ c₂.tx.tx.bytes = c.tx.tx.bytes ∧
        c₂.connectionState.wroteFin = c.connectionState.wroteFin := by
  have hs₀ : (c.windowed seg).Peered := hs
  obtain ⟨hstate, hrx, hqueue, hnext, -⟩ := h₁.acknowledged.frame
  have hlast : c₁.tx.lastSent = c.tx.lastSent := by
    cases h₁.acknowledged with
    | repeated => rw [opened_tx]; rfl
    | new _ hnew => rw [hnew.tx, opened_tx]; rfl
  have hsync : c₁.connectionState.synced = true := by
    rw [hstate]
    exact opened_synced hs₀
  rcases onFinAcked_peered (.inl hsync) h₂ with ⟨-, -, hrx₂⟩ | ⟨-, rfl⟩
  · rcases onFinAcked_tx hsync h₂ with ⟨htx, -, hsync₂, hwrote, -⟩ | ⟨c₀, rfl, -⟩
    · refine .inr ⟨hsync₂, ⟨?_, ?_, ?_, ?_⟩, ?_, ?_⟩
      · rw [htx, hlast]
      · rw [htx, hnext]; rfl
      · rw [hrx₂, hrx]; rfl
      · rw [hrx₂, hrx]; rfl
      · rw [htx, hqueue]; rfl
      · rw [hwrote, hstate, (opened_txState (c.windowed seg)).1]; rfl
    · exact .inl rfl
  · exact .inl rfl

theorem backlog_of_taken (hs : c.Peered) (h₁ : (c.windowed seg).Takes seg c₁)
    (h₂ : c₁.onFinAcked seg.ackn = .ok c₂) : c₂.backlog ≤ c.backlog := by
  rcases alike_of_taken hs h₁ h₂ with hidle | ⟨-, halike, hbytes, hwrote⟩
  · rw [backlog_of_idle hidle]
    exact Nat.zero_le _
  · exact halike.backlog_le hs.not_idle hbytes hwrote

omit [UserTime Time] in
/-- Storing nothing changes nothing that `send_ack` says. -/
theorem write_bare {rx rx' : RxBuffer} (h : rx.write seg = .ok rx')
    (hbare : seg.data = [] ∧ seg.hasSyn = false ∧ seg.hasFin = false) :
    rx'.ackd = rx.ackd ∧ rx'.currWindow = rx.currWindow := by
  obtain ⟨hdata, hsyn, hfin⟩ := hbare
  obtain ⟨hbytes, hmark, hackd, -, hwindow, -⟩ := RxBuffer.write_spec h
  rw [hdata, List.append_nil] at hbytes
  rw [hfin, Bool.or_false] at hmark
  constructor
  · rw [hackd, SegmentMeta.seqSize_of_empty hsyn hfin hdata, BitVec.add_zero]
  · simp only [RxBuffer.currWindow, RxBuffer.availableBytes_eq, hbytes, hmark, hwindow]

omit [UserTime Time] in
/-- A segment inside the window is not behind it. -/
theorem not_lt_of_check (hwf : WellFormed c) (hcheck : c.checkSegmentSeqOk seg = true)
    (hne : seg.seqn ≠ c.rx.ackd) : seg.seqn.lt c.rx.ackd = false := by
  have hwindow : c.rx.window = initialWindowSize := hwf.rxWindow
  unfold checkSegmentSeqOk at hcheck
  split at hcheck
  · rw [Bool.and_eq_true, decide_eq_true_iff, decide_eq_true_iff] at hcheck
    exact absurd hcheck.2 hne
  · rw [Bool.and_eq_true, RxBuffer.inWindow_iff (by rw [hwindow]; decide), hwindow] at hcheck
    have hfull : initialWindowSize.toNat = 4096 := rfl
    have hpos : Circular.span c.rx.ackd c.rx.ackd < Circular.span c.rx.ackd seg.seqn := by
      rw [Circular.span_self, Nat.pos_iff_ne_zero]
      exact fun hzero => hne (Circular.span_eq_zero_iff.mp hzero)
    rw [Bool.eq_false_iff, Ne, SeqN.lt_iff, Circular.span_back hpos, Circular.span_self]
    omega

/-- Storing a segment and answering it leaves less to be set off. -/
theorem lightens_stored {rx : RxBuffer} (hs : c.Peered) (h₁ : (c.windowed seg).Takes seg c₁)
    (h₂ : c₁.onFinAcked seg.ackn = .ok c₂) (hrst : seg.hasRst = false)
    (hsent : c₂.userData.sent = c.userData.sent) (hrx : c₂.rx.write seg = .ok rx)
    (h₃ : { c₂ with rx := rx }.sendAck = .ok c') :
    c'.Peered ∧ Lightens c seg.weight c' := by
  rcases alike_of_taken hs h₁ h₂ with hidle | ⟨hsync, halike, hbytes, hwrote⟩
  · rcases onFinAcked_peered (h₁.peered (c := c.windowed seg) hs).1 h₂ with ⟨-, hs₂, -⟩ | ⟨-, rfl⟩
    · exact absurd (hs₂.not_idle.symm.trans hidle) Bool.false_ne_true
    · exact absurd h₃ (sendAck_closed rfl)
  have hlight : Lightens { c₂ with rx := rx } 3 c' := sendAck_lightens hsync h₃
  refine ⟨.inl ((sendAck_spec h₃).txState hsync).1, hlight.of_silent hsent ?_⟩
  rcases SegmentMeta.bare_or_heavy hrst with hbare | hheavy
  · obtain ⟨hackd, hwindow⟩ := write_bare hrx hbare
    have hsame : SaysAlike c { c₂ with rx := rx } :=
      ⟨halike.lastSent, halike.next, hackd.trans halike.ackd, hwindow.trans halike.currWindow⟩
    have hle := hsame.backlog_le hs.not_idle hbytes hwrote
    have hweight := SegmentMeta.weight_of_not_rst hrst
    omega
  · have hle : Connection.backlog { c₂ with rx := rx } ≤ c.backlog + 1 :=
      backlog_le hs.not_idle hbytes hwrote
    omega

/-- An acceptable segment leaves less to be set off. -/
theorem lightens_onAccepted (hwf : WellFormed c) (hs : c.Peered)
    (hcheck : c.checkSegmentSeqOk seg = true) (hrst : seg.hasRst = false)
    (hc : (c.windowed seg).onAccepted seg = .ok c') : Lightens c seg.weight c' := by
  have hs₀ : (c.windowed seg).Peered := hs
  have hpos := SegmentMeta.weight_of_not_rst hrst
  have hwindowed : (c.windowed seg).backlog = c.backlog := rfl
  cases acceptedStep_of_ok hc with
  | unacknowledged _ hfin =>
      split at hfin
      · obtain ⟨htx, hsent, hrx, -, hwrote, -⟩ := onFin_tx hs₀ hfin
        refine .silent hsent ?_
        have hle := (SaysAlike.of_eq htx hrx).backlog_le hs₀.not_idle (by rw [htx]) hwrote
        omega
      · obtain rfl := Except.ok.inj hfin
        exact .silent rfl (by omega)
  | invalid => exact .silent rfl (by omega)
  | @discarded c₁ c₂ _ _ h₁ h₂ hseq =>
      have hsent : c₂.userData.sent = c.userData.sent :=
        sent_of_taken (c := c.windowed seg) hs₀ h₁ h₂
      have hle := backlog_of_taken hs h₁ h₂
      split
      · rename_i hlt
        refine .said ((send_sent c₂ _).trans (congrArg (· ++ _) hsent)) ?_
        have hanswer : (c₂.bareSegment c₂.rx.ackd .ack).weight = 3 := answer_weight c₂
        have hsame : (c₂.send (c₂.bareSegment c₂.rx.ackd .ack)).backlog = c₂.backlog := rfl
        rcases alike_of_taken hs h₁ h₂ with hidle | ⟨-, halike, -⟩
        · have hlive := backlog_of_live hs.not_idle
          rw [hanswer, hsame, backlog_of_idle hidle]
          omega
        · rw [halike.ackd] at hseq hlt
          exact absurd ((not_lt_of_check hwf hcheck hseq).symm.trans hlt) Bool.false_ne_true
      · exact .silent hsent (by omega)
  | @stored c₁ c₂ c₃ _ rx _ _ h₁ h₂ _ hrx h₃ hfin =>
      have hsent : c₂.userData.sent = c.userData.sent :=
        sent_of_taken (c := c.windowed seg) hs₀ h₁ h₂
      obtain ⟨hs₃, hlight⟩ := lightens_stored hs h₁ h₂ hrst hsent hrx h₃
      split at hfin
      · obtain ⟨htx, hsent, hrx₃, -, hwrote, -⟩ := onFin_tx hs₃ hfin
        refine hlight.congr hsent ?_
        exact (SaysAlike.of_eq htx hrx₃).backlog_le hs₃.not_idle (by rw [htx]) hwrote
      · obtain rfl := Except.ok.inj hfin
        exact hlight

omit [UserTime Time] in
/-- A RST without an acknowledgement weighs the least. -/
theorem weight_of_bareRst {s : SegmentMeta} (hflags : s.flags = .rst) : s.weight = 1 := by
  simp [SegmentMeta.weight, SegmentMeta.hasRst, SegmentMeta.hasAck, hflags]

omit [UserTime Time] in
/-- A closed connection answers with less than it got. -/
theorem responseToClosed_weight {resp : SegmentMeta}
    (hresp : responseToClosed seg = .ok (some resp)) : resp.weight < seg.weight := by
  unfold responseToClosed at hresp
  split at hresp
  · cases hresp
  rename_i hrst
  have hweight : 2 < seg.weight := SegmentMeta.weight_of_not_rst (by simpa using hrst)
  have hle (hrst : resp.hasRst = true) : resp.weight ≤ 2 := by
    simp only [SegmentMeta.weight, hrst, if_true]
    split <;> decide
  split at hresp
  · split at hresp
    · obtain rfl := Option.some.inj (Except.ok.inj hresp)
      exact Nat.lt_of_le_of_lt (hle SegmentFlags.contains_rstAck.1) hweight
    · cases hresp
  · obtain rfl := Option.some.inj (Except.ok.inj hresp)
    exact Nat.lt_of_le_of_lt (hle SegmentFlags.contains_rst.1) hweight

omit [UserTime Time] in
/-- A segment that begins the handshake at a listening connection weighs more
than what the handshake sets off. -/
theorem lightens_answered (hwf : WellFormed c) (hst : c.connectionState = .listen)
    (hrst : seg.hasRst = false) (hack : seg.hasAck = false) (ha : SynAnswered c seg c') :
    Lightens c seg.weight c' := by
  have hidle : c.connectionState.idle = true := by rw [hst]; rfl
  have hbytes : c'.tx.tx.bytes = [] := by
    rw [ha.tx, TxBuffer.onSend_tx]
    change c.tx.tx.bytes = []
    rw [(hwf.idle hidle).1]
    exact BlobQueue.bytes_new
  have hreply : (c.synReply seg).weight ≤ 4 := by
    have hrst' : (c.synReply seg).hasRst = false := SegmentFlags.contains_synAck.2.2.2
    have hack' : (c.synReply seg).hasAck = true := SegmentFlags.contains_synAck.2.1
    simp only [SegmentMeta.weight, hrst', hack', Bool.false_eq_true, if_false, if_true]
    split <;> decide
  have hstale := Bool.toNat_le c'.stale
  have hlive := backlog_of_live (c := c') (by rw [ha.state]; rfl)
  refine .said ha.sent ?_
  rw [SegmentMeta.weight_of_no_ack hrst hack, hlive, hbytes, ha.state]
  change (c.synReply seg).weight + (4 * (0 + 1) + c'.stale.toNat + 1) < _
  omega

/-- What an incoming segment sets off weighs less than the segment, unless it
is answered as unacceptable. -/
theorem lightens_onSegment (hwf : WellFormed c) (hc : c.onSegment seg = .ok c') :
    c.Rejects seg ∧ c' = c.send c.answer ∨ Lightens c seg.weight c' := by
  have hpos : 0 < seg.weight := SegmentMeta.weight_pos
  have kept : Lightens c seg.weight c := .silent rfl (by omega)
  unfold Connection.onSegment at hc
  split at hc
  case h_1 | h_2 =>
    right
    simp only [Fallible.bind_ok_iff] at hc
    obtain ⟨resp, hresp, hc⟩ := hc
    cases resp with
    | none =>
        obtain rfl := Fallible.pure_ok_iff.mp hc
        exact kept
    | some resp =>
        obtain rfl := Fallible.pure_ok_iff.mp hc
        have hless := responseToClosed_weight hresp
        have hsame : (c.send resp).backlog = c.backlog := rfl
        exact .said (send_sent c resp) (by omega)
  case h_3 hst =>
    right
    cases listened_of_ok hc with
    | ignored => exact kept
    | refused _ hack =>
        have hless := SegmentMeta.weight_of_ack hack
        have hone : (ListenSocket.refusal seg).weight = 1 := weight_of_bareRst rfl
        have hsame : (c.send (ListenSocket.refusal seg)).backlog = c.backlog := rfl
        exact .said (send_sent c _) (by omega)
    | answered hrst hack _ _ ha => exact lightens_answered hwf hst hrst hack ha
  case h_4 hst =>
    right
    have hidle : c.connectionState.idle = false := by rw [hst]; rfl
    cases synSentStep_of_ok hc with
    | ignored => exact kept
    | refused hack =>
        have hless := SegmentMeta.weight_of_ack hack
        refine .said (send_sent c _) ?_
        rw [weight_of_bareRst rfl]
        exact Nat.add_lt_add_right hless _
    | reset =>
        refine .silent (clear_sent c) ?_
        rw [backlog_of_idle rfl]
        omega
    | waiting _ hrst =>
        have hweight := SegmentMeta.weight_of_not_rst hrst
        have hle : (c.synAcked seg).backlog ≤ c.backlog + 1 := backlog_le hidle rfl rfl
        exact .silent (synAcked_sent c seg) (by omega)
    | opened _ hrst _ hsyn _ hsend =>
        have hlight : Lightens ((c.synAcked seg).entered .fullyOpen) 3 c' :=
          sendAck_lightens (by rw [entered_connectionState]; rfl) hsend
        refine hlight.of_silent (by rw [entered_sent, synAcked_sent]) ?_
        have hle : ((c.synAcked seg).entered .fullyOpen).backlog ≤ c.backlog + 1 :=
          backlog_le hidle (by rw [entered_tx]; rfl) (by rw [entered_connectionState, hst]; rfl)
        rcases SegmentMeta.bare_or_heavy hrst with ⟨-, hno, -⟩ | hheavy
        · exact absurd (hno.symm.trans hsyn) Bool.false_ne_true
        · omega
  case h_5 hst | h_6 hst | h_7 hst =>
    have hs : c.Peered := by simp [Peered, hst, ConnectionState.synced]
    have hlive := backlog_of_live hs.not_idle
    cases synchronizedStep_iff.mp hc with
    | dropped => exact .inr kept
    | rejected hcheck hrst => exact .inl ⟨⟨hs, hrst, hcheck⟩, rfl⟩
    | reset _ _ hreset =>
        have hwiped := onRst_spec hreset
        refine .inr (.silent (hwiped.sent.trans (List.append_nil _)) ?_)
        rw [backlog_of_idle hwiped.idle]
        omega
    | syn _ hrst _ hsyn =>
        have hwiped := onSyn_spec hsyn
        have hweight := SegmentMeta.weight_of_not_rst hrst
        refine .inr (.said hwiped.sent ?_)
        rw [weight_of_bareRst rfl, backlog_of_idle hwiped.idle]
        omega
    | accepted hcheck hrst _ hacc => exact .inr (lightens_onAccepted hwf hs hcheck hrst hacc)

end Step

end Connection

end TcpState
