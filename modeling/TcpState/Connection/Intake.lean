import TcpState.Connection.AcceptedStep
import TcpState.Connection.Receive
import TcpState.Foundation.Tiling

/-!
# The received stream along a run

A run is followed together with the segments handed to the receive buffer and
the bytes handed to the application since the receive side was initialised. A
clear ends the record.
-/

namespace TcpState

open Circular (Tiles)

/-- The segments passed to `rx.write` and the bytes returned by `call_recv`. -/
structure Record where
  accepted : List SegmentMeta
  read : List UInt8

/-- A connection with the record since `rx.init`, if there is one. -/
structure Recorded (Addr Time : Type) where
  conn : Connection Addr Time
  record : Option Record

namespace Output

theorem data_eq_nil {out : Output} (h : ∀ data, out ≠ .recv (.ok data)) : out.data = [] := by
  unfold data
  split
  · exact absurd rfl (h _)
  · rfl

end Output

namespace Record

/-- The data of the accepted segments, in order of acceptance. -/
def data (r : Record) : List UInt8 := (r.accepted.map SegmentMeta.data).flatten

/-- A FIN has been stored. -/
def ended (r : Record) : Bool := r.accepted.any SegmentMeta.hasFin

/-- The bytes read and the bytes kept are the accepted data, each accepted
segment starts at the end of the one before it, and `ackd` counts them. -/
structure InOrder (r : Record) (rx : RxBuffer) : Prop where
  bytes : r.read ++ rx.bytes = r.data
  contiguous : Tiles SegmentMeta.seqn SegmentMeta.seqSize (rx.initSeqn + 1#32) r.accepted rx.ackd
  ackd : rx.ackd = rx.initSeqn + 1#32 + BitVec.ofNat 32 (r.data.length + r.ended.toNat)
  ended : r.ended = rx.buffer.fin

variable {r : Record} {rx rx' : RxBuffer} {seg : SegmentMeta}

/-- Nothing has been accepted right after the initialisation. -/
theorem inOrder_init (hbytes : rx.bytes = []) (hfin : rx.buffer.fin = false) (isn : SeqN) :
    InOrder ⟨[], []⟩ (rx.init isn) where
  bytes := hbytes
  contiguous := rfl
  ackd := (BitVec.add_zero _).symm
  ended := hfin.symm

/-- A store continues the record with its segment. -/
theorem InOrder.write (h : r.InOrder rx) (hseqn : seg.seqn = rx.ackd) (hsyn : seg.hasSyn = false)
    (hrx : rx.write seg = .ok rx') : InOrder ⟨r.accepted ++ [seg], r.read⟩ rx' := by
  obtain ⟨hbytes, hfin, hackd, -, -, hinit⟩ := RxBuffer.write_spec hrx
  have hdata : Record.data ⟨r.accepted ++ [seg], r.read⟩ = r.data ++ seg.data := by
    simp [Record.data]
  have hended : Record.ended ⟨r.accepted ++ [seg], r.read⟩ = (r.ended || seg.hasFin) := by
    simp [Record.ended]
  have hsize : seg.seqSize = BitVec.ofNat 32 (seg.data.length + seg.hasFin.toNat) := by
    rw [SegmentMeta.seqSize_eq, hsyn]
    rfl
  constructor
  · rw [hdata, hbytes, ← h.bytes, List.append_assoc]
  · rw [hinit, hackd]
    exact h.contiguous.append hseqn
  · rw [hackd, h.ackd, hinit, hdata, hended, hsize, Circular.add_ofNat_add, List.length_append]
    cases hseg : seg.hasFin with
    | false =>
        rw [Bool.or_false, Bool.toNat_false, Nat.add_zero, Nat.add_right_comm]
    | true =>
        -- A stored FIN is the first one.
        have hfirst := ((RxBuffer.write_succeeds_iff.mp ⟨rx', hrx⟩).1 hseg).1
        rw [h.ended, hfirst, Bool.or_true, Bool.toNat_false, Bool.toNat_true, Nat.add_zero,
          Nat.add_assoc]
  · rw [hended, hfin, h.ended]

/-- A read moves bytes from the buffer to the application. -/
theorem InOrder.read {limit : Nat} {data : List UInt8} (h : r.InOrder rx)
    (hread : rx.readBytes limit = .ok (rx', data)) :
    InOrder ⟨r.accepted, r.read ++ data⟩ rx' := by
  obtain ⟨hdata, hbytes, hfin, hackd, -, hinit, -⟩ := RxBuffer.readBytes_spec hread
  constructor
  · rw [hdata, hbytes, List.append_assoc, List.take_append_drop]
    exact h.bytes
  · rw [hinit, hackd]
    exact h.contiguous
  · rw [hinit, hackd]
    exact h.ackd
  · rw [hfin]
    exact h.ended

end Record

namespace Connection

variable {Addr Time : Type}

/-- The receive side is initialised: by a SYN in Listen, or by a SYN-ACK in
SynSent whose acknowledgement is in range. -/
def Inits (c : Connection Addr Time) : Op Time → Prop
  | .onSegment seg =>
      seg.hasRst = false ∧ seg.hasSyn = true ∧
        (c.connectionState = .listen ∧ seg.hasAck = false ∨
          c.connectionState = .synSent ∧ seg.hasAck = true ∧
            seg.ackn.inRangeInclusive c.tx.unack c.tx.next = true)
  | _ => False

instance (c : Connection Addr Time) : DecidablePred c.Inits
  | .onSegment _ => inferInstanceAs (Decidable (_ ∧ _))
  | .callConnect | .callSend _ | .callRecv _ | .callShutdown | .callClose | .callAbort
  | .setOptions _ | .onTimeTick _ => .isFalse id

/-- The segment an operation passes to `rx.write`. -/
def stores (c : Connection Addr Time) : Op Time → List SegmentMeta
  | .onSegment seg => if c.Peered ∧ c.Stores seg then [seg] else []
  | _ => []

/-- The receive buffer as a clear finds it: a read that ends the connection has
taken its bytes, and no other operation reads. -/
def beforeClear (c : Connection Addr Time) : Op Time → RxBuffer
  | .callRecv bufferLen =>
      match c.rx.readBytes bufferLen with
      | .ok (rx, _) => rx
      | .error _ => c.rx
  | _ => c.rx

variable [UserTime Time] {c c' : Connection Addr Time} {seg : SegmentMeta}

/-- A connection with a peer takes the synchronized branch. -/
theorem onSegment_of_peered (hs : c.Peered) : c.onSegment seg = c.onSegmentSynchronized seg := by
  unfold onSegment
  split
  case h_1 hst | h_2 hst | h_3 hst | h_4 hst =>
    rcases hs with hs | hs <;> rw [hst] at hs <;> cases hs
  all_goals rfl

/-- A segment that is next in order is written, unless the connection is
cleared. -/
theorem onSegment_stores (hs : c.Peered) (hst : c.Stores seg) (hc : c.onSegment seg = .ok c') :
    c'.connectionState.idle = true ∨ c'.Peered ∧ c.rx.write seg = .ok c'.rx := by
  rw [onSegment_of_peered hs] at hc
  cases synchronizedStep_iff.mp hc with
  | dropped hcheck => exact absurd (hcheck.symm.trans hst.check) Bool.false_ne_true
  | rejected hcheck => exact absurd (hcheck.symm.trans hst.check) Bool.false_ne_true
  | reset _ hrst => exact absurd (hst.noRst.symm.trans hrst) Bool.false_ne_true
  | syn _ _ hsyn => exact absurd (hst.noSyn.symm.trans hsyn) Bool.false_ne_true
  | accepted _ _ _ hacc =>
      have hs' : (c.windowed seg).Peered := hs
      cases acceptedStep_of_ok hacc with
      | unacknowledged hack => exact absurd (hack.symm.trans hst.ack) Bool.false_ne_true
      | invalid _ hrange => exact absurd (hrange.symm.trans hst.range) Bool.false_ne_true
      | discarded _ _ h₁ h₂ hseq =>
          obtain ⟨hs₁, -, hrx₁⟩ := h₁.peered hs'
          rcases onFinAcked_peered hs₁ h₂ with ⟨-, -, hrx₂⟩ | ⟨-, rfl⟩
          · refine absurd ?_ hseq
            rw [hrx₂, hrx₁]
            exact hst.inOrder
          · left
            split <;> rfl
      | @stored c₁ c₂ c₃ _ rx _ _ h₁ h₂ _ hrx h₃ hfin =>
          obtain ⟨hs₁, -, hrx₁⟩ := h₁.peered hs'
          rcases onFinAcked_peered hs₁ h₂ with ⟨-, hs₂, hrx₂⟩ | ⟨-, rfl⟩
          · right
            have a := sendAck_spec h₃
            have hs₃ := (AckSent.rxState a hs₂).1
            rw [hrx₂, hrx₁] at hrx
            have hwritten : c.rx.write seg = .ok c₃.rx := by
              rw [a.rx]
              exact hrx
            split at hfin
            · obtain ⟨hs', hrx', -⟩ := onFin_rx hs₃ hfin
              exact ⟨hs', hrx' ▸ hwritten⟩
            · obtain rfl := Except.ok.inj hfin
              exact ⟨hs₃, hwritten⟩
          · exact absurd h₃ (sendAck_closed rfl)

/-- A segment that opens the receive side initialises it. -/
theorem onSegment_inits (h : c.Inits (.onSegment seg)) (hc : c.onSegment seg = .ok c') :
    c'.rx = c.rx.init seg.seqn ∧ c'.connectionState.idle = false := by
  obtain ⟨hrst, hsyn, hst⟩ := h
  unfold onSegment at hc
  rcases hst with ⟨hst, hack⟩ | ⟨hst, hack, hrange⟩
  · rw [hst] at hc
    cases listened_of_ok hc with
    | ignored h =>
        rw [hrst, hack, hsyn] at h
        simp at h
    | refused _ h => exact absurd (hack.symm.trans h) Bool.false_ne_true
    | answered _ _ _ _ ha => exact ⟨ha.rx, by rw [ha.state]; rfl⟩
  · rw [hst] at hc
    have hflags : seg.flags.contains (.syn ||| .ack) = true := by
      rw [SegmentFlags.contains_union, Bool.and_eq_true]
      exact ⟨hsyn, hack⟩
    simp only [onSegmentSynSent, hrange, hflags, Bool.not_true, Bool.and_false,
      Bool.eq_false_iff.mp hrst, Bool.false_eq_true, if_false, if_true] at hc
    split at hc
    · simp only [Fallible.bind_ok_iff, setState_ok_iff] at hc
      obtain ⟨c₁, ⟨-, -, rfl⟩, hsend⟩ := hc
      have a := sendAck_spec hsend
      refine ⟨by rw [a.rx, stateSet_fullyOpen, entered_rx]; rfl, ?_⟩
      have hopen : ((c.synAcked seg).stateSet .fullyOpen).connectionState.isEstablished = true := by
        rw [stateSet_fullyOpen, entered_connectionState]
        rfl
      have hest := sendAck_isEstablished hopen hsend
      obtain ⟨_, _, _, _, hst'⟩ := ConnectionState.isEstablished_iff.mp hest
      rw [hst']
      rfl
    · obtain rfl := Fallible.pure_ok_iff.mp hc
      exact ⟨rfl, by change c.connectionState.idle = false; rw [hst]; rfl⟩

end Connection

namespace Recorded

open Connection

variable {Addr Time : Type}

/-- The record starts with the initialisation of the receive side and ends with
a clear. -/
def after (s : Recorded Addr Time) (op : Op Time) (out : Output) (c' : Connection Addr Time) :
    Recorded Addr Time where
  conn := c'
  record :=
    if s.conn.Inits op then some ⟨[], []⟩
    else if c'.connectionState.idle = true then none
    else s.record.map fun r => ⟨r.accepted ++ s.conn.stores op, r.read ++ out.data⟩

/-- A connection before its first step. -/
def start (c : Connection Addr Time) : Recorded Addr Time := ⟨c, none⟩

variable [UserTime Time]

/-- The runs of one connection with their record. -/
def system (Addr Time : Type) [UserTime Time] :
    Transition.System (Recorded Addr Time) (Op Time) where
  init s := Initial s.conn ∧ s.record = none
  step s op s' := ∃ c' out, s.conn.step op = .ok (c', out) ∧ s' = s.after op out c'

abbrev Reachable (s : Recorded Addr Time) : Prop :=
  Transition.Reachable (system Addr Time) s

/-- The record is only watched: the connection takes the same run. -/
theorem Reachable.conn {s : Recorded Addr Time} (h : Reachable s) :
    Connection.Reachable s.conn := by
  induction h with
  | start h => exact .start h.1
  | next _ _ hs ih =>
      obtain ⟨c', out, hc, rfl⟩ := hs
      exact ih.next hc

/-- The recorded step as a partial function. -/
def next (s : Recorded Addr Time) (op : Op Time) : Option (Recorded Addr Time) :=
  match s.conn.step op with
  | .ok (c', out) => some (s.after op out c')
  | .error _ => none

theorem step_of_next (s : Recorded Addr Time) (op : Op Time) (s' : Recorded Addr Time)
    (h : s.next op = some s') : (system Addr Time).step s op s' := by
  unfold next at h
  split at h
  · rename_i c' out hc
    exact ⟨c', out, hc, (Option.some.inj h).symm⟩
  · cases h

theorem init_start {c : Connection Addr Time} (h : Initial c) :
    (system Addr Time).init (start c) :=
  ⟨h, rfl⟩

/-- There is a record while the connection has a peer, and it is in order. -/
structure Holds (s : Recorded Addr Time) : Prop where
  peered : s.conn.Peered → s.record.isSome = true
  idle : s.conn.connectionState.idle = true → s.record = none
  inOrder : ∀ r ∈ s.record, r.InOrder s.conn.rx

variable {s : Recorded Addr Time} {op : Op Time} {out : Output} {c' : Connection Addr Time}

omit [UserTime Time] in
/-- An operation that ends in a state without a connection ends the record. -/
theorem Holds.of_idle (hinits : ¬ s.conn.Inits op) (hidle : c'.connectionState.idle = true) :
    Holds (s.after op out c') := by
  have hnone : (s.after op out c').record = none := by
    rw [after, if_neg hinits, if_pos hidle]
  refine ⟨fun hs => ?_, fun _ => hnone, fun r hr => ?_⟩
  · exact absurd (Peered.not_idle hs) (by change ¬ c'.connectionState.idle = false; simp [hidle])
  · rw [hnone] at hr
    cases hr

omit [UserTime Time] in
/-- An operation that goes on with the record keeps it in order if every
record stays in order. -/
theorem Holds.continue (h : Holds s) (hinits : ¬ s.conn.Inits op)
    (hidle : c'.connectionState.idle = false) (hpeer : c'.Peered → s.conn.Peered)
    (hrecord : ∀ r : Record, r.InOrder s.conn.rx →
      Record.InOrder ⟨r.accepted ++ s.conn.stores op, r.read ++ out.data⟩ c'.rx) :
    Holds (s.after op out c') := by
  have hrec : (s.after op out c').record =
      s.record.map fun r => ⟨r.accepted ++ s.conn.stores op, r.read ++ out.data⟩ := by
    rw [after, if_neg hinits, if_neg (by simp [hidle])]
  constructor
  · intro hs
    rw [hrec, Option.isSome_map]
    exact h.peered (hpeer hs)
  · intro hi
    exact absurd (hi.symm.trans hidle) (by decide)
  · intro r hr
    rw [hrec] at hr
    obtain ⟨r₀, hr₀, rfl⟩ := Option.mem_map.mp hr
    exact hrecord r₀ (h.inOrder r₀ hr₀)

/-- One operation. -/
theorem Holds.step (h : Holds s) (hwf : WellFormed s.conn)
    (hc : s.conn.step op = .ok (c', out)) : Holds (s.after op out c') := by
  by_cases hinits : s.conn.Inits op
  · -- The receive side is initialised and nothing else happens to it.
    cases op with
    | onSegment seg =>
        obtain ⟨hseg, rfl⟩ := step_onSegment.mp hc
        obtain ⟨hrx, hidle⟩ := onSegment_inits hinits hseg
        have hsync : s.conn.connectionState.synced = false := by
          rcases hinits.2.2 with ⟨hst, -⟩ | ⟨hst, -⟩ <;> rw [hst] <;> rfl
        obtain ⟨-, hbytes, hfin⟩ := hwf.early hsync
        have hrec : (s.after (.onSegment seg) .none c').record = some ⟨[], []⟩ := if_pos hinits
        refine ⟨fun _ => by rw [hrec]; rfl, fun hi => absurd (hi.symm.trans hidle) (by decide), ?_⟩
        intro r hr
        rw [hrec] at hr
        obtain rfl := Option.some.inj hr
        change Record.InOrder _ c'.rx
        rw [hrx]
        exact Record.inOrder_init hbytes hfin seg.seqn
    | _ => exact absurd hinits id
  cases hidle : c'.connectionState.idle with
  | true => exact .of_idle hinits hidle
  | false =>
      by_cases hstores : ∃ seg, op = .onSegment seg ∧ s.conn.Peered ∧ s.conn.Stores seg
      · obtain ⟨seg, rfl, hs, hst⟩ := hstores
        obtain ⟨hseg, rfl⟩ := step_onSegment.mp hc
        rcases onSegment_stores hs hst hseg with hi | ⟨-, hwrite⟩
        · exact absurd (hi.symm.trans hidle) (by decide)
        · refine h.continue hinits hidle (fun _ => hs) fun r hr => ?_
          have hone : s.conn.stores (.onSegment seg) = [seg] := if_pos ⟨hs, hst⟩
          rw [hone, show Output.none.data = [] from rfl, List.append_nil]
          exact hr.write hst.inOrder hst.noSyn hwrite
      · have hnone : s.conn.stores op = [] := by
          cases op with
          | onSegment seg => exact if_neg fun hst => hstores ⟨seg, rfl, hst⟩
          | _ => rfl
        have keep (hrx : c'.rx = s.conn.rx) (hout : out.data = []) (r : Record)
            (hr : r.InOrder s.conn.rx) :
            Record.InOrder ⟨r.accepted ++ s.conn.stores op, r.read ++ out.data⟩ c'.rx := by
          rw [hrx, hout, hnone, List.append_nil, List.append_nil]
          exact hr
        cases hwf.rxEffect hc with
        | kept hout hrx hstate =>
            refine h.continue hinits hidle (fun hs => ?_) (keep hrx (Output.data_eq_nil hout))
            rcases hstate with heq | ⟨hs, -⟩
            · unfold Peered at hs ⊢
              rwa [← heq]
            · exact hs
        | cleared _ hi => exact absurd (hi.symm.trans hidle) (by decide)
        | connecting hout _ hstate hrx =>
            refine h.continue hinits hidle (fun hs => ?_) (keep hrx (Output.data_eq_nil hout))
            rcases hs with hs | hs <;> rw [hstate] at hs <;> cases hs
        | answered hst hrst hsyn hstate =>
            obtain ⟨hseg, -⟩ := step_onSegment.mp hc
            rw [onSegment, hst] at hseg
            cases listened_of_ok hseg with
            | answered _ hack => exact absurd ⟨hrst, hsyn, .inl ⟨hst, hack⟩⟩ hinits
            | ignored => rw [hst] at hstate; cases hstate
            | refused => rw [send_connectionState, hst] at hstate; cases hstate
        | synAcked hst hrst hack hsyn hrange =>
            exact absurd ⟨hrst, hsyn, .inr ⟨hst, hack, hrange⟩⟩ hinits
        | stored hs hst => exact absurd ⟨_, rfl, hs, hst⟩ hstores
        | finOnly hs _ _ _ _ _ _ _ hrx => exact h.continue hinits hidle (fun _ => hs) (keep hrx rfl)
        | @waiting _ r _ _ hr =>
            refine h.continue hinits hidle (fun hs => hs) (keep rfl ?_)
            exact Output.data_eq_nil fun data heq => hr data (by cases heq; rfl)
        | ended => exact h.continue hinits hidle (fun hs => hs) (keep rfl rfl)
        | read hst hread _ _ hrx =>
            refine h.continue hinits hidle (fun _ => .inl ?_) fun r hr => ?_
            · exact ConnectionState.synced_of_isEstablished hst
            · rw [hnone, List.append_nil, hrx]
              exact hr.read hread
        | drained hst _ hread _ hstate =>
            refine h.continue hinits hidle (fun _ => .inl ?_) fun r hr => ?_
            · exact ConnectionState.synced_of_isEstablished hst
            · rcases hstate with ⟨-, -, hrx⟩ | ⟨hi, -⟩
              · rw [hnone, List.append_nil, hrx]
                exact hr.read hread
              · exact absurd (hi.symm.trans hidle) (by decide)

theorem Reachable.holds (h : Reachable s) : Holds s := by
  induction h with
  | start h =>
      have hidle := h.1.fresh.2.2
      refine ⟨fun hs => absurd (hidle.symm.trans hs.not_idle) (by decide), fun _ => h.2, ?_⟩
      rw [h.2]
      exact fun r hr => by cases hr
  | next run _ hs ih =>
      obtain ⟨c', out, hc, rfl⟩ := hs
      exact ih.step (Connection.Reachable.wellFormed (Reachable.conn run)) hc

/-- A clear ends the record with the bytes of its own operation, which are all
that is left if that is a read. -/
theorem Holds.ended (h : Holds s) (hc : s.conn.step op = .ok (c', out))
    (hidle : c'.connectionState.idle = true) {r : Record} (hr : r ∈ s.record) :
    Record.InOrder ⟨r.accepted, r.read ++ out.data⟩ (s.conn.beforeClear op) ∧
      ∀ bufferLen, op = .callRecv bufferLen → r.read ++ out.data = r.data := by
  have hlive (hwas : s.conn.connectionState.idle = true) : False := by
    rw [h.idle hwas] at hr
    cases hr
  have hin := h.inOrder r hr
  have silent (hdata : out.data = []) :
      Record.InOrder ⟨r.accepted, r.read ++ out.data⟩ s.conn.rx := by
    rw [hdata, List.append_nil]
    exact hin
  cases opStep_of_ok hc with
  | @callRecv bufferLen _ _ hc =>
      cases recvStep_of_ok hc with
      | refused | ended | early | waiting | read | full => exact (hlive hidle).elim
      | @drained _ _ _ rx data _ hread hlen =>
          have hbefore : s.conn.beforeClear (.callRecv bufferLen) = rx := by
            rw [beforeClear, hread]
          have hread' := hin.read hread
          rw [hbefore]
          refine ⟨hread', fun _ _ => ?_⟩
          obtain ⟨hdata, hbytes, -⟩ := RxBuffer.readBytes_spec hread
          have hempty : rx.bytes = [] := by
            rw [hdata, List.length_take] at hlen
            rw [hbytes, List.drop_eq_nil_iff]
            omega
          have hall := hread'.bytes
          rwa [hempty, List.append_nil] at hall
  | callConnect | callSend | callShutdown | callClose | callAbort | setOptions | onSegment
  | onTimeTick => exact ⟨silent rfl, fun _ heq => by cases heq⟩

/-- Against any peer, while a connection has one: what was read and what is
still kept are the data of the accepted segments in order, each of which starts
at the end of the one before it, and `ackd` counts the initial number, every
accepted byte and a stored FIN. So it is when an operation clears the
connection, with the bytes that the operation returns. -/
theorem delivered_inOrder (h : Reachable s) :
    (s.conn.Peered → s.record.isSome = true) ∧ (∀ r ∈ s.record, r.InOrder s.conn.rx) ∧
      ∀ r ∈ s.record, ∀ op out c', s.conn.step op = .ok (c', out) →
        c'.connectionState.idle = true →
          Record.InOrder ⟨r.accepted, r.read ++ out.data⟩ (s.conn.beforeClear op) ∧
            ∀ bufferLen, op = .callRecv bufferLen → r.read ++ out.data = r.data :=
  ⟨h.holds.peered, h.holds.inOrder, fun _ hr _ _ _ hc hidle => h.holds.ended hc hidle hr⟩

/-- Three bytes stored, one of them read, an overlapping repetition refused and
the FIN stored; the read of the rest ends the passive close. -/
theorem delivered_inOrder_overlap : ∃ (s : Recorded Unit Nat) (r : Record),
    s.conn.Peered ∧ r ∈ s.record ∧ r.read = [1] ∧ r.data = [1, 2, 3] ∧ r.ended = true ∧
      r.InOrder s.conn.rx ∧ ∃ c' out, s.conn.step (.callRecv 4) = .ok (c', out) ∧
        c'.connectionState = .closed ∧ [1] ++ out.data = [1, 2, 3] := by
  obtain ⟨s, hreach, hs, hrec, hlast⟩ : ∃ s : Recorded Unit Nat, Transition.ReachableUnder
      (system Unit Nat) (fun _ _ => True) s ∧ s.conn.Peered ∧
        s.record.any (fun r => r.read = [1] ∧ r.data = [1, 2, 3] ∧ r.ended = true) = true ∧
          ((s.next (.callRecv 4)).any fun s' =>
            decide (s'.conn.connectionState = .closed)) = true :=
    Transition.exists_reachableUnder step_of_next
      (init_start (Connection.initial_listening () .default zeroUser))
      [.onSegment ⟨100#32, 0#32, 1000#16, .syn, []⟩,
       .onSegment ⟨101#32, 1#32, 1000#16, .ack, [1, 2]⟩,
       .onSegment ⟨101#32, 1#32, 1000#16, .ack, [1, 2, 9]⟩, .callRecv 1,
       .onSegment ⟨103#32, 1#32, 1000#16, .ack, [3]⟩,
       .onSegment ⟨104#32, 1#32, 1000#16, .fin ||| .ack, []⟩, .callClose,
       .onSegment ⟨105#32, 2#32, 1000#16, .ack, []⟩] (by decide)
  obtain ⟨r, hr, hfields⟩ := (Option.any_eq_true _ _).mp hrec
  obtain ⟨hread, hdata, hended⟩ := of_decide_eq_true hfields
  obtain ⟨s', hnext, hclosed⟩ := (Option.any_eq_true _ _).mp hlast
  obtain ⟨c', out, hc, rfl⟩ := step_of_next _ _ _ hnext
  have hclosed' : c'.connectionState = .closed := of_decide_eq_true hclosed
  obtain ⟨-, hin, hend⟩ := delivered_inOrder hreach
  have hall := (hend r hr _ _ _ hc (by rw [hclosed']; rfl)).2 4 rfl
  rw [hread, hdata] at hall
  exact ⟨s, r, hs, hr, hread, hdata, hended, hin r hr, c', out, hc, hclosed', hall⟩

end Recorded

end TcpState
