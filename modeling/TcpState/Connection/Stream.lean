import TcpState.Connection.Retransmit
import TcpState.Connection.Watch

/-!
# The sent stream along a run

A run is followed together with what the application wrote and what was put on
the wire since the last SYN, for the first time or again. Every segment with
data is a piece of what was written.
-/

namespace TcpState

open Circular (Tiles)

/-- What a connection took over and put on the wire since its last SYN. -/
structure Transcript where
  /-- The initial sequence number of the last SYN. -/
  isn : SeqN
  /-- The bytes `call_send` took over. -/
  written : List UInt8
  /-- The segments sent for the first time. -/
  fresh : List SegmentMeta
  /-- The segments a timer sent again. -/
  repeated : List SegmentMeta

/-- The sequence numbers the data of a segment takes. -/
def SegmentMeta.dataSize (seg : SegmentMeta) : SeqN := BitVec.ofNat 32 seg.data.length

namespace Transcript

/-- The bytes put on the wire for the first time. -/
def carried (t : Transcript) : List UInt8 := (t.fresh.map SegmentMeta.data).flatten

/-- The wire carries the written stream: each segment with data, new or sent
again, holds the written bytes at its place, new data follows without gap or
overlap, and the FIN comes once and last. -/
structure Faithful (t : Transcript) : Prop where
  size : ∀ seg ∈ t.fresh ++ t.repeated, seg.data.length ≤ maxSegmentSize
  placed : ∀ seg ∈ t.fresh ++ t.repeated, seg.data ≠ [] →
    ∃ o, o % 2 ^ 32 = (seg.seqn - t.isn - 1#32).toNat ∧ seg.data <+: t.written.drop o
  contiguous : Tiles SegmentMeta.seqn SegmentMeta.dataSize (t.isn + 1#32)
    (t.fresh.filter fun seg => !seg.data.isEmpty)
    (t.isn + 1#32 + BitVec.ofNat 32 t.carried.length)
  isPrefix : t.carried <+: t.written
  finOnce : t.fresh.Pairwise fun a b => a.hasFin = true → b.data = [] ∧ b.hasFin = false
  complete : (∃ seg ∈ t.fresh, seg.hasFin = true) → t.carried = t.written

namespace Faithful

variable {t : Transcript} {seg : SegmentMeta}

/-- Nothing has been written or sent. -/
theorem empty (isn : SeqN) : Faithful ⟨isn, [], [], []⟩ where
  size := List.forall_mem_nil _
  placed := List.forall_mem_nil _
  contiguous := BitVec.add_zero _
  isPrefix := List.nil_prefix
  finOnce := .nil
  complete := fun _ => rfl

/-- More is written before the FIN. -/
theorem write (h : t.Faithful) (hfin : ∀ seg ∈ t.fresh, seg.hasFin = false)
    (data : List UInt8) : Faithful { t with written := t.written ++ data } where
  size := h.size
  placed := fun seg hseg hdata => by
    obtain ⟨o, ho, hplace⟩ := h.placed seg hseg hdata
    refine ⟨o, ho, hplace.trans ?_⟩
    rw [List.drop_append]
    exact List.prefix_append _ _
  contiguous := h.contiguous
  isPrefix := h.isPrefix.trans (List.prefix_append _ _)
  finOnce := h.finOnce
  complete := fun ⟨seg, hseg, hf⟩ => by
    rw [hfin seg hseg] at hf
    cases hf

theorem carried_concat (t : Transcript) (seg : SegmentMeta) :
    carried { t with fresh := t.fresh ++ [seg] } = t.carried ++ seg.data := by
  simp [carried]

/-- A new segment: what it carries is written next, and after a FIN it carries
nothing. -/
theorem emit (h : t.Faithful) (hsize : seg.data.length ≤ maxSegmentSize)
    (hseqn : seg.data ≠ [] → seg.seqn = t.isn + 1#32 + BitVec.ofNat 32 t.carried.length)
    (hwritten : t.carried ++ seg.data <+: t.written)
    (hlast : (∃ s ∈ t.fresh, s.hasFin = true) → seg.data = [] ∧ seg.hasFin = false)
    (hfin : seg.hasFin = true → t.carried ++ seg.data = t.written) :
    Faithful { t with fresh := t.fresh ++ [seg] } := by
  constructor
  · intro s hs
    rcases List.mem_append.mp hs with hs | hs
    · rcases List.mem_append.mp hs with hs | hs
      · exact h.size s (List.mem_append_left _ hs)
      · rw [List.mem_singleton.mp hs]
        exact hsize
    · exact h.size s (List.mem_append_right _ hs)
  · intro s hs hdata
    rcases List.mem_append.mp hs with hs | hs
    · rcases List.mem_append.mp hs with hs | hs
      · exact h.placed s (List.mem_append_left _ hs) hdata
      · obtain rfl := List.mem_singleton.mp hs
        refine ⟨t.carried.length, ?_, ?_⟩
        · rw [hseqn hdata, ← BitVec.toNat_ofNat]
          congr 1
          bv_omega
        · obtain ⟨rest, hrest⟩ := hwritten
          change s.data <+: t.written.drop t.carried.length
          rw [← hrest, List.append_assoc, List.drop_left]
          exact List.prefix_append _ _
    · exact h.placed s (List.mem_append_right _ hs) hdata
  · rw [carried_concat, List.filter_append]
    by_cases hdata : seg.data = []
    · rw [hdata, List.append_nil]
      simpa [hdata] using h.contiguous
    · have hone : [seg].filter (fun seg => !seg.data.isEmpty) = [seg] := by simp [hdata]
      rw [hone, List.length_append, ← Circular.add_ofNat_add]
      exact h.contiguous.append (hseqn hdata)
  · rw [carried_concat]
    exact hwritten
  · refine List.pairwise_append.mpr ⟨h.finOnce, List.pairwise_singleton _ _, ?_⟩
    intro a ha b hb hf
    rw [List.mem_singleton.mp hb]
    exact hlast ⟨a, ha, hf⟩
  · rintro ⟨s, hs, hf⟩
    rw [carried_concat]
    rcases List.mem_append.mp hs with hs | hs
    · rw [(hlast ⟨s, hs, hf⟩).1, List.append_nil]
      exact h.complete ⟨s, hs, hf⟩
    · rw [List.mem_singleton.mp hs] at hf
      exact hfin hf

/-- New segments without data and FIN. -/
theorem silent (h : t.Faithful) {new : List SegmentMeta}
    (hnew : ∀ s ∈ new, s.data = [] ∧ s.hasFin = false) :
    Faithful { t with fresh := t.fresh ++ new } ∧
      carried { t with fresh := t.fresh ++ new } = t.carried := by
  induction new generalizing t with
  | nil =>
      rw [List.append_nil]
      exact ⟨h, rfl⟩
  | cons s rest ih =>
      obtain ⟨hdata, hf⟩ := hnew s List.mem_cons_self
      have hs : Faithful { t with fresh := t.fresh ++ [s] } := by
        refine h.emit (by rw [hdata]; exact Nat.zero_le _) (fun hne => absurd hdata hne) ?_
          (fun _ => ⟨hdata, hf⟩) (fun hfin => ?_)
        · rw [hdata, List.append_nil]
          exact h.isPrefix
        · rw [hf] at hfin
          cases hfin
      have := ih hs fun s' hs' => hnew s' (List.mem_cons_of_mem _ hs')
      simp only [List.append_assoc, List.singleton_append] at this
      refine ⟨this.1, this.2.trans ?_⟩
      rw [carried_concat, hdata, List.append_nil]

/-- What is sent again has been sent. -/
theorem sentAgain (h : t.Faithful) {again : List SegmentMeta}
    (hagain : ∀ s ∈ again, s.data ≠ [] → s ∈ t.fresh) :
    Faithful { t with repeated := t.repeated ++ again } := by
  have hmem : ∀ s ∈ t.fresh ++ (t.repeated ++ again), s.data ≠ [] →
      s ∈ t.fresh ++ t.repeated := by
    intro s hs hdata
    rw [← List.append_assoc] at hs
    exact (List.mem_append.mp hs).elim id fun hs => List.mem_append_left _ (hagain s hs hdata)
  refine ⟨fun s hs => ?_, fun s hs hdata => h.placed s (hmem s hs hdata) hdata, h.contiguous,
    h.isPrefix, h.finOnce, h.complete⟩
  by_cases hdata : s.data = []
  · rw [hdata]
    exact Nat.zero_le _
  · exact h.size s (hmem s hs hdata)

end Faithful

end Transcript

namespace Connection

variable {Addr Time : Type}

/-- The segments a step sent again. Only a tick repeats. -/
def repeats (c : Connection Addr Time) (op : Op Time) (c' : Connection Addr Time) :
    List SegmentMeta :=
  match op with
  | .onTimeTick _ => c'.userData.sent.drop c.userData.sent.length
  | _ => []

/-- The step begins a connection attempt. -/
def Starts (c c' : Connection Addr Time) : Prop :=
  c.connectionState.opening = false ∧ c'.connectionState.opening = true

instance (c c' : Connection Addr Time) : Decidable (c.Starts c') :=
  inferInstanceAs (Decidable (_ ∧ _))

/-- Besides data, FIN and SYN a step sends empty segments, or waiting ones again. -/
theorem fresh_repeats {c c' : Connection Addr Time} {op : Op Time} {new : List SegmentMeta}
    (hsent : c'.userData.sent = c.userData.sent ++ new)
    (hnew : ∀ s ∈ new, s ∈ c.tx.reTx ∧ (∃ time, op = .onTimeTick time) ∨
      s.data = [] ∧ s.hasFin = false) :
    (∀ s ∈ c.fresh op c', s.data = [] ∧ s.hasFin = false) ∧
      ∀ s ∈ c.repeats op c', s.data ≠ [] → s ∈ c.tx.reTx := by
  have hdrop : c'.userData.sent.drop c.userData.sent.length = new := by
    rw [hsent, List.drop_left]
  cases op
  case onTimeTick =>
    refine ⟨List.forall_mem_nil _, fun s hs hdata => ?_⟩
    rw [repeats, hdrop] at hs
    exact ((hnew s hs).resolve_right fun h => hdata h.1).1
  all_goals
    refine ⟨fun s hs => ?_, List.forall_mem_nil _⟩
    rw [fresh, hdrop] at hs
    · refine (hnew s hs).resolve_left ?_
      rintro ⟨-, _, h⟩
      cases h
    · exact fun _ h => by cases h

theorem empty_of_bare {s : SegmentMeta} (h : s.data = [] ∧ s.seqSize = 0#32) :
    s.data = [] ∧ s.hasFin = false := by
  refine ⟨h.1, ?_⟩
  have hsize := h.2
  rw [SegmentMeta.seqSize_eq, h.1] at hsize
  cases hfin : s.hasFin with
  | false => rfl
  | true =>
      rw [hfin] at hsize
      cases hsyn : s.hasSyn <;> rw [hsyn] at hsize <;> simp at hsize

theorem Remark.empty {c : Connection Addr Time} {op : Op Time} {s : SegmentMeta}
    (h : Remark c op s) : s ∈ c.tx.reTx ∧ (∃ time, op = .onTimeTick time) ∨
      s.data = [] ∧ s.hasFin = false := by
  cases h with
  | resend htick hmem => exact .inl ⟨hmem, _, htick⟩
  | ack _ hflags hdata => exact .inr ⟨hdata, by rw [SegmentMeta.hasFin, hflags]; decide⟩
  | refusal _ _ hsize => exact .inr (empty_of_bare hsize)

theorem Parting.empty {c : Connection Addr Time} {op : Op Time} {s : SegmentMeta}
    (h : Parting c op s) : s ∈ c.tx.reTx ∧ (∃ time, op = .onTimeTick time) ∨
      s.data = [] ∧ s.hasFin = false := by
  cases h with
  | resend htick hmem => exact .inl ⟨hmem, _, htick⟩
  | abort _ hsize => exact .inr (empty_of_bare hsize)
  | stray hflags hdata => exact .inr ⟨hdata, by rw [SegmentMeta.hasFin, hflags]; decide⟩

end Connection

namespace Transcript

variable {Addr Time : Type}

/-- The transcript starts over with a connection attempt. -/
def note (t : Transcript) (c : Connection Addr Time) (op : Op Time) (out : Output)
    (c' : Connection Addr Time) : Transcript :=
  let t := if c.Starts c' then ⟨t.isn, [], [], []⟩ else t
  { isn := if c'.connectionState.idle = true then t.isn else c'.tx.initSeqn
    written := t.written ++ out.accepted op
    fresh := t.fresh ++ c.fresh op c'
    repeated := t.repeated ++ c.repeats op c' }

def watch (Addr Time : Type) : Watch Addr Time Transcript where
  start := ⟨.zero, [], [], []⟩
  note := note

/-- The send buffer continues the transcript. -/
structure Continues (tx : TxBuffer) (t : Transcript) : Prop where
  initSeqn : tx.initSeqn = t.isn
  queue : t.carried ++ tx.tx.bytes = t.written
  next : (∀ seg ∈ t.fresh, seg.hasFin = false) →
    tx.next = t.isn + 1#32 + BitVec.ofNat 32 t.carried.length
  reTx : ∀ seg ∈ tx.reTx, seg ∈ t.fresh

/-- The transcript of a connection that has sent `t` so far. -/
structure Transcribes (c : Connection Addr Time) (t : Transcript) : Prop where
  faithful : t.Faithful
  tx : c.connectionState.idle = false → Continues c.tx t
  wroteFin : c.connectionState.idle = false → (∃ seg ∈ t.fresh, seg.hasFin = true) →
    c.connectionState.wroteFin = true

open Connection

variable {t : Transcript} {c c₀ c' : Connection Addr Time} {op : Op Time} {out : Output}
  {tx' : TxBuffer}

/-- A step that begins no attempt goes on with the transcript. -/
theorem note_of_not_starts (hstarts : ¬ c.Starts c')
    (hisn : c'.connectionState.idle = false → c'.tx.initSeqn = t.isn) :
    t.note c op out c' = { t with written := t.written ++ out.accepted op
                                  fresh := t.fresh ++ c.fresh op c'
                                  repeated := t.repeated ++ c.repeats op c' } := by
  have hgoes : (if c.Starts c' then (⟨t.isn, [], [], []⟩ : Transcript) else t) = t :=
    if_neg hstarts
  have hkept : (if c'.connectionState.idle = true then t.isn else c'.tx.initSeqn) = t.isn := by
    split
    · rfl
    · rename_i hidle
      exact hisn (by simpa using hidle)
  simp only [note, hgoes, hkept]

/-- Empty segments leave the send buffer where it is. -/
theorem Continues.silent (h : Continues c.tx t) {new : List SegmentMeta} (ht : t.Faithful)
    (hnew : ∀ s ∈ new, s.data = [] ∧ s.hasFin = false) (hinit : tx'.initSeqn = c.tx.initSeqn)
    (hqueue : tx'.tx.bytes = c.tx.tx.bytes) (hnext : tx'.next = c.tx.next)
    (hre : ∀ s ∈ tx'.reTx, s ∈ c.tx.reTx) : Continues tx' { t with fresh := t.fresh ++ new } := by
  have hcarried := (ht.silent hnew).2
  constructor
  · exact hinit.trans h.initSeqn
  · rw [hcarried, hqueue]
    exact h.queue
  · intro hfin
    rw [hcarried, hnext]
    exact h.next fun s hs => hfin s (List.mem_append_left _ hs)
  · exact fun s hs => List.mem_append_left _ (h.reTx s (hre s hs))

/-- More is queued. -/
theorem Continues.write (h : Continues c.tx t) {data : List UInt8} {q : BlobQueue}
    (hq : c.tx.tx.writeBytes data = .ok q) :
    Continues { c.tx with tx := q } { t with written := t.written ++ data } where
  initSeqn := h.initSeqn
  queue := by
    change t.carried ++ q.bytes = t.written ++ data
    rw [(BlobQueue.writeBytes_spec hq).1, ← List.append_assoc, h.queue]
  next := h.next
  reTx := h.reTx

theorem unackedAfter_subset {seg : SegmentMeta} : ∀ s ∈ c.unackedAfter seg, s ∈ c.tx.reTx := by
  intro s hs
  unfold unackedAfter at hs
  split at hs
  · exact hs
  · exact (List.dropWhile_sublist _).subset hs

/-- What `send_ack` puts on the wire is written next. -/
theorem Continues.emits (h : Continues c₀.tx t) (hf : t.Faithful) (ht : TxSent c₀ c')
    (hmarked : c₀.tx.tx.fin = true → c₀.tx.tx.bytes = [])
    (hdone : (∃ seg ∈ t.fresh, seg.hasFin = true) → c₀.outSegment.seqSize = 0#32) :
    Faithful { t with fresh := t.fresh ++ if c₀.skipsRepeat then [] else [c₀.outSegment] } ∧
    Continues c'.tx { t with fresh := t.fresh ++ if c₀.skipsRepeat then [] else [c₀.outSegment] } ∧
    ((∃ seg ∈ t.fresh ++ if c₀.skipsRepeat then [] else [c₀.outSegment], seg.hasFin = true) →
      (∃ seg ∈ t.fresh, seg.hasFin = true) ∨ c₀.sendsFin = true) := by
  have hnone : c₀.outSegment.seqSize = 0#32 → c₀.outSegment.data = [] ∧ c₀.sendsFin = false :=
    (outSegment_seqSize_eq_zero c₀).mp
  have hqueue : c₀.outSegment.data ++ c'.tx.tx.bytes = c₀.tx.tx.bytes := by
    rw [ht.bytes]
    exact List.take_append_drop _ _
  have hfin : c₀.sendsFin = true → c₀.tx.tx.bytes = [] := fun hs =>
    hmarked (sendsFin_iff.mp hs).2.1
  by_cases hskip : c₀.skipsRepeat
  · obtain ⟨hdata, hno⟩ := hnone hskip.1
    rw [if_pos hskip, List.append_nil]
    rw [hdata, List.nil_append] at hqueue
    refine ⟨hf, ⟨ht.initSeqn.trans h.initSeqn, ?_, ?_, ?_⟩, .inl⟩
    · rw [hqueue]
      exact h.queue
    · rw [ht.next, hskip.1, BitVec.add_zero]
      exact h.next
    · rw [ht.reTx, if_pos hskip.1, List.append_nil]
      exact h.reTx
  · rw [if_neg hskip]
    have hnofin : c₀.outSegment.data ≠ [] → ∀ seg ∈ t.fresh, seg.hasFin = false := by
      intro hdata seg hseg
      by_contra hfin
      exact hdata (hnone (hdone ⟨seg, hseg, by simpa using hfin⟩)).1
    refine ⟨?_, ⟨ht.initSeqn.trans h.initSeqn, ?_, ?_, ?_⟩, ?_⟩
    · refine hf.emit c₀.outData_length_le (fun hdata => h.next (hnofin hdata)) ?_ ?_ ?_
      · refine ⟨c'.tx.tx.bytes, ?_⟩
        rw [List.append_assoc, hqueue]
        exact h.queue
      · intro hex
        rw [outSegment_hasFin]
        exact hnone (hdone hex)
      · intro hs
        rw [outSegment_hasFin] at hs
        have hbytes := hfin hs
        rw [hbytes, List.append_eq_nil_iff] at hqueue
        rw [hqueue.1, ← hbytes]
        exact h.queue
    · rw [Faithful.carried_concat, List.append_assoc, hqueue]
      exact h.queue
    · intro hall
      have hs : c₀.sendsFin = false := by
        rw [← outSegment_hasFin]
        exact hall _ (List.mem_append_right _ (List.mem_singleton_self _))
      rw [Faithful.carried_concat, List.length_append, ← Circular.add_ofNat_add, ht.next,
        h.next fun s hs => hall s (List.mem_append_left _ hs), outSegment_seqSize, hs]
      rfl
    · intro seg hseg
      rw [ht.reTx] at hseg
      rcases List.mem_append.mp hseg with hseg | hseg
      · exact List.mem_append_left _ (h.reTx seg hseg)
      · split at hseg
        · cases hseg
        · exact List.mem_append_right _ hseg
    · rintro ⟨seg, hseg, hs⟩
      rcases List.mem_append.mp hseg with hseg | hseg
      · exact .inl ⟨seg, hseg, hs⟩
      · rw [List.mem_singleton.mp hseg, outSegment_hasFin] at hs
        exact .inr hs

namespace Transcribes

/-- Whatever waits for its acknowledgement has been sent. -/
theorem reTx (h : Transcribes c t) (hwf : WellFormed c) : ∀ seg ∈ c.tx.reTx, seg ∈ t.fresh := by
  cases hidle : c.connectionState.idle with
  | false => exact (h.tx hidle).reTx
  | true =>
      rw [(hwf.idle hidle).1]
      exact List.forall_mem_nil _

theorem noFin (h : Transcribes c t) (hidle : c.connectionState.idle = false)
    (hwrote : c.connectionState.wroteFin = false) : ∀ seg ∈ t.fresh, seg.hasFin = false := by
  intro seg hseg
  by_contra hfin
  rw [h.wroteFin hidle ⟨seg, hseg, by simpa using hfin⟩] at hwrote
  cases hwrote

/-- A step that takes no data over and sends nothing new. -/
theorem quiet (h : Transcribes c t) (hwf : WellFormed c) (hstarts : ¬ c.Starts c')
    (hout : out.accepted op = []) {new : List SegmentMeta}
    (hsent : c'.userData.sent = c.userData.sent ++ new)
    (hnew : ∀ s ∈ new, s ∈ c.tx.reTx ∧ (∃ time, op = .onTimeTick time) ∨
      s.data = [] ∧ s.hasFin = false)
    (htx : c'.connectionState.idle = false → c.connectionState.idle = false ∧
      c'.tx.initSeqn = c.tx.initSeqn ∧ c'.tx.tx.bytes = c.tx.tx.bytes ∧ c'.tx.next = c.tx.next ∧
      (∀ s ∈ c'.tx.reTx, s ∈ c.tx.reTx) ∧
      (c.connectionState.wroteFin = true → c'.connectionState.wroteFin = true)) :
    Transcribes c' (t.note c op out c') := by
  obtain ⟨hfresh, hagain⟩ := fresh_repeats hsent hnew
  have hnote := @note_of_not_starts _ _ t c c' op out hstarts fun hidle => by
    obtain ⟨hwas, hinit, -⟩ := htx hidle
    exact hinit.trans (h.tx hwas).initSeqn
  rw [hnote, hout, List.append_nil]
  have hsilent := (h.faithful.silent hfresh).1
  refine ⟨hsilent.sentAgain fun s hs hdata => ?_, fun hidle => ?_, ?_⟩
  · exact List.mem_append_left _ (h.reTx hwf s (hagain s hs hdata))
  · obtain ⟨hwas, hinit, hqueue, hnext, hre, -⟩ := htx hidle
    have k := (h.tx hwas).silent h.faithful hfresh hinit hqueue hnext hre
    exact ⟨k.initSeqn, k.queue, k.next, k.reTx⟩
  · rintro hidle ⟨seg, hseg, hf⟩
    obtain ⟨hwas, -, -, -, -, hwrote⟩ := htx hidle
    refine hwrote (h.wroteFin hwas ⟨seg, ?_, hf⟩)
    refine (List.mem_append.mp hseg).resolve_right fun hseg => ?_
    rw [(hfresh seg hseg).2] at hf
    cases hf

/-- A step that calls `send_ack` on `c₀`. -/
theorem sends (hstarts : ¬ c.Starts c') (hop : ∀ time, op ≠ .onTimeTick time)
    (hf : Faithful { t with written := t.written ++ out.accepted op })
    (hcont : Continues c₀.tx { t with written := t.written ++ out.accepted op })
    (ht : TxSent c₀ c') (hsent : c₀.userData.sent = c.userData.sent)
    (hmarked : c₀.tx.tx.fin = true → c₀.tx.tx.bytes = [])
    (hdone : (∃ seg ∈ t.fresh, seg.hasFin = true) → c₀.outSegment.seqSize = 0#32)
    (hwrote : (∃ seg ∈ t.fresh, seg.hasFin = true) ∨ c₀.sendsFin = true →
      c'.connectionState.wroteFin = true) :
    Transcribes c' (t.note c op out c') := by
  have hlog := ht.sent
  rw [hsent] at hlog
  have hfresh := fresh_of_sent hop hlog
  have hrepeats : c.repeats op c' = [] := by
    cases op
    case onTimeTick time => exact absurd rfl (hop time)
    all_goals rfl
  have hnote := @note_of_not_starts _ _ t c c' op out hstarts fun _ =>
    ht.initSeqn.trans hcont.initSeqn
  rw [hnote, hfresh, hrepeats, List.append_nil]
  obtain ⟨hfaithful, htx, hfins⟩ := hcont.emits hf ht hmarked hdone
  exact ⟨hfaithful, fun _ => htx, fun _ hex => hwrote (hfins hex)⟩

/-- The same while no FIN has been written: the only FIN may be the new one. -/
theorem sendsOpen (h : Transcribes c t) (hidle : c.connectionState.idle = false)
    (hwrote : c.connectionState.wroteFin = false) (hstarts : ¬ c.Starts c')
    (hop : ∀ time, op ≠ .onTimeTick time)
    (hf : Faithful { t with written := t.written ++ out.accepted op })
    (hcont : Continues c₀.tx { t with written := t.written ++ out.accepted op })
    (ht : TxSent c₀ c') (hsent : c₀.userData.sent = c.userData.sent)
    (hmarked : c₀.tx.tx.fin = true → c₀.tx.tx.bytes = [])
    (hfin : c₀.sendsFin = true → c'.connectionState.wroteFin = true) :
    Transcribes c' (t.note c op out c') := by
  have hnone : ¬ ∃ seg ∈ t.fresh, seg.hasFin = true := by
    rintro ⟨seg, hseg, hf⟩
    rw [h.noFin hidle hwrote seg hseg] at hf
    cases hf
  exact sends hstarts hop hf hcont ht hsent hmarked (fun hex => absurd hex hnone)
    fun hex => hfin (hex.resolve_left hnone)

/-- The SYN begins the transcript. -/
theorem begins (hwf' : WellFormed c') (hstarts : c.Starts c') (hop : ∀ time, op ≠ .onTimeTick time)
    (hout : out.accepted op = []) {syn : SegmentMeta} {tx₀ : TxBuffer} (hdata : syn.data = [])
    (hflags : syn.flags = .syn ∨ syn.flags = .syn ||| .ack)
    (hsent : c'.userData.sent = c.userData.sent ++ [syn]) (htx : c'.tx = tx₀.onSend syn)
    (hqueue : tx₀.tx.bytes = []) (hre : tx₀.reTx = []) : Transcribes c' (t.note c op out c') := by
  have hidle := ConnectionState.not_idle_of_opening hstarts.2
  have hrepeats : c.repeats op c' = [] := by
    cases op
    case onTimeTick time => exact absurd rfl (hop time)
    all_goals rfl
  have hnote : t.note c op out c' = ⟨c'.tx.initSeqn, [], [syn], []⟩ := by
    simp only [note, if_pos hstarts, hidle, fresh_of_sent hop hsent, hrepeats, hout,
      Bool.false_eq_true, if_false, List.nil_append]
  have hsyn : ∀ s ∈ [syn], s.data = [] ∧ s.hasFin = false := fun s hs => by
    rw [List.mem_singleton.mp hs, SegmentMeta.hasFin]
    rcases hflags with hflags | hflags <;> rw [hflags] <;> exact ⟨hdata, by decide⟩
  have hcarried : carried ⟨c'.tx.initSeqn, [], [syn], []⟩ = [] :=
    ((Faithful.empty c'.tx.initSeqn).silent hsyn).2
  rw [hnote]
  refine ⟨((Faithful.empty c'.tx.initSeqn).silent hsyn).1, fun _ => ⟨rfl, ?_, ?_, ?_⟩, ?_⟩
  · rw [hcarried, htx, TxBuffer.onSend_tx, hqueue]
    rfl
  · intro _
    rw [hcarried]
    exact (hwf'.opening hstarts.2).2.trans (BitVec.add_zero _).symm
  · rw [htx, TxBuffer.onSend_reTx, hre, seqSize_of_syn hflags hdata]
    exact fun seg hseg => hseg
  · rintro - ⟨seg, hseg, hf⟩
    rw [(hsyn seg hseg).2] at hf
    cases hf

theorem nothing_written (t : Transcript) (hout : out.accepted op = []) :
    { t with written := t.written ++ out.accepted op } = t := by
  rw [hout, List.append_nil]

theorem not_starts_of_open (hopen : c'.connectionState.opening = false) : ¬ c.Starts c' :=
  fun h => Bool.false_ne_true (hopen.symm.trans h.2)

theorem not_starts_of_synced (hsync : c'.connectionState.synced = true) : ¬ c.Starts c' :=
  not_starts_of_open (ConnectionState.not_opening_of_synced hsync)

theorem not_starts_of_same (hstate : c'.connectionState = c.connectionState) : ¬ c.Starts c' := by
  rintro ⟨hwas, his⟩
  rw [hstate, hwas] at his
  cases his

/-- What the application writes is queued behind what was written before. -/
theorem queues {inputData : List UInt8} {q : BlobQueue} (h : Transcribes c t)
    (hidle : c.connectionState.idle = false) (hwrote : c.connectionState.wroteFin = false)
    (hout : out.accepted (.callSend inputData : Op Time) = inputData)
    (hq : c.tx.tx.writeBytes inputData = .ok q) (htx : c'.tx = { c.tx with tx := q })
    (hstate : c'.connectionState = c.connectionState) (hsent : c'.userData.sent = c.userData.sent) :
    Transcribes c' (t.note c (.callSend inputData) out c') := by
  have k := h.tx hidle
  have hnofin := h.noFin hidle hwrote
  have hnote := @note_of_not_starts _ _ t c c' (.callSend inputData) out
    (not_starts_of_same hstate) fun _ => by rw [htx]; exact k.initSeqn
  have hfresh : c.fresh (.callSend inputData) c' = [] :=
    fresh_of_sent (fun _ h => by cases h) (hsent.trans (List.append_nil _).symm)
  have hrepeats : c.repeats (.callSend inputData) c' = [] := rfl
  rw [hnote, hout, hfresh, hrepeats, List.append_nil, List.append_nil]
  refine ⟨h.faithful.write hnofin inputData, fun _ => ?_, ?_⟩
  · rw [htx]
    exact k.write hq
  · rintro - ⟨seg, hseg, hf⟩
    rw [hnofin seg hseg] at hf
    cases hf

variable [UserTime Time]

/-- One operation. -/
theorem step (h : Transcribes c t) (hwf : WellFormed c) (hc : c.step op = .ok (c', out)) :
    Transcribes c' (t.note c op out c') := by
  have hwf' := hwf.step hc
  cases hwf.txEffect hc with
  | kept hout htx hstate hsent hnew =>
      refine h.quiet hwf ?_ hout hsent (fun s hs => (hnew s hs).empty) fun hidle => ?_
      · rcases hstate with heq | ⟨-, hsync, -⟩
        · exact not_starts_of_same heq
        · exact not_starts_of_synced hsync
      · refine ⟨?_, htx.initSeqn, by rw [htx.queue], htx.next,
          by rw [htx.reTx]; exact fun _ => id, ?_⟩
        · rcases hstate with heq | ⟨hsync | ⟨hpeer, -⟩, -⟩
          · rw [← heq]
            exact hidle
          · exact ConnectionState.not_idle_of_synced hsync
          · exact hpeer.not_idle
        · rcases hstate with heq | ⟨-, -, hwrote, -⟩
          · rw [heq]
            exact id
          · rw [hwrote]
            exact id
  | cleared hout hidle _ htx hsent hnew =>
      refine h.quiet hwf ?_ hout hsent (fun s hs => (hnew s hs).empty) fun hi => ?_
      · refine not_starts_of_open ?_
        cases hst : c'.connectionState <;>
          simp_all [ConnectionState.idle, ConnectionState.opening]
      · rw [hidle] at hi
        cases hi
  | connecting hs hout ha =>
      have hidle : c.connectionState.idle = true := by rcases hs with hs | hs <;> rw [hs] <;> rfl
      have htx := (hwf.idle hidle).1
      refine begins hwf' ⟨?_, by rw [ha.state]; rfl⟩ (fun _ h => by cases h) hout rfl (.inl rfl)
        ha.sent ha.tx (by rw [htx]; rfl) (by rw [htx]; rfl)
      rcases hs with hs | hs <;> rw [hs] <;> rfl
  | answered hst _ _ ha =>
      have htx := (hwf.idle (by rw [hst]; rfl)).1
      exact begins hwf' ⟨by rw [hst]; rfl, by rw [ha.state]; rfl⟩ (fun _ h => by cases h) rfl rfl
        (.inr rfl) ha.sent ha.tx (by rw [htx]; rfl) (by rw [htx]; rfl)
  | queued hout hs hq htx hstate hsent =>
      rcases hs with hs | ⟨hs, hwrote⟩
      · refine h.queues (ConnectionState.not_idle_of_opening hs) ?_ hout hq htx hstate hsent
        by_contra hw
        rw [ConnectionState.opening_of_wroteFin (by simpa using hw)] at hs
        cases hs
      · exact h.queues (ConnectionState.not_idle_of_synced hs) hwrote hout hq htx hstate hsent
  | @appended inputData q _ _ hdata hout hs hwrote hq hspace ht hstate =>
      have hidle := ConnectionState.not_idle_of_synced hs
      obtain ⟨-, hqfin, hopen⟩ := BlobQueue.writeBytes_spec hq
      have hno : (c.withQueue q).tx.tx.fin ≠ true := by
        rw [ne_eq, Bool.not_eq_true]
        exact hqfin.trans (hopen.resolve_left hdata)
      refine h.sendsOpen hidle hwrote (not_starts_of_same hstate) (fun _ h => by cases h) ?_ ?_ ht
        rfl (fun hf => absurd hf hno) fun hf => absurd (sendsFin_iff.mp hf).2.1 hno
      · rw [hout]
        exact h.faithful.write (h.noFin hidle hwrote) inputData
      · rw [hout]
        exact (h.tx hidle).write hq
  | @marked op _ c₀ _ hop hs hwrote hempty _ htx _ _ hsent ht hsync hfin =>
      have hout : out.accepted op = [] := by rcases hop with rfl | rfl <;> rfl
      have k := h.tx hs.not_idle
      refine h.sendsOpen hs.not_idle hwrote (not_starts_of_synced hsync) ?_ ?_ ?_ ht hsent
        (fun _ => by rw [htx]; exact hempty) hfin
      · rcases hop with rfl | rfl <;> exact fun _ h => by cases h
      · rw [nothing_written t hout]
        exact h.faithful
      · rw [nothing_written t hout, htx]
        exact ⟨k.initSeqn, k.queue, k.next, k.reTx⟩
  | @acked seg _ _ hs _ _ _ htx hstate hsent hnew =>
      refine h.quiet hwf (not_starts_of_synced hstate.synced) rfl hsent
        (fun s hs => (hnew s hs).empty) fun _ => ⟨hs.not_idle, by rw [htx]; rfl,
          by rw [htx]; rfl, by rw [htx]; rfl, ?_, fun hw => ?_⟩
      · rw [htx]
        exact unackedAfter_subset
      · rw [hstate.wroteFin, hw]
        rfl
  | @stored seg c₀ _ hs hstores htx _ hwrote hsent ht hstate =>
      have hqueue : c₀.tx.tx = c.tx.tx := by rw [htx]; rfl
      have k := h.tx hs.not_idle
      refine sends (not_starts_of_synced hstate.synced) (fun _ h => by cases h) ?_ ?_ ht hsent
        ?_ ?_ ?_
      · rw [nothing_written t rfl]
        exact h.faithful
      · rw [nothing_written t rfl, htx]
        exact ⟨k.initSeqn, k.queue, k.next, fun s hs => k.reTx s (unackedAfter_subset s hs)⟩
      · rw [hqueue]
        exact hwf.marked
      · exact fun hex => Traced.outSegment_of_wroteFin hwf hqueue hwrote
          (h.wroteFin hs.not_idle hex)
      · rintro (hex | hf)
        · rw [hstate.wroteFin, h.wroteFin hs.not_idle hex]
          rfl
        · rw [hstate.wroteFin, hf, Bool.or_true]
  | @synAcked seg hst =>
      refine h.quiet hwf (not_starts_of_same rfl) rfl
        ((clearReTxRange_sent _ _).trans (List.append_nil _).symm)
        (List.forall_mem_nil _) fun _ => ⟨by rw [hst]; rfl, rfl, rfl, rfl, ?_, id⟩
      exact fun s hs => (List.dropWhile_sublist _).subset hs
  | @opened seg _ hst _ _ _ _ _ ht hstate =>
      have hidle : c.connectionState.idle = false := by rw [hst]; rfl
      have k := h.tx hidle
      have hno : ((c.synAcked seg).entered .fullyOpen).tx.tx.fin ≠ true := by
        rw [ne_eq, Bool.not_eq_true, entered_tx]
        exact (hwf.early (by rw [hst]; rfl)).1
      refine h.sendsOpen hidle (by rw [hst]; rfl) (not_starts_of_open (by rw [hstate]; rfl))
        (fun _ h => by cases h) ?_ ?_ ht ?_ (fun hf => absurd hf hno)
        fun hf => absurd (sendsFin_iff.mp hf).2.1 hno
      · rw [nothing_written t rfl]
        exact h.faithful
      · rw [nothing_written t rfl, entered_tx]
        exact ⟨k.initSeqn, k.queue, k.next,
          fun s hs => k.reTx s ((List.dropWhile_sublist _).subset hs)⟩
      · rw [entered_sent]
        exact clearReTxRange_sent _ _

end Transcribes

variable [UserTime Time]

theorem transcribes_of_reachable (h : (watch Addr Time).Reachable c t) : Transcribes c t := by
  refine h.invariant (P := Transcribes) ?_ ?_
  · intro _ hinit
    have hidle := (Initial.fresh hinit).2.2
    exact ⟨.empty _, fun hi => absurd (hidle.symm.trans hi) (by decide),
      fun hi => absurd (hidle.symm.trans hi) (by decide)⟩
  · intro _ _ _ _ _ hreach ht hc
    exact ht.step (Reachable.wellFormed hreach) hc

/-- Against any peer, between a SYN and the next one every segment with data,
new or sent again, carries a piece of what was written at its place; new data
follows without gap or overlap, and the FIN is new once, after everything. -/
theorem sent_faithful (h : (watch Addr Time).Reachable c t) :
    t.Faithful ∧ (c.connectionState.idle = false → c.tx.initSeqn = t.isn) := by
  have ht := transcribes_of_reachable h
  exact ⟨ht.faithful, fun hidle => (ht.tx hidle).initSeqn⟩

/-- Two bytes queued during the handshake, one after it, a repetition and a FIN. -/
theorem sent_faithful_three : ∃ t : Transcript,
    t.written = [1, 2, 3] ∧ t.fresh.map (·.data) = [[], [1, 2], [3], [], []] ∧
    t.repeated.map (·.data) = [[1, 2]] ∧ t.Faithful := by
  obtain ⟨⟨c, t⟩, hreach, hwritten, hfresh, hrepeated⟩ : ∃ s : Connection Unit Nat × Transcript,
      Transition.Reachable (watch Unit Nat).system s ∧ s.2.written = [1, 2, 3] ∧
        s.2.fresh.map (·.data) = [[], [1, 2], [3], [], []] ∧ s.2.repeated.map (·.data) = [[1, 2]] :=
    Transition.exists_reachableUnder (watch Unit Nat).step_of_next
      ((watch Unit Nat).init_start (initial_listening () .default zeroUser))
      [.onSegment ⟨100#32, 0#32, 1000#16, .syn, []⟩, .callSend [1, 2],
       .onSegment ⟨101#32, 1#32, 1000#16, .ack, []⟩, .onTimeTick 10000000000000, .callSend [3],
       .onSegment ⟨101#32, 4#32, 1000#16, .ack, []⟩, .callShutdown] (by decide)
  exact ⟨t, hwritten, hfresh, hrepeated, (sent_faithful hreach).1⟩

end Transcript

end TcpState
