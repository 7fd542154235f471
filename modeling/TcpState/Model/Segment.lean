import TcpState.Foundation.Circular

/-!
# Sequence numbers, flags and segments

Sequence numbers are 32-bit words that wrap. The comparisons are the source's
own branches on raw values; their meaning is stated with the forward distance
on the circle.
-/

namespace TcpState

/-- A TCP sequence number, handles wrap-around. -/
abbrev SeqN := BitVec 32

namespace SeqN

def zero : SeqN := 0#32

def inRangeInclusive (x start stop : SeqN) : Bool :=
  if start = stop then decide (x = start)
  else if start.toNat < stop.toNat then
    decide (start.toNat ≤ x.toNat) && decide (x.toNat ≤ stop.toNat)
  else decide (start.toNat ≤ x.toNat) || decide (x.toNat ≤ stop.toNat)

/-- The half range `u32::MAX / 2` behind `other`, with `other` itself. -/
def lt (x other : SeqN) : Bool :=
  inRangeInclusive x (other - 0x7fffffff#32) other

def lte (x other : SeqN) : Bool := decide (x = other) || lt x other

/-- The three branches test one inequality between forward distances. -/
theorem inRangeInclusive_iff (x start stop : SeqN) :
    inRangeInclusive x start stop = true ↔
      Circular.span start x ≤ Circular.span start stop := by
  have hx := x.isLt
  have hs := start.isLt
  have he := stop.isLt
  have heq : start = stop ↔ start.toNat = stop.toNat := BitVec.toNat_inj.symm
  have hxs : x = start ↔ x.toNat = start.toNat := BitVec.toNat_inj.symm
  simp only [inRangeInclusive, Circular.span_eq_ite, heq, hxs]
  split_ifs <;> simp <;> omega

theorem lt_iff (x other : SeqN) :
    lt x other = true ↔ Circular.span x other < 2 ^ 31 := by
  have hx := x.isLt
  have ho := other.isLt
  rw [lt, inRangeInclusive_iff, Circular.span, Circular.span, Circular.span]
  simp only [BitVec.toNat_sub, BitVec.toNat_ofNat]
  omega

/-- `lte` accepts exactly the half circle that ends at `other`. -/
theorem lte_iff (x other : SeqN) :
    lte x other = true ↔ Circular.span x other < 2 ^ 31 := by
  rw [lte, Bool.or_eq_true, lt_iff, decide_eq_true_iff]
  constructor
  · rintro (rfl | h)
    · simp
    · exact h
  · exact Or.inr

end SeqN

/-- Flag bits of a segment. -/
structure SegmentFlags where
  bits : BitVec 16
deriving DecidableEq, Repr

namespace SegmentFlags

def fin : SegmentFlags := ⟨1#16 <<< 0⟩
def syn : SegmentFlags := ⟨1#16 <<< 1⟩
def rst : SegmentFlags := ⟨1#16 <<< 2⟩
def ack : SegmentFlags := ⟨1#16 <<< 4⟩

def union (f g : SegmentFlags) : SegmentFlags := ⟨f.bits ||| g.bits⟩

instance : OrOp SegmentFlags := ⟨union⟩

def contains (f g : SegmentFlags) : Bool := decide (f.bits &&& g.bits = g.bits)

theorem contains_iff {f g : SegmentFlags} : f.contains g = true ↔ f.bits &&& g.bits = g.bits := by
  simp [contains]

theorem union_bits (f g : SegmentFlags) : (f ||| g).bits = f.bits ||| g.bits := rfl

/-- A union of flags is contained exactly when both parts of it are. -/
theorem contains_union (f g h : SegmentFlags) :
    f.contains (g ||| h) = (f.contains g && f.contains h) := by
  have bit (x y : BitVec 16) (hxy : f.bits &&& (x ||| y) = x ||| y) : f.bits &&& x = x := by
    ext i hi
    have := congrArg (fun b : BitVec 16 => b[i]) hxy
    simp only [BitVec.getElem_and, BitVec.getElem_or] at this ⊢
    revert this
    cases f.bits[i] <;> cases x[i] <;> simp
  rw [Bool.eq_iff_iff, Bool.and_eq_true, contains_iff, contains_iff, contains_iff, union_bits]
  constructor
  · intro hgh
    exact ⟨bit _ _ hgh, bit _ _ (by rw [BitVec.or_comm]; exact hgh)⟩
  · rintro ⟨hg, hh⟩
    rw [BitVec.and_or_distrib_left, hg, hh]

/-- The flags of the two segments that open a connection. -/
@[simp] theorem contains_synAck : (syn ||| ack).contains syn = true ∧
    (syn ||| ack).contains ack = true ∧ (syn ||| ack).contains fin = false ∧
    (syn ||| ack).contains rst = false := by
  decide

@[simp] theorem contains_syn : syn.contains syn = true ∧ syn.contains ack = false ∧
    syn.contains fin = false ∧ syn.contains rst = false := by
  decide

/-- The flags of a refusal. -/
@[simp] theorem contains_rst : rst.contains rst = true ∧ rst.contains ack = false ∧
    rst.contains syn = false ∧ rst.contains fin = false := by
  decide

@[simp] theorem contains_rstAck : (rst ||| ack).contains rst = true ∧
    (rst ||| ack).contains syn = false ∧ (rst ||| ack).contains fin = false := by
  decide

end SegmentFlags

structure SegmentMeta where
  seqn : SeqN
  ackn : SeqN
  window : BitVec 16
  flags : SegmentFlags
  data : List UInt8
deriving DecidableEq, Repr

namespace SegmentMeta

/-- Size in the sequence number space. The length is cut to 32 bits. -/
def seqSize (seg : SegmentMeta) : BitVec 32 :=
  let result := BitVec.ofNat 32 seg.data.length
  let result := if seg.flags.contains .syn then result + 1#32 else result
  if seg.flags.contains .fin then result + 1#32 else result

/-- The sequence number just after this segment. -/
def seqnAfter (seg : SegmentMeta) : SeqN := seg.seqn + seg.seqSize

/-- End of the sequence number range used by this segment. -/
def lastSeqn (seg : SegmentMeta) : SeqN := seg.seqnAfter - 1#32

abbrev hasFin (seg : SegmentMeta) : Bool := seg.flags.contains .fin
abbrev hasSyn (seg : SegmentMeta) : Bool := seg.flags.contains .syn
abbrev hasRst (seg : SegmentMeta) : Bool := seg.flags.contains .rst
abbrev hasAck (seg : SegmentMeta) : Bool := seg.flags.contains .ack

/-- The size as a natural number, before the cut to 32 bits. -/
theorem seqSize_eq (seg : SegmentMeta) :
    seg.seqSize = BitVec.ofNat 32
      (seg.data.length + seg.hasSyn.toNat + seg.hasFin.toNat) := by
  unfold seqSize hasSyn hasFin
  cases seg.flags.contains .syn <;> cases seg.flags.contains .fin <;>
    simp [BitVec.ofNat_add, BitVec.add_assoc]

/-- Without data, SYN and FIN a segment takes no sequence number. -/
theorem seqSize_of_empty {seg : SegmentMeta} (hsyn : seg.hasSyn = false)
    (hfin : seg.hasFin = false) (hdata : seg.data = []) : seg.seqSize = 0#32 := by
  rw [seqSize_eq, hsyn, hfin, hdata]
  rfl

end SegmentMeta

end TcpState
