import TcpState.Connection.Send
import TcpState.Foundation.Transfer

/-!
# The stream behind the segments

One direction of a connection carries a SYN, bytes and at last a FIN, one
symbol for each sequence number. A segment is a piece of that stream, and the
send buffer is read as a channel of it.
-/

namespace TcpState

open Transfer (Piece Channel)

inductive Symbol
  | syn
  | byte (b : UInt8)
  | fin
deriving DecidableEq, Repr

namespace Symbol

/-- The bytes of a stream. -/
def bytes (s : List Symbol) : List UInt8 :=
  s.filterMap fun
    | byte b => some b
    | _ => none

@[simp] theorem bytes_nil : bytes [] = [] := rfl

@[simp] theorem bytes_append (s t : List Symbol) : bytes (s ++ t) = bytes s ++ bytes t :=
  List.filterMap_append

@[simp] theorem bytes_map_byte (data : List UInt8) : bytes (data.map byte) = data := by
  unfold bytes
  rw [List.filterMap_map]
  exact List.filterMap_some

theorem bytes_isPrefix {s t : List Symbol} (h : s <+: t) : bytes s <+: bytes t := by
  obtain ⟨rest, rfl⟩ := h
  rw [bytes_append]
  exact List.prefix_append _ _

/-- The bytes behind a place of the stream. -/
theorem bytes_drop (s : List Symbol) (k : Nat) :
    bytes (s.drop k) = (bytes s).drop (bytes (s.take k)).length := by
  have hsplit : bytes s = bytes (s.take k) ++ bytes (s.drop k) := by
    rw [← bytes_append, List.take_append_drop]
  rw [hsplit, List.drop_left]

/-- No FIN but at the end. -/
def FinLast (s : List Symbol) : Prop := fin ∉ s.dropLast

/-- A prefix that holds the FIN is the whole stream. -/
theorem FinLast.eq_of_isPrefix {s t : List Symbol} (hs : FinLast s) (ht : t <+: s)
    (hfin : fin ∈ t) : t = s := by
  obtain ⟨rest, rfl⟩ := ht
  cases rest with
  | nil => rw [List.append_nil]
  | cons x rest =>
      refine absurd ?_ hs
      rw [List.dropLast_append_of_ne_nil (by simp)]
      exact List.mem_append_left _ hfin

theorem FinLast.of_isPrefix {s t : List Symbol} (hs : FinLast s) (ht : t <+: s) : FinLast t := by
  obtain ⟨rest, rfl⟩ := ht
  cases rest with
  | nil => rwa [List.append_nil] at hs
  | cons x rest =>
      unfold FinLast at hs ⊢
      rw [List.dropLast_append_of_ne_nil (by simp), List.mem_append, not_or] at hs
      exact fun h => hs.1 (List.dropLast_subset _ h)

/-- A beginning of a SYN, bytes and a FIN. -/
def Framed (s : List Symbol) : Prop :=
  ∃ data : List UInt8, s <+: syn :: (data.map byte ++ [fin])

theorem framed_nil : Framed [] := ⟨[], [syn, fin], rfl⟩

theorem Framed.of_isPrefix {s t : List Symbol} (hs : Framed s) (ht : t <+: s) : Framed t :=
  hs.imp fun _ h => ht.trans h

/-- The three lengths of a beginning. -/
theorem Framed.cases {s : List Symbol} (h : Framed s) : s = [] ∨
    ∃ data : List UInt8, s = syn :: data.map byte ∨ s = syn :: (data.map byte ++ [fin]) := by
  obtain ⟨data, h⟩ := h
  cases s with
  | nil => exact .inl rfl
  | cons x s =>
      obtain ⟨rfl, htail⟩ := List.cons_prefix_cons.mp h
      rcases List.prefix_concat_iff.mp htail with rfl | h
      · exact .inr ⟨data, .inr rfl⟩
      · rw [List.prefix_iff_eq_take, ← List.map_take] at h
        exact .inr ⟨_, .inl (congrArg _ h)⟩

theorem Framed.syn_mem {s : List Symbol} (h : Framed s) (hs : s ≠ []) : syn ∈ s := by
  rcases h.cases with rfl | ⟨data, rfl | rfl⟩
  · exact absurd rfl hs
  · exact List.mem_cons_self
  · exact List.mem_cons_self

theorem Framed.finLast {s : List Symbol} (h : Framed s) : FinLast s := by
  obtain ⟨data, h⟩ := h
  refine FinLast.of_isPrefix ?_ h
  rw [FinLast, ← List.cons_append, List.dropLast_concat]
  simp

/-- More bytes and perhaps the FIN. -/
theorem Framed.append {s : List Symbol} (h : Framed s) (hs : s ≠ []) (hfin : fin ∉ s)
    (more : List UInt8) (b : Bool) :
    Framed (s ++ (more.map byte ++ if b then [fin] else [])) := by
  rcases h.cases with rfl | ⟨data, rfl | rfl⟩
  · exact absurd rfl hs
  · refine ⟨data ++ more, ?_⟩
    rw [List.map_append, List.cons_append, List.append_assoc, List.cons_prefix_cons]
    refine ⟨rfl, (List.prefix_append_right_inj _).mpr ((List.prefix_append_right_inj _).mpr ?_)⟩
    cases b with
    | false => exact List.nil_prefix
    | true => exact List.prefix_refl _
  · simp at hfin

/-- Behind the SYN a place of the stream is one more than the offset of its byte. -/
theorem Framed.bytes_drop {s : List Symbol} (h : Framed s) (i : Nat) :
    bytes (s.drop (i + 1)) = (bytes s).drop i := by
  rcases h.cases with rfl | ⟨data, rfl | rfl⟩
  · simp
  · rw [List.drop_succ_cons, ← List.map_drop, bytes_map_byte]
    exact congrArg (List.drop i) (bytes_map_byte data).symm
  · have hall : bytes (syn :: (data.map byte ++ [fin])) = data := by
      change bytes (data.map byte ++ [fin]) = data
      rw [bytes_append, bytes_map_byte]
      exact List.append_nil _
    have hrest : bytes ([fin].drop (i - (data.map byte).length)) = [] := by
      cases i - (data.map byte).length with
      | zero => rfl
      | succ k => simp
    rw [List.drop_succ_cons, List.drop_append, bytes_append, hrest, List.append_nil,
      ← List.map_drop, bytes_map_byte, hall]

end Symbol

namespace SegmentMeta

/-- What a segment carries, in sequence order. -/
def symbols (seg : SegmentMeta) : List Symbol :=
  (if seg.hasSyn then [.syn] else []) ++ seg.data.map .byte ++
    (if seg.hasFin then [.fin] else [])

theorem length_symbols (seg : SegmentMeta) :
    seg.symbols.length = seg.data.length + seg.hasSyn.toNat + seg.hasFin.toNat := by
  unfold symbols
  cases seg.hasSyn <;> cases seg.hasFin <;> simp [Nat.add_comm]

theorem seqSize_eq_ofNat (seg : SegmentMeta) :
    seg.seqSize = BitVec.ofNat 32 seg.symbols.length := by
  rw [seqSize_eq, length_symbols]

@[simp] theorem bytes_symbols (seg : SegmentMeta) : Symbol.bytes seg.symbols = seg.data := by
  rw [symbols, Symbol.bytes_append, Symbol.bytes_append, Symbol.bytes_map_byte]
  cases seg.hasSyn <;> cases seg.hasFin <;> simp [Symbol.bytes]

theorem syn_mem_symbols {seg : SegmentMeta} : Symbol.syn ∈ seg.symbols ↔ seg.hasSyn = true := by
  unfold symbols
  cases seg.hasSyn <;> cases seg.hasFin <;> simp

theorem fin_mem_symbols {seg : SegmentMeta} : Symbol.fin ∈ seg.symbols ↔ seg.hasFin = true := by
  unfold symbols
  cases seg.hasSyn <;> cases seg.hasFin <;> simp

end SegmentMeta

end TcpState
