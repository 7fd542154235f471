import TcpState.Connection.Backlog
import TcpState.Network.Stall

/-!
# Deliveries without an end

Without calls and ticks every delivery takes weight out of the exchange, except
for an unacceptable segment and its answer. An exchange that comes back to
where it was consists of such answers alone: each side finds the other's
unacceptable.
-/

namespace TcpState

namespace Connection

variable {Addr Time : Type}

/-- The same endpoint, whatever its callbacks have seen. -/
def Alike (c c' : Connection Addr Time) : Prop := ∃ u, c' = { c with userData := u }

namespace Alike

variable {c c' c'' : Connection Addr Time}

theorem refl (c : Connection Addr Time) : Alike c c := ⟨c.userData, rfl⟩

theorem trans (h : Alike c c') (h' : Alike c' c'') : Alike c c'' := by
  obtain ⟨u, rfl⟩ := h
  obtain ⟨u', rfl⟩ := h'
  exact ⟨u', rfl⟩

theorem send (c : Connection Addr Time) (seg : SegmentMeta) : Alike c (c.send seg) := ⟨_, rfl⟩

theorem backlog (h : Alike c c') : c'.backlog = c.backlog := by
  obtain ⟨u, rfl⟩ := h
  rfl

theorem answer (h : Alike c c') : c'.answer = c.answer := by
  obtain ⟨u, rfl⟩ := h
  rfl

theorem rejects_iff (h : Alike c c') {seg : SegmentMeta} : c'.Rejects seg ↔ c.Rejects seg := by
  obtain ⟨u, rfl⟩ := h
  rfl

end Alike

end Connection

namespace Flight

open Connection (Alike)

variable {Addr Time : Type}

/-- The weight of one side, with what it has under way. -/
def load (s : Flight Addr Time) (x : Side) : Nat :=
  ((s.wire x).map SegmentMeta.weight).sum + (s.conn x).backlog

def total (s : Flight Addr Time) : Nat := s.load .client + s.load .server

theorem total_eq (s : Flight Addr Time) (x : Side) : s.total = s.load x + s.load x.other := by
  cases x with
  | client => rfl
  | server => exact Nat.add_comm _ _

/-- Both endpoints and the copies under way are back where they were. -/
structure Returned (s t : Flight Addr Time) : Prop where
  alike : ∀ x, Alike (s.conn x) (t.conn x)
  wire : ∀ x, t.wire x = s.wire x

/-- Both sides find each other's answer unacceptable, and one is under way. -/
structure Storming (s : Flight Addr Time) : Prop where
  deaf : ∀ x, (s.conn x).Rejects (s.conn x.other).answer
  flying : ∃ x, (s.conn x).answer ∈ s.wire x

variable [UserTime Time] {s s₁ t : Flight Addr Time} {x : Side} {seg : SegmentMeta}

/-- Deliveries, in any order, without any call or tick. -/
inductive Exchange : Flight Addr Time → Flight Addr Time → Prop
  | done (s : Flight Addr Time) : Exchange s s
  | deliver {x : Side} {seg : SegmentMeta} {s s₁ t : Flight Addr Time}
      (h : Step s (.deliver x seg) s₁) (rest : Exchange s₁ t) : Exchange s t

/-- No deliveries lead back to this joint state. -/
def NoStorm (s : Flight Addr Time) : Prop :=
  ∀ x seg s₁ t, Step s (.deliver x seg) s₁ → Exchange s₁ t → ¬ Returned s t

omit [UserTime Time] in
theorem Returned.total (h : Returned s t) : t.total = s.total := by
  simp only [Flight.total, load, h.wire, (h.alike _).backlog]

/-- A delivery that is answered as unacceptable. -/
structure Echo (s : Flight Addr Time) (x : Side) (seg : SegmentMeta) (s₁ : Flight Addr Time) :
    Prop where
  mem : seg ∈ s.wire x.other
  rejects : (s.conn x).Rejects seg
  alike : ∀ z, Alike (s.conn z) (s₁.conn z)
  wire : s₁.wire x = s.wire x + {(s.conn x).answer}
  wire_other : s₁.wire x.other = (s.wire x.other).erase seg

omit [UserTime Time] in
/-- A copy taken from the wire takes its weight along. -/
theorem load_taken (hmem : seg ∈ s.wire x) :
    (((s.wire x).erase seg).map SegmentMeta.weight).sum + seg.weight =
      ((s.wire x).map SegmentMeta.weight).sum := by
  rw [← Multiset.sum_map_erase hmem, Nat.add_comm]

section Deliver

variable (s : Flight Addr Time) (x : Side) (seg : SegmentMeta) (c' : Connection Addr Time)
  (out : Output)

omit [UserTime Time]

/-- The joint state once a copy has been handed to `onSegment`. -/
def delivered : Flight Addr Time := (s.take x.other seg).after x (.onSegment seg) c' out

theorem wire_delivered : (s.delivered x seg c' out).wire x =
    s.wire x + ((s.conn x).emitted c' : Multiset SegmentMeta) := by
  have hother := wire_take_other s x.other seg
  rw [Side.other_other] at hother
  rw [delivered, wire_after, hother]
  rfl

theorem wire_delivered_other :
    (s.delivered x seg c' out).wire x.other = (s.wire x.other).erase seg := by
  rw [delivered, wire_after_other, wire_take]

theorem conn_delivered : (s.delivered x seg c' out).conn x = c' := conn_after _ _ _ _ _

theorem conn_delivered_other : (s.delivered x seg c' out).conn x.other = s.conn x.other :=
  conn_after_other _ _ _ _ _

theorem echo_delivered (hmem : seg ∈ s.wire x.other) (hrejects : (s.conn x).Rejects seg) :
    Echo s x seg (s.delivered x seg ((s.conn x).send (s.conn x).answer) out) := by
  refine ⟨hmem, hrejects, forall_side x ?_ ?_, ?_, wire_delivered_other _ _ _ _ _⟩
  · rw [conn_delivered]
    exact .send _ _
  · rw [conn_delivered_other]
    exact .refl _
  · rw [wire_delivered, Connection.emitted, Connection.send_sent, List.drop_left]
    rfl

end Deliver

/-- A delivery leaves less weight, or is answered as unacceptable. -/
theorem deliver_lightens (run : Reachable s) (h : Step s (.deliver x seg) s₁) :
    s₁.total < s.total ∨ Echo s x seg s₁ := by
  cases h with
  | @deliver _ _ c' out hmem hc =>
      change (s.delivered x seg c' out).total < s.total ∨ Echo s x seg (s.delivered x seg c' out)
      obtain ⟨hseg, -⟩ := Connection.step_onSegment.mp hc
      rcases Connection.lightens_onSegment (Connection.Reachable.wellFormed (run.conn x)) hseg with
        ⟨hrejects, rfl⟩ | ⟨new, hsent, hlt⟩
      · exact .inr (echo_delivered s x seg out hmem hrejects)
      · left
        have htaken := load_taken hmem
        have hnew : (s.conn x).emitted c' = new := by
          rw [Connection.emitted, hsent, List.drop_left]
        rw [total_eq _ x, total_eq s x, load, load, load, load, wire_delivered,
          wire_delivered_other, conn_delivered, conn_delivered_other, hnew, Multiset.map_add,
          Multiset.sum_add, Multiset.map_coe, Multiset.sum_coe]
        omega

/-- An unacceptable segment under way can be delivered. -/
theorem echo_of_rejects (hmem : seg ∈ s.wire x.other) (hrejects : (s.conn x).Rejects seg) :
    ∃ s₁, Step s (.deliver x seg) s₁ ∧ Echo s x seg s₁ := by
  obtain ⟨hs, hrst, hcheck⟩ := hrejects
  have hseg := Connection.onSegment_unacceptable hs hcheck
  rw [if_neg (Bool.eq_false_iff.mp hrst)] at hseg
  exact ⟨_, .deliver hmem (Connection.step_onSegment.mpr ⟨hseg, rfl⟩),
    echo_delivered s x seg .none hmem ⟨hs, hrst, hcheck⟩⟩

omit [UserTime Time] in
theorem Echo.total_le (h : Echo s x seg s₁) : s₁.total ≤ s.total := by
  have htaken := load_taken h.mem
  have hweight := SegmentMeta.weight_of_not_rst h.rejects.2.1
  have hback := (h.alike x).backlog
  have hback' := (h.alike x.other).backlog
  rw [total_eq _ x, total_eq s x, load, load, load, load, h.wire, h.wire_other, hback, hback',
    Multiset.map_add, Multiset.sum_add, Multiset.map_singleton, Multiset.sum_singleton,
    Connection.answer_weight]
  omega

/-- Deliveries that were all answered as unacceptable, with what they took from
each side. -/
structure Echoed (s t : Flight Addr Time) (taken : Side → Multiset SegmentMeta) : Prop where
  alike : ∀ z, Alike (s.conn z) (t.conn z)
  wire : ∀ z, t.wire z + taken z =
    s.wire z + Multiset.replicate (taken z.other).card (s.conn z).answer
  rejects : ∀ z, ∀ seg ∈ taken z, (s.conn z.other).Rejects seg

omit [UserTime Time] in
theorem Echoed.refl (s : Flight Addr Time) : Echoed s s 0 where
  alike _ := .refl _
  wire _ := rfl
  rejects _ seg hseg := absurd hseg (Multiset.notMem_zero seg)

omit [UserTime Time] in
/-- One more answer in front. -/
theorem Echoed.cons {taken : Side → Multiset SegmentMeta} (h : Echo s x seg s₁)
    (rest : Echoed s₁ t taken) :
    Echoed s t (Function.update taken x.other (seg ::ₘ taken x.other)) := by
  have hother : Function.update taken x.other (seg ::ₘ taken x.other) x.other =
      seg ::ₘ taken x.other := Function.update_self _ _ _
  have hsame : Function.update taken x.other (seg ::ₘ taken x.other) x = taken x :=
    Function.update_of_ne x.other_ne.symm _ _
  constructor
  · exact fun z => (h.alike z).trans (rest.alike z)
  · refine forall_side x ?_ ?_
    · rw [hsame, hother, rest.wire x, h.wire, (h.alike x).answer, Multiset.card_cons,
        Multiset.replicate_succ, add_assoc, Multiset.singleton_add]
    · rw [hother, Side.other_other, hsame, Multiset.add_cons, rest.wire x.other, h.wire_other,
        (h.alike x.other).answer, Side.other_other, ← Multiset.cons_add,
        Multiset.cons_erase h.mem]
  · refine forall_side x ?_ ?_
    · rw [hsame]
      exact fun g hg => (h.alike x.other).rejects_iff.mp (rest.rejects x g hg)
    · rw [hother, Side.other_other]
      intro g hg
      rcases Multiset.mem_cons.mp hg with rfl | hg
      · exact h.rejects
      · have hrejects := rest.rejects x.other g hg
        rw [Side.other_other] at hrejects
        exact (h.alike x).rejects_iff.mp hrejects

/-- Deliveries do not add weight, and those that keep it were all answered as
unacceptable. -/
theorem Exchange.total_le (h : Exchange s t) (run : Reachable s) :
    t.total ≤ s.total ∧ (t.total = s.total → ∃ taken, Echoed s t taken) := by
  induction h with
  | done s => exact ⟨Nat.le_refl _, fun _ => ⟨0, .refl s⟩⟩
  | deliver hstep _ ih =>
      obtain ⟨hle, hechoed⟩ := ih (run.step hstep)
      rcases deliver_lightens run hstep with hlt | hecho
      · exact ⟨by omega, fun heq => by omega⟩
      · have hfirst := hecho.total_le
        refine ⟨by omega, fun heq => ?_⟩
        obtain ⟨taken, hrest⟩ := hechoed (by omega)
        exact ⟨_, hrest.cons hecho⟩

/-- Deliveries that lead back are a storm. -/
theorem storming_of_returned (run : Reachable s) (h : Step s (.deliver x seg) s₁)
    (rest : Exchange s₁ t) (hback : Returned s t) : Storming s := by
  have htotal := hback.total
  obtain ⟨hle, hechoed⟩ := rest.total_le (run.step h)
  rcases deliver_lightens run h with hlt | hecho
  · omega
  have hfirst := hecho.total_le
  obtain ⟨taken₁, hrest⟩ := hechoed (by omega)
  obtain ⟨taken, hmem, hall⟩ : ∃ taken, seg ∈ taken x.other ∧ Echoed s t taken := by
    refine ⟨_, ?_, hrest.cons hecho⟩
    rw [Function.update_self]
    exact Multiset.mem_cons_self _ _
  -- The wire is as before, so that only answers were taken from it.
  have htaken (z : Side) :
      taken z = Multiset.replicate (taken z.other).card (s.conn z).answer := by
    have hwire := hall.wire z
    rw [hback.wire z] at hwire
    exact Multiset.add_right_inj.mp hwire
  have hseg : seg = (s.conn x.other).answer := by
    rw [htaken x.other] at hmem
    exact Multiset.eq_of_mem_replicate hmem
  have hpos : (taken x.other).card ≠ 0 := by
    rw [Ne, Multiset.card_eq_zero]
    exact fun hzero => absurd (hzero ▸ hmem) (Multiset.notMem_zero seg)
  refine ⟨forall_side x (hseg ▸ hecho.rejects) ?_, x.other, hseg ▸ hecho.mem⟩
  rw [Side.other_other]
  refine hall.rejects x _ ?_
  rw [htaken x]
  exact Multiset.mem_replicate.mpr ⟨hpos, rfl⟩

/-- In a storm two deliveries lead back. -/
theorem returned_of_storming (h : Storming s) :
    ∃ x seg s₁ t, Step s (.deliver x seg) s₁ ∧ Exchange s₁ t ∧ Returned s t := by
  obtain ⟨x, hflying⟩ := h.flying
  have hdeaf := h.deaf x.other
  rw [Side.other_other] at hdeaf
  obtain ⟨s₁, hstep, hecho⟩ := echo_of_rejects (s := s) (x := x.other)
    (by rwa [Side.other_other]) hdeaf
  have hback : (s.conn x.other).answer ∈ s₁.wire x.other := by
    rw [hecho.wire]
    exact Multiset.mem_add.mpr (.inr (Multiset.mem_singleton_self _))
  obtain ⟨t, hstep', hecho'⟩ := echo_of_rejects hback ((hecho.alike x).rejects_iff.mpr (h.deaf x))
  refine ⟨_, _, s₁, t, hstep, .deliver hstep' (.done t), ?_, forall_side x ?_ ?_⟩
  · exact fun z => (hecho.alike z).trans (hecho'.alike z)
  · have hother := hecho.wire_other
    rw [Side.other_other] at hother
    rw [hecho'.wire, hother, (hecho.alike x).answer, Multiset.add_comm, Multiset.singleton_add,
      Multiset.cons_erase hflying]
  · rw [hecho'.wire_other, hecho.wire, Multiset.add_comm, Multiset.singleton_add,
      Multiset.erase_cons_head]

/-- The handshake, without the last acknowledgement of the server. -/
def opened : List (Move Nat) :=
  [.deliver .server ⟨0#32, 0#32, 4096#16, .syn, []⟩,
   .deliver .client ⟨0#32, 1#32, 4096#16, .syn ||| .ack, []⟩,
   .deliver .server ⟨1#32, 1#32, 4096#16, .ack, []⟩]

/-- One side sends a full window. -/
def fills (x : Side) : List (Move Nat) :=
  List.replicate 8 (.act x (.callSend (List.replicate 512 7)))

end Flight

end TcpState
