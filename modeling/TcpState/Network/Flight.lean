import TcpState.Network.Closing

/-!
# Copies under way

Between two endpoints every segment sent is one copy under way. A copy is
delivered, lost or duplicated, in any order. Without the count of copies this
is a joint run.
-/

namespace TcpState

/-- The calls and ticks that may happen at a side of a joint run. -/
def Op.isLocal {Time : Type} : Op Time → Bool
  | .callConnect | .onSegment _ => false
  | _ => true

/-- The segments a step put on the wire, repetitions included. -/
def Connection.emitted {Addr Time : Type} (c c' : Connection Addr Time) : List SegmentMeta :=
  c'.userData.sent.drop c.userData.sent.length

inductive Move (Time : Type)
  /-- A call or a tick at one side. -/
  | act (x : Side) (op : Op Time)
  /-- A copy arrives at a side. -/
  | deliver (x : Side) (seg : SegmentMeta)
  /-- A copy that a side has sent is lost. -/
  | lose (x : Side) (seg : SegmentMeta)
  /-- A copy that a side has sent is duplicated. -/
  | duplicate (x : Side) (seg : SegmentMeta)

/-- The joint state with the copies under way, by the side that sent them. -/
structure Flight (Addr Time : Type) where
  net : Net Addr Time
  wire : Side → Multiset SegmentMeta

theorem Side.other_ne (x : Side) : x.other ≠ x := by cases x <;> decide

@[simp] theorem Side.other_other (x : Side) : x.other.other = x := by cases x <;> rfl

namespace Flight

variable {Addr Time : Type}

abbrev conn (s : Flight Addr Time) (x : Side) : Connection Addr Time := (s.net.get x).conn

/-- An operation at one side: what it sends is under way. -/
def after (s : Flight Addr Time) (x : Side) (op : Op Time) (c' : Connection Addr Time)
    (out : Output) : Flight Addr Time where
  net := s.net.set x ((s.net.get x).after op c' out)
  wire := Function.update s.wire x (s.wire x + ((s.conn x).emitted c' : Multiset SegmentMeta))

/-- One copy less. -/
def take (s : Flight Addr Time) (x : Side) (seg : SegmentMeta) : Flight Addr Time where
  net := s.net
  wire := Function.update s.wire x ((s.wire x).erase seg)

/-- One copy more. -/
def copy (s : Flight Addr Time) (x : Side) (seg : SegmentMeta) : Flight Addr Time where
  net := s.net
  wire := Function.update s.wire x (seg ::ₘ s.wire x)

variable [UserTime Time]

inductive Step (s : Flight Addr Time) : Move Time → Flight Addr Time → Prop
  | act {x : Side} {op : Op Time} {c' : Connection Addr Time} {out : Output}
      (hop : op.isLocal = true) (hc : (s.conn x).step op = .ok (c', out)) :
      Step s (.act x op) (s.after x op c' out)
  | deliver {x : Side} {seg : SegmentMeta} {c' : Connection Addr Time} {out : Output}
      (hmem : seg ∈ s.wire x.other) (hc : (s.conn x).step (.onSegment seg) = .ok (c', out)) :
      Step s (.deliver x seg) ((s.take x.other seg).after x (.onSegment seg) c' out)
  | lose {x : Side} {seg : SegmentMeta} (hmem : seg ∈ s.wire x) :
      Step s (.lose x seg) (s.take x seg)
  | duplicate {x : Side} {seg : SegmentMeta} (hmem : seg ∈ s.wire x) :
      Step s (.duplicate x seg) (s.copy x seg)

/-- The joint runs over a wire that keeps count of its copies. -/
def system (Addr Time : Type) [UserTime Time] :
    Transition.System (Flight Addr Time) (Move Time) where
  init s := s.net.Initial ∧ ∀ x, s.wire x = ((s.net.get x).log : Multiset SegmentMeta)
  step := Step

abbrev Reachable (s : Flight Addr Time) : Prop := Transition.Reachable (system Addr Time) s

abbrev ReachableUnder (allowed : Flight Addr Time → Move Time → Prop) (s : Flight Addr Time) :
    Prop := Transition.ReachableUnder (system Addr Time) allowed s

/-- The step as a partial function. -/
def next (s : Flight Addr Time) : Move Time → Option (Flight Addr Time)
  | .act x op =>
      if op.isLocal then
        match (s.conn x).step op with
        | .ok (c', out) => some (s.after x op c' out)
        | .error _ => none
      else none
  | .deliver x seg =>
      if seg ∈ s.wire x.other then
        match (s.conn x).step (.onSegment seg) with
        | .ok (c', out) => some ((s.take x.other seg).after x (.onSegment seg) c' out)
        | .error _ => none
      else none
  | .lose x seg => if seg ∈ s.wire x then some (s.take x seg) else none
  | .duplicate x seg => if seg ∈ s.wire x then some (s.copy x seg) else none

theorem step_of_next (s : Flight Addr Time) (m : Move Time) (s' : Flight Addr Time)
    (h : s.next m = some s') : (system Addr Time).step s m s' := by
  unfold next at h
  split at h
  · split at h
    · rename_i hop
      split at h
      · rename_i hc
        obtain rfl := Option.some.inj h
        exact .act hop hc
      · cases h
    · cases h
  · split at h
    · rename_i hmem
      split at h
      · rename_i hc
        obtain rfl := Option.some.inj h
        exact .deliver hmem hc
      · cases h
    · cases h
  · split at h
    · rename_i hmem
      obtain rfl := Option.some.inj h
      exact .lose hmem
    · cases h
  · split at h
    · rename_i hmem
      obtain rfl := Option.some.inj h
      exact .duplicate hmem
    · cases h

section Wire

variable (s : Flight Addr Time) (x : Side) (op : Op Time) (c' : Connection Addr Time)
  (out : Output) (seg : SegmentMeta)

omit [UserTime Time]

theorem wire_after : (s.after x op c' out).wire x =
    s.wire x + ((s.conn x).emitted c' : Multiset SegmentMeta) := Function.update_self _ _ _

theorem wire_after_other : (s.after x op c' out).wire x.other = s.wire x.other :=
  Function.update_of_ne x.other_ne _ _

theorem wire_take : (s.take x seg).wire x = (s.wire x).erase seg := Function.update_self _ _ _

theorem wire_take_other : (s.take x seg).wire x.other = s.wire x.other :=
  Function.update_of_ne x.other_ne _ _

theorem wire_copy : (s.copy x seg).wire x = seg ::ₘ s.wire x := Function.update_self _ _ _

theorem wire_copy_other : (s.copy x seg).wire x.other = s.wire x.other :=
  Function.update_of_ne x.other_ne _ _

theorem conn_after : (s.after x op c' out).conn x = c' := by
  rw [conn, after, Net.get_set]
  rfl

theorem conn_after_other : (s.after x op c' out).conn x.other = s.conn x.other := by
  rw [conn, after, Net.get_set_other]

end Wire

omit [UserTime Time] in
/-- What holds of one side and of the other holds of every side. -/
theorem forall_side {P : Side → Prop} (x : Side) (hx : P x) (hy : P x.other) (z : Side) : P z := by
  cases x <;> cases z <;> assumption

/-- Every copy under way was sent. -/
def Logged (s : Flight Addr Time) : Prop := ∀ x, ∀ seg ∈ s.wire x, seg ∈ (s.net.get x).log

theorem Step.net {s s' : Flight Addr Time} {m : Move Time} (h : Step s m s') (hlog : s.Logged) :
    s'.net = s.net ∨ ∃ i, (Net.system Addr Time).step s.net i s'.net := by
  cases h with
  | @act x op c' out hop hc =>
      refine .inr ⟨(x, op), ?_, c', out, hc, rfl⟩
      cases op <;> first | exact True.intro | exact absurd hop Bool.false_ne_true
  | @deliver x seg c' out hmem hc =>
      exact .inr ⟨(x, .onSegment seg), hlog x.other seg hmem, c', out, hc, rfl⟩
  | lose => exact .inl rfl
  | duplicate => exact .inl rfl

/-- What a step sends is in the log after it. -/
theorem logged_after {s t : Flight Addr Time} {x : Side} {op : Op Time}
    {c' : Connection Addr Time} {out : Output} (hwf : Connection.WellFormed (s.conn x))
    (hc : (s.conn x).step op = .ok (c', out)) (hnet : t.net = s.net) (hlog : t.Logged) :
    (t.after x op c' out).Logged := by
  refine forall_side x (fun seg hseg => ?_) (fun seg hseg => ?_)
  · rw [wire_after, Multiset.mem_add, Multiset.mem_coe] at hseg
    rw [after, Net.get_set]
    rcases hseg with hold | hnew
    · have hmem := hlog x seg hold
      rw [hnet] at hmem
      exact (hwf.txEffect hc).sent_isPrefix.subset hmem
    · exact List.mem_of_mem_drop hnew
  · rw [wire_after_other] at hseg
    rw [after, Net.get_set_other]
    exact hlog x.other seg hseg

omit [UserTime Time] in
theorem logged_take {s : Flight Addr Time} (hlog : s.Logged) (x : Side) (seg : SegmentMeta) :
    (s.take x seg).Logged := by
  refine forall_side x (fun g hg => ?_) (fun g hg => ?_)
  · rw [wire_take] at hg
    exact hlog x g (Multiset.mem_of_mem_erase hg)
  · rw [wire_take_other] at hg
    exact hlog x.other g hg

theorem Step.logged {s s' : Flight Addr Time} {m : Move Time} (h : Step s m s') (hlog : s.Logged)
    (hwf : ∀ x, Connection.WellFormed (s.conn x)) : s'.Logged := by
  cases h with
  | @act x _ _ _ _ hc => exact logged_after (hwf x) hc rfl hlog
  | @deliver x seg _ _ _ hc => exact logged_after (hwf x) hc rfl (logged_take hlog x.other seg)
  | lose => exact logged_take hlog _ _
  | @duplicate x seg hmem =>
      refine forall_side x (fun g hg => ?_) (fun g hg => ?_)
      · rw [wire_copy, Multiset.mem_cons] at hg
        rcases hg with rfl | hg
        · exact hlog x g hmem
        · exact hlog x g hg
      · rw [wire_copy_other] at hg
        exact hlog x.other g hg

/-- The wire only chooses among the joint runs. -/
theorem Reachable.joint {s : Flight Addr Time} (run : Reachable s) :
    Net.Reachable s.net ∧ s.Logged := by
  induction run with
  | @start s h =>
      refine ⟨.start h.1, fun x seg hseg => ?_⟩
      rw [h.2 x, Multiset.mem_coe] at hseg
      exact hseg
  | @next s _ _ _ _ hs ih =>
      obtain ⟨hnet, hlog⟩ := ih
      have hwf (x : Side) := Connection.Reachable.wellFormed (Net.Reachable.conn hnet x)
      refine ⟨?_, hs.logged hlog hwf⟩
      rcases hs.net hlog with heq | ⟨i, hstep⟩
      · rw [heq]
        exact hnet
      · exact hnet.step hstep

theorem Reachable.conn {s : Flight Addr Time} (run : Reachable s) (x : Side) :
    Connection.Reachable (s.conn x) := Net.Reachable.conn run.joint.1 x

end Flight

end TcpState
