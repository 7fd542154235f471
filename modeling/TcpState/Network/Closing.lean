import TcpState.Connection.CloseActive
import TcpState.Network.Delivery

/-!
# At least one side waits

For each endpoint of a joint run it is noted whether it closed its send
channel before the FIN of the peer came, and whether the close reduction took
it to Closed. A side that closes last has heard a FIN of the other side before
it sends its own, so the two sides cannot both close last.
-/

namespace TcpState

variable {Addr Time : Type}

namespace Connection

variable {c c' : Connection Addr Time}

/-- A FIN is put on the wire from a marked queue, or repeated. -/
theorem TxEffect.fins {op : Op Time} {out : Output} (effect : TxEffect c op out c')
    {s : SegmentMeta} (hs : s ∈ c'.userData.sent) (hfin : s.hasFin = true) :
    s ∈ c.userData.sent ∨ s ∈ c.tx.reTx ∨ c'.tx.tx.fin = true := by
  have noFin {f : SegmentFlags} (hflags : s.flags = f) (h : f.contains .fin = false) : False := by
    rw [SegmentMeta.hasFin, hflags, h] at hfin
    cases hfin
  have bare (hsize : s.data = [] ∧ s.seqSize = 0#32) : False := by
    have hzero := hsize.2
    rw [SegmentMeta.seqSize_eq, hsize.1, hfin] at hzero
    cases hsyn : s.hasSyn <;> rw [hsyn] at hzero <;> cases hzero
  have built {c₀ : Connection Addr Time} (h : TxSent c₀ c')
      (hsent : c₀.userData.sent = c.userData.sent) :
      s ∈ c.userData.sent ∨ s ∈ c.tx.reTx ∨ c'.tx.tx.fin = true := by
    rcases h.mem_sent hs with hmem | rfl
    · rw [hsent] at hmem
      exact .inl hmem
    · rw [outSegment_hasFin] at hfin
      rw [h.fin]
      exact .inr (.inr (sendsFin_iff.mp hfin).2.1)
  cases effect with
  | kept _ _ _ hsent hnew | acked _ _ _ _ _ _ hsent hnew =>
      rw [hsent, List.mem_append] at hs
      refine hs.imp_right fun hs => .inl ?_
      cases hnew s hs with
      | resend _ hmem => exact hmem
      | ack _ hflags => exact (noFin hflags rfl).elim
      | refusal _ _ hsize => exact (bare hsize).elim
  | cleared _ _ _ _ hsent hnew =>
      rw [hsent, List.mem_append] at hs
      refine hs.imp_right fun hs => .inl ?_
      cases hnew s hs with
      | resend _ hmem => exact hmem
      | abort _ hsize => exact (bare hsize).elim
      | stray hflags => exact (noFin hflags rfl).elim
  | connecting _ _ hc =>
      rw [hc.sent, List.mem_append, List.mem_singleton] at hs
      exact hs.imp_right fun heq => (noFin (f := .syn) (congrArg SegmentMeta.flags heq) rfl).elim
  | answered _ _ _ hc =>
      rw [hc.sent, List.mem_append, List.mem_singleton] at hs
      exact hs.imp_right fun heq => (noFin (f := .syn ||| .ack) (congrArg SegmentMeta.flags heq)
        (by decide)).elim
  | queued _ _ _ _ _ hsent =>
      rw [hsent] at hs
      exact .inl hs
  | appended _ _ _ _ _ _ h => exact built h rfl
  | marked _ _ _ _ _ _ _ _ hsent h => exact built h hsent
  | stored _ _ _ _ _ hsent h => exact built h hsent
  | @synAcked seg =>
      rw [synAcked_sent] at hs
      exact .inl hs
  | @opened seg _ _ _ _ _ _ _ h =>
      exact built h ((entered_sent (c.synAcked seg) .fullyOpen).trans (synAcked_sent c seg))

end Connection

/-- How the close of one side went. -/
structure Ending where
  /-- The send channel was closed before the FIN of the peer came. -/
  first : Bool
  /-- The close reduction took the side from Established to Closed. -/
  direct : Bool
deriving DecidableEq, Repr

/-- The note after an operation. -/
def Ending.after (m : Ending) (c : Connection Addr Time) (op : Op Time)
    (c' : Connection Addr Time) : Ending where
  first := m.first || (!c.tx.tx.fin && c'.tx.tx.fin && decide (c.connectionState.rx = .opened))
  direct := m.direct || decide (c.ClosesDirectly op c')

namespace Endpoint

variable {e : Endpoint Addr Time} {m : Ending} {heard : Prop}

/-- A FIN is on the wire. -/
def SentFin (e : Endpoint Addr Time) : Prop := ∃ s ∈ e.log, s.hasFin = true

/-- The side closed last: directly, or passively with its FIN marked. -/
def Late (e : Endpoint Addr Time) (m : Ending) : Prop :=
  m.direct = true ∨ e.state.passive = true ∧ e.conn.tx.tx.fin = true

/-- What holds of one side all along, where `heard` says that the other side
has sent a FIN. -/
structure Ends (e : Endpoint Addr Time) (m : Ending) (heard : Prop) : Prop where
  logged : ∀ s ∈ e.conn.tx.reTx, s ∈ e.log
  marked : e.SentFin → e.state.gone = true ∨ e.conn.tx.tx.fin = true
  late : e.state.passive = true → e.conn.tx.tx.fin = true → e.state.rx ≠ .opened
  hears : e.state.passive = true → e.state.rx ≠ .opened → heard
  direct : m.direct = true → e.state.gone = true ∧ heard
  first : m.first = true → e.state.passive = false ∧ e.state ≠ .listen
  apart : m.first = true → m.direct = false

namespace Ends

theorem mono {heard' : Prop} (h : Ends e m heard) (hh : heard → heard') : Ends e m heard' :=
  { h with
    hears := fun hp hr => hh (h.hears hp hr)
    direct := fun hd => (h.direct hd).imp_right hh }

/-- Who closes last has heard the other side close. -/
theorem heard_of_late (h : Ends e m heard) (hlate : e.Late m) : heard := by
  rcases hlate with hd | ⟨hp, hfin⟩
  · exact (h.direct hd).2
  · exact h.hears hp (h.late hp hfin)

variable [UserTime Time] {op : Op Time} {out : Output} {c' : Connection Addr Time}

/-- A passive side after a step was passive before. -/
theorem passive_of_step (hop : op ≠ .callConnect)
    (hc : e.conn.step op = .ok (c', out)) (hp : c'.connectionState.passive = true) :
    e.state = .listen ∧ c'.connectionState = .synReceived ∨ e.state.passive = true ∧
      (e.state.rx ≠ .opened → c'.connectionState.rx ≠ .opened) ∧
      (c'.connectionState.rx ≠ .opened → e.state.rx ≠ .opened ∨
        ∃ seg, op = .onSegment seg ∧ seg.hasFin = true) :=
  (Connection.follows_step hop hc).imp_right fun h => h hp

/-- A passive side with its FIN marked has heard the FIN of the peer before
the step. -/
theorem heard_before (h : Ends e m heard) (hwf : Connection.WellFormed e.conn)
    (hop : op ≠ .callConnect) (hc : e.conn.step op = .ok (c', out))
    (hp : c'.connectionState.passive = true) (hfin : c'.tx.tx.fin = true) :
    e.state.passive = true ∧ e.state.rx ≠ .opened ∧ c'.connectionState.rx ≠ .opened := by
  rcases passive_of_step hop hc hp with ⟨-, hrec⟩ | ⟨hwas, hkept, -⟩
  · rw [((hwf.step hc).early (by rw [hrec]; rfl)).1] at hfin
    cases hfin
  · have hrx : e.state.rx ≠ .opened := by
      rcases Connection.heard_of_marks hwf hc hp hfin with hfin₀ | hrx
      · exact h.late hwas hfin₀
      · exact hrx
    exact ⟨hwas, hrx, hkept hrx⟩

theorem step (h : Ends e m heard) (hwf : Connection.WellFormed e.conn) (hop : op ≠ .callConnect)
    (hc : e.conn.step op = .ok (c', out))
    (hsent : ∀ seg, op = .onSegment seg → seg.hasFin = true → heard) :
    Ends (e.after op c' out) (m.after e.conn op c') heard := by
  have effect := hwf.txEffect hc
  have hmoves := effect.moves hop
  have hpassive (hd : e.conn.ClosesDirectly op c') := hd.passive hop hc
  have synced (hfin : c'.tx.tx.fin = true) : c'.connectionState.synced = true := by
    by_contra hsync
    rw [((hwf.step hc).early (by simpa using hsync)).1] at hfin
    cases hfin
  have marksFirst (hf : (!e.conn.tx.tx.fin && c'.tx.tx.fin &&
      decide (e.conn.connectionState.rx = .opened)) = true) :
      c'.tx.tx.fin = true ∧ e.state.rx = .opened := by
    rw [Bool.and_eq_true, Bool.and_eq_true, decide_eq_true_iff] at hf
    exact ⟨hf.1.2, hf.2⟩
  constructor
  · exact effect.reTx_logged hop h.logged
  · rintro ⟨s, hs, hfin⟩
    rcases effect.fins hs hfin with hmem | hmem | hfin'
    · rcases h.marked ⟨s, hmem, hfin⟩ with hgone | hmark
      · exact .inl (hmoves.gone hgone)
      · exact effect.fin_kept hwf hop hmark
    · rcases h.marked ⟨s, h.logged s hmem, hfin⟩ with hgone | hmark
      · exact .inl (hmoves.gone hgone)
      · exact effect.fin_kept hwf hop hmark
    · exact .inr hfin'
  · intro hp hfin
    exact (h.heard_before hwf hop hc hp hfin).2.2
  · intro hp hrx
    rcases passive_of_step hop hc hp with ⟨-, hrec⟩ | ⟨hwas, -, hheard⟩
    · change c'.connectionState.rx ≠ .opened at hrx
      rw [hrec] at hrx
      exact absurd rfl hrx
    · rcases hheard hrx with hrx₀ | ⟨seg, heq, hfin⟩
      · exact h.hears hwas hrx₀
      · exact hsent seg heq hfin
  · intro hd
    rcases Bool.or_eq_true_iff.mp hd with hd | hd
    · exact (h.direct hd).imp_left hmoves.gone
    · obtain ⟨hp, hwrote⟩ := hpassive (of_decide_eq_true hd)
      refine ⟨?_, h.hears hp (h.late hp (hwf.wroteFin hwrote))⟩
      change c'.connectionState.gone = true
      rw [(of_decide_eq_true hd).2.1]
      rfl
  · intro hf
    rcases Bool.or_eq_true_iff.mp hf with hf | hf
    · obtain ⟨hactive, hlisten⟩ := h.first hf
      refine ⟨?_, fun hl => ?_⟩
      · by_contra hp
        rcases passive_of_step hop hc (eq_true_of_ne_false hp) with ⟨hl, -⟩ | ⟨hwas, -⟩
        · exact hlisten hl
        · exact absurd (hactive.symm.trans hwas) Bool.false_ne_true
      · rcases hmoves.of_listen hl with hl | ⟨hrec, -⟩
        · exact hlisten hl
        · rw [Endpoint.state, hrec] at hactive
          cases hactive
    · obtain ⟨hfin, hrx⟩ := marksFirst hf
      refine ⟨?_, fun hl => ?_⟩
      · by_contra hp
        exact (h.heard_before hwf hop hc (eq_true_of_ne_false hp) hfin).2.1 hrx
      · have hsync := synced hfin
        rw [show c'.connectionState = .listen from hl] at hsync
        cases hsync
  · intro hf
    by_contra hd
    have hd : (m.after e.conn op c').direct = true := by simpa using hd
    have hgone : c'.connectionState.gone = true := by
      rcases Bool.or_eq_true_iff.mp hd with hd | hd
      · exact hmoves.gone (h.direct hd).1
      · rw [(of_decide_eq_true hd).2.1]
        rfl
    rcases Bool.or_eq_true_iff.mp hf with hf | hf
    · rcases Bool.or_eq_true_iff.mp hd with hd | hd
      · exact absurd ((h.apart hf).symm.trans hd) Bool.false_ne_true
      · exact absurd ((h.first hf).1.symm.trans (hpassive (of_decide_eq_true hd)).1)
          Bool.false_ne_true
    · have hidle := ConnectionState.not_idle_of_synced (synced (marksFirst hf).1)
      exact absurd (hidle.symm.trans (ConnectionState.idle_of_gone hgone)) Bool.false_ne_true

/-- Who closes last only now has heard the other side close, and has not sent
a FIN before. -/
theorem late_step (h : Ends e m heard) (hwf : Connection.WellFormed e.conn)
    (hop : op ≠ .callConnect) (hc : e.conn.step op = .ok (c', out))
    (hlate : (e.after op c' out).Late (m.after e.conn op c')) :
    e.Late m ∨ heard ∧ ¬ e.SentFin := by
  rcases hlate with hd | ⟨hp, hfin⟩
  · rcases Bool.or_eq_true_iff.mp hd with hd | hd
    · exact .inl (.inl hd)
    · obtain ⟨hp, hwrote⟩ := (of_decide_eq_true hd).passive hop hc
      exact .inl (.inr ⟨hp, hwf.wroteFin hwrote⟩)
  · obtain ⟨hwas, hrx, -⟩ := h.heard_before hwf hop hc hp hfin
    by_cases hmark : e.conn.tx.tx.fin = true
    · exact .inl (.inr ⟨hwas, hmark⟩)
    · refine .inr ⟨h.hears hwas hrx, fun hsent => ?_⟩
      rcases h.marked hsent with hgone | hmark'
      · rw [ConnectionState.not_gone_of_passive hwas] at hgone
        cases hgone
      · exact hmark hmark'

end Ends

end Endpoint

namespace Net

variable {n n' : Net Addr Time} {ends : Side → Ending}

variable [UserTime Time]

/-- The joint runs with the note of each side. -/
def endings (Addr Time : Type) [UserTime Time] :
    Transition.System (Net Addr Time × (Side → Ending)) (Side × Op Time) where
  init s := Initial s.1 ∧ s.2 = fun _ => ⟨false, false⟩
  step s i s' := (system Addr Time).step s.1 i s'.1 ∧
    s'.2 = Function.update s.2 i.1 ((s.2 i.1).after (s.1.get i.1).conn i.2 (s'.1.get i.1).conn)

theorem reachable_of_endings {s : Net Addr Time × (Side → Ending)}
    (run : Transition.Reachable (endings Addr Time) s) : Reachable s.1 := by
  induction run with
  | start h => exact .start h.1
  | next _ _ hs ih => exact ih.step hs.1

/-- The noted step as a partial function. -/
def endingsNext (s : Net Addr Time × (Side → Ending)) (i : Side × Op Time) :
    Option (Net Addr Time × (Side → Ending)) :=
  (s.1.next i).map fun n' =>
    (n', Function.update s.2 i.1 ((s.2 i.1).after (s.1.get i.1).conn i.2 (n'.get i.1).conn))

theorem step_of_endingsNext (s : Net Addr Time × (Side → Ending)) (i : Side × Op Time)
    (s' : Net Addr Time × (Side → Ending)) (h : endingsNext s i = some s') :
    (endings Addr Time).step s i s' := by
  obtain ⟨n', hn, rfl⟩ := Option.map_eq_some_iff.mp h
  exact ⟨step_of_next s.1 i n' hn, rfl⟩

theorem init_endings (h : Initial n) :
    (endings Addr Time).init (n, fun _ => ⟨false, false⟩) := ⟨h, rfl⟩

/-- What the sides know of each other, and that at most one closes last. -/
structure Parts (n : Net Addr Time) (ends : Side → Ending) : Prop where
  side : ∀ x, (n.get x).Ends (ends x) (n.get x.other).SentFin
  once : ∀ x, (n.get x).Late (ends x) → ¬ (n.get x.other).Late (ends x.other)

namespace Parts

omit [UserTime Time] in
/-- A side that has not marked its queue, on a wire without FIN. -/
theorem starts {e : Endpoint Addr Time} {heard : Prop} (hlogged : ∀ s ∈ e.conn.tx.reTx, s ∈ e.log)
    (hnoFin : ∀ s ∈ e.log, s.hasFin = false) (hfin : e.conn.tx.tx.fin = false)
    (hrx : e.state.passive = true → e.state.rx = .opened) : e.Ends ⟨false, false⟩ heard where
  logged := hlogged
  marked := fun ⟨s, hs, h⟩ => absurd ((hnoFin s hs).symm.trans h) Bool.false_ne_true
  late := fun _ h => absurd (hfin.symm.trans h) Bool.false_ne_true
  hears := fun hp hr => absurd (hrx hp) hr
  direct := fun h => absurd h Bool.false_ne_true
  first := fun h => absurd h Bool.false_ne_true
  apart := fun _ => rfl

theorem of_initial (h : Initial n) : Parts n fun _ => ⟨false, false⟩ := by
  have hjoint := Joint.of_initial h
  obtain ⟨⟨remote, options, userData, c, r, hsent, hc, hclient⟩,
    ⟨addr, options', userData', hsent', hserver⟩⟩ := h
  have hnew : Connection.WellFormed { Connection.new remote userData with options := options } :=
    (Connection.Initial.wellFormed (.inl ⟨remote, userData, rfl⟩)).congr rfl rfl rfl rfl rfl
      (Connection.dataWaiters_congr rfl)
  obtain ⟨s, hflags, -, hst, hlog, -⟩ := Joint.client_start hnew rfl hsent hc
  have hnoFin (x : Side) : ∀ g ∈ (n.get x).log, g.hasFin = false := by
    intro g hg
    cases x with
    | client =>
        rw [Net.get, hclient] at hg
        rw [Endpoint.log, Endpoint.start, hlog, List.mem_singleton] at hg
        rw [hg, SegmentMeta.hasFin, hflags]
        decide
    | server =>
        rw [Net.get, hserver] at hg
        rw [Endpoint.log, Endpoint.start, show (Connection.listening addr options'
          userData').userData.sent = [] from hsent'] at hg
        cases hg
  have hearly (x : Side) : (n.get x).state.synced = false ∧ ((n.get x).state.passive = true →
      (n.get x).state.rx = .opened) := by
    cases x with
    | client =>
        rw [Net.get, hclient, Endpoint.state, Endpoint.start, hst]
        exact ⟨rfl, fun _ => rfl⟩
    | server =>
        rw [Net.get, hserver]
        exact ⟨rfl, fun h => absurd h Bool.false_ne_true⟩
  have hfin (x : Side) : (n.get x).conn.tx.tx.fin = false :=
    ((hjoint.wellFormed x).early (hearly x).1).1
  refine ⟨fun x => starts (hjoint.logged x) (hnoFin x) (hfin x) (hearly x).2, fun x => ?_⟩
  rintro (hd | ⟨-, h⟩)
  · cases hd
  · rw [hfin x] at h
    cases h

theorem step {x : Side} {op : Op Time} (h : Parts n ends) (run : Reachable n)
    (hs : (system Addr Time).step n (x, op) n') :
    Parts n' (Function.update ends x
      ((ends x).after (n.get x).conn op (n'.get x).conn)) := by
  obtain ⟨hperm, c', out, hc, rfl⟩ := hs
  change (n.get x).conn.step op = .ok (c', out) at hc
  have hop : op ≠ .callConnect := by
    rintro rfl
    exact hperm
  have hwf := Connection.Reachable.wellFormed (Reachable.conn run x)
  have hsent (seg : SegmentMeta) (heq : op = .onSegment seg) (hfin : seg.hasFin = true) :
      (n.get x.other).SentFin := by
    rw [heq] at hperm
    exact ⟨seg, hperm, hfin⟩
  have hother : x.other ≠ x := by cases x <;> decide
  have hback : x.other.other = x := by cases x <;> rfl
  have hself := (h.side x).step hwf hop hc hsent
  have hgrows : (n.get x).SentFin → ((n.get x).after op c' out).SentFin := fun ⟨s, hs, hfin⟩ =>
    ⟨s, (hwf.txEffect hc).sent_isPrefix.subset hs, hfin⟩
  have hlate : ((n.get x).after op c' out).Late ((ends x).after (n.get x).conn op c') →
      ¬ (n.get x.other).Late (ends x.other) := by
    intro hx hy
    rcases (h.side x).late_step hwf hop hc hx with hwas | ⟨-, hno⟩
    · exact h.once x hwas hy
    · have hheard := (h.side x.other).heard_of_late hy
      rw [hback] at hheard
      exact hno hheard
  have split {P : Side → Prop} (hx : P x) (hy : P x.other) (z : Side) : P z := by
    cases x <;> cases z <;> assumption
  rw [get_set]
  constructor
  · refine split ?_ ?_
    · rw [get_set, get_set_other, Function.update_self]
      exact hself
    · rw [get_set_other, hback, get_set, Function.update_of_ne hother]
      have hside := h.side x.other
      rw [hback] at hside
      exact hside.mono hgrows
  · refine split ?_ ?_
    · rw [get_set, get_set_other, Function.update_self, Function.update_of_ne hother]
      exact hlate
    · rw [get_set_other, hback, get_set, Function.update_self, Function.update_of_ne hother]
      exact fun hy hx => hlate hx hy

theorem of_reachable (run : Transition.Reachable (endings Addr Time) (n, ends)) :
    Parts n ends := by
  refine Transition.ReachableUnder.invariant (P := fun s => Parts s.1 s.2) ?_ ?_ run
  · rintro ⟨n, ends⟩ ⟨hinit, rfl⟩
    exact of_initial hinit
  · rintro ⟨n, ends⟩ ⟨x, op⟩ ⟨n', ends'⟩ hreach ih - ⟨hs, hends⟩
    change Parts n' ends'
    rw [show ends' = _ from hends]
    exact ih.step (reachable_of_endings hreach) hs

end Parts

/-- At least one side waits: the two sides never both close directly, and a
side that closed before it heard the other close never does. -/
theorem one_side_waits (run : Transition.Reachable (endings Addr Time) (n, ends)) :
    ¬ ((ends .client).direct = true ∧ (ends .server).direct = true) ∧
      ∀ x, (ends x).first = true → (ends x).direct = false := by
  have h := Parts.of_reachable run
  refine ⟨fun hboth => ?_, fun x => (h.side x).apart⟩
  exact h.once .client (.inl hboth.1) (.inl hboth.2)

/-- The client closes first and waits, the server goes to Closed. -/
theorem one_side_waits_server : ∃ (n : Net Unit Nat) (ends : Side → Ending),
    n.client.state = .timeWait ∧ n.server.state = .closed ∧ (ends .client).first = true ∧
      (ends .server).direct = true ∧
      ¬ ((ends .client).direct = true ∧ (ends .server).direct = true) := by
  obtain ⟨⟨n, ends⟩, run, hclient, hserver, hfirst, hdirect⟩ :
      ∃ s : Net Unit Nat × (Side → Ending), Transition.Reachable (endings Unit Nat) s ∧
        s.1.client.state = .timeWait ∧ s.1.server.state = .closed ∧
        (s.2 .client).first = true ∧ (s.2 .server).direct = true :=
    Transition.exists_reachableUnder step_of_endingsNext (init_endings initial_zeroStart)
      [(.server, .onSegment ⟨0#32, 0#32, 4096#16, .syn, []⟩),
       (.client, .onSegment ⟨0#32, 1#32, 4096#16, .syn ||| .ack, []⟩),
       (.server, .onSegment ⟨1#32, 1#32, 4096#16, .ack, []⟩), (.client, .callClose),
       (.server, .onSegment ⟨1#32, 1#32, 4096#16, .fin ||| .ack, []⟩), (.server, .callRecv 1),
       (.server, .callClose),
       (.client, .onSegment ⟨1#32, 2#32, 0#16, .fin ||| .ack, []⟩), (.client, .callRecv 1),
       (.server, .onSegment ⟨2#32, 2#32, 0#16, .ack, []⟩)] (by decide)
  exact ⟨n, ends, hclient, hserver, hfirst, hdirect, (one_side_waits run).1⟩

end Net

end TcpState
