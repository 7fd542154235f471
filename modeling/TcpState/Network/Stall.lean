import TcpState.Network.Flight
import TcpState.Network.Windows

/-!
# A closed window

No segment announces that a read has opened a closed window, and no timer asks
for it. As long as no read does so, a sender that waits for nothing in flight
waits for a full receiver.
-/

namespace TcpState

open Connection (Honest KeepsGoing ToldBy)

namespace Flight

variable {Addr Time : Type}

/-- No read opens a closed window, and neither sender strands. -/
def StaysTold (s : Flight Addr Time) : Move Time → Prop
  | .act x (.callRecv bufferLen) => ¬ (s.conn x).Reopens bufferLen
  | .act x op => (s.conn x).KeepsGoing op
  | .deliver x seg => (s.conn x).KeepsGoing (.onSegment seg)
  | .lose _ _ | .duplicate _ _ => True

instance (s : Flight Addr Time) : DecidablePred s.StaysTold
  | .act x (.callRecv bufferLen) =>
      inferInstanceAs (Decidable (¬ (s.conn x).Reopens bufferLen))
  | .act x (.callSend inputData) =>
      inferInstanceAs (Decidable ((s.conn x).KeepsGoing (.callSend inputData)))
  | .act x (.onSegment seg) => inferInstanceAs (Decidable ((s.conn x).KeepsGoing (.onSegment seg)))
  | .act _ .callConnect | .act _ .callShutdown | .act _ .callClose | .act _ .callAbort
  | .act _ (.setOptions _) | .act _ (.onTimeTick _) => .isTrue trivial
  | .deliver x seg => inferInstanceAs (Decidable ((s.conn x).KeepsGoing (.onSegment seg)))
  | .lose _ _ | .duplicate _ _ => .isTrue trivial

/-- Both connections are open without Nagle delay, no segment is under way and
none waits for its acknowledgement. -/
structure Quiet (s : Flight Addr Time) : Prop where
  established : ∀ x, (s.conn x).connectionState.isEstablished = true
  nagle : ∀ x, (s.conn x).options.nagleDelay = .zero
  wire : ∀ x, s.wire x = 0
  reTx : ∀ x, (s.conn x).tx.reTx = []

/-- Once all is quiet, an endpoint with unsent bytes faces a closed window. -/
def NoDeadlock (s : Flight Addr Time) : Prop :=
  s.Quiet → ∀ x, (s.conn x).tx.tx.bytes ≠ [] → (s.conn x.other).rx.currWindow = 0#16

variable [UserTime Time] {s s' : Flight Addr Time} {m : Move Time}

/-- A move is an operation at one side or leaves both connections alone. -/
theorem Step.conn (h : Step s m s') (hlog : s.Logged) (hallowed : s.StaysTold m) :
    s'.net = s.net ∨ ∃ x op c' out, op ≠ .callConnect ∧
      (∀ seg, op = .onSegment seg → seg ∈ (s.net.get x.other).log) ∧ (s.conn x).KeepsGoing op ∧
      (∀ bufferLen, op = .callRecv bufferLen → ¬ (s.conn x).Reopens bufferLen) ∧
      (s.conn x).step op = .ok (c', out) ∧
      s'.net = s.net.set x ((s.net.get x).after op c' out) := by
  cases h with
  | @act x op c' out hop hc =>
      refine .inr ⟨x, op, c', out, ?_, ?_, ?_, ?_, hc, rfl⟩
      · rintro rfl
        cases hop
      · rintro seg rfl
        cases hop
      · cases op <;> first | exact hallowed | exact trivial
      · rintro bufferLen rfl
        exact hallowed
  | @deliver x seg c' out hmem hc =>
      refine .inr ⟨x, .onSegment seg, c', out, nofun, ?_, hallowed, nofun, hc, rfl⟩
      rintro g hg
      obtain rfl := Op.onSegment.inj hg
      exact hlog x.other seg hmem
  | lose => exact .inl rfl
  | duplicate => exact .inl rfl

/-- What the two sides know of each other's windows. -/
structure Windowed (n : Net Addr Time) : Prop where
  goes : ∀ x, Connection.ReachableUnder KeepsGoing (n.get x).conn
  logged : ∀ x, ∀ seg ∈ (n.get x).conn.tx.reTx, seg ∈ (n.get x).log
  honest : ∀ x, Honest (n.get x).conn
  told : ∀ x, ToldBy (n.get x).conn (n.get x.other).log

theorem Windowed.of_initial {n : Net Addr Time} (h : n.Initial) : Windowed n := by
  have hjoint := Net.Joint.of_initial h
  obtain ⟨⟨remote, options, userData, c, r, hsent, hc, hclient⟩,
    ⟨addr, options', userData', hsent', hserver⟩⟩ := h
  have hnew : Connection.ReachableUnder KeepsGoing
      (Connection.new remote userData : Connection Addr Time) := .start (.inl ⟨_, _, rfl⟩)
  have hset : Connection.ReachableUnder KeepsGoing
      { (Connection.new remote userData : Connection Addr Time) with options := options } :=
    hnew.next (i := .setOptions options) trivial ⟨.none, rfl⟩
  have hstep : { (Connection.new remote userData : Connection Addr Time) with
      options := options }.step .callConnect = .ok (c, .call r) := by
    simp only [Connection.step, hc]
    rfl
  have hwf := Connection.Reachable.wellFormed hset.reachable
  have hstate : c.connectionState = .synSent := by
    cases Connection.connectStep_of_ok hc with
    | refused hs => exact absurd rfl hs.1
    | connecting _ hsyn => exact hsyn.state
  constructor
  · rintro (_ | _)
    · rw [Net.get, hclient]
      exact hset.next (i := .callConnect) trivial ⟨_, hstep⟩
    · rw [Net.get, hserver]
      exact .start (Connection.initial_listening addr options' userData')
  · exact hjoint.logged
  · rintro (_ | _)
    · rw [Net.get, hclient]
      exact (Connection.shows_step hstep).honest hsent rfl (hwf.step hstep)
    · rw [Net.get, hserver]
      intro g hg
      rw [show (Endpoint.start (Connection.listening addr options' userData')).conn.userData.sent =
        [] from hsent'] at hg
      cases hg
  · rintro (_ | _)
    · rw [Net.get, hclient]
      refine fun hs => absurd hs ?_
      simp [Endpoint.start, Connection.Peered, hstate, ConnectionState.synced]
    · rw [Net.get, hserver]
      exact fun hs => absurd hs (Connection.not_peered_of_idle rfl)

theorem Windowed.step {n : Net Addr Time} (h : Windowed n) {x : Side} {op : Op Time}
    {c' : Connection Addr Time} {out : Output} (hop : op ≠ .callConnect)
    (hsent : ∀ seg, op = .onSegment seg → seg ∈ (n.get x.other).log)
    (hgoing : (n.get x).conn.KeepsGoing op)
    (hno : ∀ bufferLen, op = .callRecv bufferLen → ¬ (n.get x).conn.Reopens bufferLen)
    (hc : (n.get x).conn.step op = .ok (c', out)) :
    Windowed (n.set x ((n.get x).after op c' out)) := by
  have hwf := Connection.Reachable.wellFormed (h.goes x).reachable
  have htx := hwf.txEffect hc
  constructor
  · refine forall_side x ?_ ?_
    · rw [Net.get_set]
      exact (h.goes x).next hgoing ⟨out, hc⟩
    · rw [Net.get_set_other]
      exact h.goes x.other
  · refine forall_side x ?_ ?_
    · rw [Net.get_set]
      exact htx.reTx_logged hop (h.logged x)
    · rw [Net.get_set_other]
      exact h.logged x.other
  · refine forall_side x ?_ ?_
    · rw [Net.get_set]
      exact (h.honest x).step hwf (h.logged x) hc hop hno
    · rw [Net.get_set_other]
      exact h.honest x.other
  · refine forall_side x ?_ ?_
    · rw [Net.get_set, Net.get_set_other]
      exact (h.told x).step hwf hc hop hsent
    · rw [Net.get_set_other, Side.other_other, Net.get_set]
      have hback := h.told x.other
      rw [Side.other_other] at hback
      exact hback.mono htx.sent_isPrefix.subset

theorem windowed_of_reachable (run : ReachableUnder StaysTold s) : Windowed s.net := by
  refine Transition.ReachableUnder.invariant (P := fun s : Flight Addr Time => Windowed s.net)
    ?_ ?_ run
  · rintro s ⟨hinit, -⟩
    exact .of_initial hinit
  · intro s m s' hreach hp hallowed hs
    rcases Step.conn hs (Reachable.joint hreach).2 hallowed with
      heq | ⟨x, op, c', out, hop, hsent, hgoing, hno, hc, heq⟩
    · rw [heq]
      exact hp
    · rw [heq]
      exact hp.step hop hsent hgoing hno hc

/-- As long as no read opens a closed window and neither sender strands, a
sender that waits for nothing in flight faces a closed window. -/
theorem no_deadlock (run : ReachableUnder StaysTold s) : s.NoDeadlock := by
  intro hquiet x hbytes
  have h := windowed_of_reachable run
  have hsync (z : Side) : (s.conn z).connectionState.synced = true :=
    ConnectionState.synced_of_isEstablished (hquiet.established z)
  have hclosed : (s.conn x).tx.window = 0#16 := by
    by_contra hopen
    exact Connection.busy_of_reachable (h.goes x) hbytes hopen (hquiet.reTx x)
  obtain ⟨g, hg, hrst, hzero⟩ := h.told x (.inl (hsync x)) hclosed
  rcases h.honest x.other g hg hrst hzero with hgone | ⟨-, hshut⟩
  · have hidle := ConnectionState.idle_of_gone hgone
    rw [ConnectionState.not_idle_of_synced (hsync x.other)] at hidle
    cases hidle
  · exact hshut

/-- Two endpoints whose initial sequence numbers and clocks are zero. -/
def zeroStart : Flight Unit Nat where
  net := Net.zeroStart
  wire x := (Net.zeroStart.get x).log

theorem init_zeroStart : (system Unit Nat).init zeroStart := ⟨Net.initial_zeroStart, fun _ => rfl⟩

/-- The client sends one byte more than the server holds, and everything it
sends is delivered and acknowledged. -/
def overfull : List (Move Nat) :=
  [.deliver .server ⟨0#32, 0#32, 4096#16, .syn, []⟩,
   .deliver .client ⟨0#32, 1#32, 4096#16, .syn ||| .ack, []⟩,
   .deliver .server ⟨1#32, 1#32, 4096#16, .ack, []⟩,
   .deliver .client ⟨1#32, 1#32, 4096#16, .ack, []⟩,
   .act .client (.callSend (List.replicate 4097 7))] ++
  ((List.range 8).flatMap fun k =>
    [.deliver .server ⟨BitVec.ofNat 32 (1 + 512 * k), 1#32, 4096#16, .ack, List.replicate 512 7⟩,
     .deliver .client ⟨1#32, BitVec.ofNat 32 (513 + 512 * k),
       BitVec.ofNat 16 (3584 - 512 * k), .ack, []⟩]) ++
  [.deliver .server ⟨4097#32, 1#32, 4096#16, .ack, []⟩]

set_option maxRecDepth 20000 in
/-- The client waits with its last byte for a full server. -/
theorem no_deadlock_full : ∃ s : Flight Unit Nat, s.Quiet ∧
    (s.conn .client).tx.tx.bytes = [7] ∧ (s.conn .server).rx.currWindow = 0#16 := by
  obtain ⟨s, run, ⟨hest, hest'⟩, ⟨hnagle, hnagle'⟩, ⟨hwire, hwire'⟩, ⟨hre, hre'⟩, hbytes⟩ :
      ∃ s : Flight Unit Nat, ReachableUnder StaysTold s ∧
        ((s.conn .client).connectionState.isEstablished = true ∧
          (s.conn .server).connectionState.isEstablished = true) ∧
        ((s.conn .client).options.nagleDelay = .zero ∧
          (s.conn .server).options.nagleDelay = .zero) ∧
        (s.wire .client = 0 ∧ s.wire .server = 0) ∧
        ((s.conn .client).tx.reTx = [] ∧ (s.conn .server).tx.reTx = []) ∧
        (s.conn .client).tx.tx.bytes = [7] :=
    Transition.exists_reachableUnder step_of_next init_zeroStart overfull (by decide +kernel)
  have hquiet : s.Quiet := ⟨forall_side .client hest hest', forall_side .client hnagle hnagle',
    forall_side .client hwire hwire', forall_side .client hre hre'⟩
  have hsome : (s.conn .client).tx.tx.bytes ≠ [] := by
    rw [hbytes]
    exact List.cons_ne_nil _ _
  exact ⟨s, hquiet, hbytes, no_deadlock run hquiet .client hsome⟩

set_option maxRecDepth 20000 in
/-- The server reads everything, and the last byte of the client stays unsent. -/
theorem deadlocks_after_read : ¬ ∀ s : Flight Unit Nat, Reachable s → s.NoDeadlock := by
  intro hall
  obtain ⟨s, run, ⟨hest, hest'⟩, ⟨hnagle, hnagle'⟩, ⟨hwire, hwire'⟩, ⟨hre, hre'⟩, hbytes, hopen⟩ :
      ∃ s : Flight Unit Nat, Reachable s ∧
        ((s.conn .client).connectionState.isEstablished = true ∧
          (s.conn .server).connectionState.isEstablished = true) ∧
        ((s.conn .client).options.nagleDelay = .zero ∧
          (s.conn .server).options.nagleDelay = .zero) ∧
        (s.wire .client = 0 ∧ s.wire .server = 0) ∧
        ((s.conn .client).tx.reTx = [] ∧ (s.conn .server).tx.reTx = []) ∧
        (s.conn .client).tx.tx.bytes ≠ [] ∧ (s.conn .server).rx.currWindow ≠ 0#16 :=
    Transition.exists_reachableUnder step_of_next init_zeroStart
      (overfull ++ [.act .server (.callRecv 4096)]) (by decide +kernel)
  have hquiet : s.Quiet := ⟨forall_side .client hest hest', forall_side .client hnagle hnagle',
    forall_side .client hwire hwire', forall_side .client hre hre'⟩
  exact hopen (hall s run hquiet .client hbytes)

end Flight

end TcpState
