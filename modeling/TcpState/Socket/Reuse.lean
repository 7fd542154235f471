import TcpState.Connection.ToldStep
import TcpState.Socket.Run

/-!
# Sockets that are used again

What a socket keeps when it is closed and used for the next connection: its
state machine starts again at Closed, its options stay, and its cookies are to
be told from those of the connection before.
-/

namespace TcpState

namespace Connection

variable {Addr Time : Type} [UserTime Time] {c c' : Connection Addr Time}

/-- A close that is done leaves the connection closed or in TimeWait. -/
theorem state_of_callClose (hc : c.callClose = .ok (c', .ok ())) :
    c'.connectionState = .closed ∨ c'.connectionState = .timeWait := by
  have not_error {e : Error} {c₀ : Connection Addr Time}
      (hc : (pure (c₀, .error e) : Res (Connection Addr Time × Except Error Unit)) =
        .ok (c', .ok ())) : False := by
    cases (Prod.mk.inj (Fallible.pure_ok_iff.mp hc)).2
  have not_retry {w : WaitUntil} (hc : c.retryAfter w = .ok (c', .ok ())) : False := by
    cases (retryAfter_ok_iff.mp hc).2.2
  have finish {c₀ : Connection Addr Time} {closeActive : Bool}
      (hc : c₀.finishClose closeActive = .ok (c', .ok ())) :
      c'.connectionState = .closed ∨ c'.connectionState = .timeWait := by
    simp only [finishClose, Fallible.bind_ok_iff, setState_ok_iff] at hc
    obtain ⟨c₁, ⟨-, -, rfl⟩, hc⟩ := hc
    split at hc
    · rename_i hboth
      obtain ⟨rfl, -⟩ := Prod.mk.inj (Fallible.pure_ok_iff.mp hc)
      rw [hboth.1, hboth.2]
      cases closeActive with
      | true => exact .inr (entered_connectionState _ _)
      | false => exact .inl rfl
    · cases (continueAfter_ok_iff.mp hc).2.2
  unfold callClose at hc
  split at hc
  case h_1 | h_2 | h_3 => exact (not_error hc).elim
  case h_4 | h_5 =>
    obtain ⟨rfl, -⟩ := Prod.mk.inj (Fallible.pure_ok_iff.mp hc)
    exact .inl rfl
  case h_6 =>
    split at hc
    · exact (not_retry hc).elim
    · simp only [Fallible.bind_ok_iff] at hc
      obtain ⟨_, -, _, -, hc⟩ := hc
      cases (continueAfter_ok_iff.mp hc).2.2
  case h_7 =>
    dsimp only at hc
    split at hc
    case h_1 =>
      split at hc
      · exact (not_retry hc).elim
      · obtain ⟨_, -, hc⟩ := Fallible.bind_ok_iff.mp hc
        exact finish hc
    case h_2 | h_3 => exact finish hc

omit [UserTime Time] in
/-- A step returns the next cookie or none. -/
theorem EventStep.counts {k : Option Cookie} (h : EventStep c k c') :
    c'.events.nextCookie = c.events.nextCookie + k.toList.length ∧
      ∀ n ∈ k, n = c.events.nextCookie := by
  cases h with
  | resumed r => exact ⟨r.counter, nofun⟩
  | suspended r =>
      exact ⟨congrArg (· + 1) r.counter, fun n hn => (Option.some.inj hn).symm.trans r.counter⟩

/-- A new connection sends its SYN and gives out its first cookie. -/
theorem callConnect_new (remote : Addr) (userData : UserData Addr Time) (options : SocketOptions) :
    ∃ c, { new remote userData with options := options }.callConnect =
      .ok (c, .error (.continueAfter 0)) ∧ c.events.nextCookie = 1 := ⟨_, rfl, rfl⟩

end Connection

namespace Socket

variable {Addr Time : Type} {s s' : Socket Addr Time}

/-- The socket takes a new connection or listens again. -/
structure Reusable [UserTime Time] (s : Socket Addr Time) : Prop where
  connects : ∀ remote, ∃ c, s.callConnect remote = .ok (⟨.connection c⟩, .error (.continueAfter 0))
  listens : ∀ backlog, (s.callListen backlog).2 = .ok ()

variable [UserTime Time]

theorem reusable_of_closed (hclosed : s.state = .closed) : s.Reusable where
  connects remote := by
    obtain ⟨c, hc, -⟩ := Connection.callConnect_new remote s.userData s.options
    refine ⟨c, ?_⟩
    unfold callConnect
    rw [if_neg (not_not.mpr hclosed)]
    exact Fallible.bind_ok_iff.mpr ⟨_, hc, rfl⟩
  listens backlog := by
    unfold callListen
    rw [if_neg (not_not.mpr hclosed)]

/-- A completed close or abort frees the socket, unless it was listening: then
the socket stays in Listen. -/
theorem close_frees_iff {req : Request Addr Time} (hreq : req = .callClose ∨ req = .callAbort)
    (hs : s.step req = .ok (s', .call (.ok ()))) :
    ((s'.state = .closed ∨ s'.state = .timeWait) ∧ (s'.state = .closed → s'.Reusable)) ↔
      ¬ ∃ l, s.inner = .listen l := by
  generalize hreply : (.call (.ok ()) : Reply Addr Time) = reply at hs
  have hused := used_of_ok hs
  cases hused with
  | kept _ hkept => exact absurd hreply.symm hkept
  | @connection req op out c c' hinner hop hc =>
      have hstate : c'.connectionState = .closed ∨ c'.connectionState = .timeWait := by
        rcases hreq with rfl | rfl
        · cases hop
          cases hc with
          | callClose hc =>
              cases hreply
              exact Connection.state_of_callClose hc
        · cases hop
          cases hc with
          | callAbort hc =>
              cases hreply
              cases Connection.abortStep_of_ok hc with
              | cleared => exact .inl rfl
              | reset => exact .inl rfl
      refine iff_of_true ⟨hstate, reusable_of_closed⟩ ?_
      rintro ⟨l, hl⟩
      rw [hinner] at hl
      cases hl
  | ended hinner =>
      refine iff_of_false ?_ (not_not.mpr ⟨_, hinner⟩)
      rintro ⟨h | h, -⟩
      · cases h
      · cases h
  | written | connected | listened | accepted | arrived | answered | reordered =>
      rcases hreq with h | h <;> cases h

/-- The connection is closed while its SYN is not answered. -/
theorem close_frees_iff_synSent : ∃ s s' : Socket Unit Nat, s.state = .synSent ∧
    s.step .callClose = .ok (s', .call (.ok ())) ∧
      (s'.state = .closed ∨ s'.state = .timeWait) ∧ (s'.state = .closed → s'.Reusable) := by
  obtain ⟨c, hc, -⟩ := Connection.callConnect_new () Connection.zeroUser .default
  have hst : c.connectionState = .synSent := by
    cases Connection.connectStep_of_ok hc with
    | connecting _ ha => exact ha.state
  have hclose : (⟨.connection c⟩ : Socket Unit Nat).step .callClose = .ok (⟨.connection
      (c.triggerEvent WaitUntil.isRecv (.error .connectionClosing)).clear⟩, .call (.ok ())) := by
    simp only [step, callClose, Connection.callClose, hst]
    rfl
  exact ⟨⟨.connection c⟩, _, hst, hclose,
    (close_frees_iff (.inl rfl) hclose).mpr fun h => h.elim fun _ hl => by cases hl⟩

/-- A listening socket is closed and listens still. -/
theorem close_keeps_listen : ¬ ∀ s : Lifetime Unit Nat, Lifetime.Reachable s →
    ∀ s' : Socket Unit Nat, s.socket.step .callClose = .ok (s', .call (.ok ())) →
      s'.state = .closed ∨ s'.state = .timeWait := by
  intro hall
  let l : ListenSocket Unit Nat := .callListen 1 Connection.zeroUser
  have hrun : Lifetime.Reachable ⟨⟨.listen l⟩, .default, []⟩ :=
    (Transition.Reachable.init (Lifetime.init_new Connection.zeroUser)).step (i := .callListen 1)
      ⟨_, _, rfl, rfl⟩
  rcases hall _ hrun ⟨.listen l.callClose⟩ rfl with h | h
  · cases h
  · cases h

/-- Only a write changes the options, and `call_listen`, which forgets them. -/
theorem Used.options {req : Request Addr Time} {reply : Reply Addr Time}
    (h : Used s req reply s') : s'.options = req.options.getD s.options ∨
      (∃ backlog, req = .callListen backlog) ∧ s.state = .closed ∧ s'.options = .default := by
  cases h with
  | written => exact .inl (setOptions_options s _)
  | @kept req _ _ _ hset =>
      left
      cases req with
      | setOptions options => exact absurd rfl (hset options)
      | _ => rfl
  | connected _ hc => exact .inl (congrArg Prod.snd (Connection.settings_callConnect hc))
  | listened hclosed => exact .inr ⟨⟨_, rfl⟩, hclosed, rfl⟩
  | @connection req op out c c' hinner hop hc =>
      left
      have hnone : req.options = none ∧ ∀ options, op ≠ .setOptions options := by
        cases req <;> cases hop <;> exact ⟨rfl, nofun⟩
      rw [hnone.1, Option.getD_none, options, options, hinner]
      rcases Connection.settings_step hc.step_ok with hkept | ⟨options, hop, -⟩
      · exact congrArg Prod.snd hkept
      · exact absurd hop (hnone.2 options)
  | @accepted _ l _ _ hinner hr =>
      left
      rw [options, options, hinner]
      cases ListenSocket.accepted_of_ok hr <;> rfl
  | @ended req _ hinner hreq =>
      left
      have hnone : req.options = none := by
        rcases hreq with rfl | rfl <;> rfl
      rw [hnone, Option.getD_none, options, options, hinner]
      rfl
  | @arrived src seg l hinner =>
      left
      have harrived := l.arrived src seg
      rw [options, options, hinner]
      generalize l.onSegment src seg = l' at harrived
      cases harrived <;> rfl
  | answered _ hinner | reordered hinner =>
      left
      rw [options, options, hinner]
      rfl

/-- The connection an accept returns begins with the options of the listening
socket. -/
theorem options_of_callAccept {makeUserData : ListenSocket Addr Time → UserData Addr Time}
    {addr : Addr} {c : Connection Addr Time}
    (hs : s.callAccept makeUserData = .ok (s', .ok (addr, c))) : c.options = s.options := by
  unfold callAccept at hs
  split at hs
  case h_1 | h_2 => cases (Prod.mk.inj (Fallible.pure_ok_iff.mp hs)).2
  case h_3 hinner =>
    simp only [Fallible.bind_ok_iff, Fallible.pure_ok_iff, Prod.exists, Prod.mk.injEq] at hs
    obtain ⟨_, _, hr, rfl, rfl⟩ := hs
    rw [options, hinner]
    cases ListenSocket.accepted_of_ok hr with
    | popped _ _ hc => exact congrArg Prod.snd (Connection.settings_onSegment hc)

/-- The next cookie of the connection or listening socket inside. -/
def nextCookie (s : Socket Addr Time) : Cookie :=
  match s.inner with
  | .closed _ => 0
  | .connection c => c.events.nextCookie
  | .listen l => l.events.nextCookie

omit [UserTime Time] in
theorem nextCookie_setOptions (s : Socket Addr Time) (options : SocketOptions) :
    (s.setOptions options).nextCookie = s.nextCookie := by
  obtain ⟨inner⟩ := s
  cases inner <;> rfl

/-- A request that does not rebuild the socket returns the next cookie or none. -/
theorem Used.counts {req : Request Addr Time} {reply : Reply Addr Time} (h : Used s req reply s')
    (hreach : ∀ c, s.inner = .connection c → Connection.Reachable c)
    (hkept : req.rebuilds = true → s.state ≠ .closed) :
    s'.nextCookie = s.nextCookie + reply.cookie.toList.length ∧
      ∀ k ∈ reply.cookie, k = s.nextCookie := by
  have silent (hn : s'.nextCookie = s.nextCookie) (hreply : reply.cookie = none) :
      s'.nextCookie = s.nextCookie + reply.cookie.toList.length ∧
        ∀ k ∈ reply.cookie, k = s.nextCookie := by
    rw [hreply]
    exact ⟨hn, nofun⟩
  cases h with
  | written => exact silent (nextCookie_setOptions s _) rfl
  | kept hcookie => exact silent rfl hcookie
  | connected hclosed | listened hclosed => exact absurd hclosed (hkept rfl)
  | @connection req op out c c' hinner hop hc =>
      have hrun := hreach c hinner
      have hstep := Connection.eventStep (Connection.Reachable.wellFormed hrun)
        (Connection.Reachable.waits hrun) hc.step_ok
      rw [Output.cookie_reply, nextCookie, nextCookie, hinner]
      exact hstep.counts
  | @accepted _ l _ _ hinner hr =>
      rw [nextCookie, nextCookie, hinner]
      cases ListenSocket.accepted_of_ok hr with
      | closed => exact ⟨rfl, nofun⟩
      | popped => exact ⟨rfl, nofun⟩
      | suspended => exact ⟨rfl, fun k hk => (Option.some.inj hk).symm⟩
  | ended hinner =>
      refine silent ?_ rfl
      rw [nextCookie, nextCookie, hinner]
      rfl
  | @arrived src seg l hinner =>
      refine silent ?_ rfl
      have harrived := l.arrived src seg
      rw [nextCookie, nextCookie, hinner]
      generalize l.onSegment src seg = l' at harrived
      cases harrived <;> rfl
  | answered _ hinner | reordered hinner =>
      refine silent ?_ rfl
      rw [nextCookie, nextCookie, hinner]

end Socket

namespace Lifetime

variable {Addr Time : Type} [UserTime Time] {s : Lifetime Addr Time}

/-- The socket listens only while its options are the default ones. -/
def ListensByDefault (s : Lifetime Addr Time) : Request Addr Time → Prop
  | .callListen _ => s.socket.state = .closed → s.socket.options = .default
  | _ => True

omit [UserTime Time] in
instance (s : Lifetime Addr Time) (req : Request Addr Time) :
    Decidable (s.ListensByDefault req) := by
  cases req <;> (unfold ListensByDefault; infer_instance)

theorem options_eq_written
    (run : Transition.ReachableUnder (system Addr Time) ListensByDefault s) :
    s.socket.options = s.written := by
  refine Transition.ReachableUnder.invariant (P := fun s => s.socket.options = s.written) ?_ ?_ run
  · rintro s ⟨socket, -, rfl⟩
    rfl
  · rintro s req s' - h hallowed ⟨socket, reply, hs, rfl⟩
    change socket.options = req.options.getD s.written
    rw [← h]
    rcases (Socket.used_of_ok hs).options with hkept | ⟨⟨backlog, rfl⟩, hclosed, hdefault⟩
    · exact hkept
    · exact hdefault.trans (hallowed hclosed).symm

/-- While the socket listens with default options only, its options are those
written last, and so are the options of the connections it accepts. Listening
keeps them exactly then. -/
theorem options_survive
    (run : Transition.ReachableUnder (system Addr Time) ListensByDefault s) :
    s.socket.options = s.written ∧
    (∀ backlog, (s.socket.callListen backlog).1.options = s.written ↔
      s.ListensByDefault (.callListen backlog)) ∧
    ∀ makeUserData s' addr c, s.socket.callAccept makeUserData = .ok (s', .ok (addr, c)) →
      c.options = s.written := by
  have hwritten := options_eq_written run
  refine ⟨hwritten, fun backlog => ?_, fun makeUserData s' addr c hs => ?_⟩
  · unfold Socket.callListen ListensByDefault
    split
    · rename_i hopen
      exact iff_of_true hwritten fun hclosed => absurd hclosed hopen
    · rename_i hclosed
      change SocketOptions.default = s.written ↔ _
      rw [hwritten]
      exact ⟨fun h _ => h.symm, fun h => (h (not_not.mp hclosed)).symm⟩
  · exact (Socket.options_of_callAccept hs).trans hwritten

/-- The socket is connected or listens only before its first cookie. -/
def RebuildsFirst (s : Lifetime Addr Time) (req : Request Addr Time) : Prop :=
  req.rebuilds = true → s.socket.state = .closed → s.issued = []

omit [UserTime Time] in
instance (s : Lifetime Addr Time) (req : Request Addr Time) : Decidable (s.RebuildsFirst req) := by
  unfold RebuildsFirst
  infer_instance

/-- The cookies returned lie below the next one, each once. -/
def Counted (s : Lifetime Addr Time) : Prop :=
  s.issued.Nodup ∧ ∀ k ∈ s.issued, k < s.socket.nextCookie

omit [UserTime Time] in
/-- A request that returns the next cookie or none. -/
theorem Counted.after (h : s.Counted) {req : Request Addr Time} {reply : Reply Addr Time}
    {socket : Socket Addr Time}
    (hnext : socket.nextCookie = s.socket.nextCookie + reply.cookie.toList.length)
    (hcookie : ∀ k ∈ reply.cookie, k = s.socket.nextCookie) :
    (s.after req reply socket).Counted := by
  obtain ⟨hnodup, hlt⟩ := h
  cases hreply : reply.cookie with
  | none =>
      rw [hreply] at hnext
      simp only [Counted, Lifetime.after, hreply, hnext, Option.toList_none, List.append_nil]
      exact ⟨hnodup, hlt⟩
  | some k =>
      rw [hreply] at hnext
      obtain rfl := hcookie k hreply
      simp only [Counted, Lifetime.after, hreply, hnext, Option.toList_some,
        ← List.concat_eq_append, List.nodup_concat]
      refine ⟨⟨fun hmem => Nat.lt_irrefl _ (hlt _ hmem), hnodup⟩, fun k hk => ?_⟩
      rw [List.concat_eq_append, List.mem_append, List.mem_singleton] at hk
      rcases hk with hk | rfl
      · exact Nat.lt_succ_of_lt (hlt k hk)
      · exact Nat.lt_succ_self _

theorem Counted.step (run : Reachable s) (h : s.Counted) {req : Request Addr Time}
    (hfirst : s.RebuildsFirst req) {socket : Socket Addr Time} {reply : Reply Addr Time}
    (hs : s.socket.step req = .ok (socket, reply)) : (s.after req reply socket).Counted := by
  have hused := Socket.used_of_ok hs
  by_cases hrebuild : req.rebuilds = true ∧ s.socket.state = .closed
  · have hnone := hfirst hrebuild.1 hrebuild.2
    have halone (hlt : ∀ k ∈ reply.cookie, k < socket.nextCookie) :
        (s.after req reply socket).Counted := by
      unfold Counted Lifetime.after
      dsimp only
      rw [hnone, List.nil_append]
      refine ⟨?_, fun k hk => hlt k (Option.mem_toList.mp hk)⟩
      cases reply.cookie with
      | none => exact List.nodup_nil
      | some k => exact List.nodup_singleton k
    cases hused with
    | kept hcookie => exact halone (by rw [hcookie]; nofun)
    | @connected remote c r _ hc =>
        obtain ⟨c', hc', hnext⟩ :=
          Connection.callConnect_new remote s.socket.userData s.socket.options
        obtain ⟨rfl, rfl⟩ := Prod.mk.inj (Except.ok.inj (hc.symm.trans hc'))
        refine halone fun k hk => ?_
        obtain rfl := Option.some.inj hk
        change 0 < c.events.nextCookie
        rw [hnext]
        exact Nat.one_pos
    | listened => exact halone nofun
    | connection _ hop => cases (req.op_of_rebuilds hrebuild.1).symm.trans hop
    | ended _ hreq => rcases hreq with rfl | rfl <;> cases hrebuild.1
    | written | accepted | arrived | answered | reordered => cases hrebuild.1
  · have hcounts := hused.counts (fun _ => reachable_connection run) fun hreq hclosed =>
      hrebuild ⟨hreq, hclosed⟩
    exact h.after hcounts.1 hcounts.2

/-- While the socket is connected or listens only before its first cookie, no
cookie is returned twice, and the next one is new. From Closed `call_connect`
returns the first cookie again. -/
theorem cookies_unique (run : Transition.ReachableUnder (system Addr Time) RebuildsFirst s) :
    s.issued.Nodup ∧
    (∀ req socket reply, s.socket.step req = .ok (socket, reply) → s.RebuildsFirst req →
      ∀ k ∈ reply.cookie, k ∉ s.issued) ∧
    ∀ remote socket reply, s.socket.state = .closed →
      s.socket.step (.callConnect remote) = .ok (socket, reply) → reply.cookie = some 0 := by
  have hcounted : s.Counted := by
    refine Transition.ReachableUnder.invariant (P := Counted) ?_ ?_ run
    · rintro s ⟨socket, -, rfl⟩
      exact ⟨List.nodup_nil, nofun⟩
    · rintro s req s' hreach h hfirst ⟨socket, reply, hs, rfl⟩
      exact h.step hreach hfirst hs
  refine ⟨hcounted.1, fun req socket reply hs hfirst k hk hmem => ?_, ?_⟩
  · have hnodup := (hcounted.step run.reachable hfirst hs).1
    exact List.disjoint_of_nodup_append hnodup hmem (Option.mem_toList.mpr hk)
  · intro remote socket reply hclosed hs
    obtain ⟨c, hc⟩ := (Socket.reusable_of_closed hclosed).connects remote
    have hstep : s.socket.step (.callConnect remote) =
        .ok (⟨.connection c⟩, .call (.error (.continueAfter 0))) := by
      simp only [Socket.step, hc]
      rfl
    obtain ⟨-, rfl⟩ := Prod.mk.inj (Except.ok.inj (hs.symm.trans hstep))
    rfl

section Runs

open Connection (zeroUser)

def slow : SocketOptions := ⟨.second⟩

def syn : SegmentMeta := ⟨100#32, 0#32, 1000#16, .syn, []⟩

/-- Options that are written after `call_listen` reach the accepted connection. -/
theorem options_survive_accept : ∃ (s : Lifetime Unit Nat) (s' : Socket Unit Nat)
    (c : Connection Unit Nat), s.written = slow ∧
      s.socket.callAccept (fun _ => zeroUser) = .ok (s', .ok ((), c)) ∧ c.options = slow := by
  obtain ⟨s, hrun, hwritten, haccepts⟩ : ∃ s : Lifetime Unit Nat,
      Transition.ReachableUnder (system Unit Nat) ListensByDefault s ∧ s.written = slow ∧
        ((s.socket.callAccept fun _ => zeroUser).toOption.any fun p => p.2.isOk) = true :=
    Transition.exists_reachableUnder step_of_next (init_new zeroUser)
      [.callListen 1, .setOptions slow, .onSegment () syn] (by decide)
  obtain ⟨⟨s', r⟩, hs, hr⟩ := Fallible.exists_of_toOption_any haccepts
  cases r with
  | error => cases hr
  | ok p => exact ⟨s, s', p.2, hwritten, hs, hwritten ▸ (options_survive hrun).2.2 _ _ _ _ hs⟩

/-- The options written before `call_listen` are lost. -/
theorem options_forgotten :
    ¬ ∀ s : Lifetime Unit Nat, Reachable s → s.socket.options = s.written := by
  intro hall
  obtain ⟨s, hrun, hforgotten⟩ : ∃ s : Lifetime Unit Nat, Reachable s ∧
      s.socket.options ≠ s.written :=
    Transition.exists_reachableUnder step_of_next (init_new zeroUser)
      [.setOptions slow, .callListen 1] (by decide)
  exact hforgotten (hall s hrun)

/-- A connection waits to be established and then for its close. -/
theorem cookies_unique_close : ∃ s : Lifetime Unit Nat, s.issued = [0, 1] ∧ s.issued.Nodup := by
  obtain ⟨s, hrun, hissued⟩ : ∃ s : Lifetime Unit Nat,
      Transition.ReachableUnder (system Unit Nat) RebuildsFirst s ∧ s.issued = [0, 1] :=
    Transition.exists_reachableUnder step_of_next (init_new zeroUser)
      [.callConnect (), .onSegment () ⟨100#32, 1#32, 1000#16, .syn ||| .ack, []⟩, .callClose]
      (by decide)
  exact ⟨s, hissued, (cookies_unique hrun).1⟩

/-- A socket that is closed and connected again returns its first cookie twice. -/
theorem cookie_returned_twice :
    ¬ ∀ s : Lifetime Unit Nat, Reachable s → s.issued.Nodup := by
  intro hall
  obtain ⟨s, hrun, htwice⟩ : ∃ s : Lifetime Unit Nat, Reachable s ∧ ¬ s.issued.Nodup :=
    Transition.exists_reachableUnder step_of_next (init_new zeroUser)
      [.callConnect (), .callClose, .callConnect ()] (by decide)
  exact htwice (hall s hrun)

end Runs

end Lifetime

end TcpState
