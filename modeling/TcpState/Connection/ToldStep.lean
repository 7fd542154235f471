import TcpState.Connection.Told

/-!
# What an operation tells

Every operation tells its suspended calls for the listed reasons and then
suspends at most one call. The cookies of the suspended calls differ, so that
a result belongs to one of them.
-/

namespace TcpState

namespace Connection

variable {Addr Time : Type}

section Step

variable [UserTime Time] {c c' : Connection Addr Time}

/-- An operation tells suspended calls their results and then suspends at most
one call, with a fresh cookie. A sender is suspended by a send before the
connection is open, which tells nobody. -/
inductive ToldStep (c : Connection Addr Time) (op : Op Time) : Connection Addr Time → Prop
  | told {c' : Connection Addr Time} (h : Told (c.Announces op) (c.Reports op) c c') :
      ToldStep c op c'
  | suspended {c₀ : Connection Addr Time} {w : WaitUntil}
      (h : Told (c.Announces op) (c.Reports op) c c₀) (hw : w.isAcknowledged = false) :
      ToldStep c op (c₀.suspend w)
  | queued {inputData : List UInt8} {q : BlobQueue} (hop : op = .callSend inputData)
      (hs : c.connectionState.opening = true) (hq : c.tx.tx.writeBytes inputData = .ok q) :
      ToldStep c op ((c.withQueue q).suspend
        (.acknowledged (c.tx.next + BitVec.ofNat 32 inputData.length)))

theorem ToldStep.same (c : Connection Addr Time) (op : Op Time) : ToldStep c op c :=
  .told (.refl c)

theorem toldStep_callConnect {r : Except Error Unit} (hc : c.callConnect = .ok (c', r)) :
    ToldStep c .callConnect c' := by
  unfold callConnect at hc
  split at hc
  case h_1 | h_2 =>
    simp only [Fallible.bind_ok_iff, setState_ok_iff, continueAfter_ok_iff,
      stateSet_synSent] at hc
    obtain ⟨c₁, ⟨-, -, hc₁⟩, -, rfl, rfl⟩ := hc
    have h : Told (c.Announces .callConnect) (c.Reports .callConnect) c c₁ := by
      rw [hc₁]
      exact .entered nofun
    refine .suspended (h.trans (.of_eq rfl ?_)) rfl
    simp [Connection.answers, Connection.send, Connection.setTimerReTx]
  case h_3 =>
    obtain ⟨rfl, rfl⟩ := Prod.mk.inj (Fallible.pure_ok_iff.mp hc)
    exact .same c _

theorem toldStep_callSend {inputData : List UInt8} {r : Except Error Unit}
    (hc : c.callSend inputData = .ok (c', r)) : ToldStep c (.callSend inputData) c' := by
  cases (sendStep_of_ok hc).2 with
  | refused => exact .same c _
  | delayed hs hq => exact .queued rfl hs hq
  | queued => exact .told (.of_eq rfl rfl)
  | sent hs hq hnow hsend =>
      exact .told (.from_eq (.sendAck hsend fun m hm => .sendAck (.send hs hq hnow) hm) rfl rfl)

theorem toldStep_callRecv {bufferLen : Nat} {r : Except Error (List UInt8)}
    (hc : c.callRecv bufferLen = .ok (c', r)) : ToldStep c (.callRecv bufferLen) c' := by
  cases recvStep_of_ok hc with
  | refused => exact .same c _
  | ended => exact .same c _
  | early => exact .suspended (.refl c) rfl
  | waiting => exact .suspended (.refl c) rfl
  | read => exact .told (.of_eq rfl rfl)
  | full => exact .told (.of_eq rfl rfl)
  | drained hs hread hlen =>
      exact .told (.from_eq (.stateSet fun m hm => .readToEnd hs hread hlen hm) rfl rfl)

theorem toldStep_callShutdown {r : Except Error Unit} (hc : c.callShutdown = .ok (c', r)) :
    ToldStep c .callShutdown c' := by
  unfold callShutdown at hc
  split at hc
  case h_1 | h_2 | h_3 =>
    obtain ⟨rfl, rfl⟩ := Prod.mk.inj (Fallible.pure_ok_iff.mp hc)
    exact .same c _
  case h_4 | h_5 =>
    obtain ⟨rfl, rfl⟩ := Prod.mk.inj (Fallible.pure_ok_iff.mp hc)
    exact .told ((Told.fail c (fun _ => true) .connectionClosing).trans (.clear _))
  case h_6 hst =>
    split at hc
    · obtain ⟨-, rfl, rfl⟩ := retryAfter_ok_iff.mp hc
      exact .suspended (.refl c) rfl
    · rename_i hw
      simp only [Fallible.bind_ok_iff, setState_ok_iff, Fallible.pure_ok_iff, Prod.mk.injEq] at hc
      obtain ⟨c₁, hsend, _, ⟨-, -, rfl⟩, rfl, rfl⟩ := hc
      have hno : c.noSenders := by simpa [noSenders] using hw
      have hsent : Told (c.Announces .callShutdown) (c.Reports .callShutdown) c c₁ :=
        .from_eq (.sendAck hsend fun m hm => .sendAck (.shutdownEarly hst hno) hm) rfl rfl
      exact .told (hsent.trans (.stateSet fun m hm => by
        cases hm with
        | entered hread => cases hread))
  case h_7 t r cc ca hst =>
    split at hc
    case h_1 | h_2 =>
      obtain ⟨rfl, rfl⟩ := Prod.mk.inj (Fallible.pure_ok_iff.mp hc)
      exact .same c _
    case h_3 =>
      split at hc
      · obtain ⟨-, rfl, rfl⟩ := retryAfter_ok_iff.mp hc
        exact .suspended (.refl c) rfl
      · rename_i hbusy
        simp only [Fallible.bind_ok_iff, Fallible.pure_ok_iff, Prod.mk.injEq] at hc
        obtain ⟨c₁, hactive, c₂, hsend, rfl, rfl⟩ := hc
        have hfirst : Told (c.Announces .callShutdown) (c.Reports .callShutdown) c c₁ := by
          split at hactive
          · rename_i hopen
            obtain ⟨-, -, rfl⟩ := setState_ok_iff.mp hactive
            refine .stateSet fun m hm => ?_
            cases hm with
            | entered hread =>
                rw [hopen] at hread
                cases hread
          · obtain rfl := Fallible.pure_ok_iff.mp hactive
            exact .refl c
        exact .told (hfirst.trans (.from_eq (.sendAck hsend fun m hm =>
          .sendAck (.shutdown hst (queue_clear hbusy) hactive) hm) rfl rfl))

theorem toldStep_callClose {r : Except Error Unit} (hc : c.callClose = .ok (c', r)) :
    ToldStep c .callClose c' := by
  have finish {c₁ : Connection Addr Time} {t rx : ChannelState} {cc ca : Bool}
      (hst : c.connectionState = .established t rx cc ca) (hdone : t = .opened → c.OutputDone)
      (h₁ : (if t = .opened then c.marked.sendAck else .ok c) = .ok c₁)
      (htold : Told (c.Announces .callClose) (c.Reports .callClose) c c₁)
      (hc : c₁.finishClose (ca || decide (rx = .opened)) = .ok (c', r)) :
      ToldStep c .callClose c' := by
    simp only [finishClose, Fallible.bind_ok_iff, setState_ok_iff] at hc
    obtain ⟨_, ⟨-, -, rfl⟩, hc⟩ := hc
    have h := htold.trans (.stateSet fun m hm => .close hst hdone h₁ hm)
    split at hc
    · obtain ⟨rfl, rfl⟩ := Prod.mk.inj (Fallible.pure_ok_iff.mp hc)
      exact .told h
    · obtain ⟨-, rfl, rfl⟩ := continueAfter_ok_iff.mp hc
      exact .suspended h rfl
  unfold callClose at hc
  split at hc
  case h_1 | h_2 | h_3 =>
    obtain ⟨rfl, rfl⟩ := Prod.mk.inj (Fallible.pure_ok_iff.mp hc)
    exact .same c _
  case h_4 | h_5 =>
    obtain ⟨rfl, rfl⟩ := Prod.mk.inj (Fallible.pure_ok_iff.mp hc)
    exact .told ((Told.fail c WaitUntil.isRecv .connectionClosing).trans (.clear _))
  case h_6 hst =>
    split at hc
    · obtain ⟨-, rfl, rfl⟩ := retryAfter_ok_iff.mp hc
      exact .suspended (.refl c) rfl
    · rename_i hbusy
      simp only [Fallible.bind_ok_iff, setState_ok_iff, continueAfter_ok_iff] at hc
      obtain ⟨c₁, hsend, _, ⟨-, -, rfl⟩, -, rfl, rfl⟩ := hc
      have hsent : Told (c.Announces .callClose) (c.Reports .callClose) c c₁ :=
        .from_eq (.sendAck hsend fun m hm => .sendAck (.close (.inl hst) (queue_clear hbusy)) hm)
          rfl rfl
      exact .suspended (hsent.trans (.stateSet fun m hm => by
        cases hm with
        | entered hread => cases hread)) rfl
  case h_7 t rx cc ca hst =>
    dsimp only at hc
    split at hc
    case h_1 =>
      split at hc
      · obtain ⟨-, rfl, rfl⟩ := retryAfter_ok_iff.mp hc
        exact .suspended (.refl c) rfl
      · rename_i hbusy
        have hdone : c.OutputDone := queue_clear hbusy
        simp only [Fallible.bind_ok_iff] at hc
        obtain ⟨c₁, hsend, hc⟩ := hc
        refine finish hst (fun _ => hdone) (by rw [if_pos rfl]; exact hsend) ?_ hc
        have hrun : c.RunsSendAck .callClose c.marked :=
          .close (.inr ⟨by rw [hst]; rfl, by rw [hst]; rfl⟩) hdone
        exact .from_eq (.sendAck hsend fun m hm => .sendAck hrun hm) rfl rfl
    case h_2 | h_3 =>
      exact finish hst ChannelState.noConfusion (by rw [if_neg ChannelState.noConfusion])
        (.refl c) hc

theorem toldStep_callAbort {r : Except Error Unit} (hc : c.callAbort = .ok (c', r)) :
    ToldStep c .callAbort c' := by
  unfold callAbort at hc
  split at hc
  case h_1 | h_2 =>
    obtain ⟨rfl, rfl⟩ := Prod.mk.inj (Fallible.pure_ok_iff.mp hc)
    exact .same c _
  case h_3 | h_4 =>
    obtain ⟨rfl, rfl⟩ := Prod.mk.inj (Fallible.pure_ok_iff.mp hc)
    exact .told ((Told.fail c (fun _ => true) .connectionReset).trans (.clear _))
  case h_5 | h_6 =>
    obtain ⟨rfl, rfl⟩ := Prod.mk.inj (Fallible.pure_ok_iff.mp hc)
    exact .told (((Told.send c _).trans (.fail _ (fun _ => true) .connectionReset)).trans
      (.clear _))
  case h_7 =>
    obtain ⟨rfl, rfl⟩ := Prod.mk.inj (Fallible.pure_ok_iff.mp hc)
    exact .told (.clear c)

/-- What an operation tells the suspended calls. -/
theorem toldStep {op : Op Time} {out : Output} (hc : c.step op = .ok (c', out)) :
    ToldStep c op c' := by
  cases opStep_of_ok hc with
  | callConnect hc => exact toldStep_callConnect hc
  | callSend hc => exact toldStep_callSend hc
  | callRecv hc => exact toldStep_callRecv hc
  | callShutdown hc => exact toldStep_callShutdown hc
  | callClose hc => exact toldStep_callClose hc
  | callAbort hc => exact toldStep_callAbort hc
  | setOptions => exact .told (.of_eq rfl rfl)
  | onSegment hc => exact .told (.onSegment hc)
  | onTimeTick hc => exact .told (.onTimeTick hc)

end Step

section Cookies

variable {c c' : Connection Addr Time}

/-- The suspended calls have different cookies, all counted before. -/
structure CookiesFresh (c : Connection Addr Time) : Prop where
  nodup : c.pending.Nodup
  lt : ∀ k ∈ c.pending, k < c.events.nextCookie

section Told

variable {announced : Connection Addr Time → Prop} {reported : SeqN → Prop}

theorem Told.cookies (h : Told announced reported c c') (hf : CookiesFresh c) :
    CookiesFresh c' := by
  obtain ⟨log, -, hperm, -⟩ := h.told
  have hpending : ((log.map Prod.fst).map Prod.snd ++ c'.pending).Perm c.pending := by
    rw [pending, ← List.map_append]
    exact hperm.map Prod.snd
  refine ⟨(hpending.nodup_iff.mpr hf.nodup).of_append_right, fun k hk => ?_⟩
  rw [h.counter]
  exact hf.lt k (hpending.subset (List.mem_append_right _ hk))

theorem CookiesFresh.suspend (h : CookiesFresh c) (w : WaitUntil) :
    CookiesFresh (c.suspend w) := by
  have hpending : (c.suspend w).pending = c.pending ++ [c.events.nextCookie] := by
    simp [pending, Connection.suspend]
  constructor
  · rw [hpending, List.nodup_append]
    refine ⟨h.nodup, List.nodup_singleton _, fun k hk k' hk' heq => ?_⟩
    rw [List.mem_singleton.mp hk'] at heq
    exact absurd (heq ▸ h.lt k hk) (Nat.lt_irrefl _)
  · intro k hk
    change k < c.events.nextCookie + 1
    rw [hpending, List.mem_append, List.mem_singleton] at hk
    rcases hk with hk | rfl
    · exact Nat.lt_succ_of_lt (h.lt k hk)
    · exact Nat.lt_succ_self _

/-- A result belongs to a suspended call and has a reason. -/
theorem Told.answered (h : Told announced reported c c') {k : Cookie} {r : Except Error Unit}
    (hr : (k, r) ∈ c'.answers.drop c.answers.length) :
    ∃ p ∈ c.events.suspended, p.2 = k ∧ Reason announced reported p r := by
  obtain ⟨log, hlog, hperm, hwhy⟩ := h.told
  rw [hlog, List.drop_left] at hr
  obtain ⟨t, ht, heq⟩ := List.mem_map.mp hr
  obtain ⟨hk, rfl⟩ := Prod.mk.inj heq
  have hmem : t.1 ∈ c.events.suspended :=
    hperm.subset (List.mem_append_left _ (List.mem_map_of_mem ht))
  exact ⟨t.1, hmem, hk, hwhy t ht⟩

/-- A call that is told a result is no longer suspended. -/
theorem Told.left (h : Told announced reported c c') (hf : CookiesFresh c) {k : Cookie}
    {r : Except Error Unit} (hr : (k, r) ∈ c'.answers.drop c.answers.length) :
    k ∉ c'.pending := by
  obtain ⟨log, hlog, hperm, -⟩ := h.told
  rw [hlog, List.drop_left] at hr
  obtain ⟨t, ht, heq⟩ := List.mem_map.mp hr
  obtain ⟨rfl, -⟩ := Prod.mk.inj heq
  have hpending : ((log.map Prod.fst).map Prod.snd ++ c'.pending).Perm c.pending := by
    rw [pending, ← List.map_append]
    exact hperm.map Prod.snd
  have hdisjoint := List.disjoint_of_nodup_append (hpending.nodup_iff.mpr hf.nodup)
  exact hdisjoint (List.mem_map_of_mem (List.mem_map_of_mem ht))

end Told

variable [UserTime Time]

theorem ToldStep.cookies {op : Op Time} (h : ToldStep c op c') (hf : CookiesFresh c) :
    CookiesFresh c' := by
  cases h with
  | told h => exact h.cookies hf
  | suspended h => exact (h.cookies hf).suspend _
  | @queued _ q =>
      have hqueue : CookiesFresh (c.withQueue q) := ⟨hf.nodup, hf.lt⟩
      exact hqueue.suspend _

theorem ToldStep.answered {op : Op Time} (h : ToldStep c op c') {k : Cookie}
    {r : Except Error Unit} (hr : (k, r) ∈ c'.answers.drop c.answers.length) :
    ∃ p ∈ c.events.suspended, p.2 = k ∧ Reason (c.Announces op) (c.Reports op) p r := by
  cases h with
  | told h => exact h.answered hr
  | suspended h => exact h.answered hr
  | queued =>
      change (k, r) ∈ c.answers.drop c.answers.length at hr
      rw [List.drop_length] at hr
      cases hr

theorem ToldStep.left {op : Op Time} (h : ToldStep c op c') (hf : CookiesFresh c) {k : Cookie}
    {r : Except Error Unit} (hr : (k, r) ∈ c'.answers.drop c.answers.length) :
    k ∉ c'.pending := by
  cases h with
  | told h => exact h.left hf hr
  | @suspended c₀ w h =>
      obtain ⟨p, hp, hk, -⟩ := h.answered hr
      have hlt : k < c.events.nextCookie := hf.lt k (hk ▸ List.mem_map_of_mem hp)
      have hpending : (c₀.suspend w).pending = c₀.pending ++ [c₀.events.nextCookie] := by
        simp [pending, Connection.suspend]
      rw [hpending, List.mem_append, List.mem_singleton, h.counter]
      rintro (hleft | rfl)
      · exact h.left hf hr hleft
      · exact absurd hlt (Nat.lt_irrefl _)
  | queued =>
      change (k, r) ∈ c.answers.drop c.answers.length at hr
      rw [List.drop_length] at hr
      cases hr

/-- The reason for the result that a suspended call is told. -/
theorem ToldStep.reason {op : Op Time} (h : ToldStep c op c') (hf : CookiesFresh c)
    {p : WaitUntil × Cookie} {r : Except Error Unit} (hp : p ∈ c.events.suspended)
    (hr : (p.2, r) ∈ c'.answers.drop c.answers.length) :
    Reason (c.Announces op) (c.Reports op) p r := by
  obtain ⟨q, hq, hk, hreason⟩ := h.answered hr
  -- The cookie tells which call it is.
  have hsame : q = p := List.inj_on_of_nodup_map hf.nodup hq hp hk
  rwa [← hsame]

theorem Reachable.cookies (h : Reachable c) : CookiesFresh c := by
  refine Transition.Reachable.invariant (P := CookiesFresh) ?_ ?_ h
  · intro c hinit
    have hnil : c.pending = [] := by rw [pending, Initial.events hinit]; rfl
    refine ⟨by rw [hnil]; exact List.nodup_nil, fun p hp => ?_⟩
    rw [hnil] at hp
    exact absurd hp List.not_mem_nil
  · rintro c op c' hf ⟨out, hc⟩
    exact (toldStep hc).cookies hf

theorem Reachable.waits (h : Reachable c) : Waits c := by
  refine Transition.ReachableUnder.invariant (P := Waits) ?_ ?_ h
  · exact fun _ hinit => Initial.waits hinit
  · rintro c op c' hreach hw - ⟨out, hc⟩
    exact hw.step (Reachable.wellFormed hreach) hc

end Cookies

end Connection

end TcpState
