import TcpState.Connection.Waiting

/-!
# Calls that fail or block

A call that returns an error leaves the connection as it is. One that is to be
retried leaves its own waiter and nothing else, so that the retry finds what
the first try found.
-/

namespace TcpState

/-- The error an operation returns. -/
def Output.error : Output → Option Error
  | .call (.error e) | .recv (.error e) => some e
  | _ => Option.none

namespace Connection

variable {Addr Time α : Type}

/-- What a call has done when it returns an error. Only a call that goes on
by itself (`ContinueAfter`) may have had an effect. -/
inductive Failure (c : Connection Addr Time) : Error → Connection Addr Time → Prop
  | refused {e : Error} (he : e.cookie = none) : Failure c e c
  | delayed (w : WaitUntil) : Failure c (.retryAfter c.events.nextCookie) (c.suspend w)
  | continued (cookie : Cookie) (c' : Connection Addr Time) :
      Failure c (.continueAfter cookie) c'

variable {c c' : Connection Addr Time} {e : Error}

theorem failure_pure {e' : Error}
    (hc : (pure (c, .error e') : Res (Connection Addr Time × Except Error α)) = .ok (c', .error e))
    (he : e'.cookie = none) : Failure c e c' := by
  obtain ⟨rfl, hr⟩ := Prod.mk.inj (Fallible.pure_ok_iff.mp hc)
  obtain rfl := Except.error.inj hr
  exact .refused he

theorem failure_retryAfter {w : WaitUntil}
    (hc : c.retryAfter (α := α) w = .ok (c', .error e)) : Failure c e c' := by
  obtain ⟨-, rfl, hr⟩ := retryAfter_ok_iff.mp hc
  obtain rfl := Except.error.inj hr
  exact .delayed w

theorem failure_continueAfter {c₀ : Connection Addr Time} {w : WaitUntil}
    (hc : c₀.continueAfter (α := α) w = .ok (c', .error e)) : Failure c e c' := by
  obtain ⟨-, -, hr⟩ := continueAfter_ok_iff.mp hc
  obtain rfl := Except.error.inj hr
  exact .continued _ c'

theorem not_error_of_pure {a : α}
    (hc : (pure (c, .ok a) : Res (Connection Addr Time × Except Error α)) = .ok (c', .error e)) :
    False := by
  cases (Prod.mk.inj (Fallible.pure_ok_iff.mp hc)).2

variable [UserTime Time]

theorem failure_callConnect (hc : c.callConnect = .ok (c', .error e)) : Failure c e c' := by
  unfold callConnect at hc
  split at hc
  case h_1 | h_2 =>
    obtain ⟨_, -, hc⟩ := Fallible.bind_ok_iff.mp hc
    exact failure_continueAfter hc
  case h_3 => exact failure_pure hc rfl

theorem failure_callSend {inputData : List UInt8}
    (hc : c.callSend inputData = .ok (c', .error e)) : Failure c e c' := by
  obtain ⟨_, -, hc⟩ := Fallible.bind_ok_iff.mp hc
  split at hc
  case h_1 | h_2 | h_3 | h_4 => exact failure_pure hc rfl
  case h_5 | h_6 =>
    obtain ⟨_, -, hc⟩ := Fallible.bind_ok_iff.mp hc
    exact failure_continueAfter hc
  case h_7 =>
    simp only [Fallible.bind_ok_iff] at hc
    obtain ⟨_, -, _, -, hc⟩ := hc
    split at hc
    · obtain ⟨_, -, hc⟩ := Fallible.bind_ok_iff.mp hc
      exact (not_error_of_pure hc).elim
    · exact (not_error_of_pure hc).elim

theorem failure_callRecv {bufferLen : Nat} (hc : c.callRecv bufferLen = .ok (c', .error e)) :
    Failure c e c' := by
  unfold callRecv at hc
  split at hc
  case h_1 | h_2 | h_3 => exact failure_pure hc rfl
  case h_4 | h_5 | h_6 => exact failure_retryAfter hc
  case h_7 =>
    split at hc
    case h_1 => exact (not_error_of_pure hc).elim
    case h_2 =>
      split at hc
      · obtain ⟨_, -, hc⟩ := Fallible.bind_ok_iff.mp hc
        exact (not_error_of_pure hc).elim
      · exact failure_retryAfter hc
    case h_3 =>
      obtain ⟨_, -, hc⟩ := Fallible.bind_ok_iff.mp hc
      dsimp only at hc
      split at hc
      · obtain ⟨_, -, hc⟩ := Fallible.bind_ok_iff.mp hc
        exact (not_error_of_pure hc).elim
      · exact (not_error_of_pure hc).elim

theorem failure_callShutdown (hc : c.callShutdown = .ok (c', .error e)) : Failure c e c' := by
  unfold callShutdown at hc
  split at hc
  case h_1 | h_2 | h_3 => exact failure_pure hc rfl
  case h_4 | h_5 => exact (not_error_of_pure hc).elim
  case h_6 =>
    split at hc
    · exact failure_retryAfter hc
    · simp only [Fallible.bind_ok_iff] at hc
      obtain ⟨_, -, _, -, hc⟩ := hc
      exact (not_error_of_pure hc).elim
  case h_7 =>
    split at hc
    case h_1 | h_2 => exact failure_pure hc rfl
    case h_3 =>
      split at hc
      · exact failure_retryAfter hc
      · simp only [Fallible.bind_ok_iff] at hc
        obtain ⟨_, -, _, -, hc⟩ := hc
        exact (not_error_of_pure hc).elim

theorem failure_finishClose {c₀ : Connection Addr Time} {closeActive : Bool}
    (hc : c₀.finishClose closeActive = .ok (c', .error e)) : Failure c e c' := by
  obtain ⟨_, -, hc⟩ := Fallible.bind_ok_iff.mp hc
  split at hc
  · exact (not_error_of_pure hc).elim
  · exact failure_continueAfter hc

theorem failure_callClose (hc : c.callClose = .ok (c', .error e)) : Failure c e c' := by
  unfold callClose at hc
  split at hc
  case h_1 | h_2 | h_3 => exact failure_pure hc rfl
  case h_4 | h_5 => exact (not_error_of_pure hc).elim
  case h_6 =>
    split at hc
    · exact failure_retryAfter hc
    · simp only [Fallible.bind_ok_iff] at hc
      obtain ⟨_, -, _, -, hc⟩ := hc
      exact failure_continueAfter hc
  case h_7 =>
    dsimp only at hc
    split at hc
    case h_1 =>
      split at hc
      · exact failure_retryAfter hc
      · obtain ⟨_, -, hc⟩ := Fallible.bind_ok_iff.mp hc
        exact failure_finishClose hc
    case h_2 | h_3 => exact failure_finishClose hc

omit [UserTime Time] in
theorem failure_callAbort (hc : c.callAbort = .ok (c', .error e)) : Failure c e c' := by
  unfold callAbort at hc
  split at hc
  case h_1 | h_2 => exact failure_pure hc rfl
  case h_3 | h_4 | h_5 | h_6 | h_7 => exact (not_error_of_pure hc).elim

theorem failure {op : Op Time} {out : Output} (hc : c.step op = .ok (c', out))
    (he : out.error = some e) : Failure c e c' := by
  have of_call {r : Except Error Unit} (he : (Output.call r).error = some e) : r = .error e := by
    cases r with
    | error => exact congrArg Except.error (Option.some.inj he)
    | ok => cases he
  cases opStep_of_ok hc with
  | callConnect hc => exact failure_callConnect (of_call he ▸ hc)
  | callSend hc => exact failure_callSend (of_call he ▸ hc)
  | @callRecv _ _ r hc =>
      cases r with
      | error => exact failure_callRecv (Option.some.inj he ▸ hc)
      | ok => cases he
  | callShutdown hc => exact failure_callShutdown (of_call he ▸ hc)
  | callClose hc => exact failure_callClose (of_call he ▸ hc)
  | callAbort hc => exact failure_callAbort (of_call he ▸ hc)
  | setOptions | onSegment | onTimeTick => cases he

end Connection

namespace CookieLog

open Connection

variable {Addr Time : Type} [UserTime Time] {c c' : Connection Addr Time} {n : CookieLog}

/-- A call that fails changes no field, so it sends nothing and resumes nobody.
A call to be retried adds one waiter with a cookie no call returned before. -/
theorem failure_atomic (h : (watch Addr Time).Reachable c n) {op : Op Time} {out : Output}
    (hc : c.step op = .ok (c', out)) {e : Error} (he : out.error = some e) :
    (e.cookie = none → c' = c) ∧
      ∀ k, e = .retryAfter k → k ∉ n.returned ∧
        ∃ w, c' = { c with events := ⟨c.events.suspended ++ [(w, k)], k + 1⟩ } := by
  cases failure hc he with
  | refused hcookie =>
      refine ⟨fun _ => rfl, fun k hk => ?_⟩
      subst hk
      cases hcookie
  | delayed w =>
      refine ⟨nofun, fun k hk => ?_⟩
      obtain rfl := Error.retryAfter.inj hk
      refine ⟨?_, w, rfl⟩
      rw [(accounts_of_reachable h).1.returned]
      exact List.not_mem_range_self
  | continued => exact ⟨nofun, nofun⟩

/-- A read in Listen waits with a new cookie; a send in Listen fails. -/
theorem failure_atomic_listen : ∃ c c' : Connection Unit Nat,
    c.step (.callRecv 1) = .ok (c', .recv (.error (.retryAfter 0))) ∧
    (0 ∉ ([] : List Cookie) ∧
      ∃ w, c' = { c with events := ⟨c.events.suspended ++ [(w, 0)], 1⟩ }) ∧
    ∀ c'', c.step (.callSend [1]) = .ok (c'', .call (.error .notConnected)) → c'' = c := by
  let c : Connection Unit Nat := .listening () .default zeroUser
  have hstart : (watch Unit Nat).Reachable c ⟨[], []⟩ :=
    .init ((watch Unit Nat).init_start (initial_listening () .default zeroUser))
  have hrecv : c.step (.callRecv 1) =
      .ok (c.suspend .established, .recv (.error (.retryAfter 0))) := rfl
  exact ⟨c, _, hrecv, (failure_atomic hstart hrecv rfl).2 0 rfl,
    fun c'' hsend => (failure_atomic hstart hsend rfl).1 rfl⟩

end CookieLog

end TcpState
