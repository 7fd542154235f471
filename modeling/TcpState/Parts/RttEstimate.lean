import TcpState.Foundation.Smoothing
import TcpState.Model.Rtt

/-!
# The retransmission timeout estimate

RFC 6298 estimates the round-trip time and its variation from the samples, and
derives the retransmission timeout. `update_rtt` follows the recurrences, but
it applies its two limits in the order that leaves one value only.
-/

namespace TcpState

/-- The estimate of RFC 6298, in nanoseconds. -/
structure RttEstimate where
  srtt : Nat
  rttVar : Nat
deriving DecidableEq, Repr

namespace RttEstimate

open Smoothing

/-- The estimate after the first sample. -/
def first (rtt : Nat) : RttEstimate := ⟨rtt, rtt / 2⟩

/-- The estimate after a further sample, with beta 1/4 for the variation, which
uses the old smoothed time, and alpha 1/8 for the smoothed time. -/
def next (e : RttEstimate) (rtt : Nat) : RttEstimate where
  rttVar := smooth (1 / 4) e.rttVar ((e.srtt : Int) - rtt).natAbs
  srtt := smooth (1 / 8) e.srtt rtt

/-- The estimate after a first sample and further ones. -/
def ofSamples (rtt : Nat) (samples : List Nat) : RttEstimate := samples.foldl next (first rtt)

/-- The smoothed time and four times the variation. -/
def timeout (e : RttEstimate) : Nat := e.srtt + 4 * e.rttVar

/-- The timeout, at least one second and at most `MAX_RTO`. -/
def rto (e : RttEstimate) : Nat := min (max e.timeout Duration.second) maxRto

/-- The sums of one update fit in a `Duration`. -/
structure Fits (e : RttEstimate) (rtt : Nat) : Prop where
  rttVar : 3 * e.rttVar + ((e.srtt : Int) - rtt).natAbs < Duration.fromSecs (2 ^ 64)
  srtt : 7 * e.srtt + rtt < Duration.fromSecs (2 ^ 64)
  timeout : (e.next rtt).timeout < Duration.fromSecs (2 ^ 64)

/-- The sums of all updates fit. -/
def AllFit : RttEstimate → List Nat → Prop
  | _, [] => True
  | e, rtt :: samples => e.Fits rtt ∧ (e.next rtt).AllFit samples

variable {e : RttEstimate} {rtt bound : Nat} {samples : List Nat}

theorem next_rttVar (e : RttEstimate) (rtt : Nat) :
    (e.next rtt).rttVar = (3 * e.rttVar + ((e.srtt : Int) - rtt).natAbs) / 4 :=
  smooth_eq_div (k := 4) (by omega) _ _

theorem next_srtt (e : RttEstimate) (rtt : Nat) :
    (e.next rtt).srtt = (7 * e.srtt + rtt) / 8 :=
  smooth_eq_div (k := 8) (by omega) _ _

/-- Positive samples keep the smoothed time positive. -/
theorem next_srtt_pos (he : 0 < e.srtt) (hrtt : 0 < rtt) : 0 < (e.next rtt).srtt :=
  le_smooth (by norm_num) (by norm_num) he hrtt

/-- The estimate stays within a bound on the samples. -/
structure Within (e : RttEstimate) (bound : Nat) : Prop where
  srtt : e.srtt ≤ bound
  rttVar : e.rttVar ≤ bound

theorem within_first (hrtt : rtt ≤ bound) : (first rtt).Within bound :=
  ⟨hrtt, (Nat.div_le_self _ _).trans hrtt⟩

theorem Within.next (h : e.Within bound) (hrtt : rtt ≤ bound) : (e.next rtt).Within bound := by
  have hsrtt := h.srtt
  refine ⟨smooth_le (by norm_num) (by norm_num) hsrtt hrtt, ?_⟩
  exact smooth_le (by norm_num) (by norm_num) h.rttVar (by omega)

theorem Within.fits (h : e.Within bound) (hrtt : rtt ≤ bound)
    (hbound : 8 * bound < Duration.fromSecs (2 ^ 64)) : e.Fits rtt := by
  have h' := h.next hrtt
  obtain ⟨hsrtt, hvar⟩ := h
  obtain ⟨hsrtt', hvar'⟩ := h'
  refine ⟨by omega, by omega, ?_⟩
  rw [RttEstimate.timeout]
  omega

/-- No update overflows while the samples stay below an eighth of the longest
duration. -/
theorem Within.allFit (h : e.Within bound) (hsamples : ∀ rtt ∈ samples, rtt ≤ bound)
    (hbound : 8 * bound < Duration.fromSecs (2 ^ 64)) : e.AllFit samples := by
  induction samples generalizing e with
  | nil => trivial
  | cons rtt samples ih =>
      have hrtt : rtt ≤ bound := hsamples rtt List.mem_cons_self
      exact ⟨h.fits hrtt hbound,
        ih (h.next hrtt) fun r hr => hsamples r (List.mem_cons_of_mem _ hr)⟩

/-- The limited timeout is `MAX_RTO` exactly when the unlimited one is as long. -/
theorem rto_eq_maxRto_iff : e.rto = maxRto ↔ maxRto ≤ e.timeout := by
  have hlt : Duration.second < maxRto := by decide
  rw [rto, min_eq_right_iff, le_max_iff]
  exact or_iff_left hlt.not_ge

end RttEstimate

namespace Timings

open RttEstimate

/-- The timings hold the estimate. -/
structure Holds (t : Timings) (e : RttEstimate) : Prop where
  srtt : t.srtt = e.srtt
  rttVar : t.rttVar = e.rttVar

variable {t t' : Timings} {e : RttEstimate} {rtt : Duration} {samples : List Duration}

theorem durationAbsdiff_eq (a b : Nat) :
    durationAbsdiff a b = ((a : Int) - b).natAbs := by
  change (if b < a then a - b else b - a : Nat) = _
  split <;> omega

/-- The limits of `update_rtt` leave `MAX_RTO` only. -/
theorem limited_eq (rto : Duration) : max (min rto Duration.second) maxRto = maxRto :=
  max_eq_right ((min_le_right _ _).trans (by decide))

/-- The first sample sets the estimate and leaves the timeout alone. -/
theorem updateRtt_first (h : t.srtt = Duration.zero) :
    t.updateRtt rtt = .ok { t with srtt := rtt, rttVar := rtt / 2 } := by
  rw [updateRtt, if_pos h]
  rfl

/-- A further sample moves the estimate on and sets the timeout to `MAX_RTO`. -/
theorem updateRtt_ok_iff (h : t.Holds e) (he : 0 < e.srtt) : t.updateRtt rtt = .ok t' ↔
    e.Fits rtt ∧ t' = ⟨maxRto, (e.next rtt).srtt, (e.next rtt).rttVar⟩ := by
  have hne : t.srtt ≠ Duration.zero := by
    rw [h.srtt]
    exact he.ne'
  have hmax (n : Nat) : max n Duration.zero = n := Nat.max_zero n
  rw [updateRtt, if_neg hne]
  simp only [Fallible.bind_ok_iff, Duration.mul_ok_iff, Duration.add_ok_iff, Fallible.pure_ok_iff,
    limited_eq, durationAbsdiff_eq, hmax, h.srtt, h.rttVar]
  constructor
  · rintro ⟨_, ⟨-, rfl⟩, _, ⟨hvar, rfl⟩, _, ⟨-, rfl⟩, _, ⟨hsrtt, rfl⟩, _, ⟨-, rfl⟩, _,
      ⟨htimeout, rfl⟩, rfl⟩
    rw [← next_rttVar, ← next_srtt] at htimeout ⊢
    exact ⟨⟨hvar, hsrtt, htimeout⟩, rfl⟩
  · rintro ⟨⟨hvar, hsrtt, htimeout⟩, rfl⟩
    rw [RttEstimate.timeout] at htimeout
    rw [next_rttVar, next_srtt] at htimeout ⊢
    exact ⟨_, ⟨(Nat.le_add_right _ _).trans_lt hvar, rfl⟩, _, ⟨hvar, rfl⟩, _,
      ⟨(Nat.le_add_right _ _).trans_lt hsrtt, rfl⟩, _, ⟨hsrtt, rfl⟩, _,
      ⟨(Nat.le_add_left _ _).trans_lt htimeout, rfl⟩, _, ⟨htimeout, rfl⟩, rfl⟩

/-- The timings after further samples: the estimate of all of them, and the
timeout `MAX_RTO`. -/
theorem updateAll_ok_iff (h : t.Holds e) (he : 0 < e.srtt) (hpos : ∀ r ∈ samples, 0 < r)
    (hmore : samples ≠ [] ∨ t.rto = maxRto) : t.updateAll samples = .ok t' ↔ e.AllFit samples ∧
      t' = ⟨maxRto, (samples.foldl next e).srtt, (samples.foldl next e).rttVar⟩ := by
  induction samples generalizing t e with
  | nil =>
      have ht : t = ⟨maxRto, e.srtt, e.rttVar⟩ := by
        rw [← hmore.resolve_left fun hne => hne rfl, ← h.srtt, ← h.rttVar]
      rw [updateAll, List.foldlM_nil, Fallible.pure_ok_iff, eq_comm, List.foldl_nil, ← ht]
      exact (and_iff_right trivial).symm
  | cons r samples ih =>
      have hr : 0 < r := hpos r List.mem_cons_self
      have hrest : ∀ r ∈ samples, 0 < r := fun r hr => hpos r (List.mem_cons_of_mem _ hr)
      have hnext := ih (t := ⟨maxRto, _, _⟩) (e := e.next r) ⟨rfl, rfl⟩
        (next_srtt_pos he hr) hrest (.inr rfl)
      simp only [updateAll, List.foldlM_cons, Fallible.bind_ok_iff, updateRtt_ok_iff h he]
      constructor
      · rintro ⟨_, ⟨hfits, rfl⟩, hall⟩
        obtain ⟨hfit, rfl⟩ := hnext.mp hall
        exact ⟨⟨hfits, hfit⟩, rfl⟩
      · rintro ⟨⟨hfits, hfit⟩, rfl⟩
        exact ⟨_, ⟨hfits, rfl⟩, hnext.mpr ⟨hfit, rfl⟩⟩

/-- The timings hold the estimate and the timeout of RFC 6298. -/
structure Follows (t : Timings) (e : RttEstimate) : Prop extends Holds t e where
  rto : t.rto = e.rto

/-- New timings follow RFC 6298 through two or more positive samples exactly
when no sum overflows and the estimated timeout is not below `MAX_RTO`. -/
theorem follows_iff (r₁ r₂ : Duration) (rs : List Duration)
    (hpos : ∀ r ∈ r₁ :: r₂ :: rs, 0 < r) :
    (∃ t, Timings.default.updateAll (r₁ :: r₂ :: rs) = .ok t ∧
        t.Follows (ofSamples r₁ (r₂ :: rs))) ↔
      (RttEstimate.first r₁).AllFit (r₂ :: rs) ∧
        maxRto ≤ (ofSamples r₁ (r₂ :: rs)).timeout := by
  have hfirst : Timings.default.updateAll (r₁ :: r₂ :: rs) =
      Timings.updateAll ⟨Duration.second, r₁, r₁ / 2⟩ (r₂ :: rs) := by
    rw [updateAll, List.foldlM_cons, updateRtt_first rfl]
    rfl
  have hrun (t : Timings) : Timings.updateAll ⟨Duration.second, r₁, r₁ / 2⟩ (r₂ :: rs) = .ok t ↔
      (RttEstimate.first r₁).AllFit (r₂ :: rs) ∧ t =
        ⟨maxRto, (ofSamples r₁ (r₂ :: rs)).srtt, (ofSamples r₁ (r₂ :: rs)).rttVar⟩ :=
    updateAll_ok_iff ⟨rfl, rfl⟩ (hpos r₁ List.mem_cons_self)
      (fun r hr => hpos r (List.mem_cons_of_mem _ hr)) (.inl (List.cons_ne_nil _ _))
  simp only [hfirst, hrun, ← rto_eq_maxRto_iff]
  constructor
  · rintro ⟨_, ⟨hfit, rfl⟩, hfollows⟩
    exact ⟨hfit, hfollows.rto.symm⟩
  · rintro ⟨hfit, hrto⟩
    exact ⟨_, ⟨hfit, rfl⟩, ⟨rfl, rfl⟩, hrto.symm⟩

/-- Two samples of 400 seconds. -/
theorem follows_iff_slow : ∃ t, Timings.default.updateAll
      [Duration.fromSecs 400, Duration.fromSecs 400] = .ok t ∧
    t.Follows (ofSamples (Duration.fromSecs 400) [Duration.fromSecs 400]) := by
  refine (follows_iff _ _ [] (by decide)).mpr ⟨?_, ?_⟩
  · exact (within_first (Nat.le_refl _)).allFit (by decide) (by decide)
  · rw [ofSamples, List.foldl_cons, List.foldl_nil, RttEstimate.timeout, next_srtt, next_rttVar]
    decide

/-- Two samples of 100 milliseconds ask for one second and get `MAX_RTO`. -/
theorem follows_fails : ¬ ∀ (r₁ r₂ : Duration) (rs : List Duration),
    (∀ r ∈ r₁ :: r₂ :: rs, 0 < r) → ∀ t, Timings.default.updateAll (r₁ :: r₂ :: rs) = .ok t →
      t.Follows (ofSamples r₁ (r₂ :: rs)) := by
  intro hall
  have hfollows := hall 100000000 100000000 [] (by decide) ⟨maxRto, 100000000, 37500000⟩ rfl
  have hrto := hfollows.rto
  rw [ofSamples, List.foldl_cons, List.foldl_nil, RttEstimate.rto, RttEstimate.timeout, next_srtt,
    next_rttVar] at hrto
  revert hrto
  decide

end Timings

end TcpState
