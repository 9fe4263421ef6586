import Joker.Market.BarCalls

/-!
# Observations within the tolerance

Library `Market`. A closing emits a bar from the instant of its end and the tolerance on; an
observation is accepted up to and including that instant. While calls happen in the order of their
times, an observation within the tolerance is therefore dropped exactly when it is received at that
very instant, after a closing at it has found the bar open.
-/

namespace Joker.Market

open Joker.Base Joker.Broker Joker.Ledger

/-- Every observation is received no earlier than the reference time of every closing before it. -/
def ClosedInOrder (tz : ExchangeTz) (calls : List BarCall) : Prop :=
  calls.Pairwise (fun before c ↦
    ∀ closed ∈ before.reference tz, ∀ at_ ∈ c.received tz, closed ≤ at_)

instance (tz : ExchangeTz) (calls : List BarCall) : Decidable (ClosedInOrder tz calls) :=
  inferInstanceAs (Decidable (calls.Pairwise _))

/-- An observation is received within the tolerance of its bar of a timeframe. -/
def Arrival.InTolerance (tz : ExchangeTz) (a : Arrival) (tolerance : Int) (tf : BarTimeframe) :
    Prop :=
  a.receivedTimestamp.wall tz ≤ intervalEnd (a.key tz tf).start tf + tolerance

namespace BarBuilder

variable {tz : ExchangeTz} {lateToleranceSeconds : Int} {calls : List BarCall}

/-- Every observation of a run that is within the tolerance of a timeframe is applied to its bar,
and leaves no finding that it was dropped. -/
def AppliesInTolerance (tz : ExchangeTz) (lateToleranceSeconds : Int) (calls : List BarCall) :
    Prop :=
  ∀ pre c, pre ++ [c] <+: calls →
    ∀ a ∈ (run (call tz) (new lateToleranceSeconds) pre).arrivalOf c, ∀ tf,
      a.InTolerance tz (new lateToleranceSeconds).tolerance tf →
      (a.Carries → Applied tz (run (call tz) (new lateToleranceSeconds) pre)
        (run (call tz) (new lateToleranceSeconds) (pre ++ [c])) a tf) ∧
      ¬ DropsIn ((run (call tz) (new lateToleranceSeconds) (pre ++ [c])).findings.drop
        (run (call tz) (new lateToleranceSeconds) pre).findings.length) a tf

/-- No observation is received at the very instant of its bar's end and the tolerance, after a
closing at that instant has found the bar open. -/
def NeverAtLimit (tz : ExchangeTz) (lateToleranceSeconds : Int) (calls : List BarCall) : Prop :=
  ∀ pre c, pre ++ [c] <+: calls →
    ∀ a ∈ (run (call tz) (new lateToleranceSeconds) pre).arrivalOf c, a.Carries → ∀ tf,
      a.receivedTimestamp.wall tz =
        intervalEnd (a.key tz tf).start tf + (new lateToleranceSeconds).tolerance →
      ¬ FoundReady tz lateToleranceSeconds pre (a.key tz tf) (a.receivedTimestamp.wall tz)

/-- When an arrival was received is in its call. -/
theorem received_of_arrival {b : BarBuilder} {c : BarCall} {a : Arrival} (h : a ∈ b.arrivalOf c) :
    c.received tz = some (a.receivedTimestamp.wall tz) := by
  obtain ⟨obs, hobs, rfl⟩ := Option.map_eq_some_iff.mp h
  exact congrArg (Option.map _) hobs

/-- In order, a closing that an arrival within the tolerance finds too late was at the instant of
the arrival. -/
theorem eq_of_foundReady (horder : ClosedInOrder tz calls) {pre : List BarCall} {c : BarCall}
    (hpre : pre ++ [c] <+: calls) {a : Arrival}
    (ha : a ∈ (run (call tz) (new lateToleranceSeconds) pre).arrivalOf c) {tf : BarTimeframe}
    (hin : a.InTolerance tz (new lateToleranceSeconds).tolerance tf) {reference : Int}
    (hfound : FoundReady tz lateToleranceSeconds pre (a.key tz tf) reference) :
    reference = a.receivedTimestamp.wall tz ∧ a.receivedTimestamp.wall tz =
      intervalEnd (a.key tz tf).start tf + (new lateToleranceSeconds).tolerance := by
  obtain ⟨before, closing, hclosing, hreference, -, hready⟩ := hfound
  have hmem : closing ∈ pre := hclosing.subset (by simp)
  have hle : reference ≤ a.receivedTimestamp.wall tz :=
    (List.pairwise_append.mp (horder.sublist hpre.sublist)).2.2 closing hmem c
      (List.mem_singleton_self c) reference hreference _ (received_of_arrival ha)
  have hready' : intervalEnd (a.key tz tf).start tf + (new lateToleranceSeconds).tolerance ≤
      reference := hready
  unfold Arrival.InTolerance at hin
  omega

/-- In a run in order, the observations within the tolerance are applied exactly when none comes
at the instant of a closing that has emitted its bar. -/
theorem appliesInTolerance_iff (tz : ExchangeTz) (lateToleranceSeconds : Int)
    (calls : List BarCall) (horder : ClosedInOrder tz calls) :
    AppliesInTolerance tz lateToleranceSeconds calls ↔
      NeverAtLimit tz lateToleranceSeconds calls := by
  unfold AppliesInTolerance NeverAtLimit
  refine forall_congr' fun pre ↦ forall_congr' fun c ↦ forall_congr' fun hpre ↦
    forall_congr' fun a ↦ forall_congr' fun ha ↦ ?_
  have hwf := wellformed_run tz (wellformed_new lateToleranceSeconds) pre
  have htolerance := tolerance_run tz (wellformed_new lateToleranceSeconds) pre
  obtain ⟨findings, hfindings, hdrops⟩ := findings_call_eq tz hwf ha
  have happlied := fun tf ↦ @applied_call tz _ a tf hwf c ha
  rw [run_snoc, hfindings, List.drop_left]
  constructor
  · intro happlies hcarries tf hlimit hfound
    have hin : a.InTolerance tz (new lateToleranceSeconds).tolerance tf := hlimit.le
    have hreaches : (run (call tz) (new lateToleranceSeconds) pre).Reaches tz a tf := by
      by_contra hnot
      exact (happlies tf hin).2 ((hdrops tf).mpr ⟨hcarries, hnot⟩)
    exact hreaches.1 ((mem_emitted_run_iff tz _ pre _).mpr ⟨_, hfound⟩)
  · intro hnever tf hin
    have hreaches : a.Carries → (run (call tz) (new lateToleranceSeconds) pre).Reaches tz a tf := by
      intro hcarries
      refine ⟨?_, by rw [htolerance]; exact hin⟩
      intro hemitted
      obtain ⟨reference, hfound⟩ := (mem_emitted_run_iff tz _ pre _).mp hemitted
      obtain ⟨rfl, hlimit⟩ := eq_of_foundReady horder hpre ha hin hfound
      exact hnever hcarries tf hlimit hfound
    refine ⟨fun hcarries ↦ happlied tf hcarries (hreaches hcarries), ?_⟩
    rw [hdrops]
    exact fun hdropped ↦ hdropped.2 (hreaches hdropped.1)

/-- A trade that is received two seconds after the minute. -/
def lateTrade : TradeObservation :=
  { TradeObservation.sample "b" (.sample 0 59) 501 5 with receivedTimestamp := .sample 1 2 }

/-- Two trades of a minute, and a closing at the instant at which the second is received. -/
def closedAtLimit : List BarCall :=
  [.trade (.sample "a" (.sample 0 30) 500 10), .closeReadyBars (AwareDatetime.sample 1 2).time,
    .trade lateTrade]

private theorem closedInOrder_closedAtLimit :
    ClosedInOrder .sample closedAtLimit := by decide +kernel

/-- The equivalence for these trades. -/
theorem appliesInTolerance_iff_closedAtLimit :
    AppliesInTolerance .sample 2 closedAtLimit ↔ NeverAtLimit .sample 2 closedAtLimit :=
  appliesInTolerance_iff .sample 2 closedAtLimit closedInOrder_closedAtLimit

/-- The second trade is received within the tolerance, and its one-minute bar is gone. -/
theorem not_appliesInTolerance_closedAtLimit :
    ClosedInOrder .sample closedAtLimit ∧ ¬ AppliesInTolerance .sample 2 closedAtLimit := by
  refine ⟨closedInOrder_closedAtLimit, ?_⟩
  intro h
  have harrival : (lateTrade.toObserved.arrival (some 501) 5) ∈
      (run (call .sample) (new 2) (closedAtLimit.take 2)).arrivalOf (.trade lateTrade) := by
    decide +kernel
  obtain ⟨bar, hbar, -⟩ := (h (closedAtLimit.take 2) (.trade lateTrade) List.prefix_rfl _ harrival
    .m1 (by unfold Arrival.InTolerance; decide +kernel)).1 (by decide +kernel)
  have hgone : (run (call .sample) (new 2) (closedAtLimit.take 2 ++ [.trade lateTrade])).opened.get?
      ((lateTrade.toObserved.arrival (some 501) 5).key .sample .m1) = none := by
    decide +kernel
  exact absurd (hgone.symm.trans hbar) (by simp)

end BarBuilder
end Joker.Market
