import Joker.Market.BarOrder
import Joker.Runtime.MarketTicks

/-!
# Windows of bars

Library `Runtime`. The bars that a tick puts into a snapshot are the end of the list of emitted
bars of a timeframe. Where the emitted bars are in order of start, this end holds the latest of
them. A batch that was opened out of order breaks both.
-/

namespace Joker.Runtime

open Joker.Base Joker.Broker Joker.Market

/-- A window holds the latest bars, as many as there are up to a number, in order of start. -/
structure LatestBars (n : ℕ) (bars shown : List MarketBar) : Prop where
  subset : shown ⊆ bars
  length_eq : shown.length = min n bars.length
  ordered : shown.Pairwise (fun x y ↦ x.start < y.start)
  latest : ∀ bar ∈ bars, bar ∉ shown → ∀ other ∈ shown, bar.start < other.start

/-- The end of a list of bars in order of start has its latest bars. -/
theorem latestBars_lastBars {bars : List MarketBar}
    (h : bars.Pairwise (fun x y ↦ x.start < y.start)) {n : ℕ} (hn : 0 < n) :
    LatestBars n bars (MarketRuntime.lastBars n bars) := by
  unfold MarketRuntime.lastBars
  rw [if_neg (by omega)]
  have hsplit := List.take_append_drop (bars.length - n) bars
  refine ⟨List.drop_subset _ _, by rw [List.length_drop]; omega,
    h.sublist (List.drop_sublist _ _), ?_⟩
  intro bar hbar hnot other hother
  rw [← hsplit] at hbar h
  have hbefore := (List.mem_append.mp hbar).resolve_right hnot
  exact (List.pairwise_append.mp h).2.2 bar hbefore other hother

/-- The emitted bars of each symbol and timeframe are in order of start, and the window that a tick
of a runtime takes of a timeframe with one symbol has the latest of them. -/
structure BarsInOrder (bars : BarBuilder) : Prop where
  chronological : Chronological bars.closedBars
  windows : ∀ runtime : MarketRuntime, runtime.bars = bars → ∀ tf symbol,
    (∀ bar ∈ bars.closedBars, bar.timeframe = tf → bar.symbol = symbol) → ∀ n, 0 < n →
      LatestBars n (bars.closedBars.filter (fun bar ↦ bar.timeframe = tf)) (runtime.window tf n)

/-- The windows are in order when the emitted bars are. -/
theorem barsInOrder_iff (bars : BarBuilder) :
    BarsInOrder bars ↔ Chronological bars.closedBars := by
  refine ⟨fun h ↦ h.chronological, fun h ↦ ⟨h, ?_⟩⟩
  rintro runtime rfl tf symbol hsymbol n hn
  apply latestBars_lastBars _ hn
  refine (h.sublist List.filter_sublist).imp_of_mem ?_
  intro x y hx hy hxy
  obtain ⟨hx, htfx⟩ := List.mem_filter.mp hx
  obtain ⟨hy, htfy⟩ := List.mem_filter.mp hy
  have htfx := of_decide_eq_true htfx
  have htfy := of_decide_eq_true htfy
  exact hxy ((hsymbol x hx htfx).trans (hsymbol y hy htfy).symm) (htfx.trans htfy.symm)

/-- In a run in order, the emitted bars and their windows are in order after every call exactly
when every closing finds the bars that are ready opened in order. -/
theorem barsInOrder_run_iff (tz : ExchangeTz) (lateToleranceSeconds : Int) (calls : List BarCall)
    (horder : CalledInOrder tz calls) :
    (∀ pre, pre <+: calls →
        BarsInOrder (run (BarBuilder.call tz) (.new lateToleranceSeconds) pre)) ↔
      ∀ pre c, pre ++ [c] <+: calls → ∀ reference ∈ c.reference tz,
        (run (BarBuilder.call tz) (.new lateToleranceSeconds) pre).ReadyInOrder reference := by
  simp only [barsInOrder_iff]
  exact BarBuilder.chronological_run_iff tz lateToleranceSeconds calls horder

/-- The first trade of a minute, and one of the minute before that is received after it. -/
def turnedAround : List BarCall :=
  [.trade (.sample "a" (.sample 1 0) 500 10),
    .trade
      { TradeObservation.sample "b" (.sample 0 59) 499 5 with
        receivedTimestamp := .sample 1 1 },
    .closeReadyBars (AwareDatetime.sample 2 5).time]

private theorem calledInOrder_turnedAround : CalledInOrder .sample turnedAround := by decide +kernel

/-- The equivalence for these trades. -/
theorem barsInOrder_run_iff_turnedAround :
    (∀ pre, pre <+: turnedAround → BarsInOrder (run (BarBuilder.call .sample) (.new 2) pre)) ↔
      ∀ pre c, pre ++ [c] <+: turnedAround → ∀ reference ∈ c.reference .sample,
        (run (BarBuilder.call .sample) (.new 2) pre).ReadyInOrder reference :=
  barsInOrder_run_iff .sample 2 turnedAround calledInOrder_turnedAround

/-- The bar of the later minute is emitted first. -/
theorem not_barsInOrder_turnedAround :
    CalledInOrder .sample turnedAround ∧
      ¬ ∀ pre, pre <+: turnedAround → BarsInOrder (run (BarBuilder.call .sample) (.new 2) pre) := by
  refine ⟨calledInOrder_turnedAround, ?_⟩
  intro h
  exact absurd (h turnedAround List.prefix_rfl).chronological (by decide +kernel)

end Joker.Runtime
