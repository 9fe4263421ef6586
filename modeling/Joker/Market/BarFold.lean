import Joker.Market.BarTape

/-!
# Emitted prices and volumes

Library `Market`. An emitted bar shows the reference fold over the observations that were assigned
to it, each once and in the order in which they arrived: the first and the last price, the
extreme ones and the total volume. A bar that no price reached says so.
-/

namespace Joker.Market

open Joker.Base Joker.Broker Joker.Ledger

/-- The prices of some ticks, in order. -/
def pricesInOrder (ticks : List (Tick Uuid ℚ)) : List ℚ := ticks.filterMap Tick.price

private theorem mem_pricesInOrder {ticks : List (Tick Uuid ℚ)} {p : ℚ} :
    p ∈ pricesInOrder ticks ↔ p ∈ Tick.prices ticks := by
  simp [pricesInOrder, Tick.prices]

private theorem pricesInOrder_snoc_none (ticks : List (Tick Uuid ℚ)) {t : Tick Uuid ℚ}
    (h : t.price = none) : pricesInOrder (ticks ++ [t]) = pricesInOrder ticks := by
  simp [pricesInOrder, h]

private theorem pricesInOrder_snoc_some (ticks : List (Tick Uuid ℚ)) {t : Tick Uuid ℚ} {p : ℚ}
    (h : t.price = some p) : pricesInOrder (ticks ++ [t]) = pricesInOrder ticks ++ [p] := by
  simp [pricesInOrder, h]

namespace OpenBar

/-- The fold counts the prices and keeps the first and the last. -/
theorem ends_ofTicks (key : BarKey) (ticks : List (Tick Uuid ℚ)) :
    (ofTicks key ticks).tickCount = (pricesInOrder ticks).length ∧
      (ofTicks key ticks).openPrice = (pricesInOrder ticks).head?.getD 0 ∧
      (ofTicks key ticks).close = (pricesInOrder ticks).getLast?.getD 0 := by
  induction ticks using List.reverseRecOn with
  | nil => exact ⟨rfl, rfl, rfl⟩
  | append_singleton ticks t ih =>
    obtain ⟨hcount, hopen, hclose⟩ := ih
    rw [ofTicks_snoc]
    cases ht : t.price with
    | none =>
      rw [tick_of_none _ ht, pricesInOrder_snoc_none ticks ht]
      exact ⟨hcount, hopen, hclose⟩
    | some price =>
      rw [tick_of_some _ ht, pricesInOrder_snoc_some ticks ht]
      refine ⟨?_, ?_, ?_⟩
      · simp [hcount]
      · simp only [hcount, hopen]
        cases pricesInOrder ticks with
        | nil => rfl
        | cons first rest => simp
      · simp

private theorem mem_withFlag (flag : QualityFlag) (flags : List QualityFlag) :
    flag ∈ if flag ∉ flags then flags ++ [flag] else flags := by
  split
  · exact List.mem_append_right _ (List.mem_singleton_self _)
  · next hm => exact not_not.mp hm

/-- A bar that no price reached is shown as empty and incomplete. -/
theorem toMarketBar_of_unpriced {bar : OpenBar} (h : bar.tickCount = 0)
    (incomplete : Option Bool) :
    .emptyInterval ∈ (bar.toMarketBar incomplete).qualityFlags ∧
      (bar.toMarketBar incomplete).incomplete = true := by
  unfold toMarketBar
  simp only [h, decide_true, Bool.or_true, true_and, and_true]
  exact mem_withFlag _ _

/-- So it is emitted. -/
theorem finished_of_unpriced {bar : OpenBar} (h : bar.tickCount = 0) :
    .emptyInterval ∈ bar.finished.qualityFlags ∧ bar.finished.incomplete = true := by
  unfold finished
  simp only
  apply toMarketBar_of_unpriced
  split <;> exact h

end OpenBar

/-- A bar says of some ticks what the reference fold says: with prices, the first, the last, the
extreme ones and the total volume; without any, that it is empty. -/
structure MarketBar.Folds (bar : MarketBar) (ticks : List (Tick Uuid ℚ)) : Prop where
  openPrice : ∀ first ∈ (pricesInOrder ticks).head?, bar.openPrice = first
  close : ∀ last ∈ (pricesInOrder ticks).getLast?, bar.close = last
  high : pricesInOrder ticks ≠ [] → IsGreatest {p | p ∈ pricesInOrder ticks} bar.high
  low : pricesInOrder ticks ≠ [] → IsLeast {p | p ∈ pricesInOrder ticks} bar.low
  between : pricesInOrder ticks ≠ [] →
    (bar.low ≤ bar.openPrice ∧ bar.openPrice ≤ bar.high) ∧
      (bar.low ≤ bar.close ∧ bar.close ≤ bar.high)
  volume : bar.volume = (ticks.map Tick.volume).sum
  empty : pricesInOrder ticks = [] →
    .emptyInterval ∈ bar.qualityFlags ∧ bar.incomplete = true

/-- A finished bar with the figures of the fold says what the fold says. -/
theorem OpenBar.folds_finished {bar : OpenBar} {key : BarKey} {ticks : List (Tick Uuid ℚ)}
    (h : bar.figures = ofTicks key ticks) : bar.finished.Folds ticks := by
  have hshown : bar.finished.figures = (ofTicks key ticks).shown := by
    rw [bar.figures_finished, ← h]
    rfl
  have hcount : bar.figures.tickCount = (ofTicks key ticks).tickCount := congrArg tickCount h
  obtain ⟨hticks, hopen, hclose⟩ := ends_ofTicks key ticks
  have hrecords := (records_ofTicks key ticks).summary
  have hset : {p | p ∈ pricesInOrder ticks} = Tick.prices ticks := by
    ext p
    exact mem_pricesInOrder
  have hopened : bar.finished.openPrice = (pricesInOrder ticks).head?.getD 0 :=
    (congrArg MarketBar.openPrice hshown).trans hopen
  have hclosed : bar.finished.close = (pricesInOrder ticks).getLast?.getD 0 :=
    (congrArg MarketBar.close hshown).trans hclose
  have hnonempty (hne : pricesInOrder ticks ≠ []) : (Tick.prices ticks).Nonempty := by
    obtain ⟨p, hp⟩ := List.exists_mem_of_ne_nil _ hne
    exact ⟨p, mem_pricesInOrder.mp hp⟩
  have hhigh (hne : pricesInOrder ticks ≠ []) :
      IsGreatest {p | p ∈ pricesInOrder ticks} bar.finished.high := by
    rw [hset, show bar.finished.high = (ofTicks key ticks).high from
      congrArg MarketBar.high hshown]
    exact hrecords.high (hnonempty hne)
  have hlow (hne : pricesInOrder ticks ≠ []) :
      IsLeast {p | p ∈ pricesInOrder ticks} bar.finished.low := by
    rw [hset, show bar.finished.low = (ofTicks key ticks).low from
      congrArg MarketBar.low hshown]
    exact hrecords.low (hnonempty hne)
  refine ⟨?_, ?_, hhigh, hlow, ?_, ?_, ?_⟩
  · intro first hfirst
    rw [hopened, hfirst]
    rfl
  · intro last hlast
    rw [hclosed, hlast]
    rfl
  · intro hne
    have hfirst : bar.finished.openPrice ∈ pricesInOrder ticks := by
      rw [hopened, List.head?_eq_some_head hne]
      exact List.head_mem hne
    have hlast : bar.finished.close ∈ pricesInOrder ticks := by
      rw [hclosed, List.getLast?_eq_some_getLast hne]
      exact List.getLast_mem hne
    exact ⟨⟨(hlow hne).2 hfirst, (hhigh hne).2 hfirst⟩, (hlow hne).2 hlast, (hhigh hne).2 hlast⟩
  · rw [show bar.finished.volume = (ofTicks key ticks).volume from
      congrArg MarketBar.volume hshown]
    exact hrecords.volume
  · intro hnone
    apply finished_of_unpriced
    change bar.figures.tickCount = 0
    rw [hcount, hticks, hnone]
    rfl

namespace BarBuilder

variable {tz : ExchangeTz} {b : BarBuilder} {tape : BarTape}

/-- The id and the timeframe of an assignment. -/
def assignment (e : BarKey × Tick Uuid ℚ) : Uuid × BarTimeframe := (e.2.id, e.1.timeframe)

/-- The tape has every assignment once. -/
structure Assigned (b : BarBuilder) (tape : BarTape) : Prop where
  once : (tape.map assignment).Nodup
  assigned : ∀ x, x ∈ b.assignedObs ↔ x ∈ tape.map assignment

private theorem Assigned.applyIn (h : b.Assigned tape) (hwf : b.Wellformed) (tz : ExchangeTz)
    (a : Arrival) (tf : BarTimeframe) :
    (b.applyIn tz a tf).Assigned (tape ++ b.ticksIn tz a tf) := by
  unfold ticksIn
  by_cases hnew : b.Reaches tz a tf ∧ (a.observationId, tf) ∉ b.assignedObs
  · rw [if_pos hnew]
    have hassignment : [(a.key tz tf, a.tick)].map assignment = [(a.observationId, tf)] := rfl
    constructor
    · rw [List.map_append, hassignment, List.nodup_append]
      refine ⟨h.once, List.nodup_singleton _, ?_⟩
      intro x hx y hy heq
      rw [heq, List.mem_singleton.mp hy] at hx
      exact hnew.2 ((h.assigned _).mpr hx)
    · intro x
      rw [mem_assignedObs_applyIn hwf, List.map_append, hassignment, List.mem_append,
        List.mem_singleton, h.assigned]
      exact or_congr_right (and_iff_right hnew.1)
  · rw [if_neg hnew, List.append_nil]
    refine ⟨h.once, fun x ↦ ?_⟩
    rw [mem_assignedObs_applyIn hwf, ← h.assigned]
    constructor
    · rintro (hx | ⟨hreaches, rfl⟩)
      · exact hx
      · by_contra hn
        exact hnew ⟨hreaches, hn⟩
    · exact Or.inl

private theorem keptOnTape_assigned (tz : ExchangeTz) : KeptOnTape tz Assigned where
  remember _ _ _ _ h := ⟨h.once, h.assigned⟩
  applyIn _ _ _ _ hwf h := h.applyIn hwf tz _ _
  emit _ _ _ _ _ h _ := ⟨h.once, h.assigned⟩

/-- The tape of every run has every assignment once. -/
theorem assigned_run (tz : ExchangeTz) (lateToleranceSeconds : Int) (calls : List BarCall) :
    (run (call tz) (new lateToleranceSeconds) calls).Assigned
      (tapeOf tz (new lateToleranceSeconds) calls) :=
  run_taped (keptOnTape_assigned tz) lateToleranceSeconds
    ⟨List.nodup_nil, fun x ↦ by simp [new]⟩ calls

/-- In every run the tape has every assigned observation once for each timeframe, and every
emitted bar shows the reference fold of what was assigned to it. -/
theorem emitted_folds (tz : ExchangeTz) (lateToleranceSeconds : Int) (calls : List BarCall) :
    let b := run (call tz) (new lateToleranceSeconds) calls
    let tape := tapeOf tz (new lateToleranceSeconds) calls
    b.Assigned tape ∧
      ∀ bar ∈ b.closedBars, bar.Folds (Tick.within tape (fun k ↦ k = bar.key)) := by
  refine ⟨assigned_run tz lateToleranceSeconds calls, ?_⟩
  intro bar hbar
  obtain ⟨found, heq, hfigures⟩ := (folded_run tz lateToleranceSeconds calls).closed bar hbar
  have hfolds := OpenBar.folds_finished hfigures
  rwa [← heq] at hfolds

end BarBuilder
end Joker.Market
