import Joker.Market.BarCalls

/-!
# The order of the emitted bars

Library `Market`. One closing emits its bars in the order in which they were opened, which a late
observation within the tolerance can turn around. From one closing to the next the order is that of
the intervals, as long as calls happen in the order of their times: what is still open, or opened
later, ends after everything that was emitted.
-/

namespace Joker.Market

open Joker.Base Joker.Broker Joker.Ledger

/-- Received times and reference times do not go back from call to call. -/
def CalledInOrder (tz : ExchangeTz) (calls : List BarCall) : Prop :=
  calls.Pairwise (fun before c ↦ ∀ earlier ∈ before.time tz, ∀ later ∈ c.time tz, earlier ≤ later)

instance (tz : ExchangeTz) (calls : List BarCall) : Decidable (CalledInOrder tz calls) :=
  inferInstanceAs (Decidable (calls.Pairwise _))

/-- The bars of each symbol and timeframe are in strictly increasing order of start. -/
def Chronological (bars : List MarketBar) : Prop :=
  bars.Pairwise (fun x y ↦ x.symbol = y.symbol → x.timeframe = y.timeframe → x.start < y.start)

instance (bars : List MarketBar) : Decidable (Chronological bars) :=
  inferInstanceAs (Decidable (bars.Pairwise _))

namespace BarKey

/-- An earlier interval, if the symbol and the timeframe are the same. -/
def Before (x y : BarKey) : Prop :=
  x.symbol = y.symbol → x.timeframe = y.timeframe → x.start < y.start

instance (x y : BarKey) : Decidable (x.Before y) := inferInstanceAs (Decidable (_ → _ → _))

end BarKey

private theorem chronological_iff (bars : List MarketBar) :
    Chronological bars ↔ (bars.map MarketBar.key).Pairwise BarKey.Before := by
  rw [List.pairwise_map]
  rfl

namespace BarBuilder

variable {tz : ExchangeTz} {lateToleranceSeconds : Int} {b : BarBuilder}

/-- The open bars that are ready were opened in the order of their intervals. -/
def ReadyInOrder (b : BarBuilder) (reference : Int) : Prop :=
  ((b.readyEntries reference).map Prod.fst).Pairwise BarKey.Before

instance (b : BarBuilder) (reference : Int) : Decidable (b.ReadyInOrder reference) :=
  inferInstanceAs (Decidable (List.Pairwise _ _))

/-- What is open comes after what is emitted. -/
def OpenAfter (b : BarBuilder) : Prop :=
  ∀ k ∈ b.emitted, ∀ k', (b.opened.get? k').isSome → k.Before k'

private theorem before_of_end {k k' : BarKey} {reference tolerance : Int}
    (hpast : intervalEnd k.start k.timeframe + tolerance ≤ reference)
    (hnot : reference < intervalEnd k'.start k'.timeframe + tolerance) : k.Before k' := by
  intro _ htimeframe
  unfold intervalEnd at hpast hnot
  rw [htimeframe] at hpast
  omega

/-- A closing leaves open what ends after everything it emits. -/
theorem OpenAfter.close (h : b.OpenAfter) (hwf : b.Wellformed) {c : BarCall} {reference : Int}
    (href : c.reference tz = some reference) : (b.call tz c).OpenAfter := by
  intro k hk k' hk'
  rw [call_close hwf href] at hk hk'
  rw [mem_emitted_emitAll, exists_readyEntries_iff hwf] at hk
  rw [get?_emitAll] at hk'
  split at hk'
  · cases hk'
  · next hnot =>
    rcases hk with hemitted | ⟨-, hpast⟩
    · exact h k hemitted k' hk'
    · apply before_of_end hpast
      by_contra hready
      apply hnot
      obtain ⟨⟨key, bar⟩, hmem, hkey⟩ :=
        (exists_readyEntries_iff hwf k').mpr ⟨hk', not_lt.mp hready⟩
      obtain rfl : k' = key :=
        hkey.symm.trans (hwf.keyed key bar (mem_readyEntries.mp hmem).1)
      exact List.mem_map_of_mem hmem

private theorem OpenAfter.arrival {calls : List BarCall}
    (h : (run (call tz) (new lateToleranceSeconds) calls).OpenAfter) {c : BarCall} {a : Arrival}
    (ha : a ∈ (run (call tz) (new lateToleranceSeconds) calls).arrivalOf c)
    (htime : c.time tz = some (a.receivedTimestamp.wall tz))
    (horder : CalledInOrder tz (calls ++ [c])) :
    ((run (call tz) (new lateToleranceSeconds) calls).call tz c).OpenAfter := by
  have hwf := wellformed_run tz (wellformed_new lateToleranceSeconds) calls
  have htolerance := tolerance_run tz (wellformed_new lateToleranceSeconds) calls
  have hnone := reference_of_arrival tz ha
  intro k hk k' hk'
  rw [(emitted_call hwf hnone).1] at hk
  rcases isSome_opened_call hwf ha hk' with hbefore | ⟨tf, rfl, hreaches⟩
  · exact h k hk k' hbefore
  · obtain ⟨reference, pre, closing, hpre, href, -, hpast⟩ :=
      (mem_emitted_run_iff tz lateToleranceSeconds calls k).mp hk
    have hclosed : closing.time tz = some reference := by
      cases closing with
      | closeReadyBars now => exact href
      | quote obs => cases href
      | trade obs => cases href
      | underlying obs => cases href
    have hle : reference ≤ a.receivedTimestamp.wall tz :=
      (List.pairwise_append.mp horder).2.2 closing (hpre.subset (by simp)) c
        (List.mem_singleton_self c) reference hclosed _ htime
    have hin := hreaches.2
    rw [htolerance] at hin
    intro hsymbol htimeframe
    have hne : k.start ≠ (a.key tz tf).start := by
      intro hstart
      have hkey : k = a.key tz tf := by
        obtain ⟨symbol, timeframe, start⟩ := k
        exact congr (congr (congrArg BarKey.mk hsymbol) htimeframe) hstart
      exact hreaches.1 (hkey ▸ hk)
    have htf : k.timeframe = tf := htimeframe
    unfold intervalEnd at hpast hin
    rw [htf] at hpast
    omega

/-- In a run in order, what is open comes after what is emitted. -/
theorem openAfter_run (tz : ExchangeTz) (lateToleranceSeconds : Int) (calls : List BarCall)
    (horder : CalledInOrder tz calls) :
    (run (call tz) (new lateToleranceSeconds) calls).OpenAfter := by
  induction calls using List.reverseRecOn with
  | nil =>
    intro k hk
    simp [new] at hk
  | append_singleton calls last ih =>
    have hwf := wellformed_run tz (wellformed_new lateToleranceSeconds) calls
    have hopen := ih (horder.sublist (List.sublist_append_left calls [last]))
    rw [run_snoc]
    rcases call_cases tz hwf last with ⟨a, ha, -, htime⟩ | ⟨now, href, -⟩ | ⟨-, -, hsame⟩
    · exact hopen.arrival ha htime horder
    · exact hopen.close hwf href
    · rw [hsame]
      exact hopen

/-- One closing keeps the emitted bars in order exactly when what it emits is in order. -/
theorem chronological_close (h : b.OpenAfter) (hwf : b.Wellformed) {c : BarCall} {reference : Int}
    (href : c.reference tz = some reference) :
    Chronological (b.call tz c).closedBars ↔
      Chronological b.closedBars ∧ b.ReadyInOrder reference := by
  have hkeys : ((b.readyEntries reference).map (fun e ↦ e.2.finished)).map MarketBar.key =
      (b.readyEntries reference).map Prod.fst := by
    rw [List.map_map]
    apply List.map_congr_left
    intro e he
    have hget := (mem_readyEntries.mp he).1
    exact (congrArg MarketBar.key e.2.figures_finished).trans (hwf.keyed e.1 e.2 hget)
  rw [call_close hwf href, closedBars_emitAll, chronological_iff, chronological_iff,
    List.map_append, hkeys, List.pairwise_append]
  refine and_congr_right fun _ ↦ and_iff_left ?_
  intro k hk k' hk'
  obtain ⟨⟨key, bar⟩, hmem, rfl⟩ := List.mem_map.mp hk'
  exact h k ((hwf.emitted k).mpr hk) key
    (Option.isSome_of_eq_some (mem_readyEntries.mp hmem).1)

/-- In a run in order, the emitted bars are in order after every call exactly when every closing
finds the bars that are ready opened in order. -/
theorem chronological_run_iff (tz : ExchangeTz) (lateToleranceSeconds : Int) (calls : List BarCall)
    (horder : CalledInOrder tz calls) :
    (∀ pre, pre <+: calls →
        Chronological (run (call tz) (new lateToleranceSeconds) pre).closedBars) ↔
      ∀ pre c, pre ++ [c] <+: calls → ∀ reference ∈ c.reference tz,
        (run (call tz) (new lateToleranceSeconds) pre).ReadyInOrder reference := by
  have hstep : ∀ pre c, pre ++ [c] <+: calls →
      (Chronological (run (call tz) (new lateToleranceSeconds) (pre ++ [c])).closedBars ↔
        Chronological (run (call tz) (new lateToleranceSeconds) pre).closedBars ∧
          ∀ reference ∈ c.reference tz,
            (run (call tz) (new lateToleranceSeconds) pre).ReadyInOrder reference) := by
    intro pre c hpre
    have hwf := wellformed_run tz (wellformed_new lateToleranceSeconds) pre
    have hopen := openAfter_run tz lateToleranceSeconds pre
      (horder.sublist ((List.prefix_append pre [c]).trans hpre).sublist)
    rw [run_snoc]
    cases href : c.reference tz with
    | none =>
      rw [(emitted_call hwf href).2]
      simp
    | some reference =>
      rw [chronological_close hopen hwf href]
      simp
  constructor
  · intro h pre c hpre
    exact ((hstep pre c hpre).mp (h _ hpre)).2
  · intro h pre
    induction pre using List.reverseRecOn with
    | nil => exact fun _ ↦ List.Pairwise.nil
    | append_singleton pre c ih =>
      intro hpre
      exact (hstep pre c hpre).mpr
        ⟨ih ((List.prefix_append pre [c]).trans hpre), h pre c hpre⟩

end BarBuilder
end Joker.Market
