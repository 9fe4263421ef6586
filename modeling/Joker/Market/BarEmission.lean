import Mathlib.Data.Int.ConditionallyCompleteOrder
import Mathlib.Order.CompletePartialOrder
import Mathlib.Order.Interval.Set.Basic
import Mathlib.Order.Interval.Set.Disjoint
import Joker.Market.Bars

/-!
# Emission of bars

Library `Market`. What one call of a bar builder can do to its bars, and the invariant of every
run: bars are stored under their own keys, with aligned intervals, and a key is open or emitted
once but never both.
-/

namespace Joker.Market

open Joker.Base Joker.Broker Joker.Ledger

namespace OpenBar

/-- The figures of a bar: the bar without its marks of lateness and gaps. -/
def figures (bar : OpenBar) : OpenBar :=
  { bar with lateData := false, incomplete := false, qualityFlags := ∅ }

/-- A late mark is no figure. -/
@[simp] theorem figures_markLate (bar : OpenBar) : bar.markLate.figures = bar.figures := rfl

/-- A bar has its figures whether it is marked late or not. -/
theorem figures_lateMark (bar : OpenBar) (late : Prop) [Decidable late] :
    (if late then bar.markLate else bar).figures = bar.figures := by
  split
  · exact bar.figures_markLate
  · rfl

/-- The figures of a bar keep its key. -/
@[simp] theorem key_figures (bar : OpenBar) : bar.figures.key = bar.key := rfl

/-- The figures of a bar keep its end. -/
@[simp] theorem endTime_figures (bar : OpenBar) : bar.figures.endTime = bar.endTime := rfl

/-- A new bar has the key that it was opened under. -/
@[simp] theorem key_new (key : BarKey) : (new key).key = key := rfl

/-- Bars with the same figures have the same key. -/
theorem key_eq_of_figures {bar bar' : OpenBar} (h : bar.figures = bar'.figures) :
    bar.key = bar'.key :=
  (key_figures bar).symm.trans ((congrArg key h).trans (key_figures bar'))

private theorem figures_applyPrice (bar : OpenBar) (price : ℚ) (observationId : Uuid)
    (late : Bool) :
    (bar.applyPrice price observationId late).figures =
      bar.figures.applyPrice price observationId false := by
  by_cases h : bar.tickCount = 0
  · cases late <;> simp [applyPrice, figures, markLate, h]
  · cases late <;> simp only [applyPrice, figures, markLate, h, if_false] <;> rfl

private theorem figures_applyAnyPrice (bar : OpenBar) (price : Option ℚ) (observationId : Uuid)
    (late : Bool) :
    (bar.applyAnyPrice price observationId late).figures =
      bar.figures.applyAnyPrice price observationId false := by
  cases price with
  | some price => exact figures_applyPrice bar price observationId late
  | none => cases late <;> rfl

private theorem figures_addVolume {bar : OpenBar} {size : Int} (h : 0 < size) :
    (bar.addVolume size false).figures = bar.figures.addVolume size false := by
  have hn : ¬ size < 0 := by omega
  simp [addVolume, hn, figures]

/-- Lateness leaves the figures alone. -/
theorem figures_observe (bar : OpenBar) (a : Arrival) (late : Bool) :
    (bar.observe a late).figures = bar.figures.observe a false := by
  unfold observe
  simp only
  split
  · next hv => rw [figures_addVolume hv, figures_applyAnyPrice]
  · exact figures_applyAnyPrice bar a.price a.observationId late

/-- An observation keeps the key of its bar. -/
@[simp] theorem key_observe (bar : OpenBar) (a : Arrival) (late : Bool) :
    (bar.observe a late).key = bar.key := by
  have hpriced : (bar.applyAnyPrice a.price a.observationId late).key = bar.key := by
    unfold applyAnyPrice applyPrice
    cases a.price <;> cases late <;> by_cases h : bar.tickCount = 0 <;> simp [h, key, markLate]
  unfold observe addVolume
  simp only
  split
  · split <;> exact hpriced
  · exact hpriced

/-- An observation keeps the end of its bar. -/
@[simp] theorem endTime_observe (bar : OpenBar) (a : Arrival) (late : Bool) :
    (bar.observe a late).endTime = bar.endTime := by
  have hpriced : (bar.applyAnyPrice a.price a.observationId late).endTime = bar.endTime := by
    unfold applyAnyPrice applyPrice
    cases a.price <;> cases late <;> by_cases h : bar.tickCount = 0 <;> simp [h, markLate]
  unfold observe addVolume
  simp only
  split
  · split <;> exact hpriced
  · exact hpriced

end OpenBar

/-- The figures of an emitted bar. -/
def MarketBar.figures (bar : MarketBar) : MarketBar :=
  { bar with qualityFlags := [], incomplete := false, lateData := false }

/-- The figures of an open bar, as an emitted bar shows them. -/
def OpenBar.shown (bar : OpenBar) : MarketBar :=
  { symbol := bar.symbol
    timeframe := bar.timeframe
    start := bar.start
    endTime := bar.endTime
    openPrice := bar.openPrice
    high := bar.high
    low := bar.low
    close := bar.close
    volume := bar.volume
    qualityFlags := []
    incomplete := false
    lateData := false
    observationIds := bar.observationIds }

private theorem OpenBar.figures_toMarketBar (bar : OpenBar) (incomplete : Option Bool) :
    (bar.toMarketBar incomplete).figures = bar.shown := rfl

/-- A finished bar has the figures that it showed. -/
theorem OpenBar.figures_finished (bar : OpenBar) : bar.finished.figures = bar.shown := by
  unfold OpenBar.finished
  simp only [OpenBar.figures_toMarketBar]
  split <;> rfl

/-- A finding that an observation was dropped for a timeframe. -/
structure BarIngestFinding.Drops (f : BarIngestFinding) (a : Arrival) (tf : BarTimeframe) :
    Prop where
  code : f.code = .droppedAfterClose ∨ f.code = .droppedTooLate
  symbol : f.symbol = a.symbol
  timeframe : f.timeframe = some tf
  observationId : f.observationId = some a.observationId

namespace BarBuilder

variable {tz : ExchangeTz} {b : BarBuilder} {a : Arrival} {tf : BarTimeframe}

/-- An observation reaches its bar: the bar is not emitted and the tolerance not over. -/
def Reaches (tz : ExchangeTz) (b : BarBuilder) (a : Arrival) (tf : BarTimeframe) : Prop :=
  a.key tz tf ∉ b.emitted ∧
    a.receivedTimestamp.wall tz ≤ intervalEnd (a.key tz tf).start tf + b.tolerance

instance : Decidable (b.Reaches tz a tf) := inferInstanceAs (Decidable (_ ∧ _))

/-- The open bar of a key, or a new one. -/
def barAt (b : BarBuilder) (key : BarKey) : OpenBar := (b.opened.get? key).getD (.new key)

private theorem key_barAt (h : b.opened.Keyed OpenBar.key) (key : BarKey) :
    (b.barAt key).key = key := by
  unfold barAt
  cases hget : b.opened.get? key with
  | none => rfl
  | some bar => exact h key bar hget

/-- The open bars differ in marks only, but for one key. -/
def OnlyAt (key : BarKey) (before after : Dict BarKey OpenBar) : Prop :=
  ∀ k, k ≠ key → (after.get? k).map OpenBar.figures = (before.get? k).map OpenBar.figures

private theorem onlyAt_set (d : Dict BarKey OpenBar) (key : BarKey) (bar : OpenBar) :
    OnlyAt key d (d.set key bar) := by
  intro k hk
  rw [d.get?_set_ne bar (Ne.symm hk)]

private theorem onlyAt_trans {key : BarKey} {d₁ d₂ d₃ : Dict BarKey OpenBar}
    (h₁ : OnlyAt key d₁ d₂) (h₂ : OnlyAt key d₂ d₃) : OnlyAt key d₁ d₃ :=
  fun k hk ↦ (h₂ k hk).trans (h₁ k hk)

/-- An observation that reaches its bar is given it, opened when it was not. -/
theorem barFor_of_reaches (h : b.Reaches tz a tf) :
    ∃ opened bar, b.barFor tz a tf = ({ b with opened := opened }, some bar) ∧
      OnlyAt (a.key tz tf) b.opened opened ∧ opened.get? (a.key tz tf) = some bar ∧
      bar.figures = (b.barAt (a.key tz tf)).figures := by
  obtain ⟨hemitted, hintime⟩ := h
  unfold barFor barAt
  simp only
  rw [if_neg hemitted, if_neg (by omega)]
  cases hget : b.opened.get? (a.key tz tf) with
  | some existing =>
    refine ⟨_, _, rfl, onlyAt_set _ _ _, Dict.get?_set_self _ _ _, ?_⟩
    exact existing.figures_lateMark _
  | none =>
    refine ⟨_, _, rfl, onlyAt_trans ?_ (onlyAt_set _ _ _), Dict.get?_set_self _ _ _, ?_⟩
    · intro k _
      rw [Dict.get?_mapItems, Option.map_map]
      congr 1
      funext bar
      simp only [Function.comp_apply]
      split <;> rfl
    · exact OpenBar.figures_lateMark _ _

/-- An observation that does not reach its bar leaves a finding. -/
theorem barFor_of_not_reaches (h : ¬ b.Reaches tz a tf) :
    ∃ f, BarIngestFinding.Drops f a tf ∧ b.barFor tz a tf = (b.report f, none) := by
  unfold barFor
  simp only
  split
  · exact ⟨_, ⟨Or.inl rfl, rfl, rfl, rfl⟩, rfl⟩
  · next hemitted =>
    rw [if_pos (by
      by_contra hn
      exact h ⟨hemitted, by omega⟩)]
    exact ⟨_, ⟨Or.inr rfl, rfl, rfl, rfl⟩, rfl⟩

/-- A dropped observation leaves a finding and nothing else. -/
theorem applyIn_of_not_reaches (h : ¬ b.Reaches tz a tf) :
    ∃ f, BarIngestFinding.Drops f a tf ∧ b.applyIn tz a tf = b.report f := by
  obtain ⟨f, hf, heq⟩ := barFor_of_not_reaches h
  refine ⟨f, hf, ?_⟩
  unfold applyIn
  rw [heq]

/-- An observation that reaches its bar changes the figures of that bar only, and those only if
its id was not assigned before. -/
theorem applyIn_of_reaches (hkeyed : b.opened.Keyed OpenBar.key) (h : b.Reaches tz a tf) :
    ∃ opened bar,
      b.applyIn tz a tf =
        { b with
          assignedObs := insert (a.observationId, tf) b.assignedObs
          opened := opened } ∧
      OnlyAt (a.key tz tf) b.opened opened ∧ opened.get? (a.key tz tf) = some bar ∧
      bar.figures =
        if (a.observationId, tf) ∈ b.assignedObs then (b.barAt (a.key tz tf)).figures
        else (b.barAt (a.key tz tf)).figures.observe a false := by
  obtain ⟨opened, bar, heq, honly, hget, hfigures⟩ := barFor_of_reaches h
  unfold applyIn
  rw [heq]
  simp only
  by_cases hassigned : (a.observationId, tf) ∈ b.assignedObs
  · rw [if_pos hassigned]
    refine ⟨opened, bar, ?_, honly, hget, ?_⟩
    · rw [Finset.insert_eq_of_mem hassigned]
    · rw [if_pos hassigned, hfigures]
  · have hkey : bar.key = a.key tz tf :=
      (OpenBar.key_eq_of_figures hfigures).trans (key_barAt hkeyed _)
    rw [if_neg hassigned]
    refine ⟨_, bar.observe a (decide (bar.endTime ≤ a.receivedTimestamp.wall tz)), rfl,
      ?_, ?_, ?_⟩
    · rw [hkey]
      exact onlyAt_trans honly (onlyAt_set _ _ _)
    · rw [hkey]
      exact Dict.get?_set_self _ _ _
    · rw [if_neg hassigned, OpenBar.figures_observe, hfigures]

/-- A change at one key leaves the figures of every other open bar. -/
theorem OnlyAt.of_get? {key k : BarKey} {d d' : Dict BarKey OpenBar} {bar : OpenBar}
    (h : OnlyAt key d d') (hk : k ≠ key) (hget : d'.get? k = some bar) :
    ∃ before, d.get? k = some before ∧ before.figures = bar.figures := by
  have hmap := h k hk
  rw [hget, Option.map_some] at hmap
  exact Option.map_eq_some_iff.mp hmap.symm

private theorem OnlyAt.get?_eq_none {key k : BarKey} {d d' : Dict BarKey OpenBar}
    (h : OnlyAt key d d')
    (hk : k ≠ key) (hnone : d.get? k = none) : d'.get? k = none := by
  have hmap := h k hk
  rw [hnone, Option.map_none] at hmap
  exact Option.map_eq_none_iff.mp hmap

/-- An open bar is emitted. -/
def emit (b : BarBuilder) (key : BarKey) (bar : OpenBar) : BarBuilder :=
  { b with
    emitted := insert bar.key b.emitted
    closedBars := b.closedBars ++ [bar.finished]
    opened := b.opened.erase key }

/-- Every bar is stored under its key with an aligned interval, and is open or emitted once. -/
structure Wellformed (b : BarBuilder) : Prop where
  keyed : b.opened.Keyed OpenBar.key
  ends : ∀ k, ∀ bar ∈ b.opened.get? k,
    k.timeframe.length ∣ k.start ∧ bar.endTime = intervalEnd k.start k.timeframe
  closedEnds : ∀ bar ∈ b.closedBars,
    bar.timeframe.length ∣ bar.start ∧ bar.endTime = intervalEnd bar.start bar.timeframe
  emitted : ∀ k, k ∈ b.emitted ↔ k ∈ b.closedBars.map MarketBar.key
  once : (b.closedBars.map MarketBar.key).Nodup
  apart : ∀ k ∈ b.emitted, b.opened.get? k = none

/-- A new builder is well formed. -/
theorem wellformed_new (lateToleranceSeconds : Int) : (new lateToleranceSeconds).Wellformed where
  keyed := Dict.keyed_empty _
  ends _ _ h := nomatch h
  closedEnds _ h := nomatch h
  emitted k := by simp [new]
  once := List.nodup_nil
  apart k h := by simp [new] at h

/-- The memory of cumulative volumes and the findings are free. -/
theorem Wellformed.remember (h : b.Wellformed) (lastCumVol : Dict String Int)
    (findings : List BarIngestFinding) :
    ({ b with lastCumVol := lastCumVol, findings := findings } : BarBuilder).Wellformed :=
  ⟨h.keyed, h.ends, h.closedEnds, h.emitted, h.once, h.apart⟩

private theorem endTime_barAt (h : b.Wellformed) {key : BarKey} :
    (b.barAt key).endTime = intervalEnd key.start key.timeframe := by
  unfold barAt
  cases hget : b.opened.get? key with
  | none => rfl
  | some bar => exact (h.ends key bar hget).2

/-- An observation keeps the bars well formed. -/
theorem Wellformed.applyIn (h : b.Wellformed) (tz : ExchangeTz) (a : Arrival)
    (tf : BarTimeframe) : (b.applyIn tz a tf).Wellformed := by
  by_cases hreaches : b.Reaches tz a tf
  · obtain ⟨opened, bar, heq, honly, hget, hfigures⟩ := applyIn_of_reaches h.keyed hreaches
    have hkey : bar.key = a.key tz tf := by
      have hk := congrArg OpenBar.key hfigures
      rw [apply_ite OpenBar.key] at hk
      simpa [key_barAt h.keyed] using hk
    have hend : bar.endTime = intervalEnd (a.key tz tf).start (a.key tz tf).timeframe := by
      have he := congrArg OpenBar.endTime hfigures
      rw [apply_ite OpenBar.endTime] at he
      simpa [endTime_barAt h] using he
    rw [heq]
    refine ⟨?_, ?_, h.closedEnds, h.emitted, h.once, ?_⟩
    · intro k bar' hbar'
      by_cases hk : k = a.key tz tf
      · subst hk
        obtain rfl : bar = bar' := Option.some.inj (hget.symm.trans hbar')
        exact hkey
      · obtain ⟨before, hbefore, hsame⟩ := honly.of_get? hk hbar'
        exact (OpenBar.key_eq_of_figures hsame).symm.trans (h.keyed k before hbefore)
    · intro k bar' hbar'
      by_cases hk : k = a.key tz tf
      · subst hk
        obtain rfl : bar = bar' := Option.some.inj (hget.symm.trans hbar')
        exact ⟨length_dvd_floorWall _ _, hend⟩
      · obtain ⟨before, hbefore, hsame⟩ := honly.of_get? hk hbar'
        have hends := h.ends k before hbefore
        have htime : before.figures.endTime = bar'.figures.endTime :=
          congrArg OpenBar.endTime hsame
        exact ⟨hends.1, htime.symm.trans hends.2⟩
    · intro k hk
      have hne : k ≠ a.key tz tf := by
        rintro rfl
        exact hreaches.1 hk
      exact honly.get?_eq_none hne (h.apart k hk)
  · obtain ⟨f, _, heq⟩ := applyIn_of_not_reaches hreaches
    rw [heq]
    exact h.remember _ _

/-- Emitting an open bar keeps the bars well formed. -/
theorem Wellformed.emit (h : b.Wellformed) {key : BarKey} {bar : OpenBar}
    (hget : b.opened.get? key = some bar) : (b.emit key bar).Wellformed := by
  have hkey : bar.key = key := h.keyed key bar hget
  have hfinished : bar.finished.key = key := by
    rw [← hkey]
    exact congrArg MarketBar.key bar.figures_finished
  have hends := h.ends key bar hget
  refine ⟨?_, ?_, ?_, ?_, ?_, ?_⟩
  · intro k bar' hbar'
    change (b.opened.erase key).get? k = some bar' at hbar'
    rw [Dict.get?_erase] at hbar'
    split at hbar'
    · cases hbar'
    · exact h.keyed k bar' hbar'
  · intro k bar' hbar'
    change (b.opened.erase key).get? k = some bar' at hbar'
    rw [Dict.get?_erase] at hbar'
    split at hbar'
    · cases hbar'
    · exact h.ends k bar' hbar'
  · intro bar' hbar'
    rcases List.mem_append.mp hbar' with hbar' | hbar'
    · exact h.closedEnds bar' hbar'
    · obtain rfl := List.mem_singleton.mp hbar'
      have hend : bar.finished.endTime = bar.endTime :=
        congrArg MarketBar.endTime bar.figures_finished
      have hstart : bar.finished.start = key.start := congrArg BarKey.start hfinished
      have htimeframe : bar.finished.timeframe = key.timeframe :=
        congrArg BarKey.timeframe hfinished
      rw [hend, hstart, htimeframe]
      exact hends
  · intro k
    change k ∈ insert bar.key b.emitted ↔ k ∈ (b.closedBars ++ [bar.finished]).map MarketBar.key
    rw [Finset.mem_insert, List.map_append, List.mem_append, h.emitted, hkey]
    simp [hfinished, or_comm]
  · change ((b.closedBars ++ [bar.finished]).map MarketBar.key).Nodup
    rw [List.map_append, List.nodup_append]
    refine ⟨h.once, List.nodup_singleton _, ?_⟩
    intro k hk k' hk' heq
    obtain rfl : k' = key := (List.mem_singleton.mp hk').trans hfinished
    have hnone := h.apart k' ((h.emitted k').mpr (heq ▸ hk))
    rw [hget] at hnone
    cases hnone
  · intro k hk
    change k ∈ insert bar.key b.emitted at hk
    change (b.opened.erase key).get? k = none
    rw [Dict.get?_erase]
    split
    · rfl
    · next hne =>
      rcases Finset.mem_insert.mp hk with rfl | hk
      · exact absurd hkey.symm hne
      · exact h.apart k hk

/-! ### What an observation and an emission add -/

/-- A bar of the key is open or emitted. -/
def Present (b : BarBuilder) (key : BarKey) : Prop :=
  key ∈ b.emitted ∨ (b.opened.get? key).isSome = true

/-- An observation of one bar does not keep another from its own. -/
theorem reaches_applyIn (hwf : b.Wellformed) (a' : Arrival) (tf' : BarTimeframe) :
    (b.applyIn tz a tf).Reaches tz a' tf' ↔ b.Reaches tz a' tf' := by
  by_cases h : b.Reaches tz a tf
  · obtain ⟨opened, bar, heq, -⟩ := applyIn_of_reaches hwf.keyed h
    rw [heq]
    exact Iff.rfl
  · obtain ⟨f, -, heq⟩ := applyIn_of_not_reaches h
    rw [heq]
    exact Iff.rfl

/-- An observation is assigned once it reaches its bar, and stays so. -/
theorem mem_assignedObs_applyIn (hwf : b.Wellformed) (x : Uuid × BarTimeframe) :
    x ∈ (b.applyIn tz a tf).assignedObs ↔
      x ∈ b.assignedObs ∨ (b.Reaches tz a tf ∧ x = (a.observationId, tf)) := by
  by_cases h : b.Reaches tz a tf
  · obtain ⟨opened, bar, heq, -⟩ := applyIn_of_reaches hwf.keyed h
    rw [heq]
    simp [h, or_comm]
  · obtain ⟨f, -, heq⟩ := applyIn_of_not_reaches h
    rw [heq]
    simp [h, report]

/-- A bar is present once an observation reaches it, and stays so. -/
theorem present_applyIn (hwf : b.Wellformed) (k : BarKey) :
    (b.applyIn tz a tf).Present k ↔
      b.Present k ∨ (b.Reaches tz a tf ∧ k = a.key tz tf) := by
  by_cases h : b.Reaches tz a tf
  · obtain ⟨opened, bar, heq, honly, hget, -⟩ := applyIn_of_reaches hwf.keyed h
    rw [heq]
    unfold Present
    by_cases hk : k = a.key tz tf
    · simp [hk, hget, h]
    · have hsome := congrArg Option.isSome (honly k hk)
      rw [Option.isSome_map, Option.isSome_map] at hsome
      simp [hk, hsome]
  · obtain ⟨f, -, heq⟩ := applyIn_of_not_reaches h
    rw [heq]
    simp [h, report, Present]

/-- Emission moves a bar from the open to the closed ones. -/
theorem present_emit {key : BarKey} {bar : OpenBar} (hwf : b.Wellformed)
    (hget : b.opened.get? key = some bar) (k : BarKey) :
    (b.emit key bar).Present k ↔ b.Present k := by
  have hkey : bar.key = key := hwf.keyed key bar hget
  unfold Present
  change (k ∈ insert bar.key b.emitted ∨ ((b.opened.erase key).get? k).isSome = true) ↔ _
  rw [Finset.mem_insert, Dict.get?_erase, hkey]
  by_cases hk : k = key
  · simp [hk, hget]
  · simp [hk, Ne.symm hk]

/-! ### Calls -/

/-- Resolving a volume changes the memory and the findings only. -/
theorem resolveVolume_fst (b : BarBuilder) (symbol : String) (cumulativeVolume : Option Int)
    (tradeSize : Option Int) :
    ∃ lastCumVol findings, (b.resolveVolume symbol cumulativeVolume tradeSize).1 =
      { b with lastCumVol := lastCumVol, findings := findings } := by
  unfold resolveVolume
  simp only
  split
  · exact ⟨_, _, rfl⟩
  · split
    · exact ⟨_, _, rfl⟩
    · split <;> exact ⟨_, _, rfl⟩

/-- The memory after an observation's volume is resolved. -/
theorem lastCumVol_resolveVolume (b : BarBuilder) (symbol : String)
    (cumulativeVolume tradeSize : Option Int) :
    (b.resolveVolume symbol cumulativeVolume tradeSize).1.lastCumVol =
      (cumulativeVolume.map (b.lastCumVol.set symbol)).getD b.lastCumVol := by
  unfold resolveVolume
  cases cumulativeVolume with
  | none => rfl
  | some cumulative =>
    cases b.lastCumVol.get? symbol with
    | none => rfl
    | some prev =>
      simp only
      split <;> rfl

private theorem lastCumVol_applyIn (b : BarBuilder) (a : Arrival) (tf : BarTimeframe) :
    (b.applyIn tz a tf).lastCumVol = b.lastCumVol := by
  by_cases h : b.Reaches tz a tf
  · obtain ⟨opened, bar, heq, -⟩ := barFor_of_reaches h
    unfold applyIn
    rw [heq]
    simp only
    split <;> rfl
  · obtain ⟨f, -, heq⟩ := applyIn_of_not_reaches h
    rw [heq]
    rfl

/-- An ingest remembers the observation's cumulative volume, if it has one. -/
theorem lastCumVol_ingest (b : BarBuilder) (obs : Observed) (price : Option ℚ)
    (size : Option Int) :
    (b.ingest tz obs price size).lastCumVol =
      (obs.cumulativeVolume.map (b.lastCumVol.set obs.symbol)).getD b.lastCumVol := by
  rw [← lastCumVol_resolveVolume b obs.symbol obs.cumulativeVolume size]
  unfold ingest applyObservation
  simp only
  split
  · rfl
  · rw [List.foldl_cons, List.foldl_cons, List.foldl_nil, lastCumVol_applyIn,
      lastCumVol_applyIn]

/-- Closing loops over the open bars; a naive time changes nothing. -/
theorem call_closeReadyBars (tz : ExchangeTz) (b : BarBuilder) (now : Datetime) :
    b.call tz (.closeReadyBars now) =
      if now.aware then (b.opened.entries.foldl (closeOne (tz.wallClock now)) (b, [])).1
      else b := by
  simp only [call, closeReadyBars, ensureAware]
  by_cases h : now.aware = true
  · rw [if_pos h, if_pos h]
  · rw [if_neg h, if_neg h]

/-- What the loop of `close_ready_bars` does to well-formed bars: it emits the ready ones. -/
theorem closeOne_of_wellformed (h : b.Wellformed) (reference : Int) (ready : List MarketBar)
    {key : BarKey} {bar : OpenBar} (hget : b.opened.get? key = some bar) :
    closeOne reference (b, ready) (key, bar) =
      if reference < bar.endTime + b.tolerance then (b, ready)
      else (b.emit key bar, ready ++ [bar.finished]) := by
  have hopen : bar.key ∉ b.emitted := by
    intro hm
    have hnone := h.apart _ hm
    rw [h.keyed key bar hget, hget] at hnone
    cases hnone
  unfold closeOne emit
  simp only
  rw [if_neg hopen]

/-- An emission leaves the other entries of a listing open. -/
theorem entries_emit {key : BarKey} (bar : OpenBar) {rest : List (BarKey × OpenBar)}
    (hkey : key ∉ rest.map Prod.fst) (hrest : ∀ e ∈ rest, b.opened.get? e.1 = some e.2) :
    ∀ e ∈ rest, (b.emit key bar).opened.get? e.1 = some e.2 := by
  intro e he
  have hne : key ≠ e.1 := by
    rintro rfl
    exact hkey (List.mem_map.mpr ⟨e, he, rfl⟩)
  change (b.opened.erase key).get? e.1 = some e.2
  rw [Dict.get?_erase, if_neg hne]
  exact hrest e he

/-- What emission keeps, the loop of `close_ready_bars` keeps. -/
theorem foldl_closeOne_invariant {I : BarBuilder → Prop} {reference : Int}
    (hemit : ∀ b key bar, b.Wellformed → I b → b.opened.get? key = some bar →
      I (b.emit key bar))
    (entries : List (BarKey × OpenBar)) (hnodup : (entries.map Prod.fst).Nodup)
    (ready : List MarketBar) (hwf : b.Wellformed) (hI : I b)
    (hentries : ∀ e ∈ entries, b.opened.get? e.1 = some e.2) :
    (entries.foldl (closeOne reference) (b, ready)).1.Wellformed ∧
      I (entries.foldl (closeOne reference) (b, ready)).1 := by
  induction entries generalizing b ready with
  | nil => exact ⟨hwf, hI⟩
  | cons e rest ih =>
    obtain ⟨key, bar⟩ := e
    rw [List.map_cons, List.nodup_cons] at hnodup
    have hget := hentries (key, bar) List.mem_cons_self
    rw [List.foldl_cons, closeOne_of_wellformed hwf reference ready hget]
    split
    · exact ih hnodup.2 ready hwf hI (fun e he ↦ hentries e (List.mem_cons_of_mem _ he))
    · apply ih hnodup.2 _ (hwf.emit hget) (hemit b key bar hwf hI hget)
      exact entries_emit bar hnodup.1 (fun e he ↦ hentries e (List.mem_cons_of_mem _ he))

/-- Closing leaves the memory alone. -/
theorem lastCumVol_closeReadyBars (hwf : b.Wellformed) (now : Datetime) :
    (b.call tz (.closeReadyBars now)).lastCumVol = b.lastCumVol := by
  rw [call_closeReadyBars]
  split
  · exact (foldl_closeOne_invariant (I := fun b' ↦ b'.lastCumVol = b.lastCumVol)
      (fun _ _ _ _ h _ ↦ h) _ b.opened.nodup [] hwf rfl
      (fun e he ↦ (Dict.mem_entries_iff _ _ _).mp he)).2
  · rfl

/-- The induction rule of a call: what an observation in one timeframe, an emission and a change
of the memory or the findings keep, a call keeps. -/
theorem call_invariant {I : BarBuilder → Prop}
    (hremember : ∀ b lastCumVol findings, I b →
      I { b with lastCumVol := lastCumVol, findings := findings })
    (happly : ∀ b a tf, b.Wellformed → I b → I (b.applyIn tz a tf))
    (hemit : ∀ b key bar, b.Wellformed → I b → b.opened.get? key = some bar →
      I (b.emit key bar))
    (hwf : b.Wellformed) (hI : I b) (c : BarCall) :
    (b.call tz c).Wellformed ∧ I (b.call tz c) := by
  have hingest : ∀ obs price size,
      (b.ingest tz obs price size).Wellformed ∧ I (b.ingest tz obs price size) := by
    intro obs price size
    obtain ⟨lastCumVol, findings, hfst⟩ :=
      resolveVolume_fst b obs.symbol obs.cumulativeVolume size
    have hwf₁ := hwf.remember lastCumVol findings
    have hI₁ := hremember b lastCumVol findings hI
    unfold ingest applyObservation
    simp only [hfst]
    split
    · exact ⟨hwf₁, hI₁⟩
    · have hwf₂ := hwf₁.applyIn tz
      simp only [List.foldl_cons, List.foldl_nil]
      exact ⟨(hwf₂ _ _).applyIn tz _ _,
        happly _ _ _ (hwf₂ _ _) (happly _ _ _ hwf₁ hI₁)⟩
  cases c with
  | quote obs => exact hingest obs.toObserved (quotePrice obs.bid obs.ask obs.last) none
  | trade obs => exact hingest obs.toObserved (some obs.price) (some obs.size)
  | underlying obs => exact hingest obs.toObserved (quotePrice obs.bid obs.ask obs.last) none
  | closeReadyBars now =>
    rw [call_closeReadyBars]
    split
    · exact foldl_closeOne_invariant hemit _ b.opened.nodup [] hwf hI
        (fun e he ↦ (Dict.mem_entries_iff _ _ _).mp he)
    · exact ⟨hwf, hI⟩

/-- The induction rule of a run. -/
theorem run_call_invariant {I : BarBuilder → Prop}
    (hremember : ∀ b lastCumVol findings, I b →
      I { b with lastCumVol := lastCumVol, findings := findings })
    (happly : ∀ b a tf, b.Wellformed → I b → I (b.applyIn tz a tf))
    (hemit : ∀ b key bar, b.Wellformed → I b → b.opened.get? key = some bar →
      I (b.emit key bar))
    (hwf : b.Wellformed) (hI : I b) (calls : List BarCall) :
    (run (call tz) b calls).Wellformed ∧ I (run (call tz) b calls) := by
  apply run_invariant (I := fun b ↦ b.Wellformed ∧ I b) (L := fun _ ↦ True) ?_ calls
    (fun _ _ ↦ trivial) ⟨hwf, hI⟩
  intro s c hs _
  exact call_invariant hremember happly hemit hs.1 hs.2 c

/-- The bars of every run are well formed. -/
theorem wellformed_run (tz : ExchangeTz) (hwf : b.Wellformed) (calls : List BarCall) :
    (run (call tz) b calls).Wellformed :=
  (run_call_invariant (I := fun _ ↦ True) (fun _ _ _ _ ↦ trivial) (fun _ _ _ _ _ ↦ trivial)
    (fun _ _ _ _ _ _ ↦ trivial) hwf trivial calls).1

/-! ### Emitted once -/

/-- No key is open and emitted, no key is emitted twice, every bar covers the aligned interval of
its start, and emitted bars of one symbol and timeframe do not overlap. -/
structure EmittedOnce (b : BarBuilder) : Prop where
  apart : ∀ k ∈ b.emitted, k ∉ b.opened.keys
  once : (b.closedBars.map MarketBar.key).Nodup
  aligned : ∀ bar ∈ b.bars,
    bar.timeframe.length ∣ bar.start ∧ bar.endTime = bar.start + bar.timeframe.length
  disjoint : b.closedBars.Pairwise (fun x y ↦ x.symbol = y.symbol → x.timeframe = y.timeframe →
    Disjoint (Set.Ico x.start x.endTime) (Set.Ico y.start y.endTime))

/-- Distinct aligned intervals of one length are disjoint. -/
theorem disjoint_intervals {tf : BarTimeframe} {s t : Int} (hs : tf.length ∣ s)
    (ht : tf.length ∣ t) (hne : s ≠ t) :
    Disjoint (Set.Ico s (intervalEnd s tf)) (Set.Ico t (intervalEnd t tf)) := by
  rw [Set.disjoint_left]
  intro w hw hw'
  apply hne
  rw [← (floorWall_eq_iff hs).mpr hw, ← (floorWall_eq_iff ht).mpr hw']

/-- An open bar is shown under its key with the end of its interval. -/
theorem exists_of_mem_openBars (h : b.Wellformed) {bar : MarketBar} (hbar : bar ∈ b.openBars) :
    ∃ key open', b.opened.get? key = some open' ∧ bar.figures = open'.shown ∧ bar.key = key := by
  obtain ⟨found, hfound, rfl⟩ := List.mem_map.mp hbar
  obtain ⟨key, hget⟩ := (Dict.mem_values_iff _ _).mp (List.mem_mergeSort.mp hfound)
  exact ⟨key, found, hget, rfl, h.keyed key found hget⟩

/-- Bars are emitted once and never overlap, whatever the observations and the times at which
bars are closed. -/
theorem emittedOnce_run (tz : ExchangeTz) (lateToleranceSeconds : Int) (calls : List BarCall) :
    (run (call tz) (new lateToleranceSeconds) calls).EmittedOnce := by
  have h := wellformed_run tz (wellformed_new lateToleranceSeconds) calls
  generalize run (call tz) (new lateToleranceSeconds) calls = b at h
  refine ⟨?_, h.once, ?_, ?_⟩
  · intro k hk
    exact (Dict.not_mem_keys_iff _ _).mpr (h.apart k hk)
  · intro bar hbar
    rcases List.mem_append.mp hbar with hbar | hbar
    · exact h.closedEnds bar hbar
    · obtain ⟨key, found, hget, hshown, rfl⟩ := exists_of_mem_openBars h hbar
      have hends := h.ends _ found hget
      have hend : bar.endTime = found.endTime := congrArg MarketBar.endTime hshown
      exact ⟨hends.1, hend.trans hends.2⟩
  · have hkeys := List.pairwise_map.mp h.once
    refine hkeys.imp_of_mem ?_
    intro x y hx hy hne hsymbol htimeframe
    obtain ⟨hx, hxend⟩ := h.closedEnds x hx
    obtain ⟨hy, hyend⟩ := h.closedEnds y hy
    rw [hxend, hyend, ← htimeframe]
    apply disjoint_intervals hx (htimeframe ▸ hy)
    intro hstart
    apply hne
    unfold MarketBar.key
    rw [hsymbol, htimeframe, hstart]

end BarBuilder

end Joker.Market
