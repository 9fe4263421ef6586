import Joker.Base.Ticks
import Joker.Market.BarEmission

/-!
# The tape behind the bars

Library `Market`. The tape of a run lists, bar by bar, the observations that were assigned to
one. Every bar, open or emitted, is the summary of its part of the tape: the two timeframes, the
redelivered and the late observations differ only in what they leave on it.
-/

namespace Joker.Market

open Joker.Base Joker.Broker Joker.Ledger

/-- The observations assigned to bars, in order. -/
abbrev BarTape := List (BarKey × Tick Uuid ℚ)

/-- What an observation leaves on the tape. -/
def Arrival.tick (a : Arrival) : Tick Uuid ℚ := ⟨a.observationId, a.price, a.volume.toNat⟩

/-- Volume, high, low and observations of a bar. -/
def MarketBar.summary (bar : MarketBar) : Summary Uuid ℚ :=
  ⟨bar.volume, bar.high, bar.low, bar.observationIds⟩

namespace OpenBar

/-- An open bar summarises some ticks and knows whether one had a price. -/
structure Records (bar : OpenBar) (ticks : List (Tick Uuid ℚ)) : Prop where
  summary : bar.shown.summary.Of ticks
  tickCount : bar.tickCount = 0 ↔ ¬ (Tick.prices ticks).Nonempty

private theorem records_new (key : BarKey) : (new key).Records [] where
  summary :=
    { volume := rfl
      ids := fun i ↦ by simp [shown, MarketBar.summary, new, Tick.pricedIds]
      high := fun h ↦ by simp at h
      low := fun h ↦ by simp at h }
  tickCount := by simp [new]

/-- What a bar records is in its figures. -/
theorem Records.of_figures {bar : OpenBar} {ticks : List (Tick Uuid ℚ)}
    (h : bar.figures.Records ticks) : bar.Records ticks :=
  ⟨h.summary, h.tickCount⟩

/-- A tick reaches the bar: its price, if it has one, and its volume. -/
def tick (bar : OpenBar) (t : Tick Uuid ℚ) : OpenBar :=
  (bar.applyAnyPrice t.price t.id false).addVolume t.volume false

/-- The reference fold: a new bar that is given some ticks in order. -/
def ofTicks (key : BarKey) (ticks : List (Tick Uuid ℚ)) : OpenBar := ticks.foldl tick (new key)

/-- An observation that is not late is a tick. -/
theorem observe_eq_tick (bar : OpenBar) (a : Arrival) : bar.observe a false = bar.tick a.tick := by
  have hcast : ¬ ((a.volume.toNat : Int) < 0) := by omega
  unfold observe tick addVolume Arrival.tick
  simp only [hcast, if_false, Bool.false_eq_true, Int.toNat_natCast]
  split
  · next hpos => rw [if_neg (by omega)]
  · next hpos =>
    have hzero : a.volume.toNat = 0 := by omega
    rw [hzero, Nat.add_zero]

/-- Without ticks a bar is new. -/
@[simp] theorem ofTicks_nil (key : BarKey) : ofTicks key [] = new key := rfl

/-- Ticks go into a bar one after another. -/
theorem ofTicks_snoc (key : BarKey) (ticks : List (Tick Uuid ℚ)) (t : Tick Uuid ℚ) :
    ofTicks key (ticks ++ [t]) = (ofTicks key ticks).tick t := by
  simp [ofTicks]

/-- A tick without a price adds its volume. -/
theorem tick_of_none (bar : OpenBar) {t : Tick Uuid ℚ} (h : t.price = none) :
    bar.tick t = { bar with volume := bar.volume + t.volume } := by
  have hcast : ¬ ((t.volume : Int) < 0) := by omega
  simp [tick, applyAnyPrice, addVolume, h, hcast]

/-- A tick with a price sets the prices of a new bar and moves those of another. -/
theorem tick_of_some (bar : OpenBar) {t : Tick Uuid ℚ} {price : ℚ} (h : t.price = some price) :
    bar.tick t =
      { bar with
        openPrice := if bar.tickCount = 0 then price else bar.openPrice
        high := if bar.tickCount = 0 then price else max price bar.high
        low := if bar.tickCount = 0 then price else min price bar.low
        close := price
        volume := bar.volume + t.volume
        tickCount := bar.tickCount + 1
        observationIds :=
          if t.id ∈ bar.observationIds then bar.observationIds
          else bar.observationIds ++ [t.id] } := by
  have hcast : ¬ ((t.volume : Int) < 0) := by omega
  have hmax : max price bar.high = if bar.high < price then price else bar.high := by
    rw [max_comm, max_def_lt]
  have hmin : min price bar.low = if price < bar.low then price else bar.low := by
    rw [min_def_lt]
  by_cases hcount : bar.tickCount = 0 <;>
    simp [tick, applyAnyPrice, applyPrice, addVolume, h, hcast, hcount, hmax, hmin]

/-- What a bar records of some ticks, it records of one more. -/
theorem Records.tick {bar : OpenBar} {ticks : List (Tick Uuid ℚ)} (h : bar.Records ticks)
    (t : Tick Uuid ℚ) : (bar.tick t).Records (ticks ++ [t]) := by
  cases ht : t.price with
  | none =>
    rw [tick_of_none bar ht]
    constructor
    · exact h.summary.snoc_none ht
    · rw [Tick.prices_snoc_none ticks ht]
      exact h.tickCount
  | some price =>
    rw [tick_of_some bar ht]
    have hids : ∀ i, i ∈ (if t.id ∈ bar.observationIds then bar.observationIds
        else bar.observationIds ++ [t.id]) ↔ i ∈ bar.shown.summary.ids ∨ t.id = i := by
      intro i
      change _ ↔ i ∈ bar.observationIds ∨ t.id = i
      split
      · next hm =>
        constructor
        · exact Or.inl
        · rintro (hi | rfl)
          · exact hi
          · exact hm
      · rw [List.mem_append, List.mem_singleton, eq_comm (a := i)]
    constructor
    · by_cases hcount : bar.tickCount = 0
      · have hshown := h.summary.snoc_first (h.tickCount.mp hcount) ht hids
        simpa [shown, MarketBar.summary, hcount] using hshown
      · have hmore : (Tick.prices ticks).Nonempty := by
          by_contra hn
          exact hcount (h.tickCount.mpr hn)
        have hshown := h.summary.snoc_some hmore ht hids
        simpa [shown, MarketBar.summary, hcount] using hshown
    · rw [Tick.prices_snoc_some ticks ht]
      simp

/-- The reference fold records its ticks. -/
theorem records_ofTicks (key : BarKey) (ticks : List (Tick Uuid ℚ)) :
    (ofTicks key ticks).Records ticks := by
  induction ticks using List.reverseRecOn with
  | nil => exact records_new key
  | append_singleton ticks t ih =>
    rw [ofTicks_snoc]
    exact ih.tick t

end OpenBar

namespace BarBuilder

variable {tz : ExchangeTz} {b : BarBuilder} {a : Arrival} {tf : BarTimeframe} {tape : BarTape}

/-- What an observation leaves on the tape for a timeframe. -/
def ticksIn (tz : ExchangeTz) (a : Arrival) (b : BarBuilder) (tf : BarTimeframe) : BarTape :=
  if b.Reaches tz a tf ∧ (a.observationId, tf) ∉ b.assignedObs then [(a.key tz tf, a.tick)] else []

/-- What an arrival puts on the tape within a period: its tick, where it reaches its bar for the
first time. -/
theorem ticksIn_within (hp : BarKey → Prop) [DecidablePred hp] :
    Tick.within (b.ticksIn tz a tf) hp =
      if hp (a.key tz tf) ∧ b.Reaches tz a tf ∧ (a.observationId, tf) ∉ b.assignedObs then
        [a.tick]
      else [] := by
  unfold ticksIn
  by_cases hk : hp (a.key tz tf) <;>
    by_cases h : b.Reaches tz a tf ∧ (a.observationId, tf) ∉ b.assignedObs <;>
    simp [hk, h, Tick.within]

/-- What an observation leaves on the tape. -/
def ticksOfArrival (tz : ExchangeTz) (b : BarBuilder) (a : Arrival) : BarTape :=
  if a.price = none ∧ a.volume ≤ 0 then []
  else b.ticksIn tz a .m1 ++ (b.applyIn tz a .m1).ticksIn tz a .m5

/-- What an ingest leaves on the tape. -/
def ticksOfIngest (tz : ExchangeTz) (b : BarBuilder) (obs : Observed) (price : Option ℚ)
    (tradeSize : Option Int) : BarTape :=
  let (b, volume) := b.resolveVolume obs.symbol obs.cumulativeVolume tradeSize
  b.ticksOfArrival tz (obs.arrival price volume)

/-- What a call leaves on the tape. -/
def ticksOf (tz : ExchangeTz) (b : BarBuilder) : BarCall → BarTape
  | .quote obs => b.ticksOfIngest tz obs.toObserved (quotePrice obs.bid obs.ask obs.last) none
  | .trade obs => b.ticksOfIngest tz obs.toObserved (some obs.price) (some obs.size)
  | .underlying obs =>
    b.ticksOfIngest tz obs.toObserved (quotePrice obs.bid obs.ask obs.last) none
  | .closeReadyBars _ => []

/-- A call with its trace on the tape. -/
def record (tz : ExchangeTz) (s : BarBuilder × BarTape) (c : BarCall) : BarBuilder × BarTape :=
  (s.1.call tz c, s.2 ++ s.1.ticksOf tz c)

/-- The tape of a run. -/
def tapeOf (tz : ExchangeTz) (b : BarBuilder) (calls : List BarCall) : BarTape :=
  (run (record tz) (b, []) calls).2

/-- The tape changes nothing that the builder does. -/
theorem run_record_fst (tz : ExchangeTz) (s : BarBuilder × BarTape) (calls : List BarCall) :
    (run (record tz) s calls).1 = run (call tz) s.1 calls := by
  induction calls generalizing s with
  | nil => rfl
  | cons c rest ih => exact ih (record tz s c)

/-- One more call is taped at the end. -/
theorem tapeOf_snoc (tz : ExchangeTz) (b : BarBuilder) (calls : List BarCall) (c : BarCall) :
    tapeOf tz b (calls ++ [c]) = tapeOf tz b calls ++ (run (call tz) b calls).ticksOf tz c := by
  unfold tapeOf
  rw [run_snoc, record, run_record_fst]

/-- Every bar has the figures of the reference fold over what the tape has under its key, and the
tape has no other keys. -/
structure Folded (b : BarBuilder) (tape : BarTape) : Prop where
  opened : ∀ k, ∀ bar ∈ b.opened.get? k,
    bar.figures = OpenBar.ofTicks k (Tick.within tape (fun k' ↦ k' = k))
  closed : ∀ bar ∈ b.closedBars, ∃ found : OpenBar, bar = found.finished ∧
    found.figures = OpenBar.ofTicks bar.key (Tick.within tape (fun k' ↦ k' = bar.key))
  covered : ∀ e ∈ tape, e.1 ∈ b.emitted ∨ (b.opened.get? e.1).isSome = true

private theorem folded_new (lateToleranceSeconds : Int) : (new lateToleranceSeconds).Folded [] where
  opened _ _ h := nomatch h
  closed _ h := nomatch h
  covered _ h := nomatch h

private theorem Folded.remember (h : b.Folded tape) (lastCumVol : Dict String Int)
    (findings : List BarIngestFinding) :
    ({ b with lastCumVol := lastCumVol, findings := findings } : BarBuilder).Folded tape :=
  ⟨h.opened, h.closed, h.covered⟩

/-- The bar an observation is given has the fold of the tape under its key. -/
theorem Folded.figures_barAt (h : b.Folded tape) {key : BarKey} (hopen : key ∉ b.emitted) :
    (b.barAt key).figures = OpenBar.ofTicks key (Tick.within tape (fun k ↦ k = key)) := by
  unfold barAt
  cases hget : b.opened.get? key with
  | some bar => exact h.opened key bar hget
  | none =>
    have hnone : Tick.within tape (fun k ↦ k = key) = [] := by
      apply List.eq_nil_iff_forall_not_mem.mpr
      intro t ht
      obtain ⟨k, rfl, hmem⟩ := Tick.mem_within.mp ht
      rcases h.covered _ hmem with hm | hm
      · exact hopen hm
      · rw [hget] at hm
        cases hm
    rw [hnone]
    rfl

/-- An observation in one timeframe is folded in. -/
theorem Folded.applyIn (h : b.Folded tape) (hwf : b.Wellformed) (tz : ExchangeTz) (a : Arrival)
    (tf : BarTimeframe) : (b.applyIn tz a tf).Folded (tape ++ b.ticksIn tz a tf) := by
  by_cases hreaches : b.Reaches tz a tf
  · obtain ⟨opened, bar, heq, honly, hget, hfigures⟩ := applyIn_of_reaches hwf.keyed hreaches
    have hbarAt := h.figures_barAt hreaches.1
    -- Other keys have no new tick.
    have hother : ∀ k, k ≠ a.key tz tf → Tick.within (tape ++ b.ticksIn tz a tf)
        (fun k' ↦ k' = k) = Tick.within tape (fun k' ↦ k' = k) := by
      intro k hk
      rw [Tick.within_append]
      unfold ticksIn
      split <;> simp [Tick.within, Ne.symm hk]
    have hbar : bar.figures = OpenBar.ofTicks (a.key tz tf)
        (Tick.within (tape ++ b.ticksIn tz a tf) (fun k' ↦ k' = a.key tz tf)) := by
      rw [Tick.within_append, hfigures]
      by_cases hassigned : (a.observationId, tf) ∈ b.assignedObs
      · simpa [ticksIn, hassigned, Tick.within] using hbarAt
      · have hticks : Tick.within (b.ticksIn tz a tf) (fun k' ↦ k' = a.key tz tf) =
            [a.tick] := by
          simp [ticksIn, hassigned, hreaches, Tick.within]
        rw [if_neg hassigned, hticks, OpenBar.ofTicks_snoc, ← hbarAt, OpenBar.observe_eq_tick]
    rw [heq]
    refine ⟨?_, ?_, ?_⟩
    · intro k bar' hbar'
      by_cases hk : k = a.key tz tf
      · subst hk
        obtain rfl : bar = bar' := Option.some.inj (hget.symm.trans hbar')
        exact hbar
      · obtain ⟨before, hbefore, hsame⟩ := honly.of_get? hk hbar'
        rw [hother k hk, ← hsame]
        exact h.opened k before hbefore
    · intro bar' hbar'
      have hne : bar'.key ≠ a.key tz tf := by
        intro he
        exact hreaches.1 (he ▸ (hwf.emitted _).mpr (List.mem_map_of_mem hbar'))
      rw [hother _ hne]
      exact h.closed bar' hbar'
    · intro e he
      by_cases hk : e.1 = a.key tz tf
      · exact Or.inr (by rw [hk, hget]; rfl)
      · have hmem : e ∈ tape := by
          rcases List.mem_append.mp he with he | he
          · exact he
          · unfold ticksIn at he
            split at he
            · exact absurd (congrArg Prod.fst (List.mem_singleton.mp he)) hk
            · cases he
        refine (h.covered e hmem).imp_right (fun hsome ↦ ?_)
        obtain ⟨before, hbefore⟩ := Option.isSome_iff_exists.mp hsome
        have hmap := honly e.1 hk
        rw [hbefore, Option.map_some] at hmap
        obtain ⟨after, hafter, -⟩ := Option.map_eq_some_iff.mp hmap
        exact hafter ▸ rfl
  · obtain ⟨f, _, heq⟩ := applyIn_of_not_reaches hreaches
    rw [heq, ticksIn, if_neg (fun hm ↦ hreaches hm.1), List.append_nil]
    exact h.remember _ _

/-- An emission leaves the tape alone. -/
theorem Folded.emit (h : b.Folded tape) (hwf : b.Wellformed) {key : BarKey} {bar : OpenBar}
    (hget : b.opened.get? key = some bar) : (b.emit key bar).Folded tape := by
  have hkey : bar.key = key := hwf.keyed key bar hget
  refine ⟨?_, ?_, ?_⟩
  · intro k bar' hbar'
    change (b.opened.erase key).get? k = some bar' at hbar'
    rw [Dict.get?_erase] at hbar'
    split at hbar'
    · cases hbar'
    · exact h.opened k bar' hbar'
  · intro bar' hbar'
    rcases List.mem_append.mp hbar' with hbar' | hbar'
    · exact h.closed bar' hbar'
    · obtain rfl := List.mem_singleton.mp hbar'
      have hfinished : bar.finished.key = key :=
        (congrArg MarketBar.key bar.figures_finished).trans hkey
      refine ⟨bar, rfl, ?_⟩
      rw [hfinished]
      exact h.opened key bar hget
  · intro e he
    by_cases hk : e.1 = key
    · exact Or.inl (Finset.mem_insert.mpr (Or.inl (hk.trans hkey.symm)))
    · refine (h.covered e he).imp (Finset.mem_insert_of_mem) (fun hsome ↦ ?_)
      change ((b.opened.erase key).get? e.1).isSome = true
      rw [Dict.get?_erase, if_neg (Ne.symm hk)]
      exact hsome

/-- What the parts of a call keep: an observation in one timeframe with its tick on the tape, and
an emission and a change of the memory or the findings with the same tape. -/
structure KeptOnTape (tz : ExchangeTz) (I : BarBuilder → BarTape → Prop) : Prop where
  remember : ∀ b tape lastCumVol findings, I b tape →
    I { b with lastCumVol := lastCumVol, findings := findings } tape
  applyIn : ∀ b tape a tf, b.Wellformed → I b tape →
    I (b.applyIn tz a tf) (tape ++ b.ticksIn tz a tf)
  emit : ∀ b tape key bar, b.Wellformed → I b tape → b.opened.get? key = some bar →
    I (b.emit key bar) tape

/-- The induction rule of a call: what its parts keep it keeps with what it leaves on the tape. -/
theorem call_taped {I : BarBuilder → BarTape → Prop} (h : KeptOnTape tz I) (hwf : b.Wellformed)
    (hI : I b tape) (c : BarCall) : I (b.call tz c) (tape ++ b.ticksOf tz c) := by
  have hingest : ∀ obs price size,
      I (b.ingest tz obs price size) (tape ++ b.ticksOfIngest tz obs price size) := by
    intro obs price size
    obtain ⟨lastCumVol, findings, hfst⟩ :=
      resolveVolume_fst b obs.symbol obs.cumulativeVolume size
    have hwf₁ := hwf.remember lastCumVol findings
    have hI₁ := h.remember b tape lastCumVol findings hI
    unfold ingest ticksOfIngest applyObservation ticksOfArrival
    simp only [hfst]
    split
    · rw [List.append_nil]
      exact hI₁
    · simp only [List.foldl_cons, List.foldl_nil, ← List.append_assoc]
      exact h.applyIn _ _ _ _ (hwf₁.applyIn tz _ _) (h.applyIn _ _ _ _ hwf₁ hI₁)
  cases c with
  | quote obs => exact hingest obs.toObserved (quotePrice obs.bid obs.ask obs.last) none
  | trade obs => exact hingest obs.toObserved (some obs.price) (some obs.size)
  | underlying obs => exact hingest obs.toObserved (quotePrice obs.bid obs.ask obs.last) none
  | closeReadyBars now =>
    rw [call_closeReadyBars, ticksOf, List.append_nil]
    split
    · exact (foldl_closeOne_invariant (I := fun b ↦ I b tape)
        (fun b key bar hwf hI hget ↦ h.emit b tape key bar hwf hI hget) _ b.opened.nodup [] hwf hI
        (fun e he ↦ (Dict.mem_entries_iff _ _ _).mp he)).2
    · exact hI

/-- The induction rule of a run with its tape. -/
theorem run_taped {I : BarBuilder → BarTape → Prop} (h : KeptOnTape tz I)
    (lateToleranceSeconds : Int) (hI : I (new lateToleranceSeconds) []) (calls : List BarCall) :
    I (run (call tz) (new lateToleranceSeconds) calls)
      (tapeOf tz (new lateToleranceSeconds) calls) := by
  have hrun := @run_invariant _ _ (record tz) (fun s ↦ s.1.Wellformed ∧ I s.1 s.2)
    (fun _ ↦ True) (fun s c hs _ ↦ ⟨wellformed_run tz hs.1 [c],
      call_taped h hs.1 hs.2 c⟩) calls (fun _ _ ↦ trivial)
    (new lateToleranceSeconds, []) ⟨wellformed_new lateToleranceSeconds, hI⟩
  rw [run_record_fst] at hrun
  exact hrun.2

private theorem keptOnTape_folded (tz : ExchangeTz) : KeptOnTape tz Folded where
  remember _ _ _ _ h := h.remember _ _
  applyIn _ _ _ _ hwf h := h.applyIn hwf tz _ _
  emit _ _ _ _ hwf h hget := h.emit hwf hget

/-- Every run is the reference fold of its tape. -/
theorem folded_run (tz : ExchangeTz) (lateToleranceSeconds : Int) (calls : List BarCall) :
    (run (call tz) (new lateToleranceSeconds) calls).Folded
      (tapeOf tz (new lateToleranceSeconds) calls) :=
  run_taped (keptOnTape_folded tz) lateToleranceSeconds (folded_new lateToleranceSeconds) calls

/-- Every bar summarises what the tape has under its key, and the tape has no other keys. -/
structure Taped (b : BarBuilder) (tape : BarTape) : Prop where
  opened : ∀ k, ∀ bar ∈ b.opened.get? k, bar.Records (Tick.within tape (fun k' ↦ k' = k))
  closed : ∀ bar ∈ b.closedBars, bar.summary.Of (Tick.within tape (fun k' ↦ k' = bar.key))
  covered : ∀ e ∈ tape, e.1 ∈ b.emitted ∨ (b.opened.get? e.1).isSome = true

/-- Folded bars summarise the tape. -/
theorem Folded.taped (h : b.Folded tape) : b.Taped tape where
  opened k bar hbar := by
    apply OpenBar.Records.of_figures
    rw [h.opened k bar hbar]
    exact OpenBar.records_ofTicks k _
  closed bar hbar := by
    obtain ⟨found, rfl, hfigures⟩ := h.closed bar hbar
    have hshown : found.finished.figures.summary = found.shown.summary := by
      rw [found.figures_finished]
    have hrecords : found.figures.Records
        (Tick.within tape (fun k' ↦ k' = found.finished.key)) := by
      rw [hfigures]
      exact OpenBar.records_ofTicks _ _
    rw [show found.finished.summary = found.shown.summary from hshown]
    exact hrecords.summary
  covered := h.covered

/-- Every run is taped. -/
theorem taped_run (tz : ExchangeTz) (lateToleranceSeconds : Int) (calls : List BarCall) :
    (run (call tz) (new lateToleranceSeconds) calls).Taped
      (tapeOf tz (new lateToleranceSeconds) calls) :=
  (folded_run tz lateToleranceSeconds calls).taped

/-! ### The bars of a kind -/

/-- No two bars of a well-formed builder share their key. -/
theorem nodup_keys_bars (h : b.Wellformed) : (b.bars.map MarketBar.key).Nodup := by
  unfold bars openBars
  rw [List.map_append, List.map_map, List.nodup_append]
  have hkeys : ((b.opened.values.mergeSort openBefore).map
      (MarketBar.key ∘ fun bar ↦ bar.toMarketBar (some true))).Perm b.opened.keys := by
    refine ((List.mergeSort_perm _ _).map _).trans (List.Perm.of_eq ?_)
    unfold Dict.values Dict.keys
    rw [List.map_map]
    apply List.map_congr_left
    intro e he
    exact h.keyed e.1 e.2 ((Dict.mem_entries_iff _ _ _).mp he)
  refine ⟨h.once, hkeys.nodup_iff.mpr b.opened.nodup, ?_⟩
  intro k hk k' hk' heq
  obtain ⟨bar, hget⟩ := (Dict.mem_keys_iff _ _).mp (hkeys.mem_iff.mp hk')
  rw [← heq, h.apart k ((h.emitted k).mpr hk)] at hget
  cases hget

/-- The keys of the bars are the open and the emitted ones. -/
theorem mem_keys_bars_iff (hwf : b.Wellformed) (k : BarKey) :
    k ∈ b.bars.map MarketBar.key ↔ k ∈ b.emitted ∨ (b.opened.get? k).isSome = true := by
  rw [bars, List.map_append, List.mem_append, ← hwf.emitted]
  apply or_congr_right
  constructor
  · intro h
    obtain ⟨bar, hbar, rfl⟩ := List.mem_map.mp h
    obtain ⟨key, found, hget, -, hkey⟩ := exists_of_mem_openBars hwf hbar
    rw [hkey, hget]
    rfl
  · intro h
    obtain ⟨bar, hget⟩ := Option.isSome_iff_exists.mp h
    refine List.mem_map.mpr ⟨bar.toMarketBar (some true), ?_, hwf.keyed k bar hget⟩
    apply List.mem_map_of_mem
    exact List.mem_mergeSort.mpr ((Dict.mem_values_iff _ _).mpr ⟨k, hget⟩)

/-- The bars summarise the tape. -/
theorem Taped.summary_of_mem_bars (h : b.Taped tape) (hwf : b.Wellformed) {bar : MarketBar}
    (hbar : bar ∈ b.bars) : bar.summary.Of (Tick.within tape (fun k ↦ k = bar.key)) := by
  rcases List.mem_append.mp hbar with hbar | hbar
  · exact h.closed bar hbar
  · obtain ⟨key, found, hget, hshown, rfl⟩ := exists_of_mem_openBars hwf hbar
    have hsummary : bar.figures.summary = found.shown.summary := by rw [hshown]
    rw [show bar.summary = found.shown.summary from hsummary]
    exact (h.opened _ found hget).summary

/-- A summary of the tape under the keys of a kind combines the bars of that kind. -/
theorem Taped.combines (h : b.Taped tape) (hwf : b.Wellformed) {p : BarKey → Prop}
    [DecidablePred p] {s : Summary Uuid ℚ} (hs : s.Of (Tick.within tape p)) :
    s.Combines ((b.bars.filter (fun bar ↦ decide (p bar.key))).map MarketBar.summary) :=
  Summary.Of.combines (nodup_keys_bars hwf) (fun _ hbar ↦ h.summary_of_mem_bars hwf hbar)
    (fun e he _ ↦ (mem_keys_bars_iff hwf e.1).mpr (h.covered e he)) hs

end BarBuilder
end Joker.Market
