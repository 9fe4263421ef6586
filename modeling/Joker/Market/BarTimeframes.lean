import Joker.Market.BarTape

/-!
# One- and five-minute bars

Library `Market`. Where no observation of a five-minute window was dropped for either timeframe,
the tape has the same ticks for the window's five-minute bar as for the one-minute bars inside
it. Hence the five-minute bar combines them.
-/

namespace Joker.Market

open Joker.Base Joker.Broker Joker.Ledger

/-- The same id is always the same observation. -/
def SameObservations (calls : List BarCall) : Prop :=
  ∀ c ∈ calls, ∀ c' ∈ calls, ∀ obs ∈ c.observed, ∀ obs' ∈ c'.observed,
    obs.observationId = obs'.observationId → c = c'

instance (calls : List BarCall) : Decidable (SameObservations calls) :=
  inferInstanceAs (Decidable (∀ c ∈ calls, ∀ c' ∈ calls, ∀ obs ∈ c.observed,
    ∀ obs' ∈ c'.observed, obs.observationId = obs'.observationId → c = c'))

/-- The key of the five-minute bar of a window. -/
def windowKey (symbol : String) (window : Int) : BarKey := ⟨symbol, .m5, window⟩

/-- The keys of the one-minute bars inside a window. -/
def Inside (symbol : String) (window : Int) (key : BarKey) : Prop :=
  key.symbol = symbol ∧ key.timeframe = .m1 ∧ window ≤ key.start ∧
    key.start < intervalEnd window .m5

instance (symbol : String) (window : Int) : DecidablePred (Inside symbol window) :=
  fun _ ↦ inferInstanceAs (Decidable (_ ∧ _))

/-- An observation of a window. -/
def Observed.InWindow (tz : ExchangeTz) (obs : Observed) (symbol : String) (window : Int) :
    Prop :=
  obs.symbol = symbol ∧ floorToInterval tz obs.sourceTimestamp .m5 = window

instance (tz : ExchangeTz) (obs : Observed) (symbol : String) (window : Int) :
    Decidable (obs.InWindow tz symbol window) := inferInstanceAs (Decidable (_ ∧ _))

/-- A wall time is in an aligned window exactly when its minute is. -/
theorem floorWall_m5_eq_iff {wall window : Int} (h : BarTimeframe.m5.length ∣ window) :
    floorWall wall .m5 = window ↔
      window ≤ floorWall wall .m1 ∧ floorWall wall .m1 < intervalEnd window .m5 := by
  obtain ⟨n, rfl⟩ := h
  rw [floorWall_eq, floorWall_eq]
  unfold intervalEnd BarTimeframe.length oneMinute
  simp only [BarTimeframe.minutes]
  omega

namespace BarBuilder

variable {tz : ExchangeTz} {b : BarBuilder} {calls : List BarCall} {symbol : String}
  {window : Int}

/-- A finding says that an observation of a window was dropped. -/
def DroppedIn (tz : ExchangeTz) (calls : List BarCall) (b : BarBuilder) (symbol : String)
    (window : Int) : Prop :=
  ∃ f ∈ b.findings, (f.code = .droppedAfterClose ∨ f.code = .droppedTooLate) ∧
    ∃ c ∈ calls, ∃ obs ∈ c.observed, f.observationId = some obs.observationId ∧
      obs.InWindow tz symbol window

instance (tz : ExchangeTz) (calls : List BarCall) (b : BarBuilder) (symbol : String)
    (window : Int) : Decidable (DroppedIn tz calls b symbol window) :=
  inferInstanceAs (Decidable (∃ f ∈ b.findings,
    (f.code = .droppedAfterClose ∨ f.code = .droppedTooLate) ∧
      ∃ c ∈ calls, ∃ obs ∈ c.observed, f.observationId = some obs.observationId ∧
        obs.InWindow tz symbol window))

/-! ### Findings stay -/

private theorem findings_resolveVolume (b : BarBuilder) (symbol : String)
    (cumulativeVolume tradeSize : Option Int) :
    b.findings <+: (b.resolveVolume symbol cumulativeVolume tradeSize).1.findings := by
  unfold resolveVolume
  simp only
  split
  · exact List.prefix_rfl
  · split
    · exact List.prefix_rfl
    · split
      · exact List.prefix_rfl
      · exact List.prefix_append _ _

private theorem findings_applyIn (b : BarBuilder) (a : Arrival) (tf : BarTimeframe) :
    b.findings <+: (b.applyIn tz a tf).findings := by
  by_cases h : b.Reaches tz a tf
  · obtain ⟨opened, bar, heq, -⟩ := barFor_of_reaches h
    unfold applyIn
    rw [heq]
    simp only
    split <;> exact List.prefix_rfl
  · obtain ⟨f, -, heq⟩ := applyIn_of_not_reaches h
    rw [heq]
    exact List.prefix_append _ _

private theorem findings_applyObservation (b : BarBuilder) (a : Arrival) :
    b.findings <+: (b.applyObservation tz a).findings := by
  unfold applyObservation
  split
  · exact List.prefix_rfl
  · exact (findings_applyIn b a .m1).trans (findings_applyIn _ a .m5)

private theorem findings_closeReadyBars (hwf : b.Wellformed) (now : Datetime) :
    (b.call tz (.closeReadyBars now)).findings = b.findings := by
  rw [call_closeReadyBars]
  split
  · exact (foldl_closeOne_invariant (I := fun b' ↦ b'.findings = b.findings)
      (fun _ _ _ _ h _ ↦ h) _ b.opened.nodup [] hwf rfl
      (fun e he ↦ (Dict.mem_entries_iff _ _ _).mp he)).2
  · rfl

private theorem findings_call (hwf : b.Wellformed) (c : BarCall) :
    b.findings <+: (b.call tz c).findings := by
  have hingest : ∀ obs price size, b.findings <+: (b.ingest tz obs price size).findings :=
    fun obs price size ↦
      (findings_resolveVolume b _ _ _).trans (findings_applyObservation _ _)
  cases c with
  | quote obs => exact hingest obs.toObserved (quotePrice obs.bid obs.ask obs.last) none
  | trade obs => exact hingest obs.toObserved (some obs.price) (some obs.size)
  | underlying obs => exact hingest obs.toObserved (quotePrice obs.bid obs.ask obs.last) none
  | closeReadyBars now => rw [findings_closeReadyBars hwf now]

/-! ### The two timeframes together -/

/-- The tape has the same ticks for the five-minute bar of a window and for the one-minute bars
inside it; their observations were assigned for both timeframes or for none; and there is a bar
of one kind exactly when there is one of the other. -/
structure Paired (tz : ExchangeTz) (calls : List BarCall) (symbol : String) (window : Int)
    (s : BarBuilder × BarTape) : Prop where
  ticks : Tick.within s.2 (Inside symbol window) =
    Tick.within s.2 (fun k ↦ k = windowKey symbol window)
  assigned : ∀ c ∈ calls, ∀ obs ∈ c.observed, obs.InWindow tz symbol window →
    ((obs.observationId, .m1) ∈ s.1.assignedObs ↔ (obs.observationId, .m5) ∈ s.1.assignedObs)
  present : (∃ k, Inside symbol window k ∧ s.1.Present k) ↔
    s.1.Present (windowKey symbol window)

private theorem paired_new (lateToleranceSeconds : Int) :
    Paired tz calls symbol window (new lateToleranceSeconds, []) where
  ticks := rfl
  assigned _ _ _ _ _ := by simp [new]
  present := by simp [new, Present]

private theorem key_m5_eq_iff (obs : Observed) (price : Option ℚ) (volume : Int) :
    (obs.arrival price volume).key tz .m5 = windowKey symbol window ↔
      obs.InWindow tz symbol window := by
  simp [Arrival.key, Observed.arrival, windowKey, Observed.InWindow]

private theorem inside_key_m1_iff (haligned : BarTimeframe.m5.length ∣ window) (obs : Observed)
    (price : Option ℚ) (volume : Int) :
    Inside symbol window ((obs.arrival price volume).key tz .m1) ↔
      obs.InWindow tz symbol window := by
  unfold Observed.InWindow floorToInterval
  rw [floorWall_m5_eq_iff haligned]
  simp [Inside, Arrival.key, Observed.arrival, floorToInterval]

private theorem reaches_of_not_dropped (hwf : b.Wellformed) {c : BarCall} (hc : c ∈ calls)
    {obs : Observed} (hobs : obs ∈ c.observed) (hin : obs.InWindow tz symbol window)
    {price : Option ℚ} {volume : Int}
    (happlied : ¬ (price = none ∧ volume ≤ 0))
    (hdrop : ¬ DroppedIn tz calls (b.applyObservation tz (obs.arrival price volume)) symbol
      window) :
    ∀ tf, b.Reaches tz (obs.arrival price volume) tf := by
  have hsteps : b.applyObservation tz (obs.arrival price volume) =
      (b.applyIn tz (obs.arrival price volume) .m1).applyIn tz (obs.arrival price volume) .m5 :=
    if_neg happlied
  -- A finding left on the way is still there.
  have hno : ∀ b' : BarBuilder, ∀ tf, ¬ b'.Reaches tz (obs.arrival price volume) tf →
      (b'.applyIn tz (obs.arrival price volume) tf).findings <+:
        (b.applyObservation tz (obs.arrival price volume)).findings → False := by
    intro b' tf hn hprefix
    obtain ⟨f, hf, heq⟩ := applyIn_of_not_reaches hn
    refine hdrop ⟨f, hprefix.subset ?_, hf.code, c, hc, obs, hobs, hf.observationId, hin⟩
    rw [heq]
    exact List.mem_append_right _ List.mem_cons_self
  intro tf
  by_contra hn
  cases tf with
  | m1 =>
    apply hno b .m1 hn
    rw [hsteps]
    exact findings_applyIn _ _ _
  | m5 =>
    apply hno (b.applyIn tz (obs.arrival price volume) .m1) .m5
      (fun h ↦ hn ((reaches_applyIn hwf _ .m5).mp h))
    rw [hsteps]

private theorem Paired.applyObservation {tape : BarTape}
    (h : Paired tz calls symbol window (b, tape)) (hwf : b.Wellformed)
    (haligned : BarTimeframe.m5.length ∣ window) (hsame : SameObservations calls)
    {c : BarCall} (hc : c ∈ calls) {obs : Observed} (hobs : obs ∈ c.observed)
    {price : Option ℚ} {volume : Int}
    (hdrop : ¬ DroppedIn tz calls (b.applyObservation tz (obs.arrival price volume)) symbol
      window) :
    Paired tz calls symbol window (b.applyObservation tz (obs.arrival price volume),
      tape ++ b.ticksOfArrival tz (obs.arrival price volume)) := by
  by_cases happlied : price = none ∧ volume ≤ 0
  · have hb : b.applyObservation tz (obs.arrival price volume) = b := if_pos happlied
    have ht : b.ticksOfArrival tz (obs.arrival price volume) = [] := if_pos happlied
    rw [hb, ht, List.append_nil]
    exact h
  have hreach := fun hin ↦ reaches_of_not_dropped hwf hc hobs hin happlied hdrop
  have hb : b.applyObservation tz (obs.arrival price volume) =
      (b.applyIn tz (obs.arrival price volume) .m1).applyIn tz (obs.arrival price volume) .m5 :=
    if_neg happlied
  have ht : b.ticksOfArrival tz (obs.arrival price volume) =
      b.ticksIn tz (obs.arrival price volume) .m1 ++
        (b.applyIn tz (obs.arrival price volume) .m1).ticksIn tz (obs.arrival price volume) .m5 :=
    if_neg happlied
  have hm1 := @inside_key_m1_iff tz symbol window haligned obs price volume
  have hm5 := @key_m5_eq_iff tz symbol window obs price volume
  generalize ha : obs.arrival price volume = arrival at *
  have hid : arrival.observationId = obs.observationId := by
    rw [← ha]
    rfl
  have hnotInside : ¬ Inside symbol window (arrival.key tz .m5) := fun hi ↦ nomatch hi.2.1
  have hnotWindow : arrival.key tz .m1 ≠ windowKey symbol window :=
    fun he ↦ nomatch congrArg BarKey.timeframe he
  have hwf₁ := hwf.applyIn tz arrival .m1
  rw [hb, ht]
  refine ⟨?_, ?_, ?_⟩
  · simp only [Tick.within_append, ticksIn_within, hnotInside, hnotWindow, hm1, hm5, false_and,
      if_false, List.nil_append, List.append_nil, h.ticks, reaches_applyIn hwf,
      mem_assignedObs_applyIn hwf]
    congr 1
    by_cases hin : obs.InWindow tz symbol window
    · have hassigned := h.assigned c hc obs hobs hin
      rw [← hid] at hassigned
      simp [hin, hreach hin, hassigned]
    · simp [hin]
  · intro c' hc' obs' hobs' hin'
    simp only [mem_assignedObs_applyIn hwf₁, mem_assignedObs_applyIn hwf, reaches_applyIn hwf,
      Prod.mk.injEq, hid]
    rw [h.assigned c' hc' obs' hobs' hin']
    by_cases hsameId : obs'.observationId = obs.observationId
    · obtain rfl := hsame c' hc' c hc obs' hobs' obs hobs hsameId
      obtain rfl : obs' = obs := Option.some.inj (hobs'.symm.trans hobs)
      simp [hreach hin']
    · simp [hsameId]
  · simp only [present_applyIn hwf₁, present_applyIn hwf, reaches_applyIn hwf]
    by_cases hin : obs.InWindow tz symbol window
    · have hboth := hreach hin
      constructor
      · rintro -
        exact Or.inr ⟨hboth .m5, (hm5.mpr hin).symm⟩
      · rintro -
        exact ⟨_, hm1.mpr hin, Or.inl (Or.inr ⟨hboth .m1, rfl⟩)⟩
    · constructor
      · rintro ⟨k, hk, (hp | ⟨-, rfl⟩) | ⟨-, rfl⟩⟩
        · exact Or.inl (Or.inl (h.present.mp ⟨k, hk, hp⟩))
        · exact absurd (hm1.mp hk) hin
        · exact absurd hk hnotInside
      · rintro ((hp | ⟨-, he⟩) | ⟨-, he⟩)
        · obtain ⟨k, hk, hp⟩ := h.present.mpr hp
          exact ⟨k, hk, Or.inl (Or.inl hp)⟩
        · exact absurd he.symm hnotWindow
        · exact absurd (hm5.mp he.symm) hin

/-! ### Runs -/

private theorem Paired.ingest {tape : BarTape} (h : Paired tz calls symbol window (b, tape))
    (hwf : b.Wellformed) (haligned : BarTimeframe.m5.length ∣ window)
    (hsame : SameObservations calls) {c : BarCall} (hc : c ∈ calls) {obs : Observed}
    (hobs : obs ∈ c.observed) (price : Option ℚ) (size : Option Int)
    (hdrop : ¬ DroppedIn tz calls (b.ingest tz obs price size) symbol window) :
    Paired tz calls symbol window
      (b.ingest tz obs price size, tape ++ b.ticksOfIngest tz obs price size) := by
  obtain ⟨lastCumVol, findings, hfst⟩ := resolveVolume_fst b obs.symbol obs.cumulativeVolume size
  have hremembered : Paired tz calls symbol window
      ({ b with lastCumVol := lastCumVol, findings := findings }, tape) :=
    ⟨h.ticks, h.assigned, h.present⟩
  unfold BarBuilder.ingest ticksOfIngest at *
  simp only [hfst] at *
  exact hremembered.applyObservation (hwf.remember _ _) haligned hsame hc hobs hdrop

private theorem Paired.emit {tape : BarTape} (h : Paired tz calls symbol window (b, tape))
    (hwf : b.Wellformed) {key : BarKey} {bar : OpenBar} (hget : b.opened.get? key = some bar) :
    Paired tz calls symbol window (b.emit key bar, tape) where
  ticks := h.ticks
  assigned := h.assigned
  present := by
    simp only [present_emit hwf hget]
    exact h.present

private theorem Paired.record {s : BarBuilder × BarTape} (h : Paired tz calls symbol window s)
    (hwf : s.1.Wellformed) (haligned : BarTimeframe.m5.length ∣ window)
    (hsame : SameObservations calls) {c : BarCall} (hc : c ∈ calls)
    (hdrop : ¬ DroppedIn tz calls (s.1.call tz c) symbol window) :
    Paired tz calls symbol window (record tz s c) := by
  obtain ⟨b, tape⟩ := s
  cases c with
  | quote obs => exact h.ingest hwf haligned hsame hc rfl _ _ hdrop
  | trade obs => exact h.ingest hwf haligned hsame hc rfl _ _ hdrop
  | underlying obs => exact h.ingest hwf haligned hsame hc rfl _ _ hdrop
  | closeReadyBars now =>
    unfold BarBuilder.record
    simp only
    rw [call_closeReadyBars, ticksOf, List.append_nil]
    split
    · exact (foldl_closeOne_invariant
        (I := fun b ↦ Paired tz calls symbol window (b, tape))
        (fun _ _ _ hwf h hget ↦ h.emit hwf hget) _ b.opened.nodup [] hwf h
        (fun e he ↦ (Dict.mem_entries_iff _ _ _).mp he)).2
    · exact h

/-- Calls only add findings. -/
theorem findings_run (hwf : b.Wellformed) (cs : List BarCall) :
    b.findings <+: (run (call tz) b cs).findings := by
  induction cs generalizing b with
  | nil => exact List.prefix_rfl
  | cons c rest ih =>
    exact (findings_call hwf c).trans (ih (wellformed_run tz hwf [c]))

/-- A run that dropped no observation of the window has the timeframes paired. -/
theorem paired_run (lateToleranceSeconds : Int) (haligned : BarTimeframe.m5.length ∣ window)
    (hsame : SameObservations calls)
    (hdrop : ¬ DroppedIn tz calls (run (call tz) (new lateToleranceSeconds) calls) symbol
      window) :
    Paired tz calls symbol window
      (run (BarBuilder.record tz) (new lateToleranceSeconds, []) calls) := by
  refine (@run_invariant_of_steps _ _ (BarBuilder.record tz)
    (fun s ↦ s.1.Wellformed ∧ Paired tz calls symbol window s)
    (fun s c ↦ c ∈ calls ∧ ¬ DroppedIn tz calls (s.1.call tz c) symbol window)
    (fun s c hs hok ↦ ⟨wellformed_run tz hs.1 [c],
      hs.2.record hs.1 haligned hsame hok.1 hok.2⟩)
    calls _ ⟨wellformed_new _, paired_new _⟩ ?_ calls List.prefix_rfl).2
  intro pre c hp
  refine ⟨hp.subset (by simp), ?_⟩
  rintro ⟨f, hf, hrest⟩
  obtain ⟨post, rfl⟩ := hp
  refine hdrop ⟨f, ?_, hrest⟩
  rw [run_record_fst] at hf
  rw [run_append, run_snoc]
  exact (findings_run (wellformed_run tz (wellformed_run tz (wellformed_new _) pre) [c])
    post).subset hf

/-- Where no observation of an aligned five-minute window was dropped for either timeframe, the
window's five-minute bar combines the one-minute bars inside it, and there is one exactly when
there are some of these. -/
theorem m5_combines_m1 (tz : ExchangeTz) (lateToleranceSeconds : Int) (calls : List BarCall)
    (symbol : String) (window : Int) (hsame : SameObservations calls)
    (haligned : BarTimeframe.m5.length ∣ window)
    (hdrop : ¬ DroppedIn tz calls (run (call tz) (new lateToleranceSeconds) calls) symbol
      window) :
    let b := run (call tz) (new lateToleranceSeconds) calls
    (∀ m5 ∈ b.bars, m5.key = windowKey symbol window →
      m5.summary.Combines
        ((b.bars.filter (fun m1 ↦ decide (Inside symbol window m1.key))).map
          MarketBar.summary)) ∧
      ((∃ m5 ∈ b.bars, m5.key = windowKey symbol window) ↔
        ∃ m1 ∈ b.bars, Inside symbol window m1.key) := by
  intro b
  have hwf : b.Wellformed := wellformed_run tz (wellformed_new _) calls
  have htaped : b.Taped (tapeOf tz (new lateToleranceSeconds) calls) := taped_run tz _ calls
  have hpaired := paired_run lateToleranceSeconds haligned hsame hdrop
  have hpresent : ∀ k, b.Present k ↔ ∃ bar ∈ b.bars, bar.key = k := by
    intro k
    rw [← List.mem_map]
    exact (mem_keys_bars_iff hwf k).symm
  constructor
  · intro m5 hm5 hkey
    have hsummary := htaped.summary_of_mem_bars hwf hm5
    rw [hkey] at hsummary
    have hticks := hpaired.ticks
    change Tick.within (tapeOf tz (new lateToleranceSeconds) calls) _ =
      Tick.within (tapeOf tz (new lateToleranceSeconds) calls) _ at hticks
    rw [← hticks] at hsummary
    exact htaped.combines hwf hsummary
  · have hiff := hpaired.present
    rw [run_record_fst] at hiff
    simp only [← hpresent]
    refine hiff.symm.trans ⟨?_, ?_⟩
    · rintro ⟨k, hk, hp⟩
      obtain ⟨m1, hm1, rfl⟩ := (hpresent k).mp hp
      exact ⟨m1, hm1, hk⟩
    · rintro ⟨m1, hm1, hk⟩
      exact ⟨m1.key, hk, (hpresent _).mpr ⟨m1, hm1, rfl⟩⟩

/-- Three trades in one window, one of them delivered again, and a closing between them. -/
def tradedMinutes : List BarCall :=
  [.trade (.sample "a" (.sample 0 5) 500 10), .trade (.sample "b" (.sample 1 10) 501 7),
    .trade (.sample "a" (.sample 0 5) 500 10), .closeReadyBars (AwareDatetime.sample 1 30).time,
    .trade (.sample "c" (.sample 3 0) 499 1)]

/-- The window of the trades. -/
def tradedWindow : Int := floorToInterval .sample (.sample 0 5) .m5

/-- The combination for three trades. -/
theorem m5_combines_m1_tradedMinutes :
    (∀ m5 ∈ (run (call .sample) (new 2) tradedMinutes).bars,
      m5.key = windowKey "SPY" tradedWindow →
      m5.summary.Combines
        (((run (call .sample) (new 2) tradedMinutes).bars.filter
          (fun m1 ↦ decide (Inside "SPY" tradedWindow m1.key))).map MarketBar.summary)) ∧
      ((∃ m5 ∈ (run (call .sample) (new 2) tradedMinutes).bars,
          m5.key = windowKey "SPY" tradedWindow) ↔
        ∃ m1 ∈ (run (call .sample) (new 2) tradedMinutes).bars,
          Inside "SPY" tradedWindow m1.key) :=
  m5_combines_m1 .sample 2 tradedMinutes "SPY" tradedWindow (by decide +kernel)
    (by decide +kernel) (by decide +kernel)

end BarBuilder
end Joker.Market
