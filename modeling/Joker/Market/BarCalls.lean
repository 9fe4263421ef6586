import Joker.Market.BarEmission

/-!
# Calls of the bar builder

Library `Market`. What a call does as a whole. A call of `close_ready_bars` emits the bars that are
past their end and the tolerance, in the order in which they were opened, so a key is emitted in a
run exactly when some closing found its bar open and ready. A call with an observation passes one
arrival to both timeframes; for each it is applied to its bar or a finding says that it was dropped.
-/

namespace Joker.Market

open Joker.Base Joker.Broker Joker.Ledger

namespace BarCall

variable (tz : ExchangeTz)

/-- When a call's observation was received. -/
def received (c : BarCall) : Option Int := c.observed.map (fun obs ↦ obs.receivedTimestamp.wall tz)

/-- The reference time of a call that closes bars. -/
def reference : BarCall → Option Int
  | .closeReadyBars now => if now.aware then some (tz.wallClock now) else none
  | _ => none

/-- The time of a call. -/
def time (c : BarCall) : Option Int := (c.received tz).or (c.reference tz)

/-- The price of a call's observation. -/
def price : BarCall → Option ℚ
  | .quote obs => quotePrice obs.bid obs.ask obs.last
  | .trade obs => some obs.price
  | .underlying obs => quotePrice obs.bid obs.ask obs.last
  | .closeReadyBars _ => none

/-- The size of a call's trade. -/
def tradeSize : BarCall → Option Int
  | .trade obs => some obs.size
  | _ => none

end BarCall

/-- An observation has a price or a volume, without which `_apply_observation` returns at once. -/
def Arrival.Carries (a : Arrival) : Prop := ¬ (a.price = none ∧ a.volume ≤ 0)

instance (a : Arrival) : Decidable a.Carries := inferInstanceAs (Decidable (¬ _))

namespace BarBuilder

variable {tz : ExchangeTz} {b : BarBuilder} {reference : Int}

/-- A bar is past its end and the tolerance. -/
def Ready (b : BarBuilder) (reference : Int) (bar : OpenBar) : Prop :=
  bar.endTime + b.tolerance ≤ reference

instance (b : BarBuilder) (reference : Int) (bar : OpenBar) : Decidable (b.Ready reference bar) :=
  inferInstanceAs (Decidable (_ ≤ _))

/-- The open bars that are ready, in the order in which they were opened. -/
def readyEntries (b : BarBuilder) (reference : Int) : List (BarKey × OpenBar) :=
  b.opened.entries.filter (fun e ↦ decide (b.Ready reference e.2))

/-- Bars are emitted one after the other. -/
def emitAll (b : BarBuilder) (entries : List (BarKey × OpenBar)) : BarBuilder :=
  entries.foldl (fun b e ↦ b.emit e.1 e.2) b

/-! ### What is emitted -/

/-- Emitted bars are closed in their order. -/
theorem closedBars_emitAll (b : BarBuilder) (entries : List (BarKey × OpenBar)) :
    (b.emitAll entries).closedBars = b.closedBars ++ entries.map (fun e ↦ e.2.finished) := by
  induction entries generalizing b with
  | nil => exact (List.append_nil _).symm
  | cons e rest ih =>
    change ((b.emit e.1 e.2).emitAll rest).closedBars = _
    rw [ih, emit, List.map_cons, List.append_assoc]
    rfl

/-- A key is emitted when it was before or is among the entries. -/
theorem mem_emitted_emitAll (b : BarBuilder) (entries : List (BarKey × OpenBar)) (k : BarKey) :
    k ∈ (b.emitAll entries).emitted ↔ k ∈ b.emitted ∨ ∃ e ∈ entries, e.2.key = k := by
  induction entries generalizing b with
  | nil => simp [emitAll]
  | cons e rest ih =>
    change k ∈ ((b.emit e.1 e.2).emitAll rest).emitted ↔ _
    rw [ih, emit, Finset.mem_insert, List.exists_mem_cons_iff, or_assoc, or_left_comm,
      eq_comm (a := k)]

/-- An emitted bar is not open any more. -/
theorem get?_emitAll (b : BarBuilder) (entries : List (BarKey × OpenBar)) (k : BarKey) :
    (b.emitAll entries).opened.get? k =
      if k ∈ entries.map Prod.fst then none else b.opened.get? k := by
  induction entries generalizing b with
  | nil => rfl
  | cons e rest ih =>
    change ((b.emit e.1 e.2).emitAll rest).opened.get? k = _
    rw [ih]
    change (if _ then none else (b.opened.erase e.1).get? k) = _
    rw [Dict.get?_erase, List.map_cons]
    by_cases hrest : k ∈ rest.map Prod.fst
    · simp [hrest]
    · by_cases hk : e.1 = k
      · simp [hk]
      · simp [hrest, hk, Ne.symm hk]

/-- Emission leaves the assigned observations. -/
theorem assignedObs_emitAll (b : BarBuilder) (entries : List (BarKey × OpenBar)) :
    (b.emitAll entries).assignedObs = b.assignedObs := by
  induction entries generalizing b with
  | nil => rfl
  | cons e rest ih => exact ih (b.emit e.1 e.2)

/-- The loop of `close_ready_bars` emits what is ready. -/
theorem foldl_closeOne_fst (entries : List (BarKey × OpenBar)) (hwf : b.Wellformed)
    (hnodup : (entries.map Prod.fst).Nodup)
    (hentries : ∀ e ∈ entries, b.opened.get? e.1 = some e.2) (ready : List MarketBar) :
    (entries.foldl (closeOne reference) (b, ready)).1 =
      b.emitAll (entries.filter (fun e ↦ decide (b.Ready reference e.2))) := by
  induction entries generalizing b ready with
  | nil => rfl
  | cons e rest ih =>
    obtain ⟨key, bar⟩ := e
    rw [List.map_cons, List.nodup_cons] at hnodup
    have hget := hentries (key, bar) List.mem_cons_self
    rw [List.foldl_cons, closeOne_of_wellformed hwf reference ready hget]
    by_cases hready : b.Ready reference bar
    · have hlate : ¬ reference < bar.endTime + b.tolerance := not_lt.mpr hready
      rw [if_neg hlate, List.filter_cons_of_pos (by simpa using hready)]
      change _ = (b.emit key bar).emitAll _
      rw [ih (hwf.emit hget) hnodup.2]
      · rfl
      · exact entries_emit bar hnodup.1 (fun e he ↦ hentries e (List.mem_cons_of_mem _ he))
    · have hearly : reference < bar.endTime + b.tolerance := not_le.mp hready
      rw [if_pos hearly, List.filter_cons_of_neg (by simpa using hready)]
      exact ih hwf hnodup.2 (fun e he ↦ hentries e (List.mem_cons_of_mem _ he)) ready

/-- Closing at a time emits the bars that are ready then. -/
theorem call_close (hwf : b.Wellformed) {c : BarCall} {now : Int} (h : c.reference tz = some now) :
    b.call tz c = b.emitAll (b.readyEntries now) := by
  cases c with
  | closeReadyBars at_ =>
    simp only [BarCall.reference] at h
    split at h
    · next haware =>
      cases h
      rw [call_closeReadyBars, if_pos haware]
      exact foldl_closeOne_fst _ hwf b.opened.nodup
        (fun e he ↦ (Dict.mem_entries_iff _ _ _).mp he) []
    · cases h
  | quote obs => cases h
  | trade obs => cases h
  | underlying obs => cases h

/-- The entries that are ready are the open bars that are. -/
theorem mem_readyEntries {k : BarKey} {bar : OpenBar} :
    (k, bar) ∈ b.readyEntries reference ↔ b.opened.get? k = some bar ∧ b.Ready reference bar := by
  unfold readyEntries
  rw [List.mem_filter, Dict.mem_entries_iff, decide_eq_true_eq]

/-- The keys of what is ready. -/
theorem exists_readyEntries_iff (hwf : b.Wellformed) (k : BarKey) :
    (∃ e ∈ b.readyEntries reference, e.2.key = k) ↔
      (b.opened.get? k).isSome ∧ intervalEnd k.start k.timeframe + b.tolerance ≤ reference := by
  constructor
  · rintro ⟨⟨key, bar⟩, hmem, hkey⟩
    obtain ⟨hget, hready⟩ := mem_readyEntries.mp hmem
    obtain rfl : k = key := hkey.symm.trans (hwf.keyed key bar hget)
    rw [Ready, (hwf.ends k bar hget).2] at hready
    exact ⟨Option.isSome_of_eq_some hget, hready⟩
  · rintro ⟨hsome, hle⟩
    obtain ⟨bar, hget⟩ := Option.isSome_iff_exists.mp hsome
    refine ⟨(k, bar), mem_readyEntries.mpr ⟨hget, ?_⟩, hwf.keyed k bar hget⟩
    rw [Ready, (hwf.ends k bar hget).2]
    exact hle

/-! ### Calls -/

/-- A call that closes nothing emits nothing. -/
theorem emitted_call (hwf : b.Wellformed) {c : BarCall} (h : c.reference tz = none) :
    (b.call tz c).emitted = b.emitted ∧ (b.call tz c).closedBars = b.closedBars := by
  have happly : ∀ (b : BarBuilder) (a : Arrival) (tf : BarTimeframe), b.Wellformed →
      (b.applyIn tz a tf).emitted = b.emitted ∧
        (b.applyIn tz a tf).closedBars = b.closedBars := by
    intro b a tf hwf
    by_cases hreaches : b.Reaches tz a tf
    · obtain ⟨opened, bar, heq, -⟩ := applyIn_of_reaches hwf.keyed hreaches
      rw [heq]
      exact ⟨rfl, rfl⟩
    · obtain ⟨f, -, heq⟩ := applyIn_of_not_reaches hreaches
      rw [heq]
      exact ⟨rfl, rfl⟩
  have hingest : ∀ obs price size, (b.ingest tz obs price size).emitted = b.emitted ∧
      (b.ingest tz obs price size).closedBars = b.closedBars := by
    intro obs price size
    obtain ⟨lastCumVol, findings, hfst⟩ :=
      resolveVolume_fst b obs.symbol obs.cumulativeVolume size
    have hwf₁ := hwf.remember lastCumVol findings
    unfold ingest applyObservation
    simp only [hfst]
    split
    · exact ⟨rfl, rfl⟩
    · simp only [List.foldl_cons, List.foldl_nil]
      rw [(happly _ _ _ (hwf₁.applyIn tz _ _)).1, (happly _ _ _ (hwf₁.applyIn tz _ _)).2,
        (happly _ _ _ hwf₁).1, (happly _ _ _ hwf₁).2]
      exact ⟨rfl, rfl⟩
  cases hobs : c.observed with
  | some obs =>
    obtain ⟨price, size, hcall⟩ := call_of_observed hobs
    rw [hcall]
    exact hingest obs price size
  | none =>
    cases c with
    | closeReadyBars now =>
      simp only [BarCall.reference] at h
      split at h
      · cases h
      · next hnaive =>
        rw [call_closeReadyBars, if_neg hnaive]
        exact ⟨rfl, rfl⟩
    | quote obs => cases hobs
    | trade obs => cases hobs
    | underlying obs => cases hobs

/-- The tolerance of a run is that of its builder. -/
theorem tolerance_run (tz : ExchangeTz) (hwf : b.Wellformed) (calls : List BarCall) :
    (run (call tz) b calls).tolerance = b.tolerance :=
  (run_call_invariant (I := fun b' ↦ b'.tolerance = b.tolerance) (fun _ _ _ h ↦ h)
    (fun b' a tf hwf' h ↦ by
      by_cases hreaches : b'.Reaches tz a tf
      · obtain ⟨opened, bar, heq, -⟩ := applyIn_of_reaches hwf'.keyed hreaches
        rw [heq]
        exact h
      · obtain ⟨f, -, heq⟩ := applyIn_of_not_reaches hreaches
        rw [heq]
        exact h)
    (fun _ _ _ _ h _ ↦ h) hwf rfl calls).2

/-- A closing found the bar of a key open and ready. -/
def FoundReady (tz : ExchangeTz) (lateToleranceSeconds : Int) (calls : List BarCall) (k : BarKey)
    (reference : Int) : Prop :=
  ∃ pre c, pre ++ [c] <+: calls ∧ c.reference tz = some reference ∧
    ((run (call tz) (new lateToleranceSeconds) pre).opened.get? k).isSome ∧
    intervalEnd k.start k.timeframe + (new lateToleranceSeconds).tolerance ≤ reference

/-- What is emitted in a run was found open and ready. -/
theorem mem_emitted_run_iff (tz : ExchangeTz) (lateToleranceSeconds : Int) (calls : List BarCall)
    (k : BarKey) :
    k ∈ (run (call tz) (new lateToleranceSeconds) calls).emitted ↔
      ∃ reference, FoundReady tz lateToleranceSeconds calls k reference := by
  induction calls using List.reverseRecOn with
  | nil =>
    constructor
    · intro h
      simp [new] at h
    · rintro ⟨reference, pre, c, hpre, -⟩
      exact absurd (List.prefix_nil.mp hpre) (by simp)
  | append_singleton calls last ih =>
    have hwf := wellformed_run tz (wellformed_new lateToleranceSeconds) calls
    have htolerance := tolerance_run tz (wellformed_new lateToleranceSeconds) calls
    -- A closing of the longer run is one of the run before it, or the last call.
    have hsplit : ∀ reference, FoundReady tz lateToleranceSeconds (calls ++ [last]) k reference ↔
        FoundReady tz lateToleranceSeconds calls k reference ∨
          last.reference tz = some reference ∧
          ((run (call tz) (new lateToleranceSeconds) calls).opened.get? k).isSome ∧
          intervalEnd k.start k.timeframe + (new lateToleranceSeconds).tolerance ≤ reference := by
      intro reference
      constructor
      · rintro ⟨pre, c, hpre, hc⟩
        rcases List.prefix_concat_iff.mp hpre with heq | hpre
        · obtain ⟨rfl, hlast⟩ := List.append_inj' heq rfl
          cases hlast
          exact Or.inr hc
        · exact Or.inl ⟨pre, c, hpre, hc⟩
      · rintro (⟨pre, c, hpre, hc⟩ | hlast)
        · exact ⟨pre, c, hpre.trans (List.prefix_append _ _), hc⟩
        · exact ⟨calls, last, List.prefix_rfl, hlast⟩
    simp only [hsplit, exists_or]
    rw [run_snoc, ← ih]
    cases href : last.reference tz with
    | none =>
      rw [(emitted_call hwf href).1]
      simp
    | some reference =>
      rw [call_close hwf href, mem_emitted_emitAll, exists_readyEntries_iff hwf, htolerance]
      simp

/-! ### Arrivals -/

/-- What a call passes to `_apply_observation`. -/
def arrivalOf (b : BarBuilder) (c : BarCall) : Option Arrival :=
  c.observed.map (fun obs ↦
    obs.arrival c.price (b.resolveVolume obs.symbol obs.cumulativeVolume c.tradeSize).2)

/-- A call with an arrival closes nothing. -/
theorem reference_of_arrival (tz : ExchangeTz) {c : BarCall} {a : Arrival}
    (h : a ∈ b.arrivalOf c) : c.reference tz = none := by
  cases c with
  | closeReadyBars now => cases h
  | quote obs => rfl
  | trade obs => rfl
  | underlying obs => rfl

/-- What a call does: it brings an arrival, it closes bars, or it changes nothing. -/
theorem call_cases (tz : ExchangeTz) (hwf : b.Wellformed) (c : BarCall) :
    (∃ a ∈ b.arrivalOf c, c.reference tz = none ∧
        c.time tz = some (a.receivedTimestamp.wall tz)) ∨
      (∃ now, c.reference tz = some now ∧ c.time tz = some now ∧ b.arrivalOf c = none ∧
        b.call tz c = b.emitAll (b.readyEntries now)) ∨
      (c.reference tz = none ∧ b.arrivalOf c = none ∧ b.call tz c = b) := by
  cases c with
  | quote obs => exact Or.inl ⟨_, rfl, rfl, rfl⟩
  | trade obs => exact Or.inl ⟨_, rfl, rfl, rfl⟩
  | underlying obs => exact Or.inl ⟨_, rfl, rfl, rfl⟩
  | closeReadyBars now =>
    right
    by_cases haware : now.aware = true
    · have href : BarCall.reference tz (.closeReadyBars now) = some (tz.wallClock now) :=
        if_pos haware
      exact Or.inl ⟨_, href, href, rfl, call_close hwf href⟩
    · refine Or.inr ⟨if_neg haware, rfl, ?_⟩
      rw [call_closeReadyBars, if_neg haware]

/-- A finding of the loop over the timeframes. -/
def DropsIn (findings : List BarIngestFinding) (a : Arrival) (tf : BarTimeframe) : Prop :=
  ∃ f ∈ findings, BarIngestFinding.Drops f a tf

/-- An observation is applied to its bar, unless it was before. -/
def Applied (tz : ExchangeTz) (b after : BarBuilder) (a : Arrival) (tf : BarTimeframe) : Prop :=
  ∃ bar ∈ after.opened.get? (a.key tz tf),
    bar.figures =
      if (a.observationId, tf) ∈ b.assignedObs then (b.barAt (a.key tz tf)).figures
      else (b.barAt (a.key tz tf)).figures.observe a false

/-- A call with an observation applies its arrival, after the memory and the findings of its
volume. -/
theorem call_of_arrival (tz : ExchangeTz) {c : BarCall} {a : Arrival} (h : a ∈ b.arrivalOf c) :
    ∃ lastCumVol findings, b.call tz c =
        ({ b with lastCumVol := lastCumVol, findings := b.findings ++ findings } :
          BarBuilder).applyObservation tz a ∧
      ∀ f ∈ findings, f.code = .cumulativeVolumeRegression := by
  unfold arrivalOf at h
  obtain ⟨obs, hobs, rfl⟩ := Option.map_eq_some_iff.mp h
  have hfst : ∃ lastCumVol findings,
      (b.resolveVolume obs.symbol obs.cumulativeVolume c.tradeSize).1 =
        { b with lastCumVol := lastCumVol, findings := b.findings ++ findings } ∧
      ∀ f ∈ findings, f.code = .cumulativeVolumeRegression := by
    unfold resolveVolume
    simp only
    split
    · exact ⟨b.lastCumVol, [], by rw [List.append_nil], by simp⟩
    · next cumulative _ =>
      split
      · exact ⟨_, [], by rw [List.append_nil], by simp⟩
      · next prev _ =>
        split
        · exact ⟨_, [], by rw [List.append_nil], by simp⟩
        · refine ⟨_, [regressionFinding obs.symbol prev cumulative], rfl, ?_⟩
          intro f hf
          rw [List.mem_singleton.mp hf]
          rfl
  obtain ⟨lastCumVol, findings, hfst, hcode⟩ := hfst
  refine ⟨lastCumVol, findings, ?_, hcode⟩
  rw [← hfst]
  cases c with
  | quote q =>
    cases hobs
    rfl
  | trade t =>
    cases hobs
    rfl
  | underlying u =>
    cases hobs
    rfl
  | closeReadyBars now => cases hobs

section Arrival

variable {a : Arrival} {tf : BarTimeframe}

/-- An arrival leaves a finding for a timeframe exactly when it does not reach its bar. -/
theorem findings_applyIn_eq (tz : ExchangeTz) (hwf : b.Wellformed) (a : Arrival)
    (tf : BarTimeframe) :
    ∃ findings, (b.applyIn tz a tf).findings = b.findings ++ findings ∧
      ∀ tf', DropsIn findings a tf' ↔ tf' = tf ∧ ¬ b.Reaches tz a tf := by
  by_cases hreaches : b.Reaches tz a tf
  · obtain ⟨opened, bar, heq, -⟩ := applyIn_of_reaches hwf.keyed hreaches
    rw [heq]
    refine ⟨[], (List.append_nil _).symm, ?_⟩
    intro tf'
    simp [DropsIn, hreaches]
  · obtain ⟨f, hf, heq⟩ := applyIn_of_not_reaches hreaches
    rw [heq]
    refine ⟨[f], rfl, ?_⟩
    intro tf'
    constructor
    · rintro ⟨g, hg, hdrops⟩
      obtain rfl := List.mem_singleton.mp hg
      exact ⟨Option.some.inj (hdrops.timeframe.symm.trans hf.timeframe), hreaches⟩
    · rintro ⟨rfl, -⟩
      exact ⟨f, List.mem_singleton_self f, hf⟩

/-- What an arrival leaves in the findings of a call. -/
theorem findings_call_eq (tz : ExchangeTz) (hwf : b.Wellformed) {c : BarCall}
    (h : a ∈ b.arrivalOf c) :
    ∃ findings, (b.call tz c).findings = b.findings ++ findings ∧
      ∀ tf, DropsIn findings a tf ↔ a.Carries ∧ ¬ b.Reaches tz a tf := by
  obtain ⟨lastCumVol, volume, hcall, hcode⟩ := call_of_arrival tz h
  have hnone : ∀ tf, ¬ DropsIn volume a tf := by
    rintro tf ⟨f, hf, hdrops⟩
    rcases hdrops.code with hdropped | hdropped <;>
      exact absurd ((hcode f hf).symm.trans hdropped) (by decide)
  have hwf₁ := hwf.remember lastCumVol (b.findings ++ volume)
  rw [hcall]
  unfold applyObservation
  split
  · next hempty =>
    refine ⟨volume, rfl, ?_⟩
    intro tf
    exact iff_of_false (hnone tf) (fun hdropped ↦ hdropped.1 hempty)
  · next hcarries =>
    simp only [List.foldl_cons, List.foldl_nil]
    obtain ⟨f₁, heq₁, hdrops₁⟩ := findings_applyIn_eq tz hwf₁ a .m1
    obtain ⟨f₅, heq₅, hdrops₅⟩ :=
      findings_applyIn_eq tz (hwf₁.applyIn tz a .m1) a .m5
    refine ⟨volume ++ (f₁ ++ f₅), ?_, ?_⟩
    · rw [heq₅, heq₁]
      simp
    · intro tf
      have hsplit : DropsIn (volume ++ (f₁ ++ f₅)) a tf ↔
          DropsIn volume a tf ∨ DropsIn f₁ a tf ∨ DropsIn f₅ a tf := by
        simp only [DropsIn, List.mem_append, or_and_right, exists_or]
      have hcarries : a.Carries := hcarries
      rw [hsplit, hdrops₁, hdrops₅, reaches_applyIn hwf₁]
      cases tf with
      | m1 => simp [hnone, hcarries, Reaches, tolerance]
      | m5 => simp [hnone, hcarries, Reaches, tolerance]

/-- A bar that is open after an arrival was open before, or is the arrival's own. -/
theorem isSome_opened_call (hwf : b.Wellformed) {c : BarCall} (h : a ∈ b.arrivalOf c) {k : BarKey}
    (hopen : ((b.call tz c).opened.get? k).isSome = true) :
    (b.opened.get? k).isSome = true ∨ ∃ tf, k = a.key tz tf ∧ b.Reaches tz a tf := by
  obtain ⟨lastCumVol, findings, hcall, -⟩ := call_of_arrival tz h
  have hwf₁ := hwf.remember lastCumVol (b.findings ++ findings)
  have hwfc := wellformed_run tz hwf [c]
  have hnone := reference_of_arrival tz h
  have hnew : k ∉ b.emitted := by
    rw [← (emitted_call hwf hnone).1]
    intro hemitted
    have hapart : (b.call tz c).opened.get? k = none := hwfc.apart k hemitted
    rw [hapart] at hopen
    cases hopen
  have hpresent : (b.call tz c).Present k := Or.inr hopen
  rw [hcall] at hpresent
  unfold applyObservation at hpresent
  split at hpresent
  · exact hpresent.imp_left (fun hemitted ↦ absurd hemitted hnew) |>.elim False.elim Or.inl
  · simp only [List.foldl_cons, List.foldl_nil] at hpresent
    rw [present_applyIn (hwf₁.applyIn tz a .m1), present_applyIn hwf₁,
      reaches_applyIn hwf₁] at hpresent
    rcases hpresent with ((hemitted | hbefore) | ⟨hreaches, hk⟩) | ⟨hreaches, hk⟩
    · exact absurd hemitted hnew
    · exact Or.inl hbefore
    · exact Or.inr ⟨.m1, hk, hreaches⟩
    · exact Or.inr ⟨.m5, hk, hreaches⟩

/-- What one timeframe's turn leaves of the bars of the other. -/
theorem opened_applyIn_ne (tz : ExchangeTz) (hwf : b.Wellformed) (a : Arrival)
    {tf tf' : BarTimeframe} (hne : tf' ≠ tf) :
    ((b.applyIn tz a tf').opened.get? (a.key tz tf)).map OpenBar.figures =
      (b.opened.get? (a.key tz tf)).map OpenBar.figures := by
  by_cases hreaches : b.Reaches tz a tf'
  · obtain ⟨opened, bar, heq, honly, -⟩ := applyIn_of_reaches hwf.keyed hreaches
    rw [heq]
    apply honly
    intro hkey
    exact hne (congrArg BarKey.timeframe hkey).symm
  · obtain ⟨f, -, heq⟩ := applyIn_of_not_reaches hreaches
    rw [heq]
    rfl

private theorem figures_barAt_eq {b' : BarBuilder} {key : BarKey}
    (h : (b'.opened.get? key).map OpenBar.figures = (b.opened.get? key).map OpenBar.figures) :
    (b'.barAt key).figures = (b.barAt key).figures := by
  unfold barAt
  cases hget : b.opened.get? key with
  | none =>
    rw [hget, Option.map_none] at h
    rw [Option.map_eq_none_iff.mp h]
  | some bar =>
    rw [hget, Option.map_some] at h
    obtain ⟨bar', hget', hfigures⟩ := Option.map_eq_some_iff.mp h
    rw [hget']
    exact hfigures

/-- An arrival that reaches its bar is applied to it. -/
theorem applied_applyIn (hwf : b.Wellformed) (hreaches : b.Reaches tz a tf) :
    Applied tz b (b.applyIn tz a tf) a tf := by
  obtain ⟨opened, bar, heq, -, hget, hfigures⟩ := applyIn_of_reaches hwf.keyed hreaches
  rw [heq]
  exact ⟨bar, hget, hfigures⟩

/-- An arrival that reaches its bars is applied to both. -/
theorem applied_call (hwf : b.Wellformed) {c : BarCall} (h : a ∈ b.arrivalOf c)
    (hcarries : a.Carries) (hreaches : b.Reaches tz a tf) : Applied tz b (b.call tz c) a tf := by
  obtain ⟨lastCumVol, findings, hcall, -⟩ := call_of_arrival tz h
  have hwf₁ := hwf.remember lastCumVol (b.findings ++ findings)
  generalize hb₁ : ({ b with lastCumVol := lastCumVol, findings := b.findings ++ findings } :
    BarBuilder) = b₁ at hcall hwf₁
  have hreaches₁ : b₁.Reaches tz a tf := by
    rw [← hb₁]
    exact hreaches
  have hsteps : b.call tz c = (b₁.applyIn tz a .m1).applyIn tz a .m5 :=
    hcall.trans (if_neg hcarries)
  suffices happlied : Applied tz b₁ (b.call tz c) a tf by
    rw [← hb₁] at happlied
    exact happlied
  rw [hsteps]
  cases tf with
  | m1 =>
    -- The turn of the five-minute bar leaves the figures of the one-minute bar.
    obtain ⟨bar, hget, hfigures⟩ := applied_applyIn hwf₁ hreaches₁
    have hframe := opened_applyIn_ne tz (hwf₁.applyIn tz a .m1) a
      (by decide : BarTimeframe.m5 ≠ .m1)
    rw [Option.mem_def.mp hget, Option.map_some] at hframe
    obtain ⟨bar', hget', hfigures'⟩ := Option.map_eq_some_iff.mp hframe
    exact ⟨bar', hget', hfigures'.trans hfigures⟩
  | m5 =>
    have hreaches₅ : (b₁.applyIn tz a .m1).Reaches tz a .m5 :=
      (reaches_applyIn hwf₁ a .m5).mpr hreaches₁
    obtain ⟨bar, hget, hfigures⟩ := applied_applyIn (hwf₁.applyIn tz a .m1) hreaches₅
    refine ⟨bar, hget, ?_⟩
    rw [hfigures, figures_barAt_eq (opened_applyIn_ne tz hwf₁ a (by decide))]
    simp only [mem_assignedObs_applyIn hwf₁, Prod.mk.injEq, reduceCtorEq, and_false, or_false]

end Arrival

end BarBuilder
end Joker.Market
