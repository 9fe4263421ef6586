import Mathlib.Data.Int.Interval
import Mathlib.Data.Finset.Card
import Joker.Market.BarTape

/-!
# Volume of the one-minute bars

Library `Market`. A quote brings the rise from the cumulative volume remembered for its symbol to
its own. The memory is the last delivered value, so after a late quote a part of the volume rises
again. While no part of the volume is brought twice, the one-minute bars have at most the spread
of the delivered cumulative volumes.
-/

namespace Joker.Market

open Joker.Base Joker.Broker Joker.Ledger

/-- The greatest minus the least of the values, zero without one. -/
def spread (values : List Int) : Int := values.max?.getD 0 - values.min?.getD 0

/-- Whole units between delivered values are at most their spread. -/
theorem card_le_spread {values : List Int} {units : Finset Int}
    (h : ∀ x ∈ units, ∃ lo ∈ values, ∃ hi ∈ values, lo < x ∧ x ≤ hi) :
    (units.card : Int) ≤ spread values := by
  unfold spread
  cases hmax : values.max? with
  | none =>
    obtain rfl := List.max?_eq_none_iff.mp hmax
    have hempty : units = ∅ := by
      apply Finset.eq_empty_of_forall_notMem
      intro x hx
      obtain ⟨lo, hlo, -⟩ := h x hx
      cases hlo
    simp [hempty]
  | some hi =>
    cases hmin : values.min? with
    | none =>
      obtain rfl := List.min?_eq_none_iff.mp hmin
      cases hmax
    | some lo =>
      obtain ⟨hhi, hle⟩ := List.max?_eq_some_iff.mp hmax
      obtain ⟨-, hge⟩ := List.min?_eq_some_iff.mp hmin
      have hsubset : units ⊆ Finset.Ioc lo hi := by
        intro x hx
        obtain ⟨lo', hlo', hi', hhi', hlt, hxle⟩ := h x hx
        exact Finset.mem_Ioc.mpr ⟨lt_of_le_of_lt (hge lo' hlo') hlt, hxle.trans (hle hi' hhi')⟩
      have hcard := Finset.card_le_card hsubset
      have hlohi := hge hi hhi
      rw [Int.card_Ioc] at hcard
      simp only [Option.getD_some]
      omega

/-- The cumulative volume a call delivers for a symbol. -/
def BarCall.delivers (symbol : String) (c : BarCall) : Option Int :=
  c.observed.bind (fun obs ↦ if obs.symbol = symbol then obs.cumulativeVolume else none)

/-- The cumulative volumes delivered for a symbol. -/
def delivered (symbol : String) (calls : List BarCall) : List Int :=
  calls.filterMap (BarCall.delivers symbol)

/-- Every observation of the symbol is a quote or an underlying tick, their ids are distinct, and
each carries the exchange's cumulative volume at its source time. -/
structure QuotedRun (tz : ExchangeTz) (symbol : String) (calls : List BarCall) : Prop where
  quoted : ∀ obs, BarCall.trade obs ∈ calls → obs.symbol ≠ symbol
  distinct : ((calls.filterMap BarCall.observed).filter
    (fun obs ↦ decide (obs.symbol = symbol))).map (fun obs ↦ obs.observationId) |>.Nodup
  exchange : ∃ volumeAt : Int → Int, Monotone volumeAt ∧
    ∀ c ∈ calls, ∀ obs ∈ c.observed, obs.symbol = symbol →
      obs.cumulativeVolume = some (volumeAt (obs.sourceTimestamp.wall tz))

namespace BarBuilder

variable {tz : ExchangeTz} {symbol : String} {b : BarBuilder}

/-- The one-minute bars of a symbol. -/
def IsM1Of (symbol : String) (key : BarKey) : Prop := key.symbol = symbol ∧ key.timeframe = .m1

instance (symbol : String) : DecidablePred (IsM1Of symbol) :=
  fun _ ↦ inferInstanceAs (Decidable (_ ∧ _))

/-- The total volume of the one-minute bars of a symbol, open and emitted. -/
def m1Volume (b : BarBuilder) (symbol : String) : Nat :=
  ((b.bars.filter (fun bar ↦ decide (IsM1Of symbol bar.key))).map MarketBar.volume).sum

/-- The total volume is on the tape. -/
theorem Taped.m1Volume {tape : BarTape} (h : b.Taped tape) (hwf : b.Wellformed) :
    b.m1Volume symbol = Tick.totalVolume (Tick.within tape (IsM1Of symbol)) := by
  rw [Tick.totalVolume_within tape (IsM1Of symbol) (nodup_keys_bars hwf)
    (fun e he _ ↦ (mem_keys_bars_iff hwf e.1).mpr (h.covered e he)), List.filter_map,
    List.map_map]
  unfold BarBuilder.m1Volume
  congr 1
  apply List.map_congr_left
  intro bar hbar
  exact (h.summary_of_mem_bars hwf (List.mem_filter.mp hbar).1).volume

/-- The units of volume after one cumulative value, up to another. -/
def unitsBetween (lo hi : Int) : Finset Int :=
  (Finset.range (hi - lo).toNat).map ⟨fun n : ℕ ↦ lo + 1 + n, fun a b h ↦ by simpa using h⟩

private theorem mem_unitsBetween {lo hi u : Int} : u ∈ unitsBetween lo hi ↔ lo < u ∧ u ≤ hi := by
  unfold unitsBetween
  rw [Finset.mem_map]
  constructor
  · rintro ⟨n, hn, rfl⟩
    rw [Finset.mem_range] at hn
    change lo < lo + 1 + n ∧ lo + 1 + n ≤ hi
    omega
  · rintro ⟨hlo, hhi⟩
    refine ⟨(u - lo - 1).toNat, Finset.mem_range.mpr (by omega), ?_⟩
    change lo + 1 + ((u - lo - 1).toNat : Int) = u
    omega

/-- As many units lie between two counts as their difference, if that is positive. -/
@[simp] theorem card_unitsBetween (lo hi : Int) : (unitsBetween lo hi).card = (hi - lo).toNat := by
  unfold unitsBetween
  rw [Finset.card_map, Finset.card_range]

/-- The units of volume between the remembered cumulative volume and an observation's own. -/
def risen (b : BarBuilder) (obs : Observed) : Finset Int :=
  match b.lastCumVol.get? obs.symbol, obs.cumulativeVolume with
  | some prev, some cumulative => unitsBetween prev cumulative
  | _, _ => ∅

/-- The units of volume that an observation of a symbol brings to its one-minute bar. -/
def broughtBy (tz : ExchangeTz) (b : BarBuilder) (symbol : String) (obs : Observed) :
    Finset Int :=
  if obs.symbol = symbol ∧ b.Reaches tz (obs.arrival none 0) .m1 ∧
      (obs.observationId, .m1) ∉ b.assignedObs then
    b.risen obs
  else ∅

/-- The units of volume that a call brings. -/
def brought (tz : ExchangeTz) (b : BarBuilder) (symbol : String) (c : BarCall) : Finset Int :=
  (c.observed.map (b.broughtBy tz symbol)).getD ∅

private theorem toNat_resolveVolume (b : BarBuilder) (obs : Observed) :
    (b.resolveVolume obs.symbol obs.cumulativeVolume none).2.toNat = (b.risen obs).card := by
  unfold resolveVolume risen
  cases obs.cumulativeVolume with
  | none => cases b.lastCumVol.get? obs.symbol <;> rfl
  | some cumulative =>
    cases b.lastCumVol.get? obs.symbol with
    | none => rfl
    | some prev =>
      simp only
      rw [card_unitsBetween]
      split
      · rfl
      · change (0 : Int).toNat = _
        omega

/-- What an ingest leaves on the tape for the one-minute bars of a symbol is its resolved volume, if
it is applied. -/
theorem totalVolume_ticksOfIngest_eq (b : BarBuilder) (obs : Observed) (price : Option ℚ)
    (size : Option Int) :
    Tick.totalVolume (Tick.within (b.ticksOfIngest tz obs price size) (IsM1Of symbol)) =
      if obs.symbol = symbol ∧ b.Reaches tz (obs.arrival none 0) .m1 ∧
          (obs.observationId, .m1) ∉ b.assignedObs then
        (b.resolveVolume obs.symbol obs.cumulativeVolume size).2.toNat
      else 0 := by
  obtain ⟨lastCumVol, findings, hfst⟩ := resolveVolume_fst b obs.symbol obs.cumulativeVolume size
  have hm1 : ∀ volume, IsM1Of symbol ((obs.arrival price volume).key tz .m1) ↔
      obs.symbol = symbol := fun volume ↦ and_iff_left rfl
  have hm5 : ∀ volume, ¬ IsM1Of symbol ((obs.arrival price volume).key tz .m5) :=
    fun volume h ↦ nomatch h.2
  unfold ticksOfIngest ticksOfArrival
  generalize hresolved : (b.resolveVolume obs.symbol obs.cumulativeVolume size) = resolved at *
  obtain ⟨b₁, volume⟩ := resolved
  obtain rfl : b₁ = _ := hfst
  simp only
  by_cases happlied : price = none ∧ volume ≤ 0
  · have hnone : (obs.arrival price volume).price = none ∧ (obs.arrival price volume).volume ≤ 0 :=
      happlied
    have hzero : volume.toNat = 0 := by omega
    rw [if_pos hnone, hzero, ite_self]
    rfl
  · have hnone : ¬ ((obs.arrival price volume).price = none ∧
      (obs.arrival price volume).volume ≤ 0) := happlied
    rw [if_neg hnone, Tick.within_append]
    simp only [ticksIn_within, hm1, hm5, false_and, if_false, List.append_nil]
    split
    · next h =>
      have hbrought : obs.symbol = symbol ∧ b.Reaches tz (obs.arrival none 0) .m1 ∧
        (obs.observationId, .m1) ∉ b.assignedObs := h
      rw [if_pos hbrought]
      simp [Tick.totalVolume, Arrival.tick, Observed.arrival]
    · next h =>
      have hbrought : ¬ (obs.symbol = symbol ∧ b.Reaches tz (obs.arrival none 0) .m1 ∧
        (obs.observationId, .m1) ∉ b.assignedObs) := h
      rw [if_neg hbrought]
      rfl

private theorem totalVolume_ticksOfIngest (b : BarBuilder) (obs : Observed) (price : Option ℚ)
    {size : Option Int} (hsize : obs.symbol = symbol → size = none) :
    Tick.totalVolume (Tick.within (b.ticksOfIngest tz obs price size) (IsM1Of symbol)) =
      (b.broughtBy tz symbol obs).card := by
  rw [totalVolume_ticksOfIngest_eq]
  unfold broughtBy
  split
  · next h => rw [hsize h.1, toNat_resolveVolume]
  · rfl

private theorem totalVolume_ticksOf (b : BarBuilder) {c : BarCall}
    (hquoted : ∀ obs, c = .trade obs → obs.symbol ≠ symbol) :
    Tick.totalVolume (Tick.within (b.ticksOf tz c) (IsM1Of symbol)) =
      (b.brought tz symbol c).card := by
  cases c with
  | quote obs => exact totalVolume_ticksOfIngest b obs.toObserved _ (fun _ ↦ rfl)
  | trade obs =>
    exact totalVolume_ticksOfIngest b obs.toObserved _
      (fun hs ↦ absurd hs (hquoted obs rfl))
  | underlying obs => exact totalVolume_ticksOfIngest b obs.toObserved _ (fun _ ↦ rfl)
  | closeReadyBars now => rfl

/-! ### Runs -/

/-- A run that keeps the units of volume brought so far. -/
def count (tz : ExchangeTz) (symbol : String) (s : BarBuilder × Finset Int) (c : BarCall) :
    BarBuilder × Finset Int :=
  (s.1.call tz c, s.2 ∪ s.1.brought tz symbol c)

/-- A call brings no unit of volume that was brought before. -/
def BringsNew (tz : ExchangeTz) (symbol : String) (s : BarBuilder × Finset Int) (c : BarCall) :
    Prop :=
  Disjoint s.2 (s.1.brought tz symbol c)

instance (tz : ExchangeTz) (symbol : String) (s : BarBuilder × Finset Int) (c : BarCall) :
    Decidable (BringsNew tz symbol s c) := inferInstanceAs (Decidable (Disjoint _ _))

private theorem run_count_fst (tz : ExchangeTz) (symbol : String) (s : BarBuilder × Finset Int)
    (calls : List BarCall) :
    (run (count tz symbol) s calls).1 = run (call tz) s.1 calls := by
  induction calls generalizing s with
  | nil => rfl
  | cons c rest ih => exact ih (count tz symbol s c)

/-- The memory of a symbol after a call is what the call delivers, or what it was. -/
theorem lastCumVol_call (hwf : b.Wellformed) (c : BarCall) :
    (b.call tz c).lastCumVol.get? symbol =
      (c.delivers symbol).or (b.lastCumVol.get? symbol) := by
  unfold BarCall.delivers
  cases hobs : c.observed with
  | some obs =>
    obtain ⟨price, size, hcall⟩ := call_of_observed hobs
    rw [hcall, lastCumVol_ingest]
    cases hcumulative : obs.cumulativeVolume with
    | none => simp [hcumulative]
    | some cumulative =>
      by_cases hs : obs.symbol = symbol <;> simp [hcumulative, hs]
  | none =>
    cases c with
    | closeReadyBars now =>
      rw [lastCumVol_closeReadyBars hwf]
      rfl
    | quote obs => cases hobs
    | trade obs => cases hobs
    | underlying obs => cases hobs

/-- The units brought lie between delivered values, and number the volume on the tape. -/
structure Counted (tz : ExchangeTz) (symbol : String) (lateToleranceSeconds : Int)
    (pre : List BarCall) (counted : Finset Int) : Prop where
  units : ∀ x ∈ counted, ∃ lo ∈ delivered symbol pre, ∃ hi ∈ delivered symbol pre,
    lo < x ∧ x ≤ hi
  memory : ∀ v ∈ (run (call tz) (new lateToleranceSeconds) pre).lastCumVol.get? symbol,
    v ∈ delivered symbol pre
  volume : Tick.totalVolume (Tick.within (tapeOf tz (new lateToleranceSeconds) pre)
    (IsM1Of symbol)) = counted.card

/-- What is delivered by one more call. -/
theorem delivered_snoc (symbol : String) (pre : List BarCall) (c : BarCall) :
    delivered symbol (pre ++ [c]) = delivered symbol pre ++ (c.delivers symbol).toList := by
  unfold delivered
  rw [List.filterMap_append]
  congr 1

private theorem mem_delivered_snoc {symbol : String} {pre : List BarCall} {c : BarCall} {v : Int}
    (h : v ∈ delivered symbol pre) : v ∈ delivered symbol (pre ++ [c]) := by
  rw [delivered_snoc]
  exact List.mem_append_left _ h

private theorem mem_brought {c : BarCall} {x : Int} (hx : x ∈ b.brought tz symbol c) :
    ∃ prev ∈ b.lastCumVol.get? symbol, ∃ cumulative ∈ c.delivers symbol,
      prev < x ∧ x ≤ cumulative := by
  unfold brought broughtBy risen at hx
  unfold BarCall.delivers
  cases hobs : c.observed with
  | none =>
    rw [hobs] at hx
    cases hx
  | some obs =>
    rw [hobs] at hx
    simp only [Option.map_some, Option.getD_some] at hx
    split at hx
    · next h =>
      rw [h.1] at hx
      cases hget : b.lastCumVol.get? symbol with
      | none =>
        rw [hget] at hx
        cases hx
      | some prev =>
        cases hcumulative : obs.cumulativeVolume with
        | none =>
          rw [hget, hcumulative] at hx
          cases hx
        | some cumulative =>
          rw [hget, hcumulative] at hx
          refine ⟨prev, rfl, cumulative, ?_, mem_unitsBetween.mp hx⟩
          simp [h.1, hcumulative]
    · cases hx

private theorem Counted.snoc {lateToleranceSeconds : Int} {pre : List BarCall}
    {counted : Finset Int} (h : Counted tz symbol lateToleranceSeconds pre counted)
    {c : BarCall} (hquoted : ∀ obs, c = .trade obs → obs.symbol ≠ symbol)
    (hnew : BringsNew tz symbol (run (call tz) (new lateToleranceSeconds) pre, counted) c) :
    Counted tz symbol lateToleranceSeconds (pre ++ [c])
      (counted ∪ (run (call tz) (new lateToleranceSeconds) pre).brought tz symbol c) := by
  have hwf := wellformed_run tz (wellformed_new lateToleranceSeconds) pre
  refine ⟨?_, ?_, ?_⟩
  · intro x hx
    rcases Finset.mem_union.mp hx with hx | hx
    · obtain ⟨lo, hlo, hi, hhi, hbetween⟩ := h.units x hx
      exact ⟨lo, mem_delivered_snoc hlo, hi, mem_delivered_snoc hhi, hbetween⟩
    · obtain ⟨prev, hprev, cumulative, hcumulative, hbetween⟩ := mem_brought hx
      refine ⟨prev, mem_delivered_snoc (h.memory prev hprev), cumulative, ?_, hbetween⟩
      rw [delivered_snoc]
      exact List.mem_append_right _ (Option.mem_toList.mpr hcumulative)
  · intro v hv
    rw [run_snoc, lastCumVol_call hwf, Option.mem_def, Option.or_eq_some_iff] at hv
    rw [delivered_snoc]
    rcases hv with hv | ⟨-, hv⟩
    · exact List.mem_append_right _ (Option.mem_toList.mpr hv)
    · exact List.mem_append_left _ (h.memory v hv)
  · rw [tapeOf_snoc, Tick.within_append, Tick.totalVolume_append, h.volume,
      totalVolume_ticksOf _ hquoted, Finset.card_union_of_disjoint hnew]

/-- While no part of the volume is brought twice, the one-minute bars of a symbol have at most
the spread of its delivered cumulative volumes. -/
theorem m1Volume_le_spread (tz : ExchangeTz) (symbol : String) (lateToleranceSeconds : Int)
    (calls : List BarCall) (hquoted : QuotedRun tz symbol calls)
    (hmeets : StepsMeet (count tz symbol) (BringsNew tz symbol) (new lateToleranceSeconds, ∅)
      calls) :
    ∀ pre, pre <+: calls →
      ((run (call tz) (new lateToleranceSeconds) pre).m1Volume symbol : Int) ≤
        spread (delivered symbol pre) := by
  have hcounted : ∀ pre, pre <+: calls → Counted tz symbol lateToleranceSeconds pre
      (run (count tz symbol) (new lateToleranceSeconds, ∅) pre).2 := by
    intro pre
    induction pre using List.reverseRecOn with
    | nil => exact fun _ ↦ ⟨(fun _ h ↦ nomatch h), (fun _ h ↦ nomatch h), rfl⟩
    | append_singleton pre c ih =>
      intro hp
      have hnew := ok_of_stepsMeet hmeets pre c hp
      have hfst := run_count_fst tz symbol (new lateToleranceSeconds, ∅) pre
      have hmem : c ∈ calls := hp.subset (by simp)
      have hlast : (run (count tz symbol) (new lateToleranceSeconds, ∅) (pre ++ [c])).2 =
          (run (count tz symbol) (new lateToleranceSeconds, ∅) pre).2 ∪
            (run (count tz symbol) (new lateToleranceSeconds, ∅) pre).1.brought tz symbol c := by
        rw [run_snoc]
        rfl
      unfold BringsNew at hnew
      rw [hfst] at hnew hlast
      rw [hlast]
      exact (ih ((List.prefix_append pre [c]).trans hp)).snoc
        (fun obs he ↦ hquoted.quoted obs (he ▸ hmem)) hnew
  intro pre hp
  have h := hcounted pre hp
  rw [(taped_run tz lateToleranceSeconds pre).m1Volume
    (wellformed_run tz (wellformed_new lateToleranceSeconds) pre), h.volume]
  exact card_le_spread h.units

/-! ### Runs of one minute -/

/-- An exchange that trades ten units a second. -/
def steadyVolume (w : Int) : Int := (w - (AwareDatetime.sample 0 0).wall .sample) / 100000 + 900

private theorem steadyVolume_monotone : Monotone steadyVolume := by
  intro w w' h
  unfold steadyVolume
  generalize (AwareDatetime.sample 0 0).wall .sample = start
  omega

/-- A quote of the steady exchange by its seconds. -/
def steadyQuote (observationId : Uuid) (source received : Nat) : BarCall :=
  .quote (.sample observationId (.sample 0 source) (.sample 0 received)
    (steadyVolume ((AwareDatetime.sample 0 source).wall .sample)))

/-- Quotes in the order of their source times. -/
def steadyQuotes : List BarCall :=
  [steadyQuote "a" 10 10, steadyQuote "b" 12 21, steadyQuote "c" 18 22, steadyQuote "d" 20 22]

/-- The same quotes, two of them late. -/
def lateQuotes : List BarCall :=
  [steadyQuote "a" 10 10, steadyQuote "d" 20 20, steadyQuote "b" 12 21, steadyQuote "c" 18 22]

private theorem quotedRun_of_steady {calls : List BarCall}
    (hquotes : ∀ c ∈ calls, ∃ id source received, c = steadyQuote id source received)
    (hdistinct : (((calls.filterMap BarCall.observed).filter
      (fun obs ↦ decide (obs.symbol = "SPY"))).map (fun obs ↦ obs.observationId)).Nodup) :
    QuotedRun .sample "SPY" calls where
  quoted obs hobs := by
    obtain ⟨id, source, received, he⟩ := hquotes _ hobs
    cases he
  distinct := hdistinct
  exchange := by
    refine ⟨steadyVolume, steadyVolume_monotone, ?_⟩
    intro c hc obs hobs _
    obtain ⟨id, source, received, rfl⟩ := hquotes c hc
    cases hobs
    rfl

private theorem quotedRun_steadyQuotes : QuotedRun .sample "SPY" steadyQuotes := by
  apply quotedRun_of_steady
  · simp only [steadyQuotes, List.forall_mem_cons, List.not_mem_nil, false_implies, implies_true,
      and_true]
    exact ⟨⟨_, _, _, rfl⟩, ⟨_, _, _, rfl⟩, ⟨_, _, _, rfl⟩, ⟨_, _, _, rfl⟩⟩
  · decide +kernel

private theorem quotedRun_lateQuotes : QuotedRun .sample "SPY" lateQuotes := by
  apply quotedRun_of_steady
  · simp only [lateQuotes, List.forall_mem_cons, List.not_mem_nil, false_implies, implies_true,
      and_true]
    exact ⟨⟨_, _, _, rfl⟩, ⟨_, _, _, rfl⟩, ⟨_, _, _, rfl⟩, ⟨_, _, _, rfl⟩⟩
  · decide +kernel

/-- The bound for quotes in order. -/
theorem m1Volume_le_spread_steadyQuotes :
    ((run (call .sample) (new 2) steadyQuotes).m1Volume "SPY" : Int) ≤
      spread (delivered "SPY" steadyQuotes) :=
  m1Volume_le_spread .sample "SPY" 2 steadyQuotes quotedRun_steadyQuotes (by decide +kernel)
    steadyQuotes List.prefix_rfl

/-- Two late quotes, inside the tolerance, bring a part of the volume twice. -/
theorem not_m1Volume_le_spread_lateQuotes :
    ¬ ∀ calls, QuotedRun .sample "SPY" calls → ∀ pre, pre <+: calls →
      ((run (call .sample) (new 2) pre).m1Volume "SPY" : Int) ≤ spread (delivered "SPY" pre) := by
  intro h
  have hle := h lateQuotes quotedRun_lateQuotes lateQuotes List.prefix_rfl
  rw [(taped_run .sample 2 lateQuotes).m1Volume
    (wellformed_run .sample (wellformed_new 2) lateQuotes)] at hle
  revert hle
  decide +kernel

end BarBuilder
end Joker.Market
