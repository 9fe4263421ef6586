import Joker.Market.BarCalls
import Joker.Market.BarTimeframes
import Joker.Market.BarVolume

/-!
# Cumulative volume over a run

Library `Market`. Where every observation carries the cumulative volume, in order, each brings the
rise from the one before to its own, whatever its kind and its interval. The rises add up to the
last cumulative volume less the first; the first observation has nothing to rise from, and brings
its size if it is a trade.
-/

namespace Joker.Market

open Joker.Base Joker.Broker Joker.Ledger

/-- Distinct observations of one symbol carry its cumulative volume, in nondecreasing order. -/
structure CumulativeRun (symbol : String) (calls : List BarCall) : Prop where
  oneSymbol : ∀ c ∈ calls, ∀ obs ∈ c.observed, obs.symbol = symbol
  cumulative : ∀ c ∈ calls, ∀ obs ∈ c.observed, obs.cumulativeVolume.isSome
  inOrder : (delivered symbol calls).Pairwise (· ≤ ·)
  distinct : ((calls.filterMap BarCall.observed).map (fun obs ↦ obs.observationId)).Nodup

/-- No finding says that an observation was dropped. -/
def NeverDropped (b : BarBuilder) : Prop :=
  ∀ f ∈ b.findings, f.code ≠ .droppedAfterClose ∧ f.code ≠ .droppedTooLate

instance (b : BarBuilder) : Decidable (NeverDropped b) :=
  inferInstanceAs (Decidable (∀ f ∈ b.findings, _))

/-- The size of the first observation, if it is a trade. -/
def firstTradeSize (calls : List BarCall) : Int :=
  ((calls.find? (fun c ↦ c.observed.isSome)).bind BarCall.tradeSize).getD 0

/-- The last cumulative volume less the first. -/
def cumulativeRise (symbol : String) (calls : List BarCall) : Int :=
  (delivered symbol calls).getLast?.getD 0 - (delivered symbol calls).head?.getD 0

namespace BarBuilder

variable {tz : ExchangeTz} {symbol : String} {b : BarBuilder} {lateToleranceSeconds : Int}

/-- An observation is assigned under its own id. -/
theorem assigned_of_run (tz : ExchangeTz) (lateToleranceSeconds : Int) (calls : List BarCall)
    {x : Uuid × BarTimeframe}
    (hx : x ∈ (run (call tz) (new lateToleranceSeconds) calls).assignedObs) :
    ∃ c ∈ calls, ∃ obs ∈ c.observed, obs.observationId = x.1 := by
  induction calls using List.reverseRecOn with
  | nil => simp [new] at hx
  | append_singleton calls last ih =>
    have hwf := wellformed_run tz (wellformed_new lateToleranceSeconds) calls
    have hbefore : x ∈ (run (call tz) (new lateToleranceSeconds) calls).assignedObs →
        ∃ c ∈ calls ++ [last], ∃ obs ∈ c.observed, obs.observationId = x.1 := by
      intro hmem
      obtain ⟨c, hc, hobs⟩ := ih hmem
      exact ⟨c, List.mem_append_left _ hc, hobs⟩
    rw [run_snoc] at hx
    rcases call_cases tz hwf last with ⟨a, ha, -⟩ | ⟨now, -, -, -, hcall⟩ | ⟨-, -, hsame⟩
    · obtain ⟨lastCumVol, findings, hcall, -⟩ := call_of_arrival tz ha
      have hwf₁ := hwf.remember lastCumVol
        ((run (call tz) (new lateToleranceSeconds) calls).findings ++ findings)
      have hown : x.1 = a.observationId →
          ∃ c ∈ calls ++ [last], ∃ obs ∈ c.observed, obs.observationId = x.1 := by
        intro hid
        obtain ⟨obs, hobs, rfl⟩ := Option.map_eq_some_iff.mp ha
        exact ⟨last, List.mem_append_right _ (List.mem_singleton_self _), obs, hobs, hid.symm⟩
      rw [hcall] at hx
      unfold applyObservation at hx
      split at hx
      · exact hbefore hx
      · simp only [List.foldl_cons, List.foldl_nil] at hx
        rw [mem_assignedObs_applyIn (hwf₁.applyIn tz a .m1), mem_assignedObs_applyIn hwf₁] at hx
        rcases hx with (hx | ⟨-, rfl⟩) | ⟨-, rfl⟩
        · exact hbefore hx
        · exact hown rfl
        · exact hown rfl
    · rw [hcall, assignedObs_emitAll] at hx
      exact hbefore hx
    · rw [hsame] at hx
      exact hbefore hx

private theorem unassigned_of_distinct {calls pre : List BarCall} (h : CumulativeRun symbol calls)
    {c : BarCall} (hpre : pre ++ [c] <+: calls) {obs : Observed} (hobs : c.observed = some obs)
    (tf : BarTimeframe) :
    (obs.observationId, tf) ∉ (run (call tz) (new lateToleranceSeconds) pre).assignedObs := by
  intro hassigned
  obtain ⟨c', hc', obs', hobs', hid⟩ := assigned_of_run tz lateToleranceSeconds pre hassigned
  have hids := h.distinct.sublist ((hpre.sublist.filterMap BarCall.observed).map
    (fun obs ↦ obs.observationId))
  rw [List.filterMap_append, List.map_append, List.nodup_append] at hids
  refine hids.2.2 obs'.observationId ?_ obs.observationId ?_ hid
  · exact List.mem_map_of_mem (List.mem_filterMap.mpr ⟨c', hc', hobs'⟩)
  · rw [List.filterMap_cons_some hobs]
    exact List.mem_map_of_mem List.mem_cons_self

private theorem totalVolume_ticksOf_observed (b : BarBuilder) {c : BarCall} {obs : Observed}
    (hobs : c.observed = some obs) :
    Tick.totalVolume (Tick.within (b.ticksOf tz c) (IsM1Of symbol)) =
      if obs.symbol = symbol ∧ b.Reaches tz (obs.arrival none 0) .m1 ∧
          (obs.observationId, .m1) ∉ b.assignedObs then
        (b.resolveVolume obs.symbol obs.cumulativeVolume c.tradeSize).2.toNat
      else 0 := by
  cases c with
  | quote q =>
    cases hobs
    exact totalVolume_ticksOfIngest_eq _ _ _ _
  | trade t =>
    cases hobs
    exact totalVolume_ticksOfIngest_eq _ _ _ _
  | underlying u =>
    cases hobs
    exact totalVolume_ticksOfIngest_eq _ _ _ _
  | closeReadyBars now => cases hobs

private theorem reaches_of_neverDropped {calls pre : List BarCall}
    (hkept : NeverDropped (run (call tz) (new lateToleranceSeconds) calls)) {c : BarCall}
    (hpre : pre ++ [c] <+: calls) {a : Arrival}
    (ha : a ∈ (run (call tz) (new lateToleranceSeconds) pre).arrivalOf c) (hcarries : a.Carries)
    (tf : BarTimeframe) : (run (call tz) (new lateToleranceSeconds) pre).Reaches tz a tf := by
  have hwf := wellformed_run tz (wellformed_new lateToleranceSeconds) pre
  obtain ⟨findings, hfindings, hdrops⟩ := findings_call_eq tz hwf ha
  by_contra hreaches
  obtain ⟨f, hf, hdropped⟩ := (hdrops tf).mpr ⟨hcarries, hreaches⟩
  have hmem : f ∈ ((run (call tz) (new lateToleranceSeconds) pre).call tz c).findings := by
    rw [hfindings]
    exact List.mem_append_right _ hf
  -- the finding stays to the end of the run
  obtain ⟨post, rfl⟩ := hpre
  rw [run_append, run_snoc] at hkept
  have hcode := hkept f ((findings_run (wellformed_run tz hwf [c]) post).subset hmem)
  exact hdropped.code.elim hcode.1 hcode.2

private theorem totalVolume_ticksOf_eq {calls : List BarCall} (h : CumulativeRun symbol calls)
    (hkept : NeverDropped (run (call tz) (new lateToleranceSeconds) calls)) {pre : List BarCall}
    {c : BarCall} (hpre : pre ++ [c] <+: calls) {obs : Observed} (hobs : c.observed = some obs) :
    Tick.totalVolume (Tick.within
        ((run (call tz) (new lateToleranceSeconds) pre).ticksOf tz c) (IsM1Of symbol)) =
      ((run (call tz) (new lateToleranceSeconds) pre).resolveVolume obs.symbol
        obs.cumulativeVolume c.tradeSize).2.toNat := by
  have hsymbol : obs.symbol = symbol := h.oneSymbol c (hpre.subset (by simp)) obs hobs
  rw [totalVolume_ticksOf_observed _ hobs]
  split
  · rfl
  · next hnot =>
    -- What was not applied had neither a price nor a volume.
    have ha : obs.arrival c.price ((run (call tz) (new lateToleranceSeconds) pre).resolveVolume
        obs.symbol obs.cumulativeVolume c.tradeSize).2 ∈
        (run (call tz) (new lateToleranceSeconds) pre).arrivalOf c :=
      Option.map_eq_some_iff.mpr ⟨obs, hobs, rfl⟩
    have hempty := fun hcarries ↦
      hnot ⟨hsymbol, reaches_of_neverDropped hkept hpre ha hcarries .m1,
        unassigned_of_distinct h hpre hobs .m1⟩
    exact (Int.toNat_of_nonpos (not_not.mp hempty).2).symm

/-- The volume on the tape after a part of a run, and the memory it leaves. -/
structure Telescoped (tz : ExchangeTz) (symbol : String) (lateToleranceSeconds : Int)
    (pre : List BarCall) : Prop where
  volume : (Tick.totalVolume (Tick.within (tapeOf tz (new lateToleranceSeconds) pre)
    (IsM1Of symbol)) : Int) = cumulativeRise symbol pre + firstTradeSize pre
  memory : (run (call tz) (new lateToleranceSeconds) pre).lastCumVol.get? symbol =
    (delivered symbol pre).getLast?

private theorem resolveVolume_first {obs : Observed} {cumulative : Int}
    (hnone : b.lastCumVol.get? obs.symbol = none) {size : Option Int}
    (hsize : ∀ n ∈ size, 0 ≤ n) :
    ((b.resolveVolume obs.symbol (some cumulative) size).2.toNat : Int) = size.getD 0 := by
  unfold resolveVolume
  simp only [hnone]
  cases size with
  | none => rfl
  | some n =>
    have hn := hsize n rfl
    by_cases hpos : 0 < n
    · simp [Option.filter, hpos, hn]
    · have hzero : n = 0 := by omega
      simp [Option.filter, hzero]

private theorem resolveVolume_rise {obs : Observed} {prev cumulative : Int}
    (hprev : b.lastCumVol.get? obs.symbol = some prev) (hle : prev ≤ cumulative)
    (size : Option Int) :
    ((b.resolveVolume obs.symbol (some cumulative) size).2.toNat : Int) = cumulative - prev := by
  unfold resolveVolume
  simp only [hprev]
  rw [if_pos (by omega)]
  exact Int.toNat_of_nonneg (by omega)

private theorem tradeSize_nonneg (c : BarCall) : ∀ n ∈ c.tradeSize, 0 ≤ n := by
  intro n hn
  cases c with
  | trade obs =>
    obtain rfl : (obs.size : Int) = n := Option.some.inj hn
    exact Int.natCast_nonneg _
  | quote obs => cases hn
  | underlying obs => cases hn
  | closeReadyBars now => cases hn

private theorem delivered_eq_nil_iff {calls pre : List BarCall} (h : CumulativeRun symbol calls)
    (hsub : pre ⊆ calls) : delivered symbol pre = [] ↔ ∀ c ∈ pre, c.observed = none := by
  unfold delivered
  rw [List.filterMap_eq_nil_iff]
  refine forall₂_congr fun c hc ↦ ?_
  unfold BarCall.delivers
  cases hobs : c.observed with
  | none => simp
  | some obs =>
    have hsome := h.cumulative c (hsub hc) obs hobs
    have hsymbol := h.oneSymbol c (hsub hc) obs hobs
    simp only [Option.bind_some, hsymbol, if_true, reduceCtorEq, iff_false]
    exact Option.isSome_iff_ne_none.mp hsome

private theorem Telescoped.snoc {calls pre : List BarCall} {c : BarCall}
    (ht : Telescoped tz symbol lateToleranceSeconds pre) (h : CumulativeRun symbol calls)
    (hkept : NeverDropped (run (call tz) (new lateToleranceSeconds) calls))
    (hpre : pre ++ [c] <+: calls) {obs : Observed} (hobs : c.observed = some obs) :
    Telescoped tz symbol lateToleranceSeconds (pre ++ [c]) := by
  have hwf := wellformed_run tz (wellformed_new lateToleranceSeconds) pre
  have hc : c ∈ calls := hpre.subset (by simp)
  have hsymbol := h.oneSymbol c hc obs hobs
  obtain ⟨cumulative, hcumulative⟩ := Option.isSome_iff_exists.mp (h.cumulative c hc obs hobs)
  have hdelivers : c.delivers symbol = some cumulative := by
    simp [BarCall.delivers, hobs, hsymbol, hcumulative]
  have hdelivered : delivered symbol (pre ++ [c]) = delivered symbol pre ++ [cumulative] := by
    rw [delivered_snoc, hdelivers]
    rfl
  refine ⟨?_, ?_⟩
  · have hmemory := ht.memory
    rw [← hsymbol] at hmemory
    rw [tapeOf_snoc, Tick.within_append, Tick.totalVolume_append, Nat.cast_add, ht.volume,
      totalVolume_ticksOf_eq h hkept hpre hobs, hcumulative]
    unfold cumulativeRise firstTradeSize
    rw [hdelivered, List.find?_append]
    have hsub : pre ⊆ calls := ((List.prefix_append pre [c]).trans hpre).subset
    rcases List.eq_nil_or_concat (delivered symbol pre) with hnil | ⟨before, prev, hlast⟩
    · -- The first observation.
      have hnone : pre.find? (fun c ↦ c.observed.isSome) = none := by
        rw [List.find?_eq_none]
        intro c' hc'
        simp [(delivered_eq_nil_iff h hsub).mp hnil c' hc']
      rw [hsymbol, hnil] at hmemory
      rw [resolveVolume_first (hsymbol ▸ hmemory) (tradeSize_nonneg c), hnil, hnone]
      simp [List.find?, hobs]
    · -- A rise from the observation before.
      rw [List.concat_eq_append] at hlast
      have hhead : (before ++ [prev] ++ [cumulative]).head? = (before ++ [prev]).head? := by
        cases before <;> rfl
      have hle : prev ≤ cumulative := by
        have hpairwise := h.inOrder.sublist (hpre.sublist.filterMap (BarCall.delivers symbol))
        change (delivered symbol (pre ++ [c])).Pairwise (· ≤ ·) at hpairwise
        rw [hdelivered, List.pairwise_append] at hpairwise
        exact hpairwise.2.2 prev (by simp [hlast]) cumulative (List.mem_singleton_self _)
      have hsome : (pre.find? (fun c ↦ c.observed.isSome)).isSome = true := by
        rw [List.find?_isSome]
        by_contra hnone
        push Not at hnone
        have hnil := (delivered_eq_nil_iff h hsub).mpr (fun c' hc' ↦ by simpa using hnone c' hc')
        simp [hlast] at hnil
      obtain ⟨first, hfirst⟩ := Option.isSome_iff_exists.mp hsome
      rw [hsymbol, hlast] at hmemory
      rw [resolveVolume_rise (hsymbol ▸ (by simpa using hmemory)) hle, hlast, hfirst, hhead,
        List.getLast?_concat, List.getLast?_concat, Option.some_or]
      simp only [Option.getD_some]
      ring
  · rw [run_snoc, lastCumVol_call hwf, hdelivers, hdelivered]
    simp

/-- In a run of one symbol that delivers its cumulative volume in order and drops nothing, the
one-minute bars have the rise of the cumulative volume and the size of the first trade. -/
theorem m1Volume_telescopes (tz : ExchangeTz) (symbol : String) (lateToleranceSeconds : Int)
    (calls : List BarCall) (h : CumulativeRun symbol calls)
    (hkept : NeverDropped (run (call tz) (new lateToleranceSeconds) calls)) :
    ((run (call tz) (new lateToleranceSeconds) calls).m1Volume symbol : Int) =
      cumulativeRise symbol calls + firstTradeSize calls := by
  have htelescoped : ∀ pre, pre <+: calls → Telescoped tz symbol lateToleranceSeconds pre := by
    intro pre
    induction pre using List.reverseRecOn with
    | nil => exact fun _ ↦ ⟨rfl, rfl⟩
    | append_singleton pre c ih =>
      intro hpre
      have hbefore := ih ((List.prefix_append pre [c]).trans hpre)
      cases hobs : c.observed with
      | some obs => exact hbefore.snoc h hkept hpre hobs
      | none =>
        have hwf := wellformed_run tz (wellformed_new lateToleranceSeconds) pre
        have hdelivers : c.delivers symbol = none := by simp [BarCall.delivers, hobs]
        have hdelivered : delivered symbol (pre ++ [c]) = delivered symbol pre := by
          rw [delivered_snoc, hdelivers]
          exact List.append_nil _
        have hticks : (run (call tz) (new lateToleranceSeconds) pre).ticksOf tz c = [] := by
          cases c with
          | closeReadyBars now => rfl
          | quote obs => cases hobs
          | trade obs => cases hobs
          | underlying obs => cases hobs
        refine ⟨?_, ?_⟩
        · rw [tapeOf_snoc, hticks, List.append_nil, hbefore.volume]
          unfold cumulativeRise firstTradeSize
          rw [hdelivered, List.find?_append]
          simp [hobs]
        · rw [run_snoc, lastCumVol_call hwf, hdelivers, hdelivered]
          exact hbefore.memory
  rw [(taped_run tz lateToleranceSeconds calls).m1Volume
    (wellformed_run tz (wellformed_new lateToleranceSeconds) calls)]
  exact (htelescoped calls List.prefix_rfl).volume

/-- A trade of ten, and quotes of this minute and the next, with a closing in between. -/
def mixedRun : List BarCall :=
  [.trade { TradeObservation.sample "a" (.sample 0 5) 500 10 with cumulativeVolume := some 1000 },
    .quote (.sample "b" (.sample 0 40) (.sample 0 40) 1040),
    .closeReadyBars (AwareDatetime.sample 1 2).time,
    .quote (.sample "c" (.sample 1 10) (.sample 1 10) 1100)]

private theorem cumulativeRun_mixedRun : CumulativeRun "SPY" mixedRun where
  oneSymbol := by decide +kernel
  cumulative := by decide +kernel
  inOrder := by decide +kernel
  distinct := by decide +kernel

/-- The bars of the mixed run have a hundred and ten. -/
theorem m1Volume_telescopes_mixedRun :
    ((run (call .sample) (new 2) mixedRun).m1Volume "SPY" : Int) =
      cumulativeRise "SPY" mixedRun + firstTradeSize mixedRun :=
  m1Volume_telescopes .sample "SPY" 2 mixedRun cumulativeRun_mixedRun (by decide +kernel)

end BarBuilder
end Joker.Market
