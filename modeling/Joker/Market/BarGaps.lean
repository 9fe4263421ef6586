import Joker.Market.BarCalls

/-!
# Gap marks

Library `Market`. The first observation of an interval marks every open bar of an earlier one, of
its symbol and timeframe, as followed by a gap. A bar is held open past its end for the tolerance,
so the mark says that no closing came in between rather than that an interval is missing. A run
keeps its one-minute bars complete exactly while each of them is closed, with a price, before the
next one is opened.
-/

namespace Joker.Market

open Joker.Base Joker.Broker Joker.Ledger

/-- An emitted one-minute bar is not incomplete, and no gap is said to follow it. -/
def MarketBar.CompleteM1 (bar : MarketBar) : Prop :=
  bar.timeframe = .m1 → bar.incomplete = false ∧ .gapBeforeNextInterval ∉ bar.qualityFlags

instance (bar : MarketBar) : Decidable bar.CompleteM1 := inferInstanceAs (Decidable (_ → _))

/-- Observations of one symbol arrive at once and in order, with a price in every minute from the
first to the last; no closing is before the last of them received. -/
structure GapFree (tz : ExchangeTz) (symbol : String) (calls : List BarCall) : Prop where
  oneSymbol : ∀ c ∈ calls, ∀ obs ∈ c.observed, obs.symbol = symbol
  atOnce : ∀ c ∈ calls, ∀ obs ∈ c.observed, obs.receivedTimestamp = obs.sourceTimestamp
  inOrder : (calls.filterMap BarCall.observed).Pairwise (fun before obs ↦
    before.sourceTimestamp.wall tz ≤ obs.sourceTimestamp.wall tz)
  closings : calls.Pairwise (fun before c ↦
    ∀ received ∈ before.received tz, ∀ reference ∈ c.reference tz, received ≤ reference)
  covered : ∀ first ∈ calls.filterMap BarCall.observed, ∀ last ∈ calls.filterMap BarCall.observed,
    ∀ start, BarTimeframe.m1.length ∣ start →
      floorToInterval tz first.sourceTimestamp .m1 ≤ start →
      start ≤ floorToInterval tz last.sourceTimestamp .m1 →
      ∃ c ∈ calls, c.price.isSome ∧ ∃ obs ∈ c.observed,
        floorToInterval tz obs.sourceTimestamp .m1 = start

namespace OpenBar

/-- A bar is marked by a newer interval. -/
def Gapped (bar : OpenBar) : Prop :=
  bar.incomplete = true ∨ .gapBeforeNextInterval ∈ bar.qualityFlags

private theorem not_gapped_new (key : BarKey) : ¬ (new key).Gapped := by
  simp [Gapped, new]

private theorem gapped_markGap (bar : OpenBar) : bar.markGap.Gapped := Or.inl rfl

/-- A late mark opens no gap. -/
@[simp] theorem gapped_markLate (bar : OpenBar) : bar.markLate.Gapped ↔ bar.Gapped := by
  simp [Gapped, markLate]

/-- An observation marks no gap in its own bar. -/
@[simp] theorem gapped_observe (bar : OpenBar) (a : Arrival) (late : Bool) :
    (bar.observe a late).Gapped ↔ bar.Gapped := by
  have hpriced : (bar.applyAnyPrice a.price a.observationId late).Gapped ↔ bar.Gapped := by
    unfold applyAnyPrice applyPrice
    cases a.price <;> cases late <;> by_cases h : bar.tickCount = 0 <;>
      simp [h, Gapped, markLate]
  unfold observe addVolume
  simp only
  split
  · split
    · exact Iff.trans (by simp [Gapped]) hpriced
    · exact hpriced
  · exact hpriced

private theorem mem_sortedFlags (flags : Finset QualityFlag) (flag : QualityFlag) :
    flag ∈ sortedFlags flags ↔ flag ∈ flags := by
  unfold sortedFlags
  rw [List.mem_filter, decide_eq_true_eq]
  exact and_iff_right (by cases flag <;> decide)

/-- A one-minute bar is emitted complete when it is unmarked and has a price. -/
theorem completeM1_finished (bar : OpenBar) :
    bar.finished.CompleteM1 ↔ (bar.timeframe = .m1 → ¬ bar.Gapped ∧ bar.tickCount ≠ 0) := by
  have hflag : .gapBeforeNextInterval ∈ bar.finished.qualityFlags ↔
      .gapBeforeNextInterval ∈ bar.qualityFlags := by
    unfold finished toMarketBar
    cases bar.lateData <;> simp only [Bool.false_eq_true, if_true, if_false] <;>
      repeat' split
    all_goals simp [mem_sortedFlags]
  have hincomplete : bar.finished.incomplete = true ↔
      bar.incomplete = true ∨ bar.tickCount = 0 := by
    unfold finished toMarketBar
    cases bar.lateData <;> simp <;> tauto
  have htimeframe : bar.finished.timeframe = bar.timeframe :=
    congrArg MarketBar.timeframe bar.figures_finished
  unfold MarketBar.CompleteM1 Gapped
  rw [htimeframe, hflag, ← Bool.not_eq_true, hincomplete]
  tauto

end OpenBar

namespace BarBuilder

variable {tz : ExchangeTz} {b : BarBuilder} {a : Arrival} {tf : BarTimeframe}

/-- What opening the bar of an arrival does to an open bar. -/
def markPrior (tz : ExchangeTz) (a : Arrival) (tf : BarTimeframe) (k : BarKey) (bar : OpenBar) :
    OpenBar :=
  if k.symbol = a.symbol ∧ k.timeframe = tf ∧ k.start < (a.key tz tf).start then bar.markGap
  else bar

private theorem lateMark (bar : OpenBar) (p : Prop) [Decidable p] :
    ((if p then bar.markLate else bar).Gapped ↔ bar.Gapped) ∧
      (if p then bar.markLate else bar).key = bar.key := by
  split
  · exact ⟨bar.gapped_markLate, rfl⟩
  · exact ⟨Iff.rfl, rfl⟩

private theorem opened_barFor (hkeyed : b.opened.Keyed OpenBar.key) (h : b.Reaches tz a tf) :
    ∃ opened bar, b.barFor tz a tf = ({ b with opened := opened }, some bar) ∧
      (bar.Gapped ↔ (b.barAt (a.key tz tf)).Gapped) ∧ bar.key = a.key tz tf ∧
      ∀ k, opened.get? k =
        if a.key tz tf = k then some bar
        else if b.opened.get? (a.key tz tf) = none then
          (b.opened.get? k).map (markPrior tz a tf k)
        else b.opened.get? k := by
  obtain ⟨hemitted, hintime⟩ := h
  unfold barFor barAt
  simp only
  rw [if_neg hemitted, if_neg (by omega)]
  cases hget : b.opened.get? (a.key tz tf) with
  | some existing =>
    obtain ⟨hgapped, hkey⟩ := lateMark existing
      (intervalEnd (a.key tz tf).start tf ≤ a.receivedTimestamp.wall tz)
    refine ⟨_, _, rfl, hgapped, hkey.trans (hkeyed _ existing hget), fun k ↦ ?_⟩
    simp only [reduceCtorEq, if_false]
    exact Dict.get?_set _ _ _ _
  | none =>
    obtain ⟨hgapped, hkey⟩ := lateMark (.new (a.key tz tf))
      (intervalEnd (a.key tz tf).start tf ≤ a.receivedTimestamp.wall tz)
    refine ⟨_, _, rfl, hgapped, hkey, fun k ↦ ?_⟩
    simp only [if_true]
    rw [Dict.get?_set, Dict.get?_mapItems]
    rfl

/-- The open bars after an arrival that reaches its bar. -/
theorem opened_applyIn (hkeyed : b.opened.Keyed OpenBar.key) (h : b.Reaches tz a tf) :
    ∃ bar, (bar.Gapped ↔ (b.barAt (a.key tz tf)).Gapped) ∧
      ∀ k, (b.applyIn tz a tf).opened.get? k =
        if a.key tz tf = k then some bar
        else if b.opened.get? (a.key tz tf) = none then
          (b.opened.get? k).map (markPrior tz a tf k)
        else b.opened.get? k := by
  obtain ⟨opened, bar, heq, hgapped, hkey, hget⟩ := opened_barFor hkeyed h
  unfold applyIn
  rw [heq]
  simp only
  split
  · exact ⟨bar, hgapped, hget⟩
  · refine ⟨bar.observe a (decide (bar.endTime ≤ a.receivedTimestamp.wall tz)),
      (bar.gapped_observe a _).trans hgapped, fun k ↦ ?_⟩
    rw [Dict.get?_set, hkey, hget]
    split <;> rfl

/-- The five-minute turn leaves the one-minute bars alone. -/
theorem get?_applyIn_m5 (hkeyed : b.opened.Keyed OpenBar.key) {k : BarKey}
    (hk : k.timeframe = .m1) : (b.applyIn tz a .m5).opened.get? k = b.opened.get? k := by
  by_cases hreaches : b.Reaches tz a .m5
  · obtain ⟨bar, -, hget⟩ := opened_applyIn hkeyed hreaches
    have hne : a.key tz .m5 ≠ k := by
      rintro rfl
      cases hk
    have hmark : markPrior tz a .m5 k = id := by
      funext bar
      exact if_neg (fun h ↦ absurd (hk.symm.trans h.2.1) (by decide))
    rw [hget, if_neg hne, hmark, Option.map_id, id, ite_self]
  · obtain ⟨f, -, heq⟩ := applyIn_of_not_reaches hreaches
    rw [heq]
    rfl

private theorem closedBars_applyIn (hkeyed : b.opened.Keyed OpenBar.key) :
    (b.applyIn tz a tf).closedBars = b.closedBars := by
  by_cases hreaches : b.Reaches tz a tf
  · obtain ⟨opened, bar, heq, -⟩ := applyIn_of_reaches hkeyed hreaches
    rw [heq]
  · obtain ⟨f, -, heq⟩ := applyIn_of_not_reaches hreaches
    rw [heq]
    rfl

/-! ### Marks that stay -/

/-- No one-minute bar is marked, and those emitted are complete. -/
structure Unmarked (b : BarBuilder) : Prop where
  closed : ∀ bar ∈ b.closedBars, bar.CompleteM1
  opened : ∀ k, ∀ bar ∈ b.opened.get? k, k.timeframe = .m1 → ¬ bar.Gapped

/-- A one-minute bar was emitted incomplete, or is open and marked. -/
def Marked (b : BarBuilder) : Prop :=
  (∃ bar ∈ b.closedBars, ¬ bar.CompleteM1) ∨
    ∃ k, ∃ bar ∈ b.opened.get? k, k.timeframe = .m1 ∧ bar.Gapped

/-- A mark is not taken away by an arrival. -/
theorem Marked.applyIn (h : b.Marked) (hwf : b.Wellformed) (tz : ExchangeTz) (a : Arrival)
    (tf : BarTimeframe) : (b.applyIn tz a tf).Marked := by
  rcases h with ⟨bar, hbar, hincomplete⟩ | ⟨k, bar, hbar, hk, hgapped⟩
  · exact Or.inl ⟨bar, by rw [closedBars_applyIn hwf.keyed]; exact hbar, hincomplete⟩
  · right
    by_cases hreaches : b.Reaches tz a tf
    · obtain ⟨own, hown, hget⟩ := opened_applyIn hwf.keyed hreaches
      by_cases hkey : a.key tz tf = k
      · refine ⟨k, own, by rw [hget, if_pos hkey]; rfl, hk, ?_⟩
        rw [hown, hkey, barAt, Option.mem_def.mp hbar]
        exact hgapped
      · by_cases hnew : b.opened.get? (a.key tz tf) = none
        · refine ⟨k, markPrior tz a tf k bar, ?_, hk, ?_⟩
          · rw [hget, if_neg hkey, if_pos hnew, Option.mem_def.mp hbar]
            rfl
          · unfold markPrior
            split
            · exact bar.gapped_markGap
            · exact hgapped
        · exact ⟨k, bar, by rw [hget, if_neg hkey, if_neg hnew]; exact hbar, hk, hgapped⟩
    · obtain ⟨f, -, heq⟩ := applyIn_of_not_reaches hreaches
      rw [heq]
      exact ⟨k, bar, hbar, hk, hgapped⟩

/-- A marked bar is emitted incomplete. -/
theorem Marked.emit (h : b.Marked) (hwf : b.Wellformed) {key : BarKey} {bar : OpenBar}
    (hget : b.opened.get? key = some bar) : (b.emit key bar).Marked := by
  rcases h with ⟨closed, hclosed, hincomplete⟩ | ⟨k, found, hfound, hk, hgapped⟩
  · exact Or.inl ⟨closed, List.mem_append_left _ hclosed, hincomplete⟩
  · by_cases hkey : key = k
    · left
      obtain rfl : bar = found := Option.some.inj (hget.symm.trans (hkey ▸ hfound))
      refine ⟨bar.finished, List.mem_append_right _ (List.mem_singleton_self _), ?_⟩
      rw [bar.completeM1_finished]
      have htimeframe : bar.timeframe = .m1 :=
        (congrArg BarKey.timeframe ((hwf.keyed key bar hget).trans hkey)).trans hk
      exact fun hcomplete ↦ (hcomplete htimeframe).1 hgapped
    · right
      refine ⟨k, found, ?_, hk, hgapped⟩
      change (b.opened.erase key).get? k = some found
      rw [Dict.get?_erase, if_neg hkey]
      exact hfound

/-! ### Steps that mark nothing -/

/-- When an observation opens its one-minute bar, no earlier one of its symbol is open. -/
def OpensClean (tz : ExchangeTz) (b : BarBuilder) (c : BarCall) : Prop :=
  ∀ a ∈ b.arrivalOf c, a.Carries → b.Reaches tz a .m1 → b.opened.get? (a.key tz .m1) = none →
    ∀ e ∈ b.opened.entries, e.1.symbol = a.symbol → e.1.timeframe = .m1 →
      (a.key tz .m1).start ≤ e.1.start

/-- When a closing emits a one-minute bar, the bar has a price. -/
def ClosesPriced (tz : ExchangeTz) (b : BarBuilder) (c : BarCall) : Prop :=
  ∀ reference ∈ c.reference tz, ∀ e ∈ b.readyEntries reference, e.1.timeframe = .m1 →
    e.2.tickCount ≠ 0

/-- A one-minute bar is closed, with a price, before the next one is opened. -/
def KeepsComplete (tz : ExchangeTz) (b : BarBuilder) (c : BarCall) : Prop :=
  OpensClean tz b c ∧ ClosesPriced tz b c

instance (tz : ExchangeTz) (b : BarBuilder) (c : BarCall) : Decidable (OpensClean tz b c) :=
  inferInstanceAs (Decidable (∀ a ∈ b.arrivalOf c, _))

instance (tz : ExchangeTz) (b : BarBuilder) (c : BarCall) : Decidable (ClosesPriced tz b c) :=
  inferInstanceAs (Decidable (∀ reference ∈ c.reference tz, _))

instance (tz : ExchangeTz) (b : BarBuilder) (c : BarCall) : Decidable (KeepsComplete tz b c) :=
  inferInstanceAs (Decidable (_ ∧ _))

private theorem Unmarked.applyIn_m1 (h : b.Unmarked) (hwf : b.Wellformed)
    (hclean : b.Reaches tz a .m1 → b.opened.get? (a.key tz .m1) = none →
      ∀ e ∈ b.opened.entries, e.1.symbol = a.symbol → e.1.timeframe = .m1 →
        (a.key tz .m1).start ≤ e.1.start) : (b.applyIn tz a .m1).Unmarked := by
  refine ⟨by rw [closedBars_applyIn hwf.keyed]; exact h.closed, ?_⟩
  by_cases hreaches : b.Reaches tz a .m1
  · obtain ⟨own, hown, hget⟩ := opened_applyIn hwf.keyed hreaches
    intro k bar hbar hk
    rw [Option.mem_def, hget] at hbar
    split at hbar
    · next hkey =>
      obtain rfl := Option.some.inj hbar
      rw [hown, barAt]
      cases hopen : b.opened.get? (a.key tz .m1) with
      | none => exact OpenBar.not_gapped_new _
      | some found => exact h.opened _ found hopen rfl
    · split at hbar
      · next hnew =>
        obtain ⟨before, hbefore, rfl⟩ := Option.map_eq_some_iff.mp hbar
        have hmark : ¬ (k.symbol = a.symbol ∧ k.timeframe = .m1 ∧
            k.start < (a.key tz .m1).start) := by
          rintro ⟨hsymbol, -, hlt⟩
          have hle := hclean hreaches hnew (k, before) ((Dict.mem_entries_iff _ _ _).mpr hbefore)
            hsymbol hk
          exact absurd hlt (not_lt.mpr hle)
        unfold markPrior
        rw [if_neg hmark]
        exact h.opened k before hbefore hk
      · exact h.opened k bar hbar hk
  · obtain ⟨f, -, heq⟩ := applyIn_of_not_reaches hreaches
    rw [heq]
    exact h.opened

private theorem Unmarked.applyIn_m5 (h : b.Unmarked) (hwf : b.Wellformed) :
    (b.applyIn tz a .m5).Unmarked := by
  refine ⟨by rw [closedBars_applyIn hwf.keyed]; exact h.closed, ?_⟩
  intro k bar hbar hk
  rw [get?_applyIn_m5 hwf.keyed hk] at hbar
  exact h.opened k bar hbar hk

private theorem Unmarked.emitAll (h : b.Unmarked) (hwf : b.Wellformed) {reference : Int}
    (hpriced : ∀ e ∈ b.readyEntries reference, e.1.timeframe = .m1 → e.2.tickCount ≠ 0) :
    (b.emitAll (b.readyEntries reference)).Unmarked := by
  refine ⟨?_, ?_⟩
  · intro bar hbar
    rw [closedBars_emitAll] at hbar
    rcases List.mem_append.mp hbar with hbar | hbar
    · exact h.closed bar hbar
    · obtain ⟨e, he, rfl⟩ := List.mem_map.mp hbar
      have hget := (mem_readyEntries.mp he).1
      rw [e.2.completeM1_finished]
      intro htimeframe
      have hk : e.1.timeframe = .m1 :=
        (congrArg BarKey.timeframe (hwf.keyed e.1 e.2 hget)).symm.trans htimeframe
      exact ⟨h.opened e.1 e.2 hget hk, hpriced e he hk⟩
  · intro k bar hbar hk
    rw [Option.mem_def, get?_emitAll] at hbar
    split at hbar
    · cases hbar
    · exact h.opened k bar hbar hk

/-- A step that meets the condition marks nothing. -/
theorem Unmarked.call (h : b.Unmarked) (hwf : b.Wellformed) {c : BarCall}
    (hkeeps : KeepsComplete tz b c) : (b.call tz c).Unmarked := by
  rcases call_cases tz hwf c with ⟨a, ha, -⟩ | ⟨reference, href, -, -, hcall⟩ | ⟨-, -, hsame⟩
  · obtain ⟨lastCumVol, findings, hcall, -⟩ := call_of_arrival tz ha
    have hwf₁ := hwf.remember lastCumVol (b.findings ++ findings)
    rw [hcall]
    unfold applyObservation
    split
    · exact ⟨h.closed, h.opened⟩
    · next hcarries =>
      simp only [List.foldl_cons, List.foldl_nil]
      apply Unmarked.applyIn_m5 _ (hwf₁.applyIn tz a .m1)
      exact Unmarked.applyIn_m1 ⟨h.closed, h.opened⟩ hwf₁ (hkeeps.1 a ha hcarries)
  · rw [hcall]
    exact h.emitAll hwf (hkeeps.2 reference href)
  · rw [hsame]
    exact h

/-- A step that does not meet the condition leaves a mark. -/
theorem marked_call (hwf : b.Wellformed) {c : BarCall} (hnot : ¬ KeepsComplete tz b c) :
    (b.call tz c).Marked := by
  rcases not_and_or.mp hnot with hopens | hcloses
  · unfold OpensClean at hopens
    push Not at hopens
    obtain ⟨a, ha, hcarries, hreaches, hnew, ⟨k, bar⟩, hmem, hsymbol, hk, hlt⟩ := hopens
    obtain ⟨lastCumVol, findings, hcall, -⟩ := call_of_arrival tz ha
    have hwf₁ := hwf.remember lastCumVol (b.findings ++ findings)
    generalize hb₁ : ({ b with lastCumVol := lastCumVol, findings := b.findings ++ findings } :
      BarBuilder) = b₁ at hcall hwf₁
    have hopened : b₁.opened = b.opened := by rw [← hb₁]
    have hreaches₁ : b₁.Reaches tz a .m1 := by
      rw [← hb₁]
      exact hreaches
    obtain ⟨own, -, hget⟩ := opened_applyIn hwf₁.keyed hreaches₁
    have hne : a.key tz .m1 ≠ k := by
      rintro rfl
      exact absurd hlt (lt_irrefl _)
    right
    refine ⟨k, bar.markGap, ?_, hk, bar.gapped_markGap⟩
    rw [Option.mem_def, hcall]
    unfold applyObservation
    rw [if_neg hcarries]
    simp only [List.foldl_cons, List.foldl_nil]
    rw [get?_applyIn_m5 (hwf₁.applyIn tz a .m1).keyed hk, hget, if_neg hne, hopened, if_pos hnew,
      (Dict.mem_entries_iff _ _ _).mp hmem, Option.map_some, markPrior, if_pos ⟨hsymbol, hk, hlt⟩]
  · unfold ClosesPriced at hcloses
    push Not at hcloses
    obtain ⟨reference, href, ⟨k, bar⟩, hmem, hk, hzero⟩ := hcloses
    left
    refine ⟨bar.finished, ?_, ?_⟩
    · rw [call_close hwf href, closedBars_emitAll]
      exact List.mem_append_right _ (List.mem_map.mpr ⟨(k, bar), hmem, rfl⟩)
    · have htimeframe : bar.timeframe = .m1 :=
        (congrArg BarKey.timeframe (hwf.keyed k bar (mem_readyEntries.mp hmem).1)).trans hk
      rw [bar.completeM1_finished]
      exact fun hcomplete ↦ (hcomplete htimeframe).2 hzero

/-! ### Runs -/

private theorem unmarked_new (lateToleranceSeconds : Int) :
    (new lateToleranceSeconds).Unmarked where
  closed _ h := nomatch h
  opened _ _ h := nomatch h

/-- A run whose steps meet the condition marks nothing; any other run leaves a mark. -/
theorem unmarked_or_marked (tz : ExchangeTz) (lateToleranceSeconds : Int) (calls : List BarCall) :
    (StepsMeet (call tz) (KeepsComplete tz) (new lateToleranceSeconds) calls →
        (run (call tz) (new lateToleranceSeconds) calls).Unmarked) ∧
      (¬ StepsMeet (call tz) (KeepsComplete tz) (new lateToleranceSeconds) calls →
        (run (call tz) (new lateToleranceSeconds) calls).Marked) :=
  run_kept_or_lost (J := Wellformed) (fun _ c hwf ↦ wellformed_run tz hwf [c])
    (fun _ _ hwf h hkeeps ↦ h.call hwf hkeeps) (fun _ _ hwf _ hnot ↦ marked_call hwf hnot)
    (fun _ c hwf h ↦ (call_invariant (I := Marked) (fun _ _ _ h ↦ h)
      (fun _ a tf hwf h ↦ h.applyIn hwf tz a tf) (fun _ _ _ hwf h hget ↦ h.emit hwf hget)
      hwf h c).2)
    (wellformed_new lateToleranceSeconds) (unmarked_new lateToleranceSeconds)

/-- A run in which each one-minute bar is closed, with a price, before the next one is opened has
complete one-minute bars after every call; and so is every run with complete one-minute bars that
leaves none of them open. -/
theorem completeM1_run (tz : ExchangeTz) (lateToleranceSeconds : Int) (calls : List BarCall) :
    (StepsMeet (call tz) (KeepsComplete tz) (new lateToleranceSeconds) calls →
        ∀ pre, pre <+: calls →
          ∀ bar ∈ (run (call tz) (new lateToleranceSeconds) pre).closedBars, bar.CompleteM1) ∧
      ((∀ bar ∈ (run (call tz) (new lateToleranceSeconds) calls).closedBars, bar.CompleteM1) →
        (∀ k ∈ (run (call tz) (new lateToleranceSeconds) calls).opened.keys,
          k.timeframe ≠ .m1) →
        StepsMeet (call tz) (KeepsComplete tz) (new lateToleranceSeconds) calls) := by
  constructor
  · rintro hmeets pre ⟨rest, rfl⟩
    exact ((unmarked_or_marked tz lateToleranceSeconds pre).1 (stepsMeet_append.mp hmeets).1).closed
  · intro hcomplete hclosed
    by_contra hnot
    rcases (unmarked_or_marked tz lateToleranceSeconds calls).2 hnot with
      ⟨bar, hbar, hincomplete⟩ | ⟨k, bar, hbar, hk, -⟩
    · exact hincomplete (hcomplete bar hbar)
    · exact hclosed k ((Dict.mem_keys_iff _ _).mpr ⟨bar, hbar⟩) hk

/-! ### Trades of two minutes -/

/-- Two minutes that are each closed before the next. -/
def closedBetween : List BarCall :=
  [.trade (.sample "a" (.sample 0 30) 500 10), .closeReadyBars (AwareDatetime.sample 1 2).time,
    .trade (.sample "b" (.sample 1 3) 501 5), .closeReadyBars (AwareDatetime.sample 2 2).time]

/-- Bars that are closed in between are complete. -/
theorem completeM1_closedBetween :
    ∀ bar ∈ (run (call .sample) (new 2) closedBetween).closedBars, bar.CompleteM1 :=
  (completeM1_run .sample 2 closedBetween).1 (by decide +kernel) closedBetween List.prefix_rfl

/-- A trade of the next minute comes within the tolerance, before the closing. -/
def heldOpen : List BarCall :=
  [.trade (.sample "a" (.sample 0 30) 500 10), .trade (.sample "b" (.sample 1 1) 501 5),
    .closeReadyBars (AwareDatetime.sample 1 2).time]

private theorem gapFree_heldOpen : GapFree .sample "SPY" heldOpen where
  oneSymbol := by decide +kernel
  atOnce := by decide +kernel
  inOrder := by decide +kernel
  closings := by decide +kernel
  covered := by
    have hstarts : ∀ obs ∈ heldOpen.filterMap BarCall.observed,
        floorToInterval .sample obs.sourceTimestamp .m1 =
            floorToInterval .sample (.sample 0 30) .m1 ∨
          floorToInterval .sample obs.sourceTimestamp .m1 =
            floorToInterval .sample (.sample 0 30) .m1 + oneMinute := by
      decide +kernel
    have hcovered : ∀ start ∈ [floorToInterval .sample (.sample 0 30) .m1,
        floorToInterval .sample (.sample 0 30) .m1 + oneMinute],
        ∃ c ∈ heldOpen, c.price.isSome ∧ ∃ obs ∈ c.observed,
          floorToInterval .sample obs.sourceTimestamp .m1 = start := by
      decide +kernel
    intro first hfirst last hlast start hdvd hle hge
    apply hcovered
    have haligned : BarTimeframe.m1.length ∣ floorToInterval .sample (.sample 0 30) .m1 :=
      length_dvd_floorWall _ _
    have hlow := hstarts first hfirst
    have hhigh := hstarts last hlast
    generalize floorToInterval .sample (.sample 0 30) .m1 = minute at *
    obtain ⟨n, rfl⟩ := hdvd
    obtain ⟨m, rfl⟩ := haligned
    have hlength : BarTimeframe.m1.length = 60000000 := by decide
    have hminute : oneMinute = 60000000 := rfl
    rw [hlength] at hle hge hlow hhigh ⊢
    rw [hminute] at hlow hhigh ⊢
    simp only [List.mem_cons, List.not_mem_nil, or_false]
    omega

/-- The first minute's bar is emitted as incomplete and with a gap after it. -/
theorem not_completeM1_heldOpen :
    GapFree .sample "SPY" heldOpen ∧
      ¬ ∀ bar ∈ (run (call .sample) (new 2) heldOpen).closedBars, bar.CompleteM1 :=
  ⟨gapFree_heldOpen, by decide +kernel⟩

end BarBuilder
end Joker.Market
