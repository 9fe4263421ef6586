import Joker.Market.Quality

/-!
# Market ticks

Library `Runtime`. `MarketRuntime` of `joker/runtime/market_runtime.py`, which takes in quotes,
trades and option rows and makes a snapshot with a quality report at a tick. The bridge makes one
call at a time. A surface is built at the tick that finds rows waiting and is linked by every later
snapshot until the next one, with the ages its rows had when it was built.
-/

namespace Joker.Runtime

open Joker.Base Joker.Broker Joker.Ledger Joker.Market

/-! ### The runtime -/

/-- `MarketRuntimeConfig`, and which repositories are configured.
Source `joker/runtime/market_runtime.py:44–62`. -/
structure MarketRuntimeConfig where
  symbol : String
  underlyingStaleSeconds : PyFloat
  optionStaleSeconds : PyFloat
  maximumRelativeSpread : PyFloat
  minOptionContracts : Int
  bars1mWindow : ℕ
  bars5mWindow : ℕ
  hasSurfaceRepo : Bool
  hasQualityRepo : Bool

/-- `to_quality_config`; the clock skew keeps its default, 5 seconds.
Source `joker/runtime/market_runtime.py:55–62`. -/
def MarketRuntimeConfig.toQualityConfig (config : MarketRuntimeConfig) : DataQualityConfig :=
  { underlyingMaxAgeSeconds := config.underlyingStaleSeconds
    optionMaxAgeSeconds := config.optionStaleSeconds
    maxRelativeSpread := config.maximumRelativeSpread
    maxClockSkewSeconds := ⟨⟨false, 5, 0⟩⟩
    minOptionContracts := config.minOptionContracts }

/-- What the runtime takes from outside. -/
structure MarketOutside where
  tz : ExchangeTz
  builder : SurfaceBuilder
  quality : QualityInputs

/-- `MarketSnapshot`, without its own id and the ids of its events.
Source `joker/market/snapshots.py:77–100`. -/
structure MarketSnapshot where
  exchangeTime : Datetime
  tradingDate : Date
  underlying : UnderlyingSnapshot
  bars1m : List MarketBar
  bars5m : List MarketBar
  optionSurfaceId : Option Uuid
  dataQualityId : Uuid
  deriving DecidableEq

/-- A snapshot with the surface and the report that its ids link.
Source `joker/runtime/market_runtime.py:66–73`. -/
structure LinkedSnapshot where
  snapshot : MarketSnapshot
  surface : Option OptionSurfaceSnapshot
  report : Market.DataQualityReport
  deriving DecidableEq

/-- `MarketRuntime`. `created` has the snapshots it made; no code reads it.
Source `joker/runtime/market_runtime.py:95–511`. -/
structure MarketRuntime where
  bars : BarBuilder
  latestUnderlying : Option UnderlyingSnapshot
  pendingOptionRows : List ProviderRow
  latestSurface : Option OptionSurfaceSnapshot
  pendingQualityFindings : List DataQualityFinding
  created : List LinkedSnapshot

/-- An `OptionQuoteObservation`, or a row of a provider.
Source `joker/market/observations.py:93–123`. -/
inductive OptionQuote where
  | observation (contractSymbol : String) (terms : ContractTerms) (sourceTimestamp : AwareDatetime)
  | row (row : ProviderRow)
  deriving DecidableEq

/-- The row `ingest_option_quotes` keeps for a quote.
Source `joker/runtime/market_runtime.py:258–305`. -/
def OptionQuote.toRow : OptionQuote → ProviderRow
  | .observation contractSymbol terms sourceTimestamp =>
    { contractId := some contractSymbol
      symbol := some contractSymbol
      ticker := none
      terms := some terms
      quoteTimestamp := some (.datetime sourceTimestamp.time)
      quoteTime := none
      timestamp := none
      quoteTimeCamel := none }
  | .row given => given

/-- The arguments of a tick, what its clock and its id generators give, and which of its saves
raise. -/
structure TickCall where
  reference : Datetime
  tradingDate : Date
  surfaceId : Uuid
  reportId : Uuid
  surfaceSaveRaises : Bool
  qualitySaveRaises : Bool
  deriving DecidableEq

/-- A call of the runtime. -/
inductive MarketCall where
  | underlying (obs : UnderlyingObservation)
  | quote (obs : QuoteObservation)
  | trade (obs : TradeObservation)
  | optionQuotes (quotes : List OptionQuote)
  | qualityFindings (findings : List DataQualityFinding)
  | tick (call : TickCall)

namespace MarketRuntime

/-- A runtime before its first call. -/
def new (lateToleranceSeconds : Int) : MarketRuntime :=
  { bars := BarBuilder.new lateToleranceSeconds
    latestUnderlying := none
    pendingOptionRows := []
    latestSurface := none
    pendingQualityFindings := []
    created := [] }

/-- `_underlying_snapshot_from_observation`. Source `joker/runtime/market_runtime.py:76–92`. -/
def underlyingSnapshot (obs : Observed) (prices : BookPrices) : UnderlyingSnapshot :=
  { symbol := obs.symbol
    exchangeTime := obs.sourceTimestamp
    prices := prices
    cumulativeVolume := obs.cumulativeVolume }

/-- `tuple[-n:]`. -/
def lastBars (n : ℕ) (bars : List MarketBar) : List MarketBar :=
  if n = 0 then bars else bars.drop (bars.length - n)

/-- The finding of the quality report for one of the bar builder. -/
def barFinding (finding : BarIngestFinding) : DataQualityFinding :=
  match finding.code with
  | .cumulativeVolumeRegression =>
    ⟨.cumulativeVolumeRegression, .error, some finding.symbol⟩
  | .droppedAfterClose | .droppedTooLate => ⟨.incompleteBar, .warning, some finding.symbol⟩

section Calls

variable (outside : MarketOutside) (config : MarketRuntimeConfig)

/-- The surface a tick builds, if rows wait for it. -/
def builtSurface (s : MarketRuntime) (call : TickCall) :
    Except PyException (Option OptionSurfaceSnapshot) :=
  if s.pendingOptionRows = [] then .ok none
  else
    (fromProviderRows outside.builder s.pendingOptionRows call.reference call.tradingDate
      call.surfaceId).map some

/-- A surface that was built is the latest one, and no row waits. -/
def keepSurface (s : MarketRuntime) : Option OptionSurfaceSnapshot → MarketRuntime
  | none => s
  | some surface => { s with latestSurface := some surface, pendingOptionRows := [] }

/-- The windows of emitted bars. -/
def window (s : MarketRuntime) (tf : BarTimeframe) (n : ℕ) : List MarketBar :=
  lastBars n (s.bars.closedBars.filter (fun bar ↦ bar.timeframe = tf))

/-- The report of a tick, with the findings of the bar builder and those that were enqueued. -/
def report (s : MarketRuntime) (underlying : UnderlyingSnapshot) (call : TickCall) :
    Market.DataQualityReport :=
  let quality := evaluateDataQuality outside.quality config.toQualityConfig underlying
    (s.window .m1 config.bars1mWindow) (s.window .m5 config.bars5mWindow) s.latestSurface
    config.symbol call.reference call.reportId
  let quality :=
    if s.bars.findings = [] then quality else quality.merge (s.bars.findings.map barFinding)
  if s.pendingQualityFindings = [] then quality else quality.merge s.pendingQualityFindings

/-- The snapshot of a tick. -/
def linkedSnapshot (s : MarketRuntime) (underlying : UnderlyingSnapshot) (call : TickCall) :
    LinkedSnapshot :=
  let quality := s.report outside config underlying call
  { snapshot :=
      { exchangeTime := call.reference
        tradingDate := call.tradingDate
        underlying := underlying
        bars1m := s.window .m1 config.bars1mWindow
        bars5m := s.window .m5 config.bars5mWindow
        optionSurfaceId := s.latestSurface.map (fun surface ↦ surface.surfaceId)
        dataQualityId := quality.reportId }
    surface := s.latestSurface
    report := quality }

/-- The part of `tick` from the evaluation on. -/
def evaluated (s : MarketRuntime) (underlying : UnderlyingSnapshot) (call : TickCall) :
    MarketRuntime :=
  let after := { s with bars := { s.bars with findings := [] }, pendingQualityFindings := [] }
  if config.hasQualityRepo && call.qualitySaveRaises then after
  else { after with created := s.created ++ [s.linkedSnapshot outside config underlying call] }

/-- `tick`; what it did before an exception stays.
Source `joker/runtime/market_runtime.py:307–511`. -/
def tick (s : MarketRuntime) (call : TickCall) : MarketRuntime :=
  match s.bars.closeReadyBars outside.tz call.reference with
  | .error _ => s
  | .ok (bars, closed) =>
    let s := { s with bars := bars }
    match s.builtSurface outside call with
    | .error _ => s
    | .ok surface =>
      let s := s.keepSurface surface
      if surface.isSome && config.hasSurfaceRepo && call.surfaceSaveRaises then s
      else
        match s.latestUnderlying with
        | none => s
        | some underlying =>
          if closed = [] ∧ surface = none then s else s.evaluated outside config underlying call

/-- One call. Source `joker/runtime/market_runtime.py:135–137, 155–210, 212–256`. -/
def step (s : MarketRuntime) : MarketCall → MarketRuntime
  | .underlying obs =>
    { s with
      bars := s.bars.ingestUnderlying outside.tz obs
      latestUnderlying :=
        some (underlyingSnapshot obs.toObserved ⟨obs.bid, obs.ask, obs.last⟩) }
  | .quote obs =>
    { s with
      bars := s.bars.ingestQuote outside.tz obs
      latestUnderlying :=
        some (underlyingSnapshot obs.toObserved ⟨obs.bid, obs.ask, obs.last⟩) }
  | .trade obs => { s with bars := s.bars.ingestTrade outside.tz obs }
  | .optionQuotes quotes => { s with pendingOptionRows := quotes.map OptionQuote.toRow }
  | .qualityFindings findings =>
    { s with pendingQualityFindings := s.pendingQualityFindings ++ findings }
  | .tick call => s.tick outside config call

/-! ### What a tick links -/

/-- The surface a tick links: the one it builds, or the latest. -/
def surfaceToLink (s : MarketRuntime) (call : TickCall) : Option OptionSurfaceSnapshot :=
  match s.builtSurface outside call with
  | .ok (some surface) => some surface
  | _ => s.latestSurface

/-- A tick creates a snapshot: a bar closes or rows wait, an underlying is known, and nothing
raises. -/
def Creates (s : MarketRuntime) (call : TickCall) : Prop :=
  match s.bars.closeReadyBars outside.tz call.reference, s.builtSurface outside call with
  | .ok (_, closed), .ok surface =>
    ¬ (surface.isSome && config.hasSurfaceRepo && call.surfaceSaveRaises) = true ∧
      s.latestUnderlying.isSome = true ∧ ¬ (closed = [] ∧ surface = none) ∧
        ¬ (config.hasQualityRepo && call.qualitySaveRaises) = true
  | _, _ => False

instance (s : MarketRuntime) (call : TickCall) : Decidable (s.Creates outside config call) := by
  unfold Creates
  split <;> infer_instance

end Calls

/-! ### Reports of stale quotes -/

section Reports

variable (outside : MarketOutside) (config : MarketRuntimeConfig)

/-- A quote is older than the limit at a time. -/
def Overdue (now : Datetime) (c : OptionContractSnapshot) : Prop :=
  config.optionStaleSeconds.toRat < ageSeconds c.quoteTimestamp now

instance (now : Datetime) (c : OptionContractSnapshot) : Decidable (Overdue config now c) :=
  inferInstanceAs (Decidable (_ < _))

/-- A quote was older than the limit, in whole milliseconds, when its surface was built. -/
def OverdueWhenBuilt (surface : OptionSurfaceSnapshot) (c : OptionContractSnapshot) : Prop :=
  config.optionStaleSeconds.toRat <
    (quoteAgeMs outside.builder surface.exchangeTime c.quoteTimestamp : ℚ) / 1000

instance (surface : OptionSurfaceSnapshot) (c : OptionContractSnapshot) :
    Decidable (OverdueWhenBuilt outside config surface c) :=
  inferInstanceAs (Decidable (_ < _))

/-- Every contract of the linked surface with a stale quote is named as stale by the linked
report. -/
def Reported (linked : LinkedSnapshot) : Prop :=
  ∀ surface ∈ linked.surface, ∀ c ∈ surface.contracts,
    Overdue config linked.snapshot.exchangeTime c → NamesStale linked.report.findings c.contractId

/-- Where a tick creates a snapshot, every contract of the surface it links with a stale quote was
named by an enqueued finding, or its quote, or another one of the contract, was already stale when
the surface was built and the surface has enough contracts. -/
def Meets (s : MarketRuntime) : MarketCall → Prop
  | .tick call => s.Creates outside config call →
    ∀ surface ∈ s.surfaceToLink outside call, ∀ c ∈ surface.contracts,
      Overdue config call.reference c →
        (config.minOptionContracts ≤ surface.contracts.length ∧
          ∃ c' ∈ surface.contracts, c'.contractId = c.contractId ∧
            OverdueWhenBuilt outside config surface c') ∨
          NamesStale s.pendingQualityFindings c.contractId
  | _ => True

instance (s : MarketRuntime) (call : MarketCall) : Decidable (Meets outside config s call) := by
  unfold Meets
  split <;> infer_instance

/-- The rows of the latest surface have the ages their quotes had when it was built. -/
def Dated (s : MarketRuntime) : Prop :=
  ∀ surface ∈ s.latestSurface, ∀ c ∈ surface.contracts,
    c.quoteAgeMs = quoteAgeMs outside.builder surface.exchangeTime c.quoteTimestamp

variable {outside config}

private theorem latestSurface_keepSurface (s : MarketRuntime)
    (surface : Option OptionSurfaceSnapshot) :
    (s.keepSurface surface).latestSurface = surface.or s.latestSurface := by
  cases surface <;> rfl

private theorem dated_built {s : MarketRuntime} (h : Dated outside s) {call : TickCall}
    {surface : Option OptionSurfaceSnapshot} (hbuilt : s.builtSurface outside call = .ok surface) :
    ∀ linked ∈ surface.or s.latestSurface, ∀ c ∈ linked.contracts,
      c.quoteAgeMs = quoteAgeMs outside.builder linked.exchangeTime c.quoteTimestamp := by
  cases surface with
  | none => exact h
  | some surface =>
    intro linked hlinked c hc
    obtain rfl : surface = linked := Option.some.inj hlinked
    unfold builtSurface at hbuilt
    split at hbuilt
    · cases hbuilt
    · cases hrows : fromProviderRows outside.builder s.pendingOptionRows call.reference
        call.tradingDate call.surfaceId with
      | error err =>
        rw [hrows] at hbuilt
        cases hbuilt
      | ok built =>
        rw [hrows] at hbuilt
        obtain rfl : built = surface := Option.some.inj (Except.ok.inj hbuilt)
        rw [exchangeTime_fromProviderRows hrows]
        exact quoteAgeMs_of_mem hrows hc

/-- What a tick does: it raises or stops before the evaluation, or it goes on from the surface it
keeps. -/
theorem tick_cases (outside : MarketOutside) (config : MarketRuntimeConfig) (s : MarketRuntime)
    (call : TickCall) :
    ((∃ bars, s.tick outside config call = { s with bars := bars }) ∧
        ¬ s.Creates outside config call) ∨
      ∃ bars surface, s.builtSurface outside call = .ok surface ∧
        (s.tick outside config call = { s with bars := bars }.keepSurface surface ∧
            ¬ s.Creates outside config call ∨
          ∃ underlying, s.tick outside config call =
            ({ s with bars := bars }.keepSurface surface).evaluated outside config underlying call ∧
              (s.Creates outside config call ↔
                ¬ (config.hasQualityRepo && call.qualitySaveRaises) = true)) := by
  unfold tick Creates
  cases hbars : s.bars.closeReadyBars outside.tz call.reference with
  | error err => exact .inl ⟨⟨s.bars, rfl⟩, not_false⟩
  | ok closing =>
    obtain ⟨bars, closed⟩ := closing
    have hbuilt : builtSurface outside { s with bars := bars } call = s.builtSurface outside call :=
      rfl
    simp only [hbuilt]
    cases hsurface : s.builtSurface outside call with
    | error err => exact .inl ⟨⟨bars, rfl⟩, not_false⟩
    | ok surface =>
      have hunderlying : ({ s with bars := bars }.keepSurface surface).latestUnderlying =
          s.latestUnderlying := by
        cases surface <;> rfl
      refine .inr ⟨bars, surface, rfl, ?_⟩
      simp only [hunderlying]
      by_cases hsave : (surface.isSome && config.hasSurfaceRepo && call.surfaceSaveRaises) = true
      · exact .inl ⟨if_pos hsave, fun h ↦ h.1 hsave⟩
      · rw [if_neg hsave]
        cases hlatest : s.latestUnderlying with
        | none => exact .inl ⟨rfl, fun h ↦ by simp at h⟩
        | some underlying =>
          by_cases hidle : closed = [] ∧ surface = none
          · exact .inl ⟨if_pos hidle, fun h ↦ h.2.2.1 hidle⟩
          · refine .inr ⟨underlying, if_neg hidle, ?_⟩
            exact ⟨fun h ↦ h.2.2.2, fun h ↦ ⟨hsave, rfl, hidle, h⟩⟩

/-- A report names what the evaluation or an enqueued finding names. -/
theorem namesStale_report {s : MarketRuntime} {underlying : UnderlyingSnapshot} {call : TickCall}
    {contractId : String} :
    NamesStale (s.report outside config underlying call).findings contractId ↔
      NamesStale (evaluateDataQuality outside.quality config.toQualityConfig underlying
        (s.window .m1 config.bars1mWindow) (s.window .m5 config.bars5mWindow) s.latestSurface
        config.symbol call.reference call.reportId).findings contractId ∨
      NamesStale s.pendingQualityFindings contractId := by
  have hmerge : ∀ (report : Market.DataQualityReport) more,
      NamesStale (report.merge more).findings contractId ↔
        NamesStale report.findings contractId ∨ NamesStale more contractId := by
    intro report more
    exact namesStale_append report.findings more contractId
  have hbars : ¬ NamesStale (s.bars.findings.map barFinding) contractId := by
    apply not_namesStale
    intro f hf
    obtain ⟨finding, -, rfl⟩ := List.mem_map.mp hf
    unfold barFinding
    split <;> simp
  have hnone : ¬ NamesStale [] contractId := not_namesStale fun f hf ↦ nomatch hf
  unfold report
  simp only
  by_cases hfindings : s.bars.findings = [] <;> by_cases hpending : s.pendingQualityFindings = []
  · rw [if_pos hfindings, if_pos hpending, hpending]
    simp only [hnone, or_false]
  · rw [if_pos hfindings, if_neg hpending, hmerge]
  · rw [if_neg hfindings, if_pos hpending, hmerge, hpending]
    simp only [hbars, hnone]
  · rw [if_neg hfindings, if_neg hpending, hmerge, hmerge]
    simp only [hbars, or_false]

/-- A tick adds at most one snapshot. Where it does, the report names exactly the contracts that
the condition asks for. -/
theorem created_tick (config : MarketRuntimeConfig) {s : MarketRuntime} (h : Dated outside s)
    (call : TickCall) :
    (¬ s.Creates outside config call ∧ (s.tick outside config call).created = s.created) ∨
      (s.Creates outside config call ∧ ∃ linked,
        (s.tick outside config call).created = s.created ++ [linked] ∧
        linked.surface = s.surfaceToLink outside call ∧
        linked.snapshot.exchangeTime = call.reference ∧
        ∀ surface ∈ linked.surface, ∀ contractId,
          NamesStale linked.report.findings contractId ↔
            (config.minOptionContracts ≤ surface.contracts.length ∧
              ∃ c ∈ surface.contracts, c.contractId = contractId ∧
                OverdueWhenBuilt outside config surface c) ∨
            NamesStale s.pendingQualityFindings contractId) := by
  rcases tick_cases outside config s call with ⟨⟨bars, heq⟩, hnot⟩ |
    ⟨bars, surface, hbuilt, ⟨heq, hnot⟩ | ⟨underlying, heq, hcreates⟩⟩
  · exact .inl ⟨hnot, by rw [heq]⟩
  · refine .inl ⟨hnot, ?_⟩
    rw [heq]
    cases surface <;> rfl
  · have hlink : s.surfaceToLink outside call = surface.or s.latestSurface := by
      unfold surfaceToLink
      rw [hbuilt]
      cases surface <;> rfl
    have hlatest : ({ s with bars := bars }.keepSurface surface).latestSurface =
        surface.or s.latestSurface := latestSurface_keepSurface _ surface
    have hpending : ({ s with bars := bars }.keepSurface surface).pendingQualityFindings =
        s.pendingQualityFindings := by
      cases surface <;> rfl
    have hcreated : ({ s with bars := bars }.keepSurface surface).created = s.created := by
      cases surface <;> rfl
    generalize { s with bars := bars }.keepSurface surface = kept at heq hlatest hpending hcreated
    rw [heq]
    unfold evaluated
    simp only
    by_cases hsave : (config.hasQualityRepo && call.qualitySaveRaises) = true
    · exact .inl ⟨fun hc ↦ hcreates.mp hc hsave, by rw [if_pos hsave]; exact hcreated⟩
    refine .inr ⟨hcreates.mpr hsave, kept.linkedSnapshot outside config underlying call, ?_, ?_,
      rfl, ?_⟩
    · rw [if_neg hsave]
      show kept.created ++ _ = _
      rw [hcreated]
    · rw [hlink, ← hlatest]
      rfl
    · intro linked hlinked contractId
      have hlinked : kept.latestSurface = some linked := hlinked
      show NamesStale (kept.report outside config underlying call).findings contractId ↔ _
      rw [namesStale_report, hpending, hlinked, namesStale_evaluate]
      -- the stored ages are those at the time the surface was built
      have hdated := dated_built h hbuilt linked (hlatest ▸ hlinked)
      have hold : ∀ c ∈ linked.contracts,
          (c.TooOld config.toQualityConfig ↔ OverdueWhenBuilt outside config linked c) := by
        intro c hc
        unfold OptionContractSnapshot.TooOld OverdueWhenBuilt
        rw [hdated c hc]
        rfl
      apply or_congr_left
      apply and_congr_right
      intro _
      constructor
      · rintro ⟨c, hc, hid, htoo⟩
        exact ⟨c, hc, hid, (hold c hc).mp htoo⟩
      · rintro ⟨c, hc, hid, htoo⟩
        exact ⟨c, hc, hid, (hold c hc).mpr htoo⟩

private theorem dated_step (s : MarketRuntime) (call : MarketCall) (h : Dated outside s) :
    Dated outside (s.step outside config call) := by
  cases call with
  | underlying | quote | trade | optionQuotes | qualityFindings => exact h
  | tick call =>
    show Dated outside (s.tick outside config call)
    rcases tick_cases outside config s call with ⟨⟨bars, heq⟩, -⟩ |
      ⟨bars, surface, hbuilt, ⟨heq, -⟩ | ⟨underlying, heq, -⟩⟩ <;> rw [heq]
    · exact h
    · unfold Dated
      rw [latestSurface_keepSurface]
      exact dated_built h hbuilt
    · have hsame : ∀ kept : MarketRuntime,
          (kept.evaluated outside config underlying call).latestSurface = kept.latestSurface := by
        intro kept
        unfold evaluated
        simp only
        split <;> rfl
      unfold Dated
      rw [hsame, latestSurface_keepSurface]
      exact dated_built h hbuilt

/-- The snapshot a call creates is reported exactly when the call meets the condition. -/
theorem created_step (config : MarketRuntimeConfig) {s : MarketRuntime} (h : Dated outside s)
    (call : MarketCall) :
    ((s.step outside config call).created = s.created ∧ Meets outside config s call) ∨
      ∃ linked, (s.step outside config call).created = s.created ++ [linked] ∧
        (Reported config linked ↔ Meets outside config s call) := by
  cases call with
  | underlying | quote | trade | optionQuotes | qualityFindings => exact .inl ⟨rfl, trivial⟩
  | tick call =>
    rcases created_tick config h call with ⟨hnot, heq⟩ |
      ⟨hcreates, linked, heq, hsurface, htime, hnames⟩
    · exact .inl ⟨heq, fun hc ↦ absurd hc hnot⟩
    · refine .inr ⟨linked, heq, ?_⟩
      unfold Reported Meets
      rw [htime, hsurface]
      rw [hsurface] at hnames
      constructor
      · intro hall _ surface hs c hc hdue
        exact (hnames surface hs c.contractId).mp (hall surface hs c hc hdue)
      · intro hmeets surface hs c hc hdue
        exact (hnames surface hs c.contractId).mpr (hmeets hcreates surface hs c hc hdue)

end Reports

end MarketRuntime

/-! ### A surface used twice -/

/-- A zone four hours behind, a builder without float rounding, and rows without prices. -/
def MarketOutside.sample : MarketOutside :=
  { tz := .sample
    builder := .sample
    quality := ⟨id, fun _ ↦ ⟨none, none, none⟩⟩ }

/-- The default settings for surfaces of one contract, without repositories. -/
def MarketRuntimeConfig.sample : MarketRuntimeConfig :=
  { symbol := "SPY"
    underlyingStaleSeconds := ⟨⟨false, 5, 0⟩⟩
    optionStaleSeconds := ⟨⟨false, 10, 0⟩⟩
    maximumRelativeSpread := defaultRelativeSpread
    minOptionContracts := 1
    bars1mWindow := 60
    bars5mWindow := 24
    hasSurfaceRepo := false
    hasQualityRepo := false }

/-- A tick of one morning. -/
def TickCall.sample (minute second : ℕ) (surfaceId reportId : Uuid) : TickCall :=
  { reference := (AwareDatetime.sample minute second).time
    tradingDate := ⟨2026, 7, 1⟩
    surfaceId := surfaceId
    reportId := reportId
    surfaceSaveRaises := false
    qualitySaveRaises := false }

namespace MarketRuntime

instance (config : MarketRuntimeConfig) (linked : LinkedSnapshot) :
    Decidable (Reported config linked) :=
  inferInstanceAs (Decidable (∀ surface ∈ linked.surface, ∀ c ∈ surface.contracts,
    Overdue config linked.snapshot.exchangeTime c →
      NamesStale linked.report.findings c.contractId))

/-- A quote and a trade, a fresh option quote, a tick, and another tick when the minute's bar has
closed. -/
def usedTwice : List MarketCall :=
  [.quote (.sample "q1" (.sample 0 5) (.sample 0 5) 100),
    .trade (.sample "t1" (.sample 0 5) 500 10),
    .optionQuotes [.row (.sample "C500" (AwareDatetime.sample 0 5).time)],
    .tick (.sample 0 6 "surface" "report-1"), .tick (.sample 1 10 "unused" "report-2")]

end MarketRuntime
end Joker.Runtime
