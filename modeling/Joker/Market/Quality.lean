import Joker.Base.PyFloat
import Joker.Market.Bars
import Joker.Market.OptionSurface

/-!
# Data quality

Library `Market`. `evaluate_data_quality` of `joker/market/quality.py` on what a market tick hands
it: the underlying, the bars and the option surface. Findings are known by their code, severity and
symbol. The age of a surface's row is the one stored in it, so it does not depend on the time of
the evaluation.
-/

namespace Joker.Market

open Joker.Base Joker.Ledger

/-! ### Findings and reports -/

/-- `DataQualitySeverity`. Source `joker/market/quality.py:23–30`. -/
inductive DataQualitySeverity where
  | ok
  | info
  | warning
  | error
  | critical
  deriving DecidableEq, Repr

/-- `_SEVERITY_RANK`. Source `joker/market/quality.py:103–109`. -/
def DataQualitySeverity.rank : DataQualitySeverity → ℕ
  | .ok => 0
  | .info => 1
  | .warning => 2
  | .error => 3
  | .critical => 4

/-- `DataQualityCode`. Source `joker/market/quality.py:33–52`. -/
inductive DataQualityCode where
  | staleUnderlying
  | staleOption
  | crossedMarket
  | lockedMarket
  | missingBid
  | missingAsk
  | negativePrice
  | extremeSpread
  | missingInterval
  | incompleteBar
  | clockSkew
  | duplicateObservation
  | cumulativeVolumeRegression
  | insufficientOptionSurface
  | partialOptionSurface
  | optionSurfaceUnavailable
  | reportUnavailable
  deriving DecidableEq, Repr

/-- `DataQualityFinding`, without its message and details.
Source `joker/market/quality.py:55–64`. -/
structure DataQualityFinding where
  code : DataQualityCode
  severity : DataQualitySeverity
  symbol : Option String
  deriving DecidableEq

/-- `DataQualityReport`. Source `joker/market/quality.py:67–87`. -/
structure DataQualityReport where
  reportId : Uuid
  severity : DataQualitySeverity
  findings : List DataQualityFinding
  usableForReasoning : Bool
  usableForExecution : Bool
  deriving DecidableEq

/-- `DataQualityConfig`. Source `joker/market/quality.py:90–100`. -/
structure DataQualityConfig where
  underlyingMaxAgeSeconds : PyFloat
  optionMaxAgeSeconds : PyFloat
  maxRelativeSpread : PyFloat
  maxClockSkewSeconds : PyFloat
  minOptionContracts : Int

/-- `max_severity`: the first of the highest. Source `joker/market/quality.py:112–115, 118–120`. -/
def maxSeverity : List DataQualityFinding → DataQualitySeverity
  | [] => .ok
  | first :: rest =>
    (rest.foldl (fun best f ↦ if best.severity.rank < f.severity.rank then f else best)
      first).severity

/-! ### Checks -/

/-- The prices of a book. -/
structure BookPrices where
  bid : Option ℚ
  ask : Option ℚ
  last : Option ℚ
  deriving DecidableEq

/-- `UnderlyingSnapshot`, as far as it is checked. Source `joker/market/snapshots.py:25–44`. -/
structure UnderlyingSnapshot where
  symbol : String
  exchangeTime : AwareDatetime
  prices : BookPrices
  cumulativeVolume : Option Int
  deriving DecidableEq

/-- What the checks take from outside: `float` of a `Decimal`, and the prices of a surface's row,
which the row is modelled without. -/
structure QualityInputs where
  float : ℚ → ℚ
  prices : OptionContractSnapshot → BookPrices

/-- The default of `max_relative_spread`, 0.25. -/
def defaultRelativeSpread : PyFloat := ⟨⟨false, 25, -2⟩⟩

/-- `_age_seconds`. Source `joker/market/quality.py:123–126`. -/
def ageSeconds (ts now : Datetime) : ℚ := (now.instant - ts.instant : ℤ) / 1000000

/-- A finding on one side of a book. -/
def bookFinding (code : DataQualityCode) (severity : DataQualitySeverity) (symbol : String) :
    DataQualityFinding :=
  ⟨code, severity, some symbol⟩

/-- `_check_book`. Source `joker/market/quality.py:224–296`. -/
def checkBook (inputs : QualityInputs) (symbol : String) (prices : BookPrices)
    (maxRelativeSpread : PyFloat) : List DataQualityFinding :=
  let missing :=
    (if prices.bid = none then [bookFinding .missingBid .warning symbol] else []) ++
      if prices.ask = none then [bookFinding .missingAsk .warning symbol] else []
  let negative := [prices.bid, prices.ask, prices.last].filterMap (fun price ↦
    if price.any (fun p ↦ p < 0) then some (bookFinding .negativePrice .critical symbol) else none)
  let sides :=
    match prices.bid, prices.ask with
    | some bid, some ask =>
      if ask < bid then [bookFinding .crossedMarket .error symbol]
      else if ask = bid then [bookFinding .lockedMarket .info symbol]
      else
        let mid := contextRounded (contextRounded (bid + ask) / 2)
        let relative := inputs.float (contextRounded (contextRounded (ask - bid) / mid))
        if 0 < mid ∧ maxRelativeSpread.toRat < relative then
          [bookFinding .extremeSpread .warning symbol]
        else []
    | _, _ => []
  missing ++ negative ++ sides

/-- `_check_underlying`. Source `joker/market/quality.py:191–221`. -/
def checkUnderlying (inputs : QualityInputs) (config : DataQualityConfig)
    (underlying : UnderlyingSnapshot) (now : Datetime) : List DataQualityFinding :=
  (if config.underlyingMaxAgeSeconds.toRat < ageSeconds underlying.exchangeTime.time now
    then [bookFinding .staleUnderlying .error underlying.symbol] else []) ++
    checkBook inputs underlying.symbol underlying.prices defaultRelativeSpread

/-- A row whose stored age is over the limit. -/
def OptionContractSnapshot.TooOld (config : DataQualityConfig) (c : OptionContractSnapshot) :
    Prop :=
  config.optionMaxAgeSeconds.toRat < (c.quoteAgeMs : ℚ) / 1000

instance (config : DataQualityConfig) (c : OptionContractSnapshot) : Decidable (c.TooOld config) :=
  inferInstanceAs (Decidable (_ < _))

/-- One turn of the loop of `_check_option_surface`. Source `joker/market/quality.py:366–378`. -/
def checkContract (inputs : QualityInputs) (config : DataQualityConfig)
    (c : OptionContractSnapshot) : List DataQualityFinding :=
  (if c.TooOld config then [bookFinding .staleOption .warning c.contractId] else []) ++
    checkBook inputs c.contractId (inputs.prices c) config.maxRelativeSpread

/-- `_check_option_surface`; a surface with too few contracts is not looked at further.
Source `joker/market/quality.py:329–363`. -/
def checkOptionSurface (inputs : QualityInputs) (config : DataQualityConfig)
    (underlyingSymbol : String) : Option OptionSurfaceSnapshot → List DataQualityFinding
  | none => []
  | some surface =>
    if (surface.contracts.length : Int) < config.minOptionContracts then
      [bookFinding .insufficientOptionSurface .error underlyingSymbol]
    else surface.contracts.flatMap (checkContract inputs config)

/-- The bars of a window that are followed by a gap. -/
def gapFindings : List MarketBar → List DataQualityFinding
  | prev :: cur :: rest =>
    (if prev.endTime < cur.start then [bookFinding .missingInterval .warning cur.symbol] else []) ++
      gapFindings (cur :: rest)
  | _ => []

/-- One turn of the loop of `_check_bars`; gaps are looked for between one-minute bars only.
Source `joker/market/quality.py:381–427`. -/
def checkBars (gaps : Bool) (bars : List MarketBar) : List DataQualityFinding :=
  let ordered := bars.mergeSort (fun a b ↦ decide (a.start ≤ b.start))
  (ordered.filter (fun bar ↦ bar.incomplete)).map (fun bar ↦
    bookFinding .incompleteBar .warning bar.symbol) ++
    if gaps then gapFindings ordered else []

/-- `_check_clock_skew`: the timestamps that are ahead of the time of the evaluation.
Source `joker/market/quality.py:430–469`. -/
def checkClockSkew (config : DataQualityConfig) (timestamps : List (String × Datetime))
    (now : Datetime) : List DataQualityFinding :=
  timestamps.filterMap (fun (symbol, ts) ↦
    if config.maxClockSkewSeconds.toRat < -ageSeconds ts now then
      some (bookFinding .clockSkew .error symbol)
    else none)

/-! ### The evaluation -/

/-- The codes that forbid execution whatever their severity. -/
def forbidsExecution (code : DataQualityCode) : Bool :=
  decide (code ∈ [DataQualityCode.staleUnderlying, .crossedMarket, .negativePrice,
    .insufficientOptionSurface])

/-- `evaluate_data_quality` with an underlying, bars of two timeframes and a surface.
Source `joker/market/quality.py:129–188`. -/
def evaluateDataQuality (inputs : QualityInputs) (config : DataQualityConfig)
    (underlying : UnderlyingSnapshot) (bars1m bars5m : List MarketBar)
    (surface : Option OptionSurfaceSnapshot) (underlyingSymbol : String) (now : Datetime)
    (reportId : Uuid) : DataQualityReport :=
  let timestamps := (underlying.symbol, underlying.exchangeTime.time) ::
    surface.toList.map (fun surface ↦ (underlyingSymbol, surface.exchangeTime))
  let findings := checkUnderlying inputs config underlying now ++
    checkOptionSurface inputs config underlyingSymbol surface ++
    (checkBars true bars1m ++ checkBars false bars5m) ++
    checkClockSkew config timestamps now
  let severity := maxSeverity findings
  { reportId := reportId
    severity := severity
    findings := findings
    usableForReasoning := decide (severity ≠ .critical)
    usableForExecution := decide (severity ≠ .error ∧ severity ≠ .critical) &&
      !findings.any (fun f ↦ forbidsExecution f.code) }

/-- A report with more findings; its flags follow the severity alone. -/
def DataQualityReport.merge (report : DataQualityReport) (more : List DataQualityFinding) :
    DataQualityReport :=
  let findings := report.findings ++ more
  let severity := maxSeverity findings
  { reportId := report.reportId
    severity := severity
    findings := findings
    usableForReasoning := decide (severity ≠ .critical)
    usableForExecution := decide (severity ≠ .error ∧ severity ≠ .critical) }

/-! ### Which checks report a stale option -/

/-- The findings name a contract as stale. -/
def NamesStale (findings : List DataQualityFinding) (contractId : String) : Prop :=
  ∃ f ∈ findings, f.code = .staleOption ∧ f.symbol = some contractId

instance (findings : List DataQualityFinding) (contractId : String) :
    Decidable (NamesStale findings contractId) :=
  inferInstanceAs (Decidable (∃ f ∈ findings, _))

/-- Two lists of findings name a contract when either does. -/
@[simp] theorem namesStale_append (xs ys : List DataQualityFinding) (contractId : String) :
    NamesStale (xs ++ ys) contractId ↔ NamesStale xs contractId ∨ NamesStale ys contractId := by
  simp only [NamesStale, List.mem_append, or_and_right, exists_or]

/-- Findings of other codes name no contract as stale. -/
theorem not_namesStale {findings : List DataQualityFinding} {contractId : String}
    (h : ∀ f ∈ findings, f.code ≠ .staleOption) : ¬ NamesStale findings contractId := by
  rintro ⟨f, hf, hcode, -⟩
  exact h f hf hcode

private theorem code_checkBook {inputs : QualityInputs} {symbol : String} {prices : BookPrices}
    {spread : PyFloat} {f : DataQualityFinding} (h : f ∈ checkBook inputs symbol prices spread) :
    f.code ≠ .staleOption := by
  unfold checkBook at h
  rcases List.mem_append.mp h with h | h
  · rcases List.mem_append.mp h with h | h
    · rcases List.mem_append.mp h with h | h
      all_goals
        split at h
        · rw [List.mem_singleton.mp h]
          simp [bookFinding]
        · cases h
    · obtain ⟨price, -, hprice⟩ := List.mem_filterMap.mp h
      split at hprice
      · rw [← Option.some.inj hprice]
        simp [bookFinding]
      · cases hprice
  · split at h
    · simp only at h
      split at h
      · rw [List.mem_singleton.mp h]
        simp [bookFinding]
      · split at h
        · rw [List.mem_singleton.mp h]
          simp [bookFinding]
        · split at h
          · rw [List.mem_singleton.mp h]
            simp [bookFinding]
          · cases h
    · cases h

private theorem code_checkUnderlying {inputs : QualityInputs} {config : DataQualityConfig}
    {underlying : UnderlyingSnapshot} {now : Datetime} {f : DataQualityFinding}
    (h : f ∈ checkUnderlying inputs config underlying now) : f.code ≠ .staleOption := by
  unfold checkUnderlying at h
  rcases List.mem_append.mp h with h | h
  · split at h
    · rw [List.mem_singleton.mp h]
      simp [bookFinding]
    · cases h
  · exact code_checkBook h

private theorem code_gapFindings {bars : List MarketBar} {f : DataQualityFinding}
    (h : f ∈ gapFindings bars) : f.code ≠ .staleOption := by
  induction bars with
  | nil => cases h
  | cons prev rest ih =>
    cases rest with
    | nil => cases h
    | cons cur rest =>
      rcases List.mem_append.mp h with h | h
      · split at h
        · rw [List.mem_singleton.mp h]
          simp [bookFinding]
        · cases h
      · exact ih h

private theorem code_checkBars {gaps : Bool} {bars : List MarketBar} {f : DataQualityFinding}
    (h : f ∈ checkBars gaps bars) : f.code ≠ .staleOption := by
  unfold checkBars at h
  rcases List.mem_append.mp h with h | h
  · obtain ⟨bar, -, rfl⟩ := List.mem_map.mp h
    simp [bookFinding]
  · split at h
    · exact code_gapFindings h
    · cases h

private theorem code_checkClockSkew {config : DataQualityConfig}
    {timestamps : List (String × Datetime)}
    {now : Datetime} {f : DataQualityFinding} (h : f ∈ checkClockSkew config timestamps now) :
    f.code ≠ .staleOption := by
  obtain ⟨entry, -, hentry⟩ := List.mem_filterMap.mp h
  simp only at hentry
  split at hentry
  · rw [← Option.some.inj hentry]
    simp [bookFinding]
  · cases hentry

/-- A row is named as stale when its stored age is over the limit, or that of another row of its
contract. -/
theorem namesStale_contracts {inputs : QualityInputs} {config : DataQualityConfig}
    {contracts : List OptionContractSnapshot} {contractId : String} :
    NamesStale (contracts.flatMap (checkContract inputs config)) contractId ↔
      ∃ c ∈ contracts, c.contractId = contractId ∧ c.TooOld config := by
  constructor
  · rintro ⟨f, hf, hcode, hsymbol⟩
    obtain ⟨c, hc, hf⟩ := List.mem_flatMap.mp hf
    rcases List.mem_append.mp hf with hf | hf
    · split at hf
      · next hold =>
        rw [List.mem_singleton.mp hf] at hsymbol
        exact ⟨c, hc, Option.some.inj hsymbol, hold⟩
      · cases hf
    · exact absurd hcode (code_checkBook hf)
  · rintro ⟨c, hc, rfl, hold⟩
    refine ⟨bookFinding .staleOption .warning c.contractId, ?_, rfl, rfl⟩
    apply List.mem_flatMap.mpr
    refine ⟨c, hc, List.mem_append_left _ ?_⟩
    rw [if_pos hold]
    exact List.mem_singleton_self _

/-- The report of a surface names the contracts with a row that is too old, if the surface has
enough contracts to be looked at. -/
theorem namesStale_evaluate {inputs : QualityInputs} {config : DataQualityConfig}
    {underlying : UnderlyingSnapshot} {bars1m bars5m : List MarketBar}
    {surface : OptionSurfaceSnapshot} {underlyingSymbol : String} {now : Datetime}
    {reportId : Uuid} {contractId : String} :
    NamesStale (evaluateDataQuality inputs config underlying bars1m bars5m (some surface)
        underlyingSymbol now reportId).findings contractId ↔
      config.minOptionContracts ≤ surface.contracts.length ∧
        ∃ c ∈ surface.contracts, c.contractId = contractId ∧ c.TooOld config := by
  have hunderlying : ¬ NamesStale (checkUnderlying inputs config underlying now) contractId :=
    not_namesStale fun f hf ↦ code_checkUnderlying hf
  have hbars : ∀ gaps bars, ¬ NamesStale (checkBars gaps bars) contractId :=
    fun gaps bars ↦ not_namesStale fun f hf ↦ code_checkBars hf
  have hskew : ∀ timestamps, ¬ NamesStale (checkClockSkew config timestamps now) contractId :=
    fun timestamps ↦ not_namesStale fun f hf ↦ code_checkClockSkew hf
  have hsurface : NamesStale (checkOptionSurface inputs config underlyingSymbol (some surface))
      contractId ↔ config.minOptionContracts ≤ surface.contracts.length ∧
        ∃ c ∈ surface.contracts, c.contractId = contractId ∧ c.TooOld config := by
    unfold checkOptionSurface
    simp only
    split
    · next hfew =>
      have hnone : ¬ NamesStale [bookFinding .insufficientOptionSurface .error underlyingSymbol]
          contractId := not_namesStale fun f hf ↦ by
        rw [List.mem_singleton.mp hf]
        simp [bookFinding]
      exact ⟨fun h ↦ absurd h hnone, fun h ↦ absurd h.1 (not_le.mpr hfew)⟩
    · next hmany =>
      rw [namesStale_contracts]
      exact ⟨fun h ↦ ⟨not_lt.mp hmany, h⟩, fun h ↦ h.2⟩
  unfold evaluateDataQuality
  simp only [namesStale_append, hunderlying, hbars, hskew, hsurface, false_or, or_false]

end Joker.Market
