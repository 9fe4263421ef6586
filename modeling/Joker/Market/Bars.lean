import Mathlib.Data.Finset.Insert
import Joker.Base.Runs
import Joker.Base.Datetime
import Joker.Base.DecimalContext
import Joker.Broker.Domain

/-!
# Bars

Library `Market`. `BarBuilder` of `joker/market/bars.py`: observations are sorted into one- and
five-minute bars by their source time, each bar is emitted once when its interval and the late
tolerance have passed, and volume is the rise of the exchange's cumulative volume or else the
size of a trade. All interval arithmetic is on the wall clock of the exchange, since Python
compares, adds to and hashes the timestamps of one zone by their wall clocks.
-/

namespace Joker.Market

open Joker.Base Joker.Broker Joker.Ledger

/-! ### Exchange time -/

/-- `EXCHANGE_TZ`: the wall clock of an aware timestamp after `astimezone`, in microseconds, and
the text of a wall time. -/
structure ExchangeTz where
  wallClock : Datetime → Int
  isoformat : Int → String

/-- A timestamp that passed `_reject_naive`.
Source `joker/market/bars.py:83–86`, `joker/market/observations.py:13–16`,
`joker/market/option_surface.py:142–143, 162–163`. -/
structure AwareDatetime where
  time : Datetime
  aware : time.aware = true
  deriving DecidableEq

/-- The wall clock of a timestamp of an observation. -/
def AwareDatetime.wall (tz : ExchangeTz) (t : AwareDatetime) : Int := tz.wallClock t.time

/-- `_ensure_aware`. Source `joker/market/bars.py:122–125`. -/
def ensureAware (tz : ExchangeTz) (ts : Datetime) : Except PyException Int :=
  if ts.aware then .ok (tz.wallClock ts)
  else .error ⟨"ValueError", "Naive datetimes are not allowed in bar aggregation"⟩

/-- One minute of a wall clock. -/
def oneMinute : Int := 60000000

/-- `ts.minute`. -/
def minuteOf (w : Int) : Int := w / oneMinute % 60

/-- `ts.replace(second=0, microsecond=0)`. -/
def dropSeconds (w : Int) : Int := w - w % oneMinute

/-- `ts.replace(minute=m)`. -/
def replaceMinute (w : Int) (m : Int) : Int := w + (m - minuteOf w) * oneMinute

/-- `BarTimeframe`. Source `joker/market/bars.py:47–59`. -/
inductive BarTimeframe where
  | m1
  | m5
  deriving DecidableEq, Repr

namespace BarTimeframe

/-- The text of the member, as a bar's id shows it. -/
def value : BarTimeframe → String
  | m1 => "1m"
  | m5 => "5m"

/-- `minutes`: the length of an interval in minutes. -/
def minutes : BarTimeframe → Int
  | m1 => 1
  | m5 => 5

/-- The length of an interval. -/
def length (tf : BarTimeframe) : Int := tf.minutes * oneMinute

/-- A timeframe is never empty. -/
theorem length_pos (tf : BarTimeframe) : 0 < tf.length := by
  cases tf <;> decide

end BarTimeframe

/-- The start of the interval of a wall time: `floor_to_interval` after `_ensure_aware`. -/
def floorWall (wall : Int) (tf : BarTimeframe) : Int :=
  let truncated := dropSeconds wall
  let flooredMinute := minuteOf truncated / tf.minutes * tf.minutes
  replaceMinute truncated flooredMinute

/-- `floor_to_interval`. Source `joker/market/bars.py:128–134`. -/
def floorToInterval (tz : ExchangeTz) (ts : AwareDatetime) (tf : BarTimeframe) : Int :=
  floorWall (ts.wall tz) tf

/-- `interval_end`. Source `joker/market/bars.py:137–138`. -/
def intervalEnd (start : Int) (tf : BarTimeframe) : Int := start + tf.length

/-- Flooring drops what is over a whole number of intervals. -/
theorem floorWall_eq (wall : Int) (tf : BarTimeframe) :
    floorWall wall tf = wall - wall % tf.length := by
  unfold floorWall dropSeconds replaceMinute minuteOf BarTimeframe.length oneMinute
  cases tf <;> simp only [BarTimeframe.minutes] <;> omega

/-- Interval starts are aligned. -/
theorem length_dvd_floorWall (wall : Int) (tf : BarTimeframe) :
    tf.length ∣ floorWall wall tf := by
  rw [floorWall_eq]
  exact Int.dvd_self_sub_emod

/-- A wall time is in the aligned interval that starts at its floor, and in no other. -/
theorem floorWall_eq_iff {wall start : Int} {tf : BarTimeframe} (h : tf.length ∣ start) :
    floorWall wall tf = start ↔ start ≤ wall ∧ wall < intervalEnd start tf := by
  obtain ⟨n, rfl⟩ := h
  rw [floorWall_eq]
  unfold intervalEnd BarTimeframe.length oneMinute
  cases tf <;> simp only [BarTimeframe.minutes] <;> omega

/-! ### Bars -/

/-- The quality flags of a bar. -/
inductive QualityFlag where
  | emptyInterval
  | gapBeforeNextInterval
  | includesLateTicks
  | incomplete
  | lateData
  | negativeVolumeIgnored
  | questionableVolume
  deriving DecidableEq, Repr

/-- The text of a flag. -/
def QualityFlag.value : QualityFlag → String
  | .emptyInterval => "empty_interval"
  | .gapBeforeNextInterval => "gap_before_next_interval"
  | .includesLateTicks => "includes_late_ticks"
  | .incomplete => "incomplete"
  | .lateData => "late_data"
  | .negativeVolumeIgnored => "negative_volume_ignored"
  | .questionableVolume => "questionable_volume"

/-- The flags in the order of their texts. -/
def QualityFlag.alphabetical : List QualityFlag :=
  [.emptyInterval, .gapBeforeNextInterval, .includesLateTicks, .incomplete, .lateData,
    .negativeVolumeIgnored, .questionableVolume]

/-- `sorted(flags)`. -/
def sortedFlags (flags : Finset QualityFlag) : List QualityFlag :=
  QualityFlag.alphabetical.filter (fun flag ↦ decide (flag ∈ flags))

/-- The key of a bar: `(symbol, timeframe, start)`. -/
structure BarKey where
  symbol : String
  timeframe : BarTimeframe
  start : Int
  deriving DecidableEq, Repr

/-- `MarketBar`; a negative volume is refused by its type.
Source `joker/market/bars.py:62–93`. -/
structure MarketBar where
  symbol : String
  timeframe : BarTimeframe
  start : Int
  endTime : Int
  openPrice : ℚ
  high : ℚ
  low : ℚ
  close : ℚ
  volume : Nat
  qualityFlags : List QualityFlag
  incomplete : Bool
  lateData : Bool
  observationIds : List Uuid
  deriving DecidableEq

/-- The key of an emitted bar. -/
def MarketBar.key (bar : MarketBar) : BarKey := ⟨bar.symbol, bar.timeframe, bar.start⟩

/-- `_OpenBar`. Source `joker/market/bars.py:142–208`. -/
structure OpenBar where
  symbol : String
  timeframe : BarTimeframe
  start : Int
  endTime : Int
  openPrice : ℚ
  high : ℚ
  low : ℚ
  close : ℚ
  volume : Nat
  lateData : Bool
  incomplete : Bool
  qualityFlags : Finset QualityFlag
  observationIds : List Uuid
  tickCount : Nat
  deriving DecidableEq

namespace OpenBar

/-- `emit_key`. -/
def key (bar : OpenBar) : BarKey := ⟨bar.symbol, bar.timeframe, bar.start⟩

/-- A bar that no observation reached yet. -/
def new (key : BarKey) : OpenBar :=
  { symbol := key.symbol
    timeframe := key.timeframe
    start := key.start
    endTime := intervalEnd key.start key.timeframe
    openPrice := 0
    high := 0
    low := 0
    close := 0
    volume := 0
    lateData := false
    incomplete := false
    qualityFlags := ∅
    observationIds := []
    tickCount := 0 }

/-- `late_data = True` with its flag. -/
def markLate (bar : OpenBar) : OpenBar :=
  { bar with lateData := true, qualityFlags := insert .lateData bar.qualityFlags }

/-- What a newer interval does to an open bar of its symbol and timeframe. -/
def markGap (bar : OpenBar) : OpenBar :=
  { bar with
    incomplete := true
    qualityFlags := insert .gapBeforeNextInterval bar.qualityFlags }

/-- `apply_price`. Source `joker/market/bars.py:158–175`. -/
def applyPrice (bar : OpenBar) (price : ℚ) (observationId : Uuid) (late : Bool) : OpenBar :=
  let bar :=
    if bar.tickCount = 0 then
      { bar with openPrice := price, high := price, low := price, close := price }
    else
      { bar with
        high := if bar.high < price then price else bar.high
        low := if price < bar.low then price else bar.low
        close := price }
  let bar := { bar with
    tickCount := bar.tickCount + 1
    observationIds :=
      if observationId ∈ bar.observationIds then bar.observationIds
      else bar.observationIds ++ [observationId] }
  if late then bar.markLate else bar

/-- `add_volume`. Source `joker/market/bars.py:177–183`. -/
def addVolume (bar : OpenBar) (size : Int) (questionable : Bool) : OpenBar :=
  if size < 0 then
    { bar with qualityFlags := insert .negativeVolumeIgnored bar.qualityFlags }
  else
    { bar with
      volume := bar.volume + size.toNat
      qualityFlags :=
        if questionable then insert .questionableVolume bar.qualityFlags else bar.qualityFlags }

/-- `to_market_bar`. Source `joker/market/bars.py:185–208`. -/
def toMarketBar (bar : OpenBar) (incomplete : Option Bool) : MarketBar :=
  let flags := sortedFlags bar.qualityFlags
  let isIncomplete := incomplete.getD bar.incomplete
  let flags := if isIncomplete ∧ .incomplete ∉ flags then flags ++ [.incomplete] else flags
  let isEmpty := decide (bar.tickCount = 0)
  { symbol := bar.symbol
    timeframe := bar.timeframe
    start := bar.start
    endTime := bar.endTime
    openPrice := bar.openPrice
    high := bar.high
    low := bar.low
    close := bar.close
    volume := bar.volume
    qualityFlags :=
      if isEmpty ∧ .emptyInterval ∉ flags then flags ++ [.emptyInterval] else flags
    incomplete := isIncomplete || isEmpty
    lateData := bar.lateData
    observationIds := bar.observationIds }

/-- The bar that `close_ready_bars` emits. -/
def finished (bar : OpenBar) : MarketBar :=
  let flagged :=
    if bar.lateData then
      { bar with qualityFlags := insert .includesLateTicks bar.qualityFlags }
    else bar
  flagged.toMarketBar (some (decide (bar.tickCount = 0) || bar.incomplete))

end OpenBar

/-! ### Observations -/

/-- What the observations have in common. -/
structure Observed where
  observationId : Uuid
  symbol : String
  sourceTimestamp : AwareDatetime
  receivedTimestamp : AwareDatetime
  cumulativeVolume : Option Int
  deriving DecidableEq

/-- `QuoteObservation`. Source `joker/market/observations.py:19–40`. -/
structure QuoteObservation extends Observed where
  bid : Option ℚ
  ask : Option ℚ
  last : Option ℚ
  deriving DecidableEq

/-- `TradeObservation`. Source `joker/market/observations.py:43–67`. -/
structure TradeObservation extends Observed where
  price : ℚ
  size : Nat
  deriving DecidableEq

/-- `UnderlyingObservation`. Source `joker/market/observations.py:70–90`. -/
structure UnderlyingObservation extends Observed where
  last : Option ℚ
  bid : Option ℚ
  ask : Option ℚ
  deriving DecidableEq

/-- `_quote_price`. Source `joker/market/bars.py:468–481`. -/
def quotePrice (bid ask last : Option ℚ) : Option ℚ :=
  let positive : Option ℚ → Option ℚ := fun x ↦ x.filter (fun p ↦ decide (0 < p))
  let midpoint : Option ℚ :=
    match bid, ask with
    | some bid, some ask =>
      if 0 < bid ∧ 0 < ask ∧ bid ≤ ask then some (contextRounded (contextRounded (bid + ask) / 2))
      else none
    | _, _ => none
  midpoint <|> positive last <|> positive bid <|> positive ask

/-! ### The builder -/

/-- The codes of the findings. -/
inductive FindingCode where
  | cumulativeVolumeRegression
  | droppedAfterClose
  | droppedTooLate
  deriving DecidableEq, Repr

/-- The text of a code. -/
def FindingCode.value : FindingCode → String
  | .cumulativeVolumeRegression => "cumulative_volume_regression"
  | .droppedAfterClose => "dropped_after_close"
  | .droppedTooLate => "dropped_too_late"

/-- `BarIngestFinding`. Source `joker/market/bars.py:97–104`. -/
structure BarIngestFinding where
  code : FindingCode
  symbol : String
  timeframe : Option BarTimeframe
  message : String
  observationId : Option Uuid
  deriving DecidableEq

/-- `BarBuilder`. Source `joker/market/bars.py:212–481`. -/
structure BarBuilder where
  lateToleranceSeconds : Int
  opened : Dict BarKey OpenBar
  emitted : Finset BarKey
  lastCumVol : Dict String Int
  closedBars : List MarketBar
  findings : List BarIngestFinding
  assignedObs : Finset (Uuid × BarTimeframe)
  deriving DecidableEq

/-- The arguments of `_apply_observation`. -/
structure Arrival where
  symbol : String
  observationId : Uuid
  sourceTimestamp : AwareDatetime
  receivedTimestamp : AwareDatetime
  price : Option ℚ
  volume : Int
  deriving DecidableEq

/-- The arguments for an observation, once its price and volume are known. -/
def Observed.arrival (obs : Observed) (price : Option ℚ) (volume : Int) : Arrival :=
  { symbol := obs.symbol
    observationId := obs.observationId
    sourceTimestamp := obs.sourceTimestamp
    receivedTimestamp := obs.receivedTimestamp
    price := price
    volume := volume }

/-- The key of the bar an observation belongs to. -/
def Arrival.key (tz : ExchangeTz) (a : Arrival) (tf : BarTimeframe) : BarKey :=
  ⟨a.symbol, tf, floorToInterval tz a.sourceTimestamp tf⟩

/-- A price, or a late observation without one, reaches a bar. -/
def OpenBar.applyAnyPrice (bar : OpenBar) (price : Option ℚ) (observationId : Uuid)
    (late : Bool) : OpenBar :=
  match price with
  | some price => bar.applyPrice price observationId late
  | none => if late then bar.markLate else bar

/-- What `_apply_observation` does to the bar of an observation. -/
def OpenBar.observe (bar : OpenBar) (a : Arrival) (late : Bool) : OpenBar :=
  let priced := bar.applyAnyPrice a.price a.observationId late
  if 0 < a.volume then priced.addVolume a.volume false else priced

namespace BarBuilder

/-- A builder before its first observation. -/
def new (lateToleranceSeconds : Int) : BarBuilder :=
  { lateToleranceSeconds := lateToleranceSeconds
    opened := Dict.empty
    emitted := ∅
    lastCumVol := Dict.empty
    closedBars := []
    findings := []
    assignedObs := ∅ }

/-- `timedelta(seconds=self.late_tolerance_seconds)`. -/
def tolerance (b : BarBuilder) : Int := b.lateToleranceSeconds * 1000000

/-- `self._findings.append(...)`. -/
def report (b : BarBuilder) (finding : BarIngestFinding) : BarBuilder :=
  { b with findings := b.findings ++ [finding] }

/-- The finding of a cumulative volume below the one before. -/
def regressionFinding (symbol : String) (prev cumulativeVolume : Int) : BarIngestFinding :=
  { code := .cumulativeVolumeRegression
    symbol := symbol
    timeframe := none
    message := "Cumulative volume fell from " ++ toString prev ++ " to " ++
      toString cumulativeVolume
    observationId := none }

/-- `_resolve_volume`. Source `joker/market/bars.py:328–355`. -/
def resolveVolume (b : BarBuilder) (symbol : String) (cumulativeVolume tradeSize : Option Int) :
    BarBuilder × Int :=
  let ofSize := (tradeSize.filter (fun size ↦ decide (0 < size))).getD 0
  match cumulativeVolume with
  | none => (b, ofSize)
  | some cumulative =>
    let remembered := { b with lastCumVol := b.lastCumVol.set symbol cumulative }
    match b.lastCumVol.get? symbol with
    | none => (remembered, ofSize)
    | some prev =>
      if 0 ≤ cumulative - prev then (remembered, cumulative - prev)
      else (remembered.report (regressionFinding symbol prev cumulative), ofSize)

/-- The finding of an observation that belongs to an emitted bar. -/
def afterCloseFinding (a : Arrival) (tf : BarTimeframe) : BarIngestFinding :=
  { code := .droppedAfterClose
    symbol := a.symbol
    timeframe := some tf
    message := "Observation arrived after bar was already emitted"
    observationId := some a.observationId }

/-- The finding of an observation received after the tolerance. -/
def tooLateFinding (tz : ExchangeTz) (b : BarBuilder) (a : Arrival) (tf : BarTimeframe) :
    BarIngestFinding :=
  { code := .droppedTooLate
    symbol := a.symbol
    timeframe := some tf
    message := "Observation received after tolerance (" ++ toString b.lateToleranceSeconds ++
      "s past " ++ tz.isoformat (intervalEnd (a.key tz tf).start tf) ++ ")"
    observationId := some a.observationId }

/-- `_bar_for`: the bar of an observation, opened when it is the first of its interval.
Source `joker/market/bars.py:392–465`. -/
def barFor (tz : ExchangeTz) (b : BarBuilder) (a : Arrival) (tf : BarTimeframe) :
    BarBuilder × Option OpenBar :=
  let key := a.key tz tf
  let endTime := intervalEnd key.start tf
  let received := a.receivedTimestamp.wall tz
  if key ∈ b.emitted then (b.report (afterCloseFinding a tf), none)
  else if endTime + b.tolerance < received then (b.report (tooLateFinding tz b a tf), none)
  else
    let late (bar : OpenBar) : OpenBar := if endTime ≤ received then bar.markLate else bar
    match b.opened.get? key with
    | some existing =>
      ({ b with opened := b.opened.set key (late existing) }, some (late existing))
    | none =>
      -- Earlier open intervals of the symbol and timeframe have a gap behind them.
      let opened := b.opened.mapItems (fun k bar ↦
        if k.symbol = a.symbol ∧ k.timeframe = tf ∧ k.start < key.start then bar.markGap else bar)
      ({ b with opened := opened.set key (late (.new key)) }, some (late (.new key)))

/-- `_apply_observation` for one timeframe. Source `joker/market/bars.py:357–390`. -/
def applyIn (tz : ExchangeTz) (a : Arrival) (b : BarBuilder) (tf : BarTimeframe) : BarBuilder :=
  match b.barFor tz a tf with
  | (b, none) => b
  | (b, some bar) =>
    if (a.observationId, tf) ∈ b.assignedObs then b
    else
      let late := decide (bar.endTime ≤ a.receivedTimestamp.wall tz)
      { b with
        assignedObs := insert (a.observationId, tf) b.assignedObs
        opened := b.opened.set bar.key (bar.observe a late) }

/-- `_apply_observation`. Source `joker/market/bars.py:357–390`. -/
def applyObservation (tz : ExchangeTz) (b : BarBuilder) (a : Arrival) : BarBuilder :=
  if a.price = none ∧ a.volume ≤ 0 then b
  else [BarTimeframe.m1, BarTimeframe.m5].foldl (applyIn tz a) b

/-- What the three ingests share: the volume is resolved first, then the observation applied. -/
def ingest (tz : ExchangeTz) (b : BarBuilder) (obs : Observed) (price : Option ℚ)
    (tradeSize : Option Int) : BarBuilder :=
  let (b, volume) := b.resolveVolume obs.symbol obs.cumulativeVolume tradeSize
  b.applyObservation tz (obs.arrival price volume)

/-- `ingest_quote`. Source `joker/market/bars.py:238–253`. -/
def ingestQuote (tz : ExchangeTz) (b : BarBuilder) (obs : QuoteObservation) : BarBuilder :=
  b.ingest tz obs.toObserved (quotePrice obs.bid obs.ask obs.last) none

/-- `ingest_trade`. Source `joker/market/bars.py:255–269`. -/
def ingestTrade (tz : ExchangeTz) (b : BarBuilder) (obs : TradeObservation) : BarBuilder :=
  b.ingest tz obs.toObserved (some obs.price) (some obs.size)

/-- `ingest_underlying`. Source `joker/market/bars.py:271–286`. -/
def ingestUnderlying (tz : ExchangeTz) (b : BarBuilder) (obs : UnderlyingObservation) :
    BarBuilder :=
  b.ingest tz obs.toObserved (quotePrice obs.bid obs.ask obs.last) none

/-- What the loop of `close_ready_bars` changes: the builder and `ready`. -/
abbrev Closing := BarBuilder × List MarketBar

/-- One turn of the loop of `close_ready_bars`. A bar that is emitted, now or before, leaves the
open bars. -/
def closeOne (reference : Int) (acc : Closing) (entry : BarKey × OpenBar) : Closing :=
  let (b, ready) := acc
  let (key, bar) := entry
  if bar.key ∈ b.emitted then ({ b with opened := b.opened.erase key }, ready)
  else if reference < bar.endTime + b.tolerance then (b, ready)
  else
    ({ b with
        emitted := insert bar.key b.emitted
        closedBars := b.closedBars ++ [bar.finished]
        opened := b.opened.erase key },
      ready ++ [bar.finished])

/-- The order of `ready`: by start, by timeframe, by symbol. -/
def readyBefore (a b : MarketBar) : Bool :=
  decide (a.start < b.start) || (decide (a.start = b.start) &&
    (decide (a.timeframe.value < b.timeframe.value) ||
      (decide (a.timeframe = b.timeframe) && decide (a.symbol ≤ b.symbol))))

/-- `close_ready_bars`; `now` is the argument or what the clock reads.
Source `joker/market/bars.py:288–316`. -/
def closeReadyBars (tz : ExchangeTz) (b : BarBuilder) (now : Datetime) :
    Except PyException (BarBuilder × List MarketBar) :=
  match ensureAware tz now with
  | .error e => .error e
  | .ok reference =>
    let (b, ready) := b.opened.entries.foldl (closeOne reference) (b, [])
    .ok (b, ready.mergeSort readyBefore)

/-- The order of `open_bars`: by start, by timeframe. -/
def openBefore (a b : OpenBar) : Bool :=
  decide (a.start < b.start) ||
    (decide (a.start = b.start) && decide (a.timeframe.value ≤ b.timeframe.value))

/-- `open_bars`. Source `joker/market/bars.py:318–323`. -/
def openBars (b : BarBuilder) : List MarketBar :=
  (b.opened.values.mergeSort openBefore).map (fun bar ↦ bar.toMarketBar (some true))

end BarBuilder

/-- A call of the builder. -/
inductive BarCall where
  | quote (obs : QuoteObservation)
  | trade (obs : TradeObservation)
  | underlying (obs : UnderlyingObservation)
  | closeReadyBars (now : Datetime)
  deriving DecidableEq

/-- What a call brings, unless it closes bars. -/
def BarCall.observed : BarCall → Option Observed
  | .quote obs => some obs.toObserved
  | .trade obs => some obs.toObserved
  | .underlying obs => some obs.toObserved
  | .closeReadyBars _ => none

namespace BarBuilder

/-- One call; a call that raises changes nothing. -/
def call (tz : ExchangeTz) (b : BarBuilder) : BarCall → BarBuilder
  | .quote obs => b.ingestQuote tz obs
  | .trade obs => b.ingestTrade tz obs
  | .underlying obs => b.ingestUnderlying tz obs
  | .closeReadyBars now =>
    match b.closeReadyBars tz now with
    | .ok (b, _) => b
    | .error _ => b

/-- A call that brings an observation ingests it. -/
theorem call_of_observed {c : BarCall} {obs : Observed} (h : c.observed = some obs) :
    ∃ price size, ∀ tz (b : BarBuilder), b.call tz c = b.ingest tz obs price size := by
  cases c with
  | quote q =>
    cases h
    exact ⟨quotePrice q.bid q.ask q.last, none, fun _ _ ↦ rfl⟩
  | trade t =>
    cases h
    exact ⟨some t.price, some t.size, fun _ _ ↦ rfl⟩
  | underlying u =>
    cases h
    exact ⟨quotePrice u.bid u.ask u.last, none, fun _ _ ↦ rfl⟩
  | closeReadyBars now => cases h

/-- The bars of a builder, emitted and open. -/
def bars (b : BarBuilder) : List MarketBar := b.closedBars ++ b.openBars

end BarBuilder

/-- What a bar says of prices and volume. -/
def MarketBar.ohlcv (bar : MarketBar) : BarKey × ℚ × ℚ × ℚ × ℚ × Nat :=
  (bar.key, bar.openPrice, bar.high, bar.low, bar.close, bar.volume)

/-! ### Samples -/

/-- A zone four hours behind. -/
def ExchangeTz.sample : ExchangeTz where
  wallClock t := t.instant - 240 * oneMinute
  isoformat w := toString w

/-- A time of one morning. -/
def AwareDatetime.sample (minute second : Nat) : AwareDatetime :=
  ⟨⟨2026, 7, 1, 10, minute, second, 0, some (-14400)⟩, rfl⟩

/-- The sample zone is four hours behind. -/
theorem AwareDatetime.wall_sample (t : AwareDatetime) :
    t.wall .sample = t.time.instant - 240 * oneMinute := rfl

/-- A quote without prices that carries a cumulative volume. -/
def QuoteObservation.sample (observationId : Uuid) (source received : AwareDatetime)
    (cumulativeVolume : Int) : QuoteObservation :=
  { observationId := observationId
    symbol := "SPY"
    sourceTimestamp := source
    receivedTimestamp := received
    cumulativeVolume := some cumulativeVolume
    bid := none
    ask := none
    last := none }

/-- A trade that is received at once. -/
def TradeObservation.sample (observationId : Uuid) (source : AwareDatetime) (price : ℚ)
    (size : Nat) : TradeObservation :=
  { observationId := observationId
    symbol := "SPY"
    sourceTimestamp := source
    receivedTimestamp := source
    cumulativeVolume := none
    price := price
    size := size }

end Joker.Market
