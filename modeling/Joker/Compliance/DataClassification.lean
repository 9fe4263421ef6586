import Joker.Base.Json
import Joker.Base.Text

/-!
# Data classification

Library `Compliance`. `joker/compliance/data_classification.py`: a market event is classified by
its explicit label, else by its source, its event type and the fields it has.
-/

namespace Joker.Compliance

open Joker.Base

/-- `DataClassification`. Source `joker/compliance/data_classification.py:59–66`. -/
inductive DataClassification where
  | rawOpra
  | derivedOpraPrice
  | nonPriceDecisionMetadata
  | systemMetadata
  | syntheticData
  | stockMarketData
  | unknown
  deriving DecidableEq, Repr

/-- The enumeration's string value. -/
def DataClassification.value : DataClassification → String
  | .rawOpra => "RAW_OPRA"
  | .derivedOpraPrice => "DERIVED_OPRA_PRICE"
  | .nonPriceDecisionMetadata => "NON_PRICE_DECISION_METADATA"
  | .systemMetadata => "SYSTEM_METADATA"
  | .syntheticData => "SYNTHETIC_DATA"
  | .stockMarketData => "STOCK_MARKET_DATA"
  | .unknown => "UNKNOWN"

/-- `DataClassification(text)`. -/
def DataClassification.ofValue (text : String) : Option DataClassification :=
  [.rawOpra, .derivedOpraPrice, .nonPriceDecisionMetadata, .systemMetadata, .syntheticData,
    .stockMarketData, .unknown].find? (fun c ↦ c.value = text)

/-- What the classification and the sanitizer raise.
Source `joker/compliance/opra_sanitizer.py:88–89`. -/
inductive ComplianceError where
  | unhashable
  | conversion
  | noMapping
  | rawOpraViolation
  deriving DecidableEq, Repr

/-! ### Sources -/

/-- `SOURCE_WEBULL_OPRA_SAFE`. Source `joker/compliance/data_classification.py:12`. -/
def sourceWebullOpraSafe : String := "webull_opra_safe"

/-- `_OPRA_SOURCES`. Source `joker/compliance/data_classification.py:18–25`. -/
def opraSources : List String := ["webull_opra", "webull_option", "opra", "us_option"]

/-- `_STOCK_SOURCES`. Source `joker/compliance/data_classification.py:27–33`. -/
def stockSources : List String := ["webull_stock", "mock_stock", "synthetic_stock"]

/-- `_SYNTHETIC_SOURCES`. Source `joker/compliance/data_classification.py:35–45`. -/
def syntheticSources : List String :=
  ["synthetic_option", "synthetic_stock", "mock_option", "mock_stock", "synthetic_replay", "replay",
    "mock"]

/-- `_STOCK_EVENT_TYPES`. Source `joker/compliance/data_classification.py:47`. -/
def stockEventTypes : List String := ["spy_quote", "spy_candle", "market.quote", "market.candle"]

/-- `_OPTION_EVENT_TYPES` of the classification.
Source `joker/compliance/data_classification.py:48–56`. -/
def optionEventTypes : List String :=
  ["option_quote", "option.snapshot", "option.snapshot.safe", "options.snapshots",
    "option_quote_safe"]

/-- `_normalize_source`. Source `joker/compliance/data_classification.py:127–130`. -/
def normalizeSource (source : String) : String := replaceChar '-' '_' (lower source)

/-- `is_opra_source`. Source `joker/compliance/data_classification.py:133–146`. -/
def isOpraSource (source : String) : Bool :=
  let normalized := normalizeSource source
  if normalized = "" then false
  else if normalized ∈ opraSources then true
  else if normalized = "webull" then false
  else if hasText "synthetic" normalized && hasText "option" normalized then false
  else endsWithText "_option" normalized && !hasText "synthetic" normalized &&
    !hasText "mock" normalized

/-! ### Events -/

/-- `obj["contract"]` when it is a `dict`, else no members. -/
def contractOf (obj : Members) : Members := ((obj.get? "contract").bind Json.members?).getD []

/-- `_has_option_markers`; a list or a `dict` is no element of a `frozenset`.
Source `joker/compliance/data_classification.py:158–169`. -/
def hasOptionMarkers (obj : Members) : Except ComplianceError Bool :=
  if obj.truthy "option_type" && obj.present "strike" then .ok true
  else if (contractOf obj).truthy "option_type" then .ok true
  else if obj.truthy "contract_id" && obj.truthy "option_type" then .ok true
  else if ["spread_pct", "greeks_available", "open_interest"].any obj.has then
    if (obj.get? "event_type").all Json.hashable then
      .ok (decide (obj.text "event_type" ∈ optionEventTypes) || obj.truthy "option_type")
    else .error .unhashable
  else .ok false

/-- `_has_derived_option_prices`. Source `joker/compliance/data_classification.py:172–176`. -/
def hasDerivedOptionPrices (obj : Members) : Except ComplianceError Bool :=
  if ["bid", "ask", "mid", "spread_pct", "delta", "gamma", "theta", "vega"].any obj.present then
    hasOptionMarkers obj
  else .ok false

/-- The event or its source is a stock's. -/
def isStockEvent (obj : Members) (source eventType : String) : Except ComplianceError Bool :=
  if eventType ∈ stockEventTypes then .ok true
  else if source ∈ stockSources then (hasOptionMarkers obj).map (!·)
  else .ok false

/-- The branches for an OPRA source or an option event. -/
def classifyOpra (obj : Members) (source eventType : String) :
    Except ComplianceError (Option DataClassification) :=
  if isOpraSource source || decide (eventType ∈ optionEventTypes) then do
    let derived ← hasDerivedOptionPrices obj
    if derived || obj.has "contract" then
      if ["bid", "ask", "mid"].any obj.present then pure (some .rawOpra)
      else pure (some .derivedOpraPrice)
    else if isOpraSource source then pure (some .rawOpra)
    else pure none
  else .ok none

/-- The branch for option prices of the generic source. -/
def isWebullOption (obj : Members) (source : String) : Except ComplianceError Bool :=
  if source = "webull" then do
    if ← hasOptionMarkers obj then hasDerivedOptionPrices obj else pure false
  else .ok false

/-- `classify_market_event`, of a `dict`. A source or an event type that is no text prints as none
of the names. Source `joker/compliance/data_classification.py:179–231`. -/
def classifyMarketEvent (obj : Members) : Except ComplianceError DataClassification :=
  let source := normalizeSource (obj.text "source")
  let eventType := obj.text "event_type"
  if obj.truthy "data_classification" then
    .ok ((DataClassification.ofValue (obj.text "data_classification")).getD .unknown)
  else if (obj.get? "is_synthetic").any Json.isTrue then .ok .syntheticData
  else if source ∈ syntheticSources || startsWithText "synthetic" source then .ok .syntheticData
  else if source ∈ ["mock_option", "mock_stock"] || startsWithText "mock_" source then
    .ok .syntheticData
  else if source = sourceWebullOpraSafe then .ok .nonPriceDecisionMetadata
  else if ["spread_check", "freshness_check", "contract_quality", "max_premium_check"].any
      (fun k ↦ obj.text k ∈ ["PASS", "FAIL"]) then .ok .nonPriceDecisionMetadata
  else do
    if ← isStockEvent obj source eventType then pure .stockMarketData
    else match ← classifyOpra obj source eventType with
      | some classification => pure classification
      | none =>
        if ← isWebullOption obj source then pure .rawOpra
        else if eventType ∈ stockEventTypes then pure .stockMarketData
        else pure .unknown

end Joker.Compliance
