import Mathlib.Algebra.Order.Ring.Unbundled.Rat
import Joker.Base.Checks
import Joker.Compliance.DataClassification

/-!
# OPRA sanitizer

Library `Compliance`. `joker/compliance/opra_sanitizer.py`: a detector of raw OPRA values in a JSON
payload, and a cleaner that strips or replaces the dicts which hold them. Both walk the payload
with an OPRA context that they hand down.
-/

namespace Joker.Compliance

open Joker.Base

/-- `OPRA_VALUE_FIELDS`. Source `joker/compliance/opra_sanitizer.py:19–55`. -/
def opraValueFields : List String :=
  ["bid", "ask", "mid", "last", "spread_pct", "volume", "open_interest", "implied_volatility",
    "imp_vol", "iv", "delta", "gamma", "theta", "vega", "quote_timestamp", "entry_limit_price",
    "entry_price", "exit_price", "simulated_entry", "simulated_exit", "simulated_pnl",
    "stop_price", "take_profit_price", "latest_option_mid", "call_bid", "call_ask", "call_mid",
    "call_spread_pct", "put_bid", "put_ask", "put_mid", "put_spread_pct",
    "option_quote_timestamp"]

/-- `OPRA_IDENTIFIER_FIELDS`. Source `joker/compliance/opra_sanitizer.py:57–67`. -/
def opraIdentifierFields : List String :=
  ["contract_id", "instrument_id", "osi_symbol", "call_id", "put_id", "selected_call_contract",
    "selected_put_contract"]

/-- `OPTION_EVENT_TYPES` of the sanitizer. Source `joker/compliance/opra_sanitizer.py:69–78`. -/
def sanitizerEventTypes : List String :=
  ["option.snapshot", "option_quote", "options.snapshots", "exit.shadow", "option_quote_safe",
    "option.snapshot.safe"]

/-- The marks of a synthetic source. -/
def syntheticTokens : List String :=
  ["synthetic", "mock_option", "mock_stock", "synthetic_option", "synthetic_stock",
    "synthetic_replay"]

/-- A text has one of the marks. -/
def hasToken (text : String) : Bool := syntheticTokens.any (fun token ↦ hasText token (lower text))

/-- A mark occurs in `str(obj.get("source", ""))`. What a list or a `dict` prints between its texts
is no letter of a mark, so the mark occurs in one of the texts. -/
def hasSyntheticMark (obj : Members) : Bool := (obj.get? "source").any (Json.hasSome hasToken)

/-! ### Contexts -/

/-- `_is_synthetic_obj`. Source `joker/compliance/opra_sanitizer.py:92–113`. -/
def isSyntheticObj (obj : Members) : Except ComplianceError Bool :=
  if (obj.get? "is_synthetic").any Json.isTrue then .ok true
  else do
    let classification ← classifyMarketEvent obj
    if classification = .syntheticData then pure true
    else if hasSyntheticMark obj then pure true
    else pure (decide (lower (obj.text "source") ∈ ["replay", "mock"] ∧ classification ≠ .rawOpra))

/-- The last branches of `_in_opra_context`, for a `dict` whose class decides nothing and whose
parent is outside. -/
def hasOpraShape (obj : Members) : Bool :=
  let source := obj.text "source"
  let eventType := obj.text "event_type"
  if isOpraSource source then true
  else if eventType ∈ sanitizerEventTypes then true
  else if obj.truthy "option_type" && obj.present "strike" &&
      ["bid", "ask", "mid", "spread_pct"].any obj.present then
    isOpraSource source || decide (eventType ∈ sanitizerEventTypes)
  else if (contractOf obj).truthy "option_type" && ["bid", "ask", "mid"].any obj.has then
    isOpraSource source || isOpraSource ((contractOf obj).text "source")
  else false

/-- `_in_opra_context`. Source `joker/compliance/opra_sanitizer.py:116–149`. -/
def inOpraContext (obj : Members) (parentOpra : Bool) : Except ComplianceError Bool :=
  if parentOpra then .ok true
  else do
    if ← isSyntheticObj obj then pure false
    else match ← classifyMarketEvent obj with
      | .rawOpra | .derivedOpraPrice => pure true
      | .stockMarketData | .nonPriceDecisionMetadata => pure false
      | .systemMetadata | .syntheticData | .unknown => pure (hasOpraShape obj)

/-! ### The detector -/

/-- The `dict` has a value in an OPRA value field. -/
def hasOpraValue (obj : Members) : Bool :=
  obj.any (fun m ↦ decide (m.1 ∈ opraValueFields) && m.2.present)

mutual

/-- `_contains_raw_opra_values`. Source `joker/compliance/opra_sanitizer.py:152–166`. -/
def containsRawOpraValues (opraContext : Bool) : Json → Except ComplianceError Bool
  | .obj obj => do
    if ← isSyntheticObj obj then pure false
    else do
      let opraCtx ← inOpraContext obj opraContext
      if opraCtx && hasOpraValue obj then pure true else memberContains opraCtx obj
  | .arr items => itemContains opraContext items
  | .null | .bool _ | .num _ | .str _ => .ok false

/-- Some item of a list has raw values. -/
def itemContains (opraContext : Bool) : List Json → Except ComplianceError Bool
  | [] => .ok false
  | item :: rest => do
    if ← containsRawOpraValues opraContext item then pure true else itemContains opraContext rest

/-- Some member of a `dict` has raw values. -/
def memberContains (opraContext : Bool) : List (String × Json) → Except ComplianceError Bool
  | [] => .ok false
  | (_, value) :: rest => do
    if ← containsRawOpraValues opraContext value then pure true else memberContains opraContext rest

end

/-- `assert_no_raw_opra`. Source `joker/compliance/opra_sanitizer.py:169–171`. -/
def assertNoRawOpra (obj : Json) : Except ComplianceError Unit := do
  if ← containsRawOpraValues false obj then .error .rawOpraViolation else pure ()

/-! ### Safe metadata -/

/-- What `_moneyness_bucket` prints. -/
inductive Bucket where
  | unknown
  | atm
  | itm
  | otm
  deriving DecidableEq, Repr

/-- The printed text. -/
def Bucket.value : Bucket → String
  | .unknown => "UNKNOWN"
  | .atm => "ATM"
  | .itm => "ITM"
  | .otm => "OTM"

/-- The float arithmetic of `_moneyness_bucket`: whether `float(strike)` raises, and the bucket of
a strike, an underlying price and an option type; the subtraction may raise. -/
structure Moneyness where
  reads : Json → Bool
  bucket : Json → Json → String → Option Bucket

/-- `_pass_fail`. Source `joker/compliance/opra_sanitizer.py:181–182`. -/
def passFail (value : Bool) : Json := .str (if value then "PASS" else "FAIL")

/-- `_contract_role`. Source `joker/compliance/opra_sanitizer.py:185–190`. -/
def contractRole : Option String → Json
  | some "call" => .str "ATM_CALL"
  | some "put" => .str "ATM_PUT"
  | _ => .null

/-- `long_call` or `long_put`. -/
def selectedDirection : Option String → Json
  | some "call" => .str "long_call"
  | some "put" => .str "long_put"
  | _ => .null

/-- The text under a key, when the value is one. -/
def text? (obj : Members) (key : String) : Option String := (obj.get? key).bind Json.text?

/-- `_moneyness_bucket(float(strike), underlying, str(option_type))`, of what is there.
Source `joker/compliance/opra_sanitizer.py:193–201`. -/
def moneynessBucket (m : Moneyness) (contract : Members) (underlying : Option Json) :
    Except ComplianceError Bucket :=
  match (contract.get? "strike").filter Json.present with
  | none => .ok .unknown
  | some strike =>
    if m.reads strike = false then .error .conversion
    else match underlying.filter Json.present with
      | none => .ok .unknown
      | some underlying =>
        if contract.truthy "option_type" then
          orRaise (m.bucket strike underlying (contract.text "option_type")) .conversion
        else .ok .unknown

/-- `contract_safe_metadata`; a JSON expiration is no `date`.
Source `joker/compliance/opra_sanitizer.py:204–230`. -/
def contractSafeMetadata (m : Moneyness) (contract : Members) (underlying : Option Json) :
    Except ComplianceError Members :=
  if contract.isEmpty then .ok [("contract_selected", .bool false)]
  else do
    let bucket ← moneynessBucket m contract underlying
    pure
      [("contract_role", contractRole (text? contract "option_type")),
        ("selected_direction", selectedDirection (text? contract "option_type")),
        ("expiration_type", .str "0DTE"),
        ("moneyness_bucket", .str bucket.value),
        ("contract_selected", .bool true)]

/-- `float(spread) <= 15.0`, of a number; an `int` may be too large for a `float`. -/
def spreadWithin : Json → Except ComplianceError Bool
  | .num value =>
    if value.den = 1 ∧ (2 ^ 1024 - 2 ^ 970 : ℚ) ≤ max value (-value) then .error .conversion
    else .ok (decide (value ≤ 15))
  | _ => .ok true

/-- `spread_ok` of `snapshot_to_safe_metadata`. Source `joker/compliance/opra_sanitizer.py:246`. -/
def spreadOk (data : Members) : Except ComplianceError Bool :=
  if data.truthy "bid" && data.truthy "ask" then
    match data.get? "spread_pct" with
    | none => .ok true
    | some spread => spreadWithin spread
  else .ok false

/-- `data.get("field_availability") or {}`, which must be a `dict`. -/
def fieldAvailability (data : Members) : Except ComplianceError Members :=
  if data.truthy "field_availability" then
    orRaise ((data.get? "field_availability").bind Json.members?) .noMapping
  else .ok []

/-- `snapshot_to_safe_metadata`, of a `dict`.
Source `joker/compliance/opra_sanitizer.py:233–269`. -/
def snapshotToSafeMetadata (m : Moneyness) (data : Members) : Except ComplianceError Members := do
  let spread ← spreadOk data
  let contract ← contractSafeMetadata m (contractOf data) (data.get? "underlying_price")
  let avail ← fieldAvailability data
  pure
    ([("data_classification", .str DataClassification.nonPriceDecisionMetadata.value),
      ("source", .str sourceWebullOpraSafe)] ++ contract ++
     [("spread_check", passFail spread),
      ("freshness_check", passFail (data.truthy "quote_timestamp")),
      ("bid_ask_available", .bool (data.present "bid" && data.present "ask")),
      ("greeks_available", .bool (["delta", "gamma", "theta", "vega"].any avail.truthy)),
      ("iv_available", .bool (avail.truthy "implied_volatility")),
      ("open_interest_available", .bool (avail.truthy "open_interest")),
      ("volume_available", .bool (avail.truthy "volume")),
      ("contract_quality", passFail (spread && data.truthy "quote_timestamp"))])

/-- What the cleaner puts in place of an option quote. -/
def safeQuote (obj : Members) : Members :=
  [("event_type", .str "option_quote_safe"),
    ("data_classification", .str DataClassification.nonPriceDecisionMetadata.value),
    ("source", .str sourceWebullOpraSafe),
    ("contract_role", contractRole (text? obj "option_type")),
    ("selected_direction", selectedDirection (text? obj "option_type")),
    ("expiration_type", .str "0DTE"),
    ("spread_check", passFail (obj.present "spread_pct")),
    ("freshness_check", passFail (obj.truthy "quote_timestamp")),
    ("bid_ask_available", .bool (obj.truthy "bid" && obj.truthy "ask")),
    ("contract_selected", .bool true)]

/-! ### The cleaner -/

/-- What `_sanitize_node` does with a `dict`: hand it back, as synthetic or as stock data, replace
it, or rebuild it in a context. -/
inductive Treatment where
  | synthetic
  | stock
  | snapshot
  | quote
  | rebuild (opraCtx : Bool)
  deriving DecidableEq, Repr

/-- The branches of `_sanitize_node`. -/
def treatment (opraContext : Bool) (obj : Members) : Except ComplianceError Treatment := do
  if ← isSyntheticObj obj then pure .synthetic
  else do
    let classification ← classifyMarketEvent obj
    if classification = .stockMarketData then pure .stock
    else do
      let opraCtx ← inOpraContext obj opraContext
      if opraCtx && obj.has "contract" && ["bid", "ask", "mid"].any obj.has then pure .snapshot
      else if opraCtx && decide (obj.text "event_type" = "option_quote") then pure .quote
      else pure (.rebuild opraCtx)

/-- A rebuilt `dict` keeps a key. -/
def keeps (opraCtx : Bool) (key : String) : Bool :=
  !(opraCtx && (decide (key ∈ opraValueFields) || decide (key ∈ opraIdentifierFields)))

/-- The labels of a `dict` that was rebuilt in OPRA context. -/
def label (opraCtx : Bool) (cleaned : Members) : Members :=
  if opraCtx then
    (cleaned.setDefault "data_classification"
      (.str DataClassification.nonPriceDecisionMetadata.value)).set "opra_sanitized" (.bool true)
  else cleaned

mutual

/-- `_sanitize_node`. Source `joker/compliance/opra_sanitizer.py:314–354`. -/
def sanitizeNode (m : Moneyness) (opraContext : Bool) : Json → Except ComplianceError Json
  | .obj obj => do
    match ← treatment opraContext obj with
    | .synthetic | .stock => pure (.obj obj)
    | .snapshot => do
      let safe ← snapshotToSafeMetadata m obj
      pure (.obj safe)
    | .quote => pure (.obj (safeQuote obj))
    | .rebuild opraCtx => do
      let cleaned ← sanitizeMembers m opraCtx obj
      pure (.obj (label opraCtx cleaned))
  | .arr items => do
    let cleaned ← sanitizeItems m opraContext items
    pure (.arr cleaned)
  | .null => .ok .null
  | .bool b => .ok (.bool b)
  | .num value => .ok (.num value)
  | .str text => .ok (.str text)

/-- The items of a list. -/
def sanitizeItems (m : Moneyness) (opraContext : Bool) :
    List Json → Except ComplianceError (List Json)
  | [] => .ok []
  | item :: rest => do
    let cleaned ← sanitizeNode m opraContext item
    let others ← sanitizeItems m opraContext rest
    pure (cleaned :: others)

/-- The members that a rebuilt `dict` keeps. -/
def sanitizeMembers (m : Moneyness) (opraCtx : Bool) :
    List (String × Json) → Except ComplianceError (List (String × Json))
  | [] => .ok []
  | (key, value) :: rest =>
    if keeps opraCtx key then do
      let cleaned ← sanitizeNode m opraCtx value
      let others ← sanitizeMembers m opraCtx rest
      pure ((key, cleaned) :: others)
    else sanitizeMembers m opraCtx rest

end

/-- `sanitize_for_persistence`; the warning is left out.
Source `joker/compliance/opra_sanitizer.py:357–363`. -/
def sanitizeForPersistence (m : Moneyness) (obj : Json) : Except ComplianceError Json := do
  let _hadRaw ← containsRawOpraValues false obj
  let sanitized ← sanitizeNode m false obj
  assertNoRawOpra sanitized
  pure sanitized

end Joker.Compliance
