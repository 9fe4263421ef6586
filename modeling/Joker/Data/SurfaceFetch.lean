import Mathlib.Data.List.Sort
import Joker.Base.Dict
import Joker.Base.Slices
import Joker.Base.Runs
import Joker.Base.Text
import Joker.Broker.Domain
import Joker.Market.Quality

/-!
# Surface fetch

Library `Data`. `fetch_surface_snapshots` of `joker/data/webull_options_provider.py` and the
findings of its result. What the cache, the rate limiter and the market-data API answer is an
input, batch by batch; the comparison of strikes by their distance from the price is Python's on
floats, of any type here. The snapshot cache, which the fetch only writes, is left out.
-/

namespace Joker.Data

open Joker.Base Joker.Broker
open Joker.Market (DataQualityCode DataQualitySeverity)

/-- `ALLOWED_SYMBOL`. Source `joker/data/webull_options_provider.py:33`. -/
def allowedSymbol : String := "SPY"

/-- `OptionContractMetadata`, over a type of floats.
Source `joker/schemas/options_data.py:42–49`. -/
structure OptionContractMetadata (F : Type) where
  underlyingSymbol : String
  expiration : Date
  strike : F
  optionType : OptionType
  contractId : Option String

/-- `OptionSnapshot`; its quote is not read by the fetch.
Source `joker/schemas/options_data.py:52–75`. -/
structure OptionSnapshot (F Q : Type) where
  contract : OptionContractMetadata F
  quote : Q

/-- `SurfaceFetchResult`. Source `joker/data/webull_options_provider.py:49–111`. -/
structure SurfaceFetchResult (F Q : Type) where
  snapshots : List (OptionSnapshot F Q)
  discoveredCount : ℕ
  selectedCount : ℕ
  fetchedCount : ℕ
  failedBatches : List String
  emergencyTruncated : Bool
  complete : Bool
  tradingDate : Date

/-- What a fetch meets: the comparison of floats, the clock, the contract cache, the rate limiter
and the API. The batches are known by their starts. -/
structure OptionsDataProvider (F Q : Type) where
  /-- `abs(a - b)` and `a < b`. -/
  absDiff : F → F → F
  less : F → F → Bool
  marketToday : Date
  cachedContracts : Option (List (OptionContractMetadata F))
  discoveryAcquired : Except PyException Unit
  findOptionContracts : Except PyException (List (OptionContractMetadata F))
  /-- `discover_osi_candidates`. -/
  osiCandidates : Except PyException (List (OptionContractMetadata F))
  acquired : ℕ → Except PyException Unit
  getOptionSnapshots : ℕ → Except PyException (List (OptionSnapshot F Q))

variable {F Q : Type}

namespace OptionContractMetadata

/-- `(contract.underlying_symbol or ALLOWED_SYMBOL).upper()`. -/
def symbol (contract : OptionContractMetadata F) : String :=
  upper (if contract.underlyingSymbol = "" then allowedSymbol else contract.underlyingSymbol)

/-- `contract.contract_id or ""`. -/
def key (contract : OptionContractMetadata F) : String := contract.contractId.getD ""

/-- A SPY contract of the date. -/
def isOf (exp : Date) (contract : OptionContractMetadata F) : Bool :=
  decide (contract.symbol = allowedSymbol) && decide (contract.expiration = exp)

/-- A contract that a fetch selects. -/
def eligible (exp : Date) (contract : OptionContractMetadata F) : Bool :=
  contract.isOf exp && decide (contract.key ≠ "")

end OptionContractMetadata

/-- The id of a snapshot's contract. -/
def OptionSnapshot.key (snap : OptionSnapshot F Q) : String := snap.contract.key

/-! ### One batch -/

/-- What the loop over a batch's snapshots has collected. -/
structure Returned (F Q : Type) where
  valid : Dict String (OptionSnapshot F Q)
  failed : List String
  complete : Bool

/-- What the loop over the batches has collected. -/
structure FetchState (F Q : Type) where
  snapshots : List (OptionSnapshot F Q)
  seenIds : List String
  failed : List String
  complete : Bool

/-- `batch[start:end]: `. -/
def batchLabel (start size : ℕ) : String :=
  "batch[" ++ toString start ++ ":" ++ toString (start + size) ++ "]: "

/-- What is wrong with a snapshot of a batch, if something is. -/
def snapshotFailure (exp : Date) (seenIds : List String)
    (valid : Dict String (OptionSnapshot F Q)) (snap : OptionSnapshot F Q) : Option String :=
  if snap.contract.symbol ≠ allowedSymbol then some ("wrong_symbol=" ++ snap.contract.symbol)
  else if snap.contract.expiration ≠ exp then
    some ("wrong_expiry=" ++ snap.contract.expiration.isoformat)
  else if snap.key = "" then some "missing_contract_id"
  else if (valid.get? snap.key).isSome ∨ snap.key ∈ seenIds then
    some ("duplicate_contract_id=" ++ snap.key)
  else none

/-- One turn of the loop over a batch's snapshots. -/
def receive (exp : Date) (label : String) (seenIds : List String) (returned : Returned F Q)
    (snap : OptionSnapshot F Q) : Returned F Q :=
  match snapshotFailure exp seenIds returned.valid snap with
  | some failure =>
    { returned with failed := returned.failed ++ [label ++ failure], complete := false }
  | none => { returned with valid := returned.valid.set snap.key snap }

/-- `missing_ids=` with the first eight of them. -/
def missingText (missing : List String) : String :=
  "missing_ids=" ++ ",".intercalate (missing.take 8) ++ if 8 < missing.length then "..." else ""

/-- One turn of the loop over the batches. -/
def fetchBatch (provider : OptionsDataProvider F Q) (exp : Date) (size : ℕ)
    (selected : List (OptionContractMetadata F)) (state : FetchState F Q) (start : ℕ) :
    FetchState F Q :=
  let batch := slice size selected start
  let label := batchLabel start batch.length
  match (do provider.acquired start; provider.getOptionSnapshots start) with
  | .error e =>
    { state with
      failed := state.failed ++ [label ++ e.typeName ++ ": " ++ e.text]
      complete := false }
  | .ok snaps =>
    let returned := snaps.foldl (receive exp label state.seenIds)
      ⟨Dict.empty, state.failed, state.complete⟩
    let missing := (batch.map OptionContractMetadata.key).filter
      (fun id ↦ (returned.valid.get? id).isNone)
    { snapshots := state.snapshots ++ returned.valid.values
      seenIds := state.seenIds ++ returned.valid.keys
      failed := if missing = [] then returned.failed
        else returned.failed ++ [label ++ missingText missing]
      complete := returned.complete && decide (missing = []) }

/-! ### The fetch -/

namespace OptionsDataProvider

variable (provider : OptionsDataProvider F Q)

/-- `discover_contracts` for SPY. Source `joker/data/webull_options_provider.py:167–183`. -/
def discoverContracts : Except PyException (List (OptionContractMetadata F)) :=
  match provider.cachedContracts with
  | some contracts => .ok contracts
  | none => do
    provider.discoveryAcquired
    provider.findOptionContracts

/-- The contracts of a fetch, by the fallback where the endpoint is unverified.
Source `joker/data/webull_options_provider.py:185–193`. -/
def discovered (allowOsiFallback : Bool) :
    Except PyException (List (OptionContractMetadata F)) :=
  match provider.discoverContracts with
  | .ok contracts => .ok contracts
  | .error e =>
    if e.typeName = "OptionEndpointUnverified" ∧ allowOsiFallback = true then
      provider.osiCandidates
    else .error e

/-- `sorted(…, key=lambda c: abs(c.strike - underlying_price))`. -/
def byDistance (underlyingPrice : F) (contracts : List (OptionContractMetadata F)) :
    List (OptionContractMetadata F) :=
  contracts.insertionSort (fun a b ↦
    provider.less (provider.absDiff b.strike underlyingPrice)
      (provider.absDiff a.strike underlyingPrice) = false)

/-- The contracts to fetch, before the emergency limit. -/
def selection (underlyingPrice : F) (exp : Date) (contracts : List (OptionContractMetadata F)) :
    List (OptionContractMetadata F) :=
  provider.byDistance underlyingPrice (contracts.filter (·.eligible exp))

end OptionsDataProvider

/-- The emergency limit, where it cuts something off. -/
def emergencyLimit (maxContracts : Option ℤ) (count : ℕ) : Option ℤ :=
  maxContracts.filter (fun limit ↦ 0 < limit ∧ limit < count)

/-- The part of `fetch_surface_snapshots` from the first batch on. -/
def fetchSelected (provider : OptionsDataProvider F Q) (exp : Date) (batchSize : ℤ)
    (discoveredCount : ℕ) (selected : List (OptionContractMetadata F)) (failed : List String)
    (truncated : Bool) : SurfaceFetchResult F Q :=
  let size := (max 1 batchSize).toNat
  let fetched := run (fetchBatch provider exp size selected) ⟨[], [], failed, !truncated⟩
    (sliceStarts size selected.length)
  let short := decide (fetched.snapshots.length ≠ selected.length)
  let failedBatches := if short then
      fetched.failed ++ ["fetched_count=" ++ toString fetched.snapshots.length ++
        " != selected_count=" ++ toString selected.length]
    else fetched.failed
  { snapshots := fetched.snapshots
    discoveredCount := discoveredCount
    selectedCount := selected.length
    fetchedCount := fetched.snapshots.length
    failedBatches := failedBatches.eraseDups
    emergencyTruncated := truncated
    complete := fetched.complete && decide (fetched.failed = []) && !short
    tradingDate := exp }

/-- `fetch_surface_snapshots`. Source `joker/data/webull_options_provider.py:274–408`. -/
def fetchSurfaceSnapshots (provider : OptionsDataProvider F Q) (underlyingPrice : F)
    (expiration tradingDate : Option Date) (maxContracts : Option ℤ) (allowOsiFallback : Bool)
    (batchSize : ℤ) : Except PyException (SurfaceFetchResult F Q) := do
  let exp := (tradingDate.or expiration).getD provider.marketToday
  let contracts ← provider.discovered allowOsiFallback
  let all := provider.selection underlyingPrice exp contracts
  let limit := emergencyLimit maxContracts all.length
  let selected := match limit with
    | some limit => all.take limit.toNat
    | none => all
  let failed := match limit with
    | some limit => ["emergency_max_contracts=" ++ toString limit ++ " truncated surface"]
    | none => []
  if selected = [] then
    let reason := if contracts = [] then "zero_contracts_discovered"
      else "zero_eligible_spy_0dte_contracts"
    pure ⟨[], contracts.length, 0, 0, failed ++ [reason], limit.isSome, false, exp⟩
  else
    pure (fetchSelected provider exp batchSize contracts.length selected failed limit.isSome)

/-! ### Findings -/

/-- A value of a finding's details. -/
inductive DetailValue where
  | int (value : ℕ)
  | bool (value : Bool)
  | text (value : String)
  deriving DecidableEq, Repr

/-- A finding of a fetch, with its message and its details. -/
structure FetchFinding where
  code : DataQualityCode
  severity : DataQualitySeverity
  message : String
  symbol : String
  details : List (String × DetailValue)
  deriving DecidableEq

namespace SurfaceFetchResult

variable (result : SurfaceFetchResult F Q)

/-- Nothing was there to fetch, or nothing was fetched. -/
def unavailable : Bool :=
  decide (result.selectedCount = 0) || decide (result.fetchedCount = 0) ||
    result.failedBatches.any (fun batch ↦
      hasText "zero_" batch || hasText "unavailable" (lower batch))

/-- `to_data_quality_findings`. Source `joker/data/webull_options_provider.py:61–111`. -/
def toDataQualityFindings : List FetchFinding :=
  if result.failedBatches ≠ [] ∨ result.emergencyTruncated = true ∨ result.complete = false then
    let details := [("discovered_count", .int result.discoveredCount),
      ("selected_count", .int result.selectedCount),
      ("fetched_count", .int result.fetchedCount),
      ("emergency_truncated", .bool result.emergencyTruncated),
      ("failed_batch_count", .int result.failedBatches.length)]
    let failures := if result.failedBatches = [] then []
      else [("failed_batches", DetailValue.text
        (String.ofList (("; ".intercalate result.failedBatches).toList.take 500)))]
    [{ code := if result.unavailable then .optionSurfaceUnavailable else .partialOptionSurface
       severity := .error
       message := if result.unavailable then
           "option surface unavailable; zero eligible SPY 0DTE contracts were discovered or " ++
             "returned for the exchange trading date"
         else
           "option surface fetch incomplete; partial surface must not be treated as the full " ++
             "SPY 0DTE chain"
       symbol := allowedSymbol
       details := details ++ failures }]
  else []

end SurfaceFetchResult

end Joker.Data
