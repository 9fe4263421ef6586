import Joker.Data.OptionsRateLimit
import Joker.Data.SurfaceFetch

/-!
# Options data provider

Library `Data`. The state of `WebullOptionsDataProvider` of
`joker/data/webull_options_provider.py`: its contract cache, its snapshot cache and its rate
limiter, and the three calls that share them. The n-th reading of `time.monotonic()` is the n-th
value of a clock; a lookup that finds nothing takes a reading too, which nothing depends on. What
the market-data API answers is an input of a call.
-/

namespace Joker.Data

open Joker.Base Joker.Broker

variable {F Q : Type}

/-- The provider's settings. -/
structure ProviderSettings where
  maxRequests : ℤ
  windowSeconds : ℚ
  windowText : String
  contractCacheTtlSeconds : ℚ
  snapshotCacheTtlSeconds : ℚ

/-- `RateLimiter(60, 60.0)`, and the caches' defaults.
Source `joker/data/webull_options_provider.py:138–142`. -/
def ProviderSettings.standard : ProviderSettings := ⟨60, 60, "60", 300, 5⟩

/-- `WebullOptionsDataProvider`. The last three fields are history that no code reads: when the
API was asked, and what was stored in the caches.
Source `joker/data/webull_options_provider.py:115–486`. -/
structure ProviderState (F Q : Type) where
  contractCache : TTLCache (List (OptionContractMetadata F))
  snapshotCache : TTLCache (OptionSnapshot F Q)
  rateLimiter : RateLimiter
  contractDiscoverySucceeded : Bool
  reads : ℕ
  requests : List ℚ
  found : List (Stored (List (OptionContractMetadata F)))
  received : List (Stored (OptionSnapshot F Q))

/-- `WebullApiError`, by its message. -/
def webullApiError (message : String) : PyException := ⟨"WebullApiError", message⟩

/-- `except RateLimitExceeded as exc: raise WebullApiError(str(exc), rate_limited=True)`. -/
def wrapRateLimit (e : PyException) : PyException :=
  if e.typeName = "RateLimitExceeded" then webullApiError e.text else e

namespace ProviderState

/-- A new provider. -/
def new (settings : ProviderSettings) : ProviderState F Q where
  contractCache := ⟨settings.contractCacheTtlSeconds, Dict.empty⟩
  snapshotCache := ⟨settings.snapshotCacheTtlSeconds, Dict.empty⟩
  rateLimiter := ⟨settings.maxRequests, settings.windowSeconds, settings.windowText, []⟩
  contractDiscoverySucceeded := false
  reads := 0
  requests := []
  found := []
  received := []

/-- The settings a provider was made with. -/
def settings (s : ProviderState F Q) : ProviderSettings where
  maxRequests := s.rateLimiter.maxRequests
  windowSeconds := s.rateLimiter.windowSeconds
  windowText := s.rateLimiter.windowText
  contractCacheTtlSeconds := s.contractCache.ttlSeconds
  snapshotCacheTtlSeconds := s.snapshotCache.ttlSeconds

section Calls

variable (clock : ℕ → ℚ)

/-- `self._contract_cache.get(cache_key)`. -/
def lookContracts (key : String) (s : ProviderState F Q) :
    ProviderState F Q × Option (List (OptionContractMetadata F)) :=
  ({ s with contractCache := (s.contractCache.get key (clock s.reads)).1, reads := s.reads + 1 },
    (s.contractCache.get key (clock s.reads)).2)

/-- `self._contract_cache.set(cache_key, contracts)`. -/
def storeContracts (key : String) (contracts : List (OptionContractMetadata F))
    (s : ProviderState F Q) : ProviderState F Q :=
  { s with
    contractCache := s.contractCache.set key contracts (clock s.reads)
    reads := s.reads + 1
    found := s.found ++ [⟨key, clock s.reads, contracts⟩] }

/-- `self._snapshot_cache.get(key)`. -/
def lookSnapshot (key : String) (s : ProviderState F Q) :
    ProviderState F Q × Option (OptionSnapshot F Q) :=
  ({ s with snapshotCache := (s.snapshotCache.get key (clock s.reads)).1, reads := s.reads + 1 },
    (s.snapshotCache.get key (clock s.reads)).2)

/-- `self._snapshot_cache.set(key, snap)`. -/
def storeSnapshot (key : String) (snap : OptionSnapshot F Q) (s : ProviderState F Q) :
    ProviderState F Q :=
  { s with
    snapshotCache := s.snapshotCache.set key snap (clock s.reads)
    reads := s.reads + 1
    received := s.received ++ [⟨key, clock s.reads, snap⟩] }

/-- `self._rate_limiter.acquire()`, and a request to the API when that does not raise. -/
def request {α : Type} (answer : Except PyException α) (s : ProviderState F Q) :
    ProviderState F Q × Except PyException α :=
  match s.rateLimiter.acquire (clock s.reads) with
  | (limiter, .error e) => ({ s with rateLimiter := limiter, reads := s.reads + 1 }, .error e)
  | (limiter, .ok ()) =>
    ({ s with
        rateLimiter := limiter
        reads := s.reads + 1
        requests := s.requests ++ [clock s.reads] }, answer)

/-- `discover_contracts`; the contracts of a date are cached when there are none, too.
Source `joker/data/webull_options_provider.py:167–183`. -/
def discoverContracts (symbol : String) (expiration : Option Date) (marketToday : Date)
    (answer : Except PyException (List (OptionContractMetadata F))) (s : ProviderState F Q) :
    ProviderState F Q × Except PyException (List (OptionContractMetadata F)) :=
  if upper symbol ≠ allowedSymbol then
    (s, .error (webullApiError ("Only SPY supported; got " ++ symbol)))
  else
    let cacheKey := joinSep ':' symbol (expiration.getD marketToday).isoformat
    match s.lookContracts clock cacheKey with
    | (s, some contracts) => (s, .ok contracts)
    | (s, none) =>
      match s.request clock answer with
      | (s, .error e) => (s, .error e)
      | (s, .ok contracts) =>
        (({ s with contractDiscoverySucceeded := !contracts.isEmpty } :
            ProviderState F Q).storeContracts clock cacheKey contracts, .ok contracts)

/-- `fetch_snapshot`. Source `joker/data/webull_options_provider.py:229–242`. -/
def fetchSnapshot (contract : OptionContractMetadata F)
    (answer : Except PyException (OptionSnapshot F Q)) (s : ProviderState F Q) :
    ProviderState F Q × Except PyException (OptionSnapshot F Q) :=
  if contract.key = "" then (s, .error (webullApiError "Missing contract_id"))
  else
    match s.lookSnapshot clock contract.key with
    | (s, some snap) => (s, .ok snap)
    | (s, none) =>
      match s.request clock answer with
      | (s, .error e) => (s, .error (wrapRateLimit e))
      | (s, .ok snap) => (s.storeSnapshot clock contract.key snap, .ok snap)

end Calls
end ProviderState

/-! ### The surface fetch -/

/-- What a surface fetch finds outside. -/
structure SurfaceInputs (F Q : Type) where
  absDiff : F → F → F
  less : F → F → Bool
  marketToday : Date
  findOptionContracts : Except PyException (List (OptionContractMetadata F))
  osiCandidates : Except PyException (List (OptionContractMetadata F))
  getOptionSnapshots : ℕ → Except PyException (List (OptionSnapshot F Q))

/-- What `discover_contracts` and the limiter answer to a fetch, with what it finds outside. -/
def SurfaceInputs.meeting (inputs : SurfaceInputs F Q)
    (discovered : Except PyException (List (OptionContractMetadata F)))
    (acquired : ℕ → Except PyException Unit) : OptionsDataProvider F Q where
  absDiff := inputs.absDiff
  less := inputs.less
  marketToday := inputs.marketToday
  cachedContracts := none
  discoveryAcquired := .ok ()
  findOptionContracts := discovered
  osiCandidates := inputs.osiCandidates
  acquired := acquired
  getOptionSnapshots := inputs.getOptionSnapshots

namespace ProviderState

section Surface

variable (clock : ℕ → ℚ)

/-- One turn of the loop over a batch's snapshots: one without a failure is cached. -/
def receiveSnapshot (exp : Date) (label : String) (seenIds : List String)
    (loop : Returned F Q × ProviderState F Q) (snap : OptionSnapshot F Q) :
    Returned F Q × ProviderState F Q :=
  (receive exp label seenIds loop.1 snap,
    if (snapshotFailure exp seenIds loop.1.valid snap).isSome then loop.2
    else loop.2.storeSnapshot clock snap.key snap)

/-- What a batch does to the provider: a request, and the snapshots of its answer. -/
def batchState (inputs : SurfaceInputs F Q) (exp : Date) (label : String) (state : FetchState F Q)
    (start : ℕ) (s : ProviderState F Q) : ProviderState F Q :=
  match s.request clock (inputs.getOptionSnapshots start) with
  | (s, .error _) => s
  | (s, .ok snaps) =>
    (snaps.foldl (receiveSnapshot clock exp label state.seenIds)
      (⟨Dict.empty, state.failed, state.complete⟩, s)).2

/-- One turn of the loop over the batches. -/
def batchStep (inputs : SurfaceInputs F Q) (exp : Date) (size : ℕ)
    (selected : List (OptionContractMetadata F)) (loop : FetchState F Q × ProviderState F Q)
    (start : ℕ) : FetchState F Q × ProviderState F Q :=
  let acquired := (loop.2.rateLimiter.acquire (clock loop.2.reads)).2
  (fetchBatch (inputs.meeting (.ok selected) (fun _ ↦ acquired)) exp size selected loop.1 start,
    loop.2.batchState clock inputs exp (batchLabel start (slice size selected start).length) loop.1
      start)

/-- What the limiter answers to the batches of a fetch. -/
def acquiredBy (inputs : SurfaceInputs F Q) (exp : Date) (size : ℕ)
    (selected : List (OptionContractMetadata F)) :
    List ℕ → FetchState F Q × ProviderState F Q → ℕ → Except PyException Unit
  | [], _, _ => .ok ()
  | start :: rest, loop, n =>
    if n = start then (loop.2.rateLimiter.acquire (clock loop.2.reads)).2
    else acquiredBy inputs exp size selected rest
      (batchStep clock inputs exp size selected loop start) n

/-- The contracts of a fetch after the emergency limit, and what the limit reports. -/
def limited (maxContracts : Option ℤ) (all : List (OptionContractMetadata F)) :
    List (OptionContractMetadata F) × List String :=
  (emergencyLimit maxContracts all.length).elim (all, []) (fun limit ↦
    (all.take limit.toNat,
      ["emergency_max_contracts=" ++ toString limit ++ " truncated surface"]))

/-- `fetch_surface_snapshots`: what it returns is what it returns of the answers that it meets.
Source `joker/data/webull_options_provider.py:274–408`. -/
def fetchSurface (inputs : SurfaceInputs F Q) (underlyingPrice : F)
    (expiration tradingDate : Option Date) (maxContracts : Option ℤ) (allowOsiFallback : Bool)
    (batchSize : ℤ) (s : ProviderState F Q) :
    ProviderState F Q × Except PyException (SurfaceFetchResult F Q) :=
  let exp := (tradingDate.or expiration).getD inputs.marketToday
  let discovery := s.discoverContracts clock allowedSymbol (some exp) inputs.marketToday
    inputs.findOptionContracts
  match (inputs.meeting discovery.2 (fun _ ↦ .ok ())).discovered allowOsiFallback with
  | .error e => (discovery.1, .error e)
  | .ok contracts =>
    let all := (inputs.meeting discovery.2 (fun _ ↦ .ok ())).selection underlyingPrice exp contracts
    let selected := limited maxContracts all
    let size := (max 1 batchSize).toNat
    let starts := sliceStarts size selected.1.length
    let loop := (⟨[], [], selected.2, selected.2.isEmpty⟩, discovery.1)
    let acquired := acquiredBy clock inputs exp size selected.1 starts loop
    ((run (batchStep clock inputs exp size selected.1) loop starts).2,
      fetchSurfaceSnapshots (inputs.meeting discovery.2 acquired) underlyingPrice expiration
        tradingDate maxContracts allowOsiFallback batchSize)

end Surface
end ProviderState

/-! ### Runs -/

/-- A call of the provider, with what it finds outside. -/
inductive ProviderCall (F Q : Type) where
  | discoverContracts (symbol : String) (expiration : Option Date) (marketToday : Date)
      (answer : Except PyException (List (OptionContractMetadata F)))
  | fetchSnapshot (contract : OptionContractMetadata F)
      (answer : Except PyException (OptionSnapshot F Q))
  | fetchSurface (inputs : SurfaceInputs F Q) (underlyingPrice : F)
      (expiration tradingDate : Option Date) (maxContracts : Option ℤ) (allowOsiFallback : Bool)
      (batchSize : ℤ)

/-- One call. -/
def ProviderState.step (clock : ℕ → ℚ) (s : ProviderState F Q) :
    ProviderCall F Q → ProviderState F Q
  | .discoverContracts symbol expiration marketToday answer =>
    (s.discoverContracts clock symbol expiration marketToday answer).1
  | .fetchSnapshot contract answer => (s.fetchSnapshot clock contract answer).1
  | .fetchSurface inputs underlyingPrice expiration tradingDate maxContracts allowOsiFallback
      batchSize =>
    (s.fetchSurface clock inputs underlyingPrice expiration tradingDate maxContracts
      allowOsiFallback batchSize).1

/-! ### Samples -/

namespace ProviderState.Sample

/-- A SPY contract of 2026-07-01. -/
def contract (id : String) (strike : ℤ) : OptionContractMetadata ℤ :=
  ⟨"SPY", ⟨2026, 7, 1⟩, strike, .call, some id⟩

/-- A snapshot of the first contract. -/
def snapshot : OptionSnapshot ℤ Unit := ⟨contract "a" 490, ()⟩

/-- A snapshot of the second contract. -/
def later : OptionSnapshot ℤ Unit := ⟨contract "b" 500, ()⟩

/-- The contracts are discovered, and the first one's snapshot is fetched. -/
def calls : List (ProviderCall ℤ Unit) :=
  [.discoverContracts "SPY" none ⟨2026, 7, 1⟩ (.ok [contract "a" 490, contract "b" 500]),
    .fetchSnapshot (contract "a" 490) (.ok snapshot)]

/-- What a fetch of both contracts, one a batch, finds outside. -/
def surface : SurfaceInputs ℤ Unit where
  absDiff a b := |a - b|
  less a b := decide (a < b)
  marketToday := ⟨2026, 7, 1⟩
  findOptionContracts := .error (webullApiError "unavailable")
  osiCandidates := .ok []
  getOptionSnapshots start := .ok [if start = 0 then later else snapshot]

end ProviderState.Sample
end Joker.Data
