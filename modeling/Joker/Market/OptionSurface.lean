import Joker.Base.Checks
import Joker.Base.Datetime
import Joker.Base.Decimal
import Joker.Base.Text
import Joker.Broker.Domain

/-!
# Option surfaces

Library `Market`. `OptionSurfaceBuilder` of `joker/market/option_surface.py`, as far as it
decides which row a surface has for a contract and how old the row's quote is said to be. The
age is computed once, against the exchange time of the surface, and stored with the row.
Prices, sizes and Greeks are left out.
-/

namespace Joker.Market

open Joker.Base Joker.Broker Joker.Ledger

/-- A row's timestamp as the provider sends it. -/
inductive RawTimestamp where
  | datetime (t : Datetime)
  | text (s : String)
  deriving DecidableEq

/-- Expiry, strike and option type, as far as a provider's texts give them. -/
structure ContractTerms where
  expiry : Date
  strike : Decimal
  optionType : OptionType
  deriving DecidableEq

/-- A provider's row: the values its keys map to, with `none` for a missing key. -/
structure ProviderRow where
  contractId : Option String
  symbol : Option String
  ticker : Option String
  terms : Option ContractTerms
  quoteTimestamp : Option RawTimestamp
  quoteTime : Option RawTimestamp
  timestamp : Option RawTimestamp
  quoteTimeCamel : Option RawTimestamp
  deriving DecidableEq

/-- `OptionContractSnapshot`. Source `joker/market/option_surface.py:107–143`. -/
structure OptionContractSnapshot where
  contractId : String
  symbol : String
  terms : ContractTerms
  quoteTimestamp : Datetime
  quoteAgeMs : Int
  deriving DecidableEq

/-- `OptionSurfaceSnapshot`. Source `joker/market/option_surface.py:146–163`. -/
structure OptionSurfaceSnapshot where
  surfaceId : Uuid
  exchangeTime : Datetime
  tradingDate : Date
  contracts : List OptionContractSnapshot
  deriving DecidableEq

/-- What the builder takes from Python: `datetime.fromisoformat`, and the float product
`int(delta.total_seconds() * 1000)` of a difference in microseconds.
Source `joker/market/option_surface.py:166–356`. -/
structure SurfaceBuilder where
  fromisoformat : String → Option Datetime
  wholeMillis : Int → Int

/-- `MarketDataError`. -/
def marketDataError (text : String) : PyException := ⟨"MarketDataError", text⟩

/-- `_reject_naive`. Source `joker/market/option_surface.py:19–22`. -/
def rejectNaive (t : Datetime) : Except PyException Datetime :=
  if t.aware then .ok t
  else .error ⟨"ValueError", "Naive datetimes are not allowed on option surfaces"⟩

/-- `a or b` for texts that may be missing. -/
def orMissing (a b : Option String) : Option String :=
  if a.any (fun s ↦ s ≠ "") then a else b

/-- `a or b` for timestamps; an empty text is false. -/
def orTimestamp (a b : Option RawTimestamp) : Option RawTimestamp :=
  match a with
  | none => b
  | some (.text "") => b
  | some _ => a

/-- The first of a row's four timestamp keys that is not false. -/
def ProviderRow.quoteTimestampRaw (row : ProviderRow) : Option RawTimestamp :=
  orTimestamp row.quoteTimestamp
    (orTimestamp row.quoteTime (orTimestamp row.timestamp row.quoteTimeCamel))

/-- `str(text).replace("Z", "+00:00")`. -/
def zoneText (text : String) : String :=
  String.ofList (text.toList.flatMap (fun c ↦ if c = 'Z' then "+00:00".toList else [c]))

/-- The quote timestamp of a row; a row without one takes the exchange time. -/
def quoteTimestampOf (builder : SurfaceBuilder) (contractId : String) (exchangeTime : Datetime) :
    Option RawTimestamp → Except PyException Datetime
  | some (.datetime t) => rejectNaive t
  | none => .ok exchangeTime
  | some (.text s) =>
    match builder.fromisoformat (zoneText s) with
    | none => .error (marketDataError ("Invalid quote timestamp for " ++ contractId))
    | some t =>
      if t.aware then .ok t
      else .error (marketDataError ("Naive quote timestamp rejected for " ++ contractId))

/-- `quote_age_ms`: the age at the exchange time, never negative. -/
def quoteAgeMs (builder : SurfaceBuilder) (exchangeTime quoteTs : Datetime) : Int :=
  max 0 (builder.wholeMillis (exchangeTime.instant - quoteTs.instant))

/-- `_row_to_contract`; a row without an id or without terms is skipped.
Source `joker/market/option_surface.py:214–356`. -/
def rowToContract (builder : SurfaceBuilder) (exchangeTime : Datetime) (row : ProviderRow) :
    Except PyException (Option OptionContractSnapshot) :=
  let contractId := strip ((orMissing row.contractId (orMissing row.symbol row.ticker)).getD "")
  let symbol := strip ((orMissing row.symbol (orMissing row.ticker (some contractId))).getD "")
  if contractId = "" ∨ symbol = "" then .ok none
  else
    match row.terms with
    | none => .ok none
    | some terms => do
      let quoteTs ← quoteTimestampOf builder contractId exchangeTime row.quoteTimestampRaw
      pure (some
        { contractId := contractId
          symbol := symbol
          terms := terms
          quoteTimestamp := quoteTs
          quoteAgeMs := quoteAgeMs builder exchangeTime quoteTs })

/-- The order of the rows: by expiry, calls first, by strike, by id. -/
def sortsBefore (a b : OptionContractSnapshot) : Bool :=
  let typeRank : OptionType → Nat := fun t ↦ if t = .call then 0 else 1
  let before {α : Type} [LT α] [DecidableEq α] [DecidableLT α] (x y : α) (rest : Bool) : Bool :=
    decide (x < y) || (decide (x = y) && rest)
  before a.terms.expiry.toordinal b.terms.expiry.toordinal
    (before (typeRank a.terms.optionType) (typeRank b.terms.optionType)
      (before a.terms.strike.toRat b.terms.strike.toRat
        (decide (a.contractId ≤ b.contractId))))

/-- `OptionSurfaceBuilder.from_provider_rows`. Source `joker/market/option_surface.py:170–211`. -/
def fromProviderRows (builder : SurfaceBuilder) (rows : List ProviderRow)
    (exchangeTime : Datetime) (tradingDate : Date) (surfaceId : Uuid) :
    Except PyException OptionSurfaceSnapshot := do
  let exchangeTime ← rejectNaive exchangeTime
  let built ← rows.mapM (rowToContract builder exchangeTime)
  pure
    { surfaceId := surfaceId
      exchangeTime := exchangeTime
      tradingDate := tradingDate
      contracts := (built.filterMap id).mergeSort sortsBefore }

/-- A builder without float rounding, that reads no texts. -/
def SurfaceBuilder.sample : SurfaceBuilder where
  fromisoformat _ := none
  wholeMillis delta := delta.tdiv 1000

/-- A provider's row for one call, quoted at a time. -/
def ProviderRow.sample (contractId : String) (quotedAt : Datetime) : ProviderRow :=
  { contractId := some contractId
    symbol := some "SPY"
    ticker := none
    terms := some ⟨⟨2026, 7, 1⟩, ⟨false, 500, 0⟩, .call⟩
    quoteTimestamp := some (.datetime quotedAt)
    quoteTime := none
    timestamp := none
    quoteTimeCamel := none }

/-- The row built from it at a time. -/
def OptionContractSnapshot.sample (contractId : String) (quotedAt builtAt : Datetime) :
    OptionContractSnapshot :=
  { contractId := contractId
    symbol := "SPY"
    terms := ⟨⟨2026, 7, 1⟩, ⟨false, 500, 0⟩, .call⟩
    quoteTimestamp := quotedAt
    quoteAgeMs := Market.quoteAgeMs SurfaceBuilder.sample builtAt quotedAt }

/-- The surface of that row alone. -/
def OptionSurfaceSnapshot.sample (contractId : String) (quotedAt builtAt : Datetime) :
    OptionSurfaceSnapshot :=
  { surfaceId := "surface"
    exchangeTime := builtAt
    tradingDate := ⟨2026, 7, 1⟩
    contracts := [.sample contractId quotedAt builtAt] }

/-- A built row states the age its quote has at the exchange time. -/
theorem quoteAgeMs_of_rowToContract {builder : SurfaceBuilder} {exchangeTime : Datetime}
    {row : ProviderRow} {built : OptionContractSnapshot}
    (h : rowToContract builder exchangeTime row = .ok (some built)) :
    built.quoteAgeMs = quoteAgeMs builder exchangeTime built.quoteTimestamp := by
  unfold rowToContract at h
  simp only at h
  split at h
  · cases h
  · split at h
    · cases h
    · obtain ⟨quoteTs, _, hbuilt⟩ := bind_eq_ok.mp h
      cases hbuilt
      rfl

/-- Every row of a surface states the age its quote has at the surface's exchange time. -/
theorem quoteAgeMs_of_mem {builder : SurfaceBuilder} {rows : List ProviderRow}
    {exchangeTime : Datetime} {tradingDate : Date} {surfaceId : Uuid}
    {surface : OptionSurfaceSnapshot}
    (h : fromProviderRows builder rows exchangeTime tradingDate surfaceId = .ok surface)
    {c : OptionContractSnapshot} (hc : c ∈ surface.contracts) :
    c.quoteAgeMs = quoteAgeMs builder exchangeTime c.quoteTimestamp := by
  simp only [fromProviderRows, bind_eq_ok, pure_eq_ok] at h
  obtain ⟨t, ht, built, hbuilt, rfl⟩ := h
  obtain rfl : exchangeTime = t := by
    unfold rejectNaive at ht
    split at ht
    · exact Except.ok.inj ht
    · cases ht
  obtain ⟨found, hm, rfl⟩ := List.mem_filterMap.mp (List.mem_mergeSort.mp hc)
  obtain ⟨row, _, hrow⟩ := exists_of_mem_mapM hbuilt hm
  exact quoteAgeMs_of_rowToContract hrow

/-- A surface states the time it was built for. -/
theorem exchangeTime_fromProviderRows {builder : SurfaceBuilder} {rows : List ProviderRow}
    {exchangeTime : Datetime} {tradingDate : Date} {surfaceId : Uuid}
    {surface : OptionSurfaceSnapshot}
    (h : fromProviderRows builder rows exchangeTime tradingDate surfaceId = .ok surface) :
    surface.exchangeTime = exchangeTime := by
  simp only [fromProviderRows, bind_eq_ok, pure_eq_ok] at h
  obtain ⟨t, ht, built, -, rfl⟩ := h
  unfold rejectNaive at ht
  split at ht
  · exact (Except.ok.inj ht).symm
  · cases ht

end Joker.Market
