import Joker.Market.Bars
import Joker.Market.OptionSurface
import Joker.Runtime.WorkingOrders

/-!
# Surface rows with their numbers

Library `Market`. The numeric part of `_row_to_contract` of `joker/market/option_surface.py`: the
values under the accepted names, their conversion, the figures derived from them, the liquidity
score and the quality flags. Arithmetic on floats is exact; `Decimal` operations round as in
Python's default context. Ids, terms and the quote's age are those of `rowToContract`.
-/

namespace Joker.Market

open Joker.Base Joker.Broker
open Joker.Runtime (pyInt)

/-! ### Raw values -/

/-- A value of a provider's row. Numbers are Python's `int`, finite `float` and finite `Decimal`;
`other` is a value of a type that neither `int` nor `Decimal` reads. -/
inductive RawValue where
  | missing
  | number (value : ℚ)
  | nan
  | infinite
  | bool (value : Bool)
  | text (s : String)
  | other (truthy : Bool)
  deriving DecidableEq

/-- `bool(value)`. -/
def RawValue.truthy : RawValue → Bool
  | .missing => false
  | .number value => decide (value ≠ 0)
  | .nan => true
  | .infinite => true
  | .bool value => value
  | .text s => decide (s ≠ "")
  | .other truthy => truthy

/-- `a or b or …` over the values under the names of a field. -/
def orChain : List RawValue → RawValue
  | [] => .missing
  | [last] => last
  | value :: rest => if value.truthy then value else orChain rest

/-- A `Decimal`; NaN and the infinities are `special`. -/
inductive DecimalReading where
  | finite (value : ℚ)
  | special
  deriving DecidableEq

/-- `Decimal(text)` and `int(text)`. What `int` reads, `Decimal` reads as the same number. -/
structure NumberReader where
  decimal : String → Option DecimalReading
  int : String → Option ℤ
  coherent : ∀ text n, int text = some n → decimal text = some (.finite n)

/-- `_to_decimal`; `str(True)` is no number. Source `joker/market/option_surface.py:25–31`. -/
def toDecimal (reader : NumberReader) : RawValue → Option DecimalReading
  | .missing => none
  | .number value => some (.finite value)
  | .nan => some .special
  | .infinite => some .special
  | .bool _ => none
  | .text s => if s = "" then none else reader.decimal s
  | .other _ => none

/-- `_to_int`; `int` of an infinity raises an `OverflowError`, which is not caught.
Source `joker/market/option_surface.py:34–40`. -/
def toInt (reader : NumberReader) : RawValue → Except PyException (Option ℤ)
  | .missing => .ok none
  | .number value => .ok (some (pyInt value))
  | .nan => .ok none
  | .infinite => .error ⟨"OverflowError", "cannot convert Infinity to integer"⟩
  | .bool value => .ok (some (if value then 1 else 0))
  | .text s => .ok (if s = "" then none else reader.int s)
  | .other _ => .ok none

/-! ### Rows -/

/-- The numeric fields of a row. -/
inductive NumericField where
  | bid
  | ask
  | last
  | bidSize
  | askSize
  | volume
  | openInterest
  | impliedVolatility
  | delta
  | gamma
  | theta
  | vega
  deriving DecidableEq, Repr

namespace NumericField

/-- The names a field is read under, in this order. -/
def names : NumericField → List String
  | .bid => ["bid"]
  | .ask => ["ask"]
  | .last => ["last", "latestPrice"]
  | .bidSize => ["bid_size", "bidSize"]
  | .askSize => ["ask_size", "askSize"]
  | .volume => ["volume"]
  | .openInterest => ["open_interest", "openInterest"]
  | .impliedVolatility => ["implied_volatility", "impliedVolatility", "iv"]
  | .delta => ["delta"]
  | .gamma => ["gamma"]
  | .theta => ["theta"]
  | .vega => ["vega"]

/-- The fields read by `_to_int`. -/
def whole : NumericField → Bool
  | .bidSize | .askSize | .volume | .openInterest => true
  | _ => false

/-- The flag of a missing field; sizes have none. -/
def flag : NumericField → Option String
  | .bid => some "missing_bid"
  | .ask => some "missing_ask"
  | .last => some "missing_last"
  | .bidSize => none
  | .askSize => none
  | .volume => some "missing_volume"
  | .openInterest => some "missing_open_interest"
  | .impliedVolatility => some "missing_iv"
  | .delta => some "missing_delta"
  | .gamma => some "missing_gamma"
  | .theta => some "missing_theta"
  | .vega => some "missing_vega"

end NumericField

/-- A provider's row: its texts and times, and `row.get(name)` for the numeric names. -/
structure QuotedRow where
  base : ProviderRow
  get : String → RawValue

/-- The values under the names of a field. -/
def QuotedRow.values (row : QuotedRow) (field : NumericField) : List RawValue :=
  field.names.map row.get

/-- The value that a field is read from. -/
def QuotedRow.value (row : QuotedRow) (field : NumericField) : RawValue :=
  orChain (row.values field)

/-- The numbers of a row. -/
structure RowNumbers where
  bid : Option ℚ
  ask : Option ℚ
  last : Option ℚ
  bidSize : Option ℤ
  askSize : Option ℤ
  volume : Option ℤ
  openInterest : Option ℤ
  impliedVolatility : Option ℚ
  delta : Option ℚ
  gamma : Option ℚ
  theta : Option ℚ
  vega : Option ℚ
  deriving DecidableEq

/-- The number of a field. -/
def RowNumbers.value (numbers : RowNumbers) : NumericField → Option ℚ
  | .bid => numbers.bid
  | .ask => numbers.ask
  | .last => numbers.last
  | .bidSize => numbers.bidSize.map (↑)
  | .askSize => numbers.askSize.map (↑)
  | .volume => numbers.volume.map (↑)
  | .openInterest => numbers.openInterest.map (↑)
  | .impliedVolatility => numbers.impliedVolatility
  | .delta => numbers.delta
  | .gamma => numbers.gamma
  | .theta => numbers.theta
  | .vega => numbers.vega

/-- A decimal field of a contract. NaN and infinities raise: in a comparison or a division of the
derived figures, or when the contract is validated. -/
def finiteDecimal : Option DecimalReading → Except PyException (Option ℚ)
  | none => .ok none
  | some (.finite value) => .ok (some value)
  | some .special => .error ⟨"ValidationError", "finite_number"⟩

/-- The numbers that `_row_to_contract` reads. Which one of several exceptions is raised first is
not told apart. -/
def rowNumbers (reader : NumberReader) (row : QuotedRow) : Except PyException RowNumbers := do
  let bid ← finiteDecimal (toDecimal reader (row.value .bid))
  let ask ← finiteDecimal (toDecimal reader (row.value .ask))
  let last ← finiteDecimal (toDecimal reader (row.value .last))
  let bidSize ← toInt reader (row.value .bidSize)
  let askSize ← toInt reader (row.value .askSize)
  let volume ← toInt reader (row.value .volume)
  let openInterest ← toInt reader (row.value .openInterest)
  let impliedVolatility ← finiteDecimal (toDecimal reader (row.value .impliedVolatility))
  let delta ← finiteDecimal (toDecimal reader (row.value .delta))
  let gamma ← finiteDecimal (toDecimal reader (row.value .gamma))
  let theta ← finiteDecimal (toDecimal reader (row.value .theta))
  let vega ← finiteDecimal (toDecimal reader (row.value .vega))
  pure ⟨bid, ask, last, bidSize, askSize, volume, openInterest, impliedVolatility, delta, gamma,
    theta, vega⟩

/-! ### Derived figures -/

/-- `compute_mid`, with `_valid_bid_ask`. Source `joker/market/option_surface.py:43–50, 53–58`. -/
def computeMid (bid ask : Option ℚ) : Option ℚ :=
  match bid, ask with
  | some bid, some ask =>
    if 0 ≤ bid ∧ 0 ≤ ask ∧ bid ≤ ask then some (contextRounded (contextRounded (bid + ask) / 2))
    else none
  | _, _ => none

/-- `compute_relative_spread`. Source `joker/market/option_surface.py:61–67`. -/
def computeRelativeSpread (bid ask : Option ℚ) : Option ℚ :=
  match computeMid bid ask, bid, ask with
  | some mid, some bid, some ask =>
    if mid ≤ 0 then none else some (contextRounded (contextRounded (ask - bid) / mid))
  | _, _, _ => none

/-- The size component, from the sizes that are there and not negative. -/
def sizeScore (bidSize askSize : Option ℤ) : Option ℚ :=
  ((([bidSize, askSize].filterMap id).filter (0 ≤ ·)).min?).map (fun top ↦ min 1 (top / 100))

/-- The volume component. -/
def volumeScore (volume : Option ℤ) : Option ℚ :=
  (volume.filter (0 ≤ ·)).map (fun volume ↦ min 1 (volume / 1000))

/-- The spread component. -/
def spreadScore (relativeSpread : Option ℚ) : Option ℚ :=
  (relativeSpread.filter (0 ≤ ·)).map (fun spread ↦ max 0 (1 - min (spread / (1 / 10)) 1))

/-- `round(x, 6)`. -/
def roundSix (x : ℚ) : ℚ := roundHalfEven (x / (1 / 1000000)) * (1 / 1000000)

/-- The rounded average of the components. -/
def averageScore (scores : List ℚ) : ℚ :=
  if scores = [] then 0 else roundSix (scores.sum / scores.length)

/-- `compute_liquidity_score`. Source `joker/market/option_surface.py:70–104`. -/
def computeLiquidityScore (bidSize askSize volume : Option ℤ) (relativeSpread : Option ℚ) : ℚ :=
  averageScore
    ([sizeScore bidSize askSize, volumeScore volume, spreadScore relativeSpread].filterMap id)

/-- A flag, where its condition holds. -/
def flagIf (condition : Bool) (flag : String) : List String := if condition then [flag] else []

/-- The flags of a crossed or a locked market. -/
def bookFlags (bid ask : Option ℚ) : List String :=
  match bid, ask with
  | some bid, some ask =>
    flagIf (decide (ask < bid)) "crossed_market" ++ flagIf (decide (ask = bid)) "locked_market"
  | _, _ => []

/-- The flags of a row, in their order. -/
def qualityFlags (n : RowNumbers) : List String :=
  flagIf n.bid.isNone "missing_bid" ++ flagIf n.ask.isNone "missing_ask" ++
    bookFlags n.bid n.ask ++
    flagIf n.last.isNone "missing_last" ++ flagIf n.volume.isNone "missing_volume" ++
    flagIf n.openInterest.isNone "missing_open_interest" ++
    flagIf n.impliedVolatility.isNone "missing_iv" ++ flagIf n.delta.isNone "missing_delta" ++
    flagIf n.gamma.isNone "missing_gamma" ++ flagIf n.theta.isNone "missing_theta" ++
    flagIf n.vega.isNone "missing_vega" ++ flagIf (computeMid n.bid n.ask).isNone "mid_unavailable"

/-- `OptionContractSnapshot`, with its numbers. Source `joker/market/option_surface.py:107–143`. -/
structure QuotedContract extends OptionContractSnapshot where
  numbers : RowNumbers
  mid : Option ℚ
  relativeSpread : Option ℚ
  liquidityScore : ℚ
  qualityFlags : List String
  deriving DecidableEq

/-- The contract of a row's numbers. -/
def quotedContract (base : OptionContractSnapshot) (n : RowNumbers) : QuotedContract :=
  { base with
    numbers := n
    mid := computeMid n.bid n.ask
    relativeSpread := computeRelativeSpread n.bid n.ask
    liquidityScore := computeLiquidityScore n.bidSize n.askSize n.volume
      (computeRelativeSpread n.bid n.ask)
    qualityFlags := qualityFlags n }

/-- `_row_to_contract`. Source `joker/market/option_surface.py:214–356`. -/
def rowToQuotedContract (reader : NumberReader) (builder : SurfaceBuilder)
    (exchangeTime : Datetime) (row : QuotedRow) : Except PyException (Option QuotedContract) := do
  match ← rowToContract builder exchangeTime row.base with
  | none => pure none
  | some base =>
    let numbers ← rowNumbers reader row
    pure (some (quotedContract base numbers))

end Joker.Market
