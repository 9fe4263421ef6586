import Mathlib.Data.Finset.Insert
import Joker.Base.Text
import Joker.Data.Freshness

/-!
# Risk governor

Library `Risk`. `RiskGovernor` of `joker/risk/governor.py`: the checks of a trade candidate under
the strict and the agent-led policy, with the set of the candidates approved before. The arithmetic
of `float` is a parameter.
-/

namespace Joker.Risk.Governor

open Joker.Base Joker.Data

/-! ### Data -/

/-- What the governor does with a `float`. -/
structure RiskArith (F : Type) extends AgeArith F where
  truthy : F → Bool
  ofInt : ℤ → F
  millionth : F
  add : F → F → F
  sub : F → F → F
  mul : F → F → F
  div : F → F → F
  neg : F → F
  lt : F → F → Bool
  le : F → F → Bool

/-- Exact arithmetic. -/
def RiskArith.exact : RiskArith ℚ where
  toAgeArith := AgeArith.exact
  truthy x := decide (x ≠ 0)
  ofInt n := n
  millionth := 1 / 1000000
  add := (· + ·)
  sub := (· - ·)
  mul := (· * ·)
  div := (· / ·)
  neg := (- ·)
  lt x y := decide (x < y)
  le x y := decide (x ≤ y)

/-- `SafetyMode`. -/
inductive SafetyMode where
  | paper
  | shadow
  | liveGated
  deriving DecidableEq, Repr

/-- The values of `RiskConfig.policy`. -/
inductive RiskPolicy where
  | strict
  | agentLed
  deriving DecidableEq, Repr

/-- The text of a policy. -/
def RiskPolicy.value : RiskPolicy → String
  | .strict => "strict"
  | .agentLed => "agent_led"

/-- The values of `TradeCandidate.direction`. -/
inductive Direction where
  | longCall
  | longPut
  deriving DecidableEq, Repr

/-- `RiskConfig`. Source `joker/schemas/domain.py:281–296`. -/
structure RiskConfig (F : Type) where
  maxDailyLossUsd : F
  maxTradesPerDay : ℤ
  maxOpenPositions : ℤ
  maxPremiumUsd : F
  maxSpreadPct : F
  quoteMaxAgeSeconds : ℤ
  allowedSymbol : String
  killSwitch : Bool
  allowDelayedQuotes : Bool
  feedMaxSilenceSeconds : ℤ
  delayedQuoteMaxAgeSeconds : ℤ
  policy : RiskPolicy
  authorizedCapitalUsd : F
  reservedCapitalUsd : F
  deriving DecidableEq

/-- `OptionContract`, as far as the governor reads it. Source `joker/schemas/domain.py:29–40`. -/
structure OptionContract where
  symbol : String
  is0dte : Bool
  deriving DecidableEq, Repr

/-- `OptionQuote`, as far as the governor reads it. Source `joker/schemas/domain.py:43–66`. -/
structure OptionQuote (F : Type) where
  bid : F
  ask : F
  timestamp : Datetime
  delayed : Bool
  receivedAt : Option Datetime
  deriving DecidableEq

/-- `TradeCandidate`, as far as the governor reads it, with the bounds of its quantity.
Source `joker/schemas/domain.py:267–278`. -/
structure TradeCandidate (F : Type) where
  candidateId : String
  contract : OptionContract
  quote : OptionQuote F
  direction : Direction
  entryLimitPrice : F
  stopPrice : F
  takeProfitPrice : F
  quantity : ℤ
  bounded : 1 ≤ quantity ∧ quantity ≤ 100
  deriving DecidableEq

/-- `DailyState`, as far as the governor reads it. Source `joker/schemas/domain.py:379–387`. -/
structure DailyState (F : Type) where
  dailyPnlUsd : F
  tradesCount : ℤ
  openPositions : ℤ
  killSwitch : Bool
  deriving DecidableEq

/-- The codes of `RiskReasonCode` that an evaluation gives.
Source `joker/risk/governor.py:12–33`. -/
inductive RiskReasonCode where
  | modeBlocked
  | killSwitch
  | wrongSymbol
  | not0dte
  | staleQuote
  | wideSpread
  | maxPremium
  | noStop
  | noTakeProfit
  | maxDailyLoss
  | maxTrades
  | maxOpenPositions
  | duplicateOrder
  | unresolvedOrder
  | invalidDirection
  | delayedNotAllowed
  | feedSilent
  | capitalExceeded
  deriving DecidableEq, Repr

/-- The text of a code. -/
def RiskReasonCode.value : RiskReasonCode → String
  | .modeBlocked => "MODE_BLOCKED"
  | .killSwitch => "KILL_SWITCH"
  | .wrongSymbol => "WRONG_SYMBOL"
  | .not0dte => "NOT_0DTE"
  | .staleQuote => "STALE_QUOTE"
  | .wideSpread => "WIDE_SPREAD"
  | .maxPremium => "MAX_PREMIUM"
  | .noStop => "NO_STOP"
  | .noTakeProfit => "NO_TAKE_PROFIT"
  | .maxDailyLoss => "MAX_DAILY_LOSS"
  | .maxTrades => "MAX_TRADES"
  | .maxOpenPositions => "MAX_OPEN_POSITIONS"
  | .duplicateOrder => "DUPLICATE_ORDER"
  | .unresolvedOrder => "UNRESOLVED_ORDER"
  | .invalidDirection => "INVALID_DIRECTION"
  | .delayedNotAllowed => "DELAYED_NOT_ALLOWED"
  | .feedSilent => "FEED_SILENT"
  | .capitalExceeded => "CAPITAL_EXCEEDED"

/-- `RiskDecision`; the time of the decision is left out.
Source `joker/schemas/domain.py:299–305`. -/
structure RiskDecision where
  candidateId : String
  approved : Bool
  reasonCodes : List RiskReasonCode
  message : String
  policy : String
  deriving DecidableEq, Repr

/-- `RiskGovernor`. Source `joker/risk/governor.py:36–153`. -/
structure RiskGovernor (F : Type) where
  config : RiskConfig F
  mode : SafetyMode
  liveEnabled : Bool
  seenCandidates : Finset String
  deriving DecidableEq

/-! ### Checks -/

section

variable {F : Type} (A : RiskArith F)

/-- `quote.mid`. Source `joker/schemas/domain.py:58–59`. -/
def OptionQuote.mid (quote : OptionQuote F) : F :=
  A.div (A.add quote.bid quote.ask) (A.ofInt 2)

/-- `quote.spread_pct`. Source `joker/schemas/domain.py:62–66`. -/
def OptionQuote.spreadPct (quote : OptionQuote F) : F :=
  if A.le (quote.mid A) (A.ofInt 0) then A.ofInt 100
  else A.mul (A.div (A.sub quote.ask quote.bid) (quote.mid A)) (A.ofInt 100)

/-- A reason, where a check fails. -/
def failing (fails : Bool) (code : RiskReasonCode) : List RiskReasonCode :=
  if fails then [code] else []

/-- `RiskGovernor.policy`. Source `joker/risk/governor.py:52–53`. -/
def RiskGovernor.policy (g : RiskGovernor F) : String :=
  let text := g.config.policy.value
  lower (strip (if text = "" then "strict" else text))

/-- The mode blocks every entry. -/
def RiskGovernor.modeBlocks (g : RiskGovernor F) : Bool :=
  match g.mode with
  | .shadow => false
  | .liveGated => !g.liveEnabled
  | .paper => false

/-- The freshness limits of a risk configuration. -/
def RiskConfig.freshnessConfig (config : RiskConfig F) : FreshnessConfig where
  quoteMaxAgeSeconds := config.quoteMaxAgeSeconds
  feedMaxSilenceSeconds := config.feedMaxSilenceSeconds
  delayedQuoteMaxAgeSeconds := config.delayedQuoteMaxAgeSeconds
  allowDelayedQuotes := config.allowDelayedQuotes

/-- The reasons of a verdict: a silent feed always blocks, the rest only without an agent. -/
def freshnessReasons (agentLed : Bool) (freshness : FreshnessVerdict F) : List RiskReasonCode :=
  if freshness.ok then []
  else if freshness.reason = some .feedSilent then [.feedSilent]
  else if agentLed then []
  else if freshness.reason = some .delayedNotAllowed then [.delayedNotAllowed]
  else [.staleQuote]

/-- `x or 0.0`. -/
def orZero (x : F) : F := if A.truthy x then x else A.ofInt 0

/-- The notional of an entry is over the free capital, where a capital is configured. -/
def RiskConfig.capitalExceeded (config : RiskConfig F) (candidate : TradeCandidate F) : Bool :=
  let zero := A.ofInt 0
  let authorized := orZero A config.authorizedCapitalUsd
  if A.lt zero authorized then
    let free := A.sub authorized (orZero A config.reservedCapitalUsd)
    let available := if A.lt zero free then free else zero
    let notional := A.mul (A.mul candidate.entryLimitPrice (A.ofInt 100))
      (A.ofInt (max 1 candidate.quantity))
    A.lt (A.add available A.millionth) notional
  else false

/-- The caps that only the strict policy enforces. -/
def RiskConfig.softCaps (config : RiskConfig F) (candidate : TradeCandidate F)
    (daily : DailyState F) : List RiskReasonCode :=
  failing (A.lt config.maxSpreadPct (candidate.quote.spreadPct A)) .wideSpread ++
    failing (A.lt config.maxPremiumUsd (A.mul candidate.entryLimitPrice (A.ofInt 100)))
      .maxPremium ++
    failing (A.le daily.dailyPnlUsd (A.neg config.maxDailyLossUsd)) .maxDailyLoss ++
    failing (decide (config.maxTradesPerDay ≤ daily.tradesCount)) .maxTrades ++
    failing (decide (config.maxOpenPositions ≤ daily.openPositions)) .maxOpenPositions

/-- The arguments of `evaluate`, and what the clock reads. -/
structure Evaluation (F : Type) where
  candidate : TradeCandidate F
  dailyState : DailyState F
  hasUnresolvedOrder : Bool
  agentOverride : Bool
  referenceTime : Option Datetime
  clock : Datetime
  deriving DecidableEq

namespace RiskGovernor

/-- The reasons that `evaluate` collects, in order. -/
def reasons (g : RiskGovernor F) (e : Evaluation F) : List RiskReasonCode :=
  let now := e.referenceTime.getD e.clock
  let agentLed := decide (g.policy = "agent_led")
  let freshness := evaluateQuoteFreshness A.toAgeArith e.candidate.quote.timestamp now
    e.candidate.quote.delayed e.candidate.quote.receivedAt (some g.config.freshnessConfig)
  failing (g.config.killSwitch || e.dailyState.killSwitch) .killSwitch ++
    failing g.modeBlocks .modeBlocked ++
    failing (decide (e.candidate.contract.symbol ≠ g.config.allowedSymbol)) .wrongSymbol ++
    failing (!e.candidate.contract.is0dte) .not0dte ++
    failing (decide (e.candidate.direction ∉ [Direction.longCall, Direction.longPut]))
      .invalidDirection ++
    freshnessReasons agentLed freshness ++
    failing (A.le e.candidate.stopPrice (A.ofInt 0)) .noStop ++
    failing (A.le e.candidate.takeProfitPrice (A.ofInt 0)) .noTakeProfit ++
    failing e.hasUnresolvedOrder .unresolvedOrder ++
    failing (decide (e.candidate.candidateId ∈ g.seenCandidates)) .duplicateOrder ++
    failing (g.config.capitalExceeded A e.candidate) .capitalExceeded ++
    (if agentLed then [] else g.config.softCaps A e.candidate e.dailyState)

/-- `evaluate`. Source `joker/risk/governor.py:55–153`. -/
def evaluate (g : RiskGovernor F) (e : Evaluation F) : RiskGovernor F × RiskDecision :=
  let reasons := g.reasons A e
  let approved := reasons.isEmpty
  (if approved then
      { g with seenCandidates := insert e.candidate.candidateId g.seenCandidates }
    else g,
    { candidateId := e.candidate.candidateId
      approved := approved
      reasonCodes := reasons
      message :=
        if approved then "approved"
        else "rejected: " ++ ", ".intercalate (reasons.map RiskReasonCode.value)
      policy := g.policy })

end RiskGovernor
end

end Joker.Risk.Governor
