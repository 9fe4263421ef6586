import Mathlib.Data.Rat.Floor
import Joker.Base.Datetime

/-!
# Freshness of quotes

Library `Data`. `evaluate_quote_freshness` of `joker/data/freshness.py`: a real-time quote may not
be old, a delayed one must be allowed, come from a feed that is not silent, and not be too old.
-/

namespace Joker.Data

open Joker.Base

/-- What the freshness policy does with a `float`: `(a - b).total_seconds()` of aware timestamps,
and whether a `float` is greater than an `int`. -/
structure AgeArith (F : Type) where
  secondsBetween : Datetime → Datetime → F
  exceeds : F → ℤ → Bool

/-- Ages in exact seconds. -/
def AgeArith.exact : AgeArith ℚ where
  secondsBetween a b := ((a.instant - b.instant : ℤ) : ℚ) / 1000000
  exceeds age limit := decide ((limit : ℚ) < age)

/-- `FreshnessConfig`. Source `joker/data/freshness.py:18–22`. -/
structure FreshnessConfig where
  quoteMaxAgeSeconds : ℤ := 30
  feedMaxSilenceSeconds : ℤ := 60
  delayedQuoteMaxAgeSeconds : ℤ := 900
  allowDelayedQuotes : Bool := true
  deriving DecidableEq, Repr

/-- The reasons of a verdict. -/
inductive FreshnessReason where
  | delayedNotAllowed
  | feedSilent
  | staleQuote
  deriving DecidableEq, Repr

/-- The text of a reason. -/
def FreshnessReason.value : FreshnessReason → String
  | .delayedNotAllowed => "DELAYED_NOT_ALLOWED"
  | .feedSilent => "FEED_SILENT"
  | .staleQuote => "STALE_QUOTE"

/-- `FreshnessVerdict`. Source `joker/data/freshness.py:26–31`. -/
structure FreshnessVerdict (F : Type) where
  ok : Bool
  reason : Option FreshnessReason
  exchangeAgeSeconds : F
  receiveAgeSeconds : Option F
  delayed : Bool
  deriving DecidableEq, Repr

/-- `_aware`: a naive timestamp is taken as UTC. Source `joker/data/freshness.py:34–35`. -/
def awareUtc (ts : Datetime) : Datetime := if ts.aware then ts else { ts with utcoffset := some 0 }

section

variable {F : Type} (A : AgeArith F) (quoteTimestamp referenceTime : Datetime) (delayed : Bool)
  (receivedAt : Option Datetime) (config : Option FreshnessConfig)

/-- `evaluate_quote_freshness`. Source `joker/data/freshness.py:38–100`. -/
def evaluateQuoteFreshness : FreshnessVerdict F :=
  let cfg := config.getD {}
  let ref := awareUtc referenceTime
  let exchangeAge := A.secondsBetween ref (awareUtc quoteTimestamp)
  let receiveAge := receivedAt.map (fun received ↦ A.secondsBetween ref (awareUtc received))
  if delayed && !cfg.allowDelayedQuotes then
    ⟨false, some .delayedNotAllowed, exchangeAge, receiveAge, true⟩
  else if delayed && cfg.allowDelayedQuotes then
    if receiveAge.any (fun age ↦ A.exceeds age cfg.feedMaxSilenceSeconds) then
      ⟨false, some .feedSilent, exchangeAge, receiveAge, true⟩
    else if A.exceeds exchangeAge cfg.delayedQuoteMaxAgeSeconds then
      ⟨false, some .staleQuote, exchangeAge, receiveAge, true⟩
    else ⟨true, none, exchangeAge, receiveAge, true⟩
  else if A.exceeds exchangeAge cfg.quoteMaxAgeSeconds then
    ⟨false, some .staleQuote, exchangeAge, receiveAge, false⟩
  else ⟨true, none, exchangeAge, receiveAge, false⟩

end

end Joker.Data
