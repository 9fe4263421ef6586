import Mathlib.Algebra.Order.Field.Rat
import Joker.Base.Datetime
import Joker.Base.PyFloat

/-!
# Exit manager

Library `Execution`. The exits of an open trade, after `joker/execution/exit_manager.py`, in exact
arithmetic. Prices that reach an order keep their numeral. The exchange's time of day is an input
beside the clock, as the time zone data are outside the program.
-/

namespace Joker.Execution

open Joker.Base

/-- `OpenTradeContext`. Source `joker/execution/exit_manager.py:15–28`. -/
structure OpenTradeContext where
  positionId : String
  entryPrice : ℚ
  stopPrice : ℚ
  takeProfitPrice : ℚ
  entryTime : Datetime
  timeStopMinutes : Option ℤ
  invalidated : Bool
  quantity : ℤ
  reservedNotionalUsd : ℚ
  peakPremium : Option ℚ
  trailActive : Bool
  trailStopPrice : Option ℚ
  deriving DecidableEq

/-- `ExitReason`, of the paper exits. -/
inductive ExitReason where
  | stopLoss
  | takeProfit
  | timeStop
  | invalidation
  | endOfDay
  deriving DecidableEq, Repr

/-- `ExitDecision`, as far as the handler reads it. -/
structure ExitDecision where
  reason : ExitReason
  exitPrice : PyFloat
  deriving DecidableEq

/-- A reading of the clock, and the microseconds since midnight at the exchange. -/
structure ExchangeTime where
  now : Datetime
  timeOfDay : ℕ
  deriving DecidableEq

/-- `ExitManager`. Source `joker/execution/exit_manager.py:31–181`. -/
structure ExitManager where
  eodTime : ℕ
  trailActivateMfePct : ℚ
  trailGivebackPct : ℚ
  lateDayTightenMinutes : ℚ
  lateDayStopFloorPct : ℚ

namespace ExitManager

/-- The trailing stop once the trail is active; it is never loosened. -/
def raisedStop (manager : ExitManager) (ctx : OpenTradeContext) (peak : ℚ) : ℚ :=
  let floor := max ctx.stopPrice (peak * (1 - manager.trailGivebackPct))
  match ctx.trailStopPrice with
  | none => floor
  | some stop => max stop floor

/-- `update_trailing`. Source `joker/execution/exit_manager.py:70–98`. -/
def updateTrailing (manager : ExitManager) (ctx : OpenTradeContext) (currentPremium : ℚ) :
    OpenTradeContext :=
  let peak := max (ctx.peakPremium.getD ctx.entryPrice) currentPremium
  if 0 < ctx.entryPrice ∧
      manager.trailActivateMfePct ≤ (peak - ctx.entryPrice) / ctx.entryPrice then
    { ctx with
      peakPremium := some peak
      trailActive := true
      trailStopPrice := some (manager.raisedStop ctx peak) }
  else { ctx with peakPremium := some peak }

/-- `minutes_to_close`. Source `joker/execution/exit_manager.py:65–68`. -/
def minutesToClose (time : ExchangeTime) : ℤ := 16 * 60 - (time.timeOfDay / 60000000 : ℕ)

/-- The initial stop, raised by the trail. -/
def trailedStop (ctx : OpenTradeContext) : ℚ :=
  match ctx.trailStopPrice with
  | some stop => if ctx.trailActive then max ctx.stopPrice stop else ctx.stopPrice
  | none => ctx.stopPrice

/-- `effective_stop`. Source `joker/execution/exit_manager.py:100–112`. -/
def effectiveStop (manager : ExitManager) (ctx : OpenTradeContext) (time : ExchangeTime) : ℚ :=
  let stop := trailedStop ctx
  let minutes : ℚ := minutesToClose time
  if 0 ≤ minutes ∧ minutes ≤ manager.lateDayTightenMinutes ∧ 0 < ctx.entryPrice then
    max stop (ctx.entryPrice * (1 - manager.lateDayStopFloorPct))
  else stop

/-- The time stop has passed. A naive entry time counts as UTC. -/
def timeStopPassed (ctx : OpenTradeContext) (time : ExchangeTime) : Bool :=
  ctx.timeStopMinutes.any (fun minutes ↦
    (minutes : ℚ) ≤ ((time.now.instant - ctx.entryTime.instant : ℤ) : ℚ) / 60000000)

/-- `check_exit`. Source `joker/execution/exit_manager.py:114–171`. -/
def checkExit (manager : ExitManager) (ctx : OpenTradeContext) (currentPremium : PyFloat)
    (time : ExchangeTime) : Option ExitDecision :=
  if ctx.invalidated then some ⟨.invalidation, currentPremium⟩
  else if currentPremium.toRat ≤ manager.effectiveStop ctx time then
    some ⟨.stopLoss, currentPremium⟩
  else if ctx.takeProfitPrice ≤ currentPremium.toRat then some ⟨.takeProfit, currentPremium⟩
  else if timeStopPassed ctx time then some ⟨.timeStop, currentPremium⟩
  else if manager.eodTime ≤ time.timeOfDay then some ⟨.endOfDay, currentPremium⟩
  else none

/-- `stop_from_entry`. Source `joker/execution/exit_manager.py:174–176`. -/
def stopFromEntry (entryPrice stopPct : ℚ) : ℚ := max (1 / 100) (entryPrice * (1 - stopPct))

/-- `target_from_entry`. Source `joker/execution/exit_manager.py:179–181`. -/
def targetFromEntry (entryPrice targetPct : ℚ) : ℚ := entryPrice * (1 + targetPct)

/-- Trailing changes neither what is managed nor what is reserved for it. -/
theorem updateTrailing_frame (manager : ExitManager) (ctx : OpenTradeContext) (premium : ℚ) :
    (manager.updateTrailing ctx premium).quantity = ctx.quantity ∧
      (manager.updateTrailing ctx premium).reservedNotionalUsd = ctx.reservedNotionalUsd := by
  unfold updateTrailing
  simp only
  split <;> exact ⟨rfl, rfl⟩

end ExitManager
end Joker.Execution
