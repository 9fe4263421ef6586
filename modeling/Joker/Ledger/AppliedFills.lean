import Joker.Base.AverageCost
import Joker.Ledger.Replay

/-!
# What a fill applies

Library `Ledger`. The quantity that a fill applies to its order in exact arithmetic. The position of
its contract settles that quantity.
-/

namespace Joker.Ledger

open Joker.Base CostAccount
open scoped ExactArithmetic

/-- A fill with a price for an order on a contract, without a licence to overfill. -/
structure LedgerEvent.IsFillOf (e : LedgerEvent) (clientOrderId contractId : String) (side : Side) :
    Prop where
  fill : e.isFill = true
  priced : e.price ≠ none
  capped : allowOverfill e = false
  order : e.clientOrderId = clientOrderId
  contract : e.contractId = contractId
  direction : e.side = side

/-- The fill branch settles the quantity. -/
theorem quantity_fillPosition (e : LedgerEvent) (price qty : ℚ) (pos : PositionState) :
    (fillPosition e price qty pos).quantity = settle pos.quantity (e.side.signed qty) := by
  have htrade := quantity_trade (⟨pos.quantity, 0, 0⟩ : CostAccount ℚ) (e.side.signed qty) price
  change _ = settle pos.quantity _ at htrade
  rw [← htrade]
  unfold fillPosition trade
  simp only [rounded_exact, signedDecimal_exact]
  by_cases hq : pos.quantity = 0
  · simp [hq]
  · simp only [hq, if_false, false_or]
    split
    · unfold resizePosition
      cases pos.avgPrice with
      | none => rfl
      | some avg => simp [hq]
    · by_cases hc : 0 < min |pos.quantity| |e.side.signed qty| <;> simp [hc]

/-- Positions with one holding have one quantity. -/
theorem quantity_of_holding {p p' : PositionState} (h : p.holding = p'.holding) :
    p.quantity = p'.quantity := congrArg (fun h : Holding ↦ h.quantity) h

/-- Nothing has no sign. -/
theorem signed_zero (side : Side) : side.signed 0 = 0 := by cases side <;> simp [Side.signed]

/-- The quantity a fill event applies to its order. -/
def appliedQty (e : LedgerEvent) (found : Option OrderLifecycle) : ℚ :=
  match e.price with
  | none => 0
  | some price => if e.quantity ≤ 0 then 0 else (fillOrder e price found).2

/-- A fill with a price and a quantity applies what its order takes. -/
theorem appliedQty_of_priced {e : LedgerEvent} {price : ℚ} (hp : e.price = some price)
    (hq : 0 < e.quantity) (found : Option OrderLifecycle) :
    appliedQty e found = (fillOrder e price found).2 := by
  unfold appliedQty
  rw [hp]
  exact if_neg (not_le.mpr hq)

/-- A fill without a price or without a quantity applies nothing. -/
theorem appliedQty_of_skipped {e : LedgerEvent} (h : e.price = none ∨ e.quantity ≤ 0)
    (found : Option OrderLifecycle) : appliedQty e found = 0 := by
  unfold appliedQty
  cases hp : e.price with
  | none => rfl
  | some price => exact if_pos (h.resolve_left (hp ▸ nofun))

/-- What is applied of a fill is never negative. -/
theorem appliedQty_nonneg (e : LedgerEvent) (found : Option OrderLifecycle) :
    0 ≤ appliedQty e found := by
  unfold appliedQty
  cases e.price with
  | none => exact le_refl 0
  | some price =>
    simp only
    split
    · exact le_refl 0
    · exact applied_nonneg _ _ _ _

/-- A fill settles its contract's position by the quantity it applies. -/
theorem quantity_applyFill (e : LedgerEvent) (t : Tables) (c : String) :
    ((applyFill e t).position c).quantity =
      if e.contractId = c then settle (t.position c).quantity
        (e.side.signed (appliedQty e (t.orders.get? e.clientOrderId)))
      else (t.position c).quantity := by
  by_cases hs : e.price = none ∨ e.quantity ≤ 0
  · rw [applyFill_of_skipped hs, appliedQty_of_skipped hs, signed_zero, settle_zero, ite_self]
  · push Not at hs
    obtain ⟨price, hp⟩ := Option.ne_none_iff_exists'.mp hs.1
    have hholding := quantity_of_holding
      ((holding_applyFill_of_priced hp hs.2 t c).trans (apply_ite _ _ _ _).symm)
    rw [hholding, apply_ite PositionState.quantity, quantity_fillPosition,
      ← appliedQty_of_priced hp hs.2]
    rcases (appliedQty_nonneg e (t.orders.get? e.clientOrderId)).eq_or_lt with hzero | hpos
    · rw [← hzero, signed_zero, settle_zero, ite_self, ite_self]
    · simp only [hpos, true_and]

private theorem applied_of_room {e : LedgerEvent} {order : OrderLifecycle} {price : ℚ}
    (hov : allowOverfill e = false) (hq : 0 < e.quantity)
    (hroom : order.filledQty + e.quantity ≤ order.submittedQty) :
    (fillOrder e price (some order)).2 = e.quantity := by
  unfold fillOrder
  rw [applied_accumulateFill, filledQty_noteBrokerOrderId, submittedQty_noteBrokerOrderId, hov]
  change (if false = false ∧ 0 < order.submittedQty
    then max 0 (min e.quantity (order.submittedQty - order.filledQty)) else _) = _
  split
  · rw [min_eq_left (le_sub_iff_add_le'.mpr hroom), max_eq_right hq.le]
  · exact max_eq_right hq.le

/-- A fill within the submitted quantity is applied in full. -/
theorem appliedQty_of_room {e : LedgerEvent} {clientOrderId contractId : String} {side : Side}
    {order : OrderLifecycle} (he : e.IsFillOf clientOrderId contractId side)
    (hroom : order.filledQty + e.quantity ≤ order.submittedQty) :
    appliedQty e (some order) = e.quantity := by
  obtain ⟨price, hp⟩ := Option.ne_none_iff_exists'.mp he.priced
  unfold appliedQty
  rw [hp]
  rcases e.quantity_nonneg.eq_or_lt with hz | hq
  · exact (if_pos hz.symm.le).trans hz
  · exact (if_neg (not_le.mpr hq)).trans (applied_of_room he.capped hq hroom)

end Joker.Ledger
