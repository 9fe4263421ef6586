import Joker.Ledger.ContextReplay

/-!
# Repeated fills of an order

Library `Ledger`. Several fill events of one order, each for all that was submitted, a quantity that
the context keeps. The first in replay order fills the order and moves the position; the clamp
leaves nothing for the others, whatever their prices.
-/

namespace Joker.Ledger

open Joker.Base

/-- What a position's model holds depends on the holding only. -/
theorem holding_toModel {pos pos' : PositionState} (h : pos.holding = pos'.holding) :
    pos.toModel.holding = pos'.toModel.holding := by
  obtain ⟨hquantity, havg, hpnl, hopen⟩ := Holding.mk.inj h
  unfold PositionState.toModel PositionState.holding
  simp only [hquantity, havg, hpnl, hopen]

variable [DecimalContext]

/-! ### One fill -/

/-- A fill for all of an order that has filled nothing is applied whole, at its price. -/
theorem accumulateFill_of_whole {order : OrderLifecycle} {qty : ℚ} (hq : 0 < qty) (hkept : Kept qty)
    (hsub : order.submittedQty = qty) (hfilled : order.filledQty = 0) (price : ℚ)
    (overfill : Bool) :
    accumulateFill order qty price overfill =
      ({ order with avgFillPrice := some price, filledQty := qty }, qty) := by
  have hrounded : rounded qty = qty := hkept
  unfold accumulateFill
  simp only [hsub, hfilled, sub_zero, zero_add, hrounded, min_self, ite_self, not_le.mpr hq,
    and_false, if_false, le_refl, if_true]
  cases order.avgFillPrice <;> rfl

/-- A fill without a licence leaves a full order as it is. -/
theorem accumulateFill_of_full {order : OrderLifecycle} {qty : ℚ} (hq : 0 < qty)
    (hsub : qty ≤ order.submittedQty) (hfull : order.submittedQty ≤ order.filledQty) (price : ℚ) :
    accumulateFill order qty price false = (order, 0) := by
  have hclamped : (!false && decide (0 < order.submittedQty)) = true := by
    simpa using hq.trans_le hsub
  unfold accumulateFill
  exact if_pos ⟨hclamped, rounded_nonpos_iff.mpr (sub_nonpos.mpr hfull)⟩

/-- A fill changes holdings as the quantity that it applies does. -/
theorem holding_applyFill_eq {e : LedgerEvent} {price : ℚ} (hp : e.price = some price)
    (hq : 0 < e.quantity) (t : Tables) (c : String) :
    ((applyFill e t).position c).holding =
      (ensurePosition c (applyFillToPosition e price
        (fillOrder e price (t.orders.get? e.clientOrderId)).2 t.positions)).holding := by
  unfold applyFill
  simp only [hp, not_le.mpr hq, if_false]
  by_cases ha : (fillOrder e price (t.orders.get? e.clientOrderId)).2 ≤ 0
  · rw [if_pos ha, holding_addFees]
    simp only [applyFillToPosition, ha, if_true]
    rfl
  · rw [if_neg ha, holding_addFees]
    rfl

private theorem order_next {r : Replay} {e : LedgerEvent} {known : OrderLifecycle}
    (hf : e.isFill = true) (hfresh : r.Fresh e)
    (hk : r.tables.orders.get? e.clientOrderId = some known) :
    ((r.next e).tables.orders.get? e.clientOrderId).map OrderLifecycle.feeless =
      (filledOrder e (some known)).map OrderLifecycle.feeless := by
  have hnext := feeless_next (notCorrection_of_fill hf) hfresh e.clientOrderId
  rwa [if_pos rfl, hk, orderAfter_of_fill hf] at hnext

/-! ### The first fill and the others -/

/-- Tables that count one fill of an order, at a price, on top of others: the order is filled
with what was submitted, at that price, and the position has moved by it. -/
structure CountsFill (e : LedgerEvent) (price : ℚ) (before after : Tables) : Prop where
  order : ∃ known, after.orders.get? e.clientOrderId = some known ∧
    known.submittedQty = e.quantity ∧ known.filledQty = e.quantity ∧
    (0 < e.quantity → known.avgFillPrice = some price)
  position : ∀ c, (after.position c).holding =
    (ensurePosition c (applyFillToPosition e price e.quantity before.positions)).holding

section Fills

variable {r : Replay} {e e' : LedgerEvent} {known : OrderLifecycle} {price : ℚ}
  {clientOrderId contractId : String} {side : Side}

private theorem countsFill_of_order {known' : OrderLifecycle} (he : e.isFill = true)
    (hfresh : r.Fresh e) (hk : r.tables.orders.get? e.clientOrderId = some known)
    (hfilled : filledOrder e (some known) = some known') (hsub : known'.submittedQty = e.quantity)
    (hqty : known'.filledQty = e.quantity) (hprice : 0 < e.quantity →
      known'.avgFillPrice = some price)
    (hposition : ∀ c, ((applyFill e r.tables).position c).holding =
      (ensurePosition c (applyFillToPosition e price e.quantity r.tables.positions)).holding) :
    CountsFill e price r.tables (r.next e).tables := by
  constructor
  · have hnext := order_next he hfresh hk
    rw [hfilled, Option.map_some] at hnext
    obtain ⟨order, ho, hsame⟩ := Option.map_eq_some_iff.mp hnext
    have hfeeless : order.submittedQty = known'.submittedQty ∧
        order.filledQty = known'.filledQty ∧ order.avgFillPrice = known'.avgFillPrice :=
      ⟨congrArg (fun o ↦ o.submittedQty) hsame, congrArg (fun o ↦ o.filledQty) hsame,
        congrArg (fun o ↦ o.avgFillPrice) hsame⟩
    exact ⟨order, ho, hfeeless.1.trans hsub, hfeeless.2.1.trans hqty,
      fun hq ↦ hfeeless.2.2.trans (hprice hq)⟩
  · intro c
    rw [tables_next_of_fill he hfresh]
    exact hposition c

/-- The first fill, for all of an order that has filled nothing, is counted. -/
theorem countsFill_first (he : e.IsFillOf clientOrderId contractId side)
    (hp : e.price = some price) (hfresh : r.Fresh e)
    (hk : r.tables.orders.get? clientOrderId = some known)
    (hsub : known.submittedQty = e.quantity) (hfilled : known.filledQty = 0)
    (hkept : Kept e.quantity) : CountsFill e price r.tables (r.next e).tables := by
  rw [← he.order] at hk
  rcases e.quantity_nonneg.eq_or_lt with hzero | hq
  · -- A fill of nothing is skipped.
    have hskipped : e.price = none ∨ e.quantity ≤ 0 := .inr hzero.symm.le
    apply countsFill_of_order he.fill hfresh hk (filledOrder_of_skipped hskipped _) hsub
      (hfilled.trans hzero)
    · exact fun hq ↦ absurd hzero hq.ne
    · intro c
      rw [applyFill_of_skipped hskipped]
      unfold applyFillToPosition
      rw [if_pos hzero.symm.le]
      rfl
  · have hfill : fillOrder e price (some known) =
        ({ known.noteBrokerOrderId e with
            avgFillPrice := some price
            filledQty := e.quantity }, e.quantity) :=
      accumulateFill_of_whole hq hkept ((submittedQty_noteBrokerOrderId known e).trans hsub)
        ((filledQty_noteBrokerOrderId known e).trans hfilled) price (allowOverfill e)
    have hafter : filledOrder e (some known) = some
        { known.noteBrokerOrderId e with
          avgFillPrice := some price
          filledQty := e.quantity
          status := fillStatus e (fillOrder e price (some known)).1 } := by
      rw [filledOrder_of_priced hp hq]
      simp only [hfill, not_le.mpr hq, if_false]
    apply countsFill_of_order he.fill hfresh hk hafter
      ((submittedQty_noteBrokerOrderId known e).trans hsub) rfl (fun _ ↦ rfl)
    intro c
    rw [holding_applyFill_eq hp hq, hk, hfill]

/-- A further fill of the order changes nothing that is counted. -/
theorem countsFill_again {before : Tables} (h : CountsFill e price before r.tables)
    (he : e.clientOrderId = clientOrderId) (he' : e'.IsFillOf clientOrderId contractId side)
    (hq : e'.quantity = e.quantity) : CountsFill e price before (r.next e').tables := by
  by_cases hfresh : r.Fresh e'
  · obtain ⟨known, hk, hsub, hfilled, hprice⟩ := h.order
    rw [he, ← he'.order] at hk
    obtain ⟨price', hp'⟩ := Option.ne_none_iff_exists'.mp he'.priced
    have hsame : ∃ order, filledOrder e' (some known) = some order ∧
        order.submittedQty = known.submittedQty ∧ order.filledQty = known.filledQty ∧
        order.avgFillPrice = known.avgFillPrice ∧ ∀ c,
          ((applyFill e' r.tables).position c).holding = (r.tables.position c).holding := by
      rcases e'.quantity_nonneg.eq_or_lt with hzero | hpos
      · refine ⟨known, filledOrder_of_skipped (.inr hzero.symm.le) _, rfl, rfl, rfl, fun c ↦ ?_⟩
        rw [applyFill_of_skipped (.inr hzero.symm.le)]
      · have hfill : fillOrder e' price' (some known) = (known.noteBrokerOrderId e', 0) := by
          have hsub' := submittedQty_noteBrokerOrderId known e'
          have hfilled' := filledQty_noteBrokerOrderId known e'
          unfold fillOrder
          rw [he'.capped]
          apply accumulateFill_of_full hpos
          · exact (hq.trans (hsub'.trans hsub).symm).le
          · exact (hsub'.trans (hsub.trans (hfilled'.trans hfilled).symm)).le
        refine ⟨known.noteBrokerOrderId e', ?_, submittedQty_noteBrokerOrderId known e',
          filledQty_noteBrokerOrderId known e', avgFillPrice_noteBrokerOrderId known e',
          fun c ↦ ?_⟩
        · rw [filledOrder_of_priced hp' hpos, hfill]
          exact if_pos (le_refl 0)
        · rw [holding_applyFill_eq hp' hpos, hk, hfill]
          simp only [applyFillToPosition, le_refl, if_true]
          rfl
    obtain ⟨order, horder, hsub', hfilled', hprice', hposition⟩ := hsame
    constructor
    · have hnext := order_next he'.fill hfresh hk
      rw [horder, Option.map_some, he'.order, ← he] at hnext
      obtain ⟨known', hk', hfeeless⟩ := Option.map_eq_some_iff.mp hnext
      have hfields : known'.submittedQty = order.submittedQty ∧
          known'.filledQty = order.filledQty ∧ known'.avgFillPrice = order.avgFillPrice :=
        ⟨congrArg (fun o ↦ o.submittedQty) hfeeless, congrArg (fun o ↦ o.filledQty) hfeeless,
          congrArg (fun o ↦ o.avgFillPrice) hfeeless⟩
      exact ⟨known', hk', hfields.1.trans (hsub'.trans hsub),
        hfields.2.1.trans (hfilled'.trans hfilled),
        fun hpos ↦ hfields.2.2.trans (hprice'.trans (hprice hpos))⟩
    · intro c
      rw [tables_next_of_fill he'.fill hfresh, hposition]
      exact h.position c
  · rw [next_of_not_fresh hfresh]
    exact h

end Fills

/-! ### Projections -/

private theorem resizePosition_toModel (pos : PositionState) (deltaQty price : ℚ) :
    resizePosition pos.toModel deltaQty price = resizePosition pos deltaQty price := by
  rcases pos with ⟨contractId, quantity, avg, realizedPnl, fees, isOpen, positionId⟩
  cases avg with
  | none => rfl
  | some avg =>
    unfold resizePosition PositionState.toModel
    simp only

private theorem realize_toModel (pos : PositionState) (closeQty price : ℚ) :
    realize pos.toModel closeQty price =
      { realize pos closeQty price with isOpen := pos.toModel.isOpen } := by
  rcases pos with ⟨contractId, quantity, avg, realizedPnl, fees, isOpen, positionId⟩
  cases avg with
  | none => rfl
  | some avg =>
    unfold realize PositionState.toModel
    simp only
    split <;> rfl

/-- Filling does not look at the open flag that a projection settles. -/
theorem fillPosition_toModel (e : LedgerEvent) (price qty : ℚ) (pos : PositionState) :
    fillPosition e price qty pos.toModel = fillPosition e price qty pos := by
  have hquantity : pos.toModel.quantity = pos.quantity := rfl
  unfold fillPosition
  simp only [hquantity, resizePosition_toModel, realize_toModel]
  by_cases hq : pos.quantity = 0
  · simp only [hq, if_true]
    rfl
  · simp only [hq, if_false]
    split
    · rfl
    · split <;> rfl

/-- A filled position is open exactly when it holds a quantity. -/
theorem toModel_fillPosition (e : LedgerEvent) (price : ℚ) {qty : ℚ} (hqty : 0 < qty)
    (pos : PositionState) :
    (fillPosition e price qty pos).toModel = fillPosition e price qty pos := by
  have hsigned : e.side.signedDecimal qty ≠ 0 := by
    cases e.side with
    | buy => exact hqty.ne'
    | sell => exact rounded_ne_zero (neg_ne_zero.mpr hqty.ne')
  unfold PositionState.toModel fillPosition resizePosition
  simp only
  split
  · simp [hsigned]
  · split
    · cases pos.avgPrice with
      | none => simp
      | some avg =>
        simp only
        split <;> simp
    · simp

/-- Projecting keeps what a fill made of the positions. -/
theorem toModel_applyFillToPosition (e : LedgerEvent) (price qty : ℚ)
    (positions : Dict String PositionState) (c : String) :
    (ensurePosition c (applyFillToPosition e price qty positions)).toModel =
      ensurePosition c (applyFillToPosition e price qty (frozenPositions positions)) := by
  have hfrozen (k : String) :
      ensurePosition k (frozenPositions positions) = (ensurePosition k positions).toModel := by
    unfold ensurePosition
    rw [get?_frozenPositions]
    cases positions.get? k <;> rfl
  unfold applyFillToPosition
  by_cases hq : qty ≤ 0
  · rw [if_pos hq, if_pos hq, hfrozen]
  · rw [if_neg hq, if_neg hq, hfrozen, fillPosition_toModel]
    by_cases hc : e.contractId = c
    · subst hc
      unfold ensurePosition
      rw [Dict.get?_set_self, Dict.get?_set_self]
      exact toModel_fillPosition e price (not_le.mp hq) _
    · have hset (ps : Dict String PositionState) (pos : PositionState) :
          ensurePosition c (ps.set e.contractId pos) = ensurePosition c ps := by
        unfold ensurePosition
        rw [Dict.get?_set_ne _ _ hc]
      rw [hset, hset, hfrozen]

/-- A kept fill of a position settles its quantity. -/
theorem quantity_applyFillToPosition_of_kept (e : LedgerEvent) (price : ℚ) {qty : ℚ}
    (hqty : 0 ≤ qty) (positions : Dict String PositionState)
    (h : KeepsPosition (ensurePosition e.contractId positions).quantity e.side qty) :
    (ensurePosition e.contractId (applyFillToPosition e price qty positions)).quantity =
      CostAccount.settle (ensurePosition e.contractId positions).quantity
        (e.side.signed qty) := by
  unfold applyFillToPosition
  by_cases hq : qty ≤ 0
  · rw [if_pos hq, le_antisymm hq hqty, signed_zero, CostAccount.settle_zero]
  · rw [if_neg hq, ← quantity_fillPosition_of_kept (e := e) h]
    unfold ensurePosition
    rw [Dict.get?_set_self, Option.getD_some]

end Joker.Ledger
