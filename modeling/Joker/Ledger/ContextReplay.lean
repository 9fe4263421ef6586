import Joker.Ledger.AppliedFills

/-!
# Replay in a context

Library `Ledger`. The code replays in a decimal context and the ledger is meant exactly. Where the
context keeps the quantities that a fill forms, both replays agree on the quantities of all orders
and positions, whatever is rounded in prices, fees and realised P&L.
-/

namespace Joker.Ledger

open Joker.Base CostAccount

/-- A turn in exact arithmetic. -/
abbrev Replay.exactNext : Replay → LedgerEvent → Replay := @Replay.next ExactArithmetic.context

/-! ### Agreement -/

/-- An order without its average price and its fees. -/
def OrderLifecycle.unpriced (order : OrderLifecycle) : OrderLifecycle :=
  { order with avgFillPrice := none, fees := 0 }

/-- Loop states that have met the same events and whose orders agree, prices and fees apart. -/
structure Replay.SameOrders (r r' : Replay) : Prop where
  orders : ∀ k, (r.tables.orders.get? k).map OrderLifecycle.unpriced =
    (r'.tables.orders.get? k).map OrderLifecycle.unpriced
  ids : r.seenIds = r'.seenIds
  keys : r.seenKeys = r'.seenKeys

/-- Loop states that hold the same quantities. -/
def Replay.SamePositions (r r' : Replay) : Prop :=
  ∀ c, (r.tables.position c).quantity = (r'.tables.position c).quantity

/-- A loop state agrees with itself. -/
theorem Replay.SameOrders.refl (r : Replay) : r.SameOrders r := ⟨fun _ ↦ rfl, rfl, rfl⟩

/-- Loop states that agree call the same events fresh. -/
theorem fresh_iff_of_sameOrders {r r' : Replay} (h : r.SameOrders r') (e : LedgerEvent) :
    r.Fresh e ↔ r'.Fresh e := by
  unfold Replay.Fresh
  rw [h.ids, h.keys]

/-! ### Kept quantities -/

section Context

variable [DecimalContext]

/-- The context keeps what a fill makes of its order: what the order lacks, where the fill is
clamped to it, and what the order has filled afterwards. -/
def KeepsOrder (e : LedgerEvent) (found : Option OrderLifecycle) : Prop :=
  (allowOverfill e = false ∧ 0 < (ensureOrder e found).submittedQty →
    Kept ((ensureOrder e found).submittedQty - (ensureOrder e found).filledQty)) ∧
  Kept ((ensureOrder e found).filledQty + appliedQty e found)

/-- The context keeps what a fill makes of a position: the quantity it applies, where that is sold
or meets a holding, and what is held before and afterwards. -/
def KeepsPosition (held : ℚ) (side : Side) (applied : ℚ) : Prop :=
  (side = .sell ∨ held ≠ 0 → Kept applied) ∧
  (held ≠ 0 → Kept held ∧ Kept (settle held (side.signed applied)))

/-- A fill that is not a duplicate and has a price and a quantity. -/
def Counts (st : ProjectionState) (e : LedgerEvent) : Prop :=
  e.ledgerEventId ∉ st.seenEventIds ∧ e.idempotencyKey ∉ st.seenIdempotencyKeys ∧
    e.isFill = true ∧ e.price ≠ none ∧ 0 < e.quantity

/-- What a fill makes of its order is kept. -/
def KeepsOrderSums (st : ProjectionState) (e : LedgerEvent) : Prop :=
  Counts st e → KeepsOrder e (st.orders.get? e.clientOrderId)

/-- What a fill makes of its order and of its position is kept. -/
def KeepsSums (st : ProjectionState) (e : LedgerEvent) : Prop :=
  Counts st e → KeepsOrder e (st.orders.get? e.clientOrderId) ∧
    KeepsPosition (st.position e.contractId).quantity e.side
      (appliedQty e (st.orders.get? e.clientOrderId))

instance (e : LedgerEvent) (found : Option OrderLifecycle) : Decidable (KeepsOrder e found) :=
  inferInstanceAs (Decidable (_ ∧ _))

instance (held : ℚ) (side : Side) (applied : ℚ) : Decidable (KeepsPosition held side applied) :=
  inferInstanceAs (Decidable (_ ∧ _))

instance (st : ProjectionState) (e : LedgerEvent) : Decidable (Counts st e) :=
  inferInstanceAs (Decidable (_ ∧ _))

instance (st : ProjectionState) (e : LedgerEvent) : Decidable (KeepsOrderSums st e) :=
  inferInstanceAs (Decidable (_ → _))

instance (st : ProjectionState) (e : LedgerEvent) : Decidable (KeepsSums st e) :=
  inferInstanceAs (Decidable (_ → _))

/-! ### Orders -/

private theorem accumulateFill_of_kept {order : OrderLifecycle} {qty price : ℚ} {overfill : Bool}
    (hlacking : overfill = false ∧ 0 < order.submittedQty →
      Kept (order.submittedQty - order.filledQty))
    (hfilled : Kept (order.filledQty +
      (@accumulateFill ExactArithmetic.context order qty price overfill).2)) :
    ∃ avg, accumulateFill order qty price overfill =
      ({ order with
          filledQty := order.filledQty +
            (@accumulateFill ExactArithmetic.context order qty price overfill).2
          avgFillPrice := avg },
        (@accumulateFill ExactArithmetic.context order qty price overfill).2) := by
  generalize happlied :
    (@accumulateFill ExactArithmetic.context order qty price overfill).2 = applied at hfilled ⊢
  rw [applied_accumulateFill] at happlied
  have hnone : applied = 0 → ∃ avg, ((order, 0) : OrderLifecycle × ℚ) =
      ({ order with filledQty := order.filledQty + applied, avgFillPrice := avg }, applied) := by
    rintro rfl
    exact ⟨order.avgFillPrice, by rw [add_zero]⟩
  unfold accumulateFill
  by_cases hc : overfill = false ∧ 0 < order.submittedQty
  · rw [if_pos hc] at happlied
    have hroom : rounded (order.submittedQty - order.filledQty) =
        order.submittedQty - order.filledQty := hlacking hc
    simp only [hc.1, hc.2, decide_true, Bool.not_false, Bool.and_self, true_and, if_true, hroom]
    by_cases hr : order.submittedQty - order.filledQty ≤ 0
    · rw [if_pos hr]
      exact hnone (by rw [← happlied, max_eq_left ((min_le_right _ _).trans hr)])
    · rw [if_neg hr]
      by_cases ha : min qty (order.submittedQty - order.filledQty) ≤ 0
      · rw [if_pos ha]
        exact hnone (by rw [← happlied, max_eq_left ha])
      · rw [max_eq_right (not_le.mp ha).le] at happlied
        rw [if_neg ha, happlied]
        exact ⟨_, by rw [show rounded (order.filledQty + applied) = _ from hfilled]⟩
  · have hn : (!overfill && decide (0 < order.submittedQty)) = false := by
      cases overfill
      · simpa using hc
      · rfl
    rw [if_neg hc] at happlied
    simp only [hn, Bool.false_eq_true, false_and, if_false]
    by_cases ha : qty ≤ 0
    · rw [if_pos ha]
      exact hnone (by rw [← happlied, max_eq_left ha])
    · rw [max_eq_right (not_le.mp ha).le] at happlied
      rw [if_neg ha, happlied]
      exact ⟨_, by rw [show rounded (order.filledQty + applied) = _ from hfilled]⟩

/-- A kept fill leaves its order with the applied quantity more. -/
theorem fillOrder_of_kept {e : LedgerEvent} {price : ℚ} (hp : e.price = some price)
    (hq : 0 < e.quantity) {found : Option OrderLifecycle} (h : KeepsOrder e found) :
    ∃ avg, fillOrder e price found =
      ({ (ensureOrder e found).noteBrokerOrderId e with
          filledQty := ((ensureOrder e found).noteBrokerOrderId e).filledQty + appliedQty e found
          avgFillPrice := avg },
        appliedQty e found) := by
  obtain ⟨hlacking, hsum⟩ := h
  rw [appliedQty_of_priced hp hq] at hsum ⊢
  rw [← filledQty_noteBrokerOrderId _ e] at hsum hlacking
  rw [← submittedQty_noteBrokerOrderId _ e] at hlacking
  exact accumulateFill_of_kept hlacking hsum

end Context

private theorem unpriced_noteBrokerOrderId (order : OrderLifecycle) (e : LedgerEvent) :
    order.unpriced.noteBrokerOrderId e = (order.noteBrokerOrderId e).unpriced := by
  unfold OrderLifecycle.noteBrokerOrderId
  rw [apply_ite OrderLifecycle.unpriced]
  rfl

private theorem unpriced_ensureOrder (e : LedgerEvent) (found : Option OrderLifecycle) :
    ensureOrder e (found.map OrderLifecycle.unpriced) = (ensureOrder e found).unpriced := by
  cases found <;> rfl

/-- An order takes a status unless it has one of some. -/
private def takeStatus (kept : List OrderStatus) (status : OrderStatus) (order : OrderLifecycle) :
    OrderLifecycle :=
  if order.status ∈ kept then order else { order with status := status }

private theorem unpriced_takeStatus (kept : List OrderStatus) (status : OrderStatus)
    (order : OrderLifecycle) :
    takeStatus kept status order.unpriced = (takeStatus kept status order).unpriced := by
  unfold takeStatus
  rw [apply_ite OrderLifecycle.unpriced]
  rfl

private theorem unpriced_submitOrder (e : LedgerEvent) (found : Option OrderLifecycle) :
    submitOrder e (found.map OrderLifecycle.unpriced) = (submitOrder e found).unpriced := by
  cases found with
  | none => rfl
  | some order =>
    have hsubmit (o : OrderLifecycle) : submitOrder e (some o) =
        takeStatus [.filled, .cancelled, .rejected] .submitted
          (OrderLifecycle.noteBrokerOrderId { o with
            submittedQty := e.quantity
            side := e.side
            contractId := e.contractId } e) := rfl
    rw [Option.map_some, hsubmit, hsubmit, ← unpriced_takeStatus, ← unpriced_noteBrokerOrderId]
    rfl

private theorem unpriced_acceptOrder (e : LedgerEvent) (found : Option OrderLifecycle) :
    acceptOrder e (found.map OrderLifecycle.unpriced) = (acceptOrder e found).unpriced := by
  have haccept (o : Option OrderLifecycle) : acceptOrder e o =
      takeStatus [.filled, .cancelled, .rejected, .partiallyFilled] .accepted
        (if 0 < e.quantity ∧ ((ensureOrder e o).noteBrokerOrderId e).submittedQty = 0
          then { (ensureOrder e o).noteBrokerOrderId e with submittedQty := e.quantity }
          else (ensureOrder e o).noteBrokerOrderId e) := rfl
  rw [haccept, haccept, ← unpriced_takeStatus, unpriced_ensureOrder, unpriced_noteBrokerOrderId,
    apply_ite OrderLifecycle.unpriced]
  rfl

private theorem unpriced_cancelOrder (e : LedgerEvent) (found : Option OrderLifecycle) :
    cancelOrder e (found.map OrderLifecycle.unpriced) = (cancelOrder e found).unpriced := by
  have hcancel (o : Option OrderLifecycle) :
      cancelOrder e o = takeStatus [.filled, .rejected] .cancelled (ensureOrder e o) := rfl
  rw [hcancel, hcancel, unpriced_ensureOrder, unpriced_takeStatus]

private theorem unpriced_rejectOrder (e : LedgerEvent) (found : Option OrderLifecycle) :
    rejectOrder e (found.map OrderLifecycle.unpriced) = (rejectOrder e found).unpriced := by
  have hreject (o : Option OrderLifecycle) :
      rejectOrder e o = takeStatus [.filled, .cancelled] .rejected (ensureOrder e o) := rfl
  rw [hreject, hreject, unpriced_ensureOrder, unpriced_takeStatus]

private theorem appliedQty_unpriced (e : LedgerEvent) (found : Option OrderLifecycle) :
    appliedQty e (found.map OrderLifecycle.unpriced) = appliedQty e found := by
  by_cases hs : e.price = none ∨ e.quantity ≤ 0
  · rw [appliedQty_of_skipped hs, appliedQty_of_skipped hs]
  · push Not at hs
    obtain ⟨price, hp⟩ := Option.ne_none_iff_exists'.mp hs.1
    rw [appliedQty_of_priced hp hs.2, appliedQty_of_priced hp hs.2]
    unfold fillOrder
    rw [unpriced_ensureOrder, unpriced_noteBrokerOrderId, applied_accumulateFill,
      applied_accumulateFill]
    rfl

/-- In loop states that agree a fill applies the same. -/
theorem appliedQty_of_sameOrders {r r' : Replay} (h : r.SameOrders r') (e : LedgerEvent) :
    appliedQty e (r.tables.orders.get? e.clientOrderId) =
      appliedQty e (r'.tables.orders.get? e.clientOrderId) := by
  rw [← appliedQty_unpriced, h.orders, appliedQty_unpriced]

section Context

variable [DecimalContext]

private theorem unpriced_filledOrder {e : LedgerEvent} {found found' : Option OrderLifecycle}
    (h : found.map OrderLifecycle.unpriced = found'.map OrderLifecycle.unpriced)
    (hkept : e.price ≠ none → 0 < e.quantity → KeepsOrder e found) :
    (filledOrder e found).map OrderLifecycle.unpriced =
      (@filledOrder ExactArithmetic.context e found').map OrderLifecycle.unpriced := by
  unfold filledOrder
  cases hp : e.price with
  | none => exact h
  | some price =>
    rcases le_or_gt e.quantity 0 with hq | hq
    · simp only [hq, if_true]
      exact h
    · simp only [not_le.mpr hq, if_false]
      have hnoted : ((ensureOrder e found).noteBrokerOrderId e).unpriced =
          ((ensureOrder e found').noteBrokerOrderId e).unpriced := by
        rw [← unpriced_noteBrokerOrderId, ← unpriced_noteBrokerOrderId, ← unpriced_ensureOrder,
          ← unpriced_ensureOrder, h]
      have happlied : appliedQty e found = appliedQty e found' := by
        rw [← appliedQty_unpriced, h, appliedQty_unpriced]
      obtain ⟨avg, hfill⟩ := fillOrder_of_kept hp hq (hkept (hp ▸ nofun) hq)
      obtain ⟨avg', hfill'⟩ := @accumulateFill_order ExactArithmetic.context
        ((ensureOrder e found').noteBrokerOrderId e) e.quantity price (allowOverfill e)
      rw [filledQty_accumulateFill] at hfill'
      have hqty' := appliedQty_of_priced hp hq found'
      have hfilled := congrArg (·.filledQty) hnoted
      change ((ensureOrder e found).noteBrokerOrderId e).filledQty =
        ((ensureOrder e found').noteBrokerOrderId e).filledQty at hfilled
      have hsame : (fillOrder e price found).1.unpriced =
          (@fillOrder ExactArithmetic.context e price found').1.unpriced := by
        unfold fillOrder at hqty' ⊢
        rw [hfill', ← hqty', ← happlied, ← hfilled]
        unfold fillOrder at hfill
        rw [hfill]
        generalize ((ensureOrder e found).noteBrokerOrderId e).filledQty + _ = filledQty
        exact congrArg (fun o : OrderLifecycle ↦ { o with filledQty := filledQty }) hnoted
      have hstatus := congrArg (fillStatus e) hsame
      rw [congrArg Prod.snd hfill, ← hqty', happlied]
      split
      · exact congrArg some hsame
      · exact congrArg some (congrArg₂
          (fun (o : OrderLifecycle) status ↦ { o with status := status }) hsame hstatus)

private theorem unpriced_orderAfter {e : LedgerEvent} {found found' : Option OrderLifecycle}
    (h : found.map OrderLifecycle.unpriced = found'.map OrderLifecycle.unpriced)
    (hkept : e.isFill = true → e.price ≠ none → 0 < e.quantity → KeepsOrder e found) :
    (orderAfter e found).map OrderLifecycle.unpriced =
      (@orderAfter ExactArithmetic.context e found').map OrderLifecycle.unpriced := by
  have hboth {f : Option OrderLifecycle → OrderLifecycle}
      (hf : ∀ o, f (o.map OrderLifecycle.unpriced) = (f o).unpriced) :
      (some (f found)).map OrderLifecycle.unpriced =
        (some (f found')).map OrderLifecycle.unpriced := by
    rw [Option.map_some, Option.map_some, ← hf, ← hf, h]
  unfold LedgerEvent.isFill at hkept
  unfold orderAfter
  cases he : e.eventType with
  | orderSubmissionRequested => exact hboth (unpriced_submitOrder e)
  | brokerOrderAccepted => exact hboth (unpriced_acceptOrder e)
  | partialFill => exact unpriced_filledOrder h (hkept (by rw [he]; rfl))
  | finalFill => exact unpriced_filledOrder h (hkept (by rw [he]; rfl))
  | cancellation => exact hboth (unpriced_cancelOrder e)
  | rejection => exact hboth (unpriced_rejectOrder e)
  | _ => exact h

/-! ### Positions -/

private theorem quantity_resizePosition (pos : PositionState) (deltaQty price : ℚ) :
    (resizePosition pos deltaQty price).quantity = rounded (pos.quantity + deltaQty) := by
  unfold resizePosition
  cases pos.avgPrice with
  | none => rfl
  | some avg =>
    simp only
    split <;> rfl

private theorem quantity_realizeIf (pos : PositionState) (closeQty price : ℚ) :
    (if 0 < closeQty then realize pos closeQty price else pos).quantity = pos.quantity := by
  split
  · exact quantity_realize pos closeQty price
  · rfl

/-- A kept fill of a position settles its quantity. -/
theorem quantity_fillPosition_of_kept {e : LedgerEvent} {price qty : ℚ}
    {pos : PositionState} (h : KeepsPosition pos.quantity e.side qty) :
    (fillPosition e price qty pos).quantity = settle pos.quantity (e.side.signed qty) := by
  have hsigned : e.side.signedDecimal qty = e.side.signed qty := by
    cases hs : e.side with
    | buy => rfl
    | sell => exact kept_neg (h.1 (.inl hs))
  have hexact := quantity_fillPosition e price qty pos
  unfold fillPosition at hexact ⊢
  simp only [rounded_exact, signedDecimal_exact, hsigned] at hexact ⊢
  by_cases hq : pos.quantity = 0
  · simp only [hq, if_true] at hexact ⊢
    exact hexact
  · obtain ⟨hheld, hsettled⟩ := h.2 hq
    have hmoved : rounded |e.side.signed qty| = |e.side.signed qty| := by
      have hkept := kept_abs (h.1 (.inr hq))
      cases e.side with
      | buy => exact hkept
      | sell => exact (abs_neg qty).symm ▸ hkept
    have habs : rounded |pos.quantity| = |pos.quantity| := kept_abs hheld
    unfold Kept at hsettled
    simp only [hq, if_false, habs, hmoved] at hexact ⊢
    split
    · next hsame =>
      rw [if_pos hsame, @quantity_resizePosition ExactArithmetic.context, rounded_exact] at hexact
      rw [quantity_resizePosition, hexact, hsettled]
    · next hopposite =>
      rw [if_neg hopposite] at hexact
      simp only [quantity_realizeIf] at hexact ⊢
      rw [← hsettled, ← hexact]
      split <;> rfl

/-- A kept fill settles its contract's position by the quantity it applies. -/
theorem quantity_applyFill_of_kept {e : LedgerEvent} {t : Tables}
    (h : e.price ≠ none → 0 < e.quantity → KeepsOrder e (t.orders.get? e.clientOrderId) ∧
      KeepsPosition (t.position e.contractId).quantity e.side
        (appliedQty e (t.orders.get? e.clientOrderId))) (c : String) :
    ((applyFill e t).position c).quantity =
      if e.contractId = c then settle (t.position c).quantity
        (e.side.signed (appliedQty e (t.orders.get? e.clientOrderId)))
      else (t.position c).quantity := by
  by_cases hs : e.price = none ∨ e.quantity ≤ 0
  · rw [applyFill_of_skipped hs, appliedQty_of_skipped hs, signed_zero, settle_zero, ite_self]
  · push Not at hs
    obtain ⟨price, hp⟩ := Option.ne_none_iff_exists'.mp hs.1
    obtain ⟨horder, hposition⟩ := h hs.1 hs.2
    obtain ⟨avg, hfill⟩ := fillOrder_of_kept hp hs.2 horder
    have hholding := quantity_of_holding
      ((holding_applyFill_of_priced hp hs.2 t c).trans (apply_ite _ _ _ _).symm)
    rw [hholding, apply_ite PositionState.quantity, congrArg Prod.snd hfill]
    rcases (appliedQty_nonneg e (t.orders.get? e.clientOrderId)).eq_or_lt with hzero | hpos
    · rw [← hzero, signed_zero, settle_zero]
      simp only [lt_self_iff_false, false_and, if_false, ite_self]
    · simp only [hpos, true_and]
      split
      · next hc => rw [← hc, quantity_fillPosition_of_kept hposition]
      · rfl

/-! ### Steps -/

/-- What a fresh fill makes of its order and of its position is kept in the tables, where it is kept
in the projection. -/
theorem KeepsSums.of_freeze {r : Replay} {e : LedgerEvent} (h : KeepsSums r.freeze e)
    (hf : r.Fresh e) (hfill : e.isFill = true) (hprice : e.price ≠ none) (hq : 0 < e.quantity) :
    KeepsOrder e (r.tables.orders.get? e.clientOrderId) ∧
      KeepsPosition (r.tables.position e.contractId).quantity e.side
        (appliedQty e (r.tables.orders.get? e.clientOrderId)) := by
  have hsums := h ⟨hf.1, hf.2, hfill, hprice, hq⟩
  rwa [position_freeze] at hsums

/-- The step on orders: an event whose order quantities are kept keeps the agreement with exact
arithmetic. -/
theorem sameOrders_next {r r' : Replay} {e : LedgerEvent} (hc : e.NotCorrection)
    (h : r.SameOrders r') (hkept : KeepsOrderSums r.freeze e) :
    (r.next e).SameOrders (r'.exactNext e) := by
  unfold Replay.exactNext
  by_cases hf : r.Fresh e
  · have hf' := (fresh_iff_of_sameOrders h e).mp hf
    obtain ⟨t, -, hn⟩ := next_of_fresh hc hf
    obtain ⟨t', -, hn'⟩ := @next_of_fresh ExactArithmetic.context r' e hc hf'
    refine ⟨fun k ↦ ?_, by rw [hn, hn', h.ids], by rw [hn, hn', h.keys]⟩
    have hfees (o : Option OrderLifecycle) : (o.map OrderLifecycle.feeless).map
        OrderLifecycle.unpriced = o.map OrderLifecycle.unpriced := by
      cases o <;> rfl
    have horder := congrArg (Option.map OrderLifecycle.unpriced) (feeless_next hc hf k)
    have horder' := congrArg (Option.map OrderLifecycle.unpriced)
      (@feeless_next ExactArithmetic.context r' e hc hf' k)
    rw [hfees, hfees] at horder horder'
    rw [horder, horder']
    split
    · next hk =>
      subst hk
      exact unpriced_orderAfter (h.orders _)
        (fun hfill hprice hq ↦ hkept ⟨hf.1, hf.2, hfill, hprice, hq⟩)
    · exact h.orders k
  · rw [next_of_not_fresh hf, @next_of_not_fresh ExactArithmetic.context r' e
      (fun hf' ↦ hf ((fresh_iff_of_sameOrders h e).mpr hf'))]
    exact h

/-- The step on positions: an event whose quantities are kept keeps them the same as in exact
arithmetic. -/
theorem samePositions_next {r r' : Replay} {e : LedgerEvent} (hc : e.NotCorrection)
    (horders : r.SameOrders r') (h : r.SamePositions r') (hkept : KeepsSums r.freeze e) :
    (r.next e).SamePositions (r'.exactNext e) := by
  unfold Replay.exactNext
  by_cases hf : r.Fresh e
  · intro c
    obtain ⟨t, ht, hn⟩ := next_of_fresh hc hf
    obtain ⟨t', ht', hn'⟩ := @next_of_fresh ExactArithmetic.context r' e hc
      ((fresh_iff_of_sameOrders horders e).mp hf)
    rw [hn, hn']
    cases hfill : e.isFill with
    | false =>
      refine (quantity_of_holding (holding_applyEvent_of_not_fill hc hfill ht c)).trans
        ((h c).trans ?_)
      exact (quantity_of_holding (@holding_applyEvent_of_not_fill ExactArithmetic.context _ _ _ hc
        hfill ht' c)).symm
    | true =>
      rw [applyEvent_of_fill hfill] at ht
      rw [@applyEvent_of_fill ExactArithmetic.context _ _ hfill] at ht'
      cases ht
      cases ht'
      change ((applyFill e r.tables).position c).quantity =
        ((@applyFill ExactArithmetic.context e r'.tables).position c).quantity
      rw [quantity_applyFill_of_kept (hkept.of_freeze hf hfill), quantity_applyFill, h c,
        appliedQty_of_sameOrders horders]
  · rw [next_of_not_fresh hf, @next_of_not_fresh ExactArithmetic.context r' e
      (fun hf' ↦ hf ((fresh_iff_of_sameOrders horders e).mpr hf'))]
    exact h

/-! ### Runs -/

/-- The run: as long as all quantities are kept, every prefix has the quantities of exact
arithmetic. -/
theorem same_run {r r' : Replay} {events : List LedgerEvent}
    (hc : ∀ e ∈ events, e.NotCorrection) (h : r.SameOrders r') (hpos : r.SamePositions r')
    (hkept : StepsMeet Replay.next (fun r e ↦ KeepsSums r.freeze e) r events) :
    ∀ pre, pre <+: events →
      (run Replay.next r pre).SameOrders (run Replay.exactNext r' pre) ∧
      (run Replay.next r pre).SamePositions (run Replay.exactNext r' pre) := by
  intro pre
  induction pre using List.reverseRecOn with
  | nil => exact fun _ ↦ ⟨h, hpos⟩
  | append_singleton pre e ih =>
    intro hp
    obtain ⟨horders, hpositions⟩ := ih ((List.prefix_append pre [e]).trans hp)
    have hok := ok_of_stepsMeet hkept pre e hp
    have hne := hc e (hp.subset (by simp))
    rw [run_snoc, run_snoc]
    exact ⟨sameOrders_next hne horders (fun hcounts ↦ (hok hcounts).1),
      samePositions_next hne horders hpositions hok⟩

end Context

end Joker.Ledger
