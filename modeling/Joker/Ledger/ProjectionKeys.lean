import Joker.Ledger.Replay

/-!
# Keys of a projection

Library `Ledger`. Every projected order stands under its client order id, and every projected
position under its contract id, whatever the events were.
-/

namespace Joker.Ledger

open Joker.Base
/-- Orders under their client order ids, positions under their contract ids. -/
def Tables.Keyed (t : Tables) : Prop :=
  t.orders.Keyed (fun order ↦ order.clientOrderId) ∧
    t.positions.Keyed (fun pos ↦ pos.contractId)

/-! ### Orders and positions keep their ids -/

private theorem clientOrderId_note (order : OrderLifecycle) (e : LedgerEvent) :
    (order.noteBrokerOrderId e).clientOrderId = order.clientOrderId := by
  unfold OrderLifecycle.noteBrokerOrderId
  split <;> rfl

private theorem clientOrderId_ensureOrder {e : LedgerEvent} {found : Option OrderLifecycle}
    (h : ∀ order ∈ found, order.clientOrderId = e.clientOrderId) :
    (ensureOrder e found).clientOrderId = e.clientOrderId := by
  cases found with
  | none => rfl
  | some order => exact h order rfl

private theorem clientOrderId_submitOrder {e : LedgerEvent} {found : Option OrderLifecycle}
    (h : ∀ order ∈ found, order.clientOrderId = e.clientOrderId) :
    (submitOrder e found).clientOrderId = e.clientOrderId := by
  cases found with
  | none => rfl
  | some order =>
    unfold submitOrder
    simp only
    split <;> exact (clientOrderId_note _ e).trans (h order rfl)

private theorem clientOrderId_acceptOrder {e : LedgerEvent} {found : Option OrderLifecycle}
    (h : ∀ order ∈ found, order.clientOrderId = e.clientOrderId) :
    (acceptOrder e found).clientOrderId = e.clientOrderId := by
  have he := (clientOrderId_note _ e).trans (clientOrderId_ensureOrder h)
  unfold acceptOrder
  simp only
  split <;> split <;> exact he

private theorem clientOrderId_fillOrder [DecimalContext] {e : LedgerEvent} (price : ℚ)
    {found : Option OrderLifecycle} (h : ∀ order ∈ found, order.clientOrderId = e.clientOrderId) :
    (fillOrder e price found).1.clientOrderId = e.clientOrderId := by
  obtain ⟨avg, ha⟩ := accumulateFill_order ((ensureOrder e found).noteBrokerOrderId e)
    e.quantity price (allowOverfill e)
  unfold fillOrder
  rw [ha]
  exact (clientOrderId_note _ e).trans (clientOrderId_ensureOrder h)

private theorem clientOrderId_correctOrder (e : LedgerEvent) (order : OrderLifecycle) :
    (correctOrder e order).clientOrderId = order.clientOrderId := by
  unfold correctOrder
  split
  · split
    · split <;> rfl
    · rfl
  · split
    · simp only
      split
      · rfl
      · split <;> rfl
    · rfl

private theorem contractId_fillPosition [DecimalContext] (e : LedgerEvent) (price qty : ℚ)
    (pos : PositionState) :
    (fillPosition e price qty pos).contractId = pos.contractId := by
  have hrealize (closeQty : ℚ) : (realize pos closeQty price).contractId = pos.contractId := by
    unfold realize
    cases pos.avgPrice with
    | none => rfl
    | some avg =>
      simp only
      split <;> rfl
  unfold fillPosition
  simp only
  split
  · rfl
  · split
    · unfold resizePosition
      cases pos.avgPrice with
      | none => rfl
      | some avg =>
        simp only
        split <;> rfl
    · split
      · exact hrealize _
      · rfl

private theorem contractId_ensurePosition {positions : Dict String PositionState}
    (h : positions.Keyed (fun pos ↦ pos.contractId)) (c : String) :
    (ensurePosition c positions).contractId = c := by
  unfold ensurePosition
  cases hp : positions.get? c with
  | none => rfl
  | some pos => exact h c pos hp

/-! ### Steps and runs -/

private theorem keyed_addFees [DecimalContext] {w : Bool} {e : LedgerEvent} {t : Tables}
    (h : t.Keyed) :
    (addFees w e t).Keyed := by
  unfold addFees
  cases e.fees with
  | none => exact h
  | some fees =>
    simp only
    split
    · exact h
    · constructor
      · simp only
        split
        · next order ho => exact Dict.keyed_set h.1 (h.1 _ order ho)
        · exact h.1
      · simp only
        split
        · next pos hp => exact Dict.keyed_set h.2 (h.2 _ pos hp)
        · split
          · exact Dict.keyed_set h.2 rfl
          · exact h.2

private theorem keyed_setOrder [DecimalContext] {e : LedgerEvent} {t : Tables} (h : t.Keyed)
    {order : OrderLifecycle} (ho : order.clientOrderId = e.clientOrderId) :
    (addFees true e { t with orders := t.orders.set e.clientOrderId order }).Keyed :=
  keyed_addFees ⟨Dict.keyed_set h.1 ho, h.2⟩

private theorem keyed_applyFill [DecimalContext] {e : LedgerEvent} {t : Tables} (h : t.Keyed) :
    (applyFill e t).Keyed := by
  unfold applyFill
  cases e.price with
  | none => exact h
  | some price =>
    have ho := clientOrderId_fillOrder price (h.1 e.clientOrderId)
    simp only
    split
    · exact h
    · split
      · exact keyed_setOrder h ho
      · apply keyed_addFees
        refine ⟨Dict.keyed_set h.1 ho, ?_⟩
        unfold applyFillToPosition
        split
        · exact h.2
        · apply Dict.keyed_set h.2
          rw [contractId_fillPosition]
          exact contractId_ensurePosition h.2 _

private theorem keyed_applyCorrection [DecimalContext] {e : LedgerEvent} {t t' : Tables}
    (h : t.Keyed) (ht : applyCorrection e t = .ok t') : t'.Keyed := by
  have horders : (correctedOrders e t.orders).Keyed OrderLifecycle.clientOrderId := by
    unfold correctedOrders
    split
    · next order ho =>
      exact Dict.keyed_set h.1 ((clientOrderId_correctOrder e order).trans (h.1 _ _ ho))
    · exact h.1
  rcases applyCorrection_cases ht with ⟨-, rfl⟩ | ⟨-, quantity, -, rfl⟩
  · exact keyed_addFees ⟨horders, h.2⟩
  · exact keyed_addFees ⟨horders, Dict.keyed_set h.2 (contractId_ensurePosition h.2 _)⟩

/-- The step: an event keeps the keys. -/
theorem keyed_applyEvent [DecimalContext] {e : LedgerEvent} {t t' : Tables} (h : t.Keyed)
    (ht : applyEvent e t = .ok t') : t'.Keyed := by
  unfold applyEvent at ht
  cases he : e.eventType <;> rw [he] at ht
  case reconciliationCorrection => exact keyed_applyCorrection h ht
  all_goals cases ht
  case orderSubmissionRequested.refl =>
    exact keyed_setOrder h (clientOrderId_submitOrder (h.1 e.clientOrderId))
  case brokerOrderAccepted.refl =>
    exact keyed_setOrder h (clientOrderId_acceptOrder (h.1 e.clientOrderId))
  case partialFill.refl => exact keyed_applyFill h
  case finalFill.refl => exact keyed_applyFill h
  case cancellation.refl =>
    obtain ⟨status, hs⟩ := cancelOrder_eq e (t.orders.get? e.clientOrderId)
    apply keyed_setOrder h
    rw [hs]
    exact clientOrderId_ensureOrder (h.1 e.clientOrderId)
  case rejection.refl =>
    obtain ⟨status, hs⟩ := rejectOrder_eq e (t.orders.get? e.clientOrderId)
    apply keyed_setOrder h
    rw [hs]
    exact clientOrderId_ensureOrder (h.1 e.clientOrderId)
  all_goals exact keyed_addFees h

/-- The run: replayed dictionaries are keyed. -/
theorem keyed_replay [DecimalContext] {events : List LedgerEvent} {r : Replay}
    (h : replay Replay.start events = .ok r) : r.tables.Keyed := by
  refine replay_invariant (fun r ↦ r.tables.Keyed) ?_ events Replay.start r ?_ h
  · intro r e r' hr hs
    rcases step_cases hs with ⟨-, rfl⟩ | ⟨-, t, ht, rfl⟩
    · exact hr
    · exact keyed_applyEvent hr ht
  · exact ⟨Dict.keyed_empty _, Dict.keyed_empty _⟩

/-- No order is projected without a client order id, which no event lacks. -/
theorem get?_orders_empty_replay [DecimalContext] {events : List LedgerEvent} {r : Replay}
    (h : replay Replay.start events = .ok r) : r.tables.orders.get? "" = none := by
  refine replay_invariant (fun r ↦ r.tables.orders.get? "" = none) ?_ events Replay.start r rfl h
  intro r e r' hr hs
  rcases step_cases hs with ⟨-, rfl⟩ | ⟨-, t, ht, rfl⟩
  · exact hr
  · have hsame := feeless_applyEvent_of_ne ht e.clientOrderId_ne_empty
    rw [hr] at hsame
    exact Option.map_eq_none_iff.mp hsame

/-- The ids of a projection's orders name them, and none is empty. -/
theorem clientOrderIds_project [DecimalContext] {events : List LedgerEvent}
    {state : ProjectionState}
    (h : project events = .ok state) {a b : OrderLifecycle} (ha : a ∈ state.orders.values)
    (hb : b ∈ state.orders.values) :
    a.clientOrderId ≠ "" ∧ (a.clientOrderId = b.clientOrderId → a = b) := by
  obtain ⟨r, hr, rfl⟩ := project_eq_ok.mp h
  obtain ⟨i, hi⟩ := (Dict.mem_values_iff _ _).mp ha
  obtain ⟨j, hj⟩ := (Dict.mem_values_iff _ _).mp hb
  have hkeyed := (keyed_replay hr).1
  have hia : a.clientOrderId = i := hkeyed i a hi
  have hjb : b.clientOrderId = j := hkeyed j b hj
  constructor
  · intro hempty
    have hnone := get?_orders_empty_replay hr
    rw [← hempty, hia] at hnone
    exact nomatch hnone.symm.trans hi
  · intro hsame
    rw [← hia, hsame, hjb] at hi
    exact Option.some.inj (hi.symm.trans hj)

end Joker.Ledger
