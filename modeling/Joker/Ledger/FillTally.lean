import Mathlib.Algebra.Order.BigOperators.Group.List
import Joker.Ledger.ContextReplay

/-!
# The fills of one order

Library `Ledger`. New fills of one order, at the end of a ledger and within what was submitted.
Where the context keeps what they make of the order and of the position, each adds its quantity to
the order, and trades it on the contract's position.
-/

namespace Joker.Ledger

open Joker.Base CostAccount

variable [DecimalContext]

/-- What an order has filled and what is held, after one more fill of a quantity. -/
def takeFill (side : Side) (s : ℚ × ℚ) (qty : ℚ) : ℚ × ℚ :=
  (s.1 + qty, settle s.2 (side.signed qty))

/-- The context keeps what a fill makes of an order and of a position. -/
def KeepsFill (side : Side) (submitted : ℚ) (s : ℚ × ℚ) (qty : ℚ) : Prop :=
  0 < qty → (0 < submitted → Kept (submitted - s.1)) ∧ Kept (s.1 + qty) ∧
    KeepsPosition s.2 side qty

/-- The context keeps what fills, taken one after another, make of an order and of a position. -/
def KeepsFills (side : Side) (submitted filled held : ℚ) (qtys : List ℚ) : Prop :=
  StepsMeet (takeFill side) (KeepsFill side submitted) (filled, held) qtys

instance (side : Side) (submitted : ℚ) (s : ℚ × ℚ) (qty : ℚ) :
    Decidable (KeepsFill side submitted s qty) :=
  inferInstanceAs (Decidable (_ → _))

instance (side : Side) (submitted filled held : ℚ) (qtys : List ℚ) :
    Decidable (KeepsFills side submitted filled held qtys) :=
  inferInstanceAs (Decidable (StepsMeet _ _ _ _))

/-- What a new fill of an order leads to: the order's filled quantity grows by all of it, and
the position settles it. -/
def Tallied (clientOrderId contractId : String) (order : OrderLifecycle) (t t' : Tables)
    (qty : ℚ) (moves : List ℚ) : Prop :=
  (∃ order', t'.orders.get? clientOrderId = some order' ∧
    order'.filledQty = order.filledQty + qty ∧ order'.submittedQty = order.submittedQty) ∧
  (t'.position contractId).quantity = moves.foldl settle (t.position contractId).quantity

private theorem order_applyFill {e : LedgerEvent} {t : Tables} {order : OrderLifecycle} {price : ℚ}
    (hp : e.price = some price) (hq : 0 < e.quantity)
    (ho : t.orders.get? e.clientOrderId = some order) (hkept : KeepsOrder e (some order))
    (happlied : appliedQty e (some order) = e.quantity) :
    ∃ order', (applyFill e t).orders.get? e.clientOrderId = some order' ∧
      order'.filledQty = order.filledQty + e.quantity ∧
      order'.submittedQty = order.submittedQty := by
  obtain ⟨avg, hfill⟩ := fillOrder_of_kept hp hq hkept
  rw [happlied] at hfill
  unfold applyFill
  simp only [hp, ho, congrArg Prod.snd hfill, not_le.mpr hq, if_false]
  obtain ⟨f, hf⟩ := get?_orders_addFees true e
    ⟨t.orders.set e.clientOrderId { (fillOrder e price (some order)).1 with
      status := fillStatus e (fillOrder e price (some order)).1 },
      applyFillToPosition e price e.quantity t.positions⟩ e.clientOrderId
  rw [hf, Dict.get?_set_self, hfill]
  refine ⟨_, rfl, ?_, ?_⟩
  · exact congrArg (· + e.quantity) (filledQty_noteBrokerOrderId order e)
  · exact submittedQty_noteBrokerOrderId order e

/-- The step: a new fill within the submitted quantity is counted in full. -/
theorem tallied_next {r : Replay} {e : LedgerEvent} {clientOrderId contractId : String}
    {side : Side} {order : OrderLifecycle} (he : e.IsFillOf clientOrderId contractId side)
    (hfresh : r.Fresh e) (ho : r.tables.orders.get? clientOrderId = some order)
    (hroom : order.filledQty + e.quantity ≤ order.submittedQty)
    (hkept : KeepsFill side order.submittedQty
      (order.filledQty, (r.tables.position contractId).quantity) e.quantity) :
    ∃ r', r.step e = .ok r' ∧ r'.seenIds = insert e.ledgerEventId r.seenIds ∧
      r'.seenKeys = insert e.idempotencyKey r.seenKeys ∧
      Tallied clientOrderId contractId order r.tables r'.tables e.quantity
        [side.signed e.quantity] := by
  have happlied := appliedQty_of_room he hroom
  obtain ⟨hf, hp, hov, rfl, rfl, rfl⟩ := he
  obtain ⟨price, hprice⟩ := Option.ne_none_iff_exists'.mp hp
  refine ⟨⟨applyFill e r.tables, _, _⟩, ?_, rfl, rfl, ?_⟩
  · unfold Replay.step
    rw [if_pos hfresh, applyEvent_of_fill hf]
  rcases e.quantity_nonneg.eq_or_lt with hz | hq
  · -- A fill of nothing is skipped.
    rw [applyFill_of_skipped (.inr hz.symm.le), ← hz]
    refine ⟨⟨order, ho, (add_zero _).symm, rfl⟩, ?_⟩
    rw [signed_zero, List.foldl_cons, List.foldl_nil, settle_zero]
  · obtain ⟨hlacking, hfilled, hposition⟩ := hkept hq
    have horder : KeepsOrder e (some order) := by
      refine ⟨fun hc ↦ hlacking hc.2, ?_⟩
      rw [happlied]
      exact hfilled
    refine ⟨order_applyFill hprice hq ho horder happlied, ?_⟩
    have hsettled := quantity_applyFill_of_kept (e := e) (t := r.tables)
      (fun _ _ ↦ by rw [ho, happlied]; exact ⟨horder, hposition⟩) e.contractId
    rw [if_pos rfl, ho, happlied] at hsettled
    exact hsettled

/-- The run: new fills that together fit into the submitted quantity are all counted in full. -/
theorem tallied_replay {r : Replay} {es : List LedgerEvent} {clientOrderId contractId : String}
    {side : Side} {order : OrderLifecycle}
    (he : ∀ e ∈ es, e.IsFillOf clientOrderId contractId side) (hfresh : ∀ e ∈ es, r.Fresh e)
    (hids : (es.map (fun e ↦ e.ledgerEventId)).Nodup)
    (hkeys : (es.map (fun e ↦ e.idempotencyKey)).Nodup)
    (ho : r.tables.orders.get? clientOrderId = some order)
    (hroom : order.filledQty + (es.map (fun e ↦ e.quantity)).sum ≤ order.submittedQty)
    (hkept : KeepsFills side order.submittedQty order.filledQty
      (r.tables.position contractId).quantity (es.map (fun e ↦ e.quantity))) :
    ∃ r', replay r es = .ok r' ∧
      Tallied clientOrderId contractId order r.tables r'.tables (es.map (fun e ↦ e.quantity)).sum
        (es.map (fun e ↦ side.signed e.quantity)) := by
  induction es generalizing r order with
  | nil => exact ⟨r, rfl, ⟨order, ho, (add_zero _).symm, rfl⟩, rfl⟩
  | cons e es ih =>
    rw [List.map_cons, List.sum_cons] at hroom
    rw [List.map_cons, List.nodup_cons] at hids hkeys
    have hrest : 0 ≤ (es.map (fun e ↦ e.quantity)).sum := by
      apply List.sum_nonneg
      intro q hq
      obtain ⟨e', -, rfl⟩ := List.mem_map.mp hq
      exact e'.quantity_nonneg
    obtain ⟨r₁, hs, hseen, hseenKeys, ⟨order₁, ho₁, hfilled, hsub⟩, hpos⟩ :=
      tallied_next (he e List.mem_cons_self) (hfresh e List.mem_cons_self) ho (by linarith) hkept.1
    have hfresh₁ : ∀ e' ∈ es, r₁.Fresh e' := by
      intro e' hm
      obtain ⟨hi, hk⟩ := hfresh e' (List.mem_cons_of_mem e hm)
      unfold Replay.Fresh
      rw [hseen, hseenKeys, Finset.mem_insert, Finset.mem_insert, not_or, not_or]
      refine ⟨⟨?_, hi⟩, ?_, hk⟩
      · exact fun heq ↦ hids.1 (heq ▸ List.mem_map_of_mem hm)
      · exact fun heq ↦ hkeys.1 (heq ▸ List.mem_map_of_mem hm)
    obtain ⟨r', hr, ⟨order', ho', hfilled', hsub'⟩, hpos'⟩ :=
      ih (fun e' hm ↦ he e' (List.mem_cons_of_mem e hm)) hfresh₁ hids.2 hkeys.2 ho₁
        (by rw [hfilled, hsub]; linarith) (by rw [hsub, hfilled, hpos]; exact hkept.2)
    refine ⟨r', ?_, ⟨order', ho', ?_, hsub'.trans hsub⟩, ?_⟩
    · simp only [replay, hs, hr]
    · rw [hfilled', hfilled, List.map_cons, List.sum_cons, add_assoc]
    · rw [hpos', hpos]
      rfl

end Joker.Ledger
