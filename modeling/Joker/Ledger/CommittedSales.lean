import Joker.Base.Totals
import Joker.Ledger.ContextReplay

/-!
# Committed sales

Library `Ledger`. What the working sell orders of a contract still have to sell, against the
contract's position. The sales are covered when they never add up to more than the position
holds. A ledger event keeps that, unless it submits a sell order for more than is uncommitted,
fills an order that does not work, or makes quantities that the context rounds.
-/

namespace Joker.Ledger

open Joker.Base CostAccount

/-- The order is submitted, accepted or partially filled. -/
def OrderLifecycle.Working (order : OrderLifecycle) : Prop :=
  order.status ∈ [OrderStatus.submitted, .accepted, .partiallyFilled]

instance (order : OrderLifecycle) : Decidable order.Working :=
  inferInstanceAs (Decidable (_ ∈ _))

/-- What a working sell order of a contract still has to sell. -/
def OrderLifecycle.unsold (c : String) (order : OrderLifecycle) : ℚ :=
  if order.Working ∧ order.side = .sell ∧ order.contractId = c
  then order.submittedQty - order.filledQty else 0

/-- A quantity of whole contracts. -/
def Whole (q : ℚ) : Prop := ∃ n : ℤ, q = n

/-- An order of whole contracts with fills within what was submitted. -/
structure OrderLifecycle.Regular (order : OrderLifecycle) : Prop where
  submitted_whole : Whole order.submittedQty
  filled_whole : Whole order.filledQty
  submitted_pos : 0 < order.submittedQty
  capped : order.filledQty ≤ order.submittedQty

/-- What all working sell orders of a contract still have to sell. -/
def Tables.committed (t : Tables) (c : String) : ℚ := t.orders.total (OrderLifecycle.unsold c)

/-- Every contract's working sell orders are covered by its position. -/
structure Replay.Covered (r : Replay) : Prop where
  regular : r.ForallOrders OrderLifecycle.Regular
  covered : ∀ c, r.tables.committed c ≤ (r.tables.position c).quantity

/-- The events that keep sales covered: a new order sells no more than is uncommitted, and a
fill is one of a working order on its own contract and side. -/
def Replay.Admits (r : Replay) (e : LedgerEvent) : Prop :=
  match e.eventType with
  | .orderSubmissionRequested =>
    r.tables.orders.get? e.clientOrderId = none ∧ 0 < e.quantity ∧ Whole e.quantity ∧
      (e.side = .sell →
        e.quantity ≤ (r.tables.position e.contractId).quantity - r.tables.committed e.contractId)
  | .brokerOrderAccepted | .cancellation | .rejection =>
    r.tables.orders.get? e.clientOrderId ≠ none
  | .partialFill | .finalFill =>
    Whole e.quantity ∧ allowOverfill e = false ∧
      ∃ order ∈ r.tables.orders.get? e.clientOrderId,
        order.Working ∧ e.side = order.side ∧ e.contractId = order.contractId
  | .positionOpened | .positionResized | .positionClosed | .feeRecorded
  | .reconciliationCorrection => False

/-! ### One order -/

private theorem regular_feeless (order : OrderLifecycle) : order.feeless.Regular ↔ order.Regular :=
  ⟨fun ⟨h1, h2, h3, h4⟩ ↦ ⟨h1, h2, h3, h4⟩, fun ⟨h1, h2, h3, h4⟩ ↦ ⟨h1, h2, h3, h4⟩⟩

/-- An order has nothing negative to sell. -/
theorem unsold_nonneg {order : OrderLifecycle} (h : order.Regular) (c : String) :
    0 ≤ order.unsold c := by
  unfold OrderLifecycle.unsold
  split
  · exact sub_nonneg.mpr h.capped
  · exact le_refl 0

/-- The lesser of two whole numbers is whole. -/
theorem whole_min {a b : ℚ} (ha : Whole a) (hb : Whole b) : Whole (min a b) := by
  rcases min_choice a b with h | h
  · rwa [h]
  · rwa [h]

/-- The greater of two whole numbers is whole. -/
theorem whole_max {a b : ℚ} (ha : Whole a) (hb : Whole b) : Whole (max a b) := by
  rcases max_choice a b with h | h
  · rwa [h]
  · rwa [h]

/-- A sum of whole numbers is whole. -/
theorem whole_add {a b : ℚ} (ha : Whole a) (hb : Whole b) : Whole (a + b) := by
  obtain ⟨m, rfl⟩ := ha
  obtain ⟨n, rfl⟩ := hb
  exact ⟨m + n, by push_cast; rfl⟩

/-- A difference of whole numbers is whole. -/
theorem whole_sub {a b : ℚ} (ha : Whole a) (hb : Whole b) : Whole (a - b) := by
  obtain ⟨m, rfl⟩ := ha
  obtain ⟨n, rfl⟩ := hb
  exact ⟨m - n, by push_cast; rfl⟩

/-- A new status that does not work leaves nothing to sell. -/
theorem unsold_of_not_working {order : OrderLifecycle} (h : ¬ order.Working) (c : String) :
    order.unsold c = 0 := if_neg (fun hw ↦ h hw.1)

private theorem noteBrokerOrderId_eq (order : OrderLifecycle) (e : LedgerEvent) :
    ∃ id, order.noteBrokerOrderId e = { order with brokerOrderId := id } := by
  unfold OrderLifecycle.noteBrokerOrderId
  split
  · exact ⟨_, rfl⟩
  · exact ⟨order.brokerOrderId, rfl⟩

/-- A regular order with no more to sell than another. -/
structure OrderLifecycle.ShrinksTo (order order' : OrderLifecycle) : Prop where
  regular : order'.Regular
  unsold_le : ∀ c, order'.unsold c ≤ order.unsold c

private theorem shrinksTo_refl {order : OrderLifecycle} (h : order.Regular) :
    order.ShrinksTo order :=
  ⟨h, fun _ ↦ le_refl _⟩

/-- An order that is filled further, within what it lacks, and works only if it did. -/
theorem shrinksTo_of_fill {order : OrderLifecycle} (h : order.Regular) (status : OrderStatus)
    (id : Option String) (avg : Option ℚ) {applied : ℚ} (hwhole : Whole applied)
    (hnonneg : 0 ≤ applied) (hle : applied ≤ order.submittedQty - order.filledQty)
    (hs : status ∈ [OrderStatus.submitted, .accepted, .partiallyFilled] → order.Working) :
    order.ShrinksTo { order with
      status := status
      brokerOrderId := id
      filledQty := order.filledQty + applied
      avgFillPrice := avg } := by
  constructor
  · exact ⟨h.submitted_whole, whole_add h.filled_whole hwhole, h.submitted_pos,
      le_sub_iff_add_le'.mp hle⟩
  · intro c
    by_cases hw : status ∈ [OrderStatus.submitted, .accepted, .partiallyFilled]
    · unfold OrderLifecycle.unsold
      by_cases hc : order.side = .sell ∧ order.contractId = c
      · rw [if_pos ⟨hw, hc⟩, if_pos ⟨hs hw, hc⟩]
        exact sub_le_sub_left (le_add_of_nonneg_right hnonneg) _
      · rw [if_neg (fun hall ↦ hc hall.2), if_neg (fun hall ↦ hc hall.2)]
    · rw [unsold_of_not_working (by exact hw)]
      exact unsold_nonneg h c

/-- A fill of a working sell order takes as much as it applies off what is to sell. -/
theorem unsold_of_fill {order : OrderLifecycle} (hworking : order.Working)
    (hside : order.side = .sell) (status : OrderStatus) (id : Option String) (avg : Option ℚ)
    {applied : ℚ} (hle : applied ≤ order.submittedQty - order.filledQty) :
    OrderLifecycle.unsold order.contractId { order with
      status := status
      brokerOrderId := id
      filledQty := order.filledQty + applied
      avgFillPrice := avg } ≤ order.unsold order.contractId - applied := by
  have hbefore : order.unsold order.contractId = order.submittedQty - order.filledQty :=
    if_pos ⟨hworking, hside, rfl⟩
  rw [hbefore]
  unfold OrderLifecycle.unsold
  split
  · exact le_of_eq (sub_add_eq_sub_sub _ _ _)
  · exact sub_nonneg.mpr hle

/-- An order that keeps its quantities, its side and its contract, and works only if it did. -/
theorem shrinksTo_of_status {order : OrderLifecycle} (h : order.Regular) (status : OrderStatus)
    (id : Option String)
    (hs : status ∈ [OrderStatus.submitted, .accepted, .partiallyFilled] → order.Working) :
    order.ShrinksTo { order with status := status, brokerOrderId := id } := by
  have hfill := shrinksTo_of_fill h status id order.avgFillPrice ⟨0, by simp⟩ (le_refl 0)
    (sub_nonneg.mpr h.capped) hs
  rwa [add_zero] at hfill

/-- An acceptance of a known order changes nothing that counts. -/
theorem acceptOrder_shrinks {e : LedgerEvent} {order : OrderLifecycle} (h : order.Regular) :
    order.ShrinksTo (acceptOrder e (some order)) := by
  obtain ⟨id, hid⟩ := noteBrokerOrderId_eq order e
  have hsubmitted : ¬ (0 < e.quantity ∧ order.submittedQty = 0) :=
    fun hzero ↦ (ne_of_gt h.submitted_pos) hzero.2
  unfold acceptOrder
  simp only [ensureOrder, hid, hsubmitted, if_false]
  split
  · exact shrinksTo_of_status h order.status id (fun hw ↦ hw)
  · next hstatus =>
    apply shrinksTo_of_status h .accepted id
    intro _
    unfold OrderLifecycle.Working
    cases hs : order.status <;> rw [hs] at hstatus <;> simp at hstatus ⊢

/-- A cancellation leaves an order with no more to sell. -/
theorem cancelOrder_shrinks {e : LedgerEvent} {order : OrderLifecycle} (h : order.Regular) :
    order.ShrinksTo (cancelOrder e (some order)) := by
  unfold cancelOrder ensureOrder
  simp only
  split
  · exact shrinksTo_refl h
  · exact shrinksTo_of_status h .cancelled order.brokerOrderId (fun hw ↦ absurd hw (by decide))

/-- A rejection leaves an order with no more to sell. -/
theorem rejectOrder_shrinks {e : LedgerEvent} {order : OrderLifecycle} (h : order.Regular) :
    order.ShrinksTo (rejectOrder e (some order)) := by
  unfold rejectOrder ensureOrder
  simp only
  split
  · exact shrinksTo_refl h
  · exact shrinksTo_of_status h .rejected order.brokerOrderId (fun hw ↦ absurd hw (by decide))

/-- What a fill of a regular order applies: whole contracts, at most what the order lacks. -/
theorem appliedQty_of_regular {e : LedgerEvent} {order : OrderLifecycle} (h : order.Regular)
    (hw : Whole e.quantity) (hov : allowOverfill e = false) :
    Whole (appliedQty e (some order)) ∧
      appliedQty e (some order) ≤ order.submittedQty - order.filledQty := by
  have hnothing : Whole 0 ∧ 0 ≤ order.submittedQty - order.filledQty :=
    ⟨⟨0, by simp⟩, sub_nonneg.mpr h.capped⟩
  unfold appliedQty
  cases e.price with
  | none => exact hnothing
  | some price =>
    simp only
    split
    · exact hnothing
    · unfold fillOrder
      rw [applied_accumulateFill, filledQty_noteBrokerOrderId, submittedQty_noteBrokerOrderId, hov]
      change Whole (if false = false ∧ 0 < order.submittedQty then _ else _) ∧
        (if false = false ∧ 0 < order.submittedQty then _ else _) ≤ _
      rw [if_pos ⟨rfl, h.submitted_pos⟩]
      constructor
      · exact whole_max hnothing.1 (whole_min hw (whole_sub h.submitted_whole h.filled_whole))
      · exact max_le hnothing.2 (min_le_right _ _)

/-! ### All orders -/

/-- The sales of a contract are at least those of one order. -/
theorem unsold_le_committed {r : Replay} (h : r.Covered) {k : String} {order : OrderLifecycle}
    (ho : r.tables.orders.get? k = some order) (c : String) :
    order.unsold c ≤ r.tables.committed c := by
  have hnonneg : ∀ v ∈ r.tables.orders.values, 0 ≤ OrderLifecycle.unsold c v := by
    intro v hv
    obtain ⟨k', hk'⟩ := (Dict.mem_values_iff _ _).mp hv
    exact unsold_nonneg (h.regular k' v hk') c
  have hle := Dict.weightAt_le_total r.tables.orders hnonneg k
  unfold Dict.weightAt at hle
  rwa [ho] at hle

/-- Where no sell order of a contract works, nothing of it is committed. -/
theorem committed_eq_zero {t : Tables} {c : String}
    (h : ∀ order ∈ t.orders.values,
      ¬ (order.Working ∧ order.side = .sell ∧ order.contractId = c)) : t.committed c = 0 := by
  apply List.sum_eq_zero
  intro q hq
  obtain ⟨order, ho, rfl⟩ := List.mem_map.mp hq
  exact if_neg (h order ho)

/-! ### One event -/

section Context

variable [DecimalContext]

/-- A kept fill adds what it applies to a known order, and changes no other quantity. -/
theorem filledOrder_some {e : LedgerEvent} {order : OrderLifecycle}
    (hkept : e.price ≠ none → 0 < e.quantity → KeepsOrder e (some order)) :
    ∃ status id avg, filledOrder e (some order) = some { order with
      status := status
      brokerOrderId := id
      filledQty := order.filledQty + appliedQty e (some order)
      avgFillPrice := avg } := by
  by_cases hs : e.price = none ∨ e.quantity ≤ 0
  · refine ⟨order.status, order.brokerOrderId, order.avgFillPrice, ?_⟩
    rw [filledOrder_of_skipped hs, appliedQty_of_skipped hs, add_zero]
  · push Not at hs
    obtain ⟨price, hp⟩ := Option.ne_none_iff_exists'.mp hs.1
    obtain ⟨id, hid⟩ := noteBrokerOrderId_eq order e
    obtain ⟨avg, hfill⟩ := fillOrder_of_kept hp hs.2 (hkept hs.1 hs.2)
    simp only [ensureOrder, hid] at hfill
    rw [filledOrder_of_priced hp hs.2, hfill]
    split
    · exact ⟨order.status, id, avg, rfl⟩
    · exact ⟨_, id, avg, rfl⟩

/-- The totals after a fresh event: one order's share is exchanged. -/
theorem committed_next {r : Replay} {e : LedgerEvent} (hc : e.NotCorrection) (hf : r.Fresh e)
    (c : String) :
    (r.next e).tables.committed c =
      r.tables.committed c -
        ((r.tables.orders.get? e.clientOrderId).map (OrderLifecycle.unsold c)).getD 0 +
        ((orderAfter e (r.tables.orders.get? e.clientOrderId)).map
          (OrderLifecycle.unsold c)).getD 0 := by
  have hweight (k : String) : (r.next e).tables.orders.weightAt (OrderLifecycle.unsold c) k =
      ((if e.clientOrderId = k then orderAfter e (r.tables.orders.get? k)
        else r.tables.orders.get? k).map (OrderLifecycle.unsold c)).getD 0 := by
    have hk := congrArg (Option.map (OrderLifecycle.unsold c)) (feeless_next hc hf k)
    rw [Option.map_map, Option.map_map] at hk
    exact congrArg (fun w ↦ w.getD 0) hk
  have htotal : (r.next e).tables.orders.total (OrderLifecycle.unsold c) -
        (r.next e).tables.orders.weightAt (OrderLifecycle.unsold c) e.clientOrderId =
      r.tables.orders.total (OrderLifecycle.unsold c) -
        r.tables.orders.weightAt (OrderLifecycle.unsold c) e.clientOrderId := by
    apply Dict.total_sub_weightAt
    intro k hk
    rw [hweight, if_neg (Ne.symm hk)]
    rfl
  rw [hweight, if_pos rfl] at htotal
  unfold Tables.committed
  unfold Dict.weightAt at htotal
  linarith

/-- The end of a working order frees all it had to sell. -/
theorem committed_next_of_end {r : Replay} {e : LedgerEvent} (hf : r.Fresh e)
    (he : e.eventType ∈ [LedgerEventType.cancellation, .rejection]) {order : OrderLifecycle}
    (ho : r.tables.orders.get? e.clientOrderId = some order) (hw : order.Working) (c : String) :
    (r.next e).tables.committed c = r.tables.committed c - order.unsold c := by
  have hc : e.NotCorrection := by
    intro hcor
    rw [hcor] at he
    exact absurd he (by decide)
  have hended : ((orderAfter e (some order)).map (OrderLifecycle.unsold c)).getD 0 = 0 := by
    unfold OrderLifecycle.Working at hw
    simp only [List.mem_cons, List.not_mem_nil, or_false] at he hw
    unfold orderAfter
    rcases he with he | he
    · rw [he]
      apply unsold_of_not_working
      unfold OrderLifecycle.Working cancelOrder
      rcases hw with hs | hs | hs <;> simp [ensureOrder, hs]
    · rw [he]
      apply unsold_of_not_working
      unfold OrderLifecycle.Working rejectOrder
      rcases hw with hs | hs | hs <;> simp [ensureOrder, hs]
  rw [committed_next hc hf, ho, hended, add_zero]
  rfl

/-- Only fills move positions. -/
theorem quantity_next_of_not_fill {r : Replay} {e : LedgerEvent} (hc : e.NotCorrection)
    (hf : r.Fresh e) (hfill : e.isFill = false) (c : String) :
    ((r.next e).tables.position c).quantity = (r.tables.position c).quantity :=
  quantity_of_holding (holding_applyEvent_of_not_fill hc hfill (applyEvent_next hc hf) c)

private theorem covered_of_shrinks {r : Replay} {e : LedgerEvent} (h : r.Covered)
    (hc : e.NotCorrection) (hf : r.Fresh e) (hfill : e.isFill = false)
    {order order' : OrderLifecycle}
    (ho : r.tables.orders.get? e.clientOrderId = some order)
    (hafter : orderAfter e (some order) = some order') (hs : order.ShrinksTo order') :
    (r.next e).Covered := by
  constructor
  · rw [forallOrders_next_iff regular_feeless hc hf h.regular, ho, hafter]
    rintro _ ⟨⟩
    exact hs.regular
  · intro c
    rw [committed_next hc hf, quantity_next_of_not_fill hc hf hfill, ho, hafter]
    simp only [Option.map_some, Option.getD_some]
    have hle := hs.unsold_le c
    have hcov := h.covered c
    linarith

private theorem covered_of_submission {r : Replay} {e : LedgerEvent} (h : r.Covered)
    (hf : r.Fresh e) (he : e.eventType = .orderSubmissionRequested)
    (hnew : r.tables.orders.get? e.clientOrderId = none) (hpos : 0 < e.quantity)
    (hwhole : Whole e.quantity) (hroom : e.side = .sell →
      e.quantity ≤ (r.tables.position e.contractId).quantity - r.tables.committed e.contractId) :
    (r.next e).Covered := by
  have hc : e.NotCorrection := by
    intro hcor
    rw [he] at hcor
    cases hcor
  have hfill : e.isFill = false := by
    unfold LedgerEvent.isFill
    rw [he]
    rfl
  have hafter : orderAfter e (r.tables.orders.get? e.clientOrderId) =
      some (OrderLifecycle.new e e.quantity) := by
    rw [hnew]
    unfold orderAfter
    rw [he]
    rfl
  constructor
  · rw [forallOrders_next_iff regular_feeless hc hf h.regular, hafter]
    rintro _ ⟨⟩
    exact ⟨hwhole, ⟨0, by simp [OrderLifecycle.new]⟩, hpos, hpos.le⟩
  · intro c
    rw [committed_next hc hf, quantity_next_of_not_fill hc hf hfill, hafter, hnew]
    simp only [Option.map_none, Option.map_some, Option.getD_none, Option.getD_some, sub_zero]
    have hcov := h.covered c
    unfold OrderLifecycle.unsold
    split
    · next hsell =>
      have hcontract : e.contractId = c := hsell.2.2
      have hle := hroom hsell.2.1
      rw [hcontract] at hle
      change _ + (e.quantity - 0) ≤ _
      linarith
    · linarith

private theorem covered_of_fill {r : Replay} {e : LedgerEvent} (h : r.Covered) (hf : r.Fresh e)
    (hfill : e.isFill = true) (hwhole : Whole e.quantity) (hov : allowOverfill e = false)
    {order : OrderLifecycle} (ho : r.tables.orders.get? e.clientOrderId = some order)
    (hworking : order.Working) (hside : e.side = order.side)
    (hcontract : e.contractId = order.contractId) (hkept : KeepsSums r.freeze e) :
    (r.next e).Covered := by
  have hc := notCorrection_of_fill hfill
  have hreg := h.regular e.clientOrderId order ho
  obtain ⟨hw, hle⟩ := appliedQty_of_regular hreg hwhole hov
  have hnonneg := appliedQty_nonneg e (some order)
  have hsums := hkept.of_freeze hf hfill
  obtain ⟨status, id, avg, hafter⟩ :=
    filledOrder_some (fun hprice hq ↦ ho ▸ (hsums hprice hq).1)
  have hshrinks := shrinksTo_of_fill hreg status id avg hw hnonneg hle (fun _ ↦ hworking)
  have hsell (hsell : order.side = .sell) :=
    unsold_of_fill hworking hsell status id avg hle
  constructor
  · rw [forallOrders_next_iff regular_feeless hc hf h.regular, ho, orderAfter_of_fill hfill,
      hafter]
    rintro _ ⟨⟩
    exact hshrinks.regular
  · intro c
    rw [committed_next hc hf, tables_next_of_fill hfill hf, quantity_applyFill_of_kept hsums, ho,
      orderAfter_of_fill hfill, hafter]
    simp only [Option.map_some, Option.getD_some]
    have hcov := h.covered c
    have hsales := unsold_le_committed h ho c
    have hmine := unsold_nonneg hreg c
    have hless := hshrinks.unsold_le c
    split
    · next hce =>
      obtain rfl : order.contractId = c := hcontract.symm.trans hce
      cases hs : e.side with
      | buy =>
        rw [settle_of_nonneg (by linarith) (by change 0 ≤ _ + appliedQty e (some order); linarith)]
        change _ ≤ _ + appliedQty e (some order)
        linarith
      | sell =>
        have hside' := hside.symm.trans hs
        have htaken := hsell hside'
        have hunsold : order.unsold order.contractId = order.submittedQty - order.filledQty :=
          if_pos ⟨hworking, hside', rfl⟩
        rw [settle_of_nonneg (by linarith) (by change 0 ≤ _ + -appliedQty e (some order); linarith)]
        change _ ≤ _ + -appliedQty e (some order)
        linarith
    · linarith

/-- Every admitted event keeps sales covered. -/
theorem covered_next {r : Replay} {e : LedgerEvent} (h : r.Covered) (ha : r.Fresh e → r.Admits e)
    (hkept : KeepsSums r.freeze e) : (r.next e).Covered := by
  by_cases hf : r.Fresh e
  · have ha := ha hf
    have known (hfill : e.isFill = false) (hc : e.NotCorrection)
        (hk : r.tables.orders.get? e.clientOrderId ≠ none)
        (hs : ∀ order : OrderLifecycle, order.Regular →
          ∃ order', orderAfter e (some order) = some order' ∧ order.ShrinksTo order') :
        (r.next e).Covered := by
      obtain ⟨order, ho⟩ := Option.ne_none_iff_exists'.mp hk
      obtain ⟨order', hafter, hshrinks⟩ := hs order (h.regular _ order ho)
      exact covered_of_shrinks h hc hf hfill ho hafter hshrinks
    unfold Replay.Admits at ha
    cases he : e.eventType with
    | orderSubmissionRequested =>
      rw [he] at ha
      obtain ⟨hnew, hpos, hwhole, hroom⟩ := ha
      exact covered_of_submission h hf he hnew hpos hwhole hroom
    | brokerOrderAccepted =>
      rw [he] at ha
      apply known _ _ ha
      · exact fun order hreg ↦ ⟨acceptOrder e (some order), by simp only [orderAfter, he],
          acceptOrder_shrinks hreg⟩
      · rw [LedgerEvent.isFill, he]
        rfl
      · rw [LedgerEvent.NotCorrection, he]
        decide
    | partialFill =>
      rw [he] at ha
      obtain ⟨hwhole, hov, order, ho, hworking, hside, hcontract⟩ := ha
      exact covered_of_fill h hf (by simp [LedgerEvent.isFill, he]) hwhole hov ho hworking hside
        hcontract hkept
    | finalFill =>
      rw [he] at ha
      obtain ⟨hwhole, hov, order, ho, hworking, hside, hcontract⟩ := ha
      exact covered_of_fill h hf (by simp [LedgerEvent.isFill, he]) hwhole hov ho hworking hside
        hcontract hkept
    | cancellation =>
      rw [he] at ha
      apply known _ _ ha
      · exact fun order hreg ↦ ⟨cancelOrder e (some order), by simp only [orderAfter, he],
          cancelOrder_shrinks hreg⟩
      · rw [LedgerEvent.isFill, he]
        rfl
      · rw [LedgerEvent.NotCorrection, he]
        decide
    | rejection =>
      rw [he] at ha
      apply known _ _ ha
      · exact fun order hreg ↦ ⟨rejectOrder e (some order), by simp only [orderAfter, he],
          rejectOrder_shrinks hreg⟩
      · rw [LedgerEvent.isFill, he]
        rfl
      · rw [LedgerEvent.NotCorrection, he]
        decide
    | positionOpened | positionResized | positionClosed | feeRecorded | reconciliationCorrection =>
      rw [he] at ha
      exact ha.elim
  · rwa [next_of_not_fresh hf]

end Context

end Joker.Ledger
