import Joker.Base.WeightedMean
import Joker.Ledger.FillTally

/-!
# Average fill prices

Library `Ledger`. The filled quantity and the average price of a projected order are the running
weighted mean of the quantities its fills applied, at the fills' prices. Nothing but a fill that
applies something changes either of them.
-/

namespace Joker.Ledger

open Joker.Base
open scoped ExactArithmetic

/-- What an order has filled, and its average price. -/
def OrderLifecycle.average (order : OrderLifecycle) : WeightedMean ℚ :=
  ⟨order.filledQty, order.avgFillPrice⟩

/-- The same of an order that may be unknown. -/
def averageOf (found : Option OrderLifecycle) : WeightedMean ℚ :=
  (found.map OrderLifecycle.average).getD WeightedMean.empty

/-- The quantity an event applies to its order as a fill, after the clamp, and its price; nothing
for an event that applies nothing. -/
def appliedFill (e : LedgerEvent) (found : Option OrderLifecycle) : Option (ℚ × ℚ) :=
  match e.price with
  | none => none
  | some price =>
    if e.isFill = true ∧ 0 < appliedQty e found then some (appliedQty e found, price) else none

/-- What the fills of a client order apply while a ledger is replayed; repetitions are skipped. -/
def fillsFrom (c : String) : Replay → List LedgerEvent → List (ℚ × ℚ)
  | _, [] => []
  | r, e :: rest =>
    (if r.Fresh e ∧ e.clientOrderId = c then (appliedFill e (r.tables.orders.get? c)).toList
      else []) ++ fillsFrom c (r.next e) rest

/-- What the fills of a client order apply in a whole ledger. -/
def appliedFills (c : String) (events : List LedgerEvent) : List (ℚ × ℚ) :=
  fillsFrom c Replay.start events

/-! ### One event -/

/-- A fill that applies something is taken into the mean. -/
theorem average_accumulateFill (order : OrderLifecycle) (qty price : ℚ) (overfill : Bool) :
    (accumulateFill order qty price overfill).1.average =
      if (accumulateFill order qty price overfill).2 ≤ 0 then order.average
      else order.average.add ((accumulateFill order qty price overfill).2, price) := by
  unfold accumulateFill
  simp only [rounded_exact]
  by_cases hfull : (!overfill && decide (0 < order.submittedQty)) = true ∧
      order.submittedQty - order.filledQty ≤ 0
  · rw [if_pos hfull, if_pos (le_refl 0)]
  · rw [if_neg hfull]
    generalize (if (!overfill && decide (0 < order.submittedQty)) = true
      then min qty (order.submittedQty - order.filledQty) else qty) = applied
    by_cases happlied : applied ≤ 0
    · rw [if_pos happlied, if_pos (le_refl 0)]
    · rw [if_neg happlied, if_neg happlied]
      unfold OrderLifecycle.average WeightedMean.add
      cases order.avgFillPrice with
      | none => rfl
      | some avg => rfl

/-- The broker's id of an order is no part of its average. -/
@[simp] theorem average_noteBrokerOrderId (order : OrderLifecycle) (e : LedgerEvent) :
    (order.noteBrokerOrderId e).average = order.average := by
  unfold OrderLifecycle.noteBrokerOrderId
  split <;> rfl

private theorem average_ensureOrder (e : LedgerEvent) (found : Option OrderLifecycle) :
    (ensureOrder e found).average = averageOf found := by
  cases found <;> rfl

private theorem average_submitOrder (e : LedgerEvent) (found : Option OrderLifecycle) :
    (submitOrder e found).average = averageOf found := by
  cases found with
  | none => rfl
  | some order =>
    have hnoted (status : OrderStatus) (noted : OrderLifecycle)
        (h : noted.average = order.average) :
        ({ noted with status := status } : OrderLifecycle).average = order.average := h
    unfold submitOrder
    simp only
    split
    · rw [average_noteBrokerOrderId]
      rfl
    · exact hnoted _ _ (average_noteBrokerOrderId _ e)

private theorem average_acceptOrder (e : LedgerEvent) (found : Option OrderLifecycle) :
    (acceptOrder e found).average = averageOf found := by
  have h : (acceptOrder e found).average = ((ensureOrder e found).noteBrokerOrderId e).average := by
    unfold acceptOrder
    simp only
    split <;> split <;> rfl
  rw [h, average_noteBrokerOrderId, average_ensureOrder]

/-- The fill branch takes what it applies into the mean. -/
theorem averageOf_filledOrder {e : LedgerEvent} (hf : e.isFill = true)
    (found : Option OrderLifecycle) :
    averageOf (filledOrder e found) =
      (appliedFill e found).elim (averageOf found) (averageOf found).add := by
  unfold filledOrder appliedFill appliedQty
  cases e.price with
  | none => rfl
  | some price =>
    by_cases hq : e.quantity ≤ 0
    · simp only [hq, if_true, lt_irrefl, and_false, if_false]
      rfl
    · have hfill : (fillOrder e price found).1.average =
          if (fillOrder e price found).2 ≤ 0 then averageOf found
          else (averageOf found).add ((fillOrder e price found).2, price) := by
        have hsame : averageOf found = ((ensureOrder e found).noteBrokerOrderId e).average := by
          rw [average_noteBrokerOrderId, average_ensureOrder]
        rw [hsame]
        exact average_accumulateFill _ _ _ _
      simp only [hq, if_false, hf, true_and]
      by_cases ha : (fillOrder e price found).2 ≤ 0
      · rw [if_pos ha] at hfill ⊢
        rw [if_neg (not_lt.mpr ha)]
        exact hfill
      · rw [if_neg ha] at hfill ⊢
        rw [if_pos (not_le.mp ha)]
        exact hfill

/-- Only a fill that applies something changes the mean of its order. -/
theorem averageOf_orderAfter (e : LedgerEvent) (found : Option OrderLifecycle) :
    averageOf (orderAfter e found) =
      (appliedFill e found).elim (averageOf found) (averageOf found).add := by
  have hother (h : e.isFill = false) : appliedFill e found = none := by
    unfold appliedFill
    rw [h]
    cases e.price with
    | none => rfl
    | some price => exact if_neg (fun hand ↦ Bool.false_ne_true hand.1)
  unfold orderAfter
  cases he : e.eventType with
  | orderSubmissionRequested =>
    rw [hother (by simp [LedgerEvent.isFill, he])]
    exact average_submitOrder e found
  | brokerOrderAccepted =>
    rw [hother (by simp [LedgerEvent.isFill, he])]
    exact average_acceptOrder e found
  | partialFill => exact averageOf_filledOrder (by simp [LedgerEvent.isFill, he]) found
  | finalFill => exact averageOf_filledOrder (by simp [LedgerEvent.isFill, he]) found
  | cancellation =>
    rw [hother (by simp [LedgerEvent.isFill, he])]
    obtain ⟨status, hs⟩ := cancelOrder_eq e found
    rw [hs]
    exact average_ensureOrder e found
  | rejection =>
    rw [hother (by simp [LedgerEvent.isFill, he])]
    obtain ⟨status, hs⟩ := rejectOrder_eq e found
    rw [hs]
    exact average_ensureOrder e found
  | _ =>
    rw [hother (by simp [LedgerEvent.isFill, he])]
    rfl

/-- Fees play no part. -/
theorem averageOf_feeless (found : Option OrderLifecycle) :
    averageOf (found.map OrderLifecycle.feeless) = averageOf found := by
  cases found <;> rfl

/-- The step: a turn takes into the mean of an order what the event applies to it. -/
theorem averageOf_next {r : Replay} {e : LedgerEvent} (hc : e.NotCorrection) (c : String) :
    averageOf ((r.next e).tables.orders.get? c) =
      (if r.Fresh e ∧ e.clientOrderId = c then (appliedFill e (r.tables.orders.get? c)).toList
        else []).foldl WeightedMean.add (averageOf (r.tables.orders.get? c)) := by
  by_cases hf : r.Fresh e
  · rw [← averageOf_feeless, feeless_next hc hf, averageOf_feeless]
    by_cases hk : e.clientOrderId = c
    · rw [if_pos hk, if_pos ⟨hf, hk⟩, averageOf_orderAfter]
      cases appliedFill e (r.tables.orders.get? c) <;> rfl
    · rw [if_neg hk, if_neg (fun h ↦ hk h.2)]
      rfl
  · rw [next_of_not_fresh hf, if_neg (fun h ↦ hf h.1)]
    rfl

/-! ### A ledger -/

/-- The run: a replay takes into the mean of an order what its fills apply. -/
theorem averageOf_run (c : String) {events : List LedgerEvent} (h : ∀ e ∈ events, e.NotCorrection)
    (r : Replay) :
    averageOf ((run Replay.next r events).tables.orders.get? c) =
      (fillsFrom c r events).foldl WeightedMean.add (averageOf (r.tables.orders.get? c)) := by
  induction events generalizing r with
  | nil => rfl
  | cons e rest ih =>
    rw [run_cons, ih (fun x hx ↦ h x (List.mem_cons_of_mem e hx)),
      averageOf_next (h e List.mem_cons_self), fillsFrom, List.foldl_append]

/-- Fills that apply something apply a positive quantity. -/
theorem appliedFills_pos (c : String) (events : List LedgerEvent) :
    ∀ fill ∈ appliedFills c events, 0 < fill.1 := by
  unfold appliedFills
  generalize Replay.start = r
  induction events generalizing r with
  | nil => exact nofun
  | cons e rest ih =>
    intro fill hfill
    rcases List.mem_append.mp hfill with hhead | hrest
    · split at hhead
      · have happlied := Option.mem_toList.mp hhead
        unfold appliedFill at happlied
        split at happlied
        · cases happlied
        · split at happlied
          · next hpos =>
            cases happlied
            exact hpos.2
          · cases happlied
      · cases hhead
    · exact ih (r.next e) fill hrest

/-- The average price of an order in exact arithmetic: of a ledger without corrections, the filled
quantity is the sum of what the order's fills applied, the average price weighs their prices by it,
and lies between the smallest and the largest of these. -/
theorem avgFillPrice_exact (events : List LedgerEvent) (h : ∀ e ∈ events, e.NotCorrection) :
    ∃ st, project events = .ok st ∧
      ∀ c order, st.orders.get? c = some order → 0 < order.filledQty →
        ∃ avg low high, order.avgFillPrice = some avg ∧
          order.filledQty = ((appliedFills c events).map (fun fill ↦ fill.1)).sum ∧
          order.filledQty * avg = ((appliedFills c events).map (fun fill ↦ fill.1 * fill.2)).sum ∧
          ((appliedFills c events).map (fun fill ↦ fill.2)).min? = some low ∧
          ((appliedFills c events).map (fun fill ↦ fill.2)).max? = some high ∧
          low ≤ avg ∧ avg ≤ high := by
  refine ⟨_, project_eq_ok.mpr ⟨_, replay_eq_run Replay.start events h, rfl⟩, ?_⟩
  intro c order ho hfilled
  have hmean : averageOf (some order) = WeightedMean.of (appliedFills c events) := by
    rw [← ho]
    exact averageOf_run c h Replay.start
  have hpos := appliedFills_pos c events
  have hweight : order.filledQty = (WeightedMean.of (appliedFills c events)).weight :=
    congrArg WeightedMean.weight hmean
  have havg : order.avgFillPrice = (WeightedMean.of (appliedFills c events)).mean :=
    congrArg WeightedMean.mean hmean
  cases hm : (WeightedMean.of (appliedFills c events)).mean with
  | none =>
    rw [hweight, WeightedMean.eq_nil_of_mean hm] at hfilled
    exact absurd hfilled (lt_irrefl 0)
  | some avg =>
    have hne : (appliedFills c events).map (fun fill ↦ fill.2) ≠ [] := by
      intro hnil
      rw [List.map_eq_nil_iff.mp hnil] at hm
      cases hm
    obtain ⟨low, hlow⟩ := Option.isSome_iff_exists.mp (List.isSome_min?_of_ne_nil hne)
    obtain ⟨high, hhigh⟩ := Option.isSome_iff_exists.mp (List.isSome_max?_of_ne_nil hne)
    refine ⟨avg, low, high, havg.trans hm, hweight.trans (WeightedMean.weight_of _), ?_, hlow,
      hhigh, ?_, ?_⟩
    · rw [hweight]
      exact WeightedMean.weight_mul_mean hpos hm
    · apply WeightedMean.le_mean hpos hm
      intro fill hfill
      exact (List.min?_eq_some_iff.mp hlow).2 _ (List.mem_map_of_mem hfill)
    · apply WeightedMean.mean_le hpos hm
      intro fill hfill
      exact (List.max?_eq_some_iff.mp hhigh).2 _ (List.mem_map_of_mem hfill)

/-- Three contracts submitted, of which one is filled at a dollar and the rest at four. -/
def filledTwice : List LedgerEvent :=
  [⟨EventFields.sample .orderSubmissionRequested "s" .buy 3 none, EventFields.valid_orderOfThree⟩,
    ⟨EventFields.sample .partialFill "f" .buy 1 (some 1), EventFields.valid_firstFill⟩,
    ⟨EventFields.sample .finalFill "g" .buy 5 (some 4), by decide +kernel⟩]

example : appliedFills "c" filledTwice = [(1, 1), (2, 4)] := by decide +kernel

/-- The average price of the two fills. -/
theorem avgFillPrice_exact_filledTwice :
    ∃ st, project filledTwice = .ok st ∧
      ∀ c order, st.orders.get? c = some order → 0 < order.filledQty →
        ∃ avg low high, order.avgFillPrice = some avg ∧
          order.filledQty = ((appliedFills c filledTwice).map (fun fill ↦ fill.1)).sum ∧
          order.filledQty * avg =
            ((appliedFills c filledTwice).map (fun fill ↦ fill.1 * fill.2)).sum ∧
          ((appliedFills c filledTwice).map (fun fill ↦ fill.2)).min? = some low ∧
          ((appliedFills c filledTwice).map (fun fill ↦ fill.2)).max? = some high ∧
          low ≤ avg ∧ avg ≤ high :=
  avgFillPrice_exact filledTwice (by decide +kernel)

end Joker.Ledger
