import Joker.Ledger.CommittedSales
import Joker.Ledger.FillCap

/-!
# Room on an order

Library `Ledger`. What an order can still take: its fills and a further quantity stay within
what was submitted. Only a new submission under the same client order id, and fills of the
order itself, take room away, as long as the context keeps what fills make of their orders.
-/

namespace Joker.Ledger

open Joker.Base

/-- An order of whole contracts. -/
structure OrderLifecycle.InContracts (order : OrderLifecycle) : Prop where
  submitted_whole : Whole order.submittedQty
  filled_whole : Whole order.filledQty

/-- The order has not filled a quantity of what was submitted. -/
def Replay.Room (r : Replay) (c : String) (q : ℚ) : Prop :=
  ∃ order ∈ r.tables.orders.get? c, order.filledQty + q ≤ order.submittedQty

instance (r : Replay) (c : String) (q : ℚ) : Decidable (r.Room c q) :=
  inferInstanceAs (Decidable (∃ _ ∈ _, _))

instance (q : ℚ) : Decidable (Whole q) :=
  decidable_of_iff (q.den = 1) ⟨fun h ↦ ⟨q.num, ((Rat.den_eq_one_iff q).mp h).symm⟩,
    fun ⟨n, h⟩ ↦ h ▸ Rat.den_intCast n⟩

private theorem inContracts_feeless (order : OrderLifecycle) :
    order.feeless.InContracts ↔ order.InContracts :=
  ⟨fun ⟨h, h'⟩ ↦ ⟨h, h'⟩, fun ⟨h, h'⟩ ↦ ⟨h, h'⟩⟩

private theorem whole_zero : Whole 0 := ⟨0, by simp⟩

/-! ### One order -/

section

variable {e : LedgerEvent} {found : Option OrderLifecycle}

private theorem whole_filledSoFar (h : ∀ o ∈ found, o.InContracts) : Whole (filledSoFar found) := by
  cases found with
  | none => exact whole_zero
  | some order => exact (h order rfl).filled_whole

private theorem inContracts_ensureOrder (h : ∀ o ∈ found, o.InContracts)
    (hw : Whole e.quantity) : (ensureOrder e found).InContracts := by
  cases found with
  | none =>
    constructor
    · unfold ensureOrder OrderLifecycle.new
      simp only
      split
      · exact hw
      · split
        · exact hw
        · exact whole_zero
    · exact whole_zero
  | some order => exact h order rfl

private theorem whole_appliedQty (h : ∀ o ∈ found, o.InContracts) (hw : Whole e.quantity) :
    Whole (appliedQty e found) := by
  by_cases hskipped : e.price = none ∨ e.quantity ≤ 0
  · rw [appliedQty_of_skipped hskipped]
    exact whole_zero
  · push Not at hskipped
    obtain ⟨price, hp⟩ := Option.ne_none_iff_exists'.mp hskipped.1
    obtain ⟨hs, hf⟩ := inContracts_ensureOrder h hw
    rw [appliedQty_of_priced hp hskipped.2]
    unfold fillOrder
    rw [applied_accumulateFill, filledQty_noteBrokerOrderId, submittedQty_noteBrokerOrderId]
    split
    · exact whole_max whole_zero (whole_min hw (whole_sub hs hf))
    · exact whole_max whole_zero hw

private theorem inContracts_filledOrder [DecimalContext] (h : ∀ o ∈ found, o.InContracts)
    (hw : Whole e.quantity) (hkept : e.price ≠ none → 0 < e.quantity → KeepsOrder e found) :
    ∀ o ∈ filledOrder e found, o.InContracts := by
  apply forall_filledOrder h
  intro price hp hq status
  obtain ⟨avg, hfill⟩ := fillOrder_of_kept hp hq (hkept (hp ▸ nofun) hq)
  obtain ⟨hs, hf⟩ := inContracts_ensureOrder h hw
  rw [hfill]
  constructor
  · change Whole ((ensureOrder e found).noteBrokerOrderId e).submittedQty
    rwa [submittedQty_noteBrokerOrderId]
  · change Whole (((ensureOrder e found).noteBrokerOrderId e).filledQty + appliedQty e found)
    rw [filledQty_noteBrokerOrderId]
    exact whole_add hf (whole_appliedQty h hw)

/-- An event about whole contracts leaves its order with whole contracts. -/
theorem inContracts_orderAfter [DecimalContext] (h : ∀ o ∈ found, o.InContracts)
    (hw : Whole e.quantity)
    (hkept : e.isFill = true → e.price ≠ none → 0 < e.quantity → KeepsOrder e found) :
    ∀ o ∈ orderAfter e found, o.InContracts := by
  have hens := inContracts_ensureOrder h hw
  unfold LedgerEvent.isFill at hkept
  unfold orderAfter
  cases he : e.eventType with
  | orderSubmissionRequested =>
    rintro _ ⟨⟩
    constructor
    · rwa [submittedQty_submitOrder]
    · rw [filledQty_submitOrder]
      exact whole_filledSoFar h
  | brokerOrderAccepted =>
    rintro _ ⟨⟩
    constructor
    · rw [submittedQty_acceptOrder]
      split
      · exact hw
      · exact hens.submitted_whole
    · rw [filledQty_acceptOrder]
      exact whole_filledSoFar h
  | partialFill => exact inContracts_filledOrder h hw (hkept (by rw [he]; rfl))
  | finalFill => exact inContracts_filledOrder h hw (hkept (by rw [he]; rfl))
  | cancellation =>
    rintro _ ⟨⟩
    obtain ⟨status, hs⟩ := cancelOrder_eq e found
    rw [hs]
    exact ⟨hens.submitted_whole, hens.filled_whole⟩
  | rejection =>
    rintro _ ⟨⟩
    obtain ⟨status, hs⟩ := rejectOrder_eq e found
    rw [hs]
    exact ⟨hens.submitted_whole, hens.filled_whole⟩
  | _ => exact h

end

/-- A fill applies at most its quantity. -/
theorem appliedQty_le (e : LedgerEvent) (found : Option OrderLifecycle) :
    appliedQty e found ≤ e.quantity := by
  unfold appliedQty
  cases e.price with
  | none => exact e.quantity_nonneg
  | some price =>
    simp only
    split
    · exact e.quantity_nonneg
    · unfold fillOrder
      rw [applied_accumulateFill]
      split
      · exact max_le e.quantity_nonneg (min_le_left _ _)
      · exact max_le e.quantity_nonneg (le_refl _)

section Context

variable [DecimalContext]

/-- An event leaves an order its room, unless it submits the order anew or fills too much. -/
theorem room_orderAfter {e : LedgerEvent} {order : OrderLifecycle} {q : ℚ} (hq : 0 < q)
    (hfilled : 0 ≤ order.filledQty) (hroom : order.filledQty + q ≤ order.submittedQty)
    (hsub : e.eventType ≠ .orderSubmissionRequested)
    (hfill : e.isFill = true → order.filledQty + e.quantity + q ≤ order.submittedQty)
    (hkept : e.isFill = true → e.price ≠ none → 0 < e.quantity → KeepsOrder e (some order)) :
    ∃ order' ∈ orderAfter e (some order), order'.filledQty + q ≤ order'.submittedQty := by
  have hpos : 0 < order.submittedQty := by linarith
  have hfills (hf : e.isFill = true) :
      ∃ order' ∈ filledOrder e (some order), order'.filledQty + q ≤ order'.submittedQty := by
    obtain ⟨status, id, avg, hafter⟩ := filledOrder_some (hkept hf)
    refine ⟨_, hafter, ?_⟩
    have happlied := appliedQty_le e (some order)
    have hlimit := hfill hf
    change order.filledQty + appliedQty e (some order) + q ≤ order.submittedQty
    linarith
  unfold orderAfter
  cases he : e.eventType with
  | orderSubmissionRequested => exact absurd he hsub
  | brokerOrderAccepted =>
    refine ⟨_, rfl, ?_⟩
    rw [filledQty_acceptOrder, submittedQty_acceptOrder]
    change order.filledQty + q ≤ if 0 < e.quantity ∧ order.submittedQty = 0 then _ else _
    rwa [if_neg (fun hzero ↦ hpos.ne' hzero.2)]
  | partialFill => exact hfills (by simp [LedgerEvent.isFill, he])
  | finalFill => exact hfills (by simp [LedgerEvent.isFill, he])
  | cancellation =>
    obtain ⟨status, hs⟩ := cancelOrder_eq e (some order)
    exact ⟨_, rfl, by rwa [hs]⟩
  | rejection =>
    obtain ⟨status, hs⟩ := rejectOrder_eq e (some order)
    exact ⟨_, rfl, by rwa [hs]⟩
  | _ => exact ⟨order, rfl, hroom⟩

/-! ### One event -/

/-- A turn about whole contracts keeps all orders in whole contracts. -/
theorem inContracts_next {r : Replay} {e : LedgerEvent}
    (h : r.ForallOrders OrderLifecycle.InContracts) (hc : e.NotCorrection)
    (hw : Whole e.quantity) (hkept : KeepsOrderSums r.freeze e) :
    (r.next e).ForallOrders OrderLifecycle.InContracts := by
  by_cases hf : r.Fresh e
  · rw [forallOrders_next_iff inContracts_feeless hc hf h]
    exact inContracts_orderAfter (h e.clientOrderId) hw
      (fun hfill hprice hq ↦ hkept ⟨hf.1, hf.2, hfill, hprice, hq⟩)
  · rwa [next_of_not_fresh hf]

/-- A turn leaves an order its room, unless it submits the order anew or fills too much. -/
theorem room_next {r : Replay} {e : LedgerEvent} {c : String} {q : ℚ} (hq : 0 < q)
    (hfilled : r.ForallOrders (fun o ↦ 0 ≤ o.filledQty)) (h : r.Room c q) (hc : e.NotCorrection)
    (hsub : e.eventType = .orderSubmissionRequested → e.clientOrderId ≠ c)
    (hfill : e.isFill = true → e.clientOrderId = c → r.Room c (e.quantity + q))
    (hkept : KeepsOrderSums r.freeze e) : (r.next e).Room c q := by
  obtain ⟨order, ho, hroom⟩ := h
  by_cases hf : r.Fresh e
  · have hafter : ∃ order' ∈ (if e.clientOrderId = c then orderAfter e (r.tables.orders.get? c)
        else r.tables.orders.get? c), order'.filledQty + q ≤ order'.submittedQty := by
      split
      · next hmine =>
        rw [ho]
        apply room_orderAfter hq (hfilled c order ho) hroom
        · exact fun hs ↦ hsub hs hmine
        · intro hfills
          obtain ⟨known, hk, hlimit⟩ := hfill hfills hmine
          rw [Option.mem_def, Option.mem_def.mp ho] at hk
          cases hk
          rwa [add_assoc]
        · intro hfills hprice hq
          have hsums := hkept ⟨hf.1, hf.2, hfills, hprice, hq⟩
          change KeepsOrder e (r.tables.orders.get? e.clientOrderId) at hsums
          rwa [hmine, Option.mem_def.mp ho] at hsums
      · exact ⟨order, ho, hroom⟩
    obtain ⟨order', ho', hroom'⟩ := hafter
    have hnext := feeless_next hc hf c
    rw [Option.mem_def.mp ho', Option.map_some] at hnext
    obtain ⟨known, hk, hsame⟩ := Option.map_eq_some_iff.mp hnext
    refine ⟨known, hk, ?_⟩
    have hfilled' : known.filledQty = order'.filledQty := congrArg (fun o ↦ o.filledQty) hsame
    have hsubmitted : known.submittedQty = order'.submittedQty :=
      congrArg (fun o ↦ o.submittedQty) hsame
    rwa [hfilled', hsubmitted]
  · rw [next_of_not_fresh hf]
    exact ⟨order, ho, hroom⟩

end Context

end Joker.Ledger
