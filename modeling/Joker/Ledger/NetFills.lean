import Joker.Base.Totals
import Joker.Ledger.ContextReplay

/-!
# Positions as the net of order fills

Library `Ledger`. The order map and the position map are written by separate routines from the
same event. As long as an order keeps its contract and side, a closing fill stays within the
position that it closes and no quantity is rounded, a contract's quantity is what its buy orders
filled less what its sell orders filled.
-/

namespace Joker.Ledger

open Joker.Base CostAccount

/-- The sum of `filled_qty` over the orders of one side on a contract. -/
def ProjectionState.filledOn (st : ProjectionState) (side : Side) (c : String) : ℚ :=
  ((st.orders.values.filter (fun o ↦ o.side = side ∧ o.contractId = c)).map
    (fun o ↦ o.filledQty)).sum

/-- All events of one client order id carry the same contract and side. -/
def OrdersFixed (events : List LedgerEvent) : Prop :=
  ∀ e ∈ events, ∀ e' ∈ events, e.clientOrderId = e'.clientOrderId →
    e.contractId = e'.contractId ∧ e.side = e'.side

/-- A fill against the position of its contract applies no more than what is held. Duplicates are
not applied. -/
def ClosesWithin (st : ProjectionState) (e : LedgerEvent) : Prop :=
  e.ledgerEventId ∉ st.seenEventIds → e.idempotencyKey ∉ st.seenIdempotencyKeys →
    e.isFill = true →
      let held := (st.position e.contractId).quantity
      let moved := e.side.signed (appliedQty e (st.orders.get? e.clientOrderId))
      (0 < held ∧ moved < 0) ∨ (held < 0 ∧ 0 < moved) → |moved| ≤ |held|

instance (events : List LedgerEvent) : Decidable (OrdersFixed events) :=
  inferInstanceAs (Decidable (∀ _ ∈ _, ∀ _ ∈ _, _))

instance (st : ProjectionState) (e : LedgerEvent) : Decidable (ClosesWithin st e) :=
  inferInstanceAs (Decidable (_ → _))

private theorem closesWithin_freeze_iff [DecimalContext] (r : Replay) (e : LedgerEvent) :
    ClosesWithin r.freeze e ↔ (r.Fresh e → e.isFill = true →
      let held := (r.tables.position e.contractId).quantity
      let moved := e.side.signed (appliedQty e (r.tables.orders.get? e.clientOrderId))
      (0 < held ∧ moved < 0) ∨ (held < 0 ∧ 0 < moved) → |moved| ≤ |held|) := by
  unfold ClosesWithin
  rw [position_freeze]
  exact ⟨fun h hf ↦ h hf.1 hf.2, fun h hid hkey ↦ h ⟨hid, hkey⟩⟩

section Exact

open scoped ExactArithmetic

/-! ### Orders -/

/-- The signed fills of an order, where it is on a contract. -/
def OrderLifecycle.netOn (c : String) (order : OrderLifecycle) : ℚ :=
  if order.contractId = c then order.side.signed order.filledQty else 0

/-- Buys less sells are the signed fills. -/
theorem filledOn_sub (st : ProjectionState) (c : String) :
    st.filledOn .buy c - st.filledOn .sell c = st.orders.total (OrderLifecycle.netOn c) := by
  unfold ProjectionState.filledOn Dict.total
  induction st.orders.values with
  | nil => simp
  | cons o rest ih =>
    rw [List.map_cons, List.sum_cons, ← ih]
    unfold OrderLifecycle.netOn
    by_cases hc : o.contractId = c
    · cases hs : o.side <;> simp [hc, hs, Side.signed] <;> ring
    · simp [hc]

/-- An order is on an event's contract and side. -/
def OrderLifecycle.OnTermsOf (order : OrderLifecycle) (e : LedgerEvent) : Prop :=
  order.contractId = e.contractId ∧ order.side = e.side

/-- An event leaves its order on its terms. -/
theorem onTerms_orderAfter {e : LedgerEvent} {found : Option OrderLifecycle}
    (h : ∀ o ∈ found, o.OnTermsOf e) : ∀ o ∈ orderAfter e found, o.OnTermsOf e := by
  have hensure : (ensureOrder e found).OnTermsOf e := by
    cases found with
    | none => exact ⟨rfl, rfl⟩
    | some order => exact h order rfl
  have hnote {order : OrderLifecycle} (ho : order.OnTermsOf e) :
      (order.noteBrokerOrderId e).OnTermsOf e := by
    unfold OrderLifecycle.noteBrokerOrderId
    split <;> exact ho
  have hfill : ∀ o ∈ filledOrder e found, o.OnTermsOf e := by
    apply forall_filledOrder h
    intro price _ _ status
    obtain ⟨avg, heq⟩ := accumulateFill_order ((ensureOrder e found).noteBrokerOrderId e)
      e.quantity price (allowOverfill e)
    unfold fillOrder
    rw [heq]
    exact hnote hensure
  unfold orderAfter
  cases e.eventType with
  | orderSubmissionRequested =>
    intro o ho
    cases ho
    cases found with
    | none => exact ⟨rfl, rfl⟩
    | some order =>
      unfold submitOrder
      simp only
      split <;> exact hnote ⟨rfl, rfl⟩
  | brokerOrderAccepted =>
    intro o ho
    cases ho
    unfold acceptOrder
    simp only
    split <;> split <;> exact hnote hensure
  | partialFill => exact hfill
  | finalFill => exact hfill
  | cancellation =>
    intro o ho
    cases ho
    obtain ⟨status, hs⟩ := cancelOrder_eq e found
    exact hs ▸ hensure
  | rejection =>
    intro o ho
    cases ho
    obtain ⟨status, hs⟩ := rejectOrder_eq e found
    exact hs ▸ hensure
  | _ => exact h

/-- The quantity an event applies: only fills apply any. -/
def movedBy (e : LedgerEvent) (found : Option OrderLifecycle) : ℚ :=
  if e.isFill = true then appliedQty e found else 0

private theorem filledSoFar_filledOrder (e : LedgerEvent) (found : Option OrderLifecycle) :
    filledSoFar (filledOrder e found) = filledSoFar found + appliedQty e found := by
  unfold filledOrder appliedQty
  cases e.price with
  | none => exact (add_zero _).symm
  | some price =>
    by_cases hq : e.quantity ≤ 0
    · simp only [hq, if_true, add_zero]
    · have hf : (fillOrder e price found).1.filledQty =
          filledSoFar found + (fillOrder e price found).2 := by
        unfold fillOrder
        rw [filledQty_accumulateFill, filledQty_noteBrokerOrderId, filledQty_ensureOrder]
      simp only [hq, if_false]
      split <;> exact hf

/-- An order's fills grow by what the event applies. -/
theorem filledSoFar_orderAfter {e : LedgerEvent} (hc : e.NotCorrection)
    (found : Option OrderLifecycle) :
    filledSoFar (orderAfter e found) = filledSoFar found + movedBy e found := by
  unfold LedgerEvent.NotCorrection at hc
  unfold orderAfter movedBy LedgerEvent.isFill
  cases he : e.eventType with
  | orderSubmissionRequested => exact (filledQty_submitOrder e found).trans (add_zero _).symm
  | brokerOrderAccepted => exact (filledQty_acceptOrder e found).trans (add_zero _).symm
  | partialFill => exact filledSoFar_filledOrder e found
  | finalFill => exact filledSoFar_filledOrder e found
  | cancellation =>
    obtain ⟨status, hs⟩ := cancelOrder_eq e found
    change (cancelOrder e found).filledQty = _
    rw [hs]
    exact (filledQty_ensureOrder e found).trans (add_zero _).symm
  | rejection =>
    obtain ⟨status, hs⟩ := rejectOrder_eq e found
    change (rejectOrder e found).filledQty = _
    rw [hs]
    exact (filledQty_ensureOrder e found).trans (add_zero _).symm
  | reconciliationCorrection => exact absurd he hc
  | _ => exact (add_zero _).symm

private theorem weight_of_onTerms {e : LedgerEvent} {found : Option OrderLifecycle} (c : String)
    (h : ∀ o ∈ found, o.OnTermsOf e) :
    (found.map (OrderLifecycle.netOn c)).getD 0 =
      if e.contractId = c then e.side.signed (filledSoFar found) else 0 := by
  cases found with
  | none =>
    change (0 : ℚ) = if e.contractId = c then e.side.signed 0 else 0
    rw [signed_zero, ite_self]
  | some order =>
    obtain ⟨hcontract, hside⟩ := h order rfl
    change order.netOn c = if e.contractId = c then e.side.signed order.filledQty else 0
    unfold OrderLifecycle.netOn
    rw [hcontract, hside]

private theorem signed_add (side : Side) (x y : ℚ) :
    side.signed (x + y) = side.signed x + side.signed y := by
  cases side with
  | buy => rfl
  | sell => exact neg_add x y

/-! ### Steps -/

/-- A fresh event adds what it applies to the net of its contract. -/
theorem total_next {r : Replay} {e : LedgerEvent} (hc : e.NotCorrection) (hf : r.Fresh e)
    (hterms : ∀ o ∈ r.tables.orders.get? e.clientOrderId, o.OnTermsOf e) (c : String) :
    (r.next e).tables.orders.total (OrderLifecycle.netOn c) =
      r.tables.orders.total (OrderLifecycle.netOn c) + if e.contractId = c then
        e.side.signed (movedBy e (r.tables.orders.get? e.clientOrderId)) else 0 := by
  have hfees (o : Option OrderLifecycle) : (o.map (OrderLifecycle.netOn c)).getD 0 =
      ((o.map OrderLifecycle.feeless).map (OrderLifecycle.netOn c)).getD 0 := by
    cases o <;> rfl
  have hweight (k : String) : (r.next e).tables.orders.weightAt (OrderLifecycle.netOn c) k =
      ((if e.clientOrderId = k then orderAfter e (r.tables.orders.get? k)
        else r.tables.orders.get? k).map (OrderLifecycle.netOn c)).getD 0 := by
    unfold Dict.weightAt
    rw [hfees, feeless_next hc hf k, ← hfees]
  have hother (k : String) (hk : k ≠ e.clientOrderId) :
      (r.next e).tables.orders.weightAt (OrderLifecycle.netOn c) k =
        r.tables.orders.weightAt (OrderLifecycle.netOn c) k := by
    rw [hweight, if_neg hk.symm]
    rfl
  have hown : (r.next e).tables.orders.weightAt (OrderLifecycle.netOn c) e.clientOrderId =
      r.tables.orders.weightAt (OrderLifecycle.netOn c) e.clientOrderId +
        if e.contractId = c then
          e.side.signed (movedBy e (r.tables.orders.get? e.clientOrderId)) else 0 := by
    rw [hweight, if_pos rfl, weight_of_onTerms c (onTerms_orderAfter hterms),
      filledSoFar_orderAfter hc, signed_add]
    unfold Dict.weightAt
    rw [weight_of_onTerms c hterms]
    split
    · rfl
    · rw [add_zero]
  have htotal := Dict.total_sub_weightAt (OrderLifecycle.netOn c) hother
  rw [hown] at htotal
  linarith

/-- A fresh event moves the position of its contract by what it applies, within what is held. -/
theorem quantity_next {r : Replay} {e : LedgerEvent} (hc : e.NotCorrection) (hf : r.Fresh e)
    (hclose : ClosesWithin r.freeze e) (c : String) :
    ((r.next e).tables.position c).quantity = (r.tables.position c).quantity +
      if e.contractId = c then
        e.side.signed (movedBy e (r.tables.orders.get? e.clientOrderId)) else 0 := by
  obtain ⟨t, ht⟩ := applyEvent_ok e r.tables hc
  have hn : (r.next e).tables = t := by
    simp only [Replay.next, Replay.step, if_pos hf, ht]
  rw [hn]
  unfold movedBy
  cases hfill : e.isFill with
  | false =>
    rw [quantity_of_holding (holding_applyEvent_of_not_fill hc hfill ht c)]
    simp only [Bool.false_eq_true, if_false, signed_zero, ite_self, add_zero]
  | true =>
    rw [applyEvent_of_fill hfill] at ht
    cases ht
    rw [quantity_applyFill, if_pos rfl]
    split
    · next heq =>
      subst heq
      have hwithin := (closesWithin_freeze_iff r e).mp hclose hf hfill
      apply if_neg
      rintro (⟨hheld, hmoved⟩ | ⟨hheld, hmoved⟩)
      · have hle := hwithin (.inr ⟨hheld, by linarith⟩)
        rw [abs_of_neg hheld, abs_of_pos (by linarith)] at hle
        linarith
      · have hle := hwithin (.inl ⟨hheld, by linarith⟩)
        rw [abs_of_pos hheld, abs_of_neg (by linarith)] at hle
        linarith
    · rw [add_zero]

/-! ### Runs -/

/-- Every order is on the terms of the events that name it. -/
private def Fixed (events : List LedgerEvent) (r : Replay) : Prop :=
  ∀ e ∈ events, ∀ o ∈ r.tables.orders.get? e.clientOrderId, o.OnTermsOf e

private theorem fixed_next {events : List LedgerEvent} (hfixed : OrdersFixed events) {r : Replay}
    {e : LedgerEvent} (hc : e.NotCorrection) (he : e ∈ events) (h : Fixed events r) :
    Fixed events (r.next e) := by
  by_cases hf : r.Fresh e
  · intro e' he' o ho
    have hk := feeless_next hc hf e'.clientOrderId
    rw [Option.mem_def.mp ho] at hk
    obtain ⟨o', ho', heq⟩ := Option.map_eq_some_iff.mp hk.symm
    have hsame : o.OnTermsOf e' ↔ o'.OnTermsOf e' := by
      have hcontract : o'.contractId = o.contractId := congrArg (·.contractId) heq
      have hside : o'.side = o.side := congrArg (·.side) heq
      unfold OrderLifecycle.OnTermsOf
      rw [hcontract, hside]
    rw [hsame]
    by_cases hid : e.clientOrderId = e'.clientOrderId
    · rw [if_pos hid, ← hid] at ho'
      have hterms := onTerms_orderAfter (h e he) o' ho'
      obtain ⟨hcontract, hside⟩ := hfixed e he e' he' hid
      exact ⟨hterms.1.trans hcontract, hterms.2.trans hside⟩
    · rw [if_neg hid] at ho'
      exact h e' he' o' ho'
  · rw [next_of_not_fresh hf]
    exact h

private theorem quantity_eq_total {events : List LedgerEvent}
    (hcorrections : ∀ e ∈ events, e.NotCorrection) (hfixed : OrdersFixed events)
    (hclose : ∀ pre e, pre ++ [e] <+: events →
      ClosesWithin (run Replay.next Replay.start pre).freeze e) (c : String) :
    ((run Replay.next Replay.start events).tables.position c).quantity =
      (run Replay.next Replay.start events).tables.orders.total (OrderLifecycle.netOn c) := by
  have hstep (r : Replay) (e : LedgerEvent)
      (hinv : Fixed events r ∧ ∀ c, (r.tables.position c).quantity =
        r.tables.orders.total (OrderLifecycle.netOn c))
      (hok : e ∈ events ∧ ClosesWithin r.freeze e) :
      Fixed events (r.next e) ∧ ∀ c, ((r.next e).tables.position c).quantity =
        (r.next e).tables.orders.total (OrderLifecycle.netOn c) := by
    have hc := hcorrections e hok.1
    refine ⟨fixed_next hfixed hc hok.1 hinv.1, fun c ↦ ?_⟩
    by_cases hf : r.Fresh e
    · rw [quantity_next hc hf hok.2, total_next hc hf (hinv.1 e hok.1), hinv.2 c]
    · rw [next_of_not_fresh hf]
      exact hinv.2 c
  have hstart : Fixed events Replay.start ∧ ∀ c, (Replay.start.tables.position c).quantity =
      Replay.start.tables.orders.total (OrderLifecycle.netOn c) :=
    ⟨fun _ _ _ ho ↦ (nomatch ho), fun _ ↦ rfl⟩
  have hall := run_invariant_of_steps hstep hstart
    (fun pre e hp ↦ ⟨hp.subset (by simp), hclose pre e hp⟩) events (List.prefix_refl events)
  exact hall.2 c

end Exact

section Sequences

open scoped DefaultContext

private theorem total_of_sameOrders {r r' : Replay} (h : r.SameOrders r') (c : String) :
    r.tables.orders.total (OrderLifecycle.netOn c) =
      r'.tables.orders.total (OrderLifecycle.netOn c) := by
  have hunpriced (o : Option OrderLifecycle) : (o.map (OrderLifecycle.netOn c)).getD 0 =
      ((o.map OrderLifecycle.unpriced).map (OrderLifecycle.netOn c)).getD 0 := by
    cases o <;> rfl
  have hweight (k : String) : r.tables.orders.weightAt (OrderLifecycle.netOn c) k =
      r'.tables.orders.weightAt (OrderLifecycle.netOn c) k := by
    unfold Dict.weightAt
    rw [hunpriced, h.orders, ← hunpriced]
  have htotal := Dict.total_sub_weightAt (OrderLifecycle.netOn c) (fun k (_ : k ≠ "") ↦ hweight k)
  rwa [hweight, sub_left_inj] at htotal

private theorem closesWithin_of_same {r r' : Replay} {e : LedgerEvent} (h : r.SameOrders r')
    (hpos : r.SamePositions r') (hclose : ClosesWithin r.freeze e) :
    ClosesWithin (@Replay.freeze ExactArithmetic.context r') e := by
  rw [@closesWithin_freeze_iff ExactArithmetic.context, ← fresh_iff_of_sameOrders h,
    ← appliedQty_of_sameOrders h, ← hpos]
  exact (closesWithin_freeze_iff r e).mp hclose

/-- Positions are exactly the net of order fills: without corrections, with every order on one
contract and one side, with no closing fill beyond the position that it closes, and with no
quantity rounded. -/
theorem quantity_eq_netFilled (events : List LedgerEvent)
    (hcorrections : ∀ e ∈ events, e.eventType ≠ .reconciliationCorrection)
    (hfixed : OrdersFixed events)
    (hclose : StepsMeet Replay.next (fun r e ↦ ClosesWithin r.freeze e) Replay.start events)
    (hkept : StepsMeet Replay.next (fun r e ↦ KeepsSums r.freeze e) Replay.start events) :
    ∃ st, project events = .ok st ∧ ∀ c,
      (st.position c).quantity = st.filledOn .buy c - st.filledOn .sell c := by
  refine ⟨(run Replay.next Replay.start events).freeze, ?_, fun c ↦ ?_⟩
  · unfold project
    rw [replay_eq_run Replay.start events hcorrections]
  have hsame := same_run hcorrections (Replay.SameOrders.refl Replay.start) (fun _ ↦ rfl) hkept
  have hexact : ∀ pre e, pre ++ [e] <+: events → ClosesWithin
      (@Replay.freeze ExactArithmetic.context (run Replay.exactNext Replay.start pre)) e := by
    intro pre e hp
    obtain ⟨horders, hpositions⟩ := hsame pre ((List.prefix_append pre [e]).trans hp)
    exact closesWithin_of_same horders hpositions (ok_of_stepsMeet hclose pre e hp)
  obtain ⟨horders, hpositions⟩ := hsame events (List.prefix_refl events)
  rw [filledOn_sub, position_freeze]
  exact (hpositions c).trans ((quantity_eq_total hcorrections hfixed hexact c).trans
    (total_of_sameOrders horders c).symm)

/-- Two bought, one sold by another order, with the first fill told twice. -/
def boughtTwoSoldOne : List LedgerEvent :=
  [⟨EventFields.sample .orderSubmissionRequested "s" .buy 2 none, EventFields.valid_orderOfTwo⟩,
    ⟨EventFields.sample .finalFill "b" .buy 2 (some 1), by decide +kernel⟩,
    ⟨EventFields.sample .finalFill "b" .buy 2 (some 1), by decide +kernel⟩,
    ⟨{ EventFields.sample .finalFill "x" .sell 1 (some 1.5) with clientOrderId := "d" },
      by decide +kernel⟩]

/-- The net at two orders of one contract. -/
theorem quantity_eq_netFilled_boughtTwoSoldOne :
    ∃ st, project boughtTwoSoldOne = .ok st ∧ ∀ c,
      (st.position c).quantity = st.filledOn .buy c - st.filledOn .sell c :=
  quantity_eq_netFilled boughtTwoSoldOne (by decide +kernel) (by decide +kernel) (by decide +kernel)
    (by decide +kernel)

/-- Three orders for one contract, of ten to the 28th and of one half each. -/
def boughtBeyondDigits : List LedgerEvent :=
  [⟨EventFields.sample .finalFill "b" .buy (10 ^ 28) (some 1), by decide +kernel⟩,
    ⟨{ EventFields.sample .finalFill "x" .buy (1 / 2) (some 1) with clientOrderId := "d" },
      by decide +kernel⟩,
    ⟨{ EventFields.sample .finalFill "y" .buy (1 / 2) (some 1) with clientOrderId := "f" },
      by decide +kernel⟩]

/-- Where the position is rounded it is not the net of the fills: the halves are lost. -/
theorem not_quantity_eq_netFilled_beyondDigits :
    ¬ ∀ events : List LedgerEvent,
      (∀ e ∈ events, e.eventType ≠ .reconciliationCorrection) → OrdersFixed events →
      StepsMeet Replay.next (fun r e ↦ ClosesWithin r.freeze e) Replay.start events →
      ∃ st, project events = .ok st ∧ ∀ c,
        (st.position c).quantity = st.filledOn .buy c - st.filledOn .sell c := by
  intro h
  obtain ⟨st, hst, hnet⟩ := h boughtBeyondDigits (by decide +kernel) (by decide +kernel)
    (by decide +kernel)
  have hdiffer : (project boughtBeyondDigits).toOption.map (fun st ↦
      ((st.position "x").quantity, st.filledOn .buy "x" - st.filledOn .sell "x")) =
        some (10 ^ 28, 10 ^ 28 + 1) := by
    decide +kernel
  rw [hst] at hdiffer
  obtain ⟨hquantity, hfilled⟩ := Prod.mk.inj (Option.some.inj hdiffer)
  have hbad := hnet "x"
  rw [hquantity, hfilled] at hbad
  norm_num at hbad

end Sequences

end Joker.Ledger
