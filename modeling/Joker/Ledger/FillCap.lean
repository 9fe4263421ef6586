import Joker.Ledger.ContextReplay

/-!
# Fill cap

Library `Ledger`. Where `_accumulate_fill` keeps its hard rule, that an order's filled quantity
never exceeds its submitted quantity. The clamp is skipped for an order submitted with zero,
and a re-submission overwrites the submitted quantity without looking at the fills. These are
the only two ways out where no quantity is rounded: every other step keeps the cap.
-/

namespace Joker.Ledger

open Joker.Base

/-- The hard rule on one order. -/
def OrderLifecycle.Capped (order : OrderLifecycle) : Prop := order.filledQty ≤ order.submittedQty

/-- The hard rule on every projected order. -/
def FillCapped (st : ProjectionState) : Prop := ∀ order ∈ st.orders.values, order.Capped

instance (order : OrderLifecycle) : Decidable order.Capped := inferInstanceAs (Decidable (_ ≤ _))

instance (st : ProjectionState) : Decidable (FillCapped st) :=
  inferInstanceAs (Decidable (∀ _ ∈ _, _))

/-- What a step needs to keep the cap: a re-submission covers what its order has filled, and
a priced fill of a known order finds a positive submitted quantity. -/
def KeepsCap (st : ProjectionState) (e : LedgerEvent) : Prop :=
  e.ledgerEventId ∉ st.seenEventIds → e.idempotencyKey ∉ st.seenIdempotencyKeys →
    ∀ order ∈ st.orders.get? e.clientOrderId,
      (e.eventType = .orderSubmissionRequested → order.filledQty ≤ e.quantity) ∧
      (e.isFill = true → e.price ≠ none → 0 < e.quantity → 0 < order.submittedQty)

instance (st : ProjectionState) (e : LedgerEvent) : Decidable (KeepsCap st e) :=
  inferInstanceAs (Decidable (_ → _ → ∀ _ ∈ _, _))

/-! ### One order -/

private theorem filledSoFar_nonneg {found : Option OrderLifecycle}
    (h : ∀ o ∈ found, 0 ≤ o.filledQty) : 0 ≤ filledSoFar found := by
  cases found with
  | none => exact le_refl 0
  | some order => exact h order rfl

private theorem capped_ensureOrder {e : LedgerEvent} {found : Option OrderLifecycle}
    (h : ∀ o ∈ found, o.Capped) : (ensureOrder e found).Capped := by
  cases found with
  | none =>
    unfold OrderLifecycle.Capped ensureOrder OrderLifecycle.new
    simp only
    split
    · exact e.quantity_nonneg
    · split
      · exact e.quantity_nonneg
      · exact le_refl 0
  | some order => exact h order rfl

private theorem capped_status {order : OrderLifecycle} (status : OrderStatus)
    (h : order.Capped) : ({ order with status := status } : OrderLifecycle).Capped := h

section Context

variable [DecimalContext]

private theorem filled_nonneg_fillOrder {e : LedgerEvent} {price : ℚ}
    {found : Option OrderLifecycle} (h : 0 ≤ filledSoFar found) :
    0 ≤ (fillOrder e price found).1.filledQty := by
  rw [← filledQty_ensureOrder e, ← filledQty_noteBrokerOrderId _ e] at h
  unfold fillOrder
  rcases accumulateFill_cases ((ensureOrder e found).noteBrokerOrderId e) e.quantity price
    (allowOverfill e) with hfill | ⟨applied, avg, happlied, hfill⟩
  · rwa [hfill]
  · rw [hfill]
    exact (rounded_pos (add_pos_of_nonneg_of_pos h happlied)).le

/-- No event makes a filled quantity negative. -/
theorem filled_nonneg_orderAfter {e : LedgerEvent} {found : Option OrderLifecycle}
    (h : ∀ o ∈ found, 0 ≤ o.filledQty) : ∀ o ∈ orderAfter e found, 0 ≤ o.filledQty := by
  have h0 := filledSoFar_nonneg h
  have hfill : ∀ o ∈ filledOrder e found, 0 ≤ o.filledQty :=
    forall_filledOrder h (fun _ _ _ _ ↦ filled_nonneg_fillOrder h0)
  unfold orderAfter
  cases e.eventType with
  | orderSubmissionRequested =>
    intro o ho
    cases ho
    rwa [filledQty_submitOrder]
  | brokerOrderAccepted =>
    intro o ho
    cases ho
    rwa [filledQty_acceptOrder]
  | partialFill => exact hfill
  | finalFill => exact hfill
  | cancellation =>
    intro o ho
    cases ho
    obtain ⟨status, hs⟩ := cancelOrder_eq e found
    rw [hs]
    exact filledQty_ensureOrder e found ▸ h0
  | rejection =>
    intro o ho
    cases ho
    obtain ⟨status, hs⟩ := rejectOrder_eq e found
    rw [hs]
    exact filledQty_ensureOrder e found ▸ h0
  | _ => exact h

private theorem filledQty_accumulateFill_of_unclamped (order : OrderLifecycle) {qty : ℚ}
    (price : ℚ) (overfill : Bool) (hs : ¬ 0 < order.submittedQty) (hq : 0 < qty) :
    (accumulateFill order qty price overfill).1.filledQty = rounded (order.filledQty + qty) ∧
      (accumulateFill order qty price overfill).1.submittedQty = order.submittedQty := by
  have hn : (!overfill && decide (0 < order.submittedQty)) = false := by
    cases overfill <;> simp [hs]
  unfold accumulateFill
  simp only [hn, Bool.false_eq_true, false_and, if_false, not_le.mpr hq, and_self]

/-- An event that leaves its order capped has met the step condition, whatever is rounded. -/
theorem keepsCap_of_capped_orderAfter {e : LedgerEvent} {found : Option OrderLifecycle}
    (hn : ∀ o ∈ found, 0 ≤ o.filledQty) (h : ∀ o ∈ orderAfter e found, o.Capped) :
    ∀ order ∈ found,
      (e.eventType = .orderSubmissionRequested → order.filledQty ≤ e.quantity) ∧
      (e.isFill = true → e.price ≠ none → 0 < e.quantity → 0 < order.submittedQty) := by
  intro order ho
  obtain rfl : found = some order := ho
  constructor
  · intro he
    have hcapped := h (submitOrder e (some order)) (by simp [orderAfter, he])
    unfold OrderLifecycle.Capped at hcapped
    rwa [filledQty_submitOrder, submittedQty_submitOrder] at hcapped
  · intro hfill hprice hq
    obtain ⟨price, hp⟩ := Option.ne_none_iff_exists'.mp hprice
    by_contra hs
    obtain ⟨hfilled, hsubmitted⟩ := filledQty_accumulateFill_of_unclamped
      (order.noteBrokerOrderId e) price (allowOverfill e) (by simpa using hs) hq
    rw [filledQty_noteBrokerOrderId] at hfilled
    rw [submittedQty_noteBrokerOrderId] at hsubmitted
    -- the fill takes the order above a submitted quantity that is not positive
    have hcapped : (fillOrder e price (some order)).1.Capped := by
      rw [orderAfter_of_fill hfill, filledOrder_of_priced hp hq] at h
      split at h
      · exact h _ rfl
      · have hstatus := h _ rfl
        exact hstatus
    unfold OrderLifecycle.Capped fillOrder at hcapped
    change
      (accumulateFill (order.noteBrokerOrderId e) e.quantity price (allowOverfill e)).1.filledQty
      ≤ (accumulateFill (order.noteBrokerOrderId e) e.quantity price
        (allowOverfill e)).1.submittedQty at hcapped
    rw [hfilled, hsubmitted] at hcapped
    exact hs ((rounded_pos (add_pos_of_nonneg_of_pos (hn order rfl) hq)).trans_le hcapped)

/-- A turn keeps filled quantities nonnegative. -/
theorem filled_nonneg_next {r : Replay} {e : LedgerEvent}
    (h : r.ForallOrders (fun o ↦ 0 ≤ o.filledQty)) (hc : e.NotCorrection) :
    (r.next e).ForallOrders (fun o ↦ 0 ≤ o.filledQty) := by
  by_cases hf : r.Fresh e
  · rw [forallOrders_next_iff (fun _ ↦ Iff.rfl) hc hf h]
    exact filled_nonneg_orderAfter (h e.clientOrderId)
  · rwa [next_of_not_fresh hf]

private theorem fillCapped_freeze_iff (r : Replay) :
    FillCapped r.freeze ↔ r.ForallOrders OrderLifecycle.Capped := by
  unfold FillCapped Replay.ForallOrders
  constructor
  · intro h k order ho
    exact h order ((Dict.mem_values_iff _ _).mpr ⟨k, ho⟩)
  · intro h order ho
    obtain ⟨k, hk⟩ := (Dict.mem_values_iff _ _).mp ho
    exact h k order hk

/-- A turn that leaves all orders capped has met the step condition. -/
theorem keepsCap_of_fillCapped_next {r : Replay} {e : LedgerEvent}
    (hn : r.ForallOrders (fun o ↦ 0 ≤ o.filledQty)) (h : FillCapped r.freeze)
    (hc : e.NotCorrection) (hnext : FillCapped (r.next e).freeze) : KeepsCap r.freeze e := by
  intro hid hkey
  rw [fillCapped_freeze_iff] at h hnext
  rw [forallOrders_next_iff (fun _ ↦ Iff.rfl) hc ⟨hid, hkey⟩ h] at hnext
  exact keepsCap_of_capped_orderAfter (hn e.clientOrderId) hnext

/-! ### What keeps the cap -/

private theorem capped_fillOrder {e : LedgerEvent} {price : ℚ} {found : Option OrderLifecycle}
    (hp : e.price = some price) (hq : 0 < e.quantity) (hov : allowOverfill e = false)
    (hs : 0 < (ensureOrder e found).submittedQty) (hc : (ensureOrder e found).Capped)
    (hkept : KeepsOrder e found) : (fillOrder e price found).1.Capped := by
  obtain ⟨avg, hfill⟩ := fillOrder_of_kept hp hq hkept
  have happlied : appliedQty e found ≤
      (ensureOrder e found).submittedQty - (ensureOrder e found).filledQty := by
    rw [appliedQty_of_priced hp hq]
    unfold fillOrder
    rw [applied_accumulateFill, submittedQty_noteBrokerOrderId, filledQty_noteBrokerOrderId,
      if_pos ⟨hov, hs⟩]
    exact max_le (sub_nonneg.mpr hc) (min_le_right _ _)
  rw [hfill]
  change ((ensureOrder e found).noteBrokerOrderId e).filledQty + appliedQty e found ≤
    ((ensureOrder e found).noteBrokerOrderId e).submittedQty
  rw [filledQty_noteBrokerOrderId, submittedQty_noteBrokerOrderId]
  linarith

private theorem capped_filledOrder {e : LedgerEvent} {found : Option OrderLifecycle}
    (hc : ∀ o ∈ found, o.Capped) (hov : allowOverfill e = false) (hfill : e.isFill = true)
    (hkept : e.price ≠ none → 0 < e.quantity → KeepsOrder e found)
    (h : ∀ order ∈ found, e.price ≠ none → 0 < e.quantity → 0 < order.submittedQty) :
    ∀ o ∈ filledOrder e found, o.Capped := by
  apply forall_filledOrder hc
  intro price hp hq status
  have hprice : e.price ≠ none := hp ▸ nofun
  have hs : 0 < (ensureOrder e found).submittedQty := by
    cases found with
    | none =>
      unfold ensureOrder OrderLifecycle.new
      simp only [hfill, if_true, ite_self]
      exact hq
    | some order => exact h order rfl hprice hq
  exact capped_fillOrder hp hq hov hs (capped_ensureOrder hc) (hkept hprice hq)

/-- An event that meets the step condition leaves its own order capped, where what it makes of
the order is kept. -/
theorem capped_orderAfter {e : LedgerEvent} {found : Option OrderLifecycle}
    (hc : ∀ o ∈ found, o.Capped) (hov : allowOverfill e = false)
    (hkept : e.isFill = true → e.price ≠ none → 0 < e.quantity → KeepsOrder e found)
    (h : ∀ order ∈ found,
      (e.eventType = .orderSubmissionRequested → order.filledQty ≤ e.quantity) ∧
      (e.isFill = true → e.price ≠ none → 0 < e.quantity → 0 < order.submittedQty)) :
    ∀ o ∈ orderAfter e found, o.Capped := by
  have hens := capped_ensureOrder (e := e) hc
  have hfill (hf : e.isFill = true) : ∀ o ∈ filledOrder e found, o.Capped :=
    capped_filledOrder hc hov hf (hkept hf) (fun order ho ↦ (h order ho).2 hf)
  unfold LedgerEvent.isFill at hfill
  unfold orderAfter
  cases he : e.eventType with
  | orderSubmissionRequested =>
    intro o ho
    cases ho
    unfold OrderLifecycle.Capped
    rw [filledQty_submitOrder, submittedQty_submitOrder]
    cases found with
    | none => exact e.quantity_nonneg
    | some order => exact (h order rfl).1 he
  | brokerOrderAccepted =>
    intro o ho
    cases ho
    unfold OrderLifecycle.Capped at hens ⊢
    rw [filledQty_acceptOrder, submittedQty_acceptOrder]
    rw [filledQty_ensureOrder] at hens
    split
    · next hback => exact (hback.2 ▸ hens).trans (le_of_lt hback.1)
    · exact hens
  | partialFill => exact hfill (by rw [he]; rfl)
  | finalFill => exact hfill (by rw [he]; rfl)
  | cancellation =>
    intro o ho
    cases ho
    obtain ⟨status, hs⟩ := cancelOrder_eq e found
    exact hs ▸ capped_status status hens
  | rejection =>
    intro o ho
    cases ho
    obtain ⟨status, hs⟩ := rejectOrder_eq e found
    exact hs ▸ capped_status status hens
  | _ => exact hc

/-- A turn that meets the step condition leaves all orders capped, where what it makes of its
order is kept. -/
theorem fillCapped_next {r : Replay} {e : LedgerEvent} (h : FillCapped r.freeze)
    (hc : e.NotCorrection) (hov : allowOverfill e = false) (hkept : KeepsOrderSums r.freeze e)
    (hcap : KeepsCap r.freeze e) : FillCapped (r.next e).freeze := by
  rw [fillCapped_freeze_iff] at h ⊢
  by_cases hf : r.Fresh e
  · rw [forallOrders_next_iff (fun _ ↦ Iff.rfl) hc hf h]
    exact capped_orderAfter (h e.clientOrderId) hov
      (fun hfill hprice hq ↦ hkept ⟨hf.1, hf.2, hfill, hprice, hq⟩) (hcap hf.1 hf.2)
  · rwa [next_of_not_fresh hf]

end Context

/-! ### Runs -/

section Sequences

open scoped DefaultContext

/-- The extent of the hard rule, without corrections and overfills. Where every prefix of a sequence
projects to capped orders, no event of it re-submits an order below its fills or fills a known order
submitted with nothing. The converse holds where the context keeps what each fill makes of its
order. -/
theorem fillCapped_prefixes_iff (events : List LedgerEvent)
    (h : ∀ e ∈ events, e.eventType ≠ .reconciliationCorrection ∧ allowOverfill e = false) :
    ((∀ pre, pre <+: events → ∃ st, project pre = .ok st ∧ FillCapped st) →
      ∀ pre e, pre ++ [e] <+: events → ∃ st, project pre = .ok st ∧ KeepsCap st e) ∧
    (StepsMeet Replay.next (fun r e ↦ KeepsOrderSums r.freeze e) Replay.start events →
      ((∀ pre, pre <+: events → ∃ st, project pre = .ok st ∧ FillCapped st) ↔
        ∀ pre e, pre ++ [e] <+: events → ∃ st, project pre = .ok st ∧ KeepsCap st e)) := by
  have hproj (pre : List LedgerEvent) (hp : pre <+: events) :
      project pre = .ok (run Replay.next Replay.start pre).freeze := by
    unfold project
    rw [replay_eq_run Replay.start pre (fun e he ↦ (h e (hp.subset he)).1)]
  have hex (pre : List LedgerEvent) (hp : pre <+: events) (P : ProjectionState → Prop) :
      (∃ st, project pre = .ok st ∧ P st) ↔ P (run Replay.next Replay.start pre).freeze := by
    rw [hproj pre hp]
    exact ⟨fun ⟨st, he, hP⟩ ↦ by cases he; exact hP, fun hP ↦ ⟨_, rfl, hP⟩⟩
  have hstart : Replay.start.ForallOrders (fun o ↦ 0 ≤ o.filledQty) := fun _ _ ho ↦ nomatch ho
  have hturn (r : Replay) (e : LedgerEvent) (hr : r.ForallOrders (fun o ↦ 0 ≤ o.filledQty))
      (he : e ∈ events) : (r.next e).ForallOrders (fun o ↦ 0 ≤ o.filledQty) :=
    filled_nonneg_next hr (h e he).1
  have hnonneg (pre : List LedgerEvent) (hp : pre <+: events) :
      (run Replay.next Replay.start pre).ForallOrders (fun o ↦ 0 ≤ o.filledQty) :=
    run_invariant hturn pre (fun e he ↦ hp.subset he) hstart
  have hnecessary : (∀ pre, pre <+: events → ∃ st, project pre = .ok st ∧ FillCapped st) →
      ∀ pre e, pre ++ [e] <+: events → ∃ st, project pre = .ok st ∧ KeepsCap st e := by
    intro hall pre e hp
    have hpre := (List.prefix_append pre [e]).trans hp
    have hnext := (hex (pre ++ [e]) hp _).mp (hall (pre ++ [e]) hp)
    rw [run_snoc] at hnext
    exact (hex pre hpre _).mpr (keepsCap_of_fillCapped_next (hnonneg pre hpre)
      ((hex pre hpre _).mp (hall pre hpre)) (h e (hp.subset (by simp))).1 hnext)
  have hempty : FillCapped Replay.start.freeze := fun order ho ↦ nomatch ho
  have hstep (r : Replay) (e : LedgerEvent) (hr : FillCapped r.freeze)
      (hok : e ∈ events ∧ KeepsOrderSums r.freeze e ∧ KeepsCap r.freeze e) :
      FillCapped (r.next e).freeze :=
    fillCapped_next hr (h e hok.1).1 (h e hok.1).2 hok.2.1 hok.2.2
  refine ⟨hnecessary, fun hkept ↦ ⟨hnecessary, fun hall pre hp ↦ (hex pre hp _).mpr ?_⟩⟩
  refine run_invariant_of_steps hstep hempty
    (fun pre' e hp' ↦ ⟨hp'.subset (by simp), ?_, ?_⟩) pre hp
  · exact ok_of_stepsMeet hkept pre' e hp'
  · exact (hex pre' ((List.prefix_append pre' [e]).trans hp') _).mp (hall pre' e hp')

/-- A submission of two and one fill of two. -/
def submittedThenFilled : List LedgerEvent :=
  [⟨EventFields.sample .orderSubmissionRequested "s" .buy 2 none, EventFields.valid_orderOfTwo⟩,
    ⟨EventFields.sample .finalFill "f" .buy 2 (some 1), by decide +kernel⟩]

/-- The equivalence at a submission and its fill. -/
theorem fillCapped_prefixes_submittedThenFilled :
    (∀ pre, pre <+: submittedThenFilled → ∃ st, project pre = .ok st ∧ FillCapped st) ↔
      ∀ pre e, pre ++ [e] <+: submittedThenFilled →
        ∃ st, project pre = .ok st ∧ KeepsCap st e :=
  (fillCapped_prefixes_iff submittedThenFilled (by decide +kernel)).2 (by decide +kernel)

/-- A cancellation is the first event of an order, which is so submitted with zero; its late
fill of three then counts in full. -/
def cancelledThenFilled : List LedgerEvent :=
  [⟨EventFields.sample .cancellation "x" .buy 0 none, by decide +kernel⟩,
    ⟨EventFields.sample .partialFill "f" .buy 3 (some 1), by decide +kernel⟩]

/-- The hard rule does not hold of every sequence. -/
theorem not_fillCapped_of_late_fill :
    ¬ ∀ events : List LedgerEvent,
      (∀ e ∈ events, e.eventType ≠ .reconciliationCorrection ∧ allowOverfill e = false) →
      ∃ st, project events = .ok st ∧ FillCapped st := by
  intro h
  obtain ⟨st, hp, hcap⟩ := h cancelledThenFilled (by decide +kernel)
  have hbad : ∀ st, project cancelledThenFilled = .ok st → ¬ FillCapped st := by
    intro st hst
    have hd : (project cancelledThenFilled).toOption.map (fun st ↦ decide (FillCapped st)) =
      some false := by decide +kernel
    rw [hst] at hd
    exact of_decide_eq_false (Option.some.inj hd)
  exact hbad st hp hcap

/-- A submission of a number of 29 digits, and two fills that add up to it. -/
def roundedUp : List LedgerEvent :=
  [⟨EventFields.sample .orderSubmissionRequested "s" .buy (1 + 6 / 10 ^ 28) none,
      by decide +kernel⟩,
    ⟨EventFields.sample .partialFill "f" .buy (1 / 10) (some 1), by decide +kernel⟩,
    ⟨EventFields.sample .finalFill "g" .buy (9 / 10 + 6 / 10 ^ 28) (some 1), by decide +kernel⟩]

/-- A rounded sum can exceed the submitted quantity, with every step meeting the condition. -/
theorem not_fillCapped_roundedUp :
    StepsMeet Replay.next (fun r e ↦ KeepsCap r.freeze e) Replay.start roundedUp ∧
      ¬ ∃ st, project roundedUp = .ok st ∧ FillCapped st := by
  refine ⟨by decide +kernel, ?_⟩
  rintro ⟨st, hst, hcap⟩
  have hd : (project roundedUp).toOption.map (fun st ↦ decide (FillCapped st)) = some false := by
    decide +kernel
  rw [hst] at hd
  exact of_decide_eq_false (Option.some.inj hd) hcap

end Sequences

end Joker.Ledger
