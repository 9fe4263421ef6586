import Joker.Ledger.Replay

/-!
# The order of statuses

Library `Ledger`. Which events move an order's status back. Terminal statuses are guarded in most
branches, but a repeated submission takes an accepted or partially filled order back to submitted,
and a partial fill takes a filled order back to partially filled when its final fill was smaller
than what was submitted. No other event of a ledger without corrections does.
-/

namespace Joker.Ledger

open Joker.Base

/-- How far an order has come. -/
def OrderStatus.rank : OrderStatus → ℕ
  | .submitted => 0
  | .accepted => 1
  | .partiallyFilled => 2
  | .filled => 3
  | .cancelled => 3
  | .rejected => 3

/-- An event moves a status forward: a filled order stays filled, and no status falls but that of a
cancelled or rejected order at a fill. -/
structure Advances (e : LedgerEvent) (before after : OrderStatus) : Prop where
  filled : before = .filled → after = .filled
  rank : before.rank ≤ after.rank ∨ e.isFill = true ∧ before ∈ [.cancelled, .rejected]

/-- An event keeps every known order, and moves its status forward. -/
def StatusesAdvance (e : LedgerEvent) (st st' : ProjectionState) : Prop :=
  ∀ c order, st.orders.get? c = some order →
    ∃ order', st'.orders.get? c = some order' ∧ Advances e order.status order'.status

/-- The filled quantity once so much more is filled, as far as the order has room or the fill may
overfill. -/
def filledAfter [DecimalContext] (order : OrderLifecycle) (qty : ℚ) (overfill : Bool) : ℚ :=
  let room := rounded (order.submittedQty - order.filledQty)
  if overfill = true then rounded (order.filledQty + qty)
  else if room ≤ 0 then order.filledQty
  else rounded (order.filledQty + min qty room)

/-- In exact arithmetic a fill brings an order to what was submitted exactly when its quantity does
so without the clamp. -/
theorem submittedQty_le_filledAfter_exact {order : OrderLifecycle} {qty : ℚ} (hq : 0 < qty)
    (overfill : Bool) :
    order.submittedQty ≤ @filledAfter ExactArithmetic.context order qty overfill ↔
      order.submittedQty ≤ order.filledQty + qty := by
  unfold filledAfter
  simp only [rounded_exact]
  split
  · rfl
  · split
    · next hfull =>
      have hle : order.submittedQty ≤ order.filledQty := sub_nonpos.mp hfull
      exact iff_of_true hle (hle.trans (le_add_of_nonneg_right hq.le))
    · rw [← sub_le_iff_le_add', ← sub_le_iff_le_add', le_min_iff]
      exact and_iff_left (le_refl _)

/-- An event submits an order again only before it is accepted or once it is terminal, and fills
part of a filled order only up to what was submitted. -/
structure KeepsStatusOf [DecimalContext] (e : LedgerEvent) (order : OrderLifecycle) : Prop where
  submits : e.eventType = .orderSubmissionRequested →
    order.status ∉ [.accepted, .partiallyFilled]
  fills : e.eventType = .partialFill → order.status = .filled → e.price ≠ none → 0 < e.quantity →
    0 < order.submittedQty ∧
      order.submittedQty ≤ filledAfter order e.quantity (allowOverfill e)

/-- The step condition, of an event that is no repetition. -/
def KeepsStatus [DecimalContext] (st : ProjectionState) (e : LedgerEvent) : Prop :=
  e.ledgerEventId ∉ st.seenEventIds → e.idempotencyKey ∉ st.seenIdempotencyKeys →
    ∀ order ∈ st.orders.get? e.clientOrderId, KeepsStatusOf e order

/-! ### One order -/

private theorem Advances.refl (e : LedgerEvent) (status : OrderStatus) : Advances e status status :=
  ⟨id, Or.inl (le_refl _)⟩

private theorem advances_of_rank {e : LedgerEvent} {before after : OrderStatus}
    (hfilled : before ≠ .filled) (hrank : before.rank ≤ after.rank) : Advances e before after :=
  ⟨fun h ↦ absurd h hfilled, Or.inl hrank⟩

section Order

variable {e : LedgerEvent} {order : OrderLifecycle}

private theorem status_noteBrokerOrderId (order : OrderLifecycle) (e : LedgerEvent) :
    (order.noteBrokerOrderId e).status = order.status := by
  unfold OrderLifecycle.noteBrokerOrderId
  split <;> rfl

private theorem status_submitOrder (e : LedgerEvent) (order : OrderLifecycle) :
    (submitOrder e (some order)).status =
      if order.status ∈ [.filled, .cancelled, .rejected] then order.status else .submitted := by
  unfold submitOrder
  simp only [status_noteBrokerOrderId]
  split
  · rw [status_noteBrokerOrderId]
  · rfl

private theorem status_acceptOrder (e : LedgerEvent) (order : OrderLifecycle) :
    (acceptOrder e (some order)).status =
      if order.status ∈ [.filled, .cancelled, .rejected, .partiallyFilled] then order.status
      else .accepted := by
  have hsame := status_noteBrokerOrderId order e
  unfold acceptOrder ensureOrder
  dsimp only
  rw [← hsame]
  generalize order.noteBrokerOrderId e = noted
  -- The back-fill of the quantity leaves the status.
  by_cases hfill : 0 < e.quantity ∧ noted.submittedQty = 0
  · rw [if_pos hfill]
    split <;> rfl
  · rw [if_neg hfill]
    split <;> rfl

/-- A second submission moves forward exactly the orders that are not under way. -/
theorem advances_submitOrder_iff (he : e.eventType = .orderSubmissionRequested) :
    Advances e order.status (submitOrder e (some order)).status ↔
      order.status ∉ [.accepted, .partiallyFilled] := by
  have hfill : ¬ e.isFill = true := by simp [LedgerEvent.isFill, he]
  rw [status_submitOrder]
  cases order.status with
  | submitted => exact iff_of_true (Advances.refl _ _) (by decide)
  | accepted =>
    refine iff_of_false ?_ (by decide)
    intro h
    exact h.rank.elim (by decide) (fun h ↦ hfill h.1)
  | partiallyFilled =>
    refine iff_of_false ?_ (by decide)
    intro h
    exact h.rank.elim (by decide) (fun h ↦ hfill h.1)
  | filled => exact iff_of_true (Advances.refl _ _) (by decide)
  | cancelled => exact iff_of_true (Advances.refl _ _) (by decide)
  | rejected => exact iff_of_true (Advances.refl _ _) (by decide)

private theorem advances_acceptOrder (e : LedgerEvent) (order : OrderLifecycle) :
    Advances e order.status (acceptOrder e (some order)).status := by
  rw [status_acceptOrder]
  cases order.status with
  | submitted => exact advances_of_rank (by decide) (by decide)
  | _ => exact Advances.refl _ _

private theorem advances_cancelOrder (e : LedgerEvent) (order : OrderLifecycle) :
    Advances e order.status (cancelOrder e (some order)).status := by
  have hstatus : (cancelOrder e (some order)).status =
      if order.status ∈ [.filled, .rejected] then order.status else .cancelled := by
    unfold cancelOrder ensureOrder
    dsimp only
    split <;> rfl
  rw [hstatus]
  cases order.status with
  | filled => exact Advances.refl _ _
  | rejected => exact Advances.refl _ _
  | _ => exact advances_of_rank (by decide) (by decide)

private theorem advances_rejectOrder (e : LedgerEvent) (order : OrderLifecycle) :
    Advances e order.status (rejectOrder e (some order)).status := by
  have hstatus : (rejectOrder e (some order)).status =
      if order.status ∈ [.filled, .cancelled] then order.status else .rejected := by
    unfold rejectOrder ensureOrder
    dsimp only
    split <;> rfl
  rw [hstatus]
  cases order.status with
  | filled => exact Advances.refl _ _
  | cancelled => exact Advances.refl _ _
  | _ => exact advances_of_rank (by decide) (by decide)

/-! ### Fills -/

/-- A fill applies nothing, or brings its order to what was submitted, exactly when the quantity it
leaves the order with reaches that. -/
theorem reaches_accumulateFill_iff [DecimalContext] (order : OrderLifecycle) {qty : ℚ}
    (hq : 0 < qty) (price : ℚ) (overfill : Bool) :
    ((accumulateFill order qty price overfill).2 ≤ 0 ∨ (0 < order.submittedQty ∧
      order.submittedQty ≤ (accumulateFill order qty price overfill).1.filledQty)) ↔
    0 < order.submittedQty ∧ order.submittedQty ≤ filledAfter order qty overfill := by
  unfold accumulateFill filledAfter
  by_cases hcap : overfill = false ∧ 0 < order.submittedQty
  · obtain ⟨rfl, hsubmitted⟩ := hcap
    simp only [hsubmitted, decide_true, Bool.not_false, Bool.and_self, true_and, if_true,
      Bool.false_eq_true, if_false]
    by_cases hfull : rounded (order.submittedQty - order.filledQty) ≤ 0
    · -- Nothing is applied to an order that has no room.
      rw [if_pos hfull, if_pos hfull]
      exact iff_of_true (Or.inl (le_refl 0)) (sub_nonpos.mp (rounded_nonpos_iff.mp hfull))
    · have happlied := lt_min hq (not_le.mp hfull)
      rw [if_neg hfull, if_neg hfull, if_neg (not_le.mpr happlied)]
      exact or_iff_right (not_le.mpr happlied)
  · have hclamp : (!overfill && decide (0 < order.submittedQty)) = false := by
      cases overfill with
      | false => simpa using hcap
      | true => rfl
    simp only [hclamp, Bool.false_eq_true, false_and, if_false, not_le.mpr hq, false_or]
    apply and_congr_right
    intro hsubmitted
    rw [if_pos (Bool.eq_true_of_not_eq_false (fun h ↦ hcap ⟨h, hsubmitted⟩))]

/-- The status a fill leaves its order with. -/
def statusAfterFill [DecimalContext] (e : LedgerEvent) (order : OrderLifecycle) : OrderStatus :=
  match e.price with
  | none => order.status
  | some price =>
    if e.quantity ≤ 0 ∨ (fillOrder e price (some order)).2 ≤ 0 then order.status
    else fillStatus e (fillOrder e price (some order)).1

private theorem status_filledOrder [DecimalContext] (e : LedgerEvent) (order : OrderLifecycle) :
    ∃ order', filledOrder e (some order) = some order' ∧
      order'.status = statusAfterFill e order := by
  unfold filledOrder statusAfterFill
  cases e.price with
  | none => exact ⟨order, rfl, rfl⟩
  | some price =>
    by_cases hq : e.quantity ≤ 0
    · simp only [hq, if_true, true_or]
      exact ⟨order, rfl, rfl⟩
    · simp only [hq, if_false, false_or]
      by_cases ha : (fillOrder e price (some order)).2 ≤ 0
      · rw [if_pos ha, if_pos ha]
        obtain ⟨avg, hfill⟩ := accumulateFill_order (order.noteBrokerOrderId e) e.quantity price
          (allowOverfill e)
        change (fillOrder e price (some order)).1 = _ at hfill
        refine ⟨_, rfl, ?_⟩
        rw [hfill]
        exact status_noteBrokerOrderId order e
      · rw [if_neg ha, if_neg ha]
        exact ⟨_, rfl, rfl⟩

private theorem stays_filled_iff [DecimalContext] (price : ℚ) (hq : 0 < e.quantity) :
    ((fillOrder e price (some order)).2 ≤ 0 ∨
      (0 < (fillOrder e price (some order)).1.submittedQty ∧
        (fillOrder e price (some order)).1.submittedQty ≤
          (fillOrder e price (some order)).1.filledQty)) ↔
    0 < order.submittedQty ∧
      order.submittedQty ≤ filledAfter order e.quantity (allowOverfill e) := by
  have hreaches := reaches_accumulateFill_iff (order.noteBrokerOrderId e) hq price (allowOverfill e)
  unfold filledAfter at hreaches ⊢
  rw [filledQty_noteBrokerOrderId, submittedQty_noteBrokerOrderId] at hreaches
  unfold fillOrder
  rw [submittedQty_accumulateFill, submittedQty_noteBrokerOrderId]
  exact hreaches

private theorem advances_statusAfterFill [DecimalContext] (hf : e.isFill = true)
    (hs : order.status ≠ .filled) : Advances e order.status (statusAfterFill e order) := by
  unfold statusAfterFill
  cases e.price with
  | none => exact Advances.refl _ _
  | some price =>
    simp only
    split
    · exact Advances.refl _ _
    · refine ⟨fun h ↦ absurd h hs, ?_⟩
      have hrank : 2 ≤ (fillStatus e (fillOrder e price (some order)).1).rank := by
        unfold fillStatus
        split <;> decide
      cases h : order.status with
      | filled => exact absurd h hs
      | cancelled => exact Or.inr ⟨hf, by decide⟩
      | rejected => exact Or.inr ⟨hf, by decide⟩
      | partiallyFilled => exact Or.inl hrank
      | accepted => exact Or.inl (le_trans (by decide) hrank)
      | submitted => exact Or.inl (le_trans (by decide) hrank)

private theorem advances_filled_iff {status : OrderStatus} :
    Advances e .filled status ↔ status = .filled :=
  ⟨fun h ↦ h.filled rfl, fun h ↦ h ▸ Advances.refl e .filled⟩

private theorem fillStatus_eq_filled_iff (he : e.eventType ≠ .finalFill) (filled : OrderLifecycle) :
    fillStatus e filled = .filled ↔
      0 < filled.submittedQty ∧ filled.submittedQty ≤ filled.filledQty := by
  unfold fillStatus
  split
  · next h => exact iff_of_true rfl (h.resolve_left he)
  · next h => exact iff_of_false (by decide) (fun hreached ↦ h (Or.inr hreached))

private theorem advances_fill_iff [DecimalContext] (hf : e.isFill = true) :
    Advances e order.status (statusAfterFill e order) ↔
      (e.eventType = .partialFill → order.status = .filled → e.price ≠ none → 0 < e.quantity →
        0 < order.submittedQty ∧
          order.submittedQty ≤ filledAfter order e.quantity (allowOverfill e)) := by
  by_cases hs : order.status = .filled
  · rw [hs, advances_filled_iff]
    unfold statusAfterFill
    rw [hs]
    cases hp : e.price with
    | none => exact iff_of_true rfl (fun _ _ h ↦ absurd rfl h)
    | some price =>
      simp only
      by_cases hq : 0 < e.quantity
      · by_cases he : e.eventType = .finalFill
        · have hstatus : fillStatus e (fillOrder e price (some order)).1 = .filled :=
            if_pos (Or.inl he)
          rw [hstatus]
          refine iff_of_true (ite_self _) (fun hpartial ↦ ?_)
          exact absurd (he.symm.trans hpartial) (by decide)
        · have hpartial : e.eventType = .partialFill := by
            simpa [LedgerEvent.isFill, he] using hf
          rw [← stays_filled_iff price hq, ← fillStatus_eq_filled_iff he]
          by_cases ha : (fillOrder e price (some order)).2 ≤ 0
          · simp [ha]
          · simp [ha, hpartial, hq]
      · exact iff_of_true (if_pos (Or.inl (not_lt.mp hq))) (fun _ _ _ h ↦ absurd h hq)
  · exact iff_of_true (advances_statusAfterFill hf hs) (fun _ hfilled ↦ absurd hfilled hs)

/-- An event moves the status of its order forward exactly when it meets the condition. -/
theorem advances_orderAfter_iff [DecimalContext] (e : LedgerEvent) (order : OrderLifecycle) :
    (∃ order', orderAfter e (some order) = some order' ∧
      Advances e order.status order'.status) ↔ KeepsStatusOf e order := by
  have hmeets (hsub : e.eventType ≠ .orderSubmissionRequested)
      (hfill : e.eventType ≠ .partialFill) :
      KeepsStatusOf e order := ⟨fun h ↦ absurd h hsub, fun h ↦ absurd h hfill⟩
  have hfills (hf : e.isFill = true) (hsub : e.eventType ≠ .orderSubmissionRequested) :
      (∃ order', filledOrder e (some order) = some order' ∧
        Advances e order.status order'.status) ↔ KeepsStatusOf e order := by
    obtain ⟨order', ho, hs⟩ := status_filledOrder e order
    rw [ho]
    simp only [Option.some.injEq, exists_eq_left']
    rw [hs, advances_fill_iff hf]
    exact ⟨fun h ↦ ⟨fun hs ↦ absurd hs hsub, h⟩, fun h ↦ h.fills⟩
  unfold orderAfter
  cases he : e.eventType with
  | orderSubmissionRequested =>
    simp only [Option.some.injEq, exists_eq_left']
    rw [advances_submitOrder_iff he]
    constructor
    · exact fun h ↦ ⟨fun _ ↦ h, fun hfill ↦ absurd (he.symm.trans hfill) (by decide)⟩
    · exact fun h ↦ h.submits he
  | brokerOrderAccepted =>
    refine iff_of_true ⟨_, rfl, advances_acceptOrder e order⟩ (hmeets ?_ ?_) <;> simp [he]
  | partialFill => exact hfills (by simp [LedgerEvent.isFill, he]) (by simp [he])
  | finalFill => exact hfills (by simp [LedgerEvent.isFill, he]) (by simp [he])
  | cancellation =>
    refine iff_of_true ⟨_, rfl, advances_cancelOrder e order⟩ (hmeets ?_ ?_) <;> simp [he]
  | rejection =>
    refine iff_of_true ⟨_, rfl, advances_rejectOrder e order⟩ (hmeets ?_ ?_) <;> simp [he]
  | _ =>
    refine iff_of_true ⟨order, rfl, Advances.refl _ _⟩ (hmeets ?_ ?_) <;> simp [he]

end Order

/-! ### A ledger -/

private theorem exists_next_iff [DecimalContext] {r : Replay} {e : LedgerEvent}
    (hc : e.NotCorrection)
    (hf : r.Fresh e) (c : String) (P : OrderStatus → Prop) :
    (∃ order', (r.next e).tables.orders.get? c = some order' ∧ P order'.status) ↔
      ∃ order', (if e.clientOrderId = c then orderAfter e (r.tables.orders.get? c)
        else r.tables.orders.get? c) = some order' ∧ P order'.status := by
  have htransfer (a b : Option OrderLifecycle)
      (hab : a.map OrderLifecycle.feeless = b.map OrderLifecycle.feeless) :
      (∃ o, a = some o ∧ P o.status) → ∃ o, b = some o ∧ P o.status := by
    rintro ⟨o, rfl, hP⟩
    obtain ⟨o', ho', hsame⟩ := Option.map_eq_some_iff.mp hab.symm
    have hstatus : o'.status = o.status := congrArg (fun o ↦ o.status) hsame
    exact ⟨o', ho', hstatus ▸ hP⟩
  exact ⟨htransfer _ _ (feeless_next hc hf c), htransfer _ _ (feeless_next hc hf c).symm⟩

/-- The step: a turn moves all statuses forward exactly when its event meets the condition. -/
theorem statusesAdvance_next_iff [DecimalContext] {r : Replay} {e : LedgerEvent}
    (hc : e.NotCorrection) :
    StatusesAdvance e r.freeze (r.next e).freeze ↔ KeepsStatus r.freeze e := by
  by_cases hf : r.Fresh e
  · constructor
    · intro h _ _ order ho
      change r.tables.orders.get? e.clientOrderId = some order at ho
      rw [← advances_orderAfter_iff]
      have hmine := (exists_next_iff hc hf e.clientOrderId _).mp (h e.clientOrderId order ho)
      rw [if_pos rfl, ho] at hmine
      exact hmine
    · intro h c order ho
      change r.tables.orders.get? c = some order at ho
      apply (exists_next_iff hc hf c (Advances e order.status)).mpr
      split
      · next hk =>
        subst hk
        rw [ho, advances_orderAfter_iff]
        exact h hf.1 hf.2 order ho
      · exact ⟨order, ho, Advances.refl _ _⟩
  · rw [next_of_not_fresh hf]
    constructor
    · exact fun _ hid hkey ↦ absurd ⟨hid, hkey⟩ hf
    · exact fun _ c order ho ↦ ⟨order, ho, Advances.refl _ _⟩

/-- The exact extent of the order of statuses: along the prefixes of a ledger without corrections no
status moves back, exactly when no event of it submits again an order that is under way, or fills
a part of a filled order that stays below what was submitted. -/
theorem statuses_advance_iff [DecimalContext] (events : List LedgerEvent)
    (h : ∀ e ∈ events, e.NotCorrection) :
    (∀ pre e, pre ++ [e] <+: events → ∃ st st', project pre = .ok st ∧
        project (pre ++ [e]) = .ok st' ∧ StatusesAdvance e st st') ↔
      ∀ pre e, pre ++ [e] <+: events → ∃ st, project pre = .ok st ∧ KeepsStatus st e := by
  have hproj (pre : List LedgerEvent) (hp : pre <+: events) :
      project pre = .ok (run Replay.next Replay.start pre).freeze :=
    project_eq_ok.mpr
      ⟨_, replay_eq_run Replay.start pre (fun e he ↦ h e (hp.subset he)), rfl⟩
  apply forall_congr'
  intro pre
  apply forall_congr'
  intro e
  apply forall_congr'
  intro hp
  have hpre : pre <+: events := (List.prefix_append pre [e]).trans hp
  have hc : e.NotCorrection := h e (hp.subset (by simp))
  rw [hproj pre hpre, hproj (pre ++ [e]) hp, run_snoc]
  constructor
  · rintro ⟨_, _, ⟨⟩, ⟨⟩, hadvance⟩
    exact ⟨_, rfl, (statusesAdvance_next_iff hc).mp hadvance⟩
  · rintro ⟨_, ⟨⟩, hkeeps⟩
    exact ⟨_, _, rfl, rfl, (statusesAdvance_next_iff hc).mpr hkeeps⟩

open scoped DefaultContext

/-- Three contracts are submitted and one is filled, before the order is submitted once more. -/
def submittedAgain : List LedgerEvent :=
  [⟨EventFields.sample .orderSubmissionRequested "s" .buy 3 none, EventFields.valid_orderOfThree⟩,
    ⟨EventFields.sample .partialFill "f" .buy 1 (some 1), EventFields.valid_firstFill⟩,
    ⟨EventFields.sample .orderSubmissionRequested "t" .buy 3 none, by decide +kernel⟩]

/-- The equivalence at a second submission. -/
theorem statuses_advance_submittedAgain :
    (∀ pre e, pre ++ [e] <+: submittedAgain → ∃ st st', project pre = .ok st ∧
        project (pre ++ [e]) = .ok st' ∧ StatusesAdvance e st st') ↔
      ∀ pre e, pre ++ [e] <+: submittedAgain → ∃ st, project pre = .ok st ∧ KeepsStatus st e :=
  statuses_advance_iff submittedAgain (by decide +kernel)

/-- The status of the one order of a ledger. -/
def statusOf (events : List LedgerEvent) : Option OrderStatus :=
  (project events).toOption.bind (fun st ↦ (st.orders.get? "c").map (fun order ↦ order.status))

/-- The second submission takes the partially filled order back to submitted. -/
theorem not_statuses_advance_submittedAgain :
    (∀ e ∈ submittedAgain, e.NotCorrection) ∧
      ¬ ∀ pre e, pre ++ [e] <+: submittedAgain → ∃ st st', project pre = .ok st ∧
        project (pre ++ [e]) = .ok st' ∧ StatusesAdvance e st st' := by
  refine ⟨by decide +kernel, ?_⟩
  intro h
  obtain ⟨st, st', hst, hst', hadvance⟩ := h (submittedAgain.take 2) (submittedAgain.getLast nofun)
    (by decide +kernel)
  have hbefore : statusOf (submittedAgain.take 2) = some .partiallyFilled := by decide +kernel
  have hafter : statusOf (submittedAgain.take 2 ++ [submittedAgain.getLast nofun]) =
      some .submitted := by decide +kernel
  unfold statusOf at hbefore hafter
  rw [hst] at hbefore
  rw [hst'] at hafter
  obtain ⟨order, ho, hs⟩ := Option.map_eq_some_iff.mp hbefore
  obtain ⟨order', ho', hs'⟩ := Option.map_eq_some_iff.mp hafter
  obtain ⟨known, hk, hadvances⟩ := hadvance "c" order ho
  rw [ho'] at hk
  cases hk
  rw [hs, hs'] at hadvances
  exact hadvances.rank.elim (by decide) (fun hfill ↦ absurd hfill.2 (by decide))

end Joker.Ledger
