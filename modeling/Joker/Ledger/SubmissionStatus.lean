import Joker.Ledger.Replay

/-!
# The status of a submitted order

Library `Ledger`. What the projection shows of an order whose events are all written by
submissions: requests, acceptances, rejections, and final fills with a price. The order of the
events plays no part: a fill of something is shown for good, without one a rejection is, and
only without both the order is shown as submitted or accepted.
-/

namespace Joker.Ledger

open Joker.Base
/-- The events a submission writes for its order. -/
def LedgerEvent.OfSubmission (e : LedgerEvent) : Prop :=
  e.eventType ∈ [.orderSubmissionRequested, .brokerOrderAccepted, .rejection] ∨
    e.eventType = .finalFill ∧ e.price ≠ none

/-- A request or an acceptance of the client order is among the events. -/
def RequestedIn (clientOrderId : String) (events : List LedgerEvent) : Prop :=
  ∃ e ∈ events, e.clientOrderId = clientOrderId ∧
    e.eventType ∈ [.orderSubmissionRequested, .brokerOrderAccepted]

/-- A rejection of the client order is among the events. -/
def RejectedIn (clientOrderId : String) (events : List LedgerEvent) : Prop :=
  ∃ e ∈ events, e.clientOrderId = clientOrderId ∧ e.eventType = .rejection

/-- A final fill of the client order, of more than nothing, is among the events. -/
def FilledIn (clientOrderId : String) (events : List LedgerEvent) : Prop :=
  ∃ e ∈ events, e.clientOrderId = clientOrderId ∧ e.eventType = .finalFill ∧ 0 < e.quantity

instance (clientOrderId : String) (events : List LedgerEvent) :
    Decidable (RequestedIn clientOrderId events) :=
  inferInstanceAs (Decidable (∃ e ∈ events, _ ∧ _))

instance (clientOrderId : String) (events : List LedgerEvent) :
    Decidable (RejectedIn clientOrderId events) :=
  inferInstanceAs (Decidable (∃ e ∈ events, _ ∧ _))

instance (clientOrderId : String) (events : List LedgerEvent) :
    Decidable (FilledIn clientOrderId events) :=
  inferInstanceAs (Decidable (∃ e ∈ events, _ ∧ _))

/-- An order as its history shows it; no order without a history. -/
def ShownBy (clientOrderId : String) (events : List LedgerEvent) : Option OrderLifecycle → Prop
  | none => ¬ RequestedIn clientOrderId events ∧ ¬ RejectedIn clientOrderId events ∧
      ¬ FilledIn clientOrderId events
  | some order =>
    (order.status = .filled ∧ FilledIn clientOrderId events) ∨
    (order.status = .rejected ∧ RejectedIn clientOrderId events ∧
      ¬ FilledIn clientOrderId events ∧ order.filledQty = 0) ∨
    (order.status ∈ [.submitted, .accepted] ∧ RequestedIn clientOrderId events ∧
      ¬ RejectedIn clientOrderId events ∧ ¬ FilledIn clientOrderId events ∧ order.filledQty = 0)

/-! ### One more event -/

section Snoc

variable {clientOrderId : String} {events : List LedgerEvent} {e : LedgerEvent}

private theorem exists_snoc (P : LedgerEvent → Prop) :
    (∃ x ∈ events ++ [e], x.clientOrderId = clientOrderId ∧ P x) ↔
      (∃ x ∈ events, x.clientOrderId = clientOrderId ∧ P x) ∨
        e.clientOrderId = clientOrderId ∧ P e := by
  simp only [List.mem_append, List.mem_singleton, or_and_right, exists_or, exists_eq_left]

private theorem requestedIn_snoc : RequestedIn clientOrderId (events ++ [e]) ↔
    RequestedIn clientOrderId events ∨ e.clientOrderId = clientOrderId ∧
      e.eventType ∈ [.orderSubmissionRequested, .brokerOrderAccepted] := exists_snoc _

private theorem rejectedIn_snoc : RejectedIn clientOrderId (events ++ [e]) ↔
    RejectedIn clientOrderId events ∨
      e.clientOrderId = clientOrderId ∧ e.eventType = .rejection := exists_snoc _

private theorem filledIn_snoc : FilledIn clientOrderId (events ++ [e]) ↔
    FilledIn clientOrderId events ∨
      e.clientOrderId = clientOrderId ∧ e.eventType = .finalFill ∧ 0 < e.quantity := exists_snoc _

/-- Events of other orders show nothing. -/
theorem shownBy_snoc_of_ne (hk : e.clientOrderId ≠ clientOrderId) (found : Option OrderLifecycle) :
    ShownBy clientOrderId (events ++ [e]) found ↔ ShownBy clientOrderId events found := by
  unfold ShownBy
  simp only [requestedIn_snoc, rejectedIn_snoc, filledIn_snoc, hk, false_and, or_false]

/-- Fees play no part. -/
theorem shownBy_feeless (found : Option OrderLifecycle) :
    ShownBy clientOrderId events (found.map OrderLifecycle.feeless) ↔
      ShownBy clientOrderId events found := by
  cases found <;> rfl

private theorem shownBy_congr {a b : Option OrderLifecycle}
    (h : a.map OrderLifecycle.feeless = b.map OrderLifecycle.feeless)
    (hb : ShownBy clientOrderId events b) : ShownBy clientOrderId events a := by
  rw [← shownBy_feeless, h, shownBy_feeless]
  exact hb

/-! ### The events of the order -/

private theorem shownBy_requested {order : OrderLifecycle} {found : Option OrderLifecycle}
    (hk : e.clientOrderId = clientOrderId)
    (he : e.eventType ∈ [.orderSubmissionRequested, .brokerOrderAccepted])
    (h : ShownBy clientOrderId events found) (hq : order.filledQty = filledSoFar found)
    (hkeep : ∀ o ∈ found, o.status ∈ [.filled, .cancelled, .rejected] → order.status = o.status)
    (hnew : (∀ o ∈ found, o.status ∉ [.filled, .cancelled, .rejected]) →
      (∀ o ∈ found, o.status ≠ .partiallyFilled) → order.status ∈ [.submitted, .accepted]) :
    ShownBy clientOrderId (events ++ [e]) (some order) := by
  have hreq : RequestedIn clientOrderId (events ++ [e]) := requestedIn_snoc.mpr (Or.inr ⟨hk, he⟩)
  have hrej : RejectedIn clientOrderId (events ++ [e]) ↔ RejectedIn clientOrderId events := by
    rw [rejectedIn_snoc, or_iff_left]
    rintro ⟨-, ht⟩
    rw [ht] at he
    exact absurd he (by decide)
  have hfill : FilledIn clientOrderId (events ++ [e]) ↔ FilledIn clientOrderId events := by
    rw [filledIn_snoc, or_iff_left]
    rintro ⟨-, ht, -⟩
    rw [ht] at he
    exact absurd he (by decide)
  unfold ShownBy
  rw [hrej, hfill]
  cases found with
  | none =>
    right
    right
    exact ⟨hnew (fun _ h ↦ nomatch h) (fun _ h ↦ nomatch h), hreq, h.2.1, h.2.2, hq⟩
  | some o =>
    rcases h with ⟨hs, hf⟩ | ⟨hs, hr, hf, hz⟩ | ⟨hs, -, hr, hf, hz⟩
    · left
      exact ⟨(hkeep o rfl (by simp [hs])).trans hs, hf⟩
    · right
      left
      exact ⟨(hkeep o rfl (by simp [hs])).trans hs, hr, hf, hq.trans hz⟩
    · right
      right
      refine ⟨hnew ?_ ?_, hreq, hr, hf, hq.trans hz⟩
      · rintro _ ⟨⟩
        rcases List.mem_pair.mp hs with hs | hs <;> simp [hs]
      · rintro _ ⟨⟩ hp
        rw [hp] at hs
        exact absurd hs (by decide)

private theorem shownBy_submission {found : Option OrderLifecycle}
    (hk : e.clientOrderId = clientOrderId) (he : e.eventType = .orderSubmissionRequested)
    (h : ShownBy clientOrderId events found) :
    ShownBy clientOrderId (events ++ [e]) (some (submitOrder e found)) := by
  have hstatus (order : OrderLifecycle) : (order.noteBrokerOrderId e).status = order.status := by
    unfold OrderLifecycle.noteBrokerOrderId
    split <;> rfl
  apply shownBy_requested hk (by simp [he]) h (filledQty_submitOrder e found)
  · rintro o ⟨⟩ ho
    simp only [submitOrder, hstatus, if_pos ho]
  · intro ho _
    cases found with
    | none => simp [submitOrder, OrderLifecycle.new]
    | some o => simp only [submitOrder, hstatus, if_neg (ho o rfl)]; decide

private theorem shownBy_acceptance {found : Option OrderLifecycle}
    (hk : e.clientOrderId = clientOrderId) (he : e.eventType = .brokerOrderAccepted)
    (h : ShownBy clientOrderId events found) :
    ShownBy clientOrderId (events ++ [e]) (some (acceptOrder e found)) := by
  have hstatus : ∀ o, ensureOrder e found = o →
      (acceptOrder e found).status =
        if o.status ∈ [.filled, .cancelled, .rejected, .partiallyFilled] then o.status
        else .accepted := by
    rintro _ rfl
    have hnote : ((ensureOrder e found).noteBrokerOrderId e).status =
        (ensureOrder e found).status := by
      unfold OrderLifecycle.noteBrokerOrderId
      split <;> rfl
    unfold acceptOrder
    rw [← hnote]
    simp only
    split <;> split <;> rfl
  apply shownBy_requested hk (by simp [he]) h (filledQty_acceptOrder e found)
  · rintro o ⟨⟩ ho
    rw [hstatus o rfl, if_pos]
    simp only [List.mem_cons, List.not_mem_nil, or_false] at ho ⊢
    exact ho.imp_right (Or.imp_right Or.inl)
  · intro ho hp
    have hnot : (ensureOrder e found).status ∉
        [.filled, .cancelled, .rejected, .partiallyFilled] := by
      cases found with
      | none => simp [ensureOrder, OrderLifecycle.new]
      | some o =>
        have h₁ := ho o rfl
        have h₂ := hp o rfl
        simp only [ensureOrder, List.mem_cons, List.not_mem_nil, or_false, not_or] at h₁ ⊢
        exact ⟨h₁.1, h₁.2.1, h₁.2.2, h₂⟩
    rw [hstatus _ rfl, if_neg hnot]
    decide

private theorem shownBy_rejection {found : Option OrderLifecycle}
    (hk : e.clientOrderId = clientOrderId) (he : e.eventType = .rejection)
    (h : ShownBy clientOrderId events found) :
    ShownBy clientOrderId (events ++ [e]) (some (rejectOrder e found)) := by
  have hrej : RejectedIn clientOrderId (events ++ [e]) := rejectedIn_snoc.mpr (Or.inr ⟨hk, he⟩)
  have hfill : FilledIn clientOrderId (events ++ [e]) ↔ FilledIn clientOrderId events := by
    rw [filledIn_snoc, or_iff_left]
    rintro ⟨-, ht, -⟩
    rw [ht] at he
    cases he
  have hrejected (hs : (ensureOrder e found).status ∉ [.filled, .cancelled]) :
      rejectOrder e found = { ensureOrder e found with status := .rejected } := by
    unfold rejectOrder
    exact if_neg hs
  unfold ShownBy
  rw [hfill]
  cases found with
  | none =>
    right
    left
    rw [hrejected (by simp [ensureOrder, OrderLifecycle.new])]
    exact ⟨rfl, hrej, h.2.2, rfl⟩
  | some o =>
    rcases h with ⟨hs, hf⟩ | ⟨hs, hr, hf, hz⟩ | ⟨hs, -, hr, hf, hz⟩
    · left
      have hsame : rejectOrder e (some o) = o := if_pos (by simp [ensureOrder, hs])
      rw [hsame]
      exact ⟨hs, hf⟩
    · right
      left
      rw [hrejected (by simp [ensureOrder, hs])]
      exact ⟨rfl, hrej, hf, hz⟩
    · right
      left
      rw [hrejected (by rcases List.mem_pair.mp hs with hs | hs <;> simp [ensureOrder, hs])]
      exact ⟨rfl, hrej, hf, hz⟩

private theorem applied_pos [DecimalContext] {order : OrderLifecycle} {qty price : ℚ}
    {overfill : Bool} (hz : order.filledQty = 0) (hq : 0 < qty) :
    0 < (accumulateFill order qty price overfill).2 := by
  unfold accumulateFill
  simp only [hz, sub_zero]
  generalize hclamped : (!overfill && decide (0 < order.submittedQty)) = clamped
  have hroom (h : clamped = true) : 0 < rounded order.submittedQty := by
    rw [h] at hclamped
    exact rounded_pos (of_decide_eq_true (Bool.and_eq_true_iff.mp hclamped).2)
  have happlied : 0 < if clamped = true then min qty (rounded order.submittedQty) else qty := by
    split
    · next h => exact lt_min hq (hroom h)
    · exact hq
  rw [if_neg (fun h ↦ not_le.mpr (hroom h.1) h.2), if_neg (not_le.mpr happlied)]
  exact happlied

private theorem status_fillOrder [DecimalContext] (price : ℚ) (found : Option OrderLifecycle) :
    (fillOrder e price found).1.status = (ensureOrder e found).status := by
  obtain ⟨avg, h⟩ := accumulateFill_order ((ensureOrder e found).noteBrokerOrderId e) e.quantity
    price (allowOverfill e)
  unfold fillOrder
  rw [h]
  unfold OrderLifecycle.noteBrokerOrderId
  split <;> rfl

private theorem shownBy_finalFill [DecimalContext] {found : Option OrderLifecycle}
    (hk : e.clientOrderId = clientOrderId) (he : e.eventType = .finalFill) (hp : e.price ≠ none)
    (h : ShownBy clientOrderId events found) :
    ShownBy clientOrderId (events ++ [e]) (filledOrder e found) := by
  obtain ⟨price, hp⟩ := Option.ne_none_iff_exists'.mp hp
  by_cases hq : e.quantity ≤ 0
  · -- A fill of nothing leaves no trace.
    have hreq : RequestedIn clientOrderId (events ++ [e]) ↔ RequestedIn clientOrderId events := by
      rw [requestedIn_snoc, or_iff_left]
      simp [he]
    have hrej : RejectedIn clientOrderId (events ++ [e]) ↔ RejectedIn clientOrderId events := by
      rw [rejectedIn_snoc, or_iff_left]
      simp [he]
    have hfill : FilledIn clientOrderId (events ++ [e]) ↔ FilledIn clientOrderId events := by
      rw [filledIn_snoc, or_iff_left]
      exact fun hn ↦ hq.not_gt hn.2.2
    unfold ShownBy at h ⊢
    rw [filledOrder_of_skipped (.inr hq), hreq, hrej, hfill]
    exact h
  · have hf : FilledIn clientOrderId (events ++ [e]) :=
      filledIn_snoc.mpr (Or.inr ⟨hk, he, lt_of_not_ge hq⟩)
    have hfilled : ∃ order, filledOrder e found = some order ∧ order.status = .filled := by
      rw [filledOrder_of_priced hp (lt_of_not_ge hq)]
      by_cases ha : (fillOrder e price found).2 ≤ 0
      · -- Nothing is left to fill, so the order was filled before.
        rw [if_pos ha]
        refine ⟨_, rfl, ?_⟩
        rw [status_fillOrder]
        have hpos (hz : (ensureOrder e found).filledQty = 0) : 0 < (fillOrder e price found).2 := by
          apply applied_pos _ (lt_of_not_ge hq)
          rw [filledQty_noteBrokerOrderId]
          exact hz
        cases found with
        | none => exact absurd (hpos rfl) ha.not_gt
        | some o =>
          rcases h with ⟨hs, -⟩ | ⟨-, -, -, hz⟩ | ⟨-, -, -, -, hz⟩
          · exact hs
          · exact absurd (hpos hz) ha.not_gt
          · exact absurd (hpos hz) ha.not_gt
      · rw [if_neg ha]
        exact ⟨_, rfl, if_pos (Or.inl he)⟩
    obtain ⟨order, ho, hs⟩ := hfilled
    rw [ho]
    exact Or.inl ⟨hs, hf⟩

/-- The step: an event of a submission is shown. -/
theorem shownBy_orderAfter [DecimalContext] {found : Option OrderLifecycle}
    (hk : e.clientOrderId = clientOrderId)
    (he : e.OfSubmission) (h : ShownBy clientOrderId events found) :
    ShownBy clientOrderId (events ++ [e]) (orderAfter e found) := by
  unfold orderAfter
  rcases he with he | ⟨he, hp⟩
  · simp only [List.mem_cons, List.not_mem_nil, or_false] at he
    rcases he with he | he | he
    · rw [he]
      exact shownBy_submission hk he h
    · rw [he]
      exact shownBy_acceptance hk he h
    · rw [he]
      exact shownBy_rejection hk he h
  · rw [he]
    exact shownBy_finalFill hk he hp h

end Snoc

/-! ### The whole ledger -/

/-- The run: when no two events share an id or a key, and all events of a client order are of
submissions, the replayed order is shown by its history. -/
theorem shownBy_replay [DecimalContext] {clientOrderId : String} {events : List LedgerEvent}
    {r : Replay} (hr : replay Replay.start events = .ok r)
    (hids : (events.map (fun e ↦ e.ledgerEventId)).Nodup)
    (hkeys : (events.map (fun e ↦ e.idempotencyKey)).Nodup)
    (hsub : ∀ e ∈ events, e.clientOrderId = clientOrderId → e.OfSubmission) :
    ShownBy clientOrderId events (r.tables.orders.get? clientOrderId) := by
  induction events using List.reverseRecOn generalizing r with
  | nil =>
    cases hr
    exact ⟨fun ⟨_, h, _⟩ ↦ (nomatch h), fun ⟨_, h, _⟩ ↦ (nomatch h), fun ⟨_, h, _⟩ ↦ (nomatch h)⟩
  | append_singleton events e ih =>
    rw [replay_snoc] at hr
    rw [List.map_append, List.map_singleton, List.nodup_append] at hids hkeys
    cases hr₀ : replay Replay.start events with
    | error err =>
      rw [hr₀] at hr
      cases hr
    | ok r₀ =>
      rw [hr₀] at hr
      have hbefore := ih hr₀ hids.1 hkeys.1 (fun e' h ↦ hsub e' (List.mem_append_left _ h))
      have hfresh : r₀.Fresh e := by
        apply fresh_of_new hr₀
        intro e' he'
        constructor
        · exact hids.2.2 _ (List.mem_map_of_mem he') _ (List.mem_singleton_self _)
        · exact hkeys.2.2 _ (List.mem_map_of_mem he') _ (List.mem_singleton_self _)
      rcases step_cases hr with ⟨hn, -⟩ | ⟨-, t, ht, rfl⟩
      · exact absurd hfresh hn
      · by_cases hk : e.clientOrderId = clientOrderId
        · have he := hsub e (by simp) hk
          have hc : e.NotCorrection := by
            rintro hcorr
            rcases he with he | ⟨he, -⟩ <;> rw [hcorr] at he <;> exact absurd he (by decide)
          have horder := feeless_applyEvent hc ht clientOrderId
          rw [if_pos hk] at horder
          exact shownBy_congr horder (shownBy_orderAfter hk he hbefore)
        · rw [shownBy_snoc_of_ne hk]
          exact shownBy_congr (feeless_applyEvent_of_ne ht hk) hbefore

end Joker.Ledger
