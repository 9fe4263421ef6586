import Joker.Ledger.FillTally
import Joker.Ledger.Reconciliation
import Joker.Ledger.SubmissionStatus

/-!
# Orders that are filled at once

Library `Ledger`. A new order whose request, acceptance and final fill stand at the end of a
ledger: the projection trades its whole quantity, and shows no order as active.
-/

namespace Joker.Ledger

open Joker.Base CostAccount

/-- Two events differ in their ids and in their keys. -/
def LedgerEvent.Apart (a b : LedgerEvent) : Prop :=
  a.ledgerEventId ≠ b.ledgerEventId ∧ a.idempotencyKey ≠ b.idempotencyKey

instance : DecidableRel LedgerEvent.Apart := fun _ _ ↦ inferInstanceAs (Decidable (_ ∧ _))

/-- The three events of an order that is filled at once. -/
structure FilledAtOnce (clientOrderId contractId : String) (side : Side)
    (requested accepted filled : LedgerEvent) : Prop where
  requestType : requested.eventType = .orderSubmissionRequested
  requestFor : requested.clientOrderId = clientOrderId
  acceptanceType : accepted.eventType = .brokerOrderAccepted
  acceptanceFor : accepted.clientOrderId = clientOrderId
  fillType : filled.eventType = .finalFill
  fill : filled.IsFillOf clientOrderId contractId side
  whole : requested.quantity = filled.quantity

section Orders

variable {events : List LedgerEvent} {r : Replay} {e : LedgerEvent}

private theorem nodup_of_apart {γ : Type} {f : LedgerEvent → γ}
    (hf : ∀ a b : LedgerEvent, a.Apart b → f a ≠ f b) (h : events.Pairwise LedgerEvent.Apart) :
    (events.map f).Nodup := by
  unfold List.Nodup
  rw [List.pairwise_map]
  exact h.imp (fun hab ↦ hf _ _ hab)

private theorem replay_snoc_of_apart [DecimalContext] (hr : replay Replay.start events = .ok r)
    (hc : e.NotCorrection) (hapart : (events ++ [e]).Pairwise LedgerEvent.Apart) :
    ∃ r', replay Replay.start (events ++ [e]) = .ok r' ∧
      applyEvent e r.tables = .ok r'.tables := by
  have hfresh : r.Fresh e := by
    apply fresh_of_new hr
    intro x hx
    exact (List.pairwise_append.mp hapart).2.2 x hx e (List.mem_singleton_self e)
  obtain ⟨t, ht⟩ := applyEvent_ok e r.tables hc
  refine ⟨⟨t, insert e.ledgerEventId r.seenIds, insert e.idempotencyKey r.seenKeys⟩, ?_, ht⟩
  rw [replay_snoc, hr]
  change r.step e = _
  unfold Replay.step
  rw [if_pos hfresh, ht]

private theorem not_on_record [DecimalContext] {clientOrderId : String}
    (hr : replay Replay.start events = .ok r) (hapart : events.Pairwise LedgerEvent.Apart)
    (hnew : ∀ e ∈ events, e.clientOrderId ≠ clientOrderId) :
    r.tables.orders.get? clientOrderId = none := by
  have hshown := shownBy_replay hr (nodup_of_apart (fun _ _ h ↦ h.1) hapart)
    (nodup_of_apart (fun _ _ h ↦ h.2) hapart) (fun e he hk ↦ absurd hk (hnew e he))
  cases hget : r.tables.orders.get? clientOrderId with
  | none => rfl
  | some order =>
    rw [hget] at hshown
    have hno (P : LedgerEvent → Prop) : ¬ ∃ e ∈ events, e.clientOrderId = clientOrderId ∧ P e := by
      rintro ⟨e, he, hk, -⟩
      exact hnew e he hk
    rcases hshown with ⟨-, h⟩ | ⟨-, h, -⟩ | ⟨-, h, -⟩ <;> exact (hno _ h).elim

/-- An order that waits for all of its quantity. -/
private def Waiting (qty : ℚ) (found : Option OrderLifecycle) : Prop :=
  ∃ order, found = some order ∧ order.filledQty = 0 ∧ order.submittedQty = qty

private theorem waiting_of_feeless {qty : ℚ} {found : Option OrderLifecycle}
    {order : OrderLifecycle} (h : found.map OrderLifecycle.feeless = some order.feeless)
    (hf : order.filledQty = 0) (hs : order.submittedQty = qty) : Waiting qty found := by
  cases found with
  | none => cases h
  | some known =>
    rw [Option.map_some, Option.some.injEq] at h
    have hfilled : known.filledQty = order.filledQty := congrArg (fun o ↦ o.filledQty) h
    have hsubmitted : known.submittedQty = order.submittedQty :=
      congrArg (fun o ↦ o.submittedQty) h
    exact ⟨known, rfl, hfilled.trans hf, hsubmitted.trans hs⟩

private theorem waiting_requested [DecimalContext] {t t' : Tables}
    (he : e.eventType = .orderSubmissionRequested)
    (h : applyEvent e t = .ok t') (hnew : t.orders.get? e.clientOrderId = none) :
    Waiting e.quantity (t'.orders.get? e.clientOrderId) := by
  have hc : e.NotCorrection := by
    unfold LedgerEvent.NotCorrection
    rw [he]
    decide
  have horder := feeless_applyEvent hc h e.clientOrderId
  rw [if_pos rfl, hnew] at horder
  unfold orderAfter at horder
  rw [he] at horder
  apply waiting_of_feeless horder
  · exact filledQty_submitOrder e none
  · exact submittedQty_submitOrder e none

private theorem waiting_accepted [DecimalContext] {t t' : Tables} {qty : ℚ}
    (he : e.eventType = .brokerOrderAccepted)
    (h : applyEvent e t = .ok t') (hw : Waiting qty (t.orders.get? e.clientOrderId))
    (hq : 0 < qty) : Waiting qty (t'.orders.get? e.clientOrderId) := by
  obtain ⟨order, hget, hf, hs⟩ := hw
  have hc : e.NotCorrection := by
    unfold LedgerEvent.NotCorrection
    rw [he]
    decide
  have horder := feeless_applyEvent hc h e.clientOrderId
  rw [if_pos rfl, hget] at horder
  unfold orderAfter at horder
  rw [he] at horder
  apply waiting_of_feeless horder
  · exact (filledQty_acceptOrder e (some order)).trans hf
  · have hne : order.submittedQty ≠ 0 := by
      rw [hs]
      exact hq.ne'
    rw [submittedQty_acceptOrder]
    exact (if_neg (fun hn ↦ hne hn.2)).trans hs

private theorem quantity_of_not_fill [DecimalContext] {t t' : Tables} (hc : e.NotCorrection)
    (hf : e.isFill = false)
    (h : applyEvent e t = .ok t') (c : String) :
    (t'.position c).quantity = (t.position c).quantity :=
  quantity_of_holding (holding_applyEvent_of_not_fill hc hf h c)

/-- A new order that is filled at once trades its quantity on its contract, where the context keeps
what it makes of the position, and touches no other position. -/
theorem quantity_replay_of_filledAtOnce [DecimalContext] {clientOrderId contractId : String}
    {side : Side}
    {requested accepted filled : LedgerEvent} (hr : replay Replay.start events = .ok r)
    (ho : FilledAtOnce clientOrderId contractId side requested accepted filled)
    (hq : 0 < filled.quantity) (hkept : Kept filled.quantity)
    (hposition : KeepsPosition (r.tables.position contractId).quantity side filled.quantity)
    (hnew : ∀ e ∈ events, e.clientOrderId ≠ clientOrderId)
    (hapart : (events ++ [requested, accepted, filled]).Pairwise LedgerEvent.Apart) :
    ∃ r', replay Replay.start (events ++ [requested, accepted, filled]) = .ok r' ∧
      ∀ c, (r'.tables.position c).quantity =
        if contractId = c then settle (r.tables.position c).quantity (side.signed filled.quantity)
        else (r.tables.position c).quantity := by
  have hsplit : events ++ [requested, accepted, filled] =
      events ++ [requested] ++ [accepted] ++ [filled] := by
    simp only [List.append_assoc, List.cons_append, List.nil_append]
  rw [hsplit] at hapart ⊢
  have hapart₂ := (List.pairwise_append.mp hapart).1
  have hapart₁ := (List.pairwise_append.mp hapart₂).1
  have htype {e : LedgerEvent} {type : LedgerEventType} (he : e.eventType = type)
      (hne : type ≠ .reconciliationCorrection) : e.NotCorrection := fun hn ↦ hne (he ▸ hn)
  have hnone := not_on_record hr (List.pairwise_append.mp hapart₁).1 hnew
  obtain ⟨r₁, hr₁, ha₁⟩ := replay_snoc_of_apart hr (htype ho.requestType (by decide)) hapart₁
  obtain ⟨r₂, hr₂, ha₂⟩ := replay_snoc_of_apart hr₁ (htype ho.acceptanceType (by decide)) hapart₂
  obtain ⟨r₃, hr₃, ha₃⟩ := replay_snoc_of_apart hr₂ (htype ho.fillType (by decide)) hapart
  -- The order waits for its quantity until the fill.
  rw [← ho.requestFor] at hnone
  have hw₁ := waiting_requested ho.requestType ha₁ hnone
  rw [ho.requestFor, ← ho.acceptanceFor, ho.whole] at hw₁
  obtain ⟨order, hget, hfilled, hsubmitted⟩ := waiting_accepted ho.acceptanceType ha₂ hw₁ hq
  rw [ho.acceptanceFor, ← ho.fill.order] at hget
  refine ⟨r₃, hr₃, fun c ↦ ?_⟩
  have hunfilled {e : LedgerEvent} {type : LedgerEventType} (he : e.eventType = type)
      (h₁ : type ≠ .partialFill) (h₂ : type ≠ .finalFill) : e.isFill = false := by
    unfold LedgerEvent.isFill
    rw [he]
    simp [h₁, h₂]
  have hquantity (c : String) :
      (r₂.tables.position c).quantity = (r.tables.position c).quantity :=
    (quantity_of_not_fill (htype ho.acceptanceType (by decide))
      (hunfilled ho.acceptanceType (by decide) (by decide)) ha₂ c).trans
    (quantity_of_not_fill (htype ho.requestType (by decide))
      (hunfilled ho.requestType (by decide) (by decide)) ha₁ c)
  have hroom : order.filledQty + filled.quantity ≤ order.submittedQty := by
    rw [hfilled, hsubmitted, zero_add]
  have happlied := appliedQty_of_room ho.fill hroom
  have horder : KeepsOrder filled (some order) := by
    refine ⟨fun _ ↦ ?_, ?_⟩
    · change Kept (order.submittedQty - order.filledQty)
      rwa [hsubmitted, hfilled, sub_zero]
    · change Kept (order.filledQty + _)
      rwa [happlied, hfilled, zero_add]
  rw [applyEvent_of_fill ho.fill.fill, Except.ok.injEq] at ha₃
  rw [← ho.fill.contract, ← hquantity filled.contractId, ← ho.fill.direction] at hposition
  have hsettled := quantity_applyFill_of_kept (e := filled) (t := r₂.tables)
    (fun _ _ ↦ by rw [hget, happlied]; exact ⟨horder, hposition⟩) c
  rw [← ha₃, hsettled, hget, happlied, ho.fill.contract, ho.fill.direction, hquantity]

/-- Where every event is a submission's and its order is filled, no order is active. -/
theorem projectedActive_of_filled [DecimalContext] (hr : replay Replay.start events = .ok r)
    (hapart : events.Pairwise LedgerEvent.Apart)
    (hsub : ∀ e ∈ events, e.OfSubmission ∧ FilledIn e.clientOrderId events) :
    projectedActive r.freeze = [] := by
  apply List.filter_eq_nil_iff.mpr
  rintro ⟨k, order⟩ hmem
  have hget : r.tables.orders.get? k = some order := (Dict.mem_entries_iff _ _ _).mp hmem
  have hshown := @shownBy_replay _ k events r hr (nodup_of_apart (fun _ _ h ↦ h.1) hapart)
    (nodup_of_apart (fun _ _ h ↦ h.2) hapart) (fun e he _ ↦ (hsub e he).1)
  rw [hget] at hshown
  have hstatus : order.status = .filled := by
    rcases hshown with ⟨hs, -⟩ | ⟨-, ⟨e, he, rfl, -⟩, hno, -⟩ | ⟨-, ⟨e, he, rfl, -⟩, -, hno, -⟩
    · exact hs
    · exact absurd (hsub e he).2 hno
    · exact absurd (hsub e he).2 hno
  rw [hstatus]
  decide

end Orders

end Joker.Ledger
