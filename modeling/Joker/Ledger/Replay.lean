import Joker.Base.Runs
import Joker.Ledger.Projector

/-!
# Replaying event sequences

Library `Ledger`. How the loop of `project` composes: appended events continue the loop, an
invariant of one turn holds after every sequence, and sequences without corrections always
have a result. The step lemmas say what each kind of event does to the dictionaries.
-/

namespace Joker.Ledger

open Joker.Base

/-! ### Orders and positions -/

/-- An event that is not a correction. -/
def LedgerEvent.NotCorrection (e : LedgerEvent) : Prop :=
  e.eventType ≠ .reconciliationCorrection

instance (e : LedgerEvent) : Decidable e.NotCorrection :=
  inferInstanceAs (Decidable (_ ≠ _))

/-- An event is a correction only if it was built as one. -/
theorem notCorrection_of_make {fields : EventFields} {e : LedgerEvent}
    (he : makeLedgerEvent fields = some e) (hne : fields.eventType ≠ .reconciliationCorrection) :
    e.NotCorrection := by
  unfold LedgerEvent.NotCorrection
  rw [makeLedgerEvent_eq_some he]
  exact hne

/-- The position of a contract, flat and without history when no event met the contract. -/
def ProjectionState.position (st : ProjectionState) (c : String) : PositionState :=
  ensurePosition c st.positions

/-- The position of a contract while replaying. -/
def Tables.position (t : Tables) (c : String) : PositionState := ensurePosition c t.positions

/-- Everything of a position but its identity and its fees. -/
structure Holding where
  quantity : ℚ
  avgPrice : Option ℚ
  realizedPnl : ℚ
  isOpen : Bool

/-- The holding of a position. -/
def PositionState.holding (pos : PositionState) : Holding :=
  ⟨pos.quantity, pos.avgPrice, pos.realizedPnl, pos.isOpen⟩

/-- Freezing keeps the dictionary's keys and freezes each position. -/
theorem get?_frozenPositions (positions : Dict String PositionState) (c : String) :
    (frozenPositions positions).get? c = (positions.get? c).map PositionState.toModel := by
  apply Option.ext
  intro pos
  rw [← Dict.mem_entries_iff]
  constructor
  · intro h
    obtain ⟨⟨k, p⟩, hm, he⟩ := List.mem_map.mp h
    obtain ⟨rfl, rfl⟩ := Prod.mk.inj he
    rw [(positions.mem_entries_iff k p).mp hm]
    rfl
  · intro h
    obtain ⟨p, hp, he⟩ := Option.map_eq_some_iff.mp h
    exact List.mem_map.mpr ⟨(c, p), (positions.mem_entries_iff c p).mpr hp, by rw [← he]⟩

private theorem position_set (positions : Dict String PositionState) (k c : String)
    (pos : PositionState) :
    ensurePosition c (positions.set k pos) = if k = c then pos else ensurePosition c positions := by
  unfold ensurePosition
  rw [Dict.get?_set]
  split <;> rfl

/-- The filled quantity on record for an order, zero for an unknown one. -/
def filledSoFar (found : Option OrderLifecycle) : ℚ := (found.map (fun o ↦ o.filledQty)).getD 0

/-- A new order has no fills. -/
theorem filledQty_ensureOrder (e : LedgerEvent) (found : Option OrderLifecycle) :
    (ensureOrder e found).filledQty = filledSoFar found := by
  cases found <;> rfl

/-- The broker's id of an order leaves what is filled. -/
@[simp] theorem filledQty_noteBrokerOrderId (order : OrderLifecycle) (e : LedgerEvent) :
    (order.noteBrokerOrderId e).filledQty = order.filledQty := by
  unfold OrderLifecycle.noteBrokerOrderId
  split <;> rfl

/-- The broker's id of an order leaves what was submitted. -/
@[simp] theorem submittedQty_noteBrokerOrderId (order : OrderLifecycle) (e : LedgerEvent) :
    (order.noteBrokerOrderId e).submittedQty = order.submittedQty := by
  unfold OrderLifecycle.noteBrokerOrderId
  split <;> rfl

/-- The broker's id of an order leaves its average price. -/
@[simp] theorem avgFillPrice_noteBrokerOrderId (order : OrderLifecycle) (e : LedgerEvent) :
    (order.noteBrokerOrderId e).avgFillPrice = order.avgFillPrice := by
  unfold OrderLifecycle.noteBrokerOrderId
  split <;> rfl

/-- A submission keeps the filled quantity. -/
theorem filledQty_submitOrder (e : LedgerEvent) (found : Option OrderLifecycle) :
    (submitOrder e found).filledQty = filledSoFar found := by
  cases found with
  | none => rfl
  | some order =>
    unfold submitOrder
    simp only
    split <;> rw [filledQty_noteBrokerOrderId] <;> rfl

/-- A submission sets the submitted quantity. -/
theorem submittedQty_submitOrder (e : LedgerEvent) (found : Option OrderLifecycle) :
    (submitOrder e found).submittedQty = e.quantity := by
  cases found with
  | none => rfl
  | some order =>
    unfold submitOrder
    simp only
    split <;> rw [submittedQty_noteBrokerOrderId]

/-- An acceptance keeps the filled quantity. -/
theorem filledQty_acceptOrder (e : LedgerEvent) (found : Option OrderLifecycle) :
    (acceptOrder e found).filledQty = filledSoFar found := by
  have h : (acceptOrder e found).filledQty =
      ((ensureOrder e found).noteBrokerOrderId e).filledQty := by
    unfold acceptOrder
    simp only
    split <;> split <;> rfl
  rw [h, filledQty_noteBrokerOrderId, filledQty_ensureOrder]

/-- An acceptance sets the submitted quantity only where it was zero. -/
theorem submittedQty_acceptOrder (e : LedgerEvent) (found : Option OrderLifecycle) :
    (acceptOrder e found).submittedQty =
      if 0 < e.quantity ∧ (ensureOrder e found).submittedQty = 0 then e.quantity
      else (ensureOrder e found).submittedQty := by
  unfold acceptOrder
  simp only [submittedQty_noteBrokerOrderId]
  split <;> split <;> simp only [submittedQty_noteBrokerOrderId]

/-- A cancellation changes an order's status only. -/
theorem cancelOrder_eq (e : LedgerEvent) (found : Option OrderLifecycle) :
    ∃ status, cancelOrder e found = { ensureOrder e found with status := status } := by
  unfold cancelOrder
  simp only
  split
  · exact ⟨_, rfl⟩
  · exact ⟨_, rfl⟩

/-- A rejection changes an order's status only. -/
theorem rejectOrder_eq (e : LedgerEvent) (found : Option OrderLifecycle) :
    ∃ status, rejectOrder e found = { ensureOrder e found with status := status } := by
  unfold rejectOrder
  simp only
  split
  · exact ⟨_, rfl⟩
  · exact ⟨_, rfl⟩

/-- The orders after a correction: the one that it names is corrected, where there is one. -/
def correctedOrders (e : LedgerEvent) (orders : Dict String OrderLifecycle) :
    Dict String OrderLifecycle :=
  match orders.get? e.clientOrderId with
  | some order => orders.set e.clientOrderId (correctOrder e order)
  | none => orders

/-- A correction changes the order that it names only. -/
theorem get?_correctedOrders (e : LedgerEvent) (orders : Dict String OrderLifecycle) (k : String) :
    (correctedOrders e orders).get? k =
      if e.clientOrderId = k then (orders.get? k).map (correctOrder e) else orders.get? k := by
  unfold correctedOrders
  cases ho : orders.get? e.clientOrderId with
  | none =>
    by_cases hk : e.clientOrderId = k
    · subst hk
      simp [ho]
    · simp [hk]
  | some order =>
    by_cases hk : e.clientOrderId = k
    · subst hk
      simp [ho]
    · simp [hk]

/-- An order without its fees. -/
def OrderLifecycle.feeless (order : OrderLifecycle) : OrderLifecycle := { order with fees := 0 }

/-- Every projected order has a property. -/
def Replay.ForallOrders (r : Replay) (P : OrderLifecycle → Prop) : Prop :=
  ∀ k, ∀ order ∈ r.tables.orders.get? k, P order

section Context

variable [DecimalContext]

/-! ### The loop -/

/-- Appended events continue from the state the earlier ones reached. -/
theorem replay_append (r : Replay) (xs ys : List LedgerEvent) :
    replay r (xs ++ ys) = (replay r xs).bind (fun r ↦ replay r ys) := by
  induction xs generalizing r with
  | nil => rfl
  | cons e rest ih =>
    simp only [List.cons_append, replay]
    cases r.step e with
    | ok r => exact ih r
    | error err => rfl

/-- One appended event is one more turn. -/
theorem replay_snoc (r : Replay) (xs : List LedgerEvent) (e : LedgerEvent) :
    replay r (xs ++ [e]) = (replay r xs).bind (fun r ↦ r.step e) := by
  rw [replay_append]
  cases replay r xs with
  | error err => rfl
  | ok r =>
    change replay r [e] = r.step e
    simp only [replay]
    cases r.step e <;> rfl

/-- An invariant of one turn is an invariant of the loop. -/
theorem replay_invariant (P : Replay → Prop)
    (hstep : ∀ r e r', P r → r.step e = .ok r' → P r') (xs : List LedgerEvent)
    (r r' : Replay) (h : P r) (hr : replay r xs = .ok r') : P r' := by
  induction xs generalizing r with
  | nil =>
    cases hr
    exact h
  | cons e rest ih =>
    simp only [replay] at hr
    cases hs : r.step e with
    | error err =>
      rw [hs] at hr
      cases hr
    | ok r₁ =>
      rw [hs] at hr
      exact ih r₁ (hstep r e r₁ h hs) hr

/-- What a turn does: a known event changes nothing, a fresh one is applied and remembered. -/
theorem step_cases {r r' : Replay} {e : LedgerEvent} (h : r.step e = .ok r') :
    (¬ r.Fresh e ∧ r' = r) ∨
    (r.Fresh e ∧ ∃ t, applyEvent e r.tables = .ok t ∧
      r' = ⟨t, insert e.ledgerEventId r.seenIds, insert e.idempotencyKey r.seenKeys⟩) := by
  unfold Replay.step at h
  split at h
  · next hf =>
    cases ha : applyEvent e r.tables with
    | error err =>
      rw [ha] at h
      cases h
    | ok t =>
      rw [ha] at h
      cases h
      exact Or.inr ⟨hf, t, rfl, rfl⟩
  · next hf =>
    cases h
    exact Or.inl ⟨hf, rfl⟩

/-- The loop has only seen ids and keys of the events it met. -/
theorem seen_replay {r r' : Replay} {xs : List LedgerEvent} (h : replay r xs = .ok r') :
    (∀ i ∈ r'.seenIds, i ∈ r.seenIds ∨ ∃ e ∈ xs, e.ledgerEventId = i) ∧
      ∀ k ∈ r'.seenKeys, k ∈ r.seenKeys ∨ ∃ e ∈ xs, e.idempotencyKey = k := by
  induction xs generalizing r with
  | nil =>
    cases h
    exact ⟨fun _ hi ↦ Or.inl hi, fun _ hk ↦ Or.inl hk⟩
  | cons e rest ih =>
    simp only [replay] at h
    cases hs : r.step e with
    | error err =>
      rw [hs] at h
      cases h
    | ok r₁ =>
      rw [hs] at h
      obtain ⟨hids, hkeys⟩ := ih h
      have h₁ : (∀ i ∈ r₁.seenIds, i ∈ r.seenIds ∨ e.ledgerEventId = i) ∧
          ∀ k ∈ r₁.seenKeys, k ∈ r.seenKeys ∨ e.idempotencyKey = k := by
        rcases step_cases hs with ⟨-, rfl⟩ | ⟨-, t, -, rfl⟩
        · exact ⟨fun _ hi ↦ Or.inl hi, fun _ hk ↦ Or.inl hk⟩
        · simp only [Finset.mem_insert]
          exact ⟨fun _ hi ↦ hi.symm.imp_right Eq.symm, fun _ hk ↦ hk.symm.imp_right Eq.symm⟩
      constructor
      · intro i hi
        rcases hids i hi with hi | ⟨e', he', rfl⟩
        · rcases h₁.1 i hi with hi | rfl
          · exact Or.inl hi
          · exact Or.inr ⟨e, List.mem_cons_self, rfl⟩
        · exact Or.inr ⟨e', List.mem_cons_of_mem e he', rfl⟩
      · intro k hk
        rcases hkeys k hk with hk | ⟨e', he', rfl⟩
        · rcases h₁.2 k hk with hk | rfl
          · exact Or.inl hk
          · exact Or.inr ⟨e, List.mem_cons_self, rfl⟩
        · exact Or.inr ⟨e', List.mem_cons_of_mem e he', rfl⟩

/-- An event is fresh when no event before it has its id or its key. -/
theorem fresh_of_new {r : Replay} {xs : List LedgerEvent} {e : LedgerEvent}
    (h : replay Replay.start xs = .ok r)
    (hnew : ∀ x ∈ xs, x.ledgerEventId ≠ e.ledgerEventId ∧ x.idempotencyKey ≠ e.idempotencyKey) :
    r.Fresh e := by
  obtain ⟨hids, hkeys⟩ := seen_replay h
  constructor
  · intro hi
    rcases hids _ hi with hi | ⟨x, hx, he⟩
    · exact absurd hi (Finset.notMem_empty _)
    · exact (hnew x hx).1 he
  · intro hk
    rcases hkeys _ hk with hk | ⟨x, hx, he⟩
    · exact absurd hk (Finset.notMem_empty _)
    · exact (hnew x hx).2 he

/-- Only a correction can raise. -/
theorem applyEvent_ok (e : LedgerEvent) (t : Tables) (h : e.NotCorrection) :
    ∃ t', applyEvent e t = .ok t' := by
  unfold applyEvent
  cases he : e.eventType with
  | reconciliationCorrection => exact absurd he h
  | _ => exact ⟨_, rfl⟩

/-- A turn on an event that is not a correction has a result. -/
theorem step_ok (r : Replay) (e : LedgerEvent) (h : e.NotCorrection) :
    ∃ r', r.step e = .ok r' := by
  unfold Replay.step
  split
  · obtain ⟨t, ht⟩ := applyEvent_ok e r.tables h
    rw [ht]
    exact ⟨_, rfl⟩
  · exact ⟨r, rfl⟩

/-- A sequence without corrections has a result. -/
theorem replay_ok (r : Replay) (xs : List LedgerEvent) (h : ∀ e ∈ xs, e.NotCorrection) :
    ∃ r', replay r xs = .ok r' := by
  induction xs generalizing r with
  | nil => exact ⟨r, rfl⟩
  | cons e rest ih =>
    obtain ⟨r₁, hs⟩ := step_ok r e (h e List.mem_cons_self)
    simp only [replay, hs]
    exact ih r₁ (fun e' he ↦ h e' (List.mem_cons_of_mem e he))

/-- An event that replays without an exception, whatever was replayed before. -/
def LedgerEvent.Replayable (e : LedgerEvent) : Prop := ∀ t, ∃ t', applyEvent e t = .ok t'

/-- Events that replay have a projection. -/
theorem project_ok_of_replayable {xs : List LedgerEvent} (h : ∀ e ∈ xs, e.Replayable) :
    ∃ st, project xs = .ok st := by
  suffices hr : ∀ r, ∃ r', replay r xs = .ok r' by
    obtain ⟨r', hr'⟩ := hr Replay.start
    exact ⟨r'.freeze, by simp only [project, hr']⟩
  induction xs with
  | nil => exact fun r ↦ ⟨r, rfl⟩
  | cons e rest ih =>
    intro r
    have hstep : ∃ r', r.step e = .ok r' := by
      unfold Replay.step
      split
      · obtain ⟨t, ht⟩ := h e List.mem_cons_self r.tables
        exact ⟨_, by rw [ht]⟩
      · exact ⟨r, rfl⟩
    obtain ⟨r₁, hr₁⟩ := hstep
    obtain ⟨r', hr'⟩ := ih (fun e' he' ↦ h e' (List.mem_cons_of_mem e he')) r₁
    exact ⟨r', by simp only [replay, hr₁, hr']⟩

/-- A projection is a frozen loop state. -/
theorem project_eq_ok {xs : List LedgerEvent} {st : ProjectionState} :
    project xs = .ok st ↔ ∃ r, replay Replay.start xs = .ok r ∧ r.freeze = st := by
  unfold project
  cases replay Replay.start xs with
  | error err => simp
  | ok r => simp

/-- A sequence without corrections has a projection. -/
theorem project_ok (xs : List LedgerEvent) (h : ∀ e ∈ xs, e.NotCorrection) :
    ∃ st, project xs = .ok st := by
  obtain ⟨r, hr⟩ := replay_ok Replay.start xs h
  exact ⟨r.freeze, project_eq_ok.mpr ⟨r, hr, rfl⟩⟩

/-- One turn of the loop where no turn can raise. -/
def Replay.next (r : Replay) (e : LedgerEvent) : Replay :=
  match r.step e with
  | .ok r' => r'
  | .error _ => r

/-- A turn on an event that is not a correction is the total turn. -/
theorem step_eq_next (r : Replay) (e : LedgerEvent) (h : e.NotCorrection) :
    r.step e = .ok (r.next e) := by
  obtain ⟨r', hr⟩ := step_ok r e h
  simp only [Replay.next, hr]

/-- A sequence without corrections replays as a run of total turns. -/
theorem replay_eq_run (r : Replay) (xs : List LedgerEvent) (h : ∀ e ∈ xs, e.NotCorrection) :
    replay r xs = .ok (run Replay.next r xs) := by
  induction xs generalizing r with
  | nil => rfl
  | cons e rest ih =>
    simp only [replay, step_eq_next r e (h e List.mem_cons_self), run_cons]
    exact ih (r.next e) (fun e' he ↦ h e' (List.mem_cons_of_mem e he))

/-! ### Positions -/

/-- The frozen position is the model of the replayed one. -/
theorem position_freeze (r : Replay) (c : String) :
    r.freeze.position c = (r.tables.position c).toModel := by
  unfold ProjectionState.position Tables.position ensurePosition
  change ((frozenPositions r.tables.positions).get? c).getD _ = _
  rw [get?_frozenPositions]
  cases r.tables.positions.get? c <;> rfl

/-- Fees touch no holding. -/
theorem holding_addFees (w : Bool) (e : LedgerEvent) (t : Tables) (c : String) :
    ((addFees w e t).position c).holding = (t.position c).holding := by
  unfold addFees
  cases e.fees with
  | none => rfl
  | some fees =>
    by_cases h0 : fees = 0
    · simp only [h0, if_true]
    · simp only [h0, if_false, Tables.position]
      cases hp : t.positions.get? e.contractId with
      | some pos =>
        simp only [position_set]
        split
        · next he =>
          subst he
          simp only [ensurePosition, hp]
          rfl
        · rfl
      | none =>
        simp only
        split
        · rw [position_set]
          split
          · next he =>
            subst he
            simp only [ensurePosition, hp]
            rfl
          · rfl
        · rfl

/-- Fees touch no order but its fees. -/
theorem get?_orders_addFees (w : Bool) (e : LedgerEvent) (t : Tables) (k : String) :
    ∃ f : ℚ → ℚ, (addFees w e t).orders.get? k =
      (t.orders.get? k).map (fun o ↦ { o with fees := f o.fees }) := by
  have hid : (t.orders.get? k) = (t.orders.get? k).map (fun o ↦ { o with fees := id o.fees }) := by
    cases t.orders.get? k <;> rfl
  unfold addFees
  cases e.fees with
  | none => exact ⟨id, hid⟩
  | some fees =>
    by_cases h0 : fees = 0
    · simp only [h0, if_true]
      exact ⟨id, hid⟩
    · simp only [h0, if_false]
      cases w with
      | false => exact ⟨id, hid⟩
      | true =>
        cases ho : t.orders.get? e.clientOrderId with
        | none => exact ⟨id, hid⟩
        | some order =>
          by_cases hk : e.clientOrderId = k
          · subst hk
            refine ⟨fun f ↦ rounded (f + fees), ?_⟩
            simp only [Dict.get?_set_self, ho, Option.map_some]
          · refine ⟨id, ?_⟩
            simp only [Dict.get?_set, hk, if_false]
            exact hid

/-- A fill without a price or without a quantity is skipped. -/
theorem applyFill_of_skipped {e : LedgerEvent} (h : e.price = none ∨ e.quantity ≤ 0) (t : Tables) :
    applyFill e t = t := by
  unfold applyFill
  cases hp : e.price with
  | none => rfl
  | some price => exact if_pos (h.resolve_left (hp ▸ nofun))

/-- A fill that is not skipped changes its own contract's holding, if its order applies
something. -/
theorem holding_applyFill_of_priced {e : LedgerEvent} {price : ℚ} (hp : e.price = some price)
    (hq : 0 < e.quantity) (t : Tables) (c : String) :
    ((applyFill e t).position c).holding =
      if 0 < (fillOrder e price (t.orders.get? e.clientOrderId)).2 ∧ e.contractId = c then
        (fillPosition e price (fillOrder e price (t.orders.get? e.clientOrderId)).2
          (t.position c)).holding
      else (t.position c).holding := by
  unfold applyFill
  simp only [hp, not_le.mpr hq, if_false]
  by_cases ha : (fillOrder e price (t.orders.get? e.clientOrderId)).2 ≤ 0
  · rw [if_pos ha, holding_addFees, if_neg (fun h ↦ not_le.mpr h.1 ha)]
    rfl
  · rw [if_neg ha, holding_addFees]
    simp only [Tables.position, applyFillToPosition]
    rw [if_neg ha, position_set]
    by_cases hc : e.contractId = c
    · subst hc
      rw [if_pos rfl, if_pos ⟨not_le.mp ha, rfl⟩]
    · rw [if_neg hc, if_neg (fun h ↦ hc h.2)]

/-- A fill changes only its own contract's holding, by the quantity the order applied. -/
theorem holding_applyFill (e : LedgerEvent) (t : Tables) (c : String) :
    ((applyFill e t).position c).holding = (t.position c).holding ∨
    ∃ price, e.price = some price ∧ e.contractId = c ∧ 0 < e.quantity ∧
      0 < (fillOrder e price (t.orders.get? e.clientOrderId)).2 ∧
      ((applyFill e t).position c).holding =
        (fillPosition e price ((fillOrder e price (t.orders.get? e.clientOrderId)).2)
          (t.position c)).holding := by
  cases hp : e.price with
  | none => exact Or.inl (by rw [applyFill_of_skipped (Or.inl hp)])
  | some price =>
    rcases le_or_gt e.quantity 0 with hq | hq
    · exact Or.inl (by rw [applyFill_of_skipped (Or.inr hq)])
    · rw [holding_applyFill_of_priced hp hq]
      split
      · next h => exact Or.inr ⟨price, rfl, h.2, hq, h.1, rfl⟩
      · exact Or.inl rfl

/-- A fill is not a correction. -/
theorem notCorrection_of_fill {e : LedgerEvent} (hf : e.isFill = true) : e.NotCorrection := by
  intro he
  simp [LedgerEvent.isFill, he] at hf

/-- A fill event is applied by the fill branch. -/
theorem applyEvent_of_fill {e : LedgerEvent} {t : Tables} (hf : e.isFill = true) :
    applyEvent e t = .ok (applyFill e t) := by
  unfold LedgerEvent.isFill at hf
  unfold applyEvent
  cases he : e.eventType <;> rw [he] at hf <;> first | rfl | exact absurd hf (by decide)

/-- Events that are neither fills nor corrections touch no holding. -/
theorem holding_applyEvent_of_not_fill {e : LedgerEvent} {t t' : Tables}
    (hc : e.NotCorrection) (hf : e.isFill = false) (h : applyEvent e t = .ok t') (c : String) :
    (t'.position c).holding = (t.position c).holding := by
  unfold applyEvent at h
  unfold LedgerEvent.NotCorrection at hc
  unfold LedgerEvent.isFill at hf
  cases he : e.eventType <;> rw [he] at h hf hc <;> simp at h hf hc <;> subst h <;>
    exact holding_addFees _ _ _ _

/-- An event that is a correction is applied by the correction branch. -/
theorem applyEvent_of_correction {e : LedgerEvent} (h : ¬ e.NotCorrection) (t : Tables) :
    applyEvent e t = applyCorrection e t := by
  have he : e.eventType = .reconciliationCorrection := not_not.mp h
  simp only [applyEvent, he]

/-- A correction corrects the orders, and a position correction also sets a position. -/
theorem applyCorrection_eq (e : LedgerEvent) (t : Tables) :
    applyCorrection e t =
      if correctionKindOf e = "position_quantity" then
        (correctedQuantity e).map (fun quantity ↦ addFees true e
          { orders := correctedOrders e t.orders
            positions := t.positions.set e.contractId
              (correctPosition e quantity (ensurePosition e.contractId t.positions)) })
      else .ok (addFees true e { t with orders := correctedOrders e t.orders }) := by
  unfold applyCorrection
  cases correctedQuantity e <;> rfl

/-- What a correction that is applied has done. -/
theorem applyCorrection_cases {e : LedgerEvent} {t t' : Tables}
    (h : applyCorrection e t = .ok t') :
    (correctionKindOf e ≠ "position_quantity" ∧
      t' = addFees true e { t with orders := correctedOrders e t.orders }) ∨
    (correctionKindOf e = "position_quantity" ∧ ∃ quantity, correctedQuantity e = .ok quantity ∧
      t' = addFees true e
        { orders := correctedOrders e t.orders
          positions := t.positions.set e.contractId
            (correctPosition e quantity (ensurePosition e.contractId t.positions)) }) := by
  rw [applyCorrection_eq] at h
  by_cases hk : correctionKindOf e = "position_quantity"
  · rw [if_pos hk] at h
    cases hq : correctedQuantity e with
    | error err =>
      rw [hq] at h
      cases h
    | ok quantity =>
      rw [hq] at h
      exact Or.inr ⟨hk, quantity, rfl, (Except.ok.inj h).symm⟩
  · rw [if_neg hk] at h
    exact Or.inl ⟨hk, (Except.ok.inj h).symm⟩

/-- A position correction sets its own contract's quantity; other corrections touch no
holding. -/
theorem holding_applyCorrection {e : LedgerEvent} {t t' : Tables}
    (h : applyCorrection e t = .ok t') (c : String) :
    (¬ (correctionKindOf e = "position_quantity" ∧ e.contractId = c) ∧
      (t'.position c).holding = (t.position c).holding) ∨
    (correctionKindOf e = "position_quantity" ∧ e.contractId = c ∧
      ∃ quantity, correctedQuantity e = .ok quantity ∧
        (t'.position c).holding = (correctPosition e quantity (t.position c)).holding) := by
  rcases applyCorrection_cases h with ⟨hk, rfl⟩ | ⟨hk, quantity, hq, rfl⟩
  · left
    refine ⟨fun h ↦ hk h.1, ?_⟩
    rw [holding_addFees]
    rfl
  · rw [holding_addFees]
    simp only [Tables.position, position_set]
    by_cases hc : e.contractId = c
    · subst hc
      right
      refine ⟨hk, rfl, quantity, hq, ?_⟩
      rw [if_pos rfl]
    · left
      refine ⟨fun h ↦ hc h.2, ?_⟩
      rw [if_neg hc]

/-- What an event does to the holding of a contract: nothing, a fill or a correction. -/
theorem holding_applyEvent {e : LedgerEvent} {t t' : Tables} (h : applyEvent e t = .ok t')
    (c : String) :
    (t'.position c).holding = (t.position c).holding ∨
    (∃ price qty, 0 < qty ∧
      (t'.position c).holding = (fillPosition e price qty (t.position c)).holding) ∨
    ∃ quantity,
      (t'.position c).holding = (correctPosition e quantity (t.position c)).holding := by
  by_cases hc : e.NotCorrection
  · cases hf : e.isFill with
    | false => exact Or.inl (holding_applyEvent_of_not_fill hc hf h c)
    | true =>
      rw [applyEvent_of_fill hf] at h
      cases h
      rcases holding_applyFill e t c with hs | ⟨price, -, -, -, hq, hs⟩
      · exact Or.inl hs
      · exact Or.inr (Or.inl ⟨price, _, hq, hs⟩)
  · rw [applyEvent_of_correction hc] at h
    rcases holding_applyCorrection h c with ⟨-, hs⟩ | ⟨-, -, quantity, -, hs⟩
    · exact Or.inl hs
    · exact Or.inr (Or.inr ⟨quantity, hs⟩)

/-! ### Orders -/

/-- A fill applies nothing, or its order has the applied quantity more. -/
theorem accumulateFill_cases (order : OrderLifecycle) (qty price : ℚ)
    (overfill : Bool) :
    accumulateFill order qty price overfill = (order, 0) ∨
    ∃ applied avg, 0 < applied ∧ accumulateFill order qty price overfill =
      ({ order with
          filledQty := rounded (order.filledQty + applied)
          avgFillPrice := some avg }, applied) := by
  unfold accumulateFill
  simp only
  generalize (!overfill && decide (0 < order.submittedQty)) = clamped
  generalize rounded (order.submittedQty - order.filledQty) = remaining
  generalize (if clamped = true then min qty remaining else qty) = applied
  by_cases h1 : clamped = true ∧ remaining ≤ 0
  · rw [if_pos h1]
    exact Or.inl rfl
  · rw [if_neg h1]
    rcases le_or_gt applied 0 with h2 | h2
    · rw [if_pos h2]
      exact Or.inl rfl
    · rw [if_neg (not_le.mpr h2)]
      exact Or.inr ⟨applied, _, h2, rfl⟩

/-- A fill changes an order's filled quantity and average price only. -/
theorem accumulateFill_order (order : OrderLifecycle) (qty price : ℚ) (overfill : Bool) :
    ∃ avg, (accumulateFill order qty price overfill).1 =
      { order with
        filledQty := (accumulateFill order qty price overfill).1.filledQty
        avgFillPrice := avg } := by
  rcases accumulateFill_cases order qty price overfill with h | ⟨applied, avg, -, h⟩
  · rw [h]
    exact ⟨order.avgFillPrice, rfl⟩
  · rw [h]
    exact ⟨some avg, rfl⟩

/-- A fill applies a nonnegative quantity. -/
theorem applied_nonneg (order : OrderLifecycle) (qty price : ℚ) (overfill : Bool) :
    0 ≤ (accumulateFill order qty price overfill).2 := by
  rcases accumulateFill_cases order qty price overfill with h | ⟨applied, avg, hpos, h⟩
  · rw [h]
  · rw [h]
    exact hpos.le

/-- A fill keeps the submitted quantity. -/
theorem submittedQty_accumulateFill (order : OrderLifecycle) (qty price : ℚ) (overfill : Bool) :
    (accumulateFill order qty price overfill).1.submittedQty = order.submittedQty := by
  obtain ⟨avg, h⟩ := accumulateFill_order order qty price overfill
  exact congrArg (fun o ↦ o.submittedQty) h

/-- The order after a fill; a fill without price or quantity leaves no trace. -/
def filledOrder (e : LedgerEvent) (found : Option OrderLifecycle) : Option OrderLifecycle :=
  match e.price with
  | none => found
  | some price =>
    if e.quantity ≤ 0 then found
    else
      let filled := fillOrder e price found
      if filled.2 ≤ 0 then some filled.1
      else some { filled.1 with status := fillStatus e filled.1 }

/-- A fill without a price or without a quantity leaves its order. -/
theorem filledOrder_of_skipped {e : LedgerEvent} (h : e.price = none ∨ e.quantity ≤ 0)
    (found : Option OrderLifecycle) : filledOrder e found = found := by
  unfold filledOrder
  cases hp : e.price with
  | none => rfl
  | some price => exact if_pos (h.resolve_left (hp ▸ nofun))

/-- A fill that is not skipped fills its order, and sets a status where something is applied. -/
theorem filledOrder_of_priced {e : LedgerEvent} {price : ℚ} (hp : e.price = some price)
    (hq : 0 < e.quantity) (found : Option OrderLifecycle) :
    filledOrder e found =
      if (fillOrder e price found).2 ≤ 0 then some (fillOrder e price found).1
      else some { (fillOrder e price found).1 with
        status := fillStatus e (fillOrder e price found).1 } := by
  unfold filledOrder
  rw [hp]
  exact if_neg (not_le.mpr hq)

/-- What holds of an order holds after a fill, when it holds of the filled order whatever its
status. -/
theorem forall_filledOrder {p : OrderLifecycle → Prop} {e : LedgerEvent}
    {found : Option OrderLifecycle} (h : ∀ o ∈ found, p o)
    (hfill : ∀ price, e.price = some price → 0 < e.quantity → ∀ status,
      p { (fillOrder e price found).1 with status := status }) :
    ∀ o ∈ filledOrder e found, p o := by
  by_cases hskipped : e.price = none ∨ e.quantity ≤ 0
  · rwa [filledOrder_of_skipped hskipped]
  · push Not at hskipped
    obtain ⟨price, hp⟩ := Option.ne_none_iff_exists'.mp hskipped.1
    rw [filledOrder_of_priced hp hskipped.2]
    split
    · rintro _ ⟨⟩
      exact hfill price hp hskipped.2 (fillOrder e price found).1.status
    · rintro _ ⟨⟩
      exact hfill price hp hskipped.2 _

/-- What an event that is not a correction does to its own order, fees apart. -/
def orderAfter (e : LedgerEvent) (found : Option OrderLifecycle) : Option OrderLifecycle :=
  match e.eventType with
  | .orderSubmissionRequested => some (submitOrder e found)
  | .brokerOrderAccepted => some (acceptOrder e found)
  | .partialFill | .finalFill => filledOrder e found
  | .cancellation => some (cancelOrder e found)
  | .rejection => some (rejectOrder e found)
  | .feeRecorded | .positionOpened | .positionResized | .positionClosed
  | .reconciliationCorrection => found

/-- A fill event fills its order. -/
theorem orderAfter_of_fill {e : LedgerEvent} (hf : e.isFill = true)
    (found : Option OrderLifecycle) : orderAfter e found = filledOrder e found := by
  unfold LedgerEvent.isFill at hf
  unfold orderAfter
  cases he : e.eventType <;> rw [he] at hf <;> first | rfl | exact absurd hf (by decide)

private theorem feeless_addFees (w : Bool) (e : LedgerEvent) (t : Tables) (k : String) :
    ((addFees w e t).orders.get? k).map OrderLifecycle.feeless =
      (t.orders.get? k).map OrderLifecycle.feeless := by
  obtain ⟨f, hf⟩ := get?_orders_addFees w e t k
  rw [hf, Option.map_map]
  rfl

private theorem feeless_set (w : Bool) (e : LedgerEvent) (t : Tables) (order : OrderLifecycle)
    (positions : Dict String PositionState) (k : String) :
    ((addFees w e ⟨t.orders.set e.clientOrderId order, positions⟩).orders.get? k).map
        OrderLifecycle.feeless =
      (if e.clientOrderId = k then some order else t.orders.get? k).map
        OrderLifecycle.feeless := by
  rw [feeless_addFees, Dict.get?_set]

private theorem feeless_applyFill (e : LedgerEvent) (t : Tables) (k : String) :
    ((applyFill e t).orders.get? k).map OrderLifecycle.feeless =
      (if e.clientOrderId = k then filledOrder e (t.orders.get? k)
        else t.orders.get? k).map OrderLifecycle.feeless := by
  unfold applyFill filledOrder
  cases e.price with
  | none => simp
  | some price =>
    by_cases hq : e.quantity ≤ 0
    · simp [hq]
    · simp only [hq, if_false]
      by_cases ha : (fillOrder e price (t.orders.get? e.clientOrderId)).2 ≤ 0
      · rw [if_pos ha, feeless_set]
        by_cases hk : e.clientOrderId = k
        · subst hk
          simp [ha]
        · simp [hk]
      · rw [if_neg ha, feeless_set]
        by_cases hk : e.clientOrderId = k
        · subst hk
          simp [ha]
        · simp [hk]

/-- An event changes only its own order, as `orderAfter` says, and the fees. -/
theorem feeless_applyEvent {e : LedgerEvent} {t t' : Tables} (hc : e.NotCorrection)
    (h : applyEvent e t = .ok t') (k : String) :
    (t'.orders.get? k).map OrderLifecycle.feeless =
      (if e.clientOrderId = k then orderAfter e (t.orders.get? k)
        else t.orders.get? k).map OrderLifecycle.feeless := by
  have hset (w : Bool) (order : Option OrderLifecycle → OrderLifecycle) :
      ((addFees w e { t with
          orders := t.orders.set e.clientOrderId
            (order (t.orders.get? e.clientOrderId)) }).orders.get? k).map OrderLifecycle.feeless =
        (if e.clientOrderId = k then some (order (t.orders.get? k))
          else t.orders.get? k).map OrderLifecycle.feeless := by
    rw [feeless_set]
    by_cases hk : e.clientOrderId = k
    · subst hk
      rfl
    · simp [hk]
  unfold LedgerEvent.NotCorrection at hc
  unfold applyEvent at h
  unfold orderAfter
  cases he : e.eventType <;> rw [he] at h hc <;> simp only [Except.ok.injEq, ne_eq,
    not_true_eq_false] at h hc <;> subst h
  case orderSubmissionRequested => exact hset true (submitOrder e)
  case brokerOrderAccepted => exact hset true (acceptOrder e)
  case partialFill => exact feeless_applyFill e t k
  case finalFill => exact feeless_applyFill e t k
  case cancellation => exact hset true (cancelOrder e)
  case rejection => exact hset true (rejectOrder e)
  all_goals simp only [ite_self, feeless_addFees]

/-- No event changes the order of another client order id. -/
theorem feeless_applyEvent_of_ne {e : LedgerEvent} {t t' : Tables}
    (h : applyEvent e t = .ok t') {k : String} (hk : e.clientOrderId ≠ k) :
    (t'.orders.get? k).map OrderLifecycle.feeless =
      (t.orders.get? k).map OrderLifecycle.feeless := by
  by_cases hc : e.NotCorrection
  · rw [feeless_applyEvent hc h, if_neg hk]
  · rw [applyEvent_of_correction hc] at h
    have horders : ((correctedOrders e t.orders).get? k).map OrderLifecycle.feeless =
        (t.orders.get? k).map OrderLifecycle.feeless := by
      rw [get?_correctedOrders, if_neg hk]
    rcases applyCorrection_cases h with ⟨-, rfl⟩ | ⟨-, quantity, -, rfl⟩
    · rw [feeless_addFees]
      exact horders
    · rw [feeless_addFees]
      exact horders

/-- The turn of a fresh event applies and remembers it. -/
theorem next_of_fresh {r : Replay} {e : LedgerEvent} (hc : e.NotCorrection) (hf : r.Fresh e) :
    ∃ t, applyEvent e r.tables = .ok t ∧
      r.next e = ⟨t, insert e.ledgerEventId r.seenIds, insert e.idempotencyKey r.seenKeys⟩ := by
  obtain ⟨t, ht⟩ := applyEvent_ok e r.tables hc
  exact ⟨t, ht, by simp only [Replay.next, Replay.step, if_pos hf, ht]⟩

/-- The tables after a fresh event are those that applying it gives. -/
theorem applyEvent_next {r : Replay} {e : LedgerEvent} (hc : e.NotCorrection) (hf : r.Fresh e) :
    applyEvent e r.tables = .ok (r.next e).tables := by
  obtain ⟨t, ht, hn⟩ := next_of_fresh hc hf
  rw [hn]
  exact ht

/-- A turn on a fresh fill applies it. -/
theorem tables_next_of_fill {r : Replay} {e : LedgerEvent} (hf : e.isFill = true)
    (hfresh : r.Fresh e) : (r.next e).tables = applyFill e r.tables := by
  have happly := applyEvent_next (notCorrection_of_fill hf) hfresh
  rw [applyEvent_of_fill hf] at happly
  exact (Except.ok.inj happly).symm

/-- The turn of a fresh event, order by order. -/
theorem feeless_next {r : Replay} {e : LedgerEvent} (hc : e.NotCorrection) (hf : r.Fresh e)
    (k : String) :
    ((r.next e).tables.orders.get? k).map OrderLifecycle.feeless =
      (if e.clientOrderId = k then orderAfter e (r.tables.orders.get? k)
        else r.tables.orders.get? k).map OrderLifecycle.feeless := by
  obtain ⟨t, ht, hn⟩ := next_of_fresh hc hf
  rw [hn]
  exact feeless_applyEvent hc ht k

/-- The turn of a known event changes nothing. -/
theorem next_of_not_fresh {r : Replay} {e : LedgerEvent} (hf : ¬ r.Fresh e) : r.next e = r := by
  simp only [Replay.next, Replay.step, if_neg hf]

/-- Another order's event does not make an order known. -/
theorem get?_orders_next_eq_none {r : Replay} {e : LedgerEvent} (hc : e.NotCorrection) {k : String}
    (hne : e.clientOrderId ≠ k) (h : r.tables.orders.get? k = none) :
    (r.next e).tables.orders.get? k = none := by
  by_cases hf : r.Fresh e
  · have hk := feeless_next hc hf k
    rw [if_neg hne, h] at hk
    exact Option.map_eq_none_iff.mp hk
  · rwa [next_of_not_fresh hf]

/-- A property of all orders that ignores fees survives a fresh event exactly when the event's
own order has it afterwards. -/
theorem forallOrders_next_iff {P : OrderLifecycle → Prop} (hP : ∀ o, P o.feeless ↔ P o)
    {r : Replay} {e : LedgerEvent} (hc : e.NotCorrection) (hf : r.Fresh e)
    (h : r.ForallOrders P) :
    (r.next e).ForallOrders P ↔
      ∀ order ∈ orderAfter e (r.tables.orders.get? e.clientOrderId), P order := by
  have transfer (a b : Option OrderLifecycle)
      (hab : a.map OrderLifecycle.feeless = b.map OrderLifecycle.feeless)
      (hb : ∀ o ∈ b, P o) : ∀ o ∈ a, P o := by
    intro o ho
    rw [Option.mem_def.mp ho] at hab
    obtain ⟨o', ho', he⟩ := Option.map_eq_some_iff.mp hab.symm
    rw [← hP, ← he, hP]
    exact hb o' ho'
  constructor
  · intro hn
    have hk := feeless_next hc hf e.clientOrderId
    rw [if_pos rfl] at hk
    exact transfer _ _ hk.symm (hn e.clientOrderId)
  · intro hn k
    have hk := feeless_next hc hf k
    by_cases he : e.clientOrderId = k
    · subst he
      rw [if_pos rfl] at hk
      exact transfer _ _ hk hn
    · rw [if_neg he] at hk
      exact transfer _ _ hk (h k)

end Context

/-! ### Exact fills -/

section Exact

open scoped ExactArithmetic

/-- In exact arithmetic a quantity is signed without rounding. -/
@[simp] theorem signedDecimal_exact (side : Side) (qty : ℚ) :
    side.signedDecimal qty = side.signed qty := by
  cases side <;> rfl

/-- The quantity a fill applies: what the order still lacks, unless the order was submitted with
nothing or the fill may overfill. -/
theorem applied_accumulateFill (order : OrderLifecycle) (qty price : ℚ) (overfill : Bool) :
    (accumulateFill order qty price overfill).2 =
      if overfill = false ∧ 0 < order.submittedQty
      then max 0 (min qty (order.submittedQty - order.filledQty)) else max 0 qty := by
  unfold accumulateFill
  simp only [rounded_exact]
  by_cases hc : overfill = false ∧ 0 < order.submittedQty
  · simp only [hc.1, hc.2, decide_true, Bool.not_false, Bool.and_self, true_and, if_true,
      and_self]
    by_cases hr : order.submittedQty - order.filledQty ≤ 0
    · rw [if_pos hr, max_eq_left ((min_le_right _ _).trans hr)]
    · rw [if_neg hr]
      by_cases ha : min qty (order.submittedQty - order.filledQty) ≤ 0
      · rw [if_pos ha, max_eq_left ha]
      · rw [if_neg ha, max_eq_right (le_of_lt (not_le.mp ha))]
  · have hn : (!overfill && decide (0 < order.submittedQty)) = false := by
      cases overfill
      · simpa using hc
      · rfl
    simp only [hn, hc, Bool.false_eq_true, false_and, if_false]
    by_cases ha : qty ≤ 0
    · rw [if_pos ha, max_eq_left ha]
    · rw [if_neg ha, max_eq_right (le_of_lt (not_le.mp ha))]

/-- In exact arithmetic the filled quantity grows by what the fill applied. -/
theorem filledQty_accumulateFill (order : OrderLifecycle) (qty price : ℚ) (overfill : Bool) :
    (accumulateFill order qty price overfill).1.filledQty =
      order.filledQty + (accumulateFill order qty price overfill).2 := by
  rcases accumulateFill_cases order qty price overfill with h | ⟨applied, avg, -, h⟩
  · rw [h, add_zero]
  · rw [h]
    rfl

end Exact

end Joker.Ledger
