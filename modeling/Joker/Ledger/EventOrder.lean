import Mathlib.Logic.Function.Basic
import Joker.Base.Reordering
import Joker.Base.Totals
import Joker.Ledger.Replay

/-!
# Events in another order

Library `Ledger`. An event reads and writes the order and the position it names and nothing else,
so a replay looked up key by key is a replay over two maps in which it acts at two places. Events
that share no order, no contract, no id and no idempotency key act at different places, and a
projection does not depend on which of them came first.
-/

namespace Joker.Ledger

open Joker.Base
open scoped ExactArithmetic

/-! ### What an event touches -/

/-- The order and the position an event names. -/
def Tables.named (t : Tables) (e : LedgerEvent) : Option OrderLifecycle × Option PositionState :=
  (t.orders.get? e.clientOrderId, t.positions.get? e.contractId)

/-- Two tables that differ at most in the order and the position an event names. -/
structure Tables.Within (e : LedgerEvent) (t t' : Tables) : Prop where
  orders : ∀ k, k ≠ e.clientOrderId → t'.orders.get? k = t.orders.get? k
  positions : ∀ c, c ≠ e.contractId → t'.positions.get? c = t.positions.get? c

namespace Tables.Within

variable {e : LedgerEvent} {t t' t'' : Tables}

private theorem refl (e : LedgerEvent) (t : Tables) : Within e t t := ⟨fun _ _ ↦ rfl, fun _ _ ↦ rfl⟩

private theorem trans (h : Within e t t') (h' : Within e t' t'') : Within e t t'' :=
  ⟨fun k hk ↦ (h'.orders k hk).trans (h.orders k hk),
    fun c hc ↦ (h'.positions c hc).trans (h.positions c hc)⟩

private theorem setOrder (e : LedgerEvent) (t : Tables) (order : OrderLifecycle) :
    Within e t { t with orders := t.orders.set e.clientOrderId order } :=
  ⟨fun _ hk ↦ Dict.get?_set_ne _ _ (Ne.symm hk), fun _ _ ↦ rfl⟩

private theorem setPosition (e : LedgerEvent) (t : Tables) (pos : PositionState) :
    Within e t { t with positions := t.positions.set e.contractId pos } :=
  ⟨fun _ _ ↦ rfl, fun _ hc ↦ Dict.get?_set_ne _ _ (Ne.symm hc)⟩

private theorem addFees (w : Bool) (e : LedgerEvent) (t : Tables) : Within e t (addFees w e t) := by
  unfold Ledger.addFees
  cases e.fees with
  | none => exact refl e t
  | some fees =>
    simp only
    split
    · exact refl e t
    · constructor
      · intro k hk
        simp only
        split
        · exact Dict.get?_set_ne _ _ (Ne.symm hk)
        · rfl
      · intro c hc
        simp only
        split
        · exact Dict.get?_set_ne _ _ (Ne.symm hc)
        · split
          · exact Dict.get?_set_ne _ _ (Ne.symm hc)
          · rfl

private theorem fillPosition (e : LedgerEvent) (t : Tables) (price qty : ℚ) :
    Within e t { t with positions := applyFillToPosition e price qty t.positions } := by
  unfold applyFillToPosition
  split
  · exact refl e t
  · exact setPosition e t _

private theorem applyFill (e : LedgerEvent) (t : Tables) : Within e t (applyFill e t) := by
  unfold Ledger.applyFill
  cases e.price with
  | none => exact refl e t
  | some price =>
    simp only
    split
    · exact refl e t
    · split
      · exact (setOrder e t _).trans (addFees true e _)
      · exact ((fillPosition e t price _).trans (setOrder e _ _)).trans (addFees true e _)

private theorem applyCorrection (h : applyCorrection e t = .ok t') : Within e t t' := by
  have horders : Within e t { t with orders := correctedOrders e t.orders } := by
    refine ⟨fun k hk ↦ ?_, fun _ _ ↦ rfl⟩
    rw [get?_correctedOrders, if_neg (Ne.symm hk)]
  rcases applyCorrection_cases h with ⟨-, rfl⟩ | ⟨-, quantity, -, rfl⟩
  · exact horders.trans (addFees true e _)
  · exact (horders.trans (setPosition e _ _)).trans (addFees true e _)

/-- An event changes at most the order and the position it names. -/
theorem applyEvent (h : applyEvent e t = .ok t') : Within e t t' := by
  unfold Ledger.applyEvent at h
  cases he : e.eventType <;> rw [he] at h
  case reconciliationCorrection => exact applyCorrection h
  all_goals cases h
  case partialFill.refl | finalFill.refl => exact applyFill e t
  case feeRecorded.refl | positionOpened.refl | positionResized.refl | positionClosed.refl =>
    exact addFees _ e t
  all_goals exact (setOrder e t _).trans (addFees true e _)

end Tables.Within

/-! ### What an event reads -/

section Reads

variable {e : LedgerEvent} {t s : Tables}

private theorem named_addFees (w : Bool) (h : t.named e = s.named e) :
    (addFees w e t).named e = (addFees w e s).named e := by
  obtain ⟨horder, hpos⟩ := Prod.mk.inj h
  unfold addFees
  cases e.fees with
  | none => exact h
  | some fees =>
    simp only
    split
    · exact h
    · unfold Tables.named
      rw [horder, hpos]
      congr 1
      · cases w <;> cases ho : s.orders.get? e.clientOrderId <;> simp [horder, ho]
      · cases hp : s.positions.get? e.contractId with
        | some pos => simp
        | none =>
          simp only
          split
          · simp
          · rw [hpos, hp]

private theorem named_setOrder {order order' : OrderLifecycle} (h : t.named e = s.named e)
    (horder : order = order') :
    Tables.named { t with orders := t.orders.set e.clientOrderId order } e =
      Tables.named { s with orders := s.orders.set e.clientOrderId order' } e := by
  unfold Tables.named
  simp only [Dict.get?_set_self, horder, (Prod.mk.inj h).2]

private theorem named_setPosition {pos pos' : PositionState} (h : t.named e = s.named e)
    (hpos : pos = pos') :
    Tables.named { t with positions := t.positions.set e.contractId pos } e =
      Tables.named { s with positions := s.positions.set e.contractId pos' } e := by
  unfold Tables.named
  simp only [Dict.get?_set_self, hpos, (Prod.mk.inj h).1]

private theorem ensurePosition_congr (h : t.named e = s.named e) :
    ensurePosition e.contractId t.positions = ensurePosition e.contractId s.positions := by
  unfold ensurePosition
  rw [(Prod.mk.inj h).2]

private theorem named_applyFill (h : t.named e = s.named e) :
    (applyFill e t).named e = (applyFill e s).named e := by
  unfold applyFill
  cases e.price with
  | none => exact h
  | some price =>
    simp only
    rw [(Prod.mk.inj h).1]
    split
    · exact h
    · split
      · exact named_addFees true (named_setOrder h rfl)
      · apply named_addFees
        unfold applyFillToPosition
        split
        · exact named_setOrder h rfl
        · exact named_setPosition (t := ⟨_, t.positions⟩) (s := ⟨_, s.positions⟩)
            (named_setOrder h rfl) (congrArg _ (ensurePosition_congr h))

private theorem named_applyCorrection (h : t.named e = s.named e) :
    (applyCorrection e t).map (fun t ↦ t.named e) =
      (applyCorrection e s).map (fun t ↦ t.named e) := by
  have horders : Tables.named { t with orders := correctedOrders e t.orders } e =
      Tables.named { s with orders := correctedOrders e s.orders } e := by
    unfold Tables.named
    simp only [get?_correctedOrders, if_true, (Prod.mk.inj h).1, (Prod.mk.inj h).2]
  rw [applyCorrection_eq, applyCorrection_eq]
  split
  · cases correctedQuantity e with
    | error err => rfl
    | ok quantity =>
      exact congrArg Except.ok (named_addFees true (named_setPosition (t := ⟨_, t.positions⟩)
        (s := ⟨_, s.positions⟩) horders (congrArg _ (ensurePosition_congr h))))
  · exact congrArg Except.ok (named_addFees true horders)

/-- What an event does at the order and the position it names depends on these alone. -/
theorem named_applyEvent (h : t.named e = s.named e) :
    (applyEvent e t).map (fun t ↦ t.named e) = (applyEvent e s).map (fun t ↦ t.named e) := by
  have horder := (Prod.mk.inj h).1
  unfold applyEvent
  cases e.eventType with
  | orderSubmissionRequested =>
    exact congrArg Except.ok (named_addFees true (named_setOrder h (by rw [horder])))
  | brokerOrderAccepted =>
    exact congrArg Except.ok (named_addFees true (named_setOrder h (by rw [horder])))
  | partialFill | finalFill => exact congrArg Except.ok (named_applyFill h)
  | cancellation =>
    exact congrArg Except.ok (named_addFees true (named_setOrder h (by rw [horder])))
  | rejection => exact congrArg Except.ok (named_addFees true (named_setOrder h (by rw [horder])))
  | feeRecorded | positionOpened | positionResized | positionClosed =>
    exact congrArg Except.ok (named_addFees _ h)
  | reconciliationCorrection => exact named_applyCorrection h

end Reads

/-! ### A replay, key by key -/

/-- The tables with the order and the position an event names, and no others. -/
def Tables.single (e : LedgerEvent) (order : Option OrderLifecycle) (pos : Option PositionState) :
    Tables where
  orders := order.elim Dict.empty (Dict.empty.set e.clientOrderId)
  positions := pos.elim Dict.empty (Dict.empty.set e.contractId)

private theorem named_single (e : LedgerEvent) (order : Option OrderLifecycle)
    (pos : Option PositionState) : (Tables.single e order pos).named e = (order, pos) := by
  unfold Tables.named Tables.single
  cases order <;> cases pos <;> simp

/-- What an event makes of the order and the position it names. -/
def eventAction (e : LedgerEvent) (found : Option OrderLifecycle × Option PositionState) :
    Except ProjectorError (Option OrderLifecycle × Option PositionState) :=
  (applyEvent e (Tables.single e found.1 found.2)).map (fun t ↦ t.named e)

private theorem eventAction_named (e : LedgerEvent) (t : Tables) :
    eventAction e (t.named e) = (applyEvent e t).map (fun t ↦ t.named e) :=
  named_applyEvent (named_single e _ _)

/-- The loop state of `project`, as two maps and two sets. -/
structure LedgerView where
  orders : String → Option OrderLifecycle
  positions : String → Option PositionState
  seenIds : Finset Uuid
  seenKeys : Finset String

/-- The loop state, key by key. -/
def Replay.view (r : Replay) : LedgerView :=
  { orders := r.tables.orders.get?
    positions := r.tables.positions.get?
    seenIds := r.seenIds
    seenKeys := r.seenKeys }

namespace LedgerView

/-- An event the loop has not met. -/
def Fresh (v : LedgerView) (e : LedgerEvent) : Prop :=
  e.ledgerEventId ∉ v.seenIds ∧ e.idempotencyKey ∉ v.seenKeys

instance (v : LedgerView) (e : LedgerEvent) : Decidable (v.Fresh e) :=
  inferInstanceAs (Decidable (_ ∧ _))

/-- The order and the position an event names. -/
def named (v : LedgerView) (e : LedgerEvent) : Option OrderLifecycle × Option PositionState :=
  (v.orders e.clientOrderId, v.positions e.contractId)

/-- The view after an event, with what it made of the order and the position it names. -/
def update (v : LedgerView) (e : LedgerEvent)
    (found : Option OrderLifecycle × Option PositionState) : LedgerView :=
  { orders := Function.update v.orders e.clientOrderId found.1
    positions := Function.update v.positions e.contractId found.2
    seenIds := insert e.ledgerEventId v.seenIds
    seenKeys := insert e.idempotencyKey v.seenKeys }

/-- One turn of the loop: an event acts at two places. -/
def step (v : LedgerView) (e : LedgerEvent) : Except ProjectorError LedgerView :=
  if v.Fresh e then (eventAction e (v.named e)).map (v.update e) else .ok v

end LedgerView

/-- The refinement: a turn of the loop is a turn on the view. -/
theorem view_step (r : Replay) (e : LedgerEvent) :
    (r.step e).map Replay.view = r.view.step e := by
  have hnamed : r.view.named e = r.tables.named e := rfl
  by_cases hf : r.Fresh e
  · have hfv : r.view.Fresh e := hf
    unfold Replay.step LedgerView.step
    rw [if_pos hf, if_pos hfv, hnamed, eventAction_named]
    cases ht : applyEvent e r.tables with
    | error err => rfl
    | ok t =>
      have hwithin := Tables.Within.applyEvent ht
      show Except.ok _ = Except.ok _
      congr 1
      show LedgerView.mk _ _ _ _ = LedgerView.mk _ _ _ _
      congr 1
      · funext k
        by_cases hk : k = e.clientOrderId
        · rw [hk, Function.update_self]
          rfl
        · rw [Function.update_of_ne hk]
          exact hwithin.orders k hk
      · funext c
        by_cases hc : c = e.contractId
        · rw [hc, Function.update_self]
          rfl
        · rw [Function.update_of_ne hc]
          exact hwithin.positions c hc
  · have hfv : ¬ r.view.Fresh e := hf
    unfold Replay.step LedgerView.step
    rw [if_neg hf, if_neg hfv]
    rfl

/-- The loop is a run on the view. -/
theorem view_replay (r : Replay) (events : List LedgerEvent) :
    (replay r events).map Replay.view = events.foldlM LedgerView.step r.view := by
  induction events generalizing r with
  | nil => rfl
  | cons e rest ih =>
    rw [List.foldlM_cons, ← view_step]
    unfold replay
    cases r.step e with
    | error err => rfl
    | ok r => exact ih r

/-! ### Independent events -/

/-- Two events share an order or a contract. -/
def SharesOrderOrContract (a b : LedgerEvent) : Prop :=
  a.clientOrderId = b.clientOrderId ∨ a.contractId = b.contractId

/-- Two events share an order, a contract, an id or an idempotency key. -/
def Dependent (a b : LedgerEvent) : Prop :=
  SharesOrderOrContract a b ∨ a.ledgerEventId = b.ledgerEventId ∨
    a.idempotencyKey = b.idempotencyKey

private theorem dependent_refl (a : LedgerEvent) : Dependent a a := .inl (.inl rfl)

private theorem dependent_symm (a b : LedgerEvent) (h : Dependent a b) : Dependent b a := by
  unfold Dependent SharesOrderOrContract at h ⊢
  simpa only [eq_comm] using h

/-- The places of independent events differ. -/
theorem ne_of_not_dependent {a b : LedgerEvent} (h : ¬ Dependent a b) :
    a.clientOrderId ≠ b.clientOrderId ∧ a.contractId ≠ b.contractId ∧
      a.ledgerEventId ≠ b.ledgerEventId ∧ a.idempotencyKey ≠ b.idempotencyKey := by
  unfold Dependent SharesOrderOrContract at h
  push Not at h
  exact ⟨h.1.1, h.1.2, h.2.1, h.2.2⟩

namespace LedgerView

/-- An independent event after another finds what it would have found before. -/
theorem fresh_update {a b : LedgerEvent} (h : ¬ Dependent a b) (v : LedgerView)
    (found : Option OrderLifecycle × Option PositionState) :
    (v.update a found).Fresh b ↔ v.Fresh b := by
  obtain ⟨-, -, hid, hkey⟩ := ne_of_not_dependent h
  unfold Fresh update
  simp only [Finset.mem_insert, hid.symm, hkey.symm, false_or]

private theorem named_update {a b : LedgerEvent} (h : ¬ Dependent a b) (v : LedgerView)
    (found : Option OrderLifecycle × Option PositionState) :
    (v.update a found).named b = v.named b := by
  obtain ⟨horder, hcontract, -, -⟩ := ne_of_not_dependent h
  unfold named update
  simp only [Function.update_of_ne horder.symm, Function.update_of_ne hcontract.symm]

private theorem update_comm {a b : LedgerEvent} (h : ¬ Dependent a b) (v : LedgerView)
    (found found' : Option OrderLifecycle × Option PositionState) :
    (v.update a found).update b found' = (v.update b found').update a found := by
  obtain ⟨horder, hcontract, -, -⟩ := ne_of_not_dependent h
  unfold update
  simp only [Function.update_comm horder, Function.update_comm hcontract]
  rw [Finset.insert_comm b.ledgerEventId, Finset.insert_comm b.idempotencyKey]

/-- Independent events commute. -/
theorem step_comm {a b : LedgerEvent} (h : ¬ Dependent a b) (v : LedgerView) :
    (v.step a >>= fun v ↦ v.step b) = (v.step b >>= fun v ↦ v.step a) := by
  have h' : ¬ Dependent b a := fun hba ↦ h (dependent_symm b a hba)
  unfold step
  by_cases ha : v.Fresh a <;> by_cases hb : v.Fresh b
  · rw [if_pos ha, if_pos hb]
    cases hfa : eventAction a (v.named a) with
    | error err =>
      cases err
      cases hfb : eventAction b (v.named b) with
      | error err =>
        cases err
        rfl
      | ok found =>
        show _ = if (v.update b found).Fresh a then _ else _
        rw [if_pos ((fresh_update h' v found).mpr ha), named_update h', hfa]
        rfl
    | ok found =>
      show (if (v.update a found).Fresh b then _ else _) = _
      rw [if_pos ((fresh_update h v found).mpr hb), named_update h]
      cases hfb : eventAction b (v.named b) with
      | error err =>
        cases err
        rfl
      | ok found' =>
        show _ = if (v.update b found').Fresh a then _ else _
        rw [if_pos ((fresh_update h' v found').mpr ha), named_update h', hfa]
        show Except.ok _ = Except.ok _
        rw [update_comm h]
  · rw [if_pos ha, if_neg hb]
    cases hfa : eventAction a (v.named a) with
    | error err =>
      show _ = if v.Fresh a then _ else _
      rw [if_pos ha, hfa]
      rfl
    | ok found =>
      show (if (v.update a found).Fresh b then _ else _) = if v.Fresh a then _ else _
      rw [if_neg (fun hfresh ↦ hb ((fresh_update h v found).mp hfresh)), if_pos ha, hfa]
      rfl
  · rw [if_neg ha, if_pos hb]
    cases hfb : eventAction b (v.named b) with
    | error err =>
      show (if v.Fresh b then _ else _) = _
      rw [if_pos hb, hfb]
      rfl
    | ok found =>
      show (if v.Fresh b then _ else _) = if (v.update b found).Fresh a then _ else _
      rw [if_neg (fun hfresh ↦ ha ((fresh_update h' v found).mp hfresh)), if_pos hb, hfb]
      rfl
  · rw [if_neg ha, if_neg hb]
    show (if v.Fresh b then _ else _) = if v.Fresh a then _ else _
    rw [if_neg ha, if_neg hb]

end LedgerView

/-! ### Equal projections -/

/-- Equality of projections as Python compares them: dictionaries by their items. -/
structure ProjectionState.Same (st st' : ProjectionState) : Prop where
  orders : ∀ k, st.orders.get? k = st'.orders.get? k
  positions : ∀ c, st.positions.get? c = st'.positions.get? c
  capitalUsage : st.capitalUsage = st'.capitalUsage
  seenEventIds : st.seenEventIds = st'.seenEventIds
  seenIdempotencyKeys : st.seenIdempotencyKeys = st'.seenIdempotencyKeys

/-- Equal results: equal projections, or the same exception. -/
def SameProjection : Except ProjectorError ProjectionState →
    Except ProjectorError ProjectionState → Prop
  | .ok st, .ok st' => st.Same st'
  | .error err, .error err' => err = err'
  | _, _ => False

/-- What the capital loop adds for a position. -/
def PositionState.capital (pos : PositionState) : ℚ :=
  match pos.avgPrice with
  | some avg => if pos.isOpen then |pos.quantity| * avg * multiplier else 0
  | none => 0

/-- The capital loop is a total over the positions. -/
theorem capitalUsage_values (positions : Dict String PositionState) :
    capitalUsage positions.values = positions.total PositionState.capital := by
  unfold capitalUsage Dict.total
  have hloop : ∀ (xs : List PositionState) (capital : ℚ),
      xs.foldl (fun capital pos ↦
        match pos.avgPrice with
        | some avg => if pos.isOpen then capital + |pos.quantity| * avg * multiplier else capital
        | none => capital) capital = capital + (xs.map PositionState.capital).sum := by
    intro xs
    induction xs with
    | nil => simp
    | cons pos rest ih =>
      intro capital
      rw [List.foldl_cons, ih, List.map_cons, List.sum_cons, ← add_assoc]
      congr 1
      unfold PositionState.capital
      cases pos.avgPrice with
      | none => simp
      | some avg =>
        simp only
        split <;> simp
  exact (hloop _ _).trans (zero_add _)

/-- Loop states that are looked up alike freeze to equal projections. -/
theorem same_freeze {r r' : Replay} (h : r.view = r'.view) : r.freeze.Same r'.freeze := by
  obtain ⟨horders, hpositions, hids, hkeys⟩ := LedgerView.mk.inj h
  have hfrozen : ∀ c, (frozenPositions r.tables.positions).get? c =
      (frozenPositions r'.tables.positions).get? c := by
    intro c
    rw [get?_frozenPositions, get?_frozenPositions, congrFun hpositions c]
  refine ⟨congrFun horders, hfrozen, ?_, hids, hkeys⟩
  show capitalUsage (frozenPositions r.tables.positions).values =
    capitalUsage (frozenPositions r'.tables.positions).values
  rw [capitalUsage_values, capitalUsage_values, Dict.total_congr _ hfrozen]

/-- Sequences with the same run on the view have equal projections. -/
theorem sameProjection_of_view {xs ys : List LedgerEvent}
    (h : xs.foldlM LedgerView.step Replay.start.view =
      ys.foldlM LedgerView.step Replay.start.view) :
    SameProjection (project xs) (project ys) := by
  rw [← view_replay, ← view_replay] at h
  unfold project
  cases hx : replay Replay.start xs with
  | error err =>
    rw [hx] at h
    cases hy : replay Replay.start ys with
    | error err' =>
      rw [hy] at h
      exact Except.error.inj h
    | ok r' =>
      rw [hy] at h
      cases h
  | ok r =>
    rw [hx] at h
    cases hy : replay Replay.start ys with
    | error err' =>
      rw [hy] at h
      cases h
    | ok r' =>
      rw [hy] at h
      exact same_freeze (Except.ok.inj h)

/-- Sequences with the same order of dependent events have equal projections. -/
theorem sameProjection_of_sameOrder {xs ys : List LedgerEvent} (h : SameOrder Dependent xs ys) :
    SameProjection (project xs) (project ys) := by
  apply sameProjection_of_view
  apply eq_of_sameOrder (f := fun events ↦ events.foldlM LedgerView.step Replay.start.view)
    dependent_refl dependent_symm _ h
  intro pre a b post hindep
  exact foldlM_swap (LedgerView.step_comm hindep) _ pre post

/-- Among events with distinct ids and keys, dependent events share an order or a contract. -/
theorem sameOrder_of_distinct {xs ys : List LedgerEvent}
    (hids : (xs.map (fun e ↦ e.ledgerEventId)).Nodup)
    (hkeys : (xs.map (fun e ↦ e.idempotencyKey)).Nodup)
    (h : SameOrder SharesOrderOrContract xs ys) : SameOrder Dependent xs ys := by
  intro a b hdep
  by_cases hshare : SharesOrderOrContract a b
  · exact h a b hshare
  -- two events with one id or one key are not both there
  have hone : a ∈ xs → b ∈ xs → a = b := by
    intro ha hb
    rcases hdep with hdep | hid | hkey
    · exact absurd hdep hshare
    · exact List.inj_on_of_nodup_map hids ha hb hid
    · exact List.inj_on_of_nodup_map hkeys ha hb hkey
  have hmem := h.mem_iff (fun c ↦ .inl rfl)
  by_cases ha : a ∈ xs
  · have hb : b ∉ xs := fun hb ↦ hshare (.inl (by rw [hone ha hb]))
    rw [occurrences_comm a, occurrences_comm a, occurrences_of_not_mem a hb,
      occurrences_of_not_mem a (fun hy ↦ hb ((hmem b).mpr hy))]
    exact h a a (.inl rfl)
  · rw [occurrences_of_not_mem b ha, occurrences_of_not_mem b (fun hy ↦ ha ((hmem a).mpr hy))]
    exact h b b (.inl rfl)

/-- In exact arithmetic, swapping two adjacent events with different client order ids, contracts,
ids and idempotency keys yields an equal projection, and so does every reordering that keeps the
order of events that share one of these; where ids and keys are distinct that is the order of events
that share an order or a contract. -/
theorem independent_events_commute :
    (∀ (pre : List LedgerEvent) (a b : LedgerEvent) (post : List LedgerEvent),
      a.clientOrderId ≠ b.clientOrderId → a.contractId ≠ b.contractId →
      a.ledgerEventId ≠ b.ledgerEventId → a.idempotencyKey ≠ b.idempotencyKey →
        SameProjection (project (pre ++ a :: b :: post)) (project (pre ++ b :: a :: post))) ∧
    (∀ xs ys : List LedgerEvent, SameOrder Dependent xs ys →
      SameProjection (project xs) (project ys)) ∧
    (∀ xs ys : List LedgerEvent, (xs.map (fun e ↦ e.ledgerEventId)).Nodup →
      (xs.map (fun e ↦ e.idempotencyKey)).Nodup → SameOrder SharesOrderOrContract xs ys →
        SameProjection (project xs) (project ys)) := by
  refine ⟨?_, fun xs ys h ↦ sameProjection_of_sameOrder h, ?_⟩
  · intro pre a b post horder hcontract hid hkey
    apply sameProjection_of_sameOrder
    apply sameOrder_swap dependent_symm
    rintro ((h | h) | h | h)
    · exact horder h
    · exact hcontract h
    · exact hid h
    · exact hkey h
  · intro xs ys hids hkeys h
    exact sameProjection_of_sameOrder (sameOrder_of_distinct hids hkeys h)

/-- A fill of an order. -/
def fillOfOne : LedgerEvent :=
  ⟨EventFields.sample .finalFill "e1" .buy 2 (some 1), by decide +kernel⟩

/-- A fee of another order, on another contract. -/
def feeOfOther : LedgerEvent :=
  ⟨{ EventFields.sample .feeRecorded "e2" .buy 0 none with
      clientOrderId := "c2"
      contractId := "y"
      fees := some 1 }, by decide +kernel⟩

/-- A fill of another order, on another contract, under the key of the first. -/
def fillUnderSameKey : LedgerEvent :=
  ⟨{ EventFields.sample .finalFill "e1" .buy 3 (some 1) with
      ledgerEventId := "e3"
      clientOrderId := "c2"
      contractId := "y" }, by decide +kernel⟩

/-- The swap of a fill and a fee. -/
theorem independent_events_commute_fee :
    SameProjection (project ([] ++ fillOfOne :: feeOfOther :: []))
      (project ([] ++ feeOfOther :: fillOfOne :: [])) :=
  independent_events_commute.1 [] fillOfOne feeOfOther [] (by decide +kernel) (by decide +kernel)
    (by decide +kernel) (by decide +kernel)

/-- Of two fills under one key only the first counts, though they share neither order nor
contract: their order matters. -/
theorem not_sameProjection_of_sharedKey :
    ¬ ∀ xs ys : List LedgerEvent, SameOrder SharesOrderOrContract xs ys →
      SameProjection (project xs) (project ys) := by
  intro h
  have hsymm (a b : LedgerEvent) (hshare : SharesOrderOrContract a b) :
      SharesOrderOrContract b a := hshare.imp Eq.symm Eq.symm
  have hapart : ¬ SharesOrderOrContract fillOfOne fillUnderSameKey := by
    unfold SharesOrderOrContract
    decide +kernel
  have hsame := h [fillOfOne, fillUnderSameKey] [fillUnderSameKey, fillOfOne]
    (sameOrder_swap hsymm hapart [] [])
  have hknown (events : List LedgerEvent) (known : Bool)
      (hd : (project events).toOption.map (fun st ↦ (st.orders.get? "c").isSome) = some known) :
      ∃ st, project events = .ok st ∧ (st.orders.get? "c").isSome = known := by
    cases hp : project events with
    | error err =>
      rw [hp] at hd
      cases hd
    | ok st =>
      rw [hp] at hd
      exact ⟨st, rfl, Option.some.inj hd⟩
  obtain ⟨st, hst, hfirst⟩ := hknown [fillOfOne, fillUnderSameKey] true (by decide +kernel)
  obtain ⟨st', hst', hsecond⟩ := hknown [fillUnderSameKey, fillOfOne] false (by decide +kernel)
  rw [hst, hst'] at hsame
  have horders : st.orders.get? "c" = st'.orders.get? "c" := hsame.orders "c"
  rw [horders, hsecond] at hfirst
  cases hfirst

end Joker.Ledger
