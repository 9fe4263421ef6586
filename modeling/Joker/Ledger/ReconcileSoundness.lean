import Joker.Ledger.Reconciliation
import Joker.Ledger.Replay

/-!
# Soundness of reconciliation

Library `Ledger`. What a consistent report says about the two sides. Every active ledger order
has its broker order, and every broker order is known to the ledger; but a broker order that
the ledger knows only as filled, cancelled or rejected yields no finding, since terminal orders
are never compared. On the position side the report is complete for every projection the
projector builds.
-/

namespace Joker.Ledger

open Joker.Base

/-- The broker's quantity of a contract, zero when the broker does not report it. -/
def brokerQuantity (brokerPositions : List BrokerPositionView) (c : String) : ℚ :=
  match brokerPositions.find? (fun bp ↦ bp.contractId = c) with
  | some bp => bp.quantity.toRat
  | none => 0

/-- The broker's quantity of a contract is that of its first row, or nothing. -/
theorem brokerQuantity_eq (brokerPositions : List BrokerPositionView) (c : String) :
    brokerQuantity brokerPositions c =
      ((brokerPositions.find? (fun bp ↦ bp.contractId = c)).map
        (fun bp ↦ bp.quantity.toRat)).getD 0 := by
  unfold brokerQuantity
  cases brokerPositions.find? (fun bp ↦ bp.contractId = c) <;> rfl

/-- A broker order and a projected order that share the client or the broker order id. -/
def Counterpart (st : ProjectionState) (bo : BrokerOpenOrderView) (order : OrderLifecycle) : Prop :=
  ∃ k, st.orders.get? k = some order ∧
    (bo.clientKey = some k ∨ order.brokerOrderId = some bo.brokerOrderId)

/-- Both sides hold the same quantity of every contract. -/
def SameQuantities (st : ProjectionState) (brokerPositions : List BrokerPositionView) : Prop :=
  ∀ c, (st.position c).quantity = brokerQuantity brokerPositions c

/-- Every active ledger order has a broker order with its filled quantity and a compatible
status. -/
def ActiveOrdersMatched (st : ProjectionState) (brokerOrders : List BrokerOpenOrderView) : Prop :=
  ∀ k order, st.orders.get? k = some order → order.status.active = true →
    ∃ bo ∈ brokerOrders, (bo.clientKey = some k ∨ order.brokerOrderId = some bo.brokerOrderId) ∧
      order.filledQty = bo.filledQty.toRat ∧ statusesCompatible order.status bo.status = true

/-- Every broker open order has an active ledger counterpart. -/
def OpenOrdersActive (st : ProjectionState) (brokerOrders : List BrokerOpenOrderView) : Prop :=
  ∀ bo ∈ brokerOrders, ∃ order, Counterpart st bo order ∧ order.status.active = true

/-- No broker open order has ledger counterparts that are all filled, cancelled or rejected. -/
def NoneTerminalOnly (st : ProjectionState) (brokerOrders : List BrokerOpenOrderView) : Prop :=
  ∀ bo ∈ brokerOrders, (∃ order, Counterpart st bo order) →
    ¬ ∀ order, Counterpart st bo order → order.status ∈ [.filled, .cancelled, .rejected]

/-- No position flagged as closed still holds a quantity. -/
def NoHiddenQuantity (st : ProjectionState) : Prop :=
  ∀ pos ∈ st.positions.values, pos.isOpen = false → pos.quantity = 0

/-! ### Orders -/

private theorem active_iff_not_terminal (status : OrderStatus) :
    status.active = true ↔ status ∉ [OrderStatus.filled, .cancelled, .rejected] := by
  cases status <;> decide

/-- Comparing finds nothing exactly when filled quantity and status agree. -/
theorem compareOrder_consistent_iff (order : OrderLifecycle) (bo : BrokerOpenOrderView) :
    (∀ f ∈ compareOrder order bo, f.outcome = .consistent) ↔
      order.filledQty = bo.filledQty.toRat ∧ statusesCompatible order.status bo.status = true := by
  unfold compareOrder
  by_cases hq : order.filledQty = bo.filledQty.toRat <;>
    by_cases hs : statusesCompatible order.status bo.status = true <;> simp [hq, hs]

/-- The active orders of a projection are those under their keys whose status is active. -/
theorem mem_projectedActive {st : ProjectionState} {k : String}
    {order : OrderLifecycle} :
    (k, order) ∈ projectedActive st ↔
      st.orders.get? k = some order ∧ order.status.active = true := by
  unfold projectedActive
  rw [List.mem_filter, Dict.mem_entries_iff]

/-- The broker order a projected order is compared with shares an id with it. -/
theorem findBrokerOrder_eq_some {brokerOrders : List BrokerOpenOrderView} {k : String}
    {order : OrderLifecycle} {bo : BrokerOpenOrderView}
    (h : findBrokerOrder brokerOrders k order = some bo) :
    bo ∈ brokerOrders ∧ (bo.clientKey = some k ∨ order.brokerOrderId = some bo.brokerOrderId) := by
  unfold findBrokerOrder at h
  cases hc : (brokerByClient brokerOrders).get? k with
  | some found =>
    rw [hc] at h
    cases h
    obtain ⟨bo', hm, he⟩ := List.mem_filterMap.mp (Dict.mem_of_get?_ofList hc)
    obtain ⟨k', hk', hp⟩ := Option.map_eq_some_iff.mp he
    obtain ⟨rfl, rfl⟩ := Prod.mk.inj hp
    exact ⟨hm, Or.inl hk'⟩
  | none =>
    rw [hc] at h
    cases hb : order.brokerOrderId with
    | none =>
      rw [hb] at h
      cases h
    | some brokerOrderId =>
      rw [hb] at h
      simp only at h
      split at h
      · obtain ⟨bo', hm, he⟩ := List.mem_map.mp (Dict.mem_of_get?_ofList h)
        obtain ⟨rfl, rfl⟩ := Prod.mk.inj he
        exact ⟨hm, Or.inr rfl⟩
      · cases h

private theorem found_of_consistent {brokerOrders : List BrokerOpenOrderView} {k : String}
    {order : OrderLifecycle}
    (h : ∀ f ∈ activeOrderFindings brokerOrders (k, order), f.outcome = .consistent) :
    ∃ bo, findBrokerOrder brokerOrders k order = some bo ∧
      order.filledQty = bo.filledQty.toRat ∧ statusesCompatible order.status bo.status = true := by
  unfold activeOrderFindings at h
  cases hf : findBrokerOrder brokerOrders k order with
  | none =>
    simp [hf] at h
  | some bo =>
    simp only [hf] at h
    exact ⟨bo, rfl, (compareOrder_consistent_iff order bo).mp h⟩

/-- Known broker orders are those with a ledger counterpart. -/
theorem isKnown_iff (st : ProjectionState) (bo : BrokerOpenOrderView) :
    isKnown st bo = true ↔ ∃ order, Counterpart st bo order := by
  unfold isKnown Counterpart
  rw [Bool.or_eq_true, Option.any_eq_true, List.any_eq_true]
  constructor
  · rintro (⟨k, hk, hs⟩ | ⟨order, hm, hb⟩)
    · obtain ⟨order, ho⟩ := Option.isSome_iff_exists.mp hs
      exact ⟨order, k, ho, Or.inl hk⟩
    · obtain ⟨k, hk⟩ := (Dict.mem_values_iff _ _).mp hm
      exact ⟨order, k, hk, Or.inr (of_decide_eq_true hb)⟩
  · rintro ⟨order, k, ho, hk | hb⟩
    · exact Or.inl ⟨k, hk, by rw [ho]; rfl⟩
    · exact Or.inr ⟨order, (Dict.mem_values_iff _ _).mpr ⟨k, ho⟩, decide_eq_true hb⟩

/-- Without order findings every active ledger order has its broker order. -/
theorem activeOrdersMatched_of_consistent {st : ProjectionState}
    {brokerOrders : List BrokerOpenOrderView}
    (h : ∀ f ∈ orderFindings st brokerOrders, f.outcome = .consistent) :
    ActiveOrdersMatched st brokerOrders := by
  intro k order ho ha
  have hk : ∀ f ∈ activeOrderFindings brokerOrders (k, order), f.outcome = .consistent :=
    fun f hm ↦ h f (List.mem_append_left _
      (List.mem_flatMap.mpr ⟨(k, order), mem_projectedActive.mpr ⟨ho, ha⟩, hm⟩))
  obtain ⟨bo, hf, hq⟩ := found_of_consistent hk
  obtain ⟨hm, hid⟩ := findBrokerOrder_eq_some hf
  exact ⟨bo, hm, hid, hq⟩

private theorem counterpart_of_consistent {st : ProjectionState}
    {brokerOrders : List BrokerOpenOrderView}
    (hn : (brokerOrders.map (fun bo ↦ bo.brokerOrderId)).Nodup)
    (h : ∀ f ∈ orderFindings st brokerOrders, f.outcome = .consistent)
    {bo : BrokerOpenOrderView} (hbo : bo ∈ brokerOrders) :
    (∃ order, Counterpart st bo order ∧ order.status.active = true) ∨
      ∃ order, Counterpart st bo order := by
  have hb : ∀ f ∈ brokerOrderFindings st (matchedBrokerIds st brokerOrders) bo,
      f.outcome = .consistent := fun f hm ↦
    h f (List.mem_append_right _ (List.mem_flatMap.mpr ⟨bo, hbo, hm⟩))
  unfold brokerOrderFindings at hb
  by_cases hmatch : bo.brokerOrderId ∈ matchedBrokerIds st brokerOrders
  · obtain ⟨⟨k, order⟩, ha, hf⟩ := List.mem_filterMap.mp hmatch
    obtain ⟨bo', hf', hid⟩ := Option.map_eq_some_iff.mp hf
    obtain ⟨hbo', hshare⟩ := findBrokerOrder_eq_some hf'
    have he : bo' = bo := List.inj_on_of_nodup_map hn hbo' hbo hid
    obtain ⟨ho, hact⟩ := mem_projectedActive.mp ha
    exact Or.inl ⟨order, ⟨k, ho, he ▸ hshare⟩, hact⟩
  · by_cases hk : isKnown st bo = true
    · exact Or.inr ((isKnown_iff st bo).mp hk)
    · simp [hmatch, hk] at hb

/-- Without order findings, the broker's open orders all have active counterparts exactly when
none of them is known as a terminal order only. -/
theorem openOrdersActive_iff {st : ProjectionState} {brokerOrders : List BrokerOpenOrderView}
    (hn : (brokerOrders.map (fun bo ↦ bo.brokerOrderId)).Nodup)
    (h : ∀ f ∈ orderFindings st brokerOrders, f.outcome = .consistent) :
    OpenOrdersActive st brokerOrders ↔ NoneTerminalOnly st brokerOrders := by
  constructor
  · intro hact bo hbo _ hall
    obtain ⟨order, hc, ha⟩ := hact bo hbo
    exact (active_iff_not_terminal _).mp ha (hall order hc)
  · intro hnt bo hbo
    rcases counterpart_of_consistent hn h hbo with hact | hknown
    · exact hact
    · obtain ⟨order, hc⟩ := not_forall.mp (hnt bo hbo hknown)
      obtain ⟨hc, ht⟩ := Classical.not_imp.mp hc
      exact ⟨order, hc, (active_iff_not_terminal _).mpr ht⟩

/-! ### Positions -/

private theorem get?_brokerPosByContract {bps : List BrokerPositionView}
    (hn : (bps.map (fun bp ↦ bp.contractId)).Nodup) {c : String} {bp : BrokerPositionView} :
    (brokerPosByContract bps).get? c = some bp ↔ bp ∈ bps ∧ bp.contractId = c := by
  unfold brokerPosByContract
  rw [Dict.get?_ofList_eq_some_iff _ (by rw [List.map_map]; exact hn), List.mem_map]
  constructor
  · rintro ⟨bp', hm, he⟩
    obtain ⟨rfl, rfl⟩ := Prod.mk.inj he
    exact ⟨hm, rfl⟩
  · rintro ⟨hm, rfl⟩
    exact ⟨bp, hm, rfl⟩

/-- The broker's quantity of a reported contract. -/
theorem brokerQuantity_of_mem {bps : List BrokerPositionView}
    (hn : (bps.map (fun bp ↦ bp.contractId)).Nodup) {bp : BrokerPositionView} (h : bp ∈ bps) :
    brokerQuantity bps bp.contractId = bp.quantity.toRat := by
  unfold brokerQuantity
  cases hf : bps.find? (fun bp' ↦ bp'.contractId = bp.contractId) with
  | none => exact absurd (decide_eq_true rfl) (List.find?_eq_none.mp hf bp h)
  | some found =>
    have hid : found.contractId = bp.contractId := by simpa using List.find?_some hf
    have he : found = bp := List.inj_on_of_nodup_map hn (List.mem_of_find?_eq_some hf) h hid
    rw [he]

/-- The broker's quantity of a contract it does not report. -/
theorem brokerQuantity_of_not_mem {bps : List BrokerPositionView} {c : String}
    (h : ∀ bp ∈ bps, bp.contractId ≠ c) : brokerQuantity bps c = 0 := by
  unfold brokerQuantity
  rw [List.find?_eq_none.mpr (fun bp hm ↦ by simpa using h bp hm)]

/-- Projected open positions are the positions open with a quantity. -/
theorem mem_projectedOpenPositions {st : ProjectionState} {c : String} {pos : PositionState} :
    (c, pos) ∈ projectedOpenPositions st ↔
      st.positions.get? c = some pos ∧ pos.isOpen = true ∧ pos.quantity ≠ 0 := by
  unfold projectedOpenPositions
  rw [List.mem_filter, Dict.mem_entries_iff, Bool.and_eq_true, decide_eq_true_eq]

/-- The quantity of a contract as the reconciler sees it: that of an open position. -/
def openQuantity (st : ProjectionState) (c : String) : ℚ :=
  match st.positions.get? c with
  | some pos => if pos.isOpen = true ∧ pos.quantity ≠ 0 then pos.quantity else 0
  | none => 0

/-- The reconciler sees all quantities exactly when no closed position holds one. -/
theorem noHiddenQuantity_iff (st : ProjectionState) :
    NoHiddenQuantity st ↔ ∀ c, (st.position c).quantity = openQuantity st c := by
  constructor
  · intro h c
    unfold ProjectionState.position ensurePosition openQuantity
    cases hp : st.positions.get? c with
    | none => rfl
    | some pos =>
      simp only [Option.getD_some]
      split
      · rfl
      · next hoq =>
        by_contra hq
        cases ho : pos.isOpen with
        | true => exact hoq ⟨ho, hq⟩
        | false => exact hq (h pos ((Dict.mem_values_iff _ _).mpr ⟨c, hp⟩) ho)
  · intro h pos hm hcl
    obtain ⟨c, hp⟩ := (Dict.mem_values_iff _ _).mp hm
    have hc := h c
    simpa [ProjectionState.position, ensurePosition, openQuantity, hp, hcl] using hc

private theorem openQuantity_of_mem {st : ProjectionState} {c : String} {pos : PositionState}
    (h : (c, pos) ∈ projectedOpenPositions st) : openQuantity st c = pos.quantity := by
  obtain ⟨hp, hoq⟩ := mem_projectedOpenPositions.mp h
  simp only [openQuantity, hp, if_pos hoq]

private theorem openQuantity_of_not_mem {st : ProjectionState} {c : String}
    (h : c ∉ (projectedOpenPositions st).map Prod.fst) : openQuantity st c = 0 := by
  unfold openQuantity
  cases hp : st.positions.get? c with
  | none => rfl
  | some pos =>
    simp only
    split
    · next hoq =>
      exact absurd (List.mem_map.mpr ⟨(c, pos), mem_projectedOpenPositions.mpr ⟨hp, hoq⟩, rfl⟩) h
    · rfl

/-- An open position's finding is consistent exactly when the broker has its quantity. -/
theorem openPositionFinding_consistent_iff {bps : List BrokerPositionView}
    (hn : (bps.map (fun bp ↦ bp.contractId)).Nodup) {c : String} {pos : PositionState}
    (hq : pos.quantity ≠ 0) :
    (openPositionFinding bps (c, pos)).outcome = .consistent ↔
      pos.quantity = brokerQuantity bps c := by
  unfold openPositionFinding
  cases hb : (brokerPosByContract bps).get? c with
  | none =>
    rw [brokerQuantity_of_not_mem (fun bp hm hc ↦ by
      rw [(get?_brokerPosByContract hn).mpr ⟨hm, hc⟩] at hb
      cases hb)]
    simp [positionFinding, hq]
  | some bp =>
    obtain ⟨hm, rfl⟩ := (get?_brokerPosByContract hn).mp hb
    rw [brokerQuantity_of_mem hn hm]
    by_cases he : bp.quantity.toRat = pos.quantity
    · simp [he, positionFinding]
    · simp [he, Ne.symm he, positionFinding]

/-- The findings of a contract are consistent exactly when both sides have its quantity. -/
theorem consistent_at_iff {st : ProjectionState} {bps : List BrokerPositionView}
    (hn : (bps.map (fun bp ↦ bp.contractId)).Nodup) (c : String) :
    (∀ f ∈ positionFindings st bps, f.entityId = c → f.outcome = .consistent) ↔
      openQuantity st c = brokerQuantity bps c := by
  have hid (e : String × PositionState) : (openPositionFinding bps e).entityId = e.1 := by
    unfold openPositionFinding
    split
    · rfl
    · split <;> rfl
  have hopen (pos : PositionState) (hm : (c, pos) ∈ projectedOpenPositions st) :
      (openPositionFinding bps (c, pos)).outcome = .consistent ↔
        openQuantity st c = brokerQuantity bps c := by
    rw [openQuantity_of_mem hm]
    exact openPositionFinding_consistent_iff hn (mem_projectedOpenPositions.mp hm).2.2
  constructor
  · intro h
    by_cases hc : c ∈ (projectedOpenPositions st).map Prod.fst
    · obtain ⟨⟨c', pos⟩, hm, he⟩ := List.mem_map.mp hc
      change c' = c at he
      subst he
      exact (hopen pos hm).mp
        (h _ (List.mem_append_left _ (List.mem_map.mpr ⟨_, hm, rfl⟩)) (hid _))
    · rw [openQuantity_of_not_mem hc]
      by_cases hm : ∃ bp ∈ bps, bp.contractId = c
      · obtain ⟨bp, hm, rfl⟩ := hm
        rw [brokerQuantity_of_mem hn hm]
        by_contra hq
        have hf := h (positionFinding .unexpectedBrokerPosition bp.contractId
          "broker position not open in projected ledger" none (some bp.quantity))
          (List.mem_append_right _ (List.mem_flatMap.mpr ⟨bp, hm, by
            simp [brokerPositionFindings, Ne.symm hq, hc]⟩)) rfl
        cases hf
      · exact (brokerQuantity_of_not_mem (fun bp hb he ↦ hm ⟨bp, hb, he⟩)).symm
  · intro hq f hf hfc
    rcases List.mem_append.mp hf with hf | hf
    · obtain ⟨⟨c', pos⟩, hm, rfl⟩ := List.mem_map.mp hf
      rw [hid] at hfc
      change c' = c at hfc
      subst hfc
      exact (hopen pos hm).mpr hq
    · obtain ⟨bp, hm, hfb⟩ := List.mem_flatMap.mp hf
      unfold brokerPositionFindings at hfb
      by_cases h0 : bp.quantity.toRat = 0
      · simp [h0] at hfb
      · by_cases hc : bp.contractId ∈ (projectedOpenPositions st).map Prod.fst
        · simp [h0, hc] at hfb
        · rw [if_neg h0, if_neg hc, List.mem_singleton] at hfb
          subst hfb
          change bp.contractId = c at hfc
          subst hfc
          rw [openQuantity_of_not_mem hc, brokerQuantity_of_mem hn hm] at hq
          exact absurd hq.symm h0

/-- All position findings are consistent exactly when both sides have the same quantities. -/
theorem positionFindings_consistent_iff {st : ProjectionState} {bps : List BrokerPositionView}
    (hn : (bps.map (fun bp ↦ bp.contractId)).Nodup) :
    (∀ f ∈ positionFindings st bps, f.outcome = .consistent) ↔
      ∀ c, openQuantity st c = brokerQuantity bps c := by
  constructor
  · intro h c
    exact (consistent_at_iff hn c).mp (fun f hf _ ↦ h f hf)
  · intro h f hf
    exact (consistent_at_iff hn f.entityId).mpr (h f.entityId) f hf rfl

/-- Without position findings, both sides hold the same quantities exactly when no closed
position holds one. -/
theorem sameQuantities_iff {st : ProjectionState} {bps : List BrokerPositionView}
    (hn : (bps.map (fun bp ↦ bp.contractId)).Nodup)
    (h : ∀ f ∈ positionFindings st bps, f.outcome = .consistent) :
    SameQuantities st bps ↔ NoHiddenQuantity st := by
  have hq := (positionFindings_consistent_iff hn).mp h
  rw [noHiddenQuantity_iff]
  unfold SameQuantities
  simp only [hq]

/-- A holding with a quantity is flagged open. -/
def Holding.Flagged (h : Holding) : Prop := h.quantity ≠ 0 → h.isOpen = true

private theorem flagged_fillPosition [DecimalContext] (e : LedgerEvent) (price qty : ℚ)
    (pos : PositionState) :
    (fillPosition e price qty pos).holding.Flagged := by
  unfold fillPosition
  simp only
  split
  · intro _
    rfl
  · split
    · unfold resizePosition
      simp only
      split
      · exact decide_eq_true
      · split <;> exact decide_eq_true
    · exact decide_eq_true

/-- Every turn of the loop keeps positions with a quantity open. -/
theorem flagged_step [DecimalContext] {r r' : Replay} {e : LedgerEvent}
    (h : ∀ c, (r.tables.position c).holding.Flagged) (hs : r.step e = .ok r') :
    ∀ c, (r'.tables.position c).holding.Flagged := by
  intro c
  rcases step_cases hs with ⟨-, rfl⟩ | ⟨-, t, ht, rfl⟩
  · exact h c
  · change (t.position c).holding.Flagged
    rcases holding_applyEvent ht c with hh | ⟨price, qty, -, hh⟩ | ⟨quantity, hh⟩
    · rw [hh]
      exact h c
    · rw [hh]
      exact flagged_fillPosition e price qty _
    · rw [hh]
      exact decide_eq_true

/-- The projector never closes a position that holds a quantity. -/
theorem noHiddenQuantity_project [DecimalContext] {events : List LedgerEvent} {st : ProjectionState}
    (h : project events = .ok st) : NoHiddenQuantity st := by
  obtain ⟨r, hr, rfl⟩ := project_eq_ok.mp h
  have hfl := replay_invariant (fun r ↦ ∀ c, (r.tables.position c).holding.Flagged)
    (fun _ _ _ h hs ↦ flagged_step h hs) events Replay.start r
    (fun _ hq ↦ absurd rfl hq) hr
  intro pos hm hcl
  obtain ⟨c, hp⟩ := (Dict.mem_values_iff _ _).mp hm
  have hpos : pos = (r.tables.position c).toModel := by
    rw [← position_freeze, ProjectionState.position, ensurePosition, hp]
    rfl
  subst hpos
  by_contra hq
  have ho : (r.tables.position c).isOpen = true := hfl c hq
  simp [PositionState.toModel, ho] at hcl
  exact hq hcl

/-- What a consistent report is worth. With distinct broker order ids and contracts, it entails
equal quantities, matched active orders and active counterparts of all broker orders exactly
when no broker order is known as terminal only and no closed position holds a quantity. -/
theorem isConsistent_sound_iff {sessionId : String} {st : ProjectionState}
    {brokerOrders : List BrokerOpenOrderView} {brokerPositions : List BrokerPositionView}
    {ts : Option Datetime} {now : Datetime} {reportId : Uuid} {report : ReconciliationReport}
    (hid : (brokerOrders.map (fun bo ↦ bo.brokerOrderId)).Nodup)
    (hcid : (brokerPositions.map (fun bp ↦ bp.contractId)).Nodup)
    (h : reconcile sessionId st brokerOrders brokerPositions ts now reportId = .ok report)
    (hc : report.isConsistent = true) :
    (SameQuantities st brokerPositions ∧ ActiveOrdersMatched st brokerOrders ∧
        OpenOrdersActive st brokerOrders) ↔
      NoneTerminalOnly st brokerOrders ∧ NoHiddenQuantity st := by
  obtain ⟨hf, hcons, -⟩ := reconcile_eq_ok h
  rw [hcons, List.all_eq_true, hf] at hc
  have ho : ∀ f ∈ orderFindings st brokerOrders, f.outcome = .consistent := fun f hm ↦
    of_decide_eq_true (hc f (List.mem_append_left _ hm))
  have hp : ∀ f ∈ positionFindings st brokerPositions, f.outcome = .consistent := fun f hm ↦
    of_decide_eq_true (hc f (List.mem_append_right _ hm))
  rw [sameQuantities_iff hcid hp, openOrdersActive_iff hid ho]
  exact ⟨fun ⟨h1, _, h3⟩ ↦ ⟨h3, h1⟩,
    fun ⟨h3, h1⟩ ↦ ⟨h1, activeOrdersMatched_of_consistent ho, h3⟩⟩

/-- A ledger with one order of two in the given status, half filled. -/
def oneOrder (status : OrderStatus) : ProjectionState :=
  { orders := Dict.empty.set "o1"
      ⟨"o1", status, 2, 1, some 1, 0, .buy, "c1", some "b1"⟩
    positions := Dict.empty.set "c1" ⟨"c1", 1, some 1, 0, 0, true, none⟩
    capitalUsage := 100
    seenEventIds := ∅
    seenIdempotencyKeys := ∅ }

/-- The broker's view of that order, still working. -/
def oneOpenOrder : List BrokerOpenOrderView :=
  [⟨"b1", some "o1", "c1", .buy, ⟨false, 2, 0⟩, ⟨false, 1, 0⟩, "working"⟩]

/-- The broker's view of that position. -/
def onePosition : List BrokerPositionView := [⟨"c1", ⟨false, 10, -1⟩, none⟩]

/-- A computed result is the result. -/
theorem ok_of_toOption {ε α : Type} {x : Except ε α} {a : α} (h : x.toOption = some a) :
    x = .ok a := by
  cases x with
  | error err => cases h
  | ok b =>
    cases h
    rfl

/-- The equivalence at an order that both sides hold half filled. -/
theorem isConsistent_sound_oneOrder :
    (SameQuantities (oneOrder .partiallyFilled) onePosition ∧
        ActiveOrdersMatched (oneOrder .partiallyFilled) oneOpenOrder ∧
        OpenOrdersActive (oneOrder .partiallyFilled) oneOpenOrder) ↔
      NoneTerminalOnly (oneOrder .partiallyFilled) oneOpenOrder ∧
        NoHiddenQuantity (oneOrder .partiallyFilled) :=
  @isConsistent_sound_iff "s" (oneOrder .partiallyFilled) oneOpenOrder onePosition none
    ⟨2026, 7, 1, 15, 0, 0, 0, some 0⟩ "r"
    ⟨"r", "s", ⟨2026, 7, 1, 15, 0, 0, 0, some 0⟩,
      [⟨.consistent, "order", "o1", "order matches broker", some 1, some ⟨false, 1, 0⟩,
          some "partially_filled", some "working"⟩,
        ⟨.consistent, "position", "c1", "position quantity matches", some 1,
          some ⟨false, 10, -1⟩, none, none⟩], true⟩
    (by decide) (by decide) (ok_of_toOption (by decide +kernel)) rfl

/-- Consistency does not give active counterparts: the ledger has the order as cancelled, the
broker still works it, and the report finds nothing. -/
theorem not_sound_of_cancelled_order :
    ¬ ∀ (sessionId : String) (st : ProjectionState) (brokerOrders : List BrokerOpenOrderView)
        (brokerPositions : List BrokerPositionView) (ts : Option Datetime) (now : Datetime)
        (reportId : Uuid) (report : ReconciliationReport),
      (brokerOrders.map (fun bo ↦ bo.brokerOrderId)).Nodup →
      (brokerOrders.filterMap (fun bo ↦ bo.clientOrderId)).Nodup →
      (brokerPositions.map (fun bp ↦ bp.contractId)).Nodup →
      reconcile sessionId st brokerOrders brokerPositions ts now reportId = .ok report →
      report.isConsistent = true →
      SameQuantities st brokerPositions ∧ ActiveOrdersMatched st brokerOrders ∧
        OpenOrdersActive st brokerOrders := by
  intro h
  obtain ⟨-, -, hact⟩ := h "s" (oneOrder .cancelled) oneOpenOrder onePosition none
    ⟨2026, 7, 1, 15, 0, 0, 0, some 0⟩ "r"
    ⟨"r", "s", ⟨2026, 7, 1, 15, 0, 0, 0, some 0⟩,
      [⟨.consistent, "position", "c1", "position quantity matches", some 1,
          some ⟨false, 10, -1⟩, none, none⟩], true⟩
    (by decide) (by decide) (by decide) (ok_of_toOption (by decide +kernel)) rfl
  obtain ⟨order, ⟨k, hk, -⟩, ha⟩ := hact _ (List.mem_singleton.mpr rfl)
  have hv : order ∈ (oneOrder .cancelled).orders.values := (Dict.mem_values_iff _ _).mpr ⟨k, hk⟩
  have hall : ∀ o ∈ (oneOrder .cancelled).orders.values, o.status.active = false := by
    decide +kernel
  rw [hall order hv] at ha
  cases ha

end Joker.Ledger
