import Joker.Ledger.Corrections
import Joker.Ledger.ProjectionKeys

/-!
# Convergence of order corrections

Library `Ledger`. Whether the correction events of a report bring every order to the broker's
filled quantity and status. A broker quantity of zero is taken for a missing one and replaced
by the ledger's own. A status is taken over only in the spelling of `OrderStatus`, while the
comparison knows the aliases of brokers; with an alias an order converges only through a
correction of its filled quantity, which sets the status as well.
-/

namespace Joker.Ledger

open Joker.Base

/-! ### One correction -/

/-- The order after its filled quantity was corrected. -/
def fillCorrected (qty : ℚ) (order : OrderLifecycle) : OrderLifecycle :=
  if 0 < order.submittedQty ∧ order.submittedQty ≤ qty then
    { order with filledQty := qty, status := .filled }
  else if 0 < qty then { order with filledQty := qty, status := .partiallyFilled }
  else { order with filledQty := qty }

/-- The order after its status was corrected, if the text is one of `OrderStatus`. -/
def statusCorrected (text : Option String) (order : OrderLifecycle) : OrderLifecycle :=
  match text.bind OrderStatus.ofValue with
  | some status => { order with status := status }
  | none => order

/-- The order after the correction of a finding about it. -/
def correctedBy [DecimalContext] (f : ReconciliationFinding) (order : OrderLifecycle) :
    OrderLifecycle :=
  if f.outcome = .quantityMismatch then
    fillCorrected (correctionAmount (correctionQuantity f)) order
  else statusCorrected f.brokerStatus order

private theorem correctOrder_of_order [DecimalContext] {f : ReconciliationFinding} {e : LedgerEvent}
    (h : Corrects f e) (ht : f.entityType = "order") (order : OrderLifecycle) :
    correctOrder e order = correctedBy f order := by
  obtain ⟨-, hqty, hprice, -, hstatus⟩ := orderFields_of_corrects h
  have hkind : correctionKindOf e =
      if f.outcome = .quantityMismatch then "order_fill_qty" else "order_status" := by
    rw [(fields_of_corrects h).2.2.1]
    simp [correctionKind, ht]
  unfold correctOrder correctedBy
  rw [hkind, hstatus]
  by_cases hq : f.outcome = .quantityMismatch
  · simp only [hq, if_true, String.reduceEq, if_false, hqty, hprice]
    unfold fillCorrected
    split
    · rfl
    · split <;> rfl
  · simp only [hq, if_false, if_true]
    unfold statusCorrected
    cases f.brokerStatus with
    | none => rfl
    | some text => rfl

private theorem correctOrder_of_position [DecimalContext] {f : ReconciliationFinding}
    {e : LedgerEvent} (h : Corrects f e) (ht : f.entityType = "position") (order : OrderLifecycle) :
    correctOrder e order = order := by
  have hkind : correctionKindOf e = "position_quantity" := by
    rw [(fields_of_corrects h).2.2.1]
    simp [correctionKind, ht]
  unfold correctOrder
  simp [hkind]

/-- A finding about the client order. -/
def ReconciliationFinding.concerns (f : ReconciliationFinding) (clientOrderId : String) : Bool :=
  f.entityType = "order" && f.entityId = clientOrderId

private theorem orders_applyEvent [DecimalContext] {f : ReconciliationFinding} {e : LedgerEvent}
    (hent : f.entityType = "position" ∨ f.entityType = "order") (h : Corrects f e) {t t' : Tables}
    (ht : applyEvent e t = .ok t') (k : String) :
    t'.orders.get? k = (t.orders.get? k).map
      (fun order ↦ if f.concerns k = true then correctedBy f order else order) := by
  obtain ⟨hid, -, -, hfees, -⟩ := orderFields_of_corrects h
  have hset : t'.orders = correctedOrders e t.orders := by
    have hnofees (t : Tables) : addFees true e t = t := by
      unfold addFees
      rw [hfees]
    have ha : applyCorrection e t = .ok t' := by
      simpa only [applyEvent, (fields_of_corrects h).1] using ht
    rcases applyCorrection_cases ha with ⟨-, rfl⟩ | ⟨-, quantity, -, rfl⟩
    · rw [hnofees]
    · rw [hnofees]
  rw [hset, get?_correctedOrders]
  unfold ReconciliationFinding.concerns
  rcases hent with hp | ho
  · have hkept : correctOrder e = id := funext (correctOrder_of_position h hp)
    simp only [hp, String.reduceEq, decide_false, Bool.false_and, Bool.false_eq_true, if_false]
    rw [hkept, Option.map_id]
    exact (ite_self _).trans Option.map_id'.symm
  · rw [if_pos ho] at hid
    simp only [ho, decide_true, Bool.true_and, decide_eq_true_eq, hid]
    by_cases hk : f.entityId = k
    · simp only [hk, if_true]
      exact congrArg (fun g ↦ (t.orders.get? k).map g) (funext (correctOrder_of_order h ho))
    · simp only [hk, if_false]
      exact Option.map_id'.symm

/-! ### All corrections of a report -/

/-- An order after the corrections of all findings about it, in their order. -/
def correctedByAll [DecimalContext] (findings : List ReconciliationFinding) (k : String)
    (order : OrderLifecycle) :
    OrderLifecycle :=
  (findings.filter (fun f ↦ f.concerns k)).foldl (fun order f ↦ correctedBy f order) order

/-- The run: new corrections correct every order by the findings about it. -/
theorem orders_replay_corrections [DecimalContext] {findings : List ReconciliationFinding}
    {corrections : List LedgerEvent} (hc : List.Forall₂ Corrects findings corrections)
    (hent : ∀ f ∈ findings, f.entityType = "position" ∨ f.entityType = "order")
    (hid : (corrections.map (fun e ↦ e.ledgerEventId)).Nodup)
    (hkey : (corrections.map (fun e ↦ e.idempotencyKey)).Nodup) {r r' : Replay}
    (hf : ∀ e ∈ corrections, r.Fresh e) (hr : replay r corrections = .ok r') (k : String) :
    r'.tables.orders.get? k = (r.tables.orders.get? k).map (correctedByAll findings k) := by
  induction hc generalizing r with
  | nil =>
    cases hr
    cases r'.tables.orders.get? k <;> rfl
  | @cons f e fs es hfe _ ih =>
    have hfresh := hf e List.mem_cons_self
    simp only [replay, Replay.step, if_pos hfresh] at hr
    cases ht : applyEvent e r.tables with
    | error err =>
      rw [ht] at hr
      cases hr
    | ok t' =>
      rw [ht] at hr
      have hrest := ih (fun g hg ↦ hent g (List.mem_cons_of_mem f hg))
        (List.nodup_cons.mp hid).2 (List.nodup_cons.mp hkey).2 (fresh_after hid hkey hf t') hr
      rw [hrest, orders_applyEvent (hent f List.mem_cons_self) hfe ht k, Option.map_map]
      congr 1
      funext order
      unfold correctedByAll
      cases hcon : f.concerns k with
      | true => simp [hcon]
      | false => simp [hcon]

/-! ### The findings about one order -/

/-- The status that a broker order without counterpart and without client order id leaves on the
order whose client order id is its broker order id. -/
def strayStatus (st : ProjectionState) (brokerOrders : List BrokerOpenOrderView) (k : String) :
    Option OrderStatus :=
  ((brokerOrders.find? (fun bo ↦ bo.brokerOrderId = k)).filter (fun bo ↦
    bo.clientKey = none ∧ k ∉ matchedBrokerIds st brokerOrders ∧ isKnown st bo = false)).bind
      (fun bo ↦ OrderStatus.ofValue bo.status)

private theorem filter_flatMap_of_others {X Y : Type} {xs : List X} {key : X → String}
    {g : X → List Y} {p : Y → Bool} {k : String}
    (h : ∀ x ∈ xs, key x ≠ k → (g x).filter p = []) (hn : (xs.map key).Nodup) :
    (xs.flatMap g).filter p =
      ((xs.find? (fun x ↦ key x = k)).map (fun x ↦ (g x).filter p)).getD [] := by
  induction xs with
  | nil => rfl
  | cons x rest ih =>
    rw [List.map_cons, List.nodup_cons] at hn
    have hrest := ih (fun y hy ↦ h y (List.mem_cons_of_mem x hy)) hn.2
    rw [List.flatMap_cons, List.filter_append, hrest]
    by_cases hk : key x = k
    · have hnone : rest.find? (fun y ↦ key y = k) = none := by
        apply List.find?_eq_none.mpr
        intro y hy he
        apply hn.1
        rw [hk, ← of_decide_eq_true he]
        exact List.mem_map_of_mem hy
      have hx : (x :: rest).find? (fun y ↦ key y = k) = some x := by simp [hk]
      rw [hx, hnone]
      exact List.append_nil _
    · have hx : (x :: rest).find? (fun y ↦ key y = k) = rest.find? (fun y ↦ key y = k) := by
        simp [hk]
      rw [hx, h x List.mem_cons_self hk]
      rfl

private theorem entityId_activeOrderFindings {brokerOrders : List BrokerOpenOrderView}
    {entry : String × OrderLifecycle} (hk : entry.2.clientOrderId = entry.1) :
    ∀ f ∈ activeOrderFindings brokerOrders entry, f.entityId = entry.1 := by
  intro f hf
  unfold activeOrderFindings at hf
  split at hf
  · rw [List.mem_singleton.mp hf]
  · next bo _ =>
    unfold compareOrder at hf
    by_cases hq : entry.2.filledQty = bo.filledQty.toRat <;>
      by_cases hs : statusesCompatible entry.2.status bo.status = true <;>
      simp [hq, hs] at hf
    · rw [hf]
      exact hk
    · rw [hf]
      exact hk
    · rw [hf]
      exact hk
    · rcases hf with rfl | rfl <;> exact hk

private theorem positionFindings_about {st : ProjectionState}
    {brokerPositions : List BrokerPositionView} (k : String) :
    ((positionFindings st brokerPositions).filter
      (fun f ↦ f.outcome ≠ .consistent)).filter (fun f ↦ f.concerns k) = [] := by
  apply List.filter_eq_nil_iff.mpr
  intro f hf hc
  have hp := (positionFindings_cases (List.mem_filter.mp hf).1).1
  unfold ReconciliationFinding.concerns at hc
  rw [hp] at hc
  exact absurd hc (by simp)

private theorem find_projectedActive {st : ProjectionState} {k : String} {order : OrderLifecycle}
    (ho : st.orders.get? k = some order) (ha : order.status.active = true) :
    (projectedActive st).find? (fun e ↦ e.1 = k) = some (k, order) := by
  cases hf : (projectedActive st).find? (fun e ↦ e.1 = k) with
  | none =>
    have hno := List.find?_eq_none.mp hf (k, order) (mem_projectedActive.mpr ⟨ho, ha⟩)
    exact absurd (decide_eq_true rfl) hno
  | some e =>
    have hk : e.1 = k := by simpa using List.find?_some hf
    have hm := mem_projectedActive.mp (show (e.1, e.2) ∈ _ from List.mem_of_find?_eq_some hf)
    rw [hk, ho] at hm
    cases hm.1
    rw [← hk]

private theorem brokerOrderFindings_about_other {st : ProjectionState} {matched : List String}
    {k : String} {order : OrderLifecycle} (ho : st.orders.get? k = some order)
    {bo : BrokerOpenOrderView} (hne : bo.brokerOrderId ≠ k) :
    ∀ f ∈ brokerOrderFindings st matched bo,
      ¬ (f.concerns k && decide (f.outcome ≠ .consistent)) = true := by
  intro f hf hc
  simp only [ReconciliationFinding.concerns, Bool.and_eq_true, decide_eq_true_eq] at hc
  unfold brokerOrderFindings at hf
  split at hf
  · cases hf
  · split at hf
    · cases hf
    · next hunknown =>
      -- A client order id of the ledger makes a broker order known.
      rw [List.mem_singleton.mp hf] at hc
      cases hck : bo.clientKey with
      | none =>
        have hid := hc.1.2
        rw [hck] at hid
        exact hne hid
      | some key =>
        have hid := hc.1.2
        rw [hck] at hid
        apply hunknown
        unfold isKnown
        simp only [hck, Option.any_some, Bool.or_eq_true]
        left
        rw [show key = k from hid, ho]
        rfl

private theorem findings_about {st : ProjectionState} {brokerOrders : List BrokerOpenOrderView}
    {brokerPositions : List BrokerPositionView}
    (hkeyed : st.orders.Keyed (fun order ↦ order.clientOrderId))
    (hids : (brokerOrders.map (fun bo ↦ bo.brokerOrderId)).Nodup) {k : String}
    {order : OrderLifecycle} {bo : BrokerOpenOrderView} (ho : st.orders.get? k = some order)
    (ha : order.status.active = true) (hb : findBrokerOrder brokerOrders k order = some bo) :
    ((orderFindings st brokerOrders ++ positionFindings st brokerPositions).filter
        (fun f ↦ f.outcome ≠ .consistent)).filter (fun f ↦ f.concerns k) =
      ((compareOrder order bo).filter (fun f ↦ f.outcome ≠ .consistent)).filter
        (fun f ↦ f.concerns k) ++
      ((brokerOrders.find? (fun bo ↦ bo.brokerOrderId = k)).map (fun bo ↦
        ((brokerOrderFindings st (matchedBrokerIds st brokerOrders) bo).filter
          (fun f ↦ f.outcome ≠ .consistent)).filter (fun f ↦ f.concerns k))).getD [] := by
  have hactive : ((projectedActive st).map Prod.fst).Nodup :=
    (List.filter_sublist.map _).nodup st.orders.nodup
  unfold orderFindings
  rw [List.filter_append, List.filter_append, List.filter_append, List.filter_append,
    positionFindings_about, List.append_nil]
  simp only [List.filter_filter]
  congr 1
  · rw [@filter_flatMap_of_others _ _ _ Prod.fst _ _ k _ hactive, find_projectedActive ho ha]
    · simp only [Option.map_some, Option.getD_some, activeOrderFindings, hb]
    · intro e he hne
      apply List.filter_eq_nil_iff.mpr
      intro f hf hc
      have hm := mem_projectedActive.mp (show (e.1, e.2) ∈ _ from he)
      have hid := entityId_activeOrderFindings (hkeyed e.1 e.2 hm.1) f hf
      simp only [ReconciliationFinding.concerns, Bool.and_eq_true, decide_eq_true_eq] at hc
      exact hne (hid.symm.trans hc.1.2)
  · rw [@filter_flatMap_of_others _ _ _ (fun bo ↦ bo.brokerOrderId) _ _ k _ hids]
    intro bo' _ hne
    apply List.filter_eq_nil_iff.mpr
    exact brokerOrderFindings_about_other ho hne

/-- The filled quantity that a correction writes: the broker's, unless that is zero. -/
def writtenQty [DecimalContext] (order : OrderLifecycle) (bo : BrokerOpenOrderView) : ℚ :=
  correctionAmount (if bo.filledQty.toRat ≠ 0 then bo.filledQty.toRat else order.filledQty)

/-- The status after the comparison's corrections: of the filled quantity if it differs, then of
the status if that is not compatible. -/
def comparedStatus [DecimalContext] (order : OrderLifecycle) (bo : BrokerOpenOrderView) :
    OrderStatus :=
  let afterFill := if order.filledQty ≠ bo.filledQty.toRat
    then (fillCorrected (writtenQty order bo) order).status else order.status
  if statusesCompatible order.status bo.status = false
    then (OrderStatus.ofValue bo.status).getD afterFill else afterFill

private theorem filledQty_fillCorrected (qty : ℚ) (order : OrderLifecycle) :
    (fillCorrected qty order).filledQty = qty := by
  unfold fillCorrected
  split
  · rfl
  · split <;> rfl

private theorem statusCorrected_eq (text : String) (order : OrderLifecycle) :
    statusCorrected (some text) order =
      { order with status := (OrderStatus.ofValue text).getD order.status } := by
  unfold statusCorrected
  simp only [Option.bind_some]
  cases OrderStatus.ofValue text <;> rfl

private theorem correctedBy_comparison [DecimalContext] {order : OrderLifecycle}
    {bo : BrokerOpenOrderView} {k : String} (hk : order.clientOrderId = k) :
    (correctedByAll ((compareOrder order bo).filter (fun f ↦ f.outcome ≠ .consistent)) k
        order).filledQty =
      (if order.filledQty ≠ bo.filledQty.toRat then writtenQty order bo else order.filledQty) ∧
    (correctedByAll ((compareOrder order bo).filter (fun f ↦ f.outcome ≠ .consistent)) k
        order).status = comparedStatus order bo := by
  unfold correctedByAll compareOrder comparedStatus
  by_cases hq : order.filledQty = bo.filledQty.toRat <;>
    by_cases hs : statusesCompatible order.status bo.status = true <;>
    simp [hq, hs, ReconciliationFinding.concerns, hk, correctedBy, statusCorrected_eq,
      correctionQuantity, filledQty_fillCorrected, writtenQty]

private theorem correctedBy_stray [DecimalContext] {st : ProjectionState}
    {brokerOrders : List BrokerOpenOrderView} {k : String} {known : OrderLifecycle}
    (hk : st.orders.get? k = some known) (order : OrderLifecycle) :
    (((brokerOrders.find? (fun bo ↦ bo.brokerOrderId = k)).map (fun bo ↦
        ((brokerOrderFindings st (matchedBrokerIds st brokerOrders) bo).filter
          (fun f ↦ f.outcome ≠ .consistent)).filter (fun f ↦ f.concerns k))).getD []).foldl
        (fun order f ↦ correctedBy f order) order =
      { order with status := (strayStatus st brokerOrders k).getD order.status } := by
  unfold strayStatus
  cases hf : brokerOrders.find? (fun bo ↦ bo.brokerOrderId = k) with
  | none => rfl
  | some bo =>
    have hid : bo.brokerOrderId = k := by simpa using List.find?_some hf
    unfold brokerOrderFindings
    by_cases hm : bo.brokerOrderId ∈ matchedBrokerIds st brokerOrders
    · have hm' := hm
      rw [hid] at hm'
      simp [hm, hm']
    · have hm' := hm
      rw [hid] at hm'
      by_cases hkn : isKnown st bo = true
      · simp [hm, hm', hkn, Option.filter]
      · cases hck : bo.clientKey with
        | none =>
          simp [hm', hkn, hck, hid, ReconciliationFinding.concerns, correctedBy,
            statusCorrected_eq, Option.filter]
        | some key =>
          have hne : key ≠ k := by
            rintro rfl
            apply hkn
            unfold isKnown
            simp [hck, hk]
          simp [hm, hm', hkn, hck, hne, ReconciliationFinding.concerns, Option.filter]

private theorem order_after_corrections [DecimalContext] {events corrections : List LedgerEvent}
    {st st' : ProjectionState} {sessionId : String} {brokerOrders : List BrokerOpenOrderView}
    {brokerPositions : List BrokerPositionView} {ts : Option Datetime} {now : Datetime}
    {reportId : Uuid} {report : ReconciliationReport} {account : String} {source : Option Uuid}
    {fresh : Nat → Uuid × Datetime}
    (hst : project events = .ok st)
    (hids : (brokerOrders.map (fun bo ↦ bo.brokerOrderId)).Nodup)
    (hrep : reconcile sessionId st brokerOrders brokerPositions ts now reportId = .ok report)
    (hcor : report.correctionEvents account source fresh = some corrections)
    (hnew : NewRows events corrections) (hst' : project (events ++ corrections) = .ok st')
    {k : String} {order : OrderLifecycle} {bo : BrokerOpenOrderView}
    (ho : st.orders.get? k = some order) (ha : order.status.active = true)
    (hb : findBrokerOrder brokerOrders k order = some bo) :
    ∃ order', st'.orders.get? k = some order' ∧
      order'.filledQty = (if order.filledQty ≠ bo.filledQty.toRat
        then writtenQty order bo else order.filledQty) ∧
      order'.status = (strayStatus st brokerOrders k).getD (comparedStatus order bo) := by
  obtain ⟨r, hr, rfl⟩ := project_eq_ok.mp hst
  obtain ⟨r', hr', rfl⟩ := project_eq_ok.mp hst'
  rw [replay_append, hr] at hr'
  obtain ⟨hfind, -, -⟩ := reconcile_eq_ok hrep
  have hkeyed := (keyed_replay hr).1
  have hrun := orders_replay_corrections (corrects_correctionLoop hcor)
    (entityType_findings hrep) hnew.1 hnew.2.1 (fresh_of_newRows hr hnew) hr' k
  rw [show r.tables.orders.get? k = some order from ho] at hrun
  refine ⟨_, hrun, ?_⟩
  obtain ⟨hqty, hstatus⟩ := @correctedBy_comparison _ order bo k (hkeyed k order ho)
  have hall : correctedByAll (report.findings.filter (fun f ↦ f.outcome ≠ .consistent)) k order =
      { correctedByAll ((compareOrder order bo).filter (fun f ↦ f.outcome ≠ .consistent)) k order
        with status := (strayStatus r.freeze brokerOrders k).getD (comparedStatus order bo) } := by
    unfold correctedByAll
    rw [hfind, findings_about hkeyed hids ho ha hb, List.foldl_append, correctedBy_stray ho]
    rw [← hstatus]
    rfl
  rw [hall]
  exact ⟨hqty, rfl⟩

/-! ### Convergence -/

/-- A status text that the alias table knows. -/
def Recognised (text : String) : Prop := ∃ status, statusesCompatible status text = true

/-- The orders that had a mismatch agree with the broker: in the filled quantity, and in the
status where the broker's text is recognised. -/
def OrdersAgree (findings : List ReconciliationFinding) (st' : ProjectionState) : Prop :=
  ∀ f ∈ findings, f.entityType = "order" →
    (f.outcome = .quantityMismatch → ∀ qty ∈ f.brokerQuantity,
      ∃ order ∈ st'.orders.get? f.entityId, order.filledQty = qty.toRat) ∧
    (f.outcome = .statusMismatch → ∀ text ∈ f.brokerStatus, Recognised text →
      ∃ order ∈ st'.orders.get? f.entityId, statusesCompatible order.status text = true)

/-- The corrections bring the status of an order to the broker's: with the status that a stray
broker order leaves, if there is one; else the broker's text is one of `OrderStatus`, or the
filled quantity differs too and the status written with it is compatible. -/
def StatusReached (stray : Option OrderStatus) (order : OrderLifecycle)
    (bo : BrokerOpenOrderView) : Prop :=
  match stray with
  | some status => statusesCompatible status bo.status = true
  | none =>
    (OrderStatus.ofValue bo.status).isSome = true ∨
    order.filledQty ≠ bo.filledQty.toRat ∧
      statusesCompatible (if 0 < order.submittedQty ∧ order.submittedQty ≤ bo.filledQty.toRat
        then .filled else .partiallyFilled) bo.status = true

/-- What the corrections of an active order can express: a differing filled quantity of the
broker is positive, and an incompatible status that is recognised can be reached. -/
def Correctable (st : ProjectionState) (brokerOrders : List BrokerOpenOrderView) : Prop :=
  ∀ k order bo, st.orders.get? k = some order → order.status.active = true →
    findBrokerOrder brokerOrders k order = some bo →
    (order.filledQty ≠ bo.filledQty.toRat → 0 < bo.filledQty.toRat) ∧
    (statusesCompatible order.status bo.status = false → Recognised bo.status →
      StatusReached (strayStatus st brokerOrders k) order bo)

private theorem compatible_of_ofValue {text : String} {status : OrderStatus}
    (h : OrderStatus.ofValue text = some status) : statusesCompatible status text = true := by
  have hv : status.value = text := by simpa using List.find?_some h
  rw [← hv]
  exact statusesCompatible_self status

private theorem correctionAmount_ne_zero [DecimalContext] {quantity : ℚ} (h : quantity ≠ 0) :
    correctionAmount quantity ≠ 0 := by
  unfold correctionAmount
  split
  · exact rounded_ne_zero (abs_ne_zero.mpr h)
  · exact h

private theorem correctionAmount_eq_self_iff [DecimalContext] {quantity : ℚ} :
    correctionAmount quantity = quantity ↔ 0 ≤ quantity := by
  unfold correctionAmount
  split
  · next hneg =>
    have hpos := rounded_pos (abs_pos.mpr hneg.ne)
    exact iff_of_false (hneg.trans hpos).ne' (not_le.mpr hneg)
  · next hneg => exact iff_of_true rfl (not_lt.mp hneg)

private theorem writtenQty_eq_iff [DecimalContext] {order : OrderLifecycle}
    {bo : BrokerOpenOrderView} (h : order.filledQty ≠ bo.filledQty.toRat) :
    writtenQty order bo = bo.filledQty.toRat ↔ 0 < bo.filledQty.toRat := by
  unfold writtenQty
  by_cases hz : bo.filledQty.toRat = 0
  · rw [if_neg (not_not.mpr hz), hz]
    rw [hz] at h
    exact iff_of_false (correctionAmount_ne_zero h) (lt_irrefl 0)
  · rw [if_pos hz, correctionAmount_eq_self_iff]
    exact ⟨fun hle ↦ lt_of_le_of_ne hle (Ne.symm hz), le_of_lt⟩

private theorem statusReached_iff [DecimalContext] {stray : Option OrderStatus}
    {order : OrderLifecycle}
    {bo : BrokerOpenOrderView} (hpos : order.filledQty ≠ bo.filledQty.toRat →
      0 < bo.filledQty.toRat) (hs : statusesCompatible order.status bo.status = false) :
    statusesCompatible (stray.getD (comparedStatus order bo)) bo.status = true ↔
      StatusReached stray order bo := by
  unfold StatusReached comparedStatus
  cases stray with
  | some status => exact Iff.rfl
  | none =>
    simp only [Option.getD_none, hs, if_true]
    cases hv : OrderStatus.ofValue bo.status with
    | some status =>
      exact iff_of_true (compatible_of_ofValue hv) (Or.inl rfl)
    | none =>
      simp only [Option.getD_none, Option.isSome_none, Bool.false_eq_true, false_or]
      by_cases hq : order.filledQty = bo.filledQty.toRat
      · simp [hq, hs]
      · rw [if_pos hq, (writtenQty_eq_iff hq).mpr (hpos hq)]
        unfold fillCorrected
        rw [if_pos (hpos hq)]
        simp only [hq, not_false_eq_true, ne_eq, true_and]
        split <;> rfl

private theorem mismatch_iff {st : ProjectionState} {brokerOrders : List BrokerOpenOrderView}
    (hkeyed : st.orders.Keyed (fun order ↦ order.clientOrderId)) {f : ReconciliationFinding}
    (hout : f.outcome = .quantityMismatch ∨ f.outcome = .statusMismatch) :
    f ∈ orderFindings st brokerOrders ↔ ∃ k order bo, st.orders.get? k = some order ∧
      order.status.active = true ∧ findBrokerOrder brokerOrders k order = some bo ∧
      f.entityId = k ∧ f ∈ compareOrder order bo := by
  unfold orderFindings
  rw [List.mem_append, List.mem_flatMap, List.mem_flatMap]
  constructor
  · rintro (⟨⟨k, order⟩, hm, hf⟩ | ⟨bo, -, hf⟩)
    · obtain ⟨ho, ha⟩ := mem_projectedActive.mp hm
      have hid := entityId_activeOrderFindings (hkeyed k order ho) f hf
      unfold activeOrderFindings at hf
      split at hf
      · rw [List.mem_singleton.mp hf] at hout
        simp at hout
      · next bo hb => exact ⟨k, order, bo, ho, ha, hb, hid, hf⟩
    · unfold brokerOrderFindings at hf
      split at hf
      · cases hf
      · split at hf
        · cases hf
        · rw [List.mem_singleton.mp hf] at hout
          simp at hout
  · rintro ⟨k, order, bo, ho, ha, hb, -, hf⟩
    left
    refine ⟨(k, order), mem_projectedActive.mpr ⟨ho, ha⟩, ?_⟩
    unfold activeOrderFindings
    simp only [hb]
    exact hf

private theorem quantityMismatch_iff {order : OrderLifecycle} {bo : BrokerOpenOrderView} :
    (∃ f ∈ compareOrder order bo, f.outcome = .quantityMismatch) ↔
      order.filledQty ≠ bo.filledQty.toRat := by
  unfold compareOrder
  by_cases hq : order.filledQty = bo.filledQty.toRat <;>
    by_cases hs : statusesCompatible order.status bo.status = true <;> simp [hq, hs]

private theorem statusMismatch_iff {order : OrderLifecycle} {bo : BrokerOpenOrderView} :
    (∃ f ∈ compareOrder order bo, f.outcome = .statusMismatch) ↔
      statusesCompatible order.status bo.status = false := by
  unfold compareOrder
  by_cases hq : order.filledQty = bo.filledQty.toRat <;>
    by_cases hs : statusesCompatible order.status bo.status = true <;> simp [hq, hs]

private theorem values_compareOrder {order : OrderLifecycle} {bo : BrokerOpenOrderView} :
    ∀ f ∈ compareOrder order bo, f.entityType = "order" ∧
      f.entityId = order.clientOrderId ∧ f.brokerQuantity = some bo.filledQty ∧
      f.brokerStatus = some bo.status := by
  unfold compareOrder
  by_cases hq : order.filledQty = bo.filledQty.toRat <;>
    by_cases hs : statusesCompatible order.status bo.status = true <;> simp [hq, hs]

/-- Order corrections converge exactly when every active order with a broker order is
correctable. -/
theorem orderCorrections_converge_iff [DecimalContext] {events corrections : List LedgerEvent}
    {st : ProjectionState} {sessionId : String} {brokerOrders : List BrokerOpenOrderView}
    {brokerPositions : List BrokerPositionView} {ts : Option Datetime} {now : Datetime}
    {reportId : Uuid} {report : ReconciliationReport} {account : String} {source : Option Uuid}
    {fresh : Nat → Uuid × Datetime}
    (hst : project events = .ok st)
    (hids : (brokerOrders.map (fun bo ↦ bo.brokerOrderId)).Nodup)
    (hrep : reconcile sessionId st brokerOrders brokerPositions ts now reportId = .ok report)
    (hcor : report.correctionEvents account source fresh = some corrections)
    (hnew : NewRows events corrections) :
    (∃ st', project (events ++ corrections) = .ok st' ∧ OrdersAgree report.findings st') ↔
      Correctable st brokerOrders := by
  have hkeyed : st.orders.Keyed (fun order ↦ order.clientOrderId) := by
    obtain ⟨r, hr, rfl⟩ := project_eq_ok.mp hst
    exact (keyed_replay hr).1
  constructor
  · rintro ⟨st', hst', hagree⟩ k order bo ho ha hb
    obtain ⟨order', ho', hqty, hstatus⟩ :=
      order_after_corrections hst hids hrep hcor hnew hst' ho ha hb
    have hpos : order.filledQty ≠ bo.filledQty.toRat → 0 < bo.filledQty.toRat := by
      intro hne
      obtain ⟨f, hf, hout⟩ := quantityMismatch_iff.mpr hne
      obtain ⟨ht, hid, hq, -⟩ := values_compareOrder f hf
      have hid := hid.trans (hkeyed k order ho)
      have hin := (mismatch_iff hkeyed (Or.inl hout)).mpr ⟨k, order, bo, ho, ha, hb, hid, hf⟩
      obtain ⟨hf', -⟩ := (mem_findings_order hrep).mpr hin
      obtain ⟨found, hfound, hfilled⟩ := (hagree f hf' ht).1 hout _ hq
      rw [hid, ho'] at hfound
      cases hfound
      rw [hqty, if_pos hne] at hfilled
      exact (writtenQty_eq_iff hne).mp hfilled
    refine ⟨hpos, fun hs hrec ↦ ?_⟩
    obtain ⟨f, hf, hout⟩ := statusMismatch_iff.mpr hs
    obtain ⟨ht, hid, -, hb'⟩ := values_compareOrder f hf
    have hid := hid.trans (hkeyed k order ho)
    have hin := (mismatch_iff hkeyed (Or.inr hout)).mpr ⟨k, order, bo, ho, ha, hb, hid, hf⟩
    obtain ⟨hf', -⟩ := (mem_findings_order hrep).mpr hin
    obtain ⟨found, hfound, hcompat⟩ := (hagree f hf' ht).2 hout _ hb' hrec
    rw [hid, ho'] at hfound
    cases hfound
    rw [hstatus] at hcompat
    exact (statusReached_iff hpos hs).mp hcompat
  · intro hcorrectable
    obtain ⟨st', hst', -⟩ := quantity_project_corrections hst hrep hcor hnew
    refine ⟨_, hst', fun f hf ht ↦ ⟨fun hout qty hq ↦ ?_, fun hout text htext hrec ↦ ?_⟩⟩
    · obtain ⟨k, order, bo, ho, ha, hb, hid, hfc⟩ :=
        (mismatch_iff hkeyed (Or.inl hout)).mp ((mem_findings_order hrep).mp ⟨hf, ht⟩)
      obtain ⟨order', ho', hqty, -⟩ :=
        order_after_corrections hst hids hrep hcor hnew hst' ho ha hb
      have hne := quantityMismatch_iff.mp ⟨f, hfc, hout⟩
      rw [(values_compareOrder f hfc).2.2.1] at hq
      cases hq
      refine ⟨order', hid ▸ ho', ?_⟩
      rw [hqty, if_pos hne]
      exact (writtenQty_eq_iff hne).mpr ((hcorrectable k order bo ho ha hb).1 hne)
    · obtain ⟨k, order, bo, ho, ha, hb, hid, hfc⟩ :=
        (mismatch_iff hkeyed (Or.inr hout)).mp ((mem_findings_order hrep).mp ⟨hf, ht⟩)
      obtain ⟨order', ho', -, hstatus⟩ :=
        order_after_corrections hst hids hrep hcor hnew hst' ho ha hb
      have hs := statusMismatch_iff.mp ⟨f, hfc, hout⟩
      obtain ⟨hpos, hreach⟩ := hcorrectable k order bo ho ha hb
      rw [(values_compareOrder f hfc).2.2.2] at htext
      cases htext
      refine ⟨order', hid ▸ ho', ?_⟩
      rw [hstatus]
      exact (statusReached_iff hpos hs).mpr (hreach hs hrec)

/-! ### Samples -/

open scoped DefaultContext

/-- An order for two, of which one is filled. -/
def halfFilled : List LedgerEvent :=
  [⟨EventFields.sample .orderSubmissionRequested "q" .buy 2 none, by decide +kernel⟩,
    ⟨EventFields.sample .partialFill "p" .buy 1 (some 1), by decide +kernel⟩]

/-- The projection of that ledger. -/
def halfFilledState : ProjectionState := (run Replay.next Replay.start halfFilled).freeze

/-- The broker's view of the order. -/
def halfFilledAtBroker (filledQty : Nat) (status : String) : BrokerOpenOrderView :=
  { brokerOrderId := "b"
    clientOrderId := some "c"
    contractId := "x"
    side := .buy
    quantity := ⟨false, 2, 0⟩
    filledQty := ⟨false, filledQty, 0⟩
    status := status }

/-- The report on the two views, without positions at the broker. -/
def halfFilledReport (bo : BrokerOpenOrderView) : ReconciliationReport :=
  let findings := orderFindings halfFilledState [bo] ++
    positionFindings halfFilledState [⟨"x", ⟨false, 1, 0⟩, none⟩]
  { reportId := "r"
    sessionId := "s"
    exchangeTimestamp := ⟨2026, 7, 1, 16, 0, 0, 0, some 0⟩
    findings := findings
    isConsistent := findings.all (fun f ↦ f.outcome = .consistent) }

/-- The corrections of that report. -/
def halfFilledCorrections (bo : BrokerOpenOrderView) : Option (List LedgerEvent) :=
  (halfFilledReport bo).correctionEvents "a" none
    (fun i ↦ (toString i, ⟨2026, 7, 1, 16, 0, 0, 0, some 0⟩))

/-- The equivalence at an order that the broker has completed. -/
theorem orderCorrections_converge_completed :
    (∃ st', project (halfFilled ++
        (halfFilledCorrections (halfFilledAtBroker 2 "completed")).getD []) = .ok st' ∧
      OrdersAgree (halfFilledReport (halfFilledAtBroker 2 "completed")).findings st') ↔
    Correctable halfFilledState [halfFilledAtBroker 2 "completed"] :=
  @orderCorrections_converge_iff _ halfFilled _ halfFilledState "s"
    [halfFilledAtBroker 2 "completed"] [⟨"x", ⟨false, 1, 0⟩, none⟩] none
    ⟨2026, 7, 1, 16, 0, 0, 0, some 0⟩ "r" (halfFilledReport (halfFilledAtBroker 2 "completed"))
    "a" none (fun i ↦ (toString i, ⟨2026, 7, 1, 16, 0, 0, 0, some 0⟩))
    (ok_of_toOption (by decide +kernel)) (by decide) (ok_of_toOption (by decide +kernel))
    (by decide +kernel) ⟨by decide +kernel, by decide +kernel, by decide +kernel⟩

/-- Order corrections do not always converge: the broker shows nothing filled, and the
correction writes the ledger's own quantity again. -/
theorem not_ordersAgree_of_zero :
    ¬ ∀ (events corrections : List LedgerEvent) (st : ProjectionState) (sessionId : String)
        (brokerOrders : List BrokerOpenOrderView) (brokerPositions : List BrokerPositionView)
        (ts : Option Datetime) (now : Datetime) (reportId : Uuid)
        (report : ReconciliationReport) (account : String) (source : Option Uuid)
        (fresh : Nat → Uuid × Datetime),
      project events = .ok st →
      (brokerOrders.map (fun bo ↦ bo.brokerOrderId)).Nodup →
      reconcile sessionId st brokerOrders brokerPositions ts now reportId = .ok report →
      report.correctionEvents account source fresh = some corrections →
      NewRows events corrections →
      ∃ st', project (events ++ corrections) = .ok st' ∧ OrdersAgree report.findings st' := by
  intro h
  obtain ⟨st', hst', hagree⟩ := h halfFilled
    ((halfFilledCorrections (halfFilledAtBroker 0 "open")).getD []) halfFilledState "s"
    [halfFilledAtBroker 0 "open"] [⟨"x", ⟨false, 1, 0⟩, none⟩] none
    ⟨2026, 7, 1, 16, 0, 0, 0, some 0⟩ "r" (halfFilledReport (halfFilledAtBroker 0 "open")) "a" none
    (fun i ↦ (toString i, ⟨2026, 7, 1, 16, 0, 0, 0, some 0⟩))
    (ok_of_toOption (by decide +kernel)) (by decide) (ok_of_toOption (by decide +kernel))
    (by decide +kernel) ⟨by decide +kernel, by decide +kernel, by decide +kernel⟩
  have hone : (project (halfFilled ++
      (halfFilledCorrections (halfFilledAtBroker 0 "open")).getD [])).toOption.bind
        (fun st ↦ (st.orders.get? "c").map (fun order ↦ order.filledQty)) = some 1 := by
    decide +kernel
  rw [hst'] at hone
  obtain ⟨order, ho, hq⟩ := Option.map_eq_some_iff.mp hone
  have hmismatch : ∃ f ∈ (halfFilledReport (halfFilledAtBroker 0 "open")).findings,
      f.entityType = "order" ∧ f.outcome = .quantityMismatch ∧ f.entityId = "c" ∧
        f.brokerQuantity = some ⟨false, 0, 0⟩ := by
    decide +kernel
  obtain ⟨f, hf, ht, hout, hid, hb⟩ := hmismatch
  obtain ⟨order', ho', hz⟩ := (hagree f hf ht).1 hout _ hb
  rw [hid, Option.mem_def, ho] at ho'
  cases ho'
  rw [hq] at hz
  exact absurd hz (by decide +kernel)

end Joker.Ledger
