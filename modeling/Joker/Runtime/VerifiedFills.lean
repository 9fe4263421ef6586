import Joker.Base.Firsts
import Joker.Ledger.FillTally
import Joker.Runtime.ExecutionRuntime

/-!
# Verified fills

Library `Runtime`. Fills of one order reported through `record_verified_fill`, one call after
another. The ledger knows a fill by its type and the texts of its quantity and price, so a
report of a fill whose key is taken is dropped as a repetition, whether it is one or not.
-/

namespace Joker.Runtime

open Joker.Base Joker.Ledger Joker.Broker CostAccount
open scoped DefaultContext

variable {β : Type}

/-- A fill at the broker: quantity, verified price, and whether it is the final one. -/
structure BrokerFill where
  qty : Decimal
  price : Decimal
  final : Bool
  deriving DecidableEq, Repr

section Order

variable (rt : ExecutionRuntime) (order : BrokerOrder) (clientOrderId : String)

/-- A report of a fill of the order, whose event passes validation and meets no driver error. -/
structure FillReport where
  fill : BrokerFill
  stamp : Stamp
  valid : (fillFields rt order clientOrderId fill.price fill.qty fill.final stamp).Valid
  faultless : stamp.faults = AppendFaults.none

variable {rt order clientOrderId}

/-- The event of a report. -/
def FillReport.event (r : FillReport rt order clientOrderId) : LedgerEvent :=
  ⟨fillFields rt order clientOrderId r.fill.price r.fill.qty r.fill.final r.stamp, r.valid⟩

/-- The world after one report. -/
def recordReport (w : World β) (r : FillReport rt order clientOrderId) : World β :=
  ((recordVerifiedFill rt order clientOrderId r.fill.price (some r.fill.qty) r.fill.final
    r.stamp : RuntimeM β Unit _).exec w).1

/-- The world after reports made one after another. -/
def recordReports (w : World β) (reports : List (FillReport rt order clientOrderId)) : World β :=
  reports.foldl recordReport w

/-! ### One report -/

private theorem leaves_projectSession (rt : ExecutionRuntime) :
    (projectSession rt : RuntimeM β Unit _).Leaves World.conn := by
  intro w
  rw [exec_projectSession]

private theorem leaves_publishTransitions (rt : ExecutionRuntime) (before after : ProjectionState)
    (clientOrderId : String) (t : Datetime) (ids : List String) :
    (publishTransitions rt before after clientOrderId t ids : RuntimeM β Unit _).Leaves
      World.conn := by
  intro w
  rw [exec_publishTransitions]

private theorem conn_record {w : World β} (r : FillReport rt order clientOrderId) :
    ((record r.stamp (fillFields rt order clientOrderId r.fill.price r.fill.qty r.fill.final
      r.stamp) : RuntimeM β Unit _).exec w).1.conn =
      ((append r.event AppendFaults.none).exec w.conn).1 := by
  unfold record makeLedgerEvent
  rw [dif_pos r.valid, r.faultless]
  change World.conn ((ledger (append r.event AppendFaults.none) >>= _ :
    RuntimeM β Unit (LedgerEvent × Bool)).exec w).1 = _
  refine (Coro.part_bind (fun _ ↦ Coro.leaves_pure _) w).trans ?_
  rw [exec_ledger]

/-- Where the session has a projection, the connection after a report is that after the
`append` of its event. -/
theorem conn_recordReport {w : World β} {state : ProjectionState}
    (hstate : project (w.conn.query (fun e ↦ e.sessionId = rt.sessionId)) = .ok state)
    (r : FillReport rt order clientOrderId) :
    (recordReport w r).conn = ((append r.event AppendFaults.none).exec w.conn).1 := by
  unfold recordReport recordVerifiedFill
  rw [Coro.exec_bind, exec_projectSession, hstate]
  simp only [Except.mapError]
  rw [Coro.exec_bind]
  change World.conn ((record _ _ >>= _ : RuntimeM β Unit (List LedgerEvent)).exec _).1 = _
  refine (Coro.part_bind ?_ _).trans (conn_record r)
  · rintro ⟨e, written⟩
    cases written with
    | true =>
      apply Coro.leaves_bind (fun _ ↦ rfl)
      intro _
      apply Coro.leaves_bind (leaves_projectSession rt)
      intro after
      exact Coro.leaves_bind (leaves_publishTransitions _ _ _ _ _ _) (fun _ ↦ Coro.leaves_pure _)
    | false => exact Coro.leaves_pure _

/-! ### Keys and equivalence -/

/-- Two reports have one key exactly when they report equal fills. -/
theorem key_eq_iff (r r' : FillReport rt order clientOrderId) :
    r.event.idempotencyKey = r'.event.idempotencyKey ↔ r.fill = r'.fill := by
  have htype (b : Bool) : ':' ∉
      (if b = true then LedgerEventType.finalFill else .partialFill).value.toList := by
    cases b <;> decide
  have htypes (b b' : Bool) :
      (if b = true then LedgerEventType.finalFill else .partialFill).value =
        (if b' = true then LedgerEventType.finalFill else .partialFill).value ↔ b = b' := by
    cases b <;> cases b' <;> decide
  have hqty (d : Decimal) : ':' ∉ d.str.toList := d.not_mem_str ':' (by decide) (by decide)
  change fillKey _ _ _ _ _ = fillKey _ _ _ _ _ ↔ _
  unfold fillKey
  rw [joinSep_right_inj, joinSep_right_inj, joinSep_right_inj, joinSep_inj (htype _) (htype _),
    htypes, joinSep_inj (hqty _) (hqty _),
    Decimal.str_injective.eq_iff, Decimal.str_injective.eq_iff]
  constructor
  · rintro ⟨hfinal, hsame, hprice⟩
    cases hr : r.fill
    cases hr' : r'.fill
    rw [hr, hr'] at hfinal hsame hprice
    cases hfinal
    cases hsame
    cases hprice
    rfl
  · intro h
    rw [h]
    exact ⟨rfl, rfl, rfl⟩

/-- A report's event is a fill of the order. -/
theorem isFillOf_event (r : FillReport rt order clientOrderId) :
    r.event.IsFillOf clientOrderId (contractIdFor order.contract) order.side where
  fill := by
    change ((if r.fill.final = true then LedgerEventType.finalFill else .partialFill) == _ ||
      (if r.fill.final = true then LedgerEventType.finalFill else .partialFill) == _) = true
    cases r.fill.final <;> rfl
  priced := fun h ↦ nomatch h
  capped := rfl
  order := rfl
  contract := rfl
  direction := rfl

/-! ### Sequences of reports -/

/-- The session's query of the ledger. -/
def sessionRows (rt : ExecutionRuntime) (w : World β) : List LedgerEvent :=
  w.conn.query (fun e ↦ e.sessionId = rt.sessionId)

/-- The events of the reports whose fill was not reported before. -/
def keptEvents (reports : List (FillReport rt order clientOrderId)) : List LedgerEvent :=
  (firsts FillReport.fill reports).map FillReport.event

/-- The reported fills, each where it was reported first. -/
def firstFills (reports : List (FillReport rt order clientOrderId)) : List BrokerFill :=
  (firsts FillReport.fill reports).map FillReport.fill

/-- The circumstances of the reports: a ledger with a projection in which the order has room for
all its fills, none of which is on record; every fill is reported, and nothing else; clocks go
forward and event ids are new. Taken as they are reported first, the fills make of the order and of
the position quantities that the context keeps. -/
structure Reportable (w : World β) (state : ProjectionState) (known : OrderLifecycle)
    (fills : List BrokerFill) (reports : List (FillReport rt order clientOrderId)) : Prop where
  settled : w.conn.Settled
  projected : project (sessionRows rt w) = .ok state
  onRecord : state.orders.get? clientOrderId = some known
  room : known.filledQty + (fills.map (fun fill ↦ fill.qty.toRat)).sum ≤ known.submittedQty
  reported : ∀ fill, fill ∈ fills ↔ fill ∈ reports.map FillReport.fill
  inTime : (w.conn.rows ++ reports.map FillReport.event).Pairwise RowLe
  newIds : ((w.conn.rows ++ reports.map FillReport.event).map
    (fun e ↦ e.ledgerEventId)).Nodup
  newFills : ∀ row ∈ w.conn.rows, ∀ r ∈ reports,
    row.idempotencyKey ≠ r.event.idempotencyKey
  kept : KeepsFills order.side known.submittedQty known.filledQty
    (state.position (contractIdFor order.contract)).quantity
    ((firstFills reports).map (fun fill ↦ fill.qty.toRat))

section Reports

variable {w : World β} {state : ProjectionState} {known : OrderLifecycle}
  {fills : List BrokerFill} {reports done : List (FillReport rt order clientOrderId)}

private theorem keptEvents_sublist (hp : done <+: reports) :
    (w.conn.rows ++ keptEvents done).Sublist (w.conn.rows ++ reports.map FillReport.event) :=
  (List.Sublist.refl _).append (((firsts_sublist _ _).trans hp.sublist).map _)

private theorem nodup_keys_keptEvents (done : List (FillReport rt order clientOrderId)) :
    ((keptEvents done).map (fun e ↦ e.idempotencyKey)).Nodup := by
  have h := nodup_map_firsts FillReport.fill done
  unfold keptEvents
  rw [List.map_map]
  unfold List.Nodup at h ⊢
  rw [List.pairwise_map] at h ⊢
  apply h.imp
  intro r r' hne he
  exact hne ((key_eq_iff r r').mp he)

private theorem mem_fills_of_firsts (h : Reportable w state known fills reports)
    (hp : done <+: reports) : ∀ fill ∈ firstFills done, fill ∈ fills := by
  intro fill hf
  rw [h.reported]
  exact (((firsts_sublist FillReport.fill done).trans hp.sublist).map _).subset hf

private theorem qty_nonneg (h : Reportable w state known fills reports) :
    ∀ fill ∈ fills, 0 ≤ fill.qty.toRat := by
  intro fill hf
  obtain ⟨r, -, rfl⟩ := List.mem_map.mp ((h.reported fill).mp hf)
  exact r.event.quantity_nonneg

private theorem sum_map_keptEvents {γ : Type} [AddMonoid γ] (f : ℚ → γ)
    (done : List (FillReport rt order clientOrderId)) :
    (keptEvents done).map (fun e ↦ f e.quantity) =
      (firstFills done).map (fun fill ↦ f fill.qty.toRat) := by
  unfold keptEvents firstFills
  rw [List.map_map, List.map_map]
  rfl

private theorem mem_reports_of_kept (hp : done <+: reports) {e : LedgerEvent}
    (he : e ∈ keptEvents done) : ∃ r ∈ reports, r.event = e := by
  obtain ⟨r, hr, rfl⟩ := List.mem_map.mp he
  exact ⟨r, hp.subset ((firsts_sublist _ _).subset hr), rfl⟩

private theorem id_ne_of_row (h : Reportable w state known fills reports) {row : LedgerEvent}
    (hrow : row ∈ w.conn.rows) {r : FillReport rt order clientOrderId} (hr : r ∈ reports) :
    row.ledgerEventId ≠ r.event.ledgerEventId := by
  have hn := h.newIds
  rw [List.map_append] at hn
  have hdisj := List.disjoint_of_nodup_append hn
  intro he
  apply hdisj (List.mem_map_of_mem hrow)
  rw [he]
  exact List.mem_map_of_mem (List.mem_map_of_mem hr)

private theorem id_ne_of_earlier (h : Reportable w state known fills reports)
    {r r' : FillReport rt order clientOrderId} (hp : done ++ [r] <+: reports) (hr' : r' ∈ done) :
    r'.event.ledgerEventId ≠ r.event.ledgerEventId := by
  have hn := h.newIds
  rw [List.map_append] at hn
  have hdone := ((hp.sublist.map FillReport.event).map (fun e ↦ e.ledgerEventId)).nodup
    hn.of_append_right
  rw [List.map_append, List.map_append] at hdone
  intro he
  apply List.disjoint_of_nodup_append hdone (List.mem_map_of_mem (List.mem_map_of_mem hr'))
  rw [he]
  simp

private theorem keepsFills_keptEvents (h : Reportable w state known fills reports)
    (hp : done <+: reports) : KeepsFills order.side known.submittedQty known.filledQty
      (state.position (contractIdFor order.contract)).quantity
      ((keptEvents done).map (fun e ↦ e.quantity)) := by
  obtain ⟨rest, hrest⟩ := firsts_prefix FillReport.fill hp
  have hall := h.kept
  unfold firstFills at hall
  rw [← hrest, List.map_append, List.map_append] at hall
  have hmap := sum_map_keptEvents (fun q ↦ q) done
  unfold KeepsFills at hall ⊢
  rw [hmap]
  exact (stepsMeet_append.mp hall).1

private theorem projected_keptEvents (h : Reportable w state known fills reports)
    (hp : done <+: reports) :
    ∃ state' known', project ((w.conn.rows ++ keptEvents done).filter
        (fun e ↦ e.sessionId = rt.sessionId)) = .ok state' ∧
      state'.orders.get? clientOrderId = some known' ∧
      known'.filledQty = known.filledQty +
        ((firstFills done).map (fun fill ↦ fill.qty.toRat)).sum ∧
      (state'.position (contractIdFor order.contract)).quantity =
        ((firstFills done).map (fun fill ↦ order.side.signed fill.qty.toRat)).foldl settle
          (state.position (contractIdFor order.contract)).quantity := by
  have hrows : sessionRows rt w = w.conn.rows.filter (fun e ↦ e.sessionId = rt.sessionId) :=
    query_of_pairwise (List.pairwise_append.mp h.inTime).1
  have hproj := h.projected
  rw [hrows] at hproj
  have hkept := keepsFills_keptEvents h hp
  obtain ⟨r₀, hr₀, rfl⟩ := project_eq_ok.mp hproj
  have hkeep : (keptEvents done).filter (fun e ↦ e.sessionId = rt.sessionId) =
      keptEvents done := by
    apply List.filter_eq_self.mpr
    intro e he
    obtain ⟨r, -, rfl⟩ := List.mem_map.mp he
    exact decide_eq_true rfl
  have hfresh : ∀ e ∈ keptEvents done, r₀.Fresh e := by
    intro e he
    obtain ⟨r, hr, rfl⟩ := mem_reports_of_kept hp he
    apply fresh_of_new hr₀
    intro row hrow
    have hmem : row ∈ w.conn.rows := (List.mem_filter.mp hrow).1
    exact ⟨id_ne_of_row h hmem hr, h.newFills row hmem r hr⟩
  have hids : ((keptEvents done).map (fun e ↦ e.ledgerEventId)).Nodup := by
    have hn := ((keptEvents_sublist (w := w) hp).map (fun e ↦ e.ledgerEventId)).nodup h.newIds
    rw [List.map_append] at hn
    exact hn.of_append_right
  have hroom : known.filledQty + ((keptEvents done).map (fun e ↦ e.quantity)).sum ≤
      known.submittedQty := by
    have hsum := sum_distinct_le (nodup_map_firsts FillReport.fill done)
      (mem_fills_of_firsts h hp) (qty_nonneg h)
    have hmap := sum_map_keptEvents (fun q ↦ q) done
    rw [hmap]
    exact (add_le_add_right hsum _).trans h.room
  have hall : ∀ e ∈ keptEvents done,
      e.IsFillOf clientOrderId (contractIdFor order.contract) order.side := by
    intro e he
    obtain ⟨r, -, rfl⟩ := List.mem_map.mp he
    exact isFillOf_event r
  obtain ⟨r', hr', ⟨known', hk', hfilled, -⟩, hpos⟩ :=
    tallied_replay hall hfresh hids (nodup_keys_keptEvents done) h.onRecord hroom
      (by rw [position_freeze] at hkept; exact hkept)
  refine ⟨r'.freeze, known', ?_, hk', ?_, ?_⟩
  · rw [List.filter_append, hkeep]
    apply project_eq_ok.mpr
    refine ⟨r', ?_, rfl⟩
    rw [replay_append, hr₀]
    exact hr'
  · rw [hfilled, sum_map_keptEvents (fun q ↦ q)]
  · rw [position_freeze, position_freeze]
    change (r'.tables.position _).quantity = List.foldl settle (r₀.tables.position _).quantity _
    rw [hpos, sum_map_keptEvents (fun q ↦ order.side.signed q)]

private theorem query_keptEvents (h : Reportable w state known fills reports)
    (hp : done <+: reports) {c : Conn} (hc : c.rows = w.conn.rows ++ keptEvents done)
    (p : LedgerEvent → Bool) : c.query p = (w.conn.rows ++ keptEvents done).filter p := by
  have hsorted : c.rows.Pairwise RowLe := hc ▸ h.inTime.sublist (keptEvents_sublist hp)
  rw [query_of_pairwise hsorted, hc]

private theorem append_event (h : Reportable w state known fills reports)
    {r : FillReport rt order clientOrderId} (hp : done ++ [r] <+: reports) :
    ((append r.event AppendFaults.none).exec
        (.ofRows (w.conn.rows ++ keptEvents done))).1 =
      .ofRows (w.conn.rows ++ keptEvents (done ++ [r])) := by
  have hr : r ∈ reports := hp.subset (by simp)
  have hdone : done <+: reports := (List.prefix_append done [r]).trans hp
  by_cases hseen : r.fill ∈ (firsts FillReport.fill done).map FillReport.fill
  · -- Some row has the key; it is a kept one, and equivalent.
    have hkept : keptEvents (done ++ [r]) = keptEvents done := by
      unfold keptEvents
      rw [firsts_snoc, keepFirst, if_pos hseen]
    rw [hkept, exec_append (Conn.settled_ofRows _)]
    cases hs : Conn.select r.event.idempotencyKey
        (.ofRows (w.conn.rows ++ keptEvents done)) with
    | some row => rfl
    | none =>
      obtain ⟨r', hr', hfill⟩ := List.mem_map.mp hseen
      have hno := List.find?_eq_none.mp hs r'.event
        (List.mem_append_right _ (List.mem_map_of_mem hr'))
      exact absurd (decide_eq_true ((key_eq_iff r' r).mpr hfill)) hno
  · have hfresh : ∀ row ∈ w.conn.rows ++ keptEvents done,
        row.ledgerEventId ≠ r.event.ledgerEventId ∧
          row.idempotencyKey ≠ r.event.idempotencyKey := by
      intro row hrow
      rcases List.mem_append.mp hrow with hrow | hrow
      · exact ⟨id_ne_of_row h hrow hr, h.newFills row hrow r hr⟩
      · obtain ⟨r', hr', rfl⟩ := List.mem_map.mp hrow
        refine ⟨?_, fun he ↦ hseen ?_⟩
        · exact id_ne_of_earlier h hp ((firsts_sublist _ _).subset hr')
        · exact (key_eq_iff r' r).mp he ▸ List.mem_map_of_mem hr'
    have hkept : keptEvents (done ++ [r]) = keptEvents done ++ [r.event] := by
      unfold keptEvents
      rw [firsts_snoc, keepFirst, if_neg hseen, List.map_append, List.map_singleton]
    rw [exec_append_new (Conn.settled_ofRows _) hfresh, hkept]
    simp only [Conn.ofRows, List.append_assoc]

/-- The run: after any number of reports the table holds the events of the first ones. -/
theorem conn_recordReports (h : Reportable w state known fills reports) (hp : done <+: reports) :
    (recordReports w done).conn = .ofRows (w.conn.rows ++ keptEvents done) := by
  induction done using List.reverseRecOn with
  | nil =>
    change w.conn = .ofRows (w.conn.rows ++ [])
    rw [List.append_nil]
    exact h.settled.eq_ofRows
  | append_singleton done r ih =>
    have hdone : done <+: reports := (List.prefix_append done [r]).trans hp
    have hconn := ih hdone
    have hsnoc : recordReports w (done ++ [r]) = recordReport (recordReports w done) r := by
      unfold recordReports
      rw [List.foldl_append]
      rfl
    obtain ⟨state', known', hstate, -⟩ := projected_keptEvents h hdone
    rw [← query_keptEvents h hdone (congrArg Conn.rows hconn)] at hstate
    rw [hsnoc, conn_recordReport hstate, hconn]
    exact append_event h hp

end Reports

end Order

/-- Every fill counts once: the order's filled quantity grew by the sum of all fills, and the
position moved by it. -/
def CountedOnce (rt : ExecutionRuntime) (order : BrokerOrder) (clientOrderId : String)
    (state : ProjectionState) (known : OrderLifecycle) (fills : List BrokerFill)
    (after : World β) : Prop :=
  ∃ state' known', project (sessionRows rt after) = .ok state' ∧
    state'.orders.get? clientOrderId = some known' ∧
    known'.filledQty = known.filledQty + (fills.map (fun fill ↦ fill.qty.toRat)).sum ∧
    (state'.position (contractIdFor order.contract)).quantity =
      (state.position (contractIdFor order.contract)).quantity +
        order.side.signed (fills.map (fun fill ↦ fill.qty.toRat)).sum

/-- No two fills with a quantity agree in type, quantity numeral and price numeral. -/
def FillsApart (fills : List BrokerFill) : Prop :=
  ∀ fill ∈ fills, fill.qty.toRat ≠ 0 → fills.count fill = 1

/-- No fill, taken after the ones before it, closes the position past zero. -/
def NoOverclose (side : Side) (quantity : ℚ) (fills : List BrokerFill) : Prop :=
  ∀ pre fill, pre ++ [fill] <+: fills →
    ¬ Straddles (quantity + side.signed (pre.map (fun fill ↦ fill.qty.toRat)).sum)
      (side.signed fill.qty.toRat)

private theorem sum_signed (side : Side) (qs : List ℚ) :
    (qs.map side.signed).sum = side.signed qs.sum := by
  induction qs with
  | nil => cases side <;> simp [Side.signed]
  | cons q qs ih =>
    rw [List.map_cons, List.sum_cons, List.sum_cons, ih]
    cases side
    · rfl
    · simp only [Side.signed]
      ring

private theorem foldl_settle_iff_noOverclose {side : Side} {quantity : ℚ}
    {fills : List BrokerFill} (h : ∀ fill ∈ fills, 0 ≤ fill.qty.toRat) :
    (fills.map (fun fill ↦ side.signed fill.qty.toRat)).foldl settle quantity =
      quantity + side.signed (fills.map (fun fill ↦ fill.qty.toRat)).sum ↔
    NoOverclose side quantity fills := by
  have hsum (xs : List BrokerFill) : (xs.map (fun fill ↦ side.signed fill.qty.toRat)).sum =
      side.signed (xs.map (fun fill ↦ fill.qty.toRat)).sum := by
    rw [← sum_signed, List.map_map]
    rfl
  have hdirection : (∀ d ∈ fills.map (fun fill ↦ side.signed fill.qty.toRat), 0 ≤ d) ∨
      ∀ d ∈ fills.map (fun fill ↦ side.signed fill.qty.toRat), d ≤ 0 := by
    cases side with
    | buy =>
      left
      intro d hd
      obtain ⟨fill, hf, rfl⟩ := List.mem_map.mp hd
      exact h fill hf
    | sell =>
      right
      intro d hd
      obtain ⟨fill, hf, rfl⟩ := List.mem_map.mp hd
      exact neg_nonpos.mpr (h fill hf)
  rw [← hsum, foldl_settle_eq_iff hdirection]
  constructor
  · intro hall pre fill hp
    have hs := hall (pre.map (fun fill ↦ side.signed fill.qty.toRat))
      (side.signed fill.qty.toRat) (by simpa using hp.map (fun fill ↦ side.signed fill.qty.toRat))
    rwa [hsum] at hs
  · intro hall pre d hp
    obtain ⟨xs, hxs, he⟩ := List.prefix_map_iff.mp hp
    cases xs using List.reverseRecOn with
    | nil => simp at he
    | append_singleton pre' fill =>
      rw [List.map_append, List.map_singleton] at he
      obtain ⟨rfl, hd⟩ := List.append_inj' he rfl
      cases hd
      rw [hsum]
      exact hall pre' fill hxs

/-- However often and in whatever order the fills of an order are reported, each counts exactly
once exactly when no two of them agree in type, quantity and price, and none of them closes
the position past zero. -/
theorem fills_counted_once_iff {rt : ExecutionRuntime} {order : BrokerOrder}
    {clientOrderId : String} {w : World β} {state : ProjectionState} {known : OrderLifecycle}
    {fills : List BrokerFill} {reports : List (FillReport rt order clientOrderId)}
    (h : Reportable w state known fills reports) :
    CountedOnce rt order clientOrderId state known fills (recordReports w reports) ↔
      FillsApart fills ∧
        NoOverclose order.side (state.position (contractIdFor order.contract)).quantity
          (firstFills reports) := by
  obtain ⟨state', known', hstate, hk, hfilled, hpos⟩ :=
    projected_keptEvents h (List.prefix_refl reports)
  rw [← query_keptEvents h (List.prefix_refl reports)
    (congrArg Conn.rows (conn_recordReports h (List.prefix_refl reports)))] at hstate
  have hmem : ∀ fill, fill ∈ firstFills reports ↔ fill ∈ fills := fun fill ↦
    mem_map_firsts.trans (h.reported fill).symm
  have hapart : ((firstFills reports).map (fun fill ↦ fill.qty.toRat)).sum =
      (fills.map (fun fill ↦ fill.qty.toRat)).sum ↔ FillsApart fills :=
    sum_distinct_eq_iff (nodup_map_firsts FillReport.fill reports) hmem (qty_nonneg h)
  have hclose := @foldl_settle_iff_noOverclose order.side
    (state.position (contractIdFor order.contract)).quantity (firstFills reports)
    (fun fill hf ↦ qty_nonneg h fill ((hmem fill).mp hf))
  constructor
  · rintro ⟨state'', known'', hstate'', hk'', hfilled'', hpos''⟩
    unfold sessionRows at hstate''
    rw [hstate] at hstate''
    cases hstate''
    rw [hk] at hk''
    cases hk''
    rw [hfilled, add_right_inj, hapart] at hfilled''
    rw [hpos, ← hapart.mpr hfilled'', hclose] at hpos''
    exact ⟨hfilled'', hpos''⟩
  · rintro ⟨ha, hc⟩
    refine ⟨state', known', hstate, hk, ?_, ?_⟩
    · rw [hfilled, hapart.mpr ha]
    · rw [hpos, hclose.mpr hc, hapart.mpr ha]

/-! ### Samples -/

/-- An open order to buy three. -/
def threeBought : BrokerOrder :=
  { BrokerOrder.ofIntent "o" .open ExecutionCommand.sample.intent with quantity := 3 }

/-- The ledger with the order's submission. -/
def threeSubmitted : World Unit :=
  { World.new () with
    conn := .ofRows [⟨eventFields ⟨0, "s", "a"⟩ (Stamp.sample "submission" 0)
      .orderSubmissionRequested "a" "c" (contractIdFor threeBought.contract) .buy 3 "submit-req:c"
      none none Dict.empty, by decide +kernel⟩] }

/-- The projection of that ledger. -/
def threeProjected : ProjectionState :=
  (run Replay.next Replay.start threeSubmitted.conn.rows).freeze

/-- The order in that projection. -/
def threeKnown : OrderLifecycle :=
  { clientOrderId := "c"
    status := .submitted
    submittedQty := 3
    filledQty := 0
    avgFillPrice := none
    fees := 0
    side := .buy
    contractId := contractIdFor threeBought.contract
    brokerOrderId := none }

/-- A fill of so many at a dollar and a half. -/
def BrokerFill.sample (qty : ℕ) (final : Bool) : BrokerFill :=
  ⟨⟨false, qty, 0⟩, ⟨false, 15, -1⟩, final⟩

/-- A report of a fill of the order, in a runtime of the session. -/
abbrev SampleReport := FillReport ⟨0, "s", "a"⟩ threeBought "c"

/-- A fill of one reported twice, and the final fill of two. -/
def reportedTwice : List SampleReport :=
  [⟨.sample 1 false, .sample "r1" 1, by decide +kernel, rfl⟩,
    ⟨.sample 1 false, .sample "r2" 2, by decide +kernel, rfl⟩,
    ⟨.sample 2 true, .sample "r3" 3, by decide +kernel, rfl⟩]

private theorem reportable_reportedTwice : Reportable threeSubmitted threeProjected threeKnown
    [.sample 1 false, .sample 2 true] reportedTwice where
  settled := rfl
  projected := by decide +kernel
  onRecord := by decide +kernel
  room := by decide +kernel
  reported := by simp [reportedTwice]
  inTime := by decide +kernel
  newIds := by decide +kernel
  newFills := by decide +kernel
  kept := by decide +kernel

/-- The equivalence at a fill that is reported twice. -/
theorem fills_counted_once_reportedTwice :
    CountedOnce ⟨0, "s", "a"⟩ threeBought "c" threeProjected threeKnown
        [.sample 1 false, .sample 2 true] (recordReports threeSubmitted reportedTwice) ↔
      FillsApart [.sample 1 false, .sample 2 true] ∧
        NoOverclose .buy (threeProjected.position (contractIdFor threeBought.contract)).quantity
          (firstFills reportedTwice) :=
  fills_counted_once_iff reportable_reportedTwice

/-- Two partial fills of one at one price, and a final fill. -/
def equalPartials : List SampleReport :=
  [⟨.sample 1 false, .sample "r1" 1, by decide +kernel, rfl⟩,
    ⟨.sample 1 false, .sample "r2" 2, by decide +kernel, rfl⟩,
    ⟨.sample 1 true, .sample "r3" 3, by decide +kernel, rfl⟩]

/-- The second of two equal partial fills is taken for a repetition of the first. -/
theorem not_countedOnce_of_equalPartials :
    Reportable threeSubmitted threeProjected threeKnown
      [.sample 1 false, .sample 1 false, .sample 1 true] equalPartials ∧
    ¬ CountedOnce ⟨0, "s", "a"⟩ threeBought "c" threeProjected threeKnown
      [.sample 1 false, .sample 1 false, .sample 1 true]
      (recordReports threeSubmitted equalPartials) := by
  constructor
  · exact
      { settled := rfl
        projected := by decide +kernel
        onRecord := by decide +kernel
        room := by decide +kernel
        reported := by simp [equalPartials]
        inTime := by decide +kernel
        newIds := by decide +kernel
        newFills := by decide +kernel
        kept := by decide +kernel }
  · rintro ⟨state', known', hp, hk, hfilled, -⟩
    have htwo : (project (sessionRows ⟨0, "s", "a"⟩
        (recordReports threeSubmitted equalPartials))).toOption.bind
          (fun state ↦ (state.orders.get? "c").map (fun known ↦ known.filledQty)) = some 2 := by
      decide +kernel
    rw [hp] at htwo
    simp only [Except.toOption, Option.bind_some, hk, Option.map_some, Option.some.injEq] at htwo
    rw [htwo] at hfilled
    exact absurd hfilled (by decide +kernel)

end Joker.Runtime
