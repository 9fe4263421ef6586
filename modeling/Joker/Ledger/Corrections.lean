import Joker.Ledger.ReconcileSoundness

/-!
# Convergence of position corrections

Library `Ledger`. Whether the correction events of a report, appended and projected again,
bring every position to the broker's quantity. A mismatch and an unexpected position carry the
broker's quantity and converge. A position missing at the broker carries none: its correction
sets the projected quantity again, so the two sides never meet.
-/

namespace Joker.Ledger

open Joker.Base

/-- New rows of the ledger table: ids and idempotency keys differ from the rows before and
from each other. -/
def NewRows (events corrections : List LedgerEvent) : Prop :=
  (corrections.map (fun e ↦ e.ledgerEventId)).Nodup ∧
  (corrections.map (fun e ↦ e.idempotencyKey)).Nodup ∧
  ∀ c ∈ corrections, ∀ e ∈ events,
    c.ledgerEventId ≠ e.ledgerEventId ∧ c.idempotencyKey ≠ e.idempotencyKey

/-- The broker reports every contract the ledger holds open. -/
def OpenPositionsReported (st : ProjectionState) (brokerPositions : List BrokerPositionView) :
    Prop :=
  ∀ c pos, st.positions.get? c = some pos → pos.isOpen = true → pos.quantity ≠ 0 →
    ∃ bp ∈ brokerPositions, bp.contractId = c

/-! ### One correction -/

/-- The quantity that the projector reads from the side and the amount of a correction. -/
def carriedQuantity [DecimalContext] (quantity : ℚ) : ℚ :=
  (if quantity < 0 then Side.sell else .buy).signedDecimal (correctionAmount quantity)

/-- The quantity a position correction sets. -/
def correctionTarget [DecimalContext] (finding : ReconciliationFinding) : ℚ :=
  match finding.brokerQuantity with
  | some quantity => quantity.toRat
  | none => carriedQuantity (correctionQuantity finding)

/-- An event built from a finding, whatever was drawn for it. -/
def Corrects [DecimalContext] (f : ReconciliationFinding) (e : LedgerEvent) : Prop :=
  ∃ report account source eventId createdAt,
    e.toEventFields = correctionFields report account source eventId createdAt f

private def baseEntries (f : ReconciliationFinding) : List (String × MetaValue) :=
  [("correction_kind", MetaValue.str (correctionKind f)), ("outcome", .str f.outcome.value),
    ("entity_type", .str f.entityType), ("entity_id", .str f.entityId),
    ("detail", .str f.detail)]

/-- The status that a finding reports, in its metadata. -/
private def addStatus (f : ReconciliationFinding) (m : Metadata) : Metadata :=
  match f.brokerStatus with
  | some status => m.set "status" (.str status)
  | none => m

private theorem get?_addStatus (f : ReconciliationFinding) (m : Metadata) (k : String)
    (hm : m.get? "status" = none) :
    (addStatus f m).get? k =
      if k = "status" then f.brokerStatus.map (fun status ↦ .str status) else m.get? k := by
  unfold addStatus
  cases f.brokerStatus with
  | none =>
    by_cases hk : k = "status"
    · simp [hk, hm]
    · simp [hk]
  | some status =>
    by_cases hk : k = "status"
    · simp [hk]
    · simp [hk, Ne.symm hk]

private theorem get?_correctionMetadata (f : ReconciliationFinding) :
    (correctionMetadata f).get? "correction_kind" = some (.str (correctionKind f)) ∧
    (correctionMetadata f).get? "status" = f.brokerStatus.map (fun status ↦ .str status) ∧
    (f.entityType = "position" → (correctionMetadata f).get? "absolute_quantity" =
      f.brokerQuantity.map (fun q ↦ .str q.str)) := by
  have hk : (Dict.ofList (baseEntries f)).get? "correction_kind" =
      some (.str (correctionKind f)) :=
    (Dict.get?_ofList_eq_some_iff _ (by simp [baseEntries]) _ _).mpr (by simp [baseEntries])
  have hs : (Dict.ofList (baseEntries f)).get? "status" = none :=
    Dict.get?_ofList_eq_none _ _ (by simp [baseEntries])
  have ha : (Dict.ofList (baseEntries f)).get? "absolute_quantity" = none :=
    Dict.get?_ofList_eq_none _ _ (by simp [baseEntries])
  -- The two later assignments use keys of their own.
  have h₁ := get?_addStatus f _ "correction_kind" hs
  have h₂ := get?_addStatus f _ "status" hs
  have h₃ := get?_addStatus f _ "absolute_quantity" hs
  rw [if_neg (by decide), hk] at h₁
  rw [if_pos rfl] at h₂
  rw [if_neg (by decide), ha] at h₃
  unfold addStatus baseEntries at h₁ h₂ h₃
  unfold correctionMetadata
  simp only
  cases f.brokerQuantity with
  | none => exact ⟨h₁, h₂, fun _ ↦ h₃⟩
  | some q =>
    simp only
    split
    · refine ⟨?_, ?_, fun _ ↦ Dict.get?_set_self _ _ _⟩
      · exact (Dict.get?_set_ne _ _ (by decide)).trans h₁
      · exact (Dict.get?_set_ne _ _ (by decide)).trans h₂
    · next hp => exact ⟨h₁, h₂, fun h ↦ absurd h hp⟩

/-- What the projector reads from the correction of a finding. -/
theorem fields_of_corrects [DecimalContext] {f : ReconciliationFinding} {e : LedgerEvent}
    (h : Corrects f e) :
    e.eventType = .reconciliationCorrection ∧ e.contractId = f.entityId ∧
      correctionKindOf e = correctionKind f ∧
      (f.entityType = "position" → correctedQuantity e = .ok (correctionTarget f)) := by
  obtain ⟨report, account, source, eventId, createdAt, he⟩ := h
  have hm : e.metadata = correctionMetadata f := by rw [he]; rfl
  obtain ⟨hkind, -, habs⟩ := get?_correctionMetadata f
  refine ⟨by rw [he]; rfl, by rw [he]; rfl, ?_, ?_⟩
  · unfold correctionKindOf
    rw [hm, hkind]
    rfl
  · intro hp
    unfold correctedQuantity correctionTarget
    rw [hm, habs hp]
    cases hq : f.brokerQuantity with
    | some q =>
      simp only [Option.map_some, MetaValue.text, Decimal.ofStr_str]
    | none =>
      have hside : e.side = if correctionQuantity f < 0 then Side.sell else .buy := by
        rw [he]; rfl
      have hqty : e.quantity = correctionAmount (correctionQuantity f) := by rw [he]; rfl
      simp only [Option.map_none, hside, hqty]
      rfl

/-- What the projector reads from it about an order. -/
theorem orderFields_of_corrects [DecimalContext] {f : ReconciliationFinding} {e : LedgerEvent}
    (h : Corrects f e) :
    (e.clientOrderId =
      if f.entityType = "order" then f.entityId else "recon-" ++ f.entityId) ∧
    e.quantity = correctionAmount (correctionQuantity f) ∧ e.price = none ∧ e.fees = none ∧
    e.metadata.get? "status" = f.brokerStatus.map (fun status ↦ .str status) := by
  obtain ⟨report, account, source, eventId, createdAt, he⟩ := h
  have hm : e.metadata = correctionMetadata f := by rw [he]; rfl
  refine ⟨by rw [he]; rfl, by rw [he]; rfl, by rw [he]; rfl, by rw [he]; rfl, ?_⟩
  rw [hm]
  exact (get?_correctionMetadata f).2.1

private theorem applyCorrection_ok [DecimalContext] {e : LedgerEvent} (t : Tables)
    (h : correctionKindOf e = "position_quantity" → ∃ q, correctedQuantity e = .ok q) :
    ∃ t', applyCorrection e t = .ok t' := by
  unfold applyCorrection
  by_cases hk : correctionKindOf e = "position_quantity"
  · obtain ⟨q, hq⟩ := h hk
    rw [if_pos hk, hq]
    exact ⟨_, rfl⟩
  · rw [if_neg hk]
    exact ⟨_, rfl⟩

private theorem kind_eq_position_iff {f : ReconciliationFinding}
    (hent : f.entityType = "position" ∨ f.entityType = "order") :
    correctionKind f = "position_quantity" ↔ f.entityType = "position" := by
  unfold correctionKind
  rcases hent with h | h
  · simp [h]
  · by_cases hq : f.outcome = .quantityMismatch <;> simp [h, hq]

private theorem quantity_applyCorrection [DecimalContext] {f : ReconciliationFinding}
    {e : LedgerEvent} (hent : f.entityType = "position" ∨ f.entityType = "order") (h : Corrects f e)
    (t : Tables) :
    ∃ t', applyEvent e t = .ok t' ∧ ∀ c, (t'.position c).quantity =
      if f.entityType = "position" ∧ f.entityId = c then correctionTarget f
      else (t.position c).quantity := by
  obtain ⟨htype, hcontract, hkind, htarget⟩ := fields_of_corrects h
  rw [kind_eq_position_iff hent |>.symm, ← hkind] at htarget
  obtain ⟨t', ht⟩ := applyCorrection_ok t (fun hk ↦ ⟨_, htarget hk⟩)
  refine ⟨t', by simpa only [applyEvent, htype] using ht, ?_⟩
  intro c
  have hpos : f.entityType = "position" ∧ f.entityId = c ↔
      correctionKindOf e = "position_quantity" ∧ e.contractId = c := by
    rw [hkind, kind_eq_position_iff hent, hcontract]
  rcases holding_applyCorrection ht c with ⟨hn, hh⟩ | ⟨hk, hc, q, hq, hh⟩
  · rw [if_neg (fun h ↦ hn (hpos.mp h))]
    exact congrArg Holding.quantity hh
  · rw [if_pos (hpos.mpr ⟨hk, hc⟩)]
    rw [htarget hk] at hq
    cases hq
    exact congrArg Holding.quantity hh

/-! ### All corrections of a report -/

/-- The loop builds one event for each finding that is not consistent. -/
theorem corrects_correctionLoop [DecimalContext] {report : ReconciliationReport} {account : String}
    {source : Option Uuid} {fresh : Nat → Uuid × Datetime} {i : Nat}
    {findings : List ReconciliationFinding} {corrections : List LedgerEvent}
    (h : correctionLoop report account source fresh i findings = some corrections) :
    List.Forall₂ Corrects (findings.filter (fun f ↦ f.outcome ≠ .consistent)) corrections := by
  induction findings generalizing i corrections with
  | nil =>
    cases h
    exact List.Forall₂.nil
  | cons f rest ih =>
    unfold correctionLoop at h
    by_cases hf : f.outcome = .consistent
    · rw [if_pos hf] at h
      rw [List.filter_cons_of_neg (by simpa using hf)]
      exact ih h
    · rw [if_neg hf] at h
      rw [List.filter_cons_of_pos (by simpa using hf)]
      split at h
      · next e he =>
        obtain ⟨es, hes, rfl⟩ := Option.map_eq_some_iff.mp h
        exact List.Forall₂.cons ⟨report, account, source, _, _, makeLedgerEvent_eq_some he⟩
          (ih hes)
      · cases h

/-- Corrections that are fresh stay fresh after the first of them. -/
theorem fresh_after {r : Replay} {e : LedgerEvent} {rest : List LedgerEvent}
    (hid : ((e :: rest).map (fun e ↦ e.ledgerEventId)).Nodup)
    (hkey : ((e :: rest).map (fun e ↦ e.idempotencyKey)).Nodup)
    (h : ∀ c ∈ e :: rest, r.Fresh c) (t : Tables) :
    ∀ c ∈ rest, (Replay.mk t (insert e.ledgerEventId r.seenIds)
      (insert e.idempotencyKey r.seenKeys)).Fresh c := by
  intro c hc
  obtain ⟨h1, h2⟩ := h c (List.mem_cons_of_mem e hc)
  rw [List.map_cons, List.nodup_cons] at hid hkey
  constructor
  · simp only [Finset.mem_insert, not_or]
    exact ⟨fun he ↦ hid.1 (he ▸ List.mem_map.mpr ⟨c, hc, rfl⟩), h1⟩
  · simp only [Finset.mem_insert, not_or]
    exact ⟨fun he ↦ hkey.1 (he ▸ List.mem_map.mpr ⟨c, hc, rfl⟩), h2⟩

/-- Replaying new corrections leaves every contract at the one target its position findings
agree on, or where it was when it has none. -/
theorem quantity_replay_corrections [DecimalContext] {findings : List ReconciliationFinding}
    {corrections : List LedgerEvent} (hc : List.Forall₂ Corrects findings corrections)
    (hent : ∀ f ∈ findings, f.entityType = "position" ∨ f.entityType = "order")
    (hid : (corrections.map (fun e ↦ e.ledgerEventId)).Nodup)
    (hkey : (corrections.map (fun e ↦ e.idempotencyKey)).Nodup) (r : Replay)
    (hf : ∀ e ∈ corrections, r.Fresh e) :
    ∃ r', replay r corrections = .ok r' ∧ ∀ c q,
      (∀ f ∈ findings, f.entityType = "position" → f.entityId = c → correctionTarget f = q) →
      ((∃ f ∈ findings, f.entityType = "position" ∧ f.entityId = c) ∨
        (r.tables.position c).quantity = q) →
      (r'.tables.position c).quantity = q := by
  induction hc generalizing r with
  | nil =>
    refine ⟨r, rfl, ?_⟩
    rintro c q - (⟨f, hm, -⟩ | h)
    · cases hm
    · exact h
  | @cons f e fs es hfe _ ih =>
    obtain ⟨t', ht, hq⟩ := quantity_applyCorrection (hent f List.mem_cons_self) hfe r.tables
    have hfresh := hf e List.mem_cons_self
    obtain ⟨r', hr, hrest⟩ := ih (fun g hg ↦ hent g (List.mem_cons_of_mem f hg))
      (List.nodup_cons.mp hid).2 (List.nodup_cons.mp hkey).2
      ⟨t', insert e.ledgerEventId r.seenIds, insert e.idempotencyKey r.seenKeys⟩
      (fresh_after hid hkey hf t')
    refine ⟨r', by simpa only [replay, Replay.step, if_pos hfresh, ht] using hr, ?_⟩
    intro c q htgt hsome
    apply hrest c q (fun g hg ↦ htgt g (List.mem_cons_of_mem f hg))
    by_cases hin : ∃ g ∈ fs, g.entityType = "position" ∧ g.entityId = c
    · exact Or.inl hin
    · right
      change (t'.position c).quantity = q
      rw [hq c]
      split
      · next hpos => exact htgt f List.mem_cons_self hpos.1 hpos.2
      · next hpos =>
        rcases hsome with ⟨g, hg, hgp⟩ | h
        · rcases List.mem_cons.mp hg with rfl | hg
          · exact absurd hgp hpos
          · exact absurd ⟨g, hg, hgp⟩ hin
        · exact h

/-! ### Targets -/

private theorem entityType_compareOrder (order : OrderLifecycle) (bo : BrokerOpenOrderView) :
    ∀ f ∈ compareOrder order bo, f.entityType = "order" := by
  unfold compareOrder
  by_cases hq : order.filledQty = bo.filledQty.toRat <;>
    by_cases hs : statusesCompatible order.status bo.status = true <;> simp [hq, hs]

private theorem entityType_orderFindings {st : ProjectionState}
    {brokerOrders : List BrokerOpenOrderView} :
    ∀ f ∈ orderFindings st brokerOrders, f.entityType = "order" := by
  intro f hf
  rcases List.mem_append.mp hf with hf | hf
  · obtain ⟨e, -, hf⟩ := List.mem_flatMap.mp hf
    unfold activeOrderFindings at hf
    split at hf
    · rw [List.mem_singleton.mp hf]
    · exact entityType_compareOrder _ _ f hf
  · obtain ⟨bo, -, hf⟩ := List.mem_flatMap.mp hf
    unfold brokerOrderFindings at hf
    split at hf
    · cases hf
    · split at hf
      · cases hf
      · rw [List.mem_singleton.mp hf]

/-- The position findings of a report: a reported contract, or an open one that the broker
lacks. -/
theorem positionFindings_cases {st : ProjectionState} {bps : List BrokerPositionView}
    {f : ReconciliationFinding} (hf : f ∈ positionFindings st bps) :
    f.entityType = "position" ∧
    ((∃ bp ∈ bps, bp.contractId = f.entityId ∧ f.brokerQuantity = some bp.quantity) ∨
      ((∀ bp ∈ bps, bp.contractId ≠ f.entityId) ∧ f.outcome = .missingBrokerPosition ∧
        f.brokerQuantity = none ∧
        f.projectedQuantity = some (st.position f.entityId).quantity ∧
        (st.position f.entityId).quantity ≠ 0)) := by
  rcases List.mem_append.mp hf with hf | hf
  · obtain ⟨⟨c, pos⟩, hm, rfl⟩ := List.mem_map.mp hf
    obtain ⟨hp, -, hq⟩ := mem_projectedOpenPositions.mp hm
    have hpos : (st.position c).quantity = pos.quantity := by
      simp only [ProjectionState.position, ensurePosition, hp, Option.getD_some]
    unfold openPositionFinding
    cases hb : (brokerPosByContract bps).get? c with
    | none =>
      refine ⟨rfl, Or.inr ⟨?_, rfl, rfl, congrArg some hpos.symm, hpos ▸ hq⟩⟩
      intro bp hbp hbc
      have hs : ((brokerPosByContract bps).get? c).isSome = true := Dict.isSome_get?_ofList
        (List.mem_map.mpr ⟨(bp.contractId, bp), List.mem_map.mpr ⟨bp, hbp, rfl⟩, hbc⟩)
      rw [hb] at hs
      cases hs
    | some bp =>
      obtain ⟨bp', hbp, he⟩ := List.mem_map.mp (Dict.mem_of_get?_ofList hb)
      obtain ⟨rfl, rfl⟩ := Prod.mk.inj he
      simp only
      split
      · exact ⟨rfl, Or.inl ⟨bp', hbp, rfl, rfl⟩⟩
      · exact ⟨rfl, Or.inl ⟨bp', hbp, rfl, rfl⟩⟩
  · obtain ⟨bp, hm, hf⟩ := List.mem_flatMap.mp hf
    unfold brokerPositionFindings at hf
    split at hf
    · cases hf
    · split at hf
      · cases hf
      · rw [List.mem_singleton.mp hf]
        exact ⟨rfl, Or.inl ⟨bp, hm, rfl, rfl⟩⟩

private theorem target_of_reported [DecimalContext] {f : ReconciliationFinding} {q : Decimal}
    (h : f.brokerQuantity = some q) : correctionTarget f = q.toRat := by
  unfold correctionTarget
  rw [h]

private theorem target_of_missing [DecimalContext] {f : ReconciliationFinding} {p : ℚ}
    (hb : f.brokerQuantity = none) (hp : f.projectedQuantity = some p) :
    correctionTarget f = carriedQuantity p := by
  unfold correctionTarget correctionQuantity
  rw [hb, hp]
  rfl

private theorem carriedQuantity_ne_zero [DecimalContext] {p : ℚ} (h : p ≠ 0) :
    carriedQuantity p ≠ 0 := by
  unfold carriedQuantity correctionAmount
  by_cases hneg : p < 0
  · rw [if_pos hneg, if_pos hneg]
    exact rounded_ne_zero (neg_ne_zero.mpr (rounded_ne_zero (abs_ne_zero.mpr h)))
  · rw [if_neg hneg, if_neg hneg]
    exact h

/-! ### Convergence -/

/-- New rows are fresh. -/
theorem fresh_of_newRows [DecimalContext] {events corrections : List LedgerEvent} {r : Replay}
    (hr : replay Replay.start events = .ok r) (h : NewRows events corrections) :
    ∀ c ∈ corrections, r.Fresh c := by
  intro c hc
  apply fresh_of_new hr
  intro e he
  exact ⟨(h.2.2 c hc e he).1.symm, (h.2.2 c hc e he).2.symm⟩

private theorem reported_of_quantity {st : ProjectionState} {bps : List BrokerPositionView}
    (hrep : OpenPositionsReported st bps) (hh : NoHiddenQuantity st) {c : String}
    (hq : (st.position c).quantity ≠ 0) : ∃ bp ∈ bps, bp.contractId = c := by
  cases hp : st.positions.get? c with
  | none =>
    exact absurd (by simp [ProjectionState.position, ensurePosition, hp, PositionState.new]) hq
  | some pos =>
    have hpq : pos.quantity ≠ 0 := by
      simpa only [ProjectionState.position, ensurePosition, hp, Option.getD_some] using hq
    refine hrep c pos hp ?_ hpq
    cases ho : pos.isOpen with
    | true => rfl
    | false => exact absurd (hh pos ((Dict.mem_values_iff _ _).mpr ⟨c, hp⟩) ho) hpq

section Report

variable {events corrections : List LedgerEvent} {st : ProjectionState} {sessionId : String}
  {brokerOrders : List BrokerOpenOrderView} {brokerPositions : List BrokerPositionView}
  {ts : Option Datetime} {now : Datetime} {reportId : Uuid} {report : ReconciliationReport}
  {account : String} {source : Option Uuid} {fresh : Nat → Uuid × Datetime}

/-- The position findings of a report. -/
theorem mem_findings_position
    (hrep : reconcile sessionId st brokerOrders brokerPositions ts now reportId = .ok report)
    {f : ReconciliationFinding} :
    f ∈ report.findings ∧ f.entityType = "position" ↔ f ∈ positionFindings st brokerPositions := by
  rw [(reconcile_eq_ok hrep).1, List.mem_append]
  constructor
  · rintro ⟨ho | hf, ht⟩
    · rw [entityType_orderFindings f ho] at ht
      exact absurd ht (by decide)
    · exact hf
  · exact fun hf ↦ ⟨Or.inr hf, (positionFindings_cases hf).1⟩

/-- The order findings of a report. -/
theorem mem_findings_order
    (hrep : reconcile sessionId st brokerOrders brokerPositions ts now reportId = .ok report)
    {f : ReconciliationFinding} :
    f ∈ report.findings ∧ f.entityType = "order" ↔ f ∈ orderFindings st brokerOrders := by
  rw [(reconcile_eq_ok hrep).1, List.mem_append]
  constructor
  · rintro ⟨hf | hp, ht⟩
    · exact hf
    · rw [(positionFindings_cases hp).1] at ht
      exact absurd ht (by decide)
  · exact fun hf ↦ ⟨Or.inl hf, entityType_orderFindings f hf⟩

/-- A report is about positions and orders. -/
theorem entityType_findings
    (hrep : reconcile sessionId st brokerOrders brokerPositions ts now reportId = .ok report) :
    ∀ f ∈ report.findings.filter (fun f ↦ f.outcome ≠ .consistent),
      f.entityType = "position" ∨ f.entityType = "order" := by
  intro f hf
  have hf := (List.mem_filter.mp hf).1
  rw [(reconcile_eq_ok hrep).1] at hf
  rcases List.mem_append.mp hf with ho | hp
  · exact Or.inr (entityType_orderFindings f ho)
  · exact Or.inl (positionFindings_cases hp).1

/-- The ledger with the corrections of a report appended projects, and leaves every contract at
the one target its position findings agree on, or where it was when it has none. -/
theorem quantity_project_corrections [DecimalContext] (hst : project events = .ok st)
    (hrep : reconcile sessionId st brokerOrders brokerPositions ts now reportId = .ok report)
    (hcor : report.correctionEvents account source fresh = some corrections)
    (hnew : NewRows events corrections) :
    ∃ st', project (events ++ corrections) = .ok st' ∧ ∀ c q,
      (∀ f ∈ positionFindings st brokerPositions, f.entityId = c → correctionTarget f = q) →
      ((∃ f ∈ positionFindings st brokerPositions, f.outcome ≠ .consistent ∧ f.entityId = c) ∨
        (st.position c).quantity = q) →
      (st'.position c).quantity = q := by
  obtain ⟨r, hr, rfl⟩ := project_eq_ok.mp hst
  obtain ⟨r', hr', hquant⟩ := quantity_replay_corrections (corrects_correctionLoop hcor)
    (entityType_findings hrep) hnew.1 hnew.2.1 r (fresh_of_newRows hr hnew)
  refine ⟨r'.freeze, project_eq_ok.mpr ⟨r', ?_, rfl⟩, ?_⟩
  · rw [replay_append, hr]
    exact hr'
  · intro c q htarget hsome
    rw [position_freeze]
    apply hquant c q
    · intro f hf ht hfc
      exact htarget f ((mem_findings_position hrep).mp ⟨(List.mem_filter.mp hf).1, ht⟩) hfc
    · rcases hsome with ⟨f, hf, hout, hfc⟩ | hq
      · obtain ⟨hin, ht⟩ := (mem_findings_position hrep).mpr hf
        exact Or.inl ⟨f, List.mem_filter.mpr ⟨hin, by simpa using hout⟩, ht, hfc⟩
      · rw [position_freeze] at hq
        exact Or.inr hq

/-- An open contract that the broker lacks has a finding, and keeps a quantity in the ledger. -/
theorem quantity_of_missing [DecimalContext] {st' : ProjectionState}
    (hquant : ∀ c q,
      (∀ f ∈ positionFindings st brokerPositions, f.entityId = c → correctionTarget f = q) →
      ((∃ f ∈ positionFindings st brokerPositions, f.outcome ≠ .consistent ∧ f.entityId = c) ∨
        (st.position c).quantity = q) →
      (st'.position c).quantity = q)
    (hcid : (brokerPositions.map (fun bp ↦ bp.contractId)).Nodup) {c : String}
    {pos : PositionState} (hp : st.positions.get? c = some pos) (ho : pos.isOpen = true)
    (hqty : pos.quantity ≠ 0) (hun : ∀ bp ∈ brokerPositions, bp.contractId ≠ c) :
    ∃ f ∈ positionFindings st brokerPositions, f.entityId = c ∧ (st'.position c).quantity ≠ 0 := by
  obtain ⟨f, hf, hfc⟩ : ∃ f ∈ positionFindings st brokerPositions, f.entityId = c := by
    by_contra hno
    have hz : openQuantity st c = brokerQuantity brokerPositions c :=
      (consistent_at_iff hcid c).mp (fun f hf hc ↦ absurd ⟨f, hf, hc⟩ hno)
    rw [brokerQuantity_of_not_mem hun] at hz
    simp only [openQuantity, hp, if_pos (And.intro ho hqty)] at hz
    exact hqty hz
  have htarget : ∀ g ∈ positionFindings st brokerPositions, g.entityId = c →
      g.outcome = .missingBrokerPosition ∧
        correctionTarget g = carriedQuantity (st.position c).quantity ∧
        (st.position c).quantity ≠ 0 := by
    intro g hg hgc
    obtain ⟨-, ⟨bp, hm, hbc, -⟩ | ⟨-, hout, hb, hpq, hne⟩⟩ := positionFindings_cases hg
    · exact absurd (hbc.trans hgc) (hun bp hm)
    · subst hgc
      exact ⟨hout, target_of_missing hb hpq, hne⟩
  obtain ⟨hout, -, hne⟩ := htarget f hf hfc
  refine ⟨f, hf, hfc, ?_⟩
  rw [hquant c _ (fun g hg hgc ↦ (htarget g hg hgc).2.1)
    (Or.inl ⟨f, hf, by rw [hout]; decide, hfc⟩)]
  exact carriedQuantity_ne_zero hne

/-- Where the broker reports every open contract, the corrections reach its quantities. -/
theorem quantity_of_reported [DecimalContext] {st' : ProjectionState}
    (hquant : ∀ c q,
      (∀ f ∈ positionFindings st brokerPositions, f.entityId = c → correctionTarget f = q) →
      ((∃ f ∈ positionFindings st brokerPositions, f.outcome ≠ .consistent ∧ f.entityId = c) ∨
        (st.position c).quantity = q) →
      (st'.position c).quantity = q)
    (hcid : (brokerPositions.map (fun bp ↦ bp.contractId)).Nodup) (hhidden : NoHiddenQuantity st)
    (hreported : OpenPositionsReported st brokerPositions) (c : String) :
    (st'.position c).quantity = brokerQuantity brokerPositions c := by
  apply hquant
  · intro g hg hgc
    obtain ⟨-, ⟨bp, hm, hbc, hb⟩ | ⟨hun, -, -, -, hne⟩⟩ := positionFindings_cases hg
    · rw [target_of_reported hb, ← hgc, ← hbc, brokerQuantity_of_mem hcid hm]
    · obtain ⟨bp, hm, hbc⟩ := reported_of_quantity hreported hhidden hne
      exact absurd hbc (hun bp hm)
  · by_cases hex : ∃ f ∈ positionFindings st brokerPositions, f.outcome ≠ .consistent ∧
        f.entityId = c
    · exact Or.inl hex
    · right
      rw [(noHiddenQuantity_iff st).mp hhidden c]
      apply (consistent_at_iff hcid c).mp
      intro f hf hfc
      by_contra hout
      exact hex ⟨f, hf, hout, hfc⟩

end Report

/-- Position corrections converge exactly when the broker reports every contract the ledger
holds open: only then does projecting the ledger with all corrections of the report appended
reach the broker's quantities and reconcile without position findings. -/
theorem positionCorrections_converge_iff [DecimalContext] {events corrections : List LedgerEvent}
    {st : ProjectionState} {sessionId : String} {brokerOrders : List BrokerOpenOrderView}
    {brokerPositions : List BrokerPositionView} {ts : Option Datetime} {now : Datetime}
    {reportId : Uuid} {report : ReconciliationReport} {account : String} {source : Option Uuid}
    {fresh : Nat → Uuid × Datetime}
    (hst : project events = .ok st)
    (hcid : (brokerPositions.map (fun bp ↦ bp.contractId)).Nodup)
    (hrep : reconcile sessionId st brokerOrders brokerPositions ts now reportId = .ok report)
    (hcor : report.correctionEvents account source fresh = some corrections)
    (hnew : NewRows events corrections) :
    (∃ st', project (events ++ corrections) = .ok st' ∧
      (∀ f ∈ report.findings, f.entityType = "position" →
        (st'.position f.entityId).quantity = brokerQuantity brokerPositions f.entityId) ∧
      ∀ sessionId' brokerOrders' ts' now' reportId' report',
        reconcile sessionId' st' brokerOrders' brokerPositions ts' now' reportId' = .ok report' →
        ∀ f ∈ report'.findings, f.entityType = "position" → f.outcome = .consistent) ↔
      OpenPositionsReported st brokerPositions := by
  have hhidden := noHiddenQuantity_project hst
  obtain ⟨corrected, hproj, hquant⟩ := quantity_project_corrections hst hrep hcor hnew
  constructor
  · rintro ⟨st', hst', hreach, -⟩ c pos hp ho hqty
    rw [hproj] at hst'
    cases hst'
    by_contra hun
    have hun : ∀ bp ∈ brokerPositions, bp.contractId ≠ c := fun bp hm he ↦ hun ⟨bp, hm, he⟩
    obtain ⟨f, hf, hfc, hne⟩ := quantity_of_missing hquant hcid hp ho hqty hun
    obtain ⟨hin, ht⟩ := (mem_findings_position hrep).mpr hf
    have hb := hreach f hin ht
    rw [hfc, brokerQuantity_of_not_mem hun] at hb
    exact hne hb
  · intro hreported
    have hall := quantity_of_reported hquant hcid hhidden hreported
    refine ⟨corrected, hproj, fun f _ _ ↦ hall f.entityId, ?_⟩
    intro sessionId' brokerOrders' ts' now' reportId' report' hrep' f hf ht
    refine (positionFindings_consistent_iff hcid).mpr (fun c ↦ ?_) f
      ((mem_findings_position hrep').mp ⟨hf, ht⟩)
    rw [← (noHiddenQuantity_iff _).mp (noHiddenQuantity_project hproj) c, hall c]

open scoped DefaultContext

/-- A ledger that bought one contract. -/
def boughtOne : List LedgerEvent :=
  [⟨EventFields.sample .finalFill "b" .buy 1 (some 1), by decide +kernel⟩]

/-- The projection of that ledger. -/
def boughtOneState : ProjectionState :=
  { orders := Dict.empty.set "c" ⟨"c", .filled, 1, 1, some 1, 0, .buy, "x", none⟩
    positions := Dict.empty.set "x" ⟨"x", 1, some 1, 0, 0, true, none⟩
    capitalUsage := 100
    seenEventIds := {"b"}
    seenIdempotencyKeys := {"b"} }

/-- The report on that ledger with one position finding. -/
def boughtOneReport (finding : ReconciliationFinding) : ReconciliationReport :=
  ⟨"r", "s", ⟨2026, 7, 1, 16, 0, 0, 0, some 0⟩, [finding], false⟩

/-- The correction of one position finding. -/
def positionCorrection (finding : ReconciliationFinding) : EventFields :=
  correctionFields (boughtOneReport finding) "a" none "e" ⟨2026, 7, 1, 16, 0, 0, 0, some 0⟩
    finding

/-- The equivalence where the broker holds two and the ledger one. -/
theorem positionCorrections_converge_boughtOne :
    (∃ st', project (boughtOne ++ [⟨positionCorrection
          (positionFinding .quantityMismatch "x"
            "position quantity differs between ledger and broker" (some 1) (some ⟨false, 2, 0⟩)),
          by decide +kernel⟩]) = .ok st' ∧
      (∀ f ∈ (boughtOneReport (positionFinding .quantityMismatch "x"
          "position quantity differs between ledger and broker" (some 1)
          (some ⟨false, 2, 0⟩))).findings, f.entityType = "position" →
        (st'.position f.entityId).quantity =
          brokerQuantity [⟨"x", ⟨false, 2, 0⟩, none⟩] f.entityId) ∧
      ∀ sessionId' brokerOrders' ts' now' reportId' report',
        reconcile sessionId' st' brokerOrders' [⟨"x", ⟨false, 2, 0⟩, none⟩] ts' now' reportId' =
          .ok report' →
        ∀ f ∈ report'.findings, f.entityType = "position" → f.outcome = .consistent) ↔
      OpenPositionsReported boughtOneState [⟨"x", ⟨false, 2, 0⟩, none⟩] :=
  @positionCorrections_converge_iff _ boughtOne _ boughtOneState "s" [] _ none
    ⟨2026, 7, 1, 16, 0, 0, 0, some 0⟩ "r" _ "a" none
    (fun _ ↦ ("e", ⟨2026, 7, 1, 16, 0, 0, 0, some 0⟩))
    (ok_of_toOption (by decide +kernel)) (by decide) (ok_of_toOption (by decide +kernel))
    (by decide +kernel) ⟨by decide, by decide, by decide +kernel⟩

/-- Position corrections do not always converge: the ledger holds one contract, the broker
reports none, and the correction sets the one contract again. -/
theorem not_converge_of_missing_position :
    ¬ ∀ (events corrections : List LedgerEvent) (st : ProjectionState) (sessionId : String)
        (brokerOrders : List BrokerOpenOrderView) (brokerPositions : List BrokerPositionView)
        (ts : Option Datetime) (now : Datetime) (reportId : Uuid)
        (report : ReconciliationReport) (account : String) (source : Option Uuid)
        (fresh : Nat → Uuid × Datetime),
      project events = .ok st →
      (brokerPositions.map (fun bp ↦ bp.contractId)).Nodup →
      reconcile sessionId st brokerOrders brokerPositions ts now reportId = .ok report →
      report.correctionEvents account source fresh = some corrections →
      NewRows events corrections →
      ∃ st', project (events ++ corrections) = .ok st' ∧
        (∀ f ∈ report.findings, f.entityType = "position" →
          (st'.position f.entityId).quantity = brokerQuantity brokerPositions f.entityId) ∧
        ∀ sessionId' brokerOrders' ts' now' reportId' report',
          reconcile sessionId' st' brokerOrders' brokerPositions ts' now' reportId' =
            .ok report' →
          ∀ f ∈ report'.findings, f.entityType = "position" → f.outcome = .consistent := by
  intro h
  let missing := positionFinding .missingBrokerPosition "x"
    "projected open position missing at broker" (some 1) none
  obtain ⟨st', hst', hreach, -⟩ := h boughtOne [⟨positionCorrection missing, by decide +kernel⟩]
    boughtOneState "s" [] [] none ⟨2026, 7, 1, 16, 0, 0, 0, some 0⟩ "r" (boughtOneReport missing)
    "a" none (fun _ ↦ ("e", ⟨2026, 7, 1, 16, 0, 0, 0, some 0⟩))
    (ok_of_toOption (by decide +kernel)) (by decide) (ok_of_toOption (by decide +kernel))
    (by decide +kernel) ⟨by decide, by decide, by decide +kernel⟩
  have hq := hreach missing (List.mem_singleton.mpr rfl) rfl
  have hd : (project (boughtOne ++ [⟨positionCorrection missing, by decide +kernel⟩])).toOption.map
      (fun st ↦ (st.position "x").quantity) = some 1 := by decide +kernel
  rw [hst'] at hd
  have h1 : (st'.position "x").quantity = 1 := Option.some.inj hd
  have h0 : (st'.position "x").quantity = 0 := hq
  rw [h0] at h1
  exact absurd h1 (by decide)

end Joker.Ledger
