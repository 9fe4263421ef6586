import Joker.Base.Runs
import Joker.Ledger.ReconcileSoundness
import Joker.Runtime.PaperSubmission
import Joker.Runtime.ReconciliationRun
import Joker.Runtime.VerifiedFills

/-!
# Paper broker and ledger

Library `Runtime`. Limit orders submitted one after another to a `PaperBroker` without slippage.
The broker keeps one row for each purchase and a sale closes every row of its contract, while the
ledger keeps one quantity for each contract; both say the same as long as a purchase finds its
contract flat and a sale sells all of it.
-/

namespace Joker.Runtime

open Joker.Base Joker.Ledger Joker.Broker CostAccount

variable {rt : ExecutionRuntime} {w : World PaperBook} {o : PaperOrder}

/-- One order after another. -/
def submitPaper [DecimalContext] (rt : ExecutionRuntime) (w : World PaperBook) (o : PaperOrder) :
    World PaperBook :=
  ((submitExecutionCommand rt o.command o.inputs).exec w).1

/-- The broker holds of each contract what the ledger says, and reconciliation reports it. -/
def PaperAgrees [DecimalContext] (rt : ExecutionRuntime) (w : World PaperBook) : Prop :=
  (∃ state, project (sessionRows rt w) = .ok state ∧
    ∀ c, projectedQuantity state c = w.broker.openTotal c) ∧
  ∀ inputs : ReconcileInputs PaperDraws, inputs.now.aware = true →
    ∃ report, ((runReconciliation rt inputs).exec w).2 = .ok (.ok report) ∧
      report.isConsistent = true

/-- No sale of more than is held. -/
def NoOversale (w : World PaperBook) (o : PaperOrder) : Prop :=
  o.command.intent.side = .sell →
    o.command.intent.quantity ≤ w.broker.openTotal (contractIdFor o.command.intent.contract)

instance (w : World PaperBook) (o : PaperOrder) : Decidable (NoOversale w o) :=
  inferInstanceAs (Decidable (_ → _))

/-- A purchase of a contract of which nothing is held, or a sale of all that is held, of a quantity
that the context keeps. -/
def OpensOrCloses [DecimalContext] (w : World PaperBook) (o : PaperOrder) : Prop :=
  Kept (o.command.intent.quantity : ℚ) ∧
    w.broker.openTotal (contractIdFor o.command.intent.contract) =
      match o.command.intent.side with
      | .buy => 0
      | .sell => o.command.intent.quantity

instance [DecimalContext] (w : World PaperBook) (o : PaperOrder) :
    Decidable (OpensOrCloses w o) :=
  inferInstanceAs (Decidable (_ ∧ _ = _))

/-- The ledger mirrors the broker: what a run of such orders keeps. -/
structure Mirrors [DecimalContext] (rt : ExecutionRuntime) (w : World PaperBook) : Prop where
  settled : w.conn.Settled
  session : ∀ row ∈ w.conn.rows, row.sessionId = rt.sessionId
  ordered : w.conn.rows.Pairwise Precedes
  written : ∀ row ∈ w.conn.rows, row.OfSubmission ∧ FilledIn row.clientOrderId w.conn.rows
  price : w.broker.base.simulateFillPrice = atLimit
  filled : ∀ order ∈ w.broker.base.orders.values, order.status = .filled
  fills : ∀ fill ∈ w.broker.base.fills.values, fill.orderId ∈ w.broker.base.usedOrderIds
  distinct : (w.broker.openRows.map (fun pos ↦ contractIdFor pos.contract)).Nodup
  positive : ∀ pos ∈ w.broker.openRows, 0 < pos.quantity
  quantities : ∃ r, replay Replay.start w.conn.rows = .ok r ∧
    ∀ c, (r.tables.position c).quantity = w.broker.openTotal c

/-! ### Mirrors agree -/

private theorem sum_of_nodup {rows : List Position} (c : String)
    (hn : (rows.map (fun pos ↦ contractIdFor pos.contract)).Nodup) :
    ((rows.filter (fun pos ↦ contractIdFor pos.contract = c)).map (fun pos ↦ pos.quantity)).sum =
      ((rows.find? (fun pos ↦ contractIdFor pos.contract = c)).map
        (fun pos ↦ pos.quantity)).getD 0 := by
  induction rows with
  | nil => rfl
  | cons pos rest ih =>
    rw [List.map_cons, List.nodup_cons] at hn
    by_cases hc : contractIdFor pos.contract = c
    · have hnone : rest.filter (fun pos ↦ contractIdFor pos.contract = c) = [] := by
        apply List.filter_eq_nil_iff.mpr
        intro other hother he
        apply hn.1
        rw [hc, ← of_decide_eq_true he]
        exact List.mem_map_of_mem hother
      simp [hc, hnone]
    · simp only [List.filter_cons, List.find?_cons, hc, decide_false, Bool.false_eq_true, if_false]
      exact ih hn.2

private theorem brokerQuantity_positionViews {b : PaperBook} (c : String)
    (hn : (b.openRows.map (fun pos ↦ contractIdFor pos.contract)).Nodup) :
    brokerQuantity (positionViews b.positions.values) c = b.openTotal c := by
  have hopen : ∀ pos ∈ b.openRows.find? (fun pos ↦ contractIdFor pos.contract = c),
      pos.isOpen = true := by
    intro pos hpos
    exact (List.mem_filter.mp (List.mem_of_find?_eq_some hpos)).2
  unfold PaperBook.openTotal
  rw [sum_of_nodup c hn]
  have hviews : (positionViews b.positions.values).find? (fun bp ↦ bp.contractId = c) =
      (b.openRows.find? (fun pos ↦ contractIdFor pos.contract = c)).map positionView :=
    List.find?_map
  rw [brokerQuantity_eq, hviews]
  cases hfind : b.openRows.find? (fun pos ↦ contractIdFor pos.contract = c) with
  | none => rfl
  | some pos =>
    rw [hfind] at hopen
    change (Decimal.ofInt (if pos.isOpen then pos.quantity else 0)).toRat = ((pos.quantity : ℤ) : ℚ)
    rw [if_pos (hopen pos rfl)]
    exact Decimal.toRat_ofInt _

/-- Where the ledger mirrors the broker, both agree. -/
theorem agrees_of_mirrors [DecimalContext] (h : Mirrors rt w) (hsome : w.conn.rows ≠ []) :
    PaperAgrees rt w := by
  obtain ⟨r, hr, hquantities⟩ := h.quantities
  have hrows : w.conn.query (fun e ↦ e.sessionId = rt.sessionId) = w.conn.rows := by
    rw [query_of_pairwise (h.ordered.imp (fun he ↦ he.1))]
    apply List.filter_eq_self.mpr
    exact fun row hrow ↦ decide_eq_true (h.session row hrow)
  have hstate : project (w.conn.query (fun e ↦ e.sessionId = rt.sessionId)) = .ok r.freeze := by
    rw [hrows]
    exact project_eq_ok.mpr ⟨r, hr, rfl⟩
  have hposition (c : String) : (r.freeze.position c).quantity = w.broker.openTotal c := by
    rw [position_freeze]
    exact hquantities c
  refine ⟨⟨r.freeze, hstate, ?_⟩, ?_⟩
  · intro c
    rw [← hposition c]
    unfold projectedQuantity ProjectionState.position ensurePosition
    cases r.freeze.positions.get? c <;> rfl
  · intro inputs haware
    have hsession : strip rt.sessionId ≠ "" := by
      obtain ⟨row, hrow⟩ := List.exists_mem_of_ne_nil _ hsome
      intro hblank
      have hvalid := row.valid.2.2.2.2.2.2.2.2.2
      rw [h.session row hrow, isBlank_of_strip hblank] at hvalid
      cases hvalid
    have horders : orderFindings r.freeze [] = [] := by
      unfold orderFindings
      rw [projectedActive_of_filled hr (h.ordered.imp (fun he ↦ he.2)) h.written]
      rfl
    have hpositions : ∀ f ∈ positionFindings r.freeze (positionViews w.broker.positions.values),
        f.outcome = .consistent := by
      apply (positionFindings_consistent_iff _).mpr
      · intro c
        rw [brokerQuantity_positionViews c h.distinct, ← hposition c]
        rw [(noHiddenQuantity_iff r.freeze).mp (noHiddenQuantity_project hstate) c]
      · unfold positionViews
        rw [List.map_map]
        exact h.distinct
    rw [exec_runReconciliation hstate h.filled inputs]
    unfold reconcile
    rw [if_neg hsession]
    simp only [Option.getD_some, haware, Bool.true_eq_false, if_false, horders, List.nil_append]
    refine ⟨_, rfl, ?_⟩
    apply List.all_eq_true.mpr
    exact fun f hf ↦ decide_eq_true (hpositions f hf)

/-! ### One order -/

private theorem not_open_of_total [DecimalContext] (h : Mirrors rt w) {c : String}
    (hzero : w.broker.openTotal c = 0) :
    ∀ pos ∈ w.broker.openRows, contractIdFor pos.contract ≠ c := by
  unfold PaperBook.openTotal at hzero
  rw [sum_of_nodup c h.distinct] at hzero
  cases hfind : w.broker.openRows.find? (fun pos ↦ contractIdFor pos.contract = c) with
  | none =>
    intro pos hpos he
    exact List.find?_eq_none.mp hfind pos hpos (decide_eq_true he)
  | some found =>
    rw [hfind] at hzero
    exact absurd hzero (h.positive found (List.mem_of_find?_eq_some hfind)).ne'

/-- The open rows say the same of every contract as before, but for the order's contract, which
the order settles. -/
private def RowsAfter (w : World PaperBook) (o : PaperOrder) (book : PaperBook) : Prop :=
  (book.openRows.map (fun pos ↦ contractIdFor pos.contract)).Nodup ∧
    (∀ pos ∈ book.openRows, 0 < pos.quantity) ∧
    ∀ c, ((book.openTotal c : ℤ) : ℚ) =
      if contractIdFor o.command.intent.contract = c then
        settle (w.broker.openTotal c : ℚ) (o.command.intent.side.signed o.command.intent.quantity)
      else (w.broker.openTotal c : ℚ)

private theorem rowsAfter_bought [DecimalContext] (h : Mirrors rt w) (hp : Placeable rt w o)
    (hok : OpensOrCloses w o) (hside : o.command.intent.side = .buy) (base : PaperBroker) :
    RowsAfter w o (PaperBook.mk base (o.positionsAfter w.broker)) := by
  have hpositive : (0 : ℚ) < o.command.intent.quantity := Int.cast_pos.mpr hp.quantity
  have hbuy : o.order.side = .buy := hside
  replace hok := hok.2
  rw [hside] at hok
  have hnone := not_open_of_total h hok
  unfold PaperOrder.positionsAfter
  refine ⟨?_, ?_, ?_⟩
  · rw [PaperBook.openRows_bought hbuy hp.newIds.2.2, List.map_append, List.map_singleton]
    apply List.Nodup.append h.distinct (List.nodup_singleton _)
    rw [List.disjoint_singleton]
    intro hmem
    obtain ⟨pos, hpos, he⟩ := List.mem_map.mp hmem
    exact hnone pos hpos he
  · rw [PaperBook.openRows_bought hbuy hp.newIds.2.2]
    intro pos hpos
    rcases List.mem_append.mp hpos with hpos | hpos
    · exact h.positive pos hpos
    · rw [List.mem_singleton.mp hpos]
      exact hp.quantity
  · intro c
    rw [PaperBook.openTotal_bought hbuy hp.newIds.2.2]
    change (((w.broker.openTotal c + if contractIdFor o.command.intent.contract = c then
      o.command.intent.quantity else 0 : ℤ)) : ℚ) = _
    by_cases hc : contractIdFor o.command.intent.contract = c
    · rw [hc] at hok
      have hsettle : settle (0 : ℚ) o.command.intent.quantity = 0 + o.command.intent.quantity :=
        settle_of_nonneg (le_refl _) (by linarith)
      rw [if_pos hc, if_pos hc, hok, hside]
      simp only [Side.signed]
      rw [Int.cast_zero, hsettle, zero_add, zero_add]
    · rw [if_neg hc, if_neg hc, add_zero]

private theorem rowsAfter_sold [DecimalContext] (h : Mirrors rt w) (hp : Placeable rt w o)
    (hok : OpensOrCloses w o) (hside : o.command.intent.side = .sell) (base : PaperBroker) :
    RowsAfter w o (PaperBook.mk base (o.positionsAfter w.broker)) := by
  have hpositive : (0 : ℚ) < o.command.intent.quantity := Int.cast_pos.mpr hp.quantity
  have hsell : o.order.side = .sell := hside
  replace hok := hok.2
  rw [hside] at hok
  unfold PaperOrder.positionsAfter
  refine ⟨?_, ?_, ?_⟩
  · rw [PaperBook.openRows_sold hsell]
    exact (List.filter_sublist.map _).nodup h.distinct
  · rw [PaperBook.openRows_sold hsell]
    exact fun pos hpos ↦ h.positive pos (List.mem_of_mem_filter hpos)
  · intro c
    rw [PaperBook.openTotal_sold hsell hp.told]
    change (((if contractIdFor o.command.intent.contract = c then 0
      else w.broker.openTotal c : ℤ)) : ℚ) = _
    by_cases hc : contractIdFor o.command.intent.contract = c
    · rw [hc] at hok
      have hsettle : settle (o.command.intent.quantity : ℚ) (-o.command.intent.quantity) =
          o.command.intent.quantity + -o.command.intent.quantity :=
        settle_of_nonneg hpositive.le (by linarith)
      rw [if_pos hc, if_pos hc, hok, hside]
      simp only [Side.signed]
      rw [hsettle, Int.cast_zero, add_neg_cancel]
    · rw [if_neg hc, if_neg hc]

private theorem rows_after [DecimalContext] (h : Mirrors rt w) (hp : Placeable rt w o)
    (hok : OpensOrCloses w o)
    (base : PaperBroker) : RowsAfter w o (PaperBook.mk base (o.positionsAfter w.broker)) := by
  cases hside : o.command.intent.side with
  | buy => exact rowsAfter_bought h hp hok hside base
  | sell => exact rowsAfter_sold h hp hok hside base

private theorem keepsPosition_of_opensOrCloses [DecimalContext] (hok : OpensOrCloses w o)
    (hq : 0 < o.command.intent.quantity) :
    KeepsPosition (w.broker.openTotal (contractIdFor o.command.intent.contract) : ℚ)
      o.command.intent.side o.command.intent.quantity := by
  obtain ⟨hkept, htotal⟩ := hok
  rw [htotal]
  cases o.command.intent.side with
  | buy => exact ⟨fun _ ↦ hkept, fun h ↦ absurd Int.cast_zero h⟩
  | sell =>
    refine ⟨fun _ ↦ hkept, fun _ ↦ ⟨hkept, ?_⟩⟩
    have hpositive : (0 : ℚ) < o.command.intent.quantity := Int.cast_pos.mpr hq
    have hsettle := settle_of_nonneg hpositive.le (by rw [add_neg_cancel])
    simp only [Side.signed, hsettle, add_neg_cancel]
    exact kept_zero

private theorem filledAtOnce_of_events {requested accepted filled : LedgerEvent}
    (hr : makeLedgerEvent (requestedFields rt o.command o.inputs.requested) = some requested)
    (ha : makeLedgerEvent (acceptedFields rt o.command o.order o.inputs.accepted) = some accepted)
    (hf : makeLedgerEvent (o.filledFields rt) = some filled) :
    FilledAtOnce o.command.clientOrderId (contractIdFor o.command.intent.contract)
      o.command.intent.side requested accepted filled := by
  have hr := makeLedgerEvent_eq_some hr
  have ha := makeLedgerEvent_eq_some ha
  have hf := makeLedgerEvent_eq_some hf
  constructor
  · rw [hr]
    rfl
  · rw [hr]
    rfl
  · rw [ha]
    rfl
  · rw [ha]
    rfl
  · rw [hf]
    rfl
  · constructor
    · unfold LedgerEvent.isFill
      rw [hf]
      rfl
    · rw [hf]
      exact fun hn ↦ nomatch hn
    · unfold allowOverfill
      rw [hf]
      rfl
    · rw [hf]
      rfl
    · rw [hf]
      rfl
    · rw [hf]
      rfl
  · rw [hr, hf]
    exact (Decimal.toRat_ofInt _).symm

private theorem ofSubmission_of_filledAtOnce {clientOrderId contractId : String} {side : Side}
    {requested accepted filled : LedgerEvent}
    (h : FilledAtOnce clientOrderId contractId side requested accepted filled)
    {e : LedgerEvent} (he : e ∈ [requested, accepted, filled]) :
    e.OfSubmission ∧ e.clientOrderId = clientOrderId := by
  simp only [List.mem_cons, List.not_mem_nil, or_false] at he
  rcases he with rfl | rfl | rfl
  · refine ⟨Or.inl ?_, h.requestFor⟩
    rw [h.requestType]
    decide
  · refine ⟨Or.inl ?_, h.acceptanceFor⟩
    rw [h.acceptanceType]
    decide
  · exact ⟨Or.inr ⟨h.fillType, h.fill.priced⟩, h.fill.order⟩

/-- The step: an order that opens or closes a contract keeps the mirror. -/
theorem mirrors_submitPaper [DecimalContext] (h : Mirrors rt w) (hp : Placeable rt w o)
    (hok : OpensOrCloses w o) :
    Mirrors rt (submitPaper rt w o) ∧ (submitPaper rt w o).conn.rows ≠ [] := by
  have hnc : ∀ row ∈ w.conn.rows, row.NotCorrection := by
    intro row hrow hcorr
    rcases (h.written row hrow).1 with he | ⟨he, -⟩ <;> rw [hcorr] at he <;>
      exact absurd he (by decide)
  obtain ⟨requested, accepted, filled, base, clients, bus, hr, ha, hf, hpair, hprice, horders,
    hfills, hused, hexec⟩ :=
    exec_submitExecutionCommand_of_new hp h.settled hnc h.price h.fills
  have hworld : submitPaper rt w o = ⟨.ofRows (w.conn.rows ++ [requested, accepted, filled]),
      ⟨base, o.positionsAfter w.broker⟩, bus, clients⟩ := by
    unfold submitPaper
    rw [hexec]
  have honce := filledAtOnce_of_events hr ha hf
  have hquantity : filled.quantity = o.command.intent.quantity := by
    rw [makeLedgerEvent_eq_some hf]
    exact Decimal.toRat_ofInt _
  have hqpos : 0 < filled.quantity := by
    rw [hquantity]
    exact Int.cast_pos.mpr hp.quantity
  obtain ⟨r, hreplay, hheld⟩ := h.quantities
  have hposition := keepsPosition_of_opensOrCloses hok hp.quantity
  rw [← hheld, ← hquantity] at hposition
  obtain ⟨r', hreplay', hheld'⟩ := quantity_replay_of_filledAtOnce hreplay honce hqpos
    (hquantity ▸ hok.1) hposition hp.newOrder (hpair.imp (fun he ↦ he.2))
  obtain ⟨hdistinct, hpositive, htotal⟩ := rows_after h hp hok base
  rw [hworld]
  refine ⟨?_, by simp [Conn.ofRows]⟩
  constructor
  · exact Conn.settled_ofRows _
  · intro row hrow
    rcases List.mem_append.mp hrow with hrow | hrow
    · exact h.session row hrow
    · simp only [List.mem_cons, List.not_mem_nil, or_false] at hrow
      rcases hrow with rfl | rfl | rfl
      · rw [makeLedgerEvent_eq_some hr]
        rfl
      · rw [makeLedgerEvent_eq_some ha]
        rfl
      · rw [makeLedgerEvent_eq_some hf]
        rfl
  · exact hpair
  · intro row hrow
    rcases List.mem_append.mp hrow with hrow | hrow
    · obtain ⟨hsub, e, he, hfilled⟩ := h.written row hrow
      exact ⟨hsub, e, List.mem_append_left _ he, hfilled⟩
    · obtain ⟨hsub, horder⟩ := ofSubmission_of_filledAtOnce honce hrow
      refine ⟨hsub, filled, List.mem_append_right _ (by simp), ?_, honce.fillType, hqpos⟩
      exact honce.fill.order.trans horder.symm
  · exact hprice
  · change ∀ order ∈ base.orders.values, order.status = .filled
    rw [horders]
    intro order horder
    rcases Dict.mem_values_of_set horder with rfl | horder
    · rfl
    · exact h.filled order horder
  · change ∀ fill ∈ base.fills.values, fill.orderId ∈ base.usedOrderIds
    rw [hfills, hused]
    intro fill hfill
    rcases Dict.mem_values_of_set hfill with rfl | hfill
    · exact List.mem_cons_self
    · exact List.mem_cons_of_mem _ (h.fills fill hfill)
  · exact hdistinct
  · exact hpositive
  · refine ⟨r', hreplay', ?_⟩
    intro c
    rw [hheld' c]
    refine Eq.trans ?_ (htotal c).symm
    rw [hheld c, hquantity]

/-! ### Runs -/

/-- A new broker and an empty ledger. -/
theorem mirrors_new [DecimalContext] (rt : ExecutionRuntime) : Mirrors rt
    (World.new PaperBook.new) where
  settled := rfl
  session _ h := nomatch h
  ordered := List.Pairwise.nil
  written _ h := nomatch h
  price := rfl
  filled _ h := nomatch h
  fills _ h := nomatch h
  distinct := List.nodup_nil
  positive _ h := nomatch h
  quantities := ⟨Replay.start, rfl, fun _ ↦ rfl⟩

/-- In a run of orders that each open a contract of which nothing is held or close all that is
held, broker and ledger agree after every order. -/
theorem paperAgrees_of_stepsMeet [DecimalContext] (rt : ExecutionRuntime) (orders : List PaperOrder)
    (h : StepsMeet (submitPaper rt) (fun w o ↦ Placeable rt w o ∧ OpensOrCloses w o)
      (World.new PaperBook.new) orders) :
    ∀ pre, pre <+: orders → pre ≠ [] →
      PaperAgrees rt (run (submitPaper rt) (World.new PaperBook.new) pre) := by
  have hmirrors := run_invariant_of_steps
    (fun w o hw (hok : Placeable rt w o ∧ OpensOrCloses w o) ↦
      (mirrors_submitPaper hw hok.1 hok.2).1) (mirrors_new rt) (ok_of_stepsMeet h)
  intro pre hpre hne
  apply agrees_of_mirrors (hmirrors pre hpre)
  cases pre using List.reverseRecOn with
  | nil => exact absurd rfl hne
  | append_singleton pre o =>
    have hok := ok_of_stepsMeet h pre o hpre
    rw [run_snoc]
    exact (mirrors_submitPaper (hmirrors pre ((List.prefix_append pre [o]).trans hpre))
      hok.1 hok.2).2

/-! ### Samples -/

open scoped DefaultContext

/-- An order for so many of one call, whose events are a second apart. -/
def PaperOrder.sample (side : Side) (quantity : Int) (tag : String) (second : ℕ) : PaperOrder :=
  { command :=
      { ExecutionCommand.sample with
        clientOrderId := "c" ++ tag
        intent :=
          { ExecutionCommand.sample.intent with
            intentId := "i" ++ tag
            side := side
            quantity := quantity } }
    inputs :=
      { SubmitInputs.sample ⟨⟨"o" ++ tag, "f" ++ tag⟩, "p" ++ tag⟩ tag second with
        accepted := Stamp.sample ("accepted" ++ tag) (second + 1)
        fill := Stamp.sample ("fill" ++ tag) (second + 2) } }

/-- Two bought, both sold, and one bought again. -/
def boughtAgain : List PaperOrder :=
  [.sample .buy 2 "1" 0, .sample .sell 2 "2" 10, .sample .buy 1 "3" 20]

/-- The agreement in that run. -/
theorem paperAgrees_boughtAgain :
    PaperAgrees ⟨0, "s", "a"⟩
      (run (submitPaper ⟨0, "s", "a"⟩) (World.new PaperBook.new) boughtAgain) :=
  paperAgrees_of_stepsMeet ⟨0, "s", "a"⟩ boughtAgain (by decide +kernel) boughtAgain
    List.prefix_rfl (List.cons_ne_nil _ _)

/-- Two bought, and one of them sold. -/
def oneSold : List PaperOrder := [.sample .buy 2 "1" 0, .sample .sell 1 "2" 10]

/-- A sale of a part closes the whole row at the broker, while the ledger keeps the rest. -/
theorem not_paperAgrees_oneSold :
    ¬ ∀ (rt : ExecutionRuntime) (orders : List PaperOrder),
      StepsMeet (submitPaper rt) (fun w o ↦ Placeable rt w o ∧ NoOversale w o)
        (World.new PaperBook.new) orders →
      ∀ pre, pre <+: orders → pre ≠ [] →
        PaperAgrees rt (run (submitPaper rt) (World.new PaperBook.new) pre) := by
  intro h
  obtain ⟨⟨state, hstate, hquantities⟩, -⟩ :=
    h ⟨0, "s", "a"⟩ oneSold (by decide +kernel) oneSold (List.prefix_refl _) (by decide)
  have hdiffer : (project (sessionRows ⟨0, "s", "a"⟩
      (run (submitPaper ⟨0, "s", "a"⟩) (World.new PaperBook.new) oneSold))).toOption.map
        (fun state ↦ projectedQuantity state "SPY:2026-07-01:630.0:call") = some 1 := by
    decide +kernel
  have hclosed : (run (submitPaper ⟨0, "s", "a"⟩) (World.new PaperBook.new)
      oneSold).broker.openTotal "SPY:2026-07-01:630.0:call" = 0 := by
    decide +kernel
  rw [hstate] at hdiffer
  have hone : projectedQuantity state "SPY:2026-07-01:630.0:call" = 1 := Option.some.inj hdiffer
  rw [hquantities, hclosed] at hone
  exact absurd hone (by decide)

end Joker.Runtime
