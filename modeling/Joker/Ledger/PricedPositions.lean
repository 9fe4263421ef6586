import Joker.Ledger.Corrections

/-!
# Well-formed positions

Library `Ledger`. Quantity, average price and the open flag are written independently, and the
capital loop skips a position without a price. A correction brings no price of its own, so one
that opens a position leaves it unpriced and uncounted. Every other event keeps positions
well-formed.
-/

namespace Joker.Ledger

open Joker.Base

/-- A position is open, and has an average price, exactly when it holds a quantity. -/
def PositionState.WellFormed (pos : PositionState) : Prop :=
  (pos.isOpen = true ↔ pos.quantity ≠ 0) ∧ (pos.avgPrice ≠ none ↔ pos.quantity ≠ 0)

instance (pos : PositionState) : Decidable pos.WellFormed := inferInstanceAs (Decidable (_ ∧ _))

/-- `|quantity| * avg_price * 100`. -/
def PositionState.notional [DecimalContext] (pos : PositionState) : ℚ :=
  rounded (rounded (rounded |pos.quantity| * pos.avgPrice.getD 0) * 100)

/-- The sum of `|quantity| * avg_price * 100` over the positions that hold a quantity. -/
def openCapital [DecimalContext] (positions : List PositionState) : ℚ :=
  ((positions.filter (fun pos ↦ pos.quantity ≠ 0)).map PositionState.notional).foldl
    (fun sum notional ↦ rounded (sum + notional)) 0

/-- In exact arithmetic that is the sum. -/
theorem openCapital_exact (positions : List PositionState) :
    @openCapital ExactArithmetic.context positions =
      ((positions.filter (fun pos ↦ pos.quantity ≠ 0)).map
        (fun pos ↦ |pos.quantity| * pos.avgPrice.getD 0 * 100)).sum := by
  unfold openCapital
  rw [List.sum_eq_foldl]
  rfl

/-- Positions are well-formed, and capital usage counts every one that holds a quantity. -/
def FullyCounted [DecimalContext] (st : ProjectionState) : Prop :=
  (∀ pos ∈ st.positions.values, pos.WellFormed) ∧ st.capitalUsage = openCapital st.positions.values

instance [DecimalContext] (st : ProjectionState) : Decidable (FullyCounted st) :=
  inferInstanceAs (Decidable ((∀ _ ∈ _, _) ∧ _))

/-- What a step needs: a new correction that sets a quantity other than zero brings a price, or
finds a position that holds a quantity. -/
def KeepsPriced [DecimalContext] (st : ProjectionState) (e : LedgerEvent) : Prop :=
  e.ledgerEventId ∉ st.seenEventIds → e.idempotencyKey ∉ st.seenIdempotencyKeys →
    e.eventType = .reconciliationCorrection → correctionKindOf e = "position_quantity" →
      ∀ quantity, correctedQuantity e = .ok quantity → quantity ≠ 0 →
        e.price ≠ none ∨ (st.position e.contractId).quantity ≠ 0

/-! ### Capital -/

private theorem capitalUsage_snoc [DecimalContext] (positions : List PositionState)
    {pos : PositionState} (h : pos.WellFormed) :
    capitalUsage (positions ++ [pos]) =
      if pos.quantity = 0 then capitalUsage positions
      else rounded (capitalUsage positions + pos.notional) := by
  obtain ⟨hopen, hpriced⟩ := h
  unfold capitalUsage PositionState.notional
  rw [List.foldl_append]
  by_cases hq : pos.quantity = 0
  · have hnone : pos.avgPrice = none := not_not.mp (fun hp ↦ hpriced.mp hp hq)
    simp [hq, hnone]
  · obtain ⟨avg, havg⟩ := Option.ne_none_iff_exists'.mp (hpriced.mpr hq)
    simp [hq, havg, hopen.mpr hq, multiplier]

private theorem openCapital_snoc [DecimalContext] (positions : List PositionState)
    (pos : PositionState) :
    openCapital (positions ++ [pos]) =
      if pos.quantity = 0 then openCapital positions
      else rounded (openCapital positions + pos.notional) := by
  unfold openCapital
  rw [List.filter_append, List.map_append, List.foldl_append]
  by_cases hq : pos.quantity = 0 <;> simp [hq]

/-- The capital loop counts every well-formed position that holds a quantity. -/
theorem capitalUsage_of_wellFormed [DecimalContext] {positions : List PositionState}
    (h : ∀ pos ∈ positions, pos.WellFormed) : capitalUsage positions = openCapital positions := by
  induction positions using List.reverseRecOn with
  | nil => rfl
  | append_singleton positions pos ih =>
    have hbefore := ih (fun pos hpos ↦ h pos (List.mem_append_left _ hpos))
    rw [capitalUsage_snoc positions (h pos (by simp)), openCapital_snoc, hbefore]

/-- Capital usage is computed from the positions, so it is right where they are well-formed. -/
theorem fullyCounted_freeze_iff [DecimalContext] (r : Replay) :
    FullyCounted r.freeze ↔ ∀ c, (r.freeze.position c).WellFormed := by
  constructor
  · intro h c
    unfold ProjectionState.position ensurePosition
    cases hc : r.freeze.positions.get? c with
    | none => exact ⟨iff_of_false (nofun) (fun hq ↦ hq rfl), iff_of_false (fun hp ↦ hp rfl)
        (fun hq ↦ hq rfl)⟩
    | some pos => exact h.1 pos ((Dict.mem_values_iff _ _).mpr ⟨c, hc⟩)
  · intro h
    have hall : ∀ pos ∈ r.freeze.positions.values, pos.WellFormed := by
      intro pos hm
      obtain ⟨c, hc⟩ := (Dict.mem_values_iff _ _).mp hm
      have hpos := h c
      unfold ProjectionState.position ensurePosition at hpos
      rwa [hc] at hpos
    exact ⟨hall, capitalUsage_of_wellFormed hall⟩

/-! ### Steps -/

/-- The holding of a well-formed position while replaying. -/
def Holding.WellFormed (h : Holding) : Prop :=
  (h.quantity ≠ 0 → h.isOpen = true) ∧ (h.avgPrice ≠ none ↔ h.quantity ≠ 0)

private theorem wellFormed_toModel_iff (pos : PositionState) :
    pos.toModel.WellFormed ↔ pos.holding.WellFormed := by
  unfold PositionState.WellFormed Holding.WellFormed PositionState.toModel PositionState.holding
  by_cases hq : pos.quantity = 0 <;> cases pos.isOpen <;> simp [hq]

private theorem wellFormed_closed {pos : PositionState} {avg : ℚ} (h : pos.avgPrice = some avg)
    (quantity : ℚ) : PositionState.holding { pos with
      quantity := quantity
      isOpen := decide (quantity ≠ 0)
      avgPrice := if quantity = 0 then none else pos.avgPrice } |>.WellFormed := by
  refine ⟨decide_eq_true, ?_⟩
  simp only [PositionState.holding, h]
  by_cases hzero : quantity = 0
  · simp [hzero]
  · simp [hzero]

/-- The fill branch keeps positions well-formed. -/
theorem wellFormed_fillPosition [DecimalContext] (e : LedgerEvent) (price : ℚ) {qty : ℚ}
    {pos : PositionState} (hqty : 0 < qty) (h : pos.holding.WellFormed) :
    (fillPosition e price qty pos).holding.WellFormed := by
  have hsigned : e.side.signedDecimal qty ≠ 0 := by
    cases e.side with
    | buy => exact hqty.ne'
    | sell => exact rounded_ne_zero (neg_ne_zero.mpr hqty.ne')
  unfold fillPosition
  by_cases hq : pos.quantity = 0
  · simp only [hq, if_true]
    exact ⟨fun _ ↦ rfl, iff_of_true (Option.some_ne_none price) hsigned⟩
  · obtain ⟨avg, havg⟩ := Option.ne_none_iff_exists'.mp (h.2.mpr hq)
    change pos.avgPrice = some avg at havg
    simp only [hq, if_false]
    split
    · next hsame =>
      have hne : rounded (pos.quantity + e.side.signedDecimal qty) ≠ 0 := by
        apply rounded_ne_zero
        rcases hsame with ⟨h1, h2⟩ | ⟨h1, h2⟩
        · exact (add_pos h1 h2).ne'
        · exact (add_neg h1 h2).ne
      unfold resizePosition
      simp only [havg, hq, hne, if_false]
      exact ⟨fun _ ↦ decide_eq_true hne, iff_of_true (Option.some_ne_none _) hne⟩
    · have hkept : (if 0 < min (rounded |pos.quantity|) (rounded |e.side.signedDecimal qty|) then
          realize pos (min (rounded |pos.quantity|) (rounded |e.side.signedDecimal qty|)) price
          else pos).avgPrice = some avg := by
        split
        · rw [avgPrice_realize, havg]
        · exact havg
      exact wellFormed_closed hkept _

/-- A correction keeps a position well-formed exactly when it empties it, prices it, or finds a
quantity in it. -/
theorem wellFormed_correctPosition_iff {e : LedgerEvent} {quantity : ℚ} {pos : PositionState}
    (h : pos.holding.WellFormed) : (correctPosition e quantity pos).holding.WellFormed ↔
      (quantity ≠ 0 → e.price ≠ none ∨ pos.quantity ≠ 0) := by
  have hpriced : pos.avgPrice ≠ none ↔ pos.quantity ≠ 0 := h.2
  unfold Holding.WellFormed correctPosition PositionState.holding
  simp only
  by_cases hq : quantity = 0
  · simp [hq]
  · rw [← hpriced]
    cases hp : e.price <;> simp [hq]

/-- A fresh event keeps all positions well-formed exactly when it meets the condition. -/
theorem wellFormed_applyEvent_iff [DecimalContext] {r : Replay} {e : LedgerEvent} {t : Tables}
    (hf : r.Fresh e) (ht : applyEvent e r.tables = .ok t)
    (h : ∀ c, (r.tables.position c).holding.WellFormed) :
    (∀ c, (t.position c).holding.WellFormed) ↔ KeepsPriced r.freeze e := by
  by_cases hc : e.NotCorrection
  · refine iff_of_true (fun c ↦ ?_) (fun _ _ he ↦ absurd he hc)
    cases hfill : e.isFill with
    | false =>
      rw [holding_applyEvent_of_not_fill hc hfill ht c]
      exact h c
    | true =>
      rw [applyEvent_of_fill hfill] at ht
      cases ht
      rcases holding_applyFill e r.tables c with hs | ⟨price, -, -, -, hq, hs⟩
      · rw [hs]
        exact h c
      · rw [hs]
        exact wellFormed_fillPosition e price hq (h c)
  · have he : e.eventType = .reconciliationCorrection := not_not.mp hc
    have ha : applyCorrection e r.tables = .ok t := by
      simpa only [applyEvent, he] using ht
    constructor
    · intro hall _ _ _ hkind quantity hquantity hne
      rcases holding_applyCorrection ha e.contractId with ⟨hno, -⟩ | ⟨-, -, q, hq, hs⟩
      · exact absurd ⟨hkind, rfl⟩ hno
      · rw [hquantity] at hq
        cases hq
        have hown := hall e.contractId
        rw [hs, wellFormed_correctPosition_iff (h e.contractId)] at hown
        rw [position_freeze]
        exact hown hne
    · intro hkeeps c
      rcases holding_applyCorrection ha c with ⟨-, hs⟩ | ⟨hkind, rfl, quantity, hq, hs⟩
      · rw [hs]
        exact h c
      · rw [hs, wellFormed_correctPosition_iff (h e.contractId)]
        intro hne
        have hown := hkeeps hf.1 hf.2 he hkind quantity hq hne
        rwa [position_freeze] at hown

/-! ### Runs -/

private theorem fullyCounted_iff_holdings [DecimalContext] (r : Replay) :
    FullyCounted r.freeze ↔ ∀ c, (r.tables.position c).holding.WellFormed := by
  rw [fullyCounted_freeze_iff]
  refine forall_congr' (fun c ↦ ?_)
  rw [position_freeze, wellFormed_toModel_iff]

private theorem fullyCounted_step_iff [DecimalContext] {r r' : Replay} {e : LedgerEvent}
    (hs : r.step e = .ok r')
    (h : FullyCounted r.freeze) : FullyCounted r'.freeze ↔ KeepsPriced r.freeze e := by
  rcases step_cases hs with ⟨hf, rfl⟩ | ⟨hf, t, ht, rfl⟩
  · exact iff_of_true h (fun hid hkey ↦ absurd ⟨hid, hkey⟩ hf)
  · rw [fullyCounted_iff_holdings] at h ⊢
    exact wellFormed_applyEvent_iff hf ht h

/-- The exact extent: every projection of a prefix is well-formed and fully counted exactly when
no correction of the sequence opens a position without bringing a price. -/
theorem fullyCounted_prefixes_iff [DecimalContext] (events : List LedgerEvent) :
    (∀ pre st, pre <+: events → project pre = .ok st → FullyCounted st) ↔
      ∀ pre e st, pre ++ [e] <+: events → project pre = .ok st →
        (∃ st', project (pre ++ [e]) = .ok st') → KeepsPriced st e := by
  have hnext {pre : List LedgerEvent} {e : LedgerEvent} {st' : ProjectionState}
      (h : project (pre ++ [e]) = .ok st') : ∃ r r' : Replay, project pre = .ok r.freeze ∧
        r.step e = .ok r' ∧ r'.freeze = st' := by
    obtain ⟨r', hr', hfreeze⟩ := project_eq_ok.mp h
    rw [replay_snoc] at hr'
    cases hr : replay Replay.start pre with
    | error err =>
      rw [hr] at hr'
      cases hr'
    | ok r =>
      rw [hr] at hr'
      exact ⟨r, r', project_eq_ok.mpr ⟨r, hr, rfl⟩, hr', hfreeze⟩
  constructor
  · rintro h pre e st hp hst ⟨st', hst'⟩
    obtain ⟨r, r', hr, hs, rfl⟩ := hnext hst'
    rw [hr] at hst
    cases hst
    exact (fullyCounted_step_iff hs (h pre _ ((List.prefix_append pre [e]).trans hp) hr)).mp
      (h (pre ++ [e]) _ hp hst')
  · intro h pre
    induction pre using List.reverseRecOn with
    | nil =>
      intro st _ hst
      cases hst
      exact ⟨fun _ hm ↦ (nomatch hm), rfl⟩
    | append_singleton pre e ih =>
      intro st' hp hst'
      obtain ⟨r, r', hr, hs, rfl⟩ := hnext hst'
      have hpre : pre <+: events := (List.prefix_append pre [e]).trans hp
      exact (fullyCounted_step_iff hs (ih _ hpre hr)).mpr (h pre e _ hp hr ⟨_, hst'⟩)

/-! ### Corrections of a report -/

/-- A correction of a report brings no price, so it keeps positions priced exactly when it empties
the position or finds a quantity in it. -/
theorem keepsPriced_corrects_iff [DecimalContext] {f : ReconciliationFinding} {e : LedgerEvent}
    {st : ProjectionState} (h : Corrects f e) : KeepsPriced st e ↔
      (e.ledgerEventId ∉ st.seenEventIds → e.idempotencyKey ∉ st.seenIdempotencyKeys →
        e.eventType = .reconciliationCorrection → correctionKindOf e = "position_quantity" →
        ∀ quantity, correctedQuantity e = .ok quantity → quantity ≠ 0 →
          (st.position e.contractId).quantity ≠ 0) := by
  obtain ⟨report, account, source, eventId, createdAt, hfields⟩ := h
  have hprice : e.price = none := congrArg (·.price) hfields
  unfold KeepsPriced
  simp only [hprice, ne_eq, not_true_eq_false, false_or]

open scoped DefaultContext

/-- The broker holds two contracts that the empty ledger does not know. -/
def unexpectedReport : ReconciliationReport :=
  ⟨"r", "s", ⟨2026, 7, 1, 16, 0, 0, 0, some 0⟩,
    [positionFinding .unexpectedBrokerPosition "x" "broker position not open in projected ledger"
      none (some ⟨false, 2, 0⟩)], false⟩

/-- The correction of that report. -/
def unexpectedCorrection : LedgerEvent :=
  ⟨correctionFields unexpectedReport "a" none "e" ⟨2026, 7, 1, 16, 0, 0, 0, some 0⟩
    (positionFinding .unexpectedBrokerPosition "x" "broker position not open in projected ledger"
      none (some ⟨false, 2, 0⟩)), by decide +kernel⟩

/-- The broker's price of 1.5 is dropped: the projection holds two contracts without a price, and
its capital usage is zero. -/
theorem not_fullyCounted_unexpectedPosition :
    reconcile "s" Replay.start.freeze [] [⟨"x", ⟨false, 2, 0⟩, some ⟨false, 15, -1⟩⟩] none
        ⟨2026, 7, 1, 16, 0, 0, 0, some 0⟩ "r" = .ok unexpectedReport ∧
      unexpectedReport.correctionEvents "a" none
        (fun _ ↦ ("e", ⟨2026, 7, 1, 16, 0, 0, 0, some 0⟩)) = some [unexpectedCorrection] ∧
      ∃ st, project [unexpectedCorrection] = .ok st ∧ st.capitalUsage = 0 ∧
        (st.position "x").quantity = 2 ∧ ¬ FullyCounted st := by
  refine ⟨ok_of_toOption (by decide +kernel), by decide +kernel, ?_⟩
  obtain ⟨st, hst⟩ : ∃ st, project [unexpectedCorrection] = .ok st := by
    cases h : project [unexpectedCorrection] with
    | ok st => exact ⟨st, rfl⟩
    | error err =>
      have hok : (project [unexpectedCorrection]).isOk = true := by decide +kernel
      rw [h] at hok
      cases hok
  have hd : (project [unexpectedCorrection]).toOption.map (fun st ↦ decide
      (st.capitalUsage = 0 ∧ (st.position "x").quantity = 2 ∧ ¬ FullyCounted st)) = some true := by
    decide +kernel
  rw [hst] at hd
  exact ⟨st, hst, of_decide_eq_true (Option.some.inj hd)⟩

end Joker.Ledger
