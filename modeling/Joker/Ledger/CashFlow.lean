import Joker.Base.AverageCost
import Joker.Ledger.Replay

/-!
# Cash flow of the projection

Library `Ledger`. A projected position is an average-cost account: the fill branch of the
projector is the account's trade, every other event leaves the account alone. Realised P&L
is therefore the multiplier times the cash of the sells, less the cash of the buys, plus the
book value of what is still held.
-/

namespace Joker.Ledger

open Joker.Base
open scoped ExactArithmetic

/-! ### Positions as average-cost accounts -/

/-- The account a position stands for; P&L is counted without the contract multiplier. -/
def Holding.account (h : Holding) : CostAccount ℚ :=
  ⟨h.quantity, h.avgPrice.getD 0, h.realizedPnl / multiplier⟩

/-- An open quantity has an average price. -/
def Holding.Priced (h : Holding) : Prop := h.quantity ≠ 0 → h.avgPrice ≠ none

private theorem signed_ne_zero (side : Side) {qty : ℚ} (h : 0 < qty) : side.signed qty ≠ 0 := by
  cases side
  · exact ne_of_gt h
  · exact neg_ne_zero.mpr (ne_of_gt h)

private theorem account_resize {pos : PositionState} {avg d p : ℚ} (ha : pos.avgPrice = some avg)
    (hq : pos.quantity ≠ 0) (hs : (0 < pos.quantity ∧ 0 < d) ∨ (pos.quantity < 0 ∧ d < 0)) :
    (resizePosition pos d p).holding.account = pos.holding.account.trade d p ∧
      (resizePosition pos d p).holding.Priced := by
  have hne : pos.quantity + d ≠ 0 := by
    rcases hs with ⟨h1, h2⟩ | ⟨h1, h2⟩
    · exact ne_of_gt (add_pos h1 h2)
    · exact ne_of_lt (add_neg h1 h2)
  unfold resizePosition
  simp only [rounded_exact, ha, hq, hne, if_false]
  constructor
  · unfold CostAccount.trade
    simp only [Holding.account, PositionState.holding, ha, Option.getD_some, hq, false_or]
    rw [if_pos hs]
  · intro _
    simp [PositionState.holding]

private theorem account_close {pos : PositionState} {avg d p : ℚ} (ha : pos.avgPrice = some avg)
    (hd : d ≠ 0) (hq : pos.quantity ≠ 0)
    (hs : ¬ ((0 < pos.quantity ∧ 0 < d) ∨ (pos.quantity < 0 ∧ d < 0))) :
    (realize pos (min |pos.quantity| |d|) p).realizedPnl / multiplier =
      (pos.holding.account.trade d p).realized ∧
    (if 0 < pos.quantity then pos.quantity - min |pos.quantity| |d|
      else pos.quantity + min |pos.quantity| |d|) = (pos.holding.account.trade d p).quantity ∧
    (pos.holding.account.trade d p).avgCost = avg := by
  have hc : ¬ min |pos.quantity| |d| ≤ 0 :=
    not_le.mpr (lt_min (abs_pos.mpr hq) (abs_pos.mpr hd))
  unfold CostAccount.trade realize
  simp only [rounded_exact, Holding.account, PositionState.holding, ha, Option.getD_some, hq,
    false_or, hc, if_false]
  rw [if_neg hs]
  refine ⟨?_, rfl, rfl⟩
  simp only [multiplier]
  split <;> ring

/-- The fill branch is the account's trade, and leaves an open quantity priced. -/
theorem account_fillPosition (e : LedgerEvent) (price qty : ℚ) (pos : PositionState)
    (hqty : 0 < qty) (hp : pos.holding.Priced) :
    (∃ c, (fillPosition e price qty pos).holding.account =
        { pos.holding.account.trade (e.side.signed qty) price with avgCost := c } ∧
      (fillPosition e price qty pos).holding.account.bookValue =
        (pos.holding.account.trade (e.side.signed qty) price).bookValue) ∧
      (fillPosition e price qty pos).holding.Priced := by
  have hd := signed_ne_zero e.side hqty
  by_cases hq : pos.quantity = 0
  · -- From flat: the average over nothing and the fill is the fill's price.
    have habs : |e.side.signed qty| ≠ 0 := abs_ne_zero.mpr hd
    have htrade : pos.holding.account.trade (e.side.signed qty) price =
        ⟨e.side.signed qty, price, pos.realizedPnl / multiplier⟩ := by
      unfold CostAccount.trade
      simp only [Holding.account, PositionState.holding, hq, true_or, if_true, abs_zero,
        mul_zero, zero_add]
      rw [mul_div_assoc, div_self habs, mul_one]
    unfold fillPosition
    simp only [signedDecimal_exact, hq, if_true]
    refine ⟨⟨price, ?_, ?_⟩, fun _ ↦ by simp [PositionState.holding]⟩
    · rw [htrade]
      rfl
    · rw [htrade]
      rfl
  · obtain ⟨avg, ha⟩ := Option.ne_none_iff_exists'.mp (hp hq)
    have ha' : pos.avgPrice = some avg := ha
    unfold fillPosition
    simp only [rounded_exact, signedDecimal_exact, hq, if_false]
    split
    · next hs =>
      obtain ⟨h1, h2⟩ := account_resize (p := price) ha hq hs
      exact ⟨⟨_, by rw [h1], by rw [h1]⟩, h2⟩
    · next hs =>
      obtain ⟨h1, h2, h3⟩ := account_close (p := price) ha hd hq hs
      have hc : 0 < min |pos.quantity| |e.side.signed qty| :=
        lt_min (abs_pos.mpr hq) (abs_pos.mpr hd)
      generalize pos.holding.account.trade (e.side.signed qty) price = tr at h1 h2 h3 ⊢
      simp only [hc, if_true, PositionState.holding, Holding.account, quantity_realize,
        avgPrice_realize, ha', h1, h2]
      refine ⟨⟨_, rfl, ?_⟩, ?_⟩
      · simp only [CostAccount.bookValue, h3]
        by_cases h0 : tr.quantity = 0
        · simp [h0]
        · simp [h0]
      · intro hn
        simp only at hn
        simp [hn]

/-! ### Runs -/

/-- The quantity of a contract after a sequence of events. -/
def quantityAfter (c : String) (events : List LedgerEvent) : ℚ :=
  match project events with
  | .ok st => (st.position c).quantity
  | .error _ => 0

/-- The absolute amount by which an event changes a contract's quantity. -/
def movedQty (c : String) (earlier : List LedgerEvent) (e : LedgerEvent) : ℚ :=
  |quantityAfter c (earlier ++ [e]) - quantityAfter c earlier|

/-- The cash of one event on one side of a contract: what the fill moved times its price. -/
def fillCash (side : Side) (c : String) (earlier : List LedgerEvent) (e : LedgerEvent) : ℚ :=
  if e.isFill = true ∧ e.side = side then movedQty c earlier e * e.price.getD 0 else 0

private def cashFrom (side : Side) (c : String) : List LedgerEvent → List LedgerEvent → ℚ
  | _, [] => 0
  | earlier, e :: rest => fillCash side c earlier e + cashFrom side c (earlier ++ [e]) rest

/-- The sum of `moved_i * price_i` over the fills of one side of a contract. -/
def totalCash (side : Side) (c : String) (events : List LedgerEvent) : ℚ :=
  cashFrom side c [] events

private theorem cashFrom_snoc (side : Side) (c : String) (earlier xs : List LedgerEvent)
    (e : LedgerEvent) :
    cashFrom side c earlier (xs ++ [e]) =
      cashFrom side c earlier xs + fillCash side c (earlier ++ xs) e := by
  induction xs generalizing earlier with
  | nil => simp [cashFrom]
  | cons x rest ih =>
    simp only [List.cons_append, cashFrom, ih, List.append_assoc, List.nil_append, add_assoc]

/-- One more event adds its own cash. -/
theorem totalCash_snoc (side : Side) (c : String) (xs : List LedgerEvent) (e : LedgerEvent) :
    totalCash side c (xs ++ [e]) = totalCash side c xs + fillCash side c xs e := by
  rw [totalCash, cashFrom_snoc, List.nil_append]
  rfl

private theorem quantityAfter_of_replay {xs : List LedgerEvent} {r : Replay}
    (h : replay Replay.start xs = .ok r) (c : String) :
    quantityAfter c xs = (r.tables.position c).quantity := by
  unfold quantityAfter project
  rw [h]
  change (r.freeze.position c).quantity = _
  rw [position_freeze]
  rfl

-- The invariant of the loop: priced, and realised P&L accounts for all cash so far.
private def CashInvariant (xs : List LedgerEvent) (r : Replay) : Prop :=
  ∀ c, (r.tables.position c).holding.Priced ∧
    (r.tables.position c).holding.account.realized =
      totalCash .sell c xs - totalCash .buy c xs +
        (r.tables.position c).holding.account.bookValue

private theorem signed_cash (side : Side) (q q' price : ℚ)
    (h : match side with | .buy => 0 ≤ q' - q | .sell => q' - q ≤ 0) :
    (if side = .sell then |q' - q| * price else 0) - (if side = .buy then |q' - q| * price else 0) =
      -(q' - q) * price := by
  cases side with
  | buy =>
    simp only [reduceCtorEq, if_false, if_true, zero_sub, neg_mul] at h ⊢
    rw [abs_of_nonneg h]
  | sell =>
    simp only [reduceCtorEq, if_false, if_true, sub_zero] at h ⊢
    rw [abs_of_nonpos h]

private theorem trade_direction (a : CostAccount ℚ) (side : Side) {qty : ℚ} (p : ℚ)
    (h : 0 < qty) :
    match side with
    | .buy => 0 ≤ (a.trade (side.signed qty) p).quantity - a.quantity
    | .sell => (a.trade (side.signed qty) p).quantity - a.quantity ≤ 0 := by
  cases side with
  | buy => exact sub_nonneg.mpr (a.le_quantity_trade p h)
  | sell => exact sub_nonpos.mpr (a.quantity_trade_le p (neg_lt_zero.mpr h))

private theorem fillCash_of_unmoved {xs : List LedgerEvent} {e : LedgerEvent} {c : String}
    (side : Side) (h : quantityAfter c (xs ++ [e]) = quantityAfter c xs) :
    fillCash side c xs e = 0 := by
  unfold fillCash movedQty
  rw [h, sub_self, abs_zero, zero_mul, ite_self]

private theorem cashInvariant_of_unchanged {xs : List LedgerEvent} {e : LedgerEvent}
    {r r' : Replay} (hr : replay Replay.start xs = .ok r)
    (hr' : replay Replay.start (xs ++ [e]) = .ok r') {c : String}
    (hinv : (r.tables.position c).holding.Priced ∧
      (r.tables.position c).holding.account.realized =
        totalCash .sell c xs - totalCash .buy c xs +
          (r.tables.position c).holding.account.bookValue)
    (h : (r'.tables.position c).holding = (r.tables.position c).holding) :
    (r'.tables.position c).holding.Priced ∧
      (r'.tables.position c).holding.account.realized =
        totalCash .sell c (xs ++ [e]) - totalCash .buy c (xs ++ [e]) +
          (r'.tables.position c).holding.account.bookValue := by
  have hq : quantityAfter c (xs ++ [e]) = quantityAfter c xs := by
    rw [quantityAfter_of_replay hr', quantityAfter_of_replay hr]
    exact congrArg Holding.quantity h
  rw [h, totalCash_snoc, totalCash_snoc, fillCash_of_unmoved .sell hq,
    fillCash_of_unmoved .buy hq, add_zero, add_zero]
  exact hinv

private theorem cashInvariant_of_fill {xs : List LedgerEvent} {e : LedgerEvent}
    {r r' : Replay} (hr : replay Replay.start xs = .ok r)
    (hr' : replay Replay.start (xs ++ [e]) = .ok r') {c : String} {price qty : ℚ}
    (hprice : e.price = some price) (hfill : e.isFill = true) (hqty : 0 < qty)
    (hinv : (r.tables.position c).holding.Priced ∧
      (r.tables.position c).holding.account.realized =
        totalCash .sell c xs - totalCash .buy c xs +
          (r.tables.position c).holding.account.bookValue)
    (h : (r'.tables.position c).holding =
      (fillPosition e price qty (r.tables.position c)).holding) :
    (r'.tables.position c).holding.Priced ∧
      (r'.tables.position c).holding.account.realized =
        totalCash .sell c (xs ++ [e]) - totalCash .buy c (xs ++ [e]) +
          (r'.tables.position c).holding.account.bookValue := by
  obtain ⟨⟨avg, hacc, hbook⟩, hpriced⟩ :=
    account_fillPosition e price qty (r.tables.position c) hqty hinv.1
  rw [h]
  refine ⟨hpriced, ?_⟩
  have hreal := (r.tables.position c).holding.account.realized_trade (d := e.side.signed qty)
    price (signed_ne_zero e.side hqty)
  have hdir := trade_direction (r.tables.position c).holding.account e.side price hqty
  have hcash := signed_cash e.side _ _ price hdir
  have hq' : quantityAfter c (xs ++ [e]) =
      ((r.tables.position c).holding.account.trade (e.side.signed qty) price).quantity := by
    rw [quantityAfter_of_replay hr']
    have := congrArg Holding.quantity h
    exact this.trans (congrArg CostAccount.quantity hacc)
  have hq : quantityAfter c xs = (r.tables.position c).holding.account.quantity :=
    quantityAfter_of_replay hr c
  have hrealized : (fillPosition e price qty (r.tables.position c)).holding.account.realized =
      ((r.tables.position c).holding.account.trade (e.side.signed qty) price).realized := by
    rw [hacc]
  rw [hrealized, hbook, totalCash_snoc, totalCash_snoc]
  simp only [fillCash, movedQty, hfill, true_and, hprice, Option.getD_some, hq', hq]
  calc ((r.tables.position c).holding.account.trade (e.side.signed qty) price).realized
      = totalCash .sell c xs - totalCash .buy c xs +
          (-(((r.tables.position c).holding.account.trade (e.side.signed qty) price).quantity -
            (r.tables.position c).holding.account.quantity) * price) +
          ((r.tables.position c).holding.account.trade (e.side.signed qty) price).bookValue := by
        rw [hreal, hinv.2]
        ring
    _ = _ := by
        rw [← hcash]
        ring

private theorem cashInvariant_snoc {xs : List LedgerEvent} {e : LedgerEvent} {r r' : Replay}
    (hr : replay Replay.start xs = .ok r) (hr' : replay Replay.start (xs ++ [e]) = .ok r')
    (hnc : e.NotCorrection) (hinv : CashInvariant xs r) : CashInvariant (xs ++ [e]) r' := by
  have hs : r.step e = .ok r' := by
    rw [replay_snoc, hr] at hr'
    exact hr'
  intro c
  rcases step_cases hs with ⟨-, rfl⟩ | ⟨-, t, ht, rfl⟩
  · exact cashInvariant_of_unchanged hr hr' (hinv c) rfl
  · cases hf : e.isFill with
    | false =>
      exact cashInvariant_of_unchanged hr hr' (hinv c)
        (holding_applyEvent_of_not_fill hnc hf ht c)
    | true =>
      rw [applyEvent_of_fill hf] at ht
      cases ht
      rcases holding_applyFill e r.tables c with h | ⟨price, hp, -, -, hqty, h⟩
      · exact cashInvariant_of_unchanged hr hr' (hinv c) h
      · exact cashInvariant_of_fill hr hr' hp hf hqty (hinv c) h

private theorem cashInvariant_replay (xs : List LedgerEvent) (h : ∀ e ∈ xs, e.NotCorrection)
    (r : Replay) (hr : replay Replay.start xs = .ok r) : CashInvariant xs r := by
  induction xs using List.reverseRecOn generalizing r with
  | nil =>
    cases hr
    intro c
    exact ⟨fun hn ↦ absurd rfl hn, by
      simp [Replay.start, Tables.position, ensurePosition, PositionState.new,
        PositionState.holding, Holding.account, CostAccount.bookValue, totalCash, cashFrom]⟩
  | append_singleton xs e ih =>
    have hxs : ∀ e' ∈ xs, e'.NotCorrection := fun e' he ↦ h e' (List.mem_append_left _ he)
    obtain ⟨r₀, hr₀⟩ := replay_ok Replay.start xs hxs
    exact cashInvariant_snoc hr₀ hr (h e (by simp)) (ih hxs r₀ hr₀)

/-- Cash-flow identity of the projector in exact arithmetic: without corrections, every contract's
realised P&L is the multiplier times sell cash less buy cash plus quantity times average price, and
an open quantity always has an average price. -/
theorem realizedPnl_eq_cash_flow (events : List LedgerEvent)
    (h : ∀ e ∈ events, e.eventType ≠ .reconciliationCorrection) :
    ∃ st, project events = .ok st ∧ ∀ c,
      ((st.position c).quantity ≠ 0 → (st.position c).avgPrice ≠ none) ∧
      (st.position c).realizedPnl = 100 *
        (totalCash .sell c events - totalCash .buy c events +
          (st.position c).quantity * (st.position c).avgPrice.getD 0) := by
  obtain ⟨r, hr⟩ := replay_ok Replay.start events h
  refine ⟨r.freeze, project_eq_ok.mpr ⟨r, hr, rfl⟩, ?_⟩
  intro c
  obtain ⟨hp, hreal⟩ := cashInvariant_replay events h r hr c
  rw [position_freeze]
  refine ⟨hp, ?_⟩
  have hm : (r.tables.position c).realizedPnl =
      100 * ((r.tables.position c).realizedPnl / multiplier) := by
    simp only [multiplier]
    ring
  change (r.tables.position c).realizedPnl = _
  rw [hm]
  exact congrArg (fun x ↦ 100 * x) hreal

/-- One contract bought at 1.1 and sold at 1.5. -/
def roundTrip : List LedgerEvent :=
  [⟨EventFields.sample .finalFill "b" .buy 1 (some 1.1), by decide +kernel⟩,
    ⟨{ EventFields.sample .finalFill "s" .sell 1 (some 1.5) with clientOrderId := "d" },
      by decide +kernel⟩]

/-- The identity at a round trip. -/
theorem realizedPnl_roundTrip :
    ∃ st, project roundTrip = .ok st ∧ ∀ c,
      ((st.position c).quantity ≠ 0 → (st.position c).avgPrice ≠ none) ∧
      (st.position c).realizedPnl = 100 *
        (totalCash .sell c roundTrip - totalCash .buy c roundTrip +
          (st.position c).quantity * (st.position c).avgPrice.getD 0) :=
  realizedPnl_eq_cash_flow roundTrip (by decide +kernel)

example : (project roundTrip).toOption.map (fun st ↦ (st.position "x").realizedPnl) = some 40 := by
  decide +kernel

end Joker.Ledger
