import Mathlib.Algebra.Order.BigOperators.Group.List
import Mathlib.Tactic.Linarith
import Mathlib.Tactic.Ring
import Joker.Base.Runs
import Joker.Broker.Positions

/-!
# Cash and P&L of the paper broker

Library `Broker`. `PaperBroker._apply_fill` with its cash and its daily P&L, in exact arithmetic.
Cash is booked once for an order. P&L is booked once for every open row that a sale closes, each
time with the quantity of the order, so the two agree as long as every sale finds one open row, of
its own quantity.
-/

namespace Joker.Broker

open Joker.Base Joker.Ledger

/-- `PaperBroker` with its balances. Source `joker/broker/interface.py:51–166`. -/
structure PaperAccount extends PaperBook where
  initialBalance : ℚ
  cashBalance : ℚ
  dailyPnl : ℚ

/-- A call of `submit_order`. -/
structure PaperCall where
  intent : OrderIntent
  draws : PaperDraws

/-- A limit order at a price in whole dollars, filled at its limit. -/
def PaperCall.sample (side : Side) (quantity : ℤ) (dollars : ℕ) (tag : String) : PaperCall :=
  { intent :=
      { intentId := tag
        candidateId := tag
        contract := ⟨"SPY", ⟨2026, 7, 1⟩, ⟨⟨false, 5000, -1⟩⟩, .call⟩
        side := side
        orderType := .limit
        quantity := quantity
        limitPrice := some ⟨⟨false, 10 * dollars, -1⟩⟩ }
    draws := ⟨⟨"o" ++ tag, "f" ++ tag⟩, "p" ++ tag⟩ }

namespace PaperAccount

/-- A new broker. -/
def new (simulateFillPrice : OrderIntent → PyFloat) (initialBalance : ℚ) : PaperAccount :=
  { base := PaperBroker.new simulateFillPrice
    positions := Dict.empty
    initialBalance := initialBalance
    cashBalance := initialBalance
    dailyPnl := 0 }

/-- The P&L of one row: the row's price, and the order's quantity. -/
def rowPnl (fillPrice : PyFloat) (quantity : ℤ) (pos : Position) : ℚ :=
  (fillPrice.toRat - pos.avgEntryPrice.toRat) * quantity * 100

/-- The loop of `_apply_fill` over the position rows. -/
def bookRows (order : BrokerOrder) (fillPrice : PyFloat) (rows : List Position) (pnl : ℚ) : ℚ :=
  rows.foldl (fun pnl pos ↦
    if pos.isOpen && sameContract pos.contract order.contract then
      pnl + rowPnl fillPrice order.quantity pos
    else pnl) pnl

/-- `_apply_fill`. Source `joker/broker/interface.py:105–132`. -/
def applyFill (order : BrokerOrder) (fillPrice : PyFloat) (book : PaperBook)
    (account : PaperAccount) : PaperAccount :=
  let cost := fillPrice.toRat * order.quantity * 100
  { account with
    toPaperBook := book
    cashBalance :=
      if order.side = .buy then account.cashBalance - cost else account.cashBalance + cost
    dailyPnl :=
      if order.side = .buy then account.dailyPnl
      else bookRows order fillPrice account.positions.values account.dailyPnl }

/-- `submit_order`. -/
def submitOrder (intent : OrderIntent) (draws : PaperDraws) (account : PaperAccount) :
    PaperAccount × Except PyException BrokerOrder :=
  match account.toPaperBook.submitOrder intent draws with
  | (book, .error e) => ({ account with toPaperBook := book }, .error e)
  | (book, .ok order) =>
    (if order.status = .filled then
      applyFill order (account.base.simulateFillPrice intent) book account
    else { account with toPaperBook := book }, .ok order)

/-- The account after a call. -/
def place (account : PaperAccount) (call : PaperCall) : PaperAccount :=
  (submitOrder call.intent call.draws account).1

/-! ### What is held -/

/-- The quantity of an order, negative for a sale. -/
def signedQuantity (order : BrokerOrder) : ℤ :=
  match order.side with
  | .buy => order.quantity
  | .sell => -order.quantity

/-- What is held of a contract: the filled purchases less the filled sales. -/
def held (account : PaperAccount) (contract : OptionContract) : ℤ :=
  ((account.base.orders.values.filter (fun order ↦
    order.status = .filled && sameContract order.contract contract)).map signedQuantity).sum

/-- Nothing is held of any contract. -/
def Flat (account : PaperAccount) : Prop := ∀ contract, account.held contract = 0

/-- The open rows of a contract. -/
def rowsOf (account : PaperAccount) (contract : OptionContract) : List Position :=
  account.openRows.filter (fun pos ↦ sameContract pos.contract contract)

/-- What was paid for rows. -/
def costOf (rows : List Position) : ℚ :=
  (rows.map (fun pos ↦ pos.avgEntryPrice.toRat * (pos.quantity : ℚ) * 100)).sum

/-- A call with new ids that is filled, and that sells no more than is held. -/
def Fillable (account : PaperAccount) (call : PaperCall) : Prop :=
  call.draws.orderId ∉ account.base.usedOrderIds ∧ call.draws.positionId ∉ account.positions.keys ∧
    (call.intent.orderType = .limit ∧ call.intent.limitPrice.isSome = true ∧
      PaperBroker.shouldFill call.intent (account.base.simulateFillPrice call.intent) = true) ∧
    0 < call.intent.quantity ∧
    (call.intent.side = .sell → call.intent.quantity ≤ account.held call.intent.contract)

instance (account : PaperAccount) (call : PaperCall) : Decidable (account.Fillable call) :=
  inferInstanceAs (Decidable (_ ∧ _))

/-- What a sale books row by row is its proceeds less the cost of the rows it closes. -/
def BooksCost (account : PaperAccount) (call : PaperCall) : Prop :=
  call.intent.side = .sell →
    ((account.rowsOf call.intent.contract).map
        (rowPnl (account.base.simulateFillPrice call.intent) call.intent.quantity)).sum =
      (account.base.simulateFillPrice call.intent).toRat * call.intent.quantity * 100 -
        costOf (account.rowsOf call.intent.contract)

/-- A sale finds one open row of its contract, of exactly its quantity. -/
def SellsOneRow (account : PaperAccount) (call : PaperCall) : Prop :=
  call.intent.side = .sell →
    (account.rowsOf call.intent.contract).map (fun row ↦ row.quantity) = [call.intent.quantity]

instance (account : PaperAccount) (call : PaperCall) : Decidable (account.SellsOneRow call) :=
  inferInstanceAs (Decidable (_ → _))

/-- A sale of one row in full books its cost. -/
theorem booksCost_of_sellsOneRow {account : PaperAccount} {call : PaperCall}
    (h : account.SellsOneRow call) : account.BooksCost call := by
  intro hside
  obtain ⟨row, hrow, hquantity⟩ := List.map_eq_singleton_iff.mp (h hside)
  rw [hrow]
  simp only [costOf, rowPnl, hquantity, List.map_cons, List.map_nil, List.sum_cons, List.sum_nil]
  ring

/-! ### One fill -/

variable {account : PaperAccount} {call : PaperCall}

/-- The filled order of a call. -/
def filledOrder (call : PaperCall) : BrokerOrder :=
  .ofIntent call.draws.orderId .filled call.intent

/-- A call that fills applies its fill, and its order joins the order map. -/
theorem place_of_fillable (h : account.Fillable call) :
    ∃ base : PaperBroker,
      base.orders = account.base.orders.set call.draws.orderId (filledOrder call) ∧
      base.simulateFillPrice = account.base.simulateFillPrice ∧
      account.place call =
        applyFill (filledOrder call) (account.base.simulateFillPrice call.intent)
          ⟨base, PaperBook.applyFill (filledOrder call)
            (account.base.simulateFillPrice call.intent) call.draws.positionId
            account.positions⟩ account := by
  obtain ⟨hnew, -, hcrosses, -⟩ := h
  unfold place submitOrder PaperBook.submitOrder PaperBroker.submitOrder
  rw [if_neg hnew]
  simp only [if_pos hcrosses, BrokerOrder.ofIntent, if_true]
  refine ⟨_, ?_, ?_, rfl⟩
  · rfl
  · rfl

/-! ### Balances -/

/-- The loop adds the P&L of the open rows of the contract. -/
theorem bookRows_eq (order : BrokerOrder) (fillPrice : PyFloat) (rows : List Position) (pnl : ℚ) :
    bookRows order fillPrice rows pnl =
      pnl + (((rows.filter (fun pos ↦ pos.isOpen)).filter
        (fun pos ↦ sameContract pos.contract order.contract)).map
          (rowPnl fillPrice order.quantity)).sum := by
  unfold bookRows
  induction rows generalizing pnl with
  | nil => simp
  | cons pos rest ih =>
    rw [List.foldl_cons, ih]
    cases hopen : pos.isOpen <;> cases hsame : sameContract pos.contract order.contract <;>
      simp [hopen, hsame, add_assoc]

/-- What is held after a call. -/
theorem held_place (h : account.Fillable call) (contract : OptionContract) :
    (account.place call).held contract = account.held contract +
      if sameContract call.intent.contract contract then signedQuantity (filledOrder call)
      else 0 := by
  obtain ⟨base, horders, -, hplace⟩ := place_of_fillable h
  have habsent : account.base.orders.get? call.draws.orderId = none :=
    (Dict.not_mem_keys_iff _ _).mp (fun hk ↦ h.1 (account.base.used _ hk))
  have hvalues : (account.place call).base.orders.values =
      account.base.orders.values ++ [filledOrder call] := by
    rw [hplace]
    change base.orders.values = _
    rw [horders]
    unfold Dict.values
    rw [Dict.entries_set_of_absent _ _ _ habsent, List.map_append]
    rfl
  unfold held
  rw [hvalues, List.filter_append, List.map_append, List.sum_append]
  by_cases hsame : sameContract call.intent.contract contract = true
  · simp [filledOrder, BrokerOrder.ofIntent, hsame]
  · simp [filledOrder, BrokerOrder.ofIntent, hsame]

/-- The rows, the cash and the P&L after a purchase. -/
theorem place_bought (h : account.Fillable call) (hside : call.intent.side = .buy) :
    (account.place call).openRows = account.openRows ++
        [⟨call.draws.positionId, call.intent.contract, call.intent.quantity,
          account.base.simulateFillPrice call.intent, true⟩] ∧
      (account.place call).cashBalance = account.cashBalance -
        (account.base.simulateFillPrice call.intent).toRat * call.intent.quantity * 100 ∧
      (account.place call).dailyPnl = account.dailyPnl := by
  obtain ⟨base, -, -, hplace⟩ := place_of_fillable h
  have hbuy : (filledOrder call).side = .buy := hside
  rw [hplace]
  refine ⟨PaperBook.openRows_bought hbuy h.2.1, ?_, ?_⟩
  · unfold applyFill
    simp only [if_pos hbuy]
    rfl
  · unfold applyFill
    simp only [if_pos hbuy]

/-- The rows, the cash and the P&L after a sale. -/
theorem place_sold (h : account.Fillable call) (hside : call.intent.side = .sell) :
    (account.place call).openRows = account.openRows.filter
        (fun pos ↦ !sameContract pos.contract call.intent.contract) ∧
      (account.place call).cashBalance = account.cashBalance +
        (account.base.simulateFillPrice call.intent).toRat * call.intent.quantity * 100 ∧
      (account.place call).dailyPnl = account.dailyPnl +
        ((account.rowsOf call.intent.contract).map
          (rowPnl (account.base.simulateFillPrice call.intent) call.intent.quantity)).sum := by
  obtain ⟨base, -, -, hplace⟩ := place_of_fillable h
  have hsell : (filledOrder call).side = .sell := hside
  have hbuy : (filledOrder call).side ≠ .buy := by
    rw [hsell]
    decide
  rw [hplace]
  refine ⟨PaperBook.openRows_sold hsell, ?_, ?_⟩
  · unfold applyFill
    simp only [if_neg hbuy]
    rfl
  · unfold applyFill
    simp only [if_neg hbuy]
    exact bookRows_eq _ _ _ _

private theorem initialBalance_place (h : account.Fillable call) :
    (account.place call).initialBalance = account.initialBalance := by
  obtain ⟨base, -, -, hplace⟩ := place_of_fillable h
  rw [hplace]
  rfl

/-- Contracts are compared by four values. -/
theorem sameContract_congr {a b : OptionContract} (h : sameContract a b = true)
    (c : OptionContract) : sameContract c a = sameContract c b := by
  simp only [sameContract, decide_eq_true_eq] at h ⊢
  obtain ⟨hsymbol, hexpiration, hstrike, htype⟩ := h
  rw [hsymbol, hexpiration, hstrike, htype]

private theorem sameContract_comm (a b : OptionContract) : sameContract a b = sameContract b a := by
  unfold sameContract
  rw [decide_eq_decide]
  constructor
  · rintro ⟨hsymbol, hexpiration, hstrike, htype⟩
    exact ⟨hsymbol.symm, hexpiration.symm, hstrike.symm, htype.symm⟩
  · rintro ⟨hsymbol, hexpiration, hstrike, htype⟩
    exact ⟨hsymbol.symm, hexpiration.symm, hstrike.symm, htype.symm⟩

/-- What is held of two contracts that compare equal is the same. -/
theorem held_congr {a b : OptionContract} (h : sameContract a b = true)
    (account : PaperAccount) : account.held a = account.held b := by
  unfold held
  simp only [sameContract_congr h]

/-- An account with orders of one contract is flat when nothing is held of it. -/
theorem flat_of_oneContract {account : PaperAccount} (contract : OptionContract)
    (horders : ∀ order ∈ account.base.orders.values,
      sameContract order.contract contract = true) (hheld : account.held contract = 0) :
    account.Flat := by
  intro other
  by_cases hsame : sameContract contract other = true
  · rw [← held_congr hsame, hheld]
  · have hnone : account.base.orders.values.filter (fun order ↦
        order.status = .filled && sameContract order.contract other) = [] := by
      apply List.filter_eq_nil_iff.mpr
      intro order horder
      rw [sameContract_comm, sameContract_congr (horders order horder), sameContract_comm]
      simp [hsame]
    unfold held
    rw [hnone]
    rfl

/-- Cash and P&L differ by the cost of the open rows, and no more is open than is held. -/
structure Balanced (account : PaperAccount) : Prop where
  books : account.cashBalance - account.initialBalance =
    account.dailyPnl - costOf account.openRows
  positive : ∀ pos ∈ account.openRows, 0 < pos.quantity
  within : ∀ contract, ((account.rowsOf contract).map (fun pos ↦ pos.quantity)).sum ≤
    account.held contract

private theorem balanced_new (simulateFillPrice : OrderIntent → PyFloat) (initialBalance : ℚ) :
    Balanced (new simulateFillPrice initialBalance) where
  books := by
    change initialBalance - initialBalance = 0 - 0
    ring
  positive := fun pos hpos ↦ nomatch hpos
  within := fun _ ↦ le_refl 0

/-- The cost of rows is that of the ones with a property and of the others. -/
theorem costOf_filter (p : Position → Bool) (rows : List Position) :
    costOf rows = costOf (rows.filter p) + costOf (rows.filter (fun pos ↦ !p pos)) := by
  unfold costOf
  induction rows with
  | nil => simp
  | cons pos rest ih =>
    cases hp : p pos <;> simp [hp, ih] <;> ring

/-- A purchase moves its cost from the cash to the open rows. -/
theorem balanced_bought (hb : Balanced account) (h : account.Fillable call)
    (hside : call.intent.side = .buy) : Balanced (account.place call) := by
  obtain ⟨hrows, hcash, hpnl⟩ := place_bought h hside
  have hheld := held_place h
  have hsigned : signedQuantity (filledOrder call) = call.intent.quantity := by
    unfold signedQuantity
    rw [show (filledOrder call).side = .buy from hside]
    rfl
  refine ⟨?_, ?_, ?_⟩
  · have hcost : costOf (account.place call).openRows = costOf account.openRows +
        (account.base.simulateFillPrice call.intent).toRat * call.intent.quantity * 100 := by
      rw [hrows]
      simp [costOf]
    have hbooks := hb.books
    rw [hcash, hpnl, hcost, initialBalance_place h]
    linarith
  · intro pos hpos
    rw [hrows, List.mem_append, List.mem_singleton] at hpos
    rcases hpos with hold | rfl
    · exact hb.positive pos hold
    · exact h.2.2.2.1
  · intro contract
    have hold := hb.within contract
    rw [hheld, hsigned]
    unfold rowsOf at hold ⊢
    rw [hrows, List.filter_append, List.map_append, List.sum_append]
    by_cases hsame : sameContract call.intent.contract contract = true
    · simp only [List.filter_singleton, hsame, if_true, cond_true, List.map_singleton,
        List.sum_singleton]
      omega
    · simpa [List.filter_singleton, hsame] using hold

/-- A sale keeps the balance exactly when it books the cost of the rows it closes. -/
theorem balanced_sold_iff (hb : Balanced account) (h : account.Fillable call)
    (hside : call.intent.side = .sell) :
    Balanced (account.place call) ↔ account.BooksCost call := by
  obtain ⟨hrows, hcash, hpnl⟩ := place_sold h hside
  have hheld := held_place h
  have hsigned : signedQuantity (filledOrder call) = -call.intent.quantity := by
    unfold signedQuantity
    rw [show (filledOrder call).side = .sell from hside]
    rfl
  have hcost := costOf_filter (fun pos ↦ sameContract pos.contract call.intent.contract)
    account.openRows
  have hbooks := hb.books
  constructor
  · intro hafter _
    have hnew := hafter.books
    rw [hcash, hpnl, hrows, initialBalance_place h] at hnew
    change _ = _ - costOf (account.openRows.filter _)
    linarith
  · intro hbook
    refine ⟨?_, ?_, ?_⟩
    · have hclosed := hbook hside
      change _ = _ - costOf (account.openRows.filter _) at hclosed
      rw [hcash, hpnl, hrows, initialBalance_place h, hclosed]
      linarith
    · intro pos hpos
      rw [hrows] at hpos
      exact hb.positive pos (List.mem_of_mem_filter hpos)
    · intro contract
      have hold := hb.within contract
      rw [hheld, hsigned]
      unfold rowsOf at hold ⊢
      rw [hrows, List.filter_filter]
      by_cases hsame : sameContract call.intent.contract contract = true
      · -- the rows of the contract are closed
        have hnone : account.openRows.filter (fun pos ↦ sameContract pos.contract contract &&
            !sameContract pos.contract call.intent.contract) = [] := by
          apply List.filter_eq_nil_iff.mpr
          intro pos _
          simp [sameContract_congr hsame]
        have hcovered := h.2.2.2.2 hside
        rw [held_congr hsame] at hcovered
        rw [hnone, if_pos hsame]
        change 0 ≤ _
        omega
      · have hkept : account.openRows.filter (fun pos ↦ sameContract pos.contract contract &&
            !sameContract pos.contract call.intent.contract) =
              account.openRows.filter (fun pos ↦ sameContract pos.contract contract) := by
          apply List.filter_congr
          intro pos _
          by_cases hpos : sameContract pos.contract contract = true
          · have hother : sameContract pos.contract call.intent.contract = false := by
              rw [sameContract_comm, sameContract_congr hpos]
              exact Bool.not_eq_true _ ▸ hsame
            simp [hpos, hother]
          · simp [hpos]
        rw [hkept, if_neg hsame]
        omega

/-- A balanced account that is flat has earned its P&L in cash. -/
theorem dailyPnl_of_balanced (hb : Balanced account) (hflat : account.Flat) :
    account.dailyPnl = account.cashBalance - account.initialBalance := by
  have hclosed : account.openRows = [] := by
    apply List.eq_nil_iff_forall_not_mem.mpr
    intro pos hpos
    have hwithin := hb.within pos.contract
    rw [hflat] at hwithin
    have hmem : pos ∈ account.rowsOf pos.contract :=
      List.mem_filter.mpr ⟨hpos, by simp [sameContract]⟩
    have hle : pos.quantity ≤
        ((account.rowsOf pos.contract).map (fun pos ↦ pos.quantity)).sum := by
      apply List.single_le_sum
      · intro q hq
        obtain ⟨row, hrow, rfl⟩ := List.mem_map.mp hq
        exact (hb.positive row (List.mem_of_mem_filter hrow)).le
      · exact List.mem_map_of_mem hmem
    have hpositive := hb.positive pos hpos
    omega
  have hbooks := hb.books
  rw [hclosed] at hbooks
  change _ = _ - 0 at hbooks
  linarith

/-- In a run of filled orders each of whose sales finds one open row of its quantity, P&L is what
the cash gained whenever nothing is held. -/
theorem dailyPnl_eq_cash_of_stepsMeet (simulateFillPrice : OrderIntent → PyFloat)
    (initialBalance : ℚ) (calls : List PaperCall)
    (h : StepsMeet place (fun account call ↦ account.Fillable call ∧ account.SellsOneRow call)
      (new simulateFillPrice initialBalance) calls) :
    ∀ pre, pre <+: calls → (run place (new simulateFillPrice initialBalance) pre).Flat →
      (run place (new simulateFillPrice initialBalance) pre).dailyPnl =
        (run place (new simulateFillPrice initialBalance) pre).cashBalance -
          (run place (new simulateFillPrice initialBalance) pre).initialBalance := by
  intro pre hpre hflat
  refine dailyPnl_of_balanced (run_invariant_of_steps (I := Balanced) ?_
    (balanced_new simulateFillPrice initialBalance) (ok_of_stepsMeet h) pre hpre) hflat
  rintro account call hb ⟨hfillable, hrow⟩
  cases hside : call.intent.side with
  | buy => exact balanced_bought hb hfillable hside
  | sell => exact (balanced_sold_iff hb hfillable hside).mpr (booksCost_of_sellsOneRow hrow)

/-! ### Samples -/

/-- Two bought and sold at once, and one bought and sold again. -/
def soldInFull : List PaperCall :=
  [.sample .buy 2 1 "1", .sample .sell 2 3 "2", .sample .buy 1 4 "3", .sample .sell 1 2 "4"]

/-- Two bought, and sold one by one. -/
def soldOneByOne : List PaperCall :=
  [.sample .buy 2 1 "1", .sample .sell 1 2 "2", .sample .sell 1 2 "3"]

/-- The P&L of that run is its gain in cash. -/
theorem dailyPnl_eq_cash_soldInFull :
    (run place (new atLimit 25000) soldInFull).dailyPnl =
      (run place (new atLimit 25000) soldInFull).cashBalance -
        (run place (new atLimit 25000) soldInFull).initialBalance := by
  refine dailyPnl_eq_cash_of_stepsMeet atLimit 25000 soldInFull (by decide +kernel) soldInFull
    List.prefix_rfl ?_
  exact flat_of_oneContract (PaperCall.sample .buy 2 1 "1").intent.contract
    (by decide +kernel) (by decide +kernel)

/-- The second sale finds no open row: its P&L is never booked. -/
theorem dailyPnl_ne_cash_soldOneByOne :
    StepsMeet place Fillable (new atLimit 25000) soldOneByOne ∧
      (run place (new atLimit 25000) soldOneByOne).Flat ∧
      (run place (new atLimit 25000) soldOneByOne).dailyPnl ≠
        (run place (new atLimit 25000) soldOneByOne).cashBalance -
          (run place (new atLimit 25000) soldOneByOne).initialBalance := by
  refine ⟨by decide +kernel, ?_, by decide +kernel⟩
  exact flat_of_oneContract (PaperCall.sample .buy 2 1 "1").intent.contract
    (by decide +kernel) (by decide +kernel)

end PaperAccount
end Joker.Broker
