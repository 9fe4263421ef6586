import Joker.Broker.Interface

/-!
# Positions at the broker

Library `Broker`. `Position` of `joker/schemas/domain.py`, and the position rows of the
`PaperBroker`: a fill to buy opens a row, a fill to sell closes every open row of its contract.
-/

namespace Joker.Broker

open Joker.Base Joker.Ledger

/-- `Position`, as far as it is read. Source `joker/schemas/domain.py:368–376`. -/
structure Position where
  positionId : String
  contract : OptionContract
  quantity : Int
  avgEntryPrice : PyFloat
  isOpen : Bool
  deriving DecidableEq, Repr

/-- A broker that lists its positions. -/
class PositionLister (β : Type) {ω : outParam Type} [BrokerClient β ω] where
  listPositions : ω → BrokerM β (List Position)

/-! ### Paper broker -/

/-- `pos.contract == order.contract`; strikes compare as floats. -/
def sameContract (a b : OptionContract) : Bool :=
  decide (a.symbol = b.symbol ∧ a.expiration = b.expiration ∧
    a.strike.toRat = b.strike.toRat ∧ a.optionType = b.optionType)

/-- What one call draws from `uuid4`, with the id of a new position row. -/
structure PaperDraws extends PaperIds where
  positionId : String

/-- `PaperBroker` with its position rows. -/
structure PaperBook where
  base : PaperBroker
  positions : Dict String Position

/-- `_simulate_fill_price` without slippage: the limit price, or one. -/
def atLimit (intent : OrderIntent) : PyFloat :=
  match intent.limitPrice with
  | some limit => if limit.toRat = 0 then ⟨⟨false, 10, -1⟩⟩ else limit
  | none => ⟨⟨false, 10, -1⟩⟩

namespace PaperBook

/-- A new broker with `slippage_pct=0`. -/
def new : PaperBook := ⟨PaperBroker.new atLimit, Dict.empty⟩

/-- `_apply_fill`, on the position rows. -/
def applyFill (order : BrokerOrder) (fillPrice : PyFloat) (positionId : String)
    (positions : Dict String Position) : Dict String Position :=
  if order.side = .buy then
    positions.set positionId
      { positionId := positionId
        contract := order.contract
        quantity := order.quantity
        avgEntryPrice := fillPrice
        isOpen := true }
  else
    positions.mapValues (fun pos ↦
      if pos.isOpen && sameContract pos.contract order.contract then { pos with isOpen := false }
      else pos)

/-- `submit_order`. -/
def submitOrder (intent : OrderIntent) (draws : PaperDraws) (b : PaperBook) :
    PaperBook × Except PyException BrokerOrder :=
  match b.base.submitOrder intent draws.toPaperIds with
  | (base, .error e) => (⟨base, b.positions⟩, .error e)
  | (base, .ok order) =>
    (⟨base,
      if order.status = .filled then
        applyFill order (b.base.simulateFillPrice intent) draws.positionId b.positions
      else b.positions⟩, .ok order)

/-- `cancel_order`. -/
def cancelOrder (id : String) (b : PaperBook) : PaperBook × Except PyException BrokerOrder :=
  (⟨(b.base.cancelOrder id).1, b.positions⟩, (b.base.cancelOrder id).2)

/-- The open position rows. -/
def openRows (b : PaperBook) : List Position := b.positions.values.filter (fun pos ↦ pos.isOpen)

/-- The total open quantity of a contract. -/
def openTotal (b : PaperBook) (contractId : String) : ℤ :=
  ((b.openRows.filter (fun pos ↦ contractIdFor pos.contract = contractId)).map
    (fun pos ↦ pos.quantity)).sum

/-! ### What a fill does to the open rows -/

section Fills

variable {b : PaperBook} {base : PaperBroker} {order : BrokerOrder} {fillPrice : PyFloat}
  {positionId : String}

/-- A fill to buy opens one row. -/
theorem openRows_bought (hside : order.side = .buy) (hnew : positionId ∉ b.positions.keys) :
    (PaperBook.mk base (applyFill order fillPrice positionId b.positions)).openRows =
      b.openRows ++ [⟨positionId, order.contract, order.quantity, fillPrice, true⟩] := by
  have habsent := (Dict.not_mem_keys_iff _ _).mp hnew
  unfold openRows applyFill
  rw [if_pos hside]
  unfold Dict.values
  rw [Dict.entries_set_of_absent _ _ _ habsent, List.map_append, List.filter_append]
  rfl

/-- A fill to sell closes the open rows of the contract. -/
theorem openRows_sold (hside : order.side = .sell) :
    (PaperBook.mk base (applyFill order fillPrice positionId b.positions)).openRows =
      b.openRows.filter (fun pos ↦ !sameContract pos.contract order.contract) := by
  have hbuy : order.side ≠ .buy := by
    rw [hside]
    decide
  unfold openRows applyFill
  rw [if_neg hbuy, Dict.values_mapValues, List.filter_filter]
  induction b.positions.values with
  | nil => rfl
  | cons pos rest ih =>
    rw [List.map_cons, List.filter_cons, List.filter_cons, ih]
    cases hopen : pos.isOpen <;> cases hsame : sameContract pos.contract order.contract <;>
      simp [hopen]

/-- The total of a contract after a fill to buy. -/
theorem openTotal_bought (hside : order.side = .buy) (hnew : positionId ∉ b.positions.keys)
    (c : String) :
    (PaperBook.mk base (applyFill order fillPrice positionId b.positions)).openTotal c =
      b.openTotal c + if contractIdFor order.contract = c then order.quantity else 0 := by
  unfold openTotal
  rw [openRows_bought hside hnew, List.filter_append, List.map_append, List.sum_append]
  by_cases hc : contractIdFor order.contract = c
  · simp [hc]
  · simp [hc]

/-- The total of a contract after a fill to sell, where contract ids tell contracts apart. -/
theorem openTotal_sold (hside : order.side = .sell)
    (htold : ∀ pos ∈ b.openRows, sameContract pos.contract order.contract = true ↔
      contractIdFor pos.contract = contractIdFor order.contract) (c : String) :
    (PaperBook.mk base (applyFill order fillPrice positionId b.positions)).openTotal c =
      if contractIdFor order.contract = c then 0 else b.openTotal c := by
  unfold openTotal
  rw [openRows_sold hside, List.filter_filter]
  by_cases hc : contractIdFor order.contract = c
  · have hnone : b.openRows.filter (fun pos ↦ decide (contractIdFor pos.contract = c) &&
        !sameContract pos.contract order.contract) = [] := by
      apply List.filter_eq_nil_iff.mpr
      intro pos hpos
      have h := htold pos hpos
      rw [hc] at h
      simp [h]
    rw [hnone, if_pos hc]
    rfl
  · rw [if_neg hc]
    congr 2
    apply List.filter_congr
    intro pos hpos
    by_cases hid : contractIdFor pos.contract = c
    · have h := (htold pos hpos).not.mpr (fun he ↦ hc (he.symm.trans hid))
      simp [hid, h]
    · simp [hid]

end Fills

end PaperBook

instance : BrokerClient PaperBook PaperDraws where
  submitOrder intent draws := stretch (PaperBook.submitOrder intent draws)
  cancelOrder id _ := stretch (PaperBook.cancelOrder id)
  getOrder id _ := stretch (fun b ↦ (b, .ok (b.base.orders.get? id)))
  listOpenOrders _ := stretch (fun b ↦
    (b, .ok (b.base.orders.values.filter (fun order ↦ order.status = .open))))
  findOrderByIntentId := none
  orders b := some b.base.orders
  getFillPrice := some (fun id _ ↦ stretch (fun b ↦ (b, .ok (b.base.getFillPrice id))))
  fills b := some b.base.fills

instance : PositionLister PaperBook where
  listPositions _ := stretch (fun b ↦ (b, .ok b.positions.values))

end Joker.Broker
