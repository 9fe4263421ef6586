import Joker.Base.Datetime
import Joker.Base.Dict
import Joker.Base.PyFloat
import Joker.Base.Text
import Joker.Ledger.Schemas

/-!
# Trading objects

Library `Broker`. The objects of `joker/schemas/domain.py` that pass between the execution
runtime and a broker, and `contract_id_for` of `joker/runtime/execution_runtime.py`, the text
under which the ledger knows a contract.
-/

namespace Joker.Broker

open Joker.Base Joker.Ledger

/-- `OptionContract.option_type`. Source `joker/schemas/domain.py:33`. -/
inductive OptionType where
  | call
  | put
  deriving DecidableEq, Repr

/-- The literal's text. -/
def OptionType.value : OptionType → String
  | .call => "call"
  | .put => "put"

/-- `OptionContract`; every contract is a 0DTE one. Source `joker/schemas/domain.py:29–40`. -/
structure OptionContract where
  symbol : String
  expiration : Date
  strike : PyFloat
  optionType : OptionType
  deriving DecidableEq, Repr

/-- `contract_id_for`. Source `joker/runtime/execution_runtime.py:60–65`. -/
def contractIdFor (contract : OptionContract) : String :=
  joinSep ':' contract.symbol (joinSep ':' contract.expiration.isoformat
    (joinSep ':' contract.strike.str contract.optionType.value))

/-- `OrderIntent.order_type`. Source `joker/schemas/domain.py:343`. -/
inductive OrderType where
  | limit
  | market
  deriving DecidableEq, Repr

/-- The literal's text. -/
def OrderType.value : OrderType → String
  | .limit => "limit"
  | .market => "market"

/-- `OrderIntent`. Source `joker/schemas/domain.py:338–345`. -/
structure OrderIntent where
  intentId : String
  candidateId : String
  contract : OptionContract
  side : Side
  orderType : OrderType
  quantity : Int
  limitPrice : Option PyFloat
  deriving DecidableEq, Repr

/-- `BrokerOrder.status`. Source `joker/schemas/domain.py:351`. -/
inductive BrokerStatus where
  | pending
  | «open»
  | filled
  | cancelled
  | rejected
  deriving DecidableEq, Repr

/-- The literal's text. -/
def BrokerStatus.value : BrokerStatus → String
  | .pending => "pending"
  | .open => "open"
  | .filled => "filled"
  | .cancelled => "cancelled"
  | .rejected => "rejected"

/-- `BrokerOrder`. Source `joker/schemas/domain.py:348–356`. -/
structure BrokerOrder where
  orderId : String
  intentId : String
  status : BrokerStatus
  contract : OptionContract
  side : Side
  quantity : Int
  limitPrice : Option PyFloat
  deriving DecidableEq, Repr

/-- The order a broker creates for an intent. -/
def BrokerOrder.ofIntent (orderId : String) (status : BrokerStatus) (intent : OrderIntent) :
    BrokerOrder :=
  { orderId := orderId
    intentId := intent.intentId
    status := status
    contract := intent.contract
    side := intent.side
    quantity := intent.quantity
    limitPrice := intent.limitPrice }

/-- `Fill`. Source `joker/schemas/domain.py:359–365`. -/
structure Fill where
  fillId : String
  orderId : String
  price : PyFloat
  quantity : Int
  deriving DecidableEq, Repr

/-- An exception by the name of its type and its text. -/
structure PyException where
  typeName : String
  text : String
  deriving DecidableEq, Repr

/-- `BrokerError`. Source `joker/broker/interface.py:13–14`. -/
def brokerError (text : String) : PyException := ⟨"BrokerError", text⟩

example : contractIdFor ⟨"SPY", ⟨2026, 7, 17⟩, ⟨⟨false, 6300, -1⟩⟩, .call⟩ =
    "SPY:2026-07-17:630.0:call" := by decide +kernel

end Joker.Broker
