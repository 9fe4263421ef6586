import Mathlib.Algebra.Order.Field.Rat
import Joker.Base.Datetime
import Joker.Base.Dict
import Joker.Base.Text

/-!
# Ledger event schemas

Library `Ledger`. The append-only facts of `joker/ledger/schemas.py`. Quantities, prices and
fees are the exact rational values of the source's `Decimal`s; a numeral's text is kept only
where the source prints it. `LedgerEvent` carries the proof that the field validators
accepted it.
-/

namespace Joker.Ledger

open Joker.Base

/-- A UUID by its canonical text, the form every key and column uses. -/
abbrev Uuid := String

/-- `Side`. Source `joker/ledger/schemas.py:13`. -/
inductive Side where
  | buy
  | sell
  deriving DecidableEq, Repr

/-- `LedgerEventType`. Source `joker/ledger/schemas.py:16–29`. -/
inductive LedgerEventType where
  | orderSubmissionRequested
  | brokerOrderAccepted
  | partialFill
  | finalFill
  | cancellation
  | rejection
  | positionOpened
  | positionResized
  | positionClosed
  | feeRecorded
  | reconciliationCorrection
  deriving DecidableEq, Repr

/-- The enumeration's string value. -/
def LedgerEventType.value : LedgerEventType → String
  | .orderSubmissionRequested => "order_submission_requested"
  | .brokerOrderAccepted => "broker_order_accepted"
  | .partialFill => "partial_fill"
  | .finalFill => "final_fill"
  | .cancellation => "cancellation"
  | .rejection => "rejection"
  | .positionOpened => "position_opened"
  | .positionResized => "position_resized"
  | .positionClosed => "position_closed"
  | .feeRecorded => "fee_recorded"
  | .reconciliationCorrection => "reconciliation_correction"

/-- A metadata value. Floats, lists and dictionaries are known by what the ledger asks of
any value: its truth and its text. -/
inductive MetaValue where
  | null
  | bool (b : Bool)
  | int (n : Int)
  | str (s : String)
  | other (truth : Bool) (text : String)
  deriving DecidableEq, Repr

/-- `bool(v)`. -/
def MetaValue.truthy : MetaValue → Bool
  | .null => false
  | .bool b => b
  | .int n => decide (n ≠ 0)
  | .str s => decide (s ≠ "")
  | .other truth _ => truth

/-- `str(v)`. -/
def MetaValue.text : MetaValue → String
  | .null => "None"
  | .bool true => "True"
  | .bool false => "False"
  | .int n => toString n
  | .str s => s
  | .other _ text => text

/-- `metadata`. Source `joker/ledger/schemas.py:50`. -/
abbrev Metadata := Dict String MetaValue

/-- The fields of `LedgerEvent` before validation. -/
structure EventFields where
  ledgerEventId : Uuid
  brokerAccountId : String
  clientOrderId : String
  brokerOrderId : Option String
  contractId : String
  side : Side
  quantity : ℚ
  price : Option ℚ
  exchangeTimestamp : Datetime
  sourceEventId : Option Uuid
  idempotencyKey : String
  eventType : LedgerEventType
  fees : Option ℚ
  metadata : Metadata
  sessionId : String
  positionId : Option String
  createdAt : Datetime
  deriving DecidableEq

/-- The field validators of `LedgerEvent`: aware timestamps, nonnegative amounts, and five
texts that are not blank. Source `joker/ledger/schemas.py:57–60, 64–67, 71–74, 84–87`. -/
def EventFields.Valid (f : EventFields) : Prop :=
  f.exchangeTimestamp.aware = true ∧ f.createdAt.aware = true ∧ 0 ≤ f.quantity ∧
    (∀ p ∈ f.price, 0 ≤ p) ∧ (∀ p ∈ f.fees, 0 ≤ p) ∧
    isBlank f.brokerAccountId = false ∧ isBlank f.clientOrderId = false ∧
    isBlank f.contractId = false ∧ isBlank f.idempotencyKey = false ∧
    isBlank f.sessionId = false

instance (f : EventFields) : Decidable f.Valid := inferInstanceAs (Decidable (_ ∧ _))

/-- `LedgerEvent`: an immutable fact whose fields passed validation.
Source `joker/ledger/schemas.py:32–87`. -/
structure LedgerEvent extends EventFields where
  valid : toEventFields.Valid

instance : DecidableEq LedgerEvent := fun a b ↦
  decidable_of_iff (a.toEventFields = b.toEventFields) (by
    constructor
    · intro h
      cases a
      cases b
      cases h
      rfl
    · exact congrArg LedgerEvent.toEventFields)

/-- `make_ledger_event`; a failing validator raises, here `none`.
Source `joker/ledger/schemas.py:90–132`. -/
def makeLedgerEvent (f : EventFields) : Option LedgerEvent :=
  if h : f.Valid then some ⟨f, h⟩ else none

/-- An event that was built has exactly the fields it was built from. -/
theorem makeLedgerEvent_eq_some {f : EventFields} {e : LedgerEvent}
    (h : makeLedgerEvent f = some e) : e.toEventFields = f := by
  unfold makeLedgerEvent at h
  split at h
  · cases h
    rfl
  · cases h

/-- An event is built from its own fields. -/
theorem makeLedgerEvent_toEventFields (e : LedgerEvent) :
    makeLedgerEvent e.toEventFields = some e := dif_pos e.valid

/-- The event the ledger tests start from: one account, order, contract and session, one
instant, and its idempotency key as its id. -/
def EventFields.sample (eventType : LedgerEventType) (key : String) (side : Side)
    (quantity : ℚ) (price : Option ℚ) : EventFields :=
  { ledgerEventId := key
    brokerAccountId := "a"
    clientOrderId := "c"
    brokerOrderId := none
    contractId := "x"
    side := side
    quantity := quantity
    price := price
    exchangeTimestamp := ⟨2026, 7, 1, 15, 0, 0, 0, some 0⟩
    sourceEventId := none
    idempotencyKey := key
    eventType := eventType
    fees := none
    metadata := Dict.empty
    sessionId := "s"
    positionId := none
    createdAt := ⟨2026, 7, 1, 15, 0, 0, 0, some 0⟩ }

/-- The samples of an order for two, of one for three, and of a first fill are valid. -/
theorem EventFields.valid_orderOfTwo :
    (sample .orderSubmissionRequested "s" .buy 2 none).Valid := by decide +kernel

/-- An order of three is a valid event. -/
theorem EventFields.valid_orderOfThree :
    (sample .orderSubmissionRequested "s" .buy 3 none).Valid := by decide +kernel

/-- A first fill of one is a valid event. -/
theorem EventFields.valid_firstFill : (sample .partialFill "f" .buy 1 (some 1)).Valid := by
  decide +kernel

namespace LedgerEvent

/-- Validated quantities are nonnegative. -/
theorem quantity_nonneg (e : LedgerEvent) : 0 ≤ e.quantity := e.valid.2.2.1

/-- Validated client order ids are not empty. -/
theorem clientOrderId_ne_empty (e : LedgerEvent) : e.clientOrderId ≠ "" := by
  intro h
  have hb := e.valid.2.2.2.2.2.2.1
  rw [h] at hb
  cases hb

/-- `event_type in _FILL_TYPES`. -/
def isFill (e : LedgerEvent) : Bool :=
  e.eventType == .partialFill || e.eventType == .finalFill

end LedgerEvent
end Joker.Ledger
