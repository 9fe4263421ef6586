import Joker.Base.Checks
import Joker.Broker.Domain

/-!
# Contract ids

Library `Broker`. `parse_contract_id` of `joker/agents/cognitive/execution.py`, the reader of the
texts that `contract_id_for` prints. It accepts every spelling of a date and of a strike that
Python reads, so a text comes back from the contract it was read as exactly when its date and
its strike are spelled as they are printed.
-/

namespace Joker.Broker

open Joker.Base

/-- What Python's own functions make of a text: `float`, `date.fromisoformat` and `repr`.
Strikes are finite. -/
structure Reader where
  float : String → Option PyFloat
  fromisoformat : String → Option Date
  repr : String → String

/-- The literal with a text. -/
def OptionType.ofValue : String → Option OptionType
  | "call" => some .call
  | "put" => some .put
  | _ => none

/-- The end of `parse_contract_id`, on the four parts of the text. -/
def readContract (reader : Reader) (contractId : String) (tradingDate : Option Date)
    (symbol expiryRaw strikeRaw optionType : String) : Except String OptionContract := do
  let optionType ← orRaise (OptionType.ofValue optionType)
    ("invalid option_type in contract_id: " ++ reader.repr contractId)
  let expiry ← orRaise (reader.fromisoformat expiryRaw)
    ("invalid contract_id: " ++ reader.repr contractId)
  let strike ← orRaise (reader.float strikeRaw)
    ("invalid contract_id: " ++ reader.repr contractId)
  let tradingDate ← orRaise tradingDate
    "trading_date is required to derive 0DTE status for contract_id"
  require (expiry = tradingDate)
    ("contract expiry must equal the snapshot exchange trading date (expiry=" ++
      expiry.isoformat ++ ", trading_date=" ++ tradingDate.isoformat ++
      "); only 0DTE contracts are supported")
  pure ⟨symbol, expiry, strike, optionType⟩

/-- `parse_contract_id`. Source `joker/agents/cognitive/execution.py:364–400`. -/
def parseContractId (reader : Reader) (contractId : String) (tradingDate : Option Date) :
    Except String OptionContract :=
  match splitText ':' contractId with
  | [symbol, expiryRaw, strikeRaw, optionType] =>
    readContract reader contractId tradingDate symbol expiryRaw strikeRaw optionType
  | _ => .error ("unsupported contract_id format: " ++ reader.repr contractId ++
      "; expected SYMBOL:date:strike:type")

/-- The date and the strike of a contract id are spelled as `contract_id_for` prints them. -/
def SpelledAsPrinted (reader : Reader) (tradingDate : Date) (contractId : String) : Prop :=
  match splitText ':' contractId with
  | [_, expiryRaw, strikeRaw, _] =>
    expiryRaw = tradingDate.isoformat ∧
      ∀ strike ∈ reader.float strikeRaw, strikeRaw = strike.str
  | _ => True

instance (reader : Reader) (tradingDate : Date) (contractId : String) :
    Decidable (SpelledAsPrinted reader tradingDate contractId) := by
  unfold SpelledAsPrinted
  split <;> infer_instance

/-- The literal's text is read as the literal. -/
theorem value_of_ofValue {text : String} {optionType : OptionType}
    (h : OptionType.ofValue text = some optionType) : optionType.value = text := by
  unfold OptionType.ofValue at h
  split at h <;> cases h <;> rfl

private theorem roundTrip_of_parts {reader : Reader} {id symbol expiryRaw strikeRaw optionText :
    String} {tradingDate : Date} {contract : OptionContract}
    (hparts : splitText ':' id = [symbol, expiryRaw, strikeRaw, optionText])
    (h : readContract reader id (some tradingDate) symbol expiryRaw strikeRaw optionText =
      .ok contract) :
    contractIdFor contract = id ↔
      expiryRaw = tradingDate.isoformat ∧
        ∀ strike ∈ reader.float strikeRaw, strikeRaw = strike.str := by
  simp only [readContract, bind_eq_ok, orRaise_eq_ok, require_eq_ok, pure_eq_ok,
    Option.some.injEq] at h
  obtain ⟨optionType, hoption, expiry, _, strike, hstrike, _, rfl, _, rfl, rfl⟩ := h
  have hexpiry : ':' ∉ expiryRaw.toList := by
    apply not_mem_of_mem_splitText
    rw [hparts]
    simp
  have hraw : ':' ∉ strikeRaw.toList := by
    apply not_mem_of_mem_splitText
    rw [hparts]
    simp
  rw [← joinSep_of_splitText hparts]
  unfold contractIdFor
  rw [joinSep_right_inj, value_of_ofValue hoption, ← joinSep_assoc, ← joinSep_assoc,
    joinSep_left_inj, joinSep_inj_of_plain hexpiry hraw]
  apply and_congr eq_comm
  constructor
  · intro hprint strike' hs
    rw [hstrike, Option.mem_some_iff] at hs
    exact hs ▸ hprint.symm
  · exact fun hspell ↦ (hspell strike hstrike).symm

/-- A contract id comes back from its contract exactly when it is spelled as one is printed. -/
theorem contractIdFor_parseContractId {reader : Reader} {id : String} {tradingDate : Date}
    {contract : OptionContract} (h : parseContractId reader id (some tradingDate) = .ok contract) :
    contractIdFor contract = id ↔ SpelledAsPrinted reader tradingDate id := by
  unfold parseContractId at h
  unfold SpelledAsPrinted
  split at h
  · next hparts =>
    exact roundTrip_of_parts hparts h
  · cases h

/-- The symbol of a contract is the first part of its id. -/
theorem symbol_of_parseContractId {reader : Reader} {id : String} {tradingDate : Option Date}
    {contract : OptionContract} (h : parseContractId reader id tradingDate = .ok contract) :
    (splitText ':' id).head? = some contract.symbol := by
  unfold parseContractId at h
  split at h
  · next hparts =>
    simp only [readContract, bind_eq_ok, pure_eq_ok] at h
    obtain ⟨_, _, _, _, _, _, _, _, _, _, rfl⟩ := h
    rw [hparts]
    rfl
  · cases h

/-- The expiration of a contract is the trading date its id was read with. -/
theorem expiration_of_parseContractId {reader : Reader} {id : String} {tradingDate : Date}
    {contract : OptionContract} (h : parseContractId reader id (some tradingDate) = .ok contract) :
    contract.expiration = tradingDate := by
  unfold parseContractId at h
  split at h
  · simp only [readContract, bind_eq_ok, orRaise_eq_ok, require_eq_ok, pure_eq_ok,
      Option.some.injEq] at h
    obtain ⟨_, _, expiry, _, _, _, _, rfl, _, rfl, rfl⟩ := h
    rfl
  · cases h

/-- The reader takes the date and the strike of a contract as they are printed. -/
structure Reader.ReadsBack (reader : Reader) (contract : OptionContract) : Prop where
  date : reader.fromisoformat contract.expiration.isoformat = some contract.expiration
  strike : reader.float contract.strike.str = some contract.strike

private theorem colon_not_mem_isoformat (date : Date) : ':' ∉ date.isoformat.toList := by
  have hdigits {width n : ℕ} : ':' ∉ padded width n := by
    intro h
    unfold padded at h
    rcases List.mem_append.mp h with h | h
    · cases List.eq_of_mem_replicate h
    · cases Nat.isDigit_of_mem_toDigits (by decide) (by decide) h
  unfold Date.isoformat
  simp [hdigits]

/-- The text of a contract is read as the contract on its expiration. -/
theorem parseContractId_contractIdFor {reader : Reader} {contract : OptionContract}
    (hsymbol : ':' ∉ contract.symbol.toList) (hreads : reader.ReadsBack contract) :
    parseContractId reader (contractIdFor contract) (some contract.expiration) = .ok contract := by
  have htype : ':' ∉ contract.optionType.value.toList := by
    cases contract.optionType <;> decide
  have hsplit := splitText_joinSep hsymbol (colon_not_mem_isoformat contract.expiration)
    (contract.strike.not_mem_str ':' (by decide) (by decide)) htype
  have hvalue : OptionType.ofValue contract.optionType.value = some contract.optionType := by
    cases contract.optionType <;> rfl
  unfold parseContractId contractIdFor
  rw [hsplit]
  simp only [readContract, hvalue, hreads.date, hreads.strike, bind_eq_ok, orRaise_eq_ok,
    require_eq_ok, pure_eq_ok]
  exact ⟨_, rfl, _, rfl, _, rfl, _, rfl, (), rfl, rfl⟩

/-- No symbol that is read has a separator. -/
theorem colon_not_mem_symbol {reader : Reader} {id : String} {tradingDate : Option Date}
    {contract : OptionContract} (h : parseContractId reader id tradingDate = .ok contract) :
    ':' ∉ contract.symbol.toList := by
  apply @not_mem_of_mem_splitText _ id
  exact List.mem_of_mem_head? (symbol_of_parseContractId h)

/-- A reader of one date and of two spellings of one strike. -/
def Reader.sample : Reader where
  float s := if s ∈ ["500", "500.0"] then some ⟨⟨false, 5000, -1⟩⟩ else none
  fromisoformat s := if s = "2026-07-01" then some ⟨2026, 7, 1⟩ else none
  repr s := "'" ++ s ++ "'"

example : SpelledAsPrinted Reader.sample ⟨2026, 7, 1⟩ "SPY:2026-07-01:500.0:call" := by
  decide +kernel

end Joker.Broker
