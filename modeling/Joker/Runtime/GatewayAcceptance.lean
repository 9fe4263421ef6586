import Joker.Base.UtcTime
import Joker.Runtime.OrderActionGateway
import Joker.Runtime.Submission

/-!
# What an acceptance says

Library `Runtime`. The facts a compiled command carries, and two consequences. The ledger books
the order under the id it prints for the contract, which is the request's id only when the
request spells it that way. The age of a quote is compared as it was when the option surface
was built, so the time that passed since then is not bounded.
-/

namespace Joker.Runtime.OrderActionGateway

open Joker.Base Joker.Ledger Joker.Broker Joker.Market

/-! ### Compiled commands -/

/-- What the checks of `_validate_and_compile` say together. -/
structure Compiles (gateway : OrderActionGateway) (request : OrderActionRequest)
    (truth : GatewayTruth) (surface : OptionSurfaceSnapshot) (row : OptionContractSnapshot)
    (contract : OptionContract) : Prop where
  dataQuality : validateDataQuality request truth.snapshot = .ok ()
  hasSurface : truth.snapshot.surface = some surface
  parsed : parseContractId gateway.reader request.contractId (some truth.snapshot.tradingDate) =
    .ok contract
  hasRow : surfaceRow surface request.contractId = some row
  quoteAge : ∀ limit ∈ request.maxQuoteAgeSeconds, row.quoteAgeMs ≤ limit * 1000
  positive : 0 < request.quantity
  action : validateAction request truth = .ok ()

/-- A quote's age passes when it is within the limit, where there is one. -/
theorem validateQuoteAge_eq_ok {limit : Option ℤ} {row : OptionContractSnapshot} {now : Datetime}
    {u : Unit} :
    validateQuoteAge limit row now = .ok u ↔ ∀ m ∈ limit, row.quoteAgeMs ≤ m * 1000 := by
  unfold validateQuoteAge
  cases limit with
  | none => simp
  | some m => simp

/-- A compiled command is the request's, for the contract its id names. -/
theorem compiles_of_validateAndCompile {gateway : OrderActionGateway}
    {request : OrderActionRequest} {truth : GatewayTruth} {command : ExecutionCommand}
    (h : gateway.validateAndCompile request truth = .ok command) :
    ∃ surface row contract, gateway.Compiles request truth surface row contract ∧
      command = commandOf request
        (orTexts [request.proposalId, request.decisionId] request.clientOrderId) contract
        request.side request.quantity := by
  simp only [validateAndCompile, bind_eq_ok, pure_eq_ok] at h
  obtain ⟨_, hquality, surface, hsurface, contract, hcontract, row, hrow, _, hage, _, hquantity, _,
    haction, rfl⟩ := h
  refine ⟨surface, row, contract, ?_, rfl⟩
  constructor
  · exact hquality
  · simp only [validateSurface, bind_eq_ok, orRaise_eq_ok, pure_eq_ok] at hsurface
    obtain ⟨_, hsome, _, _, rfl⟩ := hsurface
    exact hsome
  · simp only [validateContract, bind_eq_ok, pure_eq_ok] at hcontract
    obtain ⟨_, hparse, _, _, _, _, _, _, rfl⟩ := hcontract
    exact hparse
  · exact orRaise_eq_ok.mp hrow
  · exact validateQuoteAge_eq_ok.mp hage
  · simp only [validateQuantity, bind_eq_ok, require_eq_ok] at hquantity
    exact hquantity.choose_spec.1
  · exact haction

/-- An accepted request's command: under the request's id, for a positive quantity of the contract
its contract id is read as. -/
theorem command_of_verdict {gateway : OrderActionGateway} {request : OrderActionRequest}
    {truth : GatewayTruth} {verdict : Verdict} {command : ExecutionCommand}
    (h : gateway.verdict request truth = .ok verdict) (hcommand : verdict.command = some command) :
    ∃ candidateId contract side quantity,
      command = commandOf request candidateId contract side quantity ∧ 0 < quantity ∧
        parseContractId gateway.reader request.contractId (some truth.snapshot.tradingDate) =
          .ok contract := by
  unfold OrderActionGateway.verdict at h
  split at h
  · next compiled hcompile =>
    cases h
    cases hcommand
    obtain ⟨surface, row, contract, hfacts, rfl⟩ := compiles_of_validateAndCompile hcompile
    exact ⟨_, contract, _, _, rfl, hfacts.positive, hfacts.parsed⟩
  · split at h
    · simp only [bind_eq_ok, pure_eq_ok] at h
      obtain ⟨degraded, hclose, rfl⟩ := h
      cases hcommand
      simp only [compileDegradedClose, bind_eq_ok, pure_eq_ok, require_eq_ok] at hclose
      obtain ⟨_, _, _, hpos, contract, hparse, rfl⟩ := hclose
      exact ⟨_, contract, _, _, rfl, hpos, hparse⟩
    · cases h
      cases hcommand

/-- An accepted request names its contract by an id that is read as the command's contract. -/
theorem parse_of_verdict {gateway : OrderActionGateway} {request : OrderActionRequest}
    {truth : GatewayTruth} {verdict : Verdict} {command : ExecutionCommand}
    (h : gateway.verdict request truth = .ok verdict) (hcommand : verdict.command = some command) :
    parseContractId gateway.reader request.contractId (some truth.snapshot.tradingDate) =
      .ok command.intent.contract := by
  obtain ⟨_, contract, _, _, rfl, _, hparse⟩ := command_of_verdict h hcommand
  exact hparse

/-- An accepted request's command is for a positive quantity. -/
theorem quantity_pos_of_verdict {gateway : OrderActionGateway} {request : OrderActionRequest}
    {truth : GatewayTruth} {verdict : Verdict} {command : ExecutionCommand}
    (h : gateway.verdict request truth = .ok verdict) (hcommand : verdict.command = some command) :
    0 < command.intent.quantity := by
  obtain ⟨_, _, _, quantity, rfl, hpos, _⟩ := command_of_verdict h hcommand
  exact hpos

/-- What the verdict compiles, the validator compiles. -/
theorem validateAndCompile_of_verdict {gateway : OrderActionGateway}
    {request : OrderActionRequest} {truth : GatewayTruth} {command : ExecutionCommand}
    (h : gateway.verdict request truth = .ok (.compiled command)) :
    gateway.validateAndCompile request truth = .ok command := by
  unfold OrderActionGateway.verdict at h
  split at h
  · next compiled hcompile =>
    cases h
    exact hcompile
  · split at h
    · simp only [bind_eq_ok, pure_eq_ok] at h
      obtain ⟨_, _, hne⟩ := h
      cases hne
    · cases h

/-! ### Contract ids -/

/-- The events that book a command's order and position, from a broker whose order names the
command's contract. -/
inductive Books (rt : ExecutionRuntime) (command : ExecutionCommand) : EventFields → Prop where
  | requested (stamp : Stamp) : Books rt command (requestedFields rt command stamp)
  | accepted (order : BrokerOrder) (stamp : Stamp) :
      Books rt command (acceptedFields rt command order stamp)
  | rejected (e : PyException) (stamp : Stamp) :
      Books rt command (rejectedFields rt command e stamp)
  | filled (order : BrokerOrder) (h : order.contract = command.intent.contract)
      (price qty : Decimal) (final : Bool) (stamp : Stamp) :
      Books rt command (fillFields rt order command.clientOrderId price qty final stamp)

/-- All events of a command are booked under the text printed for its contract. -/
theorem contractId_of_books {rt : ExecutionRuntime} {command : ExecutionCommand}
    {fields : EventFields} (h : Books rt command fields) :
    fields.contractId = contractIdFor command.intent.contract := by
  cases h with
  | requested stamp => rfl
  | accepted order stamp => rfl
  | rejected e stamp => rfl
  | filled order h price qty final stamp => exact congrArg contractIdFor h

/-- An accepted contract id comes back from `contract_id_for`, and is the key under which the
ledger books an accepted request, exactly when its date and strike are spelled as printed. -/
theorem contractIds_roundTrip_iff (gateway : OrderActionGateway) :
    (∀ (id : String) (tradingDate : Date) (contract : OptionContract),
      parseContractId gateway.reader id (some tradingDate) = .ok contract →
        (contractIdFor contract = id ↔ SpelledAsPrinted gateway.reader tradingDate id)) ∧
    ∀ (request : OrderActionRequest) (truth : GatewayTruth) (verdict : Verdict)
      (command : ExecutionCommand),
      gateway.verdict request truth = .ok verdict → verdict.command = some command →
        ∀ fields, Books gateway.rt command fields →
          (fields.contractId = request.contractId ↔
            SpelledAsPrinted gateway.reader truth.snapshot.tradingDate request.contractId) := by
  constructor
  · intro id tradingDate contract h
    exact contractIdFor_parseContractId h
  · intro request truth verdict command h hcommand fields hbooks
    rw [contractId_of_books hbooks]
    exact contractIdFor_parseContractId (parse_of_verdict h hcommand)

/-- An id with a strike as it is printed, and its contract. -/
theorem contractIds_roundTrip_printed :
    contractIdFor ⟨"SPY", ⟨2026, 7, 1⟩, ⟨⟨false, 5000, -1⟩⟩, .call⟩ =
      "SPY:2026-07-01:500.0:call" := by
  apply ((contractIds_roundTrip_iff .sample).1 "SPY:2026-07-01:500.0:call" ⟨2026, 7, 1⟩
    ⟨"SPY", ⟨2026, 7, 1⟩, ⟨⟨false, 5000, -1⟩⟩, .call⟩ (by decide +kernel)).mpr
  decide +kernel

private def noon (second : ℕ) : Datetime := ⟨2026, 7, 1, 12, 0, second, 0, some 0⟩

/-- An entry on an id without the strike's decimal is accepted, and booked under another key. -/
theorem contractId_ne_of_integerStrike :
    ∃ command, OrderActionGateway.sample.verdict
        (.sample .entry "SPY:2026-07-01:500:call" .buy 1 "c")
        (.sample (.sample "SPY:2026-07-01:500:call" (noon 0) (noon 0)) (noon 0)) =
          .ok (.compiled command) ∧
      ∀ stamp, (requestedFields OrderActionGateway.sample.rt command stamp).contractId ≠
        "SPY:2026-07-01:500:call" := by
  refine ⟨commandOf (.sample .entry "SPY:2026-07-01:500:call" .buy 1 "c") "c"
    ⟨"SPY", ⟨2026, 7, 1⟩, ⟨⟨false, 5000, -1⟩⟩, .call⟩ .buy 1, by decide +kernel, ?_⟩
  intro stamp
  change contractIdFor ⟨"SPY", ⟨2026, 7, 1⟩, ⟨⟨false, 5000, -1⟩⟩, .call⟩ ≠ _
  decide +kernel

/-! ### Quote ages -/

/-- The row a surface has for a contract is one of its rows. -/
theorem mem_of_surfaceRow {surface : OptionSurfaceSnapshot} {contractId : String}
    {row : OptionContractSnapshot} (h : surfaceRow surface contractId = some row) :
    row ∈ surface.contracts := by
  have hm := Dict.mem_of_get?_ofList h
  obtain ⟨c, hc, he⟩ := List.mem_map.mp hm
  cases he
  exact hc

/-- No check reads the clock. -/
theorem verdict_now (gateway : OrderActionGateway) (request : OrderActionRequest)
    (truth : GatewayTruth) (now : Datetime) :
    gateway.verdict request { truth with now := now } = gateway.verdict request truth := rfl

/-- A request that is accepted on a surface is accepted at every time, with a quote that was
within the limit when the surface was built. So its quote is within the limit whenever the request
is accepted exactly when the limit reaches from the quote to the last time a clock can show. -/
theorem acceptedQuote_fresh_iff {gateway : OrderActionGateway} {builder : SurfaceBuilder}
    {rows : List ProviderRow} {exchangeTime : Datetime} {tradingDate : Date} {surfaceId : Uuid}
    {surface : OptionSurfaceSnapshot} {request : OrderActionRequest} {truth : GatewayTruth}
    {command : ExecutionCommand} {limit : ℤ}
    (hbuilt : fromProviderRows builder rows exchangeTime tradingDate surfaceId = .ok surface)
    (hsurface : truth.snapshot.surface = some surface)
    (hlimit : request.maxQuoteAgeSeconds = some limit)
    (haccept : gateway.verdict request truth = .ok (.compiled command)) :
    ∃ row, surfaceRow surface request.contractId = some row ∧
      builder.wholeMillis (exchangeTime.instant - row.quoteTimestamp.instant) ≤ limit * 1000 ∧
      ((∀ now : UtcTime,
          gateway.verdict request { truth with now := now.time } = .ok (.compiled command) →
            now.instant - row.quoteTimestamp.instant ≤ limit * 1000000) ↔
        UtcTime.last.instant - row.quoteTimestamp.instant ≤ limit * 1000000) := by
  obtain ⟨surface', row, contract, hfacts, _⟩ :=
    compiles_of_validateAndCompile (validateAndCompile_of_verdict haccept)
  obtain rfl : surface = surface' := Option.some.inj (hsurface.symm.trans hfacts.hasSurface)
  refine ⟨row, hfacts.hasRow, ?_, ?_, ?_⟩
  · have hage := hfacts.quoteAge limit hlimit
    rw [quoteAgeMs_of_mem hbuilt (mem_of_surfaceRow hfacts.hasRow)] at hage
    exact le_trans (le_max_right _ _) hage
  · intro hfresh
    apply hfresh UtcTime.last
    rw [verdict_now]
    exact haccept
  · intro hreaches now _
    have hlast := now.instant_le_last
    omega

private theorem built_sample : fromProviderRows .sample
    [.sample "SPY:2026-07-01:500.0:call" (noon 0)] (noon 20) ⟨2026, 7, 1⟩ "surface" =
      .ok (.sample "SPY:2026-07-01:500.0:call" (noon 0) (noon 20)) := by
  decide +kernel

private theorem surfaceRow_sample :
    surfaceRow (.sample "SPY:2026-07-01:500.0:call" (noon 0) (noon 20))
      "SPY:2026-07-01:500.0:call" =
        some (.sample "SPY:2026-07-01:500.0:call" (noon 0) (noon 20)) := by
  decide +kernel

/-- An entry with a limit of a minute is accepted at a time at which its quote is older. -/
theorem acceptedQuote_fresh_minute : ¬ ∀ now : UtcTime,
    OrderActionGateway.sample.verdict (.sample .entry "SPY:2026-07-01:500.0:call" .buy 1 "c")
        (.sample (.sample "SPY:2026-07-01:500.0:call" (noon 0) (noon 20)) now.time) =
      .ok (.compiled (commandOf (.sample .entry "SPY:2026-07-01:500.0:call" .buy 1 "c") "c"
        ⟨"SPY", ⟨2026, 7, 1⟩, ⟨⟨false, 5000, -1⟩⟩, .call⟩ .buy 1)) →
      now.instant - (noon 0).instant ≤ 60 * 1000000 := by
  have haccept : OrderActionGateway.sample.verdict
      (.sample .entry "SPY:2026-07-01:500.0:call" .buy 1 "c")
      (.sample (.sample "SPY:2026-07-01:500.0:call" (noon 0) (noon 20)) (noon 20)) =
        .ok (.compiled (commandOf (.sample .entry "SPY:2026-07-01:500.0:call" .buy 1 "c") "c"
          ⟨"SPY", ⟨2026, 7, 1⟩, ⟨⟨false, 5000, -1⟩⟩, .call⟩ .buy 1)) := by
    decide +kernel
  obtain ⟨row, hrow, _, hfresh⟩ := acceptedQuote_fresh_iff built_sample rfl rfl haccept
  obtain rfl := Option.some.inj (surfaceRow_sample.symm.trans hrow)
  exact fun hall ↦ absurd (hfresh.mp hall) (by decide +kernel)

/-- An entry with a limit of a minute is accepted on a quote that is an hour old. -/
theorem acceptedQuote_stale :
    ∃ builder rows exchangeTime surface row command now,
      fromProviderRows builder rows exchangeTime ⟨2026, 7, 1⟩ "surface" = .ok surface ∧
      surfaceRow surface "SPY:2026-07-01:500.0:call" = some row ∧
      OrderActionGateway.sample.verdict (.sample .entry "SPY:2026-07-01:500.0:call" .buy 1 "c")
        (.sample surface now) = .ok (.compiled command) ∧
      60 * 1000000 < now.instant - row.quoteTimestamp.instant :=
  ⟨_, _, _, _, _, commandOf (.sample .entry "SPY:2026-07-01:500.0:call" .buy 1 "c") "c"
    ⟨"SPY", ⟨2026, 7, 1⟩, ⟨⟨false, 5000, -1⟩⟩, .call⟩ .buy 1,
    ⟨2026, 7, 1, 13, 0, 0, 0, some 0⟩, built_sample, surfaceRow_sample, by decide +kernel,
    by decide +kernel⟩

end Joker.Runtime.OrderActionGateway
