import Joker.Runtime.DegradedClose

/-!
# Gateway submissions

Library `Runtime`. `OrderActionGateway.submit` of `joker/runtime/order_action_gateway.py`, with the
calls it makes of the execution runtime. A request ends in a submitted order or in a blocked
reason, except where the market data blocks a close and the second compiler, which runs inside the
handler of the first one's exception, cannot compile it either.
-/

namespace Joker.Runtime

open Joker.Base Joker.Ledger Joker.Broker Joker.Market

/-- The `extra` of a row that `submit` records. -/
inductive ProvenanceExtra where
  | degradedExit (reason : String)
  | replaceOf (clientOrderId : Option String)
  deriving DecidableEq

/-- `ExecutionProvenanceRecord`, as `submit` builds it.
Source `joker/persistence/cognitive_execution_provenance.py:36–49`. -/
structure ExecutionProvenanceRecord where
  clientOrderId : String
  proposalId : Option String
  decisionId : Option String
  strategyId : Option String
  cycleId : Option String
  snapshotId : String
  contractId : String
  sessionId : String
  kind : String
  extra : ProvenanceExtra
  deriving DecidableEq

/-- What the execution runtime answers. -/
structure RuntimeAnswers where
  cancelOrder : String → Option PyException
  submitExecutionCommand : ExecutionCommand → Except PyException BrokerOrder

/-- What `CognitiveGraphDeps` holds for the gateway: the runtime, the provenance registry, and
the session. -/
structure GatewayDeps where
  executionRuntime : Option RuntimeAnswers
  provenanceRegistry : Option (ExecutionProvenanceRecord → Option PyException)
  sessionId : String

/-- What a request is checked against: the snapshot that `load_snapshot_truth` returns, the
projection, and the clock. -/
structure GatewayLoads where
  snapshot : SnapshotTruth
  projection : Option ProjectionState
  now : Datetime

/-- A call of the execution runtime. -/
inductive RuntimeCall where
  | cancelOrder (clientOrderId : String)
  | submitExecutionCommand (command : ExecutionCommand)
  deriving DecidableEq

/-- What `submit` leaves behind: its calls of the runtime, the rows it recorded, and
`submitted_proposal_ids`. -/
structure SubmitTrace where
  calls : List RuntimeCall
  recorded : List ExecutionProvenanceRecord
  submittedProposalIds : List String

/-- The commands that were handed over. -/
def SubmitTrace.commands (trace : SubmitTrace) : List ExecutionCommand :=
  trace.calls.filterMap (fun call ↦
    match call with
    | .submitExecutionCommand command => some command
    | .cancelOrder _ => none)

/-- `OrderActionResult`. Source `joker/runtime/order_action_gateway.py:93–103`. -/
structure OrderActionResult where
  submitted : Bool
  clientOrderId : String
  brokerOrder : Option BrokerOrder
  blockedReason : Option String
  degradedExit : Bool
  degradedExitReason : Option String
  command : Option ExecutionCommand
  workingOrders : List WorkingOrderTruth

/-- What `submit` raises: `CognitiveValidationError`, or what the runtime or the registry raised. -/
inductive GatewayError where
  | validation (message : String)
  | runtime (e : PyException)
  | registry (e : PyException)
  deriving DecidableEq

namespace OrderActionGateway

/-! ### The method -/

/-- A result without an order. -/
def blockedResult (request : OrderActionRequest) (reason : String)
    (working : List WorkingOrderTruth) : OrderActionResult :=
  { submitted := false
    clientOrderId := request.clientOrderId
    brokerOrder := none
    blockedReason := some reason
    degradedExit := false
    degradedExitReason := none
    command := none
    workingOrders := working }

/-- A result with an order. -/
def submittedResult (command : ExecutionCommand) (order : BrokerOrder)
    (degradedExitReason : Option String) (working : List WorkingOrderTruth) : OrderActionResult :=
  { submitted := true
    clientOrderId := command.clientOrderId
    brokerOrder := some order
    blockedReason := none
    degradedExit := degradedExitReason.isSome
    degradedExitReason := degradedExitReason
    command := some command
    workingOrders := working }

/-- The row of an accepted request. -/
def provenanceRecord (deps : GatewayDeps) (request : OrderActionRequest)
    (command : ExecutionCommand) (extra : ProvenanceExtra) : ExecutionProvenanceRecord :=
  { clientOrderId := command.clientOrderId
    proposalId := request.proposalId
    decisionId := request.decisionId
    strategyId := request.strategyId
    cycleId := request.cycleId
    snapshotId := request.snapshotId
    contractId := request.contractId
    sessionId := deps.sessionId
    kind := request.action.value
    extra := extra }

/-- What the checks read. -/
def loadedTruth (loads : GatewayLoads) (submittedProposalIds : List String) : GatewayTruth :=
  { snapshot := loads.snapshot
    working := workingOrdersFromProjection loads.projection Dict.empty
    openPositions := openPositionsFromProjection loads.projection
    submittedProposalIds := submittedProposalIds
    now := loads.now }

/-- The row is recorded, if there is a registry. -/
def recordProvenance (deps : GatewayDeps) (record : ExecutionProvenanceRecord)
    (trace : SubmitTrace) : SubmitTrace × Except GatewayError Unit :=
  match deps.provenanceRegistry with
  | none => (trace, .ok ())
  | some registry =>
    match registry record with
    | some e => (trace, .error (.registry e))
    | none => ({ trace with recorded := trace.recorded ++ [record] }, .ok ())

/-- `submit_execution_command`, and the row of the request. -/
def handOver (deps : GatewayDeps) (runtime : RuntimeAnswers) (request : OrderActionRequest)
    (command : ExecutionCommand) (extra : ProvenanceExtra) (trace : SubmitTrace) :
    SubmitTrace × Except GatewayError BrokerOrder :=
  let trace := { trace with calls := trace.calls ++ [.submitExecutionCommand command] }
  match runtime.submitExecutionCommand command with
  | .error e => (trace, .error (.runtime e))
  | .ok order =>
    match recordProvenance deps (provenanceRecord deps request command extra) trace with
    | (trace, .error e) => (trace, .error e)
    | (trace, .ok ()) => (trace, .ok order)

/-- `cancel_order` of a REPLACE. -/
def cancelReplaced (runtime : RuntimeAnswers) (request : OrderActionRequest)
    (trace : SubmitTrace) : SubmitTrace × Except GatewayError Unit :=
  if request.action = .replace then
    let original := request.replaceOfClientOrderId.getD ""
    let trace := { trace with calls := trace.calls ++ [.cancelOrder original] }
    match runtime.cancelOrder original with
    | some e => (trace, .error (.runtime e))
    | none => (trace, .ok ())
  else (trace, .ok ())

/-- `submitted_proposal_ids.add`. -/
def noteProposal (request : OrderActionRequest) (trace : SubmitTrace) : SubmitTrace :=
  if presentText request.proposalId = true then
    { trace with
      submittedProposalIds := request.proposalId.getD "" :: trace.submittedProposalIds }
  else trace

/-- `submit` after the checks. Source `joker/runtime/order_action_gateway.py:223–355`. -/
def carryOut (deps : GatewayDeps) (runtime : RuntimeAnswers) (request : OrderActionRequest)
    (working : List WorkingOrderTruth) (trace : SubmitTrace) :
    Verdict → SubmitTrace × Except GatewayError OrderActionResult
  | .blocked reason => (trace, .ok (blockedResult request reason working))
  | .degraded command reason =>
    match handOver deps runtime request command (.degradedExit reason) trace with
    | (trace, .error e) => (trace, .error e)
    | (trace, .ok order) => (trace, .ok (submittedResult command order (some reason) working))
  | .compiled command =>
    match cancelReplaced runtime request trace with
    | (trace, .error e) => (trace, .error e)
    | (trace, .ok ()) =>
      match handOver deps runtime request command (.replaceOf request.replaceOfClientOrderId)
          trace with
      | (trace, .error e) => (trace, .error e)
      | (trace, .ok order) =>
        (noteProposal request trace, .ok (submittedResult command order none working))

/-- `OrderActionGateway.submit`, for a snapshot that loads.
Source `joker/runtime/order_action_gateway.py:223–355`. -/
def submit (gateway : OrderActionGateway) (deps : GatewayDeps) (loads : GatewayLoads)
    (request : OrderActionRequest) (submittedProposalIds : List String) :
    SubmitTrace × Except GatewayError OrderActionResult :=
  let trace : SubmitTrace := ⟨[], [], submittedProposalIds⟩
  match deps.executionRuntime with
  | none => (trace, .ok (blockedResult request "ExecutionRuntime unavailable" []))
  | some runtime =>
    let truth := loadedTruth loads submittedProposalIds
    match gateway.verdict request truth with
    | .error message => (trace, .error (.validation message))
    | .ok verdict => carryOut deps runtime request truth.working trace verdict

/-! ### The property -/

/-- Neither the runtime nor the registry's database raises. -/
structure Answers (deps : GatewayDeps) : Prop where
  cancelOrder : ∀ runtime ∈ deps.executionRuntime, ∀ id, runtime.cancelOrder id = none
  submitExecutionCommand : ∀ runtime ∈ deps.executionRuntime, ∀ command,
    ∃ order, runtime.submitExecutionCommand command = .ok order
  record : ∀ registry ∈ deps.provenanceRegistry, ∀ record, registry record = none

/-- A result, after one command was handed over or before any call. -/
def TwoOutcomes : SubmitTrace × Except GatewayError OrderActionResult → Prop
  | (_, .error _) => False
  | (trace, .ok result) =>
    (result.submitted = true ∧ trace.commands.length = 1) ∨
      (result.submitted = false ∧ result.blockedReason.isSome = true ∧ trace.calls = [])

/-! ### The condition -/

/-- The texts in a message that let a close go on. -/
def marketDataTokens : List String := ["data quality", "quote age", "option surface", "usable"]

/-- The market data stops a close. Unless its surface is missing or another one's, the contract id
is refused with a message that mentions one of the texts, or it is read and its quote is missing or
too old. -/
def MarketDataBlocks (reader : Reader) (request : OrderActionRequest) (snapshot : SnapshotTruth) :
    Prop :=
  ∀ surface ∈ snapshot.surface,
    (snapshot.optionSurfaceId = none ∨ snapshot.optionSurfaceId = some surface.surfaceId) →
      match parseContractId reader request.contractId (some snapshot.tradingDate) with
      | .error message => mentions marketDataTokens (lower message) = true
      | .ok contract => contract.symbol = "SPY" ∧ ∀ row ∈ surfaceRow surface request.contractId,
          ∃ limit ∈ request.maxQuoteAgeSeconds, limit * 1000 < row.quoteAgeMs

/-- A close is not compiled from the position alone: there is none, nothing is left to close, or
the contract id is not read. -/
def CannotClose (reader : Reader) (request : OrderActionRequest) (tradingDate : Date)
    (openPositions : Dict String PositionState) : Prop :=
  ∀ pos ∈ openPositions.get? request.contractId, 0 < min request.quantity (pyInt pos.quantity) →
    ∃ message, parseContractId reader request.contractId (some tradingDate) = .error message

/-- A close that may go on without market data is stopped by it and cannot be compiled from the
position. -/
structure Stranded (gateway : OrderActionGateway) (request : OrderActionRequest)
    (truth : GatewayTruth) : Prop where
  close : request.action ∈ [.exit, .reduce]
  allowed : request.allowDegradedExit = true
  blocked : MarketDataBlocks gateway.reader request truth.snapshot
  cannotClose : CannotClose gateway.reader request truth.snapshot.tradingDate truth.openPositions

/-! ### Messages -/

/-- The characters of the texts. -/
def isTokenChar (c : Char) : Bool := c.isLower || c == ' '

/-- Characters that no text has can be left out of a message. -/
theorem mentions_filter {message : String}
    (h : mentions marketDataTokens message = true) :
    mentions marketDataTokens (String.ofList (message.toList.filter isTokenChar)) = true := by
  simp only [mentions, marketDataTokens, List.any_cons, List.any_nil, Bool.or_eq_true,
    decide_eq_true_eq, Bool.or_false, String.toList_ofList] at h ⊢
  have hkeep : ∀ token ∈ marketDataTokens, token.toList.filter isTokenChar = token.toList := by
    decide
  have hinfix : ∀ token ∈ marketDataTokens, token.toList <:+: message.toList →
      token.toList <:+: message.toList.filter isTokenChar := by
    intro token htoken hin
    rw [← hkeep token htoken]
    exact hin.filter isTokenChar
  simp only [marketDataTokens, List.forall_mem_cons] at hinfix
  exact h.imp hinfix.1 (Or.imp hinfix.2.1 (Or.imp hinfix.2.2.1 hinfix.2.2.2.1))

private theorem not_isTokenChar_digit {c : Char} (h : c.isDigit = true) :
    isTokenChar (lowerChar c) = false := by
  have hall : ∀ m < 58, 48 ≤ m → isTokenChar (lowerChar (Char.ofNat m)) = false := by decide
  obtain ⟨hlow, hhigh⟩ := Char.isDigit_iff_toNat.mp h
  rw [← Char.ofNat_toNat c]
  exact hall c.toNat (Nat.lt_succ_of_le hhigh) hlow

/-- A number has none of these characters. -/
theorem filter_lower_toString (n : ℤ) :
    ((toString n).toList.map lowerChar).filter isTokenChar = [] := by
  have hdigits : ∀ m : ℕ, ((toString m).toList.map lowerChar).filter isTokenChar = [] := by
    intro m
    apply List.filter_eq_nil_iff.mpr
    intro c hc
    obtain ⟨d, hd, rfl⟩ := List.mem_map.mp hc
    rw [Nat.toString_eq_ofList_toDigits, String.toList_ofList] at hd
    have hdigit := Nat.isDigit_of_mem_toDigits (by decide) (by decide) hd
    simp [not_isTokenChar_digit hdigit]
  cases n with
  | ofNat m => exact hdigits m
  | negSucc m =>
    change (("-" ++ toString (m + 1)).toList.map lowerChar).filter isTokenChar = []
    rw [String.toList_append, List.map_append, List.filter_append, hdigits]
    decide

/-- A message with two numbers mentions what the texts around them mention. -/
theorem mentions_numbered {a b : String} {n m : ℤ}
    (h : mentions marketDataTokens (lower (a ++ toString n ++ b ++ toString m)) = true) :
    mentions marketDataTokens
      (String.ofList (((a ++ b).toList.map lowerChar).filter isTokenChar)) = true := by
  have hfilter := mentions_filter h
  simpa only [lower, String.toList_append, String.toList_ofList, List.map_append,
    List.filter_append, filter_lower_toString, List.append_nil] using hfilter

/-- What stops a close on its quantity, on the position or on the orders mentions none of the
texts. -/
theorem not_mentions_of_position {gateway : OrderActionGateway} {request : OrderActionRequest}
    {truth : GatewayTruth} {message : String}
    (h : (do validateQuantity gateway.maxQuantity request; validateClose request truth) =
      .error message) :
    mentions marketDataTokens (lower message) = false := by
  apply Bool.eq_false_iff.mpr
  intro hmentions
  simp only [validateQuantity, validateClose, bind_eq_error, require_eq_error, orRaise_eq_error]
    at h
  rcases h with (⟨_, rfl⟩ | ⟨_, _, _, rfl⟩) |
    ⟨_, _, ⟨_, rfl⟩ | ⟨_, _, ⟨_, rfl⟩ | ⟨_, _, ⟨_, rfl⟩ | ⟨_, _, _, rfl⟩⟩⟩⟩
  · revert hmentions
    decide +kernel
  · exact absurd (mentions_numbered hmentions) (by decide +kernel)
  · revert hmentions
    decide +kernel
  · revert hmentions
    decide +kernel
  · exact absurd (mentions_numbered hmentions) (by decide +kernel)
  · revert hmentions
    decide +kernel

/-- A surface is validated when the snapshot has it and names no other. -/
theorem validateSurface_eq_ok {truth : SnapshotTruth} {surface : OptionSurfaceSnapshot} :
    validateSurface truth = .ok surface ↔ truth.surface = some surface ∧
      (truth.optionSurfaceId = none ∨ truth.optionSurfaceId = some surface.surfaceId) := by
  simp only [validateSurface, bind_eq_ok, orRaise_eq_ok, require_eq_ok, pure_eq_ok]
  constructor
  · rintro ⟨_, hsurface, _, hid, rfl⟩
    exact ⟨hsurface, hid⟩
  · rintro ⟨hsurface, hid⟩
    exact ⟨surface, hsurface, (), hid, rfl⟩

/-- Every refusal of a surface lets a close go on. -/
theorem mentions_of_validateSurface {truth : SnapshotTruth} {message : String}
    (h : validateSurface truth = .error message) :
    mentions marketDataTokens (lower message) = true := by
  simp only [validateSurface, bind_eq_error, orRaise_eq_error, require_eq_error] at h
  rcases h with ⟨_, rfl⟩ | ⟨_, _, ⟨_, rfl⟩ | ⟨_, _, h⟩⟩
  · decide +kernel
  · decide +kernel
  · cases h

/-- A contract id is refused by its reader, or for its symbol. -/
theorem validateContract_eq_error {reader : Reader} {request : OrderActionRequest}
    {truth : SnapshotTruth} {message : String} :
    validateContract reader request truth = .error message ↔
      parseContractId reader request.contractId (some truth.tradingDate) = .error message ∨
        ∃ contract, parseContractId reader request.contractId (some truth.tradingDate) =
          .ok contract ∧ contract.symbol ≠ "SPY" ∧
            "only SPY contracts are supported" = message := by
  simp only [validateContract, bind_eq_error, require_eq_error]
  apply or_congr_right
  constructor
  · rintro ⟨contract, hparse, ⟨hsymbol, hmessage⟩ | ⟨_, _, hrest⟩⟩
    · exact ⟨contract, hparse, hsymbol, hmessage⟩
    · have hexpiration := expiration_of_parseContractId hparse
      rcases hrest with ⟨hne, _⟩ | ⟨_, _, ⟨hne, _⟩ | ⟨_, _, h⟩⟩
      · exact absurd hexpiration hne
      · exact absurd hexpiration hne
      · cases h
  · rintro ⟨contract, hparse, hsymbol, hmessage⟩
    exact ⟨contract, hparse, .inl ⟨hsymbol, hmessage⟩⟩

/-- A contract is validated when its id is read as one of SPY. -/
theorem validateContract_eq_ok_iff {reader : Reader} {request : OrderActionRequest}
    {truth : SnapshotTruth} {contract : OptionContract} :
    validateContract reader request truth = .ok contract ↔
      parseContractId reader request.contractId (some truth.tradingDate) = .ok contract ∧
        contract.symbol = "SPY" := by
  constructor
  · intro h
    simp only [validateContract, bind_eq_ok, require_eq_ok, pure_eq_ok] at h
    obtain ⟨_, hparse, _, hsymbol, _, _, _, _, rfl⟩ := h
    exact ⟨hparse, hsymbol⟩
  · rintro ⟨hparse, hsymbol⟩
    exact (validateContract_eq_ok request truth contract hparse).mpr ⟨hsymbol, rfl⟩

/-- A message mentions what its parts mention. -/
theorem mentions_append (tokens : List String) {a b c : String}
    (h : mentions tokens (lower b) = true) : mentions tokens (lower (a ++ b ++ c)) = true := by
  obtain ⟨token, htoken, hin⟩ := List.any_eq_true.mp h
  apply List.any_eq_true.mpr
  refine ⟨token, htoken, decide_eq_true ?_⟩
  apply (of_decide_eq_true hin).trans
  simp only [lower, String.toList_append, String.toList_ofList, List.map_append]
  exact List.infix_append _ _ _

/-- A quote is refused for its age alone. -/
theorem validateQuoteAge_eq_error {limit : Option ℤ} {row : OptionContractSnapshot}
    {now : Datetime} {message : String} :
    validateQuoteAge limit row now = .error message ↔ ∃ m ∈ limit, m * 1000 < row.quoteAgeMs ∧
      "quote age " ++ toString row.quoteAgeMs ++ "ms exceeds proposal limit " ++ toString m ++ "s" =
        message := by
  unfold validateQuoteAge
  cases limit with
  | none => simp
  | some m => simp

/-- Every refusal of a quote's age lets a close go on. -/
theorem mentions_of_validateQuoteAge {limit : Option ℤ} {row : OptionContractSnapshot}
    {now : Datetime} {message : String} (h : validateQuoteAge limit row now = .error message) :
    mentions marketDataTokens (lower message) = true := by
  obtain ⟨m, _, _, rfl⟩ := validateQuoteAge_eq_error.mp h
  have hage : mentions marketDataTokens (lower "quote age ") = true := by decide
  simpa only [String.append_assoc, String.empty_append] using
    mentions_append marketDataTokens (a := "")
      (c := toString row.quoteAgeMs ++ ("ms exceeds proposal limit " ++ (toString m ++ "s"))) hage

/-- A contract without a row lets a close go on, whatever its id. -/
theorem mentions_of_absent {reader : Reader} {contractId : String} :
    mentions marketDataTokens (lower ("contract_id " ++ reader.repr contractId ++
      " is absent from the option surface")) = true := by
  have habsent : mentions marketDataTokens (lower " is absent from the option surface") = true := by
    decide
  simpa only [String.append_empty] using mentions_append marketDataTokens (c := "") habsent

/-- A close that the market data stops fails with a message that lets it go on. -/
theorem validateAndCompile_of_marketDataBlocks {gateway : OrderActionGateway}
    {request : OrderActionRequest} {truth : GatewayTruth}
    (hclose : request.action ∈ [.exit, .reduce])
    (h : MarketDataBlocks gateway.reader request truth.snapshot) :
    ∃ message, gateway.validateAndCompile request truth = .error message ∧
      mentions marketDataTokens (lower message) = true := by
  simp only [validateAndCompile, validateDataQuality_of_close hclose,
    validateAction_of_close hclose, bind_eq_error]
  cases hsurface : validateSurface truth.snapshot with
  | error message =>
    exact ⟨message, .inr ⟨(), trivial, .inl rfl⟩, mentions_of_validateSurface hsurface⟩
  | ok surface =>
    obtain ⟨hsome, hid⟩ := validateSurface_eq_ok.mp hsurface
    have hstops := h surface hsome hid
    cases hparse : parseContractId gateway.reader request.contractId
        (some truth.snapshot.tradingDate) with
    | error message =>
      rw [hparse] at hstops
      have hcontract := validateContract_eq_error.mpr (.inl hparse)
      exact ⟨message, .inr ⟨(), trivial, .inr ⟨surface, rfl, .inl hcontract⟩⟩, hstops⟩
    | ok contract =>
      rw [hparse] at hstops
      obtain ⟨hsymbol, hquote⟩ := hstops
      have hcontract := validateContract_eq_ok_iff.mpr ⟨hparse, hsymbol⟩
      cases hrow : surfaceRow surface request.contractId with
      | none =>
        exact ⟨_, .inr ⟨(), trivial, .inr ⟨surface, rfl, .inr ⟨contract, hcontract,
          .inl (orRaise_eq_error.mpr ⟨hrow, rfl⟩)⟩⟩⟩, mentions_of_absent⟩
      | some row =>
        obtain ⟨limit, hlimit, hold⟩ := hquote row hrow
        have hage := (@validateQuoteAge_eq_error _ row truth.now _).mpr
          ⟨limit, hlimit, hold, rfl⟩
        exact ⟨_, .inr ⟨(), trivial, .inr ⟨surface, rfl, .inr ⟨contract, hcontract,
          .inr ⟨row, orRaise_eq_ok.mpr hrow, .inl hage⟩⟩⟩⟩, mentions_of_validateQuoteAge hage⟩

/-- A message that lets a close go on says that the market data stops it: the failures of the
quantity and of the position have other texts. -/
theorem marketDataBlocks_of_validateAndCompile {gateway : OrderActionGateway}
    {request : OrderActionRequest} {truth : GatewayTruth}
    (hclose : request.action ∈ [.exit, .reduce]) {message : String}
    (h : gateway.validateAndCompile request truth = .error message)
    (hmentions : mentions marketDataTokens (lower message) = true) :
    MarketDataBlocks gateway.reader request truth.snapshot := by
  simp only [validateAndCompile, validateDataQuality_of_close hclose,
    validateAction_of_close hclose, bind_eq_error] at h
  intro surface hsome hid
  have hsurface := validateSurface_eq_ok.mpr ⟨hsome, hid⟩
  rcases h with h | ⟨_, _, h | ⟨s, hs, h | ⟨contract, hcontract, h | ⟨row, hrow, h | h⟩⟩⟩⟩
  · cases h
  · cases hsurface.symm.trans h
  · rcases validateContract_eq_error.mp h with hparse | ⟨_, _, _, rfl⟩
    · rw [hparse]
      exact hmentions
    · exact absurd hmentions (by decide)
  all_goals
    obtain ⟨hparse, hsymbol⟩ := validateContract_eq_ok_iff.mp hcontract
    obtain rfl : surface = s := Except.ok.inj (hsurface.symm.trans hs)
    rw [hparse]
    refine ⟨hsymbol, fun row' hrow' ↦ ?_⟩
  · rw [(orRaise_eq_error.mp h).1] at hrow'
    cases hrow'
  · obtain rfl := Option.some.inj ((orRaise_eq_ok.mp hrow).symm.trans hrow')
    obtain ⟨limit, hlimit, hold, _⟩ := validateQuoteAge_eq_error.mp h
    exact ⟨limit, hlimit, hold⟩
  · have hposition :
        (do validateQuantity gateway.maxQuantity request; validateClose request truth) =
          .error message := by
      obtain ⟨_, _, h | ⟨_, hquantity, h | ⟨_, _, h⟩⟩⟩ := h
      · exact bind_eq_error.mpr (.inl h)
      · exact bind_eq_error.mpr (.inr ⟨_, hquantity, h⟩)
      · cases h
    exact absurd hmentions (Bool.eq_false_iff.mp (not_mentions_of_position hposition))

/-- The second compiler fails exactly when a close cannot be compiled from the position. -/
theorem cannotClose_iff {gateway : OrderActionGateway} {request : OrderActionRequest}
    {truth : GatewayTruth} :
    CannotClose gateway.reader request truth.snapshot.tradingDate truth.openPositions ↔
      ∃ message, gateway.compileDegradedClose request truth = .error message := by
  simp only [compileDegradedClose, bind_eq_error, orRaise_eq_error, orRaise_eq_ok, require_eq_error,
    require_eq_ok]
  unfold CannotClose
  constructor
  · intro h
    cases hpos : truth.openPositions.get? request.contractId with
    | none => exact ⟨_, .inl ⟨rfl, rfl⟩⟩
    | some pos =>
      by_cases hquantity : 0 < min request.quantity (pyInt pos.quantity)
      · obtain ⟨message, hparse⟩ := h pos hpos hquantity
        exact ⟨message, .inr ⟨pos, rfl, .inr ⟨(), hquantity, .inl hparse⟩⟩⟩
      · exact ⟨_, .inr ⟨pos, rfl, .inl ⟨hquantity, rfl⟩⟩⟩
  · rintro ⟨message, ⟨hnone, _⟩ | ⟨found, hfound, h⟩⟩ pos hpos hquantity
    · rw [hnone] at hpos
      cases hpos
    · obtain rfl : found = pos := Option.some.inj (hfound.symm.trans hpos)
      rcases h with ⟨hzero, _⟩ | ⟨_, _, hparse | ⟨_, _, h⟩⟩
      · exact absurd hquantity hzero
      · exact ⟨message, hparse⟩
      · cases h

/-- The decision raises exactly for a stranded close. -/
theorem stranded_iff {gateway : OrderActionGateway} {request : OrderActionRequest}
    {truth : GatewayTruth} :
    gateway.Stranded request truth ↔ ∃ message, gateway.verdict request truth = .error message := by
  constructor
  · rintro ⟨hclose, hallowed, hblocked, hcannot⟩
    obtain ⟨message, hcompile, hmentions⟩ := validateAndCompile_of_marketDataBlocks hclose hblocked
    obtain ⟨reason, hdegraded⟩ := cannotClose_iff.mp hcannot
    have hdegrade : mayDegrade request message = true := by
      simp only [mayDegrade, Bool.and_eq_true, decide_eq_true_eq]
      exact ⟨⟨hclose, hallowed⟩, hmentions⟩
    refine ⟨reason, ?_⟩
    unfold OrderActionGateway.verdict
    rw [hcompile]
    simp only [hdegrade, if_true]
    exact bind_eq_error.mpr (.inl hdegraded)
  · rintro ⟨reason, h⟩
    unfold OrderActionGateway.verdict at h
    split at h
    · cases h
    · next message hcompile =>
      split at h
      · next hdegrade =>
        simp only [mayDegrade, Bool.and_eq_true, decide_eq_true_eq] at hdegrade
        obtain ⟨⟨hclose, hallowed⟩, hmentions⟩ := hdegrade
        rcases bind_eq_error.mp h with h | ⟨_, _, h⟩
        · exact ⟨hclose, hallowed, marketDataBlocks_of_validateAndCompile hclose hcompile hmentions,
            cannotClose_iff.mpr ⟨reason, h⟩⟩
        · cases h
      · cases h

section

variable {deps : GatewayDeps} (hanswers : Answers deps) {runtime : RuntimeAnswers}
  (hruntime : deps.executionRuntime = some runtime)

include hanswers

/-- Recording a row makes no call. -/
theorem recordProvenance_of_answers (record : ExecutionProvenanceRecord) (trace : SubmitTrace) :
    ∃ trace', recordProvenance deps record trace = (trace', .ok ()) ∧
      trace'.calls = trace.calls := by
  unfold recordProvenance
  split
  · exact ⟨trace, rfl, rfl⟩
  · next registry hregistry =>
    rw [hanswers.record registry hregistry record]
    exact ⟨_, rfl, rfl⟩

include hruntime

/-- Handing a command over is one more call. -/
theorem handOver_of_answers (request : OrderActionRequest) (command : ExecutionCommand)
    (extra : ProvenanceExtra) (trace : SubmitTrace) :
    ∃ trace' order, handOver deps runtime request command extra trace = (trace', .ok order) ∧
      trace'.calls = trace.calls ++ [RuntimeCall.submitExecutionCommand command] := by
  obtain ⟨order, horder⟩ := hanswers.submitExecutionCommand runtime hruntime command
  obtain ⟨trace', hrecord, hcalls⟩ := recordProvenance_of_answers hanswers
    (provenanceRecord deps request command extra)
    { trace with calls := trace.calls ++ [.submitExecutionCommand command] }
  refine ⟨trace', order, ?_, hcalls⟩
  simp only [handOver, horder, hrecord]

/-- Cancelling an original hands nothing over. -/
theorem cancelReplaced_of_answers (request : OrderActionRequest) (trace : SubmitTrace) :
    ∃ trace', cancelReplaced runtime request trace = (trace', .ok ()) ∧
      trace'.commands = trace.commands := by
  unfold cancelReplaced
  split
  · simp only [hanswers.cancelOrder runtime hruntime]
    refine ⟨_, rfl, ?_⟩
    simp [SubmitTrace.commands]
  · exact ⟨trace, rfl, rfl⟩

/-- With a runtime and a registry that answer, every decision is carried out to one of the two
outcomes. -/
theorem twoOutcomes_carryOut (request : OrderActionRequest) (working : List WorkingOrderTruth)
    (ids : List String) (verdict : Verdict) :
    TwoOutcomes (carryOut deps runtime request working ⟨[], [], ids⟩ verdict) := by
  cases verdict with
  | blocked reason => exact .inr ⟨rfl, rfl, rfl⟩
  | degraded command reason =>
    obtain ⟨trace, order, hhand, hcalls⟩ := handOver_of_answers hanswers hruntime request command
      (.degradedExit reason) ⟨[], [], ids⟩
    simp only [carryOut, hhand]
    refine .inl ⟨rfl, ?_⟩
    simp [SubmitTrace.commands, hcalls]
  | compiled command =>
    obtain ⟨cancelled, hcancel, hcommands⟩ := cancelReplaced_of_answers hanswers hruntime request
      ⟨[], [], ids⟩
    obtain ⟨trace, order, hhand, hcalls⟩ := handOver_of_answers hanswers hruntime request command
      (.replaceOf request.replaceOfClientOrderId) cancelled
    simp only [carryOut, hcancel, hhand]
    refine .inl ⟨rfl, ?_⟩
    have hnote : (noteProposal request trace).calls = trace.calls := by
      unfold noteProposal
      split <;> rfl
    have hnone : cancelled.calls.filterMap _ = [] := hcommands
    simp only [SubmitTrace.commands, hnote, hcalls, List.filterMap_append, hnone]
    rfl

end

/-- `submit` ends in one of its two outcomes exactly when there is no runtime or the request is not
a stranded close. -/
theorem submit_twoOutcomes_iff (gateway : OrderActionGateway) (deps : GatewayDeps)
    (loads : GatewayLoads) (request : OrderActionRequest) (submittedProposalIds : List String)
    (hanswers : Answers deps) :
    TwoOutcomes (gateway.submit deps loads request submittedProposalIds) ↔
      (deps.executionRuntime.isSome = true →
        ¬ gateway.Stranded request (loadedTruth loads submittedProposalIds)) := by
  unfold OrderActionGateway.submit
  cases hruntime : deps.executionRuntime with
  | none => simp [TwoOutcomes, blockedResult]
  | some runtime =>
    simp only [Option.isSome_some, true_imp_iff]
    rw [stranded_iff]
    cases hverdict : gateway.verdict request (loadedTruth loads submittedProposalIds) with
    | error message => simp [TwoOutcomes]
    | ok verdict =>
      have houtcome := twoOutcomes_carryOut hanswers hruntime request
        (loadedTruth loads submittedProposalIds).working submittedProposalIds verdict
      simpa using houtcome

/-! ### Samples -/

/-- A runtime that takes every order, and a registry. -/
def answering : GatewayDeps where
  executionRuntime := some ⟨fun _ ↦ none, fun command ↦
    .ok (BrokerOrder.ofIntent "b" .open command.intent)⟩
  provenanceRegistry := some (fun _ ↦ none)
  sessionId := "s"

private theorem answers_answering : Answers answering := by
  constructor
  · rintro _ ⟨⟩ _
    rfl
  · rintro _ ⟨⟩ command
    exact ⟨_, rfl⟩
  · rintro _ ⟨⟩ _
    rfl

/-- The snapshot's surface is not stored. -/
def surfaceLost (positions : List (String × PositionState)) : GatewayLoads where
  snapshot := { SnapshotTruth.sample freshSurface with surface := none }
  projection := some ⟨Dict.empty, Dict.ofList positions, 0, ∅, ∅⟩
  now := ⟨2026, 7, 1, 12, 0, 0, 0, some 0⟩

/-- A held contract. -/
def heldOnce : List (String × PositionState) :=
  [(soldId, { PositionState.new soldId with quantity := 1 })]

/-- A close of a held contract ends in an order without its surface. -/
theorem submit_twoOutcomes_held :
    TwoOutcomes (OrderActionGateway.sample.submit answering (surfaceLost heldOnce) soldOnce
      []) := by
  apply (submit_twoOutcomes_iff _ _ _ _ _ answers_answering).mpr
  rintro - ⟨-, -, -, hcannot⟩
  obtain ⟨message, hparse⟩ := hcannot { PositionState.new soldId with quantity := 1 }
    (by decide +kernel) (by decide +kernel)
  revert hparse
  have hread : parseContractId Reader.sample soldId (some ⟨2026, 7, 1⟩) =
      .ok ⟨"SPY", ⟨2026, 7, 1⟩, ⟨⟨false, 5000, -1⟩⟩, .call⟩ := by
    decide +kernel
  intro hparse
  cases hread.symm.trans hparse

/-- A close of a contract that is not held raises without its surface, although the runtime
answers. -/
theorem not_twoOutcomes_notHeld :
    Answers answering ∧
      (OrderActionGateway.sample.submit answering (surfaceLost []) soldOnce []).2 =
        .error (.validation "degraded exit blocked: no authoritative open position") ∧
      ¬ TwoOutcomes (OrderActionGateway.sample.submit answering (surfaceLost []) soldOnce []) := by
  have hverdict : OrderActionGateway.sample.verdict soldOnce (loadedTruth (surfaceLost []) []) =
      .error "degraded exit blocked: no authoritative open position" := by
    decide +kernel
  have hraises : (OrderActionGateway.sample.submit answering (surfaceLost []) soldOnce []).2 =
      .error (.validation "degraded exit blocked: no authoritative open position") := by
    simp only [OrderActionGateway.submit, answering, hverdict]
  refine ⟨answers_answering, hraises, ?_⟩
  intro houtcomes
  unfold TwoOutcomes at houtcomes
  split at houtcomes
  · exact houtcomes
  · next hresult =>
    rw [hresult] at hraises
    cases hraises

end OrderActionGateway
end Joker.Runtime
