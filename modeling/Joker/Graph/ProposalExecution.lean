import Joker.Graph.CognitiveGraph

/-!
# From a proposal to the gateway

Library `Graph`. The validator and the compiler of `joker/agents/cognitive/execution.py`, and what
`submit_execution_command` of `joker/graph/cognitive_graph.py` makes of them: a proposal that is
validated and compiled goes to the gateway as a request, with its contract id printed anew, and is
checked again. `float` of a `Decimal` is a parameter.
-/

namespace Joker.Graph

open Joker.Base Joker.Ledger Joker.Broker Joker.Market Joker.Runtime

/-! ### Proposals -/

/-- `ExecutionLeg`, with what its field validator checked.
Source `joker/cognition/schemas.py:581–601`. -/
structure ExecutionLeg where
  legId : String
  contractId : String
  side : Side
  quantity : ℤ
  limitPrice : Option Decimal
  maxQuoteAgeSeconds : ℤ
  positive : 0 < quantity

/-- `ExecutionProposal` with its order type and its legs.
Source `joker/cognition/schemas.py:604–630`. -/
structure LeggedProposal extends ExecutionProposal where
  orderType : Broker.OrderType
  legs : List ExecutionLeg

/-- `ExecutionValidationConfig`. Source `joker/agents/cognitive/execution.py:43–51`. -/
structure ExecutionValidationConfig where
  allowedSymbol : String
  paperModeRequired : Bool
  maxLegs : ℤ
  allowedSides : List Side
  maxQuantity : ℤ
  requirePositiveQuantity : Bool

/-- The defaults of the configuration. -/
def ExecutionValidationConfig.default : ExecutionValidationConfig :=
  ⟨"SPY", true, 1, [.buy, .sell], 20, true⟩

/-- `AuthoritativeMarketTruth`; the id of a snapshot is never missing.
Source `joker/agents/cognitive/execution.py:55–66`. -/
structure AuthoritativeMarketTruth where
  snapshotId : String
  snapshot : SnapshotTruth
  workingOrders : List WorkingOrderTruth
  openOrderClientIds : List String
  openPositionContractIds : List String
  alreadySubmittedProposalIds : List String
  tradingMode : String
  now : Datetime

/-- `build_truth_from_deps`, in paper mode. Source `joker/agents/cognitive/execution.py:452–478`. -/
def buildTruthFromDeps (snapshotId : String) (loads : GatewayLoads)
    (submittedProposalIds : List String) : AuthoritativeMarketTruth :=
  let working := workingOrdersFromProjection loads.projection Dict.empty
  { snapshotId := snapshotId
    snapshot := loads.snapshot
    workingOrders := working
    openOrderClientIds := working.map WorkingOrderTruth.clientOrderId
    openPositionContractIds := (openPositionsFromProjection loads.projection).keys
    alreadySubmittedProposalIds := submittedProposalIds
    tradingMode := "PAPER"
    now := loads.now }

/-- The literal's text. -/
def sideText : Side → String
  | .buy => "buy"
  | .sell => "sell"

namespace ExecutionProposalValidator

variable (reader : Reader) (config : ExecutionValidationConfig)

/-! ### Validation -/

/-- `_validate_leg_basics`. Source `joker/agents/cognitive/execution.py:282–290`. -/
def validateLegBasics (quantity : ℤ) (side : Side) : Except String Unit := do
  require (config.requirePositiveQuantity = false ∨ 0 < quantity) "leg quantity must be positive"
  require (quantity ≤ config.maxQuantity)
    ("leg quantity " ++ toString quantity ++ " exceeds max_quantity=" ++
      toString config.maxQuantity)
  require (side ∈ config.allowedSides) ("unsupported leg side=" ++ reader.repr (sideText side))

/-- The contract of a leg, of the allowed symbol. -/
def validateSymbol (contractId : String) (tradingDate : Date) : Except String OptionContract := do
  let contract ← parseContractId reader contractId (some tradingDate)
  require (contract.symbol = config.allowedSymbol)
    ("contract symbol must be " ++ reader.repr config.allowedSymbol ++ "; got " ++
      reader.repr contract.symbol)
  pure contract

/-- The legs of a proposal, before any is looked at. -/
def validateShape (proposal : LeggedProposal) : Except String Unit := do
  require (proposal.legs ≠ []) "execution proposal must include at least one leg"
  require ((proposal.legs.length : ℤ) ≤ config.maxLegs)
    ("execution proposal exceeds max_legs=" ++ toString config.maxLegs)

/-- One turn of the loop over the legs of `_validate_authoritative`. -/
def validateLeg (truth : AuthoritativeMarketTruth) (surface : OptionSurfaceSnapshot)
    (leg : ExecutionLeg) : Except String Unit := do
  validateLegBasics reader config leg.quantity leg.side
  let contract ← validateSymbol reader config leg.contractId truth.snapshot.tradingDate
  require (contract.expiration = truth.snapshot.tradingDate)
    ("contract expiry must equal the snapshot exchange trading date (expiry=" ++
      contract.expiration.isoformat ++ ", trading_date=" ++
      truth.snapshot.tradingDate.isoformat ++ ")")
  let row ← orRaise (OrderActionGateway.surfaceRow surface leg.contractId)
    ("contract_id " ++ reader.repr leg.contractId ++ " is absent from the option surface")
  OrderActionGateway.validateQuoteAge (some leg.maxQuoteAgeSeconds) row truth.now
  require (leg.side ≠ .buy ∨ leg.contractId ∉ truth.openPositionContractIds)
    "conflicting active position exists for contract"
  require (leg.side ≠ .buy ∨ hasWorkingEntryOrder truth.workingOrders = false)
    "conflicting working entry order exists; no additional entry"

/-- An open order that already covers the proposal; its action is always one of the two that are
checked. -/
def validateOpenOrders (truth : AuthoritativeMarketTruth) (proposalId : String) :
    Except String Unit :=
  if truth.workingOrders ≠ [] then
    require (∀ order ∈ truth.workingOrders, order.proposalId ≠ some proposalId)
      "conflicting active order exists for proposal"
  else
    require (∀ id ∈ truth.openOrderClientIds, hasText proposalId id = false)
      "conflicting active order exists for proposal"

/-- The data quality of the truth. -/
def validateQuality (quality : Option Runtime.DataQualityReport) : Except String Unit :=
  match quality with
  | none => .error "data quality report unavailable; execution blocked"
  | some quality =>
    require (quality.usableForExecution = true)
      ("data quality does not permit execution (severity=" ++ quality.severity ++ ")")

/-- `_validate_authoritative`. Source `joker/agents/cognitive/execution.py:162–280`. -/
def validateAuthoritative (proposal : LeggedProposal) (truth : AuthoritativeMarketTruth) :
    Except String Unit := do
  require (proposal.snapshotId = truth.snapshotId)
    "execution proposal snapshot is stale or mismatched vs Task 1 truth"
  require (config.paperModeRequired = false ∨ upper truth.tradingMode = "PAPER")
    ("execution proposals require PAPER mode; got " ++ reader.repr truth.tradingMode)
  validateQuality truth.snapshot.dataQuality
  let surface ← OrderActionGateway.validateSurface truth.snapshot
  require (proposal.proposalId ∉ truth.alreadySubmittedProposalIds)
    "proposal/decision has already been submitted"
  validateShape config proposal
  proposal.legs.forM (validateLeg reader config truth surface)
  validateOpenOrders truth proposal.proposalId

/-- `validate`, with the truth or with what else a caller knows.
Source `joker/agents/cognitive/execution.py:114–160`. -/
def validate (proposal : LeggedProposal) (tradingMode : String) (latestSnapshotId : Option String)
    (tradingDate : Option Date) (truth : Option AuthoritativeMarketTruth) : Except String Unit :=
  match truth with
  | some truth => validateAuthoritative reader config proposal truth
  | none => do
    require (presentText latestSnapshotId = false ∨ some proposal.snapshotId = latestSnapshotId)
      "execution proposal snapshot is stale"
    require (config.paperModeRequired = false ∨ upper tradingMode = "PAPER")
      ("execution proposals require PAPER mode; got " ++ reader.repr tradingMode)
    validateShape config proposal
    let tradingDate ← orRaise tradingDate
      "trading_date is required to validate 0DTE contract expiry"
    proposal.legs.forM (fun leg ↦ do
      validateLegBasics reader config leg.quantity leg.side
      let _ ← validateSymbol reader config leg.contractId tradingDate)

end ExecutionProposalValidator

/-! ### Compilation -/

/-- `ExecutionCommandCompiler`: its account, and `float` of a decimal.
Source `joker/agents/cognitive/execution.py:316–361`. -/
structure ExecutionCommandCompiler where
  brokerAccountId : String
  float : Decimal → PyFloat

/-- The command of one leg. -/
def ExecutionCommandCompiler.compileLeg (compiler : ExecutionCommandCompiler)
    (proposal : LeggedProposal) (leg : ExecutionLeg) (clientOrderId : Option String)
    (contract : OptionContract) : ProvenancedExecutionCommand :=
  let orderId := OrderActionGateway.orTexts [clientOrderId]
    ("cog-" ++ proposal.proposalId ++ "-" ++ leg.legId)
  { command :=
      { clientOrderId := orderId
        intent :=
          { intentId := orderId
            candidateId := proposal.proposalId
            contract := contract
            side := leg.side
            orderType := proposal.orderType
            quantity := leg.quantity
            limitPrice := leg.limitPrice.map compiler.float }
        brokerAccountId := compiler.brokerAccountId }
    decisionId := proposal.decisionId
    strategyId := proposal.strategyId
    proposalId := proposal.proposalId
    snapshotId := proposal.snapshotId
    cycleId := proposal.cycleId
    maxQuoteAgeSeconds := some leg.maxQuoteAgeSeconds }

/-- `compile`. Source `joker/agents/cognitive/execution.py:322–361`. -/
def ExecutionCommandCompiler.compile (compiler : ExecutionCommandCompiler) (reader : Reader)
    (proposal : LeggedProposal) (clientOrderId : Option String) (tradingDate : Option Date) :
    Except String ProvenancedExecutionCommand :=
  match proposal.legs with
  | [leg] => do
    let contract ← parseContractId reader leg.contractId tradingDate
    pure (compiler.compileLeg proposal leg clientOrderId contract)
  | _ => .error "compiler currently supports single-leg proposals only"

/-- `validate_and_compile_proposal`, as the graph calls it: with the truth and the default
configuration. Source `joker/agents/cognitive/execution.py:423–449`. -/
def validateAndCompileProposal (compiler : ExecutionCommandCompiler) (reader : Reader)
    (proposal : LeggedProposal) (truth : AuthoritativeMarketTruth) :
    Except String ProvenancedExecutionCommand := do
  ExecutionProposalValidator.validate reader .default proposal "PAPER" none none (some truth)
  compiler.compile reader proposal none (some truth.snapshot.tradingDate)

/-- The kind of request that `submit_execution_command` makes of a proposal. -/
def LeggedProposal.actionKind (proposal : LeggedProposal) : OrderActionKind :=
  if proposal.action = .probe then .probe else .entry

/-! ### What a validated proposal says -/

/-- What the checks say of a proposal of one leg, and its contract. -/
structure Validated (reader : Reader) (proposal : LeggedProposal)
    (truth : AuthoritativeMarketTruth) (leg : ExecutionLeg) (surface : OptionSurfaceSnapshot)
    (contract : OptionContract) : Prop where
  legs : proposal.legs = [leg]
  quality : ExecutionProposalValidator.validateQuality truth.snapshot.dataQuality = .ok ()
  hasSurface : OrderActionGateway.validateSurface truth.snapshot = .ok surface
  submitted : proposal.proposalId ∉ truth.alreadySubmittedProposalIds
  quantity : leg.quantity ≤ 20
  parsed : parseContractId reader leg.contractId (some truth.snapshot.tradingDate) = .ok contract
  symbol : contract.symbol = "SPY"
  fresh : ∃ row, OrderActionGateway.surfaceRow surface leg.contractId = some row ∧
    row.quoteAgeMs ≤ leg.maxQuoteAgeSeconds * 1000
  notHeld : leg.side = .buy → leg.contractId ∉ truth.openPositionContractIds
  noEntry : leg.side = .buy → hasWorkingEntryOrder truth.workingOrders = false

variable {compiler : ExecutionCommandCompiler} {reader : Reader} {proposal : LeggedProposal}
  {truth : AuthoritativeMarketTruth} {provenanced : ProvenancedExecutionCommand}

/-- A proposal that is validated has one leg and is compiled. -/
theorem validated_of_validateAndCompile
    (h : validateAndCompileProposal compiler reader proposal truth = .ok provenanced) :
    ∃ leg surface contract, Validated reader proposal truth leg surface contract ∧
      provenanced = compiler.compileLeg proposal leg none contract := by
  obtain ⟨_, hvalid, hcompile⟩ := bind_eq_ok.mp h
  change ExecutionProposalValidator.validateAuthoritative reader .default proposal truth = _
    at hvalid
  simp only [ExecutionProposalValidator.validateAuthoritative,
    ExecutionProposalValidator.validateShape, bind_eq_ok, require_eq_ok, forM_eq_ok] at hvalid
  obtain ⟨_, _, _, _, _, hquality, surface, hsurface, _, hsubmitted, _, _, _, hlegs, _⟩ := hvalid
  unfold ExecutionCommandCompiler.compile at hcompile
  split at hcompile
  · next leg hleg =>
    obtain ⟨contract, hparse, hprovenanced⟩ := bind_eq_ok.mp hcompile
    have hturn := hlegs leg (hleg ▸ List.mem_singleton_self leg)
    simp only [ExecutionProposalValidator.validateLeg, ExecutionProposalValidator.validateSymbol,
      ExecutionProposalValidator.validateLegBasics, bind_eq_ok, require_eq_ok, orRaise_eq_ok,
      pure_eq_ok, OrderActionGateway.validateQuoteAge_eq_ok] at hturn
    obtain ⟨_, ⟨_, _, _, hquantity, _⟩, parsed, ⟨_, hparsed, _, hsymbol, rfl⟩, _, _, row, hrow, _,
      hage, _, hheld, hentry⟩ := hturn
    obtain rfl := Except.ok.inj (hparse.symm.trans hparsed)
    refine ⟨leg, surface, contract, ?_, (pure_eq_ok.mp hprovenanced).symm⟩
    exact
      { legs := hleg
        quality := hquality
        hasSurface := hsurface
        submitted := hsubmitted
        quantity := hquantity
        parsed := hparse
        symbol := hsymbol
        fresh := ⟨row, hrow, hage _ rfl⟩
        notHeld := fun hbuy ↦ hheld.resolve_left (not_not_intro hbuy)
        noEntry := fun hbuy ↦ hentry.resolve_left (not_not_intro hbuy) }
  · cases hcompile

/-! ### What the gateway makes of it -/

/-- What a request is checked for under the contract id that is printed for its contract: a quote
within the limit, and no open position where it is an entry. -/
def Stands (provenanced : ProvenancedExecutionCommand) (kind : OrderActionKind)
    (loads : GatewayLoads) : Prop :=
  let contractId := contractIdFor provenanced.command.intent.contract
  (∃ surface ∈ loads.snapshot.surface,
    ∃ row ∈ OrderActionGateway.surfaceRow surface contractId,
      ∀ limit ∈ provenanced.maxQuoteAgeSeconds, row.quoteAgeMs ≤ limit * 1000) ∧
    (kind = .entry → contractId ∉ (openPositionsFromProjection loads.projection).keys)

/-- Working orders of a projection have no proposal. -/
theorem proposalId_of_working {projection : Option ProjectionState} {order : WorkingOrderTruth}
    (h : order ∈ workingOrdersFromProjection projection Dict.empty) : order.proposalId = none := by
  unfold workingOrdersFromProjection at h
  cases projection with
  | none => cases h
  | some projection =>
    obtain ⟨lifecycle, _, hworking⟩ := List.mem_filterMap.mp h
    unfold workingOrder at hworking
    split at hworking
    · cases hworking
      rfl
    · cases hworking

variable {gateway : OrderActionGateway} {deps : GatewayDeps} {loads : GatewayLoads}
  {submittedProposalIds : List String} {kind : OrderActionKind}

section Requests

variable {leg : ExecutionLeg} {surface : OptionSurfaceSnapshot} {contract : OptionContract}
  (hvalid : Validated gateway.reader proposal
    (buildTruthFromDeps proposal.snapshotId loads submittedProposalIds) leg surface contract)

include hvalid

private theorem parse_reprinted (hreads : gateway.reader.ReadsBack contract) :
    parseContractId gateway.reader (contractIdFor contract) (some loads.snapshot.tradingDate) =
      .ok contract := by
  have hparse := parseContractId_contractIdFor (colon_not_mem_symbol hvalid.parsed) hreads
  rw [expiration_of_parseContractId hvalid.parsed] at hparse
  exact hparse

private theorem action_iff (hkind : kind = .entry ∨ kind = .probe) :
    let provenanced := compiler.compileLeg proposal leg none contract
    OrderActionGateway.validateAction (provenancedToActionRequest provenanced kind)
        (OrderActionGateway.loadedTruth loads submittedProposalIds) = .ok () ↔
      leg.side = .buy ∧ (kind = .entry →
        contractIdFor contract ∉ (openPositionsFromProjection loads.projection).keys) := by
  intro provenanced
  have hentry : OrderActionGateway.validateAction (provenancedToActionRequest provenanced kind)
      (OrderActionGateway.loadedTruth loads submittedProposalIds) =
        OrderActionGateway.validateEntry (provenancedToActionRequest provenanced kind)
          (OrderActionGateway.loadedTruth loads submittedProposalIds) := by
    rcases hkind with rfl | rfl <;> rfl
  have hnew : ∀ id ∈ some proposal.proposalId, id ∉ submittedProposalIds := by
    intro id hid
    rw [← Option.some.inj hid]
    exact hvalid.submitted
  have hother : ∀ order ∈ workingOrdersFromProjection loads.projection Dict.empty,
      order.proposalId ≠ some proposal.proposalId := by
    intro order horder
    rw [proposalId_of_working horder]
    exact Option.some_ne_none _ |>.symm
  rw [hentry]
  simp only [OrderActionGateway.validateEntry, bind_eq_ok, require_eq_ok]
  constructor
  · rintro ⟨_, _, _, _, _, _, _, hheld, hbuy⟩
    exact ⟨hbuy, fun hkind ↦ hheld.resolve_right (not_not_intro hkind)⟩
  · rintro ⟨hbuy, hheld⟩
    refine ⟨(), hvalid.noEntry hbuy, (), .inr hnew, (), .inr hother, (), ?_, hbuy⟩
    exact (Classical.em (kind = .entry)).imp hheld id

private theorem compiles_iff (hmaximum : gateway.maxQuantity = 20)
    (hproposal : proposal.proposalId ≠ "") (hreads : gateway.reader.ReadsBack contract)
    (hkind : kind = .entry ∨ kind = .probe) {command : ExecutionCommand} :
    let provenanced := compiler.compileLeg proposal leg none contract
    gateway.validateAndCompile (provenancedToActionRequest provenanced kind)
        (OrderActionGateway.loadedTruth loads submittedProposalIds) = .ok command ↔
      command = provenanced.command ∧ leg.side = .buy ∧ Stands provenanced kind loads := by
  intro provenanced
  have hquality : OrderActionGateway.validateDataQuality
      (provenancedToActionRequest provenanced kind) loads.snapshot = .ok () := by
    have hgated : kind ∈ [OrderActionKind.entry, .probe, .add, .replace] := by
      rcases hkind with rfl | rfl <;> decide
    have hloaded : ExecutionProposalValidator.validateQuality loads.snapshot.dataQuality = .ok () :=
      hvalid.quality
    unfold OrderActionGateway.validateDataQuality
    split
    · cases hfound : loads.snapshot.dataQuality with
      | none =>
        rw [hfound] at hloaded
        cases hloaded
      | some quality =>
        rw [hfound] at hloaded
        exact hloaded
    · next hungated => exact absurd hgated hungated
  have hcontract : OrderActionGateway.validateContract gateway.reader
      (provenancedToActionRequest provenanced kind) loads.snapshot = .ok contract :=
    OrderActionGateway.validateContract_eq_ok_iff.mpr ⟨parse_reprinted hvalid hreads, hvalid.symbol⟩
  have hquantity : OrderActionGateway.validateQuantity gateway.maxQuantity
      (provenancedToActionRequest provenanced kind) = .ok () := by
    simp only [OrderActionGateway.validateQuantity, bind_eq_ok, require_eq_ok]
    exact ⟨(), leg.positive, hmaximum ▸ hvalid.quantity⟩
  have hcommand : OrderActionGateway.commandOf (provenancedToActionRequest provenanced kind)
      (OrderActionGateway.orTexts [some proposal.proposalId, some proposal.decisionId]
        provenanced.command.clientOrderId) contract leg.side leg.quantity =
          provenanced.command := by
    have hfirst : OrderActionGateway.orTexts [some proposal.proposalId, some proposal.decisionId]
        provenanced.command.clientOrderId = proposal.proposalId := if_neg hproposal
    rw [hfirst]
    rfl
  obtain ⟨hsome, _⟩ := OrderActionGateway.validateSurface_eq_ok.mp hvalid.hasSurface
  simp only [OrderActionGateway.validateAndCompile, bind_eq_ok, pure_eq_ok, orRaise_eq_ok,
    OrderActionGateway.validateQuoteAge_eq_ok]
  constructor
  · rintro ⟨_, _, surface', hsurface, contract', hcontract', row, hrow, _, hage, _, _, _, haction,
      rfl⟩
    obtain rfl := Except.ok.inj (hcontract.symm.trans hcontract')
    obtain ⟨hbuy, hheld⟩ := (action_iff hvalid hkind).mp haction
    refine ⟨hcommand, hbuy, ⟨surface', ?_, row, hrow, hage⟩, hheld⟩
    exact (OrderActionGateway.validateSurface_eq_ok.mp hsurface).1
  · rintro ⟨rfl, hbuy, ⟨surface', hsurface', row, hrow, hage⟩, hheld⟩
    obtain rfl := Option.some.inj (hsome.symm.trans hsurface')
    exact ⟨(), hquality, surface, hvalid.hasSurface, contract, hcontract, row, hrow, (), hage, (),
      hquantity, (), (action_iff hvalid hkind).mpr ⟨hbuy, hheld⟩, hcommand⟩

end Requests

private theorem commands_of_compiled {request : OrderActionRequest} {command : ExecutionCommand}
    (hruntime : deps.executionRuntime.isSome = true) (hkind : request.action ≠ .replace)
    (h : gateway.validateAndCompile request
      (OrderActionGateway.loadedTruth loads submittedProposalIds) = .ok command) :
    (gateway.submit deps loads request submittedProposalIds).1.commands = [command] := by
  obtain ⟨runtime, hsome⟩ := Option.isSome_iff_exists.mp hruntime
  have hhand : ∀ trace : SubmitTrace, trace.calls = [] →
      (OrderActionGateway.handOver deps runtime request command
        (.replaceOf request.replaceOfClientOrderId) trace).1.calls =
          [.submitExecutionCommand command] := by
    intro trace hcalls
    unfold OrderActionGateway.handOver OrderActionGateway.recordProvenance
    simp only [hcalls, List.nil_append]
    cases runtime.submitExecutionCommand command with
    | error e => rfl
    | ok order =>
      cases deps.provenanceRegistry with
      | none => rfl
      | some registry =>
        simp only
        cases registry (OrderActionGateway.provenanceRecord deps request command
          (.replaceOf request.replaceOfClientOrderId)) <;> rfl
  have hcalls : (gateway.submit deps loads request submittedProposalIds).1.calls =
      [.submitExecutionCommand command] := by
    have hafter := hhand ⟨[], [], submittedProposalIds⟩ rfl
    unfold OrderActionGateway.submit OrderActionGateway.verdict
    simp only [hsome, h, OrderActionGateway.carryOut, OrderActionGateway.cancelReplaced,
      if_neg hkind]
    split
    · next hraised =>
      rw [hraised] at hafter
      exact hafter
    · next hplaced =>
      rw [hplaced] at hafter
      unfold OrderActionGateway.noteProposal
      split <;> exact hafter
  unfold SubmitTrace.commands
  rw [hcalls]
  rfl

private theorem submit_of_refused {request : OrderActionRequest} {message : String}
    (hruntime : deps.executionRuntime.isSome = true) (hkind : request.action ∉ [.exit, .reduce])
    (h : gateway.validateAndCompile request
      (OrderActionGateway.loadedTruth loads submittedProposalIds) = .error message) :
    gateway.submit deps loads request submittedProposalIds =
      (⟨[], [], submittedProposalIds⟩, .ok (OrderActionGateway.blockedResult request message
        (workingOrdersFromProjection loads.projection Dict.empty))) := by
  obtain ⟨runtime, hsome⟩ := Option.isSome_iff_exists.mp hruntime
  have hstays : OrderActionGateway.mayDegrade request message = false := by
    unfold OrderActionGateway.mayDegrade
    rw [decide_eq_false hkind]
    rfl
  unfold OrderActionGateway.submit OrderActionGateway.verdict
  simp only [hsome, h, hstays]
  rfl

/-- A proposal that the graph validates and compiles, and hands to a gateway that reads the same
truth: the gateway submits the proposal's own command exactly when it buys and the contract id,
printed anew, stands on the surface, and blocks it before any call otherwise. An id that is spelled
as it is printed stands for every buy. -/
theorem submits_validated_iff {compiler : ExecutionCommandCompiler}
    {provenanced : ProvenancedExecutionCommand} (hmaximum : gateway.maxQuantity = 20)
    (hruntime : deps.executionRuntime.isSome = true) (hproposal : proposal.proposalId ≠ "")
    (hvalid : validateAndCompileProposal compiler gateway.reader proposal
      (buildTruthFromDeps proposal.snapshotId loads submittedProposalIds) = .ok provenanced)
    (hreads : gateway.reader.ReadsBack provenanced.command.intent.contract) :
    let request := provenancedToActionRequest provenanced proposal.actionKind
    let outcome := gateway.submit deps loads request submittedProposalIds
    let stands := Stands provenanced proposal.actionKind loads
    (provenanced.command.intent.side = .buy ∧ stands →
      outcome.1.commands = [provenanced.command]) ∧
    (¬ (provenanced.command.intent.side = .buy ∧ stands) → outcome.1.calls = [] ∧
      ∃ message, outcome.2 = .ok (OrderActionGateway.blockedResult request message
        (workingOrdersFromProjection loads.projection Dict.empty))) ∧
    (provenanced.command.intent.side = .buy →
      (∀ leg ∈ proposal.legs, SpelledAsPrinted gateway.reader loads.snapshot.tradingDate
        leg.contractId) → stands) := by
  intro request outcome stands
  obtain ⟨leg, surface, contract, hfacts, rfl⟩ := validated_of_validateAndCompile hvalid
  have hkind : proposal.actionKind = .entry ∨ proposal.actionKind = .probe := by
    unfold LeggedProposal.actionKind
    split
    · exact .inr rfl
    · exact .inl rfl
  have hcompiles {command : ExecutionCommand} : gateway.validateAndCompile request
      (OrderActionGateway.loadedTruth loads submittedProposalIds) = .ok command ↔
        command = _ ∧ leg.side = .buy ∧ stands :=
    compiles_iff hfacts hmaximum hproposal hreads hkind
  refine ⟨?_, ?_, ?_⟩
  · intro hstands
    apply commands_of_compiled hruntime
    · change proposal.actionKind ≠ .replace
      rcases hkind with hkind | hkind <;> rw [hkind] <;> decide
    · exact hcompiles.mpr ⟨rfl, hstands⟩
  · intro hfalls
    cases hcompile : gateway.validateAndCompile request
        (OrderActionGateway.loadedTruth loads submittedProposalIds) with
    | ok command => exact absurd (hcompiles.mp hcompile).2 hfalls
    | error message =>
      have hopen : request.action ∉ [.exit, .reduce] := by
        change proposal.actionKind ∉ _
        rcases hkind with hkind | hkind <;> rw [hkind] <;> decide
      have houtcome : outcome = _ := submit_of_refused hruntime hopen hcompile
      rw [houtcome]
      exact ⟨rfl, message, rfl⟩
  · intro hbuy hspelled
    have hprinted : contractIdFor contract = leg.contractId := by
      apply (contractIdFor_parseContractId hfacts.parsed).mpr
      exact hspelled leg (hfacts.legs ▸ List.mem_singleton_self leg)
    obtain ⟨row, hrow, hage⟩ := hfacts.fresh
    constructor
    · have hsurface := (OrderActionGateway.validateSurface_eq_ok.mp hfacts.hasSurface).1
      refine ⟨surface, hsurface, row, ?_, ?_⟩
      · change _ = some row
        rw [← hrow]
        exact congrArg _ hprinted
      · intro limit hlimit
        rw [← Option.some.inj hlimit]
        exact hage
    · intro _
      change contractIdFor contract ∉ _
      rw [hprinted]
      exact hfacts.notHeld hbuy

/-! ### A sample -/

deriving instance DecidableEq for ProvenancedExecutionCommand

/-- A proposal to buy one contract, and what it is checked against. -/
def LeggedProposal.sample : LeggedProposal where
  proposalId := "p"
  decisionId := "d"
  strategyId := "t"
  sessionId := "s"
  cycleId := "c"
  snapshotId := "snapshot"
  action := .execute
  rest := ""
  orderType := .limit
  legs := [⟨"l", "SPY:2026-07-01:500.0:call", .buy, 1, none, 60, Int.one_pos⟩]

/-- A snapshot with one fresh quote, and no orders. -/
def quotedOnce : GatewayLoads where
  snapshot := SnapshotTruth.sample (.sample "SPY:2026-07-01:500.0:call"
    ⟨2026, 7, 1, 12, 0, 0, 0, some 0⟩ ⟨2026, 7, 1, 12, 0, 20, 0, some 0⟩)
  projection := none
  now := ⟨2026, 7, 1, 12, 0, 30, 0, some 0⟩

/-- A compiler for the default account. -/
def ExecutionCommandCompiler.sample : ExecutionCommandCompiler := ⟨"default", PyFloat.mk⟩

/-- A buy of one fresh quote is submitted as the graph's own command. -/
theorem submits_validated_iff_sample :
    let provenanced := ExecutionCommandCompiler.sample.compileLeg .sample
      ⟨"l", "SPY:2026-07-01:500.0:call", .buy, 1, none, 60, Int.one_pos⟩ none
      ⟨"SPY", ⟨2026, 7, 1⟩, ⟨⟨false, 5000, -1⟩⟩, .call⟩
    (OrderActionGateway.sample.submit OrderActionGateway.answering quotedOnce
      (provenancedToActionRequest provenanced .entry) []).1.commands = [provenanced.command] := by
  intro provenanced
  have hfacts := @submits_validated_iff .sample OrderActionGateway.sample
    OrderActionGateway.answering quotedOnce [] .sample provenanced rfl rfl (by decide)
    (by decide +kernel) ⟨by decide +kernel, by decide +kernel⟩
  have hspelled : ∀ leg ∈ LeggedProposal.sample.legs,
      SpelledAsPrinted Reader.sample ⟨2026, 7, 1⟩ leg.contractId := by
    intro leg hleg
    rw [List.mem_singleton.mp hleg]
    decide +kernel
  exact hfacts.1 ⟨rfl, hfacts.2.2 rfl hspelled⟩

end Joker.Graph
