import Joker.Runtime.GatewayAcceptance

/-!
# Degraded closes

Library `Runtime`. A closing request that failed on the market data is compiled again by
`_compile_degraded_close`, which looks at the open quantity only. What it compiles is what
`_validate_and_compile` compiles on good market data exactly when the request passes the position
checks that the second compiler leaves out.
-/

namespace Joker.Runtime.OrderActionGateway

open Joker.Base Joker.Ledger Joker.Broker Joker.Market

/-- A surface that matches a snapshot and has the request's contract with a quote within the age
limit. -/
structure Serves (surface : OptionSurfaceSnapshot) (request : OrderActionRequest)
    (snapshot : SnapshotTruth) : Prop where
  sameSurface : snapshot.optionSurfaceId = none ∨
    snapshot.optionSurfaceId = some surface.surfaceId
  quoted : ∃ row, surfaceRow surface request.contractId = some row ∧
    ∀ limit ∈ request.maxQuoteAgeSeconds, row.quoteAgeMs ≤ limit * 1000

/-- The same snapshot, orders and positions with a surface. -/
def withSurface (truth : GatewayTruth) (surface : OptionSurfaceSnapshot) : GatewayTruth :=
  { truth with snapshot := { truth.snapshot with surface := some surface } }

/-- Two commands for one contract, side, quantity, order type and limit price. -/
def SameOrder (a b : ExecutionCommand) : Prop :=
  a.intent.contract = b.intent.contract ∧ a.intent.side = b.intent.side ∧
    a.intent.quantity = b.intent.quantity ∧ a.intent.orderType = b.intent.orderType ∧
      a.intent.limitPrice = b.intent.limitPrice

/-- The normal path compiles the same order on good market data. -/
def NormalPathAgrees (gateway : OrderActionGateway) (request : OrderActionRequest)
    (truth : GatewayTruth) (surface : OptionSurfaceSnapshot) (command : ExecutionCommand) : Prop :=
  ∃ compiled, gateway.validateAndCompile request (withSurface truth surface) = .ok compiled ∧
    SameOrder compiled command

/-- The checks of a closing request that need no market data. -/
structure ClosesPosition (gateway : OrderActionGateway) (request : OrderActionRequest)
    (truth : GatewayTruth) : Prop where
  symbol : (splitText ':' request.contractId).head? = some "SPY"
  side : request.side = .sell
  maximum : request.quantity ≤ gateway.maxQuantity
  open_ : ∀ pos ∈ truth.openPositions.get? request.contractId,
    request.quantity ≤ pyInt pos.quantity
  first : ∀ order ∈ truth.working, order.clientOrderId ≠ request.clientOrderId

/-- What a degraded close was compiled from. -/
theorem degraded_cases {gateway : OrderActionGateway} {request : OrderActionRequest}
    {truth : GatewayTruth} {command : ExecutionCommand} {reason : String}
    (h : gateway.verdict request truth = .ok (.degraded command reason)) :
    request.action ∈ [.exit, .reduce] ∧
      ∃ pos contract, truth.openPositions.get? request.contractId = some pos ∧
        0 < min request.quantity (pyInt pos.quantity) ∧
        parseContractId gateway.reader request.contractId (some truth.snapshot.tradingDate) =
          .ok contract ∧
        command = commandOf request (orTexts [request.decisionId] request.clientOrderId) contract
          .sell (min request.quantity (pyInt pos.quantity)) := by
  unfold OrderActionGateway.verdict at h
  split at h
  · cases h
  · split at h
    · next hdegrade =>
      simp only [bind_eq_ok, pure_eq_ok, Verdict.degraded.injEq] at h
      obtain ⟨_, hclose, rfl, _⟩ := h
      simp only [compileDegradedClose, bind_eq_ok, orRaise_eq_ok, require_eq_ok, pure_eq_ok]
        at hclose
      obtain ⟨pos, hpos, _, hquantity, contract, hcontract, rfl⟩ := hclose
      simp only [mayDegrade, Bool.and_eq_true, decide_eq_true_eq] at hdegrade
      exact ⟨hdegrade.1.1, pos, contract, hpos, hquantity, hcontract, rfl⟩
    · cases h

/-- The checks of a close on an open position. -/
theorem validateClose_eq_ok {request : OrderActionRequest} {truth : GatewayTruth}
    {pos : PositionState} (hpos : truth.openPositions.get? request.contractId = some pos)
    {u : Unit} :
    validateClose request truth = .ok u ↔
      request.side = .sell ∧ request.quantity ≤ pyInt pos.quantity ∧
        ∀ order ∈ truth.working, order.clientOrderId ≠ request.clientOrderId := by
  simp only [validateClose, bind_eq_ok, orRaise_eq_ok, require_eq_ok, hpos, Option.some.injEq]
  constructor
  · rintro ⟨_, rfl, _, hside, _, hopen, hfirst⟩
    exact ⟨hside, hopen, hfirst⟩
  · rintro ⟨hside, hopen, hfirst⟩
    exact ⟨pos, rfl, (), hside, (), hopen, hfirst⟩

/-- The contract of an id that is read: only its symbol is left to check. -/
theorem validateContract_eq_ok {reader : Reader} (request : OrderActionRequest)
    (truth : SnapshotTruth) (c : OptionContract) {contract : OptionContract}
    (hparse : parseContractId reader request.contractId (some truth.tradingDate) = .ok contract) :
    validateContract reader request truth = .ok c ↔ contract.symbol = "SPY" ∧ contract = c := by
  have hexpiration := expiration_of_parseContractId hparse
  simp only [validateContract, bind_eq_ok, require_eq_ok, pure_eq_ok, hparse, Except.ok.injEq]
  constructor
  · rintro ⟨_, rfl, _, hsymbol, _, _, _, _, rfl⟩
    exact ⟨hsymbol, rfl⟩
  · rintro ⟨hsymbol, rfl⟩
    exact ⟨contract, rfl, (), hsymbol, (), hexpiration, (), hexpiration, rfl⟩

/-- A close asks nothing of the data quality. -/
theorem validateDataQuality_of_close {request : OrderActionRequest}
    (hclose : request.action ∈ [.exit, .reduce]) (truth : SnapshotTruth) :
    validateDataQuality request truth = .ok () := by
  unfold validateDataQuality
  rw [if_neg]
  intro hopening
  simp only [List.mem_cons, List.not_mem_nil, or_false] at hclose hopening
  rcases hclose with hexit | hreduce
  · simp [hexit] at hopening
  · simp [hreduce] at hopening

/-- A close is validated by the rules for closes. -/
theorem validateAction_of_close {request : OrderActionRequest}
    (hclose : request.action ∈ [.exit, .reduce]) (truth : GatewayTruth) :
    validateAction request truth = validateClose request truth := by
  simp only [List.mem_cons, List.not_mem_nil, or_false] at hclose
  unfold validateAction
  rcases hclose with hexit | hreduce
  · rw [hexit]
  · rw [hreduce]

/-- An accepted close sells no more than the open position has in whole contracts. -/
theorem close_of_verdict {gateway : OrderActionGateway} {request : OrderActionRequest}
    {truth : GatewayTruth} {verdict : Verdict} {command : ExecutionCommand}
    (hclose : request.action ∈ [.exit, .reduce])
    (h : gateway.verdict request truth = .ok verdict) (hcommand : verdict.command = some command) :
    ∃ pos, truth.openPositions.get? request.contractId = some pos ∧
      command.intent.quantity ≤ pyInt pos.quantity := by
  cases verdict with
  | compiled _ =>
    cases hcommand
    obtain ⟨surface, row, contract, hcompiles, rfl⟩ :=
      compiles_of_validateAndCompile (validateAndCompile_of_verdict h)
    have hchecks := hcompiles.action
    rw [validateAction_of_close hclose] at hchecks
    simp only [validateClose, bind_eq_ok, orRaise_eq_ok, require_eq_ok] at hchecks
    obtain ⟨pos, hpos, _, _, _, hquantity, _⟩ := hchecks
    exact ⟨pos, hpos, hquantity⟩
  | degraded _ reason =>
    cases hcommand
    obtain ⟨_, pos, contract, hpos, _, _, rfl⟩ := degraded_cases h
    exact ⟨pos, hpos, min_le_right _ _⟩
  | blocked reason => cases hcommand

/-- A close on good market data, check by check. -/
theorem validateAndCompile_close_iff {gateway : OrderActionGateway}
    {request : OrderActionRequest} {truth : GatewayTruth} {surface : OptionSurfaceSnapshot}
    {pos : PositionState} {contract : OptionContract} (compiled : ExecutionCommand)
    (hclose : request.action ∈ [.exit, .reduce]) (hserves : Serves surface request truth.snapshot)
    (hpos : truth.openPositions.get? request.contractId = some pos)
    (hparse : parseContractId gateway.reader request.contractId (some truth.snapshot.tradingDate) =
      .ok contract) :
    gateway.validateAndCompile request (withSurface truth surface) = .ok compiled ↔
      contract.symbol = "SPY" ∧ (0 < request.quantity ∧ request.quantity ≤ gateway.maxQuantity) ∧
        (request.side = .sell ∧ request.quantity ≤ pyInt pos.quantity ∧
          ∀ order ∈ truth.working, order.clientOrderId ≠ request.clientOrderId) ∧
        commandOf request (orTexts [request.proposalId, request.decisionId] request.clientOrderId)
          contract request.side request.quantity = compiled := by
  obtain ⟨row, hrow, hage⟩ := hserves.quoted
  have hsurface : validateSurface (withSurface truth surface).snapshot = .ok surface := by
    simp only [validateSurface, withSurface, bind_eq_ok, orRaise_eq_ok, pure_eq_ok,
      Option.some.injEq]
    exact ⟨surface, rfl, (), require_eq_ok.mpr hserves.sameSurface, rfl⟩
  have hposition : (withSurface truth surface).openPositions.get? request.contractId = some pos :=
    hpos
  have hcontract := fun c ↦
    validateContract_eq_ok request (withSurface truth surface).snapshot c hparse
  have hquantity : ∀ u, validateQuantity gateway.maxQuantity request = .ok u ↔
      0 < request.quantity ∧ request.quantity ≤ gateway.maxQuantity := by
    intro u
    simp only [validateQuantity, bind_eq_ok, require_eq_ok]
    exact ⟨fun ⟨_, h⟩ ↦ h, fun h ↦ ⟨(), h⟩⟩
  simp only [validateAndCompile, bind_eq_ok, pure_eq_ok, validateDataQuality_of_close hclose,
    hsurface, hcontract, hquantity, validateAction_of_close hclose,
    validateClose_eq_ok hposition, validateQuoteAge_eq_ok, orRaise_eq_ok, Except.ok.injEq]
  constructor
  · rintro ⟨_, _, _, rfl, _, ⟨hsymbol, rfl⟩, _, _, _, _, _, hlimits, _, hposition, hcommand⟩
    exact ⟨hsymbol, hlimits, hposition, hcommand⟩
  · rintro ⟨hsymbol, hlimits, hposition, hcommand⟩
    exact ⟨(), trivial, surface, rfl, contract, ⟨hsymbol, rfl⟩, row, hrow, (), hage, (), hlimits,
      (), hposition, hcommand⟩

/-- A degraded close is what the normal path compiles on good market data exactly when the request
passes the checks that need no market data. -/
theorem degradedClose_agrees_iff {gateway : OrderActionGateway} {request : OrderActionRequest}
    {truth : GatewayTruth} {command : ExecutionCommand} {reason : String}
    {surface : OptionSurfaceSnapshot}
    (hdegraded : gateway.verdict request truth = .ok (.degraded command reason))
    (hserves : Serves surface request truth.snapshot) :
    gateway.NormalPathAgrees request truth surface command ↔
      gateway.ClosesPosition request truth := by
  obtain ⟨hclose, pos, contract, hpos, hquantity, hparse, rfl⟩ := degraded_cases hdegraded
  have hcompile := fun compiled ↦
    validateAndCompile_close_iff compiled hclose hserves hpos hparse
  have hsymbol := symbol_of_parseContractId hparse
  constructor
  · rintro ⟨compiled, hcompiled, -⟩
    obtain ⟨hspy, ⟨_, hmaximum⟩, ⟨hside, hopen, hfirst⟩, _⟩ := (hcompile compiled).mp hcompiled
    refine ⟨hspy ▸ hsymbol, hside, hmaximum, ?_, hfirst⟩
    intro pos' hpos'
    obtain rfl : pos = pos' := Option.some.inj (hpos.symm.trans hpos')
    exact hopen
  · intro hcloses
    have hspy : contract.symbol = "SPY" := Option.some.inj (hsymbol.symm.trans hcloses.symbol)
    have hopen := hcloses.open_ pos hpos
    refine ⟨_, (hcompile _).mpr ⟨hspy, ⟨lt_of_lt_of_le hquantity (min_le_left _ _),
      hcloses.maximum⟩, ⟨hcloses.side, hopen, hcloses.first⟩, rfl⟩, rfl, hcloses.side, ?_, rfl,
      rfl⟩
    exact (min_eq_left hopen).symm

/-! ### Samples -/

/-- The contract of the samples. -/
def soldId : String := "SPY:2026-07-01:500.0:call"

/-- A surface that was built when its quote came. -/
def freshSurface : OptionSurfaceSnapshot :=
  .sample soldId ⟨2026, 7, 1, 12, 0, 0, 0, some 0⟩ ⟨2026, 7, 1, 12, 0, 0, 0, some 0⟩

/-- One contract is held, orders work, and the snapshot's surface is not stored. -/
def unquoted (working : List WorkingOrderTruth) : GatewayTruth :=
  { GatewayTruth.sample freshSurface ⟨2026, 7, 1, 12, 0, 0, 0, some 0⟩ with
    snapshot := { SnapshotTruth.sample freshSurface with surface := none }
    working := working
    openPositions := Dict.ofList [(soldId, { PositionState.new soldId with quantity := 1 })] }

/-- An exit of the held contract. -/
def soldOnce : OrderActionRequest := .sample .exit soldId .sell 1 "c"

private theorem serves_freshSurface (working : List WorkingOrderTruth) :
    Serves freshSurface soldOnce (unquoted working).snapshot :=
  ⟨.inr rfl, (surfaceRow freshSurface soldId).get (by decide +kernel), by decide +kernel,
    by decide +kernel⟩

/-- The command of the degraded exit. -/
def soldCommand : ExecutionCommand :=
  commandOf soldOnce "c" ⟨"SPY", ⟨2026, 7, 1⟩, ⟨⟨false, 5000, -1⟩⟩, .call⟩ .sell 1

/-- A first exit is the same order on both paths. -/
theorem degradedClose_agrees_soldOnce :
    OrderActionGateway.sample.NormalPathAgrees soldOnce (unquoted []) freshSurface soldCommand := by
  have hdegraded : OrderActionGateway.sample.verdict soldOnce (unquoted []) =
      .ok (.degraded soldCommand "referenced option surface does not exist") := by
    decide +kernel
  apply (degradedClose_agrees_iff hdegraded (serves_freshSurface [])).mpr
  exact ⟨by decide +kernel, by decide, by decide, by decide +kernel, by decide⟩

/-- The exit again, while it works. -/
def exitWorking : WorkingOrderTruth :=
  { clientOrderId := "c"
    contractId := soldId
    side := .sell
    requestedQuantity := 1
    filledQuantity := 0
    remainingQuantity := 1
    status := "accepted"
    proposalId := none }

/-- An exit that works already is accepted a second time on the degraded path, and is a duplicate
on the normal one. -/
theorem not_normalPathAgrees_soldTwice :
    OrderActionGateway.sample.verdict soldOnce (unquoted [exitWorking]) =
        .ok (.degraded soldCommand "referenced option surface does not exist") ∧
      Serves freshSurface soldOnce (unquoted [exitWorking]).snapshot ∧
      ¬ OrderActionGateway.sample.NormalPathAgrees soldOnce (unquoted [exitWorking]) freshSurface
        soldCommand := by
  refine ⟨by decide +kernel, serves_freshSurface _, ?_⟩
  rintro ⟨compiled, hcompiled, -⟩
  have hblocked : OrderActionGateway.sample.validateAndCompile soldOnce
      (withSurface (unquoted [exitWorking]) freshSurface) =
        .error "duplicate closing command" := by
    decide +kernel
  rw [hblocked] at hcompiled
  cases hcompiled

end Joker.Runtime.OrderActionGateway
