import Joker.Runtime.ReconciliationRun

/-!
# When recovery is claimed

Library `Runtime`. The `_unresolved` field of `joker/runtime/execution_runtime.py`:
`run_reconciliation` clears it with a consistent report, `apply_reconciliation_corrections` sets
or clears it with its follow-up report, and `claims_recovery` reads it. A report that a bare
`run_reconciliation` returns with a mismatch leaves it alone, so the claim and the latest report
agree exactly as long as such a report finds the runtime marked already.
-/

namespace Joker.Runtime

open Joker.Base Joker.Ledger Joker.Broker

variable {β ω : Type}

/-- `UnresolvedReconciliation`. Source `joker/runtime/execution_runtime.py:53–57`. -/
structure UnresolvedReconciliation where
  report : ReconciliationReport
  preventsRecoveryClaim : Bool
  deriving DecidableEq

/-- The payload of a `RECONCILIATION_REQUIRED` event, with its session and time. -/
structure ReconciliationRequired where
  sessionId : String
  exchangeTimestamp : Datetime
  reportId : Uuid
  findingCount : ℕ
  deriving DecidableEq

/-- What the tasks share, one runtime's `_unresolved`, the mismatches it has announced, and the
reports its calls of `run_reconciliation` have returned so far. -/
structure Recovery (β : Type) where
  world : World β
  unresolved : Option UnresolvedReconciliation
  announced : List ReconciliationRequired
  reports : List ReconciliationReport

/-- The operations: those of the shared world, the announcement of a mismatch, and the return of
a report to a caller that marks the runtime by it, or does not. -/
inductive RecoveryOp (ω : Type) where
  | world (op : RuntimeOp ω)
  | announce
  | returns (report : ReconciliationReport) (marking : Bool)

/-- A coroutine of the runtime with its `_unresolved`. -/
abbrev RecoveryM (β ω α : Type) := Coro (RecoveryOp ω) (Recovery β) ExecutionError α

/-- A new runtime. -/
def Recovery.new (w : World β) : Recovery β := ⟨w, none, [], []⟩

/-- `claims_recovery`.
Source `joker/runtime/execution_runtime.py:630–632`, `joker/runtime/session_supervisor.py:150–153`.
-/
def Recovery.claimsRecovery (s : Recovery β) : Bool :=
  match s.unresolved with
  | none => true
  | some unresolved => !unresolved.preventsRecoveryClaim

/-- What a report does to `_unresolved`: a consistent one clears it, a mismatch is kept where the
caller marks it. -/
def unresolvedAfter (report : ReconciliationReport) (marking : Bool)
    (unresolved : Option UnresolvedReconciliation) : Option UnresolvedReconciliation :=
  if report.isConsistent then none
  else if marking then some ⟨report, true⟩
  else unresolved

/-- `run_reconciliation` returns a report, and its caller runs on to its next await point.
Source `joker/runtime/execution_runtime.py:519–603`. -/
def Recovery.returned (report : ReconciliationReport) (marking : Bool) (s : Recovery β) :
    Recovery β :=
  { s with
    unresolved := unresolvedAfter report marking s.unresolved
    reports := s.reports ++ [report] }

/-- A coroutine that has nothing to do with `_unresolved`. -/
def inWorld {α : Type} (c : RuntimeM β ω α) : RecoveryM β ω α :=
  c.zoom RecoveryOp.world Recovery.world (fun w s ↦ { s with world := w })

/-- What a reconciliation gets from outside, with the clock reading of its announcement. -/
structure RecoveryInputs (ω : Type) extends ReconcileInputs ω where
  announcedAt : Datetime

/-- The event that announces a mismatch. -/
def announceMismatch (rt : ExecutionRuntime) (announcedAt : Datetime)
    (report : ReconciliationReport) : RecoveryM β ω Unit :=
  if report.isConsistent then pure ()
  else
    Coro.atomic .announce (fun s ↦
      ({ s with announced := s.announced ++
          [⟨rt.sessionId, announcedAt, report.reportId, report.findings.length⟩] }, .ok ()))

/-- `run_reconciliation` up to its caller's next await point; `marking` says whether that caller
is `apply_reconciliation_corrections`. Source `joker/runtime/execution_runtime.py:519–603`. -/
def reconcileThen [DecimalContext] [BrokerClient β ω] [PositionLister β] (rt : ExecutionRuntime)
    (inputs : RecoveryInputs ω) (marking : Bool) : RecoveryM β ω ReconciliationReport := do
  let result ← inWorld (runReconciliation rt inputs.toReconcileInputs)
  match result with
  | .error _ => Coro.raise .validation
  | .ok report => do
    announceMismatch rt inputs.announcedAt report
    Coro.atomic (.returns report marking) (fun s ↦ (s.returned report marking, .ok report))

/-- The loop of `apply_reconciliation_corrections`: the events that were inserted. -/
def appendCorrections (faults : ℕ → AppendFaults) :
    ℕ → List LedgerEvent → RuntimeM β ω (List LedgerEvent)
  | _, [] => pure []
  | i, event :: rest => do
    let inserted ← ledger (append event (faults i))
    let written ← appendCorrections faults (i + 1) rest
    pure (if inserted then event :: written else written)

/-- What `apply_reconciliation_corrections` gets from outside: ids and times of its events, what
the driver does to each `append`, and the inputs of its reconciliation. -/
structure CorrectionInputs (ω : Type) where
  fresh : ℕ → Uuid × Datetime
  faults : ℕ → AppendFaults
  followUp : RecoveryInputs ω

/-- `apply_reconciliation_corrections`. Source `joker/runtime/execution_runtime.py:605–623`. -/
def applyReconciliationCorrections [DecimalContext] [BrokerClient β ω] [PositionLister β]
    (rt : ExecutionRuntime) (report : ReconciliationReport) (markUnresolvedIfStillMismatched : Bool)
    (inputs : CorrectionInputs ω) : RecoveryM β ω (List LedgerEvent) := do
  match report.correctionEvents rt.brokerAccountId none inputs.fresh with
  | none => Coro.raise .validation
  | some corrections => do
    let written ← inWorld (appendCorrections inputs.faults 0 corrections)
    if markUnresolvedIfStillMismatched then do
      let _ ← reconcileThen rt inputs.followUp true
      pure written
    else pure written

/-! ### Runs -/

/-- The calls of a run, with marking on. -/
inductive RecoveryCall (ω : Type) where
  | reconcile (inputs : RecoveryInputs ω)
  | correct (report : ReconciliationReport) (inputs : CorrectionInputs ω)
  | submit (command : ExecutionCommand) (inputs : SubmitInputs ω)
  | recordFill (order : BrokerOrder) (clientOrderId : String) (fillPrice : Decimal)
      (fillQty : Option Decimal) (final : Bool) (stamp : Stamp)

/-- The coroutine of a call. -/
def recoveryBody [DecimalContext] [BrokerClient β ω] [PositionLister β] (rt : ExecutionRuntime) :
    RecoveryCall ω → RecoveryM β ω Unit
  | .reconcile inputs => do
    let _ ← reconcileThen rt inputs false
    pure ()
  | .correct report inputs => do
    let _ ← applyReconciliationCorrections rt report true inputs
    pure ()
  | .submit command inputs => do
    let _ ← inWorld (submitExecutionCommand rt command inputs)
    pure ()
  | .recordFill order clientOrderId fillPrice fillQty final stamp => do
    let _ ← inWorld (recordVerifiedFill rt order clientOrderId fillPrice fillQty final stamp)
    pure ()

/-- Any change of the world that no call of the runtime makes. -/
def elsewhere (event : World β → World β) (s : Recovery β) : Recovery β :=
  { s with world := event s.world }

/-- Calls of a new runtime in any order of their steps, with changes of the world in between. -/
def runRecovery [DecimalContext] [BrokerClient β ω] [PositionLister β] (rt : ExecutionRuntime)
    (w : World β) (xs : List (PoolAction (RecoveryCall ω) (World β → World β))) :
    Pool (RecoveryCall ω) (RecoveryOp ω) (Recovery β) ExecutionError Unit :=
  run (Pool.step (recoveryBody rt) elsewhere) (Pool.start (Recovery.new w)) xs

/-- Recovery is claimed exactly when there is no report yet or the latest one is consistent. -/
def Recovery.ClaimsLatest (s : Recovery β) : Prop :=
  s.claimsRecovery = true ↔ ∀ report ∈ s.reports.getLast?, report.isConsistent = true

instance (s : Recovery β) : Decidable s.ClaimsLatest := by
  unfold Recovery.ClaimsLatest
  infer_instance

/-- A mismatch that nobody marks comes back while recovery is not claimed anyway. -/
def MismatchMarked (op : RecoveryOp ω) (s : Recovery β) : Prop :=
  match op with
  | .returns report marking =>
    report.isConsistent = false → marking = false → s.claimsRecovery = false
  | _ => True

/-- A report keeps the claim in agreement with the latest report exactly when it is consistent,
is marked, or finds the runtime marked. -/
theorem claimsLatest_returned_iff (report : ReconciliationReport) (marking : Bool)
    (s : Recovery β) :
    (s.returned report marking).ClaimsLatest ↔
      (report.isConsistent = false → marking = false → s.claimsRecovery = false) := by
  have hlatest : (∀ r ∈ (s.reports ++ [report]).getLast?, r.isConsistent = true) ↔
      report.isConsistent = true := by
    rw [List.getLast?_concat]
    simp
  unfold Recovery.ClaimsLatest
  change (Recovery.claimsRecovery _ = true ↔ ∀ r ∈ (s.reports ++ [report]).getLast?, _) ↔ _
  rw [hlatest]
  unfold Recovery.returned Recovery.claimsRecovery unresolvedAfter
  cases report.isConsistent <;> cases marking <;> simp

/-- The exact condition under which an operation keeps the agreement. -/
private abbrev Exact (op : RecoveryOp ω) (s s' : Recovery β) : Prop :=
  s.ClaimsLatest → (s'.ClaimsLatest ↔ MismatchMarked op s)

private theorem exact_inWorld {α : Type} (c : RuntimeM β ω α) :
    (inWorld c : RecoveryM β ω α).Steps Exact := by
  apply Coro.steps_zoom
  apply Coro.steps_of_forall
  intro label w w' s _ hs
  exact iff_of_true hs trivial

private theorem exact_announceMismatch (rt : ExecutionRuntime) (announcedAt : Datetime)
    (report : ReconciliationReport) :
    (announceMismatch rt announcedAt report : RecoveryM β ω Unit).Steps Exact := by
  unfold announceMismatch
  split
  · exact Coro.steps_pure ()
  · exact Coro.steps_atomic (fun _ hs ↦ iff_of_true hs trivial)

section Calls

variable [BrokerClient β ω] [PositionLister β]

private theorem exact_reconcileThen [DecimalContext] (rt : ExecutionRuntime)
    (inputs : RecoveryInputs ω) (marking : Bool) :
    (reconcileThen rt inputs marking : RecoveryM β ω ReconciliationReport).Steps Exact := by
  apply Coro.steps_bind (exact_inWorld _)
  intro result
  cases result with
  | error e => exact Coro.steps_raise _
  | ok report =>
    apply Coro.steps_bind (exact_announceMismatch rt inputs.announcedAt report)
    intro _
    exact Coro.steps_atomic (fun s _ ↦ claimsLatest_returned_iff report marking s)

private theorem exact_applyReconciliationCorrections [DecimalContext] (rt : ExecutionRuntime)
    (report : ReconciliationReport) (marking : Bool) (inputs : CorrectionInputs ω) :
    (applyReconciliationCorrections rt report marking inputs :
      RecoveryM β ω (List LedgerEvent)).Steps Exact := by
  unfold applyReconciliationCorrections
  cases report.correctionEvents rt.brokerAccountId none inputs.fresh with
  | none => exact Coro.steps_raise _
  | some corrections =>
    apply Coro.steps_bind (exact_inWorld _)
    intro written
    split
    · apply Coro.steps_bind (exact_reconcileThen rt _ true)
      exact fun _ ↦ Coro.steps_pure written
    · exact Coro.steps_pure written

private theorem exact_recoveryBody [DecimalContext] (rt : ExecutionRuntime)
    (call : RecoveryCall ω) :
    (recoveryBody rt call : RecoveryM β ω Unit).Steps Exact := by
  cases call with
  | reconcile inputs =>
    exact Coro.steps_bind (exact_reconcileThen rt inputs false) (fun _ ↦ Coro.steps_pure ())
  | correct report inputs =>
    apply Coro.steps_bind (exact_applyReconciliationCorrections rt report true inputs)
    exact fun _ ↦ Coro.steps_pure ()
  | submit command inputs =>
    exact Coro.steps_bind (exact_inWorld _) (fun _ ↦ Coro.steps_pure ())
  | recordFill order clientOrderId fillPrice fillQty final stamp =>
    exact Coro.steps_bind (exact_inWorld _) (fun _ ↦ Coro.steps_pure ())

/-- Claim and latest report agree in every state of a run exactly when every bare
`run_reconciliation` that returns a mismatch finds the runtime marked. -/
theorem claimsLatest_run_iff [DecimalContext] (rt : ExecutionRuntime) (w : World β)
    (xs : List (PoolAction (RecoveryCall ω) (World β → World β))) :
    (∀ pre, pre <+: xs → (runRecovery rt w pre).shared.ClaimsLatest) ↔
      ∀ pre a, pre ++ [a] <+: xs → (runRecovery rt w pre).Respects MismatchMarked a := by
  have hnew : (Recovery.new w).ClaimsLatest := iff_of_true rfl (fun _ h ↦ nomatch h)
  have helsewhere (event : World β → World β) (s : Recovery β) (_ : True)
      (hs : s.ClaimsLatest) : (elsewhere event s).ClaimsLatest := hs
  exact Pool.invariant_run_iff (exact_recoveryBody rt) helsewhere hnew xs (fun _ _ ↦ trivial)

end Calls

open scoped DefaultContext

/-! ### Samples -/

/-- A reconciliation in one afternoon. -/
def RecoveryInputs.sample (answers : ω) (id : Uuid) : RecoveryInputs ω :=
  { openOrders := answers
    lookup := fun _ ↦ answers
    positions := answers
    now := ⟨2026, 7, 1, 15, 0, 0, 0, some 0⟩
    reportId := id
    announcedAt := ⟨2026, 7, 1, 15, 0, 0, 0, some 0⟩ }

/-- A broker that holds one call of which the ledger knows nothing. -/
def unknownPosition : World PaperBook :=
  World.new ⟨PaperBroker.new atLimit, Dict.ofList
    [("p", ⟨"p", ExecutionCommand.sample.intent.contract, 1, ⟨⟨false, 15, -1⟩⟩, true⟩)]⟩

/-- One call of `run_reconciliation`. -/
def bareReconciliation : List (PoolAction (RecoveryCall PaperDraws)
    (World PaperBook → World PaperBook)) :=
  .spawn (.reconcile (.sample ⟨⟨"o", "f"⟩, "p"⟩ "r")) :: List.replicate 5 (.resume 0)

/-- Its report has a mismatch, and recovery is claimed. -/
theorem not_claimsLatest_bareReconciliation :
    ¬ (runRecovery ⟨0, "s", "a"⟩ unknownPosition bareReconciliation).shared.ClaimsLatest := by
  decide +kernel

end Joker.Runtime
