import Joker.Base.Coroutine
import Joker.Cognition.ModelRequests

/-!
# Model router with durable reuse

Library `Cognition`. `ModelRouter.route_and_complete` over the `model_calls` table: look for a
completed call under the request's key, record the call, ask the provider, mark the row. Calls
of one session share the table and may interleave at every await; what the providers answer and
whether a database operation raises is set from outside. The semaphore only limits how many
calls run at once and is left out, as are telemetry and token counts.
-/

namespace Joker.Cognition

open Joker.Base

/-! ### The table -/

/-- Lifecycle status for idempotent model-call records. -/
inductive ModelCallStatus where
  | inProgress
  | completed
  | failed
  deriving DecidableEq

/-- A row of `model_calls`, as far as reuse reads it.
Source `joker/cognition/artifacts.py:99–124`. -/
structure ModelCallRecord where
  idempotencyKey : String
  status : ModelCallStatus
  validatedOutputJson : Option String

/-- The rows by request id. -/
abbrev ModelCalls (R : Type) := Dict R ModelCallRecord

namespace ModelCalls

variable {R : Type} [DecidableEq R]

/-- `get_model_call_by_idempotency`, with the id of the row.
Source `joker/cognition/artifacts.py:448–462`,
`joker/persistence/cognitive_repositories.py:305–306`. -/
def getByIdempotency (calls : ModelCalls R) (key : String) : Option (R × ModelCallRecord) :=
  calls.entries.find? (fun e ↦ e.2.idempotencyKey = key)

/-- `INSERT`; a row under the id or the key makes it raise.
Source `joker/cognition/artifacts.py:352–405`,
`joker/persistence/cognitive_repositories.py:302–303`. -/
def insert (calls : ModelCalls R) (id : R) (record : ModelCallRecord) : ModelCalls R :=
  if (calls.get? id).isSome || (calls.getByIdempotency record.idempotencyKey).isSome then calls
  else calls.set id record

/-- `UPDATE … WHERE request_id = ?`, which leaves the key column alone.
Source `joker/cognition/artifacts.py:547–578`. -/
def update (calls : ModelCalls R) (id : R) (status : ModelCallStatus) (output : Option String) :
    ModelCalls R :=
  match calls.get? id with
  | some row => calls.set id { row with status := status, validatedOutputJson := output }
  | none => calls

/-- Rows carry the keys of the requests they were recorded for. -/
def KeyedBy (requests : R → ModelRequest) (calls : ModelCalls R) : Prop :=
  ∀ id record, calls.get? id = some record → record.idempotencyKey = (requests id).idempotencyKey

variable {requests : R → ModelRequest} {calls : ModelCalls R}

/-- A record under the key of its own request leaves the calls keyed by their requests. -/
theorem keyedBy_insert (h : calls.KeyedBy requests) {id : R} {record : ModelCallRecord}
    (hkey : record.idempotencyKey = (requests id).idempotencyKey) :
    (calls.insert id record).KeyedBy requests := by
  intro a row hrow
  unfold insert at hrow
  split at hrow
  · exact h a row hrow
  · rw [Dict.get?_set] at hrow
    split at hrow
    · next he =>
      cases hrow
      exact he ▸ hkey
    · exact h a row hrow

/-- An update leaves the calls keyed by their requests. -/
theorem keyedBy_update (h : calls.KeyedBy requests) (id : R) (status : ModelCallStatus)
    (output : Option String) : (calls.update id status output).KeyedBy requests := by
  intro a row hrow
  unfold update at hrow
  split at hrow
  · next old hold =>
    rw [Dict.get?_set] at hrow
    split at hrow
    · next he =>
      cases hrow
      exact he ▸ h id old hold
    · exact h a row hrow
  · exact h a row hrow

/-- A row found by a key carries it. -/
theorem get?_of_getByIdempotency {key : String} {id : R} {record : ModelCallRecord}
    (h : calls.getByIdempotency key = some (id, record)) :
    calls.get? id = some record ∧ record.idempotencyKey = key := by
  unfold getByIdempotency at h
  have hkey := List.find?_some h
  exact ⟨(calls.mem_entries_iff id record).mp (List.mem_of_find?_eq_some h), by simpa using hkey⟩

end ModelCalls

/-! ### Routing -/

/-- What a provider answers: a validated output, or an exception. -/
inductive ProviderOutcome where
  | output (json : String)
  | structuredOutputFailure
  | modelError
  | otherException

/-- Exceptions that leave `route_and_complete`. -/
inductive RouterError where
  | structuredOutputFailure
  | modelError
  | otherException
  deriving DecidableEq

/-- What the next operation meets outside the session. -/
structure Outside where
  provider : ProviderOutcome
  storeRaises : Bool

/-- The state that the calls of a session share. -/
structure RouterState (R : Type) where
  modelCalls : ModelCalls R
  outside : Outside

/-- The awaited operations of the router. -/
inductive RouterOp where
  | select
  | insert
  | update
  | completeStructured

/-- A validated output and the request that it was produced for. -/
structure ModelResult (R : Type) where
  requestId : R
  output : String
  deriving DecidableEq

/-- A coroutine of the router. -/
abbrev RouterM (R α : Type) := Coro RouterOp (RouterState R) RouterError α

/-- Settings of the router, and `model_validate_json` for the output type of a role.
Source `joker/models/router.py:66–510`. -/
structure ModelRouter where
  maxSchemaRepairAttempts : ℕ
  maxProviderEscalations : ℕ
  validates : AgentRole → String → Bool

namespace ModelRouter

variable {R : Type} [DecidableEq R] (router : ModelRouter)

/-- The completed output that a table holds for a request. -/
def reusable (request : ModelRequest) (calls : ModelCalls R) : Option (ModelResult R) :=
  match calls.getByIdempotency request.idempotencyKey with
  | none => none
  | some (id, existing) =>
    if existing.status ≠ .completed then none
    else
      match existing.validatedOutputJson with
      | none => none
      | some json =>
        if json = "" then none
        else if router.validates request.role json then some ⟨id, json⟩
        else none

/-- `_try_reuse_completed`; an exception of the store counts as nothing found.
Source `joker/models/router.py:406–437`. -/
def tryReuseCompleted (request : ModelRequest) : RouterM R (Option (ModelResult R)) :=
  Coro.atomic .select (fun s ↦
    (s, .ok (if s.outside.storeRaises then none else router.reusable request s.modelCalls)))

/-- `_record_call_started`: a lookup by the key, then the insert; exceptions are logged.
Source `joker/models/router.py:439–478`. -/
def recordCallStarted (id : R) (request : ModelRequest) : RouterM R Unit := do
  let free ← Coro.atomic .select (fun s ↦ (s, .ok (!s.outside.storeRaises &&
    (s.modelCalls.getByIdempotency request.idempotencyKey).isNone)))
  if free then
    Coro.atomic .insert (fun s ↦
      (if s.outside.storeRaises then s
        else { s with modelCalls :=
          s.modelCalls.insert id ⟨request.idempotencyKey, .inProgress, none⟩ }, .ok ()))
  else pure ()

/-- The row of a request, unless the store raises. -/
def findRow (id : R) : RouterM R (Option ModelCallRecord) :=
  Coro.atomic .select (fun s ↦
    (s, .ok (if s.outside.storeRaises then none else s.modelCalls.get? id)))

/-- `_update_model_call`; exceptions are logged. Source `joker/cognition/artifacts.py:547–578`. -/
def updateRow (id : R) (status : ModelCallStatus) (output : Option String) : RouterM R Unit :=
  Coro.atomic .update (fun s ↦
    (if s.outside.storeRaises then s
      else { s with modelCalls := s.modelCalls.update id status output }, .ok ()))

/-- `_record_call_completed`: only a row in progress is completed.
Source `joker/cognition/artifacts.py:478–517`,
`joker/persistence/cognitive_repositories.py:311–312`. -/
def recordCallCompleted (id : R) (json : String) : RouterM R Unit := do
  match ← findRow id with
  | some record =>
    if record.status = .inProgress then
      updateRow id .completed (if json = "" then record.validatedOutputJson else some json)
    else pure ()
  | none => pure ()

/-- `_record_call_failed`: a completed row stays completed.
Source `joker/cognition/artifacts.py:519–545`,
`joker/persistence/cognitive_repositories.py:314–315`. -/
def recordCallFailed (id : R) : RouterM R Unit := do
  match ← findRow id with
  | some record =>
    if record.status = .completed then pure ()
    else updateRow id .failed record.validatedOutputJson
  | none => pure ()

/-- `provider.complete_structured`. -/
def completeStructured : RouterM R ProviderOutcome :=
  Coro.atomic .completeStructured (fun s ↦ (s, .ok s.outside.provider))

/-- One round of `_complete_with_retries`; `repair` is the next round after a schema failure. -/
def completeOnce (id : R) (request : ModelRequest) (repair : RouterM R (ModelResult R))
    (escalateOrRaise : RouterError → RouterM R (ModelResult R)) : RouterM R (ModelResult R) := do
  match ← router.tryReuseCompleted request with
  | some reused => pure reused
  | none =>
    recordCallStarted id request
    match ← completeStructured with
    | .output json =>
      recordCallCompleted id json
      pure ⟨id, json⟩
    | .structuredOutputFailure => repair
    | .modelError =>
      recordCallFailed id
      escalateOrRaise .modelError
    | .otherException => Coro.raise .otherException

/-- `_complete_with_retries` on one profile, with the schema repairs that are left.
Source `joker/models/router.py:184–304`. -/
def completeWithRetries (id : R) (request : ModelRequest)
    (escalateOrRaise : RouterError → RouterM R (ModelResult R)) : ℕ → RouterM R (ModelResult R)
  | 0 =>
    router.completeOnce id request
      (do recordCallFailed id; escalateOrRaise .structuredOutputFailure) escalateOrRaise
  | repairs + 1 =>
    router.completeOnce id request
      (completeWithRetries id request escalateOrRaise repairs) escalateOrRaise

/-- Route a request. The profiles of these roles are local, and the remote one does not
escalate, so that there is at most one escalation. -/
def routeAndComplete (id : R) (request : ModelRequest) : RouterM R (ModelResult R) :=
  router.completeWithRetries id request (fun error ↦
    if router.maxProviderEscalations = 0 then Coro.raise error
    else router.completeWithRetries id request Coro.raise router.maxSchemaRepairAttempts)
    router.maxSchemaRepairAttempts

/-! ### Whose output a call returns -/

section Outline

variable {requests : R → ModelRequest}

/-- A result is the call's own, or that of a call with the same key. -/
def Answers (requests : R → ModelRequest) (id : R)
    (result : Except RouterError (ModelResult R)) : Prop :=
  ∀ answer, result = .ok answer → answer.requestId = id ∨
    (requests answer.requestId).idempotencyKey = (requests id).idempotencyKey

/-- The rows carry the keys of their requests. -/
def Keyed (requests : R → ModelRequest) (s : RouterState R) : Prop :=
  s.modelCalls.KeyedBy requests

-- Outlines without assertions about the state.
private abbrev Plain {α : Type} (requests : R → ModelRequest) (c : RouterM R α)
    (P : Except RouterError α → Prop) : Prop :=
  c.Outlined (fun _ _ ↦ True) (fun _ _ ↦ True) (Keyed requests) (fun result _ ↦ P result)

private theorem plain_of_steps {α : Type} {c : RouterM R α}
    (h : c.Steps (fun _ s s' ↦ Keyed requests s → Keyed requests s')) :
    Plain requests c (fun _ ↦ True) :=
  Coro.outlined_of_steps (Coro.steps_mono (fun _ _ _ hs _ ↦ hs) h)

private theorem keyed_recordCallStarted (id : R) :
    (recordCallStarted id (requests id)).Steps
      (fun _ s s' ↦ Keyed requests s → Keyed requests s') := by
  apply Coro.steps_bind
  · exact Coro.steps_atomic (fun s h ↦ h)
  · intro free
    split
    · apply Coro.steps_atomic
      intro s h
      simp only
      split
      · exact h
      · exact ModelCalls.keyedBy_insert h rfl
    · trivial

private theorem keyed_updateRow (id : R) (status : ModelCallStatus) (output : Option String) :
    (updateRow id status output).Steps (fun _ s s' ↦ Keyed requests s → Keyed requests s') := by
  apply Coro.steps_atomic
  intro s h
  simp only
  split
  · exact h
  · exact ModelCalls.keyedBy_update h id status output

private theorem keyed_findRow (id : R) :
    (findRow id).Steps (fun _ s s' ↦ Keyed requests s → Keyed requests s') :=
  Coro.steps_atomic (fun _ h ↦ h)

private theorem keyed_recordCallCompleted (id : R) (json : String) :
    (recordCallCompleted id json).Steps
      (fun _ s s' ↦ Keyed requests s → Keyed requests s') := by
  apply Coro.steps_bind (keyed_findRow id)
  intro record
  cases record with
  | none => trivial
  | some record =>
    simp only
    split
    · exact keyed_updateRow _ _ _
    · trivial

private theorem keyed_recordCallFailed (id : R) :
    (recordCallFailed id).Steps (fun _ s s' ↦ Keyed requests s → Keyed requests s') := by
  apply Coro.steps_bind (keyed_findRow id)
  intro record
  cases record with
  | none => trivial
  | some record =>
    simp only
    split
    · trivial
    · exact keyed_updateRow _ _ _

/-- A reused output was completed under the same key. -/
theorem key_of_reusable {request : ModelRequest} {calls : ModelCalls R} {answer : ModelResult R}
    (hcalls : calls.KeyedBy requests) (h : router.reusable request calls = some answer) :
    (requests answer.requestId).idempotencyKey = request.idempotencyKey := by
  unfold reusable at h
  split at h
  · cases h
  · next id existing hfind =>
    obtain ⟨hrow, hkey⟩ := ModelCalls.get?_of_getByIdempotency hfind
    split at h
    · cases h
    · split at h
      · cases h
      · split at h
        · cases h
        · split at h
          · cases h
            exact (hcalls id existing hrow).symm.trans hkey
          · cases h

private theorem at_completeOnce {id : R} {request : ModelRequest}
    {repair : RouterM R (ModelResult R)}
    {escalate : RouterError → RouterM R (ModelResult R)}
    {P : Except RouterError (ModelResult R) → Prop} (s : RouterState R) :
    (router.completeOnce id request repair escalate).At (fun _ _ ↦ True)
      (fun result _ ↦ P result) s := trivial

private theorem plain_completeOnce {id : R} {repair : RouterM R (ModelResult R)}
    {escalate : RouterError → RouterM R (ModelResult R)}
    (hrepair : Plain requests repair (Answers requests id))
    (hrepairAt : ∀ s, repair.At (fun _ _ ↦ True) (fun result _ ↦ Answers requests id result) s)
    (hescalate : ∀ e, Plain requests (escalate e) (Answers requests id))
    (hescalateAt : ∀ e s, (escalate e).At (fun _ _ ↦ True)
      (fun result _ ↦ Answers requests id result) s) :
    Plain requests (router.completeOnce id (requests id) repair escalate)
      (Answers requests id) := by
  apply Coro.outlined_bind (Q := fun result _ ↦ ∀ answer, result = .ok (some answer) →
    (requests answer.requestId).idempotencyKey = (requests id).idempotencyKey)
  · refine Coro.outlined_atomic (fun s _ hs _ ↦ ⟨hs, ?_⟩)
    intro answer hanswer
    simp only at hanswer
    split at hanswer
    · cases hanswer
    · exact router.key_of_reusable hs (Except.ok.inj hanswer)
  · intro reused
    cases reused with
    | some reused => trivial
    | none =>
      apply Coro.outlined_bind (plain_of_steps (keyed_recordCallStarted id))
      · intro _
        apply Coro.outlined_bind (Q := fun _ _ ↦ True)
        · exact Coro.outlined_atomic (fun s _ hs _ ↦ ⟨hs, trivial⟩)
        · intro outcome
          cases outcome with
          | output json =>
            apply Coro.outlined_bind (plain_of_steps (keyed_recordCallCompleted id json))
            · exact fun _ ↦ trivial
            · intro _ s _ _ answer hanswer
              cases hanswer
              exact Or.inl rfl
            · intro e s _ answer hanswer
              cases hanswer
          | structuredOutputFailure => exact hrepair
          | modelError =>
            apply Coro.outlined_bind (plain_of_steps (keyed_recordCallFailed id))
            · exact fun _ ↦ hescalate _
            · exact fun _ s _ _ ↦ hescalateAt _ s
            · intro e s _ answer hanswer
              cases hanswer
          | otherException => trivial
        · intro outcome s _ _
          cases outcome with
          | output json => trivial
          | structuredOutputFailure => exact hrepairAt s
          | modelError => trivial
          | otherException =>
            intro answer hanswer
            cases hanswer
        · intro e s _ answer hanswer
          cases hanswer
      · exact fun _ _ _ _ ↦ trivial
      · intro e s _ answer hanswer
        cases hanswer
  · intro reused s _ hreused
    cases reused with
    | some reused =>
      intro answer hanswer
      cases hanswer
      exact Or.inr (hreused reused rfl)
    | none => trivial
  · intro e s _ answer hanswer
    cases hanswer

private theorem at_completeWithRetries {id : R} {request : ModelRequest}
    {escalate : RouterError → RouterM R (ModelResult R)} {repairs : ℕ}
    {P : Except RouterError (ModelResult R) → Prop} (s : RouterState R) :
    (router.completeWithRetries id request escalate repairs).At (fun _ _ ↦ True)
      (fun result _ ↦ P result) s := by
  cases repairs <;> exact at_completeOnce router s

private theorem plain_completeWithRetries {id : R}
    {escalate : RouterError → RouterM R (ModelResult R)}
    (hescalate : ∀ e, Plain requests (escalate e) (Answers requests id))
    (hescalateAt : ∀ e s, (escalate e).At (fun _ _ ↦ True)
      (fun result _ ↦ Answers requests id result) s) (repairs : ℕ) :
    Plain requests (router.completeWithRetries id (requests id) escalate repairs)
      (Answers requests id) := by
  induction repairs with
  | zero =>
    refine router.plain_completeOnce ?_ (fun s ↦ ?_) hescalate hescalateAt
    · apply Coro.outlined_bind (plain_of_steps (keyed_recordCallFailed id))
      · exact fun _ ↦ hescalate _
      · exact fun _ s _ _ ↦ hescalateAt _ s
      · intro e s _ answer hanswer
        cases hanswer
    · trivial
  | succ repairs ih =>
    exact router.plain_completeOnce ih (router.at_completeWithRetries) hescalate hescalateAt

omit [DecidableEq R] in
private theorem raise_answers (id : R) (e : RouterError) (s : RouterState R) :
    (Coro.raise e : RouterM R (ModelResult R)).At (fun _ _ ↦ True)
      (fun result _ ↦ Answers requests id result) s := by
  intro answer hanswer
  cases hanswer

private theorem plain_routeAndComplete (id : R) :
    Plain requests (router.routeAndComplete id (requests id)) (Answers requests id) := by
  apply router.plain_completeWithRetries
  · intro e
    split
    · trivial
    · apply router.plain_completeWithRetries _ (raise_answers id)
      exact fun e ↦ trivial
  · intro e s
    split
    · exact raise_answers id e s
    · exact router.at_completeWithRetries s

end Outline

/-! ### Runs -/

/-- Calls of one session in any order of steps, with any answers of the providers and any
database errors between them. -/
def runCalls (requests : R → ModelRequest) (outside : Outside)
    (xs : List (PoolAction R Outside)) :
    Pool R RouterOp (RouterState R) RouterError (ModelResult R) :=
  run (Pool.step (fun id ↦ router.routeAndComplete id (requests id))
    (fun outside s ↦ { s with outside := outside })) (Pool.start ⟨Dict.empty, outside⟩) xs

/-- In every run a call returns its own output or that of a call with the same key. -/
theorem answers_of_run (requests : R → ModelRequest) (outside : Outside)
    (xs : List (PoolAction R Outside)) {i : ℕ} {id : R}
    {result : Except RouterError (ModelResult R)}
    (h : (router.runCalls requests outside xs).Finished i id result) :
    Answers requests id result := by
  refine Pool.result_of_run (I := Keyed requests) (P := Answers requests) ?_ ?_ ?_ ?_ xs h
  · exact fun id ↦ router.plain_routeAndComplete id
  · exact fun id s ↦ router.at_completeWithRetries s
  · exact fun outside s hs ↦ hs
  · intro id record hrecord
    rw [Dict.get?_empty] at hrecord
    cases hrecord

end ModelRouter

end Joker.Cognition
