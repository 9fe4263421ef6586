import Joker.Base.History
import Joker.Base.Text
import Joker.Cognition.ModelRouter

/-!
# Profiles, repairs and escalations

Library `Cognition`. `ModelRouter.route_and_complete` with the profile it selects and the counters
that its two mutually recursive coroutines thread: `_complete_with_retries` asks one profile and
repairs its answers, `_escalate_or_raise` turns to the remote one. Every operation carries the round
that takes it. Telemetry, token limits and the semaphore are left out, and a timeout inside a
provider, which leaves the router as `ModelBudgetExceeded`, is one of the other exceptions.
-/

namespace Joker.Cognition.Routing

open Joker.Base

/-! ### The registry -/

/-- `ModelProfileConfig`, as far as routing reads it. Source `joker/models/schemas.py:99–113`. -/
structure ModelProfileConfig where
  provider : String
  model : String
  enabled : Bool
  deriving DecidableEq, Repr

/-- `ModelRegistry`: the profiles, the names of the providers, and what the environment has for
the model of the remote profile. Source `joker/models/registry.py:22–103`. -/
structure ModelRegistry where
  profiles : Dict String ModelProfileConfig
  providers : List String
  openaiModel : String

namespace ModelRegistry

/-- `get_profile`. Source `joker/models/registry.py:54–59`. -/
def getProfile (registry : ModelRegistry) (profileName : String) :
    Except RouterError ModelProfileConfig :=
  match registry.profiles.get? profileName with
  | none => .error .modelError
  | some profile => .ok profile

/-- `get_provider`. Source `joker/models/registry.py:47–52`. -/
def getProvider (registry : ModelRegistry) (providerName : String) : Except RouterError String :=
  if providerName ∈ registry.providers then .ok providerName else .error .modelError

/-- `resolve_model_name`. Source `joker/models/registry.py:61–69`. -/
def resolveModelName (registry : ModelRegistry) (profile : ModelProfileConfig) :
    Except RouterError String :=
  if profile.model = "$\x7bOPENAI_MODEL\x7d" then
    let value := strip registry.openaiModel
    if value = "" then .error .modelError else .ok value
  else .ok profile.model

/-- `provider_for_profile`: the provider, the profile and the name of the model.
Source `joker/models/registry.py:71–78`. -/
def providerForProfile (registry : ModelRegistry) (profileName : String) :
    Except RouterError (String × ModelProfileConfig × String) := do
  let profile ← registry.getProfile profileName
  if profile.enabled then
    let provider ← registry.getProvider profile.provider
    let modelName ← registry.resolveModelName profile
    pure (provider, profile, modelName)
  else .error .modelError

end ModelRegistry

/-! ### Selection -/

/-- `FAST_STRUCTURED_ROLES`. Source `joker/models/router.py:30–35`. -/
def fastStructuredRoles : List String := ["anomaly", "temporal_context"]

/-- `CRITIC_ROLES`. Source `joker/models/router.py:37–45`. -/
def criticRoles : List String :=
  ["strategy_advocate", "falsifier", "historical_critic", "execution_critic",
    "alternative_explanation"]

/-- `DEEP_LOCAL_ROLES`. Source `joker/models/router.py:47–55`. -/
def deepLocalRoles : List String :=
  ["meta_decision", "entry_tactician", "order_manager", "position_thesis", "position_decision"]

/-- `INVENTOR_ROLES`. Source `joker/models/router.py:57–63`. -/
def inventorRoles : List String := ["bullish_inventor", "bearish_inventor", "neutral_advocate"]

/-- The profile that calls are escalated to. -/
def remoteEscalation : String := "remote_escalation"

/-- `ModelRequest`, as far as routing reads it; any text may be the role.
Source `joker/models/schemas.py:35–69`. -/
structure RoutingRequest (R : Type) where
  requestId : R
  idempotencyKey : String
  role : String
  modelProfile : String
  contextPayload : Dict String Json

/-- What `select_profile` returns. -/
structure ProfileSelection where
  profileName : String
  reasonCode : String
  independenceDegraded : Bool
  deriving DecidableEq, Repr

/-- Settings of the router, whether it has a repository of model calls, and
`output_type.model_validate_json`. -/
structure RouterSettings where
  registry : ModelRegistry
  maxSchemaRepairAttempts : ℕ
  maxProviderEscalations : ℕ
  hasRepo : Bool
  validates : String → Bool

variable {R : Type} [DecidableEq R] (router : RouterSettings) (request : RoutingRequest R)

omit [DecidableEq R] in
/-- `select_profile`. Source `joker/models/router.py:110–147`. -/
def selectProfile (forceProfile : Option String) (escalate : Bool) :
    Except RouterError ProfileSelection :=
  match forceProfile.filter (fun name ↦ decide (name ≠ "")) with
  | some name => .ok ⟨name, "forced_profile", false⟩
  | none =>
    if escalate || (request.contextPayload.get? "escalate").any Json.truthy then
      .ok ⟨remoteEscalation, "explicit_escalation", false⟩
    else if request.modelProfile ∈ router.registry.profiles.keys then
      .ok ⟨request.modelProfile, "request_profile_override", false⟩
    else if request.role ∈ criticRoles then
      let inventorProfile := request.contextPayload.get? "inventor_profile"
      .ok ⟨"independent_critic", "critic_independence",
        inventorProfile.any (fun value ↦ decide (value.text? = some "independent_critic"))⟩
    else if request.role ∈ deepLocalRoles then
      match router.registry.getProfile "deep_local" with
      | .error e => .error e
      | .ok profile =>
        if profile.enabled then .ok ⟨"deep_local", "deep_local_arbitration", false⟩
        else .ok ⟨"general_reasoning", "deep_local_disabled", false⟩
    else if request.role ∈ fastStructuredRoles then
      .ok ⟨"fast_structured", "fast_extraction", false⟩
    else if request.role ∈ inventorRoles || startsWithText "pattern_" request.role ||
        endsWithText "_analyst" request.role then
      .ok ⟨"general_reasoning", "general_reasoning", false⟩
    else .ok ⟨"general_reasoning", "default_general_reasoning", false⟩

/-! ### Rounds -/

/-- The arguments of `_complete_with_retries` that change from call to call. -/
structure Round where
  profileName : String
  escalationCount : ℕ
  repairAttempts : ℕ
  escalatedFrom : Option String
  deriving DecidableEq, Repr

/-- A coroutine whose operations carry their rounds. -/
abbrev RoutingM (R α : Type) := Coro (Round × RouterOp) (RouterState R) RouterError α

omit [DecidableEq R] in
/-- The operations of a round. -/
def Round.take {α : Type} (round : Round) (c : RouterM R α) : RoutingM R α :=
  c.zoom (fun op ↦ (round, op)) id (fun s _ ↦ s)

/-- The completed output that a table holds under the request's key. -/
def reusable (calls : ModelCalls R) : Option (ModelResult R) :=
  match calls.getByIdempotency request.idempotencyKey with
  | none => none
  | some (id, existing) =>
    if existing.status ≠ .completed then none
    else
      match existing.validatedOutputJson with
      | none => none
      | some json =>
        if json = "" then none
        else if router.validates json then some ⟨id, json⟩
        else none

/-- `_try_reuse_completed`. Source `joker/models/router.py:406–437`. -/
def tryReuseCompleted : RouterM R (Option (ModelResult R)) :=
  if router.hasRepo then
    Coro.atomic .select (fun s ↦
      (s, .ok (if s.outside.storeRaises then none else reusable router request s.modelCalls)))
  else pure none

/-- `_record_call_started`: a call whose role is none of the known ones is not recorded.
Source `joker/models/router.py:439–478`. -/
def recordCallStarted : RouterM R Unit :=
  if router.hasRepo then
    match AgentRole.ofValue request.role with
    | none => pure ()
    | some role =>
      ModelRouter.recordCallStarted request.requestId
        ⟨request.idempotencyKey, role, request.contextPayload⟩
  else pure ()

/-- `_record_call_completed`. Source `joker/models/router.py:480–499`. -/
def recordCallCompleted (json : String) : RouterM R Unit :=
  if router.hasRepo then ModelRouter.recordCallCompleted request.requestId json else pure ()

/-- `_record_call_failed`. Source `joker/models/router.py:501–510`. -/
def recordCallFailed : RouterM R Unit :=
  if router.hasRepo then ModelRouter.recordCallFailed request.requestId else pure ()

mutual

/-- `_complete_with_retries`. Source `joker/models/router.py:184–304`. -/
def completeWithRetries (round : Round) : RoutingM R (ModelResult R) :=
  match router.registry.providerForProfile round.profileName with
  | .error e => Coro.raise e
  | .ok _ => do
    match ← round.take (tryReuseCompleted router request) with
    | some reused => pure reused
    | none =>
      round.take (recordCallStarted router request)
      match ← round.take ModelRouter.completeStructured with
      | .output json =>
        round.take (recordCallCompleted router request json)
        pure ⟨request.requestId, json⟩
      | .structuredOutputFailure =>
        if round.repairAttempts < router.maxSchemaRepairAttempts then
          completeWithRetries { round with repairAttempts := round.repairAttempts + 1 }
        else
          round.take (recordCallFailed router request)
          escalateOrRaise round .structuredOutputFailure
      | .modelError =>
        round.take (recordCallFailed router request)
        escalateOrRaise round .modelError
      | .otherException => Coro.raise .otherException
termination_by (if round.profileName = remoteEscalation then 0 else 1,
  router.maxSchemaRepairAttempts - round.repairAttempts, 1)

/-- `_escalate_or_raise`. Source `joker/models/router.py:306–355`. -/
def escalateOrRaise (round : Round) (error : RouterError) : RoutingM R (ModelResult R) :=
  if round.profileName = remoteEscalation ∨
      router.maxProviderEscalations ≤ round.escalationCount then
    Coro.raise error
  else
    completeWithRetries
      { profileName := remoteEscalation
        escalationCount := round.escalationCount + 1
        repairAttempts := 0
        escalatedFrom := some round.profileName }
termination_by (if round.profileName = remoteEscalation then 0 else 1,
  router.maxSchemaRepairAttempts - round.repairAttempts, 0)
decreasing_by
  next hgoes =>
    apply Prod.Lex.left
    rw [if_pos trivial, if_neg (fun hremote ↦ hgoes (Or.inl hremote))]
    exact Nat.one_pos

end

/-- `route_and_complete`. Source `joker/models/router.py:149–182`. -/
def routeAndComplete (forceProfile : Option String) (escalate : Bool) :
    RoutingM R (ModelResult R) :=
  match selectProfile router request forceProfile escalate with
  | .error e => Coro.raise e
  | .ok selection => completeWithRetries router request ⟨selection.profileName, 0, 0, none⟩

/-! ### The calls of agents -/

section Agents

omit [DecidableEq R]

/-- The operations of a call without their rounds. -/
def unlabelled {α : Type} (c : RoutingM R α) : RouterM R α := c.zoom Prod.snd id (fun s _ ↦ s)

private theorem unlabelled_bind {α β : Type} (c : RoutingM R α) (k : α → RoutingM R β) :
    unlabelled (c >>= k) = unlabelled c >>= fun a ↦ unlabelled (k a) :=
  Coro.zoom_bind c k

private theorem unlabelled_take {α : Type} (round : Round) (c : RouterM R α) :
    unlabelled (round.take c) = c :=
  Coro.zoom_relabel (fun _ ↦ rfl) c

/-- The request of an agent under a profile. -/
def ofAgent (id : R) (request : ModelRequest) (modelProfile : String) : RoutingRequest R where
  requestId := id
  idempotencyKey := request.idempotencyKey
  role := request.role.value
  modelProfile := modelProfile
  contextPayload := request.contextPayload

/-- The settings are those of a router with a repository, for one role. -/
structure Serves (settings : RouterSettings) (router : ModelRouter) (role : AgentRole) : Prop where
  repairs : settings.maxSchemaRepairAttempts = router.maxSchemaRepairAttempts
  escalations : settings.maxProviderEscalations = router.maxProviderEscalations
  hasRepo : settings.hasRepo = true
  validates : settings.validates = router.validates role

variable {settings : RouterSettings} {router : ModelRouter} {agentRequest : ModelRequest}
  {modelProfile : String} {id : R}

private theorem escalateOrRaise_repaired [DecidableEq R] (settings : RouterSettings)
    (request : RoutingRequest R) (round : Round) (repairAttempts : ℕ) (error : RouterError) :
    escalateOrRaise settings request { round with repairAttempts := repairAttempts } error =
      escalateOrRaise settings request round error := by
  rw [escalateOrRaise, escalateOrRaise]

variable [DecidableEq R]

private theorem unlabelled_round (h : Serves settings router agentRequest.role) {round : Round}
    {resolved : String × ModelProfileConfig × String}
    (hresolved : settings.registry.providerForProfile round.profileName = .ok resolved) :
    unlabelled (completeWithRetries settings (ofAgent id agentRequest modelProfile) round) =
      router.completeOnce id agentRequest
        (if round.repairAttempts < settings.maxSchemaRepairAttempts then
          unlabelled (completeWithRetries settings (ofAgent id agentRequest modelProfile)
            { round with repairAttempts := round.repairAttempts + 1 })
        else do
          ModelRouter.recordCallFailed id
          unlabelled (escalateOrRaise settings (ofAgent id agentRequest modelProfile) round
            .structuredOutputFailure))
        (fun error ↦
          unlabelled (escalateOrRaise settings (ofAgent id agentRequest modelProfile) round
            error)) := by
  have hreuse : tryReuseCompleted settings (ofAgent id agentRequest modelProfile) =
      router.tryReuseCompleted agentRequest := by
    unfold tryReuseCompleted reusable
    rw [if_pos h.hasRepo, h.validates]
    rfl
  have hstarted : recordCallStarted settings (ofAgent id agentRequest modelProfile) =
      ModelRouter.recordCallStarted id agentRequest := by
    unfold recordCallStarted ofAgent
    rw [if_pos h.hasRepo, AgentRole.ofValue_value]
  have hcompleted : ∀ json, recordCallCompleted settings (ofAgent id agentRequest modelProfile)
      json = ModelRouter.recordCallCompleted id json := fun _ ↦ if_pos h.hasRepo
  have hfailed : recordCallFailed settings (ofAgent id agentRequest modelProfile) =
      ModelRouter.recordCallFailed id := if_pos h.hasRepo
  rw [completeWithRetries, hresolved]
  unfold ModelRouter.completeOnce
  simp only [unlabelled_bind, unlabelled_take, hreuse]
  congr 1
  funext reused
  cases reused with
  | some reused => rfl
  | none =>
    simp only [unlabelled_bind, unlabelled_take, hstarted]
    congr 1
    funext _
    congr 1
    funext outcome
    cases outcome with
    | output json =>
      simp only [unlabelled_bind, unlabelled_take, hcompleted]
      rfl
    | structuredOutputFailure =>
      simp only
      split
      · rfl
      · rw [unlabelled_bind, unlabelled_take, hfailed]
    | modelError =>
      simp only
      rw [unlabelled_bind, unlabelled_take, hfailed]
    | otherException => rfl

private theorem unlabelled_completeWithRetries
    (h : Serves settings router agentRequest.role)
    {resolved : String × ModelProfileConfig × String} (repairs : ℕ) {round : Round}
    (hresolved : settings.registry.providerForProfile round.profileName = .ok resolved)
    (hrepairs : round.repairAttempts + repairs = settings.maxSchemaRepairAttempts) :
    unlabelled (completeWithRetries settings (ofAgent id agentRequest modelProfile) round) =
      router.completeWithRetries id agentRequest (fun error ↦
        unlabelled (escalateOrRaise settings (ofAgent id agentRequest modelProfile) round error))
        repairs := by
  induction repairs generalizing round with
  | zero =>
    rw [unlabelled_round h hresolved, if_neg (by omega)]
    rfl
  | succ repairs ih =>
    have hnext : round.repairAttempts + 1 + repairs = settings.maxSchemaRepairAttempts := by omega
    have hrest := @ih { round with repairAttempts := round.repairAttempts + 1 } hresolved hnext
    simp only [escalateOrRaise_repaired] at hrest
    rw [unlabelled_round h hresolved, if_pos (by omega), hrest]
    rfl

/-- Where the profiles are resolved and the first one is local, a call is routed as the agents'
router routes it. -/
theorem unlabelled_start (h : Serves settings router agentRequest.role) {profileName : String}
    {first remote : String × ModelProfileConfig × String}
    (hfirst : settings.registry.providerForProfile profileName = .ok first)
    (hremote : settings.registry.providerForProfile remoteEscalation = .ok remote)
    (hlocal : profileName ≠ remoteEscalation) :
    unlabelled (completeWithRetries settings (ofAgent id agentRequest modelProfile)
      ⟨profileName, 0, 0, none⟩) = router.routeAndComplete id agentRequest := by
  have hescalate : ∀ error, unlabelled (escalateOrRaise settings
      (ofAgent id agentRequest modelProfile) ⟨profileName, 0, 0, none⟩ error) =
        if router.maxProviderEscalations = 0 then Coro.raise error
        else router.completeWithRetries id agentRequest Coro.raise
          router.maxSchemaRepairAttempts := by
    intro error
    rw [escalateOrRaise, h.escalations]
    by_cases hnone : router.maxProviderEscalations = 0
    · rw [if_pos (Or.inr (Nat.le_zero.mpr hnone)), if_pos hnone]
      rfl
    · rw [if_neg (by simp [hlocal, hnone]), if_neg hnone,
        unlabelled_completeWithRetries h router.maxSchemaRepairAttempts hremote
          (by simpa using h.repairs.symm)]
      congr 1
      funext error'
      rw [escalateOrRaise, if_pos (Or.inl rfl)]
      rfl
  rw [unlabelled_completeWithRetries h router.maxSchemaRepairAttempts hfirst
    (by simpa using h.repairs.symm)]
  unfold ModelRouter.routeAndComplete
  simp only [hescalate]

end Agents

end Joker.Cognition.Routing
