import Joker.Cognition.Routing

/-!
# Routing is bounded

Library `Cognition`. Every round of routing asks a provider at most once, and the rounds that are
left shrink with every repair and with the one escalation. So a call ends after a bounded number of
invocations, whatever the providers and the store answer and whatever other calls do in between,
and it asks no other profile after the remote one.
-/

namespace Joker.Cognition.Routing

open Joker.Base

/-- What a call has done: its operations with the states that they found. -/
abbrev RoutingHistory (R : Type) := List ((Round × RouterOp) × RouterState R)

variable {R : Type}

/-- The invocation of an operation: its round and what the provider answers. -/
def invocation (o : (Round × RouterOp) × RouterState R) : Option (Round × ProviderOutcome) :=
  match o.1.2 with
  | .completeStructured => some (o.1.1, o.2.outside.provider)
  | .select | .insert | .update => none

/-- The invocations of providers. -/
def invocations (history : RoutingHistory R) : List (Round × ProviderOutcome) :=
  history.filterMap invocation

/-- The invocations of two histories are those of each. -/
@[simp] theorem invocations_append (xs ys : RoutingHistory R) :
    invocations (xs ++ ys) = invocations xs ++ invocations ys := by
  simp [invocations]

/-- Bookkeeping: no provider is invoked. -/
def Bookkeeping (label : Round × RouterOp) : Prop := label.2 ≠ .completeStructured

private theorem invocations_bookkeeping {ops : RoutingHistory R} (h : ∀ o ∈ ops, Bookkeeping o.1) :
    invocations ops = [] := by
  apply List.filterMap_eq_nil_iff.mpr
  rintro ⟨⟨round, op⟩, s⟩ ho
  cases op with
  | completeStructured => exact absurd rfl (h _ ho)
  | select | insert | update => rfl

/-- No other profile is invoked after the remote one. -/
def RemoteLast (history : RoutingHistory R) : Prop :=
  (invocations history).Pairwise (fun a b ↦
    a.1.profileName = remoteEscalation → b.1.profileName = remoteEscalation)

/-! ### Counting rounds -/

section Counting

variable (router : RouterSettings)

/-- The most invocations of a call. -/
def invocationBound : ℕ :=
  (router.maxSchemaRepairAttempts + 1) * (min router.maxProviderEscalations 1 + 1)

/-- The rounds that may still come, with this one. -/
def roundsLeft (round : Round) : ℕ :=
  router.maxSchemaRepairAttempts - round.repairAttempts + 1 +
    if round.profileName = remoteEscalation ∨
        router.maxProviderEscalations ≤ round.escalationCount then 0
    else router.maxSchemaRepairAttempts + 1

private theorem roundsLeft_pos (round : Round) : 0 < roundsLeft router round := by
  unfold roundsLeft
  omega

/-- A call starts with no more rounds than it may invoke providers. -/
theorem roundsLeft_start (profileName : String) :
    roundsLeft router ⟨profileName, 0, 0, none⟩ ≤ invocationBound router := by
  unfold roundsLeft invocationBound
  simp only [Nat.sub_zero]
  split
  · next hlast => exact Nat.le_mul_of_pos_right _ (Nat.succ_pos _)
  · next hmore =>
    have hone : min router.maxProviderEscalations 1 = 1 := by
      apply Nat.min_eq_right
      by_contra hn
      exact hmore (Or.inr (by omega))
    rw [hone]
    omega

/-- A repair is one round less. -/
theorem roundsLeft_repair {round : Round}
    (h : round.repairAttempts < router.maxSchemaRepairAttempts) :
    roundsLeft router { round with repairAttempts := round.repairAttempts + 1 } + 1 =
      roundsLeft router round := by
  unfold roundsLeft
  simp only
  omega

/-- An escalation leaves the rounds of one profile. -/
theorem roundsLeft_escalate {round : Round}
    (h : ¬ (round.profileName = remoteEscalation ∨
      router.maxProviderEscalations ≤ round.escalationCount)) :
    roundsLeft router ⟨remoteEscalation, round.escalationCount + 1, 0, some round.profileName⟩ + 1 ≤
      roundsLeft router round := by
  unfold roundsLeft
  rw [if_neg h, if_pos (Or.inl rfl)]
  omega

/-- What holds of every history: few invocations, few operations, and the remote profile last. -/
structure Within (history : RoutingHistory R) : Prop where
  invoked : (invocations history).length ≤ invocationBound router
  length : history.length ≤ 6 * invocationBound router
  remoteLast : RemoteLast history

/-- In a round, after some operations of it, the provider having been invoked some times. -/
structure Under (round : Round) (invoked taken : ℕ) (history : RoutingHistory R) : Prop where
  invoked : (invocations history).length + roundsLeft router round ≤
    invocationBound router + invoked
  length : history.length + 6 * roundsLeft router round ≤ 6 * invocationBound router + taken
  remoteLast : RemoteLast history
  current : ∀ i ∈ invocations history, i.1.profileName = remoteEscalation →
    round.profileName = remoteEscalation

variable {router} {round : Round} {invoked taken : ℕ} {history : RoutingHistory R}

private theorem under_start (profileName : String) :
    Under router ⟨profileName, 0, 0, none⟩ 0 0 ([] : RoutingHistory R) := by
  have hstart := roundsLeft_start router profileName
  constructor
  · change 0 + _ ≤ _ + 0
    omega
  · change 0 + 6 * _ ≤ _ + 0
    omega
  · exact List.Pairwise.nil
  · exact fun i hi ↦ nomatch hi

private theorem Under.within (h : Under router round invoked taken history) (hinvoked : invoked ≤ 1)
    (htaken : taken ≤ 6) : Within router history := by
  have hpos := roundsLeft_pos router round
  have h₁ := h.invoked
  have h₂ := h.length
  exact ⟨by omega, by omega, h.remoteLast⟩

/-- Bookkeeping takes operations only. -/
theorem Under.bookkeeping (h : Under router round invoked taken history) {ops : RoutingHistory R}
    {n : ℕ} (hlength : ops.length ≤ n) (hops : ∀ o ∈ ops, Bookkeeping o.1) :
    Under router round invoked (taken + n) (history ++ ops) := by
  have hsame : invocations (history ++ ops) = invocations history := by
    rw [invocations_append, invocations_bookkeeping hops, List.append_nil]
  have h₂ := h.length
  constructor
  · rw [hsame]
    exact h.invoked
  · rw [List.length_append]
    omega
  · unfold RemoteLast
    rw [hsame]
    exact h.remoteLast
  · rw [hsame]
    exact h.current

/-- The provider of the round is invoked. -/
theorem Under.invoke (h : Under router round 0 taken history) (s : RouterState R) :
    Under router round 1 (taken + 1) (history ++ [((round, .completeStructured), s)]) := by
  have hmore : invocations (history ++ [((round, .completeStructured), s)]) =
      invocations history ++ [(round, s.outside.provider)] := invocations_append _ _
  have h₁ := h.invoked
  have h₂ := h.length
  constructor
  · rw [hmore, List.length_append, List.length_singleton]
    omega
  · rw [List.length_append, List.length_singleton]
    omega
  · unfold RemoteLast
    rw [hmore, List.pairwise_append]
    refine ⟨h.remoteLast, List.pairwise_singleton _ _, ?_⟩
    intro i hi j hj hremote
    rw [List.mem_singleton.mp hj]
    exact h.current i hi hremote
  · intro i hi hremote
    rw [hmore] at hi
    rcases List.mem_append.mp hi with hi | hi
    · exact h.current i hi hremote
    · rwa [List.mem_singleton.mp hi] at hremote

/-- The next round has what this one leaves. -/
theorem Under.next (h : Under router round 1 taken history) (htaken : taken ≤ 6) {round' : Round}
    (hless : roundsLeft router round' + 1 ≤ roundsLeft router round)
    (hprofile : round.profileName = remoteEscalation → round'.profileName = remoteEscalation) :
    Under router round' 0 0 history := by
  have h₁ := h.invoked
  have h₂ := h.length
  refine ⟨by omega, by omega, h.remoteLast, ?_⟩
  exact fun i hi hremote ↦ hprofile (h.current i hi hremote)

end Counting

/-! ### Bookkeeping -/

section Quiet

variable [DecidableEq R] (router : RouterSettings) (request : RoutingRequest R) (round : Round)

private abbrev NotInvoked (op : RouterOp) : Prop := op ≠ .completeStructured

private theorem quiet_findRow (id : R) : (ModelRouter.findRow id).Quiet NotInvoked 1 :=
  Coro.quiet_atomic nofun

private theorem quiet_updateRow (id : R) (status : ModelCallStatus) (output : Option String) :
    (ModelRouter.updateRow id status output).Quiet NotInvoked 1 :=
  Coro.quiet_atomic nofun

private theorem quiet_recordCallStarted :
    (round.take (recordCallStarted router request)).Quiet Bookkeeping 2 := by
  apply Coro.quiet_zoom
  unfold recordCallStarted
  split
  · split
    · exact Coro.quiet_pure ()
    · change Coro.Quiet NotInvoked (1 + 1) (_ >>= _)
      apply Coro.quiet_bind (Coro.quiet_atomic nofun)
      intro free
      split
      · exact Coro.quiet_atomic nofun
      · exact Coro.quiet_pure ()
  · exact Coro.quiet_pure ()

private theorem quiet_recordCallCompleted (json : String) :
    (round.take (recordCallCompleted router request json)).Quiet Bookkeeping 2 := by
  apply Coro.quiet_zoom
  unfold recordCallCompleted
  split
  · change Coro.Quiet NotInvoked (1 + 1) (_ >>= _)
    apply Coro.quiet_bind (quiet_findRow _)
    intro record
    cases record with
    | none => exact Coro.quiet_pure ()
    | some record =>
      simp only
      split
      · exact quiet_updateRow _ _ _
      · exact Coro.quiet_pure ()
  · exact Coro.quiet_pure ()

private theorem quiet_recordCallFailed :
    (round.take (recordCallFailed router request)).Quiet Bookkeeping 2 := by
  apply Coro.quiet_zoom
  unfold recordCallFailed
  split
  · change Coro.Quiet NotInvoked (1 + 1) (_ >>= _)
    apply Coro.quiet_bind (quiet_findRow _)
    intro record
    cases record with
    | none => exact Coro.quiet_pure ()
    | some record =>
      simp only
      split
      · exact Coro.quiet_pure ()
      · exact quiet_updateRow _ _ _
  · exact Coro.quiet_pure ()

end Quiet

/-! ### Rounds -/

section Rounds

variable [DecidableEq R] {router : RouterSettings} {request : RoutingRequest R}

/-- A result is the answer of the last invocation, or the last operation has looked it up in the
table. -/
def Justified (router : RouterSettings) (request : RoutingRequest R) (history : RoutingHistory R)
    (answer : ModelResult R) : Prop :=
  (∃ round json, (invocations history).getLast? = some (round, .output json) ∧
      answer = ⟨request.requestId, json⟩) ∨
    ∃ round s, history.getLast? = some ((round, .select), s) ∧ s.outside.storeRaises = false ∧
      reusable router request s.modelCalls = some answer

/-- What holds when a call ends. -/
def Ends (router : RouterSettings) (request : RoutingRequest R) (history : RoutingHistory R)
    (result : Except RouterError (ModelResult R)) : Prop :=
  ∀ answer, result = .ok answer → Justified router request history answer

omit [DecidableEq R] in
private theorem ends_error {history : RoutingHistory R} (e : RouterError) :
    Ends router request history (.error e) := fun _ h ↦ nomatch h

omit [DecidableEq R] in
/-- The lookup ends the call with what it finds, or the round goes on. -/
theorem along_tryReuse {round : Round} {past : RoutingHistory R}
    {k : Option (ModelResult R) → RoutingM R (ModelResult R)}
    (h : Under router round 0 0 past) (hsome : ∀ answer, k (some answer) = pure answer)
    (hnone : ∀ history, Under router round 0 1 history →
      (k none).Along (Within router) (Ends router request) history) :
    (round.take (tryReuseCompleted router request) >>= k).Along (Within router)
      (Ends router request) past := by
  have hmore : Under router round 0 1 past :=
    ⟨h.invoked, Nat.le_succ_of_le h.length, h.remoteLast, h.current⟩
  unfold tryReuseCompleted
  split
  · intro s
    have hselect : ∀ o ∈ [((round, RouterOp.select), s)], Bookkeeping o.1 := by
      intro o ho
      rw [List.mem_singleton.mp ho]
      exact nofun
    have hlookup := h.bookkeeping (Nat.le_refl 1) hselect
    refine ⟨hlookup.within (by omega) (by omega), ?_⟩
    change (k (if s.outside.storeRaises then none
      else reusable router request s.modelCalls)).Along _ _ _
    cases hraises : s.outside.storeRaises with
    | true =>
      rw [if_pos rfl]
      exact hnone _ hlookup
    | false =>
      rw [if_neg Bool.false_ne_true]
      cases hfound : reusable router request s.modelCalls with
      | none => exact hnone _ hlookup
      | some answer =>
        rw [hsome]
        intro answer' hanswer
        cases hanswer
        exact Or.inr ⟨round, s, List.getLast?_concat, hraises, hfound⟩
  · exact hnone past hmore

/-- The rounds that may follow a round keep the bound. -/
def LaterAlong (router : RouterSettings) (request : RoutingRequest R) (round : Round) : Prop :=
  ∀ round' past, roundsLeft router round' + 1 ≤ roundsLeft router round →
    Under router round' 0 0 past →
    (completeWithRetries router request round').Along (Within router) (Ends router request) past

omit [DecidableEq R] in
/-- Bookkeeping is passed over. -/
theorem along_bookkeeping {α : Type} {round : Round} {past : RoutingHistory R}
    {invoked taken n : ℕ} {c : RoutingM R α} {k : α → RoutingM R (ModelResult R)}
    (hc : c.Quiet Bookkeeping n) (h : Under router round invoked taken past)
    (hinvoked : invoked ≤ 1) (htaken : taken + n ≤ 6)
    (hk : ∀ ops a, (∀ o ∈ ops, Bookkeeping o.1) →
      Under router round invoked (taken + n) (past ++ ops) →
      (k a).Along (Within router) (Ends router request) (past ++ ops)) :
    (c >>= k).Along (Within router) (Ends router request) past := by
  apply Coro.along_bind_of_quiet hc
  intro ops hlength hops
  have hafter := h.bookkeeping hlength hops
  exact ⟨hafter.within hinvoked htaken, fun a ↦ hk ops a hops hafter⟩

omit [DecidableEq R] in
/-- The provider is invoked once, and its outcome is the last one. -/
theorem along_completeStructured {round : Round} {past : RoutingHistory R} {taken : ℕ}
    {k : ProviderOutcome → RoutingM R (ModelResult R)} (h : Under router round 0 taken past)
    (htaken : taken + 1 ≤ 6)
    (hk : ∀ outcome history, Under router round 1 (taken + 1) history →
      (invocations history).getLast? = some (round, outcome) →
      (k outcome).Along (Within router) (Ends router request) history) :
    (round.take ModelRouter.completeStructured >>= k).Along (Within router) (Ends router request)
      past := by
  intro s
  have hinvoked := h.invoke s
  refine ⟨hinvoked.within (Nat.le_refl 1) htaken, hk _ _ hinvoked ?_⟩
  rw [invocations_append]
  exact List.getLast?_concat

/-- After an error the remote profile has its rounds, or the call ends with the error. -/
theorem along_escalateOrRaise {round : Round} {past : RoutingHistory R} {taken : ℕ}
    (hlater : LaterAlong router request round) (h : Under router round 1 taken past)
    (htaken : taken ≤ 6) (error : RouterError) :
    (escalateOrRaise router request round error).Along (Within router) (Ends router request)
      past := by
  rw [escalateOrRaise]
  split
  · exact ends_error error
  · next hgoes =>
    have hless := roundsLeft_escalate router hgoes
    exact hlater _ _ hless (h.next htaken hless (fun _ ↦ rfl))

/-- A failure is recorded, and then the round escalates or raises. -/
theorem along_fail {round : Round} {past : RoutingHistory R}
    (hlater : LaterAlong router request round) (h : Under router round 1 4 past)
    (error : RouterError) :
    (round.take (recordCallFailed router request) >>= fun _ ↦
      escalateOrRaise router request round error).Along (Within router) (Ends router request)
        past := by
  apply along_bookkeeping (quiet_recordCallFailed router request round) h (by omega) (by omega)
  intro ops _ _ hafter
  exact along_escalateOrRaise hlater hafter (by omega) error

/-- An answer is recorded, and the call ends with it. -/
theorem along_answer {round : Round} {past : RoutingHistory R} {json : String}
    (h : Under router round 1 4 past)
    (hlast : (invocations past).getLast? = some (round, .output json)) :
    (round.take (recordCallCompleted router request json) >>= fun _ ↦
      pure ⟨request.requestId, json⟩).Along (Within router) (Ends router request) past := by
  apply along_bookkeeping (quiet_recordCallCompleted router request round json) h (by omega)
    (by omega)
  intro ops _ hops _ answer hanswer
  cases hanswer
  refine Or.inl ⟨round, json, ?_, rfl⟩
  rw [invocations_append, invocations_bookkeeping hops, List.append_nil, hlast]

/-- A round keeps the bound when the rounds after it do. -/
theorem along_round {round : Round} {past : RoutingHistory R}
    (hlater : LaterAlong router request round) (h : Under router round 0 0 past) :
    (completeWithRetries router request round).Along (Within router) (Ends router request)
      past := by
  rw [completeWithRetries]
  cases router.registry.providerForProfile round.profileName with
  | error e => exact ends_error e
  | ok resolved =>
    apply along_tryReuse h (fun _ ↦ rfl)
    intro history hlooked
    apply along_bookkeeping (quiet_recordCallStarted router request round) hlooked (by omega)
      (by omega)
    intro ops _ _ hstarted
    apply along_completeStructured hstarted (by omega)
    intro outcome history hinvoked hlast
    cases outcome with
    | output json => exact along_answer hinvoked hlast
    | structuredOutputFailure =>
      dsimp only
      split
      · next hrepairs =>
        have hless := roundsLeft_repair router hrepairs
        exact hlater _ _ (by omega) (hinvoked.next (by omega) (by omega) id)
      · exact along_fail hlater hinvoked _
    | modelError => exact along_fail hlater hinvoked _
    | otherException => exact ends_error _

/-- A call that has so many rounds left keeps the bound from there on. -/
theorem along_completeWithRetries (n : ℕ) {round : Round} {past : RoutingHistory R}
    (hn : roundsLeft router round ≤ n) (h : Under router round 0 0 past) :
    (completeWithRetries router request round).Along (Within router) (Ends router request)
      past := by
  induction n generalizing round past with
  | zero => exact absurd (roundsLeft_pos router round) (by omega)
  | succ n ih =>
    apply along_round (fun round' later hless hunder ↦ ?_) h
    exact ih (by omega) hunder

/-- Every history of a call keeps the bound. -/
theorem along_routeAndComplete (router : RouterSettings) (request : RoutingRequest R)
    (forceProfile : Option String) (escalate : Bool) :
    (routeAndComplete router request forceProfile escalate).Along (Within router)
      (Ends router request) [] := by
  unfold routeAndComplete
  cases selectProfile router request forceProfile escalate with
  | error e => exact ends_error e
  | ok selection =>
    exact along_completeWithRetries _ (Nat.le_refl _) (under_start selection.profileName)

/-- Whatever states the operations of a call find, it asks providers a bounded number of times, no
other profile after the remote one, and ends. What it returns is the answer of its last invocation,
unless the lookup after it has found a completed call. -/
theorem routing_bounded (router : RouterSettings) (request : RoutingRequest R)
    (forceProfile : Option String) (escalate : Bool) (states : List (RouterState R)) :
    let bound := (router.maxSchemaRepairAttempts + 1) * (min router.maxProviderEscalations 1 + 1)
    let history := ((routeAndComplete router request forceProfile escalate).follow states).1
    let left := ((routeAndComplete router request forceProfile escalate).follow states).2
    (invocations history).length ≤ bound ∧ RemoteLast history ∧
      (6 * bound < states.length → ∃ result, left = .done result) ∧
      ∀ answer, left = .done (.ok answer) → Justified router request history answer := by
  have hstart : Within router ([] : RoutingHistory R) :=
    (under_start remoteEscalation).within (by omega) (by omega)
  obtain ⟨hwithin, hleft⟩ :=
    (along_routeAndComplete router request forceProfile escalate).follow hstart states
  rw [List.nil_append] at hwithin hleft
  refine ⟨hwithin.invoked, hwithin.remoteLast, ?_, ?_⟩
  · intro hlong
    rcases Coro.follow_ends (routeAndComplete router request forceProfile escalate) states with
      hdone | hlength
    · exact hdone
    · have hshort := hwithin.length
      unfold invocationBound at hshort
      omega
  · intro answer hanswer
    rw [hanswer] at hleft
    exact hleft answer rfl

end Rounds

/-! ### A reused answer -/

/-- A router with one local profile. -/
def RouterSettings.sample : RouterSettings where
  registry :=
    { profiles := Dict.ofList [("general_reasoning", ⟨"ollama", "gemma4:12b", true⟩)]
      providers := ["ollama"]
      openaiModel := "" }
  maxSchemaRepairAttempts := 1
  maxProviderEscalations := 1
  hasRepo := true
  validates _ := true

/-- A request of an analyst. -/
def RoutingRequest.sample : RoutingRequest ℕ where
  requestId := 1
  idempotencyKey := "k"
  role := "sequence_analyst"
  modelProfile := "general_reasoning"
  contextPayload := Dict.empty

/-- Nothing is recorded, and the provider's answers fail the schema. -/
def beforeSample : RouterState ℕ := ⟨Dict.empty, ⟨.structuredOutputFailure, false⟩⟩

/-- The call is recorded. -/
def startedSample : RouterState ℕ :=
  { beforeSample with modelCalls := beforeSample.modelCalls.insert 1 ⟨"k", .inProgress, none⟩ }

/-- The call as it is routed. -/
def callSample : RoutingM ℕ (ModelResult ℕ) := routeAndComplete .sample .sample none false

/-- Another call with the same request has run since, and its provider has answered. -/
def completedSample : RouterState ℕ :=
  (callSample.exec { startedSample with outside := ⟨.output "ok", false⟩ }).1

/-- The round of a call that has repaired its answer some times. -/
def Round.sample (repairAttempts : ℕ) : Round := ⟨"general_reasoning", 0, repairAttempts, none⟩

private theorem callSample_eq :
    callSample = completeWithRetries .sample .sample (Round.sample 0) := rfl

private theorem follow_first :
    callSample.follow [beforeSample, beforeSample, beforeSample, startedSample] =
      ([((Round.sample 0, .select), beforeSample), ((Round.sample 0, .select), beforeSample),
        ((Round.sample 0, .insert), beforeSample),
        ((Round.sample 0, .completeStructured), startedSample)],
        completeWithRetries .sample .sample (Round.sample 1)) := by
  rw [callSample_eq, completeWithRetries]
  rfl

private theorem completedSample_eq :
    completedSample =
      ⟨Dict.empty.set 1 ⟨"k", .completed, some "ok"⟩, ⟨.output "ok", false⟩⟩ := by
  unfold completedSample
  rw [callSample_eq, completeWithRetries]
  rfl

private theorem follow_second :
    (completeWithRetries .sample .sample (Round.sample 1)).follow [completedSample] =
      ([((Round.sample 1, .select), completedSample)], .done (.ok ⟨1, "ok"⟩)) := by
  rw [completedSample_eq, completeWithRetries]
  rfl

/-- A call whose only invocation has failed returns what another call with its request has
completed. -/
theorem not_lastInvocationSucceeds :
    ∃ history, callSample.follow [beforeSample, beforeSample, beforeSample, startedSample,
        completedSample] = (history, .done (.ok ⟨1, "ok"⟩)) ∧
      (invocations history).map Prod.snd = [.structuredOutputFailure] := by
  have hfollow := Coro.follow_append callSample
    [beforeSample, beforeSample, beforeSample, startedSample] [completedSample]
  rw [follow_first, follow_second] at hfollow
  exact ⟨_, hfollow, rfl⟩

end Joker.Cognition.Routing
