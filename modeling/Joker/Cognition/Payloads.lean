import Joker.Cognition.ModelRequests

/-!
# Payloads and questions

Library `Cognition`. The entries of a request's payload, one lookup lemma for each caller, and
what follows from them: two invocations of one agent on one context send one payload exactly
when their arguments agree, where an absent projection stands for the context's own.
-/

namespace Joker.Cognition

open Joker.Base

/-! ### Payload entries -/

/-- An update with distinct keys takes precedence, key by key. -/
theorem get?_updatePayload {extra : Members} (hn : (extra.map Prod.fst).Nodup)
    (payload : Dict String Json) (k : String) :
    (updatePayload payload extra).get? k = (extra.get? k).or (payload.get? k) := by
  induction extra generalizing payload with
  | nil => rfl
  | cons entry rest ih =>
    rcases entry with ⟨key, value⟩
    simp only [List.map_cons, List.nodup_cons] at hn
    change (updatePayload (payload.set key value) rest).get? k = _
    rw [ih hn.2, Dict.get?_set, Members.get?_cons]
    by_cases hk : k = key
    · subst hk
      have hnone : Members.get? rest k = none := by
        apply List.lookup_eq_none_iff.mpr
        intro e he
        have hne : k ≠ e.1 := fun h ↦ hn.1 (List.mem_map.mpr ⟨e, he, h.symm⟩)
        simpa using hne
      rw [hnone, if_pos rfl, if_pos rfl]
      rfl
    · rw [if_neg hk, if_neg (Ne.symm hk)]

/-- A payload looks up the fields of its package. -/
theorem get?_toPayload (context : ContextPackage) (k : String) :
    context.toPayload.get? k = context.fields.get? k := by
  have hn : (context.fields.map Prod.fst).Nodup := by
    simp [ContextPackage.fields]
  change (updatePayload Dict.empty context.fields).get? k = _
  rw [get?_updatePayload hn, Dict.get?_empty, Option.or_none]

/-- The time of assembly is in one field. -/
theorem get?_fields_assembledAt (context : ContextPackage) (assembledAt : String) {k : String}
    (hk : k ≠ "assembled_at") :
    ({ context with assembledAt := assembledAt } : ContextPackage).fields.get? k =
      context.fields.get? k := by
  simp only [ContextPackage.fields, Members.get?_cons, if_neg hk]

namespace Invocation

private theorem nodup_extraPayload (invocation : Invocation) :
    (invocation.extraPayload.map Prod.fst).Nodup := by
  cases invocation with
  | orderManager _ orderProjection =>
    cases orderProjection <;> simp [extraPayload, optionalEntry]
  | positionThesis _ _ _ positionProjection priorVersion _ =>
    cases positionProjection <;> cases priorVersion <;> simp [extraPayload, optionalEntry]
  | positionDecision _ positionProjection _ =>
    cases positionProjection <;> simp [extraPayload, optionalEntry]
  | _ => simp [extraPayload]

/-- An entry of a request's payload: the caller's, else the context's. -/
theorem get?_request (invocation : Invocation) (context : ContextPackage) (k : String) :
    (invocation.request context).contextPayload.get? k =
      (invocation.extraPayload.get? k).or ((invocation.passedContext context).fields.get? k) := by
  change (updatePayload _ _).get? k = _
  rw [get?_updatePayload invocation.nodup_extraPayload, get?_toPayload]

/-! ### Questions -/

/-- What an invocation asks on a context: its arguments, where an absent projection stands for the
context's own. -/
def question (context : ContextPackage) : Invocation → Invocation
  | orderManager clientOrderId orderProjection =>
    orderManager clientOrderId (orderProjection.or context.orderProjection)
  | positionThesis positionId contractId originalStrategyId positionProjection priorVersion
      evidenceIds =>
    positionThesis positionId contractId originalStrategyId
      (positionProjection.or context.positionProjection) priorVersion evidenceIds
  | positionDecision latestThesis positionProjection evidenceIds =>
    positionDecision latestThesis (positionProjection.or context.positionProjection) evidenceIds
  | invocation => invocation

/-- The projection a caller passes, else the context's. -/
theorem optionalEntry_or {key k : String} {projection own : Option Members} {rest : Option Json}
    (h : k = key → rest = some (dumpProjection own)) :
    ((optionalEntry key (projection.map .obj)).get? k).or rest =
      if k = key then some (dumpProjection (projection.or own)) else rest := by
  cases projection with
  | none =>
    change (none : Option Json).or rest = _
    rw [Option.none_or, Option.none_or]
    split
    · next hk => exact h hk
    · rfl
  | some projection =>
    change (Members.get? [(key, .obj projection)] k).or rest = _
    rw [Members.get?_cons, Members.get?_nil]
    split <;> rfl

private theorem get?_request_orderManager (context : ContextPackage) (clientOrderId : String)
    (projection : Option Members) (k : String) :
    ((orderManager clientOrderId projection).request context).contextPayload.get? k =
      if k = "client_order_id" then some (.str clientOrderId)
      else if k = "order_projection" then
        some (dumpProjection (projection.or context.orderProjection))
      else context.fields.get? k := by
  rw [get?_request]
  change (Members.get? (("client_order_id", .str clientOrderId) ::
    optionalEntry "order_projection" (projection.map .obj)) k).or (context.fields.get? k) = _
  rw [Members.get?_cons]
  split
  · rfl
  · apply optionalEntry_or
    rintro rfl
    simp [ContextPackage.fields, Members.get?_cons]

/-- An entry without a field of that name. -/
theorem optionalEntry_or_of_absent {key k : String} {value rest : Option Json}
    (h : k = key → rest = none) :
    ((optionalEntry key value).get? k).or rest = if k = key then value else rest := by
  cases value with
  | none =>
    change (none : Option Json).or rest = _
    rw [Option.none_or]
    split
    · next hk => exact h hk
    · rfl
  | some value =>
    change (Members.get? [(key, value)] k).or rest = _
    rw [Members.get?_cons, Members.get?_nil]
    split <;> rfl

private theorem Members.get?_append (a b : Members) (k : String) :
    Members.get? (a ++ b) k = (Members.get? a k).or (Members.get? b k) := by
  unfold Members.get?
  exact List.lookup_append

private theorem get?_request_positionThesis (context : ContextPackage)
    (positionId contractId originalStrategyId : String) (projection : Option Members)
    (priorVersion : Option PositionThesisVersion) (evidenceIds : List String) (k : String) :
    ((positionThesis positionId contractId originalStrategyId projection priorVersion
      evidenceIds).request context).contextPayload.get? k =
      if k = "position_id" then some (.str positionId)
      else if k = "contract_id" then some (.str contractId)
      else if k = "original_strategy_id" then some (.str originalStrategyId)
      else if k = "evidence_ids" then some (.texts evidenceIds)
      else if k = "position_projection" then
        some (dumpProjection (projection.or context.positionProjection))
      else if k = "prior_thesis_version" then priorVersion.map (·.modelDump)
      else context.fields.get? k := by
  rw [get?_request]
  change (Members.get? ([("position_id", .str positionId), ("contract_id", .str contractId),
      ("original_strategy_id", .str originalStrategyId), ("evidence_ids", .texts evidenceIds)] ++
      optionalEntry "position_projection" (projection.map .obj) ++
      optionalEntry "prior_thesis_version" (priorVersion.map (·.modelDump))) k).or
        (context.fields.get? k) = _
  rw [Members.get?_append, Members.get?_append, Option.or_assoc, Option.or_assoc,
    optionalEntry_or, optionalEntry_or_of_absent]
  · simp only [Members.get?_cons, Members.get?_nil]
    repeat (split; · rfl)
    rfl
  · rintro rfl
    simp [ContextPackage.fields, Members.get?_cons, Members.get?_nil]
  · rintro rfl
    rw [optionalEntry_or_of_absent (fun h ↦ absurd h (by decide)), if_neg (by decide)]
    simp [ContextPackage.fields, Members.get?_cons]

private theorem get?_request_positionDecision (context : ContextPackage)
    (latestThesis : PositionThesisVersion) (projection : Option Members)
    (evidenceIds : List String) (k : String) :
    ((positionDecision latestThesis projection evidenceIds).request context).contextPayload.get? k =
      if k = "latest_thesis_version" then some latestThesis.modelDump
      else if k = "evidence_ids" then some (.texts evidenceIds)
      else if k = "position_projection" then
        some (dumpProjection (projection.or context.positionProjection))
      else context.fields.get? k := by
  rw [get?_request]
  change (Members.get? ([("latest_thesis_version", latestThesis.modelDump),
      ("evidence_ids", .texts evidenceIds)] ++
      optionalEntry "position_projection" (projection.map .obj)) k).or (context.fields.get? k) = _
  rw [Members.get?_append, Option.or_assoc, optionalEntry_or]
  · simp only [Members.get?_cons, Members.get?_nil]
    repeat (split; · rfl)
    rfl
  · rintro rfl
    simp [ContextPackage.fields, Members.get?_cons]

/-- The fields of a debate context: one more summary. -/
theorem get?_request_debate (context : ContextPackage) (role : DebateRole)
    (strategy : StrategyHypothesis) (k : String) :
    ((debate role strategy).request context).contextPayload.get? k =
      if k = "strategy_id" then some (.str strategy.strategyId)
      else if k = "strategy_name" then some (.str strategy.name)
      else if k = "session_artifact_summaries" then
        some (.arr (context.sessionArtifactSummaries.map .obj ++
          [.obj [("artifact_id", .str strategy.strategyId),
            ("artifact_type", .str "strategy_hypothesis"), ("strategy", strategy.modelDump)]]))
      else context.fields.get? k := by
  rw [get?_request]
  change (Members.get? [("strategy_id", .str strategy.strategyId),
    ("strategy_name", .str strategy.name)] k).or
      ((debateContextForStrategy context strategy).fields.get? k) = _
  simp only [Members.get?_cons, Members.get?_nil]
  split
  · rfl
  · split
    · rfl
    · rw [Option.none_or]
      split
      · next hk =>
        subst hk
        simp [ContextPackage.fields, Members.get?_cons, debateContextForStrategy]
      · next hk =>
        simp only [ContextPackage.fields, Members.get?_cons, debateContextForStrategy, if_neg hk]

private theorem get?_request_metaDecision (context : ContextPackage)
    (strategies : List StrategyHypothesis)
    (reviews : List Json) (evidenceIds : List String) (k : String) :
    ((metaDecision strategies reviews evidenceIds).request context).contextPayload.get? k =
      if k = "candidate_strategies" then some (.arr (strategies.map (·.modelDump)))
      else if k = "debate_reviews" then some (.arr reviews)
      else if k = "evidence_ids" then some (.texts evidenceIds)
      else context.fields.get? k := by
  rw [get?_request]
  change (Members.get? [("candidate_strategies", .arr (strategies.map (·.modelDump))),
    ("debate_reviews", .arr reviews), ("evidence_ids", .texts evidenceIds)] k).or
      (context.fields.get? k) = _
  simp only [Members.get?_cons, Members.get?_nil]
  repeat (split; · rfl)
  rfl

private theorem get?_request_positionCritic (context : ContextPackage)
    (thesis : PositionThesisVersion)
    (k : String) :
    ((positionCritic thesis).request context).contextPayload.get? k =
      if k = "strategy_id" then some (.str thesis.originalStrategyId)
      else if k = "position_thesis" then some thesis.modelDump
      else if k = "review_focus" then
        some (.texts ["liquidity", "spread", "quote_age", "fill_feasibility",
          "opportunity_decay"])
      else context.fields.get? k := by
  rw [get?_request]
  change (Members.get? [("strategy_id", .str thesis.originalStrategyId),
    ("position_thesis", thesis.modelDump), ("review_focus", .texts ["liquidity", "spread",
      "quote_age", "fill_feasibility", "opportunity_decay"])] k).or (context.fields.get? k) = _
  simp only [Members.get?_cons, Members.get?_nil]
  repeat (split; · rfl)
  rfl

/-! ### Payloads and questions -/

section Payloads

variable {context : ContextPackage}

private theorem DebateRole.role_inj {r r' : DebateRole} : r.role = r'.role ↔ r = r' := by
  constructor
  · cases r <;> cases r' <;> decide
  · rintro rfl
    rfl

private theorem dumpProjection_inj {p q : Option Members} :
    dumpProjection p = dumpProjection q ↔ p = q := by
  cases p <;> cases q <;> simp [dumpProjection, Json.ofOption]

private theorem modelDumps_inj {xs ys : List StrategyHypothesis} :
    xs.map (·.modelDump) = ys.map (·.modelDump) ↔ xs = ys :=
  List.map_inj_right (fun _ _ h ↦ StrategyHypothesis.modelDump_inj.mp h)

/-- Two critics ask for one review exactly when they review one strategy. -/
theorem samePayload_debate_iff {r r' : DebateRole} {s s' : StrategyHypothesis} :
    SamePayload ((debate r s).request context) ((debate r' s').request context) ↔ s = s' := by
  constructor
  · intro h
    have hs := h "session_artifact_summaries" (by decide)
    rw [get?_request_debate, get?_request_debate] at hs
    simp only [String.reduceEq, if_false, if_true, Option.some.injEq, Json.arr.injEq,
      List.append_cancel_left_eq, List.cons.injEq, Json.obj.injEq, Prod.mk.injEq, true_and,
      and_true] at hs
    exact StrategyHypothesis.modelDump_inj.mp hs.2
  · rintro rfl k -
    rw [get?_request_debate, get?_request_debate]

/-- Two meta-decisions agree exactly when strategies, reviews and evidence do. -/
theorem samePayload_metaDecision_iff {s s' : List StrategyHypothesis} {r r' : List Json}
    {e e' : List String} :
    SamePayload ((metaDecision s r e).request context) ((metaDecision s' r' e').request context) ↔
      s = s' ∧ r = r' ∧ e = e' := by
  constructor
  · intro h
    have hs := h "candidate_strategies" (by decide)
    have hr := h "debate_reviews" (by decide)
    have he := h "evidence_ids" (by decide)
    rw [get?_request_metaDecision, get?_request_metaDecision] at hs hr he
    simp only [String.reduceEq, if_false, if_true, Option.some.injEq, Json.arr.injEq] at hs hr he
    exact ⟨modelDumps_inj.mp hs, hr, Json.texts_inj.mp he⟩
  · rintro ⟨rfl, rfl, rfl⟩ k -
    rfl

/-- Two order-manager calls agree exactly when order and effective projection do. -/
theorem samePayload_orderManager_iff {c c' : String} {p p' : Option Members} :
    SamePayload ((orderManager c p).request context) ((orderManager c' p').request context) ↔
      c = c' ∧ p.or context.orderProjection = p'.or context.orderProjection := by
  constructor
  · intro h
    have hc := h "client_order_id" (by decide)
    have hp := h "order_projection" (by decide)
    rw [get?_request_orderManager, get?_request_orderManager] at hc hp
    simp only [String.reduceEq, if_false, if_true, Option.some.injEq, Json.str.injEq] at hc hp
    exact ⟨hc, dumpProjection_inj.mp hp⟩
  · rintro ⟨rfl, hp⟩ k -
    rw [get?_request_orderManager, get?_request_orderManager, hp]

/-- Two thesis calls agree exactly when their arguments do, up to the effective projection. -/
theorem samePayload_positionThesis_iff {i i' c c' s s' : String} {p p' : Option Members}
    {v v' : Option PositionThesisVersion} {e e' : List String} :
    SamePayload ((positionThesis i c s p v e).request context)
        ((positionThesis i' c' s' p' v' e').request context) ↔
      i = i' ∧ c = c' ∧ s = s' ∧
        p.or context.positionProjection = p'.or context.positionProjection ∧ v = v' ∧ e = e' := by
  constructor
  · intro h
    have hi := h "position_id" (by decide)
    have hc := h "contract_id" (by decide)
    have hs := h "original_strategy_id" (by decide)
    have he := h "evidence_ids" (by decide)
    have hp := h "position_projection" (by decide)
    have hv := h "prior_thesis_version" (by decide)
    rw [get?_request_positionThesis, get?_request_positionThesis] at hi hc hs he hp hv
    simp only [String.reduceEq, if_false, if_true, Option.some.injEq, Json.str.injEq]
      at hi hc hs he hp hv
    exact ⟨hi, hc, hs, dumpProjection_inj.mp hp,
      Option.map_injective (fun _ _ h ↦ PositionThesisVersion.modelDump_inj.mp h) hv,
      Json.texts_inj.mp he⟩
  · rintro ⟨rfl, rfl, rfl, hp, rfl, rfl⟩ k -
    rw [get?_request_positionThesis, get?_request_positionThesis, hp]

/-- Two critics of the position graph agree exactly when they review one thesis. -/
theorem samePayload_positionCritic_iff {t t' : PositionThesisVersion} :
    SamePayload ((positionCritic t).request context) ((positionCritic t').request context) ↔
      t = t' := by
  constructor
  · intro h
    have ht := h "position_thesis" (by decide)
    rw [get?_request_positionCritic, get?_request_positionCritic] at ht
    simp only [String.reduceEq, if_false, if_true, Option.some.injEq] at ht
    exact PositionThesisVersion.modelDump_inj.mp ht
  · rintro rfl k -
    rfl

/-- Two position decisions agree exactly when their arguments do, up to the effective
projection. -/
theorem samePayload_positionDecision_iff {t t' : PositionThesisVersion} {p p' : Option Members}
    {e e' : List String} :
    SamePayload ((positionDecision t p e).request context)
        ((positionDecision t' p' e').request context) ↔
      t = t' ∧ p.or context.positionProjection = p'.or context.positionProjection ∧ e = e' := by
  constructor
  · intro h
    have ht := h "latest_thesis_version" (by decide)
    have he := h "evidence_ids" (by decide)
    have hp := h "position_projection" (by decide)
    rw [get?_request_positionDecision, get?_request_positionDecision] at ht he hp
    simp only [String.reduceEq, if_false, if_true, Option.some.injEq] at ht he hp
    exact ⟨PositionThesisVersion.modelDump_inj.mp ht, dumpProjection_inj.mp hp,
      Json.texts_inj.mp he⟩
  · rintro ⟨rfl, hp, rfl⟩ k -
    rw [get?_request_positionDecision, get?_request_positionDecision, hp]

/-- A debate critic and the critic of the position graph never send one payload. -/
theorem not_samePayload_debate_positionCritic {r : DebateRole} {s : StrategyHypothesis}
    {t : PositionThesisVersion} :
    ¬ SamePayload ((debate r s).request context) ((positionCritic t).request context) := by
  intro h
  have hn := h "strategy_name" (by decide)
  rw [get?_request_debate, get?_request_positionCritic] at hn
  simp [ContextPackage.fields, Members.get?_cons, Members.get?_nil] at hn

/-- Two invocations of one agent on one context send one payload exactly when they ask one
question. -/
theorem samePayload_iff_question {a b : Invocation} (hrole : a.role = b.role) :
    SamePayload (a.request context) (b.request context) ↔
      a.question context = b.question context := by
  cases a with
  | debate r s =>
    cases b with
    | debate r' s' =>
      obtain rfl := DebateRole.role_inj.mp hrole
      rw [samePayload_debate_iff]
      simp [question]
    | positionCritic t =>
      exact iff_of_false not_samePayload_debate_positionCritic (by simp [question])
    | _ => cases r <;> cases hrole
  | positionCritic t =>
    cases b with
    | debate r' s' =>
      apply iff_of_false _ (by simp [question])
      exact fun h ↦ not_samePayload_debate_positionCritic (fun k hk ↦ (h k hk).symm)
    | positionCritic t' =>
      rw [samePayload_positionCritic_iff]
      simp [question]
    | _ => cases hrole
  | metaDecision s r e =>
    cases b with
    | metaDecision s' r' e' =>
      rw [samePayload_metaDecision_iff]
      simp [question]
    | debate r' s' => cases r' <;> cases hrole
    | _ => cases hrole
  | orderManager c p =>
    cases b with
    | orderManager c' p' =>
      rw [samePayload_orderManager_iff]
      simp [question]
    | debate r' s' => cases r' <;> cases hrole
    | _ => cases hrole
  | positionThesis i c s p v e =>
    cases b with
    | positionThesis i' c' s' p' v' e' =>
      rw [samePayload_positionThesis_iff]
      simp [question]
    | debate r' s' => cases r' <;> cases hrole
    | _ => cases hrole
  | positionDecision t p e =>
    cases b with
    | positionDecision t' p' e' =>
      rw [samePayload_positionDecision_iff]
      simp [question]
    | debate r' s' => cases r' <;> cases hrole
    | _ => cases hrole

/-- The time of assembly changes no other entry of a request. -/
theorem samePayload_assembledAt (invocation : Invocation) (assembledAt : String) :
    SamePayload (invocation.request { context with assembledAt := assembledAt })
      (invocation.request context) := by
  intro k hk
  rw [get?_request, get?_request]
  congr 1
  cases invocation with
  | debate role strategy =>
    exact get?_fields_assembledAt (debateContextForStrategy context strategy) assembledAt hk
  | _ => exact get?_fields_assembledAt context assembledAt hk

end Payloads

end Invocation

end Joker.Cognition
