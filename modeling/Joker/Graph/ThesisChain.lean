import Mathlib.Data.List.Pairwise
import Joker.Graph.PositionGraph

/-!
# Chain of thesis versions

Library `Graph`. `load_prior_thesis` takes the last of the versions that the store lists, and the
store lists the newest first. From the second cycle of a position on, the thesis therefore names
the position's first version, and the versions form one chain exactly when the position had at
most one cycle.
-/

namespace Joker.Graph

open Joker.Base Joker.Persistence CognitiveArtifactStore TypedArtifactRepository

variable {P : Type}

/-! ### Runs -/

/-- What writes to the table of artefacts: a cycle of the position graph, or another part of the
session. -/
inductive ArtifactStep (P : Type) where
  | positionCycle (cycle : PositionCycle)
  | artefact (record : CognitiveArtifactRecord P)

/-- The ids a step appends. -/
def ArtifactStep.ids : ArtifactStep P → List String
  | .positionCycle cycle =>
    [cycle.thesisAnswer.thesisVersionId, cycle.decisionAnswer.thesisVersionId]
  | .artefact record => [record.artifactId]

/-- The times at which a step appends versions. -/
def ArtifactStep.times : ArtifactStep P → List ℤ
  | .positionCycle cycle => [cycle.thesisAt, cycle.decisionAt]
  | .artefact _ => []

/-- A cycle on a position. -/
def ArtifactStep.isCycleOn (positionId : String) : ArtifactStep P → Bool
  | .positionCycle cycle => decide (cycle.positionId = positionId)
  | .artefact _ => false

/-- A cycle is on its own position. -/
@[simp] theorem ArtifactStep.isCycleOn_self (cycle : PositionCycle) :
    ArtifactStep.isCycleOn (P := P) cycle.positionId (.positionCycle cycle) = true :=
  decide_eq_true rfl

/-- Steps that append: ids are new, the versions' times increase, and the other parts of the
session write other types. -/
structure Appending (steps : List (ArtifactStep P)) : Prop where
  distinct : (steps.flatMap ArtifactStep.ids).Nodup
  increasing : (steps.flatMap ArtifactStep.times).Pairwise (· < ·)
  foreign : ∀ record, .artefact record ∈ steps → record.artifactType ≠ .positionThesisVersion

/-- A run of a session's steps on a new table. -/
structure ThesisRun (P : Type) where
  steps : List (ArtifactStep P)
  appending : Appending steps

private theorem Appending.of_append {pre post : List (ArtifactStep P)}
    (h : Appending (pre ++ post)) :
    Appending pre where
  distinct := by
    have hall := h.distinct
    rw [List.flatMap_append] at hall
    exact hall.of_append_left
  increasing := by
    have hall := h.increasing
    rw [List.flatMap_append] at hall
    exact (List.pairwise_append.mp hall).1
  foreign := fun record hrecord ↦ h.foreign record (List.mem_append_left _ hrecord)

/-- Steps append up to every one of them. -/
theorem Appending.upTo {pre post : List (ArtifactStep P)} {step : ArtifactStep P}
    (h : Appending (pre ++ step :: post)) : Appending (pre ++ [step]) := by
  rw [List.append_cons] at h
  exact h.of_append

section Steps

variable [DecidableEq P] (repo : PositionThesisRepository P) (sessionId : String)

/-- One step at the table. -/
def ArtifactStep.run (store : CognitiveArtifactStore P) :
    ArtifactStep P → Except ArtifactError (CognitiveArtifactStore P)
  | .positionCycle cycle => do
    let (_, _, store) ← positionVersions repo sessionId cycle store
    pure store
  | .artefact record => store.appendArtifact record

/-- The table after steps from a new one. -/
def runSteps (steps : List (ArtifactStep P)) :
    Except ArtifactError (CognitiveArtifactStore P) :=
  steps.foldlM (ArtifactStep.run repo sessionId) empty

private theorem runSteps_snoc (steps : List (ArtifactStep P)) (step : ArtifactStep P) :
    runSteps repo sessionId (steps ++ [step]) =
      runSteps repo sessionId steps >>= fun store ↦ step.run repo sessionId store := by
  unfold runSteps
  rw [List.foldlM_append]
  congr
  funext store
  exact bind_pure _

/-- The versions of a position in the order of their appends. -/
def versionsOf (store : CognitiveArtifactStore P) (positionId : String) :
    List PositionThesisVersion :=
  (repo.history store sessionId).filter (fun version ↦ version.positionId = positionId)

/-! ### One step -/

/-- What the table holds after steps. -/
structure Recorded (steps : List (ArtifactStep P)) (store : CognitiveArtifactStore P) : Prop where
  ids : store.rows.map (·.artifactId) = steps.flatMap ArtifactStep.ids
  times : (store.rows.filter (belongs sessionId (some repo.artifactType))).map (·.createdAt) =
    steps.flatMap ArtifactStep.times
  readable : repo.Readable store sessionId

variable {repo sessionId}

omit [DecidableEq P] in
/-- The first version of a position is taken for its last. -/
theorem Recorded.loadPriorThesis_eq {steps : List (ArtifactStep P)}
    {store : CognitiveArtifactStore P} (h : Recorded repo sessionId steps store)
    (hsteps : Appending steps) {positionId : String} (hnamed : positionId ≠ "") :
    loadPriorThesis repo sessionId positionId store =
      .ok (versionsOf repo sessionId store positionId).head? := by
  have hincreasing : (store.rows.filter (belongs sessionId (some repo.artifactType))).Pairwise
      (·.createdAt < ·.createdAt) := by
    have hall := hsteps.increasing
    rw [← h.times] at hall
    exact List.pairwise_map.mp hall
  unfold loadPriorThesis
  rw [if_neg hnamed, repo.listBySession_eq h.readable hincreasing]
  change Except.ok _ = _
  rw [List.filter_reverse, List.getLast?_reverse]
  rfl

variable (repo sessionId) in
/-- The thesis of a cycle on a table: its prior is the first version of the position. -/
def thesisOf (store : CognitiveArtifactStore P) (cycle : PositionCycle) : PositionThesisVersion :=
  PositionThesisAgent.reassess sessionId cycle.snapshotId cycle.positionId cycle.contractId
    cycle.originalStrategyId (versionsOf repo sessionId store cycle.positionId).head?
    cycle.thesisAnswer

variable (repo sessionId) in
/-- The decision of a cycle on a table. -/
def decisionOf (store : CognitiveArtifactStore P) (cycle : PositionCycle) :
    PositionThesisVersion :=
  PositionDecisionAgent.decide sessionId cycle.snapshotId (thesisOf repo sessionId store cycle)
    cycle.decisionAnswer

private theorem not_mem_of_nodup_pair {ids : List String} {a b : String}
    (h : (ids ++ [a, b]).Nodup) : a ∉ ids ∧ b ∉ ids ++ [a] := by
  grind

omit [DecidableEq P] in
/-- An appended version is the last row, and the last row of its session and type. -/
theorem appended_version {store store' : CognitiveArtifactStore P}
    {version : PositionThesisVersion} {createdAt : ℤ}
    (hrows : store'.rows = store.rows ++ [repo.recordFromPayload version createdAt])
    (sessionId : String) (hsession : version.sessionId = sessionId) :
    store'.rows.map (·.artifactId) =
        store.rows.map (·.artifactId) ++ [version.thesisVersionId] ∧
      (store'.rows.filter (belongs sessionId (some repo.artifactType))).map (·.createdAt) =
        (store.rows.filter (belongs sessionId (some repo.artifactType))).map (·.createdAt) ++
          [createdAt] := by
  have hid : repo.extractId version = version.thesisVersionId := by rw [repo.ofId]
  have hown : repo.sessionIdOf version = sessionId := by rw [repo.ofSession, hsession]
  rw [hrows]
  constructor
  · simp [recordFromPayload, hid]
  · simp [recordFromPayload, belongs, hown]

/-- A cycle appends its thesis and its decision. -/
theorem Recorded.positionCycle {steps : List (ArtifactStep P)}
    {store : CognitiveArtifactStore P} {cycle : PositionCycle}
    (h : Recorded repo sessionId steps store)
    (hsteps : Appending (steps ++ [.positionCycle cycle])) :
    ∃ store', positionVersions repo sessionId cycle store =
        .ok (thesisOf repo sessionId store cycle, decisionOf repo sessionId store cycle, store') ∧
      Recorded repo sessionId (steps ++ [.positionCycle cycle]) store' ∧
      repo.history store' sessionId = repo.history store sessionId ++
        [thesisOf repo sessionId store cycle, decisionOf repo sessionId store cycle] := by
  have hprior := h.loadPriorThesis_eq hsteps.of_append cycle.hydrated.2
  have hdistinct := hsteps.distinct
  rw [List.flatMap_append, ← h.ids] at hdistinct
  obtain ⟨hfirst, hsecond⟩ := not_mem_of_nodup_pair (a := cycle.thesisAnswer.thesisVersionId)
    (b := cycle.decisionAnswer.thesisVersionId) (by simpa [ArtifactStep.ids] using hdistinct)
  have hthesis : repo.extractId (thesisOf repo sessionId store cycle) =
      cycle.thesisAnswer.thesisVersionId := by rw [repo.ofId]; rfl
  have hdecision : repo.extractId (decisionOf repo sessionId store cycle) =
      cycle.decisionAnswer.thesisVersionId := by rw [repo.ofId]; rfl
  obtain ⟨store₁, happend₁, hrows₁⟩ := repo.append_of_new cycle.thesisAt (hthesis ▸ hfirst)
  obtain ⟨hids₁, htimes₁⟩ := appended_version hrows₁ sessionId rfl
  have hdecisionNew : repo.extractId (decisionOf repo sessionId store cycle) ∉
      store₁.rows.map (·.artifactId) := by
    rw [hdecision, hids₁]
    exact hsecond
  obtain ⟨store₂, happend₂, hrows₂⟩ := repo.append_of_new cycle.decisionAt hdecisionNew
  obtain ⟨hids₂, htimes₂⟩ := appended_version hrows₂ sessionId rfl
  have hown : ∀ version : PositionThesisVersion, version.sessionId = sessionId →
      repo.sessionIdOf version = sessionId := by
    intro version hversion
    rw [repo.ofSession, hversion]
  refine ⟨store₂, ?_, ⟨?_, ?_, ?_⟩, ?_⟩
  · unfold positionVersions
    rw [hprior]
    change (positionThesisAgent repo sessionId cycle _ store >>= _) = _
    have hthesisNode : positionThesisAgent repo sessionId cycle
        (versionsOf repo sessionId store cycle.positionId).head? store =
          .ok (thesisOf repo sessionId store cycle, store₁) := by
      unfold positionThesisAgent
      change (repo.append (thesisOf repo sessionId store cycle) cycle.thesisAt store >>= _) = _
      rw [happend₁]
      rfl
    have hdecisionNode : positionDecisionAgent repo sessionId cycle
        (thesisOf repo sessionId store cycle) store₁ =
          .ok (decisionOf repo sessionId store cycle, store₂) := by
      unfold positionDecisionAgent
      change (repo.append (decisionOf repo sessionId store cycle) cycle.decisionAt store₁ >>= _)
        = _
      rw [happend₂]
      rfl
    rw [hthesisNode]
    change (positionDecisionAgent repo sessionId cycle _ store₁ >>= _) = _
    rw [hdecisionNode]
    rfl
  · rw [hids₂, hids₁, h.ids, List.flatMap_append, List.append_assoc]
    rfl
  · rw [htimes₂, htimes₁, h.times, List.flatMap_append, List.append_assoc]
    rfl
  · exact repo.readable_appended hrows₂ (repo.readable_appended hrows₁ h.readable)
  · rw [repo.history_appended hrows₂ (hown _ rfl), repo.history_appended hrows₁ (hown _ rfl),
      List.append_assoc]
    rfl

/-- Another part of the session leaves the versions alone. -/
theorem Recorded.artefact {steps : List (ArtifactStep P)} {store : CognitiveArtifactStore P}
    {record : CognitiveArtifactRecord P} (h : Recorded repo sessionId steps store)
    (hsteps : Appending (steps ++ [.artefact record])) :
    ∃ store', store.appendArtifact record = .ok store' ∧
      Recorded repo sessionId (steps ++ [.artefact record]) store' ∧
      repo.history store' sessionId = repo.history store sessionId := by
  have hdistinct := hsteps.distinct
  rw [List.flatMap_append, ← h.ids] at hdistinct
  have hnew : record.artifactId ∉ store.rows.map (·.artifactId) := by
    intro hmem
    exact (List.nodup_append.mp hdistinct).2.2 _ hmem _ (List.mem_singleton_self _) rfl
  have hother : belongs sessionId (some repo.artifactType) record = false := by
    have htype := hsteps.foreign record (List.mem_append_right _ (List.mem_singleton_self _))
    simp [belongs, repo.ofType, htype]
  obtain ⟨hfound, happend⟩ := appendArtifact_of_new record hnew
  have hfilter : (store.insert record hfound).rows.filter
      (belongs sessionId (some repo.artifactType)) =
        store.rows.filter (belongs sessionId (some repo.artifactType)) := by
    simp [CognitiveArtifactStore.insert, hother]
  refine ⟨_, happend, ⟨?_, ?_, ?_⟩, ?_⟩
  · rw [List.flatMap_append, ← h.ids]
    exact List.map_append
  · rw [hfilter, h.times, List.flatMap_append]
    exact (List.append_nil _).symm
  · unfold Readable
    rw [hfilter]
    exact h.readable
  · unfold history
    rw [hfilter]

/-! ### Runs of steps -/

variable (repo sessionId) in
/-- Appending steps run, and the table holds what they append. -/
theorem recorded_runSteps {steps : List (ArtifactStep P)} (hsteps : Appending steps) :
    ∃ store, runSteps repo sessionId steps = .ok store ∧ Recorded repo sessionId steps store := by
  induction steps using List.reverseRecOn with
  | nil => exact ⟨empty, rfl, rfl, rfl, fun row hrow ↦ nomatch hrow⟩
  | append_singleton steps step ih =>
    obtain ⟨store, hrun, hrecorded⟩ := ih hsteps.of_append
    rw [runSteps_snoc, hrun]
    cases step with
    | positionCycle cycle =>
      obtain ⟨store', hversions, hrecorded', -⟩ := hrecorded.positionCycle hsteps
      refine ⟨store', ?_, hrecorded'⟩
      change (positionVersions repo sessionId cycle store >>= _) = _
      rw [hversions]
      rfl
    | artefact record =>
      obtain ⟨store', happend, hrecorded', -⟩ := hrecorded.artefact hsteps
      exact ⟨store', happend, hrecorded'⟩

/-- What a position's versions are after no cycle and after one. -/
def FirstVersions : ℕ → List PositionThesisVersion → Prop
  | 0, versions => versions = []
  | 1, versions => ∃ thesis decision, versions = [thesis, decision] ∧
      decision.priorVersionId = some thesis.thesisVersionId ∧
        thesis.thesisVersionId ≠ decision.thesisVersionId
  | _, _ => True

/-- Only the cycles of a position write versions of it. -/
theorem firstVersions_runSteps {steps : List (ArtifactStep P)} (hsteps : Appending steps)
    {store : CognitiveArtifactStore P} (hrun : runSteps repo sessionId steps = .ok store)
    (positionId : String) :
    FirstVersions (steps.countP (ArtifactStep.isCycleOn positionId))
      (versionsOf repo sessionId store positionId) := by
  induction steps using List.reverseRecOn generalizing store with
  | nil =>
    cases hrun
    rfl
  | append_singleton steps step ih =>
    obtain ⟨before, hbefore, hrecorded⟩ :=
      recorded_runSteps repo sessionId hsteps.of_append
    have hfirst := ih hsteps.of_append hbefore
    rw [runSteps_snoc, hbefore] at hrun
    rw [List.countP_append, List.countP_singleton]
    cases step with
    | artefact record =>
      obtain ⟨store', happend, -, hhistory⟩ := hrecorded.artefact hsteps
      have hstore : store' = store := Except.ok.inj (happend.symm.trans hrun)
      subst hstore
      unfold versionsOf at hfirst ⊢
      rw [hhistory]
      exact hfirst
    | positionCycle cycle =>
      obtain ⟨store', hversions, -, hhistory⟩ := hrecorded.positionCycle hsteps
      change (positionVersions repo sessionId cycle before >>= _) = _ at hrun
      rw [hversions] at hrun
      cases hrun
      have hids : cycle.thesisAnswer.thesisVersionId ≠ cycle.decisionAnswer.thesisVersionId := by
        have hdistinct := hsteps.distinct
        simp [ArtifactStep.ids] at hdistinct
        grind
      unfold versionsOf at hfirst ⊢
      rw [hhistory, List.filter_append]
      by_cases hposition : cycle.positionId = positionId
      · have hcycle : ArtifactStep.isCycleOn (P := P) positionId (.positionCycle cycle) = true :=
          decide_eq_true hposition
        rw [if_pos hcycle]
        match hcount : steps.countP (ArtifactStep.isCycleOn positionId) with
        | 0 =>
          rw [hcount] at hfirst
          rw [hfirst]
          refine ⟨thesisOf repo sessionId before cycle, decisionOf repo sessionId before cycle,
            ?_, rfl, hids⟩
          simp [thesisOf, decisionOf, PositionThesisAgent.reassess, PositionDecisionAgent.decide,
            hposition]
        | n + 1 => exact trivial
      · have hcycle : ¬ ArtifactStep.isCycleOn (P := P) positionId (.positionCycle cycle) = true :=
          fun h ↦ hposition (of_decide_eq_true h)
        rw [if_neg hcycle]
        have hothers : [thesisOf repo sessionId before cycle,
            decisionOf repo sessionId before cycle].filter
              (fun version ↦ version.positionId = positionId) = [] := by
          simp [thesisOf, decisionOf, PositionThesisAgent.reassess, PositionDecisionAgent.decide,
            hposition]
        rw [hothers, List.append_nil]
        exact hfirst

/-! ### The chain -/

/-- The versions met when `prior_version_id` is followed, at most so many. -/
def walkBack (versions : List PositionThesisVersion) : ℕ → Option String →
    List PositionThesisVersion
  | 0, _ => []
  | _ + 1, none => []
  | n + 1, some id =>
    match versions.find? (fun version ↦ version.thesisVersionId = id) with
    | some version => version :: walkBack versions n version.priorVersionId
    | none => []

variable (repo sessionId) in
/-- The versions of a position form one chain: the thesis of every cycle but the first names the
version appended last before it, and following `prior_version_id` from the newest version visits
all versions in reverse order. -/
def VersionsChained (steps : List (ArtifactStep P)) (positionId : String) : Prop :=
  (∀ pre cycle post, steps = pre ++ .positionCycle cycle :: post → cycle.positionId = positionId →
    ∃ store thesis decision store', runSteps repo sessionId pre = .ok store ∧
      positionVersions repo sessionId cycle store = .ok (thesis, decision, store') ∧
      ∀ last ∈ (versionsOf repo sessionId store positionId).getLast?,
        thesis.priorVersionId = some last.thesisVersionId) ∧
  ∃ store, runSteps repo sessionId steps = .ok store ∧
    walkBack (versionsOf repo sessionId store positionId)
        (versionsOf repo sessionId store positionId).length
        ((versionsOf repo sessionId store positionId).getLast?.map (·.thesisVersionId)) =
      (versionsOf repo sessionId store positionId).reverse

private theorem exists_second {α : Type} {p : α → Bool} {xs : List α} (h : 2 ≤ xs.countP p) :
    ∃ pre x post, xs = pre ++ x :: post ∧ p x = true ∧ pre.countP p = 1 := by
  induction xs using List.reverseRecOn with
  | nil => cases h
  | append_singleton xs x ih =>
    rw [List.countP_append, List.countP_singleton] at h
    by_cases hxs : 2 ≤ xs.countP p
    · obtain ⟨pre, y, post, rfl, hy, hpre⟩ := ih hxs
      exact ⟨pre, y, post ++ [x], by simp, hy, hpre⟩
    · refine ⟨xs, x, [], rfl, ?_, ?_⟩
      · by_contra hx
        rw [if_neg hx] at h
        omega
      · split at h <;> omega

/-- The thesis of a position's second cycle names the first version, not the last one. -/
theorem prior_ne_last (pre : List (ArtifactStep P)) {cycle : PositionCycle}
    (happending : Appending (pre ++ [.positionCycle cycle]))
    (hone : pre.countP (ArtifactStep.isCycleOn cycle.positionId) = 1)
    {store store' : CognitiveArtifactStore P} {thesis decision : PositionThesisVersion}
    (hrun : runSteps repo sessionId pre = .ok store)
    (hversions : positionVersions repo sessionId cycle store = .ok (thesis, decision, store')) :
    ∃ last, (versionsOf repo sessionId store cycle.positionId).getLast? = some last ∧
      thesis.priorVersionId ≠ some last.thesisVersionId := by
  obtain ⟨before, hbefore, hrecorded⟩ :=
    recorded_runSteps repo sessionId happending.of_append
  have hstore : before = store := Except.ok.inj (hbefore.symm.trans hrun)
  subst hstore
  obtain ⟨_, hexpected, -⟩ := hrecorded.positionCycle happending
  rw [hversions] at hexpected
  cases hexpected
  have hfirst := firstVersions_runSteps happending.of_append hrun cycle.positionId
  rw [hone] at hfirst
  obtain ⟨first, last, hpair, -, hne⟩ := hfirst
  refine ⟨last, by rw [hpair]; rfl, ?_⟩
  have hprior : (thesisOf repo sessionId before cycle).priorVersionId =
      some first.thesisVersionId := by
    unfold thesisOf
    rw [hpair]
    rfl
  rw [hprior]
  exact fun h ↦ hne (Option.some.inj h)

/-- The versions of a position with at most one cycle are walked back in full. -/
theorem walkBack_of_countP {steps : List (ArtifactStep P)} (hsteps : Appending steps)
    {positionId : String} (hcount : steps.countP (ArtifactStep.isCycleOn positionId) ≤ 1)
    {store : CognitiveArtifactStore P} (hrun : runSteps repo sessionId steps = .ok store) :
    walkBack (versionsOf repo sessionId store positionId)
        (versionsOf repo sessionId store positionId).length
        ((versionsOf repo sessionId store positionId).getLast?.map (·.thesisVersionId)) =
      (versionsOf repo sessionId store positionId).reverse := by
  have hfirst := firstVersions_runSteps hsteps hrun positionId
  match hcycles : steps.countP (ArtifactStep.isCycleOn positionId) with
  | 0 =>
    rw [hcycles] at hfirst
    rw [hfirst]
    rfl
  | 1 =>
    rw [hcycles] at hfirst
    obtain ⟨thesis, decision, hpair, hprior, hne⟩ := hfirst
    rw [hpair]
    simp [walkBack, hprior, hne]
  | n + 2 => omega

/-- The versions of a position form one chain exactly when it had at most one cycle. -/
theorem versionsChained_iff (repo : PositionThesisRepository P) (sessionId : String)
    (session : ThesisRun P) (positionId : String) :
    VersionsChained repo sessionId session.steps positionId ↔
      session.steps.countP (ArtifactStep.isCycleOn positionId) ≤ 1 := by
  constructor
  · rintro ⟨hprior, -⟩
    by_contra hmany
    obtain ⟨pre, step, post, hsplit, hcycle, hone⟩ := exists_second (Nat.lt_of_not_le hmany)
    cases step with
    | artefact record => cases hcycle
    | positionCycle cycle =>
      cases of_decide_eq_true hcycle
      obtain ⟨store, thesis, decision, store', hrun, hversions, hlast⟩ :=
        hprior pre cycle post hsplit rfl
      obtain ⟨last, hgetLast, hne⟩ :=
        prior_ne_last pre (hsplit ▸ session.appending).upTo hone hrun hversions
      exact hne (hlast last hgetLast)
  · intro hcount
    refine ⟨?_, ?_⟩
    · -- before its one cycle a position has no version
      rintro pre cycle post hsplit rfl
      have happending := (hsplit ▸ session.appending).upTo
      obtain ⟨store, hrun, hrecorded⟩ :=
        recorded_runSteps repo sessionId happending.of_append
      obtain ⟨store', hversions, -⟩ := hrecorded.positionCycle happending
      have hnone : pre.countP (ArtifactStep.isCycleOn cycle.positionId) = 0 := by
        rw [hsplit, List.countP_append,
          List.countP_cons_of_pos (ArtifactStep.isCycleOn_self cycle)] at hcount
        omega
      have hfirst := firstVersions_runSteps happending.of_append hrun cycle.positionId
      rw [hnone] at hfirst
      refine ⟨store, _, _, store', hrun, hversions, ?_⟩
      intro last hlast
      rw [hfirst] at hlast
      cases hlast
    · obtain ⟨store, hrun, -⟩ :=
        recorded_runSteps repo sessionId session.appending
      exact ⟨store, hrun, walkBack_of_countP session.appending hcount hrun⟩

end Steps

/-- A repository whose texts are the versions themselves. -/
def PositionThesisRepository.sample : PositionThesisRepository PositionThesisVersion where
  artifactType := .positionThesisVersion
  dump := id
  validate := some
  validate_dump := fun _ ↦ rfl
  extractId := PositionThesisVersion.thesisVersionId
  sessionIdOf := PositionThesisVersion.sessionId
  snapshotIdOf := PositionThesisVersion.snapshotId
  cycleIdOf := fun _ ↦ none
  ofType := rfl
  ofId := rfl
  ofSession := rfl
  ofSnapshot := rfl

/-- Two cycles on one position. -/
def heldTwice : ThesisRun PositionThesisVersion where
  steps := [.positionCycle (.sample "t1" "d1" .hold 0), .positionCycle (.sample "t2" "d2" .hold 2)]
  appending := by
    refine ⟨by decide, by decide, ?_⟩
    intro record hrecord
    simp at hrecord

/-- The second thesis names the first thesis and leaves the first decision out of the chain. -/
theorem not_versionsChained_heldTwice :
    ¬ VersionsChained .sample "s" heldTwice.steps "x" := by
  rintro ⟨hprior, -⟩
  obtain ⟨store, thesis, decision, store', hrun, hversions, hlast⟩ :=
    hprior [.positionCycle (.sample "t1" "d1" .hold 0)] (.sample "t2" "d2" .hold 2) [] rfl rfl
  obtain ⟨last, hgetLast, hne⟩ :=
    prior_ne_last [.positionCycle (.sample "t1" "d1" .hold 0)] heldTwice.appending (by decide)
      hrun hversions
  exact hne (hlast last hgetLast)

end Joker.Graph
