import Mathlib.Data.List.Sort
import Joker.Base.Checks

/-!
# Cognitive artefact store

Library `Persistence`. The append-only table of `joker/cognition/artifacts.py` and the typed
repositories over it of `joker/persistence/cognitive_repositories.py`. A row keeps a payload of
some type `P`, the JSON text of an artefact; times of creation are UTC instants, whose texts sort
as they do.
-/

namespace Joker.Persistence

open Joker.Base

/-- `CognitiveArtifactType`. -/
inductive CognitiveArtifactType where
  | agentEvidence
  | marketWorldModel
  | patternHypothesis
  | strategyHypothesis
  | debateReview
  | metaDecision
  | executionProposal
  | positionThesisVersion
  | orderManagementDecision
  deriving DecidableEq, Repr

/-- The exceptions of the store and the repositories. -/
inductive ArtifactError where
  | conflict (artifactId : String)
  | validation
  deriving DecidableEq, Repr

/-- `CognitiveArtifactRecord`, as far as it is read. Source `joker/cognition/artifacts.py:80–96`. -/
structure CognitiveArtifactRecord (P : Type) where
  artifactId : String
  artifactType : CognitiveArtifactType
  sessionId : String
  cycleId : Option String
  snapshotId : String
  payload : P
  createdAt : ℤ

/-- The table `cognitive_artifacts`, in the order of its appends; the id is its primary key.
Source `joker/cognition/artifacts.py:184–578`. -/
structure CognitiveArtifactStore (P : Type) where
  rows : List (CognitiveArtifactRecord P)
  unique : (rows.map (·.artifactId)).Nodup

namespace CognitiveArtifactStore

variable {P : Type}

/-- A table without rows. -/
def empty : CognitiveArtifactStore P := ⟨[], List.nodup_nil⟩

/-- `get_by_id`. Source `joker/cognition/artifacts.py:268–280`. -/
def getById (store : CognitiveArtifactStore P) (artifactId : String) :
    Option (CognitiveArtifactRecord P) :=
  store.rows.find? (fun row ↦ row.artifactId = artifactId)

/-- An id that is not found is no row's. -/
theorem getById_eq_none_iff (store : CognitiveArtifactStore P) (artifactId : String) :
    store.getById artifactId = none ↔ artifactId ∉ store.rows.map (·.artifactId) := by
  simp [getById]

/-- The table with one more row. -/
def insert (store : CognitiveArtifactStore P) (record : CognitiveArtifactRecord P)
    (hnew : store.getById record.artifactId = none) : CognitiveArtifactStore P :=
  ⟨store.rows ++ [record], by
    rw [List.map_append, List.nodup_append]
    refine ⟨store.unique, List.nodup_singleton _, ?_⟩
    intro id hid other hother
    rw [List.map_singleton, List.mem_singleton] at hother
    rintro rfl
    exact (store.getById_eq_none_iff _).mp hnew (hother ▸ hid)⟩

/-- `append_artifact`: duplicate ids are rejected, unless the payload is the recorded one.
Source `joker/cognition/artifacts.py:207–249`. -/
def appendArtifact [DecidableEq P] (store : CognitiveArtifactStore P)
    (record : CognitiveArtifactRecord P) : Except ArtifactError (CognitiveArtifactStore P) :=
  match hfound : store.getById record.artifactId with
  | some existing =>
    if existing.payload = record.payload then .ok store
    else .error (.conflict record.artifactId)
  | none => .ok (store.insert record hfound)

/-- A row with a new id is appended. -/
theorem appendArtifact_of_new [DecidableEq P] {store : CognitiveArtifactStore P}
    (record : CognitiveArtifactRecord P)
    (hnew : record.artifactId ∉ store.rows.map (·.artifactId)) :
    ∃ hfound, store.appendArtifact record = .ok (store.insert record hfound) := by
  have hfound := (store.getById_eq_none_iff _).mpr hnew
  refine ⟨hfound, ?_⟩
  unfold appendArtifact
  split
  · next existing hsome =>
    rw [hfound] at hsome
    cases hsome
  · rfl

/-- `ORDER BY created_at DESC`. -/
def newestFirst : List (CognitiveArtifactRecord P) → List (CognitiveArtifactRecord P) :=
  List.insertionSort (fun a b ↦ b.createdAt ≤ a.createdAt)

/-- The `WHERE` clause of `list_by_session`. -/
def belongs (sessionId : String) (artifactType : Option CognitiveArtifactType)
    (row : CognitiveArtifactRecord P) : Bool :=
  decide (row.sessionId = sessionId) && artifactType.all (row.artifactType = ·)

/-- `list_by_session`: artefacts of a session, newest first.
Source `joker/cognition/artifacts.py:282–295`. -/
def listBySession (store : CognitiveArtifactStore P) (sessionId : String)
    (artifactType : Option CognitiveArtifactType) (limit : Option ℕ) :
    List (CognitiveArtifactRecord P) :=
  let rows := newestFirst (store.rows.filter (belongs sessionId artifactType))
  match limit with
  | none => rows
  | some n => rows.take n

/-- Rows that were appended in the order of their times are listed from the last to the first. -/
theorem newestFirst_of_increasing {rows : List (CognitiveArtifactRecord P)}
    (h : rows.Pairwise (·.createdAt < ·.createdAt)) : newestFirst rows = rows.reverse := by
  have htotal : Std.Total (fun a b : CognitiveArtifactRecord P ↦ b.createdAt ≤ a.createdAt) :=
    ⟨fun a b ↦ le_total b.createdAt a.createdAt⟩
  have htrans : IsTrans (CognitiveArtifactRecord P) (fun a b ↦ b.createdAt ≤ a.createdAt) :=
    ⟨fun a b c hab hbc ↦ hbc.trans hab⟩
  have hmem : ∀ a, a ∈ newestFirst rows → a ∈ rows := fun a ↦ (List.mem_insertionSort _).mp
  -- no two rows have one time
  have hnodup : (rows.map (·.createdAt)).Nodup := List.pairwise_map.mpr (h.imp ne_of_lt)
  refine ((List.perm_insertionSort _ rows).trans rows.reverse_perm.symm).eq_of_pairwise ?_
    (List.pairwise_insertionSort _ rows) (List.pairwise_reverse.mpr (h.imp le_of_lt))
  intro a b ha hb hab hba
  exact List.inj_on_of_nodup_map hnodup (hmem a ha) (List.mem_reverse.mp hb) (le_antisymm hba hab)

/-- A session's artefacts of a type that were appended in the order of their times, listed. -/
theorem listBySession_of_increasing {store : CognitiveArtifactStore P} {sessionId : String}
    {artifactType : Option CognitiveArtifactType}
    (h : (store.rows.filter (belongs sessionId artifactType)).Pairwise
      (·.createdAt < ·.createdAt)) :
    store.listBySession sessionId artifactType none =
      (store.rows.filter (belongs sessionId artifactType)).reverse :=
  newestFirst_of_increasing h

end CognitiveArtifactStore

/-- `_TypedArtifactRepository`: how the artefacts of one type are written to rows and read back
from them. What was written reads back.
Source `joker/persistence/cognitive_repositories.py:38–133`. -/
structure TypedArtifactRepository (P T : Type) where
  artifactType : CognitiveArtifactType
  dump : T → P
  validate : P → Option T
  validate_dump : ∀ payload, validate (dump payload) = some payload
  extractId : T → String
  sessionIdOf : T → String
  snapshotIdOf : T → String
  cycleIdOf : T → Option String

namespace TypedArtifactRepository

open CognitiveArtifactStore

variable {P T : Type} (repo : TypedArtifactRepository P T)

/-- `artifact_record_from_payload`. Source `joker/cognition/artifacts.py:152–181`. -/
def recordFromPayload (payload : T) (createdAt : ℤ) : CognitiveArtifactRecord P :=
  { artifactId := repo.extractId payload
    artifactType := repo.artifactType
    sessionId := repo.sessionIdOf payload
    cycleId := repo.cycleIdOf payload
    snapshotId := repo.snapshotIdOf payload
    payload := repo.dump payload
    createdAt := createdAt }

/-- `append`: persist a typed artefact.
Source `joker/persistence/cognitive_repositories.py:66–94`. -/
def append [DecidableEq P] (payload : T) (createdAt : ℤ) (store : CognitiveArtifactStore P) :
    Except ArtifactError (CognitiveArtifactStore P) :=
  store.appendArtifact (repo.recordFromPayload payload createdAt)

/-- `_deserialize`. Source `joker/persistence/cognitive_repositories.py:96–97`. -/
def deserialize (record : CognitiveArtifactRecord P) : Except ArtifactError T :=
  orRaise (repo.validate record.payload) .validation

/-- `list_by_session`. Source `joker/persistence/cognitive_repositories.py:113–117`. -/
def listBySession (store : CognitiveArtifactStore P) (sessionId : String) (limit : Option ℕ) :
    Except ArtifactError (List T) :=
  (store.listBySession sessionId (some repo.artifactType) limit).mapM repo.deserialize

/-- A session's artefacts of the repository's type in the order of their appends. -/
def history (store : CognitiveArtifactStore P) (sessionId : String) : List T :=
  (store.rows.filter (belongs sessionId (some repo.artifactType))).filterMap
    (fun row ↦ repo.validate row.payload)

/-- Every artefact of the repository's type in a session reads back. -/
def Readable (store : CognitiveArtifactStore P) (sessionId : String) : Prop :=
  ∀ row ∈ store.rows.filter (belongs sessionId (some repo.artifactType)),
    (repo.validate row.payload).isSome

private theorem mapM_deserialize {rows : List (CognitiveArtifactRecord P)}
    (h : ∀ row ∈ rows, (repo.validate row.payload).isSome) :
    rows.mapM repo.deserialize = .ok (rows.filterMap (fun row ↦ repo.validate row.payload)) := by
  induction rows with
  | nil => rfl
  | cons row rows ih =>
    obtain ⟨payload, hpayload⟩ := Option.isSome_iff_exists.mp (h row List.mem_cons_self)
    have hrest := ih (fun r hr ↦ h r (List.mem_cons_of_mem _ hr))
    have hrow : repo.deserialize row = .ok payload := orRaise_eq_ok.mpr hpayload
    have hrows : (row :: rows).filterMap (fun row ↦ repo.validate row.payload) =
        payload :: rows.filterMap (fun row ↦ repo.validate row.payload) :=
      List.filterMap_cons_some hpayload
    rw [List.mapM_cons, hrow, hrest, hrows]
    rfl

/-- The artefacts of a session, listed: from the last append to the first. -/
theorem listBySession_eq {store : CognitiveArtifactStore P} {sessionId : String}
    (hreadable : repo.Readable store sessionId)
    (hincreasing : (store.rows.filter (belongs sessionId (some repo.artifactType))).Pairwise
      (·.createdAt < ·.createdAt)) :
    repo.listBySession store sessionId none = .ok (repo.history store sessionId).reverse := by
  unfold listBySession history
  rw [listBySession_of_increasing hincreasing, mapM_deserialize, List.filterMap_reverse]
  intro row hrow
  exact hreadable row (List.mem_reverse.mp hrow)

/-- An artefact with a new id becomes the last row. -/
theorem append_of_new [DecidableEq P] {payload : T} {store : CognitiveArtifactStore P}
    (createdAt : ℤ) (hnew : repo.extractId payload ∉ store.rows.map (·.artifactId)) :
    ∃ store', repo.append payload createdAt store = .ok store' ∧
      store'.rows = store.rows ++ [repo.recordFromPayload payload createdAt] := by
  obtain ⟨hfound, happend⟩ :=
    appendArtifact_of_new (repo.recordFromPayload payload createdAt) hnew
  exact ⟨_, happend, rfl⟩

section Appended

variable {store store' : CognitiveArtifactStore P} {sessionId : String}

/-- An artefact of the session joins its history. -/
theorem history_appended {payload : T} {createdAt : ℤ}
    (h : store'.rows = store.rows ++ [repo.recordFromPayload payload createdAt])
    (hsession : repo.sessionIdOf payload = sessionId) :
    repo.history store' sessionId = repo.history store sessionId ++ [payload] := by
  subst hsession
  simp [history, h, belongs, recordFromPayload, repo.validate_dump]

/-- A store stays readable when a record of the repository is appended. -/
theorem readable_appended {payload : T} {createdAt : ℤ}
    (h : store'.rows = store.rows ++ [repo.recordFromPayload payload createdAt])
    (hreadable : repo.Readable store sessionId) : repo.Readable store' sessionId := by
  intro row hrow
  rw [h, List.filter_append, List.mem_append] at hrow
  rcases hrow with hold | hnew
  · exact hreadable row hold
  · rw [List.mem_singleton.mp (List.mem_of_mem_filter hnew)]
    exact Option.isSome_iff_exists.mpr ⟨payload, repo.validate_dump payload⟩

end Appended

end TypedArtifactRepository
end Joker.Persistence
