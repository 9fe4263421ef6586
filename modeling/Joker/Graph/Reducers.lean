import Joker.Base.FirstSeen
import Joker.Graph.DecisionCycle

/-!
# The reducers

Library `Graph`. `joker/graph/reducers.py`: the lists of artefacts in the graph's state are merged
by id, and of one id the payload that was seen first stays. The reducers are merges that keep what
was seen first, so that parallel branches may complete in any order.
-/

namespace Joker.Graph.Reducers

open Joker.Base
open Joker.Cognition (StrategyHypothesis)

/-! ### Merging -/

/-- `_merge_models`; an absent list is empty. Payloads are compared there, but a conflicting item
is passed over like one that is the same. Source `joker/graph/reducers.py:26–46`. -/
def mergeModels {T : Type} (idOf sortKey : T → String) (existing incoming : Option (List T)) :
    List T :=
  (mergeFirst idOf (existing.getD [] ++ incoming.getD [])).values.insertionSort
    (fun a b ↦ sortKey a ≤ sortKey b)

/-- `GraphNodeTrace`: the id, whose text is that of a `UUID`, the name of the node, and the rest of
the payload. -/
structure GraphNodeTrace where
  traceId : String
  nodeName : String
  rest : String
  length_traceId : traceId.length = 36
  deriving DecidableEq

/-- The sort key of `merge_traces`. -/
def GraphNodeTrace.sortKey (trace : GraphNodeTrace) : String :=
  trace.nodeName ++ ":" ++ trace.traceId

/-- `merge_evidence`. Source `joker/graph/reducers.py:49–58`. -/
def mergeEvidence : Option (List Artefact) → Option (List Artefact) → List Artefact :=
  mergeModels Artefact.artefactId Artefact.artefactId

/-- `merge_hypotheses`. Source `joker/graph/reducers.py:61–70`. -/
def mergeHypotheses : Option (List Artefact) → Option (List Artefact) → List Artefact :=
  mergeModels Artefact.artefactId Artefact.artefactId

/-- `merge_strategies`. Source `joker/graph/reducers.py:73–82`. -/
def mergeStrategies :
    Option (List StrategyHypothesis) → Option (List StrategyHypothesis) →
      List StrategyHypothesis :=
  mergeModels StrategyHypothesis.strategyId StrategyHypothesis.strategyId

/-- `merge_reviews`. Source `joker/graph/reducers.py:85–94`. -/
def mergeReviews : Option (List Artefact) → Option (List Artefact) → List Artefact :=
  mergeModels Artefact.artefactId Artefact.artefactId

/-- `merge_traces`. Source `joker/graph/reducers.py:97–106`. -/
def mergeTraces :
    Option (List GraphNodeTrace) → Option (List GraphNodeTrace) → List GraphNodeTrace :=
  mergeModels GraphNodeTrace.traceId GraphNodeTrace.sortKey

/-- `merge_errors`. Source `joker/graph/reducers.py:109–118`. -/
def mergeErrors :
    Option (List CognitiveError) → Option (List CognitiveError) → List CognitiveError :=
  mergeModels CognitiveError.errorId CognitiveError.errorId

/-- The merge of the graph's nodes is the reducer whose sort key is the id. -/
theorem mergeModels_some {T : Type} (idOf : T → String) (existing incoming : List T) :
    mergeModels idOf idOf (some existing) (some incoming) =
      Graph.mergeModels idOf existing incoming := rfl

/-! ### Laws -/

section

variable {T : Type} {idOf sortKey : T → String}

private theorem nodup_values_mergeFirst (idOf : T → String) (items : List T) :
    ((mergeFirst idOf items).values.map idOf).Nodup := by
  have hkeys : (mergeFirst idOf items).values.map idOf = (mergeFirst idOf items).keys := by
    unfold Dict.values Dict.keys
    rw [List.map_map]
    apply List.map_congr_left
    intro e he
    have hget := (Dict.mem_entries_iff _ _ _).mp he
    rw [get?_mergeFirst] at hget
    exact (of_firstSeen hget).2
  rw [hkeys]
  exact (mergeFirst idOf items).nodup

/-- The reducers collate what is seen first. -/
theorem mergesFirst_mergeModels (idOf sortKey : T → String) :
    MergesFirst idOf (fun x y ↦ sortKey x ≤ sortKey y)
      (fun a b ↦ mergeModels idOf sortKey (some a) (some b)) := by
  have hcollated : ∀ a b, Collated idOf (fun x y ↦ sortKey x ≤ sortKey y)
      (mergeModels idOf sortKey (some a) (some b)) := by
    intro a b
    constructor
    · have hperm := (List.perm_insertionSort (fun x y ↦ sortKey x ≤ sortKey y)
        (mergeFirst idOf (a ++ b)).values).map idOf
      exact hperm.nodup_iff.mpr (nodup_values_mergeFirst idOf (a ++ b))
    · exact List.pairwise_insertionSort _ _
  refine ⟨hcollated, ?_⟩
  intro a b k
  ext x
  rw [(hcollated a b).conflictFree.firstSeen_eq_some_iff]
  simp only [mergeModels, Option.getD_some, List.mem_insertionSort, Dict.mem_values_iff,
    get?_mergeFirst]
  constructor
  · rintro ⟨⟨k', hfirst⟩, rfl⟩
    obtain rfl := (of_firstSeen hfirst).2
    exact hfirst
  · intro hfirst
    exact ⟨⟨k, hfirst⟩, (of_firstSeen hfirst).2⟩

/-- The laws of a reducer: it is associative, absorbs what it merged, and has every id once, sorted
and with the payload seen first. Where no id has two payloads it is commutative, and the state
after parallel branches does not depend on their order. -/
structure MergeAlgebra (idOf sortKey : T → String)
    (merge : Option (List T) → Option (List T) → List T) : Prop where
  assoc : ∀ a b c, merge (some (merge a b)) c = merge a (some (merge b c))
  absorb : ∀ a b, merge a (some (merge a b)) = merge a b
  once : ∀ a b, ((merge a b).map idOf).Nodup
  sorted : ∀ a b, (merge a b).Pairwise (fun x y ↦ sortKey x ≤ sortKey y)
  first : ∀ a b k, (merge a b).find? (fun item ↦ idOf item = k) =
    (a.getD [] ++ b.getD []).find? (fun item ↦ idOf item = k)
  comm : ∀ a b, ConflictFree idOf (a.getD [] ++ b.getD []) → merge a b = merge b a
  anyOrder : ∀ (state : List T) (branches branches' : List (List T)), branches.Perm branches' →
    ConflictFree idOf (state ++ branches.flatten) →
      branches.foldl (fun state update ↦ merge (some state) (some update)) state =
        branches'.foldl (fun state update ↦ merge (some state) (some update)) state

/-- A reducer obeys the laws when items with one sort key have one id. -/
theorem mergeAlgebra_mergeModels (hkey : ∀ x y, sortKey x = sortKey y → idOf x = idOf y) :
    MergeAlgebra idOf sortKey (mergeModels idOf sortKey) := by
  have h := mergesFirst_mergeModels idOf sortKey
  have hle : ∀ x y, sortKey x ≤ sortKey y → sortKey y ≤ sortKey x → idOf x = idOf y :=
    fun x y hxy hyx ↦ hkey x y (le_antisymm hxy hyx)
  constructor
  · exact fun a b c ↦ h.assoc hle (a.getD []) (b.getD []) (c.getD [])
  · exact fun a b ↦ h.absorb hle (a.getD []) (b.getD [])
  · exact fun a b ↦ (h.collated (a.getD []) (b.getD [])).once
  · exact fun a b ↦ (h.collated (a.getD []) (b.getD [])).sorted
  · exact fun a b k ↦ h.first (a.getD []) (b.getD []) k
  · exact fun a b hfree ↦ h.comm hle hfree
  · exact fun state branches branches' hperm hfree ↦ h.foldl_perm hle hperm hfree

/-- Traces with one sort key have one id, since the texts of ids are equally long. -/
theorem traceId_eq_of_sortKey (x y : GraphNodeTrace) (h : x.sortKey = y.sortKey) :
    x.traceId = y.traceId := by
  have htexts : (x.nodeName ++ ":").toList ++ x.traceId.toList =
      (y.nodeName ++ ":").toList ++ y.traceId.toList := by
    simpa [GraphNodeTrace.sortKey] using congrArg String.toList h
  have hlength : x.traceId.toList.length = y.traceId.toList.length := by
    rw [String.length_toList, String.length_toList, x.length_traceId, y.length_traceId]
  exact String.toList_injective (List.append_inj_right' htexts hlength)

end

/-- All six reducers obey the laws. -/
theorem reducers_mergeAlgebra :
    MergeAlgebra Artefact.artefactId Artefact.artefactId mergeEvidence ∧
      MergeAlgebra Artefact.artefactId Artefact.artefactId mergeHypotheses ∧
      MergeAlgebra StrategyHypothesis.strategyId StrategyHypothesis.strategyId mergeStrategies ∧
      MergeAlgebra Artefact.artefactId Artefact.artefactId mergeReviews ∧
      MergeAlgebra GraphNodeTrace.traceId GraphNodeTrace.sortKey mergeTraces ∧
      MergeAlgebra CognitiveError.errorId CognitiveError.errorId mergeErrors :=
  ⟨mergeAlgebra_mergeModels (fun _ _ h ↦ h), mergeAlgebra_mergeModels (fun _ _ h ↦ h),
    mergeAlgebra_mergeModels (fun _ _ h ↦ h), mergeAlgebra_mergeModels (fun _ _ h ↦ h),
    mergeAlgebra_mergeModels traceId_eq_of_sortKey, mergeAlgebra_mergeModels (fun _ _ h ↦ h)⟩

end Joker.Graph.Reducers
