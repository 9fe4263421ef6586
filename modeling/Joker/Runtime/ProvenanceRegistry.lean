import Mathlib.Data.List.Nodup
import Joker.Runtime.GatewaySubmission

/-!
# Provenance registry

Library `Runtime`. `CognitiveExecutionProvenanceRegistry` of
`joker/persistence/cognitive_execution_provenance.py`, which keeps one row for each client order id:
recording an id again replaces its row. Times of creation are texts, and sorted as texts.
-/

namespace Joker.Runtime

/-- A row of `cognitive_execution_provenance`, with a note on who submitted the request, which no
query reads. -/
structure ProvenanceRow (σ : Type) where
  record : ExecutionProvenanceRecord
  createdAt : String
  submitter : σ

/-- The table, whose primary key is the client order id.
Source `joker/persistence/cognitive_execution_provenance.py:52–157`. -/
structure ProvenanceRegistry (σ : Type) where
  rows : List (ProvenanceRow σ)
  unique : (rows.map (fun row ↦ row.record.clientOrderId)).Nodup

namespace ProvenanceRegistry

variable {σ : Type}

/-- A table without rows. -/
def empty : ProvenanceRegistry σ := ⟨[], List.nodup_nil⟩

/-- `INSERT OR REPLACE`. Source `joker/persistence/cognitive_execution_provenance.py:70–98`. -/
def record (registry : ProvenanceRegistry σ) (row : ProvenanceRow σ) : ProvenanceRegistry σ where
  rows := registry.rows.filter (fun old ↦ old.record.clientOrderId ≠ row.record.clientOrderId) ++
    [row]
  unique := by
    rw [List.map_append, List.nodup_append]
    refine ⟨(List.filter_sublist.map _).nodup registry.unique, List.nodup_singleton _, ?_⟩
    rintro id hid _ hrow rfl
    obtain ⟨old, hold, rfl⟩ := List.mem_map.mp hid
    rw [List.map_singleton, List.mem_singleton] at hrow
    simpa [hrow] using (List.mem_filter.mp hold).2

/-- `get_by_client_order_id`.
Source `joker/persistence/cognitive_execution_provenance.py:100–125`. -/
def getByClientOrderId (registry : ProvenanceRegistry σ) (clientOrderId : String) :
    Option (ProvenanceRow σ) :=
  registry.rows.find? (fun row ↦ row.record.clientOrderId = clientOrderId)

/-- The later of two rows; of rows of one time it is the one recorded last. -/
def later (found : Option (ProvenanceRow σ)) (row : ProvenanceRow σ) : Option (ProvenanceRow σ) :=
  match found with
  | none => some row
  | some best => some (if row.createdAt < best.createdAt then best else row)

/-- The rows of a contract, in the order they were recorded in. -/
def contractRows (registry : ProvenanceRegistry σ) (contractId : String) :
    List (ProvenanceRow σ) :=
  registry.rows.filter (fun row ↦ row.record.contractId = contractId)

/-- `get_latest_by_contract_id`: `ORDER BY created_at DESC LIMIT 1`.
Source `joker/persistence/cognitive_execution_provenance.py:127–157`. -/
def getLatestByContractId (registry : ProvenanceRegistry σ) (contractId : String) :
    Option (ProvenanceRow σ) :=
  (registry.contractRows contractId).foldl later none

/-! ### What a query finds -/

variable {registry : ProvenanceRegistry σ} {row found : ProvenanceRow σ}

/-- A row of the table is the one recorded last, or was there before. -/
theorem mem_record (h : found ∈ (registry.record row).rows) :
    found = row ∨ found ∈ registry.rows := by
  rcases List.mem_append.mp h with h | h
  · exact .inr (List.mem_filter.mp h).1
  · exact .inl (List.mem_singleton.mp h)

/-- A row found for an order is a row of the registry. -/
theorem mem_of_getByClientOrderId {clientOrderId : String}
    (h : registry.getByClientOrderId clientOrderId = some row) : row ∈ registry.rows :=
  List.mem_of_find?_eq_some h

/-- The row of a client order id is found, if there is one: the id has no other. -/
theorem getByClientOrderId_eq_some_iff {clientOrderId : String} :
    registry.getByClientOrderId clientOrderId = some row ↔
      row ∈ registry.rows ∧ row.record.clientOrderId = clientOrderId := by
  constructor
  · intro h
    unfold getByClientOrderId at h
    exact ⟨List.mem_of_find?_eq_some h, by simpa using List.find?_some h⟩
  · rintro ⟨hrow, hid⟩
    cases hfind : registry.getByClientOrderId clientOrderId with
    | none => exact absurd (decide_eq_true hid) (List.find?_eq_none.mp hfind row hrow)
    | some other =>
      unfold getByClientOrderId at hfind
      have hother : other.record.clientOrderId = clientOrderId := by
        simpa using List.find?_some hfind
      have hsame := List.inj_on_of_nodup_map registry.unique hrow
        (List.mem_of_find?_eq_some hfind) (hid.trans hother.symm)
      rw [hsame]

private theorem eq_nil_of_later {rows : List (ProvenanceRow σ)}
    (h : rows.foldl later none = none) : rows = [] := by
  cases rows using List.reverseRecOn with
  | nil => rfl
  | append_singleton rest last =>
    rw [List.foldl_append, List.foldl_cons, List.foldl_nil] at h
    cases hrest : rest.foldl later none <;> simp [hrest, later] at h

private theorem split_of_later {rows : List (ProvenanceRow σ)}
    (h : rows.foldl later none = some row) : ∃ before after, rows = before ++ row :: after ∧
      (∀ other ∈ before, other.createdAt ≤ row.createdAt) ∧
      ∀ other ∈ after, other.createdAt < row.createdAt := by
  induction rows using List.reverseRecOn generalizing row with
  | nil => cases h
  | append_singleton rows last ih =>
    rw [List.foldl_append, List.foldl_cons, List.foldl_nil] at h
    cases hbest : rows.foldl later none with
    | none =>
      rw [hbest] at h
      obtain rfl := Option.some.inj h
      rw [eq_nil_of_later hbest]
      exact ⟨[], [], rfl, nofun, nofun⟩
    | some best =>
      rw [hbest] at h
      obtain ⟨before, after, hrows, hbefore, hafter⟩ := ih hbest
      unfold later at h
      by_cases hearlier : last.createdAt < best.createdAt
      · simp only [hearlier, if_true, Option.some.injEq] at h
        subst h
        refine ⟨before, after ++ [last], by simp [hrows], hbefore, ?_⟩
        intro other hother
        rcases List.mem_append.mp hother with hother | hother
        · exact hafter other hother
        · exact List.mem_singleton.mp hother ▸ hearlier
      · simp only [hearlier, if_false, Option.some.injEq] at h
        subst h
        refine ⟨rows, [], rfl, fun other hother ↦ ?_, nofun⟩
        have hlast := not_lt.mp hearlier
        rw [hrows] at hother
        rcases List.mem_append.mp hother with hother | hother
        · exact (hbefore other hother).trans hlast
        · rcases List.mem_cons.mp hother with rfl | hother
          · exact hlast
          · exact (hafter other hother).le.trans hlast

/-- The contract's latest row has a property exactly when some row has it and each row without it
is earlier: of an earlier time, or recorded before at the same time. -/
theorem latest_iff {P : ProvenanceRow σ → Prop} {contractId : String} :
    (∃ row, registry.getLatestByContractId contractId = some row ∧ P row) ↔
      ∃ before row after, registry.contractRows contractId = before ++ row :: after ∧ P row ∧
        (∀ other ∈ before, ¬ P other → other.createdAt ≤ row.createdAt) ∧
        ∀ other ∈ after, ¬ P other → other.createdAt < row.createdAt := by
  unfold getLatestByContractId
  generalize registry.contractRows contractId = rows
  constructor
  · rintro ⟨row, hrow, hP⟩
    obtain ⟨before, after, hrows, hbefore, hafter⟩ := split_of_later hrow
    exact ⟨before, row, after, hrows, hP, fun other ho _ ↦ hbefore other ho,
      fun other ho _ ↦ hafter other ho⟩
  · rintro ⟨before, row, after, hrows, hP, hbefore, hafter⟩
    cases hlatest : rows.foldl later none with
    | none => exact absurd (hrows.symm.trans (eq_nil_of_later hlatest)) (by simp)
    | some latest =>
      refine ⟨latest, rfl, ?_⟩
      by_contra hnot
      obtain ⟨before', after', hrows', hbefore', hafter'⟩ := split_of_later hlatest
      rw [hrows] at hrows'
      -- the latest row stands before the row with the property, after it, or is it
      rcases List.append_eq_append_iff.mp hrows' with ⟨mid, hmid, htail⟩ | ⟨mid, hmid, htail⟩
      · cases mid with
        | nil =>
          obtain rfl : row = latest := (List.cons.inj htail).1
          exact hnot hP
        | cons head mid =>
          obtain ⟨rfl, hafter_eq⟩ := List.cons.inj htail
          have hlate : latest ∈ after := by simp [hafter_eq]
          have hrow : row ∈ before' := by simp [hmid]
          exact absurd (hafter latest hlate hnot) (not_lt.mpr (hbefore' row hrow))
      · cases mid with
        | nil =>
          obtain rfl : latest = row := (List.cons.inj htail).1
          exact hnot hP
        | cons head mid =>
          obtain ⟨rfl, hafter_eq⟩ := List.cons.inj htail
          have hrow : row ∈ after' := by simp [hafter_eq]
          have hearly : latest ∈ before := by simp [hmid]
          exact absurd (hafter' row hrow) (not_lt.mpr (hbefore latest hearly hnot))

/-- A row found for a contract is a row of the registry. -/
theorem mem_of_getLatestByContractId {contractId : String}
    (h : registry.getLatestByContractId contractId = some row) : row ∈ registry.rows := by
  obtain ⟨before, after, hrows, -⟩ := split_of_later h
  have hmem : row ∈ registry.contractRows contractId := by simp [hrows]
  exact (List.mem_filter.mp hmem).1

end ProvenanceRegistry
end Joker.Runtime
