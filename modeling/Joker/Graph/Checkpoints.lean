import Mathlib.Data.List.Sort
import Mathlib.Data.String.Basic
import Joker.Base.IsoText
import Joker.Base.Json
import Joker.Base.Runs
import Joker.Base.Text
import Joker.Base.UtcTime
import Joker.Broker.Domain

/-!
# Graph checkpoints

Library `Graph`. `joker/graph/checkpoints.py`: the table of saved states of the Task 1 graph, their
JSON, and the queries by session. JSON is taken as the value that a text stands for; times of
creation are texts and sorted as texts. The connection is open.
-/

namespace Joker.Graph

open Joker.Base Joker.Broker

/-! ### States -/

/-- `JokerGraphState`, each of whose keys may be missing. Source `joker/graph/state.py:9–22`. -/
structure JokerGraphState where
  runId : Option String
  sessionId : Option String
  exchangeTime : Option Datetime
  marketSnapshotId : Option String
  featureSnapshotId : Option String
  optionSurfaceId : Option String
  dataQualityId : Option String
  activeOrderId : Option String
  activePositionId : Option String
  pendingEventIds : Option (List String)
  errors : Option (List Json)

/-- The keys of a `dict` that are there, with their values. -/
def present (fields : List (String × Option Json)) : List (String × Json) :=
  fields.filterMap (fun field ↦ field.2.map (fun value ↦ (field.1, value)))

namespace JokerGraphState

/-- The state's keys in their order, with the JSON of their values. -/
def fields (state : JokerGraphState) : List (String × Option Json) :=
  [("active_order_id", state.activeOrderId.map Json.str),
    ("active_position_id", state.activePositionId.map Json.str),
    ("data_quality_id", state.dataQualityId.map Json.str),
    ("errors", state.errors.map Json.arr),
    ("exchange_time", state.exchangeTime.map (fun time ↦ Json.str time.isoformat)),
    ("feature_snapshot_id", state.featureSnapshotId.map Json.str),
    ("market_snapshot_id", state.marketSnapshotId.map Json.str),
    ("option_surface_id", state.optionSurfaceId.map Json.str),
    ("pending_event_ids", state.pendingEventIds.map Json.texts),
    ("run_id", state.runId.map Json.str),
    ("session_id", state.sessionId.map Json.str)]

/-- `_serialize_state`. Source `joker/graph/checkpoints.py:38–46`. -/
def serialize (state : JokerGraphState) : Json := .obj (present state.fields)

end JokerGraphState

/-- The items, when the value is a list. -/
def itemsOf : Json → Option (List Json)
  | .arr items => some items
  | _ => none

/-- The texts, when the value is a list of them. -/
def textsOf (value : Json) : Option (List String) :=
  (itemsOf value).bind (fun items ↦ items.mapM Json.text?)

/-- `exchange_time` of a loaded `dict`: `datetime.fromisoformat` of a text. -/
def readExchangeTime (value : Option Json) : Except PyException (Option Datetime) :=
  match value with
  | some (.str text) =>
    match Datetime.fromisoformat text with
    | some time => .ok (some time)
    | none => .error ⟨"ValueError", "Invalid isoformat string: '" ++ text ++ "'"⟩
  | _ => .ok none

/-- `_deserialize_state`, for values of the types that a state has under its keys.
Source `joker/graph/checkpoints.py:49–56`. -/
def deserializeState (raw : Json) : Except PyException JokerGraphState :=
  match raw with
  | .obj members => do
    let exchangeTime ← readExchangeTime (Members.get? members "exchange_time")
    pure
      { runId := (Members.get? members "run_id").bind Json.text?
        sessionId := (Members.get? members "session_id").bind Json.text?
        exchangeTime := exchangeTime
        marketSnapshotId := (Members.get? members "market_snapshot_id").bind Json.text?
        featureSnapshotId := (Members.get? members "feature_snapshot_id").bind Json.text?
        optionSurfaceId := (Members.get? members "option_surface_id").bind Json.text?
        dataQualityId := (Members.get? members "data_quality_id").bind Json.text?
        activeOrderId := (Members.get? members "active_order_id").bind Json.text?
        activePositionId := (Members.get? members "active_position_id").bind Json.text?
        pendingEventIds := (Members.get? members "pending_event_ids").bind textsOf
        errors := (Members.get? members "errors").bind itemsOf }
  | _ => .error ⟨"ValueError", "checkpoint state_json must be an object"⟩

/-! ### The table -/

/-- `CheckpointRecord`. Source `joker/graph/checkpoints.py:59–75`. -/
structure CheckpointRecord where
  checkpointId : String
  sessionId : String
  createdAt : Datetime
  state : JokerGraphState

/-- A row of `graph_checkpoints`. -/
structure CheckpointRow where
  checkpointId : String
  sessionId : String
  createdAt : String
  stateJson : Json

/-- `_row_to_record`. Source `joker/graph/checkpoints.py:203–209`. -/
def CheckpointRow.toRecord (row : CheckpointRow) : Except PyException CheckpointRecord :=
  match Datetime.fromisoformat row.createdAt with
  | none => .error ⟨"ValueError", "Invalid isoformat string: '" ++ row.createdAt ++ "'"⟩
  | some createdAt => do
    let state ← deserializeState row.stateJson
    pure ⟨row.checkpointId, row.sessionId, createdAt, state⟩

/-- The table of `SqliteCheckpointStore`, in the order of its inserts.
Source `joker/graph/checkpoints.py:104–246`. -/
structure SqliteCheckpointStore where
  rows : List CheckpointRow
  unique : (rows.map CheckpointRow.checkpointId).Nodup

/-- What `save` is called with; `fresh` is its `uuid4` and `now` its clock. -/
structure SaveRequest where
  state : JokerGraphState
  sessionId : String
  checkpointId : Option String
  fresh : String
  now : UtcTime

/-- `checkpoint_id or str(uuid4())`. -/
def SaveRequest.id (request : SaveRequest) : String :=
  match request.checkpointId with
  | some id => if id = "" then request.fresh else id
  | none => request.fresh

/-- The row that is inserted. -/
def SaveRequest.row (request : SaveRequest) : CheckpointRow :=
  ⟨request.id, request.sessionId, request.now.text, request.state.serialize⟩

/-- The record that the row reads back as. -/
def SaveRequest.record (request : SaveRequest) : CheckpointRecord :=
  ⟨request.id, request.sessionId, request.now.time, request.state⟩

/-- What `save` raises. -/
inductive SaveError where
  | sessionRequired
  | integrity
  deriving DecidableEq, Repr

namespace SqliteCheckpointStore

/-- A table without rows. -/
def empty : SqliteCheckpointStore := ⟨[], List.nodup_nil⟩

/-- `save`, with the id that it returns. Source `joker/graph/checkpoints.py:134–154`. -/
def save (store : SqliteCheckpointStore) (request : SaveRequest) :
    Except SaveError (SqliteCheckpointStore × String) :=
  if isBlank request.sessionId then .error .sessionRequired
  else
    if h : request.id ∈ store.rows.map CheckpointRow.checkpointId then .error .integrity
    else
      .ok (⟨store.rows ++ [request.row], by
        rw [List.map_append, List.nodup_append]
        refine ⟨store.unique, List.nodup_singleton _, ?_⟩
        intro id hid other hother heq
        rw [List.map_singleton, List.mem_singleton] at hother
        rw [heq, hother] at hid
        exact h hid⟩, request.id)

/-- The order of a query: `created_at DESC, checkpoint_id DESC`. -/
def NewerFirst (a b : CheckpointRow) : Prop :=
  b.createdAt < a.createdAt ∨ b.createdAt = a.createdAt ∧ b.checkpointId ≤ a.checkpointId

instance : DecidableRel NewerFirst := fun _ _ ↦ inferInstanceAs (Decidable (_ ∨ _))

/-- The rows of a session, newest first. -/
def newestFirst (store : SqliteCheckpointStore) (sessionId : String) : List CheckpointRow :=
  (store.rows.filter (fun row ↦ row.sessionId = sessionId)).insertionSort NewerFirst

/-- A row that a query found, if it found one. -/
def recordOf (row : Option CheckpointRow) : Except PyException (Option CheckpointRecord) :=
  match row with
  | none => .ok none
  | some row => do
    let record ← row.toRecord
    pure (some record)

/-- `load_latest`. Source `joker/graph/checkpoints.py:156–171`. -/
def loadLatest (store : SqliteCheckpointStore) (sessionId : String) :
    Except PyException (Option CheckpointRecord) := recordOf (store.newestFirst sessionId).head?

/-- `load`. Source `joker/graph/checkpoints.py:173–186`. -/
def load (store : SqliteCheckpointStore) (checkpointId : String) :
    Except PyException (Option CheckpointRecord) :=
  recordOf (store.rows.find? (fun row ↦ row.checkpointId = checkpointId))

/-- `list_by_session`. Source `joker/graph/checkpoints.py:188–200`. -/
def listBySession (store : SqliteCheckpointStore) (sessionId : String) :
    Except PyException (List CheckpointRecord) :=
  (store.newestFirst sessionId).mapM CheckpointRow.toRecord

/-- A call of `save`; one that raises changes nothing. -/
def step (store : SqliteCheckpointStore) (request : SaveRequest) : SqliteCheckpointStore :=
  match store.save request with
  | .ok saved => saved.1
  | .error _ => store

end SqliteCheckpointStore

/-! ### What is saved -/

/-- A request is taken when it names a session and its id is new. -/
def takeSave (taken : List SaveRequest) (request : SaveRequest) : List SaveRequest :=
  if isBlank request.sessionId ∨ request.id ∈ taken.map SaveRequest.id then taken
  else taken ++ [request]

/-- The requests that are taken, in their order. -/
def takenSaves (requests : List SaveRequest) : List SaveRequest := requests.foldl takeSave []

/-- The requests of a session. -/
def ofSession (sessionId : String) (requests : List SaveRequest) : List SaveRequest :=
  requests.filter (fun request ↦ request.sessionId = sessionId)

/-- A state whose time Python can build. -/
def JokerGraphState.Storable (state : JokerGraphState) : Prop :=
  ∀ time ∈ state.exchangeTime, time.WellFormed

/-! ### Reading back -/

/-- A key that is there is found, and one that is missing is not. -/
theorem get?_present {fields : List (String × Option Json)} (h : (fields.map Prod.fst).Nodup)
    (key : String) : Members.get? (present fields) key = (fields.lookup key).join := by
  induction fields generalizing key with
  | nil => rfl
  | cons field rest ih =>
    obtain ⟨name, value⟩ := field
    obtain ⟨hname, hrest⟩ := List.nodup_cons.mp h
    have hmissing : Members.get? (present rest) name = none := by
      rw [ih hrest name, List.lookup_eq_none_iff.mpr]
      · rfl
      · intro other hother
        rw [bne_iff_ne]
        rintro rfl
        exact hname (List.mem_map.mpr ⟨other, hother, rfl⟩)
    rw [List.lookup_cons]
    cases value with
    | none =>
      have hskip : present ((name, none) :: rest) = present rest := rfl
      rw [hskip]
      by_cases hkey : key = name
      · rw [hkey, hmissing, beq_self_eq_true]
        rfl
      · rw [beq_eq_false_iff_ne.mpr hkey]
        exact ih hrest key
    | some value =>
      have hkeep : present ((name, some value) :: rest) = (name, value) :: present rest := rfl
      rw [hkeep, Members.get?_cons]
      by_cases hkey : key = name
      · rw [if_pos hkey, hkey, beq_self_eq_true]
        rfl
      · rw [if_neg hkey, beq_eq_false_iff_ne.mpr hkey]
        exact ih hrest key

private theorem textsOf_texts (texts : List String) : textsOf (Json.texts texts) = some texts := by
  unfold textsOf Json.texts itemsOf
  simp only [Option.bind_some]
  induction texts with
  | nil => rfl
  | cons text rest ih =>
    rw [List.map_cons, List.mapM_cons, ih]
    rfl

private theorem bind_text (value : Option String) :
    (value.map Json.str).bind Json.text? = value := by
  cases value <;> rfl

/-- A state is read back from its JSON. -/
theorem deserialize_serialize {state : JokerGraphState} (h : state.Storable) :
    deserializeState state.serialize = .ok state := by
  have hnodup : (state.fields.map Prod.fst).Nodup := by
    have hnames : state.fields.map Prod.fst = ["active_order_id", "active_position_id",
        "data_quality_id", "errors", "exchange_time", "feature_snapshot_id", "market_snapshot_id",
        "option_surface_id", "pending_event_ids", "run_id", "session_id"] := rfl
    rw [hnames]
    decide
  have hget (key : String) {value : Option Json} (hkey : state.fields.lookup key = some value) :
      Members.get? (present state.fields) key = value := by
    rw [get?_present hnodup, hkey]
    rfl
  have htime : readExchangeTime (state.exchangeTime.map (fun time ↦ Json.str time.isoformat)) =
      .ok state.exchangeTime := by
    cases htime : state.exchangeTime with
    | none => rfl
    | some time =>
      have hread := Datetime.fromisoformat_isoformat (h time htime)
      unfold readExchangeTime
      simp only [Option.map_some, hread]
  have hpending : (state.pendingEventIds.map Json.texts).bind textsOf = state.pendingEventIds := by
    cases state.pendingEventIds with
    | none => rfl
    | some texts => exact textsOf_texts texts
  have herrors : (state.errors.map Json.arr).bind itemsOf = state.errors := by
    cases state.errors <;> rfl
  unfold deserializeState JokerGraphState.serialize
  simp only
  rw [hget "exchange_time" rfl, hget "run_id" rfl, hget "session_id" rfl,
    hget "market_snapshot_id" rfl, hget "feature_snapshot_id" rfl, hget "option_surface_id" rfl,
    hget "data_quality_id" rfl, hget "active_order_id" rfl, hget "active_position_id" rfl,
    hget "pending_event_ids" rfl, hget "errors" rfl, htime, hpending, herrors]
  simp only [bind_text]
  rfl

/-- A row is read back as the record that was saved. -/
theorem toRecord_row {request : SaveRequest} (h : request.state.Storable) :
    request.row.toRecord = .ok request.record := by
  have hcreated : Datetime.fromisoformat request.row.createdAt = some request.now.time :=
    Datetime.fromisoformat_isoformat request.now.wellFormed
  have hstate : deserializeState request.row.stateJson = .ok request.state :=
    deserialize_serialize h
  unfold CheckpointRow.toRecord
  rw [hcreated]
  simp only [hstate]
  rfl

/-! ### Runs -/

namespace SqliteCheckpointStore

/-- A request that is taken adds its row, any other changes nothing. -/
theorem rows_step (store : SqliteCheckpointStore) (request : SaveRequest) :
    (store.step request).rows =
      if isBlank request.sessionId = true ∨
          request.id ∈ store.rows.map CheckpointRow.checkpointId then store.rows
      else store.rows ++ [request.row] := by
  unfold step save
  by_cases hblank : isBlank request.sessionId = true
  · rw [if_pos hblank, if_pos (.inl hblank)]
  · by_cases hid : request.id ∈ store.rows.map CheckpointRow.checkpointId
    · rw [if_neg hblank, dif_pos hid, if_pos (.inr hid)]
    · rw [if_neg hblank, dif_neg hid, if_neg (not_or_intro hblank hid)]

/-- The table holds the rows of the requests that were taken. -/
theorem rows_run (requests : List SaveRequest) :
    (run step empty requests).rows = (takenSaves requests).map SaveRequest.row := by
  induction requests using List.reverseRecOn with
  | nil => rfl
  | append_singleton requests request ih =>
    have hids : (run step empty requests).rows.map CheckpointRow.checkpointId =
        (takenSaves requests).map SaveRequest.id := by
      rw [ih, List.map_map]
      rfl
    have htaken : takenSaves (requests ++ [request]) = takeSave (takenSaves requests) request := by
      unfold takenSaves
      rw [List.foldl_append]
      rfl
    rw [run_snoc, rows_step, hids, htaken]
    unfold takeSave
    split
    · exact ih
    · rw [ih, List.map_append]
      rfl

/-- What is taken is requested, in that order. -/
theorem takenSaves_sublist (requests : List SaveRequest) :
    (takenSaves requests).Sublist requests := by
  induction requests using List.reverseRecOn with
  | nil => exact List.Sublist.slnil
  | append_singleton requests request ih =>
    unfold takenSaves at ih ⊢
    rw [List.foldl_append]
    change (takeSave _ request).Sublist _
    unfold takeSave
    split
    · exact ih.trans (List.sublist_append_left requests [request])
    · exact ih.append (List.Sublist.refl _)

instance : Std.Total NewerFirst := ⟨fun a b ↦ by
  unfold NewerFirst
  rcases lt_trichotomy a.createdAt b.createdAt with hlt | heq | hlt
  · exact .inr (.inl hlt)
  · exact (le_total b.checkpointId a.checkpointId).imp (fun hle ↦ .inr ⟨heq.symm, hle⟩)
      (fun hle ↦ .inr ⟨heq, hle⟩)
  · exact .inl (.inl hlt)⟩

instance : IsTrans CheckpointRow NewerFirst := ⟨fun a b c hab hbc ↦ by
  unfold NewerFirst at hab hbc ⊢
  rcases hab with hab | ⟨hab, hid⟩
  · rcases hbc with hbc | ⟨hbc, -⟩
    · exact .inl (hbc.trans hab)
    · exact .inl (hbc ▸ hab)
  · rcases hbc with hbc | ⟨hbc, hid'⟩
    · exact .inl (hab ▸ hbc)
    · exact .inr ⟨hbc.trans hab, hid'.trans hid⟩⟩

/-- Rows in the order of their times are listed from the last to the first. -/
theorem insertionSort_newerFirst {rows : List CheckpointRow}
    (h : rows.Pairwise (fun a b ↦ a.createdAt < b.createdAt)) :
    rows.insertionSort NewerFirst = rows.reverse := by
  have hnodup : (rows.map CheckpointRow.createdAt).Nodup := List.pairwise_map.mpr (h.imp ne_of_lt)
  refine ((List.perm_insertionSort _ rows).trans rows.reverse_perm.symm).eq_of_pairwise ?_
    (List.pairwise_insertionSort _ rows) (List.pairwise_reverse.mpr (h.imp Or.inl))
  intro a b ha hb hab hba
  have hsame : a.createdAt = b.createdAt := by
    rcases hab with hlt | ⟨heq, -⟩
    · rcases hba with hlt' | ⟨heq', -⟩
      · exact absurd hlt (lt_asymm hlt')
      · exact heq'
    · exact heq.symm
  exact List.inj_on_of_nodup_map hnodup ((List.mem_insertionSort _).mp ha)
    (List.mem_reverse.mp hb) hsame

/-- The rows of a session, listed: the requests that were taken, from the last to the first. -/
theorem newestFirst_run {requests : List SaveRequest}
    (hclock : Increasing (requests.map SaveRequest.now)) (sessionId : String) :
    (run step empty requests).newestFirst sessionId =
      ((ofSession sessionId (takenSaves requests)).map SaveRequest.row).reverse := by
  have hrows : (run step empty requests).rows.filter (fun row ↦ row.sessionId = sessionId) =
      (ofSession sessionId (takenSaves requests)).map SaveRequest.row := by
    rw [rows_run, List.filter_map]
    rfl
  unfold newestFirst
  rw [hrows]
  apply insertionSort_newerFirst
  have htimes := List.pairwise_map.mp hclock
  have hkept := htimes.sublist
    ((List.filter_sublist (p := fun r ↦ r.sessionId = sessionId)).trans
      (takenSaves_sublist requests))
  exact List.pairwise_map.mpr (hkept.imp (fun hlt ↦ (UtcTime.text_lt_iff _ _).mpr hlt))

private theorem recordOf_row {request : Option SaveRequest}
    (h : ∀ r ∈ request, r.state.Storable) :
    recordOf (request.map SaveRequest.row) = .ok (request.map SaveRequest.record) := by
  cases request with
  | none => rfl
  | some request =>
    unfold recordOf
    simp only [Option.map_some, toRecord_row (h request rfl)]
    rfl

private theorem mapM_toRecord {requests : List SaveRequest}
    (h : ∀ r ∈ requests, r.state.Storable) :
    (requests.map SaveRequest.row).mapM CheckpointRow.toRecord =
      .ok (requests.map SaveRequest.record) := by
  induction requests with
  | nil => rfl
  | cons request rest ih =>
    rw [List.map_cons, List.mapM_cons, toRecord_row (h request List.mem_cons_self),
      ih (fun r hr ↦ h r (List.mem_cons_of_mem request hr))]
    rfl

/-- The last save of a session that was taken. -/
def lastSave (sessionId : String) (requests : List SaveRequest) : Option SaveRequest :=
  (ofSession sessionId (takenSaves requests)).getLast?

/-- The last save is one of the calls. -/
theorem mem_of_lastSave {sessionId : String} {requests : List SaveRequest} {request : SaveRequest}
    (h : lastSave sessionId requests = some request) : request ∈ requests :=
  (takenSaves_sublist requests).subset (List.mem_filter.mp (List.mem_of_getLast? h)).1

/-- A call of `save` that returns is the last save of its session; any other changes nothing. -/
theorem lastSave_snoc (sessionId : String) (requests : List SaveRequest) (request : SaveRequest) :
    lastSave sessionId (requests ++ [request]) =
      if ((run step empty requests).save request).isOk = true ∧ request.sessionId = sessionId then
        some request
      else lastSave sessionId requests := by
  have hids : (run step empty requests).rows.map CheckpointRow.checkpointId =
      (takenSaves requests).map SaveRequest.id := by
    rw [rows_run, List.map_map]
    rfl
  have htaken : takenSaves (requests ++ [request]) = takeSave (takenSaves requests) request := by
    unfold takenSaves
    rw [List.foldl_append]
    rfl
  have hsaves : ((run step empty requests).save request).isOk = true ↔
      ¬ (isBlank request.sessionId = true ∨ request.id ∈ (takenSaves requests).map
        SaveRequest.id) := by
    unfold save
    by_cases hblank : isBlank request.sessionId = true
    · rw [if_pos hblank]
      exact iff_of_false (fun h ↦ nomatch h) (not_not_intro (.inl hblank))
    · rw [if_neg hblank]
      by_cases hid : request.id ∈ (run step empty requests).rows.map CheckpointRow.checkpointId
      · rw [dif_pos hid]
        exact iff_of_false (fun h ↦ nomatch h) (not_not_intro (.inr (hids ▸ hid)))
      · rw [dif_neg hid]
        exact iff_of_true rfl (not_or_intro hblank (hids ▸ hid))
  unfold lastSave
  rw [htaken]
  unfold takeSave
  split
  · next hrefused =>
    rw [if_neg (fun h ↦ hsaves.mp h.1 hrefused)]
  · next htake =>
    unfold ofSession
    rw [List.filter_append]
    by_cases hown : request.sessionId = sessionId
    · have hone : [request].filter (fun request ↦ request.sessionId = sessionId) = [request] :=
        List.filter_cons_of_pos (decide_eq_true hown)
      rw [if_pos ⟨hsaves.mpr htake, hown⟩, hone, List.getLast?_append]
      rfl
    · have hnone : [request].filter (fun request ↦ request.sessionId = sessionId) = [] :=
        List.filter_cons_of_neg (by simpa using hown)
      rw [if_neg (fun h ↦ hown h.2), hnone, List.append_nil]

section Queries

variable {requests : List SaveRequest} (hclock : Increasing (requests.map SaveRequest.now))
  (hstates : ∀ request ∈ requests, request.state.Storable)

include hstates

private theorem storable_taken {request : SaveRequest} (h : request ∈ takenSaves requests) :
    request.state.Storable :=
  hstates request ((takenSaves_sublist requests).subset h)

include hclock

/-- The latest record of a session is the last save of it that was taken. -/
theorem loadLatest_run (sessionId : String) :
    (run step empty requests).loadLatest sessionId =
      .ok ((lastSave sessionId requests).map SaveRequest.record) := by
  unfold loadLatest lastSave
  rw [newestFirst_run hclock sessionId, List.head?_reverse, List.getLast?_map]
  apply recordOf_row
  intro request hlast
  exact hstates request (mem_of_lastSave hlast)

private theorem listBySession_run (sessionId : String) :
    (run step empty requests).listBySession sessionId =
      .ok ((ofSession sessionId (takenSaves requests)).reverse.map SaveRequest.record) := by
  unfold listBySession
  rw [newestFirst_run hclock sessionId, ← List.map_reverse]
  apply mapM_toRecord
  intro request hrequest
  exact storable_taken hstates (List.mem_filter.mp (List.mem_reverse.mp hrequest)).1

omit hclock

private theorem load_run (checkpointId : String) :
    (run step empty requests).load checkpointId = .ok (((takenSaves requests).find?
      (fun request ↦ request.id = checkpointId)).map SaveRequest.record) := by
  have hfind : (run step empty requests).rows.find? (fun row ↦ row.checkpointId = checkpointId) =
      ((takenSaves requests).find? (fun request ↦ request.id = checkpointId)).map
        SaveRequest.row := by
    rw [rows_run, List.find?_map]
    rfl
  unfold load
  rw [hfind]
  apply recordOf_row
  intro request hfound
  exact storable_taken hstates (List.mem_of_find?_eq_some hfound)

end Queries

/-- After any calls of `save`, of any sessions, with a clock that goes forward: `load_latest` gives
a session's last state as it was saved, `list_by_session` all its states from the last to the
first, and `load` the state saved under an id; calls that raise leave no trace. -/
theorem saves_read_back {requests : List SaveRequest}
    (hclock : Increasing (requests.map SaveRequest.now))
    (hstates : ∀ request ∈ requests, request.state.Storable) (sessionId checkpointId : String) :
    let store := run step empty requests
    let saves := ofSession sessionId (takenSaves requests)
    store.loadLatest sessionId = .ok (saves.getLast?.map SaveRequest.record) ∧
      store.listBySession sessionId = .ok (saves.reverse.map SaveRequest.record) ∧
      store.load checkpointId = .ok (((takenSaves requests).find?
        (fun request ↦ request.id = checkpointId)).map SaveRequest.record) :=
  ⟨loadLatest_run hclock hstates sessionId, listBySession_run hclock hstates sessionId,
    load_run hstates checkpointId⟩

/-- A state with a time, of a session. -/
def SaveRequest.sample (sessionId : String) (second : Fin 60) : SaveRequest where
  state :=
    { runId := some "r"
      sessionId := some sessionId
      exchangeTime := some (UtcTime.sample second).time
      marketSnapshotId := none
      featureSnapshotId := none
      optionSurfaceId := none
      dataQualityId := none
      activeOrderId := none
      activePositionId := none
      pendingEventIds := some []
      errors := some [] }
  sessionId := sessionId
  checkpointId := none
  fresh := String.ofList (padded 2 second)
  now := UtcTime.sample second

private theorem storable_sample (sessionId : String) (second : Fin 60) :
    (SaveRequest.sample sessionId second).state.Storable := by
  intro time htime
  rw [← Option.some.inj htime]
  exact (UtcTime.sample second).wellFormed

/-- Two sessions save three times; each query gives what was saved. -/
theorem saves_read_back_twoSessions :
    let store := run step empty
      [SaveRequest.sample "a" 0, SaveRequest.sample "b" 1, SaveRequest.sample "a" 2]
    store.loadLatest "a" = .ok (some (SaveRequest.sample "a" 2).record) ∧
      store.listBySession "a" =
        .ok [(SaveRequest.sample "a" 2).record, (SaveRequest.sample "a" 0).record] ∧
      store.load "01" = .ok (some (SaveRequest.sample "b" 1).record) := by
  refine @saves_read_back
    [SaveRequest.sample "a" 0, SaveRequest.sample "b" 1, SaveRequest.sample "a" 2]
    (by decide) ?_ "a" "01"
  intro request hrequest
  simp only [List.mem_cons, List.not_mem_nil, or_false] at hrequest
  obtain rfl | rfl | rfl := hrequest <;> exact storable_sample _ _

end SqliteCheckpointStore
end Joker.Graph
