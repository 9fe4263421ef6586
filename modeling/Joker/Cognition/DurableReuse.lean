import Joker.Base.Interference
import Joker.Cognition.ModelRouter

/-!
# Outputs that stay on file

Library `Cognition`. Which outputs of `route_and_complete` later calls under the same key get
back. `_record_call_completed` completes the row under the call's own request id, and only while
it is in progress; a key has one row, that of the first call recorded for it. So an output is on
file exactly when it answers the call that owns the row, before that row was marked as failed.
Calls may start at the remote profile, and a profile may be missing or disabled.
-/

namespace Joker.Cognition

open Joker.Base

/-! ### Routed calls -/

/-- A call of `route_and_complete`: whether it starts at the remote profile, and whether
`provider_for_profile` resolves its profile and the remote one. -/
structure RoutedCall where
  request : ModelRequest
  remote : Bool
  resolves : Bool
  remoteResolves : Bool

namespace ModelRouter

variable {R : Type} [DecidableEq R] (router : ModelRouter)

/-- `_escalate_or_raise` of a call. -/
def escalateOrRaise (id : R) (call : RoutedCall) (error : RouterError) :
    RouterM R (ModelResult R) :=
  if call.remote || router.maxProviderEscalations = 0 then Coro.raise error
  else if call.remoteResolves then
    router.completeWithRetries id call.request Coro.raise router.maxSchemaRepairAttempts
  else Coro.raise .otherException

/-- `route_and_complete`; a profile that does not resolve raises before the table is read. -/
def routeCall (id : R) (call : RoutedCall) : RouterM R (ModelResult R) :=
  if call.resolves then
    router.completeWithRetries id call.request (router.escalateOrRaise id call)
      router.maxSchemaRepairAttempts
  else Coro.raise .otherException

/-- The tasks of a session, each call under its own request id. -/
abbrev Session (R : Type) := Pool R RouterOp (RouterState R) RouterError (ModelResult R)

/-- What the next operation meets is set from outside. -/
def setOutside (outside : Outside) (s : RouterState R) : RouterState R :=
  { s with outside := outside }

/-- One action of a session. -/
def sessionStep (calls : R → RoutedCall) : Session R → PoolAction R Outside → Session R :=
  Pool.step (fun id ↦ router.routeCall id (calls id)) setOutside

/-- A session without calls. -/
def newSession (outside : Outside) : Session R := Pool.start ⟨Dict.empty, outside⟩

/-- The calls of a session in any order of their steps. -/
def runRouted (calls : R → RoutedCall) (outside : Outside) (xs : List (PoolAction R Outside)) :
    Session R :=
  run (router.sessionStep calls) (newSession outside) xs

/-- Once a call has returned an output, every later call under its key returns an equal one and
asks no provider. -/
def DurablyIdempotent (calls : R → RoutedCall) (outside : Outside)
    (xs : List (PoolAction R Outside)) : Prop :=
  ∀ pre post, pre ++ post <+: xs → ∀ i id answer,
    (router.runRouted calls outside pre).Finished i id (.ok answer) →
    ∀ j id', (router.runRouted calls outside pre).tasks.length ≤ j →
      (calls id').request.idempotencyKey = (calls id).request.idempotencyKey →
      (∀ result, (router.runRouted calls outside (pre ++ post)).Finished j id' result →
        ∃ answer', result = .ok answer' ∧ answer'.output = answer.output) ∧
      ¬ (router.runRouted calls outside (pre ++ post)).Before j id' .completeStructured

/-! ### Conditions -/

/-- The store never raises. -/
def StoreWorks (outside : Outside) (xs : List (PoolAction R Outside)) : Prop :=
  outside.storeRaises = false ∧ ∀ a ∈ xs, ∀ event ∈ a.event?, event.storeRaises = false

/-- A provider's output is one of the type the call asks for. -/
def OutputValidates (calls : R → RoutedCall) (id : R) (op : RouterOp) (s : RouterState R) : Prop :=
  match op, s.outside.provider with
  | .completeStructured, .output json =>
    json ≠ "" ∧ router.validates (calls id).request.role json = true
  | _, _ => True

/-- The row of a request is in progress. -/
def InProgress (id : R) (s : RouterState R) : Prop :=
  (s.modelCalls.get? id).map (·.status) = some .inProgress

/-- A provider's output comes while the call's own row is in progress, or repeats the output on
file. -/
def OutputRecorded (calls : R → RoutedCall) (id : R) (op : RouterOp) (s : RouterState R) : Prop :=
  match op, s.outside.provider with
  | .completeStructured, .output json =>
    InProgress id s ∨
      (router.reusable (calls id).request s.modelCalls).map (·.output) = some json
  | _, _ => True

/-- A step that loses no output: an output is recorded, and a call whose key has an output on
file starts at a profile that resolves. -/
def KeepsOutputs (calls : R → RoutedCall) (p : Session R) (a : PoolAction R Outside) : Prop :=
  p.Meets (router.OutputRecorded calls) a ∧
    ∀ id ∈ a.spawned?, (router.reusable (calls id).request p.shared.modelCalls).isSome = true →
      (calls id).resolves = true

instance (calls : R → RoutedCall) (id : R) (op : RouterOp) (s : RouterState R) :
    Decidable (router.OutputValidates calls id op s) := by
  unfold OutputValidates
  split <;> infer_instance

instance (calls : R → RoutedCall) (id : R) (op : RouterOp) (s : RouterState R) :
    Decidable (router.OutputRecorded calls id op s) := by
  unfold OutputRecorded InProgress
  split <;> infer_instance

instance (calls : R → RoutedCall) (p : Session R) (a : PoolAction R Outside) :
    Decidable (router.KeepsOutputs calls p a) := by
  unfold KeepsOutputs
  infer_instance

/-! ### What calls keep of the table -/

/-- What a session's table always is: the rows carry the keys of their requests, a key has one
row, and completed rows hold outputs of the right type. -/
structure TableSound (calls : R → RoutedCall) (s : RouterState R) : Prop where
  works : s.outside.storeRaises = false
  keyed : s.modelCalls.KeyedBy (fun id ↦ (calls id).request)
  unique : ∀ id id' row row', s.modelCalls.get? id = some row →
    s.modelCalls.get? id' = some row' → row.idempotencyKey = row'.idempotencyKey → id = id'
  usable : ∀ id row, s.modelCalls.get? id = some row → row.status = .completed →
    ∃ json, row.validatedOutputJson = some json ∧ json ≠ "" ∧
      router.validates (calls id).request.role json = true

/-- Completed rows stay as they are. -/
def Kept (s s' : RouterState R) : Prop :=
  ∀ id row, s.modelCalls.get? id = some row → row.status = .completed →
    s'.modelCalls.get? id = some row

private theorem kept_refl (s : RouterState R) : Kept s s := fun _ _ h _ ↦ h

/-- Calls rely on their own row, promise the others theirs, and all keep completed rows. -/
def contract (calls : R → RoutedCall) : Interference R RouterOp (RouterState R) where
  inv := router.TableSound calls
  rely id s s' := s'.modelCalls.get? id = s.modelCalls.get? id ∧ Kept s s'
  guar id s s' :=
    (∀ id', id' ≠ id → s'.modelCalls.get? id' = s.modelCalls.get? id') ∧ Kept s s'
  ok id op s := router.OutputValidates calls id op s ∧ router.OutputRecorded calls id op s
  rely_refl _ s := ⟨rfl, kept_refl s⟩
  rely_trans _ _ _ _ h h' :=
    ⟨h'.1.trans h.1, fun id row hrow hdone ↦ h'.2 id row (h.2 id row hrow hdone) hdone⟩
  rely_of_guar _ id' _ _ hne h := ⟨h.1 id' (Ne.symm hne), h.2⟩

/-- What the outside meets leaves the table alone. -/
theorem kept_setOutside (outside : Outside) (s : RouterState R)
    (_ : outside.storeRaises = false) : Kept s (setOutside outside s) := kept_refl s

private theorem kept_of_guar {calls : R → RoutedCall} (id : R) (s s' : RouterState R)
    (h : (router.contract calls).guar id s s') : Kept s s' := h.2

/-- An output that is on file under a key. -/
def OnFile (key json : String) (s : RouterState R) : Prop :=
  ∃ id row, s.modelCalls.get? id = some row ∧ row.idempotencyKey = key ∧
    row.status = .completed ∧ row.validatedOutputJson = some json

/-- What a call has returned is on file under its key. -/
def ReturnsOnFile (calls : R → RoutedCall) (id : R) (result : Except RouterError (ModelResult R))
    (s : RouterState R) : Prop :=
  ∀ answer, result = .ok answer → OnFile (calls id).request.idempotencyKey answer.output s

/-- A call that raises returns nothing. -/
theorem returnsOnFile_error {calls : R → RoutedCall} {id : R} (e : RouterError)
    (s : RouterState R) : ReturnsOnFile calls id (.error e) s := by
  intro answer h
  cases h

private theorem onFile_of_kept {key json : String} {s s' : RouterState R} (h : Kept s s')
    (hfile : OnFile key json s) : OnFile key json s' := by
  obtain ⟨id, row, hrow, hkey, hdone, hjson⟩ := hfile
  exact ⟨id, row, h id row hrow hdone, hkey, hdone, hjson⟩

variable {calls : R → RoutedCall} {s : RouterState R}

/-- A row that a key finds. -/
theorem getByIdempotency_of_get? (hs : router.TableSound calls s) {id : R} {row : ModelCallRecord}
    (hrow : s.modelCalls.get? id = some row) :
    s.modelCalls.getByIdempotency row.idempotencyKey = some (id, row) := by
  cases hfind : s.modelCalls.getByIdempotency row.idempotencyKey with
  | none =>
    have hno := List.find?_eq_none.mp hfind (id, row)
      ((s.modelCalls.mem_entries_iff id row).mpr hrow)
    simp at hno
  | some found =>
    obtain ⟨id', row'⟩ := found
    obtain ⟨hrow', hkey⟩ := ModelCalls.get?_of_getByIdempotency hfind
    obtain rfl := hs.unique id' id row' row hrow' hrow hkey
    rw [hrow] at hrow'
    cases hrow'
    rfl

/-- What is reused is on file. -/
theorem onFile_of_reusable {request : ModelRequest} {answer : ModelResult R}
    (h : router.reusable request s.modelCalls = some answer) :
    OnFile request.idempotencyKey answer.output s := by
  unfold reusable at h
  split at h
  · cases h
  · next id existing hfind =>
    obtain ⟨hrow, hkey⟩ := ModelCalls.get?_of_getByIdempotency hfind
    split at h
    · cases h
    · next hdone =>
      split at h
      · cases h
      · next json hjson =>
        split at h
        · cases h
        · split at h
          · cases h
            exact ⟨id, existing, hrow, hkey, not_not.mp hdone, hjson⟩
          · cases h

/-- What is on file is reused, by requests for the role it was produced for. -/
theorem reusable_of_onFile (hs : router.TableSound calls s)
    (hroles : ∀ id id', (calls id).request.idempotencyKey = (calls id').request.idempotencyKey →
      (calls id).request.role = (calls id').request.role)
    {id : R} {json : String} (h : OnFile (calls id).request.idempotencyKey json s) :
    ∃ answer, router.reusable (calls id).request s.modelCalls = some answer ∧
      answer.output = json := by
  obtain ⟨owner, row, hrow, hkey, hdone, hjson⟩ := h
  obtain ⟨json', hjson', hne, hvalid⟩ := hs.usable owner row hrow hdone
  rw [hjson] at hjson'
  cases hjson'
  have hrole : (calls owner).request.role = (calls id).request.role :=
    hroles owner id ((hs.keyed owner row hrow).symm.trans hkey)
  have hfind := router.getByIdempotency_of_get? hs hrow
  rw [hkey] at hfind
  rw [hrole] at hvalid
  refine ⟨⟨owner, json⟩, ?_, rfl⟩
  unfold reusable
  rw [hfind]
  simp only [hdone, ne_eq, not_true_eq_false, if_false, hjson, hne, hvalid, if_true]

/-! ### Operations on the table -/

/-- An operation that leaves the table alone. -/
theorem guar_of_same (hs : router.TableSound calls s) (id : R) :
    router.TableSound calls s ∧ (router.contract calls).guar id s s :=
  ⟨hs, fun _ _ ↦ rfl, kept_refl s⟩

private theorem get?_insert {id id' : R} {record row : ModelCallRecord}
    (h : (s.modelCalls.insert id record).get? id' = some row) :
    s.modelCalls.get? id' = some row ∨ (id' = id ∧ row = record ∧
      s.modelCalls.getByIdempotency record.idempotencyKey = none) := by
  unfold ModelCalls.insert at h
  split at h
  · exact Or.inl h
  · next hfree =>
    rw [Dict.get?_set] at h
    split at h
    · next he =>
      cases h
      simp only [Bool.or_eq_true, not_or, Bool.not_eq_true, Option.isSome_eq_false_iff,
        Option.isNone_iff_eq_none] at hfree
      exact Or.inr ⟨he.symm, rfl, hfree.2⟩
    · exact Or.inl h

/-- Recording the start of a call. -/
theorem guar_insert (hs : router.TableSound calls s) (id : R) (record : ModelCallRecord)
    (hkey : record.idempotencyKey = (calls id).request.idempotencyKey)
    (hopen : record.status ≠ .completed) :
    router.TableSound calls { s with modelCalls := s.modelCalls.insert id record } ∧
      (router.contract calls).guar id s
        { s with modelCalls := s.modelCalls.insert id record } := by
  -- a row under the new row's key would have been found
  have hfree (id' : R) (row : ModelCallRecord) (hrow : s.modelCalls.get? id' = some row)
      (hsame : row.idempotencyKey = record.idempotencyKey)
      (hnone : s.modelCalls.getByIdempotency record.idempotencyKey = none) : False := by
    have hfind := router.getByIdempotency_of_get? hs hrow
    rw [hsame, hnone] at hfind
    cases hfind
  refine ⟨⟨hs.works, ModelCalls.keyedBy_insert hs.keyed hkey, ?_, ?_⟩, ?_, ?_⟩
  · intro a b row row' ha hb hsame
    rcases get?_insert ha with hold | ⟨hid, hrow, hnone⟩ <;>
      rcases get?_insert hb with hold' | ⟨hid', hrow', hnone'⟩
    · exact hs.unique a b row row' hold hold' hsame
    · exact (hfree a row hold (hrow' ▸ hsame) hnone').elim
    · exact (hfree b row' hold' (hrow ▸ hsame.symm) hnone).elim
    · exact hid.trans hid'.symm
  · intro a row ha hdone
    rcases get?_insert ha with ha | ⟨rfl, rfl, hnone⟩
    · exact hs.usable a row ha hdone
    · exact absurd hdone hopen
  · intro id' hne
    change (s.modelCalls.insert id record).get? id' = _
    unfold ModelCalls.insert
    split
    · rfl
    · exact Dict.get?_set_ne _ _ (Ne.symm hne)
  · intro id' row hrow hdone
    change (s.modelCalls.insert id record).get? id' = _
    unfold ModelCalls.insert
    split
    · exact hrow
    · next hnew =>
      rw [Dict.get?_set]
      split
      · next he =>
        subst he
        rw [hrow] at hnew
        exact absurd rfl hnew
      · exact hrow

private theorem get?_update {id id' : R} {status : ModelCallStatus} {output : Option String}
    {row : ModelCallRecord} (h : (s.modelCalls.update id status output).get? id' = some row) :
    (id' ≠ id ∧ s.modelCalls.get? id' = some row) ∨ (id' = id ∧ ∃ old,
      s.modelCalls.get? id = some old ∧
        row = { old with status := status, validatedOutputJson := output }) := by
  unfold ModelCalls.update at h
  split at h
  · next old hold =>
    rw [Dict.get?_set] at h
    split at h
    · next he =>
      cases h
      exact Or.inr ⟨he.symm, old, hold, rfl⟩
    · next hne => exact Or.inl ⟨Ne.symm hne, h⟩
  · next hnone =>
    refine Or.inl ⟨?_, h⟩
    rintro rfl
    rw [hnone] at h
    cases h

/-- Marking a call's own row, which is not completed. -/
theorem guar_update (hs : router.TableSound calls s) {id : R} {status : ModelCallStatus}
    {output : Option String}
    (hopen : ∀ row, s.modelCalls.get? id = some row → row.status ≠ .completed)
    (hmark : status = .completed → ∃ json, output = some json ∧ json ≠ "" ∧
      router.validates (calls id).request.role json = true) :
    router.TableSound calls { s with modelCalls := s.modelCalls.update id status output } ∧
      (router.contract calls).guar id s
        { s with modelCalls := s.modelCalls.update id status output } := by
  -- an updated row keeps its key
  have hkept (a : R) (row : ModelCallRecord)
      (h : (s.modelCalls.update id status output).get? a = some row) :
      ∃ old, s.modelCalls.get? a = some old ∧ old.idempotencyKey = row.idempotencyKey := by
    rcases get?_update h with ⟨-, h⟩ | ⟨rfl, old, hold, rfl⟩
    · exact ⟨row, h, rfl⟩
    · exact ⟨old, hold, rfl⟩
  refine ⟨⟨hs.works, ModelCalls.keyedBy_update hs.keyed id status output, ?_, ?_⟩, ?_, ?_⟩
  · intro a b row row' ha hb hkey
    obtain ⟨old, hold, hkey₁⟩ := hkept a row ha
    obtain ⟨old', hold', hkey₂⟩ := hkept b row' hb
    exact hs.unique a b old old' hold hold' (hkey₁.trans (hkey.trans hkey₂.symm))
  · intro a row ha hdone
    rcases get?_update ha with ⟨-, ha⟩ | ⟨rfl, old, hold, rfl⟩
    · exact hs.usable a row ha hdone
    · exact hmark hdone
  · intro id' hne
    change (s.modelCalls.update id status output).get? id' = _
    unfold ModelCalls.update
    split
    · exact Dict.get?_set_ne _ _ (Ne.symm hne)
    · rfl
  · intro id' row hrow hdone
    have hne : id' ≠ id := by
      rintro rfl
      exact hopen row hrow hdone
    change (s.modelCalls.update id status output).get? id' = _
    unfold ModelCalls.update
    split
    · exact (Dict.get?_set_ne _ _ (Ne.symm hne)).trans hrow
    · exact hrow

/-! ### Calls -/

-- A part of the call with this id is safe from every sound table.
private abbrev SafeCall {α : Type} (calls : R → RoutedCall) (id : R)
    (Q : Except RouterError α → RouterState R → Prop) (c : RouterM R α) : Prop :=
  ∀ s, router.TableSound calls s → c.Safe (router.contract calls) id Q s

private theorem safe_recordCallStarted (id : R) :
    router.SafeCall calls id (fun _ _ ↦ True) (recordCallStarted id (calls id).request) := by
  intro s hs
  apply Coro.safe_bind (Q := fun _ _ ↦ True) _ hs _ (fun _ _ _ ↦ trivial)
  · exact Coro.safe_atomic (fun s' _ hs' _ ↦
      ⟨hs', (router.guar_of_same hs' id).2, trivial⟩)
  · intro free s' hs' _
    split
    · apply Coro.safe_atomic
      intro s'' _ hs'' _
      simp only [hs''.works, Bool.false_eq_true, if_false]
      obtain ⟨hsound, hguar⟩ := router.guar_insert hs'' id
        ⟨(calls id).request.idempotencyKey, .inProgress, none⟩ rfl (fun h ↦ nomatch h)
      exact ⟨hsound, hguar, trivial⟩
    · trivial

private theorem safe_findRow (id : R) :
    router.SafeCall calls id (fun result s ↦ ∀ row, result = .ok row → row = s.modelCalls.get? id)
      (findRow id) := by
  intro s _
  apply Coro.safe_atomic
  intro s' _ hs' _
  refine ⟨hs', (router.guar_of_same hs' id).2, ?_⟩
  intro row hrow
  simp only [hs'.works, Bool.false_eq_true, if_false, Except.ok.injEq] at hrow
  exact hrow.symm

private theorem safe_updateRow (id : R) (status : ModelCallStatus) (output : Option String)
    (hmark : status = .completed → ∃ json, output = some json ∧ json ≠ "" ∧
      router.validates (calls id).request.role json = true) {s : RouterState R}
    (hopen : ∀ row, s.modelCalls.get? id = some row → row.status ≠ .completed) :
    (updateRow id status output).Safe (router.contract calls) id
      (fun _ s' ↦ ∀ row, s.modelCalls.get? id = some row →
        s'.modelCalls.get? id = some { row with status := status, validatedOutputJson := output })
      s := by
  apply Coro.safe_atomic
  intro s' hrely hs' _
  have hsame : s'.modelCalls.get? id = s.modelCalls.get? id := hrely.1
  simp only [hs'.works, Bool.false_eq_true, if_false]
  obtain ⟨hsound, hguar⟩ := router.guar_update hs'
    (fun row hrow ↦ hopen row (hsame.symm.trans hrow)) hmark
  refine ⟨hsound, hguar, ?_⟩
  intro row hrow
  unfold ModelCalls.update
  rw [hsame, hrow]
  exact Dict.get?_set_self _ _ _

private theorem safe_recordCallFailed (id : R) :
    router.SafeCall calls id (fun _ _ ↦ True) (recordCallFailed id) := by
  intro s hs
  apply Coro.safe_bind (router.safe_findRow id s hs) hs _ (fun _ _ _ ↦ trivial)
  intro row s' hs' hrow
  cases row with
  | none => trivial
  | some record =>
    simp only
    split
    · trivial
    · next hopen =>
      have hown : s'.modelCalls.get? id = some record := (hrow _ rfl).symm
      refine Coro.Safe.imp (fun _ _ _ ↦ trivial) (router.safe_updateRow id .failed _ ?_ ?_)
      · exact fun h ↦ nomatch h
      · intro row hget
        rw [hown] at hget
        cases hget
        exact hopen

/-- A call's output is on file, or will be: its own row is in progress. -/
private def Recordable (calls : R → RoutedCall) (id : R) (json : String) (s : RouterState R) :
    Prop :=
  InProgress id s ∨ OnFile (calls id).request.idempotencyKey json s

private theorem safe_recordCallCompleted (id : R) {json : String} (hne : json ≠ "")
    (hvalid : router.validates (calls id).request.role json = true) {s : RouterState R}
    (hs : router.TableSound calls s) (hrec : Recordable calls id json s) :
    (recordCallCompleted id json).Safe (router.contract calls) id
      (fun result s ↦ ∀ u, result = .ok u → OnFile (calls id).request.idempotencyKey json s) s := by
  apply Coro.safe_bind (Q := fun result s ↦ ∀ row, result = .ok row →
    row = s.modelCalls.get? id ∧ Recordable calls id json s) _ hs
  · intro row s' hs' hrow
    obtain ⟨hown, hrec'⟩ := hrow row rfl
    cases row with
    | none =>
      -- without an own row the output is on file already
      have hfile := hrec'.resolve_left (by
        unfold InProgress
        rw [← hown]
        simp)
      exact fun _ _ ↦ hfile
    | some record =>
      simp only
      split
      · next hopen =>
        refine Coro.Safe.imp ?_ (router.safe_updateRow id .completed (some json)
          (fun _ ↦ ⟨json, rfl, hne, hvalid⟩) ?_)
        · intro result s'' hrow _ _
          exact ⟨id, _, hrow record hown.symm, hs'.keyed id record hown.symm, rfl, rfl⟩
        · intro row hget
          rw [← hown] at hget
          cases hget
          rw [hopen]
          decide
      · next hclosed =>
        have hfile := hrec'.resolve_left (by
          unfold InProgress
          rw [← hown]
          simpa using hclosed)
        exact fun _ _ ↦ hfile
  · intro e s' _ u hu
    cases hu
  · apply Coro.safe_atomic
    intro s' hrely hs' _
    refine ⟨hs', (router.guar_of_same hs' id).2, ?_⟩
    intro row hrow
    simp only [hs'.works, Bool.false_eq_true, if_false, Except.ok.injEq] at hrow
    refine ⟨hrow.symm, hrec.imp ?_ (onFile_of_kept hrely.2)⟩
    unfold InProgress
    rw [hrely.1]
    exact fun h ↦ h

private theorem safe_completeOnce (id : R) {repair : RouterM R (ModelResult R)}
    {escalate : RouterError → RouterM R (ModelResult R)}
    (hrepair : router.SafeCall calls id (ReturnsOnFile calls id) repair)
    (hescalate : ∀ e, router.SafeCall calls id (ReturnsOnFile calls id) (escalate e)) :
    router.SafeCall calls id (ReturnsOnFile calls id)
      (router.completeOnce id (calls id).request repair escalate) := by
  have hraised (e : RouterError) (s : RouterState R) : ReturnsOnFile calls id (.error e) s :=
    returnsOnFile_error e s
  intro s hs
  apply Coro.safe_bind (Q := fun result s ↦ ∀ answer, result = .ok (some answer) →
    OnFile (calls id).request.idempotencyKey answer.output s) _ hs
  · intro reused s' hs' hfile
    cases reused with
    | some reused =>
      intro answer h
      cases h
      exact hfile reused rfl
    | none =>
      apply Coro.safe_bind (router.safe_recordCallStarted id s' hs') hs'
      · intro _ s₁ hs₁ _
        apply Coro.safe_bind (Q := fun result s ↦ ∀ json, result = .ok (.output json) →
          (json ≠ "" ∧ router.validates (calls id).request.role json = true) ∧
            Recordable calls id json s) _ hs₁
        · intro outcome s₂ hs₂ hout
          cases outcome with
          | output json =>
            obtain ⟨⟨hne, hvalid⟩, hrec⟩ := hout json rfl
            apply Coro.safe_bind (router.safe_recordCallCompleted id hne hvalid hs₂ hrec) hs₂
            · intro u s₃ _ hfile answer h
              cases h
              exact hfile u rfl
            · exact fun e s₃ _ ↦ hraised e s₃
          | structuredOutputFailure => exact hrepair s₂ hs₂
          | modelError =>
            apply Coro.safe_bind (router.safe_recordCallFailed id s₂ hs₂) hs₂
            · exact fun _ s₃ hs₃ _ ↦ hescalate _ s₃ hs₃
            · exact fun e s₃ _ ↦ hraised e s₃
          | otherException => exact hraised _ s₂
        · exact fun e s₂ _ ↦ hraised e s₂
        · apply Coro.safe_atomic
          intro s₂ _ hs₂ hcond
          refine ⟨hs₂, (router.guar_of_same hs₂ id).2, ?_⟩
          intro json hjson
          have hprovider : s₂.outside.provider = .output json := Except.ok.inj hjson
          obtain ⟨hvalid, hrec⟩ := hcond
          unfold OutputValidates at hvalid
          unfold OutputRecorded at hrec
          rw [hprovider] at hvalid hrec
          refine ⟨hvalid, hrec.imp_right ?_⟩
          intro hreuse
          obtain ⟨answer, hanswer, hout⟩ := Option.map_eq_some_iff.mp hreuse
          exact hout ▸ router.onFile_of_reusable hanswer
      · exact fun e s₁ _ ↦ hraised e s₁
  · exact fun e s' _ ↦ hraised e s'
  · apply Coro.safe_atomic
    intro s' _ hs' _
    refine ⟨hs', (router.guar_of_same hs' id).2, ?_⟩
    intro answer hanswer
    simp only [hs'.works, Bool.false_eq_true, if_false, Except.ok.injEq] at hanswer
    exact router.onFile_of_reusable hanswer

private theorem safe_completeWithRetries (id : R)
    {escalate : RouterError → RouterM R (ModelResult R)}
    (hescalate : ∀ e, router.SafeCall calls id (ReturnsOnFile calls id) (escalate e))
    (repairs : ℕ) :
    router.SafeCall calls id (ReturnsOnFile calls id)
      (router.completeWithRetries id (calls id).request escalate repairs) := by
  induction repairs with
  | zero =>
    apply router.safe_completeOnce id _ hescalate
    intro s hs
    apply Coro.safe_bind (router.safe_recordCallFailed id s hs) hs
    · exact fun _ s' hs' _ ↦ hescalate _ s' hs'
    · exact fun e s' _ ↦ returnsOnFile_error e s'
  | succ repairs ih => exact router.safe_completeOnce id ih hescalate

private theorem safe_routeCall (id : R) :
    router.SafeCall calls id (ReturnsOnFile calls id) (router.routeCall id (calls id)) := by
  have hraise (e : RouterError) :
      router.SafeCall calls id (ReturnsOnFile calls id) (Coro.raise e) :=
    fun s _ ↦ returnsOnFile_error e s
  unfold routeCall
  split
  · apply router.safe_completeWithRetries id
    intro e
    unfold escalateOrRaise
    split
    · exact hraise e
    · split
      · exact router.safe_completeWithRetries id hraise _
      · exact hraise _
  · exact hraise _

/-! ### Runs -/

/-- Every call keeps the contract. -/
theorem respectful_routeCall :
    Pool.Respectful (fun id ↦ router.routeCall id (calls id)) setOutside
      (fun outside _ ↦ outside.storeRaises = false) (router.contract calls) (fun _ _ ↦ True)
      (ReturnsOnFile calls) where
  body id s hs _ := router.safe_routeCall id s hs
  start _ _ _ _ _ := trivial
  env _ s houtside hs :=
    ⟨⟨houtside, hs.keyed, hs.unique, hs.usable⟩, fun _ ↦ ⟨rfl, kept_refl s⟩⟩
  stable _ _ _ _ hrely h answer hanswer := onFile_of_kept hrely.2 (h answer hanswer)

/-- A call whose key has an output on file returns it with its first operation. -/
theorem next_routeCall (id : R) {call : RoutedCall} (hresolves : call.resolves = true)
    (hworks : s.outside.storeRaises = false) {answer : ModelResult R}
    (hreuse : router.reusable call.request s.modelCalls = some answer) :
    ∃ effect next, router.routeCall id call = .op .select effect next ∧
      next s = .done (.ok answer) := by
  have hround (repair : RouterM R (ModelResult R))
      (escalate : RouterError → RouterM R (ModelResult R)) :
      ∃ effect next, router.completeOnce id call.request repair escalate =
        .op .select effect next ∧ next s = .done (.ok answer) := by
    refine ⟨_, _, rfl, ?_⟩
    simp only [hworks, Bool.false_eq_true, if_false, hreuse]
    rfl
  unfold routeCall
  rw [if_pos hresolves]
  cases router.maxSchemaRepairAttempts with
  | zero => exact hround _ _
  | succ repairs => exact hround _ _

/-- A later call has not started yet or has returned the output. -/
private def Served (calls : R → RoutedCall) (output : String) (id : R)
    (code : RouterM R (ModelResult R)) : Prop :=
  (code = router.routeCall id (calls id) ∧ (calls id).resolves = true) ∨
    ∃ answer, code = .done (.ok answer) ∧ answer.output = output

private theorem Served.cases {output : String} {id : R} {code : RouterM R (ModelResult R)}
    (h : router.Served calls output id code) (hs : router.TableSound calls s)
    (hroles : ∀ id id', (calls id).request.idempotencyKey = (calls id').request.idempotencyKey →
      (calls id).request.role = (calls id').request.role)
    (hfile : OnFile (calls id).request.idempotencyKey output s) :
    (∃ effect next answer, code = .op .select effect next ∧ next s = .done (.ok answer) ∧
        answer.output = output) ∨
      ∃ answer, code = .done (.ok answer) ∧ answer.output = output := by
  refine h.imp_left ?_
  rintro ⟨rfl, hresolves⟩
  obtain ⟨answer, hreuse, hout⟩ := router.reusable_of_onFile hs hroles hfile
  obtain ⟨effect, next, hop, hnext⟩ := router.next_routeCall id hresolves hs.works hreuse
  exact ⟨effect, next, answer, hop, hnext, hout⟩

private theorem served_step {p : Session R} {a : PoolAction R Outside} {output : String}
    (hs : router.TableSound calls p.shared)
    (hroles : ∀ id id', (calls id).request.idempotencyKey = (calls id').request.idempotencyKey →
      (calls id).request.role = (calls id').request.role)
    (hkeeps : router.KeepsOutputs calls p a) {id : R}
    (hfile : OnFile (calls id).request.idempotencyKey output p.shared) {j : ℕ}
    {code : RouterM R (ModelResult R)}
    (hj : (router.sessionStep calls p a).tasks[j]? = some ⟨id, some code⟩)
    (hnow : ∀ code', p.tasks[j]? = some ⟨id, some code'⟩ → router.Served calls output id code') :
    router.Served calls output id code := by
  rcases Pool.getElem?_step hj with ⟨rfl, -, rfl⟩ | ⟨-, label, effect, next, ht, rfl⟩ | hj
  · obtain ⟨reused, hreuse, -⟩ := router.reusable_of_onFile hs hroles hfile
    exact Or.inl ⟨rfl, hkeeps.2 id rfl (Option.isSome_iff_exists.mpr ⟨reused, hreuse⟩)⟩
  · rcases (hnow _ ht).cases router hs hroles hfile with
      ⟨effect', next', answer, hcode, hnext, hout⟩ | ⟨answer, hcode, -⟩
    · cases hcode
      exact Or.inr ⟨answer, hnext, hout⟩
    · cases hcode
  · exact hnow code hj

variable {outside : Outside} {xs : List (PoolAction R Outside)}

private theorem safe_runRouted (hids : (xs.filterMap (·.spawned?)).Nodup)
    (hstore : StoreWorks outside xs)
    (hvalid : StepsMeet (router.sessionStep calls) (Pool.Meets (router.OutputValidates calls))
      (newSession outside) xs)
    (hkeeps : StepsMeet (router.sessionStep calls) (router.KeepsOutputs calls)
      (newSession outside) xs) :
    (∀ pre, pre <+: xs → (router.runRouted calls outside pre).AllSafe (router.contract calls)
      (fun _ _ ↦ True) (ReturnsOnFile calls)) ∧
    ∀ pre a, pre ++ [a] <+: xs →
      Kept (router.runRouted calls outside pre).shared
        (router.sessionStep calls (router.runRouted calls outside pre) a).shared := by
  have hmeets (pre : List (PoolAction R Outside)) (a : PoolAction R Outside)
      (hp : pre ++ [a] <+: xs) :
      (router.runRouted calls outside pre).Meets (router.contract calls).ok a :=
    Pool.meets_and (ok_of_stepsMeet hvalid pre a hp) (ok_of_stepsMeet hkeeps pre a hp).1
  have hsound : router.TableSound calls ⟨Dict.empty, outside⟩ :=
    { works := hstore.1
      keyed := fun id row h ↦ nomatch h
      unique := fun id _ row _ h ↦ nomatch h
      usable := fun id row h ↦ nomatch h }
  have hworks (pre : List (PoolAction R Outside)) (a : PoolAction R Outside)
      (hp : pre ++ [a] <+: xs) : ∀ event ∈ a.event?, event.storeRaises = false :=
    hstore.2 a (hp.subset (by simp))
  have hsafe := Pool.allSafe_run router.respectful_routeCall hsound (fun _ ↦ trivial) hids hworks
    hmeets
  exact ⟨hsafe, fun pre a hp ↦ Pool.related_step kept_refl router.kept_of_guar kept_setOutside
    (hsafe pre ((List.prefix_append pre [a]).trans hp)) (hmeets pre a hp) (hworks pre a hp)⟩

/-- In a run whose steps lose no output, every later call under the key of a call that returned
an output returns it without a provider. -/
theorem durablyIdempotent_of_keepsOutputs
    (hroles : ∀ id id', (calls id).request.idempotencyKey = (calls id').request.idempotencyKey →
      (calls id).request.role = (calls id').request.role)
    (hids : (xs.filterMap (·.spawned?)).Nodup) (hstore : StoreWorks outside xs)
    (hvalid : StepsMeet (router.sessionStep calls) (Pool.Meets (router.OutputValidates calls))
      (newSession outside) xs)
    (hkeeps : StepsMeet (router.sessionStep calls) (router.KeepsOutputs calls)
      (newSession outside) xs) :
    router.DurablyIdempotent calls outside xs := by
  obtain ⟨hsafe, hkept⟩ := router.safe_runRouted hids hstore hvalid hkeeps
  intro pre post hp i id answer hreturned
  have hpre := hsafe pre ((List.prefix_append pre post).trans hp)
  have hfile := hpre.safe i id _ hreturned answer rfl
  -- from here on the output stays on file, and later calls are served
  suffices hserved : ∀ mid, mid <+: post →
      OnFile (calls id).request.idempotencyKey answer.output
          (router.runRouted calls outside (pre ++ mid)).shared ∧
        ∀ j id' code, (router.runRouted calls outside pre).tasks.length ≤ j →
          (router.runRouted calls outside (pre ++ mid)).tasks[j]? = some ⟨id', some code⟩ →
          (calls id').request.idempotencyKey = (calls id).request.idempotencyKey →
          router.Served calls answer.output id' code by
    intro j id' hlater hkey
    obtain ⟨hfileEnd, hall⟩ := hserved post (List.prefix_refl post)
    have hcases {code : RouterM R (ModelResult R)}
        (hj : (router.runRouted calls outside (pre ++ post)).tasks[j]? = some ⟨id', some code⟩) :=
      (hall j id' code hlater hj hkey).cases router (hsafe (pre ++ post) hp).inv hroles
        (hkey.symm ▸ hfileEnd)
    constructor
    · intro result hfinished
      rcases hcases hfinished with ⟨effect, next, answer', hcode, -⟩ | ⟨answer', hcode, hout⟩
      · cases hcode
      · cases hcode
        exact ⟨answer', rfl, hout⟩
    · rintro ⟨effect, next, hbefore⟩
      rcases hcases hbefore with ⟨effect', next', answer', hcode, -⟩ | ⟨answer', hcode, -⟩ <;>
        cases hcode
  intro mid
  induction mid using List.reverseRecOn with
  | nil =>
    intro _
    rw [List.append_nil]
    refine ⟨hfile, ?_⟩
    intro j id' code hlater hj
    have hlt := (List.getElem?_eq_some_iff.mp hj).1
    omega
  | append_singleton mid a ih =>
    intro hmid
    have hpa : (pre ++ mid) ++ [a] <+: xs := by
      rw [List.append_assoc]
      exact ((List.prefix_append_right_inj pre).mpr hmid).trans hp
    have hsafeNow := hsafe (pre ++ mid) ((List.prefix_append (pre ++ mid) [a]).trans hpa)
    obtain ⟨hfileNow, hservedNow⟩ := ih ((List.prefix_append mid [a]).trans hmid)
    have hstep : router.runRouted calls outside (pre ++ (mid ++ [a])) =
        router.sessionStep calls (router.runRouted calls outside (pre ++ mid)) a := by
      rw [← List.append_assoc]
      exact run_snoc _ _ _ _
    rw [hstep]
    refine ⟨onFile_of_kept (hkept (pre ++ mid) a hpa) hfileNow, ?_⟩
    intro j id' code hlater hj hkey
    exact router.served_step hsafeNow.inv hroles (ok_of_stepsMeet hkeeps _ _ hpa)
      (hkey.symm ▸ hfileNow) hj (fun code' hj' ↦ hservedNow j id' code' hlater hj' hkey)

/-- A call that is about to return has returned after its next operation. -/
theorem finished_of_returning {i : ℕ} {id : R} {result : Except RouterError (ModelResult R)}
    (h : (router.runRouted calls outside xs).Returning i id result) :
    (router.runRouted calls outside (xs ++ [.resume i])).Finished i id result := by
  unfold runRouted at h ⊢
  rw [run_snoc]
  exact Pool.finished_of_returning h

end ModelRouter

/-! ### Samples -/

/-- A router whose output types accept every text. -/
def ModelRouter.sample : ModelRouter := ⟨1, 1, fun _ _ ↦ true⟩

/-- One request, called under any request id. -/
def RoutedCall.sample (_ : ℕ) : RoutedCall := ⟨⟨"k", .falsifier, Dict.empty⟩, false, true, true⟩

/-- From now on the providers answer with an output. -/
def answering (json : String) : PoolAction ℕ Outside := .env ⟨.output json, false⟩

/-- A first round fails validation, its repair succeeds, and the request is made again. -/
def repairedCall : List (PoolAction ℕ Outside) :=
  .spawn 0 :: List.replicate 4 (.resume 0) ++ answering "{}" :: List.replicate 5 (.resume 0) ++
    [.spawn 1, .resume 1]

/-- The output of the repaired call is returned again. -/
theorem durablyIdempotent_repairedCall :
    ModelRouter.sample.DurablyIdempotent RoutedCall.sample ⟨.structuredOutputFailure, false⟩
      repairedCall :=
  ModelRouter.sample.durablyIdempotent_of_keepsOutputs (fun _ _ _ ↦ rfl) (by decide)
    ⟨rfl, by decide⟩ (by decide +kernel) (by decide +kernel)

/-- The provider of the first profile is unavailable, and the escalation succeeds. -/
def escalatedCall : List (PoolAction ℕ Outside) :=
  .spawn 0 :: List.replicate 6 (.resume 0) ++ answering "{}" :: List.replicate 3 (.resume 0)

/-- The request is made again. -/
def sameRequest : List (PoolAction ℕ Outside) :=
  .spawn 1 :: answering "[]" :: List.replicate 3 (.resume 1)

/-- After an escalation the same request is answered by a provider once more. -/
theorem not_durablyIdempotent_escalatedCall :
    ¬ ∀ xs : List (PoolAction ℕ Outside), (xs.filterMap (·.spawned?)).Nodup →
      ModelRouter.StoreWorks ⟨.modelError, false⟩ xs →
      ModelRouter.sample.DurablyIdempotent RoutedCall.sample ⟨.modelError, false⟩ xs := by
  intro h
  have hfirst : (ModelRouter.sample.runRouted RoutedCall.sample ⟨.modelError, false⟩
      escalatedCall).Returning 0 0 (.ok ⟨0, "{}"⟩) := by
    unfold Pool.Returning
    decide +kernel
  have hsecond : (ModelRouter.sample.runRouted RoutedCall.sample ⟨.modelError, false⟩
      (escalatedCall ++ [.resume 0] ++ sameRequest)).Returning 1 1 (.ok ⟨1, "[]"⟩) := by
    unfold Pool.Returning
    decide +kernel
  have hdurable := h ((escalatedCall ++ [.resume 0]) ++ (sameRequest ++ [.resume 1])) (by decide)
    ⟨rfl, by decide⟩ (escalatedCall ++ [.resume 0]) (sameRequest ++ [.resume 1])
    (List.prefix_refl _) 0 0 ⟨0, "{}"⟩
  have hfinished : (ModelRouter.sample.runRouted RoutedCall.sample ⟨.modelError, false⟩
      (escalatedCall ++ [.resume 0])).Finished 0 0 (.ok ⟨0, "{}"⟩) :=
    ModelRouter.sample.finished_of_returning hfirst
  have hagain : (ModelRouter.sample.runRouted RoutedCall.sample ⟨.modelError, false⟩
      ((escalatedCall ++ [.resume 0]) ++ (sameRequest ++ [.resume 1]))).Finished 1 1
        (.ok ⟨1, "[]"⟩) := by
    rw [← List.append_assoc]
    exact ModelRouter.sample.finished_of_returning hsecond
  obtain ⟨answer, hanswer, hout⟩ :=
    (hdurable hfinished 1 1 (by decide +kernel) rfl).1 _ hagain
  cases hanswer
  exact absurd hout (by decide)

end Joker.Cognition
